import MulticastProxy.LinuxClient.Frame
import MulticastProxy.LinuxServer.Copies
import MulticastProxy.LinuxServer.TableInvariant

/-!
# Linux proxies: the way of one datagram

The server proxy sends a copy to a member, a network carries it, and the client proxy there sends a
datagram to its group. Of the network it is known that it changes no more than the time to live and
the header checksum; a frame may be padded.
-/

namespace MulticastProxy.LinuxProxies

set_option autoImplicit false

open OnesComplement
open LinuxServer (Rewritten)
open LinuxClient (etherHeaderSize WellFormedPacket GroupFrame buffered rebuiltUdp)

/-- What a network does to a packet. -/
structure Carried (sent received : List UInt8) : Prop where
  length : sent.length ≤ received.length
  bytes : ∀ a < sent.length, a ≠ IpHdr.ttl → a < IpHdr.checksum ∨ IpHdr.checksum + 2 ≤ a →
    received.getD a 0 = sent.getD a 0

/-- The datagram of an application behind the address and port of a group. -/
structure Restored (packet : List UInt8) (multiIp : UInt32) (multiPort : UInt16)
    (out : List UInt8) : Prop where
  wellFormed : WellFormedUdp out
  length : out.length = totalLength packet
  header : headerLength out = headerLength packet
  srcaddr : inAddr out IpHdr.srcaddr = inAddr packet IpHdr.srcaddr
  destaddr : inAddr out IpHdr.destaddr = multiIp
  destPortno : word16 out (headerLength packet + UdpHdr.destPortno) = multiPort
  payload : out.drop (headerLength packet + 8) =
    (packet.take (totalLength packet)).drop (headerLength packet + 8)
  ipVerifies : IpVerifies out
  udpVerifies : UdpVerifies out

/-! ## Fields of packets that share bytes -/

section
variable {packet packet' : List UInt8} {off : Nat}

theorem word16_of_getD (h0 : packet'.getD off 0 = packet.getD off 0)
    (h1 : packet'.getD (off + 1) 0 = packet.getD (off + 1) 0) :
    word16 packet' off = word16 packet off := by
  rw [word16, word16, h0, h1]

theorem inAddr_of_getD (h : ∀ i < 4, packet'.getD (off + i) 0 = packet.getD (off + i) 0) :
    inAddr packet' off = inAddr packet off :=
  Memory.load32_congr h

theorem headerLength_of_getD (h : packet'.getD IpHdr.verlen 0 = packet.getD IpHdr.verlen 0) :
    headerLength packet' = headerLength packet := by
  rw [headerLength, headerLength, h]

/-- The same bytes from a place on. -/
theorem drop_of_getD {n k : Nat} (hn : n ≤ packet.length) (hn' : n ≤ packet'.length)
    (h : ∀ a < n, k ≤ a → packet'.getD a 0 = packet.getD a 0) :
    (packet'.take n).drop k = (packet.take n).drop k := by
  apply List.ext_getElem
  · simp only [List.length_drop, List.length_take]
    omega
  · intro i hi hi'
    simp only [List.length_drop, List.length_take] at hi hi'
    have hbyte := h (k + i) (by omega) (by omega)
    rw [List.getD_eq_getElem?_getD, List.getElem?_eq_getElem (by omega), Option.getD_some,
      List.getD_eq_getElem?_getD, List.getElem?_eq_getElem (by omega), Option.getD_some] at hbyte
    rw [List.getElem_drop, List.getElem_take, List.getElem_drop, List.getElem_take]
    exact hbyte

end

/-! ## A copy on its way -/

section
variable {packet received : List UInt8} {serverPort : UInt16} {ip : UInt32}
  {o : LinuxServer.Sent}

/-- What reaches the client proxy: the packet, but for what the server proxy has written anew. -/
structure Arrived (packet : List UInt8) (serverPort : UInt16) (ip : UInt32)
    (received : List UInt8) : Prop where
  length : totalLength packet ≤ received.length
  kept : ∀ a < totalLength packet, ¬ Rewritten (headerLength packet) a →
    received.getD a 0 = packet.getD a 0
  destaddr : inAddr received IpHdr.destaddr = ip
  destPortno : word16 received (headerLength packet + UdpHdr.destPortno) = serverPort

theorem Arrived.word (h : Arrived packet serverPort ip received) {a : Nat}
    (ha : a + 1 < totalLength packet) (h0 : ¬ Rewritten (headerLength packet) a)
    (h1 : ¬ Rewritten (headerLength packet) (a + 1)) : word16 received a = word16 packet a :=
  word16_of_getD (h.kept a (by omega) h0) (h.kept (a + 1) ha h1)

theorem arrived_of_carried (hwf : WellFormedUdp packet)
    (hcopy : LinuxServer.IsCopy packet serverPort ip o)
    (h : Carried o.bytes received) : Arrived packet serverPort ip received := by
  have hoffsets := IpHdr.offsets
  have hports := UdpHdr.offsets
  have hsize : ipHdrSize = 20 := rfl
  have hheader := hwf.header
  have htotal := hwf.total
  have hdatagram := hwf.datagram
  have hlen := hcopy.length
  have hbyte : ∀ a < totalLength packet, a ≠ IpHdr.ttl →
      a < IpHdr.checksum ∨ IpHdr.checksum + 2 ≤ a → received.getD a 0 = o.bytes.getD a 0 :=
    fun a ha => h.bytes a (by omega)
  refine ⟨by rw [← hlen]; exact h.length, ?_, ?_, ?_⟩
  · intro a ha hnot
    rw [← hcopy.kept a ha hnot]
    unfold Rewritten at hnot
    exact hbyte a ha (by omega) (by omega)
  · rw [← hcopy.destaddr]
    apply inAddr_of_getD
    intro i hi
    exact hbyte _ (by omega) (by omega) (by omega)
  · rw [← hcopy.destPortno]
    apply word16_of_getD
    · exact hbyte _ (by omega) (by omega) (by omega)
    · exact hbyte _ (by omega) (by omega) (by omega)

section
variable (hwf : WellFormedUdp packet) (h : Arrived packet serverPort ip received)
include hwf h

theorem Arrived.header : headerLength received = headerLength packet := by
  have hoffsets := IpHdr.offsets
  have hports := UdpHdr.offsets
  have hverlen : IpHdr.verlen = 0 := rfl
  have hsize : ipHdrSize = 20 := rfl
  have hheader := hwf.header
  have htotal := hwf.total
  apply headerLength_of_getD
  apply h.kept _ (by omega)
  unfold Rewritten
  omega

theorem Arrived.total : totalLength received = totalLength packet := by
  have hoffsets := IpHdr.offsets
  have hports := UdpHdr.offsets
  have hsize : ipHdrSize = 20 := rfl
  have hheader := hwf.header
  have htotal := hwf.total
  have hword : word16 received IpHdr.totallength = word16 packet IpHdr.totallength := by
    apply h.word (by omega)
    · unfold Rewritten
      omega
    · unfold Rewritten
      omega
  rw [totalLength, hword, totalLength]

theorem Arrived.datagram : udpLength received = udpLength packet := by
  have hoffsets := IpHdr.offsets
  have hports := UdpHdr.offsets
  have hsize : ipHdrSize = 20 := rfl
  have hheader := hwf.header
  have htotal := hwf.total
  have hdatagram := hwf.datagram
  have hword : word16 received (headerLength packet + UdpHdr.length) =
      word16 packet (headerLength packet + UdpHdr.length) := by
    apply h.word (by omega)
    · unfold Rewritten
      omega
    · unfold Rewritten
      omega
  rw [udpLength, h.header hwf, hword, udpLength]

theorem Arrived.srcaddr : inAddr received IpHdr.srcaddr = inAddr packet IpHdr.srcaddr := by
  have hoffsets := IpHdr.offsets
  have hports := UdpHdr.offsets
  have hsize : ipHdrSize = 20 := rfl
  have hheader := hwf.header
  have htotal := hwf.total
  apply inAddr_of_getD
  intro i hi
  apply h.kept _ (by omega)
  unfold Rewritten
  omega

theorem Arrived.protocol : received.getD IpHdr.protocol 0 = ipprotoUdp := by
  have hoffsets := IpHdr.offsets
  have hports := UdpHdr.offsets
  have hsize : ipHdrSize = 20 := rfl
  have hheader := hwf.header
  have htotal := hwf.total
  rw [← hwf.udp]
  apply h.kept _ (by omega)
  unfold Rewritten
  omega

/-- A whole datagram stays one. -/
theorem Arrived.wellFormed (hwhole : word16 packet IpHdr.offset &&& 0x3FFF = 0) :
    WellFormedPacket received := by
  have hoffsets := IpHdr.offsets
  have hports := UdpHdr.offsets
  have hsize : ipHdrSize = 20 := rfl
  have hheader := hwf.header
  have htotal := hwf.total
  have hdatagram := hwf.datagram
  have hlength := h.length
  refine ⟨Or.inl (h.protocol hwf), ?_, ?_, fun _ => ?_, ?_, ?_⟩
  · rwa [h.header hwf]
  · rw [h.header hwf, h.total hwf]
    omega
  · rw [h.header hwf, h.total hwf, h.datagram hwf]
    exact ⟨hdatagram, htotal⟩
  · rwa [h.total hwf]
  · have hword : word16 received IpHdr.offset = word16 packet IpHdr.offset := by
      apply h.word (by omega)
      · unfold Rewritten
        omega
      · unfold Rewritten
        omega
    rw [hword, hwhole]

end

end

/-! ## What the client proxy makes of it -/

section
variable {env : LinuxClient.Env} {buf : Memory} (multiIp : UInt32) (multiPort : UInt16)

theorem rebuiltUdp_destPortno : (rebuiltUdp env buf multiIp multiPort).load16
    (etherHeaderSize + ipHdrLen buf etherHeaderSize + UdpHdr.destPortno) = htons multiPort := by
  have hports := UdpHdr.offsets
  unfold rebuiltUdp LinuxClient.rebuildUdp
  simp only
  rw [Memory.load16_congr (Memory.store16_of_disjoint (by omega))
    (Memory.store16_of_disjoint (by omega)), Memory.load16_congr
    (Memory.store16_of_disjoint (by omega)) (Memory.store16_of_disjoint (by omega)),
    Memory.load16_congr (Memory.store16_of_disjoint (by omega))
    (Memory.store16_of_disjoint (by omega)), Memory.load16_congr
    (Memory.store16_of_disjoint (by omega)) (Memory.store16_of_disjoint (by omega)),
    Memory.load16_store16]

theorem unsummed_checksum : (LinuxClient.unsummed buf multiIp multiPort).load16
    (etherHeaderSize + ipHdrLen buf etherHeaderSize + UdpHdr.checksum) = 0 := by
  have hports := UdpHdr.offsets
  unfold LinuxClient.unsummed LinuxClient.unsummedUdp
  simp only
  rw [Memory.load16_congr (Memory.store16_of_disjoint (by omega))
    (Memory.store16_of_disjoint (by omega)), Memory.load16_store16]

variable (hheader : ipHdrSize ≤ ipHdrLen buf etherHeaderSize)
include hheader

theorem udpWords_unsummed :
    udpWords ((LinuxClient.unsummed buf multiIp multiPort).load32 (etherHeaderSize + IpHdr.srcaddr))
        ((LinuxClient.unsummed buf multiIp multiPort).load32 (etherHeaderSize + IpHdr.destaddr))
        (htons (LinuxClient.udpLenOf buf)) (LinuxClient.unsummed buf multiIp multiPort)
        (etherHeaderSize + ipHdrLen buf etherHeaderSize) (LinuxClient.udpLenOf buf).toNat =
      LinuxClient.groupSum buf multiIp multiPort := by
  rw [htons_htons, LinuxClient.groupSum, plainSum, udpWords, udpWords,
    LinuxClient.unsummed_srcaddr _ _ hheader, LinuxClient.unsummed_destaddr _ _ hheader,
    LinuxClient.wordSum_unsummed _ _ hheader]

/-- With memory for the sum the UDP checksum is right. -/
theorem rebuiltUdp_valid (hmalloc : env.malloc = true)
    (hdatagram : 8 ≤ (LinuxClient.udpLenOf buf).toNat) {m : Memory}
    (hm : rebuiltUdp env buf multiIp multiPort = m) :
    Valid (udpWords (m.load32 (etherHeaderSize + IpHdr.srcaddr))
      (m.load32 (etherHeaderSize + IpHdr.destaddr)) (htons (LinuxClient.udpLenOf buf)) m
      (etherHeaderSize + ipHdrLen buf etherHeaderSize) (LinuxClient.udpLenOf buf).toNat) := by
  have hoffsets := IpHdr.offsets
  have hports := UdpHdr.offsets
  have hsize : ipHdrSize = 20 := rfl
  have hchecksum := @LinuxClient.rebuiltUdp_checksum env buf hheader multiIp multiPort
  rw [LinuxClient.rebuiltUdp_eq, Memory.load16_store16, if_pos hmalloc] at hchecksum
  rw [LinuxClient.rebuiltUdp_eq, hchecksum] at hm
  have haddr : ∀ a, a = etherHeaderSize + IpHdr.srcaddr ∨ a = etherHeaderSize + IpHdr.destaddr →
      m.load32 a = (LinuxClient.unsummed buf multiIp multiPort).load32 a := by
    intro a ha
    rw [← hm]
    apply Memory.load32_congr
    intro i hi
    exact Memory.store16_of_disjoint (Or.inl (by omega))
  rw [haddr _ (Or.inl rfl), haddr _ (Or.inr rfl), ← hm,
    udpWords_store16 hdatagram (unsummed_checksum _ _), udpWords_unsummed _ _ hheader]
  exact valid_add_complement _

end

section
variable {received : List UInt8} (hwf : WellFormedPacket received)
  (hudp : received.getD IpHdr.protocol 0 = ipprotoUdp)
include hwf hudp

/-- The UDP packet that leaves. -/
theorem restored_rebuiltUdp {env : LinuxClient.Env} (hmalloc : env.malloc = true) (stack : Memory)
    (multiIp : UInt32) (multiPort : UInt16) :
    Restored received multiIp multiPort
      ((rebuiltUdp env (buffered stack received) multiIp multiPort).bytes etherHeaderSize
        (totalLength received)) := by
  have hoffsets := IpHdr.offsets
  have hports := UdpHdr.offsets
  have hsize : ipHdrSize = 20 := rfl
  have hheader := hwf.header
  obtain ⟨hdatagram, htotal⟩ := hwf.datagram hudp
  have hreceived := hwf.received
  have hframe := LinuxClient.groupFrame_rebuiltUdp hwf hudp env stack multiIp multiPort
  have hdrop : ((rebuiltUdp env (buffered stack received) multiIp multiPort).bytes 0
      (totalLength received + etherHeaderSize)).drop etherHeaderSize =
        (rebuiltUdp env (buffered stack received) multiIp multiPort).bytes etherHeaderSize
          (totalLength received) := by
    rw [Memory.bytes_drop, Nat.zero_add]
  have hlarge : ipHdrSize ≤ ipHdrLen (buffered stack received) etherHeaderSize := by
    rwa [hwf.ipHdrLen_buffered]
  have hfirst := @LinuxClient.rebuiltUdp_ipHdrLen env _ hlarge multiIp multiPort
  have hport := @rebuiltUdp_destPortno env (buffered stack received) multiIp multiPort
  have hudpLen : (LinuxClient.udpLenOf (buffered stack received)).toNat = udpLength received := by
    rw [udpLength, word16_copy (a := etherHeaderSize) stack (by omega), LinuxClient.udpLenOf,
      hwf.ipHdrLen_buffered, Nat.add_assoc]
  have hlength : (rebuiltUdp env (buffered stack received) multiIp multiPort).load16
      (etherHeaderSize + ipHdrLen (buffered stack received) etherHeaderSize + UdpHdr.length) =
        htons (LinuxClient.udpLenOf (buffered stack received)) := by
    rw [LinuxClient.rebuiltUdp_eq, Memory.load16_congr (Memory.store16_of_disjoint (by omega))
      (Memory.store16_of_disjoint (by omega)), LinuxClient.unsummed_length, htons_htons]
  have hvalid := rebuiltUdp_valid multiIp multiPort hlarge hmalloc (by rwa [hudpLen]) rfl
  have hprotocol : rebuiltUdp env (buffered stack received) multiIp multiPort
      (etherHeaderSize + IpHdr.protocol) = ipprotoUdp := by
    have hbuf := hwf.protocol_buffered stack
    rw [hudp] at hbuf
    rw [← hbuf]
    exact ((LinuxClient.Rebuilt.udp multiIp _ multiPort hbuf).header hlarge).1
  rw [hwf.ipHdrLen_buffered] at hfirst hport hlength hvalid
  rw [← hudpLen] at hdatagram htotal
  generalize rebuiltUdp env (buffered stack received) multiIp multiPort = m at *
  have hfield : headerLength (m.bytes etherHeaderSize (totalLength received)) =
      headerLength received := by
    rw [headerLength_bytes (by omega), hfirst]
  have htotalLength : totalLength (m.bytes etherHeaderSize (totalLength received)) =
      totalLength received := by
    rw [← hdrop, totalLength, hframe.totallength, ← totalLength]
  have hudpLength : udpLength (m.bytes etherHeaderSize (totalLength received)) =
      (LinuxClient.udpLenOf (buffered stack received)).toNat := by
    rw [udpLength, hfield, word16_bytes (by omega), ← Nat.add_assoc, hlength, htons_htons]
  refine ⟨⟨?_, ?_, ?_, ?_, ?_⟩, ?_, hfield, ?_, ?_, ?_, ?_, ?_, ?_⟩
  · rw [getD_bytes (by omega), hprotocol]
  · rwa [hfield]
  · rwa [hudpLength]
  · rw [hfield, hudpLength, htotalLength, htotal]
  · rw [htotalLength, Memory.length_bytes]
  · rw [Memory.length_bytes]
  · rw [← hdrop, hframe.srcaddr]
  · rw [← hdrop, hframe.destaddr]
  · rw [word16_bytes (by omega), ← Nat.add_assoc, hport, htons_htons]
  · have hpayload := hframe.payload
    rwa [hdrop, LinuxClient.payloadStart, if_pos hudp] at hpayload
  · rw [← hdrop]
    exact hframe.ipVerifies
  · rw [← hfirst] at hvalid hlength htotal
    apply (udpVerifies_bytes (by omega) hdatagram htotal hlength).mpr
    exact hvalid

end

/-! ## From one proxy to the other -/

/-- What is restored of the copy is restored of the packet. -/
theorem Restored.of_arrived {packet received out : List UInt8} {serverPort multiPort : UInt16}
    {ip multiIp : UInt32} (hwf : WellFormedUdp packet)
    (harrived : Arrived packet serverPort ip received)
    (h : Restored received multiIp multiPort out) : Restored packet multiIp multiPort out := by
  have hports := UdpHdr.offsets
  have hoffsets := IpHdr.offsets
  have hsize : ipHdrSize = 20 := rfl
  have hlarge := hwf.header
  have hreceived := hwf.received
  have hheader := harrived.header hwf
  have htotal := harrived.total hwf
  refine ⟨h.wellFormed, ?_, ?_, ?_, h.destaddr, ?_, ?_, h.ipVerifies, h.udpVerifies⟩
  · rw [h.length, htotal]
  · rw [h.header, hheader]
  · rw [h.srcaddr, harrived.srcaddr hwf]
  · rw [← hheader, h.destPortno]
  · rw [← hheader, h.payload, hheader, htotal]
    apply drop_of_getD hreceived harrived.length
    intro a ha hle
    apply harrived.kept a ha
    unfold Rewritten
    omega

section
variable {received : List UInt8} (hwf : WellFormedPacket received)
  (hudp : received.getD IpHdr.protocol 0 = ipprotoUdp)
  (hlen : received.length < bufsize - etherHeaderSize) {s : LinuxClient.State}
  {multiIp : UInt32} {multiPort : UInt16} {index rowId : Nat}
  (hlookup : LinuxClient.lookupIpPortNode s (inAddr received IpHdr.srcaddr)
    (LinuxClient.matchPort received) = .ret (some (multiIp, multiPort, index, rowId)))
  {env : LinuxClient.Env}
  (hdevice : LinuxClient.getDevName env.alldevs (inAddr received IpHdr.destaddr) ≠ none)
  (hopen : ∀ device, env.pcapOpenLive device = true) (hsend : env.pcapSendpacket = true)
include hwf hudp hlen hlookup hdevice hopen hsend

/-- One frame to the group, and each packet that leaves is the one in the frame. -/
theorem client_sends (st : LinuxClient.Stats) (stack : Memory) :
    ∃ ret st' out frame,
      LinuxClient.handleIncomingData env s st stack received = .ret (ret, st', out) ∧
      LinuxClient.frames out = [frame] ∧ LinuxClient.GroupMac frame ∧
      ∀ o ∈ out, o.packet = (rebuiltUdp env (buffered stack received) multiIp multiPort).bytes
        etherHeaderSize (totalLength received) := by
  have hoffsets := IpHdr.offsets
  have hsize : ipHdrSize = 20 := rfl
  have hfull := hwf.length_le
  have hfill : LinuxClient.fillBuf stack received = buffered stack received := if_pos hlen
  have hsrc : (buffered stack received).load32 (etherHeaderSize + IpHdr.srcaddr) =
      inAddr received IpHdr.srcaddr := (inAddr_copy stack (by omega)).symm
  have hdest : (buffered stack received).load32 (etherHeaderSize + IpHdr.destaddr) =
      inAddr received IpHdr.destaddr := (inAddr_copy stack (by omega)).symm
  rw [← hsrc, ← hwf.serverPortOf_buffered stack, ← hfill] at hlookup
  obtain ⟨st', hrun⟩ := LinuxClient.handleIncomingData_found hlookup env st
  rw [hfill, LinuxClient.forwarded, hwf.protocol_buffered, if_pos hudp] at hrun
  obtain ⟨device, hname⟩ := Option.ne_none_iff_exists'.mp hdevice
  rw [← hdest] at hname
  have hframes := LinuxClient.frames_restructPkt hname (hopen device) hsend multiIp multiPort
  rw [hwf.ipLenOf_buffered] at hframes
  refine ⟨1, st', _, _, hrun, hframes, ?_, ?_⟩
  · exact (LinuxClient.groupFrame_rebuiltUdp hwf hudp env stack multiIp multiPort).dhost
  · intro o ho
    rw [LinuxClient.packet_of_mem_restructPkt ho, hwf.ipLenOf_buffered]

end

/-- A client proxy that every call succeeds for, on the host of an address. -/
structure Works (env : LinuxClient.Env) (ip : UInt32) : Prop where
  device : LinuxClient.getDevName env.alldevs ip ≠ none
  pcapOpenLive : ∀ device, env.pcapOpenLive device = true
  pcapSendpacket : env.pcapSendpacket = true
  malloc : env.malloc = true

/-- A whole datagram to a group that comes to a server proxy without the mark of a proxy, where all
calls succeed: each member in turn is sent one copy. Whatever a network did to it, the member's
client proxy sends a frame to the group of its entry, and in it the datagram with its payload and
right checksums. -/
theorem proxied_restored {s : LinuxServer.State} (hs : LinuxServer.Reachable s)
    {packet : List UInt8} (hwf : WellFormedUdp packet) (hlen : packet.length ≤ bufsize)
    (hwhole : word16 packet IpHdr.offset &&& 0x3FFF = 0)
    (hmark : ¬ LinuxServer.CarriesMark packet) {node : LinuxServer.Found}
    (hfound : LinuxServer.lookupMultiNode s (inAddr packet IpHdr.destaddr) = some node)
    {env : LinuxServer.Env} (hcalls : ∀ i, env.socket i = true ∧ env.setsockopt i = true ∧
      env.sendto i = true) (hmalloc : ∀ i, env.malloc i = true) (st : LinuxServer.Stats)
    (stack : Memory) :
    ∃ ret st' sent, LinuxServer.handleIncomingData env s st stack packet = .ret (ret, st', sent) ∧
      (sent.map fun o => o.addr) = node.iplist ∧
      ∀ o ∈ sent, o.bytes.length = totalLength packet ∧ ∀ received, Carried o.bytes received →
        received.length < bufsize - etherHeaderSize →
        ∀ (t : LinuxClient.State) (multiIp : UInt32) (multiPort : UInt16) (index rowId : Nat),
          LinuxClient.lookupIpPortNode t (inAddr packet IpHdr.srcaddr) node.serverPort =
            .ret (some (multiIp, multiPort, index, rowId)) →
          ∀ (cenv : LinuxClient.Env), Works cenv o.addr → ∀ cst cstack,
            ∃ cret cst' out frame,
              LinuxClient.handleIncomingData cenv t cst cstack received = .ret (cret, cst', out) ∧
              LinuxClient.frames out = [frame] ∧ LinuxClient.GroupMac frame ∧
              ∀ p ∈ out, Restored packet multiIp multiPort p.packet := by
  have hfit := hs.sound.fit
  obtain ⟨ret, st', sent, hrun, hlength⟩ :=
    LinuxServer.handleIncomingData_all hfit hwf hlen hfound hcalls st stack hmark
  have hread := LinuxServer.readAs_copy hwf stack
  have hcopy : ∀ (i : Nat) (o : LinuxServer.Sent), sent[i]? = some o →
      ∃ ip, node.iplist[i]? = some ip ∧ LinuxServer.IsCopy packet node.serverPort ip o := by
    intro i o ho
    have hfound' := hfound
    rw [← LinuxServer.load32_destaddr hwf stack] at hfound'
    obtain ⟨ip, buf, hip, hkept, rfl⟩ :=
      LinuxServer.handleIncomingData_sent hrun hfound' hread.protocol ho
    refine ⟨ip, hip, ?_⟩
    exact (LinuxServer.isCopy_rebuilt hwf hread hkept _ _ _).mpr (Or.inl (hmalloc i))
  refine ⟨ret, st', sent, hrun, ?_, ?_⟩
  · apply List.ext_getElem?
    intro i
    rw [List.getElem?_map]
    cases ho : sent[i]? with
    | none =>
      rw [List.getElem?_eq_none_iff, hlength, ← List.getElem?_eq_none_iff] at ho
      rw [ho]
      rfl
    | some o =>
      obtain ⟨ip, hip, hiscopy⟩ := hcopy i o ho
      rw [hip, ← hiscopy.addr]
      rfl
  · intro o ho
    obtain ⟨i, hi⟩ := List.getElem?_of_mem ho
    obtain ⟨ip, _, hiscopy⟩ := hcopy i o hi
    refine ⟨hiscopy.length, ?_⟩
    intro received hcarried hshort t multiIp multiPort index rowId hlookup cenv hworks cst cstack
    have harrived := arrived_of_carried hwf hiscopy hcarried
    have hpacket := harrived.wellFormed hwf hwhole
    have hudp := harrived.protocol hwf
    have hport : LinuxClient.matchPort received = node.serverPort := by
      rw [LinuxClient.matchPort, if_pos hudp, harrived.header hwf, harrived.destPortno]
    rw [← harrived.srcaddr hwf, ← hport] at hlookup
    have hdevice := hworks.device
    rw [hiscopy.addr, ← harrived.destaddr] at hdevice
    obtain ⟨cret, cst', out, frame, hclient, hframes, hmac, hpackets⟩ :=
      client_sends hpacket hudp hshort hlookup hdevice hworks.pcapOpenLive hworks.pcapSendpacket
        cst cstack
    refine ⟨cret, cst', out, frame, hclient, hframes, hmac, ?_⟩
    intro p hp
    rw [hpackets p hp]
    exact (restored_rebuiltUdp hpacket hudp hworks.malloc cstack multiIp multiPort).of_arrived hwf
      harrived

/-- Two members, and what the first one's client proxy sends of the copy as it was sent. -/
theorem proxied_restored_two : ∃ (s : LinuxServer.State) (t : LinuxClient.State)
    (o o' : LinuxServer.Sent) (st' : LinuxServer.Stats) (ret : Int),
    LinuxServer.handleIncomingData .allSucceed s ⟨0, 0, 0, 0⟩ (fun _ => 0) LinuxServer.groupPacket =
        .ret (ret, st', [o, o']) ∧ o.addr = 0x0200000a ∧ o'.addr = 0x0300000a ∧
      ∃ cret cst' out, LinuxClient.handleIncomingData (LinuxClient.envAt 0x0200000a) t ⟨0, 0, 0⟩
          (fun _ => 0) o.bytes = .ret (cret, cst', out) ∧
        ∀ p ∈ out, Restored LinuxServer.groupPacket 0x010000e1 5000 p.packet := by
  have hsize : [(0x0200000a : UInt32), 0x0300000a].length ≤ LinuxServer.multiVmMax := by decide
  obtain ⟨_, s, node, hadd, hfound, _, hlist, hport⟩ := LinuxServer.exists_group_added
    (inAddr LinuxServer.groupPacket IpHdr.destaddr) 7000 hsize
  obtain ⟨t, index, rowId, hlookup⟩ := LinuxClient.exists_entry 0x0100000a 0x010000e1
    (show (7000 : UInt16) ≠ 0 by decide) 5000
  have hsrc : inAddr LinuxServer.groupPacket IpHdr.srcaddr = 0x0100000a := by decide
  rw [← hsrc, ← hport] at hlookup
  have hcall : (LinuxServer.Call.add _ _ _ _ _).run LinuxServer.multiNodeInit = .ret (_, s) := hadd
  have hcalls : ∀ i, LinuxServer.Env.allSucceed.socket i = true ∧
      LinuxServer.Env.allSucceed.setsockopt i = true ∧
      LinuxServer.Env.allSucceed.sendto i = true := fun _ => ⟨rfl, rfl, rfl⟩
  obtain ⟨ret, st', sent, hrun, hmap, hsent⟩ := proxied_restored (.step .start hcall)
    LinuxServer.groupPacket_wellFormed (by decide) (by decide) (fun h => absurd h.1 (by decide))
    hfound hcalls (fun _ => rfl) ⟨0, 0, 0, 0⟩ fun _ => 0
  rw [hlist] at hmap
  obtain ⟨o, rest, rfl, ho, hrest⟩ := List.map_eq_cons_iff.mp hmap
  obtain ⟨o', last, rfl, ho', hlast⟩ := List.map_eq_cons_iff.mp hrest
  obtain rfl := List.map_eq_nil_iff.mp hlast
  obtain ⟨hlength, hclient⟩ := hsent o List.mem_cons_self
  have hshort : o.bytes.length < bufsize - etherHeaderSize := by
    rw [hlength]
    decide
  have hworks : Works (LinuxClient.envAt 0x0200000a) o.addr := by
    rw [ho]
    exact ⟨by decide, fun _ => rfl, rfl, rfl⟩
  obtain ⟨cret, cst', out, _, hout, _, _, hrestored⟩ := hclient o.bytes
    ⟨Nat.le_refl _, fun _ _ _ _ => rfl⟩ hshort t _ _ index rowId hlookup _ hworks ⟨0, 0, 0⟩
    fun _ => 0
  exact ⟨s, t, o, o', st', ret, hrun, ho, ho', cret, cst', out, hout, hrestored⟩

end MulticastProxy.LinuxProxies
