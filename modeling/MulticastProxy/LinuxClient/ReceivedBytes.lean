import MulticastProxy.Library.Agreement
import MulticastProxy.LinuxClient.Frame

/-!
# Linux client proxy: received bytes (`client_proxy/handleData.c`)

`buf` is not initialised, and lengths in the packet may lead behind the bytes that were received. What
is known of `buf` is followed through both ways of rebuilding a packet.
-/

namespace MulticastProxy.LinuxClient

set_option autoImplicit false

theorem checksum_congr {m m' : Memory} {a n : Nat} (h : ∀ i < n, m (a + i) = m' (a + i)) :
    checksum m a n = checksum m' a n := by
  rw [checksum, checksum, checksumWords_congr h]

/-! ## The two headers before their checksums -/

/-- The fields of the IP header that are written anew. -/
def IpWritten (a : Nat) : Prop :=
  (etherHeaderSize + IpHdr.tos ≤ a ∧ a ≤ etherHeaderSize + IpHdr.ttl) ∨
    (etherHeaderSize + IpHdr.checksum ≤ a ∧ a < etherHeaderSize + IpHdr.checksum + 2) ∨
    (etherHeaderSize + IpHdr.destaddr ≤ a ∧ a < etherHeaderSize + IpHdr.destaddr + 4)

section
variable {P : Nat → Prop} {buf buf' : Memory}

theorem agree_putEthHdr (h : AgreeOn P buf buf') {dhost : List UInt8} (hdhost : dhost.length = 6) :
    AgreeOn (fun a => P a ∨ a < etherHeaderSize) (putEthHdr buf dhost) (putEthHdr buf' dhost) := by
  have hether : etherHeaderSize = 14 := rfl
  apply (((h.copy 0 dhost).copy 6 [0x00, 0x16, 0x3e, 0x00, 0x04, 0x0e]).store16 12
    (htons 0x0800)).mono
  intro a ha
  rcases ha with ha | ha
  · exact Or.inl (Or.inl (Or.inl ha))
  · simp only [hdhost, List.length_cons, List.length_nil]
    omega

variable (id offset : UInt16) (ttl : UInt8) (multiIp : UInt32)

theorem agree_unsummedIp (h : AgreeOn P buf buf')
    (htotal : buf.load16 (etherHeaderSize + IpHdr.totallength) =
      buf'.load16 (etherHeaderSize + IpHdr.totallength)) :
    AgreeOn (fun a => P a ∨ IpWritten a) (unsummedIp buf id offset ttl multiIp)
      (unsummedIp buf' id offset ttl multiIp) := by
  have hoffsets := IpHdr.offsets
  unfold unsummedIp
  simp only
  rw [htotal]
  apply (((((((h.store8 _ _).store16 _ _).store16 _ _).store8 _ _).store16 _ _).store32 _ _).store16
    _ _).mono
  intro a ha
  unfold IpWritten at ha
  grind

/-- Where the sum is the same, so is the header. -/
theorem agree_rebuildIp {iphLen : Nat} (h : AgreeOn P buf buf')
    (htotal : buf.load16 (etherHeaderSize + IpHdr.totallength) =
      buf'.load16 (etherHeaderSize + IpHdr.totallength))
    (hsum : ∀ a, etherHeaderSize ≤ a → a < etherHeaderSize + iphLen → P a ∨ IpWritten a) :
    AgreeOn (fun a => P a ∨ IpWritten a) (rebuildIp buf iphLen id offset ttl multiIp)
      (rebuildIp buf' iphLen id offset ttl multiIp) := by
  have hagree := agree_unsummedIp id offset ttl multiIp h htotal
  have hwritten : checksum (unsummedIp buf id offset ttl multiIp) etherHeaderSize iphLen =
      checksum (unsummedIp buf' id offset ttl multiIp) etherHeaderSize iphLen := by
    apply checksum_congr
    intro i hi
    exact hagree _ (hsum _ (Nat.le_add_right _ _) (by omega))
  rw [rebuildIp_eq, rebuildIp_eq, hwritten]
  apply (hagree.store16 _ _).mono
  intro a ha
  exact Or.inl ha

/-- Up to the checksum the UDP header has the ports, which are given, and the length, which is read
from the packet. -/
theorem agree_unsummedUdp {m m' : Memory} {iphLen : Nat} (hm : AgreeOn P m m') {udpLen udpLen' : UInt16}
    (hlen : htons udpLen = buf.load16 (etherHeaderSize + iphLen + UdpHdr.length))
    (hlen' : htons udpLen' = buf'.load16 (etherHeaderSize + iphLen + UdpHdr.length))
    (hread : ∀ a, P a → etherHeaderSize + iphLen + UdpHdr.length ≤ a →
      a < etherHeaderSize + iphLen + UdpHdr.length + 2 → buf a = buf' a) (multiPort : UInt16) :
    AgreeOn (fun a => P a ∨ (etherHeaderSize + iphLen ≤ a ∧ a < etherHeaderSize + iphLen + 4) ∨
        (etherHeaderSize + iphLen + 6 ≤ a ∧ a < etherHeaderSize + iphLen + 8))
      (unsummedUdp m iphLen udpLen multiPort) (unsummedUdp m' iphLen udpLen' multiPort) := by
  have hports := UdpHdr.offsets
  unfold unsummedUdp
  simp only
  rw [hlen, hlen']
  apply AgreeOn.store16_load16
  · apply (((hm.store16 _ _).store16 _ _).store16 _ _).mono
    intro a ha
    grind
  · intro a ha hle hlt
    apply hread a _ hle hlt
    grind

end

/-! ## The datagram -/

/-- Where the packet of a buffer lies: what is known of the buffer, and what is written there without
the UDP length. -/
def Known (P : Nat → Prop) (buf : Memory) (a : Nat) : Prop :=
  P a ∨ a < etherHeaderSize ∨
    (etherHeaderSize + ipHdrLen buf etherHeaderSize ≤ a ∧
      a < etherHeaderSize + ipHdrLen buf etherHeaderSize + 4) ∨
    (etherHeaderSize + ipHdrLen buf etherHeaderSize + 6 ≤ a ∧
      a < etherHeaderSize + ipHdrLen buf etherHeaderSize + 8)

theorem udpChecksum_congr {m m' : Memory} (env : Env) {iph iphLen udpLen : Nat}
    (hsrc : m.load32 (iph + IpHdr.srcaddr) = m'.load32 (iph + IpHdr.srcaddr))
    (hdst : m.load32 (iph + IpHdr.destaddr) = m'.load32 (iph + IpHdr.destaddr))
    (hlen : m.load16 (iph + iphLen + UdpHdr.length) = m'.load16 (iph + iphLen + UdpHdr.length))
    (hdata : m.bytes (iph + iphLen) udpLen = m'.bytes (iph + iphLen) udpLen) :
    udpChecksum env m iph iphLen udpLen = udpChecksum env m' iph iphLen udpLen := by
  unfold udpChecksum udpPsd
  rw [hsrc, hdst, hlen, hdata]

section
variable {P : Nat → Prop} {buf buf' : Memory} (h : AgreeOn P buf buf')
  (hfull : ∀ a, etherHeaderSize ≤ a → a < etherHeaderSize + ipHdrSize → P a)
  (hheader : ∀ a, etherHeaderSize ≤ a → a < etherHeaderSize + ipHdrLen buf etherHeaderSize → P a)

include h hfull

theorem ipHdrLen_of_agree : ipHdrLen buf etherHeaderSize = ipHdrLen buf' etherHeaderSize := by
  have hverlen : IpHdr.verlen = 0 := rfl
  have hsize : ipHdrSize = 20 := rfl
  rw [ipHdrLen, ipHdrLen, h _ (hfull _ (by omega) (by omega))]

theorem totallength_of_agree : buf.load16 (etherHeaderSize + IpHdr.totallength) =
    buf'.load16 (etherHeaderSize + IpHdr.totallength) := by
  have hoffsets := IpHdr.offsets
  have hsize : ipHdrSize = 20 := rfl
  exact h.load16 (hfull _ (by omega) (by omega)) (hfull _ (by omega) (by omega))

include hheader

theorem agree_unsummed (multiIp : UInt32) (multiPort : UInt16) :
    AgreeOn (Known P buf) (unsummed buf multiIp multiPort) (unsummed buf' multiIp multiPort) := by
  have hoffsets := IpHdr.offsets
  have hsize : ipHdrSize = 20 := rfl
  have hether : etherHeaderSize = 14 := rfl
  have hihl := ipHdrLen_of_agree h hfull
  have heth := agree_putEthHdr h (length_multiDhost multiIp)
  have htotal : (putEthHdr buf (multiDhost multiIp)).load16 (etherHeaderSize + IpHdr.totallength) =
      (putEthHdr buf' (multiDhost multiIp)).load16 (etherHeaderSize + IpHdr.totallength) :=
    heth.load16 (Or.inl (hfull _ (by omega) (by omega))) (Or.inl (hfull _ (by omega) (by omega)))
  have hip := agree_rebuildIp 0x0000 0x4000 0x20 multiIp heth htotal
    fun a ha ha' => Or.inl (Or.inl (hheader a ha ha'))
  have hm := hip.mono (Q := fun a => P a ∨ a < etherHeaderSize) fun a ha => Or.inl ha
  have hlen : htons (udpLenOf buf') =
      buf'.load16 (etherHeaderSize + ipHdrLen buf etherHeaderSize + UdpHdr.length) := by
    rw [hihl, htons_htons]
  have hudp := agree_unsummedUdp hm (htons_htons _) hlen
    (fun a ha hle _ => h a (ha.resolve_right (by omega))) multiPort
  unfold unsummed
  rw [← hihl]
  apply hudp.mono
  intro a ha
  unfold Known at ha
  grind

/-- The checksum may differ, all else is known. -/
theorem agree_rebuiltUdp (env : Env) (multiIp : UInt32) (multiPort : UInt16) :
    AgreeOn (fun a => Known P buf a ∧
        (a < etherHeaderSize + ipHdrLen buf etherHeaderSize + UdpHdr.checksum ∨
          etherHeaderSize + ipHdrLen buf etherHeaderSize + UdpHdr.checksum + 2 ≤ a))
      (rebuiltUdp env buf multiIp multiPort) (rebuiltUdp env buf' multiIp multiPort) := by
  have hagree := agree_unsummed h hfull hheader multiIp multiPort
  intro a ha
  rw [rebuiltUdp_eq, rebuiltUdp_eq, ← ipHdrLen_of_agree h hfull,
    Memory.store16_of_disjoint ha.2, Memory.store16_of_disjoint ha.2]
  exact hagree a ha.1

/-- Where the length is known and all that it covers, so is the checksum. -/
theorem agree_rebuiltUdp_checksum
    (hlen : ∀ a, etherHeaderSize + ipHdrLen buf etherHeaderSize + UdpHdr.length ≤ a →
      a < etherHeaderSize + ipHdrLen buf etherHeaderSize + UdpHdr.length + 2 → P a)
    (hdata : ∀ a, etherHeaderSize + ipHdrLen buf etherHeaderSize ≤ a →
      a < etherHeaderSize + ipHdrLen buf etherHeaderSize + (udpLenOf buf).toNat → Known P buf a)
    (env : Env) (multiIp : UInt32) (multiPort : UInt16) :
    AgreeOn (Known P buf) (rebuiltUdp env buf multiIp multiPort)
      (rebuiltUdp env buf' multiIp multiPort) := by
  have hoffsets := IpHdr.offsets
  have hports := UdpHdr.offsets
  have hsize : ipHdrSize = 20 := rfl
  have hagree := agree_unsummed h hfull hheader multiIp multiPort
  have hihl := ipHdrLen_of_agree h hfull
  have hudpLen : udpLenOf buf = udpLenOf buf' := by
    rw [udpLenOf, udpLenOf, ← hihl,
      h.load16 (hlen _ (by omega) (by omega)) (hlen _ (by omega) (by omega))]
  have hknown : ∀ a, P a → Known P buf a := fun a ha => Or.inl ha
  have hchecksum : udpChecksum env (unsummed buf multiIp multiPort) etherHeaderSize
      (ipHdrLen buf etherHeaderSize) (udpLenOf buf).toNat =
        udpChecksum env (unsummed buf' multiIp multiPort) etherHeaderSize
          (ipHdrLen buf etherHeaderSize) (udpLenOf buf).toNat := by
    apply udpChecksum_congr
    · exact hagree.load32 fun i hi => hknown _ (hfull _ (by omega) (by omega))
    · exact hagree.load32 fun i hi => hknown _ (hfull _ (by omega) (by omega))
    · exact hagree.load16 (hknown _ (hlen _ (by omega) (by omega)))
        (hknown _ (hlen _ (by omega) (by omega)))
    · exact hagree.bytes fun i hi => hdata _ (by omega) (by omega)
  rw [rebuiltUdp_eq, rebuiltUdp_eq, ← hihl, ← hudpLen, hchecksum]
  exact (hagree.store16 _ _).mono fun a ha => Or.inl ha

end

/-! ## What leaves -/

section
variable {env : Env} {m m' : Memory} {n : Nat}

theorem writeTun_congr (h : AgreeOn (fun a => a < etherHeaderSize + n) m m') :
    writeTun env m n = writeTun env m' n := by
  unfold writeTun
  rw [h.bytes fun i hi => Nat.add_lt_add_left hi _]

theorem sendPacket_congr (h : AgreeOn (fun a => a < etherHeaderSize + n) m m')
    (device : List Char) : (sendPacket env device m n).2 = (sendPacket env device m' n).2 := by
  unfold sendPacket
  rw [h.bytes fun i hi => show 0 + i < etherHeaderSize + n by omega]

theorem restructPkt_congr {buf buf' : Memory}
    (hdest : buf.load32 (etherHeaderSize + IpHdr.destaddr) =
      buf'.load32 (etherHeaderSize + IpHdr.destaddr))
    (htotal : ipLenOf buf = ipLenOf buf') {multiIp : UInt32} {multiPort : UInt16}
    (h : AgreeOn (fun a => a < etherHeaderSize + ipLenOf buf) (rebuiltUdp env buf multiIp multiPort)
      (rebuiltUdp env buf' multiIp multiPort)) :
    (restructPkt env buf (ipHdrLen buf etherHeaderSize) multiIp multiPort).2 =
      (restructPkt env buf' (ipHdrLen buf' etherHeaderSize) multiIp multiPort).2 := by
  cases hdevice : getDevName env.alldevs (buf.load32 (etherHeaderSize + IpHdr.destaddr)) with
  | none =>
    have hdevice' := hdevice
    rw [hdest] at hdevice'
    rw [restructPkt, restructPkt, hdevice, hdevice']
  | some device =>
    have hdevice' := hdevice
    rw [hdest] at hdevice'
    by_cases hopen : env.pcapOpenLive device = true
    · rw [restructPkt_eq hdevice hopen, restructPkt_eq hdevice' hopen, ← htotal, writeTun_congr h,
        sendPacket_congr h]
    · unfold restructPkt
      simp only [hdevice, hdevice', hopen, Bool.not_false, if_true]

theorem restructPktOthersProto_congr {buf buf' : Memory} (htotal : ipLenOf buf = ipLenOf buf')
    {multiIp : UInt32} (h : AgreeOn (fun a => a < etherHeaderSize + ipLenOf buf)
      (rebuiltOthersProto buf multiIp) (rebuiltOthersProto buf' multiIp)) :
    (restructPktOthersProto env buf (ipHdrLen buf etherHeaderSize) multiIp).2 =
      (restructPktOthersProto env buf' (ipHdrLen buf' etherHeaderSize) multiIp).2 := by
  by_cases hopen : env.pcapOpenLive "eth0".toList = true
  · rw [restructPktOthersProto_eq hopen, restructPktOthersProto_eq hopen, ← htotal,
      sendPacket_congr h]
  · unfold restructPktOthersProto
    simp only [hopen, Bool.not_false, if_true]

end

/-! ## Two runs -/

/-- Two memories that differ in the local buffer alone. -/
def SameOutside (stack stack' : Memory) : Prop := AgreeOn (fun a => bufsize ≤ a) stack stack'

/-- What the packet is looked up under. -/
def lookupKey (buf : Memory) : UInt32 × UInt16 :=
  (buf.load32 (etherHeaderSize + IpHdr.srcaddr), serverPortOf buf (ipHdrLen buf etherHeaderSize))

/-- Nothing depends on what the buffer held before. -/
def ResultsAgree (pBuf : List UInt8) : Prop :=
  ∀ stack stack', SameOutside stack stack' →
    lookupKey (fillBuf stack pBuf) = lookupKey (fillBuf stack' pBuf) ∧
      ∀ env s st, handleIncomingData env s st stack pBuf = handleIncomingData env s st stack' pBuf

/-- The UDP path uses no byte behind the packet but for those it has written. -/
structure UdpWithin (pBuf : List UInt8) : Prop where
  header : ipHdrSize ≤ pBuf.length
  /-- What is sent ends before the checksum. -/
  short : totalLength pBuf ≤ headerLength pBuf + 6 → totalLength pBuf ≤ pBuf.length
  whole : headerLength pBuf + 7 ≤ totalLength pBuf → headerLength pBuf + 6 ≤ pBuf.length ∧
    totalLength pBuf ≤ max pBuf.length (headerLength pBuf + 8) ∧
    headerLength pBuf + udpLength pBuf ≤ max pBuf.length (headerLength pBuf + 8)

structure VrrpWithin (pBuf : List UInt8) : Prop where
  sent : totalLength pBuf ≤ max pBuf.length ipHdrSize
  /-- What is sent ends before the checksum, or the header is known. -/
  summed : IpHdr.checksum < totalLength pBuf → headerLength pBuf ≤ max pBuf.length ipHdrSize

/-- What is read of the buffer was received or written. -/
structure ReadsReceived (pBuf : List UInt8) : Prop where
  srcaddr : IpHdr.destaddr ≤ pBuf.length
  copied : pBuf.length < bufsize - etherHeaderSize
  port : pBuf.getD IpHdr.protocol 0 = ipprotoUdp → headerLength pBuf + 4 ≤ pBuf.length
  udp : pBuf.getD IpHdr.protocol 0 = ipprotoUdp →
    word16 pBuf (headerLength pBuf + UdpHdr.destPortno) ≠ 0 → UdpWithin pBuf
  vrrp : pBuf.getD IpHdr.protocol 0 = ipprotoVrrf → VrrpWithin pBuf

/-! ## Enough is received -/

/-- Where two buffers with one packet agree. -/
def Received (n a : Nat) : Prop := (etherHeaderSize ≤ a ∧ a < etherHeaderSize + n) ∨ bufsize ≤ a

section
variable {pBuf : List UInt8}

theorem fillBuf_getD (hcopied : pBuf.length < bufsize - etherHeaderSize) (stack : Memory) {k : Nat}
    (hk : k < pBuf.length) : fillBuf stack pBuf (etherHeaderSize + k) = pBuf.getD k 0 := by
  rw [fillBuf, if_pos hcopied, copy_getD stack hk]

theorem fillBuf_of_not_received (hcopied : pBuf.length < bufsize - etherHeaderSize) (stack : Memory)
    {a : Nat} (ha : a < etherHeaderSize ∨ etherHeaderSize + pBuf.length ≤ a) :
    fillBuf stack pBuf a = stack a := by
  rw [fillBuf, if_pos hcopied, Memory.copy_of_disjoint ha]

theorem agree_fillBuf (hcopied : pBuf.length < bufsize - etherHeaderSize) {P : Nat → Prop}
    {stack stack' : Memory} (h : AgreeOn P stack stack') :
    AgreeOn (fun a => P a ∨ (etherHeaderSize ≤ a ∧ a < etherHeaderSize + pBuf.length))
      (fillBuf stack pBuf) (fillBuf stack' pBuf) := by
  rw [fillBuf, fillBuf, if_pos hcopied, if_pos hcopied]
  exact h.copy _ _

/-- The fields of a packet in the buffer. -/
theorem word16_fillBuf (hcopied : pBuf.length < bufsize - etherHeaderSize) (stack : Memory) {k : Nat}
    (hk : k + 1 < pBuf.length) :
    word16 pBuf k = htons ((fillBuf stack pBuf).load16 (etherHeaderSize + k)) :=
  word16_eq (fillBuf_getD hcopied stack (by omega)).symm (fillBuf_getD hcopied stack hk).symm

theorem headerLength_fillBuf (hcopied : pBuf.length < bufsize - etherHeaderSize) (stack : Memory)
    (hpos : 0 < pBuf.length) :
    ipHdrLen (fillBuf stack pBuf) etherHeaderSize = headerLength pBuf := by
  rw [headerLength, ipHdrLen, fillBuf_getD hcopied stack hpos]

end

/-- The port under which a packet is looked up. -/
def keyPort (pBuf : List UInt8) : UInt16 :=
  if pBuf.getD IpHdr.protocol 0 = ipprotoUdp then
    word16 pBuf (headerLength pBuf + UdpHdr.destPortno)
  else if pBuf.getD IpHdr.protocol 0 = ipprotoVrrf then 7126
  else 0

theorem serverPortOf_fillBuf {pBuf : List UInt8}
    (hcopied : pBuf.length < bufsize - etherHeaderSize) (hlen : IpHdr.destaddr ≤ pBuf.length)
    (hport : pBuf.getD IpHdr.protocol 0 = ipprotoUdp → headerLength pBuf + 4 ≤ pBuf.length)
    (stack : Memory) :
    serverPortOf (fillBuf stack pBuf) (ipHdrLen (fillBuf stack pBuf) etherHeaderSize) =
      keyPort pBuf := by
  have hoffsets := IpHdr.offsets
  have hports := UdpHdr.offsets
  unfold serverPortOf keyPort
  simp only
  rw [headerLength_fillBuf hcopied stack (by omega), fillBuf_getD hcopied stack (by omega)]
  split
  · rename_i hudp
    have hwhole := hport hudp
    rw [word16_fillBuf hcopied stack (by omega), Nat.add_assoc]
  · rfl

theorem lookupIpPortNode_zero (s : State) (serverIp : UInt32) :
    lookupIpPortNode s serverIp 0 = .fault := rfl

theorem handleIncomingData_congr {s : State} {st : Stats} {stack stack' : Memory}
    {pBuf : List UInt8} {env : Env}
    (hkey : lookupKey (fillBuf stack pBuf) = lookupKey (fillBuf stack' pBuf))
    (hout : ∀ multiIp multiPort, (lookupKey (fillBuf stack pBuf)).2 ≠ 0 →
      forwarded env (fillBuf stack pBuf) multiIp multiPort =
        forwarded env (fillBuf stack' pBuf) multiIp multiPort) :
    handleIncomingData env s st stack pBuf = handleIncomingData env s st stack' pBuf := by
  obtain ⟨hsrc, hport⟩ := Prod.mk.inj hkey
  unfold handleIncomingData
  simp only
  rw [← hsrc, ← hport]
  by_cases hzero : (lookupKey (fillBuf stack pBuf)).2 = 0
  · have hport0 : serverPortOf (fillBuf stack pBuf)
        (ipHdrLen (fillBuf stack pBuf) etherHeaderSize) = 0 := hzero
    rw [hport0, lookupIpPortNode_zero, Outcome.fault_bind, Outcome.fault_bind]
  · cases lookupIpPortNode s ((fillBuf stack pBuf).load32 (etherHeaderSize + IpHdr.srcaddr))
        (serverPortOf (fillBuf stack pBuf) (ipHdrLen (fillBuf stack pBuf) etherHeaderSize)) with
    | fault => rw [Outcome.fault_bind, Outcome.fault_bind]
    | hang => rw [Outcome.hang_bind, Outcome.hang_bind]
    | ret found =>
      rw [Outcome.ret_bind, Outcome.ret_bind]
      cases found with
      | none => rfl
      | some entry =>
        obtain ⟨multiIp, multiPort, index, rowId⟩ := entry
        have hsame := hout multiIp multiPort hzero
        unfold forwarded at hsame
        simp only
        rw [hsame]

section
variable {pBuf : List UInt8} {buf buf' : Memory}
  (h : AgreeOn (Received pBuf.length) buf buf')
  (hihl : ipHdrLen buf etherHeaderSize = headerLength pBuf)
  (htotal : ipLenOf buf = totalLength pBuf)

include h hihl htotal

theorem UdpWithin.restructPkt (hwithin : UdpWithin pBuf)
    (hport : headerLength pBuf + 4 ≤ pBuf.length)
    (hudpLen : headerLength pBuf + 6 ≤ pBuf.length → (udpLenOf buf).toNat = udpLength pBuf)
    (env : Env) (multiIp : UInt32) (multiPort : UInt16) :
    (restructPkt env buf (ipHdrLen buf etherHeaderSize) multiIp multiPort).2 =
      (restructPkt env buf' (ipHdrLen buf' etherHeaderSize) multiIp multiPort).2 := by
  have hoffsets := IpHdr.offsets
  have hports := UdpHdr.offsets
  have hsize : ipHdrSize = 20 := rfl
  obtain ⟨hlarge, hshort, hwhole⟩ := hwithin
  have hfull : ∀ a, etherHeaderSize ≤ a → a < etherHeaderSize + ipHdrSize →
      Received pBuf.length a := fun a ha ha' => Or.inl ⟨ha, by omega⟩
  have hheader : ∀ a, etherHeaderSize ≤ a → a < etherHeaderSize + ipHdrLen buf etherHeaderSize →
      Received pBuf.length a := fun a ha ha' => Or.inl ⟨ha, by omega⟩
  apply restructPkt_congr
  · exact h.load32 fun i hi => hfull _ (by omega) (by omega)
  · rw [ipLenOf, totallength_of_agree h hfull]
  · by_cases hless : totalLength pBuf ≤ headerLength pBuf + 6
    · have hsent := hshort hless
      apply (agree_rebuiltUdp h hfull hheader env multiIp multiPort).mono
      intro a ha
      refine ⟨?_, Or.inl (by omega)⟩
      by_cases hether : a < etherHeaderSize
      · exact Or.inr (Or.inl hether)
      · exact Or.inl (Or.inl ⟨by omega, by omega⟩)
    · obtain ⟨hlen, hsent, hsummed⟩ := hwhole (by omega)
      have hknown : ∀ a, a < etherHeaderSize + max pBuf.length (headerLength pBuf + 8) →
          Known (Received pBuf.length) buf a := by
        intro a ha
        unfold Known Received
        omega
      have hdatagram := hudpLen hlen
      apply (agree_rebuiltUdp_checksum h hfull hheader ?_ ?_ env multiIp multiPort).mono
      · intro a ha
        exact hknown a (by omega)
      · intro a ha ha'
        exact Or.inl ⟨by omega, by omega⟩
      · intro a ha ha'
        exact hknown a (by omega)

theorem VrrpWithin.restructPktOthersProto (hwithin : VrrpWithin pBuf)
    (hlen : IpHdr.destaddr ≤ pBuf.length) (env : Env) (multiIp : UInt32) :
    (restructPktOthersProto env buf (ipHdrLen buf etherHeaderSize) multiIp).2 =
      (restructPktOthersProto env buf' (ipHdrLen buf' etherHeaderSize) multiIp).2 := by
  have hoffsets := IpHdr.offsets
  have hverlen : IpHdr.verlen = 0 := rfl
  have hsize : ipHdrSize = 20 := rfl
  obtain ⟨hsent, hsummed⟩ := hwithin
  have hsame : ∀ k < pBuf.length, Received pBuf.length (etherHeaderSize + k) :=
    fun k hk => Or.inl ⟨by omega, by omega⟩
  have hihl' : ipHdrLen buf etherHeaderSize = ipHdrLen buf' etherHeaderSize := by
    rw [ipHdrLen, ipHdrLen, h _ (hsame IpHdr.verlen (by omega))]
  have hlength : buf.load16 (etherHeaderSize + IpHdr.totallength) =
      buf'.load16 (etherHeaderSize + IpHdr.totallength) :=
    h.load16 (hsame IpHdr.totallength (by omega)) (hsame (IpHdr.totallength + 1) (by omega))
  have hdhost : ([0x01, 0x00, 0x5e, 0x7e, 0x01, 0x02] : List UInt8).length = 6 := rfl
  have heth := agree_putEthHdr h hdhost
  have hlength' := heth.load16 (Or.inl (hsame IpHdr.totallength (by omega)))
    (Or.inl (hsame (IpHdr.totallength + 1) (by omega)))
  have hknown : ∀ a, a < etherHeaderSize + max pBuf.length ipHdrSize →
      (Received pBuf.length a ∨ a < etherHeaderSize) ∨ IpWritten a := by
    intro a ha
    unfold Received IpWritten
    omega
  apply restructPktOthersProto_congr
  · rw [ipLenOf, ipLenOf, hlength]
  · rw [htotal]
    unfold rebuiltOthersProto
    rw [← hihl', hihl]
    by_cases hheader : headerLength pBuf ≤ max pBuf.length ipHdrSize
    · apply (agree_rebuildIp 0x1000 0x0040 0x80 multiIp heth hlength' ?_).mono
      · intro a ha
        exact hknown a (by omega)
      · intro a _ ha
        exact hknown a (by omega)
    · intro a ha
      rw [rebuildIp_eq, rebuildIp_eq, Memory.store16_of_disjoint (by omega),
        Memory.store16_of_disjoint (by omega)]
      exact agree_unsummedIp 0x1000 0x0040 0x80 multiIp heth hlength' a (hknown a (by omega))

end

/-- What is received decides everything. -/
theorem ReadsReceived.resultsAgree {pBuf : List UInt8} (h : ReadsReceived pBuf) :
    ResultsAgree pBuf := by
  have hoffsets := IpHdr.offsets
  have hports := UdpHdr.offsets
  obtain ⟨hlen, hcopied, hport, hudp, hvrrp⟩ := h
  intro stack stack' hsame
  have hagree : AgreeOn (Received pBuf.length) (fillBuf stack pBuf) (fillBuf stack' pBuf) :=
    (agree_fillBuf hcopied hsame).mono fun a ha => ha.symm
  have hin : IpHdr.protocol < pBuf.length := by omega
  have hprotocol := fillBuf_getD hcopied stack hin
  have hprotocol' := fillBuf_getD hcopied stack' hin
  have hihl := headerLength_fillBuf hcopied stack (by omega)
  have hihl' := headerLength_fillBuf hcopied stack' (by omega)
  have htotal : ipLenOf (fillBuf stack pBuf) = totalLength pBuf := by
    rw [ipLenOf, totalLength, word16_fillBuf hcopied stack (by omega)]
  have hreceived : ∀ k < pBuf.length, Received pBuf.length (etherHeaderSize + k) :=
    fun k hk => Or.inl ⟨by omega, by omega⟩
  have hkey : lookupKey (fillBuf stack pBuf) = lookupKey (fillBuf stack' pBuf) := by
    unfold lookupKey
    rw [serverPortOf_fillBuf hcopied hlen hport, serverPortOf_fillBuf hcopied hlen hport,
      hagree.load32 fun i hi => by rw [Nat.add_assoc]; exact hreceived _ (by omega)]
  refine ⟨hkey, fun env s st => handleIncomingData_congr hkey fun multiIp multiPort hne => ?_⟩
  unfold forwarded
  rw [hprotocol, hprotocol']
  split
  · rename_i hproto
    have hwhole := hport hproto
    rw [lookupKey, serverPortOf_fillBuf hcopied hlen hport, keyPort, if_pos hproto] at hne
    apply (hudp hproto hne).restructPkt hagree hihl htotal hwhole
    intro hudpLen
    rw [udpLenOf, hihl, udpLength, word16_fillBuf hcopied stack (by omega), Nat.add_assoc]
  · split
    · rename_i hproto
      exact (hvrrp hproto).restructPktOthersProto hagree hihl htotal hlen env multiIp
    · rfl

end MulticastProxy.LinuxClient
