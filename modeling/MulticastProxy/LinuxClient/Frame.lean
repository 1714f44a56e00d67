import MulticastProxy.Common.Wire
import MulticastProxy.LinuxClient.HandleData

/-!
# Linux client proxy: the frame (`client_proxy/handleData.c`, `client_proxy/iph.c`)

`restruct_pkt` and `restruct_pkt_others_proto` build the same headers, each with values of its own.
-/

namespace MulticastProxy.LinuxClient

set_option autoImplicit false

open OnesComplement

/-! ## The checksum routine -/

theorem toNat_sum_toUInt32 (ws : List UInt16) :
    (ws.map UInt16.toUInt32).sum.toNat = (ws.map UInt16.toNat).sum % 2 ^ 32 := by
  induction ws with
  | nil => rfl
  | cons w ws ih =>
    simp only [List.map_cons, List.sum_cons, UInt32.toNat_add, UInt16.toNat_toUInt32, ih]
    omega

theorem checksum_eq (m : Memory) (a : Nat) {n : Nat} (hn : n ≤ 131072) :
    checksum m a n = complement (wordSum m a n) := by
  have hle := wordSum_le (m := m) (a := a) (n := n)
  have hsum : ((checksumWords m a n).map UInt16.toUInt32).sum.toNat = wordSum m a n := by
    rw [toNat_sum_toUInt32]
    exact Nat.mod_eq_of_lt (show wordSum m a n < 2 ^ 32 by omega)
  unfold checksum
  simp only
  generalize ((checksumWords m a n).map UInt16.toUInt32).sum = sum at hsum ⊢
  have honce : (sum / 65536 + sum % 65536).toNat = sum.toNat / 65536 + sum.toNat % 65536 := by
    have hlt := sum.toNat_lt
    simp only [UInt32.toNat_add, UInt32.toNat_div, UInt32.toNat_mod, UInt32.toNat_ofNat,
      Nat.reducePow, Nat.reduceMod]
    omega
  have hfold := fold_twice sum.toNat_lt honce.symm
  generalize sum / 65536 + sum % 65536 = once at hfold ⊢
  have htwice : (once + once / 65536).toNat = (once.toNat + once.toNat / 65536) % 2 ^ 32 := by
    simp [UInt32.toNat_add, UInt32.toNat_div]
  generalize once + once / 65536 = twice at htwice ⊢
  apply UInt16.toNat_inj.mp
  rw [toNat_complement, ← hsum, hfold, UInt32.toNat_toUInt16, UInt32.toNat_not, UInt32.size]
  have hlt := twice.toNat_lt
  omega

/-! ## The headers -/

/-- The IP header before its checksum. -/
def unsummedIp (buf : Memory) (id offset : UInt16) (ttl : UInt8) (multiIp : UInt32) : Memory :=
  let piph := etherHeaderSize
  let ipLen := htons (buf.load16 (piph + IpHdr.totallength))
  let buf := buf.store8 (piph + IpHdr.tos) 0
  let buf := buf.store16 (piph + IpHdr.id) (htons id)
  let buf := buf.store16 (piph + IpHdr.offset) (htons offset)
  let buf := buf.store8 (piph + IpHdr.ttl) ttl
  let buf := buf.store16 (piph + IpHdr.checksum) 0
  let buf := buf.store32 (piph + IpHdr.destaddr) multiIp
  buf.store16 (piph + IpHdr.totallength) (htons ipLen)

theorem rebuildIp_eq (buf : Memory) (iphLen : Nat) (id offset : UInt16) (ttl : UInt8)
    (multiIp : UInt32) : rebuildIp buf iphLen id offset ttl multiIp =
      (unsummedIp buf id offset ttl multiIp).store16 (etherHeaderSize + IpHdr.checksum)
        (checksum (unsummedIp buf id offset ttl multiIp) etherHeaderSize iphLen) := rfl

/-- The UDP header before its checksum. -/
def unsummedUdp (buf : Memory) (iphLen : Nat) (udpLen multiPort : UInt16) : Memory :=
  let pudph := etherHeaderSize + iphLen
  let buf := buf.store16 (pudph + UdpHdr.destPortno) (htons multiPort)
  let buf := buf.store16 (pudph + UdpHdr.srcPortno) (htons 52540)
  let buf := buf.store16 (pudph + UdpHdr.checksum) 0
  buf.store16 (pudph + UdpHdr.length) (htons udpLen)

section
variable (buf : Memory) (iphLen : Nat) (id offset : UInt16) (ttl : UInt8) (multiIp : UInt32)

/-- What is not written anew: version, protocol and source address, and all that is no part of the IP
header. -/
theorem rebuildIp_of_disjoint {a : Nat}
    (ha : a ≤ etherHeaderSize + IpHdr.verlen ∨ a = etherHeaderSize + IpHdr.protocol ∨
      (etherHeaderSize + IpHdr.srcaddr ≤ a ∧ a < etherHeaderSize + IpHdr.destaddr) ∨
      etherHeaderSize + ipHdrSize ≤ a) :
    rebuildIp buf iphLen id offset ttl multiIp a = buf a := by
  have hoffsets := IpHdr.offsets
  have hverlen : IpHdr.verlen = 0 := rfl
  have hsize : ipHdrSize = 20 := rfl
  unfold rebuildIp
  rw [Memory.store16_of_disjoint (by omega), Memory.store16_of_disjoint (by omega),
    Memory.store32_of_disjoint (by omega), Memory.store16_of_disjoint (by omega),
    Memory.store8_of_ne (by omega), Memory.store16_of_disjoint (by omega),
    Memory.store16_of_disjoint (by omega), Memory.store8_of_ne (by omega)]

theorem rebuildIp_offset :
    (rebuildIp buf iphLen id offset ttl multiIp).load16 (etherHeaderSize + IpHdr.offset) =
      htons offset := by
  have hoffsets := IpHdr.offsets
  have hcells : ∀ a, a = etherHeaderSize + IpHdr.offset ∨ a = etherHeaderSize + IpHdr.offset + 1 →
      rebuildIp buf iphLen id offset ttl multiIp a =
        ((buf.store8 (etherHeaderSize + IpHdr.tos) 0).store16 (etherHeaderSize + IpHdr.id)
          (htons id)).store16 (etherHeaderSize + IpHdr.offset) (htons offset) a := by
    intro a ha
    unfold rebuildIp
    rw [Memory.store16_of_disjoint (by omega), Memory.store16_of_disjoint (by omega),
      Memory.store32_of_disjoint (by omega), Memory.store16_of_disjoint (by omega),
      Memory.store8_of_ne (by omega)]
  rw [Memory.load16_congr (hcells _ (Or.inl rfl)) (hcells _ (Or.inr rfl)), Memory.load16_store16]

theorem rebuildIp_destaddr :
    (rebuildIp buf iphLen id offset ttl multiIp).load32 (etherHeaderSize + IpHdr.destaddr) =
      multiIp := by
  have hoffsets := IpHdr.offsets
  rw [rebuildIp_eq, Memory.load32_congr fun i hi => Memory.store16_of_disjoint (by omega)]
  unfold unsummedIp
  rw [Memory.load32_congr fun i hi => Memory.store16_of_disjoint (by omega), Memory.load32_store32]

theorem unsummedIp_checksum : (unsummedIp buf id offset ttl multiIp).load16
    (etherHeaderSize + IpHdr.checksum) = 0 := by
  unfold unsummedIp
  rw [Memory.load16_congr (Memory.store16_of_disjoint (by decide))
    (Memory.store16_of_disjoint (by decide)), Memory.load16_congr
    (Memory.store32_of_disjoint (by decide)) (Memory.store32_of_disjoint (by decide)),
    Memory.load16_store16]

/-- The header checksum is computed over a zero in its place. -/
theorem rebuildIp_valid (hheader : ipHdrSize ≤ iphLen) (hle : iphLen ≤ 60) :
    Valid (wordSum (rebuildIp buf iphLen id offset ttl multiIp) etherHeaderSize iphLen) := by
  have hsize : ipHdrSize = 20 := rfl
  have hstore := wordSum_store16 (m := unsummedIp buf id offset ttl multiIp) (a := etherHeaderSize)
    (k := 5) (n := iphLen) (checksum (unsummedIp buf id offset ttl multiIp) etherHeaderSize iphLen)
    (by omega)
  rw [show etherHeaderSize + 2 * 5 = etherHeaderSize + IpHdr.checksum from rfl,
    unsummedIp_checksum, UInt16.toNat_zero, Nat.add_zero, ← rebuildIp_eq] at hstore
  rw [hstore, checksum_eq _ _ (by omega)]
  exact valid_add_complement _

end

/-! ## The frame of a group -/

/-- A whole packet of a protocol that is sent on, in one piece. -/
structure WellFormedPacket (packet : List UInt8) : Prop where
  protocol : packet.getD IpHdr.protocol 0 = ipprotoUdp ∨ packet.getD IpHdr.protocol 0 = ipprotoVrrf
  header : ipHdrSize ≤ headerLength packet
  within : headerLength packet ≤ totalLength packet
  datagram : packet.getD IpHdr.protocol 0 = ipprotoUdp → 8 ≤ udpLength packet ∧
    headerLength packet + udpLength packet = totalLength packet
  received : totalLength packet ≤ packet.length
  unfragmented : word16 packet IpHdr.offset &&& 0x3FFF = 0

/-- Behind the ports and the checksum of UDP, and right behind the IP header else. -/
def payloadStart (packet : List UInt8) : Nat :=
  if packet.getD IpHdr.protocol 0 = ipprotoUdp then headerLength packet + 8 else headerLength packet

/-- The lower 23 bits of the IP destination are those of the ethernet destination. -/
def GroupMac (frame : List UInt8) : Prop :=
  frame.take 3 = [0x01, 0x00, 0x5e] ∧
    frame.getD 3 0 = frame.getD (etherHeaderSize + IpHdr.destaddr + 1) 0 % 128 ∧
    frame.getD 4 0 = frame.getD (etherHeaderSize + IpHdr.destaddr + 2) 0 ∧
    frame.getD 5 0 = frame.getD (etherHeaderSize + IpHdr.destaddr + 3) 0

/-- The packet in a frame to its group. -/
structure GroupFrame (packet : List UInt8) (multiIp : UInt32) (frame : List UInt8) : Prop where
  dhost : GroupMac frame
  destaddr : inAddr (frame.drop etherHeaderSize) IpHdr.destaddr = multiIp
  srcaddr : inAddr (frame.drop etherHeaderSize) IpHdr.srcaddr = inAddr packet IpHdr.srcaddr
  totallength : word16 (frame.drop etherHeaderSize) IpHdr.totallength =
    word16 packet IpHdr.totallength
  unfragmented : word16 (frame.drop etherHeaderSize) IpHdr.offset &&& 0x3FFF = 0
  ipVerifies : IpVerifies (frame.drop etherHeaderSize)
  payload : (frame.drop etherHeaderSize).drop (payloadStart packet) =
    (packet.take (totalLength packet)).drop (payloadStart packet)

theorem putEthHdr_dhost (buf : Memory) {dhost : List UInt8} (hdhost : dhost.length = 6) {i : Nat}
    (hi : i < 6) : putEthHdr buf dhost i = dhost.getD i 0 := by
  have hdst : buf.copy 0 dhost i = dhost.getD i 0 := by
    rw [← Nat.zero_add i, copy_getD buf (by omega), Nat.zero_add]
  unfold putEthHdr
  rw [Memory.store16_of_disjoint (by omega), Memory.copy_of_disjoint (by omega), hdst]

theorem length_multiDhost (multiIp : UInt32) : (multiDhost multiIp).length = 6 := rfl

/-- The packet in the buffer. -/
abbrev buffered (stack : Memory) (packet : List UInt8) : Memory := stack.copy etherHeaderSize packet

variable {packet : List UInt8} {stack m : Memory}

theorem bytes_buffered {k n : Nat} (hn : n ≤ packet.length)
    (h : ∀ a, k ≤ a → m (etherHeaderSize + a) = buffered stack packet (etherHeaderSize + a)) :
    (m.bytes etherHeaderSize n).drop k = (packet.take n).drop k := by
  apply List.ext_getElem?
  intro i
  rw [List.getElem?_drop, List.getElem?_drop, List.getElem?_take]
  by_cases hi : k + i < n
  · have hbyte := h (k + i) (by omega)
    have hcopy : buffered stack packet (etherHeaderSize + (k + i)) = packet.getD (k + i) 0 :=
      copy_getD stack (by omega)
    rw [hcopy] at hbyte
    rw [if_pos hi, List.getElem?_eq_getElem (by simpa using hi), List.getElem?_eq_getElem (by omega)]
    simp only [Memory.bytes, List.getElem_map, List.getElem_range, hbyte]
    rw [List.getD_eq_getElem?_getD, List.getElem?_eq_getElem (by omega), Option.getD_some]
  · rw [if_neg hi, List.getElem?_eq_none (by simpa using hi)]

section
variable (hwf : WellFormedPacket packet) {dhost : List UInt8} {id offset : UInt16} {ttl : UInt8}
  {multiIp : UInt32}
  (hbefore : ∀ a < etherHeaderSize + headerLength packet, m a =
    rebuildIp (putEthHdr (buffered stack packet) dhost) (headerLength packet) id offset ttl
      multiIp a)

include hwf

theorem WellFormedPacket.length_le : ipHdrSize ≤ packet.length :=
  Nat.le_trans (Nat.le_trans hwf.header hwf.within) hwf.received

theorem WellFormedPacket.protocol_buffered (stack : Memory) :
    buffered stack packet (etherHeaderSize + IpHdr.protocol) = packet.getD IpHdr.protocol 0 :=
  copy_getD stack (Nat.lt_of_lt_of_le (by decide) hwf.length_le)

theorem WellFormedPacket.ipHdrLen_buffered (stack : Memory) :
    ipHdrLen (buffered stack packet) etherHeaderSize = headerLength packet :=
  (headerLength_copy stack (Nat.lt_of_lt_of_le (by decide) hwf.length_le)).symm

include hbefore

theorem offset_of_header : m.load16 (etherHeaderSize + IpHdr.offset) = htons offset := by
  have hoffsets := IpHdr.offsets
  have hsize : ipHdrSize = 20 := rfl
  have hheader := hwf.header
  rw [Memory.load16_congr (hbefore _ (by omega)) (hbefore _ (by omega)), rebuildIp_offset]

theorem destaddr_of_header : m.load32 (etherHeaderSize + IpHdr.destaddr) = multiIp := by
  have hoffsets := IpHdr.offsets
  have hsize : ipHdrSize = 20 := rfl
  have hheader := hwf.header
  rw [Memory.load32_congr fun i hi => hbefore _ (by omega), rebuildIp_destaddr]

theorem valid_of_header : Valid (wordSum m etherHeaderSize (headerLength packet)) := by
  have hle := headerLength_le packet
  rw [wordSum_congr fun i hi => hbefore _ (by omega)]
  exact rebuildIp_valid _ _ _ _ _ _ hwf.header hle

variable (hdhost : dhost.length = 6)

include hdhost

/-- The first byte and the source address are those of the packet. -/
theorem kept_of_header {a : Nat}
    (ha : a = IpHdr.verlen ∨ (IpHdr.srcaddr ≤ a ∧ a < IpHdr.destaddr)) :
    m (etherHeaderSize + a) = buffered stack packet (etherHeaderSize + a) := by
  have hoffsets := IpHdr.offsets
  have hverlen : IpHdr.verlen = 0 := rfl
  have hsize : ipHdrSize = 20 := rfl
  have hheader := hwf.header
  rw [hbefore _ (by omega), rebuildIp_of_disjoint _ _ _ _ _ _ (by omega),
    putEthHdr_of_le _ hdhost (by omega)]

theorem totallength_of_header : m.load16 (etherHeaderSize + IpHdr.totallength) =
    (buffered stack packet).load16 (etherHeaderSize + IpHdr.totallength) := by
  have hoffsets := IpHdr.offsets
  have hsize : ipHdrSize = 20 := rfl
  have hheader := hwf.header
  rw [Memory.load16_congr (hbefore _ (by omega)) (hbefore _ (by omega)), rebuildIp_totallength,
    Memory.load16_congr (putEthHdr_of_le _ hdhost (by omega))
      (putEthHdr_of_le _ hdhost (by omega))]

/-- Of what is asked of a frame the two paths decide two things: the address and the fragment field. -/
theorem groupFrame_iff
    (hpayload : ∀ a, payloadStart packet ≤ a →
      m (etherHeaderSize + a) = buffered stack packet (etherHeaderSize + a)) :
    GroupFrame packet multiIp (m.bytes 0 (totalLength packet + etherHeaderSize)) ↔
      GroupMac (m.bytes 0 (totalLength packet + etherHeaderSize)) ∧ offset &&& 0x3FFF = 0 := by
  have hoffsets := IpHdr.offsets
  have hsize : ipHdrSize = 20 := rfl
  have hheader := hwf.header
  have hwithin := hwf.within
  have hreceived := hwf.received
  have hdrop : (m.bytes 0 (totalLength packet + etherHeaderSize)).drop etherHeaderSize =
      m.bytes etherHeaderSize (totalLength packet) := by
    rw [Memory.bytes_drop, Nat.zero_add]
  have hfirst : ipHdrLen m etherHeaderSize = headerLength packet := by
    rw [ipHdrLen, kept_of_header hwf hbefore hdhost (Or.inl rfl), ← hwf.ipHdrLen_buffered stack,
      ipHdrLen]
  have hfield : word16 (m.bytes etherHeaderSize (totalLength packet)) IpHdr.offset = offset := by
    rw [word16_bytes (by omega), offset_of_header hwf hbefore, htons_htons]
  constructor
  · intro h
    refine ⟨h.dhost, ?_⟩
    have hfrag := h.unfragmented
    rwa [hdrop, hfield] at hfrag
  · intro h
    obtain ⟨hmac, hfrag⟩ := h
    refine ⟨hmac, ?_, ?_, ?_, ?_, ?_, ?_⟩ <;> rw [hdrop]
    · rw [inAddr_bytes (by omega), destaddr_of_header hwf hbefore]
    · rw [inAddr_bytes (by omega), inAddr_copy stack (by omega)]
      apply Memory.load32_congr
      intro i hi
      rw [Nat.add_assoc]
      exact kept_of_header hwf hbefore hdhost (by omega)
    · rw [word16_bytes (by omega), word16_copy stack (by omega),
        totallength_of_header hwf hbefore hdhost]
    · rwa [hfield]
    · apply (ipVerifies_bytes (by omega) (by omega)).mpr
      rw [hfirst]
      exact valid_of_header hwf hbefore
    · exact bytes_buffered hreceived hpayload

end

/-- The computed address is the one of the group. -/
theorem groupMac_multiDhost (hwf : WellFormedPacket packet) {id offset : UInt16} {ttl : UInt8}
    {multiIp : UInt32}
    (hbefore : ∀ a < etherHeaderSize + headerLength packet, m a =
      rebuildIp (putEthHdr (buffered stack packet) (multiDhost multiIp)) (headerLength packet) id
        offset ttl multiIp a) :
    GroupMac (m.bytes 0 (totalLength packet + etherHeaderSize)) := by
  have hoffsets := IpHdr.offsets
  have hether : etherHeaderSize = 14 := rfl
  have hsize : ipHdrSize = 20 := rfl
  have hheader := hwf.header
  have hwithin := hwf.within
  have hdhost : ∀ i < 6, m i = (multiDhost multiIp).getD i 0 := by
    intro i hi
    rw [hbefore _ (by omega), rebuildIp_of_disjoint _ _ _ _ _ _ (by omega),
      putEthHdr_dhost _ (length_multiDhost multiIp) hi]
  have hdest := destaddr_of_header hwf hbefore
  obtain ⟨_, h1, h2, h3⟩ := Memory.toUInt8_load32 (m := m) (a := etherHeaderSize + IpHdr.destaddr)
  rw [hdest] at h1 h2 h3
  refine ⟨?_, ?_, ?_, ?_⟩
  · rw [take_bytes (by omega)]
    simp [Memory.bytes, List.range_succ, hdhost, multiDhost]
  · rw [getD_bytes (by omega), getD_bytes (by omega), Nat.zero_add, Nat.zero_add,
      hdhost 3 (by decide), ← h1]
    change (multiIp / 2 ^ 8 % 128).toUInt8 = (multiIp / 2 ^ 8).toUInt8 % 128
    generalize multiIp / 2 ^ 8 = x
    apply UInt8.toNat_inj.mp
    simp only [UInt32.toNat_toUInt8, UInt32.toNat_mod, UInt8.toNat_mod, UInt32.toNat_ofNat,
      UInt8.toNat_ofNat, Nat.reducePow, Nat.reduceMod]
    omega
  · rw [getD_bytes (by omega), getD_bytes (by omega), Nat.zero_add, Nat.zero_add,
      hdhost 4 (by decide), ← h2]
    rfl
  · rw [getD_bytes (by omega), getD_bytes (by omega), Nat.zero_add, Nat.zero_add,
      hdhost 5 (by decide), ← h3]
    rfl

/-! ## The two paths -/

/-- The buffer that `restruct_pkt` sends. -/
def rebuiltUdp (env : Env) (buf : Memory) (multiIp : UInt32) (multiPort : UInt16) : Memory :=
  let iphLen := ipHdrLen buf etherHeaderSize
  rebuildUdp env (rebuildIp (putEthHdr buf (multiDhost multiIp)) iphLen 0x0000 0x4000 0x20 multiIp)
    iphLen (htons (buf.load16 (etherHeaderSize + iphLen + UdpHdr.length))) multiPort

/-- The buffer that `restruct_pkt_others_proto` sends. -/
def rebuiltOthersProto (buf : Memory) (multiIp : UInt32) : Memory :=
  rebuildIp (putEthHdr buf [0x01, 0x00, 0x5e, 0x7e, 0x01, 0x02]) (ipHdrLen buf etherHeaderSize)
    0x1000 0x0040 0x80 multiIp

abbrev udpLenOf (buf : Memory) : UInt16 :=
  htons (buf.load16 (etherHeaderSize + ipHdrLen buf etherHeaderSize + UdpHdr.length))

/-- The buffer of `restruct_pkt` where the UDP checksum is computed. -/
def unsummed (buf : Memory) (multiIp : UInt32) (multiPort : UInt16) : Memory :=
  unsummedUdp (rebuildIp (putEthHdr buf (multiDhost multiIp)) (ipHdrLen buf etherHeaderSize) 0x0000
    0x4000 0x20 multiIp) (ipHdrLen buf etherHeaderSize) (udpLenOf buf) multiPort

theorem rebuiltUdp_eq (env : Env) (buf : Memory) (multiIp : UInt32) (multiPort : UInt16) :
    rebuiltUdp env buf multiIp multiPort =
      (unsummed buf multiIp multiPort).store16
        (etherHeaderSize + ipHdrLen buf etherHeaderSize + UdpHdr.checksum)
        (udpChecksum env (unsummed buf multiIp multiPort) etherHeaderSize
          (ipHdrLen buf etherHeaderSize) (udpLenOf buf).toNat) := rfl

section
variable {env : Env} {buf : Memory}

abbrev ipLenOf (buf : Memory) : Nat :=
  (htons (buf.load16 (etherHeaderSize + IpHdr.totallength))).toNat

theorem restructPkt_eq {device : List Char}
    (hdevice : getDevName env.alldevs (buf.load32 (etherHeaderSize + IpHdr.destaddr)) = some device)
    (hopen : env.pcapOpenLive device = true) (multiIp : UInt32) (multiPort : UInt16) :
    (restructPkt env buf (ipHdrLen buf etherHeaderSize) multiIp multiPort).2 =
      writeTun env (rebuiltUdp env buf multiIp multiPort) (ipLenOf buf) ++
        (sendPacket env device (rebuiltUdp env buf multiIp multiPort) (ipLenOf buf)).2 := by
  have hbehind : ∀ a, etherHeaderSize ≤ a →
      (putEthHdr buf (multiDhost multiIp)).load16 a = buf.load16 a := by
    intro a ha
    exact Memory.load16_congr (putEthHdr_of_le _ rfl ha) (putEthHdr_of_le _ rfl (by omega))
  unfold restructPkt rebuiltUdp
  simp only [hdevice, hopen, Bool.not_true, Bool.false_eq_true, if_false]
  rw [hbehind _ (by omega), hbehind _ (by omega)]

theorem restructPktOthersProto_eq (hopen : env.pcapOpenLive "eth0".toList = true)
    (multiIp : UInt32) :
    (restructPktOthersProto env buf (ipHdrLen buf etherHeaderSize) multiIp).2 =
      (sendPacket env "eth0".toList (rebuiltOthersProto buf multiIp) (ipLenOf buf)).2 := by
  unfold restructPktOthersProto rebuiltOthersProto
  simp only [hopen, Bool.not_true, Bool.false_eq_true, if_false]
  rw [Memory.load16_congr (putEthHdr_of_le _ rfl (by decide)) (putEthHdr_of_le _ rfl (by decide))]

theorem packet_of_mem_restructPkt {multiIp : UInt32} {multiPort : UInt16} {o : Output}
    (ho : o ∈ (restructPkt env buf (ipHdrLen buf etherHeaderSize) multiIp multiPort).2) :
    o.packet = (rebuiltUdp env buf multiIp multiPort).bytes etherHeaderSize (ipLenOf buf) := by
  cases hdevice : getDevName env.alldevs (buf.load32 (etherHeaderSize + IpHdr.destaddr)) with
  | none =>
    rw [restructPkt, hdevice] at ho
    cases ho
  | some device =>
    by_cases hopen : env.pcapOpenLive device = true
    · rw [restructPkt_eq hdevice hopen] at ho
      rcases List.mem_append.mp ho with ho | ho
      · exact packet_writeTun ho
      · exact packet_sendPacket ho
    · unfold restructPkt at ho
      simp only [hdevice, hopen, Bool.not_false, if_true] at ho
      cases ho

theorem rebuiltUdp_ipHdrLen (hheader : ipHdrSize ≤ ipHdrLen buf etherHeaderSize) (multiIp : UInt32)
    (multiPort : UInt16) :
    ipHdrLen (rebuiltUdp env buf multiIp multiPort) etherHeaderSize =
      ipHdrLen buf etherHeaderSize := by
  have hverlen : IpHdr.verlen = 0 := rfl
  have hsize : ipHdrSize = 20 := rfl
  have hfirst : rebuiltUdp env buf multiIp multiPort (etherHeaderSize + IpHdr.verlen) =
      buf (etherHeaderSize + IpHdr.verlen) := by
    unfold rebuiltUdp
    rw [rebuildUdp_of_disjoint _ _ _ _ (Or.inl (by omega)),
      rebuildIp_of_disjoint _ _ _ _ _ _ (Or.inl (Nat.le_refl _)),
      putEthHdr_of_le _ rfl (by omega)]
  rw [ipHdrLen, hfirst, ipHdrLen]

/-- The sum over the datagram that leaves before it has a checksum. -/
def groupSum (buf : Memory) (multiIp : UInt32) (multiPort : UInt16) : Nat :=
  plainSum buf (buf.load32 (etherHeaderSize + IpHdr.srcaddr)) multiIp 52540 multiPort
    (etherHeaderSize + ipHdrLen buf etherHeaderSize)
    (htons (buf.load16 (etherHeaderSize + ipHdrLen buf etherHeaderSize + UdpHdr.length))).toNat

section
variable (multiIp : UInt32) (multiPort : UInt16)

/-- In front of the datagram lies the IP header. -/
theorem unsummed_before {a : Nat} (ha : a < etherHeaderSize + ipHdrLen buf etherHeaderSize) :
    unsummed buf multiIp multiPort a = rebuildIp (putEthHdr buf (multiDhost multiIp))
      (ipHdrLen buf etherHeaderSize) 0x0000 0x4000 0x20 multiIp a := by
  have hports := UdpHdr.offsets
  unfold unsummed unsummedUdp
  rw [Memory.store16_of_disjoint (by omega), Memory.store16_of_disjoint (by omega),
    Memory.store16_of_disjoint (by omega), Memory.store16_of_disjoint (by omega)]

theorem unsummed_srcaddr (hheader : ipHdrSize ≤ ipHdrLen buf etherHeaderSize) :
    (unsummed buf multiIp multiPort).load32 (etherHeaderSize + IpHdr.srcaddr) =
      buf.load32 (etherHeaderSize + IpHdr.srcaddr) := by
  have hoffsets := IpHdr.offsets
  have hsize : ipHdrSize = 20 := rfl
  apply Memory.load32_congr
  intro i hi
  rw [unsummed_before _ _ (by omega), rebuildIp_of_disjoint _ _ _ _ _ _ (by omega),
    putEthHdr_of_le _ rfl (by omega)]

theorem unsummed_destaddr (hheader : ipHdrSize ≤ ipHdrLen buf etherHeaderSize) :
    (unsummed buf multiIp multiPort).load32 (etherHeaderSize + IpHdr.destaddr) = multiIp := by
  have hoffsets := IpHdr.offsets
  have hsize : ipHdrSize = 20 := rfl
  rw [Memory.load32_congr fun i hi => unsummed_before _ _ (by omega), rebuildIp_destaddr]

theorem unsummed_length : (unsummed buf multiIp multiPort).load16
    (etherHeaderSize + ipHdrLen buf etherHeaderSize + UdpHdr.length) =
      buf.load16 (etherHeaderSize + ipHdrLen buf etherHeaderSize + UdpHdr.length) := by
  unfold unsummed unsummedUdp
  rw [Memory.load16_store16, htons_htons]

/-- The fields of the UDP header are written in another order than they are summed in. -/
theorem wordSum_unsummed (hheader : ipHdrSize ≤ ipHdrLen buf etherHeaderSize) (n : Nat) :
    wordSum (unsummed buf multiIp multiPort) (etherHeaderSize + ipHdrLen buf etherHeaderSize) n =
      wordSum (((buf.store16 (etherHeaderSize + ipHdrLen buf etherHeaderSize + UdpHdr.srcPortno)
        (htons 52540)).store16 (etherHeaderSize + ipHdrLen buf etherHeaderSize + UdpHdr.destPortno)
          (htons multiPort)).store16 (etherHeaderSize + ipHdrLen buf etherHeaderSize +
            UdpHdr.checksum) 0) (etherHeaderSize + ipHdrLen buf etherHeaderSize) n := by
  have hports := UdpHdr.offsets
  have hsize : ipHdrSize = 20 := rfl
  unfold unsummed unsummedUdp
  simp only
  rw [htons_htons]
  generalize hiph : ipHdrLen buf etherHeaderSize = iphLen at hheader ⊢
  apply wordSum_congr
  intro i hi
  rw [Memory.store16_comm (a := etherHeaderSize + iphLen + UdpHdr.checksum) (by omega)]
  apply Memory.store16_congr
  intro _
  rw [Memory.store16_comm (a := etherHeaderSize + iphLen + UdpHdr.srcPortno) (by omega),
    Memory.store16_comm (a := etherHeaderSize + iphLen + UdpHdr.destPortno) (by omega),
    Memory.store16_comm (a := etherHeaderSize + iphLen + UdpHdr.srcPortno)
      (b := etherHeaderSize + iphLen + UdpHdr.destPortno) (by omega)]
  apply Memory.store16_congr
  intro _
  apply Memory.store16_congr
  intro _
  -- the length is written as it was read
  conv_rhs => rw [← Memory.store16_load16 (m := buf) (a := etherHeaderSize + iphLen + UdpHdr.length)]
  apply Memory.store16_congr
  intro _
  rw [rebuildIp_of_disjoint _ _ _ _ _ _ (by omega), putEthHdr_of_le _ rfl (by omega)]

end

theorem rebuiltUdp_checksum (hheader : ipHdrSize ≤ ipHdrLen buf etherHeaderSize) (multiIp : UInt32)
    (multiPort : UInt16) : (rebuiltUdp env buf multiIp multiPort).load16
        (etherHeaderSize + ipHdrLen buf etherHeaderSize + UdpHdr.checksum) =
      if env.malloc then complement (groupSum buf multiIp multiPort) else 0xFFFF := by
  have hpsd : udpPsdHeaderSize = 12 := rfl
  have hshort := (udpLenOf buf).toNat_lt
  rw [rebuiltUdp_eq, Memory.load16_store16, udpChecksum, unsummed_length]
  split
  · rw [checksum_eq _ _ (by omega), wordSum_udpPsd, groupSum, plainSum, udpWords, udpWords,
      unsummed_srcaddr _ _ hheader, unsummed_destaddr _ _ hheader, wordSum_unsummed _ _ hheader]
  · rfl

end

/-- The frames among what leaves. -/
def frames (out : List Output) : List (List UInt8) := out.filterMap fun
  | .tun _ => none
  | .pcap _ frame => some frame

theorem frames_writeTun (env : Env) (buf : Memory) (n : Nat) : frames (writeTun env buf n) = [] := by
  unfold writeTun
  split <;> rfl

theorem frames_sendPacket {env : Env} (hsend : env.pcapSendpacket = true) (device : List Char)
    (buf : Memory) (n : Nat) :
    frames (sendPacket env device buf n).2 = [buf.bytes 0 (n + etherHeaderSize)] := by
  unfold sendPacket
  rw [if_pos hsend]
  rfl

theorem frames_append (out out' : List Output) : frames (out ++ out') = frames out ++ frames out' :=
  List.filterMap_append

section
variable {env : Env} {buf : Memory}

theorem frames_restructPkt {device : List Char}
    (hdevice : getDevName env.alldevs (buf.load32 (etherHeaderSize + IpHdr.destaddr)) = some device)
    (hopen : env.pcapOpenLive device = true) (hsend : env.pcapSendpacket = true) (multiIp : UInt32)
    (multiPort : UInt16) :
    frames (restructPkt env buf (ipHdrLen buf etherHeaderSize) multiIp multiPort).2 =
      [(rebuiltUdp env buf multiIp multiPort).bytes 0 (ipLenOf buf + etherHeaderSize)] := by
  rw [restructPkt_eq hdevice hopen, frames_append, frames_writeTun, frames_sendPacket hsend,
    List.nil_append]

theorem frames_restructPktOthersProto (hopen : env.pcapOpenLive "eth0".toList = true)
    (hsend : env.pcapSendpacket = true) (multiIp : UInt32) :
    frames (restructPktOthersProto env buf (ipHdrLen buf etherHeaderSize) multiIp).2 =
      [(rebuiltOthersProto buf multiIp).bytes 0 (ipLenOf buf + etherHeaderSize)] := by
  rw [restructPktOthersProto_eq hopen, frames_sendPacket hsend]

end

/-- What leaves, for a packet whose key is found. -/
def forwarded (env : Env) (buf : Memory) (multiIp : UInt32) (multiPort : UInt16) : List Output :=
  if buf (etherHeaderSize + IpHdr.protocol) = ipprotoUdp then
    (restructPkt env buf (ipHdrLen buf etherHeaderSize) multiIp multiPort).2
  else if buf (etherHeaderSize + IpHdr.protocol) = ipprotoVrrf then
    (restructPktOthersProto env buf (ipHdrLen buf etherHeaderSize) multiIp).2
  else []

theorem handleIncomingData_found {s : State} {pBuf : List UInt8} {multiIp : UInt32}
    {multiPort : UInt16} {index rowId : Nat}
    (hlookup : lookupIpPortNode s ((fillBuf stack pBuf).load32 (etherHeaderSize + IpHdr.srcaddr))
      (serverPortOf (fillBuf stack pBuf) (ipHdrLen (fillBuf stack pBuf) etherHeaderSize)) =
      .ret (some (multiIp, multiPort, index, rowId))) (env : Env) (st : Stats) :
    ∃ st', handleIncomingData env s st stack pBuf =
      .ret (1, st', forwarded env (fillBuf stack pBuf) multiIp multiPort) := by
  unfold handleIncomingData
  simp only
  rw [hlookup]
  exact ⟨_, rfl⟩

/-- The key under which the packet is looked up. -/
def matchPort (packet : List UInt8) : UInt16 :=
  if packet.getD IpHdr.protocol 0 = ipprotoUdp then
    word16 packet (headerLength packet + UdpHdr.destPortno)
  else 7126

/-- One frame leaves, and it is one for the group. -/
def SendsFrame (env : Env) (s : State) (st : Stats) (stack : Memory) (packet : List UInt8)
    (multiIp : UInt32) : Prop :=
  ∃ ret st' out frame, handleIncomingData env s st stack packet = .ret (ret, st', out) ∧
    frames out = [frame] ∧ GroupFrame packet multiIp frame

section
variable (hwf : WellFormedPacket packet)

include hwf

theorem WellFormedPacket.ipLenOf_buffered (stack : Memory) :
    ipLenOf (buffered stack packet) = totalLength packet := by
  have hlength : IpHdr.totallength + 1 < packet.length :=
    Nat.lt_of_lt_of_le (by decide) hwf.length_le
  rw [ipLenOf, totalLength, word16_copy (a := etherHeaderSize) stack hlength]

theorem WellFormedPacket.serverPortOf_buffered (stack : Memory) :
    serverPortOf (buffered stack packet) (ipHdrLen (buffered stack packet) etherHeaderSize) =
      matchPort packet := by
  have hports := UdpHdr.offsets
  unfold serverPortOf matchPort
  simp only
  rw [hwf.protocol_buffered, hwf.ipHdrLen_buffered]
  split
  · rename_i hudp
    obtain ⟨hdatagram, hsum⟩ := hwf.datagram hudp
    have hreceived := hwf.received
    rw [word16_copy (a := etherHeaderSize) stack (by omega), Nat.add_assoc]
  · rename_i hudp
    rw [if_pos (hwf.protocol.resolve_left hudp)]

/-- The UDP path sends what is asked. -/
theorem groupFrame_rebuiltUdp (hudp : packet.getD IpHdr.protocol 0 = ipprotoUdp) (env : Env)
    (stack : Memory) (multiIp : UInt32) (multiPort : UInt16) :
    GroupFrame packet multiIp ((rebuiltUdp env (buffered stack packet) multiIp multiPort).bytes 0
      (totalLength packet + etherHeaderSize)) := by
  have hether : etherHeaderSize = 14 := rfl
  have hsize : ipHdrSize = 20 := rfl
  have hheader := hwf.header
  have hbefore : ∀ a < etherHeaderSize + headerLength packet,
      rebuiltUdp env (buffered stack packet) multiIp multiPort a =
        rebuildIp (putEthHdr (buffered stack packet) (multiDhost multiIp)) (headerLength packet)
          0x0000 0x4000 0x20 multiIp a := by
    intro a ha
    unfold rebuiltUdp
    simp only [hwf.ipHdrLen_buffered]
    exact rebuildUdp_of_disjoint _ _ _ _ (Or.inl ha)
  apply (groupFrame_iff hwf hbefore (length_multiDhost multiIp) ?_).mpr
  · exact ⟨groupMac_multiDhost hwf hbefore, by decide⟩
  · intro a ha
    rw [payloadStart, if_pos hudp] at ha
    unfold rebuiltUdp
    simp only [hwf.ipHdrLen_buffered]
    rw [rebuildUdp_of_disjoint _ _ _ _ (Or.inr (by omega)),
      rebuildIp_of_disjoint _ _ _ _ _ _ (by omega), putEthHdr_of_le _ rfl (by omega)]

/-- The VRRP path writes a fragment offset. -/
theorem not_groupFrame_rebuiltOthersProto
    (hudp : packet.getD IpHdr.protocol 0 ≠ ipprotoUdp) (stack : Memory) (multiIp : UInt32) :
    ¬ GroupFrame packet multiIp ((rebuiltOthersProto (buffered stack packet) multiIp).bytes 0
      (totalLength packet + etherHeaderSize)) := by
  have hsize : ipHdrSize = 20 := rfl
  have hheader := hwf.header
  have hpayload : ∀ a, payloadStart packet ≤ a → rebuiltOthersProto (buffered stack packet) multiIp
      (etherHeaderSize + a) = buffered stack packet (etherHeaderSize + a) := by
    intro a ha
    rw [payloadStart, if_neg hudp] at ha
    unfold rebuiltOthersProto
    rw [rebuildIp_of_disjoint _ _ _ _ _ _ (by omega), putEthHdr_of_le _ rfl (by omega)]
  have hdhost : ([0x01, 0x00, 0x5e, 0x7e, 0x01, 0x02] : List UInt8).length = 6 := rfl
  intro hgroup
  have hfrag := ((groupFrame_iff hwf
    (fun a _ => by rw [rebuiltOthersProto, hwf.ipHdrLen_buffered]) hdhost hpayload).mp hgroup).2
  exact absurd hfrag (by decide)

end

/-- The frame is right for UDP, and for VRRP never: that path writes the fragment offset 64. -/
theorem sends_frame_iff (hwf : WellFormedPacket packet)
    (hlen : packet.length < bufsize - etherHeaderSize) {s : State} {multiIp : UInt32}
    {multiPort : UInt16} {index rowId : Nat}
    (hlookup : lookupIpPortNode s (inAddr packet IpHdr.srcaddr) (matchPort packet) =
      .ret (some (multiIp, multiPort, index, rowId))) {env : Env}
    (hdevice : getDevName env.alldevs (inAddr packet IpHdr.destaddr) ≠ none)
    (hopen : ∀ device, env.pcapOpenLive device = true) (hsend : env.pcapSendpacket = true)
    (st : Stats) (stack : Memory) : SendsFrame env s st stack packet multiIp ↔
      packet.getD IpHdr.protocol 0 = ipprotoUdp := by
  have hoffsets := IpHdr.offsets
  have hsize : ipHdrSize = 20 := rfl
  have hfull := hwf.length_le
  have hfill : fillBuf stack packet = buffered stack packet := if_pos hlen
  have hsrc : (buffered stack packet).load32 (etherHeaderSize + IpHdr.srcaddr) =
      inAddr packet IpHdr.srcaddr := (inAddr_copy stack (by omega)).symm
  have hdest : (buffered stack packet).load32 (etherHeaderSize + IpHdr.destaddr) =
      inAddr packet IpHdr.destaddr := (inAddr_copy stack (by omega)).symm
  have hlookup' : lookupIpPortNode s ((fillBuf stack packet).load32 (etherHeaderSize +
      IpHdr.srcaddr)) (serverPortOf (fillBuf stack packet) (ipHdrLen (fillBuf stack packet)
        etherHeaderSize)) = .ret (some (multiIp, multiPort, index, rowId)) := by
    rw [hfill, hsrc, hwf.serverPortOf_buffered, hlookup]
  obtain ⟨st', hrun⟩ := handleIncomingData_found hlookup' env st
  rw [hfill] at hrun
  unfold SendsFrame
  rw [hrun]
  unfold forwarded
  rw [hwf.protocol_buffered]
  by_cases hudp : packet.getD IpHdr.protocol 0 = ipprotoUdp
  · refine iff_of_true ?_ hudp
    obtain ⟨device, hname⟩ := Option.ne_none_iff_exists'.mp hdevice
    rw [← hdest] at hname
    rw [if_pos hudp]
    refine ⟨1, st', _, _, rfl, frames_restructPkt hname (hopen device) hsend _ _, ?_⟩
    rw [hwf.ipLenOf_buffered]
    exact groupFrame_rebuiltUdp hwf hudp _ _ _ _
  · refine iff_of_false ?_ hudp
    have hvrrf := hwf.protocol.resolve_left hudp
    rw [if_neg hudp, if_pos hvrrf]
    intro ⟨_, _, out, frame, heq, hframe, hgroup⟩
    obtain ⟨_, _, rfl⟩ := Prod.mk.inj (Outcome.ret.inj heq)
    rw [frames_restructPktOthersProto (hopen _) hsend, hwf.ipLenOf_buffered] at hframe
    obtain rfl := (List.cons.inj hframe).1
    exact not_groupFrame_rebuiltOthersProto hwf hudp _ _ hgroup

/-- A proxy at an address, where every call succeeds. -/
def envAt (addr : UInt32) : Env where
  alldevs := [⟨"eth0".toList, [addr]⟩]
  pcapOpenLive := fun _ => true
  pcapSendpacket := true
  write := true
  malloc := true

/-- A datagram of three bytes from 10.0.0.1 to port 7000 of 10.0.0.2. -/
def datagram : List UInt8 :=
  [0x45, 0, 0, 31, 0, 0, 0, 0, 64, 17, 0, 0, 10, 0, 0, 1, 10, 0, 0, 2,
    0x1b, 0x58, 0x1b, 0x58, 0, 11, 0, 0, 1, 2, 3]

/-- A VRRP packet from 10.0.0.1 to 10.0.0.2. -/
def advertisement : List UInt8 :=
  [0x45, 0, 0, 22, 0, 0, 0, 0, 64, 112, 0, 0, 10, 0, 0, 1, 10, 0, 0, 2, 0x21, 1]

theorem sends_frame_udp :
    ∃ s, SendsFrame (envAt 0x0200000a) s ⟨0, 0, 0⟩ (fun _ => 0) datagram 0x010000e1 := by
  obtain ⟨s, index, rowId, hlookup⟩ :=
    exists_entry 0x0100000a 0x010000e1 (show (7000 : UInt16) ≠ 0 by decide) 5000
  refine ⟨s, ?_⟩
  have hwf : WellFormedPacket datagram := by
    refine ⟨by decide, by decide, by decide, fun _ => ⟨by decide, by decide⟩, by decide, by decide⟩
  have hsrc : inAddr datagram IpHdr.srcaddr = 0x0100000a := by decide
  have hport : matchPort datagram = 7000 := by decide
  rw [← hsrc, ← hport] at hlookup
  exact (sends_frame_iff hwf (by decide) hlookup (by decide) (fun _ => rfl) rfl _ _).mpr rfl

theorem not_sends_frame : ¬ ∀ s packet (multiIp : UInt32) (multiPort : UInt16) index rowId env st
    stack, WellFormedPacket packet → packet.length < bufsize - etherHeaderSize →
    lookupIpPortNode s (inAddr packet IpHdr.srcaddr) (matchPort packet) =
      .ret (some (multiIp, multiPort, index, rowId)) →
    getDevName env.alldevs (inAddr packet IpHdr.destaddr) ≠ none →
    (∀ device, env.pcapOpenLive device = true) → env.pcapSendpacket = true →
    SendsFrame env s st stack packet multiIp := by
  intro h
  obtain ⟨s, index, rowId, hlookup⟩ :=
    exists_entry 0x0100000a 0x010000e1 (show (7126 : UInt16) ≠ 0 by decide) 5000
  have hwf : WellFormedPacket advertisement := by
    refine ⟨by decide, by decide, by decide, fun hudp => absurd hudp (by decide), by decide,
      by decide⟩
  have hsrc : inAddr advertisement IpHdr.srcaddr = 0x0100000a := by decide
  have hport : matchPort advertisement = 7126 := by decide
  rw [← hsrc, ← hport] at hlookup
  have hudp := (sends_frame_iff hwf (by decide) hlookup (by decide) (fun _ => rfl) rfl
    ⟨0, 0, 0⟩ (fun _ => 0)).mp (h s advertisement 0x010000e1 5000 index rowId (envAt 0x0200000a) _ _ hwf
      (by decide) hlookup (by decide) (fun _ => rfl) rfl)
  exact absurd hudp (by decide)

end MulticastProxy.LinuxClient
