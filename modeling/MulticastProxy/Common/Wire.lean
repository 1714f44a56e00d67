import MulticastProxy.Common.WordSum

/-!
# Packets on the wire

The fields of a UDP packet in its bytes, and when its two checksums verify.
-/

namespace MulticastProxy

set_option autoImplicit false

open OnesComplement

section
variable (packet : List UInt8)

def headerLength : Nat := 4 * (packet.getD IpHdr.verlen 0 % 16).toNat

def totalLength : Nat := (word16 packet IpHdr.totallength).toNat

def udpLength : Nat := (word16 packet (headerLength packet + UdpHdr.length)).toNat

/-- An address as the programs hold it: its first byte is the lowest. -/
def inAddr (off : Nat) : UInt32 := Memory.load32 (fun a => packet.getD a 0) off

/-- The sum over the words of the IP header is all ones. -/
def IpVerifies : Prop := Valid (bytesSum (packet.take (headerLength packet)))

/-- The sum over pseudo header and datagram is all ones. -/
def UdpVerifies : Prop :=
  Valid (bytesSum ((packet.drop IpHdr.srcaddr).take 8) + ipprotoUdp.toNat + udpLength packet +
    bytesSum (packet.drop (headerLength packet)))

end

/-- A whole UDP packet among the bytes received. -/
structure WellFormedUdp (packet : List UInt8) : Prop where
  udp : packet.getD IpHdr.protocol 0 = ipprotoUdp
  header : ipHdrSize ≤ headerLength packet
  datagram : 8 ≤ udpLength packet
  total : headerLength packet + udpLength packet = totalLength packet
  received : totalLength packet ≤ packet.length

/-! ## Bytes in a buffer -/

section
variable {m : Memory} {packet : List UInt8} {a k n : Nat}

theorem getD_bytes (hk : k < n) : (m.bytes a n).getD k 0 = m (a + k) := by
  simp [Memory.bytes, List.getD, hk]

theorem copy_getD (stack : Memory) (hk : k < packet.length) :
    stack.copy a packet (a + k) = packet.getD k 0 := by
  simp [Memory.copy, List.getD, hk]

theorem word16_eq (h0 : packet.getD k 0 = m a) (h1 : packet.getD (k + 1) 0 = m (a + 1)) :
    word16 packet k = htons (m.load16 a) := by
  have hlo := (m a).toNat_lt
  have hhi := (m (a + 1)).toNat_lt
  apply UInt16.toNat_inj.mp
  rw [toNat_word16, toNat_htons, h0, h1, Memory.toNat_load16]
  omega

theorem word16_bytes (hk : k + 1 < n) : word16 (m.bytes a n) k = htons (m.load16 (a + k)) :=
  word16_eq (getD_bytes (by omega)) (getD_bytes hk)

theorem inAddr_bytes (hk : k + 3 < n) : inAddr (m.bytes a n) k = m.load32 (a + k) := by
  apply Memory.load32_congr
  intro i hi
  rw [getD_bytes (by omega), Nat.add_assoc]

theorem word16_copy (stack : Memory) (hk : k + 1 < packet.length) :
    word16 packet k = htons ((stack.copy a packet).load16 (a + k)) :=
  word16_eq (copy_getD stack (by omega)).symm (copy_getD stack hk).symm

theorem inAddr_copy (stack : Memory) (hk : k + 3 < packet.length) :
    inAddr packet k = (stack.copy a packet).load32 (a + k) := by
  apply Memory.load32_congr
  intro i hi
  rw [Nat.add_assoc, copy_getD stack (by omega)]

theorem headerLength_copy (stack : Memory) (hn : 0 < packet.length) :
    headerLength packet = ipHdrLen (stack.copy a packet) a := by
  rw [headerLength, ipHdrLen, copy_getD stack hn]

theorem ipHdrLen_le (m : Memory) (iph : Nat) : ipHdrLen m iph ≤ 60 := by
  rw [ipHdrLen, UInt8.toNat_mod]
  have hlt := Nat.mod_lt (m (iph + IpHdr.verlen)).toNat (show (16 : UInt8).toNat > 0 by decide)
  rw [show (16 : UInt8).toNat = 16 from rfl] at hlt ⊢
  omega

theorem headerLength_bytes (hn : 0 < n) : headerLength (m.bytes a n) = ipHdrLen m a := by
  rw [headerLength, getD_bytes hn, ipHdrLen]

theorem headerLength_le (packet : List UInt8) : headerLength packet ≤ 60 :=
  ipHdrLen_le (fun a => packet.getD a 0) 0

theorem take_bytes (hk : k ≤ n) : (m.bytes a n).take k = m.bytes a k := by
  rw [Memory.bytes, Memory.bytes, ← List.map_take, List.take_range, Nat.min_eq_left hk]

theorem drop_bytes (hk : k ≤ n) : (m.bytes a n).drop k = m.bytes (a + k) (n - k) := by
  obtain ⟨r, rfl⟩ := Nat.exists_eq_add_of_le' hk
  rw [Memory.bytes_drop, Nat.add_sub_cancel]

theorem ipVerifies_bytes (hn : ipHdrLen m a ≤ n) (hpos : 0 < n) :
    IpVerifies (m.bytes a n) ↔ Valid (wordSum m a (ipHdrLen m a)) := by
  rw [IpVerifies, headerLength_bytes hpos, take_bytes hn, valid_bytesSum_bytes]

/-- The words of the pseudo header stand in another order. -/
theorem udpVerifies_bytes {udpLen : UInt16} (hheader : ipHdrSize ≤ ipHdrLen m a)
    (hdatagram : 8 ≤ udpLen.toNat) (htotal : ipHdrLen m a + udpLen.toNat = n)
    (hlength : m.load16 (a + ipHdrLen m a + UdpHdr.length) = htons udpLen) :
    UdpVerifies (m.bytes a n) ↔
      Valid (udpWords (m.load32 (a + IpHdr.srcaddr)) (m.load32 (a + IpHdr.destaddr))
        (htons udpLen) m (a + ipHdrLen m a) udpLen.toNat) := by
  have hoffsets := IpHdr.offsets
  have hudp := UdpHdr.offsets
  have hsize : ipHdrSize = 20 := rfl
  have hudpLength : udpLength (m.bytes a n) = (htons (htons udpLen)).toNat := by
    rw [udpLength, headerLength_bytes (by omega), word16_bytes (by omega), ← Nat.add_assoc, hlength]
  have haddresses : ((m.bytes a n).drop IpHdr.srcaddr).take 8 = m.bytes (a + IpHdr.srcaddr) 8 := by
    rw [drop_bytes (by omega), take_bytes (by omega)]
  have hdata : (m.bytes a n).drop (headerLength (m.bytes a n)) =
      m.bytes (a + ipHdrLen m a) udpLen.toNat := by
    rw [headerLength_bytes (by omega), drop_bytes (by omega)]
    congr 1
    omega
  let words := checksumWords m (a + IpHdr.srcaddr) 8 ++
    (htons ipprotoUdp.toUInt16 :: htons udpLen :: checksumWords m (a + ipHdrLen m a) udpLen.toNat)
  have hwire : (words.map fun w => (htons w).toNat).sum =
      bytesSum (m.bytes (a + IpHdr.srcaddr) 8) + ipprotoUdp.toNat + (htons (htons udpLen)).toNat +
        bytesSum (m.bytes (a + ipHdrLen m a) udpLen.toNat) := by
    simp only [words, List.map_append, List.map_cons, List.sum_append, List.sum_cons,
      ← bytesSum_bytes, htons_htons]
    rw [show ipprotoUdp.toUInt16.toNat = ipprotoUdp.toNat from rfl]
    omega
  have hsum : (words.map UInt16.toNat).sum =
      udpWords (m.load32 (a + IpHdr.srcaddr)) (m.load32 (a + IpHdr.destaddr)) (htons udpLen) m
        (a + ipHdrLen m a) udpLen.toNat := by
    rw [udpWords, halves_load32, halves_load32]
    simp only [words, List.map_append, List.map_cons, List.sum_append, List.sum_cons, wordSum,
      checksumWords, List.map_nil, List.sum_nil]
    rw [show a + IpHdr.srcaddr + 2 + 2 = a + IpHdr.destaddr from rfl]
    omega
  rw [UdpVerifies, haddresses, hdata, hudpLength, ← hwire, valid_htons_iff, hsum]

end

/-! ## Before the checksum -/

/-- The sum over the pseudo header and a datagram at `udp` with these ports and without a
checksum. -/
def plainSum (m : Memory) (src dst : UInt32) (srcPort destPort : UInt16) (udp udpLen : Nat) : Nat :=
  udpWords src dst (m.load16 (udp + UdpHdr.length))
    (((m.store16 (udp + UdpHdr.srcPortno) (htons srcPort)).store16 (udp + UdpHdr.destPortno)
      (htons destPort)).store16 (udp + UdpHdr.checksum) 0) udp udpLen

theorem plainSum_pos {m : Memory} {src dst : UInt32} {srcPort destPort : UInt16} {udp udpLen : Nat} :
    0 < plainSum m src dst srcPort destPort udp udpLen := by
  have hptcl : (htons ipprotoUdp.toUInt16).toNat = 4352 := rfl
  rw [plainSum, udpWords, hptcl]
  omega

/-- The checksum comes to the sum where the datagram holds it. -/
theorem udpWords_store16 {m : Memory} {src dst : UInt32} {udplen : UInt16} {udp udpLen : Nat}
    (hlen : 8 ≤ udpLen) (hzero : m.load16 (udp + UdpHdr.checksum) = 0) (v : UInt16) :
    udpWords src dst udplen (m.store16 (udp + UdpHdr.checksum) v) udp udpLen =
      udpWords src dst udplen m udp udpLen + v.toNat := by
  have hstore := wordSum_store16 (m := m) (a := udp) (k := 3) (n := udpLen) v (by omega)
  rw [show udp + 2 * 3 = udp + UdpHdr.checksum from rfl, hzero, UInt16.toNat_zero] at hstore
  rw [udpWords, udpWords]
  omega

end MulticastProxy
