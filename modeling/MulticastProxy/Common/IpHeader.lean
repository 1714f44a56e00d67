import MulticastProxy.Library.Memory
import MulticastProxy.Common.Packet

/-!
# Packets in the Linux proxies (`iphdr.h`, `iph.c`)

Both proxies work on the bytes of a packet in a buffer. The field offsets of `struct ip_hdr` and
`struct udp_hdr`, the byte order of their 16-bit fields and the pseudo header of the UDP checksum.
-/

namespace MulticastProxy

set_option autoImplicit false

abbrev bufsize : Nat := 4096
abbrev ipHdrSize : Nat := 20
abbrev udpPsdHeaderSize : Nat := 12

abbrev ipprotoVrrf : UInt8 := 112

namespace IpHdr

abbrev verlen : Nat := 0
abbrev tos : Nat := 1
abbrev totallength : Nat := 2
abbrev id : Nat := 4
abbrev offset : Nat := 6
abbrev ttl : Nat := 8
abbrev protocol : Nat := 9
abbrev checksum : Nat := 10
abbrev srcaddr : Nat := 12
abbrev destaddr : Nat := 16

theorem offsets : tos = 1 ∧ totallength = 2 ∧ id = 4 ∧ offset = 6 ∧ ttl = 8 ∧ protocol = 9 ∧
    checksum = 10 ∧ srcaddr = 12 ∧ destaddr = 16 :=
  ⟨rfl, rfl, rfl, rfl, rfl, rfl, rfl, rfl, rfl⟩

end IpHdr

namespace UdpHdr

abbrev srcPortno : Nat := 0
abbrev destPortno : Nat := 2
abbrev length : Nat := 4
abbrev checksum : Nat := 6

theorem offsets : srcPortno = 0 ∧ destPortno = 2 ∧ length = 4 ∧ checksum = 6 := ⟨rfl, rfl, rfl, rfl⟩

end UdpHdr

/-- `htons` and `ntohs`: the two bytes in reverse. -/
def htons (x : UInt16) : UInt16 := 256 * x + x / 256

theorem toNat_htons (x : UInt16) : (htons x).toNat = x.toNat % 256 * 256 + x.toNat / 256 := by
  have hx := x.toNat_lt
  unfold htons
  simp only [UInt16.toNat_add, UInt16.toNat_mul, UInt16.toNat_div, UInt16.toNat_ofNat,
    Nat.reducePow, Nat.reduceMod]
  omega

theorem htons_htons (x : UInt16) : htons (htons x) = x := by
  have hx := x.toNat_lt
  apply UInt16.toNat_inj.mp
  rw [toNat_htons, toNat_htons]
  omega

/-- The length of the IP header at `iph`: up to 60 bytes, and below 20 where it is malformed. -/
def ipHdrLen (m : Memory) (iph : Nat) : Nat := 4 * (m (iph + IpHdr.verlen) % 16).toNat

/-- The 16-bit words of `len` bytes; a last odd byte is a word of its own. -/
def checksumWords (m : Memory) (addr : Nat) : Nat → List UInt16
  | 0 => []
  | 1 => [(m addr).toUInt16]
  | len + 2 => m.load16 addr :: checksumWords m (addr + 2) len

/-- The buffer `udp_checksum` sums up: the pseudo header, then the datagram. -/
def udpPsd (m : Memory) (iph iphLen udpLen : Nat) (udplen : UInt16) : Memory :=
  let psd : Memory := fun _ => 0
  let psd := psd.store32 0 (m.load32 (iph + IpHdr.srcaddr))
  let psd := psd.store32 4 (m.load32 (iph + IpHdr.destaddr))
  let psd := psd.store8 9 ipprotoUdp
  let psd := psd.store16 10 udplen
  psd.copy udpPsdHeaderSize (m.bytes (iph + iphLen) udpLen)

/-- What a raw socket hands over of a packet. -/
def recvfrom (packet : List UInt8) : List UInt8 := packet.take bufsize

theorem length_recvfrom_le (packet : List UInt8) : (recvfrom packet).length ≤ bufsize := by
  rw [recvfrom, List.length_take]
  exact Nat.min_le_left _ _

theorem copy_recvfrom (m stack : Memory) (a b : Nat) {n i : Nat} (hn : i < n) (hi : i < ipHdrSize) :
    stack.copy b (recvfrom (m.bytes a n)) (b + i) = m (a + i) := by
  have hsub : b + i - b = i := by omega
  have hbuf : i < bufsize := Nat.lt_trans hi (by decide)
  simp [Memory.copy, recvfrom, Memory.bytes, hsub, hn, hbuf]

end MulticastProxy
