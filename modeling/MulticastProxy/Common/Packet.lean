import Mathlib.Tactic

/-!
# IPv4 packets as the kernel hooks see them

Addresses and 16-bit fields are in host order. The two incremental checksum
updates of the kernel are parameters.
-/

namespace MulticastProxy

set_option autoImplicit false

abbrev ipprotoUdp : UInt8 := 17
abbrev ipOffset : UInt16 := 0x1FFF
abbrev csumMangled0 : UInt16 := 0xFFFF

/-- A buffer: the fields of its IP header that the hooks read or write, the bytes from
`ip_hdrlen` on, and whether `ip_summed` is `CHECKSUM_PARTIAL`. -/
structure Skb where
  tos : UInt8
  totLen : UInt16
  fragOff : UInt16
  ttl : UInt8
  protocol : UInt8
  check : UInt16
  saddr : UInt32
  daddr : UInt32
  transport : List UInt8
  csumPartial : Bool
  deriving DecidableEq, Repr

/-- The big-endian 16-bit word at an offset. -/
def word16 (bytes : List UInt8) (off : Nat) : UInt16 :=
  (bytes.getD off 0).toUInt16 * 256 + (bytes.getD (off + 1) 0).toUInt16

def setWord16 (bytes : List UInt8) (off : Nat) (v : UInt16) : List UInt8 :=
  (bytes.set off (v / 256).toUInt8).set (off + 1) v.toUInt8

@[simp] theorem length_setWord16 (bytes : List UInt8) (off : Nat) (v : UInt16) :
    (setWord16 bytes off v).length = bytes.length := by simp [setWord16]

theorem toNat_word16 (bytes : List UInt8) (off : Nat) :
    (word16 bytes off).toNat = 256 * (bytes.getD off 0).toNat + (bytes.getD (off + 1) 0).toNat := by
  have h1 := (bytes.getD off 0).toNat_lt
  have h2 := (bytes.getD (off + 1) 0).toNat_lt
  unfold word16
  simp only [UInt16.toNat_add, UInt16.toNat_mul, UInt8.toNat_toUInt16, UInt16.toNat_ofNat,
    Nat.reducePow, Nat.reduceMod]
  omega

theorem toNat_bytes_of_word (v : UInt16) :
    256 * (v / 256).toUInt8.toNat + v.toUInt8.toNat = v.toNat := by
  have hv := v.toNat_lt
  simp only [UInt16.toNat_toUInt8, UInt16.toNat_div, UInt16.toNat_ofNat, Nat.reducePow,
    Nat.reduceMod]
  omega

/-- `skb_header_pointer` for a `struct udphdr`: `NULL` where fewer than 8 bytes are left. -/
def Skb.udpHeader (skb : Skb) : Option (List UInt8) :=
  if skb.transport.length < 8 then none else some skb.transport

def udpDest (uh : List UInt8) : UInt16 := word16 uh 2

def udpCheck (uh : List UInt8) : UInt16 := word16 uh 6

/-- `csum_replace4` and `inet_proto_csum_replace4`: a checksum with one address in place of
another. -/
structure CsumReplace where
  ip : UInt16 → UInt32 → UInt32 → UInt16
  proto : UInt16 → UInt32 → UInt32 → UInt16

/-- The rewriting of `daddr` that both hooks make, with its repair of the two checksums. -/
def Skb.dnat (csum : CsumReplace) (skb : Skb) (daddr : UInt32) : Skb :=
  if skb.fragOff &&& ipOffset = 0 then
    let uh := skb.transport
    let repaired := csum.proto (udpCheck uh) skb.daddr daddr
    { skb with
      daddr
      check := csum.ip skb.check skb.daddr daddr
      transport :=
        if udpCheck uh ≠ 0 ∨ skb.csumPartial = true then
          setWord16 uh 6 (if repaired = 0 then csumMangled0 else repaired)
        else uh }
  else { skb with daddr }

section
variable (csum : CsumReplace) (skb : Skb) (daddr : UInt32)

@[simp] theorem Skb.dnat_daddr : (skb.dnat csum daddr).daddr = daddr := by
  unfold Skb.dnat; split <;> rfl

@[simp] theorem Skb.dnat_protocol : (skb.dnat csum daddr).protocol = skb.protocol := by
  unfold Skb.dnat; split <;> rfl

@[simp] theorem Skb.dnat_totLen : (skb.dnat csum daddr).totLen = skb.totLen := by
  unfold Skb.dnat; split <;> rfl

@[simp] theorem Skb.dnat_length :
    (skb.dnat csum daddr).transport.length = skb.transport.length := by
  unfold Skb.dnat
  split
  · simp only
    split <;> simp
  · rfl

end

end MulticastProxy
