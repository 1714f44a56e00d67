import MulticastProxy.Library.DottedQuad

/-!
# Addresses in the tools

Both kernel tools read addresses with `inet_pton` and store them as `inet_ntoa` prints them.
-/

namespace MulticastProxy

set_option autoImplicit false

def ip2str (ip : UInt32) : List Char := DottedQuad.inetNtoa ip

/-- `none` stands for `MULTI_PARAM_ERROR`. -/
def parseIpBe (arg : List Char) : Option UInt32 := DottedQuad.inetPton arg

/-- The address is one of 224.0.0.0 to 239.255.255.255. -/
def isMulticast (ip : UInt32) : Bool := 0xE0000000 ≤ ip && ip ≤ 0xEFFFFFFF

/-- The four bytes in reverse, as a little-endian host stores a number in network order. -/
def htonl (x : UInt32) : UInt32 :=
  let n := x.toNat
  UInt32.ofNat (n % 256 * 16777216 + n / 256 % 256 * 65536 + n / 65536 % 256 * 256 +
    n / 16777216 % 256)

theorem toNat_htonl (x : UInt32) : (htonl x).toNat = x.toNat % 256 * 16777216 +
    x.toNat / 256 % 256 * 65536 + x.toNat / 65536 % 256 * 256 + x.toNat / 16777216 % 256 := by
  unfold htonl
  rw [UInt32.toNat_ofNat', Nat.mod_eq_of_lt]
  have h0 : x.toNat % 256 < 256 := Nat.mod_lt _ (by decide)
  have h1 : x.toNat / 256 % 256 < 256 := Nat.mod_lt _ (by decide)
  have h2 : x.toNat / 65536 % 256 < 256 := Nat.mod_lt _ (by decide)
  have h3 : x.toNat / 16777216 % 256 < 256 := Nat.mod_lt _ (by decide)
  omega

theorem htonl_inj {x y : UInt32} (h : htonl x = htonl y) : x = y := by
  have hx := x.toNat_lt
  have hy := y.toNat_lt
  have hnat := congrArg UInt32.toNat h
  rw [toNat_htonl, toNat_htonl] at hnat
  apply UInt32.toNat_inj.mp
  have h0 : x.toNat % 256 = y.toNat % 256 := by omega
  have h1 : x.toNat / 256 % 256 = y.toNat / 256 % 256 := by omega
  have h2 : x.toNat / 65536 % 256 = y.toNat / 65536 % 256 := by omega
  omega

/-- `inet_addr` on a dotted quad: network byte order, as a little-endian host reads it. -/
def inetAddrQuad (text : List Char) : UInt32 :=
  match parseIpBe text with
  | some ip => htonl ip
  | none => 0xFFFFFFFF

theorem ip2str_injective : Function.Injective ip2str := DottedQuad.inetNtoa_injective

theorem ip2str_inj {a b : UInt32} : ip2str a = ip2str b ↔ a = b := ip2str_injective.eq_iff

@[simp] theorem parseIpBe_ip2str (ip : UInt32) : parseIpBe (ip2str ip) = some ip :=
  DottedQuad.inetPton_inetNtoa ip

theorem inetAddrQuad_ip2str (ip : UInt32) : inetAddrQuad (ip2str ip) = htonl ip := by
  rw [inetAddrQuad, parseIpBe_ip2str]

/-! ## Addresses in a command line -/

theorem not_mem_ip2str {ip : UInt32} {ch : Char} (hdigit : ch.isDigit = false) (hdot : ch ≠ '.') :
    ch ∉ ip2str ip := by
  intro h
  rcases DottedQuad.mem_inetNtoa h with hd | rfl
  · simp [hdigit] at hd
  · exact hdot rfl

theorem comma_not_mem (ip : UInt32) : ',' ∉ ip2str ip := not_mem_ip2str (by decide) (by decide)

theorem blank_not_mem (ip : UInt32) : ' ' ∉ ip2str ip := not_mem_ip2str (by decide) (by decide)

theorem ip2str_ne_nil (ip : UInt32) : ip2str ip ≠ [] := by
  have hlen := (DottedQuad.length_inetNtoa ip).1
  intro h
  rw [ip2str] at h
  rw [h] at hlen
  simp at hlen

end MulticastProxy
