import MulticastProxy.Common.IpHeader
import MulticastProxy.Library.OnesComplement

/-!
# Checksums over a buffer (`iph.c`)

Both proxies sum a buffer up in the words of a little-endian machine. These sums check where those
of the words on the wire do.
-/

namespace MulticastProxy

set_option autoImplicit false

open OnesComplement

/-- The sum of the words of `len` bytes. -/
def wordSum (m : Memory) (addr len : Nat) : Nat := ((checksumWords m addr len).map UInt16.toNat).sum

section
variable {m m' : Memory} {a a' n k : Nat}

@[simp] theorem wordSum_zero : wordSum m a 0 = 0 := rfl

theorem wordSum_add_two : wordSum m a (n + 2) = (m.load16 a).toNat + wordSum m (a + 2) n := rfl

theorem checksumWords_congr (h : ∀ i < n, m (a + i) = m' (a' + i)) :
    checksumWords m a n = checksumWords m' a' n := by
  induction n using Nat.twoStepInduction generalizing a a' with
  | zero => rfl
  | one => rw [checksumWords, checksumWords, show m a = m' a' from h 0 (by decide)]
  | more n ih _ =>
    have hrest : checksumWords m (a + 2) n = checksumWords m' (a' + 2) n := by
      apply ih
      intro i hi
      rw [Nat.add_assoc, Nat.add_assoc]
      exact h (2 + i) (by omega)
    have hword : m.load16 a = m'.load16 a' :=
      Memory.load16_congr (h 0 (by omega)) (h 1 (by omega))
    rw [checksumWords, checksumWords, hrest, hword]

theorem wordSum_congr (h : ∀ i < n, m (a + i) = m' (a' + i)) : wordSum m a n = wordSum m' a' n := by
  rw [wordSum, wordSum, checksumWords_congr h]

theorem wordSum_add : wordSum m a (2 * k + n) = wordSum m a (2 * k) + wordSum m (a + 2 * k) n := by
  induction k generalizing a with
  | zero => simp
  | succ k ih =>
    rw [show 2 * (k + 1) + n = 2 * k + n + 2 by omega, show 2 * (k + 1) = 2 * k + 2 by omega,
      wordSum_add_two, wordSum_add_two, ih, show a + 2 + 2 * k = a + (2 * k + 2) by omega,
      Nat.add_assoc]

/-- One word in place of another. -/
theorem wordSum_store16 (v : UInt16) (hk : 2 * k + 2 ≤ n) :
    wordSum (m.store16 (a + 2 * k) v) a n + (m.load16 (a + 2 * k)).toNat =
      wordSum m a n + v.toNat := by
  obtain ⟨r, rfl⟩ := Nat.exists_eq_add_of_le hk
  have hbefore : wordSum (m.store16 (a + 2 * k) v) a (2 * k) = wordSum m a (2 * k) := by
    apply wordSum_congr
    intro i hi
    exact Memory.store16_of_disjoint (by omega)
  have hbehind : wordSum (m.store16 (a + 2 * k) v) (a + 2 * k + 2) r =
      wordSum m (a + 2 * k + 2) r := by
    apply wordSum_congr
    intro i hi
    exact Memory.store16_of_disjoint (by omega)
  rw [show 2 * k + 2 + r = 2 * k + (r + 2) by omega, wordSum_add, wordSum_add, wordSum_add_two,
    wordSum_add_two, hbefore, hbehind, Memory.load16_store16]
  omega

theorem wordSum_le : wordSum m a n ≤ 65535 * (n / 2 + 1) := by
  induction n using Nat.twoStepInduction generalizing a with
  | zero => simp
  | one =>
    have ha := (m a).toNat_lt
    simp only [wordSum, checksumWords, List.map_cons, List.map_nil, List.sum_singleton,
      UInt8.toNat_toUInt16]
    omega
  | more n ih _ =>
    have hword := (m.load16 a).toNat_lt
    have hrest := ih (a := a + 2)
    rw [wordSum_add_two, show (n + 2) / 2 = n / 2 + 1 by omega]
    omega

/-- One byte more, in the low or in the high half of its word. -/
theorem wordSum_update {p : Nat} (hp : p < n) (hzero : m (a + p) = 0)
    (hsame : ∀ i < n, i ≠ p → m (a + i) = m' (a + i)) :
    wordSum m' a n =
      wordSum m a n + if p % 2 = 0 then (m' (a + p)).toNat else 256 * (m' (a + p)).toNat := by
  induction n using Nat.twoStepInduction generalizing a p with
  | zero => omega
  | one =>
    obtain rfl : p = 0 := by omega
    rw [Nat.add_zero] at hzero ⊢
    simp [wordSum, checksumWords, hzero]
  | more n ih _ =>
    rw [wordSum_add_two, wordSum_add_two, Memory.toNat_load16, Memory.toNat_load16]
    have hrest : p < 2 → wordSum m (a + 2) n = wordSum m' (a + 2) n := by
      intro hp2
      apply wordSum_congr
      intro i hi
      rw [Nat.add_assoc]
      exact hsame (2 + i) (by omega) (by omega)
    rcases p with _ | _ | p
    · have hhigh := hsame 1 (by omega) (by omega)
      rw [Nat.add_zero] at hzero ⊢
      rw [hzero, hrest (by omega), hhigh]
      simp
      omega
    · have hlow := hsame 0 (by omega) (by omega)
      rw [Nat.zero_add] at hzero ⊢
      rw [Nat.add_zero] at hlow
      rw [hzero, hrest (by omega), hlow]
      simp
      omega
    · have hrest := ih (a := a + 2) (p := p) (by omega)
        (by rw [← hzero]; congr 1; omega) (fun i hi hne => by
          rw [Nat.add_assoc]
          exact hsame (2 + i) (by omega) (by omega))
      have hlow := hsame 0 (by omega) (by omega)
      have hhigh := hsame 1 (by omega) (by omega)
      rw [Nat.add_zero] at hlow
      rw [hrest, hlow, hhigh, show a + (p + 1 + 1) = a + 2 + p by omega,
        show (p + 1 + 1) % 2 = p % 2 by omega]
      omega

end

/-! ## The words on the wire -/

theorem htons_modEq (w : UInt16) : 256 * (htons w).toNat ≡ w.toNat [MOD 65535] := by
  rw [toNat_htons, Nat.ModEq]
  omega

theorem sum_htons_modEq (ws : List UInt16) :
    256 * (ws.map fun w => (htons w).toNat).sum ≡ (ws.map UInt16.toNat).sum [MOD 65535] := by
  induction ws with
  | nil => rfl
  | cons w ws ih =>
    simp only [List.map_cons, List.sum_cons, Nat.mul_add]
    exact (htons_modEq w).add ih

theorem sum_htons_pos_iff (ws : List UInt16) :
    0 < (ws.map fun w => (htons w).toNat).sum ↔ 0 < (ws.map UInt16.toNat).sum := by
  induction ws with
  | nil => rfl
  | cons w ws ih =>
    have hword := toNat_htons w
    simp only [List.map_cons, List.sum_cons]
    omega

theorem valid_htons_iff (ws : List UInt16) :
    Valid (ws.map fun w => (htons w).toNat).sum ↔ Valid (ws.map UInt16.toNat).sum := by
  have hmod := sum_htons_modEq ws
  have hpos := sum_htons_pos_iff ws
  rw [Nat.ModEq] at hmod
  rw [valid_iff, valid_iff]
  omega

theorem bytesSum_bytes (m : Memory) (a n : Nat) :
    bytesSum (m.bytes a n) = ((checksumWords m a n).map fun w => (htons w).toNat).sum := by
  induction n using Nat.twoStepInduction generalizing a with
  | zero => rfl
  | one =>
    have ha := (m a).toNat_lt
    simp only [Memory.bytes, List.range_one, List.map_cons, List.map_nil, Nat.add_zero, bytesSum,
      checksumWords, List.sum_singleton, toNat_htons, UInt8.toNat_toUInt16]
    omega
  | more n ih _ =>
    have h0 := (m a).toNat_lt
    have h1 := (m (a + 1)).toNat_lt
    have hbytes : m.bytes a (n + 2) = m a :: m (a + 1) :: m.bytes (a + 2) n := by
      apply List.ext_getElem
      · simp
      · intro i hi hi'
        rcases i with _ | _ | i
        · simp [Memory.bytes]
        · simp [Memory.bytes]
        · simp [Memory.bytes, Nat.add_assoc, Nat.add_comm 2]
    rw [hbytes, bytesSum, ih, checksumWords, List.map_cons, List.sum_cons, toNat_htons,
      Memory.toNat_load16]
    omega

theorem valid_bytesSum_bytes {m : Memory} {a n : Nat} :
    Valid (bytesSum (m.bytes a n)) ↔ Valid (wordSum m a n) := by
  rw [bytesSum_bytes, valid_htons_iff]
  rfl

/-! ## The pseudo header -/

theorem halves_load32 (m : Memory) (a : Nat) :
    halves (m.load32 a) = (m.load16 a).toNat + (m.load16 (a + 2)).toNat := by
  have hlo := (m.load16 a).toNat_lt
  have hhi := (m.load16 (a + 2)).toNat_lt
  simp only [halves, Memory.load32, UInt32.toNat_add, UInt32.toNat_mul, UInt16.toNat_toUInt32,
    UInt32.toNat_ofNat, Nat.reducePow, Nat.reduceMod]
  omega

/-- The sum over the pseudo header, whose length is `udplen`, and a datagram at `udp`. -/
def udpWords (src dst : UInt32) (udplen : UInt16) (m : Memory) (udp udpLen : Nat) : Nat :=
  halves src + halves dst + (htons ipprotoUdp.toUInt16).toNat + udplen.toNat + wordSum m udp udpLen

/-- The pseudo header alone. -/
theorem wordSum_psdHeader (m : Memory) (iph iphLen : Nat) (udplen : UInt16) :
    wordSum (udpPsd m iph iphLen 0 udplen) 0 12 =
      halves (m.load32 (iph + IpHdr.srcaddr)) + halves (m.load32 (iph + IpHdr.destaddr)) +
        (htons ipprotoUdp.toUInt16).toNat + udplen.toNat := by
  generalize hpsd : udpPsd m iph iphLen 0 udplen = psd
  have hcells : ∀ a, psd a = (((Memory.store32 (fun _ => 0) 0
      (m.load32 (iph + IpHdr.srcaddr))).store32 4 (m.load32 (iph + IpHdr.destaddr))).store8 9
      ipprotoUdp).store16 10 udplen a := by
    intro a
    rw [← hpsd, udpPsd]
    exact Memory.copy_of_disjoint (by simp [Memory.bytes]; omega)
  have hsrc : psd.load32 0 = m.load32 (iph + IpHdr.srcaddr) := by
    rw [← Memory.load32_store32 (m := fun _ => 0) (a := 0) (m.load32 (iph + IpHdr.srcaddr))]
    apply Memory.load32_congr
    intro i hi
    rw [hcells, Memory.store16_of_disjoint (by omega), Memory.store8_of_ne (by omega),
      Memory.store32_of_disjoint (by omega)]
  have hdst : psd.load32 4 = m.load32 (iph + IpHdr.destaddr) := by
    rw [← Memory.load32_store32 (m := Memory.store32 (fun _ => 0) 0
      (m.load32 (iph + IpHdr.srcaddr))) (a := 4) (m.load32 (iph + IpHdr.destaddr))]
    apply Memory.load32_congr
    intro i hi
    rw [hcells, Memory.store16_of_disjoint (by omega), Memory.store8_of_ne (by omega)]
  have hptcl : psd.load16 8 = htons ipprotoUdp.toUInt16 := by
    have hmbz : psd 8 = 0 := by
      rw [hcells, Memory.store16_of_disjoint (by decide), Memory.store8_of_ne (by decide),
        Memory.store32_of_disjoint (by decide), Memory.store32_of_disjoint (by decide)]
    have hudp : psd 9 = ipprotoUdp := by
      rw [hcells, Memory.store16_of_disjoint (by decide), Memory.store8_self]
    rw [Memory.load16, hmbz, hudp]
    decide
  have hudplen : psd.load16 10 = udplen := by
    rw [Memory.load16_congr (hcells 10) (hcells 11), Memory.load16_store16]
  have hsrcwords : halves (psd.load32 0) = (psd.load16 0).toNat + (psd.load16 2).toNat :=
    halves_load32 psd 0
  have hdstwords : halves (psd.load32 4) = (psd.load16 4).toNat + (psd.load16 6).toNat :=
    halves_load32 psd 4
  rw [hsrc] at hsrcwords
  rw [hdst] at hdstwords
  simp only [wordSum, checksumWords, List.map_cons, List.map_nil, List.sum_cons, List.sum_nil,
    Nat.reduceAdd]
  rw [hsrcwords, hdstwords, hptcl, hudplen]
  omega

theorem wordSum_udpPsd (m : Memory) (iph iphLen udpLen : Nat) (udplen : UInt16) :
    wordSum (udpPsd m iph iphLen udpLen udplen) 0 (udpPsdHeaderSize + udpLen) =
      udpWords (m.load32 (iph + IpHdr.srcaddr)) (m.load32 (iph + IpHdr.destaddr)) udplen m
        (iph + iphLen) udpLen := by
  have hdata : wordSum (udpPsd m iph iphLen udpLen udplen) (0 + 2 * 6) udpLen =
      wordSum m (iph + iphLen) udpLen := by
    apply wordSum_congr
    intro i hi
    simp [udpPsd, Memory.copy, Memory.bytes, hi]
  have hheader : wordSum (udpPsd m iph iphLen udpLen udplen) 0 (2 * 6) =
      wordSum (udpPsd m iph iphLen 0 udplen) 0 (2 * 6) := by
    have hsize : udpPsdHeaderSize = 12 := rfl
    apply wordSum_congr
    intro i hi
    unfold udpPsd
    rw [Memory.copy_of_disjoint (Or.inl (by omega)), Memory.copy_of_disjoint (Or.inl (by omega))]
  rw [show udpPsdHeaderSize + udpLen = 2 * 6 + udpLen from rfl, wordSum_add, hdata, hheader]
  exact congrArg (fun header => header + wordSum m (iph + iphLen) udpLen)
    (wordSum_psdHeader m iph iphLen udplen)

end MulticastProxy
