import Mathlib.Tactic

/-!
# One's complement sums

Internet checksums add 16-bit words and add the carries back in. A checksum is right where the sum
over all words, its own word included, is all ones, so sums matter only up to 65535.
-/

set_option autoImplicit false

namespace OnesComplement

/-- The carries out of 16 bits are added back in until there is none. -/
def fold (n : Nat) : Nat := if n < 65536 then n else fold (n % 65536 + n / 65536)
termination_by n
decreasing_by omega

theorem fold_lt (n : Nat) : fold n < 65536 := by
  induction n using fold.induct with
  | case1 n h =>
    rw [fold, if_pos h]
    exact h
  | case2 n h ih =>
    rw [fold, if_neg h]
    exact ih

theorem fold_mod (n : Nat) : fold n % 65535 = n % 65535 := by
  induction n using fold.induct with
  | case1 n h => rw [fold, if_pos h]
  | case2 n h ih =>
    rw [fold, if_neg h, ih]
    omega

theorem fold_pos_iff (n : Nat) : 0 < fold n ↔ 0 < n := by
  induction n using fold.induct with
  | case1 n h => rw [fold, if_pos h]
  | case2 n h ih =>
    rw [fold, if_neg h, ih]
    omega

/-- The folded sum is known by its rest and by whether it is zero. -/
theorem fold_eq {n r : Nat} (hr : r < 65536) (hmod : r % 65535 = n % 65535)
    (hpos : 0 < r ↔ 0 < n) : fold n = r := by
  have hlt := fold_lt n
  have hfold := fold_mod n
  have hfpos := fold_pos_iff n
  omega

/-- Two foldings are enough for a sum of 32 bits. -/
theorem fold_twice {n once : Nat} (hn : n < 2 ^ 32) (honce : n / 65536 + n % 65536 = once) :
    fold n = (once + once / 65536) % 65536 := by
  have hle : once ≤ 131070 := by omega
  have hmod : once % 65535 = n % 65535 := by omega
  have hpos : 0 < once ↔ 0 < n := by omega
  have htwice : (once + once / 65536) % 65536 = if once < 65536 then once else once - 65535 := by
    split
    · omega
    · omega
  rw [htwice]
  split
  · exact fold_eq (by omega) hmod hpos
  · exact fold_eq (by omega) (by omega) (by omega)

/-- The words with this sum, a checksum among them, check. -/
def Valid (sum : Nat) : Prop := fold sum = 65535

theorem valid_iff {n : Nat} : Valid n ↔ 0 < n ∧ n % 65535 = 0 := by
  have hlt := fold_lt n
  have hmod := fold_mod n
  have hpos := fold_pos_iff n
  unfold Valid
  constructor
  · intro h
    exact ⟨hpos.mp (by omega), by omega⟩
  · rintro ⟨h0, hzero⟩
    have := hpos.mpr h0
    omega

/-- Words exchanged among words that check: they still check where the sums agree. -/
theorem valid_exchange {a b x y : Nat} (ha : Valid a) (hb : 0 < b) (h : b + x = a + y) :
    Valid b ↔ x ≡ y [MOD 65535] := by
  obtain ⟨_, hzero⟩ := valid_iff.mp ha
  rw [valid_iff, Nat.ModEq]
  omega

/-- The checksum of words with this sum. -/
def complement (n : Nat) : UInt16 := ~~~UInt16.ofNat (fold n)

theorem toNat_complement (n : Nat) : (complement n).toNat = 65535 - fold n := by
  rw [complement, UInt16.toNat_not, UInt16.toNat_ofNat_of_lt' (fold_lt n), UInt16.size]

theorem valid_add_complement (n : Nat) : Valid (n + (complement n).toNat) := by
  have hlt := fold_lt n
  have hmod := fold_mod n
  have hpos := fold_pos_iff n
  rw [toNat_complement, valid_iff]
  omega

theorem complement_eq_zero_iff {n : Nat} : complement n = 0 ↔ Valid n := by
  have hlt := fold_lt n
  rw [← UInt16.toNat_inj, toNat_complement, Valid, UInt16.toNat_zero]
  omega

/-- All ones in place of the checksum: right where there is nothing to make up for. -/
theorem valid_add_ones {n : Nat} (hn : 0 < n) : Valid (n + 65535) ↔ Valid n := by
  rw [valid_iff, valid_iff]
  omega

/-- One more in the sum is seen in the low byte of the checksum. -/
theorem complement_succ {n : Nat} (hn : 0 < n) :
    (complement (n + 1)).toUInt8 ≠ (complement n).toUInt8 := by
  have hlt := fold_lt n
  have hmod := fold_mod n
  have hpos := fold_pos_iff n
  have hfold : fold (n + 1) = if fold n = 65535 then 1 else fold n + 1 := by
    split
    · exact fold_eq (by omega) (by omega) (by omega)
    · exact fold_eq (by omega) (by omega) (by omega)
  intro h
  have hnat := congrArg UInt8.toNat h
  rw [UInt16.toNat_toUInt8, UInt16.toNat_toUInt8, toNat_complement, toNat_complement, hfold] at hnat
  split at hnat
  · omega
  · omega

/-- So are 255 more in the high byte of a word, unless the sum folds to less than this. -/
theorem complement_add_high {n : Nat} (hn : 255 < fold n) :
    (complement (n + 65280)).toUInt8 ≠ (complement n).toUInt8 := by
  have hlt := fold_lt n
  have hmod := fold_mod n
  have hpos := fold_pos_iff n
  have hfold : fold (n + 65280) = fold n - 255 :=
    fold_eq (by omega) (by omega) (by omega)
  intro h
  have hnat := congrArg UInt8.toNat h
  rw [UInt16.toNat_toUInt8, UInt16.toNat_toUInt8, toNat_complement, toNat_complement, hfold] at hnat
  omega

/-- A byte more in a word, in its low or in its high half, can be chosen so that the low byte of the
checksum changes. -/
theorem exists_byte_changes {n : Nat} (hn : 255 < fold n) (k : Nat) : ∃ v : UInt8,
    (complement (n + if k % 2 = 0 then v.toNat else 256 * v.toNat)).toUInt8 ≠
      (complement n).toUInt8 := by
  by_cases hk : k % 2 = 0
  · refine ⟨1, ?_⟩
    rw [if_pos hk]
    exact complement_succ ((fold_pos_iff n).mp (by omega))
  · refine ⟨255, ?_⟩
    rw [if_neg hk]
    exact complement_add_high hn

/-- A sum that folds to a byte folds to more with one or two added in high halves. -/
theorem fold_add_high {n k : Nat} (hfold : fold n ≤ 255) (hk : 0 < k) (hle : k ≤ 2) :
    255 < fold (n + 256 * k) := by
  have hmod := fold_mod n
  have hpos := fold_pos_iff n
  have hsum : fold (n + 256 * k) = fold n + 256 * k :=
    fold_eq (by omega) (by omega) (by omega)
  omega

/-- The sum of the two words of an address. -/
def halves (x : UInt32) : Nat := x.toNat / 65536 + x.toNat % 65536

theorem halves_not (x : UInt32) : halves (~~~x) + halves x = 2 * 65535 := by
  have hx := x.toNat_lt
  unfold halves
  rw [UInt32.toNat_not, UInt32.size]
  omega

/-- The sum of some words with one address in place of another, where `sum` is kept folded. -/
def sumReplace4 (sum : UInt16) (old new : UInt32) : UInt16 :=
  UInt16.ofNat (fold (sum.toNat + halves (~~~old) + halves new))

/-- The same where the complement of the sum is kept, as in a checksum. -/
def replace4 (check : UInt16) (old new : UInt32) : UInt16 := ~~~sumReplace4 (~~~check) old new

theorem sumReplace4_modEq (sum : UInt16) (old new : UInt32) :
    (sumReplace4 sum old new).toNat + halves old ≡ sum.toNat + halves new [MOD 65535] := by
  have hold := halves_not old
  have hlt := fold_lt (sum.toNat + halves (~~~old) + halves new)
  have hmod := fold_mod (sum.toNat + halves (~~~old) + halves new)
  rw [sumReplace4, UInt16.toNat_ofNat_of_lt' hlt, Nat.ModEq]
  omega

theorem replace4_modEq (check : UInt16) (old new : UInt32) :
    (replace4 check old new).toNat + halves new ≡ check.toNat + halves old [MOD 65535] := by
  have hsum := sumReplace4_modEq (~~~check) old new
  have hcheck := check.toNat_lt
  have hnew := (sumReplace4 (~~~check) old new).toNat_lt
  rw [UInt16.toNat_not, UInt16.size, Nat.ModEq] at hsum
  rw [replace4, UInt16.toNat_not, UInt16.size, Nat.ModEq]
  omega

/-- The sum of bytes as big-endian words; a last odd byte is the high half of a word. -/
def bytesSum : List UInt8 → Nat
  | [] => 0
  | [a] => 256 * a.toNat
  | a :: b :: rest => 256 * a.toNat + b.toNat + bytesSum rest

end OnesComplement
