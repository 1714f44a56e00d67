import MulticastProxy.Library.Strtoll

/-!
# Numbers on the command line (`parse_arg.h`)

Each tool has its own `parse_arg.h`. The copies of `parse_u32` differ in their error codes only.
-/

namespace MulticastProxy

set_option autoImplicit false

open Nat (ofDigitChars)

def isalldigit : List Char → Int
  | [] => 0
  | ch :: arg => if ch < '0' ∨ '9' < ch then -1 else isalldigit arg

/-- The error codes of a copy; both are -1 in the two of the Linux proxies. -/
structure ParseErrors where
  paramsNull : Int
  u32Trans : Int
  u32Trans_ne : u32Trans ≠ 0

/-- The four copies of the kernel modules' tools: `-TMCC_CMD_PARAMS_NULL` and
`-TMCC_CMD_U32_TRANS_ERROR`. -/
def kernelTools : ParseErrors := ⟨-1004, -1006, by decide⟩

/-- With what `num` points to afterwards; a null pointer is `none`. -/
def parseU32 (errors : ParseErrors) (arg : Option (List Char)) (num : Option UInt32) :
    Int × Option UInt32 :=
  match arg, num with
  | some arg, some num =>
    if isalldigit arg = -1 then (errors.u32Trans, some num)
    else
      let ret := Strtoll.strtoll arg
      if ret < 0 ∨ 0xffffffff < ret then (errors.u32Trans, some num)
      else (0, some (UInt32.ofNat ret.toNat))
  | _, num => (errors.paramsNull, num)

/-! ## Decimal numbers -/

/-- A decimal number of 32 bits. -/
def IsDecimalU32 (arg : List Char) : Prop :=
  arg ≠ [] ∧ (∀ ch ∈ arg, ch.isDigit) ∧ ofDigitChars 10 arg 0 ≤ 0xffffffff

/-- The digits behind the leading zeros. -/
def significant (arg : List Char) : List Char := arg.dropWhile (· = '0')

/-- The octal digits that come first. -/
def octal (digits : List Char) : List Char := digits.takeWhile fun ch => ch.toNat - 48 < 8

/-- Octal digits that make up a number of more than 32 bits. -/
def PassesU32 (digits : List Char) : Prop :=
  11 < digits.length ∨ digits.length = 11 ∧ ∃ ch, digits.head? = some ch ∧ '4' ≤ ch

/-- Where a reading with base 0 is as good as a decimal one: with no zero in front, where it is the
same for the one digit that counts, or where both are out of range. -/
def ReadsDecimal (arg : List Char) : Prop :=
  (∃ ch ∈ arg, ch.isDigit = false) ∨ arg ≠ [] ∧ arg.head? ≠ some '0' ∨
  arg.head? = some '0' ∧ (significant arg = octal (significant arg) ∧
    (significant arg).length ≤ 1 ∨ PassesU32 (octal (significant arg)))

theorem isDigit_iff {ch : Char} : ch.isDigit = false ↔ ch < '0' ∨ '9' < ch := by
  rw [Char.isDigit, Bool.and_eq_false_iff, decide_eq_false_iff_not, decide_eq_false_iff_not]
  exact or_congr UInt32.not_le UInt32.not_le

theorem isalldigit_eq_iff {arg : List Char} :
    isalldigit arg = -1 ↔ ∃ ch ∈ arg, ch.isDigit = false := by
  induction arg with
  | nil =>
    apply iff_of_false
    · intro hret
      cases hret
    · intro ⟨ch, hin, _⟩
      cases hin
  | cons ch arg ih =>
    rw [isalldigit, List.exists_mem_cons_iff, isDigit_iff, ← ih]
    by_cases hother : ch < '0' ∨ '9' < ch
    · rw [if_pos hother]
      exact iff_of_true rfl (Or.inl hother)
    · rw [if_neg hother]
      constructor
      · exact Or.inr
      · intro hcases
        exact hcases.resolve_left hother

theorem isalldigit_ne_iff {arg : List Char} :
    isalldigit arg ≠ -1 ↔ ∀ ch ∈ arg, ch.isDigit := by
  rw [Ne, isalldigit_eq_iff]
  simp

/-- What base 0 makes of the digits. -/
def baseZero (arg : List Char) : Nat :=
  if arg.head? = some '0' then ofDigitChars 8 (octal (significant arg)) 0 else ofDigitChars 10 arg 0

theorem ofDigitChars_octal (arg : List Char) :
    ofDigitChars 8 (octal arg) 0 = ofDigitChars 8 (octal (significant arg)) 0 := by
  induction arg with
  | nil => rfl
  | cons ch arg ih =>
    by_cases hzero : ch = '0'
    · rw [significant, List.dropWhile_cons, if_pos (decide_eq_true hzero), ← significant, ← ih,
        octal, hzero, List.takeWhile_cons_of_pos rfl, Nat.ofDigitChars_cons]
      rfl
    · rw [significant, List.dropWhile_cons, if_neg (by simpa using hzero)]

/-- What the function does with a string of digits. -/
theorem parseU32_digits {errors : ParseErrors} {arg : List Char} (h : ∀ ch ∈ arg, ch.isDigit)
    (num : UInt32) : parseU32 errors (some arg) (some num) =
      if baseZero arg ≤ 0xffffffff then (0, some (UInt32.ofNat (baseZero arg)))
      else (errors.u32Trans, some num) := by
  have hret : Strtoll.strtoll arg = min (2 ^ 63 - 1) (baseZero arg : Int) := by
    rw [Strtoll.strtoll_digits h, baseZero]
    split
    · rw [← ofDigitChars_octal, octal]
    · rfl
  unfold parseU32
  simp only
  rw [if_neg (isalldigit_ne_iff.mpr h), hret]
  by_cases hfits : baseZero arg ≤ 0xffffffff
  · have hvalue : min (2 ^ 63 - 1) (baseZero arg : Int) = baseZero arg := by omega
    rw [if_pos hfits, hvalue, if_neg (by omega), Int.toNat_natCast]
  · rw [if_neg hfits, if_pos (by omega)]

/-- A second digit makes the decimal reading the larger one. -/
theorem octal_lt {value : Nat} (hvalue : 0 < value) (ch : Char) (digits : List Char) :
    ofDigitChars 8 (octal (ch :: digits)) value < ofDigitChars 10 (ch :: digits) value := by
  rw [octal, List.takeWhile_cons, Nat.ofDigitChars_cons]
  split
  · rw [Nat.ofDigitChars_cons]
    have hstart : 8 * value + (ch.toNat - '0'.toNat) ≤ 10 * value + (ch.toNat - '0'.toNat) := by
      omega
    have hle : _ ≤ ofDigitChars 10 digits _ :=
      Strtoll.takeWhile_ofDigitChars_le (b := 8) (by decide) (by decide) hstart
        fun c => c.toNat - 48 < 8
    omega
  · have hle : 10 * value + (ch.toNat - '0'.toNat) ≤ ofDigitChars 10 digits _ :=
      Strtoll.le_ofDigitChars (by decide)
    rw [Nat.ofDigitChars_nil]
    omega

theorem octal_le (digits : List Char) :
    ofDigitChars 8 (octal digits) 0 ≤ ofDigitChars 10 digits 0 :=
  Strtoll.takeWhile_ofDigitChars_le (by decide) (by decide) (Nat.le_refl 0) _

section
variable {digits : List Char} (h : ∀ ch ∈ digits, ch.isDigit) (hhead : digits.head? ≠ some '0')

include h hhead

theorem one_le_head {ch : Char} {rest : List Char} (hdigits : digits = ch :: rest) :
    1 ≤ ch.toNat - 48 := by
  have hrange := Strtoll.toNat_of_isDigit (h ch (by simp [hdigits]))
  have hne : ch.toNat ≠ '0'.toNat := by
    intro heq
    apply hhead
    rw [hdigits, List.head?_cons, Char.toNat_inj.mp heq]
  have hzero : '0'.toNat = 48 := rfl
  omega

/-- Both readings give the same for one digit at most. -/
theorem octal_eq_decimal_iff : ofDigitChars 8 (octal digits) 0 = ofDigitChars 10 digits 0 ↔
    digits = octal digits ∧ digits.length ≤ 1 := by
  constructor
  · intro heq
    cases hdigits : digits with
    | nil => exact ⟨rfl, Nat.zero_le _⟩
    | cons ch rest =>
      have hone := one_le_head h hhead hdigits
      rw [hdigits, octal, List.takeWhile_cons, ← octal] at heq
      by_cases hch : ch.toNat - 48 < 8
      · rw [if_pos (decide_eq_true hch), Nat.ofDigitChars_cons, Nat.ofDigitChars_cons] at heq
        cases rest with
        | nil =>
          rw [octal, List.takeWhile_cons, if_pos (decide_eq_true hch)]
          exact ⟨rfl, Nat.le_refl 1⟩
        | cons next rest =>
          have hlt := octal_lt hone next rest
          exact absurd heq (by simpa using Nat.ne_of_lt hlt)
      · rw [if_neg (by simpa using hch), Nat.ofDigitChars_cons, Nat.ofDigitChars_nil] at heq
        have hle : 10 * 0 + (ch.toNat - '0'.toNat) ≤ ofDigitChars 10 rest _ :=
          Strtoll.le_ofDigitChars (by decide)
        have hzero : '0'.toNat = 48 := rfl
        omega
  · intro ⟨hoctal, hlen⟩
    rw [← hoctal]
    cases hdigits : digits with
    | nil => rfl
    | cons ch rest =>
      rw [hdigits] at hlen
      rw [List.eq_nil_of_length_eq_zero (Nat.le_zero.mp (Nat.le_of_succ_le_succ hlen)),
        Nat.ofDigitChars_cons, Nat.ofDigitChars_cons]
      rfl

/-- Ten octal digits always fit in 32 bits, eleven where the first is below 4. -/
theorem passesU32_iff (hoctal : ∀ ch ∈ digits, ch.toNat - 48 < 8) :
    0xffffffff < ofDigitChars 8 digits 0 ↔ PassesU32 digits := by
  have hlt := Strtoll.ofDigitChars_lt hoctal
  cases hdigits : digits with
  | nil => simp [PassesU32]
  | cons ch rest =>
    have hone := one_le_head h hhead hdigits
    have hrest : ofDigitChars 8 rest 0 < 8 ^ rest.length :=
      Strtoll.ofDigitChars_lt fun c hc => hoctal c (by simp [hdigits, hc])
    have hvalue : ofDigitChars 8 digits 0 =
        8 ^ rest.length * (ch.toNat - 48) + ofDigitChars 8 rest 0 := by
      rw [hdigits, Nat.ofDigitChars_cons, Strtoll.ofDigitChars_init, Nat.mul_zero, Nat.zero_add]
      rfl
    have hfour : '4' ≤ ch ↔ 4 ≤ ch.toNat - 48 := by
      have hrange := Strtoll.toNat_of_isDigit (h ch (by simp [hdigits]))
      change '4'.toNat ≤ ch.toNat ↔ _
      have hchar : '4'.toNat = 52 := rfl
      omega
    have hpasses : PassesU32 (ch :: rest) ↔
        11 < rest.length + 1 ∨ rest.length + 1 = 11 ∧ 4 ≤ ch.toNat - 48 := by
      simp [PassesU32, hfour]
    rw [hpasses, ← hdigits, hvalue]
    rw [hvalue, hdigits, List.length_cons] at hlt
    rcases Nat.lt_trichotomy rest.length 10 with hshort | hten | hlong
    · have hpow : 8 ^ (rest.length + 1) ≤ 8 ^ 10 := Nat.pow_le_pow_right (by decide) hshort
      omega
    · rw [hten] at hrest ⊢
      omega
    · have hpow : 8 ^ 11 ≤ 8 ^ rest.length := Nat.pow_le_pow_right (by decide) hlong
      have hmul := Nat.le_mul_of_pos_right (8 ^ rest.length) hone
      omega

end

theorem head_significant (arg : List Char) : (significant arg).head? ≠ some '0' := by
  intro hhead
  have hnot := List.head?_dropWhile_not (fun ch => decide (ch = '0')) arg
  rw [← significant, hhead] at hnot
  cases hnot

theorem head_octal {digits : List Char} (hhead : digits.head? ≠ some '0') :
    (octal digits).head? ≠ some '0' := by
  cases digits with
  | nil => exact hhead
  | cons ch digits =>
    rw [octal, List.takeWhile_cons]
    split
    · exact hhead
    · intro hnone
      cases hnone

section
variable {errors : ParseErrors} {arg : List Char}

/-- What is to be read: with `0` for the decimal numbers of 32 bits, and then their value. -/
def DecimalResult (arg : List Char) (result : Int × Option UInt32) : Prop :=
  (result.1 = 0 ↔ IsDecimalU32 arg) ∧
  (IsDecimalU32 arg → result.2 = some (UInt32.ofNat (ofDigitChars 10 arg 0)))

/-- For a string of digits only the two values matter. -/
theorem decimalResult_digits (hne : arg ≠ []) (h : ∀ ch ∈ arg, ch.isDigit) (num : UInt32)
    (hle : baseZero arg ≤ ofDigitChars 10 arg 0) :
    DecimalResult arg (parseU32 errors (some arg) (some num)) ↔
      baseZero arg = ofDigitChars 10 arg 0 ∨ 0xffffffff < baseZero arg := by
  have hdecimal : IsDecimalU32 arg ↔ ofDigitChars 10 arg 0 ≤ 0xffffffff :=
    ⟨fun hdecimal => hdecimal.2.2, fun hsmall => ⟨hne, h, hsmall⟩⟩
  unfold DecimalResult
  rw [hdecimal, parseU32_digits h]
  by_cases hfits : baseZero arg ≤ 0xffffffff
  · rw [if_pos hfits]
    constructor
    · intro ⟨hiff, hvalue⟩
      have hsmall := hiff.mp rfl
      have hsame := congrArg UInt32.toNat (Option.some.inj (hvalue hsmall))
      have hsize : UInt32.size = 4294967296 := rfl
      rw [UInt32.toNat_ofNat_of_lt' (by omega), UInt32.toNat_ofNat_of_lt' (by omega)] at hsame
      exact Or.inl hsame
    · intro hcases
      rcases hcases with hsame | hlarge
      · rw [hsame] at hfits ⊢
        exact ⟨iff_of_true rfl hfits, fun _ => rfl⟩
      · omega
  · rw [if_neg hfits]
    apply iff_of_true
    · exact ⟨iff_of_false errors.u32Trans_ne (by omega), fun hsmall => absurd hsmall (by omega)⟩
    · exact Or.inr (by omega)

/-- A copy reads a string as a decimal number or refuses it, as it should, but for what a leading zero
and the empty string do. -/
theorem parseU32_decimal_iff (errors : ParseErrors) (arg : List Char) (num : UInt32) :
    DecimalResult arg (parseU32 errors (some arg) (some num)) ↔ ReadsDecimal arg := by
  by_cases h : ∀ ch ∈ arg, ch.isDigit
  · have hother : ¬ ∃ ch ∈ arg, ch.isDigit = false := by
      simpa using h
    rcases arg.eq_nil_or_concat' with rfl | ⟨_, _, hconcat⟩
    · apply iff_of_false
      · intro hresult
        exact absurd rfl (hresult.1.mp rfl).1
      · simp [ReadsDecimal]
    have hne : arg ≠ [] := by simp [hconcat]
    by_cases hzero : arg.head? = some '0'
    · have hvalue : baseZero arg = ofDigitChars 8 (octal (significant arg)) 0 := if_pos hzero
      have hdrop : ofDigitChars 10 (significant arg) 0 = ofDigitChars 10 arg 0 :=
        Strtoll.ofDigitChars_dropWhile 10 arg
      have hdigits : ∀ ch ∈ significant arg, ch.isDigit := fun ch hch =>
        h ch ((List.dropWhile_suffix _).subset hch)
      have hfirst : ∀ ch ∈ octal (significant arg), ch.isDigit := fun ch hch =>
        hdigits ch ((List.takeWhile_prefix _).subset hch)
      have hoctal : ∀ ch ∈ octal (significant arg), ch.toNat - 48 < 8 := by
        intro ch hch
        have htrue := List.mem_takeWhile_imp hch
        exact of_decide_eq_true htrue
      rw [decimalResult_digits hne h num (by rw [hvalue, ← hdrop]; exact octal_le _), hvalue,
        ← hdrop, octal_eq_decimal_iff hdigits (head_significant arg),
        passesU32_iff hfirst (head_octal (head_significant arg)) hoctal]
      simp only [ReadsDecimal, hother, hzero, hne, ne_eq, not_true_eq_false, and_false, false_or,
        true_and]
    · have hvalue : baseZero arg = ofDigitChars 10 arg 0 := if_neg hzero
      rw [decimalResult_digits hne h num (Nat.le_of_eq hvalue)]
      exact iff_of_true (Or.inl hvalue) (Or.inr (Or.inl ⟨hne, hzero⟩))
  · have hother : ∃ ch ∈ arg, ch.isDigit = false := by
      simpa using h
    have hdecimal : ¬ IsDecimalU32 arg := fun hdecimal => h hdecimal.2.1
    have hresult : parseU32 errors (some arg) (some num) = (errors.u32Trans, some num) :=
      if_pos (isalldigit_eq_iff.mpr hother)
    rw [hresult]
    apply iff_of_true
    · exact ⟨iff_of_false errors.u32Trans_ne hdecimal, fun hin => absurd hin hdecimal⟩
    · exact Or.inl hother

end

/-- A leading zero makes the tools read `010` as 8. -/
theorem parseU32_octal : ¬ ∀ arg : List Char,
    DecimalResult arg (parseU32 kernelTools (some arg) (some 0)) := by
  intro h
  have hresult := (h ['0', '1', '0']).2 ⟨by simp, List.all_eq_true.mp rfl, by decide⟩
  cases hresult

end MulticastProxy
