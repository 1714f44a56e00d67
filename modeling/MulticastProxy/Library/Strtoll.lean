import Mathlib.Data.List.TakeWhile
import Mathlib.Tactic

/-!
# `strtoll` with base 0

What ISO C says of `strtoll(text, NULL, 0)`: blanks, a sign, the prefix that gives the base, and the
digits of that base up to the first character that is none. A value that does not fit saturates.
-/

set_option autoImplicit false

namespace Strtoll

def isSpace (ch : Char) : Bool := ch = ' ' ∨ 9 ≤ ch.toNat ∧ ch.toNat ≤ 13

def digitOf (ch : Char) : Option Nat :=
  if ch.isDigit then some (ch.toNat - '0'.toNat)
  else if 'a' ≤ ch ∧ ch ≤ 'z' then some (ch.toNat - 'a'.toNat + 10)
  else if 'A' ≤ ch ∧ ch ≤ 'Z' then some (ch.toNat - 'A'.toNat + 10)
  else none

/-- The number that `text` starts with, behind digits of the value `value`. -/
def scan (base : Nat) (value : Nat) : List Char → Nat
  | [] => value
  | ch :: text =>
    match digitOf ch with
    | none => value
    | some digit => if digit < base then scan base (base * value + digit) text else value

def sign : List Char → Bool × List Char
  | '-' :: text => (true, text)
  | '+' :: text => (false, text)
  | text => (false, text)

def basePrefix (text : List Char) : Nat × List Char :=
  match text with
  | '0' :: x :: ch :: rest =>
    if (x = 'x' ∨ x = 'X') ∧ (digitOf ch).any (· < 16) then (16, ch :: rest) else (8, text)
  | '0' :: _ => (8, text)
  | _ => (10, text)

def strtoll (text : List Char) : Int :=
  let (negative, text) := sign (text.dropWhile isSpace)
  let (base, text) := basePrefix text
  let value : Int := scan base 0 text
  if negative then max (-2 ^ 63) (-value) else min (2 ^ 63 - 1) value

/-! ## Numbers -/

open Nat (ofDigitChars)

variable {b init : Nat} {digits : List Char}

theorem toNat_of_isDigit {ch : Char} (h : ch.isDigit) : 48 ≤ ch.toNat ∧ ch.toNat ≤ 57 := by
  simp only [Char.isDigit, Bool.and_eq_true, decide_eq_true_eq, ge_iff_le,
    UInt32.le_iff_toNat_le] at h
  exact h

theorem ofDigitChars_init (b init : Nat) (digits : List Char) :
    ofDigitChars b digits init = b ^ digits.length * init + ofDigitChars b digits 0 := by
  induction digits generalizing init with
  | nil => simp
  | cons ch digits ih =>
    rw [Nat.ofDigitChars_cons, Nat.ofDigitChars_cons, ih, ih (b * 0 + _), List.length_cons]
    ring

theorem le_ofDigitChars (hb : 0 < b) : init ≤ ofDigitChars b digits init := by
  rw [ofDigitChars_init]
  have hpos : 0 < b ^ digits.length := Nat.pow_pos hb
  exact Nat.le_add_right_of_le (Nat.le_mul_of_pos_left init hpos)

theorem ofDigitChars_lt (h : ∀ ch ∈ digits, ch.toNat - 48 < b) :
    ofDigitChars b digits 0 < b ^ digits.length := by
  induction digits with
  | nil => exact Nat.one_pos
  | cons ch digits ih =>
    have hrest := ih fun c hc => h c (List.mem_cons_of_mem _ hc)
    have hdigit : ch.toNat - 48 + 1 ≤ b := h ch List.mem_cons_self
    rw [Nat.ofDigitChars_cons, ofDigitChars_init]
    calc
      b ^ digits.length * (b * 0 + (ch.toNat - 48)) + ofDigitChars b digits 0
          < b ^ digits.length * (b * 0 + (ch.toNat - 48)) + b ^ digits.length := by omega
      _ = b ^ digits.length * (ch.toNat - 48 + 1) := by ring
      _ ≤ b ^ digits.length * b := Nat.mul_le_mul_left _ hdigit
      _ = b ^ (ch :: digits).length := by rw [List.length_cons, Nat.pow_succ]

/-- Zeros in front do not count. -/
theorem ofDigitChars_dropWhile (b : Nat) (digits : List Char) :
    ofDigitChars b (digits.dropWhile (· = '0')) 0 = ofDigitChars b digits 0 := by
  induction digits with
  | nil => rfl
  | cons ch digits ih =>
    by_cases hzero : ch = '0'
    · rw [List.dropWhile_cons, if_pos (decide_eq_true hzero), ih, hzero, Nat.ofDigitChars_cons]
      rfl
    · rw [List.dropWhile_cons, if_neg (by simpa using hzero)]

/-! ## Strings of digits -/

theorem scan_eq {text : List Char} (h : ∀ ch ∈ text, ch.isDigit)
    (base value : Nat) : scan base value text =
      ofDigitChars base (text.takeWhile fun ch => ch.toNat - 48 < base) value := by
  induction text generalizing value with
  | nil => rfl
  | cons ch text ih =>
    have hdigit : digitOf ch = some (ch.toNat - 48) := if_pos (h ch List.mem_cons_self)
    rw [scan, hdigit]
    by_cases hlt : ch.toNat - 48 < base
    · rw [List.takeWhile_cons, if_pos (decide_eq_true hlt), Nat.ofDigitChars_cons]
      exact (if_pos hlt).trans (ih (fun c hc => h c (List.mem_cons_of_mem _ hc)) _)
    · rw [List.takeWhile_cons, if_neg (by simpa using hlt)]
      exact if_neg hlt

theorem takeWhile_ten {text : List Char} (h : ∀ ch ∈ text, ch.isDigit) :
    text.takeWhile (fun ch => ch.toNat - 48 < 10) = text := by
  rw [List.takeWhile_eq_self_iff]
  intro ch hch
  have hrange := toNat_of_isDigit (h ch hch)
  exact decide_eq_true (by omega)

theorem dropWhile_isSpace {text : List Char} (h : ∀ ch ∈ text, ch.isDigit) :
    text.dropWhile isSpace = text := by
  cases text with
  | nil => rfl
  | cons ch text =>
    have hrange := toNat_of_isDigit (h ch List.mem_cons_self)
    apply List.dropWhile_cons_of_neg
    intro hspace
    rcases of_decide_eq_true hspace with rfl | hblank
    · exact absurd hrange (by decide)
    · omega

theorem sign_digits {text : List Char} (h : ∀ ch ∈ text, ch.isDigit) :
    sign text = (false, text) := by
  unfold sign
  split
  · exact absurd (h _ List.mem_cons_self) (by decide)
  · exact absurd (h _ List.mem_cons_self) (by decide)
  · rfl

theorem basePrefix_digits {text : List Char} (h : ∀ ch ∈ text, ch.isDigit) :
    basePrefix text = (if text.head? = some '0' then 8 else 10, text) := by
  unfold basePrefix
  split
  · rename_i x ch rest
    have hx : ¬ (x = 'x' ∨ x = 'X') := by
      intro hx
      have hdigit := h x (by simp)
      rcases hx with rfl | rfl
      · exact absurd hdigit (by decide)
      · exact absurd hdigit (by decide)
    rw [if_neg (fun hboth => hx hboth.1)]
    rfl
  · rfl
  · rename_i hne
    have hhead : text.head? ≠ some '0' := by
      intro hhead
      obtain ⟨rest, rfl⟩ := List.head?_eq_some_iff.mp hhead
      exact hne rest rfl
    rw [if_neg hhead]

/-- A string of digits is octal where it starts with `0`. -/
theorem strtoll_digits {text : List Char} (h : ∀ ch ∈ text, ch.isDigit) :
    strtoll text = min (2 ^ 63 - 1) (if text.head? = some '0'
      then (ofDigitChars 8 (text.takeWhile fun ch => ch.toNat - 48 < 8) 0 : Int)
      else ofDigitChars 10 text 0) := by
  unfold strtoll
  rw [dropWhile_isSpace h, sign_digits h]
  simp only
  rw [basePrefix_digits h]
  by_cases hzero : text.head? = some '0'
  · rw [if_pos hzero, if_pos hzero, ← scan_eq h]
    rfl
  · rw [if_neg hzero, if_neg hzero]
    simp only
    rw [scan_eq h, takeWhile_ten h]
    rfl

/-- A reading to a smaller base that stops early is never above the other one, and no closer to it
than where both start. -/
theorem takeWhile_ofDigitChars_le {c i j : Nat} (hb : 0 < b) (hbc : b ≤ c) (hij : i ≤ j)
    (p : Char → Bool) :
    ofDigitChars b (digits.takeWhile p) i + (j - i) ≤ ofDigitChars c digits j := by
  induction digits generalizing i j with
  | nil =>
    rw [List.takeWhile_nil, Nat.ofDigitChars_nil, Nat.ofDigitChars_nil]
    omega
  | cons ch digits ih =>
    by_cases hch : p ch
    · rw [List.takeWhile_cons_of_pos hch, Nat.ofDigitChars_cons, Nat.ofDigitChars_cons]
      have hstart : b * i + (j - i) ≤ c * j := by
        calc
          b * i + (j - i) ≤ b * i + b * (j - i) := by
            have hle := Nat.le_mul_of_pos_left (j - i) hb
            omega
          _ = b * j := by rw [← Nat.mul_add, Nat.add_sub_cancel' hij]
          _ ≤ c * j := Nat.mul_le_mul_right j hbc
      have hrest := ih (i := b * i + (ch.toNat - '0'.toNat))
        (j := c * j + (ch.toNat - '0'.toNat)) (by omega)
      omega
    · rw [List.takeWhile_cons_of_neg hch, Nat.ofDigitChars_nil]
      have hle : j ≤ ofDigitChars c (ch :: digits) j := le_ofDigitChars (Nat.lt_of_lt_of_le hb hbc)
      omega

end Strtoll
