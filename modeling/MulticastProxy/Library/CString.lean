import Mathlib.Tactic
import MulticastProxy.Library.Outcome

/-!
# Strings in memory

A string in memory ends at its first zero byte, and `strncpy` writes none where its source is as long
as the count. `sprintf` into an array of fixed size goes on behind the text that is there already;
the zero byte takes one more cell, and a store behind the array is a fault.
-/

set_option autoImplicit false

namespace CString

abbrev nul : Char := Char.ofNat 0

def strncpy (m : Nat → Char) (dst : Nat) (src : List Char) (n : Nat) : Nat → Char := fun a =>
  if dst ≤ a ∧ a < dst + n then (src[a - dst]?).getD nul else m a

/-- The string at `a`. -/
structure At (m : Nat → Char) (a : Nat) (s : List Char) : Prop where
  chars : ∀ i (h : i < s.length), m (a + i) = s[i]
  zero : m (a + s.length) = nul

variable {m : Nat → Char} {dst : Nat} {src : List Char} {n : Nat}

theorem strncpy_of_disjoint {a : Nat} (h : a < dst ∨ dst + n ≤ a) :
    strncpy m dst src n a = m a := if_neg (by omega)

theorem strncpy_char {i : Nat} (hi : i < n) (h : i < src.length) :
    strncpy m dst src n (dst + i) = src[i] := by
  rw [strncpy, if_pos (by omega), Nat.add_sub_cancel_left, List.getElem?_eq_getElem h,
    Option.getD_some]

end CString

namespace CharBuffer

def sprintf (size : Nat) (buf text : List Char) : Outcome (List Char) :=
  if buf.length + text.length < size then .ret (buf ++ text) else .fault

section
variable {size : Nat} {buf text : List Char}

theorem sprintf_of_lt (h : buf.length + text.length < size) :
    sprintf size buf text = .ret (buf ++ text) := if_pos h

theorem sprintf_of_le (h : size ≤ buf.length + text.length) : sprintf size buf text = .fault :=
  if_neg (by omega)

end

/-- A sequence of calls succeeds exactly where the whole text fits. -/
theorem foldlM_sprintf {α : Type} (size : Nat) (f : α → List Char) (xs : List α)
    {buf : List Char} (hbuf : buf.length < size) :
    xs.foldlM (fun buf x => sprintf size buf (f x)) buf =
      if buf.length + (xs.flatMap f).length < size then .ret (buf ++ xs.flatMap f) else .fault := by
  induction xs generalizing buf with
  | nil => simp [hbuf]
  | cons x xs ih =>
    rw [List.foldlM_cons, List.flatMap_cons]
    by_cases hx : buf.length + (f x).length < size
    · rw [sprintf_of_lt hx, Outcome.ret_bind, ih (by rwa [List.length_append]), List.length_append,
        List.length_append, List.append_assoc, Nat.add_assoc]
    · rw [sprintf_of_le (by omega), Outcome.fault_bind, if_neg]
      rw [List.length_append]
      omega

end CharBuffer
