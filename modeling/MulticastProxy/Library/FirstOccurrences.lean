import Mathlib.Tactic

/-!
# First occurrences

A list that grows by the elements it does not hold yet ends as the list it was and, behind it, the
first occurrence of each new element.
-/

set_option autoImplicit false

namespace FirstOccurrences

variable {α : Type*} [DecidableEq α]

/-- One more element, where the list does not hold it. -/
def add (old : List α) (x : α) : List α := if x ∉ old then old ++ [x] else old

/-- The first occurrences in `added` of what `old` does not hold. -/
def fresh (old added : List α) : List α := (added.filter (· ∉ old)).eraseDups

theorem fresh_nil (old : List α) : fresh old [] = [] := rfl

theorem fresh_of_nil (added : List α) : fresh [] added = added.eraseDups := by
  simp [fresh]

theorem eraseDups_of_nodup {l : List α} (h : l.Nodup) : l.eraseDups = l := by
  induction l with
  | nil => rfl
  | cons x l ih =>
    obtain ⟨hx, hl⟩ := List.nodup_cons.mp h
    have hkeep : l.filter (fun y => !y == x) = l := by
      apply List.filter_eq_self.mpr
      intro y hy
      have hne : y ≠ x := fun heq => hx (heq ▸ hy)
      simp [hne]
    rw [List.eraseDups_cons, hkeep, ih hl]

theorem fresh_cons_mem {old : List α} {x : α} (h : x ∈ old) (added : List α) :
    fresh old (x :: added) = fresh old added := by
  simp [fresh, h]

theorem fresh_cons {old : List α} {x : α} (h : x ∉ old) (added : List α) :
    fresh old (x :: added) = x :: fresh (old ++ [x]) added := by
  have hnew : (x :: added).filter (· ∉ old) = x :: added.filter (· ∉ old) :=
    List.filter_cons_of_pos (decide_eq_true h)
  rw [fresh, hnew, List.eraseDups_cons, List.filter_filter, fresh]
  congr 2
  apply List.filter_congr
  intro y _
  rw [Bool.eq_iff_iff]
  simp [and_comm]

theorem foldl_add (old added : List α) : added.foldl add old = old ++ fresh old added := by
  induction added generalizing old with
  | nil => rw [List.foldl_nil, fresh_nil, List.append_nil]
  | cons x added ih =>
    rw [List.foldl_cons, ih, add]
    by_cases hold : x ∈ old
    · rw [if_neg (not_not_intro hold), fresh_cons_mem hold]
    · rw [if_pos hold, fresh_cons hold, List.append_assoc, List.singleton_append]

/-! ## With a bound on the list -/

/-- One more element, where the list does not hold it and has room. -/
def addUpTo (max : Nat) (old : List α) (x : α) : List α :=
  if x ∈ old ∨ max ≤ old.length then old else old ++ [x]

theorem foldl_addUpTo {max : Nat} {old : List α} (hold : old.length ≤ max) (added : List α) :
    added.foldl (addUpTo max) old = (old ++ fresh old added).take max := by
  induction added generalizing old with
  | nil => rw [List.foldl_nil, fresh_nil, List.append_nil, List.take_of_length_le hold]
  | cons x added ih =>
    rw [List.foldl_cons, addUpTo]
    by_cases hx : x ∈ old
    · rw [if_pos (Or.inl hx), ih hold, fresh_cons_mem hx]
    · rcases Nat.lt_or_ge old.length max with hroom | hfull
      · rw [if_neg (not_or.mpr ⟨hx, Nat.not_le.mpr hroom⟩), ih, fresh_cons hx, List.append_assoc,
          List.singleton_append]
        rw [List.length_append, List.length_singleton]
        exact hroom
      · have hlength := Nat.le_antisymm hold hfull
        rw [if_pos (Or.inr hfull), ih hold, List.take_left' hlength, List.take_left' hlength]

theorem nodup_eraseDups (l : List α) : l.eraseDups.Nodup := by
  induction h : l.length using Nat.strong_induction_on generalizing l with
  | _ n ih =>
    cases l with
    | nil => exact List.nodup_nil
    | cons x l =>
      rw [List.eraseDups_cons, List.nodup_cons]
      constructor
      · rw [List.mem_eraseDups]
        simp
      · apply ih _ _ _ rfl
        rw [← h, List.length_cons]
        exact Nat.lt_succ_of_le (List.length_filter_le _ _)

end FirstOccurrences
