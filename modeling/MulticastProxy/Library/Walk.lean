import Mathlib.Tactic
import Mathlib.Order.WellFounded
import Mathlib.Data.Fintype.Pigeonhole
import Mathlib.Logic.Relation

/-!
# Infinite walks in a relation

On a finite type a relation has an infinite walk exactly where it has a cycle.
-/

set_option autoImplicit false

namespace Walk

open Relation

variable {α : Type*} {R : α → α → Prop}

def IsWalk (R : α → α → Prop) (w : Nat → α) : Prop := ∀ n, R (w n) (w (n + 1))

theorem IsWalk.transGen {w : Nat → α} (hw : IsWalk R w) {i j : Nat} (h : i < j) :
    TransGen R (w i) (w j) := by
  induction j with
  | zero => omega
  | succ j ih =>
    rcases Nat.lt_succ_iff_lt_or_eq.mp h with hlt | rfl
    · exact (ih hlt).tail (hw j)
    · exact .single (hw i)

theorem IsWalk.exists_cycle [Finite α] {w : Nat → α} (hw : IsWalk R w) :
    ∃ i, TransGen R (w i) (w i) := by
  obtain ⟨i, j, hne, he⟩ := Finite.exists_ne_map_eq_of_infinite w
  rcases Nat.lt_or_gt_of_ne hne with hlt | hlt
  · have h := hw.transGen hlt
    rw [← he] at h
    exact ⟨i, h⟩
  · have h := hw.transGen hlt
    rw [he] at h
    exact ⟨j, h⟩

theorem exists_walk_of_cycle {a : α} (h : TransGen R a a) : ∃ w, w 0 = a ∧ IsWalk R w := by
  have hswap : TransGen (Function.swap R) a a := transGen_swap.mpr h
  have hacc : ¬ Acc (TransGen (Function.swap R)) a :=
    not_acc_iff_exists_descending_chain.mpr ⟨fun _ => a, rfl, fun _ => hswap⟩
  exact not_acc_iff_exists_descending_chain.mp fun hR => hacc hR.transGen

end Walk
