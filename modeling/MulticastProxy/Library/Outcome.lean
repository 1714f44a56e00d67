import Mathlib.Tactic

/-!
# Outcomes of a call

A C function returns, runs for ever, or does something the language leaves
undefined (here: an access outside an array, a division by zero).
-/

set_option autoImplicit false

inductive Outcome (α : Type) where
  | ret (a : α)
  | hang
  | fault
  deriving DecidableEq, Repr

namespace Outcome

variable {α β : Type}

protected def bind (x : Outcome α) (f : α → Outcome β) : Outcome β :=
  match x with
  | ret a => f a
  | hang => hang
  | fault => fault

instance : Monad Outcome where
  pure := ret
  bind := Outcome.bind

@[simp] theorem ret_bind (a : α) (f : α → Outcome β) : (ret a >>= f) = f a := rfl
@[simp] theorem hang_bind (f : α → Outcome β) : (hang >>= f) = hang := rfl
@[simp] theorem fault_bind (f : α → Outcome β) : (fault >>= f) = fault := rfl
@[simp] theorem pure_eq (a : α) : (pure a : Outcome α) = ret a := rfl

instance : LawfulMonad Outcome :=
  LawfulMonad.mk' Outcome (fun x => by cases x <;> rfl) (fun _ _ => rfl)
    (fun x _ _ => by cases x <;> rfl)

theorem bind_eq_ret_iff {x : Outcome α} {f : α → Outcome β} {b : β} :
    (x >>= f) = ret b ↔ ∃ a, x = ret a ∧ f a = ret b := by
  cases x <;> simp

end Outcome
