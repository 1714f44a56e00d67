import Mathlib.Tactic

/-!
# Updates replayed in another order

A copy that still has updates to make catches up with its original, also where an update overtakes
earlier ones, as long as it commutes with each of them.
-/

set_option autoImplicit false

namespace Replay

variable {σ κ : Type*} (eff : κ → σ → σ)

def Commute (c d : κ) : Prop := ∀ m, eff c (eff d m) = eff d (eff c m)

def replay (pending : List κ) (m : σ) : σ := pending.foldl (fun m c => eff c m) m

@[simp] theorem replay_nil (m : σ) : replay eff [] m = m := rfl

theorem replay_append (pending later : List κ) (m : σ) :
    replay eff (pending ++ later) m = replay eff later (replay eff pending m) :=
  List.foldl_append

theorem replay_write (pending : List κ) (c : κ) (m : σ) :
    replay eff (pending ++ [c]) m = eff c (replay eff pending m) := by
  rw [replay_append]
  rfl

variable {eff}

theorem replay_commute {before : List κ} {c : κ} (h : ∀ p ∈ before, Commute eff p c) (m : σ) :
    replay eff before (eff c m) = eff c (replay eff before m) := by
  induction before generalizing m with
  | nil => rfl
  | cons p before ih =>
    have hp : eff p (eff c m) = eff c (eff p m) := h p (by simp) m
    change replay eff before (eff p (eff c m)) = eff c (replay eff before (eff p m))
    rw [hp, ih (fun q hq => h q (by simp [hq]))]

theorem replay_deliver {before after : List κ} {c : κ} (h : ∀ p ∈ before, Commute eff p c) (m : σ) :
    replay eff (before ++ after) (eff c m) = replay eff (before ++ c :: after) m := by
  rw [replay_append, replay_append, replay_commute h]
  rfl

/-! ## Updates at one key -/

section Alter
variable {ι β : Type*} [DecidableEq ι]

/-- A map changed at one key. -/
def alter (k : ι) (f : β → β) (m : ι → β) : ι → β := Function.update m k (f (m k))

theorem alter_comm {k k' : ι} {f f' : β → β} (h : k = k' → ∀ v, f (f' v) = f' (f v))
    (m : ι → β) : alter k f (alter k' f' m) = alter k' f' (alter k f m) := by
  unfold alter
  by_cases hk : k = k'
  · subst hk
    rw [Function.update_self, Function.update_self, Function.update_idem, Function.update_idem,
      h rfl]
  · rw [Function.update_of_ne hk, Function.update_of_ne (Ne.symm hk)]
    exact Function.update_comm (Ne.symm hk) _ _ _

/-- One key, changed in two orders, shows whether the changes commute. -/
theorem alter_comm_self {k : ι} {f f' : β → β}
    (h : ∀ m : ι → β, alter k f (alter k f' m) = alter k f' (alter k f m)) (v : β) :
    f (f' v) = f' (f v) := by
  have hk := congrFun (h fun _ => v) k
  simpa only [alter, Function.update_self] using hk

end Alter

/-! ## Updates with a footprint -/

/-- Each update changes the keys it touches only, and each by its own value only. -/
structure Local {ι β : Type*} (touches : κ → ι → Prop) (eff : κ → (ι → β) → ι → β) : Prop where
  frame : ∀ c m k, ¬ touches c k → eff c m k = m k
  value : ∀ c m m' k, m k = m' k → eff c m k = eff c m' k

namespace Local

variable {ι β : Type*} {touches : κ → ι → Prop} {eff : κ → (ι → β) → ι → β}

theorem commute (h : Local touches eff) {c d : κ} (hapart : ¬ ∃ k, touches c k ∧ touches d k) :
    Commute eff c d := by
  intro m
  funext k
  by_cases hc : touches c k
  · have hd : ¬ touches d k := fun hd => hapart ⟨k, hc, hd⟩
    rw [h.value c (eff d m) m k (h.frame d m k hd), h.frame d (eff c m) k hd]
  · rw [h.frame c (eff d m) k hc, h.value d (eff c m) m k (h.frame c m k hc)]

theorem replay_untouched (h : Local touches eff) {pending : List κ} {k : ι}
    (hpending : ∀ c ∈ pending, ¬ touches c k) (m : ι → β) : replay eff pending m k = m k := by
  induction pending generalizing m with
  | nil => rfl
  | cons c pending ih =>
    have hrest := ih (fun d hd => hpending d (List.mem_cons_of_mem c hd)) (eff c m)
    exact hrest.trans (h.frame c m k (hpending c List.mem_cons_self))

end Local

end Replay
