import MulticastProxy.Library.Outcome

/-!
# Runs that note what they touch

A run over a buffer together with the accesses that it makes, up to its end. Whether all of them
are allowed is decided part by part.
-/

set_option autoImplicit false

/-- The accesses of a run, and how it ends. -/
structure Logged (τ α : Type) where
  log : List τ
  outcome : Outcome α

namespace Logged

variable {τ α β : Type}

/-- The rest of a run is made where the first part returns. -/
protected def bind (x : Logged τ α) (f : α → Logged τ β) : Logged τ β :=
  match x.outcome with
  | .ret a => ⟨x.log ++ (f a).log, (f a).outcome⟩
  | .hang => ⟨x.log, .hang⟩
  | .fault => ⟨x.log, .fault⟩

instance : Monad (Logged τ) where
  pure a := ⟨[], .ret a⟩
  bind := Logged.bind

/-- An access that gives `a`. -/
def touch (t : τ) (a : α) : Logged τ α := ⟨[t], .ret a⟩

/-- Accesses that give nothing the rest depends on. -/
def note (ts : List τ) : Logged τ Unit := ⟨ts, .ret ()⟩

/-- A part of the run that has nothing to do with the buffer. -/
def lift (x : Outcome α) : Logged τ α := ⟨[], x⟩

@[simp] theorem outcome_pure (a : α) : (pure a : Logged τ α).outcome = .ret a := rfl
@[simp] theorem outcome_touch (t : τ) (a : α) : (touch t a).outcome = .ret a := rfl
@[simp] theorem outcome_note (ts : List τ) : (note ts : Logged τ Unit).outcome = .ret () := rfl
@[simp] theorem outcome_lift (x : Outcome α) : (lift x : Logged τ α).outcome = x := rfl

@[simp] theorem outcome_bind (x : Logged τ α) (f : α → Logged τ β) :
    (x >>= f).outcome = x.outcome >>= fun a => (f a).outcome := by
  change (Logged.bind x f).outcome = _
  unfold Logged.bind
  cases x.outcome <;> rfl

@[simp] theorem log_pure (a : α) : (pure a : Logged τ α).log = [] := rfl
@[simp] theorem log_lift (x : Outcome α) : (lift x : Logged τ α).log = [] := rfl

theorem log_bind_ret {x : Logged τ α} {f : α → Logged τ β} {a : α} (h : x.outcome = .ret a) :
    (x >>= f).log = x.log ++ (f a).log := by
  change (Logged.bind x f).log = _
  unfold Logged.bind
  rw [h]

@[simp] theorem log_note_bind (ts : List τ) (f : Unit → Logged τ β) :
    (note ts >>= f).log = ts ++ (f ()).log := log_bind_ret rfl

/-- Nothing is noted behind the last access. -/
theorem log_bind_pure (x : Logged τ α) (f : α → β) : (x >>= fun a => pure (f a)).log = x.log := by
  change (Logged.bind x _).log = _
  unfold Logged.bind
  cases x.outcome with
  | ret a => exact List.append_nil _
  | hang => rfl
  | fault => rfl

/-- Every access of the run is allowed. -/
def Within (P : τ → Prop) (x : Logged τ α) : Prop := ∀ t ∈ x.log, P t

variable {P : τ → Prop}

@[simp] theorem within_pure (a : α) : Within P (pure a : Logged τ α) := by
  intro t ht
  cases ht

@[simp] theorem within_lift (x : Outcome α) : Within P (lift x : Logged τ α) := by
  intro t ht
  cases ht

@[simp] theorem within_touch {t : τ} {a : α} : Within P (touch t a) ↔ P t := by
  simp [Within, touch]

theorem within_bind {x : Logged τ α} {f : α → Logged τ β} :
    Within P (x >>= f) ↔ Within P x ∧ ∀ a, x.outcome = .ret a → Within P (f a) := by
  change Within P (Logged.bind x f) ↔ _
  unfold Logged.bind Within
  cases x.outcome with
  | ret a =>
    simp only [List.mem_append, Outcome.ret.injEq]
    constructor
    · intro h
      refine ⟨fun t ht => h t (Or.inl ht), ?_⟩
      rintro _ rfl t ht
      exact h t (Or.inr ht)
    · rintro ⟨hx, hf⟩ t (ht | ht)
      · exact hx t ht
      · exact hf a rfl t ht
  | hang => simp
  | fault => simp

/-- An access first, the rest with what it gives. -/
@[simp] theorem within_touch_bind {t : τ} {a : α} {f : α → Logged τ β} :
    Within P (touch t a >>= f) ↔ P t ∧ Within P (f a) := by
  simp [within_bind]

/-- A part that returns whatever happens takes nothing away from the rest. -/
@[simp] theorem within_lift_bind {x : Outcome α} {f : α → Logged τ β} :
    Within P (lift x >>= f) ↔ ∀ a, x = .ret a → Within P (f a) := by
  simp [within_bind]

end Logged
