import Mathlib.Tactic

/-!
# Runs of a step function

`next s a` is the state after action `a`, `none` where `a` cannot happen. A run is the list of its
actions. A property of all states of a run is compared with a condition on each of its steps.
-/

set_option autoImplicit false

namespace Trace

variable {σ α : Type*} (next : σ → α → Option σ)

/-- The state after the whole run. -/
def exec : σ → List α → Option σ
  | s, [] => some s
  | s, a :: as => (next s a).bind fun s' => exec s' as

/-- `P` holds at the start and after each step that happens. -/
def Throughout (P : σ → Prop) : σ → List α → Prop
  | s, [] => P s
  | s, a :: as => P s ∧ ∀ s', next s a = some s' → Throughout P s' as

/-- `C` holds of each step that happens. -/
def EachStep (C : σ → α → Prop) : σ → List α → Prop
  | _, [] => True
  | s, a :: as => ∀ s', next s a = some s' → C s a ∧ EachStep C s' as

/-- `C` holds of each step that is tried, whether it happens or not. -/
def EachAttempt (C : σ → α → Prop) : σ → List α → Prop
  | _, [] => True
  | s, a :: as => C s a ∧ ∀ s', next s a = some s' → EachAttempt C s' as

/-- What the steps that are tried note, in order. -/
def noted {β : Type*} (f : σ → α → List β) : σ → List α → List β
  | _, [] => []
  | s, a :: as => f s a ++ (next s a).elim [] fun s' => noted f s' as

variable {next}

@[simp] theorem exec_nil (s : σ) : exec next s [] = some s := rfl

theorem exec_cons {s s' : σ} {a : α} (h : next s a = some s') (as : List α) :
    exec next s (a :: as) = exec next s' as := by
  rw [exec, h]
  rfl

theorem exec_append {s s' : σ} {as : List α} (bs : List α) (h : exec next s as = some s') :
    exec next s (as ++ bs) = exec next s' bs := by
  induction as generalizing s with
  | nil =>
    obtain rfl := Option.some.inj h
    rfl
  | cons a as ih =>
    obtain ⟨t, hnext, ht⟩ := Option.bind_eq_some_iff.mp h
    rw [List.cons_append, exec_cons hnext]
    exact ih ht

/-- A property that every step keeps. -/
theorem invariant_of_exec {I : σ → Prop} (hstep : ∀ s a s', I s → next s a = some s' → I s')
    {s t : σ} {as : List α} (hs : I s) (hexec : exec next s as = some t) : I t := by
  induction as generalizing s with
  | nil =>
    obtain rfl := Option.some.inj hexec
    exact hs
  | cons a as ih =>
    obtain ⟨u, hu, hrest⟩ := Option.bind_eq_some_iff.mp hexec
    exact ih (hstep s a u hs hu) hrest

/-- A potential that each step raises by no more than it notes of `b`. -/
theorem potential_le_of_exec {β : Type*} [DecidableEq β] {I : σ → Prop} (φ : σ → Nat)
    {f : σ → α → List β} {b : β}
    (hstep : ∀ s a s', I s → next s a = some s' → I s' ∧ φ s' ≤ φ s + (f s a).count b)
    {s t : σ} {as : List α} (hs : I s) (hexec : exec next s as = some t) :
    φ t ≤ φ s + (noted next f s as).count b := by
  induction as generalizing s with
  | nil =>
    obtain rfl := Option.some.inj hexec
    exact Nat.le_add_right _ _
  | cons a as ih =>
    obtain ⟨u, hu, hrest⟩ := Option.bind_eq_some_iff.mp hexec
    obtain ⟨hinv, hle⟩ := hstep s a u hs hu
    have hrun := ih hinv hrest
    rw [noted, hu, List.count_append, Option.elim_some]
    omega

theorem Throughout.start {P : σ → Prop} {s : σ} {as : List α} (h : Throughout next P s as) :
    P s := by
  cases as with
  | nil => exact h
  | cons a as => exact h.1

theorem Throughout.append {P : σ → Prop} {s t : σ} {as bs : List α}
    (h : Throughout next P s as) (hexec : exec next s as = some t)
    (h' : Throughout next P t bs) : Throughout next P s (as ++ bs) := by
  induction as generalizing s with
  | nil =>
    obtain rfl := Option.some.inj hexec
    exact h'
  | cons a as ih =>
    refine ⟨h.1, fun u hu => ih (h.2 u hu) ?_⟩
    rwa [exec_cons hu] at hexec

theorem Throughout.of_exec {P : σ → Prop} {s s' : σ} {as : List α} (h : Throughout next P s as)
    (hexec : exec next s as = some s') : P s' := by
  induction as generalizing s with
  | nil =>
    obtain rfl := Option.some.inj hexec
    exact h
  | cons a as ih =>
    obtain ⟨t, hnext, ht⟩ := Option.bind_eq_some_iff.mp hexec
    exact ih (h.2 t hnext) ht

theorem EachStep.of_exec {C : σ → α → Prop} {s t t' : σ} {as bs : List α} {a : α}
    (h : EachStep next C s (as ++ a :: bs)) (hexec : exec next s as = some t)
    (hnext : next t a = some t') : C t a := by
  induction as generalizing s with
  | nil =>
    obtain rfl := Option.some.inj hexec
    exact (h t' hnext).1
  | cons b as ih =>
    obtain ⟨u, hu, hrest⟩ := Option.bind_eq_some_iff.mp hexec
    exact ih (h u hu).2 hrest

section
variable {I P : σ → Prop} {C : σ → α → Prop} (hP : ∀ s, I s → P s)
variable (hgood : ∀ s a s', I s → next s a = some s' → C s a → I s')
include hP hgood

/-- Steps under the condition keep the invariant. -/
theorem throughout_of_eachStep {s : σ} (hs : I s) {as : List α} (h : EachStep next C s as) :
    Throughout next P s as := by
  induction as generalizing s with
  | nil => exact hP s hs
  | cons a as ih =>
    refine ⟨hP s hs, fun s' hnext => ?_⟩
    obtain ⟨hC, hrest⟩ := h s' hnext
    exact ih (hgood s a s' hs hnext hC) hrest

/-- Where in addition every step that breaks the condition breaks the property, the two are the
same. -/
theorem throughout_iff_eachStep
    (hbad : ∀ s a s', I s → next s a = some s' → ¬ C s a → ¬ P s') {s : σ} (hs : I s)
    (as : List α) : Throughout next P s as ↔ EachStep next C s as := by
  constructor
  · intro h
    induction as generalizing s with
    | nil => trivial
    | cons a as ih =>
      intro s' hnext
      have hrest := h.2 s' hnext
      have hC : C s a := by
        by_contra hC
        cases as with
        | nil => exact hbad s a s' hs hnext hC hrest
        | cons b bs => exact hbad s a s' hs hnext hC hrest.1
      exact ⟨hC, ih (hgood s a s' hs hnext hC) hrest⟩
  · exact throughout_of_eachStep hP hgood hs

end

section
variable {I M L : σ → Prop} {C : σ → α → Prop}
variable (hgood : ∀ s a s', I s → L s' → next s a = some s' → C s a → I s')
variable (hbad : ∀ s a s', I s → L s' → next s a = some s' → ¬ C s a → M s')
variable (hstay : ∀ s a s', M s → L s' → next s a = some s' → M s')

include hstay in
theorem stays_of_exec {s t : σ} {as : List α} (hs : M s) (hL : Throughout next L s as)
    (hexec : exec next s as = some t) : M t := by
  induction as generalizing s with
  | nil =>
    obtain rfl := Option.some.inj hexec
    exact hs
  | cons a as ih =>
    obtain ⟨u, hu, hrest⟩ := Option.bind_eq_some_iff.mp hexec
    exact ih (hstay s a u hs (hL.2 u hu).start hu) (hL.2 u hu) hrest

include hgood hbad hstay in
/-- The first step that breaks the condition leads where no step leads back. -/
theorem exec_cases {s t : σ} {as : List α} (hs : I s) (hL : Throughout next L s as)
    (hexec : exec next s as = some t) :
    EachStep next C s as ∧ I t ∨ ¬ EachStep next C s as ∧ M t := by
  induction as generalizing s with
  | nil =>
    obtain rfl := Option.some.inj hexec
    exact Or.inl ⟨trivial, hs⟩
  | cons a as ih =>
    obtain ⟨u, hu, hrest⟩ := Option.bind_eq_some_iff.mp hexec
    have hLu := hL.2 u hu
    by_cases hC : C s a
    · rcases ih (hgood s a u hs hLu.start hu hC) hLu hrest with ⟨heach, hI⟩ | ⟨heach, hM⟩
      · refine Or.inl ⟨fun s' hs' => ⟨hC, ?_⟩, hI⟩
        obtain rfl := Option.some.inj (hu.symm.trans hs')
        exact heach
      · exact Or.inr ⟨fun h => heach (h u hu).2, hM⟩
    · have hMu := hbad s a u hs hLu.start hu hC
      exact Or.inr ⟨fun h => hC (h u hu).1, stays_of_exec hstay hMu hLu hrest⟩

end

/-- Two conditions that agree where the invariant holds, and keep it, hold of the same runs. -/
theorem eachStep_congr {I : σ → Prop} {C D : σ → α → Prop}
    (hstep : ∀ s a s', I s → next s a = some s' → C s a → I s')
    (h : ∀ s a s', I s → next s a = some s' → (C s a ↔ D s a)) {s : σ} (hs : I s) (as : List α) :
    EachStep next C s as ↔ EachStep next D s as := by
  induction as generalizing s with
  | nil => rfl
  | cons a as ih =>
    apply forall_congr'
    intro s'
    apply imp_congr_right
    intro hnext
    rw [← h s a s' hs hnext]
    exact and_congr_right fun hC => ih (hstep s a s' hs hnext hC)

/-- The same for the steps tried, where a step under the condition keeps the invariant. -/
theorem eachAttempt_congr {I : σ → Prop} {C D : σ → α → Prop}
    (hstep : ∀ s a s', I s → next s a = some s' → C s a → I s')
    (h : ∀ s a, I s → (C s a ↔ D s a)) {s : σ} (hs : I s) (as : List α) :
    EachAttempt next C s as ↔ EachAttempt next D s as := by
  induction as generalizing s with
  | nil => rfl
  | cons a as ih =>
    rw [EachAttempt, EachAttempt, ← h s a hs]
    refine and_congr_right fun hC => forall_congr' fun s' => imp_congr_right fun hnext => ?_
    exact ih (hstep s a s' hs hnext hC)

theorem EachAttempt.of_exec {C : σ → α → Prop} {s t : σ} {as bs : List α} {a : α}
    (h : EachAttempt next C s (as ++ a :: bs)) (hexec : exec next s as = some t) : C t a := by
  induction as generalizing s with
  | nil =>
    obtain rfl := Option.some.inj hexec
    exact h.1
  | cons b as ih =>
    obtain ⟨u, hu, hrest⟩ := Option.bind_eq_some_iff.mp hexec
    exact ih (h.2 u hu) hrest

end Trace
