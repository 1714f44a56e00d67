import Mathlib.Logic.Function.Basic
import Mathlib.Logic.Relation

/-!
# Critical sections on one file

Processes that lock a file, read it, write it back and unlock it. The file is empty while it is
being written, and the others may take their steps in between. Seen from outside, each section
happens at once.
-/

set_option autoImplicit false

namespace FileLock

variable {ι σ ε τ : Type*}

/-- What processes do, by their local state: a section makes the next local state of what it reads,
and the content that it writes, if any. Other steps leave the file alone. -/
structure Program (σ ε τ : Type*) where
  sec : τ → Option (σ → τ × Option σ)
  act : ε → τ → ε → τ → Prop

/-- Where a process is in its section; from `writing` on the local state is that behind it. -/
inductive Phase (σ τ : Type*) where
  | outside (t : τ)
  | entered (t : τ)
  | seen (t : τ) (content : σ)
  | writing (t : τ) (content : σ)
  | leaving (t : τ)

def Phase.loc : Phase σ τ → τ
  | .outside t => t
  | .entered t => t
  | .seen t _ => t
  | .writing t _ => t
  | .leaving t => t

/-- What the file holds, as far as the process knows. -/
def Phase.known : Phase σ τ → Option σ
  | .seen _ content => some content
  | .writing _ content => some content
  | _ => none

def Phase.isOutside : Phase σ τ → Prop
  | .outside _ => True
  | _ => False

/-- `file` is `none` between its truncation and the writing. -/
structure State (ι σ ε τ : Type*) where
  file : Option σ
  owner : Option ι
  env : ε
  phase : ι → Phase σ τ

/-- The same processes where sections happen at once. -/
structure Atomic (ι σ ε τ : Type*) where
  content : σ
  env : ε
  loc : ι → τ

def State.init (content : σ) (env : ε) (loc : ι → τ) : State ι σ ε τ :=
  ⟨some content, none, env, fun i => .outside (loc i)⟩

section
variable [DecidableEq ι] (p : Program σ ε τ)

def State.set (s : State ι σ ε τ) (i : ι) (ph : Phase σ τ) : State ι σ ε τ :=
  { s with phase := Function.update s.phase i ph }

/-- One step of one process. -/
inductive Step : State ι σ ε τ → State ι σ ε τ → Prop where
  | lock {s : State ι σ ε τ} {i : ι} {t : τ} {f : σ → τ × Option σ} :
      s.phase i = .outside t → p.sec t = some f → s.owner = none →
      Step s { s.set i (.entered t) with owner := some i }
  | read {s : State ι σ ε τ} {i : ι} {t : τ} {content : σ} :
      s.phase i = .entered t → s.file = some content →
      Step s (s.set i (.seen t content))
  | truncate {s : State ι σ ε τ} {i : ι} {t t' : τ} {content new : σ} {f : σ → τ × Option σ} :
      s.phase i = .seen t content → p.sec t = some f → f content = (t', some new) →
      Step s { s.set i (.writing t' new) with file := none }
  | write {s : State ι σ ε τ} {i : ι} {t : τ} {new : σ} :
      s.phase i = .writing t new →
      Step s { s.set i (.leaving t) with file := some new }
  | skip {s : State ι σ ε τ} {i : ι} {t t' : τ} {content : σ} {f : σ → τ × Option σ} :
      s.phase i = .seen t content → p.sec t = some f → f content = (t', none) →
      Step s (s.set i (.leaving t'))
  | unlock {s : State ι σ ε τ} {i : ι} {t : τ} :
      s.phase i = .leaving t →
      Step s { s.set i (.outside t) with owner := none }
  | act {s : State ι σ ε τ} {i : ι} {t t' : τ} {env : ε} :
      s.phase i = .outside t → p.act s.env t env t' →
      Step s { s.set i (.outside t') with env }

inductive Atomic.Step : Atomic ι σ ε τ → Atomic ι σ ε τ → Prop where
  | sec {a : Atomic ι σ ε τ} {i : ι} {f : σ → τ × Option σ} : p.sec (a.loc i) = some f →
      Atomic.Step a { a with
        content := (f a.content).2.getD a.content
        loc := Function.update a.loc i (f a.content).1 }
  | act {a : Atomic ι σ ε τ} {i : ι} {t' : τ} {env : ε} : p.act a.env (a.loc i) env t' →
      Atomic.Step a { a with
        env
        loc := Function.update a.loc i t' }

end

/-- Undisturbed, a process gets through its section. -/
theorem section_of_free [DecidableEq ι] {p : Program σ ε τ} {s : State ι σ ε τ} {i : ι} {t t' : τ}
    {c c' : σ} {f : σ → τ × Option σ} (hi : s.phase i = .outside t) (hf : p.sec t = some f)
    (hfree : s.owner = none) (hfile : s.file = some c) (hnew : f c = (t', some c')) :
    Relation.ReflTransGen (Step p) s { s.set i (.outside t') with file := some c' } := by
  have hset : ∀ (s : State ι σ ε τ) (ph : Phase σ τ), (s.set i ph).phase i = ph :=
    fun s ph => Function.update_self ..
  have hlock := Relation.ReflTransGen.refl.tail (Step.lock hi hf hfree)
  have hread := hlock.tail (Step.read (hset s _) hfile)
  have htruncate := hread.tail (Step.truncate (hset _ _) hf hnew)
  have hwrite := htruncate.tail (Step.write (hset _ _))
  have hunlock := hwrite.tail (Step.unlock (hset _ _))
  simp only [State.set, Function.update_idem] at hunlock ⊢
  rw [← hfree] at hunlock
  exact hunlock

/-- A process as an atomic one in local state `t`: inside it owns the lock, and what it knows of the
file is what the file holds. A section has happened once it starts to write. -/
structure Fits (owner : Option ι) (content : σ) (i : ι) (t : τ) (ph : Phase σ τ) : Prop where
  loc : ph.loc = t
  owner : ph.isOutside ∨ owner = some i
  known : ∀ c ∈ ph.known, c = content

theorem Fits.of_outside {owner owner' : Option ι} {content content' : σ} {i : ι} {t : τ}
    {ph : Phase σ τ} (h : Fits owner content i t ph) (hout : ph.isOutside) :
    Fits owner' content' i t ph where
  loc := h.loc
  owner := Or.inl hout
  known := by
    intro c hc
    cases ph with
    | outside => cases hc
    | entered | seen | writing | leaving => exact hout.elim

/-- The atomic state that a state stands for. -/
structure Refines (s : State ι σ ε τ) (a : Atomic ι σ ε τ) : Prop where
  env : s.env = a.env
  fits : ∀ i, Fits s.owner a.content i (a.loc i) (s.phase i)
  file : s.file = some a.content ∨ s.file = none ∧ ∃ i t, s.phase i = .writing t a.content

theorem refines_init (content : σ) (env : ε) (loc : ι → τ) :
    Refines (.init content env loc) ⟨content, env, loc⟩ where
  env := rfl
  fits := fun _ => ⟨rfl, Or.inl trivial, fun _ h => by cases h⟩
  file := Or.inl rfl

namespace Refines
variable {p : Program σ ε τ} {s s' : State ι σ ε τ} {a : Atomic ι σ ε τ}

theorem loc_eq (h : Refines s a) {i : ι} {ph : Phase σ τ} (hi : s.phase i = ph) :
    a.loc i = ph.loc := by
  rw [← (h.fits i).loc, hi]

/-- All processes but the owner are outside. -/
theorem inside (h : Refines s a) {i : ι} {ph : Phase σ τ} (hi : s.phase i = ph)
    (hin : ¬ ph.isOutside) : s.owner = some i ∧ ∀ j, j ≠ i → (s.phase j).isOutside := by
  subst hi
  have hown := (h.fits i).owner.resolve_left hin
  refine ⟨hown, fun j hj => ?_⟩
  rcases (h.fits j).owner with hout | hown'
  · exact hout
  · rw [hown] at hown'
    exact absurd (Option.some.inj hown').symm hj

/-- The file holds the content unless some process is writing. -/
theorem file_eq (h : Refines s a) (hwriting : ∀ j t c, s.phase j ≠ .writing t c) :
    s.file = some a.content := by
  rcases h.file with hfile | ⟨_, j, t, hj⟩
  · exact hfile
  · exact absurd hj (hwriting j t a.content)

/-- Whoever is in a section but not writing finds the content in the file. -/
theorem file_of_inside (h : Refines s a) {i : ι} {ph : Phase σ τ} (hi : s.phase i = ph)
    (hin : ¬ ph.isOutside) (hph : ∀ t c, ph ≠ .writing t c) : s.file = some a.content := by
  apply h.file_eq
  intro j t c hj
  rcases eq_or_ne j i with rfl | hne
  · exact hph t c (hi.symm.trans hj)
  · have hout := (h.inside hi hin).2 j hne
    rw [hj] at hout
    exact hout

theorem outside_of_free (h : Refines s a) (hfree : s.owner = none) (i : ι) :
    (s.phase i).isOutside := by
  rcases (h.fits i).owner with hout | hown
  · exact hout
  · rw [hfree] at hown
    cases hown

/-- So does a file that nobody has locked. -/
theorem file_of_free (h : Refines s a) (hfree : s.owner = none) : s.file = some a.content := by
  apply h.file_eq
  intro j t c hj
  have hout := h.outside_of_free hfree j
  rw [hj] at hout
  exact hout

variable [DecidableEq ι]

/-- A move of a process while the others are outside. -/
theorem move {i : ι} {ph : Phase σ τ} {file : Option σ} {owner : Option ι} {content : σ}
    (h : Refines s a) (hout : ∀ j, j ≠ i → (s.phase j).isOutside)
    (howner : ph.isOutside ∨ owner = some i) (hknown : ∀ c ∈ ph.known, c = content)
    (hfile : file = some content ∨ file = none ∧ ∃ t, ph = .writing t content) :
    Refines { s.set i ph with file, owner }
      ⟨content, a.env, Function.update a.loc i ph.loc⟩ where
  env := h.env
  fits := by
    intro j
    rcases eq_or_ne j i with rfl | hne
    · simp only [State.set, Function.update_self]
      exact ⟨rfl, howner, hknown⟩
    · simp only [State.set, Function.update_of_ne hne]
      exact (h.fits j).of_outside (hout j hne)
  file := by
    rcases hfile with hfile | ⟨hfile, t, hph⟩
    · exact Or.inl hfile
    · exact Or.inr ⟨hfile, i, t, by simp only [State.set, Function.update_self, hph]⟩

/-- A move that is not to be seen. -/
theorem move_same {i : ι} {ph ph' : Phase σ τ} {file : Option σ} {owner : Option ι}
    (h : Refines s a) (hout : ∀ j, j ≠ i → (s.phase j).isOutside) (hi : s.phase i = ph)
    (hloc : ph.loc = ph'.loc) (howner : ph'.isOutside ∨ owner = some i)
    (hknown : ∀ c ∈ ph'.known, c = a.content) (hfile : file = some a.content) :
    Refines { s.set i ph' with file, owner } a := by
  have hmove := h.move hout howner hknown (Or.inl hfile)
  have hsame : Function.update a.loc i ph'.loc = a.loc := by
    rw [← hloc, ← h.loc_eq hi, Function.update_eq_self]
  rwa [hsame] at hmove

/-- A step is one of the atomic processes, or nothing to be seen. -/
theorem step (h : Refines s a) (hstep : Step p s s') :
    ∃ a', (a' = a ∨ Atomic.Step p a a') ∧ Refines s' a' := by
  cases hstep with
  | @lock i t f hi hf hfree =>
    exact ⟨a, Or.inl rfl, h.move_same (fun j _ => h.outside_of_free hfree j) hi rfl (Or.inr rfl)
      (by simp [Phase.known]) (h.file_of_free hfree)⟩
  | @read i t content hi hfile =>
    obtain ⟨hown, hout⟩ := h.inside hi id
    have hcontent : s.file = some a.content := h.file_of_inside hi id (by simp)
    obtain rfl : content = a.content := Option.some.inj (hfile.symm.trans hcontent)
    exact ⟨a, Or.inl rfl, h.move_same hout hi rfl (Or.inr hown) (by simp [Phase.known]) hcontent⟩
  | @truncate i t t' content new f hi hf hnew =>
    obtain ⟨hown, hout⟩ := h.inside hi id
    obtain rfl : content = a.content := (h.fits i).known content (by rw [hi]; rfl)
    have hloc : a.loc i = t := h.loc_eq hi
    have hsec : Atomic.Step p a ⟨new, a.env, Function.update a.loc i t'⟩ := by
      have hstep := Atomic.Step.sec (a := a) (i := i) (hloc ▸ hf)
      rwa [hnew] at hstep
    exact ⟨_, Or.inr hsec, h.move hout (Or.inr hown) (by simp [Phase.known])
      (Or.inr ⟨rfl, t', rfl⟩)⟩
  | @write i t new hi =>
    obtain ⟨hown, hout⟩ := h.inside hi id
    obtain rfl : new = a.content := (h.fits i).known new (by rw [hi]; rfl)
    exact ⟨a, Or.inl rfl, h.move_same hout hi rfl (Or.inr hown) (by simp [Phase.known]) rfl⟩
  | @skip i t t' content f hi hf hnew =>
    obtain ⟨hown, hout⟩ := h.inside hi id
    obtain rfl : content = a.content := (h.fits i).known content (by rw [hi]; rfl)
    have hloc : a.loc i = t := h.loc_eq hi
    have hsec : Atomic.Step p a ⟨a.content, a.env, Function.update a.loc i t'⟩ := by
      have hstep := Atomic.Step.sec (a := a) (i := i) (hloc ▸ hf)
      rwa [hnew] at hstep
    exact ⟨_, Or.inr hsec, h.move hout (Or.inr hown) (by simp [Phase.known])
      (Or.inl (h.file_of_inside hi id (by simp)))⟩
  | @unlock i t hi =>
    obtain ⟨_, hout⟩ := h.inside hi id
    exact ⟨a, Or.inl rfl, h.move_same hout hi rfl (Or.inl trivial) (by simp [Phase.known])
      (h.file_of_inside hi id (by simp))⟩
  | @act i t t' env hi hact =>
    have hact' : Atomic.Step p a ⟨a.content, env, Function.update a.loc i t'⟩ := by
      apply Atomic.Step.act
      rw [h.loc_eq hi, ← h.env]
      exact hact
    -- another process may be in its section meanwhile
    refine ⟨_, Or.inr hact', rfl, ?_, ?_⟩
    · intro j
      rcases eq_or_ne j i with rfl | hne
      · simp only [State.set, Function.update_self]
        exact ⟨rfl, Or.inl trivial, by simp [Phase.known]⟩
      · simp only [State.set, Function.update_of_ne hne]
        exact h.fits j
    · rcases h.file with hfile | ⟨hfile, j, t₁, hj⟩
      · exact Or.inl hfile
      · have hne : j ≠ i := by
          rintro rfl
          rw [hi] at hj
          cases hj
        refine Or.inr ⟨hfile, j, t₁, ?_⟩
        simp only [State.set, Function.update_of_ne hne]
        exact hj

end Refines

/-! ## Runs -/

/-- Every interleaving of the sections is one of sections that happen at once. -/
theorem exists_atomic [DecidableEq ι] {p : Program σ ε τ}
    {s₀ s : State ι σ ε τ} {a₀ : Atomic ι σ ε τ} (h₀ : Refines s₀ a₀)
    (h : Relation.ReflTransGen (Step p) s₀ s) :
    ∃ a, Relation.ReflTransGen (Atomic.Step p) a₀ a ∧ Refines s a := by
  induction h with
  | refl => exact ⟨a₀, .refl, h₀⟩
  | tail _ hstep ih =>
    obtain ⟨a, hrun, hrefines⟩ := ih
    obtain ⟨a', rfl | hatomic, hrefines'⟩ := hrefines.step hstep
    · exact ⟨a', hrun, hrefines'⟩
    · exact ⟨a', hrun.tail hatomic, hrefines'⟩

end FileLock
