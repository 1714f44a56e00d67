import Mathlib.Logic.Function.Basic
import Mathlib.Logic.Relation

/-!
# A file, its writers and a server that loads it

Programs read a file, write it anew and ask a server to load it again. Nothing keeps two of them
from writing at once, and while one writes the file may hold anything. A request can be lost, and
the server may stop and start at any time. Once everything is quiet and the last load came behind
all requests that were lost, the server works with what the file holds.
-/

set_option autoImplicit false

namespace Reload

variable {ι φ σ : Type*}

/-- What a program still has to do. -/
inductive Phase (φ : Type*) where
  | ready
  | writing (new : φ)
  | asking
  | done

def Phase.Busy : Phase φ → Prop
  | .writing _ => True
  | .asking => True
  | _ => False

/-- A running server, with the content that it is about to take over in a load. -/
inductive Running (φ σ : Type*) where
  | idle (sv : σ)
  | loading (sv : σ) (content : φ)

def Running.state : Running φ σ → σ
  | .idle sv => sv
  | .loading sv _ => sv

def Running.update (sv' : σ) : Running φ σ → Running φ σ
  | .idle _ => .idle sv'
  | .loading _ content => .loading sv' content

/-- `missed` is set while a request is lost and no load has started since. -/
structure State (ι φ σ : Type*) where
  file : φ
  server : Option (Running φ σ)
  requests : Nat
  missed : Bool
  phase : ι → Phase φ

def State.init (file : φ) : State ι φ σ := ⟨file, none, 0, false, fun _ => .ready⟩

/-- What the programs make of the file, `none` where they leave it alone, and what the server does:
its start and its loads with the content of the file, and steps of its own, which may come while it
loads. -/
structure System (ι φ σ : Type*) where
  update : ι → φ → Option φ
  start : φ → σ → Prop
  load : φ → σ → σ → Prop
  own : σ → σ → Prop

/-- Nobody is between reading the file and asking for a load, and no request is open. -/
structure State.Quiet (s : State ι φ σ) : Prop where
  programs : ∀ i, ¬ (s.phase i).Busy
  requests : s.requests = 0
  missed : s.missed = false

section
variable [DecidableEq ι]

def State.set (s : State ι φ σ) (i : ι) (ph : Phase φ) : State ι φ σ :=
  { s with phase := Function.update s.phase i ph }

variable (p : System ι φ σ)

/-- One step of one party. -/
inductive Step : State ι φ σ → State ι φ σ → Prop where
  | read {s : State ι φ σ} {i : ι} {new : φ} :
      s.phase i = .ready → p.update i s.file = some new → Step s (s.set i (.writing new))
  | skip {s : State ι φ σ} {i : ι} :
      s.phase i = .ready → p.update i s.file = none → Step s (s.set i .asking)
  | scramble {s : State ι φ σ} {i : ι} {new file : φ} :
      s.phase i = .writing new → Step s { s with file }
  | write {s : State ι φ σ} {i : ι} {new : φ} :
      s.phase i = .writing new → Step s { s.set i .asking with file := new }
  | fail {s : State ι φ σ} {i : ι} {new : φ} :
      s.phase i = .writing new → Step s (s.set i .asking)
  | ask {s : State ι φ σ} {i : ι} {r : Running φ σ} :
      s.phase i = .asking → s.server = some r →
      Step s { s.set i .done with requests := s.requests + 1 }
  | lose {s : State ι φ σ} {i : ι} :
      s.phase i = .asking → Step s { s.set i .done with missed := true }
  | start {s : State ι φ σ} {sv : σ} :
      s.server = none → p.start s.file sv →
      Step s { s with
        server := some (.idle sv)
        requests := 0
        missed := false }
  | stop {s : State ι φ σ} : Step s { s with server := none }
  | begin {s : State ι φ σ} {sv : σ} {n : Nat} :
      s.server = some (.idle sv) → s.requests = n + 1 →
      Step s { s with
        server := some (.loading sv s.file)
        requests := n
        missed := false }
  | finish {s : State ι φ σ} {sv sv' : σ} {content : φ} :
      s.server = some (.loading sv content) → p.load content sv sv' →
      Step s { s with server := some (.idle sv') }
  | own {s : State ι φ σ} {r : Running φ σ} {sv' : σ} :
      s.server = some r → p.own r.state sv' →
      Step s { s with server := some (r.update sv') }

/-- A step of a run in which every running server is inside `G`. -/
def StepIn (G : Running φ σ → Prop) (s s' : State ι φ σ) : Prop :=
  Step p s s' ∧ ∀ r, s'.server = some r → G r

end

/-- What start and load establish between the file and the server, and the steps of the server's
own keep. -/
structure Keeps (p : System ι φ σ) (R : φ → σ → Prop) : Prop where
  start : ∀ {file sv}, p.start file sv → R file sv
  load : ∀ {file sv sv'}, p.load file sv sv' → R file sv'
  own : ∀ {file sv sv'}, p.own sv sv' → R file sv → R file sv'

/-- An invariant of the server alone, in runs inside `G`. -/
structure Stays (p : System ι φ σ) (G Inv : Running φ σ → Prop) : Prop where
  start : ∀ {file sv}, p.start file sv → Inv (.idle sv)
  begin : ∀ {sv content}, Inv (.idle sv) → G (.loading sv content) → Inv (.loading sv content)
  load : ∀ {sv sv' content}, Inv (.loading sv content) → p.load content sv sv' → Inv (.idle sv')
  own : ∀ {r sv'}, Inv r → p.own r.state sv' → G (r.update sv') → Inv (r.update sv')

/-- The server has what the file holds, or something is under way that will make it load again. -/
def Current (R : φ → σ → Prop) (file : φ) : Running φ σ → Prop
  | .idle sv => R file sv
  | .loading _ content => content = file

def UpToDate (R : φ → σ → Prop) (s : State ι φ σ) : Prop :=
  ∀ r, s.server = some r → s.Quiet → Current R s.file r

variable {p : System ι φ σ} {R : φ → σ → Prop} {G Inv : Running φ σ → Prop}

theorem upToDate_init (file : φ) : UpToDate R (.init file : State ι φ σ) := by
  intro r hr
  cases hr

variable {s s' : State ι φ σ}

/-- A busy program excuses the server. -/
theorem UpToDate.of_not_quiet (hbusy : ¬ s.Quiet) : UpToDate R s :=
  fun _ _ hquiet => absurd hquiet hbusy

theorem Current.own (hk : Keeps p R) {file : φ} {r : Running φ σ} {sv' : σ}
    (h : Current R file r) (hown : p.own r.state sv') : Current R file (r.update sv') := by
  cases r with
  | idle sv => exact hk.own hown h
  | loading sv content => exact h

variable [DecidableEq ι]

theorem State.set_phase (s : State ι φ σ) (i : ι) (ph : Phase φ) : (s.set i ph).phase i = ph :=
  Function.update_self ..

theorem State.not_quiet_set {i : ι} {ph : Phase φ} (hbusy : ph.Busy) : ¬ (s.set i ph).Quiet := by
  intro hquiet
  apply hquiet.programs i
  rw [State.set_phase]
  exact hbusy

theorem UpToDate.step (hk : Keeps p R) (h : UpToDate R s) (hs : Step p s s') : UpToDate R s' := by
  cases hs with
  | read => exact UpToDate.of_not_quiet (State.not_quiet_set trivial)
  | skip => exact UpToDate.of_not_quiet (State.not_quiet_set trivial)
  | scramble hi =>
    apply UpToDate.of_not_quiet
    intro hquiet
    apply hquiet.programs
    rw [hi]
    trivial
  | @write i =>
    apply UpToDate.of_not_quiet
    intro hquiet
    have hset : (s.set i .asking).Quiet := ⟨hquiet.programs, hquiet.2, hquiet.3⟩
    have hbusy : (.asking : Phase φ).Busy := trivial
    exact State.not_quiet_set hbusy hset
  | fail => exact UpToDate.of_not_quiet (State.not_quiet_set trivial)
  | ask =>
    apply UpToDate.of_not_quiet
    intro hquiet
    exact absurd hquiet.requests (Nat.succ_ne_zero _)
  | lose =>
    apply UpToDate.of_not_quiet
    intro hquiet
    cases hquiet.missed
  | start _ hstart =>
    intro r hr _
    obtain rfl := Option.some.inj hr
    exact hk.start hstart
  | stop =>
    intro r hr
    cases hr
  | begin hsv =>
    intro r hr _
    obtain rfl := Option.some.inj hr
    rfl
  | finish hsv hload =>
    intro r hr hquiet
    obtain rfl := Option.some.inj hr
    have hcontent := h _ hsv ⟨hquiet.1, hquiet.2, hquiet.3⟩
    rw [← hcontent]
    exact hk.load hload
  | own hsv hown =>
    intro r hr hquiet
    obtain rfl := Option.some.inj hr
    exact (h _ hsv ⟨hquiet.1, hquiet.2, hquiet.3⟩).own hk hown

theorem upToDate_of_run (hk : Keeps p R) {file : φ}
    (hrun : Relation.ReflTransGen (Step p) (.init file) s) : UpToDate R s := by
  induction hrun with
  | refl => exact upToDate_init file
  | tail _ hstep ih => exact ih.step hk hstep

/-- In a quiet state a server that is not loading fits the file. -/
theorem current_of_quiet (hk : Keeps p R) {file : φ}
    (hrun : Relation.ReflTransGen (Step p) (.init file) s) (hquiet : s.Quiet) {sv : σ}
    (hserver : s.server = some (.idle sv)) : R s.file sv :=
  upToDate_of_run hk hrun _ hserver hquiet

theorem Stays.step (hst : Stays p G Inv) (h : ∀ r, s.server = some r → Inv r)
    (hs : StepIn p G s s') : ∀ r, s'.server = some r → Inv r := by
  obtain ⟨hs, hG⟩ := hs
  cases hs with
  | read => exact h
  | skip => exact h
  | scramble => exact h
  | write => exact h
  | fail => exact h
  | ask => exact h
  | lose => exact h
  | start _ hstart =>
    intro r hr
    obtain rfl := Option.some.inj hr
    exact hst.start hstart
  | stop =>
    intro r hr
    cases hr
  | begin hsv =>
    intro r hr
    obtain rfl := Option.some.inj hr
    exact hst.begin (h _ hsv) (hG _ rfl)
  | finish hsv hload =>
    intro r hr
    obtain rfl := Option.some.inj hr
    exact hst.load (h _ hsv) hload
  | own hsv hown =>
    intro r hr
    obtain rfl := Option.some.inj hr
    exact hst.own (h _ hsv) hown (hG _ rfl)

theorem Stays.of_run (hst : Stays p G Inv) {file : φ}
    (hrun : Relation.ReflTransGen (StepIn p G) (.init file) s) :
    ∀ r, s.server = some r → Inv r := by
  induction hrun with
  | refl =>
    intro r hr
    cases hr
  | tail _ hstep ih => exact hst.step ih hstep

/-- A run inside `G` is a run. -/
theorem run_of_in (hrun : Relation.ReflTransGen (StepIn p G) s s') :
    Relation.ReflTransGen (Step p) s s' :=
  hrun.lift id fun _ _ hstep => hstep.1

theorem Step.stepIn {r : Running φ σ} (hs : Step p s s') (hserver : s'.server = some r)
    (hG : G r) : StepIn p G s s' := by
  refine ⟨hs, fun r' hr' => ?_⟩
  rw [hserver] at hr'
  obtain rfl := Option.some.inj hr'
  exact hG

/-- Left alone, a program gets its update into the file and the server. -/
theorem reloaded_of_idle {i : ι} {new : φ} {sv sv' : σ} (hi : s.phase i = .ready)
    (hupdate : p.update i s.file = some new) (hserver : s.server = some (.idle sv))
    (hload : p.load new sv sv') (hidle : G (.idle sv)) (hloading : G (.loading sv new))
    (hidle' : G (.idle sv')) :
    Relation.ReflTransGen (StepIn p G) s { s.set i .done with
      file := new
      server := some (.idle sv')
      missed := false } := by
  have hread := Relation.ReflTransGen.refl.tail ((Step.read hi hupdate).stepIn hserver hidle)
  have hwrite := hread.tail ((Step.write (State.set_phase s i _)).stepIn hserver hidle)
  have hasking := State.set_phase (s.set i (.writing new)) i .asking
  have hask := hwrite.tail (Step.stepIn (.ask hasking hserver) hserver hidle)
  have hbegin := hask.tail (Step.stepIn (.begin hserver rfl) rfl hloading)
  have hfinish := hbegin.tail (Step.stepIn (.finish rfl hload) rfl hidle')
  simp only [State.set, Function.update_idem] at hfinish ⊢
  exact hfinish

end Reload
