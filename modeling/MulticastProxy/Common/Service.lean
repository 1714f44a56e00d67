import Mathlib.Tactic
import MulticastProxy.Library.Outcome

/-!
# Config files and service scripts (`scripts/multis`, `scripts/multic`)

The proxies differ in the name of the array in their files and in its records. The two scripts of the
kernel modules are the same but for their names. A stop keeps the running config as the startup
config, and a start has the tool build a new running config from it.
-/

namespace MulticastProxy

set_option autoImplicit false

/-- What `json_object_from_file` and the look-up of the array of groups find. -/
inductive CfgFile (α : Type) where
  | unreadable
  | noArray
  | notArray
  | array (grpArray : List α)

/-- The records, where `cfg_init` gets as far as reading them. -/
def CfgFile.config {α : Type} : CfgFile α → Option (List α)
  | .unreadable => none
  | .noArray => none
  | .notArray => none
  | .array grpArray => some grpArray

/-- The file parses and holds the array. -/
def CfgFile.HasArray {α : Type} (file : CfgFile α) : Prop := ∃ grpArray, file = .array grpArray

theorem CfgFile.config_eq_none_iff {α : Type} {file : CfgFile α} :
    file.config = none ↔ ¬ file.HasArray := by
  cases file <;> simp [config, HasArray]

/-- The config files, where there are any, and the table of the module where it is loaded. -/
structure Service (σ τ : Type) where
  running : Option σ
  startup : Option σ
  table : Option τ

namespace Service
variable {σ τ : Type}

/-- Without a running config the startup config stays. -/
def stop (svc : Service σ τ) : Service σ τ where
  running := none
  startup := svc.running.or svc.startup
  table := none

/-- `recover` makes running config and table of the startup config. The running config goes first,
also where the script then exits because the module is loaded. -/
def start (recover : Option σ → Outcome (Option σ × τ)) (svc : Service σ τ) :
    Outcome (Service σ τ) :=
  match svc.table with
  | some _ => .ret { svc with running := none }
  | none => do
    let (running, table) ← recover svc.startup
    .ret ⟨running, svc.startup, some table⟩

def restart (recover : Option σ → Outcome (Option σ × τ)) (svc : Service σ τ) :
    Outcome (Service σ τ) :=
  start recover svc.stop

variable {recover : Option σ → Outcome (Option σ × τ)} {svc svc' : Service σ τ}

theorem start_of_loaded {s : τ} (h : svc.table = some s) :
    svc.start recover = .ret { svc with running := none } := by
  rw [start, h]

theorem start_of_stopped (h : svc.table = none) :
    svc.start recover = recover svc.startup >>= fun r => .ret ⟨r.1, svc.startup, some r.2⟩ := by
  rw [start, h]

/-- What a start does: no more than to delete a file, or all of it. -/
theorem start_ret (h : svc.start recover = .ret svc') :
    (svc.table ≠ none ∧ svc' = { svc with running := none }) ∨
      svc.table = none ∧ ∃ running s, recover svc.startup = .ret (running, s) ∧
        svc' = ⟨running, svc.startup, some s⟩ := by
  by_cases htable : svc.table = none
  · rw [start_of_stopped htable] at h
    obtain ⟨⟨running, s⟩, hrecover, hret⟩ := Outcome.bind_eq_ret_iff.mp h
    exact Or.inr ⟨htable, running, s, hrecover, (Outcome.ret.inj hret).symm⟩
  · obtain ⟨s, hs⟩ := Option.ne_none_iff_exists'.mp htable
    rw [start_of_loaded hs] at h
    exact Or.inl ⟨htable, (Outcome.ret.inj h).symm⟩

theorem restart_of_recover {running : Option σ} {s : τ}
    (h : recover (svc.running.or svc.startup) = .ret (running, s)) :
    svc.restart recover = .ret ⟨running, svc.running.or svc.startup, some s⟩ := by
  have hstop : svc.stop.startup = svc.running.or svc.startup := rfl
  rw [restart, start_of_stopped rfl, hstop, h]
  rfl

end Service

end MulticastProxy
