import MulticastProxy.KernelServer.Exchange
import MulticastProxy.Library.FileLock
import MulticastProxy.Library.Roster

/-!
# Kernel server tool: the lock of the config file (`base_config.c`, `json_config.c`)

`nf_file_lock` and `nf_file_unlock` stand around each update: the file is read, changed in memory,
truncated and written. Interleaved at this grain, processes do no more than with updates that happen
at once.
-/

namespace MulticastProxy.KernelServer

set_option autoImplicit false

/-- A process of `app_control.c`: called, behind its options, with its message due, ended. -/
inductive Proc where
  | called (argv : List CommandLine.Word)
  | parsed (cmd : Command)
  | updated (cmd : Command)
  | ended (code : Option Int)

def Proc.starting : Proc → Option Command
  | .parsed cmd => some cmd
  | _ => none

def Proc.pending : Proc → Option Command
  | .updated cmd => some cmd
  | _ => none

/-- `__multi_grp_config_init`, and the options behind it. -/
def initSection (argv : List CommandLine.Word) (cfg : Config) : Proc × Option Config :=
  (match parseArgs argv with
    | .error ret => .ended (some ret)
    | .ok cmd => .parsed cmd, some (multiGrpConfigInit cfg))

/-- `__multi_grp_add_to_config` and its siblings; without the array of groups nothing is written. -/
def updateSection (cmd : Command) (cfg : Config) : Proc × Option Config :=
  (if (cmd.updateConfig cfg).1 = 0 then .updated cmd else .ended (some (-1)),
    cfg.map fun _ => (cmd.updateConfig cfg).2)

def Proc.sec : Proc → Option (Config → Proc × Option Config)
  | .called argv => if argv = [] then none else some (initSection argv)
  | .parsed (.print _ _) => none
  | .parsed cmd => some (updateSection cmd)
  | _ => none

section
variable (jhash1word : UInt32 → UInt32 → UInt32)

/-- Steps away from the file. The first three are without a lock: a CLEAR goes on. -/
inductive Proc.Act : NlState → Proc → NlState → Proc → Prop where
  | initNoLock {m : NlState} {argv : List CommandLine.Word} :
      Proc.Act m (.called argv) m (.ended (some (-1)))
  | updateNoLock {m : NlState} {cmd : Command} : Proc.Act m (.parsed cmd) m (.ended (some (-1)))
  | clearNoLock {m : NlState} : Proc.Act m (.parsed .clear) m (.updated .clear)
  | usage {m : NlState} : Proc.Act m (.called []) m (.ended (some 0))
  | print {m : NlState} {cmd : AppCmd} {service : TmccNlServiceSt} :
      Proc.Act m (.parsed (.print cmd service)) m (.updated (.print cmd service))
  | send {m m' : NlState} {cmd : Command} {link : Link} {copied : Bool} {code : Option Int}
      {reply : Option (UInt64 × Reply)} :
      ((cmd.send link).tmccRcvSkb jhash1word copied m).outcome = .ret (code, reply, m') →
      Proc.Act m (.updated cmd) m' (.ended code)

def program : FileLock.Program Config NlState Proc := ⟨Proc.sec, Proc.Act jhash1word⟩

/-- States of any processes, each called with some arguments. -/
def LockRun {ι : Type} [DecidableEq ι] (argvs : ι → List CommandLine.Word)
    (s : FileLock.State ι Config NlState Proc) : Prop :=
  Relation.ReflTransGen (FileLock.Step (program jhash1word))
    (.init none Wire.init.kernel fun i => .called (argvs i)) s

end

/-- The processes of `w`, with the file and the module that they share. -/
structure Shows {ι : Type} (a : FileLock.Atomic ι Config NlState Proc) (w : Wire) : Prop where
  cfg : a.content = w.cfg
  kernel : a.env = w.kernel
  starting : Roster Proc.starting a.loc w.starting
  pending : Roster Proc.pending a.loc w.pending

variable {jhash1word : UInt32 → UInt32 → UInt32} {ι : Type}

theorem shows_init (argvs : ι → List CommandLine.Word) :
    Shows ⟨none, Wire.init.kernel, fun i => .called (argvs i)⟩ Wire.init where
  cfg := rfl
  kernel := rfl
  starting := .nil fun _ => rfl
  pending := .nil fun _ => rfl

/-- What is not written is as it was. -/
theorem updateSection_getD (cmd : Command) (cfg : Config) :
    (updateSection cmd cfg).2.getD cfg = (cmd.updateConfig cfg).2 := by
  cases cfg with
  | none => cases cmd <;> rfl
  | some grpArray => rfl

theorem sec_parsed {cmd : Command} {f : Config → Proc × Option Config}
    (h : (Proc.parsed cmd).sec = some f) : f = updateSection cmd := by
  cases cmd with
  | add | del | clear => exact (Option.some.inj h).symm
  | print => cases h

variable [DecidableEq ι]

/-- A section that happens at once. -/
theorem Shows.sec {a : FileLock.Atomic ι Config NlState Proc} {w : Wire} (h : Shows a w) {i : ι}
    {f : Config → Proc × Option Config} (hf : (a.loc i).sec = some f) :
    ∃ w', WireStep jhash1word w w' ∧ Shows
      { a with
        content := (f a.content).2.getD a.content
        loc := Function.update a.loc i (f a.content).1 } w' := by
  cases hloc : a.loc i with
  | called argv =>
    simp only [hloc, Proc.sec] at hf
    split at hf
    · cases hf
    · obtain rfl := Option.some.inj hf
      have hstart : Proc.starting (a.loc i) = none := by rw [hloc]; rfl
      have hpend : Proc.pending (a.loc i) = none := by rw [hloc]; rfl
      cases hparse : parseArgs argv with
      | error ret =>
        refine ⟨_, .reject, congrArg multiGrpConfigInit h.cfg, h.kernel, ?_, ?_⟩
        · simp only [initSection, hparse]
          exact h.starting.keep hstart rfl
        · simp only [initSection, hparse]
          exact h.pending.keep hpend rfl
      | ok cmd =>
        refine ⟨_, .start hparse, congrArg multiGrpConfigInit h.cfg, h.kernel, ?_, ?_⟩
        · simp only [initSection, hparse]
          exact h.starting.add hstart rfl
        · simp only [initSection, hparse]
          exact h.pending.keep hpend rfl
  | parsed cmd =>
    rw [hloc] at hf
    obtain rfl := sec_parsed hf
    have hstart : Proc.starting (a.loc i) = some cmd := by rw [hloc]; rfl
    have hpend : Proc.pending (a.loc i) = none := by rw [hloc]; rfl
    have hcfg : (updateSection cmd a.content).2.getD a.content = (cmd.updateConfig w.cfg).2 := by
      rw [updateSection_getD, h.cfg]
    by_cases hcode : (cmd.updateConfig a.content).1 = 0
    · have hphase : (updateSection cmd a.content).1 = .updated cmd := if_pos hcode
      obtain ⟨before, after, hlist, hrest⟩ := h.starting.remove hstart (t := .updated cmd) rfl
      refine ⟨_, .update before after hlist (h.cfg ▸ hcode), hcfg, h.kernel, ?_, ?_⟩
      · rw [hphase]
        exact hrest
      · rw [hphase]
        exact h.pending.add hpend rfl
    · have hphase : (updateSection cmd a.content).1 = .ended (some (-1)) := if_neg hcode
      obtain ⟨before, after, hlist, hrest⟩ :=
        h.starting.remove hstart (t := .ended (some (-1))) rfl
      refine ⟨_, .fail before after hlist (h.cfg ▸ hcode), hcfg, h.kernel, ?_, ?_⟩
      · rw [hphase]
        exact hrest
      · rw [hphase]
        exact h.pending.keep hpend rfl
  | updated cmd =>
    rw [hloc] at hf
    cases hf
  | ended code =>
    rw [hloc] at hf
    cases hf

/-- A step away from the file; not every one is seen. -/
theorem Shows.act {a : FileLock.Atomic ι Config NlState Proc} {w : Wire} (h : Shows a w) {i : ι}
    {t : Proc} {m : NlState} (hact : Proc.Act jhash1word a.env (a.loc i) m t) :
    ∃ w', (w' = w ∨ WireStep jhash1word w w') ∧
      Shows { a with
        env := m
        loc := Function.update a.loc i t } w' := by
  generalize hloc : a.loc i = u at hact
  generalize henv : a.env = m₀ at hact
  have hkernel : m₀ = w.kernel := henv.symm.trans h.kernel
  cases hact with
  | initNoLock | usage =>
    refine ⟨w, Or.inl rfl, h.cfg, hkernel, ?_, ?_⟩
    · exact h.starting.keep (by rw [hloc]; rfl) rfl
    · exact h.pending.keep (by rw [hloc]; rfl) rfl
  | @updateNoLock cmd =>
    obtain ⟨before, after, hlist, hrest⟩ := h.starting.remove (i := i) (k := cmd)
      (t := .ended (some (-1))) (by rw [hloc]; rfl) rfl
    refine ⟨_, Or.inr (.noLock before after hlist), h.cfg, hkernel, hrest, ?_⟩
    exact h.pending.keep (by rw [hloc]; rfl) rfl
  | clearNoLock =>
    obtain ⟨before, after, hlist, hrest⟩ := h.starting.remove (i := i) (k := .clear)
      (t := .updated .clear) (by rw [hloc]; rfl) rfl
    refine ⟨_, Or.inr (.clearNoLock before after hlist), h.cfg, hkernel, hrest, ?_⟩
    exact h.pending.add (by rw [hloc]; rfl) rfl
  | @print cmd service =>
    obtain ⟨before, after, hlist, hrest⟩ := h.starting.remove (i := i) (k := .print cmd service)
      (t := .updated (.print cmd service)) (by rw [hloc]; rfl) rfl
    refine ⟨_, Or.inr (.update before after hlist rfl), h.cfg, hkernel, hrest, ?_⟩
    exact h.pending.add (by rw [hloc]; rfl) rfl
  | @send _ cmd link copied code _ hsend =>
    obtain ⟨before, after, hlist, hrest⟩ := h.pending.remove (i := i) (k := cmd)
      (t := .ended code) (by rw [hloc]; rfl) rfl
    rw [hkernel] at hsend
    refine ⟨_, Or.inr (.send before after link copied hlist hsend), h.cfg, rfl, ?_, hrest⟩
    exact h.starting.keep (by rw [hloc]; rfl) rfl

theorem exists_wire {argvs : ι → List CommandLine.Word} {a : FileLock.Atomic ι Config NlState Proc}
    (h : Relation.ReflTransGen (FileLock.Atomic.Step (program jhash1word))
      ⟨none, Wire.init.kernel, fun i => .called (argvs i)⟩ a) :
    ∃ w, WireRun jhash1word w ∧ Shows a w := by
  induction h with
  | refl => exact ⟨Wire.init, .refl, shows_init argvs⟩
  | tail _ hstep ih =>
    obtain ⟨w, hrun, hshows⟩ := ih
    cases hstep with
    | sec hsec =>
      obtain ⟨w', hwire, hshows'⟩ : ∃ w', WireStep jhash1word w w' ∧ Shows _ w' := hshows.sec hsec
      exact ⟨w', hrun.tail hwire, hshows'⟩
    | act hact =>
      obtain ⟨w', rfl | hwire, hshows'⟩ := hshows.act hact
      · exact ⟨w', hrun, hshows'⟩
      · exact ⟨w', hrun.tail hwire, hshows'⟩

end MulticastProxy.KernelServer
