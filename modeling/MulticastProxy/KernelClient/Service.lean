import MulticastProxy.Common.Service
import MulticastProxy.KernelClient.Recover
import MulticastProxy.Library.Trace

/-!
# Kernel client: the service (`scripts/multic`)

Over commands, stops, starts and files that others write while the service is stopped: config and
kernel agree unless the script is told to start a service that runs, and a restart loses nothing.
-/

namespace MulticastProxy.KernelClient

set_option autoImplicit false

section
variable (jhash2words : UInt32 → UInt32 → UInt32 → UInt32)

/-- `multic_config_admin -R` behind an `insmod`. -/
def recover (startup : Option Config) : Outcome (Option Config × State) := do
  let (_, cmds) ← multiClientConfigRecover startup.join
  let (_, cfg, s) ← runCommands jhash2words cmds none multiNodeInit
  .ret (if cmds = [] then none else some cfg, s)

/-- A process of the tool; without an argument it does not come to its file. -/
def runTool (argv : List CommandLine.Word) (running : Option Config) (s : State) :
    Outcome (Option Config × State) := do
  let (_, cfg, s) ← multicAdmin jhash2words argv running.join s
  .ret (if argv = [] then running else some cfg, s)

/-- Files of addresses and ports, such as the tools and the scripts make them. -/
inductive ServiceAct where
  | command (argv : List CommandLine.Word)
  | write (running startup : Option Entries)
  | stop
  | start

def configOf (es : Option Entries) : Option Config :=
  es.map fun es => some (es.map GrpObj.ofEntry)

abbrev ClientService := Service Config State

def serviceNext (svc : ClientService) : ServiceAct → Option ClientService
  | .command argv =>
    match svc.table with
    | none => none
    | some s =>
      match runTool jhash2words argv svc.running s with
      | .ret (running, s) => some { svc with running, table := some s }
      | _ => none
  | .write running startup =>
    match svc.table with
    | none => some ⟨configOf running, configOf startup, none⟩
    | some _ => none
  | .stop => some svc.stop
  | .start =>
    match svc.start (recover jhash2words) with
    | .ret svc => some svc
    | _ => none

/-- While the module is loaded, the running config is what it holds. -/
def ServiceAgrees (svc : ClientService) : Prop :=
  ∀ s, svc.table = some s → Agree jhash2words svc.running.join s

/-- A start finds no module, or an empty one. -/
def StartsEmpty (svc : ClientService) (act : ServiceAct) : Prop :=
  act = .start → ∀ s, svc.table = some s → ∀ k, entry jhash2words s k = none

/-- A start finds no module. -/
def StartsStopped (svc : ClientService) (act : ServiceAct) : Prop :=
  act = .start → svc.table = none

/-- No module and no file. -/
def serviceInit : ClientService := ⟨none, none, none⟩

end

variable {jhash2words : UInt32 → UInt32 → UInt32 → UInt32}

/-! ## Commands that make a table -/

/-- Config and table as processes of the tool leave them. -/
structure InStep (jhash2words : UInt32 → UInt32 → UInt32 → UInt32) (cfg : Config) (s : State) :
    Prop where
  synced : Synced jhash2words cfg s
  reachable : Reachable jhash2words s

theorem inStep_init : InStep jhash2words none multiNodeInit := ⟨⟨[], rfl, sim_init⟩, .init⟩

theorem InStep.multicAdmin {argv : List CommandLine.Word} {cfg cfg' : Config} {s s' : State}
    {code : Int} (h : InStep jhash2words cfg s)
    (hrun : multicAdmin jhash2words argv cfg s = .ret (code, cfg', s')) :
    InStep jhash2words cfg' s' := by
  refine ⟨(h.synced.step hrun).1, ?_⟩
  rcases multicAdmin_table hrun with rfl | ⟨msg, ret, hstep⟩
  · exact h.reachable
  · exact h.reachable.step hstep

theorem InStep.runCommands {cmds : List (List Char)} {cfg cfg' : Config} {s s' : State}
    {codes : List Int} (h : InStep jhash2words cfg s)
    (hrun : runCommands jhash2words cmds cfg s = .ret (codes, cfg', s')) :
    InStep jhash2words cfg' s' := by
  induction cmds generalizing cfg s codes with
  | nil =>
    obtain ⟨_, rfl, rfl⟩ := by simpa [KernelClient.runCommands] using hrun
    exact h
  | cons cmd cmds ih =>
    rw [KernelClient.runCommands] at hrun
    obtain ⟨⟨code, cfg₁, s₁⟩, hfirst, hrun⟩ := Outcome.bind_eq_ret_iff.mp hrun
    obtain ⟨⟨codes', cfg₂, s₂⟩, hrest, hret⟩ := Outcome.bind_eq_ret_iff.mp hrun
    obtain ⟨_, rfl, rfl⟩ := by simpa using hret
    refine ih ?_ hrest
    unfold runCommand at hfirst
    split at hfirst
    · obtain ⟨_, rfl, rfl⟩ := by simpa using hfirst
      exact h
    · split at hfirst
      · exact h.multicAdmin hfirst
      · obtain ⟨_, rfl, rfl⟩ := by simpa using hfirst
        exact h

/-- A missing file holds as little as one without an array. -/
theorem InStep.of_getD {cfg cfg' : Config} {s : State} (h : InStep jhash2words cfg s)
    (hget : cfg'.getD [] = cfg.getD []) : InStep jhash2words cfg' s := by
  obtain ⟨⟨es, hcfg, sim⟩, hreach⟩ := h
  exact ⟨⟨es, by rw [← hcfg, multiGrpConfigInit, multiGrpConfigInit, hget], sim⟩, hreach⟩

theorem recover_inStep {startup running : Option Config} {s : State}
    (h : recover jhash2words startup = .ret (running, s)) :
    InStep jhash2words running.join s ∧ (running = none → startup.join.getD [] = []) := by
  obtain ⟨⟨ret, cmds⟩, hcmds, h⟩ := Outcome.bind_eq_ret_iff.mp h
  obtain ⟨⟨codes, cfg, s'⟩, hrun, hret⟩ := Outcome.bind_eq_ret_iff.mp h
  obtain ⟨rfl, rfl⟩ := by simpa using hret
  have hstep := inStep_init.runCommands hrun
  by_cases hnil : cmds = []
  · subst hnil
    obtain ⟨_, rfl, rfl⟩ := by simpa [runCommands] using hrun
    refine ⟨hstep, fun _ => ?_⟩
    cases hjoin : startup.join with
    | none => rfl
    | some grpArray =>
      rw [hjoin, multiClientConfigRecover] at hcmds
      obtain ⟨cmds', hloop, hret'⟩ := Outcome.bind_eq_ret_iff.mp hcmds
      obtain ⟨_, rfl⟩ := by simpa using hret'
      cases grpArray with
      | nil => rfl
      | cons grpObj grpArray =>
        rw [recoverLoop] at hloop
        obtain ⟨cmd, _, hloop⟩ := Outcome.bind_eq_ret_iff.mp hloop
        obtain ⟨rest, _, hloop⟩ := Outcome.bind_eq_ret_iff.mp hloop
        simp at hloop
  · rw [if_neg hnil]
    exact ⟨hstep, fun hnone => by cases hnone⟩

/-- A saved file that fits a table is loaded as it is. -/
theorem recover_loadable {es : Entries} (h : Loadable jhash2words (es.map Prod.fst))
    {saved : Option Config} (hsaved : saved.join.getD [] = es.map GrpObj.ofEntry) :
    ∃ running s, recover jhash2words saved = .ret (running, s) ∧
      running.join.getD [] = es.map GrpObj.ofEntry ∧ Sim jhash2words es s := by
  have hload : Loadable jhash2words (([] ++ es).map Prod.fst) := h
  have hempty : (none : Config).getD [] = ([] : Entries).map GrpObj.ofEntry := rfl
  have hinit : Sim jhash2words [] multiNodeInit := sim_init
  obtain ⟨cfg, s, hrun, hcfg, sim⟩ := hinit.runCommands hload hempty
  rw [List.nil_append] at hcfg sim
  have hcmds : ∃ ret, multiClientConfigRecover saved.join = .ret (ret, es.map commandText) := by
    cases hjoin : saved.join with
    | none =>
      have hnil : es = [] := by simpa [hjoin] using hsaved
      exact ⟨-1, by rw [hnil]; rfl⟩
    | some grpArray =>
      obtain rfl : grpArray = es.map GrpObj.ofEntry := by simpa [hjoin] using hsaved
      exact ⟨0, by rw [multiClientConfigRecover, recoverLoop_ofEntry]; rfl⟩
  obtain ⟨ret, hcmds⟩ := hcmds
  refine ⟨if es.map commandText = [] then none else some cfg, s, ?_, ?_, sim⟩
  · simp only [recover, hcmds, hrun, Outcome.ret_bind]
  · cases es with
    | nil => rfl
    | cons e es => exact hcfg

/-- What was saved of a table is loaded again. -/
theorem InStep.recover {saved : Option Config} {s : State}
    (h : InStep jhash2words saved.join s) :
    ∃ running s', recover jhash2words saved = .ret (running, s') ∧
      running.join.getD [] = saved.join.getD [] ∧ entry jhash2words s' = entry jhash2words s := by
  obtain ⟨⟨es, hcfg, sim⟩, hreach⟩ := h
  have hget : saved.join.getD [] = es.map GrpObj.ofEntry := Option.some.inj hcfg
  obtain ⟨running, s', hrecover, hrunning, sim'⟩ :=
    recover_loadable (sim.loadable hreach.rowsOk) hget
  exact ⟨running, s', hrecover, hrunning.trans hget.symm, by rw [← sim.maps, ← sim'.maps]⟩

/-! ## Steps -/

theorem runTool_ret {argv : List CommandLine.Word} {running running' : Option Config} {s s' : State}
    (h : runTool jhash2words argv running s = .ret (running', s')) :
    ∃ code, multicAdmin jhash2words argv running.join s = .ret (code, running'.join, s') ∧
      (running' = none → running = none) := by
  obtain ⟨⟨code, cfg, t⟩, hadmin, hret⟩ := Outcome.bind_eq_ret_iff.mp h
  obtain ⟨rfl, rfl⟩ := by simpa using hret
  by_cases hargv : argv = []
  · rw [if_pos hargv]
    refine ⟨code, ?_, id⟩
    have hcfg : running.join = cfg := by
      rw [multicAdmin, if_pos hargv] at hadmin
      simp only [Outcome.ret.injEq, Prod.mk.injEq] at hadmin
      exact hadmin.2.1
    rw [hadmin, hcfg]
  · rw [if_neg hargv]
    exact ⟨code, hadmin, fun hnone => by cases hnone⟩

/-- All that a step can do. -/
theorem serviceNext_cases {svc svc' : ClientService} {act : ServiceAct}
    (h : serviceNext jhash2words svc act = some svc') :
    (∃ argv s running s', act = .command argv ∧ svc.table = some s ∧
      runTool jhash2words argv svc.running s = .ret (running, s') ∧
      svc' = ⟨running, svc.startup, some s'⟩) ∨
    (∃ running startup, act = .write running startup ∧ svc.table = none ∧
      svc' = ⟨configOf running, configOf startup, none⟩) ∨
    (act = .stop ∧ svc' = svc.stop) ∨
    (act = .start ∧ svc.start (recover jhash2words) = .ret svc') := by
  cases act with
  | command argv =>
    simp only [serviceNext] at h
    split at h
    · cases h
    · rename_i s hs
      split at h
      · rename_i running s' hrun
        exact Or.inl ⟨argv, s, running, s', rfl, hs, hrun, (Option.some.inj h).symm⟩
      · cases h
  | write running startup =>
    simp only [serviceNext] at h
    split at h
    · rename_i hs
      exact Or.inr (Or.inl ⟨running, startup, rfl, hs, (Option.some.inj h).symm⟩)
    · cases h
  | stop => exact Or.inr (Or.inr (Or.inl ⟨rfl, (Option.some.inj h).symm⟩))
  | start =>
    simp only [serviceNext] at h
    split at h
    · rename_i svc₁ hstart
      obtain rfl := Option.some.inj h
      exact Or.inr (Or.inr (Or.inr ⟨rfl, hstart⟩))
    · cases h

def InService (jhash2words : UInt32 → UInt32 → UInt32 → UInt32) (svc : ClientService) : Prop :=
  ∀ s, svc.table = some s → InStep jhash2words svc.running.join s

/-- An empty table is in step with no file. -/
theorem InStep.of_empty {cfg : Config} {s : State} (h : InStep jhash2words cfg s)
    (hempty : ∀ k, entry jhash2words s k = none) : InStep jhash2words none s := by
  apply h.of_getD
  obtain ⟨es, hcfg, sim⟩ := h.synced
  have hget : cfg.getD [] = es.map GrpObj.ofEntry := Option.some.inj hcfg
  cases es with
  | nil => exact hget.symm
  | cons e es =>
    have he : AssocList.get (e :: es) e.1 = none := by rw [sim.maps, hempty]
    exact absurd (by simp) (AssocList.get_eq_none_iff.mp he)

theorem InService.step {svc svc' : ClientService} {act : ServiceAct}
    (h : InService jhash2words svc) (hnext : serviceNext jhash2words svc act = some svc')
    (hempty : StartsEmpty jhash2words svc act) : InService jhash2words svc' := by
  intro t ht
  obtain ⟨argv, s, running, s', _, hs, hrun, rfl⟩ | ⟨_, _, _, _, rfl⟩ | ⟨_, rfl⟩ | ⟨hact, hstart⟩ :=
    serviceNext_cases hnext
  · obtain rfl := Option.some.inj ht
    obtain ⟨code, hadmin, _⟩ := runTool_ret hrun
    exact (h s hs).multicAdmin hadmin
  · cases ht
  · cases ht
  · obtain ⟨_, rfl⟩ | ⟨_, running, s, hrecover, rfl⟩ := Service.start_ret hstart
    · exact (h t ht).of_empty (hempty hact t ht)
    · obtain rfl := Option.some.inj ht
      exact (recover_inStep hrecover).1

/-- A start of a service that runs leaves its table without a file. -/
theorem not_agrees_of_start {svc svc' : ClientService} {act : ServiceAct}
    (hnext : serviceNext jhash2words svc act = some svc')
    (hfull : ¬ StartsEmpty jhash2words svc act) : ¬ ServiceAgrees jhash2words svc' := by
  intro hagrees
  unfold StartsEmpty at hfull
  push Not at hfull
  obtain ⟨rfl, s, hs, ⟨ip, port⟩, hentry⟩ := hfull
  obtain ⟨g, hg⟩ := Option.ne_none_iff_exists'.mp hentry
  have hsvc' : svc' = { svc with running := none } := by
    rw [serviceNext, Service.start_of_loaded hs] at hnext
    exact (Option.some.inj hnext).symm
  subst hsvc'
  have hfound : (lookupIpPortNode jhash2words s ip port).map Prod.fst = some g := by
    rw [lookupIpPortNode_eq]
    exact hg
  have hrecorded := ((hagrees s hs).maps ip port g).mpr hfound
  cases hrecorded

/-- In every history of the service, config and kernel agree whenever the module is loaded exactly
if no start finds a table with an entry. -/
theorem service_agrees_iff (jhash2words : UInt32 → UInt32 → UInt32 → UInt32)
    (acts : List ServiceAct) :
    Trace.Throughout (serviceNext jhash2words) (ServiceAgrees jhash2words) serviceInit acts ↔
      Trace.EachStep (serviceNext jhash2words) (StartsEmpty jhash2words) serviceInit acts := by
  apply Trace.throughout_iff_eachStep (I := InService jhash2words)
  · exact fun svc h s hs => (h s hs).synced.agree
  · exact fun svc act svc' h hnext hempty => h.step hnext hempty
  · exact fun svc act svc' _ hnext hfull => not_agrees_of_start hnext hfull
  · intro s hs
    cases hs

/-! ## A restart -/

/-- Where there is no running config the startup config is empty, too. -/
structure Restartable (jhash2words : UInt32 → UInt32 → UInt32 → UInt32) (svc : ClientService) :
    Prop where
  inService : InService jhash2words svc
  startup : svc.table ≠ none → svc.running = none → svc.startup.join.getD [] = []

theorem Restartable.step {svc svc' : ClientService} {act : ServiceAct}
    (h : Restartable jhash2words svc) (hnext : serviceNext jhash2words svc act = some svc')
    (hstopped : StartsStopped svc act) : Restartable jhash2words svc' := by
  have hempty : StartsEmpty jhash2words svc act := by
    intro hact s hs
    rw [hstopped hact] at hs
    cases hs
  refine ⟨h.inService.step hnext hempty, fun htable hrunning => ?_⟩
  obtain ⟨argv, s, running, s', _, hs, hrun, rfl⟩ | ⟨_, _, _, _, rfl⟩ | ⟨_, rfl⟩ | ⟨hact, hstart⟩ :=
    serviceNext_cases hnext
  · obtain ⟨_, _, hkept⟩ := runTool_ret hrun
    exact h.startup (by simp [hs]) (hkept hrunning)
  · exact absurd rfl htable
  · exact absurd rfl htable
  · obtain ⟨hloaded, _⟩ | ⟨_, running, s, hrecover, rfl⟩ := Service.start_ret hstart
    · exact absurd (hstopped hact) hloaded
    · exact (recover_inStep hrecover).2 hrunning

theorem Restartable.of_exec {svc : ClientService} {acts : List ServiceAct}
    (hstopped : Trace.EachStep (serviceNext jhash2words) StartsStopped serviceInit acts)
    (hexec : Trace.exec (serviceNext jhash2words) serviceInit acts = some svc) :
    Restartable jhash2words svc := by
  have hinit : Restartable jhash2words serviceInit := by
    refine ⟨?_, fun htable => absurd rfl htable⟩
    intro s hs
    cases hs
  have hthroughout := Trace.throughout_of_eachStep (P := Restartable jhash2words)
    (I := Restartable jhash2words) (fun _ h => h)
    (fun svc act svc' h hnext hC => h.step hnext hC) hinit hstopped
  exact hthroughout.of_exec hexec

/-- After any history in which only a stopped service is started, a restart gives the entries that
file and table had. -/
theorem restart_keeps {svc : ClientService} {acts : List ServiceAct} {s : State}
    (hstopped : Trace.EachStep (serviceNext jhash2words) StartsStopped serviceInit acts)
    (hexec : Trace.exec (serviceNext jhash2words) serviceInit acts = some svc)
    (hloaded : svc.table = some s) :
    ∃ svc' s', svc.restart (recover jhash2words) = .ret svc' ∧ svc'.table = some s' ∧
      svc'.running.join.getD [] = svc.running.join.getD [] ∧
      entry jhash2words s' = entry jhash2words s := by
  have h := Restartable.of_exec hstopped hexec
  have hsaved : (svc.running.or svc.startup).join.getD [] = svc.running.join.getD [] := by
    cases hrunning : svc.running with
    | some cfg => rfl
    | none => exact h.startup (by simp [hloaded]) hrunning
  have hinStep := (h.inService s hloaded).of_getD hsaved
  obtain ⟨running, s', hrecover, hget, hentry⟩ := hinStep.recover
  exact ⟨_, s', Service.restart_of_recover hrecover, rfl, hget.trans hsaved, hentry⟩

/-- Started, given one entry, restarted. -/
theorem restart_keeps_entry : ∃ (svc svc' : ClientService) (s' : State),
    svc.running = some (some [⟨ip2str 0x0A000001, ip2str 0xE1000001, 5000⟩]) ∧
      svc.restart (recover fun _ _ _ => 0) = .ret svc' ∧ svc'.table = some s' ∧
      entry (fun _ _ _ => 0) s' (0x0A000001, 5000) = some 0xE1000001 := by
  obtain ⟨s, hs, hentry⟩ := addMultiNode_multiNodeInit (fun _ _ _ => 0) 0xE1000001 0x0A000001 5000
  obtain ⟨argv, hne, hparse⟩ : ∃ argv, argv ≠ [] ∧
      parseArgs argv = .ok (.add ⟨5000, 0x0A000001, 0xE1000001⟩) :=
    ⟨CommandLine.words "-A -i 10.0.0.1 -p 5000 -m 225.0.0.1".toList, by decide, rfl⟩
  have hcfg : multiGrpAddToConfig (multiGrpConfigInit none) ⟨5000, 0x0A000001, 0xE1000001⟩ =
      (0, some [⟨ip2str 0x0A000001, ip2str 0xE1000001, 5000⟩]) := rfl
  have hadmin : multicAdmin (fun _ _ _ => 0) argv none multiNodeInit =
      .ret (0, some [⟨ip2str 0x0A000001, ip2str 0xE1000001, 5000⟩], s) := by
    simp only [multicAdmin, hne, hparse, Command.run, tmccNlServiceAdd, hcfg, tmccRcvSkb, hs]
    rfl
  have htool : runTool (fun _ _ _ => 0) argv none multiNodeInit =
      .ret (some (some [⟨ip2str 0x0A000001, ip2str 0xE1000001, 5000⟩]), s) := by
    rw [runTool, Option.join_none, hadmin]
    simp [hne]
  have hstart : serviceNext (fun _ _ _ => 0) serviceInit .start =
      some ⟨none, none, some multiNodeInit⟩ := rfl
  have hcommand : serviceNext (fun _ _ _ => 0) ⟨none, none, some multiNodeInit⟩ (.command argv) =
      some ⟨some (some [⟨ip2str 0x0A000001, ip2str 0xE1000001, 5000⟩]), none, some s⟩ := by
    simp only [serviceNext, htool]
  have hexec : Trace.exec (serviceNext fun _ _ _ => 0) serviceInit [.start, .command argv] =
      some ⟨some (some [⟨ip2str 0x0A000001, ip2str 0xE1000001, 5000⟩]), none, some s⟩ := by
    rw [Trace.exec_cons hstart, Trace.exec_cons hcommand, Trace.exec_nil]
  have hstopped : Trace.EachStep (serviceNext fun _ _ _ => 0) StartsStopped serviceInit
      [.start, .command argv] := by
    intro _ _
    refine ⟨fun _ => rfl, ?_⟩
    intro _ _
    refine ⟨?_, trivial⟩
    intro hact
    cases hact
  obtain ⟨svc', s', hrestart, htable, _, hkept⟩ := restart_keeps hstopped hexec rfl
  exact ⟨_, svc', s', rfl, hrestart, htable, by rw [hkept, hentry]; simp⟩

end MulticastProxy.KernelClient
