import MulticastProxy.Common.Service
import MulticastProxy.KernelServer.Recover
import MulticastProxy.KernelServer.TwoParties

/-!
# Kernel server: the service (`scripts/multis`)

Nothing is undone where the kernel refuses, so config file and table may part. A restart builds the
table from the file again.
-/

namespace MulticastProxy.KernelServer

set_option autoImplicit false

open CommandLine

section
variable (jhash1word : UInt32 → UInt32 → UInt32)

/-- `system`; the shell answers 127 for a program it does not know. -/
def runShell (cmd : List Char) (cfg : Config) (s : State) : Outcome (Int × Config × State) :=
  match words cmd with
  | [] => .ret (0, cfg, s)
  | prog :: argv =>
    if prog = multiServerShellCmd then multisAdmin jhash1word argv cfg s else .ret (127, cfg, s)

def runShells : List (List Char) → Config → State → Outcome (Config × State)
  | [], cfg, s => .ret (cfg, s)
  | cmd :: cmds, cfg, s => do
    let (_, cfg, s) ← runShell jhash1word cmd cfg s
    runShells cmds cfg s

/-- `multis_config_admin -R` behind an `insmod`. -/
def recover (startup : Option Config) : Outcome (Option Config × State) := do
  let (_, cmds) ← multiServerConfigRecover startup.join
  let (cfg, s) ← runShells jhash1word cmds none multiNodeInit
  .ret (if cmds = [] then none else some cfg, s)

/-- Config file and table after processes of the tool, whatever their exit codes. -/
inductive ToolRun : Config → State → Prop where
  | init : ToolRun none multiNodeInit
  | step {cfg cfg' : Config} {s s' : State} {argv : List Word} {code : Int} :
      ToolRun cfg s → multisAdmin jhash1word argv cfg s = .ret (code, cfg', s') → ToolRun cfg' s'

end

variable {jhash1word : UInt32 → UInt32 → UInt32}

/-! ## The file, whatever the kernel answers -/

/-- An update that fails leaves the file as it is. -/
theorem updateConfig_cases (cmd : Command) (cfg : Config) :
    (cmd.updateConfig cfg).1 = 0 ∨ (cmd.updateConfig cfg).2 = cfg := by
  cases cmd with
  | add service =>
    simp only [Command.updateConfig, multiGrpAddToConfig]
    cases cfg with
    | none => exact Or.inr rfl
    | some grpArray =>
      dsimp only
      split
      · split
        · exact Or.inr rfl
        · split
          · exact Or.inr rfl
          · split
            · exact Or.inr rfl
            · exact Or.inl rfl
      · split
        · exact Or.inr rfl
        · exact Or.inl rfl
  | del service =>
    simp only [Command.updateConfig, multiGrpDelFromConfig]
    cases cfg with
    | none => exact Or.inr rfl
    | some grpArray =>
      dsimp only
      split
      · exact Or.inr rfl
      · exact Or.inl rfl
  | clear => exact Or.inl rfl
  | print _ _ => exact Or.inl rfl

theorem ConfigOk.updateFile {cfg : Config} (ok : ConfigOk cfg) (argv : List Word) :
    ConfigOk (updateFile argv cfg) := by
  unfold KernelServer.updateFile
  split
  · exact ok
  · cases hparse : parseArgs argv with
    | error ret => exact ok.init
    | ok cmd =>
      rcases updateConfig_cases cmd (multiGrpConfigInit cfg) with hcode | hsame
      · exact (ok.init.update (parseArgs_parsed hparse) (Prod.ext hcode rfl)).1
      · simp only [hsame]
        exact ok.init

theorem ToolRun.configOk {cfg : Config} {s : State} (h : ToolRun jhash1word cfg s) :
    ConfigOk cfg := by
  induction h with
  | init => exact configOk_none
  | step _ hrun ih =>
    rw [multisAdmin_config hrun]
    exact ih.updateFile _

/-! ## Loading a file -/

/-- The table holds the groups of a list and nothing else. -/
structure Loaded (jhash1word : UInt32 → UInt32 → UInt32) (groups : Groups) (s : State) : Prop where
  kernel : KernelOk jhash1word s
  members : membersOf jhash1word s = AssocList.get groups
  card : (liveNodes jhash1word s).card = groups.length

theorem loaded_nil : Loaded jhash1word [] multiNodeInit where
  kernel := kernelOk_init
  members := by
    funext g
    simp [membersOf]
  card := by simp

theorem Loaded.memberMap {groups : Groups} {s : State} (h : Loaded jhash1word groups s) :
    memberMap jhash1word s = configMap (some (encode groups)) := by
  rw [memberMap_eq, h.members, configMap_encode]

/-- No index is beyond a byte, so the pool of 1024 has one left. -/
theorem KernelOk.index_free {s : State} (ok : KernelOk jhash1word s) : s.bitmap 256 = false := by
  rw [← Bool.not_eq_true, ok.own.bit]
  rintro ⟨b, i, _, hidx⟩
  have hlt := (s.multiGrp b i).multiGrpIdx.toNat_lt
  omega

/-- A group behind those that are there, while there are fewer than 256. -/
theorem Loaded.add {done : Groups} {s : State} (h : Loaded jhash1word done s) {g : UInt32}
    {ips : List UInt32} (ok : GroupsOk (done ++ [(g, ips)])) (hlen : done.length < 256) :
    ∃ s', tmccRcvSkb jhash1word s (.serviceAdd (.ofList multiOptJoin g ips)) = .ret (0, s') ∧
      Loaded jhash1word (done ++ [(g, ips)]) s' := by
  have hips : MembersOk ips := ok.members (g, ips) (by simp)
  have hsize : ips.length < 2 ^ 32 := Nat.lt_of_le_of_lt hips.size (by decide)
  have hnum : (TmccNlServiceSt.ofList multiOptJoin g ips).ipNum.toNat = ips.length :=
    TmccNlServiceSt.ipNum_ofList multiOptJoin g hsize
  have hnone : AssocList.get done g = none := by
    have hkeys := ok.keys
    rw [List.map_append, List.nodup_append] at hkeys
    rw [AssocList.get_eq_none_iff]
    exact fun hmem => hkeys.2.2 g hmem g (by simp) rfl
  have hfresh : nodeOf jhash1word s g = none := by
    have hmembers := congrFun h.members g
    rw [hnone, membersOf, Option.map_eq_none_iff] at hmembers
    exact hmembers
  have hcard := h.card
  unfold liveNodes at hcard
  obtain ⟨i, hi, hfree⟩ := BucketLayout.WellFormed.exists_free h.kernel.wf mulitHashKey_lt
    (hcard ▸ hlen) (mulitHashKey jhash1word g multiGrpBucket)
  obtain ⟨s', hadd⟩ := addMultiNode_returns
    (TmccNlServiceSt.ofList multiOptJoin g ips).ipList hfresh (by decide) h.kernel.index_free hi
    hfree (hnum.trans_le hips.size)
  have hsend : tmccRcvSkb jhash1word s (.serviceAdd (.ofList multiOptJoin g ips)) =
      .ret (0, s') := by
    have haction : (TmccNlServiceSt.ofList multiOptJoin g ips).action = multiOptJoin := rfl
    rw [tmccRcvSkb, multiNlNodeAdd, if_pos haction]
    exact hadd
  have hroom : PoolRoom jhash1word s (.serviceAdd (.ofList multiOptJoin g ips)) :=
    fun _ _ => h.card.trans_lt hlen
  have hdistinct : (Command.add (.ofList multiOptJoin g ips)).Distinct := by
    change (TmccNlServiceSt.ofList multiOptJoin g ips).ips.Nodup
    rw [TmccNlServiceSt.ips_ofList multiOptJoin g hsize]
    exact hips.nodup
  refine ⟨s', hsend, (h.kernel.send hdistinct rfl hroom hsend).1, ?_, ?_⟩
  · have hlists := multiNlNodeAdd_join h.kernel.wf h.kernel.own rfl hroom hsend
    have hip : (TmccNlServiceSt.ofList multiOptJoin g ips).multiIp = g := rfl
    rw [hlists, hip, h.members, hnone, TmccNlServiceSt.ips_ofList multiOptJoin g hsize]
    funext g'
    rw [AssocList.get_concat hnone]
    simp [joined]
  · rcases addMultiNode_cases h.kernel.wf hadd with ⟨node, hext⟩ | ⟨_, hcode, _⟩ | ⟨_, _, made, _⟩
    · have hfound := hext.found
      rw [hfresh] at hfound
      cases hfound
    · cases hcode
    · rw [made.live, h.card, List.length_append, List.length_singleton]

/-- A printed command brings its group to the file and to the table. -/
theorem Loaded.runShell {done : Groups} {s : State} (h : Loaded jhash1word done s) {g : UInt32}
    {ips : List UInt32} (ok : GroupsOk (done ++ [(g, ips)])) (hlen : done.length < 256)
    {cfg : Config} (hcfg : cfg.getD [] = encode done) :
    ∃ s', runShell jhash1word (commandText (GrpObj.ofGroup (g, ips))) cfg s =
        .ret (0, some (encode (done ++ [(g, ips)])), s') ∧
      Loaded jhash1word (done ++ [(g, ips)]) s' := by
  obtain ⟨s', hsend, hloaded⟩ := h.add ok hlen
  refine ⟨s', ?_, hloaded⟩
  have hargv : addArgv g ips ≠ [] := List.cons_ne_nil _ _
  have hips : MembersOk ips := ok.members (g, ips) (by simp)
  have hupdate := add_updateConfig hcfg ok
  unfold KernelServer.runShell
  rw [words_commandText]
  simp only [if_true, multisAdmin, hargv, if_false, parseArgs_addArgv g hips, Command.run, hupdate,
    ne_eq, not_true_eq_false, Command.message, hsend, Outcome.ret_bind]

theorem Loaded.runShells {rest done : Groups} {s : State} (h : Loaded jhash1word done s)
    (ok : GroupsOk (done ++ rest)) (hlen : (done ++ rest).length ≤ 256) {cfg : Config}
    (hcfg : cfg.getD [] = encode done) :
    ∃ cfg' s', runShells jhash1word ((encode rest).map commandText) cfg s = .ret (cfg', s') ∧
      cfg'.getD [] = encode (done ++ rest) ∧ Loaded jhash1word (done ++ rest) s' := by
  induction rest generalizing done s cfg with
  | nil =>
    rw [List.append_nil]
    exact ⟨cfg, s, rfl, hcfg, h⟩
  | cons p rest ih =>
    obtain ⟨g, ips⟩ := p
    have happend : done ++ (g, ips) :: rest = done ++ [(g, ips)] ++ rest := by simp
    rw [happend] at ok hlen ⊢
    have hroom : done.length < 256 := by
      rw [List.length_append, List.length_append, List.length_singleton] at hlen
      omega
    obtain ⟨s₁, hrun, hloaded⟩ := h.runShell ok.of_append hroom hcfg
    have hnext : (some (encode (done ++ [(g, ips)]))).getD [] = encode (done ++ [(g, ips)]) := rfl
    obtain ⟨cfg', s', hrest, hcfg', hloaded'⟩ := ih hloaded ok hlen hnext
    refine ⟨cfg', s', ?_, hcfg', hloaded'⟩
    have hmap : (encode ((g, ips) :: rest)).map commandText =
        commandText (GrpObj.ofGroup (g, ips)) :: (encode rest).map commandText := rfl
    rw [hmap, KernelServer.runShells, hrun, Outcome.ret_bind]
    exact hrest

/-- A saved file of groups that are printed within the buffer, and no more than the indices can tell
apart, is loaded as it is. -/
theorem recover_loaded {groups : Groups} (ok : GroupsOk groups) (hlen : groups.length ≤ 256)
    {saved : Option Config} (hsaved : saved.join.getD [] = encode groups)
    (hprint : Printable saved.join) :
    ∃ running s, recover jhash1word saved = .ret (running, s) ∧
      running.join.getD [] = encode groups ∧ Loaded jhash1word groups s := by
  have hcmds : ∃ ret, multiServerConfigRecover saved.join =
      .ret (ret, (encode groups).map commandText) := by
    cases hjoin : saved.join with
    | none =>
      have hnil : groups = [] := by simpa [hjoin, encode, eq_comm] using hsaved
      exact ⟨-1, by rw [hnil]; rfl⟩
    | some grpArray =>
      rw [hjoin] at hsaved hprint
      obtain rfl : grpArray = encode groups := hsaved
      have hloop : recoverLoop (encode groups) = _ := recoverLoop_ret hprint
      exact ⟨0, by rw [multiServerConfigRecover, hloop]; rfl⟩
  obtain ⟨ret, hcmds⟩ := hcmds
  have hempty : (none : Config).getD [] = encode [] := rfl
  have hinit : Loaded jhash1word [] multiNodeInit := loaded_nil
  obtain ⟨cfg, s, hrun, hcfg, hloaded⟩ := hinit.runShells ok hlen hempty
  refine ⟨if (encode groups).map commandText = [] then none else some cfg, s, ?_, ?_, hloaded⟩
  · simp only [recover, hcmds, hrun, Outcome.ret_bind]
  · cases groups with
    | nil => rfl
    | cons p groups => exact hcfg

/-- Whatever became of the commands, a restart gives a table that holds what the file says. -/
theorem restart_reconciles {cfg : Config} {s : State} (h : ToolRun jhash1word cfg s)
    (hprint : Printable cfg) (hlen : (cfg.getD []).length ≤ 256) (startup : Option Config) :
    ∃ (svc : Service Config State) (s' : State),
      (Service.mk (some cfg) startup (some s)).restart (recover jhash1word) = .ret svc ∧
      svc.table = some s' ∧ svc.running.join.getD [] = cfg.getD [] ∧
      memberMap jhash1word s' = configMap cfg := by
  obtain ⟨groups, hcfg, ok⟩ := h.configOk
  have hfew : groups.length ≤ 256 := by
    rw [hcfg, encode, List.length_map] at hlen
    exact hlen
  have hsaved : ((some cfg).or startup).join.getD [] = encode groups := hcfg
  obtain ⟨running, s', hrecover, hrunning, hloaded⟩ : ∃ running s',
      recover jhash1word (some cfg) = .ret (running, s') ∧
      running.join.getD [] = encode groups ∧ Loaded jhash1word groups s' :=
    recover_loaded ok hfew hsaved hprint
  refine ⟨_, s', Service.restart_of_recover hrecover, rfl, hrunning.trans hcfg.symm, ?_⟩
  have hmap : configMap cfg = configMap (some (encode groups)) := by
    unfold configMap
    rw [hcfg]
    rfl
  rw [hloaded.memberMap, hmap]

/-- After one JOIN. -/
theorem restart_reconciles_join : ∃ (svc svc' : Service Config State) (s' : State),
    svc.running = some joinedConfig ∧ svc.restart (recover fun _ _ => 0) = .ret svc' ∧
      svc'.table = some s' ∧ memberMap (fun _ _ => 0) s' = configMap joinedConfig := by
  obtain ⟨argv, hparse⟩ := parseArgs_join
  obtain ⟨s, hs, _⟩ := memberMap_join fun _ _ => 0
  have hne : argv ≠ [] := by
    rintro rfl
    cases hparse
  have hrun : multisAdmin (fun _ _ => 0) argv none multiNodeInit = .ret (0, joinedConfig, s) := by
    have hinit : multiGrpConfigInit none = some [] := rfl
    simp only [multisAdmin, hne, if_false, hparse, Command.run, hinit, join_updateConfig,
      Command.message, hs, ne_eq, not_true_eq_false, Outcome.ret_bind]
  obtain ⟨svc', s', hrestart, htable, _, hmap⟩ :=
    restart_reconciles (.step .init hrun) (by decide) (by decide) none
  exact ⟨_, svc', s', rfl, hrestart, htable, hmap⟩

end MulticastProxy.KernelServer
