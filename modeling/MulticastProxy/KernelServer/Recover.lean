import MulticastProxy.KernelServer.Tool
import MulticastProxy.KernelServer.GroupSpec
import MulticastProxy.KernelServer.ConfigMap
import MulticastProxy.Library.CString

/-!
# Kernel server: save and restore (`tools/multi_config_control/json_config.c`)

`multi_server_config_recover` prints one `multis_admin` command for each group of a saved config
file and has the shell run it. The commands rebuild the file where they fit the buffer.
-/

namespace MulticastProxy.KernelServer

set_option autoImplicit false

open CommandLine CharBuffer

abbrev cmdSize : Nat := 4096

def multiServerShellCmd : List Char := "multis_admin".toList

/-- One round of the loop over the groups: the text that it leaves in `cmd`. The last comma is
overwritten. -/
def printCommand (grpObj : GrpObj) : Outcome (List Char) := do
  let ipNum := grpObj.memberArray.length
  let buf ← sprintf cmdSize [] (multiServerShellCmd ++ " -A -m ".toList ++ grpObj.groupIp)
  let buf ← if 0 < ipNum then sprintf cmdSize buf " -j ".toList else .ret buf
  let buf ← grpObj.memberArray.foldlM (fun buf memIp => sprintf cmdSize buf (memIp ++ [','])) buf
  .ret (if 0 < ipNum then buf.dropLast else buf)

/-- The commands that `system` gets, in order. -/
def recoverLoop : List GrpObj → Outcome (List (List Char))
  | [] => .ret []
  | grpObj :: grpArray => do
    let cmd ← printCommand grpObj
    let cmds ← recoverLoop grpArray
    .ret (cmd :: cmds)

def multiServerConfigRecover (cfg : Config) : Outcome (Int × List (List Char)) :=
  match cfg with
  | none => .ret (-1, [])
  | some grpArray => do
    let cmds ← recoverLoop grpArray
    .ret (0, cmds)

/-! ## Running the commands -/

def runCommand (cfg : Config) (cmd : List Char) : Config :=
  match words cmd with
  | [] => cfg
  | prog :: argv => if prog = multiServerShellCmd then updateFile argv cfg else cfg

def runCommands (cmds : List (List Char)) (cfg : Config) : Config := cmds.foldl runCommand cfg

variable (jhash1word : UInt32 → UInt32 → UInt32)

/-- Config files and tables after `multis_admin` processes that succeed, one after the other. -/
inductive Reached : Config → State → Prop where
  | init : Reached none multiNodeInit
  | step {cfg cfg' : Config} {s s' : State} (argv : List Word) :
      Reached cfg s → multisAdmin jhash1word argv cfg s = .ret (0, cfg', s') → Reached cfg' s'

variable {jhash1word}

theorem Reached.configOk {cfg : Config} {s : State} (h : Reached jhash1word cfg s) :
    ConfigOk cfg := by
  induction h with
  | init => exact configOk_none
  | @step cfg cfg' s s' argv _ hrun ih =>
    have hfile := multisAdmin_config hrun
    unfold multisAdmin at hrun
    unfold updateFile at hfile
    by_cases hargv : argv = []
    · rw [if_pos hargv] at hfile
      rwa [hfile]
    · rw [if_neg hargv] at hrun hfile
      cases hparse : parseArgs argv with
      | error code =>
        simp only [hparse] at hfile
        rw [hfile]
        exact ih.init
      | ok cmd =>
        simp only [hparse] at hrun hfile
        have hcode : (cmd.updateConfig (multiGrpConfigInit cfg)).1 = 0 := by
          by_contra hne
          rw [Command.run, if_pos hne] at hrun
          simp at hrun
        refine (ih.init.update (parseArgs_parsed hparse) (Prod.ext hcode ?_)).1
        exact hfile.symm

/-! ## The printed command -/

/-- The members behind their option. -/
def memberText : List (List Char) → List Char
  | [] => []
  | mem => ' ' :: ("-j".toList ++ ' ' :: List.intercalate [','] mem)

def commandText (grpObj : GrpObj) : List Char :=
  multiServerShellCmd ++
    ' ' :: ("-A".toList ++ ' ' :: ("-m".toList ++ ' ' :: (grpObj.groupIp ++
      memberText grpObj.memberArray)))

/-- What the command takes of `cmd` but for the zero byte, the comma behind the last member
included: 19 characters, the group, and for the members 4 more and one for each comma. -/
def cmdLength (grpObj : GrpObj) : Nat :=
  19 + grpObj.groupIp.length +
    if grpObj.memberArray = [] then 0
    else 4 + (grpObj.memberArray.map fun memIp => memIp.length + 1).sum

theorem dropLast_flatMap_comma {mem : List (List Char)} (hmem : mem ≠ []) :
    (mem.flatMap fun memIp => memIp ++ [',']).dropLast = List.intercalate [','] mem := by
  induction mem with
  | nil => exact absurd rfl hmem
  | cons m ms ih =>
    cases ms with
    | nil => simp
    | cons m' ms =>
      have hne : ((m' :: ms).flatMap fun memIp => memIp ++ [',']) ≠ [] := by simp
      rw [List.flatMap_cons, List.dropLast_append_of_ne_nil hne, ih (by simp),
        List.intercalate_cons_cons]

/-- The texts of all `sprintf` calls fit exactly where their sum does. -/
theorem printCommand_eq (grpObj : GrpObj) : printCommand grpObj =
    if cmdLength grpObj < cmdSize then .ret (commandText grpObj) else .fault := by
  obtain ⟨groupIp, mem⟩ := grpObj
  have hlen : (multiServerShellCmd ++ " -A -m ".toList ++ groupIp).length = 19 + groupIp.length := by
    rw [List.length_append]
    rfl
  have htext : commandText ⟨groupIp, mem⟩ =
      multiServerShellCmd ++ " -A -m ".toList ++ groupIp ++ memberText mem := by
    simp [commandText]
  have hcmd : cmdLength ⟨groupIp, mem⟩ = 19 + groupIp.length +
      if mem = [] then 0 else 4 + (mem.map fun memIp => memIp.length + 1).sum := rfl
  rw [htext, hcmd]
  unfold printCommand
  generalize multiServerShellCmd ++ " -A -m ".toList ++ groupIp = head at hlen ⊢
  by_cases hfirst : head.length < cmdSize
  · rw [sprintf_of_lt (by simpa using hfirst), Outcome.ret_bind, List.nil_append, ← hlen]
    cases mem with
    | nil => simp [hfirst, memberText]
    | cons m ms =>
      have hsum : ((m :: ms).flatMap fun memIp => memIp ++ [',']).length =
          ((m :: ms).map fun memIp => memIp.length + 1).sum := by
        rw [List.length_flatMap]
        simp
      simp only [List.length_cons, Nat.zero_lt_succ, if_true]
      by_cases hj : head.length + 4 < cmdSize
      · rw [sprintf_of_lt hj, Outcome.ret_bind, foldlM_sprintf _ _ _ (by simpa using hj), hsum,
          List.length_append, if_neg (List.cons_ne_nil m ms), Nat.add_assoc]
        have hlen4 : " -j ".toList.length = 4 := rfl
        rw [hlen4]
        split
        · have hne : ((m :: ms).flatMap fun memIp => memIp ++ [',']) ≠ [] := by simp
          rw [Outcome.ret_bind, List.dropLast_append_of_ne_nil hne,
            dropLast_flatMap_comma (List.cons_ne_nil m ms), List.append_assoc]
          rfl
        · rfl
      · rw [sprintf_of_le (Nat.not_lt.mp hj), Outcome.fault_bind, if_neg (by simp; omega)]
  · rw [sprintf_of_le (by rw [List.length_nil]; omega), Outcome.fault_bind, if_neg (by omega)]

/-! ## Reading the command -/

theorem parseServiceLoop_intercalate {ips done : List UInt32} (hips : MembersOk (done ++ ips)) :
    parseServiceLoop ips.length (List.intercalate [','] (ips.map ip2str)) done =
      .ok (done ++ ips) := by
  induction ips generalizing done with
  | nil => rw [List.length_nil, parseServiceLoop, List.append_nil]
  | cons ip ips ih =>
    obtain ⟨htake, hdrop⟩ := split_intercalate (comma_not_mem ip) (ips.map ip2str)
    have hshort : ¬ 128 ≤ (ip2str ip).length := by
      have hlen := (DottedQuad.length_inetNtoa ip).2
      rw [ip2str]
      omega
    have hnew : ip ∉ done := fun hmem =>
      (List.nodup_append.mp hips.nodup).2.2 ip hmem ip (List.mem_cons_self ..) rfl
    have hskip : (isMulticast ip || done.contains ip) = false := by
      rw [hips.unicast ip (by simp), Bool.false_or, ← Bool.not_eq_true, List.contains_iff_mem]
      exact hnew
    have happend : done ++ ip :: ips = done ++ [ip] ++ ips := by simp
    rw [List.length_cons, parseServiceLoop, List.map_cons]
    simp only [htake, hdrop, hshort, if_false, parseIpBe_ip2str, hskip, Bool.false_eq_true]
    rw [ih (by rwa [← happend]), happend]

theorem parseService_intercalate {ips : List UInt32} (hne : ips ≠ []) (hips : MembersOk ips) :
    parseService (List.intercalate [','] (ips.map ip2str)) = .ok ips := by
  have hnum : multiRangeNum (List.intercalate [','] (ips.map ip2str)) = ips.length := by
    rw [multiRangeNum, count_intercalate (by simpa using hne), List.length_map]
    intro w hw
    obtain ⟨ip, _, rfl⟩ := List.mem_map.mp hw
    exact comma_not_mem ip
  have hloop := parseServiceLoop_intercalate (show MembersOk ([] ++ ips) from hips)
  rw [parseService, hnum, if_neg (Nat.not_lt.mpr hips.size), hloop, List.nil_append]

/-- The words of a printed command behind the program's name. -/
def addArgv (g : UInt32) (ips : List UInt32) : List Word :=
  "-A".toList :: "-m".toList :: ip2str g ::
    if ips = [] then [] else ["-j".toList, List.intercalate [','] (ips.map ip2str)]

theorem parseArgs_of_read {w : Word} {ws : List Word} {a : Args}
    (h : (getopt options (w :: ws)).foldlM Args.read .init = .ok a) :
    parseArgs (w :: ws) = a.command := by
  have hbind : parseArgs (w :: ws) =
      ((getopt options (w :: ws)).foldlM Args.read .init >>= fun a => a.command) := rfl
  rw [hbind, h]
  rfl

theorem parseArgs_addArgv (g : UInt32) {ips : List UInt32} (hips : MembersOk ips) :
    parseArgs (addArgv g ips) = .ok (.add (.ofList multiOptJoin g ips)) := by
  have hA : Args.init.read (.opt 'A' []) = .ok ⟨some .add, 0, multiOptJoin, 0, []⟩ := rfl
  have hm : Args.read ⟨some .add, 0, multiOptJoin, 0, []⟩ (.opt 'm' (ip2str g)) =
      .ok ⟨some .add, optMultiIp, multiOptJoin, g, []⟩ := by
    simp [Args.read]
  unfold addArgv
  by_cases hnil : ips = []
  · rw [if_pos hnil, hnil]
    have hevents : getopt options ["-A".toList, "-m".toList, ip2str g] =
        [.opt 'A' [], .opt 'm' (ip2str g)] := rfl
    refine parseArgs_of_read (a := ⟨some .add, optMultiIp, multiOptJoin, g, []⟩) ?_
    rw [hevents, foldlM_ok_cons hA, foldlM_ok_cons hm]
    rfl
  · rw [if_neg hnil]
    have hj : Args.read ⟨some .add, optMultiIp, multiOptJoin, g, []⟩
        (.opt 'j' (List.intercalate [','] (ips.map ip2str))) =
        .ok ⟨some .add, optMultiIp ||| optJoin, multiOptJoin, g, ips⟩ := by
      have hmask : optMultiIp &&& optJoin = 0 := by decide
      simp [Args.read, parseService_intercalate hnil hips, hmask]
    have hevents : getopt options ["-A".toList, "-m".toList, ip2str g, "-j".toList,
        List.intercalate [','] (ips.map ip2str)] =
        [.opt 'A' [], .opt 'm' (ip2str g), .opt 'j' (List.intercalate [','] (ips.map ip2str))] := rfl
    refine parseArgs_of_read (a := ⟨some .add, optMultiIp ||| optJoin, multiOptJoin, g, ips⟩) ?_
    rw [hevents, foldlM_ok_cons hA, foldlM_ok_cons hm, foldlM_ok_cons hj]
    rfl

theorem words_add (rest : List Char) :
    words (multiServerShellCmd ++ ' ' :: ("-A".toList ++ ' ' :: ("-m".toList ++ ' ' :: rest))) =
      multiServerShellCmd :: "-A".toList :: "-m".toList :: words rest := rfl

theorem words_join (rest : List Char) :
    words ("-j".toList ++ ' ' :: rest) = "-j".toList :: words rest := rfl

theorem words_commandText (g : UInt32) (ips : List UInt32) :
    words (commandText (GrpObj.ofGroup (g, ips))) = multiServerShellCmd :: addArgv g ips := by
  have hip : ∀ ip, ∀ ch ∈ ip2str ip, ch ≠ ' ' := by
    rintro ip _ hch rfl
    exact blank_not_mem ip hch
  unfold commandText addArgv
  rw [words_add]
  cases ips with
  | nil =>
    rw [GrpObj.ofGroup]
    simp only [List.map_nil, memberText, List.append_nil, if_true]
    rw [words_last (ip2str_ne_nil g) (hip g)]
  | cons ip ips =>
    have htext : ∀ ch ∈ List.intercalate [','] ((ip :: ips).map ip2str), ch ≠ ' ' := by
      intro ch hch
      rcases mem_intercalate hch with rfl | ⟨w, hw, hch⟩
      · decide
      · obtain ⟨ip', _, rfl⟩ := List.mem_map.mp hw
        exact hip ip' ch hch
    have hne : List.intercalate [','] ((ip :: ips).map ip2str) ≠ [] := by
      intro hnil
      have hfirst := (split_intercalate (comma_not_mem ip) (ips.map ip2str)).1
      rw [← List.map_cons, hnil] at hfirst
      exact ip2str_ne_nil ip hfirst.symm
    rw [GrpObj.ofGroup]
    simp only [List.map_cons, memberText]
    rw [words_cons (ip2str_ne_nil g) (hip g), words_join, ← List.map_cons,
      words_last hne htext, if_neg (List.cons_ne_nil ip ips)]

/-! ## The round trip -/

theorem GroupsOk.of_append {done rest : Groups} (ok : GroupsOk (done ++ rest)) : GroupsOk done where
  keys := (List.nodup_append.mp (by simpa using ok.keys)).1
  size := by
    have hsize := ok.size
    rw [List.length_append] at hsize
    omega
  members := fun p hp => ok.members p (List.mem_append_left rest hp)

theorem addGroups_new {done : Groups} {g : UInt32} {ips : List UInt32}
    (ok : GroupsOk (done ++ [(g, ips)])) :
    addGroups done (.ofList multiOptJoin g ips) = (0, done ++ [(g, ips)]) := by
  have hips : MembersOk ips := ok.members (g, ips) (by simp)
  have hlen : ips.length < 2 ^ 32 := Nat.lt_of_le_of_lt hips.size (by decide)
  have hnew : done.findIdx? (fun p => p.1 = (TmccNlServiceSt.ofList multiOptJoin g ips).multiIp) =
      none := by
    have hkeys := ok.keys
    rw [List.map_append, List.nodup_append] at hkeys
    refine List.findIdx?_eq_none_iff.mpr fun p hp => ?_
    rw [decide_eq_false_iff_not]
    exact hkeys.2.2 p.1 (List.mem_map_of_mem hp) g (by simp)
  have haction : (TmccNlServiceSt.ofList multiOptJoin g ips).action = multiOptJoin := rfl
  have hsize := ok.size
  rw [List.length_append, List.length_singleton] at hsize
  unfold addGroups
  rw [hnew]
  simp only [TmccNlServiceSt.ipNum_ofList multiOptJoin g hlen,
    TmccNlServiceSt.ips_ofList multiOptJoin g hlen]
  rw [haction, if_neg (by decide), if_neg (by omega), if_neg (Nat.not_lt.mpr hips.size)]
  rfl

/-- A printed command puts its group behind those of the file. -/
theorem add_updateConfig {cfg : Config} {done : Groups} (hcfg : cfg.getD [] = encode done)
    {g : UInt32} {ips : List UInt32} (ok : GroupsOk (done ++ [(g, ips)])) :
    (Command.add (.ofList multiOptJoin g ips)).updateConfig (multiGrpConfigInit cfg) =
      (0, some (encode (done ++ [(g, ips)]))) := by
  rw [Command.updateConfig, multiGrpConfigInit, hcfg, multiGrpAddToConfig_encode, addGroups_new ok]

theorem updateFile_addArgv {cfg : Config} {done : Groups} (hcfg : cfg.getD [] = encode done)
    {g : UInt32} {ips : List UInt32} (ok : GroupsOk (done ++ [(g, ips)])) :
    updateFile (addArgv g ips) cfg = some (encode (done ++ [(g, ips)])) := by
  have hargv : addArgv g ips ≠ [] := List.cons_ne_nil _ _
  have hips : MembersOk ips := ok.members (g, ips) (by simp)
  rw [updateFile, if_neg hargv, parseArgs_addArgv g hips]
  exact congrArg Prod.snd (add_updateConfig hcfg ok)

theorem runCommand_commandText {cfg : Config} {done : Groups} (hcfg : cfg.getD [] = encode done)
    {g : UInt32} {ips : List UInt32} (ok : GroupsOk (done ++ [(g, ips)])) :
    runCommand cfg (commandText (GrpObj.ofGroup (g, ips))) =
      some (encode (done ++ [(g, ips)])) := by
  unfold runCommand
  rw [words_commandText]
  simp only [if_true]
  exact updateFile_addArgv hcfg ok

/-- The commands add the groups one by one, each behind those that are there. -/
theorem runCommands_encode {rest : Groups} {cfg : Config} {done : Groups}
    (hcfg : cfg.getD [] = encode done) (ok : GroupsOk (done ++ rest)) :
    (runCommands ((encode rest).map commandText) cfg).getD [] = encode (done ++ rest) := by
  induction rest generalizing cfg done with
  | nil =>
    rw [List.append_nil]
    exact hcfg
  | cons p rest ih =>
    obtain ⟨g, ips⟩ := p
    have happend : done ++ (g, ips) :: rest = done ++ [(g, ips)] ++ rest := by simp
    rw [happend] at ok ⊢
    have hrun := runCommand_commandText hcfg ok.of_append
    have hnext : (runCommand cfg (commandText (GrpObj.ofGroup (g, ips)))).getD [] =
        encode (done ++ [(g, ips)]) := by
      rw [hrun]
      rfl
    exact ih hnext ok

theorem recoverLoop_ret {grpArray : List GrpObj}
    (h : ∀ grpObj ∈ grpArray, cmdLength grpObj < cmdSize) :
    recoverLoop grpArray = .ret (grpArray.map commandText) := by
  induction grpArray with
  | nil => rfl
  | cons grpObj grpArray ih =>
    have hfirst : printCommand grpObj = .ret (commandText grpObj) := by
      rw [printCommand_eq, if_pos (h grpObj (List.mem_cons_self ..))]
    rw [recoverLoop, hfirst, ih fun grpObj' hmem => h grpObj' (List.mem_cons_of_mem _ hmem)]
    rfl

theorem cmdLength_lt_of_recoverLoop {grpArray : List GrpObj} {cmds : List (List Char)}
    (h : recoverLoop grpArray = .ret cmds) : ∀ grpObj ∈ grpArray, cmdLength grpObj < cmdSize := by
  induction grpArray generalizing cmds with
  | nil => simp
  | cons grpObj grpArray ih =>
    rw [recoverLoop] at h
    obtain ⟨cmd, hprint, h⟩ := Outcome.bind_eq_ret_iff.mp h
    obtain ⟨rest, hrest, _⟩ := Outcome.bind_eq_ret_iff.mp h
    intro grpObj' hmem
    rcases List.mem_cons.mp hmem with rfl | hmem
    · rw [printCommand_eq] at hprint
      by_contra hbig
      rw [if_neg hbig] at hprint
      cases hprint
    · exact ih hrest grpObj' hmem

/-- The saved file is printed within `cmd`, and the commands rebuild it from an empty one. -/
def SaveRestores (cfg : Config) : Prop :=
  ∃ ret cmds, multiServerConfigRecover cfg = .ret (ret, cmds) ∧
    ∀ empty : Config, empty.getD [] = [] → (runCommands cmds empty).getD [] = cfg.getD []

/-- Every command fits `cmd`. -/
def Printable (cfg : Config) : Prop := ∀ grpObj ∈ cfg.getD [], cmdLength grpObj < cmdSize

instance (cfg : Config) : Decidable (Printable cfg) :=
  inferInstanceAs (Decidable (∀ grpObj ∈ cfg.getD [], cmdLength grpObj < cmdSize))

theorem printable_of_saveRestores {cfg : Config} (h : SaveRestores cfg) : Printable cfg := by
  obtain ⟨ret, cmds, hrecover, _⟩ := h
  cases cfg with
  | none => simp [Printable]
  | some grpArray =>
    obtain ⟨_, hloop, _⟩ := Outcome.bind_eq_ret_iff.mp hrecover
    exact cmdLength_lt_of_recoverLoop hloop

theorem ConfigOk.saveRestores {cfg : Config} (ok : ConfigOk cfg) (h : Printable cfg) :
    SaveRestores cfg := by
  obtain ⟨groups, hcfg, hok⟩ := ok
  cases cfg with
  | none => exact ⟨-1, [], rfl, fun empty hempty => hempty⟩
  | some grpArray =>
    obtain rfl : grpArray = KernelServer.encode groups := hcfg
    refine ⟨0, (KernelServer.encode groups).map commandText, ?_, fun empty hempty => ?_⟩
    · have hloop : recoverLoop (KernelServer.encode groups) = _ := recoverLoop_ret h
      rw [multiServerConfigRecover, hloop]
      rfl
    · have hnone : empty.getD [] = KernelServer.encode [] := hempty
      exact runCommands_encode hnone (show GroupsOk ([] ++ groups) from hok)

/-- A file that successful commands have made is saved and restored exactly where each of its
groups is printed within the buffer. -/
theorem save_restore_iff {cfg : Config} {s : State} (h : Reached jhash1word cfg s) :
    SaveRestores cfg ↔ Printable cfg :=
  ⟨printable_of_saveRestores, h.configOk.saveRestores⟩

/-! ## Groups that fit -/

theorem cmdLength_ofGroup (g : UInt32) (ips : List UInt32) :
    cmdLength (GrpObj.ofGroup (g, ips)) = 19 + (ip2str g).length +
      if ips = [] then 0 else 4 + (ips.map fun ip => (ip2str ip).length + 1).sum := by
  have hmap : (ips.map ip2str).map (fun memIp => memIp.length + 1) =
      ips.map fun ip => (ip2str ip).length + 1 := List.map_map
  rw [cmdLength, GrpObj.ofGroup, hmap]
  simp only [List.map_eq_nil_iff]

theorem cmdLength_bounds (g : UInt32) (ips : List UInt32) :
    8 * ips.length ≤ cmdLength (GrpObj.ofGroup (g, ips)) ∧
      cmdLength (GrpObj.ofGroup (g, ips)) ≤ 38 + 16 * ips.length := by
  have hgroup := DottedQuad.length_inetNtoa g
  have hmember : ∀ n ∈ ips.map (fun ip => (ip2str ip).length + 1), 8 ≤ n ∧ n ≤ 16 := by
    intro n hn
    obtain ⟨ip, _, rfl⟩ := List.mem_map.mp hn
    obtain ⟨hlow, hhigh⟩ := DottedQuad.length_inetNtoa ip
    exact ⟨Nat.succ_le_succ hlow, Nat.succ_le_succ hhigh⟩
  have hlow := List.card_nsmul_le_sum _ 8 fun n hn => (hmember n hn).1
  have hhigh := List.sum_le_card_nsmul _ 16 fun n hn => (hmember n hn).2
  rw [List.length_map, smul_eq_mul] at hlow hhigh
  rw [cmdLength_ofGroup, ip2str]
  split
  · rename_i hnil
    rw [hnil, List.length_nil]
    omega
  · omega

theorem printable_of_length_le {groups : Groups} (h : ∀ p ∈ groups, p.2.length ≤ 253) :
    Printable (some (encode groups)) := by
  intro grpObj hmem
  obtain ⟨⟨g, ips⟩, hp, rfl⟩ := List.mem_map.mp hmem
  have hbound := (cmdLength_bounds g ips).2
  have hlen : ips.length ≤ 253 := h _ hp
  have hsize : cmdSize = 4096 := rfl
  omega

/-! ## A file with one group -/

theorem reached_one_group (jhash1word : UInt32 → UInt32 → UInt32) (g : UInt32)
    {ips : List UInt32} (hips : MembersOk ips) :
    ∃ s, Reached jhash1word (some (encode [(g, ips)])) s := by
  have hlen : ips.length < 2 ^ 32 := Nat.lt_of_le_of_lt hips.size (by decide)
  have hnum := TmccNlServiceSt.ipNum_ofList multiOptJoin g hlen
  have hok : GroupsOk ([] ++ [(g, ips)]) :=
    ⟨List.nodup_singleton g, Nat.le_add_left 1 1023, by simpa using hips⟩
  have hconfig := add_updateConfig (show Option.getD none [] = encode [] from rfl) hok
  obtain ⟨s, hs⟩ : ∃ s, tmccRcvSkb jhash1word multiNodeInit
      (.serviceAdd (.ofList multiOptJoin g ips)) = .ret (0, s) := by
    have haction : (TmccNlServiceSt.ofList multiOptJoin g ips).action = multiOptJoin := rfl
    rw [tmccRcvSkb, multiNlNodeAdd, if_pos haction]
    exact addMultiNode_returns _ (nodeOf_multiNodeInit g) (show 0 < multiGrpMax by decide) rfl
      (show 0 < 256 by decide) rfl (by rw [hnum]; exact hips.size)
  refine ⟨s, Reached.init.step (addArgv g ips) ?_⟩
  have hargv : addArgv g ips ≠ [] := List.cons_ne_nil _ _
  rw [multisAdmin, if_neg hargv, parseArgs_addArgv g hips]
  simp only [Command.run, hconfig, Command.message, hs]
  rfl

/-- `225.0.0.1` with the one member `10.0.0.1` is saved and restored. -/
theorem save_restore_one : SaveRestores (some (encode [(0xE1000001, [0x0A000001])])) := by
  have hips : MembersOk [0x0A000001] :=
    ⟨List.nodup_singleton _, by decide, List.forall_mem_singleton.mpr rfl⟩
  obtain ⟨s, hs⟩ := reached_one_group (fun a _ => a) 0xE1000001 hips
  exact (save_restore_iff hs).mpr (printable_of_length_le (by simp))

/-- `10.0.0.0` and the 511 addresses behind it. -/
def manyMembers : List UInt32 := (List.range 512).map fun i => 0x0A000000 + UInt32.ofNat i

theorem toNat_manyMembers {i : Nat} (hi : i < 512) :
    ((0x0A000000 : UInt32) + UInt32.ofNat i).toNat = 0x0A000000 + i := by
  rw [UInt32.toNat_add, UInt32.toNat_ofNat_of_lt' (by simp [UInt32.size]; omega)]
  simp
  omega

theorem manyMembers_ok : MembersOk manyMembers where
  nodup := by
    refine List.Nodup.map_on (fun i hi j hj he => ?_) List.nodup_range
    have hnat := congrArg UInt32.toNat he
    rw [toNat_manyMembers (List.mem_range.mp hi), toNat_manyMembers (List.mem_range.mp hj)] at hnat
    omega
  size := by
    rw [manyMembers, List.length_map, List.length_range]
    decide
  unicast := by
    intro ip hip
    obtain ⟨i, hi, rfl⟩ := List.mem_map.mp hip
    have hnat := toNat_manyMembers (List.mem_range.mp hi)
    have hlt := List.mem_range.mp hi
    have hsmall : ¬ (0xE0000000 : UInt32) ≤ 0x0A000000 + UInt32.ofNat i := by
      rw [UInt32.le_iff_toNat_le, hnat]
      simp
      omega
    simp [isMulticast, hsmall]

/-- The command of a group with 512 members is longer than the buffer. -/
theorem not_save_restore : ¬ ∀ (jhash1word : UInt32 → UInt32 → UInt32) (cfg : Config) (s : State),
    Reached jhash1word cfg s → SaveRestores cfg := by
  intro h
  obtain ⟨s, hs⟩ := reached_one_group (fun a _ => a) 0xE1000001 manyMembers_ok
  have hprint := printable_of_saveRestores (h _ _ s hs) (GrpObj.ofGroup (0xE1000001, manyMembers))
    (List.mem_singleton_self _)
  have hlen : manyMembers.length = 512 := by rw [manyMembers, List.length_map, List.length_range]
  have hlong := (cmdLength_bounds 0xE1000001 manyMembers).1
  rw [hlen] at hlong
  exact absurd hprint (Nat.not_lt.mpr hlong)

end MulticastProxy.KernelServer
