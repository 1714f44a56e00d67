import MulticastProxy.KernelClient.Fill
import MulticastProxy.Library.CString

/-!
# Kernel client: save and restore (`tools/multi_config_control/json_config.c`)

`multi_client_config_recover` prints one `multic_admin` command for each entry of a saved config file
and has the shell run it. The commands rebuild the file and the kernel table.
-/

namespace MulticastProxy.KernelClient

set_option autoImplicit false

open CommandLine CharBuffer

abbrev cmdSize : Nat := 1024

def multiClientShellCmd : List Char := "multic_admin".toList

/-- One round of the loop over the entries: the text that it leaves in `cmd`. -/
def printCommand (grpObj : GrpObj) : Outcome (List Char) :=
  sprintf cmdSize []
    (multiClientShellCmd ++ " -A -m ".toList ++ grpObj.groupIp ++ " -i ".toList ++
      grpObj.serverIp ++ " -p ".toList ++ Nat.toDigits 10 grpObj.port)

/-- The commands that `system` gets, in order. -/
def recoverLoop : List GrpObj → Outcome (List (List Char))
  | [] => .ret []
  | grpObj :: grpArray => do
    let cmd ← printCommand grpObj
    let cmds ← recoverLoop grpArray
    .ret (cmd :: cmds)

def multiClientConfigRecover (cfg : Config) : Outcome (Int × List (List Char)) :=
  match cfg with
  | none => .ret (-1, [])
  | some grpArray => do
    let cmds ← recoverLoop grpArray
    .ret (0, cmds)

section
variable (jhash2words : UInt32 → UInt32 → UInt32 → UInt32)

/-- `system`; the shell answers 127 for a program it does not know. -/
def runCommand (cmd : List Char) (cfg : Config) (s : State) : Outcome (Int × Config × State) :=
  match words cmd with
  | [] => .ret (0, cfg, s)
  | prog :: argv =>
    if prog = multiClientShellCmd then multicAdmin jhash2words argv cfg s else .ret (127, cfg, s)

/-- Exit codes of the commands, then config file and kernel table. -/
def runCommands : List (List Char) → Config → State → Outcome (List Int × Config × State)
  | [], cfg, s => .ret ([], cfg, s)
  | cmd :: cmds, cfg, s => do
    let (code, cfg, s) ← runCommand jhash2words cmd cfg s
    let (codes, cfg, s) ← runCommands cmds cfg s
    .ret (code :: codes, cfg, s)

end

variable {jhash2words : UInt32 → UInt32 → UInt32 → UInt32}

/-! ## Printing and reading a port -/

theorem head_toDigits {n : Nat} (hn : 0 < n) : (Nat.toDigits 10 n).head? ≠ some '0' := by
  induction n using Nat.strong_induction_on with
  | h n ih =>
    by_cases hsmall : n < 10
    · rw [Nat.toDigits_of_lt_base hsmall]
      intro he
      have hchar : Nat.digitChar n = '0' := Option.some.inj he
      interval_cases n <;> simp [Nat.digitChar] at hchar
    · have hrest := ih (n / 10) (by omega) (by omega)
      rw [Nat.toDigits_of_base_le (by decide) (by omega), List.head?_append]
      cases hdigits : Nat.toDigits 10 (n / 10) with
      | nil => exact absurd hdigits Nat.toDigits_ne_nil
      | cons ch digits =>
        rw [hdigits] at hrest
        exact hrest

theorem parseU32_toDigits {n : Nat} (hn : n ≤ 0xffffffff) (num : UInt32) :
    parseU32 kernelTools (some (Nat.toDigits 10 n)) (some num) = (0, some (UInt32.ofNat n)) := by
  have hdigits : ∀ ch ∈ Nat.toDigits 10 n, ch.isDigit := fun ch hch =>
    Nat.isDigit_of_mem_toDigits (by decide) (by decide) hch
  have hvalue : baseZero (Nat.toDigits 10 n) = n := by
    unfold baseZero
    rcases Nat.eq_zero_or_pos n with rfl | hpos
    · rfl
    · rw [if_neg (head_toDigits hpos), Nat.ofDigitChars_ten_toDigits]
  rw [parseU32_digits hdigits, hvalue, if_pos hn]

theorem blank_not_mem_toDigits (n : Nat) : ∀ ch ∈ Nat.toDigits 10 n, ch ≠ ' ' := by
  rintro _ hch rfl
  have hdigit := Nat.isDigit_of_mem_toDigits (by decide) (by decide) hch
  simp at hdigit

/-! ## The printed command -/

/-- The words of a printed command behind the program's name. -/
def addArgv (e : Key × UInt32) : List Word :=
  ["-A".toList, "-m".toList, ip2str e.2, "-i".toList, ip2str e.1.1, "-p".toList,
    Nat.toDigits 10 e.1.2.toNat]

def commandText (e : Key × UInt32) : List Char :=
  multiClientShellCmd ++
    ' ' :: ("-A".toList ++ ' ' :: ("-m".toList ++ ' ' :: (ip2str e.2 ++
      ' ' :: ("-i".toList ++ ' ' :: (ip2str e.1.1 ++
        ' ' :: ("-p".toList ++ ' ' :: Nat.toDigits 10 e.1.2.toNat))))))

theorem printCommand_ofEntry (e : Key × UInt32) :
    printCommand (GrpObj.ofEntry e) = .ret (commandText e) := by
  have hgroup := (DottedQuad.length_inetNtoa e.2).2
  have hserver := (DottedQuad.length_inetNtoa e.1.1).2
  have hport : (Nat.toDigits 10 e.1.2.toNat).length ≤ 5 := by
    have hlt := e.1.2.toNat_lt
    rw [Nat.length_toDigits_le_iff (by decide) (by decide)]
    omega
  have htext : multiClientShellCmd ++ " -A -m ".toList ++ (GrpObj.ofEntry e).groupIp ++
      " -i ".toList ++ (GrpObj.ofEntry e).serverIp ++ " -p ".toList ++
      Nat.toDigits 10 (GrpObj.ofEntry e).port = commandText e := by
    simp [commandText, GrpObj.ofEntry]
  have hlen : ([] : List Char).length + (commandText e).length < cmdSize := by
    have hprog : multiClientShellCmd.length = 12 := rfl
    have hopt : "-A".toList.length = 2 ∧ "-m".toList.length = 2 ∧ "-i".toList.length = 2 ∧
        "-p".toList.length = 2 := ⟨rfl, rfl, rfl, rfl⟩
    obtain ⟨hA, hm, hi, hp⟩ := hopt
    rw [commandText]
    simp only [List.length_append, List.length_cons, List.length_nil, hprog, hA, hm, hi, hp, ip2str]
    have hsize : cmdSize = 1024 := rfl
    omega
  unfold printCommand
  rw [htext, sprintf_of_lt hlen, List.nil_append]

theorem recoverLoop_ofEntry (es : Entries) :
    recoverLoop (es.map GrpObj.ofEntry) = .ret (es.map commandText) := by
  induction es with
  | nil => rfl
  | cons e es ih =>
    rw [List.map_cons, recoverLoop, printCommand_ofEntry, ih]
    rfl

/-! ## Reading the command -/

theorem words_commandText (e : Key × UInt32) :
    words (commandText e) = multiClientShellCmd :: addArgv e := by
  have hip : ∀ ip, ∀ ch ∈ ip2str ip, ch ≠ ' ' := by
    rintro ip _ hch rfl
    exact blank_not_mem ip hch
  have hadd : ∀ rest, words (multiClientShellCmd ++ ' ' :: ("-A".toList ++ ' ' ::
      ("-m".toList ++ ' ' :: rest))) =
      multiClientShellCmd :: "-A".toList :: "-m".toList :: words rest := fun _ => rfl
  have hserver : ∀ rest, words ("-i".toList ++ ' ' :: rest) = "-i".toList :: words rest :=
    fun _ => rfl
  have hport : ∀ rest, words ("-p".toList ++ ' ' :: rest) = "-p".toList :: words rest :=
    fun _ => rfl
  unfold commandText addArgv
  rw [hadd, words_cons (ip2str_ne_nil _) (hip _), hserver, words_cons (ip2str_ne_nil _) (hip _),
    hport, words_last Nat.toDigits_ne_nil (blank_not_mem_toDigits _)]

theorem parseArgs_addArgv (e : Key × UInt32) :
    parseArgs (addArgv e) = .ok (.add ⟨e.1.2, e.1.1, e.2⟩) := by
  obtain ⟨⟨ip, port⟩, g⟩ := e
  have hlt := port.toNat_lt
  have hport := parseU32_toDigits (n := port.toNat) (by omega) 0
  have hsmall : port.toUInt32 ≤ 65535 := by
    rw [UInt32.le_iff_toNat_le, UInt16.toNat_toUInt32]
    change port.toNat ≤ 65535
    omega
  have hevents : getopt options (addArgv ((ip, port), g)) =
      [.opt 'A' [], .opt 'm' (ip2str g), .opt 'i' (ip2str ip),
        .opt 'p' (Nat.toDigits 10 port.toNat)] := rfl
  have hA : Args.init.read (.opt 'A' []) = .ok ⟨some .add, 0, ⟨0, 0, 0⟩⟩ := rfl
  have hm : Args.read ⟨some .add, 0, ⟨0, 0, 0⟩⟩ (.opt 'm' (ip2str g)) =
      .ok ⟨some .add, optMultiIp, ⟨0, 0, g⟩⟩ := by
    simp [Args.read]
  have hi : Args.read ⟨some .add, optMultiIp, ⟨0, 0, g⟩⟩ (.opt 'i' (ip2str ip)) =
      .ok ⟨some .add, optMultiIp ||| optServerIp, ⟨0, ip, g⟩⟩ := by
    have hmask : optMultiIp &&& optServerIp = 0 := by decide
    simp [Args.read, hmask]
  have hp : Args.read ⟨some .add, optMultiIp ||| optServerIp, ⟨0, ip, g⟩⟩
      (.opt 'p' (Nat.toDigits 10 port.toNat)) =
      .ok ⟨some .add, optMultiIp ||| optServerIp ||| optClientPort, ⟨port, ip, g⟩⟩ := by
    have hmask : (optMultiIp ||| optServerIp) &&& optClientPort = 0 := by decide
    simp [Args.read, hmask, hport, hsmall]
  have hargs : (getopt options (addArgv ((ip, port), g))).foldlM Args.read .init =
      .ok ⟨some .add, optMultiIp ||| optServerIp ||| optClientPort, ⟨port, ip, g⟩⟩ := by
    rw [hevents, foldlM_ok_cons hA, foldlM_ok_cons hm, foldlM_ok_cons hi, foldlM_ok_cons hp]
    rfl
  have hbind : parseArgs (addArgv ((ip, port), g)) =
      ((getopt options (addArgv ((ip, port), g))).foldlM Args.read .init >>=
        fun a => a.command) := rfl
  rw [hbind, hargs]
  rfl

/-! ## The round trip -/

/-- A process that returns has left the table as it was or sent it one message. -/
theorem multicAdmin_table {argv : List Word} {cfg cfg' : Config} {s s' : State} {code : Int}
    (h : multicAdmin jhash2words argv cfg s = .ret (code, cfg', s')) :
    s' = s ∨ ∃ msg ret, tmccRcvSkb jhash2words s msg = .ret (ret, s') := by
  unfold multicAdmin at h
  split at h
  · simp only [Outcome.ret.injEq, Prod.mk.injEq] at h
    exact Or.inl h.2.2.symm
  · split at h
    · simp only [Outcome.ret.injEq, Prod.mk.injEq] at h
      exact Or.inl h.2.2.symm
    · rename_i cmd _
      cases cmd with
      | add service =>
        simp only [Command.run, tmccNlServiceAdd] at h
        split at h
        · simp only [Outcome.ret.injEq, Prod.mk.injEq] at h
          exact Or.inl h.2.2.symm
        · obtain ⟨⟨ret, t⟩, hadd, hret⟩ := Outcome.bind_eq_ret_iff.mp h
          simp only [Outcome.ret.injEq, Prod.mk.injEq] at hret
          exact Or.inr ⟨_, ret, hret.2.2 ▸ hadd⟩
      | del service =>
        simp only [Command.run, tmccNlServiceDel] at h
        split at h
        · simp only [Outcome.ret.injEq, Prod.mk.injEq] at h
          exact Or.inl h.2.2.symm
        · obtain ⟨⟨ret, t⟩, hdel, hret⟩ := Outcome.bind_eq_ret_iff.mp h
          simp only [Outcome.ret.injEq, Prod.mk.injEq] at hret
          exact Or.inr ⟨_, ret, hret.2.2 ▸ hdel⟩
      | clear =>
        obtain ⟨⟨ret, t⟩, hclear, hret⟩ := Outcome.bind_eq_ret_iff.mp h
        simp only [Outcome.ret.injEq, Prod.mk.injEq] at hret
        exact Or.inr ⟨_, ret, hret.2.2 ▸ hclear⟩
      | print cmd service => exact Or.inl (Command.run_print h).2

theorem Run.reachable {cfg : Config} {s : State} (h : Run jhash2words cfg s) :
    Reachable jhash2words s := by
  induction h with
  | init => exact .init
  | step _ hrun ih =>
    rcases multicAdmin_table hrun with rfl | ⟨msg, ret, hstep⟩
    · exact ih
    · exact ih.step hstep

theorem multiGrpAddToConfig_new {es : Entries} {k : Key} (hroom : es.length < multiGrpMax)
    (hnew : AssocList.get es k = none) (g : UInt32) :
    multiGrpAddToConfig (some (es.map GrpObj.ofEntry)) ⟨k.2, k.1, g⟩ =
      (0, some ((es ++ [(k, g)]).map GrpObj.ofEntry)) := by
  unfold multiGrpAddToConfig
  simp only [List.length_map, findIdx?_ofEntry]
  rw [if_neg (by omega), AssocList.index_eq_none_iff.mpr hnew]
  simp [GrpObj.ofEntry]

/-- One printed command puts its entry behind those of the file and into the table. -/
theorem Sim.runCommand {es : Entries} {s : State} (sim : Sim jhash2words es s) {e : Key × UInt32}
    (h : Loadable jhash2words (es.map Prod.fst ++ [e.1])) {cfg : Config}
    (hcfg : cfg.getD [] = es.map GrpObj.ofEntry) :
    ∃ s', runCommand jhash2words (commandText e) cfg s =
        .ret (0, some ((es ++ [e]).map GrpObj.ofEntry), s') ∧
      Sim jhash2words (es ++ [e]) s' := by
  obtain ⟨s', hadd, sim'⟩ := sim.addMultiNode h
  refine ⟨s', ?_, sim'⟩
  have hargv : addArgv e ≠ [] := List.cons_ne_nil _ _
  have hconfig := multiGrpAddToConfig_new h.length_lt h.get_eq_none e.2
  unfold KernelClient.runCommand
  rw [words_commandText]
  simp only [if_true, multicAdmin, hargv, if_false, parseArgs_addArgv, Command.run,
    tmccNlServiceAdd, multiGrpConfigInit, hcfg, hconfig, ne_eq, not_true_eq_false, tmccRcvSkb, hadd,
    Outcome.ret_bind]

/-- The commands add the entries one by one, each behind those that are there. -/
theorem Sim.runCommands {rest done : Entries} {s : State} (sim : Sim jhash2words done s)
    (h : Loadable jhash2words ((done ++ rest).map Prod.fst)) {cfg : Config}
    (hcfg : cfg.getD [] = done.map GrpObj.ofEntry) :
    ∃ cfg' s', runCommands jhash2words (rest.map commandText) cfg s =
        .ret (List.replicate rest.length 0, cfg', s') ∧
      cfg'.getD [] = (done ++ rest).map GrpObj.ofEntry ∧ Sim jhash2words (done ++ rest) s' := by
  induction rest generalizing done s cfg with
  | nil =>
    rw [List.append_nil]
    exact ⟨cfg, s, rfl, hcfg, sim⟩
  | cons e rest ih =>
    have happend : done ++ e :: rest = done ++ [e] ++ rest := by simp
    rw [happend] at h ⊢
    have hnext : Loadable jhash2words (done.map Prod.fst ++ [e.1]) := by
      rw [List.map_append, List.map_append] at h
      exact h.of_append
    obtain ⟨s1, hrun, sim1⟩ := sim.runCommand hnext hcfg
    have hcfg1 : (some ((done ++ [e]).map GrpObj.ofEntry)).getD [] =
        (done ++ [e]).map GrpObj.ofEntry := rfl
    obtain ⟨cfg', s', hrest, hcfg', sim'⟩ := ih sim1 h hcfg1
    refine ⟨cfg', s', ?_, hcfg', sim'⟩
    rw [List.map_cons, KernelClient.runCommands, hrun, Outcome.ret_bind]
    simp only [hrest, Outcome.ret_bind, List.length_cons, List.replicate_succ]

/-- The commands that a saved config prints succeed one and all, and rebuild it and its table from
nothing. -/
def SaveRestores (jhash2words : UInt32 → UInt32 → UInt32 → UInt32) (cfg : Config) : Prop :=
  ∃ ret cmds, multiClientConfigRecover cfg = .ret (ret, cmds) ∧
    cmds.length = (cfg.getD []).length ∧
    ∀ (empty : Config) (s0 : State), empty.getD [] = [] →
      (∀ b i, (s0.multiGrp b i).created = false) → s0.nodeCnt = 0 →
      ∃ cfg' s', runCommands jhash2words cmds empty s0 =
          .ret (List.replicate cmds.length 0, cfg', s') ∧
        cfg'.getD [] = cfg.getD [] ∧ Agree jhash2words cfg' s' ∧
        s'.nodeCnt = (cfg.getD []).length

theorem save_restore {cfg : Config} {s : State} (h : Run jhash2words cfg s) :
    SaveRestores jhash2words cfg := by
  obtain ⟨es, hcfg, sim⟩ := h.synced
  have hget : cfg.getD [] = es.map GrpObj.ofEntry := Option.some.inj hcfg
  have hload := sim.loadable h.reachable.rowsOk
  have hrecover : ∃ ret, multiClientConfigRecover cfg = .ret (ret, es.map commandText) := by
    cases cfg with
    | none =>
      have hnil : es = [] := by simpa using hget
      exact ⟨-1, by rw [hnil]; rfl⟩
    | some grpArray =>
      obtain rfl : grpArray = es.map GrpObj.ofEntry := hget
      exact ⟨0, by rw [multiClientConfigRecover, recoverLoop_ofEntry]; rfl⟩
  obtain ⟨ret, hret⟩ := hrecover
  refine ⟨ret, es.map commandText, hret, by rw [hget, List.length_map, List.length_map], ?_⟩
  intro empty s0 hempty hfree hcnt
  have sim0 : Sim jhash2words [] s0 := by
    refine ⟨wellFormed_of_free hfree hcnt, List.nodup_nil, ?_⟩
    funext k
    rw [entry_of_free hfree, AssocList.get_nil]
  have hload0 : Loadable jhash2words (([] ++ es).map Prod.fst) := hload
  obtain ⟨cfg', s', hrun, hcfg', sim'⟩ := sim0.runCommands hload0 hempty
  rw [List.nil_append] at hcfg' sim'
  have hsynced : Synced jhash2words cfg' s' := ⟨es, congrArg some hcfg', sim'⟩
  refine ⟨cfg', s', ?_, hcfg'.trans hget.symm, hsynced.agree, ?_⟩
  · rw [hrun, List.length_map]
  · rw [hget, List.length_map, ← sim'.length]

/-- One entry, saved and restored. -/
theorem save_restore_after_add : SaveRestores (fun a _ _ => a)
    (some [⟨ip2str 0x0A000001, ip2str 0xE1000001, 5000⟩]) := by
  obtain ⟨s, hs, _⟩ := addMultiNode_multiNodeInit (fun a _ _ => a) 0xE1000001 0x0A000001 5000
  have hparse := parseArgs_addArgv ((0x0A000001, 5000), 0xE1000001)
  have hargv : addArgv ((0x0A000001, 5000), 0xE1000001) ≠ [] := List.cons_ne_nil _ _
  have hcfg : multiGrpAddToConfig (multiGrpConfigInit none) ⟨5000, 0x0A000001, 0xE1000001⟩ =
      (0, some [⟨ip2str 0x0A000001, ip2str 0xE1000001, 5000⟩]) := rfl
  have hrun : multicAdmin (fun a _ _ => a) (addArgv ((0x0A000001, 5000), 0xE1000001)) none
      multiNodeInit = .ret (0, some [⟨ip2str 0x0A000001, ip2str 0xE1000001, 5000⟩], s) := by
    simp only [multicAdmin, hargv, hparse, Command.run, tmccNlServiceAdd, hcfg, tmccRcvSkb, hs]
    rfl
  exact save_restore (Run.init.step hrun)

end MulticastProxy.KernelClient
