import MulticastProxy.KernelServer.Members
import MulticastProxy.KernelServer.ConfigMap

/-!
# Kernel server: config file and module under many processes

The file is updated under its lock and the module acts on one message at a time, but nothing ties
the order of the messages to the order of the updates.
-/

namespace MulticastProxy.KernelServer

set_option autoImplicit false

open Replay

/-- The two stores and the processes under way: those that have read their arguments, and those
that have updated the file and not sent their message, in the order of the updates. -/
structure Sys where
  cfg : Config
  kernel : State
  starting : List Command
  pending : List Command

def Sys.init : Sys := ⟨none, multiNodeInit, [], []⟩

section
variable (jhash1word : UInt32 → UInt32 → UInt32)

/-- A step of one process, accepted. `allowed` sees a process that sends its message, and those
that were earlier at the file and have yet to send. -/
inductive Step (allowed : Sys → List Command → Command → Prop) : Sys → Sys → Prop where
  | start {sys : Sys} {argv : List CommandLine.Word} {cmd : Command} :
      parseArgs argv = .ok cmd → cmd.message.isSome = true →
      Step allowed sys { sys with
        cfg := multiGrpConfigInit sys.cfg
        starting := sys.starting ++ [cmd] }
  | update {sys : Sys} (before : List Command) {cmd : Command} (after : List Command)
      {cfg : Config} :
      sys.starting = before ++ cmd :: after → cmd.updateConfig sys.cfg = (0, cfg) →
      Step allowed sys { sys with
        cfg
        starting := before ++ after
        pending := sys.pending ++ [cmd] }
  | send {sys : Sys} (before : List Command) {cmd : Command} (after : List Command)
      {msg : NlMessage} {kernel : State} :
      sys.pending = before ++ cmd :: after → cmd.message = some msg →
      tmccRcvSkb jhash1word sys.kernel msg = .ret (0, kernel) → allowed sys before cmd →
      Step allowed sys { sys with
        kernel
        pending := before ++ after }

/-- States after any interleaving of any number of processes. -/
def Run (allowed : Sys → List Command → Command → Prop) (sys : Sys) : Prop :=
  Relation.ReflTransGen (Step jhash1word allowed) Sys.init sys

/-- The message overtakes none that it conflicts with, and makes no group beyond the 256th. -/
def SendFits (sys : Sys) (before : List Command) (cmd : Command) : Prop :=
  (∀ p ∈ before, ¬ p.Conflict cmd) ∧
    ∀ msg, cmd.message = some msg → PoolRoom jhash1word sys.kernel msg

/-- The module is behind the file by exactly the messages under way. -/
structure Sys.Ok (sys : Sys) : Prop where
  config : ConfigOk sys.cfg
  kernel : KernelOk jhash1word sys.kernel
  starting : ∀ cmd ∈ sys.starting, cmd.Parsed
  pending : ∀ cmd ∈ sys.pending, cmd.Parsed
  maps : configMap sys.cfg =
    replay Command.apply sys.pending (memberMap jhash1word sys.kernel)

end

variable {jhash1word : UInt32 → UInt32 → UInt32}

theorem Sys.init_ok : Sys.init.Ok jhash1word where
  config := configOk_none
  kernel := kernelOk_init
  starting := by simp [Sys.init]
  pending := by simp [Sys.init]
  maps := by
    funext g
    simp [Sys.init, configMap, memberMap, lookupMultiNode_eq]

theorem Sys.Ok.step {sys sys' : Sys} (ok : sys.Ok jhash1word)
    (h : Step jhash1word (SendFits jhash1word) sys sys') : sys'.Ok jhash1word := by
  cases h with
  | @start argv cmd hparse _ =>
    refine ⟨ok.config.init, ok.kernel, ?_, ok.pending, ok.maps⟩
    intro c hc
    rcases List.mem_append.mp hc with hc | hc
    · exact ok.starting c hc
    · rw [List.mem_singleton.mp hc]
      exact parseArgs_parsed hparse
  | @update before cmd after cfg hstarting hupdate =>
    have hparsed : cmd.Parsed := ok.starting cmd (by simp [hstarting])
    obtain ⟨hconfig, hmap⟩ := ok.config.update hparsed hupdate
    refine ⟨hconfig, ok.kernel, ?_, ?_, ?_⟩
    · intro c hc
      apply ok.starting c
      rw [hstarting]
      rcases List.mem_append.mp hc with hc | hc <;> simp [hc]
    · intro c hc
      rcases List.mem_append.mp hc with hc | hc
      · exact ok.pending c hc
      · rw [List.mem_singleton.mp hc]
        exact hparsed
    · rw [hmap, ok.maps, replay_write]
  | @send before cmd after msg kernel hpending hmsg hsend hfits =>
    have hparsed : cmd.Parsed := ok.pending cmd (by simp [hpending])
    obtain ⟨hkernel, hmap⟩ := ok.kernel.send hparsed.distinct hmsg (hfits.2 msg hmsg) hsend
    refine ⟨ok.config, hkernel, ok.starting, ?_, ?_⟩
    · intro c hc
      apply ok.pending c
      rw [hpending]
      rcases List.mem_append.mp hc with hc | hc <;> simp [hc]
    · have hcomm : ∀ p ∈ before, Commute Command.apply p cmd :=
        fun p hp => Command.commute_iff.mpr (hfits.1 p hp)
      rw [ok.maps, hpending, hmap, replay_deliver hcomm]

theorem Run.ok {sys : Sys} (h : Run jhash1word (SendFits jhash1word) sys) :
    sys.Ok jhash1word := by
  induction h with
  | refl => exact Sys.init_ok
  | tail _ hstep ih => exact ih.step hstep

/-- Once every update of the file has been followed by its message, as when all processes have
finished, the two stores hold the same map. -/
theorem two_parties_agree {sys : Sys} (h : Run jhash1word (SendFits jhash1word) sys)
    (hpending : sys.pending = []) : configMap sys.cfg = memberMap jhash1word sys.kernel := by
  rw [h.ok.maps, hpending, replay_nil]

/-! ## One process, and one overtaken by another -/

def joinService : TmccNlServiceSt := .ofList multiOptJoin 0xE1000001 [0x0A000001]

def delService : TmccNlServiceSt := .ofList multiOptJoin 0xE1000001 []

theorem parseArgs_join : ∃ argv, parseArgs argv = .ok (.add joinService) :=
  ⟨CommandLine.words "-A -m 225.0.0.1 -j 10.0.0.1".toList, rfl⟩

theorem parseArgs_del : ∃ argv, parseArgs argv = .ok (.del delService) :=
  ⟨CommandLine.words "-D -m 225.0.0.1".toList, rfl⟩

def joinedConfig : Config := some [⟨ip2str 0xE1000001, [ip2str 0x0A000001]⟩]

theorem join_updateConfig : (Command.add joinService).updateConfig (some []) = (0, joinedConfig) :=
  rfl

theorem del_updateConfig : (Command.del delService).updateConfig joinedConfig = (0, some []) := rfl

theorem memberMap_join (jhash1word : UInt32 → UInt32 → UInt32) :
    ∃ s, tmccRcvSkb jhash1word multiNodeInit (.serviceAdd joinService) = .ret (0, s) ∧
      memberMap jhash1word s 0xE1000001 = some {0x0A000001} := by
  obtain ⟨s, hs, cnt, idx, hfound⟩ := joinMessage_multiNodeInit jhash1word 0xE1000001
    (show [0x0A000001].length ≤ multiVmMax by decide)
  refine ⟨s, hs, ?_⟩
  rw [memberMap, hfound]
  simp

theorem two_parties_agree_after_join : ∃ sys : Sys, sys.starting = [] ∧ sys.pending = [] ∧
    memberMap (fun _ _ => 0) sys.kernel 0xE1000001 = some {0x0A000001} ∧
    configMap sys.cfg = memberMap (fun _ _ => 0) sys.kernel := by
  obtain ⟨argv, hparse⟩ := parseArgs_join
  obtain ⟨s, hs, hmap⟩ := memberMap_join fun _ _ => 0
  have hfits : SendFits (fun _ _ => 0)
      ⟨joinedConfig, multiNodeInit, [], [.add joinService]⟩ [] (.add joinService) := by
    refine ⟨by simp, ?_⟩
    rintro msg hmsg
    obtain rfl := Option.some.inj hmsg
    intro _ _
    simp
  refine ⟨⟨joinedConfig, s, [], []⟩, rfl, rfl, hmap, two_parties_agree ?_ rfl⟩
  refine .tail (.tail (.tail .refl (.start hparse rfl))
    (.update [] [] rfl join_updateConfig)) ?_
  exact .send [] [] rfl rfl hs hfits

/-- The process that deletes the group is second at the file and first at the module. -/
theorem not_two_parties_agree : ¬ ∃ jhash1word : UInt32 → UInt32 → UInt32, ∀ sys : Sys,
    Run jhash1word (fun _ _ _ => True) sys → sys.starting = [] → sys.pending = [] →
      configMap sys.cfg = memberMap jhash1word sys.kernel := by
  rintro ⟨jhash1word, hagree⟩
  obtain ⟨argv, hparse⟩ := parseArgs_join
  obtain ⟨argv', hparse'⟩ := parseArgs_del
  obtain ⟨s, hs, hmap⟩ := memberMap_join jhash1word
  have hdel : tmccRcvSkb jhash1word multiNodeInit (.serviceDel delService) =
      .ret (0, multiNodeInit) := by
    have wf : WellFormed jhash1word multiNodeInit := multiNodeInit_wellFormed
    rcases delMultiNode_cases wf delService.multiIp with ⟨_, hd⟩ | ⟨node, _, _, hgone⟩
    · rw [tmccRcvSkb, multiNlNodeDelete, hd]
    · simpa using hgone.found
  have hboth : Run jhash1word (fun _ _ _ => True)
      ⟨some [], multiNodeInit, [], [.add joinService, .del delService]⟩ :=
    .tail (.tail (.tail (.tail .refl (.start hparse rfl)) (.update [] [] rfl join_updateConfig))
      (.start hparse' rfl)) (.update [] [] rfl del_updateConfig)
  have hovertaken : Run jhash1word (fun _ _ _ => True)
      ⟨some [], multiNodeInit, [], [.add joinService]⟩ :=
    hboth.tail (.send [.add joinService] [] rfl rfl hdel trivial)
  have hrun : Run jhash1word (fun _ _ _ => True) ⟨some [], s, [], []⟩ :=
    hovertaken.tail (.send [] [] rfl rfl hs trivial)
  have hg := congrFun (hagree _ hrun rfl rfl) 0xE1000001
  rw [hmap] at hg
  simp [configMap] at hg

end MulticastProxy.KernelServer
