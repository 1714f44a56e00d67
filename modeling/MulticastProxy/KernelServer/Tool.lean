import MulticastProxy.KernelServer.Config
import MulticastProxy.KernelServer.Replies

/-!
# Kernel server tool: one process (`tools/multi_server_control/app_control.c`)

A `multis_admin` process updates the config file and then sends one message to the kernel. The
kernel answers, and the caller's buffer can be written.
-/

namespace MulticastProxy.KernelServer

set_option autoImplicit false

open CommandLine

/-- The update of the config file; the result of the clear is not looked at. -/
def Command.updateConfig (cfg : Config) : Command → Int × Config
  | .add service => multiGrpAddToConfig cfg service
  | .del service => multiGrpDelFromConfig cfg service
  | .clear => (0, (multiServerConfigClear cfg).2)
  | .print _ _ => (0, cfg)

def Command.message : Command → Option NlMessage
  | .add service => some (.serviceAdd service)
  | .del service => some (.serviceDel service)
  | .clear => some .serverClear
  | .print _ _ => none

variable (jhash1word : UInt32 → UInt32 → UInt32)

/-- The code that the reply to LIST, SHOW or STATS is sent with. What `k_service` held before is not
in it. -/
def Command.replyCode (s : State) : Command → Outcome Int
  | .print .list service => do
    let (ret, _) ← listMultiNodeAndVmIp jhash1word s service.multiIp ⟨0, 0, 0, fun _ => 0⟩
    .ret ret
  | .print .show _ => do
    let (ret, _) ← getAllMultiGrp s ⟨0, 0, 0, fun _ => 0⟩
    .ret ret
  | _ => .ret 0

/-- `tmcc_nl_service_add` and its siblings: nothing is sent where the config was not updated, and
nothing is undone where the kernel refuses. -/
def Command.run (cmd : Command) (cfg : Config) (s : State) : Outcome (Int × Config × State) :=
  if (cmd.updateConfig cfg).1 ≠ 0 then .ret (-1, (cmd.updateConfig cfg).2, s)
  else
    match cmd.message with
    | none => do
      let ret ← cmd.replyCode jhash1word s
      .ret (ret, (cmd.updateConfig cfg).2, s)
    | some msg => do
      let (ret, s) ← tmccRcvSkb jhash1word s msg
      .ret (ret, (cmd.updateConfig cfg).2, s)

/-- A whole process: exit code, config file and kernel table. -/
def multisAdmin (argv : List Word) (cfg : Config) (s : State) : Outcome (Int × Config × State) :=
  if argv = [] then .ret (0, cfg, s)
  else
    match parseArgs argv with
    | .error ret => .ret (ret, multiGrpConfigInit cfg, s)
    | .ok cmd => cmd.run jhash1word (multiGrpConfigInit cfg) s

/-- What a `multis_admin` process does to the config file. -/
def updateFile (argv : List Word) (cfg : Config) : Config :=
  if argv = [] then cfg
  else
    match parseArgs argv with
    | .error _ => multiGrpConfigInit cfg
    | .ok cmd => (cmd.updateConfig (multiGrpConfigInit cfg)).2

variable {jhash1word}

theorem Command.run_config {cmd : Command} {cfg cfg' : Config} {s s' : State} {ret : Int}
    (h : cmd.run jhash1word cfg s = .ret (ret, cfg', s')) : cfg' = (cmd.updateConfig cfg).2 := by
  unfold Command.run at h
  split at h
  · obtain ⟨_, hret⟩ := Prod.mk.inj (Outcome.ret.inj h)
    exact (Prod.mk.inj hret).1.symm
  · split at h
    · obtain ⟨code, _, hret⟩ := Outcome.bind_eq_ret_iff.mp h
      obtain ⟨_, hret⟩ := Prod.mk.inj (Outcome.ret.inj hret)
      exact (Prod.mk.inj hret).1.symm
    · obtain ⟨⟨code, s1⟩, _, hret⟩ := Outcome.bind_eq_ret_iff.mp h
      obtain ⟨_, hret⟩ := Prod.mk.inj (Outcome.ret.inj hret)
      exact (Prod.mk.inj hret).1.symm

theorem multisAdmin_config {argv : List Word} {cfg cfg' : Config} {s s' : State} {ret : Int}
    (h : multisAdmin jhash1word argv cfg s = .ret (ret, cfg', s')) : cfg' = updateFile argv cfg := by
  unfold multisAdmin at h
  unfold updateFile
  split at h
  · rename_i hargv
    obtain ⟨_, hret⟩ := Prod.mk.inj (Outcome.ret.inj h)
    rw [if_pos hargv, (Prod.mk.inj hret).1]
  · rename_i hargv
    rw [if_neg hargv]
    cases hparse : parseArgs argv with
    | error code =>
      rw [hparse] at h
      obtain ⟨_, hret⟩ := Prod.mk.inj (Outcome.ret.inj h)
      exact (Prod.mk.inj hret).1.symm
    | ok cmd =>
      rw [hparse] at h
      exact Command.run_config h

end MulticastProxy.KernelServer
