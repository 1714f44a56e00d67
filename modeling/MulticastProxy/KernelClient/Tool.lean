import MulticastProxy.Common.ParseU32
import MulticastProxy.KernelClient.Config
import MulticastProxy.KernelClient.Listing
import MulticastProxy.Library.CommandLine

/-!
# Kernel client tool: one process (`tools/multi_client_control/app_control.c`, `parse_arg.h`)

A `multic_admin` process reads its arguments, updates the config file and sends one message to the
kernel; the update is undone where the kernel refuses. The kernel answers, and the caller's buffer
can be written.
-/

namespace MulticastProxy.KernelClient

set_option autoImplicit false

open CommandLine

inductive AppCmd where
  | add
  | del
  | clear
  | stats
  | list
  deriving DecidableEq, Repr

abbrev optMultiIp : UInt32 := 0x01
abbrev optServerIp : UInt32 := 0x02
abbrev optClientPort : UInt32 := 0x04

def options : Options where
  short := fun ch =>
    if ch ∈ ['A', 'D', 'P', 'C', 'L', 'S', 'H'] then some false
    else if ch ∈ ['m', 'i', 'p'] then some true
    else none
  long := [
    ⟨"add".toList, false, 'A'⟩, ⟨"delete".toList, false, 'D'⟩, ⟨"clear".toList, false, 'C'⟩,
    ⟨"stats".toList, false, 'P'⟩, ⟨"list".toList, false, 'L'⟩, ⟨"help".toList, false, 'H'⟩,
    ⟨"multiip".toList, true, 'm'⟩, ⟨"ip".toList, true, 'i'⟩, ⟨"port".toList, true, 'p'⟩]

/-- The variables of `main` while it reads its options. -/
structure Args where
  cmd : Option AppCmd
  mask : UInt32
  service : TmccNlServiceSt

def Args.init : Args := ⟨none, 0, ⟨0, 0, 0⟩⟩

/-- One round of the `getopt_long` loop; an error carries the exit code. -/
def Args.read (a : Args) : Event → Except Int Args
  | .opt 'A' _ => .ok { a with cmd := some .add }
  | .opt 'D' _ => .ok { a with cmd := some .del }
  | .opt 'C' _ => .ok { a with cmd := some .clear }
  | .opt 'P' _ => .ok { a with cmd := some .stats }
  | .opt 'L' _ => .ok { a with cmd := some .list }
  | .opt 'H' _ => .error 0
  | .opt 'm' optarg =>
    if a.mask &&& optMultiIp ≠ 0 then .error (-1)
    else
      match parseIpBe optarg with
      | none => .error (-1)
      | some multiIp =>
        .ok { a with mask := a.mask ||| optMultiIp, service.multiIp := multiIp }
  | .opt 'i' optarg =>
    if a.mask &&& optServerIp ≠ 0 then .error (-1)
    else
      match parseIpBe optarg with
      | none => .error (-1)
      | some serverIp =>
        .ok { a with mask := a.mask ||| optServerIp, service.serverIp := serverIp }
  | .opt 'p' optarg =>
    if a.mask &&& optClientPort ≠ 0 then .error (-1)
    else
      match parseU32 kernelTools (some optarg) (some 0) with
      | (0, some port) =>
        if 65535 < port then .error (-1)
        else .ok { a with mask := a.mask ||| optClientPort, service.port := port.toUInt16 }
      | _ => .error (-1)
  | _ => .error (-1)

inductive Command where
  | add (service : TmccNlServiceSt)
  | del (service : TmccNlServiceSt)
  | clear
  | print (cmd : AppCmd) (service : TmccNlServiceSt)

/-- The `switch` behind the option loop, with its checks of the mask. -/
def Args.command (a : Args) : Except Int Command :=
  match a.cmd with
  | some .add =>
    if a.mask ≠ optMultiIp ||| optServerIp ||| optClientPort then .error (-1)
    else .ok (.add a.service)
  | some .del =>
    if a.mask ≠ optServerIp ||| optClientPort then .error (-1) else .ok (.del a.service)
  | some .clear => if a.mask ≠ 0 then .error (-1) else .ok .clear
  | some .stats =>
    if a.mask ≠ 0 ∧ a.mask ≠ optServerIp ||| optClientPort then .error (-1)
    else .ok (.print .stats a.service)
  | some .list => if a.mask ≠ 0 then .error (-1) else .ok (.print .list a.service)
  | none => .error (-1)

def parseArgs (argv : List Word) : Except Int Command := do
  let a ← (getopt options argv).foldlM Args.read .init
  a.command

variable (jhash2words : UInt32 → UInt32 → UInt32 → UInt32)

def tmccNlServiceAdd (service : TmccNlServiceSt) (cfg : Config) (s : State) :
    Outcome (Int × Config × State) :=
  let (ret, cfg) := multiGrpAddToConfig cfg service
  if ret ≠ 0 then .ret (-1, cfg, s)
  else do
    let (ret, s) ← tmccRcvSkb jhash2words s (.serviceAdd service)
    .ret (ret, if ret ≠ 0 then (multiGrpDelFromConfig cfg service).2 else cfg, s)

def tmccNlServiceDel (service : TmccNlServiceSt) (cfg : Config) (s : State) :
    Outcome (Int × Config × State) :=
  let (ret, cfg) := multiGrpDelFromConfig cfg service
  if ret ≠ 0 then .ret (-1, cfg, s)
  else do
    let (ret, s) ← tmccRcvSkb jhash2words s (.serviceDel service)
    .ret (ret, if ret ≠ 0 then (multiGrpAddToConfig cfg service).2 else cfg, s)

def multiNlClientClear (cfg : Config) (s : State) : Outcome (Int × Config × State) := do
  let (ret, s) ← tmccRcvSkb jhash2words s .clientClear
  .ret (ret, (multiClientClearConfig cfg).2, s)

/-- What `k_service` held before is not in the code that LIST gives. -/
def Command.run (cfg : Config) (s : State) : Command → Outcome (Int × Config × State)
  | .add service => tmccNlServiceAdd jhash2words service cfg s
  | .del service => tmccNlServiceDel jhash2words service cfg s
  | .clear => multiNlClientClear jhash2words cfg s
  | .print .list _ => do
    let (ret, _) ← listAllMultiGrp s ⟨0, 0, fun _ => 0, fun _ => 0, fun _ => 0⟩
    .ret (ret, cfg, s)
  | .print _ _ => .ret (0, cfg, s)

/-- A whole process: exit code, config file and kernel table. -/
def multicAdmin (argv : List Word) (cfg : Config) (s : State) : Outcome (Int × Config × State) :=
  if argv = [] then .ret (-1, cfg, s)
  else
    match parseArgs argv with
    | .error ret => .ret (ret, multiGrpConfigInit cfg, s)
    | .ok cmd => cmd.run jhash2words (multiGrpConfigInit cfg) s

variable {jhash2words}

theorem Command.run_print {cmd : AppCmd} {service : TmccNlServiceSt} {cfg cfg' : Config}
    {s s' : State} {code : Int}
    (h : (Command.print cmd service).run jhash2words cfg s = .ret (code, cfg', s')) :
    cfg' = cfg ∧ s' = s := by
  cases cmd with
  | list =>
    obtain ⟨⟨ret, _⟩, _, hret⟩ := Outcome.bind_eq_ret_iff.mp h
    obtain ⟨_, hret⟩ := Prod.mk.inj (Outcome.ret.inj hret)
    exact ⟨(Prod.mk.inj hret).1.symm, (Prod.mk.inj hret).2.symm⟩
  | add | del | clear | stats =>
    obtain ⟨_, hret⟩ := Prod.mk.inj (Outcome.ret.inj h)
    exact ⟨(Prod.mk.inj hret).1.symm, (Prod.mk.inj hret).2.symm⟩

end MulticastProxy.KernelClient
