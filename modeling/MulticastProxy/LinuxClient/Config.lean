import MulticastProxy.Common.Service
import MulticastProxy.LinuxClient.Group

/-!
# Linux client proxy: config file (`client_proxy/config.c`)

The updates of `client_cfg.json.txt`, and `cfg_init`, which fills the entry table from it. libc's
`inet_addr` is a parameter.
-/

namespace MulticastProxy.LinuxClient

set_option autoImplicit false

structure GrpObj where
  serverIp : List Char
  serverPort : UInt32
  groupPort : UInt32
  groupIp : List Char
  deriving DecidableEq, Repr

/-- The value under `multi_server_info_array`; `none` where there is no file. -/
abbrev Config := Option (List GrpObj)

/-- The search ends at the first entry that is another one: an entry is refused only where the array
holds nothing but its own key. -/
def jsonAddGrpNode (cfg : Config) (serverip : List Char) (groupport serverport : UInt32)
    (multiIp : List Char) : Int × Config :=
  let grpArray := cfg.getD []
  let other := grpArray.any fun grpObj => grpObj.serverIp ≠ serverip ∨ groupport ≠ grpObj.groupPort
  if other ∨ grpArray.length = 0 then
    (0, some (grpArray ++ [⟨serverip, serverport, groupport, multiIp⟩]))
  else (0, cfg)

def jsonDelGrpNode (cfg : Config) (serverip : List Char) (groupport : UInt32) : Int × Config :=
  match cfg with
  | none => (-1, cfg)
  | some grpArray =>
    (0, some (grpArray.filter fun grpObj =>
      grpObj.serverIp ≠ serverip ∨ groupport ≠ grpObj.groupPort))

def jsonClearGrpNode (cfg : Config) : Int × Config :=
  match cfg with
  | none => (-1, cfg)
  | some _ => (0, some [])

/-- Files after a sequence of calls, with no file at the start. -/
inductive Produced : Config → Prop where
  | none : Produced none
  | add {cfg : Config} (serverip : List Char) (groupport serverport : UInt32)
      (multiIp : List Char) :
      Produced cfg → Produced (jsonAddGrpNode cfg serverip groupport serverport multiIp).2
  | del {cfg : Config} (serverip : List Char) (groupport : UInt32) :
      Produced cfg → Produced (jsonDelGrpNode cfg serverip groupport).2
  | clear {cfg : Config} : Produced cfg → Produced (jsonClearGrpNode cfg).2

variable (inetAddr : List Char → UInt32)

/-- The loop over the entries; what `add_multi_node` returns is only logged. -/
def cfgLoop : List GrpObj → State → Outcome State
  | [], s => .ret s
  | grpObj :: grpArray, s => do
    let (_, s) ← addMultiNode s (inetAddr grpObj.groupIp) grpObj.groupPort.toUInt16
      (inetAddr grpObj.serverIp) grpObj.serverPort.toUInt16
    cfgLoop grpArray s

def cfgInit (cfg : Config) (s : State) : Outcome (Int × State) :=
  match cfg with
  | none => .ret (-1, s)
  | some grpArray => do
    let s ← cfgLoop inetAddr grpArray s
    .ret (0, s)

/-- The `reload` command; what `cfg_init` returns is only logged. The table from before is gone by
then. -/
def cfgReload (file : CfgFile GrpObj) (_ : State) : Outcome (Int × State) :=
  cfgInit inetAddr file.config multiNodeInit

end MulticastProxy.LinuxClient
