import MulticastProxy.Common.Address
import MulticastProxy.LinuxServer.Group

/-!
# Linux server proxy: config file (`server_proxy/config.c`)

The updates that the `multis_admin` of the user-space proxy makes to `server_cfg.json.txt`, and
`cfg_init`, which fills the group table from it. Member addresses are kept as the texts of the
command line; libc's `inet_addr` is a parameter.
-/

namespace MulticastProxy.LinuxServer

set_option autoImplicit false

structure GrpObj where
  groupIp : List Char
  groupPort : UInt32
  serverPort : UInt32
  memberArray : List (List Char)
  deriving DecidableEq, Repr

/-- The value under `multi_group_array`; `none` where there is no file. -/
abbrev Config := Option (List GrpObj)

/-- The member loop of `json_add_list` from the address behind `seen` on: one that the command has
named before or that the array held at the start is left out. -/
def newMembers (old : List (List Char)) : List (List Char) → List (List Char) → List (List Char)
  | _, [] => []
  | seen, ip :: ips =>
    if ip ∈ seen ∨ ip ∈ old then newMembers old (seen ++ [ip]) ips
    else ip :: newMembers old (seen ++ [ip]) ips

def jsonAddList (cfg : Config) (multiIp : List Char) (ipList : List (List Char))
    (multiServerPort : UInt32) : Int × Config :=
  let grpArray := cfg.getD []
  match grpArray.findIdx? (fun grpObj => grpObj.groupIp = multiIp) with
  | some i =>
    (0, some (grpArray.modify i fun grpObj =>
      { grpObj with
        serverPort := multiServerPort
        memberArray := grpObj.memberArray ++ newMembers grpObj.memberArray [] ipList }))
  | none => (0, some (grpArray ++ [⟨multiIp, 7127, multiServerPort, ipList⟩]))

def jsonDelList (cfg : Config) (multiIp : List Char) (ipList : List (List Char)) : Int × Config :=
  match cfg with
  | none => (-1, cfg)
  | some grpArray =>
    match grpArray.findIdx? (fun grpObj => grpObj.groupIp = multiIp) with
    | some i =>
      (0, some (grpArray.modify i fun grpObj =>
        { grpObj with memberArray := grpObj.memberArray.filter (· ∉ ipList) }))
    | none => (-1, cfg)

def jsonClearList (cfg : Config) : Int × Config :=
  match cfg with
  | none => (-1, cfg)
  | some _ => (0, some [])

/-- The groups that stay are written anew, with the default ports. -/
def jsonDelMulticast (cfg : Config) (multiIp : List Char) : Int × Config :=
  match cfg with
  | none => (-1, cfg)
  | some grpArray =>
    (0, some ((grpArray.filter fun grpObj => grpObj.groupIp ≠ multiIp).map fun grpObj =>
      ⟨grpObj.groupIp, 7127, 7126, grpObj.memberArray⟩))

/-! ## What the tool can write -/

/-- The commands of `main` that update the file; `-A` with `-m` alone is a quit of no address. -/
inductive Command where
  | join (multiIp : List Char) (ipList : List (List Char)) (serverPort : UInt32)
  | quit (multiIp : List Char) (ipList : List (List Char))
  | del (multiIp : List Char)
  | clear

def Command.run (cfg : Config) : Command → Int × Config
  | .join multiIp ipList serverPort => jsonAddList cfg multiIp ipList serverPort
  | .quit multiIp ipList => jsonDelList cfg multiIp ipList
  | .del multiIp => jsonDelMulticast cfg multiIp
  | .clear => jsonClearList cfg

/-- `-m` takes a multicast address. -/
def MultiIpOk (multiIp : List Char) : Prop := ∃ ip, parseIpBe multiIp = some ip ∧ isMulticast ip

/-- The checks of `main`, and the room in its `ip_list`. Members are not looked at. -/
def Command.Valid : Command → Prop
  | .join multiIp ipList serverPort =>
    MultiIpOk multiIp ∧ ipList.length ≤ maxMemIpInGroup ∧ serverPort ≤ 65535
  | .quit multiIp ipList => MultiIpOk multiIp ∧ ipList.length ≤ maxMemIpInGroup
  | .del multiIp => MultiIpOk multiIp
  | .clear => True

/-- The file that is installed with the proxy. -/
def installed : List GrpObj :=
  [⟨"239.1.1.1".toList, 7127, 3456, ["2.2.2.2".toList, "3.3.3.3".toList]⟩]

/-- Files after a sequence of commands, with no file or the installed one at the start. -/
inductive Produced : Config → Prop where
  | none : Produced none
  | installed : Produced (some installed)
  | step {cfg : Config} {cmd : Command} :
      Produced cfg → cmd.Valid → Produced (cmd.run cfg).2

/-! ## Loading -/

variable (inetAddr : List Char → UInt32)

/-- The loop over the members of one group. The cells of `ip_list_int` that are not stored to are
not read either; a store behind the array is a fault. -/
def readMembers : List (List Char) → Nat → (Nat → UInt32) → Outcome (Nat → UInt32)
  | [], _, ipListInt => .ret ipListInt
  | ip :: ips, j, ipListInt =>
    if j < maxMemIpInGroup then
      readMembers ips (j + 1) (Function.update ipListInt j (inetAddr ip))
    else .fault

/-- The loop over the groups; `groupIpArr` is the caller's array of 256. -/
def cfgLoop : List GrpObj → Nat → (Nat → UInt32) → State → Outcome ((Nat → UInt32) × State)
  | [], _, groupIpArr, s => .ret (groupIpArr, s)
  | grpObj :: grpArray, i, groupIpArr, s =>
    if i < 256 then do
      let ipListInt ← readMembers inetAddr grpObj.memberArray 0 fun _ => 0
      let (_, s) ← addMultiNode s (inetAddr grpObj.groupIp) grpObj.groupPort.toUInt16
        grpObj.serverPort.toUInt16 ipListInt (UInt8.ofNat grpObj.memberArray.length)
      cfgLoop grpArray (i + 1) (Function.update groupIpArr i (inetAddr grpObj.groupIp)) s
    else .fault

/-- Return code, `groupNum`, `groupIpArr` and table. -/
def cfgInit (cfg : Config) (groupIpArr : Nat → UInt32) (groupNum : Nat) (s : State) :
    Outcome (Int × Nat × (Nat → UInt32) × State) :=
  match cfg with
  | none => .ret (-1, groupNum, groupIpArr, s)
  | some grpArray => do
    let (groupIpArr, s) ← cfgLoop inetAddr grpArray 0 groupIpArr s
    .ret (0, grpArray.length, groupIpArr, s)

end MulticastProxy.LinuxServer
