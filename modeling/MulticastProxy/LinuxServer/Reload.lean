import MulticastProxy.Common.Service
import MulticastProxy.LinuxServer.HandleData

/-!
# Linux server proxy: the `reload` command (`server_proxy/config.c`)

The terminal thread leaves the multicast groups that it joined, empties the table, reads the file
into it and joins the groups of the new list. Where `cfg_init` fails the list is still the old one.
-/

namespace MulticastProxy.LinuxServer

set_option autoImplicit false

/-- Calls of `setsockopt` on the receiving socket, `IP_ADD_MEMBERSHIP` and
`IP_DROP_MEMBERSHIP`. -/
inductive Membership where
  | add (multiaddr : UInt32)
  | drop (multiaddr : UInt32)
  deriving DecidableEq, Repr

/-- Table, `groupIp` and `groupNum`. -/
structure Proxy where
  table : State
  groupIp : Nat → UInt32
  groupNum : Nat

/-- The groups of the list that are multicast addresses. -/
def Proxy.groups (p : Proxy) : List UInt32 :=
  (cells p.groupIp p.groupNum).filter fun ip => isMulticast (htonl ip)

section
variable (inetAddr : List Char → UInt32)

def Proxy.cfgInit (file : CfgFile GrpObj) (p : Proxy) : Outcome (Int × Proxy) := do
  let (rt, groupNum, groupIp, table) ←
    LinuxServer.cfgInit inetAddr file.config p.groupIp p.groupNum p.table
  .ret (rt, ⟨table, groupIp, groupNum⟩)

/-- What `cfg_init` returned, which is only logged, and the calls made. -/
def Proxy.reload (file : CfgFile GrpObj) (p : Proxy) :
    Outcome (Int × Proxy × List Membership) := do
  let left := p.groups.map .drop
  let (rt, p) ← Proxy.cfgInit inetAddr file { p with table := multiNodeInit }
  .ret (rt, p, left ++ p.groups.map .add)

end

variable {inetAddr : List Char → UInt32} {file : CfgFile GrpObj} {p p' : Proxy} {rt : Int}
variable {calls : List Membership}

theorem cfgInit_rt {cfg : Config} {groupIpArr groupIpArr' : Nat → UInt32} {groupNum groupNum' : Nat}
    {s s' : State}
    (h : cfgInit inetAddr cfg groupIpArr groupNum s = .ret (rt, groupNum', groupIpArr', s')) :
    rt = 0 ↔ cfg ≠ none := by
  cases cfg with
  | none =>
    obtain ⟨rfl, _⟩ := Prod.mk.inj (Outcome.ret.inj h)
    simp
  | some grpArray =>
    obtain ⟨_, _, hret⟩ := Outcome.bind_eq_ret_iff.mp h
    obtain ⟨rfl, _⟩ := Prod.mk.inj (Outcome.ret.inj hret)
    simp

/-- A reload fails exactly where the file does not hold the array. It has left all groups by then,
and joins the same ones again with the table empty. -/
theorem Proxy.reload_failed (h : p.reload inetAddr file = .ret (rt, p', calls)) :
    (rt ≠ 0 ↔ ¬ file.HasArray) ∧
      (rt ≠ 0 → p' = { p with table := multiNodeInit } ∧
        calls = p.groups.map .drop ++ p.groups.map .add) := by
  obtain ⟨⟨rt1, p1⟩, hinit, hret⟩ := Outcome.bind_eq_ret_iff.mp h
  obtain ⟨rfl, rfl, rfl⟩ := by simpa using hret
  obtain ⟨⟨rt2, num, arr, s⟩, hcfg, hret⟩ := Outcome.bind_eq_ret_iff.mp hinit
  obtain ⟨rfl, rfl⟩ := by simpa using hret
  have hrt := not_congr (cfgInit_rt hcfg)
  rw [not_not, CfgFile.config_eq_none_iff] at hrt
  refine ⟨hrt, fun hne => ?_⟩
  rw [CfgFile.config_eq_none_iff.mpr (hrt.mp hne)] at hcfg
  obtain ⟨_, rfl, rfl, rfl⟩ := by simpa [LinuxServer.cfgInit] using hcfg
  exact ⟨rfl, rfl⟩

variable (inetAddr) in
theorem Proxy.reload_of_not_hasArray (p : Proxy) (h : ¬ file.HasArray) :
    p.reload inetAddr file = .ret (-1, { p with table := multiNodeInit },
      p.groups.map .drop ++ p.groups.map .add) := by
  unfold Proxy.reload Proxy.cfgInit
  rw [CfgFile.config_eq_none_iff.mpr h]
  rfl

end MulticastProxy.LinuxServer
