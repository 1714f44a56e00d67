import MulticastProxy.KernelServer.ParseArg

/-!
# Kernel server tool: running config (`tools/multi_server_control/json_config.c`)

The JSON file of the groups and the updates of it, each made under the file lock. Addresses are
kept as text and compared as text.
-/

namespace MulticastProxy.KernelServer

set_option autoImplicit false

structure GrpObj where
  groupIp : List Char
  memberArray : List (List Char)
  deriving DecidableEq, Repr

/-- The value under `multi_group_array`; `none` where the root object has no such key. -/
abbrev Config := Option (List GrpObj)

def multiGrpConfigInit (cfg : Config) : Config := some (cfg.getD [])

/-- One round of the member loop of `__multi_grp_add_to_config`. -/
def memberUpdate {α : Type} [DecidableEq α] (action : UInt8) (memArray : List α) (newMemIp : α) :
    List α :=
  match memArray.findIdx? (fun memIp => memIp = newMemIp) with
  | none => if action = multiOptJoin then memArray ++ [newMemIp] else memArray
  | some j =>
    if action = multiOptJoin then memArray
    else if action = multiOptQuit then memArray.eraseIdx j
    else memArray

def multiGrpAddToConfig (cfg : Config) (grp : TmccNlServiceSt) : Int × Config :=
  match cfg with
  | none => (-1, cfg)
  | some grpArray =>
    let newMemIps := grp.ips.map ip2str
    match grpArray.findIdx? (fun grpObj => ip2str grp.multiIp = grpObj.groupIp) with
    | none =>
      if grp.action = multiOptQuit then (-1, cfg)
      else if multiGrpMax < grpArray.length + 1 then (-1, cfg)
      else if multiVmMax < grp.ipNum.toNat then (-1, cfg)
      else (0, some (grpArray ++ [⟨ip2str grp.multiIp, newMemIps⟩]))
    | some i =>
      let num := ((grpArray[i]?).map fun grpObj => grpObj.memberArray.length).getD 0
      if grp.action = multiOptJoin ∧ multiVmMax < (grp.ipNum.toNat + num) % 2 ^ 32 then (-1, cfg)
      else
        (0, some (grpArray.modify i fun grpObj =>
          { grpObj with memberArray := newMemIps.foldl (memberUpdate grp.action) grpObj.memberArray }))

def multiGrpDelFromConfig (cfg : Config) (grp : TmccNlServiceSt) : Int × Config :=
  match cfg with
  | none => (-1, cfg)
  | some grpArray =>
    match grpArray.findIdx? (fun grpObj => grpObj.groupIp = ip2str grp.multiIp) with
    | none => (-1, cfg)
    | some i => (0, some (grpArray.eraseIdx i))

/-- The whole array is deleted from the root object. -/
def multiServerConfigClear (_ : Config) : Int × Config := (0, none)

/-! ## The config as a list of addresses -/

/-- Groups with their members, as addresses. -/
abbrev Groups := List (UInt32 × List UInt32)

def GrpObj.ofGroup (p : UInt32 × List UInt32) : GrpObj := ⟨ip2str p.1, p.2.map ip2str⟩

/-- The config file that holds these groups. -/
def encode (groups : Groups) : List GrpObj := groups.map GrpObj.ofGroup

/-- The update of a member list does not depend on how addresses are written down. -/
theorem memberUpdate_map {α β : Type} [DecidableEq α] [DecidableEq β] {f : α → β}
    (hf : Function.Injective f) (action : UInt8) (mem : List α) (new : α) :
    memberUpdate action (mem.map f) (f new) = (memberUpdate action mem new).map f := by
  have hidx : (mem.map f).findIdx? (fun m => m = f new) = mem.findIdx? (fun m => m = new) := by
    rw [List.findIdx?_map]
    exact congrArg (mem.findIdx? ·) (funext fun m => by simp [hf.eq_iff])
  unfold memberUpdate
  rw [hidx]
  cases mem.findIdx? (fun m => m = new) with
  | none =>
    by_cases hjoin : action = multiOptJoin
    · simp [hjoin]
    · simp [hjoin]
  | some j =>
    by_cases hjoin : action = multiOptJoin
    · simp [hjoin]
    · by_cases hquit : action = multiOptQuit
      · subst hquit
        simp [hjoin, List.eraseIdx_map]
      · simp [hjoin, hquit]

theorem foldl_memberUpdate_map (action : UInt8) (mem new : List UInt32) :
    (new.map ip2str).foldl (memberUpdate action) (mem.map ip2str) =
      (new.foldl (memberUpdate action) mem).map ip2str := by
  induction new generalizing mem with
  | nil => rfl
  | cons ip ips ih =>
    rw [List.map_cons, List.foldl_cons, List.foldl_cons,
      memberUpdate_map ip2str_injective, ih]

/-- `__multi_grp_add_to_config` on addresses. -/
def addGroups (groups : Groups) (grp : TmccNlServiceSt) : Int × Groups :=
  match groups.findIdx? (fun p => p.1 = grp.multiIp) with
  | none =>
    if grp.action = multiOptQuit then (-1, groups)
    else if multiGrpMax < groups.length + 1 then (-1, groups)
    else if multiVmMax < grp.ipNum.toNat then (-1, groups)
    else (0, groups ++ [(grp.multiIp, grp.ips)])
  | some i =>
    let num := ((groups[i]?).map fun p => p.2.length).getD 0
    if grp.action = multiOptJoin ∧ multiVmMax < (grp.ipNum.toNat + num) % 2 ^ 32 then (-1, groups)
    else (0, groups.modify i fun p => (p.1, grp.ips.foldl (memberUpdate grp.action) p.2))

def delGroups (groups : Groups) (grp : TmccNlServiceSt) : Int × Groups :=
  match groups.findIdx? (fun p => p.1 = grp.multiIp) with
  | none => (-1, groups)
  | some i => (0, groups.eraseIdx i)

theorem findIdx?_encode (groups : Groups) (g : UInt32) :
    (encode groups).findIdx? (fun grpObj => ip2str g = grpObj.groupIp) =
      groups.findIdx? (fun p => p.1 = g) := by
  unfold encode
  rw [List.findIdx?_map]
  congr 1
  funext p
  simp [GrpObj.ofGroup, ip2str_inj, eq_comm]

theorem multiGrpAddToConfig_encode (groups : Groups) (grp : TmccNlServiceSt) :
    multiGrpAddToConfig (some (encode groups)) grp =
      ((addGroups groups grp).1, some (encode (addGroups groups grp).2)) := by
  unfold multiGrpAddToConfig addGroups
  simp only [findIdx?_encode]
  cases groups.findIdx? (fun p => p.1 = grp.multiIp) with
  | none =>
    have hlen : (encode groups).length = groups.length := List.length_map ..
    simp only [hlen]
    split
    · rfl
    · split
      · rfl
      · split
        · rfl
        · simp [encode, GrpObj.ofGroup]
  | some i =>
    have hnum : (((encode groups)[i]?).map fun grpObj => grpObj.memberArray.length) =
        (groups[i]?).map fun p => p.2.length := by
      simp [encode, GrpObj.ofGroup, Function.comp_def]
    simp only [hnum]
    split
    · rfl
    · simp only [Prod.mk.injEq, Option.some.injEq, true_and]
      refine (List.ext_getElem? fun j => ?_)
      simp only [encode, List.getElem?_modify, List.getElem?_map]
      cases groups[j]? with
      | none => simp
      | some p =>
        by_cases hij : i = j
        · simp [hij, GrpObj.ofGroup, foldl_memberUpdate_map]
        · simp [hij]

theorem multiGrpDelFromConfig_encode (groups : Groups) (grp : TmccNlServiceSt) :
    multiGrpDelFromConfig (some (encode groups)) grp =
      ((delGroups groups grp).1, some (encode (delGroups groups grp).2)) := by
  have hidx : (encode groups).findIdx? (fun grpObj => grpObj.groupIp = ip2str grp.multiIp) =
      groups.findIdx? (fun p => p.1 = grp.multiIp) := by
    rw [← findIdx?_encode]
    congr 1
    funext grpObj
    simp [eq_comm]
  unfold multiGrpDelFromConfig delGroups
  simp only [hidx]
  cases groups.findIdx? (fun p => p.1 = grp.multiIp) with
  | none => rfl
  | some i => simp [encode, List.eraseIdx_map]

end MulticastProxy.KernelServer
