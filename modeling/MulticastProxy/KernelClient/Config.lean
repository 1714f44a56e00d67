import MulticastProxy.Common.Address
import MulticastProxy.KernelClient.GroupSpec
import MulticastProxy.Library.AssocList

/-!
# Kernel client tool: running config (`tools/multi_client_control/json_config.c`)

The JSON file of the entries, keyed by server address and port. Addresses are kept as text.
-/

namespace MulticastProxy.KernelClient

set_option autoImplicit false

structure GrpObj where
  serverIp : List Char
  groupIp : List Char
  port : Nat
  deriving DecidableEq, Repr

/-- The value under the group array's key; `none` where the root object has no such key. -/
abbrev Config := Option (List GrpObj)

def multiGrpConfigInit (cfg : Config) : Config := some (cfg.getD [])

/-- The comparison that both loops make. -/
def GrpObj.hasKey (grpObj : GrpObj) (grp : TmccNlServiceSt) : Bool :=
  grpObj.serverIp = ip2str grp.serverIp ∧ grpObj.port = grp.port.toNat

def multiGrpAddToConfig (cfg : Config) (grp : TmccNlServiceSt) : Int × Config :=
  match cfg with
  | none => (-1, cfg)
  | some grpArray =>
    if multiGrpMax < grpArray.length + 1 then (-1, cfg)
    else
      match grpArray.findIdx? (fun grpObj => grpObj.hasKey grp) with
      | some i =>
        if (grpArray[i]?).map (fun grpObj => grpObj.groupIp) = some (ip2str grp.multiIp) then (-2, cfg)
        else (0, some (grpArray.modify i fun grpObj => { grpObj with groupIp := ip2str grp.multiIp }))
      | none =>
        (0, some (grpArray ++ [⟨ip2str grp.serverIp, ip2str grp.multiIp, grp.port.toNat⟩]))

def multiGrpDelFromConfig (cfg : Config) (grp : TmccNlServiceSt) : Int × Config :=
  match cfg with
  | none => (-1, cfg)
  | some grpArray =>
    match grpArray.findIdx? (fun grpObj => grpObj.hasKey grp) with
    | some i => (0, some (grpArray.eraseIdx i))
    | none => (-1, cfg)

/-- The whole array is deleted from the root object. -/
def multiClientClearConfig (cfg : Config) : Int × Config :=
  match cfg with
  | none => (-1, cfg)
  | some _ => (0, none)

/-! ## The config as a map -/

abbrev Key := UInt32 × UInt16

/-- Entries as addresses: key and group. -/
abbrev Entries := List (Key × UInt32)

def GrpObj.ofEntry (e : Key × UInt32) : GrpObj := ⟨ip2str e.1.1, ip2str e.2, e.1.2.toNat⟩

theorem hasKey_ofEntry (e : Key × UInt32) (grp : TmccNlServiceSt) :
    (GrpObj.ofEntry e).hasKey grp = decide (e.1 = (grp.serverIp, grp.port)) := by
  simp [GrpObj.hasKey, GrpObj.ofEntry, ip2str_inj, UInt16.toNat_inj, Prod.ext_iff]

theorem findIdx?_ofEntry (es : Entries) (grp : TmccNlServiceSt) :
    (es.map GrpObj.ofEntry).findIdx? (fun grpObj => grpObj.hasKey grp) =
      AssocList.index es (grp.serverIp, grp.port) := by
  rw [List.findIdx?_map, AssocList.index]
  exact congrArg (es.findIdx? ·) (funext fun e => hasKey_ofEntry e grp)

/-- An add is refused without a change, or the entry is stored. -/
theorem multiGrpAddToConfig_cases {es : Entries} (hnd : (es.map Prod.fst).Nodup)
    (grp : TmccNlServiceSt) :
    (∃ ret, ret ≠ 0 ∧
      multiGrpAddToConfig (some (es.map GrpObj.ofEntry)) grp =
        (ret, some (es.map GrpObj.ofEntry))) ∨
    ∃ es', multiGrpAddToConfig (some (es.map GrpObj.ofEntry)) grp =
        (0, some (es'.map GrpObj.ofEntry)) ∧
      es.length < multiGrpMax ∧ (es'.map Prod.fst).Nodup ∧
      AssocList.get es (grp.serverIp, grp.port) ≠ some grp.multiIp ∧
      AssocList.get es' =
        Function.update (AssocList.get es) (grp.serverIp, grp.port) (some grp.multiIp) := by
  unfold multiGrpAddToConfig
  simp only [List.length_map, findIdx?_ofEntry]
  split
  · exact Or.inl ⟨-1, by decide, rfl⟩
  · rename_i hroom
    have hroom : es.length < multiGrpMax := by omega
    cases hidx : AssocList.index es (grp.serverIp, grp.port) with
    | none =>
      have hnew := AssocList.index_eq_none_iff.mp hidx
      refine Or.inr ⟨es ++ [((grp.serverIp, grp.port), grp.multiIp)], ?_, hroom,
        AssocList.nodup_concat hnd hnew _, by simp [hnew], AssocList.get_concat hnew _⟩
      simp [GrpObj.ofEntry]
    | some i =>
      obtain ⟨before, g, after, hes, hlen, _, hget⟩ := AssocList.index_eq_some hidx
      have hat : ((es.map GrpObj.ofEntry)[i]?).map (fun grpObj => grpObj.groupIp) =
          some (ip2str g) := by
        rw [hes, ← hlen]
        simp [GrpObj.ofEntry]
      simp only [hat, Option.some.injEq, ip2str_inj]
      split
      · exact Or.inl ⟨-2, by decide, rfl⟩
      · rename_i hdiff
        refine Or.inr ⟨es.modify i fun e => (e.1, grp.multiIp), ?_, hroom, ?_, ?_, ?_⟩
        · simp only [Prod.mk.injEq, Option.some.injEq, true_and]
          refine List.ext_getElem? fun j => ?_
          simp only [List.getElem?_modify, List.getElem?_map]
          cases es[j]? with
          | none => simp
          | some e =>
            by_cases hij : i = j
            · simp [hij, GrpObj.ofEntry]
            · simp [hij]
        · rw [AssocList.keys_modify (fun _ => grp.multiIp) hidx]
          exact hnd
        · rw [hget]
          exact fun he => hdiff (Option.some.inj he)
        · rw [AssocList.get_modify (fun _ => grp.multiIp) hidx, hget]
          rfl

theorem multiGrpDelFromConfig_cases {es : Entries} (hnd : (es.map Prod.fst).Nodup)
    (grp : TmccNlServiceSt) :
    (AssocList.get es (grp.serverIp, grp.port) = none ∧
      multiGrpDelFromConfig (some (es.map GrpObj.ofEntry)) grp =
        (-1, some (es.map GrpObj.ofEntry))) ∨
    ∃ es', multiGrpDelFromConfig (some (es.map GrpObj.ofEntry)) grp =
        (0, some (es'.map GrpObj.ofEntry)) ∧
      (AssocList.get es (grp.serverIp, grp.port)).isSome = true ∧
      (es'.map Prod.fst).Nodup ∧
      AssocList.get es' = Function.update (AssocList.get es) (grp.serverIp, grp.port) none := by
  unfold multiGrpDelFromConfig
  simp only [findIdx?_ofEntry]
  cases hidx : AssocList.index es (grp.serverIp, grp.port) with
  | none => exact Or.inl ⟨AssocList.index_eq_none_iff.mp hidx, rfl⟩
  | some i =>
    obtain ⟨_, g, _, _, _, _, hget⟩ := AssocList.index_eq_some hidx
    refine Or.inr ⟨es.eraseIdx i, ?_, by rw [hget]; rfl, AssocList.nodup_eraseIdx hnd i,
      AssocList.get_eraseIdx hnd hidx⟩
    simp [List.eraseIdx_map]

end MulticastProxy.KernelClient
