import MulticastProxy.Library.Trace
import MulticastProxy.LinuxClient.Config

/-!
# Linux client proxy: the config file as a map (`client_proxy/config.c`)

Entries go by server address and group port. The search of `json_add_grp_node` ends at the first
entry of another key, so a key that is there counts as new as soon as another one is there too.
-/

namespace MulticastProxy.LinuxClient

set_option autoImplicit false

inductive Call where
  | add (serverip : List Char) (groupport serverport : UInt32) (multiIp : List Char)
  | del (serverip : List Char) (groupport : UInt32)
  | clear

def Call.run (cfg : Config) : Call → Int × Config
  | .add serverip groupport serverport multiIp =>
    jsonAddGrpNode cfg serverip groupport serverport multiIp
  | .del serverip groupport => jsonDelGrpNode cfg serverip groupport
  | .clear => jsonClearGrpNode cfg

def Call.next (cfg : Config) (call : Call) : Option Config := some (call.run cfg).2

/-- What the functions compare. -/
def GrpObj.fileKey (grpObj : GrpObj) : List Char × UInt32 := (grpObj.serverIp, grpObj.groupPort)

def keys (cfg : Config) : List (List Char × UInt32) := (cfg.getD []).map GrpObj.fileKey

/-- The entries of the other keys, in order. -/
def others (cfg : Config) (k : List Char × UInt32) : List GrpObj :=
  (cfg.getD []).filter fun grpObj => grpObj.fileKey ≠ k

/-- An absent key is appended, a deleted one is gone, and all other entries stay as they are. -/
def Call.Updates (cfg cfg' : Config) : Call → Prop
  | .add serverip groupport serverport multiIp =>
    (serverip, groupport) ∉ keys cfg →
      cfg'.getD [] = cfg.getD [] ++ [⟨serverip, serverport, groupport, multiIp⟩]
  | .del serverip groupport =>
    (serverip, groupport) ∉ keys cfg' ∧
      others cfg' (serverip, groupport) = others cfg (serverip, groupport)
  | .clear => cfg'.getD [] = []

/-- After the call no key occurs twice, and it has made its update. -/
def ActsOnMap (cfg : Config) (call : Call) : Prop :=
  ∀ cfg', call.next cfg = some cfg' → (keys cfg').Nodup ∧ call.Updates cfg cfg'

/-- An add whose key is in the file finds no other key there. -/
def AddFindsKey (cfg : Config) : Call → Prop
  | .add serverip groupport _ _ => (serverip, groupport) ∈ keys cfg →
    ∀ k ∈ keys cfg, k = (serverip, groupport)
  | _ => True

/-! ## One call -/

/-- The entry is appended unless the file holds its key and no other. -/
theorem jsonAddGrpNode_getD (cfg : Config) (serverip : List Char) (groupport serverport : UInt32)
    (multiIp : List Char) :
    (jsonAddGrpNode cfg serverip groupport serverport multiIp).2.getD [] =
      if keys cfg ≠ [] ∧ ∀ k ∈ keys cfg, k = (serverip, groupport) then cfg.getD []
      else cfg.getD [] ++ [⟨serverip, serverport, groupport, multiIp⟩] := by
  have hother : ((cfg.getD []).any fun grpObj =>
      decide (grpObj.serverIp ≠ serverip ∨ groupport ≠ grpObj.groupPort)) = true ↔
      ¬ ∀ k ∈ keys cfg, k = (serverip, groupport) := by
    rw [List.any_eq_true, keys, List.forall_mem_map]
    simp only [GrpObj.fileKey, Prod.mk.injEq, not_forall, not_and_or, decide_eq_true_eq, exists_prop,
      ne_eq, eq_comm (a := groupport)]
  have hempty : (cfg.getD []).length = 0 ↔ keys cfg = [] := by
    rw [keys, List.map_eq_nil_iff, List.length_eq_zero_iff]
  unfold jsonAddGrpNode
  simp only [hother, hempty]
  by_cases hnil : keys cfg = []
  · rw [if_pos (Or.inr hnil), if_neg (fun h => h.1 hnil), Option.getD_some]
  · by_cases hall : ∀ k ∈ keys cfg, k = (serverip, groupport)
    · rw [if_neg (by tauto), if_pos ⟨hnil, hall⟩]
    · rw [if_pos (Or.inl hall), if_neg (fun h => hall h.2), Option.getD_some]

theorem jsonDelGrpNode_getD (cfg : Config) (serverip : List Char) (groupport : UInt32) :
    (jsonDelGrpNode cfg serverip groupport).2.getD [] = others cfg (serverip, groupport) := by
  cases cfg with
  | none => rfl
  | some grpArray =>
    rw [jsonDelGrpNode, others, Option.getD_some, Option.getD_some]
    apply List.filter_congr
    intro grpObj _
    simp only [GrpObj.fileKey, ne_eq, Prod.mk.injEq, not_and_or, eq_comm (a := groupport)]

theorem jsonClearGrpNode_getD (cfg : Config) : (jsonClearGrpNode cfg).2.getD [] = [] := by
  cases cfg with
  | none => rfl
  | some grpArray => rfl

theorem actsOnMap_add {cfg : Config} (hnd : (keys cfg).Nodup) (serverip : List Char)
    (groupport serverport : UInt32) (multiIp : List Char) :
    ActsOnMap cfg (.add serverip groupport serverport multiIp) ↔
      AddFindsKey cfg (.add serverip groupport serverport multiIp) := by
  have hrun := jsonAddGrpNode_getD cfg serverip groupport serverport multiIp
  have hkeys : ∀ cfg' : Config, cfg'.getD [] =
      cfg.getD [] ++ [⟨serverip, serverport, groupport, multiIp⟩] →
      ((keys cfg').Nodup ↔ (serverip, groupport) ∉ keys cfg) := by
    intro cfg' hcfg'
    rw [keys, hcfg', List.map_append, List.map_singleton, ← List.concat_eq_append,
      List.nodup_concat, GrpObj.fileKey]
    exact and_iff_left hnd
  constructor
  · intro hacts hin
    by_contra hall
    rw [if_neg (fun h => hall h.2)] at hrun
    exact (hkeys _ hrun).mp (hacts _ rfl).1 hin
  · intro hfinds cfg' hnext
    obtain rfl := Option.some.inj hnext
    by_cases hin : (serverip, groupport) ∈ keys cfg
    · rw [if_pos ⟨List.ne_nil_of_mem hin, hfinds hin⟩] at hrun
      refine ⟨?_, fun hnot => absurd hin hnot⟩
      rw [keys, Call.run, hrun]
      exact hnd
    · rw [if_neg] at hrun
      · exact ⟨(hkeys _ hrun).mpr hin, fun _ => hrun⟩
      · rintro ⟨hne, hall⟩
        obtain ⟨k, hk⟩ := List.exists_mem_of_ne_nil _ hne
        exact hin (hall k hk ▸ hk)

theorem actsOnMap_del {cfg : Config} (hnd : (keys cfg).Nodup) (serverip : List Char)
    (groupport : UInt32) : ActsOnMap cfg (.del serverip groupport) := by
  intro cfg' hnext
  obtain rfl := Option.some.inj hnext
  have hrun := jsonDelGrpNode_getD cfg serverip groupport
  refine ⟨?_, ?_, ?_⟩
  · rw [keys, Call.run, hrun]
    exact hnd.sublist (List.filter_sublist.map _)
  · rw [keys, Call.run, hrun, others, List.mem_map]
    rintro ⟨grpObj, hmem, hk⟩
    exact of_decide_eq_true (List.mem_filter.mp hmem).2 hk
  · rw [others, Call.run, hrun, others, List.filter_filter]
    simp

theorem actsOnMap_iff {cfg : Config} (hnd : (keys cfg).Nodup) (call : Call) :
    ActsOnMap cfg call ↔ AddFindsKey cfg call := by
  cases call with
  | add serverip groupport serverport multiIp =>
    exact actsOnMap_add hnd serverip groupport serverport multiIp
  | del serverip groupport => exact iff_of_true (actsOnMap_del hnd serverip groupport) trivial
  | clear =>
    refine iff_of_true (fun cfg' hnext => ?_) trivial
    obtain rfl := Option.some.inj hnext
    have hrun := jsonClearGrpNode_getD cfg
    refine ⟨?_, hrun⟩
    rw [keys, Call.run, hrun]
    exact List.nodup_nil

/-! ## Runs -/

/-- Over every sequence of calls the file is a map exactly if no add of a key that is there meets
another key. -/
theorem acts_on_map_iff {cfg : Config} (hnd : (keys cfg).Nodup) (calls : List Call) :
    Trace.EachStep Call.next ActsOnMap cfg calls ↔
      Trace.EachStep Call.next AddFindsKey cfg calls := by
  apply Trace.eachStep_congr (I := fun cfg => (keys cfg).Nodup)
  · exact fun cfg call cfg' _ hnext hacts => (hacts cfg' hnext).1
  · exact fun cfg call _ hnd _ => actsOnMap_iff hnd call
  · exact hnd

theorem acts_on_map_empty : Trace.EachStep Call.next ActsOnMap none
    [.add "10.0.0.1".toList 5000 7000 "225.0.0.1".toList, .del "10.0.0.1".toList 5000] := by
  have hnd : (keys none).Nodup := List.nodup_nil
  rw [acts_on_map_iff hnd]
  exact fun _ _ => ⟨fun h => (List.not_mem_nil h).elim, fun _ _ => ⟨trivial, trivial⟩⟩

/-- The third add finds its key, but another one first. -/
theorem not_acts_on_map : ¬ ∀ calls, Trace.EachStep Call.next ActsOnMap none calls := by
  intro h
  have hadd := (((h [.add "10.0.0.1".toList 5000 7000 "225.0.0.1".toList,
    .add "10.0.0.2".toList 5000 7000 "225.0.0.1".toList,
    .add "10.0.0.1".toList 5000 7000 "225.0.0.1".toList] _ rfl).2 _ rfl).2 _ rfl).1 _ rfl
  exact absurd hadd.1 (by decide)

end MulticastProxy.LinuxClient
