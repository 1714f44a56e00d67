import MulticastProxy.KernelServer.GroupMap
import MulticastProxy.Library.AssocList

/-!
# Kernel server tool: the config file as a map

What an accepted update does to the groups of the file, and what every update keeps.
-/

namespace MulticastProxy.KernelServer

set_option autoImplicit false

/-- The map that the file records. -/
def configMap (cfg : Config) : GroupMap := fun g =>
  ((cfg.getD []).find? fun grpObj => grpObj.groupIp = ip2str g).map fun grpObj =>
    {ip | ip2str ip ∈ grpObj.memberArray}

/-- A group is listed once, and its members are distinct unicast addresses that fit a row. -/
structure GroupsOk (groups : Groups) : Prop where
  keys : (groups.map Prod.fst).Nodup
  size : groups.length ≤ multiGrpMax
  members : ∀ p ∈ groups, MembersOk p.2

theorem groupsOk_nil : GroupsOk [] := ⟨List.nodup_nil, Nat.zero_le _, by simp⟩

theorem configMap_encode (groups : Groups) :
    configMap (some (encode groups)) = ofLists (AssocList.get groups) := by
  funext g
  have hfind : (encode groups).find? (fun grpObj => grpObj.groupIp = ip2str g) =
      (groups.find? fun p => p.1 = g).map GrpObj.ofGroup := by
    unfold encode
    rw [List.find?_map]
    congr 2
    funext p
    simp [GrpObj.ofGroup, ip2str_inj]
  have hset : ∀ l : List UInt32, {ip | ip2str ip ∈ l.map ip2str} = {ip | ip ∈ l} := by
    intro l
    ext ip
    exact List.mem_map_of_injective ip2str_injective
  rw [configMap, Option.getD_some, hfind, ofLists, AssocList.get, Option.map_map, Option.map_map]
  cases groups.find? fun p => p.1 = g with
  | none => rfl
  | some p => exact congrArg some (hset p.2)

theorem GroupsOk.get_ok {groups : Groups} (ok : GroupsOk groups) {g : UInt32} {l : List UInt32}
    (h : AssocList.get groups g = some l) : MembersOk l :=
  ok.members _ ((AssocList.mem_iff_get ok.keys).mpr h)

/-! ## The member loop -/

theorem memberUpdate_join (mem : List UInt32) (new : UInt32) :
    memberUpdate multiOptJoin mem new = if new ∈ mem then mem else mem ++ [new] := by
  unfold memberUpdate
  cases h : mem.findIdx? (fun m => m = new) with
  | none =>
    rw [List.findIdx?_eq_none_iff] at h
    have hnot : new ∉ mem := fun hm => by simpa using h new hm
    simp [hnot]
  | some j =>
    obtain ⟨hj, he, _⟩ := List.findIdx?_eq_some_iff_getElem.mp h
    have hmem : new ∈ mem := by
      rw [← decide_eq_true_eq.mp he]
      exact List.getElem_mem hj
    simp [hmem]

theorem foldl_join {mem new : List UInt32} (hnew : new.Nodup) :
    new.foldl (memberUpdate multiOptJoin) mem = joined mem new := by
  induction new generalizing mem with
  | nil => simp [joined]
  | cons ip ips ih =>
    obtain ⟨hip, hips⟩ := List.nodup_cons.mp hnew
    rw [List.foldl_cons, memberUpdate_join, ih hips]
    by_cases hmem : ip ∈ mem
    · simp [joined, hmem]
    · have hsame : ips.filter (· ∉ mem ++ [ip]) = ips.filter (· ∉ mem) := by
        apply List.filter_congr
        intro a ha
        have hne : a ≠ ip := fun he => hip (he ▸ ha)
        simp [hne]
      rw [if_neg hmem, joined, joined, hsame, List.filter_cons_of_pos (by simpa using hmem),
        List.append_assoc, List.singleton_append]

theorem memberUpdate_quit (mem : List UInt32) (new : UInt32) :
    memberUpdate multiOptQuit mem new = mem.erase new := by
  have hidx : mem.idxOf? new = mem.findIdx? (fun m => m = new) := by
    rw [List.idxOf?]
    congr 1
  rw [List.erase_eq_eraseIdx, hidx]
  have hne : multiOptQuit ≠ multiOptJoin := by decide
  unfold memberUpdate
  cases mem.findIdx? (fun m => m = new) with
  | none => simp only [hne, if_false]
  | some j => simp only [hne, if_false, if_true]

theorem foldl_quit (mem new : List UInt32) :
    new.foldl (memberUpdate multiOptQuit) mem = mem.diff new := by
  rw [List.diff_eq_foldl]
  congr 1
  funext m ip
  exact memberUpdate_quit m ip

theorem membersOk_diff {old ips : List UInt32} (h : MembersOk old) :
    MembersOk (old.diff ips) where
  nodup := h.nodup.diff
  size := Nat.le_trans (List.diff_sublist old ips).length_le h.size
  unicast := fun ip hip => h.unicast ip ((List.diff_sublist old ips).subset hip)

theorem membersOk_joined {old ips : List UInt32} (hold : MembersOk old) (hips : MembersOk ips)
    (hsize : old.length + ips.length ≤ multiVmMax) : MembersOk (joined old ips) where
  nodup := nodup_joined hold.nodup hips.nodup
  size := by
    have hlen := List.length_filter_le (· ∉ old) ips
    rw [joined, List.length_append]
    omega
  unicast := by
    intro ip hip
    rcases mem_joined.mp hip with h | h
    · exact hold.unicast ip h
    · exact hips.unicast ip h

/-! ## One update -/

theorem GroupsOk.concat {groups : Groups} (ok : GroupsOk groups) {g : UInt32} {ips : List UInt32}
    (hnone : AssocList.get groups g = none) (hroom : groups.length < multiGrpMax)
    (hips : MembersOk ips) : GroupsOk (groups ++ [(g, ips)]) where
  keys := AssocList.nodup_concat ok.keys hnone _
  size := by
    rw [List.length_append, List.length_singleton]
    omega
  members := by
    intro p hp
    rcases List.mem_append.mp hp with hp | hp
    · exact ok.members p hp
    · rw [List.mem_singleton.mp hp]
      exact hips

theorem GroupsOk.modify {groups : Groups} (ok : GroupsOk groups) {g : UInt32} {i : Nat}
    (hidx : AssocList.index groups g = some i) {f : List UInt32 → List UInt32}
    (hf : ∀ old, AssocList.get groups g = some old → MembersOk (f old)) :
    GroupsOk (groups.modify i fun p => (p.1, f p.2)) where
  keys := by
    rw [AssocList.keys_modify f hidx]
    exact ok.keys
  size := by
    rw [List.length_modify]
    exact ok.size
  members := by
    obtain ⟨before, old, after, hsplit, _, hget, hmod⟩ := AssocList.modify_eq f hidx
    rw [hmod]
    intro p hp
    have hpart : p ∈ before ∨ p = (g, f old) ∨ p ∈ after := by simpa using hp
    rcases hpart with hp | rfl | hp
    · exact ok.members p (by simp [hsplit, hp])
    · exact hf old hget
    · exact ok.members p (by simp [hsplit, hp])

/-- The members that a listed group is left with. -/
def updated (action : UInt8) (old ips : List UInt32) : List UInt32 :=
  if action = multiOptJoin then joined old ips
  else if action = multiOptQuit then old.diff ips
  else old

theorem foldl_memberUpdate (action : UInt8) (old : List UInt32) {ips : List UInt32}
    (hips : ips.Nodup) : ips.foldl (memberUpdate action) old = updated action old ips := by
  unfold updated
  split
  · rename_i h
    rw [h, foldl_join hips]
  · rename_i hjoin
    split
    · rename_i h
      rw [h, foldl_quit]
    · rename_i hquit
      have hsame : ∀ (m : List UInt32) (ip : UInt32), memberUpdate action m ip = m := by
        intro m ip
        unfold memberUpdate
        cases m.findIdx? (fun m => m = ip) <;> simp [hjoin, hquit]
      clear hips
      induction ips with
      | nil => rfl
      | cons ip ips ih => rw [List.foldl_cons, hsame, ih]

theorem membersOk_updated {action : UInt8} {old ips : List UInt32} (hold : MembersOk old)
    (hips : MembersOk ips)
    (hfit : ¬ (action = multiOptJoin ∧ multiVmMax < (ips.length + old.length) % 2 ^ 32)) :
    MembersOk (updated action old ips) := by
  have h1 := hold.size
  have h2 := hips.size
  unfold updated
  split
  · apply membersOk_joined hold hips
    by_contra hbig
    refine hfit ⟨‹_›, ?_⟩
    have hmax : multiVmMax < 2 ^ 31 := by decide
    rw [Nat.mod_eq_of_lt (by omega)]
    omega
  · split
    · exact membersOk_diff hold
    · exact hold

/-- An accepted add: a new group at the end, or the members of a listed one changed. -/
theorem addGroups_cases {groups groups' : Groups} (ok : GroupsOk groups)
    {service : TmccNlServiceSt} (hparsed : service.Parsed)
    (h : addGroups groups service = (0, groups')) :
    GroupsOk groups' ∧
    ((AssocList.get groups service.multiIp = none ∧ service.action ≠ multiOptQuit ∧
        groups' = groups ++ [(service.multiIp, service.ips)]) ∨
      ∃ i old, AssocList.index groups service.multiIp = some i ∧
        AssocList.get groups service.multiIp = some old ∧
        groups' = groups.modify i (fun p => (p.1, updated service.action p.2 service.ips))) := by
  obtain ⟨hips, hnum⟩ := hparsed.members
  unfold addGroups at h
  cases hidx : groups.findIdx? (fun p => p.1 = service.multiIp) with
  | none =>
    have hnone : AssocList.get groups service.multiIp = none := AssocList.index_eq_none_iff.mp hidx
    simp only [hidx] at h
    split at h
    · simp at h
    · rename_i hquit
      split at h
      · simp at h
      · split at h
        · simp at h
        · obtain ⟨_, rfl⟩ := Prod.mk.inj h
          exact ⟨ok.concat hnone (by omega) hips, Or.inl ⟨hnone, hquit, rfl⟩⟩
  | some i =>
    obtain ⟨before, old, after, hsplit, hlen, _, hget⟩ := AssocList.index_eq_some hidx
    have hold : MembersOk old := ok.get_ok hget
    have hat : groups[i]? = some (service.multiIp, old) := by
      rw [hsplit, ← hlen]
      simp
    simp only [hidx, hat, Option.map_some, Option.getD_some, hnum,
      foldl_memberUpdate service.action _ hips.nodup] at h
    split at h
    · simp at h
    · rename_i hfit
      obtain ⟨_, rfl⟩ := Prod.mk.inj h
      have hupdated : ∀ old', AssocList.get groups service.multiIp = some old' →
          MembersOk (updated service.action old' service.ips) := by
        intro old' hold'
        obtain rfl := Option.some.inj (hget.symm.trans hold')
        exact membersOk_updated hold hips hfit
      exact ⟨ok.modify hidx hupdated, Or.inr ⟨i, old, hidx, hget, rfl⟩⟩

theorem addGroups_map {groups groups' : Groups} (ok : GroupsOk groups)
    {service : TmccNlServiceSt} (hparsed : service.Parsed)
    (h : addGroups groups service = (0, groups')) :
    ofLists (AssocList.get groups') =
      (Command.add service).apply (ofLists (AssocList.get groups)) := by
  rcases (addGroups_cases ok hparsed h).2 with
    ⟨hnone, hquit, rfl⟩ | ⟨i, old, hidx, hget, rfl⟩
  · have hjoin : service.action = multiOptJoin := hparsed.action.resolve_right hquit
    rw [AssocList.get_concat hnone, apply_join hjoin]
    apply ofLists_join
    simp [hnone, joined]
  · rw [AssocList.get_modify (fun l => updated service.action l service.ips) hidx, hget,
      Option.map_some, updated]
    split
    · rename_i hjoin
      rw [apply_join hjoin]
      apply ofLists_join
      rw [hget]
      rfl
    · rename_i hjoin
      split
      · rename_i hquit
        rw [apply_quit hquit]
        exact ofLists_quit hget fun ip => (ok.get_ok hget).nodup.mem_sdiff_iff
      · rename_i hquit
        rw [apply_other hjoin hquit, ← hget, Function.update_eq_self]
        rfl

theorem delGroups_cases {groups groups' : Groups} (ok : GroupsOk groups)
    {service : TmccNlServiceSt} (h : delGroups groups service = (0, groups')) :
    GroupsOk groups' ∧ ∃ i, AssocList.index groups service.multiIp = some i ∧
      groups' = groups.eraseIdx i := by
  unfold delGroups at h
  cases hidx : groups.findIdx? (fun p => p.1 = service.multiIp) with
  | none => simp [hidx] at h
  | some i =>
    simp only [hidx] at h
    obtain ⟨_, rfl⟩ := Prod.mk.inj h
    refine ⟨⟨AssocList.nodup_eraseIdx ok.keys i, ?_, ?_⟩, i, hidx, rfl⟩
    · exact Nat.le_trans (List.eraseIdx_sublist groups i).length_le ok.size
    · exact fun p hp => ok.members p ((List.eraseIdx_sublist groups i).subset hp)

/-! ## One process -/

/-- A config file that holds groups as the tool keeps them, or holds none since a clear. -/
def ConfigOk (cfg : Config) : Prop :=
  ∃ groups, cfg.getD [] = encode groups ∧ GroupsOk groups

theorem configOk_none : ConfigOk none := ⟨[], rfl, groupsOk_nil⟩

theorem ConfigOk.encode {groups : Groups} (ok : GroupsOk groups) : ConfigOk (some (encode groups)) :=
  ⟨groups, rfl, ok⟩

theorem ConfigOk.init {cfg : Config} (ok : ConfigOk cfg) : ConfigOk (multiGrpConfigInit cfg) := ok

/-- An accepted update keeps the file in order and changes the map as the process asks. -/
theorem ConfigOk.update {cfg cfg' : Config} (ok : ConfigOk cfg) {cmd : Command}
    (hparsed : cmd.Parsed) (h : cmd.updateConfig cfg = (0, cfg')) :
    ConfigOk cfg' ∧ configMap cfg' = cmd.apply (configMap cfg) := by
  obtain ⟨groups, hcfg, hok⟩ := ok
  have hsome : ∀ grpArray, cfg = some grpArray → cfg = some (KernelServer.encode groups) := by
    rintro grpArray rfl
    exact congrArg some hcfg
  cases cmd with
  | add service =>
    cases hc : cfg with
    | none => simp [hc, Command.updateConfig, multiGrpAddToConfig] at h
    | some grpArray =>
      rw [← hc, hsome grpArray hc, configMap_encode]
      rw [hsome grpArray hc, Command.updateConfig, multiGrpAddToConfig_encode] at h
      rcases hadd : addGroups groups service with ⟨code, groups'⟩
      rw [hadd] at h
      obtain ⟨rfl, rfl⟩ := Prod.mk.inj h
      rw [configMap_encode]
      exact ⟨.encode (addGroups_cases hok hparsed hadd).1, addGroups_map hok hparsed hadd⟩
  | del service =>
    cases hc : cfg with
    | none => simp [hc, Command.updateConfig, multiGrpDelFromConfig] at h
    | some grpArray =>
      rw [← hc, hsome grpArray hc, configMap_encode]
      rw [hsome grpArray hc, Command.updateConfig, multiGrpDelFromConfig_encode] at h
      rcases hdel : delGroups groups service with ⟨code, groups'⟩
      rw [hdel] at h
      obtain ⟨rfl, rfl⟩ := Prod.mk.inj h
      obtain ⟨hok', i, hidx, rfl⟩ := delGroups_cases hok hdel
      refine ⟨.encode hok', ?_⟩
      rw [configMap_encode, AssocList.get_eraseIdx hok.keys hidx]
      exact ofLists_del _ _
  | clear =>
    obtain ⟨_, rfl⟩ := Prod.mk.inj h
    exact ⟨configOk_none, rfl⟩
  | print _ _ =>
    obtain ⟨_, rfl⟩ := Prod.mk.inj h
    exact ⟨⟨groups, hcfg, hok⟩, rfl⟩

end MulticastProxy.KernelServer
