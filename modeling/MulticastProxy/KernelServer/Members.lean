import MulticastProxy.KernelServer.IndexOwnership
import MulticastProxy.KernelServer.GroupMap

/-!
# Kernel server: member lists

As long as indices have one owner the table is a map from groups to member lists, and a command
changes it at one group. The rows hold no address twice.
-/

namespace MulticastProxy.KernelServer

set_option autoImplicit false

/-- The members of a live group, in the order of its row. -/
def membersOf (jhash1word : UInt32 → UInt32 → UInt32) (s : State) (g : UInt32) :
    Option (List UInt32) :=
  (nodeOf jhash1word s g).map fun node => getVmIpList s node.multiGrpIdx node.multiMemberCnt

variable {jhash1word : UInt32 → UInt32 → UInt32}

theorem lookupMultiNode_members (s : State) (g : UInt32) :
    (lookupMultiNode jhash1word s g).map (fun found => found.2.2) = membersOf jhash1word s g := by
  rw [lookupMultiNode_eq, Option.map_map]
  rfl

theorem membersOf_of_nodes {s : State} (h : ∀ g, nodeOf jhash1word s g = none) (g : UInt32) :
    membersOf jhash1word s g = none := by
  rw [membersOf, h, Option.map_none]

/-- One group's node and one row are rewritten, and no other group owns the row. -/
theorem membersOf_update {s s' : State} {g : UInt32} {node : Option MultiNode} (idx : Nat)
    (hn : nodeOf jhash1word s' = Function.update (nodeOf jhash1word s) g node)
    (hvm : ∀ i, i ≠ idx → s'.multiVm i = s.multiVm i)
    (hother : ∀ g' node', g' ≠ g → nodeOf jhash1word s g' = some node' →
      node'.multiGrpIdx.toNat ≠ idx) :
    membersOf jhash1word s' = Function.update (membersOf jhash1word s) g
      (node.map fun n => getVmIpList s' n.multiGrpIdx n.multiMemberCnt) := by
  funext g'
  rw [Function.update_apply]
  unfold membersOf
  rw [hn, Function.update_apply]
  split
  · rfl
  · rename_i hg
    cases h : nodeOf jhash1word s g' with
    | none => rfl
    | some node' => simp only [Option.map_some, getVmIpList, hvm _ (hother g' node' hg h)]

theorem Recounted.members {s s' : State} {g : UInt32} {node : MultiNode} {cnt : Nat}
    {row : Nat → UInt32} (recount : Recounted jhash1word s s' g node cnt)
    (vm : s'.multiVm = Function.update s.multiVm node.multiGrpIdx.toNat row)
    (wf : WellFormed jhash1word s) (own : IndexOwned s) :
    membersOf jhash1word s' =
      Function.update (membersOf jhash1word s) g (some (cells row cnt)) := by
  rw [membersOf_update node.multiGrpIdx.toNat recount.nodes
    (fun i hi => by rw [vm, Function.update_of_ne hi])
    (fun g' node' hg h he => hg (own.eq_of_idx wf h recount.found (UInt8.toNat_inj.mp he)))]
  simp [getVmIpList, vm]

theorem Created.members {s s' : State} {g : UInt32} {idx cnt : Nat} {row : Nat → UInt32}
    (made : Created jhash1word s s' g idx cnt) (hidx : idx < 256)
    (vm : s'.multiVm = Function.update s.multiVm (UInt8.ofNat idx).toNat row)
    (wf : WellFormed jhash1word s) (own : IndexOwned s) :
    membersOf jhash1word s' =
      Function.update (membersOf jhash1word s) g (some (cells row cnt)) := by
  have hbyte : (UInt8.ofNat idx).toNat = idx := UInt8.toNat_ofNat_of_lt' hidx
  rw [membersOf_update (UInt8.ofNat idx).toNat made.nodes
    (fun i hi => by rw [vm, Function.update_of_ne hi]) ?_]
  · simp [getVmIpList, vm]
  · intro g' node' _ h he
    have hset := (own.bit_iff wf idx).mpr ⟨g', node', h, by rw [he, hbyte]⟩
    simp [made.clear] at hset

theorem Deleted.members {s s' : State} {g : UInt32} {node : MultiNode}
    (gone : Deleted jhash1word s s' g node) (wf : WellFormed jhash1word s) (own : IndexOwned s) :
    membersOf jhash1word s' = Function.update (membersOf jhash1word s) g none :=
  membersOf_update node.multiGrpIdx.toNat gone.nodes
    (fun i hi => by rw [gone.vm, clearVmIpList, Function.update_of_ne hi])
    (fun g' node' hg h he => hg (own.eq_of_idx wf h gone.found (UInt8.toNat_inj.mp he)))

/-! ## JOIN -/

theorem multiNlNodeAdd_join {s s' : State} (wf : WellFormed jhash1word s) (own : IndexOwned s)
    {service : TmccNlServiceSt} (hjoin : service.action = multiOptJoin)
    (hroom : PoolRoom jhash1word s (.serviceAdd service))
    (h : multiNlNodeAdd jhash1word s service = .ret (0, s')) :
    membersOf jhash1word s' = Function.update (membersOf jhash1word s) service.multiIp
      (some (joined ((membersOf jhash1word s service.multiIp).getD []) service.ips)) := by
  rw [multiNlNodeAdd, if_pos hjoin] at h
  rcases addMultiNode_cases wf h with ⟨node, hext⟩ | ⟨_, h0, _⟩ | ⟨idx, cnt, made, hvm⟩
  · have hold : (membersOf jhash1word s service.multiIp).getD [] =
        cells (s.multiVm node.multiGrpIdx.toNat) node.multiMemberCnt := by
      rw [membersOf, hext.found]
      rfl
    cases hext with
    | appended recount vm members bound =>
      rw [recount.members vm wf own, members, hold, newcomers_zero]
      rfl
  · simp at h0
  · have hnone : membersOf jhash1word s service.multiIp = none := by
      rw [membersOf, made.fresh, Option.map_none]
    rcases hvm with ⟨h0, _⟩ | ⟨_, _, row, hvm, hcells⟩
    · simp at h0
    · rw [made.members (own.index_lt wf (hroom hjoin made.fresh) made) hvm wf own, hcells, hnone,
        newcomers_zero]
      rfl

/-! ## QUIT -/

theorem cells_set (row : Nat → UInt32) (n j : Nat) (x : UInt32) :
    cells (Function.update row j x) n = (cells row n).set j x := by
  apply List.ext_getElem
  · simp
  · intro i h1 h2
    simp only [cells, List.getElem_map, List.getElem_range, List.getElem_set,
      Function.update_apply, eq_comm]

theorem cells_update_ge (row : Nat → UInt32) {n j : Nat} (hj : n ≤ j) (x : UInt32) :
    cells (Function.update row j x) n = cells row n :=
  cells_congr fun i hi => Function.update_of_ne (by omega) x row

/-- The cell found is overwritten with the last one: as a multiset exactly `ip` is gone. -/
theorem quitVmIp_perm {row : Nat → UInt32} {lastIp : Nat} {ip : UInt32}
    (h : ip ∈ cells row lastIp) :
    (cells row lastIp).Perm
      (ip :: cells (quitVmIp row lastIp ip).1 (quitVmIp row lastIp ip).2) := by
  unfold quitVmIp
  cases hfind : (List.range lastIp).find? (fun j => row j == ip) with
  | none =>
    rw [List.find?_range_eq_none] at hfind
    obtain ⟨j, hj, he⟩ := mem_cells.mp h
    simpa [he] using hfind j hj
  | some j =>
    obtain ⟨hj, hlt, _⟩ := List.find?_range_eq_some.mp hfind
    have hrow : row j = ip := by simpa using hj
    have hlast : j < lastIp := List.mem_range.mp hlt
    obtain ⟨n, rfl⟩ : ∃ n, lastIp = n + 1 := ⟨lastIp - 1, by omega⟩
    simp only [Nat.add_sub_cancel]
    rw [cells_update_ge _ (Nat.le_refl n), cells_succ]
    by_cases hjn : j = n
    · subst hjn
      rw [cells_update_ge _ (Nat.le_refl j), hrow]
      exact List.perm_append_comm
    · have hlen : j < (cells row n).length := by
        rw [length_cells]
        omega
      have hget : (cells row n)[j] = ip := by simp [cells, hrow]
      have hout := List.getElem_cons_eraseIdx_perm hlen
      rw [hget] at hout
      rw [cells_set]
      have hswap : (row n :: ip :: (cells row n).eraseIdx j).Perm
          (ip :: row n :: (cells row n).eraseIdx j) := .swap _ _ _
      have hset : (ip :: row n :: (cells row n).eraseIdx j).Perm
          (ip :: (cells row n).set j (row n)) :=
        (List.set_perm_cons_eraseIdx hlen (row n)).symm.cons _
      apply List.perm_append_comm.trans
      exact (hout.symm.cons (row n)).trans (hswap.trans hset)

theorem quitVmIp_of_not_mem {row : Nat → UInt32} {lastIp : Nat} {ip : UInt32}
    (h : ip ∉ cells row lastIp) : quitVmIp row lastIp ip = (row, lastIp) := by
  unfold quitVmIp
  cases hfind : (List.range lastIp).find? (fun j => row j == ip) with
  | none => rfl
  | some j =>
    obtain ⟨hj, hlt, _⟩ := List.find?_range_eq_some.mp hfind
    exact absurd (mem_cells.mpr ⟨j, List.mem_range.mp hlt, by simpa using hj⟩) h

theorem quitVmIp_erase (row : Nat → UInt32) (lastIp : Nat) (ip : UInt32) :
    (cells (quitVmIp row lastIp ip).1 (quitVmIp row lastIp ip).2).Perm
      ((cells row lastIp).erase ip) := by
  by_cases hmem : ip ∈ cells row lastIp
  · have hperm := (quitVmIp_perm hmem).erase ip
    rw [List.erase_cons_head] at hperm
    exact hperm.symm
  · rw [quitVmIp_of_not_mem hmem, List.erase_of_not_mem hmem]

/-- Each address that quits takes one cell with it, if there is one. -/
theorem delQuitVmIp_diff (ipList : Nat → UInt32) (n i : Nat) (row : Nat → UInt32) (lastIp : Nat) :
    (cells (delQuitVmIp ipList n i row lastIp).1 (delQuitVmIp ipList n i row lastIp).2).Perm
      ((cells row lastIp).diff ((List.range' i n).map ipList)) := by
  induction n generalizing i row lastIp with
  | zero => exact List.Perm.refl _
  | succ n ih =>
    rw [List.range'_succ, List.map_cons, List.diff_cons]
    exact (ih _ _ _).trans ((quitVmIp_erase row lastIp (ipList i)).diff_right _)

/-- A row without repetitions keeps exactly the addresses that did not quit. -/
theorem delQuitVmIp_members (ipList : Nat → UInt32) (n i : Nat) {row : Nat → UInt32}
    {lastIp : Nat} (hnd : (cells row lastIp).Nodup) :
    (cells (delQuitVmIp ipList n i row lastIp).1 (delQuitVmIp ipList n i row lastIp).2).Nodup ∧
    ∀ ip, ip ∈ cells (delQuitVmIp ipList n i row lastIp).1 (delQuitVmIp ipList n i row lastIp).2 ↔
      ip ∈ cells row lastIp ∧ ip ∉ (List.range' i n).map ipList := by
  have hperm := delQuitVmIp_diff ipList n i row lastIp
  refine ⟨hperm.nodup_iff.mpr hnd.diff, ?_⟩
  intro ip
  rw [hperm.mem_iff, hnd.mem_sdiff_iff]

theorem multiNlNodeAdd_quit {s s' : State} (wf : WellFormed jhash1word s) (own : IndexOwned s)
    (hnd : NodupLists (membersOf jhash1word s)) {service : TmccNlServiceSt}
    (hjoin : service.action ≠ multiOptJoin) (hquit : service.action = multiOptQuit)
    (h : multiNlNodeAdd jhash1word s service = .ret (0, s')) :
    ∃ old l, membersOf jhash1word s service.multiIp = some old ∧
      membersOf jhash1word s' =
        Function.update (membersOf jhash1word s) service.multiIp (some l) ∧
      l.Nodup ∧ ∀ ip, ip ∈ l ↔ ip ∈ old ∧ ip ∉ service.ips := by
  rw [multiNlNodeAdd, if_neg hjoin, if_pos hquit] at h
  rcases vmQuitFromMultiGrp_cases wf service.multiIp service.ipList service.ipNum.toNat with
    ⟨_, hq⟩ | ⟨node, t, hq, recount, hvm⟩
  · rw [hq] at h
    simp at h
  · rw [hq] at h
    obtain ⟨_, rfl⟩ := Prod.mk.inj (Outcome.ret.inj h)
    have hold : membersOf jhash1word s service.multiIp =
        some (cells (s.multiVm node.multiGrpIdx.toNat) node.multiMemberCnt) := by
      rw [membersOf, recount.found]
      rfl
    obtain ⟨h1, h2⟩ := delQuitVmIp_members service.ipList service.ipNum.toNat 0 (hnd _ _ hold)
    have hips : service.ips = (List.range' 0 service.ipNum.toNat).map service.ipList := by
      rw [TmccNlServiceSt.ips, cells, List.range_eq_range']
    refine ⟨_, _, hold, recount.members hvm wf own, h1, fun ip => ?_⟩
    rw [h2, hips]

/-! ## DEL and CLEAR -/

theorem multiNlNodeDelete_members {s : State} (wf : WellFormed jhash1word s) (own : IndexOwned s)
    (service : TmccNlServiceSt) :
    membersOf jhash1word (multiNlNodeDelete jhash1word s service).2 =
      Function.update (membersOf jhash1word s) service.multiIp none := by
  rw [multiNlNodeDelete]
  rcases delMultiNode_cases wf service.multiIp with ⟨hnone, hd⟩ | ⟨node, t, hd, hgone⟩
  · rw [hd, eq_comm, Function.update_eq_self_iff, membersOf, hnone, Option.map_none]
  · rw [hd]
    exact hgone.members wf own

theorem multiNlNodeClear_members {s : State} (wf : WellFormed jhash1word s) :
    membersOf jhash1word (multiNlNodeClear s).2 = fun _ => none := by
  funext g
  simp only [multiNlNodeClear]
  exact membersOf_of_nodes (nodeOf_clearMultiGroup wf) g

/-! ## One process -/

/-- What a run of the module keeps. -/
structure KernelOk (jhash1word : UInt32 → UInt32 → UInt32) (s : State) : Prop where
  wf : WellFormed jhash1word s
  own : IndexOwned s
  nodup : NodupLists (membersOf jhash1word s)

theorem kernelOk_init : KernelOk jhash1word multiNodeInit where
  wf := multiNodeInit_wellFormed
  own := multiNodeInit_indexOwned
  nodup := fun g l h => by simp [membersOf] at h

/-- The map that the module holds. -/
def memberMap (jhash1word : UInt32 → UInt32 → UInt32) (s : State) : GroupMap := fun g =>
  (lookupMultiNode jhash1word s g).map fun found => {ip | ip ∈ found.2.2}

theorem memberMap_eq (s : State) : memberMap jhash1word s = ofLists (membersOf jhash1word s) := by
  funext g
  rw [ofLists, ← lookupMultiNode_members, Option.map_map]
  rfl

theorem KernelOk.members {s s' : State} (ok : KernelOk jhash1word s) {cmd : Command}
    (hdist : cmd.Distinct) {msg : NlMessage} (hmsg : cmd.message = some msg)
    (hroom : PoolRoom jhash1word s msg) (h : tmccRcvSkb jhash1word s msg = .ret (0, s')) :
    NodupLists (membersOf jhash1word s') ∧
      memberMap jhash1word s' = cmd.apply (memberMap jhash1word s) := by
  rw [memberMap_eq, memberMap_eq]
  cases cmd with
  | add service =>
    obtain rfl := Option.some.inj hmsg
    by_cases hjoin : service.action = multiOptJoin
    · have hlists := multiNlNodeAdd_join ok.wf ok.own hjoin hroom h
      rw [hlists, apply_join hjoin]
      refine ⟨ok.nodup.update _ ?_, ofLists_join rfl⟩
      intro l hl
      obtain rfl := Option.some.inj hl
      refine nodup_joined ?_ hdist
      cases hold : membersOf jhash1word s service.multiIp with
      | none => exact List.nodup_nil
      | some old => exact ok.nodup _ _ hold
    · by_cases hquit : service.action = multiOptQuit
      · obtain ⟨old, l, hold, hlists, hl, hmem⟩ :=
          multiNlNodeAdd_quit ok.wf ok.own ok.nodup hjoin hquit h
        rw [hlists, apply_quit hquit]
        refine ⟨ok.nodup.update _ ?_, ofLists_quit hold hmem⟩
        intro l' he
        exact Option.some.inj he ▸ hl
      · simp only [tmccRcvSkb, multiNlNodeAdd, if_neg hjoin, if_neg hquit, Outcome.ret.injEq,
          Prod.mk.injEq, true_and] at h
        rw [apply_other hjoin hquit, ← h]
        exact ⟨ok.nodup, rfl⟩
  | del service =>
    obtain rfl := Option.some.inj hmsg
    have hlists := multiNlNodeDelete_members ok.wf ok.own service
    rw [Outcome.ret.inj h] at hlists
    rw [hlists, apply_del]
    refine ⟨ok.nodup.update _ ?_, ofLists_del _ _⟩
    intro l hl
    simp at hl
  | clear =>
    obtain rfl := Option.some.inj hmsg
    have hlists := multiNlNodeClear_members ok.wf
    rw [Outcome.ret.inj h] at hlists
    rw [hlists]
    refine ⟨?_, rfl⟩
    intro g l hl
    simp at hl
  | print _ _ => simp [Command.message] at hmsg

/-- An accepted message keeps what a run keeps and changes the map as the process asks. -/
theorem KernelOk.send {s s' : State} (ok : KernelOk jhash1word s) {cmd : Command}
    (hdist : cmd.Distinct) {msg : NlMessage} (hmsg : cmd.message = some msg)
    (hroom : PoolRoom jhash1word s msg) (h : tmccRcvSkb jhash1word s msg = .ret (0, s')) :
    KernelOk jhash1word s' ∧ memberMap jhash1word s' = cmd.apply (memberMap jhash1word s) := by
  obtain ⟨h1, h2⟩ := ok.members hdist hmsg hroom h
  exact ⟨⟨tmccRcvSkb_wellFormed ok.wf h,
    (tmccRcvSkb_effect ok.wf h).indexOwned ok.wf ok.own hroom, h1⟩, h2⟩

/-! ## Who becomes a member -/

def IsMember (jhash1word : UInt32 → UInt32 → UInt32) (s : State) (g ip : UInt32) : Prop :=
  ∃ l, membersOf jhash1word s g = some l ∧ ip ∈ l

/-- What a message can make a member of a group. -/
def NlMessage.Brings : NlMessage → UInt32 → UInt32 → Prop
  | .serviceAdd service, g, ip =>
    service.action = multiOptJoin ∧ g = service.multiIp ∧ ip ∈ service.ips
  | .serviceCheckUpdate service, g, ip => g = service.multiIp ∧ ip ∈ service.ips
  | _, _, _ => False

theorem isMember_of_update {s s' : State} {g g' ip : UInt32} {l : Option (List UInt32)}
    (hlists : membersOf jhash1word s' = Function.update (membersOf jhash1word s) g l)
    (h : IsMember jhash1word s' g' ip) :
    IsMember jhash1word s g' ip ∨ g' = g ∧ ∃ l', l = some l' ∧ ip ∈ l' := by
  obtain ⟨l', hl', hip⟩ := h
  rw [hlists, Function.update_apply] at hl'
  split at hl'
  · rename_i hg
    exact Or.inr ⟨hg, l', hl', hip⟩
  · exact Or.inl ⟨l', hl', hip⟩

theorem Extended.isMember {s s' : State} {g : UInt32} {service : TmccNlServiceSt}
    {node : MultiNode} {code : Int}
    (hext : Extended jhash1word s g service.ipList service.ipNum.toNat node code s')
    (wf : WellFormed jhash1word s) (own : IndexOwned s) {g' ip : UInt32}
    (h : IsMember jhash1word s' g' ip) :
    IsMember jhash1word s g' ip ∨ g' = g ∧ ip ∈ service.ips := by
  have hold : membersOf jhash1word s g =
      some (cells (s.multiVm node.multiGrpIdx.toNat) node.multiMemberCnt) := by
    rw [membersOf, hext.found]
    rfl
  cases hext with
  | rejected recount vm =>
    have hvm := vm.trans (Function.update_eq_self node.multiGrpIdx.toNat s.multiVm).symm
    rcases isMember_of_update (recount.members hvm wf own) h with hmem | ⟨rfl, l, hl, hip⟩
    · exact Or.inl hmem
    · exact Or.inl ⟨l, hold.trans hl, hip⟩
  | appended recount vm members bound =>
    rcases isMember_of_update (recount.members vm wf own) h with hmem | ⟨rfl, l, hl, hip⟩
    · exact Or.inl hmem
    · obtain rfl := Option.some.inj hl
      rw [members, newcomers_zero] at hip
      rcases List.mem_append.mp hip with hip | hip
      · exact Or.inl ⟨_, hold, hip⟩
      · exact Or.inr ⟨rfl, (List.mem_filter.mp hip).1⟩

theorem addMultiNode_isMember {s s' : State} (wf : WellFormed jhash1word s) (own : IndexOwned s)
    {service : TmccNlServiceSt} (hjoin : service.action = multiOptJoin)
    (hroom : PoolRoom jhash1word s (.serviceAdd service)) {code : Int}
    (hadd : addMultiNode jhash1word s service.multiIp service.ipList service.ipNum.toNat =
      .ret (code, s')) {g ip : UInt32} (h : IsMember jhash1word s' g ip) :
    IsMember jhash1word s g ip ∨ g = service.multiIp ∧ ip ∈ service.ips := by
  rcases addMultiNode_cases wf hadd with ⟨node, hext⟩ | ⟨_, _, rfl⟩ | ⟨idx, cnt, made, hvm⟩
  · exact hext.isMember wf own h
  · exact Or.inl h
  · have hidx := own.index_lt wf (hroom hjoin made.fresh) made
    rcases hvm with ⟨_, rfl, hvm, _⟩ | ⟨_, _, row, hvm, hcells⟩
    · have hvm := hvm.trans (Function.update_eq_self (UInt8.ofNat idx).toNat s.multiVm).symm
      rcases isMember_of_update (made.members hidx hvm wf own) h with hmem | ⟨_, l, hl, hip⟩
      · exact Or.inl hmem
      · obtain rfl := Option.some.inj hl
        cases hip
    · rcases isMember_of_update (made.members hidx hvm wf own) h with hmem | ⟨rfl, l, hl, hip⟩
      · exact Or.inl hmem
      · obtain rfl := Option.some.inj hl
        rw [hcells, newcomers_zero] at hip
        exact Or.inr ⟨rfl, (List.mem_filter.mp hip).1⟩

theorem vmQuitFromMultiGrp_isMember {s : State} (wf : WellFormed jhash1word s)
    (own : IndexOwned s) {g : UInt32} {ipList : Nat → UInt32} {ipNum : Nat} {g' ip : UInt32}
    (h : IsMember jhash1word (vmQuitFromMultiGrp jhash1word s g ipList ipNum).2 g' ip) :
    IsMember jhash1word s g' ip := by
  rcases vmQuitFromMultiGrp_cases wf g ipList ipNum with ⟨_, hq⟩ | ⟨node, t, hq, recount, hvm⟩
  · rwa [hq] at h
  · rw [hq] at h
    rcases isMember_of_update (recount.members hvm wf own) h with hmem | ⟨rfl, l, hl, hip⟩
    · exact hmem
    · obtain rfl := Option.some.inj hl
      have hold : membersOf jhash1word s g' =
          some (cells (s.multiVm node.multiGrpIdx.toNat) node.multiMemberCnt) := by
        rw [membersOf, recount.found]
        rfl
      have hdiff := (delQuitVmIp_diff ipList ipNum 0 _ _).mem_iff.mp hip
      exact ⟨_, hold, List.diff_subset _ _ hdiff⟩

/-- A command makes nobody a member whom it does not name. -/
theorem isMember_of_command {s s' : State} (wf : WellFormed jhash1word s) (own : IndexOwned s)
    {msg : NlMessage} (hroom : PoolRoom jhash1word s msg) {code : Int}
    (hstep : tmccRcvSkb jhash1word s msg = .ret (code, s')) {g ip : UInt32}
    (h : IsMember jhash1word s' g ip) : IsMember jhash1word s g ip ∨ msg.Brings g ip := by
  cases msg with
  | serviceAdd service =>
    simp only [tmccRcvSkb, multiNlNodeAdd] at hstep
    split at hstep
    · rename_i hjoin
      exact (addMultiNode_isMember wf own hjoin hroom hstep h).imp_right fun hb => ⟨hjoin, hb⟩
    · split at hstep
      · have hs' := Outcome.ret.inj hstep
        have hmem : IsMember jhash1word (vmQuitFromMultiGrp jhash1word s service.multiIp
            service.ipList service.ipNum.toNat).2 g ip := by
          rw [hs']
          exact h
        exact Or.inl (vmQuitFromMultiGrp_isMember wf own hmem)
      · obtain ⟨_, rfl⟩ := Prod.mk.inj (Outcome.ret.inj hstep)
        exact Or.inl h
  | serviceDel service =>
    have hlists := multiNlNodeDelete_members wf own service
    rw [Outcome.ret.inj hstep] at hlists
    rcases isMember_of_update hlists h with hmem | ⟨_, l, hl, _⟩
    · exact Or.inl hmem
    · cases hl
  | serverClear =>
    have hlists := multiNlNodeClear_members wf
    rw [Outcome.ret.inj hstep] at hlists
    obtain ⟨l, hl, _⟩ := h
    rw [hlists] at hl
    cases hl
  | serviceCheckUpdate service =>
    obtain ⟨⟨ret, t⟩, happ, hret⟩ := Outcome.bind_eq_ret_iff.mp hstep
    obtain ⟨_, rfl⟩ := Prod.mk.inj (Outcome.ret.inj hret)
    rcases appendVmIpList_cases wf happ with ⟨_, _, rfl⟩ | ⟨node, hext⟩
    · exact Or.inl h
    · exact hext.isMember wf own h

end MulticastProxy.KernelServer
