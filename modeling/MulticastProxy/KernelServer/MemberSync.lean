import MulticastProxy.KernelServer.Members
import MulticastProxy.KernelServer.ConfigMap

/-!
# Kernel server: one request on an array and on a row

The tool edits a JSON array that keeps its order and changes its length within the loop; the
module appends to a row, or moves the last cell into the gap and counts down. The two hold the
same set before and after.
-/

namespace MulticastProxy.KernelServer

set_option autoImplicit false

/-- The members under the first object of the config with this address. -/
def configMembers (cfg : Config) (g : UInt32) : Option (List (List Char)) :=
  ((cfg.getD []).find? fun grpObj => ip2str g = grpObj.groupIp).map fun grpObj =>
    grpObj.memberArray

/-- What a request does to the row of a group that is there: `add_vm_ip_list` for JOIN,
`del_quit_vm_ip`, which rejects nothing, for QUIT. -/
def rowUpdate (multiVm : Nat → Nat → UInt32) (idx : UInt8) (oldIpNum : Nat)
    (service : TmccNlServiceSt) : Outcome (Int × (Nat → Nat → UInt32) × Nat) :=
  if service.action = multiOptJoin then
    addVmIpList multiVm idx service.ipList service.ipNum.toNat oldIpNum
  else if service.action = multiOptQuit then
    let (row, cnt) :=
      delQuitVmIp service.ipList service.ipNum.toNat 0 (multiVm idx.toNat) oldIpNum
    .ret (0, Function.update multiVm idx.toNat row, cnt)
  else .ret (0, multiVm, oldIpNum)

/-- The array and the row hold the same members, each once, and the cells behind them are zero. -/
structure SameMembers (memberArray : List (List Char)) (row : Nat → UInt32) (cnt : Nat) : Prop where
  array : ∃ mem : List UInt32, memberArray = mem.map ip2str ∧ mem.Nodup ∧
    ∀ ip, ip ∈ mem ↔ ip ∈ cells row cnt
  nodup : (cells row cnt).Nodup
  bound : cnt ≤ multiVmMax
  zero : ∀ j, cnt ≤ j → j < multiVmMax → row j = 0

theorem SameMembers.length_eq {memberArray : List (List Char)} {row : Nat → UInt32} {cnt : Nat}
    (same : SameMembers memberArray row cnt) : memberArray.length = cnt := by
  obtain ⟨mem, rfl, hnodup, hmem⟩ := same.array
  have hperm : mem.Perm (cells row cnt) :=
    (List.perm_ext_iff_of_nodup hnodup same.nodup).mpr hmem
  rw [List.length_map, hperm.length_eq, length_cells]

/-! ## The module -/

variable {jhash1word : UInt32 → UInt32 → UInt32}

/-- A request for a live group is an update of the group's row and of the count in its node. -/
theorem multiNlNodeAdd_rowUpdate {s : State} {service : TmccNlServiceSt} {b row : Nat}
    (hb : b = mulitHashKey jhash1word service.multiIp multiGrpBucket)
    (hrow : rawLookupMultiNode jhash1word s service.multiIp = some row)
    (haction : service.action = multiOptJoin ∨ service.action = multiOptQuit) :
    multiNlNodeAdd jhash1word s service =
      rowUpdate s.multiVm (s.multiGrp b row).multiGrpIdx (s.multiGrp b row).multiMemberCnt service >>=
        fun r => .ret (if r.1 ≠ 0 then multiParamError else 0,
          { s with
            multiVm := r.2.1
            multiGrp := BucketLayout.put s.multiGrp b row
              { s.multiGrp b row with multiMemberCnt := r.2.2 } }) := by
  subst hb
  unfold multiNlNodeAdd rowUpdate
  by_cases hjoin : service.action = multiOptJoin
  · rw [if_pos hjoin, if_pos hjoin, addMultiNode_of_lookup hrow]
    rfl
  · have hquit : service.action = multiOptQuit := haction.resolve_left hjoin
    rw [if_neg hjoin, if_pos hquit, if_neg hjoin, if_pos hquit, vmQuitFromMultiGrp]
    simp only [hrow]
    rfl

theorem quitVmIp_zero {row : Nat → UInt32} {lastIp vmMax : Nat} (ip : UInt32)
    (hzero : ∀ j, lastIp ≤ j → j < vmMax → row j = 0) :
    (quitVmIp row lastIp ip).2 ≤ lastIp ∧
      ∀ j, (quitVmIp row lastIp ip).2 ≤ j → j < vmMax → (quitVmIp row lastIp ip).1 j = 0 := by
  unfold quitVmIp
  cases hfind : (List.range lastIp).find? (fun j => row j == ip) with
  | none => exact ⟨Nat.le_refl _, hzero⟩
  | some i =>
    obtain ⟨_, hlt, _⟩ := List.find?_range_eq_some.mp hfind
    have hi : i < lastIp := List.mem_range.mp hlt
    simp only
    refine ⟨Nat.sub_le _ _, ?_⟩
    intro j hj hmax
    -- the cell that was the last one has been zeroed, the ones behind it are not touched
    by_cases hlast : j = lastIp - 1
    · rw [hlast, Function.update_self]
    · rw [Function.update_of_ne hlast, Function.update_of_ne (by omega)]
      exact hzero j (by omega) hmax

theorem delQuitVmIp_zero (ipList : Nat → UInt32) (n i : Nat) {row : Nat → UInt32}
    {lastIp vmMax : Nat} (hzero : ∀ j, lastIp ≤ j → j < vmMax → row j = 0) :
    (delQuitVmIp ipList n i row lastIp).2 ≤ lastIp ∧
      ∀ j, (delQuitVmIp ipList n i row lastIp).2 ≤ j → j < vmMax →
        (delQuitVmIp ipList n i row lastIp).1 j = 0 := by
  induction n generalizing i row lastIp with
  | zero => exact ⟨Nat.le_refl _, hzero⟩
  | succ n ih =>
    obtain ⟨hle, hrow⟩ := quitVmIp_zero (ipList i) hzero
    obtain ⟨hle', hrow'⟩ := ih (i + 1) hrow
    exact ⟨Nat.le_trans hle' hle, hrow'⟩

/-! ## The tool -/

/-- A search of the config by address ends at the object that holds the members. -/
theorem findIdx?_of_configMembers {cfg : Config} {g : UInt32} {memberArray : List (List Char)}
    (hcfg : configMembers cfg g = some memberArray) :
    ∃ grpArray i grpObj, cfg = some grpArray ∧
      grpArray.findIdx? (fun grpObj => ip2str g = grpObj.groupIp) = some i ∧
      grpArray.find? (fun grpObj => ip2str g = grpObj.groupIp) = some grpObj ∧
      grpArray[i]? = some grpObj ∧ grpObj.memberArray = memberArray := by
  cases cfg with
  | none => simp [configMembers] at hcfg
  | some grpArray =>
    obtain ⟨grpObj, hfind, hmem⟩ := Option.map_eq_some_iff.mp hcfg
    rw [Option.getD_some] at hfind
    obtain ⟨hp, i, hi, hat, hbefore⟩ := List.find?_eq_some_iff_getElem.mp hfind
    refine ⟨grpArray, i, grpObj, rfl, ?_, hfind, ?_, hmem⟩
    · apply List.findIdx?_eq_some_iff_getElem.mpr
      refine ⟨hi, by rw [hat]; exact hp, ?_⟩
      intro j hj
      simpa using hbefore j hj
    · rw [List.getElem?_eq_getElem hi, hat]

theorem multiGrpAddToConfig_rejected {cfg : Config} {service : TmccNlServiceSt}
    {memberArray : List (List Char)}
    (hcfg : configMembers cfg service.multiIp = some memberArray)
    (hbig : service.action = multiOptJoin ∧
      multiVmMax < (service.ipNum.toNat + memberArray.length) % 2 ^ 32) :
    multiGrpAddToConfig cfg service = (-1, cfg) := by
  obtain ⟨grpArray, i, grpObj, rfl, hidx, _, hat, rfl⟩ := findIdx?_of_configMembers hcfg
  unfold multiGrpAddToConfig
  simp only [hidx, hat, Option.map_some, Option.getD_some, if_pos hbig]

theorem multiGrpAddToConfig_accepted {cfg : Config} {service : TmccNlServiceSt}
    {memberArray : List (List Char)}
    (hcfg : configMembers cfg service.multiIp = some memberArray)
    (hfit : ¬ (service.action = multiOptJoin ∧
      multiVmMax < (service.ipNum.toNat + memberArray.length) % 2 ^ 32)) :
    ∃ cfg', multiGrpAddToConfig cfg service = (0, cfg') ∧
      configMembers cfg' service.multiIp =
        some ((service.ips.map ip2str).foldl (memberUpdate service.action) memberArray) := by
  obtain ⟨grpArray, i, grpObj, rfl, hidx, hfind, hat, rfl⟩ := findIdx?_of_configMembers hcfg
  unfold multiGrpAddToConfig
  simp only [hidx, hat, Option.map_some, Option.getD_some, if_neg hfit]
  refine ⟨_, rfl, ?_⟩
  rw [configMembers, Option.getD_some, AssocList.find?_modify ?_ hidx, hfind]
  · rfl
  · intro grpObj'
    rfl

/-! ## Both -/

/-- A JOIN that fits appends the newcomers on both sides. -/
theorem SameMembers.join {memberArray : List (List Char)} {multiVm : Nat → Nat → UInt32}
    {idx : UInt8} {cnt : Nat} {service : TmccNlServiceSt}
    (same : SameMembers memberArray (multiVm idx.toNat) cnt)
    (hjoin : service.action = multiOptJoin) (hips : service.ips.Nodup)
    (hfit : service.ipNum.toNat + cnt ≤ multiVmMax) :
    ∃ multiVm' cnt', rowUpdate multiVm idx cnt service = .ret (0, multiVm', cnt') ∧
      SameMembers ((service.ips.map ip2str).foldl (memberUpdate service.action) memberArray)
        (multiVm' idx.toNat) cnt' := by
  obtain ⟨mem, rfl, hnodup, hmem⟩ := same.array
  have hroom : cnt + service.ipNum.toNat ≤ multiVmMax := by omega
  obtain ⟨row, cnt', hloop⟩ := addVmIpLoop_returns service.ipList cnt 0 (multiVm idx.toNat) hroom
  obtain ⟨hcells, _, hbound, _⟩ := addVmIpLoop_ret (Nat.le_refl _) hloop
  obtain ⟨hle, habove⟩ := addVmIpLoop_above hloop
  rw [newcomers_zero] at hcells
  have hjoined : cells row cnt' = joined (cells (multiVm idx.toNat) cnt) service.ips := hcells
  refine ⟨Function.update multiVm idx.toNat row, cnt', ?_, ?_⟩
  · have hsmall : multiVmMax < 2 ^ 32 := by decide
    unfold rowUpdate addVmIpList
    rw [if_pos hjoin, Nat.mod_eq_of_lt (by omega), if_neg (by omega), hloop]
    rfl
  · rw [foldl_memberUpdate_map, hjoin, foldl_join hips, Function.update_self]
    refine ⟨⟨_, rfl, nodup_joined hnodup hips, ?_⟩, ?_, hbound same.bound, ?_⟩
    · intro ip
      rw [hjoined, mem_joined, mem_joined, hmem]
    · rw [hjoined]
      exact nodup_joined same.nodup hips
    · intro j hj hmax
      rw [habove j hj]
      exact same.zero j (by omega) hmax

/-- A QUIT takes the addresses that it finds away on both sides. -/
theorem SameMembers.quit {memberArray : List (List Char)} {multiVm : Nat → Nat → UInt32}
    {idx : UInt8} {cnt : Nat} {service : TmccNlServiceSt}
    (same : SameMembers memberArray (multiVm idx.toNat) cnt)
    (hquit : service.action = multiOptQuit) :
    ∃ multiVm' cnt', rowUpdate multiVm idx cnt service = .ret (0, multiVm', cnt') ∧
      SameMembers ((service.ips.map ip2str).foldl (memberUpdate service.action) memberArray)
        (multiVm' idx.toNat) cnt' := by
  obtain ⟨mem, rfl, hnodup, hmem⟩ := same.array
  obtain ⟨hleft, hmemLeft⟩ := delQuitVmIp_members service.ipList service.ipNum.toNat 0 same.nodup
  obtain ⟨hle, hzero⟩ := delQuitVmIp_zero service.ipList service.ipNum.toNat 0 same.zero
  have hips : (List.range' 0 service.ipNum.toNat).map service.ipList = service.ips := by
    rw [TmccNlServiceSt.ips, cells, List.range_eq_range']
  rw [hips] at hmemLeft
  refine ⟨_, _, by rw [rowUpdate, if_neg (by rw [hquit]; decide), if_pos hquit], ?_⟩
  rw [foldl_memberUpdate_map, hquit, foldl_quit, Function.update_self]
  refine ⟨⟨_, rfl, hnodup.diff, ?_⟩, hleft, Nat.le_trans hle same.bound, hzero⟩
  intro ip
  rw [hnodup.mem_sdiff_iff, hmemLeft, hmem]

/-- A group that config and kernel hold with the same members: a request is accepted by both or
by neither, and they hold the same members afterwards. -/
theorem members_agree {cfg : Config} {multiVm : Nat → Nat → UInt32} {idx : UInt8} {cnt : Nat}
    {service : TmccNlServiceSt} {memberArray : List (List Char)}
    (hcfg : configMembers cfg service.multiIp = some memberArray)
    (hsame : SameMembers memberArray (multiVm idx.toNat) cnt)
    (haction : service.action = multiOptJoin ∨ service.action = multiOptQuit)
    (hips : service.ips.Nodup) (hnum : service.ipNum.toNat ≤ multiVmMax) :
    ∃ code multiVm' cnt' memberArray',
      rowUpdate multiVm idx cnt service = .ret (code, multiVm', cnt') ∧
      ((multiGrpAddToConfig cfg service).1 = 0 ↔ code = 0) ∧
      configMembers (multiGrpAddToConfig cfg service).2 service.multiIp = some memberArray' ∧
      SameMembers memberArray' (multiVm' idx.toNat) cnt' ∧ memberArray'.length = cnt' := by
  have hlen : memberArray.length = cnt := hsame.length_eq
  have hcnt : cnt ≤ multiVmMax := hsame.bound
  have hsmall : multiVmMax < 2 ^ 31 := by decide
  have hwrap : (service.ipNum.toNat + cnt) % 2 ^ 32 = service.ipNum.toNat + cnt :=
    Nat.mod_eq_of_lt (by omega)
  by_cases hbig : service.action = multiOptJoin ∧ multiVmMax < service.ipNum.toNat + cnt
  · -- both reject, and nothing has changed
    have hrow : rowUpdate multiVm idx cnt service = .ret (multiParamError, multiVm, cnt) := by
      rw [rowUpdate, if_pos hbig.1, addVmIpList, hwrap, if_pos hbig.2]
    have hreject : multiGrpAddToConfig cfg service = (-1, cfg) := by
      apply multiGrpAddToConfig_rejected hcfg
      rw [hlen, hwrap]
      exact hbig
    refine ⟨_, _, _, memberArray, hrow, ?_, ?_, hsame, hlen⟩
    · rw [hreject]
      simp
    · rw [hreject]
      exact hcfg
  · obtain ⟨cfg', haccept, hmembers⟩ := multiGrpAddToConfig_accepted hcfg
      (by rw [hlen, hwrap]; exact hbig)
    have hrow : ∃ multiVm' cnt', rowUpdate multiVm idx cnt service = .ret (0, multiVm', cnt') ∧
        SameMembers ((service.ips.map ip2str).foldl (memberUpdate service.action) memberArray)
          (multiVm' idx.toNat) cnt' := by
      rcases haction with hjoin | hquit
      · apply hsame.join hjoin hips
        by_contra hnot
        exact hbig ⟨hjoin, by omega⟩
      · exact hsame.quit hquit
    obtain ⟨multiVm', cnt', hret, hafter⟩ := hrow
    rw [haccept]
    exact ⟨0, multiVm', cnt', _, hret, Iff.rfl, hmembers, hafter, hafter.length_eq⟩

/-- Two members, listed in another order by the file, and a QUIT that names one of them. -/
theorem members_agree_quit : ∃ code multiVm' cnt' memberArray',
    rowUpdate (fun _ j => [7, 8].getD j 0) 1 2 (.ofList multiOptQuit 0xE0000001 [8, 9]) =
      .ret (code, multiVm', cnt') ∧
    ((multiGrpAddToConfig (some [⟨ip2str 0xE0000001, [ip2str 8, ip2str 7]⟩])
      (.ofList multiOptQuit 0xE0000001 [8, 9])).1 = 0 ↔ code = 0) ∧
    configMembers (multiGrpAddToConfig (some [⟨ip2str 0xE0000001, [ip2str 8, ip2str 7]⟩])
      (.ofList multiOptQuit 0xE0000001 [8, 9])).2 0xE0000001 = some memberArray' ∧
    SameMembers memberArray' (multiVm' (1 : UInt8).toNat) cnt' ∧ memberArray'.length = cnt' := by
  have hcfg : configMembers (some [⟨ip2str 0xE0000001, [ip2str 8, ip2str 7]⟩])
      (TmccNlServiceSt.ofList multiOptQuit 0xE0000001 [8, 9]).multiIp =
        some [ip2str 8, ip2str 7] := by
    simp [configMembers, TmccNlServiceSt.ofList]
  have hsame : SameMembers [ip2str 8, ip2str 7] (fun j => [7, 8].getD j 0) 2 := by
    refine ⟨⟨[8, 7], rfl, by decide, ?_⟩, by decide, by decide, ?_⟩
    · intro ip
      simp [cells, List.range_succ, or_comm]
    · intro j hj _
      rw [List.getD_eq_getElem?_getD, List.getElem?_eq_none hj]
      rfl
  exact members_agree hcfg hsame (Or.inr rfl) (by decide) (by decide)

end MulticastProxy.KernelServer
