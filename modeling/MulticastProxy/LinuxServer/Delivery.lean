import MulticastProxy.LinuxServer.Ports
import MulticastProxy.LinuxServer.ReloadRace

/-!
# Linux server proxy: one copy for each member (`server_proxy/config.c`, `server_proxy/multi_grp.c`)

The file is written by the tool, loaded by `cfg_init` and read for each packet. A repetition in it
goes through to the packets: `add_vm_ip_list` compares new members with old ones only. The tool
compares texts, and for a new group it compares nothing.
-/

namespace MulticastProxy.LinuxServer

set_option autoImplicit false

def Command.next (cfg : Config) (cmd : Command) : Option Config := some (cmd.run cfg).2

section
variable (inetAddr : List Char → UInt32)

/-- No group is in the file twice, and no group has a member twice. -/
structure DistinctAddrs (cfg : Config) : Prop where
  groups : ((cfg.getD []).map fun grpObj => grpObj.groupIp).Nodup
  members : ∀ grpObj ∈ cfg.getD [], (grpObj.memberArray.map inetAddr).Nodup

/-- A load that returns leaves rows without repetitions, and then no packet is sent to an address
twice. -/
def DeliversOnce (cfg : Config) : Prop :=
  ∀ groupIpArr groupNum code num arr s,
    cfgInit inetAddr cfg groupIpArr groupNum multiNodeInit = .ret (code, num, arr, s) →
    (∀ g found, lookupMultiNode s g = some found → found.iplist.Nodup) ∧
    ∀ env st stack pBuf ret st' sent,
      handleIncomingData env s st stack pBuf = .ret (ret, st', sent) →
        (sent.map fun copy => copy.addr).Nodup

def NoDuplicates (cfg : Config) : Prop := DistinctAddrs inetAddr cfg ∧ DeliversOnce inetAddr cfg

/-- An add that makes a group names no address twice. One to a group that is there has, with the
members from before, no two texts for one address. -/
def NamesOnce (cfg : Config) : Command → Prop
  | .join multiIp ipList _ =>
    ((∀ grpObj ∈ cfg.getD [], grpObj.groupIp ≠ multiIp) → (ipList.map inetAddr).Nodup) ∧
    ∀ grpObj ∈ cfg.getD [], grpObj.groupIp = multiIp →
      ∀ ip ∈ grpObj.memberArray ++ ipList, ∀ ip' ∈ grpObj.memberArray ++ ipList,
        inetAddr ip = inetAddr ip' → ip = ip'
  | _ => True

end

variable {inetAddr : List Char → UInt32}

/-! ## The file -/

theorem mem_newMembers {old seen ips : List (List Char)} {ip : List Char} :
    ip ∈ newMembers old seen ips ↔ ip ∈ ips ∧ ip ∉ seen ∧ ip ∉ old := by
  induction ips generalizing seen with
  | nil => simp [newMembers]
  | cons x ips ih =>
    rw [newMembers, List.mem_cons]
    split
    · rename_i hskip
      rw [ih, List.mem_append, List.mem_singleton, not_or]
      constructor
      · rintro ⟨hmem, ⟨hseen, _⟩, hold⟩
        exact ⟨Or.inr hmem, hseen, hold⟩
      · rintro ⟨rfl | hmem, hseen, hold⟩
        · exact absurd hskip (by simp [hseen, hold])
        · have hne : ip ≠ x := by
            rintro rfl
            exact absurd hskip (by simp [hseen, hold])
          exact ⟨hmem, ⟨hseen, hne⟩, hold⟩
    · rename_i hnew
      rw [not_or] at hnew
      rw [List.mem_cons, ih, List.mem_append, List.mem_singleton, not_or]
      constructor
      · rintro (rfl | ⟨hmem, ⟨hseen, _⟩, hold⟩)
        · exact ⟨Or.inl rfl, hnew⟩
        · exact ⟨Or.inr hmem, hseen, hold⟩
      · rintro ⟨rfl | hmem, hseen, hold⟩
        · exact Or.inl rfl
        · by_cases hx : ip = x
          · exact Or.inl hx
          · exact Or.inr ⟨hmem, ⟨hseen, hx⟩, hold⟩

theorem nodup_newMembers (old seen ips : List (List Char)) : (newMembers old seen ips).Nodup := by
  induction ips generalizing seen with
  | nil => exact List.nodup_nil
  | cons ip ips ih =>
    rw [newMembers]
    split
    · exact ih _
    · refine List.nodup_cons.mpr ⟨fun hmem => ?_, ih _⟩
      exact (mem_newMembers.mp hmem).2.1 (by simp)

/-- The members of a group that was there are distinct addresses exactly if one text stands for
each. -/
theorem nodup_extended {old ips : List (List Char)} (hold : (old.map inetAddr).Nodup) :
    ((old ++ newMembers old [] ips).map inetAddr).Nodup ↔
      ∀ ip ∈ old ++ ips, ∀ ip' ∈ old ++ ips, inetAddr ip = inetAddr ip' → ip = ip' := by
  have hnd : (old ++ newMembers old [] ips).Nodup := by
    refine List.nodup_append.mpr ⟨hold.of_map, nodup_newMembers _ _ _, fun ip hip ip' hip' => ?_⟩
    rintro rfl
    exact (mem_newMembers.mp hip').2.2 hip
  have hmem : ∀ ip, ip ∈ old ++ newMembers old [] ips ↔ ip ∈ old ++ ips := by
    intro ip
    rw [List.mem_append, List.mem_append, mem_newMembers]
    by_cases hin : ip ∈ old
    · simp [hin]
    · simp [hin]
  rw [List.nodup_map_iff_inj_on hnd]
  simp only [hmem]

theorem join_distinct_iff {cfg : Config} (h : DistinctAddrs inetAddr cfg) (multiIp : List Char)
    (ipList : List (List Char)) (port : UInt32) :
    DistinctAddrs inetAddr (jsonAddList cfg multiIp ipList port).2 ↔
      NamesOnce inetAddr cfg (.join multiIp ipList port) := by
  have hgroups := (jsonAddList_writes h.groups multiIp ipList port).nodup
  cases hfind : (cfg.getD []).findIdx? fun grpObj => grpObj.groupIp = multiIp with
  | some i =>
    obtain ⟨hi, hat, _⟩ := List.findIdx?_eq_some_iff_getElem.mp hfind
    have hip : ((cfg.getD [])[i]).groupIp = multiIp := by simpa using hat
    have hlisted := List.getElem_mem hi
    simp only [jsonAddList, hfind] at hgroups ⊢
    rw [AssocList.modify_eq_map h.groups _ hfind] at hgroups ⊢
    constructor
    · rintro ⟨_, hmembers⟩
      refine ⟨fun hnot => absurd hip (hnot _ hlisted), fun grpObj hmem hkey => ?_⟩
      have hnew := hmembers _ (List.mem_map_of_mem hmem)
      rw [if_pos hkey] at hnew
      exact (nodup_extended (h.members grpObj hmem)).mp hnew
    · rintro ⟨_, hone⟩
      refine ⟨hgroups, fun grpObj hmem => ?_⟩
      obtain ⟨old, hold, rfl⟩ := List.mem_map.mp hmem
      split
      · rename_i hkey
        exact (nodup_extended (h.members old hold)).mpr (hone old hold hkey)
      · exact h.members old hold
  | none =>
    have hnot : ∀ grpObj ∈ cfg.getD [], grpObj.groupIp ≠ multiIp := by
      simpa using List.findIdx?_eq_none_iff.mp hfind
    simp only [jsonAddList, hfind] at hgroups ⊢
    constructor
    · rintro ⟨_, hmembers⟩
      refine ⟨fun _ => ?_, fun grpObj hmem hkey => absurd hkey (hnot grpObj hmem)⟩
      exact hmembers _ (List.mem_append_right _ (List.mem_singleton_self _))
    · rintro ⟨hnew, _⟩
      refine ⟨hgroups, fun grpObj hmem => ?_⟩
      rcases List.mem_append.mp hmem with hold | hlast
      · exact h.members grpObj hold
      · obtain rfl := List.mem_singleton.mp hlast
        exact hnew hnot

theorem DistinctAddrs.quit {cfg : Config} (h : DistinctAddrs inetAddr cfg) (multiIp : List Char)
    (ipList : List (List Char)) : DistinctAddrs inetAddr (jsonDelList cfg multiIp ipList).2 := by
  refine ⟨(jsonDelList_writes h.groups multiIp ipList).nodup, ?_⟩
  cases cfg with
  | none => exact h.members
  | some grpArray =>
    cases hfind : grpArray.findIdx? fun grpObj => grpObj.groupIp = multiIp with
    | none =>
      simp only [jsonDelList, hfind]
      exact h.members
    | some i =>
      simp only [jsonDelList, hfind]
      intro grpObj hmem
      rcases mem_modify hmem with hold | ⟨old, hold, rfl⟩
      · exact h.members grpObj hold
      · exact (h.members old hold).sublist (List.filter_sublist.map _)

theorem DistinctAddrs.del {cfg : Config} (h : DistinctAddrs inetAddr cfg) (multiIp : List Char) :
    DistinctAddrs inetAddr (jsonDelMulticast cfg multiIp).2 := by
  refine ⟨jsonDelMulticast_nodup h.groups multiIp, fun grpObj hmem => ?_⟩
  obtain ⟨old, hold, _, rfl⟩ := (mem_jsonDelMulticast multiIp grpObj).mp hmem
  exact h.members old hold

theorem Command.distinct_iff {cfg : Config} (h : DistinctAddrs inetAddr cfg) (cmd : Command) :
    DistinctAddrs inetAddr (cmd.run cfg).2 ↔ NamesOnce inetAddr cfg cmd := by
  cases cmd with
  | join multiIp ipList port => exact join_distinct_iff h multiIp ipList port
  | quit multiIp ipList => exact iff_of_true (h.quit multiIp ipList) trivial
  | del multiIp => exact iff_of_true (h.del multiIp) trivial
  | clear =>
    have hempty : (Command.clear.run cfg).2.getD [] = [] := jsonClearList_getD cfg
    refine iff_of_true ⟨?_, ?_⟩ trivial
    · rw [hempty]
      exact List.nodup_nil
    · rw [hempty]
      exact fun _ hmem => (List.not_mem_nil hmem).elim

/-! ## The table -/

/-- Whatever a lookup finds is without repetitions. -/
def RowsOnce (s : State) : Prop := ∀ g found, lookupMultiNode s g = some found → found.iplist.Nodup

theorem nodup_append_filter {l m : List UInt32} (hl : l.Nodup) (hm : m.Nodup) :
    (l ++ m.filter (· ∉ l)).Nodup := by
  refine List.nodup_append.mpr ⟨hl, hm.filter _, fun ip hip ip' hip' => ?_⟩
  rintro rfl
  exact of_decide_eq_true (List.mem_filter.mp hip').2 hip

theorem addVmIpList_nodup {multiVm multiVm' : Nat → Nat → UInt32} {idx : UInt8}
    {ipList : Nat → UInt32} {ipNum oldIpNum cnt : Nat} {ret : Int}
    (hold : (cells (multiVm idx.toNat) oldIpNum).Nodup) (hnew : (cells ipList ipNum).Nodup)
    (h : addVmIpList multiVm idx ipList ipNum oldIpNum = .ret (ret, multiVm', cnt)) :
    (cells (multiVm' idx.toNat) cnt).Nodup := by
  unfold addVmIpList at h
  split at h
  · obtain ⟨_, rfl, rfl⟩ := Prod.mk.inj (Outcome.ret.inj h)
    exact hold
  · obtain ⟨⟨row, k⟩, hloop, hret⟩ := Outcome.bind_eq_ret_iff.mp h
    obtain ⟨_, rfl, rfl⟩ := Prod.mk.inj (Outcome.ret.inj hret)
    rw [Function.update_self, (addVmIpLoop_ret (Nat.le_refl _) hloop).1, newcomers_zero]
    exact nodup_append_filter hold hnew

theorem RowsOnce.add {s s' : State} (h : RowsOnce s) (hs : Sound s) {g : UInt32}
    {port serverPort : UInt16} {ipList : Nat → UInt32} {ipNum : UInt8} {code : Int}
    (hips : (cells ipList ipNum.toNat).Nodup)
    (hadd : addMultiNode s g port serverPort ipList ipNum = .ret (code, s')) : RowsOnce s' := by
  obtain ⟨_, t, ht, _, heffect⟩ := hs.add g port serverPort ipList ipNum
  obtain ⟨_, rfl⟩ := Prod.mk.inj (Outcome.ret.inj (hadd.symm.trans ht))
  intro g' found hfound
  by_cases hg : g' = g
  · subst hg
    cases hnode : nodeOf s g' with
    | some node =>
      have hcnt : node.multiMemberCnt ≤ multiVmMax := by
        obtain ⟨b, i, rfl, _, _⟩ := hs.wf.content_eq_some_iff.mp hnode
        exact hs.fit b i
      have hold := h g' _ (by rw [lookupMultiNode_eq, hnode, Option.map_some])
      rw [getVmIpList_of_le hcnt] at hold
      obtain ⟨ret, multiVm, cnt, hrow⟩ :=
        addVmIpList_returns s.multiVm node.multiGrpIdx ipList ipNum hcnt
      obtain ⟨u, hu, _, hnodes, _, rfl⟩ := addMultiNode_append hs.wf hnode port serverPort hrow
      obtain ⟨_, rfl⟩ := Prod.mk.inj (Outcome.ret.inj (hadd.symm.trans hu))
      rw [lookupMultiNode_eq, hnodes, Function.update_self, Option.map_some] at hfound
      obtain rfl := Option.some.inj hfound
      simp only [getVmIpList_of_le (addVmIpList_cnt hcnt hrow)]
      exact addVmIpList_nodup hold hips hrow
    | none =>
      cases hget : getIdx multiGrpMax s.gBitmap with
      | none =>
        have hrow : rawLookupMultiNode s g' = none := Option.map_eq_none_iff.mp hnode
        unfold addMultiNode at hadd
        simp only [hrow, hget] at hadd
        obtain ⟨_, rfl⟩ := Prod.mk.inj (Outcome.ret.inj hadd)
        exact h g' found hfound
      | some p =>
        have hempty : (cells (s.multiVm (UInt8.ofNat p.1).toNat) 0).Nodup := List.nodup_nil
        obtain ⟨ret, multiVm, cnt, hrow⟩ :=
          addVmIpList_returns s.multiVm (UInt8.ofNat p.1) ipList ipNum (Nat.zero_le _)
        obtain ⟨u, hu, _, hnodes, _, _, rfl⟩ :=
          addMultiNode_insert hs.wf hnode hget (hs.card_lt hget) port serverPort hrow
        obtain ⟨_, rfl⟩ := Prod.mk.inj (Outcome.ret.inj (hadd.symm.trans hu))
        rw [lookupMultiNode_eq, hnodes, Function.update_self, Option.map_some] at hfound
        obtain rfl := Option.some.inj hfound
        simp only [getVmIpList_of_le (addVmIpList_cnt (Nat.zero_le _) hrow)]
        exact addVmIpList_nodup hempty hips hrow
  · rw [(heffect.other hs hg).2] at hfound
    exact h g' found hfound

theorem RowsOnce.cfgLoop {grpArray : List GrpObj} {i : Nat} {groupIpArr groupIpArr' : Nat → UInt32}
    {s s' : State} (h : RowsOnce s) (hs : Sound s)
    (hmembers : ∀ grpObj ∈ grpArray, (grpObj.memberArray.map inetAddr).Nodup)
    (hloop : LinuxServer.cfgLoop inetAddr grpArray i groupIpArr s = .ret (groupIpArr', s')) :
    RowsOnce s' := by
  induction grpArray generalizing i groupIpArr s with
  | nil =>
    obtain ⟨_, rfl⟩ := Prod.mk.inj (Outcome.ret.inj hloop)
    exact h
  | cons grpObj grpArray ih =>
    rw [LinuxServer.cfgLoop] at hloop
    split at hloop
    · obtain ⟨ipListInt, hread, hloop⟩ := Outcome.bind_eq_ret_iff.mp hloop
      obtain ⟨⟨code, t⟩, hadd, hloop⟩ := Outcome.bind_eq_ret_iff.mp hloop
      obtain ⟨hsize, hcells⟩ := readMembers_cells hread
      have hnum : (UInt8.ofNat grpObj.memberArray.length).toNat = grpObj.memberArray.length :=
        UInt8.toNat_ofNat_of_lt' (Nat.lt_of_le_of_lt hsize (by decide))
      have hips : (cells ipListInt (UInt8.ofNat grpObj.memberArray.length).toNat).Nodup := by
        rw [hnum, hcells]
        exact hmembers grpObj (List.mem_cons_self ..)
      obtain ⟨_, u, hu, hsound, _⟩ := hs.add (inetAddr grpObj.groupIp) grpObj.groupPort.toUInt16
        grpObj.serverPort.toUInt16 ipListInt (UInt8.ofNat grpObj.memberArray.length)
      obtain ⟨_, rfl⟩ := Prod.mk.inj (Outcome.ret.inj (hadd.symm.trans hu))
      exact ih (h.add hs hips hadd) hsound
        (fun obj hobj => hmembers obj (List.mem_cons_of_mem _ hobj)) hloop
    · cases hloop

/-! ## Packets -/

/-- The copies go to the members from the `i`-th on, in order, as far as they go. -/
theorem sendLoop_sent {env : Env} {node : Found} {sendLen : UInt16}
    {rebuild : Nat → UInt32 → Memory → Memory} {countFirst : Bool} {n i : Nat} {buf : Memory}
    {st st' : Stats} {ret : Int} {sent : List Sent}
    (h : sendLoop env node sendLen rebuild countFirst n i buf st = .ret (ret, st', sent)) :
    (sent.map fun copy => copy.addr) <+: node.iplist.drop i := by
  apply List.prefix_iff_getElem?.mpr
  intro k hk
  rw [List.length_map] at hk
  obtain ⟨ip, _, hip, _, ho⟩ := sendLoop_rebuilt (P := fun _ => True) (fun _ _ _ _ => trivial)
    trivial h (List.getElem?_eq_getElem hk)
  rw [List.getElem?_drop, hip, List.getElem_map, ho]

theorem RowsOnce.handleIncomingData {s : State} (h : RowsOnce s) {env : Env} {st st' : Stats}
    {stack : Memory} {pBuf : List UInt8} {ret : Int} {sent : List Sent}
    (hrun : LinuxServer.handleIncomingData env s st stack pBuf = .ret (ret, st', sent)) :
    (sent.map fun copy => copy.addr).Nodup := by
  unfold LinuxServer.handleIncomingData at hrun
  simp only at hrun
  split at hrun
  · cases hrun
  · split at hrun
    · obtain ⟨_, _, rfl⟩ := Prod.mk.inj (Outcome.ret.inj hrun)
      exact List.nodup_nil
    · rename_i node hfound
      have hnodup := h _ node hfound
      split at hrun
      · cases hrun
      · split at hrun
        · exact hnodup.sublist (sendLoop_sent hrun).sublist
        · split at hrun
          · exact hnodup.sublist (sendLoop_sent hrun).sublist
          · obtain ⟨_, _, rfl⟩ := Prod.mk.inj (Outcome.ret.inj hrun)
            exact List.nodup_nil

theorem rowsOnce_multiNodeInit : RowsOnce multiNodeInit := by
  intro g found hfound
  rw [lookupMultiNode_multiNodeInit] at hfound
  cases hfound

theorem DistinctAddrs.deliversOnce {cfg : Config} (h : DistinctAddrs inetAddr cfg) :
    DeliversOnce inetAddr cfg := by
  intro groupIpArr groupNum code num arr s hinit
  have hrows : RowsOnce s := by
    cases cfg with
    | none =>
      obtain ⟨_, _, _, rfl⟩ : _ ∧ _ ∧ _ ∧ multiNodeInit = s := by simpa [cfgInit] using hinit
      exact rowsOnce_multiNodeInit
    | some grpArray =>
      obtain ⟨⟨arr', t⟩, hloop, hret⟩ := Outcome.bind_eq_ret_iff.mp hinit
      obtain ⟨_, _, _, rfl⟩ : _ ∧ _ ∧ _ ∧ t = s := by simpa using hret
      exact rowsOnce_multiNodeInit.cfgLoop multiNodeInit_sound h.members hloop
  exact ⟨hrows, fun env st stack pBuf ret st' sent => hrows.handleIncomingData⟩

/-! ## Runs -/

/-- Over every sequence of calls, in every file and after every load of one, no member has a copy
too many exactly if each add names each address once. -/
theorem no_duplicates_iff {cfg : Config} (hempty : cfg.getD [] = []) (cmds : List Command) :
    Trace.Throughout Command.next (NoDuplicates inetAddr) cfg cmds ↔
      Trace.EachStep Command.next (NamesOnce inetAddr) cfg cmds := by
  refine Trace.throughout_iff_eachStep (I := DistinctAddrs inetAddr) ?_ ?_ ?_ ?_ cmds
  · exact fun cfg h => ⟨h, h.deliversOnce⟩
  · intro cfg cmd cfg' h hnext hnames
    obtain rfl := Option.some.inj hnext
    exact (cmd.distinct_iff h).mpr hnames
  · intro cfg cmd cfg' h hnext hnames hno
    obtain rfl := Option.some.inj hnext
    exact hnames ((cmd.distinct_iff h).mp hno.1)
  · refine ⟨?_, ?_⟩
    · rw [hempty]
      exact List.nodup_nil
    · rw [hempty]
      exact fun _ hmem => (List.not_mem_nil hmem).elim

theorem no_duplicates_after_add :
    Trace.Throughout Command.next (NoDuplicates inetAddrQuad) none
      [.join "225.0.0.1".toList ["10.0.0.1".toList, "10.0.0.2".toList] 7126] := by
  rw [no_duplicates_iff rfl]
  refine fun _ _ => ⟨⟨fun _ => ?_, fun _ hmem => (List.not_mem_nil hmem).elim⟩, trivial⟩
  decide

/-- The list of a new group is written as it is. -/
theorem not_no_duplicates : ¬ ∀ cmds,
    Trace.Throughout Command.next (NoDuplicates inetAddrQuad) none cmds := by
  intro h
  have hafter := (h [.join "225.0.0.1".toList ["10.0.0.1".toList, "10.0.0.1".toList] 7126]).2 _ rfl
  have hmembers := hafter.1.members _ (List.mem_cons_self ..)
  exact absurd hmembers (by decide)

end MulticastProxy.LinuxServer
