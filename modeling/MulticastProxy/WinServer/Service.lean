import MulticastProxy.WinServer.Config
import MulticastProxy.WinServer.PacketPath
import MulticastProxy.WinServer.PoolStorage

/-!
# Windows proxy: from the config file to the copies (`config.c`, `entry.c`)

What the file says about a group and port is what becomes of the packets to them. A pair that is
named again keeps its server port and gets the addresses that it did not have.
-/

namespace MulticastProxy.WinServer

set_option autoImplicit false

open LinuxServer (Env Sent CarriesMark)

abbrev GroupKey := UInt32 × UInt16

/-! ## What the file says -/

section
variable (inetAddr : List Char → UInt32)

def GrpObj.key (grpObj : GrpObj) : GroupKey :=
  (inetAddr grpObj.groupIp, grpObj.groupPort.toUInt16)

/-- Server port and members after one more object. -/
def put (m : GroupKey → Option (UInt16 × List UInt32)) (grpObj : GrpObj) :
    GroupKey → Option (UInt16 × List UInt32) :=
  Function.update m (grpObj.key inetAddr) <|
    match m (grpObj.key inetAddr) with
    | none => some (grpObj.serverPort.toUInt16, grpObj.memberArray.map inetAddr)
    | some (port, ips) => some (port, ips ++ (grpObj.memberArray.map inetAddr).filter (· ∉ ips))

def configured (grpArray : List GrpObj) : GroupKey → Option (UInt16 × List UInt32) :=
  grpArray.foldl (put inetAddr) fun _ => none

/-- No group and port has more members than a packet's array takes. -/
def RowsFit (m : GroupKey → Option (UInt16 × List UInt32)) : Prop :=
  ∀ k port ips, m k = some (port, ips) → ips.length ≤ maxMemIpInGroup

end

/-- What the table says. -/
def tableMap (s : State) (k : GroupKey) : Option (UInt16 × List UInt32) :=
  (nodeOf s k).map fun node => (node.serverPort, members s node)

/-- What is sent of a packet, by a map from group and port to server port and members. -/
structure Delivers (m : GroupKey → Option (UInt16 × List UInt32)) (env : Env)
    (packet : List UInt8) (sent : List Sent) : Prop where
  marked : CarriesMark packet → sent = []
  absent : m (groupOf packet) = none → sent = []
  copies : ∀ port ips, m (groupOf packet) = some (port, ips) →
    List.Forall₂ (LinuxServer.IsCopy packet port) (ips.take sent.length) sent
  all : ∀ port ips, m (groupOf packet) = some (port, ips) → ¬ CarriesMark packet → Succeeds env →
    sent.length = ips.length

theorem FansOut.delivers {env : Env} {s : State} {packet : List UInt8} {sent : List Sent}
    (h : FansOut env s packet sent) : Delivers (tableMap s) env packet sent where
  marked := h.marked
  absent := fun hnone => h.absent (Option.map_eq_none_iff.mp hnone)
  copies := by
    intro port ips hmap
    obtain ⟨node, hnode, hpair⟩ := Option.map_eq_some_iff.mp hmap
    obtain ⟨rfl, rfl⟩ := Prod.mk.inj hpair
    exact h.copies node hnode
  all := by
    intro port ips hmap hmark hsucceeds
    obtain ⟨node, hnode, hpair⟩ := Option.map_eq_some_iff.mp hmap
    obtain ⟨rfl, rfl⟩ := Prod.mk.inj hpair
    rw [h.all node hnode hmark hsucceeds, members, length_cells]

/-! ## Rows only grow -/

section
variable {inetAddr : List Char → UInt32}

theorem put_of_ne {m : GroupKey → Option (UInt16 × List UInt32)} {grpObj : GrpObj} {k : GroupKey}
    (hk : grpObj.key inetAddr ≠ k) : put inetAddr m grpObj k = m k :=
  Function.update_of_ne hk.symm _ _

/-- A pair that no object names is not configured. -/
theorem foldl_put_of_ne {grpArray : List GrpObj} {m : GroupKey → Option (UInt16 × List UInt32)}
    {k : GroupKey} (hk : ∀ grpObj ∈ grpArray, grpObj.key inetAddr ≠ k) :
    grpArray.foldl (put inetAddr) m k = m k := by
  induction grpArray generalizing m with
  | nil => rfl
  | cons grpObj grpArray ih =>
    rw [List.foldl_cons, ih fun other hother => hk other (List.mem_cons_of_mem grpObj hother)]
    exact put_of_ne (hk grpObj List.mem_cons_self)

theorem put_extends {m : GroupKey → Option (UInt16 × List UInt32)} {k : GroupKey} {port : UInt16}
    {ips : List UInt32} (hm : m k = some (port, ips)) (grpObj : GrpObj) :
    ∃ more, put inetAddr m grpObj k = some (port, ips ++ more) := by
  by_cases hk : grpObj.key inetAddr = k
  · subst hk
    rw [put, Function.update_self, hm]
    exact ⟨_, rfl⟩
  · rw [put_of_ne hk, hm]
    exact ⟨[], by rw [List.append_nil]⟩

theorem RowsFit.of_foldl {grpArray : List GrpObj} {m : GroupKey → Option (UInt16 × List UInt32)}
    (h : RowsFit (grpArray.foldl (put inetAddr) m)) : RowsFit m := by
  induction grpArray generalizing m with
  | nil => exact h
  | cons grpObj grpArray ih =>
    intro k port ips hm
    obtain ⟨more, hput⟩ := put_extends hm grpObj
    have hle := ih h k port (ips ++ more) hput
    rw [List.length_append] at hle
    omega

theorem readMembers_cells {ips : List (List Char)} {j : Nat} {ipListInt l : Nat → UInt32}
    (h : readMembers inetAddr ips j ipListInt = .ret l) :
    cells l (j + ips.length) = cells ipListInt j ++ ips.map inetAddr := by
  induction ips generalizing j ipListInt with
  | nil =>
    obtain rfl := Outcome.ret.inj h
    simp
  | cons ip ips ih =>
    rw [readMembers] at h
    split at h
    · have hrest := ih h
      rw [cells_update_self] at hrest
      rw [List.length_cons, Nat.add_comm ips.length 1, ← Nat.add_assoc, hrest]
      simp
    · cases h

end

/-! ## One object -/

/-- The table while `cfg_init` fills it: the groups are among `keys`, the pool stays inside its
variable, and the table says `m`. -/
structure Filled (keys : Finset GroupKey) (m : GroupKey → Option (UInt16 × List UInt32))
    (s : State) : Prop where
  loading : Loading keys s
  stored : Stored s
  counted : Counted s
  holds : tableMap s = m

theorem filled_init : Filled ∅ (fun _ => none) multiNodeInit where
  loading := loading_init
  stored := stored_init
  counted := counted_init
  holds := by
    funext k
    rw [tableMap, nodeOf_multiNodeInit]
    rfl

theorem Loading.card_liveNodes_le {keys : Finset GroupKey} {s : State} (h : Loading keys s) :
    (liveNodes s).card ≤ keys.card := by
  have hlive : ∀ p ∈ liveNodes s, layout.live (s.multiGrp p.1 p.2) = true := by
    intro p hp
    unfold liveNodes at hp
    rwa [BucketLayout.WellFormed.mem_liveCells h.wf mulitHashKey_lt] at hp
  have hkey : ∀ p ∈ liveNodes s, layout.key (s.multiGrp p.1 p.2) ∈ keys := by
    intro p hp
    have hcontent := BucketLayout.WellFormed.content_of_cell h.wf (hlive p hp)
    exact (h.keys _ _ hcontent).1
  apply Finset.card_le_card_of_injOn _ hkey
  intro p hp q hq heq
  obtain ⟨hb, hi⟩ := BucketLayout.WellFormed.cell_unique h.wf (hlive p hp) (hlive q hq) heq
  exact Prod.ext hb hi

section
variable {keys : Finset GroupKey} {s : State}

/-- A new group gets the lowest clear index, and the node says what was asked for. -/
theorem Loading.addMultiNode_makes (h : Loading keys s) (hfew : keys.card < 256) {multiIp : UInt32}
    {multiPort : UInt16} (hfresh : nodeOf s (multiIp, multiPort) = none)
    (hclear : ∃ j < multiGrpMax, s.gBitmap j = false) (serverPort : UInt16)
    (ipList : Nat → UInt32) {ipNum : UInt8} (hnum : ipNum.toNat ≤ multiVmMax) :
    ∃ s' idx, addMultiNode s multiIp multiPort serverPort ipList ipNum = .ret (0, s') ∧
      idx < multiGrpMax ∧ s.gBitmap idx = false ∧
      nodeOf s' = Function.update (nodeOf s) (multiIp, multiPort)
        (some ⟨multiIp, ipNum.toNat, UInt8.ofNat idx, true, multiPort, serverPort⟩) ∧
      (∀ j ≠ idx, s'.multiVm j = s.multiVm j) ∧
      cells (s'.multiVm idx) ipNum.toNat = cells ipList ipNum.toNat := by
  have hrow : rawLookupMultiNode s multiIp multiPort = none := Option.map_eq_none_iff.mp hfresh
  obtain ⟨j, hj, hclear⟩ := hclear
  obtain ⟨⟨idx, gBitmap⟩, hget⟩ : ∃ p, getIdx multiGrpMax s.gBitmap = some p := by
    apply Option.ne_none_iff_exists'.mp
    intro hnone
    rw [getIdx_eq_none_iff.mp hnone j hj] at hclear
    cases hclear
  obtain ⟨hidx, hidle, _, rfl⟩ := getIdx_eq_some hget
  have hkeys : ∀ i, layout.live
      (s.multiGrp (mulitHashKey multiIp multiPort multiGrpBucket) i) = true →
      layout.key (s.multiGrp (mulitHashKey multiIp multiPort multiGrpBucket) i) ∈ keys :=
    fun i hlive => (h.keys _ _ (BucketLayout.WellFormed.content_of_cell h.wf hlive)).1
  rcases searchCell s (mulitHashKey multiIp multiPort multiGrpBucket) with
    ⟨i, hi, hs, hfree, hbusy⟩ | ⟨_, hall⟩
  · have hroom : 0 + ipNum.toNat ≤ multiVmMax := by omega
    obtain ⟨row, k, hloop⟩ :=
      addVmIpLoop_returns ipList 0 0 (s.multiVm (UInt8.ofNat idx).toNat) hroom
    obtain ⟨hcells, _⟩ := addVmIpLoop_ret (Nat.le_refl 0) hloop
    rw [cells_zero, List.nil_append, newcomers_zero, List.filter_eq_self.mpr (by simp)] at hcells
    have hk : k = ipNum.toNat := by simpa using congrArg List.length hcells
    subst hk
    have hadd : addVmIpList s.multiVm (UInt8.ofNat idx) ipList ipNum.toNat 0 =
        .ret (0, Function.update s.multiVm (UInt8.ofNat idx).toNat row, ipNum.toNat) := by
      have hsmall : (ipNum.toNat + 0) % 2 ^ 32 = ipNum.toNat := by
        rw [Nat.add_zero, Nat.mod_eq_of_lt (Nat.lt_of_le_of_lt hnum (by decide))]
      rw [addVmIpList, hsmall, if_neg (Nat.not_lt.mpr hnum), hloop]
      rfl
    let node : MultiNode := ⟨multiIp, ipNum.toNat, UInt8.ofNat idx, true, multiPort, serverPort⟩
    have hdepth : i < layout.depth := Nat.lt_of_lt_of_le hi byte_le_depth
    have hlive : layout.live node = true := rfl
    have hkey : layout.key node = (multiIp, multiPort) := rfl
    have hcontent := BucketLayout.WellFormed.content_insert h.wf hrow hdepth hfree hbusy hlive hkey
    rw [layout_hash] at hcontent
    have hindex : (UInt8.ofNat idx).toNat = idx := UInt8.toNat_ofNat_of_lt' hidx
    have hret : addMultiNode s multiIp multiPort serverPort ipList ipNum = .ret (0,
        { gBitmap := Function.update s.gBitmap idx true
          multiVm := Function.update s.multiVm (UInt8.ofNat idx).toNat row
          multiGrp :=
            BucketLayout.put s.multiGrp (mulitHashKey multiIp multiPort multiGrpBucket) i node }) := by
      unfold addMultiNode
      simp only [hrow, hget, hs, hadd]
      rfl
    refine ⟨_, idx, hret, hidx, hidle, hcontent, ?_, ?_⟩
    · intro j hj
      exact Function.update_of_ne (hindex.symm ▸ hj) _ _
    · simp only [hindex, Function.update_self]
      exact hcells
  · obtain ⟨i, hi, hfree⟩ := BucketLayout.WellFormed.exists_free_of_keys h.wf hkeys hfew
    exact absurd (hall i hi) (by rw [show (s.multiGrp _ i).created = false from hfree]; simp)

/-- What a call with room in the row leaves there, and that the other rows stay. -/
theorem addVmIpList_cells {multiVm multiVm' : Nat → Nat → UInt32} {idx : UInt8}
    {ipList : Nat → UInt32} {ipNum oldIpNum cnt : Nat} {ret : Int}
    (hroom : ipNum + oldIpNum ≤ multiVmMax)
    (h : addVmIpList multiVm idx ipList ipNum oldIpNum = .ret (ret, multiVm', cnt)) :
    cells (multiVm' idx.toNat) cnt = cells (multiVm idx.toNat) oldIpNum ++
        (cells ipList ipNum).filter (· ∉ cells (multiVm idx.toNat) oldIpNum) ∧
      ∀ j ≠ idx.toNat, multiVm' j = multiVm j := by
  have hsmall : (ipNum + oldIpNum) % 2 ^ 32 = ipNum + oldIpNum :=
    Nat.mod_eq_of_lt (Nat.lt_of_le_of_lt hroom (by decide))
  rw [addVmIpList, hsmall, if_neg (Nat.not_lt.mpr hroom)] at h
  obtain ⟨⟨row, k⟩, hloop, hret⟩ := Outcome.bind_eq_ret_iff.mp h
  obtain ⟨_, hrest⟩ := Prod.mk.inj (Outcome.ret.inj hret)
  obtain ⟨rfl, rfl⟩ := Prod.mk.inj hrest
  obtain ⟨hcells, _⟩ := addVmIpLoop_ret (Nat.le_refl oldIpNum) hloop
  rw [newcomers_zero] at hcells
  refine ⟨by rw [Function.update_self, hcells], ?_⟩
  intro j hj
  exact Function.update_of_ne hj _ _

theorem tableMap_update {s' : State} {k : GroupKey} {node : MultiNode}
    (hnodes : nodeOf s' = Function.update (nodeOf s) k (some node))
    (hrest : ∀ k' node', k' ≠ k → nodeOf s k' = some node' →
      s'.multiVm (grpIdx node') = s.multiVm (grpIdx node')) :
    tableMap s' = Function.update (tableMap s) k (some (node.serverPort, members s' node)) := by
  funext k'
  rw [tableMap, hnodes]
  by_cases hk : k' = k
  · rw [hk, Function.update_self, Function.update_self, Option.map_some]
  · rw [Function.update_of_ne hk, Function.update_of_ne hk, tableMap]
    cases hnode : nodeOf s k' with
    | none => rfl
    | some node' =>
      have hvm : s'.multiVm node'.multiGrpIdx.toNat = s.multiVm node'.multiGrpIdx.toNat :=
        hrest k' node' hk hnode
      rw [Option.map_some, Option.map_some, members, hvm]
      rfl

end

section
variable {inetAddr : List Char → UInt32} {keys : Finset GroupKey} {s : State}
variable {m : GroupKey → Option (UInt16 × List UInt32)}

/-- One round of the loop over the groups. -/
theorem Filled.add (h : Filled keys m s) (hfew : keys.card < bitsPerLong) {grpObj : GrpObj}
    (hsize : grpObj.memberArray.length ≤ maxMemIpInGroup)
    (hrows : RowsFit (put inetAddr m grpObj)) {ipListInt : Nat → UInt32}
    (hcells : cells ipListInt grpObj.memberArray.length = grpObj.memberArray.map inetAddr) :
    ∃ code s', addMultiNode s (inetAddr grpObj.groupIp) grpObj.groupPort.toUInt16
        grpObj.serverPort.toUInt16 ipListInt (UInt8.ofNat grpObj.memberArray.length) =
          .ret (code, s') ∧
      Filled (insert (grpObj.key inetAddr) keys) (put inetAddr m grpObj) s' := by
  obtain ⟨hmem, hvm⟩ := sizes
  have hbits : bitsPerLong = 32 := rfl
  have hnum : (UInt8.ofNat grpObj.memberArray.length).toNat = grpObj.memberArray.length :=
    UInt8.toNat_ofNat_of_lt' (Nat.lt_of_le_of_lt hsize (by decide))
  obtain ⟨⟨code, s'⟩, hret⟩ := h.loading.addMultiNode_returns (by omega) (inetAddr grpObj.groupIp)
    grpObj.groupPort.toUInt16 grpObj.serverPort.toUInt16 ipListInt
    (UInt8.ofNat grpObj.memberArray.length)
  let call : CfgCall := ⟨.add (inetAddr grpObj.groupIp) grpObj.groupPort.toUInt16
    grpObj.serverPort.toUInt16 ipListInt (UInt8.ofNat grpObj.memberArray.length), by
      rw [Call.ipNum, hnum]
      exact hsize⟩
  have hnext : call.next s = some s' := Call.next_eq_some.mpr ⟨code, hret⟩
  have hlive := h.loading.card_liveNodes_le
  have hstored : Stored s' := h.stored.next hnext fun _ => by omega
  have hgiven : (cells ipListInt (UInt8.ofNat grpObj.memberArray.length).toNat) =
      grpObj.memberArray.map inetAddr := by rw [hnum, hcells]
  have hsays := congrFun h.holds (grpObj.key inetAddr)
  cases hnode : nodeOf s (grpObj.key inetAddr) with
  | some node =>
    rw [tableMap, hnode, Option.map_some] at hsays
    have hput : put inetAddr m grpObj = Function.update m (grpObj.key inetAddr)
        (some (node.serverPort, members s node ++
          (grpObj.memberArray.map inetAddr).filter (· ∉ members s node))) := by
      rw [put, ← hsays]
    have hlength := hrows (grpObj.key inetAddr) node.serverPort _
      (by rw [hput, Function.update_self])
    rw [List.length_append, members, length_cells, ← hgiven, ← newcomers_zero] at hlength
    have hold := h.counted.fits _ node hnode
    obtain ⟨ret, cnt, hadd, _, hnodes, _⟩ := addMultiNode_found h.loading.wf hret hnode
    obtain ⟨hrow, hother⟩ := addVmIpList_cells (by omega) hadd
    refine ⟨code, s', hret, h.loading.next hret, hstored, ?_, ?_⟩
    · apply h.counted.next hnext
      intro node' hnode'
      obtain rfl := Option.some.inj (hnode.symm.trans hnode')
      exact hlength
    · rw [tableMap_update hnodes, h.holds, hput, ← hgiven]
      · exact congrArg (fun ips => Function.update m (grpObj.key inetAddr)
          (some (node.serverPort, ips))) hrow
      · intro k' node' hk' hnode'
        apply hother
        intro hidx
        exact hk' (h.stored.own.distinct _ _ _ _ hnode' hnode hidx)
  | none =>
    rw [tableMap, hnode, Option.map_none] at hsays
    have hput : put inetAddr m grpObj = Function.update m (grpObj.key inetAddr)
        (some (grpObj.serverPort.toUInt16, grpObj.memberArray.map inetAddr)) := by
      rw [put, ← hsays]
    have hroom : ∃ j < multiGrpMax, s.gBitmap j = false := by
      obtain ⟨j, hj, hclear⟩ := h.stored.clear_iff.mpr (by omega)
      exact ⟨j, Nat.lt_of_lt_of_le hj (by decide), hclear⟩
    have hfits : (UInt8.ofNat grpObj.memberArray.length).toNat ≤ multiVmMax := by omega
    obtain ⟨t, idx, hmakes, hidx, hclear, hnodes, hother, hrow⟩ := h.loading.addMultiNode_makes
      (by omega) hnode hroom grpObj.serverPort.toUInt16 ipListInt hfits
    obtain ⟨_, rfl⟩ := Prod.mk.inj (Outcome.ret.inj (hret.symm.trans hmakes))
    refine ⟨code, s', hret, h.loading.next hret, hstored, ?_, ?_⟩
    · apply h.counted.next hnext
      intro node' hnode'
      have hnone : nodeOf s (grpObj.key inetAddr) = some node' := hnode'
      rw [hnode] at hnone
      cases hnone
    · have hindex : (UInt8.ofNat idx).toNat = idx := UInt8.toNat_ofNat_of_lt' hidx
      have hmembers : members s' ⟨inetAddr grpObj.groupIp,
          (UInt8.ofNat grpObj.memberArray.length).toNat, UInt8.ofNat idx, true,
          grpObj.groupPort.toUInt16, grpObj.serverPort.toUInt16⟩ =
            grpObj.memberArray.map inetAddr := by
        rw [members, ← hgiven, ← hrow, hindex]
      rw [tableMap_update hnodes, h.holds, hput, hmembers]
      · rfl
      · intro k' node' _ hnode'
        apply hother
        exact h.stored.own.ne_of_clear hclear hnode'

end

/-! ## The whole file -/

section
variable {inetAddr : List Char → UInt32}

/-- 32 ports of ten digits are fewer than 1024 characters. -/
theorem filterFits_of_few {ports : List UInt32} (hfew : ports.length ≤ bitsPerLong) :
    FilterFits ports := by
  have hbits : bitsPerLong = 32 := rfl
  have hfilter : filterStringSize = 1024 := rfl
  have hdigits : (ports.map fun port => (Nat.toDigits 10 port.toNat).length).sum ≤
      ports.length * 10 := by
    have hsum := List.sum_le_card_nsmul
      (ports.map fun port => (Nat.toDigits 10 port.toNat).length) 10 ?_
    · simpa using hsum
    · intro n hn
      obtain ⟨port, _, rfl⟩ := List.mem_map.mp hn
      have hlt := port.toNat_lt
      rw [Nat.length_toDigits_le_iff (by decide) (by decide)]
      omega
  right
  omega

/-- The rounds from a table on that says `m`. -/
theorem cfgLoop_filled {grpArray : List GrpObj} {keys : Finset GroupKey}
    {m : GroupKey → Option (UInt16 × List UInt32)} {i : Nat} {c : CfgState}
    (h : Filled keys m c.table) (hkeys : keys.card + grpArray.length ≤ bitsPerLong)
    (hmembers : ∀ grpObj ∈ grpArray, grpObj.memberArray.length ≤ maxMemIpInGroup)
    (hrows : RowsFit (grpArray.foldl (put inetAddr) m)) {c' : CfgState}
    (hret : cfgLoop inetAddr grpArray i c = .ret c') :
    ∃ keys', Filled keys' (grpArray.foldl (put inetAddr) m) c'.table := by
  induction grpArray generalizing i c keys m with
  | nil =>
    obtain rfl := Outcome.ret.inj hret
    exact ⟨keys, h⟩
  | cons grpObj grpArray ih =>
    rw [List.length_cons] at hkeys
    rw [List.foldl_cons] at hrows ⊢
    have hsize := hmembers grpObj List.mem_cons_self
    rw [cfgLoop] at hret
    split at hret
    · simp only at hret
      obtain ⟨filter, _, hret⟩ := Outcome.bind_eq_ret_iff.mp hret
      obtain ⟨ipListInt, hread, hret⟩ := Outcome.bind_eq_ret_iff.mp hret
      obtain ⟨⟨code, table⟩, hadd, hret⟩ := Outcome.bind_eq_ret_iff.mp hret
      have hcells := readMembers_cells hread
      rw [Nat.zero_add, cells_zero, List.nil_append] at hcells
      obtain ⟨code', table', hadd', hfilled⟩ := h.add (by omega) hsize hrows.of_foldl hcells
      obtain ⟨_, rfl⟩ := Prod.mk.inj (Outcome.ret.inj (hadd.symm.trans hadd'))
      have hcard := Finset.card_insert_le (grpObj.key inetAddr) keys
      apply ih hfilled (by omega) _ hrows hret
      intro other hother
      exact hmembers other (List.mem_cons_of_mem grpObj hother)
    · cases hret

/-- A file of at most 32 groups is loaded as it stands. -/
theorem cfgInit_filled {grpArray : List GrpObj} (hgroups : grpArray.length ≤ bitsPerLong)
    (hmembers : ∀ grpObj ∈ grpArray, grpObj.memberArray.length ≤ maxMemIpInGroup)
    (hrows : RowsFit (configured inetAddr grpArray)) (groupNum : Nat)
    (groupIpArr : Nat → UInt32) (filter : List Char) :
    ∃ c keys, cfgInit inetAddr (.array grpArray) groupNum ⟨groupIpArr, filter, multiNodeInit⟩ =
        .ret (0, grpArray.length, c) ∧
      c.filter = filterText (grpArray.map GrpObj.groupPort) ∧
      Filled keys (configured inetAddr grpArray) c.table := by
  have hempty : (∅ : Finset GroupKey).card = 0 := Finset.card_empty
  have hmax : bitsPerLong ≤ 256 := by decide
  have hfits : FilterFits (grpArray.map GrpObj.groupPort) := by
    apply filterFits_of_few
    rwa [List.length_map]
  have hprinted := @cfgLoop_returns_iff inetAddr grpArray 0 ⟨groupIpArr, [], multiNodeInit⟩ ∅
    loading_init (by omega) (by omega) hmembers (Nat.succ_pos _)
  simp only [List.nil_append, appended] at hprinted
  obtain ⟨c, hloop, hfilter⟩ := hprinted.mpr ((filterFits_iff _).mpr hfits)
  obtain ⟨keys, hfilled⟩ := cfgLoop_filled filled_init (by omega) hmembers hrows hloop
  refine ⟨c, keys, ?_, hfilter, hfilled⟩
  exact Outcome.bind_eq_ret_iff.mpr ⟨c, hloop, rfl⟩

/-- A file of at most 32 groups whose rows fit is loaded as it stands, with all its ports in the
filter. From then on, where each frame captured fits an element, a run of the capture threads and
work threads never leaves the arrays of a queue or of a look-up, and what was sent of a whole UDP
packet, where there was memory for the sums, is what the file says. -/
theorem configured_fan_out {grpArray : List GrpObj} (hgroups : grpArray.length ≤ bitsPerLong)
    (hmembers : ∀ grpObj ∈ grpArray, grpObj.memberArray.length ≤ maxMemIpInGroup)
    (hrows : RowsFit (configured inetAddr grpArray)) (groupNum : Nat)
    (groupIpArr : Nat → UInt32) (filter : List Char) (memory : Nat → Queue) (buf : Nat → Memory)
    {acts : List ThreadAct} (hfits : ∀ act ∈ acts, act.Fits) :
    ∃ c t, cfgInit inetAddr (.array grpArray) groupNum ⟨groupIpArr, filter, multiNodeInit⟩ =
        .ret (0, grpArray.length, c) ∧
      c.filter = filterText (grpArray.map GrpObj.groupPort) ∧
      (Threads.init memory buf).run c.table acts = .ret t ∧
      ∀ queueId, ∃ done, t.accepted queueId = done ++ (t.pktQueue queueId).pending ∧
        List.Forall₂ (fun packet round => (∀ i, round.env.malloc i = true) →
          WellFormedUdp packet →
            Delivers (configured inetAddr grpArray) round.env packet round.sent)
          done (t.rounds queueId) := by
  obtain ⟨c, keys, hret, hfilter, hfilled⟩ :=
    cfgInit_filled hgroups hmembers hrows groupNum groupIpArr filter
  obtain ⟨t, hrun, hsound⟩ := Threads.run_sound hfilled.counted
    (Threads.init_sound c.table memory buf) hfits
  refine ⟨c, t, hret, hfilter, hrun, ?_⟩
  intro queueId
  obtain ⟨done, haccepted, hrounds⟩ := (hsound queueId).handled
  refine ⟨done, haccepted, hrounds.imp ?_⟩
  intro packet round hhandled hmalloc hwf
  have hfans : FansOut round.env c.table packet round.sent := hhandled hmalloc hwf
  rw [← hfilled.holds]
  exact hfans.delivers

end

/-! ## A run -/

/-- 225.0.0.1:7000 twice, the second time with one more member and another server port. -/
def twice : List GrpObj :=
  [⟨"225.0.0.1".toList, 7000, 7000, ["10.0.0.2".toList]⟩,
    ⟨"225.0.0.1".toList, 7000, 9999, ["10.0.0.2".toList, "10.0.0.3".toList]⟩]

theorem configured_twice : configured inetAddrQuad twice =
    Function.update (fun _ => none) (0x010000e1, 7000) (some (7000, [0x0200000a, 0x0300000a])) := by
  have hkeys : ∀ grpObj ∈ twice, grpObj.key inetAddrQuad = (0x010000e1, 7000) := by decide
  have hsays : configured inetAddrQuad twice (0x010000e1, 7000) =
      some (7000, [0x0200000a, 0x0300000a]) := by decide
  funext k
  by_cases hk : k = (0x010000e1, 7000)
  · rw [hk, Function.update_self, hsays]
  · rw [Function.update_of_ne hk]
    apply foldl_put_of_ne
    intro grpObj hin
    rw [hkeys grpObj hin]
    exact Ne.symm hk

/-- Both members get a frame for the group. -/
theorem configured_fan_out_twice : ∃ (c : CfgState) (t : Threads) (o o' : Sent),
    cfgInit inetAddrQuad (.array twice) 0 ⟨fun _ => 0, [], multiNodeInit⟩ = .ret (0, 2, c) ∧
      emptyStart.run c.table frameActs = .ret t ∧
      t.rounds 3 = [⟨.allSucceed, [o, o']⟩] ∧ o.addr = 0x0200000a ∧ o'.addr = 0x0300000a := by
  have hrows : RowsFit (configured inetAddrQuad twice) := by
    intro k port ips hk
    rw [configured_twice, Function.update_apply] at hk
    split at hk
    · obtain ⟨_, rfl⟩ := by simpa using hk
      decide
    · cases hk
  obtain ⟨c, t, hret, _, hrun, hevery⟩ := configured_fan_out (by decide) (by decide) hrows 0
    (fun _ => 0) [] (fun _ => ⟨fun _ => ⟨fun _ => 0, 0⟩, 3, 5, 7⟩) (fun _ _ => 0) frameActs_fit
  obtain ⟨sent, hpackets, hround, hempty⟩ := frameActs_round hrun
  obtain ⟨done, haccepted, hrounds⟩ := hevery 3
  rw [hpackets, hempty, List.append_nil] at haccepted
  rw [hround, ← haccepted, List.forall₂_cons] at hrounds
  have hdelivers : Delivers (configured inetAddrQuad twice) .allSucceed framePacket sent :=
    hrounds.1 (fun _ => rfl) framePacket_wellFormed
  have hsays : configured inetAddrQuad twice (groupOf framePacket) =
      some (7000, [0x0200000a, 0x0300000a]) := by
    rw [configured_twice, groupOf_framePacket, Function.update_self]
  have hlength := hdelivers.all _ _ hsays framePacket_unmarked fun _ => ⟨rfl, rfl, rfl⟩
  have hcopies := hdelivers.copies _ _ hsays
  rw [hlength, List.take_length] at hcopies
  obtain ⟨o, rest', ho, htail, rfl⟩ := List.forall₂_cons_left_iff.mp hcopies
  obtain ⟨o', rest'', ho', hend, rfl⟩ := List.forall₂_cons_left_iff.mp htail
  obtain rfl := List.forall₂_nil_left_iff.mp hend
  exact ⟨c, t, o, o', hret, hrun, hround, ho.addr, ho'.addr⟩

end MulticastProxy.WinServer
