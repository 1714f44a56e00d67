import MulticastProxy.KernelServer.Netlink

/-!
# Kernel server: what each operation can do

One lemma for each function, in terms of the table as a map from addresses to nodes.
The invariants of the later modules use these and never unfold the functions.
-/

namespace MulticastProxy.KernelServer

set_option autoImplicit false

variable {jhash1word : UInt32 → UInt32 → UInt32}

/-- The bucket array keeps its shape. -/
abbrev WellFormed (jhash1word : UInt32 → UInt32 → UInt32) (s : State) : Prop :=
  (layout jhash1word).WellFormed s.multiGrp

def nodeOf (jhash1word : UInt32 → UInt32 → UInt32) (s : State) (g : UInt32) : Option MultiNode :=
  (layout jhash1word).content s.multiGrp g

/-- Live nodes of the table. -/
@[irreducible] def liveNodes (jhash1word : UInt32 → UInt32 → UInt32) (s : State) : Finset (Nat × Nat) :=
  (layout jhash1word).liveCells multiGrpBucket s.multiGrp

theorem byte_le_depth : 256 ≤ multiGrpDepth := by decide

/-- The loop over the cells of a bucket finds the first free one of 256, or never ends. -/
theorem searchCell (s : State) (b : Nat) :
    (∃ i < 256, Search.byteSearch (fun i => !(s.multiGrp b i).created) multiGrpDepth 256 0 =
        some (some i) ∧ (s.multiGrp b i).created = false ∧
      ∀ j < i, (s.multiGrp b j).created = true) ∨
    (Search.byteSearch (fun i => !(s.multiGrp b i).created) multiGrpDepth 256 0 = none ∧
      ∀ j < 256, (s.multiGrp b j).created = true) :=
  BucketLayout.byteSearch_free (L := layout fun _ _ => 0) s.multiGrp b byte_le_depth

theorem mulitHashKey_lt (g : UInt32) : mulitHashKey jhash1word g multiGrpBucket < multiGrpBucket :=
  Nat.mod_lt _ (by decide)

theorem WellFormed.mem_liveNodes {s : State} (wf : WellFormed jhash1word s) {p : Nat × Nat} :
    p ∈ liveNodes jhash1word s ↔ (s.multiGrp p.1 p.2).created = true := by
  unfold liveNodes
  exact BucketLayout.WellFormed.mem_liveCells wf mulitHashKey_lt

theorem wellFormed_of_free {s : State} (h : ∀ b i, (s.multiGrp b i).created = false) :
    WellFormed jhash1word s := BucketLayout.wellFormed_of_free h

theorem nodeOf_of_free {s : State} (h : ∀ b i, (s.multiGrp b i).created = false) (g : UInt32) :
    nodeOf jhash1word s g = none :=
  (wellFormed_of_free h).content_eq_none_iff.mpr (by simp [layout, h])

theorem multiNodeInit_wellFormed : WellFormed jhash1word multiNodeInit :=
  wellFormed_of_free fun _ _ => rfl

@[simp] theorem nodeOf_multiNodeInit (g : UInt32) : nodeOf jhash1word multiNodeInit g = none :=
  nodeOf_of_free (fun _ _ => rfl) g

@[simp] theorem liveNodes_multiNodeInit : liveNodes jhash1word multiNodeInit = ∅ := by
  ext p
  rw [multiNodeInit_wellFormed.mem_liveNodes]
  simp [multiNodeInit, MultiNode.zero]

theorem nodeOf_eq_none_iff {s : State} {g : UInt32} :
    nodeOf jhash1word s g = none ↔ rawLookupMultiNode jhash1word s g = none := by
  simp [nodeOf, rawLookupMultiNode, BucketLayout.content]

theorem nodeOf_of_lookup {s : State} {g : UInt32} {row : Nat}
    (h : rawLookupMultiNode jhash1word s g = some row) :
    nodeOf jhash1word s g =
      some (s.multiGrp (mulitHashKey jhash1word g multiGrpBucket) row) := by
  unfold rawLookupMultiNode at h
  simp only [nodeOf, BucketLayout.content, h, Option.map_some]
  rfl

theorem exists_lookup {s : State} {g : UInt32} {node : MultiNode}
    (h : nodeOf jhash1word s g = some node) :
    ∃ row, rawLookupMultiNode jhash1word s g = some row ∧
      s.multiGrp (mulitHashKey jhash1word g multiGrpBucket) row = node :=
  Option.map_eq_some_iff.mp h

theorem WellFormed.lookup_iff {s : State} (wf : WellFormed jhash1word s) {g : UInt32} {row : Nat} :
    rawLookupMultiNode jhash1word s g = some row ↔
      (s.multiGrp (mulitHashKey jhash1word g multiGrpBucket) row).created = true ∧
        (s.multiGrp (mulitHashKey jhash1word g multiGrpBucket) row).multiIp = g :=
  BucketLayout.WellFormed.find_eq_some_iff wf

theorem WellFormed.nodeOf_iff {s : State} (wf : WellFormed jhash1word s) {g : UInt32}
    {node : MultiNode} :
    nodeOf jhash1word s g = some node ↔
      ∃ b i, s.multiGrp b i = node ∧ node.created = true ∧ node.multiIp = g :=
  BucketLayout.WellFormed.content_eq_some_iff wf

theorem lookupMultiNode_eq {s : State} {g : UInt32} :
    lookupMultiNode jhash1word s g = (nodeOf jhash1word s g).map fun node =>
      (node.multiMemberCnt, node.multiGrpIdx, getVmIpList s node.multiGrpIdx node.multiMemberCnt) := by
  unfold lookupMultiNode
  cases h : rawLookupMultiNode jhash1word s g with
  | none => simp [nodeOf_eq_none_iff.mpr h]
  | some row => simp [nodeOf_of_lookup h]

theorem getMultiPktStats_eq {s : State} {g : UInt32} :
    getMultiPktStats jhash1word s g =
      (nodeOf jhash1word s g).map fun node => s.multiStats node.multiGrpIdx.toNat := by
  unfold getMultiPktStats
  cases h : rawLookupMultiNode jhash1word s g with
  | none => simp [nodeOf_eq_none_iff.mpr h]
  | some row => simp [nodeOf_of_lookup h]

/-! ## Storing members -/

/-- `add_vm_ip_list` rejects the request unchanged, or appends the newcomers to one row. -/
theorem addVmIpList_ret {multiVm multiVm' : Nat → Nat → UInt32} {idx : UInt8}
    {ipList : Nat → UInt32} {ipNum oldIpNum cnt : Nat} {ret : Int}
    (h : addVmIpList multiVm idx ipList ipNum oldIpNum = .ret (ret, multiVm', cnt)) :
    (ret = multiParamError ∧ multiVm' = multiVm ∧ cnt = oldIpNum ∧
      multiVmMax < (ipNum + oldIpNum) % 2 ^ 32) ∨
    (ret = 0 ∧ (ipNum + oldIpNum) % 2 ^ 32 ≤ multiVmMax ∧ ∃ row,
      multiVm' = Function.update multiVm idx.toNat row ∧
      cells row cnt = cells (multiVm idx.toNat) oldIpNum ++
        newcomers ipList 0 ipNum (cells (multiVm idx.toNat) oldIpNum) ∧
      oldIpNum ≤ cnt ∧ (oldIpNum ≤ multiVmMax → cnt ≤ multiVmMax)) := by
  unfold addVmIpList at h
  split at h
  · rename_i hbig
    simp only [Outcome.ret.injEq, Prod.mk.injEq] at h
    obtain ⟨rfl, rfl, rfl⟩ := h
    exact Or.inl ⟨rfl, rfl, rfl, hbig⟩
  · rename_i hfit
    obtain ⟨⟨row, k⟩, hloop, hret⟩ := Outcome.bind_eq_ret_iff.mp h
    simp only [Outcome.ret.injEq, Prod.mk.injEq] at hret
    obtain ⟨rfl, rfl, rfl⟩ := hret
    obtain ⟨h1, h2, h3, _⟩ := addVmIpLoop_ret (Nat.le_refl _) hloop
    exact Or.inr ⟨rfl, by omega, row, rfl, h1, h2, h3⟩

/-- A sum that does not wrap keeps the loop inside the row. -/
theorem addVmIpList_returns (multiVm : Nat → Nat → UInt32) (idx : UInt8)
    (ipList : Nat → UInt32) {ipNum oldIpNum : Nat} (hwrap : ipNum + oldIpNum < 2 ^ 32) :
    ∃ r, addVmIpList multiVm idx ipList ipNum oldIpNum = .ret r := by
  unfold addVmIpList
  rw [Nat.mod_eq_of_lt hwrap]
  split
  · exact ⟨_, rfl⟩
  · rename_i hfit
    have hroom : oldIpNum + ipNum ≤ multiVmMax := by omega
    obtain ⟨row, k, hloop⟩ := addVmIpLoop_returns ipList oldIpNum 0 (multiVm idx.toNat) hroom
    exact ⟨_, by rw [hloop]; rfl⟩

/-! ## Operations on one group -/

/-- A group's node is rewritten in place with another member count. -/
structure Recounted (jhash1word : UInt32 → UInt32 → UInt32) (s s' : State) (g : UInt32)
    (node : MultiNode) (cnt : Nat) : Prop where
  found : nodeOf jhash1word s g = some node
  wf : WellFormed jhash1word s'
  nodes : nodeOf jhash1word s' =
    Function.update (nodeOf jhash1word s) g (some { node with multiMemberCnt := cnt })
  live : liveNodes jhash1word s' = liveNodes jhash1word s
  bitmap : s'.bitmap = s.bitmap
  stats : s'.multiStats = s.multiStats

theorem recounted_put {s : State} (wf : WellFormed jhash1word s) {g : UInt32} {row : Nat}
    (h : rawLookupMultiNode jhash1word s g = some row) (cnt : Nat) (multiVm : Nat → Nat → UInt32) :
    Recounted jhash1word s
      { s with
        multiVm
        multiGrp := BucketLayout.put s.multiGrp (mulitHashKey jhash1word g multiGrpBucket) row
          { s.multiGrp (mulitHashKey jhash1word g multiGrpBucket) row with multiMemberCnt := cnt } }
      g (s.multiGrp (mulitHashKey jhash1word g multiGrpBucket) row) cnt := by
  obtain ⟨hlive, hkey⟩ := wf.lookup_iff.mp h
  refine ⟨nodeOf_of_lookup h, ?_, ?_, ?_, rfl, rfl⟩
  · exact BucketLayout.WellFormed.replace wf hlive (by exact hlive) rfl
  · have hcontent := BucketLayout.WellFormed.content_replace wf hlive
      (c := { s.multiGrp (mulitHashKey jhash1word g multiGrpBucket) row with multiMemberCnt := cnt })
      (by exact hlive) rfl
    have hkey' : (layout jhash1word).key
        (s.multiGrp (mulitHashKey jhash1word g multiGrpBucket) row) = g := hkey
    rw [hkey'] at hcontent
    exact hcontent
  · unfold liveNodes
    exact BucketLayout.WellFormed.liveCells_replace hlive (by exact hlive) _

/-- What JOIN and append can do to a group that is there. -/
inductive Extended (jhash1word : UInt32 → UInt32 → UInt32) (s : State) (g : UInt32)
    (ipList : Nat → UInt32) (ipNum : Nat) (node : MultiNode) : Int → State → Prop where
  | rejected {s' : State}
      (recount : Recounted jhash1word s s' g node node.multiMemberCnt)
      (vm : s'.multiVm = s.multiVm)
      (big : multiVmMax < (ipNum + node.multiMemberCnt) % 2 ^ 32) :
      Extended jhash1word s g ipList ipNum node multiParamError s'
  | appended {s' : State} {cnt : Nat} {row : Nat → UInt32}
      (recount : Recounted jhash1word s s' g node cnt)
      (vm : s'.multiVm = Function.update s.multiVm node.multiGrpIdx.toNat row)
      (members : cells row cnt =
        cells (s.multiVm node.multiGrpIdx.toNat) node.multiMemberCnt ++
          newcomers ipList 0 ipNum
            (cells (s.multiVm node.multiGrpIdx.toNat) node.multiMemberCnt))
      (bound : node.multiMemberCnt ≤ multiVmMax → cnt ≤ multiVmMax) :
      Extended jhash1word s g ipList ipNum node 0 s'

theorem Extended.recounted {s s' : State} {g : UInt32} {ipList : Nat → UInt32} {ipNum : Nat}
    {node : MultiNode} {code : Int}
    (h : Extended jhash1word s g ipList ipNum node code s') :
    ∃ cnt row, Recounted jhash1word s s' g node cnt ∧
      s'.multiVm = Function.update s.multiVm node.multiGrpIdx.toNat row := by
  cases h with
  | rejected recount vm => exact ⟨_, _, recount, by rw [vm, Function.update_eq_self]⟩
  | appended recount vm => exact ⟨_, _, recount, vm⟩

theorem Extended.found {s s' : State} {g : UInt32} {ipList : Nat → UInt32} {ipNum : Nat}
    {node : MultiNode} {code : Int}
    (h : Extended jhash1word s g ipList ipNum node code s') :
    nodeOf jhash1word s g = some node := by
  obtain ⟨_, _, recount, _⟩ := h.recounted
  exact recount.found

/-- What JOIN and append run on the node of a group that is there. -/
def extendNode (s : State) (b row : Nat) (ipList : Nat → UInt32) (ipNum : Nat) :
    Outcome (Int × State) := do
  let (ret, multiVm, cnt) ← addVmIpList s.multiVm (s.multiGrp b row).multiGrpIdx ipList ipNum
    (s.multiGrp b row).multiMemberCnt
  .ret (if ret ≠ 0 then multiParamError else 0,
    { s with
      multiVm
      multiGrp := BucketLayout.put s.multiGrp b row
        { s.multiGrp b row with multiMemberCnt := cnt } })

theorem extendNode_ret {s s' : State} {b row : Nat} {ipList : Nat → UInt32} {ipNum : Nat}
    {code : Int} (h : extendNode s b row ipList ipNum = .ret (code, s')) :
    ∃ ret multiVm cnt, addVmIpList s.multiVm (s.multiGrp b row).multiGrpIdx ipList ipNum
        (s.multiGrp b row).multiMemberCnt = .ret (ret, multiVm, cnt) ∧
      code = (if ret ≠ 0 then multiParamError else 0) ∧
      s' = { s with
        multiVm
        multiGrp := BucketLayout.put s.multiGrp b row
          { s.multiGrp b row with multiMemberCnt := cnt } } := by
  obtain ⟨⟨ret, multiVm, cnt⟩, hadd, hret⟩ := Outcome.bind_eq_ret_iff.mp h
  obtain ⟨rfl, rfl⟩ := Prod.mk.inj (Outcome.ret.inj hret)
  exact ⟨ret, multiVm, cnt, hadd, rfl, rfl⟩

theorem addMultiNode_of_lookup {s : State} {g : UInt32} {row : Nat}
    (hrow : rawLookupMultiNode jhash1word s g = some row) (ipList : Nat → UInt32) (ipNum : Nat) :
    addMultiNode jhash1word s g ipList ipNum =
      extendNode s (mulitHashKey jhash1word g multiGrpBucket) row ipList ipNum := by
  unfold addMultiNode
  simp only [hrow]
  rfl

theorem appendVmIpList_of_lookup {s : State} {g : UInt32} {row : Nat}
    (hrow : rawLookupMultiNode jhash1word s g = some row) (ipList : Nat → UInt32) (ipNum : Nat) :
    appendVmIpList jhash1word s g ipList ipNum =
      extendNode s (mulitHashKey jhash1word g multiGrpBucket) row ipList ipNum := by
  unfold appendVmIpList
  simp only [hrow]
  rfl

theorem appendVmIpList_of_absent {s : State} {g : UInt32}
    (hrow : rawLookupMultiNode jhash1word s g = none) (ipList : Nat → UInt32) (ipNum : Nat) :
    appendVmIpList jhash1word s g ipList ipNum = .ret (multiNodeNotExsit, s) := by
  unfold appendVmIpList
  simp only [hrow]

theorem extended_of_lookup {s s' : State} (wf : WellFormed jhash1word s) {g : UInt32}
    {ipList : Nat → UInt32} {ipNum row : Nat} {code : Int}
    (hrow : rawLookupMultiNode jhash1word s g = some row)
    (h : extendNode s (mulitHashKey jhash1word g multiGrpBucket) row ipList ipNum =
      .ret (code, s')) :
    Extended jhash1word s g ipList ipNum
      (s.multiGrp (mulitHashKey jhash1word g multiGrpBucket) row) code s' := by
  obtain ⟨ret, multiVm, cnt, hadd, rfl, rfl⟩ := extendNode_ret h
  rcases addVmIpList_ret hadd with ⟨rfl, rfl, rfl, hbig⟩ | ⟨rfl, _, newRow, rfl, hcells, _, hbound⟩
  · exact .rejected (recounted_put wf hrow _ _) rfl hbig
  · exact .appended (recounted_put wf hrow _ _) rfl hcells hbound

theorem appendVmIpList_cases {s s' : State} (wf : WellFormed jhash1word s) {g : UInt32}
    {ipList : Nat → UInt32} {ipNum : Nat} {code : Int}
    (h : appendVmIpList jhash1word s g ipList ipNum = .ret (code, s')) :
    (nodeOf jhash1word s g = none ∧ code = multiNodeNotExsit ∧ s' = s) ∨
    ∃ node, Extended jhash1word s g ipList ipNum node code s' := by
  cases hrow : rawLookupMultiNode jhash1word s g with
  | none =>
    rw [appendVmIpList_of_absent hrow] at h
    obtain ⟨rfl, rfl⟩ := Prod.mk.inj (Outcome.ret.inj h)
    exact Or.inl ⟨nodeOf_eq_none_iff.mpr hrow, rfl, rfl⟩
  | some row =>
    rw [appendVmIpList_of_lookup hrow] at h
    exact Or.inr ⟨_, extended_of_lookup wf hrow h⟩

/-- What JOIN can do for a group that is not there: the index pool is empty, or a node is made. -/
structure Created (jhash1word : UInt32 → UInt32 → UInt32) (s s' : State) (g : UInt32)
    (idx cnt : Nat) : Prop where
  fresh : nodeOf jhash1word s g = none
  index : idx < multiGrpMax
  clear : s.bitmap idx = false
  lowest : ∀ j < idx, s.bitmap j = true
  wf : WellFormed jhash1word s'
  nodes : nodeOf jhash1word s' = Function.update (nodeOf jhash1word s) g
    (some { multiIp := g, multiMemberCnt := cnt, multiGrpIdx := UInt8.ofNat idx, created := true })
  live : (liveNodes jhash1word s').card = (liveNodes jhash1word s).card + 1
  bitmap : s'.bitmap = Function.update s.bitmap idx true
  stats : s'.multiStats = Function.update s.multiStats idx ⟨0, 0⟩

theorem addMultiNode_cases {s s' : State} (wf : WellFormed jhash1word s) {g : UInt32}
    {ipList : Nat → UInt32} {ipNum : Nat} {code : Int}
    (h : addMultiNode jhash1word s g ipList ipNum = .ret (code, s')) :
    (∃ node, Extended jhash1word s g ipList ipNum node code s') ∨
    (nodeOf jhash1word s g = none ∧ code = multiIdxExhaust ∧ s' = s) ∨
    ∃ idx cnt, Created jhash1word s s' g idx cnt ∧
      ((code = multiParamError ∧ cnt = 0 ∧ s'.multiVm = s.multiVm ∧
          multiVmMax < ipNum % 2 ^ 32) ∨
        (code = 0 ∧ cnt ≤ multiVmMax ∧ ∃ row,
          s'.multiVm = Function.update s.multiVm (UInt8.ofNat idx).toNat row ∧
          cells row cnt = newcomers ipList 0 ipNum [])) := by
  cases hrow : rawLookupMultiNode jhash1word s g with
  | some row =>
    rw [addMultiNode_of_lookup hrow] at h
    exact Or.inl ⟨_, extended_of_lookup wf hrow h⟩
  | none =>
    have hfresh := nodeOf_eq_none_iff.mpr hrow
    unfold addMultiNode at h
    simp only [hrow] at h
    cases hget : getIdx multiGrpMax s.bitmap with
    | none =>
      simp only [hget, Outcome.ret.injEq, Prod.mk.injEq] at h
      exact Or.inr (Or.inl ⟨hfresh, h.1.symm, h.2.symm⟩)
    | some p =>
      obtain ⟨idx, bitmap⟩ := p
      obtain ⟨hidx, hclear, hlow, rfl⟩ := getIdx_eq_some hget
      simp only [hget] at h
      rcases searchCell s (mulitHashKey jhash1word g multiGrpBucket) with
        ⟨i, hi, hs, hfree, hbusy⟩ | ⟨hs, _⟩
      · simp only [hs] at h
        obtain ⟨⟨ret, multiVm, cnt⟩, hadd, hret⟩ := Outcome.bind_eq_ret_iff.mp h
        simp only [Outcome.ret.injEq, Prod.mk.injEq] at hret
        obtain ⟨rfl, rfl⟩ := hret
        have hdepth : i < (layout jhash1word).depth := Nat.lt_of_lt_of_le hi byte_le_depth
        refine Or.inr (Or.inr ⟨idx, cnt, ?_, ?_⟩)
        · exact {
            fresh := hfresh
            index := hidx
            clear := hclear
            lowest := hlow
            wf := BucketLayout.WellFormed.insert wf hrow hdepth hfree hbusy rfl rfl
            nodes := BucketLayout.WellFormed.content_insert wf hrow hdepth hfree hbusy rfl rfl
            live := by
              unfold liveNodes
              exact BucketLayout.WellFormed.liveCells_insert wf hrow hdepth hfree hbusy rfl rfl
                mulitHashKey_lt
            bitmap := rfl
            stats := rfl }
        · rcases addVmIpList_ret hadd with
            ⟨rfl, rfl, rfl, hbig⟩ | ⟨rfl, _, row, rfl, hcells, _, hbound⟩
          · exact Or.inl ⟨rfl, rfl, rfl, hbig⟩
          · exact Or.inr ⟨rfl, hbound (Nat.zero_le _), row, rfl, by simpa using hcells⟩
      · simp [hs] at h

/-- JOIN of a new group succeeds where the pool, the first 256 cells of its bucket and a
member row have room. -/
theorem addMultiNode_returns {s : State} {g : UInt32} (ipList : Nat → UInt32) {ipNum idx i : Nat}
    (hnew : nodeOf jhash1word s g = none) (hidx : idx < multiGrpMax) (hclear : s.bitmap idx = false)
    (hi : i < 256)
    (hfree : (s.multiGrp (mulitHashKey jhash1word g multiGrpBucket) i).created = false)
    (hnum : ipNum ≤ multiVmMax) :
    ∃ s', addMultiNode jhash1word s g ipList ipNum = .ret (0, s') := by
  unfold addMultiNode
  simp only [nodeOf_eq_none_iff.mp hnew]
  cases hget : getIdx multiGrpMax s.bitmap with
  | none => simp [getIdx_eq_none_iff.mp hget idx hidx] at hclear
  | some p =>
    obtain ⟨n, bitmap⟩ := p
    rcases searchCell s (mulitHashKey jhash1word g multiGrpBucket) with
      ⟨r, _, hs, _⟩ | ⟨_, hbusy⟩
    · have hwrap : ipNum + 0 < 2 ^ 32 := by
        have : multiVmMax < 2 ^ 32 := by decide
        omega
      obtain ⟨⟨ret, multiVm, cnt⟩, hadd⟩ := addVmIpList_returns s.multiVm (UInt8.ofNat n) ipList hwrap
      have hret : ret = 0 := by
        rcases addVmIpList_ret hadd with ⟨_, _, _, hbig⟩ | ⟨h, _⟩
        · rw [Nat.mod_eq_of_lt hwrap] at hbig
          omega
        · exact h
      simp only [hs, hadd, hret]
      exact ⟨_, rfl⟩
    · simp [hbusy i hi] at hfree

/-! ## QUIT -/

theorem vmQuitFromMultiGrp_cases {s : State} (wf : WellFormed jhash1word s) (g : UInt32)
    (ipList : Nat → UInt32) (ipNum : Nat) :
    (nodeOf jhash1word s g = none ∧
      vmQuitFromMultiGrp jhash1word s g ipList ipNum = (multiNodeNotExsit, s)) ∨
    ∃ node s', vmQuitFromMultiGrp jhash1word s g ipList ipNum = (0, s') ∧
      Recounted jhash1word s s' g node
        (delQuitVmIp ipList ipNum 0 (s.multiVm node.multiGrpIdx.toNat) node.multiMemberCnt).2 ∧
      s'.multiVm = Function.update s.multiVm node.multiGrpIdx.toNat
        (delQuitVmIp ipList ipNum 0 (s.multiVm node.multiGrpIdx.toNat) node.multiMemberCnt).1 := by
  unfold vmQuitFromMultiGrp
  cases hrow : rawLookupMultiNode jhash1word s g with
  | none => exact Or.inl ⟨nodeOf_eq_none_iff.mpr hrow, rfl⟩
  | some row => exact Or.inr ⟨_, _, rfl, recounted_put wf hrow _ _, rfl⟩

/-! ## DEL -/

structure Deleted (jhash1word : UInt32 → UInt32 → UInt32) (s s' : State) (g : UInt32)
    (node : MultiNode) : Prop where
  found : nodeOf jhash1word s g = some node
  wf : WellFormed jhash1word s'
  nodes : nodeOf jhash1word s' = Function.update (nodeOf jhash1word s) g none
  bitmap : s'.bitmap = Function.update s.bitmap node.multiGrpIdx.toNat false
  vm : s'.multiVm = clearVmIpList s.multiVm node.multiGrpIdx.toNat
  stats : s'.multiStats = s.multiStats

theorem delMultiNode_cases {s : State} (wf : WellFormed jhash1word s) (g : UInt32) :
    (nodeOf jhash1word s g = none ∧ delMultiNode jhash1word s g = (0, s)) ∨
    ∃ node s', delMultiNode jhash1word s g = (0, s') ∧ Deleted jhash1word s s' g node := by
  unfold delMultiNode
  cases hrow : rawLookupMultiNode jhash1word s g with
  | none => exact Or.inl ⟨nodeOf_eq_none_iff.mpr hrow, rfl⟩
  | some row =>
    obtain ⟨hlive, hkey⟩ := wf.lookup_iff.mp hrow
    have hmove : ∀ d s : MultiNode, (layout jhash1word).live s = (layout jhash1word).live s ∧
      (layout jhash1word).key s = (layout jhash1word).key s := fun _ _ => ⟨rfl, rfl⟩
    have hwipe : ∀ c : MultiNode, (layout jhash1word).live MultiNode.zero = false := fun _ => rfl
    have hkey' : (layout jhash1word).key
        (s.multiGrp (mulitHashKey jhash1word g multiGrpBucket) row) = g := hkey
    refine Or.inr ⟨_, _, rfl, nodeOf_of_lookup hrow, ?_, ?_, rfl, rfl, rfl⟩
    · exact BucketLayout.WellFormed.remove wf hlive hmove hwipe
    · funext g'
      by_cases hg : g' = g
      · rw [hg, Function.update_self]
        have hself := BucketLayout.WellFormed.content_remove_self wf hlive hmove hwipe
        rwa [hkey'] at hself
      · rw [Function.update_of_ne hg]
        have hother := BucketLayout.WellFormed.content_remove_other wf hlive hmove hwipe
          (k := g') (by rw [hkey']; exact hg)
        rcases hother with h | h
        · exact h
        · exact h.trans (by simp [nodeOf])

/-! ## CLEAR -/

/-- One bucket from row `j` on: its live cells, `m` in number, are zeroed and their bits cleared. -/
theorem clearBucket_spec (i : Nat) {m n j : Nat} {s : State} (hm : m ≤ j + n)
    (hfill : ∀ r, j ≤ r → ((s.multiGrp i r).created = true ↔ r < m)) :
    (∀ b r, (clearBucket i n j s).multiGrp b r =
      if b = i ∧ j ≤ r ∧ r < m then .zero else s.multiGrp b r) ∧
    ∀ x, (clearBucket i n j s).bitmap x = true ↔
      s.bitmap x = true ∧ ∀ r, j ≤ r → r < m → (s.multiGrp i r).multiGrpIdx.toNat ≠ x := by
  induction n generalizing j s with
  | zero =>
    refine ⟨fun b r => ?_, fun x => ?_⟩
    · rw [if_neg (by omega)]
      rfl
    · exact ⟨fun h => ⟨h, by omega⟩, fun h => h.1⟩
  | succ n ih =>
    unfold clearBucket
    split
    · rename_i hdead
      have hj : ¬ j < m := by
        intro hlt
        simp [(hfill j (Nat.le_refl j)).mpr hlt] at hdead
      refine ⟨fun b r => ?_, fun x => ?_⟩
      · rw [if_neg (by omega)]
      · exact ⟨fun h => ⟨h, by omega⟩, fun h => h.1⟩
    · rename_i hlive
      have hj : j < m := (hfill j (Nat.le_refl j)).mp (by simpa using hlive)
      have hrest : ∀ r, j + 1 ≤ r → (clearNode s i j).multiGrp i r = s.multiGrp i r :=
        fun r hr => BucketLayout.put_row_ne _ _ _ (by omega)
      obtain ⟨h1, h2⟩ := ih (j := j + 1) (s := clearNode s i j) (by omega)
        (fun r hr => by rw [hrest r hr]; exact hfill r (by omega))
      refine ⟨fun b r => ?_, fun x => ?_⟩
      · rw [h1]
        simp only [clearNode, BucketLayout.put_apply]
        by_cases hb : b = i
        · by_cases hr : r = j
          · simp [hb, hr, hj]
          · have : j + 1 ≤ r ↔ j ≤ r := by omega
            simp only [hb, hr, this, true_and, and_false, if_false]
        · simp [hb]
      · rw [h2]
        simp only [clearNode, putIdx, Function.update_apply]
        constructor
        · rintro ⟨hbit, hne⟩
          split at hbit
          · simp at hbit
          · rename_i hx
            refine ⟨hbit, fun r hr hrm => ?_⟩
            by_cases he : r = j
            · exact he ▸ fun h => hx h.symm
            · have := hne r (by omega) hrm
              rwa [BucketLayout.put_row_ne _ _ _ he] at this
        · rintro ⟨hbit, hne⟩
          have hx := hne j (Nat.le_refl j) hj
          refine ⟨by rw [if_neg (fun h => hx h.symm)]; exact hbit, fun r hr hrm => ?_⟩
          rw [BucketLayout.put_row_ne _ _ _ (by omega)]
          exact hne r (by omega) hrm

/-- The first `k` buckets: every live node in them is gone, its bit cleared. -/
theorem clearBuckets_spec {s : State} (wf : WellFormed jhash1word s) (k : Nat) :
    (∀ b r, ((List.range k).foldl (fun s i => clearBucket i multiGrpDepth 0 s) s).multiGrp b r =
      if b < k ∧ (s.multiGrp b r).created = true then .zero else s.multiGrp b r) ∧
    ∀ x, ((List.range k).foldl (fun s i => clearBucket i multiGrpDepth 0 s) s).bitmap x = true ↔
      s.bitmap x = true ∧ ∀ b < k, ∀ r, (s.multiGrp b r).created = true →
        (s.multiGrp b r).multiGrpIdx.toNat ≠ x := by
  induction k with
  | zero => simp
  | succ k ih =>
    obtain ⟨ih1, ih2⟩ := ih
    rw [List.range_succ, List.foldl_append, List.foldl_cons, List.foldl_nil]
    generalize (List.range k).foldl (fun s i => clearBucket i multiGrpDepth 0 s) s = t at ih1 ih2 ⊢
    obtain ⟨m, hm, hfill⟩ := wf.fill k
    have hbucket : ∀ r, t.multiGrp k r = s.multiGrp k r := fun r => by rw [ih1, if_neg (by omega)]
    obtain ⟨h1, h2⟩ := clearBucket_spec k (m := m) (n := multiGrpDepth) (j := 0) (s := t)
      (by simpa [layout] using hm) (fun r _ => by rw [hbucket]; exact hfill r)
    have hcreated : ∀ r, (s.multiGrp k r).created = true ↔ r < m := hfill
    refine ⟨fun b r => ?_, fun x => ?_⟩
    · rw [h1, ih1]
      by_cases hb : b = k
      · subst hb
        by_cases hr : r < m
        · simp [hr, (hcreated r).mpr hr]
        · have hdead : ¬ (s.multiGrp b r).created = true := fun h => hr ((hcreated r).mp h)
          simp [hr, hdead]
      · have : b < k + 1 ↔ b < k := by omega
        simp [hb, this]
    · rw [h2, ih2]
      constructor
      · rintro ⟨⟨hbit, hlow⟩, hk⟩
        refine ⟨hbit, fun b hb r hl => ?_⟩
        by_cases he : b = k
        · subst he
          have := hk r (Nat.zero_le r) ((hcreated r).mp hl)
          rwa [hbucket] at this
        · exact hlow b (by omega) r hl
      · rintro ⟨hbit, hall⟩
        refine ⟨⟨hbit, fun b hb => hall b (by omega)⟩, fun r _ hr => ?_⟩
        rw [hbucket]
        exact hall k (by omega) r ((hcreated r).mpr hr)

theorem WellFormed.bucket_lt {s : State} (wf : WellFormed jhash1word s) {b i : Nat}
    (h : (s.multiGrp b i).created = true) : b < multiGrpBucket := by
  rw [← wf.home b i h]
  exact mulitHashKey_lt _

theorem clearMultiGroup_spec {s : State} (wf : WellFormed jhash1word s) :
    ∃ t, clearMultiGroup s = t ∧
      (∀ b r, t.multiGrp b r =
        if b < multiGrpBucket ∧ (s.multiGrp b r).created = true then .zero else s.multiGrp b r) ∧
      ∀ x, t.bitmap x = true ↔ s.bitmap x = true ∧ ∀ b < multiGrpBucket, ∀ r,
        (s.multiGrp b r).created = true → (s.multiGrp b r).multiGrpIdx.toNat ≠ x :=
  ⟨(List.range multiGrpBucket).foldl (fun s i => clearBucket i multiGrpDepth 0 s) s, rfl,
    clearBuckets_spec wf multiGrpBucket⟩

theorem clearMultiGroup_free {s : State} (wf : WellFormed jhash1word s) (b i : Nat) :
    ((clearMultiGroup s).multiGrp b i).created = false := by
  obtain ⟨t, ht, h1, _⟩ := clearMultiGroup_spec wf
  rw [ht, h1]
  split
  · rfl
  · rename_i hne
    by_contra hl
    have hl : (s.multiGrp b i).created = true := by simpa using hl
    exact hne ⟨wf.bucket_lt hl, hl⟩

theorem clearMultiGroup_wellFormed {s : State} (wf : WellFormed jhash1word s) :
    WellFormed jhash1word (clearMultiGroup s) :=
  wellFormed_of_free (clearMultiGroup_free wf)

theorem nodeOf_clearMultiGroup {s : State} (wf : WellFormed jhash1word s) (g : UInt32) :
    nodeOf jhash1word (clearMultiGroup s) g = none :=
  nodeOf_of_free (clearMultiGroup_free wf) g

theorem clearMultiGroup_bitmap {s : State} (wf : WellFormed jhash1word s) (x : Nat) :
    (clearMultiGroup s).bitmap x = true ↔ s.bitmap x = true ∧
      ∀ b i, (s.multiGrp b i).created = true → (s.multiGrp b i).multiGrpIdx.toNat ≠ x := by
  obtain ⟨t, ht, _, h2⟩ := clearMultiGroup_spec wf
  rw [ht, h2]
  refine and_congr_right fun _ => ⟨fun h b i hl => ?_, fun h b _ i hl => h b i hl⟩
  exact h b (wf.bucket_lt hl) i hl

/-! ## One command -/

/-- Everything a command that returned can have done to the table. -/
inductive Effect (jhash1word : UInt32 → UInt32 → UInt32) (s : State) :
    NlMessage → State → Prop where
  | same {msg : NlMessage} : Effect jhash1word s msg s
  | recounted {msg : NlMessage} {s' : State} {g : UInt32} {node : MultiNode} {cnt : Nat}
      {row : Nat → UInt32} (named : msg.group = some g)
      (recount : Recounted jhash1word s s' g node cnt)
      (vm : s'.multiVm = Function.update s.multiVm node.multiGrpIdx.toNat row) :
      Effect jhash1word s msg s'
  | created {service : TmccNlServiceSt} {s' : State} {idx cnt : Nat} {row : Nat → UInt32}
      (join : service.action = multiOptJoin)
      (made : Created jhash1word s s' service.multiIp idx cnt)
      (vm : s'.multiVm = Function.update s.multiVm (UInt8.ofNat idx).toNat row) :
      Effect jhash1word s (.serviceAdd service) s'
  | deleted {service : TmccNlServiceSt} {s' : State} {node : MultiNode}
      (gone : Deleted jhash1word s s' service.multiIp node) :
      Effect jhash1word s (.serviceDel service) s'
  | cleared : Effect jhash1word s .serverClear (clearMultiGroup s)

theorem multiNlNodeAdd_effect {s s' : State} (wf : WellFormed jhash1word s)
    {service : TmccNlServiceSt} {code : Int}
    (h : multiNlNodeAdd jhash1word s service = .ret (code, s')) :
    Effect jhash1word s (.serviceAdd service) s' := by
  unfold multiNlNodeAdd at h
  split at h
  · rename_i hjoin
    rcases addMultiNode_cases wf h with ⟨node, hext⟩ | ⟨_, _, rfl⟩ | ⟨idx, cnt, hmade, hvm⟩
    · obtain ⟨cnt, row, recount, hvm⟩ := hext.recounted
      exact .recounted rfl recount hvm
    · exact .same
    · rcases hvm with ⟨_, _, hvm, _⟩ | ⟨_, _, row, hvm, _⟩
      · exact .created hjoin hmade (hvm.trans (Function.update_eq_self _ _).symm)
      · exact .created hjoin hmade hvm
  · split at h
    · rcases vmQuitFromMultiGrp_cases wf service.multiIp service.ipList service.ipNum.toNat with
        ⟨_, hq⟩ | ⟨node, t, hq, recount, hvm⟩
      · rw [hq] at h
        simp only [Outcome.ret.injEq, Prod.mk.injEq] at h
        exact h.2 ▸ .same
      · rw [hq] at h
        simp only [Outcome.ret.injEq, Prod.mk.injEq] at h
        exact h.2 ▸ .recounted rfl recount hvm
    · simp only [Outcome.ret.injEq, Prod.mk.injEq] at h
      exact h.2 ▸ .same

theorem tmccRcvSkb_effect {s s' : State} (wf : WellFormed jhash1word s) {msg : NlMessage}
    {code : Int} (h : tmccRcvSkb jhash1word s msg = .ret (code, s')) :
    Effect jhash1word s msg s' := by
  cases msg with
  | serviceAdd service => exact multiNlNodeAdd_effect wf h
  | serviceDel service =>
    simp only [tmccRcvSkb, multiNlNodeDelete] at h
    rcases delMultiNode_cases wf service.multiIp with ⟨_, hd⟩ | ⟨node, t, hd, hgone⟩
    · rw [hd] at h
      simp only [Outcome.ret.injEq, Prod.mk.injEq] at h
      exact h.2 ▸ .same
    · rw [hd] at h
      simp only [Outcome.ret.injEq, Prod.mk.injEq] at h
      exact h.2 ▸ .deleted hgone
  | serverClear =>
    simp only [tmccRcvSkb, multiNlNodeClear, Outcome.ret.injEq, Prod.mk.injEq] at h
    exact h.2 ▸ .cleared
  | serviceCheckUpdate service =>
    simp only [tmccRcvSkb, multiNlVmListAppend] at h
    obtain ⟨⟨ret, t⟩, happ, hret⟩ := Outcome.bind_eq_ret_iff.mp h
    simp only [Outcome.ret.injEq, Prod.mk.injEq] at hret
    obtain ⟨_, rfl⟩ := hret
    rcases appendVmIpList_cases wf happ with ⟨_, _, rfl⟩ | ⟨node, hext⟩
    · exact .same
    · obtain ⟨cnt, row, recount, hvm⟩ := hext.recounted
      exact .recounted rfl recount hvm

end MulticastProxy.KernelServer
