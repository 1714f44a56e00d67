import MulticastProxy.Library.BucketTable
import MulticastProxy.Common.MemberRow
import MulticastProxy.Common.IndexPool

/-!
# Linux server proxy: group table (`server_proxy/multi_grp.c`, `multi_grp.h`)

The user-space table is filled from the config file and only read afterwards. Addresses are as
`inet_addr` returns them.
-/

namespace MulticastProxy.LinuxServer

set_option autoImplicit false

abbrev multiGrpBucket : Nat := 2048
abbrev multiGrpDepth : Nat := 1024
abbrev multiGrpMax : Nat := 256
abbrev multiVmMax : Nat := 128
abbrev maxMemIpInGroup : Nat := 128

abbrev multiIdxExhaust : Int := 1002
abbrev multiParamError : Int := 1003

structure MultiNode where
  multiIp : UInt32
  multiMemberCnt : Nat
  multiGrpIdx : UInt8
  created : Bool
  multiPort : UInt16
  serverPort : UInt16
  deriving DecidableEq, Repr

def MultiNode.zero : MultiNode := ⟨0, 0, 0, false, 0, 0⟩

structure State where
  multiGrp : Nat → Nat → MultiNode
  multiVm : Nat → Nat → UInt32
  gBitmap : Nat → Bool

def multiNodeInit : State where
  multiGrp := fun _ _ => .zero
  multiVm := fun _ _ => 0
  gBitmap := fun _ => false

def mulitHashKey (multiIp : UInt32) (maxnum : Nat) : Nat := (multiIp * 1023).toNat % maxnum

/-- `multi_grp` as a hash table keyed by `multi_ip`. -/
def layout : BucketLayout MultiNode UInt32 where
  live := fun node => node.created
  key := fun node => node.multiIp
  hash := fun ip => mulitHashKey ip multiGrpBucket
  depth := multiGrpDepth

/-- `__lookup_multi_node`: the row of the node in its bucket. -/
def rawLookupMultiNode (s : State) (mulitIp : UInt32) : Option Nat := layout.find s.multiGrp mulitIp

def addVmIpList (multiVm : Nat → Nat → UInt32) (idx : UInt8) (ipList : Nat → UInt32)
    (ipNum oldIpNum : Nat) : Outcome (Int × (Nat → Nat → UInt32) × Nat) :=
  if multiVmMax < (ipNum + oldIpNum) % 2 ^ 32 then .ret (multiParamError, multiVm, oldIpNum)
  else do
    let (row, k) ← addVmIpLoop multiVmMax ipList oldIpNum ipNum 0 (multiVm idx.toNat) oldIpNum
    .ret (0, Function.update multiVm idx.toNat row, k)

/-- The number of addresses is a `uint8_t` here, and so is the counter of the free-cell loop: the
bound of 1024 never ends it, one round of 256 steps decides it (`Search.byteSearch_round`). -/
def addMultiNode (s : State) (multiIp : UInt32) (multiPort serverPort : UInt16)
    (ipList : Nat → UInt32) (ipNum : UInt8) : Outcome (Int × State) :=
  let index := mulitHashKey multiIp multiGrpBucket
  match rawLookupMultiNode s multiIp with
  | some rowId => do
    let node := s.multiGrp index rowId
    let (ret, multiVm, cnt) ←
      addVmIpList s.multiVm node.multiGrpIdx ipList ipNum.toNat node.multiMemberCnt
    .ret (if ret ≠ 0 then multiParamError else 0,
      { s with
        multiVm
        multiGrp := BucketLayout.put s.multiGrp index rowId { node with multiMemberCnt := cnt } })
  | none =>
    match getIdx multiGrpMax s.gBitmap with
    | none => .ret (multiIdxExhaust, s)
    | some (idx, gBitmap) =>
      match Search.byteSearch (fun i => !(s.multiGrp index i).created) multiGrpDepth 256 0 with
      | none => .hang
      | some none => .ret (multiIdxExhaust, { s with gBitmap := putIdx gBitmap idx })
      | some (some i) => do
        let (ret, multiVm, cnt) ← addVmIpList s.multiVm (UInt8.ofNat idx) ipList ipNum.toNat 0
        .ret (if ret ≠ 0 then multiParamError else 0,
          { gBitmap
            multiVm
            multiGrp := BucketLayout.put s.multiGrp index i
              { multiIp, multiMemberCnt := cnt, multiGrpIdx := UInt8.ofNat idx, created := true,
                multiPort, serverPort } })

/-- The count is narrowed to a `uint8_t`. -/
def getVmIpList (s : State) (idx : UInt8) (ipNum : Nat) : List UInt32 :=
  cells (s.multiVm idx.toNat) (ipNum % 256)

/-- What the lookup copies out of a node. -/
structure Found where
  multiMemberCnt : Nat
  multiGrpIdx : UInt8
  serverPort : UInt16
  iplist : List UInt32
  deriving DecidableEq, Repr

def lookupMultiNode (s : State) (multiIp : UInt32) : Option Found :=
  match rawLookupMultiNode s multiIp with
  | none => none
  | some rowId =>
    let tmp := s.multiGrp (mulitHashKey multiIp multiGrpBucket) rowId
    some ⟨tmp.multiMemberCnt, tmp.multiGrpIdx, tmp.serverPort,
      getVmIpList s tmp.multiGrpIdx tmp.multiMemberCnt⟩

/-! ## A group that is not there yet -/

abbrev WellFormed (s : State) : Prop := layout.WellFormed s.multiGrp

def nodeOf (s : State) (g : UInt32) : Option MultiNode := layout.content s.multiGrp g

/-- Live nodes of the table. -/
@[irreducible] def liveNodes (s : State) : Finset (Nat × Nat) :=
  layout.liveCells multiGrpBucket s.multiGrp

theorem getVmIpList_of_le {s : State} {idx : UInt8} {cnt : Nat} (hcnt : cnt ≤ multiVmMax) :
    getVmIpList s idx cnt = cells (s.multiVm idx.toNat) cnt := by
  rw [getVmIpList, Nat.mod_eq_of_lt (Nat.lt_of_le_of_lt hcnt (by decide))]

theorem byte_le_depth : 256 ≤ multiGrpDepth := by decide

theorem mulitHashKey_lt (g : UInt32) : mulitHashKey g multiGrpBucket < multiGrpBucket :=
  Nat.mod_lt _ (by decide)

theorem multiNodeInit_wellFormed : WellFormed multiNodeInit :=
  BucketLayout.wellFormed_of_free fun _ _ => rfl

@[simp] theorem nodeOf_multiNodeInit (g : UInt32) : nodeOf multiNodeInit g = none :=
  multiNodeInit_wellFormed.content_eq_none_iff.mpr fun _ _ h => by
    simp [multiNodeInit, MultiNode.zero, layout] at h

@[simp] theorem liveNodes_multiNodeInit : liveNodes multiNodeInit = ∅ := by
  ext p
  unfold liveNodes
  rw [multiNodeInit_wellFormed.mem_liveCells mulitHashKey_lt]
  simp [multiNodeInit, MultiNode.zero, layout]

theorem lookupMultiNode_eq {s : State} {g : UInt32} :
    lookupMultiNode s g = (nodeOf s g).map fun node =>
      ⟨node.multiMemberCnt, node.multiGrpIdx, node.serverPort,
        getVmIpList s node.multiGrpIdx node.multiMemberCnt⟩ := by
  unfold lookupMultiNode rawLookupMultiNode nodeOf BucketLayout.content
  cases layout.find s.multiGrp g with
  | none => rfl
  | some row => rfl

/-- A lookup reads the node of its group and the row of that node. -/
theorem lookupMultiNode_congr {s s' : State} {g : UInt32} (hnode : nodeOf s' g = nodeOf s g)
    (hrow : ∀ node, nodeOf s g = some node →
      s'.multiVm node.multiGrpIdx.toNat = s.multiVm node.multiGrpIdx.toNat) :
    lookupMultiNode s' g = lookupMultiNode s g := by
  rw [lookupMultiNode_eq, lookupMultiNode_eq, hnode]
  apply Option.map_congr
  intro node hmem
  rw [getVmIpList, getVmIpList, hrow node hmem]

theorem lookupMultiNode_multiNodeInit (g : UInt32) : lookupMultiNode multiNodeInit g = none := by
  rw [lookupMultiNode_eq, nodeOf_multiNodeInit]
  rfl

/-! ## Insertion -/

theorem addVmIpList_new (multiVm : Nat → Nat → UInt32) (idx : UInt8) (ipList : Nat → UInt32)
    {ipNum : Nat} (hnum : ipNum ≤ multiVmMax) :
    ∃ row, addVmIpList multiVm idx ipList ipNum 0 =
        .ret (0, Function.update multiVm idx.toNat row, ipNum) ∧
      cells row ipNum = cells ipList ipNum := by
  have hmax : multiVmMax < 2 ^ 32 := by decide
  have hfits : 0 + ipNum ≤ multiVmMax := by omega
  obtain ⟨row, k, hloop⟩ := addVmIpLoop_returns ipList 0 0 (multiVm idx.toNat) hfits
  obtain ⟨hcells, _, _, _⟩ := addVmIpLoop_ret (Nat.le_refl 0) hloop
  rw [cells_zero, List.nil_append, newcomers_zero, List.filter_eq_self.mpr (by simp)] at hcells
  have hk : k = ipNum := by simpa using congrArg List.length hcells
  subst hk
  refine ⟨row, ?_, hcells⟩
  have hfit : (k + 0) % 2 ^ 32 = k := Nat.mod_eq_of_lt (by omega)
  rw [addVmIpList, hfit, if_neg (by omega), hloop]
  rfl

theorem addVmIpList_returns (multiVm : Nat → Nat → UInt32) (idx : UInt8) (ipList : Nat → UInt32)
    (ipNum : UInt8) {oldIpNum : Nat} (hold : oldIpNum ≤ multiVmMax) :
    ∃ ret multiVm' cnt, addVmIpList multiVm idx ipList ipNum.toNat oldIpNum =
      .ret (ret, multiVm', cnt) := by
  have hmax : multiVmMax = 128 := rfl
  have hnum := ipNum.toNat_lt
  unfold addVmIpList
  split
  · exact ⟨_, _, _, rfl⟩
  · rename_i hfit
    rw [Nat.mod_eq_of_lt (by omega)] at hfit
    have hfits : oldIpNum + ipNum.toNat ≤ multiVmMax := by omega
    obtain ⟨row, k, hloop⟩ := addVmIpLoop_returns ipList oldIpNum 0 (multiVm idx.toNat) hfits
    rw [hloop]
    exact ⟨_, _, _, rfl⟩

theorem addVmIpList_row {multiVm multiVm' : Nat → Nat → UInt32} {idx : UInt8}
    {ipList : Nat → UInt32} {ipNum oldIpNum cnt : Nat} {ret : Int}
    (h : addVmIpList multiVm idx ipList ipNum oldIpNum = .ret (ret, multiVm', cnt)) {j : Nat}
    (hj : j ≠ idx.toNat) : multiVm' j = multiVm j := by
  unfold addVmIpList at h
  split at h
  · obtain ⟨_, rfl, _⟩ := Prod.mk.inj (Outcome.ret.inj h)
    rfl
  · obtain ⟨⟨row, k⟩, _, hret⟩ := Outcome.bind_eq_ret_iff.mp h
    obtain ⟨_, rfl, _⟩ := Prod.mk.inj (Outcome.ret.inj hret)
    exact Function.update_of_ne hj _ _

/-- With fewer than 256 live nodes the free-cell loop stops at one of the first 256 cells. -/
theorem freeCell {s : State} (wf : WellFormed s) (hlive : (liveNodes s).card < 256) (index : Nat) :
    ∃ i < 256, (s.multiGrp index i).created = false ∧
      ∀ j < i, (s.multiGrp index j).created = true := by
  rcases BucketLayout.byteSearch_free (L := layout) s.multiGrp index byte_le_depth with
    ⟨i, hi, _, hfree, hbusy⟩ | ⟨_, hbusy⟩
  · exact ⟨i, hi, hfree, hbusy⟩
  · unfold liveNodes at hlive
    obtain ⟨i, hi, hfree⟩ := wf.exists_free mulitHashKey_lt hlive index
    simp [hbusy i hi] at hfree

theorem freeCell_search {s : State} {index i : Nat} (hi : i < 256)
    (hfree : (s.multiGrp index i).created = false)
    (hbusy : ∀ j < i, (s.multiGrp index j).created = true) {fuel : Nat} (hfuel : i < fuel)
    (hround : fuel ≤ 256) :
    Search.byteSearch (fun i => !(s.multiGrp index i).created) multiGrpDepth fuel 0 =
      some (some i) := by
  apply Search.byteSearch_eq_some byte_le_depth
  · omega
  · omega
  · omega
  · simp [hfree]
  · intro j _ hj
    simp [hbusy j hj]

/-- A group that is not there takes the first clear index and, with fewer than 256 live nodes, a
free cell. -/
theorem addMultiNode_insert {s : State} (wf : WellFormed s) {g : UInt32} (hnew : nodeOf s g = none)
    {idx : Nat} {gBitmap : Nat → Bool} (hget : getIdx multiGrpMax s.gBitmap = some (idx, gBitmap))
    (hlive : (liveNodes s).card < 256) (port serverPort : UInt16) {ipList : Nat → UInt32}
    {ipNum : UInt8} {ret : Int} {multiVm : Nat → Nat → UInt32} {cnt : Nat}
    (hadd : addVmIpList s.multiVm (UInt8.ofNat idx) ipList ipNum.toNat 0 =
      .ret (ret, multiVm, cnt)) :
    ∃ s', addMultiNode s g port serverPort ipList ipNum =
        .ret (if ret ≠ 0 then multiParamError else 0, s') ∧ WellFormed s' ∧
      nodeOf s' = Function.update (nodeOf s) g
        (some ⟨g, cnt, UInt8.ofNat idx, true, port, serverPort⟩) ∧
      (liveNodes s').card = (liveNodes s).card + 1 ∧ s'.gBitmap = gBitmap ∧
      s'.multiVm = multiVm := by
  have hrow : rawLookupMultiNode s g = none := Option.map_eq_none_iff.mp hnew
  obtain ⟨i, hi, hfree, hbusy⟩ := freeCell wf hlive (mulitHashKey g multiGrpBucket)
  have hdepth : i < layout.depth := Nat.lt_of_lt_of_le hi byte_le_depth
  have hs := freeCell_search hi hfree hbusy hi (Nat.le_refl 256)
  unfold addMultiNode
  simp only [hrow, hget, hs, hadd]
  refine ⟨_, rfl, ?_, ?_, ?_, rfl, rfl⟩
  · exact BucketLayout.WellFormed.insert wf hrow hdepth hfree hbusy rfl rfl
  · have hcontent := BucketLayout.WellFormed.content_insert wf hrow hdepth hfree hbusy
      (c := ⟨g, cnt, UInt8.ofNat idx, true, port, serverPort⟩) rfl rfl
    exact hcontent
  · unfold liveNodes
    exact BucketLayout.WellFormed.liveCells_insert wf hrow hdepth hfree hbusy rfl rfl
      mulitHashKey_lt

/-- A group that is there keeps its node but for the count. -/
theorem addMultiNode_append {s : State} (wf : WellFormed s) {g : UInt32} {node : MultiNode}
    (hnode : nodeOf s g = some node) (port serverPort : UInt16) {ipList : Nat → UInt32}
    {ipNum : UInt8} {ret : Int} {multiVm : Nat → Nat → UInt32} {cnt : Nat}
    (hadd : addVmIpList s.multiVm node.multiGrpIdx ipList ipNum.toNat node.multiMemberCnt =
      .ret (ret, multiVm, cnt)) :
    ∃ s', addMultiNode s g port serverPort ipList ipNum =
        .ret (if ret ≠ 0 then multiParamError else 0, s') ∧ WellFormed s' ∧
      nodeOf s' = Function.update (nodeOf s) g (some { node with multiMemberCnt := cnt }) ∧
      s'.gBitmap = s.gBitmap ∧ s'.multiVm = multiVm := by
  obtain ⟨row, hrow, rfl⟩ := Option.map_eq_some_iff.mp hnode
  have hraw : rawLookupMultiNode s g = some row := hrow
  obtain ⟨hlive, hkey⟩ := BucketLayout.WellFormed.find_eq_some_iff wf |>.mp hrow
  unfold addMultiNode
  simp only [hraw]
  rw [show addVmIpList s.multiVm (s.multiGrp (mulitHashKey g multiGrpBucket) row).multiGrpIdx
    ipList ipNum.toNat (s.multiGrp (mulitHashKey g multiGrpBucket) row).multiMemberCnt =
      .ret (ret, multiVm, cnt) from hadd]
  refine ⟨_, rfl, ?_, ?_, rfl, rfl⟩
  · exact BucketLayout.WellFormed.replace wf hlive hlive rfl
  · have hcontent := BucketLayout.WellFormed.content_replace wf hlive
      (c := { s.multiGrp (mulitHashKey g multiGrpBucket) row with multiMemberCnt := cnt }) hlive rfl
    rw [hkey] at hcontent
    exact hcontent

/-- What an add does to the table when the group is not there, the first clear index is `n` and
fewer than 256 nodes are live. -/
structure Added (s s' : State) (g : UInt32) (n : Nat) (port serverPort : UInt16)
    (ips : List UInt32) : Prop where
  wf : WellFormed s'
  nodes : nodeOf s' = Function.update (nodeOf s) g
    (some ⟨g, ips.length, UInt8.ofNat n, true, port, serverPort⟩)
  live : (liveNodes s').card = (liveNodes s).card + 1
  pool : s'.gBitmap = Function.update s.gBitmap n true
  members : ∃ row, s'.multiVm = Function.update s.multiVm n row ∧ cells row ips.length = ips

theorem addMultiNode_new {s : State} (wf : WellFormed s) {g : UInt32} (hnew : nodeOf s g = none)
    {n : Nat} (hn : n < 256) (hpool : ∀ j, s.gBitmap j = true ↔ j < n)
    (hlive : (liveNodes s).card < 256) (port serverPort : UInt16) (ipList : Nat → UInt32)
    (ipNum : UInt8) (hnum : ipNum.toNat ≤ multiVmMax) :
    ∃ s', addMultiNode s g port serverPort ipList ipNum = .ret (0, s') ∧
      Added s s' g n port serverPort (cells ipList ipNum.toNat) := by
  have hbyte : (UInt8.ofNat n).toNat = n := UInt8.toNat_ofNat_of_lt' hn
  cases hget : getIdx multiGrpMax s.gBitmap with
  | none =>
    have hbit := getIdx_eq_none_iff.mp hget n hn
    simp [hpool] at hbit
  | some p =>
    obtain ⟨idx, gBitmap⟩ := p
    obtain ⟨_, hclear, hlow, rfl⟩ := getIdx_eq_some hget
    have hidx : idx = n := by
      have h1 : ¬ idx < n := fun h => by simp [(hpool idx).mpr h] at hclear
      have h2 : ¬ n < idx := fun h => by simp [hpool] at hlow; exact absurd (hlow n h) (by omega)
      omega
    subst hidx
    obtain ⟨row, hadd, hcells⟩ := addVmIpList_new s.multiVm (UInt8.ofNat idx) ipList hnum
    obtain ⟨s', hs', wf', hnodes, hcard, hbits, hvm⟩ :=
      addMultiNode_insert wf hnew hget hlive port serverPort hadd
    refine ⟨s', hs', wf', ?_, hcard, hbits, row, ?_, ?_⟩
    · rw [hnodes, length_cells]
    · rw [hvm, hbyte]
    · rw [length_cells, hcells]

end MulticastProxy.LinuxServer
