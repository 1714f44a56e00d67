import MulticastProxy.KernelServer.IndexOwnership

/-!
# Kernel server: deletion of a group (`del_multi_node`)

The table is taken as it stands, whatever run led to it. The last node of the bucket moves into
the hole, the row and the index of the deleted node are released, and nothing else changes.
-/

namespace MulticastProxy.KernelServer

set_option autoImplicit false

/-- Live cells are a prefix of their bucket, addresses and indices are held once, and an index
that is held has its bit set. -/
structure TableOk (s : State) : Prop where
  fill : ∀ b, ∃ m ≤ multiGrpDepth, ∀ i, (s.multiGrp b i).created = true ↔ i < m
  address : ∀ b i b' i', (s.multiGrp b i).created = true → (s.multiGrp b' i').created = true →
    (s.multiGrp b i).multiIp = (s.multiGrp b' i').multiIp → b = b' ∧ i = i'
  index : ∀ b i b' i', (s.multiGrp b i).created = true → (s.multiGrp b' i').created = true →
    (s.multiGrp b i).multiGrpIdx = (s.multiGrp b' i').multiGrpIdx → b = b' ∧ i = i'
  bit : ∀ b i, (s.multiGrp b i).created = true →
    s.bitmap (s.multiGrp b i).multiGrpIdx.toNat = true

variable {jhash1word : UInt32 → UInt32 → UInt32}

theorem IndexOwned.tableOk {s : State} (own : IndexOwned s) (wf : WellFormed jhash1word s) :
    TableOk s where
  fill := wf.fill
  address := fun _ _ _ _ hl hl' he => wf.cell_unique hl hl' he
  index := own.distinct
  bit := fun b i hl => (own.bit _).mpr ⟨b, i, hl, rfl⟩

namespace TableOk

variable {s : State} (ok : TableOk s)
include ok

theorem lookup_iff {g : UInt32} {row : Nat} : rawLookupMultiNode jhash1word s g = some row ↔
    (s.multiGrp (mulitHashKey jhash1word g multiGrpBucket) row).created = true ∧
      (s.multiGrp (mulitHashKey jhash1word g multiGrpBucket) row).multiIp = g :=
  BucketLayout.find_eq_some_iff_of_bucket (ok.fill _)
    (fun i j hi hj hk => (ok.address _ i _ j hi hj hk).2)

theorem nodeOf_iff {g : UInt32} {node : MultiNode} : nodeOf jhash1word s g = some node ↔
    node.created = true ∧ node.multiIp = g ∧
      ∃ i, s.multiGrp (mulitHashKey jhash1word g multiGrpBucket) i = node := by
  constructor
  · intro h
    obtain ⟨row, hrow, rfl⟩ := exists_lookup h
    obtain ⟨hl, hip⟩ := ok.lookup_iff.mp hrow
    exact ⟨hl, hip, row, rfl⟩
  · rintro ⟨hl, hip, i, rfl⟩
    exact nodeOf_of_lookup (ok.lookup_iff.mpr ⟨hl, hip⟩)

end TableOk

/-! ## The cells after a deletion -/

section
variable {s s' : State} {g : UInt32} {row : Nat}

/-- Each bucket keeps its live nodes but the deleted one. -/
structure CellsAfter (s s' : State) (b row : Nat) : Prop where
  fill : ∀ b', ∃ m ≤ multiGrpDepth, ∀ i, (s'.multiGrp b' i).created = true ↔ i < m
  address : ∀ b' i b'' i', (s'.multiGrp b' i).created = true → (s'.multiGrp b'' i').created = true →
    (s'.multiGrp b' i).multiIp = (s'.multiGrp b'' i').multiIp → b' = b'' ∧ i = i'
  cell : ∀ b' node, node.created = true →
    ((∃ i, s'.multiGrp b' i = node) ↔ ∃ i, s.multiGrp b' i = node ∧ ¬(b' = b ∧ i = row))

theorem delMultiNode_of_lookup (ok : TableOk s)
    (hrow : rawLookupMultiNode jhash1word s g = some row) :
    ∃ s', delMultiNode jhash1word s g = (0, s') ∧
      CellsAfter s s' (mulitHashKey jhash1word g multiGrpBucket) row ∧
      s'.multiStats = s.multiStats ∧
      s'.multiVm = clearVmIpList s.multiVm
        (s.multiGrp (mulitHashKey jhash1word g multiGrpBucket) row).multiGrpIdx.toNat ∧
      s'.bitmap = putIdx s.bitmap
        (s.multiGrp (mulitHashKey jhash1word g multiGrpBucket) row).multiGrpIdx.toNat := by
  unfold delMultiNode
  simp only [hrow]
  have hwipe : ∀ c : MultiNode, (layout jhash1word).live ((fun _ => MultiNode.zero) c) = false :=
    fun _ => rfl
  obtain ⟨hfill, haddress, hcell⟩ := BucketLayout.remove_cells (L := layout jhash1word)
    ok.fill ok.address (ok.lookup_iff.mp hrow).1 hwipe
  exact ⟨_, rfl, ⟨hfill, haddress, hcell⟩, rfl, rfl, rfl⟩

/-- A live node after the deletion is an old one with another index. -/
theorem CellsAfter.origin {b : Nat} (cells : CellsAfter s s' b row) (ok : TableOk s)
    (hrow : (s.multiGrp b row).created = true) {b' i : Nat}
    (hl : (s'.multiGrp b' i).created = true) :
    ∃ i', s.multiGrp b' i' = s'.multiGrp b' i ∧
      (s'.multiGrp b' i).multiGrpIdx ≠ (s.multiGrp b row).multiGrpIdx := by
  obtain ⟨i', he, hne⟩ := (cells.cell b' _ hl).mp ⟨i, rfl⟩
  refine ⟨i', he, fun hidx => hne ?_⟩
  rw [← he] at hl hidx
  exact ok.index b' i' b row hl hrow hidx

theorem CellsAfter.tableOk {b : Nat} (cells : CellsAfter s s' b row) (ok : TableOk s)
    (hrow : (s.multiGrp b row).created = true)
    (hbitmap : s'.bitmap = putIdx s.bitmap (s.multiGrp b row).multiGrpIdx.toNat) :
    TableOk s' where
  fill := cells.fill
  address := cells.address
  index := fun b' i b'' i' hl hl' hidx => by
    obtain ⟨j, he, _⟩ := cells.origin ok hrow hl
    obtain ⟨j', he', _⟩ := cells.origin ok hrow hl'
    obtain ⟨rfl, rfl⟩ := ok.index b' j b'' j' (he ▸ hl) (he' ▸ hl') (by rw [he, he', hidx])
    exact cells.address b' i b' i' hl hl' (by rw [← he, ← he'])
  bit := fun b' i hl => by
    obtain ⟨j, he, hne⟩ := cells.origin ok hrow hl
    rw [hbitmap, putIdx, Function.update_of_ne (fun h => hne (UInt8.toNat_inj.mp h)), ← he]
    exact ok.bit b' j (he ▸ hl)

theorem CellsAfter.nodes
    (cells : CellsAfter s s' (mulitHashKey jhash1word g multiGrpBucket) row) (ok : TableOk s)
    (ok' : TableOk s') (hrow : rawLookupMultiNode jhash1word s g = some row) :
    nodeOf jhash1word s' = Function.update (nodeOf jhash1word s) g none := by
  obtain ⟨hlive, hip⟩ := ok.lookup_iff.mp hrow
  funext h
  apply Option.ext
  intro node
  by_cases hg : h = g
  · subst hg
    rw [Function.update_self]
    refine iff_of_false (fun hnode => ?_) (by simp)
    obtain ⟨hl, hipn, hin⟩ := ok'.nodeOf_iff.mp hnode
    obtain ⟨i, rfl, hne⟩ := (cells.cell _ node hl).mp hin
    exact hne (ok.address _ i _ row hl hlive (hipn.trans hip.symm))
  · rw [Function.update_of_ne hg, ok'.nodeOf_iff, ok.nodeOf_iff]
    refine and_congr_right fun hl => and_congr_right fun hipn => ?_
    rw [cells.cell _ node hl]
    constructor
    · rintro ⟨i, he, _⟩
      exact ⟨i, he⟩
    · rintro ⟨i, he⟩
      refine ⟨i, he, ?_⟩
      rintro ⟨hb, rfl⟩
      rw [hb] at he
      exact hg (by rw [← hipn, ← he, hip])

end

/-! ## Deletion -/

/-- The node of each live cell lies in the bucket of its address. -/
def AtHome (jhash1word : UInt32 → UInt32 → UInt32) (s : State) : Prop :=
  ∀ b i, (s.multiGrp b i).created = true →
    mulitHashKey jhash1word (s.multiGrp b i).multiIp multiGrpBucket = b

/-- What the deletion of `g` with index `idx` leaves. -/
structure DeletedAlone (jhash1word : UInt32 → UInt32 → UInt32) (s s' : State) (g : UInt32)
    (idx : Nat) : Prop where
  gone : lookupMultiNode jhash1word s' g = none
  bit : s'.bitmap = Function.update s.bitmap idx false
  row : ∀ i j, s'.multiVm i j = if i = idx ∧ j < multiVmMax then 0 else s.multiVm i j
  lookup : ∀ h, h ≠ g → lookupMultiNode jhash1word s' h = lookupMultiNode jhash1word s h
  stats : ∀ h, h ≠ g → getMultiPktStats jhash1word s' h = getMultiPktStats jhash1word s h
  ok : TableOk s'
  home : AtHome jhash1word s → AtHome jhash1word s'

theorem clearVmIpList_apply (multiVm : Nat → Nat → UInt32) (idx i j : Nat) :
    clearVmIpList multiVm idx i j = if i = idx ∧ j < multiVmMax then 0 else multiVm i j := by
  unfold clearVmIpList
  by_cases hi : i = idx
  · subst hi
    simp
  · simp [hi]

theorem TableOk.idx_ne {s : State} (ok : TableOk s) {g h : UInt32} {node node' : MultiNode}
    (hnode : nodeOf jhash1word s g = some node) (hnode' : nodeOf jhash1word s h = some node')
    (hne : h ≠ g) : node'.multiGrpIdx.toNat ≠ node.multiGrpIdx.toNat := by
  obtain ⟨hl, hip, i, rfl⟩ := ok.nodeOf_iff.mp hnode
  obtain ⟨hl', hip', i', rfl⟩ := ok.nodeOf_iff.mp hnode'
  intro hidx
  obtain ⟨hb, rfl⟩ := ok.index _ i' _ i hl' hl (UInt8.toNat_inj.mp hidx)
  exact hne (by rw [← hip, ← hip', hb])

/-- In every table that is in order, DEL of a group that a lookup finds. -/
theorem delete_frame {s : State} (ok : TableOk s) {g : UInt32} {cnt : Nat} {idx : UInt8}
    {members : List UInt32} (hlive : lookupMultiNode jhash1word s g = some (cnt, idx, members)) :
    ∃ s', delMultiNode jhash1word s g = (0, s') ∧
      DeletedAlone jhash1word s s' g idx.toNat := by
  rw [lookupMultiNode_eq] at hlive
  obtain ⟨node, hnode, he⟩ := Option.map_eq_some_iff.mp hlive
  obtain ⟨rfl, rfl, rfl⟩ : node.multiMemberCnt = cnt ∧ node.multiGrpIdx = idx ∧ _ = members := by
    simpa using he
  obtain ⟨row, hrow, rfl⟩ := exists_lookup hnode
  obtain ⟨s', hdel, cells, hstats, hvm, hbitmap⟩ := delMultiNode_of_lookup ok hrow
  have hcreated := (ok.lookup_iff.mp hrow).1
  have ok' := cells.tableOk ok hcreated hbitmap
  have hnodes := cells.nodes ok ok' hrow
  refine ⟨s', hdel, ?_, hbitmap, ?_, ?_, ?_, ok', ?_⟩
  · rw [lookupMultiNode_eq, hnodes, Function.update_self]
    rfl
  · intro i j
    rw [hvm]
    exact clearVmIpList_apply _ _ i j
  · intro h hne
    rw [lookupMultiNode_eq, lookupMultiNode_eq, hnodes, Function.update_of_ne hne]
    apply Option.map_congr
    intro node' hnode'
    have hidx := ok.idx_ne (nodeOf_of_lookup hrow) hnode' hne
    simp only [getVmIpList, hvm, clearVmIpList]
    rw [Function.update_of_ne hidx]
  · intro h hne
    rw [getMultiPktStats_eq, getMultiPktStats_eq, hnodes, Function.update_of_ne hne, hstats]
  · intro hhome b i hl
    obtain ⟨i', he, _⟩ := cells.origin ok hcreated hl
    rw [← he] at hl ⊢
    exact hhome b i' hl

theorem delete_frame_after_join :
    ∃ s s' idx, delMultiNode (fun _ _ => 0) s 0xE0000001 = (0, s') ∧
      DeletedAlone (fun _ _ => 0) s s' 0xE0000001 idx := by
  obtain ⟨s, hs, cnt, idx, hfound⟩ := joinMessage_multiNodeInit (fun _ _ => 0) 0xE0000001
    (show [7, 8].length ≤ multiVmMax by decide)
  have hroom : PoolRoom (fun _ _ => 0) multiNodeInit (joinMessage 0xE0000001 [7, 8]) :=
    fun _ _ => by simp
  have hok : TableOk s :=
    ((tmccRcvSkb_effect multiNodeInit_wellFormed hs).indexOwned multiNodeInit_wellFormed
      multiNodeInit_indexOwned hroom).tableOk (tmccRcvSkb_wellFormed multiNodeInit_wellFormed hs)
  obtain ⟨s', hdel, hframe⟩ := delete_frame hok hfound
  exact ⟨s, s', _, hdel, hframe⟩

end MulticastProxy.KernelServer
