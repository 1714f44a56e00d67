import MulticastProxy.KernelClient.PacketStats

/-!
# Kernel client: deletion of an entry (`del_multi_node`, `get_multi_packets_stats`)

The last entry of the bucket moves into the hole field by field, without its counters.
-/

namespace MulticastProxy.KernelClient

set_option autoImplicit false

section
variable (jhash2words : UInt32 → UInt32 → UInt32 → UInt32)

/-- `rx_packets` and `rx_bytes` of an entry; `none` where `ret` is 1. -/
def getMultiPacketsStats (s : State) (ip : UInt32) (port : UInt16) : Option (UInt64 × UInt64) :=
  (rawLookupIpPortNode jhash2words s ip port).map fun rowId =>
    let node := s.multiGrp (ipPortHashKey jhash2words ip port multiGrpBucket) rowId
    (node.rxPackets, node.rxBytes)

/-- Tables after a run of commands and received packets, the two steps of a packet taken apart. -/
def Counted (s : State) : Prop :=
  ∃ acts h, Trace.exec (HookSystem.next jhash2words) HookSystem.init acts = some h ∧ h.table = s

/-- The deletion of `k` takes `k` away, and `k'` keeps its group and its counters. -/
structure DeletesOnly (s : State) (k k' : Key) : Prop where
  gone : lookupIpPortNode jhash2words (delMultiNode jhash2words s k.1 k.2).2 k.1 k.2 = none
  group : (lookupIpPortNode jhash2words (delMultiNode jhash2words s k.1 k.2).2 k'.1 k'.2).map
    Prod.fst = (lookupIpPortNode jhash2words s k'.1 k'.2).map Prod.fst
  counters : getMultiPacketsStats jhash2words (delMultiNode jhash2words s k.1 k.2).2 k'.1 k'.2 =
    getMultiPacketsStats jhash2words s k'.1 k'.2

/-- `k'` is the last entry of the bucket of `k`. -/
def LastBeside (s : State) (k k' : Key) : Prop :=
  bucketOf jhash2words k' = bucketOf jhash2words k ∧
    ∃ row, rawLookupIpPortNode jhash2words s k'.1 k'.2 = some row ∧
      (s.multiGrp (bucketOf jhash2words k) (row + 1)).created = false

end

variable {jhash2words : UInt32 → UInt32 → UInt32 → UInt32}

theorem getMultiPacketsStats_eq (s : State) (k : Key) :
    getMultiPacketsStats jhash2words s k.1 k.2 =
      ((layout jhash2words).content s.multiGrp k).map fun node => (node.rxPackets, node.rxBytes) := by
  unfold getMultiPacketsStats BucketLayout.content
  rw [Option.map_map]
  rfl

/-! ## Runs -/

theorem Counted.wellFormed {s : State} (h : Counted jhash2words s) : WellFormed jhash2words s := by
  obtain ⟨acts, h, hexec, rfl⟩ := h
  apply Trace.invariant_of_exec (I := fun h => WellFormed jhash2words h.table) _ _ hexec
  · intro h act h' wf hnext
    exact HookSystem.next_wellFormed wf hnext
  · exact multiNodeInit_wellFormed

/-! ## The entries after a deletion -/

section
variable {s : State} {k k' : Key} {row row' : Nat}

theorem cell_of_lookup (wf : WellFormed jhash2words s)
    (hrow : rawLookupIpPortNode jhash2words s k.1 k.2 = some row) :
    (layout jhash2words).live (s.multiGrp (bucketOf jhash2words k) row) = true ∧
      (layout jhash2words).key (s.multiGrp (bucketOf jhash2words k) row) = k :=
  wf.lookup_iff.mp hrow

theorem content_of_lookup (hrow : rawLookupIpPortNode jhash2words s k.1 k.2 = some row) :
    (layout jhash2words).content s.multiGrp k = some (s.multiGrp (bucketOf jhash2words k) row) := by
  have hfind : (layout jhash2words).find s.multiGrp k = some row := hrow
  rw [BucketLayout.content, hfind]
  rfl

theorem exists_lookup_of_entry (h : entry jhash2words s k ≠ none) :
    ∃ row, rawLookupIpPortNode jhash2words s k.1 k.2 = some row := by
  apply Option.ne_none_iff_exists'.mp
  intro hnone
  exact h (entry_eq_none_iff.mpr hnone)

/-- The entries after a deletion: all others stay, but the last of the bucket moves. -/
theorem content_delMultiNode (wf : WellFormed jhash2words s)
    (hrow : rawLookupIpPortNode jhash2words s k.1 k.2 = some row)
    (hrow' : rawLookupIpPortNode jhash2words s k'.1 k'.2 = some row') (hne : k' ≠ k) :
    (layout jhash2words).content (delMultiNode jhash2words s k.1 k.2).2.multiGrp k' =
      some (if bucketOf jhash2words k' = bucketOf jhash2words k ∧
          (s.multiGrp (bucketOf jhash2words k) (row' + 1)).created = false
        then moveNode (s.multiGrp (bucketOf jhash2words k) row)
          (s.multiGrp (bucketOf jhash2words k') row')
        else s.multiGrp (bucketOf jhash2words k') row') := by
  obtain ⟨hlive, hkey⟩ := cell_of_lookup wf hrow
  have hcell' := cell_of_lookup wf hrow'
  have hdel : (delMultiNode jhash2words s k.1 k.2).2.multiGrp =
      (layout jhash2words).remove moveNode wipeNode s.multiGrp (bucketOf jhash2words k) row := by
    unfold delMultiNode
    simp only [hrow]
    rfl
  have hother : ¬(bucketOf jhash2words k' = bucketOf jhash2words k ∧ row' = row) := by
    rintro ⟨hb, rfl⟩
    rw [hb] at hcell'
    exact hne (hcell'.2.symm.trans hkey)
  rw [hdel]
  split
  · rename_i hlast
    obtain ⟨hb, hfree⟩ := hlast
    rw [hb] at hcell' ⊢
    have hmoved := BucketLayout.WellFormed.content_remove_moved wf.table hlive moveNode_spec
      wipeNode_free hcell'.1 hfree fun h => hother ⟨hb, h⟩
    rw [hcell'.2] at hmoved
    exact hmoved
  · rename_i hlast
    have hkept := BucketLayout.WellFormed.content_remove_kept wf.table hlive moveNode_spec
      wipeNode_free hcell'.1 hother fun hb => by
        by_contra hfree
        exact hlast ⟨hb, Bool.not_eq_true _ ▸ hfree⟩
    rw [hcell'.2] at hkept
    exact hkept

end

/-- The last entry of the bucket takes over the counters of the deleted one. -/
theorem stats_delMultiNode_last {s : State} {k k' : Key} {row : Nat} (wf : WellFormed jhash2words s)
    (hrow : rawLookupIpPortNode jhash2words s k.1 k.2 = some row) (hne : k' ≠ k)
    (hlast : LastBeside jhash2words s k k') :
    getMultiPacketsStats jhash2words (delMultiNode jhash2words s k.1 k.2).2 k'.1 k'.2 =
      getMultiPacketsStats jhash2words s k.1 k.2 := by
  obtain ⟨hb, row', hrow', hfree⟩ := hlast
  rw [getMultiPacketsStats_eq, getMultiPacketsStats_eq, content_of_lookup hrow,
    content_delMultiNode wf hrow hrow' hne, if_pos ⟨hb, hfree⟩]
  rfl

theorem stats_delMultiNode_kept {s : State} {k k' : Key} {row row' : Nat}
    (wf : WellFormed jhash2words s) (hrow : rawLookupIpPortNode jhash2words s k.1 k.2 = some row)
    (hrow' : rawLookupIpPortNode jhash2words s k'.1 k'.2 = some row') (hne : k' ≠ k)
    (hlast : ¬ LastBeside jhash2words s k k') :
    getMultiPacketsStats jhash2words (delMultiNode jhash2words s k.1 k.2).2 k'.1 k'.2 =
      getMultiPacketsStats jhash2words s k'.1 k'.2 := by
  rw [getMultiPacketsStats_eq, getMultiPacketsStats_eq, content_of_lookup hrow',
    content_delMultiNode wf hrow hrow' hne, if_neg]
  rintro ⟨hb, hfree⟩
  exact hlast ⟨hb, row', hrow', hfree⟩

/-- For every table and every two entries: the deletion of one leaves the other as it was exactly
where the other is not the last entry of the bucket, or has the same counters. -/
theorem delMultiNode_only_iff {s : State} (h : Counted jhash2words s) {k k' : Key}
    (hk : entry jhash2words s k ≠ none) (hk' : entry jhash2words s k' ≠ none) (hne : k' ≠ k) :
    DeletesOnly jhash2words s k k' ↔
      (LastBeside jhash2words s k k' →
        getMultiPacketsStats jhash2words s k.1 k.2 =
          getMultiPacketsStats jhash2words s k'.1 k'.2) := by
  have wf := h.wellFormed
  obtain ⟨row, hrow⟩ := exists_lookup_of_entry hk
  obtain ⟨row', hrow'⟩ := exists_lookup_of_entry hk'
  constructor
  · intro honly hlast
    rw [← stats_delMultiNode_last wf hrow hne hlast]
    exact honly.counters
  · intro hcond
    rcases delMultiNode_cases wf k.1 k.2 with ⟨hnone, _⟩ | ⟨s', hdel, _, _, hentry⟩
    · exact absurd hnone hk
    · refine ⟨?_, ?_, ?_⟩
      · apply Option.map_eq_none_iff.mp
        rw [lookupIpPortNode_eq, hdel, hentry, Function.update_self]
      · rw [lookupIpPortNode_eq, lookupIpPortNode_eq, hdel, hentry, Function.update_of_ne hne]
      · by_cases hlast : LastBeside jhash2words s k k'
        · rw [stats_delMultiNode_last wf hrow hne hlast]
          exact hcond hlast
        · exact stats_delMultiNode_kept wf hrow hrow' hne hlast

/-! ## Two entries of one bucket -/

section
variable {s s' : State} {k k' : Key} {g : UInt32}

theorem free_of_only (wf : WellFormed jhash2words s)
    (honly : ∀ k', entry jhash2words s k' = if k' = k then some g else none)
    {i : Nat} (hl : (layout jhash2words).live (s.multiGrp (bucketOf jhash2words k) 0) = true)
    (hi : i ≠ 0) : (s.multiGrp (bucketOf jhash2words k) i).created = false := by
  have hkey : ∀ i, (layout jhash2words).live (s.multiGrp (bucketOf jhash2words k) i) = true →
      (layout jhash2words).key (s.multiGrp (bucketOf jhash2words k) i) = k := by
    intro i hli
    by_contra hne
    have hnone := honly ((layout jhash2words).key (s.multiGrp (bucketOf jhash2words k) i))
    rw [if_neg hne, entry, wf.table.content_of_cell hli] at hnone
    cases hnone
  by_contra hfree
  have hli : (layout jhash2words).live (s.multiGrp (bucketOf jhash2words k) i) = true :=
    Bool.not_eq_false _ ▸ hfree
  exact hi (wf.table.cell_unique hli hl ((hkey i hli).trans (hkey 0 hl).symm)).2

theorem nodeCnt_addMultiNode {ip : UInt32} {port : UInt16} {code : Int}
    (h : addMultiNode jhash2words s g ip port = .ret (code, s')) : s'.nodeCnt ≤ s.nodeCnt + 1 := by
  rcases addMultiNode_ret h with ⟨rfl, _⟩ | ⟨_, hins⟩
  · omega
  · rcases insertMultiNode_inv hins with ⟨rfl, _⟩ | ⟨_, _, _, _, rfl⟩ | ⟨_, _, _, _, _, _, rfl⟩
    · omega
    · exact Int.le_add_one le_rfl
    · exact le_rfl

theorem addMultiNode_second (wf : WellFormed jhash2words s)
    (honly : ∀ k', entry jhash2words s k' = if k' = k then some g else none)
    (hl : (layout jhash2words).live (s.multiGrp (bucketOf jhash2words k) 0) = true)
    (hne : k' ≠ k) (hbucket : bucketOf jhash2words k' = bucketOf jhash2words k)
    (hroom : s.nodeCnt < multiGrpMax) :
    ∃ s', addMultiNode jhash2words s g k'.1 k'.2 = .ret (0, s') ∧ s'.multiGrp =
      BucketLayout.put s.multiGrp (bucketOf jhash2words k) 1 ⟨g, k'.1, k'.2, true, 0, 0⟩ := by
  have hnew : entry jhash2words s k' = none := by rw [honly, if_neg hne]
  have hfree := free_of_only wf honly hl Nat.one_ne_zero
  rw [← hbucket] at hl hfree ⊢
  obtain ⟨s', hadd⟩ := addMultiNode_returns g hroom hnew (by omega) hfree
  refine ⟨s', hadd, ?_⟩
  rcases addMultiNode_ret hadd with ⟨_, hcode, _⟩ | ⟨_, hins⟩
  · cases hcode
  · rcases insertMultiNode_inv hins with ⟨_, hcode, _⟩ | ⟨_, row, hrow, _⟩ |
      ⟨_, _, i, _, hi, hbusy, rfl⟩
    · cases hcode
    · exact absurd (hrow.symm.trans (entry_eq_none_iff.mp hnew)) (Option.some_ne_none _)
    · have hpos : i ≠ 0 := by
        rintro rfl
        exact Bool.false_ne_true (hi.symm.trans hl)
      have hle : ¬ 1 < i := fun hlt => Bool.false_ne_true (hfree.symm.trans (hbusy 1 hlt))
      obtain rfl : i = 1 := by omega
      rfl

end

/-- For every hash: two entries in the first two cells of a bucket. -/
theorem exists_two_entries (jhash2words : UInt32 → UInt32 → UInt32 → UInt32) :
    ∃ s k k' acts, k' ≠ k ∧ bucketOf jhash2words k' = bucketOf jhash2words k ∧
      Trace.exec (HookSystem.next jhash2words) HookSystem.init acts = some ⟨s, fun _ => none⟩ ∧
      s.multiGrp (bucketOf jhash2words k) 0 = ⟨0xE1000001, k.1, k.2, true, 0, 0⟩ ∧
      s.multiGrp (bucketOf jhash2words k) 1 = ⟨0xE1000001, k'.1, k'.2, true, 0, 0⟩ ∧
      (s.multiGrp (bucketOf jhash2words k) 2).created = false := by
  obtain ⟨k, k', hne, hbucket⟩ := exists_ports jhash2words
  obtain ⟨s1, hadd1, hcell1, wf1, hentry1⟩ := addMultiNode_of_free jhash2words
    (s := multiNodeInit) (fun _ _ => rfl) rfl 0xE1000001 k
  have hlive : (layout jhash2words).live (s1.multiGrp (bucketOf jhash2words k) 0) = true := by
    rw [hcell1]
    rfl
  have hroom : s1.nodeCnt < multiGrpMax := by
    apply lt_of_le_of_lt (nodeCnt_addMultiNode hadd1)
    decide
  obtain ⟨s2, hadd2, hcells⟩ :=
    addMultiNode_second wf1 hentry1 hlive hne.symm hbucket.symm hroom
  refine ⟨s2, k, k', [.command (.serviceAdd (serviceOf k)), .command (.serviceAdd (serviceOf k'))],
    hne.symm, hbucket.symm, ?_, ?_, ?_, ?_⟩
  · simp only [Trace.exec, HookSystem.next, HookSystem.init, tmccRcvSkb, serviceOf, hadd1, hadd2,
      Option.bind_some]
  · rw [hcells, BucketLayout.put_row_ne _ _ _ Nat.zero_ne_one, hcell1]
  · rw [hcells, BucketLayout.put_same]
  · rw [hcells, BucketLayout.put_row_ne _ _ _ (by omega)]
    exact free_of_only wf1 hentry1 hlive (by omega)

section
variable {s : State} {k : Key} {i : Nat} {g : UInt32} {packets bytes : UInt64}

theorem lookup_of_cell (wf : WellFormed jhash2words s)
    (hcell : s.multiGrp (bucketOf jhash2words k) i = ⟨g, k.1, k.2, true, packets, bytes⟩) :
    rawLookupIpPortNode jhash2words s k.1 k.2 = some i := by
  have hcell : s.multiGrp (ipPortHashKey jhash2words k.1 k.2 multiGrpBucket) i =
      ⟨g, k.1, k.2, true, packets, bytes⟩ := hcell
  rw [wf.lookup_iff, hcell]
  exact ⟨rfl, rfl⟩

theorem entry_of_cell (wf : WellFormed jhash2words s)
    (hcell : s.multiGrp (bucketOf jhash2words k) i = ⟨g, k.1, k.2, true, packets, bytes⟩) :
    entry jhash2words s k ≠ none := by
  intro hnone
  exact Option.some_ne_none _ ((lookup_of_cell wf hcell).symm.trans (entry_eq_none_iff.mp hnone))

theorem stats_of_cell (wf : WellFormed jhash2words s)
    (hcell : s.multiGrp (bucketOf jhash2words k) i = ⟨g, k.1, k.2, true, packets, bytes⟩) :
    getMultiPacketsStats jhash2words s k.1 k.2 = some (packets, bytes) := by
  rw [getMultiPacketsStats_eq, content_of_lookup (lookup_of_cell wf hcell), hcell]
  rfl

end

/-- Two entries without packets: one is deleted, the other stays as it was. -/
theorem delMultiNode_only_two : ∃ s k k', k' ≠ k ∧ entry (fun a _ _ => a) s k' ≠ none ∧
    DeletesOnly (fun a _ _ => a) s k k' := by
  obtain ⟨s, k, k', acts, hne, hbucket, hexec, hcell, hcell', _⟩ :=
    exists_two_entries fun a _ _ => a
  have hcounted : Counted (fun a _ _ => a) s := ⟨_, _, hexec, rfl⟩
  have wf := hcounted.wellFormed
  rw [← hbucket] at hcell'
  have hk' := entry_of_cell wf hcell'
  refine ⟨s, k, k', hne, hk', ?_⟩
  apply (delMultiNode_only_iff hcounted (entry_of_cell wf hcell) hk' hne).mpr
  intro _
  rw [stats_of_cell wf hcell, stats_of_cell wf hcell']

/-- For every hash: a packet of the second entry is counted, the first entry is deleted, and the
counters of the second are those of the first. -/
theorem not_delMultiNode_only : ¬ ∃ jhash2words, ∀ s, Counted jhash2words s → ∀ k k' : Key,
    entry jhash2words s k ≠ none → entry jhash2words s k' ≠ none → k' ≠ k →
      DeletesOnly jhash2words s k k' := by
  rintro ⟨jhash2words, hall⟩
  obtain ⟨s, k, k', acts, hne, hbucket, hexec, hcell, hcell', hfree⟩ :=
    exists_two_entries jhash2words
  have wf := (show Counted jhash2words s from ⟨_, _, hexec, rfl⟩).wellFormed
  rw [← hbucket] at hcell'
  have hfound : lookupIpPortNode jhash2words s k'.1 k'.2 =
      some (0xE1000001, bucketOf jhash2words k', 1) := by
    have hcell' : s.multiGrp (ipPortHashKey jhash2words k'.1 k'.2 multiGrpBucket) 1 =
      ⟨0xE1000001, k'.1, k'.2, true, 0, 0⟩ := hcell'
    simp only [lookupIpPortNode, lookup_of_cell wf hcell', Option.map_some, hcell']
    rfl
  -- One packet of 100 bytes for the second entry.
  let s' := multiClientStats s 0xE1000001 (bucketOf jhash2words k') 1 100
  have hcells : s'.multiGrp = BucketLayout.put s.multiGrp (bucketOf jhash2words k') 1
      ⟨0xE1000001, k'.1, k'.2, true, 1, 100⟩ := by
    simp only [s', multiClientStats, hcell']
    rfl
  have hcounted : Counted jhash2words s' := by
    refine ⟨acts ++ [.lookup 0 k' 100, .stats 0], ⟨s', fun _ => none⟩, ?_, rfl⟩
    rw [Trace.exec_append _ hexec]
    simp only [Trace.exec, HookSystem.next, hfound, Option.bind_some, Function.update_self,
      Function.update_idem]
    simp [s']
  have wf' := hcounted.wellFormed
  have hstay : s'.multiGrp (bucketOf jhash2words k) 0 = ⟨0xE1000001, k.1, k.2, true, 0, 0⟩ := by
    rw [hcells, hbucket, BucketLayout.put_row_ne _ _ _ Nat.zero_ne_one, hcell]
  have hnew : s'.multiGrp (bucketOf jhash2words k') 1 =
      ⟨0xE1000001, k'.1, k'.2, true, 1, 100⟩ := by
    rw [hcells, BucketLayout.put_same]
  have hlast : LastBeside jhash2words s' k k' := by
    refine ⟨hbucket, 1, lookup_of_cell wf' hnew, ?_⟩
    rw [hcells, hbucket, BucketLayout.put_row_ne _ _ _ (by omega)]
    exact hfree
  have honly := hall s' hcounted k k' (entry_of_cell wf' hstay) (entry_of_cell wf' hnew) hne
  have hcounters := honly.counters
  rw [stats_delMultiNode_last wf' (lookup_of_cell wf' hstay) hne hlast, stats_of_cell wf' hstay,
    stats_of_cell wf' hnew] at hcounters
  cases hcounters

end MulticastProxy.KernelClient
