import MulticastProxy.KernelClient.Fill

/-!
# Kernel client: the search for a free cell (`add_multi_node`)

The same loop as in the server module: 512 cells, counted in a `uint8_t`. The capacity of the table
is checked before and does not limit a bucket.
-/

namespace MulticastProxy.KernelClient

set_option autoImplicit false

section
variable (jhash2words : UInt32 → UInt32 → UInt32 → UInt32)

/-- The call returns, with success, an exhausted bucket or a full table. -/
def AddEnds (s : State) (multiIp : UInt32) (k : Key) : Prop :=
  ∃ code s', addMultiNode jhash2words s multiIp k.1 k.2 = .ret (code, s') ∧
    (code = 0 ∨ code = multiIdxExhaust ∨ code = multiTblFull ∧ multiGrpMax ≤ s.nodeCnt)

def bucketLoad (s : State) (k : Key) : Nat :=
  ((liveNodes jhash2words s).filter fun p => p.1 = bucketOf jhash2words k).card

/-- The table is full, so that no cell is searched, or the bucket has fewer entries than a byte can
count. -/
def SearchEnds (s : State) (k : Key) : Prop :=
  multiGrpMax ≤ s.nodeCnt ∨ bucketLoad jhash2words s k < 256

end

variable {jhash2words : UInt32 → UInt32 → UInt32 → UInt32}

theorem searchEnds_iff {s : State} (wf : WellFormed jhash2words s) {k : Key} :
    SearchEnds jhash2words s k ↔ multiGrpMax ≤ s.nodeCnt ∨
      ∃ i < 256, (s.multiGrp (bucketOf jhash2words k) i).created = false := by
  unfold SearchEnds bucketLoad liveNodes
  exact or_congr_right (wf.table.exists_free_iff ipPortHashKey_lt).symm

theorem addEnds_iff {s : State} (wf : WellFormed jhash2words s) {k : Key}
    (hnew : entry jhash2words s k = none) (multiIp : UInt32) :
    AddEnds jhash2words s multiIp k ↔ SearchEnds jhash2words s k := by
  rw [searchEnds_iff wf]
  obtain ⟨ip, port⟩ := k
  unfold AddEnds
  simp only [addMultiNode_eq]
  split
  · rename_i hfull
    exact iff_of_true ⟨_, _, rfl, Or.inr (Or.inr ⟨rfl, hfull⟩)⟩ (Or.inl hfull)
  · rename_i hroom
    rcases searchCell s (ipPortHashKey jhash2words ip port multiGrpBucket) with
      ⟨r, hr, _, hfree, _⟩ | ⟨hs, hbusy⟩
    · obtain ⟨s', hs'⟩ := insertMultiNode_returns multiIp hnew hr hfree
      exact iff_of_true ⟨0, s', hs', Or.inl rfl⟩ (Or.inr ⟨r, hr, hfree⟩)
    · refine iff_of_false ?_ ?_
      · unfold insertMultiNode
        simp [entry_eq_none_iff.mp hnew, hs]
      · rintro (hfull | ⟨i, hi, hfree⟩)
        · exact hroom hfull
        · exact Bool.false_ne_true (hfree.symm.trans (hbusy i hi))

/-! ## A crowded bucket -/

theorem Loadable.exists_reachable {keys : List Key} (h : Loadable jhash2words keys) :
    ∃ es s, Reachable jhash2words s ∧ Sim jhash2words es s ∧ es.map Prod.fst = keys := by
  induction keys using List.reverseRecOn with
  | nil => exact ⟨[], multiNodeInit, .init, sim_init, rfl⟩
  | append_singleton keys k ih =>
    obtain ⟨es, s, hreach, sim, rfl⟩ := ih h.of_append
    obtain ⟨s', hadd, sim'⟩ := sim.addMultiNode (e := (k, 0xE1000001)) h
    have hstep : tmccRcvSkb jhash2words s (.serviceAdd (serviceOf k)) = .ret (0, s') := hadd
    exact ⟨_, s', .step hreach hstep, sim', by simp⟩

/-- 256 entries in one bucket, and a 257th key of that bucket. -/
theorem exists_reachable_crowded (jhash2words : UInt32 → UInt32 → UInt32 → UInt32) :
    ∃ s k, Reachable jhash2words s ∧ entry jhash2words s k = none ∧
      ¬ SearchEnds jhash2words s k := by
  have hdistinct : Set.InjOn (fun i => ((UInt32.ofNat i, 5000) : Key))
      (Finset.range (multiGrpBucket * 256 + 1)) := fun i hi j hj he =>
    UInt32.ofNat_injOn (by decide) hi hj (Prod.mk.inj he).1
  obtain ⟨b, ks, hnodup, hlen, hbucket⟩ : ∃ b, ∃ ks : List Key, ks.Nodup ∧
      ks.length = 256 + 1 ∧ ∀ k ∈ ks, bucketOf jhash2words k = b :=
    BucketLayout.exists_crowded ipPortHashKey_lt hdistinct
  obtain ⟨k, keys, rfl⟩ : ∃ k keys, ks = k :: keys := List.exists_cons_of_length_eq_add_one hlen
  obtain ⟨hk, hkeys⟩ := List.nodup_cons.mp hnodup
  have hkeyslen : keys.length = 256 := by simpa using hlen
  have hload : Loadable jhash2words keys :=
    ⟨hkeys, by rw [hkeyslen]; decide, fun n => (List.length_filter_le _ _).trans hkeyslen.le⟩
  obtain ⟨es, s, hreach, sim, hes⟩ := hload.exists_reachable
  have hentry : ∀ k', entry jhash2words s k' = none ↔ k' ∉ keys := by
    intro k'
    rw [← sim.maps, AssocList.get_eq_none_iff, hes]
  refine ⟨s, k, hreach, (hentry k).mpr hk, ?_⟩
  rw [searchEnds_iff sim.wf]
  rintro (hfull | ⟨i, hi, hfree⟩)
  · have hcnt := sim.length
    have heslen : es.length = 256 := by rw [← hkeyslen, ← hes, List.length_map]
    have hmax : multiGrpMax = 1024 := rfl
    omega
  · have hlives : ∀ k' ∈ keys.toFinset, bucketOf jhash2words k' = b ∧
        (layout jhash2words).content s.multiGrp k' ≠ none := by
      intro k' hk'
      have hmem := List.mem_toFinset.mp hk'
      refine ⟨hbucket k' (List.mem_cons_of_mem k hmem), fun hnone => ?_⟩
      exact (hentry k').mp (by rw [entry, hnone, Option.map_none]) hmem
    have hcard : 256 ≤ keys.toFinset.card := by rw [List.toFinset_card_of_nodup hkeys, hkeyslen]
    have hlive := BucketLayout.WellFormed.live_of_card_keys sim.wf.table hlives hcard hi
    rw [hbucket k List.mem_cons_self] at hfree
    exact Bool.false_ne_true (hfree.symm.trans hlive)

end MulticastProxy.KernelClient
