import MulticastProxy.KernelServer.IndexOwnership

/-!
# Kernel server: the search for a free cell (`add_multi_node`)

A bucket has 512 cells and the loop over them counts in a `uint8_t`. With the first 256 cells
taken it runs for ever, under the lock.
-/

namespace MulticastProxy.KernelServer

set_option autoImplicit false

section
variable (jhash1word : UInt32 → UInt32 → UInt32)

/-- The call returns, with success, an exhausted table or a list too long for a row. -/
def AddEnds (s : State) (g : UInt32) (ipList : Nat → UInt32) (ipNum : UInt32) : Prop :=
  ∃ code s', addMultiNode jhash1word s g ipList ipNum.toNat = .ret (code, s') ∧
    (code = 0 ∨ code = multiIdxExhaust ∨ code = multiParamError ∧ multiVmMax < ipNum.toNat)

def bucketLoad (s : State) (g : UInt32) : Nat :=
  ((liveNodes jhash1word s).filter fun p => p.1 = mulitHashKey jhash1word g multiGrpBucket).card

/-- No index is left, so that no cell is searched, or the bucket has fewer groups than a byte can
count. -/
def SearchEnds (s : State) (g : UInt32) : Prop :=
  (∀ j < multiGrpMax, s.bitmap j = true) ∨ bucketLoad jhash1word s g < 256

end

variable {jhash1word : UInt32 → UInt32 → UInt32}

theorem searchEnds_iff {s : State} (wf : WellFormed jhash1word s) {g : UInt32} :
    SearchEnds jhash1word s g ↔ (∀ j < multiGrpMax, s.bitmap j = true) ∨
      ∃ i < 256, (s.multiGrp (mulitHashKey jhash1word g multiGrpBucket) i).created = false := by
  unfold SearchEnds bucketLoad liveNodes
  exact or_congr_right (BucketLayout.WellFormed.exists_free_iff wf mulitHashKey_lt).symm

theorem addEnds_iff {s : State} (wf : WellFormed jhash1word s) {g : UInt32}
    (hnew : nodeOf jhash1word s g = none) (ipList : Nat → UInt32) (ipNum : UInt32) :
    AddEnds jhash1word s g ipList ipNum ↔ SearchEnds jhash1word s g := by
  rw [searchEnds_iff wf]
  unfold AddEnds addMultiNode
  simp only [nodeOf_eq_none_iff.mp hnew]
  cases hget : getIdx multiGrpMax s.bitmap with
  | none =>
    exact iff_of_true ⟨_, _, rfl, Or.inr (Or.inl rfl)⟩ (Or.inl (getIdx_eq_none_iff.mp hget))
  | some p =>
    obtain ⟨idx, bitmap⟩ := p
    obtain ⟨hidx, hclear, _, _⟩ := getIdx_eq_some hget
    rcases searchCell s (mulitHashKey jhash1word g multiGrpBucket) with
      ⟨r, hr, hs, hfree, _⟩ | ⟨hs, hbusy⟩
    · refine iff_of_true ?_ (Or.inr ⟨r, hr, hfree⟩)
      have hwrap : ipNum.toNat + 0 < 2 ^ 32 := ipNum.toNat_lt
      obtain ⟨⟨ret, multiVm, cnt⟩, hadd⟩ :=
        addVmIpList_returns s.multiVm (UInt8.ofNat idx) ipList hwrap
      simp only [hs, hadd]
      refine ⟨_, _, rfl, ?_⟩
      rcases addVmIpList_ret hadd with ⟨rfl, _, _, hbig⟩ | ⟨rfl, _⟩
      · rw [Nat.mod_eq_of_lt hwrap] at hbig
        exact Or.inr (Or.inr ⟨rfl, hbig⟩)
      · exact Or.inl rfl
    · refine iff_of_false ?_ ?_
      · simp [hs]
      · rintro (hall | ⟨i, hi, hfree⟩)
        · simp [hall idx hidx] at hclear
        · exact Bool.false_ne_true (hfree.symm.trans (hbusy i hi))

/-! ## A crowded bucket -/

/-- After JOINs of the groups `gs` with empty lists. -/
structure Holds (jhash1word : UInt32 → UInt32 → UInt32) (s : State) (gs : List UInt32) : Prop where
  reach : Reachable jhash1word (fun _ _ => True) s
  node : ∀ g, nodeOf jhash1word s g = none ↔ g ∉ gs
  bitmap : ∀ x, s.bitmap x = true ↔ x < gs.length
  card : (liveNodes jhash1word s).card = gs.length

theorem Holds.concat {s : State} {gs : List UInt32} (h : Holds jhash1word s gs) {g : UInt32}
    (hg : g ∉ gs) (hlen : gs.length < 256) : ∃ s', Holds jhash1word s' (gs ++ [g]) := by
  have wf := h.reach.wellFormed
  have hcard := h.card
  unfold liveNodes at hcard
  obtain ⟨r, hr, hfree⟩ := BucketLayout.WellFormed.exists_free wf mulitHashKey_lt
    (hcard ▸ hlen) (mulitHashKey jhash1word g multiGrpBucket)
  obtain ⟨s', cnt, hs, made⟩ := exists_created wf ((h.node g).mpr hg) (by omega) h.bitmap hr hfree
  refine ⟨s', .step h.reach trivial hs, fun g' => ?_, fun x => ?_, ?_⟩
  · rw [made.nodes, Function.update_apply, List.mem_append, List.mem_singleton]
    split
    · rename_i he
      simp [he]
    · rename_i he
      rw [h.node]
      simp [he]
  · rw [made.bitmap_iff h.bitmap, List.length_append, List.length_singleton]
  · rw [made.live, h.card, List.length_append, List.length_singleton]

theorem exists_holds {gs : List UInt32} (hnodup : gs.Nodup) (hlen : gs.length ≤ 256) :
    ∃ s, Holds jhash1word s gs := by
  induction gs using List.reverseRecOn with
  | nil => exact ⟨multiNodeInit, .init, by simp, by simp [multiNodeInit], by simp⟩
  | append_singleton gs g ih =>
    rw [List.length_append, List.length_singleton] at hlen
    obtain ⟨s, hs⟩ := ih (List.nodup_append.mp hnodup).1 (by omega)
    have hg : g ∉ gs := fun hmem =>
      (List.nodup_append.mp hnodup).2.2 _ hmem _ (List.mem_singleton_self g) rfl
    exact hs.concat hg (by omega)

/-- Some bucket gets more than `n` addresses, whatever the hash is. -/
theorem exists_bucket (jhash1word : UInt32 → UInt32 → UInt32) {n : Nat} (hn : n ≤ 256) :
    ∃ b, ∃ gs : List UInt32, gs.Nodup ∧ gs.length = n + 1 ∧
      ∀ g ∈ gs, mulitHashKey jhash1word g multiGrpBucket = b := by
  refine BucketLayout.exists_crowded mulitHashKey_lt (UInt32.ofNat_injOn ?_)
  have hbucket : multiGrpBucket = 1024 := rfl
  rw [hbucket]
  omega

theorem Holds.bucket {s : State} {gs : List UInt32} {b : Nat} (h : Holds jhash1word s gs)
    (hbucket : ∀ g ∈ gs, mulitHashKey jhash1word g multiGrpBucket = b) :
    ∀ g ∈ gs.toFinset, mulitHashKey jhash1word g multiGrpBucket = b ∧
      nodeOf jhash1word s g ≠ none := by
  intro g hg
  have hmem := List.mem_toFinset.mp hg
  exact ⟨hbucket g hmem, fun hnone => (h.node g).mp hnone hmem⟩

/-- 256 groups in one bucket, and a 257th of that bucket. -/
theorem exists_reachable_crowded (jhash1word : UInt32 → UInt32 → UInt32) :
    ∃ s g, Reachable jhash1word (fun _ _ => True) s ∧ nodeOf jhash1word s g = none ∧
      ¬ SearchEnds jhash1word s g := by
  obtain ⟨b, ks, hnodup, hlen, hbucket⟩ := exists_bucket jhash1word (Nat.le_refl 256)
  obtain ⟨g, gs, rfl⟩ : ∃ g gs, ks = g :: gs := List.exists_cons_of_length_eq_add_one hlen
  obtain ⟨hg, hgs⟩ := List.nodup_cons.mp hnodup
  have hgslen : gs.length = 256 := by simpa using hlen
  obtain ⟨s, hs⟩ : ∃ s, Holds jhash1word s gs := exists_holds hgs hgslen.le
  refine ⟨s, g, hs.reach, (hs.node g).mpr hg, ?_⟩
  rw [searchEnds_iff hs.reach.wellFormed]
  rintro (hall | ⟨i, hi, hfree⟩)
  · have hlow := (hs.bitmap 256).mp (hall 256 (by decide))
    omega
  · have hkeys := hs.bucket fun g' hg' => hbucket g' (List.mem_cons_of_mem g hg')
    have hcard : 256 ≤ gs.toFinset.card := by rw [List.toFinset_card_of_nodup hgs, hgslen]
    have hlive := BucketLayout.WellFormed.live_of_card_keys hs.reach.wellFormed hkeys hcard hi
    rw [hbucket g List.mem_cons_self] at hfree
    exact Bool.false_ne_true (hfree.symm.trans hlive)

end MulticastProxy.KernelServer
