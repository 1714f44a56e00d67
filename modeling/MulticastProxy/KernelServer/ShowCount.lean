import MulticastProxy.KernelServer.Replies
import MulticastProxy.KernelServer.TableInvariant

/-!
# Kernel server: how much SHOW writes (`get_all_multi_grp`)

The reply's `ip_list` has no bound check. It is long enough because no group is made without a bit of
the pool, and a deletion never clears more than one bit, whichever that is.
-/

namespace MulticastProxy.KernelServer

set_option autoImplicit false

section
variable (jhash1word : UInt32 → UInt32 → UInt32)

/-- Every live node is paid for by a set bit. -/
def BitsCover (s : State) : Prop :=
  (liveNodes jhash1word s).card ≤ (setBits multiGrpMax s.bitmap).card

/-- SHOW returns with as many entries as there are live nodes, each address once, and leaves the rest
of `ip_list` alone. -/
structure ShowsAll (s : State) (kService kService' : TmccNlShowServiceSt) : Prop where
  fill : getAllMultiGrp s kService = .ret (0, kService')
  number : kService'.ipNum = (liveNodes jhash1word s).card
  bound : kService'.ipNum ≤ multiGrpMax
  once : ∀ g, (cells kService'.ipList kService'.ipNum).count g =
    if nodeOf jhash1word s g = none then 0 else 1
  behind : ∀ i, kService'.ipNum ≤ i → kService'.ipList i = kService.ipList i

end

variable {jhash1word : UInt32 → UInt32 → UInt32}

/-! ## What one command preserves -/

theorem card_liveNodes_delMultiNode {s : State} (wf : WellFormed jhash1word s) {g : UInt32}
    (hfound : nodeOf jhash1word s g ≠ none) :
    (liveNodes jhash1word (delMultiNode jhash1word s g).2).card + 1 =
      (liveNodes jhash1word s).card := by
  obtain ⟨node, hnode⟩ := Option.ne_none_iff_exists'.mp hfound
  obtain ⟨row, hrow, _⟩ := exists_lookup hnode
  have hmove : ∀ d s : MultiNode, (layout jhash1word).live s = (layout jhash1word).live s ∧
      (layout jhash1word).key s = (layout jhash1word).key s := fun _ _ => ⟨rfl, rfl⟩
  have hwipe : ∀ c : MultiNode, (layout jhash1word).live MultiNode.zero = false := fun _ => rfl
  unfold delMultiNode liveNodes
  simp only [hrow]
  exact BucketLayout.WellFormed.liveCells_remove wf (wf.lookup_iff.mp hrow).1 hmove hwipe
    mulitHashKey_lt

theorem BitsCover.of_free {s : State} (h : ∀ b i, (s.multiGrp b i).created = false) :
    BitsCover jhash1word s := by
  have hempty : liveNodes jhash1word s = ∅ := by
    apply Finset.eq_empty_of_forall_notMem
    intro p hp
    rw [(wellFormed_of_free h).mem_liveNodes, h] at hp
    cases hp
  unfold BitsCover
  rw [hempty]
  exact Nat.zero_le _

theorem BitsCover.tmccRcvSkb {s s' : State} {msg : NlMessage} {code : Int}
    (hbits : BitsCover jhash1word s) (wf : WellFormed jhash1word s)
    (h : tmccRcvSkb jhash1word s msg = .ret (code, s')) : BitsCover jhash1word s' := by
  cases tmccRcvSkb_effect wf h with
  | same => exact hbits
  | recounted _ recount =>
    unfold BitsCover
    rw [recount.live, recount.bitmap]
    exact hbits
  | created _ made =>
    unfold BitsCover
    rw [made.live, made.bitmap, card_setBits_set made.index made.clear]
    exact Nat.succ_le_succ hbits
  | @deleted service s' node gone =>
    have hret := (Prod.mk.inj (Outcome.ret.inj h)).2
    have hlive := card_liveNodes_delMultiNode wf (by rw [gone.found]; exact Option.some_ne_none _)
    have hput := card_setBits_putIdx multiGrpMax s.bitmap node.multiGrpIdx.toNat
    have hs' : (delMultiNode jhash1word s service.multiIp).2 = s' := hret
    rw [hs'] at hlive
    rw [putIdx, ← gone.bitmap] at hput
    unfold BitsCover at hbits ⊢
    omega
  | cleared => exact .of_free (clearMultiGroup_free wf)

theorem Reachable.bitsCover {s : State} (h : Reachable jhash1word (fun _ _ => True) s) :
    BitsCover jhash1word s := by
  induction h with
  | init => exact .of_free fun _ _ => rfl
  | step hreach _ hstep ih => exact ih.tmccRcvSkb hreach.wellFormed hstep

/-! ## The reply -/

theorem length_groupList {s : State} (wf : WellFormed jhash1word s) :
    (groupList jhash1word s).length = (liveNodes jhash1word s).card := by
  unfold liveNodes
  rw [groupList, List.length_map, wf.length_scan mulitHashKey_lt]

theorem nodup_groupList {s : State} (wf : WellFormed jhash1word s) :
    (groupList jhash1word s).Nodup := by
  apply List.Nodup.map_on _ BucketLayout.nodup_scan
  intro p hp q hq he
  obtain ⟨hb, hi⟩ := wf.cell_unique ((wf.mem_scan mulitHashKey_lt).mp hp)
    ((wf.mem_scan mulitHashKey_lt).mp hq) he
  exact Prod.ext hb hi

theorem mem_groupList {s : State} (wf : WellFormed jhash1word s) {g : UInt32} :
    g ∈ groupList jhash1word s ↔ nodeOf jhash1word s g ≠ none := by
  rw [groupList, List.mem_map]
  constructor
  · rintro ⟨p, hp, rfl⟩
    have hlive := (wf.mem_scan mulitHashKey_lt).mp hp
    rw [wf.nodeOf_iff.mpr ⟨p.1, p.2, rfl, hlive, rfl⟩]
    exact Option.some_ne_none _
  · intro hne
    obtain ⟨node, hnode⟩ := Option.ne_none_iff_exists'.mp hne
    obtain ⟨b, i, rfl, hlive, hip⟩ := wf.nodeOf_iff.mp hnode
    exact ⟨(b, i), (wf.mem_scan mulitHashKey_lt).mpr hlive, hip⟩

/-- The array takes all groups where it is long enough for them. -/
theorem getAllMultiGrp_returns {s : State} (h : (groupList jhash1word s).length ≤ multiVmMax)
    (kService : TmccNlShowServiceSt) :
    ∃ kService', getAllMultiGrp s kService = .ret (0, kService') ∧
      kService'.ipNum = (groupList jhash1word s).length ∧
      ∀ i, kService'.ipNum ≤ i → kService'.ipList i = kService.ipList i := by
  have hlist := Listing.buckets_eq (layout jhash1word) (Listing.store multiVmMax storeIp)
    s.multiGrp multiGrpBucket (0, kService.ipList)
  have hlen : (groupList jhash1word s).length =
      (((layout jhash1word).scan multiGrpBucket s.multiGrp).map fun p =>
        s.multiGrp p.1 p.2).length := by
    rw [groupList, List.length_map, List.length_map]
  rw [hlen] at h ⊢
  generalize ((layout jhash1word).scan multiGrpBucket s.multiGrp).map
    (fun p => s.multiGrp p.1 p.2) = nodes at hlist h ⊢
  have hput : ∀ g k (node : MultiNode), storeIp g k node = Function.update g k node.multiIp :=
    fun _ _ _ => rfl
  rw [← Nat.zero_add nodes.length] at h
  obtain ⟨ipList, hrun, _, hold⟩ := Listing.foldlM_store_array hput kService.ipList h
  rw [Nat.zero_add] at hrun hold
  refine ⟨{ kService with ipList, ipNum := nodes.length }, ?_, rfl, ?_⟩
  · apply Outcome.bind_eq_ret_iff.mpr
    exact ⟨_, hlist.trans hrun, rfl⟩
  · intro i hi
    exact hold i (Or.inr hi)

/-- In every reachable state SHOW lists each live group once and stays inside its array. -/
theorem show_all {s : State} (h : Reachable jhash1word (fun _ _ => True) s)
    (kService : TmccNlShowServiceSt) :
    BitsCover jhash1word s ∧ ∃ kService', ShowsAll jhash1word s kService kService' := by
  have wf := h.wellFormed
  have hbits := h.bitsCover
  have hmax : (liveNodes jhash1word s).card ≤ multiGrpMax :=
    le_trans hbits (card_setBits_le _ _)
  rw [← length_groupList wf] at hmax
  obtain ⟨kService', hret, hnum, hbehind⟩ := getAllMultiGrp_returns hmax kService
  have hcells : cells kService'.ipList kService'.ipNum = groupList jhash1word s :=
    (getAllMultiGrp_ret hret).2.2.2
  refine ⟨hbits, kService', hret, ?_, ?_, ?_, hbehind⟩
  · rw [hnum, length_groupList wf]
  · rw [hnum]
    exact hmax
  · intro g
    rw [hcells, (nodup_groupList wf).count]
    simp only [mem_groupList wf, ne_eq, ite_not]

/-- SHOW after the JOIN of one group. -/
theorem show_all_after_join : ∃ s kService',
    (lookupMultiNode (fun _ _ => 0) s 0xE0000001).isSome = true ∧
      ShowsAll (fun _ _ => 0) s ⟨0, 0, 0, fun _ => 0⟩ kService' := by
  obtain ⟨s, hs, cnt, idx, hfound⟩ := joinMessage_multiNodeInit (fun _ _ => 0) 0xE0000001
    (show [7, 8].length ≤ multiVmMax by decide)
  obtain ⟨_, kService', hshow⟩ := show_all (.step .init trivial hs) ⟨0, 0, 0, fun _ => 0⟩
  exact ⟨s, kService', by rw [hfound]; rfl, hshow⟩

end MulticastProxy.KernelServer
