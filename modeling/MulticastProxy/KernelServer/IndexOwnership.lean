import MulticastProxy.KernelServer.TableInvariant
import MulticastProxy.Library.Ownership

/-!
# Kernel server: who owns a group index

The pool gives out indices up to 1023, a node keeps its index in a `uint8_t`. As long as no
group is made while 256 are live, an index below 256 is free and the two agree: an index
belongs to one live group, and a command never reaches the row or the counters of another one.
-/

namespace MulticastProxy.KernelServer

set_option autoImplicit false

/-- Distinct live nodes hold distinct indices, and the set bits are the indices held. -/
structure IndexOwned (s : State) : Prop where
  distinct : ∀ b i b' i', (s.multiGrp b i).created = true → (s.multiGrp b' i').created = true →
    (s.multiGrp b i).multiGrpIdx = (s.multiGrp b' i').multiGrpIdx → b = b' ∧ i = i'
  bit : ∀ n, s.bitmap n = true ↔
    ∃ b i, (s.multiGrp b i).created = true ∧ (s.multiGrp b i).multiGrpIdx.toNat = n

section
variable (jhash1word : UInt32 → UInt32 → UInt32)

/-- A JOIN that makes a group runs while fewer than 256 are live. -/
def PoolRoom (s : State) : NlMessage → Prop
  | .serviceAdd service => service.action = multiOptJoin →
      nodeOf jhash1word s service.multiIp = none → (liveNodes jhash1word s).card < 256
  | _ => True

/-- The request does not wrap the member count of its group. -/
def CountFits (s : State) (service : TmccNlServiceSt) : Prop :=
  ∀ node, nodeOf jhash1word s service.multiIp = some node →
    service.ipNum.toNat + node.multiMemberCnt < 2 ^ 32

/-- No JOIN makes a group beyond the 256th, no JOIN or append wraps a count. -/
def IndexFits (s : State) (msg : NlMessage) : Prop :=
  PoolRoom jhash1word s msg ∧
    match msg with
    | .serviceAdd service => service.action = multiOptJoin → CountFits jhash1word s service
    | .serviceDel _ => True
    | .serverClear => True
    | .serviceCheckUpdate service => CountFits jhash1word s service

/-- The other groups as a command leaves them: their nodes, rows and counters. -/
def Untouched (s s' : State) (g : UInt32) : Prop :=
  ∀ g' node, g' ≠ g → nodeOf jhash1word s g' = some node →
    nodeOf jhash1word s' g' = some node ∧
      s'.multiVm node.multiGrpIdx.toNat = s.multiVm node.multiGrpIdx.toNat ∧
      s'.multiStats node.multiGrpIdx.toNat = s.multiStats node.multiGrpIdx.toNat

end

variable {jhash1word : UInt32 → UInt32 → UInt32}

/-! ## Ownership in terms of addresses -/

def grpIdx (node : MultiNode) : Nat := node.multiGrpIdx.toNat

theorem indexOwned_iff {s : State} (wf : WellFormed jhash1word s) :
    IndexOwned s ↔ Owned (nodeOf jhash1word s) grpIdx s.bitmap := by
  have hcells : Owned (nodeOf jhash1word s) grpIdx s.bitmap ↔ _ := owned_content_iff wf
  constructor
  · intro own
    refine hcells.mpr ⟨fun b i b' i' hl hl' he => ?_, own.bit⟩
    exact own.distinct b i b' i' hl hl' (UInt8.toNat_inj.mp he)
  · intro own
    obtain ⟨hdistinct, hbit⟩ := hcells.mp own
    exact ⟨fun b i b' i' hl hl' he => hdistinct b i b' i' hl hl' (UInt8.toNat_inj.mpr he), hbit⟩

theorem IndexOwned.eq_of_idx {s : State} (own : IndexOwned s) (wf : WellFormed jhash1word s)
    {g g' : UInt32} {node node' : MultiNode} (h : nodeOf jhash1word s g = some node)
    (h' : nodeOf jhash1word s g' = some node') (he : node.multiGrpIdx = node'.multiGrpIdx) :
    g = g' :=
  ((indexOwned_iff wf).mp own).distinct g g' node node' h h' (UInt8.toNat_inj.mpr he)

theorem IndexOwned.bit_iff {s : State} (own : IndexOwned s) (wf : WellFormed jhash1word s)
    (n : Nat) :
    s.bitmap n = true ↔ ∃ g node, nodeOf jhash1word s g = some node ∧
      node.multiGrpIdx.toNat = n :=
  ((indexOwned_iff wf).mp own).bit n

theorem IndexOwned.index_lt {s s' : State} (own : IndexOwned s) (wf : WellFormed jhash1word s)
    (hfew : (liveNodes jhash1word s).card < 256) {g : UInt32} {idx cnt : Nat}
    (made : Created jhash1word s s' g idx cnt) : idx < 256 := by
  obtain ⟨j, hj, hnone⟩ := exists_unowned (liveNodes jhash1word s)
    (fun p => (s.multiGrp p.1 p.2).multiGrpIdx.toNat) hfew
  by_contra hge
  obtain ⟨b, i, hl, hi⟩ := (own.bit j).mp (made.lowest j (by omega))
  exact hnone (b, i) (wf.mem_liveNodes.mpr hl) hi

/-! ## What one command preserves -/

theorem Recounted.indexOwned {s s' : State} {g : UInt32} {node : MultiNode} {cnt : Nat}
    (recount : Recounted jhash1word s s' g node cnt) (wf : WellFormed jhash1word s)
    (own : IndexOwned s) : IndexOwned s' := by
  rw [indexOwned_iff recount.wf, recount.nodes, recount.bitmap]
  exact ((indexOwned_iff wf).mp own).replace recount.found rfl

theorem Created.indexOwned {s s' : State} {g : UInt32} {idx cnt : Nat}
    (made : Created jhash1word s s' g idx cnt) (wf : WellFormed jhash1word s)
    (own : IndexOwned s) (hidx : idx < 256) : IndexOwned s' := by
  have hbyte : grpIdx ⟨g, cnt, UInt8.ofNat idx, true⟩ = idx := UInt8.toNat_ofNat_of_lt' hidx
  have hinsert := ((indexOwned_iff wf).mp own).insert made.fresh (hbyte.symm ▸ made.clear)
  rw [hbyte] at hinsert
  rw [indexOwned_iff made.wf, made.nodes, made.bitmap]
  exact hinsert

theorem Deleted.indexOwned {s s' : State} {g : UInt32} {node : MultiNode}
    (gone : Deleted jhash1word s s' g node) (wf : WellFormed jhash1word s)
    (own : IndexOwned s) : IndexOwned s' := by
  rw [indexOwned_iff gone.wf, gone.nodes, gone.bitmap]
  exact ((indexOwned_iff wf).mp own).erase gone.found

theorem clearMultiGroup_indexOwned {s : State} (wf : WellFormed jhash1word s)
    (own : IndexOwned s) : IndexOwned (clearMultiGroup s) := by
  have hfree := clearMultiGroup_free wf
  have hbits := clearMultiGroup_bitmap wf
  generalize clearMultiGroup s = t at hfree hbits
  refine ⟨fun b i _ _ hl => by simp [hfree] at hl, fun n => ?_⟩
  rw [hbits, own.bit]
  simp only [hfree, Bool.false_eq_true, false_and, exists_false, iff_false, not_and]
  rintro ⟨b, i, hl, hi⟩ hall
  exact hall b i hl hi

theorem Effect.indexOwned {s s' : State} {msg : NlMessage} (h : Effect jhash1word s msg s')
    (wf : WellFormed jhash1word s) (own : IndexOwned s) (hroom : PoolRoom jhash1word s msg) :
    IndexOwned s' := by
  cases h with
  | same => exact own
  | recounted _ recount => exact recount.indexOwned wf own
  | created join made =>
    exact made.indexOwned wf own (own.index_lt wf (hroom join made.fresh) made)
  | deleted gone => exact gone.indexOwned wf own
  | cleared => exact clearMultiGroup_indexOwned wf own

theorem Effect.untouched {s s' : State} {msg : NlMessage} (h : Effect jhash1word s msg s')
    (wf : WellFormed jhash1word s) (own : IndexOwned s) (hroom : PoolRoom jhash1word s msg)
    {g : UInt32} (hg : msg.group = some g) : Untouched jhash1word s s' g := by
  intro g' node' hne hnode
  cases h with
  | same => exact ⟨hnode, rfl, rfl⟩
  | recounted named recount vm =>
    obtain rfl := Option.some.inj (named.symm.trans hg)
    have hidx := fun he => hne (own.eq_of_idx wf hnode recount.found (UInt8.toNat_inj.mp he))
    exact ⟨by rw [recount.nodes, Function.update_of_ne hne, hnode],
      by rw [vm, Function.update_of_ne hidx], by rw [recount.stats]⟩
  | @created service _ idx _ _ join made vm =>
    obtain rfl := Option.some.inj hg
    have hlt := own.index_lt wf (hroom join made.fresh) made
    have hbyte : (UInt8.ofNat idx).toNat = idx := UInt8.toNat_ofNat_of_lt' hlt
    have hidx : node'.multiGrpIdx.toNat ≠ idx := by
      intro he
      have hset := (own.bit_iff wf idx).mpr ⟨g', node', hnode, he⟩
      simp [made.clear] at hset
    exact ⟨by rw [made.nodes, Function.update_of_ne hne, hnode],
      by rw [vm, hbyte, Function.update_of_ne hidx],
      by rw [made.stats, Function.update_of_ne hidx]⟩
  | deleted gone =>
    obtain rfl := Option.some.inj hg
    have hidx := fun he => hne (own.eq_of_idx wf hnode gone.found (UInt8.toNat_inj.mp he))
    exact ⟨by rw [gone.nodes, Function.update_of_ne hne, hnode],
      by rw [gone.vm, clearVmIpList, Function.update_of_ne hidx], by rw [gone.stats]⟩
  | cleared => simp [NlMessage.group] at hg

/-! ## No store outside the tables -/

theorem extendNode_ne_fault {s : State} {b row : Nat} (ipList : Nat → UInt32) {ipNum : Nat}
    (hwrap : ipNum + (s.multiGrp b row).multiMemberCnt < 2 ^ 32) :
    extendNode s b row ipList ipNum ≠ .fault := by
  obtain ⟨r, hadd⟩ :=
    addVmIpList_returns s.multiVm (s.multiGrp b row).multiGrpIdx ipList hwrap
  unfold extendNode
  simp [hadd]

theorem addMultiNode_ne_fault {s : State} {service : TmccNlServiceSt}
    (hfits : CountFits jhash1word s service) :
    addMultiNode jhash1word s service.multiIp service.ipList service.ipNum.toNat ≠ .fault := by
  cases hrow : rawLookupMultiNode jhash1word s service.multiIp with
  | some row =>
    rw [addMultiNode_of_lookup hrow]
    exact extendNode_ne_fault service.ipList (hfits _ (nodeOf_of_lookup hrow))
  | none =>
    unfold addMultiNode
    simp only [hrow]
    cases getIdx multiGrpMax s.bitmap with
    | none => simp
    | some p =>
      simp only
      split
      · simp
      · simp
      · have hwrap : service.ipNum.toNat + 0 < 2 ^ 32 := service.ipNum.toNat_lt
        obtain ⟨r, hadd⟩ := addVmIpList_returns s.multiVm (UInt8.ofNat p.1) service.ipList hwrap
        simp [hadd]

theorem appendVmIpList_ne_fault {s : State} {service : TmccNlServiceSt}
    (hfits : CountFits jhash1word s service) :
    appendVmIpList jhash1word s service.multiIp service.ipList service.ipNum.toNat ≠ .fault := by
  cases hrow : rawLookupMultiNode jhash1word s service.multiIp with
  | none => simp [appendVmIpList_of_absent hrow]
  | some row =>
    rw [appendVmIpList_of_lookup hrow]
    exact extendNode_ne_fault service.ipList (hfits _ (nodeOf_of_lookup hrow))

theorem IndexFits.ne_fault {s : State} {msg : NlMessage} (hfits : IndexFits jhash1word s msg) :
    tmccRcvSkb jhash1word s msg ≠ .fault := by
  cases msg with
  | serviceAdd service =>
    simp only [tmccRcvSkb, multiNlNodeAdd]
    split
    · rename_i hjoin
      exact addMultiNode_ne_fault (hfits.2 hjoin)
    · split <;> simp
  | serviceDel service => simp [tmccRcvSkb]
  | serverClear => simp [tmccRcvSkb]
  | serviceCheckUpdate service =>
    simp only [tmccRcvSkb, multiNlVmListAppend]
    have hne := appendVmIpList_ne_fault hfits.2
    cases h : appendVmIpList jhash1word s service.multiIp service.ipList service.ipNum.toNat with
    | ret a => simp
    | hang => simp
    | fault => exact absurd h hne

/-! ## Runs -/

theorem multiNodeInit_indexOwned : IndexOwned multiNodeInit := by
  refine ⟨fun _ _ _ _ hl => ?_, fun n => ?_⟩
  · simp [multiNodeInit, MultiNode.zero] at hl
  · simp [multiNodeInit, MultiNode.zero]

theorem Reachable.indexOwned {s : State}
    (h : Reachable jhash1word (IndexFits jhash1word) s) : IndexOwned s := by
  induction h with
  | init => exact multiNodeInit_indexOwned
  | step hreach hfits hstep ih =>
    exact (tmccRcvSkb_effect hreach.wellFormed hstep).indexOwned hreach.wellFormed ih hfits.1

/-- Over every run of fitting commands an index has one owner, and the next fitting command
stays inside the tables and leaves every group it does not name alone. -/
theorem index_owned {s : State} (h : Reachable jhash1word (IndexFits jhash1word) s) :
    IndexOwned s ∧ ∀ msg, IndexFits jhash1word s msg →
      tmccRcvSkb jhash1word s msg ≠ .fault ∧
      ∀ g code s', msg.group = some g → tmccRcvSkb jhash1word s msg = .ret (code, s') →
        Untouched jhash1word s s' g := by
  refine ⟨h.indexOwned, fun msg hfits => ⟨hfits.ne_fault, fun g code s' hg hstep => ?_⟩⟩
  exact (tmccRcvSkb_effect h.wellFormed hstep).untouched h.wellFormed h.indexOwned hfits.1 hg

theorem index_owned_after_join :
    ∃ s, (lookupMultiNode (fun _ _ => 0) s 0xE0000001).isSome = true ∧ IndexOwned s := by
  obtain ⟨s, hs, cnt, idx, hfound⟩ := joinMessage_multiNodeInit (fun _ _ => 0) 0xE0000001
    (show [7, 8].length ≤ multiVmMax by decide)
  have hfits : IndexFits (fun _ _ => 0) multiNodeInit (joinMessage 0xE0000001 [7, 8]) :=
    ⟨fun _ _ => by simp, fun _ node h => by simp at h⟩
  exact ⟨s, by rw [hfound]; rfl, (index_owned (.step .init hfits hs)).1⟩

/-! ## The 257th group -/

def groupAt (i : Nat) : UInt32 := 0xE1000000 + UInt32.ofNat i

theorem groupAt_inj {i j : Nat} (hi : i < 1024) (hj : j < 1024) (h : groupAt i = groupAt j) :
    i = j := by
  have := congrArg UInt32.toNat h
  simp only [groupAt, UInt32.toNat_add, UInt32.toNat_ofNat, UInt32.toNat_ofNat'] at this
  omega

/-- After JOINs of the first `n` groups with empty lists. -/
structure Joined (jhash1word : UInt32 → UInt32 → UInt32) (s : State) (n : Nat) : Prop where
  reach : Reachable jhash1word (fun _ _ => True) s
  node : ∀ i < n, ∃ node, nodeOf jhash1word s (groupAt i) = some node ∧
    node.multiGrpIdx = UInt8.ofNat i
  absent : ∀ g, (∀ i < n, g ≠ groupAt i) → nodeOf jhash1word s g = none
  bitmap : ∀ x, s.bitmap x = true ↔ x < n
  card : (liveNodes jhash1word s).card = n

theorem joined_zero : Joined jhash1word multiNodeInit 0 where
  reach := .init
  node := by omega
  absent := fun g _ => nodeOf_multiNodeInit g
  bitmap := by simp [multiNodeInit]
  card := by simp

/-- A JOIN with an empty list while the set bits are the lowest `n`. -/
theorem exists_created {s : State} (wf : WellFormed jhash1word s) {g : UInt32} {n r : Nat}
    (hnew : nodeOf jhash1word s g = none) (hn : n < 1024) (hbits : ∀ x, s.bitmap x = true ↔ x < n)
    (hr : r < 256)
    (hfree : (s.multiGrp (mulitHashKey jhash1word g multiGrpBucket) r).created = false) :
    ∃ s' cnt, tmccRcvSkb jhash1word s (joinMessage g []) = .ret (0, s') ∧
      Created jhash1word s s' g n cnt := by
  have hclear : ∀ {x}, s.bitmap x = false ↔ n ≤ x := by
    intro x
    rw [← Bool.not_eq_true, hbits, Nat.not_lt]
  obtain ⟨s', hs⟩ := addMultiNode_returns (fun i => ([] : List UInt32).getD i 0)
    hnew hn (hclear.mpr (Nat.le_refl n)) hr hfree (Nat.zero_le multiVmMax)
  rcases addMultiNode_cases wf hs with ⟨node, hext⟩ | ⟨_, h0, _⟩ | ⟨idx, cnt, made, _⟩
  · simp [hext.found] at hnew
  · simp at h0
  · have hidx : idx = n := by
      have h1 := hclear.mp made.clear
      by_contra hne
      have h2 := made.lowest n (by omega)
      simp [hclear.mpr (Nat.le_refl n)] at h2
    subst hidx
    exact ⟨s', cnt, (tmccRcvSkb_joinMessage s g []).trans hs, made⟩

theorem Created.bitmap_iff {s s' : State} {g : UInt32} {n cnt : Nat}
    (made : Created jhash1word s s' g n cnt) (hbits : ∀ x, s.bitmap x = true ↔ x < n) (x : Nat) :
    s'.bitmap x = true ↔ x < n + 1 := by
  rw [made.bitmap, Function.update_apply]
  split
  · rename_i hx
    simp [hx]
  · rename_i hx
    rw [hbits]
    omega

theorem Joined.succ {s : State} {n r : Nat} (h : Joined jhash1word s n) (hn : n < 1024)
    (hr : r < 256)
    (hfree : (s.multiGrp (mulitHashKey jhash1word (groupAt n) multiGrpBucket) r).created = false) :
    ∃ s', Joined jhash1word s' (n + 1) := by
  have hnew : nodeOf jhash1word s (groupAt n) = none :=
    h.absent _ fun i hi he => by have := groupAt_inj hn (Nat.lt_trans hi hn) he; omega
  obtain ⟨s', cnt, hs, made⟩ := exists_created h.reach.wellFormed hnew hn h.bitmap hr hfree
  refine ⟨s', .step h.reach trivial hs, ?_, ?_, made.bitmap_iff h.bitmap, ?_⟩
  · intro i hi
    rw [made.nodes, Function.update_apply]
    split
    · rename_i he
      obtain rfl := groupAt_inj (by omega) hn he
      exact ⟨_, rfl, rfl⟩
    · rename_i he
      have hlt : i < n := by
        by_contra hge
        obtain rfl : i = n := by omega
        exact he rfl
      exact h.node i hlt
  · intro g hg
    rw [made.nodes, Function.update_of_ne (hg n (by omega))]
    exact h.absent g fun i hi => hg i (by omega)
  · rw [made.live, h.card]

/-- The bucket of a new group has room: fewer than 256 groups are there, or the first of 256
lives in another bucket. -/
theorem Joined.exists_free {s : State} {n : Nat} (h : Joined jhash1word s n) (b : Nat)
    (hroom : n < 256 ∨ n = 256 ∧ mulitHashKey jhash1word (groupAt 0) multiGrpBucket ≠ b) :
    ∃ r < 256, (s.multiGrp b r).created = false := by
  have wf := h.reach.wellFormed
  have hcard := h.card
  unfold liveNodes at hcard
  rcases hroom with hn | ⟨rfl, hb⟩
  · exact BucketLayout.WellFormed.exists_free wf mulitHashKey_lt (by omega) b
  · obtain ⟨node, hnode, _⟩ := h.node 0 (by omega)
    obtain ⟨b', i, rfl, hl, hkey⟩ := wf.nodeOf_iff.mp hnode
    have hhome : mulitHashKey jhash1word (s.multiGrp b' i).multiIp multiGrpBucket = b' :=
      wf.home b' i hl
    rw [hkey] at hhome
    exact BucketLayout.WellFormed.exists_free_of_elsewhere wf mulitHashKey_lt hcard.le
      (p := (b', i)) hl (by rwa [hhome] at hb)

theorem joined_of_le {n : Nat} (hn : n ≤ 256) : ∃ s, Joined jhash1word s n := by
  induction n with
  | zero => exact ⟨_, joined_zero⟩
  | succ n ih =>
    obtain ⟨s, hs⟩ := ih (by omega)
    obtain ⟨r, hr, hfree⟩ := hs.exists_free _ (Or.inl (by omega))
    exact hs.succ (by omega) hr hfree

theorem joined_257 (hsep : mulitHashKey jhash1word (groupAt 0) multiGrpBucket ≠
    mulitHashKey jhash1word (groupAt 256) multiGrpBucket) : ∃ s, Joined jhash1word s 257 := by
  obtain ⟨s, hs⟩ : ∃ s, Joined jhash1word s 256 := joined_of_le (Nat.le_refl 256)
  obtain ⟨r, hr, hfree⟩ := hs.exists_free _ (Or.inr ⟨rfl, hsep⟩)
  exact hs.succ (by decide) hr hfree

/-- JOIN of 225.0.0.0 to 225.0.1.0 gives the first and the last group the same index, under
every `jhash_1word` that keeps these two apart. -/
theorem not_index_owned : ¬ ∃ jhash1word : UInt32 → UInt32 → UInt32,
    mulitHashKey jhash1word (groupAt 0) multiGrpBucket ≠
      mulitHashKey jhash1word (groupAt 256) multiGrpBucket ∧
    ∀ s, Reachable jhash1word (fun _ _ => True) s → IndexOwned s := by
  rintro ⟨jhash1word, hsep, hown⟩
  obtain ⟨s, hs⟩ := joined_257 hsep
  obtain ⟨node, hnode, hidx⟩ := hs.node 0 (by omega)
  obtain ⟨node', hnode', hidx'⟩ := hs.node 256 (by omega)
  have he := (hown s hs.reach).eq_of_idx hs.reach.wellFormed hnode hnode' (by rw [hidx, hidx']; rfl)
  exact absurd (groupAt_inj (by omega) (by omega) he) (by decide)

end MulticastProxy.KernelServer
