import MulticastProxy.KernelClient.Group

/-!
# Kernel client: what each operation can do

The table as a map from servers and ports to group addresses. `node_cnt` counts its entries.
-/

namespace MulticastProxy.KernelClient

set_option autoImplicit false

variable {jhash2words : UInt32 → UInt32 → UInt32 → UInt32}

theorem byte_le_depth : 256 ≤ multiGrpDepth := by decide

/-- The loop over the cells of a bucket finds the first free one of 256, or never ends. -/
theorem searchCell (s : State) (b : Nat) :
    (∃ i < 256, Search.byteSearch (fun i => !(s.multiGrp b i).created) multiGrpDepth 256 0 =
        some (some i) ∧ (s.multiGrp b i).created = false ∧
      ∀ j < i, (s.multiGrp b j).created = true) ∨
    (Search.byteSearch (fun i => !(s.multiGrp b i).created) multiGrpDepth 256 0 = none ∧
      ∀ j < 256, (s.multiGrp b j).created = true) :=
  BucketLayout.byteSearch_free (L := layout fun _ _ _ => 0) s.multiGrp b byte_le_depth

theorem ipPortHashKey_lt (k : UInt32 × UInt16) :
    ipPortHashKey jhash2words k.1 k.2 multiGrpBucket < multiGrpBucket := Nat.mod_lt _ (by decide)

def bucketOf (jhash2words : UInt32 → UInt32 → UInt32 → UInt32) (k : UInt32 × UInt16) : Nat :=
  ipPortHashKey jhash2words k.1 k.2 multiGrpBucket

@[irreducible] def liveNodes (jhash2words : UInt32 → UInt32 → UInt32 → UInt32) (s : State) :
    Finset (Nat × Nat) := (layout jhash2words).liveCells multiGrpBucket s.multiGrp

/-- The bucket array keeps its shape, its counter and its capacity. -/
structure WellFormed (jhash2words : UInt32 → UInt32 → UInt32 → UInt32) (s : State) : Prop where
  table : (layout jhash2words).WellFormed s.multiGrp
  count : s.nodeCnt = (liveNodes jhash2words s).card
  bound : s.nodeCnt ≤ multiGrpMax

def entry (jhash2words : UInt32 → UInt32 → UInt32 → UInt32) (s : State) (k : UInt32 × UInt16) :
    Option UInt32 := ((layout jhash2words).content s.multiGrp k).map fun node => node.multiIp

theorem WellFormed.mem_liveNodes {s : State} (wf : WellFormed jhash2words s) {p : Nat × Nat} :
    p ∈ liveNodes jhash2words s ↔ (s.multiGrp p.1 p.2).created = true := by
  unfold liveNodes
  exact BucketLayout.WellFormed.mem_liveCells wf.table ipPortHashKey_lt

theorem wellFormed_of_free {s : State} (h : ∀ b i, (s.multiGrp b i).created = false)
    (hcnt : s.nodeCnt = 0) : WellFormed jhash2words s := by
  have htable : (layout jhash2words).WellFormed s.multiGrp := BucketLayout.wellFormed_of_free h
  refine ⟨htable, ?_, by rw [hcnt]; decide⟩
  have hempty : liveNodes jhash2words s = ∅ := by
    unfold liveNodes
    ext p
    rw [BucketLayout.WellFormed.mem_liveCells htable ipPortHashKey_lt]
    simp [layout, h]
  rw [hcnt, hempty]
  rfl

theorem entry_of_free {s : State} (h : ∀ b i, (s.multiGrp b i).created = false)
    (k : UInt32 × UInt16) : entry jhash2words s k = none := by
  have htable : (layout jhash2words).WellFormed s.multiGrp := BucketLayout.wellFormed_of_free h
  have hnone : (layout jhash2words).content s.multiGrp k = none :=
    htable.content_eq_none_iff.mpr (by simp [layout, h])
  rw [entry, hnone, Option.map_none]

theorem multiNodeInit_wellFormed : WellFormed jhash2words multiNodeInit :=
  wellFormed_of_free (fun _ _ => rfl) rfl

@[simp] theorem entry_multiNodeInit (k : UInt32 × UInt16) :
    entry jhash2words multiNodeInit k = none := entry_of_free (fun _ _ => rfl) k

theorem entry_eq_none_iff {s : State} {ip : UInt32} {port : UInt16} :
    entry jhash2words s (ip, port) = none ↔ rawLookupIpPortNode jhash2words s ip port = none := by
  simp [entry, rawLookupIpPortNode, BucketLayout.content]

theorem entry_of_lookup {s : State} {ip : UInt32} {port : UInt16} {row : Nat}
    (h : rawLookupIpPortNode jhash2words s ip port = some row) :
    entry jhash2words s (ip, port) =
      some (s.multiGrp (ipPortHashKey jhash2words ip port multiGrpBucket) row).multiIp := by
  unfold rawLookupIpPortNode at h
  simp only [entry, BucketLayout.content, h, Option.map_some]
  rfl

theorem lookupIpPortNode_eq {s : State} {ip : UInt32} {port : UInt16} :
    (lookupIpPortNode jhash2words s ip port).map Prod.fst = entry jhash2words s (ip, port) := by
  unfold lookupIpPortNode
  cases h : rawLookupIpPortNode jhash2words s ip port with
  | none => simp [entry_eq_none_iff.mpr h]
  | some row => simp [entry_of_lookup h]

theorem WellFormed.lookup_iff {s : State} (wf : WellFormed jhash2words s) {ip : UInt32}
    {port : UInt16} {row : Nat} :
    rawLookupIpPortNode jhash2words s ip port = some row ↔
      (layout jhash2words).live
          (s.multiGrp (ipPortHashKey jhash2words ip port multiGrpBucket) row) = true ∧
        (layout jhash2words).key
          (s.multiGrp (ipPortHashKey jhash2words ip port multiGrpBucket) row) = (ip, port) :=
  BucketLayout.WellFormed.find_eq_some_iff wf.table

theorem map_update_content {t : Nat → Nat → MultiNode} {t' : Nat → Nat → MultiNode}
    {k : UInt32 × UInt16} {node : Option MultiNode}
    (h : (layout jhash2words).content t' =
      Function.update ((layout jhash2words).content t) k node) :
    (fun k' => ((layout jhash2words).content t' k').map fun n => n.multiIp) =
      Function.update (fun k' => ((layout jhash2words).content t k').map fun n => n.multiIp) k
        (node.map fun n => n.multiIp) := by
  funext k'
  rw [h, Function.update_apply, Function.update_apply]
  split <;> rfl

/-! ## Operations -/

theorem WellFormed.replace {s : State} (wf : WellFormed jhash2words s) {multiIp ip : UInt32}
    {port : UInt16} {row : Nat} (hrow : rawLookupIpPortNode jhash2words s ip port = some row)
    {s' : State} (hs' : s' = { s with
      multiGrp := BucketLayout.put s.multiGrp (ipPortHashKey jhash2words ip port multiGrpBucket) row
        { s.multiGrp (ipPortHashKey jhash2words ip port multiGrpBucket) row with multiIp } }) :
    WellFormed jhash2words s' ∧
      entry jhash2words s' = Function.update (entry jhash2words s) (ip, port) (some multiIp) := by
  obtain ⟨hlive, hkey⟩ := wf.lookup_iff.mp hrow
  subst hs'
  refine ⟨⟨?_, ?_, wf.bound⟩, ?_⟩
  · exact BucketLayout.WellFormed.replace wf.table hlive (by exact hlive) rfl
  · rw [wf.count]
    unfold liveNodes
    rw [BucketLayout.WellFormed.liveCells_replace hlive (by exact hlive)]
  · have hcontent := BucketLayout.WellFormed.content_replace wf.table hlive
      (c := { s.multiGrp (ipPortHashKey jhash2words ip port multiGrpBucket) row with multiIp })
      (by exact hlive) rfl
    rw [hkey] at hcontent
    exact map_update_content hcontent

/-- A new entry in the first free cell of its bucket. -/
theorem insert_cells {s s' : State} (htable : (layout jhash2words).WellFormed s.multiGrp)
    {multiIp ip : UInt32} {port : UInt16} {i : Nat}
    (hrow : rawLookupIpPortNode jhash2words s ip port = none) (hi : i < multiGrpDepth)
    (hfree : (s.multiGrp (ipPortHashKey jhash2words ip port multiGrpBucket) i).created = false)
    (hbusy : ∀ j < i,
      (s.multiGrp (ipPortHashKey jhash2words ip port multiGrpBucket) j).created = true)
    (hs' : s' = {
      multiGrp := BucketLayout.put s.multiGrp (ipPortHashKey jhash2words ip port multiGrpBucket) i
        ⟨multiIp, ip, port, true, 0, 0⟩
      nodeCnt := s.nodeCnt + 1 }) :
    (layout jhash2words).WellFormed s'.multiGrp ∧
      (liveNodes jhash2words s').card = (liveNodes jhash2words s).card + 1 ∧
      entry jhash2words s' = Function.update (entry jhash2words s) (ip, port) (some multiIp) := by
  subst hs'
  refine ⟨BucketLayout.WellFormed.insert htable hrow hi hfree hbusy rfl rfl, ?_, ?_⟩
  · have hcard := BucketLayout.WellFormed.liveCells_insert htable hrow hi hfree hbusy
      (c := ⟨multiIp, ip, port, true, 0, 0⟩) rfl rfl ipPortHashKey_lt
    unfold liveNodes
    simp only
    rw [← hcard]
    rfl
  · exact map_update_content
      (BucketLayout.WellFormed.content_insert htable hrow hi hfree hbusy rfl rfl)

theorem WellFormed.insert {s s' : State} (wf : WellFormed jhash2words s) {multiIp ip : UInt32}
    {port : UInt16} {i : Nat} (hroom : s.nodeCnt < multiGrpMax)
    (hrow : rawLookupIpPortNode jhash2words s ip port = none) (hi : i < multiGrpDepth)
    (hfree : (s.multiGrp (ipPortHashKey jhash2words ip port multiGrpBucket) i).created = false)
    (hbusy : ∀ j < i,
      (s.multiGrp (ipPortHashKey jhash2words ip port multiGrpBucket) j).created = true)
    (hs' : s' = {
      multiGrp := BucketLayout.put s.multiGrp (ipPortHashKey jhash2words ip port multiGrpBucket) i
        ⟨multiIp, ip, port, true, 0, 0⟩
      nodeCnt := s.nodeCnt + 1 }) :
    WellFormed jhash2words s' ∧
      entry jhash2words s' = Function.update (entry jhash2words s) (ip, port) (some multiIp) := by
  obtain ⟨htable, hcard, hentry⟩ := insert_cells wf.table hrow hi hfree hbusy hs'
  have hcount := wf.count
  refine ⟨⟨htable, ?_, ?_⟩, hentry⟩
  · rw [hcard, hs']
    simp only [hcount]
    omega
  · rw [hs']
    simp only
    omega

/-- All that an insertion can do to the cells: nothing, a new group in the entry's cell, or a new
entry in the first free cell of its bucket. -/
theorem insertMultiNode_inv {s s' : State} {multiIp ip : UInt32} {port : UInt16} {code : Int}
    (h : insertMultiNode jhash2words s multiIp ip port = .ret (code, s')) :
    (s' = s ∧ code = multiNodeExsit ∧
      ∃ row, rawLookupIpPortNode jhash2words s ip port = some row ∧
        (s.multiGrp (ipPortHashKey jhash2words ip port multiGrpBucket) row).multiIp = multiIp) ∨
    (code = 0 ∧ ∃ row, rawLookupIpPortNode jhash2words s ip port = some row ∧
      (s.multiGrp (ipPortHashKey jhash2words ip port multiGrpBucket) row).multiIp ≠ multiIp ∧
      s' = { s with
        multiGrp := BucketLayout.put s.multiGrp
          (ipPortHashKey jhash2words ip port multiGrpBucket) row
          { s.multiGrp (ipPortHashKey jhash2words ip port multiGrpBucket) row with multiIp } }) ∨
    (code = 0 ∧ rawLookupIpPortNode jhash2words s ip port = none ∧ ∃ i < 256,
      (s.multiGrp (ipPortHashKey jhash2words ip port multiGrpBucket) i).created = false ∧
      (∀ j < i,
        (s.multiGrp (ipPortHashKey jhash2words ip port multiGrpBucket) j).created = true) ∧
      s' = {
        multiGrp := BucketLayout.put s.multiGrp
          (ipPortHashKey jhash2words ip port multiGrpBucket) i ⟨multiIp, ip, port, true, 0, 0⟩
        nodeCnt := s.nodeCnt + 1 }) := by
  unfold insertMultiNode at h
  cases hrow : rawLookupIpPortNode jhash2words s ip port with
  | some row =>
    simp only [hrow] at h
    split at h
    · rename_i hsame
      simp only [Outcome.ret.injEq, Prod.mk.injEq] at h
      exact Or.inl ⟨h.2.symm, h.1.symm, row, rfl, hsame⟩
    · rename_i hdiff
      simp only [Outcome.ret.injEq, Prod.mk.injEq] at h
      exact Or.inr (Or.inl ⟨h.1.symm, row, rfl, hdiff, h.2.symm⟩)
  | none =>
    simp only [hrow] at h
    rcases searchCell s (ipPortHashKey jhash2words ip port multiGrpBucket) with
      ⟨i, hi, hs, hfree, hbusy⟩ | ⟨hs, _⟩
    · simp only [hs, Outcome.ret.injEq, Prod.mk.injEq] at h
      exact Or.inr (Or.inr ⟨h.1.symm, rfl, i, hi, hfree, hbusy, h.2.symm⟩)
    · simp [hs] at h

theorem addMultiNode_ret {s s' : State} {multiIp ip : UInt32} {port : UInt16} {code : Int}
    (h : addMultiNode jhash2words s multiIp ip port = .ret (code, s')) :
    (s' = s ∧ code = multiTblFull ∧ multiGrpMax ≤ s.nodeCnt) ∨
      (s.nodeCnt < multiGrpMax ∧ insertMultiNode jhash2words s multiIp ip port = .ret (code, s')) := by
  rw [addMultiNode_eq] at h
  split at h
  · rename_i hfull
    simp only [Outcome.ret.injEq, Prod.mk.injEq] at h
    exact Or.inl ⟨h.2.symm, h.1.symm, hfull⟩
  · exact Or.inr ⟨by omega, h⟩

/-- An add is refused without a change, or stores its entry. -/
theorem addMultiNode_cases {s s' : State} (wf : WellFormed jhash2words s) {multiIp ip : UInt32}
    {port : UInt16} {code : Int}
    (h : addMultiNode jhash2words s multiIp ip port = .ret (code, s')) :
    (s' = s ∧
      ((code = multiTblFull ∧ multiGrpMax ≤ s.nodeCnt) ∨
        (code = multiNodeExsit ∧ s.nodeCnt < multiGrpMax ∧
          entry jhash2words s (ip, port) = some multiIp))) ∨
    (code = 0 ∧ s.nodeCnt < multiGrpMax ∧ WellFormed jhash2words s' ∧
      entry jhash2words s (ip, port) ≠ some multiIp ∧
      entry jhash2words s' = Function.update (entry jhash2words s) (ip, port) (some multiIp)) := by
  rcases addMultiNode_ret h with ⟨rfl, hfull⟩ | ⟨hroom, hins⟩
  · exact Or.inl ⟨rfl, Or.inl hfull⟩
  · rcases insertMultiNode_inv hins with
      ⟨rfl, hexsit, row, hrow, hsame⟩ | ⟨rfl, row, hrow, hdiff, hs'⟩ |
      ⟨rfl, hrow, i, hi, hfree, hbusy, hs'⟩
    · exact Or.inl ⟨rfl, Or.inr ⟨hexsit, hroom, by rw [entry_of_lookup hrow, hsame]⟩⟩
    · obtain ⟨hwf, hentry⟩ := wf.replace hrow hs'
      refine Or.inr ⟨rfl, hroom, hwf, ?_, hentry⟩
      rw [entry_of_lookup hrow]
      exact fun he => hdiff (Option.some.inj he)
    · have hdepth : i < multiGrpDepth := Nat.lt_of_lt_of_le hi byte_le_depth
      obtain ⟨hwf, hentry⟩ := wf.insert hroom hrow hdepth hfree hbusy hs'
      exact Or.inr ⟨rfl, hroom, hwf, by simp [entry_eq_none_iff.mpr hrow], hentry⟩

/-- Where the entry is new and its bucket has room, an insertion succeeds. -/
theorem insertMultiNode_returns {s : State} (multiIp : UInt32) {ip : UInt32} {port : UInt16}
    {i : Nat} (hnew : entry jhash2words s (ip, port) = none) (hi : i < 256)
    (hfree : (s.multiGrp (ipPortHashKey jhash2words ip port multiGrpBucket) i).created = false) :
    ∃ s', insertMultiNode jhash2words s multiIp ip port = .ret (0, s') := by
  unfold insertMultiNode
  simp only [entry_eq_none_iff.mp hnew]
  rcases searchCell s (ipPortHashKey jhash2words ip port multiGrpBucket) with
    ⟨r, _, hs, _⟩ | ⟨_, hbusy⟩
  · simp only [hs]
    exact ⟨_, rfl⟩
  · simp [hbusy i hi] at hfree

theorem addMultiNode_returns {s : State} (multiIp : UInt32) {ip : UInt32} {port : UInt16} {i : Nat}
    (hroom : s.nodeCnt < multiGrpMax) (hnew : entry jhash2words s (ip, port) = none) (hi : i < 256)
    (hfree : (s.multiGrp (ipPortHashKey jhash2words ip port multiGrpBucket) i).created = false) :
    ∃ s', addMultiNode jhash2words s multiIp ip port = .ret (0, s') := by
  rw [addMultiNode_eq, if_neg (by omega)]
  exact insertMultiNode_returns multiIp hnew hi hfree

theorem addMultiNode_multiNodeInit (jhash2words : UInt32 → UInt32 → UInt32 → UInt32)
    (multiIp ip : UInt32) (port : UInt16) :
    ∃ s, addMultiNode jhash2words multiNodeInit multiIp ip port = .ret (0, s) ∧
      ∀ k, entry jhash2words s k = if k = (ip, port) then some multiIp else none := by
  have hnew : entry jhash2words multiNodeInit (ip, port) = none := entry_multiNodeInit _
  obtain ⟨s, hs⟩ := addMultiNode_returns (i := 0) multiIp (by decide) hnew (by decide) rfl
  refine ⟨s, hs, fun k => ?_⟩
  rcases addMultiNode_cases multiNodeInit_wellFormed hs with
    ⟨_, ⟨h, _⟩ | ⟨h, _⟩⟩ | ⟨_, _, _, _, hentry⟩
  · simp at h
  · simp at h
  · rw [hentry, Function.update_apply, entry_multiNodeInit]

theorem moveNode_spec (d c : MultiNode) :
    (layout jhash2words).live (moveNode d c) = (layout jhash2words).live c ∧
      (layout jhash2words).key (moveNode d c) = (layout jhash2words).key c := ⟨rfl, rfl⟩

theorem wipeNode_free (c : MultiNode) : (layout jhash2words).live (wipeNode c) = false := rfl

theorem delMultiNode_cases {s : State} (wf : WellFormed jhash2words s) (ip : UInt32)
    (port : UInt16) :
    (entry jhash2words s (ip, port) = none ∧
      delMultiNode jhash2words s ip port = (multiNodeNotExsit, s)) ∨
    ∃ s', delMultiNode jhash2words s ip port = (0, s') ∧
      (entry jhash2words s (ip, port)).isSome = true ∧ WellFormed jhash2words s' ∧
      entry jhash2words s' = Function.update (entry jhash2words s) (ip, port) none := by
  unfold delMultiNode
  cases hrow : rawLookupIpPortNode jhash2words s ip port with
  | none => exact Or.inl ⟨entry_eq_none_iff.mpr hrow, rfl⟩
  | some row =>
    obtain ⟨hlive, hkey⟩ := wf.lookup_iff.mp hrow
    have htable := BucketLayout.WellFormed.remove wf.table hlive moveNode_spec wipeNode_free
    have hbound := wf.bound
    refine Or.inr ⟨_, rfl, by rw [entry_of_lookup hrow]; rfl,
      ⟨htable, ?_, by simp only; omega⟩, ?_⟩
    · have hcard := BucketLayout.WellFormed.liveCells_remove wf.table hlive moveNode_spec wipeNode_free
        ipPortHashKey_lt
      have hcount := wf.count
      unfold liveNodes at hcount ⊢
      simp only [hcount]
      omega
    · funext k
      by_cases hk : k = (ip, port)
      · subst hk
        have hself :=
          BucketLayout.WellFormed.content_remove_self wf.table hlive moveNode_spec wipeNode_free
        rw [hkey] at hself
        rw [Function.update_self]
        simp only [entry]
        exact congrArg (Option.map _) hself
      · rw [Function.update_of_ne hk]
        have hother :=
          BucketLayout.WellFormed.content_remove_other wf.table hlive moveNode_spec wipeNode_free
            (k := k) (by rw [hkey]; exact hk)
        rcases hother with h | h
        · exact congrArg (Option.map _) h
        · apply (congrArg (Option.map _) h).trans
          rw [Option.map_map]
          rfl

theorem clearMultiNode_free {s : State} (wf : WellFormed jhash2words s) (b i : Nat) :
    ((clearMultiNode s).2.multiGrp b i).created = false := by
  simp only [clearMultiNode]
  split
  · rfl
  · rename_i hb
    by_contra hne
    have hl : (s.multiGrp b i).created = true := by simpa using hne
    exact hb (wf.table.home b i hl ▸ ipPortHashKey_lt _)

/-! ## Runs -/

/-- Tables after a sequence of commands that each returned. -/
inductive Reachable (jhash2words : UInt32 → UInt32 → UInt32 → UInt32) : State → Prop where
  | init : Reachable jhash2words multiNodeInit
  | step {s s' : State} {msg : NlMessage} {code : Int} : Reachable jhash2words s →
      tmccRcvSkb jhash2words s msg = .ret (code, s') → Reachable jhash2words s'

theorem tmccRcvSkb_wellFormed {s s' : State} {msg : NlMessage} {code : Int}
    (wf : WellFormed jhash2words s) (h : tmccRcvSkb jhash2words s msg = .ret (code, s')) :
    WellFormed jhash2words s' := by
  cases msg with
  | serviceAdd service =>
    rcases addMultiNode_cases wf h with ⟨rfl, _⟩ | ⟨_, _, hwf, _⟩
    · exact wf
    · exact hwf
  | serviceDel service =>
    simp only [tmccRcvSkb, Outcome.ret.injEq] at h
    rcases delMultiNode_cases wf service.serverIp service.port with ⟨_, hd⟩ | ⟨t, hd, _, hwf, _⟩
    · rw [hd] at h
      exact (Prod.mk.inj h).2 ▸ wf
    · rw [hd] at h
      exact (Prod.mk.inj h).2 ▸ hwf
  | clientClear =>
    simp only [tmccRcvSkb, Outcome.ret.injEq] at h
    have hs' : s' = (clearMultiNode s).2 := by rw [h]
    rw [hs']
    exact wellFormed_of_free (clearMultiNode_free wf) rfl

theorem Reachable.wellFormed {s : State} (h : Reachable jhash2words s) :
    WellFormed jhash2words s := by
  induction h with
  | init => exact multiNodeInit_wellFormed
  | step _ hstep ih => exact tmccRcvSkb_wellFormed ih hstep

/-- The entry that a message can make. -/
def NlMessage.Brings : NlMessage → UInt32 × UInt16 → UInt32 → Prop
  | .serviceAdd service, k, multiIp => k = (service.serverIp, service.port) ∧ multiIp = service.multiIp
  | _, _, _ => False

/-- A command makes no entry that it does not name. -/
theorem entry_of_command {s s' : State} (wf : WellFormed jhash2words s) {msg : NlMessage}
    {code : Int} (h : tmccRcvSkb jhash2words s msg = .ret (code, s')) {k : UInt32 × UInt16}
    {multiIp : UInt32} (hentry : entry jhash2words s' k = some multiIp) :
    entry jhash2words s k = some multiIp ∨ msg.Brings k multiIp := by
  cases msg with
  | serviceAdd service =>
    rcases addMultiNode_cases wf h with ⟨rfl, _⟩ | ⟨_, _, _, _, hupdate⟩
    · exact Or.inl hentry
    · rw [hupdate, Function.update_apply] at hentry
      split at hentry
      · rename_i hk
        exact Or.inr ⟨hk, (Option.some.inj hentry).symm⟩
      · exact Or.inl hentry
  | serviceDel service =>
    have hs' := Outcome.ret.inj h
    rcases delMultiNode_cases wf service.serverIp service.port with
      ⟨_, hd⟩ | ⟨t, hd, _, _, hupdate⟩
    · obtain ⟨_, rfl⟩ := Prod.mk.inj (hd.symm.trans hs')
      exact Or.inl hentry
    · obtain ⟨_, rfl⟩ := Prod.mk.inj (hd.symm.trans hs')
      rw [hupdate, Function.update_apply] at hentry
      split at hentry
      · cases hentry
      · exact Or.inl hentry
  | clientClear =>
    have hfree := clearMultiNode_free wf
    rw [Outcome.ret.inj h] at hfree
    rw [entry_of_free hfree] at hentry
    cases hentry

end MulticastProxy.KernelClient
