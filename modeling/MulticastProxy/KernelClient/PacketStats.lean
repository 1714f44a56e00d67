import MulticastProxy.KernelClient.Fill
import MulticastProxy.KernelClient.Hook
import MulticastProxy.Library.Trace

/-!
# Kernel client: counters of the entries (`kmod/multic_nf.c`, `kmod/multic_grp.c`)

`tmcc_hook_local_in` looks a packet's entry up, lets the lock go, and takes it again for
`multi_client_stats`, which compares the group address of the remembered cell. In between the entry
may be deleted, and another one may come into its cell.
-/

namespace MulticastProxy.KernelClient

set_option autoImplicit false

/-- What a hook run remembers between its two steps. `key` is the key it looked up. -/
structure HookRun where
  key : Key
  multiIp : UInt32
  bucket : Nat
  depth : Nat
  len : UInt16

structure HookSystem where
  table : State
  inFlight : Nat → Option HookRun

inductive HookAct where
  | lookup (id : Nat) (key : Key) (len : UInt16)
  | stats (id : Nat)
  | command (msg : NlMessage)

def HookSystem.init : HookSystem := ⟨multiNodeInit, fun _ => none⟩

section
variable (jhash2words : UInt32 → UInt32 → UInt32 → UInt32)

/-- One step under the lock. -/
def HookSystem.next (h : HookSystem) : HookAct → Option HookSystem
  | .lookup id key len =>
    match h.inFlight id with
    | some _ => none
    | none =>
      match lookupIpPortNode jhash2words h.table key.1 key.2 with
      | none => some h
      | some (multiIp, bucket, depth) =>
        some { h with
          inFlight := Function.update h.inFlight id (some ⟨key, multiIp, bucket, depth, len⟩) }
  | .stats id =>
    match h.inFlight id with
    | none => none
    | some run =>
      some ⟨multiClientStats h.table run.multiIp run.bucket run.depth run.len,
        Function.update h.inFlight id none⟩
  | .command msg =>
    match tmccRcvSkb jhash2words h.table msg with
    | .ret (_, s) => some { h with table := s }
    | _ => none

/-- The cell that a command fills with an entry, and what it puts there. -/
def placed (s : State) : NlMessage → Option (Nat × Nat × MultiNode)
  | .serviceAdd service =>
    let index := ipPortHashKey jhash2words service.serverIp service.port multiGrpBucket
    if multiGrpMax ≤ s.nodeCnt then none
    else
      match rawLookupIpPortNode jhash2words s service.serverIp service.port with
      | some rowId => some (index, rowId, { s.multiGrp index rowId with multiIp := service.multiIp })
      | none =>
        match Search.byteSearch (fun i => !(s.multiGrp index i).created) multiGrpDepth 256 0 with
        | some (some i) =>
          some (index, i, ⟨service.multiIp, service.serverIp, service.port, true, 0, 0⟩)
        | _ => none
  | .serviceDel service =>
    let index := ipPortHashKey jhash2words service.serverIp service.port multiGrpBucket
    match rawLookupIpPortNode jhash2words s service.serverIp service.port with
    | none => none
    | some rowId =>
      (Search.lastAfter (fun j => (s.multiGrp index j).created) rowId multiGrpDepth).map fun j =>
        (index, rowId, moveNode (s.multiGrp index rowId) (s.multiGrp index j))
  | .clientClear => none

/-- No command puts an entry of another key, with the group that a hook run remembers, into the cell
that it remembers. -/
def KeepsCells (h : HookSystem) : HookAct → Prop
  | .command msg => ∀ id run node, h.inFlight id = some run →
    placed jhash2words h.table msg = some (run.bucket, run.depth, node) →
    node.multiIp = run.multiIp → (node.serverIp, node.port) = run.key
  | _ => True

end

/-- Whichever hook run takes its statistics step, an entry that counts the packet has the key that
the run looked up. -/
def CreditsOwn (h : HookSystem) : Prop :=
  ∀ id run, h.inFlight id = some run → ∀ b i, (h.table.multiGrp b i).created = true →
    (multiClientStats h.table run.multiIp run.bucket run.depth run.len).multiGrp b i ≠
      h.table.multiGrp b i →
    ((h.table.multiGrp b i).serverIp, (h.table.multiGrp b i).port) = run.key

variable {jhash2words : UInt32 → UInt32 → UInt32 → UInt32}

/-! ## What a step does to the cells -/

/-- The cell that counts a packet is the remembered one, where it has the remembered group. -/
theorem multiClientStats_changed (s : State) (multiIp : UInt32) (bucket depth : Nat) (len : UInt16)
    (b i : Nat) :
    (multiClientStats s multiIp bucket depth len).multiGrp b i ≠ s.multiGrp b i ↔
      (b = bucket ∧ i = depth) ∧ multiIp = (s.multiGrp b i).multiIp := by
  unfold multiClientStats
  simp only
  by_cases hip : multiIp = (s.multiGrp bucket depth).multiIp
  · rw [if_pos hip]
    simp only [BucketLayout.put_apply]
    by_cases hcell : b = bucket ∧ i = depth
    · obtain ⟨rfl, rfl⟩ := hcell
      have hcount : (s.multiGrp b i).rxPackets + 1 ≠ (s.multiGrp b i).rxPackets := by simp
      simp only [and_self, if_true, ne_eq, hip, iff_true]
      exact fun he => hcount (congrArg MultiNode.rxPackets he)
    · simp [hcell]
  · rw [if_neg hip]
    simp only [ne_eq, not_true_eq_false, false_iff]
    rintro ⟨⟨rfl, rfl⟩, he⟩
    exact hip he

theorem creditsOwn_iff {h : HookSystem} : CreditsOwn h ↔
    ∀ id run, h.inFlight id = some run →
      (h.table.multiGrp run.bucket run.depth).created = true →
      (h.table.multiGrp run.bucket run.depth).multiIp = run.multiIp →
      ((h.table.multiGrp run.bucket run.depth).serverIp,
        (h.table.multiGrp run.bucket run.depth).port) = run.key := by
  simp only [CreditsOwn, multiClientStats_changed]
  constructor
  · intro hown id run hrun hl hip
    exact hown id run hrun _ _ hl ⟨⟨rfl, rfl⟩, hip.symm⟩
  · rintro hown id run hrun b i hl ⟨⟨rfl, rfl⟩, hip⟩
    exact hown id run hrun hl hip.symm

theorem WellFormed.multiClientStats {s : State} (wf : WellFormed jhash2words s) (multiIp : UInt32)
    (bucket depth : Nat) (len : UInt16) :
    WellFormed jhash2words (multiClientStats s multiIp bucket depth len) := by
  have hcell := multiClientStats_same s multiIp bucket depth len
  have htable : (layout jhash2words).WellFormed
      (KernelClient.multiClientStats s multiIp bucket depth len).multiGrp :=
    wf.table.congr (fun b i => (hcell b i).1)
      fun b i => Prod.ext (hcell b i).2.1 (hcell b i).2.2.1
  have hcnt : (KernelClient.multiClientStats s multiIp bucket depth len).nodeCnt = s.nodeCnt := by
    unfold KernelClient.multiClientStats
    simp only
    split <;> rfl
  have hlive : liveNodes jhash2words (KernelClient.multiClientStats s multiIp bucket depth len) =
      liveNodes jhash2words s := by
    ext p
    unfold liveNodes
    rw [BucketLayout.WellFormed.mem_liveCells htable ipPortHashKey_lt,
      BucketLayout.WellFormed.mem_liveCells wf.table ipPortHashKey_lt]
    exact iff_of_eq (congrArg (· = true) (hcell p.1 p.2).1)
  exact ⟨htable, by rw [hcnt, hlive, wf.count], by rw [hcnt]; exact wf.bound⟩

/-- From `t` to `t'` an entry comes into the cell that `p` names, and into no other. -/
structure Fills (t t' : Nat → Nat → MultiNode) (p : Option (Nat × Nat × MultiNode)) : Prop where
  filled : ∀ b i node, p = some (b, i, node) → t' b i = node ∧ node.created = true
  others : ∀ b i, (t' b i).created = true → t' b i = t b i ∨ p = some (b, i, t' b i)

theorem Fills.refl (t : Nat → Nat → MultiNode) : Fills t t none where
  filled := by simp
  others := fun _ _ _ => Or.inl rfl

theorem Fills.of_free {t t' : Nat → Nat → MultiNode} (h : ∀ b i, (t' b i).created = false) :
    Fills t t' none where
  filled := by simp
  others := fun b i hl => by simp [h] at hl

theorem Fills.put (t : Nat → Nat → MultiNode) (b i : Nat) {node : MultiNode}
    (hnode : node.created = true) : Fills t (BucketLayout.put t b i node) (some (b, i, node)) where
  filled := by
    rintro b' i' node' he
    obtain ⟨rfl, rfl, rfl⟩ := by simpa using he
    exact ⟨BucketLayout.put_same .., hnode⟩
  others := fun b' i' _ => by
    rw [BucketLayout.put_apply]
    by_cases h : b' = b ∧ i' = i
    · rw [if_pos h, h.1, h.2]
      exact Or.inr rfl
    · rw [if_neg h]
      exact Or.inl rfl

theorem Fills.wipe {t t' : Nat → Nat → MultiNode} {p : Option (Nat × Nat × MultiNode)}
    (h : Fills t t' p) {b i : Nat} {node : MultiNode} (hnode : node.created = false)
    (hne : ∀ b' i' node', p = some (b', i', node') → ¬(b' = b ∧ i' = i)) :
    Fills t (BucketLayout.put t' b i node) p where
  filled := fun b' i' node' he => by
    rw [BucketLayout.put_apply, if_neg (hne b' i' node' he)]
    exact h.filled b' i' node' he
  others := fun b' i' hl => by
    rw [BucketLayout.put_apply] at hl ⊢
    by_cases hcell : b' = b ∧ i' = i
    · rw [if_pos hcell, hnode] at hl
      cases hl
    · rw [if_neg hcell] at hl ⊢
      exact h.others b' i' hl

theorem addMultiNode_fills {s s' : State} (wf : WellFormed jhash2words s)
    {service : TmccNlServiceSt} {code : Int}
    (h : addMultiNode jhash2words s service.multiIp service.serverIp service.port =
      .ret (code, s')) :
    Fills s.multiGrp s'.multiGrp (placed jhash2words s (.serviceAdd service)) := by
  unfold addMultiNode at h
  simp only [placed]
  split at h
  · rename_i hfull
    simp only [Outcome.ret.injEq, Prod.mk.injEq] at h
    rw [if_pos hfull, ← h.2]
    exact .refl _
  · rename_i hroom
    rw [if_neg hroom]
    cases hrow : rawLookupIpPortNode jhash2words s service.serverIp service.port with
    | some row =>
      have hlive := (wf.lookup_iff.mp hrow).1
      simp only [hrow] at h ⊢
      split at h
      · rename_i hsame
        -- A refused entry is the one that is there.
        simp only [Outcome.ret.injEq, Prod.mk.injEq] at h
        rw [← h.2, ← hsame]
        have hput := Fills.put s.multiGrp
          (ipPortHashKey jhash2words service.serverIp service.port multiGrpBucket) row hlive
        rwa [BucketLayout.put_self] at hput
      · simp only [Outcome.ret.injEq, Prod.mk.injEq] at h
        rw [← h.2]
        exact .put _ _ _ hlive
    | none =>
      simp only [hrow] at h ⊢
      split at h
      · cases h
      · rename_i hsearch
        simp only [Outcome.ret.injEq, Prod.mk.injEq] at h
        rw [hsearch, ← h.2]
        exact .refl _
      · rename_i i hsearch
        simp only [Outcome.ret.injEq, Prod.mk.injEq] at h
        rw [hsearch, ← h.2]
        exact .put _ _ _ rfl

theorem delMultiNode_fills (s : State) (service : TmccNlServiceSt) :
    Fills s.multiGrp (delMultiNode jhash2words s service.serverIp service.port).2.multiGrp
      (placed jhash2words s (.serviceDel service)) := by
  simp only [placed, delMultiNode]
  cases hrow : rawLookupIpPortNode jhash2words s service.serverIp service.port with
  | none => exact .refl _
  | some row =>
    have hremove : (layout jhash2words).remove moveNode wipeNode s.multiGrp
        (ipPortHashKey jhash2words service.serverIp service.port multiGrpBucket) row =
        match Search.lastAfter (fun j => (s.multiGrp
          (ipPortHashKey jhash2words service.serverIp service.port multiGrpBucket) j).created) row
          multiGrpDepth with
        | some j => BucketLayout.put (BucketLayout.put s.multiGrp _ row
            (moveNode (s.multiGrp _ row) (s.multiGrp _ j))) _ j (wipeNode (s.multiGrp _ j))
        | none => BucketLayout.put s.multiGrp _ row (wipeNode (s.multiGrp _ row)) := rfl
    simp only [hremove]
    cases hlast : Search.lastAfter (fun j => (s.multiGrp
        (ipPortHashKey jhash2words service.serverIp service.port multiGrpBucket) j).created) row
        multiGrpDepth with
    | none =>
      exact (Fills.refl s.multiGrp).wipe rfl fun _ _ _ he => by cases he
    | some j =>
      obtain ⟨hlive, _, hne, _⟩ := Search.lastAfter_eq_some hlast
      have hmoved : (moveNode (s.multiGrp (ipPortHashKey jhash2words service.serverIp service.port
          multiGrpBucket) row) (s.multiGrp (ipPortHashKey jhash2words service.serverIp service.port
          multiGrpBucket) j)).created = true := hlive
      refine (Fills.put s.multiGrp _ row hmoved).wipe (b := ipPortHashKey jhash2words
        service.serverIp service.port multiGrpBucket) (i := j) rfl ?_
      rintro b' i' node' he ⟨_, rfl⟩
      obtain ⟨_, rfl, _⟩ := by simpa using he
      exact hne rfl

theorem tmccRcvSkb_fills {s s' : State} (wf : WellFormed jhash2words s) {msg : NlMessage}
    {code : Int} (h : tmccRcvSkb jhash2words s msg = .ret (code, s')) :
    Fills s.multiGrp s'.multiGrp (placed jhash2words s msg) := by
  cases msg with
  | serviceAdd service => exact addMultiNode_fills wf h
  | serviceDel service =>
    simp only [tmccRcvSkb, Outcome.ret.injEq] at h
    have hs' : s' = (delMultiNode jhash2words s service.serverIp service.port).2 := by rw [h]
    rw [hs']
    exact delMultiNode_fills s service
  | clientClear =>
    simp only [tmccRcvSkb, Outcome.ret.injEq] at h
    have hs' : s' = (clearMultiNode s).2 := by rw [h]
    rw [hs']
    exact .of_free (clearMultiNode_free wf)

/-! ## Runs -/

theorem HookSystem.next_lookup {h h' : HookSystem} {id : Nat} {key : Key} {len : UInt16}
    (hnext : h.next jhash2words (.lookup id key len) = some h') :
    h' = h ∨ ∃ multiIp bucket depth,
      lookupIpPortNode jhash2words h.table key.1 key.2 = some (multiIp, bucket, depth) ∧
      h' = { h with
        inFlight := Function.update h.inFlight id (some ⟨key, multiIp, bucket, depth, len⟩) } := by
  simp only [HookSystem.next] at hnext
  split at hnext
  · cases hnext
  · split at hnext
    · exact Or.inl (Option.some.inj hnext).symm
    · rename_i multiIp bucket depth hfound
      exact Or.inr ⟨multiIp, bucket, depth, hfound, (Option.some.inj hnext).symm⟩

theorem HookSystem.next_stats {h h' : HookSystem} {id : Nat}
    (hnext : h.next jhash2words (.stats id) = some h') :
    ∃ run, h.inFlight id = some run ∧
      h' = ⟨multiClientStats h.table run.multiIp run.bucket run.depth run.len,
        Function.update h.inFlight id none⟩ := by
  simp only [HookSystem.next] at hnext
  split at hnext
  · cases hnext
  · rename_i run hrun
    exact ⟨run, hrun, (Option.some.inj hnext).symm⟩

theorem HookSystem.next_command {h h' : HookSystem} {msg : NlMessage}
    (hnext : h.next jhash2words (.command msg) = some h') :
    ∃ code s, tmccRcvSkb jhash2words h.table msg = .ret (code, s) ∧ h' = { h with table := s } := by
  simp only [HookSystem.next] at hnext
  split at hnext
  · rename_i code s hcmd
    exact ⟨code, s, hcmd, (Option.some.inj hnext).symm⟩
  · cases hnext

theorem HookSystem.next_wellFormed {h h' : HookSystem} {act : HookAct}
    (wf : WellFormed jhash2words h.table) (hnext : h.next jhash2words act = some h') :
    WellFormed jhash2words h'.table := by
  cases act with
  | lookup id key len =>
    rcases HookSystem.next_lookup hnext with rfl | ⟨_, _, _, _, rfl⟩
    · exact wf
    · exact wf
  | stats id =>
    obtain ⟨run, _, rfl⟩ := HookSystem.next_stats hnext
    exact wf.multiClientStats _ _ _ _
  | command msg =>
    obtain ⟨code, s, hcmd, rfl⟩ := HookSystem.next_command hnext
    exact tmccRcvSkb_wellFormed wf hcmd

theorem HookSystem.lookup_creditsOwn {h h' : HookSystem} {id : Nat} {key : Key} {len : UInt16}
    (wf : WellFormed jhash2words h.table) (hown : CreditsOwn h)
    (hnext : h.next jhash2words (.lookup id key len) = some h') : CreditsOwn h' := by
  rcases HookSystem.next_lookup hnext with rfl | ⟨multiIp, bucket, depth, hfound, rfl⟩
  · exact hown
  · apply creditsOwn_iff.mpr
    intro id' run hrun hl hip
    simp only [Function.update_apply] at hrun
    split at hrun
    · obtain rfl := Option.some.inj hrun
      obtain ⟨row, hrow, he⟩ := Option.map_eq_some_iff.mp hfound
      obtain ⟨_, rfl, rfl⟩ := by simpa using he
      exact (wf.lookup_iff.mp hrow).2
    · exact creditsOwn_iff.mp hown id' run hrun hl hip

theorem HookSystem.stats_creditsOwn {h h' : HookSystem} {id : Nat} (hown : CreditsOwn h)
    (hnext : h.next jhash2words (.stats id) = some h') : CreditsOwn h' := by
  obtain ⟨run, _, rfl⟩ := HookSystem.next_stats hnext
  apply creditsOwn_iff.mpr
  intro id' run' hrun hl hip
  have hcell := multiClientStats_same h.table run.multiIp run.bucket run.depth run.len
    run'.bucket run'.depth
  simp only [Function.update_apply] at hrun
  split at hrun
  · cases hrun
  · simp only [hcell] at hl hip ⊢
    exact creditsOwn_iff.mp hown id' run' hrun hl hip

theorem HookSystem.command_creditsOwn {h h' : HookSystem} {msg : NlMessage}
    (wf : WellFormed jhash2words h.table) (hown : CreditsOwn h)
    (hnext : h.next jhash2words (.command msg) = some h')
    (hkeep : KeepsCells jhash2words h (.command msg)) : CreditsOwn h' := by
  obtain ⟨code, s, hcmd, rfl⟩ := HookSystem.next_command hnext
  apply creditsOwn_iff.mpr
  intro id run hrun hl hip
  rcases (tmccRcvSkb_fills wf hcmd).others _ _ hl with he | hplaced
  · simp only [he] at hl hip ⊢
    exact creditsOwn_iff.mp hown id run hrun hl hip
  · exact hkeep id run _ hrun hplaced hip

theorem HookSystem.next_creditsOwn {h h' : HookSystem} {act : HookAct}
    (hinv : WellFormed jhash2words h.table ∧ CreditsOwn h)
    (hnext : h.next jhash2words act = some h') (hkeep : KeepsCells jhash2words h act) :
    WellFormed jhash2words h'.table ∧ CreditsOwn h' := by
  obtain ⟨wf, hown⟩ := hinv
  refine ⟨HookSystem.next_wellFormed wf hnext, ?_⟩
  cases act with
  | lookup id key len => exact HookSystem.lookup_creditsOwn wf hown hnext
  | stats id => exact HookSystem.stats_creditsOwn hown hnext
  | command msg => exact HookSystem.command_creditsOwn wf hown hnext hkeep

theorem HookSystem.next_not_creditsOwn {h h' : HookSystem} {act : HookAct}
    (wf : WellFormed jhash2words h.table) (hnext : h.next jhash2words act = some h')
    (hkeep : ¬ KeepsCells jhash2words h act) : ¬ CreditsOwn h' := by
  cases act with
  | lookup id key len => exact absurd trivial hkeep
  | stats id => exact absurd trivial hkeep
  | command msg =>
    simp only [KeepsCells, not_forall] at hkeep
    obtain ⟨id, run, node, hrun, hplaced, hip, hkey⟩ := hkeep
    obtain ⟨code, s, hcmd, rfl⟩ := HookSystem.next_command hnext
    obtain ⟨hnode, hl⟩ := (tmccRcvSkb_fills wf hcmd).filled _ _ _ hplaced
    intro hown
    have hkey' := creditsOwn_iff.mp hown id run hrun
    simp only [hnode] at hkey'
    exact hkey (hkey' hl hip)

/-- In every state of a run each hook run would count its packet for its own entry only, exactly
where no command of the run puts another key's entry with the remembered group into a remembered
cell. -/
theorem credits_own_iff (as : List HookAct) :
    Trace.Throughout (HookSystem.next jhash2words) CreditsOwn HookSystem.init as ↔
      Trace.EachStep (HookSystem.next jhash2words) (KeepsCells jhash2words) HookSystem.init as := by
  refine Trace.throughout_iff_eachStep
    (I := fun h => WellFormed jhash2words h.table ∧ CreditsOwn h) (fun h hinv => hinv.2)
    (fun h act h' hinv hnext => HookSystem.next_creditsOwn hinv hnext)
    (fun h act h' hinv hnext => HookSystem.next_not_creditsOwn hinv.1 hnext) ?_ as
  refine ⟨multiNodeInit_wellFormed, fun id run hrun => ?_⟩
  cases hrun

/-! ## A cell that changes its entry -/

theorem free_of_entry {s : State} (wf : WellFormed jhash2words s)
    (h : ∀ k, entry jhash2words s k = none) (b i : Nat) : (s.multiGrp b i).created = false := by
  by_contra hl
  have hl : (s.multiGrp b i).created = true := by simpa using hl
  have hnone := h ((layout jhash2words).key (s.multiGrp b i))
  rw [entry, wf.table.content_of_cell hl] at hnone
  cases hnone

variable (jhash2words) in
theorem addMultiNode_of_free {s : State} (hfree : ∀ b i, (s.multiGrp b i).created = false)
    (hcnt : s.nodeCnt = 0) (multiIp : UInt32) (k : Key) :
    ∃ s', addMultiNode jhash2words s multiIp k.1 k.2 = .ret (0, s') ∧
      s'.multiGrp (bucketOf jhash2words k) 0 = ⟨multiIp, k.1, k.2, true, 0, 0⟩ ∧
      WellFormed jhash2words s' ∧
      ∀ k', entry jhash2words s' k' = if k' = k then some multiIp else none := by
  have hnew : rawLookupIpPortNode jhash2words s k.1 k.2 = none :=
    entry_eq_none_iff.mp (entry_of_free hfree _)
  have hsearch : Search.byteSearch (fun i => !(s.multiGrp
      (ipPortHashKey jhash2words k.1 k.2 multiGrpBucket) i).created) multiGrpDepth 256 0 =
      some (some 0) := by
    rw [Search.byteSearch, if_pos (by decide)]
    simp [hfree]
  have hadd : addMultiNode jhash2words s multiIp k.1 k.2 = .ret (0, {
      multiGrp := BucketLayout.put s.multiGrp (bucketOf jhash2words k) 0
        ⟨multiIp, k.1, k.2, true, 0, 0⟩
      nodeCnt := s.nodeCnt + 1 }) := by
    unfold addMultiNode
    simp only [hnew, hsearch, hcnt]
    rfl
  refine ⟨_, hadd, BucketLayout.put_same .., ?_⟩
  rcases addMultiNode_cases (wellFormed_of_free hfree hcnt) hadd with
    ⟨_, ⟨h0, _⟩ | ⟨h0, _⟩⟩ | ⟨_, _, hwf, _, hentry⟩
  · simp at h0
  · simp at h0
  · refine ⟨hwf, fun k' => ?_⟩
    rw [hentry, Function.update_apply, entry_of_free hfree]

theorem delMultiNode_last {s : State} (wf : WellFormed jhash2words s) {k : Key} {g : UInt32}
    (h : ∀ k', entry jhash2words s k' = if k' = k then some g else none) :
    ∃ s', delMultiNode jhash2words s k.1 k.2 = (0, s') ∧
      (∀ b i, (s'.multiGrp b i).created = false) ∧ s'.nodeCnt = 0 := by
  rcases delMultiNode_cases wf k.1 k.2 with ⟨hnone, _⟩ | ⟨s', hdel, _, wf', hentry⟩
  · rw [h, if_pos rfl] at hnone
    cases hnone
  · have hfree := free_of_entry wf' fun k' => by
      rw [hentry, Function.update_apply, h]
      split <;> rfl
    have hempty : liveNodes jhash2words s' = ∅ := by
      ext p
      simp [wf'.mem_liveNodes, hfree]
    refine ⟨s', hdel, hfree, ?_⟩
    rw [wf'.count, hempty]
    rfl

theorem exists_ports (jhash2words : UInt32 → UInt32 → UInt32 → UInt32) :
    ∃ k k' : Key, k ≠ k' ∧ bucketOf jhash2words k = bucketOf jhash2words k' := by
  obtain ⟨i, hi, j, hj, hne, he⟩ := Finset.exists_ne_map_eq_of_card_lt_of_maps_to
    (s := Finset.range 1025) (t := Finset.range multiGrpBucket)
    (f := fun i => bucketOf jhash2words (0x0A000001, UInt16.ofNat i)) (by simp)
    (fun i _ => by
      simp only [Finset.coe_range, Set.mem_Iio]
      exact ipPortHashKey_lt _)
  refine ⟨_, _, fun hk => hne ?_, he⟩
  have hi := Finset.mem_range.mp hi
  have hj := Finset.mem_range.mp hj
  have hnat := congrArg UInt16.toNat (Prod.mk.inj hk).2
  rwa [UInt16.toNat_ofNat_of_lt' (by simp [UInt16.size]; omega),
    UInt16.toNat_ofNat_of_lt' (by simp [UInt16.size]; omega)] at hnat

/-- For every hash: an entry is looked up and deleted, one with the same group comes into its cell,
and the hook run counts its packet there. -/
theorem not_credits_own : ¬ ∃ jhash2words, ∀ as,
    Trace.Throughout (HookSystem.next jhash2words) CreditsOwn HookSystem.init as := by
  rintro ⟨jhash2words, hall⟩
  obtain ⟨k, k', hne, hbucket⟩ := exists_ports jhash2words
  obtain ⟨s1, hadd1, hcell1, wf1, hentry1⟩ := addMultiNode_of_free jhash2words
    (s := multiNodeInit) (fun _ _ => rfl) rfl 0xE1000001 k
  obtain ⟨s2, hdel, hfree2, hcnt2⟩ := delMultiNode_last wf1 hentry1
  obtain ⟨s3, hadd3, hcell3, _, _⟩ := addMultiNode_of_free jhash2words
    hfree2 hcnt2 0xE1000001 k'
  have hcell : s1.multiGrp (ipPortHashKey jhash2words k.1 k.2 multiGrpBucket) 0 =
      ⟨0xE1000001, k.1, k.2, true, 0, 0⟩ := hcell1
  have hrow : rawLookupIpPortNode jhash2words s1 k.1 k.2 = some 0 := by
    rw [wf1.lookup_iff, hcell]
    exact ⟨rfl, rfl⟩
  have hfound : lookupIpPortNode jhash2words s1 k.1 k.2 =
      some (0xE1000001, bucketOf jhash2words k, 0) := by
    simp only [lookupIpPortNode, hrow, Option.map_some, hcell]
    rfl
  let run : HookRun := ⟨k, 0xE1000001, bucketOf jhash2words k, 0, 0⟩
  have h := hall [.command (.serviceAdd (serviceOf k)), .lookup 0 k 0,
    .command (.serviceDel (serviceOf k)), .command (.serviceAdd (serviceOf k'))]
  have hown : CreditsOwn ⟨s3, Function.update (fun _ => none) 0 (some run)⟩ := by
    apply h.of_exec
    simp only [Trace.exec, HookSystem.next, HookSystem.init, tmccRcvSkb, serviceOf, hadd1, hfound,
      hdel, hadd3, Option.bind_some]
    rfl
  have hkey := creditsOwn_iff.mp hown 0 run rfl
  simp only [run, hbucket, hcell3] at hkey
  exact hne (hkey trivial trivial).symm

end MulticastProxy.KernelClient
