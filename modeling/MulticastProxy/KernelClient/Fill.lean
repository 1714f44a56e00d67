import MulticastProxy.KernelClient.Sync

/-!
# Kernel client: filling a table

The free-cell loop counts in a byte, so entries only ever stand in the first 256 rows of a bucket.
A list of entries that keeps to this bound is taken up by a table, whatever their order.
-/

namespace MulticastProxy.KernelClient

set_option autoImplicit false

def serviceOf (k : Key) : TmccNlServiceSt := ⟨k.2, k.1, 0xE1000001⟩

/-- No entry stands beyond the rows that a byte can count. -/
def RowsOk (s : State) : Prop := ∀ b i, (s.multiGrp b i).created = true → i < 256

section
variable (jhash2words : UInt32 → UInt32 → UInt32 → UInt32)

/-- Keys that occur once, no more than a table has room for, in all and in each bucket. -/
structure Loadable (keys : List Key) : Prop where
  nodup : keys.Nodup
  length : keys.length ≤ multiGrpMax
  bucket : ∀ b, (keys.filter fun k => bucketOf jhash2words k = b).length ≤ 256

end

variable {jhash2words : UInt32 → UInt32 → UInt32 → UInt32}

/-! ## Rows of a reachable table -/

theorem RowsOk.put {s s' : State} (h : RowsOk s) {b i : Nat} {node : MultiNode} (hi : i < 256)
    (hs' : s'.multiGrp = BucketLayout.put s.multiGrp b i node) : RowsOk s' := by
  intro b' i' hl
  rw [hs', BucketLayout.put_apply] at hl
  split at hl
  · rename_i hcell
    rw [hcell.2]
    exact hi
  · exact h b' i' hl

theorem RowsOk.addMultiNode {s s' : State} (h : RowsOk s) (wf : WellFormed jhash2words s)
    {multiIp ip : UInt32} {port : UInt16} {code : Int}
    (hadd : addMultiNode jhash2words s multiIp ip port = .ret (code, s')) : RowsOk s' := by
  rcases addMultiNode_ret hadd with ⟨rfl, _⟩ | ⟨_, hins⟩
  · exact h
  · rcases insertMultiNode_inv hins with
      ⟨rfl, _⟩ | ⟨_, row, hrow, _, hs'⟩ | ⟨_, _, i, hi, _, _, hs'⟩
    · exact h
    · exact h.put (h _ row (wf.lookup_iff.mp hrow).1) (congrArg State.multiGrp hs')
    · exact h.put hi (congrArg State.multiGrp hs')

theorem RowsOk.delMultiNode {s : State} (h : RowsOk s) (wf : WellFormed jhash2words s)
    (ip : UInt32) (port : UInt16) : RowsOk (delMultiNode jhash2words s ip port).2 := by
  unfold KernelClient.delMultiNode
  split
  · exact h
  · rename_i row hrow
    intro b i hl
    by_cases hb : b = ipPortHashKey jhash2words ip port multiGrpBucket
    · subst hb
      have hnext := (BucketLayout.WellFormed.live_remove wf.table (wf.lookup_iff.mp hrow).1
        moveNode_spec wipeNode_free i).mp hl
      have hlt := h _ _ hnext
      omega
    · simp only [BucketLayout.WellFormed.remove_bucket_ne hb] at hl
      exact h b i hl

theorem RowsOk.tmccRcvSkb {s s' : State} (h : RowsOk s) (wf : WellFormed jhash2words s)
    {msg : NlMessage} {code : Int} (hstep : tmccRcvSkb jhash2words s msg = .ret (code, s')) :
    RowsOk s' := by
  cases msg with
  | serviceAdd service => exact h.addMultiNode wf hstep
  | serviceDel service =>
    simp only [KernelClient.tmccRcvSkb, Outcome.ret.injEq] at hstep
    have hs' : s' = (KernelClient.delMultiNode jhash2words s service.serverIp service.port).2 := by
      rw [hstep]
    rw [hs']
    exact h.delMultiNode wf _ _
  | clientClear =>
    simp only [KernelClient.tmccRcvSkb, Outcome.ret.injEq] at hstep
    have hs' : s' = (clearMultiNode s).2 := by rw [hstep]
    intro b i hl
    rw [hs', clearMultiNode_free wf] at hl
    cases hl

theorem Reachable.rowsOk {s : State} (h : Reachable jhash2words s) : RowsOk s := by
  induction h with
  | init =>
    intro b i hl
    cases hl
  | step hreach hstep ih => exact ih.tmccRcvSkb hreach.wellFormed hstep

/-! ## Entries that a table takes up -/

theorem Loadable.of_append {keys keys' : List Key} (h : Loadable jhash2words (keys ++ keys')) :
    Loadable jhash2words keys where
  nodup := (List.nodup_append.mp h.nodup).1
  length := by
    have hlen := h.length
    rw [List.length_append] at hlen
    omega
  bucket := fun b => by
    have hb := h.bucket b
    rw [List.filter_append, List.length_append] at hb
    omega

theorem Sim.loadable {es : Entries} {s : State} (sim : Sim jhash2words es s) (h : RowsOk s) :
    Loadable jhash2words (es.map Prod.fst) where
  nodup := sim.nodup
  length := by
    have hlen := sim.length
    have hbound := sim.wf.bound
    rw [List.length_map]
    omega
  bucket := fun b => by
    have hnd := sim.nodup.filter fun k => decide (bucketOf jhash2words k = b)
    rw [← List.toFinset_card_of_nodup hnd]
    refine sim.wf.table.card_keys_le_of_row (b := b) (fun k hk => ?_) fun i hl => h b i hl
    rw [List.mem_toFinset, List.mem_filter, decide_eq_true_eq] at hk
    refine ⟨hk.2, fun hnone => ?_⟩
    have hget : AssocList.get es k = none := by rw [sim.maps, entry, hnone, Option.map_none]
    exact AssocList.get_eq_none_iff.mp hget hk.1

/-- A new key finds a free cell where its bucket has fewer than 256 others. -/
theorem Sim.exists_free {es : Entries} {s : State} (sim : Sim jhash2words es s) {k : Key}
    (h : ∀ b, ((es.map Prod.fst ++ [k]).filter fun k => bucketOf jhash2words k = b).length ≤ 256) :
    ∃ i < 256, (s.multiGrp (bucketOf jhash2words k) i).created = false := by
  let others := (es.map Prod.fst).filter fun k' =>
    decide (bucketOf jhash2words k' = bucketOf jhash2words k)
  have hfew : others.toFinset.card < 256 := by
    have hbucket := h (bucketOf jhash2words k)
    have hself : [k].filter (fun k' =>
        decide (bucketOf jhash2words k' = bucketOf jhash2words k)) = [k] := by
      rw [List.filter_singleton, decide_eq_true rfl]
      rfl
    rw [List.filter_append, List.length_append, hself, List.length_singleton] at hbucket
    exact Nat.lt_of_le_of_lt (List.toFinset_card_le others) hbucket
  refine sim.wf.table.exists_free_of_keys (fun i hl => ?_) hfew
  rw [List.mem_toFinset, List.mem_filter, decide_eq_true_eq]
  refine ⟨?_, sim.wf.table.home _ i hl⟩
  by_contra hne
  have hget := AssocList.get_eq_none_iff.mpr hne
  rw [sim.maps, entry, sim.wf.table.content_of_cell hl] at hget
  cases hget

theorem Loadable.get_eq_none {es : Entries} {k : Key}
    (h : Loadable jhash2words (es.map Prod.fst ++ [k])) : AssocList.get es k = none := by
  rw [AssocList.get_eq_none_iff]
  exact fun hmem => (List.nodup_append.mp h.nodup).2.2 _ hmem _ (List.mem_singleton_self _) rfl

theorem Loadable.length_lt {es : Entries} {k : Key}
    (h : Loadable jhash2words (es.map Prod.fst ++ [k])) : es.length < multiGrpMax := by
  have hmax := h.length
  rw [List.length_append, List.length_map, List.length_singleton] at hmax
  omega

theorem Sim.addMultiNode {es : Entries} {s : State} (sim : Sim jhash2words es s) {e : Key × UInt32}
    (h : Loadable jhash2words (es.map Prod.fst ++ [e.1])) :
    ∃ s', addMultiNode jhash2words s e.2 e.1.1 e.1.2 = .ret (0, s') ∧
      Sim jhash2words (es ++ [e]) s' := by
  obtain ⟨⟨ip, port⟩, g⟩ := e
  have hlen := sim.length
  have hlt := h.length_lt
  have hnew : AssocList.get es (ip, port) = none := h.get_eq_none
  have hnone : entry jhash2words s (ip, port) = none := by rw [← sim.maps, hnew]
  obtain ⟨i, hi, hfree⟩ := sim.exists_free h.bucket
  obtain ⟨s', hs'⟩ := addMultiNode_returns g (by omega) hnone hi hfree
  refine ⟨s', hs', ?_⟩
  rcases addMultiNode_cases sim.wf hs' with ⟨_, ⟨h0, _⟩ | ⟨h0, _⟩⟩ | ⟨_, _, hwf, _, hentry⟩
  · simp at h0
  · simp at h0
  · refine ⟨hwf, AssocList.nodup_concat sim.nodup hnew g, ?_⟩
    rw [AssocList.get_concat hnew, hentry, sim.maps]

end MulticastProxy.KernelClient
