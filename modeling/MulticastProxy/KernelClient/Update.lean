import MulticastProxy.KernelClient.Capacity
import MulticastProxy.KernelClient.Deletion
import MulticastProxy.KernelClient.FreeSlot

/-!
# Kernel client: update of an entry (`add_multi_node`)

An add of a key that is there rewrites its group. The check of the capacity comes first and knows
nothing of the key.
-/

namespace MulticastProxy.KernelClient

set_option autoImplicit false

section
variable (jhash2words : UInt32 → UInt32 → UInt32 → UInt32)

/-- An add of `k` that returns `code` gives `k` its group, and that is all. -/
structure UpdatesEntry (s : State) (k : Key) (multiIp : UInt32) (code : Int) (s' : State) :
    Prop where
  code : code = if entry jhash2words s k = some multiIp then multiNodeExsit else 0
  group : (lookupIpPortNode jhash2words s' k.1 k.2).map Prod.fst = some multiIp
  count : s'.nodeCnt = s.nodeCnt
  counters : getMultiPacketsStats jhash2words s' k.1 k.2 =
    getMultiPacketsStats jhash2words s k.1 k.2
  others : ∀ k' ≠ k,
    (layout jhash2words).content s'.multiGrp k' = (layout jhash2words).content s.multiGrp k'

end

variable {jhash2words : UInt32 → UInt32 → UInt32 → UInt32}

theorem addMultiNode_full {s : State} (hfull : multiGrpMax ≤ s.nodeCnt) (multiIp ip : UInt32)
    (port : UInt16) : addMultiNode jhash2words s multiIp ip port = .ret (multiTblFull, s) := by
  rw [addMultiNode_eq, if_pos hfull]

def State.setGroup (s : State) (b row : Nat) (multiIp : UInt32) : State :=
  { s with multiGrp := BucketLayout.put s.multiGrp b row { s.multiGrp b row with multiIp } }

theorem addMultiNode_present {s : State} {k : Key} {row : Nat}
    (hrow : rawLookupIpPortNode jhash2words s k.1 k.2 = some row) (hroom : s.nodeCnt < multiGrpMax)
    (multiIp : UInt32) : addMultiNode jhash2words s multiIp k.1 k.2 =
      if (s.multiGrp (bucketOf jhash2words k) row).multiIp = multiIp then .ret (multiNodeExsit, s)
      else .ret (0, s.setGroup (bucketOf jhash2words k) row multiIp) := by
  rw [addMultiNode_eq, if_neg (by omega), insertMultiNode]
  simp only [hrow]
  rfl

theorem content_setGroup {s : State} (wf : WellFormed jhash2words s) {k : Key} {row : Nat}
    (hrow : rawLookupIpPortNode jhash2words s k.1 k.2 = some row) (multiIp : UInt32) :
    (layout jhash2words).content (s.setGroup (bucketOf jhash2words k) row multiIp).multiGrp =
      Function.update ((layout jhash2words).content s.multiGrp) k
        (some { s.multiGrp (bucketOf jhash2words k) row with multiIp }) := by
  obtain ⟨hlive, hkey⟩ := cell_of_lookup wf hrow
  have hcontent := BucketLayout.WellFormed.content_replace wf.table hlive
    (c := { s.multiGrp (bucketOf jhash2words k) row with multiIp }) hlive rfl
  rw [hkey] at hcontent
  exact hcontent

theorem updatesEntry_setGroup {s : State} (wf : WellFormed jhash2words s) {k : Key} {row : Nat}
    (hrow : rawLookupIpPortNode jhash2words s k.1 k.2 = some row) {multiIp : UInt32}
    (hdiff : (s.multiGrp (bucketOf jhash2words k) row).multiIp ≠ multiIp) :
    UpdatesEntry jhash2words s k multiIp 0 (s.setGroup (bucketOf jhash2words k) row multiIp) := by
  have hcontent := content_setGroup wf hrow multiIp
  refine ⟨?_, ?_, rfl, ?_, ?_⟩
  · rw [if_neg]
    rw [entry, content_of_lookup hrow]
    exact fun he => hdiff (Option.some.inj he)
  · rw [lookupIpPortNode_eq, entry, hcontent, Function.update_self]
    rfl
  · rw [getMultiPacketsStats_eq, getMultiPacketsStats_eq, hcontent, Function.update_self,
      content_of_lookup hrow]
    rfl
  · intro k' hne
    rw [hcontent, Function.update_of_ne hne]

theorem not_updatesEntry_full {s : State} (hfull : multiGrpMax ≤ s.nodeCnt) {k : Key}
    {multiIp : UInt32} :
    ¬ ∃ code s', addMultiNode jhash2words s multiIp k.1 k.2 = .ret (code, s') ∧
      UpdatesEntry jhash2words s k multiIp code s' := by
  rintro ⟨code, s', hadd, hupdate⟩
  rw [addMultiNode_full hfull] at hadd
  have hcode := hupdate.code
  rw [← (Prod.mk.inj (Outcome.ret.inj hadd)).1] at hcode
  split at hcode
  · cases hcode
  · cases hcode

/-- For every table and every entry: an add updates the entry, or reports that it has the group
already, exactly where the table is not full. -/
theorem addMultiNode_update_iff {s : State} (h : Counted jhash2words s) {k : Key}
    (hk : entry jhash2words s k ≠ none) (multiIp : UInt32) :
    (∃ code s', addMultiNode jhash2words s multiIp k.1 k.2 = .ret (code, s') ∧
      UpdatesEntry jhash2words s k multiIp code s') ↔ s.nodeCnt < multiGrpMax := by
  have wf := h.wellFormed
  obtain ⟨row, hrow⟩ := exists_lookup_of_entry hk
  constructor
  · intro hupdate
    by_contra hfull
    exact not_updatesEntry_full (by omega) hupdate
  · intro hroom
    rw [addMultiNode_present hrow hroom]
    split
    · rename_i hsame
      have hentry : entry jhash2words s k = some multiIp := by
        rw [entry, content_of_lookup hrow, ← hsame]
        rfl
      refine ⟨_, s, rfl, ?_, ?_, rfl, rfl, fun _ _ => rfl⟩
      · rw [if_pos hentry]
      · rw [lookupIpPortNode_eq, hentry]
    · rename_i hdiff
      exact ⟨0, _, rfl, updatesEntry_setGroup wf hrow hdiff⟩

/-! ## A full table -/

theorem Reachable.exec {s : State} (h : Reachable jhash2words s) :
    ∃ acts, Trace.exec (HookSystem.next jhash2words) HookSystem.init acts =
      some ⟨s, fun _ => none⟩ := by
  induction h with
  | init => exact ⟨[], rfl⟩
  | @step s s' msg code _ hstep ih =>
    obtain ⟨acts, hexec⟩ := ih
    refine ⟨acts ++ [.command msg], ?_⟩
    rw [Trace.exec_append _ hexec]
    simp only [Trace.exec, HookSystem.next, hstep, Option.bind_some]

theorem Reachable.counted {s : State} (h : Reachable jhash2words s) : Counted jhash2words s := by
  obtain ⟨acts, hexec⟩ := h.exec
  exact ⟨acts, _, hexec, rfl⟩

/-- Where the keys spread, commands fill a table. -/
theorem Spreads.exists_full (h : Spreads jhash2words) :
    ∃ s k, Reachable jhash2words s ∧ entry jhash2words s k ≠ none ∧ s.nodeCnt = multiGrpMax := by
  obtain ⟨keys, hlen, hnodup, hbucket⟩ := h
  obtain ⟨k, keys, rfl⟩ : ∃ k keys', keys = k :: keys' := List.exists_cons_of_length_eq_add_one hlen
  rw [List.length_cons] at hlen
  have hload : Loadable jhash2words keys := by
    refine ⟨(List.nodup_cons.mp hnodup).2, by omega, fun b => ?_⟩
    apply le_trans _ (hbucket b)
    exact ((List.sublist_cons_self k keys).filter _).length_le
  obtain ⟨es, s, hreach, sim, hes⟩ := hload.exists_reachable
  have heslen : es.length = keys.length := by rw [← hes, List.length_map]
  have hcnt : s.nodeCnt = multiGrpMax := by
    rw [← sim.length, heslen]
    omega
  have hlen' : keys.length = 1023 + 1 := Nat.succ.inj hlen
  obtain ⟨k', keys', rfl⟩ := List.exists_cons_of_length_eq_add_one hlen'
  refine ⟨s, k', hreach, ?_, hcnt⟩
  rw [← sim.maps]
  intro hnone
  apply AssocList.get_eq_none_iff.mp hnone
  rw [hes]
  exact List.mem_cons_self

/-- One entry, which gets a new group. -/
theorem addMultiNode_update_one : ∃ s code s',
    addMultiNode (fun a _ _ => a) s 0xE1000002 0x0A000001 5000 = .ret (code, s') ∧
      UpdatesEntry (fun a _ _ => a) s (0x0A000001, 5000) 0xE1000002 code s' := by
  obtain ⟨s, hadd, hentry⟩ :=
    addMultiNode_multiNodeInit (fun a _ _ => a) 0xE1000001 0x0A000001 5000
  have hstep : tmccRcvSkb (fun a _ _ => a) multiNodeInit
      (.serviceAdd ⟨5000, 0x0A000001, 0xE1000001⟩) = .ret (0, s) := hadd
  have hreach : Reachable (fun a _ _ => a) s := .step .init hstep
  have hk : entry (fun a _ _ => a) s (0x0A000001, 5000) ≠ none := by
    rw [hentry, if_pos rfl]
    exact Option.some_ne_none _
  have hroom : s.nodeCnt < multiGrpMax := by
    apply lt_of_le_of_lt (nodeCnt_addMultiNode hadd)
    decide
  exact ⟨s, (addMultiNode_update_iff hreach.counted hk 0xE1000002).mpr hroom⟩

/-- Where the table is full, no entry gets another group, and none is reported as there. Tables that
are full can be reached wherever the keys spread. -/
theorem not_addMultiNode_update : (∃ jhash2words, Spreads jhash2words) ∧
    ∀ jhash2words, Spreads jhash2words → ∃ s k, Counted jhash2words s ∧
      entry jhash2words s k ≠ none ∧ ∀ multiIp : UInt32,
        addMultiNode jhash2words s multiIp k.1 k.2 = .ret (multiTblFull, s) ∧
        ¬ ∃ code s', addMultiNode jhash2words s multiIp k.1 k.2 = .ret (code, s') ∧
          UpdatesEntry jhash2words s k multiIp code s' := by
  refine ⟨⟨_, spreads_first⟩, fun jhash2words hspreads => ?_⟩
  obtain ⟨s, k, hreach, hk, hcnt⟩ := hspreads.exists_full
  refine ⟨s, k, hreach.counted, hk, fun multiIp => ?_⟩
  exact ⟨addMultiNode_full hcnt.ge multiIp k.1 k.2, not_updatesEntry_full hcnt.ge⟩

end MulticastProxy.KernelClient
