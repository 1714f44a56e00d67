import MulticastProxy.LinuxClient.Group

/-!
# Linux client proxy: what an add leaves behind (`client_proxy/multi_grp.c`)

An entry has a group and a port, and the test for an entry that is there already compares the groups
alone.
-/

namespace MulticastProxy.LinuxClient

set_option autoImplicit false

/-- The table is emptied and filled again at every reload. -/
inductive Reachable : State → Prop
  | init : Reachable multiNodeInit
  | add {s s' : State} {multiIp serverIp : UInt32} {multiPort serverPort : UInt16} {code : Int} :
      Reachable s → addMultiNode s multiIp multiPort serverIp serverPort = .ret (code, s') →
      Reachable s'

/-- After an add that reports success or an entry that is there, the look-up of its key gives its
group and its port, and every other look-up gives what it gave before. -/
def LastWriterWins (s : State) (multiIp : UInt32) (multiPort : UInt16) (serverIp : UInt32)
    (serverPort : UInt16) : Prop :=
  ∀ code s', addMultiNode s multiIp multiPort serverIp serverPort = .ret (code, s') →
    code = 0 ∨ code = multiNodeExsit →
    (∃ index rowId, lookupIpPortNode s' serverIp serverPort =
      .ret (some (multiIp, multiPort, index, rowId))) ∧
    ∀ serverIp' serverPort', (serverIp', serverPort') ≠ (serverIp, serverPort) →
      lookupIpPortNode s' serverIp' serverPort' = lookupIpPortNode s serverIp' serverPort'

variable {s s' : State} {multiIp serverIp : UInt32} {multiPort serverPort : UInt16} {code : Int}

theorem WellFormed.add (wf : WellFormed s)
    (h : addMultiNode s multiIp multiPort serverIp serverPort = .ret (code, s')) :
    WellFormed s' := by
  rcases addMultiNode_cases wf multiIp multiPort serverIp serverPort with
    ⟨_, he⟩ | ⟨_, _, _, he⟩ | ⟨_, _, t, he, hwf, _⟩ | ⟨_, _, _, he⟩
  · rw [he] at h
    cases h
  · rw [he] at h
    obtain ⟨_, rfl⟩ := Prod.mk.inj (Outcome.ret.inj h)
    exact wf
  · rw [he] at h
    obtain ⟨_, rfl⟩ := Prod.mk.inj (Outcome.ret.inj h)
    exact hwf
  · rw [he] at h
    cases h

theorem Reachable.wellFormed (h : Reachable s) : WellFormed s := by
  induction h with
  | init => exact multiNodeInit_wellFormed
  | add _ hadd ih => exact WellFormed.add ih hadd

/-- An add stores into one cell at most, one that is free or has the key already. -/
theorem addMultiNode_put (wf : WellFormed s)
    (h : addMultiNode s multiIp multiPort serverIp serverPort = .ret (code, s')) :
    s' = s ∨ ∃ b i node, s' = ⟨BucketLayout.put s.multiGrp b i node⟩ ∧
      layout.key node = (serverIp, serverPort) ∧
      (layout.live (s.multiGrp b i) = true → layout.key (s.multiGrp b i) = (serverIp, serverPort)) := by
  unfold addMultiNode at h
  obtain ⟨found, hfound, h⟩ := Outcome.bind_eq_ret_iff.mp h
  have hrow : layout.find s.multiGrp (serverIp, serverPort) = found := by
    unfold rawLookupIpPortNode at hfound
    split at hfound
    · cases hfound
    · exact Outcome.ret.inj hfound
  cases found with
  | some row =>
    obtain ⟨_, hkey⟩ := wf.find_eq_some_iff.mp hrow
    simp only at h
    split at h
    · obtain ⟨_, rfl⟩ := Prod.mk.inj (Outcome.ret.inj h)
      exact Or.inl rfl
    · obtain ⟨_, rfl⟩ := Prod.mk.inj (Outcome.ret.inj h)
      exact Or.inr ⟨_, _, _, rfl, hkey, fun _ => hkey⟩
  | none =>
    simp only at h
    split at h
    · cases h
    · obtain ⟨_, rfl⟩ := Prod.mk.inj (Outcome.ret.inj h)
      exact Or.inl rfl
    · rename_i i hsearch
      obtain ⟨_, rfl⟩ := Prod.mk.inj (Outcome.ret.inj h)
      have hfree := Search.byteSearch_hit hsearch
      refine Or.inr ⟨_, i, _, rfl, rfl, fun hlive => ?_⟩
      simp only [Bool.not_eq_true'] at hfree
      rw [show layout.live _ = (s.multiGrp _ i).created from rfl, hfree] at hlive
      cases hlive

theorem lookupIpPortNode_other (wf : WellFormed s)
    (h : addMultiNode s multiIp multiPort serverIp serverPort = .ret (code, s')) {ip : UInt32}
    {port : UInt16} (hne : (ip, port) ≠ (serverIp, serverPort)) :
    lookupIpPortNode s' ip port = lookupIpPortNode s ip port := by
  have wf' := WellFormed.add wf h
  rcases addMultiNode_put wf h with rfl | ⟨b, i, node, rfl, hnew, hold⟩
  · rfl
  · have hfind : layout.find (BucketLayout.put s.multiGrp b i node) (ip, port) =
        layout.find s.multiGrp (ip, port) :=
      wf.find_put_of_ne wf' (fun hlive he => hne (he ▸ hold hlive)) fun he => hne (he ▸ hnew)
    unfold lookupIpPortNode rawLookupIpPortNode
    split
    · rfl
    · simp only [hfind, Outcome.ret_bind]
      cases hrow : layout.find s.multiGrp (ip, port) with
      | none => rfl
      | some row =>
        obtain ⟨hlive, hkey⟩ := wf.find_eq_some_iff.mp hrow
        have hcell : BucketLayout.put s.multiGrp b i node
            (ipPortHashKey ip port multiGrpBucket) row =
              s.multiGrp (ipPortHashKey ip port multiGrpBucket) row := by
          rw [BucketLayout.put_apply, if_neg]
          intro hcell
          obtain ⟨hb, hi⟩ := hcell
          rw [← hb, ← hi] at hold
          exact hne (hkey.symm.trans (hold hlive))
        simp only [hcell]

theorem lookupIpPortNode_eq_iff (hport : serverPort ≠ 0) :
    (∃ index rowId, lookupIpPortNode s serverIp serverPort =
      .ret (some (multiIp, multiPort, index, rowId))) ↔
    entry s (serverIp, serverPort) = some (multiIp, multiPort) := by
  obtain ⟨found, hret, hentry⟩ := lookupIpPortNode_eq s serverIp hport
  rw [hret, ← hentry]
  constructor
  · intro ⟨index, rowId, he⟩
    rw [Outcome.ret.inj he]
    rfl
  · intro he
    obtain ⟨⟨ip, port, index, rowId⟩, rfl, hpair⟩ := Option.map_eq_some_iff.mp he
    obtain ⟨rfl, rfl⟩ := Prod.mk.inj hpair
    exact ⟨index, rowId, rfl⟩

/-- An add has the last word exactly unless its key is there with its group and another port. -/
theorem last_writer_iff (h : Reachable s) (multiIp : UInt32) (multiPort : UInt16)
    (serverIp : UInt32) (hport : 0 < serverPort) :
    LastWriterWins s multiIp multiPort serverIp serverPort ↔
      ∀ port, entry s (serverIp, serverPort) = some (multiIp, port) → port = multiPort := by
  have hne : serverPort ≠ 0 := by
    rintro rfl
    exact absurd hport (by decide)
  constructor
  · intro hlast port hentry
    rcases addMultiNode_cases h.wellFormed multiIp multiPort serverIp serverPort with
      ⟨hzero, _⟩ | ⟨_, port', hentry', he⟩ | ⟨_, hother, _⟩ | ⟨_, hnone, _⟩
    · exact absurd hzero hne
    · have hgive := (lookupIpPortNode_eq_iff hne).mp (hlast _ _ he (Or.inr rfl)).1
      rw [hentry] at hgive
      exact (Prod.mk.inj (Option.some.inj hgive)).2
    · exact absurd hentry (hother port)
    · rw [hentry] at hnone
      cases hnone
  · intro hsame code s' hadd _
    refine ⟨(lookupIpPortNode_eq_iff hne).mpr ?_, fun ip port hother =>
      lookupIpPortNode_other h.wellFormed hadd hother⟩
    rcases addMultiNode_cases h.wellFormed multiIp multiPort serverIp serverPort with
      ⟨hzero, _⟩ | ⟨_, port, hentry, he⟩ | ⟨_, _, t, he, _, hupdate⟩ | ⟨_, _, _, he⟩
    · exact absurd hzero hne
    · rw [he] at hadd
      obtain ⟨_, rfl⟩ := Prod.mk.inj (Outcome.ret.inj hadd)
      rw [hentry, hsame port hentry]
    · rw [he] at hadd
      obtain ⟨_, rfl⟩ := Prod.mk.inj (Outcome.ret.inj hadd)
      rw [hupdate, Function.update_self]
    · rw [he] at hadd
      cases hadd

/-- Port 7000 of 10.0.0.1 goes to 225.0.0.1:5000. -/
theorem exists_oneEntry :
    ∃ s, Reachable s ∧ entry s (0x0100000a, 7000) = some (0x010000e1, 5000) := by
  rcases addMultiNode_cases multiNodeInit_wellFormed 0x010000e1 5000 0x0100000a 7000 with
    ⟨hzero, _⟩ | ⟨_, _, hentry, _⟩ | ⟨_, _, s, hadd, _, hentry⟩ | ⟨_, _, hfull, _⟩
  · exact absurd hzero (by decide)
  · rw [entry_multiNodeInit] at hentry
    cases hentry
  · exact ⟨s, .add .init hadd, by rw [hentry, Function.update_self]⟩
  · cases hfull 0 (by decide)

/-- An add gives the key another group and port. -/
theorem last_writer_other : ∃ s, entry s (0x0100000a, 7000) = some (0x010000e1, 5000) ∧
    LastWriterWins s 0x020000e1 6000 0x0100000a 7000 := by
  obtain ⟨s, hs, hentry⟩ := exists_oneEntry
  refine ⟨s, hentry, (last_writer_iff hs 0x020000e1 6000 0x0100000a (by decide)).mpr ?_⟩
  intro port hsame
  rw [hentry] at hsame
  exact absurd (Prod.mk.inj (Option.some.inj hsame)).1 (by decide)

/-- An add gives the key 225.0.0.1:5001: the old port stays. -/
theorem not_last_writer : ¬ ∀ s, Reachable s → ∀ multiIp multiPort serverIp serverPort,
    0 < serverPort → LastWriterWins s multiIp multiPort serverIp serverPort := by
  intro hall
  have hport : (0 : UInt16) < 7000 := by decide
  obtain ⟨s, hs, hentry⟩ := exists_oneEntry
  have hsame := (last_writer_iff hs 0x010000e1 5001 0x0100000a hport).mp
    (hall s hs 0x010000e1 5001 0x0100000a 7000 hport) 5000 hentry
  exact absurd hsame (by decide)

end MulticastProxy.LinuxClient
