import MulticastProxy.KernelServer.TableInvariant

/-!
# Kernel server: what a failed request leaves behind

A JOIN of a new group draws an index, claims a cell and fills the row, in this order. Only the
failure between the first two is undone.
-/

namespace MulticastProxy.KernelServer

set_option autoImplicit false

/-- Nodes with their counts, rows and pool as they were. -/
structure Unchanged (s s' : State) : Prop where
  multiGrp : s'.multiGrp = s.multiGrp
  multiVm : s'.multiVm = s.multiVm
  bitmap : s'.bitmap = s.bitmap

theorem Unchanged.refl (s : State) : Unchanged s s := ⟨rfl, rfl, rfl⟩

/-- A call that returns a code other than 0 has changed nothing. -/
def Atomic (s : State) (call : Outcome (Int × State)) : Prop :=
  ∀ code s', call = .ret (code, s') → code ≠ 0 → Unchanged s s'

section
variable (jhash1word : UInt32 → UInt32 → UInt32)

/-- A new group for which an index and a cell are found, and a list longer than a row. -/
structure RefusedLate (s : State) (g : UInt32) (ipNum : UInt32) : Prop where
  fresh : nodeOf jhash1word s g = none
  index : ∃ idx < multiGrpMax, s.bitmap idx = false
  cell : ∃ i < 256, (s.multiGrp (mulitHashKey jhash1word g multiGrpBucket) i).created = false
  long : multiVmMax < ipNum.toNat

end

variable {jhash1word : UInt32 → UInt32 → UInt32}

theorem Atomic.unchanged (s : State) (code : Int) : Atomic s (.ret (code, s)) := by
  intro _ _ h _
  obtain ⟨_, rfl⟩ := Prod.mk.inj (Outcome.ret.inj h)
  exact .refl s

theorem Atomic.succeeded (s s' : State) : Atomic s (.ret (0, s')) := by
  intro code _ h hcode
  obtain ⟨rfl, _⟩ := Prod.mk.inj (Outcome.ret.inj h)
  exact absurd rfl hcode

/-- Members of a group that is there are added or refused as a whole. -/
theorem Atomic.extend (s : State) (b row : Nat) (ipList : Nat → UInt32) (ipNum : Nat) :
    Atomic s (extendNode s b row ipList ipNum) := by
  intro code s' h hcode
  obtain ⟨ret, multiVm, cnt, hadd, rfl, rfl⟩ := extendNode_ret h
  rcases addVmIpList_ret hadd with ⟨_, rfl, rfl, _⟩ | ⟨rfl, _⟩
  · exact ⟨BucketLayout.put_self s.multiGrp b row, rfl, rfl⟩
  · exact absurd rfl hcode

theorem appendVmIpList_atomic (s : State) (g : UInt32) (ipList : Nat → UInt32) (ipNum : Nat) :
    Atomic s (appendVmIpList jhash1word s g ipList ipNum) := by
  cases hrow : rawLookupMultiNode jhash1word s g with
  | none =>
    rw [appendVmIpList_of_absent hrow]
    exact .unchanged s _
  | some row =>
    rw [appendVmIpList_of_lookup hrow]
    exact .extend s _ row ipList ipNum

theorem vmQuitFromMultiGrp_atomic (s : State) (g : UInt32) (ipList : Nat → UInt32) (ipNum : Nat) :
    Atomic s (.ret (vmQuitFromMultiGrp jhash1word s g ipList ipNum)) := by
  unfold vmQuitFromMultiGrp
  cases rawLookupMultiNode jhash1word s g with
  | none => exact .unchanged s _
  | some row => exact .succeeded s _

/-! ## JOIN -/

/-- The index drawn for a new group goes back only where its bucket has no cell. -/
theorem putIdx_update {bitmap : Nat → Bool} {idx : Nat} (hclear : bitmap idx = false) :
    putIdx (Function.update bitmap idx true) idx = bitmap := by
  rw [putIdx, Function.update_idem, ← hclear, Function.update_eq_self]

theorem addMultiNode_new {s s' : State} {g : UInt32} {ipList : Nat → UInt32} {ipNum : UInt32}
    {code : Int} (hfresh : rawLookupMultiNode jhash1word s g = none)
    (h : addMultiNode jhash1word s g ipList ipNum.toNat = .ret (code, s')) (hcode : code ≠ 0) :
    Unchanged s s' ∨ RefusedLate jhash1word s g ipNum := by
  unfold addMultiNode at h
  simp only [hfresh] at h
  cases hget : getIdx multiGrpMax s.bitmap with
  | none =>
    simp only [hget] at h
    obtain ⟨_, rfl⟩ := Prod.mk.inj (Outcome.ret.inj h)
    exact Or.inl (.refl s)
  | some p =>
    obtain ⟨idx, bitmap⟩ := p
    obtain ⟨hidx, hclear, _, rfl⟩ := getIdx_eq_some hget
    simp only [hget] at h
    split at h
    · simp at h
    · obtain ⟨_, rfl⟩ := Prod.mk.inj (Outcome.ret.inj h)
      exact Or.inl ⟨rfl, rfl, putIdx_update hclear⟩
    · rename_i i hsearch
      obtain ⟨⟨ret, multiVm, cnt⟩, hadd, hret⟩ := Outcome.bind_eq_ret_iff.mp h
      obtain ⟨rfl, _⟩ := Prod.mk.inj (Outcome.ret.inj hret)
      rcases addVmIpList_ret hadd with ⟨_, _, _, hbig⟩ | ⟨rfl, _⟩
      · rw [Nat.add_zero, Nat.mod_eq_of_lt ipNum.toNat_lt] at hbig
        refine Or.inr ⟨nodeOf_eq_none_iff.mpr hfresh, ⟨idx, hidx, hclear⟩, ?_, hbig⟩
        rcases searchCell s (mulitHashKey jhash1word g multiGrpBucket) with
          ⟨r, hr, _, hfree, _⟩ | ⟨hnone, _⟩
        · exact ⟨r, hr, hfree⟩
        · rw [hnone] at hsearch
          simp at hsearch
      · exact absurd rfl hcode

/-- The refused list leaves the group in the table and its index taken. -/
theorem RefusedLate.leaves {s : State} {g : UInt32} {ipNum : UInt32}
    (h : RefusedLate jhash1word s g ipNum) (ipList : Nat → UInt32) :
    ∃ s' idx, addMultiNode jhash1word s g ipList ipNum.toNat = .ret (multiParamError, s') ∧
      s.bitmap idx = false ∧ s'.bitmap idx = true := by
  obtain ⟨free, hfree, hbit⟩ := h.index
  obtain ⟨i, hi, hcell⟩ := h.cell
  unfold addMultiNode
  simp only [nodeOf_eq_none_iff.mp h.fresh]
  cases hget : getIdx multiGrpMax s.bitmap with
  | none => simp [getIdx_eq_none_iff.mp hget free hfree] at hbit
  | some p =>
    obtain ⟨idx, bitmap⟩ := p
    obtain ⟨_, hclear, _, rfl⟩ := getIdx_eq_some hget
    rcases searchCell s (mulitHashKey jhash1word g multiGrpBucket) with
      ⟨r, _, hs, _⟩ | ⟨_, hbusy⟩
    · have hguard : multiVmMax < (ipNum.toNat + 0) % 2 ^ 32 := by
        rw [Nat.add_zero, Nat.mod_eq_of_lt ipNum.toNat_lt]
        exact h.long
      simp only [hs, addVmIpList, if_pos hguard, Outcome.ret_bind]
      exact ⟨_, idx, rfl, hclear, Function.update_self ..⟩
    · simp [hbusy i hi] at hcell

theorem addMultiNode_atomic_iff (s : State) (g : UInt32) (ipList : Nat → UInt32) (ipNum : UInt32) :
    Atomic s (addMultiNode jhash1word s g ipList ipNum.toNat) ↔
      ¬ RefusedLate jhash1word s g ipNum := by
  constructor
  · intro hatomic hlate
    obtain ⟨s', idx, hret, hclear, hset⟩ := hlate.leaves ipList
    have hsame := (hatomic _ s' hret (by decide)).bitmap
    rw [hsame, hclear] at hset
    exact absurd hset (by decide)
  · intro hlate
    cases hrow : rawLookupMultiNode jhash1word s g with
    | some row =>
      rw [addMultiNode_of_lookup hrow]
      exact .extend s _ row ipList _
    | none =>
      intro code s' h hcode
      exact (addMultiNode_new hrow h hcode).resolve_right hlate

/-- In every table QUIT and append are atomic, and so is a JOIN unless it makes a group for a list
longer than a row. -/
theorem error_atomicity_iff (jhash1word : UInt32 → UInt32 → UInt32) (s : State) (g : UInt32)
    (ipList : Nat → UInt32) (ipNum : UInt32) :
    (Atomic s (addMultiNode jhash1word s g ipList ipNum.toNat) ↔
      ¬ RefusedLate jhash1word s g ipNum) ∧
    Atomic s (.ret (vmQuitFromMultiGrp jhash1word s g ipList ipNum.toNat)) ∧
    Atomic s (appendVmIpList jhash1word s g ipList ipNum.toNat) :=
  ⟨addMultiNode_atomic_iff s g ipList ipNum, vmQuitFromMultiGrp_atomic s g ipList _,
    appendVmIpList_atomic s g ipList _⟩

/-- The first JOIN, with 1025 addresses. -/
theorem not_error_atomicity : ¬ ∃ jhash1word : UInt32 → UInt32 → UInt32,
    ∀ s, Reachable jhash1word (fun _ _ => True) s → ∀ g ipList, ∀ ipNum : UInt32,
      Atomic s (addMultiNode jhash1word s g ipList ipNum.toNat) ∧
      Atomic s (.ret (vmQuitFromMultiGrp jhash1word s g ipList ipNum.toNat)) ∧
      Atomic s (appendVmIpList jhash1word s g ipList ipNum.toNat) := by
  rintro ⟨jhash1word, hall⟩
  refine (addMultiNode_atomic_iff multiNodeInit 0xE1000001 (fun i => UInt32.ofNat i) 1025).mp
    (hall _ .init _ _ _).1 ⟨nodeOf_multiNodeInit _, ⟨0, by decide, rfl⟩, ⟨0, by decide, rfl⟩, ?_⟩
  decide

end MulticastProxy.KernelServer
