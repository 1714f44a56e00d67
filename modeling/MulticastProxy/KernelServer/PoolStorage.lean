import MulticastProxy.KernelServer.IndexOwnership
import MulticastProxy.Library.Trace

/-!
# Kernel server: storage of the index pool

`get_idx` searches 1024 bits, the pool is one `unsigned long`. Which of the bits are reached
depends on how many groups are live.
-/

namespace MulticastProxy.KernelServer

set_option autoImplicit false

/-- Bits of the variable `bitmap` on a 64-bit kernel. -/
abbrev bitsPerLong : Nat := 64

section
variable (jhash1word : UInt32 → UInt32 → UInt32)

/-- The pool bits that a JOIN tests or clears. -/
def addTouches (s : State) (multiIp : UInt32) : List Nat :=
  match rawLookupMultiNode jhash1word s multiIp with
  | some _ => []
  | none => insertTouches multiGrpMax s.bitmap (Search.byteSearch
      (fun i => !(s.multiGrp (mulitHashKey jhash1word multiIp multiGrpBucket) i).created)
      multiGrpDepth 256 0)

/-- The pool bits that a command tests or clears. -/
def touchedBits (s : State) : NlMessage → List Nat
  | .serviceAdd service =>
    if service.action = multiOptJoin then addTouches jhash1word s service.multiIp else []
  | .serviceDel service =>
    match rawLookupMultiNode jhash1word s service.multiIp with
    | none => []
    | some row =>
      [(s.multiGrp (mulitHashKey jhash1word service.multiIp multiGrpBucket) row).multiGrpIdx.toNat]
  | .serverClear =>
    ((layout jhash1word).scan multiGrpBucket s.multiGrp).map fun p =>
      (s.multiGrp p.1 p.2).multiGrpIdx.toNat
  | .serviceCheckUpdate _ => []

/-- All bits touched lie in the variable. -/
def InStorage (s : State) (msg : NlMessage) : Prop :=
  ∀ bit ∈ touchedBits jhash1word s msg, bit < bitsPerLong

/-- A JOIN that makes a group runs while fewer than 64 are live. -/
def StorageRoom (s : State) : NlMessage → Prop
  | .serviceAdd service => service.action = multiOptJoin →
      nodeOf jhash1word s service.multiIp = none → (liveNodes jhash1word s).card < bitsPerLong
  | _ => True

/-- One owner for each index, and every bit that is set lies in the variable. -/
structure Stored (s : State) : Prop where
  wf : WellFormed jhash1word s
  own : IndexOwned s
  low : ∀ n, s.bitmap n = true → n < bitsPerLong

end

variable {jhash1word : UInt32 → UInt32 → UInt32}

theorem Stored.idx_lt {s : State} (h : Stored jhash1word s) {b i : Nat}
    (hl : (s.multiGrp b i).created = true) : (s.multiGrp b i).multiGrpIdx.toNat < bitsPerLong :=
  h.low _ ((h.own.bit _).mpr ⟨b, i, hl, rfl⟩)

theorem Stored.clear_iff {s : State} (h : Stored jhash1word s) :
    (∃ j < bitsPerLong, s.bitmap j = false) ↔ (liveNodes jhash1word s).card < bitsPerLong := by
  unfold liveNodes
  exact exists_clear_iff_card_lt h.wf mulitHashKey_lt ((indexOwned_iff h.wf).mp h.own) h.low

theorem Stored.add_inStorage_iff {s : State} (h : Stored jhash1word s) {g : UInt32}
    (hnew : nodeOf jhash1word s g = none) :
    (∀ bit ∈ addTouches jhash1word s g, bit < bitsPerLong) ↔
      (liveNodes jhash1word s).card < bitsPerLong := by
  unfold addTouches
  simp only [nodeOf_eq_none_iff.mp hnew]
  rw [insertTouches_lt_iff (by decide), h.clear_iff]

theorem Stored.inStorage_iff {s : State} (h : Stored jhash1word s) (msg : NlMessage) :
    InStorage jhash1word s msg ↔ StorageRoom jhash1word s msg := by
  unfold InStorage
  cases msg with
  | serviceAdd service =>
    simp only [touchedBits, StorageRoom]
    by_cases hjoin : service.action = multiOptJoin
    · simp only [hjoin, if_true, true_implies]
      cases hrow : rawLookupMultiNode jhash1word s service.multiIp with
      | none =>
        have hnew := nodeOf_eq_none_iff.mpr hrow
        rw [h.add_inStorage_iff hnew]
        exact ⟨fun hcard _ => hcard, fun hcard => hcard hnew⟩
      | some row =>
        have hfound := nodeOf_of_lookup hrow
        simp [addTouches, hrow, hfound]
    · simp [hjoin]
  | serviceDel service =>
    refine iff_of_true (fun bit hbit => ?_) trivial
    simp only [touchedBits] at hbit
    cases hrow : rawLookupMultiNode jhash1word s service.multiIp with
    | none => simp [hrow] at hbit
    | some row =>
      simp only [hrow, List.mem_singleton] at hbit
      exact hbit ▸ h.idx_lt (h.wf.lookup_iff.mp hrow).1
  | serverClear =>
    refine iff_of_true (fun bit hbit => ?_) trivial
    obtain ⟨p, hp, rfl⟩ := List.mem_map.mp hbit
    exact h.idx_lt ((BucketLayout.WellFormed.mem_scan h.wf mulitHashKey_lt).mp hp)
  | serviceCheckUpdate service =>
    exact iff_of_true (fun bit hbit => by simp [touchedBits] at hbit) trivial

theorem StorageRoom.poolRoom {s : State} {msg : NlMessage} (h : StorageRoom jhash1word s msg) :
    PoolRoom jhash1word s msg := by
  cases msg with
  | serviceAdd service => exact fun hjoin hnew => Nat.lt_trans (h hjoin hnew) (by decide)
  | serviceDel service => trivial
  | serverClear => trivial
  | serviceCheckUpdate service => trivial

theorem Stored.next {s s' : State} {msg : NlMessage} (h : Stored jhash1word s)
    (hnext : commandNext jhash1word s msg = some s') (hroom : StorageRoom jhash1word s msg) :
    Stored jhash1word s' := by
  obtain ⟨code, hret⟩ := commandNext_eq_some.mp hnext
  have heffect := tmccRcvSkb_effect h.wf hret
  refine ⟨tmccRcvSkb_wellFormed h.wf hret, heffect.indexOwned h.wf h.own hroom.poolRoom, ?_⟩
  intro n hn
  cases heffect with
  | same => exact h.low n hn
  | recounted _ recount => exact h.low n (recount.bitmap ▸ hn)
  | created join made =>
    obtain ⟨j, hj, hclear⟩ := h.clear_iff.mpr (hroom join made.fresh)
    rw [made.bitmap, Function.update_apply] at hn
    split at hn
    · rename_i hidx
      by_contra hge
      simp [made.lowest j (by omega)] at hclear
    · exact h.low n hn
  | deleted gone =>
    rw [gone.bitmap, Function.update_apply] at hn
    split at hn
    · simp at hn
    · exact h.low n hn
  | cleared => exact h.low n ((clearMultiGroup_bitmap h.wf n).mp hn).1

theorem stored_init : Stored jhash1word multiNodeInit :=
  ⟨multiNodeInit_wellFormed, multiNodeInit_indexOwned, fun _ hn => by simp [multiNodeInit] at hn⟩

theorem inStorage_run_iff (msgs : List NlMessage) :
    Trace.EachAttempt (commandNext jhash1word) (InStorage jhash1word) multiNodeInit msgs ↔
      Trace.EachAttempt (commandNext jhash1word) (StorageRoom jhash1word) multiNodeInit msgs :=
  Trace.eachAttempt_congr (I := Stored jhash1word)
    (fun _ msg _ h hnext hin => h.next hnext ((h.inStorage_iff msg).mp hin))
    (fun _ msg h => h.inStorage_iff msg) stored_init msgs

/-! ## The 65th group -/

theorem Reachable.exists_run {s : State} (h : Reachable jhash1word (fun _ _ => True) s) :
    ∃ msgs, Trace.exec (commandNext jhash1word) multiNodeInit msgs = some s := by
  induction h with
  | init => exact ⟨[], rfl⟩
  | @step _ _ msg _ _ _ hstep ih =>
    obtain ⟨msgs, hmsgs⟩ := ih
    refine ⟨msgs ++ [msg], ?_⟩
    rw [Trace.exec_append _ hmsgs, Trace.exec_cons (commandNext_eq_some.mpr ⟨_, hstep⟩)]
    rfl

/-- The JOIN of the 65th group tests bit 64, under every `jhash_1word`. -/
theorem exists_run_outside (jhash1word : UInt32 → UInt32 → UInt32) :
    ∃ msgs, ¬ Trace.EachAttempt (commandNext jhash1word) (InStorage jhash1word)
      multiNodeInit msgs := by
  obtain ⟨s, hs⟩ : ∃ s, Joined jhash1word s 64 := joined_of_le (by decide)
  obtain ⟨msgs, hmsgs⟩ := hs.reach.exists_run
  refine ⟨msgs ++ [joinMessage (groupAt 64) []], fun hall => ?_⟩
  have hin := hall.of_exec hmsgs
  have hnew : nodeOf jhash1word s (groupAt 64) = none :=
    hs.absent _ fun i hi he => by have := groupAt_inj (by omega) (by omega) he; omega
  have htouched : 64 ∈ touchedBits jhash1word s (joinMessage (groupAt 64) []) := by
    simp only [joinMessage, touchedBits, TmccNlServiceSt.ofList, if_true, addTouches,
      nodeOf_eq_none_iff.mp hnew]
    refine List.mem_append_left _ (mem_testedBits.mpr ⟨Nat.zero_le _, by decide, fun j _ hj => ?_⟩)
    exact (hs.bitmap j).mpr hj
  exact absurd (hin 64 htouched) (by decide)

end MulticastProxy.KernelServer
