import MulticastProxy.KernelServer.PoolStorage
import MulticastProxy.WinServer.Group
import MulticastProxy.Library.Ownership
import MulticastProxy.Library.Trace

/-!
# Windows proxy: storage of the index pool

`get_idx` searches 256 bits, the pool is one `unsigned long`, which has 32 bits there. The kernel
server shares the text and has 64 bits; the Linux server proxy has an array with a bit for each
group instead.
-/

namespace MulticastProxy.WinServer

set_option autoImplicit false

/-- Bits of the variable `g_bitmap` on Windows. -/
abbrev bitsPerLong : Nat := 32

/-- The table after a call that returned. -/
def Call.next (s : State) (call : Call) : Option State :=
  match call.run s with
  | .ret (_, s') => some s'
  | .hang => none
  | .fault => none

/-- The pool bits that a call tests or clears. -/
def touchedBits (s : State) : Call → List Nat
  | .init => []
  | .add multiIp multiPort _ _ _ =>
    match rawLookupMultiNode s multiIp multiPort with
    | some _ => []
    | none => insertTouches multiGrpMax s.gBitmap (Search.byteSearch
        (fun i => !(s.multiGrp (mulitHashKey multiIp multiPort multiGrpBucket) i).created)
        multiGrpDepth 256 0)

/-- All bits touched lie in the variable. -/
def InStorage (s : State) (call : Call) : Prop := ∀ bit ∈ touchedBits s call, bit < bitsPerLong

/-- An add of a new group runs while fewer than 32 are live. -/
def StorageRoom (s : State) : Call → Prop
  | .init => True
  | .add multiIp multiPort _ _ _ =>
    nodeOf s (multiIp, multiPort) = none → (liveNodes s).card < bitsPerLong

/-- One owner for each index, and every bit that is set lies in the variable. -/
structure Stored (s : State) : Prop where
  wf : WellFormed s
  own : Owned (nodeOf s) grpIdx s.gBitmap
  low : ∀ n, s.gBitmap n = true → n < bitsPerLong

theorem stored_init : Stored multiNodeInit :=
  ⟨multiNodeInit_wellFormed, Owned.of_empty nodeOf_multiNodeInit fun _ => rfl,
    fun _ hn => by simp [multiNodeInit] at hn⟩

theorem Call.next_eq_some {s s' : State} {call : Call} :
    call.next s = some s' ↔ ∃ code, call.run s = .ret (code, s') := by
  unfold Call.next
  cases call.run s with
  | ret r => simp [Prod.ext_iff, eq_comm]
  | hang => simp
  | fault => simp

theorem Stored.clear_iff {s : State} (h : Stored s) :
    (∃ j < bitsPerLong, s.gBitmap j = false) ↔ (liveNodes s).card < bitsPerLong := by
  unfold liveNodes
  exact exists_clear_iff_card_lt h.wf mulitHashKey_lt h.own h.low

theorem Stored.inStorage_iff {s : State} (h : Stored s) (call : Call) :
    InStorage s call ↔ StorageRoom s call := by
  unfold InStorage
  cases call with
  | init => exact iff_of_true (fun bit hbit => by simp [touchedBits] at hbit) trivial
  | add multiIp multiPort serverPort ipList ipNum =>
    simp only [touchedBits, StorageRoom]
    cases hrow : rawLookupMultiNode s multiIp multiPort with
    | none =>
      have hnew : nodeOf s (multiIp, multiPort) = none := Option.map_eq_none_iff.mpr hrow
      simp only [insertTouches_lt_iff (show bitsPerLong < multiGrpMax by decide), h.clear_iff, hnew,
        true_implies]
    | some row =>
      have hfound : nodeOf s (multiIp, multiPort) ≠ none := by
        rw [Ne, nodeOf, BucketLayout.content, Option.map_eq_none_iff]
        exact fun hnone => by simp [rawLookupMultiNode, hnone] at hrow
      exact iff_of_true (fun bit hbit => by simp at hbit) (fun hnew => absurd hnew hfound)

theorem Stored.next {s s' : State} {call : Call} (h : Stored s) (hnext : call.next s = some s')
    (hroom : StorageRoom s call) : Stored s' := by
  obtain ⟨code, hret⟩ := Call.next_eq_some.mp hnext
  cases call with
  | init =>
    obtain ⟨_, rfl⟩ := Prod.mk.inj (Outcome.ret.inj hret)
    exact stored_init
  | add multiIp multiPort serverPort ipList ipNum =>
    cases addMultiNode_effect h.wf hret with
    | same => exact h
    | recounted cnt found wf nodes pool =>
      refine ⟨wf, ?_, fun n hn => h.low n (pool ▸ hn)⟩
      rw [nodes, pool]
      exact h.own.replace found rfl
    | created node fresh index clear lowest wf nodes holds live pool =>
      obtain ⟨j, hj, hclear⟩ := h.clear_iff.mpr (hroom fresh)
      refine ⟨wf, ?_, fun n hn => ?_⟩
      · have hinsert := h.own.insert fresh (holds.symm ▸ clear)
        rw [holds] at hinsert
        rw [nodes, pool]
        exact hinsert
      · rw [pool, Function.update_apply] at hn
        split at hn
        · by_contra hge
          simp [lowest j (by omega)] at hclear
        · exact h.low n hn

theorem inStorage_run_iff (calls : List Call) :
    Trace.EachAttempt Call.next InStorage multiNodeInit calls ↔
      Trace.EachAttempt Call.next StorageRoom multiNodeInit calls :=
  Trace.eachAttempt_congr (I := Stored)
    (fun _ call _ h hnext hin => h.next hnext ((h.inStorage_iff call).mp hin))
    (fun _ call h => h.inStorage_iff call) stored_init calls

end MulticastProxy.WinServer

namespace MulticastProxy

/-! ## Both programs -/

/-- In every run, up to and including its last attempt: the bits touched stay in the variable
exactly where a group is added only while fewer are live than the variable has bits. -/
theorem pool_storage_iff (jhash1word : UInt32 → UInt32 → UInt32)
    (msgs : List KernelServer.NlMessage) (calls : List WinServer.Call) :
    (Trace.EachAttempt (KernelServer.commandNext jhash1word) (KernelServer.InStorage jhash1word)
        KernelServer.multiNodeInit msgs ↔
      Trace.EachAttempt (KernelServer.commandNext jhash1word) (KernelServer.StorageRoom jhash1word)
        KernelServer.multiNodeInit msgs) ∧
    (Trace.EachAttempt WinServer.Call.next WinServer.InStorage WinServer.multiNodeInit calls ↔
      Trace.EachAttempt WinServer.Call.next WinServer.StorageRoom WinServer.multiNodeInit calls) :=
  ⟨KernelServer.inStorage_run_iff msgs, WinServer.inStorage_run_iff calls⟩

theorem not_pool_storage : ¬ ∃ jhash1word : UInt32 → UInt32 → UInt32,
    (∀ msgs, Trace.EachAttempt (KernelServer.commandNext jhash1word)
      (KernelServer.InStorage jhash1word) KernelServer.multiNodeInit msgs) ∧
    ∀ calls, Trace.EachAttempt WinServer.Call.next WinServer.InStorage WinServer.multiNodeInit
      calls := by
  rintro ⟨jhash1word, hkernel, _⟩
  obtain ⟨msgs, hmsgs⟩ := KernelServer.exists_run_outside jhash1word
  exact hmsgs (hkernel msgs)

end MulticastProxy
