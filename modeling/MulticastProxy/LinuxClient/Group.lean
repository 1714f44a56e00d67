import MulticastProxy.Library.BucketTable
import MulticastProxy.Library.Outcome

/-!
# Linux client proxy: entry table (`client_proxy/multi_grp.c`, `multi_grp.h`)

Entries map a server's address and port to a group and the port to send it on.
-/

namespace MulticastProxy.LinuxClient

set_option autoImplicit false

abbrev multiGrpBucket : Nat := 1024
abbrev multiGrpDepth : Nat := 256

abbrev multiNodeExsit : Int := 1000
abbrev multiIdxExhaust : Int := 1002

structure MultiNode where
  multiIp : UInt32
  serverIp : UInt32
  multiPort : UInt16
  serverPort : UInt16
  created : Bool
  deriving DecidableEq, Repr

def MultiNode.zero : MultiNode := ⟨0, 0, 0, 0, false⟩

structure State where
  multiGrp : Nat → Nat → MultiNode

def multiNodeInit : State where
  multiGrp := fun _ _ => .zero

/-- The remainder by the port comes first; for port 0 the division traps. -/
def ipPortHashKey (serverIp : UInt32) (port : UInt16) (maxnum : Nat) : Nat :=
  (serverIp % port.toUInt32 * 1023).toNat % maxnum

/-- `multi_grp` as a hash table keyed by server address and port. -/
def layout : BucketLayout MultiNode (UInt32 × UInt16) where
  live := fun node => node.created
  key := fun node => (node.serverIp, node.serverPort)
  hash := fun k => ipPortHashKey k.1 k.2 multiGrpBucket
  depth := multiGrpDepth

/-- `__lookup_ip_port_node`: the row of the node in its bucket. -/
def rawLookupIpPortNode (s : State) (serverIp : UInt32) (port : UInt16) : Outcome (Option Nat) :=
  if port = 0 then .fault else .ret (layout.find s.multiGrp (serverIp, port))

/-- A known entry keeps its port where the group stays the same. The counter of the free-cell loop
is a `uint8_t`, so its bound of 256 never ends it (`Search.byteSearch_round`). -/
def addMultiNode (s : State) (multiIp : UInt32) (multiPort : UInt16) (serverIp : UInt32)
    (serverPort : UInt16) : Outcome (Int × State) := do
  let index := ipPortHashKey serverIp serverPort multiGrpBucket
  match ← rawLookupIpPortNode s serverIp serverPort with
  | some rowId =>
    let node := s.multiGrp index rowId
    if node.multiIp = multiIp then .ret (multiNodeExsit, s)
    else
      .ret (0, ⟨BucketLayout.put s.multiGrp index rowId { node with multiIp, multiPort }⟩)
  | none =>
    match Search.byteSearch (fun i => !(s.multiGrp index i).created) multiGrpDepth 256 0 with
    | none => .hang
    | some none => .ret (multiIdxExhaust, s)
    | some (some i) =>
      .ret (0, ⟨BucketLayout.put s.multiGrp index i
        { multiIp, multiPort, serverIp, serverPort, created := true }⟩)

/-- Group, port, bucket and row of an entry. -/
def lookupIpPortNode (s : State) (serverIp : UInt32) (serverPort : UInt16) :
    Outcome (Option (UInt32 × UInt16 × Nat × Nat)) := do
  let index := ipPortHashKey serverIp serverPort multiGrpBucket
  match ← rawLookupIpPortNode s serverIp serverPort with
  | none => .ret none
  | some rowId =>
    let node := s.multiGrp index rowId
    .ret (some (node.multiIp, node.multiPort, index, rowId))

/-! ## The table as a map -/

abbrev WellFormed (s : State) : Prop := layout.WellFormed s.multiGrp

abbrev Key := UInt32 × UInt16

/-- Group and port of a key. -/
def entry (s : State) (k : Key) : Option (UInt32 × UInt16) :=
  (layout.content s.multiGrp k).map fun node => (node.multiIp, node.multiPort)

theorem multiNodeInit_wellFormed : WellFormed multiNodeInit :=
  BucketLayout.wellFormed_of_free fun _ _ => rfl

theorem entry_eq_none_iff {s : State} {k : Key} :
    entry s k = none ↔ layout.content s.multiGrp k = none := Option.map_eq_none_iff

@[simp] theorem entry_multiNodeInit (k : Key) : entry multiNodeInit k = none :=
  entry_eq_none_iff.mpr (multiNodeInit_wellFormed.content_eq_none_iff.mpr fun _ _ h => by
    simp [multiNodeInit, MultiNode.zero, layout] at h)

theorem lookupIpPortNode_eq (s : State) (serverIp : UInt32) {serverPort : UInt16}
    (hport : serverPort ≠ 0) :
    ∃ found, lookupIpPortNode s serverIp serverPort = .ret found ∧
      found.map (fun found => (found.1, found.2.1)) = entry s (serverIp, serverPort) := by
  unfold lookupIpPortNode rawLookupIpPortNode entry BucketLayout.content
  rw [if_neg hport, Outcome.ret_bind]
  cases layout.find s.multiGrp (serverIp, serverPort) with
  | none => exact ⟨none, rfl, rfl⟩
  | some row => exact ⟨_, rfl, rfl⟩

theorem entry_update {s : State} {t : Nat → Nat → MultiNode} {k : Key} {node : MultiNode}
    (h : layout.content t = Function.update (layout.content s.multiGrp) k (some node)) :
    entry ⟨t⟩ = Function.update (entry s) k (some (node.multiIp, node.multiPort)) := by
  funext k'
  unfold entry
  rw [h, Function.update_apply, Function.update_apply]
  split <;> rfl

/-- What an add can do: trap, store the entry, leave it as it is, or search for ever. -/
theorem addMultiNode_cases {s : State} (wf : WellFormed s) (multiIp : UInt32) (multiPort : UInt16)
    (serverIp : UInt32) (serverPort : UInt16) :
    (serverPort = 0 ∧ addMultiNode s multiIp multiPort serverIp serverPort = .fault) ∨
    (serverPort ≠ 0 ∧ ∃ port, entry s (serverIp, serverPort) = some (multiIp, port) ∧
      addMultiNode s multiIp multiPort serverIp serverPort = .ret (multiNodeExsit, s)) ∨
    (serverPort ≠ 0 ∧ (∀ port, entry s (serverIp, serverPort) ≠ some (multiIp, port)) ∧
      ∃ s', addMultiNode s multiIp multiPort serverIp serverPort = .ret (0, s') ∧ WellFormed s' ∧
        entry s' = Function.update (entry s) (serverIp, serverPort) (some (multiIp, multiPort))) ∨
    (serverPort ≠ 0 ∧ entry s (serverIp, serverPort) = none ∧
      (∀ i < 256, (s.multiGrp (ipPortHashKey serverIp serverPort multiGrpBucket) i).created = true) ∧
      addMultiNode s multiIp multiPort serverIp serverPort = .hang) := by
  unfold addMultiNode rawLookupIpPortNode
  by_cases hport : serverPort = 0
  · exact Or.inl ⟨hport, by rw [if_pos hport]; rfl⟩
  · rw [if_neg hport, Outcome.ret_bind]
    cases hrow : layout.find s.multiGrp (serverIp, serverPort) with
    | some row =>
      obtain ⟨hlive, hkey⟩ := wf.find_eq_some_iff.mp hrow
      have hentry : entry s (serverIp, serverPort) = some
          ((s.multiGrp (ipPortHashKey serverIp serverPort multiGrpBucket) row).multiIp,
            (s.multiGrp (ipPortHashKey serverIp serverPort multiGrpBucket) row).multiPort) := by
        unfold entry BucketLayout.content
        rw [hrow]
        rfl
      by_cases hsame :
          (s.multiGrp (ipPortHashKey serverIp serverPort multiGrpBucket) row).multiIp = multiIp
      · exact Or.inr (Or.inl ⟨hport, _, by rw [hentry, hsame], if_pos hsame⟩)
      · refine Or.inr (Or.inr (Or.inl ⟨hport, ?_, _, if_neg hsame, ?_, ?_⟩))
        · intro port he
          rw [hentry] at he
          exact hsame (Prod.mk.inj (Option.some.inj he)).1
        · exact BucketLayout.WellFormed.replace wf hlive (by exact hlive) rfl
        · have hcontent := BucketLayout.WellFormed.content_replace wf hlive
            (c := { s.multiGrp (ipPortHashKey serverIp serverPort multiGrpBucket) row with
              multiIp, multiPort }) (by exact hlive) rfl
          rw [hkey] at hcontent
          exact entry_update hcontent
    | none =>
      have hnone : entry s (serverIp, serverPort) = none :=
        entry_eq_none_iff.mpr (Option.map_eq_none_iff.mpr hrow)
      rcases BucketLayout.byteSearch_free (L := layout) s.multiGrp
        (ipPortHashKey serverIp serverPort multiGrpBucket) (Nat.le_refl 256) with
        ⟨i, hi, hs, hfree, hbusy⟩ | ⟨hs, hbusy⟩
      · have hs' : Search.byteSearch (fun i =>
            !(s.multiGrp (ipPortHashKey serverIp serverPort multiGrpBucket) i).created)
            multiGrpDepth 256 0 = some (some i) := hs
        have hdepth : i < layout.depth := by
          simpa [layout] using hi
        rw [hs']
        refine Or.inr (Or.inr (Or.inl ⟨hport, by simp [hnone], _, rfl, ?_, ?_⟩))
        · have hwf := BucketLayout.WellFormed.insert wf hrow hdepth hfree hbusy
            (c := ⟨multiIp, serverIp, multiPort, serverPort, true⟩) rfl rfl
          exact hwf
        · have hcontent := BucketLayout.WellFormed.content_insert wf hrow hdepth hfree hbusy
            (c := ⟨multiIp, serverIp, multiPort, serverPort, true⟩) rfl rfl
          exact entry_update hcontent
      · have hs' : Search.byteSearch (fun i =>
            !(s.multiGrp (ipPortHashKey serverIp serverPort multiGrpBucket) i).created)
            multiGrpDepth 256 0 = none := hs
        rw [hs']
        exact Or.inr (Or.inr (Or.inr ⟨hport, hnone, hbusy, rfl⟩))

theorem exists_entry (serverIp multiIp : UInt32) {serverPort : UInt16} (hport : serverPort ≠ 0)
    (multiPort : UInt16) :
    ∃ s index rowId, lookupIpPortNode s serverIp serverPort =
      .ret (some (multiIp, multiPort, index, rowId)) := by
  rcases addMultiNode_cases multiNodeInit_wellFormed multiIp multiPort
    serverIp serverPort with ⟨hzero, _⟩ | ⟨_, port, he, _⟩ | ⟨_, _, s, _, _, hentry⟩ | ⟨_, _, hfull, _⟩
  · exact absurd hzero hport
  · rw [entry_multiNodeInit] at he
    cases he
  · obtain ⟨found, hret, hmap⟩ := lookupIpPortNode_eq s serverIp hport
    rw [hentry, Function.update_self] at hmap
    obtain ⟨⟨ip, port, index, rowId⟩, rfl, he⟩ := Option.map_eq_some_iff.mp hmap
    obtain ⟨rfl, rfl⟩ := Prod.mk.inj he
    exact ⟨s, index, rowId, hret⟩
  · cases hfull 0 (by decide)

end MulticastProxy.LinuxClient
