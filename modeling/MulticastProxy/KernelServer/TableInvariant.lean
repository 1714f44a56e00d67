import MulticastProxy.KernelServer.GroupSpec

/-!
# Kernel server: shape of the node table over every run

Lookup may stop at the first free cell because insertion, deletion and CLEAR keep
the live cells of a bucket together at its front.
-/

namespace MulticastProxy.KernelServer

set_option autoImplicit false

variable {jhash1word : UInt32 → UInt32 → UInt32}

/-- States after a sequence of commands that each returned, every one `allowed` where it ran. -/
inductive Reachable (jhash1word : UInt32 → UInt32 → UInt32) (allowed : State → NlMessage → Prop) :
    State → Prop where
  | init : Reachable jhash1word allowed multiNodeInit
  | step {s s' : State} {msg : NlMessage} {code : Int} :
      Reachable jhash1word allowed s → allowed s msg →
      tmccRcvSkb jhash1word s msg = .ret (code, s') → Reachable jhash1word allowed s'

/-- The table after a command that returned. -/
def commandNext (jhash1word : UInt32 → UInt32 → UInt32) (s : State) (msg : NlMessage) :
    Option State :=
  match tmccRcvSkb jhash1word s msg with
  | .ret (_, s') => some s'
  | .hang => none
  | .fault => none

theorem commandNext_eq_some {s s' : State} {msg : NlMessage} :
    commandNext jhash1word s msg = some s' ↔
      ∃ code, tmccRcvSkb jhash1word s msg = .ret (code, s') := by
  unfold commandNext
  cases tmccRcvSkb jhash1word s msg with
  | ret r => simp [Prod.ext_iff, eq_comm]
  | hang => simp
  | fault => simp

theorem tmccRcvSkb_wellFormed {s s' : State} {msg : NlMessage} {code : Int}
    (wf : WellFormed jhash1word s) (h : tmccRcvSkb jhash1word s msg = .ret (code, s')) :
    WellFormed jhash1word s' := by
  cases tmccRcvSkb_effect wf h with
  | same => exact wf
  | recounted _ recount => exact recount.wf
  | created _ made => exact made.wf
  | deleted gone => exact gone.wf
  | cleared => exact clearMultiGroup_wellFormed wf

theorem Reachable.wellFormed {allowed : State → NlMessage → Prop} {s : State}
    (h : Reachable jhash1word allowed s) : WellFormed jhash1word s := by
  induction h with
  | init => exact multiNodeInit_wellFormed
  | step _ _ hstep ih => exact tmccRcvSkb_wellFormed ih hstep

/-- The table as `__lookup_multi_node` needs it, and what the lookup then finds. -/
structure NodeTableOk (jhash1word : UInt32 → UInt32 → UInt32) (s : State) : Prop where
  created_prefix : ∀ b i j, i < j → j < multiGrpDepth →
    (s.multiGrp b j).created = true → (s.multiGrp b i).created = true
  home : ∀ b i, (s.multiGrp b i).created = true →
    b = mulitHashKey jhash1word (s.multiGrp b i).multiIp multiGrpBucket
  unique : ∀ b i b' i', (s.multiGrp b i).created = true → (s.multiGrp b' i').created = true →
    (s.multiGrp b i).multiIp = (s.multiGrp b' i').multiIp → b = b' ∧ i = i'
  lookup_isSome : ∀ g, (rawLookupMultiNode jhash1word s g).isSome = true ↔
    ∃ b i, (s.multiGrp b i).created = true ∧ (s.multiGrp b i).multiIp = g
  lookup_finds : ∀ b i, (s.multiGrp b i).created = true →
    rawLookupMultiNode jhash1word s (s.multiGrp b i).multiIp = some i

theorem WellFormed.nodeTableOk {s : State} (wf : WellFormed jhash1word s) :
    NodeTableOk jhash1word s := by
  have hfinds : ∀ b i, (s.multiGrp b i).created = true →
      rawLookupMultiNode jhash1word s (s.multiGrp b i).multiIp = some i := by
    intro b i hl
    have hb : mulitHashKey jhash1word (s.multiGrp b i).multiIp multiGrpBucket = b := wf.home b i hl
    rw [wf.lookup_iff, hb]
    exact ⟨hl, rfl⟩
  refine ⟨?_, ?_, ?_, ?_, hfinds⟩
  · intro b i j hij _ hl
    exact wf.prefix_closed (Nat.le_of_lt hij) hl
  · intro b i hl
    exact (wf.home b i hl).symm
  · intro b i b' i' hl hl' hip
    exact wf.cell_unique hl hl' hip
  · intro g
    rw [Option.isSome_iff_exists]
    constructor
    · rintro ⟨row, hrow⟩
      exact ⟨_, row, wf.lookup_iff.mp hrow⟩
    · rintro ⟨b, i, hl, rfl⟩
      exact ⟨i, hfinds b i hl⟩

/-- Every run of JOIN, QUIT, append, DEL and CLEAR, for any bucket hash. -/
theorem node_table_ok {s : State} (h : Reachable jhash1word (fun _ _ => True) s) :
    NodeTableOk jhash1word s :=
  h.wellFormed.nodeTableOk

/-- JOIN of a group with the addresses `ips`, as `multis_admin -A -m g -j ips` sends it. -/
def joinMessage (g : UInt32) (ips : List UInt32) : NlMessage :=
  .serviceAdd (.ofList multiOptJoin g ips)

theorem tmccRcvSkb_joinMessage (s : State) (g : UInt32) (ips : List UInt32) :
    tmccRcvSkb jhash1word s (joinMessage g ips) =
      addMultiNode jhash1word s g (fun i => ips.getD i 0) (UInt32.ofNat ips.length).toNat := by
  simp [joinMessage, TmccNlServiceSt.ofList, tmccRcvSkb, multiNlNodeAdd]

theorem joinMessage_multiNodeInit (jhash1word : UInt32 → UInt32 → UInt32) (g : UInt32)
    {ips : List UInt32} (hlen : ips.length ≤ multiVmMax) :
    ∃ s, tmccRcvSkb jhash1word multiNodeInit (joinMessage g ips) = .ret (0, s) ∧
      ∃ cnt idx, lookupMultiNode jhash1word s g = some (cnt, idx, ips) := by
  have hsize : ips.length < 2 ^ 32 := Nat.lt_of_le_of_lt hlen (by decide)
  have hnum : (UInt32.ofNat ips.length).toNat ≤ multiVmMax :=
    Nat.le_trans (by simpa using Nat.mod_le _ _) hlen
  have hnew : nodeOf jhash1word multiNodeInit g = none := nodeOf_multiNodeInit g
  obtain ⟨s, hs⟩ := addMultiNode_returns (i := 0) (fun i => ips.getD i 0) hnew
    (show 0 < multiGrpMax by decide) rfl (by decide) rfl hnum
  refine ⟨s, (tmccRcvSkb_joinMessage multiNodeInit g ips).trans hs, ?_⟩
  rcases addMultiNode_cases multiNodeInit_wellFormed hs with
    ⟨node, hext⟩ | ⟨_, h, _⟩ | ⟨idx, cnt, hmade, hvm⟩
  · simpa using hext.found
  · simp at h
  · rcases hvm with ⟨h, _⟩ | ⟨_, _, row, hvm, hcells⟩
    · simp at h
    · refine ⟨cnt, UInt8.ofNat idx, ?_⟩
      have hips := TmccNlServiceSt.ips_ofList multiOptJoin g hsize
      rw [TmccNlServiceSt.ips, TmccNlServiceSt.ofList] at hips
      rw [lookupMultiNode_eq, hmade.nodes, Function.update_self, Option.map_some, getVmIpList, hvm,
        Function.update_self, hcells, newcomers_zero, hips]
      simp

theorem node_table_ok_after_join :
    ∃ s, (lookupMultiNode (fun _ _ => 0) s 0xE0000001).isSome = true ∧
      NodeTableOk (fun _ _ => 0) s := by
  obtain ⟨s, hs, cnt, idx, hfound⟩ := joinMessage_multiNodeInit (fun _ _ => 0) 0xE0000001
    (show [7, 8].length ≤ multiVmMax by decide)
  exact ⟨s, by rw [hfound]; rfl, node_table_ok (.step .init trivial hs)⟩

end MulticastProxy.KernelServer
