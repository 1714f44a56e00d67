import MulticastProxy.KernelClient.Deletion
import MulticastProxy.KernelServer.TableInvariant

/-!
# Acknowledgements of deletions (`multi_nl_node_delete`)

`del_multi_node` of the client returns what its lookup found. That of the server ends in `return 0`.
-/

namespace MulticastProxy

set_option autoImplicit false

/-- The code of a deletion tells whether the key had an entry before, and success that it has none
any more. -/
structure DelAck {α : Type} (notExsit : Int) (before after : Option α) (code : Int) : Prop where
  failed_iff : code ≠ 0 ↔ before = none
  failed : code ≠ 0 → code = notExsit
  removed : code = 0 → before ≠ none ∧ after = none

namespace KernelServer

/-- The acknowledgement of a DEL command. -/
def DelTells (jhash1word : UInt32 → UInt32 → UInt32) (s : State) (service : TmccNlServiceSt) :
    Prop :=
  ∃ code s', tmccRcvSkb jhash1word s (.serviceDel service) = .ret (code, s') ∧
    DelAck multiNodeNotExsit (nodeOf jhash1word s service.multiIp)
      (nodeOf jhash1word s' service.multiIp) code

variable {jhash1word : UInt32 → UInt32 → UInt32}

theorem delTells_iff {s : State} (wf : WellFormed jhash1word s) (service : TmccNlServiceSt) :
    DelTells jhash1word s service ↔ nodeOf jhash1word s service.multiIp ≠ none := by
  rcases delMultiNode_cases wf service.multiIp with ⟨hnone, hdel⟩ | ⟨node, s', hdel, hgone⟩
  · refine iff_of_false ?_ (not_not.mpr hnone)
    rintro ⟨code, s', hrun, hack⟩
    have hzero : code = 0 := by
      have hret := Outcome.ret.inj hrun
      rw [multiNlNodeDelete, hdel] at hret
      exact (Prod.mk.inj hret).1.symm
    exact (hack.removed hzero).1 hnone
  · have hfound : nodeOf jhash1word s service.multiIp ≠ none := by
      rw [hgone.found]
      exact Option.some_ne_none _
    refine iff_of_true ⟨0, s', congrArg Outcome.ret hdel, ?_⟩ hfound
    refine ⟨iff_of_false (fun h => h rfl) hfound, fun h => absurd rfl h, fun _ => ⟨hfound, ?_⟩⟩
    rw [hgone.nodes, Function.update_self]

end KernelServer

namespace KernelClient

def DelTells (jhash2words : UInt32 → UInt32 → UInt32 → UInt32) (s : State)
    (service : TmccNlServiceSt) : Prop :=
  ∃ code s', tmccRcvSkb jhash2words s (.serviceDel service) = .ret (code, s') ∧
    DelAck multiNodeNotExsit (entry jhash2words s (service.serverIp, service.port))
      (entry jhash2words s' (service.serverIp, service.port)) code

variable {jhash2words : UInt32 → UInt32 → UInt32 → UInt32}

theorem delTells {s : State} (wf : WellFormed jhash2words s) (service : TmccNlServiceSt) :
    DelTells jhash2words s service := by
  rcases delMultiNode_cases wf service.serverIp service.port with
    ⟨hnone, hdel⟩ | ⟨s', hdel, hsome, _, hentry⟩
  · refine ⟨multiNodeNotExsit, s, congrArg Outcome.ret hdel, ?_⟩
    have hcode : multiNodeNotExsit ≠ 0 := by decide
    exact ⟨iff_of_true hcode hnone, fun _ => rfl, fun h => absurd h hcode⟩
  · have hfound : entry jhash2words s (service.serverIp, service.port) ≠ none := by
      intro hnone
      rw [hnone] at hsome
      cases hsome
    refine ⟨0, s', congrArg Outcome.ret hdel, ?_⟩
    refine ⟨iff_of_false (fun h => h rfl) hfound, fun h => absurd rfl h, fun _ => ⟨hfound, ?_⟩⟩
    rw [hentry, Function.update_self]

end KernelClient

/-- For every reachable table of either module and every request: the client's code always tells
whether there was an entry; the server's does exactly where there was one. -/
theorem delete_ack_iff {jhash1word : UInt32 → UInt32 → UInt32}
    {jhash2words : UInt32 → UInt32 → UInt32 → UInt32} {s : KernelServer.State}
    {c : KernelClient.State} (hs : KernelServer.Reachable jhash1word (fun _ _ => True) s)
    (hc : KernelClient.Counted jhash2words c) (service : KernelServer.TmccNlServiceSt)
    (service' : KernelClient.TmccNlServiceSt) :
    (KernelServer.DelTells jhash1word s service ∧
        KernelClient.DelTells jhash2words c service') ↔
      KernelServer.nodeOf jhash1word s service.multiIp ≠ none := by
  rw [KernelServer.delTells_iff hs.wellFormed service]
  exact and_iff_left (KernelClient.delTells hc.wellFormed service')

/-- Deletion of a group that is there, and of an entry that is not. -/
theorem delete_ack_of_join : ∃ s,
    KernelServer.DelTells (fun _ _ => 0) s (.ofList 0 0xE1000001 []) ∧
      KernelClient.DelTells (fun _ _ _ => 0) KernelClient.multiNodeInit ⟨5000, 0x0A000001, 0⟩ := by
  obtain ⟨s, hs, cnt, idx, hfound⟩ := KernelServer.joinMessage_multiNodeInit (fun _ _ => 0)
    0xE1000001 (show [7, 8].length ≤ KernelServer.multiVmMax by decide)
  have hc : KernelClient.Counted (fun _ _ _ => 0) KernelClient.multiNodeInit :=
    ⟨[], _, rfl, rfl⟩
  refine ⟨s, (delete_ack_iff (.step .init trivial hs) hc _ _).mpr fun hnone => ?_⟩
  have hnone : KernelServer.nodeOf (fun _ _ => 0) s 0xE1000001 = none := hnone
  rw [KernelServer.lookupMultiNode_eq, hnone] at hfound
  cases hfound

/-- For every hash: the server acknowledges the deletion of a group that is not there with 0. -/
theorem not_delete_ack : ¬ ∃ jhash1word, ∀ s,
    KernelServer.Reachable jhash1word (fun _ _ => True) s → ∀ service,
      KernelServer.DelTells jhash1word s service := by
  rintro ⟨jhash1word, hall⟩
  have htells := hall _ .init (.ofList 0 0xE1000001 [])
  apply (KernelServer.delTells_iff KernelServer.multiNodeInit_wellFormed _).mp htells
  exact KernelServer.nodeOf_multiNodeInit _

end MulticastProxy
