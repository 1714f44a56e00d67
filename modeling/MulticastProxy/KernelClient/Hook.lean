import MulticastProxy.Common.Packet
import MulticastProxy.KernelClient.GroupSpec

/-!
# Kernel client: rewriting of received packets (`kmod/multic_nf.c`)

`tmcc_hook_local_in` runs at PRE_ROUTING, before fragments are put together.
-/

namespace MulticastProxy.KernelClient

set_option autoImplicit false

structure Module where
  table : State
  rxPackets : UInt64
  rxBytes : UInt64

variable (jhash2words : UInt32 → UInt32 → UInt32 → UInt32) (csum : CsumReplace)

/-- The exact entry of a server and port, else the server's entry for port 0. -/
def lookupPortOrZero (s : State) (saddr : UInt32) (port : UInt16) : Option (UInt32 × Nat × Nat) :=
  match lookupIpPortNode jhash2words s saddr port with
  | some found => some found
  | none => lookupIpPortNode jhash2words s saddr 0

/-- The entry by which a packet is rewritten; `none` where the hook lets it pass as it is. The first
8 bytes behind the IP header are taken for a UDP header, whatever the fragment offset. -/
def hookEntry (s : State) (skb : Skb) : Option (UInt32 × Nat × Nat) :=
  if skb.protocol ≠ ipprotoUdp then none
  else
    match skb.udpHeader with
    | none => none
    | some uh =>
      match lookupPortOrZero jhash2words s skb.saddr (udpDest uh) with
      | none => none
      | some found => if skb.tos ≠ 0xE0 then none else some found

def tmccHookLocalIn (m : Module) (skb : Skb) : Module × Skb :=
  match hookEntry jhash2words m.table skb with
  | none => (m, skb)
  | some (multiIp, bucket, depth) =>
    let skb := skb.dnat csum multiIp
    ({ table := multiClientStats m.table multiIp bucket depth skb.totLen
       rxPackets := m.rxPackets + 1
       rxBytes := m.rxBytes + skb.totLen.toUInt64 }, skb)

/-- The group address that a packet gets, for a sequence of received packets. -/
def hookRun (m : Module) : List Skb → List (Option UInt32)
  | [] => []
  | skb :: skbs =>
    (hookEntry jhash2words m.table skb).map Prod.fst ::
      hookRun (tmccHookLocalIn jhash2words csum m skb).1 skbs

variable {jhash2words csum}

/-- The statistics reach neither the keys nor the groups. -/
theorem multiClientStats_same (s : State) (multiIp : UInt32) (bucket depth : Nat) (len : UInt16)
    (b i : Nat) :
    ((multiClientStats s multiIp bucket depth len).multiGrp b i).created =
        (s.multiGrp b i).created ∧
      ((multiClientStats s multiIp bucket depth len).multiGrp b i).serverIp =
        (s.multiGrp b i).serverIp ∧
      ((multiClientStats s multiIp bucket depth len).multiGrp b i).port = (s.multiGrp b i).port ∧
      ((multiClientStats s multiIp bucket depth len).multiGrp b i).multiIp =
        (s.multiGrp b i).multiIp := by
  unfold multiClientStats
  simp only
  split
  · simp only [BucketLayout.put_apply]
    split
    · rename_i h
      simp [h.1, h.2]
    · exact ⟨rfl, rfl, rfl, rfl⟩
  · exact ⟨rfl, rfl, rfl, rfl⟩

theorem lookup_multiClientStats (s : State) (multiIp : UInt32) (bucket depth : Nat) (len : UInt16)
    (ip : UInt32) (port : UInt16) :
    lookupIpPortNode jhash2words (multiClientStats s multiIp bucket depth len) ip port =
      lookupIpPortNode jhash2words s ip port := by
  have hcell := multiClientStats_same s multiIp bucket depth len
  have hraw : rawLookupIpPortNode jhash2words (multiClientStats s multiIp bucket depth len) ip port =
      rawLookupIpPortNode jhash2words s ip port := by
    unfold rawLookupIpPortNode BucketLayout.find
    apply Search.probe_congr
    · intro i _
      exact (hcell _ i).1
    · intro i _
      apply decide_eq_decide.mpr
      simp only [layout, (hcell _ i).2.1, (hcell _ i).2.2.1]
  simp only [lookupIpPortNode, hraw, hcell]

theorem hookEntry_tmccHookLocalIn (m : Module) (skb skb' : Skb) :
    hookEntry jhash2words (tmccHookLocalIn jhash2words csum m skb).1.table skb' =
      hookEntry jhash2words m.table skb' := by
  unfold tmccHookLocalIn
  cases hookEntry jhash2words m.table skb with
  | none => rfl
  | some found =>
    simp only [hookEntry, lookupPortOrZero, lookup_multiClientStats]

theorem hookRun_eq_map (m : Module) (skbs : List Skb) :
    hookRun jhash2words csum m skbs =
      skbs.map fun skb => (hookEntry jhash2words m.table skb).map Prod.fst := by
  induction skbs generalizing m with
  | nil => rfl
  | cons skb skbs ih =>
    rw [hookRun, ih, List.map_cons]
    simp only [hookEntry_tmccHookLocalIn]

end MulticastProxy.KernelClient
