import MulticastProxy.Common.Packet
import MulticastProxy.KernelServer.Tool
import MulticastProxy.KernelServer.TableInvariant
import MulticastProxy.Library.Walk

/-!
# Kernel server: fan-out of local packets (`kmod/multis_nf.c`)

`tmcs_hook_local_out` sends one copy of a packet to each member of the group that is its
destination, and each copy meets the same hook again.
-/

namespace MulticastProxy.KernelServer

set_option autoImplicit false

structure Counters where
  noMultiGrpPktDropCount : UInt64
  noVmIpListPktDropCount : UInt64
  routeFailDropCount : UInt64
  noMemDropCount : UInt64
  txPackets : UInt64
  txBytes : UInt64
  deriving DecidableEq, Repr

structure Module where
  table : State
  counters : Counters

/-- What the kernel lets happen to one copy. -/
inductive CopyFate where
  | noMem
  | routeFail
  | sent
  deriving DecidableEq, Repr

variable (jhash1word : UInt32 → UInt32 → UInt32) (csum : CsumReplace)

/-- The copy for one member, as it is handed to `ip_local_out`. -/
def memberCopy (skb : Skb) (vmIp : UInt32) : Skb :=
  { skb with ttl := if skb.ttl < 64 then 64 else skb.ttl, tos := 0xE0 }.dnat csum vmIp

def copyToMember (skb : Skb) (grpIdx : UInt8) (m : Module) (vmIp : UInt32) :
    CopyFate → Module × Option Skb
  | .noMem =>
    ({ m with counters.noMemDropCount := m.counters.noMemDropCount + 1 }, none)
  | .routeFail =>
    match skb.udpHeader with
    | none => (m, none)
    | some _ =>
      ({ m with counters.routeFailDropCount := m.counters.routeFailDropCount + 1 }, none)
  | .sent =>
    match skb.udpHeader with
    | none => (m, none)
    | some _ =>
      let newSkb := memberCopy csum skb vmIp
      ({ table := multiGrpStats m.table grpIdx.toNat newSkb.totLen
         counters :=
          { m.counters with
            txPackets := m.counters.txPackets + 1
            txBytes := m.counters.txBytes + newSkb.totLen.toUInt64 } },
        some newSkb)

def copyLoop (skb : Skb) (grpIdx : UInt8) (fate : Nat → CopyFate) :
    Nat → List UInt32 → Module → Module × List Skb
  | _, [], m => (m, [])
  | i, vmIp :: vmIps, m =>
    let (m, newSkb) := copyToMember csum skb grpIdx m vmIp (fate i)
    let (m, rest) := copyLoop skb grpIdx fate (i + 1) vmIps m
    (m, newSkb.toList ++ rest)

/-- The hook: the module after it and the copies sent, in order. The packet itself is always
accepted. -/
def tmcsHookLocalOut (fate : Nat → CopyFate) (m : Module) (skb : Skb) : Module × List Skb :=
  if skb.protocol ≠ ipprotoUdp then (m, [])
  else
    match lookupMultiNode jhash1word m.table skb.daddr with
    | none =>
      ({ m with counters.noMultiGrpPktDropCount := m.counters.noMultiGrpPktDropCount + 1 }, [])
    | some (memberCnt, grpIdx, vmIpList) =>
      if memberCnt = 0 then
        ({ m with counters.noVmIpListPktDropCount := m.counters.noVmIpListPktDropCount + 1 }, [])
      else copyLoop csum skb grpIdx fate 0 vmIpList m

/-! ## What the hook sends -/

/-- Same groups and members; the counters may differ. -/
def SameGroups (s s' : State) : Prop := s'.multiGrp = s.multiGrp ∧ s'.multiVm = s.multiVm

variable {jhash1word csum}

theorem SameGroups.lookup {s s' : State} (h : SameGroups s s') (g : UInt32) :
    lookupMultiNode jhash1word s' g = lookupMultiNode jhash1word s g := by
  simp only [lookupMultiNode, rawLookupMultiNode, getVmIpList, h.1, h.2]

theorem copyToMember_table (csum : CsumReplace) (skb : Skb) (grpIdx : UInt8) (m : Module)
    (vmIp : UInt32) (fate : CopyFate) : ∃ multiStats,
      (copyToMember csum skb grpIdx m vmIp fate).1.table = { m.table with multiStats } := by
  unfold copyToMember
  split
  · exact ⟨_, rfl⟩
  · split <;> exact ⟨_, rfl⟩
  · split <;> exact ⟨_, rfl⟩

theorem copyLoop_table (skb : Skb) (grpIdx : UInt8) (fate : Nat → CopyFate) (i : Nat)
    (vmIps : List UInt32) (m : Module) : ∃ multiStats,
      (copyLoop csum skb grpIdx fate i vmIps m).1.table = { m.table with multiStats } := by
  induction vmIps generalizing i m with
  | nil => exact ⟨_, rfl⟩
  | cons vmIp vmIps ih =>
    obtain ⟨_, hcopy⟩ := copyToMember_table csum skb grpIdx m vmIp (fate i)
    obtain ⟨multiStats, hrest⟩ := ih (i + 1) (copyToMember csum skb grpIdx m vmIp (fate i)).1
    rw [hcopy] at hrest
    exact ⟨multiStats, hrest⟩

/-- The hook changes no group, no member and no index. -/
theorem tmcsHookLocalOut_table (fate : Nat → CopyFate) (m : Module) (skb : Skb) : ∃ multiStats,
    (tmcsHookLocalOut jhash1word csum fate m skb).1.table = { m.table with multiStats } := by
  unfold tmcsHookLocalOut
  split
  · exact ⟨_, rfl⟩
  · split
    · exact ⟨_, rfl⟩
    · split
      · exact ⟨_, rfl⟩
      · exact copyLoop_table _ _ _ _ _ _

theorem mem_copyLoop {skb newSkb : Skb} {grpIdx : UInt8} {fate : Nat → CopyFate} {i : Nat}
    {vmIps : List UInt32} {m : Module}
    (h : newSkb ∈ (copyLoop csum skb grpIdx fate i vmIps m).2) :
    8 ≤ skb.transport.length ∧ ∃ vmIp ∈ vmIps, newSkb = memberCopy csum skb vmIp := by
  induction vmIps generalizing i m with
  | nil => simp [copyLoop] at h
  | cons vmIp vmIps ih =>
    simp only [copyLoop, List.mem_append, Option.mem_toList] at h
    rcases h with h | h
    · unfold copyToMember at h
      split at h
      · simp at h
      · split at h <;> simp at h
      · split at h
        · simp at h
        · rename_i huh
          simp only [Option.some.injEq] at h
          unfold Skb.udpHeader at huh
          split at huh
          · simp at huh
          · exact ⟨by omega, vmIp, by simp, h.symm⟩
    · obtain ⟨hlen, ip, hip, he⟩ := ih h
      exact ⟨hlen, ip, by simp [hip], he⟩

theorem copyLoop_sent {skb : Skb} (hlen : 8 ≤ skb.transport.length) (grpIdx : UInt8) (i : Nat)
    (vmIps : List UInt32) (m : Module) :
    (copyLoop csum skb grpIdx (fun _ => .sent) i vmIps m).2 = vmIps.map (memberCopy csum skb) := by
  have huh : skb.udpHeader = some skb.transport := if_neg (by omega)
  induction vmIps generalizing i m with
  | nil => rfl
  | cons vmIp vmIps ih => simp [copyLoop, copyToMember, huh, ih]

/-! ## Re-entries -/

variable (jhash1word)

def MemberEdge (s : State) (g m : UInt32) : Prop :=
  ∃ memberCnt grpIdx vmIpList,
    lookupMultiNode jhash1word s g = some (memberCnt, grpIdx, vmIpList) ∧ m ∈ vmIpList

variable (csum)

/-- A run of the hook on one packet starts a run of it on a copy. The counters may have moved on
in between. -/
def Reenters (p q : Module × Skb) : Prop :=
  (∃ fate, q.2 ∈ (tmcsHookLocalOut jhash1word csum fate p.1 p.2).2) ∧
    SameGroups p.1.table q.1.table

variable {jhash1word csum}

theorem memberEdge_congr {s s' : State} (h : SameGroups s s') (g m : UInt32) :
    MemberEdge jhash1word s' g m ↔ MemberEdge jhash1word s g m := by
  simp only [MemberEdge, h.lookup]

theorem Reenters.memberEdge {p q : Module × Skb} (h : Reenters jhash1word csum p q) :
    MemberEdge jhash1word p.1.table p.2.daddr q.2.daddr := by
  obtain ⟨⟨fate, hmem⟩, _⟩ := h
  unfold tmcsHookLocalOut at hmem
  split at hmem
  · simp at hmem
  · split at hmem
    · simp at hmem
    · rename_i hlook
      split at hmem
      · simp at hmem
      · obtain ⟨_, vmIp, hvm, he⟩ := mem_copyLoop hmem
        refine ⟨_, _, _, hlook, ?_⟩
        rw [he]
        simpa [memberCopy] using hvm

theorem reenters_of_memberEdge {m : Module} {skb : Skb} {vmIp : UInt32}
    (hudp : skb.protocol = ipprotoUdp) (hlen : 8 ≤ skb.transport.length)
    (h : MemberEdge jhash1word m.table skb.daddr vmIp) :
    Reenters jhash1word csum (m, skb) (m, memberCopy csum skb vmIp) := by
  obtain ⟨memberCnt, grpIdx, vmIpList, hlook, hmem⟩ := h
  refine ⟨⟨fun _ => .sent, ?_⟩, rfl, rfl⟩
  have hcnt : memberCnt ≠ 0 := by
    rw [lookupMultiNode_eq, Option.map_eq_some_iff] at hlook
    obtain ⟨node, _, he⟩ := hlook
    simp only [Prod.mk.injEq] at he
    obtain ⟨rfl, rfl, rfl⟩ := he
    intro h0
    simp [getVmIpList, h0] at hmem
  simp only [tmcsHookLocalOut, hudp, hlook, hcnt]
  simp only [ne_eq, not_true_eq_false, if_false, copyLoop_sent hlen]
  exact List.mem_map_of_mem hmem

/-! ## Termination -/

/-- The packets of an endless fan-out along a walk of groups. -/
def packetAlong (csum : CsumReplace) (w : Nat → UInt32) (skb : Skb) : Nat → Skb
  | 0 => skb
  | n + 1 => memberCopy csum (packetAlong csum w skb n) (w (n + 1))

theorem packetAlong_spec (csum : CsumReplace) {w : Nat → UInt32} {skb : Skb}
    (hudp : skb.protocol = ipprotoUdp) (hlen : 8 ≤ skb.transport.length) (hw : skb.daddr = w 0)
    (n : Nat) :
    (packetAlong csum w skb n).protocol = ipprotoUdp ∧
      8 ≤ (packetAlong csum w skb n).transport.length ∧
      (packetAlong csum w skb n).daddr = w n := by
  induction n with
  | zero => exact ⟨hudp, hlen, hw⟩
  | succ n ih =>
    obtain ⟨h1, h2, _⟩ := ih
    refine ⟨?_, ?_, ?_⟩
    · simpa [packetAlong, memberCopy] using h1
    · simpa [packetAlong, memberCopy] using h2
    · simp [packetAlong, memberCopy]

def emptyDatagram (daddr : UInt32) : Skb where
  tos := 0
  totLen := 28
  fragOff := 0
  ttl := 64
  protocol := ipprotoUdp
  check := 0
  saddr := 0
  daddr := daddr
  transport := List.replicate 8 0
  csumPartial := false

theorem exists_walk_of_memberCycle (csum : CsumReplace) {m : Module} {g : UInt32}
    (h : Relation.TransGen (MemberEdge jhash1word m.table) g g) :
    ∃ f : Nat → Module × Skb, f 0 = (m, emptyDatagram g) ∧
      Walk.IsWalk (Reenters jhash1word csum) f := by
  obtain ⟨w, hw0, hw⟩ := Walk.exists_walk_of_cycle h
  have hlen : 8 ≤ (emptyDatagram g).transport.length := by simp [emptyDatagram]
  have hspec := packetAlong_spec csum (show (emptyDatagram g).protocol = ipprotoUdp from rfl)
    hlen hw0.symm
  refine ⟨fun n => (m, packetAlong csum w (emptyDatagram g) n), rfl, fun n => ?_⟩
  obtain ⟨h1, h2, h3⟩ := hspec n
  apply reenters_of_memberEdge h1 h2
  rw [h3]
  exact hw n

theorem walk_sameGroups {f : Nat → Module × Skb} (hf : Walk.IsWalk (Reenters jhash1word csum) f)
    (n : Nat) : SameGroups (f 0).1.table (f n).1.table := by
  induction n with
  | zero => exact ⟨rfl, rfl⟩
  | succ n ih =>
    have hstep := (hf n).2
    exact ⟨hstep.1.trans ih.1, hstep.2.trans ih.2⟩

/-- Every fan-out of UDP packets ends exactly when no group is, through groups that are members of
groups, a member of itself. -/
theorem fan_out_terminates (jhash1word : UInt32 → UInt32 → UInt32) (csum : CsumReplace)
    (m : Module) :
    (∀ skb : Skb, skb.protocol = ipprotoUdp → ¬ ∃ f : Nat → Module × Skb,
      f 0 = (m, skb) ∧ Walk.IsWalk (Reenters jhash1word csum) f) ↔
    ∀ g, ¬ Relation.TransGen (MemberEdge jhash1word m.table) g g := by
  constructor
  · intro h g hcycle
    exact h (emptyDatagram g) rfl (exists_walk_of_memberCycle csum hcycle)
  · rintro h skb _ ⟨f, hf0, hf⟩
    have hwalk : Walk.IsWalk (MemberEdge jhash1word m.table) fun n => (f n).2.daddr := by
      intro n
      have hsame := walk_sameGroups hf n
      rw [hf0] at hsame
      exact (memberEdge_congr hsame _ _).mp (hf n).memberEdge
    have : Finite UInt32 := Finite.of_injective UInt32.toFin fun _ _ => UInt32.toFin_inj.mp
    obtain ⟨i, hi⟩ := hwalk.exists_cycle
    exact h _ hi

/-- `multis_admin -A -m 10.0.0.1 -j 10.0.0.1`. -/
def selfMember : List CommandLine.Word := CommandLine.words "-A -m 10.0.0.1 -j 10.0.0.1".toList

theorem multisAdmin_selfMember (jhash1word : UInt32 → UInt32 → UInt32) :
    ∃ cfg s, multisAdmin jhash1word selfMember none multiNodeInit = .ret (0, cfg, s) ∧
      MemberEdge jhash1word s 0x0A000001 0x0A000001 := by
  obtain ⟨s, hs, cnt, idx, hfound⟩ := joinMessage_multiNodeInit jhash1word 0x0A000001
    (show [(0x0A000001 : UInt32)].length ≤ multiVmMax by decide)
  have hparse : parseArgs selfMember =
      .ok (.add (.ofList multiOptJoin 0x0A000001 [0x0A000001])) := rfl
  refine ⟨some [⟨ip2str 0x0A000001, [ip2str 0x0A000001]⟩], s, ?_, cnt, idx, _, hfound, by simp⟩
  have hne : selfMember ≠ [] := by decide
  have hcfg : multiGrpAddToConfig (multiGrpConfigInit none)
      (.ofList multiOptJoin 0x0A000001 [0x0A000001]) =
        (0, some [⟨ip2str 0x0A000001, [ip2str 0x0A000001]⟩]) := rfl
  simp only [joinMessage] at hs
  simp [multisAdmin, hne, hparse, Command.run, Command.updateConfig, Command.message, hcfg, hs]

/-- A group that is its own member, made by one command: a packet to it is copied for ever, whatever
the bucket hash and the checksums. -/
theorem not_fan_out_terminates : ¬ ∃ (jhash1word : UInt32 → UInt32 → UInt32) (csum : CsumReplace),
    ∀ cfg s, multisAdmin jhash1word selfMember none multiNodeInit = .ret (0, cfg, s) →
      ∀ counters, ∀ skb : Skb, skb.protocol = ipprotoUdp → ¬ ∃ f : Nat → Module × Skb,
        f 0 = (⟨s, counters⟩, skb) ∧ Walk.IsWalk (Reenters jhash1word csum) f := by
  rintro ⟨jhash1word, csum, h⟩
  obtain ⟨cfg, s, hrun, hedge⟩ := multisAdmin_selfMember jhash1word
  have hwalk := exists_walk_of_memberCycle csum (m := ⟨s, ⟨0, 0, 0, 0, 0, 0⟩⟩)
    (Relation.TransGen.single hedge)
  exact h cfg s hrun _ _ rfl hwalk

end MulticastProxy.KernelServer
