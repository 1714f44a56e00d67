import MulticastProxy.KernelServer.CopyAccounting
import MulticastProxy.KernelServer.Service
import MulticastProxy.Library.Unfolding

/-!
# Kernel server: fan-out through groups of groups (`kmod/multis_nf.c`)

`ip_local_out` runs the hook on each copy, before the loop that made it goes on. A copy whose
address is again a group is sent to the members of this group, and goes out itself.
-/

namespace MulticastProxy.KernelServer

set_option autoImplicit false

open Relation

section
variable (jhash1word : UInt32 → UInt32 → UInt32) (csum : CsumReplace)

section
variable (run : (List Nat → CopyFate) → Module → Skb → Option (Module × List Skb))

/-- The loop over the members, with `ip_local_out` as `run`. `fates` answers for the copies of this
packet, of the copies of its copies and so on. -/
def reentryLoop (skb : Skb) (grpIdx : UInt8) (fates : List Nat → CopyFate) :
    Nat → List UInt32 → Module → Option (Module × List Skb)
  | _, [], m => some (m, [])
  | i, vmIp :: vmIps, m =>
    match copyToMember csum skb grpIdx m vmIp (fates [i]) with
    | (m, none) => reentryLoop skb grpIdx fates (i + 1) vmIps m
    | (_, some newSkb) => do
      let (m, out) ← run (fun pos => fates (i :: pos)) m newSkb
      -- counted when `ip_local_out` is back
      let (m, _) := copyToMember csum skb grpIdx m vmIp .sent
      let (m, rest) ← reentryLoop skb grpIdx fates (i + 1) vmIps m
      some (m, out ++ rest)

end

/-- `ip_local_out` with the hook in front of it: the module afterwards and what has gone out.
Nestings deeper than `fuel` have no result. -/
def ipLocalOut : Nat → (List Nat → CopyFate) → Module → Skb → Option (Module × List Skb)
  | 0, _, _, _ => none
  | fuel + 1, fates, m, skb =>
    if skb.protocol ≠ ipprotoUdp then some (m, [skb])
    else
      match lookupMultiNode jhash1word m.table skb.daddr with
      | none =>
        some ({ m with counters.noMultiGrpPktDropCount := m.counters.noMultiGrpPktDropCount + 1 },
          [skb])
      | some (memberCnt, grpIdx, vmIpList) =>
        if memberCnt = 0 then
          some ({ m with counters.noVmIpListPktDropCount := m.counters.noVmIpListPktDropCount + 1 },
            [skb])
        else do
          let (m, out) ← reentryLoop csum (ipLocalOut fuel) skb grpIdx fates 0 vmIpList m
          some (m, out ++ [skb])

/-! ## What should go out -/

/-- The members of a group; none for an address without a group. -/
def hops (s : State) (g : UInt32) : List UInt32 :=
  match lookupMultiNode jhash1word s g with
  | none => []
  | some (_, _, vmIpList) => vmIpList

/-- The copy of a copy of a copy, by the addresses on the way. -/
def copyAlong (skb : Skb) (ips : List UInt32) : Skb := ips.foldl (memberCopy csum) skb

inductive Tally where
  | noMultiGrp
  | noVmIpList
  | fate (fate : CopyFate)
  | slot (idx : UInt8)
  deriving DecidableEq

/-- What the loop counts for `n` members from the `i`th on. -/
def rowTally (fates : List Nat → CopyFate) (grpIdx : UInt8) (i n : Nat) : Tally → Nat
  | .fate fate => (List.range' i n).countP fun j => fates [j] = fate
  | .slot idx => if grpIdx = idx then (List.range' i n).countP fun j => fates [j] = .sent else 0
  | _ => 0

/-- What one run of the hook counts, by the group that it finds. -/
def ownTally (fates : List Nat → CopyFate) : Option (Nat × UInt8 × List UInt32) → Tally → Nat
  | none => Pi.single .noMultiGrp 1
  | some (memberCnt, grpIdx, vmIpList) =>
    if memberCnt = 0 then Pi.single .noVmIpList 1
    else rowTally fates grpIdx 0 vmIpList.length

/-- Groups and members stay, and the counters move. -/
structure Moves (len : UInt16) (m m' : Module) (tally : Tally → Nat) : Prop where
  groups : SameGroups m.table m'.table
  noMultiGrp : m'.counters.noMultiGrpPktDropCount =
    m.counters.noMultiGrpPktDropCount + UInt64.ofNat (tally .noMultiGrp)
  noVmIpList : m'.counters.noVmIpListPktDropCount =
    m.counters.noVmIpListPktDropCount + UInt64.ofNat (tally .noVmIpList)
  routeFail : m'.counters.routeFailDropCount =
    m.counters.routeFailDropCount + UInt64.ofNat (tally (.fate .routeFail))
  noMem : m'.counters.noMemDropCount =
    m.counters.noMemDropCount + UInt64.ofNat (tally (.fate .noMem))
  txPackets : m'.counters.txPackets =
    m.counters.txPackets + UInt64.ofNat (tally (.fate .sent))
  txBytes : m'.counters.txBytes =
    m.counters.txBytes + UInt64.ofNat (tally (.fate .sent)) * len.toUInt64
  slotPackets : ∀ idx : UInt8, (m'.table.multiStats idx.toNat).txPackets =
    (m.table.multiStats idx.toNat).txPackets + UInt64.ofNat (tally (.slot idx))
  slotBytes : ∀ idx : UInt8, (m'.table.multiStats idx.toNat).txBytes =
    (m.table.multiStats idx.toNat).txBytes + UInt64.ofNat (tally (.slot idx)) * len.toUInt64

end

variable {jhash1word : UInt32 → UInt32 → UInt32} {csum : CsumReplace}

theorem memberCopy_daddr (csum : CsumReplace) (skb : Skb) (vmIp : UInt32) :
    (memberCopy csum skb vmIp).daddr = vmIp :=
  Skb.dnat_daddr csum _ vmIp

theorem memberCopy_totLen (csum : CsumReplace) (skb : Skb) (vmIp : UInt32) :
    (memberCopy csum skb vmIp).totLen = skb.totLen :=
  Skb.dnat_totLen csum _ vmIp

/-! ## Counting -/

theorem Moves.refl (len : UInt16) (m : Module) : Moves len m m 0 := by
  constructor <;> simp [SameGroups]

theorem Moves.trans {len : UInt16} {m m' m'' : Module} {tally tally' : Tally → Nat}
    (h : Moves len m m' tally) (h' : Moves len m' m'' tally') :
    Moves len m m'' (tally + tally') where
  groups := ⟨h'.groups.1.trans h.groups.1, h'.groups.2.trans h.groups.2⟩
  noMultiGrp := by
    rw [h'.noMultiGrp, h.noMultiGrp, Pi.add_apply, UInt64.ofNat_add, UInt64.add_assoc]
  noVmIpList := by
    rw [h'.noVmIpList, h.noVmIpList, Pi.add_apply, UInt64.ofNat_add, UInt64.add_assoc]
  routeFail := by
    rw [h'.routeFail, h.routeFail, Pi.add_apply, UInt64.ofNat_add, UInt64.add_assoc]
  noMem := by
    rw [h'.noMem, h.noMem, Pi.add_apply, UInt64.ofNat_add, UInt64.add_assoc]
  txPackets := by
    rw [h'.txPackets, h.txPackets, Pi.add_apply, UInt64.ofNat_add, UInt64.add_assoc]
  txBytes := by
    rw [h'.txBytes, h.txBytes, Pi.add_apply, UInt64.ofNat_add, UInt64.add_mul, UInt64.add_assoc]
  slotPackets := by
    intro idx
    rw [h'.slotPackets, h.slotPackets, Pi.add_apply, UInt64.ofNat_add, UInt64.add_assoc]
  slotBytes := by
    intro idx
    rw [h'.slotBytes, h.slotBytes, Pi.add_apply, UInt64.ofNat_add, UInt64.add_mul,
      UInt64.add_assoc]

/-- What a copy with this fate is counted as. -/
def fateTally (grpIdx : UInt8) (fate : CopyFate) : Tally → Nat
  | .fate fate' => if fate = fate' then 1 else 0
  | .slot idx => if fate = .sent ∧ grpIdx = idx then 1 else 0
  | _ => 0

theorem copyToMember_moves (csum : CsumReplace) {skb : Skb} (hlen : 8 ≤ skb.transport.length)
    (grpIdx : UInt8) (m : Module) (vmIp : UInt32) (fate : CopyFate) :
    Moves skb.totLen m (copyToMember csum skb grpIdx m vmIp fate).1 (fateTally grpIdx fate) := by
  have huh : skb.udpHeader = some skb.transport := if_neg (by omega)
  cases fate with
  | noMem =>
    rw [copyToMember]
    constructor <;> simp [SameGroups, fateTally]
  | routeFail =>
    rw [copyToMember, huh]
    constructor <;> simp [SameGroups, fateTally]
  | sent =>
    rw [copyToMember, huh]
    dsimp only
    rw [memberCopy_totLen]
    constructor
    case slotPackets =>
      intro idx
      by_cases hidx : grpIdx = idx
      · simp [multiGrpStats, fateTally, hidx]
      · have hne : idx.toNat ≠ grpIdx.toNat := fun he => hidx (UInt8.toNat_inj.mp he).symm
        simp [multiGrpStats, fateTally, hidx, Function.update_of_ne hne]
    case slotBytes =>
      intro idx
      by_cases hidx : grpIdx = idx
      · simp [multiGrpStats, fateTally, hidx]
      · have hne : idx.toNat ≠ grpIdx.toNat := fun he => hidx (UInt8.toNat_inj.mp he).symm
        simp [multiGrpStats, fateTally, hidx, Function.update_of_ne hne]
    all_goals simp [SameGroups, multiGrpStats, fateTally]

theorem rowTally_succ (fates : List Nat → CopyFate) (grpIdx : UInt8) (i n : Nat) :
    rowTally fates grpIdx i (n + 1) =
      fateTally grpIdx (fates [i]) + rowTally fates grpIdx (i + 1) n := by
  funext tally
  cases tally with
  | noMultiGrp => rfl
  | noVmIpList => rfl
  | fate fate =>
    rw [Pi.add_apply, rowTally, List.range'_succ, List.countP_cons, fateTally, rowTally,
      Nat.add_comm]
    simp
  | slot idx =>
    rw [Pi.add_apply, rowTally, List.range'_succ, List.countP_cons, fateTally, rowTally]
    by_cases hidx : grpIdx = idx
    · simp [hidx, Nat.add_comm]
    · simp [hidx]

theorem rowTally_zero (fates : List Nat → CopyFate) (grpIdx : UInt8) (i : Nat) :
    rowTally fates grpIdx i 0 = 0 := by
  funext tally
  cases tally with
  | noMultiGrp => rfl
  | noVmIpList => rfl
  | fate fate => rfl
  | slot idx => exact ite_self 0

/-! ## The members of one packet -/

section
variable (jhash1word)

def keepSent (fates : List Nat → CopyFate) (pos : List Nat) : Bool := fates pos = .sent

def weight (s : State) (fates : List Nat → CopyFate) (g : UInt32) : Tally → Nat :=
  ownTally fates (lookupMultiNode jhash1word s g)

variable (csum)

/-- The packet at a position. -/
def copyAt (s : State) (skb : Skb) (pos : List Nat) : Skb :=
  copyAlong csum skb (Unfolding.route (hops jhash1word s) skb.daddr pos)

/-- One packet goes out for each position, and each run of the hook counts once. -/
structure GoesOut (s : State) (fates : List Nat → CopyFate) (skb : Skb) (poss : List (List Nat))
    (m m' : Module) (out : List Skb) : Prop where
  copies : out = poss.map (copyAt jhash1word csum s skb)
  moves : Moves skb.totLen m m'
    (Unfolding.total (hops jhash1word s) (weight jhash1word s) fates skb.daddr poss)
  sent : poss.length = Unfolding.total (hops jhash1word s) (weight jhash1word s) fates skb.daddr
    poss (.fate .sent) + 1

end

theorem copyAt_root (s : State) (skb : Skb) : copyAt jhash1word csum s skb [] = skb := rfl

theorem copyAt_below {s : State} {skb : Skb} {i : Nat} {vmIp : UInt32}
    (hvm : (hops jhash1word s skb.daddr)[i]? = some vmIp) (pos : List Nat) :
    copyAt jhash1word csum s skb (i :: pos) =
      copyAt jhash1word csum s (memberCopy csum skb vmIp) pos := by
  rw [copyAt, Unfolding.route, hvm, copyAt, memberCopy_daddr]
  rfl

section
variable {run : (List Nat → CopyFate) → Module → Skb → Option (Module × List Skb)}
variable {visit : (List Nat → Bool) → UInt32 → List (List Nat)} {s : State} {skb : Skb}

open Unfolding

theorem copyToMember_lost (csum : CsumReplace) {fate : CopyFate} (hfate : fate ≠ .sent)
    (grpIdx : UInt8) (m : Module) (vmIp : UInt32) :
    (copyToMember csum skb grpIdx m vmIp fate).2 = none := by
  cases fate with
  | noMem => rfl
  | routeFail =>
    rw [copyToMember]
    split <;> rfl
  | sent => exact absurd rfl hfate

theorem copyToMember_sent (csum : CsumReplace) (hlen : 8 ≤ skb.transport.length)
    (grpIdx : UInt8) (m : Module) (vmIp : UInt32) :
    (copyToMember csum skb grpIdx m vmIp .sent).2 = some (memberCopy csum skb vmIp) := by
  have huh : skb.udpHeader = some skb.transport := if_neg (by omega)
  rw [copyToMember, huh]

section
variable (grpIdx : UInt8) {fates : List Nat → CopyFate} {i : Nat} {vmIp : UInt32}
variable (vmIps : List UInt32) (m : Module)

theorem reentryLoop_lost (hfate : fates [i] ≠ .sent) :
    reentryLoop csum run skb grpIdx fates i (vmIp :: vmIps) m =
      reentryLoop csum run skb grpIdx fates (i + 1) vmIps
        (copyToMember csum skb grpIdx m vmIp (fates [i])).1 := by
  have hnone : (copyToMember csum skb grpIdx m vmIp (fates [i])).2 = none :=
    copyToMember_lost csum hfate grpIdx m vmIp
  rw [reentryLoop]
  generalize copyToMember csum skb grpIdx m vmIp (fates [i]) = p at hnone ⊢
  obtain ⟨m', newSkb⟩ := p
  obtain rfl : newSkb = none := hnone
  rfl

variable {m}

theorem reentryLoop_sent (hlen : 8 ≤ skb.transport.length) (hfate : fates [i] = .sent)
    {m' : Module} {out : List Skb}
    (hrun : run (fun pos => fates (i :: pos)) m (memberCopy csum skb vmIp) = some (m', out)) :
    reentryLoop csum run skb grpIdx fates i (vmIp :: vmIps) m =
      (reentryLoop csum run skb grpIdx fates (i + 1) vmIps
        (copyToMember csum skb grpIdx m' vmIp .sent).1).map fun p => (p.1, out ++ p.2) := by
  have hsome := copyToMember_sent csum hlen grpIdx m vmIp
  rw [reentryLoop, hfate]
  generalize copyToMember csum skb grpIdx m vmIp .sent = p at hsome ⊢
  obtain ⟨m1, newSkb⟩ := p
  obtain rfl : newSkb = some (memberCopy csum skb vmIp) := hsome
  simp only [hrun, Option.bind_eq_bind, Option.bind_some]
  rw [Option.map_eq_bind]
  rfl

end

/-- The loop, where the runs on the copies do what they should. -/
theorem reentryLoop_goesOut (hudp : skb.protocol = ipprotoUdp) (hlen : 8 ≤ skb.transport.length)
    (grpIdx : UInt8) (fates : List Nat → CopyFate) {vmIps : List UInt32} {i : Nat}
    (hrow : ∀ j, (hops jhash1word s skb.daddr)[i + j]? = vmIps[j]?)
    (hrun : ∀ vmIp ∈ vmIps, ∀ fates m newSkb, SameGroups s m.table →
      newSkb.protocol = ipprotoUdp → 8 ≤ newSkb.transport.length → newSkb.daddr = vmIp →
      ∃ m' out, run fates m newSkb = some (m', out) ∧
        GoesOut jhash1word csum s fates newSkb (visit (keepSent fates) vmIp) m m' out)
    {m : Module} (hgroups : SameGroups s m.table) :
    ∃ m', reentryLoop csum run skb grpIdx fates i vmIps m =
        some (m', (forest visit (keepSent fates) i vmIps).map (copyAt jhash1word csum s skb)) ∧
      Moves skb.totLen m m'
        (total (hops jhash1word s) (weight jhash1word s) fates skb.daddr
          (forest visit (keepSent fates) i vmIps) + rowTally fates grpIdx i vmIps.length) ∧
      (forest visit (keepSent fates) i vmIps).length =
        total (hops jhash1word s) (weight jhash1word s) fates skb.daddr
          (forest visit (keepSent fates) i vmIps) (.fate .sent) +
        rowTally fates grpIdx i vmIps.length (.fate .sent) := by
  induction vmIps generalizing i m with
  | nil =>
    refine ⟨m, rfl, ?_, rfl⟩
    rw [List.length_nil, rowTally_zero, forest, total_nil, add_zero]
    exact Moves.refl _ m
  | cons vmIp vmIps ih =>
    have hhere : (hops jhash1word s skb.daddr)[i]? = some vmIp := hrow 0
    have hlater : ∀ j, (hops jhash1word s skb.daddr)[i + 1 + j]? = vmIps[j]? := by
      intro j
      rw [Nat.add_assoc, Nat.add_comm 1 j]
      exact hrow (j + 1)
    have hrest := @ih (i + 1) hlater fun ip hip => hrun ip (List.mem_cons_of_mem vmIp hip)
    rw [List.length_cons, rowTally_succ, forest]
    by_cases hfate : fates [i] = .sent
    · have hkeep : keepSent fates [i] = true := decide_eq_true hfate
      obtain ⟨m1, out, hone, hout⟩ := hrun vmIp List.mem_cons_self (fun pos => fates (i :: pos)) m
        (memberCopy csum skb vmIp) hgroups (by simpa [memberCopy] using hudp)
        (by simpa [memberCopy] using hlen) (memberCopy_daddr csum skb vmIp)
      obtain ⟨rfl, hinner, hsent⟩ := hout
      rw [memberCopy_totLen, memberCopy_daddr] at hinner
      rw [memberCopy_daddr] at hsent
      have hcounted := hinner.trans (copyToMember_moves csum hlen grpIdx m1 vmIp .sent)
      obtain ⟨m', hloop, hmoves, hcount⟩ := hrest
        ⟨hcounted.groups.1.trans hgroups.1, hcounted.groups.2.trans hgroups.2⟩
      rw [hkeep, if_pos rfl, total_append, total_below fates hhere]
      refine ⟨m', ?_, ?_, ?_⟩
      · rw [reentryLoop_sent grpIdx vmIps hlen hfate hone, hloop, Option.map_some, List.map_append,
          List.map_map]
        congr 3
        apply List.map_congr_left
        intro pos _
        exact (copyAt_below hhere pos).symm
      · rw [add_add_add_comm, hfate]
        exact hcounted.trans hmoves
      · rw [List.length_append, List.length_map, hcount, Pi.add_apply, Pi.add_apply, fateTally,
          if_pos hfate]
        have hvisit : (visit (fun pos => keepSent fates (i :: pos)) vmIp).length =
          total (hops jhash1word s) (weight jhash1word s) (fun p => fates (i :: p)) vmIp
            (visit (fun pos => keepSent fates (i :: pos)) vmIp) (.fate .sent) + 1 := hsent
        omega
    · have hkeep : keepSent fates [i] = false := decide_eq_false hfate
      have hlost := copyToMember_moves csum hlen grpIdx m vmIp (fates [i])
      obtain ⟨m', hloop, hmoves, hcount⟩ := hrest
        ⟨hlost.groups.1.trans hgroups.1, hlost.groups.2.trans hgroups.2⟩
      rw [hkeep, if_neg Bool.false_ne_true, List.nil_append]
      refine ⟨m', (reentryLoop_lost grpIdx vmIps m hfate).trans hloop, ?_, ?_⟩
      · rw [add_left_comm]
        exact hlost.trans hmoves
      · rw [hcount, Pi.add_apply, fateTally, if_neg hfate, Nat.zero_add]

/-! ## One packet -/

/-- A packet that stops here goes out by itself. -/
theorem goesOut_alone {fates : List Nat → CopyFate} {m m' : Module}
    (hhops : hops jhash1word s skb.daddr = []) (fuel : Nat)
    (hmoves : Moves skb.totLen m m' (weight jhash1word s fates skb.daddr))
    (hsent : weight jhash1word s fates skb.daddr (.fate .sent) = 0) :
    GoesOut jhash1word csum s fates skb
      (postorder (hops jhash1word s) (fuel + 1) (keepSent fates) skb.daddr) m m' [skb] := by
  rw [postorder, hhops, forest, List.nil_append]
  constructor
  · rfl
  · rw [total_root]
    exact hmoves
  · rw [total_root, hsent]
    rfl

/-- With fuel for the groups that can be reached, what goes out is there. -/
theorem ipLocalOut_goesOut (hfinite : {g | hops jhash1word s g ≠ []}.Finite) {fuel : Nat}
    (fates : List Nat → CopyFate) {m : Module} (hgroups : SameGroups s m.table)
    (hudp : skb.protocol = ipprotoUdp) (hlen : 8 ≤ skb.transport.length)
    (hacyclic : AcyclicFrom (hops jhash1word s) skb.daddr)
    (hfuel : (inner (hops jhash1word s) skb.daddr).ncard < fuel) :
    ∃ m' out, ipLocalOut jhash1word csum fuel fates m skb = some (m', out) ∧
      GoesOut jhash1word csum s fates skb
        (postorder (hops jhash1word s) fuel (keepSent fates) skb.daddr) m m' out := by
  induction fuel generalizing fates m skb with
  | zero => omega
  | succ fuel ih =>
    have hlook : lookupMultiNode jhash1word m.table skb.daddr =
        lookupMultiNode jhash1word s skb.daddr := hgroups.lookup skb.daddr
    rw [ipLocalOut, if_neg (not_not.mpr hudp), hlook]
    cases hfound : lookupMultiNode jhash1word s skb.daddr with
    | none =>
      have hhops : hops jhash1word s skb.daddr = [] := by rw [hops, hfound]
      refine ⟨_, _, rfl, goesOut_alone hhops fuel ?_ ?_⟩
      · rw [weight, hfound, ownTally]
        constructor <;> simp [SameGroups]
      · rw [weight, hfound, ownTally]
        rfl
    | some found =>
      obtain ⟨memberCnt, grpIdx, vmIpList⟩ := found
      have hcnt := length_of_lookup hfound
      have hhops : hops jhash1word s skb.daddr = vmIpList := by rw [hops, hfound]
      dsimp only
      by_cases hzero : memberCnt = 0
      · rw [if_pos hzero]
        have hempty : vmIpList = [] := List.eq_nil_of_length_eq_zero (hcnt.trans hzero)
        refine ⟨_, _, rfl, goesOut_alone (hhops.trans hempty) fuel ?_ ?_⟩
        · rw [weight, hfound, ownTally, if_pos hzero]
          constructor <;> simp [SameGroups]
        · rw [weight, hfound, ownTally, if_pos hzero]
          rfl
      · rw [if_neg hzero]
        have hrun : ∀ vmIp ∈ vmIpList, ∀ fates m newSkb, SameGroups s m.table →
            newSkb.protocol = ipprotoUdp → 8 ≤ newSkb.transport.length → newSkb.daddr = vmIp →
            ∃ m' out, ipLocalOut jhash1word csum fuel fates m newSkb = some (m', out) ∧
              GoesOut jhash1word csum s fates newSkb
                (postorder (hops jhash1word s) fuel (keepSent fates) vmIp) m m' out := by
          intro vmIp hvm fates m newSkb hgroups hudp hlen hdaddr
          rw [← hhops] at hvm
          have hlt := ncard_inner_lt hacyclic hvm hfinite
          subst hdaddr
          exact ih fates hgroups hudp hlen (hacyclic.child hvm) (by omega)
        have hrow : ∀ j, (hops jhash1word s skb.daddr)[0 + j]? = vmIpList[j]? := by
          intro j
          rw [Nat.zero_add, hhops]
        obtain ⟨m', hloop, hmoves, hcount⟩ :=
          reentryLoop_goesOut hudp hlen grpIdx fates hrow hrun hgroups
        rw [hloop]
        refine ⟨m', _, rfl, ?_⟩
        rw [postorder, hhops]
        constructor
        · rw [List.map_append]
          rfl
        · rw [total_append, total_root, weight, hfound, ownTally, if_neg hzero]
          exact hmoves
        · rw [total_append, total_root, weight, hfound, ownTally, if_neg hzero,
            List.length_append, hcount]
          rfl

end

/-! ## The whole fan-out -/

theorem edge_hops (s : State) :
    Unfolding.Edge (hops jhash1word s) = MemberEdge jhash1word s := by
  funext g ip
  apply propext
  unfold Unfolding.Edge hops MemberEdge
  cases hfound : lookupMultiNode jhash1word s g with
  | none => simp
  | some found =>
    obtain ⟨memberCnt, grpIdx, vmIpList⟩ := found
    simp

theorem hops_eq (s : State) (g : UInt32) :
    hops jhash1word s g = (membersOf jhash1word s g).getD [] := by
  rw [← lookupMultiNode_members, hops]
  cases lookupMultiNode jhash1word s g with
  | none => rfl
  | some found => rfl

/-- No more addresses have members than there are live nodes. -/
theorem ncard_hops_le {s : State} (wf : WellFormed jhash1word s) :
    {g | hops jhash1word s g ≠ []}.Finite ∧
      {g | hops jhash1word s g ≠ []}.ncard ≤ (liveNodes jhash1word s).card := by
  let keys := (liveNodes jhash1word s).image fun p => (s.multiGrp p.1 p.2).multiIp
  have hsub : {g | hops jhash1word s g ≠ []} ⊆ keys := by
    intro g hg
    have hfound : nodeOf jhash1word s g ≠ none := by
      intro hnone
      apply hg
      rw [hops_eq, membersOf, hnone]
      rfl
    obtain ⟨node, hnode⟩ := Option.ne_none_iff_exists'.mp hfound
    obtain ⟨b, i, rfl, hcreated, rfl⟩ := wf.nodeOf_iff.mp hnode
    have hlive : (b, i) ∈ liveNodes jhash1word s := wf.mem_liveNodes.mpr hcreated
    exact Finset.mem_image_of_mem (fun p => (s.multiGrp p.1 p.2).multiIp) hlive
  refine ⟨keys.finite_toSet.subset hsub, ?_⟩
  have hle := Set.ncard_le_ncard hsub keys.finite_toSet
  rw [Set.ncard_coe_finset] at hle
  exact hle.trans Finset.card_image_le

/-- A UDP packet to a group that does not lead back to itself. Nested no deeper than there are
groups, the hook ends. Whatever becomes of the copies, exactly one packet has gone out for each way
through the groups on which all copies were sent, namely the copy along this way, and the counters
have moved by what each run of the hook counts. -/
theorem nested_fan_out (jhash1word : UInt32 → UInt32 → UInt32) (csum : CsumReplace) {m : Module}
    (wf : WellFormed jhash1word m.table) {skb : Skb} (hudp : skb.protocol = ipprotoUdp)
    (hlen : 8 ≤ skb.transport.length)
    (hacyclic : ∀ g, ReflTransGen (MemberEdge jhash1word m.table) skb.daddr g →
      ¬ TransGen (MemberEdge jhash1word m.table) g g) (fates : List Nat → CopyFate) {fuel : Nat}
    (hfuel : (liveNodes jhash1word m.table).card < fuel) :
    ∃ m' out poss, ipLocalOut jhash1word csum fuel fates m skb = some (m', out) ∧
      poss.Nodup ∧
      (∀ pos, pos ∈ poss ↔
        Unfolding.Reached (hops jhash1word m.table) (keepSent fates) skb.daddr pos) ∧
      GoesOut jhash1word csum m.table fates skb poss m m' out := by
  have hbelow : Unfolding.AcyclicFrom (hops jhash1word m.table) skb.daddr := by
    rw [Unfolding.AcyclicFrom, edge_hops]
    exact hacyclic
  obtain ⟨hfinite, hle⟩ := ncard_hops_le wf
  have hdepth : (Unfolding.inner (hops jhash1word m.table) skb.daddr).ncard < fuel :=
    Nat.lt_of_le_of_lt ((Unfolding.ncard_inner_le skb.daddr hfinite).trans hle) hfuel
  obtain ⟨m', out, hrun, hout⟩ :=
    ipLocalOut_goesOut hfinite fates ⟨rfl, rfl⟩ hudp hlen hbelow hdepth
  refine ⟨m', out, _, hrun, Unfolding.nodup_postorder _ _ _, ?_, hout⟩
  intro pos
  exact Unfolding.mem_postorder hfinite hbelow hdepth

/-- 10.0.0.1 is a group and a member of 225.0.0.1. -/
def nestedGroups : Groups :=
  [(0xE1000001, [0x0A000001, 0x0A000002]), (0x0A000001, [0x0A000003, 0x0A000004])]

theorem membersOk_pair {ip ip' : UInt32} (hne : ip ≠ ip') (hip : isMulticast ip = false)
    (hip' : isMulticast ip' = false) : MembersOk [ip, ip'] where
  nodup := by simpa using hne
  size := Nat.le_of_ble_eq_true rfl
  unicast := by
    intro ip'' hmem
    rcases List.mem_pair.mp hmem with rfl | rfl
    · exact hip
    · exact hip'

theorem loaded_nestedGroups (jhash1word : UInt32 → UInt32 → UInt32) :
    ∃ s, Loaded jhash1word nestedGroups s := by
  have houter : MembersOk [0x0A000001, 0x0A000002] := membersOk_pair (by decide) rfl rfl
  have hinner : MembersOk [0x0A000003, 0x0A000004] := membersOk_pair (by decide) rfl rfl
  have hfirst : GroupsOk [(0xE1000001, [0x0A000001, 0x0A000002])] := by
    refine ⟨List.nodup_singleton _, Nat.le_of_ble_eq_true rfl, ?_⟩
    intro p hp
    obtain rfl := List.mem_singleton.mp hp
    exact houter
  have hboth : GroupsOk nestedGroups := by
    refine ⟨by simp [nestedGroups], Nat.le_of_ble_eq_true rfl, ?_⟩
    intro p hp
    rcases List.mem_pair.mp hp with rfl | rfl
    · exact houter
    · exact hinner
  have hinit : Loaded jhash1word [] multiNodeInit := loaded_nil
  obtain ⟨s, _, hloaded⟩ := hinit.add hfirst (by decide)
  obtain ⟨s', _, hloaded'⟩ := hloaded.add hboth (by decide)
  exact ⟨s', hloaded'⟩

/-- The second member of the inner group gets its copy. -/
theorem nested_fan_out_two : ∃ (m m' : Module) (out : List Skb),
    ipLocalOut (fun _ _ => 0) ⟨fun check _ _ => check, fun check _ _ => check⟩ 3 (fun _ => .sent) m
        (emptyDatagram 0xE1000001) = some (m', out) ∧
      ∃ newSkb ∈ out, newSkb.daddr = 0x0A000004 := by
  obtain ⟨s, hloaded⟩ := loaded_nestedGroups fun _ _ => 0
  let m : Module := ⟨s, ⟨0, 0, 0, 0, 0, 0⟩⟩
  have hhops : ∀ g, hops (fun _ _ => 0) s g =
      if g = 0xE1000001 then [0x0A000001, 0x0A000002]
      else if g = 0x0A000001 then [0x0A000003, 0x0A000004] else [] := by
    intro g
    rw [hops_eq, hloaded.members, nestedGroups, AssocList.get_cons, AssocList.get_cons,
      AssocList.get_nil]
    by_cases houter : g = 0xE1000001
    · rw [if_pos houter.symm, if_pos houter]
      rfl
    · rw [if_neg (Ne.symm houter), if_neg houter]
      by_cases hinner : g = 0x0A000001
      · rw [if_pos hinner.symm, if_pos hinner]
        rfl
      · rw [if_neg (Ne.symm hinner), if_neg hinner]
        rfl
  have hacyclic : ∀ g, ReflTransGen (MemberEdge (fun _ _ => 0) s) 0xE1000001 g →
      ¬ TransGen (MemberEdge (fun _ _ => 0) s) g g := by
    rw [← edge_hops]
    apply Unfolding.acyclicFrom_of_rank fun g =>
      if g = 0xE1000001 then 2 else if g = 0x0A000001 then 1 else 0
    intro g ip hip
    rw [hhops] at hip
    split at hip
    · rename_i hg
      subst hg
      simp only [List.mem_cons, List.not_mem_nil, or_false] at hip
      rcases hip with rfl | rfl
      · decide
      · decide
    · split at hip
      · rename_i hg
        subst hg
        simp only [List.mem_cons, List.not_mem_nil, or_false] at hip
        rcases hip with rfl | rfl
        · decide
        · decide
      · cases hip
  have hcard : (liveNodes (fun _ _ => 0) s).card < 3 := by
    rw [hloaded.card]
    decide
  let m : Module := ⟨s, ⟨0, 0, 0, 0, 0, 0⟩⟩
  let skb := emptyDatagram 0xE1000001
  obtain ⟨m', out, poss, hrun, _, hreached, hout⟩ := @nested_fan_out (fun _ _ => 0)
    ⟨fun check _ _ => check, fun check _ _ => check⟩ m hloaded.kernel.wf skb rfl (by decide)
    hacyclic (fun _ => .sent) 3 hcard
  have houter : (hops (fun _ _ => 0) s 0xE1000001)[0]? = some 0x0A000001 :=
    congrArg (·[0]?) (hhops 0xE1000001)
  have hinner : (hops (fun _ _ => 0) s 0x0A000001)[1]? = some 0x0A000004 :=
    congrArg (·[1]?) (hhops 0x0A000001)
  have hway : [0, 1] ∈ poss := by
    rw [hreached]
    exact ⟨0x0A000001, houter, rfl, 0x0A000004, hinner, rfl, trivial⟩
  have hcopy : ∀ csum, (copyAt (fun _ _ => 0) csum s skb [0, 1]).daddr = 0x0A000004 := by
    intro csum
    have hnext : (hops (fun _ _ => 0) s (memberCopy csum skb 0x0A000001).daddr)[1]? =
        some 0x0A000004 := by
      rw [memberCopy_daddr]
      exact hinner
    rw [copyAt_below houter, copyAt_below hnext, copyAt_root, memberCopy_daddr]
  exact ⟨m, m', out, hrun, _, hout.copies ▸ List.mem_map_of_mem hway, hcopy _⟩

end MulticastProxy.KernelServer
