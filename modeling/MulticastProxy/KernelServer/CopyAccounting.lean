import MulticastProxy.KernelServer.Hook

/-!
# Kernel server: what becomes of the copies (`tmcs_hook_local_out`)

One round of the member loop has four exits. Each copy made should be sent or freed, and each member
counted under one of three counters.
-/

namespace MulticastProxy.KernelServer

set_option autoImplicit false

/-- What `skb_copy`, `skb_header_pointer` and `ip_route_me_harder` return for one member. -/
structure CopyOutcome where
  copied : Bool
  header : Bool
  routed : Bool

inductive Counter where
  | noMemDropCount
  | routeFailDropCount
  | txPackets
  deriving DecidableEq, Repr

/-- The steps of a run that concern its copies, the copy for member `i` being number `i`. -/
inductive CopyEvent where
  | copied (i : Nat)
  | freed (i : Nat)
  | localOut (i : Nat) (newSkb : Skb)
  | counted (counter : Counter)
  deriving DecidableEq, Repr

section
variable (jhash1word : UInt32 → UInt32 → UInt32) (csum : CsumReplace)

def memberRound (skb : Skb) (grpIdx : UInt8) (i : Nat) (vmIp : UInt32) (outcome : CopyOutcome)
    (m : Module) : Module × List CopyEvent :=
  if outcome.copied = false then
    ({ m with counters.noMemDropCount := m.counters.noMemDropCount + 1 },
      [.counted .noMemDropCount])
  -- `continue`, and the new buffer is lost
  else if outcome.header = false then (m, [.copied i])
  else
    let newSkb := memberCopy csum skb vmIp
    if outcome.routed = false then
      ({ m with counters.routeFailDropCount := m.counters.routeFailDropCount + 1 },
        [.copied i, .freed i, .counted .routeFailDropCount])
    else
      ({ table := multiGrpStats m.table grpIdx.toNat newSkb.totLen
         counters :=
          { m.counters with
            txPackets := m.counters.txPackets + 1
            txBytes := m.counters.txBytes + newSkb.totLen.toUInt64 } },
        [.copied i, .localOut i newSkb, .counted .txPackets])

def memberRounds (skb : Skb) (grpIdx : UInt8) (outcome : Nat → CopyOutcome) :
    Nat → List UInt32 → Module → Module × List CopyEvent
  | _, [], m => (m, [])
  | i, vmIp :: vmIps, m =>
    let (m, events) := memberRound csum skb grpIdx i vmIp (outcome i) m
    let (m, rest) := memberRounds skb grpIdx outcome (i + 1) vmIps m
    (m, events ++ rest)

/-- The hook, whatever its three callees return. -/
def hookLocalOutWith (outcome : Nat → CopyOutcome) (m : Module) (skb : Skb) :
    Module × List CopyEvent :=
  if skb.protocol ≠ ipprotoUdp then (m, [])
  else
    match lookupMultiNode jhash1word m.table skb.daddr with
    | none =>
      ({ m with counters.noMultiGrpPktDropCount := m.counters.noMultiGrpPktDropCount + 1 }, [])
    | some (memberCnt, grpIdx, vmIpList) =>
      if memberCnt = 0 then
        ({ m with counters.noVmIpListPktDropCount := m.counters.noVmIpListPktDropCount + 1 }, [])
      else memberRounds csum skb grpIdx outcome 0 vmIpList m

end

def increments (events : List CopyEvent) (counter : Counter) : Nat :=
  events.count (.counted counter)

def CopyEvent.sent : CopyEvent → Option Skb
  | .localOut _ newSkb => some newSkb
  | _ => none

/-- Each member is counted once, and each copy is passed on or freed. -/
structure Accounted (memberCnt : Nat) (events : List CopyEvent) : Prop where
  total : increments events .txPackets + increments events .noMemDropCount +
    increments events .routeFailDropCount = memberCnt
  settled : ∀ i, .copied i ∈ events →
    .freed i ∈ events ∨ ∃ newSkb, .localOut i newSkb ∈ events

/-- The three counters move by the increments of the run. -/
structure CountersMove (c c' : Counters) (events : List CopyEvent) : Prop where
  txPackets : c'.txPackets = c.txPackets + UInt64.ofNat (increments events .txPackets)
  noMemDropCount :
    c'.noMemDropCount = c.noMemDropCount + UInt64.ofNat (increments events .noMemDropCount)
  routeFailDropCount : c'.routeFailDropCount =
    c.routeFailDropCount + UInt64.ofNat (increments events .routeFailDropCount)

/-- A copy is made whose UDP header is not found. -/
def CopyOutcome.Lost (outcome : CopyOutcome) : Prop :=
  outcome.copied = true ∧ outcome.header = false

instance (outcome : CopyOutcome) : Decidable outcome.Lost := inferInstanceAs (Decidable (_ ∧ _))

variable {jhash1word : UInt32 → UInt32 → UInt32} {csum : CsumReplace}

/-! ## One round -/

theorem increments_append (events events' : List CopyEvent) (counter : Counter) :
    increments (events ++ events') counter =
      increments events counter + increments events' counter := List.count_append

section
variable (csum : CsumReplace) (skb : Skb) (grpIdx : UInt8) (i : Nat) (vmIp : UInt32)
variable (outcome : CopyOutcome) (m : Module)

theorem memberRound_total :
    increments (memberRound csum skb grpIdx i vmIp outcome m).2 .txPackets +
      increments (memberRound csum skb grpIdx i vmIp outcome m).2 .noMemDropCount +
      increments (memberRound csum skb grpIdx i vmIp outcome m).2 .routeFailDropCount +
      (if outcome.Lost then 1 else 0) = 1 := by
  obtain ⟨copied, header, routed⟩ := outcome
  cases copied with
  | false => rfl
  | true =>
    cases header with
    | false => rfl
    | true =>
      cases routed with
      | false => rfl
      | true => rfl

theorem memberRound_countersMove :
    CountersMove m.counters (memberRound csum skb grpIdx i vmIp outcome m).1.counters
      (memberRound csum skb grpIdx i vmIp outcome m).2 := by
  obtain ⟨copied, header, routed⟩ := outcome
  have hzero : ∀ x : UInt64, x = x + UInt64.ofNat 0 := fun x => (UInt64.add_zero x).symm
  cases copied with
  | false => exact ⟨hzero _, rfl, hzero _⟩
  | true =>
    cases header with
    | false => exact ⟨hzero _, hzero _, hzero _⟩
    | true =>
      cases routed with
      | false => exact ⟨hzero _, hzero _, rfl⟩
      | true => exact ⟨rfl, hzero _, hzero _⟩

variable {csum skb grpIdx i vmIp outcome m}

/-- A round makes its own copy only, and settles it unless it loses it. -/
theorem memberRound_settled {j : Nat} (hlost : ¬ outcome.Lost)
    (h : .copied j ∈ (memberRound csum skb grpIdx i vmIp outcome m).2) :
    .freed j ∈ (memberRound csum skb grpIdx i vmIp outcome m).2 ∨
      ∃ newSkb, .localOut j newSkb ∈ (memberRound csum skb grpIdx i vmIp outcome m).2 := by
  unfold memberRound at h ⊢
  by_cases hcopied : outcome.copied = false
  · simp [hcopied] at h
  · have hheader : ¬ outcome.header = false := by
      intro hheader
      exact hlost ⟨Bool.not_eq_false _ ▸ hcopied, hheader⟩
    rw [if_neg hcopied, if_neg hheader] at h ⊢
    dsimp only at h ⊢
    split at h
    · rename_i hrouted
      rw [if_pos hrouted]
      obtain rfl : j = i := by simpa using h
      exact Or.inl (by simp)
    · rename_i hrouted
      rw [if_neg hrouted]
      obtain rfl : j = i := by simpa using h
      exact Or.inr ⟨_, List.mem_cons_of_mem _ List.mem_cons_self⟩

end

/-! ## The loop -/

theorem CountersMove.trans {c c' c'' : Counters} {events events' : List CopyEvent}
    (h : CountersMove c c' events) (h' : CountersMove c' c'' events') :
    CountersMove c c'' (events ++ events') where
  txPackets := by
    rw [h'.txPackets, h.txPackets, increments_append, UInt64.ofNat_add, UInt64.add_assoc]
  noMemDropCount := by
    rw [h'.noMemDropCount, h.noMemDropCount, increments_append, UInt64.ofNat_add, UInt64.add_assoc]
  routeFailDropCount := by
    rw [h'.routeFailDropCount, h.routeFailDropCount, increments_append, UInt64.ofNat_add,
      UInt64.add_assoc]

section
variable (csum : CsumReplace) (skb : Skb) (grpIdx : UInt8) (outcome : Nat → CopyOutcome)

theorem memberRounds_countersMove (i : Nat) (vmIps : List UInt32) (m : Module) :
    CountersMove m.counters (memberRounds csum skb grpIdx outcome i vmIps m).1.counters
      (memberRounds csum skb grpIdx outcome i vmIps m).2 := by
  induction vmIps generalizing i m with
  | nil => exact ⟨(UInt64.add_zero _).symm, (UInt64.add_zero _).symm, (UInt64.add_zero _).symm⟩
  | cons vmIp vmIps ih => exact (memberRound_countersMove ..).trans (ih _ _)

theorem memberRounds_total (i : Nat) (vmIps : List UInt32) (m : Module) :
    increments (memberRounds csum skb grpIdx outcome i vmIps m).2 .txPackets +
      increments (memberRounds csum skb grpIdx outcome i vmIps m).2 .noMemDropCount +
      increments (memberRounds csum skb grpIdx outcome i vmIps m).2 .routeFailDropCount +
      (List.range' i vmIps.length).countP (fun j => (outcome j).Lost) = vmIps.length := by
  induction vmIps generalizing i m with
  | nil => rfl
  | cons vmIp vmIps ih =>
    have hround := memberRound_total csum skb grpIdx i vmIp (outcome i) m
    have hrest := ih (i + 1) (memberRound csum skb grpIdx i vmIp (outcome i) m).1
    rw [memberRounds]
    simp only [increments_append, List.length_cons, List.range'_succ, List.countP_cons,
      decide_eq_true_eq]
    omega

variable {csum skb grpIdx outcome}

theorem memberRounds_settled {i : Nat} {vmIps : List UInt32} {m : Module}
    (hlost : ∀ j, i ≤ j → j < i + vmIps.length → ¬ (outcome j).Lost) {j : Nat}
    (h : .copied j ∈ (memberRounds csum skb grpIdx outcome i vmIps m).2) :
    .freed j ∈ (memberRounds csum skb grpIdx outcome i vmIps m).2 ∨
      ∃ newSkb, .localOut j newSkb ∈ (memberRounds csum skb grpIdx outcome i vmIps m).2 := by
  induction vmIps generalizing i m with
  | nil => cases h
  | cons vmIp vmIps ih =>
    rw [List.length_cons] at hlost
    rw [memberRounds] at h ⊢
    rcases List.mem_append.mp h with h | h
    · rcases memberRound_settled (hlost i le_rfl (by omega)) h with hfreed | ⟨newSkb, hout⟩
      · exact Or.inl (List.mem_append_left _ hfreed)
      · exact Or.inr ⟨newSkb, List.mem_append_left _ hout⟩
    · rcases ih (fun j h1 h2 => hlost j (by omega) (by omega)) h with hfreed | ⟨newSkb, hout⟩
      · exact Or.inl (List.mem_append_right _ hfreed)
      · exact Or.inr ⟨newSkb, List.mem_append_right _ hout⟩

theorem memberRounds_accounted_iff (vmIps : List UInt32) (m : Module) :
    Accounted vmIps.length (memberRounds csum skb grpIdx outcome 0 vmIps m).2 ↔
      ∀ j < vmIps.length, ¬ (outcome j).Lost := by
  have htotal := memberRounds_total csum skb grpIdx outcome 0 vmIps m
  constructor
  · intro hacc j hj
    have hcount := hacc.total
    have hzero : (List.range' 0 vmIps.length).countP (fun j => (outcome j).Lost) = 0 := by omega
    have hnone := List.countP_eq_zero.mp hzero j (List.mem_range'_1.mpr ⟨Nat.zero_le _, by omega⟩)
    exact fun hlost => hnone (decide_eq_true hlost)
  · intro hlost
    have hzero : (List.range' 0 vmIps.length).countP (fun j => (outcome j).Lost) = 0 := by
      apply List.countP_eq_zero.mpr
      intro j hj
      have hj := List.mem_range'_1.mp hj
      simpa using hlost j (by omega)
    refine ⟨by omega, fun j hj => memberRounds_settled (fun j _ hlt => hlost j (by omega)) hj⟩

end

/-! ## The hook -/

/-- What the copies of a packet meet: they all have its bytes behind the IP header. -/
def outcomeOf (skb : Skb) : CopyFate → CopyOutcome
  | .noMem => ⟨false, skb.udpHeader.isSome, false⟩
  | .routeFail => ⟨true, skb.udpHeader.isSome, false⟩
  | .sent => ⟨true, skb.udpHeader.isSome, true⟩

theorem copyToMember_eq (csum : CsumReplace) (skb : Skb) (grpIdx : UInt8) (i : Nat) (m : Module)
    (vmIp : UInt32) (fate : CopyFate) :
    (copyToMember csum skb grpIdx m vmIp fate).1 =
        (memberRound csum skb grpIdx i vmIp (outcomeOf skb fate) m).1 ∧
      (copyToMember csum skb grpIdx m vmIp fate).2.toList =
        (memberRound csum skb grpIdx i vmIp (outcomeOf skb fate) m).2.filterMap CopyEvent.sent := by
  cases fate with
  | noMem => exact ⟨rfl, rfl⟩
  | routeFail =>
    unfold copyToMember memberRound outcomeOf
    cases skb.udpHeader with
    | none => exact ⟨rfl, rfl⟩
    | some uh => exact ⟨rfl, rfl⟩
  | sent =>
    unfold copyToMember memberRound outcomeOf
    cases skb.udpHeader with
    | none => exact ⟨rfl, rfl⟩
    | some uh => exact ⟨rfl, rfl⟩

theorem copyLoop_eq (skb : Skb) (grpIdx : UInt8) (fate : Nat → CopyFate) (i : Nat)
    (vmIps : List UInt32) (m : Module) :
    copyLoop csum skb grpIdx fate i vmIps m =
      ((memberRounds csum skb grpIdx (fun i => outcomeOf skb (fate i)) i vmIps m).1,
        (memberRounds csum skb grpIdx (fun i => outcomeOf skb (fate i)) i vmIps m).2.filterMap
          CopyEvent.sent) := by
  induction vmIps generalizing i m with
  | nil => rfl
  | cons vmIp vmIps ih =>
    obtain ⟨hmodule, hsent⟩ := copyToMember_eq csum skb grpIdx i m vmIp (fate i)
    rw [copyLoop, memberRounds]
    simp only [ih, hmodule, hsent, List.filterMap_append]

/-- The hook as it sends its copies is the one where every copy finds the header alike. -/
theorem tmcsHookLocalOut_eq (fate : Nat → CopyFate) (m : Module) (skb : Skb) :
    tmcsHookLocalOut jhash1word csum fate m skb =
      ((hookLocalOutWith jhash1word csum (fun i => outcomeOf skb (fate i)) m skb).1,
        (hookLocalOutWith jhash1word csum (fun i => outcomeOf skb (fate i)) m skb).2.filterMap
          CopyEvent.sent) := by
  unfold tmcsHookLocalOut hookLocalOutWith
  split
  · rfl
  · cases lookupMultiNode jhash1word m.table skb.daddr with
    | none => rfl
    | some found =>
      obtain ⟨memberCnt, grpIdx, vmIpList⟩ := found
      dsimp only
      split
      · rfl
      · exact copyLoop_eq ..

theorem length_of_lookup {s : State} {g : UInt32} {memberCnt : Nat} {grpIdx : UInt8}
    {vmIpList : List UInt32}
    (hlook : lookupMultiNode jhash1word s g = some (memberCnt, grpIdx, vmIpList)) :
    vmIpList.length = memberCnt := by
  rw [lookupMultiNode_eq] at hlook
  obtain ⟨node, _, he⟩ := Option.map_eq_some_iff.mp hlook
  simp only [Prod.mk.injEq] at he
  obtain ⟨rfl, _, rfl⟩ := he
  exact length_cells ..

theorem hookLocalOutWith_group (csum : CsumReplace) {m : Module} {skb : Skb} {memberCnt : Nat}
    {grpIdx : UInt8} {vmIpList : List UInt32} (hudp : skb.protocol = ipprotoUdp)
    (hlook : lookupMultiNode jhash1word m.table skb.daddr = some (memberCnt, grpIdx, vmIpList))
    (hcnt : 0 < memberCnt) (outcome : Nat → CopyOutcome) :
    hookLocalOutWith jhash1word csum outcome m skb =
        memberRounds csum skb grpIdx outcome 0 vmIpList m ∧ vmIpList.length = memberCnt := by
  constructor
  · unfold hookLocalOutWith
    rw [if_neg (not_not.mpr hudp), hlook]
    exact if_neg hcnt.ne'
  · exact length_of_lookup hlook

/-- For every packet to a group with members and whatever the three callees return for each member:
the counters move by the run's increments, and these add up to the number of members, with every
copy sent or freed, exactly where no copy is made whose UDP header is not found. -/
theorem copies_accounted_iff {m : Module} {skb : Skb} {memberCnt : Nat} {grpIdx : UInt8}
    {vmIpList : List UInt32} (hudp : skb.protocol = ipprotoUdp)
    (hlook : lookupMultiNode jhash1word m.table skb.daddr = some (memberCnt, grpIdx, vmIpList))
    (hcnt : 0 < memberCnt) (outcome : Nat → CopyOutcome) :
    CountersMove m.counters (hookLocalOutWith jhash1word csum outcome m skb).1.counters
        (hookLocalOutWith jhash1word csum outcome m skb).2 ∧
      (Accounted memberCnt (hookLocalOutWith jhash1word csum outcome m skb).2 ↔
        ∀ j < memberCnt, ¬ (outcome j).Lost) := by
  obtain ⟨hrun, rfl⟩ := hookLocalOutWith_group csum hudp hlook hcnt outcome
  rw [hrun]
  exact ⟨memberRounds_countersMove .., memberRounds_accounted_iff vmIpList m⟩

theorem exists_group_of_one (jhash1word : UInt32 → UInt32 → UInt32) :
    ∃ s idx, lookupMultiNode jhash1word s 0xE1000001 = some (1, idx, [7]) := by
  obtain ⟨s, _, cnt, idx, hfound⟩ := joinMessage_multiNodeInit jhash1word 0xE1000001
    (show [(7 : UInt32)].length ≤ multiVmMax by decide)
  have hlen := length_of_lookup hfound
  obtain rfl : 1 = cnt := hlen
  exact ⟨s, idx, hfound⟩

/-- One member, and its copy is sent. -/
theorem copies_accounted_one : ∃ s, Accounted 1
    (hookLocalOutWith (fun _ _ => 0) ⟨fun check _ _ => check, fun check _ _ => check⟩
      (fun _ => ⟨true, true, true⟩) ⟨s, ⟨0, 0, 0, 0, 0, 0⟩⟩ (emptyDatagram 0xE1000001)).2 := by
  obtain ⟨s, idx, hfound⟩ := exists_group_of_one fun _ _ => 0
  exact ⟨s, (copies_accounted_iff rfl hfound Nat.one_pos _).2.mpr fun j _ hlost =>
    Bool.false_ne_true hlost.2.symm⟩

/-- A packet that ends behind its IP header: its copy is neither sent nor freed, and the member is
not counted. -/
theorem not_copies_accounted : ¬ ∃ jhash1word csum, ∀ (m : Module) (skb : Skb) (memberCnt : Nat)
    (grpIdx : UInt8) (vmIpList : List UInt32) (outcome : Nat → CopyOutcome),
    skb.protocol = ipprotoUdp →
    lookupMultiNode jhash1word m.table skb.daddr = some (memberCnt, grpIdx, vmIpList) →
    0 < memberCnt →
      Accounted memberCnt (hookLocalOutWith jhash1word csum outcome m skb).2 := by
  rintro ⟨jhash1word, csum, hall⟩
  obtain ⟨s, idx, hfound⟩ := exists_group_of_one jhash1word
  let m : Module := ⟨s, ⟨0, 0, 0, 0, 0, 0⟩⟩
  let skb : Skb := { emptyDatagram 0xE1000001 with totLen := 20, transport := [] }
  have hudp : skb.protocol = ipprotoUdp := rfl
  have hlook : lookupMultiNode jhash1word m.table skb.daddr = some (1, idx, [7]) := hfound
  have hacc := hall m skb 1 idx [7] (fun _ => outcomeOf skb .sent) hudp hlook Nat.one_pos
  obtain ⟨hrun, _⟩ :=
    hookLocalOutWith_group csum hudp hlook Nat.one_pos fun _ => outcomeOf skb .sent
  rw [hrun] at hacc
  exact (memberRounds_accounted_iff [7] _).mp hacc 0 Nat.one_pos ⟨rfl, rfl⟩

end MulticastProxy.KernelServer
