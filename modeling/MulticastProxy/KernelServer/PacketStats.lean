import MulticastProxy.KernelServer.IndexOwnership
import MulticastProxy.Library.Trace

/-!
# Kernel server: counters of the groups (`kmod/multis_nf.c`, `kmod/multis_grp.c`)

`tmcs_hook_local_out` copies the index of its group out under the lock and counts each copy that it
sends under this index, without the lock. Meanwhile commands delete the group and give its index to
another one.
-/

namespace MulticastProxy.KernelServer

set_option autoImplicit false

/-- At any time no more groups are live. -/
abbrev groupLimit : Nat := 64

/-- The table and the hook runs, each with the group that its lookup matched and the index that it
remembers. `sent` is no variable of the code: it counts, for each address, the copies that hook runs
for it have sent since its group was made. -/
structure FanOut where
  table : State
  inFlight : Nat → Option (UInt32 × UInt8)
  sent : UInt32 → Nat

inductive FanOutAct where
  | lookup (id : Nat) (daddr : UInt32)
  | stats (id : Nat) (len : UInt16)
  | finish (id : Nat)
  | command (msg : NlMessage)

def FanOut.init : FanOut := ⟨multiNodeInit, fun _ => none, fun _ => 0⟩

section
variable (jhash1word : UInt32 → UInt32 → UInt32)

/-- The address gets a group between the two tables. -/
def Makes (s s' : State) (g : UInt32) : Bool :=
  (rawLookupMultiNode jhash1word s g).isNone && (rawLookupMultiNode jhash1word s' g).isSome

def FanOut.next (h : FanOut) : FanOutAct → Option FanOut
  | .lookup id daddr =>
    match h.inFlight id with
    | some _ => none
    | none =>
      match lookupMultiNode jhash1word h.table daddr with
      | none => some h
      | some (_, grpIdx, _) =>
        some { h with inFlight := Function.update h.inFlight id (some (daddr, grpIdx)) }
  | .stats id len =>
    match h.inFlight id with
    | none => none
    | some (g, grpIdx) =>
      some { h with
        table := multiGrpStats h.table grpIdx.toNat len
        sent := Function.update h.sent g (h.sent g + 1) }
  | .finish id => some { h with inFlight := Function.update h.inFlight id none }
  | .command msg =>
    match tmccRcvSkb jhash1word h.table msg with
    | .ret (_, s) =>
      if (liveNodes jhash1word s).card ≤ groupLimit then
        some { h with
          table := s
          sent := fun g => if Makes jhash1word h.table s g then 0 else h.sent g }
      else none
    | _ => none

/-- The counter that is reported for a live group is the number of its copies. -/
def CountsExact (h : FanOut) : Prop :=
  ∀ g stats, getMultiPktStats jhash1word h.table g = some stats →
    stats.txPackets.toNat = h.sent g

/-- Where a copy is counted, the remembered index is still that of the group, or the group is gone
and nobody has its index; and the counter is not at its last value. -/
def IndexStill (h : FanOut) : FanOutAct → Prop
  | .stats id _ => ∀ g grpIdx, h.inFlight id = some (g, grpIdx) →
    match nodeOf jhash1word h.table g with
    | some node => node.multiGrpIdx = grpIdx ∧
      (h.table.multiStats grpIdx.toNat).txPackets.toNat + 1 < 2 ^ 64
    | none => h.table.bitmap grpIdx.toNat = false
  | _ => True

/-- What holds as long as every copy is counted for its own group. -/
structure Counted (h : FanOut) : Prop where
  wf : WellFormed jhash1word h.table
  own : IndexOwned h.table
  live : (liveNodes jhash1word h.table).card ≤ groupLimit
  exact : ∀ g node, nodeOf jhash1word h.table g = some node →
    (h.table.multiStats node.multiGrpIdx.toNat).txPackets.toNat = h.sent g

end

variable {jhash1word : UInt32 → UInt32 → UInt32}

theorem countsExact_iff {h : FanOut} : CountsExact jhash1word h ↔
    ∀ g node, nodeOf jhash1word h.table g = some node →
      (h.table.multiStats node.multiGrpIdx.toNat).txPackets.toNat = h.sent g := by
  simp only [CountsExact, getMultiPktStats_eq, Option.map_eq_some_iff]
  constructor
  · intro hexact g node hnode
    exact hexact g _ ⟨node, hnode, rfl⟩
  · rintro hexact g _ ⟨node, hnode, rfl⟩
    exact hexact g node hnode

theorem makes_iff {s s' : State} {g : UInt32} : Makes jhash1word s s' g = true ↔
    nodeOf jhash1word s g = none ∧ nodeOf jhash1word s' g ≠ none := by
  rw [Makes, Bool.and_eq_true, Option.isNone_iff_eq_none, Option.isSome_iff_ne_none, Ne, Ne,
    nodeOf_eq_none_iff, nodeOf_eq_none_iff]

/-! ## Commands -/

theorem Counted.poolRoom {h : FanOut} (counted : Counted jhash1word h) (msg : NlMessage) :
    PoolRoom jhash1word h.table msg := by
  cases msg with
  | serviceAdd service =>
    intro _ _
    exact Nat.lt_of_le_of_lt counted.live (by decide)
  | serviceDel service => trivial
  | serverClear => trivial
  | serviceCheckUpdate service => trivial

theorem Effect.multiStats {s s' : State} {msg : NlMessage} (h : Effect jhash1word s msg s')
    (wf : WellFormed jhash1word s) (own : IndexOwned s) (hroom : PoolRoom jhash1word s msg)
    {g : UInt32} {node' : MultiNode} (hnode' : nodeOf jhash1word s' g = some node') :
    (nodeOf jhash1word s g = none ∧ s'.multiStats node'.multiGrpIdx.toNat = ⟨0, 0⟩) ∨
      ∃ node, nodeOf jhash1word s g = some node ∧
        s'.multiStats node'.multiGrpIdx.toNat = s.multiStats node.multiGrpIdx.toNat := by
  cases h with
  | same => exact Or.inr ⟨node', hnode', rfl⟩
  | @recounted _ _ g0 _ _ _ _ recount _ =>
    rw [recount.nodes, Function.update_apply] at hnode'
    rw [recount.stats]
    split at hnode'
    · rename_i hg
      obtain rfl := Option.some.inj hnode'
      rw [hg]
      exact Or.inr ⟨_, recount.found, rfl⟩
    · exact Or.inr ⟨node', hnode', rfl⟩
  | @created service _ idx _ _ join made _ =>
    have hbyte : (UInt8.ofNat idx).toNat = idx :=
      UInt8.toNat_ofNat_of_lt' (own.index_lt wf (hroom join made.fresh) made)
    rw [made.nodes, Function.update_apply] at hnode'
    rw [made.stats]
    split at hnode'
    · rename_i hg
      obtain rfl := Option.some.inj hnode'
      exact Or.inl ⟨hg ▸ made.fresh, by rw [hbyte, Function.update_self]⟩
    · have hidx : node'.multiGrpIdx.toNat ≠ idx := by
        intro he
        have hset := (own.bit_iff wf idx).mpr ⟨g, node', hnode', he⟩
        simp [made.clear] at hset
      exact Or.inr ⟨node', hnode', by rw [Function.update_of_ne hidx]⟩
  | deleted gone =>
    rw [gone.nodes, Function.update_apply] at hnode'
    split at hnode'
    · cases hnode'
    · exact Or.inr ⟨node', hnode', by rw [gone.stats]⟩
  | cleared =>
    rw [nodeOf_clearMultiGroup wf] at hnode'
    cases hnode'

theorem Counted.command {h : FanOut} (counted : Counted jhash1word h) {msg : NlMessage} {s : State}
    {code : Int} (hcmd : tmccRcvSkb jhash1word h.table msg = .ret (code, s))
    (hlive : (liveNodes jhash1word s).card ≤ groupLimit) :
    Counted jhash1word { h with
      table := s
      sent := fun g => if Makes jhash1word h.table s g then 0 else h.sent g } := by
  have hroom := counted.poolRoom msg
  obtain ⟨wf, own, _, hexact⟩ := counted
  have heffect := tmccRcvSkb_effect wf hcmd
  refine ⟨tmccRcvSkb_wellFormed wf hcmd, heffect.indexOwned wf own hroom, hlive, ?_⟩
  intro g node' hnode'
  simp only at hnode' ⊢
  rcases heffect.multiStats wf own hroom hnode' with ⟨hnew, hzero⟩ | ⟨node, hnode, hsame⟩
  · rw [if_pos (makes_iff.mpr ⟨hnew, by simp [hnode']⟩), hzero]
    rfl
  · have hold : ¬ Makes jhash1word h.table s g = true := by
      rw [makes_iff, hnode]
      simp
    rw [if_neg hold, hsame, hexact g node hnode]

/-! ## Copies -/

theorem multiGrpStats_txPackets (s : State) (grpIdx idx : UInt8) (len : UInt16) :
    ((multiGrpStats s grpIdx.toNat len).multiStats idx.toNat).txPackets.toNat =
      if idx = grpIdx then ((s.multiStats idx.toNat).txPackets.toNat + 1) % 2 ^ 64
      else (s.multiStats idx.toNat).txPackets.toNat := by
  simp only [multiGrpStats, Function.update_apply, UInt8.toNat_inj]
  split
  · rename_i hidx
    rw [hidx, UInt64.toNat_add]
    rfl
  · rfl

/-- The reported counters are exact after one more copy. -/
def ExactAfter (jhash1word : UInt32 → UInt32 → UInt32) (h : FanOut) (g : UInt32) (grpIdx : UInt8)
    (len : UInt16) : Prop :=
  ∀ g' node, nodeOf jhash1word h.table g' = some node →
    ((multiGrpStats h.table grpIdx.toNat len).multiStats node.multiGrpIdx.toNat).txPackets.toNat =
      Function.update h.sent g (h.sent g + 1) g'

section
variable {h : FanOut} (counted : Counted jhash1word h) {id : Nat} {len : UInt16} {g : UInt32}
variable {grpIdx : UInt8} (hrun : h.inFlight id = some (g, grpIdx))
include counted hrun

theorem Counted.still_of_exactAfter (hall : ExactAfter jhash1word h g grpIdx len) :
    IndexStill jhash1word h (.stats id len) := by
  have hlt : ∀ idx : Nat, (h.table.multiStats idx).txPackets.toNat < 2 ^ 64 :=
    fun idx => UInt64.toNat_lt _
  intro g' grpIdx' hrun'
  obtain ⟨rfl, rfl⟩ := Prod.mk.inj (Option.some.inj (hrun.symm.trans hrun'))
  cases hnode : nodeOf jhash1word h.table g with
  | some node =>
    have hafter := hall g node hnode
    have hbefore := counted.exact g node hnode
    rw [multiGrpStats_txPackets, Function.update_self] at hafter
    split at hafter
    · rename_i hidx
      have hbound := hlt node.multiGrpIdx.toNat
      rw [← hidx]
      exact ⟨rfl, by omega⟩
    · omega
  | none =>
    by_contra hset
    have hset : h.table.bitmap grpIdx.toNat = true := by simpa using hset
    -- the owner of the index counts a copy that is not its own
    obtain ⟨g', node, hnode', hidx⟩ := (counted.own.bit_iff counted.wf _).mp hset
    have hne : g' ≠ g := by
      rintro rfl
      rw [hnode] at hnode'
      cases hnode'
    have hafter := hall g' node hnode'
    have hbefore := counted.exact g' node hnode'
    rw [multiGrpStats_txPackets, if_pos (UInt8.toNat_inj.mp hidx), Function.update_of_ne hne]
      at hafter
    have hbound := hlt node.multiGrpIdx.toNat
    omega

theorem Counted.idx_ne (hstill : IndexStill jhash1word h (.stats id len)) {g' : UInt32}
    {node' : MultiNode} (hnode' : nodeOf jhash1word h.table g' = some node') (hne : g' ≠ g) :
    node'.multiGrpIdx ≠ grpIdx := by
  intro he
  have hcond := hstill g grpIdx hrun
  cases hnode : nodeOf jhash1word h.table g with
  | some node =>
    rw [hnode] at hcond
    exact hne (counted.own.eq_of_idx counted.wf hnode' hnode (he.trans hcond.1.symm))
  | none =>
    rw [hnode] at hcond
    have hset := (counted.own.bit_iff counted.wf grpIdx.toNat).mpr ⟨g', node', hnode', by rw [he]⟩
    simp [hcond] at hset

theorem Counted.exactAfter (hstill : IndexStill jhash1word h (.stats id len)) :
    ExactAfter jhash1word h g grpIdx len := by
  intro g' node' hnode'
  have hbefore := counted.exact g' node' hnode'
  rw [multiGrpStats_txPackets]
  by_cases hg : g' = g
  · subst hg
    have hcond := hstill g' grpIdx hrun
    rw [hnode'] at hcond
    obtain ⟨hidx, hroom⟩ := hcond
    rw [← hidx] at hroom
    rw [if_pos hidx, Function.update_self, Nat.mod_eq_of_lt hroom, hbefore]
  · rw [if_neg (counted.idx_ne hrun hstill hnode' hg), Function.update_of_ne hg, hbefore]

end

/-! ## Runs -/

theorem FanOut.next_stats {h h' : FanOut} {id : Nat} {len : UInt16}
    (hnext : h.next jhash1word (.stats id len) = some h') :
    ∃ g grpIdx, h.inFlight id = some (g, grpIdx) ∧
      h' = { h with
        table := multiGrpStats h.table grpIdx.toNat len
        sent := Function.update h.sent g (h.sent g + 1) } := by
  simp only [FanOut.next] at hnext
  split at hnext
  · cases hnext
  · rename_i g grpIdx hrun
    exact ⟨g, grpIdx, hrun, (Option.some.inj hnext).symm⟩

theorem FanOut.next_counted {h h' : FanOut} {act : FanOutAct} (counted : Counted jhash1word h)
    (hnext : h.next jhash1word act = some h') (hstill : IndexStill jhash1word h act) :
    Counted jhash1word h' := by
  cases act with
  | lookup id daddr =>
    simp only [FanOut.next] at hnext
    split at hnext
    · cases hnext
    · split at hnext
      · obtain rfl := Option.some.inj hnext
        exact counted
      · obtain rfl := Option.some.inj hnext
        exact ⟨counted.wf, counted.own, counted.live, counted.exact⟩
  | stats id len =>
    obtain ⟨g, grpIdx, hrun, rfl⟩ := FanOut.next_stats hnext
    refine ⟨counted.wf, ⟨counted.own.distinct, counted.own.bit⟩, ?_, ?_⟩
    · have hlive := counted.live
      unfold liveNodes at hlive ⊢
      exact hlive
    · exact counted.exactAfter hrun hstill
  | finish id =>
    obtain rfl := Option.some.inj hnext
    exact ⟨counted.wf, counted.own, counted.live, counted.exact⟩
  | command msg =>
    simp only [FanOut.next] at hnext
    split at hnext
    · rename_i code s hcmd
      split at hnext
      · rename_i hlive
        obtain rfl := Option.some.inj hnext
        exact counted.command hcmd hlive
      · cases hnext
    · cases hnext

theorem FanOut.next_not_exact {h h' : FanOut} {act : FanOutAct} (counted : Counted jhash1word h)
    (hnext : h.next jhash1word act = some h') (hstill : ¬ IndexStill jhash1word h act) :
    ¬ CountsExact jhash1word h' := by
  cases act with
  | lookup id daddr => exact absurd trivial hstill
  | finish id => exact absurd trivial hstill
  | command msg => exact absurd trivial hstill
  | stats id len =>
    obtain ⟨g, grpIdx, hrun, rfl⟩ := FanOut.next_stats hnext
    intro hexact
    exact hstill (counted.still_of_exactAfter hrun (countsExact_iff.mp hexact))

theorem counted_init : Counted jhash1word FanOut.init where
  wf := multiNodeInit_wellFormed
  own := multiNodeInit_indexOwned
  live := by
    rw [FanOut.init, liveNodes_multiNodeInit]
    decide
  exact := fun g node hnode => by
    rw [FanOut.init, nodeOf_multiNodeInit] at hnode
    cases hnode

theorem Counted.throughout_iff {h : FanOut} (counted : Counted jhash1word h) (as : List FanOutAct) :
    Trace.Throughout (FanOut.next jhash1word) (CountsExact jhash1word) h as ↔
      Trace.EachStep (FanOut.next jhash1word) (IndexStill jhash1word) h as :=
  Trace.throughout_iff_eachStep (I := Counted jhash1word)
    (fun _ counted => countsExact_iff.mpr counted.exact)
    (fun _ _ _ counted hnext => FanOut.next_counted counted hnext)
    (fun _ _ _ counted hnext => FanOut.next_not_exact counted hnext) counted as

/-- The counters are exact in every state of a run where each copy is counted while the remembered
index is still that of its group, or belongs to nobody, and in no other run. -/
theorem counts_exact_iff (as : List FanOutAct) :
    Trace.Throughout (FanOut.next jhash1word) (CountsExact jhash1word) FanOut.init as ↔
      Trace.EachStep (FanOut.next jhash1word) (IndexStill jhash1word) FanOut.init as :=
  counted_init.throughout_iff as

/-! ## An index that changes its owner -/

/-- A table with no group, and none of its indices taken. -/
structure Vacant (s : State) : Prop where
  free : ∀ b i, (s.multiGrp b i).created = false
  bits : ∀ n, s.bitmap n = false

/-- A table with one group, under index 0. -/
structure Single (jhash1word : UInt32 → UInt32 → UInt32) (s : State) (g : UInt32) : Prop where
  wf : WellFormed jhash1word s
  node : ∃ node, nodeOf jhash1word s g = some node ∧ node.multiGrpIdx = 0
  others : ∀ g', g' ≠ g → nodeOf jhash1word s g' = none
  bits : ∀ n, s.bitmap n = true ↔ n = 0
  card : (liveNodes jhash1word s).card = 1

theorem Vacant.card {s : State} (h : Vacant s) : (liveNodes jhash1word s).card = 0 := by
  rw [Finset.card_eq_zero]
  ext p
  rw [(wellFormed_of_free h.free).mem_liveNodes, h.free]
  simp

variable (jhash1word) in
theorem Vacant.join {s : State} (h : Vacant s) (g : UInt32) :
    ∃ s', tmccRcvSkb jhash1word s (joinMessage g []) = .ret (0, s') ∧ Single jhash1word s' g := by
  have hnew : nodeOf jhash1word s g = none := nodeOf_of_free h.free g
  obtain ⟨s', hs⟩ := addMultiNode_returns (fun i => ([] : List UInt32).getD i 0) hnew
    (show 0 < multiGrpMax by decide) (h.bits 0) (show 0 < 256 by decide) (h.free _ 0)
    (Nat.zero_le multiVmMax)
  refine ⟨s', (tmccRcvSkb_joinMessage s g []).trans hs, ?_⟩
  rcases addMultiNode_cases (wellFormed_of_free h.free) hs with
    ⟨node, hext⟩ | ⟨_, h0, _⟩ | ⟨idx, cnt, made, _⟩
  · simp [hext.found] at hnew
  · simp at h0
  · obtain rfl : idx = 0 := by
      by_contra hne
      have hset := made.lowest 0 (Nat.pos_of_ne_zero hne)
      rw [h.bits] at hset
      cases hset
    refine ⟨made.wf, ⟨_, by rw [made.nodes, Function.update_self], rfl⟩, fun g' hg' => ?_,
      fun n => ?_, by rw [made.live, h.card]⟩
    · rw [made.nodes, Function.update_of_ne hg', nodeOf_of_free h.free]
    · rw [made.bitmap, Function.update_apply, h.bits]
      simp

theorem Single.del {s : State} {g : UInt32} (h : Single jhash1word s g) :
    ∃ s', tmccRcvSkb jhash1word s (.serviceDel (.ofList multiOptJoin g [])) = .ret (0, s') ∧
      Vacant s' := by
  obtain ⟨node, hnode, hidx⟩ := h.node
  rcases delMultiNode_cases h.wf g with ⟨hnone, _⟩ | ⟨node', s', hdel, gone⟩
  · rw [hnode] at hnone
    cases hnone
  · obtain rfl := Option.some.inj (hnode.symm.trans gone.found)
    refine ⟨s', by simp only [tmccRcvSkb, multiNlNodeDelete, TmccNlServiceSt.ofList, hdel],
      fun b i => ?_, fun n => ?_⟩
    · by_contra hl
      have hl : (s'.multiGrp b i).created = true := by simpa using hl
      have hnode' := gone.wf.nodeOf_iff.mpr ⟨b, i, rfl, hl, rfl⟩
      rw [gone.nodes, Function.update_apply] at hnode'
      split at hnode'
      · cases hnode'
      · rename_i hne
        rw [h.others _ hne] at hnode'
        cases hnode'
    · rw [gone.bitmap, hidx, Function.update_apply]
      split
      · rfl
      · rename_i hn
        rw [← Bool.not_eq_true, h.bits]
        exact hn

theorem FanOut.next_command {h : FanOut} {msg : NlMessage} {s : State} {code : Int}
    (hcmd : tmccRcvSkb jhash1word h.table msg = .ret (code, s))
    (hlive : (liveNodes jhash1word s).card ≤ groupLimit) :
    ∃ sent, h.next jhash1word (.command msg) = some ⟨s, h.inFlight, sent⟩ := by
  simp only [FanOut.next, hcmd, if_pos hlive]
  exact ⟨_, rfl⟩

/-- For every hash: a hook run looks 225.0.0.1 up, the group is deleted, 225.0.0.2 gets its index,
and the copy is counted there. -/
theorem not_counts_exact : ¬ ∃ jhash1word, ∀ as,
    Trace.Throughout (FanOut.next jhash1word) (CountsExact jhash1word) FanOut.init as := by
  rintro ⟨jhash1word, hall⟩
  have hlimit : 1 ≤ groupLimit ∧ 0 ≤ groupLimit := by decide
  have hinit : Vacant multiNodeInit := ⟨fun _ _ => rfl, fun _ => rfl⟩
  obtain ⟨s1, hjoin1, single1⟩ := hinit.join jhash1word 0xE1000001
  obtain ⟨s2, hdel, hvacant⟩ := single1.del
  obtain ⟨s3, hjoin2, single2⟩ := hvacant.join jhash1word 0xE1000002
  obtain ⟨node, hnode, hidx⟩ := single1.node
  -- What the hook run remembers from its lookup on.
  let inFlight : Nat → Option (UInt32 × UInt8) :=
    Function.update (fun _ => none) 0 (some (0xE1000001, 0))
  obtain ⟨sent1, hnext1⟩ := FanOut.next_command (h := .init) hjoin1 (single1.card ▸ hlimit.1)
  have hlookup : FanOut.next jhash1word ⟨s1, FanOut.init.inFlight, sent1⟩ (.lookup 0 0xE1000001) =
      some ⟨s1, inFlight, sent1⟩ := by
    simp only [FanOut.next, FanOut.init, lookupMultiNode_eq, hnode, Option.map_some, hidx]
    rfl
  obtain ⟨sent2, hnext2⟩ :=
    FanOut.next_command (h := ⟨s1, inFlight, sent1⟩) hdel (hvacant.card ▸ hlimit.2)
  obtain ⟨sent3, hnext3⟩ :=
    FanOut.next_command (h := ⟨s2, inFlight, sent2⟩) hjoin2 (single2.card ▸ hlimit.1)
  have hexact := hall ([.command (joinMessage 0xE1000001 []), .lookup 0 0xE1000001,
    .command (.serviceDel (.ofList multiOptJoin 0xE1000001 [])),
    .command (joinMessage 0xE1000002 [])] ++ [.stats 0 0])
  have hstats : ∃ h', FanOut.next jhash1word ⟨s3, inFlight, sent3⟩ (.stats 0 0) = some h' := ⟨_, rfl⟩
  obtain ⟨h', hstats⟩ := hstats
  have hstill := ((counted_init.throughout_iff _).mp hexact).of_exec (by
    rw [Trace.exec_cons hnext1, Trace.exec_cons hlookup, Trace.exec_cons hnext2,
      Trace.exec_cons hnext3, Trace.exec_nil]) hstats
  have hclear := hstill 0xE1000001 0 rfl
  have hgone : nodeOf jhash1word s3 0xE1000001 = none := single2.others _ (by decide)
  simp only [hgone] at hclear
  have hset := (single2.bits 0).mpr rfl
  rw [UInt8.toNat_zero] at hclear
  rw [hclear] at hset
  cases hset

end MulticastProxy.KernelServer
