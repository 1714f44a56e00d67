import MulticastProxy.Library.Ownership
import MulticastProxy.LinuxServer.HandleData

/-!
# Linux server proxy: invariants of the group table (`server_proxy/multi_grp.c`)

The free-cell loop counts in a `uint8_t`. It stops because the pool holds one bit for each live
node: where `get_idx` finds a clear bit, fewer than 256 nodes are live.
-/

namespace MulticastProxy.LinuxServer

set_option autoImplicit false

inductive Call where
  | init
  | add (multiIp : UInt32) (multiPort serverPort : UInt16) (ipList : Nat → UInt32) (ipNum : UInt8)

def Call.run (s : State) : Call → Outcome (Int × State)
  | .init => .ret (0, multiNodeInit)
  | .add multiIp multiPort serverPort ipList ipNum =>
    addMultiNode s multiIp multiPort serverPort ipList ipNum

/-- The tables are zero when the program starts. -/
inductive Reachable : State → Prop
  | start : Reachable multiNodeInit
  | step {s s' : State} {call : Call} {code : Int} :
      Reachable s → call.run s = .ret (code, s') → Reachable s'

def grpIdx (node : MultiNode) : Nat := node.multiGrpIdx.toNat

structure TableOk (s : State) : Prop where
  distinct : ∀ b i b' i', (s.multiGrp b i).created = true → (s.multiGrp b' i').created = true →
    (s.multiGrp b i).multiGrpIdx = (s.multiGrp b' i').multiGrpIdx → b = b' ∧ i = i'
  bit : ∀ n, s.gBitmap n = true ↔
    ∃ b i, (s.multiGrp b i).created = true ∧ grpIdx (s.multiGrp b i) = n
  closed : ∀ b i j, i ≤ j → (s.multiGrp b j).created = true → (s.multiGrp b i).created = true
  unique : ∀ b i b' i', (s.multiGrp b i).created = true → (s.multiGrp b' i').created = true →
    (s.multiGrp b i).multiIp = (s.multiGrp b' i').multiIp → b = b' ∧ i = i'
  members : ∀ b i, (s.multiGrp b i).multiMemberCnt ≤ multiVmMax

/-- The invariant in terms of the table as a map. -/
structure Sound (s : State) : Prop where
  wf : WellFormed s
  owned : Owned (nodeOf s) grpIdx s.gBitmap
  fit : MembersFit s

theorem Sound.tableOk {s : State} (h : Sound s) : TableOk s := by
  obtain ⟨hdistinct, hbit⟩ := (owned_content_iff h.wf).mp h.owned
  refine ⟨fun b i b' i' hl hl' he => ?_, hbit, ?_, ?_, h.fit⟩
  · exact hdistinct b i b' i' hl hl' (UInt8.toNat_inj.mpr he)
  · intro b i j hij hl
    exact h.wf.prefix_closed hij hl
  · intro b i b' i' hl hl' he
    exact h.wf.cell_unique hl hl' he

theorem multiNodeInit_sound : Sound multiNodeInit where
  wf := multiNodeInit_wellFormed
  owned := Owned.of_empty nodeOf_multiNodeInit fun _ => rfl
  fit := multiNodeInit_membersFit

/-! ## Counting -/

theorem Sound.bit_lt {s : State} (h : Sound s) {n : Nat} (hn : s.gBitmap n = true) :
    n < multiGrpMax := by
  obtain ⟨_, node, _, rfl⟩ := (h.owned.bit n).mp hn
  exact node.multiGrpIdx.toNat_lt

theorem Sound.card_live {s : State} (h : Sound s) : (liveNodes s).card =
    ((Finset.range multiGrpMax).filter fun n => s.gBitmap n = true).card := by
  unfold liveNodes
  exact card_liveCells_of_owned h.wf mulitHashKey_lt h.owned fun n => h.bit_lt

/-- 256 live nodes are as many as there are bits. -/
theorem Sound.full_iff {s : State} (h : Sound s) :
    (liveNodes s).card = 256 ↔ getIdx multiGrpMax s.gBitmap = none := by
  rw [h.card_live, getIdx_eq_none_iff]
  have hall := Finset.card_filter_eq_iff (s := Finset.range multiGrpMax)
    (p := fun n => s.gBitmap n = true)
  rw [Finset.card_range] at hall
  simpa using hall

theorem Sound.card_lt {s : State} (h : Sound s) {p : Nat × (Nat → Bool)}
    (hget : getIdx multiGrpMax s.gBitmap = some p) : (liveNodes s).card < 256 := by
  have hle : (liveNodes s).card ≤ 256 := by
    have hfilter := Finset.card_filter_le (Finset.range multiGrpMax) fun n => s.gBitmap n = true
    rw [Finset.card_range] at hfilter
    exact h.card_live.trans_le hfilter
  have hne : (liveNodes s).card ≠ 256 := by
    rw [Ne, h.full_iff, hget]
    simp
  omega

/-! ## One call -/

/-- What an add can do to a sound table. -/
inductive AddEffect (s : State) (g : UInt32) (port serverPort : UInt16) (ips : List UInt32) :
    Int → State → Prop
  | appended {node : MultiNode} {cnt : Nat} {code : Int} {s' : State}
      (found : nodeOf s g = some node) (accepted : code ≠ multiIdxExhaust) (wf : WellFormed s')
      (nodes : nodeOf s' =
        Function.update (nodeOf s) g (some { node with multiMemberCnt := cnt }))
      (pool : s'.gBitmap = s.gBitmap)
      (rows : ∀ n ≠ grpIdx node, s'.multiVm n = s.multiVm n) :
      AddEffect s g port serverPort ips code s'
  | exhausted (absent : nodeOf s g = none) (full : getIdx multiGrpMax s.gBitmap = none) :
      AddEffect s g port serverPort ips multiIdxExhaust s
  | inserted {idx cnt : Nat} {code : Int} {s' : State}
      (absent : nodeOf s g = none) (accepted : code ≠ multiIdxExhaust) (index : idx < 256)
      (clear : s.gBitmap idx = false) (wf : WellFormed s')
      (nodes : nodeOf s' = Function.update (nodeOf s) g
        (some ⟨g, cnt, UInt8.ofNat idx, true, port, serverPort⟩))
      (live : (liveNodes s').card = (liveNodes s).card + 1)
      (pool : s'.gBitmap = Function.update s.gBitmap idx true)
      (rows : ∀ n ≠ idx, s'.multiVm n = s.multiVm n)
      (members : ips.length ≤ multiVmMax →
        cnt = ips.length ∧ cells (s'.multiVm idx) ips.length = ips) :
      AddEffect s g port serverPort ips code s'

theorem Sound.add_effect {s : State} (h : Sound s) (g : UInt32) (port serverPort : UInt16)
    (ipList : Nat → UInt32) (ipNum : UInt8) :
    ∃ code s', addMultiNode s g port serverPort ipList ipNum = .ret (code, s') ∧
      AddEffect s g port serverPort (cells ipList ipNum.toNat) code s' := by
  have hcode : ∀ ret : Int, (if ret ≠ 0 then multiParamError else 0) ≠ multiIdxExhaust := by
    intro ret
    split <;> decide
  cases hnode : nodeOf s g with
  | some node =>
    obtain ⟨b, i, rfl, _, _⟩ := h.wf.content_eq_some_iff.mp hnode
    obtain ⟨ret, multiVm, cnt, hadd⟩ := addVmIpList_returns s.multiVm
      (s.multiGrp b i).multiGrpIdx ipList ipNum (h.fit b i)
    obtain ⟨s', hs', wf', hnodes, hbits, rfl⟩ :=
      addMultiNode_append h.wf hnode port serverPort hadd
    exact ⟨_, s', hs', .appended hnode (hcode ret) wf' hnodes hbits fun n => addVmIpList_row hadd⟩
  | none =>
    cases hget : getIdx multiGrpMax s.gBitmap with
    | none =>
      have hrow : rawLookupMultiNode s g = none := Option.map_eq_none_iff.mp hnode
      refine ⟨multiIdxExhaust, s, ?_, .exhausted hnode hget⟩
      unfold addMultiNode
      simp only [hrow, hget]
    | some p =>
      obtain ⟨idx, gBitmap⟩ := p
      obtain ⟨hidx, hclear, _, rfl⟩ := getIdx_eq_some hget
      have hbyte : (UInt8.ofNat idx).toNat = idx := UInt8.toNat_ofNat_of_lt' hidx
      obtain ⟨ret, multiVm, cnt, hadd⟩ := addVmIpList_returns s.multiVm (UInt8.ofNat idx) ipList
        ipNum (Nat.zero_le _)
      obtain ⟨s', hs', wf', hnodes, hlive, hbits, rfl⟩ :=
        addMultiNode_insert h.wf hnode hget (h.card_lt hget) port serverPort hadd
      refine ⟨_, s', hs', .inserted hnode (hcode ret) hidx hclear wf' hnodes hlive hbits
        (fun n hn => addVmIpList_row hadd (by rwa [hbyte])) fun hfit => ?_⟩
      rw [length_cells] at hfit
      obtain ⟨row, hnew, hcells⟩ := addVmIpList_new s.multiVm (UInt8.ofNat idx) ipList hfit
      rw [hbyte] at hnew
      have hsame := hadd.symm.trans hnew
      simp only [Outcome.ret.injEq, Prod.mk.injEq] at hsame
      obtain ⟨_, hvm, rfl⟩ := hsame
      rw [hvm, Function.update_self, length_cells]
      exact ⟨rfl, hcells⟩

section
variable {s s' : State} {g : UInt32} {port serverPort : UInt16} {ips : List UInt32} {code : Int}

theorem AddEffect.owned (e : AddEffect s g port serverPort ips code s') (h : Sound s) :
    WellFormed s' ∧ Owned (nodeOf s') grpIdx s'.gBitmap := by
  cases e with
  | appended found _ wf nodes pool =>
    refine ⟨wf, ?_⟩
    rw [nodes, pool]
    exact h.owned.replace found rfl
  | exhausted => exact ⟨h.wf, h.owned⟩
  | @inserted idx cnt _ _ absent _ index clear wf nodes _ pool =>
    have hbyte : grpIdx ⟨g, cnt, UInt8.ofNat idx, true, port, serverPort⟩ = idx :=
      UInt8.toNat_ofNat_of_lt' index
    have hinsert := h.owned.insert absent (hbyte.symm ▸ clear)
    rw [hbyte] at hinsert
    refine ⟨wf, ?_⟩
    rw [nodes, pool]
    exact hinsert

/-- `MULTI_IDX_EXHAUST` is for a new group beside 256 others. -/
theorem AddEffect.exhaust_iff (e : AddEffect s g port serverPort ips code s') (h : Sound s) :
    code = multiIdxExhaust ↔ nodeOf s g = none ∧ (liveNodes s).card = 256 := by
  rw [h.full_iff]
  cases e with
  | appended found accepted =>
    apply iff_of_false accepted
    rw [found]
    rintro ⟨hnone, _⟩
    cases hnone
  | exhausted absent full => exact iff_of_true rfl ⟨absent, full⟩
  | inserted _ accepted index clear =>
    apply iff_of_false accepted
    rintro ⟨_, hfull⟩
    rw [getIdx_eq_none_iff.mp hfull _ index] at clear
    cases clear

/-- The node of another group and what its lookup answers stay as they are. -/
theorem AddEffect.other (e : AddEffect s g port serverPort ips code s') (h : Sound s) {g' : UInt32}
    (hne : g' ≠ g) : nodeOf s' g' = nodeOf s g' ∧ lookupMultiNode s' g' = lookupMultiNode s g' := by
  cases e with
  | appended found _ _ nodes _ rows =>
    have hnode : nodeOf s' g' = nodeOf s g' := by rw [nodes, Function.update_of_ne hne]
    refine ⟨hnode, lookupMultiNode_congr hnode fun node hg' => rows _ fun he => ?_⟩
    exact hne (h.owned.distinct _ _ _ _ hg' found he)
  | exhausted => exact ⟨rfl, rfl⟩
  | inserted _ _ _ clear _ nodes _ _ rows =>
    have hnode : nodeOf s' g' = nodeOf s g' := by rw [nodes, Function.update_of_ne hne]
    exact ⟨hnode, lookupMultiNode_congr hnode fun node hg' => rows _ (h.owned.ne_of_clear clear hg')⟩

theorem AddEffect.card_le (e : AddEffect s g port serverPort ips code s') (h : Sound s)
    (h' : Sound s') : (liveNodes s').card ≤ (liveNodes s).card + 1 := by
  cases e with
  | appended _ _ _ _ pool =>
    rw [h'.card_live, pool, ← h.card_live]
    omega
  | exhausted => omega
  | inserted _ _ _ _ _ _ live => omega

end

/-- An add returns and keeps the invariant. -/
theorem Sound.add {s : State} (h : Sound s) (g : UInt32) (port serverPort : UInt16)
    (ipList : Nat → UInt32) (ipNum : UInt8) :
    ∃ code s', addMultiNode s g port serverPort ipList ipNum = .ret (code, s') ∧ Sound s' ∧
      AddEffect s g port serverPort (cells ipList ipNum.toNat) code s' := by
  obtain ⟨code, s', hs', heffect⟩ := h.add_effect g port serverPort ipList ipNum
  obtain ⟨wf, owned⟩ := heffect.owned h
  exact ⟨code, s', hs', ⟨wf, owned, addMultiNode_membersFit h.fit hs'⟩, heffect⟩

theorem Reachable.sound {s : State} (h : Reachable s) : Sound s := by
  induction h with
  | start => exact multiNodeInit_sound
  | @step s s' call code _ hrun ih =>
    cases call with
    | init =>
      obtain ⟨_, rfl⟩ := Prod.mk.inj (Outcome.ret.inj hrun)
      exact multiNodeInit_sound
    | add g port serverPort ipList ipNum =>
      obtain ⟨_, t, ht, hsound, _⟩ := ih.add g port serverPort ipList ipNum
      obtain ⟨_, rfl⟩ := Prod.mk.inj (Outcome.ret.inj (hrun.symm.trans ht))
      exact hsound

/-- In every table that the calls can build the bits belong to the live nodes and each bucket is
filled from its start, with no address twice and no group above its row. Every add from there
returns, the free-cell loop with its counter below 256. -/
theorem table_ok {s : State} (h : Reachable s) : TableOk s ∧
    ∀ g port serverPort ipList ipNum,
      (∃ code s', addMultiNode s g port serverPort ipList ipNum = .ret (code, s') ∧
        (code = multiIdxExhaust ↔
          (∀ b i, (s.multiGrp b i).created = true → (s.multiGrp b i).multiIp ≠ g) ∧
            (liveNodes s).card = 256)) ∧
      (rawLookupMultiNode s g = none → getIdx multiGrpMax s.gBitmap ≠ none → ∃ i < 256,
        Search.byteSearch (fun i => !(s.multiGrp (mulitHashKey g multiGrpBucket) i).created)
          multiGrpDepth (i + 1) 0 = some (some i)) := by
  have hsound := h.sound
  refine ⟨hsound.tableOk, fun g port serverPort ipList ipNum => ⟨?_, fun hrow hget => ?_⟩⟩
  · obtain ⟨code, s', hadd, _, heffect⟩ := hsound.add g port serverPort ipList ipNum
    refine ⟨code, s', hadd, ?_⟩
    rw [heffect.exhaust_iff hsound, nodeOf, hsound.wf.content_eq_none_iff]
    rfl
  · obtain ⟨p, hp⟩ := Option.ne_none_iff_exists'.mp hget
    obtain ⟨i, hi, hfree, hbusy⟩ :=
      freeCell hsound.wf (hsound.card_lt hp) (mulitHashKey g multiGrpBucket)
    exact ⟨i, hi, freeCell_search hi hfree hbusy (Nat.lt_succ_self i) hi⟩

theorem table_ok_after_add : ∃ code s,
    addMultiNode multiNodeInit 0xE1000001 7127 7126 (fun _ => 7) 1 = .ret (code, s) ∧
      TableOk s := by
  obtain ⟨code, s, hadd, _, _⟩ := multiNodeInit_sound.add 0xE1000001 7127 7126 (fun _ => 7) 1
  have hrun : (Call.add 0xE1000001 7127 7126 (fun _ => 7) 1).run multiNodeInit = .ret (code, s) :=
    hadd
  exact ⟨code, s, hadd, (table_ok (.step .start hrun)).1⟩

end MulticastProxy.LinuxServer
