import MulticastProxy.KernelServer.TableInvariant

/-!
# Kernel server: bounds of the member rows (`add_vm_ip_list`)

The guard of `add_vm_ip_list` adds two `uint32_t` counts. Where the sum wraps the loop runs with a
list that the row has no room for.
-/

namespace MulticastProxy.KernelServer

set_option autoImplicit false

/-- The calls of `add_vm_ip_list` that a JOIN or an append makes: the request, the index and the
member count they pass. -/
inductive RowCall (jhash1word : UInt32 → UInt32 → UInt32) (s : State) :
    NlMessage → TmccNlServiceSt → UInt8 → Nat → Prop where
  | joinMember {service : TmccNlServiceSt} {node : MultiNode}
      (join : service.action = multiOptJoin)
      (found : nodeOf jhash1word s service.multiIp = some node) :
      RowCall jhash1word s (.serviceAdd service) service node.multiGrpIdx node.multiMemberCnt
  | joinNew {service : TmccNlServiceSt} {idx : Nat} {bitmap : Nat → Bool}
      (join : service.action = multiOptJoin)
      (fresh : nodeOf jhash1word s service.multiIp = none)
      (drawn : getIdx multiGrpMax s.bitmap = some (idx, bitmap)) :
      RowCall jhash1word s (.serviceAdd service) service (UInt8.ofNat idx) 0
  | append {service : TmccNlServiceSt} {node : MultiNode}
      (found : nodeOf jhash1word s service.multiIp = some node) :
      RowCall jhash1word s (.serviceCheckUpdate service) service node.multiGrpIdx
        node.multiMemberCnt

/-- A call that is rejected without an effect, or stays inside the row of `idx` and ends with a
count that fits. -/
def KeepsRows (multiVm : Nat → Nat → UInt32) (idx : UInt8) (oldIpNum : Nat)
    (call : Outcome (Int × (Nat → Nat → UInt32) × Nat)) : Prop :=
  ∃ code multiVm' cnt, call = .ret (code, multiVm', cnt) ∧
    (code = multiParamError ∧ multiVm' = multiVm ∧ cnt = oldIpNum ∨
      code = 0 ∧ cnt ≤ multiVmMax ∧
        ∀ i j, multiVm' i j ≠ multiVm i j → i = idx.toNat ∧ j < multiVmMax)

/-- The sum of the counts does not wrap, or wraps to a number that is refused, or the addresses
that are not in the row yet fit behind it. -/
def CallFits (multiVm : Nat → Nat → UInt32) (idx : UInt8) (ipList : Nat → UInt32)
    (ipNum oldIpNum : Nat) : Prop :=
  ipNum + oldIpNum < 2 ^ 32 ∨ multiVmMax < (ipNum + oldIpNum) % 2 ^ 32 ∨
    oldIpNum + (newcomers ipList 0 ipNum (cells (multiVm idx.toNat) oldIpNum)).length ≤ multiVmMax

/-! ## One call -/

theorem keepsRows_of_fits {multiVm : Nat → Nat → UInt32} {idx : UInt8} {ipList : Nat → UInt32}
    {ipNum oldIpNum : Nat} (hold : oldIpNum ≤ multiVmMax)
    (hfits : CallFits multiVm idx ipList ipNum oldIpNum) :
    KeepsRows multiVm idx oldIpNum (addVmIpList multiVm idx ipList ipNum oldIpNum) := by
  unfold addVmIpList
  split
  · exact ⟨_, _, _, rfl, Or.inl ⟨rfl, rfl, rfl⟩⟩
  · rename_i hguard
    have hroom : oldIpNum +
        (newcomers ipList 0 ipNum (cells (multiVm idx.toNat) oldIpNum)).length ≤ multiVmMax := by
      rcases hfits with hwrap | hbig | hroom
      · rw [Nat.mod_eq_of_lt hwrap] at hguard
        have := newcomers_length_le ipList 0 ipNum (cells (multiVm idx.toNat) oldIpNum)
        omega
      · exact absurd hbig hguard
      · exact hroom
    obtain ⟨row, k, hloop⟩ := (addVmIpLoop_returns_iff (Nat.le_refl oldIpNum)).mpr (Or.inr hroom)
    obtain ⟨_, _, hk, hbeyond⟩ := addVmIpLoop_ret (Nat.le_refl oldIpNum) hloop
    refine ⟨0, Function.update multiVm idx.toNat row, k, by rw [hloop]; rfl,
      Or.inr ⟨rfl, hk hold, fun i j hne => ?_⟩⟩
    have hi : i = idx.toNat := by
      by_contra hi
      exact hne (by rw [Function.update_of_ne hi])
    subst hi
    refine ⟨rfl, ?_⟩
    by_contra hj
    exact hne (by rw [Function.update_self, hbeyond j (by omega)])

theorem fits_of_returns {multiVm multiVm' : Nat → Nat → UInt32} {idx : UInt8}
    {ipList : Nat → UInt32} {ipNum oldIpNum cnt : Nat} {code : Int} (hold : oldIpNum ≤ multiVmMax)
    (h : addVmIpList multiVm idx ipList ipNum oldIpNum = .ret (code, multiVm', cnt)) :
    CallFits multiVm idx ipList ipNum oldIpNum := by
  rcases addVmIpList_ret h with ⟨_, _, _, hbig⟩ | ⟨_, _, row, _, hcells, _, hbound⟩
  · exact Or.inr (Or.inl hbig)
  · refine Or.inr (Or.inr ?_)
    have hlen := congrArg List.length hcells
    rw [List.length_append, length_cells, length_cells] at hlen
    exact hlen ▸ hbound hold

theorem keepsRows_iff {multiVm : Nat → Nat → UInt32} {idx : UInt8} {ipList : Nat → UInt32}
    {ipNum oldIpNum : Nat} (hold : oldIpNum ≤ multiVmMax) :
    KeepsRows multiVm idx oldIpNum (addVmIpList multiVm idx ipList ipNum oldIpNum) ↔
      CallFits multiVm idx ipList ipNum oldIpNum := by
  constructor
  · rintro ⟨code, multiVm', cnt, hret, _⟩
    exact fits_of_returns hold hret
  · exact keepsRows_of_fits hold

/-! ## Counts over every run -/

variable {jhash1word : UInt32 → UInt32 → UInt32}

/-- No live node counts more members than a row holds. -/
def CountsBounded (jhash1word : UInt32 → UInt32 → UInt32) (s : State) : Prop :=
  ∀ g node, nodeOf jhash1word s g = some node → node.multiMemberCnt ≤ multiVmMax

theorem CountsBounded.update {s s' : State} (h : CountsBounded jhash1word s) {g : UInt32}
    {node : Option MultiNode}
    (hnodes : nodeOf jhash1word s' = Function.update (nodeOf jhash1word s) g node)
    (hnode : ∀ n, node = some n → n.multiMemberCnt ≤ multiVmMax) :
    CountsBounded jhash1word s' := by
  intro g' node' hfound
  rw [hnodes, Function.update_apply] at hfound
  split at hfound
  · exact hnode node' hfound
  · exact h g' node' hfound

theorem quitVmIp_le (row : Nat → UInt32) (lastIp : Nat) (ip : UInt32) :
    (quitVmIp row lastIp ip).2 ≤ lastIp := by
  unfold quitVmIp
  split
  · exact Nat.sub_le lastIp 1
  · exact Nat.le_refl lastIp

theorem delQuitVmIp_le (ipList : Nat → UInt32) (n i : Nat) (row : Nat → UInt32) (lastIp : Nat) :
    (delQuitVmIp ipList n i row lastIp).2 ≤ lastIp := by
  induction n generalizing i row lastIp with
  | zero => exact Nat.le_refl lastIp
  | succ n ih =>
    rw [delQuitVmIp]
    exact (ih _ _ _).trans (quitVmIp_le row lastIp (ipList i))

theorem Extended.countsBounded {s s' : State} {g : UInt32} {ipList : Nat → UInt32} {ipNum : Nat}
    {node : MultiNode} {code : Int} (h : Extended jhash1word s g ipList ipNum node code s')
    (hs : CountsBounded jhash1word s) : CountsBounded jhash1word s' := by
  have hnode := hs g node h.found
  cases h with
  | rejected recount =>
    apply hs.update recount.nodes
    intro n hn
    obtain rfl := Option.some.inj hn
    exact hnode
  | appended recount _ _ bound =>
    apply hs.update recount.nodes
    intro n hn
    obtain rfl := Option.some.inj hn
    exact bound hnode

theorem addMultiNode_countsBounded {s s' : State} (wf : WellFormed jhash1word s)
    (hs : CountsBounded jhash1word s) {g : UInt32} {ipList : Nat → UInt32} {ipNum : Nat}
    {code : Int} (h : addMultiNode jhash1word s g ipList ipNum = .ret (code, s')) :
    CountsBounded jhash1word s' := by
  rcases addMultiNode_cases wf h with ⟨node, hext⟩ | ⟨_, _, rfl⟩ | ⟨idx, cnt, made, hvm⟩
  · exact hext.countsBounded hs
  · exact hs
  · have hcnt : cnt ≤ multiVmMax := by
      rcases hvm with ⟨_, rfl, _⟩ | ⟨_, hcnt, _⟩
      · exact Nat.zero_le _
      · exact hcnt
    apply hs.update made.nodes
    intro n hn
    obtain rfl := Option.some.inj hn
    exact hcnt

theorem vmQuitFromMultiGrp_countsBounded {s : State} (wf : WellFormed jhash1word s)
    (hs : CountsBounded jhash1word s) (g : UInt32) (ipList : Nat → UInt32) (ipNum : Nat) :
    CountsBounded jhash1word (vmQuitFromMultiGrp jhash1word s g ipList ipNum).2 := by
  rcases vmQuitFromMultiGrp_cases wf g ipList ipNum with ⟨_, hq⟩ | ⟨node, t, hq, recount, _⟩
  · rw [hq]
    exact hs
  · rw [hq]
    apply hs.update recount.nodes
    intro n hn
    obtain rfl := Option.some.inj hn
    exact (delQuitVmIp_le ipList ipNum 0 _ _).trans (hs g node recount.found)

theorem tmccRcvSkb_countsBounded {s s' : State} (wf : WellFormed jhash1word s)
    (hs : CountsBounded jhash1word s) {msg : NlMessage} {code : Int}
    (h : tmccRcvSkb jhash1word s msg = .ret (code, s')) : CountsBounded jhash1word s' := by
  cases msg with
  | serviceAdd service =>
    simp only [tmccRcvSkb, multiNlNodeAdd] at h
    split at h
    · exact addMultiNode_countsBounded wf hs h
    · split at h
      · obtain ⟨_, rfl⟩ := Prod.mk.inj (Outcome.ret.inj h)
        exact vmQuitFromMultiGrp_countsBounded wf hs _ _ _
      · obtain ⟨_, rfl⟩ := Prod.mk.inj (Outcome.ret.inj h)
        exact hs
  | serviceDel service =>
    simp only [tmccRcvSkb, multiNlNodeDelete] at h
    rcases delMultiNode_cases wf service.multiIp with ⟨_, hd⟩ | ⟨node, t, hd, gone⟩
    · rw [hd] at h
      obtain ⟨_, rfl⟩ := Prod.mk.inj (Outcome.ret.inj h)
      exact hs
    · rw [hd] at h
      obtain ⟨_, rfl⟩ := Prod.mk.inj (Outcome.ret.inj h)
      exact hs.update gone.nodes fun n hn => by simp at hn
  | serverClear =>
    simp only [tmccRcvSkb, multiNlNodeClear] at h
    obtain ⟨_, rfl⟩ := Prod.mk.inj (Outcome.ret.inj h)
    intro g node hfound
    simp [nodeOf_clearMultiGroup wf] at hfound
  | serviceCheckUpdate service =>
    simp only [tmccRcvSkb, multiNlVmListAppend] at h
    obtain ⟨⟨ret, t⟩, happ, hret⟩ := Outcome.bind_eq_ret_iff.mp h
    obtain ⟨_, rfl⟩ := Prod.mk.inj (Outcome.ret.inj hret)
    rcases appendVmIpList_cases wf happ with ⟨_, _, rfl⟩ | ⟨node, hext⟩
    · exact hs
    · exact hext.countsBounded hs

theorem Reachable.countsBounded {allowed : State → NlMessage → Prop} {s : State}
    (h : Reachable jhash1word allowed s) : CountsBounded jhash1word s := by
  induction h with
  | init =>
    intro g node hfound
    simp at hfound
  | step hreach _ hstep ih => exact tmccRcvSkb_countsBounded hreach.wellFormed ih hstep

theorem RowCall.le_vmMax {s : State} (hs : CountsBounded jhash1word s) {msg : NlMessage}
    {service : TmccNlServiceSt} {idx : UInt8} {oldIpNum : Nat}
    (call : RowCall jhash1word s msg service idx oldIpNum) : oldIpNum ≤ multiVmMax := by
  cases call with
  | joinMember _ found => exact hs _ _ found
  | joinNew => exact Nat.zero_le _
  | append found => exact hs _ _ found

/-- A call of a JOIN or append keeps the rows exactly where its count and list fit. -/
theorem row_bounds_iff {s : State} (h : Reachable jhash1word (fun _ _ => True) s)
    {msg : NlMessage} {service : TmccNlServiceSt} {idx : UInt8} {oldIpNum : Nat}
    (call : RowCall jhash1word s msg service idx oldIpNum) :
    KeepsRows s.multiVm idx oldIpNum
        (addVmIpList s.multiVm idx service.ipList service.ipNum.toNat oldIpNum) ↔
      CallFits s.multiVm idx service.ipList service.ipNum.toNat oldIpNum :=
  keepsRows_iff (call.le_vmMax h.countsBounded)

/-! ## A group with one member -/

theorem exists_reachable_member (jhash1word : UInt32 → UInt32 → UInt32) (g ip : UInt32) :
    ∃ s node, Reachable jhash1word (fun _ _ => True) s ∧ nodeOf jhash1word s g = some node ∧
      cells (s.multiVm node.multiGrpIdx.toNat) node.multiMemberCnt = [ip] := by
  obtain ⟨s, hs, cnt, idx, hfound⟩ := joinMessage_multiNodeInit jhash1word g
    (show [ip].length ≤ multiVmMax by simp)
  rw [lookupMultiNode_eq] at hfound
  obtain ⟨node, hnode, he⟩ := Option.map_eq_some_iff.mp hfound
  exact ⟨s, node, .step .init trivial hs, hnode, congrArg (fun p => p.2.2) he⟩

/-- A JOIN of `ipNum` addresses that are all `ip`. -/
def joinMany (g ip ipNum : UInt32) : TmccNlServiceSt := ⟨multiOptJoin, g, ipNum, fun _ => ip⟩

theorem newcomers_const {ip : UInt32} {old : List UInt32} (h : ip ∉ old) (i n : Nat) :
    (newcomers (fun _ => ip) i n old).length = n := by
  rw [newcomers, List.filter_eq_self.mpr]
  · simp
  · intro x hx
    obtain ⟨_, _, rfl⟩ := List.mem_map.mp hx
    simpa using h

theorem row_bounds_one_more :
    ∃ s node, nodeOf (fun _ _ => 0) s 0xE1000001 = some node ∧
      KeepsRows s.multiVm node.multiGrpIdx node.multiMemberCnt
        (addVmIpList s.multiVm node.multiGrpIdx (joinMany 0xE1000001 8 1).ipList
          (joinMany 0xE1000001 8 1).ipNum.toNat node.multiMemberCnt) := by
  obtain ⟨s, node, hreach, hnode, hcells⟩ := exists_reachable_member (fun _ _ => 0) 0xE1000001 7
  have hcnt := congrArg List.length hcells
  rw [length_cells] at hcnt
  refine ⟨s, node, hnode, (row_bounds_iff hreach (.joinMember rfl hnode)).mpr (Or.inl ?_)⟩
  rw [hcnt]
  decide

/-- 4294967295 further addresses for a group of one: the sum of the counts is 0. -/
theorem not_row_bounds : ¬ ∃ jhash1word : UInt32 → UInt32 → UInt32,
    ∀ s msg service idx oldIpNum, Reachable jhash1word (fun _ _ => True) s →
      RowCall jhash1word s msg service idx oldIpNum →
      KeepsRows s.multiVm idx oldIpNum
        (addVmIpList s.multiVm idx service.ipList service.ipNum.toNat oldIpNum) := by
  rintro ⟨jhash1word, hall⟩
  obtain ⟨s, node, hreach, hnode, hcells⟩ := exists_reachable_member jhash1word 0xE1000001 7
  have hcnt := congrArg List.length hcells
  rw [length_cells] at hcnt
  have call : RowCall jhash1word s _ (joinMany 0xE1000001 8 0xFFFFFFFF) node.multiGrpIdx
    node.multiMemberCnt := .joinMember rfl hnode
  have hfits := (keepsRows_iff (call.le_vmMax hreach.countsBounded)).mp (hall _ _ _ _ _ hreach call)
  rcases hfits with hwrap | hbig | hroom
  · rw [hcnt] at hwrap
    exact absurd hwrap (by decide)
  · rw [hcnt] at hbig
    exact absurd hbig (by decide)
  · have hlen : (newcomers (joinMany 0xE1000001 8 0xFFFFFFFF).ipList 0
        (joinMany 0xE1000001 8 0xFFFFFFFF).ipNum.toNat [7]).length = 4294967295 :=
      newcomers_const (show (8 : UInt32) ∉ [7] by decide) 0 _
    rw [hcells, hcnt, hlen] at hroom
    exact absurd hroom (by decide)

end MulticastProxy.KernelServer
