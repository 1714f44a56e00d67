import MulticastProxy.Common.IpHeader
import MulticastProxy.WinServer.PoolStorage

/-!
# Windows proxy: look-up of a packet's group (`multi_grp.c`, `handleIncomeData.c`)

`HandleIncomingData` has the members of the group copied into an array of 32. A row of the table holds
up to 128, and groups that the config file names more than once share a row.
-/

namespace MulticastProxy.WinServer

set_option autoImplicit false

abbrev maxMemIpInGroup : Nat := 32

theorem sizes : maxMemIpInGroup = 32 ∧ multiVmMax = 128 := ⟨rfl, rfl⟩

/-- The loop of `get_vm_ip_list` from cell `i` on. A store behind the caller's array is a fault. -/
def getVmIpLoop (row : Nat → UInt32) : Nat → Nat → List UInt32 → Outcome (List UInt32)
  | 0, _, ipList => .ret ipList
  | n + 1, i, ipList =>
    if i < multiVmMax ∧ i < ipList.length then getVmIpLoop row n (i + 1) (ipList.set i (row i))
    else .fault

def getVmIpList (multiVm : Nat → Nat → UInt32) (idx : UInt8) (ipList : List UInt32)
    (ipNum : UInt8) : Outcome (Int × List UInt32) := do
  let ipList ← getVmIpLoop (multiVm idx.toNat) ipNum.toNat 0 ipList
  .ret (0, ipList)

/-- With the caller's array and node afterwards. -/
def lookupMultiNode (s : State) (multiIp : UInt32) (multiPort : UInt16) (ipList : List UInt32)
    (node : MultiNode) : Outcome (Int × List UInt32 × MultiNode) :=
  match rawLookupMultiNode s multiIp multiPort with
  | none => .ret (-1, ipList, node)
  | some rowId => do
    let tmp := s.multiGrp (mulitHashKey multiIp multiPort multiGrpBucket) rowId
    let node :=
      { node with
        multiMemberCnt := tmp.multiMemberCnt
        multiGrpIdx := tmp.multiGrpIdx
        serverPort := tmp.serverPort }
    let (_, ipList) ←
      getVmIpList s.multiVm node.multiGrpIdx ipList (UInt8.ofNat node.multiMemberCnt)
    .ret (0, ipList, node)

/-- `HandleIncomingData` up to its look-up; `ipList` and `node` are its local variables. -/
def handleIncomingDataLookup (s : State) (pBuf : Memory) (ipList : List UInt32)
    (node : MultiNode) : Outcome (Int × List UInt32 × MultiNode) :=
  let iphLen := ipHdrLen pBuf 0
  let multiIp := pBuf.load32 IpHdr.destaddr
  let multiPort := htons (pBuf.load16 (iphLen + UdpHdr.destPortno))
  lookupMultiNode s multiIp multiPort ipList node

/-- No packet has more addresses stored than the array of `HandleIncomingData` has cells. -/
def LookupsFit (s : State) : Prop :=
  ∀ pBuf ipList node, ipList.length = maxMemIpInGroup →
    ∃ result, handleIncomingDataLookup s pBuf ipList node = .ret result

/-! ## One look-up -/

theorem getVmIpLoop_returns_iff {row : Nat → UInt32} {n i : Nat} {ipList : List UInt32} :
    (∃ result, getVmIpLoop row n i ipList = .ret result) ↔
      n = 0 ∨ i + n ≤ multiVmMax ∧ i + n ≤ ipList.length := by
  induction n generalizing i ipList with
  | zero => exact iff_of_true ⟨ipList, rfl⟩ (Or.inl rfl)
  | succ n ih =>
    rw [getVmIpLoop]
    split
    · rw [ih, List.length_set]
      omega
    · apply iff_of_false
      · intro ⟨_, hret⟩
        cases hret
      · omega

theorem getVmIpList_returns_iff (multiVm : Nat → Nat → UInt32) (idx : UInt8)
    {ipList : List UInt32} (ipNum : UInt8) (hsize : ipList.length = maxMemIpInGroup) :
    (∃ result, getVmIpList multiVm idx ipList ipNum = .ret result) ↔
      ipNum.toNat ≤ maxMemIpInGroup := by
  have hloop : (∃ result, getVmIpList multiVm idx ipList ipNum = .ret result) ↔
      ∃ result, getVmIpLoop (multiVm idx.toNat) ipNum.toNat 0 ipList = .ret result := by
    constructor
    · intro ⟨_, hret⟩
      obtain ⟨result, hresult, _⟩ := Outcome.bind_eq_ret_iff.mp hret
      exact ⟨result, hresult⟩
    · intro ⟨result, hresult⟩
      exact ⟨(0, result), Outcome.bind_eq_ret_iff.mpr ⟨result, hresult, rfl⟩⟩
  obtain ⟨hmem, hvm⟩ := sizes
  rw [hloop, getVmIpLoop_returns_iff]
  omega

theorem lookupMultiNode_returns_iff {s : State} {multiIp : UInt32} {multiPort : UInt16}
    {ipList : List UInt32} {node : MultiNode} (hsize : ipList.length = maxMemIpInGroup) :
    (∃ result, lookupMultiNode s multiIp multiPort ipList node = .ret result) ↔
      ∀ found, nodeOf s (multiIp, multiPort) = some found →
        found.multiMemberCnt % 2 ^ 8 ≤ maxMemIpInGroup := by
  unfold lookupMultiNode nodeOf BucketLayout.content
  rw [show layout.find s.multiGrp (multiIp, multiPort) = rawLookupMultiNode s multiIp multiPort
    from rfl]
  cases rawLookupMultiNode s multiIp multiPort with
  | none => exact iff_of_true ⟨_, rfl⟩ fun _ hnone => nomatch hnone
  | some rowId =>
    let tmp := s.multiGrp (mulitHashKey multiIp multiPort multiGrpBucket) rowId
    have hcopy := getVmIpList_returns_iff s.multiVm tmp.multiGrpIdx
      (UInt8.ofNat tmp.multiMemberCnt) hsize
    rw [UInt8.toNat_ofNat'] at hcopy
    constructor
    · intro ⟨_, hret⟩ found hfound
      obtain rfl := Option.some.inj hfound
      obtain ⟨result, hresult, _⟩ := Outcome.bind_eq_ret_iff.mp hret
      exact hcopy.mp ⟨result, hresult⟩
    · intro hfits
      obtain ⟨result, hresult⟩ := hcopy.mpr (hfits tmp rfl)
      exact ⟨_, Outcome.bind_eq_ret_iff.mpr ⟨result, hresult, rfl⟩⟩

/-- Every group and port has a packet. -/
theorem exists_packet (multiIp : UInt32) (multiPort : UInt16) : ∃ pBuf : Memory,
    pBuf.load32 IpHdr.destaddr = multiIp ∧
      htons (pBuf.load16 (ipHdrLen pBuf 0 + UdpHdr.destPortno)) = multiPort := by
  let base : Memory := (Memory.store32 (fun _ => 0x45) IpHdr.destaddr multiIp)
  let pBuf : Memory := base.store16 22 (htons multiPort)
  have hdest : IpHdr.destaddr = 16 := rfl
  have hverlen : pBuf 0 = 0x45 :=
    (Memory.store16_of_disjoint (by omega)).trans (Memory.store32_of_disjoint (by omega))
  have hlen : ipHdrLen pBuf 0 + UdpHdr.destPortno = 22 := by
    have hstart : 0 + IpHdr.verlen = 0 := rfl
    rw [ipHdrLen, hstart, hverlen]
    rfl
  refine ⟨pBuf, ?_, ?_⟩
  · have hsame : pBuf.load32 IpHdr.destaddr = base.load32 IpHdr.destaddr := by
      apply Memory.load32_congr
      intro i hi
      exact Memory.store16_of_disjoint (by omega)
    rw [hsame, Memory.load32_store32]
  · rw [hlen, Memory.load16_store16, htons_htons]

theorem lookupsFit_iff {s : State} : LookupsFit s ↔ ∀ g node, nodeOf s g = some node →
    node.multiMemberCnt % 2 ^ 8 ≤ maxMemIpInGroup := by
  constructor
  · intro h g node hnode
    obtain ⟨pBuf, hip, hport⟩ := exists_packet g.1 g.2
    have hret := h pBuf (List.replicate maxMemIpInGroup 0) .zero List.length_replicate
    unfold handleIncomingDataLookup at hret
    simp only at hret
    rw [lookupMultiNode_returns_iff List.length_replicate, hip, hport] at hret
    exact hret node hnode
  · intro h pBuf ipList node hsize
    exact (lookupMultiNode_returns_iff hsize).mpr fun found hfound => h _ found hfound

/-! ## Counts over every run -/

def Call.ipNum : Call → Nat
  | .init => 0
  | .add _ _ _ _ ipNum => ipNum.toNat

/-- A call with a list of the size that `cfg_init` has. -/
structure CfgCall where
  call : Call
  fits : call.ipNum ≤ maxMemIpInGroup

def CfgCall.next (s : State) (c : CfgCall) : Option State := c.call.next s

/-- A group that is there already has room for the addresses that it does not hold yet. -/
def RoomFor (s : State) : Call → Prop
  | .init => True
  | .add multiIp multiPort _ ipList ipNum => ∀ node, nodeOf s (multiIp, multiPort) = some node →
    node.multiMemberCnt + (newcomers ipList 0 ipNum.toNat
      (cells (s.multiVm node.multiGrpIdx.toNat) node.multiMemberCnt)).length ≤ maxMemIpInGroup

structure Counted (s : State) : Prop where
  wf : WellFormed s
  fits : ∀ g node, nodeOf s g = some node → node.multiMemberCnt ≤ maxMemIpInGroup

theorem counted_init : Counted multiNodeInit where
  wf := multiNodeInit_wellFormed
  fits := by
    intro g node hnode
    rw [nodeOf_multiNodeInit] at hnode
    cases hnode

theorem Counted.lookupsFit {s : State} (h : Counted s) : LookupsFit s :=
  lookupsFit_iff.mpr fun g node hnode => (Nat.mod_le _ _).trans (h.fits g node hnode)

theorem Counted.update {s s' : State} (h : Counted s) (wf : WellFormed s') {g : UInt32 × UInt16}
    {node : MultiNode} (hnodes : nodeOf s' = Function.update (nodeOf s) g (some node))
    (hnode : node.multiMemberCnt ≤ maxMemIpInGroup) : Counted s' := by
  refine ⟨wf, ?_⟩
  intro g' node' hfound
  rw [hnodes, Function.update_apply] at hfound
  split at hfound
  · obtain rfl := Option.some.inj hfound
    exact hnode
  · exact h.fits g' node' hfound

/-- What a call that is not refused leaves as the count. -/
theorem addVmIpList_cnt {multiVm multiVm' : Nat → Nat → UInt32} {idx : UInt8}
    {ipList : Nat → UInt32} {ipNum oldIpNum cnt : Nat} {ret : Int}
    (hroom : ipNum + oldIpNum ≤ multiVmMax)
    (h : addVmIpList multiVm idx ipList ipNum oldIpNum = .ret (ret, multiVm', cnt)) :
    cnt = oldIpNum +
      (newcomers ipList 0 ipNum (cells (multiVm idx.toNat) oldIpNum)).length := by
  have hsmall : (ipNum + oldIpNum) % 2 ^ 32 = ipNum + oldIpNum :=
    Nat.mod_eq_of_lt (Nat.lt_of_le_of_lt hroom (by decide))
  rw [addVmIpList, hsmall, if_neg (Nat.not_lt.mpr hroom)] at h
  obtain ⟨⟨row, k⟩, hloop, hret⟩ := Outcome.bind_eq_ret_iff.mp h
  obtain ⟨_, hrest⟩ := Prod.mk.inj (Outcome.ret.inj hret)
  obtain ⟨_, rfl⟩ := Prod.mk.inj hrest
  have hlen := congrArg List.length (addVmIpLoop_ret (Nat.le_refl oldIpNum) hloop).1
  rw [List.length_append, length_cells, length_cells] at hlen
  exact hlen

section
variable {s s' : State} (h : Counted s) {c : CfgCall} (hnext : c.next s = some s')

include h hnext

theorem Counted.next (hroom : RoomFor s c.call) : Counted s' := by
  obtain ⟨call, hfits⟩ := c
  obtain ⟨code, hret⟩ := Call.next_eq_some.mp hnext
  obtain ⟨hmem, hvm⟩ := sizes
  cases call with
  | init =>
    obtain ⟨_, rfl⟩ := Prod.mk.inj (Outcome.ret.inj hret)
    exact counted_init
  | add multiIp multiPort serverPort ipList ipNum =>
    have hnum : ipNum.toNat ≤ maxMemIpInGroup := hfits
    cases hnode : nodeOf s (multiIp, multiPort) with
    | some node =>
      have hold := h.fits _ node hnode
      obtain ⟨_, cnt, hadd, hwf, hnodes, _⟩ := addMultiNode_found h.wf hret hnode
      have hcnt := addVmIpList_cnt (by omega) hadd
      apply h.update hwf hnodes
      change cnt ≤ maxMemIpInGroup
      rw [hcnt]
      exact hroom node hnode
    | none =>
      rcases addMultiNode_fresh h.wf hret hnode with
        rfl | ⟨idx, _, node, _, _, _, hadd, hwf, hnodes, _⟩
      · exact h
      · have hcnt := addVmIpList_cnt (by omega) hadd
        have hle := newcomers_length_le ipList 0 ipNum.toNat
          (cells (s.multiVm (UInt8.ofNat idx).toNat) 0)
        exact h.update hwf hnodes (by omega)

/-- A call without room makes the packets of its group overrun the array. -/
theorem Counted.overrun (hroom : ¬ RoomFor s c.call) : ¬ LookupsFit s' := by
  obtain ⟨call, hfits⟩ := c
  obtain ⟨code, hret⟩ := Call.next_eq_some.mp hnext
  obtain ⟨hmem, hvm⟩ := sizes
  cases call with
  | init => exact absurd trivial hroom
  | add multiIp multiPort serverPort ipList ipNum =>
    have hnum : ipNum.toNat ≤ maxMemIpInGroup := hfits
    intro hlookups
    apply hroom
    intro node hnode
    have hold := h.fits _ node hnode
    obtain ⟨_, cnt, hadd, hwf, hnodes, _⟩ := addMultiNode_found h.wf hret hnode
    have hcnt := addVmIpList_cnt (by omega) hadd
    have hle := newcomers_length_le ipList 0 ipNum.toNat
      (cells (s.multiVm node.multiGrpIdx.toNat) node.multiMemberCnt)
    have hstored : cnt % 2 ^ 8 ≤ maxMemIpInGroup := by
      apply lookupsFit_iff.mp hlookups (multiIp, multiPort) { node with multiMemberCnt := cnt }
      rw [hnodes, Function.update_self]
    omega

end

/-- In a run, all look-ups stay inside the array exactly where each group named again has room. -/
theorem lookups_run_iff (calls : List CfgCall) :
    Trace.Throughout CfgCall.next LookupsFit multiNodeInit calls ↔
      Trace.EachStep CfgCall.next (fun s c => RoomFor s c.call) multiNodeInit calls :=
  Trace.throughout_iff_eachStep (I := Counted) (fun _ h => h.lookupsFit)
    (fun _ _ _ h hnext hroom => h.next hnext hroom)
    (fun _ _ _ h hnext hroom => h.overrun hnext hroom) counted_init calls

/-- 32 addresses for a group, and one more for the same group. -/
theorem lookups_overrun : ¬ ∀ calls : List CfgCall,
    Trace.Throughout CfgCall.next LookupsFit multiNodeInit calls := by
  intro h
  let first : CfgCall := ⟨.add 0x010101ef 7127 7126 (fun _ => 7) 32, Nat.le_refl 32⟩
  let second : CfgCall := ⟨.add 0x010101ef 7127 7126 (fun _ => 8) 1, Nat.le_of_ble_eq_true rfl⟩
  have hcount : (Trace.exec CfgCall.next multiNodeInit [first, second]).bind (fun s =>
      (nodeOf s (0x010101ef, 7127)).map MultiNode.multiMemberCnt) = some 33 := by
    decide +kernel
  obtain ⟨s, hexec, hnode⟩ := Option.bind_eq_some_iff.mp hcount
  obtain ⟨node, hfound, hcnt⟩ := Option.map_eq_some_iff.mp hnode
  have hfits := lookupsFit_iff.mp ((h [first, second]).of_exec hexec) _ node hfound
  rw [hcnt] at hfits
  exact absurd hfits (by decide)

end MulticastProxy.WinServer
