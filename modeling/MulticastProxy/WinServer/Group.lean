import MulticastProxy.Library.BucketTable
import MulticastProxy.Common.MemberRow
import MulticastProxy.Common.IndexPool

/-!
# Windows proxy: group table (`proxy_server/multi_grp.c`, `multi_grp.h`)

The table of the Windows proxy is keyed by group address and port. It is filled from the config
file, and no group is ever deleted from it: a reload starts from an empty one.
-/

namespace MulticastProxy.WinServer

set_option autoImplicit false

abbrev multiGrpMax : Nat := 256
abbrev multiVmMax : Nat := 128
abbrev multiGrpBucket : Nat := 512
abbrev multiGrpDepth : Nat := multiGrpMax

abbrev multiIdxExhaust : Int := 1002
abbrev multiParamError : Int := 1003

structure MultiNode where
  multiIp : UInt32
  multiMemberCnt : Nat
  multiGrpIdx : UInt8
  created : Bool
  multiPort : UInt16
  serverPort : UInt16
  deriving DecidableEq, Repr

def MultiNode.zero : MultiNode := ⟨0, 0, 0, false, 0, 0⟩

structure State where
  multiGrp : Nat → Nat → MultiNode
  multiVm : Nat → Nat → UInt32
  gBitmap : Nat → Bool

def multiNodeInit : State where
  multiGrp := fun _ _ => .zero
  multiVm := fun _ _ => 0
  gBitmap := fun _ => false

def mulitHashKey (multiIp : UInt32) (multiPort : UInt16) (maxnum : Nat) : Nat :=
  ((multiIp + multiPort.toUInt32) * 1023).toNat % maxnum

/-- `multi_grp` as a hash table keyed by `multi_ip` and `multi_port`. -/
def layout : BucketLayout MultiNode (UInt32 × UInt16) where
  live := fun node => node.created
  key := fun node => (node.multiIp, node.multiPort)
  hash := fun k => mulitHashKey k.1 k.2 multiGrpBucket
  depth := multiGrpDepth

/-- `__lookup_multi_node`: the row of the node in its bucket. -/
def rawLookupMultiNode (s : State) (mulitIp : UInt32) (multiPort : UInt16) : Option Nat :=
  layout.find s.multiGrp (mulitIp, multiPort)

def addVmIpList (multiVm : Nat → Nat → UInt32) (idx : UInt8) (ipList : Nat → UInt32)
    (ipNum oldIpNum : Nat) : Outcome (Int × (Nat → Nat → UInt32) × Nat) :=
  if multiVmMax < (ipNum + oldIpNum) % 2 ^ 32 then .ret (multiParamError, multiVm, oldIpNum)
  else do
    let (row, k) ← addVmIpLoop multiVmMax ipList oldIpNum ipNum 0 (multiVm idx.toNat) oldIpNum
    .ret (0, Function.update multiVm idx.toNat row, k)

/-- The number of addresses is a `uint8_t`, and so is the counter of the free-cell loop: the bound
of 256 never ends it, one round of 256 steps decides it (`Search.byteSearch_round`). -/
def addMultiNode (s : State) (multiIp : UInt32) (multiPort serverPort : UInt16)
    (ipList : Nat → UInt32) (ipNum : UInt8) : Outcome (Int × State) :=
  let index := mulitHashKey multiIp multiPort multiGrpBucket
  match rawLookupMultiNode s multiIp multiPort with
  | some rowId => do
    let node := s.multiGrp index rowId
    let (ret, multiVm, cnt) ←
      addVmIpList s.multiVm node.multiGrpIdx ipList ipNum.toNat node.multiMemberCnt
    .ret (if ret ≠ 0 then multiParamError else 0,
      { s with
        multiVm
        multiGrp := BucketLayout.put s.multiGrp index rowId { node with multiMemberCnt := cnt } })
  | none =>
    match getIdx multiGrpMax s.gBitmap with
    | none => .ret (multiIdxExhaust, s)
    | some (idx, gBitmap) =>
      match Search.byteSearch (fun i => !(s.multiGrp index i).created) multiGrpDepth 256 0 with
      | none => .hang
      | some none => .ret (multiIdxExhaust, { s with gBitmap := putIdx gBitmap idx })
      | some (some i) => do
        let (ret, multiVm, cnt) ← addVmIpList s.multiVm (UInt8.ofNat idx) ipList ipNum.toNat 0
        .ret (if ret ≠ 0 then multiParamError else 0,
          { gBitmap
            multiVm
            multiGrp := BucketLayout.put s.multiGrp index i
              { multiIp, multiMemberCnt := cnt, multiGrpIdx := UInt8.ofNat idx, created := true,
                multiPort, serverPort } })

/-- The table is emptied, or a group of the config file is added. -/
inductive Call where
  | init
  | add (multiIp : UInt32) (multiPort serverPort : UInt16) (ipList : Nat → UInt32) (ipNum : UInt8)

def Call.run (s : State) : Call → Outcome (Int × State)
  | .init => .ret (0, multiNodeInit)
  | .add multiIp multiPort serverPort ipList ipNum =>
    addMultiNode s multiIp multiPort serverPort ipList ipNum

/-! ## The table as a map -/

abbrev WellFormed (s : State) : Prop := layout.WellFormed s.multiGrp

def nodeOf (s : State) (g : UInt32 × UInt16) : Option MultiNode := layout.content s.multiGrp g

/-- Live nodes of the table. -/
@[irreducible] def liveNodes (s : State) : Finset (Nat × Nat) :=
  layout.liveCells multiGrpBucket s.multiGrp

def grpIdx (node : MultiNode) : Nat := node.multiGrpIdx.toNat

theorem byte_le_depth : 256 ≤ multiGrpDepth := by decide

/-- The loop over the cells of a bucket finds the first free one of 256, or never ends. -/
theorem searchCell (s : State) (b : Nat) :
    (∃ i < 256, Search.byteSearch (fun i => !(s.multiGrp b i).created) multiGrpDepth 256 0 =
        some (some i) ∧ (s.multiGrp b i).created = false ∧
      ∀ j < i, (s.multiGrp b j).created = true) ∨
    (Search.byteSearch (fun i => !(s.multiGrp b i).created) multiGrpDepth 256 0 = none ∧
      ∀ j < 256, (s.multiGrp b j).created = true) :=
  BucketLayout.byteSearch_free (L := layout) s.multiGrp b byte_le_depth

theorem mulitHashKey_lt (g : UInt32 × UInt16) : layout.hash g < multiGrpBucket :=
  Nat.mod_lt _ (by decide)

theorem multiNodeInit_wellFormed : WellFormed multiNodeInit :=
  BucketLayout.wellFormed_of_free fun _ _ => rfl

@[simp] theorem nodeOf_multiNodeInit (g : UInt32 × UInt16) : nodeOf multiNodeInit g = none :=
  multiNodeInit_wellFormed.content_eq_none_iff.mpr fun _ _ h => by
    simp [multiNodeInit, MultiNode.zero, layout] at h

theorem layout_hash (multiIp : UInt32) (multiPort : UInt16) :
    layout.hash (multiIp, multiPort) = mulitHashKey multiIp multiPort multiGrpBucket := rfl

/-! ## What an add can do -/

/-- A count is changed, the table is left alone, or a node is made under the lowest clear index. -/
inductive AddEffect (s : State) (g : UInt32 × UInt16) : State → Prop
  | recounted {node : MultiNode} {s' : State} (cnt : Nat)
      (found : nodeOf s g = some node) (wf : WellFormed s')
      (nodes : nodeOf s' = Function.update (nodeOf s) g (some { node with multiMemberCnt := cnt }))
      (pool : s'.gBitmap = s.gBitmap) : AddEffect s g s'
  | same : AddEffect s g s
  | created {idx : Nat} {s' : State} (node : MultiNode)
      (fresh : nodeOf s g = none) (index : idx < multiGrpMax) (clear : s.gBitmap idx = false)
      (lowest : ∀ j < idx, s.gBitmap j = true) (wf : WellFormed s')
      (nodes : nodeOf s' = Function.update (nodeOf s) g (some node))
      (holds : grpIdx node = idx)
      (live : (liveNodes s').card = (liveNodes s).card + 1)
      (pool : s'.gBitmap = Function.update s.gBitmap idx true) : AddEffect s g s'

section
variable {s s' : State} (wf : WellFormed s) {multiIp : UInt32} {multiPort serverPort : UInt16}
variable {ipList : Nat → UInt32} {ipNum : UInt8} {code : Int}
variable (h : addMultiNode s multiIp multiPort serverPort ipList ipNum = .ret (code, s'))

include wf h

/-- A group that is there keeps its node but for the count. -/
theorem addMultiNode_found {node : MultiNode} (hfound : nodeOf s (multiIp, multiPort) = some node) :
    ∃ ret cnt, addVmIpList s.multiVm node.multiGrpIdx ipList ipNum.toNat node.multiMemberCnt =
        .ret (ret, s'.multiVm, cnt) ∧
      WellFormed s' ∧ nodeOf s' = Function.update (nodeOf s) (multiIp, multiPort)
        (some { node with multiMemberCnt := cnt }) ∧
      s'.gBitmap = s.gBitmap := by
  unfold addMultiNode at h
  cases hrow : rawLookupMultiNode s multiIp multiPort with
  | none =>
    have hfresh : nodeOf s (multiIp, multiPort) = none := Option.map_eq_none_iff.mpr hrow
    rw [hfound] at hfresh
    cases hfresh
  | some row =>
    simp only [hrow] at h
    have hnode : nodeOf s (multiIp, multiPort) =
        some (s.multiGrp (mulitHashKey multiIp multiPort multiGrpBucket) row) := by
      have hfind : layout.find s.multiGrp _ = some row := hrow
      rw [nodeOf, BucketLayout.content, hfind]
      rfl
    obtain rfl := Option.some.inj (hfound.symm.trans hnode)
    obtain ⟨⟨ret, multiVm, cnt⟩, hadd, hret⟩ := Outcome.bind_eq_ret_iff.mp h
    obtain ⟨_, rfl⟩ := Prod.mk.inj (Outcome.ret.inj hret)
    obtain ⟨hlive, hkey⟩ := BucketLayout.WellFormed.find_eq_some_iff wf |>.mp hrow
    refine ⟨ret, cnt, hadd, ?_, ?_, rfl⟩
    · exact BucketLayout.WellFormed.replace wf hlive hlive rfl
    · have hcontent := BucketLayout.WellFormed.content_replace wf hlive
        (c := { s.multiGrp (mulitHashKey multiIp multiPort multiGrpBucket) row with
          multiMemberCnt := cnt }) hlive rfl
      rw [hkey] at hcontent
      exact hcontent

/-- A group that is not there is left out, or made under the lowest clear index. -/
theorem addMultiNode_fresh (hfresh : nodeOf s (multiIp, multiPort) = none) :
    s' = s ∨ ∃ idx ret node, idx < multiGrpMax ∧ s.gBitmap idx = false ∧
      (∀ j < idx, s.gBitmap j = true) ∧
      addVmIpList s.multiVm (UInt8.ofNat idx) ipList ipNum.toNat 0 =
        .ret (ret, s'.multiVm, node.multiMemberCnt) ∧
      WellFormed s' ∧ nodeOf s' = Function.update (nodeOf s) (multiIp, multiPort) (some node) ∧
      grpIdx node = idx ∧ (liveNodes s').card = (liveNodes s).card + 1 ∧
      s'.gBitmap = Function.update s.gBitmap idx true := by
  have hrow : rawLookupMultiNode s multiIp multiPort = none := Option.map_eq_none_iff.mp hfresh
  unfold addMultiNode at h
  simp only [hrow] at h
  cases hget : getIdx multiGrpMax s.gBitmap with
  | none =>
    simp only [hget] at h
    exact Or.inl (Prod.mk.inj (Outcome.ret.inj h)).2.symm
  | some p =>
    obtain ⟨idx, gBitmap⟩ := p
    obtain ⟨hidx, hclear, hlow, rfl⟩ := getIdx_eq_some hget
    simp only [hget] at h
    rcases searchCell s (mulitHashKey multiIp multiPort multiGrpBucket) with
      ⟨i, hi, hs, hfree, hbusy⟩ | ⟨hs, _⟩
    · simp only [hs] at h
      obtain ⟨⟨ret, multiVm, cnt⟩, hadd, hret⟩ := Outcome.bind_eq_ret_iff.mp h
      obtain ⟨_, rfl⟩ := Prod.mk.inj (Outcome.ret.inj hret)
      have hdepth : i < layout.depth := Nat.lt_of_lt_of_le hi byte_le_depth
      let node : MultiNode := ⟨multiIp, cnt, UInt8.ofNat idx, true, multiPort, serverPort⟩
      have hlive : layout.live node = true := rfl
      have hkey : layout.key node = (multiIp, multiPort) := rfl
      have hwf := BucketLayout.WellFormed.insert wf hrow hdepth hfree hbusy hlive hkey
      have hcontent := BucketLayout.WellFormed.content_insert wf hrow hdepth hfree hbusy hlive hkey
      have hcard := BucketLayout.WellFormed.liveCells_insert wf hrow hdepth hfree hbusy hlive hkey
        mulitHashKey_lt
      rw [layout_hash] at hwf hcontent hcard
      refine Or.inr ⟨idx, ret, node, hidx, hclear, hlow, hadd, hwf, hcontent,
        UInt8.toNat_ofNat_of_lt' hidx, ?_, rfl⟩
      unfold liveNodes
      exact hcard
    · simp [hs] at h

theorem addMultiNode_effect : AddEffect s (multiIp, multiPort) s' := by
  cases hnode : nodeOf s (multiIp, multiPort) with
  | some node =>
    obtain ⟨_, cnt, _, hwf, hnodes, hpool⟩ := addMultiNode_found wf h hnode
    exact .recounted cnt hnode hwf hnodes hpool
  | none =>
    rcases addMultiNode_fresh wf h hnode with
      rfl | ⟨idx, _, node, hidx, hclear, hlow, _, hwf, hnodes, hholds, hlive, hpool⟩
    · exact .same
    · exact .created node hnode hidx hclear hlow hwf hnodes hholds hlive hpool

end

end MulticastProxy.WinServer
