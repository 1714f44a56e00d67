import MulticastProxy.Library.BucketTable
import MulticastProxy.Common.MemberRow
import MulticastProxy.Common.IndexPool

/-!
# Kernel server: group table (`kmod/multis_grp.c`, `include/grp.h`)

The four arrays of the module and the functions that change them, each run under
`multi_lock`. The kernel's `jhash_1word` is a parameter.
-/

namespace MulticastProxy.KernelServer

set_option autoImplicit false

abbrev multiGrpBucket : Nat := 1024
abbrev multiGrpDepth : Nat := 512
abbrev multiGrpMax : Nat := 1024
abbrev multiVmMax : Nat := 1024

abbrev multiNodeNotExsit : Int := 1001
abbrev multiIdxExhaust : Int := 1002
abbrev multiParamError : Int := 1003
abbrev multiVmLagerThanMax : Int := 1004

structure MultiNode where
  multiIp : UInt32
  multiMemberCnt : Nat
  multiGrpIdx : UInt8
  created : Bool
  deriving DecidableEq, Repr

def MultiNode.zero : MultiNode := ⟨0, 0, 0, false⟩

structure MultiStats where
  txPackets : UInt64
  txBytes : UInt64
  deriving DecidableEq, Repr

structure State where
  multiGrp : Nat → Nat → MultiNode
  multiVm : Nat → Nat → UInt32
  multiStats : Nat → MultiStats
  bitmap : Nat → Bool

def multiNodeInit : State where
  multiGrp := fun _ _ => .zero
  multiVm := fun _ _ => 0
  multiStats := fun _ => ⟨0, 0⟩
  bitmap := fun _ => false

variable (jhash1word : UInt32 → UInt32 → UInt32)

def mulitHashKey (multiIp : UInt32) (maxnum : Nat) : Nat := (jhash1word multiIp 0).toNat % maxnum

/-- `multi_grp` as a hash table keyed by `multi_ip`. -/
def layout : BucketLayout MultiNode UInt32 where
  live := fun node => node.created
  key := fun node => node.multiIp
  hash := fun ip => mulitHashKey jhash1word ip multiGrpBucket
  depth := multiGrpDepth

/-- `__lookup_multi_node`: the row of the node in its bucket. -/
def rawLookupMultiNode (s : State) (multiIp : UInt32) : Option Nat :=
  (layout jhash1word).find s.multiGrp multiIp

/-- The index is a `uint8_t` here, whatever the caller holds. -/
def addVmIpList (multiVm : Nat → Nat → UInt32) (idx : UInt8) (ipList : Nat → UInt32)
    (ipNum oldIpNum : Nat) : Outcome (Int × (Nat → Nat → UInt32) × Nat) :=
  if multiVmMax < (ipNum + oldIpNum) % 2 ^ 32 then .ret (multiParamError, multiVm, oldIpNum)
  else do
    let (row, k) ← addVmIpLoop multiVmMax ipList oldIpNum ipNum 0 (multiVm idx.toNat) oldIpNum
    .ret (0, Function.update multiVm idx.toNat row, k)

def getVmIpList (s : State) (idx : UInt8) (ipNum : Nat) : List UInt32 :=
  cells (s.multiVm idx.toNat) ipNum

/-- Count, index and member list of a group, copied out under the lock. -/
def lookupMultiNode (s : State) (multiIp : UInt32) : Option (Nat × UInt8 × List UInt32) :=
  match rawLookupMultiNode jhash1word s multiIp with
  | none => none
  | some rowId =>
    let tmp := s.multiGrp (mulitHashKey jhash1word multiIp multiGrpBucket) rowId
    some (tmp.multiMemberCnt, tmp.multiGrpIdx, getVmIpList s tmp.multiGrpIdx tmp.multiMemberCnt)

def clearVmIpList (multiVm : Nat → Nat → UInt32) (idx : Nat) : Nat → Nat → UInt32 :=
  Function.update multiVm idx fun i => if i < multiVmMax then 0 else multiVm idx i

def appendVmIpList (s : State) (multiIp : UInt32) (ipList : Nat → UInt32) (ipNum : Nat) :
    Outcome (Int × State) :=
  let index := mulitHashKey jhash1word multiIp multiGrpBucket
  match rawLookupMultiNode jhash1word s multiIp with
  | none => .ret (multiNodeNotExsit, s)
  | some rowIdx => do
    let node := s.multiGrp index rowIdx
    let (ret, multiVm, cnt) ←
      addVmIpList s.multiVm node.multiGrpIdx ipList ipNum node.multiMemberCnt
    .ret (if ret ≠ 0 then multiParamError else 0,
      { s with
        multiVm
        multiGrp := BucketLayout.put s.multiGrp index rowIdx { node with multiMemberCnt := cnt } })

/-- One pass of the inner loop of `del_quit_vm_ip`: the first cell that holds `ip` is overwritten
with the last one, which is zeroed and dropped. -/
def quitVmIp (row : Nat → UInt32) (lastIp : Nat) (ip : UInt32) : (Nat → UInt32) × Nat :=
  match (List.range lastIp).find? (fun j => row j == ip) with
  | some j =>
    (Function.update (Function.update row j (row (lastIp - 1))) (lastIp - 1) 0, lastIp - 1)
  | none => (row, lastIp)

def delQuitVmIp (ipList : Nat → UInt32) : Nat → Nat → (Nat → UInt32) → Nat → (Nat → UInt32) × Nat
  | 0, _, row, lastIp => (row, lastIp)
  | n + 1, i, row, lastIp =>
    let (row, lastIp) := quitVmIp row lastIp (ipList i)
    delQuitVmIp ipList n (i + 1) row lastIp

def vmQuitFromMultiGrp (s : State) (multiIp : UInt32) (ipList : Nat → UInt32) (ipNum : Nat) :
    Int × State :=
  let index := mulitHashKey jhash1word multiIp multiGrpBucket
  match rawLookupMultiNode jhash1word s multiIp with
  | none => (multiNodeNotExsit, s)
  | some rowId =>
    let node := s.multiGrp index rowId
    let idx := node.multiGrpIdx.toNat
    let (row, cnt) := delQuitVmIp ipList ipNum 0 (s.multiVm idx) node.multiMemberCnt
    (0,
      { s with
        multiVm := Function.update s.multiVm idx row
        multiGrp := BucketLayout.put s.multiGrp index rowId { node with multiMemberCnt := cnt } })

/-- The free-cell loop counts in a `uint8_t`, so the bound of 512 never ends it; one round of
256 steps decides it (`Search.byteSearch_round`). -/
def addMultiNode (s : State) (multiIp : UInt32) (ipList : Nat → UInt32) (ipNum : Nat) :
    Outcome (Int × State) :=
  let index := mulitHashKey jhash1word multiIp multiGrpBucket
  match rawLookupMultiNode jhash1word s multiIp with
  | some rowId => do
    let node := s.multiGrp index rowId
    let (ret, multiVm, cnt) ←
      addVmIpList s.multiVm node.multiGrpIdx ipList ipNum node.multiMemberCnt
    .ret (if ret ≠ 0 then multiParamError else 0,
      { s with
        multiVm
        multiGrp := BucketLayout.put s.multiGrp index rowId { node with multiMemberCnt := cnt } })
  | none =>
    match getIdx multiGrpMax s.bitmap with
    | none => .ret (multiIdxExhaust, s)
    | some (idx, bitmap) =>
      match Search.byteSearch (fun i => !(s.multiGrp index i).created) multiGrpDepth 256 0 with
      | none => .hang
      | some none => .ret (multiIdxExhaust, { s with bitmap := putIdx bitmap idx })
      | some (some i) => do
        -- the node keeps `idx` in a `uint8_t`, the counters are reset under the full value
        let (ret, multiVm, cnt) ← addVmIpList s.multiVm (UInt8.ofNat idx) ipList ipNum 0
        .ret (if ret ≠ 0 then multiParamError else 0,
          { bitmap
            multiVm
            multiStats := Function.update s.multiStats idx ⟨0, 0⟩
            multiGrp := BucketLayout.put s.multiGrp index i
              { multiIp, multiMemberCnt := cnt, multiGrpIdx := UInt8.ofNat idx, created := true } })

/-- The return code is 0 even where the group does not exist. -/
def delMultiNode (s : State) (multiIp : UInt32) : Int × State :=
  let index := mulitHashKey jhash1word multiIp multiGrpBucket
  match rawLookupMultiNode jhash1word s multiIp with
  | none => (0, s)
  | some rowId =>
    let idx := (s.multiGrp index rowId).multiGrpIdx.toNat
    (0,
      { s with
        multiGrp := (layout jhash1word).remove (fun _ nodeMove => nodeMove) (fun _ => .zero)
          s.multiGrp index rowId
        multiVm := clearVmIpList s.multiVm idx
        bitmap := putIdx s.bitmap idx })

def clearNode (s : State) (i j : Nat) : State :=
  let idx := (s.multiGrp i j).multiGrpIdx.toNat
  { multiGrp := BucketLayout.put s.multiGrp i j .zero
    multiVm := clearVmIpList s.multiVm idx
    multiStats := Function.update s.multiStats idx ⟨0, 0⟩
    bitmap := putIdx s.bitmap idx }

def clearBucket (i : Nat) : Nat → Nat → State → State
  | 0, _, s => s
  | n + 1, j, s =>
    if (s.multiGrp i j).created = false then s else clearBucket i n (j + 1) (clearNode s i j)

def clearMultiGroup (s : State) : State :=
  (List.range multiGrpBucket).foldl (fun s i => clearBucket i multiGrpDepth 0 s) s

def multiGrpStats (s : State) (grpIdx : Nat) (len : UInt16) : State :=
  { s with
    multiStats := Function.update s.multiStats grpIdx
      ⟨(s.multiStats grpIdx).txPackets + 1, (s.multiStats grpIdx).txBytes + len.toUInt64⟩ }

/-- The counters of a live group; `none` stands for a reply with `ret = 1`. -/
def getMultiPktStats (s : State) (multiIp : UInt32) : Option MultiStats :=
  match rawLookupMultiNode jhash1word s multiIp with
  | none => none
  | some rowId =>
    let node := s.multiGrp (mulitHashKey jhash1word multiIp multiGrpBucket) rowId
    some (s.multiStats node.multiGrpIdx.toNat)

end MulticastProxy.KernelServer
