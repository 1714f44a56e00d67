import MulticastProxy.KernelServer.Hook
import MulticastProxy.KernelServer.Members
import MulticastProxy.KernelServer.Replies
import MulticastProxy.KernelServer.RowBounds
import MulticastProxy.Library.AccessLog
import MulticastProxy.Library.Memory

/-!
# Kernel server: what the handlers touch of a message (`kmod/multis_nl.c`)

The one check on the length of a message is against the netlink header. A handler then takes the
bytes from there on for a `tmcc_msg_st` with a `tmcc_nl_service_st` in it, on a 64-bit machine.
The rows of `multi_vm` lie one behind the other: an index that leaves its row is in the next one, and
whatever memory there is behind the last row stands for more of them.
-/

namespace MulticastProxy.KernelServer

set_option autoImplicit false

open Logged

/-! ## Messages as bytes -/

abbrev tmccServiceAdd : UInt16 := 0
abbrev tmccServiceDel : UInt16 := 1
abbrev multiDropStats : UInt16 := 2
abbrev multiServerClear : UInt16 := 3
abbrev tmccServiceList : UInt16 := 5
abbrev tmccServiceShow : UInt16 := 6
abbrev tmccServiceCheckUpdate : UInt16 := 7

abbrev msgTrunc : UInt16 := 0x20

/-- `size` bytes of a message from `off` on. -/
structure Access where
  off : Nat
  size : Nat
  deriving DecidableEq, Repr

/-- A received buffer, with the bytes of memory from its message on. -/
structure SkBuff where
  len : UInt32
  data : Memory

structure MultiServerDropStats where
  ret : UInt8
  txPackets : UInt64
  txBytes : UInt64
  noMultiGrpPktDropCount : UInt64
  noMultiMemberPktDropCount : UInt64
  routeFailDropCount : UInt64
  noMemDropCount : UInt64
  deriving DecidableEq, Repr

/-- The table, the counters, and the reply that LIST and SHOW build. -/
structure NlState extends Module where
  kService : TmccNlShowServiceSt

/-- What a handler copies to its caller. -/
inductive Reply where
  | showService (kService : TmccNlShowServiceSt)
  | dropStats (kStats : MultiServerDropStats)

/-- A return code, the address of the caller with the reply that is there now, and the module. -/
abbrev Handled := Int × Option (UInt64 × Reply) × NlState

def getAllMultiDropPktStats (counters : Counters) : MultiServerDropStats where
  ret := 0
  txPackets := counters.txPackets
  txBytes := counters.txBytes
  noMultiGrpPktDropCount := counters.noMultiGrpPktDropCount
  noMultiMemberPktDropCount := counters.noVmIpListPktDropCount
  routeFailDropCount := counters.routeFailDropCount
  noMemDropCount := counters.noMemDropCount

/-- `k_stats`: the counters of all packets for the address 0, else those of one group. -/
def kStats (jhash1word : UInt32 → UInt32 → UInt32) (m : Module) (multiIp : UInt32) :
    MultiServerDropStats :=
  if multiIp = 0 then getAllMultiDropPktStats m.counters
  else
    match getMultiPktStats jhash1word m.table multiIp with
    | none => ⟨1, 0, 0, 0, 0, 0, 0⟩
    | some stats => ⟨0, stats.txPackets, stats.txBytes, 0, 0, 0, 0⟩

/-- `copied` says whether `copy_to_user` succeeds, here and below. -/
def copyToUser (copied : Bool) (replyPtr : UInt64) (reply : Reply) : Option (UInt64 × Reply) :=
  if copied then some (replyPtr, reply) else none

/-- `multi_vm[idx][j]`, wherever that is. -/
def vmCell (multiVm : Nat → Nat → UInt32) (idx j : Nat) : UInt32 :=
  multiVm (idx + j / multiVmMax) (j % multiVmMax)

def setVmCell (multiVm : Nat → Nat → UInt32) (idx j : Nat) (ip : UInt32) : Nat → Nat → UInt32 :=
  BucketLayout.put multiVm (idx + j / multiVmMax) (j % multiVmMax) ip

namespace SkBuff

def nlmsgLen (skb : SkBuff) : UInt32 := skb.data.load32 0
def nlmsgType (skb : SkBuff) : UInt16 := skb.data.load16 4
def nlmsgFlags (skb : SkBuff) : UInt16 := skb.data.load16 6

/-- Is the value of an `int` below `sizeof(struct nlmsghdr)`? The comparison is one of `size_t`. -/
def belowHeader (x : Int) : Bool := 0 ≤ x && x < 16

/-- The checks of `tmcc_rcv_skb`; both lengths are kept in an `int`. -/
def accepted (skb : SkBuff) : Bool :=
  let skblen := skb.len.toInt32.toInt
  let nlmsglen := skb.nlmsgLen.toInt32.toInt
  !belowHeader skblen && !belowHeader nlmsglen && !(skblen < nlmsglen) &&
    skb.nlmsgFlags &&& msgTrunc = 0

/-! ## Fields -/

def ipListOff (i : Nat) : Nat := 40 + 4 * i

def readReplyPtr (skb : SkBuff) : Logged Access UInt64 := touch ⟨16, 8⟩ (skb.data.load64 16)
def writeRet : Logged Access Unit := touch ⟨24, 4⟩ ()
def readAction (skb : SkBuff) : Logged Access UInt8 := touch ⟨28, 1⟩ (skb.data 28)
def readMultiIp (skb : SkBuff) : Logged Access UInt32 := touch ⟨32, 4⟩ (skb.data.load32 32)
def readIpNum (skb : SkBuff) : Logged Access UInt32 := touch ⟨36, 4⟩ (skb.data.load32 36)

def ipList (skb : SkBuff) (i : Nat) : UInt32 := skb.data.load32 (ipListOff i)

def readIpList (skb : SkBuff) (i : Nat) : Logged Access UInt32 :=
  touch ⟨ipListOff i, 4⟩ (skb.ipList i)

/-- The request that the bytes of the message, and those behind it, stand for. -/
def service (skb : SkBuff) : TmccNlServiceSt where
  action := skb.data 28
  multiIp := skb.data.load32 32
  ipNum := skb.data.load32 36
  ipList := skb.ipList

/-! ## Handlers -/

section
variable (jhash1word : UInt32 → UInt32 → UInt32)

/-- A newcomer is stored behind the row, too, where the sum of the counts has wrapped. -/
def addVmIpLoop (skb : SkBuff) (idx oldIpNum : Nat) :
    Nat → Nat → (Nat → Nat → UInt32) → Nat → Logged Access ((Nat → Nat → UInt32) × Nat)
  | 0, _, multiVm, k => pure (multiVm, k)
  | n + 1, i, multiVm, k => do
    let ip ← skb.readIpList i
    if rowHas (vmCell multiVm idx) oldIpNum ip then
      skb.addVmIpLoop idx oldIpNum n (i + 1) multiVm k
    else skb.addVmIpLoop idx oldIpNum n (i + 1) (setVmCell multiVm idx k ip) (k + 1)

def addVmIpList (skb : SkBuff) (multiVm : Nat → Nat → UInt32) (idx : UInt8)
    (ipNum oldIpNum : Nat) : Logged Access (Int × (Nat → Nat → UInt32) × Nat) :=
  if multiVmMax < (ipNum + oldIpNum) % 2 ^ 32 then pure (multiParamError, multiVm, oldIpNum)
  else do
    let (multiVm, k) ← skb.addVmIpLoop idx.toNat oldIpNum ipNum 0 multiVm oldIpNum
    pure (0, multiVm, k)

/-- What JOIN and append run on the node of a group that is there. -/
def extendNode (skb : SkBuff) (s : State) (b row ipNum : Nat) : Logged Access (Int × State) := do
  let (ret, multiVm, cnt) ←
    skb.addVmIpList s.multiVm (s.multiGrp b row).multiGrpIdx ipNum (s.multiGrp b row).multiMemberCnt
  pure (if ret ≠ 0 then multiParamError else 0,
    { s with
      multiVm
      multiGrp := BucketLayout.put s.multiGrp b row
        { s.multiGrp b row with multiMemberCnt := cnt } })

def addMultiNode (skb : SkBuff) (s : State) (multiIp : UInt32) (ipNum : Nat) :
    Logged Access (Int × State) :=
  let index := mulitHashKey jhash1word multiIp multiGrpBucket
  match rawLookupMultiNode jhash1word s multiIp with
  | some rowId => skb.extendNode s index rowId ipNum
  | none =>
    match getIdx multiGrpMax s.bitmap with
    | none => pure (multiIdxExhaust, s)
    | some (idx, bitmap) =>
      match Search.byteSearch (fun i => !(s.multiGrp index i).created) multiGrpDepth 256 0 with
      | none => lift .hang
      | some none => pure (multiIdxExhaust, { s with bitmap := putIdx bitmap idx })
      | some (some i) => do
        let (ret, multiVm, cnt) ← skb.addVmIpList s.multiVm (UInt8.ofNat idx) ipNum 0
        pure (if ret ≠ 0 then multiParamError else 0,
          { bitmap
            multiVm
            multiStats := Function.update s.multiStats idx ⟨0, 0⟩
            multiGrp := BucketLayout.put s.multiGrp index i
              { multiIp, multiMemberCnt := cnt, multiGrpIdx := UInt8.ofNat idx, created := true } })

def appendVmIpList (skb : SkBuff) (s : State) (multiIp : UInt32) (ipNum : Nat) :
    Logged Access (Int × State) :=
  match rawLookupMultiNode jhash1word s multiIp with
  | none => pure (multiNodeNotExsit, s)
  | some rowIdx => skb.extendNode s (mulitHashKey jhash1word multiIp multiGrpBucket) rowIdx ipNum

/-- `quitVmIp` in its place. -/
def quitVmIp (multiVm : Nat → Nat → UInt32) (idx lastIp : Nat) (ip : UInt32) :
    (Nat → Nat → UInt32) × Nat :=
  match (List.range lastIp).find? (fun j => vmCell multiVm idx j == ip) with
  | some j =>
    (setVmCell (setVmCell multiVm idx j (vmCell multiVm idx (lastIp - 1))) idx (lastIp - 1) 0,
      lastIp - 1)
  | none => (multiVm, lastIp)

/-- An address is read where the row has a cell to compare it with. -/
def delQuitVmIp (skb : SkBuff) (idx : Nat) :
    Nat → Nat → (Nat → Nat → UInt32) → Nat → Logged Access ((Nat → Nat → UInt32) × Nat)
  | 0, _, multiVm, lastIp => pure (multiVm, lastIp)
  | n + 1, i, multiVm, lastIp =>
    if lastIp = 0 then skb.delQuitVmIp idx n (i + 1) multiVm lastIp
    else do
      let ip ← skb.readIpList i
      let (multiVm, lastIp) := quitVmIp multiVm idx lastIp ip
      skb.delQuitVmIp idx n (i + 1) multiVm lastIp

def vmQuitFromMultiGrp (skb : SkBuff) (s : State) (multiIp : UInt32) (ipNum : Nat) :
    Logged Access (Int × State) :=
  let index := mulitHashKey jhash1word multiIp multiGrpBucket
  match rawLookupMultiNode jhash1word s multiIp with
  | none => pure (multiNodeNotExsit, s)
  | some rowId => do
    let node := s.multiGrp index rowId
    let (multiVm, cnt) ←
      skb.delQuitVmIp node.multiGrpIdx.toNat ipNum 0 s.multiVm node.multiMemberCnt
    pure (0,
      { s with
        multiVm
        multiGrp := BucketLayout.put s.multiGrp index rowId { node with multiMemberCnt := cnt } })

def multiNlNodeAdd (skb : SkBuff) (s : State) : Logged Access (Int × State) := do
  let action ← skb.readAction
  if action = multiOptJoin then
    let multiIp ← skb.readMultiIp
    let ipNum ← skb.readIpNum
    let result ← skb.addMultiNode jhash1word s multiIp ipNum.toNat
    writeRet
    pure result
  else if action = multiOptQuit then
    let multiIp ← skb.readMultiIp
    let ipNum ← skb.readIpNum
    let result ← skb.vmQuitFromMultiGrp jhash1word s multiIp ipNum.toNat
    writeRet
    pure result
  else
    writeRet
    pure (0, s)

def multiNlNodeDelete (skb : SkBuff) (s : State) : Logged Access (Int × State) := do
  let multiIp ← skb.readMultiIp
  pure (delMultiNode jhash1word s multiIp)

def multiNlVmListAppend (skb : SkBuff) (s : State) : Logged Access (Int × State) := do
  let multiIp ← skb.readMultiIp
  let ipNum ← skb.readIpNum
  let (ret, s) ← skb.appendVmIpList jhash1word s multiIp ipNum.toNat
  writeRet
  pure (if ret ≠ 0 then -1 else 0, s)

def multiNlVmListGet (skb : SkBuff) (copied : Bool) (m : NlState) : Logged Access Handled := do
  let replyPtr ← skb.readReplyPtr
  let multiIp ← skb.readMultiIp
  let (ret, kService) ←
    lift (listMultiNodeAndVmIp jhash1word m.table multiIp { m.kService with ipNum := 0 })
  let kService := { kService with ret }
  pure (if copied then ret else -1, copyToUser copied replyPtr (.showService kService),
    { m with kService })

def multiNlGrpShow (skb : SkBuff) (copied : Bool) (m : NlState) : Logged Access Handled := do
  let replyPtr ← skb.readReplyPtr
  let (ret, kService) ← lift (getAllMultiGrp m.table { m.kService with ipNum := 0 })
  let kService := { kService with ret }
  pure (if copied then ret else -1, copyToUser copied replyPtr (.showService kService),
    { m with kService })

def multiNlNodeGetDropStats (skb : SkBuff) (copied : Bool) (m : NlState) :
    Logged Access Handled := do
  let replyPtr ← skb.readReplyPtr
  let multiIp ← skb.readMultiIp
  let reply := .dropStats (kStats jhash1word m.toModule multiIp)
  pure (if copied then 0 else -1, copyToUser copied replyPtr reply, m)

/-- What a handler of the table leaves behind; it has no reply. -/
def onTable (m : NlState) (run : Logged Access (Int × State)) : Logged Access Handled := do
  let (ret, table) ← run
  pure (ret, none, { m with table })

def handle (skb : SkBuff) (copied : Bool) (m : NlState) : Logged Access Handled :=
  if skb.nlmsgType = tmccServiceAdd then onTable m (skb.multiNlNodeAdd jhash1word m.table)
  else if skb.nlmsgType = tmccServiceDel then onTable m (skb.multiNlNodeDelete jhash1word m.table)
  else if skb.nlmsgType = multiServerClear then onTable m (pure (multiNlNodeClear m.table))
  else if skb.nlmsgType = tmccServiceCheckUpdate then
    onTable m (skb.multiNlVmListAppend jhash1word m.table)
  else if skb.nlmsgType = multiDropStats then skb.multiNlNodeGetDropStats jhash1word copied m
  else if skb.nlmsgType = tmccServiceList then skb.multiNlVmListGet jhash1word copied m
  else if skb.nlmsgType = tmccServiceShow then skb.multiNlGrpShow copied m
  else pure (0, none, m)

/-- The code that is acknowledged; a message that fails a check has none. -/
def tmccRcvSkb (skb : SkBuff) (copied : Bool) (m : NlState) :
    Logged Access (Option Int × Option (UInt64 × Reply) × NlState) :=
  if skb.accepted = true then do
    let (ret, reply, m) ← skb.handle jhash1word copied m
    pure (some ret, reply, m)
  else pure (none, none, m)

end

/-! ## Cells of a row -/

theorem vmCell_setVmCell (multiVm : Nat → Nat → UInt32) (idx k : Nat) (ip : UInt32) :
    vmCell (setVmCell multiVm idx k ip) idx = Function.update (vmCell multiVm idx) k ip := by
  funext j
  have hcell : idx + j / multiVmMax = idx + k / multiVmMax ∧ j % multiVmMax = k % multiVmMax ↔
      j = k := by
    have hmax : multiVmMax = 1024 := rfl
    rw [hmax]
    omega
  rw [Function.update_apply, vmCell, setVmCell, BucketLayout.put_apply]
  simp only [hcell]
  rfl

section
variable {multiVm : Nat → Nat → UInt32} {idx : Nat}

theorem vmCell_of_lt {j : Nat} (hj : j < multiVmMax) : vmCell multiVm idx j = multiVm idx j := by
  rw [vmCell, Nat.div_eq_of_lt hj, Nat.mod_eq_of_lt hj, Nat.add_zero]

theorem setVmCell_of_lt {j : Nat} (hj : j < multiVmMax) (ip : UInt32) :
    setVmCell multiVm idx j ip =
      Function.update multiVm idx (Function.update (multiVm idx) j ip) := by
  rw [setVmCell, Nat.div_eq_of_lt hj, Nat.mod_eq_of_lt hj, Nat.add_zero, BucketLayout.put]

theorem cells_vmCell {n : Nat} (hn : n ≤ multiVmMax) :
    cells (vmCell multiVm idx) n = cells (multiVm idx) n :=
  cells_congr fun _ hj => vmCell_of_lt (Nat.lt_of_lt_of_le hj hn)

theorem quitVmIp_of_le {lastIp : Nat} (hlast : lastIp ≤ multiVmMax) (ip : UInt32) :
    quitVmIp multiVm idx lastIp ip =
      (Function.update multiVm idx (KernelServer.quitVmIp (multiVm idx) lastIp ip).1,
        (KernelServer.quitVmIp (multiVm idx) lastIp ip).2) := by
  have hfind : (List.range lastIp).find? (fun j => vmCell multiVm idx j == ip) =
      (List.range lastIp).find? (fun j => multiVm idx j == ip) := by
    apply List.find?_congr
    intro j hj
    rw [vmCell_of_lt (Nat.lt_of_lt_of_le (List.mem_range.mp hj) hlast)]
  unfold quitVmIp KernelServer.quitVmIp
  rw [hfind]
  cases hmatch : (List.range lastIp).find? (fun j => multiVm idx j == ip) with
  | none => simp
  | some j =>
    have hj := List.mem_range.mp (List.mem_of_find?_eq_some hmatch)
    have hend : lastIp - 1 < multiVmMax := by omega
    simp only [vmCell_of_lt hend, setVmCell_of_lt (Nat.lt_of_lt_of_le hj hlast),
      setVmCell_of_lt hend, Function.update_self, Function.update_idem]

end

/-- In its place or not, the same happens to the cells. -/
theorem vmCell_quitVmIp (multiVm : Nat → Nat → UInt32) (idx lastIp : Nat) (ip : UInt32) :
    (vmCell (quitVmIp multiVm idx lastIp ip).1 idx, (quitVmIp multiVm idx lastIp ip).2) =
      KernelServer.quitVmIp (vmCell multiVm idx) lastIp ip := by
  unfold quitVmIp KernelServer.quitVmIp
  cases (List.range lastIp).find? (fun j => vmCell multiVm idx j == ip) with
  | none => rfl
  | some j => simp only [vmCell_setVmCell]

/-! ## The run without its accesses -/

variable {jhash1word : UInt32 → UInt32 → UInt32}

theorem outcome_addVmIpLoop (skb : SkBuff) {idx oldIpNum n i k : Nat}
    {multiVm : Nat → Nat → UInt32} (hold : oldIpNum ≤ multiVmMax)
    (h : MulticastProxy.addVmIpLoop multiVmMax skb.ipList oldIpNum n i (multiVm idx) k ≠ .fault) :
    (skb.addVmIpLoop idx oldIpNum n i multiVm k).outcome =
      MulticastProxy.addVmIpLoop multiVmMax skb.ipList oldIpNum n i (multiVm idx) k >>= fun r =>
        .ret (Function.update multiVm idx r.1, r.2) := by
  induction n generalizing i multiVm k with
  | zero =>
    simp only [addVmIpLoop, MulticastProxy.addVmIpLoop, outcome_pure, Outcome.ret_bind,
      Function.update_eq_self]
  | succ n ih =>
    have hhas : rowHas (vmCell multiVm idx) oldIpNum (skb.ipList i) =
        rowHas (multiVm idx) oldIpNum (skb.ipList i) := by
      rw [Bool.eq_iff_iff, rowHas_iff, rowHas_iff, cells_vmCell hold]
    simp only [MulticastProxy.addVmIpLoop] at h
    simp only [addVmIpLoop, MulticastProxy.addVmIpLoop, readIpList, outcome_bind, outcome_touch,
      Outcome.ret_bind, hhas]
    split at h
    · rename_i hmember
      rw [if_pos hmember, if_pos hmember]
      exact ih h
    · rename_i hnew
      rw [if_neg hnew, if_neg hnew]
      split at h
      · rename_i hk
        have hrow : setVmCell multiVm idx k (skb.ipList i) idx =
            Function.update (multiVm idx) k (skb.ipList i) := by
          rw [setVmCell_of_lt hk, Function.update_self]
        rw [← hrow] at h ⊢
        rw [if_pos hk, ih h, setVmCell_of_lt hk]
        simp only [Function.update_idem]
      · exact absurd rfl h

theorem outcome_addVmIpList (skb : SkBuff) {multiVm : Nat → Nat → UInt32} {idx : UInt8}
    {ipNum oldIpNum : Nat} (hold : oldIpNum ≤ multiVmMax)
    (h : KernelServer.addVmIpList multiVm idx skb.ipList ipNum oldIpNum ≠ .fault) :
    (skb.addVmIpList multiVm idx ipNum oldIpNum).outcome =
      KernelServer.addVmIpList multiVm idx skb.ipList ipNum oldIpNum := by
  unfold addVmIpList
  unfold KernelServer.addVmIpList at h ⊢
  split
  · rfl
  · rename_i hguard
    rw [if_neg hguard] at h
    rw [outcome_bind, outcome_addVmIpLoop skb hold]
    · cases MulticastProxy.addVmIpLoop multiVmMax skb.ipList oldIpNum ipNum 0 (multiVm idx.toNat)
        oldIpNum <;> rfl
    · intro hfault
      rw [hfault] at h
      exact h rfl

theorem outcome_extendNode (skb : SkBuff) {s : State} {b row ipNum : Nat}
    (hold : (s.multiGrp b row).multiMemberCnt ≤ multiVmMax)
    (h : KernelServer.extendNode s b row skb.ipList ipNum ≠ .fault) :
    (skb.extendNode s b row ipNum).outcome = KernelServer.extendNode s b row skb.ipList ipNum := by
  unfold extendNode
  unfold KernelServer.extendNode at h ⊢
  rw [outcome_bind, outcome_addVmIpList skb hold]
  · rfl
  · intro hfault
    rw [hfault] at h
    exact h rfl

theorem outcome_addMultiNode (skb : SkBuff) {s : State} (hs : CountsBounded jhash1word s)
    {g : UInt32} {ipNum : Nat}
    (h : KernelServer.addMultiNode jhash1word s g skb.ipList ipNum ≠ .fault) :
    (skb.addMultiNode jhash1word s g ipNum).outcome =
      KernelServer.addMultiNode jhash1word s g skb.ipList ipNum := by
  cases hrow : rawLookupMultiNode jhash1word s g with
  | some row =>
    rw [addMultiNode_of_lookup hrow] at h ⊢
    unfold addMultiNode
    simp only [hrow]
    exact outcome_extendNode skb (hs g _ (nodeOf_of_lookup hrow)) h
  | none =>
    unfold addMultiNode
    unfold KernelServer.addMultiNode at h ⊢
    simp only [hrow] at h ⊢
    cases hget : getIdx multiGrpMax s.bitmap with
    | none => rfl
    | some p =>
      simp only [hget] at h ⊢
      rcases searchCell s (mulitHashKey jhash1word g multiGrpBucket) with ⟨i, _, hs, _⟩ | ⟨hs, _⟩
      · simp only [hs] at h ⊢
        rw [outcome_bind, outcome_addVmIpList skb (Nat.zero_le _)]
        · rfl
        · intro hfault
          rw [hfault] at h
          exact h rfl
      · simp only [hs, outcome_lift]

theorem outcome_appendVmIpList (skb : SkBuff) {s : State} (hs : CountsBounded jhash1word s)
    {g : UInt32} {ipNum : Nat}
    (h : KernelServer.appendVmIpList jhash1word s g skb.ipList ipNum ≠ .fault) :
    (skb.appendVmIpList jhash1word s g ipNum).outcome =
      KernelServer.appendVmIpList jhash1word s g skb.ipList ipNum := by
  unfold appendVmIpList
  cases hrow : rawLookupMultiNode jhash1word s g with
  | none =>
    rw [appendVmIpList_of_absent hrow]
    rfl
  | some row =>
    rw [appendVmIpList_of_lookup hrow] at h ⊢
    exact outcome_extendNode skb (hs g _ (nodeOf_of_lookup hrow)) h

theorem outcome_delQuitVmIp (skb : SkBuff) {idx n i lastIp : Nat} {multiVm : Nat → Nat → UInt32}
    (hlast : lastIp ≤ multiVmMax) :
    (skb.delQuitVmIp idx n i multiVm lastIp).outcome =
      .ret (Function.update multiVm idx
          (KernelServer.delQuitVmIp skb.ipList n i (multiVm idx) lastIp).1,
        (KernelServer.delQuitVmIp skb.ipList n i (multiVm idx) lastIp).2) := by
  induction n generalizing i multiVm lastIp with
  | zero =>
    simp only [delQuitVmIp, KernelServer.delQuitVmIp, outcome_pure, Function.update_eq_self]
  | succ n ih =>
    simp only [delQuitVmIp, KernelServer.delQuitVmIp]
    split
    · rename_i hempty
      subst hempty
      exact ih hlast
    · simp only [readIpList, outcome_bind, outcome_touch, Outcome.ret_bind, quitVmIp_of_le hlast]
      rw [ih ((quitVmIp_le _ _ _).trans hlast), Function.update_self, Function.update_idem]

theorem outcome_vmQuitFromMultiGrp (skb : SkBuff) {s : State} (hs : CountsBounded jhash1word s)
    (g : UInt32) (ipNum : Nat) :
    (skb.vmQuitFromMultiGrp jhash1word s g ipNum).outcome =
      .ret (KernelServer.vmQuitFromMultiGrp jhash1word s g skb.ipList ipNum) := by
  unfold vmQuitFromMultiGrp KernelServer.vmQuitFromMultiGrp
  cases hrow : rawLookupMultiNode jhash1word s g with
  | none => rfl
  | some row =>
    simp only [outcome_bind, outcome_delQuitVmIp skb (hs g _ (nodeOf_of_lookup hrow))]
    rfl

theorem outcome_multiNlNodeAdd (skb : SkBuff) {s : State} (hs : CountsBounded jhash1word s)
    (h : KernelServer.multiNlNodeAdd jhash1word s skb.service ≠ .fault) :
    (skb.multiNlNodeAdd jhash1word s).outcome =
      KernelServer.multiNlNodeAdd jhash1word s skb.service := by
  have haction : skb.service.action = skb.data 28 := rfl
  simp only [multiNlNodeAdd, readAction, readMultiIp, readIpNum, writeRet, outcome_bind,
    outcome_touch, Outcome.ret_bind]
  rw [KernelServer.multiNlNodeAdd, haction] at h ⊢
  split
  · rename_i hjoin
    rw [if_pos hjoin] at h
    have hadded : (skb.addMultiNode jhash1word s (skb.data.load32 32)
        (skb.data.load32 36).toNat).outcome = _ := outcome_addMultiNode skb hs h
    simp only [outcome_bind, outcome_touch, Outcome.ret_bind, outcome_pure, hadded]
    exact bind_pure (m := Outcome) _
  · split
    · simp only [outcome_bind, outcome_touch, Outcome.ret_bind, outcome_vmQuitFromMultiGrp skb hs,
        outcome_pure]
      rfl
    · rfl

theorem outcome_multiNlVmListAppend (skb : SkBuff) {s : State} (hs : CountsBounded jhash1word s)
    (h : KernelServer.multiNlVmListAppend jhash1word s skb.service ≠ .fault) :
    (skb.multiNlVmListAppend jhash1word s).outcome =
      KernelServer.multiNlVmListAppend jhash1word s skb.service := by
  simp only [multiNlVmListAppend, readMultiIp, readIpNum, writeRet, outcome_bind,
    outcome_touch, Outcome.ret_bind, outcome_pure]
  have hsafe : KernelServer.appendVmIpList jhash1word s skb.service.multiIp skb.ipList
      skb.service.ipNum.toNat ≠ .fault := by
    intro hfault
    have hservice : skb.service.ipList = skb.ipList := rfl
    rw [KernelServer.multiNlVmListAppend, hservice, hfault] at h
    exact h rfl
  have happended : (skb.appendVmIpList jhash1word s (skb.data.load32 32)
      (skb.data.load32 36).toNat).outcome = _ := outcome_appendVmIpList skb hs hsafe
  rw [happended]
  rfl

/-- The message, where its type is one that changes the table. -/
def message (skb : SkBuff) : Option NlMessage :=
  if skb.nlmsgType = tmccServiceAdd then some (.serviceAdd skb.service)
  else if skb.nlmsgType = tmccServiceDel then some (.serviceDel skb.service)
  else if skb.nlmsgType = multiServerClear then some .serverClear
  else if skb.nlmsgType = tmccServiceCheckUpdate then some (.serviceCheckUpdate skb.service)
  else none

/-- The handlers on bytes do what the handlers on requests do, where no store leaves its row. -/
theorem outcome_handle {skb : SkBuff} {msg : NlMessage} (h : skb.message = some msg)
    (copied : Bool) {m : NlState} (hm : CountsBounded jhash1word m.table)
    (hrows : KernelServer.tmccRcvSkb jhash1word m.table msg ≠ .fault) :
    (skb.handle jhash1word copied m).outcome =
      KernelServer.tmccRcvSkb jhash1word m.table msg >>= fun r =>
        .ret (r.1, none, { m with table := r.2 }) := by
  unfold message at h
  unfold handle
  split at h
  · rename_i htype
    obtain rfl := Option.some.inj h
    rw [if_pos htype, onTable, outcome_bind, outcome_multiNlNodeAdd skb hm hrows]
    rfl
  · rename_i hadd
    rw [if_neg hadd]
    split at h
    · rename_i htype
      obtain rfl := Option.some.inj h
      rw [if_pos htype]
      rfl
    · rename_i hdel
      rw [if_neg hdel]
      split at h
      · rename_i htype
        obtain rfl := Option.some.inj h
        rw [if_pos htype]
        rfl
      · rename_i hclear
        rw [if_neg hclear]
        split at h
        · rename_i htype
          obtain rfl := Option.some.inj h
          rw [if_pos htype, onTable, outcome_bind, outcome_multiNlVmListAppend skb hm hrows]
          rfl
        · simp at h

/-! ## What lies within the message -/

/-- The bytes end at `len` or before it. -/
def FitsIn (len : Nat) (a : Access) : Prop := a.off + a.size ≤ len

instance (len : Nat) (a : Access) : Decidable (FitsIn len a) :=
  inferInstanceAs (Decidable (a.off + a.size ≤ len))

/-- `del_quit_vm_ip` reads element `i`: the members outlast the elements before it. -/
def QuitVisits (ipList : Nat → UInt32) (old : List UInt32) (i : Nat) : Prop :=
  old.diff (cells ipList i) ≠ []

/-- There is an index and a cell for a new group. -/
def CanCreate (jhash1word : UInt32 → UInt32 → UInt32) (s : State) (g : UInt32) : Prop :=
  (∃ idx < multiGrpMax, s.bitmap idx = false) ∧
    ∃ i < 256, (s.multiGrp (mulitHashKey jhash1word g multiGrpBucket) i).created = false

/-- The first `ip_num` elements that a condition picks lie within the message. -/
def ElementsFit (len ipNum : Nat) (visits : Nat → Prop) : Prop :=
  ∀ i < ipNum, visits i → FitsIn len ⟨ipListOff i, 4⟩

theorem within_addVmIpLoop {P : Access → Prop} (skb : SkBuff) (idx oldIpNum n i : Nat)
    (multiVm : Nat → Nat → UInt32) (k : Nat) :
    Within P (skb.addVmIpLoop idx oldIpNum n i multiVm k) ↔ ∀ j < n, P ⟨ipListOff (j + i), 4⟩ := by
  induction n generalizing i multiVm k with
  | zero => simp [addVmIpLoop]
  | succ n ih =>
    have hshift : ∀ j, j + 1 + i = j + (i + 1) := by omega
    rw [Nat.forall_lt_succ_left]
    simp only [addVmIpLoop, readIpList, within_touch_bind, Nat.zero_add, hshift]
    apply and_congr_right
    intro _
    split <;> exact ih _ _ _

theorem within_delQuitVmIp {P : Access → Prop} (skb : SkBuff) (idx n i : Nat)
    (multiVm : Nat → Nat → UInt32) (lastIp : Nat) :
    Within P (skb.delQuitVmIp idx n i multiVm lastIp) ↔ ∀ j < n,
      (cells (vmCell multiVm idx) lastIp).diff ((List.range' i j).map skb.ipList) ≠ [] →
      P ⟨ipListOff (j + i), 4⟩ := by
  induction n generalizing i multiVm lastIp with
  | zero => simp [delQuitVmIp]
  | succ n ih =>
    have hshift : ∀ j, j + 1 + i = j + (i + 1) := by omega
    rw [Nat.forall_lt_succ_left, delQuitVmIp]
    by_cases hempty : lastIp = 0
    · subst hempty
      rw [if_pos rfl, ih]
      simp
    · -- what is left after the first element is there for the others
      have hquit := Prod.ext_iff.mp (vmCell_quitVmIp multiVm idx lastIp (skb.ipList i))
      have hleft : ∀ j, (cells (vmCell (quitVmIp multiVm idx lastIp (skb.ipList i)).1 idx)
            (quitVmIp multiVm idx lastIp (skb.ipList i)).2).diff
              ((List.range' (i + 1) j).map skb.ipList) ≠ [] ↔
          (cells (vmCell multiVm idx) lastIp).diff
            ((List.range' i (j + 1)).map skb.ipList) ≠ [] := by
        intro j
        have hperm := (quitVmIp_erase (vmCell multiVm idx) lastIp (skb.ipList i)).diff_right
          ((List.range' (i + 1) j).map skb.ipList)
        rw [← hquit.1, ← hquit.2] at hperm
        rw [List.range'_succ, List.map_cons, List.diff_cons, ← List.length_pos_iff,
          ← List.length_pos_iff, hperm.length_eq]
      have hnow : (cells (vmCell multiVm idx) lastIp).diff
          ((List.range' i 0).map skb.ipList) ≠ [] := by
        rw [List.range'_zero, List.map_nil, List.diff_nil, ← List.length_pos_iff, length_cells]
        omega
      rw [if_neg hempty]
      simp only [readIpList, within_touch_bind, ih, hleft, hshift, Nat.zero_add]
      exact and_congr_left fun _ => ⟨fun h _ => h, fun h => h hnow⟩

/-- `add_vm_ip_list` accepts the request; then it reads all its elements. -/
def AppendAccepts (jhash1word : UInt32 → UInt32 → UInt32) (s : State) (service : TmccNlServiceSt) :
    Prop :=
  match lookupMultiNode jhash1word s service.multiIp with
  | some (cnt, _, _) => (service.ipNum.toNat + cnt) % 2 ^ 32 ≤ multiVmMax
  | none => False

def JoinAccepts (jhash1word : UInt32 → UInt32 → UInt32) (s : State) (service : TmccNlServiceSt) :
    Prop :=
  match lookupMultiNode jhash1word s service.multiIp with
  | some (cnt, _, _) => (service.ipNum.toNat + cnt) % 2 ^ 32 ≤ multiVmMax
  | none => CanCreate jhash1word s service.multiIp ∧ service.ipNum.toNat ≤ multiVmMax

/-- The elements that a QUIT reads. -/
def QuitReads (jhash1word : UInt32 → UInt32 → UInt32) (s : State) (service : TmccNlServiceSt)
    (i : Nat) : Prop :=
  match lookupMultiNode jhash1word s service.multiIp with
  | some (cnt, idx, _) =>
    QuitVisits service.ipList (cells (vmCell s.multiVm idx.toNat) cnt) i
  | none => False

/-- The message is long enough for what its handler makes of it. -/
def LongEnough (jhash1word : UInt32 → UInt32 → UInt32) (s : State) (skb : SkBuff) : Prop :=
  let len := skb.nlmsgLen.toNat
  let ipNum := skb.service.ipNum.toNat
  if skb.nlmsgType = tmccServiceAdd then
    29 ≤ len ∧
      (skb.service.action = multiOptJoin →
        40 ≤ len ∧ ElementsFit len ipNum fun _ => JoinAccepts jhash1word s skb.service) ∧
      (skb.service.action = multiOptQuit →
        40 ≤ len ∧ ElementsFit len ipNum (QuitReads jhash1word s skb.service))
  else if skb.nlmsgType = tmccServiceDel then 36 ≤ len
  else if skb.nlmsgType = multiServerClear then True
  else if skb.nlmsgType = tmccServiceCheckUpdate then
    40 ≤ len ∧ ElementsFit len ipNum fun _ => AppendAccepts jhash1word s skb.service
  else if skb.nlmsgType = multiDropStats then 36 ≤ len
  else if skb.nlmsgType = tmccServiceList then 36 ≤ len
  else if skb.nlmsgType = tmccServiceShow then 24 ≤ len
  else True

theorem lookupMultiNode_of_raw {s : State} {g : UInt32} {row : Nat}
    (hrow : rawLookupMultiNode jhash1word s g = some row) :
    lookupMultiNode jhash1word s g =
      let node := s.multiGrp (mulitHashKey jhash1word g multiGrpBucket) row
      some (node.multiMemberCnt, node.multiGrpIdx,
        cells (s.multiVm node.multiGrpIdx.toNat) node.multiMemberCnt) := by
  rw [lookupMultiNode, hrow]
  rfl

theorem lookupMultiNode_of_absent {s : State} {g : UInt32}
    (hrow : rawLookupMultiNode jhash1word s g = none) : lookupMultiNode jhash1word s g = none := by
  rw [lookupMultiNode, hrow]

theorem within_addVmIpList {P : Access → Prop} (skb : SkBuff) (multiVm : Nat → Nat → UInt32)
    (idx : UInt8) (ipNum oldIpNum : Nat) :
    Within P (skb.addVmIpList multiVm idx ipNum oldIpNum) ↔
      ∀ i < ipNum, (ipNum + oldIpNum) % 2 ^ 32 ≤ multiVmMax → P ⟨ipListOff i, 4⟩ := by
  unfold addVmIpList
  by_cases hbig : multiVmMax < (ipNum + oldIpNum) % 2 ^ 32
  · rw [if_pos hbig]
    simp only [within_pure, true_iff]
    intro i _ hfit
    exact absurd hfit (Nat.not_le_of_lt hbig)
  · rw [if_neg hbig, within_bind, within_addVmIpLoop]
    simp only [within_pure, implies_true, and_true, Nat.not_lt.mp hbig, forall_const, Nat.add_zero]

theorem within_extendNode {P : Access → Prop} (skb : SkBuff) (s : State) (b row ipNum : Nat) :
    Within P (skb.extendNode s b row ipNum) ↔
      Within P (skb.addVmIpList s.multiVm (s.multiGrp b row).multiGrpIdx ipNum
        (s.multiGrp b row).multiMemberCnt) := by
  rw [extendNode, within_bind]
  simp only [within_pure, implies_true, and_true]

theorem within_appendVmIpList {P : Access → Prop} (skb : SkBuff) (s : State) :
    Within P (skb.appendVmIpList jhash1word s skb.service.multiIp skb.service.ipNum.toNat) ↔
      ∀ i < skb.service.ipNum.toNat, AppendAccepts jhash1word s skb.service →
        P ⟨ipListOff i, 4⟩ := by
  unfold appendVmIpList AppendAccepts
  cases hrow : rawLookupMultiNode jhash1word s skb.service.multiIp with
  | none =>
    rw [lookupMultiNode_of_absent hrow]
    simp
  | some row =>
    rw [lookupMultiNode_of_raw hrow]
    exact (within_extendNode skb s _ row _).trans (within_addVmIpList skb _ _ _ _)

theorem within_addMultiNode {P : Access → Prop} (skb : SkBuff) (s : State) :
    Within P (skb.addMultiNode jhash1word s skb.service.multiIp skb.service.ipNum.toNat) ↔
      ∀ i < skb.service.ipNum.toNat, JoinAccepts jhash1word s skb.service →
        P ⟨ipListOff i, 4⟩ := by
  unfold addMultiNode JoinAccepts
  cases hrow : rawLookupMultiNode jhash1word s skb.service.multiIp with
  | some row =>
    rw [lookupMultiNode_of_raw hrow]
    exact (within_extendNode skb s _ row _).trans (within_addVmIpList skb _ _ _ _)
  | none =>
    have hindex : (∃ idx < multiGrpMax, s.bitmap idx = false) ↔
        getIdx multiGrpMax s.bitmap ≠ none := by
      simp [getIdx_eq_none_iff]
    rw [lookupMultiNode_of_absent hrow]
    simp only [CanCreate, hindex]
    cases hget : getIdx multiGrpMax s.bitmap with
    | none => simp
    | some p =>
      rcases searchCell s (mulitHashKey jhash1word skb.service.multiIp multiGrpBucket) with
        ⟨c, hc, hs, hfree, _⟩ | ⟨hs, hbusy⟩
      · have hcell : ∃ i < 256, (s.multiGrp
            (mulitHashKey jhash1word skb.service.multiIp multiGrpBucket) i).created = false :=
          ⟨c, hc, hfree⟩
        simp only [hs, hcell, ne_eq, reduceCtorEq, not_false_eq_true, true_and]
        rw [within_bind, within_addVmIpList]
        simp only [within_pure, implies_true, and_true]
        rw [Nat.add_zero, Nat.mod_eq_of_lt skb.service.ipNum.toNat_lt]
      · simp only [hs, within_lift, true_iff]
        rintro i _ ⟨⟨_, c, hc, hfree⟩, _⟩
        simp [hbusy c hc] at hfree

/-! ## The handlers -/

/-- The result code lies in front of `action`, so storing it asks for nothing more. -/
theorem within_answered {α β : Type} {len : Nat} (hlen : 29 ≤ len) (run : Logged Access α)
    (f : α → β) :
    Within (FitsIn len) (run >>= fun a => writeRet >>= fun _ => pure (f a)) ↔
      Within (FitsIn len) run := by
  have hret : FitsIn len ⟨24, 4⟩ := by
    change 24 + 4 ≤ len
    omega
  rw [within_bind]
  simp only [writeRet, within_touch_bind, within_pure, and_true, hret, implies_true]

theorem within_vmQuitFromMultiGrp {P : Access → Prop} (skb : SkBuff) (s : State) :
    Within P (skb.vmQuitFromMultiGrp jhash1word s skb.service.multiIp skb.service.ipNum.toNat) ↔
      ∀ i < skb.service.ipNum.toNat, QuitReads jhash1word s skb.service i →
        P ⟨ipListOff i, 4⟩ := by
  unfold vmQuitFromMultiGrp QuitReads
  cases hrow : rawLookupMultiNode jhash1word s skb.service.multiIp with
  | none =>
    rw [lookupMultiNode_of_absent hrow]
    simp
  | some row =>
    rw [lookupMultiNode_of_raw hrow]
    simp only [within_bind, within_pure, implies_true, and_true, within_delQuitVmIp, Nat.add_zero,
      QuitVisits, cells, List.range_eq_range']
    rfl

theorem within_args {α : Type} {len : Nat} (skb : SkBuff)
    {f : UInt32 → UInt32 → Logged Access α} :
    Within (FitsIn len) (skb.readMultiIp >>= fun multiIp => skb.readIpNum >>= f multiIp) ↔
      40 ≤ len ∧ Within (FitsIn len) (f skb.service.multiIp skb.service.ipNum) := by
  simp only [readMultiIp, readIpNum, within_touch_bind, ← and_assoc]
  apply and_congr_left
  intro _
  change 32 + 4 ≤ len ∧ 36 + 4 ≤ len ↔ 40 ≤ len
  omega

theorem within_multiNlNodeAdd (skb : SkBuff) (s : State) (len : Nat) :
    Within (FitsIn len) (skb.multiNlNodeAdd jhash1word s) ↔ 29 ≤ len ∧
      (skb.service.action = multiOptJoin → 40 ≤ len ∧
        ElementsFit len skb.service.ipNum.toNat fun _ => JoinAccepts jhash1word s skb.service) ∧
      (skb.service.action = multiOptQuit → 40 ≤ len ∧
        ElementsFit len skb.service.ipNum.toNat (QuitReads jhash1word s skb.service)) := by
  have haction : skb.service.action = skb.data 28 := rfl
  have hne : multiOptJoin ≠ multiOptQuit := by decide
  rw [multiNlNodeAdd, readAction, within_touch_bind, haction]
  apply and_congr_right
  intro hlen
  by_cases hjoin : skb.data 28 = multiOptJoin
  · rw [if_pos hjoin, within_args, within_answered hlen _ fun result => result,
      within_addMultiNode, hjoin]
    simp [ElementsFit, hne]
  · rw [if_neg hjoin]
    by_cases hquit : skb.data 28 = multiOptQuit
    · rw [if_pos hquit, within_args, within_answered hlen _ fun result => result,
        within_vmQuitFromMultiGrp, hquit]
      simp [ElementsFit, hne.symm]
    · have hret : FitsIn len ⟨24, 4⟩ := by
        change 28 + 1 ≤ len at hlen
        change 24 + 4 ≤ len
        omega
      rw [if_neg hquit, writeRet, within_touch_bind]
      simp [hjoin, hquit, hret]

theorem within_multiNlVmListAppend (skb : SkBuff) (s : State) (len : Nat) :
    Within (FitsIn len) (skb.multiNlVmListAppend jhash1word s) ↔ 40 ≤ len ∧
      ElementsFit len skb.service.ipNum.toNat fun _ => AppendAccepts jhash1word s skb.service := by
  rw [multiNlVmListAppend, within_args]
  apply and_congr_right
  intro hlen
  have h29 : 29 ≤ len := by omega
  apply Iff.trans ?_ (within_appendVmIpList skb s)
  exact within_answered h29 _ fun r : Int × State => (if r.1 ≠ 0 then (-1 : Int) else 0, r.2)

theorem within_onTable {P : Access → Prop} (m : NlState) (run : Logged Access (Int × State)) :
    Within P (onTable m run) ↔ Within P run := by
  rw [onTable, within_bind]
  simp only [within_pure, implies_true, and_true]

/-- A request that only asks reads `reply_ptr` and, to find its group, `multi_ip`. -/
theorem within_multiNlVmListGet (skb : SkBuff) (copied : Bool) (m : NlState) (len : Nat) :
    Within (FitsIn len) (skb.multiNlVmListGet jhash1word copied m) ↔ 36 ≤ len := by
  simp only [multiNlVmListGet, readReplyPtr, readMultiIp, within_touch_bind, within_lift_bind,
    within_pure, implies_true, and_true]
  change 16 + 8 ≤ len ∧ 32 + 4 ≤ len ↔ 36 ≤ len
  omega

theorem within_multiNlNodeGetDropStats (skb : SkBuff) (copied : Bool) (m : NlState) (len : Nat) :
    Within (FitsIn len) (skb.multiNlNodeGetDropStats jhash1word copied m) ↔ 36 ≤ len := by
  simp only [multiNlNodeGetDropStats, readReplyPtr, readMultiIp, within_touch_bind,
    within_pure, and_true]
  change 16 + 8 ≤ len ∧ 32 + 4 ≤ len ↔ 36 ≤ len
  omega

theorem within_multiNlGrpShow (skb : SkBuff) (copied : Bool) (m : NlState) (len : Nat) :
    Within (FitsIn len) (skb.multiNlGrpShow copied m) ↔ 24 ≤ len := by
  simp only [multiNlGrpShow, readReplyPtr, within_touch_bind, within_lift_bind, within_pure,
    implies_true, and_true]
  exact Iff.rfl

theorem within_multiNlNodeDelete (skb : SkBuff) (s : State) (len : Nat) :
    Within (FitsIn len) (skb.multiNlNodeDelete jhash1word s) ↔ 36 ≤ len := by
  simp only [multiNlNodeDelete, readMultiIp, within_touch_bind, within_pure, and_true]
  exact Iff.rfl

theorem within_handle (skb : SkBuff) (copied : Bool) (m : NlState) :
    Within (FitsIn skb.nlmsgLen.toNat) (skb.handle jhash1word copied m) ↔
      LongEnough jhash1word m.table skb := by
  unfold handle LongEnough
  split
  · exact (within_onTable m _).trans (within_multiNlNodeAdd skb m.table _)
  · split
    · exact (within_onTable m _).trans (within_multiNlNodeDelete skb m.table _)
    · split
      · simp [within_onTable]
      · split
        · exact (within_onTable m _).trans (within_multiNlVmListAppend skb m.table _)
        · split
          · exact within_multiNlNodeGetDropStats skb copied m _
          · split
            · exact within_multiNlVmListGet skb copied m _
            · split
              · exact within_multiNlGrpShow skb copied m _
              · simp

/-- A message of the size that the tool sends is long enough for each count that fits a row. -/
theorem longEnough_of_whole {s : State} {skb : SkBuff} (hlen : 4136 ≤ skb.nlmsgLen.toNat)
    (hnum : skb.service.ipNum.toNat ≤ multiVmMax) : LongEnough jhash1word s skb := by
  have hfit : ∀ visits, ElementsFit skb.nlmsgLen.toNat skb.service.ipNum.toNat visits := by
    intro visits i hi _
    change 40 + 4 * i + 4 ≤ skb.nlmsgLen.toNat
    have hmax : multiVmMax = 1024 := rfl
    omega
  have h40 : 40 ≤ skb.nlmsgLen.toNat := by omega
  have h36 : 36 ≤ skb.nlmsgLen.toNat := by omega
  have h29 : 29 ≤ skb.nlmsgLen.toNat := by omega
  have h24 : 24 ≤ skb.nlmsgLen.toNat := by omega
  simp only [LongEnough, h40, h36, h29, h24, hfit, and_self, implies_true, ite_self]

/-- The handler of a message that passes the checks keeps within it exactly where the message is
long enough for its type, its action and its elements. -/
theorem message_bounds_iff (skb : SkBuff) (copied : Bool) (m : NlState) :
    Within (FitsIn skb.nlmsgLen.toNat) (skb.tmccRcvSkb jhash1word copied m) ↔
      (skb.accepted = true → LongEnough jhash1word m.table skb) := by
  unfold tmccRcvSkb
  split
  · rename_i hok
    rw [within_bind, within_handle]
    simp [hok]
  · rename_i hdrop
    simp [hdrop]

/-- A message that is nothing but a header, of type ADD: `action` is read behind its end. -/
theorem not_message_bounds : ¬ ∀ (skb : SkBuff) (m : NlState), skb.accepted = true →
    Within (FitsIn skb.nlmsgLen.toNat) (skb.tmccRcvSkb (fun _ _ => 0) true m) := by
  intro hall
  have hok : (⟨16, fun a => if a = 0 then 16 else 0⟩ : SkBuff).accepted = true := by decide
  have hbounds := hall _ ⟨⟨multiNodeInit, ⟨0, 0, 0, 0, 0, 0⟩⟩, ⟨0, 0, 0, fun _ => 0⟩⟩ hok
  rw [tmccRcvSkb, if_pos hok, within_bind, within_handle, LongEnough, if_pos (by decide)] at hbounds
  exact absurd hbounds.1.1 (by decide)

end SkBuff

end MulticastProxy.KernelServer
