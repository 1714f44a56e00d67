import MulticastProxy.KernelServer.MessageBounds
import MulticastProxy.KernelServer.ShowCount
import MulticastProxy.KernelServer.TwoParties

/-!
# Kernel server: commands as bytes (`tools/multi_server_control/comm_kernel.c`)

The tool lays a request out in memory and sends it; the module finds its fields again and keeps
within what was sent. So a process does on bytes what it does on requests, and finds the answer to
its own query where it has asked for it. Messages and packets come one after the other.
-/

namespace MulticastProxy.KernelServer

set_option autoImplicit false

open Logged

/-! ## The tool's messages -/

abbrev nlmFRequest : UInt16 := 1
abbrev sizeofPtr : Nat := 8
abbrev sizeofService : Nat := 4112

/-- `NLMSG_LENGTH`. -/
def nlmsgLength (len : Nat) : Nat := 16 + len

/-- `struct tmcc_nl_service_st` from address 0 on, as it lies in the tool. -/
def TmccNlServiceSt.layOut (service : TmccNlServiceSt) : Memory :=
  let st : Memory := fun _ => 0
  let st := st.store8 4 service.action
  let st := st.store32 8 service.multiIp
  let st := st.store32 12 service.ipNum
  st.storeArray 16 service.ipList multiVmMax

namespace Comm

/-- What all requests start with; the order of the stores differs. -/
def messageHeader (msgLen : Nat) (type : UInt16) (nlPid : UInt32) : Memory :=
  let message : Memory := fun _ => 0
  let message := message.store16 6 nlmFRequest
  let message := message.store32 12 nlPid
  let message := message.store32 0 (UInt32.ofNat msgLen)
  message.store16 4 type

/-- The caller's buffer, by its address. -/
def setReplyPtr (message : Memory) (replyPtr : UInt64) : Memory :=
  (message.store32 16 replyPtr.toUInt32).store32 20 (replyPtr / 0x100000000).toUInt32

/-- `memcpy` of the request behind `reply_ptr`. -/
def setData (message : Memory) (serv : TmccNlServiceSt) : Memory :=
  message.copy 24 (serv.layOut.bytes 0 sizeofService)

def tmccServiceAddToKernel (nlPid : UInt32) (serv : TmccNlServiceSt) : Memory :=
  setData (messageHeader (nlmsgLength (sizeofService + sizeofPtr)) tmccServiceAdd nlPid) serv

def tmccServiceDeleteFromKernel (nlPid : UInt32) (serv : TmccNlServiceSt) : Memory :=
  setData (messageHeader (nlmsgLength (sizeofService + sizeofPtr)) tmccServiceDel nlPid) serv

def multiServerClearFromKernel (nlPid : UInt32) : Memory :=
  messageHeader (nlmsgLength 0) multiServerClear nlPid

def tmccServiceList (nlPid : UInt32) (replyPtr : UInt64) (serv : TmccNlServiceSt) : Memory :=
  setData (setReplyPtr (messageHeader (nlmsgLength (sizeofService + sizeofPtr))
    KernelServer.tmccServiceList nlPid) replyPtr) serv

def multiDropStats (nlPid : UInt32) (replyPtr : UInt64) (serv : TmccNlServiceSt) : Memory :=
  setData (setReplyPtr (messageHeader (nlmsgLength (sizeofService + sizeofPtr))
    KernelServer.multiDropStats nlPid) replyPtr) serv

def tmccServiceShow (nlPid : UInt32) (replyPtr : UInt64) : Memory :=
  setReplyPtr (messageHeader (nlmsgLength sizeofPtr) KernelServer.tmccServiceShow nlPid) replyPtr

/-- `sendto` of `nlmsg_len` bytes; `behind` is what the kernel has in memory around them. -/
def sendto (behind message : Memory) : SkBuff where
  len := message.load32 0
  data := behind.copy 0 (message.bytes 0 (message.load32 0).toNat)

end Comm

open Comm

/-! ## The fields of a message -/

section
variable (service : TmccNlServiceSt)

theorem layOut_action : service.layOut 4 = service.action := by
  unfold TmccNlServiceSt.layOut
  rw [Memory.storeArray_of_disjoint (by omega), Memory.store32_of_disjoint (by omega),
    Memory.store32_of_disjoint (by omega), Memory.store8_self]

theorem layOut_multiIp : service.layOut.load32 8 = service.multiIp := by
  unfold TmccNlServiceSt.layOut
  rw [Memory.load32_storeArray_of_disjoint (by omega),
    Memory.load32_store32_of_disjoint (by omega), Memory.load32_store32]

theorem layOut_ipNum : service.layOut.load32 12 = service.ipNum := by
  unfold TmccNlServiceSt.layOut
  rw [Memory.load32_storeArray_of_disjoint (by omega), Memory.load32_store32]

theorem layOut_ipList {i : Nat} (hi : i < multiVmMax) :
    service.layOut.load32 (16 + 4 * i) = service.ipList i := Memory.load32_storeArray hi

end

/-- A buffer starts with the header of a request of this length and type. -/
structure HoldsMessage (message : Memory) (msgLen : Nat) (type : UInt16) : Prop where
  len : message.load32 0 = UInt32.ofNat msgLen
  type : message.load16 4 = type
  flags : message.load16 6 = nlmFRequest

theorem holds_messageHeader (msgLen : Nat) (type : UInt16) (nlPid : UInt32) :
    HoldsMessage (messageHeader msgLen type nlPid) msgLen type where
  len := by
    unfold messageHeader
    rw [Memory.load32_store16_of_disjoint (by omega), Memory.load32_store32]
  type := by
    unfold messageHeader
    rw [Memory.load16_store16]
  flags := by
    unfold messageHeader
    rw [Memory.load16_store16_of_disjoint (by omega), Memory.load16_store32_of_disjoint (by omega),
      Memory.load16_store32_of_disjoint (by omega), Memory.load16_store16]

section
variable {message : Memory} {msgLen : Nat} {type : UInt16}

theorem HoldsMessage.setReplyPtr (h : HoldsMessage message msgLen type) (replyPtr : UInt64) :
    HoldsMessage (setReplyPtr message replyPtr) msgLen type where
  len := by
    unfold Comm.setReplyPtr
    rw [Memory.load32_store32_of_disjoint (by omega), Memory.load32_store32_of_disjoint (by omega),
      h.len]
  type := by
    unfold Comm.setReplyPtr
    rw [Memory.load16_store32_of_disjoint (by omega), Memory.load16_store32_of_disjoint (by omega),
      h.type]
  flags := by
    unfold Comm.setReplyPtr
    rw [Memory.load16_store32_of_disjoint (by omega), Memory.load16_store32_of_disjoint (by omega),
      h.flags]

theorem HoldsMessage.setData (h : HoldsMessage message msgLen type) (serv : TmccNlServiceSt) :
    HoldsMessage (setData message serv) msgLen type where
  len := by rw [Comm.setData, Memory.load32_copy_of_disjoint (by omega), h.len]
  type := by rw [Comm.setData, Memory.load16_copy_of_disjoint (by omega), h.type]
  flags := by rw [Comm.setData, Memory.load16_copy_of_disjoint (by omega), h.flags]

variable (behind : Memory)

/-- What lies within the message comes out as it was put in. -/
theorem sendto_load32 {i : Nat} (hi : i + 4 ≤ (message.load32 0).toNat) :
    (sendto behind message).data.load32 i = message.load32 i := by
  have h := Memory.load32_copy_bytes (m := behind) (s := message) (a := 0) (b := 0) hi
  rwa [Nat.zero_add] at h

theorem sendto_load16 {i : Nat} (hi : i + 2 ≤ (message.load32 0).toNat) :
    (sendto behind message).data.load16 i = message.load16 i := by
  have h := Memory.load16_copy_bytes (m := behind) (s := message) (a := 0) (b := 0) hi
  rwa [Nat.zero_add] at h

theorem sendto_byte {i : Nat} (hi : i < (message.load32 0).toNat) :
    (sendto behind message).data i = message i := by
  have h := Memory.copy_bytes (m := behind) (s := message) (a := 0) (b := 0) hi
  rwa [Nat.zero_add] at h

/-- What the module reads in the header, and that it goes on with the message. -/
structure Arrives (skb : SkBuff) (msgLen : Nat) (type : UInt16) : Prop where
  len : skb.nlmsgLen.toNat = msgLen
  type : skb.nlmsgType = type
  accepted : skb.accepted = true

theorem HoldsMessage.arrives (h : HoldsMessage message msgLen type) (hlow : 16 ≤ msgLen)
    (hhigh : msgLen ≤ 4136) :
    Arrives (sendto behind message) msgLen type := by
  have hsize : (message.load32 0).toNat = msgLen := by
    rw [h.len]
    exact UInt32.toNat_ofNat_of_lt' (Nat.lt_of_le_of_lt hhigh (by decide))
  have hlen : (sendto behind message).nlmsgLen = message.load32 0 :=
    sendto_load32 behind (by omega)
  have hflags : (sendto behind message).nlmsgFlags = nlmFRequest :=
    (sendto_load16 behind (by omega)).trans h.flags
  have hint : (message.load32 0).toInt32.toInt = (message.load32 0).toNat := by
    apply BitVec.toInt_eq_toNat_of_lt
    change 2 * (message.load32 0).toNat < 2 ^ 32
    omega
  refine ⟨by rw [hlen, hsize], (sendto_load16 behind (by omega)).trans h.type, ?_⟩
  have hskb : (sendto behind message).len = message.load32 0 := rfl
  have hfits : SkBuff.belowHeader msgLen = false := by
    unfold SkBuff.belowHeader
    simp
    omega
  unfold SkBuff.accepted
  rw [hlen, hflags, hskb, hint, hsize]
  simp only [hfits, lt_irrefl]
  rfl

theorem sendto_load64 {i : Nat} (hi : i + 8 ≤ (message.load32 0).toNat) :
    (sendto behind message).data.load64 i = message.load64 i := by
  rw [Memory.load64, Memory.load64, sendto_load32 behind (by omega),
    sendto_load32 behind (by omega)]

theorem load64_setReplyPtr (message : Memory) (replyPtr : UInt64) :
    (setReplyPtr message replyPtr).load64 16 = replyPtr :=
  Memory.load64_store64 replyPtr

end

/-- Two requests that the module cannot tell apart: behind the addresses they may differ. -/
structure TmccNlServiceSt.Same (service service' : TmccNlServiceSt) : Prop where
  action : service'.action = service.action
  multiIp : service'.multiIp = service.multiIp
  ipNum : service'.ipNum = service.ipNum
  ipList : ∀ i < service.ipNum.toNat, service'.ipList i = service.ipList i

/-- The request comes out of a message with it. -/
theorem same_sendto {message : Memory} {type : UInt16} (behind : Memory)
    (serv : TmccNlServiceSt) (hnum : serv.ipNum.toNat ≤ multiVmMax)
    (h : HoldsMessage message (nlmsgLength (sizeofService + sizeofPtr)) type) :
    serv.Same (sendto behind (setData message serv)).service := by
  have hlen : ((setData message serv).load32 0).toNat = 4136 := by
    rw [(h.setData serv).len]
    rfl
  have hdata : ∀ {i : Nat}, i + 4 ≤ sizeofService →
      (sendto behind (setData message serv)).data.load32 (24 + i) = serv.layOut.load32 i := by
    intro i hi
    have hsize : sizeofService = 4112 := rfl
    rw [sendto_load32 behind (by omega), setData, Memory.load32_copy_bytes hi, Nat.zero_add]
  have hbyte : (sendto behind (setData message serv)).data 28 = serv.layOut 4 := by
    rw [sendto_byte behind (by omega), setData]
    exact Memory.copy_bytes (m := message) (s := serv.layOut) (a := 24) (b := 0) (i := 4)
      (by decide)
  have hip := hdata (i := 8) (by decide)
  have hnumber := hdata (i := 12) (by decide)
  generalize sendto behind (setData message serv) = skb at hdata hbyte hip hnumber
  refine ⟨hbyte.trans (layOut_action serv), hip.trans (layOut_multiIp serv),
    hnumber.trans (layOut_ipNum serv), fun i hi => ?_⟩
  have hmax : multiVmMax = 1024 := rfl
  have hsize : sizeofService = 4112 := rfl
  have hoff : SkBuff.ipListOff i = 24 + (16 + 4 * i) := by
    unfold SkBuff.ipListOff
    omega
  have hread : skb.service.ipList i = skb.data.load32 (SkBuff.ipListOff i) := rfl
  rw [hread, hoff, hdata (by omega), layOut_ipList serv (by omega)]

/-! ## What the module makes of a request -/

section
variable {jhash1word : UInt32 → UInt32 → UInt32}

theorem addVmIpLoop_congr {vmMax : Nat} {f g : Nat → UInt32} {oldIpNum n i : Nat}
    (h : ∀ j < n, g (i + j) = f (i + j)) (row : Nat → UInt32) (k : Nat) :
    MulticastProxy.addVmIpLoop vmMax g oldIpNum n i row k =
      MulticastProxy.addVmIpLoop vmMax f oldIpNum n i row k := by
  induction n generalizing i row k with
  | zero => rfl
  | succ n ih =>
    have hhead : g i = f i := h 0 (Nat.succ_pos n)
    have htail : ∀ j < n, g (i + 1 + j) = f (i + 1 + j) := by
      intro j hj
      rw [Nat.add_assoc, Nat.add_comm 1]
      exact h (j + 1) (by omega)
    simp only [MulticastProxy.addVmIpLoop, hhead, ih htail]

theorem delQuitVmIp_congr {f g : Nat → UInt32} {n i : Nat} (h : ∀ j < n, g (i + j) = f (i + j))
    (row : Nat → UInt32) (lastIp : Nat) :
    delQuitVmIp g n i row lastIp = delQuitVmIp f n i row lastIp := by
  induction n generalizing i row lastIp with
  | zero => rfl
  | succ n ih =>
    have hhead : g i = f i := h 0 (Nat.succ_pos n)
    have htail : ∀ j < n, g (i + 1 + j) = f (i + 1 + j) := by
      intro j hj
      rw [Nat.add_assoc, Nat.add_comm 1]
      exact h (j + 1) (by omega)
    simp only [delQuitVmIp, hhead, ih htail]

theorem addVmIpList_congr {f g : Nat → UInt32} {ipNum : Nat} (h : ∀ j < ipNum, g j = f j)
    (multiVm : Nat → Nat → UInt32) (idx : UInt8) (oldIpNum : Nat) :
    addVmIpList multiVm idx g ipNum oldIpNum = addVmIpList multiVm idx f ipNum oldIpNum := by
  have hloop : ∀ row, MulticastProxy.addVmIpLoop multiVmMax g oldIpNum ipNum 0 row oldIpNum =
      MulticastProxy.addVmIpLoop multiVmMax f oldIpNum ipNum 0 row oldIpNum := by
    intro row
    apply addVmIpLoop_congr
    intro j hj
    rw [Nat.zero_add]
    exact h j hj
  simp only [addVmIpList, hloop]

theorem addMultiNode_congr {f g : Nat → UInt32} {ipNum : Nat} (h : ∀ j < ipNum, g j = f j)
    (s : State) (multiIp : UInt32) :
    addMultiNode jhash1word s multiIp g ipNum = addMultiNode jhash1word s multiIp f ipNum := by
  simp only [addMultiNode, addVmIpList_congr h]

theorem vmQuitFromMultiGrp_congr {f g : Nat → UInt32} {ipNum : Nat} (h : ∀ j < ipNum, g j = f j)
    (s : State) (multiIp : UInt32) :
    vmQuitFromMultiGrp jhash1word s multiIp g ipNum =
      vmQuitFromMultiGrp jhash1word s multiIp f ipNum := by
  have hloop : ∀ row cnt, delQuitVmIp g ipNum 0 row cnt = delQuitVmIp f ipNum 0 row cnt := by
    intro row cnt
    apply delQuitVmIp_congr
    intro j hj
    rw [Nat.zero_add]
    exact h j hj
  simp only [vmQuitFromMultiGrp, hloop]

theorem multiNlNodeAdd_congr {service service' : TmccNlServiceSt} (h : service.Same service')
    (s : State) :
    multiNlNodeAdd jhash1word s service' = multiNlNodeAdd jhash1word s service := by
  simp only [multiNlNodeAdd, h.action, h.multiIp, h.ipNum, addMultiNode_congr h.ipList,
    vmQuitFromMultiGrp_congr h.ipList]

theorem multiNlNodeDelete_congr {service service' : TmccNlServiceSt} (h : service.Same service')
    (s : State) :
    multiNlNodeDelete jhash1word s service' = multiNlNodeDelete jhash1word s service := by
  simp only [multiNlNodeDelete, h.multiIp]

end

/-! ## Processes -/

/-- What a message has from the process that sends it, and what lies behind it in the kernel. -/
structure Link where
  nlPid : UInt32
  replyPtr : UInt64
  behind : Memory

/-- What a process can ask for; the statistics are not in `k_service`. -/
inductive Query where
  | table (request : Request)
  | dropStats (multiIp : UInt32)

namespace Command

def request (link : Link) : Command → Memory
  | .add service => tmccServiceAddToKernel link.nlPid service
  | .del service => tmccServiceDeleteFromKernel link.nlPid service
  | .clear => multiServerClearFromKernel link.nlPid
  | .print .list service => Comm.tmccServiceList link.nlPid link.replyPtr service
  | .print .dropStats service => Comm.multiDropStats link.nlPid link.replyPtr service
  | .print _ _ => Comm.tmccServiceShow link.nlPid link.replyPtr

def send (link : Link) (cmd : Command) : SkBuff := sendto link.behind (cmd.request link)

def asks : Command → Option Query
  | .print .list service => some (.table (.list service.multiIp))
  | .print .dropStats service => some (.dropStats service.multiIp)
  | .print _ _ => some (.table .show)
  | _ => none

end Command

/-- A process that has read its arguments is `starting`, until it has updated the config file; from
then on its message is due. -/
structure Wire where
  cfg : Config
  kernel : NlState
  starting : List Command
  pending : List Command

def NlState.init : NlState where
  table := multiNodeInit
  counters := ⟨0, 0, 0, 0, 0, 0⟩
  kService := ⟨0, 0, 0, fun _ => 0⟩

def Wire.init : Wire := ⟨none, .init, [], []⟩

section
variable (jhash1word : UInt32 → UInt32 → UInt32)

/-- A step of one process, whichever it is, or a packet of the host. Arguments that are no command
are found out behind the first section. Where the lock is not to be had the process ends, but a
CLEAR goes to the module all the same. -/
inductive WireStep : Wire → Wire → Prop where
  | start {w : Wire} {argv : List CommandLine.Word} {cmd : Command} : parseArgs argv = .ok cmd →
      WireStep w { w with
        cfg := multiGrpConfigInit w.cfg
        starting := w.starting ++ [cmd] }
  | reject {w : Wire} : WireStep w { w with cfg := multiGrpConfigInit w.cfg }
  | fail {w : Wire} (before : List Command) {cmd : Command} (after : List Command) :
      w.starting = before ++ cmd :: after → (cmd.updateConfig w.cfg).1 ≠ 0 →
      WireStep w { w with
        cfg := (cmd.updateConfig w.cfg).2
        starting := before ++ after }
  | update {w : Wire} (before : List Command) {cmd : Command} (after : List Command) :
      w.starting = before ++ cmd :: after → (cmd.updateConfig w.cfg).1 = 0 →
      WireStep w { w with
        cfg := (cmd.updateConfig w.cfg).2
        starting := before ++ after
        pending := w.pending ++ [cmd] }
  | noLock {w : Wire} (before : List Command) {cmd : Command} (after : List Command) :
      w.starting = before ++ cmd :: after →
      WireStep w { w with starting := before ++ after }
  | clearNoLock {w : Wire} (before : List Command) (after : List Command) :
      w.starting = before ++ .clear :: after →
      WireStep w { w with
        starting := before ++ after
        pending := w.pending ++ [.clear] }
  | send {w : Wire} (before : List Command) {cmd : Command} (after : List Command) (link : Link)
      (copied : Bool) {code : Option Int} {reply : Option (UInt64 × Reply)} {kernel : NlState} :
      w.pending = before ++ cmd :: after →
      ((cmd.send link).tmccRcvSkb jhash1word copied w.kernel).outcome =
        .ret (code, reply, kernel) →
      WireStep w { w with
        kernel
        pending := before ++ after }
  | packet {w : Wire} (csum : CsumReplace) (fate : Nat → CopyFate) (skb : Skb) :
      WireStep w { w with
        kernel := { w.kernel with
          toModule := (tmcsHookLocalOut jhash1word csum fate w.kernel.toModule skb).1 } }

def WireRun (w : Wire) : Prop := Relation.ReflTransGen (WireStep jhash1word) Wire.init w

/-- The module does what the command says: the request changes the table, or the answer to the
question is where the process has room for it, unless the copy fails, and the table and the counters
stay. -/
def AsMeant (m : NlState) (link : Link) (copied : Bool) (cmd : Command)
    (outcome : Outcome (Option Int × Option (UInt64 × Reply) × NlState)) : Prop :=
  match cmd.message, cmd.asks with
  | some msg, _ => outcome =
      tmccRcvSkb jhash1word m.table msg >>= fun r => .ret (some r.1, none, { m with table := r.2 })
  | none, some (.table request) => ∃ kService,
      kService.ret = (answer jhash1word m.table request).ret ∧
      kService.HasList (answer jhash1word m.table request) ∧
      outcome = .ret (some (if copied then kService.ret else -1),
        copyToUser copied link.replyPtr (.showService kService), { m with kService })
  | none, some (.dropStats multiIp) => outcome = .ret (some (if copied then 0 else -1),
      copyToUser copied link.replyPtr (.dropStats (kStats jhash1word m.toModule multiIp)), m)
  | none, none => False

end

/-! ## One message -/

variable {jhash1word : UInt32 → UInt32 → UInt32}

theorem outcome_tmccRcvSkb {skb : SkBuff} (h : skb.accepted = true) (copied : Bool)
    (m : NlState) :
    (skb.tmccRcvSkb jhash1word copied m).outcome =
      (skb.handle jhash1word copied m).outcome >>= fun r => .ret (some r.1, r.2.1, r.2.2) := by
  rw [SkBuff.tmccRcvSkb, if_pos h, outcome_bind]
  rfl

/-- What every command keeps of the table, and no packet touches. -/
structure TableSound (jhash1word : UInt32 → UInt32 → UInt32) (s : State) : Prop where
  wf : WellFormed jhash1word s
  counts : CountsBounded jhash1word s
  bits : BitsCover jhash1word s

theorem tableSound_init : TableSound jhash1word multiNodeInit where
  wf := multiNodeInit_wellFormed
  counts := by
    intro g node hnode
    rw [nodeOf_multiNodeInit] at hnode
    cases hnode
  bits := .of_free fun _ _ => rfl

section
variable {s : State} (hs : TableSound jhash1word s)
include hs

theorem TableSound.command {s' : State} {msg : NlMessage} {code : Int}
    (h : tmccRcvSkb jhash1word s msg = .ret (code, s')) : TableSound jhash1word s' where
  wf := tmccRcvSkb_wellFormed hs.wf h
  counts := tmccRcvSkb_countsBounded hs.wf hs.counts h
  bits := hs.bits.tmccRcvSkb hs.wf h

theorem TableSound.counted (multiStats : Nat → MultiStats) :
    TableSound jhash1word { s with multiStats } where
  wf := hs.wf
  counts := hs.counts
  bits := by
    have hbits := hs.bits
    unfold BitsCover liveNodes at hbits ⊢
    exact hbits

end

/-- Where both counts fit a row their sum does not wrap. -/
theorem multiNlNodeAdd_ne_fault {s : State} (hs : CountsBounded jhash1word s)
    {service : TmccNlServiceSt} (hnum : service.ipNum.toNat ≤ multiVmMax) :
    multiNlNodeAdd jhash1word s service ≠ .fault := by
  have hfits : CountFits jhash1word s service := by
    intro node hnode
    have hcnt := hs _ node hnode
    have hmax : multiVmMax = 1024 := rfl
    omega
  unfold multiNlNodeAdd
  split
  · exact addMultiNode_ne_fault hfits
  · split <;> simp

/-- A message that changes the table does what its request does. -/
theorem outcome_of_message {skb : SkBuff} {msg msg' : NlMessage} {m : NlState}
    (haccepted : skb.accepted = true) (hmsg : skb.message = some msg')
    (hsame : tmccRcvSkb jhash1word m.table msg' = tmccRcvSkb jhash1word m.table msg)
    (hm : CountsBounded jhash1word m.table) (hrows : tmccRcvSkb jhash1word m.table msg ≠ .fault)
    (copied : Bool) :
    (skb.tmccRcvSkb jhash1word copied m).outcome = tmccRcvSkb jhash1word m.table msg >>= fun r =>
      .ret (some r.1, none, { m with table := r.2 }) := by
  rw [← hsame] at hrows
  rw [outcome_tmccRcvSkb haccepted, SkBuff.outcome_handle hmsg copied hm hrows, hsame]
  cases tmccRcvSkb jhash1word m.table msg <;> rfl

theorem listMultiNodeAndVmIp_returns {s : State} (hs : CountsBounded jhash1word s) (g : UInt32)
    (kService : TmccNlShowServiceSt) :
    ∃ ret kService', listMultiNodeAndVmIp jhash1word s g kService = .ret (ret, kService') := by
  unfold listMultiNodeAndVmIp
  cases hrow : rawLookupMultiNode jhash1word s g with
  | none => exact ⟨_, _, rfl⟩
  | some row =>
    have hcnt := hs g _ (nodeOf_of_lookup hrow)
    dsimp only
    rw [if_neg (by omega)]
    exact ⟨_, _, rfl⟩

/-- A query has its answer in `k_service`, whatever the one before left there. -/
theorem Request.fill_answer {s : State} (hs : TableSound jhash1word s)
    (request : Request) (kService : TmccNlShowServiceSt) :
    ∃ kService', request.fill jhash1word s { kService with ipNum := 0 } =
        .ret ((answer jhash1word s request).ret, kService') ∧
      kService'.HasList (answer jhash1word s request) := by
  have hfill : ∃ ret kService',
      request.fill jhash1word s { kService with ipNum := 0 } = .ret (ret, kService') := by
    cases request with
    | list g => exact listMultiNodeAndVmIp_returns hs.counts g _
    | «show» =>
      have hbound := Nat.le_trans hs.bits (card_setBits_le multiGrpMax s.bitmap)
      have hlen : (groupList jhash1word s).length ≤ multiVmMax := by
        rw [length_groupList hs.wf]
        exact hbound.trans (by decide)
      obtain ⟨kService', hret, _⟩ := getAllMultiGrp_returns hlen { kService with ipNum := 0 }
      exact ⟨0, kService', hret⟩
  obtain ⟨ret, kService', hfill⟩ := hfill
  obtain ⟨rfl, _, ⟨hcode, rfl⟩ | ⟨_, hip, hcells⟩⟩ := Request.fill_ret hfill
  · refine ⟨_, hfill, ?_⟩
    cases request with
    | list g =>
      rw [answer] at hcode ⊢
      split
      · exact ⟨by simp, rfl⟩
      · rename_i hfound
        rw [hfound] at hcode
        exact absurd rfl hcode
    | «show» => exact absurd rfl hcode
  · refine ⟨_, hfill, ?_, hcells⟩
    intro g hg
    rw [hip, hg, Option.getD_some]

/-- A request that only asks, once its type is read. -/
theorem outcome_multiNlVmListGet {m : NlState} (hm : TableSound jhash1word m.table) {skb : SkBuff}
    {g : UInt32} {replyPtr : UInt64} (hip : skb.data.load32 32 = g)
    (hptr : skb.data.load64 16 = replyPtr) (copied : Bool) :
    ∃ kService : TmccNlShowServiceSt,
      kService.ret = (answer jhash1word m.table (.list g)).ret ∧
      kService.HasList (answer jhash1word m.table (.list g)) ∧
      (skb.multiNlVmListGet jhash1word copied m).outcome =
        .ret (if copied then kService.ret else -1,
          copyToUser copied replyPtr (.showService kService), { m with kService }) := by
  obtain ⟨kService, hfill, hlist⟩ := Request.fill_answer hm (.list g) m.kService
  refine ⟨{ kService with ret := (answer jhash1word m.table (.list g)).ret }, rfl, hlist, ?_⟩
  simp only [SkBuff.multiNlVmListGet, SkBuff.readReplyPtr, SkBuff.readMultiIp, outcome_bind,
    outcome_touch, Outcome.ret_bind, outcome_lift, hip, hptr]
  have hlistGet : listMultiNodeAndVmIp jhash1word m.table g { m.kService with ipNum := 0 } = _ :=
    hfill
  rw [hlistGet]
  rfl

theorem outcome_multiNlGrpShow {m : NlState} (hm : TableSound jhash1word m.table) {skb : SkBuff}
    {replyPtr : UInt64} (hptr : skb.data.load64 16 = replyPtr) (copied : Bool) :
    ∃ kService : TmccNlShowServiceSt,
      kService.ret = (answer jhash1word m.table .show).ret ∧
      kService.HasList (answer jhash1word m.table .show) ∧
      (skb.multiNlGrpShow copied m).outcome =
        .ret (if copied then kService.ret else -1,
          copyToUser copied replyPtr (.showService kService), { m with kService }) := by
  obtain ⟨kService, hfill, hlist⟩ := Request.fill_answer hm .show m.kService
  refine ⟨{ kService with ret := (answer jhash1word m.table .show).ret }, rfl, hlist, ?_⟩
  simp only [SkBuff.multiNlGrpShow, SkBuff.readReplyPtr, outcome_bind, outcome_touch,
    Outcome.ret_bind, outcome_lift, hptr]
  have hshow : getAllMultiGrp m.table { m.kService with ipNum := 0 } = _ := hfill
  rw [hshow]
  rfl

theorem outcome_multiNlNodeGetDropStats {skb : SkBuff} {g : UInt32} {replyPtr : UInt64}
    (hip : skb.data.load32 32 = g) (hptr : skb.data.load64 16 = replyPtr) (copied : Bool)
    (m : NlState) :
    (skb.multiNlNodeGetDropStats jhash1word copied m).outcome =
      .ret (if copied then 0 else -1,
        copyToUser copied replyPtr (.dropStats (kStats jhash1word m.toModule g)), m) := by
  simp only [SkBuff.multiNlNodeGetDropStats, SkBuff.readReplyPtr, SkBuff.readMultiIp, outcome_bind,
    outcome_touch, Outcome.ret_bind, outcome_pure, hip, hptr]

/-- A message that the module takes for one of its type, and that its handler stays within. -/
structure Fits (jhash1word : UInt32 → UInt32 → UInt32) (skb : SkBuff) (type : UInt16) : Prop where
  accepted : skb.accepted = true
  type : skb.nlmsgType = type
  long : ∀ s, SkBuff.LongEnough jhash1word s skb

theorem Fits.within {skb : SkBuff} {type : UInt16} (h : Fits jhash1word skb type) (copied : Bool)
    (m : NlState) :
    Within (SkBuff.FitsIn skb.nlmsgLen.toNat) (skb.tmccRcvSkb jhash1word copied m) := by
  rw [SkBuff.tmccRcvSkb, if_pos h.accepted, within_bind, SkBuff.within_handle]
  exact ⟨h.long m.table, fun _ _ => within_pure _⟩

/-- The handlers of what only asks. -/
theorem handle_of_list {skb : SkBuff} (h : skb.nlmsgType = tmccServiceList) (copied : Bool)
    (m : NlState) : skb.handle jhash1word copied m = skb.multiNlVmListGet jhash1word copied m := by
  simp [SkBuff.handle, h, tmccServiceAdd, tmccServiceDel, multiServerClear,
    tmccServiceCheckUpdate, multiDropStats, tmccServiceList]

theorem handle_of_dropStats {skb : SkBuff} (h : skb.nlmsgType = multiDropStats) (copied : Bool)
    (m : NlState) :
    skb.handle jhash1word copied m = skb.multiNlNodeGetDropStats jhash1word copied m := by
  simp [SkBuff.handle, h, tmccServiceAdd, tmccServiceDel, multiServerClear,
    tmccServiceCheckUpdate, multiDropStats]

theorem handle_of_show {skb : SkBuff} (h : skb.nlmsgType = tmccServiceShow) (copied : Bool)
    (m : NlState) : skb.handle jhash1word copied m = skb.multiNlGrpShow copied m := by
  simp [SkBuff.handle, h, tmccServiceAdd, tmccServiceDel, multiServerClear,
    tmccServiceCheckUpdate, multiDropStats, tmccServiceList, tmccServiceShow]

section
variable (behind : Memory)

/-- A whole request goes with a message of 4136 bytes. -/
theorem fits_whole {message : Memory} {type : UInt16}
    (h : HoldsMessage message (nlmsgLength (sizeofService + sizeofPtr)) type) {serv : TmccNlServiceSt}
    (hnum : serv.ipNum.toNat ≤ multiVmMax) :
    Fits jhash1word (sendto behind (setData message serv)) type := by
  have harrives := (h.setData serv).arrives behind (by decide) (by decide)
  refine ⟨harrives.accepted, harrives.type, fun s => ?_⟩
  apply SkBuff.longEnough_of_whole harrives.len.ge
  rw [(same_sendto behind serv hnum h).ipNum]
  exact hnum

theorem fits_clear (nlPid : UInt32) :
    Fits jhash1word (sendto behind (multiServerClearFromKernel nlPid)) multiServerClear := by
  have harrives := (holds_messageHeader (nlmsgLength 0) multiServerClear nlPid).arrives behind
    (by decide) (by decide)
  refine ⟨harrives.accepted, harrives.type, fun s => ?_⟩
  have htype : (sendto behind (multiServerClearFromKernel nlPid)).nlmsgType = multiServerClear :=
    harrives.type
  simp [SkBuff.LongEnough, htype, multiServerClear, tmccServiceAdd, tmccServiceDel]

theorem fits_show (nlPid : UInt32) (replyPtr : UInt64) :
    Fits jhash1word (sendto behind (Comm.tmccServiceShow nlPid replyPtr)) tmccServiceShow := by
  have hholds := holds_messageHeader (nlmsgLength sizeofPtr) KernelServer.tmccServiceShow nlPid
  have harrives := (hholds.setReplyPtr replyPtr).arrives behind (by decide) (by decide)
  refine ⟨harrives.accepted, harrives.type, fun s => ?_⟩
  have hlen : (sendto behind (Comm.tmccServiceShow nlPid replyPtr)).nlmsgLen.toNat = 24 :=
    harrives.len
  have htype : (sendto behind (Comm.tmccServiceShow nlPid replyPtr)).nlmsgType = tmccServiceShow :=
    harrives.type
  simp [SkBuff.LongEnough, htype, hlen, tmccServiceShow, tmccServiceAdd, tmccServiceDel,
    multiServerClear, tmccServiceCheckUpdate, multiDropStats, tmccServiceList]

end

/-- The module finds the address for its reply. -/
theorem replyPtr_whole (behind : Memory) {message : Memory} {type : UInt16}
    (h : HoldsMessage message (nlmsgLength (sizeofService + sizeofPtr)) type)
    (serv : TmccNlServiceSt) (replyPtr : UInt64) :
    (sendto behind (setData (setReplyPtr message replyPtr) serv)).data.load64 16 = replyPtr := by
  have hlen : ((setData (setReplyPtr message replyPtr) serv).load32 0).toNat = 4136 := by
    rw [((h.setReplyPtr replyPtr).setData serv).len]
    rfl
  rw [sendto_load64 behind (by omega), setData, Memory.load64_copy_of_disjoint (by omega),
    load64_setReplyPtr]

theorem replyPtr_show (behind : Memory) (nlPid : UInt32) (replyPtr : UInt64) :
    (sendto behind (Comm.tmccServiceShow nlPid replyPtr)).data.load64 16 = replyPtr := by
  have hholds := holds_messageHeader (nlmsgLength sizeofPtr) KernelServer.tmccServiceShow nlPid
  have hlen : ((Comm.tmccServiceShow nlPid replyPtr).load32 0).toNat = 24 := by
    rw [Comm.tmccServiceShow, (hholds.setReplyPtr replyPtr).len]
    rfl
  rw [sendto_load64 behind (by omega), Comm.tmccServiceShow, load64_setReplyPtr]

theorem TmccNlServiceSt.Parsed.ipNum_le {service : TmccNlServiceSt} (h : service.Parsed) :
    service.ipNum.toNat ≤ multiVmMax := by
  rw [h.members.2]
  exact h.members.1.size

theorem holds_whole (link : Link) (type : UInt16) :
    HoldsMessage (messageHeader (nlmsgLength (sizeofService + sizeofPtr)) type link.nlPid)
      (nlmsgLength (sizeofService + sizeofPtr)) type :=
  holds_messageHeader _ type link.nlPid

section
variable {m : NlState} (hm : TableSound jhash1word m.table) {service : TmccNlServiceSt}
variable {link : Link} (copied : Bool)

theorem asMeant_dropStats (hnum : service.ipNum.toNat ≤ multiVmMax)
    (hfits : Fits jhash1word ((Command.print .dropStats service).send link) multiDropStats) :
    AsMeant jhash1word m link copied (.print .dropStats service)
      (((Command.print .dropStats service).send link).tmccRcvSkb jhash1word copied m).outcome := by
  have hsame : service.Same ((Command.print .dropStats service).send link).service :=
    same_sendto link.behind service hnum
      ((holds_whole link multiDropStats).setReplyPtr link.replyPtr)
  have hptr := replyPtr_whole link.behind (holds_whole link multiDropStats) service link.replyPtr
  have houtcome := @outcome_multiNlNodeGetDropStats jhash1word _ _ _ hsame.multiIp hptr copied m
  rw [outcome_tmccRcvSkb hfits.accepted, handle_of_dropStats hfits.type]
  exact congrArg (· >>= fun r => Outcome.ret (some r.1, r.2.1, r.2.2)) houtcome

include hm

theorem asMeant_add (hnum : service.ipNum.toNat ≤ multiVmMax)
    (hfits : Fits jhash1word ((Command.add service).send link) tmccServiceAdd) :
    AsMeant jhash1word m link copied (.add service)
      (((Command.add service).send link).tmccRcvSkb jhash1word copied m).outcome := by
  have hsame := same_sendto link.behind service hnum (holds_whole link tmccServiceAdd)
  apply outcome_of_message hfits.accepted
  · rw [SkBuff.message, if_pos hfits.type]
  · exact multiNlNodeAdd_congr hsame m.table
  · exact hm.counts
  · exact multiNlNodeAdd_ne_fault hm.counts hnum

theorem asMeant_del (hnum : service.ipNum.toNat ≤ multiVmMax)
    (hfits : Fits jhash1word ((Command.del service).send link) tmccServiceDel) :
    AsMeant jhash1word m link copied (.del service)
      (((Command.del service).send link).tmccRcvSkb jhash1word copied m).outcome := by
  have hsame := same_sendto link.behind service hnum (holds_whole link tmccServiceDel)
  apply outcome_of_message hfits.accepted
  · rw [SkBuff.message, if_neg (by rw [hfits.type]; decide), if_pos hfits.type]
  · exact congrArg Outcome.ret (multiNlNodeDelete_congr hsame m.table)
  · exact hm.counts
  · simp [tmccRcvSkb]

theorem asMeant_clear (hfits : Fits jhash1word (Command.clear.send link) multiServerClear) :
    AsMeant jhash1word m link copied .clear
      ((Command.clear.send link).tmccRcvSkb jhash1word copied m).outcome := by
  apply outcome_of_message hfits.accepted
  · rw [SkBuff.message, if_neg (by rw [hfits.type]; decide),
      if_neg (by rw [hfits.type]; decide), if_pos hfits.type]
  · rfl
  · exact hm.counts
  · simp [tmccRcvSkb]

theorem asMeant_list (hnum : service.ipNum.toNat ≤ multiVmMax)
    (hfits : Fits jhash1word ((Command.print .list service).send link) tmccServiceList) :
    AsMeant jhash1word m link copied (.print .list service)
      (((Command.print .list service).send link).tmccRcvSkb jhash1word copied m).outcome := by
  have hsame : service.Same ((Command.print .list service).send link).service :=
    same_sendto link.behind service hnum
      ((holds_whole link tmccServiceList).setReplyPtr link.replyPtr)
  have hptr := replyPtr_whole link.behind (holds_whole link tmccServiceList) service link.replyPtr
  obtain ⟨kService, hret, hlist, houtcome⟩ :=
    outcome_multiNlVmListGet hm hsame.multiIp hptr copied
  refine ⟨kService, hret, hlist, ?_⟩
  rw [outcome_tmccRcvSkb hfits.accepted, handle_of_list hfits.type, houtcome]
  rfl

/-- A command that sends the bytes of SHOW. -/
theorem asMeant_show {cmd : Command} (hmessage : cmd.message = none)
    (hasks : cmd.asks = some (.table .show))
    (hrequest : cmd.request link = Comm.tmccServiceShow link.nlPid link.replyPtr)
    (hfits : Fits jhash1word (cmd.send link) tmccServiceShow) :
    AsMeant jhash1word m link copied cmd
      ((cmd.send link).tmccRcvSkb jhash1word copied m).outcome := by
  have hptr : (cmd.send link).data.load64 16 = link.replyPtr := by
    rw [Command.send, hrequest]
    exact replyPtr_show link.behind link.nlPid link.replyPtr
  obtain ⟨kService, hret, hlist, houtcome⟩ := outcome_multiNlGrpShow hm hptr copied
  rw [AsMeant, hmessage, hasks, outcome_tmccRcvSkb hfits.accepted, handle_of_show hfits.type,
    houtcome]
  exact ⟨kService, hret, hlist, rfl⟩

end

/-- The command, in bytes: the handler keeps within the message and does what was asked. -/
theorem Command.Parsed.send {m : NlState} (hm : TableSound jhash1word m.table)
    {cmd : Command} (hparsed : cmd.Parsed) (link : Link) (copied : Bool) :
    Within (SkBuff.FitsIn (cmd.send link).nlmsgLen.toNat)
        ((cmd.send link).tmccRcvSkb jhash1word copied m) ∧
      AsMeant jhash1word m link copied cmd
        ((cmd.send link).tmccRcvSkb jhash1word copied m).outcome := by
  cases cmd with
  | add service =>
    have hnum := TmccNlServiceSt.Parsed.ipNum_le hparsed
    have hfits : Fits jhash1word ((Command.add service).send link) tmccServiceAdd :=
      fits_whole link.behind (holds_whole link tmccServiceAdd) hnum
    exact ⟨hfits.within copied m, asMeant_add hm copied hnum hfits⟩
  | del service =>
    have hnum := TmccNlServiceSt.Parsed.ipNum_le hparsed
    have hfits : Fits jhash1word ((Command.del service).send link) tmccServiceDel :=
      fits_whole link.behind (holds_whole link tmccServiceDel) hnum
    exact ⟨hfits.within copied m, asMeant_del hm copied hnum hfits⟩
  | clear =>
    have hfits : Fits jhash1word (Command.clear.send link) multiServerClear :=
      fits_clear link.behind link.nlPid
    exact ⟨hfits.within copied m, asMeant_clear hm copied hfits⟩
  | print cmd service =>
    have hnum := TmccNlServiceSt.Parsed.ipNum_le hparsed
    cases cmd with
    | list =>
      have hfits : Fits jhash1word ((Command.print .list service).send link) tmccServiceList :=
        fits_whole link.behind ((holds_whole link tmccServiceList).setReplyPtr link.replyPtr) hnum
      exact ⟨hfits.within copied m, asMeant_list hm copied hnum hfits⟩
    | dropStats =>
      have hfits : Fits jhash1word ((Command.print .dropStats service).send link) multiDropStats :=
        fits_whole link.behind ((holds_whole link multiDropStats).setReplyPtr link.replyPtr) hnum
      exact ⟨hfits.within copied m, asMeant_dropStats copied hnum hfits⟩
    | add | del | clear | «show» =>
      have hfits := @fits_show jhash1word link.behind link.nlPid link.replyPtr
      exact ⟨Fits.within hfits copied m, asMeant_show hm copied rfl rfl rfl hfits⟩

/-! ## Runs -/

/-- The table is as commands leave it, and no process sends more members than a row takes. -/
structure Wire.Ok (jhash1word : UInt32 → UInt32 → UInt32) (w : Wire) : Prop where
  table : TableSound jhash1word w.kernel.table
  starting : ∀ cmd ∈ w.starting, cmd.Parsed
  pending : ∀ cmd ∈ w.pending, cmd.Parsed

theorem Wire.init_ok : Wire.init.Ok jhash1word where
  table := tableSound_init
  starting := by simp [Wire.init]
  pending := by simp [Wire.init]

theorem mem_of_rest {l before after : List Command} {cmd c : Command}
    (h : l = before ++ cmd :: after) (hc : c ∈ before ++ after) : c ∈ l := by
  rw [h]
  rcases List.mem_append.mp hc with hc | hc <;> simp [hc]

/-- What a handled message leaves is what a request leaves, or what was there. -/
theorem AsMeant.table {m m' : NlState} {link : Link} {copied : Bool} {cmd : Command}
    {code : Option Int} {reply : Option (UInt64 × Reply)} (hm : TableSound jhash1word m.table)
    (h : AsMeant jhash1word m link copied cmd (.ret (code, reply, m'))) :
    TableSound jhash1word m'.table := by
  unfold AsMeant at h
  split at h
  · rename_i msg _ _
    obtain ⟨⟨ret, s⟩, hrun, hret⟩ := Outcome.bind_eq_ret_iff.mp h.symm
    obtain ⟨_, _, rfl⟩ : _ ∧ _ ∧ _ := by simpa only [Outcome.ret.injEq, Prod.mk.injEq] using hret
    exact hm.command hrun
  · obtain ⟨kService, _, _, hret⟩ := h
    obtain ⟨_, _, rfl⟩ : _ ∧ _ ∧ _ := by simpa only [Outcome.ret.injEq, Prod.mk.injEq] using hret
    exact hm
  · obtain ⟨_, _, rfl⟩ : _ ∧ _ ∧ _ := by simpa only [Outcome.ret.injEq, Prod.mk.injEq] using h
    exact hm
  · exact h.elim

theorem Wire.Ok.step {w w' : Wire} (ok : w.Ok jhash1word) (h : WireStep jhash1word w w') :
    w'.Ok jhash1word := by
  cases h with
  | start hparse =>
    refine ⟨ok.table, ?_, ok.pending⟩
    intro c hc
    rcases List.mem_append.mp hc with hc | hc
    · exact ok.starting c hc
    · rw [List.mem_singleton.mp hc]
      exact parseArgs_parsed hparse
  | reject => exact ⟨ok.table, ok.starting, ok.pending⟩
  | fail before after hstarting _ | noLock before after hstarting =>
    refine ⟨ok.table, ?_, ok.pending⟩
    exact fun c hc => ok.starting c (mem_of_rest hstarting hc)
  | @update before cmd after hstarting _ =>
    refine ⟨ok.table, fun c hc => ok.starting c (mem_of_rest hstarting hc), ?_⟩
    intro c hc
    rcases List.mem_append.mp hc with hc | hc
    · exact ok.pending c hc
    · rw [List.mem_singleton.mp hc]
      exact ok.starting cmd (by simp [hstarting])
  | clearNoLock before after hstarting =>
    refine ⟨ok.table, fun c hc => ok.starting c (mem_of_rest hstarting hc), ?_⟩
    intro c hc
    rcases List.mem_append.mp hc with hc | hc
    · exact ok.pending c hc
    · rw [List.mem_singleton.mp hc]
      trivial
  | @send before cmd after link copied _ _ _ hpending hsend =>
    have hparsed : cmd.Parsed := ok.pending cmd (by simp [hpending])
    refine ⟨?_, ok.starting, ?_⟩
    · have hmeant := (hparsed.send ok.table link copied).2
      rw [hsend] at hmeant
      exact hmeant.table ok.table
    · exact fun c hc => ok.pending c (mem_of_rest hpending hc)
  | packet csum fate skb =>
    refine ⟨?_, ok.starting, ok.pending⟩
    obtain ⟨multiStats, htable⟩ := tmcsHookLocalOut_table fate w.kernel.toModule skb
    have hcounted := ok.table.counted multiStats
    rw [← htable] at hcounted
    exact hcounted

theorem WireRun.ok {w : Wire} (h : WireRun jhash1word w) : w.Ok jhash1word := by
  induction h with
  | refl => exact Wire.init_ok
  | tail _ hstep ih => exact ih.step hstep

/-- Whatever processes there were and in whatever order they took their steps: the message that is
sent next is taken as it was meant, and no byte behind its end is touched. -/
theorem message_as_meant {w : Wire} (h : WireRun jhash1word w) {cmd : Command}
    (hcmd : cmd ∈ w.pending) (link : Link) (copied : Bool) :
    Within (SkBuff.FitsIn (cmd.send link).nlmsgLen.toNat)
        ((cmd.send link).tmccRcvSkb jhash1word copied w.kernel) ∧
      AsMeant jhash1word w.kernel link copied cmd
        ((cmd.send link).tmccRcvSkb jhash1word copied w.kernel).outcome :=
  (h.ok.pending cmd hcmd).send h.ok.table link copied

/-- A JOIN of one member, from the arguments to the table. -/
theorem message_as_meant_join : ∃ w : Wire, WireRun (fun _ _ => 0) w ∧
    w.pending = [.add joinService] ∧ ∀ (link : Link) (copied : Bool), ∃ m : NlState,
      Within (SkBuff.FitsIn ((Command.add joinService).send link).nlmsgLen.toNat)
        (((Command.add joinService).send link).tmccRcvSkb (fun _ _ => 0) copied w.kernel) ∧
      (((Command.add joinService).send link).tmccRcvSkb (fun _ _ => 0) copied w.kernel).outcome =
        .ret (some 0, none, m) ∧
      memberMap (fun _ _ => 0) m.table 0xE1000001 = some {0x0A000001} := by
  obtain ⟨argv, hparse⟩ := parseArgs_join
  obtain ⟨s, hs, hmap⟩ := memberMap_join fun _ _ => 0
  have hrun : WireRun (fun _ _ => 0)
      ⟨joinedConfig, Wire.init.kernel, [], [.add joinService]⟩ := by
    have hstart : WireRun (fun _ _ => 0)
        ⟨some [], Wire.init.kernel, [.add joinService], []⟩ :=
      Relation.ReflTransGen.refl.tail (.start hparse)
    exact hstart.tail (@WireStep.update _ ⟨_, _, _, _⟩ [] (.add joinService) [] rfl
      (congrArg Prod.fst join_updateConfig))
  refine ⟨_, hrun, rfl, fun link copied => ?_⟩
  obtain ⟨hwithin, hmeant⟩ := message_as_meant hrun (List.mem_singleton_self _) link copied
  have houtcome : (((Command.add joinService).send link).tmccRcvSkb (fun _ _ => 0) copied
      Wire.init.kernel).outcome = tmccRcvSkb (fun _ _ => 0) multiNodeInit (.serviceAdd joinService)
        >>= fun r => .ret (some r.1, none, { Wire.init.kernel with table := r.2 }) := hmeant
  rw [hs] at houtcome
  exact ⟨_, hwithin, houtcome, hmap⟩

end MulticastProxy.KernelServer
