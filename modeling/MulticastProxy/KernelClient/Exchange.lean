import MulticastProxy.KernelClient.Deletion
import MulticastProxy.KernelClient.Listing
import MulticastProxy.KernelClient.TwoParties
import MulticastProxy.KernelServer.Exchange

/-!
# Kernel client: commands as bytes (`tools/multi_client_control/comm_kernel.c`, `kmod/multic_nl.c`)

The tool lays a request out in memory and sends it. The module checks no more of a message than its
header, and answers into the memory of the tool, which prints what lies there.
-/

namespace MulticastProxy.KernelClient

set_option autoImplicit false

open Replay
open KernelServer (SkBuff HoldsMessage Link nlmsgLength sizeofPtr)
open KernelServer.Comm (messageHeader setReplyPtr sendto)

abbrev tmccServiceAdd : UInt16 := 0
abbrev tmccServiceDel : UInt16 := 1
abbrev multicPacketsStats : UInt16 := 2
abbrev multiClientClear : UInt16 := 3
abbrev tmccServiceList : UInt16 := 5

/-- `sizeof` of `tmcc_nl_service_st`, of `tmcc_nl_show_service_st` and of
`multic_packets_stats_st`. -/
abbrev sizeofService : Nat := 16
abbrev sizeofShowService : Nat := 10248
abbrev sizeofStats : Nat := 24

structure MulticPacketsStatsSt where
  ret : UInt32
  rxBytes : UInt64
  rxPackets : UInt64
  deriving DecidableEq, Repr

/-! ## How the structures lie in memory -/

def TmccNlServiceSt.layOut (service : TmccNlServiceSt) : Memory :=
  let st : Memory := fun _ => 0
  let st := st.store16 4 service.port
  let st := st.store32 8 service.serverIp
  st.store32 12 service.multiIp

def TmccNlShowServiceSt.layOut (kService : TmccNlShowServiceSt) : Memory :=
  let st : Memory := fun _ => 0
  let st := st.store32 0 kService.ret.toInt32.toUInt32
  let st := st.store32 4 (UInt32.ofNat kService.nodeCnt)
  let st := st.storeArray16 8 kService.port multiGrpMax
  let st := st.storeArray 2056 kService.serverIp multiGrpMax
  st.storeArray 6152 kService.multiIp multiGrpMax

def MulticPacketsStatsSt.layOut (kStats : MulticPacketsStatsSt) : Memory :=
  let st : Memory := fun _ => 0
  let st := st.store32 0 kStats.ret
  let st := st.store64 8 kStats.rxBytes
  st.store64 16 kStats.rxPackets

/-! ## The module -/

/-- The module, with the reply that LIST builds. -/
structure NlModule extends Module where
  kService : TmccNlShowServiceSt

def NlModule.init : NlModule where
  table := multiNodeInit
  rxPackets := 0
  rxBytes := 0
  kService := ⟨0, 0, fun _ => 0, fun _ => 0, fun _ => 0⟩

/-- An address of the process and the bytes that are copied there. -/
abbrev Reply := UInt64 × List UInt8

def getAllMultiPacketsStats (m : Module) : MulticPacketsStatsSt := ⟨0, m.rxBytes, m.rxPackets⟩

section
variable (jhash2words : UInt32 → UInt32 → UInt32 → UInt32)

/-- `k_stats`: the counters of all packets for the server address 0, else those of one entry. -/
def kStats (m : Module) (service : TmccNlServiceSt) : MulticPacketsStatsSt :=
  if service.serverIp = 0 then getAllMultiPacketsStats m
  else
    match getMultiPacketsStats jhash2words m.table service.serverIp service.port with
    | none => ⟨1, 0, 0⟩
    | some (rxPackets, rxBytes) => ⟨0, rxBytes, rxPackets⟩

namespace Wire

/-- The request in a message, whatever the length of the message. -/
def service (skb : SkBuff) : TmccNlServiceSt where
  port := skb.data.load16 28
  serverIp := skb.data.load32 32
  multiIp := skb.data.load32 36

def replyPtr (skb : SkBuff) : UInt64 := skb.data.load64 16

/-- The request of a message that is about the table. -/
def message (skb : SkBuff) : Option NlMessage :=
  if skb.accepted = false then none
  else if skb.nlmsgType = tmccServiceAdd then some (.serviceAdd (service skb))
  else if skb.nlmsgType = tmccServiceDel then some (.serviceDel (service skb))
  else if skb.nlmsgType = multiClientClear then some .clientClear
  else none

/-- `copied` says whether `copy_to_user` succeeds, here and below. -/
def multiNlVmListGet (skb : SkBuff) (copied : Bool) (m : NlModule) :
    Outcome (Int × NlModule × Option Reply) := do
  let (ret, kService) ← listAllMultiGrp m.table { m.kService with nodeCnt := 0 }
  let kService := { kService with ret }
  .ret (if copied then ret else -1, { m with kService },
    some (replyPtr skb, kService.layOut.bytes 0 sizeofShowService))

def multiNlNodePacketsStats (skb : SkBuff) (copied : Bool) (m : NlModule) :
    Int × NlModule × Option Reply :=
  (if copied then 0 else -1, m, some (replyPtr skb,
    (kStats jhash2words m.toModule (service skb)).layOut.bytes 0 sizeofStats))

/-- What a handler of the table leaves behind. -/
def onTable (m : NlModule) (run : Outcome (Int × State)) :
    Outcome (Int × NlModule × Option Reply) := do
  let (ret, table) ← run
  .ret (ret, { m with table }, none)

/-- The handler of a message of this type. -/
def handle (type : UInt16) (skb : SkBuff) (copied : Bool) (m : NlModule) :
    Outcome (Int × NlModule × Option Reply) :=
  if type = tmccServiceAdd then
    onTable m (KernelClient.tmccRcvSkb jhash2words m.table (.serviceAdd (service skb)))
  else if type = tmccServiceDel then
    onTable m (KernelClient.tmccRcvSkb jhash2words m.table (.serviceDel (service skb)))
  else if type = multiClientClear then
    onTable m (KernelClient.tmccRcvSkb jhash2words m.table .clientClear)
  else if type = multicPacketsStats then
    .ret (multiNlNodePacketsStats jhash2words skb copied m)
  else if type = tmccServiceList then multiNlVmListGet skb copied m
  else .ret (0, m, none)

/-- The code that is acknowledged; a message that fails a check has none. -/
def tmccRcvSkb (skb : SkBuff) (copied : Bool) (m : NlModule) :
    Outcome (Option Int × NlModule × Option Reply) :=
  if skb.accepted = true then do
    let (ret, m, reply) ← handle jhash2words skb.nlmsgType skb copied m
    .ret (some ret, m, reply)
  else .ret (none, m, none)

end Wire

end

/-! ## The tool -/

namespace Comm

/-- `memcpy` of the request behind `reply_ptr`. -/
def setData (message : Memory) (serv : TmccNlServiceSt) : Memory :=
  message.copy 24 (serv.layOut.bytes 0 sizeofService)

def tmccServiceAddToKernel (nlPid : UInt32) (serv : TmccNlServiceSt) : Memory :=
  setData (messageHeader (nlmsgLength (sizeofService + sizeofPtr)) tmccServiceAdd nlPid) serv

def tmccServiceDeleteFromKernel (nlPid : UInt32) (serv : TmccNlServiceSt) : Memory :=
  setData (messageHeader (nlmsgLength (sizeofService + sizeofPtr)) tmccServiceDel nlPid) serv

def multiClientClear (nlPid : UInt32) : Memory :=
  messageHeader (nlmsgLength 0) KernelClient.multiClientClear nlPid

def multiClientPacketsStats (nlPid : UInt32) (stats : UInt64) (serv : TmccNlServiceSt) : Memory :=
  setData (setReplyPtr (messageHeader (nlmsgLength (sizeofService + sizeofPtr))
    multicPacketsStats nlPid) stats) serv

def tmccServiceList (nlPid : UInt32) (service : UInt64) (serv : TmccNlServiceSt) : Memory :=
  setData (setReplyPtr (messageHeader (nlmsgLength (sizeofService + sizeofPtr))
    KernelClient.tmccServiceList nlPid) service) serv

/-- What lies in the memory of the process when its call of `recvfrom` is back. -/
def received (proc : Memory) : Option Reply → Memory
  | none => proc
  | some (ptr, bytes) => proc.copy ptr.toNat bytes

/-- What is printed: the code of an error, or one paragraph for each row. -/
def printVmIpInfo (proc : Memory) (service : Nat) :
    Except UInt32 (List (UInt32 × UInt16 × UInt32)) :=
  if proc.load32 service ≠ 0 then .error (proc.load32 service)
  else
    .ok ((List.range (proc.load32 (service + 4)).toNat).map fun i =>
      (proc.load32 (service + (2056 + 4 * i)), proc.load16 (service + (8 + 2 * i)),
        proc.load32 (service + (6152 + 4 * i))))

/-- Packets and bytes; `none` where it says that there is no such server. -/
def printPacketsStats (proc : Memory) (stats : Nat) : Option (UInt64 × UInt64) :=
  if proc.load32 stats ≠ 0 then none
  else some (proc.load64 (stats + 16), proc.load64 (stats + 8))

end Comm

namespace Command

def request (link : Link) : Command → Memory
  | .add service => Comm.tmccServiceAddToKernel link.nlPid service
  | .del service => Comm.tmccServiceDeleteFromKernel link.nlPid service
  | .clear => Comm.multiClientClear link.nlPid
  | .print .stats service => Comm.multiClientPacketsStats link.nlPid link.replyPtr service
  -- the parser makes no other query than LIST
  | .print _ service => Comm.tmccServiceList link.nlPid link.replyPtr service

def send (link : Link) (cmd : Command) : SkBuff := sendto link.behind (cmd.request link)

end Command

section
variable (jhash2words : UInt32 → UInt32 → UInt32 → UInt32) (csum : CsumReplace)

/-- The requests that the module has acknowledged with 0, and the packets that it has rewritten. -/
structure Past where
  done : List NlMessage
  rewritten : List Skb

/-- Messages of any processes, whatever their bytes are, and received packets, one after the
other. -/
inductive NlRun : Past → NlModule → Prop where
  | init : NlRun ⟨[], []⟩ .init
  | message {past : Past} {m m' : NlModule} (skb : SkBuff) (copied : Bool) {code : Option Int}
      {reply : Option Reply} : NlRun past m →
      Wire.tmccRcvSkb jhash2words skb copied m = .ret (code, m', reply) →
      NlRun { past with
        done := past.done ++ if code = some 0 then (Wire.message skb).toList else [] } m'
  | packet {past : Past} {m : NlModule} (skb : Skb) : NlRun past m →
      NlRun { past with
        rewritten := past.rewritten ++
          if (hookEntry jhash2words m.table skb).isSome then [skb] else [] }
        { m with toModule := (tmccHookLocalIn jhash2words csum m.toModule skb).1 }

namespace Past
variable (past : Past)

/-- The entries that the acknowledged requests leave, one after the other. -/
def entries : Key → Option UInt32 := replay NlMessage.apply past.done fun _ => none

def rxPackets : UInt64 := UInt64.ofNat past.rewritten.length

def rxBytes : UInt64 := (past.rewritten.map fun skb => skb.totLen.toUInt64).sum

/-- What a query prints. -/
def Prints (s : State) (proc : Memory) (ptr : Nat) : Command → Prop
  | .print .stats service =>
    if service.serverIp = 0 then
      Comm.printPacketsStats proc ptr = some (past.rxPackets, past.rxBytes)
    else
      Comm.printPacketsStats proc ptr =
          getMultiPacketsStats jhash2words s service.serverIp service.port ∧
        (Comm.printPacketsStats proc ptr).isSome =
          (past.entries (service.serverIp, service.port)).isSome
  | _ => ∃ rows, Comm.printVmIpInfo proc ptr = .ok rows ∧ rows.Nodup ∧
      ∀ ip port multiIp, (ip, port, multiIp) ∈ rows ↔ past.entries (ip, port) = some multiIp

end Past

/-- A request does to the table what it is about. A query leaves table and counters as they are, and
what is printed of a reply that gets through is what has been acknowledged and rewritten. -/
def AsMeant (past : Past) (link : Link) (m : NlModule) (cmd : Command) : Prop :=
  match cmd.message with
  | some msg => ∀ copied, Wire.tmccRcvSkb jhash2words (cmd.send link) copied m =
      tmccRcvSkb jhash2words m.table msg >>= fun r =>
        .ret (some r.1, { m with table := r.2 }, none)
  | none => ∃ m' reply, m'.toModule = m.toModule ∧
      (∀ copied, Wire.tmccRcvSkb jhash2words (cmd.send link) copied m =
        .ret (some (if copied then 0 else -1), m', reply)) ∧
      ∀ proc, past.Prints jhash2words m.table (Comm.received proc reply)
        link.replyPtr.toNat cmd

/-- The module is what its past has made of it. -/
structure Past.Kept (past : Past) (m : NlModule) : Prop where
  wf : WellFormed jhash2words m.table
  entries : entry jhash2words m.table = past.entries
  rxPackets : m.rxPackets = past.rxPackets
  rxBytes : m.rxBytes = past.rxBytes

end

/-! ## Fields of the structures -/

section
variable (service : TmccNlServiceSt)

theorem layOut_port : service.layOut.load16 4 = service.port := by
  unfold TmccNlServiceSt.layOut
  rw [Memory.load16_store32_of_disjoint (by omega), Memory.load16_store32_of_disjoint (by omega),
    Memory.load16_store16]

theorem layOut_serverIp : service.layOut.load32 8 = service.serverIp := by
  unfold TmccNlServiceSt.layOut
  rw [Memory.load32_store32_of_disjoint (by omega), Memory.load32_store32]

theorem layOut_multiIp : service.layOut.load32 12 = service.multiIp := by
  unfold TmccNlServiceSt.layOut
  rw [Memory.load32_store32]

end

section
variable (kService : TmccNlShowServiceSt)

theorem layOut_ret : kService.layOut.load32 0 = kService.ret.toInt32.toUInt32 := by
  unfold TmccNlShowServiceSt.layOut
  rw [Memory.load32_storeArray_of_disjoint (by omega),
    Memory.load32_storeArray_of_disjoint (by omega),
    Memory.load32_storeArray16_of_disjoint (by omega),
    Memory.load32_store32_of_disjoint (by omega), Memory.load32_store32]

theorem layOut_nodeCnt : kService.layOut.load32 4 = UInt32.ofNat kService.nodeCnt := by
  unfold TmccNlShowServiceSt.layOut
  rw [Memory.load32_storeArray_of_disjoint (by omega),
    Memory.load32_storeArray_of_disjoint (by omega),
    Memory.load32_storeArray16_of_disjoint (by omega), Memory.load32_store32]

/-- The arrays follow each other. -/
theorem layOut_row {k : Nat} (hk : k < multiGrpMax) :
    kService.layOut.load16 (8 + 2 * k) = kService.port k ∧
      kService.layOut.load32 (2056 + 4 * k) = kService.serverIp k ∧
      kService.layOut.load32 (6152 + 4 * k) = kService.multiIp k := by
  have hmax : multiGrpMax = 1024 := rfl
  unfold TmccNlShowServiceSt.layOut
  refine ⟨?_, ?_, ?_⟩
  · rw [Memory.load16_storeArray_of_disjoint (by omega),
      Memory.load16_storeArray_of_disjoint (by omega), Memory.load16_storeArray16 hk]
  · rw [Memory.load32_storeArray_of_disjoint (by omega), Memory.load32_storeArray hk]
  · exact Memory.load32_storeArray hk

end

/-! ## What is printed of a reply -/

/-- Packets and bytes, where there is an entry. -/
def MulticPacketsStatsSt.shown (kStats : MulticPacketsStatsSt) : Option (UInt64 × UInt64) :=
  if kStats.ret ≠ 0 then none else some (kStats.rxPackets, kStats.rxBytes)

section
variable (proc : Memory) (ptr : UInt64)

/-- The rows come out of the memory of the process as the module has put them in. -/
theorem printVmIpInfo_received {kService : TmccNlShowServiceSt} (hret : kService.ret = 0)
    (hcnt : kService.nodeCnt ≤ multiGrpMax) :
    Comm.printVmIpInfo (Comm.received proc
        (some (ptr, kService.layOut.bytes 0 sizeofShowService))) ptr.toNat =
      .ok ((List.range kService.nodeCnt).map fun k =>
        (kService.serverIp k, kService.port k, kService.multiIp k)) := by
  have hmax : multiGrpMax = 1024 := rfl
  have hsize : sizeofShowService = 10248 := rfl
  have hword : ∀ {i : Nat}, i + 4 ≤ sizeofShowService →
      (proc.copy ptr.toNat (kService.layOut.bytes 0 sizeofShowService)).load32 (ptr.toNat + i) =
        kService.layOut.load32 i := by
    intro i hi
    rw [Memory.load32_copy_bytes hi, Nat.zero_add]
  have hhalf : ∀ {i : Nat}, i + 2 ≤ sizeofShowService →
      (proc.copy ptr.toNat (kService.layOut.bytes 0 sizeofShowService)).load16 (ptr.toNat + i) =
        kService.layOut.load16 i := by
    intro i hi
    rw [Memory.load16_copy_bytes hi, Nat.zero_add]
  have hzero := hword (i := 0) (by decide)
  rw [layOut_ret, hret, Nat.add_zero] at hzero
  have hnum : (UInt32.ofNat kService.nodeCnt).toNat = kService.nodeCnt :=
    UInt32.toNat_ofNat_of_lt' (Nat.lt_of_le_of_lt hcnt (by decide))
  rw [Comm.received, Comm.printVmIpInfo, hzero, if_neg (by decide), hword (by decide),
    layOut_nodeCnt, hnum]
  congr 1
  apply List.map_congr_left
  intro k hk
  have hrow : k < multiGrpMax := Nat.lt_of_lt_of_le (List.mem_range.mp hk) hcnt
  obtain ⟨hport, hserver, hmulti⟩ := layOut_row kService hrow
  rw [hword (by omega), hhalf (by omega), hword (by omega), hport, hserver, hmulti]

theorem printPacketsStats_received (kStats : MulticPacketsStatsSt) :
    Comm.printPacketsStats (Comm.received proc
        (some (ptr, kStats.layOut.bytes 0 sizeofStats))) ptr.toNat = kStats.shown := by
  have hret : (proc.copy ptr.toNat (kStats.layOut.bytes 0 sizeofStats)).load32 ptr.toNat =
      kStats.ret := by
    have hcopy := Memory.load32_copy_bytes (m := proc) (s := kStats.layOut) (a := ptr.toNat)
      (b := 0) (n := sizeofStats) (i := 0) (by decide)
    rw [Nat.add_zero] at hcopy
    rw [hcopy]
    unfold MulticPacketsStatsSt.layOut
    rw [Memory.load32_store64_of_disjoint (by omega), Memory.load32_store64_of_disjoint (by omega),
      Memory.load32_store32]
  have hpackets : kStats.layOut.load64 16 = kStats.rxPackets := by
    unfold MulticPacketsStatsSt.layOut
    rw [Memory.load64_store64]
  have hbytes : kStats.layOut.load64 8 = kStats.rxBytes := by
    unfold MulticPacketsStatsSt.layOut
    rw [Memory.load64_store64_of_disjoint (by omega), Memory.load64_store64]
  rw [Comm.received, Comm.printPacketsStats, hret, Memory.load64_copy_bytes (by decide),
    Memory.load64_copy_bytes (by decide), Nat.zero_add, Nat.zero_add, hpackets, hbytes]
  rfl

end

/-! ## Requests on their way -/

section
variable {message : Memory} {type : UInt16}

theorem holds_setData {msgLen : Nat} (h : HoldsMessage message msgLen type)
    (serv : TmccNlServiceSt) : HoldsMessage (Comm.setData message serv) msgLen type where
  len := by rw [Comm.setData, Memory.load32_copy_of_disjoint (by omega), h.len]
  type := by rw [Comm.setData, Memory.load16_copy_of_disjoint (by omega), h.type]
  flags := by rw [Comm.setData, Memory.load16_copy_of_disjoint (by omega), h.flags]

/-- The module finds the request, and the address for its reply. -/
theorem service_sendto (behind : Memory)
    (h : HoldsMessage message (nlmsgLength (sizeofService + sizeofPtr)) type)
    (serv : TmccNlServiceSt) :
    Wire.service (sendto behind (Comm.setData message serv)) = serv ∧
      Wire.replyPtr (sendto behind (Comm.setData message serv)) = message.load64 16 := by
  have hlen : ((Comm.setData message serv).load32 0).toNat = 40 := by
    rw [(holds_setData h serv).len]
    rfl
  have hword : ∀ {i : Nat}, i + 4 ≤ sizeofService →
      (sendto behind (Comm.setData message serv)).data.load32 (24 + i) =
        serv.layOut.load32 i := by
    intro i hi
    have hsize : sizeofService = 16 := rfl
    rw [KernelServer.sendto_load32 behind (by omega), Comm.setData, Memory.load32_copy_bytes hi,
      Nat.zero_add]
  have hport : (sendto behind (Comm.setData message serv)).data.load16 28 = serv.port := by
    rw [KernelServer.sendto_load16 behind (by omega), Comm.setData]
    exact (Memory.load16_copy_bytes (m := message) (s := serv.layOut) (a := 24) (b := 0)
      (n := sizeofService) (i := 4) (by decide)).trans (layOut_port serv)
  have hserver := hword (i := 8) (by decide)
  have hmulti := hword (i := 12) (by decide)
  rw [layOut_serverIp] at hserver
  rw [layOut_multiIp] at hmulti
  constructor
  · rw [Wire.service, hport, hserver, hmulti]
  · rw [Wire.replyPtr, KernelServer.sendto_load64 behind (by omega), Comm.setData,
      Memory.load64_copy_of_disjoint (by omega)]

end

/-! ## What the module answers -/

variable {jhash2words : UInt32 → UInt32 → UInt32 → UInt32}

theorem WellFormed.entry_eq_some_iff {s : State} (wf : WellFormed jhash2words s) {ip : UInt32}
    {port : UInt16} {multiIp : UInt32} : entry jhash2words s (ip, port) = some multiIp ↔
      ∃ b i, (s.multiGrp b i).created = true ∧ (s.multiGrp b i).row = (multiIp, port, ip) := by
  rw [entry, Option.map_eq_some_iff]
  constructor
  · intro h
    obtain ⟨node, hcontent, hgroup⟩ := h
    obtain ⟨b, i, rfl, hlive, hkey⟩ := wf.table.content_eq_some_iff.mp hcontent
    obtain ⟨rfl, rfl⟩ := Prod.mk.inj hkey
    exact ⟨b, i, hlive, by rw [MultiNode.row, hgroup]⟩
  · intro h
    obtain ⟨b, i, hlive, hrow⟩ := h
    obtain ⟨hgroup, hrest⟩ := Prod.mk.inj hrow
    obtain ⟨rfl, rfl⟩ := Prod.mk.inj hrest
    exact ⟨s.multiGrp b i, wf.table.content_of_cell hlive, hgroup⟩

/-- A listing, printed row by row, is the map of the entries. -/
theorem WellFormed.shows_lists {s : State} (wf : WellFormed jhash2words s)
    {kService kService' : TmccNlShowServiceSt} (h : Lists s kService kService')
    {rows : List (UInt32 × UInt16 × UInt32)}
    (hrows : rows = (List.range kService'.nodeCnt).map fun k =>
      (kService'.serverIp k, kService'.port k, kService'.multiIp k)) :
    rows.Nodup ∧ ∀ ip port multiIp,
      (ip, port, multiIp) ∈ rows ↔ entry jhash2words s (ip, port) = some multiIp := by
  subst hrows
  constructor
  · apply List.Nodup.map_on _ List.nodup_range
    intro k hk k' hk' heq
    have hk := List.mem_range.mp hk
    have hk' := List.mem_range.mp hk'
    obtain ⟨hserver, hrest⟩ := Prod.mk.inj heq
    obtain ⟨hport, hmulti⟩ := Prod.mk.inj hrest
    have hrow : kService'.row k = kService'.row k' := by
      rw [TmccNlShowServiceSt.row, TmccNlShowServiceSt.row, hserver, hport, hmulti]
    obtain ⟨b, i, hlive, hcell⟩ := h.live k hk
    exact (h.once b i hlive).unique ⟨hk, hcell⟩ ⟨hk', hrow.symm.trans hcell⟩
  · intro ip port multiIp
    rw [wf.entry_eq_some_iff, List.mem_map]
    constructor
    · intro hmem
      obtain ⟨k, hk, heq⟩ := hmem
      obtain ⟨rfl, hrest⟩ := Prod.mk.inj heq
      obtain ⟨rfl, rfl⟩ := Prod.mk.inj hrest
      obtain ⟨b, i, hlive, hcell⟩ := h.live k (List.mem_range.mp hk)
      exact ⟨b, i, hlive, hcell.symm⟩
    · intro hcells
      obtain ⟨b, i, hlive, hrow⟩ := hcells
      obtain ⟨k, ⟨hk, hcell⟩, _⟩ := h.once b i hlive
      obtain ⟨hgroup, hrest⟩ := Prod.mk.inj (hcell.trans hrow)
      obtain ⟨hport, hserver⟩ := Prod.mk.inj hrest
      exact ⟨k, List.mem_range.mpr hk, by rw [hserver, hport, hgroup]⟩

theorem rcv_of_arrives {skb : SkBuff} {msgLen : Nat} {type : UInt16}
    (h : KernelServer.Arrives skb msgLen type) (copied : Bool) (m : NlModule) :
    Wire.tmccRcvSkb jhash2words skb copied m = (do
      let (ret, m, reply) ← Wire.handle jhash2words type skb copied m
      .ret (some ret, m, reply)) := by
  rw [Wire.tmccRcvSkb, if_pos h.accepted, h.type]

theorem holds_request (type : UInt16) (link : Link) :
    HoldsMessage (messageHeader (nlmsgLength (sizeofService + sizeofPtr)) type link.nlPid)
      (nlmsgLength (sizeofService + sizeofPtr)) type :=
  KernelServer.holds_messageHeader _ type link.nlPid

theorem arrives_setData {message : Memory} {type : UInt16} (behind : Memory)
    (h : HoldsMessage message (nlmsgLength (sizeofService + sizeofPtr)) type)
    (serv : TmccNlServiceSt) :
    KernelServer.Arrives (sendto behind (Comm.setData message serv)) 40 type :=
  (holds_setData h serv).arrives behind (by decide) (by decide)

theorem handle_of_list (skb : SkBuff) (copied : Bool) (m : NlModule) :
    Wire.handle jhash2words tmccServiceList skb copied m = Wire.multiNlVmListGet skb copied m := by
  rw [Wire.handle, if_neg (by decide), if_neg (by decide), if_neg (by decide), if_neg (by decide),
    if_pos rfl]

theorem handle_of_stats (skb : SkBuff) (copied : Bool) (m : NlModule) :
    Wire.handle jhash2words multicPacketsStats skb copied m =
      .ret (Wire.multiNlNodePacketsStats jhash2words skb copied m) := by
  rw [Wire.handle, if_neg (by decide), if_neg (by decide), if_neg (by decide), if_pos rfl]

theorem asMeant_list {past : Past} {m : NlModule} (kept : past.Kept jhash2words m) (link : Link)
    (service : TmccNlServiceSt) : AsMeant jhash2words past link m (.print .list service) := by
  have hholds := (holds_request tmccServiceList link).setReplyPtr link.replyPtr
  obtain ⟨_, hptr⟩ := service_sendto link.behind hholds service
  rw [KernelServer.load64_setReplyPtr] at hptr
  have hcount := kept.wf.count
  have hbound := kept.wf.bound
  obtain ⟨kService, hlist, hlists⟩ :=
    kept.wf.lists { m.kService with nodeCnt := 0 } (by omega)
  have hcnt : kService.nodeCnt ≤ multiGrpMax := by
    have hrows := hlists.count
    omega
  have hlists' : Lists m.table { m.kService with nodeCnt := 0 } { kService with ret := 0 } :=
    ⟨hlists.count, hlists.live, hlists.once, hlists.frame⟩
  refine ⟨{ m with kService := { kService with ret := 0 } },
    some (link.replyPtr,
      TmccNlShowServiceSt.layOut { kService with ret := 0 } |>.bytes 0 sizeofShowService),
    rfl, ?_, ?_⟩
  · intro copied
    have hskb := arrives_setData link.behind hholds service
    rw [Command.send, Command.request, Comm.tmccServiceList, rcv_of_arrives hskb, handle_of_list,
      Wire.multiNlVmListGet, hlist, hptr]
    · rfl
    · intro h
      cases h
  · intro proc
    obtain ⟨hnodup, hrows⟩ := kept.wf.shows_lists hlists' rfl
    rw [kept.entries] at hrows
    exact ⟨_, printVmIpInfo_received proc link.replyPtr rfl hcnt, hnodup, hrows⟩

theorem isSome_getMultiPacketsStats (s : State) (k : Key) :
    (getMultiPacketsStats jhash2words s k.1 k.2).isSome = (entry jhash2words s k).isSome := by
  rw [getMultiPacketsStats_eq, entry, Option.isSome_map, Option.isSome_map]

theorem shown_kStats (m : Module) (service : TmccNlServiceSt) :
    (kStats jhash2words m service).shown =
      if service.serverIp = 0 then some (m.rxPackets, m.rxBytes)
      else getMultiPacketsStats jhash2words m.table service.serverIp service.port := by
  rw [kStats]
  by_cases hall : service.serverIp = 0
  · rw [if_pos hall, if_pos hall]
    rfl
  · rw [if_neg hall, if_neg hall]
    cases getMultiPacketsStats jhash2words m.table service.serverIp service.port with
    | none => rfl
    | some counters => rfl

theorem asMeant_stats {past : Past} {m : NlModule} (kept : past.Kept jhash2words m) (link : Link)
    (service : TmccNlServiceSt) : AsMeant jhash2words past link m (.print .stats service) := by
  have hholds := (holds_request multicPacketsStats link).setReplyPtr link.replyPtr
  obtain ⟨hservice, hptr⟩ := service_sendto link.behind hholds service
  rw [KernelServer.load64_setReplyPtr] at hptr
  refine ⟨m, some (link.replyPtr,
    (kStats jhash2words m.toModule service).layOut.bytes 0 sizeofStats), rfl, ?_, ?_⟩
  · intro copied
    have hskb := arrives_setData link.behind hholds service
    rw [Command.send, Command.request, Comm.multiClientPacketsStats, rcv_of_arrives hskb,
      handle_of_stats, Wire.multiNlNodePacketsStats, hptr, hservice]
    rfl
  · intro proc
    have hshown := printPacketsStats_received proc link.replyPtr
      (kStats jhash2words m.toModule service)
    rw [shown_kStats] at hshown
    rw [Past.Prints, hshown, ← kept.entries, ← isSome_getMultiPacketsStats]
    by_cases hall : service.serverIp = 0
    · rw [if_pos hall, if_pos hall, kept.rxPackets, kept.rxBytes]
    · rw [if_neg hall, if_neg hall]
      exact ⟨rfl, rfl⟩

/-! ## Requests that change the table -/

/-- The handlers of what only asks, and of types that the module does not know. -/
theorem toModule_of_query {type : UInt16} {skb : SkBuff} {copied : Bool} {m m' : NlModule}
    {ret : Int} {reply : Option Reply}
    (h : (if type = multicPacketsStats then
        .ret (Wire.multiNlNodePacketsStats jhash2words skb copied m)
      else if type = tmccServiceList then Wire.multiNlVmListGet skb copied m
      else .ret (0, m, none)) = Outcome.ret (ret, m', reply)) : m'.toModule = m.toModule := by
  split at h
  · obtain ⟨_, hrest⟩ := Prod.mk.inj (Outcome.ret.inj h)
    obtain ⟨rfl, _⟩ := Prod.mk.inj hrest
    rfl
  · split at h
    · obtain ⟨_, _, hret⟩ := Outcome.bind_eq_ret_iff.mp h
      obtain ⟨_, hrest⟩ := Prod.mk.inj (Outcome.ret.inj hret)
      obtain ⟨rfl, _⟩ := Prod.mk.inj hrest
      rfl
    · obtain ⟨_, hrest⟩ := Prod.mk.inj (Outcome.ret.inj h)
      obtain ⟨rfl, _⟩ := Prod.mk.inj hrest
      rfl

theorem onTable_bind (m : NlModule) (run : Outcome (Int × State)) :
    (Wire.onTable m run >>= fun r => .ret (some r.1, r.2.1, r.2.2)) =
      run >>= fun r => .ret (some r.1, { m with table := r.2 }, none) := by
  cases run with
  | ret r => rfl
  | hang => rfl
  | fault => rfl

/-- A message does what its request does. One without a request leaves table and counters alone. -/
theorem rcv_cases (skb : SkBuff) (copied : Bool) (m : NlModule) :
    (∃ msg, Wire.message skb = some msg ∧ Wire.tmccRcvSkb jhash2words skb copied m =
      tmccRcvSkb jhash2words m.table msg >>= fun r =>
        .ret (some r.1, { m with table := r.2 }, none)) ∨
    (Wire.message skb = none ∧ ∀ code m' reply,
      Wire.tmccRcvSkb jhash2words skb copied m = .ret (code, m', reply) →
        m'.toModule = m.toModule) := by
  unfold Wire.message Wire.tmccRcvSkb Wire.handle
  by_cases haccepted : skb.accepted = true
  · rw [if_neg (by simp [haccepted]), if_pos haccepted]
    by_cases hadd : skb.nlmsgType = tmccServiceAdd
    · rw [if_pos hadd, if_pos hadd]
      exact Or.inl ⟨_, rfl, onTable_bind m _⟩
    · rw [if_neg hadd, if_neg hadd]
      by_cases hdel : skb.nlmsgType = tmccServiceDel
      · rw [if_pos hdel, if_pos hdel]
        exact Or.inl ⟨_, rfl, onTable_bind m _⟩
      · rw [if_neg hdel, if_neg hdel]
        by_cases hclear : skb.nlmsgType = multiClientClear
        · rw [if_pos hclear, if_pos hclear]
          exact Or.inl ⟨_, rfl, onTable_bind m _⟩
        · rw [if_neg hclear, if_neg hclear]
          refine Or.inr ⟨rfl, ?_⟩
          intro code m' reply hrcv
          obtain ⟨⟨ret, m1, reply1⟩, hhandle, hret⟩ := Outcome.bind_eq_ret_iff.mp hrcv
          obtain ⟨_, hrest⟩ := Prod.mk.inj (Outcome.ret.inj hret)
          obtain ⟨rfl, _⟩ := Prod.mk.inj hrest
          exact toModule_of_query hhandle
  · rw [if_pos (by simpa using haccepted), if_neg haccepted]
    refine Or.inr ⟨rfl, ?_⟩
    intro code m' reply hrcv
    obtain ⟨_, hrest⟩ := Prod.mk.inj (Outcome.ret.inj hrcv)
    obtain ⟨rfl, _⟩ := Prod.mk.inj hrest
    rfl

theorem rcv_of_message {skb : SkBuff} {msg : NlMessage} (h : Wire.message skb = some msg)
    (copied : Bool) (m : NlModule) : Wire.tmccRcvSkb jhash2words skb copied m =
      tmccRcvSkb jhash2words m.table msg >>= fun r =>
        .ret (some r.1, { m with table := r.2 }, none) := by
  rcases rcv_cases skb copied m with ⟨msg', hmsg, hrcv⟩ | ⟨hnone, _⟩
  · rw [h] at hmsg
    obtain rfl := Option.some.inj hmsg
    exact hrcv
  · rw [h] at hnone
    cases hnone

/-- The module finds in a message what the tool has put there. -/
theorem message_send (link : Link) {cmd : Command} {msg : NlMessage} (h : cmd.message = some msg) :
    Wire.message (cmd.send link) = some msg := by
  cases cmd with
  | add service =>
    obtain rfl := Option.some.inj h
    have hholds := holds_request tmccServiceAdd link
    have harrives := arrives_setData link.behind hholds service
    rw [Command.send, Command.request, Comm.tmccServiceAddToKernel, Wire.message,
      harrives.accepted, harrives.type, (service_sendto link.behind hholds service).1]
    rfl
  | del service =>
    obtain rfl := Option.some.inj h
    have hholds := holds_request tmccServiceDel link
    have harrives := arrives_setData link.behind hholds service
    rw [Command.send, Command.request, Comm.tmccServiceDeleteFromKernel, Wire.message,
      harrives.accepted, harrives.type, (service_sendto link.behind hholds service).1]
    rfl
  | clear =>
    obtain rfl := Option.some.inj h
    have hholds := KernelServer.holds_messageHeader (nlmsgLength 0) multiClientClear link.nlPid
    have harrives := hholds.arrives link.behind (by decide) (by decide)
    rw [Command.send, Command.request, Comm.multiClientClear, Wire.message, harrives.accepted,
      harrives.type]
    rfl
  | print cmd service => cases h

theorem asMeant {past : Past} {m : NlModule} (kept : past.Kept jhash2words m) (link : Link)
    (cmd : Command) : AsMeant jhash2words past link m cmd := by
  cases cmd with
  | add service =>
    exact fun copied => rcv_of_message (message_send link rfl) copied m
  | del service =>
    exact fun copied => rcv_of_message (message_send link rfl) copied m
  | clear =>
    exact fun copied => rcv_of_message (message_send link rfl) copied m
  | print cmd service =>
    cases cmd with
    | stats => exact asMeant_stats kept link service
    | add => exact asMeant_list kept link service
    | del => exact asMeant_list kept link service
    | clear => exact asMeant_list kept link service
    | list => exact asMeant_list kept link service

/-! ## Runs -/

theorem Past.Kept.of_module {past : Past} {m m' : NlModule} (kept : past.Kept jhash2words m)
    (h : m'.toModule = m.toModule) : past.Kept jhash2words m' := by
  obtain ⟨wf, hentries, hpackets, hbytes⟩ := kept
  constructor
  · rwa [h]
  · rwa [h]
  · rwa [h]
  · rwa [h]

theorem Past.Kept.message {past : Past} {m m' : NlModule} (kept : past.Kept jhash2words m)
    {skb : SkBuff} {copied : Bool} {code : Option Int} {reply : Option Reply}
    (h : Wire.tmccRcvSkb jhash2words skb copied m = .ret (code, m', reply)) :
    Past.Kept jhash2words
      { past with
        done := past.done ++ if code = some 0 then (Wire.message skb).toList else [] } m' := by
  rcases rcv_cases skb copied m with ⟨msg, hmsg, hrcv⟩ | ⟨hnone, hother⟩
  · rw [hmsg]
    rw [hrcv] at h
    obtain ⟨⟨ret, s⟩, hrun, hret⟩ := Outcome.bind_eq_ret_iff.mp h
    obtain ⟨rfl, hrest⟩ := Prod.mk.inj (Outcome.ret.inj hret)
    obtain ⟨rfl, _⟩ := Prod.mk.inj hrest
    rcases kept.wf.send hrun with ⟨rfl, hwf, hentry⟩ | ⟨hne, rfl⟩
    · refine ⟨hwf, ?_, kept.rxPackets, kept.rxBytes⟩
      rw [if_pos rfl, Option.toList_some, Past.entries, replay_write]
      exact hentry.trans (congrArg msg.apply kept.entries)
    · rw [if_neg (by simpa using hne), List.append_nil]
      exact kept
  · rw [hnone, Option.toList_none, ite_self, List.append_nil]
    exact kept.of_module (hother _ _ _ h)

variable {csum : CsumReplace}

theorem entry_tmccHookLocalIn (m : Module) (skb : Skb) :
    entry jhash2words (tmccHookLocalIn jhash2words csum m skb).1.table =
      entry jhash2words m.table := by
  unfold tmccHookLocalIn
  cases hookEntry jhash2words m.table skb with
  | none => rfl
  | some found =>
    funext k
    rw [← lookupIpPortNode_eq, ← lookupIpPortNode_eq, lookup_multiClientStats]

theorem Past.Kept.packet {past : Past} {m : NlModule} (kept : past.Kept jhash2words m)
    (skb : Skb) : Past.Kept jhash2words
      { past with
        rewritten := past.rewritten ++
          if (hookEntry jhash2words m.table skb).isSome then [skb] else [] }
      { m with toModule := (tmccHookLocalIn jhash2words csum m.toModule skb).1 } := by
  have hentry : entry jhash2words (tmccHookLocalIn jhash2words csum m.toModule skb).1.table =
      entry jhash2words m.table := entry_tmccHookLocalIn m.toModule skb
  have hentries := hentry.trans kept.entries
  cases hhook : hookEntry jhash2words m.table skb with
  | none =>
    rw [Option.isSome_none, if_neg Bool.false_ne_true, List.append_nil, tmccHookLocalIn, hhook]
    exact kept
  | some found =>
    obtain ⟨multiIp, bucket, depth⟩ := found
    rw [Option.isSome_some, if_pos rfl]
    rw [tmccHookLocalIn, hhook] at hentries ⊢
    refine ⟨kept.wf.multiClientStats _ _ _ _, hentries, ?_, ?_⟩
    · rw [Past.rxPackets, List.length_append, List.length_singleton, UInt64.ofNat_add]
      exact congrArg (· + 1) kept.rxPackets
    · rw [Past.rxBytes, List.map_append, List.sum_append, List.map_singleton, List.sum_singleton]
      change m.rxBytes + (skb.dnat csum multiIp).totLen.toUInt64 =
        past.rxBytes + skb.totLen.toUInt64
      rw [Skb.dnat_totLen, kept.rxBytes]

theorem NlRun.kept {past : Past} {m : NlModule} (h : NlRun jhash2words csum past m) :
    past.Kept jhash2words m := by
  induction h with
  | init =>
    constructor
    · exact multiNodeInit_wellFormed
    · funext k
      exact entry_multiNodeInit k
    · rfl
    · rfl
  | message skb copied _ hrcv ih => exact ih.message hrcv
  | packet skb _ ih => exact ih.packet skb

end MulticastProxy.KernelClient
