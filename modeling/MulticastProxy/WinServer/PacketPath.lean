import MulticastProxy.WinServer.HandleData
import MulticastProxy.WinServer.Queue

/-!
# Windows proxy: the way of a packet (`worker_thread.c`, `queue.c`, `handleIncomeData.c`)

A capture thread puts the packet into a queue that it draws, and the work thread of the queue sends
the copies. Each work thread has one buffer, and nothing of the packets before is left in what it
sends.
-/

namespace MulticastProxy.WinServer

set_option autoImplicit false

open LinuxServer (Env Stats Sent Kept ReadAs CarriesMark sentByProxy)

/-! ## Look-up -/

theorem getVmIpLoop_eq (row : Nat → UInt32) {n i : Nat} {ipList : List UInt32}
    (hvm : i + n ≤ multiVmMax) (hroom : i + n ≤ ipList.length) :
    ∃ ipList', getVmIpLoop row n i ipList = .ret ipList' ∧ ipList'.length = ipList.length ∧
      ∀ j, ipList'[j]? = if i ≤ j ∧ j < i + n then some (row j) else ipList[j]? := by
  induction n generalizing i ipList with
  | zero =>
    refine ⟨ipList, rfl, rfl, ?_⟩
    intro j
    rw [if_neg (by omega)]
  | succ n ih =>
    have hvm' : i + 1 + n ≤ multiVmMax := by omega
    have hroom' : i + 1 + n ≤ (ipList.set i (row i)).length := by
      rw [List.length_set]
      omega
    obtain ⟨ipList', hret, hlength, hcells⟩ := ih hvm' hroom'
    rw [getVmIpLoop, if_pos (by omega)]
    refine ⟨ipList', hret, by rw [hlength, List.length_set], ?_⟩
    intro j
    rw [hcells, List.getElem?_set]
    by_cases hij : i = j
    · subst hij
      rw [if_neg (by omega), if_pos rfl, if_pos (by omega), if_pos (by omega)]
    · rw [if_neg hij]
      by_cases hj : i + 1 ≤ j ∧ j < i + 1 + n
      · rw [if_pos hj, if_pos (by omega)]
      · rw [if_neg hj, if_neg (by omega)]

/-- The members of a node, in the order of its row. -/
def members (s : State) (node : MultiNode) : List UInt32 :=
  cells (s.multiVm node.multiGrpIdx.toNat) node.multiMemberCnt

section
variable {s : State} (h : Counted s) {multiIp : UInt32} {multiPort : UInt16}
include h

theorem lookupMultiNode_found {node : MultiNode}
    (hnode : nodeOf s (multiIp, multiPort) = some node) :
    ∃ ipList found, lookupMultiNode s multiIp multiPort (List.replicate maxMemIpInGroup 0) .zero =
        .ret (0, ipList, found) ∧
      found.multiMemberCnt = node.multiMemberCnt ∧ found.serverPort = node.serverPort ∧
      ipList.length = maxMemIpInGroup ∧ ipList.take node.multiMemberCnt = members s node := by
  obtain ⟨hmem, hvm⟩ := sizes
  have hfit := h.fits _ node hnode
  obtain ⟨rowId, hrow, rfl⟩ : ∃ rowId, rawLookupMultiNode s multiIp multiPort = some rowId ∧
      s.multiGrp (mulitHashKey multiIp multiPort multiGrpBucket) rowId = node :=
    Option.map_eq_some_iff.mp hnode
  generalize hnode' :
    s.multiGrp (mulitHashKey multiIp multiPort multiGrpBucket) rowId = node at hfit
  have hbyte : node.multiMemberCnt < 2 ^ 8 := by omega
  have hnum : (UInt8.ofNat node.multiMemberCnt).toNat = node.multiMemberCnt :=
    UInt8.toNat_ofNat_of_lt' hbyte
  have hlong : 0 + node.multiMemberCnt ≤ (List.replicate maxMemIpInGroup (0 : UInt32)).length := by
    rw [List.length_replicate]
    omega
  have hrows : 0 + node.multiMemberCnt ≤ multiVmMax := by omega
  obtain ⟨ipList, hloop, hlength, hcells⟩ :=
    getVmIpLoop_eq (s.multiVm node.multiGrpIdx.toNat) hrows hlong
  rw [List.length_replicate] at hlength
  let found : MultiNode :=
    { MultiNode.zero with
      multiMemberCnt := node.multiMemberCnt
      multiGrpIdx := node.multiGrpIdx
      serverPort := node.serverPort }
  refine ⟨ipList, found, ?_, rfl, rfl, hlength, ?_⟩
  · rw [lookupMultiNode, hrow]
    simp only
    rw [hnode', getVmIpList, hnum, hloop]
    rfl
  · apply List.ext_getElem?
    intro j
    rw [members, cells, List.getElem?_take, List.getElem?_map]
    by_cases hj : j < node.multiMemberCnt
    · rw [if_pos hj, hcells, if_pos (by omega), List.getElem?_range hj]
      rfl
    · rw [if_neg hj, List.getElem?_eq_none (by simpa using hj)]
      rfl

omit h in
theorem lookupMultiNode_absent (hnode : nodeOf s (multiIp, multiPort) = none) :
    lookupMultiNode s multiIp multiPort (List.replicate maxMemIpInGroup 0) .zero =
      .ret (-1, List.replicate maxMemIpInGroup 0, .zero) := by
  have hrow : rawLookupMultiNode s multiIp multiPort = none := Option.map_eq_none_iff.mp hnode
  rw [lookupMultiNode, hrow]

end

/-! ## One packet -/

/-- The key of the table that a packet is looked up under. -/
def groupOf (packet : List UInt8) : UInt32 × UInt16 :=
  (inAddr packet IpHdr.destaddr, word16 packet (headerLength packet + UdpHdr.destPortno))

/-- What is sent of a packet: copies for the first members of its group, for all of them where no
call fails, and nothing for a marked packet or one without a group. -/
structure FansOut (env : Env) (s : State) (packet : List UInt8) (sent : List Sent) : Prop where
  marked : CarriesMark packet → sent = []
  absent : nodeOf s (groupOf packet) = none → sent = []
  copies : ∀ node, nodeOf s (groupOf packet) = some node →
    List.Forall₂ (LinuxServer.IsCopy packet node.serverPort)
      ((members s node).take sent.length) sent
  all : ∀ node, nodeOf s (groupOf packet) = some node → ¬ CarriesMark packet → Succeeds env →
    sent.length = node.multiMemberCnt

theorem FansOut.nil {env : Env} {s : State} {packet : List UInt8}
    (h : CarriesMark packet ∨ nodeOf s (groupOf packet) = none) : FansOut env s packet [] where
  marked := fun _ => rfl
  absent := fun _ => rfl
  copies := fun _ _ => List.Forall₂.nil
  all := by
    intro node hnode hmark _
    rcases h with hmarked | hnone
    · exact absurd hmarked hmark
    · rw [hnode] at hnone
      cases hnone

section
variable {s : State} (h : Counted s)
include h

theorem handleIncomingDataLookup_returns (buf : Memory) : ∃ rt ipList node,
    handleIncomingDataLookup s buf (List.replicate maxMemIpInGroup 0) .zero =
        .ret (rt, ipList, node) ∧
      (rt = 0 → node.multiMemberCnt ≤ ipList.length) := by
  unfold handleIncomingDataLookup
  simp only
  cases hnode : nodeOf s (buf.load32 IpHdr.destaddr,
      htons (buf.load16 (ipHdrLen buf 0 + UdpHdr.destPortno))) with
  | none => exact ⟨_, _, _, lookupMultiNode_absent hnode, fun hrt => by cases hrt⟩
  | some node =>
    obtain ⟨ipList, found, hret, hcnt, _, hlength, _⟩ := lookupMultiNode_found h hnode
    refine ⟨_, _, _, hret, fun _ => ?_⟩
    rw [hcnt, hlength]
    exact h.fits _ node hnode

/-- Whatever the buffer holds, no access leaves an array. -/
theorem handleIncomingData_returns (env : Env) (st : Stats) (buf : Memory) :
    ∃ result, handleIncomingData env s st buf = .ret result := by
  obtain ⟨rt, ipList, node, hlookup, hroom⟩ := handleIncomingDataLookup_returns h buf
  unfold handleIncomingData
  simp only
  rw [hlookup, Outcome.ret_bind]
  split
  · exact ⟨_, rfl⟩
  · rename_i hrt
    have hfit : 0 + node.multiMemberCnt ≤ ipList.length := by
      rw [Nat.zero_add]
      exact hroom (not_not.mp hrt)
    exact sendLoop_returns hfit buf _

/-- Where there is memory for the sums, a whole UDP packet fans out, whatever was in the buffer. -/
theorem handleIncomingData_fansOut {env : Env} (hmalloc : ∀ i, env.malloc i = true)
    {packet : List UInt8} (hwf : WellFormedUdp packet) {stack : Memory} {st st' : Stats} {ret : Int}
    {sent : List Sent} {behind : Memory}
    (hrun : handleIncomingData env s st (stack.copy 0 packet) = .ret (ret, st', sent, behind)) :
    FansOut env s packet sent := by
  have hoffsets := IpHdr.offsets
  have hports := UdpHdr.offsets
  have hsize : ipHdrSize = 20 := rfl
  have hread := LinuxServer.readAs_copy hwf stack
  have hlarge := hwf.header
  have hdatagram := hwf.datagram
  have htotal := hwf.total
  have hreceived := hwf.received
  have hkey : ((stack.copy 0 packet).load32 IpHdr.destaddr, htons ((stack.copy 0 packet).load16
      (ipHdrLen (stack.copy 0 packet) 0 + UdpHdr.destPortno))) = groupOf packet := by
    rw [LinuxServer.load32_destaddr hwf, hread.header, groupOf,
      word16_copy (a := 0) stack (by omega), Nat.zero_add]
  have hheader : ipHdrSize ≤ ipHdrLen (stack.copy 0 packet) 0 := by rwa [hread.header]
  obtain ⟨⟨rt, ipList, node⟩, hlookup, hrun⟩ := Outcome.bind_eq_ret_iff.mp hrun
  rw [handleIncomingDataLookup] at hlookup
  simp only at hlookup hrun
  have hkeys := Prod.mk.inj hkey
  rw [hkeys.1, hkeys.2] at hlookup
  cases hnode : nodeOf s (groupOf packet) with
  | none =>
    obtain ⟨rfl, _⟩ := Prod.mk.inj
      (Outcome.ret.inj (hlookup.symm.trans (lookupMultiNode_absent hnode)))
    rw [if_pos (by decide)] at hrun
    obtain ⟨_, _, rfl, _⟩ := by simpa using hrun
    exact FansOut.nil (Or.inr hnode)
  | some found =>
    obtain ⟨ipList', found', hfound, hcnt, hport, hlength, htake⟩ := lookupMultiNode_found h hnode
    obtain ⟨rfl, rfl, rfl⟩ := by simpa using hlookup.symm.trans hfound
    rw [if_neg (not_not.mpr rfl), hcnt] at hrun
    by_cases hmark : CarriesMark packet
    · obtain ⟨ret', hret⟩ := sendLoop_of_sentByProxy (hread.mark.mpr hmark) _ _ _
      obtain ⟨_, _, rfl, _⟩ := by simpa using hret.symm.trans hrun
      exact FansOut.nil (Or.inl hmark)
    · have hunmarked : sentByProxy (stack.copy 0 packet) = false := by
        rw [Bool.eq_false_iff]
        exact mt hread.mark.mp hmark
      have hfits := h.fits _ found hnode
      have hroom : 0 + found.multiMemberCnt ≤ ipList.length := by omega
      have hcopy : ∀ i ip buf, Kept (stack.copy 0 packet) buf →
          LinuxServer.IsCopy packet found.serverPort ip ⟨ip, htons node.serverPort,
            (LinuxServer.rebuilt (env.malloc i) (stack.copy 0 packet) node.serverPort ip buf).bytes 0
              (LinuxServer.totalLen (stack.copy 0 packet)).toNat⟩ := by
        intro i ip buf hkept
        rw [hport]
        exact (LinuxServer.isCopy_rebuilt hwf hread hkept _ _ _).mpr (Or.inl (hmalloc i))
      obtain ⟨hcopies, hall⟩ := sendLoop_copies hheader hcopy hroom (Kept.refl _) hunmarked hrun
      rw [List.drop_zero, htake] at hcopies
      constructor
      · exact fun hmarked => absurd hmarked hmark
      · intro hnone
        rw [hnode] at hnone
        cases hnone
      · intro node' hnode'
        obtain rfl := Option.some.inj (hnode.symm.trans hnode')
        exact hcopies
      · intro node' hnode' _ hcalls
        obtain rfl := Option.some.inj (hnode.symm.trans hnode')
        exact hall hcalls

end

/-! ## Threads -/

abbrev etherHeaderSize : Nat := 14

/-- A round of a work thread that had a packet: what its calls answered and what it sent. -/
structure Round where
  env : Env
  sent : List Sent

/-- The queues and the buffers of the work threads. Noted for each queue are the packets that
`en_queue` accepted and the rounds of its work thread. -/
structure Threads where
  pktQueue : Nat → Queue
  buf : Nat → Memory
  accepted : Nat → List (List UInt8)
  rounds : Nat → List Round

def Threads.init (memory : Nat → Queue) (buf : Nat → Memory) : Threads where
  pktQueue := fun i => initQueue (memory i)
  buf
  accepted := fun _ => []
  rounds := fun _ => []

/-- What a thread does next: a capture thread has a frame of `len` bytes, or a work thread asks its
queue. A call of a queue is one step. -/
inductive ThreadAct where
  | packetHandler (i : Fin queueCount) (pktData : Memory) (len : Nat)
  | handleWork (queueId : Fin queueCount) (env : Env) (st : Stats)

/-- A step, with the table between two reloads. `packet_handler` draws the queue and copies
`header->len` bytes from behind the ethernet header on, the last ones from behind the frame. What a
round does to the counters, which the threads share, is left open. -/
def Threads.next (s : State) (t : Threads) : ThreadAct → Outcome Threads
  | .packetHandler i pktData len => do
    let packet := pktData.bytes etherHeaderSize len
    let (ret, queue) ← enQueue (t.pktQueue i) packet
    .ret { t with
      pktQueue := Function.update t.pktQueue i queue
      accepted :=
        if ret = 0 then Function.update t.accepted i (t.accepted i ++ [packet]) else t.accepted }
  | .handleWork queueId env st => do
    let (ret, queue, buf, _) ← deQueue (t.pktQueue queueId) (t.buf queueId) 0
    if ret ≠ 0 then .ret t
    else
      let (_, _, sent, behind) ← handleIncomingData env s st buf
      .ret { t with
        pktQueue := Function.update t.pktQueue queueId queue
        buf := Function.update t.buf queueId behind
        rounds := Function.update t.rounds queueId (t.rounds queueId ++ [⟨env, sent⟩]) }

def Threads.run (s : State) : Threads → List ThreadAct → Outcome Threads
  | t, [] => .ret t
  | t, act :: acts => do
    let t ← t.next s act
    Threads.run s t acts

/-- A frame that an element has room for; `header->len` is not compared with it. -/
def ThreadAct.Fits : ThreadAct → Prop
  | .packetHandler _ _ len => len ≤ elementSize
  | .handleWork .. => True

/-- The round of a whole UDP packet, where there was memory for the sums. -/
def Handled (s : State) (packet : List UInt8) (round : Round) : Prop :=
  (∀ i, round.env.malloc i = true) → WellFormedUdp packet → FansOut round.env s packet round.sent

/-- The packets accepted are those of the rounds and those that wait, in order. -/
structure Threads.Sound (s : State) (t : Threads) (queueId : Nat) : Prop where
  queue : (t.pktQueue queueId).Sound
  handled : ∃ done, t.accepted queueId = done ++ (t.pktQueue queueId).pending ∧
    List.Forall₂ (Handled s) done (t.rounds queueId)

theorem Threads.init_sound (s : State) (memory : Nat → Queue) (buf : Nat → Memory) (queueId : Nat) :
    (Threads.init memory buf).Sound s queueId where
  queue := initQueue_sound (memory queueId)
  handled := ⟨[], rfl, List.Forall₂.nil⟩

theorem enQueue_cases {queue : Queue} (h : queue.Sound) {packet : List UInt8}
    (hfits : packet.length ≤ elementSize) : ∃ ret queue', enQueue queue packet = .ret (ret, queue') ∧
      (ret = 0 ∧ queue'.Sound ∧ queue'.pending = queue.pending ++ [packet] ∨
        ret ≠ 0 ∧ queue' = queue) := by
  by_cases hroom : queue.pending.length < queueSize
  · obtain ⟨queue', henq, hsound, hpending⟩ := enQueue_of_lt h hroom hfits
    exact ⟨0, queue', henq, Or.inl ⟨rfl, hsound, hpending⟩⟩
  · exact ⟨-1, queue, enQueue_of_le (Nat.not_lt.mp hroom) packet, Or.inr ⟨by decide, rfl⟩⟩

section
variable {s : State} {t : Threads} {queueId : Nat}

theorem Threads.Sound.captured (h : t.Sound s queueId) {i : Nat} {packet : List UInt8} {ret : Int}
    {queue : Queue}
    (hcase : ret = 0 ∧ queue.Sound ∧ queue.pending = (t.pktQueue i).pending ++ [packet] ∨
      ret ≠ 0 ∧ queue = t.pktQueue i) :
    Threads.Sound s { t with
      pktQueue := Function.update t.pktQueue i queue
      accepted :=
        if ret = 0 then Function.update t.accepted i (t.accepted i ++ [packet]) else t.accepted }
      queueId := by
  obtain ⟨done, haccepted, hrounds⟩ := h.handled
  rcases hcase with ⟨rfl, hsound, hpending⟩ | ⟨hret, rfl⟩
  · by_cases hid : queueId = i
    · subst hid
      refine ⟨by simpa using hsound, done, ?_, hrounds⟩
      simp only [if_pos, Function.update_self]
      rw [haccepted, hpending, List.append_assoc]
    · refine ⟨by simpa [Function.update_of_ne hid] using h.queue, done, ?_, hrounds⟩
      simp only [if_pos, Function.update_of_ne hid]
      exact haccepted
  · rw [Function.update_eq_self, if_neg hret]
    exact h

theorem Threads.Sound.worked (h : t.Sound s queueId) {id : Nat} {packet : List UInt8}
    {queue : Queue} {behind : Memory} {round : Round} (hsound : queue.Sound)
    (hpending : (t.pktQueue id).pending = packet :: queue.pending) (hround : Handled s packet round) :
    Threads.Sound s { t with
      pktQueue := Function.update t.pktQueue id queue
      buf := Function.update t.buf id behind
      rounds := Function.update t.rounds id (t.rounds id ++ [round]) } queueId := by
  obtain ⟨done, haccepted, hrounds⟩ := h.handled
  by_cases hid : queueId = id
  · subst hid
    refine ⟨by simpa using hsound, done ++ [packet], ?_, ?_⟩
    · simp only [Function.update_self]
      rw [haccepted, hpending, List.append_assoc, List.singleton_append]
    · simp only [Function.update_self]
      exact List.rel_append hrounds (List.Forall₂.cons hround List.Forall₂.nil)
  · refine ⟨by simpa [Function.update_of_ne hid] using h.queue, done, ?_, ?_⟩
    · simpa only [Function.update_of_ne hid] using haccepted
    · simpa only [Function.update_of_ne hid] using hrounds

end

/-- A step ends, and keeps what holds of each queue. -/
theorem Threads.next_sound {s : State} (hcounted : Counted s) {t : Threads}
    (h : ∀ queueId, t.Sound s queueId) {act : ThreadAct} (hfits : act.Fits) :
    ∃ t', t.next s act = .ret t' ∧ ∀ queueId, t'.Sound s queueId := by
  cases act with
  | packetHandler i pktData len =>
    have hlength : (pktData.bytes etherHeaderSize len).length ≤ elementSize := by
      rw [Memory.length_bytes]
      exact hfits
    obtain ⟨ret, queue, henq, hcase⟩ := enQueue_cases (h i).queue hlength
    rw [Threads.next, henq]
    exact ⟨_, rfl, fun queueId => (h queueId).captured hcase⟩
  | handleWork id env st =>
    cases hpending : (t.pktQueue id).pending with
    | nil =>
      rw [Threads.next, deQueue_nil hpending]
      exact ⟨t, rfl, h⟩
    | cons packet rest =>
      obtain ⟨queue, hdeq, hsound, rfl⟩ := deQueue_cons (h id).queue hpending (t.buf id) 0
      obtain ⟨⟨ret, st', sent, behind⟩, hrun⟩ :=
        handleIncomingData_returns hcounted env st ((t.buf id).copy 0 packet)
      have hround : Handled s packet ⟨env, sent⟩ := by
        intro hmalloc hwf
        exact handleIncomingData_fansOut hcounted hmalloc hwf hrun
      rw [Threads.next, hdeq, Outcome.ret_bind]
      simp only [hrun, Outcome.ret_bind]
      exact ⟨_, rfl, fun queueId => (h queueId).worked hsound hpending hround⟩

theorem Threads.run_sound {s : State} (hcounted : Counted s) {t : Threads}
    (h : ∀ queueId, t.Sound s queueId) {acts : List ThreadAct} (hfits : ∀ act ∈ acts, act.Fits) :
    ∃ t', t.run s acts = .ret t' ∧ ∀ queueId, t'.Sound s queueId := by
  induction acts generalizing t with
  | nil => exact ⟨t, rfl, h⟩
  | cons act acts ih =>
    obtain ⟨mid, hnext, hmid⟩ := Threads.next_sound hcounted h (hfits act List.mem_cons_self)
    obtain ⟨t', hrest, hsound⟩ := ih hmid fun a ha => hfits a (List.mem_cons_of_mem act ha)
    refine ⟨t', ?_, hsound⟩
    rw [Threads.run, hnext]
    exact hrest

/-- Where each frame captured fits an element, a run never leaves the arrays of a queue or of a
look-up, and the packets that a queue has accepted have been handled in order by its work thread,
but for those that wait. What was sent of each is its fan-out, whatever was in the buffer before. -/
theorem accepted_fan_out {s : State} (hcounted : Counted s) (memory : Nat → Queue)
    (buf : Nat → Memory) {acts : List ThreadAct} (hfits : ∀ act ∈ acts, act.Fits) :
    ∃ t, (Threads.init memory buf).run s acts = .ret t ∧ ∀ queueId, ∃ done,
      t.accepted queueId = done ++ (t.pktQueue queueId).pending ∧
        List.Forall₂ (Handled s) done (t.rounds queueId) := by
  obtain ⟨t, hrun, hsound⟩ :=
    Threads.run_sound hcounted (Threads.init_sound s memory buf) hfits
  exact ⟨t, hrun, fun queueId => (hsound queueId).handled⟩

/-! ## A run -/

/-- Two members for 225.0.0.1:7000. -/
theorem exists_two_members : ∃ s node, Counted s ∧
    nodeOf s (0x010000e1, 7000) = some node ∧ members s node = [0x0200000a, 0x0300000a] ∧
      node.multiMemberCnt = 2 ∧ node.serverPort = 7000 := by
  let add : CfgCall :=
    ⟨.add 0x010000e1 7000 7000 (fun i => if i = 0 then 0x0200000a else 0x0300000a) 2,
      Nat.le_of_ble_eq_true rfl⟩
  have hadd : (add.next multiNodeInit).bind (fun s => (nodeOf s (0x010000e1, 7000)).map fun node =>
      (members s node, node.multiMemberCnt, node.serverPort)) =
        some ([0x0200000a, 0x0300000a], 2, 7000) := by
    decide +kernel
  obtain ⟨s, hnext, hnode⟩ := Option.bind_eq_some_iff.mp hadd
  obtain ⟨node, hfound, hpair⟩ := Option.map_eq_some_iff.mp hnode
  obtain ⟨hmembers, hcnt, hport⟩ := by simpa using hpair
  refine ⟨s, node, counted_init.next hnext ?_, hfound, hmembers, hcnt, hport⟩
  intro other hother
  rw [nodeOf_multiNodeInit] at hother
  cases hother

/-- `groupPacket` behind an ethernet header. -/
def groupFrame : List UInt8 := List.replicate etherHeaderSize 0 ++ LinuxServer.groupPacket

def emptyStart : Threads :=
  Threads.init (fun _ => ⟨fun _ => ⟨fun _ => 0, 0⟩, 3, 5, 7⟩) fun _ _ => 0

/-- The frame goes into queue 3, and its work thread takes it. -/
def frameActs : List ThreadAct :=
  [.packetHandler 3 (Memory.copy (fun _ => 0) 0 groupFrame) groupFrame.length,
    .handleWork 3 .allSucceed ⟨0, 0, 0, 0⟩]

theorem frameActs_fit : ∀ act ∈ frameActs, act.Fits := by
  intro act hact
  simp only [frameActs, List.mem_cons, List.not_mem_nil, or_false] at hact
  rcases hact with rfl | rfl
  · exact Nat.le_of_ble_eq_true rfl
  · trivial

def framePacket : List UInt8 :=
  (Memory.copy (fun _ => 0) 0 groupFrame).bytes etherHeaderSize groupFrame.length

theorem framePacket_wellFormed : WellFormedUdp framePacket :=
  ⟨by decide, by decide, by decide, by decide, by decide⟩

theorem framePacket_unmarked : ¬ CarriesMark framePacket :=
  fun hmark => absurd hmark.1 (by decide)

theorem groupOf_framePacket : groupOf framePacket = (0x010000e1, 7000) := by decide

/-- One packet and its round. -/
theorem frameActs_round {s : State} {t : Threads} (hrun : emptyStart.run s frameActs = .ret t) :
    ∃ sent, t.accepted 3 = [framePacket] ∧ t.rounds 3 = [⟨.allSucceed, sent⟩] ∧
      (t.pktQueue 3).pending = [] := by
  have hfits : framePacket.length ≤ elementSize := Nat.le_of_ble_eq_true rfl
  obtain ⟨queue, henq, hsound, hpending⟩ := enQueue_of_lt
    (initQueue_sound ⟨fun _ => ⟨fun _ => 0, 0⟩, 3, 5, 7⟩) (by decide) hfits
  obtain ⟨queue', hdeq, _, hrest⟩ := deQueue_cons hsound hpending (fun _ => 0) 0
  have henq' : enQueue (emptyStart.pktQueue (3 : Fin queueCount)) framePacket = .ret (0, queue) :=
    henq
  obtain ⟨mid, hcapture, hwork⟩ := Outcome.bind_eq_ret_iff.mp hrun
  rw [Threads.next] at hcapture
  change (enQueue (emptyStart.pktQueue (3 : Fin queueCount)) framePacket >>= _) = _ at hcapture
  rw [henq'] at hcapture
  obtain rfl := Outcome.ret.inj hcapture
  obtain ⟨last, hround, hend⟩ := Outcome.bind_eq_ret_iff.mp hwork
  obtain rfl := Outcome.ret.inj hend
  obtain ⟨⟨ret, queue₂, buf, len⟩, hdeq', hround⟩ := Outcome.bind_eq_ret_iff.mp hround
  obtain ⟨rfl, rfl, rfl, rfl⟩ := by simpa [hdeq] using hdeq.symm.trans hdeq'
  simp only [ne_eq, not_true_eq_false, if_false] at hround
  obtain ⟨⟨code, st, sent, behind⟩, _, hround⟩ := Outcome.bind_eq_ret_iff.mp hround
  obtain rfl := Outcome.ret.inj hround
  exact ⟨sent, rfl, rfl, hrest⟩

theorem accepted_fan_out_two : ∃ (s : State) (t : Threads) (o o' : Sent),
    (Threads.init (fun _ => ⟨fun _ => ⟨fun _ => 0, 0⟩, 3, 5, 7⟩) fun _ _ => 0).run s frameActs =
        .ret t ∧
      t.rounds 3 = [⟨.allSucceed, [o, o']⟩] ∧ o.addr = 0x0200000a ∧ o'.addr = 0x0300000a := by
  obtain ⟨s, node, hcounted, hnode, hmembers, hcnt, hport⟩ := exists_two_members
  obtain ⟨t, hrun, hqueues⟩ := accepted_fan_out hcounted
    (fun _ => ⟨fun _ => ⟨fun _ => 0, 0⟩, 3, 5, 7⟩) (fun _ _ => 0) frameActs_fit
  obtain ⟨sent, hpackets, hround, hempty⟩ := frameActs_round hrun
  obtain ⟨done, haccepted, hrounds⟩ := hqueues 3
  rw [hpackets, hempty, List.append_nil] at haccepted
  rw [hround, ← haccepted, List.forall₂_cons] at hrounds
  have hfans : FansOut .allSucceed s framePacket sent :=
    hrounds.1 (fun _ => rfl) framePacket_wellFormed
  rw [← groupOf_framePacket] at hnode
  have hlength := hfans.all node hnode framePacket_unmarked fun _ => ⟨rfl, rfl, rfl⟩
  have hcopies := hfans.copies node hnode
  rw [hlength, hcnt, hmembers] at hcopies
  obtain ⟨o, rest', ho, htail, rfl⟩ := List.forall₂_cons_left_iff.mp hcopies
  obtain ⟨o', rest'', ho', hend, rfl⟩ := List.forall₂_cons_left_iff.mp htail
  obtain rfl := List.forall₂_nil_left_iff.mp hend
  exact ⟨s, t, o, o', hrun, hround, ho.addr, ho'.addr⟩

end MulticastProxy.WinServer
