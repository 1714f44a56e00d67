import MulticastProxy.Library.AccessLog
import MulticastProxy.LinuxServer.HandleData

/-!
# Linux server proxy: the calls for each member (`server_proxy/handleIncomeData.c`)

Both member loops open a socket for each member, send the packet and close the socket; each call that
fails ends the whole run.
-/

namespace MulticastProxy.LinuxServer

set_option autoImplicit false

/-- What is read of the packet, the sockets, and the bytes of the packet that are given to `sendto`,
from the first on. -/
inductive Event where
  | read (off size : Nat)
  | opened (i : Nat)
  | sendto (i size : Nat)
  | closed (i : Nat)
  deriving DecidableEq, Repr

/-- A negative `short` is a large `size_t`. -/
def sendtoSize (sendLen : UInt16) : Nat :=
  if sendLen < 0x8000 then sendLen.toNat else 2 ^ 64 - 65536 + sendLen.toNat

/-- The calls for member `i` succeed. -/
def Env.OwnCalls (env : Env) (sendLen : UInt16) (i : Nat) : Prop :=
  env.socket i = true ∧ env.setsockopt i = true ∧ env.sendto i = true ∧ sendLen < 0x8000

instance (env : Env) (sendLen : UInt16) (i : Nat) : Decidable (env.OwnCalls sendLen i) :=
  inferInstanceAs (Decidable (_ ∧ _))

/-- The two addresses and the datagram. -/
def udpReads (malloc : Bool) (iphLen : Nat) (udpLen : UInt16) : List Event :=
  if malloc then [.read IpHdr.srcaddr 4, .read IpHdr.destaddr 4, .read iphLen udpLen.toNat] else []

/-- What the test for the mark reads. -/
def markReads : List Event := [.read IpHdr.ttl 1, .read IpHdr.id 2]

namespace Noted

open Logged (note lift)

def sendLoop (env : Env) (node : Found) (sendLen : UInt16)
    (rebuild : Nat → UInt32 → Memory → Memory) (reads : Nat → List Event) (countFirst : Bool) :
    Nat → Nat → Memory → Stats → Logged Event (Int × Stats × List Sent)
  | 0, _, _, st => pure (0, st, [])
  | n + 1, i, buf, st => do
    note markReads
    if sentByProxy buf then pure (-1, st, [])
    else
      match node.iplist[i]? with
      | none => lift .fault
      | some ip => do
        let counted := { st with gforwardPointPkt := st.gforwardPointPkt + 1 }
        let st := if countFirst then counted else st
        note (reads i)
        let buf := rebuild i ip buf
        if env.socket i = false then pure (-1, st, [])
        else do
          note [.opened i]
          if env.setsockopt i = false then pure (-1, st, [])
          else do
            note [.sendto i (sendtoSize sendLen)]
            if env.sendto i = false ∨ 0x8000 ≤ sendLen then pure (-1, st, [])
            else do
              note [.closed i]
              let (ret, st, sent) ←
                sendLoop env node sendLen rebuild reads countFirst n (i + 1) buf counted
              pure (ret, st, ⟨ip, htons node.serverPort, buf.bytes 0 sendLen.toNat⟩ :: sent)

def handleIncomingData (env : Env) (s : State) (st : Stats) (stack : Memory) (pBuf : List UInt8) :
    Logged Event (Int × Stats × List Sent) :=
  let st := { st with grecvPkt := st.grecvPkt + 1 }
  if bufsize < pBuf.length then lift .fault
  else do
    let buf := stack.copy 0 pBuf
    note [.read IpHdr.verlen 1]
    let iphLen := ipHdrLen buf 0
    note [.read IpHdr.destaddr 4]
    match lookupMultiNode s (buf.load32 IpHdr.destaddr) with
    | none => pure (-1, { st with gdropPkt := st.gdropPkt + 1 }, [])
    | some node =>
      if maxMemIpInGroup < node.iplist.length then lift .fault
      else do
        let st := { st with gforwardPkt := st.gforwardPkt + 1 }
        note [.read IpHdr.protocol 1]
        let protocol := buf IpHdr.protocol
        let sendLen := htons (buf.load16 IpHdr.totallength)
        if protocol = ipprotoUdp then do
          note [.read (iphLen + UdpHdr.destPortno) 2, .read (iphLen + UdpHdr.length) 2]
          let udpLen := htons (buf.load16 (iphLen + UdpHdr.length))
          note [.read IpHdr.totallength 2]
          sendLoop env node sendLen
            (fun i ip buf => rebuildUdp (env.malloc i) iphLen udpLen node.serverPort
              (rebuildIp iphLen sendLen ip buf))
            (fun i => .read 0 iphLen :: udpReads (env.malloc i) iphLen udpLen)
            true node.multiMemberCnt 0 buf st
        else if protocol = ipprotoVrrf then do
          note [.read IpHdr.totallength 2]
          sendLoop env node sendLen (fun _ ip buf => rebuildIp iphLen sendLen ip buf)
            (fun _ => [.read 0 iphLen]) false node.multiMemberCnt 0 buf st
        else pure (0, st, [])

/-! ## The same runs -/

theorem outcome_sendLoop (env : Env) (node : Found) (sendLen : UInt16)
    (rebuild : Nat → UInt32 → Memory → Memory) (reads : Nat → List Event) (countFirst : Bool)
    (n i : Nat) (buf : Memory) (st : Stats) :
    (sendLoop env node sendLen rebuild reads countFirst n i buf st).outcome =
      LinuxServer.sendLoop env node sendLen rebuild countFirst n i buf st := by
  induction n generalizing i buf st with
  | zero => rfl
  | succ n ih =>
    rw [sendLoop, LinuxServer.sendLoop, Logged.outcome_bind, Logged.outcome_note, Outcome.ret_bind]
    split
    · rfl
    · cases node.iplist[i]? with
      | none => rfl
      | some ip =>
        simp only [Logged.outcome_bind, Logged.outcome_note, Outcome.ret_bind]
        by_cases hsocket : env.socket i = false
        · rw [if_pos hsocket, if_pos (Or.inl hsocket)]
          rfl
        · rw [if_neg hsocket]
          simp only [Logged.outcome_bind, Logged.outcome_note, Outcome.ret_bind]
          by_cases hopt : env.setsockopt i = false
          · rw [if_pos hopt, if_pos (Or.inr hopt)]
            rfl
          · rw [if_neg hopt, if_neg (not_or.mpr ⟨hsocket, hopt⟩)]
            simp only [Logged.outcome_bind, Logged.outcome_note, Outcome.ret_bind]
            split
            · rfl
            · simp only [Logged.outcome_bind, Logged.outcome_note, Outcome.ret_bind, ih]
              rfl

/-- The notes change nothing. -/
theorem outcome_handleIncomingData (env : Env) (s : State) (st : Stats) (stack : Memory)
    (pBuf : List UInt8) : (handleIncomingData env s st stack pBuf).outcome =
      LinuxServer.handleIncomingData env s st stack pBuf := by
  unfold handleIncomingData LinuxServer.handleIncomingData
  simp only
  split
  · rfl
  · simp only [Logged.outcome_bind, Logged.outcome_note, Outcome.ret_bind]
    cases lookupMultiNode s ((stack.copy 0 pBuf).load32 IpHdr.destaddr) with
    | none => rfl
    | some node =>
      simp only
      split
      · rfl
      · simp only [Logged.outcome_bind, Logged.outcome_note, Outcome.ret_bind]
        split
        · simp only [Logged.outcome_bind, Logged.outcome_note, Outcome.ret_bind, outcome_sendLoop]
        · split
          · simp only [Logged.outcome_bind, Logged.outcome_note, Outcome.ret_bind, outcome_sendLoop]
          · rfl

end Noted

/-! ## The mark in a rebuilt packet -/

/-- What the test for the mark reads is as it was, or the time to live of a sent packet. -/
def SameMark (orig buf : Memory) : Prop :=
  buf.load16 IpHdr.id = orig.load16 IpHdr.id ∧ (buf IpHdr.ttl = orig IpHdr.ttl ∨ buf IpHdr.ttl = 127)

variable {orig buf : Memory}

theorem SameMark.refl (buf : Memory) : SameMark buf buf := ⟨rfl, Or.inl rfl⟩

theorem SameMark.unmarked (h : SameMark orig buf) (hmark : sentByProxy orig = false) :
    sentByProxy buf = false := by
  obtain ⟨hid, httl⟩ := h
  unfold sentByProxy at hmark ⊢
  rw [decide_eq_false_iff_not] at hmark ⊢
  rw [hid]
  intro ⟨hbuf, hhtons⟩
  rcases httl with httl | httl
  · rw [httl] at hbuf
    exact hmark ⟨hbuf, hhtons⟩
  · rw [httl] at hbuf
    exact absurd hbuf (by decide)

theorem SameMark.rebuildIp (h : SameMark orig buf) (iphLen : Nat) (sendLen : UInt16)
    (ip : UInt32) : SameMark orig (rebuildIp iphLen sendLen ip buf) := by
  have hoffsets := IpHdr.offsets
  have hkeep : ∀ a, a = IpHdr.id ∨ a = IpHdr.id + 1 →
      LinuxServer.rebuildIp iphLen sendLen ip buf a = buf a := by
    intro a ha
    unfold LinuxServer.rebuildIp
    rw [Memory.store16_of_disjoint (by omega), Memory.store16_of_disjoint (by omega),
      Memory.store8_of_ne (by omega), Memory.store16_of_disjoint (by omega),
      Memory.store32_of_disjoint (by omega)]
  refine ⟨?_, Or.inr ?_⟩
  · rw [Memory.load16_congr (hkeep _ (Or.inl rfl)) (hkeep _ (Or.inr rfl)), h.1]
  · unfold LinuxServer.rebuildIp
    rw [Memory.store16_of_disjoint (by decide), Memory.store16_of_disjoint (by decide),
      Memory.store8_self]

theorem rebuildUdp_of_disjoint (malloc : Bool) (iphLen : Nat) (udpLen serverPort : UInt16)
    (buf : Memory) {a : Nat} (ha : a < iphLen + 2 ∨ iphLen + 8 ≤ a) :
    rebuildUdp malloc iphLen udpLen serverPort buf a = buf a := by
  have hoffsets := UdpHdr.offsets
  unfold rebuildUdp
  rw [Memory.store16_of_disjoint (by omega), Memory.store16_of_disjoint (by omega),
    Memory.store16_of_disjoint (by omega), Memory.store16_of_disjoint (by omega)]

theorem rebuildUdp_length (malloc : Bool) (iphLen : Nat) (udpLen serverPort : UInt16)
    (buf : Memory) :
    rebuildUdp malloc iphLen udpLen serverPort buf (iphLen + 4) = (htons udpLen).toUInt8 ∧
      rebuildUdp malloc iphLen udpLen serverPort buf (iphLen + 4 + 1) =
        (htons udpLen / 256).toUInt8 := by
  have hoffsets := UdpHdr.offsets
  unfold rebuildUdp
  constructor
  · rw [Memory.store16_of_disjoint (by omega)]
    exact Memory.store16_self _
  · rw [Memory.store16_of_disjoint (by omega)]
    exact Memory.store16_succ _

/-- In a malformed packet the UDP header covers the identification or the time to live, but there
stands its length, which stays. -/
theorem SameMark.rebuildUdp (h : SameMark orig buf) (malloc : Bool) {iphLen : Nat}
    (hiph : ∃ k, iphLen = 4 * k) {udpLen : UInt16} (serverPort : UInt16)
    (hlen : htons udpLen = orig.load16 (iphLen + UdpHdr.length)) :
    SameMark orig (rebuildUdp malloc iphLen udpLen serverPort buf) := by
  have hoffsets := IpHdr.offsets
  obtain ⟨k, rfl⟩ := hiph
  have hlength := rebuildUdp_length malloc (4 * k) udpLen serverPort buf
  rw [hlen] at hlength
  obtain ⟨hlo, hhi⟩ := Memory.toUInt8_load16 (m := orig) (a := 4 * k + UdpHdr.length)
  rw [hlo, hhi] at hlength
  by_cases h0 : k = 0
  · subst h0
    constructor
    · exact Memory.load16_congr hlength.1 hlength.2
    · rw [rebuildUdp_of_disjoint _ _ _ _ _ (Or.inr (by decide))]
      exact h.2
  · have hid : (LinuxServer.rebuildUdp malloc (4 * k) udpLen serverPort buf).load16 IpHdr.id =
        buf.load16 IpHdr.id := by
      apply Memory.load16_congr
      · exact rebuildUdp_of_disjoint _ _ _ _ _ (Or.inl (by omega))
      · exact rebuildUdp_of_disjoint _ _ _ _ _ (Or.inl (by omega))
    refine ⟨hid.trans h.1, ?_⟩
    by_cases h1 : k = 1
    · subst h1
      exact Or.inl hlength.1
    · rw [rebuildUdp_of_disjoint _ _ _ _ _ (Or.inl (by omega))]
      exact h.2

/-! ## The notes of a run -/

/-- The notes of one round but for its reads and the close of its socket. -/
def openEvents (env : Env) (sendLen : UInt16) (i : Nat) : List Event :=
  if env.socket i = false then []
  else if env.setsockopt i = false then [.opened i]
  else [.opened i, .sendto i (sendtoSize sendLen)]

/-- The notes of the loop, which do not depend on what is in the packet. -/
def loopEvents (env : Env) (sendLen : UInt16) (reads : Nat → List Event) : Nat → Nat → List Event
  | 0, _ => []
  | n + 1, i =>
    reads i ++ (openEvents env sendLen i ++
      if env.OwnCalls sendLen i then .closed i :: loopEvents env sendLen reads n (i + 1) else [])

theorem log_sendLoop {env : Env} {node : Found} {sendLen : UInt16}
    {rebuild : Nat → UInt32 → Memory → Memory} (reads : Nat → List Event) (countFirst : Bool)
    {P : Memory → Prop} (hunmarked : ∀ buf, P buf → sentByProxy buf = false)
    (hrebuild : ∀ i ip buf, P buf → P (rebuild i ip buf)) {n i : Nat}
    (hroom : i + n ≤ node.iplist.length) {buf : Memory} (hbuf : P buf) (st : Stats) :
    (Noted.sendLoop env node sendLen rebuild reads countFirst n i buf st).log =
      loopEvents env sendLen (fun i => markReads ++ reads i) n i := by
  induction n generalizing i buf st with
  | zero => rfl
  | succ n ih =>
    have hi : i < node.iplist.length := by omega
    rw [Noted.sendLoop, loopEvents, if_neg (by simp [hunmarked buf hbuf]),
      List.getElem?_eq_getElem hi]
    simp only [Logged.log_note_bind, List.append_assoc]
    congr 2
    unfold openEvents
    by_cases hsocket : env.socket i = false
    · have hown : ¬ env.OwnCalls sendLen i := fun h => by simp [h.1] at hsocket
      rw [if_pos hsocket, if_pos hsocket, if_neg hown, Logged.log_pure]
      rfl
    · rw [if_neg hsocket, if_neg hsocket]
      simp only [Logged.log_note_bind]
      by_cases hopt : env.setsockopt i = false
      · have hown : ¬ env.OwnCalls sendLen i := fun h => by simp [h.2.1] at hopt
        rw [if_pos hopt, if_pos hopt, if_neg hown, Logged.log_pure]
      · rw [if_neg hopt, if_neg hopt]
        simp only [Logged.log_note_bind]
        by_cases hsend : env.sendto i = false ∨ 0x8000 ≤ sendLen
        · have hown : ¬ env.OwnCalls sendLen i := by
            intro ⟨_, _, hsent, hlen⟩
            rcases hsend with hfail | hlong
            · simp [hsent] at hfail
            · exact absurd hlen (UInt16.not_lt.mpr hlong)
          rw [if_pos hsend, if_neg hown, Logged.log_pure]
          rfl
        · have hown : env.OwnCalls sendLen i := by
            obtain ⟨hsent, hlong⟩ := not_or.mp hsend
            exact ⟨by simpa using hsocket, by simpa using hopt, by simpa using hsent,
              UInt16.not_le.mp hlong⟩
          rw [if_neg hsend, if_pos hown]
          simp only [Logged.log_note_bind, Logged.log_bind_pure]
          rw [ih (by omega) (hrebuild i _ buf hbuf)]
          rfl

theorem log_sendLoop_of_sentByProxy {buf : Memory} (hmark : sentByProxy buf = true) (env : Env)
    (node : Found) (sendLen : UInt16) (rebuild : Nat → UInt32 → Memory → Memory)
    (reads : Nat → List Event) (countFirst : Bool) (n i : Nat) (st : Stats) :
    (Noted.sendLoop env node sendLen rebuild reads countFirst n i buf st).log =
      if n = 0 then [] else markReads := by
  cases n with
  | zero => rfl
  | succ n =>
    rw [Noted.sendLoop, if_pos hmark, Logged.log_note_bind, Logged.log_pure, List.append_nil,
      if_neg (Nat.succ_ne_zero n)]

/-- The two protocols that are sent on. -/
def Forwarded (buf : Memory) : Prop :=
  buf IpHdr.protocol = ipprotoUdp ∨ buf IpHdr.protocol = ipprotoVrrf

instance (buf : Memory) : Decidable (Forwarded buf) := inferInstanceAs (Decidable (_ ∨ _))

abbrev totalLen (buf : Memory) : UInt16 := htons (buf.load16 IpHdr.totallength)

abbrev udpLenOf (buf : Memory) : UInt16 := htons (buf.load16 (ipHdrLen buf 0 + UdpHdr.length))

/-- What is read ahead of the members, where the group is found. -/
def fieldReads (buf : Memory) : List Event :=
  .read IpHdr.verlen 1 :: .read IpHdr.destaddr 4 :: .read IpHdr.protocol 1 ::
    if buf IpHdr.protocol = ipprotoUdp then
      [.read (ipHdrLen buf 0 + UdpHdr.destPortno) 2, .read (ipHdrLen buf 0 + UdpHdr.length) 2,
        .read IpHdr.totallength 2]
    else if buf IpHdr.protocol = ipprotoVrrf then [.read IpHdr.totallength 2]
    else []

/-- What is read for the checksums of member `i`'s copy. -/
def checksumReads (env : Env) (buf : Memory) (i : Nat) : List Event :=
  .read 0 (ipHdrLen buf 0) ::
    if buf IpHdr.protocol = ipprotoUdp then udpReads (env.malloc i) (ipHdrLen buf 0) (udpLenOf buf)
    else []

/-- What is read in the round of member `i`. -/
def packetReads (env : Env) (buf : Memory) (i : Nat) : List Event :=
  markReads ++ checksumReads env buf i

theorem log_of_not_found {s : State} {stack : Memory} {pBuf : List UInt8}
    (hlen : pBuf.length ≤ bufsize)
    (hfound : lookupMultiNode s ((stack.copy 0 pBuf).load32 IpHdr.destaddr) = none) {env : Env}
    {st : Stats} : (Noted.handleIncomingData env s st stack pBuf).log =
      [.read IpHdr.verlen 1, .read IpHdr.destaddr 4] := by
  unfold Noted.handleIncomingData
  simp only
  rw [if_neg (by omega)]
  simp only [Logged.log_note_bind, hfound, Logged.log_pure]
  rfl

theorem log_handleIncomingData {s : State} (hfit : MembersFit s) {stack : Memory}
    {pBuf : List UInt8} (hlen : pBuf.length ≤ bufsize) {node : Found}
    (hfound : lookupMultiNode s ((stack.copy 0 pBuf).load32 IpHdr.destaddr) = some node)
    (env : Env) (st : Stats) : (Noted.handleIncomingData env s st stack pBuf).log =
      fieldReads (stack.copy 0 pBuf) ++
        if Forwarded (stack.copy 0 pBuf) then
          if sentByProxy (stack.copy 0 pBuf) = true then
            if node.multiMemberCnt = 0 then [] else markReads
          else
            loopEvents env (totalLen (stack.copy 0 pBuf)) (packetReads env (stack.copy 0 pBuf))
              node.multiMemberCnt 0
        else [] := by
  obtain ⟨hcnt, hroom⟩ := hfit.iplist hfound
  generalize hbuf : stack.copy 0 pBuf = buf at hfound ⊢
  have hunmarked : ¬ sentByProxy buf = true → ∀ m, SameMark buf m → sentByProxy m = false :=
    fun hmark m hm => hm.unmarked (by simpa using hmark)
  unfold Noted.handleIncomingData
  simp only
  rw [if_neg (by omega), hbuf]
  simp only [Logged.log_note_bind, hfound]
  rw [if_neg (by omega)]
  simp only [Logged.log_note_bind]
  by_cases hudp : buf IpHdr.protocol = ipprotoUdp
  · have hreads : packetReads env buf = fun i =>
        markReads ++ .read 0 (ipHdrLen buf 0) ::
          udpReads (env.malloc i) (ipHdrLen buf 0) (udpLenOf buf) := by
      funext i
      rw [packetReads, checksumReads, if_pos hudp]
    have hforward : Forwarded buf := Or.inl hudp
    rw [if_pos hudp, fieldReads, if_pos hudp, if_pos hforward]
    simp only [Logged.log_note_bind, List.cons_append, List.nil_append]
    congr 6
    by_cases hmark : sentByProxy buf = true
    · rw [if_pos hmark]
      exact log_sendLoop_of_sentByProxy hmark ..
    · rw [if_neg hmark, hreads]
      apply log_sendLoop _ _ (hunmarked hmark) _ (by omega) (SameMark.refl buf)
      intro i ip m hm
      exact (hm.rebuildIp _ _ _).rebuildUdp _ ⟨_, rfl⟩ _ (htons_htons _)
  · rw [if_neg hudp, fieldReads, if_neg hudp]
    by_cases hvrrf : buf IpHdr.protocol = ipprotoVrrf
    · have hreads : packetReads env buf = fun _ => markReads ++ [.read 0 (ipHdrLen buf 0)] := by
        funext i
        rw [packetReads, checksumReads, if_neg hudp]
      have hforward : Forwarded buf := Or.inr hvrrf
      rw [if_pos hvrrf, if_pos hvrrf, if_pos hforward]
      simp only [Logged.log_note_bind, List.cons_append, List.nil_append]
      congr 4
      by_cases hmark : sentByProxy buf = true
      · rw [if_pos hmark]
        exact log_sendLoop_of_sentByProxy hmark ..
      · rw [if_neg hmark, hreads]
        apply log_sendLoop _ _ (hunmarked hmark) _ (by omega) (SameMark.refl buf)
        intro i ip m hm
        exact hm.rebuildIp _ _ _
    · have hnone : ¬ Forwarded buf := fun h => h.elim hudp hvrrf
      rw [if_neg hvrrf, if_neg hvrrf, if_neg hnone]
      rfl

/-- What is no read is noted in the rounds of the members only. -/
theorem count_log {s : State} (hfit : MembersFit s) {stack : Memory} {pBuf : List UInt8}
    (hlen : pBuf.length ≤ bufsize) {node : Found}
    (hfound : lookupMultiNode s ((stack.copy 0 pBuf).load32 IpHdr.destaddr) = some node)
    {e : Event} (he : ∀ off size, e ≠ .read off size) (env : Env) (st : Stats) :
    (Noted.handleIncomingData env s st stack pBuf).log.count e =
      if Forwarded (stack.copy 0 pBuf) ∧ sentByProxy (stack.copy 0 pBuf) = false then
        (loopEvents env (totalLen (stack.copy 0 pBuf)) (packetReads env (stack.copy 0 pBuf))
          node.multiMemberCnt 0).count e
      else 0 := by
  have hfields : (fieldReads (stack.copy 0 pBuf)).count e = 0 := by
    apply List.count_eq_zero.mpr
    unfold fieldReads
    split
    · simp [he]
    · split <;> simp [he]
  have hmarks : markReads.count e = 0 := by
    apply List.count_eq_zero.mpr
    simp [markReads, he]
  rw [log_handleIncomingData hfit hlen hfound, List.count_append, hfields, Nat.zero_add]
  by_cases hforward : Forwarded (stack.copy 0 pBuf)
  · rw [if_pos hforward]
    cases hmark : sentByProxy (stack.copy 0 pBuf) with
    | true =>
      have hnone : ¬ (Forwarded (stack.copy 0 pBuf) ∧ true = false) := by simp
      rw [if_pos rfl, if_neg hnone]
      split
      · rfl
      · exact hmarks
    | false => rw [if_neg Bool.false_ne_true, if_pos ⟨hforward, rfl⟩]
  · rw [if_neg hforward, if_neg fun h => hforward h.1]
    rfl

theorem mem_log {s : State} (hfit : MembersFit s) {stack : Memory} {pBuf : List UInt8}
    (hlen : pBuf.length ≤ bufsize) {node : Found}
    (hfound : lookupMultiNode s ((stack.copy 0 pBuf).load32 IpHdr.destaddr) = some node)
    {e : Event} (he : ∀ off size, e ≠ .read off size) (env : Env) (st : Stats) :
    e ∈ (Noted.handleIncomingData env s st stack pBuf).log ↔
      (Forwarded (stack.copy 0 pBuf) ∧ sentByProxy (stack.copy 0 pBuf) = false) ∧
        e ∈ loopEvents env (totalLen (stack.copy 0 pBuf)) (packetReads env (stack.copy 0 pBuf))
          node.multiMemberCnt 0 := by
  rw [← List.count_pos_iff, ← List.count_pos_iff, count_log hfit hlen hfound he]
  split
  · rename_i hsent
    rw [and_iff_right hsent]
  · rename_i hsent
    simp [hsent]

/-! ## Which calls are made -/

section
variable {env : Env} {sendLen : UInt16} {reads : Nat → List Event}

theorem opened_mem_openEvents {i k : Nat} :
    .opened i ∈ openEvents env sendLen k ↔ i = k ∧ env.socket k = true := by
  unfold openEvents
  split
  · rename_i hsocket
    simp [hsocket]
  · rename_i hsocket
    split <;> simp [hsocket]

theorem sendto_mem_openEvents {i k size : Nat} : .sendto i size ∈ openEvents env sendLen k ↔
    i = k ∧ size = sendtoSize sendLen ∧ env.socket k = true ∧ env.setsockopt k = true := by
  unfold openEvents
  split
  · rename_i hsocket
    simp [hsocket]
  · rename_i hsocket
    split
    · rename_i hopt
      simp [hopt]
    · rename_i hopt
      simp [hsocket, hopt]

theorem closed_not_mem_openEvents {i k : Nat} : .closed i ∉ openEvents env sendLen k := by
  unfold openEvents
  split
  · simp
  · split <;> simp

/-- An event of member `i` is noted where the calls of all members before succeed. -/
theorem mem_loopEvents {e : Event} {i : Nat} (hread : ∀ j, e ∉ reads j)
    (hclosed : ∀ j, e ≠ .closed j) (hmember : ∀ j, e ∈ openEvents env sendLen j → j = i)
    {n k : Nat} : e ∈ loopEvents env sendLen reads n k ↔
      (k ≤ i ∧ i < k + n) ∧ (∀ j, k ≤ j → j < i → env.OwnCalls sendLen j) ∧
        e ∈ openEvents env sendLen i := by
  induction n generalizing k with
  | zero =>
    rw [loopEvents]
    exact iff_of_false List.not_mem_nil fun h => by omega
  | succ n ih =>
    have hstep : e ∈ loopEvents env sendLen reads (n + 1) k ↔ e ∈ openEvents env sendLen k ∨
        env.OwnCalls sendLen k ∧ e ∈ loopEvents env sendLen reads n (k + 1) := by
      rw [loopEvents, List.mem_append, List.mem_append, or_iff_right (hread k)]
      split
      · rename_i hown
        rw [List.mem_cons, or_iff_right (hclosed k), and_iff_right hown]
      · rename_i hown
        simp [hown]
    rw [hstep, ih]
    constructor
    · intro h
      rcases h with hopen | ⟨hown, ⟨hk, hi⟩, hbefore, hopen⟩
      · obtain rfl := hmember k hopen
        exact ⟨⟨Nat.le_refl _, by omega⟩, fun j hj hj' => by omega, hopen⟩
      · refine ⟨⟨by omega, by omega⟩, fun j hj hj' => ?_, hopen⟩
        rcases Nat.eq_or_lt_of_le hj with rfl | hj
        · exact hown
        · exact hbefore j hj hj'
    · intro ⟨⟨hk, hi⟩, hbefore, hopen⟩
      rcases Nat.eq_or_lt_of_le hk with rfl | hk
      · exact Or.inl hopen
      · exact Or.inr ⟨hbefore k (Nat.le_refl _) hk, ⟨hk, by omega⟩,
          fun j hj hj' => hbefore j (by omega) hj', hopen⟩

theorem count_closed_loopEvents (hread : ∀ i j, .closed i ∉ reads j) (i n k : Nat) :
    (loopEvents env sendLen reads n k).count (.closed i) =
      if (k ≤ i ∧ i < k + n) ∧ ∀ j, k ≤ j → j ≤ i → env.OwnCalls sendLen j then 1 else 0 := by
  induction n generalizing k with
  | zero =>
    rw [loopEvents, List.count_nil, if_neg]
    intro h
    omega
  | succ n ih =>
    rw [loopEvents, List.count_append, List.count_append,
      List.count_eq_zero.mpr (hread i k), List.count_eq_zero.mpr closed_not_mem_openEvents,
      Nat.zero_add, Nat.zero_add]
    by_cases hown : env.OwnCalls sendLen k
    · rw [if_pos hown, List.count_cons, ih]
      by_cases hik : i = k
      · subst hik
        rw [if_neg (fun h => by omega), if_pos (by simp), if_pos]
        refine ⟨⟨Nat.le_refl _, by omega⟩, fun j hj hj' => ?_⟩
        have hj : j = i := by omega
        rwa [hj]
      · have hother : (Event.closed k == Event.closed i) = false := by
          simpa using fun h : k = i => hik h.symm
        rw [hother, if_neg Bool.false_ne_true, Nat.add_zero]
        congr 1
        rw [eq_iff_iff]
        constructor
        · intro ⟨⟨hk, hi⟩, hall⟩
          refine ⟨⟨by omega, by omega⟩, fun j hj hj' => ?_⟩
          rcases Nat.eq_or_lt_of_le hj with rfl | hj
          · exact hown
          · exact hall j hj hj'
        · intro ⟨⟨hk, hi⟩, hall⟩
          exact ⟨⟨by omega, by omega⟩, fun j hj hj' => hall j (by omega) hj'⟩
    · rw [if_neg hown, List.count_nil, if_neg]
      intro ⟨⟨hk, _⟩, hall⟩
      exact hown (hall k (Nat.le_refl _) hk)

end

theorem not_mem_packetReads {e : Event} (he : ∀ off size, e ≠ .read off size) (env : Env)
    (buf : Memory) (i : Nat) : e ∉ packetReads env buf i := by
  unfold packetReads markReads checksumReads udpReads
  split
  · split
    · simp [he]
    · simp [he]
  · simp [he]

theorem sendLoop_returns (env : Env) {node : Found} (sendLen : UInt16)
    (rebuild : Nat → UInt32 → Memory → Memory) (countFirst : Bool) {n i : Nat}
    (hroom : i + n ≤ node.iplist.length) (buf : Memory) (st : Stats) :
    ∃ r, sendLoop env node sendLen rebuild countFirst n i buf st = .ret r := by
  induction n generalizing i buf st with
  | zero => exact ⟨_, rfl⟩
  | succ n ih =>
    have hi : i < node.iplist.length := by omega
    rw [sendLoop, List.getElem?_eq_getElem hi]
    simp only
    split
    · exact ⟨_, rfl⟩
    · split
      · exact ⟨_, rfl⟩
      · split
        · exact ⟨_, rfl⟩
        · have hwithin : i + 1 + n ≤ node.iplist.length := by omega
          obtain ⟨r, hr⟩ := ih hwithin
            (rebuild i node.iplist[i] buf) { st with gforwardPointPkt := st.gforwardPointPkt + 1 }
          rw [hr]
          exact ⟨_, rfl⟩

theorem handleIncomingData_returns {s : State} (hfit : MembersFit s) {pBuf : List UInt8}
    (hlen : pBuf.length ≤ bufsize) (env : Env) (st : Stats) (stack : Memory) :
    ∃ r, handleIncomingData env s st stack pBuf = .ret r := by
  unfold handleIncomingData
  simp only
  rw [if_neg (by omega)]
  cases hfound : lookupMultiNode s ((stack.copy 0 pBuf).load32 IpHdr.destaddr) with
  | none => exact ⟨_, rfl⟩
  | some node =>
    obtain ⟨hcnt, hroom⟩ := hfit.iplist hfound
    simp only
    rw [if_neg (by omega)]
    split
    · exact sendLoop_returns env _ _ _ (by omega) _ _
    · split
      · exact sendLoop_returns env _ _ _ (by omega) _ _
      · exact ⟨_, rfl⟩

/-! ## Each member on its own -/

section
variable (env : Env) (s : State) (stack : Memory) (pBuf : List UInt8)

/-- The copy of each member whose own calls succeed is given to `sendto`. -/
def EachServed (node : Found) : Prop :=
  ∀ i < node.multiMemberCnt, env.OwnCalls (totalLen (stack.copy 0 pBuf)) i → ∀ st,
    .sendto i (totalLen (stack.copy 0 pBuf)).toNat ∈
      (Noted.handleIncomingData env s st stack pBuf).log

/-- The run returns, and each socket that it opened has been closed once. -/
def SocketsClosed : Prop :=
  ∀ st, (∃ r, handleIncomingData env s st stack pBuf = .ret r) ∧
    ∀ i, .opened i ∈ (Noted.handleIncomingData env s st stack pBuf).log →
      (Noted.handleIncomingData env s st stack pBuf).log.count (.closed i) = 1

end

variable {s : State} {stack : Memory} {pBuf : List UInt8} {node : Found}

theorem sendtoSize_of_ownCalls {env : Env} {sendLen : UInt16} {i : Nat}
    (h : env.OwnCalls sendLen i) : sendtoSize sendLen = sendLen.toNat := if_pos h.2.2.2

/-- Of a packet that is sent on, each member whose own calls succeed gets its copy exactly where no
member before one whose calls succeed has a call that fails. -/
theorem each_served_iff (hfit : MembersFit s) (hlen : pBuf.length ≤ bufsize)
    (hfound : lookupMultiNode s ((stack.copy 0 pBuf).load32 IpHdr.destaddr) = some node)
    (hforward : Forwarded (stack.copy 0 pBuf)) (hmark : sentByProxy (stack.copy 0 pBuf) = false)
    (env : Env) : EachServed env s stack pBuf node ↔
      ∀ i < node.multiMemberCnt, env.OwnCalls (totalLen (stack.copy 0 pBuf)) i →
        ∀ j < i, env.OwnCalls (totalLen (stack.copy 0 pBuf)) j := by
  have hsent : ∀ i < node.multiMemberCnt, env.OwnCalls (totalLen (stack.copy 0 pBuf)) i → ∀ st,
      (.sendto i (totalLen (stack.copy 0 pBuf)).toNat ∈
          (Noted.handleIncomingData env s st stack pBuf).log ↔
        ∀ j < i, env.OwnCalls (totalLen (stack.copy 0 pBuf)) j) := by
    intro i hi hown st
    rw [mem_log hfit hlen hfound (by simp), and_iff_right ⟨hforward, hmark⟩,
      mem_loopEvents (i := i) (not_mem_packetReads (by simp) env _) (by simp)
        (fun j hj => (sendto_mem_openEvents.mp hj).1.symm), sendto_mem_openEvents]
    constructor
    · intro ⟨_, hbefore, _⟩ j hj
      exact hbefore j (Nat.zero_le _) hj
    · intro hbefore
      exact ⟨⟨Nat.zero_le _, by omega⟩, fun j _ hj => hbefore j hj, rfl,
        (sendtoSize_of_ownCalls hown).symm, hown.1, hown.2.1⟩
  constructor
  · intro h i hi hown
    exact (hsent i hi hown ⟨0, 0, 0, 0⟩).mp (h i hi hown _)
  · intro h i hi hown st
    exact (hsent i hi hown st).mpr (h i hi hown)

/-- A datagram without data from 10.0.0.1 to port 7000 of 225.0.0.1. -/
def groupPacket : List UInt8 :=
  [0x45, 0, 0, 28, 0, 0, 0, 0, 64, 17, 0, 0, 10, 0, 0, 1, 225, 0, 0, 1,
    0x1b, 0x58, 0x1b, 0x58, 0, 8, 0, 0]

/-- A group 225.0.0.1 at port 7000 with the members 10.0.0.2 and 10.0.0.3. -/
theorem exists_two_members : ∃ s node, MembersFit s ∧
    lookupMultiNode s ((Memory.copy (fun _ => 0) 0 groupPacket).load32 IpHdr.destaddr) = some node ∧
    node.multiMemberCnt = 2 ∧ node.iplist = [0x0200000a, 0x0300000a] ∧ node.serverPort = 7000 := by
  exact exists_group_of ((Memory.copy (fun _ => 0) 0 groupPacket).load32 IpHdr.destaddr) 7000
    (show [0x0200000a, 0x0300000a].length ≤ multiVmMax from Nat.le_of_lt (by decide))

theorem each_served_two : ∃ s node, node.multiMemberCnt = 2 ∧
    EachServed .allSucceed s (fun _ => 0) groupPacket node := by
  obtain ⟨s, node, hfit, hfound, hcnt, _⟩ := exists_two_members
  refine ⟨s, node, hcnt, ?_⟩
  apply (each_served_iff hfit (by decide) hfound (by decide) (by decide) _).mpr
  intro i hi hown j hj
  exact ⟨rfl, rfl, rfl, by decide⟩

/-- The first member gets no socket, and so the second one no packet. -/
theorem not_each_served : ¬ ∀ env s stack pBuf node, MembersFit s → pBuf.length ≤ bufsize →
    lookupMultiNode s ((Memory.copy stack 0 pBuf).load32 IpHdr.destaddr) = some node →
    Forwarded (stack.copy 0 pBuf) → sentByProxy (stack.copy 0 pBuf) = false →
    EachServed env s stack pBuf node := by
  intro h
  obtain ⟨s, node, hfit, hfound, hcnt, _⟩ := exists_two_members
  let env : Env := { Env.allSucceed with socket := fun i => i != 0 }
  have hserved := (each_served_iff hfit (by decide) hfound (by decide) (by decide) env).mp
    (h env s _ groupPacket node hfit (by decide) hfound (by decide) (by decide))
  have hfirst := hserved 1 (by omega) ⟨rfl, rfl, rfl, by decide⟩ 0 (by decide)
  exact absurd hfirst.1 (by decide)

/-- The sockets that are opened: up to the first member whose calls do not all succeed. -/
theorem opened_mem_log (hfit : MembersFit s) (hlen : pBuf.length ≤ bufsize) {env : Env}
    {stack : Memory} {node : Found}
    (hfound : lookupMultiNode s ((stack.copy 0 pBuf).load32 IpHdr.destaddr) = some node)
    (hforward : Forwarded (stack.copy 0 pBuf)) (hmark : sentByProxy (stack.copy 0 pBuf) = false)
    (i : Nat) (st : Stats) :
    .opened i ∈ (Noted.handleIncomingData env s st stack pBuf).log ↔
      (0 ≤ i ∧ i < 0 + node.multiMemberCnt) ∧
        (∀ j, 0 ≤ j → j < i → env.OwnCalls (totalLen (stack.copy 0 pBuf)) j) ∧
          env.socket i = true := by
  rw [mem_log hfit hlen hfound (by simp), and_iff_right ⟨hforward, hmark⟩,
    mem_loopEvents (i := i) (not_mem_packetReads (by simp) env _) (by simp)
      (fun j hj => (opened_mem_openEvents.mp hj).1.symm), opened_mem_openEvents]
  simp

/-- Every socket is closed exactly where the first member with a call that fails, if there is one,
gets no socket. -/
theorem sockets_closed_iff (hfit : MembersFit s) (hlen : pBuf.length ≤ bufsize) (env : Env)
    (stack : Memory) : SocketsClosed env s stack pBuf ↔
      ∀ node, lookupMultiNode s ((stack.copy 0 pBuf).load32 IpHdr.destaddr) = some node →
        Forwarded (stack.copy 0 pBuf) → sentByProxy (stack.copy 0 pBuf) = false →
        ∀ i < node.multiMemberCnt,
          (∀ j < i, env.OwnCalls (totalLen (stack.copy 0 pBuf)) j) → env.socket i = true →
          env.OwnCalls (totalLen (stack.copy 0 pBuf)) i := by
  constructor
  · intro h node hfound hforward hmark i hi hbefore hsocket
    have hclosed := (h ⟨0, 0, 0, 0⟩).2 i ((opened_mem_log hfit hlen hfound hforward hmark i _).mpr
      ⟨⟨Nat.zero_le _, by omega⟩, fun j _ hj => hbefore j hj, hsocket⟩)
    rw [count_log hfit hlen hfound (by simp), if_pos ⟨hforward, hmark⟩,
      count_closed_loopEvents fun i j => not_mem_packetReads (by simp) env _ j] at hclosed
    split at hclosed
    · rename_i hall
      exact hall.2 i (Nat.zero_le _) (Nat.le_refl _)
    · cases hclosed
  · intro h st
    refine ⟨handleIncomingData_returns hfit hlen env st stack, fun i hi => ?_⟩
    cases hfound : lookupMultiNode s ((stack.copy 0 pBuf).load32 IpHdr.destaddr) with
    | none =>
      rw [log_of_not_found hlen hfound] at hi
      simp at hi
    | some node =>
      by_cases hsent : Forwarded (stack.copy 0 pBuf) ∧ sentByProxy (stack.copy 0 pBuf) = false
      · obtain ⟨hforward, hmark⟩ := hsent
        obtain ⟨⟨_, hi⟩, hbefore, hsocket⟩ :=
          (opened_mem_log hfit hlen hfound hforward hmark i st).mp hi
        have hown := h node hfound hforward hmark i (by omega)
          (fun j hj => hbefore j (Nat.zero_le _) hj) hsocket
        rw [count_log hfit hlen hfound (by simp), if_pos ⟨hforward, hmark⟩,
          count_closed_loopEvents fun i j => not_mem_packetReads (by simp) env _ j, if_pos]
        refine ⟨⟨Nat.zero_le _, hi⟩, fun j _ hj => ?_⟩
        rcases Nat.eq_or_lt_of_le hj with rfl | hj
        · exact hown
        · exact hbefore j (Nat.zero_le _) hj
      · exact absurd ((mem_log hfit hlen hfound (by simp) env st).mp hi).1 hsent

theorem sockets_closed_two : ∃ s node,
    lookupMultiNode s ((Memory.copy (fun _ => 0) 0 groupPacket).load32 IpHdr.destaddr) = some node ∧
    node.multiMemberCnt = 2 ∧ SocketsClosed .allSucceed s (fun _ => 0) groupPacket := by
  obtain ⟨s, node, hfit, hfound, hcnt, _⟩ := exists_two_members
  refine ⟨s, node, hfound, hcnt, ?_⟩
  apply (sockets_closed_iff hfit (by decide) _ _).mpr
  intro node _ _ _ i hi hbefore hsocket
  exact ⟨rfl, rfl, rfl, by decide⟩

/-- `sendto` fails for the first member, whose socket stays open. -/
theorem not_sockets_closed : ¬ ∀ env s stack pBuf, MembersFit s → pBuf.length ≤ bufsize →
    SocketsClosed env s stack pBuf := by
  intro h
  obtain ⟨s, node, hfit, hfound, hcnt, _⟩ := exists_two_members
  let env : Env := { Env.allSucceed with sendto := fun _ => false }
  have hclosed := (sockets_closed_iff hfit (by decide) env (fun _ => 0)).mp
    (h env s _ groupPacket hfit (by decide))
  have hfirst := hclosed node hfound (by decide) (by decide) 0 (by omega)
    (fun j hj => absurd hj (Nat.not_lt_zero j)) rfl
  exact absurd hfirst.2.2.1 (by decide)

end MulticastProxy.LinuxServer
