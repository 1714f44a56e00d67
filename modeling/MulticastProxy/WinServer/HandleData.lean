import MulticastProxy.LinuxServer.Copies
import MulticastProxy.WinServer.Lookup

/-!
# Windows proxy: incoming packets (`proxy_server/handleIncomeData.c`)

The packet is rewritten for one member after the other in the buffer of the work thread. `iph.c` and
the shape of what is sent are those of the Linux server proxy, but lengths are not written again.
-/

namespace MulticastProxy.WinServer

set_option autoImplicit false

open LinuxServer (Env Stats Sent Kept SameMark ReadAs CarriesMark sentByProxy totalLen udpLenOf
  checksum udpChecksum rebuilt)

/-- The packet for one member. -/
def rebuild (malloc : Bool) (iphLen : Nat) (serverPort : UInt16) (ip : UInt32) (buf : Memory) :
    Memory :=
  let buf := buf.store32 IpHdr.destaddr ip
  let buf := buf.store16 IpHdr.checksum 0
  let buf := buf.store8 IpHdr.ttl 127
  let buf := buf.store16 (iphLen + UdpHdr.checksum) 0
  let buf := buf.store16 (iphLen + UdpHdr.destPortno) (htons serverPort)
  let buf := buf.store16 IpHdr.checksum (checksum buf 0 iphLen)
  let udpLen := htons (buf.load16 (iphLen + UdpHdr.length))
  buf.store16 (iphLen + UdpHdr.checksum) (udpChecksum malloc buf 0 iphLen udpLen.toNat)

/-- The loop over the members, with `n` of them left from the `i`-th on, and the buffer behind
it. -/
def sendLoop (env : Env) (node : MultiNode) (ipList : List UInt32) (iphLen : Nat)
    (sendLen : UInt16) :
    Nat → Nat → Memory → Stats → Outcome (Int × Stats × List Sent × Memory)
  | 0, _, buf, st => .ret (0, st, [], buf)
  | n + 1, i, buf, st =>
    if sentByProxy buf then .ret (-1, st, [], buf)
    else
      match ipList[i]? with
      | none => .fault
      | some ip =>
        if env.socket i = false then .ret (-1, st, [], buf)
        else
          let buf := rebuild (env.malloc i) iphLen node.serverPort ip buf
          if env.setsockopt i = false then .ret (-1, st, [], buf)
          else if env.sendto i = false then .ret (-1, st, [], buf)
          else do
            let st := { st with gforwardPointPkt := st.gforwardPointPkt + 1 }
            let (ret, st, sent, behind) ←
              sendLoop env node ipList iphLen sendLen n (i + 1) buf st
            .ret (ret, st, ⟨ip, htons node.serverPort, buf.bytes 0 sendLen.toNat⟩ :: sent, behind)

/-- The local variables of the look-up hold anything before it; here they are zero. -/
def handleIncomingData (env : Env) (s : State) (st : Stats) (pBuf : Memory) :
    Outcome (Int × Stats × List Sent × Memory) := do
  let st := { st with grecvPkt := st.grecvPkt + 1 }
  let iphLen := ipHdrLen pBuf 0
  let (rt, ipList, node) ←
    handleIncomingDataLookup s pBuf (List.replicate maxMemIpInGroup 0) .zero
  if rt ≠ 0 then .ret (-1, { st with gdropPkt := st.gdropPkt + 1 }, [], pBuf)
  else
    let st := { st with gforwardPkt := st.gforwardPkt + 1 }
    let sendLen := htons (pBuf.load16 IpHdr.totallength)
    sendLoop env node ipList iphLen sendLen node.multiMemberCnt 0 pBuf st

/-! ## One member -/

section
variable {orig buf : Memory}

theorem checksum_congr {m m' : Memory} {a n : Nat} (h : ∀ i < n, m (a + i) = m' (a + i)) :
    checksum m a n = checksum m' a n := by
  rw [checksum, checksum, checksumWords_congr h]

/-- Without the lengths the packet is the one that the Linux proxy makes. -/
theorem rebuild_eq_rebuilt (hkept : Kept orig buf) (hheader : ipHdrSize ≤ ipHdrLen orig 0)
    (malloc : Bool) (serverPort : UInt16) (ip : UInt32) :
    rebuild malloc (ipHdrLen orig 0) serverPort ip buf = rebuilt malloc orig serverPort ip buf := by
  have hoffsets := IpHdr.offsets
  have hports := UdpHdr.offsets
  have hsize : ipHdrSize = 20 := rfl
  generalize hiphLen : ipHdrLen orig 0 = iphLen at hheader ⊢
  -- the header before its checksum
  generalize hbase : ((buf.store32 IpHdr.destaddr ip).store16 IpHdr.checksum 0).store8 IpHdr.ttl
    127 = base
  have hout : ∀ a, ¬ LinuxServer.Rewritten iphLen a → base a = orig a := by
    intro a ha
    have hold := hkept a (by rwa [hiphLen])
    unfold LinuxServer.Rewritten at ha
    rw [← hold, ← hbase, Memory.store8_of_ne (by omega), Memory.store16_of_disjoint (by omega),
      Memory.store32_of_disjoint (by omega)]
  have htotal : base.store16 IpHdr.totallength (htons (totalLen orig)) = base := by
    have hload : base.load16 IpHdr.totallength = htons (totalLen orig) := by
      rw [totalLen, htons_htons]
      apply Memory.load16_congr
      · apply hout
        unfold LinuxServer.Rewritten
        omega
      · apply hout
        unfold LinuxServer.Rewritten
        omega
    rw [← hload, Memory.store16_load16]
  have hchecksum : checksum ((base.store16 (iphLen + UdpHdr.checksum) 0).store16
      (iphLen + UdpHdr.destPortno) (htons serverPort)) 0 iphLen = checksum base 0 iphLen := by
    apply checksum_congr
    intro i hi
    rw [Memory.store16_of_disjoint (by omega), Memory.store16_of_disjoint (by omega)]
  generalize hsum : checksum base 0 iphLen = sum at hchecksum
  generalize hunsummed : ((base.store16 IpHdr.checksum sum).store16 (iphLen + UdpHdr.checksum)
    0).store16 (iphLen + UdpHdr.destPortno) (htons serverPort) = unsummed
  have hcomm : ((base.store16 (iphLen + UdpHdr.checksum) 0).store16 (iphLen + UdpHdr.destPortno)
      (htons serverPort)).store16 IpHdr.checksum sum = unsummed := by
    rw [Memory.store16_comm (by omega), Memory.store16_comm (a := iphLen + UdpHdr.checksum)
      (by omega), hunsummed]
  have hlength : unsummed.load16 (iphLen + UdpHdr.length) = htons (udpLenOf orig) := by
    have hbyte : ∀ a, iphLen + 4 ≤ a → a < iphLen + 6 → unsummed a = orig a := by
      intro a hlo hhi
      rw [← hunsummed, Memory.store16_of_disjoint (by omega), Memory.store16_of_disjoint (by omega),
        Memory.store16_of_disjoint (by omega)]
      apply hout
      unfold LinuxServer.Rewritten
      omega
    rw [udpLenOf, htons_htons, hiphLen]
    exact Memory.load16_congr (hbyte _ (by omega) (by omega)) (hbyte _ (by omega) (by omega))
  have hsame : unsummed.store16 (iphLen + UdpHdr.length) (htons (udpLenOf orig)) = unsummed := by
    rw [← hlength, Memory.store16_load16]
  unfold rebuild LinuxServer.rebuilt LinuxServer.rebuildUdp LinuxServer.rebuildIp
  simp only
  rw [hiphLen, hbase, htotal, hchecksum, hcomm, hlength, htons_htons, hsum, hunsummed, hsame]

theorem sentByProxy_rebuild (hkept : Kept orig buf) (hheader : ipHdrSize ≤ ipHdrLen orig 0)
    (malloc : Bool) (serverPort : UInt16) (ip : UInt32) :
    sentByProxy (rebuild malloc (ipHdrLen orig 0) serverPort ip buf) = false := by
  rw [rebuild_eq_rebuilt hkept hheader, sentByProxy, LinuxServer.rebuilt_ttl _ _ _ hheader]
  rfl

end

/-! ## The loop -/

/-- No socket call fails. -/
def Succeeds (env : Env) : Prop :=
  ∀ i, env.socket i = true ∧ env.setsockopt i = true ∧ env.sendto i = true

section
variable {env : Env} {node : MultiNode} {ipList : List UInt32} {iphLen : Nat} {sendLen : UInt16}

/-- The list has an address for each member: no other is read. -/
theorem sendLoop_returns {n i : Nat} (hroom : i + n ≤ ipList.length) (buf : Memory) (st : Stats) :
    ∃ result, sendLoop env node ipList iphLen sendLen n i buf st = .ret result := by
  induction n generalizing i buf st with
  | zero => exact ⟨_, rfl⟩
  | succ n ih =>
    rw [sendLoop]
    split
    · exact ⟨_, rfl⟩
    · rw [List.getElem?_eq_getElem (by omega)]
      simp only
      split
      · exact ⟨_, rfl⟩
      · split
        · exact ⟨_, rfl⟩
        · split
          · exact ⟨_, rfl⟩
          · have hnext : i + 1 + n ≤ ipList.length := by omega
            obtain ⟨result, hresult⟩ := ih hnext
              (rebuild (env.malloc i) iphLen node.serverPort ipList[i] buf)
              { st with gforwardPointPkt := st.gforwardPointPkt + 1 }
            rw [hresult]
            exact ⟨_, rfl⟩

theorem sendLoop_of_sentByProxy {buf : Memory} (hmark : sentByProxy buf = true) (n i : Nat)
    (st : Stats) : ∃ ret, sendLoop env node ipList iphLen sendLen n i buf st =
      .ret (ret, st, [], buf) := by
  cases n with
  | zero => exact ⟨0, rfl⟩
  | succ n => exact ⟨-1, by rw [sendLoop, if_pos hmark]⟩

/-- What one round for an unmarked packet does: a call fails and nothing more is sent, or the packet
for the member goes out and the next round starts from it. -/
theorem sendLoop_round {n i : Nat} {ip : UInt32} (hip : ipList[i]? = some ip) {buf : Memory}
    (hunmarked : sentByProxy buf = false) (st : Stats) {ret : Int} {st' : Stats} {sent : List Sent}
    {behind : Memory}
    (h : sendLoop env node ipList iphLen sendLen (n + 1) i buf st = .ret (ret, st', sent, behind)) :
    (sent = [] ∧ (env.socket i = false ∨ env.setsockopt i = false ∨ env.sendto i = false)) ∨
    ∃ rest, sent = ⟨ip, htons node.serverPort,
        (rebuild (env.malloc i) iphLen node.serverPort ip buf).bytes 0 sendLen.toNat⟩ :: rest ∧
      sendLoop env node ipList iphLen sendLen n (i + 1)
        (rebuild (env.malloc i) iphLen node.serverPort ip buf)
        { st with gforwardPointPkt := st.gforwardPointPkt + 1 } =
          .ret (ret, st', rest, behind) := by
  rw [sendLoop, hip, if_neg (by simp [hunmarked])] at h
  simp only at h
  split at h
  · rename_i hsocket
    obtain ⟨_, _, rfl, _⟩ := by simpa using h
    exact Or.inl ⟨rfl, Or.inl hsocket⟩
  · split at h
    · rename_i hopt
      obtain ⟨_, _, rfl, _⟩ := by simpa using h
      exact Or.inl ⟨rfl, Or.inr (Or.inl hopt)⟩
    · split at h
      · rename_i hsend
        obtain ⟨_, _, rfl, _⟩ := by simpa using h
        exact Or.inl ⟨rfl, Or.inr (Or.inr hsend)⟩
      · obtain ⟨⟨ret', st'', rest, behind'⟩, hrest, hret⟩ := Outcome.bind_eq_ret_iff.mp h
        obtain ⟨rfl, rfl, rfl, rfl⟩ := by simpa using hret
        exact Or.inr ⟨rest, rfl, hrest⟩

/-- The members get their packets in order until a call fails, each made from the packet
received. -/
theorem sendLoop_copies {orig : Memory} {P : UInt32 → Sent → Prop}
    (hheader : ipHdrSize ≤ ipHdrLen orig 0)
    (hP : ∀ i ip buf, Kept orig buf → P ip ⟨ip, htons node.serverPort,
      (rebuilt (env.malloc i) orig node.serverPort ip buf).bytes 0 sendLen.toNat⟩)
    {n i : Nat} (hroom : i + n ≤ ipList.length) {buf : Memory} (hkept : Kept orig buf)
    (hunmarked : sentByProxy buf = false) {st st' : Stats} {ret : Int} {sent : List Sent}
    {behind : Memory}
    (h : sendLoop env node ipList (ipHdrLen orig 0) sendLen n i buf st =
      .ret (ret, st', sent, behind)) :
    List.Forall₂ P (((ipList.drop i).take n).take sent.length) sent ∧
      (Succeeds env → sent.length = n) := by
  induction n generalizing i buf st sent with
  | zero =>
    obtain ⟨rfl, _, rfl, _⟩ := by simpa [sendLoop] using h
    exact ⟨List.Forall₂.nil, by simp⟩
  | succ n ih =>
    have hi : i < ipList.length := by omega
    have hget : ipList[i]? = some ipList[i] := List.getElem?_eq_getElem hi
    rcases sendLoop_round hget hunmarked st h with ⟨rfl, hfailed⟩ | ⟨rest, rfl, hrest⟩
    · refine ⟨List.Forall₂.nil, fun hcalls => ?_⟩
      obtain ⟨hsocket, hopt, hsend⟩ := hcalls i
      rw [hsocket, hopt, hsend] at hfailed
      simp at hfailed
    · have hkept' : Kept orig (rebuild (env.malloc i) (ipHdrLen orig 0) node.serverPort ipList[i]
          buf) := by
        rw [rebuild_eq_rebuilt hkept hheader]
        exact hkept.rebuilt _ _ _
      have hnext : i + 1 + n ≤ ipList.length := by omega
      obtain ⟨hcopies, hall⟩ := ih hnext hkept' (sentByProxy_rebuild hkept hheader _ _ _) hrest
      constructor
      · rw [List.drop_eq_getElem_cons hi, List.take_succ_cons, List.length_cons,
          List.take_succ_cons, rebuild_eq_rebuilt hkept hheader]
        exact List.Forall₂.cons (hP i _ buf hkept) hcopies
      · intro hcalls
        rw [List.length_cons, hall hcalls]

end

end MulticastProxy.WinServer
