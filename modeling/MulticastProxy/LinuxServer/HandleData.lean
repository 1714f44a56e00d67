import MulticastProxy.LinuxServer.Config
import MulticastProxy.Common.IpHeader

/-!
# Linux server proxy: incoming packets (`server_proxy/handleIncomeData.c`)

A multicast packet is sent on to every member of its group, unless it carries the mark of the
client proxy. What the socket calls and `malloc` answer for each member is a parameter.
-/

namespace MulticastProxy.LinuxServer

set_option autoImplicit false

structure Env where
  socket : Nat → Bool
  setsockopt : Nat → Bool
  sendto : Nat → Bool
  malloc : Nat → Bool

structure Stats where
  grecvPkt : UInt32
  gdropPkt : UInt32
  gforwardPkt : UInt32
  gforwardPointPkt : UInt32
  deriving DecidableEq, Repr

/-- A successful `sendto`: the address, the port in network order and the bytes. -/
structure Sent where
  addr : UInt32
  port : UInt16
  bytes : List UInt8
  deriving DecidableEq, Repr

/-- `while(cksum >> 16)`. -/
def foldCarries (cksum : Nat) : Nat :=
  if cksum < 65536 then cksum else foldCarries (cksum / 65536 + cksum % 65536)
termination_by cksum
decreasing_by omega

def checksum (m : Memory) (buf size : Nat) : UInt16 :=
  ~~~(UInt16.ofNat (foldCarries ((checksumWords m buf size).map UInt16.toNat).sum))

def udpChecksum (malloc : Bool) (m : Memory) (iph iphLen udpLen : Nat) : UInt16 :=
  if malloc then
    checksum (udpPsd m iph iphLen udpLen (htons (UInt16.ofNat udpLen))) 0
      (udpPsdHeaderSize + udpLen)
  else 0xFFFF

/-- The test by which a packet of a proxy is known. -/
def sentByProxy (buf : Memory) : Bool :=
  0x80 = buf IpHdr.ttl ∧ 0x1000 = htons (buf.load16 IpHdr.id)

/-- The IP header for one member. -/
def rebuildIp (iphLen : Nat) (sendLen : UInt16) (ip : UInt32) (buf : Memory) : Memory :=
  let buf := buf.store32 IpHdr.destaddr ip
  let buf := buf.store16 IpHdr.checksum 0
  let buf := buf.store8 IpHdr.ttl 127
  let buf := buf.store16 IpHdr.totallength (htons sendLen)
  buf.store16 IpHdr.checksum (checksum buf 0 iphLen)

def rebuildUdp (malloc : Bool) (iphLen : Nat) (udpLen serverPort : UInt16) (buf : Memory) :
    Memory :=
  let buf := buf.store16 (iphLen + UdpHdr.checksum) 0
  let buf := buf.store16 (iphLen + UdpHdr.destPortno) (htons serverPort)
  let buf := buf.store16 (iphLen + UdpHdr.length) (htons udpLen)
  buf.store16 (iphLen + UdpHdr.checksum) (udpChecksum malloc buf 0 iphLen udpLen.toNat)

/-- The loop over the members, with `n` of them left from the `i`-th on. The UDP path counts a
member before the calls, the VRRP path after them. A length from `2^15` on is a negative `short`,
which `sendto` refuses. -/
def sendLoop (env : Env) (node : Found) (sendLen : UInt16)
    (rebuild : Nat → UInt32 → Memory → Memory) (countFirst : Bool) :
    Nat → Nat → Memory → Stats → Outcome (Int × Stats × List Sent)
  | 0, _, _, st => .ret (0, st, [])
  | n + 1, i, buf, st =>
    if sentByProxy buf then .ret (-1, st, [])
    else
      match node.iplist[i]? with
      | none => .fault
      | some ip =>
        let counted := { st with gforwardPointPkt := st.gforwardPointPkt + 1 }
        let st := if countFirst then counted else st
        let buf := rebuild i ip buf
        if env.socket i = false ∨ env.setsockopt i = false then .ret (-1, st, [])
        else if env.sendto i = false ∨ 0x8000 ≤ sendLen then .ret (-1, st, [])
        else do
          let (ret, st, sent) ← sendLoop env node sendLen rebuild countFirst n (i + 1) buf counted
          .ret (ret, st, ⟨ip, htons node.serverPort, buf.bytes 0 sendLen.toNat⟩ :: sent)

/-- `lookup_multi_node` writes the list to `ip_list`, which holds 128 addresses. The UDP path runs
off the end of the function, and its caller uses no result. -/
def handleIncomingData (env : Env) (s : State) (st : Stats) (stack : Memory) (pBuf : List UInt8) :
    Outcome (Int × Stats × List Sent) :=
  let st := { st with grecvPkt := st.grecvPkt + 1 }
  if bufsize < pBuf.length then .fault
  else
    let buf := stack.copy 0 pBuf
    let iphLen := ipHdrLen buf 0
    match lookupMultiNode s (buf.load32 IpHdr.destaddr) with
    | none => .ret (-1, { st with gdropPkt := st.gdropPkt + 1 }, [])
    | some node =>
      if maxMemIpInGroup < node.iplist.length then .fault
      else
        let st := { st with gforwardPkt := st.gforwardPkt + 1 }
        let protocol := buf IpHdr.protocol
        let sendLen := htons (buf.load16 IpHdr.totallength)
        if protocol = ipprotoUdp then
          let udpLen := htons (buf.load16 (iphLen + UdpHdr.length))
          sendLoop env node sendLen
            (fun i ip buf => rebuildUdp (env.malloc i) iphLen udpLen node.serverPort
              (rebuildIp iphLen sendLen ip buf))
            true node.multiMemberCnt 0 buf st
        else if protocol = ipprotoVrrf then
          sendLoop env node sendLen (fun _ ip buf => rebuildIp iphLen sendLen ip buf)
            false node.multiMemberCnt 0 buf st
        else .ret (0, st, [])

/-! ## Marked packets -/

/-- The number of members in each node is within its row. -/
def MembersFit (s : State) : Prop := ∀ b r, (s.multiGrp b r).multiMemberCnt ≤ multiVmMax

theorem MembersFit.iplist {s : State} (hfit : MembersFit s) {g : UInt32} {node : Found}
    (hfound : lookupMultiNode s g = some node) :
    node.iplist.length = node.multiMemberCnt ∧ node.iplist.length ≤ maxMemIpInGroup := by
  unfold lookupMultiNode at hfound
  cases hrow : rawLookupMultiNode s g with
  | none =>
    rw [hrow] at hfound
    cases hfound
  | some rowId =>
    rw [hrow] at hfound
    cases hfound
    have hcnt := hfit (mulitHashKey g multiGrpBucket) rowId
    simp only [getVmIpList_of_le hcnt, length_cells]
    exact ⟨trivial, hcnt⟩

theorem multiNodeInit_membersFit : MembersFit multiNodeInit := fun _ _ => Nat.zero_le _

theorem addVmIpList_cnt {multiVm multiVm' : Nat → Nat → UInt32} {idx : UInt8}
    {ipList : Nat → UInt32} {ipNum oldIpNum cnt : Nat} {ret : Int} (hold : oldIpNum ≤ multiVmMax)
    (h : addVmIpList multiVm idx ipList ipNum oldIpNum = .ret (ret, multiVm', cnt)) :
    cnt ≤ multiVmMax := by
  unfold addVmIpList at h
  split at h
  · obtain ⟨_, _, rfl⟩ := Prod.mk.inj (Outcome.ret.inj h)
    exact hold
  · obtain ⟨⟨row, k⟩, hloop, hret⟩ := Outcome.bind_eq_ret_iff.mp h
    obtain ⟨_, _, rfl⟩ := Prod.mk.inj (Outcome.ret.inj hret)
    exact (addVmIpLoop_ret (Nat.le_refl _) hloop).2.2.1 hold

theorem put_membersFit {s : State} (hfit : MembersFit s) {index row : Nat} {node : MultiNode}
    (hnode : node.multiMemberCnt ≤ multiVmMax) (b r : Nat) :
    (BucketLayout.put s.multiGrp index row node b r).multiMemberCnt ≤ multiVmMax := by
  rw [BucketLayout.put_apply]
  split
  · exact hnode
  · exact hfit b r

theorem addMultiNode_membersFit {s s' : State} (hfit : MembersFit s) {multiIp : UInt32}
    {multiPort serverPort : UInt16} {ipList : Nat → UInt32} {ipNum : UInt8} {ret : Int}
    (h : addMultiNode s multiIp multiPort serverPort ipList ipNum = .ret (ret, s')) :
    MembersFit s' := by
  unfold addMultiNode at h
  simp only at h
  split at h
  · obtain ⟨⟨r, multiVm, cnt⟩, hadd, hret⟩ := Outcome.bind_eq_ret_iff.mp h
    obtain ⟨_, rfl⟩ := Prod.mk.inj (Outcome.ret.inj hret)
    exact put_membersFit hfit (addVmIpList_cnt (hfit _ _) hadd)
  · split at h
    · obtain ⟨_, rfl⟩ := Prod.mk.inj (Outcome.ret.inj h)
      exact hfit
    · split at h
      · cases h
      · obtain ⟨_, rfl⟩ := Prod.mk.inj (Outcome.ret.inj h)
        exact hfit
      · obtain ⟨⟨r, multiVm, cnt⟩, hadd, hret⟩ := Outcome.bind_eq_ret_iff.mp h
        obtain ⟨_, rfl⟩ := Prod.mk.inj (Outcome.ret.inj hret)
        exact put_membersFit hfit (addVmIpList_cnt (Nat.zero_le _) hadd)

theorem sendLoop_of_sentByProxy {buf : Memory} (hmark : sentByProxy buf = true) (env : Env)
    (node : Found) (sendLen : UInt16) (rebuild : Nat → UInt32 → Memory → Memory)
    (countFirst : Bool) (n i : Nat) (st : Stats) :
    ∃ ret, sendLoop env node sendLen rebuild countFirst n i buf st = .ret (ret, st, []) := by
  cases n with
  | zero => exact ⟨0, rfl⟩
  | succ n => exact ⟨-1, by rw [sendLoop, if_pos hmark]⟩

theorem handleIncomingData_of_sentByProxy {s : State} (hfit : MembersFit s) {stack : Memory}
    {pBuf : List UInt8} (hlen : pBuf.length ≤ bufsize)
    (hmark : sentByProxy (stack.copy 0 pBuf) = true) (env : Env) (st : Stats) :
    ∃ ret st', handleIncomingData env s st stack pBuf = .ret (ret, st', []) := by
  unfold handleIncomingData
  simp only
  rw [if_neg (by omega)]
  cases hfound : lookupMultiNode s ((stack.copy 0 pBuf).load32 IpHdr.destaddr) with
  | none => exact ⟨_, _, rfl⟩
  | some node =>
    have hroom := (hfit.iplist hfound).2
    simp only
    rw [if_neg (by omega)]
    split
    · obtain ⟨ret, hret⟩ := sendLoop_of_sentByProxy hmark env node _ _ _ _ _ _
      exact ⟨ret, _, hret⟩
    · split
      · obtain ⟨ret, hret⟩ := sendLoop_of_sentByProxy hmark env node _ _ _ _ _ _
        exact ⟨ret, _, hret⟩
      · exact ⟨_, _, rfl⟩

/-! ## Unmarked packets -/

/-- Each packet that a run sends is rebuilt from what the one before left. -/
theorem sendLoop_rebuilt {env : Env} {node : Found} {sendLen : UInt16}
    {rebuild : Nat → UInt32 → Memory → Memory} {countFirst : Bool} {P : Memory → Prop}
    (hrebuild : ∀ i ip buf, P buf → P (rebuild i ip buf)) {n i : Nat}
    {buf : Memory} (hbuf : P buf) {st st' : Stats} {ret : Int} {sent : List Sent}
    (h : sendLoop env node sendLen rebuild countFirst n i buf st = .ret (ret, st', sent)) {k : Nat}
    {o : Sent} (ho : sent[k]? = some o) :
    ∃ ip buf, node.iplist[i + k]? = some ip ∧ P buf ∧
      o = ⟨ip, htons node.serverPort, (rebuild (i + k) ip buf).bytes 0 sendLen.toNat⟩ := by
  induction n generalizing i buf st st' ret sent k with
  | zero =>
    obtain ⟨_, _, rfl⟩ := Prod.mk.inj (Outcome.ret.inj h)
    cases ho
  | succ n ih =>
    rw [sendLoop] at h
    have hnone : ∀ {ret' st''}, Outcome.ret (ret', st'', []) = Outcome.ret (ret, st', sent) →
        False := by
      intro ret' st'' h
      obtain ⟨_, _, rfl⟩ := Prod.mk.inj (Outcome.ret.inj h)
      cases ho
    split at h
    · exact (hnone h).elim
    · split at h
      · cases h
      · rename_i ip hip
        simp only at h
        split at h
        · exact (hnone h).elim
        · split at h
          · exact (hnone h).elim
          · obtain ⟨⟨ret', st'', rest⟩, hrest, h⟩ := Outcome.bind_eq_ret_iff.mp h
            obtain ⟨_, _, rfl⟩ := Prod.mk.inj (Outcome.ret.inj h)
            cases k with
            | zero =>
              obtain rfl := Option.some.inj ho
              exact ⟨ip, buf, hip, hbuf, rfl⟩
            | succ k =>
              have hnext : i + (k + 1) = i + 1 + k := by omega
              rw [hnext]
              exact ih (hrebuild i ip buf hbuf) hrest ho

def Env.allSucceed : Env := ⟨fun _ => true, fun _ => true, fun _ => true, fun _ => true⟩

theorem exists_group_added (g : UInt32) (serverPort : UInt16) {ips : List UInt32}
    (hips : ips.length ≤ multiVmMax) :
    ∃ code s node, addMultiNode multiNodeInit g 0 serverPort (fun i => ips.getD i 0)
        (UInt8.ofNat ips.length) = .ret (code, s) ∧
      lookupMultiNode s g = some node ∧ node.multiMemberCnt = ips.length ∧
      node.iplist = ips ∧ node.serverPort = serverPort := by
  have hlive : (liveNodes multiNodeInit).card < 256 := by simp
  have hnum : (UInt8.ofNat ips.length).toNat = ips.length :=
    UInt8.toNat_ofNat_of_lt' (Nat.lt_of_le_of_lt hips (by decide))
  have hcells : cells (fun i => ips.getD i 0) ips.length = ips := by
    apply List.ext_getElem
    · exact length_cells _ _
    · intro i hi hi'
      simp [cells, hi']
  obtain ⟨s, hadd, hadded⟩ := addMultiNode_new multiNodeInit_wellFormed (nodeOf_multiNodeInit g)
    (n := 0) (by decide) (by simp [multiNodeInit]) hlive 0 serverPort (fun i => ips.getD i 0)
    (UInt8.ofNat ips.length) (by rwa [hnum])
  rw [hnum, hcells] at hadded
  obtain ⟨row, hrow, hmembers⟩ := hadded.members
  have hlookup := lookupMultiNode_eq (s := s) (g := g)
  rw [hadded.nodes, Function.update_self, Option.map_some] at hlookup
  refine ⟨_, s, _, hadd, hlookup, rfl, ?_, rfl⟩
  have hvm : s.multiVm 0 = row := by rw [hrow, Function.update_self]
  calc
    getVmIpList s 0 ips.length = cells (s.multiVm 0) ips.length := getVmIpList_of_le hips
    _ = cells row ips.length := by rw [hvm]
    _ = ips := hmembers

theorem exists_group_of (g : UInt32) (serverPort : UInt16) {ips : List UInt32}
    (hips : ips.length ≤ multiVmMax) :
    ∃ s node, MembersFit s ∧ lookupMultiNode s g = some node ∧ node.multiMemberCnt = ips.length ∧
      node.iplist = ips ∧ node.serverPort = serverPort := by
  obtain ⟨_, s, node, hadd, hnode⟩ := exists_group_added g serverPort hips
  exact ⟨s, node, addMultiNode_membersFit multiNodeInit_membersFit hadd, hnode⟩

theorem exists_group (g ip : UInt32) :
    ∃ s node, MembersFit s ∧ lookupMultiNode s g = some node ∧ node.multiMemberCnt = 1 ∧
      node.iplist = [ip] := by
  obtain ⟨s, node, hfit, hfound, hcnt, hlist, _⟩ :=
    exists_group_of g 0 (show [ip].length ≤ multiVmMax from Nat.succ_le_of_lt (by decide))
  exact ⟨s, node, hfit, hfound, hcnt, hlist⟩

/-- An unmarked UDP packet of less than 2^15 bytes is sent to the member of a group that has one. -/
theorem handleIncomingData_of_unmarked {s : State} {stack : Memory} {pBuf : List UInt8}
    (hlen : pBuf.length ≤ bufsize) (hmark : sentByProxy (stack.copy 0 pBuf) = false)
    (hudp : stack.copy 0 pBuf IpHdr.protocol = ipprotoUdp)
    (hshort : htons ((stack.copy 0 pBuf).load16 IpHdr.totallength) < 0x8000) {node : Found}
    {ip : UInt32} (hfound : lookupMultiNode s ((stack.copy 0 pBuf).load32 IpHdr.destaddr) = some node)
    (hcnt : node.multiMemberCnt = 1) (hlist : node.iplist = [ip]) (st : Stats) :
    ∃ ret st' sent, handleIncomingData .allSucceed s st stack pBuf = .ret (ret, st', [sent]) ∧
      sent.addr = ip := by
  unfold handleIncomingData
  simp only
  rw [if_neg (by omega), hfound]
  simp only
  rw [if_neg (by simp [hlist]), if_pos hudp, hcnt, sendLoop, hmark, hlist]
  simp only [Bool.false_eq_true, if_false, List.getElem?_cons_zero, Env.allSucceed]
  rw [if_neg (by simp), if_neg (by simp [hshort])]
  exact ⟨_, _, _, rfl, rfl⟩

end MulticastProxy.LinuxServer
