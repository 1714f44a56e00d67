import MulticastProxy.LinuxClient.HandleData
import MulticastProxy.LinuxServer.HandleData

/-!
# Loop prevention between the Linux proxies

What the client proxy sends to a group reaches a server proxy that serves this group. The client
marks its packets with a time to live and an identification, by which the server knows them.
-/

namespace MulticastProxy.LinuxProxies

set_option autoImplicit false

open LinuxClient (Rebuilt etherHeaderSize)
open LinuxServer (sentByProxy MembersFit)

/-- The server's test on a packet that lies at `iph`. -/
def Marked (m : Memory) (iph : Nat) : Prop :=
  0x80 = m (iph + IpHdr.ttl) ∧ 0x1000 = htons (m.load16 (iph + IpHdr.id))

theorem delivered_byte {m : Memory} {iph n : Nat} (hn : ipHdrSize ≤ n) (stack : Memory) {i : Nat}
    (hi : i < ipHdrSize) : stack.copy 0 (recvfrom (m.bytes iph n)) i = m (iph + i) := by
  have hcopy := copy_recvfrom m stack iph 0 (Nat.lt_of_lt_of_le hi hn) hi
  rwa [Nat.zero_add] at hcopy

theorem delivered_load16 {m : Memory} {iph n : Nat} (hn : ipHdrSize ≤ n) (stack : Memory) {i : Nat}
    (hi : i + 1 < ipHdrSize) :
    (stack.copy 0 (recvfrom (m.bytes iph n))).load16 i = m.load16 (iph + i) :=
  Memory.load16_congr (delivered_byte hn stack (Nat.lt_of_succ_lt hi)) (delivered_byte hn stack hi)

theorem sentByProxy_delivered {m : Memory} {iph n : Nat} (hn : ipHdrSize ≤ n) (stack : Memory) :
    sentByProxy (stack.copy 0 (recvfrom (m.bytes iph n))) = true ↔ Marked m iph := by
  unfold sentByProxy Marked
  rw [decide_eq_true_iff, delivered_byte hn stack (by decide),
    delivered_load16 hn stack (by decide)]

/-- The VRRP path writes the mark; the UDP path writes another one, and no overlap of a short IP
header with the UDP header makes up for it. -/
theorem marked_iff {env : LinuxClient.Env} {buf m : Memory} (h : Rebuilt env buf m) :
    Marked m etherHeaderSize ↔ buf (etherHeaderSize + IpHdr.protocol) ≠ ipprotoUdp := by
  cases h with
  | vrrf multiIp hvrrf =>
    rw [hvrrf]
    refine ⟨fun _ => by decide, fun _ => ⟨?_, ?_⟩⟩
    · rw [LinuxClient.rebuildIp_ttl]
    · rw [LinuxClient.rebuildIp_id]
      decide
  | udp multiIp udpLen multiPort hudp =>
    refine ⟨fun ⟨httl, hid⟩ => ?_, fun hne => absurd hudp hne⟩
    exfalso
    obtain ⟨k, hk⟩ : ∃ k, ipHdrLen buf etherHeaderSize = 4 * k := ⟨_, rfl⟩
    rw [hk] at httl hid
    by_cases hover : k = 1 ∨ k = 2
    · rcases hover with rfl | rfl
      · obtain ⟨hlo, hhi⟩ := LinuxClient.rebuildUdp_srcPortno env
          (LinuxClient.rebuildIp (LinuxClient.putEthHdr buf (LinuxClient.multiDhost multiIp))
            (4 * 1) 0x0000 0x4000 0x20 multiIp) (4 * 1) udpLen multiPort
        rw [Memory.load16] at hid
        rw [hlo, hhi] at hid
        exact absurd hid (by decide)
      · obtain ⟨hlo, _⟩ := LinuxClient.rebuildUdp_srcPortno env
          (LinuxClient.rebuildIp (LinuxClient.putEthHdr buf (LinuxClient.multiDhost multiIp))
            (4 * 2) 0x0000 0x4000 0x20 multiIp) (4 * 2) udpLen multiPort
        rw [hlo] at httl
        exact absurd httl (by decide)
    · have hoff : IpHdr.ttl = 8 := rfl
      rw [LinuxClient.rebuildUdp_of_disjoint _ _ _ _ (by omega), LinuxClient.rebuildIp_ttl] at httl
      exact absurd httl (by decide)

/-- A server proxy sees a packet of a proxy. -/
def Recognised (packet : List UInt8) : Prop :=
  ∀ stack : Memory, sentByProxy (stack.copy 0 (recvfrom packet)) = true

/-- No group table has a member to which the packet is sent on. -/
def SentToNobody (packet : List UInt8) : Prop :=
  ∀ env s st stack, MembersFit s → ∃ ret st',
    LinuxServer.handleIncomingData env s st stack (recvfrom packet) = .ret (ret, st', [])

theorem Recognised.sentToNobody {packet : List UInt8} (h : Recognised packet) :
    SentToNobody packet := by
  intro env s st stack hfit
  exact LinuxServer.handleIncomingData_of_sentByProxy hfit (length_recvfrom_le packet) (h stack)
    env st

/-- An unmarked UDP packet of less than 2^15 bytes goes on to the members of its group. -/
theorem not_sentToNobody {m : Memory} {iph n : Nat} (hn : ipHdrSize ≤ n)
    (hunmarked : ¬ Marked m iph) (hudp : m (iph + IpHdr.protocol) = ipprotoUdp)
    (hshort : htons (m.load16 (iph + IpHdr.totallength)) < 0x8000) :
    ¬ SentToNobody (m.bytes iph n) := by
  intro h
  let stack : Memory := fun _ => 0
  let buf := stack.copy 0 (recvfrom (m.bytes iph n))
  obtain ⟨s, node, hfit, hfound, hcnt, hlist⟩ :=
    LinuxServer.exists_group (buf.load32 IpHdr.destaddr) 0
  have hmark : sentByProxy buf = false := by
    rw [← Bool.not_eq_true, sentByProxy_delivered hn]
    exact hunmarked
  obtain ⟨ret, st', sent, hsent, _⟩ := LinuxServer.handleIncomingData_of_unmarked
    (length_recvfrom_le _) hmark (by rw [delivered_byte hn stack (by decide), hudp])
    (by rw [delivered_load16 hn stack (by decide)]; exact hshort) hfound hcnt hlist ⟨0, 0, 0, 0⟩
  obtain ⟨ret', st'', hnone⟩ := h .allSucceed s ⟨0, 0, 0, 0⟩ stack hfit
  rw [hsent] at hnone
  obtain ⟨_, hnone⟩ := Prod.mk.inj (Outcome.ret.inj hnone)
  cases (Prod.mk.inj hnone).2

def LoopPrevented (packet : List UInt8) : Prop := Recognised packet ∧ SentToNobody packet

/-- A packet that leaves the client proxy stops at every server proxy exactly where it is no UDP
packet. A raw socket hands over no packet without a whole IP header. -/
theorem loop_prevented_iff {env : LinuxClient.Env} {s : LinuxClient.State}
    {st st' : LinuxClient.Stats} {stack : Memory} {pBuf : List UInt8} {ret : Int}
    {out : List LinuxClient.Output}
    (h : LinuxClient.handleIncomingData env s st stack pBuf = .ret (ret, st', out))
    {o : LinuxClient.Output} (ho : o ∈ out) (hheader : ipHdrSize ≤ o.packet.length) :
    LoopPrevented o.packet ↔
      LinuxClient.fillBuf stack pBuf (etherHeaderSize + IpHdr.protocol) ≠ ipprotoUdp := by
  obtain ⟨m, n, hrebuilt, hpacket⟩ := LinuxClient.handleIncomingData_out h ho
  rw [hpacket, Memory.length_bytes] at hheader
  rw [hpacket, ← marked_iff hrebuilt]
  constructor
  · rintro ⟨hrecognised, _⟩
    exact (sentByProxy_delivered hheader stack).mp (hrecognised stack)
  · intro hmarked
    have hrecognised : Recognised (m.bytes etherHeaderSize n) :=
      fun stack => (sentByProxy_delivered hheader stack).mpr hmarked
    exact ⟨hrecognised, hrecognised.sentToNobody⟩

/-- The failing case: an ordinary UDP packet goes through the client proxy and on to the members of
its group. -/
theorem udp_sent_on {env : LinuxClient.Env} {s : LinuxClient.State} {st st' : LinuxClient.Stats}
    {stack : Memory} {pBuf : List UInt8} {ret : Int} {out : List LinuxClient.Output}
    (h : LinuxClient.handleIncomingData env s st stack pBuf = .ret (ret, st', out))
    {o : LinuxClient.Output} (ho : o ∈ out) (hheader : ipHdrSize ≤ o.packet.length)
    (hudp : LinuxClient.fillBuf stack pBuf (etherHeaderSize + IpHdr.protocol) = ipprotoUdp)
    (hihl : ipHdrSize ≤ ipHdrLen (LinuxClient.fillBuf stack pBuf) etherHeaderSize)
    (hshort : htons ((LinuxClient.fillBuf stack pBuf).load16
      (etherHeaderSize + IpHdr.totallength)) < 0x8000) :
    ¬ SentToNobody o.packet := by
  obtain ⟨m, n, hrebuilt, hpacket⟩ := LinuxClient.handleIncomingData_out h ho
  rw [hpacket, Memory.length_bytes] at hheader
  rw [hpacket]
  obtain ⟨hprotocol, htotal⟩ := hrebuilt.header hihl
  apply not_sentToNobody hheader
  · rw [marked_iff hrebuilt]
    exact fun hne => hne hudp
  · rw [hprotocol, hudp]
  · rw [htotal]
    exact hshort

/-! ## One packet of each kind -/

/-- The client proxy at 10.0.0.2, where every call succeeds. -/
def clientEnv : LinuxClient.Env where
  alldevs := [⟨"eth0".toList, [0x0200000a]⟩]
  pcapOpenLive := fun _ => true
  pcapSendpacket := true
  write := true
  malloc := true

/-- A datagram without data from 10.0.0.1 to port 7000 of 10.0.0.2. -/
def udpPacket : List UInt8 :=
  [0x45, 0, 0, 28, 0, 0, 0, 0, 64, 17, 0, 0, 10, 0, 0, 1, 10, 0, 0, 2,
    0x1b, 0x58, 0x1b, 0x58, 0, 8, 0, 0]

/-- A VRRP packet from 10.0.0.1 to 10.0.0.2. -/
def vrrpPacket : List UInt8 :=
  [0x45, 0, 0, 20, 0, 0, 0, 0, 64, 112, 0, 0, 10, 0, 0, 1, 10, 0, 0, 2]

/-- Both directions at one packet: a VRRP packet leaves the client proxy and stops. -/
theorem vrrpPacket_stops : ∃ s st' out,
    LinuxClient.handleIncomingData clientEnv s ⟨0, 0, 0⟩ (fun _ => 0) vrrpPacket =
      .ret (1, st', out) ∧ ∃ o ∈ out, LoopPrevented o.packet := by
  obtain ⟨s, index, rowId, hlookup⟩ :=
    LinuxClient.exists_entry 0x0100000a 0x010000e1 (show (7126 : UInt16) ≠ 0 by decide) 5000
  obtain ⟨st', out, hret, o, ho, hlen⟩ := LinuxClient.handleIncomingData_vrrf clientEnv (fun _ => 0)
    vrrpPacket ⟨0, 0, 0⟩ (by decide) hlookup rfl rfl
  have htotal : htons ((LinuxClient.fillBuf (fun _ => 0) vrrpPacket).load16
      (etherHeaderSize + IpHdr.totallength)) = 20 := by decide
  rw [htotal] at hlen
  exact ⟨s, st', out, hret, o, ho,
    (loop_prevented_iff hret ho (Nat.le_of_eq hlen.symm)).mpr (by decide)⟩

/-- A UDP packet leaves the client proxy and goes on to the members of its group. -/
theorem not_loop_prevented : ¬ ∀ env s st stack pBuf ret st' out,
    LinuxClient.handleIncomingData env s st stack pBuf = .ret (ret, st', out) →
    ∀ o ∈ out, ipHdrSize ≤ o.packet.length → LoopPrevented o.packet := by
  intro h
  obtain ⟨s, index, rowId, hlookup⟩ :=
    LinuxClient.exists_entry 0x0100000a 0x010000e1 (show (7000 : UInt16) ≠ 0 by decide) 5000
  obtain ⟨st', out, hret, o, ho, hlen⟩ := LinuxClient.handleIncomingData_udp clientEnv (fun _ => 0)
    udpPacket ⟨0, 0, 0⟩ (by decide) hlookup rfl rfl rfl
  have htotal : htons ((LinuxClient.fillBuf (fun _ => 0) udpPacket).load16
      (etherHeaderSize + IpHdr.totallength)) = 28 := by decide
  rw [htotal] at hlen
  have hheader : ipHdrSize ≤ o.packet.length := by
    rw [hlen]
    decide
  exact udp_sent_on hret ho hheader (by decide) (by decide) (by decide)
    (h _ _ _ _ _ _ _ _ hret o ho hheader).2

end MulticastProxy.LinuxProxies
