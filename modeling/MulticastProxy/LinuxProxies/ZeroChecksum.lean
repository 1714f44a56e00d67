import MulticastProxy.LinuxClient.Frame
import MulticastProxy.LinuxServer.Copies

/-!
# UDP checksums of zero (`iph.c` of both proxies)

A UDP checksum of zero says that there is none. Neither proxy sends all ones in its place, as the
kernel modules do with `CSUM_MANGLED_0`.
-/

namespace MulticastProxy.LinuxProxies

set_option autoImplicit false

open OnesComplement
open LinuxClient (etherHeaderSize fillBuf)

/-- A datagram behind a whole IP header as a proxy sends it on, whether there was memory for its
sum, and this sum. -/
inductive Emitted : List UInt8 → Bool → Nat → Prop where
  | server {env : LinuxServer.Env} {s : LinuxServer.State} {st st' : LinuxServer.Stats}
      {stack : Memory} {pBuf : List UInt8} {ret : Int} {sent : List LinuxServer.Sent}
      {node : LinuxServer.Found} {i : Nat} {ip : UInt32} {o : LinuxServer.Sent} :
      LinuxServer.handleIncomingData env s st stack pBuf = .ret (ret, st', sent) →
      LinuxServer.lookupMultiNode s ((stack.copy 0 pBuf).load32 IpHdr.destaddr) = some node →
      node.iplist[i]? = some ip → sent[i]? = some o →
      stack.copy 0 pBuf IpHdr.protocol = ipprotoUdp →
      ipHdrSize ≤ ipHdrLen (stack.copy 0 pBuf) 0 →
      Emitted o.bytes (env.malloc i) (LinuxServer.memberSum (stack.copy 0 pBuf) node.serverPort ip)
  | client {env : LinuxClient.Env} {s : LinuxClient.State} {st st' : LinuxClient.Stats}
      {stack : Memory} {pBuf : List UInt8} {ret : Int} {out : List LinuxClient.Output}
      {multiIp : UInt32} {multiPort : UInt16} {index rowId : Nat} {o : LinuxClient.Output}
      {buf : Memory} :
      fillBuf stack pBuf = buf →
      LinuxClient.handleIncomingData env s st stack pBuf = .ret (ret, st', out) →
      LinuxClient.lookupIpPortNode s (buf.load32 (etherHeaderSize + IpHdr.srcaddr))
        (LinuxClient.serverPortOf buf (ipHdrLen buf etherHeaderSize)) =
          .ret (some (multiIp, multiPort, index, rowId)) →
      o ∈ out → buf (etherHeaderSize + IpHdr.protocol) = ipprotoUdp →
      ipHdrSize ≤ ipHdrLen buf etherHeaderSize →
      Emitted o.packet env.malloc (LinuxClient.groupSum buf multiIp multiPort)

/-- The checksum in the bytes that are read from a buffer. -/
theorem word16_checksum {m : Memory} {a n len : Nat} (hlen : ipHdrLen m a = len)
    (hfield : headerLength (m.bytes a n) + 8 ≤ (m.bytes a n).length) :
    word16 (m.bytes a n) (headerLength (m.bytes a n) + UdpHdr.checksum) =
      htons (m.load16 (a + len + UdpHdr.checksum)) := by
  have hoffsets := UdpHdr.offsets
  rw [Memory.length_bytes] at hfield
  rw [headerLength_bytes (by omega), hlen] at hfield ⊢
  rw [word16_bytes (by omega), Nat.add_assoc]

/-- The checksum that is sent is the complement of the sum. -/
theorem Emitted.checksum {packet : List UInt8} {malloc : Bool} {sum : Nat}
    (h : Emitted packet malloc sum) (hfield : headerLength packet + 8 ≤ packet.length) :
    word16 packet (headerLength packet + UdpHdr.checksum) =
      htons (if malloc then complement sum else 0xFFFF) := by
  cases h with
  | server hrun hfound hip ho hudp hheader =>
    obtain ⟨ip', buf, hip', hkept, rfl⟩ := LinuxServer.handleIncomingData_sent hrun hfound hudp ho
    obtain rfl := Option.some.inj (hip.symm.trans hip')
    rw [word16_checksum ((hkept.rebuilt _ _ _).header hheader) hfield, Nat.zero_add,
      LinuxServer.rebuilt_checksum _ _ _ hkept hheader]
  | client hbuf hrun hlookup ho hudp hheader =>
    rw [← hbuf] at hlookup
    obtain ⟨_, hfound⟩ := LinuxClient.handleIncomingData_found hlookup _ _
    rw [hfound, hbuf] at hrun
    obtain ⟨_, _, rfl⟩ := Prod.mk.inj (Outcome.ret.inj hrun)
    rw [LinuxClient.forwarded, if_pos hudp] at ho
    rw [LinuxClient.packet_of_mem_restructPkt ho] at hfield ⊢
    rw [word16_checksum (LinuxClient.rebuiltUdp_ipHdrLen hheader _ _) hfield,
      LinuxClient.rebuiltUdp_checksum hheader]

/-- The checksum is not zero exactly where there was no memory for the sum, or the sum is not all
ones. -/
theorem checksum_nonzero_iff {packet : List UInt8} {malloc : Bool} {sum : Nat}
    (h : Emitted packet malloc sum) (hfield : headerLength packet + 8 ≤ packet.length) :
    word16 packet (headerLength packet + UdpHdr.checksum) ≠ 0 ↔ malloc = false ∨ ¬ Valid sum := by
  have hhtons : ∀ v, htons v = 0 ↔ v = 0 := by
    intro v
    rw [← UInt16.toNat_inj, ← UInt16.toNat_inj, toNat_htons, UInt16.toNat_zero]
    omega
  rw [h.checksum hfield, Ne, hhtons]
  cases malloc with
  | true => simp [complement_eq_zero_iff]
  | false => simp

/-- A server proxy sends a datagram on to 10.0.0.2, the member of a group at port 7000. -/
theorem exists_emitted {packet : List UInt8} (hwf : WellFormedUdp packet)
    (hlen : packet.length ≤ bufsize) (hmark : ¬ LinuxServer.CarriesMark packet) :
    ∃ copy, Emitted copy true
        (LinuxServer.memberSum (Memory.copy (fun _ => 0) 0 packet) 7000 0x0200000a) ∧
      headerLength copy + 8 ≤ copy.length := by
  have hheader := hwf.header
  have htotal := hwf.total
  have hdatagram := hwf.datagram
  have hread := LinuxServer.readAs_copy hwf fun _ => 0
  have hreadHeader := hread.header
  have hreadTotal := hread.total
  obtain ⟨s, node, hfit, hfound, _, hlist, hport⟩ := LinuxServer.exists_group_of
    (inAddr packet IpHdr.destaddr) 7000
    (show [0x0200000a].length ≤ LinuxServer.multiVmMax from Nat.succ_le_of_lt (by decide))
  let env := LinuxServer.Env.allSucceed
  have hcalls : ∀ i, env.socket i = true ∧ env.setsockopt i = true ∧ env.sendto i = true :=
    fun _ => ⟨rfl, rfl, rfl⟩
  obtain ⟨ret, st', sent, hrun, hlength⟩ := LinuxServer.handleIncomingData_all hfit hwf hlen hfound
    hcalls ⟨0, 0, 0, 0⟩ (fun _ => 0) hmark
  have hfirst : 0 < sent.length := by
    rw [hlength, hlist]
    decide
  rw [← LinuxServer.load32_destaddr hwf fun _ => 0] at hfound
  have hsent := List.getElem?_eq_getElem hfirst
  obtain ⟨ip, buf, hip, hkept, ho⟩ :=
    LinuxServer.handleIncomingData_sent hrun hfound hread.protocol hsent
  rw [hlist] at hip
  obtain rfl := Option.some.inj hip
  have hlarge : ipHdrSize ≤ ipHdrLen (Memory.copy (fun _ => 0) 0 packet) 0 := by omega
  refine ⟨sent[0].bytes, ?_, ?_⟩
  · rw [← hport]
    exact Emitted.server hrun hfound (by rw [hlist]; rfl) hsent hread.protocol hlarge
  · rw [ho, Memory.length_bytes, headerLength_bytes (by omega),
      (hkept.rebuilt _ _ _).header hlarge]
    omega

theorem checksum_nonzero_one : ∃ (copy : List UInt8) (sum : Nat), Emitted copy true sum ∧
    headerLength copy + 8 ≤ copy.length ∧
    word16 copy (headerLength copy + UdpHdr.checksum) ≠ 0 := by
  obtain ⟨copy, hcopy, hfield⟩ := exists_emitted LinuxServer.groupPacket_wellFormed (by decide)
    fun h => absurd h.1 (by decide)
  refine ⟨copy, _, hcopy, hfield, (checksum_nonzero_iff hcopy hfield).mpr (Or.inr ?_)⟩
  rw [valid_iff]
  decide

/-- A datagram from 10.0.0.1 to port 7000 of 225.0.0.1 whose two bytes of data make the sum for
10.0.0.2 all ones. -/
def onesPacket : List UInt8 :=
  [0x45, 0, 0, 30, 0, 0, 0, 0, 64, 17, 0, 0, 10, 0, 0, 1, 225, 0, 0, 1,
    0x1b, 0x58, 0x1b, 0x58, 0, 10, 0, 0, 0xb5, 0x27]

theorem not_checksum_nonzero : ¬ ∀ packet malloc sum, Emitted packet malloc sum →
    headerLength packet + 8 ≤ packet.length →
    word16 packet (headerLength packet + UdpHdr.checksum) ≠ 0 := by
  intro h
  have hwf : WellFormedUdp onesPacket := ⟨by decide, by decide, by decide, by decide, by decide⟩
  obtain ⟨copy, hcopy, hfield⟩ := exists_emitted hwf (by decide) fun h => absurd h.1 (by decide)
  have hnot := ((checksum_nonzero_iff hcopy hfield).mp (h copy _ _ hcopy hfield)).resolve_left
    (by decide)
  rw [valid_iff] at hnot
  exact hnot (by decide)

end MulticastProxy.LinuxProxies
