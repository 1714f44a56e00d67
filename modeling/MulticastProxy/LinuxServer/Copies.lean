import MulticastProxy.Common.Wire
import MulticastProxy.LinuxServer.FanOut

/-!
# Linux server proxy: the copies (`server_proxy/handleIncomeData.c`, `server_proxy/iph.c`)

All copies of a datagram are made in one buffer, each from what the one before left there.
-/

namespace MulticastProxy.LinuxServer

set_option autoImplicit false

open OnesComplement

/-! ## The checksum routines -/

theorem foldCarries_eq (n : Nat) : foldCarries n = fold n := by
  induction n using foldCarries.induct with
  | case1 n h => rw [foldCarries, if_pos h, fold, if_pos h]
  | case2 n h ih =>
    have hfold : fold n = fold (n % 65536 + n / 65536) := by rw [fold, if_neg h]
    rw [foldCarries, if_neg h, ih, Nat.add_comm, hfold]

theorem checksum_eq (m : Memory) (a n : Nat) : checksum m a n = complement (wordSum m a n) := by
  rw [checksum, foldCarries_eq]
  rfl

theorem udpChecksum_eq (m : Memory) (iph iphLen : Nat) (udpLen : UInt16) :
    udpChecksum true m iph iphLen udpLen.toNat =
      complement (udpWords (m.load32 (iph + IpHdr.srcaddr)) (m.load32 (iph + IpHdr.destaddr))
        (htons udpLen) m (iph + iphLen) udpLen.toNat) := by
  rw [udpChecksum, if_pos rfl, checksum_eq, wordSum_udpPsd, UInt16.ofNat_toNat]

/-! ## What a copy keeps -/

/-- The fields that are written anew. -/
def Rewritten (iphLen a : Nat) : Prop :=
  a = IpHdr.ttl ∨ (IpHdr.checksum ≤ a ∧ a < IpHdr.checksum + 2) ∨
    (IpHdr.destaddr ≤ a ∧ a < IpHdr.destaddr + 4) ∨
    (iphLen + UdpHdr.destPortno ≤ a ∧ a < iphLen + UdpHdr.destPortno + 2) ∨
    (iphLen + UdpHdr.checksum ≤ a ∧ a < iphLen + UdpHdr.checksum + 2)

/-- All else in the buffer is as it was. -/
def Kept (orig buf : Memory) : Prop := ∀ a, ¬ Rewritten (ipHdrLen orig 0) a → buf a = orig a

variable {orig buf : Memory}

theorem Kept.refl (buf : Memory) : Kept buf buf := fun _ _ => rfl

theorem Kept.header (h : Kept orig buf) (hheader : ipHdrSize ≤ ipHdrLen orig 0) :
    ipHdrLen buf 0 = ipHdrLen orig 0 := by
  have hoffsets := IpHdr.offsets
  have hports := UdpHdr.offsets
  have hverlen : IpHdr.verlen = 0 := rfl
  have hsize : ipHdrSize = 20 := rfl
  have hfirst : buf (0 + IpHdr.verlen) = orig (0 + IpHdr.verlen) := by
    apply h
    unfold Rewritten
    omega
  rw [ipHdrLen, hfirst, ipHdrLen]

theorem rebuildIp_of_disjoint (iphLen : Nat) (sendLen : UInt16) (ip : UInt32) (buf : Memory)
    {a : Nat} (htotal : a < IpHdr.totallength ∨ IpHdr.totallength + 2 ≤ a) (httl : a ≠ IpHdr.ttl)
    (hchecksum : a < IpHdr.checksum ∨ IpHdr.checksum + 2 ≤ a)
    (hdest : a < IpHdr.destaddr ∨ IpHdr.destaddr + 4 ≤ a) :
    rebuildIp iphLen sendLen ip buf a = buf a := by
  unfold rebuildIp
  rw [Memory.store16_of_disjoint hchecksum, Memory.store16_of_disjoint htotal,
    Memory.store8_of_ne httl, Memory.store16_of_disjoint hchecksum,
    Memory.store32_of_disjoint hdest]

theorem rebuildIp_totallength (iphLen : Nat) (sendLen : UInt16) (ip : UInt32) (buf : Memory) :
    (rebuildIp iphLen sendLen ip buf).load16 IpHdr.totallength = htons sendLen := by
  unfold rebuildIp
  rw [Memory.load16_congr (Memory.store16_of_disjoint (by decide))
    (Memory.store16_of_disjoint (by decide)), Memory.load16_store16]

theorem rebuildIp_ttl (iphLen : Nat) (sendLen : UInt16) (ip : UInt32) (buf : Memory) :
    rebuildIp iphLen sendLen ip buf IpHdr.ttl = 127 := by
  unfold rebuildIp
  rw [Memory.store16_of_disjoint (by decide), Memory.store16_of_disjoint (by decide),
    Memory.store8_self]

theorem rebuildIp_destaddr (iphLen : Nat) (sendLen : UInt16) (ip : UInt32) (buf : Memory) :
    (rebuildIp iphLen sendLen ip buf).load32 IpHdr.destaddr = ip := by
  have hoffsets := IpHdr.offsets
  have hcells : ∀ i < 4, rebuildIp iphLen sendLen ip buf (IpHdr.destaddr + i) =
      buf.store32 IpHdr.destaddr ip (IpHdr.destaddr + i) := by
    intro i hi
    unfold rebuildIp
    rw [Memory.store16_of_disjoint (by omega), Memory.store16_of_disjoint (by omega),
      Memory.store8_of_ne (by omega), Memory.store16_of_disjoint (by omega)]
  rw [Memory.load32_congr hcells, Memory.load32_store32]

/-- The header checksum is computed over a zero in its place. -/
theorem rebuildIp_valid {iphLen : Nat} (hheader : ipHdrSize ≤ iphLen) (sendLen : UInt16)
    (ip : UInt32) (buf : Memory) : Valid (wordSum (rebuildIp iphLen sendLen ip buf) 0 iphLen) := by
  have hsize : ipHdrSize = 20 := rfl
  unfold rebuildIp
  simp only
  generalize hm : (((buf.store32 IpHdr.destaddr ip).store16 IpHdr.checksum 0).store8 IpHdr.ttl
    127).store16 IpHdr.totallength (htons sendLen) = m
  have hzero : m.load16 IpHdr.checksum = 0 := by
    rw [← hm, Memory.load16_congr (Memory.store16_of_disjoint (by decide))
      (Memory.store16_of_disjoint (by decide)), Memory.load16_congr
      (Memory.store8_of_ne (by decide)) (Memory.store8_of_ne (by decide)), Memory.load16_store16]
  have hstore := wordSum_store16 (m := m) (a := 0) (k := 5) (n := iphLen) (checksum m 0 iphLen)
    (by omega)
  have hoffset : 0 + 2 * 5 = IpHdr.checksum := rfl
  rw [hoffset, hzero, UInt16.toNat_zero, Nat.add_zero] at hstore
  rw [hstore, checksum_eq]
  exact valid_add_complement _

theorem Kept.rebuildIp (h : Kept orig buf) (ip : UInt32) :
    Kept orig (rebuildIp (ipHdrLen orig 0) (totalLen orig) ip buf) := by
  have hoffsets := IpHdr.offsets
  intro a ha
  by_cases htotal : a < IpHdr.totallength ∨ IpHdr.totallength + 2 ≤ a
  · unfold Rewritten at ha
    rw [rebuildIp_of_disjoint _ _ _ _ htotal (by omega) (by omega) (by omega)]
    exact h a ha
  · have hlength := rebuildIp_totallength (ipHdrLen orig 0) (totalLen orig) ip buf
    rw [htons_htons] at hlength
    obtain ⟨hlo, hhi⟩ := Memory.toUInt8_load16 (m := orig) (a := IpHdr.totallength)
    obtain ⟨hlo', hhi'⟩ := Memory.toUInt8_load16 (a := IpHdr.totallength)
      (m := LinuxServer.rebuildIp (ipHdrLen orig 0) (totalLen orig) ip buf)
    rw [hlength] at hlo' hhi'
    obtain rfl | rfl : a = IpHdr.totallength ∨ a = IpHdr.totallength + 1 := by omega
    · exact hlo'.symm.trans hlo
    · exact hhi'.symm.trans hhi

theorem Kept.rebuildUdp (h : Kept orig buf) (malloc : Bool) (serverPort : UInt16) :
    Kept orig (rebuildUdp malloc (ipHdrLen orig 0) (udpLenOf orig) serverPort buf) := by
  have hoffsets := UdpHdr.offsets
  intro a ha
  by_cases hdisjoint : a < ipHdrLen orig 0 + 2 ∨ ipHdrLen orig 0 + 8 ≤ a
  · rw [rebuildUdp_of_disjoint _ _ _ _ _ hdisjoint]
    exact h a ha
  · obtain ⟨hlo, hhi⟩ := rebuildUdp_length malloc (ipHdrLen orig 0) (udpLenOf orig) serverPort buf
    rw [htons_htons] at hlo hhi
    obtain ⟨hlo', hhi'⟩ := Memory.toUInt8_load16 (m := orig)
      (a := ipHdrLen orig 0 + UdpHdr.length)
    unfold Rewritten at ha
    obtain rfl | rfl : a = ipHdrLen orig 0 + 4 ∨ a = ipHdrLen orig 0 + 4 + 1 := by omega
    · exact hlo.trans hlo'
    · exact hhi.trans hhi'

/-! ## The copy for one member -/

/-- The datagram for one member, made from what is in the buffer. -/
def rebuilt (malloc : Bool) (orig : Memory) (serverPort : UInt16) (ip : UInt32) (buf : Memory) :
    Memory :=
  rebuildUdp malloc (ipHdrLen orig 0) (udpLenOf orig) serverPort
    (rebuildIp (ipHdrLen orig 0) (totalLen orig) ip buf)

/-- The same where the UDP checksum is computed: zero in its place, all else as it is sent. -/
def unsummed (orig : Memory) (serverPort : UInt16) (ip : UInt32) (buf : Memory) : Memory :=
  let buf := rebuildIp (ipHdrLen orig 0) (totalLen orig) ip buf
  let buf := buf.store16 (ipHdrLen orig 0 + UdpHdr.checksum) 0
  let buf := buf.store16 (ipHdrLen orig 0 + UdpHdr.destPortno) (htons serverPort)
  buf.store16 (ipHdrLen orig 0 + UdpHdr.length) (htons (udpLenOf orig))

theorem rebuilt_eq (malloc : Bool) (serverPort : UInt16) (ip : UInt32) :
    rebuilt malloc orig serverPort ip buf =
      (unsummed orig serverPort ip buf).store16 (ipHdrLen orig 0 + UdpHdr.checksum)
        (udpChecksum malloc (unsummed orig serverPort ip buf) 0 (ipHdrLen orig 0)
          (udpLenOf orig).toNat) := rfl

theorem Kept.rebuilt (h : Kept orig buf) (malloc : Bool) (serverPort : UInt16) (ip : UInt32) :
    Kept orig (rebuilt malloc orig serverPort ip buf) := (h.rebuildIp ip).rebuildUdp malloc serverPort

theorem SameMark.rebuilt (h : SameMark orig buf) (malloc : Bool) (serverPort : UInt16)
    (ip : UInt32) : SameMark orig (rebuilt malloc orig serverPort ip buf) :=
  (h.rebuildIp _ _ _).rebuildUdp _ ⟨_, rfl⟩ _ (htons_htons _)

/-- The sum over the member's datagram before it has a checksum. -/
def memberSum (orig : Memory) (serverPort : UInt16) (ip : UInt32) : Nat :=
  plainSum orig (orig.load32 IpHdr.srcaddr) ip
    (htons (orig.load16 (ipHdrLen orig 0 + UdpHdr.srcPortno))) serverPort (ipHdrLen orig 0)
    (udpLenOf orig).toNat

section
variable (malloc : Bool) (serverPort : UInt16) (ip : UInt32)

theorem rebuilt_destPortno :
    (rebuilt malloc orig serverPort ip buf).load16 (ipHdrLen orig 0 + UdpHdr.destPortno) =
      htons serverPort := by
  have hoffsets := UdpHdr.offsets
  unfold rebuilt rebuildUdp
  rw [Memory.load16_congr (Memory.store16_of_disjoint (by omega))
    (Memory.store16_of_disjoint (by omega)), Memory.load16_congr
    (Memory.store16_of_disjoint (by omega)) (Memory.store16_of_disjoint (by omega)),
    Memory.load16_store16]

theorem rebuilt_before {a : Nat} (ha : a < ipHdrLen orig 0) :
    rebuilt malloc orig serverPort ip buf a =
      rebuildIp (ipHdrLen orig 0) (totalLen orig) ip buf a :=
  rebuildUdp_of_disjoint _ _ _ _ _ (Or.inl (by omega))

theorem rebuilt_ip_valid (hheader : ipHdrSize ≤ ipHdrLen orig 0) :
    Valid (wordSum (rebuilt malloc orig serverPort ip buf) 0 (ipHdrLen orig 0)) := by
  have hsame : wordSum (rebuilt malloc orig serverPort ip buf) 0 (ipHdrLen orig 0) =
      wordSum (rebuildIp (ipHdrLen orig 0) (totalLen orig) ip buf) 0 (ipHdrLen orig 0) := by
    apply wordSum_congr
    intro i hi
    exact rebuilt_before _ _ _ (by omega)
  rw [hsame]
  exact rebuildIp_valid hheader _ _ _

theorem rebuilt_destaddr (hheader : ipHdrSize ≤ ipHdrLen orig 0) :
    (rebuilt malloc orig serverPort ip buf).load32 IpHdr.destaddr = ip := by
  have hoffsets := IpHdr.offsets
  have hsize : ipHdrSize = 20 := rfl
  have hcells : ∀ i < 4, rebuilt malloc orig serverPort ip buf (IpHdr.destaddr + i) =
      rebuildIp (ipHdrLen orig 0) (totalLen orig) ip buf (IpHdr.destaddr + i) := by
    intro i hi
    exact rebuilt_before _ _ _ (by omega)
  rw [Memory.load32_congr hcells, rebuildIp_destaddr]

theorem rebuilt_ttl (hheader : ipHdrSize ≤ ipHdrLen orig 0) :
    rebuilt malloc orig serverPort ip buf IpHdr.ttl = 127 := by
  have hlt : IpHdr.ttl < ipHdrLen orig 0 := Nat.lt_of_lt_of_le (by decide) hheader
  rw [rebuilt_before _ _ _ hlt, rebuildIp_ttl]

/-- In front of the datagram lies the IP header. -/
theorem unsummed_before {a : Nat} (ha : a < ipHdrLen orig 0) :
    unsummed orig serverPort ip buf a = rebuildIp (ipHdrLen orig 0) (totalLen orig) ip buf a := by
  have hports := UdpHdr.offsets
  unfold unsummed
  rw [Memory.store16_of_disjoint (by omega), Memory.store16_of_disjoint (by omega),
    Memory.store16_of_disjoint (by omega)]

theorem unsummed_srcaddr (h : Kept orig buf) (hheader : ipHdrSize ≤ ipHdrLen orig 0) :
    (unsummed orig serverPort ip buf).load32 IpHdr.srcaddr = orig.load32 IpHdr.srcaddr := by
  have hoffsets := IpHdr.offsets
  have hports := UdpHdr.offsets
  have hsize : ipHdrSize = 20 := rfl
  apply Memory.load32_congr
  intro i hi
  rw [unsummed_before _ _ (by omega)]
  apply h.rebuildIp ip
  unfold Rewritten
  omega

theorem unsummed_destaddr (hheader : ipHdrSize ≤ ipHdrLen orig 0) :
    (unsummed orig serverPort ip buf).load32 IpHdr.destaddr = ip := by
  have hoffsets := IpHdr.offsets
  have hsize : ipHdrSize = 20 := rfl
  rw [Memory.load32_congr fun i hi => unsummed_before _ _ (by omega), rebuildIp_destaddr]

theorem unsummed_checksum :
    (unsummed orig serverPort ip buf).load16 (ipHdrLen orig 0 + UdpHdr.checksum) = 0 := by
  have hports := UdpHdr.offsets
  unfold unsummed
  rw [Memory.load16_congr (Memory.store16_of_disjoint (by omega))
    (Memory.store16_of_disjoint (by omega)), Memory.load16_congr
    (Memory.store16_of_disjoint (by omega)) (Memory.store16_of_disjoint (by omega)),
    Memory.load16_store16]

/-- The length is written as it was received. -/
theorem wordSum_unsummed (h : Kept orig buf) (hheader : ipHdrSize ≤ ipHdrLen orig 0) (n : Nat) :
    wordSum (unsummed orig serverPort ip buf) (ipHdrLen orig 0) n =
      wordSum ((orig.store16 (ipHdrLen orig 0 + UdpHdr.destPortno) (htons serverPort)).store16
        (ipHdrLen orig 0 + UdpHdr.checksum) 0) (ipHdrLen orig 0) n := by
  have hoffsets := IpHdr.offsets
  have hports := UdpHdr.offsets
  have hsize : ipHdrSize = 20 := rfl
  apply wordSum_congr
  intro i hi
  unfold unsummed
  rw [htons_htons, Memory.store16_comm (a := ipHdrLen orig 0 + UdpHdr.checksum) (by omega),
    Memory.store16_comm (a := ipHdrLen orig 0 + UdpHdr.checksum) (by omega)]
  apply Memory.store16_congr
  intro hchecksum
  rw [Memory.store16_comm (a := ipHdrLen orig 0 + UdpHdr.destPortno) (by omega)]
  apply Memory.store16_congr
  intro hport
  conv_rhs => rw [← Memory.store16_load16 (m := orig) (a := ipHdrLen orig 0 + UdpHdr.length)]
  apply Memory.store16_congr
  intro _
  apply h.rebuildIp ip
  unfold Rewritten
  omega

theorem udpWords_unsummed (h : Kept orig buf) (hheader : ipHdrSize ≤ ipHdrLen orig 0) :
    udpWords ((unsummed orig serverPort ip buf).load32 IpHdr.srcaddr)
        ((unsummed orig serverPort ip buf).load32 IpHdr.destaddr) (htons (udpLenOf orig))
        (unsummed orig serverPort ip buf) (ipHdrLen orig 0) (udpLenOf orig).toNat =
      memberSum orig serverPort ip := by
  rw [unsummed_srcaddr _ _ h hheader, unsummed_destaddr _ _ hheader, memberSum, plainSum, udpWords,
    udpWords, wordSum_unsummed _ _ h hheader, htons_htons, htons_htons, Memory.store16_load16]

/-- Without memory for the sum the checksum is all ones. -/
theorem rebuilt_store (h : Kept orig buf) (hheader : ipHdrSize ≤ ipHdrLen orig 0) :
    rebuilt malloc orig serverPort ip buf =
      (unsummed orig serverPort ip buf).store16 (ipHdrLen orig 0 + UdpHdr.checksum)
        (if malloc then complement (memberSum orig serverPort ip) else 0xFFFF) := by
  rw [rebuilt_eq]
  cases malloc with
  | true =>
    have hsum := udpWords_unsummed serverPort ip h hheader
    rw [udpChecksum_eq, if_pos rfl]
    simp only [Nat.zero_add]
    rw [hsum]
  | false => rfl

theorem rebuilt_checksum (h : Kept orig buf) (hheader : ipHdrSize ≤ ipHdrLen orig 0) :
    (rebuilt malloc orig serverPort ip buf).load16 (ipHdrLen orig 0 + UdpHdr.checksum) =
      if malloc then complement (memberSum orig serverPort ip) else 0xFFFF := by
  rw [rebuilt_store _ _ _ h hheader, Memory.load16_store16]

theorem rebuilt_udp_valid (h : Kept orig buf) (hheader : ipHdrSize ≤ ipHdrLen orig 0)
    (hdatagram : 8 ≤ (udpLenOf orig).toNat) {m : Memory}
    (hm : rebuilt malloc orig serverPort ip buf = m) :
    Valid (udpWords (m.load32 IpHdr.srcaddr) (m.load32 IpHdr.destaddr) (htons (udpLenOf orig)) m
      (ipHdrLen orig 0) (udpLenOf orig).toNat) ↔
        malloc = true ∨ Valid (memberSum orig serverPort ip) := by
  have hoffsets := IpHdr.offsets
  have hsize : ipHdrSize = 20 := rfl
  have hstore := rebuilt_store malloc serverPort ip h hheader
  rw [hm] at hstore
  have haddr : ∀ a, a = IpHdr.srcaddr ∨ a = IpHdr.destaddr →
      m.load32 a = (unsummed orig serverPort ip buf).load32 a := by
    intro a ha
    rw [hstore]
    apply Memory.load32_congr
    intro i hi
    exact Memory.store16_of_disjoint (Or.inl (by omega))
  rw [haddr _ (Or.inl rfl), haddr _ (Or.inr rfl), hstore,
    udpWords_store16 hdatagram (unsummed_checksum _ _), udpWords_unsummed _ _ h hheader]
  cases malloc with
  | true => simp [valid_add_complement]
  | false =>
    simp only [Bool.false_eq_true, if_false, false_or]
    exact valid_add_ones plainSum_pos

end

/-! ## The run -/

section
variable {env : Env} {node : Found} {sendLen : UInt16} {rebuild : Nat → UInt32 → Memory → Memory}
  {countFirst : Bool} {P : Memory → Prop}

/-- Where every call succeeds, each member is sent a packet. -/
theorem sendLoop_all (countFirst : Bool) (hcalls : ∀ i, env.OwnCalls sendLen i)
    (hunmarked : ∀ buf, P buf → sentByProxy buf = false)
    (hrebuild : ∀ i ip buf, P buf → P (rebuild i ip buf)) {n i : Nat}
    (hroom : i + n ≤ node.iplist.length) {buf : Memory} (hbuf : P buf) (st : Stats) :
    ∃ ret st' sent, sendLoop env node sendLen rebuild countFirst n i buf st =
      .ret (ret, st', sent) ∧ sent.length = n := by
  induction n generalizing i buf st with
  | zero => exact ⟨_, _, _, rfl, rfl⟩
  | succ n ih =>
    obtain ⟨hsocket, hopt, hsend, hlen⟩ := hcalls i
    have hi : i < node.iplist.length := by omega
    rw [sendLoop, if_neg (by simp [hunmarked buf hbuf]), List.getElem?_eq_getElem hi]
    simp only
    rw [if_neg (by simp [hsocket, hopt]), if_neg (by simpa [hsend] using hlen)]
    have hwithin : i + 1 + n ≤ node.iplist.length := by omega
    obtain ⟨ret, st', sent, hrest, hlength⟩ := ih hwithin
      (hrebuild i node.iplist[i] buf hbuf)
      { st with gforwardPointPkt := st.gforwardPointPkt + 1 }
    rw [hrest]
    exact ⟨_, _, _, rfl, by rw [List.length_cons, hlength]⟩

end

/-- The UDP path, from the buffer that the packet is copied to. -/
theorem handleIncomingData_eq {s : State} (hfit : MembersFit s) {stack : Memory} {pBuf : List UInt8}
    (hlen : pBuf.length ≤ bufsize) {node : Found}
    (hfound : lookupMultiNode s ((stack.copy 0 pBuf).load32 IpHdr.destaddr) = some node)
    (hudp : stack.copy 0 pBuf IpHdr.protocol = ipprotoUdp) (env : Env) (st : Stats) :
    ∃ st', handleIncomingData env s st stack pBuf =
      sendLoop env node (totalLen (stack.copy 0 pBuf))
        (fun i ip buf => rebuilt (env.malloc i) (stack.copy 0 pBuf) node.serverPort ip buf) true
        node.multiMemberCnt 0 (stack.copy 0 pBuf) st' := by
  obtain ⟨_, hroom⟩ := hfit.iplist hfound
  unfold handleIncomingData
  simp only
  rw [if_neg (by omega), hfound]
  simp only
  rw [if_neg (by omega), if_pos hudp]
  exact ⟨_, rfl⟩

/-- Whatever the calls answer, what is sent is rebuilt from the packet. -/
theorem handleIncomingData_sent {env : Env} {s : State} {st st' : Stats} {stack : Memory}
    {pBuf : List UInt8} {ret : Int} {sent : List Sent}
    (h : handleIncomingData env s st stack pBuf = .ret (ret, st', sent)) {node : Found}
    (hfound : lookupMultiNode s ((stack.copy 0 pBuf).load32 IpHdr.destaddr) = some node)
    (hudp : stack.copy 0 pBuf IpHdr.protocol = ipprotoUdp) {i : Nat} {o : Sent}
    (ho : sent[i]? = some o) :
    ∃ ip buf, node.iplist[i]? = some ip ∧ Kept (stack.copy 0 pBuf) buf ∧
      o = ⟨ip, htons node.serverPort,
        (rebuilt (env.malloc i) (stack.copy 0 pBuf) node.serverPort ip buf).bytes 0
          (totalLen (stack.copy 0 pBuf)).toNat⟩ := by
  unfold handleIncomingData at h
  simp only at h
  rw [hfound] at h
  simp only [hudp, if_true] at h
  split at h
  · cases h
  · split at h
    · cases h
    · have hkept : ∀ i ip buf, Kept (stack.copy 0 pBuf) buf → Kept (stack.copy 0 pBuf)
          (rebuilt (env.malloc i) (stack.copy 0 pBuf) node.serverPort ip buf) :=
        fun i ip buf hbuf => hbuf.rebuilt _ _ _
      have hrebuilt := sendLoop_rebuilt hkept (Kept.refl _) h ho
      rwa [Nat.zero_add] at hrebuilt

/-! ## Copies -/

/-- The mark of a proxy. -/
def CarriesMark (packet : List UInt8) : Prop :=
  packet.getD IpHdr.ttl 0 = 0x80 ∧ word16 packet IpHdr.id = 0x1000

/-- A datagram as it is to reach one member. -/
structure IsCopy (packet : List UInt8) (serverPort : UInt16) (ip : UInt32) (o : Sent) : Prop where
  addr : o.addr = ip
  port : o.port = htons serverPort
  length : o.bytes.length = totalLength packet
  kept : ∀ a < totalLength packet, ¬ Rewritten (headerLength packet) a →
    o.bytes.getD a 0 = packet.getD a 0
  destaddr : inAddr o.bytes IpHdr.destaddr = ip
  ttl : o.bytes.getD IpHdr.ttl 0 = 127
  destPortno : word16 o.bytes (headerLength packet + UdpHdr.destPortno) = serverPort
  ipVerifies : IpVerifies o.bytes
  udpVerifies : UdpVerifies o.bytes

/-- Nothing is sent of a marked packet, and of any other one copy for each member, in order. -/
def FansOut (env : Env) (s : State) (st : Stats) (stack : Memory) (packet : List UInt8)
    (node : Found) : Prop :=
  ∃ ret st' sent, handleIncomingData env s st stack packet = .ret (ret, st', sent) ∧
    (CarriesMark packet ∧ sent = [] ∨
      ¬ CarriesMark packet ∧ List.Forall₂ (IsCopy packet node.serverPort) node.iplist sent)

variable {packet : List UInt8}

/-- The fields are read from the buffer as they were received. -/
structure ReadAs (packet : List UInt8) (buf : Memory) : Prop where
  byte : ∀ a < packet.length, buf a = packet.getD a 0
  protocol : buf IpHdr.protocol = ipprotoUdp
  header : ipHdrLen buf 0 = headerLength packet
  total : (totalLen buf).toNat = totalLength packet
  datagram : (udpLenOf buf).toNat = udpLength packet
  mark : sentByProxy buf = true ↔ CarriesMark packet

theorem readAs_copy (h : WellFormedUdp packet) (stack : Memory) :
    ReadAs packet (stack.copy 0 packet) := by
  have hoffsets := IpHdr.offsets
  have hudp := UdpHdr.offsets
  have hsize : ipHdrSize = 20 := rfl
  obtain ⟨hprotocol, hheader, hdatagram, htotal, hreceived⟩ := h
  have hbyte : ∀ a < packet.length, stack.copy 0 packet a = packet.getD a 0 := by
    intro a ha
    rw [← copy_getD (a := 0) stack ha, Nat.zero_add]
  have hword : ∀ a, a + 1 < packet.length →
      word16 packet a = htons ((stack.copy 0 packet).load16 a) := by
    intro a ha
    rw [word16_copy (a := 0) stack ha, Nat.zero_add]
  have hlen : ipHdrLen (stack.copy 0 packet) 0 = headerLength packet :=
    (headerLength_copy stack (by omega)).symm
  refine ⟨hbyte, ?_, hlen, ?_, ?_, ?_⟩
  · rw [hbyte _ (by omega), hprotocol]
  · rw [totalLength, hword _ (by omega)]
  · rw [udpLength, hword _ (by omega), ← hlen]
  · unfold sentByProxy CarriesMark
    rw [decide_eq_true_iff, hbyte _ (by omega), hword _ (by omega), eq_comm,
      eq_comm (a := (0x1000 : UInt16))]

/-- The UDP checksum of a copy is that of the datagram with its new port and address. -/
theorem udpVerifies_rebuilt (h : WellFormedUdp packet) {orig : Memory} (hread : ReadAs packet orig)
    {buf : Memory} (hkept : Kept orig buf) (malloc : Bool) (serverPort : UInt16) (ip : UInt32) :
    UdpVerifies ((rebuilt malloc orig serverPort ip buf).bytes 0 (totalLen orig).toNat) ↔
      malloc = true ∨ Valid (memberSum orig serverPort ip) := by
  have hoffsets := IpHdr.offsets
  have hudp := UdpHdr.offsets
  have hsize : ipHdrSize = 20 := rfl
  obtain ⟨_, hheader, hdatagram, htotal, _⟩ := h
  obtain ⟨_, _, hreadHeader, hreadTotal, hreadDatagram, _⟩ := hread
  have hlarge : ipHdrSize ≤ ipHdrLen orig 0 := by omega
  have hkept' := hkept.rebuilt malloc serverPort ip
  have hvalid := rebuilt_udp_valid malloc serverPort ip hkept hlarge (by omega) rfl
  generalize rebuilt malloc orig serverPort ip buf = m at hkept' hvalid ⊢
  have hfirst : ipHdrLen m 0 = ipHdrLen orig 0 := hkept'.header hlarge
  have hlength : m.load16 (0 + ipHdrLen m 0 + UdpHdr.length) = htons (udpLenOf orig) := by
    rw [Nat.zero_add, hfirst, htons_htons]
    apply Memory.load16_congr
    · apply hkept'
      unfold Rewritten
      omega
    · apply hkept'
      unfold Rewritten
      omega
  rw [← hfirst] at hvalid
  have hbytes := udpVerifies_bytes (a := 0) (n := (totalLen orig).toNat) (by omega) (by omega)
    (by omega) hlength
  simp only [Nat.zero_add] at hbytes
  exact hbytes.trans hvalid

/-- What is sent to a member is its copy exactly where its UDP checksum is right. -/
theorem isCopy_rebuilt (h : WellFormedUdp packet) {orig : Memory} (hread : ReadAs packet orig)
    {buf : Memory} (hkept : Kept orig buf) (malloc : Bool) (serverPort : UInt16) (ip : UInt32) :
    IsCopy packet serverPort ip ⟨ip, htons serverPort,
        (rebuilt malloc orig serverPort ip buf).bytes 0 (totalLen orig).toNat⟩ ↔
      malloc = true ∨ Valid (memberSum orig serverPort ip) := by
  have hoffsets := IpHdr.offsets
  have hudp := UdpHdr.offsets
  have hsize : ipHdrSize = 20 := rfl
  have hverifies := udpVerifies_rebuilt h hread hkept malloc serverPort ip
  obtain ⟨_, hheader, hdatagram, htotal, hreceived⟩ := h
  obtain ⟨hbyte, _, hreadHeader, hreadTotal, hreadDatagram, _⟩ := hread
  have hlarge : ipHdrSize ≤ ipHdrLen orig 0 := by omega
  have hkept' := hkept.rebuilt malloc serverPort ip
  constructor
  · intro hcopy
    exact hverifies.mp hcopy.udpVerifies
  · intro hgood
    refine ⟨rfl, rfl, ?_, ?_, ?_, ?_, ?_, ?_, hverifies.mpr hgood⟩
    · rw [Memory.length_bytes, hreadTotal]
    · intro a ha hnot
      rw [getD_bytes (by omega), Nat.zero_add, hkept' a (by rwa [hreadHeader]), hbyte a (by omega)]
    · rw [inAddr_bytes (by omega), Nat.zero_add, rebuilt_destaddr _ _ _ hlarge]
    · rw [getD_bytes (by omega), Nat.zero_add, rebuilt_ttl _ _ _ hlarge]
    · rw [word16_bytes (by omega), Nat.zero_add, ← hreadHeader, rebuilt_destPortno, htons_htons]
    · have hfirst := hkept'.header hlarge
      apply (ipVerifies_bytes (by omega) (by omega)).mpr
      rw [hfirst]
      exact rebuilt_ip_valid _ _ _ hlarge

theorem load32_destaddr (hwf : WellFormedUdp packet) (stack : Memory) :
    (stack.copy 0 packet).load32 IpHdr.destaddr = inAddr packet IpHdr.destaddr := by
  have hoffsets := IpHdr.offsets
  have hsize : ipHdrSize = 20 := rfl
  obtain ⟨_, hheader, _, htotal, hreceived⟩ := hwf
  rw [inAddr_copy (a := 0) stack (by omega), Nat.zero_add]

section
variable {s : State} (hfit : MembersFit s) (hwf : WellFormedUdp packet)
  (hlen : packet.length ≤ bufsize) {node : Found}
  (hfound : lookupMultiNode s (inAddr packet IpHdr.destaddr) = some node) {env : Env}
  (hcalls : ∀ i, env.socket i = true ∧ env.setsockopt i = true ∧ env.sendto i = true)
  (st : Stats) (stack : Memory)

include hfit hwf hlen hfound hcalls

/-- With sockets that never fail each member is sent something. -/
theorem handleIncomingData_all (hmark : ¬ CarriesMark packet) :
    ∃ ret st' sent, handleIncomingData env s st stack packet = .ret (ret, st', sent) ∧
      sent.length = node.iplist.length := by
  have hread := readAs_copy hwf stack
  have hreceived := hwf.received
  have htotal := hread.total
  rw [← load32_destaddr hwf stack] at hfound
  obtain ⟨hcnt, _⟩ := hfit.iplist hfound
  obtain ⟨st₀, hrun⟩ := handleIncomingData_eq hfit hlen hfound hread.protocol env st
  rw [hrun, hcnt]
  generalize stack.copy 0 packet = orig at hread htotal ⊢
  have hfalse : sentByProxy orig = false := by
    rw [← Bool.not_eq_true, hread.mark]
    exact hmark
  have hown : ∀ i, env.OwnCalls (totalLen orig) i := by
    intro i
    obtain ⟨hsocket, hopt, hsend⟩ := hcalls i
    have hbufsize : bufsize = 4096 := rfl
    have hshort : (totalLen orig).toNat < 0x8000 := by omega
    exact ⟨hsocket, hopt, hsend, UInt16.lt_iff_toNat_lt.mpr hshort⟩
  exact sendLoop_all true hown (fun buf hbuf => SameMark.unmarked hbuf hfalse)
    (fun i ip buf hbuf => hbuf.rebuilt _ _ _) (by omega) (SameMark.refl orig) st₀

/-- With sockets that never fail each member gets its copy exactly where there is memory for the sum
or all ones is its complement anyway. -/
theorem fans_out_iff : FansOut env s st stack packet node ↔
    CarriesMark packet ∨ ∀ i (h : i < node.iplist.length), env.malloc i = true ∨
      Valid (memberSum (stack.copy 0 packet) node.serverPort node.iplist[i]) := by
  unfold FansOut
  by_cases hmark : CarriesMark packet
  · obtain ⟨ret, st', hret⟩ := handleIncomingData_of_sentByProxy hfit hlen
      ((readAs_copy hwf stack).mark.mpr hmark) env st
    exact iff_of_true ⟨ret, st', [], hret, Or.inl ⟨hmark, rfl⟩⟩ (Or.inl hmark)
  · obtain ⟨ret, st', sent, hrun, hlength⟩ :=
      handleIncomingData_all hfit hwf hlen hfound hcalls st stack hmark
    have hread := readAs_copy hwf stack
    rw [← load32_destaddr hwf stack] at hfound
    have hcopy : ∀ i (hi : i < node.iplist.length) (hi' : i < sent.length),
        IsCopy packet node.serverPort node.iplist[i] sent[i] ↔ env.malloc i = true ∨
          Valid (memberSum (stack.copy 0 packet) node.serverPort node.iplist[i]) := by
      intro i hi hi'
      obtain ⟨ip, buf, hip, hkept, ho⟩ := handleIncomingData_sent hrun hfound hread.protocol
        (List.getElem?_eq_getElem hi')
      obtain ⟨_, rfl⟩ := List.getElem?_eq_some_iff.mp hip
      rw [ho]
      exact isCopy_rebuilt hwf hread hkept _ _ _
    rw [hrun, or_iff_right hmark]
    constructor
    · intro ⟨_, _, sent', heq, hsent⟩
      obtain ⟨_, _, rfl⟩ := Prod.mk.inj (Outcome.ret.inj heq)
      obtain ⟨_, hall⟩ := hsent.resolve_left fun h => hmark h.1
      obtain ⟨_, hall⟩ := List.forall₂_iff_get.mp hall
      intro i hi
      exact (hcopy i hi (by omega)).mp (hall i hi (by omega))
    · intro hall
      refine ⟨ret, st', sent, rfl, Or.inr ⟨hmark, List.forall₂_iff_get.mpr ⟨hlength.symm, ?_⟩⟩⟩
      intro i hi hi'
      exact (hcopy i hi hi').mpr (hall i hi)

end

theorem groupPacket_wellFormed : WellFormedUdp groupPacket :=
  ⟨by decide, by decide, by decide, by decide, by decide⟩

theorem groupPacket_destaddr : (Memory.copy (fun _ => 0) 0 groupPacket).load32 IpHdr.destaddr =
    inAddr groupPacket IpHdr.destaddr := by decide

theorem fans_out_two : ∃ s node, node.iplist = [0x0200000a, 0x0300000a] ∧
    FansOut .allSucceed s ⟨0, 0, 0, 0⟩ (fun _ => 0) groupPacket node := by
  obtain ⟨s, node, hfit, hfound, _, hlist, _⟩ := exists_two_members
  rw [groupPacket_destaddr] at hfound
  refine ⟨s, node, hlist, ?_⟩
  exact (fans_out_iff hfit groupPacket_wellFormed (by decide) hfound
    (fun _ => ⟨rfl, rfl, rfl⟩) _ _).mpr (Or.inr fun _ _ => Or.inl rfl)

/-- `malloc` fails, and the checksum of both copies is all ones. -/
theorem not_fans_out : ¬ ∀ s packet node env st stack, MembersFit s → WellFormedUdp packet →
    packet.length ≤ bufsize → lookupMultiNode s (inAddr packet IpHdr.destaddr) = some node →
    (∀ i, env.socket i = true ∧ env.setsockopt i = true ∧ env.sendto i = true) →
    FansOut env s st stack packet node := by
  intro h
  obtain ⟨s, node, hfit, hfound, _, hlist, hport⟩ := exists_two_members
  rw [groupPacket_destaddr] at hfound
  let env : Env := { Env.allSucceed with malloc := fun _ => false }
  have hcopies := (fans_out_iff hfit groupPacket_wellFormed (by decide) hfound
    (fun _ => ⟨rfl, rfl, rfl⟩) _ _).mp (h s groupPacket node env ⟨0, 0, 0, 0⟩ (fun _ => 0) hfit
      groupPacket_wellFormed (by decide) hfound fun _ => ⟨rfl, rfl, rfl⟩)
  have hinvalid : ¬ Valid (memberSum (Memory.copy (fun _ => 0) 0 groupPacket) 7000 0x0200000a) := by
    rw [valid_iff]
    decide
  rcases hcopies with hmark | hcopies
  · exact absurd hmark.1 (by decide)
  · rw [hlist, hport] at hcopies
    rcases hcopies 0 (by decide) with hmalloc | hvalid
    · cases hmalloc
    · exact hinvalid hvalid

end MulticastProxy.LinuxServer
