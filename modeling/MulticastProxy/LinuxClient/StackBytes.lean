import MulticastProxy.LinuxClient.ReceivedBytes

/-!
# Linux client proxy: the stack in the results (`client_proxy/handleData.c`)

A byte of `buf` that was not received changes what leaves wherever it is used at all. Where it is only
summed, the entry of the packet can be such that the low byte of the checksum changes.
-/

namespace MulticastProxy.LinuxClient

set_option autoImplicit false

open OnesComplement

/-! ## One byte of the stack -/

/-- The stack that is all zero but for one byte. -/
def stackWith (p : Nat) (v : UInt8) : Memory := Memory.store8 (fun _ => 0) p v

theorem sameOutside_stackWith {p : Nat} (hp : p < bufsize) (v w : UInt8) :
    SameOutside (stackWith p v) (stackWith p w) := by
  intro a ha
  rw [stackWith, stackWith, Memory.store8_of_ne (by omega), Memory.store8_of_ne (by omega)]

theorem oneByte_fillBuf (pBuf : List UInt8) {p : Nat}
    (hp : pBuf.length < bufsize - etherHeaderSize → etherHeaderSize + pBuf.length ≤ p) (v : UInt8) :
    OneByte p v (fillBuf (stackWith p 0) pBuf) (fillBuf (stackWith p v) pBuf) := by
  have hstack : ∀ w, fillBuf (stackWith p w) pBuf p = w := by
    intro w
    by_cases hcopied : pBuf.length < bufsize - etherHeaderSize
    · rw [fillBuf_of_not_received hcopied _ (Or.inr (hp hcopied)), stackWith, Memory.store8_self]
    · rw [fillBuf, if_neg hcopied, stackWith, Memory.store8_self]
  have hrest : AgreeOn (fun a => a ≠ p) (stackWith p 0) (stackWith p v) := by
    intro a ha
    rw [stackWith, stackWith, Memory.store8_of_ne ha, Memory.store8_of_ne ha]
  refine ⟨hstack 0, hstack v, ?_⟩
  by_cases hcopied : pBuf.length < bufsize - etherHeaderSize
  · exact (agree_fillBuf hcopied hrest).mono fun a ha => Or.inl ha
  · rw [fillBuf, fillBuf, if_neg hcopied, if_neg hcopied]
    exact hrest

/-! ## What is sent -/

theorem getDevName_envAt (addr ip : UInt32) :
    getDevName (envAt addr).alldevs ip = if ip = addr then some "eth0".toList else none := by
  by_cases h : ip = addr
  · simp [getDevName, envAt, h]
  · simp [getDevName, envAt, h]

theorem frames_envAt {buf : Memory} {addr : UInt32}
    (hdest : buf.load32 (etherHeaderSize + IpHdr.destaddr) = addr) (multiIp : UInt32)
    (multiPort : UInt16) :
    frames (restructPkt (envAt addr) buf (ipHdrLen buf etherHeaderSize) multiIp multiPort).2 =
      [(rebuiltUdp (envAt addr) buf multiIp multiPort).bytes 0 (ipLenOf buf + etherHeaderSize)] := by
  have hdevice := getDevName_envAt addr (buf.load32 (etherHeaderSize + IpHdr.destaddr))
  rw [if_pos hdest] at hdevice
  exact frames_restructPkt hdevice rfl rfl multiIp multiPort

theorem restructPkt_of_ne {buf : Memory} {addr : UInt32}
    (hdest : buf.load32 (etherHeaderSize + IpHdr.destaddr) ≠ addr) (iphLen : Nat) (multiIp : UInt32)
    (multiPort : UInt16) : restructPkt (envAt addr) buf iphLen multiIp multiPort = (-1, []) := by
  unfold restructPkt
  simp only
  rw [getDevName_envAt, if_neg hdest]

theorem eq_of_bytes_eq {m m' : Memory} {n a : Nat} (h : m.bytes 0 n = m'.bytes 0 n) (ha : a < n) :
    m a = m' a := by
  have hbyte := getD_bytes (m := m) (a := 0) ha
  rw [h, getD_bytes ha, Nat.zero_add] at hbyte
  exact hbyte.symm

/-- Behind the IP header only the ports and the checksum are written, and the length as it is. -/
theorem rebuiltUdp_raw (env : Env) (buf : Memory) (multiIp : UInt32) (multiPort : UInt16) {a : Nat}
    (ha : etherHeaderSize + ipHdrSize ≤ a)
    (hudp : etherHeaderSize + ipHdrLen buf etherHeaderSize + 8 ≤ a ∨
      (etherHeaderSize + ipHdrLen buf etherHeaderSize + UdpHdr.length ≤ a ∧
        a < etherHeaderSize + ipHdrLen buf etherHeaderSize + UdpHdr.length + 2)) :
    rebuiltUdp env buf multiIp multiPort a = buf a := by
  have hports := UdpHdr.offsets
  have hsize : ipHdrSize = 20 := rfl
  have hether : etherHeaderSize = 14 := rfl
  rcases hudp with hudp | ⟨hle, hlt⟩
  · unfold rebuiltUdp
    rw [rebuildUdp_of_disjoint _ _ _ _ (Or.inr (by omega)),
      rebuildIp_of_disjoint _ _ _ _ _ _ (by omega), putEthHdr_of_le _ rfl (by omega)]
  · obtain ⟨hlo, hhi⟩ := Memory.toUInt8_load16 (m := buf)
      (a := etherHeaderSize + ipHdrLen buf etherHeaderSize + UdpHdr.length)
    rw [rebuiltUdp_eq, Memory.store16_of_disjoint (by omega), unsummed, unsummedUdp, htons_htons]
    obtain rfl | rfl :
        a = etherHeaderSize + ipHdrLen buf etherHeaderSize + UdpHdr.length ∨
        a = etherHeaderSize + ipHdrLen buf etherHeaderSize + UdpHdr.length + 1 := by omega
    · rw [Memory.store16_self, hlo]
    · rw [Memory.store16_succ, hhi]

theorem rebuiltOthersProto_raw (buf : Memory) (multiIp : UInt32) {a : Nat}
    (ha : etherHeaderSize + ipHdrSize ≤ a) : rebuiltOthersProto buf multiIp a = buf a := by
  have hsize : ipHdrSize = 20 := rfl
  unfold rebuiltOthersProto
  rw [rebuildIp_of_disjoint _ _ _ _ _ _ (by omega), putEthHdr_of_le _ rfl (by omega)]

/-! ## What is summed -/

/-- The sum over the pseudo header and the datagram at `udp`, both as they stand in the buffer. -/
def datagramSum (m : Memory) (udp udpLen : Nat) : Nat :=
  udpWords (m.load32 (etherHeaderSize + IpHdr.srcaddr))
    (m.load32 (etherHeaderSize + IpHdr.destaddr)) (m.load16 (udp + UdpHdr.length)) m udp udpLen

theorem rebuiltUdp_sum {env : Env} (hmalloc : env.malloc = true) (buf : Memory) (multiIp : UInt32)
    (multiPort : UInt16) : rebuiltUdp env buf multiIp multiPort
        (etherHeaderSize + ipHdrLen buf etherHeaderSize + UdpHdr.checksum) =
      (complement (datagramSum (unsummed buf multiIp multiPort)
        (etherHeaderSize + ipHdrLen buf etherHeaderSize) (udpLenOf buf).toNat)).toUInt8 := by
  have hpsd : udpPsdHeaderSize = 12 := rfl
  have hshort := (udpLenOf buf).toNat_lt
  rw [rebuiltUdp_eq, Memory.store16_self, udpChecksum, if_pos hmalloc,
    checksum_eq _ _ (by omega), wordSum_udpPsd]
  rfl

/-- The buffer of `restruct_pkt_others_proto` where the header checksum is computed. -/
def unsummedOthersProto (buf : Memory) (multiIp : UInt32) : Memory :=
  unsummedIp (putEthHdr buf [0x01, 0x00, 0x5e, 0x7e, 0x01, 0x02]) 0x1000 0x0040 0x80 multiIp

theorem rebuiltOthersProto_sum (buf : Memory) (multiIp : UInt32) :
    rebuiltOthersProto buf multiIp (etherHeaderSize + IpHdr.checksum) =
      (complement (wordSum (unsummedOthersProto buf multiIp) etherHeaderSize
        (ipHdrLen buf etherHeaderSize))).toUInt8 := by
  have hle := ipHdrLen_le buf etherHeaderSize
  rw [rebuiltOthersProto, rebuildIp_eq, Memory.store16_self, checksum_eq _ _ (by omega),
    unsummedOthersProto]

section
variable {p a n : Nat} {v : UInt8} {m m' : Memory}

theorem wordSum_oneByte {k : Nat} (h : OneByte (a + k) v m m') (hk : k < n) :
    wordSum m' a n = wordSum m a n + if k % 2 = 0 then v.toNat else 256 * v.toNat := by
  rw [wordSum_update hk h.zero fun i _ hne => h.rest _ (by omega), h.value]

theorem wordSum_oneByte_eq (h : OneByte p v m m') (hp : p < a ∨ a + n ≤ p) :
    wordSum m' a n = wordSum m a n :=
  wordSum_congr fun i hi => (h.rest _ (by omega)).symm

end

/-- A byte of the payload. -/
theorem datagramSum_oneByte {udp udpLen k : Nat} {v : UInt8} {m m' : Memory}
    (h : OneByte (udp + k) v m m') (hk : 8 ≤ k) (hlt : k < udpLen)
    (hbehind : etherHeaderSize + ipHdrSize ≤ udp + k) :
    datagramSum m' udp udpLen =
      datagramSum m udp udpLen + if k % 2 = 0 then v.toNat else 256 * v.toNat := by
  have hoffsets := IpHdr.offsets
  have hports := UdpHdr.offsets
  have hsize : ipHdrSize = 20 := rfl
  rw [datagramSum, datagramSum, udpWords, udpWords, ← h.load32_eq (by omega),
    ← h.load32_eq (by omega), ← h.load16_eq (by omega), wordSum_oneByte h hlt, Nat.add_assoc]
  omega

/-- The high byte of the port is summed once, or twice where it lies in an address. -/
theorem datagramSum_port {udp udpLen : Nat} {m m' : Memory} (h : OneByte (udp + 3) 1 m m')
    (heven : udp % 2 = 0) (hlen : 3 < udpLen) : ∃ k, 0 < k ∧ k ≤ 2 ∧
      datagramSum m' udp udpLen = datagramSum m udp udpLen + 256 * k := by
  have hports := UdpHdr.offsets
  have haddresses : ∀ x : Memory, halves (x.load32 (etherHeaderSize + IpHdr.srcaddr)) +
      halves (x.load32 (etherHeaderSize + IpHdr.destaddr)) =
        wordSum x (etherHeaderSize + IpHdr.srcaddr) 8 := by
    intro x
    rw [halves_load32, halves_load32]
    simp only [wordSum, checksumWords, List.map_cons, List.map_nil, List.sum_cons, List.sum_nil]
    have hend : etherHeaderSize + IpHdr.srcaddr + 2 + 2 = etherHeaderSize + IpHdr.destaddr := rfl
    rw [hend]
    omega
  have hodd : ∀ k, k % 2 = 1 →
      (if k % 2 = 0 then (1 : UInt8).toNat else 256 * (1 : UInt8).toNat) = 256 :=
    fun k hk => if_neg (by omega)
  have hdata := wordSum_oneByte h hlen
  rw [hodd 3 rfl] at hdata
  rw [datagramSum, datagramSum, udpWords, udpWords, haddresses, haddresses,
    ← h.load16_eq (by omega), hdata]
  by_cases hin : etherHeaderSize + IpHdr.srcaddr ≤ udp + 3 ∧
      udp + 3 < etherHeaderSize + IpHdr.srcaddr + 8
  · obtain ⟨k, hk⟩ := Nat.exists_eq_add_of_le hin.1
    have hoffsets := IpHdr.offsets
    have hether : etherHeaderSize = 14 := rfl
    rw [hk] at h
    rw [wordSum_oneByte h (by omega), hodd k (by omega)]
    exact ⟨2, by decide, by decide, by omega⟩
  · rw [wordSum_oneByte_eq h (by omega)]
    exact ⟨1, by decide, by decide, by omega⟩

/-- The sum is not small for every port. -/
theorem exists_port (buf : Memory) (multiIp : UInt32) {udpLen : Nat} (hlen : 3 < udpLen) :
    ∃ multiPort, 255 < fold (datagramSum (unsummed buf multiIp multiPort)
      (etherHeaderSize + ipHdrLen buf etherHeaderSize) udpLen) := by
  have hports := UdpHdr.offsets
  have heven : (etherHeaderSize + ipHdrLen buf etherHeaderSize) % 2 = 0 := by
    have hether : etherHeaderSize = 14 := rfl
    rw [ipHdrLen]
    omega
  have hone : OneByte (etherHeaderSize + ipHdrLen buf etherHeaderSize + 3) 1
      (unsummed buf multiIp 0) (unsummed buf multiIp 1) := by
    unfold unsummed unsummedUdp
    apply OneByte.store16 _ (by omega)
    apply OneByte.store16 _ (by omega)
    apply OneByte.store16 _ (by omega)
    exact OneByte.of_store16 _ (etherHeaderSize + ipHdrLen buf etherHeaderSize + 2)
  obtain ⟨k, hpos, hle, hsum⟩ := datagramSum_port hone heven hlen
  by_cases hsmall : fold (datagramSum (unsummed buf multiIp 0)
      (etherHeaderSize + ipHdrLen buf etherHeaderSize) udpLen) ≤ 255
  · refine ⟨1, ?_⟩
    rw [hsum]
    exact fold_add_high hsmall hpos hle
  · exact ⟨0, by omega⟩

/-- Nor for every group. -/
theorem exists_group (buf : Memory) {n : Nat} (hn : IpHdr.destaddr + 1 < n) :
    ∃ multiIp, 255 < fold (wordSum (unsummedOthersProto buf multiIp) etherHeaderSize n) := by
  have hone : OneByte (etherHeaderSize + (IpHdr.destaddr + 1)) 1 (unsummedOthersProto buf 0)
      (unsummedOthersProto buf 256) := by
    unfold unsummedOthersProto unsummedIp
    apply OneByte.store16 _ (by decide)
    exact OneByte.of_store32 _ (etherHeaderSize + IpHdr.destaddr)
  have hsum : wordSum (unsummedOthersProto buf 256) etherHeaderSize n =
      wordSum (unsummedOthersProto buf 0) etherHeaderSize n + 256 * 1 := wordSum_oneByte hone hn
  by_cases hsmall : fold (wordSum (unsummedOthersProto buf 0) etherHeaderSize n) ≤ 255
  · refine ⟨256, ?_⟩
    rw [hsum]
    exact fold_add_high hsmall (by decide) (by decide)
  · exact ⟨0, by omega⟩

namespace ResultsAgree

variable {pBuf : List UInt8} (h : ResultsAgree pBuf)

include h

/-- The source address is received. -/
theorem srcaddr : IpHdr.destaddr ≤ pBuf.length ∧ pBuf.length < bufsize - etherHeaderSize := by
  have hoffsets := IpHdr.offsets
  have hether : etherHeaderSize = 14 := rfl
  have hbufsize : bufsize = 4096 := rfl
  by_contra hnot
  let p := etherHeaderSize + IpHdr.srcaddr + 3
  have hone := oneByte_fillBuf pBuf (p := p) (fun _ => by omega) 1
  have hp : p < bufsize := by omega
  have hkey := (h _ _ (sameOutside_stackWith hp 0 1)).1
  exact hone.load32_ne (Prod.mk.inj hkey).1

/-- So is the port. -/
theorem port (hudp : pBuf.getD IpHdr.protocol 0 = ipprotoUdp) :
    headerLength pBuf + 4 ≤ pBuf.length := by
  obtain ⟨hlen, hcopied⟩ := h.srcaddr
  have hoffsets := IpHdr.offsets
  have hports := UdpHdr.offsets
  have hether : etherHeaderSize = 14 := rfl
  have hbufsize : bufsize = 4096 := rfl
  have hle := headerLength_le pBuf
  by_contra hnot
  let p := etherHeaderSize + headerLength pBuf + UdpHdr.destPortno + 1
  have hone := oneByte_fillBuf pBuf (p := p) (fun _ => by omega) 1
  have hp : p < bufsize := by omega
  have hkey := (h _ _ (sameOutside_stackWith hp 0 1)).1
  have hport := (Prod.mk.inj hkey).2
  unfold serverPortOf at hport
  simp only at hport
  rw [headerLength_fillBuf hcopied _ (by omega), headerLength_fillBuf hcopied _ (by omega),
    fillBuf_getD hcopied _ (by omega), fillBuf_getD hcopied _ (by omega), if_pos hudp, if_pos hudp]
    at hport
  have hload := congrArg htons hport
  rw [htons_htons, htons_htons] at hload
  exact hone.load16_ne hload

/-- What leaves for a packet is the same, whatever entry its key may have. -/
theorem forwarded (hport : keyPort pBuf ≠ 0) {stack stack' : Memory} (hsame : SameOutside stack stack')
    (env : Env) (multiIp : UInt32) (multiPort : UInt16) :
    LinuxClient.forwarded env (fillBuf stack pBuf) multiIp multiPort =
      LinuxClient.forwarded env (fillBuf stack' pBuf) multiIp multiPort := by
  obtain ⟨hlen, hcopied⟩ := h.srcaddr
  obtain ⟨hkey, hrun⟩ := h stack stack' hsame
  have hkey' := serverPortOf_fillBuf hcopied hlen h.port stack
  obtain ⟨hsrc, hserverPort⟩ := Prod.mk.inj hkey
  obtain ⟨s, index, rowId, hlookup⟩ := exists_entry
    ((fillBuf stack pBuf).load32 (etherHeaderSize + IpHdr.srcaddr)) multiIp hport multiPort
  rw [← hkey'] at hlookup
  obtain ⟨st, hfound⟩ := handleIncomingData_found hlookup env ⟨0, 0, 0⟩
  rw [hsrc, hserverPort] at hlookup
  obtain ⟨st', hfound'⟩ := handleIncomingData_found hlookup env ⟨0, 0, 0⟩
  rw [hrun env s ⟨0, 0, 0⟩, hfound'] at hfound
  exact (Prod.mk.inj (Prod.mk.inj (Outcome.ret.inj hfound)).2).2.symm

/-! ## The UDP path -/

section
variable (hudp : pBuf.getD IpHdr.protocol 0 = ipprotoUdp)
  (hport : word16 pBuf (headerLength pBuf + UdpHdr.destPortno) ≠ 0)

include hudp hport

theorem udp_restructPkt {stack stack' : Memory} (hsame : SameOutside stack stack') (env : Env)
    (multiIp : UInt32) (multiPort : UInt16) :
    (restructPkt env (fillBuf stack pBuf) (ipHdrLen (fillBuf stack pBuf) etherHeaderSize) multiIp
      multiPort).2 =
    (restructPkt env (fillBuf stack' pBuf) (ipHdrLen (fillBuf stack' pBuf) etherHeaderSize) multiIp
      multiPort).2 := by
  obtain ⟨hlen, hcopied⟩ := h.srcaddr
  have hoffsets := IpHdr.offsets
  have hkey : keyPort pBuf ≠ 0 := by
    rw [keyPort, if_pos hudp]
    exact hport
  have hout := h.forwarded hkey hsame env multiIp multiPort
  unfold LinuxClient.forwarded at hout
  rw [fillBuf_getD hcopied _ (by omega), fillBuf_getD hcopied _ (by omega), if_pos hudp, if_pos hudp]
    at hout
  exact hout

/-- The destination address names the device. -/
theorem udp_header : ipHdrSize ≤ pBuf.length := by
  obtain ⟨hlen, hcopied⟩ := h.srcaddr
  have hoffsets := IpHdr.offsets
  have hsize : ipHdrSize = 20 := rfl
  have hether : etherHeaderSize = 14 := rfl
  have hbufsize : bufsize = 4096 := rfl
  by_contra hnot
  let p := etherHeaderSize + IpHdr.destaddr + 3
  have hone := oneByte_fillBuf pBuf (p := p) (fun _ => by omega) 1
  let addr := (fillBuf (stackWith p 0) pBuf).load32 (etherHeaderSize + IpHdr.destaddr)
  have hdest : (fillBuf (stackWith p 1) pBuf).load32 (etherHeaderSize + IpHdr.destaddr) ≠ addr :=
    hone.load32_ne.symm
  have hp : p < bufsize := by omega
  have hout := h.udp_restructPkt hudp hport (sameOutside_stackWith hp 0 1)
    (envAt addr) 0 0
  have hframes := frames_envAt (show _ = addr from rfl) 0 0
  rw [hout, restructPkt_of_ne hdest] at hframes
  cases hframes

/-- What is sent is the same. -/
theorem udp_sent {stack stack' : Memory} (hsame : SameOutside stack stack') : ∃ env : Env,
    env.malloc = true ∧ ∀ multiIp multiPort, ∀ a < etherHeaderSize + totalLength pBuf,
      rebuiltUdp env (fillBuf stack pBuf) multiIp multiPort a =
        rebuiltUdp env (fillBuf stack' pBuf) multiIp multiPort a := by
  obtain ⟨_, hcopied⟩ := h.srcaddr
  have hoffsets := IpHdr.offsets
  have hsize : ipHdrSize = 20 := rfl
  have hlen := h.udp_header hudp hport
  let addr := (fillBuf stack pBuf).load32 (etherHeaderSize + IpHdr.destaddr)
  have hdest : (fillBuf stack' pBuf).load32 (etherHeaderSize + IpHdr.destaddr) = addr := by
    apply Memory.load32_congr
    intro i hi
    rw [Nat.add_assoc, fillBuf_getD hcopied _ (by omega), fillBuf_getD hcopied _ (by omega)]
  have htotal : ∀ stack, ipLenOf (fillBuf stack pBuf) = totalLength pBuf := by
    intro stack
    rw [ipLenOf, totalLength, word16_fillBuf hcopied stack (by omega)]
  refine ⟨envAt addr, rfl, fun multiIp multiPort a ha => ?_⟩
  have hout := h.udp_restructPkt hudp hport hsame (envAt addr) multiIp multiPort
  have hframes := frames_envAt (show _ = addr from rfl) multiIp multiPort
  rw [hout, frames_envAt hdest, htotal, htotal] at hframes
  exact (eq_of_bytes_eq (List.cons.inj hframes).1 (by omega)).symm

/-- No byte that is sent as it is lies behind the packet. -/
theorem udp_raw {p : Nat} (hp : pBuf.length ≤ p) (hlt : p < bufsize - etherHeaderSize)
    (hraw : headerLength pBuf + 8 ≤ p ∨ (headerLength pBuf + 4 ≤ p ∧ p < headerLength pBuf + 6)) :
    totalLength pBuf ≤ p := by
  obtain ⟨_, hcopied⟩ := h.srcaddr
  have hports := UdpHdr.offsets
  have hsize : ipHdrSize = 20 := rfl
  have hlen := h.udp_header hudp hport
  by_contra hnot
  have hone := oneByte_fillBuf pBuf (p := etherHeaderSize + p) (fun _ => by omega) 1
  obtain ⟨env, _, hsent⟩ := h.udp_sent hudp hport
    (sameOutside_stackWith (show etherHeaderSize + p < bufsize by omega) 0 1)
  have hbyte := hsent 0 0 (etherHeaderSize + p) (by omega)
  rw [rebuiltUdp_raw _ _ _ _ (by omega), rebuiltUdp_raw _ _ _ _ (by omega), hone.zero,
    hone.value] at hbyte
  · exact absurd hbyte (by decide)
  · rw [headerLength_fillBuf hcopied _ (by omega)]
    omega
  · rw [headerLength_fillBuf hcopied _ (by omega)]
    omega

/-- Nor does one that is summed: the datagram ends before, where the checksum is sent. -/
theorem udp_summed (hlen : headerLength pBuf + 6 ≤ pBuf.length)
    (htotal : headerLength pBuf + 7 ≤ totalLength pBuf) :
    headerLength pBuf + udpLength pBuf ≤ max pBuf.length (headerLength pBuf + 8) := by
  obtain ⟨_, hcopied⟩ := h.srcaddr
  have hports := UdpHdr.offsets
  have hsize : ipHdrSize = 20 := rfl
  have hether : etherHeaderSize = 14 := rfl
  have hbufsize : bufsize = 4096 := rfl
  have hfull := h.udp_header hudp hport
  have hihl := fun stack => headerLength_fillBuf hcopied stack (by omega)
  have hle := headerLength_le pBuf
  have hudpLen : ∀ stack, (udpLenOf (fillBuf stack pBuf)).toNat = udpLength pBuf := by
    intro stack
    rw [udpLenOf, hihl, udpLength, word16_fillBuf hcopied stack (by omega), Nat.add_assoc]
  by_contra hnot
  obtain ⟨k, hk⟩ := Nat.exists_eq_add_of_le
    (show headerLength pBuf ≤ max pBuf.length (headerLength pBuf + 8) by omega)
  let p := etherHeaderSize + headerLength pBuf + k
  obtain ⟨multiPort, hlarge⟩ := exists_port (fillBuf (stackWith p 0) pBuf) 0
    (show 3 < udpLength pBuf by omega)
  rw [hihl] at hlarge
  obtain ⟨v, hchanges⟩ := exists_byte_changes hlarge k
  have hone := oneByte_fillBuf pBuf (p := p) (fun _ => by omega) v
  -- the byte lies behind all that is written before the sum
  have hraw : ∀ stack, unsummed (fillBuf stack pBuf) 0 multiPort p = fillBuf stack pBuf p := by
    intro stack
    rw [← rebuiltUdp_raw (envAt 0) (fillBuf stack pBuf) 0 multiPort (by omega)
      (Or.inl (by rw [hihl]; omega)), rebuiltUdp_eq, Memory.store16_of_disjoint (by rw [hihl]; omega)]
  have hunsummed : OneByte p v (unsummed (fillBuf (stackWith p 0) pBuf) 0 multiPort)
      (unsummed (fillBuf (stackWith p v) pBuf) 0 multiPort) := by
    refine ⟨(hraw _).trans hone.zero, (hraw _).trans hone.value, ?_⟩
    apply (agree_unsummed hone.rest (fun a _ _ => by omega) (fun a _ _ => by rw [hihl] at *; omega) 0
      multiPort).mono
    intro a ha
    exact Or.inl ha
  obtain ⟨env, hmalloc, hsent⟩ := h.udp_sent hudp hport
    (sameOutside_stackWith (show p < bufsize by omega) 0 v)
  have hsum := hsent 0 multiPort (etherHeaderSize + headerLength pBuf + UdpHdr.checksum) (by omega)
  have hbytes := fun stack => rebuiltUdp_sum hmalloc (fillBuf stack pBuf) 0 multiPort
  simp only [hihl, hudpLen] at hbytes
  rw [hbytes, hbytes, datagramSum_oneByte hunsummed (by omega) (by omega) (by omega)] at hsum
  exact hchanges hsum.symm

theorem udpWithin : UdpWithin pBuf := by
  obtain ⟨_, hcopied⟩ := h.srcaddr
  have hfour := h.port hudp
  have hether : etherHeaderSize = 14 := rfl
  have hbufsize : bufsize = 4096 := rfl
  have hle := headerLength_le pBuf
  have hbehind : headerLength pBuf + 6 ≤ pBuf.length ∨ totalLength pBuf ≤ pBuf.length := by
    by_cases hsix : headerLength pBuf + 6 ≤ pBuf.length
    · exact Or.inl hsix
    · exact Or.inr (h.udp_raw hudp hport (Nat.le_refl _) (by omega) (by omega))
  refine ⟨h.udp_header hudp hport, by omega, fun htotal => ?_⟩
  have hsix : headerLength pBuf + 6 ≤ pBuf.length := by omega
  exact ⟨hsix, h.udp_raw hudp hport (by omega) (by omega) (by omega),
    h.udp_summed hudp hport hsix htotal⟩

end

/-! ## The VRRP path -/

section
variable (hvrrp : pBuf.getD IpHdr.protocol 0 = ipprotoVrrf)

include hvrrp

theorem vrrp_sent {stack stack' : Memory} (hsame : SameOutside stack stack') (multiIp : UInt32)
    {a : Nat} (ha : a < etherHeaderSize + totalLength pBuf) :
    rebuiltOthersProto (fillBuf stack pBuf) multiIp a =
      rebuiltOthersProto (fillBuf stack' pBuf) multiIp a := by
  obtain ⟨hlen, hcopied⟩ := h.srcaddr
  have hoffsets := IpHdr.offsets
  have hother : pBuf.getD IpHdr.protocol 0 ≠ ipprotoUdp := by
    rw [hvrrp]
    decide
  have hkey : keyPort pBuf ≠ 0 := by
    rw [keyPort, if_neg hother, if_pos hvrrp]
    decide
  have htotal : ∀ stack, ipLenOf (fillBuf stack pBuf) = totalLength pBuf := by
    intro stack
    rw [ipLenOf, totalLength, word16_fillBuf hcopied stack (by omega)]
  have hout := h.forwarded hkey hsame (envAt 0) multiIp 0
  unfold LinuxClient.forwarded at hout
  rw [fillBuf_getD hcopied _ (by omega), fillBuf_getD hcopied _ (by omega), if_neg hother,
    if_neg hother, if_pos hvrrp, if_pos hvrrp] at hout
  have hsent : ∀ stack, frames (restructPktOthersProto (envAt 0) (fillBuf stack pBuf)
      (ipHdrLen (fillBuf stack pBuf) etherHeaderSize) multiIp).2 =
        [(rebuiltOthersProto (fillBuf stack pBuf) multiIp).bytes 0
          (totalLength pBuf + etherHeaderSize)] := by
    intro stack
    rw [← htotal stack]
    exact frames_restructPktOthersProto rfl rfl multiIp
  have hframes := congrArg frames hout
  rw [hsent, hsent] at hframes
  exact eq_of_bytes_eq (List.cons.inj hframes).1 (by omega)

theorem vrrp_raw : totalLength pBuf ≤ max pBuf.length ipHdrSize := by
  obtain ⟨_, hcopied⟩ := h.srcaddr
  have hsize : ipHdrSize = 20 := rfl
  have hether : etherHeaderSize = 14 := rfl
  have hbufsize : bufsize = 4096 := rfl
  by_contra hnot
  let p := etherHeaderSize + max pBuf.length ipHdrSize
  have hone := oneByte_fillBuf pBuf (p := p) (fun _ => by omega) 1
  have hbyte := h.vrrp_sent hvrrp (sameOutside_stackWith (show p < bufsize by omega) 0 1) 0
    (show p < etherHeaderSize + totalLength pBuf by omega)
  rw [rebuiltOthersProto_raw _ _ (by omega), rebuiltOthersProto_raw _ _ (by omega), hone.zero,
    hone.value] at hbyte
  exact absurd hbyte (by decide)

theorem vrrp_summed (htotal : IpHdr.checksum < totalLength pBuf) :
    headerLength pBuf ≤ max pBuf.length ipHdrSize := by
  obtain ⟨hsrc, hcopied⟩ := h.srcaddr
  have hoffsets := IpHdr.offsets
  have hsize : ipHdrSize = 20 := rfl
  have hether : etherHeaderSize = 14 := rfl
  have hbufsize : bufsize = 4096 := rfl
  have hihl := fun stack => headerLength_fillBuf hcopied stack (by omega)
  have hle := headerLength_le pBuf
  by_contra hnot
  obtain ⟨k, hk⟩ := Nat.exists_eq_add_of_le (show 0 ≤ max pBuf.length ipHdrSize by omega)
  let p := etherHeaderSize + k
  obtain ⟨multiIp, hlarge⟩ := exists_group (fillBuf (stackWith p 0) pBuf)
    (show IpHdr.destaddr + 1 < headerLength pBuf by omega)
  obtain ⟨v, hchanges⟩ := exists_byte_changes hlarge k
  have hone := oneByte_fillBuf pBuf (p := p) (fun _ => by omega) v
  have hraw : ∀ stack, unsummedOthersProto (fillBuf stack pBuf) multiIp p = fillBuf stack pBuf p := by
    intro stack
    rw [← rebuiltOthersProto_raw (fillBuf stack pBuf) multiIp (by omega), rebuiltOthersProto,
      rebuildIp_eq, Memory.store16_of_disjoint (by omega), unsummedOthersProto]
  have hunsummed : OneByte p v (unsummedOthersProto (fillBuf (stackWith p 0) pBuf) multiIp)
      (unsummedOthersProto (fillBuf (stackWith p v) pBuf) multiIp) := by
    have heth := agree_putEthHdr hone.rest
      (show ([0x01, 0x00, 0x5e, 0x7e, 0x01, 0x02] : List UInt8).length = 6 from rfl)
    refine ⟨(hraw _).trans hone.zero, (hraw _).trans hone.value, ?_⟩
    apply (agree_unsummedIp 0x1000 0x0040 0x80 multiIp heth
      (heth.load16 (Or.inl (by omega)) (Or.inl (by omega)))).mono
    intro a ha
    exact Or.inl (Or.inl ha)
  have hsum := h.vrrp_sent hvrrp (sameOutside_stackWith (show p < bufsize by omega) 0 v) multiIp
    (show etherHeaderSize + IpHdr.checksum < etherHeaderSize + totalLength pBuf by omega)
  rw [rebuiltOthersProto_sum, rebuiltOthersProto_sum, hihl, hihl,
    wordSum_oneByte hunsummed (by omega)] at hsum
  exact hchanges hsum.symm

theorem vrrpWithin : VrrpWithin pBuf := ⟨h.vrrp_raw hvrrp, h.vrrp_summed hvrrp⟩

end

end ResultsAgree

/-- The results depend on the received bytes alone just when no others are read. -/
theorem results_agree_iff (pBuf : List UInt8) : ResultsAgree pBuf ↔ ReadsReceived pBuf := by
  constructor
  · intro h
    exact ⟨h.srcaddr.1, h.srcaddr.2, h.port, fun hudp hport => h.udpWithin hudp hport,
      fun hvrrp => h.vrrpWithin hvrrp⟩
  · intro h
    exact h.resultsAgree

/-- A datagram from 10.0.0.1 to port 7000 of 10.0.0.2 that is as long as the buffer. -/
def longDatagram : List UInt8 :=
  [0x45, 0, 0x10, 0, 0, 0, 0, 0, 64, 17, 0, 0, 10, 0, 0, 1, 10, 0, 0, 2,
    0x1b, 0x58, 0x1b, 0x58, 0x0f, 0xec, 0, 0] ++ List.replicate 4068 0

/-- It is not copied at all. -/
theorem not_results_agree : ¬ ∀ pBuf : List UInt8, pBuf.length ≤ bufsize → ResultsAgree pBuf := by
  intro h
  have hlen : longDatagram.length = bufsize := by
    rw [longDatagram, List.length_append, List.length_replicate]
    rfl
  have hcopied := (h longDatagram (Nat.le_of_eq hlen)).srcaddr.2
  rw [hlen] at hcopied
  exact absurd hcopied (by decide)

end MulticastProxy.LinuxClient
