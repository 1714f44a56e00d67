import MulticastProxy.LinuxClient.Group
import MulticastProxy.Common.IpHeader

/-!
# Linux client proxy: incoming packets (`client_proxy/handleData.c`, `dev_pcap.c`)

A packet of a configured server is sent on to the entry's group, through libpcap and the tun
device. What libpcap, `malloc` and `write` answer is a parameter.
-/

namespace MulticastProxy.LinuxClient

set_option autoImplicit false

abbrev etherHeaderSize : Nat := 14

/-- The `AF_INET` addresses of a device of `pcap_findalldevs`. -/
structure PcapIf where
  name : List Char
  addresses : List UInt32
  deriving DecidableEq, Repr

structure Env where
  alldevs : List PcapIf
  pcapOpenLive : List Char → Bool
  pcapSendpacket : Bool
  write : Bool
  malloc : Bool

structure Stats where
  grecvPkt : UInt32
  gdropPkt : UInt32
  gforwardPkt : UInt32
  deriving DecidableEq, Repr

/-- What leaves the proxy: an IP packet on the tun device, a frame on a device. -/
inductive Output where
  | tun (piph : List UInt8)
  | pcap (device : List Char) (frame : List UInt8)
  deriving DecidableEq, Repr

def Output.packet : Output → List UInt8
  | tun piph => piph
  | pcap _ frame => frame.drop etherHeaderSize

/-- The first device with the address. -/
def getDevName (alldevs : List PcapIf) (ip : UInt32) : Option (List Char) :=
  (alldevs.find? fun d => ip ∈ d.addresses).map fun d => d.name

/-- Carries are folded twice. -/
def checksum (m : Memory) (addr len : Nat) : UInt16 :=
  let sum : UInt32 := ((checksumWords m addr len).map UInt16.toUInt32).sum
  let sum := sum / 65536 + sum % 65536
  let sum := sum + sum / 65536
  (~~~sum).toUInt16

def udpChecksum (env : Env) (m : Memory) (iph iphLen udpLen : Nat) : UInt16 :=
  if env.malloc then
    checksum (udpPsd m iph iphLen udpLen (m.load16 (iph + iphLen + UdpHdr.length))) 0
      (udpPsdHeaderSize + udpLen)
  else 0xFFFF

/-- The ethernet header: `dhost`, the proxy's own `shost` and the type. -/
def putEthHdr (buf : Memory) (dhost : List UInt8) : Memory :=
  let buf := buf.copy 0 dhost
  let buf := buf.copy 6 [0x00, 0x16, 0x3e, 0x00, 0x04, 0x0e]
  buf.store16 12 (htons 0x0800)

/-- What both ways of rebuilding a packet do to its IP header. -/
def rebuildIp (buf : Memory) (iphLen : Nat) (id offset : UInt16) (ttl : UInt8) (multiIp : UInt32) :
    Memory :=
  let piph := etherHeaderSize
  let ipLen := htons (buf.load16 (piph + IpHdr.totallength))
  let buf := buf.store8 (piph + IpHdr.tos) 0
  let buf := buf.store16 (piph + IpHdr.id) (htons id)
  let buf := buf.store16 (piph + IpHdr.offset) (htons offset)
  let buf := buf.store8 (piph + IpHdr.ttl) ttl
  let buf := buf.store16 (piph + IpHdr.checksum) 0
  let buf := buf.store32 (piph + IpHdr.destaddr) multiIp
  let buf := buf.store16 (piph + IpHdr.totallength) (htons ipLen)
  buf.store16 (piph + IpHdr.checksum) (checksum buf piph iphLen)

def rebuildUdp (env : Env) (buf : Memory) (iphLen : Nat) (udpLen multiPort : UInt16) : Memory :=
  let pudph := etherHeaderSize + iphLen
  let buf := buf.store16 (pudph + UdpHdr.destPortno) (htons multiPort)
  let buf := buf.store16 (pudph + UdpHdr.srcPortno) (htons 52540)
  let buf := buf.store16 (pudph + UdpHdr.checksum) 0
  let buf := buf.store16 (pudph + UdpHdr.length) (htons udpLen)
  buf.store16 (pudph + UdpHdr.checksum) (udpChecksum env buf etherHeaderSize iphLen udpLen.toNat)

/-- The destination of a group's frames. -/
def multiDhost (multiIp : UInt32) : List UInt8 :=
  [0x01, 0x00, 0x5e, (multiIp / 2 ^ 8 % 128).toUInt8, (multiIp / 2 ^ 16).toUInt8,
    (multiIp / 2 ^ 24).toUInt8]

def writeTun (env : Env) (buf : Memory) (ipLen : Nat) : List Output :=
  if env.write then [.tun (buf.bytes etherHeaderSize ipLen)] else []

def sendPacket (env : Env) (device : List Char) (buf : Memory) (ipLen : Nat) : Int × List Output :=
  if env.pcapSendpacket then (0, [.pcap device (buf.bytes 0 (ipLen + etherHeaderSize))])
  else (-1, [])

/-- The UDP path. -/
def restructPkt (env : Env) (buf : Memory) (iphLen : Nat) (multiIp : UInt32) (multiPort : UInt16) :
    Int × List Output :=
  let piph := etherHeaderSize
  match getDevName env.alldevs (buf.load32 (piph + IpHdr.destaddr)) with
  | none => (-1, [])
  | some device =>
    if !env.pcapOpenLive device then (-1, [])
    else
      let buf := putEthHdr buf (multiDhost multiIp)
      let ipLen := htons (buf.load16 (piph + IpHdr.totallength))
      let udpLen := htons (buf.load16 (piph + iphLen + UdpHdr.length))
      let buf := rebuildIp buf iphLen 0x0000 0x4000 0x20 multiIp
      let buf := rebuildUdp env buf iphLen udpLen multiPort
      let written := writeTun env buf ipLen.toNat
      let (ret, sent) := sendPacket env device buf ipLen.toNat
      (ret, written ++ sent)

/-- The VRRP path. -/
def restructPktOthersProto (env : Env) (buf : Memory) (iphLen : Nat) (multiIp : UInt32) :
    Int × List Output :=
  let piph := etherHeaderSize
  let device := "eth0".toList
  if !env.pcapOpenLive device then (-1, [])
  else
    let buf := putEthHdr buf [0x01, 0x00, 0x5e, 0x7e, 0x01, 0x02]
    let ipLen := htons (buf.load16 (piph + IpHdr.totallength))
    let buf := rebuildIp buf iphLen 0x1000 0x0040 0x80 multiIp
    sendPacket env device buf ipLen.toNat

/-- A longer packet is not copied: then `buf` is what the stack held. -/
def fillBuf (buf : Memory) (pBuf : List UInt8) : Memory :=
  if pBuf.length < bufsize - etherHeaderSize then buf.copy etherHeaderSize pBuf else buf

/-- The port a packet is looked up under. -/
def serverPortOf (buf : Memory) (iphLen : Nat) : UInt16 :=
  let protocol := buf (etherHeaderSize + IpHdr.protocol)
  if protocol = ipprotoUdp then
    htons (buf.load16 (etherHeaderSize + iphLen + UdpHdr.destPortno))
  else if protocol = ipprotoVrrf then 7126
  else 0

def handleIncomingData (env : Env) (s : State) (st : Stats) (stack : Memory) (pBuf : List UInt8) :
    Outcome (Int × Stats × List Output) := do
  let st := { st with grecvPkt := st.grecvPkt + 1 }
  let buf := fillBuf stack pBuf
  let piph := etherHeaderSize
  let iphLen := ipHdrLen buf piph
  let serverIp := buf.load32 (piph + IpHdr.srcaddr)
  match ← lookupIpPortNode s serverIp (serverPortOf buf iphLen) with
  | none => .ret (-1, { st with gdropPkt := st.gdropPkt + 1 }, [])
  | some (multiIp, multiPort, _, _) =>
    let protocol := buf (piph + IpHdr.protocol)
    let out :=
      if protocol = ipprotoUdp then (restructPkt env buf iphLen multiIp multiPort).2
      else if protocol = ipprotoVrrf then (restructPktOthersProto env buf iphLen multiIp).2
      else []
    .ret (1, { st with gforwardPkt := st.gforwardPkt + 1 }, out)

/-! ## The packet that leaves -/

/-- The ethernet header lies before the IP header. -/
theorem putEthHdr_of_le (buf : Memory) {dhost : List UInt8} (hdhost : dhost.length = 6) {a : Nat}
    (ha : etherHeaderSize ≤ a) : putEthHdr buf dhost a = buf a := by
  have hle : 14 ≤ a := ha
  unfold putEthHdr
  rw [Memory.store16_of_disjoint (by omega),
    Memory.copy_of_disjoint (Or.inr (Nat.le_trans (by decide) hle)),
    Memory.copy_of_disjoint (by omega)]

section
variable (buf : Memory) (iphLen : Nat) (id offset : UInt16) (ttl : UInt8) (multiIp : UInt32)

theorem rebuildIp_ttl :
    rebuildIp buf iphLen id offset ttl multiIp (etherHeaderSize + IpHdr.ttl) = ttl := by
  unfold rebuildIp
  rw [Memory.store16_of_disjoint (by decide), Memory.store16_of_disjoint (by decide),
    Memory.store32_of_disjoint (by decide), Memory.store16_of_disjoint (by decide),
    Memory.store8_self]

theorem rebuildIp_protocol :
    rebuildIp buf iphLen id offset ttl multiIp (etherHeaderSize + IpHdr.protocol) =
      buf (etherHeaderSize + IpHdr.protocol) := by
  unfold rebuildIp
  rw [Memory.store16_of_disjoint (by decide), Memory.store16_of_disjoint (by decide),
    Memory.store32_of_disjoint (by decide), Memory.store16_of_disjoint (by decide),
    Memory.store8_of_ne (by decide), Memory.store16_of_disjoint (by decide),
    Memory.store16_of_disjoint (by decide), Memory.store8_of_ne (by decide)]

theorem rebuildIp_id :
    (rebuildIp buf iphLen id offset ttl multiIp).load16 (etherHeaderSize + IpHdr.id) = htons id := by
  have hframe : ∀ a, a = etherHeaderSize + IpHdr.id ∨ a = etherHeaderSize + IpHdr.id + 1 →
      rebuildIp buf iphLen id offset ttl multiIp a =
        ((buf.store8 (etherHeaderSize + IpHdr.tos) 0).store16 (etherHeaderSize + IpHdr.id)
          (htons id)) a := by
    rintro a (rfl | rfl) <;>
    · unfold rebuildIp
      rw [Memory.store16_of_disjoint (by decide), Memory.store16_of_disjoint (by decide),
        Memory.store32_of_disjoint (by decide), Memory.store16_of_disjoint (by decide),
        Memory.store8_of_ne (by decide), Memory.store16_of_disjoint (by decide)]
  rw [Memory.load16_congr (hframe _ (Or.inl rfl)) (hframe _ (Or.inr rfl)), Memory.load16_store16]

theorem rebuildIp_totallength :
    (rebuildIp buf iphLen id offset ttl multiIp).load16 (etherHeaderSize + IpHdr.totallength) =
      buf.load16 (etherHeaderSize + IpHdr.totallength) := by
  unfold rebuildIp
  rw [Memory.load16_congr (Memory.store16_of_disjoint (by decide))
    (Memory.store16_of_disjoint (by decide)), Memory.load16_store16, htons_htons]

end

theorem rebuildUdp_of_disjoint (env : Env) (buf : Memory) {iphLen a : Nat}
    (udpLen multiPort : UInt16)
    (ha : a < etherHeaderSize + iphLen ∨ etherHeaderSize + iphLen + 8 ≤ a) :
    rebuildUdp env buf iphLen udpLen multiPort a = buf a := by
  have hoffsets := UdpHdr.offsets
  unfold rebuildUdp
  rw [Memory.store16_of_disjoint (by omega), Memory.store16_of_disjoint (by omega),
    Memory.store16_of_disjoint (by omega), Memory.store16_of_disjoint (by omega),
    Memory.store16_of_disjoint (by omega)]

theorem rebuildUdp_srcPortno (env : Env) (buf : Memory) (iphLen : Nat) (udpLen multiPort : UInt16) :
    rebuildUdp env buf iphLen udpLen multiPort (etherHeaderSize + iphLen) =
        (htons 52540).toUInt8 ∧
      rebuildUdp env buf iphLen udpLen multiPort (etherHeaderSize + iphLen + 1) =
        (htons 52540 / 256).toUInt8 := by
  have hoffsets := UdpHdr.offsets
  unfold rebuildUdp
  constructor
  · rw [Memory.store16_of_disjoint (by omega), Memory.store16_of_disjoint (by omega),
      Memory.store16_of_disjoint (by omega)]
    exact Memory.store16_self _
  · rw [Memory.store16_of_disjoint (by omega), Memory.store16_of_disjoint (by omega),
      Memory.store16_of_disjoint (by omega)]
    exact Memory.store16_succ _

/-- The buffer from which a packet is sent on, for a packet in `buf`. -/
inductive Rebuilt (env : Env) (buf : Memory) : Memory → Prop where
  | udp (multiIp : UInt32) (udpLen multiPort : UInt16) :
      buf (etherHeaderSize + IpHdr.protocol) = ipprotoUdp →
      Rebuilt env buf (rebuildUdp env
        (rebuildIp (putEthHdr buf (multiDhost multiIp)) (ipHdrLen buf etherHeaderSize)
          0x0000 0x4000 0x20 multiIp)
        (ipHdrLen buf etherHeaderSize) udpLen multiPort)
  | vrrf (multiIp : UInt32) :
      buf (etherHeaderSize + IpHdr.protocol) = ipprotoVrrf →
      Rebuilt env buf (rebuildIp (putEthHdr buf [0x01, 0x00, 0x5e, 0x7e, 0x01, 0x02])
        (ipHdrLen buf etherHeaderSize) 0x1000 0x0040 0x80 multiIp)

/-- Behind a whole IP header the UDP header does not touch it. -/
theorem Rebuilt.header {env : Env} {buf m : Memory} (h : Rebuilt env buf m)
    (hihl : ipHdrSize ≤ ipHdrLen buf etherHeaderSize) :
    m (etherHeaderSize + IpHdr.protocol) = buf (etherHeaderSize + IpHdr.protocol) ∧
      m.load16 (etherHeaderSize + IpHdr.totallength) =
        buf.load16 (etherHeaderSize + IpHdr.totallength) := by
  have hbefore : ∀ i < ipHdrSize, etherHeaderSize + i <
      etherHeaderSize + ipHdrLen buf etherHeaderSize := by
    intro i hi
    omega
  cases h with
  | udp multiIp udpLen multiPort hudp =>
    constructor
    · rw [rebuildUdp_of_disjoint _ _ _ _ (Or.inl (hbefore _ (by decide))), rebuildIp_protocol,
        putEthHdr_of_le _ rfl (by decide)]
    · rw [Memory.load16_congr (rebuildUdp_of_disjoint _ _ _ _ (Or.inl (hbefore _ (by decide))))
        (rebuildUdp_of_disjoint _ _ _ _ (Or.inl (hbefore 3 (by decide)))), rebuildIp_totallength,
        Memory.load16_congr (putEthHdr_of_le _ rfl (by decide))
          (putEthHdr_of_le _ rfl (by decide))]
  | vrrf multiIp hvrrf =>
    constructor
    · rw [rebuildIp_protocol, putEthHdr_of_le _ rfl (by decide)]
    · rw [rebuildIp_totallength, Memory.load16_congr (putEthHdr_of_le _ rfl (by decide))
        (putEthHdr_of_le _ rfl (by decide))]

theorem packet_writeTun {env : Env} {buf : Memory} {n : Nat} {o : Output}
    (ho : o ∈ writeTun env buf n) : o.packet = buf.bytes etherHeaderSize n := by
  unfold writeTun at ho
  split at ho
  · rw [List.mem_singleton.mp ho, Output.packet]
  · cases ho

theorem packet_sendPacket {env : Env} {device : List Char} {buf : Memory} {n : Nat} {o : Output}
    (ho : o ∈ (sendPacket env device buf n).2) : o.packet = buf.bytes etherHeaderSize n := by
  unfold sendPacket at ho
  split at ho
  · rw [List.mem_singleton.mp ho, Output.packet, Memory.bytes_drop, Nat.zero_add]
  · cases ho

theorem restructPkt_out {env : Env} {buf : Memory} {multiIp : UInt32} {multiPort : UInt16}
    {o : Output} (hudp : buf (etherHeaderSize + IpHdr.protocol) = ipprotoUdp)
    (ho : o ∈ (restructPkt env buf (ipHdrLen buf etherHeaderSize) multiIp multiPort).2) :
    ∃ m n, Rebuilt env buf m ∧ o.packet = m.bytes etherHeaderSize n := by
  unfold restructPkt at ho
  simp only at ho
  split at ho
  · cases ho
  · split at ho
    · cases ho
    · have hrebuilt (udpLen : UInt16) : Rebuilt env buf _ :=
        Rebuilt.udp multiIp udpLen multiPort hudp
      rcases List.mem_append.mp ho with ho | ho
      · exact ⟨_, _, hrebuilt _, packet_writeTun ho⟩
      · exact ⟨_, _, hrebuilt _, packet_sendPacket ho⟩

theorem restructPktOthersProto_out {env : Env} {buf : Memory} {multiIp : UInt32} {o : Output}
    (hvrrf : buf (etherHeaderSize + IpHdr.protocol) = ipprotoVrrf)
    (ho : o ∈ (restructPktOthersProto env buf (ipHdrLen buf etherHeaderSize) multiIp).2) :
    ∃ m n, Rebuilt env buf m ∧ o.packet = m.bytes etherHeaderSize n := by
  unfold restructPktOthersProto at ho
  simp only at ho
  split at ho
  · cases ho
  · exact ⟨_, _, Rebuilt.vrrf multiIp hvrrf, packet_sendPacket ho⟩

/-- Whatever leaves is read from a rebuilt packet. -/
theorem handleIncomingData_out {env : Env} {s : State} {st st' : Stats} {stack : Memory}
    {pBuf : List UInt8} {ret : Int} {out : List Output}
    (h : handleIncomingData env s st stack pBuf = .ret (ret, st', out)) {o : Output}
    (ho : o ∈ out) :
    ∃ m n, Rebuilt env (fillBuf stack pBuf) m ∧ o.packet = m.bytes etherHeaderSize n := by
  unfold handleIncomingData at h
  obtain ⟨found, _, hret⟩ := Outcome.bind_eq_ret_iff.mp h
  cases found with
  | none =>
    obtain ⟨_, _, rfl⟩ := Prod.mk.inj (Outcome.ret.inj hret)
    cases ho
  | some entry =>
    obtain ⟨multiIp, multiPort, index, rowId⟩ := entry
    obtain ⟨_, hret⟩ := Prod.mk.inj (Outcome.ret.inj hret)
    obtain ⟨_, rfl⟩ := Prod.mk.inj hret
    split at ho
    · rename_i hudp
      exact restructPkt_out hudp ho
    · split at ho
      · rename_i hvrrf
        exact restructPktOthersProto_out hvrrf ho
      · cases ho

/-! ## A packet that is sent -/

section
variable (env : Env) {s : State} (stack : Memory) (pBuf : List UInt8) {multiIp : UInt32}
  {multiPort : UInt16} {index rowId : Nat}

theorem handleIncomingData_udp (st : Stats)
    (hudp : fillBuf stack pBuf (etherHeaderSize + IpHdr.protocol) = ipprotoUdp)
    (hlookup : lookupIpPortNode s ((fillBuf stack pBuf).load32 (etherHeaderSize + IpHdr.srcaddr))
      (serverPortOf (fillBuf stack pBuf) (ipHdrLen (fillBuf stack pBuf) etherHeaderSize)) =
      .ret (some (multiIp, multiPort, index, rowId))) {device : List Char}
    (hdevice : getDevName env.alldevs
      ((fillBuf stack pBuf).load32 (etherHeaderSize + IpHdr.destaddr)) = some device)
    (hopen : env.pcapOpenLive device = true) (hwrite : env.write = true) :
    ∃ st' out, handleIncomingData env s st stack pBuf = .ret (1, st', out) ∧ ∃ o ∈ out,
      o.packet.length =
        (htons ((fillBuf stack pBuf).load16 (etherHeaderSize + IpHdr.totallength))).toNat := by
  unfold handleIncomingData
  simp only
  rw [hlookup, Outcome.ret_bind]
  simp only [hudp, if_true]
  refine ⟨_, _, rfl, ?_⟩
  unfold restructPkt writeTun
  simp only [hdevice, hopen, hwrite, Bool.not_true, Bool.false_eq_true, if_false, if_true]
  refine ⟨_, List.mem_append_left _ (List.mem_singleton_self _), ?_⟩
  rw [Output.packet, Memory.length_bytes, Memory.load16_congr
    (putEthHdr_of_le _ rfl (by decide)) (putEthHdr_of_le _ rfl (by decide))]

theorem handleIncomingData_vrrf (st : Stats)
    (hvrrf : fillBuf stack pBuf (etherHeaderSize + IpHdr.protocol) = ipprotoVrrf)
    (hlookup : lookupIpPortNode s ((fillBuf stack pBuf).load32 (etherHeaderSize + IpHdr.srcaddr))
      (serverPortOf (fillBuf stack pBuf) (ipHdrLen (fillBuf stack pBuf) etherHeaderSize)) =
      .ret (some (multiIp, multiPort, index, rowId)))
    (hopen : env.pcapOpenLive "eth0".toList = true) (hsend : env.pcapSendpacket = true) :
    ∃ st' out, handleIncomingData env s st stack pBuf = .ret (1, st', out) ∧ ∃ o ∈ out,
      o.packet.length =
        (htons ((fillBuf stack pBuf).load16 (etherHeaderSize + IpHdr.totallength))).toNat := by
  unfold handleIncomingData
  simp only
  rw [hlookup, Outcome.ret_bind]
  simp only [hvrrf]
  refine ⟨_, _, rfl, ?_⟩
  rw [if_neg (by decide), if_pos trivial]
  unfold restructPktOthersProto sendPacket
  simp only [hopen, hsend, Bool.not_true, Bool.false_eq_true, if_false, if_true]
  refine ⟨_, List.mem_singleton_self _, ?_⟩
  rw [Output.packet, Memory.bytes_drop, Memory.length_bytes, Memory.load16_congr
    (putEthHdr_of_le _ rfl (by decide)) (putEthHdr_of_le _ rfl (by decide))]

end

end MulticastProxy.LinuxClient
