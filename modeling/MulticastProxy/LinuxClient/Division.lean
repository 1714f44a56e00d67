import MulticastProxy.Common.Address
import MulticastProxy.LinuxClient.HandleData
import MulticastProxy.LinuxClient.Config

/-!
# Linux client proxy: the remainder in the hash (`client_proxy/multi_grp.c`)

`ip_port_hash_key` takes the server's address modulo the port, whatever the port is. It comes from
the packet or from the config file, and nothing on the way refuses 0.
-/

namespace MulticastProxy.LinuxClient

set_option autoImplicit false

/-- A UDP packet with a destination port, or a VRRP packet. -/
def HasPort (buf : Memory) : Prop :=
  let protocol := buf (etherHeaderSize + IpHdr.protocol)
  protocol = ipprotoVrrf ∨ protocol = ipprotoUdp ∧
    buf.load16 (etherHeaderSize + ipHdrLen buf etherHeaderSize + UdpHdr.destPortno) ≠ 0

theorem htons_eq_zero_iff {x : UInt16} : htons x = 0 ↔ x = 0 := by
  constructor
  · intro h
    rw [← htons_htons x, h]
    rfl
  · rintro rfl
    rfl

theorem serverPortOf_ne_zero_iff (buf : Memory) :
    serverPortOf buf (ipHdrLen buf etherHeaderSize) ≠ 0 ↔ HasPort buf := by
  unfold serverPortOf HasPort
  by_cases hudp : buf (etherHeaderSize + IpHdr.protocol) = ipprotoUdp
  · have hvrrf : ipprotoUdp ≠ ipprotoVrrf := by decide
    simp only [hudp, if_true, true_and, hvrrf, false_or, ne_eq, htons_eq_zero_iff]
  · by_cases hvrrf : buf (etherHeaderSize + IpHdr.protocol) = ipprotoVrrf
    · rw [if_neg hudp, if_pos hvrrf]
      exact iff_of_true (by decide) (Or.inl hvrrf)
    · rw [if_neg hudp, if_neg hvrrf]
      apply iff_of_false (fun h => h rfl)
      rintro (h | ⟨h, _⟩)
      · exact hvrrf h
      · exact hudp h

theorem rawLookupIpPortNode_ne_fault_iff (s : State) (serverIp : UInt32) (port : UInt16) :
    rawLookupIpPortNode s serverIp port ≠ .fault ↔ port ≠ 0 := by
  unfold rawLookupIpPortNode
  split
  · rename_i hzero
    exact iff_of_false (fun h => h rfl) (fun h => h hzero)
  · rename_i hport
    exact iff_of_true (by simp) hport

theorem handleIncomingData_ne_fault_iff (env : Env) (s : State) (st : Stats) (stack : Memory)
    (pBuf : List UInt8) :
    handleIncomingData env s st stack pBuf ≠ .fault ↔ HasPort (fillBuf stack pBuf) := by
  rw [← serverPortOf_ne_zero_iff, ← rawLookupIpPortNode_ne_fault_iff s
    ((fillBuf stack pBuf).load32 (etherHeaderSize + IpHdr.srcaddr))]
  unfold handleIncomingData lookupIpPortNode
  simp only
  cases rawLookupIpPortNode s ((fillBuf stack pBuf).load32 (etherHeaderSize + IpHdr.srcaddr))
    (serverPortOf (fillBuf stack pBuf) (ipHdrLen (fillBuf stack pBuf) etherHeaderSize)) with
  | ret found =>
    cases found with
    | none => simp
    | some row => simp
  | hang => simp
  | fault => simp

theorem addMultiNode_ne_fault_iff (s : State) (multiIp : UInt32) (multiPort : UInt16)
    (serverIp : UInt32) (serverPort : UInt16) :
    addMultiNode s multiIp multiPort serverIp serverPort ≠ .fault ↔ serverPort ≠ 0 := by
  rw [← rawLookupIpPortNode_ne_fault_iff s serverIp]
  unfold addMultiNode
  cases rawLookupIpPortNode s serverIp serverPort with
  | ret found =>
    cases found with
    | none =>
      simp only [Outcome.ret_bind]
      split <;> simp
    | some row =>
      simp only [Outcome.ret_bind]
      split <;> simp
  | hang => simp
  | fault => simp

/-- Packets other than UDP and VRRP, the destination port 0 and a server port that is 0 in 16 bits
divide by zero, all others do not, in every table. -/
theorem division_iff (inetAddr : List Char → UInt32) (s : State) :
    (∀ env st stack pBuf,
      handleIncomingData env s st stack pBuf ≠ .fault ↔ HasPort (fillBuf stack pBuf)) ∧
    ∀ grpObj : GrpObj,
      addMultiNode s (inetAddr grpObj.groupIp) grpObj.groupPort.toUInt16
        (inetAddr grpObj.serverIp) grpObj.serverPort.toUInt16 ≠ .fault ↔
        grpObj.serverPort.toUInt16 ≠ 0 :=
  ⟨fun env st stack pBuf => handleIncomingData_ne_fault_iff env s st stack pBuf,
    fun _ => addMultiNode_ne_fault_iff s _ _ _ _⟩

/-- An ICMP packet from 10.0.0.1, the header alone. -/
def icmp : List UInt8 :=
  [0x45, 0, 0, 20, 0, 0, 0, 0, 64, 1, 0, 0, 10, 0, 0, 1, 10, 0, 0, 2]

theorem not_division : ¬ ((∀ env s st stack pBuf, handleIncomingData env s st stack pBuf ≠ .fault) ∧
    ∀ s, ∀ grpObj : GrpObj, grpObj.serverPort ≤ 65535 →
      addMultiNode s (inetAddrQuad grpObj.groupIp) grpObj.groupPort.toUInt16
        (inetAddrQuad grpObj.serverIp) grpObj.serverPort.toUInt16 ≠ .fault) := by
  rintro ⟨hpacket, _⟩
  have henv : Env := ⟨[], fun _ => true, true, true, true⟩
  have hport := (handleIncomingData_ne_fault_iff henv multiNodeInit ⟨0, 0, 0⟩ (fun _ => 0) icmp).mp
    (hpacket _ _ _ _ _)
  rcases hport with h | ⟨h, _⟩
  · exact absurd h (by decide)
  · exact absurd h (by decide)

end MulticastProxy.LinuxClient
