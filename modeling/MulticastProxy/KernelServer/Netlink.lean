import MulticastProxy.KernelServer.Group

/-!
# Kernel server: netlink commands (`kmod/multis_nl.c`)

The messages that change the table. The kernel runs one to its end before it acknowledges it.
-/

namespace MulticastProxy.KernelServer

set_option autoImplicit false

abbrev multiOptJoin : UInt8 := 1
abbrev multiOptQuit : UInt8 := 2

/-- A request. `ipList` is what the kernel reads at each offset of the message's array,
the bytes behind the array included. -/
structure TmccNlServiceSt where
  action : UInt8
  multiIp : UInt32
  ipNum : UInt32
  ipList : Nat → UInt32

/-- A request as the tool fills it in: the cells of `ip_list` behind the addresses are zero. -/
def TmccNlServiceSt.ofList (action : UInt8) (multiIp : UInt32) (ips : List UInt32) :
    TmccNlServiceSt where
  action := action
  multiIp := multiIp
  ipNum := UInt32.ofNat ips.length
  ipList := fun i => ips.getD i 0

def TmccNlServiceSt.ips (service : TmccNlServiceSt) : List UInt32 :=
  cells service.ipList service.ipNum.toNat

theorem TmccNlServiceSt.ipNum_ofList (action : UInt8) (multiIp : UInt32) {ips : List UInt32}
    (h : ips.length < 2 ^ 32) : (ofList action multiIp ips).ipNum.toNat = ips.length := by
  simpa [ofList] using Nat.mod_eq_of_lt h

theorem TmccNlServiceSt.ips_ofList (action : UInt8) (multiIp : UInt32) {ips : List UInt32}
    (h : ips.length < 2 ^ 32) : (ofList action multiIp ips).ips = ips := by
  apply List.ext_getElem
  · rw [TmccNlServiceSt.ips, length_cells, ipNum_ofList action multiIp h]
  · intro i h1 h2
    simp [TmccNlServiceSt.ips, ofList, cells, h2]

inductive NlMessage where
  | serviceAdd (service : TmccNlServiceSt)
  | serviceDel (service : TmccNlServiceSt)
  | serverClear
  | serviceCheckUpdate (service : TmccNlServiceSt)

variable (jhash1word : UInt32 → UInt32 → UInt32)

def multiNlNodeAdd (s : State) (service : TmccNlServiceSt) : Outcome (Int × State) :=
  if service.action = multiOptJoin then
    addMultiNode jhash1word s service.multiIp service.ipList service.ipNum.toNat
  else if service.action = multiOptQuit then
    .ret (vmQuitFromMultiGrp jhash1word s service.multiIp service.ipList service.ipNum.toNat)
  else .ret (0, s)

def multiNlNodeDelete (s : State) (service : TmccNlServiceSt) : Int × State :=
  delMultiNode jhash1word s service.multiIp

def multiNlNodeClear (s : State) : Int × State := (0, clearMultiGroup s)

def multiNlVmListAppend (s : State) (service : TmccNlServiceSt) : Outcome (Int × State) := do
  let (ret, s) ←
    appendVmIpList jhash1word s service.multiIp service.ipList service.ipNum.toNat
  .ret (if ret ≠ 0 then -1 else 0, s)

/-- The code sent back by `netlink_ack` and the table after the command. -/
def tmccRcvSkb (s : State) : NlMessage → Outcome (Int × State)
  | .serviceAdd service => multiNlNodeAdd jhash1word s service
  | .serviceDel service => .ret (multiNlNodeDelete jhash1word s service)
  | .serverClear => .ret (multiNlNodeClear s)
  | .serviceCheckUpdate service => multiNlVmListAppend jhash1word s service

def NlMessage.group : NlMessage → Option UInt32
  | .serviceAdd service => some service.multiIp
  | .serviceDel service => some service.multiIp
  | .serverClear => none
  | .serviceCheckUpdate service => some service.multiIp

end MulticastProxy.KernelServer
