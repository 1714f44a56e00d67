import MulticastProxy.Library.BucketTable
import MulticastProxy.Library.Outcome

/-!
# Kernel client: entry table (`kmod/multic_grp.c`, `include/grp.h`)

Entries map a server's address and port to a group address. The kernel's `jhash_2words` is a
parameter.
-/

namespace MulticastProxy.KernelClient

set_option autoImplicit false

abbrev multiGrpBucket : Nat := 1024
abbrev multiGrpDepth : Nat := 512
abbrev multiGrpMax : Nat := 1024

abbrev multiNodeExsit : Int := 1000
abbrev multiNodeNotExsit : Int := 1001
abbrev multiIdxExhaust : Int := 1002
abbrev multiTblFull : Int := 1004

structure MultiNode where
  multiIp : UInt32
  serverIp : UInt32
  port : UInt16
  created : Bool
  rxPackets : UInt64
  rxBytes : UInt64
  deriving DecidableEq, Repr

def MultiNode.zero : MultiNode := ⟨0, 0, 0, false, 0, 0⟩

structure State where
  multiGrp : Nat → Nat → MultiNode
  nodeCnt : Int

def multiNodeInit : State where
  multiGrp := fun _ _ => .zero
  nodeCnt := 0

variable (jhash2words : UInt32 → UInt32 → UInt32 → UInt32)

def ipPortHashKey (serverIp : UInt32) (port : UInt16) (maxnum : Nat) : Nat :=
  (jhash2words serverIp port.toUInt32 0).toNat % maxnum

/-- `multi_grp` as a hash table keyed by server address and port. -/
def layout : BucketLayout MultiNode (UInt32 × UInt16) where
  live := fun node => node.created
  key := fun node => (node.serverIp, node.port)
  hash := fun k => ipPortHashKey jhash2words k.1 k.2 multiGrpBucket
  depth := multiGrpDepth

/-- `__lookup_ip_port_node`: the row of the node in its bucket. -/
def rawLookupIpPortNode (s : State) (serverIp : UInt32) (port : UInt16) : Option Nat :=
  (layout jhash2words).find s.multiGrp (serverIp, port)

/-- Group address, bucket and row of an entry. -/
def lookupIpPortNode (s : State) (serverIp : UInt32) (port : UInt16) :
    Option (UInt32 × Nat × Nat) :=
  let index := ipPortHashKey jhash2words serverIp port multiGrpBucket
  (rawLookupIpPortNode jhash2words s serverIp port).map fun rowId =>
    ((s.multiGrp index rowId).multiIp, index, rowId)

/-- The capacity is checked first, also where an entry is only rewritten. The free-cell loop counts
in a `uint8_t`; one round of 256 steps decides it (`Search.byteSearch_round`). -/
def addMultiNode (s : State) (multiIp serverIp : UInt32) (port : UInt16) : Outcome (Int × State) :=
  let index := ipPortHashKey jhash2words serverIp port multiGrpBucket
  if multiGrpMax ≤ s.nodeCnt then .ret (multiTblFull, s)
  else
    match rawLookupIpPortNode jhash2words s serverIp port with
    | some rowId =>
      let node := s.multiGrp index rowId
      if node.multiIp = multiIp then .ret (multiNodeExsit, s)
      else
        .ret (0,
          { s with multiGrp := BucketLayout.put s.multiGrp index rowId { node with multiIp } })
    | none =>
      match Search.byteSearch (fun i => !(s.multiGrp index i).created) multiGrpDepth 256 0 with
      | none => .hang
      | some none => .ret (multiIdxExhaust, s)
      | some (some i) =>
        .ret (0,
          { multiGrp := BucketLayout.put s.multiGrp index i
              { multiIp, serverIp, port, created := true, rxPackets := 0, rxBytes := 0 }
            nodeCnt := s.nodeCnt + 1 })

/-- The part of `add_multi_node` that runs under the lock, behind the check of the capacity. -/
def insertMultiNode (s : State) (multiIp serverIp : UInt32) (port : UInt16) :
    Outcome (Int × State) :=
  let index := ipPortHashKey jhash2words serverIp port multiGrpBucket
  match rawLookupIpPortNode jhash2words s serverIp port with
  | some rowId =>
    let node := s.multiGrp index rowId
    if node.multiIp = multiIp then .ret (multiNodeExsit, s)
    else
      .ret (0, { s with multiGrp := BucketLayout.put s.multiGrp index rowId { node with multiIp } })
  | none =>
    match Search.byteSearch (fun i => !(s.multiGrp index i).created) multiGrpDepth 256 0 with
    | none => .hang
    | some none => .ret (multiIdxExhaust, s)
    | some (some i) =>
      .ret (0,
        { multiGrp := BucketLayout.put s.multiGrp index i
            { multiIp, serverIp, port, created := true, rxPackets := 0, rxBytes := 0 }
          nodeCnt := s.nodeCnt + 1 })

theorem addMultiNode_eq (s : State) (multiIp serverIp : UInt32) (port : UInt16) :
    addMultiNode jhash2words s multiIp serverIp port =
      if multiGrpMax ≤ s.nodeCnt then .ret (multiTblFull, s)
      else insertMultiNode jhash2words s multiIp serverIp port := rfl

/-- The last node of the bucket moved into the hole, which keeps its counters. -/
def moveNode (nodeDel nodeMove : MultiNode) : MultiNode :=
  { nodeDel with
    multiIp := nodeMove.multiIp
    serverIp := nodeMove.serverIp
    port := nodeMove.port
    created := nodeMove.created }

def wipeNode (node : MultiNode) : MultiNode :=
  { node with created := false, multiIp := 0, serverIp := 0, port := 0 }

def delMultiNode (s : State) (serverIp : UInt32) (port : UInt16) : Int × State :=
  match rawLookupIpPortNode jhash2words s serverIp port with
  | none => (multiNodeNotExsit, s)
  | some rowId =>
    (0,
      { multiGrp := (layout jhash2words).remove moveNode wipeNode s.multiGrp
          (ipPortHashKey jhash2words serverIp port multiGrpBucket) rowId
        nodeCnt := s.nodeCnt - 1 })

def clearMultiNode (s : State) : Int × State :=
  (0,
    { multiGrp := fun i j => if i < multiGrpBucket then .zero else s.multiGrp i j
      nodeCnt := 0 })

def multiClientStats (s : State) (multiIp : UInt32) (bucket depth : Nat) (len : UInt16) : State :=
  let node := s.multiGrp bucket depth
  if multiIp = node.multiIp then
    { s with
      multiGrp := BucketLayout.put s.multiGrp bucket depth
        { node with rxPackets := node.rxPackets + 1, rxBytes := node.rxBytes + len.toUInt64 } }
  else s

/-! ## Netlink commands (`kmod/multic_nl.c`) -/

structure TmccNlServiceSt where
  port : UInt16
  serverIp : UInt32
  multiIp : UInt32
  deriving DecidableEq, Repr

inductive NlMessage where
  | serviceAdd (service : TmccNlServiceSt)
  | serviceDel (service : TmccNlServiceSt)
  | clientClear

/-- The code sent back by `netlink_ack` and the table after the command. -/
def tmccRcvSkb (s : State) : NlMessage → Outcome (Int × State)
  | .serviceAdd service =>
    addMultiNode jhash2words s service.multiIp service.serverIp service.port
  | .serviceDel service => .ret (delMultiNode jhash2words s service.serverIp service.port)
  | .clientClear => .ret (clearMultiNode s)

end MulticastProxy.KernelClient
