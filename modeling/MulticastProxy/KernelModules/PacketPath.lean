import MulticastProxy.KernelServer.Hook
import MulticastProxy.KernelClient.Checksums

/-!
# Kernel modules: the way of one datagram

A copy leaves through the server module's hook, is carried by the network and comes in through the
client module's hook. What lies between the two hooks is not part of the repository: `Carried` says
what is relied on.
-/

namespace MulticastProxy

set_option autoImplicit false

open KernelClient (RxSkb CsumUpdate hookEntry)
open KernelServer (CopyFate memberCopy MemberEdge)

/-- The UDP checksum of a packet, where it has one. -/
def UdpOk (skb : RxSkb) : Prop :=
  skb.fragOff &&& ipOffset = 0 → skb.UdpAbsent ∨ skb.UdpValid

/-- The same datagram: two buffers differ in the type of service, the time to live, the destination
and the checksums at most. A later fragment has no UDP checksum. -/
structure SameDatagram (skb skb' : RxSkb) : Prop where
  saddr : skb'.saddr = skb.saddr
  protocol : skb'.protocol = skb.protocol
  totLen : skb'.totLen = skb.totLen
  fragOff : skb'.fragOff = skb.fragOff
  verIhl : skb'.verIhl = skb.verIhl
  id : skb'.id = skb.id
  options : skb'.options = skb.options
  later : skb'.later = skb.later
  length : skb'.transport.length = skb.transport.length
  bytes : ∀ i, (skb.fragOff &&& ipOffset = 0 → i ≠ 6 ∧ i ≠ 7) →
    skb'.transport.getD i 0 = skb.transport.getD i 0

/-- Between the two hooks: the sender's kernel makes the header's checksum and completes that of
UDP, routers lower the time to live, and every checksum is right on arrival. -/
structure Carried (skb skb' : RxSkb) : Prop where
  same : SameDatagram skb skb'
  daddr : skb'.daddr = skb.daddr
  tos : skb'.tos = skb.tos
  ttl : skb'.ttl ≤ skb.ttl
  checks : UdpOk skb → skb'.ChecksumsOk

/-- `skb_copy`: the copy's bytes are in one piece. -/
def copyOf (skb : RxSkb) (newSkb : Skb) : RxSkb :=
  { skb with toSkb := newSkb, headlen := newSkb.transport.length }

/-- The server module's hook on whole buffers. -/
def tmcsHookLocalOut (jhash1word : UInt32 → UInt32 → UInt32) (csum : CsumUpdate)
    (fate : Nat → CopyFate) (m : KernelServer.Module) (skb : RxSkb) :
    KernelServer.Module × List RxSkb :=
  let (m, copies) :=
    KernelServer.tmcsHookLocalOut jhash1word (csum.replace skb.csumPartial) fate m skb.toSkb
  (m, copies.map (copyOf skb))

/-! ## One datagram -/

section
variable {skb skb' skb'' : RxSkb}

theorem SameDatagram.refl (skb : RxSkb) : SameDatagram skb skb :=
  ⟨rfl, rfl, rfl, rfl, rfl, rfl, rfl, rfl, rfl, fun _ _ => rfl⟩

theorem SameDatagram.trans (h : SameDatagram skb skb') (h' : SameDatagram skb' skb'') :
    SameDatagram skb skb'' where
  saddr := h'.saddr.trans h.saddr
  protocol := h'.protocol.trans h.protocol
  totLen := h'.totLen.trans h.totLen
  fragOff := h'.fragOff.trans h.fragOff
  verIhl := h'.verIhl.trans h.verIhl
  id := h'.id.trans h.id
  options := h'.options.trans h.options
  later := h'.later.trans h.later
  length := h'.length.trans h.length
  bytes i hi := (h'.bytes i (by rwa [h.fragOff])).trans (h.bytes i hi)

/-- The ports are the same, and so is all that follows the checksum. -/
theorem SameDatagram.udpDest (h : SameDatagram skb skb') :
    udpDest skb'.transport = udpDest skb.transport := by
  have h2 := h.bytes 2 fun _ => by decide
  have h3 := h.bytes 3 fun _ => by decide
  simp only [MulticastProxy.udpDest, word16, h2, h3]

end

/-! ## The rewriting -/

section
variable {csum : CsumUpdate} {skb : RxSkb} {daddr : UInt32}

theorem getD_setWord16 (bytes : List UInt8) (v : UInt16) {i : Nat} (h6 : i ≠ 6) (h7 : i ≠ 7) :
    (setWord16 bytes 6 v).getD i 0 = bytes.getD i 0 := by
  rw [setWord16, List.getD_eq_getElem?_getD, List.getElem?_set_ne h7.symm,
    List.getElem?_set_ne h6.symm, List.getD_eq_getElem?_getD]

theorem sameDatagram_dnat (csum : CsumUpdate) (skb : RxSkb) (daddr : UInt32) :
    SameDatagram skb (skb.dnat csum daddr) := by
  unfold RxSkb.dnat
  split
  · rename_i hoff
    refine ⟨rfl, rfl, rfl, rfl, rfl, rfl, rfl, rfl, ?_, ?_⟩
    · simp only
      split
      · exact length_setWord16 _ _ _
      · rfl
    · intro i hi
      obtain ⟨h6, h7⟩ := hi hoff
      simp only
      split
      · exact getD_setWord16 _ _ h6 h7
      · rfl
  · exact ⟨rfl, rfl, rfl, rfl, rfl, rfl, rfl, rfl, rfl, fun _ _ => rfl⟩

theorem dnat_daddr (csum : CsumUpdate) (skb : RxSkb) (daddr : UInt32) :
    (skb.dnat csum daddr).daddr = daddr := by
  unfold RxSkb.dnat
  split <;> rfl

theorem dnat_tos (csum : CsumUpdate) (skb : RxSkb) (daddr : UInt32) :
    (skb.dnat csum daddr).tos = skb.tos := by
  unfold RxSkb.dnat
  split <;> rfl

theorem dnat_ttl (csum : CsumUpdate) (skb : RxSkb) (daddr : UInt32) :
    (skb.dnat csum daddr).ttl = skb.ttl := by
  unfold RxSkb.dnat
  split <;> rfl

/-- A UDP checksum in the buffer itself follows the new destination. -/
theorem udpOk_dnat (hcsum : csum.Incremental) (hlen : 8 ≤ skb.transport.length)
    (hlinear : skb.HeaderLinear) (hok : UdpOk skb) : UdpOk (skb.dnat csum daddr) := by
  by_cases hoff : skb.fragOff &&& ipOffset = 0
  · by_cases habsent : skb.UdpAbsent
    · rw [RxSkb.dnat_header hoff (Or.inl habsent)]
      exact fun _ => Or.inl habsent
    · have hvalid : skb.UdpValid := (hok hoff).resolve_left habsent
      obtain ⟨repaired, hrepaired, hdnat⟩ := RxSkb.dnat_linear csum daddr hoff habsent hlinear
      rw [hdnat]
      exact fun _ => Or.inr (RxSkb.udpValid_repaired hcsum hlen hvalid _ hrepaired)
  · rw [RxSkb.dnat_fragment hoff]
    exact fun h => absurd h hoff

theorem toSkb_dnat (csum : CsumUpdate) {skb : RxSkb} (hlinear : skb.HeaderLinear)
    (daddr : UInt32) :
    (skb.dnat csum daddr).toSkb = skb.toSkb.dnat (csum.replace skb.csumPartial) daddr := by
  unfold RxSkb.dnat Skb.dnat
  simp only [hlinear, and_true]
  split <;> rfl

end

/-! ## A copy -/

section
variable {jhash1word : UInt32 → UInt32 → UInt32} {csum : CsumUpdate} {skb newSkb : RxSkb}

/-- What the hook has written before it rewrites the destination. -/
def markedCopy (skb : RxSkb) : RxSkb :=
  { skb with
    ttl := if skb.ttl < 64 then 64 else skb.ttl
    tos := 0xE0
    headlen := skb.transport.length }

theorem copyOf_memberCopy (csum : CsumUpdate) (hlen : 8 ≤ skb.transport.length) (vmIp : UInt32) :
    copyOf skb (memberCopy (csum.replace skb.csumPartial) skb.toSkb vmIp) =
      (markedCopy skb).dnat csum vmIp := by
  have hlinear : (markedCopy skb).HeaderLinear := hlen
  have hto := toSkb_dnat csum hlinear vmIp
  have hkeep : (markedCopy skb).dnat csum vmIp = { markedCopy skb with
      toSkb := ((markedCopy skb).dnat csum vmIp).toSkb } := by
    unfold RxSkb.dnat
    split <;> rfl
  rw [hkeep, hto]
  unfold copyOf memberCopy
  rw [Skb.dnat_length]
  rfl

/-- What a copy is: the datagram, marked and on its way to a member. -/
structure IsCopy (skb newSkb : RxSkb) : Prop where
  same : SameDatagram skb newSkb
  tos : newSkb.tos = 0xE0
  ttl : 64 ≤ newSkb.ttl
  udp : UdpOk skb → UdpOk newSkb

theorem isCopy_dnat (hcsum : csum.Incremental) (hlen : 8 ≤ skb.transport.length) (vmIp : UInt32) :
    IsCopy skb ((markedCopy skb).dnat csum vmIp) where
  same := by
    have hmarked : SameDatagram skb (markedCopy skb) :=
      ⟨rfl, rfl, rfl, rfl, rfl, rfl, rfl, rfl, rfl, fun _ _ => rfl⟩
    exact hmarked.trans (sameDatagram_dnat csum _ vmIp)
  tos := dnat_tos csum _ vmIp
  ttl := by
    rw [dnat_ttl, markedCopy]
    simp only
    split
    · exact UInt8.le_refl _
    · rename_i h
      exact UInt8.not_lt.mp h
  udp hok := by
    have hlinear : (markedCopy skb).HeaderLinear := hlen
    exact udpOk_dnat hcsum hlen hlinear hok

/-- Every copy sent is one of the datagram, and its destination a member of the datagram's group. -/
theorem mem_tmcsHookLocalOut (hcsum : csum.Incremental) {fate : Nat → CopyFate}
    {m : KernelServer.Module} (h : newSkb ∈ (tmcsHookLocalOut jhash1word csum fate m skb).2) :
    MemberEdge jhash1word m.table skb.daddr newSkb.daddr ∧ IsCopy skb newSkb := by
  obtain ⟨copy, hmem, rfl⟩ := List.mem_map.mp h
  have hcopy : copy ∈ (KernelServer.tmcsHookLocalOut jhash1word (csum.replace skb.csumPartial)
    fate m skb.toSkb).2 := hmem
  have hedge := KernelServer.Reenters.memberEdge (p := (m, skb.toSkb)) (q := (m, copy))
    ⟨⟨fate, hcopy⟩, rfl, rfl⟩
  have hmade : 8 ≤ skb.transport.length ∧ ∃ vmIp,
      copy = memberCopy (csum.replace skb.csumPartial) skb.toSkb vmIp := by
    unfold KernelServer.tmcsHookLocalOut at hcopy
    split at hcopy
    · cases hcopy
    · split at hcopy
      · cases hcopy
      · split at hcopy
        · cases hcopy
        · obtain ⟨hlen, vmIp, _, he⟩ := KernelServer.mem_copyLoop hcopy
          exact ⟨hlen, vmIp, he⟩
  obtain ⟨hlen, vmIp, rfl⟩ := hmade
  refine ⟨hedge, ?_⟩
  rw [copyOf_memberCopy csum hlen]
  exact isCopy_dnat hcsum hlen vmIp

/-- Where all calls succeed, each member of the group gets one copy, in the order of the list. -/
theorem tmcsHookLocalOut_sent (csum : CsumUpdate) {m : KernelServer.Module} {memberCnt : Nat}
    {grpIdx : UInt8} {vmIpList : List UInt32} (hudp : skb.protocol = ipprotoUdp)
    (hlen : 8 ≤ skb.transport.length)
    (hlook : KernelServer.lookupMultiNode jhash1word m.table skb.daddr =
      some (memberCnt, grpIdx, vmIpList)) :
    (tmcsHookLocalOut jhash1word csum (fun _ => .sent) m skb).2 =
      vmIpList.map fun vmIp => (markedCopy skb).dnat csum vmIp := by
  have hcopies : (KernelServer.tmcsHookLocalOut jhash1word (csum.replace skb.csumPartial)
      (fun _ => .sent) m skb.toSkb).2 =
        vmIpList.map (memberCopy (csum.replace skb.csumPartial) skb.toSkb) := by
    unfold KernelServer.tmcsHookLocalOut
    rw [if_neg (not_not.mpr hudp), hlook]
    simp only
    split
    · rename_i hcnt
      have hnil : vmIpList = [] := by
        rw [KernelServer.lookupMultiNode_eq, Option.map_eq_some_iff] at hlook
        obtain ⟨node, _, he⟩ := hlook
        simp only [Prod.mk.injEq] at he
        obtain ⟨rfl, _, rfl⟩ := he
        rw [hcnt]
        rfl
      rw [hnil]
      rfl
    · exact KernelServer.copyLoop_sent hlen _ _ _ _
  unfold tmcsHookLocalOut
  simp only [hcopies, List.map_map]
  apply List.map_congr_left
  intro vmIp _
  exact copyOf_memberCopy csum hlen vmIp

end

/-! ## The network -/

/-- A packet can be carried: there is a checksum for its header. -/
theorem exists_carried (skb : RxSkb) :
    ∃ skb', Carried skb skb' ∧ skb'.headlen = skb.transport.length := by
  let bare : RxSkb := { skb with check := 0 }
  let carried : RxSkb := { skb with
    check := OnesComplement.complement bare.ipSum
    headlen := skb.transport.length }
  have hsum : carried.ipSum = bare.ipSum + (OnesComplement.complement bare.ipSum).toNat := by
    have hzero : (0 : UInt16).toNat = 0 := rfl
    simp only [carried, bare, RxSkb.ipSum, hzero]
    omega
  refine ⟨carried, ⟨?_, rfl, rfl, UInt8.le_refl _, fun hok => ⟨?_, hok⟩⟩, rfl⟩
  · exact ⟨rfl, rfl, rfl, rfl, rfl, rfl, rfl, rfl, rfl, fun _ _ => rfl⟩
  · rw [hsum]
    exact OnesComplement.valid_add_complement _

/-! ## The arrival -/

section
variable (jhash2words : UInt32 → UInt32 → UInt32 → UInt32) {csum : CsumUpdate} {skb : RxSkb}
variable (m : KernelClient.Module)

/-- The hook lets a packet pass, or it is a marked one, an entry for its sender names the group that
becomes its destination, and its checksums are right unless the UDP header lies outside the linear
area. -/
theorem tmccHookLocalIn_cases (hcsum : csum.Incremental) (hok : skb.ChecksumsOk) :
    (skb.tmccHookLocalIn jhash2words csum m).2 = skb ∨
    ∃ multiIp, (skb.tmccHookLocalIn jhash2words csum m).2 = skb.dnat csum multiIp ∧
      skb.protocol = ipprotoUdp ∧ skb.tos = 0xE0 ∧
      KernelClient.groupFor jhash2words m.table skb.saddr (udpDest skb.transport) = some multiIp ∧
      (skb.fragOff &&& ipOffset = 0 → skb.HeaderLinear → (skb.dnat csum multiIp).ChecksumsOk) := by
  unfold RxSkb.tmccHookLocalIn
  cases hentry : hookEntry jhash2words m.table skb.toSkb with
  | none => exact Or.inl rfl
  | some found =>
    obtain ⟨hudp, hlen⟩ := KernelClient.hookEntry_some hentry
    have htos : skb.tos = 0xE0 := by
      by_contra hne
      unfold hookEntry at hentry
      split at hentry
      · cases hentry
      · split at hentry
        · cases hentry
        · split at hentry
          · cases hentry
          · cases hentry
    have hgroup : (hookEntry jhash2words m.table skb.toSkb).map Prod.fst = _ :=
      KernelClient.hookEntry_marked hudp htos
    rw [if_neg (by omega), hentry] at hgroup
    refine Or.inr ⟨found.1, rfl, hudp, htos, hgroup.symm, fun hoff hlinear => ?_⟩
    exact (RxSkb.checksumsOk_dnat_iff hcsum hudp hlen hok).mpr (Or.inr ⟨hoff, Or.inl hlinear⟩)

variable {jhash2words m}

theorem tmccHookLocalIn_of_group (csum : CsumUpdate) (hudp : skb.protocol = ipprotoUdp)
    (htos : skb.tos = 0xE0) (hlen : 8 ≤ skb.transport.length) {multiIp : UInt32}
    (hgroup : KernelClient.groupFor jhash2words m.table skb.saddr (udpDest skb.transport) =
      some multiIp) :
    (skb.tmccHookLocalIn jhash2words csum m).2 = skb.dnat csum multiIp := by
  have hentry : (hookEntry jhash2words m.table skb.toSkb).map Prod.fst = _ :=
    KernelClient.hookEntry_marked hudp htos
  rw [if_neg (by omega), hgroup, Option.map_eq_some_iff] at hentry
  obtain ⟨found, hfound, rfl⟩ := hentry
  rw [RxSkb.tmccHookLocalIn, hfound]

end

/-! ## From one hook to the other -/

theorem map_daddr_copies (csum : CsumUpdate) (skb : RxSkb) (vmIpList : List UInt32) :
    ((vmIpList.map fun vmIp => (markedCopy skb).dnat csum vmIp).map fun copy => copy.daddr) =
      vmIpList := by
  rw [List.map_map]
  conv_rhs => rw [← List.map_id vmIpList]
  apply List.map_congr_left
  intro vmIp _
  exact dnat_daddr csum _ vmIp

/-- A copy that comes in where an entry for the sender names a group. -/
theorem taken_of_carried {jhash2words : UInt32 → UInt32 → UInt32 → UInt32} {csum : CsumUpdate}
    (hcsum : csum.Incremental) {m : KernelClient.Module} {d copy skb : RxSkb}
    (hudp : d.protocol = ipprotoUdp) (hlen : 8 ≤ d.transport.length)
    (hwhole : d.fragOff &&& ipOffset = 0) (hok : UdpOk d) (hcopy : IsCopy d copy)
    (hcarried : Carried copy skb) (hlinear : skb.HeaderLinear) {multiIp : UInt32}
    (hgroup : KernelClient.groupFor jhash2words m.table d.saddr (udpDest d.transport) =
      some multiIp) :
    let taken := (skb.tmccHookLocalIn jhash2words csum m).2
    SameDatagram d taken ∧ taken.daddr = multiIp ∧ taken.tos = 0xE0 ∧ taken.ttl = skb.ttl ∧
      taken.ChecksumsOk := by
  have hsame : SameDatagram d skb := hcopy.same.trans hcarried.same
  have hchecks := hcarried.checks (hcopy.udp hok)
  have hprotocol : skb.protocol = ipprotoUdp := hsame.protocol.trans hudp
  have htos : skb.tos = 0xE0 := hcarried.tos.trans hcopy.tos
  have hlen' : 8 ≤ skb.transport.length := hsame.length.symm ▸ hlen
  rw [← hsame.saddr, ← hsame.udpDest] at hgroup
  rw [tmccHookLocalIn_of_group csum hprotocol htos hlen' hgroup]
  refine ⟨hsame.trans (sameDatagram_dnat csum skb _), dnat_daddr csum skb _, ?_, ?_, ?_⟩
  · rw [dnat_tos, htos]
  · exact dnat_ttl csum skb _
  · have hoff : skb.fragOff &&& ipOffset = 0 := by rw [hsame.fragOff, hwhole]
    exact (RxSkb.checksumsOk_dnat_iff hcsum hprotocol hlen' hchecks).mpr
      (Or.inr ⟨hoff, Or.inl hlinear⟩)

/-- A whole datagram to a group, where every call of the hook succeeds: each member in turn gets a
copy. Whatever the network did to it, where its UDP header arrives in the linear area the client
module of a member that knows the sender's group takes it in as the datagram to the group, with
right checksums and a mark on it. -/
theorem fan_out_restores {jhash1word : UInt32 → UInt32 → UInt32}
    {jhash2words : UInt32 → UInt32 → UInt32 → UInt32} {csum : CsumUpdate}
    (hcsum : csum.Incremental) (m : KernelServer.Module) (client : UInt32 → KernelClient.Module)
    {d : RxSkb} (hudp : d.protocol = ipprotoUdp) (hlen : 8 ≤ d.transport.length)
    (hwhole : d.fragOff &&& ipOffset = 0) (hok : UdpOk d)
    {memberCnt : Nat} {grpIdx : UInt8} {vmIpList : List UInt32}
    (hlook : KernelServer.lookupMultiNode jhash1word m.table d.daddr =
      some (memberCnt, grpIdx, vmIpList)) :
    ((tmcsHookLocalOut jhash1word csum (fun _ => .sent) m d).2.map fun copy => copy.daddr) =
        vmIpList ∧
      ∀ copy ∈ (tmcsHookLocalOut jhash1word csum (fun _ => .sent) m d).2, 64 ≤ copy.ttl ∧
        ∀ skb, Carried copy skb → skb.HeaderLinear →
          KernelClient.groupFor jhash2words (client skb.daddr).table d.saddr
            (udpDest d.transport) = some d.daddr →
          let taken := (skb.tmccHookLocalIn jhash2words csum (client skb.daddr)).2
          SameDatagram d taken ∧ taken.daddr = d.daddr ∧ taken.tos = 0xE0 ∧ taken.ttl = skb.ttl ∧
            taken.ChecksumsOk := by
  have hsent := tmcsHookLocalOut_sent csum hudp hlen hlook
  rw [hsent]
  refine ⟨map_daddr_copies csum d vmIpList, ?_⟩
  intro copy hcopy
  obtain ⟨vmIp, _, rfl⟩ := List.mem_map.mp hcopy
  have hmade := isCopy_dnat hcsum hlen vmIp
  refine ⟨hmade.ttl, fun skb hcarried hlinear hgroup => ?_⟩
  have hdaddr : skb.daddr = vmIp := hcarried.daddr.trans (dnat_daddr csum _ vmIp)
  rw [hdaddr] at hgroup ⊢
  exact taken_of_carried hcsum hudp hlen hwhole hok hmade hcarried hlinear hgroup

/-- A datagram of an application, with no UDP checksum and a time to live of 1. -/
def groupDatagram : RxSkb where
  tos := 0
  totLen := 36
  fragOff := 0
  ttl := 1
  protocol := ipprotoUdp
  check := 0
  saddr := 0x0A000001
  daddr := 0xE1000001
  transport := [0x27, 0x10, 0x13, 0x88, 0, 16, 0, 0, 0, 0, 0, 0, 0, 0, 0, 0]
  csumPartial := false
  verIhl := 0x45
  id := 0
  options := []
  headlen := 16
  later := []

theorem groupDatagram_udpOk : UdpOk groupDatagram := fun _ => Or.inl ⟨by decide, rfl⟩

/-- Two members, one copy for each. -/
theorem fan_out_restores_two : ∃ (m : KernelServer.Module) (client : KernelClient.Module),
    ((tmcsHookLocalOut (fun _ _ => 0) KernelClient.incrementalUpdate (fun _ => .sent) m
        groupDatagram).2.map fun copy => copy.daddr) = [0x0A000002, 0x0A000003] ∧
      ∀ copy ∈ (tmcsHookLocalOut (fun _ _ => 0) KernelClient.incrementalUpdate (fun _ => .sent) m
        groupDatagram).2, ∃ skb, Carried copy skb ∧
          (skb.tmccHookLocalIn (fun _ _ _ => 0) KernelClient.incrementalUpdate client).2.daddr =
            0xE1000001 := by
  obtain ⟨s, _, cnt, idx, hfound⟩ := KernelServer.joinMessage_multiNodeInit (fun _ _ => 0)
    0xE1000001 (show [(0x0A000002 : UInt32), 0x0A000003].length ≤ KernelServer.multiVmMax by decide)
  obtain ⟨s', _, hentry⟩ := KernelClient.addMultiNode_multiNodeInit (fun _ _ _ => 0) 0xE1000001
    0x0A000001 0
  have hgroup : KernelClient.groupFor (fun _ _ _ => 0) s' 0x0A000001 5000 = some 0xE1000001 := by
    simp [KernelClient.groupFor, hentry]
  have hudp : groupDatagram.protocol = ipprotoUdp := rfl
  obtain ⟨hmap, htaken⟩ := fan_out_restores KernelClient.incrementalUpdate_incremental
    ⟨s, ⟨0, 0, 0, 0, 0, 0⟩⟩ (fun _ => ⟨s', 0, 0⟩) hudp (by decide) (by decide) groupDatagram_udpOk
    hfound
  refine ⟨⟨s, ⟨0, 0, 0, 0, 0, 0⟩⟩, ⟨s', 0, 0⟩, hmap, fun copy hcopy => ?_⟩
  obtain ⟨skb, hcarried, hhead⟩ := exists_carried copy
  have hlinear : skb.HeaderLinear := by
    obtain ⟨_, hcopyOf⟩ := mem_tmcsHookLocalOut KernelClient.incrementalUpdate_incremental hcopy
    rw [RxSkb.HeaderLinear, hhead, hcopyOf.same.length]
    decide
  exact ⟨skb, hcarried, ((htaken copy hcopy).2 skb hcarried hlinear hgroup).2.1⟩

end MulticastProxy
