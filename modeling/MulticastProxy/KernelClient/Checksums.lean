import MulticastProxy.KernelClient.Fragments
import MulticastProxy.Library.OnesComplement

/-!
# Kernel client: checksums of the rewritten packet (`kmod/multic_nf.c`)

`daddr` is written whatever packet it is. The IP header's checksum is repaired in packets with
fragment offset 0 only, the UDP checksum through `uh`, which may point to a copy of the header.
-/

namespace MulticastProxy.KernelClient

set_option autoImplicit false

open OnesComplement

/-- A buffer with the rest of its IP header and with the number of bytes behind that header that lie
in the linear area. `later` is no part of the buffer: what later fragments bring to the datagram. -/
structure RxSkb extends Skb where
  verIhl : UInt8
  id : UInt16
  options : List UInt16
  headlen : Nat
  later : List UInt8

/-- `csum_replace4` and `inet_proto_csum_replace4`; the latter sees whether `ip_summed` is
`CHECKSUM_PARTIAL`. -/
structure CsumUpdate where
  ip : UInt16 → UInt32 → UInt32 → UInt16
  proto : Bool → UInt16 → UInt32 → UInt32 → UInt16

/-- Both make the incremental update; for `CHECKSUM_PARTIAL` the word is a sum, not a complement. -/
structure CsumUpdate.Incremental (csum : CsumUpdate) : Prop where
  ip : ∀ check old new, csum.ip check old new = replace4 check old new
  full : ∀ check old new, csum.proto false check old new = replace4 check old new
  part : ∀ check old new, csum.proto true check old new = sumReplace4 check old new

/-- The updates of the parameter of the other results, for a buffer of one kind. -/
def CsumUpdate.replace (csum : CsumUpdate) (csumPartial : Bool) : CsumReplace :=
  ⟨csum.ip, csum.proto csumPartial⟩

namespace RxSkb

/-- `skb_header_pointer` points into the buffer. -/
def HeaderLinear (skb : RxSkb) : Prop := 8 ≤ skb.headlen

instance (skb : RxSkb) : Decidable skb.HeaderLinear := Nat.decLe _ _

/-- A repaired UDP checksum is stored through `uh`. -/
def dnat (csum : CsumUpdate) (skb : RxSkb) (daddr : UInt32) : RxSkb :=
  if skb.fragOff &&& ipOffset = 0 then
    let uh := skb.transport
    let repaired := csum.proto skb.csumPartial (udpCheck uh) skb.daddr daddr
    { skb with
      daddr
      check := csum.ip skb.check skb.daddr daddr
      transport :=
        if (udpCheck uh ≠ 0 ∨ skb.csumPartial = true) ∧ skb.HeaderLinear then
          setWord16 uh 6 (if repaired = 0 then csumMangled0 else repaired)
        else uh }
  else { skb with daddr }

def tmccHookLocalIn (jhash2words : UInt32 → UInt32 → UInt32 → UInt32) (csum : CsumUpdate)
    (m : Module) (skb : RxSkb) : Module × RxSkb :=
  match hookEntry jhash2words m.table skb.toSkb with
  | none => (m, skb)
  | some (multiIp, bucket, depth) =>
    ({ table := multiClientStats m.table multiIp bucket depth skb.totLen
       rxPackets := m.rxPackets + 1
       rxBytes := m.rxBytes + skb.totLen.toUInt64 }, skb.dnat csum multiIp)

/-- Where the UDP header is in the linear area, this is the hook of the other results. -/
theorem tmccHookLocalIn_linear {jhash2words : UInt32 → UInt32 → UInt32 → UInt32}
    {csum : CsumUpdate} (m : Module) {skb : RxSkb} (hlinear : skb.HeaderLinear) :
    KernelClient.tmccHookLocalIn jhash2words (csum.replace skb.csumPartial) m skb.toSkb =
      ((skb.tmccHookLocalIn jhash2words csum m).1,
        (skb.tmccHookLocalIn jhash2words csum m).2.toSkb) := by
  unfold KernelClient.tmccHookLocalIn tmccHookLocalIn
  cases hookEntry jhash2words m.table skb.toSkb with
  | none => rfl
  | some found =>
    have hdnat : (skb.dnat csum found.1).toSkb =
        skb.toSkb.dnat (csum.replace skb.csumPartial) found.1 := by
      unfold dnat Skb.dnat
      simp only [hlinear, and_true]
      split <;> rfl
    simp only [Skb.dnat_totLen, hdnat]

/-! ## Valid checksums -/

def ipSum (skb : RxSkb) : Nat :=
  256 * skb.verIhl.toNat + skb.tos.toNat + skb.totLen.toNat + skb.id.toNat + skb.fragOff.toNat +
    (256 * skb.ttl.toNat + skb.protocol.toNat) + skb.check.toNat + halves skb.saddr +
    halves skb.daddr + (skb.options.map UInt16.toNat).sum

def udpLen (skb : RxSkb) : Nat := (word16 skb.transport 4).toNat

def pseudoSum (skb : RxSkb) : Nat :=
  halves skb.saddr + halves skb.daddr + ipprotoUdp.toNat + skb.udpLen

def datagram (skb : RxSkb) : List UInt8 := (skb.transport ++ skb.later).take skb.udpLen

/-- No checksum has been made, nor will one be filled in later. -/
def UdpAbsent (skb : RxSkb) : Prop := udpCheck skb.transport = 0 ∧ skb.csumPartial = false

/-- Pseudo header and datagram check; for `CHECKSUM_PARTIAL`, where the sum over the datagram is
still to be added, the field holds the sum of the pseudo header. -/
def UdpValid (skb : RxSkb) : Prop :=
  if skb.csumPartial = true then (udpCheck skb.transport).toNat ≡ skb.pseudoSum [MOD 65535]
  else 8 ≤ skb.udpLen ∧ Valid (skb.pseudoSum + bytesSum skb.datagram)

/-- The checksums that a packet carries; only one with fragment offset 0 has a UDP header. -/
structure ChecksumsOk (skb : RxSkb) : Prop where
  ip : Valid skb.ipSum
  udp : skb.fragOff &&& ipOffset = 0 → skb.UdpAbsent ∨ skb.UdpValid

end RxSkb

/-! ## Storing a checksum -/

section Header
variable {bytes : List UInt8}

theorem header_cases (h : 8 ≤ bytes.length) : ∃ b0 b1 b2 b3 b4 b5 b6 b7 rest,
    bytes = b0 :: b1 :: b2 :: b3 :: b4 :: b5 :: b6 :: b7 :: rest := by
  match bytes, h with
  | b0 :: b1 :: b2 :: b3 :: b4 :: b5 :: b6 :: b7 :: rest, _ =>
    exact ⟨b0, b1, b2, b3, b4, b5, b6, b7, rest, rfl⟩

theorem udpCheck_setWord16 (h : 8 ≤ bytes.length) (v : UInt16) :
    udpCheck (setWord16 bytes 6 v) = v := by
  obtain ⟨b0, b1, b2, b3, b4, b5, b6, b7, rest, rfl⟩ := header_cases h
  apply UInt16.toNat_inj.mp
  rw [udpCheck, toNat_word16]
  exact toNat_bytes_of_word v

theorem udpLen_setWord16 (h : 8 ≤ bytes.length) (v : UInt16) :
    word16 (setWord16 bytes 6 v) 4 = word16 bytes 4 := by
  obtain ⟨b0, b1, b2, b3, b4, b5, b6, b7, rest, rfl⟩ := header_cases h
  rfl

/-- In the sum over the datagram the old checksum is exchanged for the new one. -/
theorem bytesSum_setWord16 (h : 8 ≤ bytes.length) (later : List UInt8) {n : Nat} (hn : 8 ≤ n)
    (v : UInt16) :
    bytesSum ((setWord16 bytes 6 v ++ later).take n) + (udpCheck bytes).toNat =
      bytesSum ((bytes ++ later).take n) + v.toNat := by
  obtain ⟨b0, b1, b2, b3, b4, b5, b6, b7, rest, rfl⟩ := header_cases h
  obtain ⟨k, rfl⟩ : ∃ k, n = k + 8 := ⟨n - 8, by omega⟩
  have hword := toNat_bytes_of_word v
  rw [udpCheck, toNat_word16, setWord16]
  simp only [List.set_cons_succ, List.set_cons_zero, List.cons_append, List.take_succ_cons,
    bytesSum, List.getD_cons_succ, List.getD_cons_zero]
  omega

end Header

/-! ## The rewritten packet -/

namespace RxSkb

variable {csum : CsumUpdate} {skb : RxSkb} {daddr : UInt32}

/-- Writing 0 as all ones changes no sum. -/
theorem mangled_modEq (v : UInt16) :
    (if v = 0 then csumMangled0 else v).toNat ≡ v.toNat [MOD 65535] := by
  split
  · rename_i h
    subst h
    decide
  · exact Nat.ModEq.refl _

theorem ipSum_pos (skb : RxSkb) (hudp : skb.protocol = ipprotoUdp) : 0 < skb.ipSum := by
  have h17 : skb.protocol.toNat = 17 := by
    rw [hudp]
    rfl
  unfold ipSum
  omega

theorem pseudoSum_pos (skb : RxSkb) : 0 < skb.pseudoSum := by
  have h17 : ipprotoUdp.toNat = 17 := rfl
  unfold pseudoSum
  omega

/-- In the pseudo header nothing but the destination is exchanged. -/
theorem pseudoSum_exchange {skb' : RxSkb} (hsaddr : skb'.saddr = skb.saddr)
    (hlen : skb'.udpLen = skb.udpLen) :
    skb'.pseudoSum + halves skb.daddr = skb.pseudoSum + halves skb'.daddr := by
  unfold pseudoSum
  rw [hsaddr, hlen]
  omega

theorem valid_ipSum_daddr (hudp : skb.protocol = ipprotoUdp) (hip : Valid skb.ipSum) :
    Valid ({ skb with daddr } : RxSkb).ipSum ↔ halves skb.daddr ≡ halves daddr [MOD 65535] := by
  apply valid_exchange hip
  · exact ipSum_pos { skb with daddr } hudp
  · unfold ipSum
    simp only
    omega

theorem valid_ipSum_replaced (hcsum : csum.Incremental) (hudp : skb.protocol = ipprotoUdp)
    (hip : Valid skb.ipSum) (daddr : UInt32) (transport : List UInt8) :
    Valid ({ skb with
      daddr, check := csum.ip skb.check skb.daddr daddr, transport } : RxSkb).ipSum := by
  have hsum := replace4_modEq skb.check skb.daddr daddr
  rw [← hcsum.ip] at hsum
  apply (valid_exchange hip ?_ ?_).mpr hsum.symm
  · exact ipSum_pos { skb with
      daddr, check := csum.ip skb.check skb.daddr daddr, transport } hudp
  · unfold ipSum
    simp only
    omega

theorem udpValid_daddr (hvalid : skb.UdpValid) (check : UInt16) :
    ({ skb with daddr, check } : RxSkb).UdpValid ↔
      halves skb.daddr ≡ halves daddr [MOD 65535] := by
  have hpseudo : ({ skb with daddr, check } : RxSkb).pseudoSum + halves skb.daddr =
      skb.pseudoSum + halves daddr := pseudoSum_exchange rfl rfl
  unfold UdpValid at hvalid ⊢
  simp only
  split at hvalid
  · rename_i hpart
    rw [if_pos hpart]
    unfold Nat.ModEq at hvalid ⊢
    omega
  · rename_i hfull
    rw [if_neg hfull]
    have hpos := pseudoSum_pos { skb with daddr, check }
    have hexchange := valid_exchange (b := ({ skb with daddr, check } : RxSkb).pseudoSum +
      bytesSum skb.datagram) (x := halves skb.daddr) (y := halves daddr) hvalid.2
      (by omega) (by omega)
    exact (and_iff_right hvalid.1).trans hexchange

theorem udpValid_repaired (hcsum : csum.Incremental) (hlen : 8 ≤ skb.transport.length)
    (hvalid : skb.UdpValid) (check : UInt16) {repaired : UInt16}
    (hrepaired : repaired =
      csum.proto skb.csumPartial (udpCheck skb.transport) skb.daddr daddr) :
    ({ skb with
      daddr, check
      transport := setWord16 skb.transport 6
        (if repaired = 0 then csumMangled0 else repaired) } : RxSkb).UdpValid := by
  have hmangled := mangled_modEq repaired
  generalize (if repaired = 0 then csumMangled0 else repaired) = v at hmangled
  have hsame : ({ skb with
      daddr, check, transport := setWord16 skb.transport 6 v } : RxSkb).udpLen = skb.udpLen :=
    congrArg UInt16.toNat (udpLen_setWord16 hlen v)
  have hpseudo : ({ skb with
      daddr, check, transport := setWord16 skb.transport 6 v } : RxSkb).pseudoSum +
      halves skb.daddr = skb.pseudoSum + halves daddr := pseudoSum_exchange rfl hsame
  have hpos := pseudoSum_pos { skb with
    daddr, check, transport := setWord16 skb.transport 6 v }
  unfold UdpValid at hvalid ⊢
  simp only
  split at hvalid
  · rename_i hpart
    have hsum := sumReplace4_modEq (udpCheck skb.transport) skb.daddr daddr
    rw [hpart, hcsum.part] at hrepaired
    rw [← hrepaired] at hsum
    rw [if_pos hpart, udpCheck_setWord16 hlen]
    unfold Nat.ModEq at hvalid hsum hmangled ⊢
    omega
  · rename_i hfull
    have hfalse : skb.csumPartial = false := Bool.eq_false_iff.mpr hfull
    have hsum := replace4_modEq (udpCheck skb.transport) skb.daddr daddr
    rw [hfalse, hcsum.full] at hrepaired
    rw [← hrepaired] at hsum
    have hbytes := bytesSum_setWord16 hlen skb.later hvalid.1 v
    have hdatagram : ({ skb with
        daddr, check, transport := setWord16 skb.transport 6 v } : RxSkb).datagram =
          (setWord16 skb.transport 6 v ++ skb.later).take skb.udpLen := by
      unfold datagram
      rw [hsame]
    rw [if_neg hfull, hdatagram, hsame]
    refine ⟨hvalid.1, ?_⟩
    have hexchange : (udpCheck skb.transport).toNat + halves skb.daddr ≡
        v.toNat + halves daddr [MOD 65535] := by
      unfold Nat.ModEq at hsum hmangled ⊢
      omega
    unfold datagram at hvalid
    apply (valid_exchange hvalid.2 ?_ ?_).mpr hexchange
    · exact Nat.add_pos_left hpos _
    · omega

theorem dnat_fragment (hoff : skb.fragOff &&& ipOffset ≠ 0) :
    skb.dnat csum daddr = { skb with daddr } := if_neg hoff

/-- Nothing in the buffer changes behind the IP header where there is no UDP checksum, and where
`uh` points to a copy. -/
theorem dnat_header (hoff : skb.fragOff &&& ipOffset = 0)
    (hkeep : skb.UdpAbsent ∨ ¬ skb.HeaderLinear) :
    skb.dnat csum daddr = { skb with daddr, check := csum.ip skb.check skb.daddr daddr } := by
  have hcond : ¬ ((udpCheck skb.transport ≠ 0 ∨ skb.csumPartial = true) ∧ skb.HeaderLinear) := by
    rintro ⟨hpresent, hlinear⟩
    rcases hkeep with ⟨hzero, hfull⟩ | hcopy
    · simp [hzero, hfull] at hpresent
    · exact hcopy hlinear
  unfold dnat
  simp only [if_pos hoff, if_neg hcond]

theorem dnat_linear (csum : CsumUpdate) (daddr : UInt32) (hoff : skb.fragOff &&& ipOffset = 0)
    (hpresent : ¬ skb.UdpAbsent) (hlinear : skb.HeaderLinear) : ∃ repaired,
    repaired = csum.proto skb.csumPartial (udpCheck skb.transport) skb.daddr daddr ∧
      skb.dnat csum daddr = { skb with
        daddr
        check := csum.ip skb.check skb.daddr daddr
        transport := setWord16 skb.transport 6
          (if repaired = 0 then csumMangled0 else repaired) } := by
  have hcond : (udpCheck skb.transport ≠ 0 ∨ skb.csumPartial = true) ∧ skb.HeaderLinear := by
    rw [UdpAbsent, not_and_or, Bool.not_eq_false] at hpresent
    exact ⟨hpresent, hlinear⟩
  refine ⟨_, rfl, ?_⟩
  unfold dnat
  simp only [if_pos hoff, if_pos hcond]

/-- A packet with fragment offset 0 is repaired where its UDP header is in the buffer itself, and
where there is no UDP checksum to repair; otherwise the addresses have to agree in their sum. -/
theorem checksumsOk_dnat_iff (hcsum : csum.Incremental) (hudp : skb.protocol = ipprotoUdp)
    (hlen : 8 ≤ skb.transport.length) (hok : skb.ChecksumsOk) :
    (skb.dnat csum daddr).ChecksumsOk ↔ halves skb.daddr ≡ halves daddr [MOD 65535] ∨
      skb.fragOff &&& ipOffset = 0 ∧ (skb.HeaderLinear ∨ skb.UdpAbsent) := by
  by_cases hoff : skb.fragOff &&& ipOffset = 0
  · have hip := valid_ipSum_replaced hcsum hudp hok.ip daddr
    by_cases habsent : skb.UdpAbsent
    · have hright : skb.fragOff &&& ipOffset = 0 ∧ (skb.HeaderLinear ∨ skb.UdpAbsent) :=
        ⟨hoff, Or.inr habsent⟩
      rw [dnat_header hoff (Or.inl habsent)]
      exact iff_of_true ⟨hip _, fun _ => Or.inl habsent⟩ (Or.inr hright)
    · have hvalid : skb.UdpValid := (hok.udp hoff).resolve_left habsent
      by_cases hlinear : skb.HeaderLinear
      · obtain ⟨repaired, hrepaired, hdnat⟩ := dnat_linear csum daddr hoff habsent hlinear
        have hudp' := udpValid_repaired hcsum hlen hvalid (csum.ip skb.check skb.daddr daddr)
          hrepaired
        rw [hdnat]
        exact iff_of_true ⟨hip _, fun _ => Or.inr hudp'⟩ (Or.inr ⟨hoff, Or.inl hlinear⟩)
      · -- the repaired checksum stays in the copy
        rw [dnat_header hoff (Or.inr hlinear)]
        constructor
        · intro h
          rcases h.udp hoff with habsent' | hvalid'
          · exact absurd habsent' habsent
          · exact Or.inl ((udpValid_daddr hvalid _).mp hvalid')
        · rintro (hsame | ⟨_, hlinear' | habsent'⟩)
          · exact ⟨hip _, fun _ => Or.inr ((udpValid_daddr hvalid _).mpr hsame)⟩
          · exact absurd hlinear' hlinear
          · exact absurd habsent' habsent
  · rw [dnat_fragment hoff]
    constructor
    · intro h
      exact Or.inl ((valid_ipSum_daddr hudp hok.ip).mp h.ip)
    · rintro (hsame | ⟨hzero, _⟩)
      · exact ⟨(valid_ipSum_daddr hudp hok.ip).mpr hsame, fun h => absurd h hoff⟩
      · exact absurd hzero hoff

end RxSkb

section
variable {jhash2words : UInt32 → UInt32 → UInt32 → UInt32} {csum : CsumUpdate}

/-- An entry is found for UDP packets with eight bytes behind the IP header only. -/
theorem hookEntry_some {s : State} {skb : Skb} {found : UInt32 × Nat × Nat}
    (h : hookEntry jhash2words s skb = some found) :
    skb.protocol = ipprotoUdp ∧ 8 ≤ skb.transport.length := by
  unfold hookEntry at h
  split at h
  · simp at h
  · rename_i hudp
    refine ⟨not_not.mp hudp, ?_⟩
    by_contra hshort
    rw [Skb.udpHeader, if_pos (by omega)] at h
    simp at h

/-- A packet with valid checksums that the hook rewrites: they are valid afterwards exactly where
the two addresses agree in their sum, or the packet has fragment offset 0 and its UDP header is in
the linear area or has no checksum. -/
theorem checksums_kept_iff (hcsum : csum.Incremental) {m : Module} {skb : RxSkb} {multiIp : UInt32}
    {bucket depth : Nat}
    (hentry : hookEntry jhash2words m.table skb.toSkb = some (multiIp, bucket, depth))
    (hok : skb.ChecksumsOk) :
    (skb.tmccHookLocalIn jhash2words csum m).2.ChecksumsOk ↔
      halves skb.daddr ≡ halves multiIp [MOD 65535] ∨
        skb.fragOff &&& ipOffset = 0 ∧ (skb.HeaderLinear ∨ skb.UdpAbsent) := by
  obtain ⟨hudp, hlen⟩ := hookEntry_some hentry
  rw [RxSkb.tmccHookLocalIn, hentry]
  exact RxSkb.checksumsOk_dnat_iff hcsum hudp hlen hok

end

/-! ## A datagram and a fragment of one -/

/-- The incremental updates themselves. -/
def incrementalUpdate : CsumUpdate where
  ip := replace4
  proto := fun csumPartial => if csumPartial then sumReplace4 else replace4

theorem incrementalUpdate_incremental : incrementalUpdate.Incremental where
  ip _ _ _ := rfl
  full _ _ _ := rfl
  part _ _ _ := rfl

/-- With one entry, for port 0 of 10.0.0.1, every marked packet of this server is rewritten. -/
theorem exists_hookEntry (jhash2words : UInt32 → UInt32 → UInt32 → UInt32) :
    ∃ s, Reachable jhash2words s ∧ ∀ f : Skb, f.protocol = ipprotoUdp → f.tos = 0xE0 →
      f.saddr = 0x0A000001 → 8 ≤ f.transport.length →
      ∃ bucket depth, hookEntry jhash2words s f = some (0xE1000001, bucket, depth) := by
  obtain ⟨s, hs, hentry⟩ := addMultiNode_multiNodeInit jhash2words 0xE1000001 0x0A000001 0
  have hstep : tmccRcvSkb jhash2words multiNodeInit
    (.serviceAdd ⟨0, 0x0A000001, 0xE1000001⟩) = .ret (0, s) := hs
  refine ⟨s, .step .init hstep, ?_⟩
  intro f hudp htos hsaddr hlen
  have hgroup : groupFor jhash2words s f.saddr (udpDest f.transport) = some 0xE1000001 := by
    rw [groupFor, hentry, hentry, hsaddr, if_pos rfl]
    split <;> rfl
  have hmarked : (hookEntry jhash2words s f).map Prod.fst = _ := hookEntry_marked hudp htos
  rw [if_neg (by omega), hgroup, Option.map_eq_some_iff] at hmarked
  obtain ⟨⟨multiIp, bucket, depth⟩, hfound, rfl⟩ := hmarked
  exact ⟨bucket, depth, hfound⟩

def wholeDatagram : RxSkb where
  toSkb := { marked with
    check := 26087
    transport := [0x27, 0x10, 0x13, 0x88, 0, 16, 0xB1, 0x33, 0, 0, 0, 0, 0, 0, 0, 0] }
  verIhl := 0x45
  id := 0
  options := []
  headlen := 16
  later := []

theorem checksums_kept_whole : ∃ m bucket depth,
    hookEntry (fun _ _ _ => 0) m.table wholeDatagram.toSkb = some (0xE1000001, bucket, depth) ∧
      (wholeDatagram.tmccHookLocalIn (fun _ _ _ => 0) incrementalUpdate m).2.ChecksumsOk := by
  obtain ⟨s, _, hrewritten⟩ := exists_hookEntry fun _ _ _ => 0
  obtain ⟨bucket, depth, hentry⟩ := hrewritten wholeDatagram.toSkb rfl rfl rfl (by decide)
  have hok : wholeDatagram.ChecksumsOk :=
    ⟨valid_iff.mpr (by decide), fun _ => Or.inr ⟨by decide, valid_iff.mpr (by decide)⟩⟩
  refine ⟨⟨s, 0, 0⟩, bucket, depth, hentry, ?_⟩
  apply (checksums_kept_iff incrementalUpdate_incremental hentry hok).mpr
  exact Or.inr ⟨by decide, Or.inl (by decide)⟩

def secondFragment : RxSkb where
  toSkb := { marked with
    totLen := 28
    fragOff := 1
    check := 26094
    transport := [0, 0, 0, 0, 0, 0, 0, 0] }
  verIhl := 0x45
  id := 0
  options := []
  headlen := 8
  later := []

/-- It gets another address, and the checksum of its header is left as it was. -/
theorem not_checksums_kept : ¬ ∀ (m : Module) (skb : RxSkb) (found : UInt32 × Nat × Nat),
    Reachable (fun _ _ _ => 0) m.table →
      hookEntry (fun _ _ _ => 0) m.table skb.toSkb = some found → skb.ChecksumsOk →
      (skb.tmccHookLocalIn (fun _ _ _ => 0) incrementalUpdate m).2.ChecksumsOk := by
  intro hall
  obtain ⟨s, hreach, hrewritten⟩ := exists_hookEntry fun _ _ _ => 0
  obtain ⟨bucket, depth, hentry⟩ := hrewritten secondFragment.toSkb rfl rfl rfl (by decide)
  have hok : secondFragment.ChecksumsOk :=
    ⟨valid_iff.mpr (by decide), fun h => absurd h (by decide)⟩
  have hafter := hall ⟨s, 0, 0⟩ secondFragment _ hreach hentry hok
  rw [RxSkb.tmccHookLocalIn, hentry] at hafter
  have hsum : (secondFragment.dnat incrementalUpdate 0xE1000001).ipSum % 65535 = 0 :=
    (valid_iff.mp hafter.ip).2
  exact absurd hsum (by decide)

end MulticastProxy.KernelClient
