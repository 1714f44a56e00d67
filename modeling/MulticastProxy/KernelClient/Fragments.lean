import MulticastProxy.KernelClient.Hook

/-!
# Kernel client: fragmented datagrams

The hook decides about each fragment by the bytes at the front of that fragment. Only the first
one has the UDP header there.
-/

namespace MulticastProxy.KernelClient

set_option autoImplicit false

/-- `frags` is one way to send the datagram `d` in fragments. -/
structure Fragments (d : Skb) (frags : List Skb) : Prop where
  header : ∀ f ∈ frags, f.saddr = d.saddr ∧ f.daddr = d.daddr ∧ f.protocol = d.protocol ∧
    f.tos = d.tos
  bytes : frags.flatMap (fun f => f.transport) = d.transport
  aligned : ∀ f ∈ frags.dropLast, 0 < f.transport.length ∧ f.transport.length % 8 = 0
  offset : ∀ i f, frags[i]? = some f →
    (f.fragOff &&& ipOffset).toNat * 8 = ((frags.take i).flatMap fun f => f.transport).length

/-- All packets get the same group address, or none is rewritten. -/
def Consistent (targets : List (Option UInt32)) : Prop :=
  (∃ multiIp, ∀ t ∈ targets, t = some multiIp) ∨ ∀ t ∈ targets, t = none

theorem consistent_some_cons {multiIp : UInt32} {targets : List (Option UInt32)} :
    Consistent (some multiIp :: targets) ↔ ∀ t ∈ targets, t = some multiIp := by
  constructor
  · rintro (⟨ip, hall⟩ | hall) t ht
    · rw [hall (some multiIp) List.mem_cons_self]
      exact hall t (List.mem_cons_of_mem _ ht)
    · simpa using hall (some multiIp) List.mem_cons_self
  · intro hall
    exact Or.inl ⟨multiIp, List.forall_mem_cons.mpr ⟨rfl, hall⟩⟩

theorem consistent_none_cons {targets : List (Option UInt32)} :
    Consistent (none :: targets) ↔ ∀ t ∈ targets, t = none := by
  constructor
  · rintro (⟨ip, hall⟩ | hall) t ht
    · simpa using hall none List.mem_cons_self
    · exact hall t (List.mem_cons_of_mem _ ht)
  · intro hall
    exact Or.inr (List.forall_mem_cons.mpr ⟨rfl, hall⟩)

variable (jhash2words : UInt32 → UInt32 → UInt32 → UInt32)

/-- The group that the table gives to a server's port: its own entry or the one for port 0. -/
def groupFor (s : State) (saddr : UInt32) (port : UInt16) : Option UInt32 :=
  (entry jhash2words s (saddr, port)).orElse fun _ => entry jhash2words s (saddr, 0)

/-- Where the datagram's port has a group, every later fragment has 8 bytes or more and what stands
at its bytes 2 and 3 has the same group; where it has none, these bytes have none either. -/
def FragmentsAgree (s : State) (d : Skb) (frags : List Skb) : Prop :=
  match groupFor jhash2words s d.saddr (udpDest d.transport) with
  | some multiIp => ∀ f ∈ frags.tail, 8 ≤ f.transport.length ∧
      groupFor jhash2words s d.saddr (udpDest f.transport) = some multiIp
  | none => ∀ f ∈ frags.tail, 8 ≤ f.transport.length →
      groupFor jhash2words s d.saddr (udpDest f.transport) = none

variable {jhash2words}

theorem lookupPortOrZero_eq (s : State) (saddr : UInt32) (port : UInt16) :
    (lookupPortOrZero jhash2words s saddr port).map Prod.fst =
      groupFor jhash2words s saddr port := by
  unfold lookupPortOrZero groupFor
  rw [← lookupIpPortNode_eq, ← lookupIpPortNode_eq]
  cases lookupIpPortNode jhash2words s saddr port with
  | none => rfl
  | some found => rfl

theorem hookEntry_marked {s : State} {f : Skb} (hudp : f.protocol = ipprotoUdp)
    (htos : f.tos = 0xE0) :
    (hookEntry jhash2words s f).map Prod.fst =
      if f.transport.length < 8 then none
      else groupFor jhash2words s f.saddr (udpDest f.transport) := by
  rw [← lookupPortOrZero_eq]
  unfold hookEntry Skb.udpHeader
  simp only [hudp, htos, ne_eq, not_true_eq_false, if_false]
  by_cases hlen : f.transport.length < 8
  · simp [hlen]
  · simp only [hlen, if_false]
    cases lookupPortOrZero jhash2words s f.saddr (udpDest f.transport) with
    | none => rfl
    | some found => rfl

section
variable {d first : Skb} {later : List Skb}

theorem Fragments.first_header (hf : Fragments d (first :: later)) (hlen : 8 ≤ d.transport.length) :
    8 ≤ first.transport.length ∧ udpDest first.transport = udpDest d.transport := by
  have hbytes := hf.bytes
  rw [List.flatMap_cons] at hbytes
  have hfirst : 8 ≤ first.transport.length := by
    cases later with
    | nil =>
      rw [List.flatMap_nil, List.append_nil] at hbytes
      rw [hbytes]
      exact hlen
    | cons g gs =>
      obtain ⟨h1, h2⟩ := hf.aligned first (by simp)
      omega
  refine ⟨hfirst, ?_⟩
  have hat : ∀ i < 8, d.transport.getD i 0 = first.transport.getD i 0 := by
    intro i hi
    rw [← hbytes, List.getD_eq_getElem?_getD, List.getD_eq_getElem?_getD,
      List.getElem?_append_left (by omega)]
  simp only [udpDest, word16, hat 2 (by omega), hat 3 (by omega)]

theorem Fragments.ne_nil {frags : List Skb} (hf : Fragments d frags)
    (hlen : 8 ≤ d.transport.length) : frags ≠ [] := by
  rintro rfl
  have := hf.bytes
  simp only [List.flatMap_nil] at this
  simp [← this] at hlen

end

/-- A marked UDP datagram, fragmented in any way, is rewritten as a whole or not at all exactly when
its fragments agree. -/
theorem fragments_consistent_iff {csum : CsumReplace} {m : Module} {d : Skb} {frags : List Skb}
    (hudp : d.protocol = ipprotoUdp) (htos : d.tos = 0xE0) (hlen : 8 ≤ d.transport.length)
    (hf : Fragments d frags) :
    Consistent (hookRun jhash2words csum m frags) ↔
      FragmentsAgree jhash2words m.table d frags := by
  obtain ⟨first, later, rfl⟩ := List.exists_cons_of_ne_nil (hf.ne_nil hlen)
  obtain ⟨hfirst, hport⟩ := hf.first_header hlen
  have htarget : ∀ f ∈ first :: later, (hookEntry jhash2words m.table f).map Prod.fst =
      if f.transport.length < 8 then none
      else groupFor jhash2words m.table d.saddr (udpDest f.transport) := by
    intro f hmem
    obtain ⟨h1, _, h2, h3⟩ := hf.header f hmem
    rw [hookEntry_marked (by rw [h2, hudp]) (by rw [h3, htos]), h1]
  have hlater := fun f hmem => htarget f (List.mem_cons_of_mem _ hmem)
  rw [hookRun_eq_map, List.map_cons, htarget first List.mem_cons_self, if_neg (by omega), hport]
  unfold FragmentsAgree
  cases groupFor jhash2words m.table d.saddr (udpDest d.transport) with
  | some multiIp =>
    rw [consistent_some_cons, List.forall_mem_map]
    apply forall₂_congr
    intro f hmem
    rw [hlater f hmem]
    by_cases h8 : f.transport.length < 8
    · simp [h8]
    · simp [h8, Nat.le_of_not_lt h8]
  | none =>
    rw [consistent_none_cons, List.forall_mem_map]
    apply forall₂_congr
    intro f hmem
    rw [hlater f hmem]
    by_cases h8 : f.transport.length < 8
    · simp [h8]
    · simp [h8, Nat.le_of_not_lt h8]

/-! ## A datagram in two halves -/

/-- A marked datagram from 10.0.0.1 to port 5000 of 10.0.0.2, with 8 bytes of zeros. -/
def marked : Skb where
  tos := 0xE0
  totLen := 36
  fragOff := 0
  ttl := 64
  protocol := ipprotoUdp
  check := 0
  saddr := 0x0A000001
  daddr := 0x0A000002
  transport := [0x27, 0x10, 0x13, 0x88, 0, 16, 0, 0, 0, 0, 0, 0, 0, 0, 0, 0]
  csumPartial := false

def markedHalves : List Skb :=
  [{ marked with totLen := 28, fragOff := 0x2000, transport := marked.transport.take 8 },
    { marked with totLen := 28, fragOff := 1, transport := marked.transport.drop 8 }]

theorem markedHalves_fragments : Fragments marked markedHalves where
  header := by decide
  bytes := by decide
  aligned := by decide
  offset := by
    intro i f hf
    match i with
    | 0 =>
      obtain rfl := Option.some.inj hf
      decide
    | 1 =>
      obtain rfl := Option.some.inj hf
      decide
    | n + 2 => simp [markedHalves] at hf

/-- Under an entry for all ports of the sender both halves have its group. -/
theorem markedHalves_consistent : ∃ s, entry (fun _ _ _ => 0) s (0x0A000001, 0) = some 0xE1000001 ∧
    Consistent (hookRun (fun _ _ _ => 0) ⟨fun check _ _ => check, fun check _ _ => check⟩
      ⟨s, 0, 0⟩ markedHalves) := by
  obtain ⟨s, _, hentry⟩ := addMultiNode_multiNodeInit (fun _ _ _ => 0) 0xE1000001 0x0A000001 0
  have hgroup : ∀ port, groupFor (fun _ _ _ => 0) s 0x0A000001 port = some 0xE1000001 := by
    intro port
    rw [groupFor, hentry, hentry]
    split <;> rfl
  refine ⟨s, hentry _, ?_⟩
  apply (fragments_consistent_iff rfl rfl (by decide) markedHalves_fragments).mpr
  have hsaddr : marked.saddr = 0x0A000001 := rfl
  simp only [FragmentsAgree, hsaddr, hgroup]
  intro f hf
  obtain rfl := List.mem_singleton.mp hf
  exact ⟨by decide, trivial⟩

/-- The first half has an entry, the second one is looked up under port 0 and has none. -/
theorem not_fragments_consistent :
    ¬ ∃ (jhash2words : UInt32 → UInt32 → UInt32 → UInt32) (csum : CsumReplace),
      ∀ (m : Module) (d : Skb) (frags : List Skb), Reachable jhash2words m.table →
        d.protocol = ipprotoUdp → d.tos = 0xE0 → 8 ≤ d.transport.length → Fragments d frags →
        Consistent (hookRun jhash2words csum m frags) := by
  rintro ⟨jhash2words, csum, h⟩
  -- one entry, for 10.0.0.1 and port 5000
  obtain ⟨s, hs, hentry⟩ := addMultiNode_multiNodeInit jhash2words 0xE1000001 0x0A000001 5000
  have hstep : tmccRcvSkb jhash2words multiNodeInit
    (.serviceAdd ⟨5000, 0x0A000001, 0xE1000001⟩) = .ret (0, s) := hs
  have hreach : Reachable jhash2words s := .step .init hstep
  have hcons := h ⟨s, 0, 0⟩ marked markedHalves hreach rfl rfl (by decide) markedHalves_fragments
  have htargets : hookRun jhash2words csum ⟨s, 0, 0⟩ markedHalves = [some 0xE1000001, none] := by
    have hsaddr : marked.saddr = 0x0A000001 := rfl
    have hfirst : udpDest (marked.transport.take 8) = 5000 := by decide
    have hsecond : udpDest (marked.transport.drop 8) = 0 := by decide
    rw [hookRun_eq_map]
    simp only [markedHalves, List.map_cons, List.map_nil, List.cons.injEq, and_true]
    constructor
    · rw [hookEntry_marked rfl rfl]
      simp only [groupFor, hentry, hsaddr, hfirst, if_true, Option.orElse_some]
      exact if_neg (by decide)
    · rw [hookEntry_marked rfl rfl]
      simp [groupFor, hentry, hsecond]
  rw [htargets, consistent_some_cons] at hcons
  simpa using hcons none (by simp)

end MulticastProxy.KernelClient
