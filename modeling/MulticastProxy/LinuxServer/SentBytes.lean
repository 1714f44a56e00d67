import MulticastProxy.LinuxServer.FanOut

/-!
# Linux server proxy: reads and sends within the packet (`server_proxy/handleIncomeData.c`)

The length that is sent, the place of the UDP header and the ranges of both checksums come from
fields of the packet, whatever was received of it.
-/

namespace MulticastProxy.LinuxServer

set_option autoImplicit false

/-- What is read or sent lies within the `n` bytes received. -/
def InPacket (n : Nat) : Event → Prop
  | .read off size => ∀ k < size, off + k < n
  | .sendto _ size => size ≤ n
  | .opened _ | .closed _ => True

/-- Whatever the calls answer, only bytes of the packet are read and sent. -/
def OnlyReceived (s : State) (stack : Memory) (pBuf : List UInt8) : Prop :=
  ∀ env st, (Noted.handleIncomingData env s st stack pBuf).Within (InPacket pBuf.length)

/-- The fields that are read ahead of the members lie within the packet. -/
def FieldsWithin (buf : Memory) (n : Nat) : Prop :=
  ipHdrSize ≤ n ∧ (buf IpHdr.protocol = ipprotoUdp → ipHdrLen buf 0 + 6 ≤ n)

/-- What a copy is made of lies within the packet: the header by its own length, the whole by its
total length and the datagram by its length. -/
def CopyWithin (buf : Memory) (n : Nat) : Prop :=
  (Forwarded buf → ipHdrLen buf 0 ≤ n ∧ (totalLen buf).toNat ≤ n) ∧
    (buf IpHdr.protocol = ipprotoUdp →
      udpLenOf buf = 0 ∨ ipHdrLen buf 0 + (udpLenOf buf).toNat ≤ n)

section
variable {env : Env} {sendLen : UInt16} {reads : Nat → List Event}

theorem forall_mem_loopEvents {P : Event → Prop} (hreads : ∀ i, ∀ e ∈ reads i, P e)
    (hopen : ∀ i, ∀ e ∈ openEvents env sendLen i, P e) (hclosed : ∀ i, P (.closed i)) (n k : Nat) :
    ∀ e ∈ loopEvents env sendLen reads n k, P e := by
  induction n generalizing k with
  | zero =>
    intro e he
    cases he
  | succ n ih =>
    intro e he
    rw [loopEvents, List.mem_append, List.mem_append] at he
    rcases he with he | he | he
    · exact hreads k e he
    · exact hopen k e he
    · split at he
      · rcases List.mem_cons.mp he with rfl | he
        · exact hclosed k
        · exact ih (k + 1) e he
      · cases he

theorem inPacket_openEvents {n : Nat} (hsize : sendtoSize sendLen ≤ n) (i : Nat) :
    ∀ e ∈ openEvents env sendLen i, InPacket n e := by
  intro e he
  unfold openEvents at he
  split at he
  · cases he
  · split at he
    · rw [List.mem_singleton.mp he]
      trivial
    · rcases List.mem_cons.mp he with rfl | he
      · trivial
      · rw [List.mem_singleton.mp he]
        exact hsize

end

theorem range_within {off size n : Nat} : (∀ k < size, off + k < n) ↔ size = 0 ∨ off + size ≤ n := by
  constructor
  · intro h
    by_cases hsize : size = 0
    · exact Or.inl hsize
    · have := h (size - 1) (by omega)
      omega
  · intro h k hk
    omega

theorem inPacket_udpReads {iphLen n : Nat} (hhead : ipHdrSize ≤ n) {udpLen : UInt16} :
    (∀ malloc, ∀ e ∈ udpReads malloc iphLen udpLen, InPacket n e) ↔
      udpLen = 0 ∨ iphLen + udpLen.toNat ≤ n := by
  have hoffsets := IpHdr.offsets
  have hheader : ipHdrSize = 20 := rfl
  have hzero : udpLen.toNat = 0 ↔ udpLen = 0 := by
    rw [← UInt16.toNat_inj]
    rfl
  rw [← hzero]
  constructor
  · intro h
    exact range_within.mp (h true (.read iphLen udpLen.toNat) (by simp [udpReads]))
  · intro hdata malloc e he
    unfold udpReads at he
    split at he
    · rw [List.mem_cons, List.mem_cons, List.mem_singleton] at he
      rcases he with rfl | rfl | rfl
      · exact range_within.mpr (Or.inr (by omega))
      · exact range_within.mpr (Or.inr (by omega))
      · exact range_within.mpr hdata
    · cases he

theorem inPacket_fieldReads {buf : Memory} {n : Nat} :
    (∀ e ∈ fieldReads buf, InPacket n e) ↔ FieldsWithin buf n := by
  have hoffsets := IpHdr.offsets
  have hverlen : IpHdr.verlen = 0 := rfl
  have hudpOffsets := UdpHdr.offsets
  have hheader : ipHdrSize = 20 := rfl
  constructor
  · intro h
    have hdest := range_within.mp (h (.read IpHdr.destaddr 4) (by simp [fieldReads]))
    refine ⟨by omega, fun hudp => ?_⟩
    have hlength := range_within.mp (h (.read (ipHdrLen buf 0 + UdpHdr.length) 2)
      (by simp [fieldReads, hudp]))
    omega
  · intro hfields e he
    obtain ⟨hhead, hudp⟩ := hfields
    have hread : ∀ {off size}, off + size ≤ n → InPacket n (.read off size) :=
      fun hsize => range_within.mpr (Or.inr hsize)
    unfold fieldReads at he
    simp only [List.mem_cons] at he
    rcases he with rfl | rfl | rfl | he
    · exact hread (by omega)
    · exact hread (by omega)
    · exact hread (by omega)
    · split at he
      · rename_i hprotocol
        have hports := hudp hprotocol
        simp only [List.mem_cons, List.not_mem_nil, or_false] at he
        rcases he with rfl | rfl | rfl
        · exact hread (by omega)
        · exact hread (by omega)
        · exact hread (by omega)
      · split at he
        · rw [List.mem_singleton.mp he]
          exact hread (by omega)
        · cases he

theorem inPacket_markReads {n : Nat} (hhead : ipHdrSize ≤ n) : ∀ e ∈ markReads, InPacket n e := by
  have hoffsets := IpHdr.offsets
  have hheader : ipHdrSize = 20 := rfl
  intro e he
  rw [markReads, List.mem_cons, List.mem_singleton] at he
  rcases he with rfl | rfl
  · exact range_within.mpr (Or.inr (by omega))
  · exact range_within.mpr (Or.inr (by omega))

theorem inPacket_checksumReads {buf : Memory} {n : Nat} (hhead : ipHdrSize ≤ n)
    (hforward : Forwarded buf) (hcopy : CopyWithin buf n) (env : Env) (i : Nat) :
    ∀ e ∈ checksumReads env buf i, InPacket n e := by
  intro e he
  rw [checksumReads, List.mem_cons] at he
  rcases he with rfl | he
  · refine range_within.mpr (Or.inr ?_)
    rw [Nat.zero_add]
    exact (hcopy.1 hforward).1
  · split at he
    · rename_i hudp
      exact (inPacket_udpReads hhead).mpr (hcopy.2 hudp) _ e he
    · cases he

/-- A negative length is more than any packet. -/
theorem sendtoSize_le_iff {sendLen : UInt16} {n : Nat} (hn : n ≤ bufsize) :
    sendtoSize sendLen ≤ n ↔ sendLen.toNat ≤ n := by
  have hbuf : bufsize = 4096 := rfl
  unfold sendtoSize
  split
  · exact Iff.rfl
  · rename_i hlong
    have hnat : 0x8000 ≤ sendLen.toNat := UInt16.le_iff_toNat_le.mp (UInt16.not_lt.mp hlong)
    omega

variable {s : State} {stack : Memory} {pBuf : List UInt8} {node : Found}

theorem OnlyReceived.fields (h : OnlyReceived s stack pBuf) (hfit : MembersFit s)
    (hlen : pBuf.length ≤ bufsize)
    (hfound : lookupMultiNode s ((stack.copy 0 pBuf).load32 IpHdr.destaddr) = some node) :
    FieldsWithin (stack.copy 0 pBuf) pBuf.length := by
  apply inPacket_fieldReads.mp
  intro e he
  apply h .allSucceed ⟨0, 0, 0, 0⟩ e
  rw [log_handleIncomingData hfit hlen hfound]
  exact List.mem_append_left _ he

/-- Where all calls succeed, what the first member's round reads and sends is noted. -/
theorem OnlyReceived.first (h : OnlyReceived s stack pBuf) (hfit : MembersFit s)
    (hlen : pBuf.length ≤ bufsize)
    (hfound : lookupMultiNode s ((stack.copy 0 pBuf).load32 IpHdr.destaddr) = some node)
    (hcnt : node.multiMemberCnt ≠ 0) (hmark : ¬ sentByProxy (stack.copy 0 pBuf) = true)
    (hforward : Forwarded (stack.copy 0 pBuf)) :
    ∀ e, e ∈ checksumReads Env.allSucceed (stack.copy 0 pBuf) 0 ∨
      e ∈ openEvents Env.allSucceed (totalLen (stack.copy 0 pBuf)) 0 → InPacket pBuf.length e := by
  obtain ⟨n, hn⟩ := Nat.exists_eq_succ_of_ne_zero hcnt
  intro e he
  apply h .allSucceed ⟨0, 0, 0, 0⟩ e
  rw [log_handleIncomingData hfit hlen hfound, if_pos hforward, if_neg hmark, hn, loopEvents,
    packetReads, List.mem_append, List.mem_append, List.mem_append, List.mem_append]
  rcases he with he | he
  · exact Or.inr (Or.inl (Or.inr he))
  · exact Or.inr (Or.inr (Or.inl he))

/-- Only bytes of the packet are read and sent exactly where its headers are whole as far as they
are read, and nobody is sent anything or its lengths stay within it. -/
theorem only_received_iff (hfit : MembersFit s) (hlen : pBuf.length ≤ bufsize)
    (hfound : lookupMultiNode s ((stack.copy 0 pBuf).load32 IpHdr.destaddr) = some node) :
    OnlyReceived s stack pBuf ↔
      FieldsWithin (stack.copy 0 pBuf) pBuf.length ∧
        (node.multiMemberCnt = 0 ∨ sentByProxy (stack.copy 0 pBuf) = true ∨
          CopyWithin (stack.copy 0 pBuf) pBuf.length) := by
  constructor
  · intro h
    have hfields := h.fields hfit hlen hfound
    refine ⟨hfields, ?_⟩
    by_cases hcnt : node.multiMemberCnt = 0
    · exact Or.inl hcnt
    by_cases hmark : sentByProxy (stack.copy 0 pBuf) = true
    · exact Or.inr (Or.inl hmark)
    have hfirst := fun hforward => h.first hfit hlen hfound hcnt hmark hforward
    refine Or.inr (Or.inr ⟨fun hforward => ⟨?_, ?_⟩, fun hudp => ?_⟩)
    · have hheader := range_within.mp (hfirst hforward (.read 0 (ipHdrLen (stack.copy 0 pBuf) 0))
        (Or.inl List.mem_cons_self))
      omega
    · apply (sendtoSize_le_iff hlen).mp
      exact hfirst hforward (.sendto 0 _)
        (Or.inr (sendto_mem_openEvents.mpr ⟨rfl, rfl, rfl, rfl⟩))
    · apply (inPacket_udpReads hfields.1).mp
      intro malloc e he
      apply hfirst (Or.inl hudp) e (Or.inl (List.mem_cons_of_mem _ _))
      rw [if_pos hudp]
      cases malloc with
      | true => exact he
      | false => cases he
  · intro ⟨hfields, h⟩ env st e he
    rw [log_handleIncomingData hfit hlen hfound, List.mem_append] at he
    rcases he with he | he
    · exact inPacket_fieldReads.mpr hfields e he
    split at he
    · rename_i hforward
      split at he
      · split at he
        · cases he
        · exact inPacket_markReads hfields.1 e he
      · rename_i hmark
        rcases h with hcnt | hmarked | hcopy
        · rw [hcnt, loopEvents] at he
          cases he
        · exact absurd hmarked hmark
        · apply forall_mem_loopEvents _ _ _ _ _ e he
          · intro i e he
            rcases List.mem_append.mp he with he | he
            · exact inPacket_markReads hfields.1 e he
            · exact inPacket_checksumReads hfields.1 hforward hcopy env i e he
          · exact inPacket_openEvents ((sendtoSize_le_iff hlen).mpr (hcopy.1 hforward).2)
          · intro i
            trivial
    · cases he

theorem only_received_two : ∃ s node,
    lookupMultiNode s ((Memory.copy (fun _ => 0) 0 groupPacket).load32 IpHdr.destaddr) = some node ∧
    node.multiMemberCnt = 2 ∧ OnlyReceived s (fun _ => 0) groupPacket := by
  obtain ⟨s, node, hfit, hfound, hcnt, _⟩ := exists_two_members
  refine ⟨s, node, hfound, hcnt, ?_⟩
  apply (only_received_iff hfit (by decide) hfound).mpr
  exact ⟨⟨by decide, fun _ => by decide⟩,
    Or.inr (Or.inr ⟨fun _ => by decide, fun _ => Or.inr (by decide)⟩)⟩

/-- A datagram of 28 bytes whose total length says 100. -/
def overlongPacket : List UInt8 := groupPacket.set 3 100

theorem not_only_received : ¬ ∀ s stack pBuf node, MembersFit s → pBuf.length ≤ bufsize →
    lookupMultiNode s ((Memory.copy stack 0 pBuf).load32 IpHdr.destaddr) = some node →
    OnlyReceived s stack pBuf := by
  intro h
  obtain ⟨s, node, hfit, hfound, hcnt, _⟩ := exists_two_members
  have hdest : (Memory.copy (fun _ => 0) 0 groupPacket).load32 IpHdr.destaddr =
      (Memory.copy (fun _ => 0) 0 overlongPacket).load32 IpHdr.destaddr := by decide
  rw [hdest] at hfound
  obtain ⟨_, hreceived⟩ := (only_received_iff hfit (by decide) hfound).mp
    (h s _ overlongPacket node hfit (by decide) hfound)
  rcases hreceived with hnone | hmark | ⟨hlengths, _⟩
  · omega
  · exact absurd hmark (by decide)
  · exact absurd (hlengths (by decide)).2 (by decide)

end MulticastProxy.LinuxServer
