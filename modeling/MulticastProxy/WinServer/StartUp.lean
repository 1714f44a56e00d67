import MulticastProxy.Library.Trace
import MulticastProxy.WinServer.Queue

/-!
# Windows proxy: start-up (`proxy_server/entry.c`, `worker_thread.c`)

`entry` starts the capture threads, sets the number of queues, and starts one `handle_work` for each
queue. The capture threads draw the queue of a packet with the number of queues of that moment.
-/

namespace MulticastProxy.WinServer

set_option autoImplicit false

/-- Where `entry` is: before `gqueue_num` is set, before it is cut down to `QUEUE_COUNT`, or in the
loop that starts the `handle_work` threads. -/
inductive Phase where
  | capturing
  | set
  | starting
  deriving DecidableEq, Repr

/-- `pktQueue` from 16 on is the memory behind the array. `handleWorks` threads serve the queues below
that number, and `placed` notes the index of each packet that `en_queue` accepted. -/
structure Entry where
  phase : Phase
  gqueueNum : Nat
  pktQueue : Nat → Queue
  captures : Nat
  handleWorks : Nat
  placed : List Nat

def Entry.start (memory : Nat → Queue) : Entry where
  phase := .capturing
  gqueueNum := queueCount
  pktQueue := fun i => if i < queueCount then initQueue (memory i) else memory i
  captures := 0
  handleWorks := 0
  placed := []

/-- `buf` is what `en_queue` copies of the packet, `random` the value of `rand`. -/
inductive EntryAct where
  | startCapture
  | setQueueNum
  | clampQueueNum
  | startHandleWork
  | packetHandler (random : Nat) (buf : List UInt8)
  | handleWork (queueId : Nat)

/-- `packet_handler`; a division by zero is a fault. -/
def Entry.packetHandler (e : Entry) (random : Nat) (buf : List UInt8) : Outcome Entry :=
  if e.gqueueNum = 0 then .fault
  else do
    let i := random % e.gqueueNum
    let (ret, queue) ← enQueue (e.pktQueue i) buf
    .ret { e with
      pktQueue := Function.update e.pktQueue i queue
      placed := if ret = 0 then e.placed ++ [i] else e.placed }

/-- One round of `handle_work`, which works on the packet in its own buffer. -/
def Entry.handleWork (e : Entry) (queueId : Nat) : Outcome Entry := do
  let (_, queue, _, _) ← deQueue (e.pktQueue queueId) (fun _ => 0) 0
  .ret { e with pktQueue := Function.update e.pktQueue queueId queue }

section
variable (devices processors : Nat)

/-- A step of `entry` or of a thread that runs. A fault ends the run. -/
def Entry.next (e : Entry) : EntryAct → Option Entry
  | .startCapture =>
    if e.phase = .capturing ∧ e.captures < devices then
      some { e with captures := e.captures + 1 }
    else none
  | .setQueueNum =>
    if e.phase = .capturing ∧ e.captures = devices then
      some { e with phase := .set, gqueueNum := processors }
    else none
  | .clampQueueNum =>
    if e.phase = .set then
      some { e with
        phase := .starting
        gqueueNum := if queueCount < e.gqueueNum then queueCount else e.gqueueNum }
    else none
  | .startHandleWork =>
    if e.phase = .starting ∧ e.handleWorks < e.gqueueNum then
      some { e with handleWorks := e.handleWorks + 1 }
    else none
  | .packetHandler random buf =>
    if 0 < e.captures then
      match e.packetHandler random buf with
      | .ret e' => some e'
      | _ => none
    else none
  | .handleWork queueId =>
    if queueId < e.handleWorks then
      match e.handleWork queueId with
      | .ret e' => some e'
      | _ => none
    else none

/-- The number of `handle_work` threads that `entry` starts. -/
def finalHandleWorks : Nat := min processors queueCount

/-- Every packet accepted so far has a thread that will take it out. -/
def Entry.Served (e : Entry) : Prop := ∀ i ∈ e.placed, i < finalHandleWorks processors

/-- A packet comes when `gqueue_num` is final, or its number picks a queue that will be served by the
number of queues of the moment, or one that is full. -/
def Entry.InTime (e : Entry) : EntryAct → Prop
  | .packetHandler random _ =>
    match e.phase with
    | .capturing => random % queueCount < processors ∨
        fullQueue (e.pktQueue (random % queueCount)) ≠ 0
    | .set => random % processors < queueCount ∨ fullQueue (e.pktQueue (random % processors)) ≠ 0
    | .starting => True
  | _ => True

/-! ## One step -/

/-- `gqueue_num` by the point that `entry` has reached, and the threads started so far. -/
structure Entry.Sound (e : Entry) : Prop where
  capturing : e.phase = .capturing → e.gqueueNum = queueCount
  set : e.phase = .set → e.gqueueNum = processors
  starting : e.phase = .starting → e.gqueueNum = finalHandleWorks processors
  handleWorks : e.handleWorks ≤ finalHandleWorks processors

end

variable {devices processors : Nat} {e e' : Entry}

theorem Entry.start_sound (memory : Nat → Queue) : (Entry.start memory).Sound processors where
  capturing := fun _ => rfl
  set := fun h => nomatch h
  starting := fun h => nomatch h
  handleWorks := Nat.zero_le _

theorem enQueue_ret {queue queue' : Queue} {buf : List UInt8} {ret : Int}
    (h : enQueue queue buf = .ret (ret, queue')) : ret = 0 ↔ ¬ fullQueue queue ≠ 0 := by
  unfold enQueue at h
  split at h
  · rename_i hfull
    obtain ⟨rfl, _⟩ := Prod.mk.inj (Outcome.ret.inj h)
    exact iff_of_false (by decide) (not_not.mpr hfull)
  · rename_i hroom
    split at h
    · cases h
    · obtain ⟨rfl, _⟩ := Prod.mk.inj (Outcome.ret.inj h)
      exact iff_of_true rfl hroom

/-- What a packet changes: its queue, and the note of it where the queue has room. -/
theorem Entry.next_packetHandler {random : Nat} {buf : List UInt8}
    (h : e.next devices processors (.packetHandler random buf) = some e') :
    0 < e.gqueueNum ∧ e'.phase = e.phase ∧ e'.gqueueNum = e.gqueueNum ∧
      e'.handleWorks = e.handleWorks ∧
      e'.placed = (if fullQueue (e.pktQueue (random % e.gqueueNum)) ≠ 0 then e.placed
        else e.placed ++ [random % e.gqueueNum]) := by
  rw [Entry.next] at h
  split at h
  · cases hpacket : e.packetHandler random buf with
    | ret after =>
      rw [hpacket] at h
      obtain rfl := Option.some.inj h
      unfold Entry.packetHandler at hpacket
      split at hpacket
      · cases hpacket
      · rename_i hne
        obtain ⟨⟨ret, queue⟩, hqueue, hret⟩ := Outcome.bind_eq_ret_iff.mp hpacket
        obtain rfl := Outcome.ret.inj hret
        refine ⟨Nat.pos_of_ne_zero hne, rfl, rfl, rfl, ?_⟩
        simp only [enQueue_ret hqueue]
        rw [ite_not]
    | hang => rw [hpacket] at h; cases h
    | fault => rw [hpacket] at h; cases h
  · cases h

theorem Entry.next_handleWork {queueId : Nat}
    (h : e.next devices processors (.handleWork queueId) = some e') :
    ∃ pktQueue, e' = { e with pktQueue } := by
  rw [Entry.next] at h
  split at h
  · cases hwork : e.handleWork queueId with
    | ret after =>
      rw [hwork] at h
      obtain rfl := Option.some.inj h
      obtain ⟨⟨_, queue, _, _⟩, _, hret⟩ := Outcome.bind_eq_ret_iff.mp hwork
      exact ⟨_, (Outcome.ret.inj hret).symm⟩
    | hang => rw [hwork] at h; cases h
    | fault => rw [hwork] at h; cases h
  · cases h

theorem finalHandleWorks_eq (processors : Nat) : finalHandleWorks processors =
    if queueCount < processors then queueCount else processors := by
  unfold finalHandleWorks
  split <;> omega

/-- A packet is in time where its queue is full or will be served. -/
theorem Entry.Sound.inTime_iff (h : e.Sound processors) (hpos : 0 < e.gqueueNum) (random : Nat)
    (buf : List UInt8) : e.InTime processors (.packetHandler random buf) ↔
      fullQueue (e.pktQueue (random % e.gqueueNum)) ≠ 0 ∨
        random % e.gqueueNum < finalHandleWorks processors := by
  have hlt := Nat.mod_lt random hpos
  have hfinal : finalHandleWorks processors = min processors queueCount := rfl
  unfold Entry.InTime
  cases hphase : e.phase with
  | capturing =>
    rw [h.capturing hphase] at hlt ⊢
    have hiff : random % queueCount < processors ↔
        random % queueCount < finalHandleWorks processors := by omega
    exact (or_congr_left hiff).trans or_comm
  | set =>
    rw [h.set hphase] at hlt ⊢
    have hiff : random % processors < queueCount ↔
        random % processors < finalHandleWorks processors := by omega
    exact (or_congr_left hiff).trans or_comm
  | starting =>
    rw [h.starting hphase] at hlt ⊢
    exact iff_of_true trivial (Or.inr hlt)

theorem enabled {p : Prop} [Decidable p] (h : (if p then some e else none) = some e') :
    p ∧ e = e' := by
  obtain ⟨hp, heq⟩ := Option.ite_none_right_eq_some.mp h
  exact ⟨hp, Option.some.inj heq⟩

theorem Entry.Sound.next {act : EntryAct} (h : e.Sound processors)
    (hnext : e.next devices processors act = some e') : e'.Sound processors := by
  cases act with
  | startCapture =>
    obtain ⟨_, rfl⟩ := enabled hnext
    exact ⟨h.capturing, h.set, h.starting, h.handleWorks⟩
  | setQueueNum =>
    obtain ⟨_, rfl⟩ := enabled hnext
    exact ⟨(nomatch ·), fun _ => rfl, (nomatch ·), h.handleWorks⟩
  | clampQueueNum =>
    obtain ⟨hphase, rfl⟩ := enabled hnext
    refine ⟨(nomatch ·), (nomatch ·), fun _ => ?_, h.handleWorks⟩
    rw [finalHandleWorks_eq, ← h.set hphase]
  | startHandleWork =>
    obtain ⟨⟨hphase, hlt⟩, rfl⟩ := enabled hnext
    rw [h.starting hphase] at hlt
    exact ⟨h.capturing, h.set, h.starting, hlt⟩
  | packetHandler random buf =>
    obtain ⟨_, hphase, hnum, hworks, _⟩ := Entry.next_packetHandler hnext
    refine ⟨?_, ?_, ?_, hworks ▸ h.handleWorks⟩
    · rw [hphase, hnum]
      exact h.capturing
    · rw [hphase, hnum]
      exact h.set
    · rw [hphase, hnum]
      exact h.starting
  | handleWork queueId =>
    obtain ⟨_, rfl⟩ := Entry.next_handleWork hnext
    exact ⟨h.capturing, h.set, h.starting, h.handleWorks⟩

/-- Only a packet that finds room in its queue is noted. -/
theorem Entry.placed_next {act : EntryAct} (hnext : e.next devices processors act = some e') :
    e'.placed = e.placed ∧ e.InTime processors act ∨
    ∃ random buf, act = .packetHandler random buf ∧ 0 < e.gqueueNum ∧
      e'.placed = (if fullQueue (e.pktQueue (random % e.gqueueNum)) ≠ 0 then e.placed
        else e.placed ++ [random % e.gqueueNum]) := by
  cases act with
  | startCapture =>
    obtain ⟨_, rfl⟩ := enabled hnext
    exact Or.inl ⟨rfl, trivial⟩
  | setQueueNum =>
    obtain ⟨_, rfl⟩ := enabled hnext
    exact Or.inl ⟨rfl, trivial⟩
  | clampQueueNum =>
    obtain ⟨_, rfl⟩ := enabled hnext
    exact Or.inl ⟨rfl, trivial⟩
  | startHandleWork =>
    obtain ⟨_, rfl⟩ := enabled hnext
    exact Or.inl ⟨rfl, trivial⟩
  | packetHandler random buf =>
    obtain ⟨hpos, _, _, _, hplaced⟩ := Entry.next_packetHandler hnext
    exact Or.inr ⟨random, buf, rfl, hpos, hplaced⟩
  | handleWork queueId =>
    obtain ⟨_, rfl⟩ := Entry.next_handleWork hnext
    exact Or.inl ⟨rfl, trivial⟩

section
variable {act : EntryAct} (h : e.Sound processors)
variable (hnext : e.next devices processors act = some e')

include h hnext

theorem Entry.Served.next (hserved : e.Served processors) (hin : e.InTime processors act) :
    e'.Served processors := by
  intro i hi
  rcases Entry.placed_next hnext with ⟨hsame, _⟩ | ⟨random, buf, rfl, hpos, hplaced⟩
  · rw [hsame] at hi
    exact hserved i hi
  · rw [hplaced] at hi
    split at hi
    · exact hserved i hi
    · rename_i hroom
      rcases List.mem_append.mp hi with hold | hlast
      · exact hserved i hold
      · obtain rfl := List.mem_singleton.mp hlast
        exact ((h.inTime_iff hpos random buf).mp hin).resolve_left hroom

theorem Entry.Sound.lost (hlate : ¬ e.InTime processors act) : ¬ e'.Served processors := by
  intro hserved
  rcases Entry.placed_next hnext with ⟨_, hin⟩ | ⟨random, buf, rfl, hpos, hplaced⟩
  · exact hlate hin
  · rw [h.inTime_iff hpos, not_or] at hlate
    rw [if_neg hlate.1] at hplaced
    have hlast : random % e.gqueueNum ∈ e'.placed := by
      rw [hplaced, List.mem_append]
      exact Or.inr List.mem_cons_self
    exact hlate.2 (hserved _ hlast)

end

/-- When `entry` is through, as many threads run as is final. -/
theorem handleWorks_final {memory : Nat → Queue} {acts : List EntryAct}
    (hexec : Trace.exec (Entry.next devices processors) (Entry.start memory) acts = some e)
    (hphase : e.phase = .starting) (hdone : e.gqueueNum ≤ e.handleWorks) :
    e.handleWorks = finalHandleWorks processors := by
  have hsound : e.Sound processors :=
    Trace.invariant_of_exec (fun _ _ _ h hnext => h.next hnext) (Entry.start_sound memory) hexec
  rw [hsound.starting hphase] at hdone
  exact Nat.le_antisymm hsound.handleWorks hdone

/-- All packets that are accepted in a run are in queues that will be served exactly where each of
them comes in time. -/
theorem served_run_iff (devices processors : Nat) (memory : Nat → Queue) (acts : List EntryAct) :
    Trace.Throughout (Entry.next devices processors) (Entry.Served processors)
        (Entry.start memory) acts ↔
      Trace.EachStep (Entry.next devices processors) (Entry.InTime processors)
        (Entry.start memory) acts := by
  apply Trace.throughout_iff_eachStep (I := fun e => e.Sound processors ∧ e.Served processors)
  · intro e h
    exact h.2
  · intro e act e' h hnext hin
    exact ⟨h.1.next hnext, Entry.Served.next h.1 hnext h.2 hin⟩
  · intro e act e' h hnext hlate
    exact h.1.lost hnext hlate
  · refine ⟨Entry.start_sound memory, ?_⟩
    intro i hi
    cases hi

/-- Of two processors: a packet that comes early can go to the sixth queue, which no thread serves. -/
theorem early_packet_lost : ¬ ∀ (devices processors : Nat) (memory : Nat → Queue)
    (acts : List EntryAct), Trace.Throughout (Entry.next devices processors)
      (Entry.Served processors) (Entry.start memory) acts := by
  intro h
  let memory : Nat → Queue := fun _ => ⟨fun _ => ⟨fun _ => 0, 0⟩, 0, 0, 0⟩
  let acts : List EntryAct := [.startCapture, .packetHandler 5 [1]]
  have hplaced : (Trace.exec (Entry.next 1 2) (Entry.start memory) acts).map Entry.placed =
      some [5] := rfl
  obtain ⟨e, hexec, hfive⟩ := Option.map_eq_some_iff.mp hplaced
  have hserved := (h 1 2 memory acts).of_exec hexec 5 (by rw [hfive]; exact List.mem_cons_self)
  exact absurd hserved (by decide)

end MulticastProxy.WinServer
