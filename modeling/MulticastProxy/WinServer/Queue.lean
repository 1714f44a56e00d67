import MulticastProxy.Library.Fifo
import MulticastProxy.Library.Memory
import MulticastProxy.Library.Outcome

/-!
# Windows proxy: packet queues (`proxy_server/queue.c`, `queue.h`)

The capture threads copy packets into a queue, and a work thread copies them out. An access outside
the arrays of a queue is a fault.
-/

namespace MulticastProxy.WinServer

set_option autoImplicit false

abbrev queueCount : Nat := 16
abbrev queueSize : Nat := 1024
abbrev elementSize : Nat := 2048

/-- `struct node`. -/
structure PktNode where
  element : Memory
  len : Nat

structure Queue where
  node : Nat → PktNode
  head : Nat
  tail : Nat
  elementCount : Nat

def initQueue (queue : Queue) : Queue :=
  { queue with
    head := 0
    tail := 0
    elementCount := 0 }

def emptyQueue (queue : Queue) : Int := if queue.elementCount ≤ 0 then 1 else 0

def fullQueue (queue : Queue) : Int := if queueSize ≤ queue.elementCount then 1 else 0

/-- `buf` with `buf_len` bytes. -/
def enQueue (queue : Queue) (buf : List UInt8) : Outcome (Int × Queue) :=
  if fullQueue queue ≠ 0 then .ret (-1, queue)
  else if queueSize ≤ queue.tail ∨ elementSize < buf.length then .fault
  else .ret (0, { queue with
    node := Function.update queue.node queue.tail
      ⟨(queue.node queue.tail).element.copy 0 buf, buf.length⟩
    tail := (queue.tail + 1) % queueSize
    elementCount := queue.elementCount + 1 })

/-- With what `buf` and `buf_len` point to afterwards. -/
def deQueue (queue : Queue) (buf : Memory) (bufLen : Nat) : Outcome (Int × Queue × Memory × Nat) :=
  if emptyQueue queue ≠ 0 then .ret (-1, queue, buf, bufLen)
  else if queueSize ≤ queue.head ∨ elementSize < (queue.node queue.head).len then .fault
  else
    let node := queue.node queue.head
    .ret (0, { queue with
      head := (queue.head + 1) % queueSize
      elementCount := queue.elementCount - 1 }, buf.copy 0 (node.element.bytes 0 node.len), node.len)

/-! ## Runs -/

inductive QueueCall where
  | enQueue (buf : List UInt8)
  | deQueue (buf : Memory) (bufLen : Nat)

/-- What a caller gets: the code, and from `de_queue` the packet. -/
inductive QueueAnswer where
  | enQueue (ret : Int)
  | deQueue (ret : Int) (buf : Memory) (bufLen : Nat)

def QueueCall.run (queue : Queue) : QueueCall → Outcome (Queue × QueueAnswer)
  | .enQueue buf => do
    let (ret, queue) ← WinServer.enQueue queue buf
    .ret (queue, .enQueue ret)
  | .deQueue buf bufLen => do
    let (ret, queue, buf, bufLen) ← WinServer.deQueue queue buf bufLen
    .ret (queue, .deQueue ret buf bufLen)

def runCalls : Queue → List QueueCall → Outcome (Queue × List QueueAnswer)
  | queue, [] => .ret (queue, [])
  | queue, call :: calls => do
    let (queue, answer) ← call.run queue
    let (queue, answers) ← runCalls queue calls
    .ret (queue, answer :: answers)

/-- A payload for one element. -/
def QueueCall.Fits : QueueCall → Prop
  | .enQueue buf => buf.length ≤ elementSize
  | .deQueue _ _ => True

/-! ## The queue of payloads -/

def PktNode.payload (node : PktNode) : List UInt8 := node.element.bytes 0 node.len

def Queue.ring (queue : Queue) : Fifo.Ring PktNode :=
  ⟨queue.node, queue.head, queue.tail, queue.elementCount⟩

/-- The payloads that wait, the oldest one first. -/
def Queue.pending (queue : Queue) : List (List UInt8) :=
  (queue.ring.contents queueSize).map PktNode.payload

def QueueCall.op : QueueCall → Fifo.Op (List UInt8)
  | .enQueue buf => .enq buf
  | .deQueue _ _ => .deq

/-- How a caller sees the answer of a bounded queue. -/
def QueueCall.answer : QueueCall → Fifo.Answer (List UInt8) → QueueAnswer
  | .enQueue _, .entered => .enQueue 0
  | .enQueue _, _ => .enQueue (-1)
  | .deQueue buf _, .out payload => .deQueue 0 (buf.copy 0 payload) payload.length
  | .deQueue buf bufLen, _ => .deQueue (-1) buf bufLen

structure Queue.Sound (queue : Queue) : Prop where
  ring : queue.ring.Sound queueSize
  fits : ∀ payload ∈ queue.pending, payload.length ≤ elementSize

theorem PktNode.length_payload (node : PktNode) : node.payload.length = node.len :=
  Memory.length_bytes _

@[simp] theorem Queue.length_pending (queue : Queue) :
    queue.pending.length = queue.elementCount := by
  rw [pending, List.length_map, Fifo.Ring.length_contents]
  rfl

theorem bytes_copy (m : Memory) (src : List UInt8) : (m.copy 0 src).bytes 0 src.length = src := by
  apply List.ext_getElem
  · simp
  · intro i hi hi'
    simp [Memory.bytes, Memory.copy, hi']

section
variable {queue : Queue}

theorem initQueue_sound (queue : Queue) : (initQueue queue).Sound := by
  have hring : (initQueue queue).ring.Sound queueSize := ⟨Nat.succ_pos _, rfl, Nat.zero_le _⟩
  refine ⟨hring, ?_⟩
  intro payload hpayload
  cases hpayload

theorem fullQueue_ne_zero_iff : fullQueue queue ≠ 0 ↔ queueSize ≤ queue.pending.length := by
  rw [queue.length_pending, fullQueue]
  split
  · rename_i hfull
    exact iff_of_true (by decide) hfull
  · rename_i hroom
    exact iff_of_false (by decide) hroom

theorem emptyQueue_ne_zero_iff : emptyQueue queue ≠ 0 ↔ queue.pending = [] := by
  rw [← List.length_eq_zero_iff, queue.length_pending, emptyQueue]
  split
  · rename_i hempty
    exact iff_of_true (by decide) (Nat.le_zero.mp hempty)
  · rename_i hsome
    exact iff_of_false (by decide) (by omega)

variable (h : queue.Sound)

include h

/-- A payload goes in behind the others. -/
theorem enQueue_of_lt (hroom : queue.pending.length < queueSize) {buf : List UInt8}
    (hbuf : buf.length ≤ elementSize) : ∃ queue', enQueue queue buf = .ret (0, queue') ∧
      queue'.Sound ∧ queue'.pending = queue.pending ++ [buf] := by
  have hcount : queue.ring.count < queueSize := by
    rw [queue.length_pending] at hroom
    exact hroom
  have htail : queue.tail < queueSize := h.ring.tail_lt
  let node : PktNode := ⟨(queue.node queue.tail).element.copy 0 buf, buf.length⟩
  let queue' : Queue := ⟨Function.update queue.node queue.tail node, queue.head,
    (queue.tail + 1) % queueSize, queue.elementCount + 1⟩
  have hring : queue'.ring = queue.ring.push queueSize node := rfl
  have hpayload : node.payload = buf := bytes_copy _ _
  have hpending : queue'.pending = queue.pending ++ [buf] := by
    rw [Queue.pending, hring, Fifo.Ring.contents_push h.ring hcount, List.map_append,
      List.map_singleton, hpayload]
    rfl
  refine ⟨queue', ?_, ⟨?_, ?_⟩, hpending⟩
  · rw [enQueue, if_neg (fun hfull => absurd (fullQueue_ne_zero_iff.mp hfull) (by omega)),
      if_neg (by omega)]
  · rw [hring]
    exact h.ring.push hcount node
  · intro payload hin
    rw [hpending, List.mem_append, List.mem_singleton] at hin
    rcases hin with hin | rfl
    · exact h.fits payload hin
    · exact hbuf

omit h in
theorem enQueue_of_le (hfull : queueSize ≤ queue.pending.length) (buf : List UInt8) :
    enQueue queue buf = .ret (-1, queue) := if_pos (fullQueue_ne_zero_iff.mpr hfull)

/-- The oldest payload comes out. -/
theorem deQueue_cons {payload : List UInt8} {rest : List (List UInt8)}
    (hpending : queue.pending = payload :: rest) (buf : Memory) (bufLen : Nat) :
    ∃ queue', deQueue queue buf bufLen = .ret (0, queue', buf.copy 0 payload, payload.length) ∧
      queue'.Sound ∧ queue'.pending = rest := by
  have hsome : 0 < queue.ring.count := by
    have hlen := queue.length_pending
    rw [hpending, List.length_cons] at hlen
    exact Nat.lt_of_lt_of_eq (Nat.succ_pos _) hlen
  have hhead : queue.head < queueSize := h.ring.head_lt
  let queue' : Queue := ⟨queue.node, (queue.head + 1) % queueSize, queue.tail,
    queue.elementCount - 1⟩
  have hring : queue'.ring = queue.ring.pop queueSize := rfl
  have hsplit : queue.pending = (queue.node queue.head).payload :: queue'.pending := by
    rw [Queue.pending, Fifo.Ring.contents_pop h.ring hsome, List.map_cons, ← hring]
    rfl
  obtain ⟨hfirst, hrest⟩ := List.cons.inj (hpending.symm.trans hsplit)
  have hfits := h.fits payload (hpending ▸ List.mem_cons_self)
  rw [hfirst, PktNode.length_payload] at hfits ⊢
  refine ⟨queue', ?_, ⟨?_, ?_⟩, hrest.symm⟩
  · have hne : ¬ emptyQueue queue ≠ 0 := by
      intro hempty
      rw [emptyQueue_ne_zero_iff.mp hempty] at hpending
      cases hpending
    rw [deQueue, if_neg hne, if_neg (by omega)]
    rfl
  · rw [hring]
    exact h.ring.pop hsome
  · intro other hin
    exact h.fits other (hsplit ▸ List.mem_cons_of_mem _ hin)

omit h in
theorem deQueue_nil (hpending : queue.pending = []) (buf : Memory) (bufLen : Nat) :
    deQueue queue buf bufLen = .ret (-1, queue, buf, bufLen) :=
  if_pos (emptyQueue_ne_zero_iff.mpr hpending)

/-- A call does what the bounded queue does. -/
theorem QueueCall.run_eq {call : QueueCall} (hfits : call.Fits) : ∃ queue',
    call.run queue =
      .ret (queue', call.answer (Fifo.step queueSize queue.pending call.op).2) ∧
    queue'.Sound ∧ queue'.pending = (Fifo.step queueSize queue.pending call.op).1 := by
  cases call with
  | enQueue buf =>
    rw [QueueCall.op, Fifo.step]
    by_cases hroom : queue.pending.length < queueSize
    · obtain ⟨queue', hrun, hsound, hpending⟩ := enQueue_of_lt h hroom hfits
      rw [if_pos hroom, QueueCall.run, hrun]
      exact ⟨queue', rfl, hsound, hpending⟩
    · rw [if_neg hroom, QueueCall.run, enQueue_of_le (Nat.not_lt.mp hroom)]
      exact ⟨queue, rfl, h, rfl⟩
  | deQueue buf bufLen =>
    rw [QueueCall.op]
    cases hpending : queue.pending with
    | nil =>
      rw [QueueCall.run, deQueue_nil hpending]
      exact ⟨queue, rfl, h, hpending⟩
    | cons payload rest =>
      obtain ⟨queue', hrun, hsound, hrest⟩ := deQueue_cons h hpending buf bufLen
      rw [QueueCall.run, hrun]
      exact ⟨queue', rfl, hsound, hrest⟩

end

theorem runCalls_eq {queue : Queue} (h : queue.Sound) {calls : List QueueCall}
    (hfits : ∀ call ∈ calls, call.Fits) : ∃ queue',
    runCalls queue calls = .ret (queue', List.zipWith QueueCall.answer calls
      (Fifo.run queueSize queue.pending (calls.map QueueCall.op)).2) ∧
    queue'.Sound ∧
      queue'.pending = (Fifo.run queueSize queue.pending (calls.map QueueCall.op)).1 := by
  induction calls generalizing queue with
  | nil => exact ⟨queue, rfl, h, rfl⟩
  | cons call calls ih =>
    obtain ⟨mid, hcall, hmid, hpending⟩ := QueueCall.run_eq h (hfits call List.mem_cons_self)
    obtain ⟨queue', hrest, hsound, hlast⟩ :=
      ih hmid fun c hc => hfits c (List.mem_cons_of_mem _ hc)
    rw [hpending] at hrest hlast
    refine ⟨queue', ?_, hsound, hlast⟩
    rw [runCalls, hcall, Outcome.ret_bind]
    change (runCalls mid calls >>= _) = _
    rw [hrest]
    rfl

/-! ## Bounded queue -/

/-- A queue that holds `pending` behaves as a bounded queue does. -/
structure Queue.Holds (queue : Queue) (pending : List (List UInt8)) : Prop where
  payloads : queue.pending = pending
  head_lt : queue.head < queueSize
  tail_lt : queue.tail < queueSize
  tail_eq : queue.tail = (queue.head + queue.elementCount) % queueSize
  count_le : queue.elementCount ≤ queueSize
  full_iff : ∀ buf, buf.length ≤ elementSize →
    ((∃ queue', enQueue queue buf = .ret (-1, queue')) ↔ pending.length = queueSize)
  unchanged : ∀ buf queue', enQueue queue buf = .ret (-1, queue') → queue' = queue
  empty_iff : ∀ buf bufLen,
    (∃ result, deQueue queue buf bufLen = .ret (-1, result)) ↔ pending = []

theorem Queue.Sound.holds {queue : Queue} (h : queue.Sound) : queue.Holds queue.pending := by
  have hle : queue.pending.length ≤ queueSize := by
    rw [queue.length_pending]
    exact h.ring.count_le
  refine ⟨rfl, h.ring.head_lt, h.ring.tail_lt, h.ring.tail_eq, h.ring.count_le, ?_, ?_, ?_⟩
  · intro buf hbuf
    constructor
    · intro ⟨queue', hfull⟩
      by_contra hne
      obtain ⟨_, hret, _⟩ := enQueue_of_lt h (by omega) hbuf
      rw [hret] at hfull
      cases hfull
    · intro hfull
      exact ⟨queue, enQueue_of_le (Nat.le_of_eq hfull.symm) buf⟩
  · intro buf queue' hret
    unfold enQueue at hret
    split at hret
    · exact (Prod.mk.inj (Outcome.ret.inj hret)).2.symm
    · split at hret
      · cases hret
      · cases hret
  · intro buf bufLen
    constructor
    · intro ⟨result, hempty⟩
      cases hpending : queue.pending with
      | nil => rfl
      | cons payload rest =>
        obtain ⟨_, hret, _⟩ := deQueue_cons h hpending buf bufLen
        rw [hret] at hempty
        cases hempty
    · intro hpending
      exact ⟨_, deQueue_nil hpending buf bufLen⟩

/-- Every run is one of a bounded queue: the same answers, the same payloads that wait, and what was
let in is what came out and what waits, in order. -/
theorem queue_refines (queue : Queue) {calls : List QueueCall}
    (hfits : ∀ call ∈ calls, call.Fits) :
    ∃ queue' pending answers,
      Fifo.run queueSize [] (calls.map QueueCall.op) = (pending, answers) ∧
      runCalls (initQueue queue) calls =
        .ret (queue', List.zipWith QueueCall.answer calls answers) ∧
      queue'.Holds pending ∧
      Fifo.entered (calls.map QueueCall.op) answers = Fifo.delivered answers ++ pending := by
  have hinit := initQueue_sound queue
  have hempty : (initQueue queue).pending = [] := rfl
  obtain ⟨queue', hrun, hsound, hpending⟩ := runCalls_eq hinit hfits
  have hconserved := Fifo.conservation queueSize [] (calls.map QueueCall.op)
  rw [hempty] at hrun hpending
  refine ⟨queue', _, _, rfl, hrun, ?_, hconserved⟩
  rw [← hpending]
  exact hsound.holds

theorem queue_refines_three : ∃ queue' pending answers,
    Fifo.run queueSize [] [.enq [1, 2], .deq, .deq] = (pending, answers) ∧
    runCalls (initQueue ⟨fun _ => ⟨fun _ => 0, 0⟩, 3, 5, 7⟩)
        [.enQueue [1, 2], .deQueue (fun _ => 0) 9, .deQueue (fun _ => 0) 9] =
      .ret (queue', List.zipWith QueueCall.answer
        [.enQueue [1, 2], .deQueue (fun _ => 0) 9, .deQueue (fun _ => 0) 9] answers) ∧
    queue'.Holds pending ∧
    Fifo.entered [.enq [1, 2], .deq, .deq] answers = Fifo.delivered answers ++ pending := by
  refine @queue_refines _ [.enQueue [1, 2], .deQueue _ 9, .deQueue _ 9] ?_
  intro call hcall
  simp only [List.mem_cons, List.not_mem_nil, or_false] at hcall
  rcases hcall with rfl | rfl | rfl
  · exact Nat.le_of_ble_eq_true rfl
  · trivial
  · trivial

end MulticastProxy.WinServer
