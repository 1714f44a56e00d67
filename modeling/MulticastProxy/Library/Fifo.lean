import Mathlib.Tactic

/-!
# Bounded queues

A queue of at most `cap` elements as a list, the oldest one first, and the ring that holds such a
queue: an array with a cursor at the oldest element, a cursor behind the newest one and a count.
-/

set_option autoImplicit false

namespace Fifo

variable {α : Type*}

inductive Op (α : Type*) where
  | enq (x : α)
  | deq

inductive Answer (α : Type*) where
  | entered
  | full
  | out (x : α)
  | empty

/-! ## The queue -/

def step (cap : Nat) (q : List α) : Op α → List α × Answer α
  | .enq x => if q.length < cap then (q ++ [x], .entered) else (q, .full)
  | .deq =>
    match q with
    | [] => ([], .empty)
    | x :: q => (q, .out x)

def run (cap : Nat) : List α → List (Op α) → List α × List (Answer α)
  | q, [] => (q, [])
  | q, op :: ops =>
    let (q, answer) := step cap q op
    let (q, answers) := run cap q ops
    (q, answer :: answers)

/-- The elements that were let in. -/
def entered : List (Op α) → List (Answer α) → List α
  | .enq x :: ops, .entered :: answers => x :: entered ops answers
  | _ :: ops, _ :: answers => entered ops answers
  | _, _ => []

/-- The elements that were given out. -/
def delivered : List (Answer α) → List α
  | .out x :: answers => x :: delivered answers
  | _ :: answers => delivered answers
  | [] => []

/-- What is let in comes out in its order, or is still there. -/
theorem conservation (cap : Nat) (q : List α) (ops : List (Op α)) :
    q ++ entered ops (run cap q ops).2 = delivered (run cap q ops).2 ++ (run cap q ops).1 := by
  induction ops generalizing q with
  | nil => simp [run, entered, delivered]
  | cons op ops ih =>
    have hrest := ih (step cap q op).1
    cases op with
    | enq x =>
      rw [run, step] at *
      split at hrest
      · rename_i hroom
        rw [if_pos hroom]
        rw [List.append_assoc] at hrest
        exact hrest
      · rename_i hfull
        rw [if_neg hfull]
        exact hrest
    | deq =>
      cases q with
      | nil => exact hrest
      | cons x q => exact congrArg (List.cons x) hrest

/-! ## The ring -/

structure Ring (α : Type*) where
  node : Nat → α
  head : Nat
  tail : Nat
  count : Nat

namespace Ring

variable {size : Nat} {r : Ring α}

structure Sound (size : Nat) (r : Ring α) : Prop where
  head_lt : r.head < size
  tail_eq : r.tail = (r.head + r.count) % size
  count_le : r.count ≤ size

/-- The elements from the oldest one on. -/
def contents (size : Nat) (r : Ring α) : List α :=
  (List.range r.count).map fun i => r.node ((r.head + i) % size)

@[simp] theorem length_contents (size : Nat) (r : Ring α) : (r.contents size).length = r.count := by
  simp [contents]

def push (size : Nat) (r : Ring α) (x : α) : Ring α where
  node := Function.update r.node r.tail x
  head := r.head
  tail := (r.tail + 1) % size
  count := r.count + 1

def pop (size : Nat) (r : Ring α) : Ring α :=
  { r with
    head := (r.head + 1) % size
    count := r.count - 1 }

theorem Sound.tail_lt (h : r.Sound size) : r.tail < size := by
  rw [h.tail_eq]
  exact Nat.mod_lt _ (Nat.zero_lt_of_lt h.head_lt)

theorem Sound.push (h : r.Sound size) (hroom : r.count < size) (x : α) :
    (r.push size x).Sound size := by
  refine ⟨h.head_lt, ?_, hroom⟩
  change (r.tail + 1) % size = (r.head + (r.count + 1)) % size
  rw [h.tail_eq, Nat.mod_add_mod, Nat.add_assoc]

theorem Sound.pop (h : r.Sound size) (hsome : 0 < r.count) : (r.pop size).Sound size := by
  refine ⟨Nat.mod_lt _ (Nat.zero_lt_of_lt h.head_lt), ?_, Nat.le_trans (Nat.sub_le _ _) h.count_le⟩
  change r.tail = ((r.head + 1) % size + (r.count - 1)) % size
  rw [h.tail_eq, Nat.mod_add_mod]
  congr 1
  omega

/-- No two of the cells in use are the same. -/
theorem cell_ne {size head i j : Nat} (hij : i < j) (hj : j < size) :
    (head + i) % size ≠ (head + j) % size := by
  intro h
  have hmod : i % size = j % size := Nat.ModEq.add_left_cancel' head h
  rw [Nat.mod_eq_of_lt (by omega), Nat.mod_eq_of_lt hj] at hmod
  omega

theorem contents_push (h : r.Sound size) (hroom : r.count < size) (x : α) :
    (r.push size x).contents size = r.contents size ++ [x] := by
  have hcells : ∀ i ∈ List.range r.count,
      Function.update r.node r.tail x ((r.head + i) % size) = r.node ((r.head + i) % size) := by
    intro i hi
    apply Function.update_of_ne
    rw [h.tail_eq]
    exact cell_ne (List.mem_range.mp hi) hroom
  unfold contents push
  simp only
  rw [List.range_succ, List.map_append, List.map_singleton, List.map_congr_left hcells,
    ← h.tail_eq, Function.update_self]

theorem contents_pop (h : r.Sound size) (hsome : 0 < r.count) :
    r.contents size = r.node r.head :: (r.pop size).contents size := by
  obtain ⟨n, hn⟩ := Nat.exists_eq_succ_of_ne_zero (Nat.ne_of_gt hsome)
  unfold contents pop
  simp only
  rw [hn, List.range_succ_eq_map, List.map_cons, List.map_map, Nat.add_zero,
    Nat.mod_eq_of_lt h.head_lt]
  congr 1
  apply List.map_congr_left
  intro i _
  rw [Function.comp_apply, Nat.mod_add_mod, Nat.succ_eq_add_one, Nat.add_assoc, Nat.add_comm 1]

end Ring

end Fifo
