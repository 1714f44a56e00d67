import MulticastProxy.Library.BucketTable
import MulticastProxy.Library.Outcome

/-!
# Listing a table into arrays

A listing goes through the buckets in order, each up to its first free cell, and hands the live
cells to a `store`. An array of fixed size takes them one behind the other; a store behind its end
is a fault.
-/

set_option autoImplicit false

namespace Listing

variable {α β γ ρ : Type} {κ : Type*}

/-- At most `n` cells of one bucket from `j` on. -/
def bucket (live : α → Bool) (store : β → α → Outcome β) (cells : Nat → α) :
    Nat → Nat → β → Outcome β
  | 0, _, acc => .ret acc
  | n + 1, j, acc =>
    if live (cells j) = false then .ret acc
    else do
      let acc ← store acc (cells j)
      bucket live store cells n (j + 1) acc

/-- `n` buckets from `i` on. -/
def buckets (live : α → Bool) (store : β → α → Outcome β) (depth : Nat) (t : Nat → Nat → α) :
    Nat → Nat → β → Outcome β
  | 0, _, acc => .ret acc
  | n + 1, i, acc => do
    let acc ← bucket live store (t i) depth 0 acc
    buckets live store depth t n (i + 1) acc

/-- The next place of an array of `max` places, and the array. -/
def store (max : Nat) (put : γ → Nat → α → γ) (acc : Nat × γ) (a : α) : Outcome (Nat × γ) :=
  if acc.1 < max then .ret (acc.1 + 1, put acc.2 acc.1 a) else .fault

theorem bucket_eq (live : α → Bool) (f : β → α → Outcome β) (cells : Nat → α) (n j : Nat)
    (acc : β) :
    bucket live f cells n j acc =
      (((List.range' j n).takeWhile fun j => live (cells j)).map cells).foldlM f acc := by
  induction n generalizing j acc with
  | zero => rfl
  | succ n ih =>
    rw [bucket, List.range'_succ, List.takeWhile_cons]
    cases live (cells j) with
    | false => rfl
    | true =>
      simp only [Bool.true_eq_false, if_false, if_true, List.map_cons, List.foldlM_cons, ih]

/-- A listing stores the cells of a scan in their order. -/
theorem buckets_eq (L : BucketLayout α κ) (f : β → α → Outcome β) (t : Nat → Nat → α) (n : Nat)
    (acc : β) :
    buckets L.live f L.depth t n 0 acc =
      ((L.scan n t).map fun p => t p.1 p.2).foldlM f acc := by
  have hfrom : ∀ i acc, buckets L.live f L.depth t n i acc =
      ((List.range' i n).flatMap fun b =>
        ((List.range L.depth).takeWhile fun j => L.live (t b j)).map (t b)).foldlM f acc := by
    induction n with
    | zero => exact fun _ _ => rfl
    | succ n ih =>
      intro i acc
      rw [buckets, List.range'_succ, List.flatMap_cons, List.foldlM_append, bucket_eq,
        ← List.range_eq_range']
      simp only [ih]
  rw [hfrom, BucketLayout.map_scan, List.range_eq_range' (n := n)]

section Store
variable {max : Nat} {put : γ → Nat → α → γ}

theorem foldlM_store_of_lt {as : List α} {k : Nat} (g : γ) (hk : k ≤ max)
    (h : max < k + as.length) : as.foldlM (store max put) (k, g) = .fault := by
  induction as generalizing k g with
  | nil =>
    rw [List.length_nil] at h
    omega
  | cons a as ih =>
    rw [List.length_cons] at h
    rw [List.foldlM_cons, store]
    split
    · rename_i hroom
      exact ih _ (by omega) (by omega)
    · rfl

/-- Where the cells fit, each is found at its place and the others are as before. -/
theorem foldlM_store_of_le {row : γ → Nat → ρ} {f : α → ρ}
    (hput : ∀ g k a, row (put g k a) = Function.update (row g) k (f a)) {as : List α} {k : Nat}
    (g : γ) (h : k + as.length ≤ max) :
    ∃ g', as.foldlM (store max put) (k, g) = .ret (k + as.length, g') ∧
      (∀ n (hn : n < as.length), row g' (k + n) = f as[n]) ∧
      ∀ j, j < k ∨ k + as.length ≤ j → row g' j = row g j := by
  induction as generalizing k g with
  | nil => exact ⟨g, rfl, by simp, fun _ _ => rfl⟩
  | cons a as ih =>
    rw [List.length_cons] at h
    have hroom : k < max := by omega
    obtain ⟨g', hrun, hnew, hold⟩ := ih (k := k + 1) (put g k a) (by omega)
    refine ⟨g', ?_, ?_, ?_⟩
    · rw [List.foldlM_cons, store, if_pos hroom, Outcome.ret_bind, hrun, List.length_cons,
        Nat.add_assoc, Nat.add_comm 1]
    · intro n hn
      cases n with
      | zero => rw [Nat.add_zero, hold k (by omega), hput, Function.update_self,
          List.getElem_cons_zero]
      | succ n =>
        have hrow := hnew n (by simpa using hn)
        rw [List.getElem_cons_succ, ← hrow]
        congr 1
        omega
    · intro j hj
      rw [List.length_cons] at hj
      rw [hold j (by omega), hput, Function.update_of_ne (by omega)]

/-- The case of one array that only takes the cells. -/
theorem foldlM_store_array {put : (Nat → ρ) → Nat → α → Nat → ρ} {f : α → ρ}
    (hput : ∀ g k a, put g k a = Function.update g k (f a)) {as : List α} {k : Nat}
    (g : Nat → ρ) (h : k + as.length ≤ max) :
    ∃ g', as.foldlM (store max put) (k, g) = .ret (k + as.length, g') ∧
      (∀ n (hn : n < as.length), g' (k + n) = f as[n]) ∧
      ∀ j, j < k ∨ k + as.length ≤ j → g' j = g j :=
  foldlM_store_of_le (fun g k a => congrArg id (hput g k a)) g h

end Store

end Listing
