import Mathlib.Tactic
import MulticastProxy.Library.Outcome

/-!
# Rows of the member table

A group's members are the first cells of its row of `multi_vm`. `add_vm_ip_list`
is the same text in the kernel module and in the user-space proxies but for the
length of a row, which is a parameter here.
-/

namespace MulticastProxy

set_option autoImplicit false

def cells (row : Nat → UInt32) (n : Nat) : List UInt32 := (List.range n).map row

@[simp] theorem cells_zero (row : Nat → UInt32) : cells row 0 = [] := rfl

@[simp] theorem length_cells (row : Nat → UInt32) (n : Nat) : (cells row n).length = n := by
  simp [cells]

theorem cells_succ (row : Nat → UInt32) (n : Nat) : cells row (n + 1) = cells row n ++ [row n] := by
  simp [cells, List.range_succ]

theorem mem_cells {row : Nat → UInt32} {n : Nat} {ip : UInt32} :
    ip ∈ cells row n ↔ ∃ j < n, row j = ip := by
  simp [cells]

theorem cells_congr {row row' : Nat → UInt32} {n : Nat} (h : ∀ j < n, row j = row' j) :
    cells row n = cells row' n := by
  apply List.map_congr_left
  intro j hj
  exact h j (List.mem_range.mp hj)

theorem cells_update_self (row : Nat → UInt32) (n : Nat) (ip : UInt32) :
    cells (Function.update row n ip) (n + 1) = cells row n ++ [ip] := by
  rw [cells_succ, Function.update_self,
    cells_congr (fun j hj => Function.update_of_ne (by omega) ip row)]

def rowHas (row : Nat → UInt32) (n : Nat) (ip : UInt32) : Bool :=
  (List.range n).any fun j => row j == ip

theorem rowHas_iff {row : Nat → UInt32} {n : Nat} {ip : UInt32} :
    rowHas row n ip = true ↔ ip ∈ cells row n := by
  simp [rowHas, mem_cells]

/-- The loop of `add_vm_ip_list` over the requested addresses: one that the row held before the
call is skipped, another is stored at `k`. A store outside the row is a fault. -/
def addVmIpLoop (vmMax : Nat) (ipList : Nat → UInt32) (oldIpNum : Nat) :
    Nat → Nat → (Nat → UInt32) → Nat → Outcome ((Nat → UInt32) × Nat)
  | 0, _, row, k => .ret (row, k)
  | n + 1, i, row, k =>
    if rowHas row oldIpNum (ipList i) then addVmIpLoop vmMax ipList oldIpNum n (i + 1) row k
    else if k < vmMax then
      addVmIpLoop vmMax ipList oldIpNum n (i + 1) (Function.update row k (ipList i)) (k + 1)
    else .fault

/-- What the loop appends: the requested addresses that are not among the old members. -/
def newcomers (ipList : Nat → UInt32) (i n : Nat) (old : List UInt32) : List UInt32 :=
  ((List.range' i n).map ipList).filter (· ∉ old)

theorem newcomers_zero (ipList : Nat → UInt32) (n : Nat) (old : List UInt32) :
    newcomers ipList 0 n old = (cells ipList n).filter (· ∉ old) := by
  rw [newcomers, cells, List.range_eq_range']

theorem newcomers_succ (ipList : Nat → UInt32) (i n : Nat) (old : List UInt32) :
    newcomers ipList i (n + 1) old =
      ([ipList i].filter (· ∉ old)) ++ newcomers ipList (i + 1) n old := by
  simp [newcomers, List.range'_succ, List.filter_cons]
  split <;> rfl

theorem newcomers_length_le (ipList : Nat → UInt32) (i n : Nat) (old : List UInt32) :
    (newcomers ipList i n old).length ≤ n := by
  apply (List.length_filter_le _ _).trans
  simp

theorem addVmIpLoop_ret {vmMax : Nat} {ipList : Nat → UInt32} {oldIpNum n i k k' : Nat}
    {row row' : Nat → UInt32} (hold : oldIpNum ≤ k)
    (h : addVmIpLoop vmMax ipList oldIpNum n i row k = .ret (row', k')) :
    cells row' k' = cells row k ++ newcomers ipList i n (cells row oldIpNum) ∧
      k ≤ k' ∧ (k ≤ vmMax → k' ≤ vmMax) ∧ ∀ j, vmMax ≤ j → row' j = row j := by
  induction n generalizing i row k with
  | zero =>
    simp only [addVmIpLoop, Outcome.ret.injEq, Prod.mk.injEq] at h
    obtain ⟨rfl, rfl⟩ := h
    simp [newcomers]
  | succ n ih =>
    simp only [addVmIpLoop] at h
    have hsplit := newcomers_succ ipList i n (cells row oldIpNum)
    split at h
    · rename_i hhas
      obtain ⟨h1, h2, h3, h4⟩ := ih hold h
      refine ⟨?_, h2, h3, h4⟩
      rw [h1, hsplit]
      simp [rowHas_iff.mp hhas]
    · rename_i hhas
      have hnew : ipList i ∉ cells row oldIpNum := fun hm => hhas (rowHas_iff.mpr hm)
      split at h
      · rename_i hk
        obtain ⟨h1, h2, h3, h4⟩ := ih (by omega) h
        have hsame : cells (Function.update row k (ipList i)) oldIpNum = cells row oldIpNum :=
          cells_congr (fun j hj => Function.update_of_ne (by omega) _ _)
        refine ⟨?_, by omega, fun _ => h3 (by omega), ?_⟩
        · rw [h1, hsplit, hsame, cells_update_self]
          simp [hnew]
        · intro j hj
          rw [h4 j hj, Function.update_of_ne (by omega)]
      · simp at h

/-- The cells behind the members that the loop leaves are as they were. -/
theorem addVmIpLoop_above {vmMax : Nat} {ipList : Nat → UInt32} {oldIpNum n i k k' : Nat}
    {row row' : Nat → UInt32}
    (h : addVmIpLoop vmMax ipList oldIpNum n i row k = .ret (row', k')) :
    k ≤ k' ∧ ∀ j, k' ≤ j → row' j = row j := by
  induction n generalizing i row k with
  | zero =>
    simp only [addVmIpLoop, Outcome.ret.injEq, Prod.mk.injEq] at h
    obtain ⟨rfl, rfl⟩ := h
    exact ⟨Nat.le_refl _, fun _ _ => rfl⟩
  | succ n ih =>
    simp only [addVmIpLoop] at h
    split at h
    · exact ih h
    · split at h
      · obtain ⟨hle, habove⟩ := ih h
        refine ⟨by omega, ?_⟩
        intro j hj
        rw [habove j hj, Function.update_of_ne (by omega)]
      · simp at h

theorem addVmIpLoop_returns {vmMax k n : Nat} (ipList : Nat → UInt32) (oldIpNum i : Nat)
    (row : Nat → UInt32) (hroom : k + n ≤ vmMax) :
    ∃ row' k', addVmIpLoop vmMax ipList oldIpNum n i row k = .ret (row', k') := by
  induction n generalizing i row k with
  | zero => exact ⟨row, k, rfl⟩
  | succ n ih =>
    simp only [addVmIpLoop]
    split
    · exact ih _ _ (by omega)
    · rw [if_pos (by omega)]
      exact ih _ _ (by omega)

/-- The loop stays inside the row exactly where there is no newcomer, or all of them fit. -/
theorem addVmIpLoop_returns_iff {vmMax : Nat} {ipList : Nat → UInt32} {oldIpNum n i k : Nat}
    {row : Nat → UInt32} (hold : oldIpNum ≤ k) :
    (∃ row' k', addVmIpLoop vmMax ipList oldIpNum n i row k = .ret (row', k')) ↔
      newcomers ipList i n (cells row oldIpNum) = [] ∨
        k + (newcomers ipList i n (cells row oldIpNum)).length ≤ vmMax := by
  induction n generalizing i row k with
  | zero => simp [addVmIpLoop, newcomers]
  | succ n ih =>
    rw [newcomers_succ]
    simp only [addVmIpLoop]
    by_cases hmem : ipList i ∈ cells row oldIpNum
    · have hnone : [ipList i].filter (· ∉ cells row oldIpNum) = [] := by simp [hmem]
      rw [if_pos (rowHas_iff.mpr hmem), ih hold, hnone, List.nil_append]
    · have hone : [ipList i].filter (· ∉ cells row oldIpNum) = [ipList i] := by simp [hmem]
      have hsame : cells (Function.update row k (ipList i)) oldIpNum = cells row oldIpNum :=
        cells_congr (fun j hj => Function.update_of_ne (by omega) _ _)
      rw [if_neg (mt rowHas_iff.mp hmem), hone, List.singleton_append, List.length_cons]
      simp only [reduceCtorEq, false_or]
      by_cases hk : k < vmMax
      · rw [if_pos hk, ih (by omega), hsame]
        constructor
        · rintro (hempty | hfit)
          · rw [hempty, List.length_nil]
            omega
          · omega
        · intro hfit
          exact Or.inr (by omega)
      · rw [if_neg hk]
        simp only [reduceCtorEq, exists_const, false_iff]
        omega

end MulticastProxy
