import Mathlib.Tactic
import Mathlib.Data.Finset.Card

/-!
# The pool of group indices

`get_idx` takes the lowest clear bit of a pool, `put_idx` clears a bit again.
-/

namespace MulticastProxy

set_option autoImplicit false

/-- `multi_test_and_set_bit` on each bit in turn: the set bits stay set, the first clear one
is set and returned. -/
def getIdx (grpMax : Nat) (bitmap : Nat → Bool) : Option (Nat × (Nat → Bool)) :=
  match (List.range grpMax).find? (fun i => !bitmap i) with
  | some i => some (i, Function.update bitmap i true)
  | none => none

def putIdx (bitmap : Nat → Bool) (idx : Nat) : Nat → Bool := Function.update bitmap idx false

theorem getIdx_eq_some {grpMax idx : Nat} {bitmap bitmap' : Nat → Bool}
    (h : getIdx grpMax bitmap = some (idx, bitmap')) :
    idx < grpMax ∧ bitmap idx = false ∧ (∀ j < idx, bitmap j = true) ∧
      bitmap' = Function.update bitmap idx true := by
  unfold getIdx at h
  split at h
  · rename_i i hi
    simp only [Option.some.injEq, Prod.mk.injEq] at h
    obtain ⟨rfl, rfl⟩ := h
    obtain ⟨h1, h2, h3⟩ := List.find?_range_eq_some.mp hi
    exact ⟨List.mem_range.mp h2, by simpa using h1, fun j hj => by simpa using h3 j hj, rfl⟩
  · simp at h

theorem getIdx_eq_none_iff {grpMax : Nat} {bitmap : Nat → Bool} :
    getIdx grpMax bitmap = none ↔ ∀ j < grpMax, bitmap j = true := by
  unfold getIdx
  split
  · rename_i i hi
    obtain ⟨h1, h2, _⟩ := List.find?_range_eq_some.mp hi
    simp only [reduceCtorEq, false_iff, not_forall]
    exact ⟨i, List.mem_range.mp h2, by simpa using h1⟩
  · rename_i hn
    rw [List.find?_range_eq_none] at hn
    simpa using hn

/-! ## Counting the bits -/

def setBits (grpMax : Nat) (bitmap : Nat → Bool) : Finset Nat :=
  (Finset.range grpMax).filter fun i => bitmap i = true

theorem card_setBits_le (grpMax : Nat) (bitmap : Nat → Bool) :
    (setBits grpMax bitmap).card ≤ grpMax := by
  have hle := Finset.card_filter_le (Finset.range grpMax) fun i => bitmap i = true
  rwa [Finset.card_range] at hle

theorem card_setBits_set {grpMax idx : Nat} {bitmap : Nat → Bool} (hidx : idx < grpMax)
    (hclear : bitmap idx = false) :
    (setBits grpMax (Function.update bitmap idx true)).card = (setBits grpMax bitmap).card + 1 := by
  have hnot : idx ∉ setBits grpMax bitmap := by
    intro hmem
    exact Bool.false_ne_true (hclear.symm.trans (Finset.mem_filter.mp hmem).2)
  rw [← Finset.card_insert_of_notMem hnot]
  congr 1
  ext i
  rw [Finset.mem_insert, setBits, setBits, Finset.mem_filter, Finset.mem_filter,
    Function.update_apply]
  by_cases hi : i = idx
  · rw [if_pos hi, hi]
    exact iff_of_true ⟨Finset.mem_range.mpr hidx, rfl⟩ (Or.inl rfl)
  · rw [if_neg hi]
    exact (or_iff_right hi).symm

/-- At most one bit is lost, and none where the bit was clear already. -/
theorem card_setBits_putIdx (grpMax : Nat) (bitmap : Nat → Bool) (idx : Nat) :
    (setBits grpMax bitmap).card ≤ (setBits grpMax (putIdx bitmap idx)).card + 1 := by
  apply le_trans (Finset.card_le_card _) (Finset.card_insert_le idx _)
  intro i hi
  obtain ⟨hrange, hset⟩ := Finset.mem_filter.mp hi
  rw [Finset.mem_insert]
  by_cases he : i = idx
  · exact Or.inl he
  · refine Or.inr (Finset.mem_filter.mpr ⟨hrange, ?_⟩)
    rw [putIdx, Function.update_of_ne he]
    exact hset

/-- The bits that the loop of `get_idx` tests, at most `n` of them from bit `i` on. -/
def testedBits (bitmap : Nat → Bool) : Nat → Nat → List Nat
  | 0, _ => []
  | n + 1, i => i :: if bitmap i then testedBits bitmap n (i + 1) else []

theorem mem_testedBits {bitmap : Nat → Bool} {n i bit : Nat} :
    bit ∈ testedBits bitmap n i ↔
      i ≤ bit ∧ bit < i + n ∧ ∀ j, i ≤ j → j < bit → bitmap j = true := by
  induction n generalizing i with
  | zero =>
    simp only [testedBits, List.not_mem_nil, false_iff]
    rintro ⟨h1, h2, _⟩
    omega
  | succ n ih =>
    simp only [testedBits, List.mem_cons]
    by_cases he : bit = i
    · subst he
      exact iff_of_true (Or.inl rfl) ⟨Nat.le_refl bit, by omega, by omega⟩
    · constructor
      · rintro (h | h)
        · exact absurd h he
        · split at h
          · rename_i hset
            obtain ⟨h1, h2, h3⟩ := ih.mp h
            refine ⟨by omega, by omega, fun j hj hb => ?_⟩
            by_cases hji : j = i
            · exact hji ▸ hset
            · exact h3 j (by omega) hb
          · simp at h
      · rintro ⟨h1, h2, h3⟩
        rw [if_pos (h3 i (Nat.le_refl i) (by omega))]
        exact Or.inr (ih.mpr ⟨by omega, by omega, fun j hj hb => h3 j (by omega) hb⟩)

/-- The tested bits lie below `width` where a bit below it is clear. -/
theorem testedBits_lt_iff {bitmap : Nat → Bool} {width grpMax : Nat} (hwidth : width < grpMax) :
    (∀ bit ∈ testedBits bitmap grpMax 0, bit < width) ↔ ∃ j < width, bitmap j = false := by
  constructor
  · intro h
    by_contra hall
    have hset : ∀ j, 0 ≤ j → j < width → bitmap j = true := by
      intro j _ hj
      by_contra hne
      exact hall ⟨j, hj, by simpa using hne⟩
    exact absurd (h width (mem_testedBits.mpr ⟨Nat.zero_le _, by omega, hset⟩)) (Nat.lt_irrefl _)
  · rintro ⟨j, hj, hclear⟩ bit hbit
    obtain ⟨_, _, hlow⟩ := mem_testedBits.mp hbit
    by_contra hge
    simp [hlow j (Nat.zero_le j) (by omega)] at hclear

/-- The bits that the insertion of a group tests in `get_idx` and, where the search for a cell
came to the end of its bucket, clears in `put_idx`. -/
def insertTouches (grpMax : Nat) (bitmap : Nat → Bool) (cell : Option (Option Nat)) : List Nat :=
  testedBits bitmap grpMax 0 ++
    match getIdx grpMax bitmap, cell with
    | some (idx, _), some none => [idx]
    | _, _ => []

theorem insertTouches_lt_iff {bitmap : Nat → Bool} {width grpMax : Nat} (hwidth : width < grpMax)
    (cell : Option (Option Nat)) :
    (∀ bit ∈ insertTouches grpMax bitmap cell, bit < width) ↔ ∃ j < width, bitmap j = false := by
  rw [← testedBits_lt_iff hwidth]
  constructor
  · exact fun hall bit hbit => hall bit (List.mem_append_left _ hbit)
  · intro hall bit hbit
    rcases List.mem_append.mp hbit with hbit | hput
    · exact hall bit hbit
    · split at hput
      · rename_i idx _ hget
        obtain rfl := List.mem_singleton.mp hput
        -- the index given back is the last bit tested
        obtain ⟨hidx, _, hlow, _⟩ := getIdx_eq_some hget
        exact hall _ (mem_testedBits.mpr ⟨Nat.zero_le _, by omega, fun j _ hj => hlow j hj⟩)
      · simp at hput

theorem exists_unowned {ι : Type*} (owners : Finset ι) (idx : ι → Nat) {n : Nat}
    (h : owners.card < n) : ∃ j < n, ∀ x ∈ owners, idx x ≠ j := by
  classical
  by_contra hall
  have hsub : Finset.range n ⊆ owners.image idx := by
    intro j hj
    by_contra hj'
    refine hall ⟨j, Finset.mem_range.mp hj, fun x hx he => hj' ?_⟩
    exact Finset.mem_image.mpr ⟨x, hx, he⟩
  have h1 := Finset.card_le_card hsub
  have h2 := Finset.card_image_le (s := owners) (f := idx)
  rw [Finset.card_range] at h1
  omega

end MulticastProxy
