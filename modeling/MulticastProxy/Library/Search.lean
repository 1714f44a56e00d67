import Mathlib.Tactic

/-!
# Loops over an array of cells

Three loops that stop early: a probe upward that ends at the first dead cell, a
scan downward that ends at a given row, and a search for a free cell whose
counter is one byte wide. Nothing here knows what a cell holds.
-/

namespace Search

set_option autoImplicit false

/-- Walk up from `i` over at most `n` cells; end at the first dead one or the first hit. -/
def probe (live hit : Nat → Bool) : Nat → Nat → Option Nat
  | 0, _ => none
  | n + 1, i =>
    if live i = false then none
    else if hit i then some i
    else probe live hit n (i + 1)

/-- Walk down from below `n`; end without a result at `row`, with one at the first live cell. -/
def lastAfter (live : Nat → Bool) (row : Nat) : Nat → Option Nat
  | 0 => none
  | j + 1 => if row = j then none else if live j then some j else lastAfter live row j

/-- Search upward with a counter that wraps at 256. `none` says that the fuel ran out,
`some none` that the counter reached `bound`. -/
def byteSearch (free : Nat → Bool) (bound : Nat) : Nat → Nat → Option (Option Nat)
  | 0, _ => none
  | fuel + 1, i =>
    if i < bound then
      if free i then some (some i) else byteSearch free bound fuel ((i + 1) % 256)
    else some none

section Probe
variable {live hit : Nat → Bool}

theorem probe_eq_some_iff {n i r : Nat} :
    probe live hit n i = some r ↔
      i ≤ r ∧ r < i + n ∧ hit r = true ∧ (∀ j, i ≤ j → j ≤ r → live j = true) ∧
        ∀ j, i ≤ j → j < r → hit j = false := by
  induction n generalizing i with
  | zero =>
    simp only [probe, reduceCtorEq, false_iff]
    rintro ⟨h1, h2, -⟩
    omega
  | succ n ih =>
    simp only [probe]
    split
    · rename_i hdead
      simp only [reduceCtorEq, false_iff]
      rintro ⟨h1, _, _, h4, _⟩
      simp [h4 i (Nat.le_refl i) h1] at hdead
    · rename_i hlive
      have hlive : live i = true := by simpa using hlive
      split
      · rename_i hhit
        constructor
        · intro h
          obtain rfl := Option.some.inj h
          refine ⟨Nat.le_refl i, by omega, hhit, ?_, by omega⟩
          intro j h1 h2
          obtain rfl : j = i := by omega
          exact hlive
        · rintro ⟨h1, _, _, _, h5⟩
          by_cases he : i = r
          · rw [he]
          · simp [h5 i (Nat.le_refl i) (by omega)] at hhit
      · rename_i hmiss
        rw [ih]
        constructor
        · rintro ⟨h1, h2, h3, h4, h5⟩
          refine ⟨by omega, by omega, h3, ?_, ?_⟩
          · intro j hj hr
            by_cases he : j = i
            · exact he ▸ hlive
            · exact h4 j (by omega) hr
          · intro j hj hr
            by_cases he : j = i
            · subst he; simpa using hmiss
            · exact h5 j (by omega) hr
        · rintro ⟨h1, h2, h3, h4, h5⟩
          have hne : i ≠ r := by
            rintro rfl
            exact hmiss h3
          exact ⟨by omega, by omega, h3, fun j hj => h4 j (by omega), fun j hj => h5 j (by omega)⟩

/-- In an array whose live cells are the first `m`, a probe finds the first live hit. -/
theorem probe_eq_some_of_prefix {n m : Nat} (hm : m ≤ n) (hlive : ∀ i, live i = true ↔ i < m)
    {r : Nat} (hr : hit r = true) (hl : live r = true)
    (huniq : ∀ j, live j = true → hit j = true → j = r) :
    probe live hit n 0 = some r := by
  have hrm := (hlive r).mp hl
  refine probe_eq_some_iff.mpr ⟨Nat.zero_le r, by omega, hr, ?_, ?_⟩
  · intro j _ hj
    exact (hlive j).mpr (by omega)
  · intro j _ hj
    by_contra hne
    have := huniq j ((hlive j).mpr (by omega)) (by simpa using hne)
    omega

theorem probe_congr {live' hit' : Nat → Bool} {n i : Nat}
    (hl : ∀ j, i ≤ j → live j = live' j) (hh : ∀ j, i ≤ j → hit j = hit' j) :
    probe live hit n i = probe live' hit' n i := by
  induction n generalizing i with
  | zero => rfl
  | succ n ih =>
    simp only [probe, hl i (Nat.le_refl i), hh i (Nat.le_refl i)]
    rw [ih (fun j hj => hl j (by omega)) (fun j hj => hh j (by omega))]

end Probe

section LastAfter
variable {live : Nat → Bool} {row : Nat}

theorem lastAfter_eq_some {n j : Nat} (h : lastAfter live row n = some j) :
    live j = true ∧ j < n ∧ row ≠ j ∧ (row < n → row < j) ∧ ∀ i, j < i → i < n → live i = false := by
  induction n with
  | zero => simp [lastAfter] at h
  | succ n ih =>
    simp only [lastAfter] at h
    split at h
    · simp at h
    · rename_i hrow
      split at h
      · rename_i hlive
        obtain rfl := Option.some.inj h
        exact ⟨hlive, by omega, hrow, by omega, by omega⟩
      · rename_i hdead
        obtain ⟨h1, h2, h3, h4, h5⟩ := ih h
        refine ⟨h1, by omega, h3, by omega, ?_⟩
        intro i hi hin
        by_cases he : i = n
        · subst he; simpa using hdead
        · exact h5 i hi (by omega)

theorem lastAfter_eq_none {n : Nat} (h : lastAfter live row n = none) :
    ∀ i, row < i → i < n → live i = false := by
  induction n with
  | zero => omega
  | succ n ih =>
    intro i hi hn
    simp only [lastAfter] at h
    split at h
    · omega
    · split at h
      · simp at h
      · rename_i hdead
        by_cases he : i = n
        · subst he; simpa using hdead
        · exact ih h i hi (by omega)

/-- Where the live cells are the first `m`, the scan ends at the last live cell above `row`. -/
theorem lastAfter_of_prefix {n m : Nat} (hm : m ≤ n) (hlive : ∀ i, live i = true ↔ i < m)
    (hrow : row < m) :
    lastAfter live row n = if row + 1 = m then none else some (m - 1) := by
  cases h : lastAfter live row n with
  | none =>
    have hdead := lastAfter_eq_none h
    rw [if_pos]
    by_contra hne
    have := hdead (m - 1) (by omega) (by omega)
    simp [(hlive (m - 1)).mpr (by omega)] at this
  | some j =>
    obtain ⟨h1, h2, h3, h4, h5⟩ := lastAfter_eq_some h
    have hj := (hlive j).mp h1
    have hjm : j = m - 1 := by
      by_contra hne
      have := h5 (m - 1) (by omega) (by omega)
      simp [(hlive (m - 1)).mpr (by omega)] at this
    rw [if_neg (by omega), hjm]

end LastAfter

section ByteSearch
variable {free : Nat → Bool} {bound : Nat}

theorem byteSearch_hit {fuel i r : Nat} (h : byteSearch free bound fuel i = some (some r)) :
    free r = true := by
  induction fuel generalizing i with
  | zero => cases h
  | succ fuel ih =>
    rw [byteSearch] at h
    split at h
    · split at h
      · rename_i hfree
        obtain rfl := Option.some.inj (Option.some.inj h)
        exact hfree
      · exact ih h
    · cases h

/-- From `i`, `fuel` steps reach at most index 255: the counter has not wrapped yet. -/
theorem byteSearch_eq_some (hb : 256 ≤ bound) {fuel i r : Nat} (hi : i + fuel ≤ 256)
    (hr : i ≤ r) (hrf : r < i + fuel) (hfree : free r = true)
    (hbusy : ∀ j, i ≤ j → j < r → free j = false) :
    byteSearch free bound fuel i = some (some r) := by
  induction fuel generalizing i with
  | zero => omega
  | succ fuel ih =>
    rw [byteSearch, if_pos (by omega)]
    by_cases he : i = r
    · subst he
      rw [if_pos hfree]
    · rw [if_neg (by simp [hbusy i (Nat.le_refl i) (by omega)])]
      have hmod : (i + 1) % 256 = i + 1 := Nat.mod_eq_of_lt (by omega)
      rw [hmod]
      exact ih (by omega) (by omega) (by omega) (fun j hj => hbusy j (by omega))

/-- Where the first 256 cells are taken and the bound is beyond them, the counter wraps for ever. -/
theorem byteSearch_diverges (hb : 256 ≤ bound) (hbusy : ∀ j < 256, free j = false)
    (fuel : Nat) {i : Nat} (hi : i < 256) : byteSearch free bound fuel i = none := by
  induction fuel generalizing i with
  | zero => rfl
  | succ fuel ih =>
    rw [byteSearch, if_pos (by omega), if_neg (by simp [hbusy i hi])]
    exact ih (Nat.mod_lt _ (by decide))

/-- One round of 256 steps decides the search: it finds the first free cell of the first 256,
or no amount of fuel ends it. -/
theorem byteSearch_round (free : Nat → Bool) (hb : 256 ≤ bound) :
    (∃ r < 256, byteSearch free bound 256 0 = some (some r) ∧ free r = true ∧
      ∀ j < r, free j = false) ∨
    (byteSearch free bound 256 0 = none ∧ (∀ j < 256, free j = false) ∧
      ∀ fuel, byteSearch free bound fuel 0 = none) := by
  by_cases hex : ∃ r, r < 256 ∧ free r = true
  · left
    obtain ⟨hr, hfree⟩ := Nat.find_spec hex
    have hmin : ∀ j < Nat.find hex, free j = false := by
      intro j hj
      by_contra hne
      exact Nat.find_min hex hj ⟨by omega, by simpa using hne⟩
    refine ⟨Nat.find hex, hr, ?_, hfree, hmin⟩
    exact byteSearch_eq_some hb (by omega) (by omega) (by omega) hfree (fun j _ => hmin j)
  · right
    have hbusy : ∀ j < 256, free j = false := by
      intro j hj
      by_contra hne
      exact hex ⟨j, hj, by simpa using hne⟩
    exact ⟨byteSearch_diverges hb hbusy 256 (by decide), hbusy,
      fun fuel => byteSearch_diverges hb hbusy fuel (by decide)⟩

end ByteSearch

end Search
