import MulticastProxy.Library.BucketTable

/-!
# Numbers owned by the values of a map

A map gives each of its values a number out of a pool of bits. Two keys never share a number, and
the set bits are the numbers given out. In a bucket table the map is its content: then there are as
many live cells as set bits.
-/

set_option autoImplicit false

variable {κ ν : Type*}

structure Owned (nodes : κ → Option ν) (idx : ν → Nat) (bits : Nat → Bool) : Prop where
  distinct : ∀ k k' v v', nodes k = some v → nodes k' = some v' → idx v = idx v' → k = k'
  bit : ∀ n, bits n = true ↔ ∃ k v, nodes k = some v ∧ idx v = n

namespace Owned

variable {nodes : κ → Option ν} {idx : ν → Nat} {bits : Nat → Bool}

theorem of_empty (h : ∀ k, nodes k = none) (hbits : ∀ n, bits n = false) :
    Owned nodes idx bits where
  distinct := fun k _ v _ hk => by simp [h] at hk
  bit := fun n => by simp [h, hbits]

theorem ne_of_clear (h : Owned nodes idx bits) {n : Nat} (hn : bits n = false) {k : κ} {v : ν}
    (hk : nodes k = some v) : idx v ≠ n := by
  rintro rfl
  have hset := (h.bit (idx v)).mpr ⟨k, v, hk, rfl⟩
  simp [hn] at hset

variable [DecidableEq κ]

/-- A value is exchanged for one with the same number. -/
theorem replace (h : Owned nodes idx bits) {k : κ} {v v' : ν} (hk : nodes k = some v)
    (hv : idx v' = idx v) : Owned (Function.update nodes k (some v')) idx bits := by
  have hold : ∀ k0 w, Function.update nodes k (some v') k0 = some w →
      ∃ w0, nodes k0 = some w0 ∧ idx w0 = idx w := by
    intro k0 w hw
    by_cases hk0 : k0 = k
    · subst hk0
      rw [Function.update_self] at hw
      obtain rfl := Option.some.inj hw
      exact ⟨v, hk, hv.symm⟩
    · rw [Function.update_of_ne hk0] at hw
      exact ⟨w, hw, rfl⟩
  refine ⟨fun k1 k2 v1 v2 h1 h2 he => ?_, fun n => ?_⟩
  · obtain ⟨w1, hw1, e1⟩ := hold k1 v1 h1
    obtain ⟨w2, hw2, e2⟩ := hold k2 v2 h2
    exact h.distinct k1 k2 w1 w2 hw1 hw2 (by rw [e1, e2, he])
  · rw [h.bit]
    constructor
    · rintro ⟨k0, w, hw, rfl⟩
      by_cases hk0 : k0 = k
      · subst hk0
        rw [hk] at hw
        obtain rfl := Option.some.inj hw
        exact ⟨k0, v', Function.update_self .., hv⟩
      · exact ⟨k0, w, by rwa [Function.update_of_ne hk0], rfl⟩
    · rintro ⟨k0, w, hw, rfl⟩
      obtain ⟨w0, hw0, e0⟩ := hold k0 w hw
      exact ⟨k0, w0, hw0, e0⟩

theorem insert (h : Owned nodes idx bits) {k : κ} {v : ν} (hk : nodes k = none)
    (hclear : bits (idx v) = false) :
    Owned (Function.update nodes k (some v)) idx (Function.update bits (idx v) true) := by
  refine ⟨fun k1 k2 v1 v2 h1 h2 he => ?_, fun n => ?_⟩
  · rw [Function.update_apply] at h1 h2
    split at h1 <;> rename_i hk1 <;> split at h2 <;> rename_i hk2
    · rw [hk1, hk2]
    · obtain rfl := Option.some.inj h1
      exact absurd he.symm (h.ne_of_clear hclear h2)
    · obtain rfl := Option.some.inj h2
      exact absurd he (h.ne_of_clear hclear h1)
    · exact h.distinct k1 k2 v1 v2 h1 h2 he
  · by_cases hn : n = idx v
    · rw [hn, Function.update_self]
      simp only [true_iff]
      exact ⟨k, v, Function.update_self .., rfl⟩
    · rw [Function.update_of_ne hn, h.bit]
      constructor
      · rintro ⟨k0, w, hw, rfl⟩
        have hk0 : k0 ≠ k := by
          rintro rfl
          simp [hk] at hw
        exact ⟨k0, w, by rwa [Function.update_of_ne hk0], rfl⟩
      · rintro ⟨k0, w, hw, rfl⟩
        rw [Function.update_apply] at hw
        split at hw
        · obtain rfl := Option.some.inj hw
          exact absurd rfl hn
        · exact ⟨k0, w, hw, rfl⟩

theorem erase (h : Owned nodes idx bits) {k : κ} {v : ν} (hk : nodes k = some v) :
    Owned (Function.update nodes k none) idx (Function.update bits (idx v) false) := by
  have hold : ∀ k0 w, Function.update nodes k none k0 = some w ↔ k0 ≠ k ∧ nodes k0 = some w := by
    intro k0 w
    by_cases hk0 : k0 = k
    · simp [hk0]
    · simp [hk0]
  refine ⟨fun k1 k2 v1 v2 h1 h2 he => ?_, fun n => ?_⟩
  · exact h.distinct k1 k2 v1 v2 ((hold k1 v1).mp h1).2 ((hold k2 v2).mp h2).2 he
  · by_cases hn : n = idx v
    · rw [hn, Function.update_self]
      simp only [Bool.false_eq_true, false_iff, not_exists, not_and]
      intro k0 w hw he
      obtain ⟨hk0, hw⟩ := (hold k0 w).mp hw
      exact hk0 (h.distinct k0 k w v hw hk he)
    · rw [Function.update_of_ne hn, h.bit]
      constructor
      · rintro ⟨k0, w, hw, rfl⟩
        refine ⟨k0, w, (hold k0 w).mpr ⟨?_, hw⟩, rfl⟩
        rintro rfl
        rw [hk] at hw
        obtain rfl := Option.some.inj hw
        exact hn rfl
      · rintro ⟨k0, w, hw, rfl⟩
        exact ⟨k0, w, ((hold k0 w).mp hw).2, rfl⟩

end Owned

section Table
variable {α κ : Type*} {L : BucketLayout α κ} {t : Nat → Nat → α} [DecidableEq κ]
variable {idx : α → Nat} {bits : Nat → Bool} (wf : L.WellFormed t)
include wf

/-- Ownership in terms of the live cells. -/
theorem owned_content_iff : Owned (L.content t) idx bits ↔
    (∀ b i b' i', L.live (t b i) = true → L.live (t b' i') = true →
      idx (t b i) = idx (t b' i') → b = b' ∧ i = i') ∧
    ∀ n, bits n = true ↔ ∃ b i, L.live (t b i) = true ∧ idx (t b i) = n := by
  have hbit : ∀ n, (∃ k c, L.content t k = some c ∧ idx c = n) ↔
      ∃ b i, L.live (t b i) = true ∧ idx (t b i) = n := by
    intro n
    constructor
    · rintro ⟨k, c, hc, hn⟩
      obtain ⟨b, i, rfl, hl, _⟩ := wf.content_eq_some_iff.mp hc
      exact ⟨b, i, hl, hn⟩
    · rintro ⟨b, i, hl, hn⟩
      exact ⟨_, _, wf.content_of_cell hl, hn⟩
  constructor
  · intro own
    refine ⟨fun b i b' i' hl hl' he => ?_, fun n => (own.bit n).trans (hbit n)⟩
    have hkey := own.distinct _ _ _ _ (wf.content_of_cell hl) (wf.content_of_cell hl') he
    exact wf.cell_unique hl hl' hkey
  · rintro ⟨hdistinct, hbits⟩
    refine ⟨fun k k' c c' hc hc' he => ?_, fun n => (hbits n).trans (hbit n).symm⟩
    obtain ⟨b, i, rfl, hl, rfl⟩ := wf.content_eq_some_iff.mp hc
    obtain ⟨b', i', rfl, hl', rfl⟩ := wf.content_eq_some_iff.mp hc'
    obtain ⟨rfl, rfl⟩ := hdistinct b i b' i' hl hl' he
    rfl

theorem card_liveCells_of_owned {buckets max : Nat} (hB : ∀ k, L.hash k < buckets)
    (own : Owned (L.content t) idx bits) (hmax : ∀ n, bits n = true → n < max) :
    (L.liveCells buckets t).card = ((Finset.range max).filter fun n => bits n = true).card := by
  obtain ⟨hdistinct, hbits⟩ := (owned_content_iff wf).mp own
  have himage : (L.liveCells buckets t).image (fun p => idx (t p.1 p.2)) =
      (Finset.range max).filter fun n => bits n = true := by
    ext n
    rw [Finset.mem_image, Finset.mem_filter, Finset.mem_range]
    constructor
    · rintro ⟨p, hp, rfl⟩
      have hset := (hbits (idx (t p.1 p.2))).mpr ⟨_, _, (wf.mem_liveCells hB).mp hp, rfl⟩
      exact ⟨hmax _ hset, hset⟩
    · rintro ⟨_, hset⟩
      obtain ⟨b, i, hl, hn⟩ := (hbits n).mp hset
      exact ⟨(b, i), (wf.mem_liveCells hB).mpr hl, hn⟩
  rw [← himage, Finset.card_image_of_injOn]
  rintro ⟨b, i⟩ hp ⟨b', i'⟩ hp' he
  obtain ⟨rfl, rfl⟩ := hdistinct b i b' i' ((wf.mem_liveCells hB).mp hp)
    ((wf.mem_liveCells hB).mp hp') he
  rfl

/-- Fewer live cells than `max` where not all of the first `max` numbers are given out. -/
theorem exists_clear_iff_card_lt {buckets max : Nat} (hB : ∀ k, L.hash k < buckets)
    (own : Owned (L.content t) idx bits) (hmax : ∀ n, bits n = true → n < max) :
    (∃ j < max, bits j = false) ↔ (L.liveCells buckets t).card < max := by
  rw [card_liveCells_of_owned wf hB own hmax]
  constructor
  · rintro ⟨j, hj, hclear⟩
    have hlt := Finset.card_lt_card (Finset.filter_ssubset.mpr
      ⟨j, Finset.mem_range.mpr hj, by simp [hclear]⟩ :
      (Finset.range max).filter (fun n => bits n = true) ⊂ Finset.range max)
    rwa [Finset.card_range] at hlt
  · intro hlt
    by_contra hall
    have hset : ∀ j ∈ Finset.range max, bits j = true := by
      intro j hj
      by_contra hne
      exact hall ⟨j, Finset.mem_range.mp hj, by simpa using hne⟩
    rw [Finset.filter_true_of_mem hset, Finset.card_range] at hlt
    exact absurd hlt (Nat.lt_irrefl _)

end Table
