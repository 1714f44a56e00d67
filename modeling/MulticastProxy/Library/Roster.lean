import Mathlib.Data.List.Nodup
import Mathlib.Logic.Function.Basic

/-!
# Who is in a state, as a list

Of many processes those in a state of one kind, each with what it carries there. The list is in the
order in which they came, and any of them may be the next to leave.
-/

set_option autoImplicit false

variable {ι τ κ : Type*}

/-- `l` lists, once each, the processes that `sel` picks. -/
def Roster (sel : τ → Option κ) (loc : ι → τ) (l : List κ) : Prop :=
  ∃ ids : List ι, ids.Nodup ∧ (∀ i k, sel (loc i) = some k → i ∈ ids) ∧
    ids.map (fun i => sel (loc i)) = l.map some

namespace Roster
variable {sel : τ → Option κ} {loc : ι → τ} {l : List κ}

theorem nil (h : ∀ i, sel (loc i) = none) : Roster sel loc ([] : List κ) := by
  refine ⟨[], List.nodup_nil, ?_, rfl⟩
  intro i k hk
  rw [h i] at hk
  cases hk

theorem mem (h : Roster sel loc l) {i : ι} {k : κ} (hi : sel (loc i) = some k) : k ∈ l := by
  obtain ⟨ids, _, hall, hmap⟩ := h
  have hk : some k ∈ ids.map fun i => sel (loc i) :=
    List.mem_map.mpr ⟨i, hall i k hi, hi⟩
  rw [hmap] at hk
  obtain ⟨k', hk', he⟩ := List.mem_map.mp hk
  exact Option.some.inj he ▸ hk'

variable [DecidableEq ι]

/-- Who is not in the list stays out of it. -/
theorem keep (h : Roster sel loc l) {i : ι} {t : τ} (hi : sel (loc i) = none) (ht : sel t = none) :
    Roster sel (Function.update loc i t) l := by
  have hsame : ∀ j, sel (Function.update loc i t j) = sel (loc j) := by
    intro j
    rcases eq_or_ne j i with rfl | hne
    · rw [Function.update_self, ht, hi]
    · rw [Function.update_of_ne hne]
  unfold Roster
  simp only [hsame]
  exact h

/-- Whoever comes in is last. -/
theorem add (h : Roster sel loc l) {i : ι} {t : τ} {k : κ} (hi : sel (loc i) = none)
    (ht : sel t = some k) : Roster sel (Function.update loc i t) (l ++ [k]) := by
  obtain ⟨ids, hnodup, hall, hmap⟩ := h
  have hnot : i ∉ ids := by
    intro hmem
    have hnone : sel (loc i) ∈ ids.map fun i => sel (loc i) := List.mem_map.mpr ⟨i, hmem, rfl⟩
    rw [hmap, hi] at hnone
    simp at hnone
  refine ⟨ids ++ [i], ?_, ?_, ?_⟩
  · rw [← List.concat_eq_append]
    exact hnodup.concat hnot
  · intro j k' hj
    rcases eq_or_ne j i with rfl | hne
    · simp
    · rw [Function.update_of_ne hne] at hj
      exact List.mem_append_left _ (hall j k' hj)
  · rw [List.map_append, List.map_append, ← hmap]
    congr 1
    · apply List.map_congr_left
      intro j hj
      rw [Function.update_of_ne (ne_of_mem_of_not_mem hj hnot)]
    · simp [ht]

/-- Whoever leaves had a place in the list. -/
theorem remove (h : Roster sel loc l) {i : ι} {t : τ} {k : κ} (hi : sel (loc i) = some k)
    (ht : sel t = none) : ∃ before after, l = before ++ k :: after ∧
      Roster sel (Function.update loc i t) (before ++ after) := by
  obtain ⟨ids, hnodup, hall, hmap⟩ := h
  obtain ⟨ids₁, ids₂, rfl⟩ := List.append_of_mem (hall i k hi)
  rw [List.map_append, List.map_cons, hi] at hmap
  obtain ⟨before, rest, rfl, hbefore, hrest⟩ := List.map_eq_append_iff.mp hmap.symm
  obtain ⟨k', after, rfl, hk, hafter⟩ := List.map_eq_cons_iff.mp hrest
  obtain rfl := Option.some.inj hk
  have hnot := List.nodup_middle.mp hnodup
  rw [List.nodup_cons] at hnot
  refine ⟨before, after, rfl, ids₁ ++ ids₂, hnot.2, ?_, ?_⟩
  · intro j k' hj
    rcases eq_or_ne j i with rfl | hne
    · rw [Function.update_self, ht] at hj
      cases hj
    · rw [Function.update_of_ne hne] at hj
      have hmem := hall j k' hj
      simp only [List.mem_append, List.mem_cons, hne, false_or] at hmem
      exact List.mem_append.mpr hmem
  · rw [List.map_append, List.map_append, hbefore, hafter, ← List.map_append, ← List.map_append]
    apply List.map_congr_left
    intro j hj
    rw [Function.update_of_ne (ne_of_mem_of_not_mem hj hnot.1)]

end Roster
