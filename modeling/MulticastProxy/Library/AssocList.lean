import Mathlib.Tactic
import Mathlib.Data.List.Nodup

/-!
# Association lists with distinct keys

A list of pairs as a map, under the three updates at an index that a search by key gives. For
records that hold their key, an update at this index is an update of the records with the key.
-/

set_option autoImplicit false

namespace AssocList

variable {κ β : Type*} [DecidableEq κ]

/-- The value of the first pair with this key. -/
def get (l : List (κ × β)) (k : κ) : Option β := (l.find? fun p => p.1 = k).map Prod.snd

def index (l : List (κ × β)) (k : κ) : Option Nat := l.findIdx? fun p => p.1 = k

@[simp] theorem get_nil (k : κ) : get ([] : List (κ × β)) k = none := rfl

theorem get_cons (p : κ × β) (l : List (κ × β)) (k : κ) :
    get (p :: l) k = if p.1 = k then some p.2 else get l k := by
  unfold get
  rw [List.find?_cons]
  by_cases h : p.1 = k
  · simp [h]
  · simp [h]

theorem get_eq_none_iff {l : List (κ × β)} {k : κ} : get l k = none ↔ k ∉ l.map Prod.fst := by
  induction l with
  | nil => simp
  | cons p l ih =>
    rw [get_cons, List.map_cons, List.mem_cons, not_or, ← ih]
    by_cases h : p.1 = k
    · simp [h]
    · simp [h, Ne.symm h]

theorem index_eq_none_iff {l : List (κ × β)} {k : κ} : index l k = none ↔ get l k = none := by
  rw [get_eq_none_iff, index, List.findIdx?_eq_none_iff, List.mem_map, not_exists]
  apply forall_congr'
  intro p
  rw [decide_eq_false_iff_not, not_and]

theorem index_eq_some {l : List (κ × β)} {k : κ} {i : Nat} (h : index l k = some i) :
    ∃ before v after, l = before ++ (k, v) :: after ∧ before.length = i ∧
      k ∉ before.map Prod.fst ∧ get l k = some v := by
  induction l generalizing i with
  | nil => simp [index] at h
  | cons p l ih =>
    rw [index, List.findIdx?_cons] at h
    by_cases hp : p.1 = k
    · simp only [hp, decide_true, if_true, Option.some.injEq] at h
      subst h
      refine ⟨[], p.2, l, ?_, rfl, by simp, by rw [get_cons, if_pos hp]⟩
      rw [← hp, List.nil_append]
    · simp only [hp, decide_false, Bool.false_eq_true, if_false, Option.map_eq_some_iff] at h
      obtain ⟨j, hj, rfl⟩ := h
      obtain ⟨before, v, after, rfl, hlen, hnot, hget⟩ := ih hj
      refine ⟨p :: before, v, after, rfl, by rw [List.length_cons, hlen], ?_, ?_⟩
      · simp only [List.map_cons, List.mem_cons, not_or]
        exact ⟨Ne.symm hp, hnot⟩
      · rw [get_cons, if_neg hp, hget]

theorem get_append {l l' : List (κ × β)} (k : κ) :
    get (l ++ l') k = (get l k).or (get l' k) := by
  simp [get, List.find?_append]
  cases l.find? fun p => decide (p.1 = k) <;> rfl

theorem mem_iff_get {l : List (κ × β)} (hnd : (l.map Prod.fst).Nodup) {k : κ} {v : β} :
    (k, v) ∈ l ↔ get l k = some v := by
  induction l with
  | nil => simp
  | cons p l ih =>
    rw [List.map_cons, List.nodup_cons] at hnd
    rw [List.mem_cons, get_cons, ih hnd.2]
    by_cases hp : p.1 = k
    · have hnone : get l k = none := get_eq_none_iff.mpr (hp ▸ hnd.1)
      rw [if_pos hp, hnone]
      simp [Prod.ext_iff, ← hp, eq_comm]
    · rw [if_neg hp]
      simp [Prod.ext_iff, Ne.symm hp]

section Update
variable {l : List (κ × β)} {k : κ}

theorem get_concat (hnew : get l k = none) (v : β) :
    get (l ++ [(k, v)]) = Function.update (get l) k (some v) := by
  funext k'
  rw [get_append, get_cons, get_nil, Function.update_apply]
  by_cases h : k' = k
  · subst h
    simp [hnew]
  · simp [h, Ne.symm h]

theorem nodup_concat (hnd : (l.map Prod.fst).Nodup) (hnew : get l k = none) (v : β) :
    ((l ++ [(k, v)]).map Prod.fst).Nodup := by
  rw [List.map_append, List.map_singleton, ← List.concat_eq_append]
  exact hnd.concat (get_eq_none_iff.mp hnew)

theorem modify_eq {i : Nat} (f : β → β) (h : index l k = some i) :
    ∃ before v after, l = before ++ (k, v) :: after ∧ k ∉ before.map Prod.fst ∧
      get l k = some v ∧
      l.modify i (fun p => (p.1, f p.2)) = before ++ (k, f v) :: after := by
  obtain ⟨before, v, after, rfl, rfl, hnot, hget⟩ := index_eq_some h
  refine ⟨before, v, after, rfl, hnot, hget, ?_⟩
  rw [List.modify_eq_take_cons_drop (by simp)]
  simp

theorem keys_modify {i : Nat} (f : β → β) (h : index l k = some i) :
    (l.modify i fun p => (p.1, f p.2)).map Prod.fst = l.map Prod.fst := by
  obtain ⟨before, v, after, rfl, _, _, he⟩ := modify_eq f h
  rw [he]
  simp

theorem get_modify {i : Nat} (f : β → β) (h : index l k = some i) :
    get (l.modify i fun p => (p.1, f p.2)) = Function.update (get l) k ((get l k).map f) := by
  obtain ⟨before, v, after, rfl, hnot, hget, he⟩ := modify_eq f h
  rw [he, hget]
  funext k'
  rw [Function.update_apply, get_append, get_append, get_cons, get_cons]
  by_cases hk : k' = k
  · subst hk
    simp [get_eq_none_iff.mpr hnot]
  · simp [hk, Ne.symm hk]

omit [DecidableEq κ] in
theorem nodup_eraseIdx (hnd : (l.map Prod.fst).Nodup) (i : Nat) :
    ((l.eraseIdx i).map Prod.fst).Nodup := by
  rw [← List.eraseIdx_map]
  exact hnd.sublist (List.eraseIdx_sublist _ _)

end Update

/-- Records changed where a search by their key ends: the search finds the changed record. -/
theorem find?_modify {α : Type*} {l : List α} {p : α → Bool} {f : α → α} {i : Nat}
    (hf : ∀ x, p (f x) = p x) (h : l.findIdx? p = some i) :
    (l.modify i f).find? p = (l.find? p).map f := by
  induction l generalizing i with
  | nil => simp at h
  | cons x l ih =>
    rw [List.findIdx?_cons] at h
    by_cases hx : p x = true
    · rw [if_pos hx, Option.some.injEq] at h
      subst h
      rw [List.modify_zero_cons, List.find?_cons_of_pos (by rw [hf, hx]),
        List.find?_cons_of_pos hx, Option.map_some]
    · rw [if_neg hx, Option.map_eq_some_iff] at h
      obtain ⟨j, hj, rfl⟩ := h
      rw [List.modify_succ_cons, List.find?_cons_of_neg hx, List.find?_cons_of_neg hx, ih hj]

/-! ## Lists that may hold a key twice -/

/-- The value of the second pair with this key. -/
def getNext : List (κ × β) → κ → Option β
  | [], _ => none
  | p :: l, k => if p.1 = k then get l k else getNext l k

theorem getNext_eq_none {l : List (κ × β)} (hnd : (l.map Prod.fst).Nodup) (k : κ) :
    getNext l k = none := by
  induction l with
  | nil => rfl
  | cons p l ih =>
    rw [List.map_cons, List.nodup_cons] at hnd
    rw [getNext]
    split
    · rename_i hp
      exact get_eq_none_iff.mpr (hp ▸ hnd.1)
    · exact ih hnd.2

theorem index_cons (p : κ × β) (l : List (κ × β)) (k : κ) :
    index (p :: l) k = if p.1 = k then some 0 else (index l k).map (· + 1) := by
  unfold index
  rw [List.findIdx?_cons]
  by_cases h : p.1 = k
  · simp [h]
  · simp [h]

/-- The search looks at the keys alone. -/
theorem index_congr {l l' : List (κ × β)} (h : l.map Prod.fst = l'.map Prod.fst) (k : κ) :
    index l k = index l' k := by
  have hmap : ∀ l : List (κ × β), index l k = (l.map Prod.fst).findIdx? fun k' => k' = k := by
    intro l
    rw [List.findIdx?_map]
    rfl
  rw [hmap, hmap, h]

theorem index_concat {l : List (κ × β)} {k : κ} (hnew : get l k = none) (v : β) :
    index (l ++ [(k, v)]) k = some l.length := by
  have hnone := index_eq_none_iff.mpr hnew
  unfold index at hnone ⊢
  rw [List.findIdx?_append, hnone, Option.none_or]
  simp

/-- The first pair with the key is taken out, and the next one comes into its place. -/
theorem get_eraseIdx_index {l : List (κ × β)} {k : κ} {i : Nat} (h : index l k = some i) :
    get (l.eraseIdx i) = Function.update (get l) k (getNext l k) := by
  induction l generalizing i with
  | nil => cases h
  | cons p l ih =>
    rw [index_cons] at h
    funext k'
    by_cases hp : p.1 = k
    · rw [if_pos hp] at h
      obtain rfl := Option.some.inj h
      rw [List.eraseIdx_zero, List.tail_cons, Function.update_apply, getNext, if_pos hp, get_cons]
      by_cases hk : k' = k
      · rw [if_pos hk, hk]
      · rw [if_neg hk, if_neg fun he => hk (he.symm.trans hp)]
    · rw [if_neg hp] at h
      obtain ⟨j, hj, rfl⟩ := Option.map_eq_some_iff.mp h
      rw [List.eraseIdx_cons_succ, get_cons, ih hj, Function.update_apply, Function.update_apply,
        getNext, if_neg hp, get_cons]
      by_cases hk : k' = k
      · rw [if_pos hk, if_pos hk, if_neg fun he => hp (he.trans hk)]
      · rw [if_neg hk, if_neg hk]

theorem get_eraseIdx {l : List (κ × β)} {k : κ} (hnd : (l.map Prod.fst).Nodup) {i : Nat}
    (h : index l k = some i) : get (l.eraseIdx i) = Function.update (get l) k none := by
  rw [get_eraseIdx_index h, getNext_eq_none hnd]

section Records
variable {α : Type*} {key : α → κ} {k : κ}

theorem modify_eq_map {l : List α} (hnd : (l.map key).Nodup) {i : Nat} (f : α → α)
    (h : l.findIdx? (fun a => key a = k) = some i) :
    l.modify i f = l.map fun a => if key a = k then f a else a := by
  induction l generalizing i with
  | nil => simp at h
  | cons a l ih =>
    rw [List.map_cons, List.nodup_cons] at hnd
    rw [List.findIdx?_cons] at h
    rw [List.map_cons]
    by_cases ha : key a = k
    · simp only [ha, decide_true, if_true, Option.some.injEq] at h
      subst h
      have hrest : (l.map fun b => if key b = k then f b else b) = l := by
        calc
          _ = l.map fun b => b := by
            refine List.map_congr_left fun b hb => if_neg fun hbk => hnd.1 ?_
            rw [ha, ← hbk]
            exact List.mem_map_of_mem hb
          _ = l := List.map_id' l
      rw [if_pos ha, List.modify_zero_cons, hrest]
    · simp only [ha, decide_false, Bool.false_eq_true, if_false, Option.map_eq_some_iff] at h
      obtain ⟨j, hj, rfl⟩ := h
      rw [if_neg ha, List.modify_succ_cons, ih hnd.2 hj]

end Records

omit [DecidableEq κ] in
/-- What is taken out need not be changed before. -/
theorem eraseIdx_modify {α : Type*} (l : List α) (i : Nat) (f : α → α) :
    (l.modify i f).eraseIdx i = l.eraseIdx i := by
  induction l generalizing i with
  | nil => simp
  | cons a l ih =>
    cases i with
    | zero => rfl
    | succ i => rw [List.modify_succ_cons, List.eraseIdx_cons_succ, ih, List.eraseIdx_cons_succ]

end AssocList
