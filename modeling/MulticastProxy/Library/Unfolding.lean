import Mathlib.Algebra.BigOperators.Group.List.Basic
import Mathlib.Data.List.Nodup
import Mathlib.Data.Set.Card
import Mathlib.Logic.Relation

/-!
# Unfoldings of ordered graphs

Each vertex has a list of children. A position is a list of indices, one for each step down, and a
traversal goes through the positions whose steps it keeps. Below a vertex that reaches no cycle it
is no deeper than there are inner vertices.
-/

set_option autoImplicit false

namespace Unfolding

open Relation

variable {α : Type*} (children : α → List α)

/-- The vertices on the way, without the first one. -/
def route : α → List Nat → List α
  | _, [] => []
  | a, i :: pos =>
    match (children a)[i]? with
    | none => []
    | some b => b :: route b pos

def target : α → List Nat → α
  | a, [] => a
  | a, i :: pos =>
    match (children a)[i]? with
    | none => a
    | some b => target b pos

/-- The position is one of the graph, and each step to it is kept. -/
def Reached (keep : List Nat → Bool) : α → List Nat → Prop
  | _, [] => True
  | a, i :: pos =>
    ∃ b, (children a)[i]? = some b ∧ keep [i] = true ∧ Reached (fun p => keep (i :: p)) b pos

section
variable (visit : (List Nat → Bool) → α → List (List Nat))

/-- The positions below the children from the `i`th on. -/
def forest (keep : List Nat → Bool) : Nat → List α → List (List Nat)
  | _, [] => []
  | i, b :: bs =>
    (if keep [i] then (visit (fun p => keep (i :: p)) b).map (i :: ·) else []) ++
      forest keep (i + 1) bs

end

/-- The kept positions, each behind those below it. -/
def postorder : Nat → (List Nat → Bool) → α → List (List Nat)
  | 0, _, _ => []
  | fuel + 1, keep, a => forest (postorder fuel) keep 0 (children a) ++ [[]]

/-- An edge of the graph. -/
def Edge (a b : α) : Prop := b ∈ children a

def AcyclicFrom (a : α) : Prop :=
  ∀ b, ReflTransGen (Edge children) a b → ¬ TransGen (Edge children) b b

/-- The vertices with children that are reached. -/
def inner (a : α) : Set α := {b | ReflTransGen (Edge children) a b ∧ children b ≠ []}

section
variable {β M : Type*} [AddCommMonoid M] (weight : (List Nat → β) → α → M)

/-- The weights of positions, each by the vertex it leads to and what is answered below it. -/
def total (env : List Nat → β) (a : α) (poss : List (List Nat)) : M :=
  (poss.map fun pos => weight (fun p => env (pos ++ p)) (target children a pos)).sum

variable {children weight}

theorem total_append (env : List Nat → β) (a : α) (poss poss' : List (List Nat)) :
    total children weight env a (poss ++ poss') =
      total children weight env a poss + total children weight env a poss' := by
  rw [total, List.map_append, List.sum_append, total, total]

theorem total_nil (env : List Nat → β) (a : α) : total children weight env a [] = 0 := rfl

theorem total_root (env : List Nat → β) (a : α) :
    total children weight env a [[]] = weight env a := by
  rw [total, List.map_singleton, List.sum_singleton]
  rfl

theorem total_below (env : List Nat → β) {a b : α} {i : Nat} (hb : (children a)[i]? = some b)
    (poss : List (List Nat)) : total children weight env a (poss.map (i :: ·)) =
      total children weight (fun p => env (i :: p)) b poss := by
  rw [total, total, List.map_map]
  congr 1
  apply List.map_congr_left
  intro pos _
  rw [Function.comp_apply, target, hb]
  rfl

end

variable {children}

/-! ## Depth -/

theorem AcyclicFrom.child {a b : α} (h : AcyclicFrom children a) (hb : b ∈ children a) :
    AcyclicFrom children b := by
  intro c hc
  exact h c (ReflTransGen.head hb hc)

theorem acyclicFrom_of_rank (rank : α → Nat) (h : ∀ a b, b ∈ children a → rank b < rank a)
    (a : α) : AcyclicFrom children a := by
  intro b _ hcycle
  have hlt : ∀ c d, TransGen (Edge children) c d → rank d < rank c := by
    intro c d hpath
    induction hpath with
    | single hstep => exact h _ _ hstep
    | tail _ hstep ih => exact Nat.lt_trans (h _ _ hstep) ih
  exact Nat.lt_irrefl _ (hlt b b hcycle)

/-- Below a child there is one inner vertex less. -/
theorem ncard_inner_lt {a b : α} (h : AcyclicFrom children a) (hb : b ∈ children a)
    (hfinite : {c | children c ≠ []}.Finite) :
    (inner children b).ncard < (inner children a).ncard := by
  have ha : children a ≠ [] := List.ne_nil_of_mem hb
  apply Set.ncard_lt_ncard
  · refine ⟨?_, ?_⟩
    · intro c hc
      exact ⟨ReflTransGen.head hb hc.1, hc.2⟩
    · intro hsub
      have hback := hsub ⟨ReflTransGen.refl, ha⟩
      exact h a ReflTransGen.refl (TransGen.head' hb hback.1)
  · exact hfinite.subset fun c hc => hc.2

theorem ncard_inner_le (a : α) (hfinite : {c | children c ≠ []}.Finite) :
    (inner children a).ncard ≤ {c | children c ≠ []}.ncard :=
  Set.ncard_le_ncard (fun _ hc => hc.2) hfinite

/-! ## The traversal -/

section
variable {visit : (List Nat → Bool) → α → List (List Nat)} {keep : List Nat → Bool}

theorem mem_forest {bs : List α} {i : Nat} {pos : List Nat} : pos ∈ forest visit keep i bs ↔
    ∃ j b rest, pos = (i + j) :: rest ∧ bs[j]? = some b ∧ keep [i + j] = true ∧
      rest ∈ visit (fun p => keep ((i + j) :: p)) b := by
  induction bs generalizing i with
  | nil => simp [forest]
  | cons b bs ih =>
    rw [forest, List.mem_append, ih]
    constructor
    · intro hmem
      rcases hmem with hhere | ⟨j, c, rest, hpos, hc, hkeep, hrest⟩
      · split at hhere
        · rename_i hkeep
          obtain ⟨rest, hrest, rfl⟩ := List.mem_map.mp hhere
          exact ⟨0, b, rest, rfl, rfl, hkeep, hrest⟩
        · cases hhere
      · rw [Nat.add_assoc, Nat.add_comm 1 j] at hpos hkeep hrest
        exact ⟨j + 1, c, rest, hpos, hc, hkeep, hrest⟩
    · intro ⟨j, c, rest, hpos, hc, hkeep, hrest⟩
      cases j with
      | zero =>
        obtain rfl := Option.some.inj hc
        rw [Nat.add_zero] at hpos hkeep hrest
        left
        rw [if_pos hkeep, hpos]
        exact List.mem_map_of_mem hrest
      | succ j =>
        right
        rw [Nat.add_comm j 1, ← Nat.add_assoc] at hpos hkeep hrest
        exact ⟨j, c, rest, hpos, hc, hkeep, hrest⟩

theorem nodup_forest (hvisit : ∀ keep b, (visit keep b).Nodup) (i : Nat) (bs : List α) :
    (forest visit keep i bs).Nodup := by
  induction bs generalizing i with
  | nil => exact List.nodup_nil
  | cons b bs ih =>
    rw [forest]
    apply List.Nodup.append
    · split
      · exact (hvisit _ b).map fun _ _ h => (List.cons.inj h).2
      · exact List.nodup_nil
    · exact ih (i + 1)
    · intro pos hhere hlater
      obtain ⟨j, _, _, rfl, _⟩ := mem_forest.mp hlater
      split at hhere
      · obtain ⟨_, _, heq⟩ := List.mem_map.mp hhere
        have hhead := (List.cons.inj heq).1
        omega
      · cases hhere

end

theorem nodup_postorder (fuel : Nat) (keep : List Nat → Bool) (a : α) :
    (postorder children fuel keep a).Nodup := by
  induction fuel generalizing keep a with
  | zero => exact List.nodup_nil
  | succ fuel ih =>
    rw [postorder]
    apply List.Nodup.append (nodup_forest ih 0 (children a)) (List.nodup_singleton [])
    intro pos hbelow hroot
    obtain ⟨_, _, _, rfl, _⟩ := mem_forest.mp hbelow
    cases List.mem_singleton.mp hroot

/-- With fuel for the inner vertices the traversal goes through all positions that are reached. -/
theorem mem_postorder (hfinite : {c | children c ≠ []}.Finite) {fuel : Nat}
    {keep : List Nat → Bool} {a : α} (h : AcyclicFrom children a)
    (hfuel : (inner children a).ncard < fuel) {pos : List Nat} :
    pos ∈ postorder children fuel keep a ↔ Reached children keep a pos := by
  induction fuel generalizing keep a pos with
  | zero => omega
  | succ fuel ih =>
    have hchild : ∀ b ∈ children a, ∀ keep rest,
        rest ∈ postorder children fuel keep b ↔ Reached children keep b rest := by
      intro b hb keep rest
      have hlt := ncard_inner_lt h hb hfinite
      exact ih (h.child hb) (by omega)
    rw [postorder, List.mem_append, mem_forest, List.mem_singleton]
    cases pos with
    | nil => exact iff_of_true (Or.inr rfl) trivial
    | cons i rest =>
      rw [Reached]
      constructor
      · intro hmem
        rcases hmem with ⟨j, b, rest', hpos, hb, hkeep, hrest⟩ | hnil
        · rw [Nat.zero_add] at hpos hkeep hrest
          obtain ⟨rfl, rfl⟩ := List.cons.inj hpos
          exact ⟨b, hb, hkeep, (hchild b (List.mem_of_getElem? hb) _ _).mp hrest⟩
        · cases hnil
      · intro ⟨b, hb, hkeep, hrest⟩
        refine Or.inl ⟨i, b, rest, by rw [Nat.zero_add], hb, by rwa [Nat.zero_add], ?_⟩
        rw [Nat.zero_add]
        exact (hchild b (List.mem_of_getElem? hb) _ _).mpr hrest

end Unfolding
