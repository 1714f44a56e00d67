import Mathlib.Data.List.Sort
import Mathlib.Tactic

/-!
# Words in a stream that is cut into pieces

A sequence of words is sent as one stream, and the stream arrives in pieces that are cut anywhere.
A reader that compares each piece with the words as a whole finds the words that make up a piece of
their own, and no others, where no word can be seen across the ends of the words that were sent.
-/

set_option autoImplicit false

namespace Segments

variable {α β γ : Type*}

/-! ## Positions -/

/-- Each item with the position where it starts. -/
def placed (len : β → Nat) : Nat → List β → List (Nat × β)
  | _, [] => []
  | start, b :: bs => (start, b) :: placed len (start + len b) bs

section
variable {len : β → Nat} {start : Nat} {bs : List β}

theorem map_snd_placed (len : β → Nat) (start : Nat) (bs : List β) :
    (placed len start bs).map Prod.snd = bs := by
  induction bs generalizing start with
  | nil => rfl
  | cons b bs ih => rw [placed, List.map_cons, ih]

/-- Reading items off does not need the positions. -/
theorem filterMap_placed (len : β → Nat) (f : β → Option γ) (start : Nat) (bs : List β) :
    ((placed len start bs).filterMap fun p => (f p.2).map fun c => (p.1, c)).map Prod.snd =
      bs.filterMap f := by
  conv_rhs => rw [← map_snd_placed len start bs, List.filterMap_map]
  rw [List.map_filterMap]
  congr 1
  funext p
  rw [Option.map_map, Function.comp_apply]
  cases f p.2 with
  | none => rfl
  | some c => rfl

theorem mem_placed_iff {pos : Nat} {b : β} : (pos, b) ∈ placed len start bs ↔
    ∃ before behind, bs = before ++ b :: behind ∧ pos = start + (before.map len).sum := by
  induction bs generalizing start with
  | nil => simp [placed]
  | cons b' bs ih =>
    rw [placed, List.mem_cons, ih]
    constructor
    · intro hcases
      rcases hcases with heq | ⟨before, behind, rfl, rfl⟩
      · obtain ⟨rfl, rfl⟩ := Prod.mk.inj heq
        exact ⟨[], bs, rfl, rfl⟩
      · refine ⟨b' :: before, behind, rfl, ?_⟩
        rw [List.map_cons, List.sum_cons, Nat.add_assoc]
    · intro ⟨before, behind, heq, hpos⟩
      cases before with
      | nil =>
        obtain ⟨rfl, rfl⟩ := List.cons.inj heq
        exact Or.inl (congrArg (·, b') hpos)
      | cons first before =>
        obtain ⟨rfl, rfl⟩ := List.cons.inj heq
        refine Or.inr ⟨before, behind, rfl, ?_⟩
        rw [hpos, List.map_cons, List.sum_cons, Nat.add_assoc]

theorem start_le_of_mem {p : Nat × β} (h : p ∈ placed len start bs) : start ≤ p.1 := by
  obtain ⟨_, _, _, hpos⟩ := mem_placed_iff.mp h
  rw [hpos]
  exact Nat.le_add_right _ _

theorem pairwise_placed (start : Nat) (hpos : ∀ b ∈ bs, 0 < len b) :
    (placed len start bs).Pairwise fun p q => p.1 < q.1 := by
  induction bs generalizing start with
  | nil => exact List.Pairwise.nil
  | cons b bs ih =>
    apply List.Pairwise.cons
    · intro q hq
      have hlen := hpos b List.mem_cons_self
      have hle := start_le_of_mem hq
      exact Nat.lt_of_lt_of_le (Nat.lt_add_of_pos_right hlen) hle
    · exact ih _ fun b' hb' => hpos b' (List.mem_cons_of_mem _ hb')

/-- Lists in the order of their positions are the same where they have the same members. -/
theorem eq_of_placed {l l' : List (Nat × β)} (h : l.Pairwise fun p q => p.1 < q.1)
    (h' : l'.Pairwise fun p q => p.1 < q.1) (hmem : ∀ p, p ∈ l ↔ p ∈ l') : l = l' := by
  have hperm : l.Perm l' := by
    apply (List.perm_ext_iff_of_nodup ?_ ?_).mpr hmem
    · exact h.imp fun hlt heq => absurd (congrArg Prod.fst heq) (Nat.ne_of_lt hlt)
    · exact h'.imp fun hlt heq => absurd (congrArg Prod.fst heq) (Nat.ne_of_lt hlt)
  exact hperm.eq_of_pairwise (fun p q _ _ hlt hgt => absurd hlt (Nat.lt_asymm hgt)) h h'

end

/-! ## Words -/

/-- No word starts another one, and none is seen from inside a word on. -/
structure CommaFree (words : γ → List α) : Prop where
  ne_nil : ∀ c, words c ≠ []
  first : ∀ c d, words d <+: words c → d = c
  inner : ∀ c d rest k, 0 < k → k < (words c).length → ¬ words d <+: (words c).drop k ++ rest

/-- Where a word is seen in the stream it was sent. -/
theorem CommaFree.sent {words : γ → List α} (h : CommaFree words) {cs : List γ} {d : γ}
    {before behind : List α} (hseen : cs.flatMap words = before ++ (words d ++ behind)) :
    ∃ cs₁ cs₂, cs = cs₁ ++ d :: cs₂ ∧ cs₁.flatMap words = before := by
  induction cs generalizing before with
  | nil =>
    rw [List.flatMap_nil, eq_comm, List.append_eq_nil_iff, List.append_eq_nil_iff] at hseen
    exact absurd hseen.2.1 (h.ne_nil d)
  | cons c cs ih =>
    rw [List.flatMap_cons] at hseen
    by_cases hnil : before = []
    · rw [hnil, List.nil_append] at hseen
      have hword : words d <+: words c ++ cs.flatMap words := ⟨behind, hseen.symm⟩
      have hsame : d = c := by
        rcases List.prefix_or_prefix_of_prefix hword (List.prefix_append _ _) with hdc | hcd
        · exact h.first c d hdc
        · exact (h.first d c hcd).symm
      exact ⟨[], cs, by rw [hsame]; rfl, hnil.symm⟩
    · have hpos : 0 < before.length := List.length_pos_iff.mpr hnil
      by_cases hin : before.length < (words c).length
      · have hdrop := congrArg (List.drop before.length) hseen
        rw [List.drop_append_of_le_length (Nat.le_of_lt hin), List.drop_left] at hdrop
        exact absurd ⟨behind, hdrop.symm⟩ (h.inner c d _ _ hpos hin)
      · have hword : words c <+: before := by
          have hseen' : words c <+: before ++ (words d ++ behind) := ⟨_, hseen⟩
          exact List.prefix_of_prefix_length_le hseen' (List.prefix_append _ _) (Nat.not_lt.mp hin)
        obtain ⟨rest, rfl⟩ := hword
        rw [List.append_assoc] at hseen
        obtain ⟨cs₁, cs₂, rfl, hrest⟩ := ih (List.append_cancel_left hseen)
        exact ⟨c :: cs₁, cs₂, rfl, by rw [List.flatMap_cons, hrest]⟩

/-- The words that make up a piece of their own: a piece starts where the word does and is as long. -/
def alone (words : γ → List α) (cs : List γ) (pieces : List (List α)) : List γ :=
  ((placed (fun c => (words c).length) 0 cs).filter fun p =>
    (p.1, (words p.2).length) ∈
      (placed List.length 0 pieces).map fun q => (q.1, q.2.length)).map Prod.snd

section
variable {words : γ → List α} {decode : List α → Option γ} {cs : List γ} {pieces : List (List α)}

theorem sum_map_length_words (cs : List γ) :
    (cs.map fun c => (words c).length).sum = (cs.flatMap words).length := by
  rw [List.length_flatMap]

variable (hdecode : ∀ piece c, decode piece = some c ↔ piece = words c)
variable (hflat : pieces.flatten = cs.flatMap words)

include hdecode hflat

/-- A piece that is a word is a word that was sent, and arrived alone; and the other way round. -/
theorem CommaFree.mem_iff (h : CommaFree words) (pos : Nat) (c : γ) :
    (∃ piece, (pos, piece) ∈ placed List.length 0 pieces ∧ decode piece = some c) ↔
      (pos, c) ∈ placed (fun c => (words c).length) 0 cs ∧
        ∃ piece, (pos, piece) ∈ placed List.length 0 pieces ∧ piece.length = (words c).length := by
  constructor
  · intro ⟨piece, hpiece, hc⟩
    obtain rfl := (hdecode piece c).mp hc
    refine ⟨?_, _, hpiece, rfl⟩
    obtain ⟨before, behind, rfl, hpos⟩ := mem_placed_iff.mp hpiece
    have hseen : cs.flatMap words = before.flatten ++ (words c ++ behind.flatten) := by
      rw [← hflat, List.flatten_append, List.flatten_cons]
    obtain ⟨cs₁, cs₂, hcs, hbefore⟩ := h.sent hseen
    refine mem_placed_iff.mpr ⟨cs₁, cs₂, hcs, ?_⟩
    rw [hpos, ← List.length_flatten, ← hbefore, ← sum_map_length_words]
  · intro ⟨hc, piece, hpiece, hlen⟩
    refine ⟨piece, hpiece, (hdecode piece c).mpr ?_⟩
    obtain ⟨cs₁, cs₂, rfl, hpos⟩ := mem_placed_iff.mp hc
    obtain ⟨before, behind, rfl, hpos'⟩ := mem_placed_iff.mp hpiece
    have hstart : before.flatten.length = (cs₁.flatMap words).length := by
      rw [List.length_flatten, ← sum_map_length_words]
      omega
    rw [List.flatten_append, List.flatten_cons, List.flatMap_append, List.flatMap_cons] at hflat
    obtain ⟨_, hrest⟩ := List.append_inj hflat hstart
    exact (List.append_inj hrest hlen).1

/-- What a reader of whole pieces finds. -/
theorem CommaFree.filterMap_eq_alone (h : CommaFree words) (hne : ∀ piece ∈ pieces, piece ≠ []) :
    pieces.filterMap decode = alone words cs pieces := by
  rw [← filterMap_placed List.length decode 0 pieces, alone]
  congr 1
  apply eq_of_placed
  · have hsorted : (placed List.length 0 pieces).Pairwise fun p q => p.1 < q.1 :=
      pairwise_placed 0 fun piece hpiece => List.length_pos_iff.mpr (hne piece hpiece)
    apply hsorted.filterMap
    intro p q hlt a ha b hb
    obtain ⟨_, _, rfl⟩ := Option.map_eq_some_iff.mp ha
    obtain ⟨_, _, rfl⟩ := Option.map_eq_some_iff.mp hb
    exact hlt
  · apply List.Pairwise.filter
    exact pairwise_placed 0 fun c _ => List.length_pos_iff.mpr (h.ne_nil c)
  · intro ⟨pos, c⟩
    have hiff := h.mem_iff hdecode hflat pos c
    rw [List.mem_filter, decide_eq_true_eq, List.mem_map, List.mem_filterMap]
    constructor
    · intro ⟨⟨start, piece⟩, hpiece, hmap⟩
      obtain ⟨_, hc, heq⟩ := Option.map_eq_some_iff.mp hmap
      obtain ⟨rfl, rfl⟩ := Prod.mk.inj heq
      obtain ⟨hsent, piece', hpiece', hlen⟩ := hiff.mp ⟨piece, hpiece, hc⟩
      exact ⟨hsent, _, hpiece', congrArg (Prod.mk start) hlen⟩
    · intro ⟨hsent, ⟨start, piece⟩, hpiece, heq⟩
      obtain ⟨rfl, hlen⟩ := Prod.mk.inj heq
      obtain ⟨piece', hpiece', hc⟩ := hiff.mpr ⟨hsent, piece, hpiece, hlen⟩
      exact ⟨_, hpiece', Option.map_eq_some_iff.mpr ⟨c, hc, rfl⟩⟩

end

end Segments
