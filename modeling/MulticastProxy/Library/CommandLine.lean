import Mathlib.Tactic

/-!
# Command lines

`words` is the word splitting that `system` gets from the shell for a text without quoting,
`getopt` the order in which `getopt_long` reports the options of the words.
-/

set_option autoImplicit false

namespace CommandLine

abbrev Word := List Char

/-- Words of a text, split at blanks; `cur` is the word begun. -/
def wordsFrom (cur : Word) : List Char → List Word
  | [] => if cur = [] then [] else [cur]
  | ch :: rest =>
    if ch = ' ' then if cur = [] then wordsFrom [] rest else cur :: wordsFrom [] rest
    else wordsFrom (cur ++ [ch]) rest

def words (text : List Char) : List Word := wordsFrom [] text

/-- What one call of `getopt_long` reports: an option and its argument, or `'?'`. -/
inductive Event where
  | opt (ch : Char) (optarg : Word)
  | bad
  deriving DecidableEq, Repr

structure LongOption where
  name : Word
  hasArg : Bool
  val : Char

/-- The options of a program: does a letter take an argument, and the long names. -/
structure Options where
  short : Char → Option Bool
  long : List LongOption

/-- The letters of one word; the argument of the last one may be the next word. -/
def cluster (o : Options) : List Char → List Word → List Event × List Word
  | [], ws => ([], ws)
  | ch :: cs, ws =>
    match o.short ch with
    | none => (.bad :: (cluster o cs ws).1, (cluster o cs ws).2)
    | some false => (.opt ch [] :: (cluster o cs ws).1, (cluster o cs ws).2)
    | some true =>
      if cs ≠ [] then ([.opt ch cs], ws)
      else
        match ws with
        | [] => ([.bad], [])
        | w :: ws => ([.opt ch w], ws)

/-- `--name` or `--name=value`; a name may be cut short as long as one option matches. -/
def longOpt (o : Options) (text : List Char) (ws : List Word) : List Event × List Word :=
  let name := text.takeWhile (· ≠ '=')
  let value := (text.dropWhile (· ≠ '=')).drop 1
  let given := decide (name.length < text.length)
  let found := match o.long.filter (fun l => l.name = name) with
    | l :: _ => some l
    | [] =>
      match o.long.filter (fun l : LongOption => name.isPrefixOf l.name) with
      | [l] => some l
      | _ => none
  match found with
  | none => ([.bad], ws)
  | some l =>
    if l.hasArg then
      if given then ([.opt l.val value], ws)
      else
        match ws with
        | [] => ([.bad], [])
        | w :: ws => ([.opt l.val w], ws)
    else if given then ([.bad], ws) else ([.opt l.val []], ws)

/-- `fuel` bounds the number of words read; words that are no options are passed over. -/
def getoptFrom (o : Options) : Nat → List Word → List Event
  | 0, _ => []
  | _, [] => []
  | fuel + 1, w :: ws =>
    match w with
    | ['-', '-'] => []
    | '-' :: '-' :: text =>
      (longOpt o text ws).1 ++ getoptFrom o fuel (longOpt o text ws).2
    | '-' :: ch :: cs =>
      (cluster o (ch :: cs) ws).1 ++ getoptFrom o fuel (cluster o (ch :: cs) ws).2
    | _ => getoptFrom o fuel ws

def getopt (o : Options) (ws : List Word) : List Event := getoptFrom o ws.length ws

/-- A loop over events goes on where a round succeeds. -/
theorem foldlM_ok_cons {ε α β : Type} {f : β → α → Except ε β} {b b' : β} {a : α}
    (h : f b a = .ok b') (as : List α) : (a :: as).foldlM f b = as.foldlM f b' := by
  rw [List.foldlM_cons, h]
  rfl

/-! ## Splitting -/

theorem wordsFrom_append {w : Word} (hw : ∀ ch ∈ w, ch ≠ ' ') (cur : Word) (rest : List Char) :
    wordsFrom cur (w ++ rest) = wordsFrom (cur ++ w) rest := by
  induction w generalizing cur with
  | nil => simp
  | cons ch cs ih =>
    rw [List.cons_append, wordsFrom, if_neg (hw ch (by simp)), ih (fun c hc => hw c (by simp [hc])),
      List.append_assoc, List.singleton_append]

theorem words_cons {w : Word} (hne : w ≠ []) (hw : ∀ ch ∈ w, ch ≠ ' ') (rest : List Char) :
    words (w ++ ' ' :: rest) = w :: words rest := by
  rw [words, wordsFrom_append hw, List.nil_append, wordsFrom, if_pos rfl, if_neg hne]
  rfl

theorem words_last {w : Word} (hne : w ≠ []) (hw : ∀ ch ∈ w, ch ≠ ' ') : words w = [w] := by
  have h := wordsFrom_append hw [] []
  rw [List.append_nil, List.nil_append] at h
  rw [words, h, wordsFrom, if_neg hne]

/-! ## Lists with a separator -/

theorem split_intercalate {c : Char} {w : Word} (hw : c ∉ w) (ws : List Word) :
    (List.intercalate [c] (w :: ws)).takeWhile (· ≠ c) = w ∧
      ((List.intercalate [c] (w :: ws)).dropWhile (· ≠ c)).drop 1 = List.intercalate [c] ws := by
  have hpos : ∀ ch ∈ w, decide (ch ≠ c) = true := by
    intro ch hch
    rw [decide_eq_true_eq]
    rintro rfl
    exact hw hch
  cases ws with
  | nil =>
    have htake : (w ++ []).takeWhile (· ≠ c) = w ++ [] := List.takeWhile_append_of_pos hpos
    have hdrop : (w ++ []).dropWhile (· ≠ c) = [] := List.dropWhile_append_of_pos hpos
    rw [List.append_nil] at htake hdrop
    rw [List.intercalate_singleton, htake, hdrop]
    simp
  | cons w' ws =>
    rw [List.intercalate_cons_cons, List.append_assoc, List.takeWhile_append_of_pos hpos,
      List.dropWhile_append_of_pos hpos]
    simp

theorem count_intercalate {c : Char} {ws : List Word} (hne : ws ≠ []) (hws : ∀ w ∈ ws, c ∉ w) :
    (List.intercalate [c] ws).count c + 1 = ws.length := by
  induction ws with
  | nil => exact absurd rfl hne
  | cons w ws ih =>
    have hzero : w.count c = 0 := List.count_eq_zero.mpr (hws w (by simp))
    cases ws with
    | nil => simp [hzero]
    | cons w' ws =>
      have hrest := ih (by simp) fun v hv => hws v (by simp [hv])
      rw [List.intercalate_cons_cons, List.count_append, List.count_append, hzero,
        List.count_singleton_self, List.length_cons, ← hrest]
      omega

theorem length_splitOn (c : Char) (text : List Char) :
    (text.splitOn c).length = text.count c + 1 := by
  induction text with
  | nil => rfl
  | cons ch text ih =>
    rw [List.splitOn_cons_eq_if_modifyHead, List.count_cons]
    split
    · rw [List.length_cons, ih]
    · rw [List.length_modifyHead, ih]

theorem mem_intercalate {c ch : Char} {ws : List Word} (h : ch ∈ List.intercalate [c] ws) :
    ch = c ∨ ∃ w ∈ ws, ch ∈ w := by
  induction ws with
  | nil => simp at h
  | cons w ws ih =>
    cases ws with
    | nil =>
      rw [List.intercalate_singleton] at h
      exact Or.inr ⟨w, List.mem_singleton_self w, h⟩
    | cons w' ws =>
      rw [List.intercalate_cons_cons, List.mem_append, List.mem_append, List.mem_singleton] at h
      rcases h with (h | h) | h
      · exact Or.inr ⟨w, List.mem_cons_self .., h⟩
      · exact Or.inl h
      · rcases ih h with h | ⟨v, hv, h⟩
        · exact Or.inl h
        · exact Or.inr ⟨v, List.mem_cons_of_mem w hv, h⟩

end CommandLine
