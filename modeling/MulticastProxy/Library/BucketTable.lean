import Mathlib.Tactic
import Mathlib.Data.Finset.Prod
import Mathlib.Combinatorics.Pigeonhole
import MulticastProxy.Library.Search

/-!
# Hash tables with bounded buckets

A table is an array of buckets of cells. A cell is live or free and a live one
has a key; `hash` names the bucket of a key. Lookup stops at the first free cell,
deletion moves the last live cell of the bucket into the hole. Both are sound
because the live cells of a bucket are a prefix of it.
-/

set_option autoImplicit false

/-- Numbers below `2 ^ 32` are different words, so that they number keys. -/
theorem UInt32.ofNat_injOn {n : Nat} (hn : n ≤ 2 ^ 32) :
    Set.InjOn UInt32.ofNat (Finset.range n) := by
  intro i hi j hj he
  have hi := Finset.mem_range.mp (Finset.mem_coe.mp hi)
  have hj := Finset.mem_range.mp (Finset.mem_coe.mp hj)
  have hnat := congrArg UInt32.toNat he
  rwa [UInt32.toNat_ofNat_of_lt' (hi.trans_le hn), UInt32.toNat_ofNat_of_lt' (hj.trans_le hn)]
    at hnat

structure BucketLayout (α κ : Type*) where
  live : α → Bool
  key : α → κ
  hash : κ → Nat
  depth : Nat

namespace BucketLayout

variable {α κ : Type*}

def put (t : Nat → Nat → α) (b i : Nat) (c : α) : Nat → Nat → α :=
  Function.update t b (Function.update (t b) i c)

theorem put_apply (t : Nat → Nat → α) (b i : Nat) (c : α) (b' i' : Nat) :
    put t b i c b' i' = if b' = b ∧ i' = i then c else t b' i' := by
  unfold put
  by_cases hb : b' = b
  · subst hb
    by_cases hi : i' = i
    · simp [hi]
    · simp [hi]
  · simp [hb]

@[simp] theorem put_same (t : Nat → Nat → α) (b i : Nat) (c : α) : put t b i c b i = c := by
  simp [put_apply]

@[simp] theorem put_self (t : Nat → Nat → α) (b i : Nat) : put t b i (t b i) = t := by
  simp [put]

theorem put_row_ne (t : Nat → Nat → α) (b : Nat) {i i' : Nat} (c : α) (h : i' ≠ i) :
    put t b i c b i' = t b i' := by simp [put_apply, h]

theorem put_bucket_ne (t : Nat → Nat → α) {b b' : Nat} (i : Nat) (c : α) (i' : Nat) (h : b' ≠ b) :
    put t b i c b' i' = t b' i' := by simp [put_apply, h]

variable (L : BucketLayout α κ)

/-- Delete the cell at `row`: the last live cell above it, if any, is moved into the hole. -/
def remove (move : α → α → α) (wipe : α → α) (t : Nat → Nat → α) (b row : Nat) : Nat → Nat → α :=
  match Search.lastAfter (fun j => L.live (t b j)) row L.depth with
  | some j => put (put t b row (move (t b row) (t b j))) b j (wipe (t b j))
  | none => put t b row (wipe (t b row))

/-- Live cells among the first `buckets` buckets. -/
def liveCells (buckets : Nat) (t : Nat → Nat → α) : Finset (Nat × Nat) :=
  (Finset.range buckets ×ˢ Finset.range L.depth).filter fun p => L.live (t p.1 p.2) = true

/-- The cells that a listing visits: each bucket up to its first free cell. -/
def scan (buckets : Nat) (t : Nat → Nat → α) : List (Nat × Nat) :=
  (List.range buckets).flatMap fun b =>
    ((List.range L.depth).takeWhile fun i => L.live (t b i)).map fun i => (b, i)

structure WellFormed (t : Nat → Nat → α) : Prop where
  fill : ∀ b, ∃ m ≤ L.depth, ∀ i, L.live (t b i) = true ↔ i < m
  home : ∀ b i, L.live (t b i) = true → L.hash (L.key (t b i)) = b
  distinct : ∀ b i j, L.live (t b i) = true → L.live (t b j) = true →
    L.key (t b i) = L.key (t b j) → i = j

variable {L} {t : Nat → Nat → α}

theorem wellFormed_of_free (h : ∀ b i, L.live (t b i) = false) : L.WellFormed t := by
  refine ⟨fun b => ⟨0, Nat.zero_le _, by simp [h]⟩, ?_, ?_⟩
  · intro b i hl
    simp [h] at hl
  · intro b i j hl
    simp [h] at hl

theorem scan_of_free (h : ∀ b i, L.live (t b i) = false) (n : Nat) : L.scan n t = [] := by
  rw [scan, List.flatMap_eq_nil_iff]
  intro b _
  rw [List.map_eq_nil_iff]
  simp only [h]
  cases List.range L.depth with
  | nil => rfl
  | cons i rows => rfl

theorem nodup_scan {buckets : Nat} : (L.scan buckets t).Nodup := by
  refine List.nodup_flatMap.mpr ⟨fun b _ => ?_, ?_⟩
  · apply (List.nodup_range.sublist (List.takeWhile_sublist _)).map
    intro i j he
    exact (Prod.mk.inj he).2
  · refine List.nodup_range.imp fun {b b'} hne p hp hp' => ?_
    obtain ⟨_, _, rfl⟩ := List.mem_map.mp hp
    obtain ⟨_, _, he⟩ := List.mem_map.mp hp'
    exact hne (Prod.mk.inj he).1.symm

theorem map_scan (buckets : Nat) (t : Nat → Nat → α) :
    (L.scan buckets t).map (fun p => t p.1 p.2) = (List.range buckets).flatMap fun b =>
      ((List.range L.depth).takeWhile fun i => L.live (t b i)).map (t b) := by
  rw [scan, List.map_flatMap]
  simp only [List.map_map]
  rfl

namespace WellFormed

theorem row_lt (wf : L.WellFormed t) {b i : Nat} (h : L.live (t b i) = true) : i < L.depth := by
  obtain ⟨m, hm, hfill⟩ := wf.fill b
  have := (hfill i).mp h
  omega

theorem prefix_closed (wf : L.WellFormed t) {b i j : Nat} (hij : i ≤ j)
    (h : L.live (t b j) = true) : L.live (t b i) = true := by
  obtain ⟨m, _, hfill⟩ := wf.fill b
  have := (hfill j).mp h
  exact (hfill i).mpr (by omega)

theorem cell_unique (wf : L.WellFormed t) {b i b' i' : Nat} (h : L.live (t b i) = true)
    (h' : L.live (t b' i') = true) (hk : L.key (t b i) = L.key (t b' i')) : b = b' ∧ i = i' := by
  have hb : b = b' := by rw [← wf.home b i h, ← wf.home b' i' h', hk]
  subst hb
  exact ⟨rfl, wf.distinct b i i' h h' hk⟩

theorem mem_liveCells (wf : L.WellFormed t) {buckets : Nat} (hB : ∀ k, L.hash k < buckets)
    {p : Nat × Nat} : p ∈ L.liveCells buckets t ↔ L.live (t p.1 p.2) = true := by
  simp only [liveCells, Finset.mem_filter, Finset.mem_product, Finset.mem_range,
    and_iff_right_iff_imp]
  intro h
  exact ⟨wf.home p.1 p.2 h ▸ hB _, wf.row_lt h⟩

theorem takeWhile_live (wf : L.WellFormed t) (b i : Nat) :
    i ∈ (List.range L.depth).takeWhile (fun i => L.live (t b i)) ↔ L.live (t b i) = true := by
  constructor
  · intro h
    exact List.all_eq_true.mp List.all_takeWhile i h
  · intro h
    obtain ⟨m, hm, hfill⟩ := wf.fill b
    -- The range up to `i` lies in the prefix of live cells.
    have hsplit : List.range L.depth =
        List.range (i + 1) ++ List.range' (0 + (i + 1)) (L.depth - (i + 1)) := by
      have hi := wf.row_lt h
      rw [List.range_eq_range', List.range_eq_range', List.range'_append_1]
      congr 1
      omega
    have hbelow : ∀ j ∈ List.range (i + 1), L.live (t b j) = true := by
      intro j hj
      have hj := List.mem_range.mp hj
      exact wf.prefix_closed (by omega) h
    rw [hsplit, List.takeWhile_append_of_pos hbelow, List.mem_append]
    exact Or.inl (List.mem_range.mpr (Nat.lt_succ_self i))

theorem mem_scan (wf : L.WellFormed t) {buckets : Nat} (hB : ∀ k, L.hash k < buckets)
    {p : Nat × Nat} : p ∈ L.scan buckets t ↔ L.live (t p.1 p.2) = true := by
  simp only [scan, List.mem_flatMap, List.mem_range, List.mem_map, wf.takeWhile_live]
  constructor
  · rintro ⟨b, _, i, hl, rfl⟩
    exact hl
  · intro hl
    exact ⟨p.1, wf.home p.1 p.2 hl ▸ hB _, p.2, hl, rfl⟩

/-- A listing visits as many cells as there are live ones. -/
theorem length_scan (wf : L.WellFormed t) {buckets : Nat} (hB : ∀ k, L.hash k < buckets) :
    (L.scan buckets t).length = (L.liveCells buckets t).card := by
  rw [← List.toFinset_card_of_nodup nodup_scan]
  congr 1
  ext p
  rw [List.mem_toFinset, wf.mem_scan hB, wf.mem_liveCells hB]

theorem live_of_no_free {b n : Nat} (hall : ¬ ∃ i < n, L.live (t b i) = false) :
    ∀ i < n, L.live (t b i) = true := by
  intro i hi
  by_contra hne
  exact hall ⟨i, hi, by simpa using hne⟩

/-- A bucket with fewer than `n` live cells has a free one among its first `n`. -/
theorem exists_free_of_bucket (wf : L.WellFormed t) {buckets n : Nat}
    (hB : ∀ k, L.hash k < buckets) {b : Nat}
    (hfew : ((L.liveCells buckets t).filter (fun p => p.1 = b)).card < n) :
    ∃ i < n, L.live (t b i) = false := by
  by_contra hall
  have hlive := live_of_no_free hall
  have hsub : (Finset.range n).image (fun i => (b, i)) ⊆
      (L.liveCells buckets t).filter (fun p => p.1 = b) := by
    intro p hp
    obtain ⟨i, hi, rfl⟩ := Finset.mem_image.mp hp
    exact Finset.mem_filter.mpr
      ⟨(wf.mem_liveCells hB).mpr (hlive i (Finset.mem_range.mp hi)), rfl⟩
  have hcard := Finset.card_le_card hsub
  rw [Finset.card_image_of_injective _ (fun _ _ he => (Prod.mk.inj he).2), Finset.card_range] at hcard
  omega

theorem exists_free_iff (wf : L.WellFormed t) {buckets n : Nat} (hB : ∀ k, L.hash k < buckets)
    {b : Nat} : (∃ i < n, L.live (t b i) = false) ↔
      ((L.liveCells buckets t).filter (fun p => p.1 = b)).card < n := by
  refine ⟨?_, wf.exists_free_of_bucket hB⟩
  rintro ⟨i, hi, hdead⟩
  have hsub : (L.liveCells buckets t).filter (fun p => p.1 = b) ⊆
      (Finset.range i).image (fun j => (b, j)) := by
    rintro ⟨b', j⟩ hp
    obtain ⟨hmem, rfl⟩ := Finset.mem_filter.mp hp
    have hl := (wf.mem_liveCells hB).mp hmem
    refine Finset.mem_image.mpr ⟨j, Finset.mem_range.mpr ?_, rfl⟩
    by_contra hge
    simp [wf.prefix_closed (by omega : i ≤ j) hl] at hdead
  have hcard := (Finset.card_le_card hsub).trans Finset.card_image_le
  rw [Finset.card_range] at hcard
  omega

theorem exists_free (wf : L.WellFormed t) {buckets n : Nat} (hB : ∀ k, L.hash k < buckets)
    (hfew : (L.liveCells buckets t).card < n) (b : Nat) : ∃ i < n, L.live (t b i) = false :=
  wf.exists_free_of_bucket hB (Nat.lt_of_le_of_lt (Finset.card_filter_le _ _) hfew)

/-- A live cell of another bucket does not count. -/
theorem exists_free_of_elsewhere (wf : L.WellFormed t) {buckets n : Nat}
    (hB : ∀ k, L.hash k < buckets) (hcard : (L.liveCells buckets t).card ≤ n) {b : Nat}
    {p : Nat × Nat} (hp : L.live (t p.1 p.2) = true) (hpb : p.1 ≠ b) :
    ∃ i < n, L.live (t b i) = false := by
  apply wf.exists_free_of_bucket hB
  have hssub : (L.liveCells buckets t).filter (fun p => p.1 = b) ⊂ L.liveCells buckets t :=
    Finset.filter_ssubset.mpr ⟨p, (wf.mem_liveCells hB).mpr hp, hpb⟩
  exact Nat.lt_of_lt_of_le (Finset.card_lt_card hssub) hcard

end WellFormed

/-- A search for a free cell with a counter of one byte: it ends within the first 256 cells, or all
of them are live and it never ends. -/
theorem byteSearch_free (t : Nat → Nat → α) (b : Nat) {bound : Nat} (hb : 256 ≤ bound) :
    (∃ i < 256, Search.byteSearch (fun i => !L.live (t b i)) bound 256 0 = some (some i) ∧
      L.live (t b i) = false ∧ ∀ j < i, L.live (t b j) = true) ∨
    (Search.byteSearch (fun i => !L.live (t b i)) bound 256 0 = none ∧
      ∀ j < 256, L.live (t b j) = true) := by
  rcases Search.byteSearch_round (fun i => !L.live (t b i)) hb with
    ⟨i, hi, hs, hfree, hbusy⟩ | ⟨hs, hbusy, _⟩
  · refine Or.inl ⟨i, hi, hs, by simpa using hfree, fun j hj => ?_⟩
    simpa using hbusy j hj
  · exact Or.inr ⟨hs, fun j hj => by simpa using hbusy j hj⟩

variable [DecidableEq κ]

variable (L) in
/-- The row of `k` in its bucket, as a scan that ends at the first free cell reports it. -/
def find (t : Nat → Nat → α) (k : κ) : Option Nat :=
  Search.probe (fun i => L.live (t (L.hash k) i)) (fun i => decide (L.key (t (L.hash k) i) = k))
    L.depth 0

variable (L) in
/-- The table as a map from keys to cells. -/
def content (t : Nat → Nat → α) (k : κ) : Option α := (L.find t k).map (t (L.hash k))

/-- What a lookup finds depends on the bucket of its key alone. -/
theorem find_eq_some_iff_of_bucket {k : κ} {i : Nat}
    (hfill : ∃ m ≤ L.depth, ∀ i, L.live (t (L.hash k) i) = true ↔ i < m)
    (hdistinct : ∀ i j, L.live (t (L.hash k) i) = true → L.live (t (L.hash k) j) = true →
      L.key (t (L.hash k) i) = L.key (t (L.hash k) j) → i = j) :
    L.find t k = some i ↔ L.live (t (L.hash k) i) = true ∧ L.key (t (L.hash k) i) = k := by
  unfold find
  constructor
  · intro h
    obtain ⟨_, _, hhit, hlive, _⟩ := Search.probe_eq_some_iff.mp h
    exact ⟨hlive i (Nat.zero_le i) (Nat.le_refl i), by simpa using hhit⟩
  · rintro ⟨hlive, hkey⟩
    obtain ⟨m, hm, hbucket⟩ := hfill
    apply Search.probe_eq_some_of_prefix hm hbucket (by simpa using hkey) hlive
    intro j hj hjk
    exact hdistinct j i hj hlive (by simpa [hkey] using hjk)

namespace WellFormed

theorem find_eq_some_iff (wf : L.WellFormed t) {k : κ} {i : Nat} :
    L.find t k = some i ↔
      L.live (t (L.hash k) i) = true ∧ L.key (t (L.hash k) i) = k :=
  find_eq_some_iff_of_bucket (wf.fill _) (wf.distinct _)

theorem find_eq_none_iff (wf : L.WellFormed t) {k : κ} :
    L.find t k = none ↔ ∀ b i, L.live (t b i) = true → L.key (t b i) ≠ k := by
  constructor
  · intro h b i hlive hkey
    have hb := wf.home b i hlive
    rw [hkey] at hb
    subst hb
    have := wf.find_eq_some_iff.mpr ⟨hlive, hkey⟩
    simp [h] at this
  · intro h
    cases hf : L.find t k with
    | none => rfl
    | some i =>
      obtain ⟨hl, hk⟩ := wf.find_eq_some_iff.mp hf
      exact absurd hk (h _ i hl)

/-- A store into a cell that has nothing to do with `k`, neither before nor after. -/
theorem find_put_of_ne (wf : L.WellFormed t) {b i : Nat} {c : α}
    (wf' : L.WellFormed (put t b i c)) {k : κ} (hold : L.live (t b i) = true → L.key (t b i) ≠ k)
    (hnew : L.key c ≠ k) : L.find (put t b i c) k = L.find t k := by
  apply Option.ext
  intro row
  rw [wf'.find_eq_some_iff, wf.find_eq_some_iff, put_apply]
  split
  · rename_i hcell
    rw [hcell.1, hcell.2]
    exact iff_of_false (fun h => hnew h.2) fun h => hold h.1 h.2
  · rfl

theorem content_eq_some_iff (wf : L.WellFormed t) {k : κ} {c : α} :
    L.content t k = some c ↔ ∃ b i, t b i = c ∧ L.live c = true ∧ L.key c = k := by
  simp only [content, Option.map_eq_some_iff]
  constructor
  · rintro ⟨i, hi, rfl⟩
    obtain ⟨hl, hk⟩ := wf.find_eq_some_iff.mp hi
    exact ⟨_, i, rfl, hl, hk⟩
  · rintro ⟨b, i, rfl, hl, hk⟩
    have hb := wf.home b i hl
    rw [hk] at hb
    subst hb
    exact ⟨i, wf.find_eq_some_iff.mpr ⟨hl, hk⟩, rfl⟩

theorem content_of_cell (wf : L.WellFormed t) {b i : Nat} (h : L.live (t b i) = true) :
    L.content t (L.key (t b i)) = some (t b i) :=
  wf.content_eq_some_iff.mpr ⟨b, i, rfl, h, rfl⟩

theorem content_eq_none_iff (wf : L.WellFormed t) {k : κ} :
    L.content t k = none ↔ ∀ b i, L.live (t b i) = true → L.key (t b i) ≠ k := by
  rw [← wf.find_eq_none_iff]
  simp [content]

omit [DecidableEq κ] in
/-- A bucket whose keys all lie in a set of fewer than `n` has a free cell among its first `n`. -/
theorem exists_free_of_keys (wf : L.WellFormed t) {b n : Nat} {keys : Finset κ}
    (hkeys : ∀ i, L.live (t b i) = true → L.key (t b i) ∈ keys) (hfew : keys.card < n) :
    ∃ i < n, L.live (t b i) = false := by
  by_contra hall
  have hlive := live_of_no_free hall
  have hinj : Set.InjOn (fun i => L.key (t b i)) (Finset.range n) := by
    intro i hi j hj he
    exact wf.distinct b i j (hlive i (Finset.mem_range.mp hi)) (hlive j (Finset.mem_range.mp hj)) he
  have hcard := Finset.card_le_card_of_injOn (fun i => L.key (t b i))
    (fun i hi => hkeys i (hlive i (Finset.mem_range.mp hi))) hinj
  rw [Finset.card_range] at hcard
  omega

/-- The keys of a bucket whose live cells are among the first `n`. -/
theorem card_keys_le_of_row (wf : L.WellFormed t) {b n : Nat} {keys : Finset κ}
    (hkeys : ∀ k ∈ keys, L.hash k = b ∧ L.content t k ≠ none)
    (hrow : ∀ i, L.live (t b i) = true → i < n) : keys.card ≤ n := by
  have hsub : keys ⊆ (Finset.range n).image fun i => L.key (t b i) := by
    intro k hk
    obtain ⟨hb, hne⟩ := hkeys k hk
    obtain ⟨c, hc⟩ := Option.ne_none_iff_exists'.mp hne
    obtain ⟨b', i, rfl, hl, rfl⟩ := wf.content_eq_some_iff.mp hc
    rw [wf.home b' i hl] at hb
    subst hb
    exact Finset.mem_image.mpr ⟨i, Finset.mem_range.mpr (hrow i hl), rfl⟩
  have hcard := Finset.card_le_card hsub
  have himage := Finset.card_image_le (s := Finset.range n) (f := fun i => L.key (t b i))
  rw [Finset.card_range] at himage
  omega

theorem card_keys_le (wf : L.WellFormed t) {b : Nat} {keys : Finset κ}
    (hkeys : ∀ k ∈ keys, L.hash k = b ∧ L.content t k ≠ none) : keys.card ≤ L.depth :=
  wf.card_keys_le_of_row hkeys fun _ hl => wf.row_lt hl

/-- A bucket that holds `n` keys has no free cell among its first `n`. -/
theorem live_of_card_keys (wf : L.WellFormed t) {b n : Nat} {keys : Finset κ}
    (hkeys : ∀ k ∈ keys, L.hash k = b ∧ L.content t k ≠ none) (hcard : n ≤ keys.card) {i : Nat}
    (hi : i < n) : L.live (t b i) = true := by
  by_contra hdead
  have hbelow : ∀ j, L.live (t b j) = true → j < i := by
    intro j hl
    by_contra hge
    exact hdead (wf.prefix_closed (by omega) hl)
  have hle := wf.card_keys_le_of_row hkeys hbelow
  omega

/-- Two tables with the same live cells, up to their place, are the same map. -/
theorem content_eq_of_cells {t' : Nat → Nat → α} (wf : L.WellFormed t) (wf' : L.WellFormed t')
    (k k' : κ) (f : α → α)
    (h : ∀ c, (∃ b i, t b i = c ∧ L.live c = true ∧ L.key c = k) →
      ∃ b i, t' b i = f c ∧ L.live (f c) = true ∧ L.key (f c) = k')
    (h' : ∀ b i, L.live (t' b i) = true → L.key (t' b i) = k' →
      ∃ b i, L.live (t b i) = true ∧ L.key (t b i) = k) :
    L.content t' k' = (L.content t k).map f := by
  cases hc : L.content t k with
  | none =>
    rw [Option.map_none, wf'.content_eq_none_iff]
    intro b i hl hk
    obtain ⟨b0, i0, hl0, hk0⟩ := h' b i hl hk
    exact wf.content_eq_none_iff.mp hc b0 i0 hl0 hk0
  | some c =>
    rw [Option.map_some, wf'.content_eq_some_iff]
    exact h c (wf.content_eq_some_iff.mp hc)

omit [DecidableEq κ] in
/-- The shape of a table depends on its live cells and their keys alone. -/
theorem congr {t' : Nat → Nat → α} (wf : L.WellFormed t)
    (hlive : ∀ b i, L.live (t' b i) = L.live (t b i))
    (hkey : ∀ b i, L.key (t' b i) = L.key (t b i)) : L.WellFormed t' where
  fill := fun b => by
    obtain ⟨m, hm, hfill⟩ := wf.fill b
    exact ⟨m, hm, fun i => by rw [hlive, hfill]⟩
  home := fun b i hl => by
    rw [hlive] at hl
    rw [hkey]
    exact wf.home b i hl
  distinct := fun b i j hi hj hk => by
    rw [hlive] at hi hj
    rw [hkey, hkey] at hk
    exact wf.distinct b i j hi hj hk

section Insert
variable {k : κ} {i : Nat} {c : α} (wf : L.WellFormed t)
variable (hnew : L.find t k = none) (hi : i < L.depth) (hfree : L.live (t (L.hash k) i) = false)
variable (hbelow : ∀ j < i, L.live (t (L.hash k) j) = true)
variable (hlive : L.live c = true) (hkey : L.key c = k)
include wf hnew hi hfree hbelow hlive hkey

theorem insert : L.WellFormed (put t (L.hash k) i c) := by
  have habsent := wf.find_eq_none_iff.mp hnew
  refine ⟨?_, ?_, ?_⟩
  · intro b
    by_cases hb : b = L.hash k
    · subst hb
      refine ⟨i + 1, hi, fun j => ?_⟩
      by_cases hj : j = i
      · subst hj
        simp [hlive]
      · rw [put_row_ne t _ c hj]
        constructor
        · intro hl
          by_contra hge
          simp [wf.prefix_closed (by omega : i ≤ j) hl] at hfree
        · intro hlt
          exact hbelow j (by omega)
    · obtain ⟨m, hm, hfill⟩ := wf.fill b
      exact ⟨m, hm, fun j => by rw [put_bucket_ne t i c j hb]; exact hfill j⟩
  · intro b j hl
    rw [put_apply] at hl ⊢
    split
    · rename_i h
      rw [hkey, h.1]
    · rename_i h
      rw [if_neg h] at hl
      exact wf.home b j hl
  · intro b j j' hl hl' hk
    rw [put_apply] at hl hl' hk
    rw [put_apply] at hk
    split at hk <;> rename_i h1 <;> split at hk <;> rename_i h2
    · omega
    · rw [if_neg h2] at hl'
      exact absurd (hk.symm.trans hkey) (habsent b j' hl')
    · rw [if_neg h1] at hl
      exact absurd (hk.trans hkey) (habsent b j hl)
    · rw [if_neg h1] at hl
      rw [if_neg h2] at hl'
      exact wf.distinct b j j' hl hl' hk

theorem content_insert :
    L.content (put t (L.hash k) i c) = Function.update (L.content t) k (some c) := by
  have wf' := wf.insert hnew hi hfree hbelow hlive hkey
  funext k'
  by_cases hk : k' = k
  · subst hk
    rw [Function.update_self, wf'.content_eq_some_iff]
    exact ⟨L.hash k', i, by simp, hlive, hkey⟩
  · rw [Function.update_of_ne hk]
    have h := wf.content_eq_of_cells wf' k' k' id ?_ ?_
    · simpa using h
    · rintro _ ⟨b, j, rfl, hl, hkj⟩
      refine ⟨b, j, ?_, hl, hkj⟩
      rw [put_apply, if_neg]
      · rfl
      · rintro ⟨rfl, rfl⟩
        simp [hfree] at hl
    · intro b j hl hkj
      rw [put_apply] at hl hkj
      split at hkj
      · exact absurd (hkj.symm.trans hkey) hk
      · rename_i h
        rw [if_neg h] at hl
        exact ⟨b, j, hl, hkj⟩

theorem liveCells_insert {buckets : Nat} (hB : ∀ k, L.hash k < buckets) :
    (L.liveCells buckets (put t (L.hash k) i c)).card = (L.liveCells buckets t).card + 1 := by
  have wf' := wf.insert hnew hi hfree hbelow hlive hkey
  rw [← Finset.card_insert_of_notMem (a := (L.hash k, i)) (s := L.liveCells buckets t)
    (by simp [wf.mem_liveCells hB, hfree])]
  congr 1
  ext p
  rw [wf'.mem_liveCells hB, Finset.mem_insert, wf.mem_liveCells hB, put_apply]
  by_cases hp : p.1 = L.hash k ∧ p.2 = i
  · simp [hlive, Prod.ext_iff, hp]
  · simp [hp, Prod.ext_iff]

end Insert

section Replace
variable {b i : Nat} {c : α} (wf : L.WellFormed t) (hold : L.live (t b i) = true)
variable (hlive : L.live c = true) (hkey : L.key c = L.key (t b i))
include wf hold hlive hkey

omit [DecidableEq κ] wf hkey in
theorem live_replace (b' i' : Nat) : L.live (put t b i c b' i') = L.live (t b' i') := by
  rw [put_apply]
  split
  · rename_i h
    rw [hlive, h.1, h.2, hold]
  · rfl

omit [DecidableEq κ] wf hold hlive in
theorem key_replace (b' i' : Nat) : L.key (put t b i c b' i') = L.key (t b' i') := by
  rw [put_apply]
  split
  · rename_i h
    rw [hkey, h.1, h.2]
  · rfl

omit [DecidableEq κ] in
theorem replace : L.WellFormed (put t b i c) :=
  wf.congr (live_replace hold hlive) (key_replace hkey)

theorem content_replace :
    L.content (put t b i c) = Function.update (L.content t) (L.key (t b i)) (some c) := by
  have wf' := wf.replace hold hlive hkey
  funext k
  by_cases hk : k = L.key (t b i)
  · subst hk
    rw [Function.update_self, wf'.content_eq_some_iff]
    exact ⟨b, i, by simp, hlive, hkey⟩
  · rw [Function.update_of_ne hk]
    have h := wf.content_eq_of_cells wf' k k id ?_ ?_
    · simpa using h
    · rintro _ ⟨b', j, rfl, hl, hkj⟩
      refine ⟨b', j, ?_, hl, hkj⟩
      rw [put_apply, if_neg]
      · rfl
      · rintro ⟨rfl, rfl⟩
        exact hk hkj.symm
    · intro b' j hl hkj
      rw [live_replace hold hlive] at hl
      rw [key_replace hkey] at hkj
      exact ⟨b', j, hl, hkj⟩

omit [DecidableEq κ] wf hkey in
theorem liveCells_replace (buckets : Nat) :
    L.liveCells buckets (put t b i c) = L.liveCells buckets t := by
  ext p
  simp only [liveCells, Finset.mem_filter, live_replace hold hlive]

end Replace

section Remove
variable {b row : Nat} {move : α → α → α} {wipe : α → α}
omit [DecidableEq κ]
variable (wf : L.WellFormed t) (hrow : L.live (t b row) = true)
variable (hmove : ∀ d s, L.live (move d s) = L.live s ∧ L.key (move d s) = L.key s)
variable (hwipe : ∀ c, L.live (wipe c) = false)

/-- The two shapes of a deletion, by whether `row` is the last live cell of its bucket. -/
theorem remove_cases (move : α → α → α) (wipe : α → α) (wf : L.WellFormed t)
    (hrow : L.live (t b row) = true) :
    (∃ j, row < j ∧ L.live (t b j) = true ∧ L.live (t b (j + 1)) = false ∧
      L.remove move wipe t b row =
        put (put t b row (move (t b row) (t b j))) b j (wipe (t b j))) ∨
    (L.live (t b (row + 1)) = false ∧
      L.remove move wipe t b row = put t b row (wipe (t b row))) := by
  obtain ⟨m, hm, hfill⟩ := wf.fill b
  have hlt := (hfill row).mp hrow
  have hlast := Search.lastAfter_of_prefix hm hfill hlt
  unfold remove
  rw [hlast]
  split_ifs with he
  · right
    refine ⟨?_, rfl⟩
    by_contra hne
    have := (hfill (row + 1)).mp (by simpa using hne)
    omega
  · left
    refine ⟨m - 1, by omega, (hfill _).mpr (by omega), ?_, rfl⟩
    by_contra hne
    have := (hfill (m - 1 + 1)).mp (by simpa using hne)
    omega

include wf hrow hmove hwipe

theorem remove_origin : ∃ o : Nat → Nat → Nat,
    (∀ b' i', L.live (L.remove move wipe t b row b' i') = true →
      L.live (t b' (o b' i')) = true ∧ ¬(b' = b ∧ o b' i' = row) ∧
      L.key (L.remove move wipe t b row b' i') = L.key (t b' (o b' i')) ∧
      (L.remove move wipe t b row b' i' = t b' (o b' i') ∨
        L.remove move wipe t b row b' i' = move (t b row) (t b' (o b' i')))) ∧
    ∀ b' i' i'', L.live (L.remove move wipe t b row b' i') = true →
      L.live (L.remove move wipe t b row b' i'') = true → o b' i' = o b' i'' → i' = i'' := by
  rcases remove_cases move wipe wf hrow with ⟨j, hj, hlj, _, he⟩ | ⟨_, he⟩
  · have hdead : L.live (L.remove move wipe t b row b j) = false := by rw [he, put_same, hwipe]
    refine ⟨fun b' i' => if b' = b ∧ i' = row then j else i', ?_, ?_⟩
    · intro b' i' hl
      have hne : ¬(b' = b ∧ i' = j) := by
        rintro ⟨rfl, rfl⟩
        simp [hdead] at hl
      rw [he, put_apply, if_neg hne] at hl ⊢
      beta_reduce
      by_cases h2 : b' = b ∧ i' = row
      · rw [if_pos h2]
        obtain ⟨rfl, rfl⟩ := h2
        rw [put_same]
        exact ⟨hlj, by omega, (hmove _ _).2, Or.inr rfl⟩
      · rw [put_apply, if_neg h2] at hl ⊢
        rw [if_neg h2]
        exact ⟨hl, h2, rfl, Or.inl rfl⟩
    · intro b' i' i'' hl hl' ho
      simp only at ho
      split at ho <;> rename_i h1 <;> split at ho <;> rename_i h2
      · omega
      · rw [h1.1, ← ho] at hl'
        simp [hdead] at hl'
      · rw [h2.1, ho] at hl
        simp [hdead] at hl
      · exact ho
  · refine ⟨fun _ i' => i', ?_, fun _ _ _ _ _ ho => ho⟩
    intro b' i' hl
    have hne : ¬(b' = b ∧ i' = row) := by
      rintro ⟨rfl, rfl⟩
      simp [he, hwipe] at hl
    rw [he, put_apply, if_neg hne] at hl ⊢
    exact ⟨hl, hne, rfl, Or.inl rfl⟩

theorem live_remove (i' : Nat) :
    L.live (L.remove move wipe t b row b i') = true ↔ L.live (t b (i' + 1)) = true := by
  rcases remove_cases move wipe wf hrow with
    ⟨j, hj, hlj, hlast, he⟩ | ⟨hlast, he⟩
  · rw [he]
    by_cases h1 : i' = j
    · subst h1
      simp [hwipe, hlast]
    · rw [put_row_ne _ _ _ h1]
      by_cases h2 : i' = row
      · subst h2
        rw [put_same, (hmove _ _).1, hlj]
        exact iff_of_true rfl (wf.prefix_closed (by omega) hlj)
      · rw [put_row_ne _ _ _ h2]
        constructor
        · intro hl
          have : i' < j := by
            by_contra hge
            simp [wf.prefix_closed (by omega : j + 1 ≤ i') hl] at hlast
          exact wf.prefix_closed (by omega) hlj
        · exact fun hl => wf.prefix_closed (by omega) hl
  · rw [he]
    by_cases h2 : i' = row
    · subst h2
      simp [hwipe, hlast]
    · rw [put_row_ne _ _ _ h2]
      constructor
      · intro hl
        have : i' < row := by
          by_contra hge
          simp [wf.prefix_closed (by omega : row + 1 ≤ i') hl] at hlast
        exact wf.prefix_closed (by omega) hrow
      · exact fun hl => wf.prefix_closed (by omega) hl

omit wf hrow hmove hwipe in
theorem remove_bucket_ne {b' : Nat} (h : b' ≠ b) (i' : Nat) :
    L.remove move wipe t b row b' i' = t b' i' := by
  unfold BucketLayout.remove
  cases Search.lastAfter (fun j => L.live (t b j)) row L.depth with
  | some j => exact (put_bucket_ne _ _ _ _ h).trans (put_bucket_ne _ _ _ _ h)
  | none => exact put_bucket_ne _ _ _ _ h

protected theorem remove : L.WellFormed (L.remove move wipe t b row) := by
  obtain ⟨o, horigin, hinj⟩ := remove_origin wf hrow hmove hwipe
  refine ⟨fun b' => ?_, fun b' i' hl => ?_, fun b' i' i'' hl hl' hk => ?_⟩
  · obtain ⟨m, hm, hfill⟩ := wf.fill b'
    by_cases hb : b' = b
    · subst hb
      refine ⟨m - 1, by omega, fun i' => ?_⟩
      rw [live_remove wf hrow hmove hwipe, hfill]
      omega
    · exact ⟨m, hm, fun i' => by rw [remove_bucket_ne hb]; exact hfill i'⟩
  · obtain ⟨hlo, _, hk, _⟩ := horigin b' i' hl
    rw [hk]
    exact wf.home _ _ hlo
  · obtain ⟨hlo, _, hko, _⟩ := horigin b' i' hl
    obtain ⟨hlo', _, hko', _⟩ := horigin b' i'' hl'
    exact hinj b' i' i'' hl hl' (wf.distinct b' _ _ hlo hlo' (by rw [← hko, ← hko', hk]))

theorem liveCells_remove {buckets : Nat} (hB : ∀ k, L.hash k < buckets) :
    (L.liveCells buckets (L.remove move wipe t b row)).card + 1 = (L.liveCells buckets t).card := by
  have wf' := WellFormed.remove wf hrow hmove hwipe
  obtain ⟨m, _, hfill⟩ := wf.fill b
  have hm := (hfill row).mp hrow
  have hlast : (b, m - 1) ∈ L.liveCells buckets t :=
    (wf.mem_liveCells hB).mpr ((hfill (m - 1)).mpr (by omega))
  have herase : L.liveCells buckets (L.remove move wipe t b row) =
      (L.liveCells buckets t).erase (b, m - 1) := by
    ext ⟨b', i'⟩
    rw [Finset.mem_erase, wf'.mem_liveCells hB, wf.mem_liveCells hB]
    by_cases hb : b' = b
    · subst hb
      rw [live_remove wf hrow hmove hwipe, hfill, hfill]
      simp only [ne_eq, Prod.mk.injEq, true_and]
      omega
    · rw [remove_bucket_ne hb]
      simp [hb]
  rw [herase, Finset.card_erase_add_one hlast]

omit hwipe in
theorem cell_remove (wipe : α → α) {b0 i0 : Nat} (hl : L.live (t b0 i0) = true)
    (hne : ¬(b0 = b ∧ i0 = row)) :
    ∃ b' i', L.live (L.remove move wipe t b row b' i') = true ∧
      L.key (L.remove move wipe t b row b' i') = L.key (t b0 i0) := by
  rcases remove_cases move wipe wf hrow with ⟨j, hj, hlj, _, he⟩ | ⟨_, he⟩
  · rw [he]
    by_cases h1 : b0 = b ∧ i0 = j
    · obtain ⟨rfl, rfl⟩ := h1
      refine ⟨b0, row, ?_⟩
      rw [put_row_ne _ _ _ (by omega), put_same]
      exact ⟨((hmove _ _).1).trans hl, (hmove _ _).2⟩
    · refine ⟨b0, i0, ?_⟩
      rw [put_apply, if_neg h1, put_apply, if_neg hne]
      exact ⟨hl, rfl⟩
  · rw [he]
    refine ⟨b0, i0, ?_⟩
    rw [put_apply, if_neg hne]
    exact ⟨hl, rfl⟩

variable [DecidableEq κ]

theorem content_remove_self :
    L.content (L.remove move wipe t b row) (L.key (t b row)) = none := by
  have wf' := WellFormed.remove wf hrow hmove hwipe
  obtain ⟨o, horigin, _⟩ := remove_origin wf hrow hmove hwipe
  rw [wf'.content_eq_none_iff]
  intro b' i' hl hk
  obtain ⟨hlo, hne, hko, _⟩ := horigin b' i' hl
  exact hne (wf.cell_unique hlo hrow (hko.symm.trans hk))

theorem content_remove_other {k : κ} (hk : k ≠ L.key (t b row)) :
    L.content (L.remove move wipe t b row) k = L.content t k ∨
      L.content (L.remove move wipe t b row) k = (L.content t k).map (move (t b row)) := by
  have wf' := WellFormed.remove wf hrow hmove hwipe
  obtain ⟨o, horigin, _⟩ := remove_origin wf hrow hmove hwipe
  cases hc : L.content (L.remove move wipe t b row) k with
  | none =>
    left
    symm
    rw [wf'.content_eq_none_iff] at hc
    rw [wf.content_eq_none_iff]
    intro b0 i0 hl hk0
    obtain ⟨b', i', hl', hk'⟩ := cell_remove wf hrow hmove wipe hl
      (by rintro ⟨rfl, rfl⟩; exact hk hk0.symm)
    exact hc b' i' hl' (hk'.trans hk0)
  | some c =>
    obtain ⟨b', i', rfl, hl, hkc⟩ := wf'.content_eq_some_iff.mp hc
    obtain ⟨hlo, _, hko, hcell⟩ := horigin b' i' hl
    have hold := wf.content_of_cell hlo
    rw [← hko, hkc] at hold
    rw [hold]
    exact hcell.imp (congrArg some) (congrArg some)

/-- The last live cell of the bucket is the one that moves. -/
theorem content_remove_moved {i : Nat} (hl : L.live (t b i) = true)
    (hlast : L.live (t b (i + 1)) = false) (hne : i ≠ row) :
    L.content (L.remove move wipe t b row) (L.key (t b i)) = some (move (t b row) (t b i)) := by
  have wf' := WellFormed.remove wf hrow hmove hwipe
  rw [wf'.content_eq_some_iff]
  refine ⟨b, row, ?_, ((hmove _ _).1).trans hl, (hmove _ _).2⟩
  have hend : ∀ j, L.live (t b j) = true → j ≤ i := by
    intro j hj
    by_contra hlt
    exact Bool.false_ne_true (hlast.symm.trans (wf.prefix_closed (by omega) hj))
  rcases remove_cases move wipe wf hrow with ⟨j, hj, hlj, hfree, he⟩ | ⟨hfree, _⟩
  · have hij : i = j := by
      apply le_antisymm _ (hend j hlj)
      by_contra hlt
      exact Bool.false_ne_true (hfree.symm.trans (wf.prefix_closed (by omega) hl))
    subst hij
    rw [he, put_row_ne _ _ _ (Nat.ne_of_lt hj), put_same]
  · have hle := hend row hrow
    have hnext := wf.prefix_closed (by omega : row + 1 ≤ i) hl
    exact absurd (hfree.symm.trans hnext) Bool.false_ne_true

theorem content_remove_kept {b0 i0 : Nat} (hl : L.live (t b0 i0) = true)
    (hne : ¬(b0 = b ∧ i0 = row)) (hlast : b0 = b → L.live (t b (i0 + 1)) = true) :
    L.content (L.remove move wipe t b row) (L.key (t b0 i0)) = some (t b0 i0) := by
  have wf' := WellFormed.remove wf hrow hmove hwipe
  rw [wf'.content_eq_some_iff]
  refine ⟨b0, i0, ?_, hl, rfl⟩
  rcases remove_cases move wipe wf hrow with ⟨j, _, _, hfree, he⟩ | ⟨_, he⟩
  · have hmoved : ¬(b0 = b ∧ i0 = j) := by
      rintro ⟨hb, rfl⟩
      exact Bool.false_ne_true (hfree.symm.trans (hlast hb))
    rw [he, put_apply, if_neg hmoved, put_apply, if_neg hne]
  · rw [he, put_apply, if_neg hne]

end Remove

end WellFormed

/-! ## Crowded buckets -/

omit [DecidableEq κ] in
/-- Some bucket gets more than `n` of more than `buckets * n` different keys. -/
theorem exists_crowded {hash : κ → Nat} {buckets n : Nat} (hB : ∀ k, hash k < buckets)
    {key : Nat → κ} (hkey : Set.InjOn key (Finset.range (buckets * n + 1))) :
    ∃ b, ∃ ks : List κ, ks.Nodup ∧ ks.length = n + 1 ∧ ∀ k ∈ ks, hash k = b := by
  classical
  let keys := (Finset.range (buckets * n + 1)).image key
  have hmany : (Finset.range buckets).card * n < keys.card := by
    rw [Finset.card_image_of_injOn hkey, Finset.card_range, Finset.card_range]
    exact Nat.lt_succ_self _
  obtain ⟨b, _, hb⟩ := Finset.exists_lt_card_fiber_of_mul_lt_card_of_maps_to
    (fun k _ => Finset.mem_range.mpr (hB k)) hmany
  rw [← Finset.length_toList] at hb
  refine ⟨b, (Finset.filter (fun k => hash k = b) keys).toList.take (n + 1), ?_, ?_, ?_⟩
  · exact (Finset.nodup_toList _).sublist (List.take_sublist _ _)
  · rw [List.length_take]
    omega
  · intro k hk
    have hmem := Finset.mem_toList.mp (List.mem_of_mem_take hk)
    exact (Finset.mem_filter.mp hmem).2

/-! ## Tables whose hash is left open -/

section Rehash
variable {b row : Nat} {wipe : α → α}
variable (hfill : ∀ b, ∃ m ≤ L.depth, ∀ i, L.live (t b i) = true ↔ i < m)
variable (hunique : ∀ b i b' i', L.live (t b i) = true → L.live (t b' i') = true →
  L.key (t b i) = L.key (t b' i') → b = b' ∧ i = i')
include hfill hunique

omit [DecidableEq κ] in
/-- A table whose keys are unique is well formed under the hash that its own cells give. -/
theorem exists_rehash : ∃ hash : κ → Nat, ({ L with hash } : BucketLayout α κ).WellFormed t := by
  classical
  refine ⟨fun k => if h : ∃ b i, L.live (t b i) = true ∧ L.key (t b i) = k then h.choose else 0,
    hfill, fun b i hl => ?_, fun b i j hi hj hk => (hunique b i b j hi hj hk).2⟩
  have hex : ∃ b' i', L.live (t b' i') = true ∧ L.key (t b' i') = L.key (t b i) := ⟨b, i, hl, rfl⟩
  obtain ⟨i', hl', hk'⟩ := hex.choose_spec
  exact (dif_pos hex).trans (hunique _ i' b i hl' hl hk').1

variable (hrow : L.live (t b row) = true) (hwipe : ∀ c, L.live (wipe c) = false)
include hrow hwipe

omit [DecidableEq κ] in
/-- Deletion keeps both properties, and each bucket keeps its live cells but the deleted one. -/
theorem remove_cells :
    (∀ b', ∃ m ≤ L.depth, ∀ i,
      L.live (L.remove (fun _ s => s) wipe t b row b' i) = true ↔ i < m) ∧
    (∀ b' i b'' i', L.live (L.remove (fun _ s => s) wipe t b row b' i) = true →
      L.live (L.remove (fun _ s => s) wipe t b row b'' i') = true →
      L.key (L.remove (fun _ s => s) wipe t b row b' i) =
        L.key (L.remove (fun _ s => s) wipe t b row b'' i') → b' = b'' ∧ i = i') ∧
    ∀ b' c, L.live c = true → ((∃ i, L.remove (fun _ s => s) wipe t b row b' i = c) ↔
      ∃ i, t b' i = c ∧ ¬(b' = b ∧ i = row)) := by
  obtain ⟨hash, wf⟩ := exists_rehash hfill hunique
  have hmove : ∀ _d s : α, L.live s = L.live s ∧ L.key s = L.key s := fun _ _ => ⟨rfl, rfl⟩
  have wf' := WellFormed.remove wf hrow hmove hwipe
  obtain ⟨o, horigin, _⟩ := WellFormed.remove_origin wf hrow hmove hwipe
  have hcell : ∀ b' i, L.live (L.remove (fun _ s => s) wipe t b row b' i) = true →
      ∃ i', t b' i' = L.remove (fun _ s => s) wipe t b row b' i ∧ ¬(b' = b ∧ i' = row) := by
    intro b' i hl
    obtain ⟨_, hne, _, he⟩ := horigin b' i hl
    exact ⟨o b' i, (he.elim id id).symm, hne⟩
  refine ⟨wf'.fill, fun _ _ _ _ hl hl' hk => wf'.cell_unique hl hl' hk, fun b' c hc => ⟨?_, ?_⟩⟩
  · rintro ⟨i, rfl⟩
    exact hcell b' i hc
  · rintro ⟨i, rfl, hne⟩
    obtain ⟨b0, i0, hl0, hk0⟩ := WellFormed.cell_remove wf hrow hmove wipe hc hne
    obtain ⟨i1, he1, _⟩ := hcell b0 i0 hl0
    have hl1 : L.live (t b0 i1) = true := he1 ▸ hl0
    obtain ⟨rfl, rfl⟩ := hunique b0 i1 b' i hl1 hc (he1 ▸ hk0)
    exact ⟨i0, he1.symm⟩

end Rehash

end BucketLayout
