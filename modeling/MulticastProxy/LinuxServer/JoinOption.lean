import MulticastProxy.Library.CString
import MulticastProxy.Library.CommandLine
import MulticastProxy.LinuxServer.Config

/-!
# Linux server tool: the option `-j` (`server_proxy/main.c`)

The argument is cut at its commas into the rows of `ip_list`. The loop does not look at the first
character of a piece, and `strncpy` with the length of the piece writes no zero behind it.
-/

namespace MulticastProxy.LinuxServer

set_option autoImplicit false

open CString (nul strncpy)

def multiRangeNum (arg : List Char) : Nat := arg.count ',' + 1

/-- `strncpy(ip_list[i], p_begin, count)` on `char ip_list[128][32]`. -/
def putPiece (ipList : Nat → Char) (i : Nat) (pBegin : List Char) (count : Nat) :
    Outcome (Nat → Char) :=
  if 32 * i + count ≤ 32 * maxMemIpInGroup then .ret (strncpy ipList (32 * i) pBegin count)
  else .fault

/-- The loop with the text at `p_end`, the text at `p_begin`, `count`, `i` and `ip_list`. -/
def splitLoop : List Char → List Char → Nat → Nat → (Nat → Char) → Outcome (Nat × (Nat → Char))
  | [], _, _, i, ipList => .ret (i, ipList)
  | [_], pBegin, count, i, ipList => do
    let ipList ← putPiece ipList i pBegin (count + 1)
    .ret (i, ipList)
  | _ :: ch :: pEnd, pBegin, count, i, ipList =>
    if ch = ',' then do
      let ipList ← putPiece ipList i pBegin (count + 1)
      -- where the text ends with this comma, the second test copies 0 characters
      let ipList ← if pEnd = [] then putPiece ipList (i + 1) pEnd 0 else .ret ipList
      splitLoop pEnd pEnd 0 (i + 1) ipList
    else splitLoop (ch :: pEnd) pBegin (count + 1) i ipList

/-- `ip_num`, `i` and `ip_list` behind the loop. Only the option `-q` leaves another `i` than 0 for
it, and both options together are refused. -/
def joinOption (optarg : List Char) (ipList : Nat → Char) : Outcome (Nat × Nat × (Nat → Char)) :=
  if 2048 < optarg.length + 1 then .fault
  else do
    let (i, ipList) ← splitLoop optarg optarg 0 0 ipList
    .ret (multiRangeNum optarg, i, ipList)

/-- Row `k` holds the `k`-th segment of the argument, for each of the `ip_num` rows. -/
def RowsHold (optarg : List Char) (prior : Nat → Char) : Prop :=
  ∃ i ipList, joinOption optarg prior = .ret (multiRangeNum optarg, i, ipList) ∧
    ∀ k seg, (optarg.splitOn ',')[k]? = some seg → CString.At ipList (32 * k) seg

/-! ## One piece -/

section
variable {c : Char} {w : List Char} (hw : ',' ∉ w) (pBegin : List Char) (count i : Nat)
  (ipList : Nat → Char)
include hw

theorem splitLoop_last : splitLoop (c :: w) pBegin count i ipList =
    (putPiece ipList i pBegin (count + 1 + w.length) >>= fun ipList => .ret (i, ipList)) := by
  induction w generalizing c count with
  | nil => rfl
  | cons ch w ih =>
    obtain ⟨hch, hw⟩ : ',' ≠ ch ∧ ',' ∉ w := by simpa using hw
    rw [splitLoop, if_neg (Ne.symm hch), ih hw, List.length_cons]
    congr 2
    omega

theorem splitLoop_comma (rest : List Char) :
    splitLoop (c :: w ++ ',' :: rest) pBegin count i ipList =
      (putPiece ipList i pBegin (count + 1 + w.length) >>= splitLoop rest rest 0 (i + 1)) := by
  induction w generalizing c count with
  | nil =>
    rw [List.cons_append, List.nil_append, splitLoop, if_pos rfl, List.length_nil, Nat.add_zero]
    by_cases hfit : 32 * i + (count + 1) ≤ 32 * maxMemIpInGroup
    · rw [putPiece, if_pos hfit, Outcome.ret_bind, Outcome.ret_bind]
      split
      · rename_i hend
        rw [putPiece, if_pos (by omega), Outcome.ret_bind]
        congr 1
        funext a
        exact CString.strncpy_of_disjoint (by omega)
      · rw [Outcome.ret_bind]
    · rw [putPiece, if_neg hfit, Outcome.fault_bind, Outcome.fault_bind]
  | cons ch w ih =>
    obtain ⟨hch, hw⟩ : ',' ≠ ch ∧ ',' ∉ w := by simpa using hw
    have hrest := ih (c := ch) hw (count + 1)
    rw [List.cons_append] at hrest
    rw [List.cons_append, List.cons_append, splitLoop, if_neg (Ne.symm hch), hrest,
      List.length_cons]
    congr 2
    omega

end

/-- A text is empty, a last piece, or a piece and a comma before another text. -/
@[elab_as_elim] theorem piece_induction {motive : List Char → Prop} (nil : motive [])
    (last : ∀ c w, ',' ∉ w → motive (c :: w))
    (comma : ∀ c w rest, ',' ∉ w → motive rest → motive (c :: w ++ ',' :: rest))
    (text : List Char) : motive text := by
  induction hn : text.length using Nat.strong_induction_on generalizing text with
  | _ n ih =>
    cases text with
    | nil => exact nil
    | cons c text =>
      by_cases hcomma : ',' ∈ text
      · obtain ⟨w, rest, rfl, hw⟩ := List.eq_append_cons_of_mem hcomma
        refine comma c w rest hw (ih _ ?_ rest rfl)
        rw [← hn, List.length_cons, List.length_append, List.length_cons]
        omega
      · exact last c text hcomma

theorem putPiece_eq_ret {prior ipList : Nat → Char} {i count : Nat} {pBegin : List Char}
    (h : putPiece prior i pBegin count = .ret ipList) :
    ipList = strncpy prior (32 * i) pBegin count := by
  unfold putPiece at h
  split at h
  · exact (Outcome.ret.inj h).symm
  · cases h

/-- The rows before the `i`-th stay. -/
theorem splitLoop_before {text : List Char} {i i' : Nat} {prior ipList : Nat → Char}
    (h : splitLoop text text 0 i prior = .ret (i', ipList)) {a : Nat} (ha : a < 32 * i) :
    ipList a = prior a := by
  induction text using piece_induction generalizing i prior with
  | nil =>
    obtain ⟨_, rfl⟩ := Prod.mk.inj (Outcome.ret.inj h)
    rfl
  | last c w hw =>
    rw [splitLoop_last hw] at h
    obtain ⟨after, hput, hret⟩ := Outcome.bind_eq_ret_iff.mp h
    obtain ⟨_, rfl⟩ := Prod.mk.inj (Outcome.ret.inj hret)
    rw [putPiece_eq_ret hput, CString.strncpy_of_disjoint (Or.inl ha)]
  | comma c w rest hw ih =>
    rw [splitLoop_comma hw] at h
    obtain ⟨after, hput, hrest⟩ := Outcome.bind_eq_ret_iff.mp h
    rw [ih hrest (by omega), putPiece_eq_ret hput, CString.strncpy_of_disjoint (Or.inl ha)]

/-- The first character of a piece is copied, be it a comma. -/
theorem splitLoop_first {c : Char} {text : List Char} {i i' : Nat} {prior ipList : Nat → Char}
    (h : splitLoop (c :: text) (c :: text) 0 i prior = .ret (i', ipList)) : ipList (32 * i) = c := by
  have hcopy : ∀ (after : Nat → Char) (n : Nat),
      putPiece prior i (c :: text) (0 + 1 + n) = .ret after → after (32 * i) = c := by
    intro after n hput
    rw [putPiece_eq_ret hput]
    exact CString.strncpy_char (i := 0) (by omega) (by simp)
  by_cases hcomma : ',' ∈ text
  · obtain ⟨w, rest, rfl, hw⟩ := List.eq_append_cons_of_mem hcomma
    rw [← List.cons_append, splitLoop_comma hw] at h
    obtain ⟨after, hput, hrest⟩ := Outcome.bind_eq_ret_iff.mp h
    rw [splitLoop_before hrest (by omega), hcopy after _ hput]
  · rw [splitLoop_last hcomma] at h
    obtain ⟨after, hput, hret⟩ := Outcome.bind_eq_ret_iff.mp h
    obtain ⟨_, rfl⟩ := Prod.mk.inj (Outcome.ret.inj hret)
    exact hcopy after _ hput

/-- Where the rows hold the segments, only the last of them may be empty. -/
theorem ne_nil_of_rows {text : List Char} {i i' : Nat} {prior ipList : Nat → Char}
    (h : splitLoop text text 0 i prior = .ret (i', ipList))
    (hrows : ∀ k seg, (text.splitOn ',')[k]? = some seg → CString.At ipList (32 * (i + k)) seg) :
    ∀ seg ∈ (text.splitOn ',').dropLast, seg ≠ [] := by
  induction text using piece_induction generalizing i prior with
  | nil => simp
  | last c w hw =>
    have hc : ',' ≠ c := by
      rintro rfl
      rw [List.splitOn_cons_eq_if_modifyHead, if_pos (by simp)] at hrows
      have hzero := (hrows 0 [] rfl).zero
      rw [List.length_nil, Nat.add_zero, Nat.add_zero, splitLoop_first h] at hzero
      exact absurd hzero (by decide)
    rw [List.splitOn_eq_singleton (by simp [hc, hw])]
    simp
  | comma c w rest hw ih =>
    have hc : ',' ≠ c := by
      rintro rfl
      rw [List.cons_append, List.splitOn_cons_eq_if_modifyHead, if_pos (by simp)] at hrows
      have hzero := (hrows 0 [] rfl).zero
      rw [List.length_nil, Nat.add_zero, Nat.add_zero, splitLoop_first h] at hzero
      exact absurd hzero (by decide)
    rw [splitLoop_comma hw] at h
    obtain ⟨after, _, hrest⟩ := Outcome.bind_eq_ret_iff.mp h
    rw [List.splitOn_append_cons_self_of_not_mem (by simp [hc, hw])] at hrows ⊢
    rw [List.dropLast_cons_of_ne_nil (List.splitOn_ne_nil _ _)]
    intro seg hseg
    rcases List.mem_cons.mp hseg with rfl | hseg
    · exact List.cons_ne_nil _ _
    · refine ih hrest (fun k seg hk => ?_) seg hseg
      have hat := hrows (k + 1) seg hk
      have hnext : i + (k + 1) = i + 1 + k := by omega
      rwa [hnext] at hat

theorem putPiece_segment {i : Nat} {seg : List Char} (prior : Nat → Char)
    (hi : i < maxMemIpInGroup) (hlen : seg.length < 32) (rest : List Char) :
    putPiece prior i (seg ++ rest) seg.length =
      .ret (strncpy prior (32 * i) (seg ++ rest) seg.length) := if_pos (by omega)

/-- A text whose pieces are not empty, but for the last, starts with no comma. -/
theorem ne_comma_of_pieces {c : Char} {text : List Char}
    (hne : ∀ seg ∈ ((c :: text).splitOn ',').dropLast, seg ≠ []) : ',' ≠ c := by
  intro hc
  rw [← hc, List.splitOn_cons_eq_if_modifyHead, if_pos (by simp),
    List.dropLast_cons_of_ne_nil (List.splitOn_ne_nil _ _)] at hne
  exact hne [] List.mem_cons_self rfl

/-- Rows of nonempty segments: each holds the characters of its segment, and the one behind them is
as it was. -/
theorem splitLoop_rows {text : List Char} {i : Nat} (prior : Nat → Char)
    (hne : ∀ seg ∈ (text.splitOn ',').dropLast, seg ≠ [])
    (hlen : ∀ seg ∈ text.splitOn ',', seg.length < 32)
    (hroom : i + (text.splitOn ',').length ≤ maxMemIpInGroup) :
    ∃ i' ipList, splitLoop text text 0 i prior = .ret (i', ipList) ∧
      ∀ k seg, (text.splitOn ',')[k]? = some seg →
        (∀ j (hj : j < seg.length), ipList (32 * (i + k) + j) = seg[j]) ∧
        ipList (32 * (i + k) + seg.length) = prior (32 * (i + k) + seg.length) := by
  induction text using piece_induction generalizing i prior with
  | nil =>
    refine ⟨i, prior, rfl, fun k seg hseg => ⟨?_, rfl⟩⟩
    cases k with
    | zero =>
      obtain rfl := Option.some.inj hseg
      intro j hj
      cases hj
    | succ k => cases hseg
  | last c w hw =>
    have hc := ne_comma_of_pieces hne
    rw [List.splitOn_eq_singleton (by simp [hc, hw])] at hlen hroom ⊢
    have hi : i < maxMemIpInGroup := hroom
    have hfit := putPiece_segment prior hi (hlen _ (List.mem_singleton_self _)) []
    rw [List.append_nil] at hfit
    refine ⟨i, strncpy prior (32 * i) (c :: w) (c :: w).length, ?_, fun k seg hseg => ?_⟩
    · have hlength : 0 + 1 + w.length = (c :: w).length := by
        rw [List.length_cons]
        omega
      rw [splitLoop_last hw, hlength, hfit, Outcome.ret_bind]
    · cases k with
      | zero =>
        obtain rfl := Option.some.inj hseg
        exact ⟨fun j hj => CString.strncpy_char hj hj, CString.strncpy_of_disjoint (by omega)⟩
      | succ k => cases hseg
  | comma c w rest hw ih =>
    have hc := ne_comma_of_pieces hne
    rw [List.splitOn_append_cons_self_of_not_mem (by simp [hc, hw])] at hne hlen hroom ⊢
    rw [List.dropLast_cons_of_ne_nil (List.splitOn_ne_nil _ _)] at hne
    rw [List.length_cons] at hroom
    have hseg0 := hlen _ List.mem_cons_self
    have hi : i < maxMemIpInGroup := by omega
    have hfit := putPiece_segment prior hi hseg0 (',' :: rest)
    have hpieces : i + 1 + (rest.splitOn ',').length ≤ maxMemIpInGroup := by omega
    obtain ⟨i', ipList, hloop, hrows⟩ := ih
      (strncpy prior (32 * i) (c :: w ++ ',' :: rest) (c :: w).length)
      (fun seg hseg => hne seg (List.mem_cons_of_mem _ hseg))
      (fun seg hseg => hlen seg (List.mem_cons_of_mem _ hseg))
      hpieces
    refine ⟨i', ipList, ?_, fun k seg hseg => ?_⟩
    · have hlength : 0 + 1 + w.length = (c :: w).length := by
        rw [List.length_cons]
        omega
      rw [splitLoop_comma hw, hlength, hfit, Outcome.ret_bind, hloop]
    · cases k with
      | zero =>
        obtain rfl := Option.some.inj hseg
        constructor
        · intro j hj
          rw [splitLoop_before hloop (by omega), Nat.add_zero, CString.strncpy_char hj
            (by rw [List.length_append]; omega), List.getElem_append_left hj]
        · rw [splitLoop_before hloop (by omega), CString.strncpy_of_disjoint (by omega)]
      | succ k =>
        obtain ⟨hchars, hbehind⟩ := hrows k seg hseg
        have hnext : i + (k + 1) = i + 1 + k := by omega
        rw [hnext]
        refine ⟨hchars, hbehind.trans (CString.strncpy_of_disjoint ?_)⟩
        omega

/-- The rows hold the segments exactly where no segment but the last is empty and the character
behind the place of each was zero already. -/
theorem rows_hold_iff {optarg : List Char} (hsize : optarg.length < 2048)
    (hnum : multiRangeNum optarg ≤ maxMemIpInGroup)
    (hlen : ∀ seg ∈ optarg.splitOn ',', seg.length < 32) (prior : Nat → Char) :
    RowsHold optarg prior ↔ (∀ seg ∈ (optarg.splitOn ',').dropLast, seg ≠ []) ∧
      ∀ k seg, (optarg.splitOn ',')[k]? = some seg → prior (32 * k + seg.length) = nul := by
  have hroom : 0 + (optarg.splitOn ',').length ≤ maxMemIpInGroup := by
    rwa [Nat.zero_add, CommandLine.length_splitOn]
  have hjoin : ∀ i ipList, joinOption optarg prior = .ret (multiRangeNum optarg, i, ipList) ↔
      splitLoop optarg optarg 0 0 prior = .ret (i, ipList) := by
    intro i ipList
    rw [joinOption, if_neg (by omega)]
    cases splitLoop optarg optarg 0 0 prior with
    | ret r => simp [Prod.ext_iff]
    | hang => simp
    | fault => simp
  unfold RowsHold
  simp only [hjoin]
  constructor
  · intro ⟨i, ipList, hloop, hrows⟩
    have hne := ne_nil_of_rows hloop (by simpa using hrows)
    refine ⟨hne, fun k seg hseg => ?_⟩
    obtain ⟨_, _, hloop', hrows'⟩ := splitLoop_rows prior hne hlen hroom
    rw [hloop] at hloop'
    obtain ⟨_, rfl⟩ := Prod.mk.inj (Outcome.ret.inj hloop')
    have hbehind := (hrows' k seg hseg).2
    rw [Nat.zero_add] at hbehind
    rw [← hbehind, (hrows k seg hseg).zero]
  · intro ⟨hne, hzero⟩
    obtain ⟨i, ipList, hloop, hrows⟩ := splitLoop_rows prior hne hlen hroom
    simp only [Nat.zero_add] at hrows
    refine ⟨i, ipList, hloop, fun k seg hseg => ⟨(hrows k seg hseg).1, ?_⟩⟩
    rw [(hrows k seg hseg).2, hzero k seg hseg]

/-- Two members, and an array that is zero. -/
theorem rows_hold_two : RowsHold "10.0.0.1,10.0.0.2".toList fun _ => nul :=
  (rows_hold_iff (by decide) (by decide) (by decide) _).mpr ⟨by decide, fun _ _ _ => rfl⟩

/-- One member, and an array that holds something else. -/
theorem not_rows_hold : ¬ ∀ (optarg : List Char) (prior : Nat → Char), optarg.length < 2048 →
    multiRangeNum optarg ≤ maxMemIpInGroup → (∀ seg ∈ optarg.splitOn ',', seg.length < 32) →
    RowsHold optarg prior := by
  intro hall
  have hsize : "10.0.0.1".toList.length < 2048 := by decide
  have hnum : multiRangeNum "10.0.0.1".toList ≤ maxMemIpInGroup := by decide
  have hlen : ∀ seg ∈ "10.0.0.1".toList.splitOn ',', seg.length < 32 := by decide
  have hzero := ((rows_hold_iff hsize hnum hlen fun _ => 'x').mp
    (hall _ _ hsize hnum hlen)).2 0 "10.0.0.1".toList (by decide)
  exact absurd hzero (by decide)

end MulticastProxy.LinuxServer
