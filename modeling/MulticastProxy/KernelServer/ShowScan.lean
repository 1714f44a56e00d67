import MulticastProxy.KernelServer.FreeSlot
import MulticastProxy.Library.Trace

/-!
# Kernel server: SHOW while the table changes (`get_all_multi_grp`)

SHOW goes through the table without the lock that the other operations take. A deletion moves the
last node of a bucket into the hole, which the scan may have passed.
-/

namespace MulticastProxy.KernelServer

set_option autoImplicit false

/-- A scan: the cell it reads next, bucket `i` and row `j`, and the stores it has made into
`ip_list`, in order. -/
structure Show where
  table : State
  i : Nat
  j : Nat
  stored : List UInt32

def Show.start (s : State) : Show := ⟨s, 0, 0, []⟩

def Show.Done (c : Show) : Prop := multiGrpBucket ≤ c.i

/-- What `ip_list` holds of the stores; the later ones are behind its end. -/
def Show.ipList (c : Show) : List UInt32 := c.stored.take multiVmMax

/-- The body of the inner loop, with the step to the next cell. -/
def Show.readCell (c : Show) : Show :=
  if (c.table.multiGrp c.i c.j).created = false then { c with i := c.i + 1, j := 0 }
  else
    let stored := c.stored ++ [(c.table.multiGrp c.i c.j).multiIp]
    if c.j + 1 < multiGrpDepth then { c with j := c.j + 1, stored }
    else { c with i := c.i + 1, j := 0, stored }

inductive ShowAct where
  | read
  | command (msg : NlMessage)

section
variable (jhash1word : UInt32 → UInt32 → UInt32)

def Show.next (c : Show) : ShowAct → Option Show
  | .read => if c.i < multiGrpBucket then some c.readCell else none
  | .command msg => (commandNext jhash1word c.table msg).map fun s => { c with table := s }

def Show.Live (g : UInt32) (c : Show) : Prop :=
  (rawLookupMultiNode jhash1word c.table g).isSome = true

/-- A deletion does not pull the cell of `g` back: not both is the deleted cell behind the scan in
the bucket of `g`, and that of `g` the last of it and ahead. The cell of `g` is read while there is
room in `ip_list`. -/
def KeepsAhead (g : UInt32) (c : Show) : ShowAct → Prop
  | .read => mulitHashKey jhash1word g multiGrpBucket = c.i →
      rawLookupMultiNode jhash1word c.table g = some c.j → c.stored.length < multiVmMax
  | .command (.serviceDel service) => ∀ rowDel row,
      mulitHashKey jhash1word service.multiIp multiGrpBucket = c.i →
      mulitHashKey jhash1word g multiGrpBucket = c.i →
      rawLookupMultiNode jhash1word c.table service.multiIp = some rowDel →
      rawLookupMultiNode jhash1word c.table g = some row →
      rowDel < c.j → c.j ≤ row → (c.table.multiGrp c.i (row + 1)).created = true
  | .command _ => True

end

/-- The cell is still to be read. -/
def Show.Unread (c : Show) (b row : Nat) : Prop := c.i < b ∨ c.i = b ∧ c.j ≤ row

variable {jhash1word : UInt32 → UInt32 → UInt32}

/-! ## Where a command leaves the cells -/

/-- Live cells stay where they are, with their addresses. -/
def CellsStay (s s' : State) : Prop :=
  ∀ b i, (s.multiGrp b i).created = true →
    (s'.multiGrp b i).created = true ∧ (s'.multiGrp b i).multiIp = (s.multiGrp b i).multiIp

theorem CellsStay.refl (s : State) : CellsStay s s := fun _ _ hl => ⟨hl, rfl⟩

theorem CellsStay.put {s s' : State} {b i : Nat} {node : MultiNode}
    (hs' : s'.multiGrp = BucketLayout.put s.multiGrp b i node)
    (hnode : (s.multiGrp b i).created = true →
      node.created = true ∧ node.multiIp = (s.multiGrp b i).multiIp) : CellsStay s s' := by
  intro b' i' hl
  rw [hs', BucketLayout.put_apply]
  split
  · rename_i hcell
    obtain ⟨rfl, rfl⟩ := hcell
    exact hnode hl
  · exact ⟨hl, rfl⟩

theorem CellsStay.lookup {s s' : State} (h : CellsStay s s') (wf : WellFormed jhash1word s)
    (wf' : WellFormed jhash1word s') {g : UInt32} {row : Nat}
    (hrow : rawLookupMultiNode jhash1word s g = some row) :
    rawLookupMultiNode jhash1word s' g = some row := by
  obtain ⟨hl, hip⟩ := wf.lookup_iff.mp hrow
  obtain ⟨hl', hip'⟩ := h _ _ hl
  exact wf'.lookup_iff.mpr ⟨hl', hip'.trans hip⟩

theorem extendNode_cellsStay {s s' : State} {b row : Nat} {ipList : Nat → UInt32} {ipNum : Nat}
    {code : Int} (h : extendNode s b row ipList ipNum = .ret (code, s')) : CellsStay s s' := by
  obtain ⟨_, _, _, _, _, rfl⟩ := extendNode_ret h
  exact .put rfl fun hl => ⟨hl, rfl⟩

theorem addMultiNode_cellsStay {s s' : State} {g : UInt32} {ipList : Nat → UInt32} {ipNum : Nat}
    {code : Int} (h : addMultiNode jhash1word s g ipList ipNum = .ret (code, s')) :
    CellsStay s s' := by
  cases hrow : rawLookupMultiNode jhash1word s g with
  | some row =>
    rw [addMultiNode_of_lookup hrow] at h
    exact extendNode_cellsStay h
  | none =>
    unfold addMultiNode at h
    simp only [hrow] at h
    split at h
    · obtain ⟨_, rfl⟩ := Prod.mk.inj (Outcome.ret.inj h)
      exact .refl s
    · split at h
      · simp at h
      · obtain ⟨_, rfl⟩ := Prod.mk.inj (Outcome.ret.inj h)
        exact fun _ _ hl => ⟨hl, rfl⟩
      · rename_i i hsearch
        obtain ⟨⟨ret, multiVm, cnt⟩, _, hret⟩ := Outcome.bind_eq_ret_iff.mp h
        obtain ⟨_, rfl⟩ := Prod.mk.inj (Outcome.ret.inj hret)
        refine .put rfl fun hl => ?_
        rcases searchCell s (mulitHashKey jhash1word g multiGrpBucket) with
          ⟨r, _, hs, hfree, _⟩ | ⟨hs, _⟩
        · obtain rfl : i = r := by
            simpa using hsearch.symm.trans hs
          exact absurd (hfree.symm.trans hl) Bool.false_ne_true
        · exact absurd (hsearch.symm.trans hs) (by simp)

theorem vmQuitFromMultiGrp_cellsStay (s : State) (g : UInt32) (ipList : Nat → UInt32)
    (ipNum : Nat) : CellsStay s (vmQuitFromMultiGrp jhash1word s g ipList ipNum).2 := by
  unfold vmQuitFromMultiGrp
  cases rawLookupMultiNode jhash1word s g with
  | none => exact .refl s
  | some row => exact .put rfl fun hl => ⟨hl, rfl⟩

/-- Only DEL moves a cell, and only DEL and CLEAR free one. -/
theorem commandNext_cellsStay {s s' : State} {msg : NlMessage}
    (h : commandNext jhash1word s msg = some s')
    (hdel : ∀ service, msg ≠ .serviceDel service) (hclear : msg ≠ .serverClear) :
    CellsStay s s' := by
  obtain ⟨code, hret⟩ := commandNext_eq_some.mp h
  cases msg with
  | serviceAdd service =>
    simp only [tmccRcvSkb, multiNlNodeAdd] at hret
    split at hret
    · exact addMultiNode_cellsStay hret
    · split at hret
      · rw [← show _ = s' from congrArg Prod.snd (Outcome.ret.inj hret)]
        exact vmQuitFromMultiGrp_cellsStay s _ _ _
      · obtain ⟨_, rfl⟩ := Prod.mk.inj (Outcome.ret.inj hret)
        exact .refl s
  | serviceDel service => exact absurd rfl (hdel service)
  | serverClear => exact absurd rfl hclear
  | serviceCheckUpdate service =>
    simp only [tmccRcvSkb, multiNlVmListAppend] at hret
    obtain ⟨⟨ret, t⟩, happ, hret⟩ := Outcome.bind_eq_ret_iff.mp hret
    obtain ⟨_, rfl⟩ := Prod.mk.inj (Outcome.ret.inj hret)
    cases hrow : rawLookupMultiNode jhash1word s service.multiIp with
    | none =>
      rw [appendVmIpList_of_absent hrow] at happ
      obtain ⟨_, rfl⟩ := Prod.mk.inj (Outcome.ret.inj happ)
      exact .refl s
    | some row =>
      rw [appendVmIpList_of_lookup hrow] at happ
      exact extendNode_cellsStay happ

theorem delMultiNode_wellFormed {s : State} (wf : WellFormed jhash1word s) (g : UInt32) :
    WellFormed jhash1word (delMultiNode jhash1word s g).2 := by
  rcases delMultiNode_cases wf g with ⟨_, hd⟩ | ⟨node, t, hd, gone⟩
  · rw [hd]
    exact wf
  · rw [hd]
    exact gone.wf

/-- The deletion of another group moves the cell of `g` only from the last place of the bucket into
the hole. -/
theorem delMultiNode_row {s : State} (wf : WellFormed jhash1word s) {g g' : UInt32}
    {row rowDel : Nat} (hrow : rawLookupMultiNode jhash1word s g = some row)
    (hdel : rawLookupMultiNode jhash1word s g' = some rowDel) (hne : g ≠ g') :
    rawLookupMultiNode jhash1word (delMultiNode jhash1word s g').2 g =
      if mulitHashKey jhash1word g' multiGrpBucket = mulitHashKey jhash1word g multiGrpBucket ∧
          rowDel < row ∧
          (s.multiGrp (mulitHashKey jhash1word g multiGrpBucket) (row + 1)).created = false
      then some rowDel else some row := by
  have wf' := delMultiNode_wellFormed wf g'
  obtain ⟨hl, hip⟩ := wf.lookup_iff.mp hrow
  obtain ⟨hlDel, hipDel⟩ := wf.lookup_iff.mp hdel
  generalize hb : mulitHashKey jhash1word g multiGrpBucket = b at hl hip ⊢
  generalize hbDel : mulitHashKey jhash1word g' multiGrpBucket = bDel at hlDel hipDel ⊢
  have hcells : (delMultiNode jhash1word s g').2.multiGrp = (layout jhash1word).remove
      (fun _ nodeMove => nodeMove) (fun _ => .zero) s.multiGrp bDel rowDel := by
    unfold delMultiNode
    simp only [hdel, hbDel]
  have hother : ¬(b = bDel ∧ row = rowDel) := by
    rintro ⟨rfl, rfl⟩
    exact hne (hip.symm.trans hipDel)
  rcases BucketLayout.WellFormed.remove_cases (L := layout jhash1word)
    (fun _ nodeMove => nodeMove) (fun _ => MultiNode.zero) wf hlDel with
    ⟨j, hj, hlj, hend, hremove⟩ | ⟨hend, hremove⟩
  · rw [hremove] at hcells
    by_cases hmoved : b = bDel ∧ row = j
    · obtain ⟨rfl, rfl⟩ := hmoved
      rw [if_pos ⟨rfl, hj, hend⟩, wf'.lookup_iff, hb, hcells, BucketLayout.put_row_ne _ _ _ hj.ne,
        BucketLayout.put_same]
      exact ⟨hl, hip⟩
    · rw [if_neg, wf'.lookup_iff, hb, hcells, BucketLayout.put_apply, if_neg hmoved,
        BucketLayout.put_apply, if_neg hother]
      · exact ⟨hl, hip⟩
      · rintro ⟨rfl, _, hlast⟩
        -- the last live cell of the bucket is `j`
        rcases Nat.lt_trichotomy row j with hlt | heq | hgt
        · have hprefix := BucketLayout.WellFormed.prefix_closed wf (Nat.succ_le_of_lt hlt) hlj
          exact Bool.false_ne_true (hlast.symm.trans hprefix)
        · exact hmoved ⟨rfl, heq⟩
        · have hprefix := BucketLayout.WellFormed.prefix_closed wf (Nat.succ_le_of_lt hgt) hl
          exact Bool.false_ne_true (hend.symm.trans hprefix)
  · rw [hremove] at hcells
    rw [if_neg, wf'.lookup_iff, hb, hcells, BucketLayout.put_apply, if_neg hother]
    · exact ⟨hl, hip⟩
    · rintro ⟨rfl, hlt, _⟩
      have hprefix := BucketLayout.WellFormed.prefix_closed wf (Nat.succ_le_of_lt hlt) hl
      exact Bool.false_ne_true (hend.symm.trans hprefix)

/-! ## One step of the scan -/

theorem count_take_concat_self {l : List UInt32} {g : UInt32} {n : Nat} (hg : g ∉ l)
    (hlen : l.length < n) : ((l ++ [g]).take n).count g = 1 := by
  rw [List.take_of_length_le (by simp; omega), List.count_append, List.count_eq_zero_of_not_mem hg]
  simp

theorem count_take_concat_ne {l : List UInt32} {g x : UInt32} (hx : x ≠ g) (n : Nat) :
    ((l ++ [x]).take n).count g = (l.take n).count g := by
  rw [List.take_append, List.count_append, Nat.add_eq_left]
  apply List.count_eq_zero_of_not_mem
  intro hmem
  exact hx (List.mem_singleton.mp (List.mem_of_mem_take hmem)).symm

section
variable {c : Show} {g : UInt32} {row : Nat} (wf : WellFormed jhash1word c.table)
variable (hrow : rawLookupMultiNode jhash1word c.table g = some row)
include wf hrow

theorem Show.readCell_self (hi : mulitHashKey jhash1word g multiGrpBucket = c.i) (hj : row = c.j) :
    c.readCell.stored = c.stored ++ [g] ∧ ¬ c.readCell.Unread c.i row := by
  obtain ⟨hl, hip⟩ := wf.lookup_iff.mp hrow
  rw [hi, hj] at hl hip
  unfold Show.readCell Show.Unread
  rw [hl, hip, hj]
  split
  · rename_i hdead
    exact absurd hdead (by decide)
  · split
    · exact ⟨rfl, by simp⟩
    · exact ⟨rfl, by simp⟩

/-- The read of another cell leaves the group read or unread, as it was. -/
theorem Show.readCell_other
    (hother : ¬(mulitHashKey jhash1word g multiGrpBucket = c.i ∧ row = c.j)) :
    (c.readCell.stored = c.stored ∨ ∃ x ≠ g, c.readCell.stored = c.stored ++ [x]) ∧
    (c.readCell.Unread (mulitHashKey jhash1word g multiGrpBucket) row ↔
      c.Unread (mulitHashKey jhash1word g multiGrpBucket) row) := by
  obtain ⟨hl, hip⟩ := wf.lookup_iff.mp hrow
  have hdepth : row < multiGrpDepth := BucketLayout.WellFormed.row_lt wf hl
  unfold Show.readCell Show.Unread
  split
  · rename_i hdead
    refine ⟨Or.inl rfl, ?_⟩
    -- the live cells of a bucket lie before the first free one
    have hpast : ¬(c.i = mulitHashKey jhash1word g multiGrpBucket ∧ c.j ≤ row) := by
      rintro ⟨hi, hj⟩
      have hlive := BucketLayout.WellFormed.prefix_closed wf hj hl
      rw [← hi] at hlive
      exact Bool.false_ne_true (hdead.symm.trans hlive)
    simp only
    omega
  · rename_i hlive
    have hlive : (c.table.multiGrp c.i c.j).created = true := by simpa using hlive
    have hx : (c.table.multiGrp c.i c.j).multiIp ≠ g := by
      intro hx
      have hi : mulitHashKey jhash1word (c.table.multiGrp c.i c.j).multiIp multiGrpBucket = c.i :=
        wf.home c.i c.j hlive
      rw [hx] at hi
      have hfind : rawLookupMultiNode jhash1word c.table g = some c.j :=
        wf.lookup_iff.mpr (by rw [hi]; exact ⟨hlive, hx⟩)
      exact hother ⟨hi, Option.some.inj (hrow.symm.trans hfind)⟩
    split
    · refine ⟨Or.inr ⟨_, hx, rfl⟩, ?_⟩
      simp only
      omega
    · refine ⟨Or.inr ⟨_, hx, rfl⟩, ?_⟩
      simp only
      omega

/-- A deletion pulls the cell back where it is the last of its bucket and the deleted one lies before
it. -/
theorem Show.delete_row {service : TmccNlServiceSt} {rowDel : Nat}
    (hfound : rawLookupMultiNode jhash1word c.table service.multiIp = some rowDel)
    (hne : g ≠ service.multiIp) :
    ∃ row', rawLookupMultiNode jhash1word (delMultiNode jhash1word c.table service.multiIp).2 g =
        some row' ∧ row' ≤ row ∧
      (KeepsAhead jhash1word g c (.command (.serviceDel service)) ↔
        (c.Unread (mulitHashKey jhash1word g multiGrpBucket) row →
          c.Unread (mulitHashKey jhash1word g multiGrpBucket) row')) := by
  rw [delMultiNode_row wf hrow hfound hne]
  split
  · rename_i hmoved
    obtain ⟨hbucket, hlt, hlast⟩ := hmoved
    refine ⟨rowDel, rfl, hlt.le, ?_⟩
    constructor
    · intro hkeeps hunread
      rcases hunread with hi | ⟨hi, hj⟩
      · exact Or.inl hi
      · refine Or.inr ⟨hi, ?_⟩
        by_contra hbehind
        have hnext :=
          hkeeps rowDel row (hbucket.trans hi.symm) hi.symm hfound hrow (by omega) hj
        rw [hi] at hnext
        exact Bool.false_ne_true (hlast.symm.trans hnext)
    · intro hmono rowDel' row' _ hi hfound' hrow' hbehind hahead
      obtain rfl := Option.some.inj (hfound.symm.trans hfound')
      obtain rfl := Option.some.inj (hrow.symm.trans hrow')
      rcases hmono (Or.inr ⟨hi.symm, hahead⟩) with hlt' | ⟨_, hle⟩
      · omega
      · omega
  · rename_i hstays
    refine ⟨row, rfl, Nat.le_refl row, iff_of_true ?_ id⟩
    intro rowDel' row' hbucket hi hfound' hrow' hbehind hahead
    obtain rfl := Option.some.inj (hfound.symm.trans hfound')
    obtain rfl := Option.some.inj (hrow.symm.trans hrow')
    by_contra hlast
    rw [← hi] at hlast
    exact hstays ⟨hbucket.trans hi.symm, by omega, by simpa using hlast⟩

/-- A command that leaves the group alive may pull its cell back, and does so exactly where it is
not kept ahead. -/
theorem Show.command_row {msg : NlMessage} {s' : State}
    (h : commandNext jhash1word c.table msg = some s')
    (hlive : (rawLookupMultiNode jhash1word s' g).isSome = true) :
    ∃ row', rawLookupMultiNode jhash1word s' g = some row' ∧ row' ≤ row ∧
      (KeepsAhead jhash1word g c (.command msg) ↔
        (c.Unread (mulitHashKey jhash1word g multiGrpBucket) row →
          c.Unread (mulitHashKey jhash1word g multiGrpBucket) row')) := by
  obtain ⟨code, hret⟩ := commandNext_eq_some.mp h
  have wf' := tmccRcvSkb_wellFormed wf hret
  have hstay : (∀ service, msg ≠ .serviceDel service) → msg ≠ .serverClear →
      rawLookupMultiNode jhash1word s' g = some row := fun hdel hclear =>
    (commandNext_cellsStay h hdel hclear).lookup wf wf' hrow
  cases msg with
  | serviceAdd service =>
    exact ⟨row, hstay (by simp) (by simp), Nat.le_refl row, iff_of_true trivial id⟩
  | serviceCheckUpdate service =>
    exact ⟨row, hstay (by simp) (by simp), Nat.le_refl row, iff_of_true trivial id⟩
  | serverClear =>
    simp only [tmccRcvSkb, multiNlNodeClear] at hret
    obtain ⟨_, rfl⟩ := Prod.mk.inj (Outcome.ret.inj hret)
    rw [nodeOf_eq_none_iff.mp (nodeOf_clearMultiGroup wf g)] at hlive
    exact absurd hlive (by decide)
  | serviceDel service =>
    simp only [tmccRcvSkb, multiNlNodeDelete] at hret
    obtain rfl : (delMultiNode jhash1word c.table service.multiIp).2 = s' :=
      congrArg Prod.snd (Outcome.ret.inj hret)
    rcases delMultiNode_cases wf service.multiIp with ⟨hnone, hd⟩ | ⟨node, t, hd, gone⟩
    · rw [hd]
      refine ⟨row, hrow, Nat.le_refl row, iff_of_true (fun rowDel _ _ _ hfound => ?_) id⟩
      rw [nodeOf_eq_none_iff.mp hnone] at hfound
      cases hfound
    · have hne : g ≠ service.multiIp := by
        rintro rfl
        rw [hd, nodeOf_eq_none_iff.mp (by rw [gone.nodes, Function.update_self])] at hlive
        exact absurd hlive (by decide)
      obtain ⟨rowDel, hfound, _⟩ := exists_lookup gone.found
      exact Show.delete_row wf hrow hfound hne

end

/-! ## Whole scans -/

/-- The group is in the table, and is stored where it has been read. -/
structure OnTrack (jhash1word : UInt32 → UInt32 → UInt32) (g : UInt32) (c : Show) (row : Nat) :
    Prop where
  wf : WellFormed jhash1word c.table
  found : rawLookupMultiNode jhash1word c.table g = some row
  ahead : c.Unread (mulitHashKey jhash1word g multiGrpBucket) row → g ∉ c.stored
  behind : ¬ c.Unread (mulitHashKey jhash1word g multiGrpBucket) row → c.ipList.count g = 1

/-- The group is in the table, was not stored and will not be read. -/
structure Missed (jhash1word : UInt32 → UInt32 → UInt32) (g : UInt32) (c : Show) (row : Nat) :
    Prop where
  wf : WellFormed jhash1word c.table
  found : rawLookupMultiNode jhash1word c.table g = some row
  behind : ¬ c.Unread (mulitHashKey jhash1word g multiGrpBucket) row
  absent : c.ipList.count g = 0

theorem Show.readCell_table (c : Show) : c.readCell.table = c.table := by
  unfold Show.readCell
  split
  · rfl
  · split <;> rfl

theorem Show.next_read {c c' : Show} (h : c.next jhash1word .read = some c') :
    c.i < multiGrpBucket ∧ c' = c.readCell := by
  simp only [Show.next] at h
  split at h
  · rename_i hi
    exact ⟨hi, (Option.some.inj h).symm⟩
  · simp at h

theorem Show.next_command {c c' : Show} {msg : NlMessage}
    (h : c.next jhash1word (.command msg) = some c') :
    ∃ s', commandNext jhash1word c.table msg = some s' ∧ c' = { c with table := s' } := by
  obtain ⟨s', hs', rfl⟩ := Option.map_eq_some_iff.mp h
  exact ⟨s', hs', rfl⟩

/-- Storing another address changes neither whether the group is stored nor how often. -/
theorem Show.stored_other {c c' : Show} {g : UInt32}
    (h : c'.stored = c.stored ∨ ∃ x ≠ g, c'.stored = c.stored ++ [x]) :
    (g ∈ c'.stored ↔ g ∈ c.stored) ∧ c'.ipList.count g = c.ipList.count g := by
  unfold Show.ipList
  rcases h with h | ⟨x, hx, h⟩
  · rw [h]
    exact ⟨Iff.rfl, rfl⟩
  · rw [h, count_take_concat_ne hx]
    refine ⟨?_, rfl⟩
    simp [hx.symm]

section
variable {g : UInt32} {c c' : Show} {act : ShowAct} {row : Nat}

theorem OnTrack.next (h : OnTrack jhash1word g c row) (hlive : c'.Live jhash1word g)
    (hnext : c.next jhash1word act = some c') :
    (KeepsAhead jhash1word g c act → ∃ row', OnTrack jhash1word g c' row') ∧
    (¬ KeepsAhead jhash1word g c act → ∃ row', Missed jhash1word g c' row') := by
  cases act with
  | read =>
    obtain ⟨_, rfl⟩ := Show.next_read hnext
    have hfound : rawLookupMultiNode jhash1word c.readCell.table g = some row := by
      rw [c.readCell_table, h.found]
    by_cases hself : mulitHashKey jhash1word g multiGrpBucket = c.i ∧ row = c.j
    · obtain ⟨hi, rfl⟩ := hself
      obtain ⟨hstored, hpast⟩ := Show.readCell_self h.wf h.found hi rfl
      have hnew : g ∉ c.stored := h.ahead (Or.inr ⟨hi.symm, Nat.le_refl _⟩)
      rw [← hi] at hpast
      constructor
      · intro hkeeps
        refine ⟨c.j, c.readCell_table ▸ h.wf, hfound, fun hu => absurd hu hpast, fun _ => ?_⟩
        rw [Show.ipList, hstored]
        exact count_take_concat_self hnew (hkeeps hi h.found)
      · intro hfull
        refine ⟨c.j, c.readCell_table ▸ h.wf, hfound, hpast, ?_⟩
        have hlen : multiVmMax ≤ c.stored.length := by
          by_contra hlt
          exact hfull fun _ _ => by omega
        rw [Show.ipList, hstored, List.take_append_of_le_length hlen]
        exact List.count_eq_zero_of_not_mem fun hmem => hnew (List.mem_of_mem_take hmem)
    · obtain ⟨hstored, hunread⟩ := Show.readCell_other h.wf h.found hself
      obtain ⟨hmem, hcount⟩ := Show.stored_other hstored
      constructor
      · intro _
        refine ⟨row, c.readCell_table ▸ h.wf, hfound, ?_, ?_⟩
        · rw [hunread, hmem]
          exact h.ahead
        · rw [hunread, hcount]
          exact h.behind
      · intro hnot
        refine absurd (fun hi hj => ?_) hnot
        exact absurd ⟨hi, Option.some.inj (h.found.symm.trans hj)⟩ hself
  | command msg =>
    obtain ⟨s', hs', rfl⟩ := Show.next_command hnext
    obtain ⟨row', hrow', hle, hkeeps⟩ := Show.command_row h.wf h.found hs' hlive
    obtain ⟨code, hret⟩ := commandNext_eq_some.mp hs'
    have wf' := tmccRcvSkb_wellFormed h.wf hret
    have hback : c.Unread (mulitHashKey jhash1word g multiGrpBucket) row' →
        c.Unread (mulitHashKey jhash1word g multiGrpBucket) row := by
      rintro (hi | ⟨hi, hj⟩)
      · exact Or.inl hi
      · exact Or.inr ⟨hi, by omega⟩
    rw [hkeeps]
    constructor
    · intro hmono
      exact ⟨row', wf', hrow', fun hu => h.ahead (hback hu), fun hu => h.behind (mt hmono hu)⟩
    · intro hnot
      obtain ⟨hahead, hbehind⟩ := Classical.not_imp.mp hnot
      refine ⟨row', wf', hrow', hbehind, ?_⟩
      exact List.count_eq_zero_of_not_mem fun hmem => h.ahead hahead (List.mem_of_mem_take hmem)

theorem Missed.next (h : Missed jhash1word g c row) (hlive : c'.Live jhash1word g)
    (hnext : c.next jhash1word act = some c') : ∃ row', Missed jhash1word g c' row' := by
  cases act with
  | read =>
    obtain ⟨_, rfl⟩ := Show.next_read hnext
    have hother : ¬(mulitHashKey jhash1word g multiGrpBucket = c.i ∧ row = c.j) := by
      rintro ⟨hi, rfl⟩
      exact h.behind (Or.inr ⟨hi.symm, Nat.le_refl _⟩)
    obtain ⟨hstored, hunread⟩ := Show.readCell_other h.wf h.found hother
    refine ⟨row, c.readCell_table ▸ h.wf, ?_, ?_, ?_⟩
    · rw [c.readCell_table, h.found]
    · rw [hunread]
      exact h.behind
    · rw [(Show.stored_other hstored).2, h.absent]
  | command msg =>
    obtain ⟨s', hs', rfl⟩ := Show.next_command hnext
    obtain ⟨row', hrow', hle, _⟩ := Show.command_row h.wf h.found hs' hlive
    obtain ⟨code, hret⟩ := commandNext_eq_some.mp hs'
    refine ⟨row', tmccRcvSkb_wellFormed h.wf hret, hrow', ?_, h.absent⟩
    rintro (hi | ⟨hi, hj⟩)
    · exact h.behind (Or.inl hi)
    · exact h.behind (Or.inr ⟨hi, by simp only at hj; omega⟩)

theorem Show.Done.read (hdone : c.Done) :
    ¬ c.Unread (mulitHashKey jhash1word g multiGrpBucket) row := by
  have hlt : mulitHashKey jhash1word g multiGrpBucket < multiGrpBucket := mulitHashKey_lt g
  unfold Show.Done at hdone
  rintro (hi | ⟨hi, _⟩)
  · omega
  · omega

end

theorem onTrack_start {s : State} (wf : WellFormed jhash1word s) {g : UInt32} {row : Nat}
    (hrow : rawLookupMultiNode jhash1word s g = some row) :
    OnTrack jhash1word g (.start s) row := by
  refine ⟨wf, hrow, fun _ => List.not_mem_nil, fun hread => absurd ?_ hread⟩
  rcases Nat.eq_zero_or_pos (mulitHashKey jhash1word g multiGrpBucket) with hzero | hpos
  · exact Or.inr ⟨hzero.symm, Nat.zero_le row⟩
  · exact Or.inl hpos

/-- A group that is live throughout is stored where every step keeps it ahead, and missed
elsewhere. -/
theorem scan_cases {s : State} (wf : WellFormed jhash1word s) {acts : List ShowAct} {c : Show}
    (hexec : Trace.exec (Show.next jhash1word) (.start s) acts = some c) {g : UInt32}
    (hlive : Trace.Throughout (Show.next jhash1word) (Show.Live jhash1word g) (.start s) acts) :
    Trace.EachStep (Show.next jhash1word) (KeepsAhead jhash1word g) (.start s) acts ∧
        (∃ row, OnTrack jhash1word g c row) ∨
      ¬ Trace.EachStep (Show.next jhash1word) (KeepsAhead jhash1word g) (.start s) acts ∧
        ∃ row, Missed jhash1word g c row := by
  obtain ⟨row, hrow⟩ := Option.isSome_iff_exists.mp hlive.start
  exact Trace.exec_cases (I := fun c => ∃ row, OnTrack jhash1word g c row)
    (M := fun c => ∃ row, Missed jhash1word g c row)
    (fun _ _ _ ⟨_, hs⟩ hl hnext => (hs.next hl hnext).1)
    (fun _ _ _ ⟨_, hs⟩ hl hnext => (hs.next hl hnext).2)
    (fun _ _ _ ⟨_, hs⟩ hl hnext => hs.next hl hnext) ⟨row, onTrack_start wf hrow⟩ hlive hexec

theorem scan_once_iff {s : State} (wf : WellFormed jhash1word s) {acts : List ShowAct} {c : Show}
    (hexec : Trace.exec (Show.next jhash1word) (.start s) acts = some c) (hdone : c.Done)
    {g : UInt32}
    (hlive : Trace.Throughout (Show.next jhash1word) (Show.Live jhash1word g) (.start s) acts) :
    c.ipList.count g = 1 ↔
      Trace.EachStep (Show.next jhash1word) (KeepsAhead jhash1word g) (.start s) acts := by
  rcases scan_cases wf hexec hlive with ⟨heach, _, hon⟩ | ⟨heach, _, hmiss⟩
  · exact iff_of_true (hon.behind hdone.read) heach
  · refine iff_of_false (fun hone => ?_) heach
    rw [hmiss.absent] at hone
    exact absurd hone (by decide)

/-- In every run of a scan and of commands between its reads, a group that is live throughout is
written to `ip_list` exactly once where every step keeps it ahead, and only there. -/
theorem show_each_once_iff {s : State} (h : Reachable jhash1word (fun _ _ => True) s)
    {acts : List ShowAct} {c : Show}
    (hexec : Trace.exec (Show.next jhash1word) (.start s) acts = some c) (hdone : c.Done)
    {g : UInt32}
    (hlive : Trace.Throughout (Show.next jhash1word) (Show.Live jhash1word g) (.start s) acts) :
    c.ipList.count g = 1 ↔
      Trace.EachStep (Show.next jhash1word) (KeepsAhead jhash1word g) (.start s) acts :=
  scan_once_iff h.wellFormed hexec hdone hlive

/-! ## Reads in a row -/

/-- Reads alone lead from one scan to the other. -/
def Reads (jhash1word : UInt32 → UInt32 → UInt32) (c c' : Show) : Prop :=
  ∃ n, Trace.exec (Show.next jhash1word) c (List.replicate n .read) = some c'

theorem Reads.refl (c : Show) : Reads jhash1word c c := ⟨0, rfl⟩

theorem Reads.cons {c c' : Show} (hi : c.i < multiGrpBucket)
    (h : Reads jhash1word c.readCell c') : Reads jhash1word c c' := by
  obtain ⟨n, hn⟩ := h
  refine ⟨n + 1, ?_⟩
  have hnext : c.next jhash1word .read = some c.readCell := if_pos hi
  rw [List.replicate_succ, Trace.exec_cons hnext, hn]

theorem Reads.trans {c c' c'' : Show} (h : Reads jhash1word c c') (h' : Reads jhash1word c' c'') :
    Reads jhash1word c c'' := by
  obtain ⟨n, hn⟩ := h
  obtain ⟨m, hm⟩ := h'
  exact ⟨n + m, by rw [List.replicate_add, Trace.exec_append _ hn, hm]⟩

theorem throughout_reads {P : State → Prop} (n : Nat) {c : Show} (h : P c.table) :
    Trace.Throughout (Show.next jhash1word) (fun c => P c.table) c (List.replicate n .read) := by
  induction n generalizing c with
  | zero => exact h
  | succ n ih =>
    refine ⟨h, fun c' hnext => ih ?_⟩
    obtain ⟨_, rfl⟩ := Show.next_read hnext
    rwa [c.readCell_table]

theorem Reads.table {c c' : Show} (h : Reads jhash1word c c') : c'.table = c.table := by
  obtain ⟨n, hn⟩ := h
  exact (throughout_reads (P := fun s => s = c.table) n rfl).of_exec hn

theorem reads_next_bucket (jhash1word : UInt32 → UInt32 → UInt32) (n : Nat) {c : Show}
    (hi : c.i < multiGrpBucket) (hn : multiGrpDepth ≤ c.j + n) :
    ∃ c', Reads jhash1word c c' ∧ c'.i = c.i + 1 ∧ c'.j = 0 := by
  induction n generalizing c with
  | zero =>
    refine ⟨c.readCell, .cons hi (.refl _), ?_⟩
    unfold Show.readCell
    split
    · exact ⟨rfl, rfl⟩
    · rw [if_neg (by omega)]
      exact ⟨rfl, rfl⟩
  | succ n ih =>
    by_cases hmore : c.readCell.i = c.i ∧ c.readCell.j = c.j + 1
    · obtain ⟨c', hreads, hi', hj'⟩ := ih (c := c.readCell) (by omega) (by omega)
      exact ⟨c', .cons hi hreads, by omega, hj'⟩
    · refine ⟨c.readCell, .cons hi (.refl _), ?_⟩
      revert hmore
      unfold Show.readCell
      split
      · exact fun _ => ⟨rfl, rfl⟩
      · split
        · exact fun hmore => absurd ⟨rfl, rfl⟩ hmore
        · exact fun _ => ⟨rfl, rfl⟩

theorem reads_to_bucket (jhash1word : UInt32 → UInt32 → UInt32) {c : Show} (hj : c.j = 0) {b : Nat}
    (hb : c.i ≤ b) (hlast : b ≤ multiGrpBucket) :
    ∃ c', Reads jhash1word c c' ∧ c'.i = b ∧ c'.j = 0 := by
  induction b, hb using Nat.le_induction with
  | base => exact ⟨c, .refl c, rfl, hj⟩
  | succ b _ ih =>
    obtain ⟨c', hreads, rfl, _⟩ := ih (by omega)
    have hbucket : c'.i < multiGrpBucket := by omega
    obtain ⟨c'', hreads', hi, hj'⟩ := reads_next_bucket jhash1word multiGrpDepth hbucket
      (Nat.le_add_left _ _)
    exact ⟨c'', hreads.trans hreads', hi, hj'⟩

theorem reads_to_end (jhash1word : UInt32 → UInt32 → UInt32) {c : Show}
    (hi : c.i < multiGrpBucket) : ∃ c', Reads jhash1word c c' ∧ c'.Done := by
  obtain ⟨c', hreads, hi', hj'⟩ := reads_next_bucket jhash1word multiGrpDepth hi
    (Nat.le_add_left _ _)
  have hbucket : c'.i ≤ multiGrpBucket := by omega
  obtain ⟨c'', hreads', hend, _⟩ := reads_to_bucket jhash1word hj' hbucket (Nat.le_refl _)
  exact ⟨c'', hreads.trans hreads', hend.ge⟩

theorem reads_rows (jhash1word : UInt32 → UInt32 → UInt32) {c : Show} (hi : c.i < multiGrpBucket)
    (hj : c.j = 0) {m : Nat} (hm : m < multiGrpDepth)
    (hlive : ∀ r < m, (c.table.multiGrp c.i r).created = true) :
    ∃ c', Reads jhash1word c c' ∧ c'.i = c.i ∧ c'.j = m := by
  induction m with
  | zero => exact ⟨c, .refl c, rfl, hj⟩
  | succ m ih =>
    obtain ⟨c', hreads, hi', rfl⟩ := ih (by omega) fun r hr => hlive r (by omega)
    refine ⟨c'.readCell, hreads.trans (.cons (by omega) (.refl _)), ?_⟩
    have hcell := hlive c'.j (Nat.lt_succ_self _)
    rw [← hi', ← hreads.table] at hcell
    unfold Show.readCell
    rw [hcell, if_neg (by decide), if_pos hm]
    exact ⟨hi', rfl⟩

/-! ## A scan without commands, and one with a deletion -/

/-- With one group in the table nothing is stored before it. -/
theorem eachStep_reads_single {g : UInt32} (n : Nat) {c : Show} {row : Nat}
    (h : OnTrack jhash1word g c row) (hstored : ∀ x ∈ c.stored, x = g)
    (hsingle : ∀ b i, (c.table.multiGrp b i).created = true → (c.table.multiGrp b i).multiIp = g) :
    Trace.EachStep (Show.next jhash1word) (KeepsAhead jhash1word g) c
      (List.replicate n .read) := by
  induction n generalizing c row with
  | zero => trivial
  | succ n ih =>
    intro c' hnext
    have hkeeps : KeepsAhead jhash1word g c .read := by
      intro hi hj
      obtain rfl := Option.some.inj (h.found.symm.trans hj)
      have hnew := h.ahead (Or.inr ⟨hi.symm, Nat.le_refl _⟩)
      have hnil : c.stored = [] :=
        List.eq_nil_iff_forall_not_mem.mpr fun x hx => hnew (hstored x hx ▸ hx)
      rw [hnil]
      decide
    have hlive : c'.Live jhash1word g := by
      obtain ⟨_, rfl⟩ := Show.next_read hnext
      rw [Show.Live, c.readCell_table, h.found]
      rfl
    obtain ⟨row', h'⟩ := (h.next hlive hnext).1 hkeeps
    obtain ⟨_, rfl⟩ := Show.next_read hnext
    refine ⟨hkeeps, ih h' ?_ (c.readCell_table ▸ hsingle)⟩
    unfold Show.readCell
    split
    · exact hstored
    · rename_i hl
      have hx := hsingle c.i c.j (by simpa using hl)
      have hall : ∀ x ∈ c.stored ++ [(c.table.multiGrp c.i c.j).multiIp], x = g := by
        intro x hmem
        rcases List.mem_append.mp hmem with hold | hnew
        · exact hstored x hold
        · exact (List.mem_singleton.mp hnew).trans hx
      split
      · exact hall
      · exact hall

theorem show_each_once_single :
    ∃ s acts c, Trace.exec (Show.next (fun _ _ => 0)) (.start s) acts = some c ∧ c.Done ∧
      c.ipList.count 0xE1000001 = 1 := by
  obtain ⟨s, hs⟩ : ∃ s, Holds (fun _ _ => 0) s [0xE1000001] :=
    exists_holds (List.nodup_singleton _) (by decide)
  have wf := hs.reach.wellFormed
  obtain ⟨node, hnode⟩ := Option.ne_none_iff_exists'.mp
    (fun hnone => (hs.node 0xE1000001).mp hnone (List.mem_singleton_self _))
  obtain ⟨row, hfound, _⟩ := exists_lookup hnode
  have hsingle : ∀ b i, (s.multiGrp b i).created = true → (s.multiGrp b i).multiIp = 0xE1000001 := by
    intro b i hl
    by_contra hne
    have hnone := (hs.node _).mpr (fun hmem => hne (List.mem_singleton.mp hmem))
    rw [wf.nodeOf_iff.mpr ⟨b, i, rfl, hl, rfl⟩] at hnone
    cases hnone
  obtain ⟨c, ⟨n, hexec⟩, hdone⟩ := reads_to_end (fun _ _ => 0) (c := .start s)
    (Nat.zero_lt_succ 1023)
  refine ⟨s, _, c, hexec, hdone, (show_each_once_iff hs.reach hexec hdone ?_).mpr ?_⟩
  · exact throughout_reads (P := fun s => (rawLookupMultiNode _ s _).isSome = true) n
      (by rw [Show.start, hfound]; rfl)
  · exact eachStep_reads_single n (onTrack_start wf hfound) (fun x hx => by cases hx) hsingle

/-- The group `x` is read and deleted, and `y`, the last of the bucket, takes its place. -/
theorem exists_missed {s : State} (wf : WellFormed jhash1word s) {x y : UInt32} {rx ry : Nat}
    (hbucket : mulitHashKey jhash1word x multiGrpBucket = mulitHashKey jhash1word y multiGrpBucket)
    (hx : rawLookupMultiNode jhash1word s x = some rx)
    (hy : rawLookupMultiNode jhash1word s y = some ry) (hlt : rx < ry)
    (hlast : (s.multiGrp (mulitHashKey jhash1word y multiGrpBucket) (ry + 1)).created = false) :
    ∃ acts c, Trace.exec (Show.next jhash1word) (.start s) acts = some c ∧ c.Done ∧
      Trace.Throughout (Show.next jhash1word) (Show.Live jhash1word y) (.start s) acts ∧
      c.ipList.count y ≠ 1 := by
  have hB : mulitHashKey jhash1word y multiGrpBucket < multiGrpBucket := mulitHashKey_lt y
  obtain ⟨hly, _⟩ := wf.lookup_iff.mp hy
  have hdepth : ry < multiGrpDepth := BucketLayout.WellFormed.row_lt wf hly
  obtain ⟨c1, hr1, hi1, hj1⟩ := reads_to_bucket jhash1word (c := .start s) rfl
    (Nat.zero_le (mulitHashKey jhash1word y multiGrpBucket)) hB.le
  have ht1 : c1.table = s := hr1.table
  have hrx : rx + 1 < multiGrpDepth := by omega
  obtain ⟨c2, hr2, hi2, hj2⟩ := reads_rows jhash1word (c := c1) (by omega) hj1 hrx
    fun r hr => by
      rw [ht1, hi1]
      exact BucketLayout.WellFormed.prefix_closed wf (by omega) hly
  have ht2 : c2.table = s := hr2.table.trans ht1
  have hne : y ≠ x := by
    rintro rfl
    obtain rfl := Option.some.inj (hx.symm.trans hy)
    exact Nat.lt_irrefl _ hlt
  have hlive : (rawLookupMultiNode jhash1word (delMultiNode jhash1word s x).2 y).isSome = true := by
    rw [delMultiNode_row wf hy hx hne]
    split <;> rfl
  -- the deletion runs when the scan has just read the cell of `x`
  have hnext : c2.next jhash1word (.command (.serviceDel (.ofList 0 x []))) =
      some { c2 with table := (delMultiNode jhash1word s x).2 } := by
    have hcommand : commandNext jhash1word c2.table (.serviceDel (.ofList 0 x [])) =
        some (delMultiNode jhash1word s x).2 := by
      rw [ht2]
      exact commandNext_eq_some.mpr ⟨_, rfl⟩
    rw [Show.next, hcommand]
    rfl
  obtain ⟨c, ⟨m, hend⟩, hdone⟩ := reads_to_end jhash1word
    (c := { c2 with table := (delMultiNode jhash1word s x).2 }) (by simp only; omega)
  obtain ⟨n, hn⟩ := hr1.trans hr2
  have hexec : Trace.exec (Show.next jhash1word) (.start s)
      (List.replicate n .read ++ .command (.serviceDel (.ofList 0 x [])) ::
        List.replicate m .read) = some c := by
    rw [Trace.exec_append _ hn, Trace.exec_cons hnext, hend]
  have hthroughout : Trace.Throughout (Show.next jhash1word) (Show.Live jhash1word y) (.start s)
      (List.replicate n .read ++ .command (.serviceDel (.ofList 0 x [])) ::
        List.replicate m .read) := by
    refine (throughout_reads (P := fun s => (rawLookupMultiNode jhash1word s y).isSome = true) n
      (by rw [Show.start, hy]; rfl)).append hn ⟨?_, fun c' hc' => ?_⟩
    · change (rawLookupMultiNode jhash1word c2.table y).isSome = true
      rw [ht2, hy]
      rfl
    · obtain rfl := Option.some.inj (hnext.symm.trans hc')
      exact throughout_reads (P := fun s => (rawLookupMultiNode jhash1word s y).isSome = true) m
        hlive
  refine ⟨_, c, hexec, hdone, hthroughout, fun hone => ?_⟩
  have hkeeps := ((scan_once_iff wf hexec hdone hthroughout).mp hone).of_exec hn hnext
  have hlives := hkeeps rx ry (by rw [hi2, hi1]; exact hbucket) (by rw [hi2, hi1])
    (by rw [ht2]; exact hx) (by rw [ht2]; exact hy) (by omega) (by omega)
  rw [ht2, hi2, hi1] at hlives
  exact Bool.false_ne_true (hlast.symm.trans hlives)

/-- Two groups in one bucket: the first is deleted when it has been read. -/
theorem not_show_each_once : ¬ ∃ jhash1word : UInt32 → UInt32 → UInt32,
    ∀ s acts c g, Reachable jhash1word (fun _ _ => True) s →
      Trace.exec (Show.next jhash1word) (.start s) acts = some c → c.Done →
      Trace.Throughout (Show.next jhash1word) (Show.Live jhash1word g) (.start s) acts →
      c.ipList.count g = 1 := by
  rintro ⟨jhash1word, hall⟩
  obtain ⟨b, ks, hnodup, hlen, hbucket⟩ := exists_bucket jhash1word (show 1 ≤ 256 by decide)
  obtain ⟨s, hs⟩ : ∃ s, Holds jhash1word s ks := exists_holds hnodup (by omega)
  have wf := hs.reach.wellFormed
  obtain ⟨m, _, hfill⟩ := wf.fill b
  have hrow : ∀ i < m, mulitHashKey jhash1word (s.multiGrp b i).multiIp multiGrpBucket = b ∧
      rawLookupMultiNode jhash1word s (s.multiGrp b i).multiIp = some i := by
    intro i hi
    have hl : (s.multiGrp b i).created = true := (hfill i).mpr hi
    have hb : mulitHashKey jhash1word (s.multiGrp b i).multiIp multiGrpBucket = b := wf.home b i hl
    exact ⟨hb, wf.lookup_iff.mpr (by rw [hb]; exact ⟨hl, rfl⟩)⟩
  have htwo : 2 ≤ m := by
    have hcard := BucketLayout.WellFormed.card_keys_le_of_row wf (hs.bucket hbucket)
      fun i hl => (hfill i).mp hl
    rwa [List.toFinset_card_of_nodup hnodup, hlen] at hcard
  -- the last two groups of the bucket
  obtain ⟨hbx, hx⟩ := hrow (m - 2) (by omega)
  obtain ⟨hby, hy⟩ := hrow (m - 1) (by omega)
  have hlast : (s.multiGrp b (m - 1 + 1)).created = false := by
    by_contra hne
    have hl : (s.multiGrp b (m - 1 + 1)).created = true := by simpa using hne
    have hend := (hfill _).mp hl
    omega
  obtain ⟨acts, c, hexec, hdone, hlive, hcount⟩ :=
    exists_missed wf (hbx.trans hby.symm) hx hy (by omega) (by rw [hby]; exact hlast)
  exact hcount (hall s acts c _ hs.reach hexec hdone hlive)

end MulticastProxy.KernelServer
