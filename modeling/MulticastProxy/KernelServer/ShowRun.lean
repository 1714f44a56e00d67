import MulticastProxy.KernelServer.ShowScan
import MulticastProxy.KernelServer.ShowCount

/-!
# Kernel server: what SHOW can store while the table changes

No deletion pulls a node from a cell that is read to one that is not. So a group is stored at most
once for the start of the scan and once for each time that it is made in its course, and groups that
were never there are not stored.
-/

namespace MulticastProxy.KernelServer

set_option autoImplicit false

section
variable (jhash1word : UInt32 → UInt32 → UInt32)

/-- The group that a step of a scan makes: that of a JOIN which finds it absent and leaves it
there. -/
def newGroups (c : Show) : ShowAct → List UInt32
  | .command (.serviceAdd service) =>
    if (nodeOf jhash1word c.table service.multiIp).isNone = true ∧
        ((commandNext jhash1word c.table (.serviceAdd service)).bind
          fun s => nodeOf jhash1word s service.multiIp).isSome = true
    then [service.multiIp] else []
  | _ => []

/-- The stores of a group, and its cell if that is still to be read. -/
def Show.claim (g : UInt32) (c : Show) : Nat :=
  c.stored.count g +
    match rawLookupMultiNode jhash1word c.table g with
    | some row => if c.i < mulitHashKey jhash1word g multiGrpBucket ∨
        c.i = mulitHashKey jhash1word g multiGrpBucket ∧ c.j ≤ row then 1 else 0
    | none => 0

end

variable {jhash1word : UInt32 → UInt32 → UInt32}

section
variable {c : Show} {g : UInt32}

theorem Show.claim_none (hnone : rawLookupMultiNode jhash1word c.table g = none) :
    c.claim jhash1word g = c.stored.count g := by
  rw [Show.claim, hnone, Nat.add_zero]

theorem Show.claim_unread {row : Nat} (hrow : rawLookupMultiNode jhash1word c.table g = some row)
    (hunread : c.Unread (mulitHashKey jhash1word g multiGrpBucket) row) :
    c.claim jhash1word g = c.stored.count g + 1 := by
  rw [Show.claim, hrow]
  exact congrArg (_ + ·) (if_pos hunread)

theorem Show.claim_read {row : Nat} (hrow : rawLookupMultiNode jhash1word c.table g = some row)
    (hread : ¬ c.Unread (mulitHashKey jhash1word g multiGrpBucket) row) :
    c.claim jhash1word g = c.stored.count g := by
  rw [Show.claim, hrow]
  exact congrArg (_ + ·) (if_neg hread)

theorem Show.claim_le (jhash1word : UInt32 → UInt32 → UInt32) (c : Show) (g : UInt32) :
    c.claim jhash1word g ≤ c.stored.count g + 1 := by
  cases hrow : rawLookupMultiNode jhash1word c.table g with
  | none =>
    rw [Show.claim_none hrow]
    exact Nat.le_add_right _ _
  | some row =>
    by_cases hunread : c.Unread (mulitHashKey jhash1word g multiGrpBucket) row
    · rw [Show.claim_unread hrow hunread]
    · rw [Show.claim_read hrow hunread]
      exact Nat.le_add_right _ _

/-! ## Steps -/

theorem Show.stored_count_of_other {c' : Show}
    (h : c'.stored = c.stored ∨ ∃ x ≠ g, c'.stored = c.stored ++ [x]) :
    c'.stored.count g = c.stored.count g := by
  rcases h with h | ⟨x, hx, h⟩
  · rw [h]
  · rw [h, List.count_append, List.count_singleton, if_neg (by simpa using hx), Nat.add_zero]

/-- Where the group is not in the table its address is not stored. -/
theorem Show.readCell_absent (wf : WellFormed jhash1word c.table)
    (hnone : rawLookupMultiNode jhash1word c.table g = none) :
    c.readCell.stored.count g = c.stored.count g := by
  apply Show.stored_count_of_other
  unfold Show.readCell
  split
  · exact Or.inl rfl
  · rename_i hlive
    have hlive : (c.table.multiGrp c.i c.j).created = true := by simpa using hlive
    have hx : (c.table.multiGrp c.i c.j).multiIp ≠ g := by
      intro hx
      have hi : mulitHashKey jhash1word (c.table.multiGrp c.i c.j).multiIp multiGrpBucket = c.i :=
        wf.home c.i c.j hlive
      rw [hx] at hi
      have hfind : rawLookupMultiNode jhash1word c.table g = some c.j :=
        wf.lookup_iff.mpr (by rw [hi]; exact ⟨hlive, hx⟩)
      rw [hnone] at hfind
      cases hfind
    split
    · exact Or.inr ⟨_, hx, rfl⟩
    · exact Or.inr ⟨_, hx, rfl⟩

theorem Show.claim_readCell (wf : WellFormed jhash1word c.table) :
    c.readCell.claim jhash1word g ≤ c.claim jhash1word g := by
  cases hrow : rawLookupMultiNode jhash1word c.table g with
  | none =>
    have hrow' : rawLookupMultiNode jhash1word c.readCell.table g = none := by
      rw [c.readCell_table, hrow]
    rw [Show.claim_none hrow, Show.claim_none hrow', Show.readCell_absent wf hrow]
  | some row =>
    have hrow' : rawLookupMultiNode jhash1word c.readCell.table g = some row := by
      rw [c.readCell_table, hrow]
    by_cases hself : mulitHashKey jhash1word g multiGrpBucket = c.i ∧ row = c.j
    · obtain ⟨hi, hj⟩ := hself
      obtain ⟨hstored, hread⟩ := Show.readCell_self wf hrow hi hj
      rw [← hi] at hread
      rw [Show.claim_read hrow' hread, hstored, List.count_append, List.count_singleton_self,
        Show.claim_unread hrow (Or.inr ⟨hi.symm, hj.ge⟩)]
    · obtain ⟨hstored, hiff⟩ := Show.readCell_other wf hrow hself
      have hcount := Show.stored_count_of_other hstored
      by_cases hunread : c.Unread (mulitHashKey jhash1word g multiGrpBucket) row
      · rw [Show.claim_unread hrow hunread, Show.claim_unread hrow' (hiff.mpr hunread), hcount]
      · rw [Show.claim_read hrow hunread, Show.claim_read hrow' (mt hiff.mp hunread), hcount]

/-- Only the JOIN of a group makes it. -/
theorem count_newGroups {msg : NlMessage} {s' : State} (wf : WellFormed jhash1word c.table)
    (h : commandNext jhash1word c.table msg = some s')
    (habsent : nodeOf jhash1word c.table g = none) (hlive : nodeOf jhash1word s' g ≠ none) :
    (newGroups jhash1word c (.command msg)).count g = 1 := by
  obtain ⟨code, hret⟩ := commandNext_eq_some.mp h
  cases tmccRcvSkb_effect wf hret with
  | same => exact absurd habsent hlive
  | recounted _ recount =>
    refine absurd ?_ hlive
    rw [recount.nodes, Function.update_of_ne _, habsent]
    rintro rfl
    rw [recount.found] at habsent
    cases habsent
  | @created service _ _ _ _ join made _ =>
    have hself : g = service.multiIp := by
      by_contra hne
      rw [made.nodes, Function.update_of_ne hne] at hlive
      exact hlive habsent
    rw [newGroups, if_pos, ← hself, List.count_singleton_self]
    rw [made.fresh, h, Option.bind_some, made.nodes, Function.update_self]
    exact ⟨rfl, rfl⟩
  | @deleted service _ _ gone =>
    rw [gone.nodes] at hlive
    by_cases hself : g = service.multiIp
    · rw [hself, Function.update_self] at hlive
      exact absurd rfl hlive
    · rw [Function.update_of_ne hself] at hlive
      exact absurd habsent hlive
  | cleared => exact absurd (nodeOf_clearMultiGroup wf g) hlive

theorem Show.claim_command {msg : NlMessage} {s' : State} (wf : WellFormed jhash1word c.table)
    (h : commandNext jhash1word c.table msg = some s') :
    ({ c with table := s' } : Show).claim jhash1word g ≤
      c.claim jhash1word g + (newGroups jhash1word c (.command msg)).count g := by
  cases hrow : rawLookupMultiNode jhash1word c.table g with
  | none =>
    rw [Show.claim_none hrow]
    cases hrow' : rawLookupMultiNode jhash1word s' g with
    | none =>
      rw [Show.claim_none hrow']
      exact Nat.le_add_right _ _
    | some row' =>
      have hlive : nodeOf jhash1word s' g ≠ none := by
        intro hnone
        rw [nodeOf_eq_none_iff.mp hnone] at hrow'
        cases hrow'
      rw [count_newGroups wf h (nodeOf_eq_none_iff.mpr hrow) hlive]
      exact Show.claim_le jhash1word _ g
  | some row =>
    cases hrow' : rawLookupMultiNode jhash1word s' g with
    | none =>
      rw [Show.claim_none hrow']
      exact le_trans (Nat.le_add_right _ _) (Nat.le_add_right _ _)
    | some row' =>
      obtain ⟨row'', hfound, hle, _⟩ := Show.command_row wf hrow h (by rw [hrow']; rfl)
      obtain rfl := Option.some.inj (hrow'.symm.trans hfound)
      by_cases hunread :
          ({ c with table := s' } : Show).Unread (mulitHashKey jhash1word g multiGrpBucket) row'
      · -- a cell is only pulled back, so that it was to be read before as well
        have hahead : c.Unread (mulitHashKey jhash1word g multiGrpBucket) row := by
          rcases hunread with hi | ⟨hi, hj⟩
          · exact Or.inl hi
          · exact Or.inr ⟨hi, le_trans hj hle⟩
        rw [Show.claim_unread hrow' hunread, Show.claim_unread hrow hahead]
        exact Nat.le_add_right _ _
      · rw [Show.claim_read hrow' hunread]
        exact le_trans (Nat.le_add_right _ _) (Nat.le_add_right _ _)

theorem Show.claim_next {c' : Show} {act : ShowAct} (wf : WellFormed jhash1word c.table)
    (h : c.next jhash1word act = some c') :
    WellFormed jhash1word c'.table ∧
      c'.claim jhash1word g ≤ c.claim jhash1word g + (newGroups jhash1word c act).count g := by
  cases act with
  | read =>
    obtain ⟨_, rfl⟩ := Show.next_read h
    constructor
    · rwa [c.readCell_table]
    · exact le_trans (Show.claim_readCell wf) (Nat.le_add_right _ _)
  | command msg =>
    obtain ⟨s', hs', rfl⟩ := Show.next_command h
    obtain ⟨code, hret⟩ := commandNext_eq_some.mp hs'
    exact ⟨tmccRcvSkb_wellFormed wf hret, Show.claim_command wf hs'⟩

end

/-! ## Runs -/

theorem Show.claim_start {s : State} (wf : WellFormed jhash1word s) (g : UInt32) :
    (Show.start s).claim jhash1word g ≤ (groupList jhash1word s).count g := by
  cases hrow : rawLookupMultiNode jhash1word (Show.start s).table g with
  | none =>
    rw [Show.claim_none hrow]
    exact Nat.zero_le _
  | some row =>
    have hmem : g ∈ groupList jhash1word s := by
      rw [mem_groupList wf]
      intro hnone
      have hnone := nodeOf_eq_none_iff.mp hnone
      rw [Show.start, hnone] at hrow
      cases hrow
    exact le_trans (Show.claim_le jhash1word _ g) (List.one_le_count_iff.mpr hmem)

/-- At every point of every scan, whatever is changed in its course: the addresses stored are, each
as often as it is stored, among the groups at the start and those made since. So the stores stay
inside `ip_list` as long as these are no more than it has places. -/
theorem show_stores_among {s : State} {acts : List ShowAct} {c : Show}
    (h : Reachable jhash1word (fun _ _ => True) s)
    (hexec : Trace.exec (Show.next jhash1word) (.start s) acts = some c) :
    let seen := groupList jhash1word s ++
      Trace.noted (Show.next jhash1word) (newGroups jhash1word) (.start s) acts
    c.stored.Subperm seen ∧ (seen.length ≤ multiVmMax → c.ipList = c.stored) := by
  intro seen
  have hsub : c.stored.Subperm seen := by
    apply List.subperm_ext_iff.mpr
    intro g _
    have hstep : ∀ (c : Show) (act : ShowAct) (c' : Show), WellFormed jhash1word c.table →
        c.next jhash1word act = some c' → WellFormed jhash1word c'.table ∧
          c'.claim jhash1word g ≤ c.claim jhash1word g + (newGroups jhash1word c act).count g :=
      fun _ _ _ wf hnext => Show.claim_next wf hnext
    have hrun : c.claim jhash1word g ≤ (Show.start s).claim jhash1word g + (Trace.noted
        (Show.next jhash1word) (newGroups jhash1word) (.start s) acts).count g :=
      Trace.potential_le_of_exec (Show.claim jhash1word g) hstep h.wellFormed hexec
    have hstart := Show.claim_start h.wellFormed g
    have hstored : c.stored.count g ≤ c.claim jhash1word g := Nat.le_add_right _ _
    rw [List.count_append]
    omega
  refine ⟨hsub, ?_⟩
  intro hroom
  exact List.take_of_length_le (le_trans hsub.length_le hroom)

/-- A group that is made when the scan has begun, and is stored. -/
theorem show_stores_among_made : ∃ c : Show, c.stored = [0xE0000001] ∧
    c.stored.Subperm (groupList (fun _ _ => 0) multiNodeInit ++ Trace.noted
      (Show.next fun _ _ => 0) (newGroups fun _ _ => 0) (.start multiNodeInit)
      [.command (joinMessage 0xE0000001 [7, 8]), .read]) := by
  have hrun : (Trace.exec (Show.next fun _ _ => 0) (.start multiNodeInit)
      [.command (joinMessage 0xE0000001 [7, 8]), .read]).map Show.stored =
        some [0xE0000001] := by
    decide +kernel
  obtain ⟨c, hexec, hstored⟩ := Option.map_eq_some_iff.mp hrun
  exact ⟨c, hstored, (show_stores_among .init hexec).1⟩

end MulticastProxy.KernelServer
