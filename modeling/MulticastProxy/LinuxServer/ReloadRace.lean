import MulticastProxy.Library.Trace
import MulticastProxy.LinuxServer.Load
import MulticastProxy.LinuxServer.TableInvariant

/-!
# Linux server proxy: lookups during a `reload`

The terminal thread empties the table and fills it again group by group, while worker threads look
groups up in it. One call of `multi_node_init`, `add_multi_node` or `lookup_multi_node` is one step.
-/

namespace MulticastProxy.LinuxServer

set_option autoImplicit false

/-- Port and members. -/
abbrev Record := UInt16 × List UInt32

section
variable (inetAddr : List Char → UInt32)

def GrpObj.record (grpObj : GrpObj) : Record :=
  (grpObj.serverPort.toUInt16, grpObj.memberArray.map inetAddr)

/-- The record of a group that the file names once. -/
def recordOf (grpArray : List GrpObj) (g : UInt32) : Option Record :=
  match grpArray.filter fun grpObj => inetAddr grpObj.groupIp = g with
  | [grpObj] => some (grpObj.record inetAddr)
  | _ => none

/-- What a lookup tells a worker about a group. -/
def served (s : State) (g : UInt32) : Option Record :=
  (lookupMultiNode s g).map fun found => (found.serverPort, found.iplist)

/-- Before `multi_node_init`, or in the loop of `cfg_init` with `rest` ahead from position `i`
on. -/
inductive Phase where
  | before
  | loading (i : Nat) (rest : List GrpObj)

structure Reloading where
  table : State
  phase : Phase

inductive ReloadAct where
  | init
  | add
  | lookup (multiIp : UInt32)

/-- A store behind the caller's array of 256 addresses or behind the local list ends the run. -/
def Reloading.next (new : List GrpObj) (c : Reloading) : ReloadAct → Option Reloading
  | .init =>
    match c.phase with
    | .before => some ⟨multiNodeInit, .loading 0 new⟩
    | .loading _ _ => none
  | .add =>
    match c.phase with
    | .before => none
    | .loading _ [] => none
    | .loading i (grpObj :: rest) =>
      if i < 256 then
        match readMembers inetAddr grpObj.memberArray 0 fun _ => 0 with
        | .ret ipListInt =>
          match addMultiNode c.table (inetAddr grpObj.groupIp) grpObj.groupPort.toUInt16
            grpObj.serverPort.toUInt16 ipListInt (UInt8.ofNat grpObj.memberArray.length) with
          | .ret (_, s) => some ⟨s, .loading (i + 1) rest⟩
          | _ => none
        | _ => none
      else none
  | .lookup _ => some c

/-- A lookup of a group whose record does not change gets this record. -/
def Answered (old new : List GrpObj) (c : Reloading) : ReloadAct → Prop
  | .lookup g => ∀ r, recordOf inetAddr old g = some r → recordOf inetAddr new g = some r →
      served c.table g = some r
  | _ => True

/-- A lookup of such a group runs before the table is emptied or after the group's add. -/
def OutsideGap (old new : List GrpObj) (c : Reloading) : ReloadAct → Prop
  | .lookup g => ∀ r, recordOf inetAddr old g = some r → recordOf inetAddr new g = some r →
      c.phase = .before ∨ ∃ i rest, c.phase = .loading i rest ∧ g ∉ groupAddrs inetAddr rest
  | _ => True

/-- The table after the groups of `loaded`. -/
structure PrefixLoaded (loaded : List GrpObj) (s : State) : Prop where
  sound : Sound s
  few : (liveNodes s).card ≤ loaded.length
  served : ∀ g r, recordOf inetAddr loaded g = some r → served s g = some r
  absent : ∀ g, g ∉ groupAddrs inetAddr loaded → nodeOf s g = none

/-- The table is the old one or holds the groups that are behind. -/
def Between (old new : List GrpObj) (c : Reloading) : Prop :=
  match c.phase with
  | .before => PrefixLoaded inetAddr old c.table
  | .loading i rest => ∃ loaded, new = loaded ++ rest ∧ i = loaded.length ∧
      PrefixLoaded inetAddr loaded c.table

end

variable {inetAddr : List Char → UInt32}

/-! ## Records -/

theorem recordOf_eq_some_iff {grpArray : List GrpObj} {g : UInt32} {r : Record} :
    recordOf inetAddr grpArray g = some r ↔
      ∃ grpObj, grpArray.filter (fun grpObj => inetAddr grpObj.groupIp = g) = [grpObj] ∧
        grpObj.record inetAddr = r := by
  unfold recordOf
  split
  · rename_i grpObj h
    simp [h]
  · rename_i h
    constructor
    · intro hnone
      cases hnone
    · rintro ⟨grpObj, he, _⟩
      exact absurd he (h grpObj)

theorem filter_eq_nil_iff {grpArray : List GrpObj} {g : UInt32} :
    grpArray.filter (fun grpObj => inetAddr grpObj.groupIp = g) = [] ↔
      g ∉ groupAddrs inetAddr grpArray := by
  rw [List.filter_eq_nil_iff, groupAddrs, List.mem_map]
  simp

/-- A group that is not ahead has its record behind. -/
theorem recordOf_left {loaded rest : List GrpObj} {g : UInt32}
    (h : g ∉ groupAddrs inetAddr rest) :
    recordOf inetAddr (loaded ++ rest) g = recordOf inetAddr loaded g := by
  unfold recordOf
  rw [List.filter_append, filter_eq_nil_iff.mpr h, List.append_nil]

/-- A group with one record that is still ahead is not behind too. -/
theorem not_mem_left {loaded rest : List GrpObj} {g : UInt32} {r : Record}
    (h : recordOf inetAddr (loaded ++ rest) g = some r) (hahead : g ∈ groupAddrs inetAddr rest) :
    g ∉ groupAddrs inetAddr loaded := by
  obtain ⟨grpObj, hone, _⟩ := recordOf_eq_some_iff.mp h
  rw [List.filter_append] at hone
  rw [← filter_eq_nil_iff]
  rcases List.append_eq_singleton_iff.mp hone with ⟨hnil, _⟩ | ⟨_, hnil⟩
  · exact hnil
  · exact absurd hahead (filter_eq_nil_iff.mp hnil)

theorem recordOf_last {loaded : List GrpObj} {grpObj : GrpObj} {g : UInt32} {r : Record}
    (hbehind : g ∉ groupAddrs inetAddr loaded)
    (h : recordOf inetAddr (loaded ++ [grpObj]) g = some r) : grpObj.record inetAddr = r := by
  obtain ⟨obj, hobj, hr⟩ := recordOf_eq_some_iff.mp h
  rw [List.filter_append, filter_eq_nil_iff.mpr hbehind, List.nil_append] at hobj
  have hmem : obj ∈ [grpObj] := List.mem_of_mem_filter (hobj ▸ List.mem_singleton_self obj)
  rwa [← List.mem_singleton.mp hmem]

theorem served_of_node {s : State} {g : UInt32} {node : MultiNode} {ips : List UInt32}
    (hnode : nodeOf s g = some node) (hcnt : node.multiMemberCnt = ips.length)
    (hfit : ips.length ≤ multiVmMax) (hips : cells (s.multiVm (grpIdx node)) ips.length = ips) :
    served s g = some (node.serverPort, ips) := by
  have hbyte : ips.length % 256 = ips.length :=
    Nat.mod_eq_of_lt (Nat.lt_of_le_of_lt hfit (by decide))
  rw [served, lookupMultiNode_eq, hnode, Option.map_some, Option.map_some, getVmIpList, hcnt, hbyte]
  exact congrArg (fun ips => some (node.serverPort, ips)) hips

theorem served_of_absent {s : State} {g : UInt32} (h : nodeOf s g = none) : served s g = none := by
  rw [served, lookupMultiNode_eq, h]
  rfl

/-! ## One group -/

theorem prefixLoaded_nil : PrefixLoaded inetAddr [] multiNodeInit where
  sound := multiNodeInit_sound
  few := by simp
  served := fun g r h => by simp [recordOf] at h
  absent := fun g _ => nodeOf_multiNodeInit g

theorem readMembers_cells {ips : List (List Char)} {ipListInt l : Nat → UInt32}
    (h : readMembers inetAddr ips 0 ipListInt = .ret l) :
    ips.length ≤ maxMemIpInGroup ∧ cells l ips.length = ips.map inetAddr := by
  have hfit : 0 + ips.length ≤ maxMemIpInGroup := by
    by_contra hbig
    rw [readMembers_fault ipListInt (Nat.zero_le _) (by omega)] at h
    cases h
  obtain ⟨l', hl, hcells⟩ := readMembers_ret ipListInt hfit
  obtain rfl := Outcome.ret.inj (h.symm.trans hl)
  simpa using And.intro hfit hcells

/-- With room in the pool a new group is found with what the add was given. -/
theorem AddEffect.served_self {s s' : State} {g : UInt32} {port serverPort : UInt16}
    {ips : List UInt32} {code : Int} (e : AddEffect s g port serverPort ips code s') (h : Sound s)
    (hnew : nodeOf s g = none) (hroom : (liveNodes s).card < 256)
    (hfit : ips.length ≤ multiVmMax) : served s' g = some (serverPort, ips) := by
  cases e with
  | appended found =>
    rw [hnew] at found
    cases found
  | exhausted _ full =>
    have hfull := h.full_iff.mpr full
    omega
  | @inserted idx cnt _ _ _ _ index _ _ nodes _ _ _ members =>
    have hbyte : (UInt8.ofNat idx).toNat = idx := UInt8.toNat_ofNat_of_lt' index
    obtain ⟨hcnt, hrow⟩ := members hfit
    apply served_of_node (congrFun nodes g |>.trans (Function.update_self ..)) hcnt hfit
    rw [grpIdx, hbyte]
    exact hrow

theorem PrefixLoaded.add {loaded : List GrpObj} {s s' : State} (h : PrefixLoaded inetAddr loaded s)
    (hroom : loaded.length < 256) {grpObj : GrpObj} {ipListInt : Nat → UInt32} {code : Int}
    (hread : readMembers inetAddr grpObj.memberArray 0 (fun _ => 0) = .ret ipListInt)
    (hadd : addMultiNode s (inetAddr grpObj.groupIp) grpObj.groupPort.toUInt16
      grpObj.serverPort.toUInt16 ipListInt (UInt8.ofNat grpObj.memberArray.length) =
        .ret (code, s')) : PrefixLoaded inetAddr (loaded ++ [grpObj]) s' := by
  obtain ⟨hsize, hcells⟩ := readMembers_cells hread
  have hnum : (UInt8.ofNat grpObj.memberArray.length).toNat = grpObj.memberArray.length :=
    UInt8.toNat_ofNat_of_lt' (Nat.lt_of_le_of_lt hsize (by decide))
  obtain ⟨_, t, ht, hsound, heffect⟩ := h.sound.add (inetAddr grpObj.groupIp)
    grpObj.groupPort.toUInt16 grpObj.serverPort.toUInt16 ipListInt
    (UInt8.ofNat grpObj.memberArray.length)
  obtain ⟨_, rfl⟩ := Prod.mk.inj (Outcome.ret.inj (hadd.symm.trans ht))
  rw [hnum, hcells] at heffect
  have hsize : (grpObj.memberArray.map inetAddr).length ≤ multiVmMax := by rwa [List.length_map]
  have hahead : ∀ g, g ∈ groupAddrs inetAddr [grpObj] ↔ g = inetAddr grpObj.groupIp := by
    intro g
    simp [groupAddrs]
  refine ⟨hsound, ?_, fun g r hrec => ?_, fun g hg => ?_⟩
  · rw [List.length_append, List.length_singleton]
    exact (heffect.card_le h.sound hsound).trans (Nat.add_le_add_right h.few 1)
  · by_cases hg : g = inetAddr grpObj.groupIp
    · have hbehind := not_mem_left hrec ((hahead g).mpr hg)
      rw [← recordOf_last hbehind hrec, hg]
      rw [hg] at hbehind
      exact heffect.served_self h.sound (h.absent _ hbehind) (Nat.lt_of_le_of_lt h.few hroom) hsize
    · rw [recordOf_left (mt (hahead g).mp hg)] at hrec
      rw [MulticastProxy.LinuxServer.served, (heffect.other h.sound hg).2]
      exact h.served g r hrec
  · rw [groupAddrs, List.map_append, List.mem_append, not_or] at hg
    rw [(heffect.other h.sound (mt (hahead g).mpr hg.2)).1]
    exact h.absent g hg.1

theorem PrefixLoaded.cfgLoop {loaded rest : List GrpObj} {s s' : State}
    (h : PrefixLoaded inetAddr loaded s) {groupIpArr groupIpArr' : Nat → UInt32}
    (hloop : LinuxServer.cfgLoop inetAddr rest loaded.length groupIpArr s = .ret (groupIpArr', s')) :
    PrefixLoaded inetAddr (loaded ++ rest) s' := by
  induction rest generalizing loaded s groupIpArr with
  | nil =>
    obtain ⟨_, rfl⟩ := Prod.mk.inj (Outcome.ret.inj hloop)
    rwa [List.append_nil]
  | cons grpObj rest ih =>
    rw [LinuxServer.cfgLoop] at hloop
    split at hloop
    · rename_i hroom
      obtain ⟨ipListInt, hread, hloop⟩ := Outcome.bind_eq_ret_iff.mp hloop
      obtain ⟨⟨code, t⟩, hadd, hloop⟩ := Outcome.bind_eq_ret_iff.mp hloop
      rw [List.append_cons]
      apply ih (h.add hroom hread hadd)
      rw [List.length_append, List.length_singleton]
      exact hloop
    · cases hloop

theorem PrefixLoaded.of_cfgInit {grpArray : List GrpObj} {groupIpArr groupIpArr' : Nat → UInt32}
    {groupNum groupNum' : Nat} {code : Int} {s : State}
    (h : cfgInit inetAddr (some grpArray) groupIpArr groupNum multiNodeInit =
      .ret (code, groupNum', groupIpArr', s)) : PrefixLoaded inetAddr grpArray s := by
  obtain ⟨⟨arr, t⟩, hloop, hret⟩ := Outcome.bind_eq_ret_iff.mp h
  obtain ⟨_, _, _, rfl⟩ : _ ∧ _ ∧ _ ∧ t = s := by simpa using hret
  have hnil : PrefixLoaded inetAddr [] multiNodeInit := prefixLoaded_nil
  exact hnil.cfgLoop hloop

/-! ## Steps -/

theorem Reloading.next_add {new : List GrpObj} {c c' : Reloading}
    (h : c.next inetAddr new .add = some c') :
    ∃ i grpObj rest ipListInt code, c.phase = .loading i (grpObj :: rest) ∧ i < 256 ∧
      readMembers inetAddr grpObj.memberArray 0 (fun _ => 0) = .ret ipListInt ∧
      addMultiNode c.table (inetAddr grpObj.groupIp) grpObj.groupPort.toUInt16
        grpObj.serverPort.toUInt16 ipListInt (UInt8.ofNat grpObj.memberArray.length) =
          .ret (code, c'.table) ∧ c'.phase = .loading (i + 1) rest := by
  simp only [Reloading.next] at h
  split at h
  · cases h
  · cases h
  · rename_i i grpObj rest hphase
    split at h
    · rename_i hroom
      split at h
      · rename_i ipListInt hread
        split at h
        · rename_i code s hadd
          obtain rfl := Option.some.inj h
          exact ⟨i, grpObj, rest, ipListInt, code, hphase, hroom, hread, hadd, rfl⟩
        · cases h
      · cases h
    · cases h

theorem Reloading.next_between {old new : List GrpObj} {c c' : Reloading} {act : ReloadAct}
    (h : Between inetAddr old new c) (hnext : c.next inetAddr new act = some c') :
    Between inetAddr old new c' := by
  cases act with
  | init =>
    simp only [Reloading.next] at hnext
    split at hnext
    · obtain rfl := Option.some.inj hnext
      exact ⟨[], rfl, rfl, prefixLoaded_nil⟩
    · cases hnext
  | add =>
    obtain ⟨i, grpObj, rest, ipListInt, code, hphase, hroom, hread, hadd, hphase'⟩ :=
      Reloading.next_add hnext
    rw [Between, hphase] at h
    obtain ⟨loaded, hnew, rfl, hloaded⟩ := h
    rw [Between, hphase']
    refine ⟨loaded ++ [grpObj], ?_, ?_, hloaded.add hroom hread hadd⟩
    · rw [hnew, List.append_cons]
    · rw [List.length_append, List.length_singleton]
  | lookup g =>
    obtain rfl := Option.some.inj hnext
    exact h

theorem Between.answered_iff {old new : List GrpObj} {c : Reloading}
    (h : Between inetAddr old new c) (act : ReloadAct) :
    Answered inetAddr old new c act ↔ OutsideGap inetAddr old new c act := by
  cases act with
  | init => exact Iff.rfl
  | add => exact Iff.rfl
  | lookup g =>
    apply forall_congr'
    intro r
    apply imp_congr_right
    intro hold
    apply imp_congr_right
    intro hnew
    unfold Between at h
    split at h
    · rename_i hphase
      exact iff_of_true (h.served g r hold) (Or.inl hphase)
    · rename_i i rest hphase
      obtain ⟨loaded, rfl, rfl, hloaded⟩ := h
      by_cases hahead : g ∈ groupAddrs inetAddr rest
      · refine iff_of_false ?_ ?_
        · rw [served_of_absent (hloaded.absent g (not_mem_left hnew hahead))]
          intro hnone
          cases hnone
        · rintro (hbefore | ⟨i, rest', hphase', hrest'⟩)
          · rw [hphase] at hbefore
            cases hbefore
          · rw [hphase] at hphase'
            obtain ⟨_, rfl⟩ := Phase.loading.inj hphase'
            exact hrest' hahead
      · rw [recordOf_left hahead] at hnew
        exact iff_of_true (hloaded.served g r hnew) (Or.inr ⟨_, rest, hphase, hahead⟩)

/-! ## Runs -/

/-- During a reload exactly the lookups before the wipe and behind the group's own add are answered
with the record that the group has in both files. -/
theorem reload_answers_iff {old new : List GrpObj} {groupIpArr groupIpArr' : Nat → UInt32}
    {groupNum groupNum' : Nat} {code : Int} {s : State}
    (h : cfgInit inetAddr (some old) groupIpArr groupNum multiNodeInit =
      .ret (code, groupNum', groupIpArr', s)) (acts : List ReloadAct) :
    Trace.EachStep (Reloading.next inetAddr new) (Answered inetAddr old new) ⟨s, .before⟩ acts ↔
      Trace.EachStep (Reloading.next inetAddr new) (OutsideGap inetAddr old new) ⟨s, .before⟩
        acts := by
  apply Trace.eachStep_congr (I := Between inetAddr old new)
  · exact fun c act c' hc hnext _ => Reloading.next_between hc hnext
  · exact fun c act _ hc _ => hc.answered_iff act
  · exact PrefixLoaded.of_cfgInit h

theorem installed_cfgInit : ∃ arr s,
    cfgInit inetAddrQuad (some installed) (fun _ => 0) 0 multiNodeInit =
      .ret (0, installed.length, arr, s) := by
  have hdist : (groupAddrs inetAddrQuad installed).Nodup := by decide
  have hfits : Fits 0 installed := ⟨by decide, by decide⟩
  obtain ⟨arr, s, hinit, _⟩ := cfgInit_ret hdist hfits (fun _ => 0) 0
  exact ⟨arr, s, hinit⟩

def installedGroup : UInt32 := inetAddrQuad "239.1.1.1".toList

/-- A reload of the installed file, with a lookup of its group before and after it. -/
theorem reload_answers_installed : ∃ code num arr s,
    cfgInit inetAddrQuad (some installed) (fun _ => 0) 0 multiNodeInit = .ret (code, num, arr, s) ∧
      Trace.EachStep (Reloading.next inetAddrQuad installed)
        (Answered inetAddrQuad installed installed) ⟨s, .before⟩
        [.lookup installedGroup, .init, .add, .lookup installedGroup] := by
  obtain ⟨arr, s, hinit⟩ := installed_cfgInit
  refine ⟨_, _, _, s, hinit, (reload_answers_iff hinit _).mpr ?_⟩
  intro c1 h1
  obtain rfl := Option.some.inj h1
  refine ⟨fun _ _ _ => Or.inl rfl, fun c2 h2 => ⟨trivial, fun c3 h3 => ⟨trivial, ?_⟩⟩⟩
  obtain rfl := Option.some.inj h2
  obtain ⟨i, grpObj, rest, _, _, hphase, _, _, _, hphase'⟩ := Reloading.next_add h3
  obtain ⟨rfl, rfl, rfl⟩ := by simpa [installed] using hphase
  intro c4 _
  exact ⟨fun _ _ _ => Or.inr ⟨1, [], hphase', by simp [groupAddrs]⟩, trivial⟩

/-- A lookup between the wipe and the add misses the group of the installed file. -/
theorem not_reload_answers : ¬ ∀ old new groupIpArr groupNum code num arr s,
    cfgInit inetAddrQuad (some old) groupIpArr groupNum multiNodeInit = .ret (code, num, arr, s) →
    ∀ acts, Trace.EachStep (Reloading.next inetAddrQuad new) (Answered inetAddrQuad old new)
      ⟨s, .before⟩ acts := by
  intro h
  obtain ⟨arr, s, hinit⟩ := installed_cfgInit
  have hacts := h installed installed _ _ _ _ _ s hinit [.init, .lookup installedGroup]
  have hrecord : recordOf inetAddrQuad installed installedGroup =
      some (3456, [inetAddrQuad "2.2.2.2".toList, inetAddrQuad "3.3.3.3".toList]) := by
    simp [recordOf, installed, installedGroup, GrpObj.record]
  have hanswer := ((hacts _ rfl).2 _ rfl).1 _ hrecord hrecord
  rw [served_of_absent (nodeOf_multiNodeInit _)] at hanswer
  cases hanswer

end MulticastProxy.LinuxServer
