import MulticastProxy.KernelServer.GroupSpec
import MulticastProxy.Library.Listing
import MulticastProxy.Library.Trace

/-!
# Kernel server: replies to LIST and SHOW (`kmod/multis_nl.c`, `kmod/multis_grp.c`)

Both commands build their reply in the one static `k_service` and copy it to the caller at the end.
Requests that overlap share it.
-/

namespace MulticastProxy.KernelServer

set_option autoImplicit false

structure TmccNlShowServiceSt where
  ret : Int
  multiIp : UInt32
  ipNum : Nat
  ipList : Nat → UInt32

inductive Request where
  | list (multiIp : UInt32)
  | show

section
variable (jhash1word : UInt32 → UInt32 → UInt32)

def storeIp (ipList : Nat → UInt32) (k : Nat) (node : MultiNode) : Nat → UInt32 :=
  Function.update ipList k node.multiIp

/-- `ip_list` ends at `MULTI_VM_MAX`. -/
def getAllMultiGrp (s : State) (kService : TmccNlShowServiceSt) :
    Outcome (Int × TmccNlShowServiceSt) := do
  let (k, ipList) ← Listing.buckets (fun node => node.created) (Listing.store multiVmMax storeIp)
    multiGrpDepth s.multiGrp multiGrpBucket 0 (0, kService.ipList)
  .ret (0, { kService with ipList, ipNum := k })

/-- For a group that does not exist nothing is written. -/
def listMultiNodeAndVmIp (s : State) (multiIp : UInt32) (kService : TmccNlShowServiceSt) :
    Outcome (Int × TmccNlShowServiceSt) :=
  match rawLookupMultiNode jhash1word s multiIp with
  | none => .ret (multiNodeNotExsit, kService)
  | some rowId =>
    let node := s.multiGrp (mulitHashKey jhash1word multiIp multiGrpBucket) rowId
    if multiVmMax < node.multiMemberCnt then .fault
    else
      .ret (0, { kService with
        ipNum := node.multiMemberCnt
        multiIp := node.multiIp
        ipList := fun i =>
          if i < node.multiMemberCnt then s.multiVm node.multiGrpIdx.toNat i
          else kService.ipList i })

def Request.fill (s : State) (kService : TmccNlShowServiceSt) :
    Request → Outcome (Int × TmccNlShowServiceSt)
  | .list multiIp => listMultiNodeAndVmIp jhash1word s multiIp kService
  | .show => getAllMultiGrp s kService

/-- What a caller reads out of its reply; SHOW has no use for `multi_ip`, nor has a LIST that finds
no group. -/
structure Answer where
  ret : Int
  multiIp : Option UInt32
  ips : List UInt32

def groupList (s : State) : List UInt32 :=
  ((layout jhash1word).scan multiGrpBucket s.multiGrp).map fun p => (s.multiGrp p.1 p.2).multiIp

/-- The answer to a request, from the table alone. -/
def answer (s : State) : Request → Answer
  | .list multiIp =>
    match lookupMultiNode jhash1word s multiIp with
    | none => ⟨multiNodeNotExsit, none, []⟩
    | some (_, _, ips) => ⟨0, some multiIp, ips⟩
  | .show => ⟨0, none, groupList jhash1word s⟩

/-- How far a request is: behind the reset, the filling or the setting of `ret`. From its filling on
it goes with the answer that it should give, which is no variable of the code. -/
inductive Phase where
  | reset (request : Request)
  | filled (ret : Int) (ans : Answer)
  | set (ans : Answer)

structure Callers where
  table : State
  kService : TmccNlShowServiceSt
  phase : Nat → Option Phase

inductive CallerAct where
  | reset (id : Nat) (request : Request)
  | fill (id : Nat)
  | setRet (id : Nat)
  | copy (id : Nat)
  | command (msg : NlMessage)

def Callers.next (c : Callers) : CallerAct → Option Callers
  | .reset id request =>
    match c.phase id with
    | none =>
      some { c with
        kService := { c.kService with ipNum := 0 }
        phase := Function.update c.phase id (some (.reset request)) }
    | some _ => none
  | .fill id =>
    match c.phase id with
    | some (.reset request) =>
      match request.fill jhash1word c.table c.kService with
      | .ret (ret, kService) =>
        some { c with
          kService
          phase := Function.update c.phase id
            (some (.filled ret (answer jhash1word c.table request))) }
      | _ => none
    | _ => none
  | .setRet id =>
    match c.phase id with
    | some (.filled ret ans) =>
      some { c with
        kService := { c.kService with ret }
        phase := Function.update c.phase id (some (.set ans)) }
    | _ => none
  | .copy id =>
    match c.phase id with
    | some (.set _) => some { c with phase := Function.update c.phase id none }
    | _ => none
  | .command msg =>
    match tmccRcvSkb jhash1word c.table msg with
    | .ret (_, s) => some { c with table := s }
    | _ => none

end

/-- Address and list of the reply are those of the answer. -/
def TmccNlShowServiceSt.HasList (kService : TmccNlShowServiceSt) (ans : Answer) : Prop :=
  (∀ g, ans.multiIp = some g → kService.multiIp = g) ∧
    cells kService.ipList kService.ipNum = ans.ips

/-- Whichever request takes its copy, the caller gets the answer to its own request. -/
def OwnAnswer (c : Callers) : Prop :=
  ∀ id ans, c.phase id = some (.set ans) → c.kService.ret = ans.ret ∧ c.kService.HasList ans

/-- A request that sets `ret` finds the list that it filled in, and no step writes anything that a
reply waiting for its copy has otherwise. -/
def Undisturbed (jhash1word : UInt32 → UInt32 → UInt32) (c : Callers) : CallerAct → Prop
  | .reset _ _ => ∀ id' ans', c.phase id' = some (.set ans') → ans'.ips = []
  | .fill id => ∀ request, c.phase id = some (.reset request) →
    (answer jhash1word c.table request).ret = 0 →
    ∀ id' ans', c.phase id' = some (.set ans') →
      ans'.ips = (answer jhash1word c.table request).ips ∧
      ∀ g g', (answer jhash1word c.table request).multiIp = some g → ans'.multiIp = some g' → g' = g
  | .setRet id => ∀ ret ans, c.phase id = some (.filled ret ans) → c.kService.HasList ans ∧
    ∀ id' ans', c.phase id' = some (.set ans') → ans'.ret = ret
  | _ => True

def Callers.init : Callers := ⟨multiNodeInit, ⟨0, 0, 0, fun _ => 0⟩, fun _ => none⟩

variable {jhash1word : UInt32 → UInt32 → UInt32}

/-! ## One request -/

theorem getAllMultiGrp_ret {s : State} {kService kService' : TmccNlShowServiceSt} {ret : Int}
    (h : getAllMultiGrp s kService = .ret (ret, kService')) :
    ret = 0 ∧ kService'.ret = kService.ret ∧ kService'.multiIp = kService.multiIp ∧
      cells kService'.ipList kService'.ipNum = groupList jhash1word s := by
  have hlist := Listing.buckets_eq (layout jhash1word) (Listing.store multiVmMax storeIp)
    s.multiGrp multiGrpBucket (0, kService.ipList)
  have hgroups : groupList jhash1word s =
      (((layout jhash1word).scan multiGrpBucket s.multiGrp).map fun p =>
        s.multiGrp p.1 p.2).map fun node => node.multiIp := by
    rw [groupList, List.map_map]
    rfl
  rw [hgroups]
  generalize ((layout jhash1word).scan multiGrpBucket s.multiGrp).map
    (fun p => s.multiGrp p.1 p.2) = nodes at hlist ⊢
  obtain ⟨⟨k, ipList⟩, hrun, hret⟩ := Outcome.bind_eq_ret_iff.mp h
  obtain ⟨rfl, rfl⟩ := by simpa using hret
  refine ⟨rfl, rfl, rfl, ?_⟩
  have hrun : nodes.foldlM (Listing.store multiVmMax storeIp) (0, kService.ipList) =
      .ret (k, ipList) := hlist.symm.trans hrun
  by_cases hfit : 0 + nodes.length ≤ multiVmMax
  · have hput : ∀ g k (node : MultiNode), storeIp g k node = Function.update g k node.multiIp :=
      fun _ _ _ => rfl
    obtain ⟨ipList', hrun', hrow, _⟩ := Listing.foldlM_store_array hput kService.ipList hfit
    rw [hrun] at hrun'
    simp only [Outcome.ret.injEq, Prod.mk.injEq] at hrun'
    obtain ⟨rfl, rfl⟩ := hrun'
    apply List.ext_getElem (by simp)
    intro n h1 h2
    have hn := hrow n (by simpa using h2)
    rw [Nat.zero_add] at hn
    rw [List.getElem_map]
    simpa [cells] using hn
  · rw [Listing.foldlM_store_of_lt _ (Nat.zero_le _) (by omega)] at hrun
    cases hrun

theorem listMultiNodeAndVmIp_ret {s : State} {multiIp : UInt32}
    {kService kService' : TmccNlShowServiceSt} {ret : Int}
    (h : listMultiNodeAndVmIp jhash1word s multiIp kService = .ret (ret, kService')) :
    (lookupMultiNode jhash1word s multiIp = none ∧ ret = multiNodeNotExsit ∧
      kService' = kService) ∨
    ∃ cnt idx ips, lookupMultiNode jhash1word s multiIp = some (cnt, idx, ips) ∧ ret = 0 ∧
      kService'.ret = kService.ret ∧ kService'.multiIp = multiIp ∧
      cells kService'.ipList kService'.ipNum = ips := by
  unfold listMultiNodeAndVmIp at h
  unfold lookupMultiNode
  cases hrow : rawLookupMultiNode jhash1word s multiIp with
  | none =>
    simp only [hrow, Outcome.ret.injEq, Prod.mk.injEq] at h
    exact Or.inl ⟨rfl, h.1.symm, h.2.symm⟩
  | some row =>
    simp only [hrow] at h
    split at h
    · cases h
    · simp only [Outcome.ret.injEq, Prod.mk.injEq] at h
      obtain ⟨rfl, rfl⟩ := h
      -- The probe compared the address of the node it found.
      obtain ⟨_, _, hhit, _, _⟩ := Search.probe_eq_some_iff.mp hrow
      refine Or.inr ⟨_, _, _, rfl, rfl, rfl, of_decide_eq_true hhit, ?_⟩
      exact cells_congr fun j hj => if_pos hj

theorem Request.fill_ret {request : Request} {s : State} {kService kService' : TmccNlShowServiceSt}
    {ret : Int} (h : request.fill jhash1word s kService = .ret (ret, kService')) :
    ret = (answer jhash1word s request).ret ∧ kService'.ret = kService.ret ∧
      (((answer jhash1word s request).ret ≠ 0 ∧ kService' = kService) ∨
        ((answer jhash1word s request).ret = 0 ∧
          kService'.multiIp = (answer jhash1word s request).multiIp.getD kService.multiIp ∧
          cells kService'.ipList kService'.ipNum = (answer jhash1word s request).ips)) := by
  cases request with
  | list multiIp =>
    rcases listMultiNodeAndVmIp_ret h with
      ⟨hnone, rfl, rfl⟩ | ⟨cnt, idx, ips, hfound, rfl, hret, hip, hcells⟩
    · have hans : answer jhash1word s (.list multiIp) = ⟨multiNodeNotExsit, none, []⟩ := by
        simp only [answer, hnone]
      rw [hans]
      exact ⟨rfl, rfl, Or.inl ⟨by decide, rfl⟩⟩
    · have hans : answer jhash1word s (.list multiIp) = ⟨0, some multiIp, ips⟩ := by
        simp only [answer, hfound]
      rw [hans]
      exact ⟨rfl, hret, Or.inr ⟨rfl, hip, hcells⟩⟩
  | «show» =>
    have hans : answer jhash1word s .show = ⟨0, none, groupList jhash1word s⟩ := by rw [answer]
    have hfill : ret = 0 ∧ kService'.ret = kService.ret ∧
        kService'.multiIp = kService.multiIp ∧
        cells kService'.ipList kService'.ipNum = groupList jhash1word s :=
      getAllMultiGrp_ret h
    generalize groupList jhash1word s = groups at hans hfill
    obtain ⟨rfl, hret, hip, hcells⟩ := hfill
    rw [hans]
    exact ⟨rfl, hret, Or.inr ⟨rfl, hip, hcells⟩⟩

/-! ## Steps -/

theorem Callers.next_reset {c c' : Callers} {id : Nat} {request : Request}
    (h : c.next jhash1word (.reset id request) = some c') :
    c.phase id = none ∧ c' = { c with
      kService := { c.kService with ipNum := 0 }
      phase := Function.update c.phase id (some (.reset request)) } := by
  simp only [Callers.next] at h
  split at h
  · rename_i hfree
    exact ⟨hfree, (Option.some.inj h).symm⟩
  · cases h

theorem Callers.next_fill {c c' : Callers} {id : Nat}
    (h : c.next jhash1word (.fill id) = some c') :
    ∃ request ret kService, c.phase id = some (.reset request) ∧
      request.fill jhash1word c.table c.kService = .ret (ret, kService) ∧
      c' = { c with
        kService
        phase := Function.update c.phase id
          (some (.filled ret (answer jhash1word c.table request))) } := by
  simp only [Callers.next] at h
  split at h
  · rename_i request hreset
    split at h
    · rename_i ret kService hfill
      exact ⟨request, ret, kService, hreset, hfill, (Option.some.inj h).symm⟩
    · cases h
  · cases h

theorem Callers.next_setRet {c c' : Callers} {id : Nat}
    (h : c.next jhash1word (.setRet id) = some c') :
    ∃ ret ans, c.phase id = some (.filled ret ans) ∧ c' = { c with
      kService := { c.kService with ret }
      phase := Function.update c.phase id (some (.set ans)) } := by
  simp only [Callers.next] at h
  split at h
  · rename_i ret ans hfilled
    exact ⟨ret, ans, hfilled, (Option.some.inj h).symm⟩
  · cases h

theorem Callers.next_copy {c c' : Callers} {id : Nat}
    (h : c.next jhash1word (.copy id) = some c') :
    c' = { c with phase := Function.update c.phase id none } := by
  simp only [Callers.next] at h
  split at h
  · exact (Option.some.inj h).symm
  · cases h

theorem Callers.next_command {c c' : Callers} {msg : NlMessage}
    (h : c.next jhash1word (.command msg) = some c') :
    c'.kService = c.kService ∧ c'.phase = c.phase := by
  simp only [Callers.next] at h
  split at h
  · obtain rfl := Option.some.inj h
    exact ⟨rfl, rfl⟩
  · cases h

/-- The code that a request sets is that of its answer. -/
def RetOk (c : Callers) : Prop :=
  ∀ id ret ans, c.phase id = some (.filled ret ans) → ret = ans.ret

theorem Callers.next_retOk {c c' : Callers} {act : CallerAct} (hret : RetOk c)
    (hnext : c.next jhash1word act = some c') : RetOk c' := by
  have hupdate : ∀ id phase, (∀ ret ans, phase = some (Phase.filled ret ans) → ret = ans.ret) →
      ∀ id' ret ans, Function.update c.phase id phase id' = some (.filled ret ans) →
        ret = ans.ret := by
    intro id phase hphase id' ret ans h
    rw [Function.update_apply] at h
    split at h
    · exact hphase ret ans h
    · exact hret id' ret ans h
  cases act with
  | reset id request =>
    obtain ⟨_, rfl⟩ := Callers.next_reset hnext
    exact hupdate id _ (by simp)
  | fill id =>
    obtain ⟨request, ret, kService, _, hfill, rfl⟩ := Callers.next_fill hnext
    apply hupdate id _
    intro ret' ans he
    obtain ⟨rfl, rfl⟩ := by simpa using he
    exact (Request.fill_ret hfill).1
  | setRet id =>
    obtain ⟨ret, ans, _, rfl⟩ := Callers.next_setRet hnext
    exact hupdate id _ (by simp)
  | copy id =>
    obtain rfl := Callers.next_copy hnext
    exact hupdate id _ (by simp)
  | command msg =>
    intro id ret ans h
    rw [(Callers.next_command hnext).2] at h
    exact hret id ret ans h

/-- A step that leaves the reply of `id` pending leaves those of the others as they are. -/
theorem pending_of_update {phase : Nat → Option Phase} {id id' : Nat} {ph : Option Phase}
    {ans : Answer} (hph : ∀ ans, ph ≠ some (.set ans))
    (h : Function.update phase id ph id' = some (.set ans)) : phase id' = some (.set ans) := by
  rw [Function.update_apply] at h
  split at h
  · exact absurd h (hph ans)
  · exact h

theorem pending_update {phase : Nat → Option Phase} {id id' : Nat} {ph : Option Phase}
    {ans : Answer} (hid : ∀ ans, phase id ≠ some (.set ans))
    (h : phase id' = some (.set ans)) : Function.update phase id ph id' = some (.set ans) := by
  rw [Function.update_of_ne]
  · exact h
  · rintro rfl
    exact hid ans h

/-- The list that a fill leaves is right for a waiting reply exactly where the two answers do not
differ. -/
theorem hasList_fill {kService kService' : TmccNlShowServiceSt} {ans ans' : Answer}
    (hip : kService'.multiIp = ans.multiIp.getD kService.multiIp)
    (hcells : cells kService'.ipList kService'.ipNum = ans.ips) (hold : kService.HasList ans') :
    kService'.HasList ans' ↔ ans'.ips = ans.ips ∧
      ∀ g g', ans.multiIp = some g → ans'.multiIp = some g' → g' = g := by
  unfold TmccNlShowServiceSt.HasList
  rw [hcells, hip]
  constructor
  · rintro ⟨hgroup, hips⟩
    refine ⟨hips.symm, fun g g' hg hg' => ?_⟩
    have hsame := hgroup g' hg'
    rw [hg, Option.getD_some] at hsame
    exact hsame.symm
  · rintro ⟨hips, hgroup⟩
    refine ⟨fun g' hg' => ?_, hips.symm⟩
    cases hg : ans.multiIp with
    | none => exact hold.1 g' hg'
    | some g => exact (hgroup g g' hg hg').symm

theorem hasList_reset {kService : TmccNlShowServiceSt} {ans : Answer} (hold : kService.HasList ans) :
    { kService with ipNum := 0 }.HasList ans ↔ ans.ips = [] :=
  ⟨fun h => h.2.symm, fun h => ⟨hold.1, h.symm⟩⟩

/-- A step under the condition leaves every waiting reply right. -/
theorem Callers.next_ownAnswer {c c' : Callers} {act : CallerAct} (hown : OwnAnswer c)
    (hret : RetOk c) (hnext : c.next jhash1word act = some c')
    (hgood : Undisturbed jhash1word c act) : OwnAnswer c' := by
  cases act with
  | reset id request =>
    obtain ⟨_, rfl⟩ := Callers.next_reset hnext
    intro id' ans' hset
    have hold := pending_of_update (by simp) hset
    obtain ⟨hcode, hlist⟩ := hown id' ans' hold
    exact ⟨hcode, (hasList_reset hlist).mpr (hgood id' ans' hold)⟩
  | fill id =>
    obtain ⟨request, ret, kService, hreset, hfill, rfl⟩ := Callers.next_fill hnext
    intro id' ans' hset
    have hold := pending_of_update (by simp) hset
    obtain ⟨hcode, hlist⟩ := hown id' ans' hold
    obtain ⟨_, hsame, hkept | ⟨hzero, hip, hcells⟩⟩ := Request.fill_ret hfill
    · obtain ⟨_, rfl⟩ := hkept
      exact ⟨hcode, hlist⟩
    · refine ⟨hsame.trans hcode, ?_⟩
      exact (hasList_fill hip hcells hlist).mpr (hgood request hreset hzero id' ans' hold)
  | setRet id =>
    obtain ⟨ret, ans, hfilled, rfl⟩ := Callers.next_setRet hnext
    obtain ⟨hlist, hothers⟩ := hgood ret ans hfilled
    intro id' ans' hset
    rcases eq_or_ne id' id with rfl | hne
    · obtain rfl : ans = ans' := by simpa using hset
      exact ⟨hret id' ret ans hfilled, hlist⟩
    · have hold : c.phase id' = some (.set ans') :=
        (Function.update_of_ne hne ..).symm.trans hset
      exact ⟨(hothers id' ans' hold).symm, (hown id' ans' hold).2⟩
  | copy id =>
    obtain rfl := Callers.next_copy hnext
    intro id' ans' hset
    exact hown id' ans' (pending_of_update (by simp) hset)
  | command msg =>
    obtain ⟨hsame, hphase⟩ := Callers.next_command hnext
    intro id' ans' hset
    rw [hphase] at hset
    rw [hsame]
    exact hown id' ans' hset

/-- A step that breaks the condition leaves a waiting reply wrong. -/
theorem Callers.undisturbed_of_next {c c' : Callers} {act : CallerAct} (hown : OwnAnswer c)
    (hnext : c.next jhash1word act = some c') (hown' : OwnAnswer c') :
    Undisturbed jhash1word c act := by
  cases act with
  | reset id request =>
    obtain ⟨hfree, rfl⟩ := Callers.next_reset hnext
    intro id' ans' hset
    have hnew := (hown' id' ans' (pending_update (by simp [hfree]) hset)).2
    exact (hasList_reset (hown id' ans' hset).2).mp hnew
  | fill id =>
    obtain ⟨request, ret, kService, hreset, hfill, rfl⟩ := Callers.next_fill hnext
    intro request' hreset' hzero id' ans' hset
    obtain rfl : request = request' := by simpa [hreset] using hreset'
    obtain ⟨_, _, ⟨hcode, _⟩ | ⟨_, hip, hcells⟩⟩ := Request.fill_ret hfill
    · exact absurd hzero hcode
    · have hnew := (hown' id' ans' (pending_update (by simp [hreset]) hset)).2
      exact (hasList_fill hip hcells (hown id' ans' hset).2).mp hnew
  | setRet id =>
    obtain ⟨ret, ans, hfilled, rfl⟩ := Callers.next_setRet hnext
    intro ret' ans₁ hfilled'
    obtain ⟨rfl, rfl⟩ : ret = ret' ∧ ans = ans₁ := by simpa [hfilled] using hfilled'
    refine ⟨(hown' id ans (Function.update_self ..)).2, fun id' ans' hset => ?_⟩
    exact (hown' id' ans' (pending_update (by simp [hfilled]) hset)).1.symm
  | copy id => trivial
  | command msg => trivial

/-! ## Runs -/

/-- On the empty table, a SHOW that sets its code behind a LIST of a missing group: the LIST gets
0 for `MULTI_NODE_NOT_EXSIT`. -/
def showBehindList : List CallerAct :=
  [.reset 0 (.list 0xE1000001), .fill 0, .setRet 0, .reset 1 .show, .fill 1, .setRet 1]

theorem fill_multiNodeInit (kService : TmccNlShowServiceSt) :
    Request.show.fill jhash1word multiNodeInit kService =
      .ret (0, { kService with ipNum := 0 }) := by
  have hlist := Listing.buckets_eq (layout jhash1word) (Listing.store multiVmMax storeIp)
    multiNodeInit.multiGrp multiGrpBucket (0, kService.ipList)
  rw [BucketLayout.scan_of_free (fun _ _ => rfl)] at hlist
  exact Outcome.bind_eq_ret_iff.mpr ⟨_, hlist, rfl⟩

theorem showBehindList_exec (jhash1word : UInt32 → UInt32 → UInt32) :
    ∃ c, Trace.exec (Callers.next jhash1word) Callers.init showBehindList = some c ∧
      c.phase 0 = some (.set ⟨multiNodeNotExsit, none, []⟩) ∧ c.kService.ret = 0 := by
  have hnone : rawLookupMultiNode jhash1word multiNodeInit 0xE1000001 = none :=
    nodeOf_eq_none_iff.mp (nodeOf_multiNodeInit _)
  have hlist : ∀ kService, Request.fill jhash1word multiNodeInit kService (.list 0xE1000001) =
      .ret (multiNodeNotExsit, kService) := by
    intro kService
    simp only [Request.fill, listMultiNodeAndVmIp, hnone]
  have hans : answer jhash1word multiNodeInit (.list 0xE1000001) =
      ⟨multiNodeNotExsit, none, []⟩ := by
    simp only [answer, lookupMultiNode, hnone]
  simp only [showBehindList, Trace.exec, Callers.next, Callers.init, Function.update_self, hlist,
    hans, fill_multiNodeInit, Option.bind_some, Function.update_of_ne, ne_eq, one_ne_zero,
    not_false_eq_true, Option.some.injEq, exists_eq_left', zero_ne_one, and_self]

theorem not_own_answer : ¬ ∃ jhash1word, ∀ acts,
    Trace.Throughout (Callers.next jhash1word) OwnAnswer Callers.init acts := by
  rintro ⟨jhash1word, hown⟩
  obtain ⟨c, hexec, hphase, hret⟩ := showBehindList_exec jhash1word
  have hcode := ((hown showBehindList).of_exec hexec 0 _ hphase).1
  rw [hret] at hcode
  cases hcode

/-- In every run each caller gets the answer to its own request exactly if no step writes over a
reply that is still to be copied. -/
theorem own_answer_iff (jhash1word : UInt32 → UInt32 → UInt32) (acts : List CallerAct) :
    Trace.Throughout (Callers.next jhash1word) OwnAnswer Callers.init acts ↔
      Trace.EachStep (Callers.next jhash1word) (Undisturbed jhash1word) Callers.init acts := by
  apply Trace.throughout_iff_eachStep (I := fun c => OwnAnswer c ∧ RetOk c)
  · exact fun c h => h.1
  · intro c act c' h hnext hgood
    exact ⟨Callers.next_ownAnswer h.1 h.2 hnext hgood, Callers.next_retOk h.2 hnext⟩
  · intro c act c' h hnext hbad hown'
    exact hbad (Callers.undisturbed_of_next h.1 hnext hown')
  · exact ⟨fun _ _ h => by simp [Callers.init] at h, fun _ _ _ h => by simp [Callers.init] at h⟩

end MulticastProxy.KernelServer
