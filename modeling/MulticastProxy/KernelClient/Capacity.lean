import MulticastProxy.KernelClient.Fill
import MulticastProxy.KernelClient.Listing
import MulticastProxy.Library.Trace

/-!
# Kernel client: adds that overlap (`add_multi_node` of `kmod/multic_grp.c`)

`add_multi_node` compares `node_cnt` with `MULTI_GRP_MAX` before it takes the lock. Between its
check and its insertion other requests run.
-/

namespace MulticastProxy.KernelClient

set_option autoImplicit false

/-- The table, and the adds that have passed their check and wait for the lock. -/
structure Requests where
  table : State
  waiting : Nat → Option TmccNlServiceSt

inductive Act where
  | check (id : Nat) (service : TmccNlServiceSt)
  | insert (id : Nat)
  | del (service : TmccNlServiceSt)
  | clear

section
variable (jhash2words : UInt32 → UInt32 → UInt32 → UInt32)

/-- One atomic step. An insertion that never ends keeps the lock. -/
def Requests.next (r : Requests) : Act → Option Requests
  | .check id service =>
    match r.waiting id with
    | some _ => none
    | none =>
      if multiGrpMax ≤ r.table.nodeCnt then some r
      else some { r with waiting := Function.update r.waiting id (some service) }
  | .insert id =>
    match r.waiting id with
    | none => none
    | some service =>
      match insertMultiNode jhash2words r.table service.multiIp service.serverIp service.port with
      | .ret (_, s) => some ⟨s, Function.update r.waiting id none⟩
      | _ => none
  | .del service =>
    some { r with table := (delMultiNode jhash2words r.table service.serverIp service.port).2 }
  | .clear => some { r with table := (clearMultiNode r.table).2 }

/-- The table has no more entries than the reply has places for, and a listing stays inside it. -/
def WithinCapacity (r : Requests) : Prop :=
  (liveNodes jhash2words r.table).card ≤ multiGrpMax ∧
    ∀ kService, listAllMultiGrp r.table kService ≠ .fault

/-- The check would let the insertion pass if it were made again under the lock. -/
def CheckedAgain (r : Requests) : Act → Prop
  | .insert id => ∀ service, r.waiting id = some service →
    rawLookupIpPortNode jhash2words r.table service.serverIp service.port = none →
    r.table.nodeCnt < multiGrpMax
  | _ => True

end

def Requests.idle (s : State) : Requests := ⟨s, fun _ => none⟩

def Requests.init : Requests := .idle multiNodeInit

variable {jhash2words : UInt32 → UInt32 → UInt32 → UInt32}

theorem WellFormed.withinCapacity {r : Requests} (wf : WellFormed jhash2words r.table) :
    WithinCapacity jhash2words r := by
  have hcount := wf.count
  have hbound := wf.bound
  have hcard : (liveNodes jhash2words r.table).card ≤ multiGrpMax := by omega
  refine ⟨hcard, fun kService hfault => ?_⟩
  obtain ⟨kService', hrun, _⟩ := wf.lists kService hcard
  simp [hrun] at hfault

theorem WellFormed.insertMultiNode {s s' : State} (wf : WellFormed jhash2words s)
    {multiIp ip : UInt32} {port : UInt16} {code : Int}
    (hins : insertMultiNode jhash2words s multiIp ip port = .ret (code, s'))
    (hroom : rawLookupIpPortNode jhash2words s ip port = none → s.nodeCnt < multiGrpMax) :
    WellFormed jhash2words s' := by
  rcases insertMultiNode_inv hins with
    ⟨rfl, _⟩ | ⟨_, row, hrow, _, hs'⟩ | ⟨_, hrow, i, hi, hfree, hbusy, hs'⟩
  · exact wf
  · exact (wf.replace hrow hs').1
  · have hdepth : i < multiGrpDepth := Nat.lt_of_lt_of_le hi byte_le_depth
    exact (wf.insert (hroom hrow) hrow hdepth hfree hbusy hs').1

theorem Requests.next_wellFormed {r r' : Requests} {act : Act}
    (wf : WellFormed jhash2words r.table) (h : r.next jhash2words act = some r')
    (hcheck : CheckedAgain jhash2words r act) : WellFormed jhash2words r'.table := by
  cases act with
  | check id service =>
    simp only [Requests.next] at h
    split at h
    · cases h
    · split at h
      · obtain rfl := Option.some.inj h
        exact wf
      · obtain rfl := Option.some.inj h
        exact wf
  | insert id =>
    simp only [Requests.next] at h
    split at h
    · cases h
    · rename_i service hwait
      split at h
      · rename_i code s hins
        obtain rfl := Option.some.inj h
        exact wf.insertMultiNode hins (hcheck service hwait)
      · cases h
  | del service =>
    obtain rfl := Option.some.inj h
    rcases delMultiNode_cases wf service.serverIp service.port with ⟨_, hd⟩ | ⟨t, hd, _, hwf, _⟩
    · simp only [hd]
      exact wf
    · simp only [hd]
      exact hwf
  | clear =>
    obtain rfl := Option.some.inj h
    exact wellFormed_of_free (clearMultiNode_free wf) rfl

theorem insert_overflow {s s' : State} (wf : WellFormed jhash2words s) {multiIp ip : UInt32}
    {port : UInt16} {code : Int}
    (hins : KernelClient.insertMultiNode jhash2words s multiIp ip port = .ret (code, s'))
    (hnew : rawLookupIpPortNode jhash2words s ip port = none) (hfull : ¬ s.nodeCnt < multiGrpMax) :
    multiGrpMax < (liveNodes jhash2words s').card ∧
      (layout jhash2words).WellFormed s'.multiGrp := by
  rcases insertMultiNode_inv hins with
    ⟨_, _, row, hrow, _⟩ | ⟨_, row, hrow, _, _⟩ | ⟨_, hrow, i, hi, hfree, hbusy, hs'⟩
  · simp [hnew] at hrow
  · simp [hnew] at hrow
  · have hdepth : i < multiGrpDepth := Nat.lt_of_lt_of_le hi byte_le_depth
    obtain ⟨htable, hcard, _⟩ := insert_cells wf.table hrow hdepth hfree hbusy hs'
    have hcount := wf.count
    exact ⟨by omega, htable⟩

theorem Requests.next_overflow {r r' : Requests} {act : Act}
    (wf : WellFormed jhash2words r.table) (h : r.next jhash2words act = some r')
    (hcheck : ¬ CheckedAgain jhash2words r act) :
    multiGrpMax < (liveNodes jhash2words r'.table).card := by
  cases act with
  | check id service => exact absurd trivial hcheck
  | del service => exact absurd trivial hcheck
  | clear => exact absurd trivial hcheck
  | insert id =>
    simp only [CheckedAgain, not_forall] at hcheck
    obtain ⟨service, hwait, hnew, hfull⟩ := hcheck
    simp only [Requests.next, hwait] at h
    split at h
    · rename_i code s hins
      obtain rfl := Option.some.inj h
      exact (insert_overflow wf hins hnew hfull).1
    · cases h

/-- The table stays within its capacity in every state of a run exactly where the check, made again
under the lock, would let every insertion of a new key pass. -/
theorem within_capacity_iff (as : List Act) :
    Trace.Throughout (Requests.next jhash2words) (WithinCapacity jhash2words) Requests.init as ↔
      Trace.EachStep (Requests.next jhash2words) (CheckedAgain jhash2words) Requests.init as := by
  refine Trace.throughout_iff_eachStep (I := fun r => WellFormed jhash2words r.table)
    (fun r wf => wf.withinCapacity) (fun r act r' wf h => Requests.next_wellFormed wf h)
    (fun r act r' wf h hcheck hwithin => ?_) multiNodeInit_wellFormed as
  exact absurd hwithin.1 (Nat.not_le.mpr (Requests.next_overflow wf h hcheck))

/-! ## Two adds at the limit -/

/-- Some 1025 keys of which no bucket gets more than 256. -/
def Spreads (jhash2words : UInt32 → UInt32 → UInt32 → UInt32) : Prop :=
  ∃ keys : List Key, keys.length = multiGrpMax + 1 ∧ keys.Nodup ∧
    ∀ b, (keys.filter fun k => bucketOf jhash2words k = b).length ≤ 256

def fillActs (keys : List Key) : List Act :=
  keys.flatMap fun k => [.check 0 (serviceOf k), .insert 0]

theorem Requests.next_check {r : Requests} {id : Nat} {service : TmccNlServiceSt}
    (hidle : r.waiting id = none) (hroom : r.table.nodeCnt < multiGrpMax) :
    r.next jhash2words (.check id service) =
      some { r with waiting := Function.update r.waiting id (some service) } := by
  simp only [Requests.next, hidle]
  rw [if_neg (by omega)]

theorem Requests.next_insert {r : Requests} {id : Nat} {service : TmccNlServiceSt} {s : State}
    (hwait : r.waiting id = some service)
    (hins : KernelClient.insertMultiNode jhash2words r.table service.multiIp service.serverIp
      service.port = .ret (0, s)) :
    r.next jhash2words (.insert id) = some ⟨s, Function.update r.waiting id none⟩ := by
  simp only [Requests.next, hwait, hins]

theorem Sim.insertMultiNode {es : Entries} {s : State} (sim : Sim jhash2words es s) {k : Key}
    (h : Loadable jhash2words (es.map Prod.fst ++ [k])) :
    ∃ s', KernelClient.insertMultiNode jhash2words s 0xE1000001 k.1 k.2 = .ret (0, s') ∧
      Sim jhash2words (es ++ [(k, 0xE1000001)]) s' := by
  obtain ⟨s', hadd, sim'⟩ := sim.addMultiNode (show Loadable jhash2words
    (es.map Prod.fst ++ [((k, 0xE1000001) : Key × UInt32).1]) from h)
  rcases addMultiNode_ret hadd with ⟨_, h0, _⟩ | ⟨_, hins⟩
  · simp at h0
  · exact ⟨s', hins, sim'⟩

theorem exec_fillActs {keys : List Key} {es : Entries} {s : State} (sim : Sim jhash2words es s)
    (h : Loadable jhash2words (es.map Prod.fst ++ keys)) :
    ∃ es' s', Trace.exec (Requests.next jhash2words) (.idle s) (fillActs keys) = some (.idle s') ∧
      Sim jhash2words es' s' ∧ es'.map Prod.fst = es.map Prod.fst ++ keys := by
  induction keys generalizing es s with
  | nil => exact ⟨es, s, rfl, sim, by simp⟩
  | cons k keys ih =>
    have happend : es.map Prod.fst ++ k :: keys = es.map Prod.fst ++ [k] ++ keys := by simp
    rw [happend] at h ⊢
    have hlen := sim.length
    have hlt := h.of_append.length_lt
    obtain ⟨s1, hins, sim1⟩ := sim.insertMultiNode h.of_append
    have hkeys : (es ++ [(k, (0xE1000001 : UInt32))]).map Prod.fst = es.map Prod.fst ++ [k] := by
      simp
    rw [← hkeys] at h ⊢
    obtain ⟨es', s', hexec, sim', hes'⟩ := ih sim1 h
    refine ⟨es', s', ?_, sim', hes'⟩
    have hcheck : (Requests.idle s).next jhash2words (.check 0 (serviceOf k)) =
        some ⟨s, Function.update (fun _ => none) 0 (some (serviceOf k))⟩ :=
      Requests.next_check rfl (by simp only [Requests.idle]; omega)
    have hinsert : Requests.next jhash2words
        ⟨s, Function.update (fun _ => none) 0 (some (serviceOf k))⟩ (.insert 0) =
        some (.idle s1) := by
      have hwait : Function.update (fun _ => none) 0 (some (serviceOf k)) 0 =
          some (serviceOf k) := Function.update_self ..
      rw [Requests.next_insert hwait hins]
      simp [Requests.idle]
    have hacts : fillActs (k :: keys) =
        .check 0 (serviceOf k) :: .insert 0 :: fillActs keys := rfl
    rw [hacts, Trace.exec_cons hcheck, Trace.exec_cons hinsert, hexec]

theorem spreads_first : Spreads fun a _ _ => a := by
  refine ⟨(List.range 1025).map fun i => (UInt32.ofNat i, 0), by simp, ?_, fun b => ?_⟩
  · refine List.Nodup.map_on (fun i hi j hj he => ?_) List.nodup_range
    have hi := Finset.mem_range.mpr (List.mem_range.mp hi)
    have hj := Finset.mem_range.mpr (List.mem_range.mp hj)
    have hle : 1025 ≤ 2 ^ 32 := by decide
    exact UInt32.ofNat_injOn hle hi hj (Prod.mk.inj he).1
  · -- Bucket `b` gets the addresses `b` and `b + 1024`.
    rw [List.filter_map, List.length_map]
    have hbucket : ∀ i ∈ List.range 1025,
        ((fun k : Key => decide (bucketOf (fun a _ _ => a) k = b)) ∘
          fun i => (UInt32.ofNat i, 0)) i = true → i ∈ [b, b + 1024] := by
      intro i hi hb
      have hi := List.mem_range.mp hi
      have hb := of_decide_eq_true hb
      rw [bucketOf, ipPortHashKey, UInt32.toNat_ofNat_of_lt' (by simp [UInt32.size]; omega)] at hb
      have hb : i % 1024 = b := hb
      rw [List.mem_cons, List.mem_singleton]
      omega
    have hle := ((List.nodup_range.filter _).subperm fun i hi =>
      hbucket i (List.mem_filter.mp hi).1 (List.mem_filter.mp hi).2).length_le
    simp only [List.length_cons, List.length_nil] at hle
    exact hle.trans (by decide)

/-- Two adds, both checked before either inserts. -/
theorem exec_overlap {s s1 s2 : State} {a b : Key} (hroom : s.nodeCnt < multiGrpMax)
    (hinsA : KernelClient.insertMultiNode jhash2words s 0xE1000001 a.1 a.2 = .ret (0, s1))
    (hinsB : KernelClient.insertMultiNode jhash2words s1 0xE1000001 b.1 b.2 = .ret (0, s2)) :
    Trace.exec (Requests.next jhash2words) (.idle s)
      [.check 0 (serviceOf a), .check 1 (serviceOf b), .insert 0, .insert 1] =
        some (.idle s2) := by
  have hcheckA : Requests.next jhash2words (.idle s) (.check 0 (serviceOf a)) =
      some ⟨s, Function.update (fun _ => none) 0 (some (serviceOf a))⟩ :=
    Requests.next_check rfl hroom
  have hcheckB : Requests.next jhash2words
      ⟨s, Function.update (fun _ => none) 0 (some (serviceOf a))⟩ (.check 1 (serviceOf b)) =
      some ⟨s, Function.update (Function.update (fun _ => none) 0 (some (serviceOf a))) 1
        (some (serviceOf b))⟩ := Requests.next_check rfl hroom
  have hwaitA : Function.update (Function.update (fun _ => none) 0 (some (serviceOf a))) 1
      (some (serviceOf b)) 0 = some (serviceOf a) := rfl
  have hwaitB : Function.update (Function.update (Function.update (fun _ => none) 0
      (some (serviceOf a))) 1 (some (serviceOf b))) 0 none 1 = some (serviceOf b) := rfl
  have hidle : Function.update (Function.update (Function.update (Function.update (fun _ => none) 0
      (some (serviceOf a))) 1 (some (serviceOf b))) 0 none) 1 none = fun _ : Nat => none := by
    funext id
    simp only [Function.update_apply]
    split
    · rfl
    · split <;> rfl
  rw [Trace.exec_cons hcheckA, Trace.exec_cons hcheckB,
    Trace.exec_cons (Requests.next_insert hwaitA hinsA),
    Trace.exec_cons (Requests.next_insert hwaitB hinsB), Trace.exec_nil, hidle]
  rfl

/-- Two adds pass their checks at 1023 entries, and both insert. -/
theorem exec_two_adds {keys : List Key} {a b : Key}
    (hnd : (keys ++ [a] ++ [b]).Nodup) (hlen : keys.length + 1 = multiGrpMax)
    (hbucket : ∀ n, ((keys ++ [a] ++ [b]).filter fun k => bucketOf jhash2words k = n).length ≤ 256) :
    ∃ s, Trace.exec (Requests.next jhash2words) .init
        (fillActs keys ++ [.check 0 (serviceOf a), .check 1 (serviceOf b), .insert 0, .insert 1]) =
          some (.idle s) ∧
      multiGrpMax < (liveNodes jhash2words s).card ∧
      (layout jhash2words).WellFormed s.multiGrp := by
  have hload : Loadable jhash2words (keys ++ [a]) := by
    refine ⟨(List.nodup_append.mp hnd).1, by simp; omega, fun n => ?_⟩
    have hn := hbucket n
    rw [List.filter_append, List.length_append] at hn
    omega
  obtain ⟨es, s, hfill, sim, hes⟩ := exec_fillActs sim_init hload.of_append
  rw [List.map_nil, List.nil_append] at hes
  rw [← hes] at hload hlen hnd hbucket
  rw [List.length_map] at hlen
  have hcnt := sim.length
  obtain ⟨s1, hins, sim1⟩ := sim.insertMultiNode hload
  have hkeys : (es ++ [(a, (0xE1000001 : UInt32))]).map Prod.fst = es.map Prod.fst ++ [a] := by simp
  rw [← hkeys] at hnd hbucket
  have hnew : AssocList.get (es ++ [(a, (0xE1000001 : UInt32))]) b = none := by
    rw [AssocList.get_eq_none_iff]
    exact fun hmem => (List.nodup_append.mp hnd).2.2 _ hmem _ (List.mem_singleton_self _) rfl
  rw [sim1.maps] at hnew
  obtain ⟨i, hi, hfree⟩ := sim1.exists_free hbucket
  obtain ⟨s2, hins2⟩ := insertMultiNode_returns 0xE1000001 hnew hi hfree
  have hfull := sim1.length
  rw [List.length_append, List.length_singleton] at hfull
  refine ⟨s2, ?_, insert_overflow sim1.wf hins2 (entry_eq_none_iff.mp hnew) (by omega)⟩
  rw [Requests.init, Trace.exec_append _ hfill]
  exact exec_overlap (by omega) hins hins2

/-- For every hash that spreads some 1025 keys, two overlapping adds overfill the table, and a
listing runs past its arrays. -/
theorem not_within_capacity : (∃ jhash2words, Spreads jhash2words) ∧
    ∀ jhash2words, Spreads jhash2words →
      ∃ as r, Trace.exec (Requests.next jhash2words) .init as = some r ∧
        multiGrpMax < (liveNodes jhash2words r.table).card ∧
        ∀ kService, listAllMultiGrp r.table kService = .fault := by
  refine ⟨⟨_, spreads_first⟩, fun jhash2words hspreads => ?_⟩
  obtain ⟨keys, hlen, hnd, hbucket⟩ := hspreads
  obtain ⟨keys, b, rfl⟩ := List.eq_nil_or_concat' keys |>.resolve_left (by rintro rfl; simp at hlen)
  rw [List.length_append, List.length_singleton] at hlen
  obtain ⟨keys, a, rfl⟩ := List.eq_nil_or_concat' keys |>.resolve_left (by rintro rfl; simp at hlen)
  rw [List.length_append, List.length_singleton] at hlen
  obtain ⟨s, hexec, hover, htable⟩ := exec_two_adds hnd (by omega) hbucket
  exact ⟨_, .idle s, hexec, hover, listAllMultiGrp_fault htable hover⟩

end MulticastProxy.KernelClient
