import MulticastProxy.KernelClient.GroupSpec
import MulticastProxy.Library.Listing

/-!
# Kernel client: listing (`list_all_multi_grp` of `kmod/multic_grp.c`)

The entries are copied into arrays of `MULTI_GRP_MAX` places, bucket by bucket up to the first free
cell of each.
-/

namespace MulticastProxy.KernelClient

set_option autoImplicit false

/-- The reply buffer. -/
structure TmccNlShowServiceSt where
  ret : Int
  nodeCnt : Nat
  port : Nat → UInt16
  serverIp : Nat → UInt32
  multiIp : Nat → UInt32

def TmccNlShowServiceSt.store (kService : TmccNlShowServiceSt) (k : Nat) (node : MultiNode) :
    TmccNlShowServiceSt :=
  { kService with
    multiIp := Function.update kService.multiIp k node.multiIp
    port := Function.update kService.port k node.port
    serverIp := Function.update kService.serverIp k node.serverIp }

/-- The arrays end at `MULTI_GRP_MAX`. -/
def listAllMultiGrp (s : State) (kService : TmccNlShowServiceSt) :
    Outcome (Int × TmccNlShowServiceSt) := do
  let (k, kService) ← Listing.buckets (fun node => node.created)
    (Listing.store multiGrpMax TmccNlShowServiceSt.store) multiGrpDepth s.multiGrp multiGrpBucket 0
    (0, kService)
  .ret (0, { kService with nodeCnt := k })

/-! ## What a listing writes -/

def TmccNlShowServiceSt.row (kService : TmccNlShowServiceSt) (k : Nat) : UInt32 × UInt16 × UInt32 :=
  (kService.multiIp k, kService.port k, kService.serverIp k)

def MultiNode.row (node : MultiNode) : UInt32 × UInt16 × UInt32 :=
  (node.multiIp, node.port, node.serverIp)

theorem row_store (kService : TmccNlShowServiceSt) (k : Nat) (node : MultiNode) :
    (kService.store k node).row = Function.update kService.row k node.row := by
  funext j
  simp only [TmccNlShowServiceSt.row, TmccNlShowServiceSt.store, Function.update_apply]
  split <;> rfl

section
variable (jhash2words : UInt32 → UInt32 → UInt32 → UInt32)

/-- The nodes that a listing copies, in its order. -/
@[irreducible] def listed (s : State) : List MultiNode :=
  ((layout jhash2words).scan multiGrpBucket s.multiGrp).map fun p => s.multiGrp p.1 p.2

theorem listAllMultiGrp_eq (s : State) (kService : TmccNlShowServiceSt) :
    listAllMultiGrp s kService =
      ((listed jhash2words s).foldlM (Listing.store multiGrpMax TmccNlShowServiceSt.store)
        (0, kService) >>= fun acc => .ret (0, { acc.2 with nodeCnt := acc.1 })) := by
  have hlist := Listing.buckets_eq (layout jhash2words)
    (Listing.store multiGrpMax TmccNlShowServiceSt.store) s.multiGrp multiGrpBucket (0, kService)
  unfold listed listAllMultiGrp
  rw [← hlist]
  rfl

/-- What the reply holds: one row for each live node, and nothing else is written. -/
structure Lists (s : State) (kService kService' : TmccNlShowServiceSt) : Prop where
  count : (kService'.nodeCnt : Int) = s.nodeCnt
  live : ∀ k < kService'.nodeCnt, ∃ b i, (s.multiGrp b i).created = true ∧
    kService'.row k = (s.multiGrp b i).row
  once : ∀ b i, (s.multiGrp b i).created = true →
    ∃! k, k < kService'.nodeCnt ∧ kService'.row k = (s.multiGrp b i).row
  frame : ∀ k, kService'.nodeCnt ≤ k → kService'.row k = kService.row k

/-- The counter counts the live nodes, they fill their buckets from the front, and each key is in
its bucket and nowhere else. -/
structure TableOk (s : State) : Prop where
  count : s.nodeCnt = (liveNodes jhash2words s).card
  bound : s.nodeCnt ≤ multiGrpMax
  row : ∀ b i, (s.multiGrp b i).created = true → b < multiGrpBucket ∧ i < multiGrpDepth
  front : ∀ b i j, i ≤ j → (s.multiGrp b j).created = true → (s.multiGrp b i).created = true
  home : ∀ b i, (s.multiGrp b i).created = true →
    ipPortHashKey jhash2words (s.multiGrp b i).serverIp (s.multiGrp b i).port multiGrpBucket = b
  distinct : ∀ b i b' i', (s.multiGrp b i).created = true → (s.multiGrp b' i').created = true →
    (s.multiGrp b i).serverIp = (s.multiGrp b' i').serverIp →
    (s.multiGrp b i).port = (s.multiGrp b' i').port → b = b' ∧ i = i'

end

variable {jhash2words : UInt32 → UInt32 → UInt32 → UInt32} {s : State}

theorem WellFormed.tableOk (wf : WellFormed jhash2words s) : TableOk jhash2words s where
  count := wf.count
  bound := wf.bound
  row := fun b i hl => by
    have hb : _ = b := wf.table.home b i hl
    exact ⟨hb ▸ ipPortHashKey_lt _, wf.table.row_lt hl⟩
  front := fun _ _ _ hij hl => wf.table.prefix_closed hij hl
  home := wf.table.home
  distinct := fun _ _ _ _ hl hl' hip hport => wf.table.cell_unique hl hl' (Prod.ext hip hport)

section
variable (htable : (layout jhash2words).WellFormed s.multiGrp)
include htable

theorem length_listed : (listed jhash2words s).length = (liveNodes jhash2words s).card := by
  unfold listed liveNodes
  rw [List.length_map]
  exact BucketLayout.WellFormed.length_scan htable ipPortHashKey_lt

theorem mem_listed {node : MultiNode} :
    node ∈ listed jhash2words s ↔ ∃ b i, (s.multiGrp b i).created = true ∧ s.multiGrp b i = node := by
  unfold listed
  rw [List.mem_map]
  constructor
  · rintro ⟨p, hp, rfl⟩
    exact ⟨p.1, p.2, (BucketLayout.WellFormed.mem_scan htable ipPortHashKey_lt).mp hp, rfl⟩
  · rintro ⟨b, i, hl, rfl⟩
    exact ⟨(b, i), (BucketLayout.WellFormed.mem_scan htable ipPortHashKey_lt).mpr hl, rfl⟩

/-- More live nodes than the arrays have places for: the listing runs past their end. -/
theorem listAllMultiGrp_fault (h : multiGrpMax < (liveNodes jhash2words s).card)
    (kService : TmccNlShowServiceSt) : listAllMultiGrp s kService = .fault := by
  rw [listAllMultiGrp_eq jhash2words, Listing.foldlM_store_of_lt kService (Nat.zero_le _)
    (by rw [length_listed htable]; omega)]
  rfl

end

/-- The rows of two places are those of one node. -/
theorem WellFormed.listed_inj (wf : WellFormed jhash2words s) {m n : Nat}
    (hm : m < (listed jhash2words s).length) (hn : n < (listed jhash2words s).length)
    (h : (listed jhash2words s)[m].row = (listed jhash2words s)[n].row) : m = n := by
  have hscan : ∀ p ∈ (layout jhash2words).scan multiGrpBucket s.multiGrp,
      (s.multiGrp p.1 p.2).created = true :=
    fun p hp => (BucketLayout.WellFormed.mem_scan wf.table ipPortHashKey_lt).mp hp
  unfold listed at hm hn h
  rw [List.length_map] at hm hn
  rw [List.getElem_map, List.getElem_map] at h
  obtain ⟨_, hport, hip⟩ := (Prod.mk.injEq ..).mp h |>.imp_right (Prod.mk.injEq ..).mp
  obtain ⟨hb, hi⟩ := wf.tableOk.distinct _ _ _ _ (hscan _ (List.getElem_mem hm))
    (hscan _ (List.getElem_mem hn)) hip hport
  exact (List.Nodup.getElem_inj_iff BucketLayout.nodup_scan).mp (Prod.ext hb hi)

theorem WellFormed.lists (wf : WellFormed jhash2words s) (kService : TmccNlShowServiceSt)
    (hbound : (liveNodes jhash2words s).card ≤ multiGrpMax) :
    ∃ kService', listAllMultiGrp s kService = .ret (0, kService') ∧ Lists s kService kService' := by
  have hfit : 0 + (listed jhash2words s).length ≤ multiGrpMax := by
    rw [length_listed wf.table]
    omega
  obtain ⟨kService', hrun, hrows, hframe⟩ := Listing.foldlM_store_of_le row_store kService hfit
  rw [Nat.zero_add] at hrun hframe
  simp only [Nat.zero_add] at hrows
  refine ⟨{ kService' with nodeCnt := (listed jhash2words s).length }, ?_, ?_, ?_, ?_, ?_⟩
  · rw [listAllMultiGrp_eq jhash2words, hrun]
    rfl
  · rw [length_listed wf.table, wf.count]
  · intro k hk
    simp only at hk
    obtain ⟨b, i, hl, he⟩ := (mem_listed wf.table).mp (List.getElem_mem hk)
    exact ⟨b, i, hl, by rw [he]; exact hrows k hk⟩
  · intro b i hl
    obtain ⟨k, hk, he⟩ := List.getElem_of_mem ((mem_listed wf.table).mpr ⟨b, i, hl, rfl⟩)
    refine ⟨k, ⟨hk, by rw [← he]; exact hrows k hk⟩, ?_⟩
    rintro k' ⟨hk', he'⟩
    simp only at hk'
    apply wf.listed_inj hk' hk
    rw [he, ← he']
    exact (hrows k' hk').symm
  · intro k hk
    exact hframe k (Or.inr hk)

/-- After every sequence of commands the counter, the buckets and the listing agree. -/
theorem table_and_listing (h : Reachable jhash2words s) :
    TableOk jhash2words s ∧ ∀ kService, ∃ kService',
      listAllMultiGrp s kService = .ret (0, kService') ∧ Lists s kService kService' := by
  have wf := h.wellFormed
  refine ⟨wf.tableOk, fun kService => wf.lists kService ?_⟩
  have hcount := wf.count
  have hbound := wf.bound
  omega

/-- One entry, listed in one row. -/
theorem table_and_listing_after_add :
    ∃ s, entry (fun a _ _ => a) s (0x0A000001, 5000) = some 0xE1000001 ∧
      TableOk (fun a _ _ => a) s ∧ ∀ kService, ∃ kService',
        listAllMultiGrp s kService = .ret (0, kService') ∧ Lists s kService kService' := by
  obtain ⟨s, hs, hentry⟩ := addMultiNode_multiNodeInit (fun a _ _ => a) 0xE1000001 0x0A000001 5000
  have hstep : tmccRcvSkb (fun a _ _ => a) multiNodeInit (.serviceAdd ⟨5000, 0x0A000001, 0xE1000001⟩) =
      .ret (0, s) := hs
  exact ⟨s, by rw [hentry, if_pos rfl], table_and_listing (Reachable.init.step hstep)⟩

end MulticastProxy.KernelClient
