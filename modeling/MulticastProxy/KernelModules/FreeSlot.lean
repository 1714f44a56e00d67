import MulticastProxy.KernelServer.FreeSlot
import MulticastProxy.KernelClient.FreeSlot

/-!
# The search for a free cell in the kernel modules

Both modules run the same loop over a bucket. Some bucket of 1024 gets more than 256 of the keys,
whatever the hash is, and neither the pool nor the capacity keeps them out.
-/

namespace MulticastProxy

set_option autoImplicit false

/-- In every reachable table an add of a new key returns exactly where its bucket has fewer entries
than a byte can count, or the search is not reached. -/
theorem kernel_add_ends_iff {jhash1word : UInt32 → UInt32 → UInt32}
    {jhash2words : UInt32 → UInt32 → UInt32 → UInt32} {s : KernelServer.State}
    {c : KernelClient.State} (hs : KernelServer.Reachable jhash1word (fun _ _ => True) s)
    (hc : KernelClient.Reachable jhash2words c) :
    (∀ g ipList ipNum, KernelServer.nodeOf jhash1word s g = none →
      (KernelServer.AddEnds jhash1word s g ipList ipNum ↔
        KernelServer.SearchEnds jhash1word s g)) ∧
    ∀ k multiIp, KernelClient.entry jhash2words c k = none →
      (KernelClient.AddEnds jhash2words c multiIp k ↔ KernelClient.SearchEnds jhash2words c k) :=
  ⟨fun _ ipList ipNum hnew => KernelServer.addEnds_iff hs.wellFormed hnew ipList ipNum,
    fun _ multiIp hnew => KernelClient.addEnds_iff hc.wellFormed hnew multiIp⟩

/-- Under a hash that has one value only: a third group in the server, a second entry in the
client. -/
theorem kernel_add_ends_next :
    ∃ s c, (KernelServer.liveNodes (fun _ _ => 0) s).card = 2 ∧
      KernelServer.AddEnds (fun _ _ => 0) s 0xE1000003 (fun _ => 7) 1 ∧
      (KernelClient.liveNodes (fun _ _ _ => 0) c).card = 1 ∧
      KernelClient.AddEnds (fun _ _ _ => 0) c 0xE1000001 (0x0A000002, 5000) := by
  obtain ⟨s, hs⟩ : ∃ s, KernelServer.Holds (fun _ _ => 0) s [0xE1000001, 0xE1000002] :=
    KernelServer.exists_holds (by decide) (by decide)
  have hload : KernelClient.Loadable (fun _ _ _ => 0) [((0x0A000001, 5000) : KernelClient.Key)] :=
    ⟨by decide, by decide, fun b => (List.length_filter_le _ _).trans (by decide)⟩
  obtain ⟨es, c, hc, sim, hes⟩ := hload.exists_reachable
  have hone : (KernelClient.liveNodes (fun _ _ _ => 0) c).card = 1 := by
    have hlength : es.length = 1 := by rw [← List.length_map Prod.fst, hes, List.length_singleton]
    have hcnt := sim.length
    rw [sim.wf.count, hlength] at hcnt
    exact_mod_cast hcnt.symm
  have hnew : KernelClient.entry (fun _ _ _ => 0) c (0x0A000002, 5000) = none := by
    rw [← sim.maps, AssocList.get_eq_none_iff, hes]
    decide
  obtain ⟨hserver, hclient⟩ := kernel_add_ends_iff hs.reach hc
  refine ⟨s, c, hs.card, (hserver _ _ _ ((hs.node _).mpr (by decide))).mpr (Or.inr ?_), hone,
    (hclient _ _ hnew).mpr (Or.inr ?_)⟩
  · apply Nat.lt_of_le_of_lt (Finset.card_filter_le _ _)
    rw [hs.card]
    decide
  · apply Nat.lt_of_le_of_lt (Finset.card_filter_le _ _)
    rw [hone]
    decide

/-- Under every pair of hashes a reachable table has a new key for which the loop never ends, in
the server and in the client. -/
theorem not_kernel_add_ends :
    (¬ ∃ jhash1word, ∀ s, KernelServer.Reachable jhash1word (fun _ _ => True) s →
      ∀ g ipList ipNum, KernelServer.nodeOf jhash1word s g = none →
        KernelServer.AddEnds jhash1word s g ipList ipNum) ∧
    ¬ ∃ jhash2words, ∀ c, KernelClient.Reachable jhash2words c →
      ∀ k multiIp, KernelClient.entry jhash2words c k = none →
        KernelClient.AddEnds jhash2words c multiIp k := by
  constructor
  · rintro ⟨jhash1word, hall⟩
    obtain ⟨s, g, hs, hnew, hcrowded⟩ := KernelServer.exists_reachable_crowded jhash1word
    exact hcrowded ((KernelServer.addEnds_iff hs.wellFormed hnew (fun _ => 0) 0).mp
      (hall s hs g _ 0 hnew))
  · rintro ⟨jhash2words, hall⟩
    obtain ⟨c, k, hc, hnew, hcrowded⟩ := KernelClient.exists_reachable_crowded jhash2words
    exact hcrowded ((KernelClient.addEnds_iff hc.wellFormed hnew 0).mp (hall c hc k 0 hnew))

end MulticastProxy
