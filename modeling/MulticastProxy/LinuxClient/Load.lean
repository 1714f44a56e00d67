import MulticastProxy.LinuxClient.Config
import MulticastProxy.Common.Address

/-!
# Linux client proxy: what the loaded table answers

The file may hold several entries for one key of the table, and keys that the table cannot take.
The others are loaded as they stand in the file.
-/

namespace MulticastProxy.LinuxClient

set_option autoImplicit false

section
variable (inetAddr : List Char → UInt32)

/-- `cfg_init` on a fresh table returns, and each entry of the file is then found with its group
and its port. -/
def LoadsRight (cfg : Config) : Prop :=
  ∃ code s, cfgInit inetAddr cfg multiNodeInit = .ret (code, s) ∧
    ∀ grpObj ∈ cfg.getD [], ∃ port index rowId,
      lookupIpPortNode s (inetAddr grpObj.serverIp) grpObj.serverPort.toUInt16 =
        .ret (some (inetAddr grpObj.groupIp, port, index, rowId)) ∧
      port.toNat = grpObj.groupPort.toNat

/-- The table's key for an entry of the file. -/
def GrpObj.key (grpObj : GrpObj) : Key := (inetAddr grpObj.serverIp, grpObj.serverPort.toUInt16)

def bucketKeys (grpArray : List GrpObj) (b : Nat) : Finset Key :=
  (grpArray.map (GrpObj.key inetAddr)).toFinset.filter fun k => layout.hash k = b

/-- No server port is 0 in 16 bits and no group port needs more, entries with one key agree, and no
bucket gets more keys than it has cells. -/
structure Loadable (grpArray : List GrpObj) : Prop where
  serverPort : ∀ grpObj ∈ grpArray, grpObj.serverPort.toUInt16 ≠ 0
  groupPort : ∀ grpObj ∈ grpArray, grpObj.groupPort < 65536
  agree : ∀ grpObj ∈ grpArray, ∀ grpObj' ∈ grpArray, grpObj.key inetAddr = grpObj'.key inetAddr →
    inetAddr grpObj.groupIp = inetAddr grpObj'.groupIp ∧ grpObj.groupPort = grpObj'.groupPort
  room : ∀ b, (bucketKeys inetAddr grpArray b).card ≤ multiGrpDepth

/-- The table after these entries: it holds their keys. -/
structure Loaded (grpArray : List GrpObj) (s : State) : Prop where
  wf : WellFormed s
  stored : ∀ k, entry s k ≠ none ↔ k ∈ grpArray.map (GrpObj.key inetAddr)

def Found (grpArray : List GrpObj) (s : State) : Prop :=
  ∀ grpObj ∈ grpArray, entry s (grpObj.key inetAddr) =
    some (inetAddr grpObj.groupIp, grpObj.groupPort.toUInt16)

end

variable {inetAddr : List Char → UInt32}

theorem loaded_nil : Loaded inetAddr [] multiNodeInit where
  wf := multiNodeInit_wellFormed
  stored := fun k => by simp

/-! ## A load that returns -/

theorem Loaded.add {grpArray : List GrpObj} {s s' : State} (h : Loaded inetAddr grpArray s)
    {grpObj : GrpObj} {code : Int}
    (hadd : addMultiNode s (inetAddr grpObj.groupIp) grpObj.groupPort.toUInt16
      (inetAddr grpObj.serverIp) grpObj.serverPort.toUInt16 = .ret (code, s')) :
    Loaded inetAddr (grpArray ++ [grpObj]) s' ∧ grpObj.serverPort.toUInt16 ≠ 0 := by
  have hkeys : ∀ k, k ∈ (grpArray ++ [grpObj]).map (GrpObj.key inetAddr) ↔
      k ∈ grpArray.map (GrpObj.key inetAddr) ∨ k = grpObj.key inetAddr := by
    intro k
    rw [List.map_append, List.map_singleton, List.mem_append, List.mem_singleton]
  rcases addMultiNode_cases h.wf (inetAddr grpObj.groupIp) grpObj.groupPort.toUInt16
    (inetAddr grpObj.serverIp) grpObj.serverPort.toUInt16 with
    ⟨_, he⟩ | ⟨hport, port, hentry, he⟩ | ⟨hport, _, t, he, hwf, hentry⟩ | ⟨_, _, _, he⟩
  · rw [he] at hadd
    simp at hadd
  · rw [he] at hadd
    obtain ⟨_, rfl⟩ := Prod.mk.inj (Outcome.ret.inj hadd)
    refine ⟨⟨h.wf, fun k => ?_⟩, hport⟩
    rw [hkeys, h.stored]
    constructor
    · exact Or.inl
    · rintro (hk | rfl)
      · exact hk
      · apply (h.stored _).mp
        rw [GrpObj.key, hentry]
        simp
  · rw [he] at hadd
    obtain ⟨_, rfl⟩ := Prod.mk.inj (Outcome.ret.inj hadd)
    refine ⟨⟨hwf, fun k => ?_⟩, hport⟩
    rw [hkeys, hentry, Function.update_apply]
    by_cases hk : k = (inetAddr grpObj.serverIp, grpObj.serverPort.toUInt16)
    · simp [hk, GrpObj.key]
    · rw [if_neg hk, h.stored]
      exact (or_iff_left hk).symm
  · rw [he] at hadd
    simp at hadd

theorem Loaded.cfgLoop_ret {grpArray rest : List GrpObj} {s s' : State}
    (h : Loaded inetAddr grpArray s) (hloop : cfgLoop inetAddr rest s = .ret s') :
    Loaded inetAddr (grpArray ++ rest) s' ∧ ∀ grpObj ∈ rest, grpObj.serverPort.toUInt16 ≠ 0 := by
  induction rest generalizing grpArray s with
  | nil =>
    obtain rfl := Outcome.ret.inj hloop
    exact ⟨by simpa using h, by simp⟩
  | cons grpObj rest ih =>
    rw [cfgLoop] at hloop
    obtain ⟨⟨code, t⟩, hadd, hrest⟩ := Outcome.bind_eq_ret_iff.mp hloop
    obtain ⟨hloaded, hport⟩ := h.add hadd
    obtain ⟨h1, h2⟩ := ih hloaded hrest
    rw [List.append_cons]
    refine ⟨h1, fun obj hobj => ?_⟩
    rcases List.mem_cons.mp hobj with rfl | hobj
    · exact hport
    · exact h2 obj hobj

theorem Loaded.room {grpArray : List GrpObj} {s : State} (h : Loaded inetAddr grpArray s)
    (b : Nat) : (bucketKeys inetAddr grpArray b).card ≤ multiGrpDepth := by
  apply h.wf.card_keys_le (b := b)
  intro k hk
  obtain ⟨hmem, hb⟩ := Finset.mem_filter.mp hk
  refine ⟨hb, fun hnone => ?_⟩
  exact (h.stored k).mpr (List.mem_toFinset.mp hmem) (entry_eq_none_iff.mpr hnone)

/-! ## A file that fits -/

theorem bucketKeys_mono {grpArray rest : List GrpObj} (b : Nat) :
    bucketKeys inetAddr grpArray b ⊆ bucketKeys inetAddr (grpArray ++ rest) b := by
  intro k hk
  obtain ⟨hmem, hb⟩ := Finset.mem_filter.mp hk
  refine Finset.mem_filter.mpr ⟨?_, hb⟩
  rw [List.mem_toFinset, List.map_append, List.mem_append]
  exact Or.inl (List.mem_toFinset.mp hmem)

/-- A new key finds a free cell while its bucket has room for it. -/
theorem Loaded.exists_free {grpArray rest : List GrpObj} {s : State}
    (h : Loaded inetAddr grpArray s) {grpObj : GrpObj}
    (hnew : entry s (grpObj.key inetAddr) = none)
    (hroom : (bucketKeys inetAddr (grpArray ++ grpObj :: rest)
      (layout.hash (grpObj.key inetAddr))).card ≤ multiGrpDepth) :
    ∃ i < 256, (s.multiGrp (layout.hash (grpObj.key inetAddr)) i).created = false := by
  have hlt : (bucketKeys inetAddr grpArray (layout.hash (grpObj.key inetAddr))).card < 256 := by
    refine Nat.lt_of_lt_of_le (Finset.card_lt_card ?_) hroom
    refine (Finset.ssubset_iff_of_subset (bucketKeys_mono _)).mpr
      ⟨grpObj.key inetAddr, ?_, fun hmem => ?_⟩
    · refine Finset.mem_filter.mpr ⟨?_, rfl⟩
      simp
    · have hk := List.mem_toFinset.mp (Finset.mem_filter.mp hmem).1
      exact (h.stored _).mpr hk hnew
  refine h.wf.exists_free_of_keys (fun i hl => ?_) hlt
  refine Finset.mem_filter.mpr ⟨List.mem_toFinset.mpr ((h.stored _).mp fun hnone => ?_),
    h.wf.home _ i hl⟩
  have hcell := h.wf.content_of_cell hl
  rw [entry_eq_none_iff.mp hnone] at hcell
  simp at hcell

theorem Loaded.cfgLoop_returns {grpArray rest : List GrpObj} {s : State}
    (h : Loaded inetAddr grpArray s) (hfound : Found inetAddr grpArray s)
    (hok : Loadable inetAddr (grpArray ++ rest)) :
    ∃ s', cfgLoop inetAddr rest s = .ret s' ∧ Found inetAddr (grpArray ++ rest) s' := by
  induction rest generalizing grpArray s with
  | nil => exact ⟨s, rfl, by simpa using hfound⟩
  | cons grpObj rest ih =>
    have happ : grpArray ++ grpObj :: rest = grpArray ++ [grpObj] ++ rest :=
      List.append_cons _ _ _
    have hmem : grpObj ∈ grpArray ++ grpObj :: rest := by simp
    have hnext : ∀ {code : Int} {t : State},
        addMultiNode s (inetAddr grpObj.groupIp) grpObj.groupPort.toUInt16
          (inetAddr grpObj.serverIp) grpObj.serverPort.toUInt16 = .ret (code, t) →
        Found inetAddr (grpArray ++ [grpObj]) t →
        ∃ s', cfgLoop inetAddr (grpObj :: rest) s = .ret s' ∧
          Found inetAddr (grpArray ++ grpObj :: rest) s' := by
      intro code t hadd hfound'
      rw [cfgLoop, hadd, Outcome.ret_bind, happ]
      rw [happ] at hok
      exact ih (h.add hadd).1 hfound' hok
    -- an entry before this one with the same key has the same group and port
    have hsame : ∀ obj ∈ grpArray, obj.key inetAddr = grpObj.key inetAddr →
        inetAddr obj.groupIp = inetAddr grpObj.groupIp ∧ obj.groupPort = grpObj.groupPort :=
      fun obj hobj he => hok.agree obj (by simp [hobj]) grpObj hmem he
    rcases addMultiNode_cases h.wf (inetAddr grpObj.groupIp) grpObj.groupPort.toUInt16
      (inetAddr grpObj.serverIp) grpObj.serverPort.toUInt16 with
      ⟨hport, _⟩ | ⟨hport, port, hentry, he⟩ | ⟨hport, hdiff, t, he, hwf, hentry⟩ |
      ⟨_, hnone, hbusy, _⟩
    · exact absurd hport (hok.serverPort grpObj hmem)
    · apply hnext he
      intro obj hobj
      rcases List.mem_append.mp hobj with hobj | hobj
      · exact hfound obj hobj
      · obtain rfl := List.mem_singleton.mp hobj
        have hstored : entry s (obj.key inetAddr) ≠ none := by
          rw [GrpObj.key, hentry]
          simp
        obtain ⟨old, hold, hk⟩ := List.mem_map.mp ((h.stored _).mp hstored)
        obtain ⟨hip, hgport⟩ := hsame old hold hk
        rw [← hk, hfound old hold, hip, hgport]
    · apply hnext he
      intro obj hobj
      rw [hentry]
      rcases List.mem_append.mp hobj with hobj | hobj
      · have hne : obj.key inetAddr ≠
            (inetAddr grpObj.serverIp, grpObj.serverPort.toUInt16) := by
          intro hk
          have hold := hfound obj hobj
          rw [(hsame obj hobj hk).1, hk] at hold
          exact hdiff _ hold
        rw [Function.update_of_ne hne]
        exact hfound obj hobj
      · obtain rfl := List.mem_singleton.mp hobj
        exact Function.update_self ..
    · obtain ⟨i, hi, hfree⟩ := h.exists_free hnone (hok.room _)
      have hlive : (s.multiGrp (layout.hash (grpObj.key inetAddr)) i).created = true := hbusy i hi
      rw [hlive] at hfree
      simp at hfree

/-! ## The whole file -/

theorem loadable_of_loadsRight {cfg : Config} (h : LoadsRight inetAddr cfg) :
    Loadable inetAddr (cfg.getD []) := by
  obtain ⟨code, s, hinit, hlookup⟩ := h
  cases cfg with
  | none => exact ⟨by simp, by simp, by simp, by simp [bucketKeys]⟩
  | some grpArray =>
    obtain ⟨t, hloop, hret⟩ := Outcome.bind_eq_ret_iff.mp hinit
    obtain ⟨_, rfl⟩ := Prod.mk.inj (Outcome.ret.inj hret)
    obtain ⟨hloaded, hports⟩ := loaded_nil.cfgLoop_ret hloop
    rw [List.nil_append] at hloaded
    -- what the lookup returned is the entry of the key
    have hentry : ∀ grpObj ∈ grpArray, ∃ port : UInt16, port.toNat = grpObj.groupPort.toNat ∧
        entry t (grpObj.key inetAddr) = some (inetAddr grpObj.groupIp, port) := by
      intro grpObj hmem
      obtain ⟨port, index, rowId, hfound, hport⟩ := hlookup grpObj hmem
      obtain ⟨found, hret, hmap⟩ := lookupIpPortNode_eq t (inetAddr grpObj.serverIp)
        (hports grpObj hmem)
      rw [hfound] at hret
      obtain rfl := Outcome.ret.inj hret
      exact ⟨port, hport, hmap.symm⟩
    refine ⟨hports, fun grpObj hmem => ?_, fun grpObj hmem grpObj' hmem' hk => ?_, hloaded.room⟩
    · obtain ⟨port, hport, _⟩ := hentry grpObj hmem
      have hlt := port.toNat_lt
      exact UInt32.lt_iff_toNat_lt.mpr (by rw [← hport]; simpa using hlt)
    · obtain ⟨port, hport, he⟩ := hentry grpObj hmem
      obtain ⟨port', hport', he'⟩ := hentry grpObj' hmem'
      rw [hk, he'] at he
      obtain ⟨hip, rfl⟩ := Prod.mk.inj (Option.some.inj he)
      exact ⟨hip.symm, UInt32.toNat_inj.mp (hport.symm.trans hport')⟩

theorem Loadable.loadsRight {cfg : Config} (h : Loadable inetAddr (cfg.getD [])) :
    LoadsRight inetAddr cfg := by
  cases cfg with
  | none => exact ⟨-1, multiNodeInit, rfl, by simp⟩
  | some grpArray =>
    rw [Option.getD_some] at h
    obtain ⟨s, hloop, hfound⟩ := loaded_nil.cfgLoop_returns (by simp [Found])
      (by rwa [List.nil_append])
    refine ⟨0, s, by rw [cfgInit, hloop]; rfl, fun grpObj hmem => ?_⟩
    obtain ⟨found, hret, hmap⟩ := lookupIpPortNode_eq s (inetAddr grpObj.serverIp)
      (h.serverPort grpObj hmem)
    have hentry := hfound grpObj hmem
    rw [GrpObj.key, ← hmap] at hentry
    obtain ⟨⟨multiIp, port, index, rowId⟩, rfl, he⟩ := Option.map_eq_some_iff.mp hentry
    obtain ⟨rfl, rfl⟩ := Prod.mk.inj he
    refine ⟨_, index, rowId, hret, ?_⟩
    have hlt := UInt32.lt_iff_toNat_lt.mp (h.groupPort grpObj hmem)
    rw [UInt32.toNat_toUInt16]
    exact Nat.mod_eq_of_lt hlt

/-- Exactly the loadable files answer for every entry what it says. -/
theorem entries_load_iff (cfg : Config) :
    LoadsRight inetAddr cfg ↔ Loadable inetAddr (cfg.getD []) :=
  ⟨loadable_of_loadsRight, Loadable.loadsRight⟩

/-- After `-A -i 10.0.0.1 -s 7000 -g 5000 -m 225.0.0.1` and the same with port 5001 and group
225.0.0.2. -/
def twoGroups : List GrpObj :=
  [⟨"10.0.0.1".toList, 7000, 5000, "225.0.0.1".toList⟩,
    ⟨"10.0.0.1".toList, 7000, 5001, "225.0.0.2".toList⟩]

theorem produced_twoGroups : Produced (some twoGroups) :=
  (Produced.none.add "10.0.0.1".toList 5000 7000 "225.0.0.1".toList).add "10.0.0.1".toList 5001 7000
    "225.0.0.2".toList

/-- One key of the table, two entries of the file. -/
theorem not_entries_load : ¬ ∀ cfg, Produced cfg → LoadsRight inetAddrQuad cfg := by
  intro h
  have hok := loadable_of_loadsRight (h _ produced_twoGroups)
  obtain ⟨_, hport⟩ := hok.agree _ (List.mem_cons_self ..) _
    (List.mem_cons_of_mem _ (List.mem_cons_self ..)) rfl
  exact absurd hport (by decide)

end MulticastProxy.LinuxClient
