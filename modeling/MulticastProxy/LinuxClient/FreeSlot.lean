import MulticastProxy.LinuxClient.Load

/-!
# Linux client proxy: the search for a free cell (`client_proxy/multi_grp.c`)

The bound of the search is the depth of a bucket, 256, and its counter is a `uint8_t`. Nothing limits
the entries of a file, and all those of a server port as small as 1 go to one bucket.
-/

namespace MulticastProxy.LinuxClient

set_option autoImplicit false

section
variable (inetAddr : List Char → UInt32)

/-- Each add that `cfg_init` makes on a fresh table returns, with `MULTI_IDX_EXHAUST` exactly for a
new key whose bucket is full. -/
def AddsReturn (cfg : Config) : Prop :=
  ∀ loaded grpObj rest s, cfg.getD [] = loaded ++ grpObj :: rest →
    cfgLoop inetAddr loaded multiNodeInit = .ret s →
    ∃ code s', addMultiNode s (inetAddr grpObj.groupIp) grpObj.groupPort.toUInt16
        (inetAddr grpObj.serverIp) grpObj.serverPort.toUInt16 = .ret (code, s') ∧
      (code = multiIdxExhaust ↔ entry s (grpObj.key inetAddr) = none ∧
        ∀ i < multiGrpDepth,
          (s.multiGrp (layout.hash (grpObj.key inetAddr)) i).created = true)

end

variable {inetAddr : List Char → UInt32}

theorem cfgLoop_concat {objs : List GrpObj} {grpObj : GrpObj} {s t u : State} {code : Int}
    (hobjs : cfgLoop inetAddr objs u = .ret s)
    (hadd : addMultiNode s (inetAddr grpObj.groupIp) grpObj.groupPort.toUInt16
      (inetAddr grpObj.serverIp) grpObj.serverPort.toUInt16 = .ret (code, t)) :
    cfgLoop inetAddr (objs ++ [grpObj]) u = .ret t := by
  induction objs generalizing u with
  | nil =>
    obtain rfl := Outcome.ret.inj hobjs
    rw [List.nil_append, cfgLoop, hadd]
    rfl
  | cons obj objs ih =>
    rw [cfgLoop] at hobjs
    obtain ⟨⟨code', v⟩, hfirst, hrest⟩ := Outcome.bind_eq_ret_iff.mp hobjs
    rw [List.cons_append, cfgLoop, hfirst, Outcome.ret_bind]
    exact ih hrest

/-- Calls that return make a loop that returns. -/
theorem cfgLoop_returns {loaded rest : List GrpObj} {s : State}
    (hloaded : cfgLoop inetAddr loaded multiNodeInit = .ret s)
    (h : AddsReturn inetAddr (some (loaded ++ rest))) :
    ∃ s', cfgLoop inetAddr (loaded ++ rest) multiNodeInit = .ret s' := by
  induction rest generalizing loaded s with
  | nil => exact ⟨s, by rwa [List.append_nil]⟩
  | cons grpObj rest ih =>
    obtain ⟨code, t, hadd, _⟩ := h loaded grpObj rest s rfl hloaded
    rw [List.append_cons] at h ⊢
    exact ih (cfgLoop_concat hloaded hadd) h

/-- Exactly the files without server port 0 and with at most 256 keys for each bucket. -/
theorem adds_return_iff (cfg : Config) : AddsReturn inetAddr cfg ↔
    (∀ grpObj ∈ cfg.getD [], grpObj.serverPort.toUInt16 ≠ 0) ∧
      ∀ b, (bucketKeys inetAddr (cfg.getD []) b).card ≤ multiGrpDepth := by
  constructor
  · intro h
    have hnone : cfgLoop inetAddr [] multiNodeInit = .ret multiNodeInit := rfl
    have hadds : AddsReturn inetAddr (some ([] ++ cfg.getD [])) := h
    obtain ⟨s, hs⟩ := cfgLoop_returns hnone hadds
    rw [List.nil_append] at hs
    obtain ⟨hloaded, hports⟩ := loaded_nil.cfgLoop_ret hs
    exact ⟨hports, hloaded.room⟩
  · rintro ⟨hports, hroom⟩ loaded grpObj rest s hcfg hs
    rw [hcfg] at hports hroom
    obtain ⟨hloaded, _⟩ := loaded_nil.cfgLoop_ret hs
    rw [List.nil_append] at hloaded
    have hfree := fun hnew => hloaded.exists_free hnew (hroom _)
    have hnot : ¬ (entry s (grpObj.key inetAddr) = none ∧ ∀ i < multiGrpDepth,
        (s.multiGrp (layout.hash (grpObj.key inetAddr)) i).created = true) := by
      rintro ⟨hnew, hfull⟩
      obtain ⟨i, hi, hdead⟩ := hfree hnew
      rw [hfull i hi] at hdead
      cases hdead
    rcases addMultiNode_cases hloaded.wf (inetAddr grpObj.groupIp) grpObj.groupPort.toUInt16
      (inetAddr grpObj.serverIp) grpObj.serverPort.toUInt16 with
      ⟨hport, _⟩ | ⟨_, _, _, he⟩ | ⟨_, _, t, he, _⟩ | ⟨_, hnew, hbusy, _⟩
    · exact absurd hport (hports grpObj (by simp))
    · exact ⟨_, s, he, iff_of_false (by decide) hnot⟩
    · exact ⟨_, t, he, iff_of_false (by decide) hnot⟩
    · exact absurd ⟨hnew, hbusy⟩ hnot

/-- Entries for 0.0.0.0 to 0.0.1.0, all with server port 1. -/
def crowded : List GrpObj :=
  (List.range 257).map fun i => ⟨ip2str (UInt32.ofNat i), 1, 5000, "225.0.0.1".toList⟩

/-- The last of them finds a full bucket, and its search never ends. -/
theorem not_adds_return : ¬ ∀ cfg, AddsReturn inetAddrQuad cfg := by
  intro h
  have hroom := ((adds_return_iff _).mp (h (some crowded))).2 0
  let key := fun i : Nat => ((htonl (UInt32.ofNat i), 1) : Key)
  have hsub : (Finset.range 257).image key ⊆ bucketKeys inetAddrQuad crowded 0 := by
    intro k hk
    obtain ⟨i, hi, rfl⟩ := Finset.mem_image.mp hk
    refine Finset.mem_filter.mpr ⟨List.mem_toFinset.mpr ?_, ?_⟩
    · rw [crowded, List.map_map, List.mem_map]
      refine ⟨i, List.mem_range.mpr (Finset.mem_range.mp hi), ?_⟩
      simp only [Function.comp_apply, GrpObj.key, inetAddrQuad_ip2str]
      rfl
    · have hone : htonl (UInt32.ofNat i) % 1 = 0 := by
        apply UInt32.toNat_inj.mp
        rw [UInt32.toNat_mod]
        exact Nat.mod_one _
      simp only [key, layout, ipPortHashKey]
      rw [show (1 : UInt16).toUInt32 = 1 from rfl, hone]
      rfl
  have hinj : Set.InjOn key (Finset.range 257) := fun i hi j hj he =>
    UInt32.ofNat_injOn (by decide) hi hj (htonl_inj (Prod.mk.inj he).1)
  have hcard := Finset.card_le_card hsub
  rw [Finset.card_image_of_injOn hinj, Finset.card_range] at hcard
  exact absurd (hcard.trans hroom) (by decide)

end MulticastProxy.LinuxClient
