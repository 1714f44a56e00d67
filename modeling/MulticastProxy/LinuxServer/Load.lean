import MulticastProxy.LinuxServer.Config

/-!
# Linux server proxy: what the loaded table answers

The file is bounded by nothing, the arrays that `cfg_init` copies it through are. Within them every
group is loaded as it stands in the file.
-/

namespace MulticastProxy.LinuxServer

set_option autoImplicit false

section
variable (inetAddr : List Char → UInt32)

def GrpObj.members (grpObj : GrpObj) : Set UInt32 :=
  {ip | ip ∈ grpObj.memberArray.map inetAddr}

/-- `cfg_init` on a fresh table stays inside its arrays, and each configured group is then found
with its port and its members. -/
def LoadsRight (cfg : Config) : Prop :=
  ∀ groupIpArr groupNum, ∃ code num arr s,
    cfgInit inetAddr cfg groupIpArr groupNum multiNodeInit = .ret (code, num, arr, s) ∧
    ∀ grpObj ∈ cfg.getD [], ∃ found, lookupMultiNode s (inetAddr grpObj.groupIp) = some found ∧
      found.serverPort.toNat = grpObj.serverPort.toNat ∧
      {ip | ip ∈ found.iplist} = grpObj.members inetAddr

/-- The groups fit the caller's array from `i` on, and each member list the local one. -/
def Fits (i : Nat) (grpArray : List GrpObj) : Prop :=
  i + grpArray.length ≤ 256 ∧ ∀ grpObj ∈ grpArray, grpObj.memberArray.length ≤ maxMemIpInGroup

def groupAddrs (grpArray : List GrpObj) : List UInt32 :=
  grpArray.map fun grpObj => inetAddr grpObj.groupIp

def GrpObj.node (grpObj : GrpObj) (j : Nat) : MultiNode :=
  ⟨inetAddr grpObj.groupIp, grpObj.memberArray.length, UInt8.ofNat j, true,
    grpObj.groupPort.toUInt16, grpObj.serverPort.toUInt16⟩

/-- The table after these groups: the `j`th one has index `j`. -/
structure Loaded (grpArray : List GrpObj) (s : State) : Prop where
  wf : WellFormed s
  pool : ∀ j, s.gBitmap j = true ↔ j < grpArray.length
  live : (liveNodes s).card = grpArray.length
  node : ∀ j (grpObj : GrpObj), grpArray[j]? = some grpObj →
    nodeOf s (inetAddr grpObj.groupIp) = some (grpObj.node inetAddr j)
  row : ∀ j (grpObj : GrpObj), grpArray[j]? = some grpObj →
    cells (s.multiVm j) grpObj.memberArray.length = grpObj.memberArray.map inetAddr
  absent : ∀ g, g ∉ groupAddrs inetAddr grpArray → nodeOf s g = none

end

variable {inetAddr : List Char → UInt32}

theorem loaded_nil : Loaded inetAddr [] multiNodeInit where
  wf := multiNodeInit_wellFormed
  pool := fun j => by simp [multiNodeInit]
  live := by simp
  node := fun j grpObj h => by simp at h
  row := fun j grpObj h => by simp at h
  absent := fun g _ => nodeOf_multiNodeInit g

/-! ## One group -/

theorem readMembers_ret {ips : List (List Char)} {j : Nat} (ipListInt : Nat → UInt32)
    (hfit : j + ips.length ≤ maxMemIpInGroup) :
    ∃ l, readMembers inetAddr ips j ipListInt = .ret l ∧
      cells l (j + ips.length) = cells ipListInt j ++ ips.map inetAddr := by
  induction ips generalizing j ipListInt with
  | nil => exact ⟨ipListInt, rfl, by simp⟩
  | cons ip ips ih =>
    rw [List.length_cons] at hfit
    obtain ⟨l, hl, hcells⟩ := ih (j := j + 1) (Function.update ipListInt j (inetAddr ip)) (by omega)
    refine ⟨l, ?_, ?_⟩
    · rw [readMembers, if_pos (by omega), hl]
    · rw [List.length_cons, Nat.add_comm ips.length 1, ← Nat.add_assoc, hcells, cells_update_self]
      simp

theorem readMembers_fault {ips : List (List Char)} {j : Nat} (ipListInt : Nat → UInt32)
    (hj : j ≤ maxMemIpInGroup) (hbig : maxMemIpInGroup < j + ips.length) :
    readMembers inetAddr ips j ipListInt = .fault := by
  induction ips generalizing j ipListInt with
  | nil =>
    rw [List.length_nil] at hbig
    omega
  | cons ip ips ih =>
    rw [List.length_cons] at hbig
    rw [readMembers]
    split
    · exact ih _ (by omega) (by omega)
    · rfl

theorem Loaded.add {grpArray : List GrpObj} {s : State} (h : Loaded inetAddr grpArray s)
    {grpObj : GrpObj} (hroom : grpArray.length < 256)
    (hsize : grpObj.memberArray.length ≤ maxMemIpInGroup)
    (hnew : inetAddr grpObj.groupIp ∉ groupAddrs inetAddr grpArray)
    {ipListInt : Nat → UInt32}
    (hcells : cells ipListInt grpObj.memberArray.length = grpObj.memberArray.map inetAddr) :
    ∃ s', addMultiNode s (inetAddr grpObj.groupIp) grpObj.groupPort.toUInt16
        grpObj.serverPort.toUInt16 ipListInt (UInt8.ofNat grpObj.memberArray.length) =
          .ret (0, s') ∧
      Loaded inetAddr (grpArray ++ [grpObj]) s' := by
  have hnum : (UInt8.ofNat grpObj.memberArray.length).toNat = grpObj.memberArray.length :=
    UInt8.toNat_ofNat_of_lt' (Nat.lt_of_le_of_lt hsize (by decide))
  obtain ⟨s', hs', hadded⟩ := addMultiNode_new h.wf (h.absent _ hnew) hroom h.pool
    (by rw [h.live]; exact hroom) grpObj.groupPort.toUInt16 grpObj.serverPort.toUInt16 ipListInt
    (UInt8.ofNat grpObj.memberArray.length) (by rw [hnum]; exact hsize)
  rw [hnum, hcells] at hadded
  obtain ⟨row, hvm, hrow⟩ := hadded.members
  rw [List.length_map] at hrow
  have hat : ∀ j obj, (grpArray ++ [grpObj])[j]? = some obj →
      grpArray[j]? = some obj ∧ j < grpArray.length ∨ j = grpArray.length ∧ obj = grpObj := by
    intro j obj hj
    rcases Nat.lt_trichotomy j grpArray.length with hlt | heq | hgt
    · rw [List.getElem?_append_left hlt] at hj
      exact Or.inl ⟨hj, hlt⟩
    · subst heq
      rw [List.getElem?_append_right (Nat.le_refl _)] at hj
      exact Or.inr ⟨rfl, by simpa using hj.symm⟩
    · rw [List.getElem?_eq_none (by simp; omega)] at hj
      simp at hj
  refine ⟨s', hs', hadded.wf, ?_, ?_, ?_, ?_, ?_⟩
  · intro j
    rw [hadded.pool, Function.update_apply, List.length_append, List.length_singleton]
    split
    · rename_i hj
      simp [hj]
    · rename_i hj
      rw [h.pool]
      omega
  · rw [hadded.live, h.live, List.length_append, List.length_singleton]
  · intro j obj hj
    rw [hadded.nodes, Function.update_apply]
    rcases hat j obj hj with ⟨hold, _⟩ | ⟨rfl, rfl⟩
    · have hne : inetAddr obj.groupIp ≠ inetAddr grpObj.groupIp := by
        intro he
        apply hnew
        rw [← he]
        exact List.mem_map_of_mem (List.mem_of_getElem? hold)
      rw [if_neg hne]
      exact h.node j obj hold
    · rw [if_pos rfl, List.length_map]
      rfl
  · intro j obj hj
    rw [hvm, Function.update_apply]
    rcases hat j obj hj with ⟨hold, hlt⟩ | ⟨rfl, rfl⟩
    · rw [if_neg (by omega)]
      exact h.row j obj hold
    · rw [if_pos rfl, hrow]
  · intro g hg
    rw [groupAddrs, List.map_append, List.map_singleton, List.mem_append, List.mem_singleton,
      not_or] at hg
    rw [hadded.nodes, Function.update_of_ne hg.2]
    exact h.absent g hg.1

/-! ## The whole file -/

theorem Loaded.round {grpArray rest : List GrpObj} {grpObj : GrpObj} {s : State}
    (h : Loaded inetAddr grpArray s)
    (hdist : (groupAddrs inetAddr (grpArray ++ grpObj :: rest)).Nodup)
    (hroom : grpArray.length < 256) (hsize : grpObj.memberArray.length ≤ maxMemIpInGroup)
    (groupIpArr : Nat → UInt32) :
    ∃ arr s', cfgLoop inetAddr (grpObj :: rest) grpArray.length groupIpArr s =
        cfgLoop inetAddr rest (grpArray ++ [grpObj]).length arr s' ∧
      Loaded inetAddr (grpArray ++ [grpObj]) s' := by
  have hnew : inetAddr grpObj.groupIp ∉ groupAddrs inetAddr grpArray := by
    rw [groupAddrs, List.map_append, List.map_cons, List.nodup_append] at hdist
    exact fun hmem => hdist.2.2 _ hmem _ (by simp) rfl
  have hfits : 0 + grpObj.memberArray.length ≤ maxMemIpInGroup := by omega
  obtain ⟨l, (hl : readMembers inetAddr grpObj.memberArray 0 (fun _ => 0) = .ret l), hcells⟩ :=
    readMembers_ret (fun _ => 0) hfits
  rw [Nat.zero_add, cells_zero, List.nil_append] at hcells
  obtain ⟨s', hs', hloaded⟩ := h.add hroom hsize hnew hcells
  refine ⟨Function.update groupIpArr grpArray.length (inetAddr grpObj.groupIp), s', ?_, hloaded⟩
  rw [cfgLoop, if_pos hroom, hl, Outcome.ret_bind, hs', Outcome.ret_bind, List.length_append,
    List.length_singleton]

theorem Loaded.cfgLoop_ret {grpArray rest : List GrpObj} {s : State}
    (h : Loaded inetAddr grpArray s) (hdist : (groupAddrs inetAddr (grpArray ++ rest)).Nodup)
    (hfits : Fits grpArray.length rest) (groupIpArr : Nat → UInt32) :
    ∃ arr s', cfgLoop inetAddr rest grpArray.length groupIpArr s = .ret (arr, s') ∧
      Loaded inetAddr (grpArray ++ rest) s' := by
  induction rest generalizing grpArray s groupIpArr with
  | nil => exact ⟨groupIpArr, s, rfl, by simpa using h⟩
  | cons grpObj rest ih =>
    obtain ⟨hlen, hsizes⟩ := hfits
    rw [List.length_cons] at hlen
    obtain ⟨arr, s', hround, hloaded⟩ :=
      h.round hdist (by omega) (hsizes grpObj (by simp)) groupIpArr
    have happ : grpArray ++ grpObj :: rest = grpArray ++ [grpObj] ++ rest :=
      List.append_cons _ _ _
    rw [happ] at hdist ⊢
    rw [hround]
    refine ih hloaded hdist ⟨?_, fun obj hobj => hsizes obj (by simp [hobj])⟩ arr
    rw [List.length_append, List.length_singleton]
    omega

theorem Loaded.cfgLoop_fault {grpArray rest : List GrpObj} {s : State}
    (h : Loaded inetAddr grpArray s) (hdist : (groupAddrs inetAddr (grpArray ++ rest)).Nodup)
    (hlen : grpArray.length ≤ 256) (hnot : ¬ Fits grpArray.length rest)
    (groupIpArr : Nat → UInt32) :
    cfgLoop inetAddr rest grpArray.length groupIpArr s = .fault := by
  induction rest generalizing grpArray s groupIpArr with
  | nil => exact absurd ⟨by simpa using hlen, by simp⟩ hnot
  | cons grpObj rest ih =>
    by_cases hroom : grpArray.length < 256
    · by_cases hsize : grpObj.memberArray.length ≤ maxMemIpInGroup
      · obtain ⟨arr, s', hround, hloaded⟩ := h.round hdist hroom hsize groupIpArr
        rw [hround]
        refine ih hloaded (by rwa [← List.append_cons]) ?_ ?_ arr
        · rw [List.length_append, List.length_singleton]
          omega
        · rintro ⟨h1, h2⟩
          rw [List.length_append, List.length_singleton] at h1
          refine hnot ⟨by rw [List.length_cons]; omega, fun obj hobj => ?_⟩
          rcases List.mem_cons.mp hobj with rfl | hobj
          · exact hsize
          · exact h2 obj hobj
      · rw [cfgLoop, if_pos hroom, readMembers_fault _ (Nat.zero_le _) (by omega)]
        rfl
    · rw [cfgLoop, if_neg hroom]

theorem cfgInit_fault {grpArray : List GrpObj} (hdist : (groupAddrs inetAddr grpArray).Nodup)
    (hnot : ¬ Fits 0 grpArray) (groupIpArr : Nat → UInt32) (groupNum : Nat) :
    cfgInit inetAddr (some grpArray) groupIpArr groupNum multiNodeInit = .fault := by
  have hloop : cfgLoop inetAddr grpArray 0 groupIpArr multiNodeInit = .fault :=
    loaded_nil.cfgLoop_fault (by rwa [List.nil_append]) (Nat.zero_le _) hnot groupIpArr
  rw [cfgInit, hloop]
  rfl

theorem cfgInit_ret {grpArray : List GrpObj} (hdist : (groupAddrs inetAddr grpArray).Nodup)
    (hfits : Fits 0 grpArray) (groupIpArr : Nat → UInt32) (groupNum : Nat) :
    ∃ arr s, cfgInit inetAddr (some grpArray) groupIpArr groupNum multiNodeInit =
      .ret (0, grpArray.length, arr, s) ∧ Loaded inetAddr grpArray s := by
  obtain ⟨arr, s, hloop, hloaded⟩ := loaded_nil.cfgLoop_ret
    (by rwa [List.nil_append]) hfits groupIpArr
  rw [List.length_nil] at hloop
  exact ⟨arr, s, by rw [cfgInit, hloop]; rfl, hloaded⟩

theorem Loaded.lookup {grpArray : List GrpObj} {s : State} (h : Loaded inetAddr grpArray s)
    {grpObj : GrpObj} (hmem : grpObj ∈ grpArray) (hport : grpObj.serverPort ≤ 65535)
    (hsize : grpObj.memberArray.length ≤ maxMemIpInGroup) (hlen : grpArray.length ≤ 256) :
    ∃ found, lookupMultiNode s (inetAddr grpObj.groupIp) = some found ∧
      found.serverPort.toNat = grpObj.serverPort.toNat ∧
      {ip | ip ∈ found.iplist} = grpObj.members inetAddr := by
  obtain ⟨j, hj, hat⟩ := List.getElem_of_mem hmem
  have hat' : grpArray[j]? = some grpObj := by rw [List.getElem?_eq_getElem hj, hat]
  refine ⟨_, by rw [lookupMultiNode_eq, h.node j grpObj hat', Option.map_some], ?_, ?_⟩
  · have hnat : grpObj.serverPort.toNat ≤ 65535 := UInt32.le_iff_toNat_le.mp hport
    simp only [GrpObj.node, UInt32.toNat_toUInt16]
    omega
  · have hsmall : j < 256 := by omega
    have hidx : (UInt8.ofNat j).toNat = j := UInt8.toNat_ofNat_of_lt' hsmall
    have hcnt : grpObj.memberArray.length % 256 = grpObj.memberArray.length :=
      Nat.mod_eq_of_lt (Nat.lt_of_le_of_lt hsize (by decide))
    simp only [GrpObj.node, getVmIpList, hidx, hcnt, h.row j grpObj hat']
    rfl

/-! ## Files of the tool -/

theorem mem_modify {α : Type} {l : List α} {i : Nat} {f : α → α} {x : α} (h : x ∈ l.modify i f) :
    x ∈ l ∨ ∃ y ∈ l, x = f y := by
  obtain ⟨j, hj⟩ := List.mem_iff_getElem?.mp h
  rw [List.getElem?_modify] at hj
  cases hl : l[j]? with
  | none => simp [hl] at hj
  | some y =>
    have hy : y ∈ l := List.mem_of_getElem? hl
    rw [hl, Option.map_eq_map, Option.map_some, Option.some.injEq] at hj
    split at hj
    · exact Or.inr ⟨y, hy, hj.symm⟩
    · exact Or.inl (hj ▸ hy)

/-- A port in the file is one that the tool let through, or a default. -/
theorem Produced.ports {cfg : Config} (h : Produced cfg) :
    ∀ grpObj ∈ cfg.getD [], grpObj.serverPort ≤ 65535 := by
  induction h with
  | none => simp
  | installed => simp [LinuxServer.installed]
  | @step cfg cmd _ hvalid ih =>
    cases cmd with
    | join multiIp ipList serverPort =>
      obtain ⟨_, _, hport⟩ := hvalid
      simp only [Command.run, jsonAddList]
      cases (cfg.getD []).findIdx? (fun grpObj => grpObj.groupIp = multiIp) with
      | none =>
        intro grpObj hmem
        rcases List.mem_append.mp hmem with hmem | hmem
        · exact ih grpObj hmem
        · rw [List.mem_singleton.mp hmem]
          exact hport
      | some i =>
        intro grpObj hmem
        rcases mem_modify hmem with hmem | ⟨old, _, rfl⟩
        · exact ih grpObj hmem
        · exact hport
    | quit multiIp ipList =>
      cases cfg with
      | none => exact ih
      | some grpArray =>
        simp only [Command.run, jsonDelList]
        cases grpArray.findIdx? (fun grpObj => grpObj.groupIp = multiIp) with
        | none => exact ih
        | some i =>
          intro grpObj hmem
          rcases mem_modify hmem with hmem | ⟨old, hold, rfl⟩
          · exact ih grpObj hmem
          · exact ih old hold
    | del multiIp =>
      cases cfg with
      | none => exact ih
      | some grpArray =>
        intro grpObj hmem
        obtain ⟨old, _, rfl⟩ := List.mem_map.mp hmem
        exact show (7126 : UInt32) ≤ 65535 by decide
    | clear =>
      cases cfg with
      | none => exact ih
      | some grpArray => simp [Command.run, jsonClearList]

/-- Exactly the files with at most 256 groups of at most 128 members are loaded right. -/
theorem config_loads_iff {cfg : Config} (h : Produced cfg)
    (hdist : (groupAddrs inetAddr (cfg.getD [])).Nodup) :
    LoadsRight inetAddr cfg ↔ (cfg.getD []).length ≤ 256 ∧
      ∀ grpObj ∈ cfg.getD [], grpObj.memberArray.length ≤ 128 := by
  cases cfg with
  | none => simp [LoadsRight, cfgInit]
  | some grpArray =>
    have hfits : Fits 0 grpArray ↔ grpArray.length ≤ 256 ∧
        ∀ grpObj ∈ grpArray, grpObj.memberArray.length ≤ 128 := by
      rw [Fits, Nat.zero_add]
    rw [Option.getD_some] at hdist ⊢
    rw [← hfits]
    constructor
    · intro hloads
      by_contra hnot
      obtain ⟨code, num, arr, s, hinit, _⟩ := hloads (fun _ => 0) 0
      rw [cfgInit_fault hdist hnot] at hinit
      simp at hinit
    · intro hfit groupIpArr groupNum
      obtain ⟨arr, s, hinit, hloaded⟩ := cfgInit_ret hdist hfit groupIpArr groupNum
      refine ⟨0, grpArray.length, arr, s, hinit, fun grpObj hmem => ?_⟩
      exact hloaded.lookup hmem (h.ports grpObj hmem) (hfit.2 grpObj hmem) (hfits.mp hfit).1

/-- The installed file is loaded right. -/
theorem installed_loads : LoadsRight inetAddrQuad (some installed) :=
  (config_loads_iff .installed (by decide)).mpr ⟨by decide, by decide⟩

/-! ## 257 groups -/

def nthGroup (n : Nat) : UInt32 := UInt32.ofNat (0xE1000000 + n)

theorem nthGroup_inj {n m : Nat} (hn : n < 257) (hm : m < 257) (h : nthGroup n = nthGroup m) :
    n = m := by
  have hnat := congrArg UInt32.toNat h
  simp only [nthGroup, UInt32.toNat_ofNat'] at hnat
  omega

/-- The file after `multis_admin -A -m 225.0.x.y -j 10.0.0.1` for the first `n` groups. -/
def nthFile (n : Nat) : List GrpObj :=
  (List.range n).map fun m => ⟨ip2str (nthGroup m), 7127, 7126, ["10.0.0.1".toList]⟩

theorem nthFile_succ (n : Nat) : nthFile (n + 1) =
    nthFile n ++ [⟨ip2str (nthGroup n), 7127, 7126, ["10.0.0.1".toList]⟩] := by
  rw [nthFile, List.range_succ, List.map_append]
  rfl

theorem nthGroup_ok {n : Nat} (hn : n < 257) : MultiIpOk (ip2str (nthGroup n)) := by
  refine ⟨nthGroup n, parseIpBe_ip2str _, ?_⟩
  have hnat : (nthGroup n).toNat = 0xE1000000 + n := by
    simp only [nthGroup, UInt32.toNat_ofNat']
    omega
  simp only [isMulticast, Bool.and_eq_true, decide_eq_true_eq, UInt32.le_iff_toNat_le, hnat]
  exact ⟨by simp; omega, by simp; omega⟩

theorem produced_nthFile {n : Nat} (hn : n < 257) : Produced (some (nthFile (n + 1))) := by
  have hvalid : Command.Valid
      (.join (ip2str (nthGroup n)) ["10.0.0.1".toList] 7126) :=
    ⟨nthGroup_ok hn, by decide, by decide⟩
  have hstep : ∀ {cfg : Config}, Produced cfg → cfg.getD [] = nthFile n →
      Produced (some (nthFile (n + 1))) := by
    intro cfg hcfg hget
    have hrun := hcfg.step hvalid
    have hnone : (nthFile n).findIdx? (fun grpObj => grpObj.groupIp = ip2str (nthGroup n)) =
        none := by
      rw [List.findIdx?_eq_none_iff]
      intro grpObj hmem
      obtain ⟨m, hm, rfl⟩ := List.mem_map.mp hmem
      have hlt := List.mem_range.mp hm
      rw [decide_eq_false_iff_not, ip2str_inj]
      exact fun he => absurd (nthGroup_inj (by omega) hn he) (by omega)
    rw [Command.run, jsonAddList, hget] at hrun
    simp only [hnone] at hrun
    rwa [nthFile_succ]
  cases n with
  | zero => exact hstep .none rfl
  | succ m => exact hstep (produced_nthFile (by omega)) rfl

/-- The last group is stored behind `groupIpArr`. -/
theorem not_config_loads : ¬ ∀ cfg, Produced cfg →
    (groupAddrs inetAddrQuad (cfg.getD [])).Nodup → LoadsRight inetAddrQuad cfg := by
  intro h
  have hdist : (groupAddrs inetAddrQuad (nthFile 257)).Nodup := by
    rw [groupAddrs, nthFile, List.map_map]
    refine List.Nodup.map_on ?_ List.nodup_range
    intro n hn m hm he
    simp only [Function.comp_apply, inetAddrQuad_ip2str] at he
    exact nthGroup_inj (List.mem_range.mp hn) (List.mem_range.mp hm) (htonl_inj he)
  obtain ⟨code, num, arr, s, hinit, _⟩ :=
    h _ (produced_nthFile (show 256 < 257 by decide)) hdist (fun _ => 0) 0
  have hnot : ¬ Fits 0 (nthFile 257) := fun hfits => by simp [Fits, nthFile] at hfits
  rw [cfgInit_fault hdist hnot] at hinit
  simp at hinit

end MulticastProxy.LinuxServer
