import MulticastProxy.KernelClient.Tool

/-!
# Kernel client tool: undo of a refused update (`tools/multi_client_control/app_control.c`)

`tmcc_nl_service_add` and `tmcc_nl_service_del` change the config file first. Where the exchange
with the kernel fails they take the change back, an add by deleting the key, a delete by adding the
request.
-/

namespace MulticastProxy.KernelClient

set_option autoImplicit false

/-! ## The config file as a map of texts -/

def GrpObj.pair (grpObj : GrpObj) : (List Char × Nat) × List Char :=
  ((grpObj.serverIp, grpObj.port), grpObj.groupIp)

def TmccNlServiceSt.keyText (grp : TmccNlServiceSt) : List Char × Nat :=
  (ip2str grp.serverIp, grp.port.toNat)

def configPairs (cfg : Config) : List ((List Char × Nat) × List Char) :=
  (cfg.getD []).map GrpObj.pair

/-- The group of the first object of a server and port, the one that both searches find. -/
def configMap (cfg : Config) : List Char × Nat → Option (List Char) :=
  AssocList.get (configPairs cfg)

/-- The group of the second object of a server and port. -/
def configNext (cfg : Config) : List Char × Nat → Option (List Char) :=
  AssocList.getNext (configPairs cfg)

/-! ## The two commands, with what the exchange returns left open -/

def serviceAddWith (answer : Int) (service : TmccNlServiceSt) (cfg : Config) : Int × Config :=
  let (ret, cfg) := multiGrpAddToConfig cfg service
  if ret ≠ 0 then (-1, cfg)
  else (answer, if answer ≠ 0 then (multiGrpDelFromConfig cfg service).2 else cfg)

def serviceDelWith (answer : Int) (service : TmccNlServiceSt) (cfg : Config) : Int × Config :=
  let (ret, cfg) := multiGrpDelFromConfig cfg service
  if ret ≠ 0 then (-1, cfg)
  else (answer, if answer ≠ 0 then (multiGrpAddToConfig cfg service).2 else cfg)

/-- The add rewrites an object that is there. -/
def Overwrites (service : TmccNlServiceSt) (cfg : Config) : Prop :=
  (configPairs cfg).length < multiGrpMax ∧
    ∃ g, configMap cfg service.keyText = some g ∧ g ≠ ip2str service.multiIp

section
variable {jhash2words : UInt32 → UInt32 → UInt32 → UInt32}

theorem tmccNlServiceAdd_answer {service : TmccNlServiceSt} {s s' : State} {answer : Int}
    (h : tmccRcvSkb jhash2words s (.serviceAdd service) = .ret (answer, s')) (cfg : Config) :
    ∃ t, tmccNlServiceAdd jhash2words service cfg s =
      .ret ((serviceAddWith answer service cfg).1, (serviceAddWith answer service cfg).2, t) := by
  unfold tmccNlServiceAdd serviceAddWith
  simp only [h, Outcome.ret_bind]
  split
  · exact ⟨s, rfl⟩
  · exact ⟨s', rfl⟩

theorem tmccNlServiceDel_answer {service : TmccNlServiceSt} {s s' : State} {answer : Int}
    (h : tmccRcvSkb jhash2words s (.serviceDel service) = .ret (answer, s')) (cfg : Config) :
    ∃ t, tmccNlServiceDel jhash2words service cfg s =
      .ret ((serviceDelWith answer service cfg).1, (serviceDelWith answer service cfg).2, t) := by
  unfold tmccNlServiceDel serviceDelWith
  simp only [h, Outcome.ret_bind]
  split
  · exact ⟨s, rfl⟩
  · exact ⟨s', rfl⟩

end

/-! ## What the two edits do to the map -/

section
variable {l : List GrpObj} {grp : TmccNlServiceSt} {i : Nat}

theorem findIdx?_hasKey (l : List GrpObj) (grp : TmccNlServiceSt) :
    l.findIdx? (fun grpObj => grpObj.hasKey grp) = AssocList.index (l.map GrpObj.pair) grp.keyText := by
  rw [AssocList.index, List.findIdx?_map]
  congr 1
  funext grpObj
  simp [GrpObj.hasKey, GrpObj.pair, TmccNlServiceSt.keyText]

theorem map_pair_modify (l : List GrpObj) (i : Nat) (g : List Char) :
    (l.modify i fun grpObj => { grpObj with groupIp := g }).map GrpObj.pair =
      (l.map GrpObj.pair).modify i fun p => (p.1, g) := by
  induction l generalizing i with
  | nil => simp
  | cons grpObj l ih =>
    cases i with
    | zero => rfl
    | succ i => rw [List.modify_succ_cons, List.map_cons, ih, List.map_cons, List.modify_succ_cons]

theorem groupIp_of_index (h : AssocList.index (l.map GrpObj.pair) grp.keyText = some i) :
    (l[i]?).map (fun grpObj => grpObj.groupIp) = configMap (some l) grp.keyText := by
  obtain ⟨before, g, after, hsplit, rfl, _, hget⟩ := AssocList.index_eq_some h
  have hat : (l.map GrpObj.pair)[before.length]? = some (grp.keyText, g) := by
    rw [hsplit]
    simp
  rw [List.getElem?_map] at hat
  obtain ⟨grpObj, hobj, hpair⟩ := Option.map_eq_some_iff.mp hat
  rw [hobj, configMap, configPairs, Option.getD_some, hget, Option.map_some]
  exact congrArg (fun p => some p.2) hpair

/-- All that an add can do: nothing, a new object behind the others, or a new group in the object of
the key. -/
theorem multiGrpAddToConfig_edits (l : List GrpObj) (grp : TmccNlServiceSt) :
    (∃ ret, ret ≠ 0 ∧ multiGrpAddToConfig (some l) grp = (ret, some l) ∧
      (l.length < multiGrpMax → configMap (some l) grp.keyText = some (ip2str grp.multiIp))) ∨
    (l.length < multiGrpMax ∧ configMap (some l) grp.keyText = none ∧
      multiGrpAddToConfig (some l) grp =
        (0, some (l ++ [⟨ip2str grp.serverIp, ip2str grp.multiIp, grp.port.toNat⟩]))) ∨
    ∃ i g, l.length < multiGrpMax ∧ AssocList.index (l.map GrpObj.pair) grp.keyText = some i ∧
      configMap (some l) grp.keyText = some g ∧ g ≠ ip2str grp.multiIp ∧
      multiGrpAddToConfig (some l) grp =
        (0, some (l.modify i fun grpObj => { grpObj with groupIp := ip2str grp.multiIp })) := by
  unfold multiGrpAddToConfig
  simp only [findIdx?_hasKey]
  split
  · rename_i hfull
    exact Or.inl ⟨-1, by decide, rfl, fun hroom => by omega⟩
  · rename_i hroom
    have hroom : l.length < multiGrpMax := by omega
    cases hidx : AssocList.index (l.map GrpObj.pair) grp.keyText with
    | none =>
      exact Or.inr (Or.inl ⟨hroom, AssocList.index_eq_none_iff.mp hidx, rfl⟩)
    | some i =>
      obtain ⟨_, g, _, _, _, _, hget⟩ := AssocList.index_eq_some hidx
      have hmap : configMap (some l) grp.keyText = some g := hget
      simp only [groupIp_of_index hidx, hmap]
      split
      · rename_i hsame
        exact Or.inl ⟨-2, by decide, rfl, fun _ => hsame⟩
      · rename_i hdiff
        exact Or.inr (Or.inr ⟨i, g, hroom, rfl, rfl, fun he => hdiff (congrArg some he), rfl⟩)

/-- As a map the file has the request's group afterwards, wherever the array has room. -/
theorem configMap_add (l : List GrpObj) (grp : TmccNlServiceSt) :
    configMap (multiGrpAddToConfig (some l) grp).2 =
      if l.length < multiGrpMax then
        Function.update (configMap (some l)) grp.keyText (some (ip2str grp.multiIp))
      else configMap (some l) := by
  rcases multiGrpAddToConfig_edits l grp with
    ⟨ret, _, hadd, hsame⟩ | ⟨hroom, hnew, hadd⟩ | ⟨i, g, hroom, hidx, hget, _, hadd⟩
  · rw [hadd]
    split
    · rename_i hroom
      rw [← hsame hroom, Function.update_eq_self]
    · rfl
  · rw [hadd, if_pos hroom]
    simp only [configMap, configPairs, Option.getD_some, List.map_append, List.map_cons,
      List.map_nil]
    exact AssocList.get_concat hnew _
  · rw [hadd, if_pos hroom]
    simp only [configMap, configPairs, Option.getD_some, map_pair_modify]
    have hget : AssocList.get (l.map GrpObj.pair) grp.keyText = some g := hget
    rw [AssocList.get_modify (fun _ => ip2str grp.multiIp) hidx, hget]
    rfl

theorem multiGrpDelFromConfig_edits (l : List GrpObj) (grp : TmccNlServiceSt) :
    (configMap (some l) grp.keyText = none ∧
      multiGrpDelFromConfig (some l) grp = (-1, some l)) ∨
    ∃ i, AssocList.index (l.map GrpObj.pair) grp.keyText = some i ∧
      multiGrpDelFromConfig (some l) grp = (0, some (l.eraseIdx i)) := by
  unfold multiGrpDelFromConfig
  simp only [findIdx?_hasKey]
  cases hidx : AssocList.index (l.map GrpObj.pair) grp.keyText with
  | none => exact Or.inl ⟨AssocList.index_eq_none_iff.mp hidx, rfl⟩
  | some i => exact Or.inr ⟨i, rfl, rfl⟩

theorem multiGrpDelFromConfig_index
    (h : AssocList.index (l.map GrpObj.pair) grp.keyText = some i) :
    (multiGrpDelFromConfig (some l) grp).2 = some (l.eraseIdx i) := by
  unfold multiGrpDelFromConfig
  simp only [findIdx?_hasKey, h]

theorem configMap_eraseIdx (h : AssocList.index (l.map GrpObj.pair) grp.keyText = some i) :
    configMap (some (l.eraseIdx i)) = Function.update (configMap (some l)) grp.keyText
      (configNext (some l) grp.keyText) := by
  have herase := AssocList.get_eraseIdx_index h
  rw [List.eraseIdx_map] at herase
  exact herase

end

/-! ## The undo of an add -/

def TmccNlServiceSt.grpObj (grp : TmccNlServiceSt) : GrpObj :=
  ⟨ip2str grp.serverIp, ip2str grp.multiIp, grp.port.toNat⟩

/-- A new object is the one that the undo finds. -/
theorem multiGrpDelFromConfig_concat {l : List GrpObj} {grp : TmccNlServiceSt}
    (hnew : configMap (some l) grp.keyText = none) :
    (multiGrpDelFromConfig (some (l ++ [grp.grpObj])) grp).2 = some l := by
  have hidx : AssocList.index ((l ++ [grp.grpObj]).map GrpObj.pair) grp.keyText = some l.length := by
    rw [List.map_append, ← List.length_map (f := GrpObj.pair)]
    exact AssocList.index_concat hnew _
  rw [multiGrpDelFromConfig_index hidx, List.eraseIdx_append_of_length_le le_rfl]
  simp

/-- A rewritten object is deleted as well, whatever group it had. -/
theorem multiGrpDelFromConfig_modify {l : List GrpObj} {grp : TmccNlServiceSt} {i : Nat}
    (hidx : AssocList.index (l.map GrpObj.pair) grp.keyText = some i) (g : List Char) :
    (multiGrpDelFromConfig (some (l.modify i fun grpObj => { grpObj with groupIp := g })) grp).2 =
      some (l.eraseIdx i) := by
  have hidx' : AssocList.index
      ((l.modify i fun grpObj => { grpObj with groupIp := g }).map GrpObj.pair) grp.keyText =
        some i := by
    rw [map_pair_modify, ← hidx]
    exact AssocList.index_congr (AssocList.keys_modify (fun _ => g) hidx) _
  rw [multiGrpDelFromConfig_index hidx', AssocList.eraseIdx_modify]

/-- What a command leaves, by whether its add rewrote an object. -/
theorem serviceAddWith_cases (answer : Int) (service : TmccNlServiceSt) (cfg : Config) :
    (¬ Overwrites service cfg ∧ serviceAddWith answer service cfg = (-1, cfg)) ∨
    (¬ Overwrites service cfg ∧ (answer ≠ 0 → serviceAddWith answer service cfg = (answer, cfg)) ∧
      (serviceAddWith answer service cfg).1 = answer) ∨
    (Overwrites service cfg ∧ (serviceAddWith answer service cfg).1 = answer ∧
      (answer ≠ 0 → configMap (serviceAddWith answer service cfg).2 =
        Function.update (configMap cfg) service.keyText (configNext cfg service.keyText))) := by
  cases cfg with
  | none =>
    refine Or.inl ⟨?_, rfl⟩
    rintro ⟨_, g, hget, _⟩
    cases hget
  | some l =>
    have hlen : (configPairs (some l)).length = l.length := List.length_map _
    rcases multiGrpAddToConfig_edits l service with
      ⟨ret, hret, hadd, hsame⟩ | ⟨hroom, hnew, hadd⟩ | ⟨i, g, hroom, hidx, hget, hdiff, hadd⟩
    · refine Or.inl ⟨?_, ?_⟩
      · rintro ⟨hroom, g, hget, hdiff⟩
        rw [hsame (hlen ▸ hroom)] at hget
        exact hdiff (Option.some.inj hget).symm
      · simp [serviceAddWith, hadd, hret]
    · refine Or.inr (Or.inl ⟨?_, ?_, ?_⟩)
      · rintro ⟨_, g, hget, _⟩
        exact Option.some_ne_none _ (hget.symm.trans hnew)
      · intro hne
        have hundo := multiGrpDelFromConfig_concat hnew
        simp only [TmccNlServiceSt.grpObj] at hundo
        simp [serviceAddWith, hadd, hne, hundo]
      · simp [serviceAddWith, hadd]
    · refine Or.inr (Or.inr ⟨⟨hlen ▸ hroom, g, hget, hdiff⟩, ?_, ?_⟩)
      · simp [serviceAddWith, hadd]
      · intro hne
        have hundo := multiGrpDelFromConfig_modify hidx (ip2str service.multiIp)
        rw [← configMap_eraseIdx hidx, ← hundo]
        simp [serviceAddWith, hadd, hne]

/-- For every file, request and answer of the kernel: an add that returns an error leaves the map as it
was, exactly unless the kernel answered an error and the add had rewritten an object; then it does only
where a second object of the key has the first one's group. -/
theorem undo_add_iff (answer : Int) (service : TmccNlServiceSt) (cfg : Config) :
    ((serviceAddWith answer service cfg).1 ≠ 0 →
      configMap (serviceAddWith answer service cfg).2 = configMap cfg) ↔
    (answer ≠ 0 → Overwrites service cfg →
      configNext cfg service.keyText = configMap cfg service.keyText) := by
  rcases serviceAddWith_cases answer service cfg with
    ⟨hkeep, hrefused⟩ | ⟨hkeep, hundone, hcode⟩ | ⟨hover, hcode, hundone⟩
  · refine iff_of_true (fun _ => ?_) (fun _ hover => absurd hover hkeep)
    rw [hrefused]
  · refine iff_of_true (fun hne => ?_) (fun _ hover => absurd hover hkeep)
    rw [hundone (hcode ▸ hne)]
  · rw [hcode]
    constructor
    · intro hsame hne _
      have hmap := hsame hne
      rw [hundone hne] at hmap
      rw [← congrFun hmap service.keyText, Function.update_self]
    · intro hnext hne
      rw [hundone hne, hnext hne hover, Function.update_eq_self]

/-- `multic_admin -A` for a server and port with another group, and the kernel does not answer. -/
theorem not_undo_add : ¬ ∀ (answer : Int) (service : TmccNlServiceSt) (cfg : Config),
    (serviceAddWith answer service cfg).1 ≠ 0 →
      configMap (serviceAddWith answer service cfg).2 = configMap cfg := by
  intro hall
  have hmap := hall (-1) ⟨5000, 0x0A000001, 0xE1000002⟩
    (some [⟨"10.0.0.1".toList, "225.0.0.1".toList, 5000⟩]) (by decide)
  exact absurd (congrFun hmap ("10.0.0.1".toList, 5000)) (by decide)

/-! ## The undo of a delete -/

/-- A group that was given is marked in the mask. -/
def Args.Marked (a : Args) : Prop := a.mask &&& optMultiIp = 0 → a.service.multiIp = 0

theorem or_and_eq_zero {mask opt bit : UInt32} (h : (mask ||| opt) &&& bit = 0) :
    mask &&& bit = 0 ∧ opt &&& bit = 0 := by
  have hdistrib : (mask ||| opt) &&& bit = (mask &&& bit) ||| (opt &&& bit) := by
    apply UInt32.toNat_inj.mp
    simp only [UInt32.toNat_and, UInt32.toNat_or]
    exact Nat.and_or_distrib_right ..
  exact UInt32.or_eq_zero_iff.mp (hdistrib ▸ h)

/-- What one option can do: the mask and the group stay, `-m` marks its group, another option gets
its bit. -/
theorem Args.read_cases {a a' : Args} {ev : CommandLine.Event} (h : a.read ev = .ok a') :
    (a'.mask = a.mask ∧ a'.service = a.service) ∨ a'.mask = a.mask ||| optMultiIp ∨
      ∃ opt, a'.mask = a.mask ||| opt ∧ a'.service.multiIp = a.service.multiIp := by
  unfold Args.read at h
  split at h
  case h_1 | h_2 | h_3 | h_4 | h_5 =>
    obtain rfl := Except.ok.inj h
    exact Or.inl ⟨rfl, rfl⟩
  case h_6 | h_10 => cases h
  case h_7 =>
    split at h
    · cases h
    · split at h
      · cases h
      · obtain rfl := Except.ok.inj h
        exact Or.inr (Or.inl rfl)
  case h_8 =>
    split at h
    · cases h
    · split at h
      · cases h
      · obtain rfl := Except.ok.inj h
        exact Or.inr (Or.inr ⟨_, rfl, rfl⟩)
  case h_9 =>
    split at h
    · cases h
    · split at h
      · split at h
        · cases h
        · obtain rfl := Except.ok.inj h
          exact Or.inr (Or.inr ⟨_, rfl, rfl⟩)
      · cases h

theorem Args.read_marked {a a' : Args} {ev : CommandLine.Event} (ha : a.Marked)
    (h : a.read ev = .ok a') : a'.Marked := by
  intro hmask
  rcases Args.read_cases h with ⟨hsame, hservice⟩ | hset | ⟨opt, hset, hgroup⟩
  · rw [hservice]
    exact ha (hsame ▸ hmask)
  · rw [hset] at hmask
    have hbit := (or_and_eq_zero hmask).2
    cases hbit
  · rw [hset] at hmask
    rw [hgroup]
    exact ha (or_and_eq_zero hmask).1

theorem foldlM_read_marked {events : List CommandLine.Event} {a a' : Args} (ha : a.Marked)
    (h : events.foldlM Args.read a = .ok a') : a'.Marked := by
  induction events generalizing a with
  | nil =>
    obtain rfl := Except.ok.inj h
    exact ha
  | cons ev events ih =>
    rw [List.foldlM_cons] at h
    cases hread : a.read ev with
    | error ret =>
      rw [hread] at h
      cases h
    | ok a1 =>
      rw [hread] at h
      exact ih (Args.read_marked ha hread) h

theorem parseArgs_del {argv : List CommandLine.Word} {service : TmccNlServiceSt}
    (h : parseArgs argv = .ok (.del service)) : service.multiIp = 0 := by
  unfold parseArgs at h
  cases hfold : (CommandLine.getopt options argv).foldlM Args.read .init with
  | error ret =>
    rw [hfold] at h
    cases h
  | ok a =>
    rw [hfold] at h
    have hmarked : a.Marked := foldlM_read_marked (fun _ => rfl) hfold
    have hcommand : a.command = .ok (.del service) := h
    unfold Args.command at hcommand
    split at hcommand
    case h_2 =>
      split at hcommand
      · cases hcommand
      · rename_i hmask
        obtain rfl := Command.del.inj (Except.ok.inj hcommand)
        apply hmarked
        rw [not_not.mp hmask]
        rfl
    case h_6 => cases hcommand
    all_goals
      split at hcommand
      · cases hcommand
      · cases hcommand

theorem serviceDelWith_cases (answer : Int) (service : TmccNlServiceSt) (cfg : Config) :
    (configMap cfg service.keyText = none ∧ serviceDelWith answer service cfg = (-1, cfg)) ∨
    (configMap cfg service.keyText ≠ none ∧ (serviceDelWith answer service cfg).1 = answer ∧
      (answer ≠ 0 → configMap (serviceDelWith answer service cfg).2 =
        Function.update (configMap cfg) service.keyText
          (if (configPairs cfg).length ≤ multiGrpMax then some (ip2str service.multiIp)
          else configNext cfg service.keyText))) := by
  cases cfg with
  | none => exact Or.inl ⟨rfl, rfl⟩
  | some l =>
    rcases multiGrpDelFromConfig_edits l service with ⟨hnone, hdel⟩ | ⟨i, hidx, hdel⟩
    · refine Or.inl ⟨hnone, ?_⟩
      simp [serviceDelWith, hdel]
    · obtain ⟨_, g, _, hsplit, hi, _, hget⟩ := AssocList.index_eq_some hidx
      have hget : configMap (some l) service.keyText = some g := hget
      refine Or.inr ⟨by rw [hget]; exact Option.some_ne_none _, ?_, ?_⟩
      · simp [serviceDelWith, hdel]
      · intro hne
        have hlt : i < l.length := by
          rw [← List.length_map GrpObj.pair, hsplit, List.length_append, List.length_cons]
          omega
        have hlen : (configPairs (some l)).length = l.length := List.length_map _
        have hundo := configMap_add (l.eraseIdx i) service
        rw [configMap_eraseIdx hidx, Function.update_idem, List.length_eraseIdx_of_lt hlt] at hundo
        have hafter : (serviceDelWith answer service (some l)).2 =
            (multiGrpAddToConfig (some (l.eraseIdx i)) service).2 := by
          simp [serviceDelWith, hdel, hne]
        rw [hafter, hundo, hlen]
        by_cases hfits : l.length ≤ multiGrpMax
        · rw [if_pos hfits, if_pos (by omega)]
        · rw [if_neg hfits, if_neg (by omega)]

/-- For every file, `-D` request and answer of the kernel: where a delete returns an error, the file
is the map it was before, exactly where the answer was no error, the key was not there, or its
group comes back: in an array of at most `multiGrpMax` entries where it was 0.0.0.0, in a longer one
where a second object of the key has it. -/
theorem undo_del_iff (answer : Int) {argv : List CommandLine.Word} {service : TmccNlServiceSt}
    (h : parseArgs argv = .ok (.del service)) (cfg : Config) :
    ((serviceDelWith answer service cfg).1 ≠ 0 →
      configMap (serviceDelWith answer service cfg).2 = configMap cfg) ↔
    (answer ≠ 0 → ∀ g, configMap cfg service.keyText = some g →
      if (configPairs cfg).length ≤ multiGrpMax then g = ip2str 0
      else configNext cfg service.keyText = some g) := by
  rcases serviceDelWith_cases answer service cfg with ⟨hnone, hrefused⟩ | ⟨hfound, hcode, hundone⟩
  · refine iff_of_true (fun _ => ?_) (fun _ g hget => ?_)
    · rw [hrefused]
    · exact absurd (hget.symm.trans hnone) (Option.some_ne_none _)
  · obtain ⟨g, hget⟩ := Option.ne_none_iff_exists'.mp hfound
    rw [parseArgs_del h] at hundone
    rw [hcode]
    apply imp_congr_right
    intro hne
    rw [hundone hne, Function.update_eq_self_iff, hget]
    constructor
    · rintro hback g' hg'
      obtain rfl := Option.some.inj hg'
      split
      · rename_i hfits
        rw [if_pos hfits] at hback
        exact (Option.some.inj hback).symm
      · rename_i hfits
        rw [if_neg hfits] at hback
        exact hback
    · intro hback
      have hback := hback g rfl
      split
      · rename_i hfits
        rw [if_pos hfits] at hback
        rw [hback]
      · rename_i hfits
        rw [if_neg hfits] at hback
        exact hback

/-- The first of two entries has the group 0.0.0.0, and the delete of it is refused. -/
theorem undo_del_zero :
    (serviceDelWith (-1) ⟨5000, 0x0A000001, 0⟩
      (some [⟨"10.0.0.1".toList, "0.0.0.0".toList, 5000⟩,
        ⟨"10.0.0.2".toList, "225.0.0.1".toList, 5000⟩])).1 ≠ 0 ∧
    configMap (serviceDelWith (-1) ⟨5000, 0x0A000001, 0⟩
      (some [⟨"10.0.0.1".toList, "0.0.0.0".toList, 5000⟩,
        ⟨"10.0.0.2".toList, "225.0.0.1".toList, 5000⟩])).2 =
      configMap (some [⟨"10.0.0.1".toList, "0.0.0.0".toList, 5000⟩,
        ⟨"10.0.0.2".toList, "225.0.0.1".toList, 5000⟩]) := by
  have hparse : parseArgs (CommandLine.words "-D -i 10.0.0.1 -p 5000".toList) =
      .ok (.del ⟨5000, 0x0A000001, 0⟩) := rfl
  refine ⟨by decide, (undo_del_iff (-1) hparse _).mpr ?_ (by decide)⟩
  intro _ g hget
  rw [if_pos (by decide)]
  have hzero : some "0.0.0.0".toList = some g := hget
  exact (Option.some.inj hzero).symm

/-- `multic_admin -D -i 10.0.0.1 -p 5000`, and the kernel does not answer: the entry comes back with
the group 0.0.0.0. -/
theorem not_undo_del : ¬ ∀ (answer : Int) (argv : List CommandLine.Word)
    (service : TmccNlServiceSt) (cfg : Config), parseArgs argv = .ok (.del service) →
    (serviceDelWith answer service cfg).1 ≠ 0 →
      configMap (serviceDelWith answer service cfg).2 = configMap cfg := by
  intro hall
  have hmap := hall (-1) (CommandLine.words "-D -i 10.0.0.1 -p 5000".toList)
    ⟨5000, 0x0A000001, 0⟩ (some [⟨"10.0.0.1".toList, "225.0.0.1".toList, 5000⟩]) rfl (by decide)
  exact absurd (congrFun hmap ("10.0.0.1".toList, 5000)) (by decide)

end MulticastProxy.KernelClient
