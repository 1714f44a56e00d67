import MulticastProxy.KernelClient.Tool

/-!
# Kernel client: config file and kernel table agree

The relation between the JSON list and the hash table that every `multic_admin` process keeps.
Both sides refuse an entry in the same states, so nothing is ever undone.
-/

namespace MulticastProxy.KernelClient

set_option autoImplicit false

section
variable (jhash2words : UInt32 → UInt32 → UInt32 → UInt32)

/-- Config file and kernel table after a sequence of processes that each returned. -/
inductive Run : Config → State → Prop where
  | init : Run none multiNodeInit
  | step {cfg cfg' : Config} {s s' : State} {argv : List CommandLine.Word} {code : Int} :
      Run cfg s → multicAdmin jhash2words argv cfg s = .ret (code, cfg', s') → Run cfg' s'

/-- The config array has an object with this key and group. -/
def Recorded (cfg : Config) (ip : UInt32) (port : UInt16) (g : UInt32) : Prop :=
  ⟨ip2str ip, ip2str g, port.toNat⟩ ∈ cfg.getD []

/-- Two objects of the config array have different keys, there are at most `MULTI_GRP_MAX`, and the
map they record is the one the kernel looks up. -/
structure Agree (cfg : Config) (s : State) : Prop where
  keys : (cfg.getD []).Pairwise fun a b => ¬ (a.serverIp = b.serverIp ∧ a.port = b.port)
  bound : (cfg.getD []).length ≤ multiGrpMax
  form : ∀ grpObj ∈ cfg.getD [], ∃ ip port g, grpObj = ⟨ip2str ip, ip2str g, UInt16.toNat port⟩
  maps : ∀ ip port g, Recorded cfg ip port g ↔
    (lookupIpPortNode jhash2words s ip port).map Prod.fst = some g

/-- Config file and kernel table as they were. -/
def Unchanged (cfg cfg' : Config) (s s' : State) : Prop := cfg'.getD [] = cfg.getD [] ∧ s' = s

/-- On both sides `g` is what is stored under the key, and no other key is touched. -/
def Applied (cfg cfg' : Config) (s s' : State) (k : Key) (g : Option UInt32) : Prop :=
  (∀ ip port g', Recorded cfg' ip port g' ↔
    if (ip, port) = k then g = some g' else Recorded cfg ip port g') ∧
  ∀ ip port, (lookupIpPortNode jhash2words s' ip port).map Prod.fst =
    if (ip, port) = k then g else (lookupIpPortNode jhash2words s ip port).map Prod.fst

/-- What the exit code of an add or a delete says. -/
def ResultTells (cfg cfg' : Config) (s s' : State) (code : Int) : Command → Prop
  | .add service =>
    if code = 0 then
      Applied jhash2words cfg cfg' s s' (service.serverIp, service.port) (some service.multiIp)
    else Unchanged cfg cfg' s s'
  | .del service =>
    if code = 0 then Applied jhash2words cfg cfg' s s' (service.serverIp, service.port) none
    else Unchanged cfg cfg' s s'
  | .clear => True
  | .print _ _ => True

/-- The simulation: the entries of the list are the entries of the table. -/
structure Sim (es : Entries) (s : State) : Prop where
  wf : WellFormed jhash2words s
  nodup : (es.map Prod.fst).Nodup
  maps : AssocList.get es = entry jhash2words s

end

variable {jhash2words : UInt32 → UInt32 → UInt32 → UInt32}

theorem entry_isSome_iff {s : State} (wf : WellFormed jhash2words s) {k : Key} :
    (entry jhash2words s k).isSome = true ↔
      ∃ p ∈ liveNodes jhash2words s, (layout jhash2words).key (s.multiGrp p.1 p.2) = k := by
  rw [Option.isSome_iff_ne_none, Ne, entry, Option.map_eq_none_iff, wf.table.content_eq_none_iff]
  simp only [not_forall, not_not, exists_prop]
  constructor
  · rintro ⟨b, i, hl, hk⟩
    exact ⟨(b, i), wf.mem_liveNodes.mpr hl, hk⟩
  · rintro ⟨p, hp, hk⟩
    exact ⟨p.1, p.2, wf.mem_liveNodes.mp hp, hk⟩

theorem Sim.length {es : Entries} {s : State} (sim : Sim jhash2words es s) :
    (es.length : Int) = s.nodeCnt := by
  have hinj : Set.InjOn (fun p : Nat × Nat => (layout jhash2words).key (s.multiGrp p.1 p.2))
      (liveNodes jhash2words s) := by
    intro p hp q hq he
    obtain ⟨h1, h2⟩ := sim.wf.table.cell_unique (sim.wf.mem_liveNodes.mp hp)
      (sim.wf.mem_liveNodes.mp hq) he
    exact Prod.ext h1 h2
  have himage : (liveNodes jhash2words s).image
      (fun p => (layout jhash2words).key (s.multiGrp p.1 p.2)) = (es.map Prod.fst).toFinset := by
    ext k
    rw [Finset.mem_image, List.mem_toFinset, ← entry_isSome_iff sim.wf, ← sim.maps,
      Option.isSome_iff_ne_none, Ne, AssocList.get_eq_none_iff, not_not]
  have hcard := Finset.card_image_of_injOn hinj
  rw [himage, List.toFinset_card_of_nodup sim.nodup, List.length_map] at hcard
  rw [sim.wf.count, hcard]

theorem sim_init : Sim jhash2words [] multiNodeInit where
  wf := multiNodeInit_wellFormed
  nodup := List.nodup_nil
  maps := by funext k; simp

/-! ## What the simulation gives -/

theorem Sim.recorded {es : Entries} {s : State} (sim : Sim jhash2words es s) (ip : UInt32)
    (port : UInt16) (g : UInt32) :
    Recorded (some (es.map GrpObj.ofEntry)) ip port g ↔
      entry jhash2words s (ip, port) = some g := by
  rw [← sim.maps, ← AssocList.mem_iff_get sim.nodup]
  unfold Recorded
  rw [Option.getD_some, List.mem_map]
  constructor
  · rintro ⟨⟨⟨ip', port'⟩, g'⟩, hmem, he⟩
    obtain ⟨h1, h2, h3⟩ := GrpObj.mk.inj he
    rw [← ip2str_injective h1, ← ip2str_injective h2, ← UInt16.toNat_inj.mp h3]
    exact hmem
  · exact fun hmem => ⟨_, hmem, rfl⟩

theorem Sim.agree {es : Entries} {s : State} (sim : Sim jhash2words es s) :
    Agree jhash2words (some (es.map GrpObj.ofEntry)) s where
  keys := by
    rw [Option.getD_some, List.pairwise_map]
    apply (List.pairwise_map.mp sim.nodup).imp
    rintro ⟨⟨ip, port⟩, g⟩ ⟨⟨ip', port'⟩, g'⟩ hne ⟨h1, h2⟩
    exact hne (Prod.ext (ip2str_injective h1) (UInt16.toNat_inj.mp h2))
  bound := by
    have h1 := sim.length
    have h2 := sim.wf.bound
    rw [Option.getD_some, List.length_map]
    omega
  form := by
    intro grpObj hmem
    obtain ⟨⟨⟨ip, port⟩, g⟩, _, rfl⟩ := List.mem_map.mp hmem
    exact ⟨ip, port, g, rfl⟩
  maps := by
    intro ip port g
    rw [sim.recorded, lookupIpPortNode_eq]

theorem Sim.applied {es es' : Entries} {s s' : State} (sim : Sim jhash2words es s)
    (sim' : Sim jhash2words es' s') {k : Key} {g : Option UInt32}
    (h : entry jhash2words s' = Function.update (entry jhash2words s) k g) :
    Applied jhash2words (some (es.map GrpObj.ofEntry)) (some (es'.map GrpObj.ofEntry)) s s' k g := by
  refine ⟨fun ip port g' => ?_, fun ip port => ?_⟩
  · rw [sim'.recorded, sim.recorded, h, Function.update_apply]
    split <;> rfl
  · rw [lookupIpPortNode_eq, lookupIpPortNode_eq, h, Function.update_apply]

/-! ## One process -/

theorem Sim.add {es : Entries} {s s' : State} (sim : Sim jhash2words es s)
    {service : TmccNlServiceSt} {code : Int} {cfg' : Config}
    (h : tmccNlServiceAdd jhash2words service (some (es.map GrpObj.ofEntry)) s =
      .ret (code, cfg', s')) :
    ∃ es', cfg' = some (es'.map GrpObj.ofEntry) ∧ Sim jhash2words es' s' ∧
      ResultTells jhash2words (some (es.map GrpObj.ofEntry)) cfg' s s' code (.add service) := by
  unfold tmccNlServiceAdd at h
  rcases multiGrpAddToConfig_cases sim.nodup service with
    ⟨ret, hret, hcfg⟩ | ⟨es', hcfg, hroom, hnd, hdiff, hget⟩
  · simp only [hcfg, hret, ne_eq, not_false_eq_true, if_true, Outcome.ret.injEq,
      Prod.mk.injEq] at h
    obtain ⟨rfl, rfl, rfl⟩ := h
    exact ⟨es, rfl, sim, rfl, rfl⟩
  · simp only [hcfg, ne_eq, not_true_eq_false, if_false] at h
    obtain ⟨⟨ret, t⟩, hadd, hret⟩ := Outcome.bind_eq_ret_iff.mp h
    simp only [Outcome.ret.injEq, Prod.mk.injEq] at hret
    obtain ⟨rfl, rfl, rfl⟩ := hret
    have hlen := sim.length
    rcases addMultiNode_cases sim.wf hadd with
      ⟨_, ⟨_, hfull⟩ | ⟨_, _, hsame⟩⟩ | ⟨rfl, hcnt, hwf, _, hentry⟩
    · omega
    · rw [sim.maps] at hdiff
      exact absurd hsame hdiff
    · have hmaps : AssocList.get es' = entry jhash2words t := by rw [hget, hentry, sim.maps]
      have sim' : Sim jhash2words es' t := ⟨hwf, hnd, hmaps⟩
      exact ⟨es', rfl, sim', sim.applied sim' hentry⟩

theorem Sim.del {es : Entries} {s s' : State} (sim : Sim jhash2words es s)
    {service : TmccNlServiceSt} {code : Int} {cfg' : Config}
    (h : tmccNlServiceDel jhash2words service (some (es.map GrpObj.ofEntry)) s =
      .ret (code, cfg', s')) :
    ∃ es', cfg' = some (es'.map GrpObj.ofEntry) ∧ Sim jhash2words es' s' ∧
      ResultTells jhash2words (some (es.map GrpObj.ofEntry)) cfg' s s' code (.del service) := by
  unfold tmccNlServiceDel at h
  rcases multiGrpDelFromConfig_cases sim.nodup service with
    ⟨_, hcfg⟩ | ⟨es', hcfg, hfound, hnd, hget⟩
  · simp only [hcfg, ne_eq, Int.reduceNeg, Int.reduceEq, not_false_eq_true, if_true,
      Outcome.ret.injEq, Prod.mk.injEq] at h
    obtain ⟨rfl, rfl, rfl⟩ := h
    exact ⟨es, rfl, sim, rfl, rfl⟩
  · simp only [hcfg, ne_eq, not_true_eq_false, if_false] at h
    obtain ⟨⟨ret, t⟩, hdel, hret⟩ := Outcome.bind_eq_ret_iff.mp h
    simp only [Outcome.ret.injEq, Prod.mk.injEq] at hret
    obtain ⟨rfl, rfl, rfl⟩ := hret
    simp only [tmccRcvSkb, Outcome.ret.injEq] at hdel
    rcases delMultiNode_cases sim.wf service.serverIp service.port with
      ⟨hnone, _⟩ | ⟨u, hd, _, hwf, hentry⟩
    · rw [sim.maps, hnone] at hfound
      simp at hfound
    · rw [hd] at hdel
      obtain ⟨rfl, rfl⟩ := Prod.mk.inj hdel
      have hmaps : AssocList.get es' = entry jhash2words u := by rw [hget, hentry, sim.maps]
      have sim' : Sim jhash2words es' u := ⟨hwf, hnd, hmaps⟩
      exact ⟨es', rfl, sim', sim.applied sim' hentry⟩

theorem Sim.clear {es : Entries} {s : State} (sim : Sim jhash2words es s) :
    Sim jhash2words [] (clearMultiNode s).2 where
  wf := wellFormed_of_free (clearMultiNode_free sim.wf) rfl
  nodup := List.nodup_nil
  maps := by
    funext k
    rw [entry_of_free (clearMultiNode_free sim.wf), AssocList.get_nil]

/-- What holds between the processes of a run. -/
def Synced (jhash2words : UInt32 → UInt32 → UInt32 → UInt32) (cfg : Config) (s : State) : Prop :=
  ∃ es : Entries, multiGrpConfigInit cfg = some (es.map GrpObj.ofEntry) ∧ Sim jhash2words es s

/-- A file that is missing and one with an empty array are told apart by no result. -/
theorem ResultTells.of_getD {cfg cfg' cfg'' : Config} {s s' : State} {code : Int} {cmd : Command}
    (h : ResultTells jhash2words cfg cfg'' s s' code cmd) (hget : cfg'.getD [] = cfg.getD []) :
    ResultTells jhash2words cfg' cfg'' s s' code cmd := by
  have hrec : ∀ ip port g, Recorded cfg' ip port g ↔ Recorded cfg ip port g := by
    intro ip port g
    rw [Recorded, Recorded, hget]
  cases cmd with
  | add service => simpa only [ResultTells, Applied, Unchanged, hrec, hget] using h
  | del service => simpa only [ResultTells, Applied, Unchanged, hrec, hget] using h
  | clear => trivial
  | print cmd service => trivial

theorem Synced.step {cfg cfg' : Config} {s s' : State} (h : Synced jhash2words cfg s)
    {argv : List CommandLine.Word} {code : Int}
    (hrun : multicAdmin jhash2words argv cfg s = .ret (code, cfg', s')) :
    Synced jhash2words cfg' s' ∧ ∀ cmd, parseArgs argv = .ok cmd →
      ResultTells jhash2words cfg cfg' s s' code cmd := by
  obtain ⟨es, hcfg, sim⟩ := h
  have hget : cfg.getD [] = es.map GrpObj.ofEntry := Option.some.inj hcfg
  have hsynced : ∀ {es' : Entries} {t : State}, Sim jhash2words es' t →
      Synced jhash2words (some (es'.map GrpObj.ofEntry)) t :=
    fun {es'} {_} sim' => ⟨es', rfl, sim'⟩
  unfold multicAdmin at hrun
  split at hrun
  · rename_i hargv
    simp only [Outcome.ret.injEq, Prod.mk.injEq] at hrun
    obtain ⟨_, rfl, rfl⟩ := hrun
    refine ⟨⟨es, hcfg, sim⟩, fun cmd hok => ?_⟩
    have hnil : parseArgs [] = .error (-1) := rfl
    simp [hargv, hnil] at hok
  · rw [hcfg] at hrun
    split at hrun
    · rename_i hparse
      simp only [Outcome.ret.injEq, Prod.mk.injEq] at hrun
      obtain ⟨_, rfl, rfl⟩ := hrun
      exact ⟨hsynced sim, fun cmd hok => by simp [hok] at hparse⟩
    · rename_i cmd hparse
      have hcmd : ∀ cmd', parseArgs argv = .ok cmd' → cmd' = cmd :=
        fun cmd' hok => Except.ok.inj (hok.symm.trans hparse)
      cases cmd with
      | add service =>
        obtain ⟨es', rfl, sim', htells⟩ := sim.add hrun
        exact ⟨hsynced sim', fun cmd' hok => hcmd cmd' hok ▸ htells.of_getD hget⟩
      | del service =>
        obtain ⟨es', rfl, sim', htells⟩ := sim.del hrun
        exact ⟨hsynced sim', fun cmd' hok => hcmd cmd' hok ▸ htells.of_getD hget⟩
      | clear =>
        simp only [Command.run, multiNlClientClear, tmccRcvSkb, clearMultiNode,
          Outcome.ret_bind, Outcome.ret.injEq, Prod.mk.injEq] at hrun
        obtain ⟨_, rfl, rfl⟩ := hrun
        exact ⟨⟨[], rfl, sim.clear⟩, fun cmd' hok => hcmd cmd' hok ▸ trivial⟩
      | print cmd service =>
        obtain ⟨rfl, rfl⟩ := Command.run_print hrun
        exact ⟨hsynced sim, fun cmd' hok => hcmd cmd' hok ▸ trivial⟩

/-! ## Runs -/

theorem Run.synced {cfg : Config} {s : State} (h : Run jhash2words cfg s) :
    Synced jhash2words cfg s := by
  induction h with
  | init => exact ⟨[], rfl, sim_init⟩
  | step _ hrun ih => exact (ih.step hrun).1

theorem Synced.agree {cfg : Config} {s : State} (h : Synced jhash2words cfg s) :
    Agree jhash2words cfg s := by
  obtain ⟨es, hcfg, sim⟩ := h
  have hget : cfg.getD [] = es.map GrpObj.ofEntry := Option.some.inj hcfg
  obtain ⟨h1, h2, h3, h4⟩ := sim.agree
  simp only [Recorded, Option.getD_some] at h1 h2 h3 h4
  exact ⟨by rwa [hget], by rwa [hget], by rwa [hget], by simpa only [Recorded, hget] using h4⟩

/-- After every process of a run the config file and the kernel hold the same map, and the exit code
of the next add or delete says whether both took it or neither. -/
theorem config_and_kernel_agree {cfg : Config} {s : State} (h : Run jhash2words cfg s) :
    Agree jhash2words cfg s ∧ ∀ argv code cfg' s' cmd, parseArgs argv = .ok cmd →
      multicAdmin jhash2words argv cfg s = .ret (code, cfg', s') →
      ResultTells jhash2words cfg cfg' s s' code cmd :=
  ⟨h.synced.agree, fun _ _ _ _ cmd hparse hrun => (h.synced.step hrun).2 cmd hparse⟩

/-- After `multic_admin -A -i 10.0.0.1 -p 5000 -m 225.0.0.1`. -/
theorem config_and_kernel_agree_after_add :
    ∃ cfg s, (lookupIpPortNode (fun _ _ _ => 0) s 0x0A000001 5000).map Prod.fst = some 0xE1000001 ∧
      Agree (fun _ _ _ => 0) cfg s := by
  obtain ⟨s, hs, hentry⟩ := addMultiNode_multiNodeInit (fun _ _ _ => 0) 0xE1000001 0x0A000001 5000
  obtain ⟨argv, hne, hparse⟩ : ∃ argv, argv ≠ [] ∧
      parseArgs argv = .ok (.add ⟨5000, 0x0A000001, 0xE1000001⟩) :=
    ⟨CommandLine.words "-A -i 10.0.0.1 -p 5000 -m 225.0.0.1".toList, by decide, rfl⟩
  have hcfg : multiGrpAddToConfig (multiGrpConfigInit none) ⟨5000, 0x0A000001, 0xE1000001⟩ =
      (0, some [⟨ip2str 0x0A000001, ip2str 0xE1000001, 5000⟩]) := rfl
  have hrun : multicAdmin (fun _ _ _ => 0) argv none multiNodeInit =
      .ret (0, some [⟨ip2str 0x0A000001, ip2str 0xE1000001, 5000⟩], s) := by
    simp only [multicAdmin, hne, hparse, Command.run, tmccNlServiceAdd, hcfg, tmccRcvSkb, hs]
    rfl
  refine ⟨_, s, ?_, (config_and_kernel_agree (.step .init hrun)).1⟩
  rw [lookupIpPortNode_eq, hentry]
  rfl

end MulticastProxy.KernelClient
