import MulticastProxy.KernelClient.Sync
import MulticastProxy.Library.Replay

/-!
# Kernel client: config file and module under many processes

The file is updated under its lock and the module acts on one message at a time. Between the two
halves of one process, and before it takes back what the module refuses, other processes run.
-/

namespace MulticastProxy.KernelClient

set_option autoImplicit false

open Replay

/-- The message of a command that changes the entries. -/
def Command.message : Command → Option NlMessage
  | .add service => some (.serviceAdd service)
  | .del service => some (.serviceDel service)
  | .clear => some .clientClear
  | .print _ _ => none

namespace NlMessage

/-- The update of the file. `multi_nl_client_clear` goes on whatever its update returns. -/
def edit (cfg : Config) : NlMessage → Int × Config
  | .serviceAdd service => multiGrpAddToConfig cfg service
  | .serviceDel service => multiGrpDelFromConfig cfg service
  | .clientClear => (0, (multiClientClearConfig cfg).2)

/-- What is done to the file where the exchange with the module fails. -/
def undo (cfg : Config) : NlMessage → Config
  | .serviceAdd service => (multiGrpDelFromConfig cfg service).2
  | .serviceDel service => (multiGrpAddToConfig cfg service).2
  | .clientClear => cfg

/-- What a message is about, as a change of the map from server and port to group. -/
def apply : NlMessage → (Key → Option UInt32) → Key → Option UInt32
  | .serviceAdd service, m =>
    Function.update m (service.serverIp, service.port) (some service.multiIp)
  | .serviceDel service, m => Function.update m (service.serverIp, service.port) none
  | .clientClear, _ => fun _ => none

def Touches : NlMessage → Key → Prop
  | .serviceAdd service, k => k = (service.serverIp, service.port)
  | .serviceDel service, k => k = (service.serverIp, service.port)
  | .clientClear, _ => True

def Conflict (msg msg' : NlMessage) : Prop := ∃ k, msg.Touches k ∧ msg'.Touches k

end NlMessage

/-- The two stores and the processes under way: those that have read their arguments, those that
have updated the file and not sent their message, in the order of the updates, and those that are to
take their update back. -/
structure Parties where
  cfg : Config
  kernel : State
  starting : List NlMessage
  pending : List NlMessage
  undoing : List NlMessage

namespace Parties

def init : Parties := ⟨none, multiNodeInit, [], [], []⟩

/-- What there is to know about a step: an update of the file; a message, those before and behind it
in the order of the updates, whether the module has acted on it and whether its process is told so;
a file left as it is because there is no lock. -/
inductive Event where
  | quiet
  | update (msg : NlMessage)
  | send (before : List NlMessage) (msg : NlMessage) (after : List NlMessage) (acted told : Bool)
  | noLock

section
variable (jhash2words : UInt32 → UInt32 → UInt32 → UInt32)

/-- A step of one process, whichever it is. Where no answer comes the process has -1, as where a
call for the socket fails. -/
inductive Step : Parties → Event → Parties → Prop where
  | start {p : Parties} {argv : List CommandLine.Word} {cmd : Command} {msg : NlMessage} :
      parseArgs argv = .ok cmd → cmd.message = some msg →
      Step p .quiet { p with
        cfg := multiGrpConfigInit p.cfg
        starting := p.starting ++ [msg] }
  | other {p : Parties} : Step p .quiet { p with cfg := multiGrpConfigInit p.cfg }
  | update {p : Parties} (before : List NlMessage) {msg : NlMessage} (after : List NlMessage)
      {cfg : Config} :
      p.starting = before ++ msg :: after → msg.edit p.cfg = (0, cfg) →
      Step p (.update msg) { p with
        cfg
        starting := before ++ after
        pending := p.pending ++ [msg] }
  | fail {p : Parties} (before : List NlMessage) {msg : NlMessage} (after : List NlMessage)
      {ret : Int} {cfg : Config} :
      p.starting = before ++ msg :: after → msg.edit p.cfg = (ret, cfg) → ret ≠ 0 →
      Step p .quiet { p with
        cfg
        starting := before ++ after }
  | noLock {p : Parties} (before : List NlMessage) {msg : NlMessage} (after : List NlMessage) :
      p.starting = before ++ msg :: after → msg ≠ .clientClear →
      Step p .quiet { p with starting := before ++ after }
  | clearNoLock {p : Parties} (before after : List NlMessage) :
      p.starting = before ++ .clientClear :: after →
      Step p .noLock { p with
        starting := before ++ after
        pending := p.pending ++ [.clientClear] }
  | send {p : Parties} (before : List NlMessage) {msg : NlMessage} (after : List NlMessage)
      {code answer : Int} {kernel : State} :
      p.pending = before ++ msg :: after →
      tmccRcvSkb jhash2words p.kernel msg = .ret (code, kernel) → answer = code ∨ answer = -1 →
      Step p (.send before msg after (code = 0) (answer = 0)) { p with
        kernel
        pending := before ++ after
        undoing := if answer = 0 then p.undoing else p.undoing ++ [msg] }
  | lost {p : Parties} (before : List NlMessage) {msg : NlMessage} (after : List NlMessage) :
      p.pending = before ++ msg :: after →
      Step p (.send before msg after false false) { p with
        pending := before ++ after
        undoing := p.undoing ++ [msg] }
  | undo {p : Parties} (before : List NlMessage) {msg : NlMessage} (after : List NlMessage) :
      p.undoing = before ++ msg :: after →
      Step p .quiet { p with
        cfg := msg.undo p.cfg
        undoing := before ++ after }
  | undoNoLock {p : Parties} (before : List NlMessage) {msg : NlMessage} (after : List NlMessage) :
      p.undoing = before ++ msg :: after →
      Step p .noLock { p with undoing := before ++ after }

/-- A message that the module acts on overtakes none that is about its entry, and its process gets
the answer. What fails is the add of an entry that the module does not have, while no other process
is about it, and none comes to the file before it is taken back. -/
def Fits (p : Parties) : Event → Prop
  | .quiet => True
  | .update msg => ∀ u ∈ p.undoing, ¬ u.Conflict msg
  | .send before msg after acted told =>
    acted = true ∧ told = true ∧ (∀ q ∈ before, ¬ q.Conflict msg) ∨
    acted = false ∧ told = false ∧ (∀ q ∈ before ++ after, ¬ q.Conflict msg) ∧
      ∃ service, msg = .serviceAdd service ∧
        entry jhash2words p.kernel (service.serverIp, service.port) = none
  | .noLock => False

/-- States after any interleaving of any number of processes, each step of which fits. -/
def Run (p : Parties) : Prop :=
  Relation.ReflTransGen (fun p p' => ∃ event, Step jhash2words p event p' ∧
    Fits jhash2words p event) init p

/-- The module is behind the file by the messages under way, and the file ahead by what is to be
taken back. -/
structure Ok (p : Parties) : Prop where
  kernel : WellFormed jhash2words p.kernel
  file : ∃ es : Entries, p.cfg.getD [] = es.map GrpObj.ofEntry ∧ (es.map Prod.fst).Nodup ∧
    AssocList.get es = replay NlMessage.apply p.undoing
      (replay NlMessage.apply p.pending (entry jhash2words p.kernel))
  fresh : ∀ u ∈ p.undoing, ∃ service, u = .serviceAdd service ∧
    entry jhash2words p.kernel (service.serverIp, service.port) = none
  apart : ∀ u ∈ p.undoing, ∀ q ∈ p.pending, ¬ u.Conflict q
  distinct : p.undoing.Pairwise fun u u' => ¬ u.Conflict u'

end

end Parties

/-! ## Messages and their entries -/

variable {jhash2words : UInt32 → UInt32 → UInt32 → UInt32}

theorem NlMessage.local_apply : Local NlMessage.Touches NlMessage.apply where
  frame := by
    intro msg m k hk
    cases msg with
    | serviceAdd service => exact Function.update_of_ne hk _ _
    | serviceDel service => exact Function.update_of_ne hk _ _
    | clientClear => exact absurd trivial hk
  value := by
    intro msg m m' k hm
    cases msg with
    | serviceAdd service =>
      simp only [NlMessage.apply, Function.update_apply, hm]
    | serviceDel service =>
      simp only [NlMessage.apply, Function.update_apply, hm]
    | clientClear => rfl

theorem NlMessage.Conflict.symm {msg msg' : NlMessage} (h : msg.Conflict msg') :
    msg'.Conflict msg := by
  obtain ⟨k, hk, hk'⟩ := h
  exact ⟨k, hk', hk⟩

theorem NlMessage.commute {msg msg' : NlMessage} (h : ¬ msg.Conflict msg') :
    Commute NlMessage.apply msg msg' := NlMessage.local_apply.commute h

/-- The module does what the message says, or nothing. -/
theorem WellFormed.send {s s' : State} (wf : WellFormed jhash2words s) {msg : NlMessage}
    {code : Int} (h : tmccRcvSkb jhash2words s msg = .ret (code, s')) :
    (code = 0 ∧ WellFormed jhash2words s' ∧
      entry jhash2words s' = msg.apply (entry jhash2words s)) ∨ (code ≠ 0 ∧ s' = s) := by
  cases msg with
  | serviceAdd service =>
    rcases addMultiNode_cases wf h with ⟨rfl, hcode⟩ | ⟨rfl, _, hwf, _, hentry⟩
    · rcases hcode with ⟨rfl, _⟩ | ⟨rfl, _⟩
      · exact Or.inr ⟨by decide, rfl⟩
      · exact Or.inr ⟨by decide, rfl⟩
    · exact Or.inl ⟨rfl, hwf, hentry⟩
  | serviceDel service =>
    have hret : delMultiNode jhash2words s service.serverIp service.port = (code, s') :=
      Outcome.ret.inj h
    rcases delMultiNode_cases wf service.serverIp service.port with
      ⟨_, hdel⟩ | ⟨t, hdel, _, hwf, hentry⟩
    · obtain ⟨rfl, rfl⟩ := Prod.mk.inj (hdel.symm.trans hret)
      exact Or.inr ⟨by decide, rfl⟩
    · obtain ⟨rfl, rfl⟩ := Prod.mk.inj (hdel.symm.trans hret)
      exact Or.inl ⟨rfl, hwf, hentry⟩
  | clientClear =>
    obtain ⟨rfl, rfl⟩ := Prod.mk.inj (Outcome.ret.inj h)
    refine Or.inl ⟨rfl, wellFormed_of_free (clearMultiNode_free wf) rfl, ?_⟩
    funext k
    exact entry_of_free (clearMultiNode_free wf) k

/-- Without an array only a CLEAR goes on. -/
theorem edit_none {msg : NlMessage} {ret : Int} {cfg' : Config} (h : msg.edit none = (ret, cfg')) :
    cfg' = none ∧ (ret = 0 → msg = .clientClear) := by
  cases msg with
  | serviceAdd service =>
    obtain ⟨rfl, rfl⟩ := Prod.mk.inj h
    exact ⟨rfl, fun hret => by cases hret⟩
  | serviceDel service =>
    obtain ⟨rfl, rfl⟩ := Prod.mk.inj h
    exact ⟨rfl, fun hret => by cases hret⟩
  | clientClear =>
    obtain ⟨rfl, rfl⟩ := Prod.mk.inj h
    exact ⟨rfl, fun _ => rfl⟩

theorem get_clear : (fun _ : Key => none) = AssocList.get ([] : Entries) := by
  funext k
  exact (AssocList.get_nil k).symm

/-- An update of the file does to its map what the message says, or nothing. -/
theorem edit_get {cfg cfg' : Config} {es : Entries} (hcfg : cfg.getD [] = es.map GrpObj.ofEntry)
    (hnodup : (es.map Prod.fst).Nodup) {msg : NlMessage} {ret : Int}
    (h : msg.edit cfg = (ret, cfg')) :
    ∃ es' : Entries, cfg'.getD [] = es'.map GrpObj.ofEntry ∧ (es'.map Prod.fst).Nodup ∧
      AssocList.get es' = if ret = 0 then msg.apply (AssocList.get es) else AssocList.get es := by
  cases cfg with
  | none =>
    obtain rfl : es = [] := List.map_eq_nil_iff.mp hcfg.symm
    obtain ⟨rfl, hclear⟩ := edit_none h
    refine ⟨[], rfl, List.nodup_nil, ?_⟩
    split
    · rename_i hret
      rw [hclear hret]
      exact get_clear.symm
    · rfl
  | some grpArray =>
    obtain rfl : grpArray = es.map GrpObj.ofEntry := hcfg
    cases msg with
    | serviceAdd service =>
      rcases multiGrpAddToConfig_cases hnodup service with
        ⟨code, hcode, hadd⟩ | ⟨es', hadd, _, hnodup', _, hget⟩
      · obtain ⟨rfl, rfl⟩ := Prod.mk.inj (hadd.symm.trans h)
        exact ⟨es, rfl, hnodup, (if_neg hcode).symm⟩
      · obtain ⟨rfl, rfl⟩ := Prod.mk.inj (hadd.symm.trans h)
        exact ⟨es', rfl, hnodup', hget⟩
    | serviceDel service =>
      rcases multiGrpDelFromConfig_cases hnodup service with
        ⟨_, hdel⟩ | ⟨es', hdel, _, hnodup', hget⟩
      · obtain ⟨rfl, rfl⟩ := Prod.mk.inj (hdel.symm.trans h)
        exact ⟨es, rfl, hnodup, rfl⟩
      · obtain ⟨rfl, rfl⟩ := Prod.mk.inj (hdel.symm.trans h)
        exact ⟨es', rfl, hnodup', hget⟩
    | clientClear =>
      obtain ⟨rfl, rfl⟩ := Prod.mk.inj h
      exact ⟨[], rfl, List.nodup_nil, get_clear.symm⟩

/-- Taking back an add leaves no entry under its key. -/
theorem undo_get {cfg : Config} {es : Entries} (hcfg : cfg.getD [] = es.map GrpObj.ofEntry)
    (hnodup : (es.map Prod.fst).Nodup) (service : TmccNlServiceSt) :
    ∃ es' : Entries, (NlMessage.undo cfg (.serviceAdd service)).getD [] = es'.map GrpObj.ofEntry ∧
      (es'.map Prod.fst).Nodup ∧ AssocList.get es' =
        Function.update (AssocList.get es) (service.serverIp, service.port) none := by
  cases cfg with
  | none =>
    obtain rfl : es = [] := List.map_eq_nil_iff.mp hcfg.symm
    have hnone : AssocList.get ([] : Entries) (service.serverIp, service.port) = none :=
      AssocList.get_nil _
    have hsame : Function.update (AssocList.get ([] : Entries)) (service.serverIp, service.port)
        none = AssocList.get [] := Function.update_eq_self_iff.mpr hnone.symm
    exact ⟨[], rfl, List.nodup_nil, hsame.symm⟩
  | some grpArray =>
    obtain rfl : grpArray = es.map GrpObj.ofEntry := hcfg
    rcases multiGrpDelFromConfig_cases hnodup service with
      ⟨hnone, hdel⟩ | ⟨es', hdel, _, hnodup', hget⟩
    · refine ⟨es, ?_, hnodup, (Function.update_eq_self_iff.mpr hnone.symm).symm⟩
      rw [NlMessage.undo, hdel]
      rfl
    · refine ⟨es', ?_, hnodup', hget⟩
      rw [NlMessage.undo, hdel]
      rfl

/-! ## Steps -/

namespace Parties

theorem init_ok : init.Ok jhash2words where
  kernel := multiNodeInit_wellFormed
  file := by
    refine ⟨[], rfl, List.nodup_nil, ?_⟩
    funext k
    simp [init]
  fresh := by simp [init]
  apart := by simp [init]
  distinct := List.Pairwise.nil

variable {p p' : Parties}

/-- What no step of the exchange touches: the file is as it was, or with an empty array for none. -/
theorem Ok.of_getD (ok : p.Ok jhash2words) (hcfg : p'.cfg.getD [] = p.cfg.getD [])
    (hkernel : p'.kernel = p.kernel) (hpending : p'.pending = p.pending)
    (hundoing : p'.undoing = p.undoing) : p'.Ok jhash2words := by
  obtain ⟨kernel, file, fresh, apart, distinct⟩ := ok
  constructor
  · rwa [hkernel]
  · rwa [hcfg, hkernel, hpending, hundoing]
  · rwa [hkernel, hundoing]
  · rwa [hpending, hundoing]
  · rwa [hundoing]

theorem Ok.update (ok : p.Ok jhash2words) {msg : NlMessage} {cfg : Config}
    (hedit : msg.edit p.cfg = (0, cfg)) (hfits : ∀ u ∈ p.undoing, ¬ u.Conflict msg)
    (starting : List NlMessage) :
    Ok jhash2words { p with cfg, starting, pending := p.pending ++ [msg] } where
  kernel := ok.kernel
  file := by
    obtain ⟨es, hcfg, hnodup, hmaps⟩ := ok.file
    obtain ⟨es', hcfg', hnodup', hget⟩ := edit_get hcfg hnodup hedit
    refine ⟨es', hcfg', hnodup', ?_⟩
    have hcomm : ∀ u ∈ p.undoing, Commute NlMessage.apply u msg :=
      fun u hu => NlMessage.commute (hfits u hu)
    rw [hget, if_pos rfl, hmaps, replay_write, replay_commute hcomm]
  fresh := ok.fresh
  apart := by
    intro u hu q hq
    rcases List.mem_append.mp hq with hq | hq
    · exact ok.apart u hu q hq
    · rw [List.mem_singleton.mp hq]
      exact hfits u hu
  distinct := ok.distinct

section
variable {before after : List NlMessage} {msg : NlMessage}

theorem mem_of_split {l : List NlMessage} (hl : l = before ++ msg :: after) {q : NlMessage}
    (hq : q ∈ before ++ after) : q ∈ l := by
  rw [hl]
  rcases List.mem_append.mp hq with hq | hq
  · exact List.mem_append_left _ hq
  · exact List.mem_append_right _ (List.mem_cons_of_mem _ hq)

theorem Ok.acted (ok : p.Ok jhash2words) (hpending : p.pending = before ++ msg :: after)
    {kernel : State} (hwf : WellFormed jhash2words kernel)
    (hentry : entry jhash2words kernel = msg.apply (entry jhash2words p.kernel))
    (hbefore : ∀ q ∈ before, ¬ q.Conflict msg) :
    Ok jhash2words { p with kernel, pending := before ++ after } := by
  have hmem : msg ∈ p.pending := by simp [hpending]
  constructor
  · exact hwf
  · obtain ⟨es, hcfg, hnodup, hmaps⟩ := ok.file
    refine ⟨es, hcfg, hnodup, ?_⟩
    have hcomm : ∀ q ∈ before, Commute NlMessage.apply q msg :=
      fun q hq => NlMessage.commute (hbefore q hq)
    rw [hmaps, hpending, hentry, replay_deliver hcomm]
  · intro u hu
    obtain ⟨service, rfl, hfresh⟩ := ok.fresh u hu
    refine ⟨service, rfl, ?_⟩
    have huntouched : ¬ msg.Touches (service.serverIp, service.port) :=
      fun htouch => ok.apart _ hu msg hmem ⟨_, rfl, htouch⟩
    rw [hentry, NlMessage.local_apply.frame _ _ _ huntouched, hfresh]
  · intro u hu q hq
    exact ok.apart u hu q (mem_of_split hpending hq)
  · exact ok.distinct

/-- A message that fails is to be taken back, as if it had been sent last. -/
theorem Ok.refused (ok : p.Ok jhash2words) (hpending : p.pending = before ++ msg :: after)
    (halone : ∀ q ∈ before ++ after, ¬ q.Conflict msg) {service : TmccNlServiceSt}
    (hmsg : msg = .serviceAdd service)
    (hnew : entry jhash2words p.kernel (service.serverIp, service.port) = none) :
    Ok jhash2words { p with pending := before ++ after, undoing := p.undoing ++ [msg] } := by
  have hmem : msg ∈ p.pending := by simp [hpending]
  constructor
  · exact ok.kernel
  · obtain ⟨es, hcfg, hnodup, hmaps⟩ := ok.file
    refine ⟨es, hcfg, hnodup, ?_⟩
    have hundoing : ∀ u ∈ p.undoing, Commute NlMessage.apply u msg :=
      fun u hu => NlMessage.commute (ok.apart u hu msg hmem)
    have hcomm : ∀ q ∈ before ++ after, Commute NlMessage.apply q msg :=
      fun q hq => NlMessage.commute (halone q hq)
    have hbefore : ∀ q ∈ before, Commute NlMessage.apply q msg :=
      fun q hq => hcomm q (List.mem_append_left _ hq)
    rw [hmaps, hpending, replay_write, ← replay_deliver hbefore, replay_commute hcomm,
      replay_commute hundoing]
  · intro u hu
    rcases List.mem_append.mp hu with hu | hu
    · exact ok.fresh u hu
    · rw [List.mem_singleton.mp hu]
      exact ⟨service, hmsg, hnew⟩
  · intro u hu q hq
    rcases List.mem_append.mp hu with hu | hu
    · exact ok.apart u hu q (mem_of_split hpending hq)
    · rw [List.mem_singleton.mp hu]
      exact fun hconflict => halone q hq hconflict.symm
  · apply List.pairwise_append.mpr
    refine ⟨ok.distinct, List.pairwise_singleton _ _, ?_⟩
    intro u hu u' hu'
    rw [List.mem_singleton.mp hu']
    exact ok.apart u hu msg hmem

theorem Ok.undo (ok : p.Ok jhash2words) (hundoing : p.undoing = before ++ msg :: after) :
    Ok jhash2words { p with cfg := msg.undo p.cfg, undoing := before ++ after } := by
  have hmem : msg ∈ p.undoing := by simp [hundoing]
  obtain ⟨service, rfl, hfresh⟩ := ok.fresh msg hmem
  have hdistinct := ok.distinct
  rw [hundoing] at hdistinct
  have hapart : ∀ u ∈ before ++ after, ¬ u.Conflict (.serviceAdd service) := by
    intro u hu
    obtain ⟨_, hcons, hcross⟩ := List.pairwise_append.mp hdistinct
    rcases List.mem_append.mp hu with hu | hu
    · exact hcross u hu _ List.mem_cons_self
    · exact fun hconflict => (List.pairwise_cons.mp hcons).1 u hu hconflict.symm
  constructor
  · exact ok.kernel
  · obtain ⟨es, hcfg, hnodup, hmaps⟩ := ok.file
    obtain ⟨es', hcfg', hnodup', hget⟩ := undo_get hcfg hnodup service
    refine ⟨es', hcfg', hnodup', ?_⟩
    have hcomm : ∀ u ∈ before, Commute NlMessage.apply u (.serviceAdd service) :=
      fun u hu => NlMessage.commute (hapart u (List.mem_append_left _ hu))
    have hall : ∀ u ∈ before ++ after, Commute NlMessage.apply u (.serviceAdd service) :=
      fun u hu => NlMessage.commute (hapart u hu)
    -- nobody else has written the key, so that without the add there is nothing under it
    have hnone : replay NlMessage.apply (before ++ after) (replay NlMessage.apply p.pending
        (entry jhash2words p.kernel)) (service.serverIp, service.port) = none := by
      rw [NlMessage.local_apply.replay_untouched, NlMessage.local_apply.replay_untouched, hfresh]
      · exact fun q hq htouch => ok.apart _ hmem q hq ⟨_, rfl, htouch⟩
      · exact fun u hu htouch => hapart u hu ⟨_, htouch, rfl⟩
    rw [hget, hmaps, hundoing, ← replay_deliver hcomm, replay_commute hall]
    exact (Function.update_idem _ _ _).trans (Function.update_eq_self_iff.mpr hnone.symm)
  · exact fun u hu => ok.fresh u (mem_of_split hundoing hu)
  · exact fun u hu => ok.apart u (mem_of_split hundoing hu)
  · exact hdistinct.sublist (List.Sublist.append_left (List.sublist_cons_self _ _) _)

end

theorem Ok.step (ok : p.Ok jhash2words) {event : Event} (h : Step jhash2words p event p')
    (hfits : Fits jhash2words p event) : p'.Ok jhash2words := by
  cases h with
  | start _ _ => exact ok.of_getD rfl rfl rfl rfl
  | other => exact ok.of_getD rfl rfl rfl rfl
  | update before after _ hedit => exact ok.update hedit hfits _
  | fail before after _ hedit hret =>
    obtain ⟨es, hcfg, hnodup, hmaps⟩ := ok.file
    obtain ⟨es', hcfg', hnodup', hget⟩ := edit_get hcfg hnodup hedit
    rw [if_neg hret] at hget
    exact ⟨ok.kernel, ⟨es', hcfg', hnodup', hget.trans hmaps⟩, ok.fresh, ok.apart, ok.distinct⟩
  | noLock before after _ _ => exact ok.of_getD rfl rfl rfl rfl
  | clearNoLock before after _ => exact hfits.elim
  | @send before msg after code answer kernel hpending hsend hanswer =>
    rcases ok.kernel.send hsend with ⟨hcode, hwf, hentry⟩ | ⟨hcode, rfl⟩
    · rcases hfits with ⟨_, htold, hbefore⟩ | ⟨hacted, _⟩
      · rw [if_pos (of_decide_eq_true htold)]
        exact ok.acted hpending hwf hentry hbefore
      · exact absurd hcode (of_decide_eq_false hacted)
    · rcases hfits with ⟨hacted, _⟩ | ⟨_, htold, halone, service, hmsg, hnew⟩
      · exact absurd (of_decide_eq_true hacted) hcode
      · rw [if_neg (of_decide_eq_false htold)]
        exact ok.refused hpending halone hmsg hnew
  | lost before after hpending =>
    rcases hfits with ⟨hacted, _⟩ | ⟨_, _, halone, service, hmsg, hnew⟩
    · cases hacted
    · exact ok.refused hpending halone hmsg hnew
  | undo before after hundoing => exact ok.undo hundoing
  | undoNoLock before after _ => exact hfits.elim

theorem Run.ok (h : Run jhash2words p) : p.Ok jhash2words := by
  induction h with
  | refl => exact init_ok
  | tail _ hstep ih =>
    obtain ⟨event, hstep, hfits⟩ := hstep
    exact ih.step hstep hfits

end Parties

end MulticastProxy.KernelClient
