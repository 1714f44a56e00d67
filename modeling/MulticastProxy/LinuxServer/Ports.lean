import MulticastProxy.Library.AssocList
import MulticastProxy.Library.Trace
import MulticastProxy.LinuxServer.Config

/-!
# Linux server proxy: ports in the config file (`server_proxy/config.c`, `server_proxy/main.c`)

A group is recorded with the port of `-p`, or with the default 7126. A join writes its port over
that of a group that is there, and a deletion writes the default over the port of every other group.
-/

namespace MulticastProxy.LinuxServer

set_option autoImplicit false

/-- A command line that updates the file; `port` is what follows `-p`. -/
inductive Request where
  | join (multiIp : List Char) (ipList : List (List Char)) (port : Option UInt32)
  | quit (multiIp : List Char) (ipList : List (List Char))
  | del (multiIp : List Char)
  | clear

/-- `server_port` of `main` is 7126 at the start. -/
def Request.command : Request → Command
  | .join multiIp ipList port => .join multiIp ipList (port.getD 7126)
  | .quit multiIp ipList => .quit multiIp ipList
  | .del multiIp => .del multiIp
  | .clear => .clear

def Request.group : Request → Option (List Char)
  | .join multiIp _ _ => some multiIp
  | .quit multiIp _ => some multiIp
  | .del multiIp => some multiIp
  | .clear => none

/-- The file, and for each group the port that the requests so far have given it. -/
structure Ports where
  cfg : Config
  given : List Char → UInt32

def Ports.Listed (c : Ports) (multiIp : List Char) : Prop :=
  ∃ grpObj ∈ c.cfg.getD [], grpObj.groupIp = multiIp

instance (c : Ports) (multiIp : List Char) : Decidable (c.Listed multiIp) :=
  inferInstanceAs (Decidable (∃ grpObj ∈ c.cfg.getD [], grpObj.groupIp = multiIp))

/-- A join without `-p` gives a port only to a group that it creates. -/
def Ports.latest (c : Ports) : Request → List Char → UInt32
  | .join multiIp _ (some port) => Function.update c.given multiIp port
  | .join multiIp _ none =>
    if c.Listed multiIp then c.given else Function.update c.given multiIp 7126
  | _ => c.given

def Ports.next (c : Ports) (request : Request) : Option Ports :=
  some ⟨(request.command.run c.cfg).2, c.latest request⟩

def Ports.init : Ports := ⟨none, fun _ => 7126⟩

/-- Each group has the port that it was given. -/
def PortsOk (c : Ports) : Prop :=
  ∀ grpObj ∈ c.cfg.getD [], grpObj.serverPort = c.given grpObj.groupIp

/-- The records of the other groups are the same. -/
def OthersKept (cfg cfg' : Config) (multiIp : List Char) : Prop :=
  ∀ grpObj : GrpObj, grpObj.groupIp ≠ multiIp → (grpObj ∈ cfg'.getD [] ↔ grpObj ∈ cfg.getD [])

/-- After the request every port is the one given, and no record has changed but the named
group's. -/
def Retains (c : Ports) (request : Request) : Prop :=
  ∀ c', c.next request = some c' →
    PortsOk c' ∧ ∀ multiIp, request.group = some multiIp → OthersKept c.cfg c'.cfg multiIp

/-- A join without `-p` finds the default at a group that is there, and a deletion at every other
group. -/
def KeepsPorts (c : Ports) : Request → Prop
  | .join multiIp _ none =>
    ∀ grpObj ∈ c.cfg.getD [], grpObj.groupIp = multiIp → grpObj.serverPort = 7126
  | .del multiIp =>
    ∀ grpObj ∈ c.cfg.getD [], grpObj.groupIp ≠ multiIp → grpObj.serverPort = 7126
  | _ => True

/-- One record for each group, as the tool writes it. -/
structure FileOk (c : Ports) : Prop where
  nodup : ((c.cfg.getD []).map fun grpObj => grpObj.groupIp).Nodup
  groupPort : ∀ grpObj ∈ c.cfg.getD [], grpObj.groupPort = 7127
  ports : PortsOk c

/-! ## The functions -/

/-- What a function does that writes the record of one group: `own` says what is in it. -/
structure Writes (cfg cfg' : Config) (multiIp : List Char) (own : GrpObj → Prop) : Prop where
  nodup : ((cfg'.getD []).map fun grpObj => grpObj.groupIp).Nodup
  others : OthersKept cfg cfg' multiIp
  own : ∀ grpObj ∈ cfg'.getD [], grpObj.groupIp = multiIp → own grpObj

section
variable {cfg : Config} (hnd : ((cfg.getD []).map fun grpObj => grpObj.groupIp).Nodup)
variable (multiIp : List Char) (ipList : List (List Char))
include hnd

theorem writes_modify {i : Nat}
    (h : (cfg.getD []).findIdx? (fun grpObj => grpObj.groupIp = multiIp) = some i)
    {f : GrpObj → GrpObj} (hf : ∀ grpObj, (f grpObj).groupIp = grpObj.groupIp) :
    Writes cfg (some ((cfg.getD []).modify i f)) multiIp
      fun grpObj => ∃ old ∈ cfg.getD [], grpObj = f old := by
  have hmap := AssocList.modify_eq_map hnd f h
  rw [hmap]
  have hkey : ∀ grpObj : GrpObj,
      (if grpObj.groupIp = multiIp then f grpObj else grpObj).groupIp = grpObj.groupIp := by
    intro grpObj
    split
    · exact hf grpObj
    · rfl
  refine ⟨?_, fun grpObj hne => ?_, fun grpObj hmem hkeep => ?_⟩
  · rw [Option.getD_some, List.map_map]
    simp only [Function.comp_def, hkey]
    exact hnd
  · rw [Option.getD_some, List.mem_map]
    constructor
    · rintro ⟨old, hold, rfl⟩
      rw [hkey] at hne
      rwa [if_neg hne]
    · intro hmem
      exact ⟨grpObj, hmem, if_neg hne⟩
  · obtain ⟨old, hold, rfl⟩ := List.mem_map.mp hmem
    rw [hkey] at hkeep
    exact ⟨old, hold, if_pos hkeep⟩

theorem jsonAddList_writes (port : UInt32) :
    Writes cfg (jsonAddList cfg multiIp ipList port).2 multiIp fun grpObj =>
      grpObj.serverPort = port ∧
        (grpObj.groupPort = 7127 ∨ ∃ old ∈ cfg.getD [], grpObj.groupPort = old.groupPort) := by
  cases hfind : (cfg.getD []).findIdx? fun grpObj => grpObj.groupIp = multiIp with
  | some i =>
    simp only [jsonAddList, hfind]
    obtain ⟨hnodup, hothers, hown⟩ := writes_modify hnd multiIp hfind
      (f := fun grpObj => { grpObj with
        serverPort := port
        memberArray := grpObj.memberArray ++ newMembers grpObj.memberArray [] ipList })
      fun _ => rfl
    refine ⟨hnodup, hothers, fun grpObj hmem hip => ?_⟩
    obtain ⟨old, hold, rfl⟩ := hown grpObj hmem hip
    exact ⟨rfl, Or.inr ⟨old, hold, rfl⟩⟩
  | none =>
    simp only [jsonAddList, hfind]
    have hnot : ∀ grpObj ∈ cfg.getD [], grpObj.groupIp ≠ multiIp := by
      simpa using List.findIdx?_eq_none_iff.mp hfind
    refine ⟨?_, fun grpObj hne => ?_, fun grpObj hmem hip => ?_⟩
    · rw [Option.getD_some, List.map_append, List.map_singleton, ← List.concat_eq_append]
      apply hnd.concat
      intro hmem
      obtain ⟨old, hold, hip⟩ := List.mem_map.mp hmem
      exact hnot old hold hip
    · rw [Option.getD_some, List.mem_append, List.mem_singleton]
      apply or_iff_left
      rintro rfl
      exact hne rfl
    · rcases List.mem_append.mp hmem with hold | hnew
      · exact absurd hip (hnot grpObj hold)
      · obtain rfl := List.mem_singleton.mp hnew
        exact ⟨rfl, Or.inl rfl⟩

theorem jsonAddList_listed (port : UInt32) :
    ∃ grpObj ∈ (jsonAddList cfg multiIp ipList port).2.getD [], grpObj.groupIp = multiIp := by
  cases hfind : (cfg.getD []).findIdx? fun grpObj => grpObj.groupIp = multiIp with
  | some i =>
    simp only [jsonAddList, hfind]
    obtain ⟨hi, hat, _⟩ := List.findIdx?_eq_some_iff_getElem.mp hfind
    have hip : ((cfg.getD [])[i]).groupIp = multiIp := by simpa using hat
    rw [Option.getD_some, AssocList.modify_eq_map hnd _ hfind]
    refine ⟨_, List.mem_map_of_mem (List.getElem_mem hi), ?_⟩
    rw [if_pos hip]
    exact hip
  | none =>
    simp only [jsonAddList, hfind]
    exact ⟨_, List.mem_append_right _ (List.mem_singleton_self _), rfl⟩

theorem jsonDelList_writes : Writes cfg (jsonDelList cfg multiIp ipList).2 multiIp fun grpObj =>
    ∃ old ∈ cfg.getD [], old.groupIp = multiIp ∧ grpObj.serverPort = old.serverPort ∧
      grpObj.groupPort = old.groupPort := by
  have hself : Writes cfg cfg multiIp fun grpObj => ∃ old ∈ cfg.getD [], old.groupIp = multiIp ∧
      grpObj.serverPort = old.serverPort ∧ grpObj.groupPort = old.groupPort :=
    ⟨hnd, fun _ _ => Iff.rfl, fun grpObj hmem hip => ⟨grpObj, hmem, hip, rfl, rfl⟩⟩
  cases cfg with
  | none => exact hself
  | some grpArray =>
    cases hfind : grpArray.findIdx? fun grpObj => grpObj.groupIp = multiIp with
    | none =>
      simp only [jsonDelList, hfind]
      exact hself
    | some i =>
      simp only [jsonDelList, hfind]
      obtain ⟨hnodup, hothers, hown⟩ := writes_modify hnd multiIp hfind
        (f := fun grpObj => { grpObj with
          memberArray := grpObj.memberArray.filter (· ∉ ipList) }) fun _ => rfl
      refine ⟨hnodup, hothers, fun grpObj hmem hip => ?_⟩
      obtain ⟨old, hold, rfl⟩ := hown grpObj hmem hip
      exact ⟨old, hold, hip, rfl, rfl⟩

omit hnd in
theorem mem_jsonDelMulticast (grpObj : GrpObj) :
    grpObj ∈ (jsonDelMulticast cfg multiIp).2.getD [] ↔
      ∃ old ∈ cfg.getD [], old.groupIp ≠ multiIp ∧
        ⟨old.groupIp, 7127, 7126, old.memberArray⟩ = grpObj := by
  cases cfg with
  | none => simp [jsonDelMulticast]
  | some grpArray => simp [jsonDelMulticast, and_assoc]

theorem jsonDelMulticast_nodup :
    (((jsonDelMulticast cfg multiIp).2.getD []).map fun grpObj => grpObj.groupIp).Nodup := by
  cases cfg with
  | none => exact hnd
  | some grpArray =>
    simp only [jsonDelMulticast, Option.getD_some, List.map_map, Function.comp_def]
    exact hnd.sublist (List.filter_sublist.map _)

omit hnd in
theorem jsonClearList_getD (cfg : Config) : (jsonClearList cfg).2.getD [] = [] := by
  cases cfg with
  | none => rfl
  | some grpArray => rfl

end

/-! ## One request -/

theorem Ports.latest_of_ne (c : Ports) {request : Request} {multiIp ip : List Char}
    (hgroup : request.group = some multiIp) (hne : ip ≠ multiIp) :
    c.latest request ip = c.given ip := by
  cases request with
  | join g ipList port =>
    obtain rfl := Option.some.inj hgroup
    cases port with
    | some port => exact Function.update_of_ne hne _ _
    | none =>
      simp only [Ports.latest]
      split
      · rfl
      · exact Function.update_of_ne hne _ _
  | quit => rfl
  | del => rfl
  | clear => rfl

/-- Where one record is written, the ports are right exactly if its port is. -/
theorem Writes.portsOk_iff {c c' : Ports} {multiIp : List Char} {own : GrpObj → Prop}
    {port : UInt32} (w : Writes c.cfg c'.cfg multiIp own) (h : PortsOk c)
    (hown : ∀ grpObj, own grpObj → grpObj.serverPort = port)
    (hgiven : ∀ ip ≠ multiIp, c'.given ip = c.given ip) :
    PortsOk c' ↔ ((∃ grpObj ∈ c'.cfg.getD [], grpObj.groupIp = multiIp) →
      port = c'.given multiIp) := by
  constructor
  · rintro hports ⟨grpObj, hmem, rfl⟩
    rw [← hports grpObj hmem, hown grpObj (w.own grpObj hmem rfl)]
  · intro hport grpObj hmem
    by_cases hip : grpObj.groupIp = multiIp
    · rw [hown grpObj (w.own grpObj hmem hip), hip]
      exact hport ⟨grpObj, hmem, hip⟩
    · rw [hgiven _ hip]
      exact h grpObj ((w.others grpObj hip).mp hmem)

/-- A request leaves one record for each group, with the port 7127 as `group_port`. -/
theorem FileOk.next_shape {c c' : Ports} (h : FileOk c) {request : Request}
    (hnext : c.next request = some c') :
    ((c'.cfg.getD []).map fun grpObj => grpObj.groupIp).Nodup ∧
      ∀ grpObj ∈ c'.cfg.getD [], grpObj.groupPort = 7127 := by
  obtain rfl := Option.some.inj hnext
  cases request with
  | join multiIp ipList port =>
    obtain ⟨hnodup, hothers, hown⟩ :=
      jsonAddList_writes h.nodup multiIp ipList (port.getD 7126)
    refine ⟨hnodup, fun grpObj hmem => ?_⟩
    by_cases hip : grpObj.groupIp = multiIp
    · obtain ⟨_, hport | ⟨old, hold, hport⟩⟩ := hown grpObj hmem hip
      · exact hport
      · rw [hport, h.groupPort old hold]
    · exact h.groupPort grpObj ((hothers grpObj hip).mp hmem)
  | quit multiIp ipList =>
    obtain ⟨hnodup, hothers, hown⟩ := jsonDelList_writes h.nodup multiIp ipList
    refine ⟨hnodup, fun grpObj hmem => ?_⟩
    by_cases hip : grpObj.groupIp = multiIp
    · obtain ⟨old, hold, _, _, hport⟩ := hown grpObj hmem hip
      rw [hport, h.groupPort old hold]
    · exact h.groupPort grpObj ((hothers grpObj hip).mp hmem)
  | del multiIp =>
    refine ⟨jsonDelMulticast_nodup h.nodup multiIp, fun grpObj hmem => ?_⟩
    obtain ⟨old, _, _, rfl⟩ := (mem_jsonDelMulticast multiIp grpObj).mp hmem
    rfl
  | clear =>
    have hempty : (Request.clear.command.run c.cfg).2.getD [] = [] := jsonClearList_getD c.cfg
    simp only [hempty]
    exact ⟨List.nodup_nil, by simp⟩

theorem FileOk.join_retains {c : Ports} (h : FileOk c) (multiIp : List Char)
    (ipList : List (List Char)) (port : Option UInt32) :
    Retains c (.join multiIp ipList port) ↔ KeepsPorts c (.join multiIp ipList port) := by
  have hwrites := jsonAddList_writes h.nodup multiIp ipList (port.getD 7126)
  have hlisted := jsonAddList_listed h.nodup multiIp ipList (port.getD 7126)
  have hgiven : ∀ ip ≠ multiIp, c.latest (.join multiIp ipList port) ip = c.given ip :=
    fun ip hne => c.latest_of_ne rfl hne
  have hports : PortsOk ⟨(jsonAddList c.cfg multiIp ipList (port.getD 7126)).2,
      c.latest (.join multiIp ipList port)⟩ ↔
        port.getD 7126 = c.latest (.join multiIp ipList port) multiIp := by
    rw [Writes.portsOk_iff hwrites h.ports (fun _ hown => hown.1) hgiven]
    exact forall_prop_of_true hlisted
  have hretains : Retains c (.join multiIp ipList port) ↔
      port.getD 7126 = c.latest (.join multiIp ipList port) multiIp := by
    rw [← hports]
    constructor
    · intro hret
      exact (hret _ rfl).1
    · intro hok c' hnext
      obtain rfl := Option.some.inj hnext
      refine ⟨hok, fun g hg => ?_⟩
      obtain rfl := Option.some.inj hg
      exact hwrites.others
  rw [hretains]
  cases port with
  | some port =>
    have hgiven : c.latest (.join multiIp ipList (some port)) multiIp = port :=
      Function.update_self ..
    exact iff_of_true hgiven.symm trivial
  | none =>
    simp only [Ports.latest, KeepsPorts, Option.getD_none]
    by_cases hold : c.Listed multiIp
    · rw [if_pos hold]
      obtain ⟨old, hmem, rfl⟩ := hold
      constructor
      · intro hgiven grpObj hgrp hip
        rw [h.ports grpObj hgrp, hip, hgiven]
      · intro hdefault
        rw [← h.ports old hmem, hdefault old hmem rfl]
    · rw [if_neg hold, Function.update_self]
      apply iff_of_true rfl
      intro grpObj hgrp hip
      exact absurd ⟨grpObj, hgrp, hip⟩ hold

theorem FileOk.quit_retains {c : Ports} (h : FileOk c) (multiIp : List Char)
    (ipList : List (List Char)) : Retains c (.quit multiIp ipList) := by
  intro c' hnext
  obtain rfl := Option.some.inj hnext
  obtain ⟨_, hothers, hown⟩ := jsonDelList_writes h.nodup multiIp ipList
  refine ⟨fun grpObj hmem => ?_, fun g hg => ?_⟩
  · by_cases hip : grpObj.groupIp = multiIp
    · obtain ⟨old, hold, hsame, hport, _⟩ := hown grpObj hmem hip
      rw [hport, h.ports old hold, hsame, hip]
      rfl
    · exact h.ports grpObj ((hothers grpObj hip).mp hmem)
  · obtain rfl := Option.some.inj hg
    exact hothers

theorem FileOk.del_retains {c : Ports} (h : FileOk c) (multiIp : List Char) :
    Retains c (.del multiIp) ↔ KeepsPorts c (.del multiIp) := by
  constructor
  · intro hret grpObj hmem hne
    have hnew := (hret _ rfl).1 ⟨grpObj.groupIp, 7127, 7126, grpObj.memberArray⟩
      ((mem_jsonDelMulticast multiIp _).mpr ⟨grpObj, hmem, hne, rfl⟩)
    rw [h.ports grpObj hmem]
    exact hnew.symm
  · intro hkeep c' hnext
    obtain rfl := Option.some.inj hnext
    -- the record written anew is the old one
    have hsame : ∀ old ∈ c.cfg.getD [], old.groupIp ≠ multiIp →
        (⟨old.groupIp, 7127, 7126, old.memberArray⟩ : GrpObj) = old := by
      intro old hold hne
      rw [← h.groupPort old hold, ← hkeep old hold hne]
    have hmem : ∀ grpObj, grpObj ∈ (jsonDelMulticast c.cfg multiIp).2.getD [] ↔
        grpObj ∈ c.cfg.getD [] ∧ grpObj.groupIp ≠ multiIp := by
      intro grpObj
      rw [mem_jsonDelMulticast]
      constructor
      · rintro ⟨old, hold, hne, rfl⟩
        exact ⟨(hsame old hold hne).symm ▸ hold, hne⟩
      · rintro ⟨hold, hne⟩
        exact ⟨grpObj, hold, hne, hsame grpObj hold hne⟩
    refine ⟨fun grpObj hnew => ?_, fun g hg grpObj hne => ?_⟩
    · exact h.ports grpObj ((hmem grpObj).mp hnew).1
    · obtain rfl := Option.some.inj hg
      exact (hmem grpObj).trans (and_iff_left hne)

theorem FileOk.retains_iff {c : Ports} (h : FileOk c) (request : Request) :
    Retains c request ↔ KeepsPorts c request := by
  cases request with
  | join multiIp ipList port => exact h.join_retains multiIp ipList port
  | quit multiIp ipList => exact iff_of_true (h.quit_retains multiIp ipList) trivial
  | del multiIp => exact h.del_retains multiIp
  | clear =>
    refine iff_of_true (fun c' hnext => ⟨fun grpObj hmem => ?_, fun g hg => ?_⟩) trivial
    · obtain rfl := Option.some.inj hnext
      have hempty : grpObj ∈ ([] : List GrpObj) := jsonClearList_getD c.cfg ▸ hmem
      simp at hempty
    · cases hg

/-! ## Runs -/

/-- 225.0.0.1 and 225.0.0.2 are made with port 7000, then 225.0.0.1 is deleted. -/
def joinsAndDelete : List Request :=
  [.join (ip2str 0xE1000001) ["10.0.0.1".toList] (some 7000),
    .join (ip2str 0xE1000002) ["10.0.0.1".toList] (some 7000),
    .del (ip2str 0xE1000001)]

theorem joinsAndDelete_valid : ∀ request ∈ joinsAndDelete, request.command.Valid := by
  have hip : MultiIpOk (ip2str 0xE1000001) ∧ MultiIpOk (ip2str 0xE1000002) :=
    ⟨⟨_, parseIpBe_ip2str _, by decide⟩, ⟨_, parseIpBe_ip2str _, by decide⟩⟩
  intro request hmem
  simp only [joinsAndDelete, List.mem_cons, List.not_mem_nil, or_false] at hmem
  rcases hmem with rfl | rfl | rfl
  · exact ⟨hip.1, by decide, by decide⟩
  · exact ⟨hip.2, by decide, by decide⟩
  · exact hip.1

/-- The deletion writes 7126 over the port of 225.0.0.2. -/
theorem not_ports_retained : ¬ ∀ requests : List Request,
    (∀ request ∈ requests, request.command.Valid) →
      Trace.EachStep Ports.next Retains .init requests := by
  intro h
  have hdel := (((h joinsAndDelete joinsAndDelete_valid _ rfl).2 _ rfl).2 _ rfl).1 _ rfl
  let first := (jsonAddList none (ip2str 0xE1000001) ["10.0.0.1".toList] 7000).2
  have hnd : ((first.getD []).map fun grpObj => grpObj.groupIp).Nodup := by
    simp [first, jsonAddList]
  obtain ⟨grpObj, hmem, hip⟩ :=
    jsonAddList_listed hnd (ip2str 0xE1000002) ["10.0.0.1".toList] 7000
  have hne : grpObj.groupIp ≠ ip2str 0xE1000001 := by
    rw [hip, Ne, ip2str_inj]
    decide
  have hport := hdel.1 _ ((mem_jsonDelMulticast _ _).mpr ⟨grpObj, hmem, hne, rfl⟩)
  rw [hip] at hport
  simp only [Ports.latest, Function.update_self] at hport
  cases hport

theorem installed_fileOk : FileOk ⟨some installed, fun _ => 3456⟩ where
  nodup := by simp [installed]
  groupPort := by simp [installed]
  ports := by simp [installed, PortsOk]

/-- Over every sequence of requests the ports are kept exactly if no join without `-p` and no
deletion meets another port than the default. -/
theorem ports_retained_iff {c : Ports} (h : FileOk c) (requests : List Request) :
    Trace.EachStep Ports.next Retains c requests ↔
      Trace.EachStep Ports.next KeepsPorts c requests := by
  apply Trace.eachStep_congr (I := FileOk)
  · intro c request c' h hnext hret
    obtain ⟨hnodup, hport⟩ := h.next_shape hnext
    exact ⟨hnodup, hport, (hret c' hnext).1⟩
  · exact fun c request _ h _ => h.retains_iff request
  · exact h

theorem ports_retained_installed :
    Trace.EachStep Ports.next Retains ⟨some installed, fun _ => 3456⟩
      [.join "239.1.1.1".toList ["4.4.4.4".toList] (some 7000), .clear] := by
  rw [ports_retained_iff installed_fileOk]
  exact fun _ _ => ⟨trivial, fun _ _ => ⟨trivial, trivial⟩⟩

end MulticastProxy.LinuxServer
