import MulticastProxy.Library.Reload
import MulticastProxy.LinuxClient.ConfigMap
import MulticastProxy.LinuxClient.LastWriter
import MulticastProxy.LinuxClient.Load

/-!
# Linux client proxy: the tool and the running proxy (`main.c`, `entry.c`)

Each `multic_admin` command changes the file and asks the running proxy for a `reload`. Entries of
the file with one key of the table overwrite one another there.
-/

namespace MulticastProxy.LinuxClient

set_option autoImplicit false

/-- What the call writes, `none` where it leaves the file alone. -/
def Call.writes (file : CfgFile GrpObj) (call : Call) : Option (List GrpObj) :=
  match call, file with
  | .add _ _ _ _, .notArray => none
  | .add serverip groupport serverport multiIp, file =>
    let grpArray := file.config.getD []
    let other := grpArray.any fun grpObj =>
      grpObj.serverIp ≠ serverip ∨ groupport ≠ grpObj.groupPort
    if other ∨ grpArray.length = 0 then
      (jsonAddGrpNode file.config serverip groupport serverport multiIp).2
    else none
  | call, file => if (call.run file.config).1 = 0 then (call.run file.config).2 else none

section
variable (inetAddr : List Char → UInt32)

/-- One more entry of the file; one with the group that the key has already keeps the port that the
key has. -/
def put (m : Key → Option (UInt32 × UInt16)) (grpObj : GrpObj) : Key → Option (UInt32 × UInt16) :=
  if (m (grpObj.key inetAddr)).map Prod.fst = some (inetAddr grpObj.groupIp) then m
  else Function.update m (grpObj.key inetAddr)
    (some (inetAddr grpObj.groupIp, grpObj.groupPort.toUInt16))

/-- What a file says about each key of the table. -/
def tableOf (grpArray : List GrpObj) : Key → Option (UInt32 × UInt16) :=
  grpArray.foldl (put inetAddr) fun _ => none

/-- `entry` up to the creation of the reload thread; it ends where `cfg_init` fails. -/
def Entry (file : CfgFile GrpObj) (s : State) : Prop :=
  cfgInit inetAddr file.config multiNodeInit = .ret (0, s)

/-- The proxy with one `multic_admin` for each call. -/
def system {ι : Type*} (call : ι → Call) : Reload.System ι (CfgFile GrpObj) State where
  update := fun i file => ((call i).writes file).map .array
  start := Entry inetAddr
  load := fun file s s' => ∃ rt, cfgReload inetAddr file s = .ret (rt, s')
  own := fun _ _ => False

/-- The table is what the file says. -/
def Holds (file : CfgFile GrpObj) (s : State) : Prop :=
  entry s = tableOf inetAddr (file.config.getD [])

end

variable {inetAddr : List Char → UInt32}

theorem put_of_entry {s s' : State} {grpObj : GrpObj} {code : Int} (wf : WellFormed s)
    (hadd : addMultiNode s (inetAddr grpObj.groupIp) grpObj.groupPort.toUInt16
      (inetAddr grpObj.serverIp) grpObj.serverPort.toUInt16 = .ret (code, s')) :
    WellFormed s' ∧ entry s' = put inetAddr (entry s) grpObj := by
  refine ⟨wf.add hadd, ?_⟩
  rcases addMultiNode_cases wf (inetAddr grpObj.groupIp) grpObj.groupPort.toUInt16
    (inetAddr grpObj.serverIp) grpObj.serverPort.toUInt16 with
    ⟨_, he⟩ | ⟨_, port, hentry, he⟩ | ⟨_, hother, t, he, _, hentry⟩ | ⟨_, _, _, he⟩
  · rw [he] at hadd
    cases hadd
  · rw [he] at hadd
    obtain ⟨_, rfl⟩ := Prod.mk.inj (Outcome.ret.inj hadd)
    rw [put, GrpObj.key, hentry, Option.map_some, if_pos rfl]
  · rw [he] at hadd
    obtain ⟨_, rfl⟩ := Prod.mk.inj (Outcome.ret.inj hadd)
    rw [put, if_neg, hentry]
    · rfl
    · intro hsame
      obtain ⟨⟨ip, port⟩, hsome, rfl⟩ := Option.map_eq_some_iff.mp hsame
      exact hother port hsome
  · rw [he] at hadd
    cases hadd

theorem foldl_put_of_cfgLoop {grpArray : List GrpObj} {s s' : State} (wf : WellFormed s)
    (h : cfgLoop inetAddr grpArray s = .ret s') :
    entry s' = grpArray.foldl (put inetAddr) (entry s) := by
  induction grpArray generalizing s with
  | nil =>
    obtain rfl := Outcome.ret.inj h
    rfl
  | cons grpObj grpArray ih =>
    rw [cfgLoop] at h
    obtain ⟨⟨code, t⟩, hadd, hrest⟩ := Outcome.bind_eq_ret_iff.mp h
    obtain ⟨hwf, hentry⟩ := put_of_entry wf hadd
    rw [List.foldl_cons, ← hentry]
    exact ih hwf hrest

theorem holds_of_cfgInit {file : CfgFile GrpObj} {s : State} {rt : Int}
    (h : cfgInit inetAddr file.config multiNodeInit = .ret (rt, s)) : Holds inetAddr file s := by
  have hempty : entry multiNodeInit = fun _ => none := by
    funext k
    exact entry_multiNodeInit k
  cases hconfig : file.config with
  | none =>
    rw [hconfig] at h
    obtain ⟨_, rfl⟩ := Prod.mk.inj (Outcome.ret.inj h)
    rw [Holds, hempty, hconfig]
    rfl
  | some grpArray =>
    rw [hconfig] at h
    obtain ⟨t, hloop, hret⟩ := Outcome.bind_eq_ret_iff.mp h
    obtain ⟨_, rfl⟩ := Prod.mk.inj (Outcome.ret.inj hret)
    have hentry := foldl_put_of_cfgLoop multiNodeInit_wellFormed hloop
    rw [Holds, hentry, hempty, hconfig]
    rfl

theorem keeps_system {ι : Type*} (call : ι → Call) :
    Reload.Keeps (system inetAddr call) (Holds inetAddr) where
  start := by
    intro file s hstart
    exact holds_of_cfgInit hstart
  load := by
    intro file s s' hload
    obtain ⟨rt, hload⟩ := hload
    exact holds_of_cfgInit hload
  own := by
    intro file s s' hown
    exact hown.elim

/-- Any number of commands in any order and overlap, with the proxy started and stopped in between:
once no command is between its reading and its request, no request is open and none has been lost
since the last load, a running proxy finds for each server and port what the file says. -/
theorem found_when_quiet {ι : Type*} [DecidableEq ι] {call : ι → Call} {file : CfgFile GrpObj}
    {s : Reload.State ι (CfgFile GrpObj) State} {table : State}
    (hrun : Relation.ReflTransGen (Reload.Step (system inetAddr call)) (.init file) s)
    (hquiet : s.Quiet) (hserver : s.server = some (.idle table)) (serverIp : UInt32)
    {serverPort : UInt16} (hport : serverPort ≠ 0) :
    ∃ found, lookupIpPortNode table serverIp serverPort = .ret found ∧
      found.map (fun found => (found.1, found.2.1)) =
        tableOf inetAddr (s.file.config.getD []) (serverIp, serverPort) := by
  have hholds := Reload.current_of_quiet (keeps_system call) hrun hquiet hserver
  obtain ⟨found, hret, hentry⟩ := lookupIpPortNode_eq table serverIp hport
  exact ⟨found, hret, hentry.trans (congrFun hholds _)⟩

def oneEntry : List GrpObj := [⟨"10.0.0.1".toList, 7000, 5000, "225.0.0.1".toList⟩]

theorem oneEntry_loadsRight : LoadsRight inetAddrQuad (some oneEntry) := by
  apply Loadable.loadsRight
  refine ⟨by decide, by decide, ?_, ?_⟩
  · intro grpObj hgrpObj grpObj' hgrpObj' _
    rw [List.mem_singleton.mp hgrpObj, List.mem_singleton.mp hgrpObj']
    exact ⟨rfl, rfl⟩
  · intro b
    apply (Finset.card_filter_le _ _).trans
    apply (List.toFinset_card_le _).trans
    decide

/-- The proxy is started with an empty file, and `multic_admin -A -i 10.0.0.1 -s 7000 -g 5000
-m 225.0.0.1` adds an entry. -/
theorem found_when_quiet_add : ∃ (s : Reload.State Unit (CfgFile GrpObj) State) (table : State)
    (index rowId : Nat),
    Relation.ReflTransGen (Reload.Step (system inetAddrQuad fun _ =>
        .add "10.0.0.1".toList 5000 7000 "225.0.0.1".toList)) (.init (.array [])) s ∧
      s.server = some (.idle table) ∧
      lookupIpPortNode table (inetAddrQuad "10.0.0.1".toList) 7000 =
        .ret (some (inetAddrQuad "225.0.0.1".toList, 5000, index, rowId)) := by
  obtain ⟨rt, t, hload, _⟩ := oneEntry_loadsRight
  have hentry : Entry inetAddrQuad (.array []) multiNodeInit := rfl
  have hstart := Relation.ReflTransGen.refl.tail (Reload.Step.start
    (p := system inetAddrQuad fun _ : Unit =>
      .add "10.0.0.1".toList 5000 7000 "225.0.0.1".toList)
    (s := .init (.array [])) rfl hentry)
  have hrun := hstart.trans (Reload.run_of_in (G := fun _ => True)
    (Reload.reloaded_of_idle (i := ()) rfl rfl rfl ⟨rt, hload⟩ trivial trivial trivial))
  have hport : (7000 : UInt16) ≠ 0 := by decide
  obtain ⟨found, hret, hfound⟩ := found_when_quiet hrun ⟨fun _ h => h, rfl, rfl⟩ rfl
    (inetAddrQuad "10.0.0.1".toList) hport
  have htable : tableOf inetAddrQuad oneEntry (inetAddrQuad "10.0.0.1".toList, 7000) =
      some (inetAddrQuad "225.0.0.1".toList, 5000) := by decide
  obtain ⟨⟨ip, port, index, rowId⟩, rfl, hpair⟩ :=
    Option.map_eq_some_iff.mp (hfound.trans htable)
  obtain ⟨rfl, rfl⟩ := Prod.mk.inj hpair
  exact ⟨_, t, index, rowId, hrun, rfl, hret⟩

end MulticastProxy.LinuxClient
