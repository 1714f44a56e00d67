import MulticastProxy.Library.FirstOccurrences
import MulticastProxy.Library.Reload
import MulticastProxy.LinuxServer.Reload
import MulticastProxy.LinuxServer.ReloadRace

/-!
# Linux server proxy: the tool and the running proxy (`main.c`, `entry.c`, `connectInit.c`)

Each `multis_admin` command changes the file and asks the running proxy for a `reload`. The proxy
loads the file at its start, then joins the groups of its list one by one, with the thread that
answers the requests already running.
-/

namespace MulticastProxy.LinuxServer

set_option autoImplicit false

open FirstOccurrences (addUpTo)

/-- What the command writes, `none` where it leaves the file alone. Only `json_clear_list` puts an
array in the place of something else. -/
def Command.writes (file : CfgFile GrpObj) (cmd : Command) : Option (List GrpObj) :=
  match cmd, file with
  | .clear, .unreadable => none
  | .clear, _ => some []
  | .join _ _ _, .notArray => none
  | cmd, file => if (cmd.run file.config).1 = 0 then (cmd.run file.config).2 else none

/-- The call of `CreateNetConnections` in `entry`: the `groupNum` that it was given, the groups that
`g_hSocket` is in, `none` before there is the socket, and the place in its loop. -/
structure Connecting where
  groupNum : Nat
  joined : Option (List UInt32)
  i : Nat

/-- The call has not come to its end. -/
def Connecting.Busy (c : Connecting) : Prop :=
  c.joined = none ∨ c.i < c.groupNum

instance (c : Connecting) : Decidable c.Busy :=
  inferInstanceAs (Decidable (_ ∨ _))

/-- The globals of the proxy and its call of `CreateNetConnections`, `none` before it. -/
structure Process where
  proxy : Proxy
  connecting : Option Connecting

/-- A call with its effect on the socket, which takes `max` groups. Joining a group again or leaving
one that it is not in fails. -/
def Membership.run (max : Nat) (joined : List UInt32) : Membership → List UInt32
  | .add multiaddr => addUpTo max joined multiaddr
  | .drop multiaddr => joined.erase multiaddr

/-- The next part of `CreateNetConnections`: the call, the socket, or one turn of the loop, which
reads `groupIp` as it is by then. -/
def createNetConnections (max : Nat) (sv : Process) : Option Process :=
  match sv.connecting with
  | none => some { sv with connecting := some ⟨sv.proxy.groupNum, none, 0⟩ }
  | some c =>
    match c.joined with
    | none => some { sv with connecting := some { c with joined := some [] } }
    | some joined =>
      if c.i < c.groupNum then
        let ip := sv.proxy.groupIp c.i
        let joined := if isMulticast (htonl ip) then Membership.run max joined (.add ip) else joined
        some { sv with connecting := some { c with joined := some joined, i := c.i + 1 } }
      else none

section
variable (inetAddr : List Char → UInt32)

/-- `entry` up to the creation of the terminal thread. -/
def Entry (file : CfgFile GrpObj) (sv : Process) : Prop :=
  Proxy.cfgInit inetAddr file ⟨multiNodeInit, fun _ => 0, 0⟩ = .ret (0, sv.proxy) ∧
    sv.connecting = none

/-- The `reload` command. Without the socket its calls fail. -/
def Reloads (max : Nat) (file : CfgFile GrpObj) (sv sv' : Process) : Prop :=
  ∃ rt calls, sv.proxy.reload inetAddr file = .ret (rt, sv'.proxy, calls) ∧
    sv'.connecting = sv.connecting.map fun c =>
      { c with joined := c.joined.map (calls.foldl (Membership.run max)) }

/-- The proxy with one `multis_admin` for each command. -/
def system {ι : Type*} (max : Nat) (cmd : ι → Command) :
    Reload.System ι (CfgFile GrpObj) Process where
  update := fun i file => ((cmd i).writes file).map .array
  start := Entry inetAddr
  load := Reloads inetAddr max
  own := fun sv sv' => createNetConnections max sv = some sv'

/-- The multicast addresses of the file's groups. -/
def multicastAddrs (grpArray : List GrpObj) : List UInt32 :=
  (groupAddrs inetAddr grpArray).filter fun ip => isMulticast (htonl ip)

/-- Each group that the file names once is found with its port and members, no other group is
found, and `groupIp` lists the groups of the file. -/
structure Holds (file : CfgFile GrpObj) (p : Proxy) : Prop where
  served : ∀ g r, recordOf inetAddr (file.config.getD []) g = some r → served p.table g = some r
  absent : ∀ g, g ∉ groupAddrs inetAddr (file.config.getD []) → LinuxServer.served p.table g = none
  groups : ∀ grpArray, file.config = some grpArray → p.groups = multicastAddrs inetAddr grpArray

/-- The multicast groups among these addresses, up to the limit of the socket. -/
def firstGroups (max : Nat) (ips : List UInt32) : List UInt32 :=
  (ips.filter fun ip => isMulticast (htonl ip)).eraseDups.take max

/-- The socket is in the groups that the loop has come to, after the loop in all of the list. -/
structure Connecting.Fits (max : Nat) (p : Proxy) (c : Connecting) : Prop where
  busy : c.Busy → c.groupNum = p.groupNum ∧ c.i ≤ c.groupNum ∧
    c.joined.getD [] = firstGroups max (cells p.groupIp c.i)
  done : ¬ c.Busy → c.joined = some (firstGroups max (cells p.groupIp p.groupNum))

/-- No `reload` is under way while the proxy is in `CreateNetConnections`. One that was would leave
and join groups behind the loop's back, and the loop would take the cells of the new list up to the
`groupNum` of the old one. -/
def Apart : Reload.Running (CfgFile GrpObj) Process → Prop
  | .idle _ => True
  | .loading sv _ => ∀ c, sv.connecting = some c → ¬ c.Busy

def Connected (max : Nat) (r : Reload.Running (CfgFile GrpObj) Process) : Prop :=
  Apart r ∧ ∀ c, r.state.connecting = some c → c.Fits max r.state.proxy

end

variable {inetAddr : List Char → UInt32} {max : Nat}

/-! ## The socket -/

theorem foldl_add (max : Nat) (groups : List UInt32) :
    (groups.map .add).foldl (Membership.run max) [] = groups.eraseDups.take max := by
  rw [List.foldl_map]
  have hnil : ([] : List UInt32).length ≤ max := Nat.zero_le max
  have hfold := FirstOccurrences.foldl_addUpTo hnil groups
  rwa [List.nil_append, FirstOccurrences.fresh_of_nil] at hfold

/-- Leaving the groups of the list that was joined. -/
theorem foldl_drop (max : Nat) (groups : List UInt32) :
    (groups.map .drop).foldl (Membership.run max) (groups.eraseDups.take max) = [] := by
  rw [List.foldl_map]
  have hfold : groups.foldl (fun joined ip => Membership.run max joined (.drop ip))
      (groups.eraseDups.take max) = (groups.eraseDups.take max).diff groups :=
    (List.diff_eq_foldl _ _).symm
  rw [hfold, List.eq_nil_iff_forall_not_mem]
  intro ip hip
  have hnodup := (FirstOccurrences.nodup_eraseDups groups).sublist (List.take_sublist max _)
  obtain ⟨htake, hnot⟩ := hnodup.mem_sdiff_iff.mp hip
  exact hnot (List.mem_eraseDups.mp (List.mem_of_mem_take htake))

/-- One more address in front of the loop. -/
theorem firstGroups_concat (max : Nat) (ips : List UInt32) (ip : UInt32) :
    firstGroups max (ips ++ [ip]) =
      if isMulticast (htonl ip) then Membership.run max (firstGroups max ips) (.add ip)
      else firstGroups max ips := by
  unfold firstGroups
  rw [List.filter_append]
  by_cases hip : isMulticast (htonl ip) = true
  · have hone : [ip].filter (fun ip => isMulticast (htonl ip)) = [ip] := by simp [hip]
    rw [if_pos hip, hone, ← foldl_add, ← foldl_add, List.map_append, List.foldl_append]
    rfl
  · have hnone : [ip].filter (fun ip => isMulticast (htonl ip)) = [] := by simp [hip]
    rw [if_neg hip, hnone, List.append_nil]

theorem Connecting.Fits.next {sv sv' : Process}
    (hfits : ∀ c, sv.connecting = some c → c.Fits max sv.proxy)
    (hown : createNetConnections max sv = some sv') :
    ∀ c, sv'.connecting = some c → c.Fits max sv'.proxy := by
  unfold createNetConnections at hown
  split at hown
  next =>
    obtain rfl := Option.some.inj hown
    intro c hc
    obtain rfl := Option.some.inj hc
    refine ⟨fun _ => ⟨rfl, Nat.zero_le _, ?_⟩, fun hdone => absurd (.inl rfl) hdone⟩
    rw [cells_zero]
    simp [firstGroups]
  next c₀ hc₀ =>
    have hfits₀ := hfits c₀ hc₀
    split at hown
    next hnone =>
      obtain rfl := Option.some.inj hown
      intro c hc
      obtain rfl := Option.some.inj hc
      obtain ⟨hnum, hi, hjoined⟩ := hfits₀.busy (.inl hnone)
      rw [hnone] at hjoined
      refine ⟨fun _ => ⟨hnum, hi, hjoined⟩, fun hdone => ?_⟩
      have hall : c₀.i = sv.proxy.groupNum := by
        have hnot : ¬ c₀.i < c₀.groupNum := fun hlt => hdone (.inr hlt)
        omega
      rw [← hall, ← hjoined]
      rfl
    next joined hsome =>
      split at hown
      next hlt =>
        obtain rfl := Option.some.inj hown
        intro c hc
        obtain rfl := Option.some.inj hc
        obtain ⟨hnum, hi, hjoined⟩ := hfits₀.busy (.inr hlt)
        rw [hsome, Option.getD_some] at hjoined
        have hnext := firstGroups_concat max (cells sv.proxy.groupIp c₀.i) (sv.proxy.groupIp c₀.i)
        rw [← cells_succ, ← hjoined] at hnext
        refine ⟨fun _ => ⟨hnum, hlt, ?_⟩, fun hdone => ?_⟩
        · change Option.getD (some _) [] = _
          rw [Option.getD_some]
          exact hnext.symm
        · have hall : c₀.i + 1 = sv.proxy.groupNum := by
            have hnot : ¬ c₀.i + 1 < c₀.groupNum := fun hlt => hdone (.inr hlt)
            omega
          rw [← hall, hnext]
      next => cases hown

/-! ## A load -/

theorem cells_cfgLoop {rest : List GrpObj} {i : Nat} {groupIpArr arr : Nat → UInt32} {s s' : State}
    (h : cfgLoop inetAddr rest i groupIpArr s = .ret (arr, s')) :
    cells arr (i + rest.length) = cells groupIpArr i ++ groupAddrs inetAddr rest := by
  induction rest generalizing i groupIpArr s with
  | nil =>
    obtain ⟨rfl, _⟩ := Prod.mk.inj (Outcome.ret.inj h)
    rw [groupAddrs, List.map_nil, List.append_nil]
    rfl
  | cons grpObj rest ih =>
    rw [cfgLoop] at h
    split at h
    · obtain ⟨ipListInt, _, h⟩ := Outcome.bind_eq_ret_iff.mp h
      obtain ⟨⟨code, t⟩, _, h⟩ := Outcome.bind_eq_ret_iff.mp h
      have hcells := ih h
      rw [cells_update_self, List.append_assoc] at hcells
      rw [List.length_cons, Nat.add_comm rest.length, ← Nat.add_assoc, hcells]
      rfl
    · cases h

theorem holds_of_cfgInit {file : CfgFile GrpObj} {groupIp : Nat → UInt32} {groupNum : Nat}
    {rt : Int} {p : Proxy}
    (h : Proxy.cfgInit inetAddr file ⟨multiNodeInit, groupIp, groupNum⟩ = .ret (rt, p)) :
    Holds inetAddr file p := by
  obtain ⟨⟨rt', num, arr, s⟩, hinit, hret⟩ := Outcome.bind_eq_ret_iff.mp h
  obtain ⟨rfl, rfl⟩ := Prod.mk.inj (Outcome.ret.inj hret)
  have hloaded : PrefixLoaded inetAddr (file.config.getD []) s := by
    cases hconfig : file.config with
    | none =>
      rw [hconfig] at hinit
      obtain ⟨_, _, _, rfl⟩ : _ ∧ _ ∧ _ ∧ multiNodeInit = s := by simpa [cfgInit] using hinit
      exact prefixLoaded_nil
    | some grpArray =>
      rw [hconfig] at hinit
      exact PrefixLoaded.of_cfgInit hinit
  refine ⟨hloaded.served, ?_, ?_⟩
  · intro g hg
    exact served_of_absent (hloaded.absent g hg)
  · intro grpArray hconfig
    rw [hconfig] at hinit
    obtain ⟨⟨arr', t⟩, hloop, hret⟩ := Outcome.bind_eq_ret_iff.mp hinit
    obtain ⟨_, rfl, rfl, _⟩ := by simpa using hret
    have hcells := cells_cfgLoop hloop
    rw [Nat.zero_add, cells_zero, List.nil_append] at hcells
    rw [Proxy.groups, hcells]
    rfl

theorem Reloads.holds {file : CfgFile GrpObj} {sv sv' : Process}
    (h : Reloads inetAddr max file sv sv') : Holds inetAddr file sv'.proxy := by
  obtain ⟨rt, calls, hreload, _⟩ := h
  obtain ⟨⟨rt', p⟩, hinit, hret⟩ := Outcome.bind_eq_ret_iff.mp hreload
  obtain ⟨_, rfl, _⟩ := by simpa using hret
  exact holds_of_cfgInit hinit

/-- A reload leaves all groups before it joins those of the new list. -/
theorem Reloads.fits {file : CfgFile GrpObj} {sv sv' : Process}
    (h : Reloads inetAddr max file sv sv')
    (hold : ∀ c, sv.connecting = some c → ¬ c.Busy ∧ c.Fits max sv.proxy) :
    ∀ c, sv'.connecting = some c → c.Fits max sv'.proxy := by
  obtain ⟨rt, calls, hreload, hconnecting⟩ := h
  obtain ⟨⟨rt', p⟩, _, hret⟩ := Outcome.bind_eq_ret_iff.mp hreload
  obtain ⟨_, rfl, rfl⟩ := by simpa using hret
  intro c' hc'
  rw [hconnecting] at hc'
  obtain ⟨c, hc, rfl⟩ := Option.map_eq_some_iff.mp hc'
  obtain ⟨hdone, hfits⟩ := hold c hc
  have hjoined := hfits.done hdone
  constructor
  · intro hbusy
    obtain hnone | hlt := hbusy
    · simp [hjoined] at hnone
    · exact absurd (.inr hlt) hdone
  · intro _
    have hdrop := foldl_drop max sv.proxy.groups
    have hadd := foldl_add max sv'.proxy.groups
    unfold Proxy.groups at hdrop hadd
    simp only [hjoined, Option.map_some, List.foldl_append, firstGroups, Proxy.groups, hdrop, hadd]

theorem Proxy.cfgInit_returns {grpArray : List GrpObj}
    (hdist : (groupAddrs inetAddr grpArray).Nodup) (hfits : Fits 0 grpArray)
    (groupIp : Nat → UInt32) (groupNum : Nat) :
    ∃ p, Proxy.cfgInit inetAddr (.array grpArray) ⟨multiNodeInit, groupIp, groupNum⟩ =
      .ret (0, p) ∧ p.groupNum = grpArray.length := by
  obtain ⟨arr, s, hinit, _⟩ := cfgInit_ret hdist hfits groupIp groupNum
  refine ⟨⟨s, arr, grpArray.length⟩, ?_, rfl⟩
  rw [Proxy.cfgInit, CfgFile.config, hinit]
  rfl

theorem exists_entry {grpArray : List GrpObj} (hdist : (groupAddrs inetAddr grpArray).Nodup)
    (hfits : Fits 0 grpArray) :
    ∃ p, Entry inetAddr (.array grpArray) ⟨p, none⟩ ∧ p.groupNum = grpArray.length := by
  obtain ⟨p, hp, hnum⟩ := Proxy.cfgInit_returns hdist hfits (fun _ => 0) 0
  exact ⟨p, ⟨hp, rfl⟩, hnum⟩

theorem exists_reloads {grpArray : List GrpObj} (hdist : (groupAddrs inetAddr grpArray).Nodup)
    (hfits : Fits 0 grpArray) (max : Nat) (sv : Process) :
    ∃ sv', Reloads inetAddr max (.array grpArray) sv sv' := by
  obtain ⟨p, hp, _⟩ := Proxy.cfgInit_returns hdist hfits sv.proxy.groupIp sv.proxy.groupNum
  refine ⟨⟨p, _⟩, 0, sv.proxy.groups.map .drop ++ p.groups.map .add, ?_, rfl⟩
  rw [Proxy.reload, hp]
  rfl

theorem createNetConnections_proxy {sv sv' : Process}
    (h : createNetConnections max sv = some sv') : sv'.proxy = sv.proxy := by
  unfold createNetConnections at h
  split at h
  · obtain rfl := Option.some.inj h
    rfl
  · split at h
    · obtain rfl := Option.some.inj h
      rfl
    · split at h
      · obtain rfl := Option.some.inj h
        rfl
      · cases h

section
variable {ι : Type*} (cmd : ι → Command)

theorem keeps_system :
    Reload.Keeps (system inetAddr max cmd) fun file sv => Holds inetAddr file sv.proxy where
  start := fun hstart => holds_of_cfgInit hstart.1
  load := fun hload => hload.holds
  own := by
    intro file sv sv' hown hholds
    rwa [createNetConnections_proxy hown]

theorem stays_system : Reload.Stays (system inetAddr max cmd) Apart (Connected max) where
  start := by
    intro file sv hstart
    refine ⟨trivial, fun c hc => ?_⟩
    rw [Reload.Running.state, hstart.2] at hc
    cases hc
  begin := by
    intro sv content hidle hapart
    exact ⟨hapart, hidle.2⟩
  load := by
    intro sv sv' content hloading hload
    refine ⟨trivial, hload.fits fun c hc => ?_⟩
    exact ⟨hloading.1 c hc, hloading.2 c hc⟩
  own := by
    intro r sv' hr hown hapart
    refine ⟨hapart, ?_⟩
    have hnext := Connecting.Fits.next hr.2 hown
    cases r with
    | idle => exact hnext
    | loading => exact hnext

end

/-! ## Runs -/

section
variable {ι : Type*} [DecidableEq ι] {cmd : ι → Command} {file : CfgFile GrpObj}
  {s : Reload.State ι (CfgFile GrpObj) Process} {sv : Process}

end

/-- The installed file and a third member. -/
def threeMembers : List GrpObj :=
  [⟨"239.1.1.1".toList, 7127, 3456,
    ["2.2.2.2".toList, "3.3.3.3".toList, "4.4.4.4".toList]⟩]

end MulticastProxy.LinuxServer
