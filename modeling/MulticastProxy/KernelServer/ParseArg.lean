import MulticastProxy.KernelServer.Netlink
import MulticastProxy.Library.CommandLine
import MulticastProxy.Common.Address

/-!
# Kernel server tool: arguments (`tools/multi_server_control/parse_arg.h`, `app_control.c`)

From the words of a `multis_admin` call to the command it runs.
-/

namespace MulticastProxy.KernelServer

set_option autoImplicit false

open CommandLine

def multiRangeNum (arg : List Char) : Nat := arg.count ',' + 1

/-- `num` more addresses from `p1` on; `ipList` are the addresses stored so far. -/
def parseServiceLoop : Nat → List Char → List UInt32 → Except Int (List UInt32)
  | 0, _, ipList => .ok ipList
  | num + 1, p1, ipList =>
    let buf := p1.takeWhile (· ≠ ',')
    if 128 ≤ buf.length then .error multiParamError
    else
      match parseIpBe buf with
      | none => .error multiParamError
      | some ip =>
        let p2 := (p1.dropWhile (· ≠ ',')).drop 1
        -- a multicast member is passed over with a warning, a repeated one without
        if isMulticast ip || ipList.contains ip then parseServiceLoop num p2 ipList
        else parseServiceLoop num p2 (ipList ++ [ip])

def parseService (ipstr : List Char) : Except Int (List UInt32) :=
  if multiVmMax < multiRangeNum ipstr then .error multiVmLagerThanMax
  else parseServiceLoop (multiRangeNum ipstr) ipstr []

inductive AppCmd where
  | add
  | del
  | clear
  | dropStats
  | show
  | list
  deriving DecidableEq, Repr

abbrev optMultiIp : UInt8 := 0x01
abbrev optJoin : UInt8 := 0x04
abbrev optExit : UInt8 := 0x08

def options : Options where
  short := fun ch =>
    if ch ∈ ['A', 'D', 'C', 'P', 'L', 'S', 'H'] then some false
    else if ch ∈ ['m', 'j', 'q'] then some true
    else none
  long := [
    ⟨"add".toList, false, 'A'⟩, ⟨"delete".toList, false, 'D'⟩, ⟨"clear".toList, false, 'C'⟩,
    ⟨"stats".toList, false, 'P'⟩, ⟨"list".toList, false, 'L'⟩, ⟨"show".toList, false, 'S'⟩,
    ⟨"help".toList, false, 'H'⟩, ⟨"multiip".toList, true, 'm'⟩, ⟨"join".toList, true, 'j'⟩,
    ⟨"quit".toList, true, 'q'⟩]

/-- The variables of `main` while it reads its options. -/
structure Args where
  cmd : Option AppCmd
  mask : UInt8
  action : UInt8
  multiIp : UInt32
  ipList : List UInt32

def Args.init : Args := ⟨none, 0, multiOptJoin, 0, []⟩

/-- One round of the `getopt_long` loop; an error carries the exit code. -/
def Args.read (a : Args) : Event → Except Int Args
  | .opt 'A' _ => .ok { a with cmd := some .add }
  | .opt 'D' _ => .ok { a with cmd := some .del }
  | .opt 'C' _ => .ok { a with cmd := some .clear }
  | .opt 'P' _ => .ok { a with cmd := some .dropStats }
  | .opt 'L' _ => .ok { a with cmd := some .list }
  | .opt 'S' _ => .ok { a with cmd := some .show }
  | .opt 'H' _ => .error 0
  | .opt 'm' optarg =>
    if a.mask &&& optMultiIp ≠ 0 then .error (-1)
    else
      match parseIpBe optarg with
      | none => .error (-1)
      -- the check that the address is a multicast one is compiled out
      | some multiIp => .ok { a with mask := a.mask ||| optMultiIp, multiIp }
  | .opt 'j' optarg =>
    if a.mask &&& optJoin ≠ 0 then .error (-1)
    else
      match parseService optarg with
      | .error ret => .error ret
      | .ok ipList => .ok { a with mask := a.mask ||| optJoin, ipList, action := multiOptJoin }
  | .opt 'q' optarg =>
    if a.mask &&& optExit ≠ 0 then .error (-1)
    else
      match parseService optarg with
      | .error ret => .error ret
      | .ok ipList => .ok { a with mask := a.mask ||| optExit, ipList, action := multiOptQuit }
  | _ => .error (-1)

/-- The commands that change the table or the config; the others only print. -/
inductive Command where
  | add (service : TmccNlServiceSt)
  | del (service : TmccNlServiceSt)
  | clear
  | print (cmd : AppCmd) (service : TmccNlServiceSt)

/-- The `switch` behind the option loop, with its checks of the mask. -/
def Args.command (a : Args) : Except Int Command :=
  let service := TmccNlServiceSt.ofList a.action a.multiIp a.ipList
  match a.cmd with
  | some .add =>
    if a.mask ≠ optMultiIp ||| optJoin ∧ a.mask ≠ optMultiIp ||| optExit ∧ a.mask ≠ optMultiIp then
      .error (-1)
    else .ok (.add service)
  | some .del => if a.mask ≠ optMultiIp then .error (-1) else .ok (.del service)
  | some .clear => if a.mask ≠ 0 then .error (-1) else .ok .clear
  | some .dropStats =>
    if a.mask ≠ 0 ∧ a.mask ≠ optMultiIp then .error (-1) else .ok (.print .dropStats service)
  | some .list => if a.mask ≠ optMultiIp then .error (-1) else .ok (.print .list service)
  | some .show => if a.mask ≠ 0 then .error (-1) else .ok (.print .show service)
  | none => .error (-1)

/-- The arguments of `main` behind the program's name. -/
def parseArgs : List Word → Except Int Command
  | [] => .error 0
  | argv => do
    let a ← (getopt options argv).foldlM Args.read .init
    a.command

/-! ## What the parser lets through -/

theorem parseServiceLoop_ok {num : Nat} {p1 : List Char} {ipList ips : List UInt32}
    (h : parseServiceLoop num p1 ipList = .ok ips) :
    (ipList.Nodup → ips.Nodup) ∧ ips.length ≤ ipList.length + num ∧
      ∀ ip ∈ ips, ip ∈ ipList ∨ isMulticast ip = false := by
  induction num generalizing p1 ipList with
  | zero =>
    obtain rfl := Except.ok.inj h
    exact ⟨id, Nat.le_refl _, fun ip hip => Or.inl hip⟩
  | succ num ih =>
    simp only [parseServiceLoop] at h
    split at h
    · simp at h
    · split at h
      · simp at h
      · rename_i ip _
        split at h
        · obtain ⟨h1, h2, h3⟩ := ih h
          exact ⟨h1, by omega, h3⟩
        · rename_i hskip
          obtain ⟨h1, h2, h3⟩ := ih h
          simp only [Bool.or_eq_true, List.contains_iff_mem, not_or] at hskip
          refine ⟨fun hnd => h1 ?_, ?_, fun ip' hip' => ?_⟩
          · rw [← List.concat_eq_append]
            exact hnd.concat hskip.2
          · rw [List.length_append, List.length_singleton] at h2
            omega
          · rcases h3 ip' hip' with hmem | hno
            · rcases List.mem_append.mp hmem with hmem | hmem
              · exact Or.inl hmem
              · rw [List.mem_singleton.mp hmem]
                exact Or.inr (by simpa using hskip.1)
            · exact Or.inr hno

/-- Distinct unicast addresses that fit a row. -/
structure MembersOk (ips : List UInt32) : Prop where
  nodup : ips.Nodup
  size : ips.length ≤ multiVmMax
  unicast : ∀ ip ∈ ips, isMulticast ip = false

theorem membersOk_nil : MembersOk [] := ⟨List.nodup_nil, Nat.zero_le _, by simp⟩

theorem parseService_ok {ipstr : List Char} {ips : List UInt32} (h : parseService ipstr = .ok ips) :
    MembersOk ips := by
  unfold parseService at h
  split at h
  · simp at h
  · rename_i hnum
    obtain ⟨h1, h2, h3⟩ := parseServiceLoop_ok h
    refine ⟨h1 List.nodup_nil, ?_, fun ip hip => ?_⟩
    · simp only [List.length_nil, Nat.zero_add] at h2
      omega
    · rcases h3 ip hip with hmem | hno
      · simp at hmem
      · exact hno

/-- What the option loop keeps. -/
structure Args.Ok (a : Args) : Prop where
  action : a.action = multiOptJoin ∨ a.action = multiOptQuit
  members : MembersOk a.ipList

theorem Args.init_ok : Args.init.Ok := ⟨Or.inl rfl, membersOk_nil⟩

/-- What one option can do: the members stay, or `-j` or `-q` parses them. -/
theorem Args.read_cases {a a' : Args} {ev : Event} (h : a.read ev = .ok a') :
    (a'.action = a.action ∧ a'.ipList = a.ipList) ∨
    (∃ optarg, ev = .opt 'j' optarg ∧ parseService optarg = .ok a'.ipList ∧
      a'.action = multiOptJoin) ∨
    (∃ optarg, ev = .opt 'q' optarg ∧ parseService optarg = .ok a'.ipList ∧
      a'.action = multiOptQuit) := by
  unfold Args.read at h
  split at h
  case h_1 | h_2 | h_3 | h_4 | h_5 | h_6 =>
    obtain rfl := Except.ok.inj h
    exact Or.inl ⟨rfl, rfl⟩
  case h_7 | h_11 => simp at h
  case h_8 =>
    split at h
    · simp at h
    · split at h
      · simp at h
      · obtain rfl := Except.ok.inj h
        exact Or.inl ⟨rfl, rfl⟩
  case h_9 optarg =>
    split at h
    · simp at h
    · split at h
      · simp at h
      · rename_i hparse
        obtain rfl := Except.ok.inj h
        exact Or.inr (Or.inl ⟨optarg, rfl, hparse, rfl⟩)
  case h_10 optarg =>
    split at h
    · simp at h
    · split at h
      · simp at h
      · rename_i hparse
        obtain rfl := Except.ok.inj h
        exact Or.inr (Or.inr ⟨optarg, rfl, hparse, rfl⟩)

theorem Args.read_ok {a a' : Args} {ev : Event} (ok : a.Ok) (h : a.read ev = .ok a') : a'.Ok := by
  obtain ⟨haction, hips⟩ | ⟨_, _, hparse, hjoin⟩ | ⟨_, _, hparse, hquit⟩ := Args.read_cases h
  · exact ⟨haction ▸ ok.action, hips ▸ ok.members⟩
  · exact ⟨Or.inl hjoin, parseService_ok hparse⟩
  · exact ⟨Or.inr hquit, parseService_ok hparse⟩

theorem foldlM_read_ok {events : List Event} {a a' : Args} (ok : a.Ok)
    (h : events.foldlM Args.read a = .ok a') : a'.Ok := by
  induction events generalizing a with
  | nil =>
    obtain rfl := Except.ok.inj h
    exact ok
  | cons ev events ih =>
    rw [List.foldlM_cons] at h
    cases hread : a.read ev with
    | error ret =>
      rw [hread] at h
      simp [bind, Except.bind] at h
    | ok a1 =>
      rw [hread] at h
      exact ih (Args.read_ok ok hread) h

/-- A request that the tool passes on. -/
def TmccNlServiceSt.Parsed (service : TmccNlServiceSt) : Prop :=
  ∃ action multiIp ips, service = .ofList action multiIp ips ∧
    (action = multiOptJoin ∨ action = multiOptQuit) ∧ MembersOk ips

def Command.Parsed : Command → Prop
  | .add service => service.Parsed
  | .del service => service.Parsed
  | .clear => True
  | .print _ service => service.Parsed

theorem Args.command_parsed {a : Args} (ok : a.Ok) {cmd : Command} (h : a.command = .ok cmd) :
    cmd.Parsed := by
  have hservice : TmccNlServiceSt.Parsed (.ofList a.action a.multiIp a.ipList) :=
    ⟨_, _, _, rfl, ok.action, ok.members⟩
  unfold Args.command at h
  dsimp only at h
  split at h
  case h_3 =>
    split at h
    · simp at h
    · obtain rfl := Except.ok.inj h
      trivial
  case h_7 => simp at h
  all_goals
    split at h
    · simp at h
    · obtain rfl := Except.ok.inj h
      exact hservice

theorem parseArgs_parsed {argv : List Word} {cmd : Command} (h : parseArgs argv = .ok cmd) :
    cmd.Parsed := by
  unfold parseArgs at h
  split at h
  · simp at h
  · cases hfold : (getopt options argv).foldlM Args.read .init with
    | error ret =>
      rw [hfold] at h
      simp [bind, Except.bind] at h
    | ok a =>
      rw [hfold] at h
      exact Args.command_parsed (foldlM_read_ok Args.init_ok hfold) h

theorem TmccNlServiceSt.Parsed.action {service : TmccNlServiceSt} (h : service.Parsed) :
    service.action = multiOptJoin ∨ service.action = multiOptQuit := by
  obtain ⟨action, multiIp, ips, rfl, haction, _⟩ := h
  exact haction

theorem TmccNlServiceSt.Parsed.members {service : TmccNlServiceSt} (h : service.Parsed) :
    MembersOk service.ips ∧ service.ipNum.toNat = service.ips.length := by
  obtain ⟨action, multiIp, ips, rfl, _, hips⟩ := h
  have hlen : ips.length < 2 ^ 32 := Nat.lt_of_le_of_lt hips.size (by decide)
  rw [ips_ofList action multiIp hlen]
  exact ⟨hips, ipNum_ofList action multiIp hlen⟩

end MulticastProxy.KernelServer
