import MulticastProxy.Library.CommandLine
import MulticastProxy.Library.DottedQuad
import MulticastProxy.Library.FirstOccurrences
import MulticastProxy.Library.Strtoll

/-!
# Generated config files (`conf_auto_make_script`)

`multi_server_conf_automake.py` and `multi_client_conf_automake.py` turn a list of hosts into the
running configurations of the kernel modules. The local host is left out of both. An exception ends a
script; it is `none` here.
-/

namespace MulticastProxy.AutoMake

set_option autoImplicit false

open DottedQuad FirstOccurrences

abbrev Text := List Char

/-- `line.strip('\n')`. -/
def stripNewline (line : Text) : Text :=
  ((line.dropWhile (· = '\n')).reverse.dropWhile (· = '\n')).reverse

/-- `text.split()`, at white space of any kind. -/
def split (text : Text) : List Text :=
  CommandLine.words (text.map fun ch => if Strtoll.isSpace ch then ' ' else ch)

/-! ## `multi_server_conf_automake.py` -/

namespace Server

structure ServerInfo where
  groupIp : Text
  memberArray : List Text
  deriving DecidableEq, Repr

/-- The loop over the lines; `i` is 0 before the line of the group. -/
def readLines (localVmip : Text) : List Text → Nat → ServerInfo → Option ServerInfo
  | [], _, serverInfo => some serverInfo
  | line :: lines, i, serverInfo =>
    if '#' ∈ line then readLines localVmip lines i serverInfo
    else if line.length < 7 then readLines localVmip lines i serverInfo
    else if i = 0 then
      match split (stripNewline line) with
      | [] => none
      | groupIp :: _ => readLines localVmip lines 1 { serverInfo with groupIp }
    else if localVmip <:+: line then readLines localVmip lines i serverInfo
    else
      readLines localVmip lines i
        { serverInfo with memberArray := serverInfo.memberArray ++ [stripNewline line] }

/-- `server_info` and the array of groups; `running` is what the running configuration holds, where
there is one. -/
def getInfoFromConf (running : Option (List ServerInfo)) (localVmip : Text) (lines : List Text) :
    Option (ServerInfo × List ServerInfo) := do
  let groupArray := running.getD []
  let serverInfo ← readLines localVmip lines 0 ⟨[], []⟩
  some (serverInfo, if serverInfo ∉ groupArray then groupArray ++ [serverInfo] else groupArray)

end Server

/-! ## `multi_client_conf_automake.py` -/

namespace Client

structure ServerInfo where
  serverIp : Text
  groupIp : Text
  clientPort : Text
  deriving DecidableEq, Repr

def readLines (localVmip : Text) :
    List Text → Nat → Text → Text → List ServerInfo → Option (List ServerInfo)
  | [], _, _, _, serverInfoArray => some serverInfoArray
  | line :: lines, i, multiIp, multiPort, serverInfoArray =>
    if '#' ∈ line then readLines localVmip lines i multiIp multiPort serverInfoArray
    else if line.length < 7 then readLines localVmip lines i multiIp multiPort serverInfoArray
    else if i = 0 then
      match split (stripNewline line) with
      | [multiIp, multiPort] => readLines localVmip lines 1 multiIp multiPort serverInfoArray
      | _ => none
    else if localVmip <:+: line then
      readLines localVmip lines i multiIp multiPort serverInfoArray
    else
      let serverInfo : ServerInfo := ⟨stripNewline line, multiIp, multiPort⟩
      readLines localVmip lines i multiIp multiPort
        (if serverInfo ∉ serverInfoArray then serverInfoArray ++ [serverInfo] else serverInfoArray)

def getInfoFromConf (running : Option (List ServerInfo)) (localVmip : Text) (lines : List Text) :
    Option (List ServerInfo) :=
  readLines localVmip lines 0 [] [] (running.getD [])

end Client

/-! ## The format of the list -/

def endOfLine (newline : Bool) : Text := if newline then ['\n'] else []

/-- A line behind the one of the group. -/
inductive HostLine where
  | comment (text : Text) (hash : '#' ∈ text)
  | host (ip : UInt32) (newline : Bool)

def HostLine.text : HostLine → Text
  | comment text _ => text
  | host ip newline => inetNtoa ip ++ endOfLine newline

/-- Comments, the line of the group with its port, then hosts and comments. -/
structure IpList where
  comments : List Text
  hash : ∀ line ∈ comments, '#' ∈ line
  multiIp : UInt32
  multiPort : UInt16
  newline : Bool
  hosts : List HostLine

def IpList.port (file : IpList) : Text := Nat.toDigits 10 file.multiPort.toNat

def IpList.groupText (file : IpList) : Text := inetNtoa file.multiIp ++ ' ' :: file.port

def IpList.lines (file : IpList) : List Text :=
  file.comments ++ (file.groupText ++ endOfLine file.newline) :: file.hosts.map HostLine.text

def addressesOf (hosts : List HostLine) : List UInt32 :=
  hosts.filterMap fun line =>
    match line with
    | .comment _ _ => none
    | .host ip _ => some ip

/-- The listed addresses. -/
def IpList.addresses (file : IpList) : List UInt32 := addressesOf file.hosts

/-- The addresses whose text does not hold the text of the local one. -/
def kept (localIp : UInt32) (ips : List UInt32) : List UInt32 :=
  ips.filter fun ip => ¬ inetNtoa localIp <:+: inetNtoa ip

/-- The addresses other than the local one. -/
def others (localIp : UInt32) (ips : List UInt32) : List UInt32 := ips.filter (· ≠ localIp)

@[simp] theorem addressesOf_nil : addressesOf [] = [] := rfl

@[simp] theorem addressesOf_comment {text : Text} (hash : '#' ∈ text) (hosts : List HostLine) :
    addressesOf (.comment text hash :: hosts) = addressesOf hosts := rfl

@[simp] theorem addressesOf_host (ip : UInt32) (newline : Bool) (hosts : List HostLine) :
    addressesOf (.host ip newline :: hosts) = ip :: addressesOf hosts := rfl

theorem kept_nil (localIp : UInt32) : kept localIp [] = [] := rfl

theorem kept_cons_infix {localIp ip : UInt32} (h : inetNtoa localIp <:+: inetNtoa ip)
    (ips : List UInt32) : kept localIp (ip :: ips) = kept localIp ips :=
  List.filter_cons_of_neg (fun hnot => of_decide_eq_true hnot h)

theorem kept_cons {localIp ip : UInt32} (h : ¬ inetNtoa localIp <:+: inetNtoa ip)
    (ips : List UInt32) : kept localIp (ip :: ips) = ip :: kept localIp ips :=
  List.filter_cons_of_pos (decide_eq_true h)

/-! ## One line -/

theorem not_mem_inetNtoa {ch : Char} (hdigit : ch.isDigit = false) (hdot : ch ≠ '.') (ip : UInt32) :
    ch ∉ inetNtoa ip := by
  intro hin
  rcases mem_inetNtoa hin with htrue | rfl
  · rw [htrue] at hdigit
    cases hdigit
  · exact hdot rfl

theorem not_mem_endOfLine {ch : Char} (h : ch ≠ '\n') (newline : Bool) :
    ch ∉ endOfLine newline := by
  intro hin
  cases newline with
  | false => cases hin
  | true => exact h (List.mem_singleton.mp hin)

theorem dropWhile_newline {text : Text} (h : '\n' ∉ text) (hne : text ≠ []) (rest : Text) :
    (text ++ rest).dropWhile (· = '\n') = text ++ rest := by
  cases text with
  | nil => exact absurd rfl hne
  | cons ch text =>
    apply List.dropWhile_cons_of_neg
    intro hnewline
    exact h (of_decide_eq_true hnewline ▸ List.mem_cons_self)

theorem stripNewline_append {text : Text} (h : '\n' ∉ text) (hne : text ≠ []) (newline : Bool) :
    stripNewline (text ++ endOfLine newline) = text := by
  have hback : text.reverse.dropWhile (· = '\n') = text.reverse := by
    have hreverse := dropWhile_newline (fun hin => h (List.mem_reverse.mp hin))
      (List.reverse_ne_nil_iff.mpr hne) []
    rwa [List.append_nil] at hreverse
  rw [stripNewline, dropWhile_newline h hne]
  cases newline with
  | false => rw [endOfLine, if_neg Bool.false_ne_true, List.append_nil, hback, List.reverse_reverse]
  | true =>
    have hend : ('\n' :: text.reverse).dropWhile (· = '\n') = text.reverse.dropWhile (· = '\n') :=
      List.dropWhile_cons_of_pos (decide_eq_true rfl)
    rw [endOfLine, if_pos rfl, List.reverse_append, List.reverse_singleton, List.singleton_append,
      hend, hback, List.reverse_reverse]

theorem infix_append_endOfLine {sub text : Text} (h : '\n' ∉ sub) (newline : Bool) :
    sub <:+: text ++ endOfLine newline ↔ sub <:+: text := by
  cases newline with
  | false => rw [endOfLine, if_neg Bool.false_ne_true, List.append_nil]
  | true =>
    rw [endOfLine, if_pos rfl, List.infix_concat_iff, List.suffix_concat_iff]
    constructor
    · intro hcases
      rcases hcases with (hempty | ⟨t, rfl, _⟩) | hin
      · rw [hempty]
        exact List.nil_infix
      · exact absurd (List.mem_append_right _ List.mem_cons_self) h
      · exact hin
    · intro hin
      exact Or.inr hin

/-- A reader that passes over one line with a comment passes over several. -/
theorem skip_comments {β : Type} {f : List Text → β}
    (hskip : ∀ (line : Text) (lines : List Text), '#' ∈ line → f (line :: lines) = f lines)
    {comments : List Text} (h : ∀ line ∈ comments, '#' ∈ line) (lines : List Text) :
    f (comments ++ lines) = f lines := by
  induction comments with
  | nil => rfl
  | cons line comments ih =>
    rw [List.cons_append, hskip line _ (h line List.mem_cons_self)]
    exact ih (fun line hin => h line (List.mem_cons_of_mem _ hin))

/-! ## The line of a host -/

section
variable (ip : UInt32) (newline : Bool)

theorem newline_not_mem_inetNtoa : '\n' ∉ inetNtoa ip :=
  not_mem_inetNtoa rfl (by decide) ip

theorem hash_not_mem_host : '#' ∉ inetNtoa ip ++ endOfLine newline := by
  intro hin
  rcases List.mem_append.mp hin with hip | hend
  · exact not_mem_inetNtoa rfl (by decide) ip hip
  · exact not_mem_endOfLine (by decide) newline hend

theorem inetNtoa_ne_nil : inetNtoa ip ≠ [] := by
  intro hnil
  have hlength := (length_inetNtoa ip).1
  rw [hnil] at hlength
  cases hlength

theorem length_host : ¬ (inetNtoa ip ++ endOfLine newline).length < 7 := by
  have hlength := (length_inetNtoa ip).1
  rw [List.length_append]
  omega

theorem stripNewline_host : stripNewline (inetNtoa ip ++ endOfLine newline) = inetNtoa ip :=
  stripNewline_append (newline_not_mem_inetNtoa ip) (inetNtoa_ne_nil ip) newline

theorem infix_host (localIp : UInt32) :
    inetNtoa localIp <:+: inetNtoa ip ++ endOfLine newline ↔
      inetNtoa localIp <:+: inetNtoa ip :=
  infix_append_endOfLine (newline_not_mem_inetNtoa localIp) newline

end

/-! ## The line of the group -/

section
variable (file : IpList)

theorem isDigit_port {ch : Char} (h : ch ∈ file.port) : ch.isDigit = true :=
  Nat.isDigit_of_mem_toDigits (by decide) (by decide) h

theorem not_mem_groupText {ch : Char} (hdigit : ch.isDigit = false) (hdot : ch ≠ '.')
    (hblank : ch ≠ ' ') : ch ∉ file.groupText := by
  intro hin
  rcases List.mem_append.mp hin with hip | hport
  · exact not_mem_inetNtoa hdigit hdot _ hip
  · rcases List.mem_cons.mp hport with heq | hport
    · exact hblank heq
    · rw [isDigit_port file hport] at hdigit
      cases hdigit

theorem hash_not_mem_group : '#' ∉ file.groupText ++ endOfLine file.newline := by
  intro hin
  rcases List.mem_append.mp hin with hgroup | hend
  · exact not_mem_groupText file rfl (by decide) (by decide) hgroup
  · exact not_mem_endOfLine (by decide) _ hend

theorem length_group : ¬ (file.groupText ++ endOfLine file.newline).length < 7 := by
  have hlength := (length_inetNtoa file.multiIp).1
  rw [List.length_append, IpList.groupText, List.length_append]
  omega

theorem stripNewline_group :
    stripNewline (file.groupText ++ endOfLine file.newline) = file.groupText := by
  apply stripNewline_append
  · exact not_mem_groupText file rfl (by decide) (by decide)
  · exact List.append_ne_nil_of_left_ne_nil (inetNtoa_ne_nil _) _

/-- `split` gives the two fields. -/
theorem split_group : split file.groupText = [inetNtoa file.multiIp, file.port] := by
  have hspace : ∀ ch ∈ file.groupText, (if Strtoll.isSpace ch then ' ' else ch) = id ch := by
    intro ch hch
    by_cases hblank : ch = ' '
    · rw [hblank]
      rfl
    · apply if_neg
      intro hspace
      rcases of_decide_eq_true hspace with heq | hrange
      · exact hblank heq
      · refine not_mem_groupText file ?_ ?_ hblank hch
        · rw [Bool.eq_false_iff]
          intro hdigit
          have := Strtoll.toNat_of_isDigit hdigit
          omega
        · intro hdot
          rw [hdot] at hrange
          exact absurd hrange (by decide)
  have hip : ∀ ch ∈ inetNtoa file.multiIp, ch ≠ ' ' := by
    intro ch hch hblank
    rw [hblank] at hch
    exact not_mem_inetNtoa rfl (by decide) _ hch
  have hport : ∀ ch ∈ file.port, ch ≠ ' ' := by
    intro ch hch hblank
    rw [hblank] at hch
    cases isDigit_port file hch
  have hlast : CommandLine.words file.port = [file.port] :=
    CommandLine.words_last Nat.toDigits_ne_nil hport
  rw [split, List.map_congr_left hspace, List.map_id, IpList.groupText,
    CommandLine.words_cons (inetNtoa_ne_nil _) hip, hlast]

end

/-! ## The server's groups -/

namespace Server

theorem readLines_hash {line : Text} (h : '#' ∈ line) (localVmip : Text) (lines : List Text)
    (i : Nat) (serverInfo : ServerInfo) :
    readLines localVmip (line :: lines) i serverInfo = readLines localVmip lines i serverInfo := by
  rw [readLines, if_pos h]

theorem readLines_group (file : IpList) (localVmip : Text) (lines : List Text)
    (serverInfo : ServerInfo) :
    readLines localVmip ((file.groupText ++ endOfLine file.newline) :: lines) 0 serverInfo =
      readLines localVmip lines 1 { serverInfo with groupIp := inetNtoa file.multiIp } := by
  rw [readLines, if_neg (hash_not_mem_group file), if_neg (length_group file), if_pos rfl,
    stripNewline_group, split_group]

theorem readLines_hosts (localIp : UInt32) (hosts : List HostLine) (serverInfo : ServerInfo) :
    readLines (inetNtoa localIp) (hosts.map HostLine.text) 1 serverInfo =
      some { serverInfo with
        memberArray := serverInfo.memberArray ++
          (kept localIp (addressesOf hosts)).map inetNtoa } := by
  induction hosts generalizing serverInfo with
  | nil =>
    rw [List.map_nil, readLines, addressesOf_nil, kept_nil, List.map_nil, List.append_nil]
  | cons line hosts ih =>
    cases line with
    | comment text hash =>
      rw [List.map_cons, HostLine.text, readLines_hash hash, addressesOf_comment]
      exact ih serverInfo
    | host ip newline =>
      rw [List.map_cons, HostLine.text, readLines, if_neg (hash_not_mem_host ip newline),
        if_neg (length_host ip newline), if_neg Nat.one_ne_zero, stripNewline_host,
        addressesOf_host]
      by_cases hin : inetNtoa localIp <:+: inetNtoa ip
      · rw [if_pos ((infix_host ip newline localIp).mpr hin), ih, kept_cons_infix hin]
      · rw [if_neg (fun hline => hin ((infix_host ip newline localIp).mp hline)), ih, kept_cons hin,
          List.append_assoc, List.map_cons, List.singleton_append]

/-- `server_info` for a list in the format. -/
theorem getInfoFromConf_eq (running : Option (List ServerInfo)) (localIp : UInt32)
    (file : IpList) :
    (getInfoFromConf running (inetNtoa localIp) file.lines).map Prod.fst =
      some ⟨inetNtoa file.multiIp, (kept localIp file.addresses).map inetNtoa⟩ := by
  have hcomments (lines : List Text) :
      readLines (inetNtoa localIp) (file.comments ++ lines) 0 ⟨[], []⟩ =
        readLines (inetNtoa localIp) lines 0 ⟨[], []⟩ :=
    skip_comments (f := fun lines => readLines (inetNtoa localIp) lines 0 ⟨[], []⟩)
      (fun _ lines hash => readLines_hash hash _ lines 0 _) file.hash lines
  rw [getInfoFromConf, IpList.lines, hcomments, readLines_group, readLines_hosts]
  rfl

end Server

/-! ## The client's servers -/

namespace Client

theorem readLines_hash {line : Text} (h : '#' ∈ line) (localVmip : Text) (lines : List Text)
    (i : Nat) (multiIp multiPort : Text) (serverInfoArray : List ServerInfo) :
    readLines localVmip (line :: lines) i multiIp multiPort serverInfoArray =
      readLines localVmip lines i multiIp multiPort serverInfoArray := by
  rw [readLines, if_pos h]

theorem readLines_group (file : IpList) (localVmip : Text) (lines : List Text)
    (multiIp multiPort : Text) (serverInfoArray : List ServerInfo) :
    readLines localVmip ((file.groupText ++ endOfLine file.newline) :: lines) 0 multiIp multiPort
        serverInfoArray =
      readLines localVmip lines 1 (inetNtoa file.multiIp) file.port serverInfoArray := by
  rw [readLines, if_neg (hash_not_mem_group file), if_neg (length_group file), if_pos rfl,
    stripNewline_group, split_group]

theorem readLines_hosts (localIp : UInt32) (multiIp multiPort : Text) (hosts : List HostLine)
    (old : List ServerInfo) :
    readLines (inetNtoa localIp) (hosts.map HostLine.text) 1 multiIp multiPort old =
      some (((kept localIp (addressesOf hosts)).map fun ip =>
        ServerInfo.mk (inetNtoa ip) multiIp multiPort).foldl add old) := by
  induction hosts generalizing old with
  | nil => rfl
  | cons line hosts ih =>
    cases line with
    | comment text hash =>
      rw [List.map_cons, HostLine.text, readLines_hash hash, addressesOf_comment]
      exact ih old
    | host ip newline =>
      rw [List.map_cons, HostLine.text, readLines, if_neg (hash_not_mem_host ip newline),
        if_neg (length_host ip newline), if_neg Nat.one_ne_zero, stripNewline_host,
        addressesOf_host]
      by_cases hin : inetNtoa localIp <:+: inetNtoa ip
      · rw [if_pos ((infix_host ip newline localIp).mpr hin), ih, kept_cons_infix hin]
      · rw [if_neg (fun hline => hin ((infix_host ip newline localIp).mp hline)), ih, kept_cons hin]
        rfl

/-- The array of servers for a list in the format. -/
theorem getInfoFromConf_eq (running : Option (List ServerInfo)) (localIp : UInt32)
    (file : IpList) :
    getInfoFromConf running (inetNtoa localIp) file.lines =
      some (running.getD [] ++ fresh (running.getD []) ((kept localIp file.addresses).map fun ip =>
        ⟨inetNtoa ip, inetNtoa file.multiIp, file.port⟩)) := by
  have hcomments (lines : List Text) :
      readLines (inetNtoa localIp) (file.comments ++ lines) 0 [] [] (running.getD []) =
        readLines (inetNtoa localIp) lines 0 [] [] (running.getD []) :=
    skip_comments (f := fun lines => readLines (inetNtoa localIp) lines 0 [] [] (running.getD []))
      (fun _ lines hash => readLines_hash hash _ lines 0 _ _ _) file.hash lines
  rw [getInfoFromConf, IpList.lines, hcomments, readLines_group, readLines_hosts, foldl_add]
  rfl

end Client

/-! ## The local address -/

theorem kept_eq_others_iff (localIp : UInt32) (ips : List UInt32) :
    kept localIp ips = others localIp ips ↔
      ∀ ip ∈ ips, ip ≠ localIp → ¬ inetNtoa localIp <:+: inetNtoa ip := by
  constructor
  · intro heq ip hin hne
    have hother : ip ∈ others localIp ips := List.mem_filter.mpr ⟨hin, decide_eq_true hne⟩
    rw [← heq] at hother
    exact of_decide_eq_true (List.mem_filter.mp hother).2
  · intro h
    apply List.filter_congr
    intro ip hin
    rw [Bool.eq_iff_iff, decide_eq_true_iff, decide_eq_true_iff]
    constructor
    · intro hnot heq
      rw [heq] at hnot
      exact hnot List.infix_rfl
    · intro hne
      exact h ip hin hne

/-- The scripts leave out the local host alone exactly where its text is in no other host's. -/
theorem getInfoFromConf_others_iff (file : IpList) (localIp : UInt32)
    (groups : Option (List Server.ServerInfo)) (servers : Option (List Client.ServerInfo)) :
    ((Server.getInfoFromConf groups (inetNtoa localIp) file.lines).map Prod.fst =
        some ⟨inetNtoa file.multiIp, (others localIp file.addresses).map inetNtoa⟩ ∧
      Client.getInfoFromConf servers (inetNtoa localIp) file.lines =
        some (servers.getD [] ++ fresh (servers.getD [])
          ((others localIp file.addresses).map fun ip =>
            ⟨inetNtoa ip, inetNtoa file.multiIp, file.port⟩))) ↔
      ∀ ip ∈ file.addresses, ip ≠ localIp → ¬ inetNtoa localIp <:+: inetNtoa ip := by
  rw [← kept_eq_others_iff, Server.getInfoFromConf_eq, Client.getInfoFromConf_eq]
  constructor
  · intro ⟨hserver, _⟩
    have hmembers := congrArg Server.ServerInfo.memberArray (Option.some.inj hserver)
    exact List.map_injective_iff.mpr inetNtoa_injective hmembers
  · intro heq
    rw [heq]
    exact ⟨rfl, rfl⟩

/-- 192.168.1.10 is left out on 192.168.1.1. -/
theorem getInfoFromConf_prefix : ¬ ∀ (file : IpList) (localIp : UInt32)
    (groups : Option (List Server.ServerInfo)) (servers : Option (List Client.ServerInfo)),
    (Server.getInfoFromConf groups (inetNtoa localIp) file.lines).map Prod.fst =
        some ⟨inetNtoa file.multiIp, (others localIp file.addresses).map inetNtoa⟩ ∧
      Client.getInfoFromConf servers (inetNtoa localIp) file.lines =
        some (servers.getD [] ++ fresh (servers.getD [])
          ((others localIp file.addresses).map fun ip =>
            ⟨inetNtoa ip, inetNtoa file.multiIp, file.port⟩)) := by
  intro h
  have hhosts := h ⟨[], List.forall_mem_nil _, 0xEFFE0102, 65535, true, [.host 0xC0A8010A true]⟩
    0xC0A80101 none none
  rw [Server.getInfoFromConf_eq] at hhosts
  have hmembers := congrArg Server.ServerInfo.memberArray (Option.some.inj hhosts.1)
  have hin : inetNtoa 0xC0A80101 <:+: inetNtoa 0xC0A8010A := ⟨[], ['0'], rfl⟩
  rw [IpList.addresses, addressesOf_host, addressesOf_nil, kept_cons_infix hin] at hmembers
  cases hmembers

end MulticastProxy.AutoMake
