import MulticastProxy.Library.CString
import MulticastProxy.Library.Segments
import MulticastProxy.LinuxServer.HandleData

/-!
# Linux server proxy: the command connection (`terminal_command` of `server_proxy/config.c`)

The thread takes each result of `recv` for one command. What `reload` does to the table and the
groups is `Proxy.reload`; here it is noted that the branch is taken.
-/

namespace MulticastProxy.LinuxServer

set_option autoImplicit false

open CString Segments

inductive TerminalCmd where
  | reload
  | list
  deriving DecidableEq, Repr

def TerminalCmd.text : TerminalCmd → List Char
  | reload => "reload".toList
  | list => "list".toList

/-- A result of `recv` above 0: the bytes, and the counters at that time. -/
structure Recv where
  data : List Char
  counters : Stats
  size : 0 < data.length ∧ data.length ≤ bufsize

/-- The array after `memset` and `recv`. -/
def Recv.recvBuf (r : Recv) : List Char := r.data ++ List.replicate (bufsize - r.data.length) nul

/-- `strncmp` is 0. -/
def strncmpEq : List Char → List Char → Nat → Bool
  | _, _, 0 => true
  | a :: as, b :: bs, n + 1 => a = b ∧ (a = nul ∨ strncmpEq as bs n)
  | _, _, _ => false

def Recv.isCmd (r : Recv) (cmd : TerminalCmd) : Bool :=
  r.data.length = cmd.text.length ∧ strncmpEq r.recvBuf cmd.text cmd.text.length

/-- The branches taken for commands, and what was sent back. -/
structure Terminal where
  executed : List TerminalCmd
  sent : List (List Char)

def Terminal.start : Terminal := ⟨[], []⟩

/-- `%d` of an `unsigned int`. -/
def intText (x : UInt32) : List Char := (toString x.toInt32.toInt).toList

/-- `%d %d %d %d`. -/
def countersText (counters : Stats) : List Char :=
  intText counters.grecvPkt ++ ' ' :: (intText counters.gdropPkt ++
    ' ' :: (intText counters.gforwardPkt ++ ' ' :: intText counters.gforwardPointPkt))

/-- The body of the loop for a result above 0. -/
def Terminal.serve (t : Terminal) (r : Recv) : Terminal :=
  if r.isCmd .reload then { t with executed := t.executed ++ [.reload] }
  else if r.isCmd .list then
    { executed := t.executed ++ [.list]
      sent := t.sent ++ [countersText r.counters] }
  else { t with sent := t.sent ++ ["parameter error!\n".toList] }

/-- One connection: the results of `recv` up to the first that is not above 0. -/
def terminalCommand (recvs : List Recv) : Terminal := recvs.foldl Terminal.serve .start

/-- The commands as TCP may deliver them. -/
structure Delivery (cmds : List TerminalCmd) where
  recvs : List Recv
  stream : (recvs.map Recv.data).flatten = cmds.flatMap TerminalCmd.text

/-! ## What is executed -/

theorem strncmpEq_iff {as bs : List Char} (h : nul ∉ bs) :
    strncmpEq as bs bs.length = true ↔ bs <+: as := by
  induction bs generalizing as with
  | nil => exact iff_of_true (by rw [List.length_nil, strncmpEq]) (List.nil_prefix)
  | cons b bs ih =>
    cases as with
    | nil => simp [strncmpEq]
    | cons a as =>
      rw [List.length_cons, strncmpEq, decide_eq_true_eq, ih fun hin => h (List.mem_cons_of_mem _ hin),
        List.cons_prefix_cons]
      constructor
      · intro ⟨heq, hcases⟩
        have hne : a ≠ nul := fun hnul => h (by rw [← hnul, heq]; exact List.mem_cons_self)
        exact ⟨heq.symm, hcases.resolve_left hne⟩
      · intro ⟨heq, hrest⟩
        exact ⟨heq.symm, Or.inr hrest⟩

theorem nul_not_mem_text (cmd : TerminalCmd) : nul ∉ cmd.text := by
  cases cmd <;> decide

theorem Recv.isCmd_iff (r : Recv) (cmd : TerminalCmd) : r.isCmd cmd = true ↔ r.data = cmd.text := by
  rw [Recv.isCmd, decide_eq_true_eq, strncmpEq_iff (nul_not_mem_text cmd), Recv.recvBuf]
  constructor
  · intro ⟨hlen, hprefix⟩
    have hdata := List.prefix_of_prefix_length_le hprefix (List.prefix_append _ _)
      (Nat.le_of_eq hlen.symm)
    exact (hdata.eq_of_length hlen.symm).symm
  · intro heq
    rw [heq]
    exact ⟨rfl, List.prefix_append _ _⟩

/-- The command that a whole result is. -/
def commandOf (data : List Char) : Option TerminalCmd :=
  if data = TerminalCmd.reload.text then some .reload
  else if data = TerminalCmd.list.text then some .list
  else none

theorem commandOf_eq_some_iff (data : List Char) (cmd : TerminalCmd) :
    commandOf data = some cmd ↔ data = cmd.text := by
  unfold commandOf
  split
  · rename_i hreload
    rw [hreload]
    cases cmd with
    | reload => exact iff_of_true rfl rfl
    | list => exact iff_of_false (by decide) (by decide)
  · rename_i hreload
    split
    · rename_i hlist
      rw [hlist]
      cases cmd with
      | reload => exact iff_of_false (by decide) (by decide)
      | list => exact iff_of_true rfl rfl
    · rename_i hlist
      cases cmd with
      | reload => exact iff_of_false (by decide) hreload
      | list => exact iff_of_false (by decide) hlist

theorem Terminal.executed_serve (t : Terminal) (r : Recv) :
    (t.serve r).executed = t.executed ++ (commandOf r.data).toList := by
  unfold Terminal.serve commandOf
  simp only [Recv.isCmd_iff]
  split
  · rfl
  · split
    · rfl
    · exact (List.append_nil _).symm

theorem executed_foldl (recvs : List Recv) (t : Terminal) :
    (recvs.foldl Terminal.serve t).executed =
      t.executed ++ (recvs.map Recv.data).filterMap commandOf := by
  induction recvs generalizing t with
  | nil => exact (List.append_nil _).symm
  | cons r recvs ih =>
    rw [List.foldl_cons, ih, Terminal.executed_serve, List.map_cons, List.filterMap_cons,
      List.append_assoc]
    cases commandOf r.data with
    | none => rfl
    | some cmd => rfl

/-- Neither text is seen in a stream of both but where it was sent. -/
theorem commaFree_text : CommaFree TerminalCmd.text where
  ne_nil := by
    intro c
    cases c <;> decide
  first := by
    intro c d h
    cases c <;> cases d <;> revert h <;> decide
  inner := by
    intro c d rest k hpos hlt hseen
    cases c with
    | reload =>
      have hk : k < 6 := hlt
      interval_cases k <;> cases d <;> simp [TerminalCmd.text] at hseen
    | list =>
      have hk : k < 4 := hlt
      interval_cases k <;> cases d <;> simp [TerminalCmd.text] at hseen

/-- The commands executed are those that come in a `recv` result of their own. -/
theorem executed_eq_alone {cmds : List TerminalCmd} (d : Delivery cmds) :
    (terminalCommand d.recvs).executed = alone TerminalCmd.text cmds (d.recvs.map Recv.data) := by
  rw [terminalCommand, executed_foldl]
  apply commaFree_text.filterMap_eq_alone commandOf_eq_some_iff d.stream
  intro piece hpiece
  obtain ⟨r, _, rfl⟩ := List.mem_map.mp hpiece
  exact List.ne_nil_of_length_pos r.size.1

/-! ## Two deliveries -/

theorem length_text (cmd : TerminalCmd) : 1 < cmd.text.length ∧ cmd.text.length ≤ bufsize := by
  cases cmd <;> exact ⟨Nat.le_of_ble_eq_true rfl, Nat.le_of_ble_eq_true rfl⟩

/-- Each command in a result of its own. -/
def Delivery.commands (cmds : List TerminalCmd) : Delivery cmds where
  recvs := cmds.map fun cmd =>
    ⟨cmd.text, ⟨0, 0, 0, 0⟩, Nat.lt_of_succ_lt (length_text cmd).1, (length_text cmd).2⟩
  stream := by
    rw [List.map_map, List.flatMap]
    rfl

/-- Each byte in a result of its own. -/
def Delivery.bytes (cmds : List TerminalCmd) : Delivery cmds where
  recvs := (cmds.flatMap TerminalCmd.text).map fun ch =>
    ⟨[ch], ⟨0, 0, 0, 0⟩, Nat.one_pos, Nat.succ_le_of_lt (by decide)⟩
  stream := by
    rw [List.map_map]
    generalize cmds.flatMap TerminalCmd.text = text
    induction text with
    | nil => rfl
    | cons ch text ih =>
      rw [List.map_cons, List.flatten_cons, ih]
      rfl

theorem executed_commands (cmds : List TerminalCmd) :
    (terminalCommand (Delivery.commands cmds).recvs).executed = cmds := by
  rw [terminalCommand, executed_foldl, Delivery.commands, List.map_map]
  induction cmds with
  | nil => rfl
  | cons cmd cmds ih =>
    have hcmd : commandOf cmd.text = some cmd := (commandOf_eq_some_iff _ _).mpr rfl
    rw [List.map_cons, Function.comp_apply, List.filterMap_cons, hcmd]
    exact congrArg (List.cons cmd) ih

theorem executed_bytes (cmds : List TerminalCmd) :
    (terminalCommand (Delivery.bytes cmds).recvs).executed = [] := by
  rw [terminalCommand, executed_foldl, Delivery.bytes, List.map_map, Terminal.start,
    List.nil_append, List.filterMap_eq_nil_iff]
  intro piece hpiece
  obtain ⟨ch, _, rfl⟩ := List.mem_map.mp hpiece
  by_contra hsome
  obtain ⟨cmd, hcmd⟩ := Option.ne_none_iff_exists'.mp hsome
  have hlen := congrArg List.length ((commandOf_eq_some_iff _ _).mp hcmd)
  have htext := (length_text cmd).1
  rw [← hlen] at htext
  exact absurd htext (Nat.lt_irrefl 1)

/-- Two deliveries of the same commands have the same effect where the commands that make up a result
of their own are the same. No command is safe from the way it is delivered. -/
theorem executed_same_iff (cmds : List TerminalCmd) :
    (∀ d d' : Delivery cmds,
      (terminalCommand d.recvs).executed = (terminalCommand d'.recvs).executed ↔
        alone TerminalCmd.text cmds (d.recvs.map Recv.data) =
          alone TerminalCmd.text cmds (d'.recvs.map Recv.data)) ∧
    ((∀ d d' : Delivery cmds,
      (terminalCommand d.recvs).executed = (terminalCommand d'.recvs).executed) ↔ cmds = []) := by
  constructor
  · intro d d'
    rw [executed_eq_alone, executed_eq_alone]
  · constructor
    · intro h
      rw [← executed_commands cmds, h (Delivery.commands cmds) (Delivery.bytes cmds),
        executed_bytes]
    · intro hnil d d'
      subst hnil
      rw [executed_eq_alone, executed_eq_alone]
      rfl

/-- Twice `list` in one result is no command. -/
theorem executed_differs : ¬ ∀ (cmds : List TerminalCmd) (d d' : Delivery cmds),
    (terminalCommand d.recvs).executed = (terminalCommand d'.recvs).executed := by
  intro h
  let together : Delivery [.list, .list] := ⟨[⟨"listlist".toList, ⟨0, 0, 0, 0⟩, by decide⟩], rfl⟩
  have hsame := h [.list, .list] (Delivery.commands [.list, .list]) together
  rw [executed_commands] at hsame
  exact absurd hsame (by decide)

end MulticastProxy.LinuxServer
