import MulticastProxy.KernelServer.Tool
import MulticastProxy.Library.Replay

/-!
# Kernel server: what the two stores are copies of

A map from groups to sets of members, the update of it that a `multis_admin` process makes, and
which of these updates may change places.
-/

namespace MulticastProxy.KernelServer

set_option autoImplicit false

open Replay

abbrev GroupMap := UInt32 → Option (Set UInt32)

/-- A JOIN makes the group where it is not there. -/
def joinSet (ips : List UInt32) (group : Option (Set UInt32)) : Option (Set UInt32) :=
  some (group.getD ∅ ∪ {ip | ip ∈ ips})

def quitSet (ips : List UInt32) (group : Option (Set UInt32)) : Option (Set UInt32) :=
  group.map (· \ {ip | ip ∈ ips})

/-- What a process asks for. -/
def Command.apply : Command → GroupMap → GroupMap
  | .add service =>
    if service.action = multiOptJoin then alter service.multiIp (joinSet service.ips)
    else if service.action = multiOptQuit then alter service.multiIp (quitSet service.ips)
    else id
  | .del service => alter service.multiIp fun _ => none
  | .clear => fun _ _ => none
  | .print _ _ => id

/-- `d` takes away what the JOIN `c` brings. -/
def Command.Undoes : Command → Command → Prop
  | .add quit, .add join => join.action = multiOptJoin ∧ quit.action = multiOptQuit ∧
      quit.multiIp = join.multiIp ∧ ∃ ip ∈ join.ips, ip ∈ quit.ips
  | .del service, .add join => join.action = multiOptJoin ∧ service.multiIp = join.multiIp
  | .clear, .add join => join.action = multiOptJoin
  | _, _ => False

def Command.Conflict (c d : Command) : Prop := c.Undoes d ∨ d.Undoes c

/-- The request names no address twice. -/
def Command.Distinct : Command → Prop
  | .add service => service.ips.Nodup
  | _ => True

theorem Command.Parsed.distinct {cmd : Command} (h : cmd.Parsed) : cmd.Distinct := by
  cases cmd with
  | add service => exact h.members.1.nodup
  | _ => trivial

/-! ## Member lists -/

/-- The map that a list of members for each group stands for. -/
def ofLists (lists : UInt32 → Option (List UInt32)) : GroupMap :=
  fun g => (lists g).map fun l => {ip | ip ∈ l}

def NodupLists (lists : UInt32 → Option (List UInt32)) : Prop :=
  ∀ g l, lists g = some l → l.Nodup

theorem NodupLists.update {lists : UInt32 → Option (List UInt32)} (h : NodupLists lists)
    (g : UInt32) {l : Option (List UInt32)} (hl : ∀ l', l = some l' → l'.Nodup) :
    NodupLists (Function.update lists g l) := by
  intro g' l' he
  rw [Function.update_apply] at he
  split at he
  · exact hl l' he
  · exact h g' l' he

theorem ofLists_update {lists : UInt32 → Option (List UInt32)} {g : UInt32}
    {l : Option (List UInt32)} {f : Option (Set UInt32) → Option (Set UInt32)}
    (h : l.map (fun l => {ip | ip ∈ l}) = f (ofLists lists g)) :
    ofLists (Function.update lists g l) = alter g f (ofLists lists) := by
  funext g'
  simp only [ofLists, alter, Function.update_apply]
  split
  · exact h
  · rfl

def joined (old ips : List UInt32) : List UInt32 := old ++ ips.filter (· ∉ old)

theorem mem_joined {old ips : List UInt32} {ip : UInt32} :
    ip ∈ joined old ips ↔ ip ∈ old ∨ ip ∈ ips := by
  simp only [joined, List.mem_append, List.mem_filter, decide_eq_true_eq]
  tauto

theorem nodup_joined {old ips : List UInt32} (hold : old.Nodup) (hips : ips.Nodup) :
    (joined old ips).Nodup := by
  refine List.nodup_append.mpr ⟨hold, hips.filter _, ?_⟩
  rintro a ha b hb rfl
  have hnot := (List.mem_filter.mp hb).2
  simp [ha] at hnot

theorem ofLists_join {lists : UInt32 → Option (List UInt32)} {g : UInt32} {ips l : List UInt32}
    (h : l = joined ((lists g).getD []) ips) :
    ofLists (Function.update lists g (some l)) = alter g (joinSet ips) (ofLists lists) := by
  refine ofLists_update (congrArg some (Set.ext fun ip => ?_))
  rw [Set.mem_ofPred_eq, h, mem_joined, ofLists]
  cases lists g <;> simp

theorem ofLists_quit {lists : UInt32 → Option (List UInt32)} {g : UInt32} {ips old l : List UInt32}
    (hold : lists g = some old) (h : ∀ ip, ip ∈ l ↔ ip ∈ old ∧ ip ∉ ips) :
    ofLists (Function.update lists g (some l)) = alter g (quitSet ips) (ofLists lists) := by
  apply ofLists_update
  rw [ofLists, hold]
  exact congrArg some (Set.ext h)

theorem ofLists_del (lists : UInt32 → Option (List UInt32)) (g : UInt32) :
    ofLists (Function.update lists g none) = alter g (fun _ => none) (ofLists lists) :=
  ofLists_update rfl

/-! ## Which updates change places -/

theorem joinSet_joinSet (ips ips' : List UInt32) (group : Option (Set UInt32)) :
    joinSet ips (joinSet ips' group) = joinSet ips' (joinSet ips group) := by
  simp only [joinSet, Option.getD_some, Set.union_assoc, Set.union_comm {ip | ip ∈ ips}]

theorem quitSet_quitSet (ips ips' : List UInt32) (group : Option (Set UInt32)) :
    quitSet ips (quitSet ips' group) = quitSet ips' (quitSet ips group) := by
  simp only [quitSet, Option.map_map, Function.comp_def, Set.sdiff_sdiff,
    Set.union_comm {ip | ip ∈ ips}]

theorem joinSet_quitSet {ips ips' : List UInt32} (h : ∀ ip ∈ ips, ip ∉ ips')
    (group : Option (Set UInt32)) :
    joinSet ips (quitSet ips' group) = quitSet ips' (joinSet ips group) := by
  have hkeep : {ip | ip ∈ ips} \ {ip | ip ∈ ips'} = {ip | ip ∈ ips} :=
    sdiff_eq_left.mpr (Set.disjoint_left.mpr h)
  simp only [joinSet, quitSet, Option.map_some, Set.union_sdiff_distrib, hkeep]
  cases group <;> simp

theorem joinSet_ne_quitSet {ips ips' : List UInt32} {ip : UInt32} (hip : ip ∈ ips)
    (hip' : ip ∈ ips') : joinSet ips (quitSet ips' none) ≠ quitSet ips' (joinSet ips none) := by
  intro h
  have hset : ∅ ∪ {ip | ip ∈ ips} = (∅ ∪ {ip | ip ∈ ips}) \ {ip | ip ∈ ips'} := Option.some.inj h
  have hmem : ip ∈ (∅ ∪ {ip | ip ∈ ips}) \ {ip | ip ∈ ips'} := by
    rw [← hset]
    exact Or.inr hip
  exact hmem.2 hip'

theorem apply_join {service : TmccNlServiceSt} (h : service.action = multiOptJoin) :
    (Command.add service).apply = alter service.multiIp (joinSet service.ips) := if_pos h

theorem apply_quit {service : TmccNlServiceSt} (h : service.action = multiOptQuit) :
    (Command.add service).apply = alter service.multiIp (quitSet service.ips) := by
  have hjoin : service.action ≠ multiOptJoin := by
    rw [h]
    decide
  rw [Command.apply, if_neg hjoin, if_pos h]

theorem apply_other {service : TmccNlServiceSt} (h1 : service.action ≠ multiOptJoin)
    (h2 : service.action ≠ multiOptQuit) : (Command.add service).apply = id := by
  rw [Command.apply, if_neg h1, if_neg h2]

theorem apply_del (service : TmccNlServiceSt) :
    (Command.del service).apply = alter service.multiIp fun _ => none := rfl

theorem alter_clear {g : UInt32} {f : Option (Set UInt32) → Option (Set UInt32)}
    (h : f none = none) : alter g f (fun _ => none) = fun _ => none := by
  rw [alter, h]
  exact Function.update_eq_self g _

/-- A command that is no JOIN can only take away, at the one group it names or at every group. -/
inductive Takes : (GroupMap → GroupMap) → Prop where
  | keep : Takes id
  | quit (g : UInt32) (ips : List UInt32) : Takes (alter g (quitSet ips))
  | del (g : UInt32) : Takes (alter g fun _ => none)
  | clear : Takes fun _ _ => none

theorem Takes.comm {f f' : GroupMap → GroupMap} (h : Takes f) (h' : Takes f') (m : GroupMap) :
    f (f' m) = f' (f m) := by
  have hquit : ∀ g ips (f'' : GroupMap → GroupMap), Takes f'' →
      alter g (quitSet ips) (f'' m) = f'' (alter g (quitSet ips) m) := by
    intro g ips f'' hf''
    cases hf'' with
    | keep => rfl
    | quit g' ips' => exact alter_comm (fun _ => quitSet_quitSet ips ips') m
    | del g' =>
      refine alter_comm ?_ m
      intro _ _
      rfl
    | clear => exact alter_clear rfl
  cases h with
  | keep => rfl
  | quit g ips => exact hquit g ips f' h'
  | del g =>
    cases h' with
    | keep => rfl
    | quit g' ips' => exact (hquit g' ips' _ (.del g)).symm
    | del g' =>
      refine alter_comm ?_ m
      intro _ _
      rfl
    | clear => exact alter_clear rfl
  | clear =>
    cases h' with
    | keep => rfl
    | quit g' ips' => exact (hquit g' ips' _ .clear).symm
    | del g' => exact (alter_clear rfl).symm
    | clear => rfl

def Command.IsJoin : Command → Prop
  | .add service => service.action = multiOptJoin
  | _ => False

theorem Command.takes {c : Command} (h : ¬ c.IsJoin) : Takes c.apply := by
  cases c with
  | add service =>
    by_cases hquit : service.action = multiOptQuit
    · rw [apply_quit hquit]
      exact .quit _ _
    · rw [apply_other h hquit]
      exact .keep
  | del service => exact .del _
  | clear => exact .clear
  | print _ _ => exact .keep

theorem Command.join_comm {service : TmccNlServiceSt} (hjoin : service.action = multiOptJoin)
    {d : Command} (h : ¬ d.Undoes (.add service)) (m : GroupMap) :
    (Command.add service).apply (d.apply m) = d.apply ((Command.add service).apply m) := by
  rw [apply_join hjoin]
  cases d with
  | add service' =>
    simp only [Command.Undoes, not_and, not_exists] at h
    by_cases hjoin' : service'.action = multiOptJoin
    · rw [apply_join hjoin']
      exact alter_comm (fun _ => joinSet_joinSet _ _) m
    · by_cases hquit' : service'.action = multiOptQuit
      · rw [apply_quit hquit']
        exact alter_comm (fun hg => joinSet_quitSet (h hjoin hquit' hg.symm)) m
      · rw [apply_other hjoin' hquit']
        rfl
  | del service' =>
    rw [apply_del]
    exact alter_comm (fun hg => absurd ⟨hjoin, hg.symm⟩ h) m
  | clear => exact absurd hjoin h
  | print _ _ => rfl

theorem Command.not_comm_of_undoes {c d : Command} (h : d.Undoes c) :
    ∃ m, c.apply (d.apply m) ≠ d.apply (c.apply m) := by
  by_contra hall
  have hcomm : ∀ m, c.apply (d.apply m) = d.apply (c.apply m) := by simpa using hall
  cases c with
  | add join =>
    cases d with
    | add quit =>
      obtain ⟨hjoin, hquit, hg, ip, hip, hip'⟩ := h
      rw [apply_join hjoin, apply_quit hquit, hg] at hcomm
      exact joinSet_ne_quitSet hip hip' (alter_comm_self hcomm none)
    | del service =>
      obtain ⟨hjoin, hg⟩ := h
      rw [apply_join hjoin, apply_del, hg] at hcomm
      have hnone : joinSet join.ips none = none := alter_comm_self hcomm none
      simp [joinSet] at hnone
    | clear =>
      rw [apply_join h] at hcomm
      have hg := congrFun (hcomm fun _ => none) join.multiIp
      simp [Command.apply, alter, joinSet] at hg
    | print _ _ => exact h
  | del _ => cases d <;> exact h
  | clear => cases d <;> exact h
  | print _ _ => cases d <;> exact h

/-- A JOIN and what takes away from it are the only commands whose order matters. -/
theorem Command.commute_iff {c d : Command} :
    Commute Command.apply c d ↔ ¬ c.Conflict d := by
  constructor
  · rintro h (hu | hu)
    · obtain ⟨m, hm⟩ := Command.not_comm_of_undoes hu
      exact hm (h m).symm
    · obtain ⟨m, hm⟩ := Command.not_comm_of_undoes hu
      exact hm (h m)
  · intro h m
    by_cases hc : c.IsJoin
    · cases c with
      | add service => exact Command.join_comm hc (fun hu => h (Or.inr hu)) m
      | _ => exact hc.elim
    · by_cases hd : d.IsJoin
      · cases d with
        | add service => exact (Command.join_comm hd (fun hu => h (Or.inl hu)) m).symm
        | _ => exact hd.elim
      · exact (Command.takes hc).comm (Command.takes hd) m

end MulticastProxy.KernelServer
