import MulticastProxy.KernelModules.PacketPath
import MulticastProxy.KernelServer.Members
import MulticastProxy.KernelClient.PacketStats

/-!
# Kernel modules: hosts that run both of them

Commands, datagrams, copies that meet the hook again and arrivals come in any order on any number of
hosts; packets are lost, come twice and overtake each other. A packet that a host takes for one to
a group was sent to the host's group by another one.
-/

namespace MulticastProxy.Cloud

set_option autoImplicit false

open KernelClient (RxSkb CsumUpdate groupFor)
open KernelServer (CopyFate MemberEdge IsMember)

structure Host where
  server : KernelServer.Module
  client : KernelClient.Module

/-- The hosts by address, the datagrams that their applications have sent, the packets on their way
and those that the hosts took in. -/
structure Net where
  host : UInt32 → Host
  sent : List RxSkb
  flying : List RxSkb
  received : List (UInt32 × RxSkb)

def Net.init : Net where
  host _ := ⟨⟨KernelServer.multiNodeInit, ⟨0, 0, 0, 0, 0, 0⟩⟩, ⟨KernelClient.multiNodeInit, 0, 0⟩⟩
  sent := []
  flying := []
  received := []

def Net.setServer (net : Net) (h : UInt32) (server : KernelServer.Module) : UInt32 → Host :=
  Function.update net.host h { net.host h with server }

def Net.setClient (net : Net) (h : UInt32) (client : KernelClient.Module) : UInt32 → Host :=
  Function.update net.host h { net.host h with client }

inductive Request where
  | server (msg : KernelServer.NlMessage)
  | client (msg : KernelClient.NlMessage)

section
variable (jhash1word : UInt32 → UInt32 → UInt32) (jhash2words : UInt32 → UInt32 → UInt32 → UInt32)
variable (csum : CsumUpdate)

/-- A packet on its way is not taken away by its arrival: it may come again, or never. -/
inductive Step (allowed : Net → UInt32 → Request → Prop) : Net → Net → Prop where
  | serverCommand {net : Net} (h : UInt32) {msg : KernelServer.NlMessage} {code : Int}
      {table : KernelServer.State} :
      allowed net h (.server msg) →
      KernelServer.tmccRcvSkb jhash1word (net.host h).server.table msg = .ret (code, table) →
      Step allowed net
        { net with host := net.setServer h { (net.host h).server with table } }
  | clientCommand {net : Net} (h : UInt32) {msg : KernelClient.NlMessage} {code : Int}
      {table : KernelClient.State} :
      allowed net h (.client msg) →
      KernelClient.tmccRcvSkb jhash2words (net.host h).client.table msg = .ret (code, table) →
      Step allowed net
        { net with host := net.setClient h { (net.host h).client with table } }
  -- the datagram itself is accepted, whatever becomes of the copies
  | send {net : Net} (skb : RxSkb) (fate : Nat → CopyFate) :
      UdpOk skb →
      Step allowed net
        { net with
          host := net.setServer skb.saddr
            (tmcsHookLocalOut jhash1word csum fate (net.host skb.saddr).server skb).1
          sent := skb :: net.sent
          flying := skb ::
            (tmcsHookLocalOut jhash1word csum fate (net.host skb.saddr).server skb).2 ++
              net.flying }
  -- `ip_local_out` runs the hook on a copy
  | reenter {net : Net} (skb : RxSkb) (fate : Nat → CopyFate) :
      skb ∈ net.flying →
      Step allowed net
        { net with
          host := net.setServer skb.saddr
            (tmcsHookLocalOut jhash1word csum fate (net.host skb.saddr).server skb).1
          flying := (tmcsHookLocalOut jhash1word csum fate (net.host skb.saddr).server skb).2 ++
            net.flying }
  | arrive {net : Net} {skb skb' : RxSkb} :
      skb ∈ net.flying → Carried skb skb' →
      Step allowed net
        { net with
          host := net.setClient skb'.daddr
            (skb'.tmccHookLocalIn jhash2words csum (net.host skb'.daddr).client).1
          received :=
            (skb'.daddr,
              (skb'.tmccHookLocalIn jhash2words csum (net.host skb'.daddr).client).2) ::
                net.received }

/-- What the hosts are meant to hold: the members of each host's groups, and each host's entries for
servers and ports. -/
structure Policy where
  member : UInt32 → UInt32 → UInt32 → Prop
  entry : UInt32 → UInt32 → UInt16 → UInt32 → Prop

/-- A command that brings nothing but what the policy has, and no group beyond the 256th. -/
def Policy.Allows (policy : Policy) (net : Net) (h : UInt32) : Request → Prop
  | .server msg => KernelServer.PoolRoom jhash1word (net.host h).server.table msg ∧
      ∀ g ip, msg.Brings g ip → policy.member h g ip
  | .client msg => ∀ k multiIp, msg.Brings k multiIp → policy.entry h k.1 k.2 multiIp

def Run (policy : Policy) (net : Net) : Prop :=
  Relation.ReflTransGen (Step jhash1word jhash2words csum (policy.Allows jhash1word)) Net.init net

end

/-! ## What the modules of a host hold -/

variable {jhash1word : UInt32 → UInt32 → UInt32} {jhash2words : UInt32 → UInt32 → UInt32 → UInt32}
variable {csum : CsumUpdate}

structure ServerOk (jhash1word : UInt32 → UInt32 → UInt32) (member : UInt32 → UInt32 → Prop)
    (s : KernelServer.State) : Prop where
  wf : KernelServer.WellFormed jhash1word s
  own : KernelServer.IndexOwned s
  members : ∀ g ip, IsMember jhash1word s g ip → member g ip

structure ClientOk (jhash2words : UInt32 → UInt32 → UInt32 → UInt32)
    (entry : UInt32 → UInt16 → UInt32 → Prop) (s : KernelClient.State) : Prop where
  wf : KernelClient.WellFormed jhash2words s
  entries : ∀ k multiIp, KernelClient.entry jhash2words s k = some multiIp → entry k.1 k.2 multiIp

theorem serverOk_init (member : UInt32 → UInt32 → Prop) :
    ServerOk jhash1word member KernelServer.multiNodeInit where
  wf := KernelServer.multiNodeInit_wellFormed
  own := KernelServer.multiNodeInit_indexOwned
  members g ip h := by
    obtain ⟨l, hl, _⟩ := h
    simp [KernelServer.membersOf] at hl

theorem clientOk_init (entry : UInt32 → UInt16 → UInt32 → Prop) :
    ClientOk jhash2words entry KernelClient.multiNodeInit where
  wf := KernelClient.multiNodeInit_wellFormed
  entries k multiIp h := by simp at h

theorem isMember_of_memberEdge {s : KernelServer.State} {g ip : UInt32}
    (h : MemberEdge jhash1word s g ip) : IsMember jhash1word s g ip := by
  obtain ⟨memberCnt, grpIdx, vmIpList, hlook, hip⟩ := h
  refine ⟨vmIpList, ?_, hip⟩
  rw [← KernelServer.lookupMultiNode_members, hlook]
  rfl

/-- The counters of a group are no part of what the table says. -/
theorem ServerOk.counted {member : UInt32 → UInt32 → Prop} {s : KernelServer.State}
    (ok : ServerOk jhash1word member s) (multiStats : Nat → KernelServer.MultiStats) :
    ServerOk jhash1word member { s with multiStats } where
  wf := ok.wf
  own := ⟨ok.own.distinct, ok.own.bit⟩
  members := ok.members

theorem copyLoop_table (csum : CsumReplace) (skb : Skb) (grpIdx : UInt8)
    (fate : Nat → CopyFate) (i : Nat) (vmIps : List UInt32) (m : KernelServer.Module) :
    ∃ multiStats, (KernelServer.copyLoop csum skb grpIdx fate i vmIps m).1.table =
      { m.table with multiStats } := by
  induction vmIps generalizing i m with
  | nil => exact ⟨m.table.multiStats, rfl⟩
  | cons vmIp vmIps ih =>
    obtain ⟨multiStats, hrest⟩ :=
      ih (i + 1) (KernelServer.copyToMember csum skb grpIdx m vmIp (fate i)).1
    have hone : ∃ multiStats, (KernelServer.copyToMember csum skb grpIdx m vmIp (fate i)).1.table =
        { m.table with multiStats } := by
      unfold KernelServer.copyToMember
      split
      · exact ⟨m.table.multiStats, rfl⟩
      · split <;> exact ⟨m.table.multiStats, rfl⟩
      · split
        · exact ⟨m.table.multiStats, rfl⟩
        · exact ⟨_, rfl⟩
    obtain ⟨multiStats', hone⟩ := hone
    refine ⟨multiStats, ?_⟩
    rw [KernelServer.copyLoop, hrest, hone]

/-- The hook writes nothing of the table but counters. -/
theorem tmcsHookLocalOut_table (csum : CsumReplace) (fate : Nat → CopyFate)
    (m : KernelServer.Module) (skb : Skb) :
    ∃ multiStats, (KernelServer.tmcsHookLocalOut jhash1word csum fate m skb).1.table =
      { m.table with multiStats } := by
  unfold KernelServer.tmcsHookLocalOut
  split
  · exact ⟨m.table.multiStats, rfl⟩
  · split
    · exact ⟨m.table.multiStats, rfl⟩
    · split
      · exact ⟨m.table.multiStats, rfl⟩
      · exact copyLoop_table csum skb _ fate 0 _ m

theorem ServerOk.hook {member : UInt32 → UInt32 → Prop} {m : KernelServer.Module}
    (ok : ServerOk jhash1word member m.table) (csum : CsumUpdate) (fate : Nat → CopyFate)
    (skb : RxSkb) :
    ServerOk jhash1word member (tmcsHookLocalOut jhash1word csum fate m skb).1.table := by
  have hmodule : ∃ multiStats, (tmcsHookLocalOut jhash1word csum fate m skb).1.table =
      { m.table with multiStats } := tmcsHookLocalOut_table _ fate m skb.toSkb
  obtain ⟨multiStats, htable⟩ := hmodule
  rw [htable]
  exact ok.counted multiStats

theorem ServerOk.command {member : UInt32 → UInt32 → Prop} {s s' : KernelServer.State}
    (ok : ServerOk jhash1word member s) {msg : KernelServer.NlMessage} {code : Int}
    (hroom : KernelServer.PoolRoom jhash1word s msg)
    (hbrings : ∀ g ip, msg.Brings g ip → member g ip)
    (h : KernelServer.tmccRcvSkb jhash1word s msg = .ret (code, s')) :
    ServerOk jhash1word member s' where
  wf := KernelServer.tmccRcvSkb_wellFormed ok.wf h
  own := (KernelServer.tmccRcvSkb_effect ok.wf h).indexOwned ok.wf ok.own hroom
  members g ip hip := by
    rcases KernelServer.isMember_of_command ok.wf ok.own hroom h hip with hold | hnew
    · exact ok.members g ip hold
    · exact hbrings g ip hnew

theorem ClientOk.hook {entry : UInt32 → UInt16 → UInt32 → Prop} {m : KernelClient.Module}
    (ok : ClientOk jhash2words entry m.table) (csum : CsumUpdate) (skb : RxSkb) :
    ClientOk jhash2words entry (skb.tmccHookLocalIn jhash2words csum m).1.table := by
  unfold RxSkb.tmccHookLocalIn
  cases KernelClient.hookEntry jhash2words m.table skb.toSkb with
  | none => exact ok
  | some found =>
    refine ⟨ok.wf.multiClientStats _ _ _ _, fun k multiIp hk => ok.entries k multiIp ?_⟩
    rw [← hk]
    simp only
    rw [← KernelClient.lookupIpPortNode_eq, ← KernelClient.lookupIpPortNode_eq,
      KernelClient.lookup_multiClientStats]

theorem ClientOk.command {entry : UInt32 → UInt16 → UInt32 → Prop} {s s' : KernelClient.State}
    (ok : ClientOk jhash2words entry s) {msg : KernelClient.NlMessage} {code : Int}
    (hbrings : ∀ k multiIp, msg.Brings k multiIp → entry k.1 k.2 multiIp)
    (h : KernelClient.tmccRcvSkb jhash2words s msg = .ret (code, s')) :
    ClientOk jhash2words entry s' where
  wf := KernelClient.tmccRcvSkb_wellFormed ok.wf h
  entries k multiIp hk := by
    rcases KernelClient.entry_of_command ok.wf h hk with hold | hnew
    · exact ok.entries k multiIp hold
    · exact hbrings k multiIp hnew

theorem ClientOk.groupFor {entry : UInt32 → UInt16 → UInt32 → Prop} {s : KernelClient.State}
    (ok : ClientOk jhash2words entry s) {saddr multiIp : UInt32} {port : UInt16}
    (h : groupFor jhash2words s saddr port = some multiIp) :
    entry saddr port multiIp ∨ entry saddr 0 multiIp := by
  unfold KernelClient.groupFor at h
  cases hexact : KernelClient.entry jhash2words s (saddr, port) with
  | some found =>
    rw [hexact] at h
    obtain rfl := Option.some.inj h
    exact Or.inl (ok.entries _ _ hexact)
  | none =>
    rw [hexact] at h
    exact Or.inr (ok.entries _ _ h)

/-! ## Where a packet comes from -/

/-- A packet on its way is a datagram as it was sent, or a copy of it on its way to a member of the
datagram's group, of a group that is a member, and so on. -/
structure Stems (policy : Policy) (d skb : RxSkb) : Prop where
  same : SameDatagram d skb
  udp : UdpOk skb
  copied : skb.daddr = d.daddr ∧ skb.tos = d.tos ∨
    Relation.TransGen (policy.member d.saddr) d.daddr skb.daddr

/-- What is known of a packet that a host took in with a destination other than its own address. -/
structure Meant (policy : Policy) (h : UInt32) (d skb : RxSkb) : Prop where
  same : SameDatagram d skb
  way : d.daddr = h ∧ d.tos = 0xE0 ∨ Relation.TransGen (policy.member d.saddr) d.daddr h
  entry : policy.entry h d.saddr (udpDest d.transport) skb.daddr ∨
    policy.entry h d.saddr 0 skb.daddr
  checks : d.fragOff &&& ipOffset = 0 → skb.HeaderLinear → skb.ChecksumsOk

structure Net.Ok (jhash1word : UInt32 → UInt32 → UInt32)
    (jhash2words : UInt32 → UInt32 → UInt32 → UInt32) (policy : Policy) (net : Net) : Prop where
  server : ∀ h, ServerOk jhash1word (policy.member h) (net.host h).server.table
  client : ∀ h, ClientOk jhash2words (policy.entry h) (net.host h).client.table
  flying : ∀ skb ∈ net.flying, ∃ d ∈ net.sent, Stems policy d skb
  received : ∀ h skb, (h, skb) ∈ net.received → skb.daddr ≠ h → ∃ d ∈ net.sent, Meant policy h d skb

theorem Net.init_ok (policy : Policy) : Net.init.Ok jhash1word jhash2words policy where
  server _ := serverOk_init _
  client _ := clientOk_init _
  flying _ h := by cases h
  received _ _ h := by cases h

section
variable {policy : Policy} {net : Net} (ok : net.Ok jhash1word jhash2words policy)
include ok

theorem Net.Ok.setServer {h : UInt32} {m : KernelServer.Module}
    (hm : ServerOk jhash1word (policy.member h) m.table) :
    ({ net with host := net.setServer h m }).Ok jhash1word jhash2words policy where
  server h' := by
    simp only [Net.setServer, Function.update_apply]
    split
    · rename_i he
      exact he ▸ hm
    · exact ok.server h'
  client h' := by
    simp only [Net.setServer, Function.update_apply]
    split
    · rename_i he
      exact he ▸ ok.client h
    · exact ok.client h'
  flying := ok.flying
  received := ok.received

theorem Net.Ok.setClient {h : UInt32} {m : KernelClient.Module}
    (hm : ClientOk jhash2words (policy.entry h) m.table) :
    ({ net with host := net.setClient h m }).Ok jhash1word jhash2words policy where
  server h' := by
    simp only [Net.setClient, Function.update_apply]
    split
    · rename_i he
      exact he ▸ ok.server h
    · exact ok.server h'
  client h' := by
    simp only [Net.setClient, Function.update_apply]
    split
    · rename_i he
      exact he ▸ hm
    · exact ok.client h'
  flying := ok.flying
  received := ok.received

/-- A copy of what stems from a datagram stems from it as well. -/
theorem Net.Ok.copies (hcsum : csum.Incremental) {d skb : RxSkb} (hstems : Stems policy d skb)
    (fate : Nat → CopyFate) {newSkb : RxSkb}
    (hmem : newSkb ∈
      (tmcsHookLocalOut jhash1word csum fate (net.host skb.saddr).server skb).2) :
    Stems policy d newSkb := by
  obtain ⟨hedge, hcopy⟩ := mem_tmcsHookLocalOut hcsum hmem
  have hmember := (ok.server skb.saddr).members _ _ (isMember_of_memberEdge hedge)
  rw [hstems.same.saddr] at hmember
  refine ⟨hstems.same.trans hcopy.same, hcopy.udp hstems.udp, Or.inr ?_⟩
  rcases hstems.copied with ⟨hd, _⟩ | hway
  · rw [hd] at hmember
    exact .single hmember
  · exact hway.tail hmember

theorem Net.Ok.arrival (hcsum : csum.Incremental) {d skb skb' : RxSkb}
    (hstems : Stems policy d skb) (hcarried : Carried skb skb')
    (hne : (skb'.tmccHookLocalIn jhash2words csum (net.host skb'.daddr).client).2.daddr ≠
      skb'.daddr) :
    Meant policy skb'.daddr d
      (skb'.tmccHookLocalIn jhash2words csum (net.host skb'.daddr).client).2 := by
  have hsame : SameDatagram d skb' := hstems.same.trans hcarried.same
  rcases tmccHookLocalIn_cases jhash2words (net.host skb'.daddr).client hcsum
    (hcarried.checks hstems.udp) with hpass | ⟨multiIp, hdnat, _, htos, hgroup, hchecks⟩
  · exact absurd (congrArg (fun skb : RxSkb => skb.daddr) hpass) hne
  · have hentry := (ok.client skb'.daddr).groupFor hgroup
    rw [hdnat]
    refine ⟨hsame.trans (sameDatagram_dnat csum skb' multiIp), ?_, ?_, ?_⟩
    · rw [hcarried.daddr]
      rcases hstems.copied with ⟨hd, htos'⟩ | hway
      · exact Or.inl ⟨hd.symm, by rw [← htos', ← hcarried.tos, htos]⟩
      · exact Or.inr hway
    · rw [dnat_daddr, ← hsame.saddr, ← hsame.udpDest]
      exact hentry
    · intro hoff hlinear
      rw [← hsame.fragOff] at hoff
      apply hchecks hoff
      have hlen : (skb'.dnat csum multiIp).headlen = skb'.headlen := by
        unfold RxSkb.dnat
        split <;> rfl
      unfold RxSkb.HeaderLinear at hlinear ⊢
      rwa [hlen] at hlinear

theorem Net.Ok.step (hcsum : csum.Incremental) {net' : Net}
    (h : Step jhash1word jhash2words csum (policy.Allows jhash1word) net net') :
    net'.Ok jhash1word jhash2words policy := by
  cases h with
  | serverCommand h hallowed hstep =>
    exact ok.setServer ((ok.server h).command hallowed.1 hallowed.2 hstep)
  | clientCommand h hallowed hstep =>
    exact ok.setClient ((ok.client h).command hallowed hstep)
  | send skb fate hudp =>
    have hself : Stems policy skb skb := ⟨.refl skb, hudp, Or.inl ⟨rfl, rfl⟩⟩
    have hset := ok.setServer ((ok.server skb.saddr).hook csum fate skb)
    refine ⟨hset.server, hset.client, fun p hp => ?_, fun h' p hp hne => ?_⟩
    · rcases List.mem_cons.mp hp with rfl | hp
      · exact ⟨p, List.mem_cons_self, hself⟩
      · rcases List.mem_append.mp hp with hp | hp
        · exact ⟨skb, List.mem_cons_self, ok.copies hcsum hself fate hp⟩
        · obtain ⟨d, hd, hstems⟩ := ok.flying p hp
          exact ⟨d, List.mem_cons_of_mem _ hd, hstems⟩
    · obtain ⟨d, hd, hmeant⟩ := ok.received h' p hp hne
      exact ⟨d, List.mem_cons_of_mem _ hd, hmeant⟩
  | reenter skb fate hmem =>
    obtain ⟨d, hd, hstems⟩ := ok.flying skb hmem
    have hset := ok.setServer ((ok.server skb.saddr).hook csum fate skb)
    refine ⟨hset.server, hset.client, fun p hp => ?_, ok.received⟩
    rcases List.mem_append.mp hp with hp | hp
    · exact ⟨d, hd, ok.copies hcsum hstems fate hp⟩
    · exact ok.flying p hp
  | @arrive skb skb' hmem hcarried =>
    obtain ⟨d, hd, hstems⟩ := ok.flying skb hmem
    have hset := ok.setClient ((ok.client skb'.daddr).hook csum skb')
    refine ⟨hset.server, hset.client, ok.flying, fun h' p hp hne => ?_⟩
    rcases List.mem_cons.mp hp with hnew | hp
    · obtain ⟨rfl, rfl⟩ := Prod.mk.inj hnew
      exact ⟨d, hd, ok.arrival hcsum hstems hcarried hne⟩
    · exact ok.received h' p hp hne

end

theorem Run.ok (hcsum : csum.Incremental) {policy : Policy} {net : Net}
    (h : Run jhash1word jhash2words csum policy net) : net.Ok jhash1word jhash2words policy := by
  induction h with
  | refl => exact Net.init_ok policy
  | tail _ hstep ih => exact ih.step hcsum hstep

/-- Wherever a datagram of this kind may get to, the entries for its sender and port name its own
group. -/
def Policy.Coherent (policy : Policy) (d : RxSkb) : Prop :=
  ∀ h multiIp, Relation.TransGen (policy.member d.saddr) d.daddr h →
    policy.entry h d.saddr (udpDest d.transport) multiIp ∨ policy.entry h d.saddr 0 multiIp →
      multiIp = d.daddr

/-- In every run in which the hosts are given nothing but what the policy has: a packet that a host
took for one to another address is a datagram of an application, sent to a group that reaches this
host or to the host itself with the mark already on it; one of the host's entries for the sender and
the port gave it its destination; and that is the group it was sent to where the policy is coherent
for an unmarked datagram. -/
theorem received_meant (hcsum : csum.Incremental) {policy : Policy} {net : Net}
    (h : Run jhash1word jhash2words csum policy net) {host : UInt32} {skb : RxSkb}
    (hmem : (host, skb) ∈ net.received) (hgroup : skb.daddr ≠ host) :
    ∃ d ∈ net.sent, Meant policy host d skb ∧
      (d.tos ≠ 0xE0 → policy.Coherent d → skb.daddr = d.daddr) := by
  obtain ⟨d, hd, hmeant⟩ := (h.ok hcsum).received host skb hmem hgroup
  refine ⟨d, hd, hmeant, fun htos hcoherent => ?_⟩
  rcases hmeant.way with ⟨_, hmark⟩ | hway
  · exact absurd hmark htos
  · exact hcoherent host skb.daddr hway hmeant.entry

/-! ## A run that gets there -/

/-- Where a host's group has a member whose module knows the group, a datagram to the group can be
sent and come in. -/
theorem exists_delivery (hcsum : csum.Incremental) (allowed : Net → UInt32 → Request → Prop)
    (net : Net) {d : RxSkb} (hudp : d.protocol = ipprotoUdp) (hlen : 8 ≤ d.transport.length)
    (hok : UdpOk d) {memberCnt : Nat} {grpIdx : UInt8} {vmIpList : List UInt32}
    (hlook : KernelServer.lookupMultiNode jhash1word (net.host d.saddr).server.table d.daddr =
      some (memberCnt, grpIdx, vmIpList)) {ip multiIp : UInt32} (hip : ip ∈ vmIpList)
    (hentry : groupFor jhash2words (net.host ip).client.table d.saddr (udpDest d.transport) =
      some multiIp) :
    ∃ net' skb, Relation.ReflTransGen (Step jhash1word jhash2words csum allowed) net net' ∧
      d ∈ net'.sent ∧ (ip, skb) ∈ net'.received ∧ skb.daddr = multiIp := by
  let copy := (markedCopy d).dnat csum ip
  have hcopy : copy ∈ (tmcsHookLocalOut jhash1word csum (fun _ => .sent)
      (net.host d.saddr).server d).2 := by
    rw [tmcsHookLocalOut_sent csum hudp hlen hlook]
    exact List.mem_map_of_mem hip
  have hmade : IsCopy d copy := isCopy_dnat hcsum hlen ip
  obtain ⟨skb, hcarried, _⟩ := exists_carried copy
  have hdaddr : skb.daddr = ip := hcarried.daddr.trans (dnat_daddr csum _ ip)
  have hsame : SameDatagram d skb := hmade.same.trans hcarried.same
  let sent : Net := { net with
    host := net.setServer d.saddr
      (tmcsHookLocalOut jhash1word csum (fun _ => .sent) (net.host d.saddr).server d).1
    sent := d :: net.sent
    flying := d ::
      (tmcsHookLocalOut jhash1word csum (fun _ => .sent) (net.host d.saddr).server d).2 ++
        net.flying }
  have hsend : Step jhash1word jhash2words csum allowed net sent := .send d _ hok
  have hclient : (sent.host skb.daddr).client = (net.host ip).client := by
    simp only [sent, Net.setServer, Function.update_apply, hdaddr]
    split
    · rename_i he
      rw [he]
    · rfl
  have hflying : copy ∈ sent.flying :=
    List.mem_cons_of_mem d (List.mem_append_left net.flying hcopy)
  refine ⟨_, (skb.tmccHookLocalIn jhash2words csum (sent.host skb.daddr).client).2,
    .tail (.single hsend) (.arrive hflying hcarried), List.mem_cons_self, ?_, ?_⟩
  · rw [← hdaddr]
    exact List.mem_cons_self
  · rw [← hsame.saddr, ← hsame.udpDest, ← hclient] at hentry
    rw [tmccHookLocalIn_of_group csum (hsame.protocol.trans hudp) (hcarried.tos.trans hmade.tos)
      (hsame.length.symm ▸ hlen) hentry]
    exact dnat_daddr csum skb multiIp

/-- 10.0.0.1 sends to 225.0.0.1, of which 10.0.0.2 is a member. -/
def onePair : Policy where
  member h g ip := h = 0x0A000001 ∧ g = 0xE1000001 ∧ ip = 0x0A000002
  entry h saddr _ multiIp := h = 0x0A000002 ∧ saddr = 0x0A000001 ∧ multiIp = 0xE1000001

theorem onePair_run : ∃ net skb,
    Run (fun _ _ => 0) (fun _ _ _ => 0) KernelClient.incrementalUpdate onePair net ∧
      (0x0A000002, skb) ∈ net.received ∧ skb.daddr = 0xE1000001 := by
  obtain ⟨s, hjoin, cnt, idx, hfound⟩ := KernelServer.joinMessage_multiNodeInit (fun _ _ => 0)
    0xE1000001 (show [(0x0A000002 : UInt32)].length ≤ KernelServer.multiVmMax by decide)
  obtain ⟨s', hadd, hentry⟩ := KernelClient.addMultiNode_multiNodeInit (fun _ _ _ => 0) 0xE1000001
    0x0A000001 5000
  let joined : Net := { Net.init with
    host := Net.init.setServer 0x0A000001 ⟨s, ⟨0, 0, 0, 0, 0, 0⟩⟩ }
  let ready : Net := { joined with host := joined.setClient 0x0A000002 ⟨s', 0, 0⟩ }
  have hroom : KernelServer.PoolRoom (fun _ _ => 0) KernelServer.multiNodeInit
      (KernelServer.joinMessage 0xE1000001 [0x0A000002]) := fun _ _ => by simp
  have hserver : Step (fun _ _ => 0) (fun _ _ _ => 0) KernelClient.incrementalUpdate
      (onePair.Allows fun _ _ => 0) Net.init joined := by
    refine Step.serverCommand 0x0A000001 ⟨hroom, fun g ip hbrings => ?_⟩ hjoin
    obtain ⟨_, hg, hip⟩ := hbrings
    rw [KernelServer.TmccNlServiceSt.ips_ofList _ _ (by decide)] at hip
    exact ⟨rfl, hg, List.mem_singleton.mp hip⟩
  have hclient : Step (fun _ _ => 0) (fun _ _ _ => 0) KernelClient.incrementalUpdate
      (onePair.Allows fun _ _ => 0) joined ready := by
    have hstep : KernelClient.tmccRcvSkb (fun _ _ _ => 0) (joined.host 0x0A000002).client.table
      (.serviceAdd ⟨5000, 0x0A000001, 0xE1000001⟩) = .ret (0, s') := hadd
    refine Step.clientCommand 0x0A000002 (fun k multiIp hbrings => ?_) hstep
    obtain ⟨rfl, rfl⟩ := hbrings
    exact ⟨rfl, rfl, rfl⟩
  have hgroup : groupFor (fun _ _ _ => 0) s' 0x0A000001 5000 = some 0xE1000001 := by
    simp [groupFor, KernelClient.groupFor, hentry]
  have hudp : groupDatagram.protocol = ipprotoUdp := rfl
  obtain ⟨net, skb, hrun, _, hmem, hdaddr⟩ := exists_delivery
    KernelClient.incrementalUpdate_incremental (onePair.Allows fun _ _ => 0) ready hudp (by decide)
    groupDatagram_udpOk hfound List.mem_cons_self hgroup
  exact ⟨net, skb, (Relation.ReflTransGen.tail (.single hserver) hclient).trans hrun, hmem, hdaddr⟩

/-- What 10.0.0.2 took for a packet to the group was sent by 10.0.0.1. -/
theorem received_meant_onePair : ∃ net host, ∃ d ∈ (net : Net).sent, ∃ skb,
    (host, skb) ∈ net.received ∧ Meant onePair host d skb := by
  obtain ⟨net, skb, hrun, hmem, hdaddr⟩ := onePair_run
  have hne : skb.daddr ≠ 0x0A000002 := by
    rw [hdaddr]
    decide
  obtain ⟨d, hd, hmeant, _⟩ :=
    received_meant KernelClient.incrementalUpdate_incremental hrun hmem hne
  exact ⟨net, _, d, hd, skb, hmem, hmeant⟩

end MulticastProxy.Cloud
