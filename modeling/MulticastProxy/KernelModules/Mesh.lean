import MulticastProxy.KernelModules.AutoMake
import MulticastProxy.KernelModules.PacketPath
import MulticastProxy.KernelClient.Service
import MulticastProxy.KernelServer.Service

/-!
# Kernel modules: hosts set up from one list

Both scripts make the configs of a host from the same list, and both services are restarted with
them. How json-c reads a port that a script wrote as a string is a parameter.
-/

namespace MulticastProxy.AutoMake

set_option autoImplicit false

open DottedQuad FirstOccurrences
open KernelClient (CsumUpdate RxSkb)

/-! ## The files -/

/-- An object of the array as the tools read it. -/
def Server.ServerInfo.toGrpObj (serverInfo : Server.ServerInfo) : KernelServer.GrpObj :=
  ⟨serverInfo.groupIp, serverInfo.memberArray⟩

/-- The file that the script writes where there was none. -/
def Server.newConfig (localVmip : Text) (lines : List Text) : Option KernelServer.Config :=
  (Server.getInfoFromConf none localVmip lines).map fun found =>
    some (found.2.map Server.ServerInfo.toGrpObj)

def Client.ServerInfo.toGrpObj (jsonObjectGetInt : Text → Nat) (serverInfo : Client.ServerInfo) :
    KernelClient.GrpObj :=
  ⟨serverInfo.serverIp, serverInfo.groupIp, jsonObjectGetInt serverInfo.clientPort⟩

def Client.newConfig (jsonObjectGetInt : Text → Nat) (localVmip : Text) (lines : List Text) :
    Option KernelClient.Config :=
  (Client.getInfoFromConf none localVmip lines).map fun serverInfoArray =>
    some (serverInfoArray.map (Client.ServerInfo.toGrpObj jsonObjectGetInt))

/-- Distinct unicast addresses, so few that a command with all but one of them fits the buffer, and
none with its text in another's. -/
structure IpList.Mesh (file : IpList) : Prop where
  nodup : file.addresses.Nodup
  size : file.addresses.length ≤ 254
  unicast : ∀ ip ∈ file.addresses, isMulticast ip = false
  apart : ∀ ip ∈ file.addresses, ∀ ip' ∈ file.addresses, ip' ≠ ip →
    ¬ inetNtoa ip <:+: inetNtoa ip'

/-- The two services of a host. -/
structure Host where
  server : Service KernelServer.Config KernelServer.State
  client : Service KernelClient.Config KernelClient.State

section
variable (jhash1word : UInt32 → UInt32 → UInt32) (jhash2words : UInt32 → UInt32 → UInt32 → UInt32)
variable (jsonObjectGetInt : Text → Nat)

/-- Both scripts run on a host that has no running configs, and both services are restarted. -/
structure SetUp (file : IpList) (ip : UInt32) (old new : Host) : Prop where
  fresh : old.server.running = none ∧ old.client.running = none
  server : ∃ cfg, Server.newConfig (inetNtoa ip) file.lines = some cfg ∧
    { old.server with running := some cfg }.restart (KernelServer.recover jhash1word) =
      .ret new.server
  client : ∃ cfg, Client.newConfig jsonObjectGetInt (inetNtoa ip) file.lines = some cfg ∧
    { old.client with running := some cfg }.restart (KernelClient.recover jhash2words) =
      .ret new.client

end

/-- A whole datagram of a listed host to the group. -/
structure IpList.Datagram (file : IpList) (d : RxSkb) : Prop where
  saddr : d.saddr ∈ file.addresses
  daddr : d.daddr = file.multiIp
  port : udpDest d.transport = file.multiPort ∨ file.multiPort = 0
  protocol : d.protocol = ipprotoUdp
  length : 8 ≤ d.transport.length
  whole : d.fragOff &&& ipOffset = 0
  udpOk : UdpOk d

/-! ## What the list leaves for one host -/

section
variable {file : IpList}

theorem IpList.Mesh.kept_eq (mesh : file.Mesh) {ip : UInt32} (hin : ip ∈ file.addresses) :
    kept ip file.addresses = others ip file.addresses :=
  (kept_eq_others_iff ip file.addresses).mpr (mesh.apart ip hin)

theorem mem_others {localIp ip : UInt32} {ips : List UInt32} :
    ip ∈ others localIp ips ↔ ip ∈ ips ∧ ip ≠ localIp := by
  rw [others, List.mem_filter, decide_eq_true_iff]

theorem IpList.Mesh.nodup_others (mesh : file.Mesh) (ip : UInt32) :
    (others ip file.addresses).Nodup :=
  mesh.nodup.filter _

theorem IpList.Mesh.length_others (mesh : file.Mesh) {ip : UInt32} (hin : ip ∈ file.addresses) :
    (others ip file.addresses).length ≤ 253 := by
  have hless : (others ip file.addresses).length < file.addresses.length := by
    apply List.length_filter_lt_length_iff_exists.mpr
    exact ⟨ip, hin, by simp⟩
  have hsize := mesh.size
  omega

theorem IpList.Mesh.groupsOk (mesh : file.Mesh) {ip : UInt32} (hin : ip ∈ file.addresses) :
    KernelServer.GroupsOk [(file.multiIp, others ip file.addresses)] where
  keys := List.nodup_singleton _
  size := by
    have hmax : KernelServer.multiGrpMax = 1024 := rfl
    rw [List.length_singleton, hmax]
    omega
  members p hp := by
    obtain rfl := List.mem_singleton.mp hp
    have hlen := mesh.length_others hin
    refine ⟨mesh.nodup_others ip, hlen.trans (by decide), ?_⟩
    intro member hmember
    exact mesh.unicast member (mem_others.mp hmember).1

end

/-! ## The server of one host -/

section
variable {file : IpList} (mesh : file.Mesh) {ip : UInt32} (hin : ip ∈ file.addresses)
include mesh hin

theorem IpList.Mesh.server_newConfig :
    Server.newConfig (inetNtoa ip) file.lines =
      some (some (KernelServer.encode [(file.multiIp, others ip file.addresses)])) := by
  have hinfo := Server.getInfoFromConf_eq none ip file
  rw [mesh.kept_eq hin] at hinfo
  unfold Server.newConfig
  unfold Server.getInfoFromConf at hinfo ⊢
  cases hread : Server.readLines (inetNtoa ip) file.lines 0 ⟨[], []⟩ with
  | none =>
    rw [hread] at hinfo
    cases hinfo
  | some serverInfo =>
    rw [hread] at hinfo
    obtain rfl := Option.some.inj hinfo
    rfl

variable {jhash1word : UInt32 → UInt32 → UInt32}

theorem IpList.Mesh.server_restart (old : Service KernelServer.Config KernelServer.State) :
    ∃ running saved s, { old with
        running := some (some (KernelServer.encode [(file.multiIp, others ip file.addresses)]))
      }.restart (KernelServer.recover jhash1word) = .ret ⟨running, saved, some s⟩ ∧
      KernelServer.membersOf jhash1word s file.multiIp = some (others ip file.addresses) := by
  have ok := mesh.groupsOk hin
  have hprint : KernelServer.Printable
      (some (KernelServer.encode [(file.multiIp, others ip file.addresses)])) := by
    apply KernelServer.printable_of_length_le
    intro p hp
    obtain rfl := List.mem_singleton.mp hp
    exact mesh.length_others hin
  have hfew : [(file.multiIp, others ip file.addresses)].length ≤ 256 := by simp
  have hsaved : (some (some (KernelServer.encode
      [(file.multiIp, others ip file.addresses)]))).join.getD [] =
        KernelServer.encode [(file.multiIp, others ip file.addresses)] := rfl
  obtain ⟨running, s, hrecover, _, hloaded⟩ := KernelServer.recover_loaded ok hfew hsaved hprint
  refine ⟨running, _, s, Service.restart_of_recover hrecover, ?_⟩
  rw [hloaded.members, AssocList.get_cons, if_pos rfl]

end

/-! ## The client of one host -/

/-- An entry for each server. -/
def IpList.entries (file : IpList) (ips : List UInt32) : KernelClient.Entries :=
  ips.map fun server => ((server, file.multiPort), file.multiIp)

section
variable {file : IpList}

theorem IpList.keys_entries (file : IpList) (ips : List UInt32) :
    (file.entries ips).map Prod.fst = ips.map fun server => (server, file.multiPort) := by
  rw [IpList.entries, List.map_map]
  rfl

theorem IpList.get_entries (file : IpList) {ips : List UInt32} {server : UInt32}
    (h : server ∈ ips) :
    AssocList.get (file.entries ips) (server, file.multiPort) = some file.multiIp := by
  induction ips with
  | nil => cases h
  | cons ip ips ih =>
    rw [IpList.entries, List.map_cons, AssocList.get_cons]
    by_cases heq : ip = server
    · rw [heq, if_pos rfl]
    · rw [if_neg (fun hkey => heq (congrArg Prod.fst hkey))]
      exact ih ((List.mem_cons.mp h).resolve_left (Ne.symm heq))

theorem IpList.get_entries_port (file : IpList) (ips : List UInt32) (server : UInt32)
    {port : UInt16} (h : port ≠ file.multiPort) :
    AssocList.get (file.entries ips) (server, port) = none := by
  rw [AssocList.get_eq_none_iff, IpList.keys_entries]
  intro hin
  obtain ⟨_, _, hkey⟩ := List.mem_map.mp hin
  exact h (congrArg Prod.snd hkey).symm

end

section
variable {file : IpList} (mesh : file.Mesh) {ip : UInt32}
include mesh

theorem IpList.Mesh.loadable (hin : ip ∈ file.addresses)
    (jhash2words : UInt32 → UInt32 → UInt32 → UInt32) :
    KernelClient.Loadable jhash2words
      ((file.entries (others ip file.addresses)).map Prod.fst) := by
  have hlen := mesh.length_others hin
  have hmax : KernelClient.multiGrpMax = 1024 := rfl
  rw [IpList.keys_entries]
  refine ⟨?_, ?_, ?_⟩
  · apply (mesh.nodup_others ip).map
    intro server server' hkey
    exact congrArg Prod.fst hkey
  · rw [List.length_map, hmax]
    omega
  · intro b
    have hfilter := List.length_filter_le
      (fun k => decide (KernelClient.bucketOf jhash2words k = b))
      ((others ip file.addresses).map fun server => (server, file.multiPort))
    rw [List.length_map] at hfilter
    omega

variable {jsonObjectGetInt : Text → Nat}
  (hint : ∀ n < 2 ^ 31, jsonObjectGetInt (Nat.toDigits 10 n) = n) (hin : ip ∈ file.addresses)
include hint hin

theorem IpList.Mesh.client_newConfig :
    Client.newConfig jsonObjectGetInt (inetNtoa ip) file.lines =
      some (some ((file.entries (others ip file.addresses)).map KernelClient.GrpObj.ofEntry)) := by
  have hport : jsonObjectGetInt file.port = file.multiPort.toNat := by
    apply hint
    have hlt := file.multiPort.toNat_lt
    omega
  have hnodup : ((others ip file.addresses).map fun server =>
      Client.ServerInfo.mk (inetNtoa server) (inetNtoa file.multiIp) file.port).Nodup := by
    apply (mesh.nodup_others ip).map
    intro server server' heq
    exact inetNtoa_injective (congrArg Client.ServerInfo.serverIp heq)
  unfold Client.newConfig
  rw [Client.getInfoFromConf_eq, mesh.kept_eq hin, Option.getD_none, List.nil_append, fresh_of_nil,
    eraseDups_of_nodup hnodup, Option.map_some, List.map_map, IpList.entries, List.map_map]
  congr 2
  apply List.map_congr_left
  intro server _
  simp only [Function.comp, Client.ServerInfo.toGrpObj, hport]
  rfl

omit hint in
theorem IpList.Mesh.client_restart {jhash2words : UInt32 → UInt32 → UInt32 → UInt32}
    (old : Service KernelClient.Config KernelClient.State) :
    ∃ running saved c, { old with
        running := some (some ((file.entries (others ip file.addresses)).map
          KernelClient.GrpObj.ofEntry))
      }.restart (KernelClient.recover jhash2words) = .ret ⟨running, saved, some c⟩ ∧
      KernelClient.entry jhash2words c =
        AssocList.get (file.entries (others ip file.addresses)) := by
  have hsaved : (some (some ((file.entries (others ip file.addresses)).map
      KernelClient.GrpObj.ofEntry))).join.getD [] =
        (file.entries (others ip file.addresses)).map KernelClient.GrpObj.ofEntry := rfl
  obtain ⟨running, c, hrecover, _, sim⟩ :=
    KernelClient.recover_loadable (mesh.loadable hin jhash2words) hsaved
  exact ⟨running, _, c, Service.restart_of_recover hrecover, sim.maps.symm⟩

end

/-! ## All hosts -/

section
variable {jhash1word : UInt32 → UInt32 → UInt32} {jhash2words : UInt32 → UInt32 → UInt32 → UInt32}
variable {jsonObjectGetInt : Text → Nat} {file : IpList} {ip : UInt32} {old new : Host}
variable (mesh : file.Mesh) (hin : ip ∈ file.addresses)
include mesh hin

/-- What the restarted modules hold. -/
theorem SetUp.tables (hint : ∀ n < 2 ^ 31, jsonObjectGetInt (Nat.toDigits 10 n) = n)
    (h : SetUp jhash1word jhash2words jsonObjectGetInt file ip old new) :
    ∃ s c, new.server.table = some s ∧ new.client.table = some c ∧
      KernelServer.membersOf jhash1word s file.multiIp = some (others ip file.addresses) ∧
      KernelClient.entry jhash2words c =
        AssocList.get (file.entries (others ip file.addresses)) := by
  obtain ⟨_, ⟨scfg, hscfg, hserver⟩, ⟨ccfg, hccfg, hclient⟩⟩ := h
  rw [mesh.server_newConfig hin] at hscfg
  rw [mesh.client_newConfig hint hin] at hccfg
  obtain rfl := Option.some.inj hscfg
  obtain rfl := Option.some.inj hccfg
  obtain ⟨srunning, ssaved, s, hs, hmembers⟩ := mesh.server_restart hin old.server
  obtain ⟨crunning, csaved, c, hc, hentries⟩ := mesh.client_restart hin old.client
  rw [hs] at hserver
  rw [hc] at hclient
  refine ⟨s, c, ?_, ?_, hmembers, hentries⟩
  · rw [← Outcome.ret.inj hserver]
  · rw [← Outcome.ret.inj hclient]

theorem IpList.Mesh.exists_setUp (hint : ∀ n < 2 ^ 31, jsonObjectGetInt (Nat.toDigits 10 n) = n)
    (hfresh : old.server.running = none ∧ old.client.running = none) :
    ∃ new, SetUp jhash1word jhash2words jsonObjectGetInt file ip old new := by
  obtain ⟨_, _, _, hs, _⟩ := mesh.server_restart hin old.server
  obtain ⟨_, _, _, hc, _⟩ := mesh.client_restart hin old.client
  exact ⟨⟨_, _⟩, hfresh, ⟨_, mesh.server_newConfig hin, hs⟩,
    ⟨_, mesh.client_newConfig hint hin, hc⟩⟩

end

/-- An entry for the listed port, or for all ports, is the one that is found. -/
theorem IpList.Datagram.groupFor {file : IpList} {d : RxSkb} (hd : file.Datagram d)
    {jhash2words : UInt32 → UInt32 → UInt32 → UInt32} {c : KernelClient.State} {ips : List UInt32}
    (hentries : KernelClient.entry jhash2words c = AssocList.get (file.entries ips))
    (hips : d.saddr ∈ ips) :
    KernelClient.groupFor jhash2words c d.saddr (udpDest d.transport) = some d.daddr := by
  have hfound := file.get_entries hips
  rw [KernelClient.groupFor, hentries, hd.daddr]
  by_cases hport : udpDest d.transport = file.multiPort
  · rw [hport, hfound]
    rfl
  · have hzero := hd.port.resolve_left hport
    rw [file.get_entries_port ips d.saddr hport, ← hzero, hfound]
    rfl

/-- Where the scripts set up every host of a list, the group works: a listed host's datagram goes to
each of the others, once and in the order of the list, and comes in as it was sent. -/
theorem mesh_delivers (jhash1word : UInt32 → UInt32 → UInt32)
    (jhash2words : UInt32 → UInt32 → UInt32 → UInt32) {csum : CsumUpdate}
    (hcsum : csum.Incremental) {jsonObjectGetInt : Text → Nat}
    (hint : ∀ n < 2 ^ 31, jsonObjectGetInt (Nat.toDigits 10 n) = n) {file : IpList}
    (mesh : file.Mesh) {old : UInt32 → Host}
    (hfresh : ∀ ip ∈ file.addresses,
      (old ip).server.running = none ∧ (old ip).client.running = none) :
    (∀ ip ∈ file.addresses,
      ∃ new, SetUp jhash1word jhash2words jsonObjectGetInt file ip (old ip) new) ∧
    ∀ (new : UInt32 → Host) (server : UInt32 → KernelServer.Module)
      (client : UInt32 → KernelClient.Module),
      (∀ ip ∈ file.addresses,
        SetUp jhash1word jhash2words jsonObjectGetInt file ip (old ip) (new ip) ∧
        (new ip).server.table = some (server ip).table ∧
        (new ip).client.table = some (client ip).table) →
      ∀ d, file.Datagram d →
        let copies := (tmcsHookLocalOut jhash1word csum (fun _ => .sent) (server d.saddr) d).2
        (copies.map fun copy => copy.daddr) = others d.saddr file.addresses ∧
        ∀ copy ∈ copies, ∀ skb, Carried copy skb → skb.HeaderLinear →
          let taken := (skb.tmccHookLocalIn jhash2words csum (client skb.daddr)).2
          SameDatagram d taken ∧ taken.daddr = d.daddr ∧ taken.tos = 0xE0 ∧
            taken.ttl = skb.ttl ∧ taken.ChecksumsOk := by
  constructor
  · intro ip hin
    exact mesh.exists_setUp hin hint (hfresh ip hin)
  intro new server client hsetUp d hd
  have htables : ∀ ip ∈ file.addresses,
      KernelServer.membersOf jhash1word (server ip).table file.multiIp =
        some (others ip file.addresses) ∧
      KernelClient.entry jhash2words (client ip).table =
        AssocList.get (file.entries (others ip file.addresses)) := by
    intro ip hin
    obtain ⟨hset, hserver, hclient⟩ := hsetUp ip hin
    obtain ⟨s, c, hs, hc, hmembers, hentries⟩ := hset.tables mesh hin hint
    rw [hserver] at hs
    rw [hclient] at hc
    obtain rfl := Option.some.inj hs
    obtain rfl := Option.some.inj hc
    exact ⟨hmembers, hentries⟩
  have hmembers := (htables d.saddr hd.saddr).1
  rw [← KernelServer.lookupMultiNode_members, ← hd.daddr, Option.map_eq_some_iff] at hmembers
  obtain ⟨⟨memberCnt, grpIdx, vmIpList⟩, hlook, hlist⟩ := hmembers
  obtain rfl : vmIpList = others d.saddr file.addresses := hlist
  have hsent := tmcsHookLocalOut_sent csum hd.protocol hd.length hlook
  intro copies
  have hcopies : copies = (others d.saddr file.addresses).map fun vmIp =>
      (markedCopy d).dnat csum vmIp := hsent
  rw [hcopies]
  refine ⟨map_daddr_copies csum d _, ?_⟩
  intro copy hcopy skb hcarried hlinear
  obtain ⟨vmIp, hvm, rfl⟩ := List.mem_map.mp hcopy
  obtain ⟨hlisted, hother⟩ := mem_others.mp hvm
  have hdaddr : skb.daddr = vmIp := hcarried.daddr.trans (dnat_daddr csum _ vmIp)
  have hsender : d.saddr ∈ others vmIp file.addresses := mem_others.mpr ⟨hd.saddr, hother.symm⟩
  rw [hdaddr]
  exact taken_of_carried hcsum hd.protocol hd.length hd.whole hd.udpOk
    (isCopy_dnat hcsum hd.length vmIp) hcarried hlinear
    (hd.groupFor (htables vmIp hlisted).2 hsender)

/-- Three hosts of one group, and a comment. -/
def threeHosts : IpList where
  comments := ["# Line2-n ip\n".toList]
  hash := by decide
  multiIp := 0xE1000001
  multiPort := 5000
  newline := true
  hosts := [.host 0x0A000001 true, .host 0x0A000002 true, .host 0x0A000003 false]

theorem threeHosts_addresses : threeHosts.addresses = [0x0A000001, 0x0A000002, 0x0A000003] := rfl

theorem threeHosts_mesh : threeHosts.Mesh where
  nodup := by decide
  size := by decide
  unicast := by
    rw [threeHosts_addresses]
    intro ip hip
    fin_cases hip <;> rfl
  apart := by
    rw [threeHosts_addresses]
    intro ip hip ip' hip' hne
    fin_cases hip <;> fin_cases hip' <;> first | exact absurd rfl hne | decide

/-- The number that a text begins with. -/
def leadingInt (text : Text) : Nat := Nat.ofDigitChars 10 (text.takeWhile Char.isDigit) 0

theorem leadingInt_toDigits (n : Nat) : leadingInt (Nat.toDigits 10 n) = n := by
  have hdigits : (Nat.toDigits 10 n).takeWhile Char.isDigit = Nat.toDigits 10 n := by
    apply List.takeWhile_eq_self_iff.mpr
    intro ch hch
    exact Nat.isDigit_of_mem_toDigits (by decide) (by decide) hch
  rw [leadingInt, hdigits, Nat.ofDigitChars_ten_toDigits]

theorem mesh_delivers_three :
    ∃ (server : UInt32 → KernelServer.Module) (client : UInt32 → KernelClient.Module),
      ((tmcsHookLocalOut (fun _ _ => 0) KernelClient.incrementalUpdate (fun _ => .sent)
        (server 0x0A000001) groupDatagram).2.map fun copy => copy.daddr) =
          [0x0A000002, 0x0A000003] ∧
      ∀ copy ∈ (tmcsHookLocalOut (fun _ _ => 0) KernelClient.incrementalUpdate (fun _ => .sent)
        (server 0x0A000001) groupDatagram).2, ∃ skb, Carried copy skb ∧
          (skb.tmccHookLocalIn (fun _ _ _ => 0) KernelClient.incrementalUpdate
            (client skb.daddr)).2.daddr = 0xE1000001 := by
  have hint : ∀ n < 2 ^ 31, leadingInt (Nat.toDigits 10 n) = n := fun n _ => leadingInt_toDigits n
  let old : UInt32 → Host := fun _ => ⟨⟨none, none, none⟩, ⟨none, none, none⟩⟩
  have hfresh : ∀ ip ∈ threeHosts.addresses,
      (old ip).server.running = none ∧ (old ip).client.running = none := fun _ _ => ⟨rfl, rfl⟩
  obtain ⟨hexists, hdelivers⟩ := mesh_delivers (fun _ _ => 0) (fun _ _ _ => 0)
    KernelClient.incrementalUpdate_incremental hint threeHosts_mesh hfresh
  have _ : Nonempty Host := ⟨old 0⟩
  have _ : Nonempty KernelServer.State := ⟨KernelServer.multiNodeInit⟩
  have _ : Nonempty KernelClient.State := ⟨KernelClient.multiNodeInit⟩
  choose! new hnew using hexists
  have htables : ∀ ip ∈ threeHosts.addresses, ∃ s c,
      (new ip).server.table = some s ∧ (new ip).client.table = some c := by
    intro ip hin
    obtain ⟨s, c, hs, hc, _⟩ := (hnew ip hin).tables threeHosts_mesh hin hint
    exact ⟨s, c, hs, hc⟩
  choose! s c hs using htables
  have hd : threeHosts.Datagram groupDatagram :=
    ⟨by decide, rfl, by decide, rfl, by decide, by decide, groupDatagram_udpOk⟩
  obtain ⟨hmap, htaken⟩ := hdelivers new (fun ip => ⟨s ip, ⟨0, 0, 0, 0, 0, 0⟩⟩)
    (fun ip => ⟨c ip, 0, 0⟩) (fun ip hin => ⟨hnew ip hin, hs ip hin⟩) groupDatagram hd
  have hothers : others groupDatagram.saddr threeHosts.addresses = [0x0A000002, 0x0A000003] := rfl
  refine ⟨fun ip => ⟨s ip, ⟨0, 0, 0, 0, 0, 0⟩⟩, fun ip => ⟨c ip, 0, 0⟩, hmap.trans hothers, ?_⟩
  intro copy hcopy
  obtain ⟨skb, hcarried, hhead⟩ := exists_carried copy
  have hlinear : skb.HeaderLinear := by
    obtain ⟨_, hcopyOf⟩ := mem_tmcsHookLocalOut KernelClient.incrementalUpdate_incremental hcopy
    rw [RxSkb.HeaderLinear, hhead, hcopyOf.same.length]
    decide
  exact ⟨skb, hcarried, (htaken copy hcopy skb hcarried hlinear).2.1⟩

end MulticastProxy.AutoMake
