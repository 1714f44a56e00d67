import MulticastProxy.Common.Address
import MulticastProxy.Common.Service
import MulticastProxy.Library.CString
import MulticastProxy.WinServer.Lookup

/-!
# Windows proxy: config file (`proxy_server/config.c`)

`cfg_init` fills the group table and prints the filter of the capture threads, one port after the
other, into an array of 1024 characters. libc's `inet_addr` is a parameter.
-/

namespace MulticastProxy.WinServer

set_option autoImplicit false

open CharBuffer

abbrev filterStringSize : Nat := 1024
abbrev maxGroup : Nat := 512

structure GrpObj where
  groupIp : List Char
  groupPort : UInt32
  serverPort : UInt32
  memberArray : List (List Char)
  deriving DecidableEq, Repr

section
variable (inetAddr : List Char → UInt32)

/-- The loop over the members of one group. A store behind `ip_list_int` is a fault. -/
def readMembers : List (List Char) → Nat → (Nat → UInt32) → Outcome (Nat → UInt32)
  | [], _, ipListInt => .ret ipListInt
  | ip :: ips, j, ipListInt =>
    if j < maxMemIpInGroup then
      readMembers ips (j + 1) (Function.update ipListInt j (inetAddr ip))
    else .fault

/-- `port %u`. -/
def portText (port : UInt32) : List Char := "port ".toList ++ Nat.toDigits 10 port.toNat

/-- What `cfg_init` works on: the caller's array, the filter text and the table. -/
structure CfgState where
  groupIpArr : Nat → UInt32
  filter : List Char
  table : State

/-- The loop over the groups from the `i`th on. -/
def cfgLoop : List GrpObj → Nat → CfgState → Outcome CfgState
  | [], _, c => .ret c
  | grpObj :: grpArray, i, c =>
    if i < maxGroup then do
      let groupIpArr := Function.update c.groupIpArr i (inetAddr grpObj.groupIp)
      let filter ← sprintf filterStringSize c.filter
        (if i = 0 then portText grpObj.groupPort else " or ".toList ++ portText grpObj.groupPort)
      let ipListInt ← readMembers inetAddr grpObj.memberArray 0 fun _ => 0
      let (_, table) ← addMultiNode c.table (inetAddr grpObj.groupIp) grpObj.groupPort.toUInt16
        grpObj.serverPort.toUInt16 ipListInt (UInt8.ofNat grpObj.memberArray.length)
      cfgLoop grpArray (i + 1) ⟨groupIpArr, filter, table⟩
    else .fault

/-- Return code and `groupNum`, then the rest. -/
def cfgInit (file : CfgFile GrpObj) (groupNum : Nat) (c : CfgState) :
    Outcome (Int × Nat × CfgState) :=
  match file with
  | .array grpArray => do
    let c ← cfgLoop inetAddr grpArray 0 { c with filter := [] }
    .ret (0, grpArray.length, c)
  | _ => .ret (-1, groupNum, c)

end

/-! ## Calls that return -/

variable {inetAddr : List Char → UInt32}

theorem readMembers_returns (ips : List (List Char)) {j : Nat} (ipListInt : Nat → UInt32)
    (hfit : j + ips.length ≤ maxMemIpInGroup) :
    ∃ l, readMembers inetAddr ips j ipListInt = .ret l := by
  induction ips generalizing j ipListInt with
  | nil => exact ⟨ipListInt, rfl⟩
  | cons ip ips ih =>
    rw [List.length_cons] at hfit
    rw [readMembers, if_pos (by omega)]
    exact ih _ (by omega)

/-- The groups that the table can hold, and counts that a row can hold. -/
structure Loading (keys : Finset (UInt32 × UInt16)) (s : State) : Prop where
  wf : WellFormed s
  keys : ∀ g node, nodeOf s g = some node → g ∈ keys ∧ node.multiMemberCnt ≤ multiVmMax

theorem loading_init : Loading ∅ multiNodeInit where
  wf := multiNodeInit_wellFormed
  keys := by
    intro g node hnode
    rw [nodeOf_multiNodeInit] at hnode
    cases hnode

theorem addVmIpList_returns (multiVm : Nat → Nat → UInt32) (idx : UInt8) (ipList : Nat → UInt32)
    (ipNum : UInt8) {oldIpNum : Nat} (hold : oldIpNum ≤ multiVmMax) : ∃ ret multiVm' cnt,
    addVmIpList multiVm idx ipList ipNum.toNat oldIpNum = .ret (ret, multiVm', cnt) ∧
      cnt ≤ multiVmMax := by
  have hnum := ipNum.toNat_lt
  have hvm : multiVmMax = 128 := rfl
  rw [addVmIpList, Nat.mod_eq_of_lt (by omega)]
  split
  · exact ⟨_, _, _, rfl, hold⟩
  · have hroom : oldIpNum + ipNum.toNat ≤ multiVmMax := by omega
    obtain ⟨row, k, hloop⟩ := addVmIpLoop_returns ipList oldIpNum 0 (multiVm idx.toNat) hroom
    obtain ⟨_, _, hk, _⟩ := addVmIpLoop_ret (Nat.le_refl oldIpNum) hloop
    rw [hloop]
    exact ⟨_, _, _, rfl, hk hold⟩

theorem addVmIpList_le {multiVm multiVm' : Nat → Nat → UInt32} {idx : UInt8}
    {ipList : Nat → UInt32} {ipNum : UInt8} {oldIpNum cnt : Nat} {ret : Int}
    (hold : oldIpNum ≤ multiVmMax)
    (h : addVmIpList multiVm idx ipList ipNum.toNat oldIpNum = .ret (ret, multiVm', cnt)) :
    cnt ≤ multiVmMax := by
  obtain ⟨_, _, _, hret, hle⟩ := addVmIpList_returns multiVm idx ipList ipNum hold
  rw [hret] at h
  cases h
  exact hle

section
variable {keys : Finset (UInt32 × UInt16)} {s : State} (h : Loading keys s)

include h

/-- A node is stored under a key, with a count that the row can hold. -/
theorem Loading.update {s' : State} (wf : WellFormed s') {g : UInt32 × UInt16} {node : MultiNode}
    (hnodes : nodeOf s' = Function.update (nodeOf s) g (some node))
    (hnode : node.multiMemberCnt ≤ multiVmMax) : Loading (insert g keys) s' := by
  refine ⟨wf, ?_⟩
  intro g' node' hfound
  rw [hnodes, Function.update_apply] at hfound
  split at hfound
  · rename_i heq
    obtain rfl := Option.some.inj hfound
    exact ⟨heq ▸ Finset.mem_insert_self g keys, hnode⟩
  · obtain ⟨hin, hcnt⟩ := h.keys g' node' hfound
    exact ⟨Finset.mem_insert_of_mem hin, hcnt⟩

/-- With fewer than 256 groups there is a free cell in each bucket. -/
theorem Loading.addMultiNode_returns (hfew : keys.card < 256) (multiIp : UInt32)
    (multiPort serverPort : UInt16) (ipList : Nat → UInt32) (ipNum : UInt8) :
    ∃ result, addMultiNode s multiIp multiPort serverPort ipList ipNum = .ret result := by
  unfold addMultiNode
  cases hrow : rawLookupMultiNode s multiIp multiPort with
  | some row =>
    have hnode : nodeOf s (multiIp, multiPort) =
        some (s.multiGrp (mulitHashKey multiIp multiPort multiGrpBucket) row) := by
      have hfind : layout.find s.multiGrp _ = some row := hrow
      rw [nodeOf, BucketLayout.content, hfind]
      rfl
    obtain ⟨ret, multiVm, cnt, hadd, _⟩ :=
      addVmIpList_returns s.multiVm _ ipList ipNum (h.keys _ _ hnode).2
    simp only
    rw [hadd]
    exact ⟨_, rfl⟩
  | none =>
    simp only
    cases hget : getIdx multiGrpMax s.gBitmap with
    | none => exact ⟨_, rfl⟩
    | some p =>
      obtain ⟨idx, gBitmap⟩ := p
      simp only
      rcases searchCell s (mulitHashKey multiIp multiPort multiGrpBucket) with
        ⟨i, _, hs, _⟩ | ⟨_, hall⟩
      · obtain ⟨ret, multiVm, cnt, hadd, _⟩ := addVmIpList_returns s.multiVm
          (UInt8.ofNat idx) ipList ipNum (Nat.zero_le _)
        rw [hs]
        simp only
        rw [hadd]
        exact ⟨_, rfl⟩
      · have hkeys : ∀ i, layout.live
            (s.multiGrp (mulitHashKey multiIp multiPort multiGrpBucket) i) = true →
            layout.key (s.multiGrp (mulitHashKey multiIp multiPort multiGrpBucket) i) ∈ keys :=
          fun i hlive => (h.keys _ _ (BucketLayout.WellFormed.content_of_cell h.wf hlive)).1
        obtain ⟨i, hi, hfree⟩ := BucketLayout.WellFormed.exists_free_of_keys h.wf hkeys hfew
        exact absurd (hall i hi) (by rw [show (s.multiGrp _ i).created = false from hfree]; simp)

theorem Loading.next {s' : State} {multiIp : UInt32} {multiPort serverPort : UInt16}
    {ipList : Nat → UInt32} {ipNum : UInt8} {code : Int}
    (hret : addMultiNode s multiIp multiPort serverPort ipList ipNum = .ret (code, s')) :
    Loading (insert (multiIp, multiPort) keys) s' := by
  cases hnode : nodeOf s (multiIp, multiPort) with
  | some node =>
    obtain ⟨_, _, hadd, hwf, hnodes, _⟩ := addMultiNode_found h.wf hret hnode
    exact h.update hwf hnodes (addVmIpList_le (h.keys _ _ hnode).2 hadd)
  | none =>
    rcases addMultiNode_fresh h.wf hret hnode with
      rfl | ⟨_, _, _, _, _, _, hadd, hwf, hnodes, _⟩
    · exact ⟨h.wf, fun g node hfound => ⟨Finset.mem_insert_of_mem (h.keys g node hfound).1,
        (h.keys g node hfound).2⟩⟩
    · exact h.update hwf hnodes (addVmIpList_le (Nat.zero_le _) hadd)

end

/-! ## The filter -/

/-- The disjunction of all ports, in order. -/
def filterText (ports : List UInt32) : List Char :=
  List.intercalate " or ".toList (ports.map portText)

/-- The text that the rounds from the `i`th on print. -/
def appended (i : Nat) (ports : List UInt32) : List Char :=
  match i with
  | 0 => filterText ports
  | _ + 1 => ports.flatMap fun port => " or ".toList ++ portText port

theorem filterText_cons (port : UInt32) (ports : List UInt32) :
    filterText (port :: ports) = portText port ++ appended 1 ports := by
  induction ports generalizing port with
  | nil =>
    rw [filterText, List.map_singleton, List.intercalate_singleton, appended, List.flatMap_nil,
      List.append_nil]
  | cons next ports ih =>
    have hrest := ih next
    unfold filterText at hrest ⊢
    rw [List.map_cons, List.map_cons, List.intercalate_cons_cons, ← List.map_cons, hrest, appended,
      appended, List.flatMap_cons, List.append_assoc, List.append_assoc]

theorem appended_cons (i : Nat) (port : UInt32) (ports : List UInt32) :
    appended i (port :: ports) =
      (if i = 0 then portText port else " or ".toList ++ portText port) ++
        appended (i + 1) ports := by
  cases i with
  | zero => exact filterText_cons port ports
  | succ i => rw [appended, List.flatMap_cons, if_neg (Nat.succ_ne_zero i), appended]

/-- No group, or a text of at most 1023 characters: five for each `port `, four between two of them,
and the digits. -/
def FilterFits (ports : List UInt32) : Prop :=
  ports = [] ∨ 9 * ports.length - 4 +
    (ports.map fun port => (Nat.toDigits 10 port.toNat).length).sum < filterStringSize

theorem length_portText (port : UInt32) :
    (portText port).length = 5 + (Nat.toDigits 10 port.toNat).length := by
  rw [portText, List.length_append]
  rfl

theorem length_appended_one (ports : List UInt32) : (appended 1 ports).length =
    9 * ports.length + (ports.map fun port => (Nat.toDigits 10 port.toNat).length).sum := by
  induction ports with
  | nil => rfl
  | cons port ports ih =>
    have hor : " or ".toList.length = 4 := rfl
    rw [appended] at ih ⊢
    rw [List.flatMap_cons, List.length_append, ih, List.length_append, length_portText,
      List.length_cons, List.map_cons, List.sum_cons, hor]
    omega

theorem filterFits_iff (ports : List UInt32) :
    (filterText ports).length < filterStringSize ↔ FilterFits ports := by
  unfold FilterFits
  cases ports with
  | nil => exact iff_of_true (Nat.succ_pos _) (Or.inl rfl)
  | cons port ports =>
    rw [filterText_cons, List.length_append, length_portText, length_appended_one,
      List.length_cons, List.map_cons, List.sum_cons]
    have hne : port :: ports ≠ [] := List.cons_ne_nil _ _
    simp only [hne, false_or]
    omega

/-- The loop prints the whole text exactly where the array holds it. -/
theorem cfgLoop_returns_iff {grpArray : List GrpObj} {i : Nat} {c : CfgState}
    {keys : Finset (UInt32 × UInt16)} (h : Loading keys c.table) (hkeys : keys.card ≤ i)
    (hgroups : i + grpArray.length ≤ 256)
    (hmembers : ∀ grpObj ∈ grpArray, grpObj.memberArray.length ≤ maxMemIpInGroup)
    (hfilter : c.filter.length < filterStringSize) :
    (∃ c', cfgLoop inetAddr grpArray i c = .ret c' ∧
        c'.filter = c.filter ++ appended i (grpArray.map GrpObj.groupPort)) ↔
      (c.filter ++ appended i (grpArray.map GrpObj.groupPort)).length < filterStringSize := by
  induction grpArray generalizing i c keys with
  | nil =>
    have hnone : appended i (List.map GrpObj.groupPort []) = [] := by cases i <;> rfl
    rw [hnone, List.append_nil]
    exact iff_of_true ⟨c, rfl, rfl⟩ hfilter
  | cons grpObj grpArray ih =>
    have hmax : maxGroup = 512 := rfl
    rw [List.length_cons] at hgroups
    rw [cfgLoop, if_pos (by omega), List.map_cons, appended_cons, ← List.append_assoc]
    simp only
    generalize (if i = 0 then portText grpObj.groupPort
      else " or ".toList ++ portText grpObj.groupPort) = text
    by_cases hroom : c.filter.length + text.length < filterStringSize
    · have hsize : 0 + grpObj.memberArray.length ≤ maxMemIpInGroup := by
        rw [Nat.zero_add]
        exact hmembers grpObj List.mem_cons_self
      obtain ⟨ipListInt, hread⟩ : ∃ l, readMembers inetAddr grpObj.memberArray 0 (fun _ => 0) =
          .ret l := readMembers_returns _ _ hsize
      obtain ⟨⟨code, table⟩, hadd⟩ := h.addMultiNode_returns (by omega) (inetAddr grpObj.groupIp)
        grpObj.groupPort.toUInt16 grpObj.serverPort.toUInt16 ipListInt
        (UInt8.ofNat grpObj.memberArray.length)
      have hcard := Finset.card_insert_le (inetAddr grpObj.groupIp, grpObj.groupPort.toUInt16) keys
      rw [sprintf_of_lt hroom, Outcome.ret_bind, hread, Outcome.ret_bind, hadd, Outcome.ret_bind]
      refine ih (i := i + 1) (c := ⟨_, c.filter ++ text, table⟩) (h.next hadd) (by omega) (by omega)
        (fun g hg => hmembers g (List.mem_cons_of_mem _ hg)) ?_
      rw [List.length_append]
      exact hroom
    · rw [sprintf_of_le (by omega), Outcome.fault_bind]
      apply iff_of_false
      · intro ⟨_, hret, _⟩
        cases hret
      · rw [List.length_append, List.length_append]
        omega

section
variable {grpArray : List GrpObj}
variable (hgroups : grpArray.length ≤ multiGrpMax)
variable (hmembers : ∀ grpObj ∈ grpArray, grpObj.memberArray.length ≤ maxMemIpInGroup)

include hgroups hmembers

/-- A load of an empty table prints the filter of all ports exactly where its array holds it. -/
theorem cfgInit_filter_iff (inetAddr : List Char → UInt32) (groupNum : Nat)
    (groupIpArr : Nat → UInt32) (filter : List Char) :
    (∃ c, cfgInit inetAddr (.array grpArray) groupNum ⟨groupIpArr, filter, multiNodeInit⟩ =
        .ret (0, grpArray.length, c) ∧ c.filter = filterText (grpArray.map GrpObj.groupPort)) ↔
      FilterFits (grpArray.map GrpObj.groupPort) := by
  have hcount : 0 + grpArray.length ≤ 256 := by
    rw [Nat.zero_add]
    exact hgroups
  have hloop := @cfgLoop_returns_iff inetAddr grpArray 0 ⟨groupIpArr, [], multiNodeInit⟩ ∅
    loading_init (Nat.le_refl 0) hcount hmembers (Nat.succ_pos _)
  simp only [List.nil_append, appended] at hloop
  rw [← filterFits_iff, ← hloop]
  constructor
  · intro ⟨c, hret, hfilter⟩
    obtain ⟨c', hc, heq⟩ := Outcome.bind_eq_ret_iff.mp hret
    obtain ⟨_, hrest⟩ := Prod.mk.inj (Outcome.ret.inj heq)
    obtain ⟨_, rfl⟩ := Prod.mk.inj hrest
    exact ⟨c', hc, hfilter⟩
  · intro ⟨c, hc, hfilter⟩
    exact ⟨c, Outcome.bind_eq_ret_iff.mpr ⟨c, hc, rfl⟩, hfilter⟩

end

theorem cfgInit_filter_two : ∃ c, cfgInit inetAddrQuad
      (.array [⟨"239.1.1.1".toList, 7127, 7126, ["2.2.2.2".toList]⟩,
        ⟨"239.1.1.2".toList, 65535, 7126, []⟩]) 0 ⟨fun _ => 0, [], multiNodeInit⟩ = .ret (0, 2, c) ∧
      c.filter = "port 7127 or port 65535".toList := by
  refine (@cfgInit_filter_iff [⟨"239.1.1.1".toList, 7127, 7126, ["2.2.2.2".toList]⟩,
    ⟨"239.1.1.2".toList, 65535, 7126, []⟩] (by decide) ?_ inetAddrQuad 0 (fun _ => 0) []).mpr
      (Or.inr (by decide))
  intro grpObj hin
  simp only [List.mem_cons, List.not_mem_nil, or_false] at hin
  rcases hin with rfl | rfl
  · exact Nat.le_of_ble_eq_true rfl
  · exact Nat.zero_le _

/-- 74 groups with a port of five digits are too many. -/
theorem cfgInit_filter_overflow : ¬ ∀ grpArray : List GrpObj, grpArray.length ≤ multiGrpMax →
    (∀ grpObj ∈ grpArray, grpObj.memberArray.length ≤ maxMemIpInGroup ∧
      grpObj.groupPort ≤ 65535) →
    ∃ c, cfgInit inetAddrQuad (.array grpArray) 0 ⟨fun _ => 0, [], multiNodeInit⟩ =
        .ret (0, grpArray.length, c) ∧ c.filter = filterText (grpArray.map GrpObj.groupPort) := by
  intro h
  let grpObj : GrpObj := ⟨"239.1.1.1".toList, 65535, 7126, []⟩
  have hmembers : ∀ g ∈ List.replicate 74 grpObj,
      g.memberArray.length ≤ maxMemIpInGroup ∧ g.groupPort ≤ 65535 := by
    intro g hg
    obtain rfl := List.eq_of_mem_replicate hg
    exact ⟨Nat.zero_le _, by decide⟩
  obtain ⟨c, hret, hfilter⟩ := h (List.replicate 74 grpObj) (by decide) hmembers
  obtain ⟨c', hloop, heq⟩ := Outcome.bind_eq_ret_iff.mp hret
  obtain ⟨_, hrest⟩ := Prod.mk.inj (Outcome.ret.inj heq)
  obtain ⟨_, rfl⟩ := Prod.mk.inj hrest
  have hloops := @cfgLoop_returns_iff inetAddrQuad (List.replicate 74 grpObj) 0
    ⟨fun _ => 0, [], multiNodeInit⟩ ∅ loading_init (Nat.le_refl 0) (by decide)
    (fun g hg => (hmembers g hg).1) (Nat.succ_pos _)
  have hfits := hloops.mp ⟨c', hloop, hfilter⟩
  have hlength : ¬ FilterFits (List.map GrpObj.groupPort (List.replicate 74 grpObj)) := by
    intro hcases
    rcases hcases with hnil | hsum
    · cases hnil
    · exact absurd hsum (by decide)
  exact hlength ((filterFits_iff _).mp hfits)

end MulticastProxy.WinServer
