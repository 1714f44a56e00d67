import Mathlib.Data.List.TakeWhile
import MulticastProxy.Library.CString
import MulticastProxy.Library.FirstOccurrences
import MulticastProxy.KernelServer.ParseArg

/-!
# Kernel server tool: the member list in memory (`parse_arg.h`)

`parse_service` walks through the argument with two pointers and steps past each comma, at the end
past the terminating zero. Here a pointer is the memory from it on, and a read where there is none is
a fault.
-/

namespace MulticastProxy.KernelServer

set_option autoImplicit false

open CString (nul)

namespace Pointer

/-- The counter is an `int`, and the argument of a process is shorter than 2^31 bytes. -/
def multiRangeNum : List Char → Nat → Outcome Nat
  | [], _ => .fault
  | ch :: p, ret =>
    if ch = nul then .ret (ret + 1)
    else if ch = ',' then multiRangeNum p (ret + 1)
    else multiRangeNum p ret

/-- The inner `while` of `parse_service`. -/
def segmentEnd : List Char → Outcome (List Char)
  | [] => .fault
  | ch :: p2 => if ch ≠ nul ∧ ch ≠ ',' then segmentEnd p2 else .ret (ch :: p2)

/-- `num` more addresses; both pointers are at `p1`. -/
def parseServiceLoop : Nat → List Char → List UInt32 → Outcome (Except Int (List UInt32))
  | 0, _, ipList => .ret (.ok ipList)
  | num + 1, p1, ipList => do
    let p2 ← segmentEnd p1
    let len := p1.length - p2.length
    if 128 ≤ len then .ret (.error multiParamError)
    else
      let buf := p1.take len
      match parseIpBe buf with
      | none => .ret (.error multiParamError)
      | some ip =>
        if isMulticast ip || ipList.contains ip then parseServiceLoop num p2.tail ipList
        else parseServiceLoop num p2.tail (ipList ++ [ip])

def parseService (ipstr : List Char) : Outcome (Except Int (List UInt32)) := do
  let num ← multiRangeNum ipstr 0
  if multiVmMax < num then .ret (.error multiVmLagerThanMax)
  else parseServiceLoop num ipstr []

/-! ## Nothing is read behind the zero -/

theorem multiRangeNum_eq {s : List Char} (hs : nul ∉ s) (after : List Char) (ret : Nat) :
    multiRangeNum (s ++ nul :: after) ret = .ret (ret + s.count ',' + 1) := by
  induction s generalizing ret with
  | nil => rw [List.nil_append, multiRangeNum, if_pos rfl, List.count_nil, Nat.add_zero]
  | cons ch s ih =>
    obtain ⟨hch, hs⟩ : nul ≠ ch ∧ nul ∉ s := by simpa using hs
    rw [List.cons_append, multiRangeNum, if_neg (Ne.symm hch), List.count_cons]
    split
    · rename_i hcomma
      rw [ih hs, if_pos (by simpa using hcomma)]
      congr 1
      omega
    · rename_i hother
      rw [ih hs, if_neg (by simpa using hother)]
      rfl

theorem segmentEnd_eq {s : List Char} (hs : nul ∉ s) (after : List Char) :
    segmentEnd (s ++ nul :: after) = .ret (s.dropWhile (· ≠ ',') ++ nul :: after) := by
  induction s with
  | nil => rw [List.nil_append, segmentEnd, if_neg (by simp), List.dropWhile_nil, List.nil_append]
  | cons ch s ih =>
    obtain ⟨hch, hs⟩ : nul ≠ ch ∧ nul ∉ s := by simpa using hs
    rw [List.cons_append, segmentEnd, List.dropWhile_cons]
    by_cases hcomma : ch = ','
    · rw [if_neg (by simp [hcomma]), if_neg (by simp [hcomma]), List.cons_append]
    · rw [if_pos ⟨Ne.symm hch, hcomma⟩, if_pos (by simpa using hcomma), ih hs]

theorem take_segment (s after : List Char) :
    (s ++ nul :: after).take
      ((s ++ nul :: after).length - (s.dropWhile (· ≠ ',') ++ nul :: after).length) =
      s.takeWhile (· ≠ ',') := by
  have hsplit := List.takeWhile_append_dropWhile (p := (· ≠ ',')) (l := s)
  have hlen := congrArg List.length hsplit
  rw [List.length_append] at hlen
  have htake : (s.takeWhile (· ≠ ',') ++ (s.dropWhile (· ≠ ',') ++ nul :: after)).take
      (s.takeWhile (· ≠ ',')).length = s.takeWhile (· ≠ ',') := List.take_left
  rw [← List.append_assoc, hsplit] at htake
  have hlength : (s ++ nul :: after).length - (s.dropWhile (· ≠ ',') ++ nul :: after).length =
      (s.takeWhile (· ≠ ',')).length := by
    simp only [List.length_append]
    omega
  rw [hlength, htake]

/-- The second pointer is behind the comma, or behind the zero at the end of the last segment. -/
theorem parseServiceLoop_eq {num : Nat} {s : List Char} (hs : nul ∉ s)
    (hnum : num ≤ s.count ',' + 1) (after : List Char) (ipList : List UInt32) :
    parseServiceLoop num (s ++ nul :: after) ipList =
      .ret (KernelServer.parseServiceLoop num s ipList) := by
  induction num generalizing s ipList with
  | zero => rfl
  | succ num ih =>
    have hrest : ∀ ips, parseServiceLoop num (s.dropWhile (· ≠ ',') ++ nul :: after).tail ips =
        .ret (KernelServer.parseServiceLoop num ((s.dropWhile (· ≠ ',')).drop 1) ips) := by
      intro ips
      by_cases hcomma : ',' ∈ s
      · obtain ⟨w, rest, rfl, hw⟩ := List.eq_append_cons_of_mem hcomma
        have hdrop : (w ++ ',' :: rest).dropWhile (· ≠ ',') = ',' :: rest := by
          rw [List.dropWhile_append_of_pos (fun ch hch => by
            simpa using fun he : ch = ',' => hw (he ▸ hch))]
          simp
        rw [hdrop, List.cons_append, List.tail_cons, List.drop_succ_cons, List.drop_zero]
        apply ih (by simp_all)
        rw [List.count_append, List.count_cons_self, List.count_eq_zero.mpr hw] at hnum
        omega
      · rw [List.count_eq_zero.mpr hcomma] at hnum
        obtain rfl : num = 0 := by omega
        rfl
    rw [parseServiceLoop, segmentEnd_eq hs, Outcome.ret_bind]
    simp only [take_segment, hrest]
    rw [KernelServer.parseServiceLoop]
    have hlen : (s ++ nul :: after).length - (s.dropWhile (· ≠ ',') ++ nul :: after).length =
        (s.takeWhile (· ≠ ',')).length := by
      have := congrArg List.length (take_segment s after)
      rw [List.length_take] at this
      omega
    rw [hlen]
    simp only
    split
    · rfl
    · cases parseIpBe (s.takeWhile (· ≠ ',')) with
      | none => rfl
      | some ip =>
        simp only
        split <;> rfl

theorem parseService_eq {s : List Char} (hs : nul ∉ s) (after : List Char) :
    parseService (s ++ nul :: after) = .ret (KernelServer.parseService s) := by
  rw [parseService, multiRangeNum_eq hs, Outcome.ret_bind, KernelServer.parseService,
    KernelServer.multiRangeNum, Nat.zero_add]
  split
  · rfl
  · exact parseServiceLoop_eq hs (Nat.le_refl _) after []

end Pointer

/-! ## The grammar -/

/-- What is stored of the addresses: no multicast ones, and the others at their first occurrence. -/
def members (addrs : List UInt32) : List UInt32 :=
  (addrs.filter fun ip => !isMulticast ip).eraseDups

/-- The text splits at its commas into the texts of `addrs`, which are not too many. -/
structure Lists (s : List Char) (addrs : List UInt32) : Prop where
  segments : s.splitOn ',' = addrs.map ip2str
  size : addrs.length ≤ multiVmMax

/-- The addresses after one more. -/
def store (ipList : List UInt32) (ip : UInt32) : List UInt32 :=
  if isMulticast ip || ipList.contains ip then ipList else ipList ++ [ip]

theorem foldl_store (addrs ipList : List UInt32) : addrs.foldl store ipList =
    (addrs.filter fun ip => !isMulticast ip).foldl FirstOccurrences.add ipList := by
  induction addrs generalizing ipList with
  | nil => rfl
  | cons ip addrs ih =>
    rw [List.foldl_cons, ih]
    by_cases hmulti : isMulticast ip = true
    · simp [store, hmulti]
    · simp [store, FirstOccurrences.add, hmulti]

theorem parseServiceLoop_succ_ok_iff {num : Nat} {s : List Char} {ipList ips : List UInt32} :
    parseServiceLoop (num + 1) s ipList = .ok ips ↔ ∃ ip, s.takeWhile (· ≠ ',') = ip2str ip ∧
      parseServiceLoop num ((s.dropWhile (· ≠ ',')).drop 1) (store ipList ip) = .ok ips := by
  rw [parseServiceLoop]
  simp only
  split
  · rename_i hlong
    apply iff_of_false (by simp)
    intro h
    obtain ⟨ip, htext, _⟩ := h
    have hshort := (DottedQuad.length_inetNtoa ip).2
    rw [htext, ip2str] at hlong
    omega
  · cases hparse : parseIpBe (s.takeWhile (· ≠ ',')) with
    | none =>
      apply iff_of_false (by simp)
      intro h
      obtain ⟨ip, htext, _⟩ := h
      rw [htext, parseIpBe_ip2str] at hparse
      cases hparse
    | some ip =>
      have htext := DottedQuad.inetPton_eq_some_iff.mp hparse
      have hstore : (if (isMulticast ip || ipList.contains ip) = true then
          parseServiceLoop num ((s.dropWhile (· ≠ ',')).drop 1) ipList
        else parseServiceLoop num ((s.dropWhile (· ≠ ',')).drop 1) (ipList ++ [ip])) =
          parseServiceLoop num ((s.dropWhile (· ≠ ',')).drop 1) (store ipList ip) := by
        unfold store
        split <;> rfl
      simp only [hstore]
      constructor
      · intro h
        exact ⟨ip, htext, h⟩
      · intro h
        obtain ⟨ip', htext', hrest⟩ := h
        rwa [ip2str_injective (htext.symm.trans htext')]

theorem parseServiceLoop_ok_iff {num : Nat} {s : List Char} (hnum : num = s.count ',' + 1)
    (ipList ips : List UInt32) : parseServiceLoop num s ipList = .ok ips ↔
      ∃ addrs : List UInt32, s.splitOn ',' = addrs.map ip2str ∧ ips = addrs.foldl store ipList := by
  induction num generalizing s ipList with
  | zero => omega
  | succ num ih =>
    rw [parseServiceLoop_succ_ok_iff]
    by_cases hcomma : ',' ∈ s
    · obtain ⟨w, rest, rfl, hw⟩ := List.eq_append_cons_of_mem hcomma
      have hpos : ∀ ch ∈ w, decide (ch ≠ ',') = true := by
        intro ch hch
        rw [decide_eq_true_eq]
        rintro rfl
        exact hw hch
      have htake : (w ++ ',' :: rest).takeWhile (· ≠ ',') = w := by
        rw [List.takeWhile_append_of_pos hpos]
        simp
      have hdrop : ((w ++ ',' :: rest).dropWhile (· ≠ ',')).drop 1 = rest := by
        rw [List.dropWhile_append_of_pos hpos]
        simp
      have hrest : num = rest.count ',' + 1 := by
        rw [List.count_append, List.count_cons_self, List.count_eq_zero.mpr hw] at hnum
        omega
      rw [htake, hdrop, List.splitOn_append_cons_self_of_not_mem hw]
      constructor
      · intro ⟨ip, htext, hloop⟩
        obtain ⟨addrs, hsegments, hips⟩ := (ih hrest _).mp hloop
        exact ⟨ip :: addrs, by rw [hsegments, htext, List.map_cons], hips⟩
      · intro ⟨addrs, hsegments, hips⟩
        cases addrs with
        | nil => cases hsegments
        | cons ip addrs =>
          obtain ⟨htext, hsegments⟩ := List.cons.inj hsegments
          exact ⟨ip, htext, (ih hrest _).mpr ⟨addrs, hsegments, hips⟩⟩
    · have htake : s.takeWhile (· ≠ ',') = s := by
        rw [List.takeWhile_eq_self_iff]
        intro ch hch
        rw [decide_eq_true_eq]
        rintro rfl
        exact hcomma hch
      rw [List.count_eq_zero.mpr hcomma] at hnum
      obtain rfl : num = 0 := by omega
      rw [htake, List.splitOn_eq_singleton hcomma]
      constructor
      · intro ⟨ip, htext, hips⟩
        exact ⟨[ip], by rw [htext, List.map_singleton], (Except.ok.inj hips).symm⟩
      · intro ⟨addrs, hsegments, hips⟩
        match addrs with
        | [ip] => exact ⟨ip, (List.cons.inj hsegments).1, congrArg Except.ok hips.symm⟩

theorem parseService_ok_iff {s : List Char} {ips : List UInt32} :
    parseService s = .ok ips ↔ ∃ addrs, Lists s addrs ∧ ips = members addrs := by
  have hmembers (addrs : List UInt32) : addrs.foldl store [] = members addrs := by
    rw [foldl_store, FirstOccurrences.foldl_add, List.nil_append, FirstOccurrences.fresh_of_nil]
    rfl
  have hsize {addrs : List UInt32} (h : s.splitOn ',' = addrs.map ip2str) :
      multiRangeNum s = addrs.length := by
    rw [multiRangeNum, ← CommandLine.length_splitOn, h, List.length_map]
  rw [parseService]
  split
  · rename_i hmax
    apply iff_of_false (by simp)
    intro ⟨addrs, hlists, _⟩
    have := hlists.size
    rw [hsize hlists.segments] at hmax
    omega
  · rename_i hmax
    have hnum : multiRangeNum s = s.count ',' + 1 := rfl
    rw [parseServiceLoop_ok_iff hnum]
    constructor
    · intro ⟨addrs, hsegments, hips⟩
      rw [hsize hsegments] at hmax
      exact ⟨addrs, ⟨hsegments, by omega⟩, hips.trans (hmembers addrs)⟩
    · intro ⟨addrs, hlists, hips⟩
      exact ⟨addrs, hlists.segments, hips.trans (hmembers addrs).symm⟩

/-- Whatever stands behind the zero of an argument, nothing or anything, `parse_service` returns the
same: 0 exactly for a list of at most `MULTI_VM_MAX` dotted quads, and then its members in order. -/
theorem parse_service_grammar {s : List Char} (hs : nul ∉ s) :
    ∃ ret, (∀ after, Pointer.parseService (s ++ nul :: after) = .ret ret) ∧
      ((∃ ips, ret = .ok ips) ↔ ∃ addrs, Lists s addrs) ∧
      ∀ addrs, Lists s addrs → ret = .ok (members addrs) := by
  refine ⟨_, Pointer.parseService_eq hs, ?_, ?_⟩
  · constructor
    · intro ⟨ips, hret⟩
      obtain ⟨addrs, hlists, _⟩ := parseService_ok_iff.mp hret
      exact ⟨addrs, hlists⟩
    · intro ⟨addrs, hlists⟩
      exact ⟨_, parseService_ok_iff.mpr ⟨addrs, hlists, rfl⟩⟩
  · intro addrs hlists
    exact parseService_ok_iff.mpr ⟨addrs, hlists, rfl⟩

/-- A multicast address and a repeated one. -/
theorem parse_service_three : Pointer.parseService
    ("10.0.0.1,224.0.0.1,10.0.0.1".toList ++ [nul]) = .ret (.ok [0x0A000001]) := by
  obtain ⟨ret, hret, _, hmembers⟩ :=
    parse_service_grammar (show nul ∉ "10.0.0.1,224.0.0.1,10.0.0.1".toList by decide)
  rw [hret, hmembers [0x0A000001, 0xE0000001, 0x0A000001] ⟨by decide, by decide⟩]
  decide

end MulticastProxy.KernelServer
