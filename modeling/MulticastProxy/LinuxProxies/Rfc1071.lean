import MulticastProxy.LinuxClient.Frame
import MulticastProxy.LinuxServer.Copies

/-!
# The two checksum routines (`server_proxy/iph.c`, `client_proxy/iph.c`)

Both routines with the accumulators they have: `unsigned long` with a loop that adds the carries back
in, and 32 bits with two steps that do. They treat a last odd byte in different ways.
-/

namespace MulticastProxy.LinuxProxies

set_option autoImplicit false

open OnesComplement

namespace Server

/-- The loop over the words and the odd byte behind it. -/
def sumWords (m : Memory) (buf : Nat) : Nat → UInt64 → UInt64
  | 0, cksum => cksum
  | 1, cksum => cksum + (m buf).toUInt64
  | size + 2, cksum => sumWords m (buf + 2) size (cksum + (m.load16 buf).toUInt64)

theorem toNat_carry (cksum : UInt64) : ((cksum >>> 16) + (cksum &&& 0xffff)).toNat =
    cksum.toNat % 65536 + cksum.toNat / 65536 := by
  have hlt := cksum.toNat_lt
  have hshift : (cksum >>> 16).toNat = cksum.toNat / 65536 := by
    rw [UInt64.toNat_shiftRight, Nat.shiftRight_eq_div_pow]
    rfl
  have hmask : (cksum &&& 0xffff).toNat = cksum.toNat % 65536 := by
    rw [UInt64.toNat_and]
    exact Nat.and_two_pow_sub_one_eq_mod _ 16
  rw [UInt64.toNat_add, hshift, hmask]
  omega

theorem shiftRight_eq_zero_iff (cksum : UInt64) : cksum >>> 16 = 0 ↔ cksum.toNat < 65536 := by
  have hshift : (cksum >>> 16).toNat = cksum.toNat / 65536 := by
    rw [UInt64.toNat_shiftRight, Nat.shiftRight_eq_div_pow]
    rfl
  rw [← UInt64.toNat_inj, hshift, UInt64.toNat_zero]
  omega

/-- `while(cksum >> 16)`. -/
def addCarries (cksum : UInt64) : UInt64 :=
  if cksum >>> 16 = 0 then cksum else addCarries ((cksum >>> 16) + (cksum &&& 0xffff))
termination_by cksum.toNat
decreasing_by
  rename_i hcarry
  rw [shiftRight_eq_zero_iff] at hcarry
  rw [toNat_carry]
  omega

def checksum (m : Memory) (buf size : Nat) : UInt16 :=
  (~~~addCarries (sumWords m buf size 0)).toUInt16

end Server

namespace Client

/-- The loop over the words, and the odd byte put into the low byte of `answer`. -/
def sumWords (m : Memory) (w : Nat) : Nat → UInt32 → UInt32
  | 0, sum => sum
  | 1, sum =>
    let answer : Memory := Memory.store16 (fun _ => 0) 0 0
    sum + ((answer.store8 0 (m w)).load16 0).toUInt32
  | nleft + 2, sum => sumWords m (w + 2) nleft (sum + (m.load16 w).toUInt32)

def checksum (m : Memory) (addr len : Nat) : UInt16 :=
  let sum := sumWords m addr len 0
  let sum := (sum >>> 16) + (sum &&& 0xffff)
  let sum := sum + (sum >>> 16)
  (~~~sum).toUInt16

end Client

/-! ## The sums -/

theorem Server.toNat_sumWords {m : Memory} {buf size : Nat} {cksum : UInt64}
    (h : cksum.toNat + wordSum m buf size < 2 ^ 64) :
    (sumWords m buf size cksum).toNat = cksum.toNat + wordSum m buf size := by
  induction size using Nat.twoStepInduction generalizing buf cksum with
  | zero => rfl
  | one =>
    have hword : wordSum m buf 1 = (m buf).toNat := by
      simp [wordSum, checksumWords]
    rw [hword] at h ⊢
    rw [sumWords, UInt64.toNat_add, UInt8.toNat_toUInt64]
    exact Nat.mod_eq_of_lt h
  | more size ih _ =>
    rw [wordSum_add_two] at h ⊢
    have hstep : (cksum + (m.load16 buf).toUInt64).toNat = cksum.toNat + (m.load16 buf).toNat := by
      rw [UInt64.toNat_add, UInt16.toNat_toUInt64]
      exact Nat.mod_eq_of_lt (by omega)
    rw [sumWords, ih (by omega), hstep, Nat.add_assoc]

theorem Server.toNat_addCarries (cksum : UInt64) : (addCarries cksum).toNat = fold cksum.toNat := by
  induction cksum using addCarries.induct with
  | case1 cksum h =>
    rw [addCarries, if_pos h, fold, if_pos ((shiftRight_eq_zero_iff cksum).mp h)]
  | case2 cksum h ih =>
    have hcarry := mt (shiftRight_eq_zero_iff cksum).mpr h
    have hfold : fold cksum.toNat = fold (cksum.toNat % 65536 + cksum.toNat / 65536) := by
      rw [fold, if_neg hcarry]
    rw [addCarries, if_neg h, ih, toNat_carry, hfold]

theorem Server.checksum_eq (m : Memory) (a : Nat) {n : Nat} (hn : n < 2 ^ 31) :
    checksum m a n = complement (wordSum m a n) := by
  have hle := wordSum_le (m := m) (a := a) (n := n)
  have hzero : (0 : UInt64).toNat = 0 := rfl
  have hsum : (sumWords m a n 0).toNat = wordSum m a n := by
    rw [toNat_sumWords (by omega), hzero, Nat.zero_add]
  have hlt := fold_lt (wordSum m a n)
  apply UInt16.toNat_inj.mp
  rw [checksum, UInt64.toNat_toUInt16, UInt64.toNat_not, toNat_addCarries, hsum, toNat_complement,
    UInt64.size]
  omega

theorem Client.sumWords_eq (m : Memory) (w nleft : Nat) (sum : UInt32) :
    sumWords m w nleft sum = sum + ((checksumWords m w nleft).map UInt16.toUInt32).sum := by
  induction nleft using Nat.twoStepInduction generalizing w sum with
  | zero => simp [sumWords, checksumWords]
  | one =>
    have hanswer : (Memory.store8 (Memory.store16 (fun _ => 0) 0 0) 0 (m w)).load16 0 =
        (m w).toUInt16 := by
      rw [Memory.load16, Memory.store8_self, Memory.store8_of_ne (by decide), Memory.store16_succ]
      simp
    simp [sumWords, checksumWords, hanswer]
  | more nleft ih _ =>
    rw [sumWords, ih, checksumWords, List.map_cons, List.sum_cons, UInt32.add_assoc]

/-- The routine is the one that the frames are made with. -/
theorem Client.checksum_eq_words (m : Memory) (addr len : Nat) :
    checksum m addr len = LinuxClient.checksum m addr len := by
  have hshift : ∀ sum : UInt32, sum >>> 16 = sum / 65536 := by
    intro sum
    apply UInt32.toNat_inj.mp
    rw [UInt32.toNat_shiftRight, Nat.shiftRight_eq_div_pow, UInt32.toNat_div]
    rfl
  have hmask : ∀ sum : UInt32, sum &&& 0xffff = sum % 65536 := by
    intro sum
    apply UInt32.toNat_inj.mp
    rw [UInt32.toNat_and, UInt32.toNat_mod]
    exact Nat.and_two_pow_sub_one_eq_mod _ 16
  rw [checksum, LinuxClient.checksum, sumWords_eq, UInt32.zero_add]
  simp only [hshift, hmask]

theorem Server.checksum_eq_words (m : Memory) (a : Nat) {n : Nat} (hn : n < 2 ^ 31) :
    checksum m a n = LinuxServer.checksum m a n := by
  rw [checksum_eq m a hn, LinuxServer.checksum_eq]

/-! ## The checksum of RFC 1071 -/

/-- The longest string: a 16-bit length and the pseudo header. -/
abbrev longest : Nat := 65547

/-- Both routines give the same, and with it in a field of zeros the string checks. -/
theorem checksums_agree (m : Memory) (a : Nat) {n : Nat} (hn : n ≤ longest) :
    Server.checksum m a n = Client.checksum m a n ∧
    ∀ k, 2 * k + 2 ≤ n → m.load16 (a + 2 * k) = 0 →
      fold (bytesSum ((m.store16 (a + 2 * k) (Server.checksum m a n)).bytes a n)) = 0xffff := by
  have hlong : longest = 65547 := rfl
  have hserver := Server.checksum_eq m a (Nat.lt_of_le_of_lt hn (by decide))
  have hclient : Client.checksum m a n = complement (wordSum m a n) := by
    rw [Client.checksum_eq_words, LinuxClient.checksum_eq m a (by omega)]
  refine ⟨hserver.trans hclient.symm, ?_⟩
  intro k hk hzero
  have hstore := wordSum_store16 (m := m) (a := a) (Server.checksum m a n) hk
  rw [hzero, UInt16.toNat_zero, Nat.add_zero, hserver] at hstore
  apply valid_bytesSum_bytes.mpr
  rw [hserver, hstore]
  exact valid_add_complement _

/-- Nine bytes at an odd address, with a field of zeros in the middle. -/
def nineBytes : Memory := Memory.copy (fun _ => 0) 7 [0x45, 0x11, 0, 0, 0xff, 0xfe, 0x1b, 0x58, 0x7f]

theorem checksums_agree_nine : Server.checksum nineBytes 7 9 = 0x9720 ∧
    Server.checksum nineBytes 7 9 = Client.checksum nineBytes 7 9 ∧
    fold (bytesSum ((nineBytes.store16 9 (Server.checksum nineBytes 7 9)).bytes 7 9)) = 0xffff := by
  obtain ⟨hagree, hvalid⟩ := checksums_agree nineBytes 7 (show 9 ≤ longest by decide)
  refine ⟨?_, hagree, hvalid 1 (by decide) (by decide)⟩
  have hfold : fold (wordSum nineBytes 7 9) = 0x68df :=
    fold_eq (by decide) (by decide) (by decide)
  rw [Server.checksum_eq nineBytes 7 (by decide), complement, hfold]
  decide

end MulticastProxy.LinuxProxies
