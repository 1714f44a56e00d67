import Mathlib.Data.UInt
import Mathlib.Tactic

/-!
# Byte memory

A flat memory with the loads and stores of a little-endian machine. What a store leaves
unchanged is said once, by the address range it writes.
-/

set_option autoImplicit false

abbrev Memory := Nat → UInt8

namespace Memory

def store8 (m : Memory) (a : Nat) (v : UInt8) : Memory := Function.update m a v

def load16 (m : Memory) (a : Nat) : UInt16 := (m a).toUInt16 + 256 * (m (a + 1)).toUInt16

def store16 (m : Memory) (a : Nat) (v : UInt16) : Memory :=
  (m.store8 a v.toUInt8).store8 (a + 1) (v / 256).toUInt8

def load32 (m : Memory) (a : Nat) : UInt32 :=
  (m.load16 a).toUInt32 + 65536 * (m.load16 (a + 2)).toUInt32

def store32 (m : Memory) (a : Nat) (v : UInt32) : Memory :=
  (m.store16 a v.toUInt16).store16 (a + 2) (v / 65536).toUInt16

def load64 (m : Memory) (a : Nat) : UInt64 :=
  (m.load32 a).toUInt64 + 0x100000000 * (m.load32 (a + 4)).toUInt64

def store64 (m : Memory) (a : Nat) (v : UInt64) : Memory :=
  (m.store32 a v.toUInt32).store32 (a + 4) (v / 0x100000000).toUInt32

/-- The `n` bytes from `a` on. -/
def bytes (m : Memory) (a n : Nat) : List UInt8 := (List.range n).map fun i => m (a + i)

/-- `memcpy` of a list of bytes to `a`. -/
def copy (m : Memory) (a : Nat) (src : List UInt8) : Memory := fun i =>
  if a ≤ i then (src[i - a]?).getD (m i) else m i

variable {m : Memory} {a b : Nat}

@[simp] theorem store8_self (v : UInt8) : m.store8 a v a = v := Function.update_self ..

theorem store8_of_ne {v : UInt8} (h : b ≠ a) : m.store8 a v b = m b := Function.update_of_ne h ..

theorem store16_self (v : UInt16) : m.store16 a v a = v.toUInt8 := by
  rw [store16, store8_of_ne (by omega), store8_self]

theorem store16_succ (v : UInt16) : m.store16 a v (a + 1) = (v / 256).toUInt8 := store8_self _

theorem store16_of_disjoint {v : UInt16} (h : b < a ∨ a + 2 ≤ b) : m.store16 a v b = m b := by
  unfold store16
  rw [store8_of_ne (by omega), store8_of_ne (by omega)]

theorem store32_of_disjoint {v : UInt32} (h : b < a ∨ a + 4 ≤ b) : m.store32 a v b = m b := by
  unfold store32
  rw [store16_of_disjoint (by omega), store16_of_disjoint (by omega)]

/-- What lies below a store does not matter. -/
theorem store16_congr {m' : Memory} {v : UInt16} (h : b < a ∨ a + 2 ≤ b → m b = m' b) :
    m.store16 a v b = m'.store16 a v b := by
  by_cases hdisjoint : b < a ∨ a + 2 ≤ b
  · rw [store16_of_disjoint hdisjoint, store16_of_disjoint hdisjoint, h hdisjoint]
  · obtain rfl | rfl : b = a ∨ b = a + 1 := by omega
    · rw [store16_self, store16_self]
    · rw [store16_succ, store16_succ]

theorem store16_comm {v w : UInt16} (h : a + 2 ≤ b ∨ b + 2 ≤ a) :
    (m.store16 a v).store16 b w = (m.store16 b w).store16 a v := by
  funext c
  by_cases hb : c < b ∨ b + 2 ≤ c
  · rw [store16_of_disjoint hb]
    exact store16_congr fun _ => (store16_of_disjoint hb).symm
  · rw [store16_of_disjoint (m := m.store16 b w) (a := a) (by omega)]
    exact store16_congr fun hb' => absurd hb' hb

theorem load16_congr {m' : Memory} {a' : Nat} (h0 : m a = m' a')
    (h1 : m (a + 1) = m' (a' + 1)) : m.load16 a = m'.load16 a' := by
  rw [load16, load16, h0, h1]

@[simp] theorem load16_store16 (v : UInt16) : (m.store16 a v).load16 a = v := by
  rw [load16, store16_self, store16_succ]
  have hv := v.toNat_lt
  apply UInt16.toNat_inj.mp
  simp only [UInt16.toNat_add, UInt16.toNat_mul, UInt8.toNat_toUInt16, UInt16.toNat_toUInt8,
    UInt16.toNat_div, UInt16.toNat_ofNat, Nat.reducePow, Nat.reduceMod]
  omega

theorem toNat_load16 : (m.load16 a).toNat = (m a).toNat + 2 ^ 8 * (m (a + 1)).toNat := by
  have h0 := (m a).toNat_lt
  have h1 := (m (a + 1)).toNat_lt
  simp only [load16, UInt16.toNat_add, UInt16.toNat_mul, UInt8.toNat_toUInt16, UInt16.toNat_ofNat,
    Nat.reducePow, Nat.reduceMod]
  omega

theorem toUInt8_load16 : (m.load16 a).toUInt8 = m a ∧ (m.load16 a / 256).toUInt8 = m (a + 1) := by
  have h0 := (m a).toNat_lt
  have h1 := (m (a + 1)).toNat_lt
  constructor
  · apply UInt8.toNat_inj.mp
    rw [UInt16.toNat_toUInt8, toNat_load16]
    omega
  · apply UInt8.toNat_inj.mp
    have hbase : (256 : UInt16).toNat = 256 := rfl
    rw [UInt16.toNat_toUInt8, UInt16.toNat_div, toNat_load16, hbase]
    omega

theorem load32_congr {m' : Memory} {a' : Nat} (h : ∀ i < 4, m (a + i) = m' (a' + i)) :
    m.load32 a = m'.load32 a' := by
  have hlow : m.load16 a = m'.load16 a' := load16_congr (h 0 (by decide)) (h 1 (by decide))
  have hhigh : m.load16 (a + 2) = m'.load16 (a' + 2) :=
    load16_congr (h 2 (by decide)) (h 3 (by decide))
  rw [load32, load32, hlow, hhigh]

@[simp] theorem load32_store32 (v : UInt32) : (m.store32 a v).load32 a = v := by
  have hlow : (m.store32 a v).load16 a = v.toUInt16 := by
    unfold store32
    rw [load16_congr (store16_of_disjoint (by omega)) (store16_of_disjoint (by omega)),
      load16_store16]
  have hv := v.toNat_lt
  rw [load32, hlow, store32, load16_store16]
  apply UInt32.toNat_inj.mp
  simp only [UInt32.toNat_add, UInt32.toNat_mul, UInt16.toNat_toUInt32, UInt32.toNat_toUInt16,
    UInt32.toNat_div, UInt32.toNat_ofNat, Nat.reducePow, Nat.reduceMod]
  omega

theorem load16_store16_of_disjoint {v : UInt16} (h : b + 2 ≤ a ∨ a + 2 ≤ b) :
    (m.store16 a v).load16 b = m.load16 b :=
  load16_congr (store16_of_disjoint (by omega)) (store16_of_disjoint (by omega))

theorem load16_store32_of_disjoint {v : UInt32} (h : b + 2 ≤ a ∨ a + 4 ≤ b) :
    (m.store32 a v).load16 b = m.load16 b :=
  load16_congr (store32_of_disjoint (by omega)) (store32_of_disjoint (by omega))

theorem load32_store16_of_disjoint {v : UInt16} (h : b + 4 ≤ a ∨ a + 2 ≤ b) :
    (m.store16 a v).load32 b = m.load32 b :=
  load32_congr fun _ _ => store16_of_disjoint (by omega)

theorem load32_store32_of_disjoint {v : UInt32} (h : b + 4 ≤ a ∨ a + 4 ≤ b) :
    (m.store32 a v).load32 b = m.load32 b :=
  load32_congr fun _ _ => store32_of_disjoint (by omega)

@[simp] theorem load64_store64 (v : UInt64) : (m.store64 a v).load64 a = v := by
  have hlow : (m.store64 a v).load32 a = v.toUInt32 := by
    unfold store64
    rw [load32_store32_of_disjoint (by omega), load32_store32]
  have hv := v.toNat_lt
  rw [load64, hlow, store64, load32_store32]
  apply UInt64.toNat_inj.mp
  simp only [UInt64.toNat_add, UInt64.toNat_mul, UInt32.toNat_toUInt64, UInt64.toNat_toUInt32,
    UInt64.toNat_div, UInt64.toNat_ofNat, Nat.reducePow, Nat.reduceMod]
  omega

theorem load32_store64_of_disjoint {v : UInt64} (h : b + 4 ≤ a ∨ a + 8 ≤ b) :
    (m.store64 a v).load32 b = m.load32 b := by
  unfold store64
  rw [load32_store32_of_disjoint (by omega), load32_store32_of_disjoint (by omega)]

theorem load64_store64_of_disjoint {v : UInt64} (h : b + 8 ≤ a ∨ a + 8 ≤ b) :
    (m.store64 a v).load64 b = m.load64 b := by
  rw [load64, load64, load32_store64_of_disjoint (by omega),
    load32_store64_of_disjoint (by omega)]

theorem toNat_load32 : (m.load32 a).toNat = (m a).toNat + 2 ^ 8 * (m (a + 1)).toNat +
    2 ^ 16 * (m (a + 2)).toNat + 2 ^ 24 * (m (a + 3)).toNat := by
  have h0 := (m a).toNat_lt
  have h1 := (m (a + 1)).toNat_lt
  have h2 := (m (a + 2)).toNat_lt
  have h3 := (m (a + 3)).toNat_lt
  have hlast : a + 3 = a + 2 + 1 := rfl
  rw [hlast] at h3 ⊢
  simp only [load32, UInt32.toNat_add, UInt32.toNat_mul, UInt16.toNat_toUInt32, toNat_load16,
    UInt32.toNat_ofNat, Nat.reducePow, Nat.reduceMod]
  omega

theorem toUInt8_load32 : (m.load32 a).toUInt8 = m a ∧ (m.load32 a / 2 ^ 8).toUInt8 = m (a + 1) ∧
    (m.load32 a / 2 ^ 16).toUInt8 = m (a + 2) ∧ (m.load32 a / 2 ^ 24).toUInt8 = m (a + 3) := by
  have h0 := (m a).toNat_lt
  have h1 := (m (a + 1)).toNat_lt
  have h2 := (m (a + 2)).toNat_lt
  have h3 := (m (a + 3)).toNat_lt
  have hpow : (2 ^ 8 : UInt32).toNat = 2 ^ 8 ∧ (2 ^ 16 : UInt32).toNat = 2 ^ 16 ∧
      (2 ^ 24 : UInt32).toNat = 2 ^ 24 := ⟨rfl, rfl, rfl⟩
  refine ⟨?_, ?_, ?_, ?_⟩ <;>
  · apply UInt8.toNat_inj.mp
    simp only [UInt32.toNat_toUInt8, UInt32.toNat_div, hpow, toNat_load32]
    omega

theorem store16_load16 : m.store16 a (m.load16 a) = m := by
  funext b
  obtain ⟨hlo, hhi⟩ := toUInt8_load16 (m := m) (a := a)
  by_cases hdisjoint : b < a ∨ a + 2 ≤ b
  · exact store16_of_disjoint hdisjoint
  · obtain rfl | rfl : b = a ∨ b = a + 1 := by omega
    · rw [store16_self, hlo]
    · rw [store16_succ, hhi]

@[simp] theorem length_bytes (n : Nat) : (m.bytes a n).length = n := by simp [bytes]

theorem bytes_drop (k n : Nat) : (m.bytes a (n + k)).drop k = m.bytes (a + k) n := by
  apply List.ext_getElem
  · simp
  · intro i hi hi'
    simp only [bytes, List.getElem_drop, List.getElem_map, List.getElem_range]
    congr 1
    omega

theorem copy_bytes {s : Memory} {n i : Nat} (hi : i < n) :
    m.copy a (s.bytes b n) (a + i) = s (b + i) := by
  have hsub : a + i - a = i := by omega
  simp [copy, bytes, hsub, hi]

theorem load16_copy_bytes {s : Memory} {n i : Nat} (hi : i + 2 ≤ n) :
    (m.copy a (s.bytes b n)).load16 (a + i) = s.load16 (b + i) := by
  apply load16_congr
  · exact copy_bytes (by omega)
  · rw [Nat.add_assoc, Nat.add_assoc]
    exact copy_bytes (by omega)

theorem load32_copy_bytes {s : Memory} {n i : Nat} (hi : i + 4 ≤ n) :
    (m.copy a (s.bytes b n)).load32 (a + i) = s.load32 (b + i) := by
  apply load32_congr
  intro j hj
  rw [Nat.add_assoc, Nat.add_assoc]
  exact copy_bytes (by omega)

theorem load64_copy_bytes {s : Memory} {n i : Nat} (hi : i + 8 ≤ n) :
    (m.copy a (s.bytes b n)).load64 (a + i) = s.load64 (b + i) := by
  rw [load64, load64, load32_copy_bytes (by omega), Nat.add_assoc, Nat.add_assoc,
    load32_copy_bytes (by omega)]

theorem copy_of_disjoint {src : List UInt8} (h : b < a ∨ a + src.length ≤ b) :
    m.copy a src b = m b := by
  unfold copy
  split
  · rw [List.getElem?_eq_none (by omega), Option.getD_none]
  · rfl

theorem load16_copy_of_disjoint {src : List UInt8} (h : b + 2 ≤ a ∨ a + src.length ≤ b) :
    (m.copy a src).load16 b = m.load16 b :=
  load16_congr (copy_of_disjoint (by omega)) (copy_of_disjoint (by omega))

theorem load32_copy_of_disjoint {src : List UInt8} (h : b + 4 ≤ a ∨ a + src.length ≤ b) :
    (m.copy a src).load32 b = m.load32 b :=
  load32_congr fun _ _ => copy_of_disjoint (by omega)

theorem load64_copy_of_disjoint {src : List UInt8} (h : b + 8 ≤ a ∨ a + src.length ≤ b) :
    (m.copy a src).load64 b = m.load64 b := by
  rw [load64, load64, load32_copy_of_disjoint (by omega), load32_copy_of_disjoint (by omega)]

/-- The first `n` elements of an array of 32-bit words, from `a` on. -/
def storeArray (m : Memory) (a : Nat) (f : Nat → UInt32) : Nat → Memory
  | 0 => m
  | n + 1 => (m.storeArray a f n).store32 (a + 4 * n) (f n)

theorem storeArray_of_disjoint {f : Nat → UInt32} {n : Nat} (h : b < a ∨ a + 4 * n ≤ b) :
    m.storeArray a f n b = m b := by
  induction n with
  | zero => rfl
  | succ n ih =>
    rw [storeArray, store32_of_disjoint (by omega)]
    exact ih (by omega)

theorem load32_storeArray_of_disjoint {f : Nat → UInt32} {n : Nat}
    (h : b + 4 ≤ a ∨ a + 4 * n ≤ b) : (m.storeArray a f n).load32 b = m.load32 b :=
  load32_congr fun _ _ => storeArray_of_disjoint (by omega)

theorem load32_storeArray {f : Nat → UInt32} {n i : Nat} (hi : i < n) :
    (m.storeArray a f n).load32 (a + 4 * i) = f i := by
  induction n with
  | zero => omega
  | succ n ih =>
    rw [storeArray]
    by_cases hlast : i = n
    · rw [hlast, load32_store32]
    · rw [load32_store32_of_disjoint (by omega)]
      exact ih (by omega)

theorem load16_storeArray_of_disjoint {f : Nat → UInt32} {n : Nat}
    (h : b + 2 ≤ a ∨ a + 4 * n ≤ b) : (m.storeArray a f n).load16 b = m.load16 b :=
  load16_congr (storeArray_of_disjoint (by omega)) (storeArray_of_disjoint (by omega))

/-- An array of 16-bit words. -/
def storeArray16 (m : Memory) (a : Nat) (f : Nat → UInt16) : Nat → Memory
  | 0 => m
  | n + 1 => (m.storeArray16 a f n).store16 (a + 2 * n) (f n)

theorem load16_storeArray16 {f : Nat → UInt16} {n i : Nat} (hi : i < n) :
    (m.storeArray16 a f n).load16 (a + 2 * i) = f i := by
  induction n with
  | zero => omega
  | succ n ih =>
    rw [storeArray16]
    by_cases hlast : i = n
    · rw [hlast, load16_store16]
    · rw [load16_store16_of_disjoint (by omega)]
      exact ih (by omega)

theorem load32_storeArray16_of_disjoint {f : Nat → UInt16} {n : Nat}
    (h : b + 4 ≤ a ∨ a + 2 * n ≤ b) : (m.storeArray16 a f n).load32 b = m.load32 b := by
  induction n with
  | zero => rfl
  | succ n ih =>
    rw [storeArray16, load32_store16_of_disjoint (by omega)]
    exact ih (by omega)

end Memory
