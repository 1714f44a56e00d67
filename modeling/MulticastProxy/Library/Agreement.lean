import MulticastProxy.Library.Memory

/-!
# Memories that agree

What two runs over memories that differ in part can tell of the difference. Where the same value is
stored in both, they agree from then on.
-/

set_option autoImplicit false

/-- The two memories hold the same at the addresses of `P`. -/
def AgreeOn (P : Nat → Prop) (m m' : Memory) : Prop := ∀ a, P a → m a = m' a

namespace AgreeOn

variable {P Q : Nat → Prop} {m m' : Memory} {a n : Nat}

theorem mono (h : AgreeOn P m m') (hQ : ∀ a, Q a → P a) : AgreeOn Q m m' :=
  fun a ha => h a (hQ a ha)

/-! ## Reads -/

theorem load16 (h : AgreeOn P m m') (h0 : P a) (h1 : P (a + 1)) : m.load16 a = m'.load16 a :=
  Memory.load16_congr (h a h0) (h (a + 1) h1)

theorem load32 (h : AgreeOn P m m') (hP : ∀ i < 4, P (a + i)) : m.load32 a = m'.load32 a :=
  Memory.load32_congr fun i hi => h (a + i) (hP i hi)

theorem bytes (h : AgreeOn P m m') (hP : ∀ i < n, P (a + i)) : m.bytes a n = m'.bytes a n := by
  unfold Memory.bytes
  apply List.map_congr_left
  intro i hi
  exact h _ (hP i (List.mem_range.mp hi))

/-! ## Writes -/

theorem store8 (h : AgreeOn P m m') (a : Nat) (v : UInt8) :
    AgreeOn (fun b => P b ∨ b = a) (m.store8 a v) (m'.store8 a v) := by
  intro b hb
  by_cases hba : b = a
  · rw [hba, Memory.store8_self, Memory.store8_self]
  · rw [Memory.store8_of_ne hba, Memory.store8_of_ne hba]
    exact h b (hb.resolve_right hba)

theorem store16 (h : AgreeOn P m m') (a : Nat) (v : UInt16) :
    AgreeOn (fun b => P b ∨ (a ≤ b ∧ b < a + 2)) (m.store16 a v) (m'.store16 a v) := by
  apply ((h.store8 a v.toUInt8).store8 (a + 1) (v / 256).toUInt8).mono
  intro b hb
  rcases hb with hb | hb
  · exact Or.inl (Or.inl hb)
  · obtain rfl | rfl : b = a ∨ b = a + 1 := by omega
    · exact Or.inl (Or.inr rfl)
    · exact Or.inr rfl

theorem store32 (h : AgreeOn P m m') (a : Nat) (v : UInt32) :
    AgreeOn (fun b => P b ∨ (a ≤ b ∧ b < a + 4)) (m.store32 a v) (m'.store32 a v) := by
  apply ((h.store16 a v.toUInt16).store16 (a + 2) (v / 65536).toUInt16).mono
  intro b hb
  rcases hb with hb | hb
  · exact Or.inl (Or.inl hb)
  · by_cases hlow : b < a + 2
    · exact Or.inl (Or.inr ⟨hb.1, hlow⟩)
    · exact Or.inr ⟨by omega, by omega⟩

theorem copy (h : AgreeOn P m m') (a : Nat) (src : List UInt8) :
    AgreeOn (fun b => P b ∨ (a ≤ b ∧ b < a + src.length)) (m.copy a src) (m'.copy a src) := by
  intro b hb
  by_cases hba : a ≤ b ∧ b < a + src.length
  · unfold Memory.copy
    rw [if_pos hba.1, if_pos hba.1, List.getElem?_eq_getElem (by omega)]
    rfl
  · rw [Memory.copy_of_disjoint (by omega), Memory.copy_of_disjoint (by omega)]
    exact h b (hb.resolve_right hba)

/-- A word written back from memories that agree there. -/
theorem store16_load16 {x x' : Memory} (h : AgreeOn P m m')
    (hx : ∀ b, P b → a ≤ b → b < a + 2 → x b = x' b) :
    AgreeOn P (m.store16 a (x.load16 a)) (m'.store16 a (x'.load16 a)) := by
  intro b hb
  by_cases hba : b < a ∨ a + 2 ≤ b
  · rw [Memory.store16_of_disjoint hba, Memory.store16_of_disjoint hba]
    exact h b hb
  · have hsame := hx b hb (by omega) (by omega)
    obtain ⟨hlo, hhi⟩ := Memory.toUInt8_load16 (m := x) (a := a)
    obtain ⟨hlo', hhi'⟩ := Memory.toUInt8_load16 (m := x') (a := a)
    obtain rfl | rfl : b = a ∨ b = a + 1 := by omega
    · rw [Memory.store16_self, Memory.store16_self, hlo, hlo', hsame]
    · rw [Memory.store16_succ, Memory.store16_succ, hhi, hhi', hsame]

end AgreeOn

/-! ## One byte -/

/-- Two memories that differ in one byte, which is zero in the first. -/
structure OneByte (p : Nat) (v : UInt8) (m m' : Memory) : Prop where
  zero : m p = 0
  value : m' p = v
  rest : AgreeOn (fun a => a ≠ p) m m'

namespace OneByte

variable {p a : Nat} {v : UInt8} {m m' : Memory}

theorem load16_eq (h : OneByte p v m m') (hp : p < a ∨ a + 2 ≤ p) : m.load16 a = m'.load16 a :=
  h.rest.load16 (by omega) (by omega)

theorem load32_eq (h : OneByte p v m m') (hp : p < a ∨ a + 4 ≤ p) : m.load32 a = m'.load32 a :=
  h.rest.load32 fun i hi => by omega

theorem load16_ne (h : OneByte (a + 1) 1 m m') : m.load16 a ≠ m'.load16 a := by
  intro hload
  obtain ⟨_, hbyte⟩ := Memory.toUInt8_load16 (m := m) (a := a)
  obtain ⟨_, hbyte'⟩ := Memory.toUInt8_load16 (m := m') (a := a)
  rw [hload, hbyte', h.zero, h.value] at hbyte
  exact absurd hbyte (by decide)

theorem load32_ne (h : OneByte (a + 3) 1 m m') : m.load32 a ≠ m'.load32 a := by
  intro hload
  obtain ⟨_, _, _, hbyte⟩ := Memory.toUInt8_load32 (m := m) (a := a)
  obtain ⟨_, _, _, hbyte'⟩ := Memory.toUInt8_load32 (m := m') (a := a)
  rw [hload, hbyte', h.zero, h.value] at hbyte
  exact absurd hbyte (by decide)

theorem store16 (h : OneByte p v m m') (hp : p < a ∨ a + 2 ≤ p) (x : UInt16) :
    OneByte p v (m.store16 a x) (m'.store16 a x) := by
  refine ⟨?_, ?_, ?_⟩
  · rw [Memory.store16_of_disjoint hp, h.zero]
  · rw [Memory.store16_of_disjoint hp, h.value]
  · exact (h.rest.store16 a x).mono fun b hb => Or.inl hb

/-- A word of which one byte is stored in two ways. -/
theorem of_store16 (m : Memory) (a : Nat) :
    OneByte (a + 1) 1 (m.store16 a 0) (m.store16 a 256) := by
  refine ⟨?_, ?_, ?_⟩
  · rw [Memory.store16_succ]
    rfl
  · rw [Memory.store16_succ]
    rfl
  · intro b hb
    by_cases hba : b = a
    · rw [hba, Memory.store16_self, Memory.store16_self]
      rfl
    · rw [Memory.store16_of_disjoint (by omega), Memory.store16_of_disjoint (by omega)]

theorem of_store32 (m : Memory) (a : Nat) :
    OneByte (a + 1) 1 (m.store32 a 0) (m.store32 a 256) :=
  (of_store16 m a).store16 (Or.inl (by omega)) 0

end OneByte
