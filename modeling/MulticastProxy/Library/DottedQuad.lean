import Mathlib.Tactic

/-!
# IPv4 addresses as text

`inet_ntoa` prints an address as four decimal octets, `inet_pton` reads exactly
this form back: no leading zero, no octet above 255, no missing or extra octet.
-/

set_option autoImplicit false

namespace DottedQuad

def digit (d : Nat) : Char := Char.ofNat (48 + d)

/-- An octet in decimal. -/
def octet (n : Nat) : List Char :=
  if n < 10 then [digit n]
  else if n < 100 then [digit (n / 10), digit (n % 10)]
  else [digit (n / 100), digit (n / 10 % 10), digit (n % 10)]

def inetNtoa (ip : UInt32) : List Char :=
  octet (ip.toNat / 2 ^ 24) ++ '.' :: octet (ip.toNat / 2 ^ 16 % 256) ++
    '.' :: octet (ip.toNat / 2 ^ 8 % 256) ++ '.' :: octet (ip.toNat % 256)

/-- The parser's variables: octets begun, whether the last character was a digit, and the
octets, last one first. -/
structure Parser where
  octets : Nat
  sawDigit : Bool
  tmp : List Nat
  deriving DecidableEq, Repr

def Parser.step (p : Parser) (ch : Char) : Option Parser :=
  match p.tmp with
  | [] => none
  | tp :: done =>
    if ch.isDigit then
      let new := tp * 10 + (ch.toNat - 48)
      if p.sawDigit && tp == 0 then none
      else if 255 < new then none
      else if p.sawDigit then some { p with tmp := new :: done }
      else if 4 < p.octets + 1 then none
      else some ⟨p.octets + 1, true, new :: done⟩
    else if ch == '.' && p.sawDigit then
      if p.octets = 4 then none else some ⟨p.octets, false, 0 :: tp :: done⟩
    else none

def Parser.init : Parser := ⟨0, false, [0]⟩

def inetPton (src : List Char) : Option UInt32 :=
  match src.foldlM Parser.step .init with
  | some ⟨octets, _, [d, c, b, a]⟩ =>
    if octets < 4 then none else some (UInt32.ofNat (((a * 256 + b) * 256 + c) * 256 + d))
  | _ => none

theorem digit_facts : ∀ d < 10, (digit d).isDigit = true ∧ (digit d).toNat - 48 = d := by decide

theorem step_first (k : Nat) (done : List Nat) {d : Nat} (hd : d < 10) (hk : k < 4) :
    Parser.step ⟨k, false, 0 :: done⟩ (digit d) = some ⟨k + 1, true, d :: done⟩ := by
  obtain ⟨h1, h2⟩ := digit_facts d hd
  have hfour : ¬ 4 < k + 1 := by omega
  have hbyte : ¬ 255 < d := by omega
  simp [Parser.step, h1, h2, hbyte, hfour]

theorem step_next (k : Nat) (done : List Nat) {tp d : Nat} (hd : d < 10) (htp : 0 < tp)
    (hnew : tp * 10 + d ≤ 255) :
    Parser.step ⟨k, true, tp :: done⟩ (digit d) = some ⟨k, true, (tp * 10 + d) :: done⟩ := by
  obtain ⟨h1, h2⟩ := digit_facts d hd
  simp [Parser.step, h1, h2, Nat.not_lt.mpr hnew, Nat.ne_of_gt htp]

theorem foldlM_octet {k n : Nat} {done : List Nat} (hn : n < 256) (hk : k < 4) :
    (octet n).foldlM Parser.step ⟨k, false, 0 :: done⟩ = some ⟨k + 1, true, n :: done⟩ := by
  unfold octet
  split
  · rename_i h10
    simp [step_first k done h10 hk]
  · split
    · rename_i h10 h100
      have h1 := step_first k done (by omega : n / 10 < 10) hk
      have h2 := step_next (k + 1) done (by omega : n % 10 < 10) (by omega : 0 < n / 10) (by omega)
      have hdigits : n / 10 * 10 + n % 10 = n := by omega
      rw [hdigits] at h2
      simp [h1, h2]
    · rename_i h10 h100
      have h1 := step_first k done (by omega : n / 100 < 10) hk
      have h2 := step_next (k + 1) done (by omega : n / 10 % 10 < 10) (by omega : 0 < n / 100)
        (by omega)
      have htens : n / 100 * 10 + n / 10 % 10 = n / 10 := by omega
      rw [htens] at h2
      have h3 := step_next (k + 1) done (by omega : n % 10 < 10) (by omega : 0 < n / 10) (by omega)
      have hones : n / 10 * 10 + n % 10 = n := by omega
      rw [hones] at h3
      simp [h1, h2, h3]

theorem step_dot {k tp : Nat} {done : List Nat} (hk : k < 4) :
    Parser.step ⟨k, true, tp :: done⟩ '.' = some ⟨k, false, 0 :: tp :: done⟩ := by
  have hdot : ('.').isDigit = false := by decide
  simp [Parser.step, hdot, Nat.ne_of_lt hk]

theorem inetPton_inetNtoa (ip : UInt32) : inetPton (inetNtoa ip) = some ip := by
  have hip := ip.toNat_lt
  have hfold : (inetNtoa ip).foldlM Parser.step .init = some ⟨4, true,
      [ip.toNat % 256, ip.toNat / 2 ^ 8 % 256, ip.toNat / 2 ^ 16 % 256, ip.toNat / 2 ^ 24]⟩ := by
    unfold inetNtoa Parser.init
    simp only [List.cons_append, List.append_assoc, List.foldlM_append, List.foldlM_cons,
      foldlM_octet (by omega : ip.toNat / 2 ^ 24 < 256) (by omega : 0 < 4),
      foldlM_octet (by omega : ip.toNat / 2 ^ 16 % 256 < 256) (by omega : 1 < 4),
      foldlM_octet (by omega : ip.toNat / 2 ^ 8 % 256 < 256) (by omega : 2 < 4),
      foldlM_octet (by omega : ip.toNat % 256 < 256) (by omega : 3 < 4),
      step_dot (by omega : 1 < 4), step_dot (by omega : 2 < 4), step_dot (by omega : 3 < 4),
      Option.bind_eq_bind, Option.bind_some, Nat.zero_add, Nat.reduceAdd]
  have hval : ((ip.toNat / 2 ^ 24 * 256 + ip.toNat / 2 ^ 16 % 256) * 256 +
      ip.toNat / 2 ^ 8 % 256) * 256 + ip.toNat % 256 = ip.toNat := by omega
  unfold inetPton
  rw [hfold]
  simp only [Nat.lt_irrefl, if_false, hval, UInt32.ofNat_toNat]

theorem inetNtoa_injective : Function.Injective inetNtoa := by
  intro a b h
  have := congrArg inetPton h
  simpa [inetPton_inetNtoa] using this

theorem octet_isDigit {n : Nat} (hn : n < 256) {ch : Char} (h : ch ∈ octet n) :
    ch.isDigit = true := by
  unfold octet at h
  split at h
  · rename_i h10
    simp only [List.mem_singleton] at h
    exact h ▸ (digit_facts n h10).1
  · split at h
    · simp only [List.mem_cons, List.not_mem_nil, or_false] at h
      rcases h with rfl | rfl
      · exact (digit_facts _ (by omega)).1
      · exact (digit_facts _ (by omega)).1
    · simp only [List.mem_cons, List.not_mem_nil, or_false] at h
      rcases h with rfl | rfl | rfl
      · exact (digit_facts _ (by omega)).1
      · exact (digit_facts _ (by omega)).1
      · exact (digit_facts _ (by omega)).1

theorem mem_inetNtoa {ip : UInt32} {ch : Char} (h : ch ∈ inetNtoa ip) :
    ch.isDigit = true ∨ ch = '.' := by
  have hip := ip.toNat_lt
  simp only [inetNtoa, List.append_assoc, List.mem_append, List.mem_cons, List.cons_append] at h
  rcases h with h | rfl | h | rfl | h | rfl | h
  · exact Or.inl (octet_isDigit (by omega) h)
  · exact Or.inr rfl
  · exact Or.inl (octet_isDigit (by omega) h)
  · exact Or.inr rfl
  · exact Or.inl (octet_isDigit (by omega) h)
  · exact Or.inr rfl
  · exact Or.inl (octet_isDigit (by omega) h)

theorem length_octet (n : Nat) : 1 ≤ (octet n).length ∧ (octet n).length ≤ 3 := by
  unfold octet
  split
  · simp
  · split <;> simp

theorem length_inetNtoa (ip : UInt32) :
    7 ≤ (inetNtoa ip).length ∧ (inetNtoa ip).length ≤ 15 := by
  have h1 := length_octet (ip.toNat / 2 ^ 24)
  have h2 := length_octet (ip.toNat / 2 ^ 16 % 256)
  have h3 := length_octet (ip.toNat / 2 ^ 8 % 256)
  have h4 := length_octet (ip.toNat % 256)
  simp only [inetNtoa, List.append_assoc, List.length_append, List.length_cons, List.cons_append]
  omega

/-! ## Nothing else is read -/

theorem digit_of_isDigit {ch : Char} (h : ch.isDigit = true) :
    ch.toNat - 48 < 10 ∧ digit (ch.toNat - 48) = ch := by
  have hrange : 48 ≤ ch.toNat ∧ ch.toNat ≤ 57 := by
    simpa [Char.isDigit, UInt32.le_iff_toNat_le] using h
  refine ⟨by omega, ?_⟩
  have hvalue : 48 + (ch.toNat - 48) = ch.toNat := by omega
  rw [digit, hvalue, Char.ofNat_toNat]

theorem octet_append {tp d : Nat} (htp : 0 < tp) (hd : d < 10) (hnew : tp * 10 + d ≤ 255) :
    octet (tp * 10 + d) = octet tp ++ [digit d] := by
  have hlast : (tp * 10 + d) % 10 = d := by omega
  have hfirst : (tp * 10 + d) / 10 = tp := by omega
  unfold octet
  rw [if_neg (by omega)]
  by_cases h10 : tp < 10
  · rw [if_pos (by omega), if_pos h10, hlast, hfirst]
    rfl
  · rw [if_neg (by omega), if_neg h10, if_pos (by omega), hlast, hfirst,
      show (tp * 10 + d) / 100 = tp / 10 by omega]
    rfl

/-- Octets that are done, each with its dot, last one first. -/
def dotted : List Nat → List Char
  | [] => []
  | tp :: done => dotted done ++ octet tp ++ ['.']

/-- What the parser has read, and that its octets are bytes. -/
structure Parser.Read (p : Parser) (src : List Char) : Prop where
  octets : p.octets = p.tmp.length - 1 + p.sawDigit.toNat
  bytes : ∀ tp ∈ p.tmp, tp < 256
  text : ∃ tp done, p.tmp = tp :: done ∧
    src = dotted done ++ if p.sawDigit = true then octet tp else []
  fresh : p.sawDigit = false → p.tmp.head? = some 0

theorem Parser.read_init : Parser.init.Read [] :=
  ⟨rfl, by simp [Parser.init], ⟨0, [], rfl, rfl⟩, fun _ => rfl⟩

theorem Parser.Read.step {p p' : Parser} {src : List Char} {ch : Char} (h : p.Read src)
    (hstep : p.step ch = some p') : p'.Read (src ++ [ch]) := by
  obtain ⟨octets, saw, tmp⟩ := p
  obtain ⟨hoctets, hbytes, ⟨tp, done, htmp, hsrc⟩, hfresh⟩ := h
  simp only at hoctets hbytes htmp hsrc hfresh
  subst htmp
  unfold Parser.step at hstep
  simp only at hstep
  split at hstep
  · rename_i hdigit
    obtain ⟨hd, hch⟩ := digit_of_isDigit hdigit
    split at hstep
    · cases hstep
    · rename_i hzero
      split at hstep
      · cases hstep
      · rename_i hbyte
        have hnew : ∀ t ∈ (tp * 10 + (ch.toNat - 48)) :: done, t < 256 := by
          intro t ht
          rcases List.mem_cons.mp ht with rfl | ht
          · omega
          · exact hbytes t (List.mem_cons_of_mem _ ht)
        split at hstep
        · rename_i hsaw
          obtain rfl := Option.some.inj hstep
          have hpos : 0 < tp := by
            simp only [hsaw, Bool.true_and, beq_iff_eq] at hzero
            omega
          refine ⟨hoctets, hnew, ⟨_, done, rfl, ?_⟩, fun hno => ?_⟩
          · rw [hsrc, if_pos hsaw, if_pos hsaw, octet_append hpos hd (by omega), hch,
              List.append_assoc]
          · exact absurd hsaw (by simpa using hno)
        · rename_i hsaw
          split at hstep
          · cases hstep
          · obtain rfl := Option.some.inj hstep
            have hno : saw = false := by simpa using hsaw
            have htp : tp = 0 := Option.some.inj (hfresh hno)
            refine ⟨?_, hnew, ⟨_, done, rfl, ?_⟩, fun h => by cases h⟩
            · rw [hoctets, hno]
              simp
            · rw [hsrc, htp, hno, Nat.zero_mul, Nat.zero_add]
              have hoctet : octet (ch.toNat - 48) = [ch] := by
                rw [octet, if_pos hd, hch]
              simp [hoctet]
  · split at hstep
    · rename_i hdot
      simp only [Bool.and_eq_true, beq_iff_eq] at hdot
      obtain ⟨rfl, hsaw⟩ := hdot
      split at hstep
      · cases hstep
      · obtain rfl := Option.some.inj hstep
        refine ⟨?_, ?_, ⟨0, tp :: done, rfl, ?_⟩, fun _ => rfl⟩
        · rw [hoctets, hsaw]
          simp
        · intro t ht
          rcases List.mem_cons.mp ht with rfl | ht
          · decide
          · exact hbytes t ht
        · rw [hsrc, if_pos hsaw]
          simp [dotted]
    · cases hstep

theorem Parser.Read.foldlM {p p' : Parser} {src rest : List Char} (h : p.Read src)
    (hfold : rest.foldlM Parser.step p = some p') : p'.Read (src ++ rest) := by
  induction rest generalizing p src with
  | nil =>
    obtain rfl := Option.some.inj hfold
    rwa [List.append_nil]
  | cons ch rest ih =>
    rw [List.foldlM_cons] at hfold
    obtain ⟨q, hstep, hrest⟩ := Option.bind_eq_some_iff.mp hfold
    rw [List.append_cons]
    exact ih (h.step hstep) hrest

/-- `inet_pton` reads the texts of `inet_ntoa` and no others. -/
theorem inetPton_eq_some_iff {src : List Char} {ip : UInt32} :
    inetPton src = some ip ↔ src = inetNtoa ip := by
  constructor
  · intro h
    unfold inetPton at h
    split at h
    · rename_i octets saw d c b a hfold
      split at h
      · cases h
      · rename_i hfour
        obtain ⟨hoctets, hbytes, ⟨tp, done, htmp, hsrc⟩, _⟩ := Parser.read_init.foldlM hfold
        simp only [List.length_cons, List.length_nil] at hoctets
        obtain ⟨rfl, rfl⟩ := List.cons.inj htmp
        have hsaw : saw = true := by
          cases saw with
          | true => rfl
          | false =>
            simp only [Bool.toNat_false] at hoctets
            omega
        have ha : a < 256 := hbytes a (by simp)
        have hb : b < 256 := hbytes b (by simp)
        have hc : c < 256 := hbytes c (by simp)
        have hd : d < 256 := hbytes d (by simp)
        have hval : (UInt32.ofNat (((a * 256 + b) * 256 + c) * 256 + d)).toNat =
            ((a * 256 + b) * 256 + c) * 256 + d := UInt32.toNat_ofNat_of_lt' (by
          rw [UInt32.size]
          omega)
        rw [List.nil_append] at hsrc
        rw [← Option.some.inj h, inetNtoa, hval, hsrc, if_pos hsaw,
          show (((a * 256 + b) * 256 + c) * 256 + d) / 2 ^ 24 = a by omega,
          show (((a * 256 + b) * 256 + c) * 256 + d) / 2 ^ 16 % 256 = b by omega,
          show (((a * 256 + b) * 256 + c) * 256 + d) / 2 ^ 8 % 256 = c by omega,
          show (((a * 256 + b) * 256 + c) * 256 + d) % 256 = d by omega]
        simp [dotted]
    · cases h
  · rintro rfl
    exact inetPton_inetNtoa ip

end DottedQuad
