import Mathlib.Data.List.Basic
import Mathlib.Tactic.Ring

/-! Decimal numerals as lists of characters: their value, padding with zeros,
and the agreement of numerical and lexicographic order on one length. -/

namespace Numeral

def value (s : List Char) : Nat := Nat.ofDigitChars 10 s 0

def zeroPad (width : Nat) (s : List Char) : List Char := List.replicate (width - s.length) '0' ++ s

def padded (width n : Nat) : List Char := zeroPad width (Nat.toDigits 10 n)

theorem isDigit_of_mem_padded {width n : Nat} {c : Char} (h : c ∈ padded width n) :
    c.isDigit = true := by
  rcases List.mem_append.mp h with h | h
  · rw [List.eq_of_mem_replicate h]
    rfl
  · exact Nat.isDigit_of_mem_toDigits (by decide) (by decide) h

theorem value_padded (width n : Nat) : value (padded width n) = n := by
  rw [value, padded, zeroPad, Nat.ofDigitChars_append, Nat.ofDigitChars_replicate_zero, Nat.mul_zero,
    Nat.ofDigitChars_ten_toDigits]

theorem padded_ne_nil (width n : Nat) : padded width n ≠ [] :=
  List.append_ne_nil_of_right_ne_nil _ Nat.toDigits_ne_nil

theorem length_padded (width n : Nat) :
    (padded width n).length = max width (Nat.toDigits 10 n).length := by
  rw [padded, zeroPad, List.length_append, List.length_replicate]
  omega

theorem length_padded_of_lt {width n : Nat} (hwidth : 0 < width) (h : n < 10 ^ width) :
    (padded width n).length = width := by
  have hle := (Nat.length_toDigits_le_iff (by decide) hwidth).mpr h
  rw [length_padded]
  omega

theorem value_cons (c : Char) (s : List Char) :
    value (c :: s) = (c.toNat - 48) * 10 ^ s.length + value s := by
  rw [value, Nat.ofDigitChars_cons, Nat.ofDigitChars_eq_ofDigitChars_zero, Nat.mul_zero, Nat.zero_add,
    Nat.mul_comm, value]
  rfl

theorem toNat_of_isDigit {c : Char} (h : c.isDigit = true) : 48 ≤ c.toNat ∧ c.toNat ≤ 57 :=
  Char.isDigit_iff_toNat.mp h

theorem value_lt {s : List Char} (h : ∀ c ∈ s, c.isDigit = true) : value s < 10 ^ s.length := by
  induction s with
  | nil => exact Nat.one_pos
  | cons c s ih =>
    have hc := toNat_of_isDigit (h c List.mem_cons_self)
    have hs := ih fun d hd => h d (List.mem_cons_of_mem c hd)
    have hmul : (c.toNat - 48) * 10 ^ s.length ≤ 9 * 10 ^ s.length :=
      Nat.mul_le_mul_right _ (by omega)
    rw [value_cons, List.length_cons, Nat.pow_succ]
    omega

/-- On numerals of one length the lexicographic order is the numerical one,
whatever follows them. -/
theorem append_lt_append {s t : List Char} (hs : ∀ c ∈ s, c.isDigit = true)
    (ht : ∀ c ∈ t, c.isDigit = true) (hlen : s.length = t.length) (hlt : value s < value t)
    (x y : List Char) : s ++ x < t ++ y := by
  induction s generalizing t with
  | nil =>
    rw [List.length_nil] at hlen
    rw [List.length_eq_zero_iff.mp hlen.symm] at hlt
    exact absurd hlt (Nat.lt_irrefl _)
  | cons c s ih =>
    cases t with
    | nil => cases hlen
    | cons d t =>
      have hlen' : s.length = t.length := Nat.succ.inj hlen
      have hs' := fun e he => hs e (List.mem_cons_of_mem c he)
      have ht' := fun e he => ht e (List.mem_cons_of_mem d he)
      have hc := toNat_of_isDigit (hs c List.mem_cons_self)
      have hd := toNat_of_isDigit (ht d List.mem_cons_self)
      have hvs := value_lt hs'
      have hvt := value_lt ht'
      rw [value_cons, value_cons, hlen'] at hlt
      rw [hlen'] at hvs
      rw [List.cons_append, List.cons_append, List.cons_lt_cons_iff]
      rcases Nat.lt_trichotomy c.toNat d.toNat with hcd | hcd | hcd
      · exact .inl hcd
      · have heq : c = d := Char.toNat_inj.mp hcd
        subst heq
        exact .inr ⟨rfl, ih hs' ht' hlen' (by omega)⟩
      · -- a greater first digit outweighs all the others
        have hmul : (d.toNat - 48 + 1) * 10 ^ t.length ≤ (c.toNat - 48) * 10 ^ t.length :=
          Nat.mul_le_mul_right _ (by omega)
        rw [Nat.add_mul, Nat.one_mul] at hmul
        omega

theorem length_toDigits_pow (w : Nat) : (Nat.toDigits 10 (10 ^ w)).length = w + 1 := by
  have hle := (Nat.length_toDigits_le_iff (n := 10 ^ w) (b := 10) (k := w + 1) (by decide)
    (Nat.succ_pos w)).mpr (Nat.pow_lt_pow_right (by decide) (Nat.lt_succ_self w))
  cases w with
  | zero => rfl
  | succ w =>
    have hgt := mt (Nat.length_toDigits_le_iff (n := 10 ^ (w + 1)) (b := 10) (k := w + 1) (by decide)
      (Nat.succ_pos w)).mp (Nat.lt_irrefl _)
    omega

/-- The first numeral that is wider than the ones before it comes before the last of them. -/
theorem padded_pow_lt {width : Nat} (hwidth : 0 < width) (x y : List Char) :
    padded width (10 ^ width) ++ x < padded width (10 ^ width - 1) ++ y := by
  obtain ⟨w, rfl⟩ : ∃ w, width = w + 1 := ⟨width - 1, by omega⟩
  have hpos : 1 ≤ 10 ^ w := Nat.one_le_pow _ _ (by decide)
  have hpow : 10 ^ (w + 1) = 10 ^ w * 10 := Nat.pow_succ ..
  have hwide : padded (w + 1) (10 ^ (w + 1)) = padded (w + 1) (10 ^ w) ++ ['0'] := by
    rw [padded, padded, zeroPad, zeroPad, length_toDigits_pow, length_toDigits_pow,
      Nat.toDigits_of_base_le (by decide) (by omega), hpow, Nat.mul_mod_left,
      Nat.mul_div_cancel _ (by decide)]
    simp
  rw [hwide, List.append_assoc]
  refine append_lt_append (fun c hc => isDigit_of_mem_padded hc)
    (fun c hc => isDigit_of_mem_padded hc) ?_ ?_ _ _
  · rw [length_padded_of_lt hwidth (by omega), length_padded_of_lt hwidth (by omega)]
  · rw [value_padded, value_padded]
    omega

end Numeral
