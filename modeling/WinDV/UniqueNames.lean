import WinDV.CaptureFilename
import Mathlib.Data.Set.Insert
import Mathlib.Tactic.Common

/-! When `GetCaptureFilename` names a new file. The scan finds the widest
all-digit suffixes and the greatest of their numbers; the next number is a new
one unless it, or a number before it, does not fit an `int`. -/

namespace WinDV

/-- The outcome `s` of a scan over files with the all-digit suffixes `S`. -/
structure Highest (ndigits : Nat) (S : Set CString) (s : NumberScan) : Prop where
  le_maxn : ndigits ≤ s.maxn
  widest : ∀ t ∈ S, t.length ≤ s.maxn
  attained : (s.maxn = ndigits ∧ s.max = -1) ∨ ∃ t ∈ S, t.length = s.maxn ∧ readNumber t = s.max
  greatest : ∀ t ∈ S, t.length = s.maxn → readNumber t ≤ s.max
  initial : s.maxn = ndigits → -1 ≤ s.max

def Numeric (t : CString) : Prop := t ≠ [] ∧ ∀ c ∈ t, c.isDigit = true

section Scan

variable {bassiz ndigits : Nat} {S : Set CString} {s : NumberScan} {name : CString}

theorem length_numberPart (bassiz : Nat) (name : CString) :
    (numberPart bassiz name).length = name.length - bassiz - 5 := by
  rw [numberPart, List.length_take, List.length_drop]
  omega

theorem scanName_of_not_numeric (h : ¬ Numeric (numberPart bassiz name)) :
    scanName bassiz s name = s := by
  unfold scanName
  by_cases hl : name.length - bassiz - 5 > 0 ∧ name.length - bassiz - 5 ≥ s.maxn
  · have hdigits : ¬ (numberPart bassiz name).all Char.isDigit = true := by
      intro hall
      refine h ⟨?_, List.all_eq_true.mp hall⟩
      rw [← List.length_pos_iff, length_numberPart]
      exact hl.1
    simp only [if_pos hl, if_neg hdigits]
  · simp only [if_neg hl]

theorem scanName_of_numeric (h : Numeric (numberPart bassiz name)) :
    scanName bassiz s name =
      if (numberPart bassiz name).length > s.maxn then
        ⟨(numberPart bassiz name).length, readNumber (numberPart bassiz name)⟩
      else if (numberPart bassiz name).length = s.maxn ∧ readNumber (numberPart bassiz name) > s.max then
        { s with max := readNumber (numberPart bassiz name) }
      else s := by
  have hpos := List.length_pos_iff.mpr h.1
  have hall : (numberPart bassiz name).all Char.isDigit = true := List.all_eq_true.mpr h.2
  unfold scanName
  rw [length_numberPart] at hpos
  simp only [length_numberPart, hall, if_true]
  by_cases hge : name.length - bassiz - 5 ≥ s.maxn
  · simp only [gt_iff_lt, hpos, hge, and_self, if_true]
    by_cases hgt : s.maxn < name.length - bassiz - 5
    · simp only [if_pos hgt]
    · have heq : name.length - bassiz - 5 = s.maxn := by omega
      simp only [heq, true_and]
  · have hgt : ¬ name.length - bassiz - 5 > s.maxn := by omega
    have hne : ¬ name.length - bassiz - 5 = s.maxn := by omega
    simp only [hge, hgt, hne, and_false, false_and, if_false]

theorem Highest.scanName (h : Highest ndigits S s) (hnum : Numeric (numberPart bassiz name)) :
    Highest ndigits (insert (numberPart bassiz name) S) (scanName bassiz s name) := by
  rw [scanName_of_numeric hnum]
  generalize numberPart bassiz name = t
  by_cases hwide : t.length > s.maxn
  · rw [if_pos hwide]
    have hle := h.le_maxn
    refine ⟨by dsimp only; omega, ?_, .inr ⟨t, Set.mem_insert _ _, rfl, rfl⟩, ?_, by dsimp only; omega⟩
    · rintro u (rfl | hu)
      · exact Nat.le_refl _
      · exact (h.widest u hu).trans (Nat.le_of_lt hwide)
    · rintro u (rfl | hu) hlen
      · exact Int32.le_refl _
      · have := h.widest u hu
        dsimp only at hlen
        omega
  · rw [if_neg hwide]
    have hwidest : ∀ u ∈ insert t S, u.length ≤ s.maxn := by
      rintro u (rfl | hu)
      · omega
      · exact h.widest u hu
    by_cases hgreater : t.length = s.maxn ∧ readNumber t > s.max
    · rw [if_pos hgreater]
      refine ⟨h.le_maxn, hwidest, .inr ⟨t, Set.mem_insert _ _, hgreater.1, rfl⟩, ?_, ?_⟩
      · rintro u (rfl | hu) hlen
        · exact Int32.le_refl _
        · exact Int32.le_of_lt (Int32.lt_of_le_of_lt (h.greatest u hu hlen) hgreater.2)
      · intro hmin
        exact Int32.le_of_lt (Int32.lt_of_le_of_lt (h.initial hmin) hgreater.2)
    · rw [if_neg hgreater]
      refine ⟨h.le_maxn, hwidest, ?_, ?_, h.initial⟩
      · rcases h.attained with hmin | ⟨u, hu, hlen, hmax⟩
        · exact .inl hmin
        · exact .inr ⟨u, Set.mem_insert_of_mem _ hu, hlen, hmax⟩
      · rintro u (rfl | hu) hlen
        · exact Int32.not_lt.mp fun hlt => hgreater ⟨hlen, hlt⟩
        · exact h.greatest u hu hlen

def numbersOf (bassiz : Nat) (names : List CString) : Set CString :=
  {t | Numeric t ∧ ∃ e ∈ names, numberPart bassiz e = t}

theorem scanNames_highest (bassiz ndigits : Nat) (names : List CString) :
    Highest ndigits (numbersOf bassiz names) (scanNames bassiz ndigits names) := by
  induction names using List.reverseRecOn with
  | nil =>
    have hnone : ∀ t, t ∉ numbersOf bassiz [] := by
      rintro t ⟨-, e, he, -⟩
      exact List.not_mem_nil he
    exact ⟨Nat.le_refl _, fun t ht => absurd ht (hnone t), .inl ⟨rfl, rfl⟩,
      fun t ht => absurd ht (hnone t), fun _ => Int32.le_refl _⟩
  | append_singleton names e ih =>
    rw [scanNames, List.foldl_append, List.foldl_cons, List.foldl_nil]
    by_cases hnum : Numeric (numberPart bassiz e)
    · have hset : numbersOf bassiz (names ++ [e]) =
          insert (numberPart bassiz e) (numbersOf bassiz names) := by
        ext t
        constructor
        · rintro ⟨ht, e', he, rfl⟩
          rcases List.mem_append.mp he with he | he
          · exact .inr ⟨ht, e', he, rfl⟩
          · rw [List.mem_singleton.mp he]
            exact Set.mem_insert _ _
        · rintro (rfl | ⟨ht, e', he, rfl⟩)
          · exact ⟨hnum, e, List.mem_append_right _ List.mem_cons_self, rfl⟩
          · exact ⟨ht, e', List.mem_append_left _ he, rfl⟩
      rw [hset]
      exact ih.scanName hnum
    · have hset : numbersOf bassiz (names ++ [e]) = numbersOf bassiz names := by
        ext t
        constructor
        · rintro ⟨ht, e', he, rfl⟩
          rcases List.mem_append.mp he with he | he
          · exact ⟨ht, e', he, rfl⟩
          · rw [List.mem_singleton.mp he] at ht
            exact absurd ht hnum
        · rintro ⟨ht, e', he, rfl⟩
          exact ⟨ht, e', List.mem_append_left _ he, rfl⟩
      rw [hset, scanName_of_not_numeric hnum]
      exact ih

end Scan

theorem numberPart_name (name t : CString) :
    numberPart name.length (name ++ '.' :: t ++ avi) = t := by
  have hlen : (name ++ '.' :: t ++ avi).length - name.length - 5 = t.length := by
    simp [avi]
  rw [numberPart, hlen, List.append_assoc, ← List.drop_drop, List.drop_left, List.cons_append,
    List.drop_one, List.tail_cons, List.take_left]

theorem CaseRule.Same.number {rule : CaseRule} {e name t : CString}
    (h : rule.Same e (name ++ '.' :: t ++ avi)) : rule.Same (numberPart name.length e) t := by
  have hdrop := (h.drop (name.length + 1)).take (e.length - name.length - 5)
  have hname := numberPart_name name t
  rw [numberPart, ← h.length_eq] at hname
  rwa [hname] at hdrop

/-- What the scan reads is what the directory holds. -/
theorem Lists.numbersOf_eq {rule : CaseRule} {entries : List CString} {basdattim : CString}
    {findFile : CString → List CString} (h : Lists rule entries basdattim findFile) :
    numbersOf (fileName basdattim).length (findFile (basdattim ++ ".*.avi".toList)) =
      suffixes rule entries (fileName basdattim) := by
  ext t
  constructor
  · rintro ⟨⟨hne, hdigits⟩, e, he, rfl⟩
    obtain ⟨hmem, mid, hsame⟩ := (h.numbered e).mp he
    rw [List.append_assoc (fileName basdattim), List.singleton_append] at hsame
    have hmid := hsame.number.symm.eq_of_digits fun c hc => .inl (hdigits c hc)
    rw [hmid] at hsame
    exact ⟨hne, hdigits, e, hmem, hsame⟩
  · rintro ⟨hne, hdigits, e, hmem, hsame⟩
    have hmid := hsame.number.eq_of_digits fun c hc => .inl (hdigits c hc)
    refine ⟨⟨hne, hdigits⟩, e, (h.numbered e).mpr ⟨hmem, t, ?_⟩, hmid⟩
    rw [List.append_assoc (fileName basdattim), List.singleton_append]
    exact hsame

section Names

theorem isSeparator_avi {c : Char} (h : c ∈ avi) : isSeparator c = false := by
  have hall : (avi.all fun c => !isSeparator c) = true := rfl
  simpa using List.all_eq_true.mp hall c h

theorem fileName_append {path rest : CString} (h : ∀ c ∈ rest, isSeparator c = false) :
    fileName (path ++ rest) = fileName path ++ rest := by
  have hall : ∀ c ∈ rest.reverse, (!isSeparator c) = true := fun c hc => by
    rw [h c (List.mem_reverse.mp hc)]
    rfl
  rw [fileName, List.rtakeWhile, List.reverse_append, List.takeWhile_append_of_pos hall,
    List.reverse_append, List.reverse_reverse, fileName, List.rtakeWhile]

theorem formatPadded_of_nonneg {width : Nat} {x : Int32} (h : 0 ≤ x.toInt) :
    formatPadded width x = Numeral.padded width x.toInt.toNat := by
  have hneg : ¬ x < 0 := by
    rw [Int32.lt_iff_toInt_lt]
    exact Int.not_lt.mpr h
  rw [formatPadded, if_neg hneg]
  congr 1
  omega

theorem formatPadded_of_neg {width : Nat} {x : Int32} (h : x.toInt < 0) :
    formatPadded width x = '-' :: Numeral.padded (width - 1) x.toInt.natAbs :=
  if_pos (Int32.lt_iff_toInt_lt.mpr h)

theorem mem_formatPadded {width : Nat} {x : Int32} {c : Char} (h : c ∈ formatPadded width x) :
    c.isDigit = true ∨ c = '-' := by
  unfold formatPadded at h
  split at h
  · rcases List.mem_cons.mp h with rfl | h
    · exact .inr rfl
    · exact .inl (Numeral.isDigit_of_mem_padded h)
  · exact .inl (Numeral.isDigit_of_mem_padded h)

/-- The number that a suffix stands for, with its sign. -/
def signedNumber (s : CString) : Int :=
  if s.head? = some '-' then -(Numeral.value s.tail) else Numeral.value s

theorem signedNumber_formatPadded (width : Nat) (x : Int32) :
    signedNumber (formatPadded width x) = x.toInt := by
  rcases lt_or_ge x.toInt 0 with hneg | hpos
  · rw [formatPadded_of_neg hneg, signedNumber, List.head?_cons, if_pos rfl, List.tail_cons,
      Numeral.value_padded]
    omega
  · have hhead : (Numeral.padded width x.toInt.toNat).head? ≠ some '-' := fun hh =>
      absurd (Numeral.isDigit_of_mem_padded (List.mem_of_head? hh)) (by decide)
    rw [formatPadded_of_nonneg hpos, signedNumber, if_neg hhead, Numeral.value_padded]
    omega

theorem readNumber_eq (t : CString) : readNumber t = Int32.ofNat (Numeral.value t) := by
  have hfold (init : Nat) : t.foldl (fun j c => j * 10 + Int32.ofNat (c.toNat - '0'.toNat))
      (Int32.ofNat init) = Int32.ofNat (Nat.ofDigitChars 10 t init) := by
    induction t generalizing init with
    | nil => rfl
    | cons c t ih =>
      rw [List.foldl_cons, Nat.ofDigitChars_cons, ← ih, Int32.ofNat_add, Int32.ofNat_mul,
        Int32.mul_comm]
      rfl
  exact hfold 0

theorem toInt_readNumber {t : CString} (h : Numeral.value t < 2 ^ 31) :
    (readNumber t).toInt = Numeral.value t := by
  rw [readNumber_eq, Int32.toInt_ofNat_of_lt h]

theorem toInt_add_one {x : Int32} (h : x ≠ Int32.maxValue) : (x + 1).toInt = x.toInt + 1 := by
  have hlt := x.toInt_lt
  have hle := x.le_toInt
  have hne : x.toInt ≠ 2 ^ 31 - 1 := fun he => h (Int32.toInt_inj.mp he)
  rw [Int32.toInt_add]
  exact Int.bmod_eq_of_le (by show _ ≤ x.toInt + 1; omega) (by show x.toInt + 1 < _; omega)

theorem length_toDigits_le_ten (x : Int32) : (Nat.toDigits 10 x.toInt.natAbs).length ≤ 10 := by
  have hlt := x.toInt_lt
  have hle := x.le_toInt
  rw [Nat.length_toDigits_le_iff (by decide) (by decide)]
  omega

/-- How long the next number comes out; a minus sign takes the place of a zero. -/
theorem length_formatPadded (width : Nat) (x : Int32) :
    width ≤ (formatPadded width x).length ∧
      ((formatPadded width x).length = width ∨ width < 10 ∨
        (width = 10 ∧ x.toInt ≤ -10 ^ 9 ∧ (formatPadded width x).length = 11)) := by
  have hten := length_toDigits_le_ten x
  rcases lt_or_ge x.toInt 0 with hneg | hpos
  · rw [formatPadded_of_neg hneg, List.length_cons, Numeral.length_padded]
    refine ⟨by omega, ?_⟩
    by_cases hshort : (Nat.toDigits 10 x.toInt.natAbs).length ≤ 9
    · omega
    · have hbig := mt (Nat.length_toDigits_le_iff (b := 10) (k := 9) (by decide) (by decide)).mpr hshort
      omega
  · rw [formatPadded_of_nonneg hpos, Numeral.length_padded]
    have habs : x.toInt.toNat = x.toInt.natAbs := by omega
    rw [habs]
    omega

end Names

/-- The path `path` names a new file, and a number that was appended to it goes
beyond all the numbers of its width. -/
structure NewName (rule : CaseRule) (entries : List CString) (basdattim path : CString) : Prop where
  absent : ¬ rule.Exists entries (fileName path)
  greater : ∀ s, path = basdattim ++ '.' :: s ++ avi →
    ∀ t ∈ suffixes rule entries (fileName basdattim), t.length = s.length →
      (Numeral.value t : Int) < signedNumber s

/-- The suffixes that the scan ends up with: none is wider. -/
def Widest (ndigits : Nat) (S : Set CString) (t : CString) : Prop :=
  t ∈ S ∧ ndigits ≤ t.length ∧ ∀ u ∈ S, u.length ≤ t.length

/-- The next number after the widest suffixes fits an `int`. -/
def NumbersFit (ndigits : Nat) (S : Set CString) : Prop :=
  ∀ t, Widest ndigits S t → Numeral.value t + 1 < 2 ^ 31

/-- The widest suffixes have ten digits, the number after the greatest of their
readings is a negative one of eleven characters, and no file has that name. -/
def TurnsNegative (rule : CaseRule) (entries : List CString) (basdattim : CString)
    (ndigits : Nat) : Prop :=
  ∃ t, Widest ndigits (suffixes rule entries (fileName basdattim)) t ∧ t.length = 10 ∧
    (∀ u, Widest ndigits (suffixes rule entries (fileName basdattim)) u →
      readNumber u ≤ readNumber t) ∧
    (readNumber t = Int32.maxValue ∨ ndigits < 10 ∧ (readNumber t).toInt < -10 ^ 9) ∧
    ¬ rule.Exists entries (fileName basdattim ++ '.' :: formatPadded 10 (readNumber t + 1) ++ avi)

section Highest

variable {ndigits : Nat} {S : Set CString} {s : NumberScan}

theorem Highest.maxn_eq (h : Highest ndigits S s) {t : CString} (ht : Widest ndigits S t) :
    s.maxn = t.length := by
  have hle := h.widest t ht.1
  rcases h.attained with ⟨hmin, -⟩ | ⟨u, hu, hlen, -⟩
  · have := ht.2.1
    omega
  · have := ht.2.2 u hu
    omega

theorem Highest.widest_of_length (h : Highest ndigits S s) {t : CString} (ht : t ∈ S)
    (hlen : t.length = s.maxn) : Widest ndigits S t :=
  ⟨ht, hlen ▸ h.le_maxn, fun u hu => hlen ▸ h.widest u hu⟩

/-- As long as the numbers fit, the scan knows the greatest of them. -/
theorem Highest.next_of_fit (h : Highest ndigits S s) (hfit : NumbersFit ndigits S) :
    0 ≤ (s.max + 1).toInt ∧
      ∀ t ∈ S, t.length = s.maxn → (Numeral.value t : Int) < (s.max + 1).toInt := by
  have hread : ∀ t ∈ S, t.length = s.maxn → (Numeral.value t : Int) ≤ s.max.toInt := by
    intro t ht hlen
    have hlt := hfit t (h.widest_of_length ht hlen)
    rw [← toInt_readNumber (by omega)]
    exact Int32.le_iff_toInt_le.mp (h.greatest t ht hlen)
  have hmax : -1 ≤ s.max.toInt ∧ s.max.toInt + 1 < 2 ^ 31 := by
    rcases h.attained with ⟨-, hmin⟩ | ⟨t, ht, hlen, hmax⟩
    · rw [hmin]
      decide
    · have hlt := hfit t (h.widest_of_length ht hlen)
      rw [← hmax, toInt_readNumber (by omega)]
      omega
  have hne : s.max ≠ Int32.maxValue := by
    intro he
    rw [he, Int32.toInt_maxValue] at hmax
    omega
  rw [toInt_add_one hne]
  refine ⟨by omega, fun t ht hlen => ?_⟩
  have := hread t ht hlen
  omega

end Highest

section Path

variable {rule : CaseRule} {entries : List CString} {basdattim : CString} {ndigits : Nat}
  {findFile : CString → List CString}

theorem fileName_numbered (basdattim n : CString) (h : ∀ c ∈ n, c.isDigit = true ∨ c = '-') :
    fileName (basdattim ++ '.' :: n ++ avi) = fileName basdattim ++ '.' :: n ++ avi := by
  have havi : ∀ c ∈ avi, isSeparator c = false := fun c hc => isSeparator_avi hc
  rw [List.append_assoc, List.append_assoc]
  apply fileName_append
  intro c hc
  rcases List.mem_cons.mp hc with rfl | hc
  · rfl
  · rcases List.mem_append.mp hc with hc | hc
    · rcases h c hc with hd | rfl
      · have hrange := Numeral.toNat_of_isDigit hd
        simp only [isSeparator, Bool.or_eq_false_iff, beq_eq_false_iff_ne]
        refine ⟨⟨?_, ?_⟩, ?_⟩ <;> rintro rfl <;> revert hrange <;> decide
      · rfl
    · exact havi c hc

theorem fileName_plain (basdattim : CString) : fileName (basdattim ++ avi) = fileName basdattim ++ avi :=
  fileName_append fun _ hc => isSeparator_avi hc

theorem numbered_inj {basdattim s t : CString}
    (h : basdattim ++ '.' :: s ++ avi = basdattim ++ '.' :: t ++ avi) : s = t := by
  rw [List.append_assoc, List.append_assoc] at h
  exact List.append_cancel_right (List.cons.inj (List.append_cancel_left h)).2

/-- The name with a number on it is new exactly when neither that file exists
nor a number of its width reaches it. -/
theorem newName_numbered (basdattim : CString) (width : Nat) (x : Int32) :
    NewName rule entries basdattim (basdattim ++ '.' :: formatPadded width x ++ avi) ↔
      ¬ rule.Exists entries (fileName basdattim ++ '.' :: formatPadded width x ++ avi) ∧
      ∀ t ∈ suffixes rule entries (fileName basdattim), t.length = (formatPadded width x).length →
        (Numeral.value t : Int) < x.toInt := by
  have hname := fileName_numbered basdattim (formatPadded width x) fun c hc => mem_formatPadded hc
  constructor
  · intro h
    refine ⟨hname ▸ h.absent, fun t ht hlen => ?_⟩
    rw [← signedNumber_formatPadded width x]
    exact h.greater _ rfl t ht hlen
  · rintro ⟨habsent, hgreater⟩
    refine ⟨hname ▸ habsent, fun s hs t ht hlen => ?_⟩
    obtain rfl := numbered_inj hs
    rw [signedNumber_formatPadded]
    exact hgreater t ht hlen

theorem newName_of_no_number (h : Lists rule entries basdattim findFile)
    (hnone : suffixes rule entries (fileName basdattim) = ∅) :
    NewName rule entries basdattim
      ((if findFile (basdattim ++ avi) ≠ [] then basdattim ++ '.' :: formatPadded 0 0 else basdattim) ++
        avi) := by
  by_cases hplain : findFile (basdattim ++ avi) ≠ []
  · rw [if_pos hplain, newName_numbered]
    refine ⟨fun hex => ?_, fun t ht => ?_⟩
    · have hzero : formatPadded 0 0 ∈ suffixes rule entries (fileName basdattim) :=
        ⟨by decide, List.forall_mem_singleton.mpr rfl, hex⟩
      rw [hnone] at hzero
      exact hzero
    · rw [hnone] at ht
      exact ht.elim
  · rw [if_neg hplain]
    refine ⟨?_, fun s _ t ht => ?_⟩
    · rw [fileName_plain]
      rintro ⟨e, he, hsame⟩
      exact hplain (List.ne_nil_of_mem ((h.plain e).mpr ⟨he, hsame⟩))
    · rw [hnone] at ht
      exact ht.elim

theorem newName_of_fit {s : NumberScan}
    (h : Highest ndigits (suffixes rule entries (fileName basdattim)) s)
    (hfit : NumbersFit ndigits (suffixes rule entries (fileName basdattim))) :
    NewName rule entries basdattim (basdattim ++ '.' :: formatPadded s.maxn (s.max + 1) ++ avi) := by
  obtain ⟨hpos, hnext⟩ := h.next_of_fit hfit
  have hlen := (length_formatPadded s.maxn (s.max + 1)).1
  rw [newName_numbered]
  refine ⟨fun hex => ?_, fun t ht ht' => ?_⟩
  · -- the number would be among the suffixes, and less than itself
    rw [formatPadded_of_nonneg hpos] at hex hlen
    have hmem : Numeral.padded s.maxn (s.max + 1).toInt.toNat ∈
        suffixes rule entries (fileName basdattim) :=
      ⟨Numeral.padded_ne_nil _ _, fun c hc => Numeral.isDigit_of_mem_padded hc, hex⟩
    have hwide := h.widest _ hmem
    have hlt := hnext _ hmem (by omega)
    rw [Numeral.value_padded] at hlt
    omega
  · have hwide := h.widest t ht
    exact hnext t ht (by omega)

theorem newName_of_turnsNegative {s : NumberScan}
    (h : Highest ndigits (suffixes rule entries (fileName basdattim)) s)
    (hneg : TurnsNegative rule entries basdattim ndigits) :
    NewName rule entries basdattim (basdattim ++ '.' :: formatPadded s.maxn (s.max + 1) ++ avi) := by
  obtain ⟨t, ht, hten, hgreatest, hturn, habsent⟩ := hneg
  have hmaxn : s.maxn = 10 := (h.maxn_eq ht).trans hten
  have hle := Int32.le_iff_toInt_le.mp (h.greatest t ht.1 (hten.trans hmaxn.symm))
  have hmax : s.max = readNumber t := by
    rcases h.attained with ⟨hmin, hone⟩ | ⟨u, hu, hlen, hmax⟩
    · rcases hturn with hmaxValue | ⟨hlt, -⟩
      · rw [hmaxValue, hone] at hle
        exact absurd hle (by decide)
      · omega
    · have hu' := Int32.le_iff_toInt_le.mp (hgreatest u (h.widest_of_length hu hlen))
      rw [hmax] at hu'
      exact Int32.toInt_inj.mp (Int.le_antisymm hu' hle)
  rw [newName_numbered, hmaxn, hmax]
  refine ⟨habsent, fun u hu hlen => ?_⟩
  have hwide := h.widest u hu
  have hbig : (readNumber t + 1).toInt ≤ -10 ^ 9 := by
    rcases hturn with hmaxValue | ⟨-, hlt⟩
    · rw [hmaxValue]
      decide
    · have hne : readNumber t ≠ Int32.maxValue := by
        intro he
        rw [he, Int32.toInt_maxValue] at hlt
        omega
      rw [toInt_add_one hne]
      omega
  have hshort : ¬ (Nat.toDigits 10 (readNumber t + 1).toInt.natAbs).length ≤ 9 := by
    rw [Nat.length_toDigits_le_iff (by decide) (by decide)]
    omega
  rw [formatPadded_of_neg (by omega), List.length_cons, Numeral.length_padded] at hlen
  omega

theorem fit_or_turnsNegative {s : NumberScan}
    (h : Highest ndigits (suffixes rule entries (fileName basdattim)) s)
    (hnew : NewName rule entries basdattim
      (basdattim ++ '.' :: formatPadded s.maxn (s.max + 1) ++ avi)) :
    NumbersFit ndigits (suffixes rule entries (fileName basdattim)) ∨
      TurnsNegative rule entries basdattim ndigits := by
  obtain ⟨habsent, hgreater⟩ := (newName_numbered _ _ _).mp hnew
  by_cases hfit : NumbersFit ndigits (suffixes rule entries (fileName basdattim))
  · exact .inl hfit
  · right
    obtain ⟨t, hno⟩ := not_forall.mp hfit
    obtain ⟨ht, hbig⟩ := Classical.not_imp.mp hno
    have hmaxn := h.maxn_eq ht
    have hlt := (s.max + 1).toInt_lt
    have hten : 10 ≤ s.maxn := by
      by_contra hshort
      have hvalue := Numeral.value_lt ht.1.2.1
      have hpow : 10 ^ t.length ≤ 10 ^ 9 := Nat.pow_le_pow_right (by decide) (by omega)
      omega
    -- a number of the same width is not greater than one that does not fit
    have hwidth : (formatPadded s.maxn (s.max + 1)).length ≠ s.maxn := fun heq => by
      have := hgreater t ht.1 (hmaxn.symm.trans heq.symm)
      omega
    obtain ⟨hmaxn', hnine, -⟩ :=
      ((length_formatPadded s.maxn (s.max + 1)).2.resolve_left hwidth).resolve_left (by omega)
    have hnotzero : s.max ≠ -1 := fun he => by
      rw [he] at hnine
      exact absurd hnine (by decide)
    obtain ⟨u, hu, hlen, hmax⟩ := h.attained.resolve_left fun hmin => hnotzero hmin.2
    refine ⟨u, h.widest_of_length hu hlen, hlen.trans hmaxn', ?_, ?_, ?_⟩
    · intro v hv
      rw [hmax]
      exact h.greatest v hv.1 (h.maxn_eq hv).symm
    · rw [hmax]
      by_cases hlast : s.max = Int32.maxValue
      · exact .inl hlast
      · rw [toInt_add_one hlast] at hnine
        refine .inr ⟨?_, by omega⟩
        by_contra hge
        have hle := h.le_maxn
        have hinit := Int32.le_iff_toInt_le.mp (h.initial (by omega))
        have hone : (-1 : Int32).toInt = -1 := rfl
        omega
    · rw [hmax, ← hmaxn']
      exact habsent

/-- A capture gets the name of a new file, with the next greater number, exactly
when that number fits an `int`, or turns into a negative one that is longer. -/
theorem newName_iff (rule : CaseRule) (entries : List CString) (findFile : CString → List CString)
    (formatTime : CString → Int32 → CString) (now : Int32) (base dtformat : CString) (ndigits : Nat)
    (tim : Int32)
    (hlist : Lists rule entries (baseWithTime formatTime now base dtformat tim) findFile) :
    NewName rule entries (baseWithTime formatTime now base dtformat tim)
        (getCaptureFilename findFile formatTime now base dtformat ndigits tim) ↔
      NumbersFit ndigits
          (suffixes rule entries (fileName (baseWithTime formatTime now base dtformat tim))) ∨
        TurnsNegative rule entries (baseWithTime formatTime now base dtformat tim) ndigits := by
  rw [getCaptureFilename]
  generalize baseWithTime formatTime now base dtformat tim = basdattim at hlist ⊢
  have hscan := scanNames_highest (fileName basdattim).length ndigits
    (findFile (basdattim ++ ".*.avi".toList))
  rw [hlist.numbersOf_eq] at hscan
  unfold captureFilename
  generalize scanNames (fileName basdattim).length ndigits
    (findFile (basdattim ++ ".*.avi".toList)) = s at hscan ⊢
  by_cases hzero : s.maxn = 0
  · have hnone : suffixes rule entries (fileName basdattim) = ∅ := by
      rw [Set.eq_empty_iff_forall_notMem]
      intro t ht
      have hlen := hscan.widest t ht
      exact ht.1 (List.length_eq_zero_iff.mp (by omega))
    have hmax : s.max = -1 := by
      rcases hscan.attained with ⟨-, hmin⟩ | ⟨t, ht, -⟩
      · exact hmin
      · rw [hnone] at ht
        exact ht.elim
    have hnew := newName_of_no_number hlist hnone
    have hif : (if (if s.maxn = 0 ∧ findFile (basdattim ++ avi) ≠ [] then 1 else s.maxn) ≠ 0 then
        basdattim ++ '.' :: formatPadded s.maxn (s.max + 1) else basdattim) =
        if findFile (basdattim ++ avi) ≠ [] then basdattim ++ '.' :: formatPadded 0 0
        else basdattim := by
      rw [hzero, hmax]
      by_cases hplain : findFile (basdattim ++ avi) ≠ []
      · simp only [hplain, ne_eq, not_false_eq_true, and_self, if_true, Nat.one_ne_zero]
        rfl
      · simp only [hplain, and_false, if_false, ne_eq, not_true_eq_false]
    dsimp only
    rw [hif]
    refine ⟨fun _ => .inl fun t ht => ?_, fun _ => hnew⟩
    have := ht.1
    rw [hnone] at this
    exact this.elim
  · have hif : (if s.maxn = 0 ∧ findFile (basdattim ++ avi) ≠ [] then 1 else s.maxn) = s.maxn :=
      if_neg fun h => hzero h.1
    dsimp only
    rw [hif, if_pos hzero]
    constructor
    · exact fit_or_turnsNegative hscan
    · rintro (hfit | hneg)
      · exact newName_of_fit hscan hfit
      · exact newName_of_turnsNegative hscan hneg

end Path

/-- A directory with the given files, all of them named `tape.<suffix>.avi`. -/
def tapeFiles (suffixes : List CString) : List CString :=
  suffixes.map fun t => "tape.".toList ++ t ++ avi

def findTape (suffixes : List CString) (pattern : CString) : List CString :=
  if pattern = "tape.*.avi".toList then tapeFiles suffixes else []

theorem tape_lists {suffixes : List CString} :
    Lists .ascii (tapeFiles suffixes) "tape".toList (findTape suffixes) where
  numbered e := by
    have hfind : findTape suffixes ("tape".toList ++ ".*.avi".toList) = tapeFiles suffixes := rfl
    rw [hfind]
    refine ⟨fun he => ⟨he, ?_⟩, fun he => he.1⟩
    obtain ⟨t, -, rfl⟩ := List.mem_map.mp he
    exact ⟨t, rfl⟩
  plain e := by
    have hfind : findTape suffixes ("tape".toList ++ avi) = [] := rfl
    rw [hfind]
    refine ⟨fun he => absurd he List.not_mem_nil, fun ⟨he, hsame⟩ => ?_⟩
    obtain ⟨t, -, rfl⟩ := List.mem_map.mp he
    have hlen := hsame.length_eq
    rw [List.length_append, List.length_append, List.length_append] at hlen
    have htape : (fileName "tape".toList).length = 4 := rfl
    have htape' : "tape.".toList.length = 5 := rfl
    omega

theorem tape007_newName :
    NewName .ascii (tapeFiles ["007".toList]) "tape".toList
      (getCaptureFilename (findTape ["007".toList]) (fun _ _ => []) 0 "tape".toList [] 2 0) := by
  refine (newName_iff .ascii _ _ (fun _ _ => []) 0 "tape".toList [] 2 0 tape_lists).mpr (.inl ?_)
  rintro t ⟨ht, -⟩
  change t ∈ suffixes .ascii (tapeFiles ["007".toList]) (fileName "tape".toList) at ht
  rw [← tape_lists.numbersOf_eq] at ht
  obtain ⟨-, e, he, rfl⟩ := ht
  rw [List.mem_singleton.mp he]
  decide

/-- A file from a capture named by its date, and the one that the next capture
without a date made: its number is that of the date as an `int`, and one more. -/
theorem dated_taken :
    ¬ NewName .ascii (tapeFiles ["20240101120000".toList, "-0002079746047".toList]) "tape".toList
      (getCaptureFilename (findTape ["20240101120000".toList, "-0002079746047".toList])
        (fun _ _ => []) 0 "tape".toList [] 2 0) := by
  intro h
  refine h.absent ⟨"tape.-0002079746047.avi".toList, by decide, ?_⟩
  decide +kernel

end WinDV
