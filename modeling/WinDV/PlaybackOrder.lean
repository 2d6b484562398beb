import WinDV.AVIJoiner
import WinDV.UniqueNames

/-! Captures in succession, and the order in which the joiner plays the files
they leave: `CompareStrings` compares names, which agrees with their numbers as
long as these have one width. -/

namespace WinDV

/-- The base with the date and time suffix of a session, or without one. -/
def dated (base date : CString) : CString := if date ≠ [] then base ++ '.' :: date else base

/-- The file names that captures in succession take, oldest first, when the
directory held `entries` before them. -/
inductive Captures (rule : CaseRule) (entries : List CString) (base date : CString) (ndigits : Nat) :
    List CString → Prop
  | nil : Captures rule entries base date ndigits []
  | snoc {names : List CString} {findFile : CString → List CString}
      {formatTime : CString → Int32 → CString} {now tim : Int32} {dtformat : CString}
      (h : Captures rule entries base date ndigits names)
      (hlist : Lists rule (entries ++ names) (dated base date) findFile)
      (htime : baseWithTime formatTime now base dtformat tim = dated base date) :
      Captures rule entries base date ndigits
        (names ++ [fileName (getCaptureFilename findFile formatTime now base dtformat ndigits tim)])

/-- What the joiner is given to play the captures of a base. -/
def wildcard (base : CString) : CString := base ++ '*' :: avi

/-- The list that the joiner builds from a text. -/
def playlist {Reader : Type} (findFile : CString → List CString)
    (newReader : CString → Except CString Reader) (text : CString) : Except CString (List CString) :=
  (CAVIJoiner.new findFile newReader text).map CAVIJoiner.filenames

/-- The search of the joiner for `<base>*.avi`, in whatever order. -/
structure Glob (rule : CaseRule) (entries : List CString) (base : CString) (found : List CString) :
    Prop where
  nodup : found.Nodup
  mem : ∀ e, e ∈ found ↔ e ∈ entries ∧ rule.Matches (fileName base) avi e

/-- The name of capture number `k`, as long as the number is an `int`. -/
def captureName (name : CString) (ndigits k : Nat) : CString :=
  if ndigits = 0 then
    if k = 0 then name ++ avi else name ++ '.' :: formatPadded 0 (Int32.ofNat (k - 1)) ++ avi
  else name ++ '.' :: formatPadded ndigits (Int32.ofNat k) ++ avi

theorem exists_captureName (name : CString) (ndigits k : Nat) :
    ∃ x, captureName name ndigits k = name ++ x ++ avi := by
  rw [captureName]
  split
  · split
    · exact ⟨[], by rw [List.append_nil]⟩
    · exact ⟨_, rfl⟩
  · exact ⟨_, rfl⟩

section Names

variable {rule : CaseRule} {entries names : List CString} {base date : CString} {ndigits k : Nat}
  {findFile : CString → List CString}

theorem fileName_dated (base : CString) (hdate : ∀ c ∈ date, isSeparator c = false) :
    ∃ d, fileName (dated base date) = fileName base ++ d := by
  rw [dated]
  split
  · refine ⟨'.' :: date, fileName_append fun c hc => ?_⟩
    rcases List.mem_cons.mp hc with rfl | hc
    · rfl
    · exact hdate c hc
  · exact ⟨[], (List.append_nil _).symm⟩

theorem formatPadded_ofNat (h : k < 2 ^ 31) :
    formatPadded ndigits (Int32.ofNat k) = Numeral.padded ndigits k := by
  have hint : (Int32.ofNat k).toInt = k := Int32.toInt_ofNat_of_lt h
  rw [formatPadded_of_nonneg (by omega), hint, Int.toNat_natCast]

/-- The number that follows the numbers below `k`, all of one width. -/
theorem Highest.next_of_numbers {s : NumberScan} (hdigits : 1 ≤ ndigits) (hk : k ≤ 10 ^ ndigits)
    (hk' : k ≤ 2 ^ 31) (h : Highest ndigits {t | ∃ i < k, t = Numeral.padded ndigits i} s) :
    s.maxn = ndigits ∧ s.max + 1 = Int32.ofNat k := by
  have hlen : ∀ i < k, (Numeral.padded ndigits i).length = ndigits := fun i hi =>
    Numeral.length_padded_of_lt hdigits (by omega)
  have hread : ∀ i < k, (readNumber (Numeral.padded ndigits i)).toInt = i := fun i hi => by
    rw [toInt_readNumber (by rw [Numeral.value_padded]; omega), Numeral.value_padded]
  rcases h.attained with ⟨hmaxn, hmax⟩ | ⟨t, ⟨i, hi, rfl⟩, hmaxn, hmax⟩
  · cases k with
    | zero => exact ⟨hmaxn, by rw [hmax]; rfl⟩
    | succ k =>
      have hle := Int32.le_iff_toInt_le.mp
        (h.greatest _ ⟨k, Nat.lt_succ_self k, rfl⟩ ((hlen k (Nat.lt_succ_self k)).trans hmaxn.symm))
      rw [hread k (Nat.lt_succ_self k), hmax] at hle
      have hneg : (-1 : Int32).toInt = -1 := rfl
      omega
  · rw [hlen i hi] at hmaxn
    have hle := Int32.le_iff_toInt_le.mp
      (h.greatest _ ⟨k - 1, by omega, rfl⟩ ((hlen (k - 1) (by omega)).trans hmaxn))
    rw [hread (k - 1) (by omega), ← hmax, hread i hi] at hle
    obtain rfl : k = i + 1 := by omega
    refine ⟨hmaxn.symm, ?_⟩
    rw [← hmax, readNumber_eq, Numeral.value_padded, Int32.ofNat_add]
    rfl

/-- What the search for numbers sees of the captures so far. -/
theorem suffixes_captured (hdigits : 1 ≤ ndigits) (hk : k ≤ 2 ^ 31) {name : CString}
    (hnone : ∀ e ∈ entries, ∀ x, ¬ rule.Same e (name ++ x ++ avi)) :
    suffixes rule (entries ++ (List.range k).map (captureName name ndigits)) name =
      {t | ∃ i < k, t = Numeral.padded ndigits i} := by
  have hname : ∀ i < k, captureName name ndigits i =
      name ++ '.' :: Numeral.padded ndigits i ++ avi := fun i hi => by
    rw [captureName, if_neg (by omega), formatPadded_ofNat (by omega)]
  ext t
  constructor
  · rintro ⟨-, hnum, e, he, hsame⟩
    rcases List.mem_append.mp he with he | he
    · exact absurd hsame (hnone e he _)
    · obtain ⟨i, hi, rfl⟩ := List.mem_map.mp he
      have hi := List.mem_range.mp hi
      have hpart := hsame.number.eq_of_digits fun c hc => .inl (hnum c hc)
      rw [hname i hi, numberPart_name] at hpart
      exact ⟨i, hi, hpart.symm⟩
  · rintro ⟨i, hi, rfl⟩
    refine ⟨Numeral.padded_ne_nil _ _, fun c hc => Numeral.isDigit_of_mem_padded hc,
      captureName name ndigits i, ?_, ?_⟩
    · exact List.mem_append_right _ (List.mem_map_of_mem (List.mem_range.mpr hi))
    · rw [hname i hi]
      rfl

/-- Before a capture without digits there is at most one without a number. -/
theorem suffixes_unnumbered (hk : k ≤ 1) {name : CString}
    (hnone : ∀ e ∈ entries, ∀ x, ¬ rule.Same e (name ++ x ++ avi)) :
    suffixes rule (entries ++ (List.range k).map (captureName name 0)) name = ∅ := by
  rw [Set.eq_empty_iff_forall_notMem]
  rintro t ⟨-, -, e, he, hsame⟩
  rcases List.mem_append.mp he with he | he
  · exact hnone e he _ hsame
  · obtain ⟨i, hi, rfl⟩ := List.mem_map.mp he
    have hi := List.mem_range.mp hi
    have hlen := hsame.length_eq
    rw [captureName, if_pos rfl, if_pos (by omega)] at hlen
    simp only [List.length_append, List.length_cons] at hlen
    omega

theorem captureFilename_eq (hk : k ≤ 10 ^ ndigits) (hk' : k ≤ 2 ^ 31) {basdattim : CString}
    (hnone : ∀ e ∈ entries, ∀ x, ¬ rule.Same e (fileName basdattim ++ x ++ avi))
    (hlist : Lists rule (entries ++ (List.range k).map (captureName (fileName basdattim) ndigits))
      basdattim findFile) :
    fileName (captureFilename findFile basdattim ndigits) =
      captureName (fileName basdattim) ndigits k := by
  have hscan := scanNames_highest (fileName basdattim).length ndigits
    (findFile (basdattim ++ ".*.avi".toList))
  rw [hlist.numbersOf_eq] at hscan
  unfold captureFilename
  generalize scanNames (fileName basdattim).length ndigits
    (findFile (basdattim ++ ".*.avi".toList)) = s at hscan ⊢
  by_cases hdigits : 1 ≤ ndigits
  · rw [suffixes_captured hdigits hk' hnone] at hscan
    obtain ⟨hmaxn, hmax⟩ := hscan.next_of_numbers hdigits hk hk'
    have hpos : ¬ s.maxn = 0 := by omega
    have hne : ¬ ndigits = 0 := by omega
    simp only [hpos, false_and, if_false, ne_eq, not_false_eq_true, if_true]
    rw [hmaxn, hmax, fileName_numbered _ _ fun c hc => mem_formatPadded hc, captureName, if_neg hne]
  · obtain rfl : ndigits = 0 := by omega
    have hk : k ≤ 1 := by simpa using hk
    rw [suffixes_unnumbered hk hnone] at hscan
    rcases hscan.attained with ⟨hmaxn, hmax⟩ | ⟨t, ht, -⟩
    · have hplain : findFile (basdattim ++ avi) = [] ↔ k = 0 := by
        rw [List.eq_nil_iff_forall_not_mem]
        constructor
        · intro hno
          by_contra hk'
          obtain rfl : k = 1 := by omega
          exact hno _ ((hlist.plain _).mpr ⟨by simp [captureName], rfl⟩)
        · rintro rfl e he
          obtain ⟨he, hsame⟩ := (hlist.plain e).mp he
          refine hnone e (by simpa using he) [] ?_
          rwa [List.append_nil]
      by_cases hzero : k = 0
      · simp [hmaxn, hplain, hzero, captureName, fileName_plain]
      · obtain rfl : k = 1 := by omega
        have hnum := fileName_numbered basdattim (formatPadded 0 0) fun c hc => mem_formatPadded hc
        simp only [hmaxn, hmax, ne_eq, hplain, one_ne_zero, not_false_eq_true, and_self, if_true]
        exact hnum
    · exact ht.elim

/-- As long as the numbers have one width, and one more. -/
theorem Captures.names_eq (hdate : ∀ c ∈ date, isSeparator c = false)
    (hnone : ∀ e ∈ entries, ¬ rule.Matches (fileName base) avi e)
    (h : Captures rule entries base date ndigits names) (hlen : names.length ≤ 10 ^ ndigits + 1)
    (hlen' : names.length ≤ 2 ^ 31 + 1) :
    names = (List.range names.length).map (captureName (fileName (dated base date)) ndigits) := by
  induction h with
  | nil => rfl
  | @snoc names findFile formatTime now tim dtformat h hlist htime ih =>
    rw [List.length_append, List.length_singleton] at hlen hlen'
    have ih := ih (by omega) (by omega)
    obtain ⟨d, hd⟩ := fileName_dated base hdate
    have hnone' : ∀ e ∈ entries, ∀ x, ¬ rule.Same e (fileName (dated base date) ++ x ++ avi) := by
      intro e he x hsame
      refine hnone e he ⟨d ++ x, ?_⟩
      rwa [← List.append_assoc, ← hd]
    rw [getCaptureFilename, htime, List.length_append, List.length_singleton, List.range_succ,
      List.map_append, List.map_singleton, ← ih]
    rw [ih] at hlist
    rw [captureFilename_eq (by omega) (by omega) hnone' hlist]

theorem Captures.take (h : Captures rule entries base date ndigits names) (n : Nat) :
    Captures rule entries base date ndigits (names.take n) := by
  induction h with
  | nil => simpa using Captures.nil
  | @snoc names findFile formatTime now tim dtformat h hlist htime ih =>
    by_cases hn : n ≤ names.length
    · rwa [List.take_append_of_le_length hn]
    · rw [List.take_of_length_le (by simp; omega)]
      exact h.snoc hlist htime

end Names

section Order

variable {name dir : CString} {ndigits i j k : Nat}

theorem toLower_eq_self {c : Char} (h : c.isDigit = true ∨ c = '-') : c.toLower = c := by
  have hrange : c.toNat ≤ 57 := by
    rcases h with h | rfl
    · exact (Numeral.toNat_of_isDigit h).2
    · decide
  exact (toLower_cases c).resolve_right fun hup => by omega

theorem map_toLower_number {s : CString} (h : ∀ c ∈ s, c.isDigit = true ∨ c = '-') :
    s.map Char.toLower = s :=
  (List.map_congr_left fun c hc => toLower_eq_self (h c hc)).trans (List.map_id s)

/-- Paths that differ in their numbers compare as the numbers do. -/
theorem toLower_numbered_lt {s t : CString} (hs : ∀ c ∈ s, c.isDigit = true ∨ c = '-')
    (ht : ∀ c ∈ t, c.isDigit = true ∨ c = '-') (h : s ++ avi < t ++ avi) :
    (dir ++ (name ++ '.' :: s ++ avi)).map Char.toLower <
      (dir ++ (name ++ '.' :: t ++ avi)).map Char.toLower := by
  have havi : avi.map Char.toLower = avi := by decide
  have hsplit (u : CString) (hu : ∀ c ∈ u, c.isDigit = true ∨ c = '-') :
      (dir ++ (name ++ '.' :: u ++ avi)).map Char.toLower =
        (dir ++ name ++ ['.']).map Char.toLower ++ (u ++ avi) := by
    simp [map_toLower_number hu, havi]
  rw [hsplit s hs, hsplit t ht]
  exact List.append_left_lt h

theorem captureName_lt (hij : i < j) (hj : j < 10 ^ ndigits) (hj' : j < 2 ^ 31) :
    (dir ++ captureName name ndigits i).map Char.toLower <
      (dir ++ captureName name ndigits j).map Char.toLower := by
  have hdigits : 0 < ndigits := by
    by_contra hzero
    obtain rfl : ndigits = 0 := by omega
    omega
  have hne : ¬ ndigits = 0 := by omega
  rw [captureName, captureName, if_neg hne, if_neg hne, formatPadded_ofNat (by omega),
    formatPadded_ofNat hj']
  have hnum (n : Nat) : ∀ c ∈ Numeral.padded ndigits n, c.isDigit = true := fun c hc =>
    Numeral.isDigit_of_mem_padded hc
  refine toLower_numbered_lt (fun c hc => .inl (hnum i c hc)) (fun c hc => .inl (hnum j c hc)) ?_
  refine Numeral.append_lt_append (hnum i) (hnum j) ?_ ?_ avi avi
  · rw [Numeral.length_padded_of_lt hdigits (by omega), Numeral.length_padded_of_lt hdigits hj]
  · rwa [Numeral.value_padded, Numeral.value_padded]

/-- Past the numbers of one width there is a name that comes before an earlier one. -/
theorem captureName_disorder (name dir : CString) (hk : k = 10 ^ ndigits ∨ k = 2 ^ 31) (hle : k ≤ 10 ^ ndigits)
    (hle' : k ≤ 2 ^ 31) :
    ∃ i < k, (dir ++ captureName name ndigits k).map Char.toLower <
      (dir ++ captureName name ndigits i).map Char.toLower := by
  by_cases hzero : ndigits = 0
  · obtain rfl : k = 1 := by
      rw [hzero, Nat.pow_zero] at hk hle
      omega
    refine ⟨0, Nat.one_pos, ?_⟩
    rw [captureName, captureName, if_pos hzero, if_pos hzero, if_pos rfl, if_neg Nat.one_ne_zero]
    simp only [List.append_assoc, List.map_append]
    exact List.append_left_lt (List.append_left_lt (by decide))
  · have hnum (n : Nat) : ∀ c ∈ Numeral.padded ndigits n, c.isDigit = true ∨ c = '-' := fun c hc =>
      .inl (Numeral.isDigit_of_mem_padded hc)
    have hpow : 0 < 10 ^ ndigits := Nat.pow_pos (by decide)
    by_cases hmin : k = 2 ^ 31
    · -- the number turns into the least `int`, and a minus sign precedes the digits
      refine ⟨0, by omega, ?_⟩
      rw [captureName, captureName, if_neg hzero, if_neg hzero, formatPadded_ofNat (k := 0) (by decide)]
      refine toLower_numbered_lt (fun c hc => mem_formatPadded hc) (hnum 0) ?_
      obtain ⟨c, s, hcons⟩ := List.exists_cons_of_ne_nil (Numeral.padded_ne_nil ndigits 0)
      have hc := Numeral.toNat_of_isDigit (Numeral.isDigit_of_mem_padded
        (hcons ▸ List.mem_cons_self : c ∈ Numeral.padded ndigits 0))
      have hminus : '-'.toNat < c.toNat := Nat.lt_of_lt_of_le (by decide) hc.1
      rw [hmin, formatPadded_of_neg (by decide), hcons, List.cons_append, List.cons_append,
        List.cons_lt_cons_iff]
      exact .inl hminus
    · have hk := hk.resolve_right hmin
      refine ⟨k - 1, by omega, ?_⟩
      rw [captureName, captureName, if_neg hzero, if_neg hzero, formatPadded_ofNat (k := k) (by omega),
        formatPadded_ofNat (k := k - 1) (by omega), hk]
      exact toLower_numbered_lt (hnum _) (hnum _) (Numeral.padded_pow_lt (by omega) avi avi)

theorem sorted_sortFiles (files : List CString) : (sortFiles files).Pairwise CompareNoCase := by
  have htotal : Std.Total CompareNoCase :=
    ⟨fun a b => List.le_total (a.map Char.toLower) (b.map Char.toLower)⟩
  have htrans : IsTrans CString CompareNoCase := ⟨fun _ _ _ h h' => List.le_trans h h'⟩
  exact List.pairwise_insertionSort CompareNoCase files

/-- The captures so far are what the joiner finds. -/
theorem Glob.perm {rule : CaseRule} {entries names found : List CString} {base : CString}
    (hnone : ∀ e ∈ entries, ¬ rule.Matches (fileName base) avi e)
    (hmatch : ∀ e ∈ names, rule.Matches (fileName base) avi e) (hnodup : names.Nodup)
    (h : Glob rule (entries ++ names) base found) : found.Perm names := by
  refine (List.perm_ext_iff_of_nodup h.nodup hnodup).mpr fun e => ?_
  rw [h.mem, List.mem_append]
  constructor
  · rintro ⟨he | he, hm⟩
    · exact absurd hm (hnone e he)
    · exact he
  · exact fun he => ⟨.inr he, hmatch e he⟩

theorem isField_wildcard {base : CString} (hbar : '|' ∉ base)
    (hblank : ∀ c, base.head? = some c → isspace c = false) :
    Fields.IsField isspace '|' (wildcard base) := by
  have hne : wildcard base ≠ [] := List.append_ne_nil_of_right_ne_nil _ (List.cons_ne_nil _ _)
  refine ⟨hne, fun hmem => ?_, ?_, ?_⟩
  · obtain hmem | hmem := List.mem_append.mp hmem
    · exact hbar hmem
    · exact absurd hmem (by decide)
  · cases base with
    | nil => rfl
    | cons c base => exact hblank c rfl
  · have hlast : (wildcard base).getLast hne = 'i' := List.getLast_append_of_ne_nil _ (List.cons_ne_nil _ _)
    rw [hlast]
    rfl

/-- One token that finds something, and whose first file opens. -/
theorem playlist_eq {Reader : Type} {findFile : CString → List CString}
    {newReader : CString → Except CString Reader} {text : CString}
    (htext : Fields.IsField isspace '|' text) (hfound : findFile text ≠ [])
    (hopen : ∀ file, ∃ reader, newReader file = .ok reader) :
    playlist findFile newReader text = .ok (sortFiles (findFile text)) := by
  have hadd := addFilenames_eq findFile [] text (by
    rw [htext.fields_eq]
    intro t ht
    rwa [List.mem_singleton.mp ht])
  rw [htext.fields_eq, List.flatMap_singleton, List.nil_append] at hadd
  have hne : sortFiles (findFile text) ≠ [] := fun hnil =>
    hfound (List.perm_nil.mp (hnil ▸ (List.perm_insertionSort _ _).symm))
  obtain ⟨file, files, hcons⟩ := List.exists_cons_of_ne_nil hne
  obtain ⟨reader, hreader⟩ := hopen file
  rw [playlist, CAVIJoiner.new, hadd, hcons]
  show (do let reader ← newReader file; return ⟨file :: files, 1, reader⟩ :
    Except CString (CAVIJoiner Reader)).map CAVIJoiner.filenames = _
  rw [hreader]
  rfl

theorem playlist_of_none {Reader : Type} {findFile : CString → List CString}
    {newReader : CString → Except CString Reader} {text : CString} (hbar : '|' ∉ text)
    (htrim : Fields.trim isspace text ≠ []) (hnone : findFile (Fields.trim isspace text) = []) :
    playlist findFile newReader text =
      .error (Fields.trim isspace text ++ ": file not found".toList) := by
  have hall : ∀ c ∈ text, (c != '|') = true := fun c hc =>
    bne_iff_ne.mpr fun heq => hbar (heq ▸ hc)
  have hne : text ≠ [] := by
    rintro rfl
    exact htrim rfl
  rw [playlist, CAVIJoiner.new, addFilenames, if_neg hne]
  simp only [List.takeWhile_eq_self_iff.mpr hall, ne_eq, htrim, not_false_eq_true, if_true, hnone]
  rfl

/-- The files of captures in succession sort in the order of the captures exactly when
these are at most 10^ndigits, with numbers that fit an `int`. -/
theorem sortFiles_captures_iff (rule : CaseRule) (entries : List CString) (base date : CString)
    (ndigits : Nat) (names : List CString) (found : List CString) (dir : CString)
    (hdate : ∀ c ∈ date, isSeparator c = false)
    (hnone : ∀ e ∈ entries, ¬ rule.Matches (fileName base) avi e)
    (hcap : Captures rule entries base date ndigits names)
    (hfound : Glob rule (entries ++ names) base found) :
    sortFiles (found.map (dir ++ ·)) = names.map (dir ++ ·) ↔
      names.length ≤ 10 ^ ndigits ∧ names.length ≤ 2 ^ 31 := by
  constructor
  · intro hsorted
    by_contra hlong
    obtain ⟨k, hk, hle, hle', hlt⟩ : ∃ k, (k = 10 ^ ndigits ∨ k = 2 ^ 31) ∧ k ≤ 10 ^ ndigits ∧
        k ≤ 2 ^ 31 ∧ k < names.length := by
      rcases Nat.le_total (10 ^ ndigits) (2 ^ 31) with h | h
      · exact ⟨10 ^ ndigits, .inl rfl, Nat.le_refl _, h, by omega⟩
      · exact ⟨2 ^ 31, .inr rfl, h, Nat.le_refl _, by omega⟩
    have hlen : (names.take (k + 1)).length = k + 1 := List.length_take_of_le hlt
    have htake := (hcap.take (k + 1)).names_eq hdate hnone (by omega) (by omega)
    have hpairs : ((names.take (k + 1)).map (dir ++ ·)).Pairwise CompareNoCase := by
      have hall := sorted_sortFiles (found.map (dir ++ ·))
      rw [hsorted] at hall
      exact hall.sublist ((List.take_sublist _ _).map _)
    rw [htake, hlen, List.map_map, List.pairwise_map, List.pairwise_iff_getElem] at hpairs
    obtain ⟨i, hi, hdis⟩ := captureName_disorder (fileName (dated base date)) dir hk hle hle'
    have hik := hpairs i k (by simp; omega) (by simp) hi
    rw [List.getElem_range, List.getElem_range] at hik
    exact hik hdis
  · rintro ⟨hle, hle'⟩
    have hnames := hcap.names_eq hdate hnone (by omega) (by omega)
    have hordered : names.Pairwise fun a b =>
        (dir ++ a).map Char.toLower < (dir ++ b).map Char.toLower := by
      rw [hnames, List.pairwise_map]
      refine List.pairwise_lt_range.imp_of_mem fun hi hj hij => ?_
      have hj := List.mem_range.mp hj
      exact captureName_lt hij (by omega) (by omega)
    have hmatch : ∀ e ∈ names, rule.Matches (fileName base) avi e := by
      obtain ⟨d, hd⟩ := fileName_dated base hdate
      intro e he
      rw [hnames] at he
      obtain ⟨i, -, rfl⟩ := List.mem_map.mp he
      obtain ⟨x, hx⟩ := exists_captureName (fileName (dated base date)) ndigits i
      refine ⟨d ++ x, ?_⟩
      rw [hx, hd, List.append_assoc (fileName base)]
      rfl
    have hnodup : names.Nodup := hordered.imp fun hlt heq => by
      rw [heq] at hlt
      exact List.lt_irrefl _ hlt
    have hperm := (hfound.perm hnone hmatch hnodup).map (dir ++ ·)
    refine ((List.perm_insertionSort _ _).trans hperm).eq_of_pairwise ?_ (sorted_sortFiles _) ?_
    · intro a b ha hb hab hba
      have ha := hperm.mem_iff.mp ((List.mem_insertionSort _).mp ha)
      rw [hnames, List.map_map] at ha hb
      obtain ⟨i, hi, rfl⟩ := List.mem_map.mp ha
      obtain ⟨j, hj, rfl⟩ := List.mem_map.mp hb
      have hi := List.mem_range.mp hi
      have hj := List.mem_range.mp hj
      rcases Nat.lt_trichotomy i j with hij | rfl | hij
      · exact absurd (captureName_lt hij (by omega) (by omega)) hba
      · rfl
      · exact absurd (captureName_lt hij (by omega) (by omega)) hab
    · rw [List.pairwise_map]
      exact hordered.imp fun hlt => List.le_of_lt hlt

end Order

/-- The joiner plays the files of captures in succession in the order of the captures
exactly when there are any, at most 10^ndigits, with numbers that fit an `int`. Of a base
with a leading blank or a bar it would search for something else. -/
theorem playback_order_iff {Reader : Type} (rule : CaseRule) (entries : List CString)
    (base date : CString) (ndigits : Nat) (names : List CString) (found : List CString) (dir : CString)
    (findFile : CString → List CString) (newReader : CString → Except CString Reader)
    (hdate : ∀ c ∈ date, isSeparator c = false)
    (hbar : '|' ∉ base) (hblank : ∀ c, base.head? = some c → isspace c = false)
    (hnone : ∀ e ∈ entries, ¬ rule.Matches (fileName base) avi e)
    (hcap : Captures rule entries base date ndigits names)
    (hfound : Glob rule (entries ++ names) base found)
    (hfind : findFile (wildcard base) = found.map (dir ++ ·))
    (hopen : ∀ file, ∃ reader, newReader file = .ok reader) :
    playlist findFile newReader (wildcard base) = .ok (names.map (dir ++ ·)) ↔
      1 ≤ names.length ∧ names.length ≤ 10 ^ ndigits ∧ names.length ≤ 2 ^ 31 := by
  have hfield := isField_wildcard hbar hblank
  have hsort := sortFiles_captures_iff rule entries base date ndigits names found dir hdate hnone hcap hfound
  by_cases hempty : findFile (wildcard base) = []
  · have htrim := Fields.trim_of_not_blank hfield.ne_nil hfield.head_not_blank hfield.last_not_blank
    rw [playlist_of_none hfield.sep_notMem (by rw [htrim]; exact hfield.ne_nil) (by rw [htrim, hempty])]
    refine iff_of_false nofun fun ⟨hpos, hle⟩ => ?_
    have hsorted := hsort.mpr hle
    rw [← hfind, hempty] at hsorted
    have hnil := congrArg List.length hsorted
    rw [List.length_map] at hnil
    exact absurd hpos (by rw [← hnil]; decide)
  · rw [playlist_eq hfield hempty hopen, Except.ok.injEq, hfind, hsort, iff_and_self]
    intro hle
    have hperm := congrArg List.length (hsort.mpr hle)
    rw [sortFiles, List.length_insertionSort, List.length_map, List.length_map] at hperm
    rw [hfind, List.map_eq_nil_iff] at hempty
    exact hperm ▸ List.length_pos_iff.mpr hempty

theorem captures_one (base : CString) (ndigits : Nat) :
    Captures .ascii [] base [] ndigits
      [fileName (getCaptureFilename (fun _ => []) (fun _ _ => []) 0 base [] ndigits 0)] :=
  @Captures.snoc .ascii [] base [] ndigits [] _ _ 0 0 [] .nil
    ⟨fun e => by simp, fun e => by simp⟩ rfl

theorem glob_all {names : List CString} {base : CString} (hnodup : names.Nodup)
    (h : ∀ e ∈ names, CaseRule.ascii.Matches (fileName base) avi e) :
    Glob .ascii ([] ++ names) base names :=
  ⟨hnodup, fun e => ⟨fun he => ⟨he, h e he⟩, fun he => he.1⟩⟩

theorem tape00_in_order :
    playlist (fun _ => ["C:\\tape.00.avi".toList]) (Except.ok (ε := CString)) "tape*.avi".toList =
      .ok ["C:\\tape.00.avi".toList] :=
  (playback_order_iff .ascii [] "tape".toList [] 2 ["tape.00.avi".toList] ["tape.00.avi".toList]
    "C:\\".toList (fun _ => ["C:\\tape.00.avi".toList]) Except.ok (by simp) (by decide)
    (fun c hc => by rw [← Option.some.inj hc]; rfl) (by simp) (captures_one "tape".toList 2)
    (glob_all (by simp) fun e he => ⟨".00".toList, by rw [List.mem_singleton.mp he]; rfl⟩) rfl
    fun file => ⟨file, rfl⟩).mpr (by decide)

def findTapeAvi (pattern : CString) : List CString :=
  if pattern = "tape.avi".toList then ["tape.avi".toList] else []

theorem tape_captures : Captures .ascii [] "tape".toList [] 0 ["tape.avi".toList, "tape.0.avi".toList] := by
  refine @Captures.snoc .ascii [] "tape".toList [] 0 ["tape.avi".toList] findTapeAvi (fun _ _ => [])
    0 0 [] (captures_one "tape".toList 0) ⟨fun e => ?_, fun e => ?_⟩ rfl
  · have hnone : findTapeAvi (dated "tape".toList [] ++ ".*.avi".toList) = [] := rfl
    rw [hnone]
    refine ⟨fun he => absurd he List.not_mem_nil, fun ⟨he, mid, hsame⟩ => ?_⟩
    rw [List.mem_singleton.mp he] at hsame
    have hlen := hsame.length_eq
    rw [List.length_append, List.length_append] at hlen
    have hbase : (fileName (dated "tape".toList []) ++ ['.']).length = 5 := rfl
    have havi : avi.length = 4 := rfl
    have htape : "tape.avi".toList.length = 8 := rfl
    omega
  · have hplain : findTapeAvi (dated "tape".toList [] ++ avi) = ["tape.avi".toList] := rfl
    rw [hplain]
    refine ⟨fun he => ⟨he, ?_⟩, fun he => he.1⟩
    rw [List.mem_singleton.mp he]
    rfl

def bothTapes : List CString := ["tape.avi".toList, "tape.0.avi".toList]

def blankTape : List CString := [" tape.00.avi".toList]

/-- One pattern finds all the names, any other none. -/
def findFor (pattern : CString) (names : List CString) (text : CString) : List CString :=
  if text = pattern then names.map ("C:\\".toList ++ ·) else []

/-- The second of two captures without digits is played first; and of captures under a
name with a leading blank the joiner finds nothing. -/
theorem tape_out_of_order :
    (Captures .ascii [] "tape".toList [] 0 bothTapes ∧
      Glob .ascii ([] ++ bothTapes) "tape".toList bothTapes ∧
      playlist (findFor "tape*.avi".toList bothTapes) (Except.ok (ε := CString)) "tape*.avi".toList ≠
        .ok (bothTapes.map ("C:\\".toList ++ ·))) ∧
    Captures .ascii [] " tape".toList [] 2 blankTape ∧
      Glob .ascii ([] ++ blankTape) " tape".toList blankTape ∧
      (∀ e ∈ blankTape, ¬ CaseRule.ascii.Matches "tape".toList avi e) ∧
      playlist (findFor " tape*.avi".toList blankTape) (Except.ok (ε := CString))
        " tape*.avi".toList = .error "tape*.avi: file not found".toList := by
  refine ⟨⟨tape_captures, glob_all (by decide) fun e he => ?_, ?_⟩, captures_one " tape".toList 2,
    glob_all (by decide) fun e he => ⟨".00".toList, by rw [List.mem_singleton.mp he]; rfl⟩, fun e he => ?_, ?_⟩
  · rcases List.mem_cons.mp he with rfl | he
    · exact ⟨[], rfl⟩
    · rw [List.mem_singleton.mp he]
      exact ⟨".0".toList, rfl⟩
  · rw [playlist_eq (by decide) (by decide) fun file => ⟨file, rfl⟩]
    decide
  · rintro ⟨mid, hsame⟩
    rw [List.mem_singleton.mp he] at hsame
    have hhead := (List.cons.inj hsame).1
    exact absurd hhead (by decide)
  · have htrim : Fields.trim isspace " tape*.avi".toList = "tape*.avi".toList := by decide
    rw [playlist_of_none (by decide) (by rw [htrim]; decide) (by rw [htrim]; decide), htrim]
    rfl

end WinDV
