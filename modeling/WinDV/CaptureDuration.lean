import WinDV.CDV
import WinDV.Numerals

/-! The duration argument of the `capture` command. The digits are read into
ints, which wrap, and nothing asks for a digit where there is none. -/

namespace WinDV

/-- A run of digits into an int, with what follows it. -/
def readDigits (n : Int32) : CString → Int32 × CString
  | [] => (n, [])
  | c :: arg =>
    if c.isDigit then readDigits (n * 10 + Int32.ofNat (c.toNat - 48)) arg else (n, c :: arg)

/-- A run of digits of falling weights `i`. -/
def readFraction (i us : Int32) : CString → Int32 × CString
  | [] => (us, [])
  | c :: arg =>
    if c.isDigit then readFraction (i / 10) (us + i * Int32.ofNat (c.toNat - 48)) arg
    else (us, c :: arg)

/-- From the label `timusec` on; `none` is `timerr`. -/
def timusec (hh mi ss : Int32) (arg : CString) : Option Int64 :=
  let t (us : Int32) : Int64 := ((hh * 60 + mi) * 60 + ss).toInt64 * 10000000 + us.toInt64
  match arg with
  | [] => some (t 0)
  | '.' :: arg =>
    let (us, arg) := readFraction 1000000 0 arg
    if arg = [] then some (t us) else none
  | _ => none

/-- The second run of digits and what follows it. -/
def parseAfterColon (hh : Int32) (arg : CString) : Option Int64 :=
  let (mi, arg) := readDigits 0 arg
  match arg with
  | [] => timusec 0 hh mi arg
  | '.' :: _ => timusec 0 hh mi arg
  | ':' :: arg =>
    let (ss, arg) := readDigits 0 arg
    timusec hh mi ss arg
  | _ => none

def parseDuration (arg : CString) : Option Int64 :=
  let (hh, arg) := readDigits 0 arg
  match arg with
  | [] => timusec 0 0 hh arg
  | '.' :: _ => timusec 0 0 hh arg
  | ':' :: arg => parseAfterColon hh arg
  | _ => none

/-- `capture [-exit] <duration> <file>` in `OnInitDialog`: what `StartCapturing`
is called with, or `none` for the usage text. -/
def captureCommand (dtformat : CString) (ndigits : Int32) (args : List CString) : Option StartArgs :=
  let args := if args.head? = some "-exit".toList then args.tail else args
  match args with
  | [arg, file] => (parseDuration arg).map fun t => ⟨file, dtformat, ndigits, t.toInt⟩
  | _ => none

/-- The fields between the colons, and the digits behind the point. -/
structure DurationText where
  fields : List CString
  fraction : Option CString
  deriving DecidableEq, Repr

namespace DurationText

def fractionText : Option CString → CString
  | none => []
  | some f => '.' :: f

def joinFields : List CString → CString
  | [] => []
  | [f] => f
  | f :: fs => f ++ ':' :: joinFields fs

def text (d : DurationText) : CString := joinFields d.fields ++ fractionText d.fraction

def seconds (d : DurationText) : Nat := d.fields.foldl (fun n f => n * 60 + Numeral.value f) 0

/-- The fraction in units of 100 ns, truncated. -/
def ticks (d : DurationText) : Nat :=
  match d.fraction with
  | none => 0
  | some f => Numeral.value f * 10 ^ 7 / 10 ^ f.length

def exact (d : DurationText) : Int := d.seconds * 10000000 + d.ticks

/-- Some digit is not zero, be it behind the last one that counts. -/
def Nonzero (d : DurationText) : Prop :=
  d.seconds ≠ 0 ∨ ∃ f, d.fraction = some f ∧ Numeral.value f ≠ 0

def Digits (s : CString) : Prop := ∀ c ∈ s, c.isDigit = true

/-- One to three fields of digits and a fraction of digits, some perhaps empty. -/
structure Loose (d : DurationText) : Prop where
  fields_ne : d.fields ≠ []
  length_le : d.fields.length ≤ 3
  fields_digits : ∀ f ∈ d.fields, Digits f
  fraction_digits : ∀ f, d.fraction = some f → Digits f

/-- `S`, `M:S` or `H:M:S`, perhaps with a fraction; none of these is empty. -/
structure Strict (d : DurationText) : Prop extends Loose d where
  fields_full : ∀ f ∈ d.fields, f ≠ []
  fraction_full : d.fraction ≠ some []

end DurationText

/-- The fields that the parser reads before it comes to the fraction, at most
`n + 1` of them, and the rest. -/
def readFields : Nat → CString → List CString × CString
  | 0, s => ([s.takeWhile Char.isDigit], s.dropWhile Char.isDigit)
  | n + 1, s =>
    match s.dropWhile Char.isDigit with
    | ':' :: s' => (s.takeWhile Char.isDigit :: (readFields n s').1, (readFields n s').2)
    | rest => ([s.takeWhile Char.isDigit], rest)

def fractionOf : CString → Option (Option CString)
  | [] => some none
  | '.' :: f => if f.all Char.isDigit then some (some f) else none
  | _ => none

def readText (s : CString) : Option DurationText :=
  (fractionOf (readFields 2 s).2).map fun f => ⟨(readFields 2 s).1, f⟩

theorem digits_takeWhile (s : CString) : DurationText.Digits (s.takeWhile Char.isDigit) :=
  fun _ hc => List.mem_takeWhile_imp hc

theorem readFields_spec (n : Nat) (s : CString) : (readFields n s).1 ≠ [] ∧
    (readFields n s).1.length ≤ n + 1 ∧ (∀ f ∈ (readFields n s).1, DurationText.Digits f) ∧
    DurationText.joinFields (readFields n s).1 ++ (readFields n s).2 = s := by
  have hone (s : CString) : ∀ f ∈ [s.takeWhile Char.isDigit], DurationText.Digits f := by
    intro f hf
    rw [List.mem_singleton.mp hf]
    exact digits_takeWhile s
  induction n generalizing s with
  | zero => exact ⟨List.cons_ne_nil _ _, le_rfl, hone s, List.takeWhile_append_dropWhile⟩
  | succ n ih =>
    rw [readFields]
    split
    · next s' hrest =>
      obtain ⟨hne, hlen, hdigits, hjoin⟩ := ih s'
      refine ⟨List.cons_ne_nil _ _, Nat.succ_le_succ hlen, fun f hf => ?_, ?_⟩
      · obtain rfl | hf := List.mem_cons.mp hf
        · exact digits_takeWhile s
        · exact hdigits f hf
      · obtain ⟨f, fs, hfs⟩ := List.exists_cons_of_ne_nil hne
        simp only [hfs] at hjoin ⊢
        rw [DurationText.joinFields, List.append_assoc, List.cons_append, hjoin, ← hrest,
          List.takeWhile_append_dropWhile]
        exact nofun
    · exact ⟨List.cons_ne_nil _ _, Nat.succ_le_succ (Nat.zero_le _), hone s,
        List.takeWhile_append_dropWhile⟩

/-- What stops the digits and is no colon. -/
def Stops (rest : CString) : Prop := ∀ c, rest.head? = some c → c ≠ ':' ∧ c.isDigit = false

theorem takeWhile_digits {f rest : CString} (hf : DurationText.Digits f)
    (hrest : ∀ c, rest.head? = some c → c.isDigit = false) :
    (f ++ rest).takeWhile Char.isDigit = f ∧ (f ++ rest).dropWhile Char.isDigit = rest := by
  rw [List.takeWhile_append_of_pos hf, List.dropWhile_append_of_pos hf]
  cases rest with
  | nil => exact ⟨List.append_nil f, rfl⟩
  | cons c rest =>
    have hc : ¬ c.isDigit = true := by rw [hrest c rfl]; exact Bool.false_ne_true
    rw [List.takeWhile_cons_of_neg hc, List.dropWhile_cons_of_neg hc, List.append_nil]
    exact ⟨rfl, rfl⟩

theorem readFields_join {fields : List CString} (hne : fields ≠ []) {n : Nat}
    (hlen : fields.length ≤ n + 1) (hdigits : ∀ f ∈ fields, DurationText.Digits f) {rest : CString}
    (hrest : Stops rest) : readFields n (DurationText.joinFields fields ++ rest) = (fields, rest) := by
  induction fields generalizing n with
  | nil => exact absurd rfl hne
  | cons f fs ih =>
    have hf := hdigits f List.mem_cons_self
    cases fs with
    | nil =>
      obtain ⟨htake, hdrop⟩ := takeWhile_digits hf fun c hc => (hrest c hc).2
      rw [DurationText.joinFields]
      cases n with
      | zero => rw [readFields, htake, hdrop]
      | succ n =>
        rw [readFields, htake, hdrop]
        split
        · next s' => exact absurd rfl (hrest ':' rfl).1
        · rfl
    | cons f' fs =>
      have hcolon : ∀ c, (':' :: (DurationText.joinFields (f' :: fs) ++ rest)).head? = some c →
          c.isDigit = false := by
        intro c hc
        rw [← Option.some.inj hc]
        rfl
      obtain ⟨htake, hdrop⟩ := takeWhile_digits hf hcolon
      obtain ⟨m, rfl⟩ : ∃ m, n = m + 1 := ⟨n - 1, by
        simp only [List.length_cons] at hlen
        omega⟩
      have hrec := ih (List.cons_ne_nil _ _) (Nat.le_of_succ_le_succ hlen)
        fun g hg => hdigits g (List.mem_cons_of_mem f hg)
      rw [DurationText.joinFields, List.append_assoc, List.cons_append, readFields, htake, hdrop]
      simp only [hrec]
      exact nofun

theorem fractionOf_eq_some_iff (rest : CString) (f : Option CString) :
    fractionOf rest = some f ↔
      DurationText.fractionText f = rest ∧ ∀ g, f = some g → DurationText.Digits g := by
  have hall (g : CString) : g.all Char.isDigit = true ↔ DurationText.Digits g := List.all_eq_true
  constructor
  · intro h
    unfold fractionOf at h
    split at h
    · rw [← Option.some.inj h]
      exact ⟨rfl, nofun⟩
    · next g =>
      by_cases hg : g.all Char.isDigit = true
      · rw [if_pos hg] at h
        rw [← Option.some.inj h]
        refine ⟨rfl, fun g' hg' => ?_⟩
        rw [← Option.some.inj hg']
        exact (hall g).mp hg
      · rw [if_neg hg] at h
        cases h
    · cases h
  · rintro ⟨rfl, hdigits⟩
    cases f with
    | none => rfl
    | some g => exact if_pos ((hall g).mpr (hdigits g rfl))

theorem stops_fractionText (f : Option CString) : Stops (DurationText.fractionText f) := by
  cases f with
  | none => exact nofun
  | some g =>
    intro c hc
    rw [← Option.some.inj hc]
    decide

/-- The texts that the parser gets through, and what it takes them for. -/
theorem readText_eq_some_iff (s : CString) (d : DurationText) :
    readText s = some d ↔ d.Loose ∧ d.text = s := by
  constructor
  · intro h
    obtain ⟨f, hf, rfl⟩ := Option.map_eq_some_iff.mp h
    obtain ⟨hne, hlen, hdigits, hjoin⟩ := readFields_spec 2 s
    obtain ⟨htext, hfraction⟩ := (fractionOf_eq_some_iff _ _).mp hf
    refine ⟨⟨hne, hlen, hdigits, hfraction⟩, ?_⟩
    rw [DurationText.text, htext, hjoin]
  · rintro ⟨hloose, rfl⟩
    have hread := readFields_join hloose.fields_ne hloose.length_le hloose.fields_digits
      (stops_fractionText d.fraction)
    have hfraction := (fractionOf_eq_some_iff (DurationText.fractionText d.fraction) d.fraction).mpr
      ⟨rfl, hloose.fraction_digits⟩
    rw [readText, DurationText.text, hread, hfraction]
    rfl

/-- What the ints make of the digits. -/
def DurationText.value (d : DurationText) : Int64 :=
  (Int32.ofNat d.seconds).toInt64 * 10000000 + (Int32.ofNat d.ticks).toInt64

theorem readDigits_eq (m : Nat) (s : CString) : readDigits (Int32.ofNat m) s =
    (Int32.ofNat (Nat.ofDigitChars 10 (s.takeWhile Char.isDigit) m), s.dropWhile Char.isDigit) := by
  induction s generalizing m with
  | nil => rfl
  | cons c s ih =>
    rw [readDigits]
    by_cases hc : c.isDigit = true
    · have hnext : Int32.ofNat m * 10 + Int32.ofNat (c.toNat - 48) =
          Int32.ofNat (10 * m + (c.toNat - 48)) := by
        rw [Int32.ofNat_add, Int32.ofNat_mul, Int32.mul_comm]
        rfl
      rw [if_pos hc, hnext, ih, List.takeWhile_cons_of_pos hc, List.dropWhile_cons_of_pos hc,
        Nat.ofDigitChars_cons]
      rfl
    · rw [if_neg hc, List.takeWhile_cons_of_neg hc, List.dropWhile_cons_of_neg hc]
      rfl

theorem readDigits_zero (s : CString) : readDigits 0 s =
    (Int32.ofNat (Numeral.value (s.takeWhile Char.isDigit)), s.dropWhile Char.isDigit) :=
  readDigits_eq 0 s

/-- Digits of falling weights. -/
def weigh : Nat → CString → Nat
  | _, [] => 0
  | i, c :: s => i * (c.toNat - 48) + weigh (i / 10) s

theorem ofNat_div_ten {i : Nat} (hi : i < 2 ^ 31) : Int32.ofNat i / 10 = Int32.ofNat (i / 10) := by
  have hten : (10 : Int32).toInt = 10 := rfl
  rw [← Int32.toInt_inj, Int32.toInt_div_of_ne_right _ _ (by decide), Int32.toInt_ofNat_of_lt hi,
    Int32.toInt_ofNat_of_lt (by omega), hten, Int.tdiv_eq_ediv_of_nonneg (by omega)]
  rfl

theorem readFraction_eq {i : Nat} (hi : i < 2 ^ 31) (us : Nat) (s : CString) :
    readFraction (Int32.ofNat i) (Int32.ofNat us) s =
      (Int32.ofNat (us + weigh i (s.takeWhile Char.isDigit)), s.dropWhile Char.isDigit) := by
  induction s generalizing i us with
  | nil => rfl
  | cons c s ih =>
    rw [readFraction]
    by_cases hc : c.isDigit = true
    · have hnext : Int32.ofNat us + Int32.ofNat i * Int32.ofNat (c.toNat - 48) =
          Int32.ofNat (us + i * (c.toNat - 48)) := by
        rw [Int32.ofNat_add, Int32.ofNat_mul]
      rw [if_pos hc, hnext, ofNat_div_ten hi, ih (by omega), List.takeWhile_cons_of_pos hc,
        List.dropWhile_cons_of_pos hc, weigh, Nat.add_assoc]
    · rw [if_neg hc, List.takeWhile_cons_of_neg hc, List.dropWhile_cons_of_neg hc]
      rfl

theorem weigh_zero (s : CString) : weigh 0 s = 0 := by
  induction s with
  | nil => rfl
  | cons c s ih => rw [weigh, Nat.zero_mul, Nat.zero_div, ih]

theorem shift_value_cons (k : Nat) (c : Char) (s : CString) :
    Numeral.value (c :: s) * 10 ^ (k + 1) / 10 ^ (c :: s).length =
      10 ^ k * (c.toNat - 48) + Numeral.value s * 10 ^ k / 10 ^ s.length := by
  have hmul : ((c.toNat - 48) * 10 ^ s.length + Numeral.value s) * 10 ^ k =
      Numeral.value s * 10 ^ k + 10 ^ s.length * (10 ^ k * (c.toNat - 48)) := by ring
  rw [Numeral.value_cons, List.length_cons, Nat.pow_succ 10 k, Nat.pow_succ 10 s.length,
    ← Nat.mul_assoc, Nat.mul_div_mul_right _ _ (by decide), hmul,
    Nat.add_mul_div_left _ _ (Nat.pow_pos (by decide)), Nat.add_comm]

/-- The digits that count are one more than the exponent of the first weight. -/
theorem weigh_pow (k : Nat) {s : CString} (hs : DurationText.Digits s) :
    weigh (10 ^ k) s = Numeral.value s * 10 ^ (k + 1) / 10 ^ s.length := by
  induction s generalizing k with
  | nil => simp [weigh, Numeral.value]
  | cons c s ih =>
    have hrest : DurationText.Digits s := fun d hd => hs d (List.mem_cons_of_mem c hd)
    rw [shift_value_cons, weigh]
    refine congrArg (10 ^ k * (c.toNat - 48) + ·) ?_
    cases k with
    | zero =>
      have hlt := Numeral.value_lt hrest
      rw [Nat.pow_zero, Nat.mul_one, Nat.div_eq_of_lt hlt]
      exact weigh_zero s
    | succ k =>
      have hdiv : 10 ^ (k + 1) / 10 = 10 ^ k := by
        rw [Nat.pow_succ, Nat.mul_div_cancel _ (by decide)]
      rw [hdiv, ih k hrest]

theorem ticks_lt {d : DurationText} (h : d.Loose) : d.ticks < 10 ^ 7 := by
  unfold DurationText.ticks
  cases hf : d.fraction with
  | none => decide
  | some f =>
    have hlt := Numeral.value_lt (h.fraction_digits f hf)
    rw [Nat.div_lt_iff_lt_mul (Nat.pow_pos (by decide)), Nat.mul_comm (10 ^ 7)]
    exact Nat.mul_lt_mul_of_pos_right hlt (by decide)

theorem foldl_seconds (m : Nat) (fields : List CString) :
    fields.foldl (fun n f => n * 60 + Int32.ofNat (Numeral.value f)) (Int32.ofNat m) =
      Int32.ofNat (fields.foldl (fun n f => n * 60 + Numeral.value f) m) := by
  induction fields generalizing m with
  | nil => rfl
  | cons f fs ih =>
    have hnext : Int32.ofNat m * 60 + Int32.ofNat (Numeral.value f) =
        Int32.ofNat (m * 60 + Numeral.value f) := by
      rw [Int32.ofNat_add, Int32.ofNat_mul]
      rfl
    rw [List.foldl_cons, List.foldl_cons, hnext, ih]

theorem timusec_eq {hh mi ss : Int32} {fields : List CString}
    (hfields : (hh * 60 + mi) * 60 + ss =
      fields.foldl (fun n f => n * 60 + Int32.ofNat (Numeral.value f)) 0) (rest : CString) :
    timusec hh mi ss rest = (fractionOf rest).map fun f => DurationText.value ⟨fields, f⟩ := by
  have hseconds : (hh * 60 + mi) * 60 + ss = Int32.ofNat (DurationText.seconds ⟨fields, none⟩) :=
    hfields.trans (foldl_seconds 0 fields)
  unfold timusec fractionOf
  rw [hseconds]
  split
  · rfl
  · next f =>
    have hread : readFraction 1000000 0 f =
        (Int32.ofNat (0 + weigh (10 ^ 6) (f.takeWhile Char.isDigit)), f.dropWhile Char.isDigit) :=
      readFraction_eq (by decide) 0 f
    rw [hread, Nat.zero_add]
    by_cases hall : f.all Char.isDigit = true
    · have hdigits : DurationText.Digits f := List.all_eq_true.mp hall
      have htake : f.takeWhile Char.isDigit = f := List.takeWhile_eq_self_iff.mpr hdigits
      have hdrop : f.dropWhile Char.isDigit = [] := List.dropWhile_eq_nil_iff.mpr hdigits
      simp only [if_pos hall, htake, hdrop, if_true, weigh_pow 6 hdigits, Option.map_some]
      rfl
    · have hdrop : ¬ f.dropWhile Char.isDigit = [] := fun hnil =>
        hall (List.all_eq_true.mpr (List.dropWhile_eq_nil_iff.mp hnil))
      simp only [if_neg hall, if_neg hdrop, Option.map_none]
  · rfl

theorem readFields_colon {n : Nat} {s s' : CString} (h : s.dropWhile Char.isDigit = ':' :: s') :
    readFields (n + 1) s =
      (s.takeWhile Char.isDigit :: (readFields n s').1, (readFields n s').2) := by
  rw [readFields, h]
  rfl

theorem readFields_stop {n : Nat} {s : CString} (h : ∀ s', s.dropWhile Char.isDigit ≠ ':' :: s') :
    readFields (n + 1) s = ([s.takeWhile Char.isDigit], s.dropWhile Char.isDigit) := by
  rw [readFields]
  split
  · next s' hrest => exact absurd hrest (h s')
  · rfl

/-- A character that is neither a colon nor a point ends the parser. -/
theorem fractionOf_other {c : Char} (h : c ≠ '.') (r : CString) : fractionOf (c :: r) = none := by
  unfold fractionOf
  split
  · next heq => cases heq
  · next heq => exact absurd (List.cons.inj heq).1 h
  · rfl

theorem parseAfterColon_eq (H s : CString) :
    parseAfterColon (Int32.ofNat (Numeral.value H)) s =
      (fractionOf (readFields 1 s).2).map fun f =>
        DurationText.value ⟨H :: (readFields 1 s).1, f⟩ := by
  have hMS (S : CString) : ((0 : Int32) * 60 + Int32.ofNat (Numeral.value H)) * 60 +
      Int32.ofNat (Numeral.value S) =
        [H, S].foldl (fun n f => n * 60 + Int32.ofNat (Numeral.value f)) 0 := rfl
  have hHMS (M S : CString) : (Int32.ofNat (Numeral.value H) * 60 + Int32.ofNat (Numeral.value M)) *
      60 + Int32.ofNat (Numeral.value S) =
        [H, M, S].foldl (fun n f => n * 60 + Int32.ofNat (Numeral.value f)) 0 := by
    rw [List.foldl_cons, Int32.zero_mul, Int32.zero_add]
    rfl
  unfold parseAfterColon
  simp only [readDigits_zero]
  cases hrest : s.dropWhile Char.isDigit with
  | nil =>
    rw [readFields_stop (by rw [hrest]; exact nofun), hrest]
    exact timusec_eq (hMS _) _
  | cons c r =>
    by_cases hdot : c = '.'
    · subst hdot
      rw [readFields_stop (by rw [hrest]; simp), hrest]
      exact timusec_eq (hMS _) _
    · by_cases hcolon : c = ':'
      · subst hcolon
        rw [readFields_colon hrest, readFields]
        exact timusec_eq (hHMS _ _) _
      · rw [readFields_stop (by rw [hrest]; simp [hcolon]), hrest, fractionOf_other hdot]
        simp [hdot, hcolon]

/-- The parser reads the text, field by field, and nothing else. -/
theorem parseDuration_eq (s : CString) : parseDuration s = (readText s).map DurationText.value := by
  have hS (S : CString) : ((0 : Int32) * 60 + 0) * 60 + Int32.ofNat (Numeral.value S) =
      [S].foldl (fun n f => n * 60 + Int32.ofNat (Numeral.value f)) 0 := rfl
  unfold parseDuration readText
  simp only [readDigits_zero, Option.map_map]
  cases hrest : s.dropWhile Char.isDigit with
  | nil =>
    rw [readFields_stop (by rw [hrest]; exact nofun), hrest]
    exact timusec_eq (hS _) _
  | cons c r =>
    by_cases hdot : c = '.'
    · subst hdot
      rw [readFields_stop (by rw [hrest]; simp), hrest]
      exact timusec_eq (hS _) _
    · by_cases hcolon : c = ':'
      · subst hcolon
        rw [readFields_colon hrest]
        exact parseAfterColon_eq _ r
      · rw [readFields_stop (by rw [hrest]; simp [hcolon]), hrest, fractionOf_other hdot]
        simp [hdot, hcolon]

theorem parseDuration_eq_some_iff (s : CString) (t : Int64) : parseDuration s = some t ↔
    ∃ d : DurationText, d.Loose ∧ d.text = s ∧ d.value = t := by
  rw [parseDuration_eq, Option.map_eq_some_iff]
  simp only [readText_eq_some_iff, and_assoc]

theorem text_injective {d d' : DurationText} (h : d.Loose) (h' : d'.Loose) (heq : d.text = d'.text) :
    d = d' :=
  Option.some.inj (((readText_eq_some_iff _ d).mpr ⟨h, rfl⟩).symm.trans
    ((readText_eq_some_iff _ d').mpr ⟨h', heq.symm⟩))

theorem value_toInt {d : DurationText} (h : d.Loose) :
    d.value.toInt = (Int32.ofNat d.seconds).toInt * 10000000 + d.ticks := by
  have hticks := ticks_lt h
  have hlow := Int32.le_toInt (Int32.ofNat d.seconds)
  have hhigh := Int32.toInt_lt (Int32.ofNat d.seconds)
  have hweight : (10000000 : Int64).toInt = 10000000 := rfl
  have hus : (Int32.ofNat d.ticks).toInt = d.ticks := Int32.toInt_ofNat_of_lt (by omega)
  have hmul : ((Int32.ofNat d.seconds).toInt * 10000000).bmod (2 ^ 64) =
      (Int32.ofNat d.seconds).toInt * 10000000 := Int.bmod_eq_of_le (by omega) (by omega)
  rw [DurationText.value, Int64.toInt_add, Int64.toInt_mul, Int32.toInt_toInt64, Int32.toInt_toInt64,
    hweight, hus, hmul, Int.bmod_eq_of_le (by omega) (by omega)]

/-- The ints hold the exact duration when its seconds fit into one. -/
theorem value_exact_iff {d : DurationText} (h : d.Loose) :
    d.value.toInt = d.exact ↔ d.seconds < 2 ^ 31 := by
  have hhigh := Int32.toInt_lt (Int32.ofNat d.seconds)
  rw [value_toInt h, DurationText.exact]
  constructor
  · intro heq
    omega
  · intro hlt
    rw [Int32.toInt_ofNat_of_lt hlt]

theorem captureCommand_eq (dtformat : CString) (ndigits : Int32) (s file : CString) :
    captureCommand dtformat ndigits [s, file] =
      (parseDuration s).map fun t => ⟨file, dtformat, ndigits, t.toInt⟩ := by
  unfold captureCommand
  by_cases hexit : [s, file].head? = some "-exit".toList
  · have hs : s = "-exit".toList := Option.some.inj hexit
    have hno : parseDuration "-exit".toList = none := by decide
    rw [if_pos hexit, hs, hno]
    rfl
  · rw [if_neg hexit]

/-- The argument is parsed exactly: accepted in the documented forms, with the
duration that they denote, and without a limit only where they denote none. -/
structure ParsedExactly (dtformat : CString) (ndigits : Int32) (s file : CString) : Prop where
  accepts : (captureCommand dtformat ndigits [s, file]).isSome = true ↔
    ∃ d : DurationText, d.Strict ∧ d.text = s
  duration : ∀ a (d : DurationText), captureCommand dtformat ndigits [s, file] = some a → d.Strict → d.text = s →
    a.captureTime = d.exact
  limited : ∀ a (d : DurationText), captureCommand dtformat ndigits [s, file] = some a → d.Strict → d.text = s →
    d.Nonzero → 0 < a.captureTime

theorem parsed_exactly_iff (dtformat : CString) (ndigits : Int32) (s file : CString) :
    ParsedExactly dtformat ndigits s file ↔
      (∃ d : DurationText, d.Strict ∧ d.text = s ∧ d.seconds < 2 ^ 31 ∧ (d.Nonzero → 0 < d.exact)) ∨
        ¬ ∃ d : DurationText, d.Loose ∧ d.text = s := by
  have haccept : (captureCommand dtformat ndigits [s, file]).isSome = true ↔
      ∃ d : DurationText, d.Loose ∧ d.text = s := by
    rw [captureCommand_eq, Option.isSome_map, Option.isSome_iff_exists]
    simp only [parseDuration_eq_some_iff]
    exact ⟨fun ⟨_, d, hd, htext, _⟩ => ⟨d, hd, htext⟩, fun ⟨d, hd, htext⟩ => ⟨_, d, hd, htext, rfl⟩⟩
  have hresult (d : DurationText) (hd : d.Loose) (htext : d.text = s) :
      captureCommand dtformat ndigits [s, file] = some ⟨file, dtformat, ndigits, d.value.toInt⟩ := by
    rw [captureCommand_eq, (parseDuration_eq_some_iff s d.value).mpr ⟨d, hd, htext, rfl⟩]
    rfl
  constructor
  · intro h
    by_cases hloose : ∃ d : DurationText, d.Loose ∧ d.text = s
    · obtain ⟨d, hd, htext⟩ := h.accepts.mp (haccept.mpr hloose)
      have hcalled := hresult d hd.toLoose htext
      have hexact : d.value.toInt = d.exact := h.duration _ d hcalled hd htext
      have hlimited : d.Nonzero → 0 < d.value.toInt := h.limited _ d hcalled hd htext
      exact .inl ⟨d, hd, htext, (value_exact_iff hd.toLoose).mp hexact, hexact ▸ hlimited⟩
    · exact .inr hloose
  · rintro (⟨d, hd, htext, hlt, hnonzero⟩ | hnot)
    · have hexact (a : StartArgs) (d' : DurationText)
          (ha : captureCommand dtformat ndigits [s, file] = some a) (hd' : d'.Strict)
          (htext' : d'.text = s) : d' = d ∧ a.captureTime = d.exact := by
        rw [hresult d hd.toLoose htext] at ha
        rw [← Option.some.inj ha]
        exact ⟨text_injective hd'.toLoose hd.toLoose (htext'.trans htext.symm),
          (value_exact_iff hd.toLoose).mpr hlt⟩
      refine ⟨iff_of_true (haccept.mpr ⟨d, hd.toLoose, htext⟩) ⟨d, hd, htext⟩, ?_, ?_⟩
      · intro a d' ha hd' htext'
        obtain ⟨rfl, htime⟩ := hexact a d' ha hd' htext'
        exact htime
      · intro a d' ha hd' htext' hne
        obtain ⟨rfl, htime⟩ := hexact a d' ha hd' htext'
        rw [htime]
        exact hnonzero hne
    · have hno (d : DurationText) (hd : d.Strict) (htext : d.text = s) : False :=
        hnot ⟨d, hd.toLoose, htext⟩
      exact ⟨iff_of_false (fun h => hnot (haccept.mp h)) fun ⟨d, hd, htext⟩ => hno d hd htext,
        fun _ d _ hd htext => (hno d hd htext).elim, fun _ d _ hd htext => (hno d hd htext).elim⟩

theorem DurationText.Strict.text_ne_nil {d : DurationText} (h : d.Strict) : d.text ≠ [] := by
  obtain ⟨f, fs, hfields⟩ := List.exists_cons_of_ne_nil h.fields_ne
  have hf : f ≠ [] := h.fields_full f (hfields ▸ List.mem_cons_self)
  rw [DurationText.text, hfields]
  cases fs with
  | nil => exact List.append_ne_nil_of_left_ne_nil hf _
  | cons f' fs => simp [DurationText.joinFields, hf]

/-- `2^32` seconds. -/
def wrappedText : DurationText := ⟨["4294967296".toList], none⟩

theorem wrappedText_strict : wrappedText.Strict := by
  have hfields (f : CString) (hf : f ∈ wrappedText.fields) : f = "4294967296".toList :=
    List.mem_singleton.mp hf
  refine ⟨⟨List.cons_ne_nil _ _, by decide, fun f hf => ?_, nofun⟩, fun f hf => ?_, nofun⟩
  · rw [hfields f hf, DurationText.Digits, ← List.all_eq_true]
    rfl
  · rw [hfields f hf]
    exact List.cons_ne_nil _ _

/-- The tenth part of a tick. -/
def tinyText : DurationText := ⟨["0".toList], some "00000001".toList⟩

theorem tinyText_strict : tinyText.Strict := by
  have hfields (f : CString) (hf : f ∈ tinyText.fields) : f = "0".toList := List.mem_singleton.mp hf
  have hfraction (f : CString) (hf : tinyText.fraction = some f) : f = "00000001".toList :=
    (Option.some.inj hf).symm
  refine ⟨⟨List.cons_ne_nil _ _, by decide, fun f hf => ?_, fun f hf => ?_⟩, fun f hf => ?_, nofun⟩
  · rw [hfields f hf, DurationText.Digits, ← List.all_eq_true]
    rfl
  · rw [hfraction f hf, DurationText.Digits, ← List.all_eq_true]
    rfl
  · rw [hfields f hf]
    exact List.cons_ne_nil _ _

/-- An argument without digits is a duration without limit, and so are 2^32 seconds
and the tenth part of a tick. -/
theorem unlimited_durations :
    captureCommand [] 0 ["".toList, "a.avi".toList] = some ⟨"a.avi".toList, [], 0, 0⟩ ∧
    ¬ ParsedExactly [] 0 "".toList "a.avi".toList ∧
    captureCommand [] 0 ["4294967296".toList, "a.avi".toList] = some ⟨"a.avi".toList, [], 0, 0⟩ ∧
    wrappedText.exact = 42949672960000000 ∧
    ¬ ParsedExactly [] 0 "4294967296".toList "a.avi".toList ∧
    captureCommand [] 0 ["0.00000001".toList, "a.avi".toList] = some ⟨"a.avi".toList, [], 0, 0⟩ ∧
    ¬ ParsedExactly [] 0 "0.00000001".toList "a.avi".toList := by
  have hempty : captureCommand [] 0 ["".toList, "a.avi".toList] =
      some ⟨"a.avi".toList, [], 0, 0⟩ := by decide
  have hwrapped : captureCommand [] 0 ["4294967296".toList, "a.avi".toList] =
      some ⟨"a.avi".toList, [], 0, 0⟩ := by decide
  have hexact : wrappedText.exact = 42949672960000000 := by decide
  have htiny : captureCommand [] 0 ["0.00000001".toList, "a.avi".toList] =
      some ⟨"a.avi".toList, [], 0, 0⟩ := by decide
  have hnonzero : tinyText.Nonzero := .inr ⟨_, rfl, by decide⟩
  refine ⟨hempty, fun h => ?_, hwrapped, hexact, fun h => ?_, htiny, fun h => ?_⟩
  · obtain ⟨d, hd, htext⟩ := h.accepts.mp (hempty ▸ rfl)
    exact hd.text_ne_nil htext
  · have hzero := h.duration _ _ hwrapped wrappedText_strict rfl
    rw [hexact] at hzero
    exact absurd hzero (by decide)
  · exact absurd (h.limited _ _ htiny tinyText_strict rfl hnonzero) (by decide)

end WinDV
