import WinDV.Delimited
import WinDV.Numerals
import WinDV.RecordingDate
import WinDV.TextFile
import WinDV.Verification
import Mathlib.Data.List.Forall2

/-! `WriteCaptureLog`: the rows of the log file, and what can be read back from
them. Names are written as they are, whatever they hold. -/

namespace WinDV

namespace CaptureLogFile

open TextFile Delimited

structure ErrorStats where
  dwTotalFrames : UInt32
  dwFramesWithVideoErrors : UInt32
  dwTotalVideoErrorBlocks : UInt32
  dwTotalAudioErrorBlocks : UInt32
  dwWorstFrameNumber : UInt32
  dwVideoErrorsEven : UInt32
  dwVideoErrorsOdd : UInt32
  deriving DecidableEq, Repr

structure CaptureStats where
  sFilename : CString
  dwStartTick : UInt32
  tFirstRecTime : Int
  tLastRecTime : Int
  dwFrameCount : UInt32
  dwDroppedFrames : UInt32
  bIsPAL : Bool
  eStopReason : Int32
  bCheckPassed : Bool
  dwCheckDefect : UInt32
  bCheckIndex : Bool
  errorStats : ErrorStats
  szSHA256 : CString
  deriving DecidableEq, Repr

/-- The time zone, with the times that `localtime` has none for, and a percentage in
hundredths as `%.2f` rounds it. -/
structure LogEnv where
  localtime : Int → Option CalendarTime
  hundredths : UInt32 → UInt32 → Nat

/-- One call: what `time` and `GetTickCount` return, and whether the file opens. -/
structure LogCall where
  stats : CaptureStats
  now : Int
  tickCount : UInt32
  opened : Bool

/-- A date and a time of day as numbers. -/
structure DateTime where
  year : Nat
  month : Nat
  day : Nat
  hour : Nat
  minute : Nat
  second : Nat
  deriving DecidableEq, Repr

def dateTime (c : CalendarTime) : DateTime := ⟨c.year, c.month, c.day, c.hour, c.minute, c.second⟩

/-- What ends neither a field nor a line nor the file, nor the string before them. -/
def plainChar (c : Char) : Bool := c != ',' && c != '\n' && c != '\x1a' && c != '\x00'

def Plain (s : CString) : Prop := s.all plainChar = true

instance (s : CString) : Decidable (Plain s) := inferInstanceAs (Decidable (_ = _))

theorem Plain.append {s t : CString} (hs : Plain s) (ht : Plain t) : Plain (s ++ t) := by
  rw [Plain, List.all_append, hs, ht]
  rfl

theorem Plain.cons {c : Char} {s : CString} (hc : plainChar c = true) (hs : Plain s) :
    Plain (c :: s) := by
  rw [Plain, List.all_cons, hc, hs]
  rfl

theorem plain_digits {s : CString} (h : ∀ c ∈ s, c.isDigit = true) : Plain s := by
  refine List.all_eq_true.mpr fun c hc => ?_
  have hrange := Numeral.toNat_of_isDigit (h c hc)
  have hne (d : Char) (hd : d.toNat < 48) : c ≠ d := by
    rintro rfl
    omega
  simp [plainChar, hne ',' (by decide), hne '\n' (by decide), hne '\x1a' (by decide),
    hne '\x00' (by decide)]

/-- How a value stands in a row: no value is written with a separator, and each
is read back. -/
structure Column (α : Type) where
  print : α → CString
  read : CString → Option α
  read_print : ∀ a, read (print a) = some a
  plain : ∀ a, Plain (print a)

theorem toDigits_isDigit {n : Nat} {c : Char} (h : c ∈ Nat.toDigits 10 n) : c.isDigit = true :=
  Nat.isDigit_of_mem_toDigits (by decide) (by decide) h

theorem value_toDigits (n : Nat) : Numeral.value (Nat.toDigits 10 n) = n :=
  Nat.ofDigitChars_ten_toDigits

/-- `%lu` -/
def dword : Column UInt32 where
  print x := CString.ofDWORD x
  read s := if s ≠ [] ∧ s.all Char.isDigit then some (UInt32.ofNat (Numeral.value s)) else none
  read_print x := by
    have hdigits : (Nat.toDigits 10 x.toNat).all Char.isDigit = true :=
      List.all_eq_true.mpr fun c hc => toDigits_isDigit hc
    rw [CString.ofDWORD, if_pos ⟨Nat.toDigits_ne_nil, hdigits⟩, value_toDigits]
    exact congrArg some x.ofNat_toNat
  plain x := plain_digits fun _ hc => toDigits_isDigit hc

/-- `%ld` -/
def long : Column Int32 where
  print x := if x < 0 then '-' :: Nat.toDigits 10 x.toInt.natAbs else Nat.toDigits 10 x.toInt.natAbs
  read
    | '-' :: s => some (Int32.ofInt (-(Numeral.value s : Int)))
    | s => some (Int32.ofInt (Numeral.value s))
  read_print x := by
    have hsign : x < 0 ↔ x.toInt < 0 := Int32.lt_iff_toInt_lt
    by_cases h : x < 0
    · have hneg : -(x.toInt.natAbs : Int) = x.toInt := by
        have := hsign.mp h
        omega
      rw [if_pos h]
      show some (Int32.ofInt (-(Numeral.value _ : Int))) = some x
      rw [value_toDigits, hneg, Int32.ofInt_toInt]
    · have hpos : (x.toInt.natAbs : Int) = x.toInt := by
        have := mt hsign.mpr h
        omega
      rw [if_neg h]
      split
      · next s heq =>
        have hminus : '-'.isDigit = true := toDigits_isDigit (heq ▸ List.mem_cons_self)
        exact absurd hminus (by decide)
      · rw [value_toDigits, hpos, Int32.ofInt_toInt]
  plain x := by
    have hdigits : Plain (Nat.toDigits 10 x.toInt.natAbs) :=
      plain_digits fun _ hc => toDigits_isDigit hc
    split
    · exact hdigits.cons rfl
    · exact hdigits

/-- One of some texts, each of which stands for its own value. -/
def choice {α : Type} [DecidableEq α] (text : α → CString) (values : List α)
    (hall : ∀ a, a ∈ values) (hinj : ∀ a b, text a = text b → a = b)
    (hplain : ∀ a, Plain (text a)) : Column α where
  print := text
  read s := values.find? (text · = s)
  read_print a := by
    have hfound : (values.find? (text · = text a)).isSome = true :=
      List.find?_isSome.mpr ⟨a, hall a, decide_eq_true rfl⟩
    obtain ⟨b, hb⟩ := Option.isSome_iff_exists.mp hfound
    have hfits := List.find?_some hb
    rw [hb, hinj b a (of_decide_eq_true hfits)]
  plain := hplain

def format : Column Bool :=
  choice (fun isPAL => if isPAL then "PAL".toList else "NTSC".toList) [true, false] (by decide)
    (by decide) (by decide)

def flag : Column Bool :=
  choice (fun b => if b then "1".toList else "0".toList) [true, false] (by decide) (by decide)
    (by decide)

def reasonText : Option StopReason → CString
  | some .user => "USER".toList
  | some .signalLost => "SIGNAL_LOST".toList
  | some .lowDisk => "LOW_DISK".toList
  | some .timed => "TIMED".toList
  | none => "UNKNOWN".toList

def stopReason : Column (Option StopReason) :=
  choice reasonText [some .user, some .signalLost, some .lowDisk, some .timed, none]
    (by rintro (_ | _ | _ | _ | _) <;> decide)
    (by rintro (_ | _ | _ | _ | _) (_ | _ | _ | _ | _) h <;> first | rfl | exact absurd h (by decide))
    (by rintro (_ | _ | _ | _ | _) <;> rfl)

/-- `%.2f` -/
def percentage : Column Nat where
  print n := Nat.toDigits 10 (n / 100) ++ '.' :: Numeral.padded 2 (n % 100)
  read s :=
    match s.splitOn '.' with
    | [whole, fraction] => some (Numeral.value whole * 100 + Numeral.value fraction)
    | _ => none
  read_print n := by
    have hwhole : '.' ∉ Nat.toDigits 10 (n / 100) := fun h =>
      absurd (toDigits_isDigit h) (by decide)
    have hfraction : '.' ∉ Numeral.padded 2 (n % 100) := fun h =>
      absurd (Numeral.isDigit_of_mem_padded h) (by decide)
    rw [List.splitOn_append_cons_self_of_not_mem hwhole, List.splitOn_eq_singleton hfraction]
    show some (Numeral.value _ * 100 + Numeral.value _) = some n
    rw [value_toDigits, Numeral.value_padded, Nat.div_add_mod']
  plain n := (plain_digits fun _ hc => toDigits_isDigit hc).append
    ((plain_digits fun _ hc => Numeral.isDigit_of_mem_padded hc).cons rfl)

/-- `%Y-%m-%dT%H:%M:%S` -/
def date : Column DateTime where
  print d := Numeral.padded 4 d.year ++ '-' :: (Numeral.padded 2 d.month ++ '-' ::
    (Numeral.padded 2 d.day ++ 'T' :: (Numeral.padded 2 d.hour ++ ':' ::
      (Numeral.padded 2 d.minute ++ ':' :: Numeral.padded 2 d.second))))
  read s :=
    match (s.splitOnP (!·.isDigit)).map Numeral.value with
    | [year, month, day, hour, minute, second] => some ⟨year, month, day, hour, minute, second⟩
    | _ => none
  read_print d := by
    have hdigits (width n : Nat) : ∀ c ∈ Numeral.padded width n, (!c.isDigit) = false := by
      intro c hc
      rw [Numeral.isDigit_of_mem_padded hc]
      rfl
    rw [List.splitOnP_append_cons_of_forall_mem (hdigits _ _) _ rfl,
      List.splitOnP_append_cons_of_forall_mem (hdigits _ _) _ rfl,
      List.splitOnP_append_cons_of_forall_mem (hdigits _ _) _ rfl,
      List.splitOnP_append_cons_of_forall_mem (hdigits _ _) _ rfl,
      List.splitOnP_append_cons_of_forall_mem (hdigits _ _) _ rfl,
      List.splitOnP_eq_singleton (hdigits _ _)]
    simp only [List.map_cons, List.map_nil, Numeral.value_padded]
  plain d := by
    have hplain (width n : Nat) : Plain (Numeral.padded width n) :=
      plain_digits fun _ hc => Numeral.isDigit_of_mem_padded hc
    exact (hplain 4 d.year).append (((hplain 2 d.month).append (((hplain 2 d.day).append
      (((hplain 2 d.hour).append (((hplain 2 d.minute).append
        ((hplain 2 d.second).cons rfl)).cons rfl)).cons rfl)).cons rfl)).cons rfl)

/-- A date that may be missing. -/
def tapeDate : Column (Option DateTime) where
  print
    | none => []
    | some d => date.print d
  read
    | [] => some none
    | s => (date.read s).map some
  read_print a := by
    cases a with
    | none => rfl
    | some d =>
      have hne : date.print d ≠ [] := List.append_ne_nil_of_right_ne_nil _ (List.cons_ne_nil _ _)
      dsimp only
      split
      · next heq => exact absurd heq hne
      · rw [date.read_print, Option.map_some]
  plain a := by
    cases a with
    | none => rfl
    | some d => exact date.plain d

/-- A string as far as C reads it. -/
def cstr (s : CString) : CString := s.takeWhile (· ≠ '\x00')

def stopReasons : List CString :=
  ["USER".toList, "SIGNAL_LOST".toList, "LOW_DISK".toList, "TIMED".toList]

def reason (eStopReason : Int32) : CString :=
  if eStopReason ≥ 0 ∧ eStopReason ≤ 3 then stopReasons.getD eStopReason.toInt.toNat []
  else "UNKNOWN".toList

/-- The time, or nothing where it is not available. -/
def tapeTime (env : LogEnv) (t : Int) : Option DateTime :=
  if t > 0 then (env.localtime t).map dateTime else none

/-- What `localtime` has no time for leaves `strftime` with a null pointer. -/
def Dated (env : LogEnv) (c : LogCall) : Prop :=
  (env.localtime c.now).isSome ∧
    (c.stats.tFirstRecTime > 0 → (env.localtime c.stats.tFirstRecTime).isSome) ∧
    (c.stats.tLastRecTime > 0 → (env.localtime c.stats.tLastRecTime).isSome)

instance (env : LogEnv) (c : LogCall) : Decidable (Dated env c) := inferInstanceAs (Decidable (_ ∧ _))

def durationSec (c : LogCall) : UInt32 := (c.tickCount - c.stats.dwStartTick) / 1000

/-- `errorPct` in hundredths. -/
def errorPct (env : LogEnv) (e : ErrorStats) : Nat :=
  if e.dwTotalFrames > 0 then env.hundredths e.dwFramesWithVideoErrors e.dwTotalFrames else 0

def evenOddDelta (e : ErrorStats) : Int32 :=
  let d := e.dwVideoErrorsEven.toInt32 - e.dwVideoErrorsOdd.toInt32
  if d < 0 then -d else d

def headerFields : List CString :=
  ["Timestamp".toList, "Filename".toList, "Format".toList, "Frames".toList, "Dropped".toList,
    "TapeStart".toList, "TapeEnd".toList, "Duration_s".toList, "StopReason".toList, "AVI_OK".toList,
    "Frames_Defekt".toList, "Index_Vorhanden".toList, "Fehler_Frames".toList,
    "Fehler_Bloecke_Video".toList, "Fehler_Bloecke_Audio".toList, "Fehler_Prozent".toList,
    "Schlimmster_Frame".toList, "Even_Odd_Delta".toList, "SHA256".toList]

/-- The first line without its end. -/
def header : CString := [','].intercalate headerFields

def rowFields (env : LogEnv) (c : LogCall) : List CString :=
  [tapeDate.print ((env.localtime c.now).map dateTime),
    cstr c.stats.sFilename,
    if c.stats.bIsPAL then "PAL".toList else "NTSC".toList,
    dword.print c.stats.dwFrameCount,
    dword.print c.stats.dwDroppedFrames,
    tapeDate.print (tapeTime env c.stats.tFirstRecTime),
    tapeDate.print (tapeTime env c.stats.tLastRecTime),
    dword.print (durationSec c),
    reason c.stats.eStopReason,
    if c.stats.bCheckPassed then "1".toList else "0".toList,
    dword.print c.stats.dwCheckDefect,
    if c.stats.bCheckIndex then "1".toList else "0".toList,
    dword.print c.stats.errorStats.dwFramesWithVideoErrors,
    dword.print c.stats.errorStats.dwTotalVideoErrorBlocks,
    dword.print c.stats.errorStats.dwTotalAudioErrorBlocks,
    percentage.print (errorPct env c.stats.errorStats),
    dword.print c.stats.errorStats.dwWorstFrameNumber,
    long.print (evenOddDelta c.stats.errorStats),
    cstr c.stats.szSHA256]

/-- The row without its end. -/
def row (env : LogEnv) (c : LogCall) : CString := [','].intercalate (rowFields env c)

/-- A missing file is created with the header; one that does not open is left. The
program ends where a time has no date. -/
def writeCaptureLog (env : LogEnv) (file : Option CString) (c : LogCall) : Option (Option CString) :=
  if !c.opened then some file
  else if ¬ Dated env c then none
  else
    let isNew := file.isNone
    some (file.getD [] ++ written ((if isNew then header ++ ['\n'] else []) ++ row env c ++ ['\n']))

/-- The file after the calls, on a path where there was none. -/
def logFile (env : LogEnv) (calls : List LogCall) : Option (Option CString) :=
  calls.foldlM (writeCaptureLog env) none

/-- The columns that are no texts. -/
structure LogValues where
  timestamp : Option DateTime
  isPAL : Bool
  frames : UInt32
  dropped : UInt32
  tapeStart : Option DateTime
  tapeEnd : Option DateTime
  duration : UInt32
  stopReason : Option StopReason
  aviOK : Bool
  framesDefekt : UInt32
  indexVorhanden : Bool
  fehlerFrames : UInt32
  fehlerBloeckeVideo : UInt32
  fehlerBloeckeAudio : UInt32
  fehlerProzent : Nat
  schlimmsterFrame : UInt32
  evenOddDelta : Int32
  deriving DecidableEq, Repr

/-- The columns that the header names, as they are passed in or computed. -/
structure LogColumns extends LogValues where
  filename : CString
  sha256 : CString
  deriving DecidableEq, Repr

def stopReasonOf (eStopReason : Int32) : Option StopReason :=
  if eStopReason = 0 then some .user
  else if eStopReason = 1 then some .signalLost
  else if eStopReason = 2 then some .lowDisk
  else if eStopReason = 3 then some .timed
  else none

def columns (env : LogEnv) (c : LogCall) : LogColumns where
  timestamp := (env.localtime c.now).map dateTime
  filename := c.stats.sFilename
  isPAL := c.stats.bIsPAL
  frames := c.stats.dwFrameCount
  dropped := c.stats.dwDroppedFrames
  tapeStart := tapeTime env c.stats.tFirstRecTime
  tapeEnd := tapeTime env c.stats.tLastRecTime
  duration := durationSec c
  stopReason := stopReasonOf c.stats.eStopReason
  aviOK := c.stats.bCheckPassed
  framesDefekt := c.stats.dwCheckDefect
  indexVorhanden := c.stats.bCheckIndex
  fehlerFrames := c.stats.errorStats.dwFramesWithVideoErrors
  fehlerBloeckeVideo := c.stats.errorStats.dwTotalVideoErrorBlocks
  fehlerBloeckeAudio := c.stats.errorStats.dwTotalAudioErrorBlocks
  fehlerProzent := errorPct env c.stats.errorStats
  schlimmsterFrame := c.stats.errorStats.dwWorstFrameNumber
  evenOddDelta := evenOddDelta c.stats.errorStats
  sha256 := c.stats.szSHA256

def readValues (timestamp format' frames dropped tapeStart tapeEnd duration reason aviOK framesDefekt
    indexVorhanden fehlerFrames fehlerBloeckeVideo fehlerBloeckeAudio fehlerProzent schlimmsterFrame
    evenOddDelta : CString) : Option LogValues := do
  return {
    timestamp := ← tapeDate.read timestamp
    isPAL := ← format.read format'
    frames := ← dword.read frames
    dropped := ← dword.read dropped
    tapeStart := ← tapeDate.read tapeStart
    tapeEnd := ← tapeDate.read tapeEnd
    duration := ← dword.read duration
    stopReason := ← stopReason.read reason
    aviOK := ← flag.read aviOK
    framesDefekt := ← dword.read framesDefekt
    indexVorhanden := ← flag.read indexVorhanden
    fehlerFrames := ← dword.read fehlerFrames
    fehlerBloeckeVideo := ← dword.read fehlerBloeckeVideo
    fehlerBloeckeAudio := ← dword.read fehlerBloeckeAudio
    fehlerProzent := ← percentage.read fehlerProzent
    schlimmsterFrame := ← dword.read schlimmsterFrame
    evenOddDelta := ← long.read evenOddDelta }

/-- Nineteen fields, read column by column. -/
def readRow : List CString → Option LogColumns
  | [f₁, filename, f₃, f₄, f₅, f₆, f₇, f₈, f₉, f₁₀, f₁₁, f₁₂, f₁₃, f₁₄, f₁₅, f₁₆, f₁₇, f₁₈, sha256] =>
    (readValues f₁ f₃ f₄ f₅ f₆ f₇ f₈ f₉ f₁₀ f₁₁ f₁₂ f₁₃ f₁₄ f₁₅ f₁₆ f₁₇ f₁₈).map
      fun values => ⟨values, filename, sha256⟩
  | _ => none

theorem reason_eq (eStopReason : Int32) :
    reason eStopReason = stopReason.print (stopReasonOf eStopReason) := by
  have hzero : (0 : Int32).toInt = 0 := rfl
  have hthree : (3 : Int32).toInt = 3 := rfl
  have hcase (k : Int32) : eStopReason = k ↔ eStopReason.toInt = k.toInt := Int32.toInt_inj.symm
  by_cases hrange : eStopReason ≥ 0 ∧ eStopReason ≤ 3
  · obtain ⟨hlow, hhigh⟩ := hrange
    rw [ge_iff_le, Int32.le_iff_toInt_le, hzero] at hlow
    rw [Int32.le_iff_toInt_le, hthree] at hhigh
    have hvalue : eStopReason = 0 ∨ eStopReason = 1 ∨ eStopReason = 2 ∨ eStopReason = 3 := by
      rw [hcase, hcase, hcase, hcase]
      show _ = (0 : Int) ∨ _ = (1 : Int) ∨ _ = (2 : Int) ∨ _ = (3 : Int)
      omega
    rcases hvalue with rfl | rfl | rfl | rfl <;> rfl
  · have hne (k : Int32) (hk : k ≥ 0 ∧ k ≤ 3) : eStopReason ≠ k := by
      rintro rfl
      exact hrange hk
    rw [reason, if_neg hrange, stopReasonOf, if_neg (hne 0 (by decide)), if_neg (hne 1 (by decide)),
      if_neg (hne 2 (by decide)), if_neg (hne 3 (by decide))]
    rfl

theorem Plain.ne {s : CString} (h : Plain s) {c : Char} (hc : c ∈ s) :
    c ≠ ',' ∧ c ≠ '\n' ∧ c ≠ '\x1a' ∧ c ≠ '\x00' := by
  simpa [plainChar, and_assoc] using List.all_eq_true.mp h c hc

theorem plain_of_ne {s : CString}
    (h : ∀ c ∈ s, c ≠ ',' ∧ c ≠ '\n' ∧ c ≠ '\x1a' ∧ c ≠ '\x00') : Plain s :=
  List.all_eq_true.mpr fun c hc => by simpa [plainChar, and_assoc] using h c hc

theorem cstr_of_plain {s : CString} (h : Plain s) : cstr s = s :=
  List.takeWhile_eq_self_iff.mpr fun _ hc => decide_eq_true (h.ne hc).2.2.2

theorem ne_of_mem_cstr {s : CString} {c : Char} (h : c ∈ cstr s) : c ≠ '\x00' := by
  have hkept := List.mem_takeWhile_imp h
  exact of_decide_eq_true hkept

/-- The fields are columns, but for the two texts. -/
theorem rowFields_eq (env : LogEnv) (c : LogCall) : ∃ before between : List CString,
    before.length = 1 ∧ between.length = 16 ∧ (∀ f ∈ before ++ between, Plain f) ∧
    rowFields env c =
      before ++ cstr c.stats.sFilename :: (between ++ [cstr c.stats.szSHA256]) := by
  refine ⟨[_], [_, _, _, _, _, _, _, _, _, _, _, _, _, _, _, _], rfl, rfl, ?_, rfl⟩
  rw [reason_eq]
  simp only [List.singleton_append, List.forall_mem_cons, List.not_mem_nil, false_imp_iff,
    implies_true, and_true]
  exact ⟨tapeDate.plain _, format.plain _, dword.plain _, dword.plain _, tapeDate.plain _,
    tapeDate.plain _, dword.plain _, stopReason.plain _, flag.plain _, dword.plain _, flag.plain _,
    dword.plain _, dword.plain _, dword.plain _, percentage.plain _, dword.plain _, long.plain _⟩

/-- A row with plain texts is read back as what was passed in. -/
theorem readRow_rowFields {env : LogEnv} {c : LogCall} (hname : Plain c.stats.sFilename)
    (hhash : Plain c.stats.szSHA256) : readRow (rowFields env c) = some (columns env c) := by
  have hformat : format.read (if c.stats.bIsPAL then "PAL".toList else "NTSC".toList) =
      some c.stats.bIsPAL := format.read_print _
  have hflag (b : Bool) : flag.read (if b then "1".toList else "0".toList) = some b :=
    flag.read_print b
  rw [rowFields, readRow, readValues, reason_eq, hformat, hflag, hflag, cstr_of_plain hname,
    cstr_of_plain hhash]
  simp only [dword.read_print, tapeDate.read_print, stopReason.read_print,
    percentage.read_print, long.read_print]
  rfl

/-- No string that C writes holds a character 0. -/
theorem ne_of_mem_row {env : LogEnv} {c : LogCall} {x : Char} (h : x ∈ row env c) : x ≠ '\x00' := by
  obtain ⟨before, between, -, -, hplain, hfields⟩ := rowFields_eq env c
  obtain rfl | ⟨f, hf, hx⟩ := mem_intercalate h
  · decide
  · rw [hfields, List.mem_append, List.mem_cons, List.mem_append, List.mem_singleton] at hf
    obtain hf | rfl | hf | rfl := hf
    · exact ((hplain f (List.mem_append_left _ hf)).ne hx).2.2.2
    · exact ne_of_mem_cstr hx
    · exact ((hplain f (List.mem_append_right _ hf)).ne hx).2.2.2
    · exact ne_of_mem_cstr hx

theorem row_plain {env : LogEnv} {c : LogCall} (hname : Plain c.stats.sFilename)
    (hhash : Plain c.stats.szSHA256) : ∀ f ∈ rowFields env c, Plain f := by
  obtain ⟨before, between, -, -, hplain, hfields⟩ := rowFields_eq env c
  rw [hfields, cstr_of_plain hname, cstr_of_plain hhash]
  intro f hf
  rw [List.mem_append, List.mem_cons, List.mem_append, List.mem_singleton] at hf
  obtain hf | rfl | hf | rfl := hf
  · exact hplain f (List.mem_append_left _ hf)
  · exact hname
  · exact hplain f (List.mem_append_right _ hf)
  · exact hhash

theorem logFile_concat (env : LogEnv) (calls : List LogCall) (c : LogCall) :
    logFile env (calls ++ [c]) = (logFile env calls).bind (writeCaptureLog env · c) := by
  rw [logFile, List.foldlM_append]
  exact congrArg (Option.bind _) (funext fun _ => bind_pure _)

theorem dated_of_logFile {env : LogEnv} {calls : List LogCall} {log : Option CString}
    (h : logFile env calls = some log) : ∀ c ∈ calls, c.opened = true → Dated env c := by
  induction calls using List.reverseRecOn generalizing log with
  | nil => exact nofun
  | append_singleton calls c ih =>
    rw [logFile_concat] at h
    obtain ⟨before, hbefore, hwrite⟩ := Option.bind_eq_some_iff.mp h
    rw [List.forall_mem_append, List.forall_mem_singleton]
    refine ⟨ih hbefore, fun hopened => ?_⟩
    rw [writeCaptureLog, hopened] at hwrite
    by_contra hdated
    simp [hdated] at hwrite

theorem logFile_eq {env : LogEnv} {calls : List LogCall}
    (h : ∀ c ∈ calls, c.opened = true → Dated env c) : logFile env calls =
      some (if calls.filter (·.opened) = [] then none
        else some (written (unlines '\n' (header :: (calls.filter (·.opened)).map (row env))))) := by
  induction calls using List.reverseRecOn with
  | nil => rfl
  | append_singleton calls c ih =>
    rw [List.forall_mem_append, List.forall_mem_singleton] at h
    rw [logFile_concat, ih h.1, List.filter_append, Option.bind_some]
    cases hopened : c.opened with
    | false =>
      have hnone : [c].filter (·.opened) = [] := by simp [hopened]
      rw [hnone, List.append_nil, writeCaptureLog, hopened]
      rfl
    | true =>
      have hone : [c].filter (·.opened) = [c] := by simp [hopened]
      have hne : calls.filter (·.opened) ++ [c] ≠ [] :=
        List.append_ne_nil_of_right_ne_nil _ (List.cons_ne_nil _ _)
      have hdated : ¬¬ Dated env c := not_not.mpr (h.2 hopened)
      rw [hone, if_neg hne, writeCaptureLog, hopened, if_neg hdated, List.map_append]
      by_cases hnew : calls.filter (·.opened) = []
      · rw [if_pos hnew, hnew]
        simp [unlines, List.append_assoc]
      · rw [if_neg hnew, List.map_singleton, ← List.cons_append, unlines_concat, written_append]
        simp only [Bool.not_true, Bool.false_eq_true, if_false, Option.isNone_some, Option.getD_some,
          List.nil_append]

/-- What is split into lines and fields is the header and a row for each call,
with every field as it was passed in. -/
structure Parseable (env : LogEnv) (calls : List LogCall) (file : CString) : Prop where
  columns19 : (header.splitOn ',').length = 19
  lines : ∃ rows : List CString, (readBack file).splitOn '\n' = header :: rows ++ [[]] ∧
    header ∉ rows ∧ List.Forall₂ (fun c line => (line.splitOn ',').length = 19 ∧
      readRow (line.splitOn ',') = some (columns env c)) calls rows

theorem readRow_texts {fields : List CString} {cols : LogColumns} (h : readRow fields = some cols) :
    cols.filename ∈ fields ∧ cols.sha256 ∈ fields := by
  unfold readRow at h
  split at h
  · obtain ⟨values, -, rfl⟩ := Option.map_eq_some_iff.mp h
    simp
  · cases h

theorem exists_of_forall₂ {α β : Type} {R : α → β → Prop} {l : List α} {m : List β}
    (h : List.Forall₂ R l m) {a : α} (ha : a ∈ l) : ∃ b ∈ m, R a b := by
  induction h with
  | nil => cases ha
  | cons hab _ ih =>
    obtain rfl | ha := List.mem_cons.mp ha
    · exact ⟨_, List.mem_cons_self, hab⟩
    · obtain ⟨b, hb, hR⟩ := ih ha
      exact ⟨b, List.mem_cons_of_mem _ hb, hR⟩

theorem headerFields_plain : ∀ f ∈ headerFields, Plain f := by
  have hall : headerFields.all (fun f => f.all plainChar) = true := by decide
  exact fun f hf => List.all_eq_true.mp hall f hf

theorem ne_of_mem_line {fields : List CString} (h : ∀ f ∈ fields, Plain f) {x : Char}
    (hx : x ∈ [','].intercalate fields) : x ≠ '\n' ∧ x ≠ '\x1a' ∧ x ≠ '\x00' := by
  obtain rfl | ⟨f, hf, hx⟩ := mem_intercalate hx
  · decide
  · exact ((h f hf).ne hx).2

theorem ne_of_mem_text {env : LogEnv} {calls : List LogCall} {x : Char}
    (h : x ∈ unlines '\n' (header :: calls.map (row env))) : x ≠ '\x00' := by
  obtain rfl | ⟨l, hl, hx⟩ := mem_unlines h
  · decide
  · obtain hl | hl := List.mem_cons.mp hl
    · rw [hl] at hx
      exact (ne_of_mem_line headerFields_plain hx).2.2
    · obtain ⟨c, -, rfl⟩ := List.mem_map.mp hl
      exact ne_of_mem_row hx

/-- A text that is read back as a field is plain. -/
theorem plain_of_field {text line s : CString} (htext : ∀ x ∈ text, x ≠ '\x00')
    (hline : line ∈ (readBack (written text)).splitOn '\n') (hs : s ∈ line.splitOn ',') :
    Plain s := by
  refine plain_of_ne fun c hc => ?_
  obtain ⟨hcline, hcomma⟩ := mem_of_mem_splitOn hs hc
  obtain ⟨hcread, hfeed⟩ := mem_of_mem_splitOn hline hcline
  rw [readBack_written_eq] at hcread
  have hend := List.mem_takeWhile_imp hcread
  exact ⟨hcomma, hfeed, of_decide_eq_true hend, htext c ((List.takeWhile_prefix _).subset hcread)⟩

theorem plain_of_parseable {env : LogEnv} {calls : List LogCall}
    (h : Parseable env calls (written (unlines '\n' (header :: calls.map (row env))))) :
    ∀ c ∈ calls, Plain c.stats.sFilename ∧ Plain c.stats.szSHA256 := by
  obtain ⟨rows, hsplit, -, hrows⟩ := h.lines
  intro c hc
  obtain ⟨line, hline, -, hread⟩ := exists_of_forall₂ hrows hc
  obtain ⟨hname, hhash⟩ := readRow_texts hread
  have hmem : line ∈ (readBack (written (unlines '\n' (header :: calls.map (row env))))).splitOn
      '\n' := by
    rw [hsplit]
    exact List.mem_append_left _ (List.mem_cons_of_mem header hline)
  exact ⟨plain_of_field (fun x hx => ne_of_mem_text hx) hmem hname,
    plain_of_field (fun x hx => ne_of_mem_text hx) hmem hhash⟩

theorem splitOn_line {fields : List CString} (h : ∀ f ∈ fields, Plain f) (hne : fields ≠ []) :
    ([','].intercalate fields).splitOn ',' = fields :=
  List.splitOn_intercalate ',' (fun f hf hmem => ((h f hf).ne hmem).1 rfl) hne

theorem row_ne_header {env : LogEnv} {c : LogCall} (h : ∀ f ∈ rowFields env c, Plain f) :
    row env c ≠ header := by
  intro heq
  have hfields : rowFields env c = headerFields := by
    rw [← splitOn_line h (List.cons_ne_nil _ _), ← splitOn_line headerFields_plain (List.cons_ne_nil _ _)]
    exact congrArg (·.splitOn ',') heq
  have hformat : (if c.stats.bIsPAL then "PAL".toList else "NTSC".toList) = "Format".toList :=
    congrArg (·.getD 2 []) hfields
  cases hpal : c.stats.bIsPAL with
  | false =>
    rw [hpal] at hformat
    exact absurd hformat (by decide)
  | true =>
    rw [hpal] at hformat
    exact absurd hformat (by decide)

theorem parseable_of_plain {env : LogEnv} {calls : List LogCall}
    (h : ∀ c ∈ calls, Plain c.stats.sFilename ∧ Plain c.stats.szSHA256) :
    Parseable env calls (written (unlines '\n' (header :: calls.map (row env)))) := by
  have hrow (c : LogCall) (hc : c ∈ calls) : ∀ f ∈ rowFields env c, Plain f :=
    row_plain (h c hc).1 (h c hc).2
  have hline (l : CString) (hl : l ∈ header :: calls.map (row env)) : ∀ x ∈ l, x ≠ '\n' ∧ x ≠ '\x1a' := by
    intro x hx
    obtain hl | hl := List.mem_cons.mp hl
    · rw [hl] at hx
      exact (ne_of_mem_line headerFields_plain hx).imp_right And.left
    · obtain ⟨c, hc, rfl⟩ := List.mem_map.mp hl
      exact (ne_of_mem_line (hrow c hc) hx).imp_right And.left
  have htext : ∀ x ∈ unlines '\n' (header :: calls.map (row env)), x ≠ '\x1a' := by
    intro x hx
    obtain rfl | ⟨l, hl, hx⟩ := mem_unlines hx
    · decide
    · exact (hline l hl x hx).2
  refine ⟨?_, calls.map (row env), ?_, ?_, ?_⟩
  · rw [header, splitOn_line headerFields_plain (List.cons_ne_nil _ _)]
    rfl
  · rw [readBack_written htext, splitOn_unlines fun l hl hmem => (hline l hl _ hmem).1 rfl]
  · intro hmem
    obtain ⟨c, hc, heq⟩ := List.mem_map.mp hmem
    exact row_ne_header (hrow c hc) heq
  · rw [List.forall₂_map_right_iff, List.forall₂_same]
    intro c hc
    have hsplit : (row env c).splitOn ',' = rowFields env c :=
      splitOn_line (hrow c hc) (List.cons_ne_nil _ _)
    rw [hsplit]
    exact ⟨rfl, readRow_rowFields (h c hc).1 (h c hc).2⟩

theorem log_parseable_iff (env : LogEnv) (calls : List LogCall) :
    (∃ log, logFile env calls = some log ∧
        ∀ file, log = some file → Parseable env (calls.filter (·.opened)) file) ↔
      ∀ c ∈ calls, c.opened = true →
        Dated env c ∧ Plain c.stats.sFilename ∧ Plain c.stats.szSHA256 := by
  constructor
  · rintro ⟨log, hlog, hparse⟩ c hc hopened
    have hdated := dated_of_logFile hlog
    have hmem : c ∈ calls.filter (·.opened) := List.mem_filter.mpr ⟨hc, hopened⟩
    rw [logFile_eq hdated, if_neg (List.ne_nil_of_mem hmem), Option.some.injEq] at hlog
    exact ⟨hdated c hc hopened, plain_of_parseable (hparse _ hlog.symm) c hmem⟩
  · intro h
    refine ⟨_, logFile_eq fun c hc hopened => (h c hc hopened).1, fun file hfile => ?_⟩
    split at hfile
    · cases hfile
    · rw [← Option.some.inj hfile]
      exact parseable_of_plain fun c hc => (h c (List.mem_filter.mp hc).1 (List.mem_filter.mp hc).2).2

def reasonCode : StopReason → Int32
  | .user => 0
  | .signalLost => 1
  | .lowDisk => 2
  | .timed => 3

/-- The record that the worker thread passes at the end of its session. -/
def ofSession (s : WinDV.CaptureStats) (dwStartTick : UInt32) (errorStats : ErrorStats) :
    CaptureStats where
  sFilename := s.sFilename
  dwStartTick := dwStartTick
  tFirstRecTime := s.tFirstRecTime.toInt
  tLastRecTime := s.tLastRecTime.toInt
  dwFrameCount := s.dwFrameCount
  dwDroppedFrames := s.dwDroppedFrames
  bIsPAL := s.bIsPAL
  eStopReason := reasonCode s.eStopReason
  bCheckPassed := s.bCheckPassed
  dwCheckDefect := s.dwCheckDefect
  bCheckIndex := s.bCheckIndex
  errorStats := errorStats
  szSHA256 := s.szSHA256

def newYear : CalendarTime :=
  ⟨2024, 1, 1, 0, 0, 0, noon.month_mem, by decide, by decide, noon.minute_lt, noon.second_lt⟩

/-- The call after a session whose file has a comma in its name. -/
def commaCall : LogCall where
  stats := ofSession { sFilename := "C:\\tape, side 1.avi".toList, bIsPAL := true } 0
    ⟨0, 0, 0, 0, 0, 0, 0⟩
  now := 1704067200
  tickCount := 5000
  opened := true

def greenwich : LogEnv where
  localtime t := if t = 1704067200 then some newYear else none
  hundredths _ _ := 0

theorem comma_unparseable : ∃ file, logFile greenwich [commaCall] = some (some file) ∧
    ((row greenwich commaCall).splitOn ',').length = 20 ∧ ¬ Parseable greenwich [commaCall] file := by
  refine ⟨_, logFile_eq (List.forall_mem_singleton.mpr fun _ => by decide), by decide, fun h => ?_⟩
  exact absurd (plain_of_parseable h commaCall List.mem_cons_self).1 (by decide)

end CaptureLogFile

end WinDV
