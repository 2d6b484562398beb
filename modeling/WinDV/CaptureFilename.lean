import WinDV.AVICheck
import WinDV.Numerals

/-! `GetCaptureFilename`: the scan of the directory for numbered files, and the
name it settles on. Lengths are natural numbers, the numbers read from file
names are `int`s and wrap. -/

namespace WinDV

def isSeparator (c : Char) : Bool := c == '\\' || c == '/' || c == ':'

/-- What follows the last path separator. -/
def fileName (path : CString) : CString := path.rtakeWhile fun c => !isSeparator c

def avi : CString := ".avi".toList

/-- The `%0*d` of `CString::Format`, for a width that is not negative. -/
def formatPadded (width : Nat) (x : Int32) : CString :=
  if x < 0 then '-' :: Numeral.padded (width - 1) x.toInt.natAbs
  else Numeral.padded width x.toInt.natAbs

/-- The base path with the date and time, which a time that is not positive
takes from the clock, `now`. -/
def baseWithTime (formatTime : CString → Int32 → CString) (now : Int32) (base dtformat : CString)
    (tim : Int32) : CString :=
  let tim := if tim ≤ 0 then now else tim
  let tmp := formatTime dtformat tim
  if tmp ≠ [] then base ++ '.' :: tmp else base

/-- `maxn` and `max` of the scan. -/
structure NumberScan where
  maxn : Nat
  max : Int32
  deriving DecidableEq, Repr

def readNumber (s : CString) : Int32 :=
  s.foldl (fun j c => j * 10 + Int32.ofNat (c.toNat - '0'.toNat)) 0

/-- The part of a file name between the base, of `bassiz` characters, and `.avi`. -/
def numberPart (bassiz : Nat) (name : CString) : CString :=
  (name.drop (bassiz + 1)).take (name.length - bassiz - 5)

def scanName (bassiz : Nat) (s : NumberScan) (name : CString) : NumberScan :=
  let l := name.length - bassiz - 5
  if l > 0 ∧ l ≥ s.maxn then
    let tmp := numberPart bassiz name
    if tmp.all Char.isDigit then
      let j := readNumber tmp
      if l > s.maxn then ⟨l, j⟩
      else if j > s.max then { s with max := j }
      else s
    else s
  else s

def scanNames (bassiz ndigits : Nat) (names : List CString) : NumberScan :=
  names.foldl (scanName bassiz) ⟨ndigits, -1⟩

/-- `GetCaptureFilename` from the base with its time on; `findFile` lists the
file names that match a pattern. -/
def captureFilename (findFile : CString → List CString) (basdattim : CString) (ndigits : Nat) :
    CString :=
  let s := scanNames (fileName basdattim).length ndigits (findFile (basdattim ++ ".*.avi".toList))
  let num := '.' :: formatPadded s.maxn (s.max + 1)
  let maxn := if s.maxn = 0 ∧ findFile (basdattim ++ avi) ≠ [] then 1 else s.maxn
  (if maxn ≠ 0 then basdattim ++ num else basdattim) ++ avi

def getCaptureFilename (findFile : CString → List CString)
    (formatTime : CString → Int32 → CString) (now : Int32) (base dtformat : CString)
    (ndigits : Nat) (tim : Int32) : CString :=
  captureFilename findFile (baseWithTime formatTime now base dtformat tim) ndigits

example : captureFilename (fun p => if p = "tape.*.avi".toList then ["tape.007.avi".toList] else [])
    "tape".toList 2 = "tape.008.avi".toList := by decide

/-- How the file system compares characters of file names: letters may be told
apart or not, digits and punctuation are. -/
structure CaseRule where
  fold : Char → Char
  fold_eq : ∀ c d, fold c = fold d → d.isDigit = true ∨ d = '-' → c = d

theorem toLower_cases (c : Char) :
    c.toLower = c ∨ (65 ≤ c.toNat ∧ c.toLower.toNat = c.toNat + 32) := by
  by_cases h : c.val ≥ 'A'.val ∧ c.val ≤ 'Z'.val
  · have hle : 65 ≤ c.val.toNat := UInt32.le_iff_toNat_le.mp h.1
    have hge : c.val.toNat ≤ 90 := UInt32.le_iff_toNat_le.mp h.2
    refine .inr ⟨hle, ?_⟩
    rw [show c.toLower = _ from dif_pos h]
    show (c.val + 32).toNat = c.val.toNat + 32
    rw [UInt32.toNat_add]
    show (c.val.toNat + 32) % 2 ^ 32 = _
    omega
  · exact .inl (dif_neg h)

namespace CaseRule

/-- Only the letters of ASCII have case. -/
def ascii : CaseRule where
  fold := Char.toLower
  fold_eq c d h hd := by
    have hrange : d.toNat ≤ 57 := by
      rcases hd with hd | rfl
      · exact (Char.isDigit_iff_toNat.mp hd).2
      · decide
    have hlow : d.toLower = d := (toLower_cases d).resolve_right fun hup => by omega
    rcases toLower_cases c with hc | ⟨hup, hc⟩
    · exact (hc.symm.trans h).trans hlow
    · rw [h, hlow] at hc
      omega

variable (rule : CaseRule)

def Same (a b : CString) : Prop := a.map rule.fold = b.map rule.fold

instance (a b : CString) : Decidable (rule.Same a b) :=
  inferInstanceAs (Decidable (a.map rule.fold = b.map rule.fold))

/-- `e` matches the pattern `pre*suf`. -/
def Matches (pre suf e : CString) : Prop := ∃ mid, rule.Same e (pre ++ mid ++ suf)

def Exists (entries : List CString) (name : CString) : Prop := ∃ e ∈ entries, rule.Same e name

variable {rule} {a b c : CString}

theorem Same.length_eq (h : rule.Same a b) : a.length = b.length := by
  have := congrArg List.length h
  rwa [List.length_map, List.length_map] at this

theorem Same.symm (h : rule.Same a b) : rule.Same b a := Eq.symm h

theorem Same.drop (h : rule.Same a b) (n : Nat) : rule.Same (a.drop n) (b.drop n) := by
  rw [Same, List.map_drop, List.map_drop, h]

theorem Same.take (h : rule.Same a b) (n : Nat) : rule.Same (a.take n) (b.take n) := by
  rw [Same, List.map_take, List.map_take, h]

/-- Digits and the minus sign have no case. -/
theorem Same.eq_of_digits (h : rule.Same a b) (hb : ∀ c ∈ b, c.isDigit = true ∨ c = '-') :
    a = b := by
  induction b generalizing a with
  | nil => exact List.length_eq_zero_iff.mp h.length_eq
  | cons d b ih =>
    cases a with
    | nil => cases h.length_eq
    | cons c a =>
      obtain ⟨hc, ht⟩ := List.cons.inj h
      rw [rule.fold_eq c d hc (hb d List.mem_cons_self),
        ih ht fun e he => hb e (List.mem_cons_of_mem d he)]

end CaseRule

/-- The directory of the base, as `FindFile` and `FindNextFile` list it: in any
order the entries that match the patterns of `GetCaptureFilename`. -/
structure Lists (rule : CaseRule) (entries : List CString) (basdattim : CString)
    (findFile : CString → List CString) : Prop where
  numbered : ∀ e, e ∈ findFile (basdattim ++ ".*.avi".toList) ↔
    e ∈ entries ∧ rule.Matches (fileName basdattim ++ ['.']) avi e
  plain : ∀ e, e ∈ findFile (basdattim ++ avi) ↔
    e ∈ entries ∧ rule.Same e (fileName basdattim ++ avi)

/-- The all-digit suffixes of the files `name.<digits>.avi`. -/
def suffixes (rule : CaseRule) (entries : List CString) (name : CString) : Set CString :=
  {t | t ≠ [] ∧ (∀ c ∈ t, c.isDigit = true) ∧ rule.Exists entries (name ++ '.' :: t ++ avi)}

end WinDV
