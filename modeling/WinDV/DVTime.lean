import Mathlib.Data.List.Basic

/-! `GetDVRecordingTime`: the date and the time in the subcode of a DV frame.
What `mktime` makes of them depends on the time zone and is left open. -/

namespace WinDV

structure Tm where
  tmSec : Int
  tmMin : Int
  tmHour : Int
  tmMday : Int
  tmMon : Int
  tmYear : Int
  tmWday : Int
  tmYday : Int
  tmIsdst : Int
  deriving DecidableEq, Repr

/-- Where the pack of packet `k` in subcode block `j` of sequence `i` begins. -/
def packOffset (i j k : Nat) : Nat := i * 150 * 80 + 1 * 80 + j * 80 + 3 + k * 8 + 3

def packOffsets (seqCount : Nat) : List Nat :=
  (List.range seqCount).flatMap fun i =>
    (List.range 2).flatMap fun j => (List.range 6).map fun k => packOffset i j k

/-- The five bytes of the first pack with the given number. -/
def getSSYBPack (data : List UInt8) (packNum : UInt8) : Option (Fin 5 → UInt8) :=
  let seqCount := if data.length ≥ 144000 then 12 else 10
  ((packOffsets seqCount).find? fun o => data.getD o 0 = packNum).map fun o n => data.getD (o + n) 0

def bcd (raw mask : UInt8) : Int := (raw &&& 0xf).toNat + 10 * ((raw >>> 4) &&& mask).toNat

/-- `recDate` as it is filled in from the packs. -/
def recDate (pack62 pack63 : Fin 5 → UInt8) : Tm where
  tmSec := bcd (pack63 2) 0x7
  tmMin := bcd (pack63 3) 0x7
  tmHour := bcd (pack63 4) 0x3
  tmMday := bcd (pack62 2) 0x3
  tmMon := bcd (pack62 3) 0x1 - 1
  tmYear := bcd (pack62 4) 0xf + if bcd (pack62 4) 0xf < 50 then 100 else 0
  tmWday := -1
  tmYday := -1
  tmIsdst := -1

def getDVRecordingTime (mktime : Tm → Int32) (buf : List UInt8) : Int32 :=
  if buf.length ≠ 144000 ∧ buf.length ≠ 120000 then -1
  else
    match getSSYBPack buf 0x62 with
    | none => -1
    | some pack62 =>
      match getSSYBPack buf 0x63 with
      | none => -1
      | some pack63 =>
        let year := bcd (pack62 4) 0xf
        let year := if year < 50 then year + 2000 else year + 1900
        mktime {
          tmSec := bcd (pack63 2) 0x7
          tmMin := bcd (pack63 3) 0x7
          tmHour := bcd (pack63 4) 0x3
          tmMday := bcd (pack62 2) 0x3
          tmMon := bcd (pack62 3) 0x1 - 1
          tmYear := year - 1900
          tmWday := -1
          tmYday := -1
          tmIsdst := -1 }

variable {data : List UInt8}

theorem getSSYBPack_of_zeros (n : Nat) {packNum : UInt8} (h : packNum ≠ 0) :
    getSSYBPack (List.replicate n 0) packNum = none := by
  have hzero (o : Nat) : (List.replicate n (0 : UInt8)).getD o 0 = 0 := by
    rw [List.getD_eq_getElem?_getD, List.getElem?_replicate]
    split <;> rfl
  have hnone (m : Nat) : (packOffsets m).find?
      (fun o => (List.replicate n (0 : UInt8)).getD o 0 = packNum) = none :=
    List.find?_eq_none.mpr fun o _ => by
      rw [hzero]
      simpa using h.symm
  simp only [getSSYBPack, hnone, Option.map_none]

/-- A tape that was never recorded on has no time. -/
theorem getDVRecordingTime_of_zeros (mktime : Tm → Int32) (n : Nat) :
    getDVRecordingTime mktime (List.replicate n 0) = -1 := by
  rw [getDVRecordingTime, getSSYBPack_of_zeros n (by decide)]
  split <;> rfl

/-- `mktime` where the clock shows universal time all the year. -/
def mktimeUTC (tm : Tm) : Int32 :=
  let year := tm.tmYear + 1900 + tm.tmMon / 12
  let mon := tm.tmMon % 12
  -- years begin in March, so that the leap day is the last of its year
  let year := if mon ≤ 1 then year - 1 else year
  let days := year * 365 + year / 4 - year / 100 + year / 400 + (153 * ((mon + 10) % 12) + 2) / 5 +
    tm.tmMday - 1 - 719468
  Int32.ofInt (((days * 24 + tm.tmHour) * 60 + tm.tmMin) * 60 + tm.tmSec)

/-- A frame of 120000 bytes that was recorded on 1 January 2003 at noon. -/
def noonFrame : List UInt8 :=
  List.replicate 86 0 ++ [0x62, 0, 0x01, 0x01, 0x03, 0, 0, 0, 0x63, 0, 0, 0, 0x12] ++
    List.replicate 119901 0

theorem noonFrame_length : noonFrame.length = 120000 := by
  rw [noonFrame, List.length_append, List.length_replicate]
  rfl

theorem noonFrame_getD {i : Nat} (h : i < 99) : noonFrame.getD i 0 = (noonFrame.take 99).getD i 0 := by
  rw [List.getD_eq_getElem?_getD, List.getD_eq_getElem?_getD, List.getElem?_take_of_lt h]

theorem noonFrame_take : noonFrame.take 99 =
    List.replicate 86 0 ++ [0x62, 0, 0x01, 0x01, 0x03, 0, 0, 0, 0x63, 0, 0, 0, 0x12] :=
  List.take_left' rfl

theorem noonFrame_pack (packNum : UInt8) (o : Nat) (ho : o + 5 ≤ 99)
    (h : (packOffsets 10).find? (fun o => noonFrame.getD o 0 = packNum) = some o) :
    getSSYBPack noonFrame packNum = some fun n : Fin 5 => (noonFrame.take 99).getD (o + n) 0 := by
  have hseq : ¬ noonFrame.length ≥ 144000 := by
    rw [noonFrame_length]
    decide
  simp only [getSSYBPack, if_neg hseq, h, Option.map_some, Option.some.injEq]
  funext n
  exact noonFrame_getD (by omega)

theorem noonFrame_time : getDVRecordingTime mktimeUTC noonFrame = 1041422400 := by
  have hoffsets : packOffsets 10 = 86 :: 94 :: (packOffsets 10).drop 2 := rfl
  have hdateId : noonFrame.getD 86 0 = 0x62 := by
    rw [noonFrame_getD (by decide), noonFrame_take]
    rfl
  have htimeId : noonFrame.getD 94 0 = 0x63 := by
    rw [noonFrame_getD (by decide), noonFrame_take]
    rfl
  have hdate := noonFrame_pack 0x62 86 (by decide) (by
    rw [hoffsets, List.find?_cons_of_pos (by rw [hdateId]; decide)])
  have htime := noonFrame_pack 0x63 94 (by decide) (by
    rw [hoffsets, List.find?_cons_of_neg (by rw [hdateId]; decide),
      List.find?_cons_of_pos (by rw [htimeId]; decide)])
  rw [getDVRecordingTime, noonFrame_length, if_neg (by decide), hdate, htime, noonFrame_take]
  rfl

end WinDV
