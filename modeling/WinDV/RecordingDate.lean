import WinDV.DVTime
import Mathlib.Data.List.GetD
import Mathlib.Tactic.Basic

/-! Which dates and times `GetDVRecordingTime` reads. Nothing is checked of the
digits: what is no date or no time is left to `mktime` to make one of. -/

namespace WinDV

def leapYear (year : Nat) : Bool := year % 4 == 0 && (year % 100 != 0 || year % 400 == 0)

def daysInMonth (year month : Nat) : Nat :=
  if month = 2 then (if leapYear year then 29 else 28)
  else if month = 4 ∨ month = 6 ∨ month = 9 ∨ month = 11 then 30
  else 31

/-- A date of the calendar and a time of day. -/
structure CalendarTime where
  year : Nat
  month : Nat
  day : Nat
  hour : Nat
  minute : Nat
  second : Nat
  month_mem : 1 ≤ month ∧ month ≤ 12
  day_mem : 1 ≤ day ∧ day ≤ daysInMonth year month
  hour_lt : hour < 24
  minute_lt : minute < 60
  second_lt : second < 60

/-- The argument of `mktime` for it. -/
def CalendarTime.tm (c : CalendarTime) : Tm where
  tmSec := c.second
  tmMin := c.minute
  tmHour := c.hour
  tmMday := c.day
  tmMon := c.month - 1
  tmYear := c.year - 1900
  tmWday := -1
  tmYday := -1
  tmIsdst := -1

/-- Two decimal digits in one byte. -/
def digits (b : UInt8) : Option Nat :=
  if b >>> 4 ≤ 9 ∧ b &&& 0xf ≤ 9 then some (10 * (b >>> 4).toNat + (b &&& 0xf).toNat) else none

/-- Without the flag bits the packs hold the digits of the date and of the time. -/
structure Shows (pack62 pack63 : Fin 5 → UInt8) (c : CalendarTime) : Prop where
  day : digits (pack62 2 &&& 0x3f) = some c.day
  month : digits (pack62 3 &&& 0x1f) = some c.month
  year : digits (pack62 4 &&& 0xff) = some (c.year % 100)
  century : 1950 ≤ c.year ∧ c.year ≤ 2049
  second : digits (pack63 2 &&& 0x7f) = some c.second
  minute : digits (pack63 3 &&& 0x7f) = some c.minute
  hour : digits (pack63 4 &&& 0x3f) = some c.hour

/-- A `time_t` that an int holds. -/
def FitsInt (t : Int) : Prop := -2147483648 ≤ t ∧ t < 2147483648

def seqCount (buf : List UInt8) : Nat := if buf.length ≥ 144000 then 12 else 10

/-- Where the pack of the `n`th packet in scan order begins. -/
def packetOffset (n : Nat) : Nat := packOffset (n / 12) (n / 6 % 2) (n % 6)

def packAt (buf : List UInt8) (n : Nat) : Fin 5 → UInt8 := fun i => buf.getD (packetOffset n + i) 0

structure FirstPacket (buf : List UInt8) (packNum : UInt8) (n : Nat) : Prop where
  lt : n < 12 * seqCount buf
  found : buf.getD (packetOffset n) 0 = packNum
  first : ∀ m < n, buf.getD (packetOffset m) 0 ≠ packNum

theorem packOffsets_eq (seqCount : Nat) :
    packOffsets seqCount = (List.range (12 * seqCount)).map packetOffset := by
  induction seqCount with
  | zero => rfl
  | succ i ih =>
    have hblock : ((List.range 2).flatMap fun j => (List.range 6).map fun k => packOffset i j k) =
        (List.range 12).map fun m => packOffset i (m / 6) (m % 6) := rfl
    rw [packOffsets, List.range_succ (n := i), List.flatMap_append, List.flatMap_singleton, hblock,
      ← packOffsets, ih, Nat.mul_succ, List.range_add, List.map_append, List.map_map]
    refine congrArg (_ ++ ·) (List.map_congr_left fun m hm => ?_)
    have hlt := List.mem_range.mp hm
    have hseq : (12 * i + m) / 12 = i := by omega
    have hblk : (12 * i + m) / 6 % 2 = m / 6 := by omega
    have hpkt : (12 * i + m) % 6 = m % 6 := by omega
    rw [Function.comp_apply, packetOffset, hseq, hblk, hpkt]

theorem getSSYBPack_eq (buf : List UInt8) (packNum : UInt8) :
    getSSYBPack buf packNum = ((List.range (12 * seqCount buf)).find? fun n =>
      buf.getD (packetOffset n) 0 = packNum).map (packAt buf) := by
  rw [getSSYBPack, ← seqCount, packOffsets_eq, List.find?_map, Option.map_map]
  rfl

theorem getSSYBPack_of_firstPacket {buf : List UInt8} {packNum : UInt8} {n : Nat}
    (h : FirstPacket buf packNum n) : getSSYBPack buf packNum = some (packAt buf n) := by
  have hfind : ((List.range (12 * seqCount buf)).find? fun n =>
      buf.getD (packetOffset n) 0 = packNum) = some n := by
    rw [List.find?_range_eq_some]
    refine ⟨decide_eq_true h.found, List.mem_range.mpr h.lt, fun m hm => ?_⟩
    rw [Bool.not_eq_true', decide_eq_false_iff_not]
    exact h.first m hm
  rw [getSSYBPack_eq, hfind]
  rfl

theorem getSSYBPack_of_no_packet {buf : List UInt8} {packNum : UInt8}
    (h : ∀ n, ¬ FirstPacket buf packNum n) : getSSYBPack buf packNum = none := by
  have hfind : ((List.range (12 * seqCount buf)).find? fun n =>
      buf.getD (packetOffset n) 0 = packNum) = none := by
    cases hfind : (List.range (12 * seqCount buf)).find? fun n =>
        buf.getD (packetOffset n) 0 = packNum with
    | none => rfl
    | some n =>
      rw [List.find?_range_eq_some] at hfind
      obtain ⟨hfound, hlt, hfirst⟩ := hfind
      refine absurd ⟨List.mem_range.mp hlt, of_decide_eq_true hfound, fun m hm => ?_⟩ (h n)
      simpa using hfirst m hm
  rw [getSSYBPack_eq, hfind]
  rfl

/-- `flags` and `mask` leave the same bits of the tens. -/
theorem bcd_of_digits {raw flags mask : UInt8} {n : Nat} (hunits : flags &&& 0xf = 0xf)
    (htens : flags >>> 4 = mask) (h : digits (raw &&& flags) = some n) : bcd raw mask = n := by
  rw [digits, UInt8.and_assoc, hunits, UInt8.shiftRight_and, htens] at h
  by_cases hvalid : (raw >>> 4) &&& mask ≤ 9 ∧ raw &&& 0xf ≤ 9
  · rw [if_pos hvalid] at h
    rw [← Option.some.inj h, bcd]
    push_cast
    omega
  · rw [if_neg hvalid] at h
    cases h

theorem recDate_of_shows {pack62 pack63 : Fin 5 → UInt8} {c : CalendarTime}
    (h : Shows pack62 pack63 c) : recDate pack62 pack63 = c.tm := by
  have hyear : bcd (pack62 4) 0xf = (c.year % 100 : Nat) := bcd_of_digits rfl rfl h.year
  have hcentury : (bcd (pack62 4) 0xf + if bcd (pack62 4) 0xf < 50 then 100 else 0) =
      (c.year : Int) - 1900 := by
    have hbounds := h.century
    rw [hyear]
    split <;> omega
  have hday : bcd (pack62 2) 0x3 = c.day := bcd_of_digits rfl rfl h.day
  have hmonth : bcd (pack62 3) 0x1 = c.month := bcd_of_digits rfl rfl h.month
  have hsecond : bcd (pack63 2) 0x7 = c.second := bcd_of_digits rfl rfl h.second
  have hminute : bcd (pack63 3) 0x7 = c.minute := bcd_of_digits rfl rfl h.minute
  have hhour : bcd (pack63 4) 0x3 = c.hour := bcd_of_digits rfl rfl h.hour
  simp only [recDate, CalendarTime.tm, hcentury, hday, hmonth, hsecond, hminute, hhour]

theorem getDVRecordingTime_of_packs {mktime : Tm → Int32} {buf : List UInt8} {m n : Nat}
    (hlen : buf.length = 120000 ∨ buf.length = 144000) (hdate : FirstPacket buf 0x62 m)
    (htime : FirstPacket buf 0x63 n) :
    getDVRecordingTime mktime buf = mktime (recDate (packAt buf m) (packAt buf n)) := by
  have hframe : ¬ (buf.length ≠ 144000 ∧ buf.length ≠ 120000) := by omega
  have hpivot (y : Int) : (if y < 50 then y + 2000 else y + 1900) - 1900 =
      y + if y < 50 then 100 else 0 := by
    split <;> omega
  simp only [getDVRecordingTime, if_neg hframe, getSSYBPack_of_firstPacket hdate,
    getSSYBPack_of_firstPacket htime, hpivot]
  rfl

theorem getDVRecordingTime_of_no_packs {mktime : Tm → Int32} {buf : List UInt8}
    (h : (∀ n, ¬ FirstPacket buf 0x62 n) ∨ ∀ n, ¬ FirstPacket buf 0x63 n) :
    getDVRecordingTime mktime buf = -1 := by
  unfold getDVRecordingTime
  by_cases hframe : buf.length ≠ 144000 ∧ buf.length ≠ 120000
  · rw [if_pos hframe]
  · rw [if_neg hframe]
    obtain hnone | hnone := h
    · rw [getSSYBPack_of_no_packet hnone]
    · rw [getSSYBPack_of_no_packet hnone]
      cases getSSYBPack buf 0x62 <;> rfl

/-- What a frame shows as a date and time is what `mktime` gets, and its result is
the time where an int holds it; a frame of another size or without a pack has no
time. The digits of any other packs go to `mktime` as they are. -/
theorem recording_time_of_packs (mktime : Tm → Int) (buf : List UInt8) :
    let time := getDVRecordingTime (fun tm => Int32.ofInt (mktime tm)) buf
    (buf.length ≠ 120000 ∧ buf.length ≠ 144000 → time = -1) ∧
    ((∀ n, ¬ FirstPacket buf 0x62 n) ∨ (∀ n, ¬ FirstPacket buf 0x63 n) → time = -1) ∧
    ∀ m n, buf.length = 120000 ∨ buf.length = 144000 → FirstPacket buf 0x62 m →
      FirstPacket buf 0x63 n →
      FitsInt (mktime (recDate (packAt buf m) (packAt buf n))) →
      time.toInt = mktime (recDate (packAt buf m) (packAt buf n)) ∧
      ∀ c, Shows (packAt buf m) (packAt buf n) c → time.toInt = mktime c.tm := by
  refine ⟨fun hlen => ?_, getDVRecordingTime_of_no_packs, fun m n hlen hdate htime hfits => ?_⟩
  · exact if_pos hlen.symm
  · have heq := congrArg Int32.toInt
      (@getDVRecordingTime_of_packs (fun tm => Int32.ofInt (mktime tm)) buf m n hlen hdate htime)
    rw [Int32.toInt_ofInt_of_le hfits.1 hfits.2] at heq
    exact ⟨heq, fun c hc => by rw [heq, recDate_of_shows hc]⟩

/-- A frame of 120000 bytes with its first two packs, where the second begins
eight bytes behind the first. -/
def subcodeFrame (packs : List UInt8) : List UInt8 :=
  List.replicate 86 0 ++ packs ++ List.replicate 119901 0

theorem subcodeFrame_length {packs : List UInt8} (h : packs.length = 13) :
    (subcodeFrame packs).length = 120000 := by
  rw [subcodeFrame, List.length_append, List.length_append, List.length_replicate,
    List.length_replicate, h]

theorem subcodeFrame_getD {packs : List UInt8} {i : Nat} (h : i < packs.length) :
    (subcodeFrame packs).getD (86 + i) 0 = packs.getD i 0 := by
  have hlen : (List.replicate 86 (0 : UInt8)).length = 86 := List.length_replicate
  rw [subcodeFrame, List.getD_append _ _ _ _ (by rw [List.length_append, hlen]; omega),
    List.getD_append_right _ _ _ _ (by rw [hlen]; omega), hlen, Nat.add_sub_cancel_left]

theorem packetOffset_zero : packetOffset 0 = 86 + 0 := rfl

theorem packetOffset_one : packetOffset 1 = 86 + 8 := rfl

theorem subcodeFrame_packets {packs : List UInt8} (h : packs.length = 13)
    (hdate : packs.getD 0 0 = 0x62) (htime : packs.getD 8 0 = 0x63) :
    FirstPacket (subcodeFrame packs) 0x62 0 ∧ FirstPacket (subcodeFrame packs) 0x63 1 := by
  have hzero : (subcodeFrame packs).getD (packetOffset 0) 0 = 0x62 := by
    rw [packetOffset_zero, subcodeFrame_getD (by omega), hdate]
  have hone : (subcodeFrame packs).getD (packetOffset 1) 0 = 0x63 := by
    rw [packetOffset_one, subcodeFrame_getD (by omega), htime]
  have hcount : seqCount (subcodeFrame packs) = 10 := by
    rw [seqCount, subcodeFrame_length h]
    rfl
  refine ⟨⟨by omega, hzero, nofun⟩, ⟨by omega, hone, fun m hm => ?_⟩⟩
  obtain rfl : m = 0 := by omega
  rw [hzero]
  decide

theorem subcodeFrame_packAt {packs : List UInt8} (h : packs.length = 13) :
    packAt (subcodeFrame packs) 0 = (fun i : Fin 5 => packs.getD i 0) ∧
      packAt (subcodeFrame packs) 1 = fun i : Fin 5 => packs.getD (8 + i) 0 := by
  refine ⟨funext fun i => ?_, funext fun i => ?_⟩
  · rw [packAt, packetOffset_zero, Nat.add_assoc, subcodeFrame_getD (by omega), Nat.zero_add]
  · rw [packAt, packetOffset_one, Nat.add_assoc, subcodeFrame_getD (by omega)]

def dropoutPacks : List UInt8 := [0x62, 255, 255, 255, 0x03, 255, 255, 255, 0x63, 255, 255, 255, 255]

/-- A dropout has left nothing of both packs but the year; the time is one of the year 2005. -/
theorem dropoutPacks_accepted :
    FirstPacket (subcodeFrame dropoutPacks) 0x62 0 ∧ FirstPacket (subcodeFrame dropoutPacks) 0x63 1 ∧
      (∀ c, ¬ Shows (packAt (subcodeFrame dropoutPacks) 0) (packAt (subcodeFrame dropoutPacks) 1) c) ∧
      getDVRecordingTime mktimeUTC (subcodeFrame dropoutPacks) = 1108506385 ∧
      getDVRecordingTime mktimeUTC (subcodeFrame dropoutPacks) ≠ -1 := by
  obtain ⟨hdate, htime⟩ := @subcodeFrame_packets dropoutPacks rfl rfl rfl
  obtain ⟨hzero, hone⟩ := @subcodeFrame_packAt dropoutPacks rfl
  have hresult : getDVRecordingTime mktimeUTC (subcodeFrame dropoutPacks) = 1108506385 := by
    rw [getDVRecordingTime_of_packs (.inl (subcodeFrame_length rfl)) hdate htime, hzero, hone]
    decide
  refine ⟨hdate, htime, fun c hc => ?_, hresult, by rw [hresult]; decide⟩
  have hday := hc.day
  rw [hzero] at hday
  cases hday

def noon : CalendarTime where
  year := 2003
  month := 1
  day := 1
  hour := 12
  minute := 0
  second := 0
  month_mem := by decide
  day_mem := by decide
  hour_lt := by decide
  minute_lt := by decide
  second_lt := by decide

def noonPacks : List UInt8 := [0x62, 0, 0x01, 0x01, 0x03, 0, 0, 0, 0x63, 0, 0, 0, 0x12]

theorem noonPacks_time :
    (getDVRecordingTime (fun tm => Int32.ofInt (mktimeUTC tm).toInt) (subcodeFrame noonPacks)).toInt =
      1041422400 := by
  obtain ⟨hdate, htime⟩ := @subcodeFrame_packets noonPacks rfl rfl rfl
  obtain ⟨hzero, hone⟩ := @subcodeFrame_packAt noonPacks rfl
  have hshows : Shows (packAt (subcodeFrame noonPacks) 0) (packAt (subcodeFrame noonPacks) 1) noon := by
    rw [hzero, hone]
    exact ⟨rfl, rfl, rfl, by decide, rfl, rfl, rfl⟩
  have hcases := recording_time_of_packs (fun tm => (mktimeUTC tm).toInt) (subcodeFrame noonPacks)
  have hnoon : (mktimeUTC noon.tm).toInt = 1041422400 := by decide
  have hfits : FitsInt (mktimeUTC noon.tm).toInt := by
    rw [hnoon]
    exact ⟨by decide, by decide⟩
  rw [← recDate_of_shows hshows] at hfits
  exact ((hcases.2.2 0 1 (.inl (subcodeFrame_length rfl)) hdate htime hfits).2 noon hshows).trans hnoon

end WinDV
