import WinDV.CaptureLoop
import Mathlib.Data.List.Basic
import Mathlib.Tactic.Basic

/-! The recording times that the capture loop keeps, against the times of all
frames it took: invalid times, which are not positive, are passed over. -/

namespace WinDV

def recordingTimes (env : CaptureEnv) (ds : List DequeuedFrame) : List Int32 :=
  ds.map fun d => env.getDVRecordingTime d.frame.data

def validTimes (env : CaptureEnv) (ds : List DequeuedFrame) : List Int32 :=
  (recordingTimes env ds).filter fun x => 0 < x

theorem recordingTimes_concat (env : CaptureEnv) (ds : List DequeuedFrame) (d : DequeuedFrame) :
    recordingTimes env (ds ++ [d]) =
      recordingTimes env ds ++ [env.getDVRecordingTime d.frame.data] := by
  rw [recordingTimes, List.map_append, List.map_singleton]
  rfl

theorem validTimes_concat_pos (env : CaptureEnv) (ds : List DequeuedFrame) {d : DequeuedFrame}
    (h : 0 < env.getDVRecordingTime d.frame.data) :
    validTimes env (ds ++ [d]) = validTimes env ds ++ [env.getDVRecordingTime d.frame.data] := by
  rw [validTimes, recordingTimes_concat, List.filter_append]
  congr 1
  simp [h]

theorem validTimes_concat_neg (env : CaptureEnv) (ds : List DequeuedFrame) {d : DequeuedFrame}
    (h : ¬ 0 < env.getDVRecordingTime d.frame.data) :
    validTimes env (ds ++ [d]) = validTimes env ds := by
  rw [validTimes, recordingTimes_concat, List.filter_append]
  simp [h, validTimes]

theorem pos_of_mem_validTimes {env : CaptureEnv} {ds : List DequeuedFrame} {x : Int32}
    (h : x ∈ validTimes env ds) : 0 < x := by
  simpa using (List.mem_filter.mp h).2

theorem validTimes_getLast {env : CaptureEnv} {ds : List DequeuedFrame} {x : Int32} (hx : 0 < x)
    (h : (recordingTimes env ds).getLast?.getD 0 = x) :
    (validTimes env ds).getLast? = some x := by
  rcases List.eq_nil_or_concat' ds with rfl | ⟨ds, d, rfl⟩
  · have hzero : (0 : Int32) = x := h
    rw [← hzero] at hx
    exact absurd hx (by decide)
  · rw [recordingTimes_concat, List.getLast?_concat] at h
    have hpos : 0 < env.getDVRecordingTime d.frame.data := by
      rw [show env.getDVRecordingTime d.frame.data = x from h]
      exact hx
    rw [validTimes_concat_pos env ds hpos, List.getLast?_concat]
    exact congrArg some h

/-- The times in the thread are those of the frames it took. -/
structure TimesNoted (env : CaptureEnv) (t : CapturingThread) : Prop where
  dvTime : t.dvTime = (recordingTimes env t.dequeued).getLast?.getD 0
  oldDVTime : t.oldDVTime = (validTimes env t.dequeued).getLast?.getD 0
  first : t.capStats.tFirstRecTime = (validTimes env t.dequeued).head?.getD 0
  last : t.capStats.tLastRecTime = (validTimes env t.dequeued).getLast?.getD 0

theorem head?_concat_getD (l : List Int32) (hl : ∀ x ∈ l, 0 < x) (x : Int32) :
    (l ++ [x]).head?.getD 0 = if l.head?.getD 0 = 0 then x else l.head?.getD 0 := by
  cases l with
  | nil => rfl
  | cons y l =>
    have hy : y ≠ 0 := by
      rintro rfl
      exact absurd (hl 0 List.mem_cons_self) (by decide)
    exact (if_neg hy).symm

section Taken

variable {env : CaptureEnv} {t : CapturingThread} {f : Frame} (drops : Int32)

theorem taken_same (h : t.dvTime = env.getDVRecordingTime f.data) :
    t.taken env f drops = { t with
      deltaDVTime := 0
      driverDropped := drops
      dequeued := t.dequeued ++ [t.dequeue f drops] } := by
  simp only [CapturingThread.taken, CapturingThread.noteDVTime, h, ne_eq, not_true_eq_false,
    if_false]

theorem taken_valid (h : t.dvTime ≠ env.getDVRecordingTime f.data)
    (hpos : 0 < env.getDVRecordingTime f.data) :
    t.taken env f drops = { t with
      deltaDVTime := if t.oldDVTime > 0 then
          (if env.getDVRecordingTime f.data - t.oldDVTime < 0 then
            -(env.getDVRecordingTime f.data - t.oldDVTime)
          else env.getDVRecordingTime f.data - t.oldDVTime)
        else 0
      oldDVTime := env.getDVRecordingTime f.data
      dvTime := env.getDVRecordingTime f.data
      capStats.tFirstRecTime := if t.capStats.tFirstRecTime = 0 then env.getDVRecordingTime f.data
        else t.capStats.tFirstRecTime
      capStats.tLastRecTime := env.getDVRecordingTime f.data
      driverDropped := drops
      dequeued := t.dequeued ++ [t.dequeue f drops] } := by
  simp only [CapturingThread.taken, CapturingThread.noteDVTime, ne_eq, h, not_false_eq_true,
    if_true, gt_iff_lt, hpos]

theorem taken_invalid (h : t.dvTime ≠ env.getDVRecordingTime f.data)
    (hpos : ¬ 0 < env.getDVRecordingTime f.data) :
    t.taken env f drops = { t with
      deltaDVTime := 0
      dvTime := env.getDVRecordingTime f.data
      driverDropped := drops
      dequeued := t.dequeued ++ [t.dequeue f drops] } := by
  simp only [CapturingThread.taken, CapturingThread.noteDVTime, ne_eq, h, not_false_eq_true,
    if_true, gt_iff_lt, hpos, if_false]

theorem taken_eq (env : CaptureEnv) (t : CapturingThread) (f : Frame) (drops : Int32) :
    ∃ deltaDVTime oldDVTime dvTime first last, t.taken env f drops = { t with
      deltaDVTime := deltaDVTime
      oldDVTime := oldDVTime
      dvTime := dvTime
      capStats.tFirstRecTime := first
      capStats.tLastRecTime := last
      driverDropped := drops
      dequeued := t.dequeued ++ [t.dequeue f drops] } := by
  obtain ⟨deltaDVTime, oldDVTime, dvTime, first, last, heq⟩ := t.noteDVTime_eq env f
  refine ⟨deltaDVTime, oldDVTime, dvTime, first, last, ?_⟩
  rw [CapturingThread.taken, heq]

end Taken

theorem TimesNoted.taken {env : CaptureEnv} {t : CapturingThread} (h : TimesNoted env t) (f : Frame)
    (drops : Int32) : TimesNoted env (t.taken env f drops) := by
  have hlast : (recordingTimes env (t.dequeued ++ [t.dequeue f drops])).getLast?.getD 0 =
      env.getDVRecordingTime f.data := by
    rw [recordingTimes_concat, List.getLast?_concat]
    rfl
  by_cases hpos : 0 < env.getDVRecordingTime f.data
  · have hvalid := validTimes_concat_pos env t.dequeued (d := t.dequeue f drops) hpos
    have hgetLast : (validTimes env (t.dequeued ++ [t.dequeue f drops])).getLast?.getD 0 =
        env.getDVRecordingTime f.data := by
      rw [hvalid, List.getLast?_concat]
      rfl
    have hhead : (validTimes env (t.dequeued ++ [t.dequeue f drops])).head?.getD 0 =
        if t.capStats.tFirstRecTime = 0 then env.getDVRecordingTime f.data
        else t.capStats.tFirstRecTime := by
      rw [hvalid, head?_concat_getD _ (fun x hx => pos_of_mem_validTimes hx), h.first]
      rfl
    by_cases hsame : t.dvTime = env.getDVRecordingTime f.data
    · have hold := validTimes_getLast hpos (h.dvTime.symm.trans hsame)
      have hne : t.capStats.tFirstRecTime ≠ 0 := by
        rw [h.first]
        cases hv : validTimes env t.dequeued with
        | nil =>
          rw [hv] at hold
          cases hold
        | cons y l =>
          have hy := pos_of_mem_validTimes (hv ▸ List.mem_cons_self : y ∈ validTimes env t.dequeued)
          rintro rfl
          exact absurd hy (by decide)
      rw [taken_same drops hsame]
      refine ⟨hsame.trans hlast.symm, ?_, ?_, ?_⟩
      · rw [h.oldDVTime, hold, hgetLast]
        rfl
      · rw [hhead, if_neg hne]
      · rw [h.last, hold, hgetLast]
        rfl
    · rw [taken_valid drops hsame hpos]
      exact ⟨hlast.symm, hgetLast.symm, hhead.symm, hgetLast.symm⟩
  · have hvalid := validTimes_concat_neg env t.dequeued (d := t.dequeue f drops) hpos
    by_cases hsame : t.dvTime = env.getDVRecordingTime f.data
    · rw [taken_same drops hsame]
      refine ⟨hsame.trans hlast.symm, ?_, ?_, ?_⟩
      · rw [hvalid, h.oldDVTime]
      · rw [hvalid, h.first]
      · rw [hvalid, h.last]
    · rw [taken_invalid drops hsame hpos]
      refine ⟨hlast.symm, ?_, ?_, ?_⟩
      · rw [hvalid, h.oldDVTime]
      · rw [hvalid, h.first]
      · rw [hvalid, h.last]

/-- The valid time of `f` differs from the valid time before it by more than
the threshold. -/
def Discontinuous (env : CaptureEnv) (before : List DequeuedFrame) (f : Frame) : Prop :=
  ∃ p, (validTimes env before).getLast? = some p ∧ 0 < env.getDVRecordingTime f.data ∧
    env.discontinuityTreshold.toNat <
      ((env.getDVRecordingTime f.data).toInt - p.toInt).natAbs

theorem toInt_sub_of_pos {x y : Int32} (hx : 0 < x) (hy : 0 < y) :
    (x - y).toInt = x.toInt - y.toInt := by
  have hx' : 0 < x.toInt := Int32.lt_iff_toInt_lt.mp hx
  have hy' : 0 < y.toInt := Int32.lt_iff_toInt_lt.mp hy
  have hxl := x.toInt_lt
  have hyl := y.toInt_lt
  rw [Int32.toInt_sub]
  exact Int.bmod_eq_of_le (by omega) (by omega)

theorem toUInt32_ofNat_toNat (n : Nat) : (Int32.ofNat n).toUInt32.toNat = n % 2 ^ 32 := by
  show (UInt32.ofNat n).toNat = _
  exact UInt32.toNat_ofNat'

theorem abs_delta {x y : Int32} (hx : 0 < x) (hy : 0 < y) :
    (if x - y < 0 then -(x - y) else x - y).toUInt32.toNat = (x.toInt - y.toInt).natAbs := by
  have hsub := toInt_sub_of_pos hx hy
  have hx' : 0 < x.toInt := Int32.lt_iff_toInt_lt.mp hx
  have hy' : 0 < y.toInt := Int32.lt_iff_toInt_lt.mp hy
  have hxl := x.toInt_lt
  have hyl := y.toInt_lt
  by_cases hneg : x - y < 0
  · have hlt : (x - y).toInt < 0 := Int32.lt_iff_toInt_lt.mp hneg
    have hnegInt : (-(x - y)).toInt = -(x.toInt - y.toInt) := by
      rw [Int32.toInt_neg, hsub]
      exact Int.bmod_eq_of_le (by omega) (by omega)
    have hnonneg : 0 ≤ -(x - y) := by
      rw [Int32.le_iff_toInt_le, hnegInt]
      show 0 ≤ _
      omega
    rw [if_pos hneg, Int32.toNat_toUInt32_of_le hnonneg, Int32.toNatClampNeg, hnegInt]
    omega
  · have hnonneg : 0 ≤ x - y := Int32.not_lt.mp hneg
    have hge : 0 ≤ (x - y).toInt := Int32.le_iff_toInt_le.mp hnonneg
    rw [if_neg hneg, Int32.toNat_toUInt32_of_le hnonneg, Int32.toNatClampNeg, hsub]
    omega
/-- The distance that the loop computes exceeds the threshold exactly at a
discontinuity. -/
theorem TimesNoted.delta {env : CaptureEnv} {t : CapturingThread} (h : TimesNoted env t) (f : Frame)
    (drops : Int32) :
    (t.taken env f drops).deltaDVTime.toUInt32 > env.discontinuityTreshold ↔
      Discontinuous env t.dequeued f := by
  have hzero : ¬ (0 : Int32).toUInt32 > env.discontinuityTreshold := by
    intro hlt
    exact absurd (UInt32.lt_iff_toNat_lt.mp hlt) (Nat.not_lt_zero _)
  by_cases hpos : 0 < env.getDVRecordingTime f.data
  · by_cases hsame : t.dvTime = env.getDVRecordingTime f.data
    · rw [taken_same drops hsame]
      refine ⟨fun hlt => absurd hlt hzero, ?_⟩
      rintro ⟨p, hp, -, hlt⟩
      have hx := validTimes_getLast hpos (h.dvTime.symm.trans hsame)
      obtain rfl := Option.some.inj (hp.symm.trans hx)
      rw [Int.sub_self] at hlt
      exact absurd hlt (Nat.not_lt_zero _)
    · rw [taken_valid drops hsame hpos]
      cases hlast : (validTimes env t.dequeued).getLast? with
      | none =>
        have hold : ¬ t.oldDVTime > 0 := by
          rw [h.oldDVTime, hlast]
          decide
        simp only [if_neg hold]
        refine ⟨fun hlt => absurd hlt hzero, ?_⟩
        rintro ⟨p, hp, -⟩
        rw [hlast] at hp
        cases hp
      | some p =>
        have hold : t.oldDVTime = p := by
          rw [h.oldDVTime, hlast]
          rfl
        have hp : 0 < p := pos_of_mem_validTimes (List.mem_of_getLast? hlast)
        simp only [hold, gt_iff_lt, if_pos hp]
        rw [UInt32.lt_iff_toNat_lt, abs_delta hpos hp]
        constructor
        · intro hlt
          exact ⟨p, hlast, hpos, hlt⟩
        · rintro ⟨q, hq, -, hlt⟩
          obtain rfl := Option.some.inj (hlast.symm.trans hq)
          exact hlt
  · have hno : ¬ Discontinuous env t.dequeued f := fun ⟨_, _, hx, _⟩ => hpos hx
    by_cases hsame : t.dvTime = env.getDVRecordingTime f.data
    · rw [taken_same drops hsame]
      exact ⟨fun hlt => absurd hlt hzero, fun hd => absurd hd hno⟩
    · rw [taken_invalid drops hsame hpos]
      exact ⟨fun hlt => absurd hlt hzero, fun hd => absurd hd hno⟩

end WinDV
