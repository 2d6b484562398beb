import WinDV.DVError
import Mathlib.Algebra.Order.Group.Nat

/-! `ResetErrorStats` and `AccumulateErrorStats`: the error counts of the frames
of a session taken together. -/

namespace WinDV

structure ErrorStats where
  dwTotalFrames : UInt32
  dwFramesWithVideoErrors : UInt32
  dwFramesWithAudioErrors : UInt32
  dwTotalVideoErrorBlocks : UInt32
  dwTotalAudioErrorBlocks : UInt32
  dwWorstFrameNumber : UInt32
  dwWorstFrameErrors : UInt32
  dwTotalSTA_F : UInt32
  dwVideoErrorsEven : UInt32
  dwVideoErrorsOdd : UInt32
  deriving DecidableEq, Repr

def resetErrorStats (_stats : ErrorStats) : ErrorStats := ⟨0, 0, 0, 0, 0, 0, 0, 0, 0, 0⟩

def accumulateErrorStats (stats : ErrorStats) (frame : FrameErrorInfo) (frameNumber : UInt32) :
    ErrorStats :=
  let stats := { stats with dwTotalFrames := stats.dwTotalFrames + 1 }
  let stats :=
    if frame.dwVideoErrorBlocks > 0 then
      { stats with dwFramesWithVideoErrors := stats.dwFramesWithVideoErrors + 1 }
    else stats
  let stats :=
    if frame.dwAudioErrorBlocks > 0 then
      { stats with dwFramesWithAudioErrors := stats.dwFramesWithAudioErrors + 1 }
    else stats
  let stats := { stats with
    dwTotalVideoErrorBlocks := stats.dwTotalVideoErrorBlocks + frame.dwVideoErrorBlocks
    dwTotalAudioErrorBlocks := stats.dwTotalAudioErrorBlocks + frame.dwAudioErrorBlocks
    dwTotalSTA_F := stats.dwTotalSTA_F + frame.dwVideoSTA_F
    dwVideoErrorsEven := stats.dwVideoErrorsEven + frame.dwVideoErrorsEven
    dwVideoErrorsOdd := stats.dwVideoErrorsOdd + frame.dwVideoErrorsOdd }
  if frame.dwVideoErrorBlocks > stats.dwWorstFrameErrors then
    { stats with dwWorstFrameErrors := frame.dwVideoErrorBlocks, dwWorstFrameNumber := frameNumber }
  else stats

/-- Frames numbered from 0 on, after a reset. -/
def sessionStats (stats : ErrorStats) (infos : List FrameErrorInfo) : ErrorStats :=
  infos.zipIdx.foldl (fun stats x => accumulateErrorStats stats x.1 (UInt32.ofNat x.2))
    (resetErrorStats stats)

def videoErrors (info : FrameErrorInfo) : Nat := info.dwVideoErrorBlocks.toNat

def audioErrors (info : FrameErrorInfo) : Nat := info.dwAudioErrorBlocks.toNat

def total (count : FrameErrorInfo → Nat) (infos : List FrameErrorInfo) : Nat := (infos.map count).sum

/-- Every statistic is what its name says of the frames. -/
structure ExactAggregates (infos : List FrameErrorInfo) (stats : ErrorStats) : Prop where
  frames : stats.dwTotalFrames.toNat = infos.length
  videoBlocks : stats.dwTotalVideoErrorBlocks.toNat = total videoErrors infos
  audioBlocks : stats.dwTotalAudioErrorBlocks.toNat = total audioErrors infos
  uncompensated : stats.dwTotalSTA_F.toNat = total (·.dwVideoSTA_F.toNat) infos
  even : stats.dwVideoErrorsEven.toNat = total (·.dwVideoErrorsEven.toNat) infos
  odd : stats.dwVideoErrorsOdd.toNat = total (·.dwVideoErrorsOdd.toNat) infos
  videoFrames : stats.dwFramesWithVideoErrors.toNat = infos.countP fun info => videoErrors info ≠ 0
  audioFrames : stats.dwFramesWithAudioErrors.toNat = infos.countP fun info => audioErrors info ≠ 0
  videoFrames_le : stats.dwFramesWithVideoErrors.toNat ≤ infos.length
  audioFrames_le : stats.dwFramesWithAudioErrors.toNat ≤ infos.length
  parity : stats.dwVideoErrorsEven.toNat + stats.dwVideoErrorsOdd.toNat =
    stats.dwTotalVideoErrorBlocks.toNat
  uncompensated_le : stats.dwTotalSTA_F.toNat ≤ stats.dwTotalVideoErrorBlocks.toNat
  worst : FirstMax videoErrors infos stats.dwWorstFrameErrors.toNat stats.dwWorstFrameNumber.toNat
  noErrors : (∀ info ∈ infos, videoErrors info = 0) → stats.dwWorstFrameNumber = 0

section Accumulation

variable (stats : ErrorStats) {infos : List FrameErrorInfo}

theorem accumulateErrorStats_eq (frame : FrameErrorInfo) (frameNumber : UInt32) :
    accumulateErrorStats stats frame frameNumber =
    { dwTotalFrames := stats.dwTotalFrames + 1
      dwFramesWithVideoErrors :=
        stats.dwFramesWithVideoErrors + if videoErrors frame ≠ 0 then 1 else 0
      dwFramesWithAudioErrors :=
        stats.dwFramesWithAudioErrors + if audioErrors frame ≠ 0 then 1 else 0
      dwTotalVideoErrorBlocks := stats.dwTotalVideoErrorBlocks + frame.dwVideoErrorBlocks
      dwTotalAudioErrorBlocks := stats.dwTotalAudioErrorBlocks + frame.dwAudioErrorBlocks
      dwWorstFrameNumber := if stats.dwWorstFrameErrors < frame.dwVideoErrorBlocks then frameNumber
        else stats.dwWorstFrameNumber
      dwWorstFrameErrors := if stats.dwWorstFrameErrors < frame.dwVideoErrorBlocks
        then frame.dwVideoErrorBlocks else stats.dwWorstFrameErrors
      dwTotalSTA_F := stats.dwTotalSTA_F + frame.dwVideoSTA_F
      dwVideoErrorsEven := stats.dwVideoErrorsEven + frame.dwVideoErrorsEven
      dwVideoErrorsOdd := stats.dwVideoErrorsOdd + frame.dwVideoErrorsOdd } := by
  have hpos (x : UInt32) : x > 0 ↔ x.toNat ≠ 0 := by
    rw [gt_iff_lt, UInt32.lt_iff_toNat_lt, UInt32.toNat_zero, Nat.pos_iff_ne_zero]
  simp only [accumulateErrorStats, hpos, gt_iff_lt]
  rw [videoErrors, audioErrors]
  by_cases hvideo : frame.dwVideoErrorBlocks.toNat ≠ 0
  · by_cases haudio : frame.dwAudioErrorBlocks.toNat ≠ 0
    · simp only [if_pos hvideo, if_pos haudio]
      split <;> rfl
    · simp only [if_pos hvideo, if_neg haudio, add_zero]
      split <;> rfl
  · by_cases haudio : frame.dwAudioErrorBlocks.toNat ≠ 0
    · simp only [if_neg hvideo, if_pos haudio, add_zero]
      split <;> rfl
    · simp only [if_neg hvideo, if_neg haudio, add_zero]
      split <;> rfl

/-- A statistic that every frame adds to is the sum over the frames, in words. -/
theorem sessionStats_sum (field : ErrorStats → UInt32) {weight : FrameErrorInfo → UInt32}
    (hreset : field (resetErrorStats stats) = 0) (hstep : ∀ stats info n,
      field (accumulateErrorStats stats info n) = field stats + weight info)
    (infos : List FrameErrorInfo) : field (sessionStats stats infos) = (infos.map weight).sum := by
  have hweights : infos.zipIdx.map (fun x => weight x.1) = infos.map weight := by
    rw [← List.zipIdx_map_fst 0 infos, List.map_map, List.zipIdx_map_fst]
    rfl
  have hfold : field (sessionStats stats infos) = field (resetErrorStats stats) +
      (infos.zipIdx.map fun x => weight x.1).sum :=
    foldl_eq_add_sum (fun stats x => hstep stats x.1 (UInt32.ofNat x.2)) _ _
  rw [hfold, hreset, zero_add, hweights]

theorem sessionStats_total (field : ErrorStats → UInt32) {weight : FrameErrorInfo → UInt32}
    (hreset : field (resetErrorStats stats) = 0) (hstep : ∀ stats info n,
      field (accumulateErrorStats stats info n) = field stats + weight info)
    (hlt : total (fun info => (weight info).toNat) infos < 2 ^ 32) :
    (field (sessionStats stats infos)).toNat = total (fun info => (weight info).toNat) infos := by
  have hmap : (infos.map weight).map UInt32.toNat = infos.map fun info => (weight info).toNat :=
    List.map_map
  rw [sessionStats_sum stats field hreset hstep, UInt32.toNat_sum, hmap, total]
  rw [hmap]
  exact hlt

theorem sessionStats_count (field : ErrorStats → UInt32) {p : FrameErrorInfo → Prop}
    [DecidablePred p] (hreset : field (resetErrorStats stats) = 0) (hstep : ∀ stats info n,
      field (accumulateErrorStats stats info n) = field stats + if p info then 1 else 0)
    (hlt : infos.length < 2 ^ 32) :
    (field (sessionStats stats infos)).toNat = infos.countP fun info => p info := by
  rw [sessionStats_sum stats field hreset hstep, UInt32.toNat_sum_ite hlt]

theorem sessionStats_concat (infos : List FrameErrorInfo) (info : FrameErrorInfo) :
    sessionStats stats (infos ++ [info]) =
      accumulateErrorStats (sessionStats stats infos) info (UInt32.ofNat infos.length) := by
  rw [sessionStats, sessionStats, List.zipIdx_append, List.foldl_append, Nat.zero_add,
    List.zipIdx_singleton, List.foldl_cons, List.foldl_nil]

theorem sessionStats_worst (infos : List FrameErrorInfo) (hlt : infos.length < 2 ^ 32) :
    FirstMax videoErrors infos (sessionStats stats infos).dwWorstFrameErrors.toNat
      (sessionStats stats infos).dwWorstFrameNumber.toNat := by
  induction infos using List.reverseRecOn with
  | nil => exact .nil _
  | append_singleton infos info ih =>
    rw [List.length_append, List.length_singleton] at hlt
    have hbefore := ih (Nat.lt_of_succ_lt hlt)
    rw [sessionStats_concat, accumulateErrorStats_eq]
    by_cases hworse : (sessionStats stats infos).dwWorstFrameErrors < info.dwVideoErrorBlocks
    · have hplace : (UInt32.ofNat infos.length).toNat = infos.length :=
        UInt32.toNat_ofNat_of_lt' (Nat.lt_of_succ_lt hlt)
      simp only [if_pos hworse, hplace]
      exact hbefore.concat_of_lt (UInt32.lt_iff_toNat_lt.mp hworse)
    · simp only [if_neg hworse]
      refine hbefore.concat_of_le ?_
      exact Nat.not_lt.mp fun hlt => hworse (UInt32.lt_iff_toNat_lt.mpr hlt)

end Accumulation

/-- What `AnalyzeDVFrame` sees to in every result. -/
structure Consistent (info : FrameErrorInfo) : Prop where
  parity : info.dwVideoErrorsEven.toNat + info.dwVideoErrorsOdd.toNat = videoErrors info
  uncompensated : info.dwVideoSTA_F.toNat ≤ videoErrors info

theorem analyzeDVFrame_consistent (data : List UInt8) : Consistent (analyzeDVFrame data) :=
  ⟨parity_eq data, uncompensated_le data⟩

theorem total_le {count count' : FrameErrorInfo → Nat} {infos : List FrameErrorInfo}
    (h : ∀ info ∈ infos, count info ≤ count' info) : total count infos ≤ total count' infos :=
  List.sum_le_sum h

theorem exactAggregates (stats : ErrorStats) {infos : List FrameErrorInfo}
    (hconsistent : ∀ info ∈ infos, Consistent info) (hframes : infos.length < 2 ^ 32)
    (hvideo : total videoErrors infos < 2 ^ 32) (haudio : total audioErrors infos < 2 ^ 32) :
    ExactAggregates infos (sessionStats stats infos) := by
  have hsta : total (·.dwVideoSTA_F.toNat) infos ≤ total videoErrors infos :=
    total_le fun info h => (hconsistent info h).uncompensated
  have hparity : total (·.dwVideoErrorsEven.toNat) infos + total (·.dwVideoErrorsOdd.toNat) infos =
      total videoErrors infos := by
    rw [total, total, ← List.sum_map_add, total]
    exact congrArg List.sum (List.map_congr_left fun info h => (hconsistent info h).parity)
  have hvideoTotal := sessionStats_total stats (·.dwTotalVideoErrorBlocks) rfl
    (fun stats info n => by rw [accumulateErrorStats_eq]) hvideo
  have hstaTotal := sessionStats_total stats (·.dwTotalSTA_F) rfl
    (fun stats info n => by rw [accumulateErrorStats_eq]) (hsta.trans_lt hvideo)
  have hevenTotal := sessionStats_total stats (·.dwVideoErrorsEven) rfl
    (fun stats info n => by rw [accumulateErrorStats_eq])
    ((Nat.le_add_right _ _).trans_lt (hparity.trans_lt hvideo))
  have hoddTotal := sessionStats_total stats (·.dwVideoErrorsOdd) rfl
    (fun stats info n => by rw [accumulateErrorStats_eq])
    ((Nat.le_add_left _ _).trans_lt (hparity.trans_lt hvideo))
  have hvideoFrames := sessionStats_count stats (·.dwFramesWithVideoErrors) rfl
    (fun stats info n => by rw [accumulateErrorStats_eq]) hframes
  have haudioFrames := sessionStats_count stats (·.dwFramesWithAudioErrors) rfl
    (fun stats info n => by rw [accumulateErrorStats_eq]) hframes
  have hworst := sessionStats_worst stats infos hframes
  exact {
    frames := by
      rw [sessionStats_count stats (·.dwTotalFrames) (p := fun _ => True) rfl
        (fun stats info n => by rw [accumulateErrorStats_eq, if_pos trivial]) hframes]
      exact List.countP_eq_length.mpr fun _ _ => rfl
    videoBlocks := hvideoTotal
    audioBlocks := sessionStats_total stats (·.dwTotalAudioErrorBlocks) rfl
      (fun stats info n => by rw [accumulateErrorStats_eq]) haudio
    uncompensated := hstaTotal
    even := hevenTotal
    odd := hoddTotal
    videoFrames := hvideoFrames
    audioFrames := haudioFrames
    videoFrames_le := hvideoFrames.trans_le List.countP_le_length
    audioFrames_le := haudioFrames.trans_le List.countP_le_length
    parity := by rw [hevenTotal, hoddTotal, hvideoTotal]; exact hparity
    uncompensated_le := by rw [hstaTotal, hvideoTotal]; exact hsta
    worst := hworst
    noErrors := fun hnone => UInt32.toNat_inj.mp (hworst.place_eq_zero hnone) }

/-- All statistics but the number of the worst frame. -/
def ErrorStats.unnumbered (stats : ErrorStats) : ErrorStats := { stats with dwWorstFrameNumber := 0 }

theorem sessionStats_perm (stats : ErrorStats) {infos infos' : List FrameErrorInfo}
    (hperm : infos.Perm infos') (hframes : infos.length < 2 ^ 32) :
    (sessionStats stats infos').unnumbered = (sessionStats stats infos).unnumbered := by
  have hsum (field : ErrorStats → UInt32) {weight : FrameErrorInfo → UInt32}
      (hreset : field (resetErrorStats stats) = 0) (hstep : ∀ stats info n,
        field (accumulateErrorStats stats info n) = field stats + weight info) :
      field (sessionStats stats infos') = field (sessionStats stats infos) := by
    rw [sessionStats_sum stats field hreset hstep, sessionStats_sum stats field hreset hstep]
    exact (hperm.map weight).sum_eq.symm
  have hworst : (sessionStats stats infos').dwWorstFrameErrors =
      (sessionStats stats infos).dwWorstFrameErrors := by
    refine UInt32.toNat_inj.mp ?_
    exact ((sessionStats_worst stats infos hframes).best_eq_of_perm
      (sessionStats_worst stats infos' (hperm.length_eq ▸ hframes)) hperm).symm
  simp only [ErrorStats.unnumbered, ErrorStats.mk.injEq, hworst, true_and]
  exact ⟨hsum (·.dwTotalFrames) rfl fun stats info n => by rw [accumulateErrorStats_eq],
    hsum (·.dwFramesWithVideoErrors) rfl fun stats info n => by rw [accumulateErrorStats_eq],
    hsum (·.dwFramesWithAudioErrors) rfl fun stats info n => by rw [accumulateErrorStats_eq],
    hsum (·.dwTotalVideoErrorBlocks) rfl fun stats info n => by rw [accumulateErrorStats_eq],
    hsum (·.dwTotalAudioErrorBlocks) rfl fun stats info n => by rw [accumulateErrorStats_eq],
    hsum (·.dwTotalSTA_F) rfl fun stats info n => by rw [accumulateErrorStats_eq],
    hsum (·.dwVideoErrorsEven) rfl fun stats info n => by rw [accumulateErrorStats_eq],
    hsum (·.dwVideoErrorsOdd) rfl fun stats info n => by rw [accumulateErrorStats_eq]⟩

/-- The statistics of a session are those of its frames, whose order matters for
the number of the worst frame only. -/
theorem session_stats_exact (stats : ErrorStats) (frames : List (List UInt8))
    (hframes : frames.length < 2 ^ 32)
    (hvideo : total videoErrors (frames.map analyzeDVFrame) < 2 ^ 32)
    (haudio : total audioErrors (frames.map analyzeDVFrame) < 2 ^ 32) :
    ExactAggregates (frames.map analyzeDVFrame) (sessionStats stats (frames.map analyzeDVFrame)) ∧
      ∀ frames' : List (List UInt8), frames.Perm frames' →
        (sessionStats stats (frames'.map analyzeDVFrame)).unnumbered =
          (sessionStats stats (frames.map analyzeDVFrame)).unnumbered := by
  have hlength : (frames.map analyzeDVFrame).length < 2 ^ 32 := by
    rw [List.length_map]
    exact hframes
  refine ⟨exactAggregates stats (fun info hinfo => ?_) hlength hvideo haudio, fun frames' hperm => ?_⟩
  · obtain ⟨data, -, rfl⟩ := List.mem_map.mp hinfo
    exact analyzeDVFrame_consistent data
  · exact sessionStats_perm stats (hperm.map analyzeDVFrame) hlength

/-- A session of less than a day stays below the limits. -/
theorem total_lt {count : FrameErrorInfo → Nat} {frames : List (List UInt8)}
    (hcount : ∀ data, count (analyzeDVFrame data) ≤ 1728) (hshort : frames.length ≤ 2485513) :
    total count (frames.map analyzeDVFrame) < 2 ^ 32 := by
  have hle : total count (frames.map analyzeDVFrame) ≤ frames.length * 1728 := by
    rw [total, List.map_map]
    refine (List.sum_le_card_nsmul _ 1728 fun n hn => ?_).trans_eq ?_
    · obtain ⟨data, -, rfl⟩ := List.mem_map.mp hn
      exact hcount data
    · rw [List.length_map]
      rfl
  omega

theorem misplacedFrames_exact :
    ExactAggregates ([misplacedFrame, []].map analyzeDVFrame)
      (sessionStats ⟨7, 7, 7, 7, 7, 7, 7, 7, 7, 7⟩ ([misplacedFrame, []].map analyzeDVFrame)) ∧
    ∀ frames' : List (List UInt8), [misplacedFrame, []].Perm frames' →
      (sessionStats ⟨7, 7, 7, 7, 7, 7, 7, 7, 7, 7⟩ (frames'.map analyzeDVFrame)).unnumbered =
        (sessionStats ⟨7, 7, 7, 7, 7, 7, 7, 7, 7, 7⟩
          ([misplacedFrame, []].map analyzeDVFrame)).unnumbered := by
  have hshort : [misplacedFrame, []].length ≤ 2485513 := by
    rw [List.length_cons, List.length_singleton]
    omega
  exact session_stats_exact _ _ (hshort.trans_lt (by omega))
    (total_lt (fun data => (errorBlocks_le data).1) hshort)
    (total_lt (fun data => (errorBlocks_le data).2) hshort)

end WinDV
