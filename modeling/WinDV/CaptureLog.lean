import WinDV.FileSplit
import Mathlib.Data.List.DropRight

/-! The row of the capture log against the frames of the session and the driver's
drops. The counters behind it start over with every frame that is taken in a pause,
and a drop counts when it is read, not when it falls. -/

namespace WinDV

open Transition

/-- Neither captured nor past the end, so that taking it resets the counters. -/
def DequeuedFrame.pauses (d : DequeuedFrame) : Bool := !d.state.captures && d.state != .finished

def captured (ds : List DequeuedFrame) : List DequeuedFrame := ds.filter (·.state.captures)

/-- What `GetDroppedFrames` had returned last before the first captured frame, with
`first` its result before the loop. -/
def droppedBefore (first : Int32) (ds : List DequeuedFrame) : Int32 :=
  ((ds.takeWhile fun d => !d.state.captures).getLast?.map (·.droppedFrames)).getD first

/-- Its result with the last captured frame, from there on. -/
def reportedDrops (first : Int32) (ds : List DequeuedFrame) : Int32 :=
  ((captured ds).getLast?.map (·.droppedFrames - droppedBefore first ds)).getD 0

/-- The captured frames after the last one that was taken in a pause. -/
def lastSegment (ds : List DequeuedFrame) : List DequeuedFrame :=
  captured (ds.rtakeWhile fun d => !d.pauses)

def Unbroken (ds : List DequeuedFrame) : Prop :=
  ds.Pairwise fun d e => d.state.captures = true → e.pauses = false

section Segments

variable {ds : List DequeuedFrame} {d : DequeuedFrame}

theorem captured_concat (ds : List DequeuedFrame) (d : DequeuedFrame) :
    captured (ds ++ [d]) = captured ds ++ if d.state.captures then [d] else [] := by
  rw [captured, List.filter_append, List.filter_singleton, cond_eq_ite]
  rfl

theorem lastSegment_concat (ds : List DequeuedFrame) (d : DequeuedFrame) :
    lastSegment (ds ++ [d]) =
      if d.pauses then [] else lastSegment ds ++ if d.state.captures then [d] else [] := by
  rw [lastSegment, List.rtakeWhile_concat]
  cases d.pauses with
  | true => rfl
  | false => exact captured_concat _ d

theorem takeWhile_uncaptured (ds : List DequeuedFrame) :
    captured ds = [] ↔ (ds.takeWhile fun d => !d.state.captures) = ds := by
  rw [captured, List.filter_eq_nil_iff, List.takeWhile_eq_self_iff]
  simp only [Bool.not_eq_true, Bool.not_eq_true']

theorem droppedBefore_concat (first : Int32) (ds : List DequeuedFrame) (d : DequeuedFrame) :
    droppedBefore first (ds ++ [d]) =
      if captured ds = [] ∧ d.state.captures = false then d.droppedFrames else droppedBefore first ds := by
  have hwhole := takeWhile_uncaptured ds
  rw [droppedBefore, droppedBefore, List.takeWhile_append]
  by_cases hnone : captured ds = []
  · rw [hwhole.mp hnone, if_pos rfl]
    cases hd : d.state.captures with
    | true => rw [List.takeWhile_cons_of_neg (by simp [hd]), List.append_nil, if_neg (by simp)]
    | false => simp [hd, hnone]
  · have hshort : (ds.takeWhile fun d => !d.state.captures).length ≠ ds.length := fun hlen =>
      hnone (hwhole.mpr ((List.takeWhile_prefix _).eq_of_length hlen))
    rw [if_neg hshort, if_neg fun h => hnone h.1]

theorem reportedDrops_of_none {first : Int32} (h : captured ds = []) : reportedDrops first ds = 0 := by
  rw [reportedDrops, h]
  rfl

theorem reportedDrops_captured (first : Int32) (h : d.state.captures = true) :
    reportedDrops first (ds ++ [d]) = d.droppedFrames - droppedBefore first ds := by
  rw [reportedDrops, captured_concat, if_pos h, List.getLast?_concat, droppedBefore_concat,
    if_neg (by simp [h])]
  rfl

theorem reportedDrops_uncaptured (first : Int32) (h : d.state.captures = false) :
    reportedDrops first (ds ++ [d]) = reportedDrops first ds := by
  have hcaptured : captured (ds ++ [d]) = captured ds := by
    rw [captured_concat, h, if_neg Bool.false_ne_true, List.append_nil]
  by_cases hnone : captured ds = []
  · rw [reportedDrops_of_none hnone, reportedDrops_of_none (hcaptured.trans hnone)]
  · rw [reportedDrops, reportedDrops, hcaptured, droppedBefore_concat, if_neg fun hno => hnone hno.1]

theorem pauses_of_captures (h : d.state.captures = true) : d.pauses = false := by
  rw [DequeuedFrame.pauses, h]
  rfl

theorem unbroken_concat (ds : List DequeuedFrame) (d : DequeuedFrame) :
    Unbroken (ds ++ [d]) ↔ Unbroken ds ∧ (d.pauses = true → captured ds = []) := by
  rw [Unbroken, List.pairwise_append]
  simp only [List.pairwise_singleton, List.mem_singleton, forall_eq, true_and]
  refine and_congr_right fun _ => ?_
  rw [captured, List.filter_eq_nil_iff]
  constructor
  · intro h hd x hx hcap
    rw [h x hx hcap] at hd
    cases hd
  · intro h x hx hcap
    cases hd : d.pauses with
    | true => exact absurd hcap (h hd x hx)
    | false => rfl

end Segments

namespace CapturingThread

variable {env : CaptureEnv} {t t' : CapturingThread} {d : DequeuedFrame}

theorem closeWriter_frames {o : Finalization} (h : t.closeWriter o = .ok t') :
    t'.fileFrames = t.fileFrames ∧ ∃ phase finalizedFiles closed aviWriter, t' = { t with
      finalizePhase := phase
      finalizedFiles := finalizedFiles
      closed := closed
      aviWriter := aviWriter } := by
  rcases closeWriter_eq_ok h with ⟨-, rfl⟩ | ⟨w, w', phase, hw, hf, rfl⟩
  · exact ⟨rfl, _, _, _, _, rfl⟩
  · refine ⟨?_, _, _, _, _, rfl⟩
    rw [fileFrames_some hw, fileFrames_none rfl]
    show (t.closed ++ [w']).map (·.handed) = _
    rw [List.map_append, List.map_singleton, (CAVIWriter.finalizeFile_same (.inl hf)).1]

theorem captureFrame_frames (hnth : env.everyNth = 1) {calls : Calls}
    (h : t.captureFrame env d calls = .ok t') :
    t'.fileFrames.flatten = t.fileFrames.flatten ++ [d] ∧
    ∃ phase finalizedFiles closed aviWriter nFrames frameCounter state captureTime reason,
      (state = t.state ∨ state = .finished) ∧ t' = { t with
        finalizePhase := phase
        finalizedFiles := finalizedFiles
        closed := closed
        aviWriter := aviWriter
        nFrames := nFrames
        frameCounter := frameCounter
        counter := t.counter + 1
        time := t.time + d.frame.duration
        counted := t.counted ++ [(d, t.counter + 1, t.time + d.frame.duration)]
        dropped := t.driverDropped - t.droppedBase
        state := state
        captureTime := captureTime
        capStats.eStopReason := reason } := by
  obtain ⟨t₁, t₂, t₃, h₁, h₂, h₃, rfl⟩ := captureFrame_eq_ok h
  have hsplit : t₁.fileFrames = t.fileFrames ∧ ∃ phase finalizedFiles closed aviWriter,
      t₁ = { t with
        finalizePhase := phase
        finalizedFiles := finalizedFiles
        closed := closed
        aviWriter := aviWriter } := by
    rcases splitFile_eq_ok h₁ with ⟨-, rfl⟩ | ⟨-, hc⟩
    · exact ⟨rfl, _, _, _, _, rfl⟩
    · exact closeWriter_frames hc
  have hopen : t₂.fileFrames.flatten = t₁.fileFrames.flatten ∧ ∃ aviWriter nFrames frameCounter,
      t₂ = { t₁ with aviWriter := aviWriter, nFrames := nFrames, frameCounter := frameCounter } := by
    rcases openWriter_eq_ok h₂ with ⟨-, rfl⟩ | ⟨hw, tmpfile, -, rfl⟩
    · exact ⟨rfl, _, _, _, rfl⟩
    · refine ⟨?_, _, _, _, rfl⟩
      rw [fileFrames_none hw, fileFrames_some rfl]
      simp
  have hwrite : t₃.fileFrames.flatten = t₂.fileFrames.flatten ++ [d] ∧ ∃ aviWriter nFrames,
      t₃ = { t₂ with aviWriter := aviWriter, nFrames := nFrames } := by
    rcases writeFrame_eq_ok h₃ with ⟨hno, -⟩ | ⟨w, w', hw, -, hf, rfl⟩
    · rw [hnth, UInt32.mod_one] at hno
      have hsome := openWriter_isSome h₂
      rcases hno with hnone | hne
      · rw [hnone] at hsome
        cases hsome
      · exact absurd rfl hne
    · refine ⟨?_, _, _, rfl⟩
      rw [fileFrames_some hw, fileFrames_some rfl, (CAVIWriter.handleFrame_eq_some hf).2.1]
      simp
  obtain ⟨hframes₁, phase, finalizedFiles, closed, aviWriter₁, heq₁⟩ := hsplit
  obtain ⟨hframes₂, aviWriter₂, nFrames₂, frameCounter₂, heq₂⟩ := hopen
  obtain ⟨hframes₃, aviWriter₃, nFrames₃, heq₃⟩ := hwrite
  obtain ⟨state, captureTime, reason, hstate, heq⟩ := countFrame_eq t₃ d
  refine ⟨?_, phase, finalizedFiles, closed, aviWriter₃.map (·.backfill t.dvTime), nFrames₃,
    frameCounter₂ + 1, state, captureTime, reason, ?_, ?_⟩
  · rw [countFrame_frames, hframes₃, hframes₂, hframes₁]
  · rw [heq₃, heq₂, heq₁] at hstate
    exact hstate
  · rw [heq, heq₃, heq₂, heq₁]

structure Counted (env : CaptureEnv) (reported : Int32) (t : CapturingThread) : Prop
    extends TimesNoted env t where
  handed : t.fileFrames.flatten = captured t.dequeued
  counter : t.counter = Int32.ofNat (lastSegment t.dequeued).length
  dropped : Unbroken t.dequeued → t.dropped = reportedDrops reported t.dequeued
  base : Unbroken t.dequeued → (∀ d ∈ t.dequeued, d.state ≠ .finished) →
    t.droppedBase = droppedBefore reported t.dequeued
  absorbed : (∃ d ∈ t.dequeued, d.state = .finished) → t.state = .idle ∨ t.state = .finished
  unlogged : t.log = []

variable {reported : Int32}

theorem Counted.captured (h : Counted env reported t) (hnth : env.everyNth = 1) {f : Frame} {calls : Calls}
    (hcap : t.state.captures = true)
    (hc : (t.taken env f calls.droppedFrames).captureFrame env (t.dequeue f calls.droppedFrames) calls =
      .ok t') : Counted env reported t' := by
  -- no frame is captured once one was taken as Finished
  have hunfinished : ∀ d ∈ t.dequeued, d.state ≠ .finished := by
    intro d hd hfin
    rcases h.absorbed ⟨d, hd, hfin⟩ with hs | hs <;> rw [hs] at hcap <;> cases hcap
  have hd : (t.dequeue f calls.droppedFrames).state.captures = true := hcap
  have hlast : lastSegment (t.dequeued ++ [t.dequeue f calls.droppedFrames]) =
      lastSegment t.dequeued ++ [t.dequeue f calls.droppedFrames] := by
    rw [lastSegment_concat, pauses_of_captures hd, hd]
    rfl
  have hbase := fun hu => h.base ((unbroken_concat _ (t.dequeue f calls.droppedFrames)).mp hu).1 hunfinished
  have htimes := h.toTimesNoted.taken f calls.droppedFrames
  obtain ⟨deltaDVTime, oldDVTime, dvTime, first, last, htaken⟩ := taken_eq env t f calls.droppedFrames
  rw [htaken] at htimes hc
  obtain ⟨hframes, phase, finalizedFiles, closed, aviWriter, nFrames, frameCounter, state,
    captureTime, reason, hstate, rfl⟩ := captureFrame_frames hnth hc
  refine ⟨⟨htimes.dvTime, htimes.oldDVTime, htimes.first, htimes.last⟩, ?_, ?_, fun hu => ?_,
    fun hu _ => ?_, ?_, h.unlogged⟩
  · show _ = WinDV.captured (t.dequeued ++ [t.dequeue f calls.droppedFrames])
    rw [hframes, captured_concat, if_pos hd, ← h.handed]
    rfl
  · show t.counter + 1 =
      Int32.ofNat (lastSegment (t.dequeued ++ [t.dequeue f calls.droppedFrames])).length
    rw [hlast, List.length_append, List.length_singleton, Int32.ofNat_add, h.counter]
    rfl
  · show calls.droppedFrames - t.droppedBase =
      reportedDrops reported (t.dequeued ++ [t.dequeue f calls.droppedFrames])
    rw [reportedDrops_captured reported hd, hbase hu]
    rfl
  · show t.droppedBase = droppedBefore reported (t.dequeued ++ [t.dequeue f calls.droppedFrames])
    have hcaptured : ¬ (WinDV.captured t.dequeued = [] ∧
        (t.dequeue f calls.droppedFrames).state.captures = false) := fun hno => by
      rw [hd] at hno
      cases hno.2
    rw [droppedBefore_concat, if_neg hcaptured, hbase hu]
  · rintro ⟨d, hmem, hfin⟩
    rcases List.mem_append.mp hmem with hmem | hmem
    · exact absurd hfin (hunfinished d hmem)
    · obtain rfl := List.mem_singleton.mp hmem
      rw [hfin] at hd
      cases hd

theorem Counted.paused (h : Counted env reported t) {f : Frame} {calls : Calls}
    (hcap : t.state.captures = false)
    (hc : (t.taken env f calls.droppedFrames).pauseFrame calls = .ok t') : Counted env reported t' := by
  have hd : (t.dequeue f calls.droppedFrames).state.captures = false := hcap
  have htimes := h.toTimesNoted.taken f calls.droppedFrames
  obtain ⟨deltaDVTime, oldDVTime, dvTime, first, last, htaken⟩ := taken_eq env t f calls.droppedFrames
  rw [htaken] at htimes hc
  obtain ⟨t₁, hclose, rfl⟩ := pauseFrame_eq_ok hc
  obtain ⟨hframes, phase, finalizedFiles, closed, aviWriter, rfl⟩ := closeWriter_frames hclose
  have hhanded : t.fileFrames.flatten =
      WinDV.captured (t.dequeued ++ [t.dequeue f calls.droppedFrames]) := by
    rw [captured_concat, hd, if_neg Bool.false_ne_true, List.append_nil, h.handed]
  have hpauses : (t.dequeue f calls.droppedFrames).pauses = true ↔ t.state ≠ .finished := by
    rw [DequeuedFrame.pauses, hd, Bool.not_false, Bool.true_and, bne_iff_ne]
    rfl
  -- the pause branch keeps the counters of a finished capture and resets all others
  have hlast : lastSegment (t.dequeued ++ [t.dequeue f calls.droppedFrames]) =
      if t.state = .finished then lastSegment t.dequeued else [] := by
    rw [lastSegment_concat, hd, if_neg Bool.false_ne_true, List.append_nil]
    by_cases hfin : t.state = .finished
    · rw [if_pos hfin, if_neg fun hp => hpauses.mp hp hfin]
    · rw [if_neg hfin, if_pos (hpauses.mpr hfin)]
  have hunbroken := unbroken_concat t.dequeued (t.dequeue f calls.droppedFrames)
  rw [resetCounters_eq]
  refine ⟨⟨htimes.dvTime, htimes.oldDVTime, htimes.first, htimes.last⟩, ?_, ?_, fun hu => ?_,
    fun hu hunfinished => ?_, ?_, h.unlogged⟩
  · rw [← hhanded]
    exact congrArg List.flatten hframes
  · show (if t.state = .finished then t.counter else 0) = Int32.ofNat (lastSegment _).length
    rw [hlast, h.counter]
    by_cases hfin : t.state = .finished
    · rw [if_pos hfin, if_pos hfin]
    · rw [if_neg hfin, if_neg hfin]
      rfl
  · show (if t.state = .finished then t.dropped else 0) =
      reportedDrops reported (t.dequeued ++ [t.dequeue f calls.droppedFrames])
    obtain ⟨hu, hnone⟩ := hunbroken.mp hu
    rw [reportedDrops_uncaptured reported hd]
    by_cases hfin : t.state = .finished
    · rw [if_pos hfin, h.dropped hu]
    · rw [if_neg hfin, reportedDrops_of_none (hnone (hpauses.mpr hfin))]
  · have hfin : t.state ≠ .finished :=
      hunfinished (t.dequeue f calls.droppedFrames) (List.mem_append_right _ List.mem_cons_self)
    show calls.droppedFrames =
      droppedBefore reported (t.dequeued ++ [t.dequeue f calls.droppedFrames])
    rw [droppedBefore_concat, if_pos ⟨(hunbroken.mp hu).2 (hpauses.mpr hfin), hd⟩]
    rfl
  · rintro ⟨d, hmem, hfin⟩
    rcases List.mem_append.mp hmem with hmem | hmem
    · exact h.absorbed ⟨d, hmem, hfin⟩
    · obtain rfl := List.mem_singleton.mp hmem
      exact .inr hfin

/-- The rows that were written carry the counters of the last segment and the
times of all frames. -/
structure Logged (env : CaptureEnv) (reported : Int32) (t : CapturingThread) : Prop where
  handed : t.fileFrames.flatten = captured t.dequeued
  counts : ∀ row ∈ t.log, ∃ dropped : Int32,
    (Unbroken t.dequeued → dropped = reportedDrops reported t.dequeued) ∧ row.capStats.counts =
      ((Int32.ofNat (lastSegment t.dequeued).length).toUInt32, dropped.toUInt32,
        (validTimes env t.dequeued).head?.getD 0, (validTimes env t.dequeued).getLast?.getD 0)

theorem Counted.verifyAndLog (h : Counted env reported t) : Logged env reported (t.verifyAndLog env) := by
  unfold CapturingThread.verifyAndLog
  by_cases hpos : t.finalizedFiles.length > 0
  · rw [if_pos hpos]
    refine ⟨h.handed, fun row hrow => ⟨t.dropped, h.dropped, ?_⟩⟩
    have hlog : row ∈ t.log ++ [_] := hrow
    rw [h.unlogged, List.nil_append] at hlog
    obtain rfl := List.mem_singleton.mp hlog
    refine (verifyFiles_counts _ _ _ _).trans ?_
    show (t.counter.toUInt32, t.dropped.toUInt32, t.capStats.tFirstRecTime,
      t.capStats.tLastRecTime) = _
    rw [h.counter, h.first, h.last]
  · rw [if_neg hpos]
    refine ⟨h.handed, fun row hrow => ?_⟩
    rw [h.unlogged] at hrow
    cases hrow

theorem Counted.afterLoop (h : Counted env reported t) (reason : StopReason) {state : CDVState}
    (hstate : state = t.state ∨ state = .finished) {calls : Calls}
    (hret : (CapturingThread.afterLoop env
      { t with capStats.eStopReason := reason, state := state } calls).1 = .returned) :
    Logged env reported (CapturingThread.afterLoop env
      { t with capStats.eStopReason := reason, state := state } calls).2 := by
  rcases afterLoop_cases env { t with capStats.eStopReason := reason, state := state } calls with
    ⟨t', hc, heq⟩ | ⟨t', -, heq⟩
  · rw [heq]
    obtain ⟨hframes, phase, finalizedFiles, closed, aviWriter, rfl⟩ := closeWriter_frames hc
    apply Counted.verifyAndLog
    refine ⟨⟨h.dvTime, h.oldDVTime, h.first, h.last⟩, ?_, h.counter, h.dropped, h.base, ?_, h.unlogged⟩
    · exact (congrArg List.flatten hframes).trans h.handed
    · intro hmem
      rcases hstate with rfl | rfl
      · exact h.absorbed hmem
      · exact .inr rfl
  · rw [heq] at hret
    cases hret

end CapturingThread

namespace CaptureLoop

variable {env : CaptureEnv} {reported : Int32} {s s' : CaptureLoop}

structure Tallied (env : CaptureEnv) (reported : Int32) (s : CaptureLoop) : Prop where
  counted : s.1 = .again → s.2.Counted env reported
  logged : s.1 = .returned → s.2.Logged env reported

theorem Tallied.command (h : Tallied env reported s) (k : Command) :
    Tallied env reported (s.1, { s.2 with toCDV := s.2.toCDV.command k }) := by
  have hover := fun hs => CDV.command_over (c := s.2.toCDV) hs k
  obtain ⟨state, phase, captureTime, captureFilename, dtformat, ndigits, starts, heq⟩ :=
    s.2.toCDV.command_eq k
  rw [heq] at hover
  rw [heq]
  refine ⟨fun hag => ?_, fun hret => ?_⟩
  · have hc := h.counted hag
    exact ⟨⟨hc.dvTime, hc.oldDVTime, hc.first, hc.last⟩, hc.handed, hc.counter, hc.dropped, hc.base,
      fun hmem => hover (hc.absorbed hmem), hc.unlogged⟩
  · have hl := h.logged hret
    exact ⟨hl.handed, hl.counts⟩

theorem Tallied.round (hnth : env.everyNth = 1) {t : CapturingThread} (h : t.Counted env reported)
    (r : Round) : Tallied env reported (t.round env r) := by
  rcases t.round_cases env r with ⟨t', heq, ht'⟩ | heq | ⟨f, -, -, heq⟩
  · rw [heq]
    refine ⟨fun hag => ?_, fun hret => ?_⟩
    · rcases t'.afterLoop_cases env r.calls with ⟨u, -, hu⟩ | ⟨u, -, hu⟩ <;> rw [hu] at hag <;>
        cases hag
    · rcases ht' with ⟨-, rfl⟩ | ⟨reason, rfl⟩
      · exact h.afterLoop t'.capStats.eStopReason (.inl rfl) hret
      · exact h.afterLoop reason (.inr rfl) hret
  · rw [heq]
    exact ⟨fun _ => h, nofun⟩
  · rw [heq]
    rcases t.onFrame_cases env f r.calls with ⟨hcap, t', hc, hf⟩ | ⟨hcap, t', hc, hf⟩ | ⟨t', hf⟩
    · rw [hf]
      exact ⟨fun _ => h.captured hnth hcap hc, nofun⟩
    · rw [hf]
      exact ⟨fun _ => h.paused hcap hc, nofun⟩
    · rw [hf]
      exact ⟨nofun, nofun⟩

theorem Tallied.step (hnth : env.everyNth = 1) (h : Tallied env reported s) {a : CaptureAction}
    (hstep : CaptureLoop.step env s a = some s') : Tallied env reported s' := by
  cases a with
  | command k =>
    rw [step_command hstep]
    exact h.command k
  | round r =>
    obtain ⟨hag, heq⟩ := step_round hstep
    rw [heq]
    exact Tallied.round hnth (h.counted hag) r

end CaptureLoop

/-- The capture and the driver, which drops frames at any time: `whileCapturing` of
them while `m_state` said so. -/
structure DroppingCapture where
  loop : CaptureLoop
  whileCapturing : Nat

inductive DroppingAction
  | capture (a : CaptureAction)
  /-- The driver drops a frame. -/
  | drop
  deriving DecidableEq

namespace DroppingCapture

def step (env : CaptureEnv) (s : DroppingCapture) : DroppingAction → Option DroppingCapture
  | .capture a => (CaptureLoop.step env s.loop a).map fun loop => { s with loop := loop }
  | .drop =>
    some (if s.loop.2.state.captures then { s with whileCapturing := s.whileCapturing + 1 } else s)

/-- The graph has been started; `reported` is what `GetDroppedFrames` returns then. -/
def start (env : CaptureEnv) (c : CDV) (reported : Int32) : DroppingCapture :=
  ⟨CaptureLoop.start env c reported, 0⟩

end DroppingCapture

end WinDV
