import WinDV.CaptureFilename
import WinDV.DVTime
import WinDV.RecordingTimes

/-! The recording time that names a file. A time is `-1` where a frame has
none, and the test that fills in a missing one asks for `0`. -/

namespace WinDV

open Transition

/-- The file goes by its first valid recording time, or by none. -/
def NamedByTime (env : CaptureEnv) (w : CAVIWriter) : Prop :=
  (∀ x, (validTimes env w.handed).head? = some x → w.dvtime = x) ∧
    (validTimes env w.handed = [] → w.dvtime ≤ 0)

variable {env : CaptureEnv} {w w' : CAVIWriter} {d : DequeuedFrame}

theorem NamedByTime.congr (h : NamedByTime env w) (hhanded : w'.handed = w.handed)
    (hdvtime : w'.dvtime = w.dvtime) : NamedByTime env w' := by
  rw [NamedByTime, hhanded, hdvtime]
  exact h

/-- The time that `GetCaptureFilename` puts into the name is the first valid
one, or that of the clock. -/
theorem NamedByTime.name_eq (h : NamedByTime env w) (formatTime : CString → Int32 → CString)
    (now : Int32) (base dtformat : CString) :
    baseWithTime formatTime now base dtformat w.dvtime =
      baseWithTime formatTime now base dtformat ((validTimes env w.handed).headD now) := by
  cases hvalid : validTimes env w.handed with
  | nil =>
    rw [List.headD_nil, baseWithTime, if_pos (h.2 hvalid), baseWithTime, ite_self]
  | cons x times =>
    rw [h.1 x (by rw [hvalid]; rfl)]
    rfl

namespace CAVIWriter

theorem finalizeFile_dvtime {o : Finalization} (h : w.finalizeFile o = .ok w') :
    w'.dvtime = w.dvtime := by
  unfold finalizeFile at h
  split at h
  · rw [Except.ok.inj h]
  · cases o with
    | endOfStreamFailed => cases h
    | notCompleted => cases h
    | completed finalPath moved => rw [← Except.ok.inj h]

theorem backfill_dvtime (w : CAVIWriter) (x : Int32) :
    (w.backfill x).dvtime = if x ≠ 0 ∧ w.dvtime = 0 then x else w.dvtime := by
  unfold backfill
  split <;> rfl

theorem backfill_handed (w : CAVIWriter) (x : Int32) : (w.backfill x).handed = w.handed := by
  unfold backfill
  split <;> rfl

end CAVIWriter

/-- A frame with a valid time reaches a file that has none as it should if it
is one of those that are written and `m_dvtime` is 0, or neither. -/
theorem NamedByTime.backfill (h : NamedByTime env w) {time : Int32}
    (htime : env.getDVRecordingTime d.frame.data = time)
    (hhanded : w'.handed = w.handed ++ [d] ∨ w'.handed = w.handed) (hdvtime : w'.dvtime = w.dvtime)
    (hok : validTimes env w.handed = [] → 0 < time →
      (w'.handed = w.handed ++ [d] ↔ w.dvtime = 0)) :
    NamedByTime env (w'.backfill time) := by
  rw [NamedByTime, CAVIWriter.backfill_handed, CAVIWriter.backfill_dvtime, hdvtime]
  cases hvalid : validTimes env w.handed with
  | cons y times =>
    have hy : w.dvtime = y := h.1 y (by rw [hvalid]; rfl)
    have hmem : y ∈ validTimes env w.handed := by rw [hvalid]; exact List.mem_cons_self
    have hpos : 0 < y := pos_of_mem_validTimes hmem
    have hne : w.dvtime ≠ 0 := by
      rw [hy]
      rintro rfl
      exact absurd hpos (by decide)
    have hhead : (validTimes env w'.handed).head? = some y := by
      rcases hhanded with hw | hs
      · by_cases hd : 0 < env.getDVRecordingTime d.frame.data
        · rw [hw, validTimes_concat_pos env _ hd, hvalid]
          rfl
        · rw [hw, validTimes_concat_neg env _ hd, hvalid]
          rfl
      · rw [hs, hvalid]
        rfl
    rw [if_neg fun hzero => hne hzero.2, hhead, hy]
    refine ⟨fun x hx => Option.some.inj hx, fun hnil => ?_⟩
    simp [hnil] at hhead
  | nil =>
    have hle := h.2 hvalid
    by_cases hpos : 0 < time
    · rcases hhanded with hw | hs
      · have hzero := (hok hvalid hpos).mp hw
        have hne : time ≠ 0 := by
          rintro rfl
          exact absurd hpos (by decide)
        rw [hw, validTimes_concat_pos env _ (htime ▸ hpos), hvalid, if_pos ⟨hne, hzero⟩, htime]
        exact ⟨fun x hx => Option.some.inj hx, fun hnil => by cases hnil⟩
      · have hne : ¬ (time ≠ 0 ∧ w.dvtime = 0) := by
          rintro ⟨-, hzero⟩
          have hw := (hok hvalid hpos).mpr hzero
          rw [hs] at hw
          simp at hw
        rw [hs, hvalid, if_neg hne]
        exact ⟨fun x hx => (Option.some_ne_none x hx.symm).elim, fun _ => hle⟩
    · have hnone : validTimes env w'.handed = [] := by
        rcases hhanded with hw | hs
        · rw [hw, validTimes_concat_neg env _ (htime ▸ hpos), hvalid]
        · rw [hs, hvalid]
      rw [hnone]
      refine ⟨fun x hx => (Option.some_ne_none x hx.symm).elim, fun _ => ?_⟩
      split
      · exact Int32.not_lt.mp hpos
      · exact hle

namespace CapturingThread

variable {t t' : CapturingThread}

theorem taken_dvTime (env : CaptureEnv) (t : CapturingThread) (f : Frame) (drops : Int32) :
    (t.taken env f drops).dvTime = env.getDVRecordingTime f.data := by
  by_cases hsame : t.dvTime = env.getDVRecordingTime f.data
  · rw [taken_same drops hsame, ← hsame]
  · by_cases hpos : 0 < env.getDVRecordingTime f.data
    · rw [taken_valid drops hsame hpos]
    · rw [taken_invalid drops hsame hpos]

structure FilesNamed (env : CaptureEnv) (t : CapturingThread) : Prop where
  closed : ∀ w ∈ t.closed, NamedByTime env w
  opened : ∀ w, t.aviWriter = some w → NamedByTime env w

theorem FilesNamed.closeWriter (h : FilesNamed env t) {o : Finalization}
    (hclose : t.closeWriter o = .ok t') : FilesNamed env t' ∧ t'.aviWriter = none ∧
      t'.dvTime = t.dvTime := by
  rcases closeWriter_eq_ok hclose with ⟨hnone, rfl⟩ | ⟨w, w', phase, hw, hf, rfl⟩
  · exact ⟨h, hnone, rfl⟩
  · refine ⟨⟨fun v hv => ?_, fun v hv => by cases hv⟩, rfl, rfl⟩
    rcases List.mem_append.mp hv with hv | hv
    · exact h.closed v hv
    · obtain rfl := List.mem_singleton.mp hv
      have hsame := CAVIWriter.finalizeFile_same (.inl hf)
      exact (h.opened w hw).congr hsame.1 (CAVIWriter.finalizeFile_dvtime hf)

theorem closeWriter_error_closed {o : Finalization} (hclose : t.closeWriter o = .error t') :
    t'.closed = t.closed := by
  obtain ⟨w, w', phase, -, -, rfl⟩ := closeWriter_eq_error hclose
  rfl

theorem FilesNamed.splitFile (h : FilesNamed env t) {o : Finalization}
    (hsplit : t.splitFile env o = .ok t') : FilesNamed env t' ∧ t'.dvTime = t.dvTime ∧
      (t' = t ∧ t.splits env = false ∨ t'.aviWriter = none) := by
  rcases splitFile_eq_ok hsplit with ⟨hs, rfl⟩ | ⟨-, hclose⟩
  · exact ⟨h, rfl, .inl ⟨rfl, hs⟩⟩
  · obtain ⟨hnamed, hnone, hdvTime⟩ := h.closeWriter hclose
    exact ⟨hnamed, hdvTime, .inr hnone⟩

/-- The first frame of a file is written and brings its own time. -/
theorem namedByTime_of_opened {time : Int32} (htime : env.getDVRecordingTime d.frame.data = time)
    (hhanded : w.handed = [d]) (hdvtime : w.dvtime = time) : NamedByTime env (w.backfill time) := by
  have hkeep : ¬ (time ≠ 0 ∧ time = 0) := fun h => h.1 h.2
  rw [NamedByTime, CAVIWriter.backfill_handed, CAVIWriter.backfill_dvtime, hdvtime, if_neg hkeep,
    hhanded]
  by_cases hpos : 0 < time
  · have hvalid : validTimes env [d] = [time] := by
      rw [← htime] at hpos ⊢
      exact validTimes_concat_pos env [] hpos
    rw [hvalid]
    exact ⟨fun x hx => Option.some.inj hx, fun hnil => by cases hnil⟩
  · have hvalid : validTimes env [d] = [] := by
      rw [← htime] at hpos
      exact validTimes_concat_neg env [] hpos
    rw [hvalid]
    exact ⟨fun x hx => (Option.some_ne_none x hx.symm).elim, fun _ => Int32.not_lt.mp hpos⟩

theorem countFrame_named (h : ∀ w ∈ t.closed, NamedByTime env w)
    (hopen : ∀ w, t.aviWriter = some w → NamedByTime env (w.backfill t.dvTime)) :
    FilesNamed env (t.countFrame d) := by
  obtain ⟨state, captureTime, reason, -, heq⟩ := t.countFrame_eq d
  rw [heq]
  refine ⟨h, fun w hw => ?_⟩
  obtain ⟨v, hv, rfl⟩ := Option.map_eq_some_iff.mp hw
  exact hopen v hv

theorem FilesNamed.writeOpen (h : FilesNamed env t) (hw : t.aviWriter = some w)
    (htime : env.getDVRecordingTime d.frame.data = t.dvTime)
    (hok : validTimes env w.handed = [] → 0 < t.dvTime →
      (t.frameCounter.toUInt32 % env.everyNth = 0 ↔ w.dvtime = 0))
    {o : Delivery} (hwrite : t.writeFrame env d o = .ok t') : FilesNamed env (t'.countFrame d) := by
  rcases writeFrame_eq_ok hwrite with ⟨hskip, rfl⟩ | ⟨v, w', hv, hn, hf, rfl⟩
  · have hn : ¬ t'.frameCounter.toUInt32 % env.everyNth = 0 := by
      rcases hskip with hnone | hn
      · simp [hw] at hnone
      · exact hn
    refine countFrame_named h.closed fun v hv => ?_
    obtain rfl := Option.some.inj (hw.symm.trans hv)
    refine (h.opened w hw).backfill htime (.inr rfl) rfl fun hvalid hpos => ?_
    refine iff_of_false (fun hself => by simp at hself) fun hzero => hn ((hok hvalid hpos).mpr hzero)
  · obtain rfl := Option.some.inj (hw.symm.trans hv)
    obtain ⟨-, hhanded, -, -, -, -, -, hdvtime⟩ := CAVIWriter.handleFrame_eq_some hf
    refine countFrame_named h.closed fun v hv => ?_
    obtain rfl := Option.some.inj hv
    refine (h.opened w hw).backfill htime (.inl hhanded) hdvtime fun hvalid hpos => ?_
    exact iff_of_true hhanded ((hok hvalid hpos).mp hn)

theorem FilesNamed.openFile (h : FilesNamed env t) (hnone : t.aviWriter = none)
    (htime : env.getDVRecordingTime d.frame.data = t.dvTime) {created : Option Path} {o : Delivery}
    {t₁ : CapturingThread} (hopen : t.openWriter env created = .ok t₁)
    (hwrite : t₁.writeFrame env d o = .ok t') : FilesNamed env (t'.countFrame d) := by
  rcases openWriter_eq_ok hopen with ⟨hsome, -⟩ | ⟨-, tmpfile, -, rfl⟩
  · rw [hnone] at hsome
    cases hsome
  · rcases writeFrame_eq_ok hwrite with ⟨hskip, -⟩ | ⟨v, w', hv, -, hf, rfl⟩
    · have hzero : (0 : Int32).toUInt32 % env.everyNth = 0 := UInt32.zero_mod
      rcases hskip with hskip | hskip
      · cases hskip
      · exact absurd hzero hskip
    · obtain rfl := Option.some.inj hv
      obtain ⟨-, hhanded, -, -, -, -, -, hdvtime⟩ := CAVIWriter.handleFrame_eq_some hf
      refine countFrame_named h.closed fun v hv => ?_
      obtain rfl := Option.some.inj hv
      exact namedByTime_of_opened htime hhanded hdvtime

/-- The step into the defect: a frame with a valid time comes to an open file
that has none yet, and either it is written while `m_dvtime` is not 0, or it is
skipped while `m_dvtime` is 0. -/
def overlooksTime (env : CaptureEnv) (t : CapturingThread) (r : Round) : Bool :=
  match r.got, t.aviWriter with
  | .frame f, some w =>
    t.state.captures && !(t.taken env f r.calls.droppedFrames).splits env &&
      (validTimes env w.handed).isEmpty && decide (0 < env.getDVRecordingTime f.data) &&
      (decide (t.frameCounter.toUInt32 % env.everyNth = 0) != decide (w.dvtime = 0))
  | _, _ => false

theorem iff_of_not_overlooksTime {r : Round} (h : ¬ t.overlooksTime env r = true) {f : Frame}
    (hgot : r.got = .frame f) (hw : t.aviWriter = some w) (hcap : t.state.captures = true)
    (hsplits : (t.taken env f r.calls.droppedFrames).splits env = false)
    (hvalid : validTimes env w.handed = []) (hpos : 0 < env.getDVRecordingTime f.data) :
    t.frameCounter.toUInt32 % env.everyNth = 0 ↔ w.dvtime = 0 := by
  simpa [overlooksTime, hgot, hw, hcap, hsplits, hvalid, hpos] using h

theorem FilesNamed.captureFrame (h : FilesNamed env t)
    (htime : env.getDVRecordingTime d.frame.data = t.dvTime)
    (hok : ∀ w, t.aviWriter = some w → t.splits env = false → validTimes env w.handed = [] →
      0 < t.dvTime → (t.frameCounter.toUInt32 % env.everyNth = 0 ↔ w.dvtime = 0))
    {calls : Calls} (hcapture : t.captureFrame env d calls = .ok t') : FilesNamed env t' := by
  obtain ⟨t₁, t₂, t₃, hsplit, hopen, hwrite, rfl⟩ := captureFrame_eq_ok hcapture
  obtain ⟨hnamed, hdvTime, hopened⟩ := h.splitFile hsplit
  rw [← hdvTime] at htime
  cases hw : t₁.aviWriter with
  | none => exact hnamed.openFile hw htime hopen hwrite
  | some w =>
    rcases hopened with ⟨rfl, hsplits⟩ | hnone
    · rcases openWriter_eq_ok hopen with ⟨-, rfl⟩ | ⟨hnone, -⟩
      · exact hnamed.writeOpen hw htime (hok w hw hsplits) hwrite
      · rw [hw] at hnone
        cases hnone
    · rw [hw] at hnone
      cases hnone

theorem error_of_bind {ε α β : Type} {x : Except ε α} {f : α → Except ε β} {e : ε}
    (h : (x >>= f) = .error e) : x = .error e ∨ ∃ a, x = .ok a ∧ f a = .error e := by
  cases x with
  | error e' => exact .inl (congrArg _ (Except.error.inj h))
  | ok a => exact .inr ⟨a, rfl, h⟩

theorem FilesNamed.captureFrame_error (h : FilesNamed env t) {calls : Calls}
    (hcapture : t.captureFrame env d calls = .error t') : ∀ w ∈ t'.closed, NamedByTime env w := by
  rcases error_of_bind hcapture with hsplit | ⟨t₁, hsplit, hrest⟩
  · rw [closeWriter_error_closed (splitFile_eq_error hsplit)]
    exact h.closed
  · have hnamed := (h.splitFile hsplit).1
    rcases error_of_bind hrest with hopen | ⟨t₂, hopen, hrest⟩
    · obtain rfl := openWriter_eq_error hopen
      exact hnamed.closed
    · rcases error_of_bind hrest with hwrite | ⟨t₃, -, hrest⟩
      · obtain rfl := writeFrame_eq_error hwrite
        rcases openWriter_eq_ok hopen with ⟨-, rfl⟩ | ⟨-, tmpfile, -, rfl⟩
        · exact hnamed.closed
        · exact hnamed.closed
      · cases hrest

theorem FilesNamed.taken (h : FilesNamed env t) (f : Frame) (drops : Int32) :
    FilesNamed env (t.taken env f drops) := by
  obtain ⟨deltaDVTime, oldDVTime, dvTime, first, last, heq⟩ := taken_eq env t f drops
  rw [heq]
  exact ⟨h.closed, h.opened⟩

end CapturingThread

namespace CaptureLoop

open CapturingThread

/-- The open file counts only while the thread goes on. -/
structure Named (env : CaptureEnv) (s : CaptureLoop) : Prop where
  closed : ∀ w ∈ s.2.closed, NamedByTime env w
  opened : s.1 = .again → ∀ w, s.2.aviWriter = some w → NamedByTime env w

theorem named_afterLoop {env : CaptureEnv} {t : CapturingThread} (h : FilesNamed env t)
    (calls : Calls) : Named env (t.afterLoop env calls) := by
  rcases afterLoop_cases env t calls with ⟨t', hclose, heq⟩ | ⟨t', hclose, heq⟩
  · obtain ⟨phase, last, capStats, log, hlog⟩ := t'.verifyAndLog_eq env
    rw [heq, hlog]
    exact ⟨(h.closeWriter hclose).1.closed, fun hagain => by cases hagain⟩
  · rw [heq]
    exact ⟨(closeWriter_error_closed hclose).symm ▸ h.closed, fun hagain => by cases hagain⟩

theorem named_captured {env : CaptureEnv} {t : CapturingThread} (h : FilesNamed env t) {r : Round}
    {f : Frame} (hgot : r.got = .frame f) (hcap : t.state.captures = true)
    (hok : ¬ t.overlooksTime env r = true) :
    Named env (orEscape .again
      ((t.taken env f r.calls.droppedFrames).captureFrame env (t.dequeue f r.calls.droppedFrames) r.calls)) := by
  have htaken := h.taken f r.calls.droppedFrames
  have htime := taken_dvTime env t f r.calls.droppedFrames
  obtain ⟨deltaDVTime, oldDVTime, dvTime, first, last, heq⟩ := taken_eq env t f r.calls.droppedFrames
  have hwriter : (t.taken env f r.calls.droppedFrames).aviWriter = t.aviWriter := by rw [heq]
  have hcounter : (t.taken env f r.calls.droppedFrames).frameCounter = t.frameCounter := by rw [heq]
  cases hc : (t.taken env f r.calls.droppedFrames).captureFrame env (t.dequeue f r.calls.droppedFrames) r.calls with
  | error t' => exact ⟨htaken.captureFrame_error hc, fun hagain => by cases hagain⟩
  | ok t' =>
    have hnamed := htaken.captureFrame htime.symm (fun w hw hsplits hvalid hpos => by
      rw [hcounter]
      exact iff_of_not_overlooksTime hok hgot (hwriter ▸ hw) hcap hsplits hvalid (htime ▸ hpos)) hc
    exact ⟨hnamed.closed, fun _ => hnamed.opened⟩

theorem named_paused {env : CaptureEnv} {t : CapturingThread} (h : FilesNamed env t) (calls : Calls) :
    Named env (orEscape .again (t.pauseFrame calls)) := by
  cases hp : t.pauseFrame calls with
  | ok t' =>
    obtain ⟨t₁, hclose, rfl⟩ := pauseFrame_eq_ok hp
    have hnamed := (h.closeWriter hclose).1
    rw [resetCounters_eq]
    exact ⟨hnamed.closed, fun _ => hnamed.opened⟩
  | error t' =>
    rcases error_of_bind hp with hclose | ⟨t₁, -, hrest⟩
    · exact ⟨(closeWriter_error_closed hclose).symm ▸ h.closed, fun hagain => by cases hagain⟩
    · cases hrest

theorem named_round {env : CaptureEnv} {t : CapturingThread} (h : FilesNamed env t) {r : Round}
    (hok : ¬ t.overlooksTime env r = true) : Named env (t.round env r) := by
  rcases round_cases env t r with ⟨t', heq, hend⟩ | heq | ⟨f, hgot, -, heq⟩
  · rw [heq]
    rcases hend with ⟨-, rfl⟩ | ⟨reason, rfl⟩
    · exact named_afterLoop h r.calls
    · have hover : FilesNamed env { t with capStats.eStopReason := reason, state := .finished } :=
        ⟨h.closed, h.opened⟩
      exact named_afterLoop hover r.calls
  · rw [heq]
    exact ⟨h.closed, fun _ => h.opened⟩
  · rw [heq, onFrame_eq]
    cases hcap : t.state.captures with
    | true => exact named_captured h hgot hcap hok
    | false => exact named_paused (h.taken f r.calls.droppedFrames) r.calls

theorem named_command {env : CaptureEnv} {s : CaptureLoop} (h : Named env s) (k : Command) :
    Named env (s.1, { s.2 with toCDV := s.2.toCDV.command k }) := by
  obtain ⟨state, phase, captureTime, captureFilename, dtformat, ndigits, starts, heq⟩ :=
    s.2.toCDV.command_eq k
  rw [heq]
  exact ⟨h.closed, h.opened⟩

def overlooks (env : CaptureEnv) (s : CaptureLoop) : CaptureAction → Bool
  | .command _ => false
  | .round r => s.2.overlooksTime env r

theorem named_step {env : CaptureEnv} {s s' : CaptureLoop} (h : Named env s) {a : CaptureAction}
    (hok : ¬ overlooks env s a = true) (hstep : step env s a = some s') : Named env s' := by
  cases a with
  | command k =>
    rw [step_command hstep]
    exact named_command h k
  | round r =>
    obtain ⟨hagain, rfl⟩ := step_round hstep
    exact named_round ⟨h.closed, h.opened hagain⟩ hok

/-- As long as no step overlooks a time, every file that was finalized went by
the first valid recording time of its frames. -/
theorem files_named_by_first_valid_time (env : CaptureEnv) (captureFilename dtformat : CString)
    (ndigits : Int32) (last : AVICheckResult) (drops : Int32) {acts : List CaptureAction}
    {s : CaptureLoop} (hrun : Run (step env) (fun s a => ¬ overlooks env s a = true)
      (start env (.buildCapturing captureFilename dtformat ndigits last) drops) acts s) :
    ∀ w ∈ s.2.closed, NamedByTime env w ∧ ∀ formatTime now,
      baseWithTime formatTime now w.filename w.dtformat w.dvtime =
        baseWithTime formatTime now w.filename w.dtformat
          ((validTimes env w.handed).headD now) := by
  have hstart : Named env (start env (.buildCapturing captureFilename dtformat ndigits last) drops) :=
    ⟨by simp [start, CapturingThread.start, CDV.buildCapturing],
      by simp [start, CapturingThread.start, CDV.buildCapturing]⟩
  have hnamed : Named env s :=
    hrun.invariant (fun _ _ _ h hok hstep => named_step h hok hstep) hstart
  intro w hw
  exact ⟨hnamed.closed w hw, fun formatTime now => (hnamed.closed w hw).name_eq formatTime now _ _⟩

/-- Frames with a recording time are those of the byte 1. -/
def markedEnv : CaptureEnv :=
  { shortFrameEnv 100 with getDVRecordingTime := fun data => if data = [1] then 1041422400 else -1 }

theorem markedTape_named : ∃ (s : CaptureLoop) (w : CAVIWriter),
    Run (step markedEnv) (fun s a => ¬ overlooks markedEnv s a = true)
      (start markedEnv (.buildCapturing [] [] 0 {}) 0) plainSplit s ∧
    s.2.closed = [w] ∧ w.dvtime = 1041422400 ∧ NamedByTime markedEnv w := by
  have hrun : Run (step markedEnv) (fun s a => ¬ overlooks markedEnv s a = true)
      (start markedEnv (.buildCapturing [] [] 0 {}) 0) plainSplit _ := run_of_exec rfl
  exact ⟨_, _, hrun, rfl, rfl,
    (files_named_by_first_valid_time markedEnv [] [] 0 {} 0 hrun _ (List.mem_singleton_self _)).1⟩

/-- Options without a limit that matters, and frames that are read as they are. -/
def tapeEnv : CaptureEnv :=
  { shortFrameEnv 100 with getDVRecordingTime := getDVRecordingTime mktimeUTC }

def tapeRound (data : List UInt8) : CaptureAction := .round ⟨.frame ⟨400000, data⟩, plainCalls⟩

def finishedTape (frames : List (List UInt8)) : List CaptureAction :=
  .command (.start ⟨"C:\\tape.avi".toList, [], 0, 0⟩) ::
    frames.map tapeRound ++ [.command .finalize, .round ⟨.endOfStream, plainCalls⟩]

def emptyFrame : List UInt8 := List.replicate 120000 0

/-- A round depends on the bytes of a frame through their recording time only. -/
theorem step_of_time {env : CaptureEnv} {data : List UInt8} {time : Int32}
    (h : env.getDVRecordingTime data = time) (s : CaptureLoop) :
    step env s (tapeRound data) =
      step { env with getDVRecordingTime := fun _ => time } s (tapeRound data) := by
  have hnote (t : CapturingThread) : t.noteDVTime env ⟨400000, data⟩ =
      t.noteDVTime { env with getDVRecordingTime := fun _ => time } ⟨400000, data⟩ := by
    simp only [CapturingThread.noteDVTime, h]
  simp only [tapeRound, step, CapturingThread.round, CapturingThread.onFrame, hnote]
  rfl

theorem tapeEnv_time (data : List UInt8) :
    tapeEnv.getDVRecordingTime data = getDVRecordingTime mktimeUTC data := rfl

theorem tapeEnv_emptyFrame : tapeEnv.getDVRecordingTime emptyFrame = -1 := by
  rw [tapeEnv_time, emptyFrame, getDVRecordingTime_of_zeros]

theorem tapeEnv_noonFrame : tapeEnv.getDVRecordingTime noonFrame = 1041422400 := by
  rw [tapeEnv_time, noonFrame_time]

/-- The first frame of the file has no recording time, the second one has. -/
theorem lateTime_overlooked : ∃ s : CaptureLoop,
    Run (step tapeEnv) (fun _ _ => True) (start tapeEnv (.buildCapturing [] [] 0 {}) 0)
      (finishedTape [emptyFrame, noonFrame]) s ∧
    ∃ w ∈ s.2.closed, (validTimes tapeEnv w.handed).head? = some 1041422400 ∧ w.dvtime = -1 := by
  have hexec : (exec (step tapeEnv) (fun _ _ => True)
      (start tapeEnv (.buildCapturing [] [] 0 {}) 0) (finishedTape [emptyFrame, noonFrame])).map
        (fun s => s.2.closed.map fun w => (w.dvtime, w.handed.map (·.frame.data))) =
      some [(-1, [emptyFrame, noonFrame])] := by
    simp only [finishedTape, List.map_cons, List.map_nil, List.cons_append, List.nil_append, exec, if_true,
      step_of_time tapeEnv_emptyFrame, step_of_time tapeEnv_noonFrame]
    rfl
  obtain ⟨s, hs, hclosed⟩ := Option.map_eq_some_iff.mp hexec
  obtain ⟨w, hw, hfields⟩ := List.map_eq_singleton_iff.mp hclosed
  obtain ⟨hdvtime, hdata⟩ := Prod.mk.inj hfields
  refine ⟨s, run_of_exec hs, w, by rw [hw]; exact List.mem_singleton_self w, ?_, hdvtime⟩
  have htimes : recordingTimes tapeEnv w.handed = [-1, 1041422400] := by
    have hmap := congrArg (List.map tapeEnv.getDVRecordingTime) hdata
    simp only [List.map_map, List.map_cons, List.map_nil, tapeEnv_emptyFrame, tapeEnv_noonFrame] at hmap
    exact hmap
  rw [validTimes, htimes]
  rfl

end CaptureLoop

end WinDV
