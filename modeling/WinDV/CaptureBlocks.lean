import WinDV.CapturingThread
import Mathlib.Tactic.Basic

/-! What each part of the capture loop can do when it does not throw, and in
which state it throws. -/

namespace WinDV

namespace CapturingThread

variable {env : CaptureEnv} {t t' : CapturingThread} {d : DequeuedFrame}

theorem exists_of_bind_ok {ε α β : Type} {x : Except ε α} {f : α → Except ε β} {b : β}
    (h : (x >>= f) = .ok b) : ∃ a, x = .ok a ∧ f a = .ok b := by
  cases x with
  | error e => cases h
  | ok a => exact ⟨a, rfl, h⟩

theorem noteDVTime_eq (env : CaptureEnv) (t : CapturingThread) (f : Frame) :
    ∃ deltaDVTime oldDVTime dvTime first last, t.noteDVTime env f = { t with
      deltaDVTime := deltaDVTime
      oldDVTime := oldDVTime
      dvTime := dvTime
      capStats.tFirstRecTime := first
      capStats.tLastRecTime := last } := by
  unfold noteDVTime
  by_cases hsame : t.dvTime ≠ env.getDVRecordingTime f.data
  · by_cases hpos : env.getDVRecordingTime f.data > 0
    · simp only [if_pos hsame, if_pos hpos]
      exact ⟨_, _, _, _, _, rfl⟩
    · simp only [if_pos hsame, if_neg hpos]
      exact ⟨_, _, _, _, _, rfl⟩
  · simp only [if_neg hsame]
    exact ⟨_, _, _, _, _, rfl⟩

theorem closeWriter_eq_ok {o : Finalization} (h : t.closeWriter o = .ok t') :
    (t.aviWriter = none ∧ t' = t) ∨
    ∃ w w' phase, t.aviWriter = some w ∧ w.finalizeFile o = .ok w' ∧
      t' = { t with
        finalizePhase := phase
        finalizedFiles :=
          if w'.finalfile ≠ [] then t.finalizedFiles ++ [w'.finalfile] else t.finalizedFiles
        closed := t.closed ++ [w']
        aviWriter := none } := by
  unfold closeWriter CDV.closeAVIWriter at h
  cases hw : t.aviWriter with
  | none =>
    rw [hw] at h
    exact .inl ⟨rfl, (Except.ok.inj h).symm⟩
  | some w =>
    right
    rw [hw] at h
    dsimp only at h
    cases hf : w.finalizeFile o with
    | error w' =>
      rw [hf] at h
      cases h
    | ok w' =>
      rw [hf] at h
      exact ⟨w, w', _, rfl, hf, (Except.ok.inj h).symm⟩

theorem closeWriter_eq_error {o : Finalization} (h : t.closeWriter o = .error t') :
    ∃ w w' phase, t.aviWriter = some w ∧ w.finalizeFile o = .error w' ∧
      t' = { t with finalizePhase := phase, aviWriter := some w' } := by
  unfold closeWriter CDV.closeAVIWriter at h
  cases hw : t.aviWriter with
  | none =>
    rw [hw] at h
    cases h
  | some w =>
    rw [hw] at h
    dsimp only at h
    cases hf : w.finalizeFile o with
    | ok w' =>
      rw [hf] at h
      cases h
    | error w' =>
      rw [hf] at h
      exact ⟨w, w', _, rfl, hf, (Except.error.inj h).symm⟩

theorem splitFile_eq_ok {o : Finalization} (h : t.splitFile env o = .ok t') :
    (t.splits env = false ∧ t' = t) ∨ (t.splits env = true ∧ t.closeWriter o = .ok t') := by
  unfold splitFile at h
  cases hs : t.splits env with
  | false =>
    rw [hs, if_neg Bool.false_ne_true] at h
    exact .inl ⟨rfl, (Except.ok.inj h).symm⟩
  | true =>
    rw [hs, if_pos rfl] at h
    exact .inr ⟨rfl, h⟩

theorem splitFile_eq_error {o : Finalization} (h : t.splitFile env o = .error t') :
    t.closeWriter o = .error t' := by
  unfold splitFile at h
  cases hs : t.splits env with
  | false =>
    rw [hs, if_neg Bool.false_ne_true] at h
    cases h
  | true =>
    rw [hs, if_pos rfl] at h
    exact h

theorem openWriter_eq_ok {created : Option Path} (h : t.openWriter env created = .ok t') :
    (t.aviWriter.isSome = true ∧ t' = t) ∨
    (t.aviWriter = none ∧ ∃ tmpfile, created = some tmpfile ∧ t' = { t with
      aviWriter := some ⟨t.captureFilename, t.dtformat, t.ndigits, t.dvTime, env.type2AVI,
        tmpfile, [], 0, [], [], 0⟩
      nFrames := 0
      frameCounter := 0 }) := by
  unfold openWriter at h
  cases hw : t.aviWriter with
  | some w =>
    rw [hw, Option.isSome_some, if_pos rfl] at h
    exact .inl ⟨rfl, (Except.ok.inj h).symm⟩
  | none =>
    rw [hw, Option.isSome_none, if_neg Bool.false_ne_true] at h
    cases hc : created with
    | none =>
      rw [hc] at h
      cases h
    | some tmpfile =>
      rw [hc] at h
      exact .inr ⟨rfl, tmpfile, rfl, (Except.ok.inj h).symm⟩

theorem openWriter_eq_error {created : Option Path} (h : t.openWriter env created = .error t') :
    t' = t := by
  unfold openWriter at h
  split at h
  · cases h
  · split at h
    · exact (Except.error.inj h).symm
    · cases h

theorem openWriter_isSome {created : Option Path} (h : t.openWriter env created = .ok t') :
    t'.aviWriter.isSome = true := by
  rcases openWriter_eq_ok h with ⟨hw, rfl⟩ | ⟨-, tmpfile, -, rfl⟩
  · exact hw
  · rfl

theorem writeFrame_eq_ok {o : Delivery} (h : t.writeFrame env d o = .ok t') :
    ((t.aviWriter = none ∨ t.frameCounter.toUInt32 % env.everyNth ≠ 0) ∧ t' = t) ∨
    ∃ w w', t.aviWriter = some w ∧ t.frameCounter.toUInt32 % env.everyNth = 0 ∧
      w.handleFrame d o = some w' ∧
      t' = { t with aviWriter := some w', nFrames := t.nFrames + 1 } := by
  unfold writeFrame at h
  cases hw : t.aviWriter with
  | none =>
    rw [hw] at h
    exact .inl ⟨.inl rfl, (Except.ok.inj h).symm⟩
  | some w =>
    rw [hw] at h
    dsimp only at h
    by_cases hn : t.frameCounter.toUInt32 % env.everyNth = 0
    · rw [if_pos hn] at h
      cases hf : w.handleFrame d o with
      | none =>
        rw [hf] at h
        cases h
      | some w' =>
        rw [hf] at h
        exact .inr ⟨w, w', rfl, hn, hf, (Except.ok.inj h).symm⟩
    · rw [if_neg hn] at h
      exact .inl ⟨.inr hn, (Except.ok.inj h).symm⟩

theorem writeFrame_eq_error {o : Delivery} (h : t.writeFrame env d o = .error t') : t' = t := by
  unfold writeFrame at h
  split at h
  · cases h
  · split at h
    · split at h
      · exact (Except.error.inj h).symm
      · cases h
    · cases h

theorem countFrame_eq (t : CapturingThread) (d : DequeuedFrame) :
    ∃ state captureTime reason, (state = t.state ∨ state = .finished) ∧
      t.countFrame d = { t with
        aviWriter := t.aviWriter.map (·.backfill t.dvTime)
        frameCounter := t.frameCounter + 1
        counter := t.counter + 1
        time := t.time + d.frame.duration
        counted := t.counted ++ [(d, t.counter + 1, t.time + d.frame.duration)]
        dropped := t.driverDropped - t.droppedBase
        state := state
        captureTime := captureTime
        capStats.eStopReason := reason } := by
  cases h : (t.countUp d).limitHit with
  | true =>
    refine ⟨.finished, 0, .timed, .inr rfl, ?_⟩
    rw [countFrame, h]
    rfl
  | false =>
    refine ⟨t.state, t.captureTime, t.capStats.eStopReason, .inl rfl, ?_⟩
    rw [countFrame, h]
    rfl

theorem resetCounters_eq (t : CapturingThread) :
    t.resetCounters = { t with
      droppedBase := t.driverDropped
      dropped := if t.state = .finished then t.dropped else 0
      counter := if t.state = .finished then t.counter else 0
      time := if t.state = .finished then t.time else 0 } := by
  unfold resetCounters
  by_cases h : t.state = .finished
  · simp only [h, ne_eq, not_true_eq_false, if_true, if_false]
    rw [← h]
  · simp only [h, ne_eq, not_false_eq_true, if_true, if_false]

theorem captureFrame_eq_ok {calls : Calls} (h : t.captureFrame env d calls = .ok t') :
    ∃ t₁ t₂ t₃, t.splitFile env calls.finalize = .ok t₁ ∧
      t₁.openWriter env calls.created = .ok t₂ ∧
      t₂.writeFrame env d calls.delivery = .ok t₃ ∧ t' = t₃.countFrame d := by
  obtain ⟨t₁, h₁, h⟩ := exists_of_bind_ok h
  obtain ⟨t₂, h₂, h⟩ := exists_of_bind_ok h
  obtain ⟨t₃, h₃, h⟩ := exists_of_bind_ok h
  exact ⟨t₁, t₂, t₃, h₁, h₂, h₃, (Except.ok.inj h).symm⟩

theorem pauseFrame_eq_ok {calls : Calls} (h : t.pauseFrame calls = .ok t') :
    ∃ t₁, t.closeWriter calls.finalize = .ok t₁ ∧ t' = t₁.resetCounters := by
  obtain ⟨t₁, h₁, h⟩ := exists_of_bind_ok h
  exact ⟨t₁, h₁, (Except.ok.inj h).symm⟩

theorem verifyAndLog_eq (env : CaptureEnv) (t : CapturingThread) :
    ∃ phase last capStats log, t.verifyAndLog env = { t with
      finalizePhase := phase
      lastCheckResult := last
      capStats := capStats
      log := log } := by
  unfold verifyAndLog
  by_cases h : t.finalizedFiles.length > 0
  · exact ⟨_, _, _, _, if_pos h⟩
  · exact ⟨t.finalizePhase, t.lastCheckResult, t.capStats, t.log, if_neg h⟩

end CapturingThread

end WinDV
