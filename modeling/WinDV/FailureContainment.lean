import WinDV.CaptureLoop

/-! Which calls of the worker thread throw, and what becomes of the session
when one of them does. -/

namespace WinDV

open Transition

def Finalization.completes : Finalization → Bool
  | .completed _ _ => true
  | _ => false

theorem CAVIWriter.finalizeFile_isOk (w : CAVIWriter) (o : Finalization) :
    (w.finalizeFile o).isOk = !(w.finalfile == [] && !o.completes) := by
  unfold finalizeFile
  by_cases h : w.finalfile = []
  · rw [if_neg (fun hne => hne h), h]
    cases o <;> rfl
  · rw [if_pos h, beq_eq_false_iff_ne.mpr h]
    rfl

/-- The row accounts for the given files: they were checked, the verdict is
about all of them, and every hash that could be computed was written. -/
structure LogRow.Accounts (env : CaptureEnv) (row : LogRow) (files : List CString) : Prop where
  checked : row.checked = files
  verdict : row.capStats.bCheckPassed = true ↔ ∀ p ∈ files, (env.checkAVIIntegrity p).isOK = true
  hashed : env.enableSHA256 = true → ∀ p ∈ files, ∀ hash, env.computeFileSHA256 p = some hash →
    ⟨p ++ ".sha256".toList, hash, bareName p⟩ ∈ row.sidecars

namespace CapturingThread

variable {env : CaptureEnv} {t t' : CapturingThread} {d : DequeuedFrame}

def closeThrows (t : CapturingThread) (o : Finalization) : Bool :=
  t.aviWriter.any fun w => w.finalfile == [] && !o.completes

/-- A split, a new file and the writing of the frame, in that order. -/
def captureThrows (env : CaptureEnv) (t : CapturingThread) (calls : Calls) : Bool :=
  let opens := t.aviWriter.isNone || t.splits env
  (t.splits env && t.closeThrows calls.finalize) || (opens && calls.created.isNone) ||
    ((opens || t.frameCounter.toUInt32 % env.everyNth == 0) && calls.delivery == .noBuffer)

def throws (env : CaptureEnv) (t : CapturingThread) (r : Round) : Bool :=
  if t.state = .idle then t.closeThrows r.calls.finalize
  else
    match r.got with
    | .endOfStream => t.closeThrows r.calls.finalize
    | .timeout => t.state == .capturing && t.closeThrows r.calls.finalize
    | .frame f =>
      if t.state.captures then (t.taken env f r.calls.droppedFrames).captureThrows env r.calls
      else (t.taken env f r.calls.droppedFrames).closeThrows r.calls.finalize

theorem closeWriter_isOk (t : CapturingThread) (o : Finalization) :
    (t.closeWriter o).isOk = !t.closeThrows o := by
  unfold closeWriter CDV.closeAVIWriter closeThrows
  cases hw : t.aviWriter with
  | none => rfl
  | some w =>
    have hf := w.finalizeFile_isOk o
    dsimp only
    cases hr : w.finalizeFile o with
    | error w' =>
      rw [hr] at hf
      exact hf
    | ok w' =>
      rw [hr] at hf
      exact hf

theorem openWriter_isOk (t : CapturingThread) (created : Option Path) :
    (t.openWriter env created).isOk = !(t.aviWriter.isNone && created.isNone) := by
  unfold openWriter
  cases t.aviWriter with
  | some w => rfl
  | none => cases created <;> rfl

theorem writeFrame_isOk {w : CAVIWriter} (hw : t.aviWriter = some w) (o : Delivery) :
    (t.writeFrame env d o).isOk =
      !(t.frameCounter.toUInt32 % env.everyNth == 0 && o == .noBuffer) := by
  unfold writeFrame
  rw [hw]
  dsimp only
  by_cases hn : t.frameCounter.toUInt32 % env.everyNth = 0
  · rw [if_pos hn, hn]
    cases o <;> rfl
  · rw [if_neg hn, beq_eq_false_iff_ne.mpr hn]
    rfl

theorem isOk_bind {ε α β : Type} (x : Except ε α) (f : α → Except ε β) {b c : Bool}
    (hx : x.isOk = !b) (hf : ∀ a, x = .ok a → (f a).isOk = !c) : (x >>= f).isOk = !(b || c) := by
  cases x with
  | error e =>
    cases b with
    | true => rfl
    | false => cases hx
  | ok a =>
    cases b with
    | true => cases hx
    | false => exact hf a rfl

theorem splitFile_isOk (t : CapturingThread) (o : Finalization) :
    (t.splitFile env o).isOk = !(t.splits env && t.closeThrows o) := by
  unfold splitFile
  cases t.splits env with
  | true => exact t.closeWriter_isOk o
  | false => rfl

/-- After the split a file has to be opened when there was none or it was closed. -/
theorem splitFile_isNone {o : Finalization} (h : t.splitFile env o = .ok t') :
    t'.aviWriter.isNone = (t.aviWriter.isNone || t.splits env) ∧
      t'.frameCounter = t.frameCounter := by
  rcases splitFile_eq_ok h with ⟨hs, rfl⟩ | ⟨hs, hc⟩
  · rw [hs, Bool.or_false]
    exact ⟨rfl, rfl⟩
  · rw [hs, Bool.or_true]
    rcases closeWriter_eq_ok hc with ⟨hw, rfl⟩ | ⟨w, w', phase, -, -, rfl⟩
    · rw [hw]
      exact ⟨rfl, rfl⟩
    · exact ⟨rfl, rfl⟩

/-- The first frame of a file is written, whatever `everyNth` is. -/
theorem openWriter_writes {created : Option Path} (h : t.openWriter env created = .ok t') :
    (t'.frameCounter.toUInt32 % env.everyNth == 0) =
      (t.aviWriter.isNone || t.frameCounter.toUInt32 % env.everyNth == 0) := by
  rcases openWriter_eq_ok h with ⟨hw, rfl⟩ | ⟨hw, tmpfile, -, rfl⟩
  · obtain ⟨w, hw⟩ := Option.isSome_iff_exists.mp hw
    rw [hw]
    rfl
  · rw [hw]
    exact beq_iff_eq.mpr UInt32.zero_mod

theorem captureFrame_isOk (t : CapturingThread) (d : DequeuedFrame) (calls : Calls) :
    (t.captureFrame env d calls).isOk = !t.captureThrows env calls := by
  unfold captureFrame captureThrows
  rw [Bool.or_assoc]
  refine isOk_bind _ _ (t.splitFile_isOk calls.finalize) fun t₁ h₁ => ?_
  obtain ⟨hnone, hcount⟩ := splitFile_isNone h₁
  rw [← hnone, ← hcount]
  refine isOk_bind _ _ (t₁.openWriter_isOk calls.created) fun t₂ h₂ => ?_
  obtain ⟨w, hw⟩ := Option.isSome_iff_exists.mp (openWriter_isSome h₂)
  rw [← openWriter_writes h₂]
  rw [← Bool.or_false (_ && _)]
  exact isOk_bind _ _ (writeFrame_isOk hw calls.delivery) fun _ _ => rfl

theorem pauseFrame_isOk (t : CapturingThread) (calls : Calls) :
    (t.pauseFrame calls).isOk = !t.closeThrows calls.finalize := by
  unfold pauseFrame
  rw [← Bool.or_false (t.closeThrows _)]
  exact isOk_bind _ _ (t.closeWriter_isOk calls.finalize) fun _ _ => rfl

theorem orEscape_escaped (r : Except CapturingThread CapturingThread) {e : RoundEnd}
    (he : e ≠ .escaped) : (orEscape e r).1 = .escaped ↔ r.isOk = false := by
  cases r with
  | ok t => exact ⟨fun h => absurd h he, nofun⟩
  | error t => exact ⟨fun _ => rfl, fun _ => rfl⟩

theorem afterLoop_escaped (t : CapturingThread) (calls : Calls) :
    (t.afterLoop env calls).1 = .escaped ↔ t.closeThrows calls.finalize = true := by
  have hmap (r : Except CapturingThread CapturingThread) : (r.map (verifyAndLog env)).isOk = r.isOk := by
    cases r <;> rfl
  rw [afterLoop, orEscape_escaped _ (by decide), hmap, closeWriter_isOk, Bool.not_eq_false']

/-- An exception leaves the thread exactly when a call of the round throws. -/
theorem round_escaped (t : CapturingThread) (r : Round) :
    (t.round env r).1 = .escaped ↔ t.throws env r = true := by
  unfold round throws
  by_cases hidle : t.state = .idle
  · rw [if_pos hidle, if_pos hidle]
    exact t.afterLoop_escaped r.calls
  · rw [if_neg hidle, if_neg hidle]
    cases hgot : r.got with
    | endOfStream => exact afterLoop_escaped _ r.calls
    | timeout =>
      dsimp only
      by_cases hcap : t.state = .capturing
      · rw [if_pos hcap, hcap]
        exact afterLoop_escaped _ r.calls
      · rw [if_neg hcap, beq_eq_false_iff_ne.mpr hcap]
        exact ⟨nofun, nofun⟩
    | frame f =>
      dsimp only
      rw [onFrame_eq, orEscape_escaped _ (by decide)]
      cases hcap : t.state.captures with
      | true =>
        rw [if_pos rfl, if_pos rfl, captureFrame_isOk, Bool.not_eq_false']
      | false =>
        rw [if_neg Bool.false_ne_true, if_neg Bool.false_ne_true, pauseFrame_isOk, Bool.not_eq_false']

theorem verifyAndLog_accounts (env : CaptureEnv) (t : CapturingThread) (h : t.finalizedFiles ≠ []) :
    ∃ row ∈ (t.verifyAndLog env).log, row.Accounts env t.finalizedFiles := by
  unfold verifyAndLog
  rw [if_pos (List.length_pos_iff.mpr h)]
  refine ⟨_, List.mem_append_right _ List.mem_cons_self, rfl, ?_, ?_⟩
  · rw [verifyFiles_bCheckPassed]
    simp [h]
  · intro hsha p hp hash hhash
    dsimp only
    rw [hsha, verifyFiles_sidecars, List.mem_flatMap]
    exact ⟨_, List.mem_map_of_mem hp, by simp [FinalizedFile.sidecar, hhash]⟩

/-- The thread is past its loop, and the finalized files are in the log. -/
def Over (env : CaptureEnv) (t : CapturingThread) : Prop :=
  (t.state = .idle ∨ t.state = .finished) ∧
  (t.finalizedFiles ≠ [] → ∃ row ∈ t.log, row.Accounts env t.finalizedFiles)

theorem afterLoop_over (hstate : t.state = .idle ∨ t.state = .finished) {calls : Calls}
    (h : (t.afterLoop env calls).1 ≠ .escaped) :
    (t.afterLoop env calls).1 = .returned ∧ Over env (t.afterLoop env calls).2 := by
  rcases t.afterLoop_cases env calls with ⟨t', hc, heq⟩ | ⟨t', -, heq⟩
  · rw [heq]
    have hkeep : t'.state = t.state := by
      rcases closeWriter_eq_ok hc with ⟨-, rfl⟩ | ⟨w, w', phase, -, -, rfl⟩
      · rfl
      · rfl
    have hacc := t'.verifyAndLog_accounts env
    obtain ⟨phase, last, capStats, log, hv⟩ := t'.verifyAndLog_eq env
    rw [hv] at hacc
    rw [hv]
    exact ⟨rfl, by rw [← hkeep] at hstate; exact hstate, hacc⟩
  · rw [heq] at h
    exact absurd rfl h

theorem round_over {r : Round} (h : (t.round env r).1 ≠ .escaped) :
    (t.round env r).1 = .again ∨ ((t.round env r).1 = .returned ∧ Over env (t.round env r).2) := by
  rcases t.round_cases env r with ⟨t', heq, ht'⟩ | heq | ⟨f, -, -, heq⟩
  · rw [heq] at h ⊢
    refine .inr (afterLoop_over ?_ h)
    rcases ht' with ⟨hidle, rfl⟩ | ⟨reason, rfl⟩
    · exact .inl hidle
    · exact .inr rfl
  · rw [heq]
    exact .inl rfl
  · rw [heq] at h ⊢
    rcases t.onFrame_cases env f r.calls with ⟨-, t', -, hf⟩ | ⟨-, t', -, hf⟩ | ⟨t', hf⟩
    · rw [hf]
      exact .inl rfl
    · rw [hf]
      exact .inl rfl
    · rw [hf] at h
      exact absurd rfl h

theorem Over.command (h : Over env t) (k : Command) :
    Over env { t with toCDV := t.toCDV.command k } := by
  obtain ⟨hstate, hlog⟩ := h
  have hkeep := CDV.command_over hstate k
  obtain ⟨state, phase, captureTime, captureFilename, dtformat, ndigits, starts, heq⟩ :=
    t.toCDV.command_eq k
  rw [heq] at hkeep
  rw [heq]
  exact ⟨hkeep, hlog⟩

end CapturingThread

namespace CaptureLoop

variable {env : CaptureEnv} {s s' : CaptureLoop}

def callThrows (env : CaptureEnv) (s : CaptureLoop) : CaptureAction → Bool
  | .command _ => false
  | .round r => s.2.throws env r

/-- No exception left the thread. Once it is past its loop, it captures no more
and the finalized files are accounted for. -/
structure FailuresContained (env : CaptureEnv) (s : CaptureLoop) : Prop where
  notEscaped : s.1 ≠ .escaped
  stopped : s.1 ≠ .again → s.2.state.captures = false
  logged : s.1 ≠ .again → s.2.finalizedFiles ≠ [] →
    ∃ row ∈ s.2.log, row.Accounts env s.2.finalizedFiles

def Sound (env : CaptureEnv) (s : CaptureLoop) : Prop :=
  s.1 = .again ∨ (s.1 = .returned ∧ CapturingThread.Over env s.2)

theorem Sound.step (h : Sound env s) {a : CaptureAction} (hok : ¬ callThrows env s a = true)
    (hstep : step env s a = some s') : Sound env s' := by
  cases a with
  | command k =>
    rw [step_command hstep]
    rcases h with hag | ⟨hret, hover⟩
    · exact .inl hag
    · exact .inr ⟨hret, hover.command k⟩
  | round r =>
    rw [(step_round hstep).2]
    exact CapturingThread.round_over fun hesc => hok ((s.2.round_escaped r).mp hesc)

theorem Sound.contained (h : Sound env s) : FailuresContained env s := by
  rcases h with hag | ⟨hret, hstate, hlog⟩
  · refine ⟨?_, fun hne => absurd hag hne, fun hne => absurd hag hne⟩
    rw [hag]
    decide
  · refine ⟨?_, fun _ => ?_, fun _ => hlog⟩
    · rw [hret]
      decide
    · rcases hstate with hs | hs <;> rw [hs] <;> rfl

theorem callThrows_of_step {a : CaptureAction} (hstep : step env s a = some s')
    (h : s'.1 ≠ .escaped) : s.1 ≠ .escaped ∧ ¬ callThrows env s a = true := by
  cases a with
  | command k =>
    rw [step_command hstep] at h
    exact ⟨h, Bool.false_ne_true⟩
  | round r =>
    obtain ⟨hag, heq⟩ := step_round hstep
    rw [heq] at h
    refine ⟨?_, fun hthrow => h ((s.2.round_escaped r).mpr hthrow)⟩
    rw [hag]
    decide

/-- A failure is contained in no run: the session ends well exactly as long
as none of the calls of the worker thread throws. -/
theorem failures_contained_iff (env : CaptureEnv) (captureFilename dtformat : CString)
    (ndigits : Int32) (last : AVICheckResult) (drops : Int32) {acts : List CaptureAction}
    {s : CaptureLoop} (hrun : Run (step env) (fun _ _ => True)
      (start env (.buildCapturing captureFilename dtformat ndigits last) drops) acts s) :
    FailuresContained env s ↔ Run (step env) (fun u a => ¬ callThrows env u a = true)
      (start env (.buildCapturing captureFilename dtformat ndigits last) drops) acts s := by
  constructor
  · intro h
    have hback : ∀ t a u, u.1 ≠ .escaped → step env t a = some u →
        t.1 ≠ .escaped ∧ ¬ callThrows env t a = true :=
      fun t a u hu hstep => callThrows_of_step hstep hu
    exact hrun.backward hback h.notEscaped
  · intro h
    have hkeep : ∀ t a u, Sound env t → ¬ callThrows env t a = true → step env t a = some u →
        Sound env u := fun t a u hsound hok hstep => hsound.step hok hstep
    exact (h.invariant hkeep (.inl rfl)).contained

/-- The frames go into files of at most one frame, and the second file cannot
be created. -/
def failedSplit : List CaptureAction :=
  [.command (.start ⟨"C:\\tape.avi".toList, [], 0, 0⟩), .round (shortFrame 1),
    .round ⟨.frame ⟨400000, [2]⟩, { plainCalls with created := none }⟩]

theorem failedSplit_uncontained : ∃ s : CaptureLoop,
    Run (step (shortFrameEnv 1)) (fun _ _ => True)
      (start (shortFrameEnv 1) (.buildCapturing [] [] 0 {}) 0) failedSplit s ∧
    s.1 = .escaped ∧ s.2.state = .capturing ∧ s.2.finalizedFiles = ["C:\\tape.00.avi".toList] ∧
    s.2.log = [] ∧ ¬ FailuresContained (shortFrameEnv 1) s := by
  have hrun : Run (step (shortFrameEnv 1)) (fun _ _ => True)
    (start (shortFrameEnv 1) (.buildCapturing [] [] 0 {}) 0) failedSplit _ := run_of_exec rfl
  exact ⟨_, hrun, rfl, rfl, rfl, rfl, fun h => h.notEscaped rfl⟩

theorem plainSplit_contained : ∃ s : CaptureLoop,
    Run (step (shortFrameEnv 1)) (fun _ _ => True)
      (start (shortFrameEnv 1) (.buildCapturing [] [] 0 {}) 0) plainSplit s ∧
    s.1 = .returned ∧ FailuresContained (shortFrameEnv 1) s := by
  have hrun : Run (step (shortFrameEnv 1)) (fun _ _ => True)
    (start (shortFrameEnv 1) (.buildCapturing [] [] 0 {}) 0) plainSplit _ := run_of_exec rfl
  exact ⟨_, hrun, rfl, (failures_contained_iff _ _ _ _ _ _ hrun).mpr (run_of_exec rfl)⟩

end CaptureLoop

end WinDV
