import WinDV.CaptureBlocks
import WinDV.Transition

/-! Runs of the capture loop, with the commands of the dialog between its
rounds. -/

namespace WinDV

open Transition

inductive Command
  | start (a : StartArgs)
  | stop
  | finalize
  | destroy
  deriving DecidableEq, Repr

/-- A command up to where it waits for the worker thread, if it does. -/
def CDV.command (c : CDV) : Command → CDV
  | .start a => c.startCapturing a
  | .stop => c.stopCapturing
  | .finalize => c.finalizeCapturing
  | .destroy => { c with state := .idle }

inductive CaptureAction
  | command (c : Command)
  | round (r : Round)
  deriving DecidableEq

/-- The worker thread: how its last round ended, and its state. -/
abbrev CaptureLoop := RoundEnd × CapturingThread

namespace CaptureLoop

/-- `Get` without a timeout returns false at the end of the stream only. -/
def possible (env : CaptureEnv) (r : Round) : Bool :=
  r.got != .timeout || env.autoStopTimeout > 0

def step (env : CaptureEnv) (s : CaptureLoop) : CaptureAction → Option CaptureLoop
  | .command c => some (s.1, { s.2 with toCDV := s.2.toCDV.command c })
  | .round r => if s.1 = .again ∧ possible env r = true then some (s.2.round env r) else none

def start (env : CaptureEnv) (c : CDV) (drops : Int32) : CaptureLoop :=
  (.again, CapturingThread.start env c drops)

theorem step_command {env : CaptureEnv} {s s' : CaptureLoop} {c : Command}
    (h : step env s (.command c) = some s') :
    s' = (s.1, { s.2 with toCDV := s.2.toCDV.command c }) := (Option.some.inj h).symm

theorem step_round {env : CaptureEnv} {s s' : CaptureLoop} {r : Round}
    (h : step env s (.round r) = some s') : s.1 = .again ∧ s' = s.2.round env r := by
  unfold step at h
  by_cases hr : s.1 = .again ∧ possible env r = true
  · simp only [if_pos hr] at h
    exact ⟨hr.1, (Option.some.inj h).symm⟩
  · simp only [if_neg hr] at h
    cases h

/-- Options for frames too short to carry a recording time, with no readable file. -/
def shortFrameEnv (maxAVIFrames : UInt32) : CaptureEnv where
  type2AVI := true
  discontinuityTreshold := 1
  maxAVIFrames := maxAVIFrames
  everyNth := 1
  everyNth_ne := by decide
  autoStopTimeout := 0
  enableSHA256 := false
  isPAL := true
  getDVRecordingTime _ := -1
  checkAVIIntegrity _ := WinDV.checkAVIIntegrity .accessDenied
  computeFileSHA256 _ := none

def plainCalls : Calls :=
  ⟨.completed ⟨"C:\\tape.00.avi".toList, by decide⟩ true, some ⟨"C:\\~tape.00.avi".toList, by decide⟩,
    .delivered, 0⟩

def shortFrame (x : UInt8) : Round := ⟨.frame ⟨400000, [x]⟩, plainCalls⟩

def plainSplit : List CaptureAction :=
  [.command (.start ⟨"C:\\tape.avi".toList, [], 0, 0⟩), .round (shortFrame 1),
    .round (shortFrame 2), .command .finalize, .round ⟨.endOfStream, plainCalls⟩]

end CaptureLoop

theorem CDV.command_eq (c : CDV) (k : Command) :
    ∃ state phase captureTime captureFilename dtformat ndigits starts,
      c.command k = { c with
        state := state
        finalizePhase := phase
        captureTime := captureTime
        captureFilename := captureFilename
        dtformat := dtformat
        ndigits := ndigits
        starts := starts } := by
  cases k with
  | start a =>
    unfold CDV.command CDV.startCapturing
    by_cases h : c.state = .capturePaused
    · exact ⟨_, _, _, _, _, _, _, if_pos h⟩
    · exact ⟨c.state, _, _, _, _, _, _, if_neg h⟩
  | stop =>
    unfold CDV.command CDV.stopCapturing
    by_cases h : c.state = .capturing
    · exact ⟨_, _, _, _, _, _, _, if_pos h⟩
    · exact ⟨c.state, _, _, _, _, _, _, if_neg h⟩
  | finalize =>
    unfold CDV.command CDV.finalizeCapturing
    by_cases h : c.state ≠ .capturing ∧ c.state ≠ .capturePaused
    · exact ⟨c.state, _, _, _, _, _, _, if_pos h⟩
    · exact ⟨_, _, _, _, _, _, _, if_neg h⟩
  | destroy => exact ⟨_, _, _, _, _, _, _, rfl⟩

/-- No command leads out of Idle or Finished back to a capture. -/
theorem CDV.command_over {c : CDV} (h : c.state = .idle ∨ c.state = .finished) (k : Command) :
    (c.command k).state = .idle ∨ (c.command k).state = .finished := by
  rcases h with hs | hs <;> cases k <;>
    simp [CDV.command, CDV.startCapturing, CDV.stopCapturing, CDV.finalizeCapturing, hs]

namespace CapturingThread

variable {env : CaptureEnv} {t : CapturingThread}

def lastCaptured (t : CapturingThread) : Bool :=
  (t.dequeued.getLast?.map (·.state.captures)).getD false

def taken (env : CaptureEnv) (t : CapturingThread) (f : Frame) (drops : Int32) : CapturingThread :=
  { t.noteDVTime env f with
    driverDropped := drops
    dequeued := t.dequeued ++ [t.dequeue f drops] }

theorem onFrame_eq (f : Frame) (calls : Calls) :
    t.onFrame env f calls = orEscape .again
      (if t.state.captures then (t.taken env f calls.droppedFrames).captureFrame env (t.dequeue f calls.droppedFrames) calls
        else (t.taken env f calls.droppedFrames).pauseFrame calls) := rfl

theorem round_cases (env : CaptureEnv) (t : CapturingThread) (r : Round) :
    (∃ t', t.round env r = t'.afterLoop env r.calls ∧ ((t.state = .idle ∧ t' = t) ∨
      ∃ reason, t' = { t with capStats.eStopReason := reason, state := .finished })) ∨
    t.round env r = (.again, t) ∨
    ∃ f, r.got = .frame f ∧ t.state ≠ .idle ∧ t.round env r = t.onFrame env f r.calls := by
  unfold round
  by_cases hidle : t.state = .idle
  · exact .inl ⟨t, if_pos hidle, .inl ⟨hidle, rfl⟩⟩
  · rw [if_neg hidle]
    cases hgot : r.got with
    | endOfStream => exact .inl ⟨_, rfl, .inr ⟨t.capStats.eStopReason, rfl⟩⟩
    | timeout =>
      by_cases hcap : t.state = .capturing
      · exact .inl ⟨_, if_pos hcap, .inr ⟨.signalLost, rfl⟩⟩
      · exact .inr (.inl (if_neg hcap))
    | frame f => exact .inr (.inr ⟨f, rfl, hidle, rfl⟩)

theorem afterLoop_cases (env : CaptureEnv) (t : CapturingThread) (calls : Calls) :
    (∃ t', t.closeWriter calls.finalize = .ok t' ∧
      t.afterLoop env calls = (.returned, t'.verifyAndLog env)) ∨
    ∃ t', t.closeWriter calls.finalize = .error t' ∧ t.afterLoop env calls = (.escaped, t') := by
  unfold afterLoop
  cases hc : t.closeWriter calls.finalize with
  | ok t' => exact .inl ⟨t', rfl, rfl⟩
  | error t' => exact .inr ⟨t', rfl, rfl⟩

theorem onFrame_cases (env : CaptureEnv) (t : CapturingThread) (f : Frame) (calls : Calls) :
    (t.state.captures = true ∧ ∃ t',
      (t.taken env f calls.droppedFrames).captureFrame env (t.dequeue f calls.droppedFrames) calls = .ok t' ∧
      t.onFrame env f calls = (.again, t')) ∨
    (t.state.captures = false ∧ ∃ t', (t.taken env f calls.droppedFrames).pauseFrame calls = .ok t' ∧
      t.onFrame env f calls = (.again, t')) ∨
    ∃ t', t.onFrame env f calls = (.escaped, t') := by
  rw [onFrame_eq]
  cases hcap : t.state.captures with
  | true =>
    rw [if_pos rfl]
    cases hc : (t.taken env f calls.droppedFrames).captureFrame env (t.dequeue f calls.droppedFrames) calls with
    | ok t' => exact .inl ⟨rfl, t', rfl, rfl⟩
    | error t' => exact .inr (.inr ⟨t', rfl⟩)
  | false =>
    rw [if_neg Bool.false_ne_true]
    cases hc : (t.taken env f calls.droppedFrames).pauseFrame calls with
    | ok t' => exact .inr (.inl ⟨rfl, t', rfl, rfl⟩)
    | error t' => exact .inr (.inr ⟨t', rfl⟩)

end CapturingThread

end WinDV
