import WinDV.CaptureLoop
import Mathlib.Logic.Relation

/-! The worker thread in steps of one access to `m_state` or one call that can
throw, so that the dialog can act in between. Uninterrupted, the steps make up
the rounds of the loop. -/

namespace WinDV

open Relation

inductive WorkerPC
  | top
  | get
  | endTest
  | endStore
  | timeoutTest
  | timeoutStore
  | test (f : Frame) (drops : Int32)
  | testFinalizing (f : Frame) (drops : Int32)
  | split (d : DequeuedFrame)
  | openFile (d : DequeuedFrame)
  | write (d : DequeuedFrame)
  | count (d : DequeuedFrame)
  | limitStore
  | noteDropped
  | pauseClose
  | pauseReset
  | exitClose
  | verify
  | returned
  | escaped
  deriving DecidableEq

structure CaptureWorker extends CapturingThread where
  pc : WorkerPC

namespace CaptureWorker

def goOn (r : Except CapturingThread CapturingThread) (next : WorkerPC) : CaptureWorker :=
  match r with
  | .ok t => ⟨t, next⟩
  | .error t => ⟨t, .escaped⟩

def take (t : CapturingThread) (d : DequeuedFrame) : CapturingThread :=
  { t with dequeued := t.dequeued ++ [d] }

/-- The frame when neither test lets it be captured. If `m_state` is Capturing by
the second test, it was CapturePaused at the first. -/
def skipped (t : CapturingThread) (f : Frame) (drops : Int32) : DequeuedFrame :=
  { t.dequeue f drops with state := if t.state = .capturing then .capturePaused else t.state }

def step (env : CaptureEnv) (w : CaptureWorker) (r : Round) : Option CaptureWorker :=
  let t := w.toCapturingThread
  match w.pc with
  | .top => some ⟨t, if t.state = .idle then .exitClose else .get⟩
  | .get =>
    if CaptureLoop.possible env r then
      match r.got with
      | .frame f =>
        some ⟨{ t.noteDVTime env f with driverDropped := r.calls.droppedFrames },
          .test f r.calls.droppedFrames⟩
      | .timeout => some ⟨t, .timeoutTest⟩
      | .endOfStream => some ⟨t, .endTest⟩
    else none
  | .endTest => some ⟨t, if t.state = .idle then .exitClose else .endStore⟩
  | .endStore => some ⟨{ t with state := .finished }, .exitClose⟩
  | .timeoutTest => some ⟨t, if t.state = .capturing then .timeoutStore else .top⟩
  | .timeoutStore =>
    some ⟨{ t with capStats.eStopReason := .signalLost, state := .finished }, .exitClose⟩
  | .test f drops =>
    if t.state = .capturing then some ⟨take t (t.dequeue f drops), .split (t.dequeue f drops)⟩
    else some ⟨t, .testFinalizing f drops⟩
  -- the second half of the test reads `m_state` once more
  | .testFinalizing f drops =>
    if t.state = .captureFinalizing then
      some ⟨take t (t.dequeue f drops), .split (t.dequeue f drops)⟩
    else some ⟨take t (skipped t f drops), .pauseClose⟩
  | .split d => some (goOn (t.splitFile env r.calls.finalize) (.openFile d))
  | .openFile d => some (goOn (t.openWriter env r.calls.created) (.write d))
  | .write d => some (goOn (t.writeFrame env d r.calls.delivery) (.count d))
  | .count d => some ⟨t.countUp d, if (t.countUp d).limitHit then .limitStore else .noteDropped⟩
  | .limitStore => some ⟨t.stopTimed, .noteDropped⟩
  | .noteDropped => some ⟨t.noteDropped, .top⟩
  | .pauseClose => some (goOn (t.closeWriter r.calls.finalize) .pauseReset)
  | .pauseReset => some ⟨t.resetCounters, .top⟩
  | .exitClose => some (goOn (t.closeWriter r.calls.finalize) .verify)
  | .verify => some ⟨t.verifyAndLog env, .returned⟩
  | .returned => none
  | .escaped => none

def start (env : CaptureEnv) (c : CDV) (drops : Int32) : CaptureWorker :=
  ⟨CapturingThread.start env c drops, .top⟩

/-- Steps of the thread alone, where the calls come to what `r` says. -/
def Alone (env : CaptureEnv) (r : Round) (w w' : CaptureWorker) : Prop :=
  ReflTransGen (fun u v => u.step env r = some v) w w'

def ended (s : CaptureLoop) : CaptureWorker :=
  ⟨s.2, match s.1 with
    | .again => .top
    | .returned => .returned
    | .escaped => .escaped⟩

variable {env : CaptureEnv} {t : CapturingThread} {r : Round}

theorem Alone.cons {w w' w'' : CaptureWorker} (hstep : w.step env r = some w')
    (h : Alone env r w' w'') : Alone env r w w'' := ReflTransGen.head hstep h

theorem alone_goOn {w : CaptureWorker} {x : Except CapturingThread CapturingThread}
    {next : WorkerPC} {e : RoundEnd} {k : CapturingThread → Except CapturingThread CapturingThread}
    (hstep : w.step env r = some (goOn x next))
    (hrest : ∀ t', Alone env r ⟨t', next⟩ (ended (CapturingThread.orEscape e (k t')))) :
    Alone env r w (ended (CapturingThread.orEscape e (x >>= k))) := by
  refine Alone.cons hstep ?_
  cases x with
  | error t' => exact ReflTransGen.refl
  | ok t' => exact hrest t'

theorem alone_exit : Alone env r ⟨t, .exitClose⟩ (ended (t.afterLoop env r.calls)) := by
  have hmap (x : Except CapturingThread CapturingThread) :
      x.map (CapturingThread.verifyAndLog env) = x >>= fun t => .ok (t.verifyAndLog env) := by
    cases x <;> rfl
  rw [CapturingThread.afterLoop, hmap]
  refine alone_goOn rfl fun t₁ => ?_
  exact Alone.cons rfl ReflTransGen.refl

theorem alone_count (d : DequeuedFrame) : Alone env r ⟨t, .count d⟩ ⟨t.countFrame d, .top⟩ := by
  cases hlimit : (t.countUp d).limitHit with
  | true =>
    have hstep : step env ⟨t, .count d⟩ r = some ⟨t.countUp d, .limitStore⟩ := by
      simp [step, hlimit]
    have heq : t.countFrame d = (t.countUp d).stopTimed.noteDropped := by
      simp [CapturingThread.countFrame, hlimit]
    rw [heq]
    exact Alone.cons hstep (Alone.cons rfl (Alone.cons rfl ReflTransGen.refl))
  | false =>
    have hstep : step env ⟨t, .count d⟩ r = some ⟨t.countUp d, .noteDropped⟩ := by
      simp [step, hlimit]
    have heq : t.countFrame d = (t.countUp d).noteDropped := by
      simp [CapturingThread.countFrame, hlimit]
    rw [heq]
    exact Alone.cons hstep (Alone.cons rfl ReflTransGen.refl)

theorem alone_capture (d : DequeuedFrame) : Alone env r ⟨t, .split d⟩
    (ended (CapturingThread.orEscape .again (t.captureFrame env d r.calls))) := by
  unfold CapturingThread.captureFrame
  refine alone_goOn rfl fun t₁ => ?_
  refine alone_goOn rfl fun t₂ => ?_
  refine alone_goOn rfl fun t₃ => ?_
  exact alone_count d

theorem alone_pause : Alone env r ⟨t, .pauseClose⟩
    (ended (CapturingThread.orEscape .again (t.pauseFrame r.calls))) := by
  unfold CapturingThread.pauseFrame
  refine alone_goOn rfl fun t₁ => ?_
  exact Alone.cons rfl ReflTransGen.refl

theorem alone_frame (f : Frame) (hgot : r.got = .frame f) :
    Alone env r ⟨t, .get⟩ (ended (t.onFrame env f r.calls)) := by
  have hget : step env ⟨t, .get⟩ r =
      some ⟨{ t.noteDVTime env f with driverDropped := r.calls.droppedFrames },
        .test f r.calls.droppedFrames⟩ := by
    have hpossible : CaptureLoop.possible env r = true := by
      simp [CaptureLoop.possible, hgot]
    simp [step, hpossible, hgot]
  refine Alone.cons hget ?_
  rw [CapturingThread.onFrame_eq, CapturingThread.taken]
  obtain ⟨deltaDVTime, oldDVTime, dvTime, first, last, heq⟩ := t.noteDVTime_eq env f
  rw [heq]
  by_cases hcap : t.state = .capturing
  · have hcaptures : t.state.captures = true := by rw [hcap]; rfl
    rw [if_pos hcaptures]
    exact Alone.cons (if_pos hcap) (alone_capture _)
  · refine Alone.cons (if_neg hcap) ?_
    by_cases hfin : t.state = .captureFinalizing
    · have hcaptures : t.state.captures = true := by rw [hfin]; rfl
      rw [if_pos hcaptures]
      exact Alone.cons (if_pos hfin) (alone_capture _)
    · have hcaptures : ¬ t.state.captures = true := by
        simp [CDVState.captures, hcap, hfin]
      have hskipped : t.dequeue f r.calls.droppedFrames = skipped t f r.calls.droppedFrames := by
        simp [skipped, CapturingThread.dequeue, hcap]
      rw [if_neg hcaptures, hskipped]
      exact Alone.cons (if_neg hfin) alone_pause

/-- A round of the loop is what the thread does when nothing comes in between. -/
theorem alone_round (hpossible : CaptureLoop.possible env r = true) :
    Alone env r ⟨t, .top⟩ (ended (t.round env r)) := by
  unfold CapturingThread.round
  by_cases hidle : t.state = .idle
  · have hstep : step env ⟨t, .top⟩ r = some ⟨t, .exitClose⟩ := by simp [step, hidle]
    rw [if_pos hidle]
    exact Alone.cons hstep alone_exit
  · have hstep : step env ⟨t, .top⟩ r = some ⟨t, .get⟩ := by simp [step, hidle]
    rw [if_neg hidle]
    refine Alone.cons hstep ?_
    cases hgot : r.got with
    | frame f => exact alone_frame f hgot
    | endOfStream =>
      have hget : step env ⟨t, .get⟩ r = some ⟨t, .endTest⟩ := by simp [step, hpossible, hgot]
      have htest : step env ⟨t, .endTest⟩ r = some ⟨t, .endStore⟩ := by simp [step, hidle]
      exact Alone.cons hget (Alone.cons htest (Alone.cons rfl alone_exit))
    | timeout =>
      have hget : step env ⟨t, .get⟩ r = some ⟨t, .timeoutTest⟩ := by simp [step, hpossible, hgot]
      refine Alone.cons hget ?_
      by_cases hcap : t.state = .capturing
      · have htest : step env ⟨t, .timeoutTest⟩ r = some ⟨t, .timeoutStore⟩ := by simp [step, hcap]
        simp only [if_pos hcap]
        exact Alone.cons htest (Alone.cons rfl alone_exit)
      · have htest : step env ⟨t, .timeoutTest⟩ r = some ⟨t, .top⟩ := by simp [step, hcap]
        simp only [if_neg hcap]
        exact Alone.cons htest ReflTransGen.refl

end CaptureWorker

end WinDV
