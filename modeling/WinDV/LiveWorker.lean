import WinDV.CaptureWorker
import WinDV.FailureContainment

/-! The dialog and the worker thread, each in steps of one access to `m_state`,
and which of them is alive in a capture state. -/

namespace WinDV

open Relation Transition

namespace CaptureWorker

variable {env : CaptureEnv} {w w' : CaptureWorker} {r : Round}

def left (w : CaptureWorker) : Bool :=
  match w.pc with
  | .exitClose | .verify | .returned | .escaped => true
  | _ => false

/-- Whether the call that the thread makes next inside its loop throws. -/
def throws (env : CaptureEnv) (w : CaptureWorker) (r : Round) : Bool :=
  match w.pc with
  | .split _ => w.splits env && w.closeThrows r.calls.finalize
  | .openFile _ => w.aviWriter.isNone && r.calls.created.isNone
  | .write _ => w.aviWriter.isSome &&
      (w.frameCounter.toUInt32 % env.everyNth == 0 && r.calls.delivery == .noBuffer)
  | .pauseClose => w.closeThrows r.calls.finalize
  | _ => false

theorem state_goOn {x : Except CapturingThread CapturingThread} {next : WorkerPC} {s : CDVState}
    (hok : ∀ t, x = .ok t → t.state = s) (herror : ∀ t, x = .error t → t.state = s) :
    (goOn x next).state = s := by
  cases x with
  | ok t => exact hok t rfl
  | error t => exact herror t rfl

theorem state_closeWriter (t : CapturingThread) (o : Finalization) (next : WorkerPC) :
    (goOn (t.closeWriter o) next).state = t.state := by
  refine state_goOn (fun t' ht => ?_) fun t' ht => ?_
  · rcases CapturingThread.closeWriter_eq_ok ht with ⟨-, rfl⟩ | ⟨v, v', phase, -, -, rfl⟩ <;> rfl
  · obtain ⟨v, v', phase, -, -, rfl⟩ := CapturingThread.closeWriter_eq_error ht
    rfl

theorem state_splitFile (t : CapturingThread) (o : Finalization) (next : WorkerPC) :
    (goOn (t.splitFile env o) next).state = t.state := by
  unfold CapturingThread.splitFile
  cases t.splits env with
  | true => exact state_closeWriter t o next
  | false => rfl

theorem state_openWriter (t : CapturingThread) (created : Option Path) (next : WorkerPC) :
    (goOn (t.openWriter env created) next).state = t.state := by
  refine state_goOn (fun t' ht => ?_) fun t' ht => ?_
  · rcases CapturingThread.openWriter_eq_ok ht with ⟨-, rfl⟩ | ⟨-, tmpfile, -, rfl⟩ <;> rfl
  · rw [CapturingThread.openWriter_eq_error ht]

theorem state_writeFrame (t : CapturingThread) (d : DequeuedFrame) (o : Delivery) (next : WorkerPC) :
    (goOn (t.writeFrame env d o) next).state = t.state := by
  refine state_goOn (fun t' ht => ?_) fun t' ht => ?_
  · rcases CapturingThread.writeFrame_eq_ok ht with ⟨-, rfl⟩ | ⟨v, v', -, -, -, rfl⟩ <;> rfl
  · rw [CapturingThread.writeFrame_eq_error ht]

theorem step_state (hstep : w.step env r = some w') : w'.state = w.state ∨ w'.state = .finished := by
  obtain ⟨t, pc⟩ := w
  cases pc with
  | top | endTest | timeoutTest | noteDropped =>
    obtain rfl := Option.some.inj hstep
    exact .inl rfl
  | endStore | timeoutStore | limitStore =>
    obtain rfl := Option.some.inj hstep
    exact .inr rfl
  | get =>
    simp only [step] at hstep
    split at hstep
    · split at hstep <;> obtain rfl := Option.some.inj hstep
      · next f hgot =>
        obtain ⟨deltaDVTime, oldDVTime, dvTime, first, last, heq⟩ := t.noteDVTime_eq env f
        rw [heq]
        exact .inl rfl
      · exact .inl rfl
      · exact .inl rfl
    · cases hstep
  | test f drops | testFinalizing f drops =>
    simp only [step] at hstep
    split at hstep <;> obtain rfl := Option.some.inj hstep <;> exact .inl rfl
  | split d =>
    obtain rfl := Option.some.inj hstep
    exact .inl (state_splitFile t r.calls.finalize _)
  | openFile d =>
    obtain rfl := Option.some.inj hstep
    exact .inl (state_openWriter t r.calls.created _)
  | write d =>
    obtain rfl := Option.some.inj hstep
    exact .inl (state_writeFrame t d r.calls.delivery _)
  | count d =>
    obtain rfl := Option.some.inj hstep
    exact .inl rfl
  | pauseClose | exitClose =>
    obtain rfl := Option.some.inj hstep
    exact .inl (state_closeWriter t r.calls.finalize _)
  | pauseReset =>
    obtain rfl := Option.some.inj hstep
    rw [CapturingThread.resetCounters_eq]
    exact .inl rfl
  | verify =>
    obtain rfl := Option.some.inj hstep
    obtain ⟨phase, last, capStats, log, heq⟩ := t.verifyAndLog_eq env
    rw [heq]
    exact .inl rfl
  | returned => cases hstep
  | escaped => cases hstep

theorem throws_of_left {x : Except CapturingThread CapturingThread} {next : WorkerPC} {b : Bool}
    (hok : x.isOk = !b) (hnext : ∀ t, left ⟨t, next⟩ = false) (h : (goOn x next).left = true) :
    b = true := by
  cases x with
  | ok t =>
    rw [show (goOn (.ok t) next).left = left ⟨t, next⟩ from rfl, hnext t] at h
    cases h
  | error t =>
    cases b with
    | true => rfl
    | false => cases hok

theorem step_left (hstep : w.step env r = some w') (hleft : w'.left = true) :
    (w.left = true ∧ w'.state = w.state) ∨ (w.state = .idle ∧ w'.state = .idle) ∨
    ((w.pc = .endStore ∨ w.pc = .timeoutStore) ∧ w'.state = .finished) ∨
    (w.throws env r = true ∧ w'.state = w.state) := by
  obtain ⟨t, pc⟩ := w
  cases pc with
  | top | endTest =>
    obtain rfl := Option.some.inj hstep
    by_cases hidle : t.state = .idle
    · exact .inr (.inl ⟨hidle, hidle⟩)
    · simp [left, hidle] at hleft
  | endStore =>
    obtain rfl := Option.some.inj hstep
    exact .inr (.inr (.inl ⟨.inl rfl, rfl⟩))
  | timeoutStore =>
    obtain rfl := Option.some.inj hstep
    exact .inr (.inr (.inl ⟨.inr rfl, rfl⟩))
  | timeoutTest =>
    obtain rfl := Option.some.inj hstep
    by_cases hcap : t.state = .capturing <;> simp [left, hcap] at hleft
  | get =>
    simp only [step] at hstep
    split at hstep
    · split at hstep <;> obtain rfl := Option.some.inj hstep <;> cases hleft
    · cases hstep
  | test f drops | testFinalizing f drops =>
    simp only [step] at hstep
    split at hstep <;> obtain rfl := Option.some.inj hstep <;> cases hleft
  | split d =>
    obtain rfl := Option.some.inj hstep
    exact .inr (.inr (.inr ⟨throws_of_left (t.splitFile_isOk r.calls.finalize) (fun _ => rfl) hleft,
      state_splitFile t r.calls.finalize _⟩))
  | openFile d =>
    obtain rfl := Option.some.inj hstep
    exact .inr (.inr (.inr ⟨throws_of_left (t.openWriter_isOk r.calls.created) (fun _ => rfl) hleft,
      state_openWriter t r.calls.created _⟩))
  | write d =>
    obtain rfl := Option.some.inj hstep
    refine .inr (.inr (.inr ⟨?_, state_writeFrame t d r.calls.delivery _⟩))
    have hok : (t.writeFrame env d r.calls.delivery).isOk = !(t.aviWriter.isSome &&
        (t.frameCounter.toUInt32 % env.everyNth == 0 && r.calls.delivery == .noBuffer)) := by
      cases hv : t.aviWriter with
      | none => simp [CapturingThread.writeFrame, hv, Except.isOk, Except.toBool]
      | some v => exact t.writeFrame_isOk hv r.calls.delivery
    exact throws_of_left hok (fun _ => rfl) hleft
  | count d =>
    obtain rfl := Option.some.inj hstep
    cases hlimit : (t.countUp d).limitHit <;> simp [left, hlimit] at hleft
  | limitStore | noteDropped | pauseReset =>
    obtain rfl := Option.some.inj hstep
    cases hleft
  | pauseClose =>
    obtain rfl := Option.some.inj hstep
    exact .inr (.inr (.inr ⟨throws_of_left (t.closeWriter_isOk r.calls.finalize) (fun _ => rfl) hleft,
      state_closeWriter t r.calls.finalize _⟩))
  | exitClose =>
    obtain rfl := Option.some.inj hstep
    exact .inl ⟨rfl, state_closeWriter t r.calls.finalize _⟩
  | verify =>
    obtain rfl := Option.some.inj hstep
    obtain ⟨phase, last, capStats, log, heq⟩ := t.verifyAndLog_eq env
    rw [heq]
    exact .inl ⟨rfl, rfl⟩
  | returned => cases hstep
  | escaped => cases hstep

end CaptureWorker

/-- Where the dialog stands in a command: between the test of `m_state` and the
store, or waiting for the thread. -/
inductive UIPC
  | idle
  | startAssign (a : StartArgs)
  | startStore (a : StartArgs)
  | stopStore
  | finalizeSecond
  | finalizeRead
  | finalizeStore (writeQueuedFrames : Bool)
  | finalizeWait
  | destroyWait
  | destroyed
  deriving DecidableEq

structure LiveCapture where
  worker : CaptureWorker
  ui : UIPC

inductive LiveAction
  | call (k : Command)
  | ui
  | worker (r : Round)
  deriving DecidableEq

namespace CaptureWorker

def setCDV (w : CaptureWorker) (c : CDV) : CaptureWorker :=
  ⟨{ w.toCapturingThread with toCDV := c }, w.pc⟩

def hasEnded (w : CaptureWorker) : Bool := w.pc == .returned || w.pc == .escaped

end CaptureWorker

namespace LiveCapture

/-- A command up to and including its first access to `m_state`. -/
def call (w : CaptureWorker) : Command → LiveCapture
  | .start a => ⟨w, if w.state = .capturePaused then .startAssign a else .idle⟩
  | .stop => ⟨w, if w.state = .capturing then .stopStore else .idle⟩
  | .finalize => ⟨w, if w.state = .capturing then .finalizeRead else .finalizeSecond⟩
  | .destroy => ⟨w.setCDV { w.toCDV with state := .idle }, .destroyWait⟩

def uiStep (s : LiveCapture) : Option LiveCapture :=
  let w := s.worker
  let c := w.toCDV
  match s.ui with
  | .idle => none
  | .startAssign a =>
    some ⟨w.setCDV { c with
      captureTime := a.captureTime
      captureFilename := a.filename
      dtformat := a.dtformat
      ndigits := a.ndigits }, .startStore a⟩
  | .startStore a => some ⟨w.setCDV { c with starts := c.starts ++ [a], state := .capturing }, .idle⟩
  | .stopStore => some ⟨w.setCDV { c with state := .capturePaused }, .idle⟩
  | .finalizeSecond => some ⟨w, if c.state = .capturePaused then .finalizeRead else .idle⟩
  -- `writeQueuedFrames` comes from a third read
  | .finalizeRead =>
    some ⟨w.setCDV { c with captureTime := 0, finalizePhase := .draining },
      .finalizeStore (c.state == .capturing)⟩
  | .finalizeStore writeQueuedFrames =>
    some ⟨w.setCDV { c with state := if writeQueuedFrames then .captureFinalizing else .finished },
      .finalizeWait⟩
  | .finalizeWait =>
    if w.hasEnded then some ⟨w.setCDV { c with finalizePhase := .done, state := .finished }, .idle⟩
    else none
  | .destroyWait => if w.hasEnded then some ⟨w, .destroyed⟩ else none
  | .destroyed => none

def step (env : CaptureEnv) (s : LiveCapture) : LiveAction → Option LiveCapture
  | .call k => if s.ui = .idle then some (call s.worker k) else none
  | .ui => s.uiStep
  | .worker r => (s.worker.step env r).map fun w => ⟨w, s.ui⟩

/-- The dialog has tested `m_state` for a capture state that it has yet to store. -/
def betweenTestAndStore (s : LiveCapture) : Bool :=
  match s.ui with
  | .startAssign _ | .startStore _ | .stopStore => true
  | _ => false

def start (env : CaptureEnv) (c : CDV) (drops : Int32) : LiveCapture :=
  ⟨CaptureWorker.start env c drops, .idle⟩

variable {env : CaptureEnv} {s s' : LiveCapture}

/-- Left alone, the steps of a command do what the command does as a whole. -/
theorem call_runs_command (w : CaptureWorker) (k : Command) :
    ∃ ui, (ui = .idle ∨ ui = .finalizeWait ∨ ui = .destroyWait) ∧
      ReflTransGen (fun u v => u.uiStep = some v) (call w k) ⟨w.setCDV (w.toCDV.command k), ui⟩ := by
  cases k with
  | start a =>
    refine ⟨.idle, .inl rfl, ?_⟩
    by_cases hstate : w.state = .capturePaused
    · simp only [call, hstate, if_true, CDV.command, CDV.startCapturing]
      exact ReflTransGen.head rfl (ReflTransGen.single rfl)
    · simp only [call, hstate, if_false, CDV.command, CDV.startCapturing]
      exact ReflTransGen.refl
  | stop =>
    refine ⟨.idle, .inl rfl, ?_⟩
    by_cases hstate : w.state = .capturing
    · simp only [call, hstate, if_true, CDV.command, CDV.stopCapturing]
      exact ReflTransGen.single rfl
    · simp only [call, hstate, if_false, CDV.command, CDV.stopCapturing]
      exact ReflTransGen.refl
  | finalize =>
    by_cases hcap : w.state = .capturing
    · refine ⟨.finalizeWait, .inr (.inl rfl), ?_⟩
      have hread : uiStep ⟨w, .finalizeRead⟩ =
          some ⟨w.setCDV { w.toCDV with captureTime := 0, finalizePhase := .draining },
            .finalizeStore true⟩ := by
        simp [uiStep, hcap]
      simp only [call, hcap, if_true, CDV.command, CDV.finalizeCapturing, ne_eq,
        not_true_eq_false, false_and, if_false]
      exact ReflTransGen.head hread (ReflTransGen.single rfl)
    · by_cases hpaused : w.state = .capturePaused
      · refine ⟨.finalizeWait, .inr (.inl rfl), ?_⟩
        have hsecond : uiStep ⟨w, .finalizeSecond⟩ = some ⟨w, .finalizeRead⟩ := by
          simp [uiStep, hpaused]
        have hread : uiStep ⟨w, .finalizeRead⟩ =
            some ⟨w.setCDV { w.toCDV with captureTime := 0, finalizePhase := .draining },
              .finalizeStore false⟩ := by
          simp [uiStep, hpaused]
        simp only [call, hpaused, if_false, CDV.command, CDV.finalizeCapturing, ne_eq,
          not_true_eq_false, and_false, reduceCtorEq, not_false_eq_true]
        exact ReflTransGen.head hsecond (ReflTransGen.head hread (ReflTransGen.single rfl))
      · refine ⟨.idle, .inl rfl, ?_⟩
        have hsecond : uiStep ⟨w, .finalizeSecond⟩ = some ⟨w, .idle⟩ := by
          simp [uiStep, hpaused]
        simp only [call, hcap, if_false, CDV.command, CDV.finalizeCapturing, ne_eq, hpaused,
          not_false_eq_true, and_self, if_true]
        exact ReflTransGen.single hsecond
  | destroy => exact ⟨.destroyWait, .inr (.inr rfl), ReflTransGen.refl⟩

/-- A capture state has a thread that is in its loop. -/
def CaptureIsLive (s : LiveCapture) : Prop :=
  s.worker.state = .capturePaused ∨ s.worker.state = .capturing → s.worker.left = false

/-- The thread leaves its loop with no store of a capture state pending; by an
exception, it does so outside of the capture states. -/
def leavesQuietly (env : CaptureEnv) (s : LiveCapture) : LiveAction → Bool
  | .worker r =>
    if s.worker.pc = .endStore ∨ s.worker.pc = .timeoutStore then !s.betweenTestAndStore
    else !s.worker.throws env r || (!s.betweenTestAndStore &&
      s.worker.state != .capturePaused && s.worker.state != .capturing)
  | _ => true

/-- What the steps keep: past its loop, the thread has stored its last state and
no store of a capture state is pending; and Idle is the work of `Destroy`. -/
structure LiveInv (s : LiveCapture) : Prop where
  quiet : s.worker.left = true → s.worker.state ≠ .capturePaused ∧ s.worker.state ≠ .capturing ∧
    s.betweenTestAndStore = false
  idle : s.worker.state = .idle → s.ui = .destroyWait ∨ s.ui = .destroyed

theorem LiveInv.worker (h : LiveInv s) {r : Round} (hok : s.leavesQuietly env (.worker r) = true)
    {w : CaptureWorker} (hstep : s.worker.step env r = some w) : LiveInv ⟨w, s.ui⟩ := by
  refine ⟨fun hleft => ?_, fun hidle => ?_⟩
  · show w.state ≠ .capturePaused ∧ w.state ≠ .capturing ∧ s.betweenTestAndStore = false
    rcases CaptureWorker.step_left hstep hleft with ⟨hold, hsame⟩ | ⟨hidle, hsame⟩ | ⟨hpc, hfin⟩ |
      ⟨hthrows, hsame⟩
    · rw [hsame]
      exact h.quiet hold
    · rw [hsame]
      refine ⟨by decide, by decide, ?_⟩
      rcases h.idle hidle with hui | hui <;> simp [betweenTestAndStore, hui]
    · rw [hfin]
      refine ⟨by decide, by decide, ?_⟩
      simpa [leavesQuietly, hpc] using hok
    · rw [hsame]
      have hpc : ¬ (s.worker.pc = .endStore ∨ s.worker.pc = .timeoutStore) := by
        rintro (hpc | hpc) <;> simp [CaptureWorker.throws, hpc] at hthrows
      simp only [leavesQuietly, if_neg hpc, hthrows, Bool.not_true, Bool.false_or, Bool.and_eq_true,
        Bool.not_eq_true', bne_iff_ne] at hok
      exact ⟨hok.1.2, hok.2, hok.1.1⟩
  · rcases CaptureWorker.step_state hstep with hsame | hfin
    · exact h.idle (hsame.symm.trans hidle)
    · rw [show w.state = .idle from hidle] at hfin
      cases hfin

theorem LiveInv.call (h : LiveInv s) (hui : s.ui = .idle) (k : Command) :
    LiveInv (call s.worker k) := by
  have hidle : s.worker.state ≠ .idle := by
    intro hs
    rcases h.idle hs with hw | hw <;> rw [hui] at hw <;> cases hw
  cases k with
  | start a =>
    refine ⟨fun hleft => ?_, fun hs => absurd hs hidle⟩
    obtain ⟨hpaused, hcap, -⟩ := h.quiet hleft
    exact ⟨hpaused, hcap, by simp [LiveCapture.call, betweenTestAndStore, hpaused]⟩
  | stop =>
    refine ⟨fun hleft => ?_, fun hs => absurd hs hidle⟩
    obtain ⟨hpaused, hcap, -⟩ := h.quiet hleft
    exact ⟨hpaused, hcap, by simp [LiveCapture.call, betweenTestAndStore, hcap]⟩
  | finalize =>
    refine ⟨fun hleft => ?_, fun hs => absurd hs hidle⟩
    obtain ⟨hpaused, hcap, -⟩ := h.quiet hleft
    exact ⟨hpaused, hcap, by simp [LiveCapture.call, betweenTestAndStore, hcap]⟩
  | destroy => exact ⟨fun _ => ⟨nofun, nofun, rfl⟩, fun _ => .inl rfl⟩

theorem LiveInv.inLoop (h : LiveInv s) (hui : s.betweenTestAndStore = true) :
    s.worker.left = false := by
  cases hleft : s.worker.left with
  | false => rfl
  | true =>
    rw [(h.quiet hleft).2.2] at hui
    cases hui

theorem liveInv_of_inLoop (hloop : s.worker.left = false)
    (hidle : s.worker.state = .idle → s.ui = .destroyWait ∨ s.ui = .destroyed) : LiveInv s := by
  refine ⟨fun hleft => ?_, hidle⟩
  rw [hleft] at hloop
  cases hloop

theorem LiveInv.ui (h : LiveInv s) (hstep : s.uiStep = some s') : LiveInv s' := by
  obtain ⟨w, ui⟩ := s
  cases ui with
  | idle => cases hstep
  | destroyed => cases hstep
  | startAssign a =>
    obtain rfl := Option.some.inj hstep
    refine liveInv_of_inLoop (h.inLoop rfl) fun hs => ?_
    rcases h.idle hs with hw | hw <;> cases hw
  | startStore a =>
    obtain rfl := Option.some.inj hstep
    exact liveInv_of_inLoop (h.inLoop rfl) nofun
  | stopStore =>
    obtain rfl := Option.some.inj hstep
    exact liveInv_of_inLoop (h.inLoop rfl) nofun
  | finalizeSecond =>
    obtain rfl := Option.some.inj hstep
    refine ⟨fun hleft => ?_, fun hs => ?_⟩
    · obtain ⟨hpaused, hcap, -⟩ := h.quiet hleft
      exact ⟨hpaused, hcap, by simp [betweenTestAndStore, show w.state ≠ .capturePaused from hpaused]⟩
    · rcases h.idle hs with hw | hw <;> cases hw
  | finalizeRead =>
    obtain rfl := Option.some.inj hstep
    refine ⟨fun hleft => ?_, fun hs => ?_⟩
    · obtain ⟨hpaused, hcap, -⟩ := h.quiet hleft
      exact ⟨hpaused, hcap, rfl⟩
    · rcases h.idle hs with hw | hw <;> cases hw
  | finalizeStore writeQueuedFrames =>
    obtain rfl := Option.some.inj hstep
    cases writeQueuedFrames with
    | true => exact ⟨fun _ => ⟨nofun, nofun, rfl⟩, nofun⟩
    | false => exact ⟨fun _ => ⟨nofun, nofun, rfl⟩, nofun⟩
  | finalizeWait =>
    simp only [uiStep] at hstep
    split at hstep
    · obtain rfl := Option.some.inj hstep
      exact ⟨fun _ => ⟨nofun, nofun, rfl⟩, nofun⟩
    · cases hstep
  | destroyWait =>
    simp only [uiStep] at hstep
    split at hstep
    · obtain rfl := Option.some.inj hstep
      exact ⟨h.quiet, fun _ => .inr rfl⟩
    · cases hstep

/-- The capture states have a live thread in every state of a run, as long as
the thread always leaves its loop quietly. -/
theorem capture_is_live (env : CaptureEnv) (captureFilename dtformat : CString) (ndigits : Int32)
    (last : AVICheckResult) (drops : Int32) {acts : List LiveAction} {s : LiveCapture}
    (hrun : Run (step env) (fun u a => u.leavesQuietly env a = true)
      (start env (.buildCapturing captureFilename dtformat ndigits last) drops) acts s) :
    CaptureIsLive s := by
  have hkeep : ∀ u a v, LiveInv u → u.leavesQuietly env a = true → step env u a = some v →
      LiveInv v := by
    intro u a v hinv hok hstep
    cases a with
    | call k =>
      simp only [step] at hstep
      split at hstep
      · next hui =>
        obtain rfl := Option.some.inj hstep
        exact hinv.call hui k
      · cases hstep
    | ui => exact hinv.ui hstep
    | worker r =>
      obtain ⟨w, hw, rfl⟩ := Option.map_eq_some_iff.mp hstep
      exact hinv.worker hok hw
  have hstart : LiveInv (start env (.buildCapturing captureFilename dtformat ndigits last) drops) :=
    ⟨nofun, nofun⟩
  have hinv := hrun.invariant hkeep hstart
  intro hstate
  cases hleft : s.worker.left with
  | false => rfl
  | true =>
    obtain ⟨hpaused, hcap, -⟩ := hinv.quiet hleft
    rcases hstate with hs | hs
    · exact absurd hs hpaused
    · exact absurd hs hcap

def lastFrame : Round := ⟨.endOfStream, CaptureLoop.plainCalls⟩

/-- Stop is complete before the thread meets the end of the stream. -/
def stoppedInTime : List LiveAction :=
  [.call (.start ⟨"C:\\a.avi".toList, [], 0, 0⟩), .ui, .ui, .worker lastFrame, .call .stop, .ui,
    .worker lastFrame, .worker lastFrame, .worker lastFrame]

theorem stoppedInTime_live : ∃ s : LiveCapture,
    Run (step (CaptureLoop.shortFrameEnv 100))
      (fun u a => u.leavesQuietly (CaptureLoop.shortFrameEnv 100) a = true)
      (start (CaptureLoop.shortFrameEnv 100) (.buildCapturing [] [] 0 {}) 0) stoppedInTime s ∧
    s.worker.left = true ∧ CaptureIsLive s := by
  have hrun : Run (step (CaptureLoop.shortFrameEnv 100))
    (fun u a => u.leavesQuietly (CaptureLoop.shortFrameEnv 100) a = true)
    (start (CaptureLoop.shortFrameEnv 100) (.buildCapturing [] [] 0 {}) 0) stoppedInTime _ :=
    run_of_exec rfl
  exact ⟨_, hrun, rfl, capture_is_live _ _ _ _ _ _ hrun⟩

/-- The stream ends, and the thread with it, between the test and the store of
Stop; then capturing is started once more. -/
def stoppedTooLate : List LiveAction :=
  [.call (.start ⟨"C:\\a.avi".toList, [], 0, 0⟩), .ui, .ui, .worker lastFrame, .call .stop,
    .worker lastFrame, .worker lastFrame, .worker lastFrame, .ui, .worker lastFrame,
    .worker lastFrame, .call (.start ⟨"C:\\b.avi".toList, [], 0, 0⟩), .ui, .ui]

theorem stoppedTooLate_dead : ∃ s : LiveCapture,
    Run (step (CaptureLoop.shortFrameEnv 100)) (fun _ _ => True)
      (start (CaptureLoop.shortFrameEnv 100) (.buildCapturing [] [] 0 {}) 0) stoppedTooLate s ∧
    s.worker.state = .capturing ∧ s.worker.pc = .returned ∧ ¬ CaptureIsLive s := by
  have hrun : Run (step (CaptureLoop.shortFrameEnv 100)) (fun _ _ => True)
    (start (CaptureLoop.shortFrameEnv 100) (.buildCapturing [] [] 0 {}) 0) stoppedTooLate _ :=
    run_of_exec rfl
  exact ⟨_, hrun, rfl, rfl, fun hlive => Bool.noConfusion (hlive (.inr rfl))⟩

end LiveCapture

end WinDV
