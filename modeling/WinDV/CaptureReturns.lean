import WinDV.CaptureFiled

/-! End Capture and `Destroy` come to an end: while the dialog waits, some thread can
go on, and once the queue is ended the worker has only so many steps left. -/

namespace WinDV

open Transition

namespace WorkerPC

/-- Behind the loop, or at one of the stores that leave it. -/
def leaving : WorkerPC → Bool
  | .endTest | .endStore | .timeoutStore | .exitClose | .verify | .returned | .escaped => true
  | _ => false

/-- A bound on the steps that the thread takes from here without another frame, where
the stream is ended. -/
def remaining (consumer : ConsumerPc) : WorkerPC → Nat
  | .returned | .escaped => 0
  | .verify => 1
  | .exitClose => 2
  | .endStore | .timeoutStore => 3
  | .endTest => 4
  | .get =>
    match consumer with
    | .returnedFalse _ => 5
    | .testEnd _ => 6
    | .locking _ => 7
    | .testSignalLost => 10
    | .outside | .waiting _ | .ended | .signalLost => 8
  | .top => 9
  | .noteDropped | .pauseReset | .timeoutTest => 10
  | .limitStore | .pauseClose => 11
  | .count _ => 12
  | .write _ => 13
  | .openFile _ => 14
  | .split _ => 15
  | .testFinalizing _ _ => 16
  | .test _ _ => 17

theorem remaining_le (consumer : ConsumerPc) (pc : WorkerPC) : pc.remaining consumer ≤ 17 := by
  cases pc <;> try simp [remaining]
  cases consumer <;> simp

end WorkerPC

namespace CaptureWorker

variable {env : CaptureEnv} {w w' : CaptureWorker}

theorem step_isSome (hget : w.pc ≠ .get) (hended : w.hasEnded = false) (r : Round) :
    (w.step env r).isSome = true := by
  obtain ⟨t, pc⟩ := w
  cases pc with
  | get => exact absurd rfl hget
  | returned | escaped => cases hended
  | test f drops | testFinalizing f drops =>
    simp only [step]
    split <;> rfl
  | _ => rfl

/-- A step of the thread outside of the queue's methods, for whatever it finds there. -/
theorem remaining_of_step {r : Round} (hget : w.pc ≠ .get) (hstep : w.step env r = some w')
    {consumer : ConsumerPc} (hconsumer : w'.pc = .get → consumer = .outside) :
    w'.pc.remaining consumer < w.pc.remaining consumer := by
  have hgoOn (x : Except CapturingThread CapturingThread) {next pc : WorkerPC}
      (hnext : next.remaining consumer < pc.remaining consumer) :
      (goOn x next).pc.remaining consumer < pc.remaining consumer := by
    cases x with
    | ok t' => exact hnext
    | error t' => exact Nat.zero_lt_of_lt hnext
  obtain ⟨t, pc⟩ := w
  cases pc with
  | get => exact absurd rfl hget
  | returned | escaped => cases hstep
  | top =>
    obtain rfl := Option.some.inj hstep
    dsimp only at hconsumer ⊢
    split
    · simp [WorkerPC.remaining]
    · next hidle =>
      rw [hconsumer (if_neg hidle)]
      simp [WorkerPC.remaining]
  | endTest | timeoutTest | count d =>
    obtain rfl := Option.some.inj hstep
    dsimp only
    split <;> simp [WorkerPC.remaining]
  | test f drops | testFinalizing f drops =>
    simp only [step] at hstep
    split at hstep <;> obtain rfl := Option.some.inj hstep <;> simp [WorkerPC.remaining]
  | split d | openFile d | write d | pauseClose | exitClose =>
    obtain rfl := Option.some.inj hstep
    exact hgoOn _ (by simp [WorkerPC.remaining])
  | endStore | timeoutStore | limitStore | noteDropped | pauseReset | verify =>
    obtain rfl := Option.some.inj hstep
    simp [WorkerPC.remaining]

theorem leaving_of_step {r : Round} (hstep : w.step env r = some w') (h : w.pc.leaving = true) :
    w'.pc.leaving = true := by
  obtain ⟨t, pc⟩ := w
  cases pc with
  | endTest =>
    obtain rfl := Option.some.inj hstep
    dsimp only
    split <;> rfl
  | exitClose =>
    obtain rfl := Option.some.inj hstep
    cases t.closeWriter r.calls.finalize <;> rfl
  | endStore | timeoutStore | verify =>
    obtain rfl := Option.some.inj hstep
    rfl
  | returned | escaped => cases hstep
  | _ => cases h

end CaptureWorker

namespace CaptureThreads

variable {env : CaptureEnv} {queueSize dataSize : Nat} {s t : CaptureThreads}

def IsWorker : ThreadsAction → Bool
  | .worker _ => true
  | _ => false

/-- The worker leaves its loop once its tests found the end or the loss of the signal. -/
structure Joined (queueSize dataSize : Nat) (s : CaptureThreads) : Prop where
  linked : Linked queueSize dataSize s
  signalled : s.queue.Signalled
  leaving : s.queue.consumer = .ended ∨ s.queue.consumer = .signalLost →
    s.live.worker.pc.leaving = true

theorem concludes_leaving {consumer : ConsumerPc} {pc : WorkerPC} (h : Concludes consumer pc)
    (hc : consumer = .ended ∨ consumer = .signalLost) : pc.leaving = true := by
  cases h with
  | ended | signalLost => rfl
  | again => simp at hc

theorem not_calling_of_left {consumer : ConsumerPc} (h : consumer = .ended ∨ consumer = .signalLost) :
    ¬ Calling consumer := by
  rcases h with rfl | rfl <;> exact id

theorem consumer_cases (consumer : ConsumerPc) :
    consumer = .outside ∨ (consumer = .ended ∨ consumer = .signalLost) ∨ Calling consumer := by
  cases consumer with
  | outside => exact .inl rfl
  | ended => exact .inr (.inl (.inl rfl))
  | signalLost => exact .inr (.inl (.inr rfl))
  | locking | testEnd | waiting | returnedFalse | testSignalLost => exact .inr (.inr trivial)

theorem Joined.step (h : Joined queueSize dataSize s) {a : ThreadsAction} (hstep : Steps env s a t) :
    Joined queueSize dataSize t := by
  have hlinked := h.linked.step hstep
  have hsignalled {b : QueueAction} {q q' : QueueThreads} (hq : q.Signalled) (hb : q.step b = some q') :
      q'.Signalled := hq.step (QueueThreads.steps_of_step hb)
  cases hstep with
  | source a b q ha hb hfin hput hq =>
    refine ⟨hlinked, hsignalled h.signalled hq, fun hc => h.leaving ?_⟩
    rw [← (source_keeps hb hq).2]
    exact hc
  | deviceEnded q q' hq hq' =>
    refine ⟨hlinked, hsignalled (hsignalled h.signalled hq) hq', fun hc => h.leaving ?_⟩
    rw [← (source_keeps (b := .stopSource) trivial hq).2,
      ← (source_keeps (b := .finalize) trivial hq').2]
    exact hc
  | expired q hq =>
    refine ⟨hlinked, hsignalled h.signalled hq, fun hc => ?_⟩
    have hsteps := QueueThreads.steps_of_step hq
    cases hsteps
    simp [withQueue] at hc
  | calling calls b q hpc hb hq hsame hcall =>
    refine ⟨hlinked, hsignalled h.signalled hq, fun hc => ?_⟩
    exact absurd hcall (not_calling_of_left hc)
  | gotFrame calls v c q w hpc hc hq hw =>
    exact ⟨hlinked, h.signalled.gotFrame hq, fun hc => by simp at hc⟩
  | concluded calls c q pc hpc hq hsame hafter =>
    exact ⟨hlinked, hsignalled h.signalled hq, concludes_leaving hafter⟩
  | worked calls w hpc hw =>
    rw [h.linked.rereading_eq] at hw
    exact ⟨hlinked, h.signalled, fun hc => CaptureWorker.leaving_of_step hw (h.leaving hc)⟩
  | called k hui =>
    refine ⟨hlinked, h.signalled, fun hc => ?_⟩
    rw [(untouched_call _ k).pc]
    exact h.leaving hc
  | dialog l hl hwait =>
    refine ⟨hlinked, h.signalled, fun hc => ?_⟩
    rw [(untouched_uiStep hl).pc]
    exact h.leaving hc

/-- In the queue's methods the worker can go on unless it waits for a signal. -/
theorem Joined.worker_isSome (h : Joined queueSize dataSize s) (hended : s.live.worker.hasEnded = false)
    (hawake : ∀ v, s.queue.consumer = .waiting v → s.queue.q.evGet = true) (calls : Calls) :
    (s.step env (.worker calls)).isSome = true := by
  show (s.workerStep env calls).isSome = true
  unfold workerStep
  by_cases hpc : s.live.worker.pc = .get
  · rw [if_pos hpc]
    have hleft (hc : s.queue.consumer = .ended ∨ s.queue.consumer = .signalLost) : False := by
      have hleaving := h.leaving hc
      rw [hpc] at hleaving
      cases hleaving
    unfold getStep
    cases hc : s.queue.consumer with
    | outside => simp [queueStep, QueueThreads.step, hc]
    | locking v =>
      cases hq : s.queue.q.getLocked with
      | none => simp [QueueThreads.step, QueueThreads.consumerStep, hc, hq, afterGet]
      | some x =>
        simp [QueueThreads.step, QueueThreads.consumerStep, hc, hq, afterGet, CaptureWorker.step, hpc,
          CaptureLoop.possible]
    | waiting v => simp [QueueThreads.step, QueueThreads.consumerStep, hc, hawake v hc, afterGet]
    | testEnd v | returnedFalse v =>
      cases he : s.queue.q.isEnd <;>
        simp [QueueThreads.step, QueueThreads.consumerStep, hc, he, afterGet]
    | testSignalLost =>
      by_cases hlost : (!s.queue.q.isEnd && s.live.worker.state == .capturing) = true
      · simp [QueueThreads.step, QueueThreads.consumerStep, hc, hlost, afterGet]
      · simp [QueueThreads.step, QueueThreads.consumerStep, hc, hlost, afterGet]
    | ended => exact (hleft (.inl hc)).elim
    | signalLost => exact (hleft (.inr hc)).elim
  · rw [if_neg hpc, h.linked.rereading_eq]
    have hsome : (s.live.worker.step env ⟨.timeout, calls⟩).isSome = true :=
      CaptureWorker.step_isSome hpc hended _
    simpa using hsome

/-- Some thread has a step to take; the worker's does not hang on what its calls come to. -/
def CanGoOn (env : CaptureEnv) (s : CaptureThreads) : Prop :=
  (s.step env .producer).isSome = true ∨ (s.step env .finalizer).isSome = true ∨
    (s.step env .ui).isSome = true ∨ ∀ calls, (s.step env (.worker calls)).isSome = true

/-- While the dialog waits for a thread that has not ended, it waits for somebody. -/
theorem Joined.canGoOn (h : Joined queueSize dataSize s) (hsize : 1 ≤ queueSize)
    (hwait : s.live.ui = .finalizeWait ∨ s.live.ui = .destroyWait)
    (hended : s.live.worker.hasEnded = false) : s.CanGoOn env := by
  have hworker (hawake : ∀ v, s.queue.consumer = .waiting v → s.queue.q.evGet = true) :
      s.CanGoOn env := .inr (.inr (.inr (h.worker_isSome hended hawake)))
  have hfinalizer (hfin : s.queue.finalizer ≠ .outside) (hfin' : s.queue.finalizer ≠ .returned) :
      (s.step env .finalizer).isSome = true := by
    cases hf : s.queue.finalizer <;>
      simp_all [CaptureThreads.step, queueStep, QueueThreads.step, QueueThreads.finalizerStep]
  cases hp : s.queue.producer with
  | testEnd f =>
    left
    cases he : s.queue.q.isEnd <;>
      simp [CaptureThreads.step, queueStep, QueueThreads.step, QueueThreads.producerStep, hp, he]
  | locking f =>
    left
    cases hq : s.queue.q.putLocked f.duration f.data f.data.length <;>
      simp [CaptureThreads.step, queueStep, QueueThreads.step, QueueThreads.producerStep, hp, hq]
  | waiting f =>
    cases he : s.queue.q.evPut with
    | true =>
      left
      simp [CaptureThreads.step, queueStep, QueueThreads.step, QueueThreads.producerStep, hp, he]
    | false =>
      -- the ring is full, so the worker has what to take
      have hq := h.linked.fifo.size_eq
      have hno := h.signalled.noLostWakeup (by omega)
      apply hworker
      intro v hc
      by_contra hget
      exact hno.not_both ⟨⟨⟨v, hc⟩, by simpa using hget⟩, ⟨f, hp⟩, he⟩
  | outside =>
    rcases hwait with hui | hui
    · right; right; left
      simp [CaptureThreads.step, uiStep, hui, hp, queueStep, QueueThreads.step]
    · by_cases hf : s.queue.finalizer = .outside
      · right; right; left
        simp [CaptureThreads.step, uiStep, hui, hf, queueStep, QueueThreads.step]
      · by_cases hf' : s.queue.finalizer = .returned
        · right; right; left
          simp [CaptureThreads.step, uiStep, hui, hf', hp, queueStep, QueueThreads.step]
        · exact .inr (.inl (hfinalizer hf hf'))
  | stopped =>
    by_cases hf : s.queue.finalizer = .outside
    · right; right; left
      rcases hwait with hui | hui <;>
        simp [CaptureThreads.step, uiStep, hui, hp, hf, queueStep, QueueThreads.step]
    · by_cases hf' : s.queue.finalizer = .returned
      · apply hworker
        exact fun v => h.signalled.get_of_end (.inr hf') v
      · exact .inr (.inl (hfinalizer hf hf'))

def remaining (s : CaptureThreads) : Nat :=
  11 * s.queue.q.load + s.live.worker.pc.remaining s.queue.consumer

theorem remaining_le (s : CaptureThreads) : s.remaining ≤ 11 * s.queue.q.load + 17 := by
  have hle := WorkerPC.remaining_le s.queue.consumer s.live.worker.pc
  unfold remaining
  omega

/-- The device has stopped and the end of the stream is sent. -/
structure Closed (queueSize dataSize : Nat) (s : CaptureThreads) : Prop where
  joined : Joined queueSize dataSize s
  stopped : s.queue.producer = .stopped
  sent : s.queue.finalizer = .returned

theorem Closed.isEnd (h : Closed queueSize dataSize s) : s.queue.q.isEnd = true :=
  h.joined.signalled.end_of_told (.inr (.inr h.sent))

theorem Closed.source (h : Closed queueSize dataSize s) {b : QueueAction} {q : QueueThreads}
    (hb : OfSource b) (hq : s.queue.step b = some q) : False := by
  have hsteps := QueueThreads.steps_of_step hq
  have hp := h.stopped
  have hf := h.sent
  cases hsteps <;> simp_all [OfSource]

/-- Each step of the worker brings it nearer to its end, and nobody sets it back. -/
theorem Closed.step (h : Closed queueSize dataSize s) {a : ThreadsAction} (hstep : Steps env s a t) :
    Closed queueSize dataSize t ∧ t.remaining + (if IsWorker a then 1 else 0) ≤ s.remaining := by
  have hjoined := h.joined.step hstep
  have hawake {v : GetVariant} (hc : s.queue.consumer = .waiting v) (he : s.queue.q.evGet = false) :
      False := by
    rw [h.joined.signalled.get_of_end (.inr h.sent) v hc] at he
    cases he
  cases hstep with
  | source a b q ha hb hfin hput hq => exact (h.source hb hq).elim
  | deviceEnded q q' hq hq' => exact (h.source (b := .stopSource) trivial hq).elim
  | expired q hq =>
    have hsteps := QueueThreads.steps_of_step hq
    cases hsteps with
    | timedOut hc he => exact (hawake hc he).elim
  | calling calls b q hpc hb hq hsame hcall =>
    have hsteps := QueueThreads.steps_of_step hq
    have hget : s.remaining = 11 * s.queue.q.load + WorkerPC.remaining s.queue.consumer .get := by
      rw [remaining, hpc]
    rw [hget, remaining, show (s.withQueue q).live.worker.pc = .get from hpc]
    cases hsteps with
    | getCalled v hc | sawEmpty v c hc _ | getSawEnd v c hc _ | getWoken v c hc _ =>
      refine ⟨⟨hjoined, h.stopped, h.sent⟩, ?_⟩
      simp [withQueue, WorkerPC.remaining, hc, IsWorker]
    | getSawOpen v c hc he | workerSawOpen v c hc he => exact absurd h.isEnd (by simp [he])
    | timedOut hc he => exact (hawake hc he).elim
    | gotFrame | workerEnded | workerLost | workerLoops => exact hcall.elim
    | putCalled | sourceStopped | putSawEnd | putSawOpen | putAccepted => exact absurd trivial hb
    | putFull | putWoken | finalizeCalled | endSet | getSignalled | putSignalled =>
      exact absurd trivial hb
  | gotFrame calls v c q w hpc hc hq hw =>
    refine ⟨⟨hjoined, h.stopped, h.sent⟩, ?_⟩
    obtain ⟨-, hpc'⟩ := CaptureWorker.step_got hpc hw
    obtain ⟨hload, -, rfl⟩ := CDVQueue.getLocked_eq_some hq
    simp only [remaining, hpc, hpc', hc, WorkerPC.remaining, IsWorker, if_true]
    omega
  | concluded calls c q pc hpc hq hsame hafter =>
    have hsteps := QueueThreads.steps_of_step hq
    have hget : s.remaining = 11 * s.queue.q.load + WorkerPC.remaining s.queue.consumer .get := by
      rw [remaining, hpc]
    rw [hget]
    cases hsteps with
    | workerEnded v c hc he =>
      cases hafter
      refine ⟨⟨hjoined, h.stopped, h.sent⟩, ?_⟩
      simp [remaining, withPC, withWorker, withQueue, WorkerPC.remaining, hc, IsWorker]
    | workerLost c hc =>
      cases hafter
      refine ⟨⟨hjoined, h.stopped, h.sent⟩, ?_⟩
      simp [remaining, withPC, withWorker, withQueue, WorkerPC.remaining, hc, IsWorker]
    | workerLoops c hc =>
      cases hafter
      refine ⟨⟨hjoined, h.stopped, h.sent⟩, ?_⟩
      simp [remaining, withPC, withWorker, withQueue, WorkerPC.remaining, hc, IsWorker]
    | gotFrame v i q' c hc hq' => simp at hsame
    | sawEmpty | getSawEnd | getSawOpen | getWoken | workerSawOpen => cases hafter
  | worked calls w hpc hw =>
    rw [h.joined.linked.rereading_eq] at hw
    refine ⟨⟨hjoined, h.stopped, h.sent⟩, ?_⟩
    have hconsumer (hget : w.pc = .get) : s.queue.consumer = .outside := by
      rcases consumer_cases s.queue.consumer with hc | hc | hc
      · exact hc
      · have hleaving := hjoined.leaving hc
        simp [withWorker, hget, WorkerPC.leaving] at hleaving
      · exact absurd hc (h.joined.linked.outside hpc)
    have hlt := CaptureWorker.remaining_of_step hpc hw hconsumer
    simp only [remaining, withWorker, IsWorker, if_true]
    omega
  | called k hui =>
    refine ⟨⟨hjoined, h.stopped, h.sent⟩, ?_⟩
    rw [remaining, (untouched_call _ k).pc]
    exact Nat.le_refl _
  | dialog l hl hwait =>
    refine ⟨⟨hjoined, h.stopped, h.sent⟩, ?_⟩
    rw [remaining, (untouched_uiStep hl).pc]
    exact Nat.le_refl _

theorem closed_of_run (h : Closed queueSize dataSize s) {acts : List ThreadsAction}
    (hrun : Run (step env) anyStep s acts t) :
    Closed queueSize dataSize t ∧ t.remaining + acts.countP IsWorker ≤ s.remaining := by
  induction hrun with
  | nil => exact ⟨h, Nat.le_refl _⟩
  | @snoc t u acts a hrun hok hstep ih =>
    obtain ⟨hclosed, hle⟩ := ih
    obtain ⟨hclosed', hle'⟩ := hclosed.step (steps_of_step hstep)
    refine ⟨hclosed', ?_⟩
    rw [List.countP_append, List.countP_singleton]
    omega

theorem joined_of_run {captureFilename dtformat : CString} {ndigits : Int32} {last : AVICheckResult}
    {drops : Int32} {memory : Nat → Buffer} {acts : List ThreadsAction}
    (hrun : Run (step env) anyStep (start env (.buildCapturing captureFilename dtformat ndigits last)
      drops queueSize dataSize memory) acts s) : Joined queueSize dataSize s := by
  apply hrun.invariant
  · exact fun _ _ _ h _ hstep => h.step (steps_of_step hstep)
  · refine ⟨start_linked _ _ _ _ _ _, QueueThreads.start_signalled _ _ _, fun hc => ?_⟩
    simp [start, QueueThreads.start] at hc

/-- End Capture and `Destroy` return. While the dialog waits and the worker has not ended,
some thread can go on; and from when the device has stopped and the end of the stream is
sent, the worker can always go on, takes at most 11 steps for each frame in the ring and 17
more, and the dialog's wait is over once it has ended. -/
theorem end_capture_returns (env : CaptureEnv) (captureFilename dtformat : CString) (ndigits : Int32)
    (last : AVICheckResult) (drops : Int32) (queueSize dataSize : Nat) (hsize : 1 ≤ queueSize)
    (memory : Nat → Buffer) (before : List ThreadsAction) (s : CaptureThreads)
    (hbefore : Run (step env) anyStep (start env (.buildCapturing captureFilename dtformat ndigits
      last) drops queueSize dataSize memory) before s)
    (hwait : s.live.ui = .finalizeWait ∨ s.live.ui = .destroyWait) :
    (s.live.worker.hasEnded = false → s.CanGoOn env) ∧
      (s.queue.producer = .stopped → s.queue.finalizer = .returned →
        ∀ acts t, Run (step env) anyStep s acts t →
          acts.countP IsWorker ≤ 11 * s.queue.q.load + 17 ∧
          (t.live.worker.hasEnded = false → ∀ calls, (t.step env (.worker calls)).isSome = true) ∧
          (t.live.worker.hasEnded = true → t.live.ui = s.live.ui →
            (t.step env .ui).isSome = true)) := by
  have hs := joined_of_run hbefore
  refine ⟨hs.canGoOn hsize hwait, fun hstopped hsent acts t hrun => ?_⟩
  obtain ⟨ht, hle⟩ := closed_of_run ⟨hs, hstopped, hsent⟩ hrun
  have hbound := s.remaining_le
  refine ⟨by omega, fun hended => ?_, fun hended hui => ?_⟩
  · apply ht.joined.worker_isSome hended
    exact fun v => ht.joined.signalled.get_of_end (.inr ht.sent) v
  · rcases hwait with hw | hw
    · simp [step, uiStep, hui.trans hw, ht.stopped, ht.sent, LiveCapture.uiStep, hended]
    · simp [step, uiStep, hui.trans hw, ht.stopped, ht.sent, LiveCapture.uiStep, hended]

/-- End Capture, up to where the dialog waits for the thread with a frame in the ring. -/
def endCalled : List ThreadsAction :=
  startedLate ++ workerSteps 10 ++ longFrame 5 6 ++
    [.call .finalize, .ui, .ui, .ui, .ui, .finalizer, .finalizer, .finalizer]

theorem end_called_returns : ∃ s : CaptureThreads,
    Run (step (CaptureLoop.shortFrameEnv 10)) anyStep quietCamera endCalled s ∧
      s.queue.q.load = 1 ∧ s.CanGoOn (CaptureLoop.shortFrameEnv 10) ∧
      ∀ acts t, Run (step (CaptureLoop.shortFrameEnv 10)) anyStep s acts t →
        acts.countP IsWorker ≤ 28 := by
  have hcalled : (exec (step (CaptureLoop.shortFrameEnv 10)) anyStep quietCamera endCalled).any
      (fun s => s.live.ui = .finalizeWait ∧ s.live.worker.hasEnded = false ∧ s.queue.q.load = 1 ∧
        s.queue.producer = .stopped ∧ s.queue.finalizer = .returned) = true := by decide +kernel
  obtain ⟨s, hs, hwaits⟩ := (Option.any_eq_true _ _).mp hcalled
  obtain ⟨hui, hended, hload, hstopped, hsent⟩ := of_decide_eq_true hwaits
  have hrun := run_of_exec hs
  obtain ⟨hgo, hrest⟩ := end_capture_returns _ _ _ _ _ _ 2 2 (by decide) _ _ _ hrun (.inl hui)
  refine ⟨s, hrun, hload, hgo hended, fun acts t ht => ?_⟩
  obtain ⟨hbound, -⟩ := hrest hstopped hsent acts t ht
  rwa [hload] at hbound

end CaptureThreads

end WinDV
