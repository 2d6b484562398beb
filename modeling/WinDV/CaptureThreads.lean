import WinDV.LiveWorker
import WinDV.EndOfStream
import WinDV.BorrowedSlot
import WinDV.QueueWakeups

/-! Capturing with all its threads: the device calls `CDV::HandleFrame`, which
queues the frame; the worker thread takes it from the queue and writes it to a
file; and the dialog calls the commands. -/

namespace WinDV

/-- `buffer` is the slot whose data pointer the worker got last. -/
structure CaptureThreads where
  queue : QueueThreads
  live : LiveCapture
  buffer : Nat

inductive ThreadsAction
  /-- The device delivers a frame. -/
  | put (f : Frame)
  /-- The device's next step inside `Put`. -/
  | producer
  /-- `CInputPin::EndOfStream`. -/
  | deviceEnds
  /-- A step of `Put(-1, NULL, 0)`, whoever called it. -/
  | finalizer
  | call (k : Command)
  | ui
  | worker (calls : Calls)
  /-- The worker's timed wait expires. -/
  | timeout
  deriving DecidableEq

namespace CaptureThreads

def start (env : CaptureEnv) (c : CDV) (drops : Int32) (queueSize dataSize : Nat) (memory : Nat → Buffer) :
    CaptureThreads where
  queue := .start queueSize dataSize memory
  live := .start env c drops
  buffer := 0

def withQueue (s : CaptureThreads) (q : QueueThreads) : CaptureThreads := { s with queue := q }

def withWorker (s : CaptureThreads) (w : CaptureWorker) : CaptureThreads :=
  { s with live := { s.live with worker := w } }

def withPC (s : CaptureThreads) (pc : WorkerPC) : CaptureThreads :=
  s.withWorker { s.live.worker with pc := pc }

def queueStep (s : CaptureThreads) (a : QueueAction) : Option CaptureThreads :=
  (s.queue.step a).map s.withQueue

/-- The frame as `data` and `len` give it now: the bytes are still those of the slot. -/
def reread (s : CaptureThreads) (d : DequeuedFrame) : DequeuedFrame :=
  { d with frame :=
      ⟨d.frame.duration, (s.queue.q.queue s.buffer).data.take d.frame.data.length⟩ }

/-- What the worker does once the queue's step is done: with a frame it reads the
recording time, without one it makes the tests after the call. -/
def afterGet (env : CaptureEnv) (s : CaptureThreads) (calls : Calls) (q : QueueThreads) :
    Option CaptureThreads :=
  let t := s.withQueue q
  match s.queue.consumer, q.consumer with
  | .locking _, .outside =>
    (s.live.worker.step env ⟨.frame (s.queue.q.queue s.queue.q.head).frame, calls⟩).map fun w =>
      { t.withWorker w with buffer := s.queue.q.head }
  | .returnedFalse _, .ended => some (t.withPC .endTest)
  | .testSignalLost, .signalLost => some (t.withPC .timeoutStore)
  | .testSignalLost, .outside => some (t.withPC .top)
  | _, _ => some t

def getVariant (env : CaptureEnv) : GetVariant :=
  if env.autoStopTimeout > 0 then .getWithTimeout else .get

def getStep (env : CaptureEnv) (s : CaptureThreads) (calls : Calls) : Option CaptureThreads :=
  if s.queue.consumer = .outside then s.queueStep (.get (getVariant env))
  else (s.queue.step (.consumer (s.live.worker.state == .capturing))).bind (s.afterGet env calls)

/-- The worker as its next step finds it: `HandleFrame` copies from the slot. -/
def rereading (s : CaptureThreads) : CaptureWorker :=
  match s.live.worker.pc with
  | .write d => { s.live.worker with pc := .write (s.reread d) }
  | _ => s.live.worker

def workerStep (env : CaptureEnv) (s : CaptureThreads) (calls : Calls) : Option CaptureThreads :=
  if s.live.worker.pc = .get then s.getStep env calls
  else (s.rereading.step env ⟨.timeout, calls⟩).map s.withWorker

/-- The dialog: `FinalizeCapturing` stops the device and then sends the end of the
stream, `Destroy` the other way round; both then wait for the thread. -/
def uiStep (s : CaptureThreads) : Option CaptureThreads :=
  match s.live.ui with
  | .finalizeWait =>
    if s.queue.producer ≠ .stopped then s.queueStep .stopSource
    else if s.queue.finalizer = .outside then s.queueStep .finalize
    else if s.queue.finalizer = .returned then s.live.uiStep.map fun l => { s with live := l }
    else none
  | .destroyWait =>
    if s.queue.finalizer = .outside then s.queueStep .finalize
    else if s.queue.finalizer ≠ .returned then none
    else if s.queue.producer ≠ .stopped then s.queueStep .stopSource
    else s.live.uiStep.map fun l => { s with live := l }
  | _ => s.live.uiStep.map fun l => { s with live := l }

def step (env : CaptureEnv) (s : CaptureThreads) : ThreadsAction → Option CaptureThreads
  | .put f => s.queueStep (.put f)
  | .producer => s.queueStep .producer
  | .deviceEnds => (s.queueStep .stopSource).bind fun t => t.queueStep .finalize
  | .finalizer => s.queueStep .finalizer
  | .call k => (s.live.step env (.call k)).map fun l => { s with live := l }
  | .ui => s.uiStep
  | .worker calls => s.workerStep env calls
  | .timeout => s.queueStep .timeout

/-- The steps of the queue that are not the worker's. -/
def OfSource : QueueAction → Prop
  | .put _ | .producer | .stopSource | .finalize | .finalizer => True
  | .get _ | .consumer _ | .timeout => False

/-- The worker is in its call, or in the tests after it. -/
def Calling : ConsumerPc → Prop
  | .locking _ | .testEnd _ | .waiting _ | .returnedFalse _ | .testSignalLost => True
  | .outside | .ended | .signalLost => False

/-- How the tests after a call that got no frame come out. -/
inductive Concludes : ConsumerPc → WorkerPC → Prop
  | ended : Concludes .ended .endTest
  | signalLost : Concludes .signalLost .timeoutStore
  | again : Concludes .outside .top

/-- What a step can do, one constructor for each thread and what it does. -/
inductive Steps (env : CaptureEnv) (s : CaptureThreads) : ThreadsAction → CaptureThreads → Prop
  | source (a : ThreadsAction) (b : QueueAction) (q : QueueThreads) (ha : ∀ calls, a ≠ .worker calls)
    (hb : OfSource b) (hfin : b = .finalize → s.queue.producer = .stopped ∨ s.live.ui = .destroyWait)
    (hput : b = .finalizer → a = .finalizer) (hq : s.queue.step b = some q) :
    Steps env s a (s.withQueue q)
  | deviceEnded (q q' : QueueThreads) (hq : s.queue.step .stopSource = some q)
    (hq' : q.step .finalize = some q') : Steps env s .deviceEnds (s.withQueue q')
  | expired (q : QueueThreads) (hq : s.queue.step .timeout = some q) :
    Steps env s .timeout (s.withQueue q)
  | calling (calls : Calls) (b : QueueAction) (q : QueueThreads) (hpc : s.live.worker.pc = .get)
    (hb : ¬ OfSource b) (hq : s.queue.step b = some q) (hsame : q.returned = s.queue.returned)
    (hcall : Calling q.consumer) : Steps env s (.worker calls) (s.withQueue q)
  | gotFrame (calls : Calls) (v : GetVariant) (c : Bool) (q : CDVQueue) (w : CaptureWorker)
    (hpc : s.live.worker.pc = .get) (hc : s.queue.consumer = .locking v)
    (hq : s.queue.q.getLocked = some (s.queue.q.head, q))
    (hw : s.live.worker.step env
      ⟨.frame (s.queue.q.queue s.queue.q.head).frame, calls⟩ = some w) :
    Steps env s (.worker calls)
      { s with
        queue := { s.queue with
          q := q, consumer := .outside
          returned := s.queue.returned ++ [(s.queue.q.queue s.queue.q.head).frame] }
        live := { s.live with worker := w }
        buffer := s.queue.q.head }
  | concluded (calls : Calls) (c : Bool) (q : QueueThreads) (pc : WorkerPC)
    (hpc : s.live.worker.pc = .get) (hq : s.queue.step (.consumer c) = some q)
    (hsame : q.returned = s.queue.returned) (hafter : Concludes q.consumer pc) :
    Steps env s (.worker calls) ((s.withQueue q).withPC pc)
  | worked (calls : Calls) (w : CaptureWorker) (hpc : s.live.worker.pc ≠ .get)
    (hw : s.rereading.step env ⟨.timeout, calls⟩ = some w) :
    Steps env s (.worker calls) (s.withWorker w)
  | called (k : Command) (hui : s.live.ui = .idle) :
    Steps env s (.call k) { s with live := LiveCapture.call s.live.worker k }
  | dialog (l : LiveCapture) (hl : s.live.uiStep = some l)
    (hwait : s.live.ui = .finalizeWait ∨ s.live.ui = .destroyWait →
      s.queue.producer = .stopped ∧ s.queue.finalizer = .returned) :
    Steps env s .ui { s with live := l }

variable {env : CaptureEnv} {s t : CaptureThreads}

theorem queueStep_eq_some {a : QueueAction} (h : s.queueStep a = some t) :
    ∃ q, s.queue.step a = some q ∧ t = s.withQueue q := by
  obtain ⟨q, hq, rfl⟩ := Option.map_eq_some_iff.mp h
  exact ⟨q, hq, rfl⟩

theorem steps_of_afterGet {calls : Calls} {c : Bool} {q : QueueThreads}
    (hpc : s.live.worker.pc = .get) (hq : s.queue.step (.consumer c) = some q)
    (h : s.afterGet env calls q = some t) : Steps env s (.worker calls) t := by
  have hsteps := QueueThreads.steps_of_step hq
  have hb : ¬ OfSource (.consumer c) := id
  cases hsteps with
  | gotFrame v i q' c hc hget =>
    obtain ⟨-, rfl, -⟩ := CDVQueue.getLocked_eq_some hget
    simp only [afterGet, hc, Option.map_eq_some_iff] at h
    obtain ⟨w, hw, rfl⟩ := h
    exact .gotFrame calls v c q' w hpc hc hget hw
  | sawEmpty v c hc _ | getSawEnd v c hc _ | getSawOpen v c hc _ | getWoken v c hc _
  | workerSawOpen v c hc _ =>
    simp only [afterGet, hc, Option.some.injEq] at h
    rw [← h]
    exact .calling calls _ _ hpc hb hq rfl trivial
  | workerEnded v c hc he =>
    simp only [afterGet, hc, Option.some.injEq] at h
    rw [← h]
    exact .concluded calls c _ _ hpc hq rfl .ended
  | workerLost c hc =>
    simp only [afterGet, hc, Option.some.injEq] at h
    rw [← h]
    exact .concluded calls c _ _ hpc hq rfl .signalLost
  | workerLoops c hc =>
    simp only [afterGet, hc, Option.some.injEq] at h
    rw [← h]
    exact .concluded calls c _ _ hpc hq rfl .again

theorem steps_of_workerStep {calls : Calls} (h : s.workerStep env calls = some t) :
    Steps env s (.worker calls) t := by
  unfold workerStep getStep at h
  split at h
  · next hpc =>
    split at h
    · next hout =>
      obtain ⟨q, hq, rfl⟩ := queueStep_eq_some h
      have hsteps := QueueThreads.steps_of_step hq
      cases hsteps
      exact .calling calls _ _ hpc id hq rfl trivial
    · obtain ⟨q, hq, hafter⟩ := Option.bind_eq_some_iff.mp h
      exact steps_of_afterGet hpc hq hafter
  · next hpc =>
    obtain ⟨w, hw, rfl⟩ := Option.map_eq_some_iff.mp h
    exact .worked calls w hpc hw

theorem steps_of_uiStep (h : s.uiStep = some t) : Steps env s .ui t := by
  have hsource (b : QueueAction) (hb : OfSource b)
      (hfin : b = .finalize → s.queue.producer = .stopped ∨ s.live.ui = .destroyWait)
      (hput : b = .finalizer → ThreadsAction.ui = .finalizer) (h : s.queueStep b = some t) :
      Steps env s .ui t := by
    obtain ⟨q, hq, rfl⟩ := queueStep_eq_some h
    exact .source .ui b q (by simp) hb hfin hput hq
  unfold uiStep at h
  split at h
  · next hui =>
    split at h
    · exact hsource .stopSource trivial (by simp) (by simp) h
    · next hstopped =>
      have hstopped := not_not.mp hstopped
      split at h
      · exact hsource .finalize trivial (fun _ => .inl hstopped) (by simp) h
      · split at h
        · next hput =>
          obtain ⟨l, hl, rfl⟩ := Option.map_eq_some_iff.mp h
          exact .dialog l hl fun _ => ⟨hstopped, hput⟩
        · cases h
  · next hui =>
    split at h
    · exact hsource .finalize trivial (fun _ => .inr hui) (by simp) h
    · split at h
      · cases h
      · next hput =>
        split at h
        · exact hsource .stopSource trivial (by simp) (by simp) h
        · next hstopped =>
          obtain ⟨l, hl, rfl⟩ := Option.map_eq_some_iff.mp h
          exact .dialog l hl fun _ => ⟨not_not.mp hstopped, not_not.mp hput⟩
  · next hfin hdes =>
    obtain ⟨l, hl, rfl⟩ := Option.map_eq_some_iff.mp h
    exact .dialog l hl fun hui => (hui.elim hfin hdes).elim

theorem steps_of_step {a : ThreadsAction} (h : s.step env a = some t) : Steps env s a t := by
  cases a with
  | put f =>
    obtain ⟨q, hq, rfl⟩ := queueStep_eq_some h
    exact .source _ (.put f) q (by simp) trivial (by simp) (by simp) hq
  | producer =>
    obtain ⟨q, hq, rfl⟩ := queueStep_eq_some h
    exact .source _ .producer q (by simp) trivial (by simp) (by simp) hq
  | deviceEnds =>
    obtain ⟨u, hu, ht⟩ := Option.bind_eq_some_iff.mp h
    obtain ⟨q, hq, rfl⟩ := queueStep_eq_some hu
    obtain ⟨q', hq', rfl⟩ := queueStep_eq_some ht
    exact .deviceEnded q q' hq hq'
  | finalizer =>
    obtain ⟨q, hq, rfl⟩ := queueStep_eq_some h
    exact .source _ .finalizer q (by simp) trivial (by simp) (fun _ => rfl) hq
  | call k =>
    obtain ⟨l, hl, rfl⟩ := Option.map_eq_some_iff.mp h
    simp only [LiveCapture.step, Option.ite_none_right_eq_some, Option.some.injEq] at hl
    obtain ⟨hui, rfl⟩ := hl
    exact .called k hui
  | ui => exact steps_of_uiStep h
  | worker calls => exact steps_of_workerStep h
  | timeout =>
    obtain ⟨q, hq, rfl⟩ := queueStep_eq_some h
    exact .expired q hq

end CaptureThreads

end WinDV
