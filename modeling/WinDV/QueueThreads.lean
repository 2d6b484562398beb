import WinDV.Queue
import WinDV.Transition

/-! The threads around one `CDVQueue`: a producer calling `Put` for each
frame, the worker calling `Get` or `GetWithTimeout`, and the thread that sends
the end of stream, `Put(-1, NULL, 0)`. A locked section, a read or write of
`m_end`, an event wait or signal and a timeout are one step each. -/

namespace WinDV

inductive ProducerPc
  | outside
  | testEnd (f : Frame)
  | locking (f : Frame)
  | waiting (f : Frame)
  | stopped
  deriving DecidableEq, Repr

/-- Where the finalizing thread stands in `Put(-1, NULL, 0)`. -/
inductive FinalizerPc
  | outside
  | settingEnd
  | signallingGet
  | signallingPut
  | returned
  deriving DecidableEq, Repr

inductive GetVariant
  | get
  | getWithTimeout
  deriving DecidableEq, Repr

/-- Where the worker stands in the method it called, or in the tests that
`CapturingThread` makes after the method returned false. -/
inductive ConsumerPc
  | outside
  | locking (v : GetVariant)
  | testEnd (v : GetVariant)
  | waiting (v : GetVariant)
  | returnedFalse (v : GetVariant)
  | testSignalLost
  | ended
  | signalLost
  deriving DecidableEq, Repr

/-- The queue, the position of each thread, and two histories: the frames
that `Put` accepted and those that the worker was handed. -/
structure QueueThreads where
  q : CDVQueue
  producer : ProducerPc
  finalizer : FinalizerPc
  consumer : ConsumerPc
  accepted : List Frame
  returned : List Frame

inductive QueueAction
  /-- The source delivers a frame. -/
  | put (f : Frame)
  /-- The source is stopped; no callback follows. -/
  | stopSource
  /-- The producer's next step inside `Put`. -/
  | producer
  | finalize
  | finalizer
  | get (v : GetVariant)
  /-- The worker's next step; `capturing` is what it reads from `m_state`, where it reads it. -/
  | consumer (capturing : Bool)
  /-- The worker's timed wait expires. -/
  | timeout
  deriving DecidableEq, Repr

namespace QueueThreads

def start (queueSize dataSize : Nat) (memory : Nat → Buffer) : QueueThreads where
  q := CDVQueue.new queueSize dataSize memory
  producer := .outside
  finalizer := .outside
  consumer := .outside
  accepted := []
  returned := []

def producerStep (s : QueueThreads) : Option QueueThreads :=
  match s.producer with
  | .testEnd f =>
    if s.q.isEnd then some { s with producer := .outside }
    else some { s with producer := .locking f }
  | .locking f =>
    match s.q.putLocked f.duration f.data f.data.length with
    | some q => some { s with q := q, producer := .outside, accepted := s.accepted ++ [f] }
    | none => some { s with producer := .waiting f }
  | .waiting f =>
    if s.q.evPut then some { s with q := { s.q with evPut := false }, producer := .testEnd f }
    else none
  | .outside => none
  | .stopped => none

def finalizerStep (s : QueueThreads) : Option QueueThreads :=
  match s.finalizer with
  | .settingEnd => some { s with q := { s.q with isEnd := true }, finalizer := .signallingGet }
  | .signallingGet => some { s with q := { s.q with evGet := true }, finalizer := .signallingPut }
  | .signallingPut => some { s with q := { s.q with evPut := true }, finalizer := .returned }
  | .outside => none
  | .returned => none

def consumerStep (s : QueueThreads) (capturing : Bool) : Option QueueThreads :=
  match s.consumer with
  | .locking v =>
    match s.q.getLocked with
    | some (i, q) =>
      some { s with q := q, consumer := .outside, returned := s.returned ++ [(s.q.queue i).frame] }
    | none => some { s with consumer := .testEnd v }
  | .testEnd v =>
    if s.q.isEnd then some { s with consumer := .returnedFalse v }
    else some { s with consumer := .waiting v }
  | .waiting v =>
    if s.q.evGet then some { s with q := { s.q with evGet := false }, consumer := .locking v }
    else none
  -- `if (!gotFrame && m_queue->m_end)` of `CapturingThread`
  | .returnedFalse _ =>
    if s.q.isEnd then some { s with consumer := .ended }
    else some { s with consumer := .testSignalLost }
  -- `if (!gotFrame && !m_queue->m_end && m_state == Capturing)`
  | .testSignalLost =>
    if !s.q.isEnd && capturing then some { s with consumer := .signalLost }
    else some { s with consumer := .outside }
  | .outside => none
  | .ended => none
  | .signalLost => none

def step (s : QueueThreads) : QueueAction → Option QueueThreads
  | .put f => if s.producer = .outside then some { s with producer := .testEnd f } else none
  | .stopSource => if s.producer = .outside then some { s with producer := .stopped } else none
  | .producer => s.producerStep
  | .finalize => if s.finalizer = .outside then some { s with finalizer := .settingEnd } else none
  | .finalizer => s.finalizerStep
  | .get v => if s.consumer = .outside then some { s with consumer := .locking v } else none
  | .consumer capturing => s.consumerStep capturing
  -- a wait reports WAIT_TIMEOUT only while its event is not signalled
  | .timeout =>
    if s.consumer = .waiting .getWithTimeout ∧ s.q.evGet = false then
      some { s with consumer := .returnedFalse .getWithTimeout }
    else none

/-- What a step can do, one constructor for each branch of the threads. -/
inductive Steps (s : QueueThreads) : QueueAction → QueueThreads → Prop
  | putCalled (f : Frame) (hp : s.producer = .outside) :
    Steps s (.put f) { s with producer := .testEnd f }
  | sourceStopped (hp : s.producer = .outside) : Steps s .stopSource { s with producer := .stopped }
  | putSawEnd (f : Frame) (hp : s.producer = .testEnd f) (he : s.q.isEnd = true) :
    Steps s .producer { s with producer := .outside }
  | putSawOpen (f : Frame) (hp : s.producer = .testEnd f) (he : s.q.isEnd = false) :
    Steps s .producer { s with producer := .locking f }
  | putAccepted (f : Frame) (q : CDVQueue) (hp : s.producer = .locking f)
    (hq : s.q.putLocked f.duration f.data f.data.length = some q) :
    Steps s .producer { s with q := q, producer := .outside, accepted := s.accepted ++ [f] }
  | putFull (f : Frame) (hp : s.producer = .locking f)
    (hq : s.q.putLocked f.duration f.data f.data.length = none) :
    Steps s .producer { s with producer := .waiting f }
  | putWoken (f : Frame) (hp : s.producer = .waiting f) (he : s.q.evPut = true) :
    Steps s .producer { s with q := { s.q with evPut := false }, producer := .testEnd f }
  | finalizeCalled (hf : s.finalizer = .outside) :
    Steps s .finalize { s with finalizer := .settingEnd }
  | endSet (hf : s.finalizer = .settingEnd) :
    Steps s .finalizer { s with q := { s.q with isEnd := true }, finalizer := .signallingGet }
  | getSignalled (hf : s.finalizer = .signallingGet) :
    Steps s .finalizer { s with q := { s.q with evGet := true }, finalizer := .signallingPut }
  | putSignalled (hf : s.finalizer = .signallingPut) :
    Steps s .finalizer { s with q := { s.q with evPut := true }, finalizer := .returned }
  | getCalled (v : GetVariant) (hc : s.consumer = .outside) :
    Steps s (.get v) { s with consumer := .locking v }
  | gotFrame (v : GetVariant) (i : Nat) (q : CDVQueue) (c : Bool) (hc : s.consumer = .locking v)
    (hq : s.q.getLocked = some (i, q)) :
    Steps s (.consumer c) { s with
      q := q, consumer := .outside, returned := s.returned ++ [(s.q.queue i).frame] }
  | sawEmpty (v : GetVariant) (c : Bool) (hc : s.consumer = .locking v) (hq : s.q.getLocked = none) :
    Steps s (.consumer c) { s with consumer := .testEnd v }
  | getSawEnd (v : GetVariant) (c : Bool) (hc : s.consumer = .testEnd v) (he : s.q.isEnd = true) :
    Steps s (.consumer c) { s with consumer := .returnedFalse v }
  | getSawOpen (v : GetVariant) (c : Bool) (hc : s.consumer = .testEnd v) (he : s.q.isEnd = false) :
    Steps s (.consumer c) { s with consumer := .waiting v }
  | getWoken (v : GetVariant) (c : Bool) (hc : s.consumer = .waiting v) (he : s.q.evGet = true) :
    Steps s (.consumer c) { s with q := { s.q with evGet := false }, consumer := .locking v }
  | workerEnded (v : GetVariant) (c : Bool) (hc : s.consumer = .returnedFalse v)
    (he : s.q.isEnd = true) : Steps s (.consumer c) { s with consumer := .ended }
  | workerSawOpen (v : GetVariant) (c : Bool) (hc : s.consumer = .returnedFalse v)
    (he : s.q.isEnd = false) : Steps s (.consumer c) { s with consumer := .testSignalLost }
  | workerLost (c : Bool) (hc : s.consumer = .testSignalLost) :
    Steps s (.consumer c) { s with consumer := .signalLost }
  | workerLoops (c : Bool) (hc : s.consumer = .testSignalLost) :
    Steps s (.consumer c) { s with consumer := .outside }
  | timedOut (hc : s.consumer = .waiting .getWithTimeout) (he : s.q.evGet = false) :
    Steps s .timeout { s with consumer := .returnedFalse .getWithTimeout }

theorem steps_of_producerStep {s t : QueueThreads} (h : s.producerStep = some t) :
    Steps s .producer t := by
  unfold producerStep at h
  split at h
  · next f hp =>
    split at h <;> obtain rfl := Option.some.inj h
    · exact .putSawEnd f hp ‹_›
    · exact .putSawOpen f hp (Bool.eq_false_iff.mpr ‹_›)
  · next f hp =>
    split at h <;> obtain rfl := Option.some.inj h
    · exact .putAccepted f _ hp ‹_›
    · exact .putFull f hp ‹_›
  · next f hp =>
    split at h
    · obtain rfl := Option.some.inj h
      exact .putWoken f hp ‹_›
    · cases h
  · cases h
  · cases h

theorem steps_of_finalizerStep {s t : QueueThreads} (h : s.finalizerStep = some t) :
    Steps s .finalizer t := by
  unfold finalizerStep at h
  split at h
  · obtain rfl := Option.some.inj h
    exact .endSet ‹_›
  · obtain rfl := Option.some.inj h
    exact .getSignalled ‹_›
  · obtain rfl := Option.some.inj h
    exact .putSignalled ‹_›
  · cases h
  · cases h

theorem steps_of_consumerStep {s t : QueueThreads} {c : Bool} (h : s.consumerStep c = some t) :
    Steps s (.consumer c) t := by
  unfold consumerStep at h
  split at h
  · next v hc =>
    split at h <;> obtain rfl := Option.some.inj h
    · exact .gotFrame v _ _ c hc ‹_›
    · exact .sawEmpty v c hc ‹_›
  · next v hc =>
    split at h <;> obtain rfl := Option.some.inj h
    · exact .getSawEnd v c hc ‹_›
    · exact .getSawOpen v c hc (Bool.eq_false_iff.mpr ‹_›)
  · next v hc =>
    split at h
    · obtain rfl := Option.some.inj h
      exact .getWoken v c hc ‹_›
    · cases h
  · next v hc =>
    split at h <;> obtain rfl := Option.some.inj h
    · exact .workerEnded v c hc ‹_›
    · exact .workerSawOpen v c hc (Bool.eq_false_iff.mpr ‹_›)
  · split at h <;> obtain rfl := Option.some.inj h
    · exact .workerLost c ‹_›
    · exact .workerLoops c ‹_›
  · cases h
  · cases h
  · cases h

theorem steps_of_step {s t : QueueThreads} {a : QueueAction} (h : s.step a = some t) :
    Steps s a t := by
  cases a <;> simp only [step, Option.ite_none_right_eq_some, Option.some.injEq] at h
  case put f =>
    obtain ⟨hp, rfl⟩ := h
    exact .putCalled f hp
  case stopSource =>
    obtain ⟨hp, rfl⟩ := h
    exact .sourceStopped hp
  case producer => exact steps_of_producerStep h
  case finalize =>
    obtain ⟨hf, rfl⟩ := h
    exact .finalizeCalled hf
  case finalizer => exact steps_of_finalizerStep h
  case get v =>
    obtain ⟨hc, rfl⟩ := h
    exact .getCalled v hc
  case consumer c => exact steps_of_consumerStep h
  case timeout =>
    obtain ⟨⟨hc, he⟩, rfl⟩ := h
    exact .timedOut hc he

/-- The worker took the stream as ended: `Get` returned false, or
`GetWithTimeout` did and `CapturingThread` then read `m_end` as true. -/
def ConcludedEnd (s : QueueThreads) : Prop :=
  s.consumer = .returnedFalse .get ∨ s.consumer = .ended

instance (s : QueueThreads) : Decidable s.ConcludedEnd :=
  inferInstanceAs (Decidable (_ ∨ _))

/-- The end of stream is sent only after the source was stopped, as
`FinalizeCapturing` does. -/
def FinalizesLast (s : QueueThreads) (a : QueueAction) : Prop :=
  a = .finalize → s.producer = .stopped

instance (s : QueueThreads) (a : QueueAction) : Decidable (s.FinalizesLast a) :=
  inferInstanceAs (Decidable (_ → _))

/-- Every accepted frame was handed to the worker, in order, with the bytes
that fit a slot. -/
def AllReturned (s : QueueThreads) : Prop :=
  s.accepted.map (·.clamp s.q.dataSize) = s.returned

/-- The worker saw the ring empty, or its wait expired, and it has yet to read `m_end`. -/
def BeforeEndTest (s : QueueThreads) : Prop :=
  match s.consumer with
  | .testEnd _ => True
  | .returnedFalse _ => True
  | _ => False

instance (s : QueueThreads) : Decidable s.BeforeEndTest :=
  match h : s.consumer with
  | .testEnd _ => .isTrue (by simp [BeforeEndTest, h])
  | .returnedFalse _ => .isTrue (by simp [BeforeEndTest, h])
  | .outside | .locking _ | .waiting _ | .testSignalLost | .ended | .signalLost =>
    .isFalse (by simp [BeforeEndTest, h])

/-- `m_end` is not written between an empty-ring test of the worker and its
read of `m_end` when a frame came into the ring after that test. -/
def SetsEndQuietly (s : QueueThreads) (a : QueueAction) : Prop :=
  a = .finalizer → s.finalizer = .settingEnd → s.BeforeEndTest → s.q.load = 0

instance (s : QueueThreads) (a : QueueAction) : Decidable (s.SetsEndQuietly a) :=
  inferInstanceAs (Decidable (_ → _ → _ → _))

end QueueThreads

end WinDV
