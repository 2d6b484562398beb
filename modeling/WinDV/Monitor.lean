import WinDV.Transition

/-! `CMonitor`: the worker thread calls `HandleFrame`, `MonitoringThread` exposes
buffers and delivers them, and a third thread may run the destructor. Each access
to `m_sample`, `m_VW`, `m_ev` or a buffer is a step of its own, and `m_ev` resets
itself when a wait returns. -/

namespace WinDV

/-- A call of `HandleFrame`, by its place among the calls that bring a frame. -/
structure HandleFrameCall where
  number : Nat
  data : List UInt8
  deriving DecidableEq, Repr

inductive SampleWrite
  | copyMemory (data : List UInt8)
  | setActualDataLength (len : Nat)
  | setSyncPoint
  deriving DecidableEq, Repr

inductive BufferEvent
  | exposed
  | written (call : Nat) (w : SampleWrite)
  | delivered
  | released
  deriving DecidableEq, Repr

/-- Where the worker thread stands in `HandleFrame`; each use of `m_sample` is a
load of the pointer, and then a call on the buffer that was found. -/
inductive HandleFramePc
  | outside
  | testSample (c : HandleFrameCall)
  | loadForPointer (c : HandleFrameCall)
  | getPointer (c : HandleFrameCall) (buf : Nat)
  | clearFailed
  | copyMemory (c : HandleFrameCall) (ptr : Nat)
  | loadForLength (c : HandleFrameCall)
  | setLength (c : HandleFrameCall) (buf : Nat)
  | loadForSync (c : HandleFrameCall)
  | setSync (c : HandleFrameCall) (buf : Nat)
  | clearSample (c : HandleFrameCall)
  | setEvent (c : HandleFrameCall)
  /-- A call through a null pointer. -/
  | crashed
  deriving DecidableEq, Repr

/-- `MonitoringThread`, with its `pSample`; it sleeps before it exposes the buffer. -/
inductive MonitoringPc
  | getBuffer
  | sleeping (buf : Nat)
  | waiting (buf : Nat)
  | testVW (buf : Nat)
  | discarding (buf : Nat)
  | delivering (buf : Nat)
  | releasing (buf : Nat)
  | returned
  deriving DecidableEq, Repr

inductive DestructorPc
  | notCalled
  | settingEvent
  | waitingThread
  | finished
  deriving DecidableEq, Repr

/-- The members that the threads share, the position of each thread, how many
buffers `GetDeliveryBuffer` has given, the frames that `HandleFrame` was called
with, and what has become of the buffers. A buffer is counted anew each time it
is given. -/
structure CMonitor where
  sample : Option Nat
  ev : Bool
  vw : Bool
  worker : HandleFramePc
  thread : MonitoringPc
  destructor : DestructorPc
  buffers : Nat
  calls : List (List UInt8)
  history : List (Nat × BufferEvent)
  deriving DecidableEq, Repr

inductive MonitorAction
  /-- The worker calls `HandleFrame`; `none` is a null `data`. -/
  | call (data : Option (List UInt8))
  /-- The next step of the call; `ok` is whether `GetPointer` succeeds. -/
  | worker (ok : Bool)
  /-- The next step of `MonitoringThread`; `ok` is whether `GetDeliveryBuffer` does. -/
  | thread (ok : Bool)
  | destroy
  deriving DecidableEq, Repr

namespace CMonitor

/-- The thread of the constructor has started. -/
def start : CMonitor where
  sample := none
  ev := false
  vw := true
  worker := .outside
  thread := .getBuffer
  destructor := .notCalled
  buffers := 0
  calls := []
  history := []

def note (m : CMonitor) (buf : Nat) (e : BufferEvent) : CMonitor :=
  { m with history := m.history ++ [(buf, e)] }

/-- What has become of a buffer, in order. -/
def eventsOf (m : CMonitor) (buf : Nat) : List BufferEvent :=
  (m.history.filter (·.1 = buf)).map (·.2)

/-- `m_sample` is loaded, to call a method of the buffer. -/
def load (m : CMonitor) (next : Nat → HandleFramePc) : CMonitor :=
  match m.sample with
  | some buf => { m with worker := next buf }
  | none => { m with worker := .crashed }

def callStep (m : CMonitor) (data : Option (List UInt8)) : Option CMonitor :=
  match m.worker, data with
  | .outside, some data =>
    some { m with calls := m.calls ++ [data], worker := .testSample ⟨m.calls.length, data⟩ }
  | .outside, none => some m
  | _, _ => none

def workerStep (m : CMonitor) (ok : Bool) : Option CMonitor :=
  match m.worker with
  | .outside => none
  | .testSample c =>
    some { m with worker := if m.sample.isSome then .loadForPointer c else .outside }
  | .loadForPointer c => some (m.load (.getPointer c))
  | .getPointer c buf => some { m with worker := if ok then .copyMemory c buf else .clearFailed }
  | .clearFailed => some { m with sample := none, worker := .outside }
  | .copyMemory c ptr =>
    some { m.note ptr (.written c.number (.copyMemory c.data)) with worker := .loadForLength c }
  | .loadForLength c => some (m.load (.setLength c))
  | .setLength c buf =>
    some { m.note buf (.written c.number (.setActualDataLength c.data.length)) with
      worker := .loadForSync c }
  | .loadForSync c => some (m.load (.setSync c))
  | .setSync c buf =>
    some { m.note buf (.written c.number .setSyncPoint) with worker := .clearSample c }
  | .clearSample c => some { m with sample := none, worker := .setEvent c }
  | .setEvent _ => some { m with ev := true, worker := .outside }
  | .crashed => none

def threadStep (m : CMonitor) (ok : Bool) : Option CMonitor :=
  match m.thread with
  | .getBuffer =>
    if ok then some { m with buffers := m.buffers + 1, thread := .sleeping m.buffers } else some m
  | .sleeping buf => some { m.note buf .exposed with sample := some buf, thread := .waiting buf }
  | .waiting buf => if m.ev then some { m with ev := false, thread := .testVW buf } else none
  | .testVW buf => some { m with thread := if m.vw then .delivering buf else .discarding buf }
  | .discarding buf => some { m.note buf .released with thread := .returned }
  | .delivering buf => some { m.note buf .delivered with thread := .releasing buf }
  | .releasing buf => some { m.note buf .released with thread := .getBuffer }
  | .returned => none

/-- `~CMonitor`, which waits until `MonitoringThread` has returned. -/
def destroyStep (m : CMonitor) : Option CMonitor :=
  match m.destructor with
  | .notCalled => some { m with vw := false, destructor := .settingEvent }
  | .settingEvent => some { m with ev := true, destructor := .waitingThread }
  | .waitingThread =>
    if m.thread = .returned then some { m with destructor := .finished } else none
  | .finished => none

def step (m : CMonitor) : MonitorAction → Option CMonitor
  | .call data => m.callStep data
  | .worker ok => m.workerStep ok
  | .thread ok => m.threadStep ok
  | .destroy => m.destroyStep

/-- What one call of `HandleFrame` does to the buffer that it fills. -/
def filling (c : HandleFrameCall) : List BufferEvent :=
  [.written c.number (.copyMemory c.data), .written c.number (.setActualDataLength c.data.length),
    .written c.number .setSyncPoint]

/-- The call was made, with this frame. -/
def Called (m : CMonitor) (c : HandleFrameCall) : Prop := m.calls[c.number]? = some c.data

/-- No buffer is torn, and none is abandoned. -/
structure HandedOver (m : CMonitor) : Prop where
  /-- A delivered buffer was exposed, then filled by one call, and nothing more
  happens to it but its release. -/
  delivered : ∀ buf, .delivered ∈ m.eventsOf buf → ∃ c, m.Called c ∧
    (m.eventsOf buf = .exposed :: filling c ++ [.delivered] ∨
      m.eventsOf buf = .exposed :: filling c ++ [.delivered, .released])
  released : ∀ buf before after, m.eventsOf buf = before ++ .released :: after →
    ∀ call w, .written call w ∉ after
  /-- While the thread waits for a frame, the next one finds the buffer. -/
  waiting : ∀ buf, m.thread = .waiting buf → m.ev = false → m.worker = .outside →
    m.sample = some buf

end CMonitor

end WinDV
