import WinDV.CAVIWriter
import WinDV.Transition

/-! `CDV::RecordingThread` between the frame queue, a FIFO here, and the
commands of the dialog, each of them one step but for `Destroy`, which sets the
state, ends the queue and waits for the thread. What the thread reads and
writes between two accesses to the state or the queue is one step. -/

namespace WinDV

inductive RecordingPc
  | firstGet
  | testLoop
  | forwarding
  | testRecording
  | nextGet
  | testFinish
  | storingFinished
  | returned
  deriving DecidableEq, Repr

inductive DestroyerPc
  | notCalled
  | endingQueue
  | waitingThread
  | returned
  deriving DecidableEq, Repr

/-- A frame that the thread took from the queue, and what it found in `m_state`
each time after it had forwarded it. -/
structure Airing where
  frame : Frame
  tests : List CDVState
  deriving DecidableEq, Repr

/-- `current` is the frame in the thread's buffer, `past` are the ones before it,
and `forwarded` is what `CDVOutput::HandleFrame` was called with. -/
structure RecordingThread where
  incoming : List Frame
  queue : List Frame
  isEnd : Bool
  state : CDVState
  pc : RecordingPc
  destroyer : DestroyerPc
  counter : Int32
  time : Int
  past : List Airing
  current : Option Airing
  forwarded : List Frame
  deriving DecidableEq, Repr

inductive RecordingAction
  /-- The source puts its next frame, which an ended queue discards. -/
  | put
  /-- The source has no more frames. -/
  | endOfStream
  | worker
  | startRecording
  | stopRecording
  | destroy
  | destroyer
  deriving DecidableEq, Repr

namespace RecordingThread

/-- As `BuildRecording` leaves it. -/
def start (source : List Frame) : RecordingThread where
  incoming := source
  queue := []
  isEnd := false
  state := .recordPaused
  pc := .firstGet
  destroyer := .notCalled
  counter := -1
  time := -1
  past := []
  current := none
  forwarded := []

def workerStep (s : RecordingThread) : Option RecordingThread :=
  match s.pc with
  | .firstGet =>
    match s.queue with
    | f :: queue => some { s with
        queue := queue, current := some ⟨f, []⟩, counter := 0, time := 0, pc := .testLoop }
    | [] => if s.isEnd then some { s with pc := .returned } else none
  | .testLoop =>
    if s.state = .idle then some { s with pc := .returned } else some { s with pc := .forwarding }
  | .forwarding => s.current.map fun a =>
    { s with forwarded := s.forwarded ++ [a.frame], pc := .testRecording }
  | .testRecording => s.current.map fun a =>
    let s := { s with current := some { a with tests := a.tests ++ [s.state] } }
    if s.state = .recording then
      { s with counter := s.counter + 1, time := s.time + a.frame.duration, pc := .nextGet }
    else { s with pc := .testLoop }
  | .nextGet =>
    match s.queue with
    | f :: queue => some { s with
        queue := queue, past := s.past ++ s.current.toList, current := some ⟨f, []⟩, pc := .testLoop }
    | [] => if s.isEnd then some { s with pc := .testFinish } else none
  | .testFinish =>
    if s.state ≠ .idle then some { s with pc := .storingFinished } else some { s with pc := .testLoop }
  | .storingFinished => some { s with state := .finished, pc := .testLoop }
  | .returned => none

def destroyerStep (s : RecordingThread) : Option RecordingThread :=
  match s.destroyer with
  | .notCalled => none
  | .endingQueue => some { s with isEnd := true, destroyer := .waitingThread }
  | .waitingThread =>
    if s.pc = .returned then some { s with counter := -1, time := -1, destroyer := .returned } else none
  | .returned => none

def step (s : RecordingThread) : RecordingAction → Option RecordingThread
  | .put =>
    match s.incoming with
    | [] => none
    | f :: incoming =>
      some { s with incoming := incoming, queue := if s.isEnd then s.queue else s.queue ++ [f] }
  | .endOfStream => if s.incoming = [] then some { s with isEnd := true } else none
  | .worker => s.workerStep
  | .startRecording =>
    if s.destroyer = .notCalled then
      some { s with state := if s.state = .recordPaused then .recording else s.state }
    else none
  | .stopRecording =>
    if s.destroyer = .notCalled then
      some { s with state := if s.state = .recording then .recordPaused else s.state }
    else none
  | .destroy =>
    if s.destroyer = .notCalled then some { s with state := .idle, destroyer := .endingQueue } else none
  | .destroyer => s.destroyerStep

/-- What a step can do, one constructor for each branch. -/
inductive Steps (s : RecordingThread) : RecordingAction → RecordingThread → Prop
  | queued (f : Frame) (incoming : List Frame) (hi : s.incoming = f :: incoming)
    (he : s.isEnd = false) :
    Steps s .put { s with incoming := incoming, queue := s.queue ++ [f] }
  | discarded (f : Frame) (incoming : List Frame) (hi : s.incoming = f :: incoming)
    (he : s.isEnd = true) : Steps s .put { s with incoming := incoming }
  | ended (hi : s.incoming = []) : Steps s .endOfStream { s with isEnd := true }
  | gotFirst (f : Frame) (queue : List Frame) (hp : s.pc = .firstGet) (hq : s.queue = f :: queue) :
    Steps s .worker { s with
      queue := queue, current := some ⟨f, []⟩, counter := 0, time := 0, pc := .testLoop }
  | gotNone (hp : s.pc = .firstGet) (hq : s.queue = []) (he : s.isEnd = true) :
    Steps s .worker { s with pc := .returned }
  | loopEnded (hp : s.pc = .testLoop) (hs : s.state = .idle) :
    Steps s .worker { s with pc := .returned }
  | loopEntered (hp : s.pc = .testLoop) (hs : s.state ≠ .idle) :
    Steps s .worker { s with pc := .forwarding }
  | frameForwarded (a : Airing) (hp : s.pc = .forwarding) (hc : s.current = some a) :
    Steps s .worker { s with forwarded := s.forwarded ++ [a.frame], pc := .testRecording }
  | counted (a : Airing) (hp : s.pc = .testRecording) (hc : s.current = some a)
    (hs : s.state = .recording) :
    Steps s .worker { s with
      current := some { a with tests := a.tests ++ [s.state] }
      counter := s.counter + 1, time := s.time + a.frame.duration, pc := .nextGet }
  | notCounted (a : Airing) (hp : s.pc = .testRecording) (hc : s.current = some a)
    (hs : s.state ≠ .recording) :
    Steps s .worker { s with
      current := some { a with tests := a.tests ++ [s.state] }, pc := .testLoop }
  | gotNext (f : Frame) (queue : List Frame) (hp : s.pc = .nextGet) (hq : s.queue = f :: queue) :
    Steps s .worker { s with
      queue := queue, past := s.past ++ s.current.toList, current := some ⟨f, []⟩, pc := .testLoop }
  | gotNoMore (hp : s.pc = .nextGet) (hq : s.queue = []) (he : s.isEnd = true) :
    Steps s .worker { s with pc := .testFinish }
  | finishes (hp : s.pc = .testFinish) (hs : s.state ≠ .idle) :
    Steps s .worker { s with pc := .storingFinished }
  | destroyedMeanwhile (hp : s.pc = .testFinish) (hs : s.state = .idle) :
    Steps s .worker { s with pc := .testLoop }
  | finished (hp : s.pc = .storingFinished) :
    Steps s .worker { s with state := .finished, pc := .testLoop }
  | recordingStarted (hd : s.destroyer = .notCalled) :
    Steps s .startRecording { s with
      state := if s.state = .recordPaused then .recording else s.state }
  | recordingStopped (hd : s.destroyer = .notCalled) :
    Steps s .stopRecording { s with
      state := if s.state = .recording then .recordPaused else s.state }
  | destroyCalled (hd : s.destroyer = .notCalled) :
    Steps s .destroy { s with state := .idle, destroyer := .endingQueue }
  | queueEnded (hd : s.destroyer = .endingQueue) :
    Steps s .destroyer { s with isEnd := true, destroyer := .waitingThread }
  | destroyed (hd : s.destroyer = .waitingThread) (hp : s.pc = .returned) :
    Steps s .destroyer { s with counter := -1, time := -1, destroyer := .returned }

theorem steps_of_workerStep {s t : RecordingThread} (h : s.workerStep = some t) :
    Steps s .worker t := by
  unfold workerStep at h
  split at h
  · next hp =>
    split at h
    · next f queue hq =>
      obtain rfl := Option.some.inj h
      exact .gotFirst f queue hp hq
    · next hq =>
      split at h
      · obtain rfl := Option.some.inj h
        exact .gotNone hp hq ‹_›
      · cases h
  · next hp =>
    split at h <;> obtain rfl := Option.some.inj h
    · exact .loopEnded hp ‹_›
    · exact .loopEntered hp ‹_›
  · next hp =>
    obtain ⟨a, hc, rfl⟩ := Option.map_eq_some_iff.mp h
    exact .frameForwarded a hp hc
  · next hp =>
    obtain ⟨a, hc, rfl⟩ := Option.map_eq_some_iff.mp h
    dsimp only
    split
    · exact .counted a hp hc ‹_›
    · exact .notCounted a hp hc ‹_›
  · next hp =>
    split at h
    · next f queue hq =>
      obtain rfl := Option.some.inj h
      exact .gotNext f queue hp hq
    · next hq =>
      split at h
      · obtain rfl := Option.some.inj h
        exact .gotNoMore hp hq ‹_›
      · cases h
  · next hp =>
    split at h <;> obtain rfl := Option.some.inj h
    · exact .finishes hp ‹_›
    · exact .destroyedMeanwhile hp (not_not.mp ‹_›)
  · obtain rfl := Option.some.inj h
    exact .finished ‹_›
  · cases h

theorem steps_of_step {s t : RecordingThread} {a : RecordingAction} (h : s.step a = some t) :
    Steps s a t := by
  cases a with
  | put =>
    simp only [step] at h
    split at h
    · cases h
    · next f incoming hi =>
      obtain rfl := Option.some.inj h
      by_cases he : s.isEnd = true
      · rw [if_pos he]
        exact .discarded f incoming hi he
      · rw [if_neg he]
        exact .queued f incoming hi (Bool.eq_false_iff.mpr he)
  | endOfStream =>
    simp only [step, Option.ite_none_right_eq_some, Option.some.injEq] at h
    obtain ⟨hi, rfl⟩ := h
    exact .ended hi
  | worker => exact steps_of_workerStep h
  | startRecording =>
    simp only [step, Option.ite_none_right_eq_some, Option.some.injEq] at h
    obtain ⟨hd, rfl⟩ := h
    exact .recordingStarted hd
  | stopRecording =>
    simp only [step, Option.ite_none_right_eq_some, Option.some.injEq] at h
    obtain ⟨hd, rfl⟩ := h
    exact .recordingStopped hd
  | destroy =>
    simp only [step, Option.ite_none_right_eq_some, Option.some.injEq] at h
    obtain ⟨hd, rfl⟩ := h
    exact .destroyCalled hd
  | destroyer =>
    simp only [step, destroyerStep] at h
    split at h
    · cases h
    · obtain rfl := Option.some.inj h
      exact .queueEnded ‹_›
    · next hd =>
      split at h
      · obtain rfl := Option.some.inj h
        exact .destroyed hd ‹_›
      · cases h
    · cases h

end RecordingThread

end WinDV
