import WinDV.JoinerOrder
import WinDV.RecordingOrder
import WinDV.OutputPathOrder

/-! Playback as `BuildRecording` sets it up: the joiner's threads call
`CDV::HandleFrame`, which queues the frames; the recording thread calls
`HandleFrame` of the output graph, and the device reads from its buffers. -/

namespace WinDV

/-- `sawEmpty` says that the recording thread is in `Get`, found the ring empty under the
lock and reads `m_end` next; `inCall`, that it is in `m_dvOutput->HandleFrame`. The slots
hold `dataSize` bytes. How many there are is left open: a full ring makes `Put` wait. -/
structure Playback where
  dataSize : Nat
  joiner : JoinerThreads
  recorder : RecordingThread
  sawEmpty : Bool
  inCall : Bool
  path : OutputPath

inductive PlaybackAction
  /-- A step of the joiner's threads, or `m_aviJoiner->Stop()` in `Destroy`. -/
  | joiner (a : JoinerAction)
  /-- The recording thread; `time` is what `HandleFrame` sets on a sample. -/
  | worker (time : Option (Int64 × Int64))
  | startRecording
  | stopRecording
  | destroy
  | destroyer
  | path (a : OutputPathAction)

namespace RecordingThread

/-- `CDV::HandleFrame` with a frame of the joiner, cut down to its slot. The test of `m_end`
in `Put` and what follows it are one step. -/
def handleFrame (dataSize : Nat) (s : RecordingThread) (f : Frame) : RecordingThread :=
  { s with
    incoming := s.incoming.tail
    queue := if s.isEnd then s.queue else s.queue ++ [f.clamp dataSize] }

/-- `CDV::HandleFrame` at the end of the last file. -/
def handleEnd (s : RecordingThread) : RecordingThread := { s with isEnd := true }

/-- The thread is in `Get`. -/
def inGet (s : RecordingThread) : Bool := s.pc = .firstGet || s.pc = .nextGet

/-- `Get` returned false. -/
def gotNothing (s : RecordingThread) : RecordingThread :=
  { s with pc := if s.pc = .firstGet then .returned else .testFinish }

end RecordingThread

namespace Playback

def start (dataSize : Nat) (files : List (List Frame)) (memory : Nat → MediaSample) : Playback where
  dataSize := dataSize
  joiner := .start files
  recorder := .start (files.flatten.map (·.clamp dataSize))
  sawEmpty := false
  inCall := false
  path := .start memory

/-- What the joiner forwards in a step goes to `CDV::HandleFrame`. -/
def feed (s : Playback) (j : JoinerThreads) : RecordingThread :=
  let r := (j.forwarded.drop s.joiner.forwarded.length).foldl (RecordingThread.handleFrame s.dataSize)
    s.recorder
  if s.joiner.endsSent < j.endsSent then r.handleEnd else r

/-- The recording thread's next step in `Get`. Between the lock and the test of `m_end`
frames may come in; they stay in the ring when `Get` then returns false. -/
def getStep (s : Playback) : Option Playback :=
  if s.sawEmpty then
    if s.recorder.isEnd then some { s with sawEmpty := false, recorder := s.recorder.gotNothing }
    else some { s with sawEmpty := false }
  else if s.recorder.queue = [] then some { s with sawEmpty := true }
  else (s.recorder.step .worker).map fun r => { s with recorder := r }

/-- The worker's next step: into `HandleFrame`, out of it, or one of its own. -/
def workerStep (s : Playback) (time : Option (Int64 × Int64)) : Option Playback :=
  if s.recorder.pc = .forwarding then
    if s.inCall then
      if s.path.producer = .outside then
        (s.recorder.step .worker).map fun r => { s with recorder := r, inCall := false }
      else none
    else s.recorder.current.bind fun a =>
      (s.path.step (.handleFrame ⟨time, a.frame.data⟩)).map fun p => { s with path := p, inCall := true }
  else if s.recorder.inGet then s.getStep
  else (s.recorder.step .worker).map fun r => { s with recorder := r }

/-- The recording thread alone calls `HandleFrame`; the graph is deleted when the
thread has returned. -/
def pathAllowed (s : Playback) : OutputPathAction → Bool
  | .handleFrame _ => false
  | .deliverEndOfStream => s.recorder.destroyer = .returned
  | .inactive => s.recorder.destroyer = .returned
  | _ => true

def step (s : Playback) : PlaybackAction → Option Playback
  | .joiner a =>
    if a = .stop ∧ s.recorder.destroyer ≠ .waitingThread then none
    else (s.joiner.step a).map fun j => { s with joiner := j, recorder := s.feed j }
  | .worker time => if s.joiner.main = .starting then none else s.workerStep time
  | .startRecording => if s.joiner.main = .starting then none else
    (s.recorder.step .startRecording).map fun r => { s with recorder := r }
  | .stopRecording => if s.joiner.main = .starting then none else
    (s.recorder.step .stopRecording).map fun r => { s with recorder := r }
  | .destroy => if s.joiner.main = .starting then none else
    (s.recorder.step .destroy).map fun r => { s with recorder := r }
  | .destroyer =>
    -- `Destroy` waits for the thread after the joiner has stopped
    if s.recorder.destroyer = .waitingThread ∧ s.joiner.main ≠ .stopped then none else
    (s.recorder.step .destroyer).map fun r => { s with recorder := r }
  | .path a =>
    if s.pathAllowed a then (s.path.step a).map fun p => { s with path := p } else none

/-- The step writes `m_end`. -/
def SetsEnd (s : Playback) : PlaybackAction → Prop
  | .joiner .joiner => s.joiner.joiner = .sendingEnd
  | .destroyer => s.recorder.destroyer = .endingQueue
  | _ => False

instance (s : Playback) : DecidablePred s.SetsEnd
  | .joiner .joiner => inferInstanceAs (Decidable (_ = _))
  | .destroyer => inferInstanceAs (Decidable (_ = _))
  | .joiner .deliver | .joiner .stream | .joiner .main | .joiner .stop | .worker _ | .startRecording
  | .stopRecording | .destroy | .path _ => inferInstanceAs (Decidable False)

/-- `m_end` is not written between the recording thread's test of an empty ring and its test
of `m_end` when a frame came in after the first. -/
def SetsEndQuietly (s : Playback) (a : PlaybackAction) : Prop :=
  s.SetsEnd a → s.sawEmpty = true → s.recorder.queue = []

instance (s : Playback) (a : PlaybackAction) : Decidable (s.SetsEndQuietly a) :=
  inferInstanceAs (Decidable (_ → _ → _))

end Playback

end WinDV
