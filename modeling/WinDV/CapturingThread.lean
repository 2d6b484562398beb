import WinDV.CDV

/-! `CDV::CapturingThread`: the parts of its loop, and one round of the loop
as a whole. The preview, the notifications of the dialog and the check for free
disk space touch none of this and are left out. -/

namespace WinDV

/-- The members together with the locals of the thread. `driverDropped` is what
`GetDroppedFrames` returns, `dequeued` and `counted` are the frames that were taken
from the queue and those that were counted, with the counters after each. -/
structure CapturingThread extends CDV where
  nFrames : Int32
  frameCounter : Int32
  droppedBase : Int32
  dvTime : Int32
  oldDVTime : Int32
  deltaDVTime : Int32
  capStats : CaptureStats
  driverDropped : Int32
  dequeued : List DequeuedFrame
  counted : List (DequeuedFrame × Int32 × Int)

/-- The outcomes of the calls in one round of the loop: `created` is the
temporary file of the new writer, `none` when its constructor throws, and
`droppedFrames` the result of `GetDroppedFrames`, -1 when the driver does not tell. -/
structure Calls where
  finalize : Finalization
  created : Option Path
  delivery : Delivery
  droppedFrames : Int32
  deriving DecidableEq

/-- What `Get` or `GetWithTimeout` returns: a frame, or false with `m_end` set
or not. -/
inductive Got
  | frame (f : Frame)
  | timeout
  | endOfStream
  deriving DecidableEq, Repr

structure Round where
  got : Got
  calls : Calls
  deriving DecidableEq

namespace CapturingThread

/-- The thread before its first round, `GetMediaType` having succeeded; `drops` is the
first result of `GetDroppedFrames`. -/
def start (env : CaptureEnv) (c : CDV) (drops : Int32) : CapturingThread where
  toCDV := { c with counter := 0, time := 0 }
  nFrames := 0
  frameCounter := 0
  droppedBase := drops
  dvTime := 0
  oldDVTime := 0
  deltaDVTime := 0
  capStats := { bIsPAL := env.isPAL }
  driverDropped := drops
  dequeued := []
  counted := []

/-- The recording time of the frame and its distance to the last valid one. -/
def noteDVTime (env : CaptureEnv) (t : CapturingThread) (f : Frame) : CapturingThread :=
  let newDVTime := env.getDVRecordingTime f.data
  if t.dvTime ≠ newDVTime then
    if newDVTime > 0 then
      let delta := newDVTime - t.oldDVTime
      { t with
        deltaDVTime := if t.oldDVTime > 0 then (if delta < 0 then -delta else delta) else 0
        oldDVTime := newDVTime
        dvTime := newDVTime
        capStats.tFirstRecTime :=
          if t.capStats.tFirstRecTime = 0 then newDVTime else t.capStats.tFirstRecTime
        capStats.tLastRecTime := newDVTime }
    -- an invalid time is noted, but the next valid one is compared with the last valid one
    else { t with deltaDVTime := 0, dvTime := newDVTime }
  else { t with deltaDVTime := 0 }

/-- The frame as it is taken, under the state that the tests find. -/
def dequeue (t : CapturingThread) (f : Frame) (drops : Int32) : DequeuedFrame :=
  ⟨f, t.state, t.starts.length, drops⟩

/-- The signed count and distance are compared as unsigned numbers. -/
def splits (env : CaptureEnv) (t : CapturingThread) : Bool :=
  t.aviWriter.isSome && (t.nFrames.toUInt32 ≥ env.maxAVIFrames ||
    (env.discontinuityTreshold > 0 && t.deltaDVTime.toUInt32 > env.discontinuityTreshold))

/-- `CloseAVIWriter`; the error is the state in which it throws. -/
def closeWriter (t : CapturingThread) (o : Finalization) : Except CapturingThread CapturingThread :=
  match t.closeAVIWriter o with
  | .ok c => .ok { t with toCDV := c }
  | .error c => .error { t with toCDV := c }

def splitFile (env : CaptureEnv) (t : CapturingThread) (o : Finalization) :
    Except CapturingThread CapturingThread :=
  if t.splits env then t.closeWriter o else .ok t

def openWriter (env : CaptureEnv) (t : CapturingThread) (created : Option Path) :
    Except CapturingThread CapturingThread :=
  if t.aviWriter.isSome then .ok t
  else
    match created with
    | none => .error t
    | some tmpfile =>
      .ok { t with
        aviWriter := some ⟨t.captureFilename, t.dtformat, t.ndigits, t.dvTime, env.type2AVI,
          tmpfile, [], 0, [], [], 0⟩
        nFrames := 0
        frameCounter := 0 }

def writeFrame (env : CaptureEnv) (t : CapturingThread) (d : DequeuedFrame) (o : Delivery) :
    Except CapturingThread CapturingThread :=
  match t.aviWriter with
  | none => .ok t
  | some w =>
    if t.frameCounter.toUInt32 % env.everyNth = 0 then
      match w.handleFrame d o with
      | none => .error t
      | some w => .ok { t with aviWriter := some w, nFrames := t.nFrames + 1 }
    else .ok t

def countUp (t : CapturingThread) (d : DequeuedFrame) : CapturingThread :=
  { t with
    aviWriter := t.aviWriter.map (·.backfill t.dvTime)
    frameCounter := t.frameCounter + 1
    counter := t.counter + 1
    time := t.time + d.frame.duration
    counted := t.counted ++ [(d, t.counter + 1, t.time + d.frame.duration)] }

def limitHit (t : CapturingThread) : Bool := t.captureTime != 0 && decide (t.time ≥ t.captureTime)

def stopTimed (t : CapturingThread) : CapturingThread :=
  { t with captureTime := 0, capStats.eStopReason := .timed, state := .finished }

def noteDropped (t : CapturingThread) : CapturingThread :=
  { t with dropped := t.driverDropped - t.droppedBase }

def countFrame (t : CapturingThread) (d : DequeuedFrame) : CapturingThread :=
  let t := t.countUp d
  noteDropped (if t.limitHit then t.stopTimed else t)

def captureFrame (env : CaptureEnv) (t : CapturingThread) (d : DequeuedFrame) (calls : Calls) :
    Except CapturingThread CapturingThread := do
  let t ← t.splitFile env calls.finalize
  let t ← t.openWriter env calls.created
  let t ← t.writeFrame env d calls.delivery
  return t.countFrame d

def resetCounters (t : CapturingThread) : CapturingThread :=
  let t := { t with droppedBase := t.driverDropped }
  if t.state ≠ .finished then { t with dropped := 0, counter := 0, time := 0 } else t

def pauseFrame (t : CapturingThread) (calls : Calls) : Except CapturingThread CapturingThread := do
  let t ← t.closeWriter calls.finalize
  return t.resetCounters

def verifyAndLog (env : CaptureEnv) (t : CapturingThread) : CapturingThread :=
  if t.finalizedFiles.length > 0 then
    let files := t.finalizedFiles.map fun p =>
      (⟨p, env.checkAVIIntegrity p, env.computeFileSHA256 p⟩ : FinalizedFile)
    let capStats := { t.capStats with
      sFilename := if t.finalizedFiles.length = 1 then t.finalizedFiles.headD []
        else t.captureFilename
      dwFrameCount := t.counter.toUInt32
      dwDroppedFrames := t.dropped.toUInt32 }
    let v := verifyFiles env.enableSHA256 capStats t.lastCheckResult files
    { t with
      finalizePhase := .done
      lastCheckResult := v.lastCheckResult
      capStats := v.capStats
      log := t.log ++ [⟨v.capStats, t.finalizedFiles, v.sidecars⟩] }
  else t

end CapturingThread

/-- How a round of the loop ends: with another round, with the end of the
thread, or with an exception that leaves it. -/
inductive RoundEnd
  | again
  | returned
  | escaped
  deriving DecidableEq, Repr

namespace CapturingThread

/-- Nothing in the thread or its trampoline catches an exception. -/
def orEscape (e : RoundEnd) (r : Except CapturingThread CapturingThread) :
    RoundEnd × CapturingThread :=
  match r with
  | .ok t => (e, t)
  | .error t => (.escaped, t)

def afterLoop (env : CaptureEnv) (t : CapturingThread) (calls : Calls) : RoundEnd × CapturingThread :=
  orEscape .returned ((t.closeWriter calls.finalize).map (verifyAndLog env))

def onFrame (env : CaptureEnv) (t : CapturingThread) (f : Frame) (calls : Calls) :
    RoundEnd × CapturingThread :=
  let d := t.dequeue f calls.droppedFrames
  let t := { t.noteDVTime env f with
    driverDropped := calls.droppedFrames
    dequeued := t.dequeued ++ [d] }
  orEscape .again
    (if d.state.captures then t.captureFrame env d calls else t.pauseFrame calls)

def round (env : CaptureEnv) (t : CapturingThread) (r : Round) : RoundEnd × CapturingThread :=
  if t.state = .idle then t.afterLoop env r.calls
  else
    match r.got with
    | .endOfStream => afterLoop env { t with state := .finished } r.calls
    | .timeout =>
      if t.state = .capturing then
        afterLoop env { t with capStats.eStopReason := .signalLost, state := .finished } r.calls
      else (.again, t)
    | .frame f => t.onFrame env f r.calls

end CapturingThread

end WinDV
