import WinDV.CAVIWriter
import WinDV.Outcome
import Mathlib.Logic.Function.Basic

/-! The state of `CDV` and the objects that it owns. Of a pointer the model
keeps whether it is set. A constructor, `GetMediaType` or `Run` may throw where
a pipeline is built; the transport commands and closing a writer do not. -/

namespace WinDV

inductive Member
  | aviJoiner
  | aviWriter
  | dvInput
  | dvOutput
  | monitor
  | queue
  | thread
  deriving DecidableEq, Repr

@[ext]
structure Pipeline where
  state : CDVState
  isSet : Member → Bool

inductive Failure
  | thrown
  | nullDereference
  deriving DecidableEq, Repr

abbrev Program := EStateM Failure Pipeline Unit

namespace Pipeline

open Member

/-- The constructor of `CDV`, which leaves `m_state` as it finds it. -/
def new (state : CDVState) : Pipeline := ⟨state, fun _ => false⟩

def put (p : Pipeline) (m : Member) (b : Bool) : Pipeline :=
  { p with isSet := Function.update p.isSet m b }

def withState (p : Pipeline) (state : CDVState) : Pipeline := { p with state := state }

def assign (m : Member) (b : Bool) : Program := modify fun p => p.put m b

def setState (state : CDVState) : Program := modify fun p => p.withState state

def deref (m : Member) : Program := fun p =>
  if p.isSet m then .ok () p else .error .nullDereference p

/-- `if (pointer) { ... }` -/
def ifSet (m : Member) (body : Program) : Program := fun p =>
  if p.isSet m then body p else .ok () p

def mayThrow (throws : Bool) : Program := if throws then throw .thrown else pure ()

def destroy (dvCtrl : Bool) : Program := do
  setState .idle
  ifSet queue (deref queue)
  ifSet aviJoiner (deref aviJoiner)
  ifSet dvInput (deref dvInput)
  -- until it ends, the worker thread may close its writer, or leave that to the test below
  ifSet thread do
    deref thread
    assign thread false
  ifSet aviJoiner (assign aviJoiner false)
  ifSet dvInput do
    if dvCtrl then deref dvInput
    assign dvInput false
  ifSet aviWriter do
    deref aviWriter
    assign aviWriter false
  ifSet dvOutput do
    if dvCtrl then deref dvOutput
    assign dvOutput false
  ifSet monitor (assign monitor false)
  ifSet queue (assign queue false)

/-- The calls of the `Build` functions that may throw. -/
inductive BuildCall
  | newSource
  | getMediaType
  | newMonitor
  | newOutput
  | newQueue
  | run
  deriving DecidableEq, Repr

def buildCapturing (dvCtrl : Bool) (throws : BuildCall → Bool) : Program := do
  destroy dvCtrl
  mayThrow (throws .newSource)
  assign dvInput true
  deref dvInput
  mayThrow (throws .getMediaType)
  mayThrow (throws .newMonitor)
  assign monitor true
  mayThrow (throws .newQueue)
  assign queue true
  deref dvInput
  mayThrow (throws .run)
  setState .capturePaused
  assign thread true
  deref thread

def startCapturing (dvCtrl : Bool) : Program := do
  if (← get).state = .capturePaused then
    setState .capturing
    if dvCtrl then deref dvInput

def stopCapturing (dvCtrl : Bool) : Program := do
  if (← get).state = .capturing then
    setState .capturePaused
    if dvCtrl then deref dvInput

/-- While the command waits for it, the worker thread closes its writer, unless
that fails. -/
def finalizeCapturing (dvCtrl writerClosed : Bool) : Program := do
  let state := (← get).state
  if state = .capturing ∨ state = .capturePaused then
    setState (if state = .capturing then .captureFinalizing else .finished)
    if dvCtrl then ifSet dvInput (deref dvInput)
    ifSet dvInput (deref dvInput)
    ifSet queue (deref queue)
    ifSet thread do
      deref thread
      setState .finished
      if writerClosed then assign aviWriter false
      assign thread false
    setState .finished

def buildRecording (dvCtrl : Bool) (throws : BuildCall → Bool) : Program := do
  destroy dvCtrl
  mayThrow (throws .newSource)
  assign aviJoiner true
  deref aviJoiner
  mayThrow (throws .getMediaType)
  mayThrow (throws .newMonitor)
  assign monitor true
  mayThrow (throws .newOutput)
  assign dvOutput true
  mayThrow (throws .newQueue)
  assign queue true
  deref aviJoiner
  mayThrow (throws .run)
  setState .recordPaused
  if dvCtrl then deref dvOutput
  assign thread true
  deref thread

def startRecording (dvCtrl : Bool) : Program := do
  if (← get).state = .recordPaused then
    setState .recording
    if dvCtrl then deref dvOutput

def stopRecording (dvCtrl : Bool) : Program := do
  if (← get).state = .recording then
    setState .recordPaused
    if dvCtrl then deref dvOutput

/-- `GetQueueLoad`, where `OnTimer` calls it. -/
def onTimer : Program := do
  let state := (← get).state
  if state = .capturing ∨ state = .recording ∨ state = .recordPaused then deref queue

def destroyed : Pipeline := ⟨.idle, fun _ => false⟩

/-- The commands, with what else decides how they end. -/
inductive Call
  | buildCapturing (dvCtrl : Bool) (throws : BuildCall → Bool)
  | startCapturing (dvCtrl : Bool)
  | stopCapturing (dvCtrl : Bool)
  | finalizeCapturing (dvCtrl writerClosed : Bool)
  | buildRecording (dvCtrl : Bool) (throws : BuildCall → Bool)
  | startRecording (dvCtrl : Bool)
  | stopRecording (dvCtrl : Bool)
  | destroy (dvCtrl : Bool)

def Call.run : Call → Program
  | buildCapturing dvCtrl throws => Pipeline.buildCapturing dvCtrl throws
  | startCapturing dvCtrl => Pipeline.startCapturing dvCtrl
  | stopCapturing dvCtrl => Pipeline.stopCapturing dvCtrl
  | finalizeCapturing dvCtrl writerClosed => Pipeline.finalizeCapturing dvCtrl writerClosed
  | buildRecording dvCtrl throws => Pipeline.buildRecording dvCtrl throws
  | startRecording dvCtrl => Pipeline.startRecording dvCtrl
  | stopRecording dvCtrl => Pipeline.stopRecording dvCtrl
  | destroy dvCtrl => Pipeline.destroy dvCtrl

inductive Action
  | call (c : Call)
  | workerFinishes
  | workerOpensWriter
  | workerClosesWriter

/-- A command that throws leaves a state for the next one; one that calls
through `NULL` does not. -/
def afterCall : EStateM.Result Failure Pipeline Unit → Option Pipeline
  | .ok _ p => some p
  | .error .thrown p => some p
  | .error .nullDereference _ => none

/-- The worker thread acts between commands while there is one. -/
def step (p : Pipeline) : Action → Option Pipeline
  | .call c => afterCall (c.run p)
  | .workerFinishes =>
    if p.isSet thread = true ∧ p.state ≠ .idle then some (p.withState .finished) else none
  | .workerOpensWriter => if p.isSet thread then some (p.put aviWriter true) else none
  | .workerClosesWriter => if p.isSet thread then some (p.put aviWriter false) else none

end Pipeline

end WinDV
