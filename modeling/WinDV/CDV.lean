import WinDV.CAVIWriter
import WinDV.Verification

/-! The members of `CDV` that capturing uses, and the commands of the dialog. -/

namespace WinDV

inductive FinalizePhase
  | none
  | draining
  | mux
  | verify
  | hash
  | done
  deriving DecidableEq, Repr

structure StartArgs where
  filename : CString
  dtformat : CString
  ndigits : Int32
  captureTime : Int := 0
  deriving DecidableEq, Repr

structure LogRow where
  capStats : CaptureStats
  checked : List CString
  sidecars : List Sidecar
  deriving DecidableEq, Repr

/-- The options of the dialog, which asks for a positive `everyNth`, and what
the worker thread calls: the reading of the recording time, the checker and the
hash of the files as they are. -/
structure CaptureEnv where
  type2AVI : Bool
  discontinuityTreshold : UInt32
  maxAVIFrames : UInt32
  everyNth : UInt32
  everyNth_ne : everyNth ≠ 0
  autoStopTimeout : UInt32
  enableSHA256 : Bool
  isPAL : Bool
  getDVRecordingTime : List UInt8 → Int32
  checkAVIIntegrity : CString → AVICheckResult
  computeFileSHA256 : CString → Option CString

/-- `closed` are the writers that were deleted, oldest first, `starts` the calls
of `StartCapturing` that took effect. -/
structure CDV where
  state : CDVState
  finalizePhase : FinalizePhase
  aviWriter : Option CAVIWriter
  captureFilename : CString
  dtformat : CString
  ndigits : Int32
  finalizedFiles : List CString
  dropped : Int32
  counter : Int32
  time : Int
  captureTime : Int
  lastCheckResult : AVICheckResult
  closed : List CAVIWriter
  starts : List StartArgs
  log : List LogRow

namespace CDV

/-- The object as `BuildCapturing` leaves it to the worker thread; the strings
and the record of the last check are those of earlier sessions. -/
def buildCapturing (captureFilename dtformat : CString) (ndigits : Int32)
    (lastCheckResult : AVICheckResult) : CDV where
  state := .capturePaused
  finalizePhase := .none
  aviWriter := none
  captureFilename := captureFilename
  dtformat := dtformat
  ndigits := ndigits
  finalizedFiles := []
  dropped := 0
  counter := -1
  time := -1
  captureTime := 0
  lastCheckResult := lastCheckResult
  closed := []
  starts := []
  log := []

def startCapturing (c : CDV) (a : StartArgs) : CDV :=
  if c.state = .capturePaused then
    { c with
      captureTime := a.captureTime
      captureFilename := a.filename
      dtformat := a.dtformat
      ndigits := a.ndigits
      starts := c.starts ++ [a]
      state := .capturing }
  else c

def stopCapturing (c : CDV) : CDV :=
  if c.state = .capturing then { c with state := .capturePaused } else c

/-- `FinalizeCapturing` up to where it waits for the worker thread. -/
def finalizeCapturing (c : CDV) : CDV :=
  if c.state ≠ .capturing ∧ c.state ≠ .capturePaused then c
  else
    { c with
      captureTime := 0
      finalizePhase := .draining
      state := if c.state = .capturing then .captureFinalizing else .finished }

def files (c : CDV) : List CAVIWriter := c.closed ++ c.aviWriter.toList

/-- `CloseAVIWriter`. The destructor finds the file finalized. -/
def closeAVIWriter (c : CDV) (o : Finalization) : Except CDV CDV :=
  match c.aviWriter with
  | none => .ok c
  | some w =>
    let c := { c with
      finalizePhase := if c.finalizePhase = FinalizePhase.none then .none else .mux }
    match w.finalizeFile o with
    | .error w => .error { c with aviWriter := some w }
    | .ok w =>
      .ok { c with
        finalizedFiles :=
          if w.finalfile ≠ [] then c.finalizedFiles ++ [w.finalfile] else c.finalizedFiles
        closed := c.closed ++ [w]
        aviWriter := none }

end CDV

end WinDV
