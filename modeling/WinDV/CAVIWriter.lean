import WinDV.AVICheck
import WinDV.Queue

/-! `COutputGraph::HandleFrame` and the AVI writer built on it. What DirectShow
and the file system answer comes in as the outcome of each call. -/

namespace WinDV

inductive CDVState
  | idle
  | recordPaused
  | recording
  | capturePaused
  | capturing
  | captureFinalizing
  | finished
  deriving DecidableEq, Repr

/-- A frame the worker took from the queue, with what it found then: `m_state`,
how many times capturing had been started, and what `GetDroppedFrames` returned. -/
structure DequeuedFrame where
  frame : Frame
  state : CDVState
  segment : Nat
  droppedFrames : Int32
  deriving DecidableEq, Repr

def CDVState.captures (s : CDVState) : Bool := s == .capturing || s == .captureFinalizing

/-- A result of `GetCaptureFilename`, which ends in `.avi`. -/
abbrev Path := { path : CString // path ≠ [] }

/-- What the calls in `COutputGraph::HandleFrame` come to. -/
inductive Delivery
  | noBuffer
  | noPointer
  | deliverFailed
  | delivered
  deriving DecidableEq, Repr

/-- What the calls in `CAVIWriter::FinalizeFile` come to. -/
inductive Finalization
  | endOfStreamFailed
  | notCompleted
  | completed (finalPath : Path) (moved : Bool)
  deriving DecidableEq

structure Sample where
  start : Int
  stop : Int
  data : List UInt8
  deriving DecidableEq, Repr

/-- `handed` are the frames that `HandleFrame` was called with, `samples` what
reached the mux, and `endsOfStream` how often the end of the stream was sent. -/
structure CAVIWriter where
  filename : CString
  dtformat : CString
  ndigits : Int32
  dvtime : Int32
  type2AVI : Bool
  tmpfile : Path
  finalfile : CString := []
  time : Int := 0
  handed : List DequeuedFrame := []
  samples : List Sample := []
  endsOfStream : Nat := 0
  deriving DecidableEq

namespace CAVIWriter

/-- `COutputGraph::HandleFrame`; `none` when it throws. -/
def handleFrame (w : CAVIWriter) (d : DequeuedFrame) (o : Delivery) : Option CAVIWriter :=
  let w := { w with handed := w.handed ++ [d] }
  let newTime := w.time + d.frame.duration
  match o with
  | .noBuffer => none
  | .noPointer => some w
  | .deliverFailed => some { w with time := newTime }
  | .delivered =>
    some { w with time := newTime, samples := w.samples ++ [⟨w.time, newTime, d.frame.data⟩] }

/-- `FinalizeFile`, with the path it returns; the error carries what the
exception leaves behind. -/
def finalizeFile (w : CAVIWriter) (o : Finalization) : Except CAVIWriter CAVIWriter :=
  if w.finalfile ≠ [] then .ok w
  else
    let w := { w with endsOfStream := w.endsOfStream + 1 }
    match o with
    | .endOfStreamFailed => .error { w with finalfile := w.tmpfile.1 }
    | .notCompleted => .error { w with finalfile := w.tmpfile.1 }
    | .completed finalPath moved =>
      .ok { w with finalfile := if moved then finalPath.1 else w.tmpfile.1 }

/-- The recording time is filled in when the first frames had none. -/
def backfill (w : CAVIWriter) (dvTime : Int32) : CAVIWriter :=
  if dvTime ≠ 0 ∧ w.dvtime = 0 then { w with dvtime := dvTime } else w

theorem backfill_eq (w : CAVIWriter) (dvTime : Int32) :
    ∃ x, w.backfill dvTime = { w with dvtime := x } := by
  unfold backfill
  by_cases h : dvTime ≠ 0 ∧ w.dvtime = 0
  · exact ⟨_, if_pos h⟩
  · exact ⟨w.dvtime, if_neg h⟩

theorem handleFrame_eq_some {w w' : CAVIWriter} {d : DequeuedFrame} {o : Delivery}
    (h : w.handleFrame d o = some w') :
    o ≠ .noBuffer ∧ w'.handed = w.handed ++ [d] ∧ w'.filename = w.filename ∧
      w'.dtformat = w.dtformat ∧ w'.ndigits = w.ndigits ∧ w'.finalfile = w.finalfile ∧
      w'.endsOfStream = w.endsOfStream ∧ w'.dvtime = w.dvtime := by
  cases o with
  | noBuffer => cases h
  | noPointer =>
    obtain rfl := Option.some.inj h
    exact ⟨by decide, rfl, rfl, rfl, rfl, rfl, rfl, rfl⟩
  | deliverFailed =>
    obtain rfl := Option.some.inj h
    exact ⟨by decide, rfl, rfl, rfl, rfl, rfl, rfl, rfl⟩
  | delivered =>
    obtain rfl := Option.some.inj h
    exact ⟨by decide, rfl, rfl, rfl, rfl, rfl, rfl, rfl⟩

theorem finalizeFile_eq_ok {w w' : CAVIWriter} {o : Finalization}
    (hopen : w.finalfile = []) (h : w.finalizeFile o = .ok w') :
    (∃ finalPath moved, o = .completed finalPath moved) ∧ w'.handed = w.handed ∧
      w'.filename = w.filename ∧ w'.dtformat = w.dtformat ∧ w'.ndigits = w.ndigits ∧
      w'.finalfile ≠ [] ∧ w'.endsOfStream = w.endsOfStream + 1 := by
  have hno : ¬ w.finalfile ≠ [] := fun h => h hopen
  rw [finalizeFile, if_neg hno] at h
  cases o with
  | endOfStreamFailed => cases h
  | notCompleted => cases h
  | completed finalPath moved =>
    obtain rfl := Except.ok.inj h
    refine ⟨⟨finalPath, moved, rfl⟩, rfl, rfl, rfl, rfl, ?_, rfl⟩
    cases moved with
    | true => exact finalPath.2
    | false => exact w.tmpfile.2

def names (w : CAVIWriter) : CString × CString × Int32 := (w.filename, w.dtformat, w.ndigits)

/-- Whether it throws or not, only the end of the file is touched. -/
theorem finalizeFile_eq {w w' : CAVIWriter} {o : Finalization}
    (h : w.finalizeFile o = .ok w' ∨ w.finalizeFile o = .error w') :
    ∃ finalfile endsOfStream,
      w' = { w with finalfile := finalfile, endsOfStream := endsOfStream } := by
  unfold finalizeFile at h
  by_cases hopen : w.finalfile ≠ []
  · simp only [if_pos hopen, reduceCtorEq, or_false, Except.ok.injEq] at h
    exact ⟨w.finalfile, w.endsOfStream, h.symm⟩
  · simp only [if_neg hopen] at h
    cases o with
    | endOfStreamFailed =>
      obtain h | h := h <;> cases h
      exact ⟨_, _, rfl⟩
    | notCompleted =>
      obtain h | h := h <;> cases h
      exact ⟨_, _, rfl⟩
    | completed finalPath moved =>
      obtain h | h := h <;> cases h
      exact ⟨_, _, rfl⟩

theorem finalizeFile_same {w w' : CAVIWriter} {o : Finalization}
    (h : w.finalizeFile o = .ok w' ∨ w.finalizeFile o = .error w') :
    w'.handed = w.handed ∧ w'.names = w.names := by
  obtain ⟨finalfile, endsOfStream, rfl⟩ := finalizeFile_eq h
  exact ⟨rfl, rfl⟩

end CAVIWriter

end WinDV
