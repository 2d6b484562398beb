import WinDV.CaptureFilename
import WinDV.CaptureLoop
import WinDV.Folder

/-! The files on the disk while sessions capture and other programs are at work: a
`CAVIWriter` records into a temporary file, whose name `GetCaptureFilename` makes
with a tilde, and moves it to its name when it is complete. -/

namespace WinDV

/-- An AVI file is complete when the mux has finished its index. -/
inductive FileContent (α : Type)
  | other (data : α)
  | avi (samples : List Sample) (complete : Bool)

abbrev DiskFiles (α : Type) := List (CString × FileContent α)

/-- The path up to its last separator. -/
def folderPart (path : CString) : CString := path.rdropWhile fun c => !isSeparator c

/-- A name with a wildcard in it is not the name of a file. -/
def isPlainPath (path : CString) : Bool := path.all fun c => c != '*' && c != '?'

/-- The names of the files in the folder of a path. -/
def folderNames {δ α : Type} [DecidableEq δ] (place : CString → δ) (disk : DiskFiles α)
    (path : CString) : List CString :=
  (disk.filter fun e => place (folderPart e.1) = place (folderPart path)).map fun e => fileName e.1

/-- `place` is the folder that the text of a path leads to. -/
structure FileSystem (δ α : Type) [DecidableEq δ] where
  rule : CaseRule
  place : CString → δ
  formatTime : CString → Int32 → CString
  findFile : DiskFiles α → CString → List CString
  lists : ∀ disk basdattim, isPlainPath basdattim = true →
    Lists rule (folderNames place disk basdattim) basdattim (findFile disk)

/-- What other programs do; the sidecars and the log are written like this too. -/
inductive Others (α : Type)
  | put (path : CString) (data : α)
  | erase (path : CString)

def Others.path {α : Type} : Others α → CString
  | .put path _ => path
  | .erase path => path

/-- How a file ends; `meanwhile` falls between the choice of its name and the move. -/
inductive Ending (α : Type)
  | endOfStreamFailed
  | notCompleted
  | completed (meanwhile : List (Others α))

/-- A round of the capture loop; `now` is the clock. In the constructor of a writer,
`between` falls between the choice of the temporary file's name and the creation of the
file, and `opens` says that nothing is thrown. -/
structure ArchiveRound (α : Type) where
  got : Got
  now : Int32
  ending : Ending α
  between : List (Others α)
  opens : Bool
  delivery : Delivery
  droppedFrames : Int32

inductive ArchiveAction (α : Type)
  | command (c : Command)
  | round (r : ArchiveRound α)
  | others (a : Others α)

structure Archive (α : Type) where
  loop : CaptureLoop
  disk : DiskFiles α

theorem captureFilename_ne_nil (findFile : CString → List CString) (basdattim : CString)
    (ndigits : Nat) : captureFilename findFile basdattim ndigits ≠ [] := by
  simp [captureFilename, avi]

theorem getCaptureFilename_ne_nil (findFile : CString → List CString)
    (formatTime : CString → Int32 → CString) (now : Int32) (base dtformat : CString) (ndigits : Nat)
    (tim : Int32) : getCaptureFilename findFile formatTime now base dtformat ndigits tim ≠ [] :=
  captureFilename_ne_nil _ _ _

namespace CapturingThread

/-- The writer that a round closes. -/
def closing (env : CaptureEnv) (t : CapturingThread) (got : Got) : Option CAVIWriter :=
  if t.state = .idle then t.aviWriter
  else
    match got with
    | .endOfStream => t.aviWriter
    | .timeout => if t.state = .capturing then t.aviWriter else none
    | .frame f =>
      if t.state.captures then (if (t.noteDVTime env f).splits env then t.aviWriter else none)
      else t.aviWriter

/-- The round opens a writer. -/
def opening (env : CaptureEnv) (t : CapturingThread) (got : Got) : Bool :=
  match got with
  | .frame f => t.state.captures && (t.aviWriter.isNone || (t.noteDVTime env f).splits env)
  | _ => false

/-- The recording time that a new writer gets. -/
def openTime (env : CaptureEnv) (t : CapturingThread) (got : Got) : Int32 :=
  match got with
  | .frame f => (t.noteDVTime env f).dvTime
  | _ => t.dvTime

end CapturingThread

namespace FileSystem

variable {δ α : Type} [DecidableEq δ] (fs : FileSystem δ α)

def key (path : CString) : δ × CString :=
  (fs.place (folderPart path), (fileName path).map fs.rule.fold)

def apply (disk : DiskFiles α) : Others α → DiskFiles α
  | .put path data => Folder.put fs.key disk path (.other data)
  | .erase path => Folder.erase fs.key disk (fs.key path)

/-- The name that a file gets in the end. -/
def finalPath (disk : DiskFiles α) (now : Int32) (w : CAVIWriter) : Path :=
  ⟨getCaptureFilename (fs.findFile disk) fs.formatTime now w.filename w.dtformat
    w.ndigits.toInt.toNat w.dvtime, getCaptureFilename_ne_nil _ _ _ _ _ _ _⟩

/-- `FinalizeFile`: the mux completes the file, and `MoveFile` fails where a file is. -/
def finalize (disk : DiskFiles α) (now : Int32) (w : CAVIWriter) : Ending α → Finalization × DiskFiles α
  | .endOfStreamFailed => (.endOfStreamFailed, disk)
  | .notCompleted => (.notCompleted, disk)
  | .completed meanwhile =>
    let disk := Folder.put fs.key disk w.tmpfile.1 (.avi w.samples true)
    let path := fs.finalPath disk now w
    let disk := meanwhile.foldl fs.apply disk
    if (Folder.lookup fs.key disk (fs.key w.tmpfile.1)).isSome &&
        (Folder.lookup fs.key disk (fs.key path.1)).isNone && isPlainPath path.1 then
      (.completed path true, Folder.rename fs.key disk w.tmpfile.1 path.1)
    else (.completed path false, disk)

/-- The base of the temporary file that a round makes. -/
def tmpBase (env : CaptureEnv) (now : Int32) (t : CapturingThread) (got : Got) : CString :=
  baseWithTime fs.formatTime now t.captureFilename ('~' :: t.dtformat) (t.openTime env got)

def tmpfile (env : CaptureEnv) (disk : DiskFiles α) (now : Int32) (t : CapturingThread) (got : Got) : Path :=
  ⟨getCaptureFilename (fs.findFile disk) fs.formatTime now t.captureFilename ('~' :: t.dtformat)
    t.ndigits.toInt.toNat (t.openTime env got), getCaptureFilename_ne_nil _ _ _ _ _ _ _⟩

/-- What the open writer has written by now; a new one overwrites (`AM_FILE_OVERWRITE`). -/
def written (disk : DiskFiles α) (t : CapturingThread) : DiskFiles α :=
  match t.aviWriter with
  | some w =>
    if w.finalfile = [] then Folder.put fs.key disk w.tmpfile.1 (.avi w.samples false) else disk
  | none => disk

/-- What a round makes of the file that it closes, if it does. -/
def closed (env : CaptureEnv) (s : Archive α) (r : ArchiveRound α) : Finalization × DiskFiles α :=
  match s.loop.2.closing env r.got with
  | some w => fs.finalize s.disk r.now w r.ending
  | none => (.notCompleted, s.disk)

/-- The disk when the temporary file is created. -/
def settled (env : CaptureEnv) (s : Archive α) (r : ArchiveRound α) : DiskFiles α :=
  if s.loop.2.opening env r.got then r.between.foldl fs.apply (fs.closed env s r).2
  else (fs.closed env s r).2

def calls (env : CaptureEnv) (s : Archive α) (r : ArchiveRound α) : Calls where
  finalize := (fs.closed env s r).1
  created :=
    let tmpfile := fs.tmpfile env (fs.closed env s r).2 r.now s.loop.2 r.got
    if r.opens && isPlainPath tmpfile.1 then some tmpfile else none
  delivery := r.delivery
  droppedFrames := r.droppedFrames

end FileSystem

namespace Archive

variable {δ α : Type} [DecidableEq δ]

def start (env : CaptureEnv) (c : CDV) (drops : Int32) (disk : DiskFiles α) : Archive α :=
  ⟨CaptureLoop.start env c drops, disk⟩

/-- The file that the writer has open, which nobody else can write or delete. -/
def openFile (s : Archive α) : Option CString :=
  match s.loop.2.aviWriter with
  | some w => if w.finalfile = [] then some w.tmpfile.1 else none
  | none => none

def locks (fs : FileSystem δ α) (s : Archive α) (path : CString) : Bool :=
  s.openFile.any fun open_ => fs.key open_ = fs.key path

def step (fs : FileSystem δ α) (env : CaptureEnv) (s : Archive α) : ArchiveAction α → Option (Archive α)
  | .command c => (CaptureLoop.step env s.loop (.command c)).map fun loop => { s with loop := loop }
  | .round r =>
    (CaptureLoop.step env s.loop (.round ⟨r.got, fs.calls env s r⟩)).map fun loop =>
      ⟨loop, fs.written (fs.settled env s r) loop.2⟩
  | .others a => if s.locks fs a.path then none else some { s with disk := fs.apply s.disk a }

end Archive

end WinDV
