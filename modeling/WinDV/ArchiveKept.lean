import WinDV.Archive
import WinDV.EachFile
import WinDV.UniqueNames

/-! Captures change no file but the one that they record: what a capture has left on
the disk, and what others have, is there until others write or delete it. -/

namespace WinDV

open Transition

section Names

end Names

namespace FileSystem

variable {δ α : Type} [DecidableEq δ] {fs : FileSystem δ α}

/-- The other programs leave the file alone while a file is finished. -/
def Spared (fs : FileSystem δ α) (e : Ending α) (k : δ × CString) : Prop :=
  ∀ meanwhile, e = .completed meanwhile → ∀ a ∈ meanwhile, fs.key a.path ≠ k

/-- What the completed file is on the disk when it is to be moved. -/
def completed (fs : FileSystem δ α) (disk : DiskFiles α) (w : CAVIWriter) (meanwhile : List (Others α)) :
    DiskFiles α :=
  meanwhile.foldl fs.apply (Folder.put fs.key disk w.tmpfile.1 (.avi w.samples true))

inductive Finalized (fs : FileSystem δ α) (disk : DiskFiles α) (w : CAVIWriter) :
    Ending α → Finalization × DiskFiles α → Prop
  | endOfStreamFailed : Finalized fs disk w .endOfStreamFailed (.endOfStreamFailed, disk)
  | notCompleted : Finalized fs disk w .notCompleted (.notCompleted, disk)
  | moved (meanwhile : List (Others α)) (path : Path) (c : FileContent α)
    (hold : Folder.lookup fs.key (fs.completed disk w meanwhile) (fs.key w.tmpfile.1) = some c)
    (hnew : Folder.lookup fs.key (fs.completed disk w meanwhile) (fs.key path.1) = none) :
    Finalized fs disk w (.completed meanwhile)
      (.completed path true,
        Folder.rename fs.key (fs.completed disk w meanwhile) w.tmpfile.1 path.1)
  | notMoved (meanwhile : List (Others α)) (path : Path) :
    Finalized fs disk w (.completed meanwhile)
      (.completed path false, fs.completed disk w meanwhile)

theorem finalized (fs : FileSystem δ α) (disk : DiskFiles α) (now : Int32) (w : CAVIWriter)
    (e : Ending α) : Finalized fs disk w e (fs.finalize disk now w e) := by
  cases e with
  | endOfStreamFailed => exact .endOfStreamFailed
  | notCompleted => exact .notCompleted
  | completed meanwhile =>
    unfold finalize
    dsimp only
    split
    · next h =>
      simp only [Bool.and_eq_true, Option.isNone_iff_eq_none] at h
      obtain ⟨c, hc⟩ := Option.isSome_iff_exists.mp h.1.1
      exact .moved meanwhile _ c hc h.1.2
    · exact .notMoved meanwhile _

end FileSystem

namespace CapturingThread

variable {env : CaptureEnv} {t t' : CapturingThread}

/-- The paths of the open writer. -/
def paths (t : CapturingThread) : Option (Path × CString) :=
  t.aviWriter.map fun w => (w.tmpfile, w.finalfile)

/-- What follows the split of the files. -/
def record (env : CaptureEnv) (t : CapturingThread) (d : DequeuedFrame) (calls : Calls) :
    Except CapturingThread CapturingThread := do
  let t ← t.openWriter env calls.created
  let t ← t.writeFrame env d calls.delivery
  return t.countFrame d

end CapturingThread

namespace Archive

variable {δ α : Type} [DecidableEq δ] {fs : FileSystem δ α} {env : CaptureEnv} {s t : Archive α}

/-- The files that are there, but for the one that is being written. -/
def visible (fs : FileSystem δ α) (s : Archive α) (k : δ × CString) : Option (FileContent α) :=
  if s.openFile.any fun path => fs.key path = k then none else Folder.lookup fs.key s.disk k

/-- The other programs leave the file alone. -/
def Spares (fs : FileSystem δ α) (k : δ × CString) : ArchiveAction α → Prop
  | .command _ => True
  | .round r => fs.Spared r.ending k ∧ ∀ a ∈ r.between, fs.key a.path ≠ k
  | .others a => fs.key a.path ≠ k

/-- The number of a new temporary file fits an `int`. -/
def Fits (fs : FileSystem δ α) (env : CaptureEnv) (s : Archive α) : ArchiveAction α → Prop
  | .round r => s.loop.2.opening env r.got = true →
    NumbersFit s.loop.2.ndigits.toInt.toNat
      (suffixes fs.rule
        (folderNames fs.place (fs.closed env s r).2 (fs.tmpBase env r.now s.loop.2 r.got))
        (fileName (fs.tmpBase env r.now s.loop.2 r.got)))
  | _ => True

/-- While the thread is in its loop the writer is not finished, and the disk has
what it was given. -/
structure Recording (fs : FileSystem δ α) (s : Archive α) : Prop where
  fresh : s.loop.1 = .again → ∀ w, s.loop.2.aviWriter = some w → w.finalfile = []
  written : ∀ w, s.loop.2.aviWriter = some w → w.finalfile = [] →
    Folder.lookup fs.key s.disk (fs.key w.tmpfile.1) = some (.avi w.samples false)

/-- What a step does to the files that are there, and to those it finishes. -/
structure Advances (fs : FileSystem δ α) (s : Archive α) (a : ArchiveAction α) (t : Archive α) : Prop where
  recording : Recording fs t
  keeps : ∀ k c, s.visible fs k = some c → Spares fs k a → t.visible fs k = some c
  closed : t.loop.2.closed = s.loop.2.closed ∨
    ∃ w, t.loop.2.closed = s.loop.2.closed ++ [w] ∧
      (Spares fs (fs.key w.tmpfile.1) a → Spares fs (fs.key w.finalfile) a →
        t.visible fs (fs.key w.finalfile) = some (.avi w.samples true)) ∧
      ∀ k c, s.visible fs k = some c → Spares fs k a → fs.key w.finalfile ≠ k

def LeftAlone (fs : FileSystem δ α) (acts : List (ArchiveAction α)) (k : δ × CString) : Prop :=
  ∀ a ∈ acts, Spares fs k a

theorem LeftAlone.concat {acts : List (ArchiveAction α)} {a : ArchiveAction α} {k : δ × CString}
    (h : LeftAlone fs (acts ++ [a]) k) : LeftAlone fs acts k ∧ Spares fs k a :=
  ⟨fun b hb => h b (List.mem_append_left _ hb), h a (List.mem_append_right _ (List.mem_singleton_self a))⟩

/-- Other programs leave the file alone under both of its names. -/
def Undisturbed (fs : FileSystem δ α) (acts : List (ArchiveAction α)) (w : CAVIWriter) : Prop :=
  LeftAlone fs acts (fs.key w.tmpfile.1) ∧ LeftAlone fs acts (fs.key w.finalfile)

/-- What is on the disk after a run from `s`; `new` are the writers that it closed. -/
structure Kept (fs : FileSystem δ α) (s : Archive α) (acts : List (ArchiveAction α)) (t : Archive α)
    (new : List CAVIWriter) : Prop where
  files : ∀ k c, s.visible fs k = some c → LeftAlone fs acts k → t.visible fs k = some c
  closed : t.loop.2.closed = s.loop.2.closed ++ new
  recorded : ∀ w ∈ new, Undisturbed fs acts w →
    t.visible fs (fs.key w.finalfile) = some (.avi w.samples true)
  own : ∀ w ∈ new, ∀ k c, s.visible fs k = some c → LeftAlone fs acts k → fs.key w.finalfile ≠ k
  distinct : new.Pairwise fun v w => Undisturbed fs acts v → fs.key w.finalfile ≠ fs.key v.finalfile

theorem Kept.step {u : Archive α} {acts : List (ArchiveAction α)} {a : ArchiveAction α}
    {new : List CAVIWriter} (h : Kept fs s acts t new) (ha : Advances fs t a u) :
    ∃ new', Kept fs s (acts ++ [a]) u new' := by
  have hund {w : CAVIWriter} (hw : Undisturbed fs (acts ++ [a]) w) : Undisturbed fs acts w :=
    ⟨hw.1.concat.1, hw.2.concat.1⟩
  have hfiles : ∀ k c, s.visible fs k = some c → LeftAlone fs (acts ++ [a]) k →
      u.visible fs k = some c := fun k c hk hl =>
    ha.keeps k c (h.files k c hk hl.concat.1) hl.concat.2
  have hrecorded : ∀ w ∈ new, Undisturbed fs (acts ++ [a]) w →
      u.visible fs (fs.key w.finalfile) = some (.avi w.samples true) := fun w hw hl =>
    ha.keeps _ _ (h.recorded w hw (hund hl)) hl.2.concat.2
  have hown : ∀ w ∈ new, ∀ k c, s.visible fs k = some c → LeftAlone fs (acts ++ [a]) k →
      fs.key w.finalfile ≠ k := fun w hw k c hk hl => h.own w hw k c hk hl.concat.1
  have hdistinct := h.distinct.imp fun hvw hv => hvw (hund hv)
  rcases ha.closed with hclosed | ⟨w, hclosed, hcomplete, hnew⟩
  · exact ⟨new, hfiles, hclosed.trans h.closed, hrecorded, hown, hdistinct⟩
  · refine ⟨new ++ [w], hfiles, ?_, fun v hv hl => ?_, fun v hv k c hk hl => ?_, ?_⟩
    · rw [hclosed, h.closed, List.append_assoc]
    · rcases List.mem_append.mp hv with hv | hv
      · exact hrecorded v hv hl
      · obtain rfl := List.mem_singleton.mp hv
        exact hcomplete hl.1.concat.2 hl.2.concat.2
    · rcases List.mem_append.mp hv with hv | hv
      · exact hown v hv k c hk hl
      · obtain rfl := List.mem_singleton.mp hv
        exact hnew k c (h.files k c hk hl.concat.1) hl.concat.2
    · refine List.pairwise_append.mpr ⟨hdistinct, List.pairwise_singleton _ _, fun v hv w' hw' hl => ?_⟩
      obtain rfl := List.mem_singleton.mp hw'
      exact hnew _ _ (h.recorded v hv (hund hl)) hl.2.concat.2

end Archive

namespace FileSystem

/-- The test of `FindFile`. -/
def matchesPattern (rule : CaseRule) (pre suf e : CString) : Bool :=
  (pre.map rule.fold).isPrefixOf (e.map rule.fold) &&
    (suf.map rule.fold).isSuffixOf ((e.drop pre.length).map rule.fold)

theorem matchesPattern_iff (rule : CaseRule) (pre suf e : CString) :
    matchesPattern rule pre suf e = true ↔ rule.Matches pre suf e := by
  rw [matchesPattern, Bool.and_eq_true, List.isPrefixOf_iff_prefix, List.isSuffixOf_iff_suffix]
  constructor
  · rintro ⟨⟨rest, hrest⟩, ⟨mid, hmid⟩⟩
    have hdrop : (e.drop pre.length).map rule.fold = rest := by
      rw [List.map_drop, ← hrest, List.drop_left' (List.length_map _)]
    refine ⟨(e.drop pre.length).take mid.length, ?_⟩
    have htake : ((e.drop pre.length).take mid.length).map rule.fold = mid := by
      rw [List.map_take, ← hmid, List.take_left]
    rw [CaseRule.Same, List.map_append, List.map_append, htake, List.append_assoc, hmid, hdrop, hrest]
  · rintro ⟨mid, hsame⟩
    rw [CaseRule.Same, List.map_append, List.map_append, List.append_assoc] at hsame
    refine ⟨⟨_, hsame.symm⟩, ⟨mid.map rule.fold, ?_⟩⟩
    rw [List.map_drop, hsame, List.drop_left' (List.length_map _)]

/-- A search that lists files in the order of the disk. -/
def find (rule : CaseRule) {δ α : Type} [DecidableEq δ] (place : CString → δ) (disk : DiskFiles α)
    (pattern : CString) : List CString :=
  if ".*.avi".toList.isSuffixOf pattern then
    let base := pattern.take (pattern.length - 6)
    (folderNames place disk base).filter (matchesPattern rule (fileName base ++ ['.']) avi)
  else
    let base := pattern.take (pattern.length - 4)
    (folderNames place disk base).filter fun e => rule.Same e (fileName base ++ avi)

theorem find_lists (rule : CaseRule) {δ α : Type} [DecidableEq δ] (place : CString → δ)
    (disk : DiskFiles α) {basdattim : CString} (h : isPlainPath basdattim = true) :
    Lists rule (folderNames place disk basdattim) basdattim (find rule place disk) := by
  constructor
  · intro e
    have hsuffix : ".*.avi".toList.isSuffixOf (basdattim ++ ".*.avi".toList) = true :=
      List.isSuffixOf_iff_suffix.mpr (List.suffix_append _ _)
    have hbase : (basdattim ++ ".*.avi".toList).take ((basdattim ++ ".*.avi".toList).length - 6) =
        basdattim := List.take_left' (by simp)
    rw [find, if_pos hsuffix]
    dsimp only
    rw [hbase, List.mem_filter, matchesPattern_iff]
  · intro e
    have hsuffix : ¬ ".*.avi".toList.isSuffixOf (basdattim ++ avi) = true := by
      rw [List.isSuffixOf_iff_suffix]
      rintro ⟨rest, hrest⟩
      have havi : rest ++ ".*".toList ++ avi = basdattim ++ avi := by
        rw [← hrest, List.append_assoc]
        rfl
      have hstar := List.append_cancel_right havi
      have hmem : '*' ∈ basdattim := by
        rw [← hstar]
        simp
      exact absurd (List.all_eq_true.mp h _ hmem) (by decide)
    have hbase : (basdattim ++ avi).take ((basdattim ++ avi).length - 4) = basdattim :=
      List.take_left' (by simp [avi])
    rw [find, if_neg hsuffix]
    dsimp only
    rw [hbase, List.mem_filter, decide_eq_true_iff]

/-- Each text of a folder is a folder of its own, and formats have no directives. -/
def plain (α : Type) : FileSystem CString α where
  rule := .ascii
  place path := path
  formatTime format _ := format
  findFile := find .ascii fun path => path
  lists disk _ h := find_lists .ascii _ disk h

end FileSystem

namespace Archive

end Archive

end WinDV
