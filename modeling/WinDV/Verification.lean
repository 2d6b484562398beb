import WinDV.AVICheck

/-! The verification of the finalized files at the end of the worker thread,
and what the dialog makes of it after End Capture. -/

namespace WinDV

inductive StopReason
  | user
  | signalLost
  | lowDisk
  | timed
  deriving DecidableEq, Repr

structure CaptureStats where
  sFilename : CString := []
  tFirstRecTime : Int32 := 0
  tLastRecTime : Int32 := 0
  dwFrameCount : UInt32 := 0
  dwDroppedFrames : UInt32 := 0
  bIsPAL : Bool
  eStopReason : StopReason := .user
  bCheckPassed : Bool := false
  dwCheckDefect : UInt32 := 0
  bCheckIndex : Bool := false
  szSHA256 : CString := []
  deriving DecidableEq, Repr

/-- A finalized file with what the checks of it come to: the hash is `none`
when `ComputeFileSHA256` fails. -/
structure FinalizedFile where
  path : CString
  check : AVICheckResult
  hash : Option CString
  deriving DecidableEq, Repr

def bareName (path : CString) : CString := path.rtakeWhile (· ≠ '\\')

structure Sidecar where
  path : CString
  hash : CString
  bare : CString
  deriving DecidableEq, Repr

def FinalizedFile.sidecar (f : FinalizedFile) : Option Sidecar :=
  f.hash.map fun hash => ⟨f.path ++ ".sha256".toList, hash, bareName f.path⟩

structure Verify where
  capStats : CaptureStats
  lastCheckResult : AVICheckResult
  haveFailure : Bool := false
  sidecars : List Sidecar := []
  deriving DecidableEq, Repr

def Verify.check (v : Verify) (r : AVICheckResult) : Verify :=
  let v := if !r.isOK then
      { v with
        capStats.bCheckPassed := false
        lastCheckResult := if !v.haveFailure then r else v.lastCheckResult
        haveFailure := true }
    else if !v.haveFailure then { v with lastCheckResult := r }
    else v
  { v with
    capStats.bCheckIndex := v.capStats.bCheckIndex && r.bHasIndex
    capStats.dwCheckDefect := v.capStats.dwCheckDefect + r.dwDefectFrames }

def Verify.hash (v : Verify) (count : Nat) (f : FinalizedFile) : Verify :=
  match f.hash with
  | none => v
  | some hash =>
    { v with
      sidecars := v.sidecars ++ [⟨f.path ++ ".sha256".toList, hash, bareName f.path⟩]
      capStats.szSHA256 := if count = 1 then hash.take 64 else v.capStats.szSHA256 }

def Verify.file (enableSHA256 : Bool) (count : Nat) (v : Verify) (f : FinalizedFile) : Verify :=
  let v := v.check f.check
  if enableSHA256 then v.hash count f else v

def verifyFiles (enableSHA256 : Bool) (capStats : CaptureStats) (last : AVICheckResult)
    (files : List FinalizedFile) : Verify :=
  files.foldl (Verify.file enableSHA256 files.length)
    { capStats := { capStats with
        bCheckPassed := files.length > 0
        bCheckIndex := files.length > 0
        dwCheckDefect := 0 }
      lastCheckResult := last }

/-- The status text that `OnEndCapture` shows for the record it finds. -/
def endCaptureStatus (r : AVICheckResult) (enableSHA256 : Bool) : CString :=
  if r.bValid && r.bHasIndex then
    if enableSHA256 then
      ("Capture safely finalized. AVI/OpenDML index verified; SHA-256 complete; " ++
        "ready for next capture.").toList
    else "Capture safely finalized. AVI/OpenDML index verified; ready for next capture.".toList
  else "Capture ended, but AVI verification reported: ".toList ++ r.sError

/-- The file whose result the loop leaves: the first that fails, or the last. -/
def decisive (files : List FinalizedFile) : Option FinalizedFile :=
  (files.find? fun f => !f.check.isOK).or files.getLast?

theorem Verify.file_check (enableSHA256 : Bool) (count : Nat) (v : Verify) (f : FinalizedFile) :
    (v.file enableSHA256 count f).haveFailure = (v.haveFailure || !f.check.isOK) ∧
    (v.file enableSHA256 count f).lastCheckResult =
      (if v.haveFailure then v.lastCheckResult else f.check) ∧
    (v.file enableSHA256 count f).capStats.bCheckPassed =
      (v.capStats.bCheckPassed && f.check.isOK) := by
  have hhash (w : Verify) : (w.hash count f).haveFailure = w.haveFailure ∧
      (w.hash count f).lastCheckResult = w.lastCheckResult ∧
      (w.hash count f).capStats.bCheckPassed = w.capStats.bCheckPassed := by
    unfold Verify.hash
    cases f.hash <;> exact ⟨rfl, rfl, rfl⟩
  have hcheck : (v.check f.check).haveFailure = (v.haveFailure || !f.check.isOK) ∧
      (v.check f.check).lastCheckResult = (if v.haveFailure then v.lastCheckResult else f.check) ∧
      (v.check f.check).capStats.bCheckPassed = (v.capStats.bCheckPassed && f.check.isOK) := by
    unfold Verify.check
    cases hok : f.check.isOK <;> cases hfail : v.haveFailure <;> simp [hfail]
  unfold Verify.file
  cases enableSHA256 with
  | false => exact hcheck
  | true =>
    obtain ⟨hf, hl, hp⟩ := hhash (v.check f.check)
    exact ⟨hf.trans hcheck.1, hl.trans hcheck.2.1, hp.trans hcheck.2.2⟩

theorem decisive_concat (files : List FinalizedFile) (f : FinalizedFile) :
    decisive (files ++ [f]) =
      if files.any fun g => !g.check.isOK then decisive files else some f := by
  rw [decisive, decisive, List.find?_append, List.getLast?_concat]
  by_cases hany : (files.any fun g => !g.check.isOK) = true
  · obtain ⟨g, hg⟩ : ∃ g, files.find? (fun g => !g.check.isOK) = some g := by
      rw [← Option.isSome_iff_exists, List.find?_isSome, ← List.any_eq_true]
      exact hany
    rw [if_pos hany, hg]
    rfl
  · have hnone : files.find? (fun g => !g.check.isOK) = none := by
      rw [List.find?_eq_none]
      intro g hg hbad
      exact hany (List.any_eq_true.mpr ⟨g, hg, hbad⟩)
    rw [if_neg hany, hnone]
    cases hf : f.check.isOK <;> simp [hf]

theorem foldl_file (enableSHA256 : Bool) (count : Nat) {v : Verify} (hv : v.haveFailure = false)
    (files : List FinalizedFile) :
    (files.foldl (Verify.file enableSHA256 count) v).haveFailure =
      (files.any fun f => !f.check.isOK) ∧
    (files.foldl (Verify.file enableSHA256 count) v).lastCheckResult =
      ((decisive files).map FinalizedFile.check).getD v.lastCheckResult ∧
    (files.foldl (Verify.file enableSHA256 count) v).capStats.bCheckPassed =
      (v.capStats.bCheckPassed && files.all fun f => f.check.isOK) := by
  induction files using List.reverseRecOn with
  | nil => exact ⟨hv, rfl, (Bool.and_true _).symm⟩
  | append_singleton files f ih =>
    obtain ⟨hfail, hlast, hpassed⟩ := ih
    rw [List.foldl_append, List.foldl_cons, List.foldl_nil]
    obtain ⟨hfail', hlast', hpassed'⟩ :=
      (files.foldl (Verify.file enableSHA256 count) v).file_check enableSHA256 count f
    refine ⟨?_, ?_, ?_⟩
    · rw [hfail', hfail]
      simp
    · rw [hlast', hfail, hlast, decisive_concat]
      by_cases hany : (files.any fun g => !g.check.isOK) = true
      · rw [if_pos hany, if_pos hany]
      · rw [if_neg hany, if_neg hany]
        rfl
    · rw [hpassed', hpassed]
      simp [Bool.and_assoc]

theorem verifyFiles_lastCheckResult (enableSHA256 : Bool) (capStats : CaptureStats)
    (last : AVICheckResult) (files : List FinalizedFile) :
    (verifyFiles enableSHA256 capStats last files).lastCheckResult =
      ((decisive files).map FinalizedFile.check).getD last :=
  (foldl_file enableSHA256 files.length rfl files).2.1

/-- The worker's own verdict: files were finalized, and all of them pass. -/
theorem verifyFiles_bCheckPassed (enableSHA256 : Bool) (capStats : CaptureStats)
    (last : AVICheckResult) (files : List FinalizedFile) :
    (verifyFiles enableSHA256 capStats last files).capStats.bCheckPassed = true ↔
      files ≠ [] ∧ ∀ f ∈ files, f.check.isOK = true := by
  rw [verifyFiles, (foldl_file enableSHA256 files.length rfl files).2.2, Bool.and_eq_true,
    decide_eq_true_iff, List.all_eq_true, gt_iff_lt, List.length_pos_iff]

theorem Verify.file_sidecars (count : Nat) (v : Verify) (f : FinalizedFile) :
    (v.file true count f).sidecars = v.sidecars ++ f.sidecar.toList := by
  have hcheck : (v.check f.check).sidecars = v.sidecars := by
    unfold Verify.check
    cases f.check.isOK <;> cases v.haveFailure <;> rfl
  rw [Verify.file, if_pos rfl, Verify.hash, FinalizedFile.sidecar]
  cases f.hash with
  | none => exact hcheck.trans (List.append_nil _).symm
  | some hash => exact congrArg (· ++ _) hcheck

theorem verifyFiles_sidecars (capStats : CaptureStats) (last : AVICheckResult)
    (files : List FinalizedFile) :
    (verifyFiles true capStats last files).sidecars = files.flatMap (·.sidecar.toList) := by
  have hfold (count : Nat) (v : Verify) : (files.foldl (Verify.file true count) v).sidecars =
      v.sidecars ++ files.flatMap (·.sidecar.toList) := by
    induction files generalizing v with
    | nil => exact (List.append_nil _).symm
    | cons f files ih =>
      rw [List.foldl_cons, ih, v.file_sidecars, List.append_assoc, List.flatMap_cons]
  rw [verifyFiles, hfold, List.nil_append]

def CaptureStats.counts (c : CaptureStats) : UInt32 × UInt32 × Int32 × Int32 :=
  (c.dwFrameCount, c.dwDroppedFrames, c.tFirstRecTime, c.tLastRecTime)

theorem Verify.file_counts (enableSHA256 : Bool) (count : Nat) (v : Verify) (f : FinalizedFile) :
    (v.file enableSHA256 count f).capStats.counts = v.capStats.counts := by
  have hcheck : (v.check f.check).capStats.counts = v.capStats.counts := by
    unfold Verify.check
    cases f.check.isOK <;> cases v.haveFailure <;> rfl
  have hhash (w : Verify) : (w.hash count f).capStats.counts = w.capStats.counts := by
    unfold Verify.hash
    cases f.hash <;> rfl
  cases enableSHA256 with
  | false => exact hcheck
  | true => exact (hhash _).trans hcheck

theorem verifyFiles_counts (enableSHA256 : Bool) (capStats : CaptureStats) (last : AVICheckResult)
    (files : List FinalizedFile) :
    (verifyFiles enableSHA256 capStats last files).capStats.counts = capStats.counts := by
  have hfold (count : Nat) (v : Verify) :
      (files.foldl (Verify.file enableSHA256 count) v).capStats.counts = v.capStats.counts := by
    induction files generalizing v with
    | nil => rfl
    | cons f files ih => exact (ih _).trans (v.file_counts enableSHA256 count f)
  exact hfold _ _

structure Session where
  files : List FinalizedFile
  enableSHA256 : Bool

/-- The end of a session; without files the record stays as it is. -/
def Session.finish (last : AVICheckResult) (s : Session) : AVICheckResult :=
  if s.files.length > 0 then
    (verifyFiles s.enableSHA256 { bIsPAL := false } last s.files).lastCheckResult
  else last

/-- `m_lastCheckResult` after the given sessions. -/
def lastCheckResult (history : List Session) : AVICheckResult := history.foldl Session.finish {}

/-- What End Capture shows for the session `s` after earlier ones. -/
def onEndCapture (history : List Session) (s : Session) : CString :=
  endCaptureStatus (s.finish (lastCheckResult history)) s.enableSHA256

def ReportsFinalized (status : CString) : Prop := "Capture safely finalized".toList <+: status

def ReportsHashed (status : CString) : Prop :=
  "Capture safely finalized. AVI/OpenDML index verified; SHA-256 complete".toList <+: status

structure TruthfulReport (history : List Session) (s : Session) : Prop where
  finalized : ReportsFinalized (onEndCapture history s) ↔
    s.files ≠ [] ∧ ∀ f ∈ s.files, f.check.isOK = true
  hashed : ReportsHashed (onEndCapture history s) → ∀ f ∈ s.files, f.hash.isSome

/-- Valid and indexed, which is all that the dialog asks of the record. -/
def AVICheckResult.indexOK (r : AVICheckResult) : Bool := r.bValid && r.bHasIndex

/-- The sessions for which the record tells the whole story. -/
structure RecordSuffices (history : List Session) (s : Session) : Prop where
  notStale : s.files = [] → (lastCheckResult history).indexOK = false
  notMasked : ∀ f, (s.files.find? fun g => !g.check.isOK) = some f → f.check.indexOK = false
  notUnhashed : s.enableSHA256 = true → (∀ f ∈ s.files, f.check.isOK = true) →
    ∀ f ∈ s.files, f.hash.isSome

theorem reportsFinalized_iff (r : AVICheckResult) (enableSHA256 : Bool) :
    ReportsFinalized (endCaptureStatus r enableSHA256) ↔ r.indexOK = true := by
  unfold endCaptureStatus ReportsFinalized AVICheckResult.indexOK
  by_cases hok : (r.bValid && r.bHasIndex) = true
  · rw [if_pos hok]
    cases enableSHA256 <;> simp only [hok, iff_true] <;> decide
  · rw [if_neg hok]
    refine ⟨fun hpre => ?_, fun h => absurd h hok⟩
    obtain ⟨rest, hrest⟩ := hpre
    have hten := congrArg (List.take 9) hrest
    rw [List.take_append_of_le_length (by decide), List.take_append_of_le_length (by decide)] at hten
    exact absurd hten (by decide)

theorem reportsHashed_iff (r : AVICheckResult) (enableSHA256 : Bool) :
    ReportsHashed (endCaptureStatus r enableSHA256) ↔ r.indexOK = true ∧ enableSHA256 = true := by
  unfold endCaptureStatus ReportsHashed AVICheckResult.indexOK
  by_cases hok : (r.bValid && r.bHasIndex) = true
  · rw [if_pos hok]
    cases enableSHA256 <;> simp only [hok, true_and, iff_true, Bool.false_eq_true, iff_false] <;>
      decide
  · rw [if_neg hok]
    refine ⟨fun hpre => ?_, fun h => absurd h.1 hok⟩
    obtain ⟨rest, hrest⟩ := hpre
    have hten := congrArg (List.take 9) hrest
    rw [List.take_append_of_le_length (by decide), List.take_append_of_le_length (by decide)] at hten
    exact absurd hten (by decide)

theorem Session.finish_nil (last : AVICheckResult) {s : Session} (h : s.files = []) :
    s.finish last = last := by
  rw [Session.finish, h]
  rfl

theorem Session.finish_of_failure (last : AVICheckResult) {s : Session} {f : FinalizedFile}
    (h : (s.files.find? fun g => !g.check.isOK) = some f) : s.finish last = f.check := by
  have hpos : s.files.length > 0 := List.length_pos_of_mem (List.mem_of_find?_eq_some h)
  rw [Session.finish, if_pos hpos, verifyFiles_lastCheckResult, decisive, h]
  rfl

theorem Session.finish_of_passed (last : AVICheckResult) {s : Session} (hne : s.files ≠ [])
    (h : (s.files.find? fun g => !g.check.isOK) = none) :
    ∃ f ∈ s.files, s.finish last = f.check := by
  refine ⟨s.files.getLast hne, List.getLast_mem hne, ?_⟩
  rw [Session.finish, if_pos (List.length_pos_iff.mpr hne), verifyFiles_lastCheckResult, decisive, h,
    List.getLast?_eq_getLast_of_ne_nil hne]
  rfl

theorem indexOK_of_isOK {r : AVICheckResult} (h : r.isOK = true) : r.indexOK = true := by
  rw [AVICheckResult.isOK, Bool.and_eq_true, Bool.and_eq_true] at h
  rw [AVICheckResult.indexOK, h.1.1, h.2]
  rfl

theorem finalized_onEndCapture (history : List Session) (s : Session) :
    ReportsFinalized (onEndCapture history s) ↔
      (s.finish (lastCheckResult history)).indexOK = true :=
  reportsFinalized_iff _ _

theorem hashed_onEndCapture (history : List Session) (s : Session) :
    ReportsHashed (onEndCapture history s) ↔
      (s.finish (lastCheckResult history)).indexOK = true ∧ s.enableSHA256 = true :=
  reportsHashed_iff _ _

theorem truthful_of_nil (history : List Session) {s : Session} (hnil : s.files = []) :
    TruthfulReport history s ↔ (lastCheckResult history).indexOK = false := by
  have hfinal := finalized_onEndCapture history s
  rw [Session.finish_nil _ hnil] at hfinal
  constructor
  · intro ht
    rw [Bool.eq_false_iff]
    exact fun hok => (ht.finalized.mp (hfinal.mpr hok)).1 hnil
  · intro hno
    refine ⟨⟨fun hshown => ?_, fun hok => absurd hnil hok.1⟩, fun _ f hf => ?_⟩
    · rw [hfinal.mp hshown] at hno
      cases hno
    · rw [hnil] at hf
      exact absurd hf List.not_mem_nil

theorem truthful_of_failure (history : List Session) {s : Session} {f : FinalizedFile}
    (hfind : (s.files.find? fun g => !g.check.isOK) = some f) :
    TruthfulReport history s ↔ f.check.indexOK = false := by
  have hmem := List.mem_of_find?_eq_some hfind
  have hbad : f.check.isOK = false := by simpa using List.find?_some hfind
  have hfinal := finalized_onEndCapture history s
  have hhash := hashed_onEndCapture history s
  rw [Session.finish_of_failure _ hfind] at hfinal hhash
  constructor
  · intro ht
    rw [Bool.eq_false_iff]
    intro hok
    rw [(ht.finalized.mp (hfinal.mpr hok)).2 f hmem] at hbad
    cases hbad
  · intro hno
    rw [Bool.eq_false_iff] at hno
    refine ⟨⟨fun hshown => absurd (hfinal.mp hshown) hno, fun hok => ?_⟩, fun hshown => ?_⟩
    · rw [hok.2 f hmem] at hbad
      cases hbad
    · exact absurd (hhash.mp hshown).1 hno

theorem truthful_of_passed (history : List Session) {s : Session} (hne : s.files ≠ [])
    (hfind : (s.files.find? fun g => !g.check.isOK) = none) :
    TruthfulReport history s ↔ (s.enableSHA256 = true → ∀ f ∈ s.files, f.hash.isSome) := by
  have hall : ∀ f ∈ s.files, f.check.isOK = true := by simpa using hfind
  obtain ⟨f, hmem, hf⟩ := Session.finish_of_passed (lastCheckResult history) hne hfind
  have hok := indexOK_of_isOK (hall f hmem)
  have hfinal := finalized_onEndCapture history s
  have hhash := hashed_onEndCapture history s
  rw [hf] at hfinal hhash
  constructor
  · intro ht hsha
    exact ht.hashed (hhash.mpr ⟨hok, hsha⟩)
  · intro hr
    exact ⟨⟨fun _ => ⟨hne, hall⟩, fun _ => hfinal.mpr hok⟩, fun hshown => hr (hhash.mp hshown).2⟩

/-- The report of a session is truthful exactly when no leftover record stands
in for it, no failing file passes for valid and indexed, and no hash failed. -/
theorem truthfulReport_iff (history : List Session) (s : Session) :
    TruthfulReport history s ↔ RecordSuffices history s := by
  by_cases hnil : s.files = []
  · rw [truthful_of_nil history hnil]
    refine ⟨fun h => ⟨fun _ => h, ?_, ?_⟩, fun hr => hr.notStale hnil⟩
    · simp [hnil]
    · simp [hnil]
  · cases hfind : s.files.find? fun g => !g.check.isOK with
    | some f =>
      rw [truthful_of_failure history hfind]
      refine ⟨fun h => ⟨fun hf => absurd hf hnil, ?_, ?_⟩, fun hr => hr.notMasked f hfind⟩
      · intro g hg
        obtain rfl := Option.some.inj (hfind.symm.trans hg)
        exact h
      · intro _ hall
        have hbad : f.check.isOK = false := by simpa using List.find?_some hfind
        rw [hall f (List.mem_of_find?_eq_some hfind)] at hbad
        cases hbad
    | none =>
      have hall : ∀ f ∈ s.files, f.check.isOK = true := by simpa using hfind
      rw [truthful_of_passed history hnil hfind]
      refine ⟨fun h => ⟨fun hf => absurd hf hnil, ?_, fun hsha _ => h hsha⟩,
        fun hr hsha => hr.notUnhashed hsha hall⟩
      intro g hg
      rw [hfind] at hg
      cases hg

/-- A valid, indexed file whose one frame has the wrong size. -/
def shortFrameFile : List UInt8 :=
  fcc "RIFF" ++ [116, 0, 0, 0] ++ fcc "AVI " ++
  fcc "LIST" ++ [68, 0, 0, 0] ++ fcc "hdrl" ++
  fcc "avih" ++ [56, 0, 0, 0] ++ List.replicate 16 0 ++ [1, 0, 0, 0] ++ List.replicate 36 0 ++
  fcc "LIST" ++ [4, 0, 0, 0] ++ fcc "movi" ++
  fcc "idx1" ++ [16, 0, 0, 0] ++ fcc "00dc" ++ [16, 0, 0, 0] ++ [4, 0, 0, 0] ++ [100, 0, 0, 0]

def shortFrameSession : Session where
  files := [⟨"C:\\tape.avi".toList, checkAVIIntegrity (.readable shortFrameFile), none⟩]
  enableSHA256 := false

theorem shortFrameSession_misreported : ¬ TruthfulReport [] shortFrameSession := by
  intro ht
  have hok : (shortFrameSession.finish (lastCheckResult [])).indexOK = true := by decide +kernel
  have hpassed := (ht.finalized.mp ((reportsFinalized_iff _ _).mpr hok)).2 _ List.mem_cons_self
  exact absurd hpassed (by decide +kernel)

end WinDV
