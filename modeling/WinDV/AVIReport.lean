import WinDV.AVISound
import WinDV.Verification

/-! The verdict of the checker against its error text, and where both go: the
line that is printed for a file and the exit code of the `check` command. -/

namespace WinDV

def formatCheckResult (r : AVICheckResult) (szFilename : CString) (bVerbose : Bool) : CString :=
  let name := bareName szFilename
  let out := if r.isOK then
    "OK   ".toList ++ name ++ " (".toList ++ CString.ofDWORD r.dwFrameCount ++ " frames, ".toList ++
      (if r.bIsPAL then "PAL".toList else "NTSC".toList) ++ ")".toList
    else "FAIL ".toList ++ name ++ ": ".toList ++ r.sError
  if bVerbose then
    out ++ "\r\n     Frames: ".toList ++ CString.ofDWORD r.dwFrameCount ++ "  Index: ".toList ++
      CString.ofDWORD r.dwIndexEntries ++ "  Defekt: ".toList ++ CString.ofDWORD r.dwDefectFrames ++
      "  Größe: ".toList ++ Nat.toDigits 10 r.dwActualSize ++ " Bytes".toList
  else out

structure CheckRun where
  output : List CString := []
  exitCode : Nat := 0
  deriving DecidableEq, Repr

def checkFile (bVerbose : Bool) (c : CheckRun) (f : CString × AVIFile) : CheckRun :=
  let r := checkAVIIntegrity f.2
  { output := c.output ++ [formatCheckResult r f.1 bVerbose ++ "\r\n".toList]
    exitCode := if !r.bValid || r.dwDefectFrames > 0 || !r.bHasIndex then 1 else c.exitCode }

/-- One argument of the command, with the files that it matches if it does any. -/
def checkArg (bVerbose : Bool) (c : CheckRun) (arg : CString × Option (List (CString × AVIFile))) :
    CheckRun :=
  match arg.2 with
  | none =>
    { output := c.output ++ ["FAIL ".toList ++ arg.1 ++ ": Datei nicht gefunden\r\n".toList]
      exitCode := if c.exitCode < 2 then 2 else c.exitCode }
  | some files => files.foldl (checkFile bVerbose) c

def checkCommand (bVerbose : Bool) (args : List (CString × Option (List (CString × AVIFile)))) :
    CheckRun :=
  args.foldl (checkArg bVerbose) {}

theorem exitCode_checkFile (bVerbose : Bool) (c : CheckRun) (f : CString × AVIFile) :
    (checkFile bVerbose c f).exitCode = 0 ↔
      c.exitCode = 0 ∧ (checkAVIIntegrity f.2).isOK = true := by
  have hdefect (n : UInt32) : n > 0 ↔ n ≠ 0 := UInt32.pos_iff_ne_zero
  simp only [checkFile, AVICheckResult.isOK]
  by_cases hfail : (!(checkAVIIntegrity f.2).bValid || (checkAVIIntegrity f.2).dwDefectFrames > 0 ||
      !(checkAVIIntegrity f.2).bHasIndex) = true
  · rw [if_pos hfail]
    refine iff_of_false Nat.one_ne_zero fun hboth => ?_
    have hok := hboth.2
    simp only [Bool.and_eq_true, beq_iff_eq] at hok
    simp [hok] at hfail
  · rw [if_neg hfail]
    simp only [Bool.or_eq_true, not_or, decide_eq_true_eq, hdefect, not_not, Bool.not_eq_true,
      Bool.not_eq_false'] at hfail
    simp [hfail]

theorem exitCode_checkFiles (bVerbose : Bool) (c : CheckRun) (files : List (CString × AVIFile)) :
    (files.foldl (checkFile bVerbose) c).exitCode = 0 ↔
      c.exitCode = 0 ∧ ∀ f ∈ files, (checkAVIIntegrity f.2).isOK = true := by
  induction files generalizing c with
  | nil => simp
  | cons f files ih =>
    rw [List.foldl_cons, ih, exitCode_checkFile, List.forall_mem_cons, and_assoc]

theorem exitCode_checkArg (bVerbose : Bool) (c : CheckRun)
    (arg : CString × Option (List (CString × AVIFile))) :
    (checkArg bVerbose c arg).exitCode = 0 ↔ c.exitCode = 0 ∧ ∃ files, arg.2 = some files ∧
      ∀ f ∈ files, (checkAVIIntegrity f.2).isOK = true := by
  unfold checkArg
  cases arg.2 with
  | none =>
    have hcode : (if c.exitCode < 2 then 2 else c.exitCode) ≠ 0 := by
      split <;> omega
    exact iff_of_false hcode fun ⟨_, _, hfiles, _⟩ => nomatch hfiles
  | some files => simp [exitCode_checkFiles]

/-- The `check` command succeeds when every argument matches and all files are OK. -/
theorem exitCode_checkCommand (bVerbose : Bool)
    (args : List (CString × Option (List (CString × AVIFile)))) :
    (checkCommand bVerbose args).exitCode = 0 ↔ ∀ a ∈ args, ∃ files, a.2 = some files ∧
      ∀ f ∈ files, (checkAVIIntegrity f.2).isOK = true := by
  have hfold (c : CheckRun) : (args.foldl (checkArg bVerbose) c).exitCode = 0 ↔
      c.exitCode = 0 ∧ ∀ a ∈ args, ∃ files, a.2 = some files ∧
        ∀ f ∈ files, (checkAVIIntegrity f.2).isOK = true := by
    induction args generalizing c with
    | nil => simp
    | cons a args ih =>
      rw [List.foldl_cons, ih, exitCode_checkArg, List.forall_mem_cons, and_assoc]
  exact (hfold {}).trans (and_iff_right rfl)

def Blank (s : CString) : Prop := ∀ c ∈ s, c.isWhitespace = true

theorem trimRight_eq_nil_iff (s : CString) : s.trimRight = [] ↔ Blank s :=
  List.rdropWhile_eq_nil_iff

theorem blank_append (s t : CString) : Blank (s ++ t) ↔ Blank s ∧ Blank t := by
  simp only [Blank, List.mem_append, or_imp, forall_and]

theorem blank_ite {p : Prop} [Decidable p] {s : CString} (c : Char) (hc : c ∈ s)
    (hspace : c.isWhitespace = false) : Blank (if p then s else []) ↔ ¬ p := by
  by_cases hp : p
  · rw [if_pos hp]
    refine iff_of_false (fun h => ?_) (not_not_intro hp)
    rw [h c hc] at hspace
    cases hspace
  · rw [if_neg hp]
    exact iff_of_true nofun hp

/-- The frame count and the index entries, both there, disagree. -/
def CountMismatch (r : AVICheckResult) : Prop :=
  r.dwIndexEntries > 0 ∧ r.dwFrameCount > 0 ∧ r.dwIndexEntries ≠ r.dwFrameCount

theorem blank_checkErrors (r : AVICheckResult) (bHasHdrl bHasMovi : Bool) :
    Blank (checkErrors r bHasHdrl bHasMovi) ↔ bHasHdrl = true ∧ bHasMovi = true ∧
      r.bHasIndex = true ∧ r.dwFrameCount ≠ 0 ∧ r.dwDefectFrames = 0 ∧ ¬ CountMismatch r := by
  have hdefect : ¬ r.dwDefectFrames > 0 ↔ r.dwDefectFrames = 0 := by
    rw [gt_iff_lt, UInt32.pos_iff_ne_zero, not_not]
  rw [checkErrors, blank_append, blank_append, blank_append, blank_append, blank_append,
    blank_ite 'h' (by decide) rfl, blank_ite 'm' (by decide) rfl, blank_ite 'K' (by decide) rfl,
    blank_ite 'K' (by decide) rfl, blank_ite 'F' (by simp) rfl, blank_ite 'F' (by simp) rfl, hdefect]
  simp only [Bool.not_eq_true', Bool.not_eq_false, and_assoc]
  rfl

theorem finishCheck_sError (w : Walk) : (finishCheck w).sError = [] ↔
    (finishCheck w).isOK = true ∧ ¬ CountMismatch (finishCheck w) := by
  have hpos : (finishCheck w).dwFrameCount > 0 ↔ (finishCheck w).dwFrameCount ≠ 0 :=
    UInt32.pos_iff_ne_zero
  have herrors : (finishCheck w).sError =
      (checkErrors (finishCheck w) w.bHasHdrl w.bHasMovi).trimRight := rfl
  rw [herrors, trimRight_eq_nil_iff, blank_checkErrors, AVICheckResult.isOK,
    (finishCheck_fields w).2.2.2.2.2.2, Bool.and_eq_true, Bool.and_eq_true, Bool.and_eq_true,
    Bool.and_eq_true, decide_eq_true_eq, beq_iff_eq, hpos]
  tauto

theorem sError_of_no_signature {file : List UInt8} (h : ¬ HasSignature file) :
    (checkAVIIntegrity (.readable file)).sError ≠ [] := by
  have hinvalid := checkAVIIntegrity_of_no_signature h
  unfold checkAVIIntegrity at hinvalid ⊢
  by_cases hempty : file.length = 0
  · simp only [if_pos hempty]
    exact List.cons_ne_nil _ _
  · by_cases hshort : file.length < 12
    · simp only [if_neg hempty, if_pos hshort]
      exact List.cons_ne_nil _ _
    · simp only [if_neg hempty, if_neg hshort] at hinvalid ⊢
      cases hread : readExact file 0 12 with
      | none => exact List.cons_ne_nil _ _
      | some riffHdr =>
        simp only [hread] at hinvalid ⊢
        by_cases hsig : riffHdr.take 4 ≠ fcc "RIFF" ∨ riffHdr.drop 8 ≠ fcc "AVI "
        · rw [if_pos hsig]
          exact List.cons_ne_nil _ _
        · rw [if_neg hsig] at hinvalid ⊢
          intro hnil
          have hok := ((finishCheck_sError _).mp hnil).1
          rw [AVICheckResult.isOK, hinvalid] at hok
          cases hok

/-- The frame count of the main header is not that of the entries of the index. -/
structure HeaderDisagrees (file : List UInt8) : Prop where
  entries : 0 < (lastEntries file).countP isVideoEntry
  header : headerFrames file ≠ 0
  differ : (lastEntries file).countP isVideoEntry ≠ headerFrames file

theorem countMismatch_iff {file : List UInt8} (h : HasSignature file) :
    CountMismatch (checkAVIIntegrity (.readable file)) ↔ HeaderDisagrees file := by
  have hentries := check_dwIndexEntries h
  have hframes := check_dwFrameCount h
  have hmismatch : CountMismatch (checkAVIIntegrity (.readable file)) ↔
      0 < (lastEntries file).countP isVideoEntry ∧ 0 < frames file ∧
        (lastEntries file).countP isVideoEntry ≠ frames file := by
    rw [CountMismatch, gt_iff_lt, gt_iff_lt, UInt32.lt_iff_toNat_lt, UInt32.lt_iff_toNat_lt, Ne,
      ← UInt32.toNat_inj, hentries, hframes]
    rfl
  rw [hmismatch, frames]
  by_cases hzero : headerFrames file = 0
  · rw [if_pos hzero]
    exact iff_of_false (fun hbad => hbad.2.2 rfl) fun hbad => hbad.header hzero
  · rw [if_neg hzero]
    exact ⟨fun hbad => ⟨hbad.1, hzero, hbad.2.2⟩,
      fun hbad => ⟨hbad.entries, Nat.pos_of_ne_zero hzero, hbad.differ⟩⟩

theorem sError_eq_nil_iff (file : List UInt8) :
    (checkAVIIntegrity (.readable file)).sError = [] ↔ LooksIntact file ∧ ¬ HeaderDisagrees file := by
  rw [← isOK_iff_looksIntact]
  by_cases hsig : HasSignature file
  · rw [← countMismatch_iff hsig, checkAVIIntegrity_of_signature hsig]
    exact finishCheck_sError _
  · refine iff_of_false (sError_of_no_signature hsig) fun ⟨hok, _⟩ => ?_
    rw [AVICheckResult.isOK, checkAVIIntegrity_of_no_signature hsig] at hok
    cases hok

/-- The error text is empty just for the files judged OK, except where a file
looks intact and only its header disagrees with its index. -/
theorem report_agrees_iff (f : AVIFile) :
    ((checkAVIIntegrity f).sError = [] ↔ (checkAVIIntegrity f).isOK = true) ↔
      ∀ file, f = .readable file → ¬ (LooksIntact file ∧ HeaderDisagrees file) := by
  cases f with
  | accessDenied => exact iff_of_true (iff_of_false (List.cons_ne_nil _ _) (by decide)) nofun
  | sizeUnreadable => exact iff_of_true (iff_of_false (List.cons_ne_nil _ _) (by decide)) nofun
  | readable file =>
    rw [sError_eq_nil_iff, isOK_iff_looksIntact]
    constructor
    · intro hiff file' hf ⟨hintact, hdisagrees⟩
      obtain rfl := AVIFile.readable.inj hf
      exact (hiff.mpr hintact).2 hdisagrees
    · intro hnot
      exact and_iff_left_of_imp fun hintact hdisagrees => hnot file rfl ⟨hintact, hdisagrees⟩

/-- A main header that counts two frames, and an index of one. -/
def miscountedFile : List UInt8 :=
  fcc "RIFF" ++ [116, 0, 0, 0] ++ fcc "AVI " ++
  fcc "LIST" ++ [68, 0, 0, 0] ++ fcc "hdrl" ++
  fcc "avih" ++ [56, 0, 0, 0] ++ List.replicate 16 0 ++ [2, 0, 0, 0] ++ List.replicate 36 0 ++
  fcc "LIST" ++ [4, 0, 0, 0] ++ fcc "movi" ++
  fcc "idx1" ++ [16, 0, 0, 0] ++ fcc "00dc" ++ List.replicate 8 0 ++ [192, 212, 1, 0]

theorem miscountedFile_passes :
    ¬ ((checkAVIIntegrity (.readable miscountedFile)).sError = [] ↔
      (checkAVIIntegrity (.readable miscountedFile)).isOK = true) ∧
    (checkAVIIntegrity (.readable miscountedFile)).sError =
      "Frame-Count (2) != Index-Einträge (1).".toList ∧
    (checkAVIIntegrity (.readable miscountedFile)).isOK = true ∧
    formatCheckResult (checkAVIIntegrity (.readable miscountedFile)) "C:\\a.avi".toList false =
      "OK   a.avi (2 frames, NTSC)".toList ∧
    (checkCommand false [("C:\\a.avi".toList,
      some [("C:\\a.avi".toList, .readable miscountedFile)])]).exitCode = 0 := by
  have hresult : checkAVIIntegrity (.readable miscountedFile) =
      ⟨true, true, 2, 1, 0, 244112, 124, false, "Frame-Count (2) != Index-Einträge (1).".toList⟩ := by
    decide +kernel
  rw [exitCode_checkCommand, hresult]
  refine ⟨by decide, rfl, rfl, by decide, fun a ha => ?_⟩
  rw [List.mem_singleton.mp ha]
  refine ⟨_, rfl, fun f hf => ?_⟩
  rw [List.mem_singleton.mp hf, hresult]
  rfl

end WinDV
