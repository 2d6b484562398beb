import WinDV.HashCommands

/-! The files that a capture leaves, checked and hashed by `CapturingThread`
when the capture has ended: a later `verify` command reads the sidecar files
that the thread wrote. -/

namespace WinDV

variable {ctx : SHA256CTX} {d : Disk} {files : List FilePath}

/-- A file as the thread finds it. -/
def finalizedOn (ctx : SHA256CTX) (d : Disk) (path : CString) : FinalizedFile :=
  ⟨path, checkAVIIntegrity ((d.read path).elim .accessDenied .readable), computeFileSHA256 ctx d path⟩

/-- One round of the loop over `m_finalizedFiles`, with the files on the disk. -/
def verifyRound (ctx : SHA256CTX) (enableSHA256 : Bool) (count : Nat) (s : Disk × Verify)
    (path : CString) : Disk × Verify :=
  let f := finalizedOn ctx s.1 path
  (if enableSHA256 then
      match f.sidecar with
      | some side => writeSHA256Sidecar s.1 side.path side.hash side.bare false
      | none => s.1
    else s.1,
    s.2.file enableSHA256 count f)

/-- The loop, which starts as in `verifyFiles`. -/
def verifyFinalized (ctx : SHA256CTX) (enableSHA256 : Bool) (capStats : CaptureStats)
    (last : AVICheckResult) (d : Disk) (paths : List CString) : Disk × Verify :=
  paths.foldl (verifyRound ctx enableSHA256 paths.length)
    (d, { capStats := { capStats with
            bCheckPassed := paths.length > 0
            bCheckIndex := paths.length > 0
            dwCheckDefect := 0 }
          lastCheckResult := last })

/-- A name that `GetCaptureFilename` makes. -/
def NamedByCapture (path : CString) : Prop :=
  ∃ findFile basdattim ndigits, path = captureFilename findFile basdattim ndigits

theorem captureFilename_avi (findFile : CString → List CString) (basdattim : CString)
    (ndigits : Nat) : avi <:+ captureFilename findFile basdattim ndigits := List.suffix_append _ _

/-- The sidecar file of a capture is no capture. -/
theorem apart_of_named (h : ∀ p ∈ files, NamedByCapture p.path) : Apart files := by
  intro p _ q hq
  obtain ⟨findFile, basdattim, ndigits, hname⟩ := h q hq
  obtain ⟨stem, hstem⟩ := captureFilename_avi findFile basdattim ndigits
  have hlast (c : Char) (s t : CString) (hc : (resolve t).getLast? = some c) :
      ((resolve (s ++ t)).map Char.toLower).getLast? = some c.toLower := by
    rw [resolve_append, List.getLast?_map, List.getLast?_append, hc]
    rfl
  have hsix : ((resolve (sidecarPath p.path)).map Char.toLower).getLast? = some '6' :=
    hlast '6' p.path ".sha256".toList (by decide)
  have hi := hlast 'i' stem avi (by decide)
  refine Bool.eq_false_iff.mpr fun hsame => ?_
  rw [of_decide_eq_true hsame, hname, ← hstem, hi] at hsix
  exact absurd (Option.some.inj hsix) (by decide)

theorem verifyRound_disk (count : Nat) (s : Disk × Verify) (path : CString) :
    (verifyRound ctx true count s path).1 = hashFile ctx s.1 path := by
  simp only [verifyRound, if_true, finalizedOn, FinalizedFile.sidecar, hashFile]
  cases computeFileSHA256 ctx s.1 path <;> rfl

theorem finalizedOn_congr {d d' : Disk} {path : CString} (h : d.read path = d'.read path) :
    finalizedOn ctx d path = finalizedOn ctx d' path := by
  rw [finalizedOn, finalizedOn, computeFileSHA256, computeFileSHA256, h]

/-- The files are checked and hashed as they were before any sidecar file was
written. -/
theorem foldl_verifyRound (hapart : Apart files) (count : Nat) (v : Verify) :
    (files.map FilePath.path).foldl (verifyRound ctx true count) (d, v) =
      (hashFiles ctx d files,
        (files.map fun p => finalizedOn ctx d p.path).foldl (Verify.file true count) v) := by
  induction files using List.reverseRecOn with
  | nil => rfl
  | append_singleton files q ih =>
    have hlast : q ∈ files ++ [q] := List.mem_append_right _ (List.mem_singleton_self q)
    have hread : (hashFiles ctx d files).read q.path = d.read q.path :=
      read_hashFiles fun p hp => hapart.ne (List.mem_append_left _ hp) hlast
    simp only [List.map_append, List.map_cons, List.map_nil, List.foldl_append, List.foldl_cons,
      List.foldl_nil, ih hapart.left]
    refine Prod.ext ?_ ?_
    · rw [verifyRound_disk, hashFiles_concat]
    · exact congrArg (Verify.file true count _) (finalizedOn_congr hread)

theorem verifyFinalized_eq (hapart : Apart files) (capStats : CaptureStats) (last : AVICheckResult) :
    verifyFinalized ctx true capStats last d (files.map FilePath.path) =
      (hashFiles ctx d files,
        verifyFiles true capStats last (files.map fun p => finalizedOn ctx d p.path)) := by
  rw [verifyFinalized, foldl_verifyRound hapart, verifyFiles, List.length_map, List.length_map]

/-- What the log gets for the hash of a single file. -/
theorem verifyFiles_szSHA256 (capStats : CaptureStats) (last : AVICheckResult) {f : FinalizedFile}
    {hash : CString} (hhash : f.hash = some hash) (hlen : hash.length = 64) :
    (verifyFiles true capStats last [f]).capStats.szSHA256 = hash := by
  have hcheck (v : Verify) : (v.file true 1 f).capStats.szSHA256 = hash := by
    rw [Verify.file, if_pos rfl, Verify.hash, hhash]
    exact List.take_of_length_le hlen.le
  exact hcheck _

/-- The record of a capture and the sidecar files beside its files tell of the
files as the thread found them, and `verify` tells whether they still are so.
It succeeds for all that are unchanged, provided the paths leave room for the
extension and no name starts with a blank. -/
theorem capture_verifies (ctx ctx' : SHA256CTX) (hne : files ≠ [])
    (hnamed : ∀ p ∈ files, NamedByCapture p.path)
    (hdistinct : ∀ p ∈ files, ∀ q ∈ files, sameFile p.path q.path = true → p.path = q.path)
    {old : CString → List UInt8} (hold : ∀ q ∈ files, d.read q.path = some (old q.path))
    (capStats : CaptureStats) (last : AVICheckResult) :
    let s := verifyFinalized ctx true capStats last d (files.map FilePath.path)
    s.2 = verifyFiles true capStats last (files.map fun q =>
        ⟨q.path, checkAVIIntegrity (.readable (old q.path)),
          some (sha256Hex (FIPS180.sha256 (old q.path)))⟩) ∧
      (∀ q, files = [q] → s.2.capStats.szSHA256 = sha256Hex (FIPS180.sha256 (old q.path))) ∧
      ∀ (now : Disk) (new : CString → List UInt8),
        (∀ q ∈ files, now.read q.path = some (new q.path)) →
        (∀ q ∈ files, now.read (sidecarPath q.path) = s.1.read (sidecarPath q.path)) →
        ∃ c, verifyCommand ctx' now (files.map FilePath.path) = some c ∧
          c.output = (files.map fun q =>
            verifyLine q.path (verdict q.path q.path (old q.path) (new q.path))) ∧
          (c.exitCode = 0 ↔ ∀ q ∈ files, SidecarFound q.path q.path ∧
            FIPS180.sha256 (new q.path) = FIPS180.sha256 (old q.path)) := by
  intro s
  have hapart := apart_of_named hnamed
  have hcase : OneCase files := fun p hp q hq hfile => congrArg resolve (hdistinct p hp q hq hfile)
  have heq : s = _ := verifyFinalized_eq hapart capStats last
  have hfiles : (files.map fun q => finalizedOn ctx d q.path) = files.map fun q =>
      ⟨q.path, checkAVIIntegrity (.readable (old q.path)),
        some (sha256Hex (FIPS180.sha256 (old q.path)))⟩ := by
    refine List.map_congr_left fun q hq => ?_
    rw [finalizedOn, computeFileSHA256_eq (hold q hq), hold q hq, hashContent_eq]
    rfl
  have hspelled : ∀ q ∈ files, ∀ p, lastSpelling files q.path = some p → p.path = q.path := by
    intro q hq p hp
    obtain ⟨hmem, hsame⟩ := lastSpelling_spec hp
    exact hdistinct p hmem q hq hsame
  have hverdict : ∀ q ∈ files,
      verdictIn files q.path (old q.path) = verdict q.path q.path (old q.path) := by
    intro q hq
    obtain ⟨p, hp⟩ := lastSpelling_of_mem hq
    funext new
    rw [verdictIn, hp, Option.map_some, Option.getD_some, hspelled q hq p hp]
  refine ⟨?_, fun q hq => ?_, fun now new hnew hkept => ?_⟩
  · rw [heq, hfiles]
  · subst hq
    rw [heq, hfiles]
    refine verifyFiles_szSHA256 _ _ rfl ?_
    rw [← hashContent_eq ctx, hashContent_length]
  · rw [heq] at hkept
    obtain ⟨c, hc, hout, hcode⟩ := verifyCommand_hashed ctx' hne hapart hcase hold hnew hkept
    refine ⟨c, hc, ?_, ?_⟩
    · rw [hout]
      exact List.map_congr_left fun q hq => by rw [hverdict q hq]
    · rw [hcode, foldl_max_eq_zero, List.forall_mem_map]
      refine forall₂_congr fun q hq => ?_
      rw [hverdict q hq, verdict]
      by_cases hfound : SidecarFound q.path q.path <;>
        by_cases hsame : FIPS180.sha256 (new q.path) = FIPS180.sha256 (old q.path) <;>
          simp [hfound, hsame]

theorem clip_named : NamedByCapture clipBackslashes.path :=
  ⟨fun _ => [], "C:\\tapes\\clip".toList, 0, by decide⟩

theorem tape_named : NamedByCapture tapeBackslashes.path :=
  ⟨fun _ => [], "C:\\tapes\\tape".toList, 0, by decide⟩

/-- One of the two files is changed after the capture. -/
theorem changed_tape_found :
    let s := verifyFinalized blankContext true { bIsPAL := true } {} tapesDisk
      [clipBackslashes.path, tapeBackslashes.path]
    ∃ c, verifyCommand blankContext (s.1.put tapeBackslashes.path [0x44])
        [clipBackslashes.path, tapeBackslashes.path] = some c ∧
      (c.exitCode = 0 ↔ FIPS180.sha256 [0x44] = FIPS180.sha256 [0x42, 0x43]) := by
  intro s
  let files := [clipBackslashes, tapeBackslashes]
  let old : CString → List UInt8 := fun path =>
    if path = clipBackslashes.path then [0x41] else [0x42, 0x43]
  let new : CString → List UInt8 := fun path =>
    if path = clipBackslashes.path then [0x41] else [0x44]
  have hnamed : ∀ p ∈ files, NamedByCapture p.path := by
    intro p hp
    rcases List.mem_pair.mp hp with rfl | rfl
    · exact clip_named
    · exact tape_named
  have hold : ∀ q ∈ files, tapesDisk.read q.path = some (old q.path) := by decide
  obtain ⟨-, -, hverify⟩ := capture_verifies blankContext blankContext
    (by decide : files ≠ []) hnamed (by decide) hold { bIsPAL := true } {}
  have hapart := apart_of_named hnamed
  have hdisk : s.1 = hashFiles blankContext tapesDisk files :=
    congrArg Prod.fst (verifyFinalized_eq hapart _ _)
  have hnow : ∀ q ∈ files, (s.1.put tapeBackslashes.path [0x44]).read q.path = some (new q.path) := by
    intro q hq
    rcases List.mem_pair.mp hq with rfl | rfl
    · rw [read_put_apart (by decide), hdisk, read_hashFiles fun p hp => hapart.ne hp hq, hold _ hq]
      rfl
    · exact read_put_self rfl (by decide) _
  have hkept : ∀ q ∈ files, (s.1.put tapeBackslashes.path [0x44]).read (sidecarPath q.path) =
      s.1.read (sidecarPath q.path) := fun q hq =>
    read_put_apart (hapart.ne hq (by simp [files])).symm _
  obtain ⟨c, hc, -, hcode⟩ := hverify _ new hnow hkept
  refine ⟨c, hc, hcode.trans ⟨fun h => (h tapeBackslashes (by simp [files])).2, fun h q hq => ?_⟩⟩
  rcases List.mem_pair.mp hq with rfl | rfl
  · exact ⟨by decide, rfl⟩
  · exact ⟨by decide, h⟩

end WinDV
