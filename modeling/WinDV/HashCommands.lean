import WinDV.AVIReport
import WinDV.FileHash

/-! The commands `hash` and `verify` on several files. Standard output is there.
A file is hashed as it is when its turn comes, so the sidecar files that the
command writes are among those it may find. -/

namespace WinDV

open TextFile

structure HashCommand where
  disk : Disk
  output : List CString := []
  exitCode : Nat := 0

/-- One argument of `hash`. -/
def hashArg (ctx : SHA256CTX) (bQuiet : Bool) (s : HashCommand) (arg : CString) : HashCommand :=
  match computeFileSHA256 ctx s.disk arg with
  | some szHash =>
    { s with
      output := s.output ++ [szHash ++ " *".toList ++ bareName arg ++ "\r\n".toList]
      disk := if !bQuiet then writeSHA256Sidecar s.disk (sidecarPath arg) szHash (bareName arg) false
        else s.disk }
  | none =>
    { s with
      output := s.output ++ ["FAIL ".toList ++ arg ++ ": file not readable\r\n".toList]
      exitCode := if s.exitCode < 2 then 2 else s.exitCode }

/-- `none` shows the usage instead. -/
def hashCommand (ctx : SHA256CTX) (d : Disk) (args : List CString) : Option HashCommand :=
  let bQuiet := decide (args.head? = some "-q".toList)
  match if bQuiet then args.tail else args with
  | [] => none
  | files => some (files.foldl (hashArg ctx bQuiet) { disk := d })

/-- One argument of `verify`. -/
def verifyArg (ctx : SHA256CTX) (d : Disk) (c : CheckRun) (arg : CString) : CheckRun :=
  match verifyFileSHA256 ctx d arg with
  | 0 => { c with output := c.output ++ [arg ++ ": OK\r\n".toList] }
  | 1 =>
    { output := c.output ++ [arg ++ ": FAILED\r\n".toList]
      exitCode := if c.exitCode < 1 then 1 else c.exitCode }
  | _ =>
    { output := c.output ++ [arg ++ ": sidecar not found or unreadable\r\n".toList]
      exitCode := if c.exitCode < 2 then 2 else c.exitCode }

/-- `none` shows the usage instead. -/
def verifyCommand (ctx : SHA256CTX) (d : Disk) : List CString → Option CheckRun
  | [] => none
  | args => some (args.foldl (verifyArg ctx d) {})

variable {ctx : SHA256CTX} {d now : Disk} {p q : CString} {content : List UInt8}
  {files : List FilePath}

/-- The files hashed one after the other, each with its sidecar file. -/
def hashFiles (ctx : SHA256CTX) (d : Disk) (files : List FilePath) : Disk :=
  files.foldl (fun d p => hashFile ctx d p.path) d

theorem hashFiles_concat (p : FilePath) :
    hashFiles ctx d (files ++ [p]) = hashFile ctx (hashFiles ctx d files) p.path := by
  rw [hashFiles, List.foldl_append]
  rfl

/-- The system does not tell letters by their case. -/
def sameFile (p q : CString) : Bool := stricmp (resolve p) (resolve q)

theorem sameFile_of_resolve (h : resolve p = resolve q) : sameFile p q = true :=
  decide_eq_true (congrArg (List.map Char.toLower) h)

/-- None of the files is the sidecar file of one. -/
def Apart (files : List FilePath) : Prop :=
  ∀ p ∈ files, ∀ q ∈ files, sameFile (sidecarPath p.path) q.path = false

/-- No file is spelled with other letters in the same place: a `Disk` tells them
apart. -/
def OneCase (files : List FilePath) : Prop :=
  ∀ p ∈ files, ∀ q ∈ files, sameFile p.path q.path = true → resolve p.path = resolve q.path

instance : Decidable (Apart files) := inferInstanceAs (Decidable (∀ _ ∈ _, _))

instance : Decidable (OneCase files) := inferInstanceAs (Decidable (∀ _ ∈ _, _))

theorem Apart.left {p : FilePath} (h : Apart (files ++ [p])) : Apart files := fun a ha b hb =>
  h a (List.mem_append_left _ ha) b (List.mem_append_left _ hb)

theorem Apart.ne (h : Apart files) {p q : FilePath} (hp : p ∈ files) (hq : q ∈ files) :
    resolve (sidecarPath p.path) ≠ resolve q.path := fun heq =>
  Bool.false_ne_true ((h p hp q hq).symm.trans (sameFile_of_resolve heq))

theorem read_congr (h : resolve p = resolve q) : d.read p = d.read q := by
  rw [Disk.read, Disk.read, h]
  exact if_congr (opens_congr h) rfl rfl

theorem read_put_apart (h : resolve p ≠ resolve q) (bytes : List UInt8) :
    (d.put p bytes).read q = d.read q := by
  rw [Disk.read, Disk.read, Disk.put, Function.update_of_ne h.symm]

theorem read_hashFile (h : resolve (sidecarPath p) ≠ resolve q) :
    (hashFile ctx d p).read q = d.read q := by
  unfold hashFile
  cases hhash : computeFileSHA256 ctx d p with
  | none => rfl
  | some hash =>
    by_cases hopens : Opens (sidecarPath p)
    · dsimp only
      rw [writeSHA256Sidecar_eq _ _ _ hopens, read_put_apart h]
    · dsimp only
      rw [writeSHA256Sidecar, if_neg hopens]

/-- Hashing writes nothing but the sidecar files. -/
theorem read_hashFiles (h : ∀ p ∈ files, resolve (sidecarPath p.path) ≠ resolve q) :
    (hashFiles ctx d files).read q = d.read q := by
  induction files using List.reverseRecOn with
  | nil => rfl
  | append_singleton files p ih =>
    rw [hashFiles_concat, read_hashFile (h p (List.mem_append_right _ (List.mem_singleton_self p)))]
    exact ih fun a ha => h a (List.mem_append_left _ ha)

/-- The last of the files that is `q`, however it is spelled. -/
def lastSpelling (files : List FilePath) (q : CString) : Option FilePath :=
  files.reverse.find? fun p => sameFile p.path q

theorem lastSpelling_concat (p : FilePath) : lastSpelling (files ++ [p]) q =
    if sameFile p.path q then some p else lastSpelling files q := by
  rw [lastSpelling, List.reverse_concat, List.find?_cons]
  cases sameFile p.path q <;> rfl

theorem lastSpelling_spec {p : FilePath} (h : lastSpelling files q = some p) :
    p ∈ files ∧ sameFile p.path q = true := by
  have hfile := List.find?_some h
  exact ⟨List.mem_reverse.mp (List.mem_of_find?_eq_some h), hfile⟩

theorem lastSpelling_of_mem {q : FilePath} (h : q ∈ files) :
    ∃ p, lastSpelling files q.path = some p :=
  Option.isSome_iff_exists.mp
    (List.find?_isSome.mpr ⟨q, List.mem_reverse.mpr h, sameFile_of_resolve rfl⟩)

/-- The sidecar file of `q` is the one of its last spelling. -/
theorem sidecar_hashFiles {p : FilePath} (hapart : Apart files) (hlast : lastSpelling files q = some p)
    (hcase : ∀ p ∈ files, sameFile p.path q = true → resolve p.path = resolve q)
    (hread : d.read q = some content) (hopens : Opens (sidecarPath q)) :
    (hashFiles ctx d files).read (sidecarPath q) =
      some (toBytes (written (sidecarLine (hashContent ctx content) (bareName p.path)))) := by
  induction files using List.reverseRecOn with
  | nil => cases hlast
  | append_singleton files a ih =>
    have ha : a ∈ files ++ [a] := List.mem_append_right _ (List.mem_singleton_self a)
    rw [hashFiles_concat]
    rw [lastSpelling_concat] at hlast
    by_cases hfile : sameFile a.path q = true
    · have hsame := hcase a ha hfile
      rw [if_pos hfile, Option.some.injEq] at hlast
      subst hlast
      have hkept : (hashFiles ctx d files).read a.path = some content := by
        rw [read_hashFiles fun b hb => hapart.ne (List.mem_append_left _ hb) ha, read_congr hsame, hread]
      rw [hashFile_eq hkept ((opens_congr (resolve_sidecarPath.mpr hsame)).mpr hopens)]
      exact read_put_self (resolve_sidecarPath.mpr hsame) hopens _
    · rw [if_neg hfile] at hlast
      rw [read_hashFile fun h => hfile (sameFile_of_resolve (resolve_sidecarPath.mp h))]
      exact ih hapart.left hlast fun b hb => hcase b (List.mem_append_left _ hb)

theorem digitChar_injective : ∀ m < 16, ∀ n < 16, Nat.digitChar m = Nat.digitChar n → m = n := by
  decide

theorem sha256Hex_injective : Function.Injective sha256Hex := by
  intro a b h
  induction a generalizing b with
  | nil =>
    cases b with
    | nil => rfl
    | cons y b => simp [sha256Hex] at h
  | cons x a ih =>
    cases b with
    | nil => simp [sha256Hex] at h
    | cons y b =>
      simp only [sha256Hex, List.flatMap_cons, List.cons_append, List.nil_append,
        List.cons.injEq] at h
      obtain ⟨hhigh, hlow, hrest⟩ := h
      have hx := x.toNat_lt
      have hy := y.toNat_lt
      have hdiv := digitChar_injective _ (by omega) _ (by omega) hhigh
      have hmod := digitChar_injective _ (by omega) _ (by omega) hlow
      rw [ih hrest, UInt8.toNat_inj.mp (by omega : x.toNat = y.toNat)]

theorem hashContent_eq (ctx : SHA256CTX) (content : List UInt8) :
    hashContent ctx content = sha256Hex (FIPS180.sha256 content) := by
  obtain ⟨hflat, hlen⟩ := FileHash.toChunks_spec 65535 content
  rw [hashContent, final_updates ctx _ fun c hc => (hlen c hc).trans_lt (by decide), hflat]

/-- What `VerifyFileSHA256` makes of a file that was hashed as `p`, with what it
held then, and has other content now. -/
def verdict (p q : CString) (old now : List UInt8) : Nat :=
  if SidecarFound p q then if FIPS180.sha256 now = FIPS180.sha256 old then 0 else 1 else 2

/-- The file that `q` is when it was hashed last is checked against the content
that it had all along. -/
theorem verify_hashed {p q : FilePath} (ctx' : SHA256CTX) (hapart : Apart files)
    (hcase : OneCase files) (hq : q ∈ files) (hlast : lastSpelling files q.path = some p)
    {old new : List UInt8} (hold : d.read q.path = some old) (hnew : now.read q.path = some new)
    (hkept : now.read (sidecarPath q.path) = (hashFiles ctx d files).read (sidecarPath q.path)) :
    verifyFileSHA256 ctx' now q.path = verdict p.path q.path old new := by
  obtain ⟨hp, hfile⟩ := lastSpelling_spec hlast
  have hsame := hcase p hp q hq hfile
  have hboth := opens_congr (resolve_sidecarPath.mpr hsame)
  have hcmp : stricmp (hashContent ctx old) (hashContent ctx' new) = true ↔
      FIPS180.sha256 new = FIPS180.sha256 old := by
    rw [stricmp_hashContent, hashContent_eq, hashContent_eq, sha256Hex_injective.eq_iff]
  by_cases hopens : Opens (sidecarPath q.path)
  · rw [sidecar_hashFiles hapart hlast (fun a ha => hcase a ha q hq) hold hopens] at hkept
    rw [verifyFileSHA256_of_line hkept (computeFileSHA256_eq hnew ctx') (hashContent_printable ctx old)
      (bareName_printable p) (hashContent_length ctx old)
      ((bareName_length_le _).trans_lt p.short)]
    simp only [skipped_eq_iff hsame, hcmp, verdict, SidecarFound, hboth, hopens, true_and]
  · have hnone : now.read (sidecarPath q.path) = none := by
      rw [Disk.read, if_neg hopens]
    rw [verifyFileSHA256, hnone, verdict, if_neg fun h => hopens (hboth.mp h.1)]

/-- The line of `verify` for a file with the given result. -/
def verifyLine (q : CString) (result : Nat) : CString :=
  q ++ (match result with
    | 0 => ": OK\r\n"
    | 1 => ": FAILED\r\n"
    | _ => ": sidecar not found or unreadable\r\n").toList

theorem verify_le (ctx : SHA256CTX) (d : Disk) (q : CString) : verifyFileSHA256 ctx d q ≤ 2 := by
  unfold verifyFileSHA256
  split
  · exact le_rfl
  · split
    · exact le_rfl
    · split
      · exact le_rfl
      · split <;> decide

theorem raised_eq (code n : Nat) : (if code < n then n else code) = max code n := by
  split <;> omega

theorem verifyArg_eq (c : CheckRun) (q : CString) : verifyArg ctx d c q =
    ⟨c.output ++ [verifyLine q (verifyFileSHA256 ctx d q)],
      max c.exitCode (verifyFileSHA256 ctx d q)⟩ := by
  have hle := verify_le ctx d q
  unfold verifyArg
  generalize verifyFileSHA256 ctx d q = result at hle
  simp only [raised_eq]
  match result, hle with
  | 0, _ => rw [Nat.max_zero]; rfl
  | 1, _ => rfl
  | 2, _ => rfl

theorem foldl_verifyArg (c : CheckRun) (args : List CString) : args.foldl (verifyArg ctx d) c =
    ⟨c.output ++ args.map fun q => verifyLine q (verifyFileSHA256 ctx d q),
      (args.map (verifyFileSHA256 ctx d)).foldl max c.exitCode⟩ := by
  induction args generalizing c with
  | nil => rw [List.map_nil, List.append_nil]; rfl
  | cons q args ih =>
    rw [List.foldl_cons, ih, verifyArg_eq, List.map_cons, List.map_cons, List.foldl_cons,
      List.append_assoc, List.singleton_append]

/-- One line for each argument, in order, and the worst result for an exit code. -/
theorem verifyCommand_eq {args : List CString} (h : args ≠ []) : verifyCommand ctx d args =
    some ⟨args.map fun q => verifyLine q (verifyFileSHA256 ctx d q),
      (args.map (verifyFileSHA256 ctx d)).foldl max 0⟩ := by
  cases args with
  | nil => exact absurd rfl h
  | cons q args => exact congrArg some (foldl_verifyArg {} (q :: args))

/-- The line of `hash` for a file, and what it does to the exit code. -/
def hashLine (q : CString) (hash : Option CString) : CString :=
  match hash with
  | some szHash => szHash ++ " *".toList ++ bareName q ++ "\r\n".toList
  | none => "FAIL ".toList ++ q ++ ": file not readable\r\n".toList

theorem hashArg_eq (bQuiet : Bool) (s : HashCommand) (q : CString) : hashArg ctx bQuiet s q =
    ⟨if bQuiet then s.disk else hashFile ctx s.disk q,
      s.output ++ [hashLine q (computeFileSHA256 ctx s.disk q)],
      max s.exitCode (if (computeFileSHA256 ctx s.disk q).isSome then 0 else 2)⟩ := by
  unfold hashArg hashFile
  cases hhash : computeFileSHA256 ctx s.disk q with
  | none =>
    dsimp only
    rw [raised_eq, ite_self]
    rfl
  | some hash =>
    rw [Option.isSome_some, if_pos rfl, Nat.max_zero]
    cases bQuiet <;> rfl

/-- Each file is hashed as if it were the only one. -/
theorem foldl_hashArg (ctx : SHA256CTX) (d : Disk) (bQuiet : Bool) (hapart : Apart files) :
    (files.map FilePath.path).foldl (hashArg ctx bQuiet) { disk := d } =
      ⟨if bQuiet then d else hashFiles ctx d files,
        files.map fun q => hashLine q.path (computeFileSHA256 ctx d q.path),
        (files.map fun q => if (computeFileSHA256 ctx d q.path).isSome then 0 else 2).foldl max 0⟩ := by
  induction files using List.reverseRecOn with
  | nil => cases bQuiet <;> rfl
  | append_singleton files q ih =>
    have hread : (if bQuiet then d else hashFiles ctx d files).read q.path = d.read q.path := by
      cases bQuiet with
      | true => rfl
      | false =>
        have hlast : q ∈ files ++ [q] := List.mem_append_right _ (List.mem_singleton_self q)
        exact read_hashFiles fun p hp => hapart.ne (List.mem_append_left _ hp) hlast
    have hhash : computeFileSHA256 ctx (if bQuiet then d else hashFiles ctx d files) q.path =
        computeFileSHA256 ctx d q.path := by
      rw [computeFileSHA256, hread, computeFileSHA256]
    simp only [List.map_append, List.map_cons, List.map_nil, List.foldl_append, List.foldl_cons,
      List.foldl_nil, ih hapart.left, hashArg_eq, hhash]
    cases bQuiet
    · simp only [Bool.false_eq_true, if_false, hashFiles_concat]
    · rfl

/-- What `verify` finds for `q` among the files that were hashed. -/
def verdictIn (files : List FilePath) (q : CString) (old now : List UInt8) : Nat :=
  ((lastSpelling files q).map fun p => verdict p.path q old now).getD 2

theorem foldl_max_eq_zero {l : List Nat} : l.foldl max 0 = 0 ↔ ∀ n ∈ l, n = 0 := by
  induction l using List.reverseRecOn with
  | nil => simp
  | append_singleton l n ih =>
    rw [List.foldl_append, List.foldl_cons, List.foldl_nil, Nat.max_eq_zero_iff, ih]
    simp [or_imp, forall_and]

theorem verdictIn_eq_zero {old new : List UInt8} : verdictIn files q old new = 0 ↔
    (∃ p, lastSpelling files q = some p ∧ SidecarFound p.path q) ∧
      FIPS180.sha256 new = FIPS180.sha256 old := by
  unfold verdictIn verdict
  cases lastSpelling files q with
  | none => simp
  | some p =>
    by_cases hfound : SidecarFound p.path q <;> by_cases heq : FIPS180.sha256 new = FIPS180.sha256 old <;>
      simp [hfound, heq]

theorem hashCommand_eq (hne : files ≠ [])
    (hquiet : (files.map FilePath.path).head? ≠ some "-q".toList) (hapart : Apart files)
    {old : CString → List UInt8} (hold : ∀ q ∈ files, d.read q.path = some (old q.path)) :
    hashCommand ctx d (files.map FilePath.path) = some ⟨hashFiles ctx d files,
      files.map fun q => hashLine q.path (some (sha256Hex (FIPS180.sha256 (old q.path)))), 0⟩ := by
  have hhash : ∀ q ∈ files, computeFileSHA256 ctx d q.path =
      some (sha256Hex (FIPS180.sha256 (old q.path))) := fun q hq => by
    rw [computeFileSHA256_eq (hold q hq), hashContent_eq]
  have hfold := foldl_hashArg ctx d false hapart
  have hlines : (files.map fun q => hashLine q.path (computeFileSHA256 ctx d q.path)) =
      files.map fun q => hashLine q.path (some (sha256Hex (FIPS180.sha256 (old q.path)))) :=
    List.map_congr_left fun q hq => by rw [hhash q hq]
  have hcode : (files.map fun q => if (computeFileSHA256 ctx d q.path).isSome then 0 else 2).foldl
      max 0 = 0 := by
    refine foldl_max_eq_zero.mpr fun n hn => ?_
    obtain ⟨q, hq, rfl⟩ := List.mem_map.mp hn
    rw [hhash q hq]
    rfl
  rw [hlines, hcode, if_neg Bool.false_ne_true] at hfold
  unfold hashCommand
  rw [decide_eq_false hquiet, ← hfold]
  cases files with
  | nil => exact absurd rfl hne
  | cons q files => rfl

theorem verifyCommand_hashed (ctx' : SHA256CTX) (hne : files ≠ []) (hapart : Apart files)
    (hcase : OneCase files) {old new : CString → List UInt8}
    (hold : ∀ q ∈ files, d.read q.path = some (old q.path))
    (hnew : ∀ q ∈ files, now.read q.path = some (new q.path))
    (hkept : ∀ q ∈ files, now.read (sidecarPath q.path) =
      (hashFiles ctx d files).read (sidecarPath q.path)) :
    ∃ c, verifyCommand ctx' now (files.map FilePath.path) = some c ∧
      c.output = (files.map fun q =>
        verifyLine q.path (verdictIn files q.path (old q.path) (new q.path))) ∧
      c.exitCode = (files.map fun q => verdictIn files q.path (old q.path) (new q.path)).foldl max 0 := by
  have hverdict : ∀ q ∈ files, verifyFileSHA256 ctx' now q.path =
      verdictIn files q.path (old q.path) (new q.path) := by
    intro q hq
    obtain ⟨p, hp⟩ := lastSpelling_of_mem hq
    rw [verify_hashed ctx' hapart hcase hq hp (hold q hq) (hnew q hq) (hkept q hq), verdictIn, hp]
    rfl
  refine ⟨_, verifyCommand_eq (by simpa using hne), ?_, ?_⟩
  · rw [List.map_map]
    exact List.map_congr_left fun q hq => congrArg (verifyLine q.path) (hverdict q hq)
  · have hcodes : (files.map FilePath.path).map (verifyFileSHA256 ctx' now) =
        files.map fun q => verdictIn files q.path (old q.path) (new q.path) := by
      rw [List.map_map]
      exact List.map_congr_left hverdict
    exact congrArg (List.foldl max 0) hcodes

/-- `hash` prints the standard hash of each file, and a later `verify` tells of
each whether its hash is still that: the sidecar files that one file gets leave
the others alone. Where a file is named twice, with the one or the other
separator, its last spelling counts. -/
theorem hash_then_verify (ctx ctx' : SHA256CTX) (hne : files ≠ [])
    (hquiet : (files.map FilePath.path).head? ≠ some "-q".toList) (hapart : Apart files)
    (hcase : OneCase files) {old : CString → List UInt8}
    (hold : ∀ q ∈ files, d.read q.path = some (old q.path)) :
    ∃ s, hashCommand ctx d (files.map FilePath.path) = some s ∧ s.exitCode = 0 ∧
      s.output = (files.map fun q =>
        hashLine q.path (some (sha256Hex (FIPS180.sha256 (old q.path))))) ∧
      ∀ (now : Disk) (new : CString → List UInt8),
        (∀ q ∈ files, now.read q.path = some (new q.path)) →
        (∀ q ∈ files, now.read (sidecarPath q.path) = s.disk.read (sidecarPath q.path)) →
        ∃ c, verifyCommand ctx' now (files.map FilePath.path) = some c ∧
          c.output = (files.map fun q =>
            verifyLine q.path (verdictIn files q.path (old q.path) (new q.path))) ∧
          (c.exitCode = 0 ↔ ∀ q ∈ files,
            (∃ p, lastSpelling files q.path = some p ∧ SidecarFound p.path q.path) ∧
              FIPS180.sha256 (new q.path) = FIPS180.sha256 (old q.path)) := by
  refine ⟨_, hashCommand_eq hne hquiet hapart hold, rfl, rfl, fun now new hnew hkept => ?_⟩
  obtain ⟨c, hc, hout, hcode⟩ := verifyCommand_hashed ctx' hne hapart hcase hold hnew hkept
  refine ⟨c, hc, hout, ?_⟩
  rw [hcode, foldl_max_eq_zero, List.forall_mem_map]
  exact forall₂_congr fun q _ => verdictIn_eq_zero

def tapeBackslashes : FilePath :=
  ⟨"C:\\tapes\\tape.avi".toList, by decide, printable_of_all rfl, by decide⟩

def tapesDisk : Disk := fun path =>
  if path = clipBackslashes.path then some [0x41]
  else if path = tapeBackslashes.path then some [0x42, 0x43] else none

theorem two_files_verified :
    let files := [clipBackslashes, tapeBackslashes]
    ∃ s, hashCommand blankContext tapesDisk (files.map FilePath.path) = some s ∧ s.exitCode = 0 ∧
      ∃ c, verifyCommand blankContext s.disk (files.map FilePath.path) = some c ∧ c.exitCode = 0 := by
  intro files
  let content : CString → List UInt8 := fun path =>
    if path = clipBackslashes.path then [0x41] else [0x42, 0x43]
  have hold : ∀ q ∈ files, tapesDisk.read q.path = some (content q.path) := by decide
  have hapart : Apart files := by decide
  obtain ⟨s, hs, hcode, -, hverify⟩ := hash_then_verify blankContext blankContext
    (by decide : files ≠ []) (by decide) hapart (by decide) hold
  have hdisk : s.disk = hashFiles blankContext tapesDisk files := by
    rw [hashCommand_eq (by decide) (by decide) hapart hold] at hs
    rw [← Option.some.inj hs]
  have hnew : ∀ q ∈ files, s.disk.read q.path = some (content q.path) := fun q hq => by
    rw [hdisk, read_hashFiles fun p hp => hapart.ne hp hq, hold q hq]
  obtain ⟨c, hc, -, hexit⟩ := hverify s.disk content hnew fun _ _ => rfl
  refine ⟨s, hs, hcode, c, hc, hexit.mpr fun q hq => ⟨?_, rfl⟩⟩
  rcases List.mem_pair.mp hq with rfl | rfl
  · exact ⟨clipBackslashes, rfl, by decide⟩
  · exact ⟨tapeBackslashes, rfl, by decide⟩

end WinDV
