import WinDV.Sidecar

/-! When a sidecar file that was written for one spelling of a path is read for
another. The line that was written comes back as it was; what decides is the
name in it. -/

namespace WinDV

open TextFile

/-- Bytes of which none is a control character. -/
def Printable (s : CString) : Prop := ∀ c ∈ s, 32 ≤ c.toNat ∧ c.toNat < 256

theorem printable_of_all {s : CString}
    (h : (s.all fun c => decide (32 ≤ c.toNat ∧ c.toNat < 256)) = true) : Printable s :=
  fun c hc => of_decide_eq_true (List.all_eq_true.mp h c hc)

/-- A path of a file by the naming rules of the system. -/
structure FilePath where
  path : CString
  name : fileName path ≠ []
  printable : Printable path
  short : path.length < maxPath

variable {p q : CString}

@[simp]
theorem resolve_length (p : CString) : (resolve p).length = p.length := List.length_map _

theorem length_of_resolve (h : resolve p = resolve q) : p.length = q.length := by
  simpa using congrArg List.length h

theorem fileName_resolve (p : CString) : (fileName (resolve p)).length = (fileName p).length := by
  have hseparator (c : Char) : isSeparator (if c = '/' then '\\' else c) = isSeparator c := by
    split
    · next h => rw [h]; rfl
    · rfl
  induction p using List.reverseRecOn with
  | nil => rfl
  | append_singleton p c ih =>
    rw [resolve, List.map_append, List.map_singleton, fileName, fileName, List.rtakeWhile_concat,
      List.rtakeWhile_concat, hseparator]
    split
    · rw [List.length_append, List.length_append]
      exact congrArg (· + 1) ih
    · rfl

theorem opens_congr (h : resolve p = resolve q) : Opens p ↔ Opens q := by
  rw [Opens, Opens, length_of_resolve h, ← fileName_resolve p, ← fileName_resolve q, h]

theorem resolve_append (p q : CString) : resolve (p ++ q) = resolve p ++ resolve q := List.map_append

theorem bareName_not_mem (p : CString) : '\\' ∉ bareName p := fun h => by
  simpa using List.mem_rtakeWhile_imp h

/-- Two spellings differ in nothing after their last backslashes. -/
theorem eq_of_resolve (h : resolve p = resolve q) (hp : '\\' ∉ p) (hq : '\\' ∉ q) : p = q := by
  induction p generalizing q with
  | nil => exact (List.map_eq_nil_iff.mp h.symm).symm
  | cons c p ih =>
    cases q with
    | nil => simp [resolve] at h
    | cons d q =>
      simp only [resolve, List.map_cons, List.cons.injEq, List.mem_cons, not_or] at h hp hq
      have hcd : c = d := by
        have := h.1
        split at this <;> split at this <;> simp_all
      rw [hcd, ih h.2 hp.2 hq.2]

theorem bareName_split (p : CString) :
    ∃ dir, p = dir ++ bareName p ∧ ∀ c, dir.getLast? = some c → c = '\\' := by
  refine ⟨p.rdropWhile (· ≠ '\\'), (List.rdropWhile_append_rtakeWhile ..).symm, fun c hc => ?_⟩
  obtain ⟨hne, rfl⟩ := List.mem_getLast?_eq_getLast hc
  simpa using List.rdropWhile_last_not _ _ hne

theorem stricmp_length {a b : CString} (h : stricmp a b = true) : a.length = b.length := by
  simpa using congrArg List.length (of_decide_eq_true h)

theorem resolve_getLast? (p : CString) :
    (resolve p).getLast? = p.getLast?.map fun c => if c = '/' then '\\' else c :=
  List.getLast?_map

/-- The name that is left of the written one when blanks before it are skipped
is the one to compare with only if there were none. -/
theorem skipped_eq_iff (h : resolve p = resolve q) :
    stricmp ((bareName p).dropWhile (· = ' ')) (bareName q) = true ↔
      bareName p = bareName q ∧ (bareName p).head? ≠ some ' ' := by
  constructor
  · intro hcmp
    obtain ⟨dir, hp, -⟩ := bareName_split p
    obtain ⟨dir', hq, hlast⟩ := bareName_split q
    have hsplit := List.takeWhile_append_dropWhile (p := fun c => decide (c = ' ')) (l := bareName p)
    have hblank := fun c => List.mem_takeWhile_imp (p := fun c => decide (c = ' '))
      (l := bareName p) (x := c)
    have hlen := stricmp_length hcmp
    generalize htake : (bareName p).takeWhile (fun c => decide (c = ' ')) = blanks at hsplit hblank
    generalize (bareName p).dropWhile (fun c => decide (c = ' ')) = rest at hsplit hlen
    have hparts : resolve (dir ++ blanks) ++ resolve rest = resolve dir' ++ resolve (bareName q) := by
      rw [← resolve_append, ← resolve_append, List.append_assoc, hsplit, ← hp, ← hq, h]
    obtain ⟨hdirs, hrest⟩ := List.append_inj' hparts (by simpa using hlen)
    -- a blank before the rest would be where `q` has its backslash
    have hnone : blanks = [] := by
      rcases blanks.eq_nil_or_concat with hnil | ⟨front, c, hblanks⟩
      · exact hnil
      · have hc : c = ' ' := by simpa using hblank c (by simp [hblanks])
        have hlasts := congrArg List.getLast? hdirs
        rw [resolve_getLast?, resolve_getLast?, hblanks, hc] at hlasts
        simp only [List.concat_eq_append, ← List.append_assoc, List.getLast?_concat] at hlasts
        obtain ⟨d, hd, hdc⟩ := Option.map_eq_some_iff.mp hlasts.symm
        obtain rfl := hlast d hd
        simp at hdc
    rw [hnone, List.nil_append] at hsplit
    rw [hsplit] at hrest
    refine ⟨eq_of_resolve hrest (bareName_not_mem p) (bareName_not_mem q), fun hhead => ?_⟩
    obtain ⟨b, hb⟩ := List.head?_eq_some_iff.mp hhead
    simp [hb, hnone] at htake
  · rintro ⟨heq, hhead⟩
    rw [← heq]
    cases hb : bareName p with
    | nil => rfl
    | cons c b =>
      have hc : c ≠ ' ' := by simpa [hb] using hhead
      simp [hc, stricmp]

theorem hexDigit_cases : ∀ n < 16, 32 ≤ (Nat.digitChar n).toNat ∧ (Nat.digitChar n).toNat < 256 ∧
    (Nat.digitChar n).toLower = Nat.digitChar n := by decide

theorem mem_sha256Hex {hash : List UInt8} {c : Char} (h : c ∈ sha256Hex hash) :
    ∃ n < 16, c = Nat.digitChar n := by
  obtain ⟨b, -, hc⟩ := List.mem_flatMap.mp h
  have hb := b.toNat_lt
  rcases List.mem_pair.mp hc with rfl | rfl
  · exact ⟨b.toNat / 16, by omega, rfl⟩
  · exact ⟨b.toNat % 16, Nat.mod_lt _ (by decide), rfl⟩

theorem sha256Hex_length (hash : List UInt8) : (sha256Hex hash).length = 2 * hash.length := by
  induction hash with
  | nil => rfl
  | cons b hash ih =>
    simp only [sha256Hex, List.flatMap_cons, List.length_append, List.length_cons] at ih ⊢
    rw [ih]
    simp
    omega

theorem hashContent_length (ctx : SHA256CTX) (content : List UInt8) :
    (hashContent ctx content).length = 64 := by
  rw [hashContent, sha256Hex_length]
  rfl

theorem hashContent_printable (ctx : SHA256CTX) (content : List UInt8) :
    Printable (hashContent ctx content) := fun c hc => by
  obtain ⟨n, hn, rfl⟩ := mem_sha256Hex hc
  exact ⟨(hexDigit_cases n hn).1, (hexDigit_cases n hn).2.1⟩

theorem hashContent_toLower (ctx : SHA256CTX) (content : List UInt8) :
    (hashContent ctx content).map Char.toLower = hashContent ctx content := by
  refine List.map_congr_left (fun c hc => ?_) |>.trans (List.map_id _)
  obtain ⟨n, hn, rfl⟩ := mem_sha256Hex hc
  exact (hexDigit_cases n hn).2.2

theorem hashContent_congr (ctx ctx' : SHA256CTX) (content : List UInt8) :
    hashContent ctx content = hashContent ctx' content :=
  congrArg sha256Hex (sha256_stream_congr ctx ctx' _)

theorem ofBytes_toBytes {s : CString} (h : ∀ c ∈ s, c.toNat < 256) : ofBytes (toBytes s) = s := by
  rw [ofBytes, toBytes, List.map_map]
  refine List.map_congr_left (fun c hc => ?_) |>.trans (List.map_id _)
  simp [Nat.mod_eq_of_lt (h c hc)]

theorem Printable.ne {s : CString} (h : Printable s) {c d : Char} (hc : c ∈ s) (hd : d.toNat < 32) :
    c ≠ d := by
  rintro rfl
  have := (h c hc).1
  omega

theorem bareName_printable (p : FilePath) : Printable (bareName p.path) := fun c hc =>
  p.printable c (List.IsSuffix.mem hc (List.rtakeWhile_suffix _ _))

theorem mem_sidecarLine {hash bare : CString} (hhash : Printable hash) (hbare : Printable bare) {c : Char}
    (hc : c ∈ sidecarLine hash bare) : c = '\n' ∨ 32 ≤ c.toNat ∧ c.toNat < 256 := by
  simp only [sidecarLine, List.mem_append] at hc
  rcases hc with ((hc | hc) | hc) | hc
  · exact .inr (hhash c hc)
  · right
    have := List.mem_pair.mp hc
    rcases this with rfl | rfl <;> decide
  · exact .inr (hbare c hc)
  · exact .inl (List.mem_singleton.mp hc)

theorem lines_of_sidecarLine {hash bare : CString} (hhash : Printable hash) (hbare : Printable bare)
    (hlen : hash.length + bare.length ≤ 507) :
    fgetsLines 512 [] (readBack (ofBytes (toBytes (written (sidecarLine hash bare))))) =
      [sidecarLine hash bare] := by
  have hline := fun c => mem_sidecarLine hhash hbare (c := c)
  have hbytes : ∀ c ∈ written (sidecarLine hash bare), c.toNat < 256 := by
    intro c hc
    rcases mem_written hc with rfl | hc
    · decide
    · rcases hline c hc with rfl | hc
      · decide
      · exact hc.2
  have htext : ∀ c ∈ sidecarLine hash bare, c ≠ '\x1a' := by
    intro c hc
    rcases hline c hc with rfl | hc
    · decide
    · rintro rfl
      simp at hc
  rw [ofBytes_toBytes hbytes, readBack_written htext]
  refine fgetsLines_line (fun hmem => ?_) (by simp; omega)
  simp only [List.mem_append] at hmem
  rcases hmem with (hmem | hmem) | hmem
  · exact hhash.ne hmem (by decide) rfl
  · simp at hmem
  · exact hbare.ne hmem (by decide) rfl

theorem lineHash_sidecarLine {hash bare : CString} (hhash : Printable hash) (hbare : Printable bare)
    (hlen : hash.length = 64) (name : CString) :
    lineHash name (sidecarLine hash bare) =
      if stricmp (bare.dropWhile (· = ' ')) name then some hash else none := by
  have hwhole : (sidecarLine hash bare).takeWhile (· ≠ '\x00') = sidecarLine hash bare := by
    refine List.takeWhile_eq_self_iff.mpr fun c hc => ?_
    rcases mem_sidecarLine hhash hbare hc with rfl | hc
    · decide
    · simp only [ne_eq, decide_eq_true_eq]
      rintro rfl
      simp at hc
  have hsplit : sidecarLine hash bare = hash ++ ' ' :: '*' :: (bare ++ ['\n']) := by
    simp [sidecarLine]
  have hrest : ∀ c ∈ bare.dropWhile (· = ' '), isLineEnd c = false := by
    intro c hc
    have hmem := (List.dropWhile_sublist _).mem hc
    simp [isLineEnd, hbare.ne hmem]
  have hname : lineName (sidecarLine hash bare) = some (bare.dropWhile (· = ' ')) := by
    have hstar : afterChar '*' (' ' :: '*' :: (bare ++ ['\n'])) = some (bare ++ ['\n']) := by
      simp [afterChar]
    rw [lineName, hsplit, List.drop_left' hlen, hstar, Option.some_or, Option.map_some,
      List.dropWhile_append]
    split
    · next hnil =>
      rw [List.isEmpty_iff.mp hnil]
      rfl
    · rw [trim_line hrest]
  have hlong : ¬ (sidecarLine hash bare).length < 66 := by
    rw [hsplit]
    simp
    omega
  simp only [lineHash, hwhole, hlong, if_false, hname, Option.any_some]
  rw [hsplit, List.take_left' hlen]

theorem computeFileSHA256_eq {d : Disk} {content : List UInt8} (hread : d.read p = some content)
    (ctx : SHA256CTX) : computeFileSHA256 ctx d p = some (hashContent ctx content) := by
  rw [computeFileSHA256, hread, Option.map_some]

theorem writeSHA256Sidecar_eq (d : Disk) (hash filename : CString) (h : Opens p) :
    writeSHA256Sidecar d p hash filename false =
      d.put p (toBytes (written (sidecarLine hash filename))) := by
  rw [writeSHA256Sidecar, if_pos h]
  rfl

theorem hashFile_eq {d : Disk} {content : List UInt8} (hread : d.read p = some content)
    (hopens : Opens (sidecarPath p)) (ctx : SHA256CTX) :
    hashFile ctx d p = d.put (sidecarPath p)
      (toBytes (written (sidecarLine (hashContent ctx content) (bareName p)))) := by
  rw [← writeSHA256Sidecar_eq _ _ _ hopens]
  simp only [hashFile, computeFileSHA256_eq hread]

theorem read_put_self {d : Disk} (h : resolve p = resolve q) (hq : Opens q)
    (content : List UInt8) : (d.put p content).read q = some content := by
  rw [Disk.read, if_pos hq, Disk.put, h, Function.update_self]

theorem read_put_of_ne {d : Disk} (h : p.length ≠ q.length) (content : List UInt8) :
    (d.put p content).read q = d.read q := by
  have hne : resolve q ≠ resolve p := fun heq => h (length_of_resolve heq).symm
  rw [Disk.read, Disk.read, Disk.put, Function.update_of_ne hne]

theorem sidecarPath_length (p : CString) : (sidecarPath p).length = p.length + 7 := by
  simp [sidecarPath]

theorem resolve_sidecarPath : resolve (sidecarPath p) = resolve (sidecarPath q) ↔ resolve p = resolve q := by
  rw [sidecarPath, sidecarPath, resolve_append, resolve_append, List.append_left_inj]

theorem opens_of_read {d : Disk} {content : List UInt8} (hread : d.read p = some content) : Opens p := by
  rw [Disk.read] at hread
  split at hread
  · assumption
  · cases hread

/-- The names agree, and the sidecar file has a path that the system opens. -/
def SidecarFound (p q : CString) : Prop :=
  Opens (sidecarPath p) ∧ bareName p = bareName q ∧ (bareName p).head? ≠ some ' '

instance (p q : CString) : Decidable (SidecarFound p q) := inferInstanceAs (Decidable (_ ∧ _))

theorem verifyFileSHA256_of_line {d : Disk} {hash actual bare : CString} {ctx : SHA256CTX}
    (hside : d.read (sidecarPath q) = some (toBytes (written (sidecarLine hash bare))))
    (hactual : computeFileSHA256 ctx d q = some actual) (hhash : Printable hash)
    (hbare : Printable bare) (hlen : hash.length = 64) (hshort : bare.length < maxPath) :
    verifyFileSHA256 ctx d q =
      if stricmp (bare.dropWhile (· = ' ')) (bareName q) then
        if stricmp hash actual then 0 else 1
      else 2 := by
  have hfits : hash.length + bare.length ≤ 507 := by
    have : maxPath = 260 := rfl
    omega
  simp only [verifyFileSHA256, hside, lines_of_sidecarLine hhash hbare hfits, List.findSome?_cons,
    lineHash_sidecarLine hhash hbare hlen]
  by_cases hname : stricmp (bare.dropWhile (· = ' ')) (bareName q) = true
  · simp only [hname, if_true, hactual]
  · simp only [hname, Bool.false_eq_true, if_false, List.findSome?_nil]

theorem stricmp_hashContent (ctx ctx' : SHA256CTX) (content content' : List UInt8) :
    stricmp (hashContent ctx content) (hashContent ctx' content') = true ↔
      hashContent ctx' content' = hashContent ctx content := by
  rw [stricmp, hashContent_toLower, hashContent_toLower, decide_eq_true_iff, eq_comm]

theorem bareName_length_le (p : CString) : (bareName p).length ≤ p.length :=
  (List.rtakeWhile_suffix _ _).length_le

theorem verifyFileSHA256_hashed (p q : FilePath) (hpq : resolve p.path = resolve q.path)
    {d : Disk} {content : List UInt8} (hread : d.read p.path = some content) (ctx ctx' : SHA256CTX)
    (now : List UInt8) :
    verifyFileSHA256 ctx' ((hashFile ctx d p.path).put p.path now) q.path =
      if SidecarFound p.path q.path then
        if hashContent ctx now = hashContent ctx content then 0 else 1
      else 2 := by
  have hsame := opens_congr (resolve_sidecarPath.mpr hpq)
  have hq : Opens q.path := (opens_congr hpq).mp (opens_of_read hread)
  by_cases hopens : Opens (sidecarPath p.path)
  · have hside : ((hashFile ctx d p.path).put p.path now).read (sidecarPath q.path) =
        some (toBytes (written (sidecarLine (hashContent ctx content) (bareName p.path)))) := by
      have hlen := length_of_resolve hpq
      rw [read_put_of_ne (by rw [sidecarPath_length]; omega), hashFile_eq hread hopens]
      exact read_put_self (resolve_sidecarPath.mpr hpq) (hsame.mp hopens) _
    have hactual := computeFileSHA256_eq (read_put_self (d := hashFile ctx d p.path) hpq hq now) ctx'
    rw [verifyFileSHA256_of_line hside hactual (hashContent_printable ctx content)
      (bareName_printable p) (hashContent_length ctx content)
      (Nat.lt_of_le_of_lt (bareName_length_le _) p.short)]
    simp only [skipped_eq_iff hpq, stricmp_hashContent, hashContent_congr ctx' ctx, SidecarFound, hopens,
      true_and]
  · have hside : ((hashFile ctx d p.path).put p.path now).read (sidecarPath q.path) = none := by
      rw [Disk.read, if_neg (hsame.not.mp hopens)]
    rw [verifyFileSHA256, hside, if_neg fun h => hopens h.1]

/-- A verification of the hashed file, whose content may have changed since,
does what it is for if and only if the sidecar file is found and its line is
for the file. -/
theorem sidecar_round_trip_iff (p q : FilePath) (hpq : resolve p.path = resolve q.path) {d : Disk}
    {content : List UInt8} (hread : d.read p.path = some content) (ctx ctx' : SHA256CTX)
    (now : List UInt8) :
    let result := verifyFileSHA256 ctx' ((hashFile ctx d p.path).put p.path now) q.path
    ((now = content → result = 0) ∧
        (hashContent ctx now ≠ hashContent ctx content → result = 1) ∧ result ≠ 2) ↔
      SidecarFound p.path q.path := by
  intro result
  have hresult : result = _ := verifyFileSHA256_hashed p q hpq hread ctx ctx' now
  constructor
  · rintro ⟨-, -, hne⟩
    by_contra hfound
    exact hne (hresult.trans (if_neg hfound))
  · intro hfound
    rw [if_pos hfound] at hresult
    rw [hresult]
    refine ⟨fun h => if_pos (h ▸ rfl), fun h => if_neg h, ?_⟩
    split <;> decide

def blankContext : SHA256CTX := ⟨List.replicate 64 0, rfl, 0, 0, 0, ⟨0, 0, 0, 0, 0, 0, 0, 0⟩⟩

def clipSlashes : FilePath :=
  ⟨"C:/tapes/clip.avi".toList, by decide, printable_of_all rfl, by decide⟩

def clipBackslashes : FilePath :=
  ⟨"C:\\tapes\\clip.avi".toList, by decide, printable_of_all rfl, by decide⟩

def clipDisk : Disk := fun path => if path = clipBackslashes.path then some [0x41] else none

theorem clip_verified :
    verifyFileSHA256 blankContext
      ((hashFile blankContext clipDisk clipBackslashes.path).put clipBackslashes.path [0x41])
      clipBackslashes.path = 0 :=
  ((sidecar_round_trip_iff clipBackslashes clipBackslashes rfl (d := clipDisk) (by decide)
    blankContext blankContext [0x41]).mpr (by decide)).1 rfl

/-- The name in the sidecar file of `C:/tapes/clip.avi` is the whole path. -/
theorem slashes_not_found :
    resolve clipSlashes.path = resolve clipBackslashes.path ∧
      clipDisk.read clipSlashes.path = some [0x41] ∧
      verifyFileSHA256 blankContext
        ((hashFile blankContext clipDisk clipSlashes.path).put clipSlashes.path [0x41])
        clipBackslashes.path = 2 := by
  decide +kernel

end WinDV
