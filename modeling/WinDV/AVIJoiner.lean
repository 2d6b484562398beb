import WinDV.AVICheck
import WinDV.Fields
import Mathlib.Data.List.Sort

/-! The constructor of `CAVIJoiner`, which takes one text for a list of files,
and the three places that make such a text. Opening a file and searching the
directory are parameters; a search finds nothing or some paths. -/

namespace WinDV

/-- `isspace` of the C locale, which `TrimLeft` and `TrimRight` go by. -/
def isspace (c : Char) : Bool := c == ' ' || (9 ≤ c.toNat && c.toNat ≤ 13)

/-- `CompareStrings` finds `a` not after `b`. -/
def CompareNoCase (a b : CString) : Prop := ¬ b.map Char.toLower < a.map Char.toLower

instance : DecidableRel CompareNoCase := fun a b =>
  inferInstanceAs (Decidable (¬ b.map Char.toLower < a.map Char.toLower))

/-- The `qsort` of the paths that one search finds. -/
def sortFiles (files : List CString) : List CString := files.insertionSort CompareNoCase

/-- The loop of the constructor, with the `m_filenames` it has so far. -/
def addFilenames (findFile : CString → List CString) (filenames : List CString) (flnms : CString) :
    Except CString (List CString) :=
  if flnms = [] then .ok filenames
  else
    let filename := flnms.takeWhile (· != '|')
    let rest := if filename.length < flnms.length then flnms.drop (filename.length + 1) else []
    let filename := Fields.trim isspace filename
    if filename ≠ [] then
      let files := findFile filename
      if files = [] then .error (filename ++ ": file not found".toList)
      else addFilenames findFile (filenames ++ sortFiles files) rest
    else addFilenames findFile filenames rest
termination_by flnms.length
decreasing_by
  all_goals
    have hpos := List.length_pos_iff.mpr ‹flnms ≠ []›
    grind

/-- The members that the constructor sets: `m_reader` reads the first file. -/
structure CAVIJoiner (Reader : Type) where
  filenames : List CString
  current : Nat
  reader : Reader
  deriving DecidableEq, Repr

def CAVIJoiner.new {Reader : Type} (findFile : CString → List CString)
    (newReader : CString → Except CString Reader) (filenames : CString) :
    Except CString (CAVIJoiner Reader) := do
  match ← addFilenames findFile [] filenames with
  | [] => .error "No file selected".toList
  | file :: files =>
    let reader ← newReader file
    return ⟨file :: files, 1, reader⟩

structure CDropFilesEdit where
  separator : CString
  /-- `m_filter` may change a path that it accepts. -/
  filter : CString → Option CString

/-- `CDropFilesEdit(" | ")`, with `NoFilter`. -/
def multiDrop : CDropFilesEdit := ⟨" | ".toList, some⟩

/-- `DragQueryFile` into `buf[256]`. -/
def dragQueryFile (path : CString) : CString := path.take 255

/-- The text of the control after files are dropped on it. -/
def CDropFilesEdit.onDropFiles (edit : CDropFilesEdit) (text : CString) (dropped : List CString) :
    CString :=
  let n := if edit.separator ≠ [] then dropped.length else 1
  let files := (dropped.take n).foldl (fun files path =>
    match edit.filter (dragQueryFile path) with
    | some file => (if files ≠ [] then files ++ edit.separator else files) ++ file
    | none => files) []
  if files ≠ [] then files else text

/-- The loop of `SelectFile(TRUE)` over the paths that the dialog returns. -/
def selectFile (txt : CString) : List CString → CString
  | [] => txt
  | path :: paths =>
    let txt := txt ++ path
    selectFile (if paths ≠ [] then txt ++ " | ".toList else txt) paths

/-- The loop of the `record` command over its file arguments. -/
def recordFiles (args : List CString) : CString :=
  args.foldl (fun files arg => (if files ≠ [] then files ++ " | ".toList else files) ++ arg) []

/-- How a list of files becomes the text of a control or a setting. -/
inductive FileList
  | dropped
  | selected
  | arguments
  deriving DecidableEq, Repr

/-- The argument of `BuildRecording`. -/
def recordSource (aviPrefix files aviSuffix : CString) : CString :=
  aviPrefix ++ '|' :: files ++ '|' :: aviSuffix

def FileList.text : FileList → List CString → CString
  | dropped => multiDrop.onDropFiles []
  | selected => selectFile []
  | arguments => recordFiles

/-- A path that the texts can hold. -/
structure SourcePath where
  path : CString
  isField : Fields.IsField isspace '|' path
  length_le : path.length ≤ 255

def paths (ps : List SourcePath) : List CString := ps.map SourcePath.path

section Texts

variable {ps : List CString}

theorem intercalate_concat (ps : List CString) (hne : ps ≠ []) (p : CString) :
    " | ".toList.intercalate (ps ++ [p]) = " | ".toList.intercalate ps ++ " | ".toList ++ p := by
  induction ps with
  | nil => exact absurd rfl hne
  | cons q ps ih =>
    cases ps with
    | nil => simp
    | cons r ps =>
      have ih := ih (List.cons_ne_nil r ps)
      rw [List.cons_append, List.cons_append, List.intercalate_cons_cons,
        List.intercalate_cons_cons, ← List.cons_append, ih]
      simp only [List.append_assoc]

theorem intercalate_ne_nil (hne : ps ≠ []) (h : ∀ p ∈ ps, p ≠ []) :
    " | ".toList.intercalate ps ≠ [] := by
  cases ps with
  | nil => exact absurd rfl hne
  | cons p ps =>
    have hp := h p List.mem_cons_self
    cases ps with
    | nil => simpa using hp
    | cons q ps => simp [hp]

/-- Appending to a text that is not empty after a separator joins the paths. -/
theorem foldl_join (h : ∀ p ∈ ps, p ≠ []) :
    ps.foldl (fun files p => (if files ≠ [] then files ++ " | ".toList else files) ++ p) [] =
      " | ".toList.intercalate ps := by
  induction ps using List.reverseRecOn with
  | nil => rfl
  | append_singleton ps p ih =>
    have hps : ∀ q ∈ ps, q ≠ [] := fun q hq => h q (List.mem_append_left _ hq)
    rw [List.foldl_append, List.foldl_cons, List.foldl_nil, ih hps]
    by_cases hnil : ps = []
    · simp [hnil]
    · rw [if_pos (intercalate_ne_nil hnil hps), intercalate_concat ps hnil]

theorem recordFiles_eq (h : ∀ p ∈ ps, p ≠ []) : recordFiles ps = " | ".toList.intercalate ps :=
  foldl_join h

theorem selectFile_eq (txt : CString) (ps : List CString) :
    selectFile txt ps = txt ++ " | ".toList.intercalate ps := by
  induction ps generalizing txt with
  | nil => simp [selectFile]
  | cons p ps ih =>
    rw [selectFile, ih]
    cases ps with
    | nil => simp
    | cons q ps => simp

theorem onDropFiles_eq (h : ∀ p ∈ ps, p ≠ []) (hlen : ∀ p ∈ ps, p.length ≤ 255) :
    multiDrop.onDropFiles [] ps = " | ".toList.intercalate ps := by
  have hsep : multiDrop.separator ≠ [] := by decide
  have hfold : ∀ init : CString, ps.foldl (fun files path =>
      match multiDrop.filter (dragQueryFile path) with
      | some file => (if files ≠ [] then files ++ multiDrop.separator else files) ++ file
      | none => files) init =
      ps.foldl (fun files p => (if files ≠ [] then files ++ " | ".toList else files) ++ p) init := by
    intro init
    refine List.foldl_ext _ _ _ fun files p hp => ?_
    have hwhole : dragQueryFile p = p := List.take_of_length_le (hlen p hp)
    simp only [multiDrop, hwhole]
  rw [CDropFilesEdit.onDropFiles, if_pos hsep, List.take_length]
  rw [hfold, foldl_join h]
  by_cases hnil : " | ".toList.intercalate ps = []
  · rw [if_neg (not_not_intro hnil), hnil]
  · rw [if_pos hnil]

end Texts

/-- All three make the same text. -/
theorem FileList.text_eq (list : FileList) (ps : List SourcePath) :
    list.text (paths ps) = " | ".toList.intercalate (paths ps) := by
  have hne : ∀ p ∈ paths ps, p ≠ [] := by
    intro p hp
    obtain ⟨s, -, rfl⟩ := List.mem_map.mp hp
    exact s.isField.ne_nil
  have hlen : ∀ p ∈ paths ps, p.length ≤ 255 := by
    intro p hp
    obtain ⟨s, -, rfl⟩ := List.mem_map.mp hp
    exact s.length_le
  cases list with
  | dropped => exact onDropFiles_eq hne hlen
  | selected => exact selectFile_eq [] (paths ps)
  | arguments => exact recordFiles_eq hne

theorem FileList.fields_text (list : FileList) (ps : List SourcePath) :
    Fields.fields isspace '|' (list.text (paths ps)) = paths ps := by
  rw [list.text_eq]
  refine Fields.fields_intercalate (by decide) (by decide) fun p hp => ?_
  obtain ⟨s, -, rfl⟩ := List.mem_map.mp hp
  exact s.isField

/-- The constructor searches for each field of its text, in order. -/
theorem addFilenames_eq (findFile : CString → List CString) (filenames : List CString)
    (flnms : CString) (h : ∀ t ∈ Fields.fields isspace '|' flnms, findFile t ≠ []) :
    addFilenames findFile filenames flnms =
      .ok (filenames ++ (Fields.fields isspace '|' flnms).flatMap fun t => sortFiles (findFile t)) := by
  have hrest (s : CString) (n : Nat) :
      (if n < s.length then s.drop (n + 1) else []) = s.drop (n + 1) := by
    split
    · rfl
    · rw [List.drop_eq_nil_of_le (by omega)]
  fun_induction addFilenames findFile filenames flnms with
  | case1 => simp [Fields.fields_nil]
  | case2 filenames flnms hne token filename htrim files hnone =>
    rw [Fields.fields_eq_takeWhile, if_neg htrim] at h
    exact absurd hnone (h filename (by simp [filename, token]))
  | case3 filenames flnms hne token rest filename htrim files hfound ih =>
    rw [Fields.fields_eq_takeWhile, if_neg htrim] at h ⊢
    have hrest : rest = flnms.drop (token.length + 1) := hrest flnms token.length
    rw [← hrest] at h ⊢
    rw [ih fun t ht => h t (List.mem_append_right _ ht), List.singleton_append, List.flatMap_cons,
      List.append_assoc]
  | case4 filenames flnms hne token rest filename htrim ih =>
    rw [Fields.fields_eq_takeWhile, if_pos (not_not.mp htrim), List.nil_append] at h ⊢
    have hrest : rest = flnms.drop (token.length + 1) := hrest flnms token.length
    rw [← hrest] at h ⊢
    exact ih h

/-- Whatever made the three texts, the joiner plays the prefix files, the source
files and the suffix files in order, under the paths that the search gives them,
and it has the first of them open. -/
theorem joiner_filenames {Reader : Type} (findFile : CString → List CString)
    (newReader : CString → Except CString Reader) (fullPath : CString → CString)
    (prefixList sourceList suffixList : FileList) (pre source suf : List SourcePath)
    (hfind : ∀ p ∈ paths (pre ++ source ++ suf), findFile p = [fullPath p])
    (hne : pre ++ source ++ suf ≠ []) :
    ∃ file files, file :: files = (paths (pre ++ source ++ suf)).map fullPath ∧
      CAVIJoiner.new findFile newReader (recordSource (prefixList.text (paths pre))
          (sourceList.text (paths source)) (suffixList.text (paths suf))) =
        (newReader file).map fun reader => ⟨file :: files, 1, reader⟩ := by
  have hfields : Fields.fields isspace '|' (recordSource (prefixList.text (paths pre))
      (sourceList.text (paths source)) (suffixList.text (paths suf))) =
      paths (pre ++ source ++ suf) := by
    rw [recordSource, Fields.fields_append, Fields.fields_append, FileList.fields_text,
      FileList.fields_text, FileList.fields_text]
    simp [paths]
  have hadd := addFilenames_eq findFile [] (recordSource (prefixList.text (paths pre))
    (sourceList.text (paths source)) (suffixList.text (paths suf))) (by
      rw [hfields]
      intro p hp
      simp [hfind p hp])
  have hsorted : (paths (pre ++ source ++ suf)).flatMap (fun t => sortFiles (findFile t)) =
      (paths (pre ++ source ++ suf)).map fullPath := by
    rw [List.map_eq_flatMap]
    refine List.flatMap_congr fun p hp => ?_
    rw [hfind p hp]
    rfl
  rw [hfields, List.nil_append, hsorted] at hadd
  have hfiles : (paths (pre ++ source ++ suf)).map fullPath ≠ [] := by simpa [paths] using hne
  obtain ⟨file, files, hcons⟩ := List.exists_cons_of_ne_nil hfiles
  refine ⟨file, files, hcons.symm, ?_⟩
  rw [CAVIJoiner.new, hadd, hcons]
  rfl

def clip (name : CString) (h : Fields.IsField isspace '|' name ∧ name.length ≤ 255) : SourcePath :=
  ⟨name, h.1, h.2⟩

/-- Two files and one after them, none before. -/
theorem clips_joined :
    ∃ file files, file :: files = ["C:\\a.avi".toList, "C:\\b c.avi".toList, "C:\\end.avi".toList] ∧
      CAVIJoiner.new (fun p => ["C:\\".toList ++ p]) (Except.ok (ε := CString))
          (recordSource (FileList.dropped.text [])
            (FileList.selected.text ["a.avi".toList, "b c.avi".toList])
            (FileList.arguments.text ["end.avi".toList])) =
        (Except.ok file).map fun reader => ⟨file :: files, 1, reader⟩ :=
  joiner_filenames (fun p => ["C:\\".toList ++ p]) Except.ok (fun p => "C:\\".toList ++ p)
    .dropped .selected .arguments [] [clip "a.avi".toList (by decide), clip "b c.avi".toList (by decide)]
    [clip "end.avi".toList (by decide)] (fun _ _ => rfl) (by simp)

end WinDV
