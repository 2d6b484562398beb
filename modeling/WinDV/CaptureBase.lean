import WinDV.AVIJoiner
import Mathlib.Data.List.DropRight

/-! `CaptureFilenameExtractBase`, and the control of the capture destination,
whose text it cuts down each time that the Browse button was pressed. -/

namespace WinDV

/-- `CString::ReverseFind`: the index of the last `c`, or -1. -/
def reverseFind (s : CString) (c : Char) : Int := s.length - 1 - s.reverse.idxOf c

def captureFilenameExtractBase (file : CString) : CString :=
  let pos := reverseFind file '.'
  let sep := reverseFind file '\\'
  let sep2 := reverseFind file '/'
  let sep := if sep2 > sep then sep2 else sep
  if pos > sep then file.take pos.toNat else file

/-- `SelectFile(FALSE)`; the dialog returns no path when it is cancelled. -/
def selectDestination (dialog : Option CString) (text : CString) : CString := dialog.getD text

def onFdstSel (dialog : Option CString) (text : CString) : CString :=
  captureFilenameExtractBase (selectDestination dialog text)

def isDirSeparator (c : Char) : Bool := c == '\\' || c == '/'

/-- Up to the last separator, and what follows it. -/
def directory (path : CString) : CString := path.rdropWhile fun c => !isDirSeparator c

def lastName (path : CString) : CString := path.rtakeWhile fun c => !isDirSeparator c

/-- A base name that was cut once stays as it is, also when a dialog is
cancelled, and no directory changes. -/
structure BaseStable (path : CString) : Prop where
  idempotent : captureFilenameExtractBase (captureFilenameExtractBase path) =
    captureFilenameExtractBase path
  cancelled : onFdstSel none (captureFilenameExtractBase path) = captureFilenameExtractBase path
  directory : directory (captureFilenameExtractBase path) = directory path
  directory' : WinDV.directory (captureFilenameExtractBase (captureFilenameExtractBase path)) =
    WinDV.directory path

section ReverseFind

variable {s t : CString} {c : Char}

theorem reverseFind_lt (s : CString) (c : Char) : reverseFind s c < s.length := by
  rw [reverseFind]
  omega

theorem reverseFind_last (h : c ∉ t) : reverseFind (s ++ c :: t) c = s.length := by
  have hidx : (s ++ c :: t).reverse.idxOf c = t.length := by
    rw [List.reverse_append, List.reverse_cons, List.append_assoc,
      List.idxOf_append_of_notMem (by simpa using h), List.length_reverse, List.singleton_append,
      List.idxOf_cons_self, Nat.add_zero]
  rw [reverseFind, hidx, List.length_append, List.length_cons]
  omega

theorem reverseFind_append_of_not_mem (h : c ∉ t) : reverseFind (s ++ t) c = reverseFind s c := by
  rw [reverseFind, List.reverse_append, List.idxOf_append_of_notMem (by simpa using h), reverseFind,
    List.length_append, List.length_reverse]
  omega

end ReverseFind

theorem exists_last_of_mem {α : Type*} {l : List α} {a : α} (h : a ∈ l) :
    ∃ before after, l = before ++ a :: after ∧ a ∉ after := by
  obtain ⟨after, before, hsplit, hnot⟩ := List.eq_append_cons_of_mem (List.mem_reverse.mpr h)
  refine ⟨before.reverse, after.reverse, ?_, by simpa using hnot⟩
  rw [← List.reverse_reverse l, hsplit]
  simp

/-- A path that is all directory. -/
def IsDirectory (dir : CString) : Prop :=
  dir = [] ∨ ∃ d c, dir = d ++ [c] ∧ isDirSeparator c = true

/-- A name without a directory. -/
def IsBareName (name : CString) : Prop := ∀ c ∈ name, isDirSeparator c = false

section Parts

variable {dir name : CString}

theorem directory_append_lastName (path : CString) : directory path ++ lastName path = path :=
  List.rdropWhile_append_rtakeWhile

theorem isBareName_lastName (path : CString) : IsBareName (lastName path) := fun c hc => by
  simpa using List.mem_rtakeWhile_imp hc

theorem isDirectory_directory (path : CString) : IsDirectory (directory path) := by
  rcases List.eq_nil_or_concat' (directory path) with hnil | ⟨d, c, hd⟩
  · exact .inl hnil
  · refine .inr ⟨d, c, hd, ?_⟩
    have hne : directory path ≠ [] := by simp [hd]
    have hlast := List.rdropWhile_last_not (fun c => !isDirSeparator c) path hne
    have hc : (directory path).getLast hne = c := by simp [hd]
    rw [show (List.rdropWhile _ path).getLast hne = c from hc] at hlast
    simpa using hlast

theorem IsBareName.lastName_append (hname : IsBareName name) (hdir : IsDirectory dir) :
    lastName (dir ++ name) = name := by
  induction name using List.reverseRecOn with
  | nil =>
    rw [List.append_nil]
    obtain rfl | ⟨d, c, rfl, hc⟩ := hdir
    · rfl
    · exact List.rtakeWhile_concat_neg _ _ _ (by simp [hc])
  | append_singleton name c ih =>
    have hc : (!isDirSeparator c) = true := by simpa using hname c (by simp)
    rw [← List.append_assoc, lastName, List.rtakeWhile_concat_pos (fun c => !isDirSeparator c) _ _ hc]
    exact congrArg (· ++ [c]) (ih fun x hx => hname x (List.mem_append_left _ hx))

theorem IsBareName.directory_append (hname : IsBareName name) (hdir : IsDirectory dir) :
    directory (dir ++ name) = dir := by
  have hparts := directory_append_lastName (dir ++ name)
  rw [hname.lastName_append hdir] at hparts
  exact List.append_cancel_right hparts

theorem IsBareName.not_mem (hname : IsBareName name) {c : Char} (hc : isDirSeparator c = true) :
    c ∉ name := fun h => by
  rw [hname c h] at hc
  cases hc

/-- The last separator of a path is the end of its directory. -/
theorem IsDirectory.reverseFind_max (hdir : IsDirectory dir) :
    max (reverseFind dir '\\') (reverseFind dir '/') = dir.length - 1 := by
  obtain rfl | ⟨d, c, rfl, hc⟩ := hdir
  · rfl
  · have hback := reverseFind_lt (d ++ [c]) '\\'
    have hslash := reverseFind_lt (d ++ [c]) '/'
    have hlast : reverseFind (d ++ [c]) c = d.length := reverseFind_last List.not_mem_nil
    have hsep : c = '\\' ∨ c = '/' := by simpa [isDirSeparator] using hc
    rw [List.length_append, List.length_singleton] at hback hslash ⊢
    obtain rfl | rfl := hsep
    · omega
    · omega

theorem captureFilenameExtractBase_eq (hname : IsBareName name) (hdir : IsDirectory dir) :
    captureFilenameExtractBase (dir ++ name) =
      if reverseFind (dir ++ name) '.' > dir.length - 1 then
        (dir ++ name).take (reverseFind (dir ++ name) '.').toNat
      else dir ++ name := by
  have hmax := hdir.reverseFind_max
  have hsep : (if reverseFind dir '/' > reverseFind dir '\\' then reverseFind dir '/'
      else reverseFind dir '\\') = dir.length - 1 := by
    rw [← hmax]
    split <;> omega
  have hback : reverseFind (dir ++ name) '\\' = reverseFind dir '\\' :=
    reverseFind_append_of_not_mem (hname.not_mem (by decide))
  have hslash : reverseFind (dir ++ name) '/' = reverseFind dir '/' :=
    reverseFind_append_of_not_mem (hname.not_mem (by decide))
  simp only [captureFilenameExtractBase, hback, hslash, hsep]

/-- A name without a dot stays, whatever dots the directory has. -/
theorem extractBase_of_no_dot (hname : IsBareName name) (hdir : IsDirectory dir) (h : '.' ∉ name) :
    captureFilenameExtractBase (dir ++ name) = dir ++ name := by
  have hfind : ¬ reverseFind (dir ++ name) '.' > dir.length - 1 := by
    rw [reverseFind_append_of_not_mem h]
    obtain rfl | ⟨d, c, rfl, hc⟩ := hdir
    · decide
    · have hne : '.' ∉ [c] := fun hmem => by
        rw [← List.mem_singleton.mp hmem] at hc
        revert hc
        decide
      have hlt := reverseFind_lt d '.'
      rw [reverseFind_append_of_not_mem hne, List.length_append, List.length_singleton]
      omega
  rw [captureFilenameExtractBase_eq hname hdir, if_neg hfind]

/-- Of any other name the last dot goes, with what follows it. -/
theorem extractBase_of_dot {ext : CString} (hname : IsBareName (name ++ '.' :: ext))
    (hdir : IsDirectory dir) (h : '.' ∉ ext) :
    captureFilenameExtractBase (dir ++ (name ++ '.' :: ext)) = dir ++ name := by
  have hfind : reverseFind (dir ++ (name ++ '.' :: ext)) '.' = (dir ++ name).length := by
    rw [← List.append_assoc]
    exact reverseFind_last h
  rw [captureFilenameExtractBase_eq hname hdir, hfind, if_pos, Int.toNat_natCast, ← List.append_assoc,
    List.take_left]
  rw [List.length_append]
  omega

/-- The last name without its last dot and what follows it. -/
def stem (name : CString) : CString :=
  if '.' ∈ name then (name.rdropWhile (· ≠ '.')).dropLast else name

theorem stem_of_no_dot (h : '.' ∉ name) : stem name = name := if_neg h

theorem stem_of_dot {ext : CString} (h : '.' ∉ ext) : stem (name ++ '.' :: ext) = name := by
  have hext : (name ++ '.' :: ext).rdropWhile (· ≠ '.') = name ++ ['.'] := by
    induction ext using List.reverseRecOn with
    | nil => exact List.rdropWhile_concat_neg _ _ _ (by simp)
    | append_singleton ext c ih =>
      obtain ⟨hrest, hc⟩ := not_or.mp (List.mem_append.not.mp h)
      have hne : c ≠ '.' := fun heq => hc (List.mem_singleton.mpr heq.symm)
      rw [← List.cons_append, ← List.append_assoc,
        List.rdropWhile_concat_pos _ _ _ (by simpa using hne)]
      exact ih hrest
  rw [stem, if_pos (by simp), hext, List.dropLast_concat]

theorem IsBareName.stem (hname : IsBareName name) : IsBareName (stem name) := by
  by_cases h : '.' ∈ name
  · obtain ⟨before, ext, rfl, hext⟩ := exists_last_of_mem h
    rw [stem_of_dot hext]
    exact fun c hc => hname c (List.mem_append_left _ hc)
  · rwa [stem_of_no_dot h]

theorem count_stem (name : CString) : (WinDV.stem name).count '.' = name.count '.' - 1 := by
  by_cases h : '.' ∈ name
  · obtain ⟨before, ext, rfl, hext⟩ := exists_last_of_mem h
    rw [stem_of_dot hext, List.count_append, List.count_cons_self, List.count_eq_zero.mpr hext]
    rfl
  · rw [stem_of_no_dot h, List.count_eq_zero.mpr h]

/-- The code's test of the last dot against the last separator is a test of the
last name alone. -/
theorem extractBase_append (hname : IsBareName name) (hdir : IsDirectory dir) :
    captureFilenameExtractBase (dir ++ name) = dir ++ stem name := by
  by_cases h : '.' ∈ name
  · obtain ⟨before, ext, rfl, hext⟩ := exists_last_of_mem h
    rw [stem_of_dot hext, extractBase_of_dot hname hdir hext]
  · rw [stem_of_no_dot h, extractBase_of_no_dot hname hdir h]

end Parts

section Paths

variable (path : CString)

theorem extractBase_eq :
    captureFilenameExtractBase path = directory path ++ stem (lastName path) := by
  conv_lhs => rw [← directory_append_lastName path]
  exact extractBase_append (isBareName_lastName path) (isDirectory_directory path)

theorem directory_extractBase : directory (captureFilenameExtractBase path) = directory path := by
  rw [extractBase_eq]
  exact (isBareName_lastName path).stem.directory_append (isDirectory_directory path)

theorem lastName_extractBase :
    lastName (captureFilenameExtractBase path) = stem (lastName path) := by
  rw [extractBase_eq]
  exact (isBareName_lastName path).stem.lastName_append (isDirectory_directory path)

theorem extractBase_eq_self_iff : captureFilenameExtractBase path = path ↔ '.' ∉ lastName path := by
  refine ⟨fun h hdot => ?_, fun h => ?_⟩
  · have hcount := congrArg (fun p => (lastName p).count '.') h
    simp only [lastName_extractBase, count_stem] at hcount
    have hpos := List.count_pos_iff.mpr hdot
    omega
  · rw [extractBase_eq, stem_of_no_dot h, directory_append_lastName]

end Paths

/-- A cut base name is stable exactly when the path has at most one dot in its
last name. -/
theorem base_stable_iff (path : CString) : BaseStable path ↔ (lastName path).count '.' ≤ 1 := by
  have hstable : captureFilenameExtractBase (captureFilenameExtractBase path) =
      captureFilenameExtractBase path ↔ (lastName path).count '.' ≤ 1 := by
    rw [extractBase_eq_self_iff, lastName_extractBase, ← List.count_eq_zero, count_stem]
    omega
  refine ⟨fun h => hstable.mp h.idempotent, fun h => ?_⟩
  have hsame := hstable.mpr h
  refine ⟨hsame, hsame, directory_extractBase path, ?_⟩
  rw [hsame, directory_extractBase]

/-- A name with its date, and Browse pressed and cancelled. -/
theorem datedName_cut :
    captureFilenameExtractBase "C:\\tapes\\tape.2024.avi".toList = "C:\\tapes\\tape.2024".toList ∧
    onFdstSel none "C:\\tapes\\tape.2024".toList = "C:\\tapes\\tape".toList ∧
    ¬ BaseStable "C:\\tapes\\tape.2024.avi".toList := by
  have hcut : captureFilenameExtractBase "C:\\tapes\\tape.2024.avi".toList =
      "C:\\tapes\\tape.2024".toList := by decide
  have hcut' : onFdstSel none "C:\\tapes\\tape.2024".toList = "C:\\tapes\\tape".toList := by decide
  refine ⟨hcut, hcut', fun h => ?_⟩
  have hcancelled := h.cancelled
  rw [hcut, hcut'] at hcancelled
  revert hcancelled
  decide

end WinDV
