import Mathlib.Data.List.DropRight

/-! Files that C opens in text mode: a line ends in carriage return and line
feed on disk and in a line feed in memory, and a character 26 ends the file. -/

namespace TextFile

/-- What is on disk after `s` was written. -/
def written (s : List Char) : List Char :=
  s.flatMap fun c => if c = '\n' then ['\r', '\n'] else [c]

def readBack : List Char → List Char
  | [] => []
  | '\r' :: '\n' :: s => '\n' :: readBack s
  | c :: s => if c = '\x1a' then [] else c :: readBack s

/-- The lines that `fgets` delivers into a buffer of `size` characters, when
`line` was read of the first. -/
def fgetsLines (size : Nat) (line : List Char) : List Char → List (List Char)
  | [] => if line = [] then [] else [line]
  | c :: s =>
    if c = '\n' ∨ line.length + 2 = size then (line ++ [c]) :: fgetsLines size [] s
    else fgetsLines size (line ++ [c]) s

def isLineEnd (c : Char) : Bool := c == '\n' || c == '\r'

variable {s line : List Char} {size : Nat} {c : Char}

theorem mem_written (h : c ∈ written s) : c = '\r' ∨ c ∈ s := by
  obtain ⟨d, hd, hc⟩ := List.mem_flatMap.mp h
  by_cases hline : d = '\n'
  · rw [if_pos hline] at hc
    rcases List.mem_pair.mp hc with rfl | rfl
    · exact .inl rfl
    · exact .inr (hline ▸ hd)
  · rw [if_neg hline, List.mem_singleton] at hc
    exact .inr (hc ▸ hd)

theorem readBack_cons (hr : c ≠ '\r') (hend : c ≠ '\x1a') :
    readBack (c :: s) = c :: readBack s := by
  rw [readBack, if_neg hend]
  intro t h
  exact absurd h hr

theorem written_append (s t : List Char) : written (s ++ t) = written s ++ written t :=
  List.flatMap_append

theorem readBack_cr (h : s.head? ≠ some '\n') : readBack ('\r' :: s) = '\r' :: readBack s := by
  cases s with
  | nil => rfl
  | cons c s =>
    have hc : c ≠ '\n' := fun hc => h (congrArg some hc)
    simp [readBack, hc]

theorem head_written (s : List Char) : (written s).head? ≠ some '\n' := by
  cases s with
  | nil => exact nofun
  | cons c s =>
    by_cases hc : c = '\n'
    · simp [written, hc]
    · simp [written, hc]

theorem readBack_written_eq (s : List Char) :
    readBack (written s) = s.takeWhile (· ≠ '\x1a') := by
  induction s with
  | nil => rfl
  | cons c s ih =>
    have hcons (hc : c ≠ '\n') : written (c :: s) = c :: written s := by simp [written, hc]
    by_cases hline : c = '\n'
    · subst hline
      simpa [written, readBack] using ih
    · rw [hcons hline]
      by_cases hr : c = '\r'
      · subst hr
        rw [readBack_cr (head_written s), ih]
        rfl
      · by_cases hend : c = '\x1a'
        · subst hend
          rfl
        · rw [readBack_cons hr hend, ih, List.takeWhile_cons_of_pos (by simpa using hend)]

theorem readBack_written (h : ∀ c ∈ s, c ≠ '\x1a') : readBack (written s) = s := by
  rw [readBack_written_eq, List.takeWhile_eq_self_iff]
  exact fun c hc => decide_eq_true (h c hc)

theorem fgetsLines_line (hs : '\n' ∉ s) (hsize : line.length + s.length + 2 ≤ size) :
    fgetsLines size line (s ++ ['\n']) = [line ++ s ++ ['\n']] := by
  induction s generalizing line with
  | nil => simp [fgetsLines]
  | cons c s ih =>
    simp only [List.mem_cons, not_or, List.length_cons] at hs hsize
    have hmore : ¬ (c = '\n' ∨ line.length + 2 = size) := by
      have := Ne.symm hs.1
      simp only [not_or]
      exact ⟨this, by omega⟩
    rw [List.cons_append, fgetsLines, if_neg hmore, ih hs.2 (by simp; omega)]
    simp

theorem trim_line (h : ∀ c ∈ s, isLineEnd c = false) :
    (s ++ ['\n']).rdropWhile isLineEnd = s := by
  rw [List.rdropWhile_concat_pos _ _ _ rfl]
  rcases s.eq_nil_or_concat with rfl | ⟨t, c, rfl⟩
  · rfl
  · rw [List.concat_eq_append]
    exact List.rdropWhile_concat_neg _ _ _ (by simp [h c (by simp)])

end TextFile
