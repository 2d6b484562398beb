import WinDV.AVICheck
import Mathlib.Tactic.Ring
import Mathlib.Data.List.Count

/-! The loops of the checker as folds: the top-level walk folds one total step
over the chunks it visits, and the batched scan of `idx1` folds one step over
the entries it reads. -/

namespace WinDV

theorem readExact_eq_some {file : List UInt8} {pos n : Nat} (h : pos + n ≤ file.length) :
    readExact file pos n = some ((file.drop pos).take n) := by
  have hlen : ((file.drop pos).take n).length = n := by
    rw [List.length_take, List.length_drop]
    omega
  rw [readExact, if_pos hlen]

theorem readExact_eq_none {file : List UInt8} {pos n : Nat} (hn : 0 < n)
    (h : file.length < pos + n) : readExact file pos n = none := by
  have hlen : ((file.drop pos).take n).length ≠ n := by
    rw [List.length_take, List.length_drop]
    omega
  rw [readExact, if_neg hlen]

theorem le_length_of_readExact {file : List UInt8} {pos n : Nat} {buf : List UInt8} (hn : 0 < n)
    (h : readExact file pos n = some buf) : pos + n ≤ file.length := by
  by_contra hlt
  rw [readExact_eq_none hn (by omega)] at h
  exact absurd h (by simp)

theorem le_length_of_readChunk {file : List UInt8} {pos : Nat} {ck : RIFFChunk}
    (h : readChunk file pos = some ck) : pos + 8 ≤ file.length := by
  obtain ⟨buf, hbuf, -⟩ := Option.map_eq_some_iff.mp h
  exact le_length_of_readExact (by omega) hbuf

theorem readChunk_isSome {file : List UInt8} {pos : Nat} (h : pos + 8 ≤ file.length) :
    ∃ ck, readChunk file pos = some ck :=
  ⟨_, by rw [readChunk, readExact_eq_some h, Option.map_some]⟩

theorem foldl_or {α : Type} (p : α → Bool) (l : List α) (b : Bool) :
    l.foldl (fun b a => b || p a) b = (b || l.any p) := by
  induction l generalizing b with
  | nil => simp
  | cons a l ih => rw [List.foldl_cons, ih, List.any_cons, Bool.or_assoc]

/-- The chunks the walk visits, with their positions. -/
def chunksFrom (file : List UInt8) (riffEnd : Nat) : Nat → Nat → List (Nat × RIFFChunk)
  | 0, _ => []
  | fuel + 1, pos =>
    if pos + 8 ≤ riffEnd then
      match readChunk file pos with
      | none => []
      | some ck => (pos, ck) :: chunksFrom file riffEnd fuel (pos + 8 + (padEven ck.dwSize).toNat)
    else []

theorem chunksFrom_of_lt {file : List UInt8} {riffEnd pos : Nat} (fuel : Nat)
    (h : riffEnd < pos + 8) : chunksFrom file riffEnd fuel pos = [] := by
  cases fuel with
  | zero => rfl
  | succ fuel => rw [chunksFrom, if_neg (by omega)]

def applyChunk (file : List UInt8) (w : Walk) (c : Nat × RIFFChunk) : Walk :=
  (walkChunk file c.1 c.2 w).getD w

theorem lt_of_walkChunk_none {file : List UInt8} {pos : Nat} {ck : RIFFChunk} {w : Walk}
    (h : walkChunk file pos ck w = none) : file.length < pos + 12 := by
  by_contra hle
  have hread : readExact file (pos + 8) 4 = some _ := readExact_eq_some (by omega)
  simp only [walkChunk, hread] at h
  repeat' split at h
  all_goals exact absurd h (by simp)

theorem walkTop_eq_foldl {file : List UInt8} {riffEnd : Nat} (hend : riffEnd ≤ file.length)
    (fuel pos : Nat) (w : Walk) :
    (walkTop file riffEnd fuel pos w).2 =
      (chunksFrom file riffEnd fuel pos).foldl (applyChunk file) w := by
  induction fuel generalizing pos w with
  | zero => rfl
  | succ fuel ih =>
    by_cases hpos : pos + 8 ≤ riffEnd
    · obtain ⟨ck, hck⟩ := readChunk_isSome (hpos.trans hend)
      have hforward : ¬ pos + 8 + (padEven ck.dwSize).toNat ≤ pos := by omega
      simp only [walkTop, chunksFrom, if_pos hpos, hck, if_neg hforward, List.foldl_cons]
      cases hw : walkChunk file pos ck w with
      | none =>
        have hlt := lt_of_walkChunk_none hw
        rw [chunksFrom_of_lt fuel (by omega), List.foldl_nil, applyChunk, hw, Option.getD_none]
      | some w' => rw [ih, applyChunk, hw, Option.getD_some]
    · rw [walkTop, chunksFrom, if_neg hpos, if_neg hpos, List.foldl_nil]

def isList (file : List UInt8) (listType : List UInt8) (c : Nat × RIFFChunk) : Bool :=
  c.2.fourcc == fcc "LIST" && readExact file (c.1 + 8) 4 == some listType

def carriesIndex (file : List UInt8) (c : Nat × RIFFChunk) : Bool :=
  c.2.fourcc == fcc "idx1" || c.2.fourcc == fcc "indx" || isList file (fcc "hdrl") c &&
    containsOpenDMLIndex file 4 (c.1 + 12) (c.1 + 8 + c.2.dwSize.toNat)

def scanChunk (file : List UInt8) (bIsPAL : Bool) (c : Nat × RIFFChunk) : Idx1Scan × Nat :=
  let totalEntries := c.2.dwSize.toNat / 16
  scanIdx1 file totalEntries (c.1 + 8) totalEntries { bIsPAL := bIsPAL }

structure IndexSummary where
  bIsPAL : Bool := false
  dwIndexEntries : UInt32 := 0
  dwDefectFrames : UInt32 := 0
  deriving DecidableEq, Repr

def AVICheckResult.index (r : AVICheckResult) : IndexSummary :=
  ⟨r.bIsPAL, r.dwIndexEntries, r.dwDefectFrames⟩

def summarizeIndex (file : List UInt8) (x : IndexSummary) (c : Nat × RIFFChunk) : IndexSummary :=
  if c.2.fourcc = fcc "idx1" then
    let scan := (scanChunk file x.bIsPAL c).1
    ⟨scan.bIsPAL, scan.videoFrames, scan.defect⟩
  else x

def readHeader (file : List UInt8) (h : MainHeader) (c : Nat × RIFFChunk) : MainHeader :=
  if isList file (fcc "hdrl") c then readAvih file c.1 h else h

section ApplyChunk

variable (file : List UInt8) (w : Walk) (c : Nat × RIFFChunk)

theorem applyChunk_eq :
    applyChunk file w c =
      { r := { w.r with
          bHasIndex := w.r.bHasIndex || carriesIndex file c
          bIsPAL := (summarizeIndex file w.r.index c).bIsPAL
          dwIndexEntries := (summarizeIndex file w.r.index c).dwIndexEntries
          dwDefectFrames := (summarizeIndex file w.r.index c).dwDefectFrames }
        bHasHdrl := w.bHasHdrl || isList file (fcc "hdrl") c
        bHasMovi := w.bHasMovi || isList file (fcc "movi") c
        header := readHeader file w.header c } := by
  have hidx1 : fcc "LIST" ≠ fcc "idx1" := by decide
  have hindx : fcc "LIST" ≠ fcc "indx" := by decide
  have hmovi : fcc "hdrl" ≠ fcc "movi" := by decide
  have hidx : fcc "idx1" ≠ fcc "indx" := by decide
  unfold applyChunk walkChunk carriesIndex summarizeIndex scanChunk readHeader isList
  by_cases hlist : c.2.fourcc = fcc "LIST"
  · rw [if_pos hlist, hlist]
    cases hread : readExact file (c.1 + 8) 4 with
    | none => simp [hidx1, beq_false_of_ne hidx1, beq_false_of_ne hindx, AVICheckResult.index]
    | some listType =>
      by_cases hhdrl : listType = fcc "hdrl"
      · subst hhdrl
        by_cases hnest : containsOpenDMLIndex file 4 (c.1 + 12) (c.1 + 8 + c.2.dwSize.toNat) = true
        · simp [hidx1, beq_false_of_ne hmovi, hnest, AVICheckResult.index]
        · simp [hidx1, beq_false_of_ne hidx1, beq_false_of_ne hindx, beq_false_of_ne hmovi, hnest,
            AVICheckResult.index]
      · by_cases hmovi' : listType = fcc "movi"
        · simp [hidx1, beq_false_of_ne hidx1, beq_false_of_ne hindx, hmovi', hmovi.symm,
            beq_false_of_ne hmovi.symm, AVICheckResult.index]
        · simp [hidx1, beq_false_of_ne hidx1, beq_false_of_ne hindx, hhdrl, hmovi',
            beq_false_of_ne hhdrl, beq_false_of_ne hmovi', AVICheckResult.index]
  · rw [if_neg hlist]
    by_cases hi : c.2.fourcc = fcc "idx1"
    · simp [hi, beq_false_of_ne hidx1.symm, AVICheckResult.index]
    · by_cases hx : c.2.fourcc = fcc "indx"
      · simp [hx, beq_false_of_ne hindx.symm, hidx.symm, AVICheckResult.index]
      · simp [hi, hx, beq_false_of_ne hlist, beq_false_of_ne hi, beq_false_of_ne hx,
          AVICheckResult.index]

end ApplyChunk

def visitedChunks (file : List UInt8) : List (Nat × RIFFChunk) :=
  let riffEnd := 8 + (dwordAt (file.take 12) 4).toNat
  chunksFrom file (if riffEnd > file.length then file.length else riffEnd) file.length 12

section Fold

variable (file : List UInt8) (cs : List (Nat × RIFFChunk)) (w : Walk)

theorem foldl_applyChunk_bHasHdrl :
    (cs.foldl (applyChunk file) w).bHasHdrl = (w.bHasHdrl || cs.any (isList file (fcc "hdrl"))) := by
  rw [← foldl_or, List.foldl_hom Walk.bHasHdrl]
  intro w c
  rw [applyChunk_eq]

theorem foldl_applyChunk_bHasMovi :
    (cs.foldl (applyChunk file) w).bHasMovi = (w.bHasMovi || cs.any (isList file (fcc "movi"))) := by
  rw [← foldl_or, List.foldl_hom Walk.bHasMovi]
  intro w c
  rw [applyChunk_eq]

theorem foldl_applyChunk_bHasIndex :
    (cs.foldl (applyChunk file) w).r.bHasIndex = (w.r.bHasIndex || cs.any (carriesIndex file)) := by
  rw [← foldl_or, List.foldl_hom fun w : Walk => w.r.bHasIndex]
  intro w c
  rw [applyChunk_eq]

theorem foldl_applyChunk_index :
    (cs.foldl (applyChunk file) w).r.index = cs.foldl (summarizeIndex file) w.r.index := by
  rw [List.foldl_hom fun w : Walk => w.r.index]
  intro w c
  rw [applyChunk_eq]
  rfl

theorem foldl_applyChunk_header :
    (cs.foldl (applyChunk file) w).header = cs.foldl (readHeader file) w.header := by
  rw [List.foldl_hom Walk.header]
  intro w c
  rw [applyChunk_eq]

theorem foldl_applyChunk_dwFrameCount :
    (cs.foldl (applyChunk file) w).r.dwFrameCount = w.r.dwFrameCount := by
  induction cs generalizing w with
  | nil => rfl
  | cons c cs ih => rw [List.foldl_cons, ih, applyChunk_eq]

theorem foldl_applyChunk_dwActualSize :
    (cs.foldl (applyChunk file) w).r.dwActualSize = w.r.dwActualSize := by
  induction cs generalizing w with
  | nil => rfl
  | cons c cs ih => rw [List.foldl_cons, ih, applyChunk_eq]

end Fold

end WinDV
