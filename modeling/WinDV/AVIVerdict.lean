import WinDV.AVIIndex

/-! The result of the checker in terms of the chunks it visits. -/

namespace WinDV

def HasSignature (file : List UInt8) : Prop :=
  12 ≤ file.length ∧ file.take 4 = fcc "RIFF" ∧ (file.drop 8).take 4 = fcc "AVI "

def isIdx1 (c : Nat × RIFFChunk) : Bool := c.2.fourcc == fcc "idx1"

def mainHeader (file : List UInt8) : MainHeader := (visitedChunks file).foldl (readHeader file) {}

/-- The entries that count: those of the last `idx1`. -/
def lastEntries (file : List UInt8) : List (List UInt8) :=
  match ((visitedChunks file).filter isIdx1).getLast? with
  | some c => readEntries file c
  | none => []

def indexedPAL (file : List UInt8) : Bool :=
  ((visitedChunks file).filter isIdx1).foldl (fun pal c => formatOf (readEntries file c) pal) false

def headerFrames (file : List UInt8) : Nat :=
  if (mainHeader file).bHasAvih then (dwordAt (mainHeader file).avih 16).toNat else 0

def headerPAL (file : List UInt8) : Bool :=
  (mainHeader file).bHasAvih && dwordAt (mainHeader file).avih 36 ≥ 576

def frames (file : List UInt8) : Nat :=
  if headerFrames file = 0 then (lastEntries file).countP isVideoEntry else headerFrames file

def frameSize (file : List UInt8) : Nat :=
  if indexedPAL file || headerPAL file then 144000 else 120000

section Summary

variable (file : List UInt8)

theorem readEntries_length_lt (c : Nat × RIFFChunk) : (readEntries file c).length < 2 ^ 28 := by
  rw [readEntries, entriesFrom_length]
  have hle : readableEntries file (c.1 + 8) (c.2.dwSize.toNat / 16) ≤ c.2.dwSize.toNat / 16 := by
    by_cases h : c.1 + 8 + 16 * (c.2.dwSize.toNat / 16) ≤ file.length
    · exact (readableEntries_fits h).le
    · rw [readableEntries_short (by omega)]
      omega
  have hlt := c.2.dwSize.toNat_lt
  omega

theorem lastEntries_length_lt : (lastEntries file).length < 2 ^ 28 := by
  unfold lastEntries
  cases ((visitedChunks file).filter isIdx1).getLast? with
  | none => exact Nat.two_pow_pos 28
  | some c => exact readEntries_length_lt file c

theorem toNat_ofNat_countP (p : List UInt8 → Bool) :
    (UInt32.ofNat ((lastEntries file).countP p)).toNat = (lastEntries file).countP p := by
  have hle := List.countP_le_length (p := p) (l := lastEntries file)
  have hlt := lastEntries_length_lt file
  exact Nat.mod_eq_of_lt (by omega)

theorem foldl_summarizeIndex (cs : List (Nat × RIFFChunk)) :
    cs.foldl (summarizeIndex file) {} =
      { bIsPAL := (cs.filter isIdx1).foldl (fun pal c => formatOf (readEntries file c) pal) false
        dwIndexEntries := match (cs.filter isIdx1).getLast? with
          | some c => UInt32.ofNat ((readEntries file c).countP isVideoEntry)
          | none => 0
        dwDefectFrames := match (cs.filter isIdx1).getLast? with
          | some c => UInt32.ofNat ((readEntries file c).countP isDefective)
          | none => 0 } := by
  induction cs using List.reverseRecOn with
  | nil => rfl
  | append_singleton cs c ih =>
    rw [List.foldl_append, List.foldl_cons, List.foldl_nil, ih, summarizeIndex, List.filter_append]
    by_cases hc : c.2.fourcc = fcc "idx1"
    · have hi : [c].filter isIdx1 = [c] := by simp [isIdx1, hc]
      obtain ⟨hpal, hvideo, hdefect⟩ := scanChunk_eq file
        ((cs.filter isIdx1).foldl (fun pal c => formatOf (readEntries file c) pal) false) c
      rw [if_pos hc, hi, List.foldl_append, List.getLast?_append]
      simp only [hpal, hvideo, hdefect]
      rfl
    · have hi : [c].filter isIdx1 = [] := by simp [isIdx1, hc]
      rw [if_neg hc, hi, List.append_nil]

theorem visited_index :
    (visitedChunks file).foldl (summarizeIndex file) {} =
      { bIsPAL := indexedPAL file
        dwIndexEntries := UInt32.ofNat ((lastEntries file).countP isVideoEntry)
        dwDefectFrames := UInt32.ofNat ((lastEntries file).countP isDefective) } := by
  rw [foldl_summarizeIndex, indexedPAL, lastEntries]
  cases ((visitedChunks file).filter isIdx1).getLast? <;> rfl

end Summary

def finalWalk (file : List UInt8) : Walk :=
  (visitedChunks file).foldl (applyChunk file) { r := { dwActualSize := file.length } }

section FinalWalk

variable (file : List UInt8)

theorem finalWalk_bHasHdrl :
    (finalWalk file).bHasHdrl = (visitedChunks file).any (isList file (fcc "hdrl")) := by
  rw [finalWalk, foldl_applyChunk_bHasHdrl, Bool.false_or]

theorem finalWalk_bHasMovi :
    (finalWalk file).bHasMovi = (visitedChunks file).any (isList file (fcc "movi")) := by
  rw [finalWalk, foldl_applyChunk_bHasMovi, Bool.false_or]

theorem finalWalk_bHasIndex :
    (finalWalk file).r.bHasIndex = (visitedChunks file).any (carriesIndex file) := by
  rw [finalWalk, foldl_applyChunk_bHasIndex, Bool.false_or]

theorem finalWalk_header : (finalWalk file).header = mainHeader file := by
  rw [finalWalk, foldl_applyChunk_header]
  rfl

theorem finalWalk_index :
    (finalWalk file).r.index =
      { bIsPAL := indexedPAL file
        dwIndexEntries := UInt32.ofNat ((lastEntries file).countP isVideoEntry)
        dwDefectFrames := UInt32.ofNat ((lastEntries file).countP isDefective) } := by
  rw [finalWalk, foldl_applyChunk_index, ← visited_index]
  rfl

theorem finalWalk_dwFrameCount : (finalWalk file).r.dwFrameCount = 0 := by
  rw [finalWalk, foldl_applyChunk_dwFrameCount]

theorem finalWalk_dwActualSize : (finalWalk file).r.dwActualSize = file.length := by
  rw [finalWalk, foldl_applyChunk_dwActualSize]

end FinalWalk

section FinishCheck

variable (r : AVICheckResult) (h : MainHeader)

theorem determineFrameCount_dwFrameCount (hr : r.dwFrameCount = 0) :
    (determineFrameCount r h).dwFrameCount =
      if h.bHasAvih ∧ dwordAt h.avih 16 ≠ 0 then dwordAt h.avih 16 else r.dwIndexEntries := by
  have hpos (n : UInt32) : n > 0 ↔ n ≠ 0 := UInt32.pos_iff_ne_zero
  unfold determineFrameCount
  cases h.bHasAvih with
  | false =>
    by_cases hi : r.dwIndexEntries = 0
    · simp [hr, hi]
    · simp [hr, hpos, hi]
  | true =>
    by_cases hf : dwordAt h.avih 16 = 0
    · by_cases hi : r.dwIndexEntries = 0
      · simp [hf, hi]
      · simp [hf, hpos, hi]
    · simp [hf]

theorem determineFrameCount_bIsPAL :
    (determineFrameCount r h).bIsPAL = (r.bIsPAL || h.bHasAvih && dwordAt h.avih 36 ≥ 576) := by
  have hheight : dwordAt h.avih 36 ≥ 576 → dwordAt h.avih 36 > 0 :=
    UInt32.lt_of_lt_of_le (by decide)
  unfold determineFrameCount
  cases h.bHasAvih with
  | false => cases hpal : r.bIsPAL <;> simp [hpal, apply_ite AVICheckResult.bIsPAL]
  | true =>
    by_cases hh : dwordAt h.avih 36 > 0
    · cases hpal : r.bIsPAL <;> simp [hh, apply_ite AVICheckResult.bIsPAL]
    · have hlow : ¬ dwordAt h.avih 36 ≥ 576 := fun hge => hh (hheight hge)
      cases hpal : r.bIsPAL <;> simp [hh, hlow, apply_ite AVICheckResult.bIsPAL]

theorem determineFrameCount_frame :
    (determineFrameCount r h).bHasIndex = r.bHasIndex ∧
    (determineFrameCount r h).dwIndexEntries = r.dwIndexEntries ∧
    (determineFrameCount r h).dwDefectFrames = r.dwDefectFrames ∧
    (determineFrameCount r h).dwActualSize = r.dwActualSize := by
  unfold determineFrameCount
  cases h.bHasAvih with
  | false => by_cases hi : r.dwFrameCount = 0 ∧ r.dwIndexEntries > 0 <;> simp [hi]
  | true => by_cases hi : dwordAt h.avih 16 = 0 ∧ r.dwIndexEntries > 0 <;> simp [hi]

theorem computeExpectedSize_frame :
    (computeExpectedSize r).bHasIndex = r.bHasIndex ∧
    (computeExpectedSize r).dwIndexEntries = r.dwIndexEntries ∧
    (computeExpectedSize r).dwDefectFrames = r.dwDefectFrames ∧
    (computeExpectedSize r).dwActualSize = r.dwActualSize ∧
    (computeExpectedSize r).dwFrameCount = r.dwFrameCount ∧
    (computeExpectedSize r).bIsPAL = r.bIsPAL := by
  unfold computeExpectedSize
  by_cases h : r.dwFrameCount > 0
  · simp [h]
  · simp [h]

end FinishCheck

theorem checkAVIIntegrity_of_signature {file : List UInt8} (h : HasSignature file) :
    checkAVIIntegrity (.readable file) = finishCheck (finalWalk file) := by
  obtain ⟨hlen, hriff, havi⟩ := h
  have hread : readExact file 0 12 = some (file.take 12) := readExact_eq_some (by omega)
  have hfirst : (file.take 12).take 4 = fcc "RIFF" := by
    rw [List.take_take]
    exact hriff
  have hlast : (file.take 12).drop 8 = fcc "AVI " := by
    rw [List.drop_take]
    exact havi
  have hend : (if 8 + (dwordAt (file.take 12) 4).toNat > file.length then file.length
      else 8 + (dwordAt (file.take 12) 4).toNat) ≤ file.length := by
    by_cases hgt : 8 + (dwordAt (file.take 12) 4).toNat > file.length
    · rw [if_pos hgt]
    · rw [if_neg hgt]
      omega
  have hempty : ¬ file.length = 0 := by omega
  have hshort : ¬ file.length < 12 := by omega
  simp only [checkAVIIntegrity, if_neg hempty, if_neg hshort, hread, hfirst, hlast]
  rw [if_neg (by simp), walkTop_eq_foldl hend]
  rfl

theorem checkAVIIntegrity_of_no_signature {file : List UInt8} (h : ¬ HasSignature file) :
    (checkAVIIntegrity (.readable file)).bValid = false := by
  unfold checkAVIIntegrity
  by_cases hempty : file.length = 0
  · simp only [if_pos hempty]
  · by_cases hshort : file.length < 12
    · simp only [if_neg hempty, if_pos hshort]
    · have hread : readExact file 0 12 = some (file.take 12) := readExact_eq_some (by omega)
      have hsig : (file.take 12).take 4 ≠ fcc "RIFF" ∨ (file.take 12).drop 8 ≠ fcc "AVI " := by
        by_contra hboth
        obtain ⟨hfirst, hlast⟩ := not_or.mp hboth
        rw [not_not, List.take_take] at hfirst
        rw [not_not, List.drop_take] at hlast
        exact h ⟨by omega, hfirst, hlast⟩
      simp only [if_neg hempty, if_neg hshort, hread, if_pos hsig]

section Result

variable {file : List UInt8} (h : HasSignature file)

theorem finishCheck_fields (w : Walk) :
    (finishCheck w).bHasIndex = w.r.bHasIndex ∧
    (finishCheck w).dwIndexEntries = w.r.dwIndexEntries ∧
    (finishCheck w).dwDefectFrames = w.r.dwDefectFrames ∧
    (finishCheck w).dwActualSize = w.r.dwActualSize ∧
    (finishCheck w).dwFrameCount = (determineFrameCount w.r w.header).dwFrameCount ∧
    (finishCheck w).bIsPAL = (determineFrameCount w.r w.header).bIsPAL ∧
    (finishCheck w).bValid = (w.bHasHdrl && w.bHasMovi && (finishCheck w).dwFrameCount > 0) := by
  obtain ⟨hi, he, hd, hs⟩ := determineFrameCount_frame w.r w.header
  obtain ⟨hi', he', hd', hs', hf', hp'⟩ :=
    computeExpectedSize_frame (determineFrameCount w.r w.header)
  exact ⟨hi'.trans hi, he'.trans he, hd'.trans hd, hs'.trans hs, hf', hp', rfl⟩

include h

theorem check_bHasIndex :
    (checkAVIIntegrity (.readable file)).bHasIndex =
      (visitedChunks file).any (carriesIndex file) := by
  rw [checkAVIIntegrity_of_signature h, (finishCheck_fields _).1, finalWalk_bHasIndex]

theorem check_dwIndexEntries :
    (checkAVIIntegrity (.readable file)).dwIndexEntries.toNat =
      (lastEntries file).countP isVideoEntry := by
  have hindex := congrArg IndexSummary.dwIndexEntries (finalWalk_index file)
  rw [checkAVIIntegrity_of_signature h, (finishCheck_fields _).2.1]
  exact (congrArg UInt32.toNat hindex).trans (toNat_ofNat_countP file _)

theorem check_dwDefectFrames :
    (checkAVIIntegrity (.readable file)).dwDefectFrames.toNat =
      (lastEntries file).countP isDefective := by
  have hindex := congrArg IndexSummary.dwDefectFrames (finalWalk_index file)
  rw [checkAVIIntegrity_of_signature h, (finishCheck_fields _).2.2.1]
  exact (congrArg UInt32.toNat hindex).trans (toNat_ofNat_countP file _)

theorem check_dwActualSize :
    (checkAVIIntegrity (.readable file)).dwActualSize = file.length := by
  rw [checkAVIIntegrity_of_signature h, (finishCheck_fields _).2.2.2.1, finalWalk_dwActualSize]

theorem check_dwFrameCount :
    (checkAVIIntegrity (.readable file)).dwFrameCount.toNat = frames file := by
  have hindex : (finalWalk file).r.dwIndexEntries.toNat =
      (lastEntries file).countP isVideoEntry :=
    (congrArg (fun x => x.dwIndexEntries.toNat) (finalWalk_index file)).trans
      (toNat_ofNat_countP file _)
  rw [checkAVIIntegrity_of_signature h, (finishCheck_fields _).2.2.2.2.1,
    determineFrameCount_dwFrameCount _ _ (finalWalk_dwFrameCount file), finalWalk_header, frames,
    headerFrames, ← hindex]
  cases (mainHeader file).bHasAvih with
  | false => rfl
  | true =>
    by_cases hz : dwordAt (mainHeader file).avih 16 = 0
    · simp [hz]
    · have hne : (dwordAt (mainHeader file).avih 16).toNat ≠ 0 := fun hn =>
        hz (UInt32.toNat_inj.mp hn)
      simp [hz, hne]

theorem check_bIsPAL :
    (checkAVIIntegrity (.readable file)).bIsPAL = (indexedPAL file || headerPAL file) := by
  have hindex : (finalWalk file).r.bIsPAL = indexedPAL file :=
    congrArg IndexSummary.bIsPAL (finalWalk_index file)
  rw [checkAVIIntegrity_of_signature h, (finishCheck_fields _).2.2.2.2.2.1,
    determineFrameCount_bIsPAL, finalWalk_header, hindex, headerPAL]

theorem check_bValid :
    (checkAVIIntegrity (.readable file)).bValid =
      ((visitedChunks file).any (isList file (fcc "hdrl")) &&
        (visitedChunks file).any (isList file (fcc "movi")) && 0 < frames file) := by
  have hcount := check_dwFrameCount h
  rw [checkAVIIntegrity_of_signature h] at hcount ⊢
  rw [(finishCheck_fields _).2.2.2.2.2.2, finalWalk_bHasHdrl, finalWalk_bHasMovi, ← hcount]
  rfl

end Result

end WinDV
