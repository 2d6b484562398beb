import WinDV.AVIWalk

/-! The batched scan of `idx1` against a plain pass over its entries. A scan
that runs out of file keeps the whole batches before the one it could not
read. -/

namespace WinDV

def entriesFrom (file : List UInt8) (pos n : Nat) : List (List UInt8) :=
  (List.range n).map (entryAt (file.drop pos))

theorem entriesFrom_length (file : List UInt8) (pos n : Nat) :
    (entriesFrom file pos n).length = n := by
  rw [entriesFrom, List.length_map, List.length_range]

theorem entryAt_drop (buf : List UInt8) (m i : Nat) :
    entryAt (buf.drop (16 * m)) i = entryAt buf (m + i) := by
  rw [entryAt, entryAt, List.drop_drop]
  congr 2
  omega

theorem entriesFrom_add (file : List UInt8) (pos m n : Nat) :
    entriesFrom file pos (m + n) =
      entriesFrom file pos m ++ entriesFrom file (pos + m * 16) n := by
  have hdrop : file.drop (pos + m * 16) = (file.drop pos).drop (16 * m) := by
    rw [List.drop_drop, Nat.mul_comm]
  rw [entriesFrom, List.range_add, List.map_append, List.map_map, entriesFrom, entriesFrom, hdrop]
  congr 1
  refine List.map_congr_left fun i _ => ?_
  exact (entryAt_drop _ m i).symm

theorem foldl_batch (buf : List UInt8) (n : Nat) (s : Idx1Scan) :
    (List.range n).foldl (fun s i => scanEntry s (entryAt (buf.take (n * 16)) i)) s =
      ((List.range n).map (entryAt buf)).foldl scanEntry s := by
  rw [List.foldl_map]
  refine List.foldl_ext _ _ _ fun s i hi => ?_
  have hlt := List.mem_range.mp hi
  have he : entryAt (buf.take (n * 16)) i = entryAt buf i := by
    rw [entryAt, entryAt, List.drop_take, List.take_take, Nat.min_eq_left (by omega)]
  rw [he]

def readableEntries (file : List UInt8) (pos total : Nat) : Nat :=
  if pos + 16 * total ≤ file.length then total else 4096 * ((file.length - pos) / 65536)

theorem readableEntries_fits {file : List UInt8} {pos total : Nat}
    (h : pos + 16 * total ≤ file.length) : readableEntries file pos total = total := if_pos h

theorem readableEntries_short {file : List UInt8} {pos total : Nat}
    (h : file.length < pos + 16 * total) :
    readableEntries file pos total = 4096 * ((file.length - pos) / 65536) := if_neg (by omega)

theorem readableEntries_nil (file : List UInt8) (pos : Nat) : readableEntries file pos 0 = 0 := by
  by_cases h : pos ≤ file.length
  · exact readableEntries_fits (by omega)
  · rw [readableEntries_short (by omega)]
    omega

theorem readableEntries_lt {file : List UInt8} {pos total : Nat}
    (h : file.length < pos + 16 * total) (ht : 0 < total) :
    readableEntries file pos total < total := by
  rw [readableEntries_short h]
  omega

theorem readableEntries_batch {file : List UInt8} {pos total batch : Nat}
    (hb : batch = min total 4096) (h : pos + batch * 16 ≤ file.length) :
    readableEntries file pos total =
      batch + readableEntries file (pos + batch * 16) (total - batch) := by
  by_cases hfits : pos + 16 * total ≤ file.length
  · rw [readableEntries_fits hfits, readableEntries_fits (by omega)]
    omega
  · rw [readableEntries_short (by omega), readableEntries_short (by omega)]
    omega

theorem readableEntries_none {file : List UInt8} {pos total batch : Nat}
    (hb : batch = min total 4096) (h : file.length < pos + batch * 16) :
    readableEntries file pos total = 0 := by
  rw [readableEntries_short (by omega)]
  omega

theorem scanIdx1_eq (file : List UInt8) (fuel pos remaining : Nat) (s : Idx1Scan)
    (hfuel : remaining ≤ fuel) :
    scanIdx1 file fuel pos remaining s =
      ((entriesFrom file pos (readableEntries file pos remaining)).foldl scanEntry s,
        remaining - readableEntries file pos remaining) := by
  induction fuel generalizing pos remaining s with
  | zero =>
    obtain rfl : remaining = 0 := by omega
    rw [readableEntries_nil]
    rfl
  | succ fuel ih =>
    rcases Nat.eq_zero_or_pos remaining with rfl | hpos
    · rw [readableEntries_nil]
      rfl
    · obtain ⟨batch, hbatch⟩ : ∃ b, b = if remaining > 4096 then 4096 else remaining := ⟨_, rfl⟩
      have hmin : batch = min remaining 4096 := by
        by_cases h : remaining > 4096
        · rw [hbatch, if_pos h]
          omega
        · rw [hbatch, if_neg h]
          omega
      simp only [scanIdx1, if_pos hpos, ← hbatch]
      by_cases hread : pos + batch * 16 ≤ file.length
      · simp only [readExact_eq_some hread, foldl_batch]
        rw [ih _ _ _ (by omega), readableEntries_batch hmin hread, entriesFrom_add,
          List.foldl_append, Nat.sub_add_eq]
        rfl
      · have hnone : readExact file pos (batch * 16) = none :=
          readExact_eq_none (by omega) (by omega)
        rw [readableEntries_none hmin (by omega)]
        simp only [hnone]
        rfl

def isDefective (entry : List UInt8) : Bool :=
  isVideoEntry entry && !isFrameSize (dwordAt entry 12)

def tellsFormat (entry : List UInt8) : Bool :=
  isVideoEntry entry && isFrameSize (dwordAt entry 12)

theorem foldl_count {α : Type} (p : α → Bool) (l : List α) (n : UInt32) :
    l.foldl (fun n a => if p a then n + 1 else n) n = n + UInt32.ofNat (l.countP p) := by
  induction l generalizing n with
  | nil => simp
  | cons a l ih =>
    rw [List.foldl_cons, ih, List.countP_cons]
    by_cases ha : p a = true
    · rw [if_pos ha, if_pos ha, Nat.add_comm, UInt32.ofNat_add, UInt32.add_assoc]
      rfl
    · rw [if_neg ha, if_neg ha, Nat.add_zero]

theorem scanEntry_of_not_video {e : List UInt8} (s : Idx1Scan) (hv : isVideoEntry e = false) :
    scanEntry s e = s := by
  rw [scanEntry, hv, if_neg Bool.false_ne_true]

theorem scanEntry_of_defective {e : List UInt8} (s : Idx1Scan) (hv : isVideoEntry e = true)
    (hz : isFrameSize (dwordAt e 12) = false) :
    scanEntry s e = { s with videoFrames := s.videoFrames + 1, defect := s.defect + 1 } := by
  simp [scanEntry, hv, hz]

theorem scanEntry_of_tellsFormat {e : List UInt8} (s : Idx1Scan) (hv : isVideoEntry e = true)
    (hz : isFrameSize (dwordAt e 12) = true) :
    scanEntry s e = { s with
      videoFrames := s.videoFrames + 1
      bIsPAL := if s.formatKnown then s.bIsPAL else dwordAt e 12 == 144000
      formatKnown := true } := by
  cases hk : s.formatKnown <;> simp [scanEntry, hv, hz, hk]

theorem scanEntry_cases (s : Idx1Scan) (e : List UInt8) :
    (scanEntry s e).videoFrames = (if isVideoEntry e then s.videoFrames + 1 else s.videoFrames) ∧
    (scanEntry s e).defect = (if isDefective e then s.defect + 1 else s.defect) := by
  cases hv : isVideoEntry e with
  | false => simp [scanEntry_of_not_video s hv, isDefective, hv]
  | true =>
    cases hz : isFrameSize (dwordAt e 12) with
    | false => simp [scanEntry_of_defective s hv hz, isDefective, hv, hz]
    | true => simp [scanEntry_of_tellsFormat s hv hz, isDefective, hv, hz]

theorem foldl_scanEntry_videoFrames (es : List (List UInt8)) (s : Idx1Scan) :
    (es.foldl scanEntry s).videoFrames =
      s.videoFrames + UInt32.ofNat (es.countP isVideoEntry) := by
  rw [← foldl_count, List.foldl_hom Idx1Scan.videoFrames]
  exact fun s e => (scanEntry_cases s e).1.symm

theorem foldl_scanEntry_defect (es : List (List UInt8)) (s : Idx1Scan) :
    (es.foldl scanEntry s).defect = s.defect + UInt32.ofNat (es.countP isDefective) := by
  rw [← foldl_count, List.foldl_hom Idx1Scan.defect]
  exact fun s e => (scanEntry_cases s e).2.symm

/-- The format a list of entries tells, `unknown` when none does. -/
def formatOf (es : List (List UInt8)) (unknown : Bool) : Bool :=
  match es.find? tellsFormat with
  | some e => dwordAt e 12 == 144000
  | none => unknown

theorem foldl_scanEntry_formatKnown (es : List (List UInt8)) {s : Idx1Scan}
    (hk : s.formatKnown = true) : (es.foldl scanEntry s).bIsPAL = s.bIsPAL := by
  induction es generalizing s with
  | nil => rfl
  | cons e es ih =>
    rw [List.foldl_cons]
    cases hv : isVideoEntry e with
    | false => rw [scanEntry_of_not_video s hv, ih hk]
    | true =>
      cases hz : isFrameSize (dwordAt e 12) with
      | false =>
        rw [scanEntry_of_defective s hv hz]
        exact ih hk
      | true =>
        rw [scanEntry_of_tellsFormat s hv hz, ih rfl]
        exact if_pos hk

theorem foldl_scanEntry_bIsPAL (es : List (List UInt8)) {s : Idx1Scan}
    (hk : s.formatKnown = false) :
    (es.foldl scanEntry s).bIsPAL = formatOf es s.bIsPAL := by
  induction es generalizing s with
  | nil => rfl
  | cons e es ih =>
    rw [List.foldl_cons, formatOf, List.find?_cons, tellsFormat]
    cases hv : isVideoEntry e with
    | false =>
      rw [scanEntry_of_not_video s hv]
      exact ih hk
    | true =>
      cases hz : isFrameSize (dwordAt e 12) with
      | false =>
        rw [scanEntry_of_defective s hv hz]
        exact ih hk
      | true =>
        rw [scanEntry_of_tellsFormat s hv hz, foldl_scanEntry_formatKnown es rfl]
        exact if_neg (by rw [hk]; exact Bool.false_ne_true)

def readEntries (file : List UInt8) (c : Nat × RIFFChunk) : List (List UInt8) :=
  entriesFrom file (c.1 + 8) (readableEntries file (c.1 + 8) (c.2.dwSize.toNat / 16))

theorem scanChunk_eq (file : List UInt8) (bIsPAL : Bool) (c : Nat × RIFFChunk) :
    (scanChunk file bIsPAL c).1.bIsPAL = formatOf (readEntries file c) bIsPAL ∧
    (scanChunk file bIsPAL c).1.videoFrames =
      UInt32.ofNat ((readEntries file c).countP isVideoEntry) ∧
    (scanChunk file bIsPAL c).1.defect =
      UInt32.ofNat ((readEntries file c).countP isDefective) := by
  have hscan : (scanChunk file bIsPAL c).1 =
      (readEntries file c).foldl scanEntry { bIsPAL := bIsPAL } := by
    rw [scanChunk, scanIdx1_eq _ _ _ _ _ (Nat.le_refl _)]
    rfl
  rw [hscan, foldl_scanEntry_bIsPAL _ rfl, foldl_scanEntry_videoFrames, foldl_scanEntry_defect]
  exact ⟨rfl, UInt32.zero_add _, UInt32.zero_add _⟩

/-- An entry table is read to its end exactly when the file holds it. -/
theorem scanChunk_remaining (file : List UInt8) (bIsPAL : Bool) (c : Nat × RIFFChunk) :
    (scanChunk file bIsPAL c).2 = 0 ↔
      c.2.dwSize.toNat / 16 = 0 ∨ c.1 + 8 + 16 * (c.2.dwSize.toNat / 16) ≤ file.length := by
  have hscan : (scanChunk file bIsPAL c).2 = c.2.dwSize.toNat / 16 -
      readableEntries file (c.1 + 8) (c.2.dwSize.toNat / 16) := by
    rw [scanChunk, scanIdx1_eq _ _ _ _ _ (Nat.le_refl _)]
  generalize c.2.dwSize.toNat / 16 = total at hscan ⊢
  rw [hscan]
  by_cases hfits : c.1 + 8 + 16 * total ≤ file.length
  · rw [readableEntries_fits hfits]
    omega
  · rcases Nat.eq_zero_or_pos total with rfl | hpos
    · omega
    · have hlt := readableEntries_lt (by omega : file.length < c.1 + 8 + 16 * total) hpos
      omega

end WinDV
