import WinDV.RunningTotals
import Mathlib.Data.Finset.Prod
import Mathlib.Data.List.GetD
import Mathlib.Data.List.ProdSigma
import Mathlib.Order.Interval.Finset.Nat

/-! `AnalyzeDVFrame`: the blocks of a DV frame that carry an error flag. The scan
goes by the section type that it finds in a block, not by the place of the block. -/

namespace WinDV

structure FrameErrorInfo where
  dwVideoErrorBlocks : UInt32
  dwAudioErrorBlocks : UInt32
  dwVideoErrorsEven : UInt32
  dwVideoErrorsOdd : UInt32
  dwVideoSTA_F : UInt32
  deriving DecidableEq, Repr

def FrameErrorInfo.zero : FrameErrorInfo := ⟨0, 0, 0, 0, 0⟩

/-- Byte `k` of block `b` of DIF sequence `i`. -/
def blockByte (data : List UInt8) (i b k : Nat) : UInt8 := data.getD (i * (150 * 80) + b * 80 + k) 0

def blockSCT (data : List UInt8) (i b : Nat) : UInt8 := (blockByte data i b 0 >>> 5) &&& 0x7

def blockSTA (data : List UInt8) (i b : Nat) : UInt8 := (blockByte data i b 3 >>> 4) &&& 0xf

/-- One round of the loop over the blocks of a sequence. -/
def analyzeBlock (data : List UInt8) (i : Nat) (info : FrameErrorInfo) (b : Nat) : FrameErrorInfo :=
  if blockSCT data i b = 4 then
    let sta := blockSTA data i b
    if sta ≠ 0 then
      let info := { info with dwVideoErrorBlocks := info.dwVideoErrorBlocks + 1 }
      let info :=
        if i % 2 = 0 then { info with dwVideoErrorsEven := info.dwVideoErrorsEven + 1 }
        else { info with dwVideoErrorsOdd := info.dwVideoErrorsOdd + 1 }
      if sta = 0xf then { info with dwVideoSTA_F := info.dwVideoSTA_F + 1 } else info
    else info
  else if blockSCT data i b = 3 then
    if blockByte data i b 3 = 0xff then { info with dwAudioErrorBlocks := info.dwAudioErrorBlocks + 1 }
    else info
  else info

/-- The number of DIF sequences of a frame. -/
def sequences (data : List UInt8) : Nat := if data.length = 144000 then 12 else 10

def analyzeDVFrame (data : List UInt8) : FrameErrorInfo :=
  if data.length ≠ 120000 ∧ data.length ≠ 144000 then .zero
  else (List.range (sequences data)).foldl
    (fun info i => (List.range' 6 144).foldl (analyzeBlock data i) info) .zero

/-- A block by its sequence and its index there. -/
abbrev BlockPlace := Nat × Nat

def AudioFlagged (data : List UInt8) (p : BlockPlace) : Prop :=
  blockSCT data p.1 p.2 = 3 ∧ blockByte data p.1 p.2 3 = 0xff

def VideoFlagged (data : List UInt8) (p : BlockPlace) : Prop :=
  blockSCT data p.1 p.2 = 4 ∧ blockSTA data p.1 p.2 ≠ 0

instance (data : List UInt8) : DecidablePred (AudioFlagged data) :=
  fun _ => inferInstanceAs (Decidable (_ ∧ _))

instance (data : List UInt8) : DecidablePred (VideoFlagged data) :=
  fun _ => inferInstanceAs (Decidable (_ ∧ _))

def audioIndices : Finset Nat := {6, 22, 38, 54, 70, 86, 102, 118, 134}

/-- The places of the standard layout in a frame of `n` sequences. -/
def audioPlaces (n : Nat) : Finset BlockPlace := Finset.range n ×ˢ audioIndices

def videoPlaces (n : Nat) : Finset BlockPlace :=
  Finset.range n ×ˢ (Finset.Icc 7 149 \ audioIndices)

/-- The counts are those of the flagged blocks at their standard places. -/
structure CountsPlaces (data : List UInt8) (info : FrameErrorInfo) : Prop where
  audio : data.length = 120000 ∨ data.length = 144000 →
    info.dwAudioErrorBlocks.toNat = ((audioPlaces (sequences data)).filter (AudioFlagged data)).card
  video : data.length = 120000 ∨ data.length = 144000 →
    info.dwVideoErrorBlocks.toNat = ((videoPlaces (sequences data)).filter (VideoFlagged data)).card
  audioMax : info.dwAudioErrorBlocks.toNat ≤ 9 * sequences data
  videoMax : info.dwVideoErrorBlocks.toNat ≤ 135 * sequences data
  parity : info.dwVideoErrorsEven.toNat + info.dwVideoErrorsOdd.toNat = info.dwVideoErrorBlocks.toNat
  uncompensated : info.dwVideoSTA_F.toNat ≤ info.dwVideoErrorBlocks.toNat
  otherLength : data.length ≠ 120000 → data.length ≠ 144000 → info = .zero

/-- A flagged block whose section type is not that of its place. -/
def Misplaced (data : List UInt8) : Prop :=
  (∃ p ∈ audioPlaces (sequences data), VideoFlagged data p) ∨
    ∃ p ∈ videoPlaces (sequences data), AudioFlagged data p

/-- What the scan goes through, in its order. -/
def scannedPlaces (n : Nat) : List BlockPlace := List.range n ×ˢ List.range' 6 144

theorem scannedPlaces_nodup (n : Nat) : (scannedPlaces n).Nodup :=
  List.nodup_range.product List.nodup_range'

theorem mem_scannedPlaces {n : Nat} {p : BlockPlace} :
    p ∈ scannedPlaces n ↔ p.1 < n ∧ 6 ≤ p.2 ∧ p.2 < 150 := by
  rw [scannedPlaces, List.mem_product, List.mem_range, List.mem_range'_1]

theorem scannedPlaces_length (n : Nat) : (scannedPlaces n).length = n * 144 := by
  rw [scannedPlaces, List.length_product, List.length_range, List.length_range']

section Counts

variable {data : List UInt8} {i b : Nat}

theorem analyzeBlock_of_video (info : FrameErrorInfo) (h : VideoFlagged data (i, b)) :
    analyzeBlock data i info b = { info with
      dwVideoErrorBlocks := info.dwVideoErrorBlocks + 1
      dwVideoErrorsEven := info.dwVideoErrorsEven + if i % 2 = 0 then 1 else 0
      dwVideoErrorsOdd := info.dwVideoErrorsOdd + if i % 2 = 0 then 0 else 1
      dwVideoSTA_F := info.dwVideoSTA_F + if blockSTA data i b = 0xf then 1 else 0 } := by
  obtain ⟨hsct, hsta⟩ := h
  simp only [analyzeBlock, if_pos hsct, if_pos hsta]
  by_cases heven : i % 2 = 0
  · by_cases hf : blockSTA data i b = 0xf
    · simp [heven, hf]
    · simp [heven, hf]
  · by_cases hf : blockSTA data i b = 0xf
    · simp [heven, hf]
    · simp [heven, hf]

theorem analyzeBlock_of_not_video (info : FrameErrorInfo) (h : ¬ VideoFlagged data (i, b)) :
    analyzeBlock data i info b = { info with
      dwAudioErrorBlocks := info.dwAudioErrorBlocks + if AudioFlagged data (i, b) then 1 else 0 } := by
  by_cases hvideo : blockSCT data i b = 4
  · have hsta : ¬ blockSTA data i b ≠ 0 := fun hne => h ⟨hvideo, hne⟩
    have haudio : ¬ AudioFlagged data (i, b) := fun ha => absurd (hvideo.symm.trans ha.1) (by decide)
    simp only [analyzeBlock, if_pos hvideo, if_neg hsta, if_neg haudio, add_zero]
  · rw [analyzeBlock, if_neg hvideo]
    by_cases haudio : AudioFlagged data (i, b)
    · rw [if_pos haudio.1, if_pos haudio.2, if_pos haudio]
    · rw [if_neg haudio, add_zero]
      by_cases hsct : blockSCT data i b = 3
      · rw [if_pos hsct, if_neg fun hff => haudio ⟨hsct, hff⟩]
      · rw [if_neg hsct]

theorem sequences_le (data : List UInt8) : sequences data ≤ 12 := by
  unfold sequences
  split <;> decide

theorem analyzeDVFrame_eq_foldl (hlen : data.length = 120000 ∨ data.length = 144000) :
    analyzeDVFrame data = (scannedPlaces (sequences data)).foldl
      (fun info p => analyzeBlock data p.1 info p.2) .zero := by
  rw [analyzeDVFrame, if_neg (by omega), scannedPlaces]
  show _ = ((List.range _).flatMap fun i => (List.range' 6 144).map (Prod.mk i)).foldl _ _
  rw [List.foldl_flatMap]
  simp only [List.foldl_map]

/-- A field that goes up at the blocks of `P` counts these blocks of the frame. -/
theorem analyzeDVFrame_count (hlen : data.length = 120000 ∨ data.length = 144000)
    (field : FrameErrorInfo → UInt32) {P : BlockPlace → Prop} [DecidablePred P]
    (hzero : field .zero = 0) (hstep : ∀ info (p : BlockPlace),
      field (analyzeBlock data p.1 info p.2) = field info + if P p then 1 else 0) :
    (field (analyzeDVFrame data)).toNat =
      ((scannedPlaces (sequences data)).toFinset.filter P).card := by
  have hshort : (scannedPlaces (sequences data)).length < 2 ^ 32 := by
    have hle := sequences_le data
    rw [scannedPlaces_length]
    omega
  rw [analyzeDVFrame_eq_foldl hlen, foldl_eq_add_sum hstep, hzero, zero_add,
    UInt32.toNat_sum_ite hshort, (scannedPlaces_nodup _).card_eq_countP]

theorem videoErrorBlocks_eq (hlen : data.length = 120000 ∨ data.length = 144000) :
    (analyzeDVFrame data).dwVideoErrorBlocks.toNat =
      ((scannedPlaces (sequences data)).toFinset.filter (VideoFlagged data)).card := by
  refine analyzeDVFrame_count hlen (·.dwVideoErrorBlocks) rfl fun info p => ?_
  by_cases h : VideoFlagged data p
  · rw [analyzeBlock_of_video info h, if_pos h]
  · rw [analyzeBlock_of_not_video info h, if_neg h, add_zero]

theorem audioErrorBlocks_eq (hlen : data.length = 120000 ∨ data.length = 144000) :
    (analyzeDVFrame data).dwAudioErrorBlocks.toNat =
      ((scannedPlaces (sequences data)).toFinset.filter (AudioFlagged data)).card := by
  refine analyzeDVFrame_count hlen (·.dwAudioErrorBlocks) rfl fun info p => ?_
  by_cases h : VideoFlagged data p
  · have haudio : ¬ AudioFlagged data p := fun ha => absurd (h.1.symm.trans ha.1) (by decide)
    rw [analyzeBlock_of_video info h, if_neg haudio, add_zero]
  · rw [analyzeBlock_of_not_video info h]

/-- A field that goes up at flagged video blocks, and of these at the ones of `q`. -/
theorem videoField_count (hlen : data.length = 120000 ∨ data.length = 144000)
    (field : FrameErrorInfo → UInt32) {q : BlockPlace → Prop} [DecidablePred q]
    (hzero : field .zero = 0)
    (hvideo : ∀ info (p : BlockPlace), VideoFlagged data p →
      field (analyzeBlock data p.1 info p.2) = field info + if q p then 1 else 0)
    (hother : ∀ info (p : BlockPlace), ¬ VideoFlagged data p →
      field (analyzeBlock data p.1 info p.2) = field info) :
    (field (analyzeDVFrame data)).toNat = ((scannedPlaces (sequences data)).toFinset.filter
      fun p => VideoFlagged data p ∧ q p).card := by
  refine analyzeDVFrame_count hlen field hzero fun info p => ?_
  by_cases h : VideoFlagged data p
  · rw [hvideo info p h]
    simp only [h, true_and]
  · rw [hother info p h, if_neg fun hq => h hq.1, add_zero]

theorem videoErrorsEven_eq (hlen : data.length = 120000 ∨ data.length = 144000) :
    (analyzeDVFrame data).dwVideoErrorsEven.toNat = ((scannedPlaces (sequences data)).toFinset.filter
      fun p => VideoFlagged data p ∧ p.1 % 2 = 0).card := by
  refine videoField_count hlen (·.dwVideoErrorsEven) rfl (fun info p h => ?_) fun info p h => ?_
  · rw [analyzeBlock_of_video info h]
  · rw [analyzeBlock_of_not_video info h]

theorem videoErrorsOdd_eq (hlen : data.length = 120000 ∨ data.length = 144000) :
    (analyzeDVFrame data).dwVideoErrorsOdd.toNat = ((scannedPlaces (sequences data)).toFinset.filter
      fun p => VideoFlagged data p ∧ ¬ p.1 % 2 = 0).card := by
  refine videoField_count hlen (·.dwVideoErrorsOdd) rfl (fun info p h => ?_) fun info p h => ?_
  · rw [analyzeBlock_of_video info h, ite_not]
  · rw [analyzeBlock_of_not_video info h]

theorem videoSTA_F_eq (hlen : data.length = 120000 ∨ data.length = 144000) :
    (analyzeDVFrame data).dwVideoSTA_F.toNat = ((scannedPlaces (sequences data)).toFinset.filter
      fun p => VideoFlagged data p ∧ blockSTA data p.1 p.2 = 0xf).card := by
  refine videoField_count hlen (·.dwVideoSTA_F) rfl (fun info p h => ?_) fun info p h => ?_
  · rw [analyzeBlock_of_video info h]
  · rw [analyzeBlock_of_not_video info h]

theorem analyzeDVFrame_of_length (h : ¬ (data.length = 120000 ∨ data.length = 144000)) :
    analyzeDVFrame data = .zero := if_pos (not_or.mp h)

theorem parity_eq (data : List UInt8) : (analyzeDVFrame data).dwVideoErrorsEven.toNat +
    (analyzeDVFrame data).dwVideoErrorsOdd.toNat =
      (analyzeDVFrame data).dwVideoErrorBlocks.toNat := by
  by_cases hlen : data.length = 120000 ∨ data.length = 144000
  · rw [videoErrorsEven_eq hlen, videoErrorsOdd_eq hlen, videoErrorBlocks_eq hlen,
      ← Finset.filter_filter, ← Finset.filter_filter, Finset.card_filter_add_card_filter_not]
  · rw [analyzeDVFrame_of_length hlen]
    rfl

theorem uncompensated_le (data : List UInt8) :
    (analyzeDVFrame data).dwVideoSTA_F.toNat ≤ (analyzeDVFrame data).dwVideoErrorBlocks.toNat := by
  by_cases hlen : data.length = 120000 ∨ data.length = 144000
  · rw [videoSTA_F_eq hlen, videoErrorBlocks_eq hlen, ← Finset.filter_filter]
    exact Finset.card_filter_le _ _
  · rw [analyzeDVFrame_of_length hlen]
    exact Nat.le_refl _

theorem errorBlocks_le (data : List UInt8) : (analyzeDVFrame data).dwVideoErrorBlocks.toNat ≤ 1728 ∧
    (analyzeDVFrame data).dwAudioErrorBlocks.toNat ≤ 1728 := by
  by_cases hlen : data.length = 120000 ∨ data.length = 144000
  · have hscanned : (scannedPlaces (sequences data)).toFinset.card ≤ 1728 := by
      have hle := sequences_le data
      rw [List.toFinset_card_of_nodup (scannedPlaces_nodup _), scannedPlaces_length]
      omega
    rw [videoErrorBlocks_eq hlen, audioErrorBlocks_eq hlen]
    exact ⟨(Finset.card_filter_le _ _).trans hscanned, (Finset.card_filter_le _ _).trans hscanned⟩
  · rw [analyzeDVFrame_of_length hlen]
    exact ⟨Nat.zero_le _, Nat.zero_le _⟩

/-- Every scanned block has its place in the layout. -/
theorem scannedPlaces_eq (n : Nat) :
    (scannedPlaces n).toFinset = audioPlaces n ∪ videoPlaces n := by
  ext p
  have haudio : p.2 ∈ audioIndices → 6 ≤ p.2 ∧ p.2 < 150 := by
    simp only [audioIndices, Finset.mem_insert, Finset.mem_singleton]
    omega
  have hfirst : p.2 = 6 → p.2 ∈ audioIndices := fun h => by
    rw [h]
    decide
  rw [List.mem_toFinset, mem_scannedPlaces, Finset.mem_union, audioPlaces, videoPlaces,
    Finset.mem_product, Finset.mem_product, Finset.mem_sdiff, Finset.mem_range, Finset.mem_Icc]
  by_cases h : p.2 ∈ audioIndices
  · simp only [h, haudio h, and_self, and_true, not_true, and_false, or_false]
  · simp only [h, and_false, not_false_eq_true, and_true, false_or]
    have hne : p.2 ≠ 6 := fun h6 => h (hfirst h6)
    omega

theorem places_disjoint (n : Nat) : Disjoint (audioPlaces n) (videoPlaces n) := by
  refine Finset.disjoint_left.mpr fun p haudio hvideo => ?_
  exact (Finset.mem_sdiff.mp (Finset.mem_product.mp hvideo).2).2 (Finset.mem_product.mp haudio).2

/-- The scan counts the flagged blocks of a kind at both kinds of places. -/
theorem card_scanned (n : Nat) (P : BlockPlace → Prop) [DecidablePred P] :
    ((scannedPlaces n).toFinset.filter P).card =
      ((audioPlaces n).filter P).card + ((videoPlaces n).filter P).card := by
  rw [scannedPlaces_eq, Finset.filter_union, Finset.card_union_of_disjoint]
  exact Finset.disjoint_filter_filter (places_disjoint n)

theorem card_audioPlaces (n : Nat) : (audioPlaces n).card = 9 * n := by
  rw [audioPlaces, Finset.card_product, Finset.card_range, Nat.mul_comm]
  rfl

theorem card_videoPlaces (n : Nat) : (videoPlaces n).card = 135 * n := by
  rw [videoPlaces, Finset.card_product, Finset.card_range, Nat.mul_comm]
  rfl

theorem countsPlaces_of_not_misplaced (hlen : data.length = 120000 ∨ data.length = 144000)
    (h : ¬ Misplaced data) : CountsPlaces data (analyzeDVFrame data) := by
  obtain ⟨hvideo, haudio⟩ := not_or.mp h
  have hvideoCount : (analyzeDVFrame data).dwVideoErrorBlocks.toNat =
      ((videoPlaces (sequences data)).filter (VideoFlagged data)).card := by
    have hnone : (audioPlaces (sequences data)).filter (VideoFlagged data) = ∅ :=
      Finset.filter_eq_empty_iff.mpr fun p hp hflag => hvideo ⟨p, hp, hflag⟩
    rw [videoErrorBlocks_eq hlen, card_scanned, hnone, Finset.card_empty, Nat.zero_add]
  have haudioCount : (analyzeDVFrame data).dwAudioErrorBlocks.toNat =
      ((audioPlaces (sequences data)).filter (AudioFlagged data)).card := by
    have hnone : (videoPlaces (sequences data)).filter (AudioFlagged data) = ∅ :=
      Finset.filter_eq_empty_iff.mpr fun p hp hflag => haudio ⟨p, hp, hflag⟩
    rw [audioErrorBlocks_eq hlen, card_scanned, hnone, Finset.card_empty, Nat.add_zero]
  exact {
    audio := fun _ => haudioCount
    video := fun _ => hvideoCount
    audioMax := by
      rw [haudioCount, ← card_audioPlaces]
      exact Finset.card_filter_le _ _
    videoMax := by
      rw [hvideoCount, ← card_videoPlaces]
      exact Finset.card_filter_le _ _
    parity := parity_eq data
    uncompensated := uncompensated_le data
    otherLength := fun h h' => absurd hlen (not_or.mpr ⟨h, h'⟩) }

theorem not_misplaced_of_countsPlaces (hlen : data.length = 120000 ∨ data.length = 144000)
    (h : CountsPlaces data (analyzeDVFrame data)) : ¬ Misplaced data := by
  have hvideo := h.video hlen
  have haudio := h.audio hlen
  rw [videoErrorBlocks_eq hlen, card_scanned, Nat.add_eq_right, Finset.card_eq_zero,
    Finset.filter_eq_empty_iff] at hvideo
  rw [audioErrorBlocks_eq hlen, card_scanned, Nat.add_eq_left, Finset.card_eq_zero,
    Finset.filter_eq_empty_iff] at haudio
  rintro (⟨p, hp, hflag⟩ | ⟨p, hp, hflag⟩)
  · exact hvideo hp hflag
  · exact haudio hp hflag

end Counts

/-- The counts are those of the standard layout exactly when no flagged block
has the section type of the other kind of place. -/
theorem counts_places_iff (data : List UInt8) : CountsPlaces data (analyzeDVFrame data) ↔
    (data.length = 120000 ∨ data.length = 144000 → ¬ Misplaced data) := by
  by_cases hlen : data.length = 120000 ∨ data.length = 144000
  · exact ⟨fun h _ => not_misplaced_of_countsPlaces hlen h,
      fun h => countsPlaces_of_not_misplaced hlen (h hlen)⟩
  · refine iff_of_true ?_ fun h => absurd h hlen
    rw [analyzeDVFrame_of_length hlen]
    exact ⟨fun h => absurd h hlen, fun h => absurd h hlen, Nat.zero_le _, Nat.zero_le _, rfl,
      Nat.le_refl _, fun _ _ => rfl⟩

/-- A frame of 120000 bytes whose first audio block has become a video block
with an error. -/
def misplacedFrame : List UInt8 :=
  List.replicate 480 0 ++ [0x80, 0, 0, 0x10] ++ List.replicate 119516 0

theorem misplacedFrame_length : misplacedFrame.length = 120000 := by
  rw [misplacedFrame, List.length_append, List.length_append, List.length_replicate,
    List.length_replicate]
  rfl

theorem misplacedFrame_getD {k : Nat} (h : k < 4) :
    misplacedFrame.getD (480 + k) 0 = [0x80, 0, 0, 0x10].getD k 0 := by
  have hbefore : (List.replicate 480 (0 : UInt8)).length ≤ 480 + k := by
    rw [List.length_replicate]
    omega
  rw [misplacedFrame, List.append_assoc, List.getD_append_right _ _ _ _ hbefore,
    List.length_replicate, Nat.add_sub_cancel_left, List.getD_append _ _ _ _ h]

theorem misplacedFrame_flagged : VideoFlagged misplacedFrame (0, 6) := by
  have hfirst : blockByte misplacedFrame 0 6 0 = 0x80 := misplacedFrame_getD (k := 0) (by decide)
  have hthird : blockByte misplacedFrame 0 6 3 = 0x10 := misplacedFrame_getD (k := 3) (by decide)
  refine ⟨?_, ?_⟩
  · rw [blockSCT, hfirst]
    rfl
  · rw [blockSTA, hthird]
    decide

/-- The audio block counts as an error of video, which its place is not. -/
theorem misplacedFrame_counted :
    ¬ CountsPlaces misplacedFrame (analyzeDVFrame misplacedFrame) := by
  have hlen : misplacedFrame.length = 120000 := misplacedFrame_length
  intro h
  refine not_misplaced_of_countsPlaces (.inl hlen) h (.inl ⟨(0, 6), ?_, misplacedFrame_flagged⟩)
  rw [sequences, hlen]
  decide

end WinDV
