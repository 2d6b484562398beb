import WinDV.AVIVerdict
import WinDV.ChunkChain

/-! What an OK verdict says about a file that was cut short. The chunks of the
first segment and the segments after it are those their headers declare, with
sizes in unbounded arithmetic; the walk of the checker stops where the file
does and says nothing of it. -/

namespace WinDV

def riffSize (file : List UInt8) : Nat := (dwordAt (file.take 12) 4).toNat

def topHeader (file : List UInt8) (p : Nat) : Option RIFFChunk :=
  if p + 8 ≤ 8 + riffSize file then readChunk file p else none

/-- The chunk `ck` at `p` is declared at the top level of the first segment. -/
def TopLevel (file : List UInt8) : Nat → RIFFChunk → Prop :=
  ChunkChain.Declared (topHeader file) (fun ck => ck.dwSize.toNat) 12

def avixHeader (file : List UInt8) (p : Nat) : Option UInt32 :=
  match readExact file p 12 with
  | some hdr => if hdr.take 4 = fcc "RIFF" ∧ hdr.drop 8 = fcc "AVIX" then some (dwordAt hdr 4)
    else none
  | none => none

/-- A `RIFF` segment of type `AVIX` and of size `size` follows at `p`. -/
def Continuation (file : List UInt8) : Nat → UInt32 → Prop :=
  ChunkChain.Declared (avixHeader file) UInt32.toNat (8 + riffSize file + riffSize file % 2)

structure WhollyInside (file : List UInt8) (r : AVICheckResult) : Prop where
  chunks : ∀ p ck, TopLevel file p ck → p + 8 + ck.dwSize.toNat ≤ file.length
  segments : ∀ p size, Continuation file p size → p + 8 + size.toNat ≤ file.length
  entries : ∀ p ck, TopLevel file p ck → ck.fourcc = fcc "idx1" →
    ∀ pal, (scanChunk file pal (p, ck)).2 = 0
  frames : r.dwFrameCount.toNat * ((if r.bIsPAL then 144000 else 120000) + 8) ≤ r.dwActualSize

structure LooksIntact (file : List UInt8) : Prop where
  signature : HasSignature file
  hdrl : (visitedChunks file).any (isList file (fcc "hdrl")) = true
  movi : (visitedChunks file).any (isList file (fcc "movi")) = true
  index : (visitedChunks file).any (carriesIndex file) = true
  frameSizes : ∀ e ∈ lastEntries file, isDefective e = false
  hasFrames : 0 < frames file

/-- The file is not cut short: its last chunk and its last segment end in it,
and it is long enough for its frames. -/
structure NotCutShort (file : List UInt8) : Prop where
  chunk : ∀ p ck, ChunkChain.Last (topHeader file) (fun ck => ck.dwSize.toNat) 12 p ck →
    p + 8 + ck.dwSize.toNat ≤ file.length
  segment : ∀ p size, ChunkChain.Last (avixHeader file) UInt32.toNat
    (8 + riffSize file + riffSize file % 2) p size → p + 8 + size.toNat ≤ file.length
  frames : frames file * (frameSize file + 8) ≤ file.length

theorem isOK_iff_looksIntact (file : List UInt8) :
    (checkAVIIntegrity (.readable file)).isOK = true ↔ LooksIntact file := by
  by_cases hsig : HasSignature file
  · have hdefect : (checkAVIIntegrity (.readable file)).dwDefectFrames = 0 ↔
        ∀ e ∈ lastEntries file, isDefective e = false := by
      have hcount := check_dwDefectFrames hsig
      rw [← UInt32.toNat_inj, hcount, UInt32.toNat_zero, List.countP_eq_zero]
      simp only [Bool.not_eq_true]
    rw [AVICheckResult.isOK, Bool.and_eq_true, Bool.and_eq_true, beq_iff_eq, hdefect,
      check_bHasIndex hsig, check_bValid hsig, Bool.and_eq_true, Bool.and_eq_true,
      decide_eq_true_eq]
    constructor
    · rintro ⟨⟨⟨⟨hhdrl, hmovi⟩, hframes⟩, hsizes⟩, hindex⟩
      exact ⟨hsig, hhdrl, hmovi, hindex, hsizes, hframes⟩
    · intro hi
      exact ⟨⟨⟨⟨hi.hdrl, hi.movi⟩, hi.hasFrames⟩, hi.frameSizes⟩, hi.index⟩
  · have hinvalid := checkAVIIntegrity_of_no_signature hsig
    constructor
    · intro hok
      rw [AVICheckResult.isOK, hinvalid, Bool.false_and, Bool.false_and] at hok
      exact absurd hok Bool.false_ne_true
    · intro hi
      exact absurd hi.signature hsig

theorem le_length_of_topHeader {file : List UInt8} {p : Nat} {ck : RIFFChunk}
    (h : topHeader file p = some ck) : p ≤ file.length := by
  unfold topHeader at h
  by_cases hp : p + 8 ≤ 8 + riffSize file
  · rw [if_pos hp] at h
    have hle := le_length_of_readChunk h
    omega
  · rw [if_neg hp] at h
    exact absurd h (by simp)

theorem le_length_of_avixHeader {file : List UInt8} {p : Nat} {size : UInt32}
    (h : avixHeader file p = some size) : p ≤ file.length := by
  unfold avixHeader at h
  cases hread : readExact file p 12 with
  | none =>
    rw [hread] at h
    exact absurd h (by simp)
  | some hdr =>
    have hle := le_length_of_readExact (by omega) hread
    omega

theorem entries_read {file : List UInt8} {p : Nat} {ck : RIFFChunk}
    (h : p + 8 + ck.dwSize.toNat ≤ file.length) (pal : Bool) :
    (scanChunk file pal (p, ck)).2 = 0 := by
  rw [scanChunk_remaining]
  right
  show p + 8 + 16 * (ck.dwSize.toNat / 16) ≤ file.length
  omega

theorem whollyInside_iff {file : List UInt8} (hsig : HasSignature file) :
    WhollyInside file (checkAVIIntegrity (.readable file)) ↔ NotCutShort file := by
  have hchunks := ChunkChain.declared_inside_iff (topHeader file) (fun ck => ck.dwSize.toNat)
    (fun _ _ => le_length_of_topHeader) 12
  have hsegments := ChunkChain.declared_inside_iff (avixHeader file) UInt32.toNat
    (fun _ _ => le_length_of_avixHeader) (8 + riffSize file + riffSize file % 2)
  have hframes : (checkAVIIntegrity (.readable file)).dwFrameCount.toNat *
      ((if (checkAVIIntegrity (.readable file)).bIsPAL then 144000 else 120000) + 8) =
        frames file * (frameSize file + 8) := by
    rw [check_dwFrameCount hsig, check_bIsPAL hsig, frameSize]
  constructor
  · intro hin
    refine ⟨hchunks.mp hin.chunks, hsegments.mp hin.segments, ?_⟩
    have hle := hin.frames
    rw [hframes, check_dwActualSize hsig] at hle
    exact hle
  · intro hcut
    have hall := hchunks.mpr hcut.chunk
    refine ⟨hall, hsegments.mpr hcut.segment,
      fun p ck hck _ pal => entries_read (hall p ck hck) pal, ?_⟩
    rw [hframes, check_dwActualSize hsig]
    exact hcut.frames

/-- An OK verdict is right about the whole file exactly when the file, should it
look intact, is not cut short. -/
theorem ok_verdict_sound_iff (file : List UInt8) :
    ((checkAVIIntegrity (.readable file)).isOK = true →
        WhollyInside file (checkAVIIntegrity (.readable file))) ↔
      (LooksIntact file → NotCutShort file) := by
  rw [isOK_iff_looksIntact]
  constructor
  · intro hin hi
    exact (whollyInside_iff hi.signature).mp (hin hi)
  · intro hcut hi
    exact (whollyInside_iff hi.signature).mpr (hcut hi)

/-- A header list with a super-index, and a `movi` list of one frame that the
file breaks off after its type. -/
def brokenOffFile : List UInt8 :=
  fcc "RIFF" ++ [36, 213, 1, 0] ++ fcc "AVI " ++
  fcc "LIST" ++ [76, 0, 0, 0] ++ fcc "hdrl" ++
  fcc "avih" ++ [56, 0, 0, 0] ++ List.replicate 16 0 ++ [1, 0, 0, 0] ++ List.replicate 36 0 ++
  fcc "indx" ++ [0, 0, 0, 0] ++
  fcc "LIST" ++ [204, 212, 1, 0] ++ fcc "movi"

theorem brokenOffFile_passes :
    (checkAVIIntegrity (.readable brokenOffFile)).isOK = true ∧
      ¬ WhollyInside brokenOffFile (checkAVIIntegrity (.readable brokenOffFile)) := by
  refine ⟨by decide +kernel, fun hin => ?_⟩
  have hmovi : TopLevel brokenOffFile 96 ⟨fcc "LIST", 120012⟩ :=
    .later (k := ⟨fcc "LIST", 76⟩) (by decide +kernel) (.here (by decide +kernel))
  exact absurd (hin.chunks _ _ hmovi) (by decide +kernel)

end WinDV
