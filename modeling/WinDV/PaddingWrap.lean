import WinDV.AVIRead
import WinDV.ChunkChain

/-! The headers that the three loops of the checker read. The padded size of a
chunk is computed as a DWORD, so that a chunk of 2^32 - 1 bytes takes none. -/

namespace WinDV

def RIFFChunk.size (ck : RIFFChunk) : Nat := ck.dwSize.toNat

/-- A loop that reads a header, goes on or not, and moves by the padded size. -/
structure HeaderLoop where
  header : Nat → Option RIFFChunk
  more : Nat → RIFFChunk → Bool

namespace HeaderLoop

def step (p : Nat) (ck : RIFFChunk) : Nat := p + 8 + (padEven ck.dwSize).toNat

def visits (l : HeaderLoop) : Nat → Nat → List (Nat × RIFFChunk) :=
  ChunkChain.visits l.header l.more step

/-- From `start` on, by sizes in unbounded arithmetic, the loop comes to a chunk
of 2^32 - 1 bytes at `q`, goes on from it, and finds room for a header in it. -/
def WrapsAt (l : HeaderLoop) (start q : Nat) : Prop :=
  ∃ ck, ChunkChain.Declared (ChunkChain.continued l.header l.more) RIFFChunk.size start q ck ∧
    ck.dwSize = 0xffffffff ∧ l.header (q + 8) ≠ none

end HeaderLoop

/-- The top-level walk; a `LIST` without a type ends it. -/
def topLoop (file : List UInt8) (riffEnd : Nat) : HeaderLoop where
  header p := if p + 8 ≤ riffEnd then readChunk file p else none
  more p ck := ck.fourcc != fcc "LIST" || (readExact file (p + 8) 4).isSome

/-- The scan for AVIX segments. -/
def avixLoop (file : List UInt8) : HeaderLoop where
  header p := (readExact file p 12).map fun hdr => ⟨hdr.take 4, dwordAt hdr 4⟩
  more p ck := ck.fourcc == fcc "RIFF" && (readExact file p 12).map (·.drop 8) == some (fcc "AVIX")

/-- A metadata list whose `nested` call finds an index. -/
def listFinds (file : List UInt8) (nested : Nat → Nat → Bool) (p : Nat) (ck : RIFFChunk) : Bool :=
  ck.fourcc == fcc "LIST" && ck.dwSize ≥ 4 &&
    (readExact file (p + 8) 4).any fun listType =>
      (listType == fcc "hdrl" || listType == fcc "strl") && nested (p + 12) (p + 8 + ck.size)

/-- The loop of `ContainsOpenDMLIndex`. -/
def indexLoop (file : List UInt8) (nested : Nat → Nat → Bool) (stop : Nat) : HeaderLoop where
  header p := if p + 8 ≤ stop then readChunk file p else none
  more p ck := HeaderLoop.step p ck ≤ stop && ck.fourcc != fcc "indx" &&
    (ck.fourcc != fcc "LIST" || decide (ck.dwSize < 4) || (readExact file (p + 8) 4).isSome) &&
    !listFinds file nested p ck

section Loops

variable {file : List UInt8} {nested : Nat → Nat → Bool} {riffEnd stop : Nat}

theorem topVisits_eq_chunksFrom (hend : riffEnd ≤ file.length) (fuel p : Nat) :
    (topLoop file riffEnd).visits fuel p = chunksFrom file riffEnd fuel p := by
  induction fuel generalizing p with
  | zero => rfl
  | succ fuel ih =>
    simp only [HeaderLoop.visits] at ih ⊢
    rw [ChunkChain.visits, chunksFrom]
    by_cases hp : p + 8 ≤ riffEnd
    · obtain ⟨ck, hck⟩ := readChunk_isSome (hp.trans hend)
      have hheader : (topLoop file riffEnd).header p = some ck := (if_pos hp).trans hck
      simp only [hheader, if_pos hp, hck, List.cons.injEq, true_and]
      by_cases hmore : (topLoop file riffEnd).more p ck = true
      · rw [if_pos hmore]
        exact ih _
      · -- a list too short for its type is the last chunk
        rw [if_neg hmore, chunksFrom_of_lt]
        simp only [topLoop, Bool.or_eq_true, not_or, Bool.not_eq_true, Option.isSome_eq_false_iff,
          Option.isNone_iff_eq_none] at hmore
        by_contra hle
        rw [readExact_eq_some (by omega)] at hmore
        exact absurd hmore.2 (by simp)
    · have hheader : (topLoop file riffEnd).header p = none := if_neg hp
      simp only [hheader, if_neg hp]

theorem walkTop_eq_foldl_visits (hend : riffEnd ≤ file.length) (fuel p : Nat) (w : Walk) :
    (walkTop file riffEnd fuel p w).2 =
      ((topLoop file riffEnd).visits fuel p).foldl (applyChunk file) w := by
  rw [topVisits_eq_chunksFrom hend, walkTop_eq_foldl hend]

/-- The scan stops at a header of another kind, or behind the last segment. -/
theorem walkAvix_eq_foldl_visits (fuel p : Nat) :
    walkAvix file fuel p = ((avixLoop file).visits fuel p).foldl
      (fun _ x => if (avixLoop file).more x.1 x.2 then HeaderLoop.step x.1 x.2 else x.1) p := by
  induction fuel generalizing p with
  | zero => rfl
  | succ fuel ih =>
    simp only [HeaderLoop.visits] at ih ⊢
    rw [ChunkChain.visits, walkAvix]
    cases hread : readExact file p 12 with
    | none =>
      have hheader : (avixLoop file).header p = none := by simp [avixLoop, hread]
      simp [hheader]
    | some hdr =>
      have hheader : (avixLoop file).header p = some ⟨hdr.take 4, dwordAt hdr 4⟩ := by
        simp [avixLoop, hread]
      have hmore : (avixLoop file).more p ⟨hdr.take 4, dwordAt hdr 4⟩ = true ↔
          hdr.take 4 = fcc "RIFF" ∧ hdr.drop 8 = fcc "AVIX" := by
        simp [avixLoop, hread]
      rw [if_pos (le_length_of_readExact (by omega) hread)]
      simp only [hheader, List.foldl_cons]
      by_cases hriff : hdr.take 4 = fcc "RIFF" ∧ hdr.drop 8 = fcc "AVIX"
      · have hno : ¬ (hdr.take 4 ≠ fcc "RIFF" ∨ hdr.drop 8 ≠ fcc "AVIX") := by simp [hriff]
        rw [if_neg hno, if_pos (hmore.mpr hriff), if_pos (hmore.mpr hriff), ← Nat.add_assoc, ih]
        rfl
      · have hother : hdr.take 4 ≠ fcc "RIFF" ∨ hdr.drop 8 ≠ fcc "AVIX" := not_and_or.mp hriff
        rw [if_pos hother, if_neg (mt hmore.mp hriff), if_neg (mt hmore.mp hriff), List.foldl_nil]

theorem scanForIndex_eq_any_visits (fuel p : Nat) :
    scanForIndex file nested fuel p stop =
      ((indexLoop file nested stop).visits fuel p).any fun x =>
        HeaderLoop.step x.1 x.2 ≤ stop && (x.2.fourcc == fcc "indx" || listFinds file nested x.1 x.2) := by
  induction fuel generalizing p with
  | zero => rfl
  | succ fuel ih =>
    simp only [HeaderLoop.visits] at ih ⊢
    rw [ChunkChain.visits, scanForIndex]
    by_cases hp : p + 8 ≤ stop
    · cases hck : readChunk file p with
      | none =>
        have hheader : (indexLoop file nested stop).header p = none := (if_pos hp).trans hck
        simp [hheader]
      | some ck =>
        have hheader : (indexLoop file nested stop).header p = some ck := (if_pos hp).trans hck
        have hnext : p + 8 + (padEven ck.dwSize).toNat = HeaderLoop.step p ck := rfl
        simp only [hheader, if_pos hp, hnext, List.any_cons]
        have hmore : (indexLoop file nested stop).more p ck =
          (HeaderLoop.step p ck ≤ stop && ck.fourcc != fcc "indx" &&
            (ck.fourcc != fcc "LIST" || decide (ck.dwSize < 4) ||
              (readExact file (p + 8) 4).isSome) && !listFinds file nested p ck) := rfl
        have hforward : ¬ HeaderLoop.step p ck ≤ p := by
          rw [HeaderLoop.step]
          omega
        by_cases hin : HeaderLoop.step p ck ≤ stop
        · have hout : ¬ (HeaderLoop.step p ck ≤ p ∨ HeaderLoop.step p ck > stop) := by omega
          rw [if_neg hout]
          by_cases hindx : ck.fourcc = fcc "indx"
          · simp [hindx, hin]
          · have hnotIndx : (ck.fourcc == fcc "indx") = false := beq_false_of_ne hindx
            rw [if_neg hindx]
            by_cases hlist : ck.fourcc = fcc "LIST" ∧ ck.dwSize ≥ 4
            · have hisList : (ck.fourcc == fcc "LIST") = true := beq_iff_eq.mpr hlist.1
              have hlong : ¬ ck.dwSize < 4 := UInt32.not_lt.mpr hlist.2
              rw [if_pos hlist]
              cases htype : readExact file (p + 8) 4 with
              | none =>
                have hfinds : listFinds file nested p ck = false := by simp [listFinds, htype]
                simp [hmore, bne, htype, hfinds, hnotIndx, hisList, hlong]
              | some listType =>
                have hfinds : listFinds file nested p ck =
                    ((listType == fcc "hdrl" || listType == fcc "strl") &&
                      nested (p + 12) (p + 8 + ck.dwSize.toNat)) := by
                  simp [listFinds, htype, hlist, RIFFChunk.size]
                have hiff : ((listType = fcc "hdrl" ∨ listType = fcc "strl") ∧
                    nested (p + 8 + 4) (p + 8 + ck.dwSize.toNat) = true) ↔
                      listFinds file nested p ck = true := by
                  rw [hfinds, Bool.and_eq_true, Bool.or_eq_true, beq_iff_eq, beq_iff_eq]
                simp only [hiff]
                cases hf : listFinds file nested p ck with
                | true => simp [hin]
                | false =>
                  have hgo : (indexLoop file nested stop).more p ck = true := by
                    rw [hmore]
                    simp [bne, htype, hnotIndx, hin, hf]
                  simp [hgo, hnotIndx, ih]
            · have hfinds : listFinds file nested p ck = false := by
                rw [listFinds, Bool.and_eq_false_iff, Bool.and_eq_false_iff]
                refine .inl ?_
                rw [beq_eq_false_iff_ne, decide_eq_false_iff_not]
                exact not_and_or.mp hlist
              have hskip : (ck.fourcc != fcc "LIST" || decide (ck.dwSize < 4)) = true := by
                rw [Bool.or_eq_true, bne_iff_ne, decide_eq_true_eq, ← UInt32.not_le]
                exact not_and_or.mp hlist
              have hgo : (indexLoop file nested stop).more p ck = true := by
                rw [hmore, hskip]
                simp [bne, hnotIndx, hin, hfinds]
              simp [hlist, hgo, hfinds, hnotIndx, ih]
        · have hout : HeaderLoop.step p ck ≤ p ∨ HeaderLoop.step p ck > stop := .inr (by omega)
          simp [hmore, hin, hout]
    · have hheader : (indexLoop file nested stop).header p = none := if_neg hp
      simp [hheader, hp]

end Loops

theorem step_of_not_wrapped {p : Nat} {ck : RIFFChunk} (h : ck.dwSize ≠ 0xffffffff) :
    HeaderLoop.step p ck = ChunkChain.next RIFFChunk.size p ck := by
  have hlt := ck.dwSize.toNat_lt
  have hne : ck.dwSize.toNat ≠ 2 ^ 32 - 1 := fun heq => h (UInt32.toNat_inj.mp heq)
  rw [HeaderLoop.step, padEven_toNat (by omega), ChunkChain.next, RIFFChunk.size]
  omega

theorem step_of_wrapped {p : Nat} {ck : RIFFChunk} (h : ck.dwSize = 0xffffffff) :
    HeaderLoop.step p ck = p + 8 ∧ ChunkChain.next RIFFChunk.size p ck = p + 8 + 2 ^ 32 := by
  have hpad : (padEven 0xffffffff).toNat = 0 := by decide
  have hsize : (0xffffffff : UInt32).toNat = 2 ^ 32 - 1 := by decide
  rw [HeaderLoop.step, ChunkChain.next, RIFFChunk.size, h, hpad, hsize]
  omega

theorem HeaderLoop.skipsBodies_iff (l : HeaderLoop) (bound : Nat)
    (hbound : ∀ p ck, l.header p = some ck → p < bound)
    (hend : ∀ p q, p ≤ q → l.header p = none → l.header q = none) (fuel start : Nat)
    (hfuel : bound ≤ start + fuel) :
    ChunkChain.SkipsBodies RIFFChunk.size (l.visits fuel start) ↔ ∀ q, ¬ l.WrapsAt start q := by
  have hforward (p : Nat) (ck : RIFFChunk) : p < step p ck := by
    rw [step]
    omega
  have hbad (p : Nat) (ck : RIFFChunk) (h : ck.dwSize = 0xffffffff) :
      step p ck ≠ ChunkChain.next RIFFChunk.size p ck := by
    obtain ⟨hstep, hnext⟩ := step_of_wrapped (p := p) h
    omega
  have hstop (p : Nat) (ck : RIFFChunk) (h : ck.dwSize = 0xffffffff)
      (hnone : l.header (step p ck) = none) :
      l.header (ChunkChain.next RIFFChunk.size p ck) = none := by
    obtain ⟨hstep, hnext⟩ := step_of_wrapped (p := p) h
    exact hend _ _ (by omega) hnone
  have hiff : ChunkChain.SkipsBodies RIFFChunk.size (l.visits fuel start) ↔ _ :=
    ChunkChain.visits_skipsBodies_iff hbound hforward
      (fun p ck h => step_of_not_wrapped h) hbad hstop fuel start hfuel
  refine hiff.trans ⟨fun hall q => ?_, fun hall q ck hq hb => ?_⟩
  · rintro ⟨ck, hq, hb, hne⟩
    have hnone := hall q ck hq hb
    rw [(step_of_wrapped hb).1] at hnone
    exact hne hnone
  · rw [(step_of_wrapped hb).1]
    by_contra hne
    exact hall q ⟨ck, hq, hb, hne⟩

def topEnd (file : List UInt8) : Nat :=
  let riffEnd := 8 + (dwordAt (file.take 12) 4).toNat
  if riffEnd > file.length then file.length else riffEnd

def topVisits (file : List UInt8) : List (Nat × RIFFChunk) :=
  (topLoop file (topEnd file)).visits file.length 12

/-- Where the top-level walk leaves off. -/
def avixStart (file : List UInt8) : Nat :=
  (walkTop file (topEnd file) file.length 12 { r := { dwActualSize := file.length } }).1

def avixVisits (file : List UInt8) : List (Nat × RIFFChunk) :=
  (avixLoop file).visits file.length (avixStart file)

/-- The loop of `ContainsOpenDMLIndex` at depth `depth`. -/
def openDMLLoop (file : List UInt8) (depth stop : Nat) : HeaderLoop :=
  indexLoop file (containsOpenDMLIndex file depth) stop

def openDMLVisits (file : List UInt8) (depth start stop : Nat) : List (Nat × RIFFChunk) :=
  (openDMLLoop file depth stop).visits (file.length + 1) start

theorem openDMLVisits_found (file : List UInt8) (depth start stop : Nat) :
    containsOpenDMLIndex file (depth + 1) start stop =
      (openDMLVisits file depth start stop).any fun x =>
        HeaderLoop.step x.1 x.2 ≤ stop && (x.2.fourcc == fcc "indx" ||
          listFinds file (containsOpenDMLIndex file depth) x.1 x.2) :=
  scanForIndex_eq_any_visits _ _

theorem header_upTo {file : List UInt8} {stop p q : Nat} (hpq : p ≤ q)
    (h : (if p + 8 ≤ stop then readChunk file p else none) = none) :
    (if q + 8 ≤ stop then readChunk file q else none) = none := by
  by_cases hq : q + 8 ≤ stop
  · rw [if_pos (by omega)] at h
    rw [if_pos hq]
    cases hck : readChunk file q with
    | none => rfl
    | some ck =>
      have hle := le_length_of_readChunk hck
      have hle' : p + 8 ≤ file.length := by omega
      obtain ⟨_, hsome⟩ := readChunk_isSome hle'
      rw [hsome] at h
      cases h
  · rw [if_neg hq]

theorem lt_of_header_upTo {file : List UInt8} {stop p : Nat} {ck : RIFFChunk}
    (h : (if p + 8 ≤ stop then readChunk file p else none) = some ck) : p < file.length := by
  by_cases hp : p + 8 ≤ stop
  · rw [if_pos hp] at h
    have hle := le_length_of_readChunk h
    omega
  · rw [if_neg hp] at h
    cases h

theorem avix_header_none {file : List UInt8} {p q : Nat} (hpq : p ≤ q)
    (h : (avixLoop file).header p = none) : (avixLoop file).header q = none := by
  simp only [avixLoop, Option.map_eq_none_iff] at h ⊢
  cases hread : readExact file q 12 with
  | none => rfl
  | some hdr =>
    have hle := le_length_of_readExact (by omega) hread
    rw [readExact_eq_some (by omega)] at h
    cases h

/-- Each of the three loops keeps out of all payloads exactly when it comes to no
chunk of 2^32 - 1 bytes that it goes on from and that has room for a header. -/
theorem payloads_skipped_iff (file : List UInt8) :
    (ChunkChain.SkipsBodies RIFFChunk.size (topVisits file) ↔
        ∀ q, ¬ (topLoop file (topEnd file)).WrapsAt 12 q) ∧
      (ChunkChain.SkipsBodies RIFFChunk.size (avixVisits file) ↔
        ∀ q, ¬ (avixLoop file).WrapsAt (avixStart file) q) ∧
      ∀ depth start stop,
        ChunkChain.SkipsBodies RIFFChunk.size (openDMLVisits file depth start stop) ↔
          ∀ q, ¬ (openDMLLoop file depth stop).WrapsAt start q := by
  refine ⟨?_, ?_, fun depth start stop => ?_⟩
  · exact HeaderLoop.skipsBodies_iff _ file.length (fun _ _ => lt_of_header_upTo)
      (fun _ _ => header_upTo) _ _ (by omega)
  · refine HeaderLoop.skipsBodies_iff _ file.length (fun p ck h => ?_)
      (fun _ _ => avix_header_none) _ _ (by omega)
    obtain ⟨hdr, hread, -⟩ := Option.map_eq_some_iff.mp h
    have hle := le_length_of_readExact (by omega) hread
    omega
  · exact HeaderLoop.skipsBodies_iff _ file.length (fun _ _ => lt_of_header_upTo)
      (fun _ _ => header_upTo) _ _ (by omega)

/-- A `JUNK` chunk said to be of 2^32 - 1 bytes, with a header in its payload. -/
def wrappedJunkFile : List UInt8 :=
  fcc "RIFF" ++ [20, 0, 0, 0] ++ fcc "AVI " ++ fcc "JUNK" ++ [255, 255, 255, 255] ++
    fcc "idx1" ++ [0, 0, 0, 0]

theorem wrappedJunkFile_entered :
    ¬ ChunkChain.SkipsBodies RIFFChunk.size (topVisits wrappedJunkFile) ∧
      topVisits wrappedJunkFile = [(12, ⟨fcc "JUNK", 0xffffffff⟩), (20, ⟨fcc "idx1", 0⟩)] ∧
      (checkAVIIntegrity (.readable wrappedJunkFile)).bHasIndex = true := by
  have hvisits : topVisits wrappedJunkFile =
      [(12, ⟨fcc "JUNK", 0xffffffff⟩), (20, ⟨fcc "idx1", 0⟩)] := by decide +kernel
  refine ⟨fun h => ?_, hvisits, by decide +kernel⟩
  have hnext := h.exact_next
  rw [hvisits, List.isChain_cons_cons] at hnext
  exact absurd hnext.1 (by decide)

end WinDV
