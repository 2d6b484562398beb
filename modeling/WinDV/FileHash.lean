import WinDV.SidecarRoundTrip
import Mathlib.Tactic.Linarith

/-! `ComputeFileSHA256` with what its reads come to: the hash of the blocks, and
the percentages it stores for the dialog. A percentage is cast to a LONG before
it is limited to 100. -/

namespace WinDV

/-- What a successful `ReadFile` delivers. -/
abbrev FileBlock := { bytes : List UInt8 // 1 ≤ bytes.length ∧ bytes.length ≤ 65536 }

/-- Whether the file opens, its size where that is known, and the blocks up to
the end of the file or to the read that fails. -/
structure FileReads where
  opened : Bool
  size : Option Int64
  blocks : List FileBlock
  failed : Bool

namespace FileReads

def content (r : FileReads) : List UInt8 := (r.blocks.map (·.1)).flatten

/-- `fileSize` is zero before it is asked for. -/
def fileSize (r : FileReads) : Int64 := r.size.getD 0

end FileReads

structure HashLoop where
  ctx : SHA256CTX
  bytesReadTotal : UInt64
  lastPercent : Int32
  published : List Int32

/-- `published` are the values stored through the progress pointer. -/
structure HashRun where
  result : Bool
  szHashOut : CString
  published : List Int32
  deriving DecidableEq

namespace FileHash

variable {α : Type}

def percent (bytesReadTotal : UInt64) (fileSize : Int64) : Int32 :=
  let pct := Int32.ofNat (bytesReadTotal * 100 / fileSize.toUInt64).toNat
  if pct > 100 then 100 else pct

def readBlock (progress : Bool) (fileSize : Int64) (s : HashLoop) (b : FileBlock) : HashLoop :=
  let s := { s with
    ctx := sha256Update s.ctx b.1 (UInt32.ofNat b.1.length)
    bytesReadTotal := s.bytesReadTotal + UInt64.ofNat b.1.length }
  if progress && fileSize > 0 then
    let pct := percent s.bytesReadTotal fileSize
    if pct ≠ s.lastPercent then { s with published := s.published ++ [pct], lastPercent := pct } else s
  else s

def store (progress : Bool) (published : List Int32) (x : Int32) : List Int32 :=
  if progress then published ++ [x] else published

def startLoop (ctx : SHA256CTX) (progress : Bool) : HashLoop :=
  ⟨sha256Init ctx, 0, -1, store progress [] 0⟩

/-- `ctx` is what the stack held before `sha256_init`. -/
def computeFileSHA256 (ctx : SHA256CTX) (progress : Bool) (r : FileReads) : HashRun :=
  if !r.opened then ⟨false, [], store progress [] 0⟩
  else
    let s := r.blocks.foldl (readBlock progress r.fileSize) (startLoop ctx progress)
    if r.failed then ⟨false, [], store progress s.published 0⟩
    else ⟨true, sha256Hex (sha256Final s.ctx), store progress s.published 100⟩

/-- The result, the hash and the progress tell the truth about the file. -/
structure Faithful (progress : Bool) (r : FileReads) (h : HashRun) : Prop where
  result : h.result = true ↔ r.opened = true ∧ r.failed = false
  hash : h.result = true → h.szHashOut = sha256Hex (FIPS180.sha256 r.content)
  hex : h.result = true → h.szHashOut.length = 64 ∧ ∀ c ∈ h.szHashOut, c ∈ "0123456789abcdef".toList
  closed : h.result = false → h.szHashOut = [] ∧ (progress = true → h.published.getLast? = some 0)
  range : ∀ x ∈ h.published, 0 ≤ x ∧ x ≤ 100
  increasing : h.published.dropLast.Pairwise (· ≤ ·)
  final : progress = true → (h.published.getLast? = some 100 ↔ h.result = true)

theorem readBlock_ctx (progress : Bool) (fileSize : Int64) (s : HashLoop) (b : FileBlock) :
    (readBlock progress fileSize s b).ctx = sha256Update s.ctx b.1 (UInt32.ofNat b.1.length) := by
  unfold readBlock
  dsimp only
  split
  · split <;> rfl
  · rfl

theorem foldl_readBlock_ctx (progress : Bool) (fileSize : Int64) (blocks : List FileBlock)
    (s : HashLoop) : (blocks.foldl (readBlock progress fileSize) s).ctx =
      (blocks.map (·.1)).foldl (fun ctx c => sha256Update ctx c (UInt32.ofNat c.length)) s.ctx := by
  induction blocks generalizing s with
  | nil => rfl
  | cons b blocks ih => rw [List.foldl_cons, ih, readBlock_ctx, List.map_cons, List.foldl_cons]

/-- However the file is cut into blocks, the hash is that of the content. -/
theorem hash_of_blocks (ctx : SHA256CTX) (progress : Bool) (r : FileReads) :
    sha256Final (r.blocks.foldl (readBlock progress r.fileSize) (startLoop ctx progress)).ctx =
      FIPS180.sha256 r.content := by
  rw [foldl_readBlock_ctx]
  refine final_updates ctx _ fun c hc => ?_
  obtain ⟨b, -, rfl⟩ := List.mem_map.mp hc
  have := b.2.2
  omega

/-- The percentage of `n` bytes of `size` is computed without wrapping. -/
def Fits (size n : Nat) : Prop := n * 100 < 2 ^ 64 ∧ n * 100 / size < 2 ^ 31

theorem Fits.mono {size m n : Nat} (h : Fits size n) (hmn : m ≤ n) : Fits size m :=
  ⟨(Nat.mul_le_mul_right 100 hmn).trans_lt h.1,
    (Nat.div_le_div_right (Nat.mul_le_mul_right 100 hmn)).trans_lt h.2⟩

def shownPercent (size n : Nat) : Nat := min (n * 100 / size) 100

theorem shownPercent_mono {size m n : Nat} (hmn : m ≤ n) : shownPercent size m ≤ shownPercent size n := by
  have hdiv : m * 100 / size ≤ n * 100 / size := Nat.div_le_div_right (Nat.mul_le_mul_right 100 hmn)
  rw [shownPercent, shownPercent]
  omega

/-- The quotient as the code computes it, in 64 bits. -/
theorem quotient_toNat {total : UInt64} {fileSize : Int64} {size : Nat}
    (hsize : fileSize.toUInt64.toNat = size) :
    (total * 100 / fileSize.toUInt64).toNat = total.toNat * 100 % 2 ^ 64 / size := by
  rw [UInt64.toNat_div, UInt64.toNat_mul, hsize]
  rfl

theorem ofNat_toInt {q : Nat} (hq : q < 2 ^ 32) :
    (Int32.ofNat q).toInt = if q < 2 ^ 31 then (q : Int) else (q : Int) - 2 ^ 32 := by
  have hcast : (Int32.ofNat q).toInt = (q : Int).bmod (2 ^ 32) := Int32.toInt_ofNat'
  rw [hcast, Int.bmod_def]
  split <;> split <;> omega

theorem percent_toInt {total : UInt64} {fileSize : Int64} {size q : Nat}
    (hsize : fileSize.toUInt64.toNat = size) (hq : total.toNat * 100 % 2 ^ 64 / size = q)
    (hlt : q < 2 ^ 32) : (percent total fileSize).toInt =
      if q < 2 ^ 31 then ((min q 100 : Nat) : Int) else (q : Int) - 2 ^ 32 := by
  have hhundred : (100 : Int32).toInt = 100 := rfl
  have hover : Int32.ofNat q > 100 ↔ 100 < (Int32.ofNat q).toInt := by
    rw [gt_iff_lt, Int32.lt_iff_toInt_lt, hhundred]
  rw [percent, quotient_toNat hsize, hq]
  by_cases hbig : Int32.ofNat q > 100
  · rw [if_pos hbig, hhundred]
    rw [hover, ofNat_toInt hlt] at hbig
    split at hbig
    · next hsmall =>
      rw [if_pos hsmall]
      omega
    · omega
  · rw [if_neg hbig, ofNat_toInt hlt]
    rw [hover, ofNat_toInt hlt] at hbig
    split
    · next hsmall =>
      rw [if_pos hsmall] at hbig
      omega
    · rfl

theorem percent_of_fits {total : UInt64} {fileSize : Int64} {size : Nat}
    (hsize : fileSize.toUInt64.toNat = size) (hfits : Fits size total.toNat) :
    (percent total fileSize).toInt = shownPercent size total.toNat := by
  rw [percent_toInt hsize (by rw [Nat.mod_eq_of_lt hfits.1]) (by have := hfits.2; omega),
    if_pos hfits.2, shownPercent]

/-- After `n` bytes, none of them too many. -/
structure Tracks (size n : Nat) (s : HashLoop) : Prop where
  fits : Fits size n
  total : s.bytesReadTotal.toNat = n
  last : s.lastPercent.toInt = if n = 0 then -1 else (shownPercent size n : Int)
  seen : 0 < n → s.lastPercent ∈ s.published
  bounds : ∀ x ∈ s.published, 0 ≤ x.toInt ∧ x.toInt ≤ shownPercent size n
  sorted : s.published.Pairwise (· ≤ ·)

/-- What the dialog should see until the outcome is known. -/
def Steady (l : List Int32) : Prop := (∀ x ∈ l, 0 ≤ x ∧ x ≤ 100) ∧ l.Pairwise (· ≤ ·)

theorem Tracks.steady {size n : Nat} {s : HashLoop} (h : Tracks size n s) : Steady s.published := by
  refine ⟨fun x hx => ?_, h.sorted⟩
  obtain ⟨hlow, hhigh⟩ := h.bounds x hx
  have hle : shownPercent size n ≤ 100 := Nat.min_le_right _ _
  have hzero : (0 : Int32).toInt = 0 := rfl
  have hhundred : (100 : Int32).toInt = 100 := rfl
  rw [Int32.le_iff_toInt_le, Int32.le_iff_toInt_le, hzero, hhundred]
  omega

theorem tracks_startLoop (ctx : SHA256CTX) (size : Nat) : Tracks size 0 (startLoop ctx true) := by
  refine ⟨⟨by decide, ?_⟩, rfl, rfl, fun h => absurd h (by decide), fun x hx => ?_, ?_⟩
  · rw [Nat.zero_mul, Nat.zero_div]
    decide
  · rw [List.mem_singleton.mp hx]
    exact ⟨le_rfl, Int.natCast_nonneg _⟩
  · exact List.pairwise_singleton _ _

theorem readBlock_total {size n : Nat} {s : HashLoop} (h : Tracks size n s) (b : FileBlock)
    (hlt : n + b.1.length < 2 ^ 64) :
    (s.bytesReadTotal + UInt64.ofNat b.1.length).toNat = n + b.1.length := by
  have hlen := b.2.2
  rw [UInt64.toNat_add, UInt64.toNat_ofNat', h.total]
  omega

theorem readBlock_eq {fileSize : Int64} (hpos : 0 < fileSize) (s : HashLoop) (b : FileBlock) :
    (readBlock true fileSize s b).bytesReadTotal = s.bytesReadTotal + UInt64.ofNat b.1.length ∧
    (readBlock true fileSize s b).lastPercent =
      percent (s.bytesReadTotal + UInt64.ofNat b.1.length) fileSize ∧
    (readBlock true fileSize s b).published = s.published ++
      if percent (s.bytesReadTotal + UInt64.ofNat b.1.length) fileSize = s.lastPercent then []
      else [percent (s.bytesReadTotal + UInt64.ofNat b.1.length) fileSize] := by
  have hgo : (true && decide (fileSize > 0)) = true := by
    rw [Bool.true_and]
    exact decide_eq_true hpos
  unfold readBlock
  dsimp only
  rw [if_pos hgo]
  by_cases heq : percent (s.bytesReadTotal + UInt64.ofNat b.1.length) fileSize = s.lastPercent
  · rw [if_neg (not_not.mpr heq), if_pos heq, List.append_nil]
    exact ⟨rfl, heq.symm, rfl⟩
  · rw [if_pos heq, if_neg heq]
    exact ⟨rfl, rfl, rfl⟩

/-- A block that is not too many: its percentage is the one that should be seen. -/
theorem Tracks.readBlock {size n : Nat} {s : HashLoop} {fileSize : Int64} (h : Tracks size n s)
    (hpos : 0 < fileSize) (hsize : fileSize.toUInt64.toNat = size) (b : FileBlock)
    (hfits : Fits size (n + b.1.length)) :
    Tracks size (n + b.1.length) (readBlock true fileSize s b) := by
  have hlen := b.2.1
  have hlt : n + b.1.length < 2 ^ 64 := by
    have := hfits.1
    omega
  have htotal := readBlock_total h b hlt
  have hpct := percent_of_fits hsize (htotal.symm ▸ hfits)
  have hmono : shownPercent size n ≤ shownPercent size (n + b.1.length) :=
    shownPercent_mono (Nat.le_add_right _ _)
  obtain ⟨hread, hlast, hpublished⟩ := readBlock_eq hpos s b
  rw [htotal] at hpct
  refine ⟨hfits, hread ▸ htotal, ?_, fun _ => ?_, fun x hx => ?_, ?_⟩
  · rw [hlast, hpct, if_neg (by omega)]
  · rw [hlast, hpublished]
    by_cases heq : percent (s.bytesReadTotal + UInt64.ofNat b.1.length) fileSize = s.lastPercent
    · -- nothing is stored for the first block only if it shows -1
      have hn : 0 < n := by
        by_contra hn
        have hminus := h.last
        rw [if_pos (by omega), ← heq, hpct] at hminus
        omega
      rw [heq]
      exact List.mem_append_left _ (h.seen hn)
    · rw [if_neg heq]
      exact List.mem_append_right _ List.mem_cons_self
  · rw [hpublished] at hx
    obtain hx | hx := List.mem_append.mp hx
    · have := h.bounds x hx
      omega
    · split at hx
      · cases hx
      · rw [List.mem_singleton.mp hx, hpct]
        omega
  · rw [hpublished, List.pairwise_append]
    refine ⟨h.sorted, ?_, fun x hx y hy => ?_⟩
    · split
      · exact List.Pairwise.nil
      · exact List.pairwise_singleton _ _
    · split at hy
      · cases hy
      · have := h.bounds x hx
        rw [List.mem_singleton.mp hy, Int32.le_iff_toInt_le, hpct]
        omega

/-- A block too many shows a percentage that wrapped: below zero where the LONG is
too small, and zero after 100 where 64 bits are. -/
theorem Tracks.wraps {size n : Nat} {s : HashLoop} {fileSize : Int64} (h : Tracks size n s)
    (hpos : 0 < fileSize) (hsize : fileSize.toUInt64.toNat = size) (hlo : 0 < size)
    (hhi : size < 2 ^ 57) (b : FileBlock) (hover : ¬ Fits size (n + b.1.length)) :
    ¬ Steady (FileHash.readBlock true fileSize s b).published := by
  have hlen := b.2.2
  obtain ⟨hbits, hquotient⟩ := h.fits
  rw [Nat.div_lt_iff_lt_mul hlo] at hquotient
  have htotal := readBlock_total h b (by omega)
  obtain ⟨-, -, hpublished⟩ := readBlock_eq hpos s b
  have hlast : -1 ≤ s.lastPercent.toInt := by
    rw [h.last]
    split <;> omega
  rintro ⟨hrange, hsorted⟩
  rw [hpublished] at hrange hsorted
  by_cases hlong : (n + b.1.length) * 100 < 2 ^ 64
  · have hbig : ¬ (n + b.1.length) * 100 / size < 2 ^ 31 := fun hsmall => hover ⟨hlong, hsmall⟩
    have hbound : (n + b.1.length) * 100 / size < 2 ^ 31 + 6553600 := by
      rw [Nat.div_lt_iff_lt_mul hlo]
      omega
    have hpct := percent_toInt hsize (by rw [htotal, Nat.mod_eq_of_lt hlong])
      (by omega : (n + b.1.length) * 100 / size < 2 ^ 32)
    rw [if_neg hbig] at hpct
    have hne : percent (s.bytesReadTotal + UInt64.ofNat b.1.length) fileSize ≠ s.lastPercent := by
      intro heq
      rw [← heq] at hlast
      omega
    rw [if_neg hne] at hrange
    have hzero := (hrange _ (List.mem_append_right _ List.mem_cons_self)).1
    rw [Int32.le_iff_toInt_le, hpct] at hzero
    have : (0 : Int32).toInt = 0 := rfl
    omega
  · have hsmall : (n + b.1.length) * 100 % 2 ^ 64 / size = 0 := by
      rw [Nat.mod_eq_sub_mod (by omega), Nat.mod_eq_of_lt (by omega)]
      exact Nat.div_eq_of_lt (by omega)
    have hpct := percent_toInt hsize (by rw [htotal, hsmall]) (by decide : 0 < 2 ^ 32)
    have hpct : (percent (s.bytesReadTotal + UInt64.ofNat b.1.length) fileSize).toInt = 0 := hpct
    have hfull : 100 ≤ n * 100 / size := by
      rw [Nat.le_div_iff_mul_le hlo]
      omega
    have hhundred : s.lastPercent.toInt = 100 := by
      rw [h.last, if_neg (by omega), shownPercent, Nat.min_eq_right hfull]
      rfl
    have hne : percent (s.bytesReadTotal + UInt64.ofNat b.1.length) fileSize ≠ s.lastPercent := by
      intro heq
      rw [heq] at hpct
      omega
    rw [if_neg hne, List.pairwise_append] at hsorted
    have hle := hsorted.2.2 _ (h.seen (by omega)) _ List.mem_cons_self
    rw [Int32.le_iff_toInt_le, hpct] at hle
    omega

theorem published_grows_block (progress : Bool) (fileSize : Int64) (s : HashLoop)
    (b : FileBlock) : s.published <+: (readBlock progress fileSize s b).published := by
  unfold readBlock
  dsimp only
  split
  · split
    · exact List.prefix_append _ _
    · exact List.prefix_rfl
  · exact List.prefix_rfl

theorem published_grows (progress : Bool) (fileSize : Int64) (blocks : List FileBlock)
    (s : HashLoop) :
    s.published <+: (blocks.foldl (readBlock progress fileSize) s).published := by
  induction blocks generalizing s with
  | nil => exact List.prefix_rfl
  | cons b blocks ih => exact (published_grows_block progress fileSize s b).trans (ih _)

theorem Steady.of_prefix {l l' : List Int32} (h : Steady l') (hl : l <+: l') : Steady l :=
  ⟨fun x hx => h.1 x (hl.subset hx), h.2.sublist hl.sublist⟩

/-- The progress is steady as long as no block is too many. -/
theorem Tracks.steady_iff {size n : Nat} {s : HashLoop} {fileSize : Int64} (h : Tracks size n s)
    (hpos : 0 < fileSize) (hsize : fileSize.toUInt64.toNat = size) (hlo : 0 < size)
    (hhi : size < 2 ^ 57) (blocks : List FileBlock) :
    Steady (blocks.foldl (FileHash.readBlock true fileSize) s).published ↔
      Fits size (n + (blocks.map (·.1)).flatten.length) := by
  induction blocks generalizing n s with
  | nil => exact iff_of_true h.steady h.fits
  | cons b blocks ih =>
    rw [List.foldl_cons, List.map_cons, List.flatten_cons, List.length_append, ← Nat.add_assoc]
    by_cases hfits : Fits size (n + b.1.length)
    · exact ih (h.readBlock hpos hsize b hfits)
    · exact iff_of_false
        (fun hsteady => h.wraps hpos hsize hlo hhi b hfits
          (hsteady.of_prefix (published_grows true fileSize blocks _)))
        fun hall => hfits (hall.mono (Nat.le_add_right _ _))

/-- Without a size or without a progress pointer the loop stores nothing. -/
theorem published_unsized {progress : Bool} {fileSize : Int64}
    (h : progress = true → ¬ 0 < fileSize) (blocks : List FileBlock) (s : HashLoop) :
    (blocks.foldl (readBlock progress fileSize) s).published = s.published := by
  have hoff : ¬ (progress && decide (fileSize > 0)) = true := by
    rw [Bool.and_eq_true, decide_eq_true_iff]
    exact fun ⟨hprogress, hpos⟩ => h hprogress hpos
  induction blocks generalizing s with
  | nil => rfl
  | cons b blocks ih =>
    rw [List.foldl_cons, ih]
    unfold readBlock
    dsimp only
    rw [if_neg hoff]

theorem loop_steady_iff (ctx : SHA256CTX) (progress : Bool) (r : FileReads)
    (hsize : r.fileSize.toInt < 2 ^ 57) :
    Steady (r.blocks.foldl (readBlock progress r.fileSize) (startLoop ctx progress)).published ↔
      (progress = true → 0 < r.fileSize → Fits r.fileSize.toInt.toNat r.content.length) := by
  by_cases hgo : progress = true ∧ 0 < r.fileSize
  · obtain ⟨rfl, hpos⟩ := hgo
    have hpos' : 0 < r.fileSize.toInt := Int64.lt_iff_toInt_lt.mp hpos
    have hunsigned : r.fileSize.toUInt64.toNat = r.fileSize.toInt.toNat :=
      Int64.toNat_toUInt64_of_le (Int64.le_of_lt hpos)
    have hiff := (tracks_startLoop ctx r.fileSize.toInt.toNat).steady_iff hpos hunsigned (by omega)
      (by omega) r.blocks
    rw [Nat.zero_add] at hiff
    exact hiff.trans ⟨fun h _ _ => h, fun h => h rfl hpos⟩
  · have hoff : progress = true → ¬ 0 < r.fileSize := fun hprogress hpos => hgo ⟨hprogress, hpos⟩
    rw [published_unsized hoff]
    refine iff_of_true ⟨?_, ?_⟩ fun hprogress hpos => absurd hpos (hoff hprogress)
    · cases progress
      · exact nofun
      · intro x hx
        rw [List.mem_singleton.mp hx]
        decide
    · cases progress
      · exact List.Pairwise.nil
      · exact List.pairwise_singleton _ _

theorem result_iff (ctx : SHA256CTX) (progress : Bool) (r : FileReads) :
    (computeFileSHA256 ctx progress r).result = true ↔ r.opened = true ∧ r.failed = false := by
  unfold computeFileSHA256
  cases r.opened <;> cases r.failed <;> simp

theorem published_opened (ctx : SHA256CTX) (progress : Bool) {r : FileReads} (h : r.opened = true) :
    (computeFileSHA256 ctx progress r).published =
      store progress (r.blocks.foldl (readBlock progress r.fileSize) (startLoop ctx progress)).published
        (if r.failed then 0 else 100) := by
  unfold computeFileSHA256
  rw [h]
  cases r.failed <;> rfl

theorem computeFileSHA256_hash {ctx : SHA256CTX} {progress : Bool} {r : FileReads}
    (h : (computeFileSHA256 ctx progress r).result = true) :
    (computeFileSHA256 ctx progress r).szHashOut = sha256Hex (FIPS180.sha256 r.content) := by
  obtain ⟨hopened, hfailed⟩ := (result_iff ctx progress r).mp h
  have hhash := congrArg sha256Hex (hash_of_blocks ctx progress r)
  unfold computeFileSHA256
  rw [hopened, hfailed]
  exact hhash

theorem mem_push_toList {acc₁ : Array α} {acc₂ : Array (List α)} {n : Nat} (hacc : acc₁.size ≤ n)
    (hfull : ∀ c ∈ acc₂.toList, c.length ≤ n) :
    ∀ c ∈ (acc₂.push acc₁.toList).toList, c.length ≤ n := by
  intro c hc
  rw [Array.toList_push] at hc
  obtain hc | hc := List.mem_append.mp hc
  · exact hfull c hc
  · rw [List.mem_singleton.mp hc, Array.length_toList]
    exact hacc

theorem toChunks_go {n : Nat} (hn : 0 < n) (xs : List α) (acc₁ : Array α) (acc₂ : Array (List α))
    (hacc : acc₁.size ≤ n) (hfull : ∀ c ∈ acc₂.toList, c.length ≤ n) :
    (List.toChunks.go n xs acc₁ acc₂).flatten = acc₂.toList.flatten ++ acc₁.toList ++ xs ∧
      ∀ c ∈ List.toChunks.go n xs acc₁ acc₂, c.length ≤ n := by
  induction xs generalizing acc₁ acc₂ with
  | nil => exact ⟨by simp [List.toChunks.go], mem_push_toList hacc hfull⟩
  | cons x xs ih =>
    rw [List.toChunks.go]
    split
    · obtain ⟨heq, hlen⟩ := ih #[x] (acc₂.push acc₁.toList) hn (mem_push_toList hacc hfull)
      exact ⟨heq.trans (by simp), hlen⟩
    · next hroom =>
      have hlt : acc₁.size ≠ n := fun h => hroom (beq_iff_eq.mpr h)
      obtain ⟨heq, hlen⟩ := ih (acc₁.push x) acc₂ (by rw [Array.size_push]; omega) hfull
      exact ⟨heq.trans (by simp), hlen⟩

/-- Chunks of at most `n + 1` elements that make up the list. -/
theorem toChunks_spec (n : Nat) (xs : List α) : (xs.toChunks (n + 1)).flatten = xs ∧
    ∀ c ∈ xs.toChunks (n + 1), c.length ≤ n + 1 := by
  cases xs with
  | nil => exact ⟨rfl, nofun⟩
  | cons x xs =>
    obtain ⟨heq, hlen⟩ := toChunks_go (Nat.succ_pos n) xs #[x] #[] (Nat.le_add_left 1 n) nofun
    exact ⟨heq, hlen⟩

theorem computeFileSHA256_closed {ctx : SHA256CTX} {progress : Bool} {r : FileReads}
    (h : (computeFileSHA256 ctx progress r).result = false) :
    (computeFileSHA256 ctx progress r).szHashOut = [] ∧
      (progress = true → (computeFileSHA256 ctx progress r).published.getLast? = some 0) := by
  unfold computeFileSHA256 at h ⊢
  cases hopened : r.opened with
  | false =>
    refine ⟨rfl, fun hprogress => ?_⟩
    rw [hprogress]
    rfl
  | true =>
    cases hfailed : r.failed with
    | false => simp [hopened, hfailed] at h
    | true =>
      refine ⟨rfl, fun hprogress => ?_⟩
      rw [hprogress]
      exact List.getLast?_concat

theorem sha256Hex_digit {hash : List UInt8} {c : Char} (h : c ∈ sha256Hex hash) :
    c ∈ "0123456789abcdef".toList := by
  obtain ⟨n, hn, rfl⟩ := mem_sha256Hex h
  have hall : ((List.range 16).all fun n => "0123456789abcdef".toList.contains (Nat.digitChar n)) =
      true := by decide
  have hdigit := List.all_eq_true.mp hall n (List.mem_range.mpr hn)
  exact List.contains_iff_mem.mp hdigit

/-- All but the progress is right on every input. -/
theorem faithful_iff_progress (ctx : SHA256CTX) (progress : Bool) (r : FileReads) :
    Faithful progress r (computeFileSHA256 ctx progress r) ↔
      (∀ x ∈ (computeFileSHA256 ctx progress r).published, 0 ≤ x ∧ x ≤ 100) ∧
      (computeFileSHA256 ctx progress r).published.dropLast.Pairwise (· ≤ ·) ∧
      (progress = true → ((computeFileSHA256 ctx progress r).published.getLast? = some 100 ↔
        (computeFileSHA256 ctx progress r).result = true)) := by
  refine ⟨fun h => ⟨h.range, h.increasing, h.final⟩, fun ⟨hrange, hincreasing, hfinal⟩ =>
    ⟨result_iff ctx progress r, computeFileSHA256_hash, fun h => ?_, computeFileSHA256_closed,
      hrange, hincreasing, hfinal⟩⟩
  rw [computeFileSHA256_hash h]
  refine ⟨?_, fun c hc => sha256Hex_digit hc⟩
  rw [sha256Hex_length]
  rfl

/-- Before the outcome is known the progress is what the loop stored. -/
theorem faithful_iff_steady (ctx : SHA256CTX) {r : FileReads} (hopened : r.opened = true) :
    Faithful true r (computeFileSHA256 ctx true r) ↔
      Steady (r.blocks.foldl (readBlock true r.fileSize) (startLoop ctx true)).published := by
  have hend : 0 ≤ (if r.failed = true then 0 else 100 : Int32) ∧
      (if r.failed = true then 0 else 100 : Int32) ≤ 100 := by
    split <;> decide
  have houtcome : some (if r.failed = true then 0 else 100 : Int32) = some 100 ↔
      true = true ∧ r.failed = false := by
    cases r.failed <;> decide
  have hdrop (l : List Int32) (x : Int32) : (store true l x).dropLast = l := List.dropLast_concat
  have hlast (l : List Int32) (x : Int32) : (store true l x).getLast? = some x :=
    List.getLast?_concat
  rw [faithful_iff_progress, result_iff, published_opened ctx true hopened, hdrop, hlast, hopened]
  constructor
  · rintro ⟨hrange, hincreasing, -⟩
    exact ⟨fun x hx => hrange x (List.mem_append_left _ hx), hincreasing⟩
  · rintro ⟨hrange, hincreasing⟩
    refine ⟨fun x hx => ?_, hincreasing, fun _ => houtcome⟩
    obtain hx | hx := List.mem_append.mp hx
    · exact hrange x hx
    · rw [List.mem_singleton.mp hx]
      exact hend

theorem faithful_unopened (ctx : SHA256CTX) (progress : Bool) {r : FileReads}
    (hopened : r.opened = false) : Faithful progress r (computeFileSHA256 ctx progress r) := by
  have hpublished : (computeFileSHA256 ctx progress r).published = store progress [] 0 := by
    unfold computeFileSHA256
    rw [hopened]
    rfl
  rw [faithful_iff_progress, result_iff, hpublished, hopened]
  cases progress with
  | false => exact ⟨nofun, List.Pairwise.nil, nofun⟩
  | true =>
    refine ⟨fun x hx => ?_, List.Pairwise.nil, fun _ => iff_of_false (by decide) nofun⟩
    rw [List.mem_singleton.mp hx]
    decide

theorem faithful_unpublished (ctx : SHA256CTX) (r : FileReads) :
    Faithful false r (computeFileSHA256 ctx false r) := by
  have hpublished : (computeFileSHA256 ctx false r).published = [] := by
    unfold computeFileSHA256
    dsimp only
    have hnone : (r.blocks.foldl (readBlock false r.fileSize) (startLoop ctx false)).published = [] :=
      published_unsized (fun h => absurd h Bool.false_ne_true) r.blocks _
    rw [hnone]
    split
    · rfl
    · split <;> rfl
  rw [faithful_iff_progress, hpublished]
  exact ⟨nofun, List.Pairwise.nil, nofun⟩

/-- Hashing a file is faithful unless a percentage wraps. -/
theorem hashing_faithful_iff (ctx : SHA256CTX) (progress : Bool) (r : FileReads)
    (hsize : r.fileSize.toInt < 2 ^ 57) :
    Faithful progress r (computeFileSHA256 ctx progress r) ↔
      (progress = true → r.opened = true → 0 < r.fileSize →
        Fits r.fileSize.toInt.toNat r.content.length) := by
  cases progress with
  | false => exact iff_of_true (faithful_unpublished ctx r) nofun
  | true =>
    cases hopened : r.opened with
    | false => exact iff_of_true (faithful_unopened ctx true hopened) nofun
    | true =>
      rw [faithful_iff_steady ctx hopened, loop_steady_iff ctx true r hsize]
      exact ⟨fun h _ _ => h rfl, fun h _ => h rfl rfl⟩

/-- Three bytes of a file of that size. -/
def abcFile : FileReads := ⟨true, some 3, [⟨[0x61, 0x62, 0x63], by decide⟩], false⟩

theorem abcFile_faithful : Faithful true abcFile (computeFileSHA256 blankContext true abcFile) := by
  refine (hashing_faithful_iff blankContext true abcFile (by decide)).mpr fun _ _ _ => ?_
  unfold Fits
  decide

def zeroBlock : FileBlock := ⟨List.replicate 65536 0, by
  rw [List.length_replicate]
  decide⟩

/-- Read to 21495808 bytes, when its size was given as one byte. -/
def outgrownFile : FileReads := ⟨true, some 1, List.replicate 328 zeroBlock, false⟩

theorem outgrownFile_length : outgrownFile.content.length = 21495808 := by
  have hblock : zeroBlock.1.length = 65536 := List.length_replicate
  rw [FileReads.content, outgrownFile, List.map_replicate, List.length_flatten, List.map_replicate,
    hblock, List.sum_replicate_nat]

/-- The last percentage wraps to a number below zero, which is not limited. -/
theorem outgrownFile_unfaithful : percent 21495808 outgrownFile.fileSize = -2145386496 ∧
    ¬ Faithful true outgrownFile (computeFileSHA256 blankContext true outgrownFile) := by
  refine ⟨by decide, fun h => ?_⟩
  have hsteady := (faithful_iff_steady blankContext rfl).mp h
  have hfits := (loop_steady_iff blankContext true outgrownFile (by decide)).mp hsteady rfl (by decide)
  rw [outgrownFile_length] at hfits
  exact absurd hfits.2 (by decide)

end FileHash

end WinDV
