import Mathlib.Data.Int.Basic
import Mathlib.Tactic.Linarith

/-! The memory of the samples: what `DecideBufferSize` asks for, what
`CMemAllocator::SetProperties` makes of it and how `Alloc` divides the block. A
LONG wraps, and so may the sums. -/

namespace WinDV

/-- `CInputGraph::GetMediaType`: the sample size of the queue and of every
output graph, from the one that was negotiated. -/
def sampleSize (l : UInt32) : UInt32 := if l.toInt32 < 144000 then 144000 else l

structure AllocatorProperties where
  cBuffers : Int32
  cbBuffer : Int32
  cbAlign : Int32
  cbPrefix : Int32
  deriving DecidableEq, Repr

/-- `COutputPin::DecideBufferSize` on the request of the downstream pin. The
buffer sizes are compared as unsigned numbers. -/
def decideBufferSize (lSampleSize : UInt32) (queue : Int32) (r : AllocatorProperties) :
    AllocatorProperties :=
  let queue := if queue > 1 then queue else 1
  { cbAlign := if r.cbAlign < 1 then 1 else r.cbAlign
    cbBuffer := if r.cbBuffer.toUInt32 < lSampleSize then lSampleSize.toInt32 else r.cbBuffer
    cBuffers := if r.cBuffers < queue then queue else r.cBuffers
    cbPrefix := r.cbPrefix }

/-- The sizes that an allocator works with. -/
structure SampleLayout where
  lSize : Int32
  lCount : Int32
  lAlignment : Int32
  lPrefix : Int32
  deriving DecidableEq, Repr

/-- `SetProperties`; `none` for an alignment that does not suit the system. -/
def SampleLayout.setProperties (dwAllocationGranularity : UInt32) (r : AllocatorProperties) :
    Option SampleLayout :=
  if r.cbAlign = 0 ∨ dwAllocationGranularity &&& (r.cbAlign - 1).toUInt32 ≠ 0 then none
  else
    let lSize := r.cbBuffer + r.cbPrefix
    let lRemainder := lSize % r.cbAlign
    let lSize := if lRemainder ≠ 0 then lSize - lRemainder + r.cbAlign else lSize
    some ⟨lSize - r.cbPrefix, r.cBuffers, r.cbAlign, r.cbPrefix⟩

/-- The block, and the samples in it: `lAlignedSize` from one to the next. -/
structure SampleBlock where
  size : Int
  lAlignedSize : Int32
  layout : SampleLayout
  deriving DecidableEq, Repr

/-- The size with its prefix, rounded up; `none` where that wraps. -/
def alignSize (lAlignedSize lAlignment : Int32) : Option Int32 :=
  if lAlignment > 1 then
    let lRemainder := lAlignedSize % lAlignment
    if lRemainder ≠ 0 then
      let lNewSize := lAlignedSize + lAlignment - lRemainder
      if lNewSize < lAlignedSize then none else some lNewSize
    else some lAlignedSize
  else some lAlignedSize

/-- `Alloc`, where there is memory for the block. -/
def SampleLayout.alloc (p : SampleLayout) : Option SampleBlock :=
  if p.lCount ≤ 0 ∨ p.lSize ≤ 0 ∨ p.lAlignment ≤ 0 then none
  else if p.lSize < 0 ∨ p.lPrefix < 0 ∨ p.lCount < 0 then none
  else if p.lSize + p.lPrefix < p.lSize then none
  else
    (alignSize (p.lSize + p.lPrefix) p.lAlignment).bind fun lAlignedSize =>
      let lToAllocate := p.lCount.toInt * lAlignedSize.toInt
      if lToAllocate > 2 ^ 31 - 1 then none else some ⟨lToAllocate, lAlignedSize, p⟩

namespace SampleBlock

def lCount (b : SampleBlock) : Nat := b.layout.lCount.toInt.toNat

def cbBuffer (b : SampleBlock) : Nat := b.layout.lSize.toInt.toNat

/-- `GetPointer` of sample `i`, from the beginning of the block. -/
def pointer (b : SampleBlock) (i : Nat) : Nat :=
  i * b.lAlignedSize.toInt.toNat + b.layout.lPrefix.toInt.toNat

end SampleBlock

/-- An operation that leaves the range is off by 2^32. -/
theorem bmod_cases (x : Int) (hlow : -2 ^ 32 ≤ x) (hhigh : x < 2 ^ 32) :
    (-2 ^ 31 ≤ x ∧ x < 2 ^ 31 ∧ x.bmod (2 ^ 32) = x) ∨
      (2 ^ 31 ≤ x ∧ x.bmod (2 ^ 32) = x - 2 ^ 32) ∨
      (x < -2 ^ 31 ∧ x.bmod (2 ^ 32) = x + 2 ^ 32) := by
  rw [Int.bmod_def]
  split <;> omega

theorem add_cases (a b : Int32) :
    (-2 ^ 31 ≤ a.toInt + b.toInt ∧ a.toInt + b.toInt < 2 ^ 31 ∧ (a + b).toInt = a.toInt + b.toInt) ∨
      (2 ^ 31 ≤ a.toInt + b.toInt ∧ (a + b).toInt = a.toInt + b.toInt - 2 ^ 32) ∨
      (a.toInt + b.toInt < -2 ^ 31 ∧ (a + b).toInt = a.toInt + b.toInt + 2 ^ 32) := by
  have ha := a.le_toInt
  have ha' := a.toInt_lt
  have hb := b.le_toInt
  have hb' := b.toInt_lt
  rw [Int32.toInt_add]
  exact bmod_cases _ (by omega) (by omega)

theorem sub_cases (a b : Int32) :
    (-2 ^ 31 ≤ a.toInt - b.toInt ∧ a.toInt - b.toInt < 2 ^ 31 ∧ (a - b).toInt = a.toInt - b.toInt) ∨
      (2 ^ 31 ≤ a.toInt - b.toInt ∧ (a - b).toInt = a.toInt - b.toInt - 2 ^ 32) ∨
      (a.toInt - b.toInt < -2 ^ 31 ∧ (a - b).toInt = a.toInt - b.toInt + 2 ^ 32) := by
  have ha := a.le_toInt
  have ha' := a.toInt_lt
  have hb := b.le_toInt
  have hb' := b.toInt_lt
  rw [Int32.toInt_sub]
  exact bmod_cases _ (by omega) (by omega)

variable {p : SampleLayout} {b : SampleBlock} {r : AllocatorProperties}

theorem zero_toInt : (0 : Int32).toInt = 0 := rfl

theorem one_toInt : (1 : Int32).toInt = 1 := rfl

theorem rem_cases (a : Int32) {c : Int32} (ha : 0 ≤ a.toInt) (hc : 0 < c.toInt) :
    0 ≤ (a % c).toInt ∧ (a % c).toInt < c.toInt ∧ (a % c).toInt ≤ a.toInt ∧
      c.toInt ∣ a.toInt - (a % c).toInt := by
  rw [Int32.toInt_mod]
  refine ⟨Int.tmod_nonneg _ ha, Int.tmod_lt_of_pos _ hc, ?_, Int.dvd_self_sub_tmod⟩
  have hquot : 0 ≤ c.toInt * a.toInt.tdiv c.toInt := mul_nonneg hc.le (Int.tdiv_nonneg ha hc.le)
  rw [Int.tmod_def]
  omega

/-- A block that `Alloc` makes has room for all its samples. -/
structure SampleBlock.Roomy (b : SampleBlock) : Prop where
  lSize : 0 < b.layout.lSize.toInt
  lPrefix : 0 ≤ b.layout.lPrefix.toInt
  lCount : 0 < b.layout.lCount.toInt
  stride : b.layout.lSize.toInt + b.layout.lPrefix.toInt ≤ b.lAlignedSize.toInt
  aligned : b.layout.lAlignment.toInt ∣ b.lAlignedSize.toInt
  size : b.size = b.layout.lCount.toInt * b.lAlignedSize.toInt

namespace SampleBlock.Roomy

variable {i j : Nat}

theorem next_le (h : b.Roomy) (i : Nat) :
    b.pointer i + b.cbBuffer ≤ (i + 1) * b.lAlignedSize.toInt.toNat := by
  have hsize := h.lSize
  have hlead := h.lPrefix
  have hstride := h.stride
  rw [SampleBlock.pointer, SampleBlock.cbBuffer, Nat.succ_mul]
  omega

theorem inside (h : b.Roomy) (hi : i < b.lCount) : b.pointer i + b.cbBuffer ≤ b.size.toNat := by
  have hcount : (b.lCount : Int) = b.layout.lCount.toInt := Int.toNat_of_nonneg h.lCount.le
  have hstride : (b.lAlignedSize.toInt.toNat : Int) = b.lAlignedSize.toInt :=
    Int.toNat_of_nonneg (by have := h.lSize; have := h.lPrefix; have := h.stride; omega)
  have hall : b.size.toNat = b.lCount * b.lAlignedSize.toInt.toNat := by
    rw [h.size, ← hcount, ← hstride, ← Nat.cast_mul, Int.toNat_natCast, Int.toNat_natCast]
  rw [hall]
  exact (h.next_le i).trans (Nat.mul_le_mul_right _ hi)

theorem apart (h : b.Roomy) (hne : i ≠ j) :
    b.pointer i + b.cbBuffer ≤ b.pointer j ∨ b.pointer j + b.cbBuffer ≤ b.pointer i := by
  have hbefore {m n : Nat} (hlt : m < n) : b.pointer m + b.cbBuffer ≤ b.pointer n :=
    ((h.next_le m).trans (Nat.mul_le_mul_right _ hlt)).trans (Nat.le_add_right _ _)
  exact (Nat.lt_or_gt_of_ne hne).imp hbefore hbefore

end SampleBlock.Roomy

theorem alignSize_spec {a c n : Int32} (h : alignSize a c = some n) (ha : 0 ≤ a.toInt)
    (hc : 0 < c.toInt) : a.toInt ≤ n.toInt ∧ c.toInt ∣ n.toInt := by
  obtain ⟨hlow, hlt, hle, hdvd⟩ := rem_cases a ha hc
  have hcmax := c.toInt_lt
  unfold alignSize at h
  by_cases hone : c > 1
  · rw [if_pos hone] at h
    by_cases hrem : a % c ≠ 0
    · simp only [hrem, ne_eq, not_false_eq_true, if_true, Option.ite_none_left_eq_some,
        Option.some.injEq] at h
      obtain ⟨hnew, rfl⟩ := h
      rw [Int32.lt_iff_toInt_lt, not_lt] at hnew
      refine ⟨hnew, ?_⟩
      -- a sum that wrapped would be smaller
      have hexact : (a + c - a % c).toInt = a.toInt - (a % c).toInt + c.toInt := by
        rcases add_cases a c with hadd | hadd | hadd <;>
          rcases sub_cases (a + c) (a % c) with hsub | hsub | hsub <;> omega
      rw [hexact]
      exact Int.dvd_add hdvd (dvd_refl _)
    · rw [not_not] at hrem
      rw [if_neg (not_not.mpr hrem), Option.some.injEq] at h
      rw [hrem, zero_toInt, sub_zero] at hdvd
      rw [← h]
      exact ⟨le_rfl, hdvd⟩
  · rw [if_neg hone, Option.some.injEq] at h
    rw [gt_iff_lt, Int32.lt_iff_toInt_lt, one_toInt] at hone
    have hc1 : c.toInt = 1 := by omega
    rw [← h, hc1]
    exact ⟨le_rfl, one_dvd _⟩

theorem alloc_roomy (h : p.alloc = some b) : b.layout = p ∧ b.Roomy := by
  simp only [SampleLayout.alloc, Option.ite_none_left_eq_some, Option.bind_eq_some_iff,
    Int32.lt_iff_toInt_lt, Int32.le_iff_toInt_le, zero_toInt, Option.some.injEq] at h
  obtain ⟨hset, hvalues, hover, lAlignedSize, halign, -, rfl⟩ := h
  have hlead := p.lPrefix.toInt_lt
  have hsum : (p.lSize + p.lPrefix).toInt = p.lSize.toInt + p.lPrefix.toInt := by
    rcases add_cases p.lSize p.lPrefix with hc | hc | hc <;> omega
  obtain ⟨hle, hdvd⟩ := alignSize_spec halign (by omega) (by omega)
  refine ⟨rfl, ⟨?_, ?_, ?_, ?_, hdvd, rfl⟩⟩ <;> dsimp only <;> omega

/-- What `SetProperties` sets is what was asked for and more, or too much for
`Alloc`. -/
theorem setProperties_spec {g : UInt32} (h : SampleLayout.setProperties g r = some p)
    (hbuffer : 0 ≤ r.cbBuffer.toInt) (hlead : 0 ≤ r.cbPrefix.toInt) (halign : 0 < r.cbAlign.toInt)
    (hsum : r.cbBuffer.toInt + r.cbPrefix.toInt < 2 ^ 31) :
    p.lCount = r.cBuffers ∧ p.lAlignment = r.cbAlign ∧ p.lPrefix = r.cbPrefix ∧
      (r.cbBuffer.toInt ≤ p.lSize.toInt ∨ p.lSize.toInt ≤ 0 ∨
        2 ^ 31 ≤ p.lSize.toInt + p.lPrefix.toInt) := by
  simp only [SampleLayout.setProperties, Option.ite_none_left_eq_some, Option.some.injEq] at h
  obtain ⟨-, rfl⟩ := h
  refine ⟨rfl, rfl, rfl, ?_⟩
  dsimp only
  have hlSize : (r.cbBuffer + r.cbPrefix).toInt = r.cbBuffer.toInt + r.cbPrefix.toInt := by
    rcases add_cases r.cbBuffer r.cbPrefix with hc | hc | hc <;> omega
  generalize r.cbBuffer + r.cbPrefix = lSize at hlSize ⊢
  obtain ⟨hlow, hlt, hle, -⟩ := rem_cases lSize (c := r.cbAlign) (by omega) halign
  have hamax := r.cbAlign.toInt_lt
  split
  · have hsub : (lSize - lSize % r.cbAlign).toInt = lSize.toInt - (lSize % r.cbAlign).toInt := by
      rcases sub_cases lSize (lSize % r.cbAlign) with hc | hc | hc <;> omega
    rcases add_cases (lSize - lSize % r.cbAlign) r.cbAlign with hc | hc | hc <;>
      rcases sub_cases (lSize - lSize % r.cbAlign + r.cbAlign) r.cbPrefix with hd | hd | hd <;> omega
  · rcases sub_cases lSize r.cbPrefix with hd | hd | hd <;> omega

/-- A size that the driver reports as a LONG below zero is not taken for a large one. -/
theorem sampleSize_bounds (l : UInt32) :
    144000 ≤ (sampleSize l).toNat ∧ (sampleSize l).toNat < 2 ^ 31 ∧
      (sampleSize l).toInt32.toInt = (sampleSize l).toNat := by
  have hlt : (144000 : Int32).toInt = 144000 := rfl
  have hcast (x : UInt32) : x.toInt32.toInt = (x.toNat : Int).bmod (2 ^ 32) := by
    rw [← Int32.toInt_toBitVec, UInt32.toBitVec_toInt32, BitVec.toInt_eq_toNat_bmod,
      UInt32.toNat_toBitVec]
  have hl := l.toNat_lt
  have hlcast := hcast l
  unfold sampleSize
  split
  · exact ⟨le_rfl, by decide, rfl⟩
  · next hno =>
    rw [Int32.lt_iff_toInt_lt, hlt] at hno
    rcases bmod_cases (l.toNat : Int) (by omega) (by omega) with hc | hc | hc <;> omega

theorem decideBufferSize_spec (l : UInt32) (queue : Int32) (hbuffer : 0 ≤ r.cbBuffer.toInt) :
    (decideBufferSize (sampleSize l) queue r).cbBuffer.toInt =
        max r.cbBuffer.toInt (sampleSize l).toNat ∧
      0 < (decideBufferSize (sampleSize l) queue r).cbAlign.toInt ∧
      (decideBufferSize (sampleSize l) queue r).cbPrefix = r.cbPrefix ∧
      queue.toInt ≤ (decideBufferSize (sampleSize l) queue r).cBuffers.toInt := by
  obtain ⟨-, -, hcast⟩ := sampleSize_bounds l
  have hunsigned : (r.cbBuffer.toUInt32.toNat : Int) = r.cbBuffer.toInt := by
    rw [Int32.toNat_toUInt32_of_le (Int32.le_iff_toInt_le.mpr hbuffer), ← Int32.toNat_toInt,
      Int.toNat_of_nonneg hbuffer]
  refine ⟨?_, ?_, rfl, ?_⟩ <;> simp only [decideBufferSize]
  · split
    · next hlt =>
      rw [UInt32.lt_iff_toNat_lt] at hlt
      omega
    · next hno =>
      rw [UInt32.lt_iff_toNat_lt] at hno
      omega
  · split
    · exact one_pos
    · next hno =>
      rw [Int32.lt_iff_toInt_lt, one_toInt] at hno
      omega
  · split <;> split <;> simp only [gt_iff_lt, Int32.lt_iff_toInt_lt, one_toInt] at * <;> omega

/-- The samples of an output graph, when the downstream pin asked for sizes that
are sizes: each takes a frame of the sample size. -/
theorem samples_take_frames {g l : UInt32} {queue : Int32}
    (hset : SampleLayout.setProperties g (decideBufferSize (sampleSize l) queue r) = some p)
    (halloc : p.alloc = some b) (hbuffer : 0 ≤ r.cbBuffer.toInt)
    (hsum : max r.cbBuffer.toInt (sampleSize l).toNat + r.cbPrefix.toInt < 2 ^ 31) :
    b.Roomy ∧ (sampleSize l).toNat ≤ b.cbBuffer ∧ queue.toInt ≤ b.lCount := by
  obtain ⟨hb, halign, hp, hcount⟩ := decideBufferSize_spec l queue hbuffer
  obtain ⟨rfl, hroomy⟩ := alloc_roomy halloc
  have hlead : b.layout.lPrefix = r.cbPrefix := by
    simp only [SampleLayout.setProperties, Option.ite_none_left_eq_some, Option.some.injEq] at hset
    rw [← hset.2, ← hp]
  have hlPrefix := hroomy.lPrefix
  rw [hlead] at hlPrefix
  obtain ⟨hset_count, -, -, hsize⟩ := setProperties_spec hset (by omega) (by rw [hp]; omega) halign
    (by rw [hb, hp]; omega)
  have hmax := b.lAlignedSize.toInt_lt
  have hstride := hroomy.stride
  have hlSize := hroomy.lSize
  refine ⟨hroomy, ?_, ?_⟩
  · rw [SampleBlock.cbBuffer]
    omega
  · rw [SampleBlock.lCount, Int.toNat_of_nonneg hroomy.lCount.le, hset_count]
    exact hcount

end WinDV
