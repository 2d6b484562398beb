import WinDV.ByteBlock
import WinDV.QueueFifo

/-! `CDVQueue` in its one block of memory: a slot is a `Buffer` of 16 bytes, of
which the first 12 hold the duration and the length, and the data runs on from
there over what was allocated behind it. Sizes are computed in 32 bits. -/

namespace WinDV

open RingBuffer

/-- `queue i` is the offset of slot `i` in the block. -/
structure FlatQueue where
  buffers : ByteBlock
  queue : Nat → Nat
  dataSize : Nat
  queueSize : Nat
  head : Nat
  tail : Nat
  load : Nat
  isEnd : Bool
  evPut : Bool
  evGet : Bool

namespace FlatQueue

/-- The constructor, with what the memory held before. -/
def new (queueSize dataSize : Nat) (memory : Nat → UInt8) : FlatQueue where
  buffers := ⟨(sizeofBuffer + dataSize) * (queueSize + 1) % 2 ^ 32, memory⟩
  queue := fun i => (sizeofBuffer + dataSize) * i % 2 ^ 32
  dataSize := dataSize
  queueSize := queueSize + 1
  head := 0
  tail := 0
  load := 0
  isEnd := false
  evPut := false
  evGet := false

/-- The locked section of `Put`; the inner `none` when the ring is full. -/
def putLocked (q : FlatQueue) (duration : Int64) (data : List UInt8) (len : Nat) :
    Option (Option FlatQueue) :=
  if q.load < q.queueSize - 1 then do
    let len := if len > q.dataSize then q.dataSize else len
    let slot := q.queue q.tail
    let b ← q.buffers.store ByteBlock.int64 slot duration
    let b ← b.store ByteBlock.int32 (slot + 8) (Int32.ofNat len)
    let b ← b.write (slot + 12) (data.take len)
    return some { q with
      buffers := b
      tail := (q.tail + 1) % q.queueSize
      load := q.load + 1
      evGet := true }
  else return none

/-- What `Get` hands out: the data by its offset. -/
structure Got where
  duration : Int64
  len : Int32
  data : Nat

/-- The locked section of `Get` and of `GetWithTimeout`; the inner `none` when
the ring is empty. -/
def getLocked (q : FlatQueue) : Option (Option (Got × FlatQueue)) :=
  if q.load > 0 then do
    let slot := q.queue q.head
    let duration ← q.buffers.load ByteBlock.int64 slot
    let len ← q.buffers.load ByteBlock.int32 (slot + 8)
    return some (⟨duration, len, slot + 12⟩, { q with
      head := (q.head + 1) % q.queueSize
      load := q.load - 1
      evPut := true })
  else return none

/-- What slot `i` holds, with the length as the `size_t` that is copied. -/
def bufferAt (q : FlatQueue) (i : Nat) : Buffer where
  duration := (q.buffers.valueAt ByteBlock.int64 (q.queue i)).toInt
  len := (q.buffers.valueAt ByteBlock.int32 (q.queue i + 8)).toUInt32.toNat
  data := q.buffers.bytes (q.queue i + 12) q.dataSize

theorem duration_bufferAt (q : FlatQueue) (i : Nat) : (q.bufferAt i).duration =
    (q.buffers.valueAt ByteBlock.int64 (q.queue i)).toInt := by rw [bufferAt]

theorem len_bufferAt (q : FlatQueue) (i : Nat) : (q.bufferAt i).len =
    (q.buffers.valueAt ByteBlock.int32 (q.queue i + 8)).toUInt32.toNat := by rw [bufferAt]

theorem data_bufferAt (q : FlatQueue) (i : Nat) :
    (q.bufferAt i).data = q.buffers.bytes (q.queue i + 12) q.dataSize := by rw [bufferAt]

/-- The slots lie one behind the other in the block. -/
structure Laid (q : FlatQueue) : Prop where
  size : q.buffers.size = (sizeofBuffer + q.dataSize) * q.queueSize
  fits : (sizeofBuffer + q.dataSize) * q.queueSize < 2 ^ 32
  slot : ∀ i < q.queueSize, q.queue i = (sizeofBuffer + q.dataSize) * i

/-- The ring of slots that the block holds. -/
structure Holds (f : FlatQueue) (q : CDVQueue) : Prop where
  laid : f.Laid
  slots : ∀ i < f.queueSize, f.bufferAt i = q.queue i
  dataSize : f.dataSize = q.dataSize
  queueSize : f.queueSize = q.queueSize
  head : f.head = q.head
  tail : f.tail = q.tail
  load : f.load = q.load
  isEnd : f.isEnd = q.isEnd
  evPut : f.evPut = q.evPut
  evGet : f.evGet = q.evGet

variable {f f' : FlatQueue} {q q' : CDVQueue} {queueSize dataSize i j : Nat} {memory : Nat → UInt8}

/-- A slot ends where the next one begins, or before the end of the block. -/
theorem Laid.slot_le (h : f.Laid) (hij : i < j) (hj : j ≤ f.queueSize) :
    f.queue i + sizeofBuffer + f.dataSize ≤ (sizeofBuffer + f.dataSize) * j := by
  rw [h.slot i (by omega), Nat.add_assoc, ← Nat.mul_succ]
  exact Nat.mul_le_mul_left _ hij

theorem Laid.inside (h : f.Laid) (hi : i < f.queueSize) :
    f.queue i + sizeofBuffer + f.dataSize ≤ f.buffers.size := by
  rw [h.size]
  exact h.slot_le hi le_rfl

theorem Laid.apart (h : f.Laid) (hi : i < f.queueSize) (hj : j < f.queueSize) (hne : i ≠ j) :
    f.queue i + sizeofBuffer + f.dataSize ≤ f.queue j ∨
      f.queue j + sizeofBuffer + f.dataSize ≤ f.queue i := by
  rcases Nat.lt_or_gt_of_ne hne with hlt | hlt
  · left
    rw [h.slot j hj]
    exact h.slot_le hlt hj.le
  · right
    rw [h.slot i hi]
    exact h.slot_le hlt hi.le

/-- Where there is more than one slot, lengths are small. -/
theorem Laid.dataSize_lt (h : f.Laid) (hsize : 1 < f.queueSize) : f.dataSize < 2 ^ 31 := by
  have hfits := h.fits
  have hle : (sizeofBuffer + f.dataSize) * 2 ≤ (sizeofBuffer + f.dataSize) * f.queueSize :=
    Nat.mul_le_mul_left _ hsize
  omega

theorem new_holds (hfit : BlockFits queueSize dataSize) :
    (new queueSize dataSize memory).Holds
      (CDVQueue.new queueSize dataSize (new queueSize dataSize memory).bufferAt) := by
  refine ⟨⟨Nat.mod_eq_of_lt hfit, hfit, fun i hi => Nat.mod_eq_of_lt ?_⟩, fun _ _ => rfl, rfl, rfl, rfl,
    rfl, rfl, rfl, rfl, rfl⟩
  exact (Nat.mul_le_mul_left _ (Nat.le_of_lt hi)).trans_lt hfit

/-- The writes into one slot leave the others alone. -/
theorem bufferAt_of_apart {b b' : ByteBlock} {pos : Nat} {data : List UInt8}
    (hwrite : b.write pos data = some b')
    (hapart : f.queue i + sizeofBuffer + f.dataSize ≤ pos ∨ pos + data.length ≤ f.queue i) :
    { f with buffers := b' }.bufferAt i = { f with buffers := b }.bufferAt i := by
  have hsize : sizeofBuffer = 16 := rfl
  have hwidth : ByteBlock.int64.width = 8 ∧ ByteBlock.int32.width = 4 := ⟨rfl, rfl⟩
  simp only [bufferAt]
  rw [ByteBlock.valueAt_of_apart hwrite (by omega), ByteBlock.valueAt_of_apart hwrite (by omega),
    ByteBlock.bytes_of_apart hwrite (by omega)]

/-- The three writes of `Put` into a slot. -/
def fillSlot (b : ByteBlock) (slot : Nat) (duration : Int64) (len : Nat) (data : List UInt8) :
    Option ByteBlock := do
  let b ← b.store ByteBlock.int64 slot duration
  let b ← b.store ByteBlock.int32 (slot + 8) (Int32.ofNat len)
  b.write (slot + 12) data

theorem fillSlot_spec (h : f.Laid) (hi : i < f.queueSize) (hsmall : f.dataSize < 2 ^ 31)
    {data : List UInt8} (hlen : data.length ≤ f.dataSize) (duration : Int64) :
    ∃ b, fillSlot f.buffers (f.queue i) duration data.length data = some b ∧
      b.size = f.buffers.size ∧
      { f with buffers := b }.bufferAt i =
        ⟨duration.toInt, data.length, data ++ (f.bufferAt i).data.drop data.length⟩ ∧
      ∀ j < f.queueSize, j ≠ i → { f with buffers := b }.bufferAt j = f.bufferAt j := by
  have hsize : sizeofBuffer = 16 := rfl
  have hinside := h.inside hi
  have hwidth : ByteBlock.int64.width = 8 ∧ ByteBlock.int32.width = 4 := ⟨rfl, rfl⟩
  have hwidth64 : (ByteBlock.int64.encode duration).length = 8 := ByteBlock.int64.length_encode _
  have hwidth32 : (ByteBlock.int32.encode (Int32.ofNat data.length)).length = 4 :=
    ByteBlock.int32.length_encode _
  have hfits₁ : f.queue i + ByteBlock.int64.width ≤ f.buffers.size := by omega
  obtain ⟨b₁, hb₁⟩ := ByteBlock.store_isSome hfits₁ duration
  have hsize₁ := ByteBlock.size_of_store hb₁
  have hfits₂ : f.queue i + 8 + ByteBlock.int32.width ≤ b₁.size := by omega
  obtain ⟨b₂, hb₂⟩ := ByteBlock.store_isSome hfits₂ (Int32.ofNat data.length)
  have hsize₂ := ByteBlock.size_of_store hb₂
  have hfits₃ : f.queue i + 12 + data.length ≤ b₂.size := by omega
  obtain ⟨b₃, hb₃⟩ := ByteBlock.write_isSome hfits₃
  have hsize₃ := ByteBlock.size_of_write hb₃
  refine ⟨b₃, ?_, by omega, ?_, fun j hj hne => ?_⟩
  · simp only [fillSlot, hb₁, hb₂, hb₃, Option.bind_eq_bind, Option.bind_some]
  · have hduration : b₃.valueAt ByteBlock.int64 (f.queue i) = duration := by
      rw [ByteBlock.valueAt_of_apart hb₃ (by omega), ByteBlock.valueAt_of_apart hb₂ (by omega),
        ByteBlock.valueAt_stored hb₁]
    have hlength : b₃.valueAt ByteBlock.int32 (f.queue i + 8) = Int32.ofNat data.length := by
      rw [ByteBlock.valueAt_of_apart hb₃ (by omega), ByteBlock.valueAt_stored hb₂]
    have hdata : b₃.bytes (f.queue i + 12) f.dataSize =
        data ++ (f.buffers.bytes (f.queue i + 12) f.dataSize).drop data.length := by
      rw [ByteBlock.bytes_overwritten hb₃ hlen, ByteBlock.bytes_of_apart hb₂ (by omega),
        ByteBlock.bytes_of_apart hb₁ (by omega)]
    simp only [bufferAt, hduration, hlength, hdata, Buffer.mk.injEq, true_and, and_true]
    rw [Int32.toUInt32_ofNat', UInt32.toNat_ofNat', Nat.mod_eq_of_lt (by omega)]
  · have hapart := h.apart hj hi hne
    rw [bufferAt_of_apart hb₃ (by omega), bufferAt_of_apart hb₂ (by omega),
      bufferAt_of_apart hb₁ (by omega)]

theorem clamped_length (data : List UInt8) (n : Nat) :
    (if data.length > n then n else data.length) = (data.take n).length := by
  rw [List.length_take]
  split <;> omega

theorem take_clamped (data : List UInt8) (n : Nat) : data.take (data.take n).length = data.take n := by
  rw [List.length_take, ← List.take_take, List.take_length]

theorem putLocked_eq (hroom : f.load < f.queueSize - 1) (duration : Int64) (data : List UInt8) :
    f.putLocked duration data data.length =
      (fillSlot f.buffers (f.queue f.tail) duration (data.take f.dataSize).length
        (data.take f.dataSize)).map fun b =>
          some { f with
            buffers := b
            tail := (f.tail + 1) % f.queueSize
            load := f.load + 1
            evGet := true } := by
  simp only [putLocked, hroom, if_true, clamped_length, take_clamped, fillSlot, Option.bind_eq_bind]
  cases f.buffers.store ByteBlock.int64 (f.queue f.tail) duration with
  | none => rfl
  | some b₁ =>
    simp only [Option.bind_some]
    cases b₁.store ByteBlock.int32 (f.queue f.tail + 8) (Int32.ofNat (data.take f.dataSize).length) with
    | none => rfl
    | some b₂ =>
      simp only [Option.bind_some]
      cases b₂.write (f.queue f.tail + 12) (data.take f.dataSize) <;> rfl

/-- `Put` never leaves the block, and does to the slots what it is to do. -/
theorem putLocked_holds (h : f.Holds q) (hv : q.Valid) (duration : Int64) (data : List UInt8) :
    (q.putLocked duration.toInt data data.length = none ∧
        f.putLocked duration data data.length = some none) ∨
      ∃ f' q', q.putLocked duration.toInt data data.length = some q' ∧
        f.putLocked duration data data.length = some (some f') ∧ f'.Holds q' := by
  by_cases hroom : f.load < f.queueSize - 1
  · right
    have htail : f.tail < f.queueSize := by
      rw [h.tail, h.queueSize, hv.tail_eq]
      exact Nat.mod_lt _ (Nat.lt_of_le_of_lt (Nat.zero_le _) hv.head_lt)
    have hlen : (data.take f.dataSize).length ≤ f.dataSize := List.length_take_le ..
    obtain ⟨b, hfill, hsize, hslot, hothers⟩ := fillSlot_spec h.laid htail
      (h.laid.dataSize_lt (by omega)) hlen duration
    let f' : FlatQueue := { f with
      buffers := b, tail := (f.tail + 1) % f.queueSize, load := f.load + 1, evGet := true }
    have hput : f.putLocked duration data data.length = some (some f') := by
      rw [putLocked_eq hroom, hfill]
      rfl
    refine ⟨f', _, if_pos (by rw [← h.load, ← h.queueSize]; exact hroom), hput, ?_⟩
    refine ⟨⟨hsize.trans h.laid.size, h.laid.fits, h.laid.slot⟩, fun i hi => ?_, h.dataSize,
      h.queueSize, h.head, ?_, congrArg (· + 1) h.load, h.isEnd, h.evPut, rfl⟩
    · by_cases hi' : i = f.tail
      · subst hi'
        refine hslot.trans ?_
        dsimp only
        rw [h.slots f.tail htail, ← h.tail, Function.update_self, ← h.dataSize, clamped_length,
          take_clamped]
      · refine (hothers i hi hi').trans ?_
        dsimp only
        rw [h.slots i hi, ← h.tail, Function.update_of_ne hi']
    · show (f.tail + 1) % f.queueSize = (q.tail + 1) % q.queueSize
      rw [h.tail, h.queueSize]
  · left
    have hroom' : ¬ q.load < q.queueSize - 1 := by
      rwa [← h.load, ← h.queueSize]
    exact ⟨if_neg hroom', if_neg hroom⟩

/-- `Get` never leaves the block either. It hands out what the slot holds, the
data by its address. -/
theorem getLocked_holds (h : f.Holds q) (hv : q.Valid) :
    (q.getLocked = none ∧ f.getLocked = some none) ∨
      ∃ got f' q', q.getLocked = some (q.head, q') ∧ f.getLocked = some (some (got, f')) ∧
        got.duration.toInt = (q.queue q.head).duration ∧
        got.len.toUInt32.toNat = (q.queue q.head).len ∧ got.data = f.queue q.head + 12 ∧
        f'.buffers = f.buffers ∧ f'.queue = f.queue ∧ f'.Holds q' := by
  by_cases hload : f.load > 0
  · right
    have hhead : q.head < f.queueSize := by
      rw [h.queueSize]
      exact hv.head_lt
    have hinside := h.laid.inside hhead
    have hsize : sizeofBuffer = 16 := rfl
    have hwidth : ByteBlock.int64.width = 8 ∧ ByteBlock.int32.width = 4 := ⟨rfl, rfl⟩
    have hslot := h.slots q.head hhead
    let got : Got := ⟨f.buffers.valueAt ByteBlock.int64 (f.queue q.head),
      f.buffers.valueAt ByteBlock.int32 (f.queue q.head + 8), f.queue q.head + 12⟩
    let f' : FlatQueue := { f with
      head := (f.head + 1) % f.queueSize, load := f.load - 1, evPut := true }
    have hget : f.getLocked = some (some (got, f')) := by
      simp only [getLocked, hload, if_true, Option.bind_eq_bind, h.head]
      rw [ByteBlock.load_of_le (by omega), Option.bind_some, ByteBlock.load_of_le (by omega),
        Option.bind_some]
      simp only [got, f', h.head, Option.pure_def]
    have hduration : got.duration.toInt = (q.queue q.head).duration := by
      rw [← hslot, duration_bufferAt]
    have hlen : got.len.toUInt32.toNat = (q.queue q.head).len := by
      rw [← hslot, len_bufferAt]
    refine ⟨got, f', _, if_pos (h.load ▸ hload), hget, hduration, hlen, rfl, rfl, rfl, ?_⟩
    refine ⟨⟨h.laid.size, h.laid.fits, h.laid.slot⟩, h.slots, h.dataSize, h.queueSize, ?_, h.tail,
      congrArg (· - 1) h.load, h.isEnd, rfl, h.evGet⟩
    show (f.head + 1) % f.queueSize = (q.head + 1) % q.queueSize
    rw [h.head, h.queueSize]
  · left
    exact ⟨if_neg (h.load ▸ hload), if_neg hload⟩

/-- The flag and the events lie outside of the block. -/
theorem Holds.flags (h : f.Holds q) {isEnd evPut evGet isEnd' evPut' evGet' : Bool}
    (hisEnd : isEnd = isEnd') (hevPut : evPut = evPut') (hevGet : evGet = evGet') :
    { f with isEnd := isEnd, evPut := evPut, evGet := evGet }.Holds
      { q with isEnd := isEnd', evPut := evPut', evGet := evGet' } :=
  ⟨⟨h.laid.size, h.laid.fits, h.laid.slot⟩, h.slots, h.dataSize, h.queueSize, h.head, h.tail, h.load,
    hisEnd, hevPut, hevGet⟩

/-- The bytes of a slot's frame, read where the slot keeps its data. -/
theorem Holds.read_slot (h : f.Holds q) (hi : i < f.queueSize) :
    (q.queue i).frame.data.length ≤ f.dataSize ∧
      f.buffers.read (f.queue i + 12) (q.queue i).frame.data.length = some (q.queue i).frame.data := by
  have hinside := h.laid.inside hi
  have hsize : sizeofBuffer = 16 := rfl
  have hframe : (q.queue i).frame.data =
      (f.buffers.bytes (f.queue i + 12) f.dataSize).take (q.queue i).len := by
    rw [← data_bufferAt, h.slots i hi, Buffer.frame]
  have hfits : (q.queue i).frame.data.length ≤ f.dataSize := by
    rw [hframe, List.length_take, ByteBlock.bytes_length]
    exact Nat.min_le_right _ _
  refine ⟨hfits, ?_⟩
  rw [ByteBlock.read_of_le (by omega), ← ByteBlock.take_bytes _ _ hfits, hframe, List.length_take,
    ← List.take_take, List.take_length]

end FlatQueue

end WinDV
