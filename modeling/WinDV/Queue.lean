import WinDV.RingBuffer

/-! `CDVQueue`, the ring between the frame source and the worker thread: the
locked sections of its methods, and the frames that it holds. -/

namespace WinDV

open RingBuffer

/-- A DV frame on its way through the pipeline: its duration in 100-ns units
and its bytes. Durations and their sums are far below 2^63, so that a number without
bound stands for a `REFERENCE_TIME`. -/
structure Frame where
  duration : Int
  data : List UInt8
  deriving DecidableEq, Repr

/-- The frame that comes back out of a slot of `dataSize` bytes. -/
def Frame.clamp (f : Frame) (dataSize : Nat) : Frame := ⟨f.duration, f.data.take dataSize⟩

/-- One slot, `CDVQueue::Buffer`. Bytes past `len` are left over from earlier frames. -/
structure Buffer where
  duration : Int
  len : Nat
  data : List UInt8
  deriving DecidableEq, Repr

def Buffer.frame (b : Buffer) : Frame := ⟨b.duration, b.data.take b.len⟩

/-- `sizeof (Buffer)`, padded for the alignment of the duration. -/
def sizeofBuffer : Nat := 16

/-- The size of the one allocation for all slots, computed in 32 bits, does not wrap.
Where it does, the slots lie one over the other or outside of it. -/
def BlockFits (queueSize dataSize : Nat) : Prop :=
  (sizeofBuffer + dataSize) * (queueSize + 1) < 2 ^ 32

instance (queueSize dataSize : Nat) : Decidable (BlockFits queueSize dataSize) :=
  inferInstanceAs (Decidable (_ < _))

structure CDVQueue where
  queue : Nat → Buffer
  dataSize : Nat
  queueSize : Nat
  head : Nat
  tail : Nat
  load : Nat
  isEnd : Bool
  evPut : Bool
  evGet : Bool

namespace CDVQueue

/-- The constructor, for sizes of which the slots lie apart. They are allocated but not
written, so `memory` is arbitrary. -/
def new (queueSize dataSize : Nat) (memory : Nat → Buffer) : CDVQueue where
  queue := memory
  dataSize := dataSize
  queueSize := queueSize + 1
  head := 0
  tail := 0
  load := 0
  isEnd := false
  evPut := false
  evGet := false

/-- The locked section of `Put`; `none` when the ring is full. -/
def putLocked (q : CDVQueue) (duration : Int) (data : List UInt8) (len : Nat) : Option CDVQueue :=
  if q.load < q.queueSize - 1 then
    let len := if len > q.dataSize then q.dataSize else len
    some { q with
      queue := Function.update q.queue q.tail
        ⟨duration, len, data.take len ++ (q.queue q.tail).data.drop len⟩
      tail := (q.tail + 1) % q.queueSize
      load := q.load + 1
      evGet := true }
  else none

/-- The locked section of `Get` and of `GetWithTimeout`: the slot whose
contents the caller receives, or `none` when the ring is empty. -/
def getLocked (q : CDVQueue) : Option (Nat × CDVQueue) :=
  if q.load > 0 then
    some (q.head, { q with
      head := (q.head + 1) % q.queueSize
      load := q.load - 1
      evPut := true })
  else none

def frames (q : CDVQueue) : List Frame :=
  (contents q.queue q.queueSize q.head q.load).map Buffer.frame

@[simp] theorem frames_length (q : CDVQueue) : q.frames.length = q.load := by
  simp [frames]

structure Valid (q : CDVQueue) : Prop where
  head_lt : q.head < q.queueSize
  load_lt : q.load < q.queueSize
  tail_eq : q.tail = (q.head + q.load) % q.queueSize

theorem new_valid (queueSize dataSize : Nat) (memory : Nat → Buffer) :
    (new queueSize dataSize memory).Valid :=
  ⟨Nat.succ_pos _, Nat.succ_pos _, rfl⟩

theorem putLocked_eq_some {q q' : CDVQueue} {f : Frame}
    (h : q.putLocked f.duration f.data f.data.length = some q') :
    q.load < q.queueSize - 1 ∧ q'.dataSize = q.dataSize ∧ q'.queueSize = q.queueSize ∧
      q'.head = q.head ∧ q'.tail = (q.tail + 1) % q.queueSize ∧ q'.load = q.load + 1 ∧
      q'.isEnd = q.isEnd ∧ q'.evPut = q.evPut ∧ q'.evGet = true ∧
      ∃ b : Buffer, b.frame = f.clamp q.dataSize ∧ q'.queue = Function.update q.queue q.tail b := by
  unfold putLocked at h
  split at h
  · next hroom =>
    obtain rfl := Option.some.inj h
    refine ⟨hroom, rfl, rfl, rfl, rfl, rfl, rfl, rfl, rfl, _, ?_, rfl⟩
    simp only [Buffer.frame, Frame.clamp, Frame.mk.injEq, true_and]
    split
    · next hlong => rw [List.take_append_of_le_length (by simp; omega), List.take_take, Nat.min_self]
    · next hshort =>
      rw [List.take_append_of_le_length (by simp), List.take_take, Nat.min_self,
        List.take_length, List.take_of_length_le (by omega)]
  · cases h

theorem getLocked_eq_some {q q' : CDVQueue} {i : Nat} (h : q.getLocked = some (i, q')) :
    0 < q.load ∧ i = q.head ∧ q' = { q with
      head := (q.head + 1) % q.queueSize
      load := q.load - 1
      evPut := true } := by
  unfold getLocked at h
  split at h
  · next hload =>
    obtain ⟨rfl, rfl⟩ := Prod.mk.inj (Option.some.inj h)
    exact ⟨hload, rfl, rfl⟩
  · cases h

theorem getLocked_eq_none {q : CDVQueue} (h : q.getLocked = none) : q.load = 0 := by
  unfold getLocked at h
  split at h
  · cases h
  · omega

theorem putLocked_valid {q q' : CDVQueue} {f : Frame} (hv : q.Valid)
    (h : q.putLocked f.duration f.data f.data.length = some q') : q'.Valid := by
  obtain ⟨hroom, -, hsize, hhead, htail, hload, -⟩ := putLocked_eq_some h
  refine ⟨by rw [hhead, hsize]; exact hv.head_lt, by rw [hload, hsize]; omega, ?_⟩
  rw [htail, hhead, hload, hsize, hv.tail_eq, Nat.mod_add_mod, Nat.add_assoc]

theorem getLocked_valid {q q' : CDVQueue} {i : Nat} (hv : q.Valid)
    (h : q.getLocked = some (i, q')) : q'.Valid := by
  obtain ⟨hload, -, rfl⟩ := getLocked_eq_some h
  have hlt := hv.load_lt
  refine ⟨Nat.mod_lt _ (by omega), Nat.lt_of_le_of_lt (Nat.sub_le _ _) hlt, ?_⟩
  rw [Nat.mod_add_mod, hv.tail_eq]
  congr 1
  dsimp only
  omega

theorem putLocked_frames {q q' : CDVQueue} {f : Frame} (hv : q.Valid)
    (h : q.putLocked f.duration f.data f.data.length = some q') :
    q'.frames = q.frames ++ [f.clamp q.dataSize] := by
  obtain ⟨-, -, hsize, hhead, -, hload, -, -, -, b, hb, hqueue⟩ := putLocked_eq_some h
  rw [frames, hqueue, hsize, hhead, hload, hv.tail_eq, contents_push _ hv.load_lt, List.map_append,
    List.map_singleton, hb, frames]

theorem getLocked_frames {q q' : CDVQueue} {i : Nat} (hv : q.Valid)
    (h : q.getLocked = some (i, q')) : q.frames = (q.queue i).frame :: q'.frames := by
  obtain ⟨hload, rfl, rfl⟩ := getLocked_eq_some h
  simp only [frames]
  rw [contents_pop _ hload hv.head_lt, List.map_cons]

end CDVQueue

end WinDV
