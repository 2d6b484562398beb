import WinDV.FlatQueueRuns
import WinDV.SampleMemory

/-! The bytes of a frame on their way: `Put` copies them into a slot of the ring,
`HandleFrame` copies them from the slot that `Get` handed out into the buffer of
a sample, and the graph downstream reads them there. -/

namespace WinDV

open RingBuffer

inductive PathOp
  | ring (op : RingOp)
  /-- `COutputGraph::HandleFrame` with the frame that was handed out last, when
  the allocator gives it sample `i`. -/
  | handleFrame (i : Nat)
  | deliver (i : Nat)
  deriving DecidableEq

/-- `filled` are the samples that a frame was copied into. -/
structure FramePath where
  user : RingUser
  samples : SampleBlock
  memory : ByteBlock
  lActual : Nat → Int32
  filled : Nat → Bool

namespace FramePath

/-- `CMediaSample::SetActualDataLength` of sample `i`, which keeps its length
where the new one does not fit. -/
def setActualDataLength (s : FramePath) (i : Nat) (len : Int32) : FramePath :=
  if len > s.samples.layout.lSize ∨ len < 0 then s
  else { s with lActual := Function.update s.lActual i len }

/-- `none` is a fault. -/
def step (s : FramePath) : PathOp → Option (RingAnswer × FramePath)
  | .ring op => (s.user.step op).map fun r => (r.1, { s with user := r.2 })
  | .handleFrame i =>
    match s.user.handed with
    | none => some (.nothing, s)
    | some got =>
      if i < s.samples.lCount then do
        let data ← s.user.ring.buffers.read got.data got.len.toUInt32.toNat
        let memory ← s.memory.write (s.samples.pointer i) data
        return (.stored, { s with memory := memory, filled := Function.update s.filled i true }
          |>.setActualDataLength i got.len)
      else some (.nothing, s)
  | .deliver i =>
    if s.filled i then
      (s.memory.read (s.samples.pointer i) (s.lActual i).toUInt32.toNat).map fun data => (.data data, s)
    else some (.nothing, s)

def answers (s : FramePath) : List PathOp → Option (List RingAnswer)
  | [] => some []
  | op :: ops => (s.step op).bind fun r => (answers r.2 ops).map (r.1 :: ·)

/-- The queue and the samples as they are set up, over what the memory held. -/
def start (cap dataSize : Nat) (samples : SampleBlock) (ring memory : Nat → UInt8) : FramePath where
  user := ⟨FlatQueue.new cap dataSize ring, none⟩
  samples := samples
  memory := ⟨samples.size.toNat, memory⟩
  lActual := fun _ => samples.layout.lSize
  filled := fun _ => false

end FramePath

/-- What is to come of it: a bounded queue, and in each sample the frame that was
last put there. -/
structure PathSpec (cap : Nat) where
  ring : RingSpec cap
  samples : Nat → Option (List UInt8)

namespace PathSpec

variable {cap : Nat}

def start (cap : Nat) : PathSpec cap := ⟨RingSpec.start cap, fun _ => none⟩

def step (dataSize lCount : Nat) (t : PathSpec cap) : PathOp → RingAnswer × PathSpec cap
  | .ring op => ((t.ring.step dataSize op).1, { t with ring := (t.ring.step dataSize op).2 })
  | .handleFrame i =>
    match t.ring.last with
    | none => (.nothing, t)
    | some f =>
      if i < lCount then (.stored, { t with samples := Function.update t.samples i (some f.data) })
      else (.nothing, t)
  | .deliver i =>
    match t.samples i with
    | none => (.nothing, t)
    | some data => (.data data, t)

def answers (dataSize lCount : Nat) (t : PathSpec cap) : List PathOp → List RingAnswer
  | [] => []
  | op :: ops => (t.step dataSize lCount op).1 :: answers dataSize lCount (t.step dataSize lCount op).2 ops

end PathSpec

/-- Sample `i` holds the data, all of it inside its buffer. -/
structure HoldsData (s : FramePath) (dataSize i : Nat) (data : List UInt8) : Prop where
  lt : i < s.samples.lCount
  fits : data.length ≤ dataSize
  len : (s.lActual i).toUInt32.toNat = data.length
  bytes : s.memory.bytes (s.samples.pointer i) data.length = data

/-- The memory, and the queue and the samples that it holds. -/
structure Carries (dataSize : Nat) {cap : Nat} (s : FramePath) (t : PathSpec cap) (q : CDVQueue) :
    Prop where
  ring : Serves dataSize s.user t.ring q
  roomy : s.samples.Roomy
  room : dataSize ≤ s.samples.cbBuffer
  size : s.memory.size = s.samples.size.toNat
  filled : ∀ i, s.filled i = (t.samples i).isSome
  data : ∀ i data, t.samples i = some data → HoldsData s dataSize i data

variable {dataSize cap lCount : Nat} {s : FramePath} {t : PathSpec cap} {q : CDVQueue}

theorem Carries.ringStep (h : Carries dataSize s t q) (op : RingOp) :
    ∃ s' q', s.step (.ring op) = some ((t.step dataSize s.samples.lCount (.ring op)).1, s') ∧
      s'.samples = s.samples ∧ Carries dataSize s' (t.step dataSize s.samples.lCount (.ring op)).2 q' := by
  obtain ⟨user, q', hstep, hserves⟩ := h.ring.step op
  refine ⟨{ s with user := user }, q', ?_, rfl, ?_⟩
  · rw [FramePath.step, hstep]
    rfl
  · refine ⟨hserves, h.roomy, h.room, h.size, h.filled, fun i data hdata => ?_⟩
    obtain ⟨hlt, hfits, hlen, hbytes⟩ := h.data i data hdata
    exact ⟨hlt, hfits, hlen, hbytes⟩

theorem toInt_of_lt {v : Int32} (h : v.toUInt32.toNat < 2 ^ 31) : v.toInt = v.toUInt32.toNat := by
  conv_lhs => rw [← ofNat_toNat_toUInt32 v]
  exact Int32.toInt_ofNat_of_lt h

/-- Both ends of the copy lie in their blocks, and the sample takes the length. -/
theorem Carries.copy (h : Carries dataSize s t q) {i : Nat} (hi : i < s.samples.lCount)
    {got : FlatQueue.Got} (hgot : s.user.handed = some got) {data : List UInt8}
    (hfits : data.length ≤ dataSize) (hlen : got.len.toUInt32.toNat = data.length)
    (hread : s.user.ring.buffers.read got.data data.length = some data) :
    ∃ memory s', s.step (.handleFrame i) = some (.stored, s') ∧
      s.memory.write (s.samples.pointer i) data = some memory ∧ s'.samples = s.samples ∧
      s'.user = s.user ∧ s'.memory = memory ∧ s'.filled = Function.update s.filled i true ∧
      s'.lActual = Function.update s.lActual i got.len := by
  have hinside := h.roomy.inside hi
  have hroom := h.room
  have hsize := h.size
  have hbounds : s.samples.pointer i + data.length ≤ s.memory.size := by omega
  obtain ⟨memory, hwrite⟩ := ByteBlock.write_isSome hbounds
  have hlSize : (s.samples.cbBuffer : Int) = s.samples.layout.lSize.toInt :=
    Int.toNat_of_nonneg h.roomy.lSize.le
  have hmax := s.samples.layout.lSize.toInt_lt
  have hint := toInt_of_lt (v := got.len) (by omega)
  have htakes : ¬ (got.len > s.samples.layout.lSize ∨ got.len < 0) := by
    rw [gt_iff_lt, Int32.lt_iff_toInt_lt, Int32.lt_iff_toInt_lt, zero_toInt]
    omega
  refine ⟨memory, { s with
    memory := memory, filled := Function.update s.filled i true
    lActual := Function.update s.lActual i got.len }, ?_, hwrite, rfl, rfl, rfl, rfl, rfl⟩
  simp only [FramePath.step, hgot, hi, if_true, hlen, hread, hwrite, Option.bind_eq_bind,
    Option.bind_some, Option.pure_def]
  rw [FramePath.setActualDataLength, if_neg htakes]

theorem Carries.handleFrame (h : Carries dataSize s t q) (i : Nat) :
    ∃ s', s.step (.handleFrame i) = some ((t.step dataSize s.samples.lCount (.handleFrame i)).1, s') ∧
      s'.samples = s.samples ∧
      Carries dataSize s' (t.step dataSize s.samples.lCount (.handleFrame i)).2 q := by
  cases hgot : s.user.handed with
  | none =>
    have hlast := h.ring.last_of_none hgot
    refine ⟨s, ?_, rfl, ?_⟩ <;> simp only [FramePath.step, PathSpec.step, hgot, hlast]
    exact h
  | some got =>
    obtain ⟨frame, hlast, hfits, hlen, hread⟩ := h.ring.handed_data hgot
    by_cases hi : i < s.samples.lCount
    · obtain ⟨memory, s', hstep, hwrite, hsamples, huser, hmemory, hfilled, hactual⟩ :=
        h.copy hi hgot hfits hlen hread
      refine ⟨s', ?_, hsamples, ?_⟩ <;> simp only [PathSpec.step, hlast, hi, if_true]
      · exact hstep
      · refine ⟨huser ▸ h.ring, hsamples ▸ h.roomy, hsamples ▸ h.room, ?_, fun j => ?_,
          fun j data hdata => ?_⟩
        · rw [hmemory, ByteBlock.size_of_write hwrite, h.size, hsamples]
        · rw [hfilled]
          dsimp only
          by_cases hj : j = i
          · rw [hj, Function.update_self, Function.update_self, Option.isSome_some]
          · rw [Function.update_of_ne hj, Function.update_of_ne hj, h.filled]
        · dsimp only at hdata
          by_cases hj : j = i
          · rw [hj, Function.update_self, Option.some.injEq] at hdata
            rw [hj, ← hdata]
            refine ⟨hsamples ▸ hi, hfits, ?_, ?_⟩
            · rw [hactual, Function.update_self, hlen]
            · rw [hmemory, hsamples, ByteBlock.bytes_written hwrite]
          · rw [Function.update_of_ne hj] at hdata
            obtain ⟨hlt, hfits', hlen', hbytes⟩ := h.data j data hdata
            refine ⟨hsamples ▸ hlt, hfits', ?_, ?_⟩
            · rw [hactual, Function.update_of_ne hj, hlen']
            · have happart := h.roomy.apart hj
              have hroom := h.room
              rw [hmemory, hsamples, ByteBlock.bytes_of_apart hwrite (by omega), hbytes]
    · refine ⟨s, ?_, rfl, ?_⟩ <;> simp only [FramePath.step, PathSpec.step, hgot, hlast, hi, if_false]
      exact h

theorem Carries.deliver (h : Carries dataSize s t q) (i : Nat) :
    s.step (.deliver i) = some ((t.step dataSize s.samples.lCount (.deliver i)).1, s) ∧
      (t.step dataSize s.samples.lCount (.deliver i)).2 = t := by
  have hfilled := h.filled i
  cases hdata : t.samples i with
  | none =>
    rw [hdata, Option.isSome_none] at hfilled
    simp only [FramePath.step, PathSpec.step, hfilled, hdata, Bool.false_eq_true, if_false, and_self]
  | some data =>
    rw [hdata, Option.isSome_some] at hfilled
    obtain ⟨hlt, hfits, hlen, hbytes⟩ := h.data i data hdata
    have hinside := h.roomy.inside hlt
    have hroom := h.room
    have hsize := h.size
    have hread : s.memory.read (s.samples.pointer i) data.length = some data := by
      rw [ByteBlock.read_of_le (by omega), hbytes]
    simp only [FramePath.step, PathSpec.step, hfilled, hdata, if_true, hlen, hread, Option.map_some,
      and_self]

theorem Carries.step (h : Carries dataSize s t q) (op : PathOp) :
    ∃ s' q', s.step op = some ((t.step dataSize s.samples.lCount op).1, s') ∧
      s'.samples = s.samples ∧ Carries dataSize s' (t.step dataSize s.samples.lCount op).2 q' := by
  cases op with
  | ring op => exact h.ringStep op
  | handleFrame i =>
    obtain ⟨s', hstep, hsamples, hcarries⟩ := h.handleFrame i
    exact ⟨s', q, hstep, hsamples, hcarries⟩
  | deliver i =>
    obtain ⟨hstep, hspec⟩ := h.deliver i
    exact ⟨s, q, hstep, rfl, by rw [hspec]; exact h⟩

theorem Carries.answers (h : Carries dataSize s t q) (ops : List PathOp) :
    s.answers ops = some (t.answers dataSize s.samples.lCount ops) := by
  induction ops generalizing s t q with
  | nil => rfl
  | cons op ops ih =>
    obtain ⟨s', q', hstep, hsamples, hcarries⟩ := h.step op
    rw [FramePath.answers, hstep, Option.bind_some, ih hcarries, hsamples, Option.map_some,
      PathSpec.answers]

/-- Frames of any length on their way from the source through a queue of `cap`
slots, the block of which does not wrap, into samples that the allocator takes
from another block: no copy leaves the memory that is its own, whatever the
downstream pin asked for in the way of buffers, alignment and prefix, and each
sample delivers the frame that was put there last. -/
theorem frames_stay_in_memory {l g : UInt32} {queue : Int32} {r : AllocatorProperties}
    {p : SampleLayout} {b : SampleBlock}
    (hfit : BlockFits cap (sampleSize l).toNat)
    (hbuffer : 0 ≤ r.cbBuffer.toInt)
    (hsum : max r.cbBuffer.toInt (sampleSize l).toNat + r.cbPrefix.toInt < 2 ^ 31)
    (hset : SampleLayout.setProperties g (decideBufferSize (sampleSize l) queue r) = some p)
    (halloc : p.alloc = some b) (ring memory : Nat → UInt8) (ops : List PathOp) :
    (FramePath.start cap (sampleSize l).toNat b ring memory).answers ops =
      some ((PathSpec.start cap).answers (sampleSize l).toNat b.lCount ops) := by
  obtain ⟨hroomy, hroom, -⟩ := samples_take_frames hset halloc hbuffer hsum
  have hcarries : Carries (sampleSize l).toNat
      (FramePath.start cap (sampleSize l).toNat b ring memory) (PathSpec.start cap)
      (CDVQueue.new cap (sampleSize l).toNat
        (FlatQueue.new cap (sampleSize l).toNat ring).bufferAt) :=
    ⟨start_serves hfit, hroomy, hroom, rfl, fun _ => rfl, nofun⟩
  exact hcarries.answers ops

/-- What a downstream pin may ask for: three buffers, and eight bytes before each. -/
def threeBuffers : AllocatorProperties := ⟨3, 0, 16, 8⟩

def threeSamples : SampleBlock := ⟨432048, 144016, ⟨144008, 3, 16, 8⟩⟩

theorem frame_delivered :
    (FramePath.start 100 144000 threeSamples (fun _ => 0) fun _ => 0).answers
        [.ring (.put 40 [1, 2, 3]), .ring .get, .handleFrame 1, .ring (.put 40 [4]), .ring .get,
          .handleFrame 2, .deliver 1] =
      some [.stored, .handed 40 3, .stored, .stored, .handed 40 1, .stored, .data [1, 2, 3]] :=
  have hfit : BlockFits 100 (sampleSize 120000).toNat := by decide
  have hset : SampleLayout.setProperties 65536 (decideBufferSize (sampleSize 120000) 0 threeBuffers) =
      some threeSamples.layout := by decide
  (frames_stay_in_memory hfit (by decide) (by decide) hset (by decide) _ _ _).trans (by decide)

end WinDV
