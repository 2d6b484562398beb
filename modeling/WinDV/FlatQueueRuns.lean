import WinDV.FlatQueue

/-! The block of memory in use: the frame source stores frames in it, the worker
takes them by their addresses and reads the data later, and nothing is read or
written outside of the block. To its users it is a bounded first-in first-out
queue of frames. -/

namespace WinDV

open RingBuffer

inductive RingOp
  | put (duration : Int64) (data : List UInt8)
  | get
  /-- The worker reads the data that it was handed last. -/
  | reread
  deriving DecidableEq

inductive RingAnswer
  | stored
  | full
  | empty
  | handed (duration : Int) (len : Int32)
  | data (bytes : List UInt8)
  | nothing
  deriving DecidableEq

structure RingUser where
  ring : FlatQueue
  handed : Option FlatQueue.Got

namespace RingUser

/-- `none` is a fault. -/
def step (s : RingUser) : RingOp → Option (RingAnswer × RingUser)
  | .put duration data =>
    (s.ring.putLocked duration data data.length).map fun
      | none => (.full, s)
      | some ring => (.stored, { s with ring := ring })
  | .get =>
    s.ring.getLocked.map fun
      | none => (.empty, s)
      | some (got, ring) => (.handed got.duration.toInt got.len, ⟨ring, some got⟩)
  | .reread =>
    match s.handed with
    | none => some (.nothing, s)
    | some got =>
      (s.ring.buffers.read got.data got.len.toUInt32.toNat).map fun bytes => (.data bytes, s)

def answers (s : RingUser) : List RingOp → Option (List RingAnswer)
  | [] => some []
  | op :: ops => (s.step op).bind fun r => (answers r.2 ops).map (r.1 :: ·)

end RingUser

/-- What the ring is for: at most `cap` frames, first in first out, and the last
frame handed out, which stays readable. -/
structure RingSpec (cap : Nat) where
  fifo : Fifo Frame cap
  last : Option Frame

namespace RingSpec

variable {cap : Nat}

def start (cap : Nat) : RingSpec cap := ⟨⟨[], Nat.zero_le _⟩, none⟩

def step (dataSize : Nat) (t : RingSpec cap) : RingOp → RingAnswer × RingSpec cap
  | .put duration data =>
    match t.fifo.push (Frame.clamp ⟨duration.toInt, data⟩ dataSize) with
    | none => (.full, t)
    | some fifo => (.stored, { t with fifo := fifo })
  | .get =>
    match t.fifo.pop with
    | none => (.empty, t)
    | some (f, fifo) => (.handed f.duration (Int32.ofNat f.data.length), ⟨fifo, some f⟩)
  | .reread =>
    match t.last with
    | none => (.nothing, t)
    | some f => (.data f.data, t)

def answers (dataSize : Nat) (t : RingSpec cap) : List RingOp → List RingAnswer
  | [] => []
  | op :: ops => (t.step dataSize op).1 :: answers dataSize (t.step dataSize op).2 ops

end RingSpec

/-- The data that was handed out is that of the slot before the head. -/
structure HandedOut (f : FlatQueue) (q : CDVQueue) (got : FlatQueue.Got) (frame : Frame) : Prop where
  slot : q.heldSlot.frame = frame
  len : got.len.toUInt32.toNat = frame.data.length
  data : got.data = f.queue ((q.head + (q.queueSize - 1)) % q.queueSize) + 12

/-- The ring in the block and the queue that it is. -/
structure Serves (dataSize : Nat) {cap : Nat} (s : RingUser) (t : RingSpec cap) (q : CDVQueue) :
    Prop where
  holds : s.ring.Holds q
  valid : q.Valid
  size : q.queueSize = cap + 1
  dataSize : q.dataSize = dataSize
  frames : q.frames = t.fifo.items
  filled : ∀ b ∈ q.stored, b.len = b.frame.data.length
  handed : (s.handed = none ∧ t.last = none) ∨
    ∃ got frame, s.handed = some got ∧ t.last = some frame ∧ HandedOut s.ring q got frame

variable {queueSize dataSize cap : Nat} {s : RingUser} {t : RingSpec cap} {q q' : CDVQueue}

theorem HandedOut.kept {f f' : FlatQueue} {got : FlatQueue.Got} {frame : Frame}
    (h : HandedOut f q got frame) (hheld : q'.heldSlot = q.heldSlot) (hhead : q'.head = q.head)
    (hsize : q'.queueSize = q.queueSize) (hqueue : f'.queue = f.queue) : HandedOut f' q' got frame :=
  ⟨by rw [hheld, h.slot], h.len, by rw [hhead, hsize, hqueue, h.data]⟩

theorem push_of_lt {t : Fifo Frame cap} (h : t.items.length < cap) (f : Frame) :
    ∃ t', t.push f = some t' ∧ t'.items = t.items ++ [f] := ⟨_, dif_pos h, rfl⟩

theorem push_of_full {t : Fifo Frame cap} (h : ¬ t.items.length < cap) (f : Frame) :
    t.push f = none := dif_neg h

theorem pop_of_cons {t : Fifo Frame cap} {f : Frame} {rest : List Frame} (h : t.items = f :: rest) :
    ∃ t', t.pop = some (f, t') ∧ t'.items = rest := by
  obtain ⟨items, hle⟩ := t
  subst h
  exact ⟨_, rfl, rfl⟩

theorem pop_of_nil {t : Fifo Frame cap} (h : t.items = []) : t.pop = none := by
  obtain ⟨items, hle⟩ := t
  subst h
  rfl

/-- The slot before the head is then the one that was taken. -/
theorem heldIndex_of_got {i : Nat} (hv : q.Valid) (h : q.getLocked = some (i, q')) :
    (q'.head + (q'.queueSize - 1)) % q'.queueSize = i := by
  obtain ⟨-, rfl, rfl⟩ := CDVQueue.getLocked_eq_some h
  have hlt := hv.head_lt
  have hround : q.head + 1 + (q.queueSize - 1) = q.head + q.queueSize := by omega
  show ((q.head + 1) % q.queueSize + (q.queueSize - 1)) % q.queueSize = q.head
  rw [Nat.mod_add_mod, hround, Nat.add_mod_right, Nat.mod_eq_of_lt hlt]

theorem ofNat_toNat_toUInt32 (v : Int32) : Int32.ofNat v.toUInt32.toNat = v := by
  rw [← UInt32.toInt32_ofNat', UInt32.ofNat_toNat, Int32.toInt32_toUInt32]

theorem Serves.put (h : Serves dataSize s t q) (duration : Int64) (data : List UInt8) :
    ∃ s' q', s.step (.put duration data) = some ((t.step dataSize (.put duration data)).1, s') ∧
      Serves dataSize s' (t.step dataSize (.put duration data)).2 q' := by
  have hload : t.fifo.items.length = q.load := by
    rw [← h.frames, CDVQueue.frames_length]
  have hsize := h.size
  let f : Frame := ⟨duration.toInt, data⟩
  rcases FlatQueue.putLocked_holds h.holds h.valid duration data with
    ⟨hfull, hput⟩ | ⟨ring, q', hroom, hput, hholds⟩
  · have hno : ¬ t.fifo.items.length < cap := by
      intro hlt
      have hroom : q.load < q.queueSize - 1 := by omega
      rw [CDVQueue.putLocked, if_pos hroom] at hfull
      cases hfull
    refine ⟨s, q, ?_, ?_⟩ <;> simp only [RingUser.step, RingSpec.step, push_of_full hno]
    · rw [hput]
      rfl
    · exact h
  · have hstored := CDVQueue.putLocked_stored (f := f) h.valid hroom
    have hframes := CDVQueue.putLocked_frames (f := f) h.valid hroom
    have hheld := CDVQueue.putLocked_heldSlot (f := f) h.valid hroom
    have hfilled := CDVQueue.putLocked_filled (f := f) hroom
    have hvalid := CDVQueue.putLocked_valid (f := f) h.valid hroom
    obtain ⟨hlt, hdata, hsize', hhead, -⟩ := CDVQueue.putLocked_eq_some (f := f) hroom
    have hqueue : ring.queue = s.ring.queue := by
      have hflat : s.ring.load < s.ring.queueSize - 1 := by
        rw [h.holds.load, h.holds.queueSize]
        exact hlt
      rw [FlatQueue.putLocked_eq hflat] at hput
      obtain ⟨b, -, hb⟩ := Option.map_eq_some_iff.mp hput
      rw [← Option.some.inj hb]
    obtain ⟨fifo, hpush, hitems⟩ := push_of_lt (t := t.fifo) (by omega) (f.clamp dataSize)
    refine ⟨{ s with ring := ring }, q', ?_, ?_⟩ <;> simp only [RingUser.step, RingSpec.step, hpush, f]
    · rw [hput]
      rfl
    · refine ⟨hholds, hvalid, by rw [hsize', hsize], by rw [hdata, h.dataSize], ?_, fun b hb => ?_, ?_⟩
      · rw [hframes, h.frames, hitems, h.dataSize]
      · rw [hstored] at hb
        rcases List.mem_append.mp hb with hb | hb
        · exact h.filled b hb
        · rw [List.mem_singleton.mp hb]
          exact hfilled
      · rcases h.handed with hnone | ⟨got, frame, hgot, hlast, hout⟩
        · exact .inl hnone
        · exact .inr ⟨got, frame, hgot, hlast, hout.kept hheld hhead hsize' hqueue⟩

theorem Serves.get (h : Serves dataSize s t q) :
    ∃ s' q', s.step .get = some ((t.step dataSize .get).1, s') ∧
      Serves dataSize s' (t.step dataSize .get).2 q' := by
  rcases FlatQueue.getLocked_holds h.holds h.valid with
    ⟨hempty, hget⟩ | ⟨got, ring, q', hsome, hget, hduration, hlen, hdata, -, hqueue, hholds⟩
  · have hnil : t.fifo.items = [] := by
      rw [← h.frames]
      exact List.length_eq_zero_iff.mp (by rw [CDVQueue.frames_length, CDVQueue.getLocked_eq_none hempty])
    refine ⟨s, q, ?_, ?_⟩ <;> simp only [RingUser.step, RingSpec.step, pop_of_nil hnil]
    · rw [hget]
      rfl
    · exact h
  · have hframes := CDVQueue.getLocked_frames h.valid hsome
    have hstored := CDVQueue.getLocked_stored h.valid hsome
    have hheld := CDVQueue.getLocked_heldSlot h.valid hsome
    have hvalid := CDVQueue.getLocked_valid h.valid hsome
    have hfilled : (q.queue q.head).len = (q.queue q.head).frame.data.length :=
      h.filled _ (by rw [hstored]; exact List.mem_cons_self ..)
    rw [hfilled] at hlen
    have hint : got.len = Int32.ofNat (q.queue q.head).frame.data.length := by
      rw [← hlen, ofNat_toNat_toUInt32]
    obtain ⟨fifo, hpop, hitems⟩ := pop_of_cons (t := t.fifo) (h.frames.symm.trans hframes)
    obtain ⟨-, -, hq'⟩ := CDVQueue.getLocked_eq_some hsome
    refine ⟨⟨ring, some got⟩, q', ?_, ?_⟩
    · simp only [RingUser.step, RingSpec.step, hpop]
      rw [hget, Option.map_some]
      dsimp only
      rw [hduration, hint, Buffer.frame]
    · simp only [RingSpec.step, hpop]
      refine ⟨hholds, hvalid, by rw [hq']; exact h.size, by rw [hq']; exact h.dataSize, hitems.symm,
        fun b hb => h.filled b (by rw [hstored]; exact List.mem_cons_of_mem _ hb), .inr ?_⟩
      refine ⟨got, _, rfl, rfl, by rw [hheld], hlen, ?_⟩
      rw [heldIndex_of_got h.valid hsome, hqueue, hdata]

/-- The data that the worker was handed can be read until it asks for more. -/
theorem Serves.handed_data (h : Serves dataSize s t q) {got : FlatQueue.Got}
    (hgot : s.handed = some got) : ∃ frame, t.last = some frame ∧ frame.data.length ≤ dataSize ∧
      got.len.toUInt32.toNat = frame.data.length ∧
      s.ring.buffers.read got.data frame.data.length = some frame.data := by
  rcases h.handed with ⟨hnone, -⟩ | ⟨got', frame, hgot', hlast, hout⟩
  · rw [hnone] at hgot
    cases hgot
  · obtain rfl := Option.some.inj (hgot.symm.trans hgot')
    have hindex : (q.head + (q.queueSize - 1)) % q.queueSize < s.ring.queueSize := by
      rw [h.holds.queueSize]
      exact Nat.mod_lt _ (by have := h.size; omega)
    have hslot : (q.queue ((q.head + (q.queueSize - 1)) % q.queueSize)).frame = frame := hout.slot
    obtain ⟨hfits, hread⟩ := h.holds.read_slot hindex
    rw [hslot] at hfits hread
    refine ⟨frame, hlast, by rwa [← h.dataSize, ← h.holds.dataSize], hout.len, ?_⟩
    rw [hout.data, hread]

theorem Serves.last_of_none (h : Serves dataSize s t q) (hgot : s.handed = none) : t.last = none := by
  rcases h.handed with ⟨-, hlast⟩ | ⟨got, frame, hsome, -⟩
  · exact hlast
  · rw [hgot] at hsome
    cases hsome

theorem Serves.reread (h : Serves dataSize s t q) :
    s.step .reread = some ((t.step dataSize .reread).1, s) ∧ (t.step dataSize .reread).2 = t := by
  cases hgot : s.handed with
  | none =>
    simp only [RingUser.step, RingSpec.step, hgot, h.last_of_none hgot, and_self]
  | some got =>
    obtain ⟨frame, hlast, -, hlen, hread⟩ := h.handed_data hgot
    simp only [RingUser.step, RingSpec.step, hgot, hlast, hlen, hread, Option.map_some, and_self]

theorem Serves.step (h : Serves dataSize s t q) (op : RingOp) :
    ∃ s' q', s.step op = some ((t.step dataSize op).1, s') ∧
      Serves dataSize s' (t.step dataSize op).2 q' := by
  cases op with
  | put duration data => exact h.put duration data
  | get => exact h.get
  | reread =>
    obtain ⟨hstep, hspec⟩ := h.reread
    exact ⟨s, q, hstep, by rw [hspec]; exact h⟩

theorem Serves.answers (h : Serves dataSize s t q) (ops : List RingOp) :
    s.answers ops = some (t.answers dataSize ops) := by
  induction ops generalizing s t q with
  | nil => rfl
  | cons op ops ih =>
    obtain ⟨s', q', hstep, hserves⟩ := h.step op
    rw [RingUser.answers, hstep, Option.bind_some, ih hserves, Option.map_some, RingSpec.answers]

theorem start_serves {memory : Nat → UInt8} (hfit : BlockFits cap dataSize) :
    Serves dataSize ⟨FlatQueue.new cap dataSize memory, none⟩ (RingSpec.start cap)
      (CDVQueue.new cap dataSize (FlatQueue.new cap dataSize memory).bufferAt) :=
  ⟨FlatQueue.new_holds hfit, CDVQueue.new_valid _ _ _, rfl, rfl, rfl, nofun, .inl ⟨rfl, rfl⟩⟩

/-- Whatever the memory held, in whatever order frames are stored, taken and
read: no access leaves the block, and the answers are those of the bounded
queue, the data of a frame that was handed out included. -/
theorem ring_in_block (hfit : BlockFits cap dataSize)
    (memory : Nat → UInt8) (ops : List RingOp) :
    RingUser.answers ⟨FlatQueue.new cap dataSize memory, none⟩ ops =
      some ((RingSpec.start cap).answers dataSize ops) :=
  (start_serves hfit).answers ops

/-- A frame that is too long is cut down to its slot, which the next does not
reach. -/
theorem two_slots_in_block :
    RingUser.answers ⟨FlatQueue.new 2 3 fun i => UInt8.ofNat i, none⟩
        [.put 40 [1, 2, 3, 4], .put 33 [5, 6], .put 33 [7], .get, .put 33 [8], .reread, .get, .reread] =
      some [.stored, .stored, .full, .handed 40 3, .stored, .data [1, 2, 3], .handed 33 2,
        .data [5, 6]] :=
  have hfit : BlockFits 2 3 := by decide
  (ring_in_block hfit _ _).trans (by decide)

end WinDV
