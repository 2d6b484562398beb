import WinDV.BlockThreads

/-! What `CDVQueue` promises to its users, in the block of memory: it is a bounded
first-in first-out queue, and the slot that was handed out last is left alone. -/

namespace WinDV.BlockThreads

open Transition RingBuffer

/-- The slots from the head on. -/
def stored (s : BlockThreads) : List Buffer :=
  contents s.ring.bufferAt s.ring.queueSize s.ring.head s.ring.load

/-- No access has left the block, and it holds, in order, the frames that were accepted and
not yet returned, of each the bytes that fit a slot. -/
structure BoundedFifo (queueSize dataSize : Nat) (s : BlockThreads) : Prop where
  unfaulted : s.faulted = false
  size_eq : s.ring.queueSize = queueSize + 1
  load_le : s.ring.load ≤ s.ring.queueSize - 1
  tail_eq : s.ring.tail = (s.ring.head + s.ring.load) % s.ring.queueSize
  order : s.accepted.map (·.clamp dataSize) = s.returned ++ s.stored.map Buffer.frame
  filled : ∀ b ∈ s.stored, b.len = b.frame.data.length

variable {queueSize dataSize : Nat} {memory : Nat → UInt8} {s t : BlockThreads} {q : QueueThreads}
  {acts rest : List QueueAction}

theorem Ring.boundedFifo (h : Ring queueSize dataSize s q) : BoundedFifo queueSize dataSize s := by
  have hholds := h.refines.holds
  have hstored : s.stored = q.q.stored := h.refines.stored h.fifo.valid
  refine ⟨h.refines.unfaulted, ?_, ?_, ?_, ?_, ?_⟩
  · rw [hholds.queueSize, h.fifo.size_eq]
  · rw [hholds.load, hholds.queueSize]
    exact h.fifo.load_le
  · rw [hholds.tail, hholds.head, hholds.load, hholds.queueSize]
    exact h.fifo.tail_eq
  · rw [h.refines.accepted, h.refines.returned, hstored]
    exact h.fifo.order
  · rw [hstored]
    exact h.fifo.filled

theorem ring_of_run (hfit : BlockFits queueSize dataSize) {p : QueueAction → Prop}
    (hrun : Run step (fun _ a => p a) (start queueSize dataSize memory) acts s) :
    ∃ q, Ring queueSize dataSize s q := by
  obtain ⟨q, -, h⟩ := (start_ring hfit).run hrun
  exact ⟨q, h⟩

/-- Where the size of the block does not wrap, the queue is a bounded first-in first-out
queue under any interleaving of its methods. -/
theorem fifo_in_block (hfit : BlockFits queueSize dataSize)
    (hrun : Run step (fun _ _ => True) (start queueSize dataSize memory) acts s) :
    BoundedFifo queueSize dataSize s := by
  obtain ⟨q, h⟩ := ring_of_run hfit hrun
  exact h.boundedFifo

/-- Two frames through one slot of two bytes. -/
def reusedSlot : List QueueAction :=
  [.put ⟨400000, [1, 2, 3]⟩, .producer, .producer, .get .get, .consumer true,
    .put ⟨333667, [4]⟩, .producer, .producer, .get .getWithTimeout, .consumer true]

theorem reusedSlot_fifo : ∃ s : BlockThreads,
    Run step (fun _ _ => True) (start 1 2 fun _ => 0) reusedSlot s ∧
      s.returned = [⟨400000, [1, 2]⟩, ⟨333667, [4]⟩] ∧ BoundedFifo 1 2 s := by
  have hreturned : (exec step (fun _ _ => True) (start 1 2 fun _ => 0) reusedSlot).any
      (fun s => s.returned = [⟨400000, [1, 2]⟩, ⟨333667, [4]⟩]) = true := by decide +kernel
  obtain ⟨s, hs, hreturned⟩ := (Option.any_eq_true _ _).mp hreturned
  have hrun := run_of_exec hs
  exact ⟨s, hrun, of_decide_eq_true hreturned, fifo_in_block (by decide) hrun⟩

/-- 101 slots of 42524429 bytes need 33 bytes more than 32 bits count: the second frame is
copied to where the second slot would begin. -/
theorem wrapped_block_left : ¬ ∀ (queueSize dataSize : Nat) (memory : Nat → UInt8)
    (acts : List QueueAction) (s : BlockThreads), 1 ≤ queueSize →
      Run step (fun _ _ => True) (start queueSize dataSize memory) acts s →
      BoundedFifo queueSize dataSize s := by
  intro h
  have hfault : (exec step (fun _ _ => True) (start 100 42524413 fun _ => 0)
      [.put ⟨400000, [1]⟩, .producer, .producer, .put ⟨400000, [2]⟩, .producer, .producer]).any
      (·.faulted) = true := by decide +kernel
  obtain ⟨s, hs, hfault⟩ := (Option.any_eq_true _ _).mp hfault
  have hunfaulted := (h 100 42524413 _ _ s (by decide) (run_of_exec hs)).unfaulted
  rw [hfault] at hunfaulted
  cases hunfaulted

/-- In `t` nothing has happened to the slot that `Get` took from the head in `s`, nothing
can happen to it in the next `Put`, and the bytes read through `got` are those put. -/
structure Intact (dataSize : Nat) (s t : BlockThreads) (got : FlatQueue.Got) : Prop where
  unfaulted : t.faulted = false
  kept : t.ring.bufferAt s.ring.head = s.ring.bufferAt s.ring.head
  spared : ∀ (duration : Int64) (data : List UInt8) ring,
    t.ring.putLocked duration data data.length = some (some ring) →
      t.ring.tail ≠ s.ring.head ∧ ring.bufferAt s.ring.head = t.ring.bufferAt s.ring.head
  reads : ∃ f, s.accepted[s.returned.length]? = some f ∧ got.duration.toInt = f.duration ∧
    got.len.toUInt32.toNat = min f.data.length dataSize ∧
    t.ring.buffers.read got.data got.len.toUInt32.toNat = some (f.clamp dataSize).data

/-- A slot in the block and in the ring is the same. -/
theorem Ring.bufferAt_eq (h : Ring queueSize dataSize s q) {i : Nat} (hi : i < s.ring.queueSize) :
    s.ring.bufferAt i = q.q.queue i := h.refines.holds.slots i hi

/-- `Put` leaves the other slots alone, byte by byte. -/
theorem Ring.put_bufferAt (h : Ring queueSize dataSize s q) {duration : Int64} {data : List UInt8}
    {ring : FlatQueue} (hput : s.ring.putLocked duration data data.length = some (some ring)) :
    ∃ r, q.q.putLocked duration.toInt data data.length = some r ∧
      ∀ i < s.ring.queueSize, i ≠ s.ring.tail → ring.bufferAt i = s.ring.bufferAt i := by
  rcases FlatQueue.putLocked_holds h.refines.holds h.fifo.valid duration data with
    ⟨-, hfull⟩ | ⟨ring', r, hroom, hput', hholds⟩
  · rw [hput] at hfull
    cases hfull
  · obtain rfl := Option.some.inj (Option.some.inj (hput.symm.trans hput'))
    refine ⟨r, hroom, fun i hi hne => ?_⟩
    obtain ⟨-, -, hsize, -, -, -, -, -, -, b, -, hqueue⟩ :=
      CDVQueue.putLocked_eq_some (f := ⟨duration.toInt, data⟩) hroom
    have hi' : i < ring.queueSize := by
      rw [hholds.queueSize, hsize, ← h.refines.holds.queueSize]
      exact hi
    rw [hholds.slots i hi', hqueue, Function.update_of_ne (by rwa [← h.refines.holds.tail]),
      h.bufferAt_eq hi]

/-- What `Get` hands out, in the block and in the ring. -/
theorem Ring.got (h : Ring queueSize dataSize s q) {got : FlatQueue.Got} {ring : FlatQueue}
    (hget : s.ring.getLocked = some (some (got, ring))) :
    ∃ r, q.q.getLocked = some (s.ring.head, r) ∧
      got.duration.toInt = (q.q.queue s.ring.head).duration ∧
      got.len.toUInt32.toNat = (q.q.queue s.ring.head).len ∧
      got.data = s.ring.queue s.ring.head + 12 := by
  rw [h.refines.holds.head]
  rcases FlatQueue.getLocked_holds h.refines.holds h.fifo.valid with
    ⟨-, hempty⟩ | ⟨got', ring', r, hsome, hget', hduration, hlen, hdata, -⟩
  · rw [hget] at hempty
    cases hempty
  · obtain ⟨rfl, rfl⟩ := Prod.mk.inj (Option.some.inj (Option.some.inj (hget.symm.trans hget')))
    exact ⟨r, hsome, hduration, hlen, hdata⟩

/-- The slots stay where they are in the block. -/
theorem Ring.slot_eq (h : Ring queueSize dataSize s q) {i : Nat} (hi : i < s.ring.queueSize) :
    s.ring.queue i = (sizeofBuffer + dataSize) * i := by
  rw [h.refines.holds.laid.slot i hi, h.refines.holds.dataSize, h.fifo.dataSize_eq]

/-- Where the size of the block does not wrap: from the moment `Get` hands out a slot until
the worker calls it again, no `Put` writes the slot, and what the worker reads through the
pointer is the frame that was put. -/
theorem borrowed_in_block (hfit : BlockFits queueSize dataSize) {s' : BlockThreads} {v : GetVariant}
    {got : FlatQueue.Got} {ring : FlatQueue} {c : Bool}
    (hrun : Run step (fun _ _ => True) (start queueSize dataSize memory) acts s)
    (hcall : s.consumer = .locking v) (hget : s.ring.getLocked = some (some (got, ring)))
    (hreturn : s.step (.consumer c) = some s')
    (hrest : Run step (fun _ a => QueueThreads.KeepsFrame a) s' rest t) : Intact dataSize s t got := by
  obtain ⟨q, hqrun, h⟩ := (start_ring hfit).run hrun
  obtain ⟨r, hsome, hduration, hlen, hdata⟩ := h.got hget
  obtain ⟨q', hqreturn, h'⟩ := h.follows hreturn
  obtain ⟨u, hqrest, hu⟩ := h'.run hrest
  have hqcall : q.consumer = .locking v := h.refines.consumer ▸ hcall
  obtain ⟨hspared, hkept, f, hf, hframe, hlength⟩ :=
    QueueThreads.borrowed_slot_intact hqrun hqcall hsome hqreturn hqrest
  have hsize : t.ring.queueSize = s.ring.queueSize := by
    rw [hu.refines.holds.queueSize, hu.fifo.size_eq, h.refines.holds.queueSize, h.fifo.size_eq]
  have hhead : s.ring.head < s.ring.queueSize := by
    rw [h.refines.holds.head, h.refines.holds.queueSize]
    exact h.fifo.head_lt
  have hhead' : s.ring.head < t.ring.queueSize := hsize ▸ hhead
  have hlen' : got.len.toUInt32.toNat = min f.data.length dataSize := by
    rw [hlen, ← hkept, hlength]
  refine ⟨hu.refines.unfaulted, ?_, fun duration data ring' hput => ?_, f, ?_, ?_, hlen', ?_⟩
  · rw [hu.bufferAt_eq hhead', hkept, h.bufferAt_eq hhead]
  · obtain ⟨r', hroom, hothers⟩ := hu.put_bufferAt hput
    have hne : t.ring.tail ≠ s.ring.head := by
      rw [hu.refines.holds.tail]
      exact hspared ⟨duration.toInt, data⟩ r' hroom
    exact ⟨hne, hothers _ hhead' hne.symm⟩
  · rw [h.refines.accepted, h.refines.returned, hf]
  · rw [hduration, ← hkept]
    exact congrArg Frame.duration hframe
  · have hread := (hu.refines.holds.read_slot hhead').2
    rw [hframe, hu.slot_eq hhead', ← h.slot_eq hhead, ← hdata] at hread
    rw [hlen', Nat.min_comm, ← List.length_take]
    exact hread

/-- Up to the call of `Get` that takes the frame. -/
def frameTaken : List QueueAction :=
  [.put ⟨400000, [1, 2, 3]⟩, .producer, .producer, .get .get]

/-- The producer fills the ring and waits before the slot of the frame at hand;
then the stream is ended. -/
def ringFilled : List QueueAction :=
  [.put ⟨333667, [4]⟩, .producer, .producer, .put ⟨333667, [5]⟩, .producer, .producer,
    .finalize, .finalizer, .finalizer]

theorem ringFilled_intact : ∃ (s s' t : BlockThreads) (got : FlatQueue.Got),
    Run step (fun _ _ => True) (start 1 2 fun _ => 0) frameTaken s ∧
      s.step (.consumer true) = some s' ∧ Run step (fun _ a => QueueThreads.KeepsFrame a) s' ringFilled t ∧
      t.producer = .waiting ⟨333667, [5]⟩ ∧ Intact 2 s t got := by
  obtain ⟨s, s', t, got, ring, hrun, hcall, hget, hreturn, hrest, hwaiting⟩ :
      ∃ (s s' t : BlockThreads) (got : FlatQueue.Got) (ring : FlatQueue),
        Run step (fun _ _ => True) (start 1 2 fun _ => 0) frameTaken s ∧
        s.consumer = .locking .get ∧ s.ring.getLocked = some (some (got, ring)) ∧
        s.step (.consumer true) = some s' ∧
        Run step (fun _ a => QueueThreads.KeepsFrame a) s' ringFilled t ∧
        t.producer = .waiting ⟨333667, [5]⟩ :=
    ⟨_, _, _, _, _, run_of_exec rfl, rfl, rfl, rfl, run_of_exec rfl, rfl⟩
  exact ⟨s, s', t, got, hrun, hreturn, hrest, hwaiting,
    borrowed_in_block (by decide) hrun hcall hget hreturn hrest⟩

/-- Of three slots of 2147483663 bytes the last one begins at byte 30 of the block, in the
data of the first: the duration of the frame put there is read as its nineteenth byte. -/
theorem wrapped_slot_overwritten : ¬ ∀ (queueSize dataSize : Nat) (memory : Nat → UInt8)
    (acts rest : List QueueAction) (s s' t : BlockThreads) (v : GetVariant) (got : FlatQueue.Got)
    (ring : FlatQueue) (c : Bool), 1 ≤ queueSize →
      Run step (fun _ _ => True) (start queueSize dataSize memory) acts s → s.consumer = .locking v →
      s.ring.getLocked = some (some (got, ring)) → s.step (.consumer c) = some s' →
      Run step (fun _ a => QueueThreads.KeepsFrame a) s' rest t → Intact dataSize s t got := by
  intro h
  obtain ⟨s, s', t, got, ring, hrun, hcall, hget, hreturn, hrest, haccepted, hreturned, hread⟩ :
      ∃ (s s' t : BlockThreads) (got : FlatQueue.Got) (ring : FlatQueue),
        Run step (fun _ _ => True) (start 2 2147483647 fun _ => 0)
          [.put ⟨0, List.replicate 19 0⟩, .producer, .producer, .get .get] s ∧
        s.consumer = .locking .get ∧ s.ring.getLocked = some (some (got, ring)) ∧
        s.step (.consumer true) = some s' ∧
        Run step (fun _ a => QueueThreads.KeepsFrame a) s'
          [.put ⟨0, []⟩, .producer, .producer, .put ⟨1, []⟩, .producer, .producer] t ∧
        s.accepted = [⟨0, List.replicate 19 0⟩] ∧ s.returned = [] ∧
        t.ring.buffers.read got.data got.len.toUInt32.toNat = some (List.replicate 18 0 ++ [1]) :=
    ⟨_, _, _, _, _, run_of_exec rfl, rfl, rfl, rfl, run_of_exec rfl, rfl, rfl, by decide +kernel⟩
  obtain ⟨f, hf, -, -, hbytes⟩ :=
    (h _ _ _ _ _ s s' t _ got ring _ (by decide) hrun hcall hget hreturn hrest).reads
  rw [haccepted, hreturned] at hf
  obtain rfl := Option.some.inj hf
  rw [hread] at hbytes
  exact absurd (Option.some.inj hbytes) (by decide)

end WinDV.BlockThreads
