import WinDV.QueueThreads

/-! `CDVQueue` as a bounded first-in first-out queue: whatever the threads do,
the frames that `Put` accepted are those handed to the consumer followed by
those in the ring, and the slot that was handed out last is left alone. -/

namespace WinDV

open Transition RingBuffer

def ConsumerPc.calling : ConsumerPc → Bool
  | .locking _ => true
  | .testEnd _ => true
  | .waiting _ => true
  | _ => false

namespace QueueThreads

/-- The threads around a consumer that calls `Get` or `GetWithTimeout`
whenever it is not in a call, also after one returned false. -/
def anyStep (s : QueueThreads) : QueueAction → Option QueueThreads
  | .get v => if s.consumer.calling then none else some { s with consumer := .locking v }
  | a => s.step a

theorem anyStep_cases {s t : QueueThreads} {a : QueueAction} (h : s.anyStep a = some t) :
    Steps s a t ∨ ∃ v, s.consumer.calling = false ∧ t = { s with consumer := .locking v } := by
  cases a with
  | get v =>
    simp only [anyStep] at h
    split at h
    · cases h
    · next hc => exact .inr ⟨v, Bool.eq_false_iff.mpr hc, (Option.some.inj h).symm⟩
  | put f => exact .inl (steps_of_step h)
  | stopSource => exact .inl (steps_of_step h)
  | producer => exact .inl (steps_of_step h)
  | finalize => exact .inl (steps_of_step h)
  | finalizer => exact .inl (steps_of_step h)
  | consumer c => exact .inl (steps_of_step h)
  | timeout => exact .inl (steps_of_step h)

theorem anyStep_of_step {s t : QueueThreads} {a : QueueAction} (h : s.step a = some t) :
    s.anyStep a = some t := by
  cases a with
  | get v =>
    simp only [step, Option.ite_none_right_eq_some, Option.some.injEq] at h
    obtain ⟨hc, rfl⟩ := h
    simp [anyStep, hc, ConsumerPc.calling]
  | put f => exact h
  | stopSource => exact h
  | producer => exact h
  | finalize => exact h
  | finalizer => exact h
  | consumer c => exact h
  | timeout => exact h

end QueueThreads

namespace CDVQueue

/-- The slot before the head, which `Get` handed out last. -/
def heldSlot (q : CDVQueue) : Buffer := q.queue ((q.head + (q.queueSize - 1)) % q.queueSize)

def stored (q : CDVQueue) : List Buffer := contents q.queue q.queueSize q.head q.load

theorem putLocked_filled {q q' : CDVQueue} {f : Frame}
    (h : q.putLocked f.duration f.data f.data.length = some q') :
    (q'.queue q.tail).len = (q'.queue q.tail).frame.data.length := by
  unfold putLocked at h
  split at h
  · obtain rfl := Option.some.inj h
    simp only [Function.update_self, Buffer.frame, List.length_take, List.length_append]
    split <;> omega
  · cases h

theorem putLocked_stored {q q' : CDVQueue} {f : Frame} (hv : q.Valid)
    (h : q.putLocked f.duration f.data f.data.length = some q') :
    q'.stored = q.stored ++ [q'.queue q.tail] := by
  obtain ⟨-, -, hsize, hhead, -, hload, -, -, -, b, -, hqueue⟩ := putLocked_eq_some h
  rw [stored, hqueue, hsize, hhead, hload, hv.tail_eq, contents_push _ hv.load_lt, stored,
    Function.update_self]

theorem held_ne_tail {q : CDVQueue} (hv : q.Valid) (hroom : q.load < q.queueSize - 1) :
    (q.head + (q.queueSize - 1)) % q.queueSize ≠ q.tail := by
  rw [hv.tail_eq]
  intro heq
  have hlt := hv.load_lt
  have := slot_injective (by omega) hlt heq
  omega

/-- `Put` leaves the slot alone that the consumer still reads. -/
theorem putLocked_heldSlot {q q' : CDVQueue} {f : Frame} (hv : q.Valid)
    (h : q.putLocked f.duration f.data f.data.length = some q') : q'.heldSlot = q.heldSlot := by
  obtain ⟨hroom, -, hsize, hhead, -, -, -, -, -, b, -, hqueue⟩ := putLocked_eq_some h
  rw [heldSlot, hsize, hhead, hqueue, Function.update_of_ne (held_ne_tail hv hroom), heldSlot]

theorem getLocked_heldSlot {q q' : CDVQueue} {i : Nat} (hv : q.Valid)
    (h : q.getLocked = some (i, q')) : q'.heldSlot = q.queue i := by
  obtain ⟨-, rfl, rfl⟩ := getLocked_eq_some h
  have hlt := hv.head_lt
  have hindex : ((q.head + 1) % q.queueSize + (q.queueSize - 1)) % q.queueSize = q.head := by
    rw [Nat.mod_add_mod, show q.head + 1 + (q.queueSize - 1) = q.head + q.queueSize by omega,
      Nat.add_mod_right, Nat.mod_eq_of_lt hlt]
  exact congrArg q.queue hindex

theorem getLocked_stored {q q' : CDVQueue} {i : Nat} (hv : q.Valid)
    (h : q.getLocked = some (i, q')) : q.stored = q.queue i :: q'.stored := by
  obtain ⟨hload, rfl, rfl⟩ := getLocked_eq_some h
  exact contents_pop _ hload hv.head_lt

end CDVQueue

namespace QueueThreads

/-- Between any two steps: the ring is well formed and holds, in order, the
frames that were accepted and not yet returned, every slot counts the bytes it
holds, and the slot handed out last still holds the frame it was read for. -/
structure BoundedFifo (queueSize dataSize : Nat) (s : QueueThreads) : Prop where
  size_eq : s.q.queueSize = queueSize + 1
  dataSize_eq : s.q.dataSize = dataSize
  head_lt : s.q.head < s.q.queueSize
  load_le : s.q.load ≤ s.q.queueSize - 1
  tail_eq : s.q.tail = (s.q.head + s.q.load) % s.q.queueSize
  order : s.accepted.map (·.clamp dataSize) = s.returned ++ s.q.stored.map Buffer.frame
  filled : ∀ b ∈ s.q.stored, b.len = b.frame.data.length
  held : ∀ f, s.returned.getLast? = some f →
    s.q.heldSlot.frame = f ∧ s.q.heldSlot.len = f.data.length

variable {queueSize dataSize : Nat} {s t : QueueThreads}

theorem BoundedFifo.valid (h : BoundedFifo queueSize dataSize s) : s.q.Valid := by
  have hsize := h.size_eq
  have hload := h.load_le
  exact ⟨h.head_lt, by omega, h.tail_eq⟩

theorem start_boundedFifo (queueSize dataSize : Nat) (memory : Nat → Buffer) :
    BoundedFifo queueSize dataSize (start queueSize dataSize memory) where
  size_eq := rfl
  dataSize_eq := rfl
  head_lt := Nat.succ_pos _
  load_le := Nat.zero_le _
  tail_eq := rfl
  order := rfl
  filled b hb := absurd hb List.not_mem_nil
  held f hf := by cases hf

/-- Only the locked sections of `Put` and `Get` touch the ring. -/
theorem BoundedFifo.frame (h : BoundedFifo queueSize dataSize s)
    (hqueue : t.q.queue = s.q.queue) (hdata : t.q.dataSize = s.q.dataSize)
    (hsize : t.q.queueSize = s.q.queueSize) (hhead : t.q.head = s.q.head)
    (htail : t.q.tail = s.q.tail) (hload : t.q.load = s.q.load)
    (haccepted : t.accepted = s.accepted) (hreturned : t.returned = s.returned) :
    BoundedFifo queueSize dataSize t := by
  have hstored : t.q.stored = s.q.stored := by
    rw [CDVQueue.stored, hqueue, hsize, hhead, hload, CDVQueue.stored]
  have hheld : t.q.heldSlot = s.q.heldSlot := by
    rw [CDVQueue.heldSlot, hqueue, hsize, hhead, CDVQueue.heldSlot]
  refine ⟨hsize.trans h.size_eq, hdata.trans h.dataSize_eq, ?_, ?_, ?_, ?_, ?_, ?_⟩
  · rw [hhead, hsize]
    exact h.head_lt
  · rw [hload, hsize]
    exact h.load_le
  · rw [htail, hhead, hload, hsize]
    exact h.tail_eq
  · rw [haccepted, hreturned, hstored]
    exact h.order
  · rw [hstored]
    exact h.filled
  · rw [hreturned, hheld]
    exact h.held

theorem BoundedFifo.putAccepted (h : BoundedFifo queueSize dataSize s) {f : Frame} {q : CDVQueue}
    (hq : s.q.putLocked f.duration f.data f.data.length = some q) :
    BoundedFifo queueSize dataSize
      { s with q := q, producer := .outside, accepted := s.accepted ++ [f] } := by
  have hvalid := CDVQueue.putLocked_valid h.valid hq
  have hstored := CDVQueue.putLocked_stored h.valid hq
  have hheld := CDVQueue.putLocked_heldSlot h.valid hq
  have hfilled := CDVQueue.putLocked_filled hq
  have hframe : (q.queue s.q.tail).frame = f.clamp dataSize := by
    obtain ⟨-, -, -, -, -, -, -, -, -, b, hb, hqueue⟩ := CDVQueue.putLocked_eq_some hq
    rw [hqueue, Function.update_self, hb, h.dataSize_eq]
  obtain ⟨hroom, hdata, hsize, -⟩ := CDVQueue.putLocked_eq_some hq
  refine ⟨hsize.trans h.size_eq, hdata.trans h.dataSize_eq, hvalid.head_lt, ?_, hvalid.tail_eq,
    ?_, ?_, ?_⟩
  · have hlt := hvalid.load_lt
    show q.load ≤ q.queueSize - 1
    omega
  · show (s.accepted ++ [f]).map _ = s.returned ++ q.stored.map Buffer.frame
    rw [hstored, List.map_append, List.map_append, h.order, List.append_assoc, List.map_singleton,
      List.map_singleton, hframe]
  · intro b hb
    rw [show q.stored = _ from hstored] at hb
    rcases List.mem_append.mp hb with hb | hb
    · exact h.filled b hb
    · obtain rfl := List.mem_singleton.mp hb
      exact hfilled
  · intro g hg
    rw [show q.heldSlot = _ from hheld]
    exact h.held g hg

theorem BoundedFifo.gotFrame (h : BoundedFifo queueSize dataSize s) {i : Nat} {q : CDVQueue}
    (hq : s.q.getLocked = some (i, q)) :
    BoundedFifo queueSize dataSize { s with
      q := q, consumer := .outside, returned := s.returned ++ [(s.q.queue i).frame] } := by
  have hvalid := CDVQueue.getLocked_valid h.valid hq
  have hstored := CDVQueue.getLocked_stored h.valid hq
  have hheld := CDVQueue.getLocked_heldSlot h.valid hq
  have hfilled : (s.q.queue i).len = (s.q.queue i).frame.data.length :=
    h.filled _ (hstored ▸ List.mem_cons_self)
  have hrest : ∀ b ∈ q.stored, b.len = b.frame.data.length := fun b hb =>
    h.filled b (hstored ▸ List.mem_cons_of_mem _ hb)
  have horder := h.order
  rw [hstored] at horder
  obtain ⟨-, rfl, rfl⟩ := CDVQueue.getLocked_eq_some hq
  refine ⟨h.size_eq, h.dataSize_eq, hvalid.head_lt, ?_, hvalid.tail_eq, ?_, hrest, ?_⟩
  · have hlt := h.load_le
    show s.q.load - 1 ≤ s.q.queueSize - 1
    omega
  · rw [horder, List.map_cons, List.append_assoc, List.singleton_append]
  · intro f hf
    rw [List.getLast?_concat] at hf
    obtain rfl := Option.some.inj hf
    rw [hheld]
    exact ⟨rfl, hfilled⟩

theorem BoundedFifo.step (h : BoundedFifo queueSize dataSize s) {a : QueueAction}
    (hstep : Steps s a t) : BoundedFifo queueSize dataSize t := by
  cases hstep with
  | putAccepted f q hp hq => exact h.putAccepted hq
  | gotFrame v i q c hc hq => exact h.gotFrame hq
  | _ => exact h.frame rfl rfl rfl rfl rfl rfl rfl rfl

theorem BoundedFifo.anyStep (h : BoundedFifo queueSize dataSize s) {a : QueueAction}
    (hstep : s.anyStep a = some t) : BoundedFifo queueSize dataSize t := by
  rcases anyStep_cases hstep with hsteps | ⟨v, -, rfl⟩
  · exact h.step hsteps
  · exact h.frame rfl rfl rfl rfl rfl rfl rfl rfl

end QueueThreads

end WinDV
