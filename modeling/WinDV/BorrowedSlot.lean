import WinDV.QueueFifo

/-! The slot whose data pointer `Get` returned: the worker goes on reading it
until it calls `Get` again, while the producer runs. -/

namespace WinDV.QueueThreads

open Transition

/-- The worker stays with the frame it has. -/
def KeepsFrame (a : QueueAction) : Prop := ∀ v, a ≠ .get v

instance (a : QueueAction) : Decidable (KeepsFrame a) :=
  match a with
  | .get v => .isFalse fun h => h v rfl
  | .put _ | .stopSource | .producer | .finalize | .finalizer | .consumer _ | .timeout =>
    .isTrue (show KeepsFrame _ from nofun)

/-- The worker reads slot `i`, which holds what it held when it was handed out. -/
structure Borrowed (i : Nat) (b : Buffer) (s : QueueThreads) : Prop where
  valid : s.q.Valid
  outside : s.consumer = .outside
  index : i = (s.q.head + (s.q.queueSize - 1)) % s.q.queueSize
  kept : s.q.queue i = b

variable {queueSize dataSize : Nat} {s t : QueueThreads} {i : Nat} {b : Buffer} {a : QueueAction}

theorem Borrowed.tail_ne (h : Borrowed i b s) (hroom : s.q.load < s.q.queueSize - 1) :
    s.q.tail ≠ i := by
  rw [h.index]
  exact (CDVQueue.held_ne_tail h.valid hroom).symm

theorem borrowed_of_got {v : GetVariant} {q : CDVQueue} {c : Bool} (hv : s.q.Valid)
    (hc : s.consumer = .locking v) (hget : s.q.getLocked = some (i, q))
    (hstep : s.anyStep (.consumer c) = some t) : Borrowed i (s.q.queue i) t := by
  have ht : t = { s with
      q := q, consumer := .outside, returned := s.returned ++ [(s.q.queue i).frame] } := by
    simpa [anyStep, step, consumerStep, hc, hget] using hstep.symm
  have hvalid := CDVQueue.getLocked_valid hv hget
  obtain ⟨-, rfl, hq⟩ := CDVQueue.getLocked_eq_some hget
  rw [ht]
  refine ⟨hvalid, rfl, ?_, ?_⟩
  · have hlt := hv.head_lt
    have hpos : 0 < s.q.queueSize := by omega
    simp only [hq]
    rw [Nat.mod_add_mod, show s.q.head + 1 + (s.q.queueSize - 1) = s.q.head + s.q.queueSize by omega,
      Nat.add_mod_right, Nat.mod_eq_of_lt hlt]
  · simp only [hq]

theorem Borrowed.putAccepted (h : Borrowed i b s) {f : Frame} {q : CDVQueue}
    (hq : s.q.putLocked f.duration f.data f.data.length = some q) :
    Borrowed i b { s with q := q, producer := .outside, accepted := s.accepted ++ [f] } := by
  have hvalid := CDVQueue.putLocked_valid h.valid hq
  obtain ⟨hroom, -, hsize, hhead, -, -, -, -, -, c, -, hqueue⟩ := CDVQueue.putLocked_eq_some hq
  refine ⟨hvalid, h.outside, ?_, ?_⟩
  · rw [hhead, hsize]
    exact h.index
  · rw [hqueue, Function.update_of_ne (h.tail_ne hroom).symm]
    exact h.kept

theorem Borrowed.step (h : Borrowed i b s) (hkeeps : KeepsFrame a) (hstep : s.anyStep a = some t) :
    Borrowed i b t := by
  have hv := h.valid
  have hout := h.outside
  have hsteps : Steps s a t := by
    cases a with
    | get v => exact absurd rfl (hkeeps v)
    | _ => exact steps_of_step hstep
  cases hsteps with
  | putAccepted f q hp hq => exact h.putAccepted hq
  | getCalled v hc => exact absurd rfl (hkeeps v)
  -- the worker is in no call, and the tests after one that failed are over
  | gotFrame v j q c hc hq => simp [hout] at hc
  | sawEmpty v c hc hq => simp [hout] at hc
  | getSawEnd v c hc he => simp [hout] at hc
  | getSawOpen v c hc he => simp [hout] at hc
  | getWoken v c hc he => simp [hout] at hc
  | workerEnded v c hc he => simp [hout] at hc
  | workerSawOpen v c hc he => simp [hout] at hc
  | workerLost c hc => simp [hout] at hc
  | workerLoops c hc => simp [hout] at hc
  | timedOut hc he => simp [hout] at hc
  | _ => exact ⟨⟨hv.head_lt, hv.load_lt, hv.tail_eq⟩, hout, h.index, h.kept⟩

/-- The next frame that `Get` hands out is the first one accepted that was not
handed out yet, as far as it fits the slot. -/
theorem BoundedFifo.next_accepted (h : BoundedFifo queueSize dataSize s) {q : CDVQueue}
    (hget : s.q.getLocked = some (i, q)) :
    ∃ f, s.accepted[s.returned.length]? = some f ∧ (s.q.queue i).frame = f.clamp dataSize ∧
      (s.q.queue i).len = min f.data.length dataSize := by
  have hstored := CDVQueue.getLocked_stored h.valid hget
  have horder := h.order
  rw [hstored, List.map_cons] at horder
  have hnext : (s.accepted.map (·.clamp dataSize))[s.returned.length]? =
      some (s.q.queue i).frame := by
    rw [horder, List.getElem?_append_right (Nat.le_refl _), Nat.sub_self, List.getElem?_cons_zero]
  rw [List.getElem?_map, Option.map_eq_some_iff] at hnext
  obtain ⟨f, hf, hframe⟩ := hnext
  have hlen := h.filled (s.q.queue i) (hstored ▸ List.mem_cons_self)
  refine ⟨f, hf, hframe.symm, ?_⟩
  rw [hlen, ← hframe, Frame.clamp, List.length_take, Nat.min_comm]

/-- From the moment `Get` hands out slot `i` until the worker calls it again, no
`Put` writes the slot, and it holds the frame that was put. -/
theorem borrowed_slot_intact {queueSize dataSize : Nat} {memory : Nat → Buffer}
    {acts rest : List QueueAction} {s s' t : QueueThreads} {v : GetVariant} {i : Nat} {q : CDVQueue}
    {c : Bool}
    (hrun : Run anyStep (fun _ _ => True) (start queueSize dataSize memory) acts s)
    (hcall : s.consumer = .locking v) (hget : s.q.getLocked = some (i, q))
    (hreturn : s.anyStep (.consumer c) = some s')
    (hrest : Run anyStep (fun _ a => KeepsFrame a) s' rest t) :
    (∀ (f : Frame) q', t.q.putLocked f.duration f.data f.data.length = some q' → t.q.tail ≠ i) ∧
      t.q.queue i = s.q.queue i ∧
      ∃ f, s.accepted[s.returned.length]? = some f ∧ (t.q.queue i).frame = f.clamp dataSize ∧
        (t.q.queue i).len = min f.data.length dataSize := by
  have hfifo : BoundedFifo queueSize dataSize s :=
    hrun.invariant (fun _ _ _ h _ hstep => h.anyStep hstep) (start_boundedFifo _ _ _)
  have hborrowed : Borrowed i (s.q.queue i) t :=
    hrest.invariant (fun _ _ _ h hkeeps hstep => h.step hkeeps hstep)
      (borrowed_of_got hfifo.valid hcall hget hreturn)
  refine ⟨fun f q' hput => hborrowed.tail_ne (CDVQueue.putLocked_eq_some hput).1,
    hborrowed.kept, ?_⟩
  rw [hborrowed.kept]
  exact hfifo.next_accepted hget

end WinDV.QueueThreads
