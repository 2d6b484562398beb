import WinDV.QueueFifo

/-! Wakeups of `CDVQueue`. Each side tests the ring in its locked section and
waits after it has let go of the lock; the event that the other side signals in
between stays signalled until the wait takes it. -/

namespace WinDV.QueueThreads

open Transition

def ConsumerBlocked (s : QueueThreads) : Prop :=
  (∃ v, s.consumer = .waiting v) ∧ s.q.evGet = false

def ProducerBlocked (s : QueueThreads) : Prop :=
  (∃ f, s.producer = .waiting f) ∧ s.q.evPut = false

/-- Whoever is blocked has nothing to do and was not told of the end. -/
structure NoLostWakeup (s : QueueThreads) : Prop where
  consumer_empty : s.ConsumerBlocked → ¬ 0 < s.q.load
  consumer_end : s.ConsumerBlocked → ¬ (s.q.isEnd = true ∧ s.finalizer = .returned)
  producer_full : s.ProducerBlocked → ¬ s.q.load < s.q.queueSize - 1
  producer_end : s.ProducerBlocked → ¬ (s.q.isEnd = true ∧ s.finalizer = .returned)
  not_both : ¬ (s.ConsumerBlocked ∧ s.ProducerBlocked)

/-- The end of the stream was written, and `m_evGet` signalled after it. -/
def toldConsumer (pc : FinalizerPc) : Prop := pc = .signallingPut ∨ pc = .returned

/-- Where each thread stands, the signals that it may still need are there. -/
structure Signalled (s : QueueThreads) : Prop where
  get_of_load : ∀ v, s.consumer = .testEnd v ∨ s.consumer = .waiting v → 0 < s.q.load →
    s.q.evGet = true
  get_of_end : toldConsumer s.finalizer → ∀ v, s.consumer = .waiting v → s.q.evGet = true
  put_of_room : ∀ f, s.producer = .waiting f → s.q.load < s.q.queueSize - 1 → s.q.evPut = true
  put_of_end : s.finalizer = .returned → ∀ f, s.producer = .locking f ∨ s.producer = .waiting f →
    s.q.evPut = true
  end_of_told : s.finalizer = .signallingGet ∨ toldConsumer s.finalizer → s.q.isEnd = true

variable {s t : QueueThreads}

theorem start_signalled (queueSize dataSize : Nat) (memory : Nat → Buffer) :
    Signalled (start queueSize dataSize memory) where
  get_of_load v h := by simp [start] at h
  get_of_end h := by simp [start, toldConsumer] at h
  put_of_room f h := by simp [start] at h
  put_of_end h := by simp [start] at h
  end_of_told h := by simp [start, toldConsumer] at h

theorem Signalled.putAccepted (h : s.Signalled) {f : Frame} {q : CDVQueue}
    (hq : s.q.putLocked f.duration f.data f.data.length = some q) :
    Signalled { s with q := q, producer := .outside, accepted := s.accepted ++ [f] } := by
  obtain ⟨-, -, -, -, -, -, hend, -, hget, -⟩ := CDVQueue.putLocked_eq_some hq
  exact
    { get_of_load := fun _ _ _ => hget
      get_of_end := fun _ _ _ => hget
      put_of_room := by simp
      put_of_end := by simp
      end_of_told := fun ht => hend.trans (h.end_of_told ht) }

theorem Signalled.gotFrame (h : s.Signalled) {i : Nat} {q : CDVQueue}
    (hq : s.q.getLocked = some (i, q)) :
    Signalled { s with
      q := q, consumer := .outside, returned := s.returned ++ [(s.q.queue i).frame] } := by
  obtain ⟨-, -, rfl⟩ := CDVQueue.getLocked_eq_some hq
  exact
    { get_of_load := by simp
      get_of_end := by simp
      put_of_room := fun _ _ _ => rfl
      put_of_end := fun _ _ _ => rfl
      end_of_told := h.end_of_told }

/-- A consumer that neither waits nor is about to needs no signal. -/
theorem Signalled.consumer_moves (h : s.Signalled) {pc : ConsumerPc}
    (hpc : ∀ v, pc ≠ .testEnd v ∧ pc ≠ .waiting v) : Signalled { s with consumer := pc } :=
  { h with
    get_of_load := fun v hc => (hc.elim (hpc v).1 (hpc v).2).elim
    get_of_end := fun _ v hc => absurd hc (hpc v).2 }

/-- The same of a producer that did not find the stream open. -/
theorem Signalled.producer_moves (h : s.Signalled) {pc : ProducerPc}
    (hpc : ∀ f, pc ≠ .locking f ∧ pc ≠ .waiting f) : Signalled { s with producer := pc } :=
  { h with
    put_of_room := fun f hp => absurd hp (hpc f).2
    put_of_end := fun _ f hp => (hp.elim (hpc f).1 (hpc f).2).elim }

theorem Signalled.step (h : s.Signalled) {a : QueueAction} (hstep : Steps s a t) : t.Signalled := by
  cases hstep with
  | putCalled f hp => exact h.producer_moves (by simp)
  | sourceStopped hp => exact h.producer_moves (by simp)
  | putSawEnd f hp he => exact h.producer_moves (by simp)
  | putSawOpen f hp he =>
    have hopen : s.finalizer ≠ .returned := fun hf => by
      have := h.end_of_told (.inr (.inr hf))
      simp [he] at this
    exact { h with
      put_of_room := by simp
      put_of_end := fun hf => absurd hf hopen }
  | putAccepted f q hp hq => exact h.putAccepted hq
  | putFull f hp hq =>
    have hfull : ¬ s.q.load < s.q.queueSize - 1 := fun hroom => by
      simp [CDVQueue.putLocked, hroom] at hq
    exact { h with
      put_of_room := fun _ _ hroom => absurd hroom hfull
      put_of_end := fun hf _ _ => h.put_of_end hf f (.inl hp) }
  | putWoken f hp he =>
    exact { h with
      put_of_room := by simp
      put_of_end := by simp }
  | finalizeCalled hf =>
    exact { h with
      get_of_end := by simp [toldConsumer]
      put_of_end := by simp
      end_of_told := by simp [toldConsumer] }
  | endSet hf =>
    exact { h with
      get_of_end := by simp [toldConsumer]
      put_of_end := by simp
      end_of_told := fun _ => rfl }
  | getSignalled hf =>
    exact { h with
      get_of_load := fun _ _ _ => rfl
      get_of_end := fun _ _ _ => rfl
      put_of_end := by simp
      end_of_told := fun _ => h.end_of_told (.inl hf) }
  | putSignalled hf =>
    exact { h with
      get_of_end := fun _ => h.get_of_end (.inl hf)
      put_of_room := fun _ _ _ => rfl
      put_of_end := fun _ _ _ => rfl
      end_of_told := fun _ => h.end_of_told (.inr (.inl hf)) }
  | getCalled v hc => exact h.consumer_moves (by simp)
  | gotFrame v i q c hc hq => exact h.gotFrame hq
  | sawEmpty v c hc hq =>
    have hempty := CDVQueue.getLocked_eq_none hq
    exact { h with
      get_of_load := fun _ _ hload => absurd hempty (Nat.ne_of_gt hload)
      get_of_end := by simp }
  | getSawEnd v c hc he => exact h.consumer_moves (by simp)
  | getSawOpen v c hc he =>
    -- who reads `m_end` as false still waits ahead of the signal that follows its write
    have hopen : ¬ toldConsumer s.finalizer := fun ht => by
      have := h.end_of_told (.inr ht)
      simp [he] at this
    exact { h with
      get_of_load := fun _ _ => h.get_of_load v (.inl hc)
      get_of_end := fun ht => absurd ht hopen }
  | getWoken v c hc he =>
    exact { h with
      get_of_load := by simp
      get_of_end := by simp }
  | workerEnded v c hc he => exact h.consumer_moves (by simp)
  | workerSawOpen v c hc he => exact h.consumer_moves (by simp)
  | workerLost c hc => exact h.consumer_moves (by simp)
  | workerLoops c hc => exact h.consumer_moves (by simp)
  | timedOut hc he => exact h.consumer_moves (by simp)

theorem Signalled.noLostWakeup (h : s.Signalled) (hsize : 1 < s.q.queueSize) : s.NoLostWakeup := by
  have hempty : s.ConsumerBlocked → ¬ 0 < s.q.load := by
    rintro ⟨⟨v, hc⟩, hev⟩ hload
    rw [h.get_of_load v (.inr hc) hload] at hev
    cases hev
  have hfull : s.ProducerBlocked → ¬ s.q.load < s.q.queueSize - 1 := by
    rintro ⟨⟨f, hp⟩, hev⟩ hroom
    rw [h.put_of_room f hp hroom] at hev
    cases hev
  refine ⟨hempty, ?_, hfull, ?_, ?_⟩
  · rintro ⟨⟨v, hc⟩, hev⟩ ⟨-, hf⟩
    rw [h.get_of_end (.inr hf) v hc] at hev
    cases hev
  · rintro ⟨⟨f, hp⟩, hev⟩ ⟨-, hf⟩
    rw [h.put_of_end hf f (.inr hp)] at hev
    cases hev
  · rintro ⟨hc, hp⟩
    have hno := hempty hc
    have hno' := hfull hp
    omega

/-- However the threads interleave, nobody is left waiting for a signal that
was given away, so one side of the queue can always go on. -/
theorem no_lost_wakeup {queueSize dataSize : Nat} {memory : Nat → Buffer}
    {acts : List QueueAction} {s : QueueThreads} (hsize : 1 ≤ queueSize)
    (hrun : Run anyStep (fun _ _ => True) (start queueSize dataSize memory) acts s) :
    s.NoLostWakeup := by
  have hkeep : ∀ t a u, Signalled t → True → anyStep t a = some u → Signalled u := by
    intro t a u h _ hstep
    rcases anyStep_cases hstep with hsteps | ⟨v, -, rfl⟩
    · exact h.step hsteps
    · exact h.consumer_moves (by simp)
  refine (hrun.invariant hkeep (start_signalled _ _ _)).noLostWakeup ?_
  have hfifo : BoundedFifo queueSize dataSize s :=
    hrun.invariant (fun _ _ _ h _ hstep => h.anyStep hstep) (start_boundedFifo _ _ _)
  have hq := hfifo.size_eq
  omega

/-- The ring of one slot is full, the producer waits, and the consumer empties it. -/
def fullRing : List QueueAction :=
  [.put ⟨400000, [1]⟩, .producer, .producer, .put ⟨400000, [2]⟩, .producer, .producer]

theorem fullRing_wakes : ∃ s : QueueThreads,
    Run anyStep (fun _ _ => True) (start 1 2 fun _ => ⟨0, 0, []⟩) fullRing s ∧
      s.ProducerBlocked ∧ s.NoLostWakeup := by
  have hrun : Run anyStep (fun _ _ => True) (start 1 2 fun _ => ⟨0, 0, []⟩) fullRing _ :=
    run_of_exec rfl
  exact ⟨_, hrun, ⟨⟨_, rfl⟩, rfl⟩, no_lost_wakeup (by decide) hrun⟩

end WinDV.QueueThreads
