import WinDV.QueueThreads

/-! The end of a capture. A worker that saw the ring empty reads `m_end`
outside the lock, so a frame and the end of stream that both arrive in between
are taken for an end of stream alone. Runs in which that does not happen hand
every accepted frame to the worker. -/

namespace WinDV.QueueThreads

open Transition

/-- What holds throughout a run that sends the end of stream after the last
frame and never into the window before a read of `m_end`. -/
structure EndInv (s : QueueThreads) : Prop where
  valid : s.q.Valid
  history : s.accepted.map (·.clamp s.q.dataSize) = s.returned ++ s.q.frames
  finalizer_of_end : s.q.isEnd = true → s.finalizer ≠ .outside ∧ s.finalizer ≠ .settingEnd
  stopped_of_finalizer : s.finalizer ≠ .outside → s.producer = .stopped
  signalled_of_load : ∀ v, s.consumer = .testEnd v ∨ s.consumer = .waiting v →
    0 < s.q.load → s.q.evGet = true
  empty_of_end : s.q.isEnd = true → s.BeforeEndTest ∨ s.consumer = .ended → s.q.load = 0
  end_of_concluded : s.ConcludedEnd → s.q.isEnd = true

theorem start_endInv (queueSize dataSize : Nat) (memory : Nat → Buffer) :
    (start queueSize dataSize memory).EndInv where
  valid := CDVQueue.new_valid _ _ _
  history := by simp [start, CDVQueue.frames, CDVQueue.new]
  finalizer_of_end h := by simp [start, CDVQueue.new] at h
  stopped_of_finalizer h := by simp [start] at h
  signalled_of_load v h := by simp [start] at h
  empty_of_end h := by simp [start, CDVQueue.new] at h
  end_of_concluded h := by simp [start, ConcludedEnd] at h

/-- An accepting `Put` runs only before the end of stream is sent. -/
theorem EndInv.open_of_producer {s : QueueThreads} (hi : s.EndInv) (hp : s.producer ≠ .stopped) :
    s.finalizer = .outside ∧ s.q.isEnd = false := by
  have hf : s.finalizer = .outside := by
    by_contra h
    exact hp (hi.stopped_of_finalizer h)
  refine ⟨hf, Bool.eq_false_iff.mpr fun he => ?_⟩
  exact (hi.finalizer_of_end he).1 hf

theorem EndInv.putAccepted {s : QueueThreads} {f : Frame} {q : CDVQueue} (hi : s.EndInv)
    (hp : s.producer = .locking f) (hq : s.q.putLocked f.duration f.data f.data.length = some q) :
    EndInv { s with q := q, producer := .outside, accepted := s.accepted ++ [f] } := by
  obtain ⟨hf, he⟩ := hi.open_of_producer (by simp [hp])
  obtain ⟨-, hdata, -, -, -, -, hend, -, hev, -⟩ := CDVQueue.putLocked_eq_some hq
  have hopen : q.isEnd = false := hend.trans he
  refine ⟨CDVQueue.putLocked_valid hi.valid hq, ?_, ?_, ?_, fun _ _ _ => hev, ?_, ?_⟩
  · simp only [List.map_append, List.map_singleton, hdata, hi.history,
      CDVQueue.putLocked_frames hi.valid hq, List.append_assoc]
  · intro h
    simp [hopen] at h
  · intro h
    exact absurd hf h
  · intro h
    simp [hopen] at h
  · intro h
    have := hi.end_of_concluded h
    simp [he] at this

theorem EndInv.gotFrame {s : QueueThreads} {i : Nat} {q : CDVQueue} (hi : s.EndInv)
    (hq : s.q.getLocked = some (i, q)) :
    EndInv { s with
      q := q, consumer := .outside, returned := s.returned ++ [(s.q.queue i).frame] } := by
  have hframes := CDVQueue.getLocked_frames hi.valid hq
  have hvalid := CDVQueue.getLocked_valid hi.valid hq
  obtain ⟨-, -, rfl⟩ := CDVQueue.getLocked_eq_some hq
  refine ⟨hvalid, ?_, hi.finalizer_of_end, hi.stopped_of_finalizer, by simp, ?_, ?_⟩
  · have := hi.history
    rw [hframes] at this
    simpa using this
  · simp [BeforeEndTest]
  · simp [ConcludedEnd]

theorem EndInv.consumer_moves {s : QueueThreads} {pc : ConsumerPc} (hi : s.EndInv)
    (hpc : pc = .outside ∨ (∃ v, pc = .locking v) ∨ pc = .testSignalLost ∨ pc = .signalLost) :
    EndInv { s with consumer := pc } := by
  obtain rfl | ⟨v, rfl⟩ | rfl | rfl := hpc <;>
    exact { hi with
      signalled_of_load := by simp
      empty_of_end := by simp [BeforeEndTest]
      end_of_concluded := by simp [ConcludedEnd] }

theorem EndInv.step {s t : QueueThreads} {a : QueueAction} (hi : s.EndInv)
    (hlast : s.FinalizesLast a) (hquiet : s.SetsEndQuietly a) (h : Steps s a t) : t.EndInv := by
  cases h with
  | putCalled f hp =>
    have hf : ¬ s.finalizer ≠ .outside := fun hf => by
      have := hi.stopped_of_finalizer hf
      simp [hp] at this
    exact { hi with stopped_of_finalizer := fun h => absurd h hf }
  | sourceStopped hp => exact { hi with stopped_of_finalizer := fun _ => rfl }
  | putSawEnd f hp he =>
    have := (hi.open_of_producer (by simp [hp])).2
    simp [he] at this
  | putSawOpen f hp he =>
    have hf := (hi.open_of_producer (by simp [hp])).1
    exact { hi with stopped_of_finalizer := fun h => absurd hf h }
  | putAccepted f q hp hq => exact hi.putAccepted hp hq
  | putFull f hp hq =>
    have hf := (hi.open_of_producer (by simp [hp])).1
    exact { hi with stopped_of_finalizer := fun h => absurd hf h }
  | putWoken f hp he =>
    have hf := (hi.open_of_producer (by simp [hp])).1
    exact { hi with
      valid := ⟨hi.valid.head_lt, hi.valid.load_lt, hi.valid.tail_eq⟩
      stopped_of_finalizer := fun h => absurd hf h }
  | finalizeCalled hf =>
    have hopen : s.q.isEnd = false := Bool.eq_false_iff.mpr fun he => (hi.finalizer_of_end he).1 hf
    exact { hi with
      finalizer_of_end := fun he => by simp [hopen] at he
      stopped_of_finalizer := fun _ => hlast rfl }
  | endSet hf =>
    have hstop := hi.stopped_of_finalizer (by simp [hf])
    refine { hi with
      valid := ⟨hi.valid.head_lt, hi.valid.load_lt, hi.valid.tail_eq⟩
      finalizer_of_end := fun _ => by simp
      stopped_of_finalizer := fun _ => hstop
      empty_of_end := fun _ hw => ?_
      end_of_concluded := fun _ => rfl }
    rcases hw with hw | hw
    · exact hquiet rfl hf hw
    · exact hi.empty_of_end (hi.end_of_concluded (.inr hw)) (.inr hw)
  | getSignalled hf =>
    have hstop := hi.stopped_of_finalizer (by simp [hf])
    exact { hi with
      valid := ⟨hi.valid.head_lt, hi.valid.load_lt, hi.valid.tail_eq⟩
      finalizer_of_end := fun _ => by simp
      stopped_of_finalizer := fun _ => hstop
      signalled_of_load := fun _ _ _ => rfl }
  | putSignalled hf =>
    have hstop := hi.stopped_of_finalizer (by simp [hf])
    exact { hi with
      valid := ⟨hi.valid.head_lt, hi.valid.load_lt, hi.valid.tail_eq⟩
      finalizer_of_end := fun _ => by simp
      stopped_of_finalizer := fun _ => hstop }
  | getCalled v hc => exact hi.consumer_moves (.inr (.inl ⟨v, rfl⟩))
  | gotFrame v i q c hc hq => exact hi.gotFrame hq
  | sawEmpty v c hc hq =>
    have hempty := CDVQueue.getLocked_eq_none hq
    exact { hi with
      signalled_of_load := fun _ _ hload => absurd hempty (Nat.ne_of_gt hload)
      empty_of_end := fun _ _ => hempty
      end_of_concluded := by simp [ConcludedEnd] }
  | getSawEnd v c hc he =>
    have hempty := hi.empty_of_end he (.inl (by simp [BeforeEndTest, hc]))
    exact { hi with
      signalled_of_load := by simp
      empty_of_end := fun _ _ => hempty
      end_of_concluded := fun _ => he }
  | getSawOpen v c hc he =>
    exact { hi with
      signalled_of_load := fun _ _ => hi.signalled_of_load v (.inl hc)
      empty_of_end := by simp [BeforeEndTest]
      end_of_concluded := by simp [ConcludedEnd] }
  | getWoken v c hc he =>
    exact { hi with
      valid := ⟨hi.valid.head_lt, hi.valid.load_lt, hi.valid.tail_eq⟩
      signalled_of_load := by simp
      empty_of_end := by simp [BeforeEndTest]
      end_of_concluded := by simp [ConcludedEnd] }
  | workerEnded v c hc he =>
    have hempty := hi.empty_of_end he (.inl (by simp [BeforeEndTest, hc]))
    exact { hi with
      signalled_of_load := by simp
      empty_of_end := fun _ _ => hempty
      end_of_concluded := fun _ => he }
  | workerSawOpen v c hc he => exact hi.consumer_moves (.inr (.inr (.inl rfl)))
  | workerLost c hc => exact hi.consumer_moves (.inr (.inr (.inr rfl)))
  | workerLoops c hc => exact hi.consumer_moves (.inl rfl)
  | timedOut hc he =>
    -- the event would be signalled if the ring were not empty
    have hempty : s.q.load = 0 := by
      by_contra hload
      have := hi.signalled_of_load _ (.inr hc) (Nat.pos_of_ne_zero hload)
      simp [he] at this
    exact { hi with
      signalled_of_load := by simp
      empty_of_end := fun _ _ => hempty
      end_of_concluded := by simp [ConcludedEnd] }

theorem EndInv.allReturned {s : QueueThreads} (hi : s.EndInv) (hc : s.ConcludedEnd) :
    s.AllReturned := by
  have hwindow : s.BeforeEndTest ∨ s.consumer = .ended := by
    rcases hc with hc | hc
    · exact .inl (by simp [BeforeEndTest, hc])
    · exact .inr hc
  have hempty := hi.empty_of_end (hi.end_of_concluded hc) hwindow
  have hframes : s.q.frames = [] := List.length_eq_zero_iff.mp (by simpa using hempty)
  have := hi.history
  rwa [hframes, List.append_nil] at this

/-- A write of `m_end` into the window loses frames: the next step of the
worker ends the stream with the ring not empty. -/
theorem frames_lost_of_setsEnd {s t u : QueueThreads} {c : Bool} (hi : s.EndInv)
    (hw : s.BeforeEndTest) (hload : s.q.load ≠ 0) (hf : s.finalizer = .settingEnd)
    (hset : s.step .finalizer = some t) (hnext : t.step (.consumer c) = some u) :
    ¬ u.AllReturned ∧ (u.ConcludedEnd ∨ ∃ v, u.consumer = .returnedFalse v) := by
  have hlost : s.accepted.map (·.clamp s.q.dataSize) ≠ s.returned := by
    rw [hi.history]
    intro h
    have := congrArg List.length h
    simp only [List.length_append, CDVQueue.frames_length] at this
    omega
  simp only [step, finalizerStep, hf, Option.some.injEq] at hset
  subst hset
  cases hc : s.consumer <;> simp only [BeforeEndTest, hc] at hw
  case testEnd v =>
    simp only [step, consumerStep, hc, if_true, Option.some.injEq] at hnext
    subst hnext
    exact ⟨hlost, .inr ⟨v, rfl⟩⟩
  case returnedFalse v =>
    simp only [step, consumerStep, hc, if_true, Option.some.injEq] at hnext
    subst hnext
    exact ⟨hlost, .inl (.inr rfl)⟩

/-- In every run that writes `m_end` outside the window, the worker takes the
stream as ended only after it was handed every accepted frame. -/
theorem endOfStream_after_all_frames {queueSize dataSize : Nat} {memory : Nat → Buffer}
    {acts : List QueueAction} {s : QueueThreads}
    (hrun : Run step (fun u a => u.FinalizesLast a ∧ u.SetsEndQuietly a)
      (start queueSize dataSize memory) acts s)
    (hc : s.ConcludedEnd) : s.AllReturned := by
  have hi : s.EndInv := hrun.invariant
    (fun _ _ _ hi hok hstep => hi.step hok.1 hok.2 (steps_of_step hstep))
    (start_endInv _ _ _)
  exact hi.allReturned hc

def orderlySchedule : List QueueAction :=
  [.put ⟨400000, [1, 2]⟩, .producer, .producer, .stopSource, .get .getWithTimeout,
    .consumer true, .finalize, .get .get, .consumer true, .finalizer, .consumer true]

theorem orderlySchedule_after_all_frames :
    ∃ s : QueueThreads, Run step (fun u a => u.FinalizesLast a ∧ u.SetsEndQuietly a)
        (start 100 144000 fun _ => ⟨0, 0, []⟩) orderlySchedule s ∧
      s.ConcludedEnd ∧ s.returned = [⟨400000, [1, 2]⟩] ∧ s.AllReturned := by
  have hrun : Run step (fun u a => u.FinalizesLast a ∧ u.SetsEndQuietly a)
    (start 100 144000 fun _ => ⟨0, 0, []⟩) orderlySchedule _ := run_of_exec rfl
  exact ⟨_, hrun, .inl rfl, rfl, endOfStream_after_all_frames hrun (.inl rfl)⟩

/-- The worker finds the ring empty; a frame is accepted, the source is
stopped and `m_end` is written; then the worker reads `m_end`. -/
def lateFrameSchedule : List QueueAction :=
  [.get .get, .consumer true, .put ⟨400000, [1, 2]⟩, .producer, .producer, .stopSource,
    .finalize, .finalizer, .consumer true]

theorem lateFrameSchedule_loses_frame :
    ∃ s : QueueThreads, Run step FinalizesLast (start 100 144000 fun _ => ⟨0, 0, []⟩)
        lateFrameSchedule s ∧
      s.ConcludedEnd ∧ s.accepted = [⟨400000, [1, 2]⟩] ∧ s.returned = [] ∧ ¬ s.AllReturned := by
  have hrun : Run step FinalizesLast (start 100 144000 fun _ => ⟨0, 0, []⟩) lateFrameSchedule _ :=
    run_of_exec rfl
  exact ⟨_, hrun, .inl rfl, rfl, rfl, fun h => List.cons_ne_nil _ _ h⟩

end WinDV.QueueThreads
