import WinDV.OutputQueueWakeups

/-! The references that `COutputQueue` is handed: each is released once, and its
destructor returns with none of them left. -/

namespace WinDV

open QueuePacket COutputQueue

variable {σ π : Type*}

namespace OutputPc

/-- The samples that the thread holds. -/
def batch : OutputPc σ π → List σ
  | .testingHr batch _ => batch
  | .calling batch _ => batch
  | .receiving batch _ => batch
  | .storingHr _ batch _ => batch
  | .releasing batch _ => batch
  | _ => []

/-- An upper bound on the steps to the end of the thread's round, and of the thread. -/
def remaining : OutputPc σ π → Nat
  | .returned => 0
  | .looping => 1
  | .waiting => 2
  | .sendingEnd => 2
  | .settingComplete => 2
  | .controlling _ => 3
  | .releasing _ _ => 4
  | .storingHr _ _ _ => 5
  | .receiving _ _ => 6
  | .calling _ _ => 7
  | .testingHr _ _ => 8

theorem remaining_le (pc : OutputPc σ π) : pc.remaining ≤ 8 := by
  cases pc <;> simp [remaining]

end OutputPc

/-- The thread's own steps, the return from a call downstream among them. -/
def OutputAction.isOwn : OutputAction σ π → Bool
  | .thread => true
  | .returns _ => true
  | _ => false

/-- The references that a call hands to the queue. -/
def OutputAction.handedIn : OutputAction σ π → List σ
  | .receiveMultiple ppSamples => ppSamples
  | _ => []

namespace OutputThreads

/-- The references that the queue holds. -/
def held (s : OutputThreads σ π) : List σ :=
  s.thread.batch ++ (s.q.samples ++ s.q.list.filterMap sample?)

/-- What a step is handed and what it held before, it releases or holds then. -/
theorem Steps.released {s t : OutputThreads σ π} {a : OutputAction σ π} (h : Steps s a t) :
    t.received = s.received ++ a.handedIn ∧
      ∃ freed, t.released = s.released ++ freed ∧ (s.held ++ a.handedIn).Perm (freed ++ t.held) := by
  cases h
  case terminated ht _ =>
    refine ⟨(List.append_nil _).symm, s.q.freed, rfl, ?_⟩
    simpa [held, ht, OutputAction.handedIn, OutputPc.batch, freeSamples, freed] using
      List.perm_append_comm
  case flushed ht _ _ =>
    refine ⟨(List.append_nil _).symm, s.q.freed, rfl, ?_⟩
    simpa [held, ht, OutputAction.handedIn, OutputPc.batch, freeSamples, freed] using
      List.perm_append_comm
  case prepared samples ht _ _ hg =>
    obtain ⟨-, -, hsamples, -⟩ := gather_empty hg
    refine ⟨(List.append_nil _).symm, [], (List.append_nil _).symm, ?_⟩
    simp [held, ht, OutputAction.handedIn, OutputPc.batch, hsamples]
  case gathered pSample list samples ht _ _ _ hg =>
    obtain ⟨-, -, hsamples⟩ := gather_found hg
    refine ⟨(List.append_nil _).symm, [], (List.append_nil _).symm, ?_⟩
    simp [held, ht, OutputAction.handedIn, OutputPc.batch, hsamples]
  case gatheredControl pSample list ht _ _ hg =>
    obtain ⟨-, -, hsamples⟩ := gather_found hg
    rw [List.nil_append] at hsamples
    refine ⟨(List.append_nil _).symm, [], (List.append_nil _).symm, ?_⟩
    simp [held, ht, OutputAction.handedIn, OutputPc.batch, hsamples]
  case batchReleased batch pSample ht =>
    refine ⟨(List.append_nil _).symm, batch.reverse, rfl, ?_⟩
    simp only [held, ht, OutputAction.handedIn, List.append_nil]
    exact (List.reverse_perm batch).symm.append_right _
  case accepted ppSamples _ _ | acceptedQuietly ppSamples _ _ _ _ =>
    refine ⟨rfl, [], (List.append_nil _).symm, ?_⟩
    simp [held, OutputAction.handedIn]
  case refused ppSamples _ _ => exact ⟨rfl, ppSamples, rfl, List.perm_append_comm⟩
  case eosQueued | sendQueued | segmentQueued | resetQueued =>
    refine ⟨(List.append_nil _).symm, [], (List.append_nil _).symm, ?_⟩
    simp [held, OutputAction.handedIn, List.filterMap_cons]
  all_goals
    refine ⟨(List.append_nil _).symm, [], (List.append_nil _).symm, ?_⟩
    simp [held, *, OutputAction.handedIn, OutputPc.batch]

/-- After the destructor has begun no call is made, and the thread returns with
an empty queue. -/
structure Closed (s : OutputThreads σ π) : Prop where
  terminate : s.q.bTerminate = true →
    s.stream = .outside ∧ (s.owner = .joining ∨ s.owner = .destroyed)
  returned : s.thread = .returned → s.q.bTerminate = true ∧ s.q.list = [] ∧ s.q.samples = []
  destroyed : s.owner = .destroyed → s.thread = .returned

theorem Closed.not_open {s : OutputThreads σ π} (hs : Closed s) (hb : s.q.bTerminate = true) :
    s.open? = false := by
  obtain ⟨hstream, howner⟩ := hs.terminate hb
  unfold open?
  rw [hstream]
  rcases howner with howner | howner <;> rw [howner]

theorem open?_stream {s : OutputThreads σ π} (h : s.open? = true) : s.stream = .outside := by
  unfold open? at h
  split at h <;> first | assumption | cases h

theorem Closed.step {s t : OutputThreads σ π} {a : OutputAction σ π} (hs : Closed s)
    (h : Steps s a t) : Closed t := by
  obtain ⟨hterm, hret, hdest⟩ := hs
  have hshut (ho : s.open? = true) (hr : s.thread = .returned) : False := by
    rw [Closed.not_open ⟨hterm, hret, hdest⟩ (hret hr).1] at ho
    cases ho
  cases h
  case terminated ht hb =>
    exact ⟨hterm, fun _ => ⟨hb, rfl, rfl⟩, fun _ => rfl⟩
  case accepted ho _ | acceptedQuietly ho _ _ _ | eosQueued ho _ | sendQueued ho | refused ho _ |
      eosRefused ho _ =>
    exact ⟨hterm, fun hr => (hshut ho hr).elim, hdest⟩
  case segmentCalled ho _ | segmentRefused ho _ | resetQueued ho =>
    refine ⟨fun hb => ?_, fun hr => (hshut ho hr).elim, hdest⟩
    rw [Closed.not_open ⟨hterm, hret, hdest⟩ hb] at ho
    cases ho
  case segmentQueued hstream | resetWaited hstream _ =>
    have hopen (hb : s.q.bTerminate = true) : False := by
      rw [(hterm hb).1] at hstream
      cases hstream
    exact ⟨fun hb => (hopen hb).elim, fun hr => (hopen (hret hr).1).elim, hdest⟩
  case flushSkipped howner _ | flushBegun howner _ | flushSent howner | endFlushSkipped howner _ |
      endFlushBegun howner _ | flushWaited howner _ | flagsCleared howner | endFlushSent howner |
      hrCleared howner =>
    have howned (hb : s.q.bTerminate = true) : False := by
      rcases (hterm hb).2 with hj | hj <;> rw [howner] at hj <;> cases hj
    refine ⟨fun hb => (howned hb).elim, fun hr => (howned (hret hr).1).elim, fun hd => ?_⟩
    cases hd
  case destroyCalled howner hopen =>
    have hstream := open?_stream hopen
    refine ⟨fun _ => ⟨hstream, .inl rfl⟩, fun hr => (hshut hopen hr).elim, fun hd => ?_⟩
    cases hd
  case joined howner hr => exact ⟨fun hb => ⟨(hterm hb).1, .inr rfl⟩, hret, fun _ => hr⟩
  -- The thread's other steps do not end it, so it has not returned before either.
  all_goals
    refine ⟨hterm, fun hr => ?_, fun hd => ?_⟩
    · cases hr
    · refine absurd (hdest hd) ?_
      rw [‹s.thread = _›]
      intro he
      cases he

theorem closed_of_run {lBatchSize : Nat} {bBatchExact bFlushingOpt : Bool}
    {acts : List (OutputAction σ π)} {s : OutputThreads σ π}
    (hrun : Transition.Run step anyStep (start lBatchSize bBatchExact bFlushingOpt) acts s) :
    Closed s := by
  apply hrun.invariant
  · intro t a u hinv _ hstep
    exact hinv.step (steps_of_step hstep)
  · refine ⟨fun hb => absurd hb Bool.false_ne_true, fun hr => ?_, fun hd => ?_⟩
    · cases hr
    · cases hd

theorem released_of_run {lBatchSize : Nat} {bBatchExact bFlushingOpt : Bool}
    {acts : List (OutputAction σ π)} {s : OutputThreads σ π}
    (hrun : Transition.Run step anyStep (start lBatchSize bBatchExact bFlushingOpt) acts s) :
    s.received.Perm (s.released ++ s.held) := by
  apply hrun.invariant
  · intro t a u hinv _ hstep
    obtain ⟨hreceived, freed, hreleased, hperm⟩ := (steps_of_step hstep).released
    rw [hreceived, hreleased, List.append_assoc]
    apply (hinv.append_right _).trans
    rw [List.append_assoc]
    exact hperm.append_left _
  · exact List.Perm.nil

/-- A step after the destructor has set `m_bTerminate` leaves it set, and brings
the thread closer to its end when it is one of the thread's own. -/
theorem Steps.remaining {s t : OutputThreads σ π} {a : OutputAction σ π} (h : Steps s a t)
    (hb : s.q.bTerminate = true) : t.q.bTerminate = true ∧
      (if a.isOwn then 1 else 0) + t.thread.remaining ≤ s.thread.remaining := by
  cases h
  case flushed hb' _ | prepared hb' _ _ | gathered hb' _ _ _ | gatheredControl hb' _ _ =>
    rw [hb'] at hb
    cases hb
  case destroyCalled => exact ⟨rfl, by simp [OutputAction.isOwn]⟩
  all_goals exact ⟨hb, by simp [*, OutputAction.isOwn, OutputPc.remaining]⟩

/-- In the destructor the thread is never stuck, but for a call downstream that
does not return. -/
theorem Awake.enabled {s : OutputThreads σ π} (hs : Awake s) (hb : s.q.bTerminate = true)
    (hne : s.thread ≠ .returned) : ∃ a : OutputAction σ π, a.isOwn = true ∧ (s.step a).isSome := by
  cases ht : s.thread with
  | waiting =>
    refine ⟨.thread, rfl, ?_⟩
    have hlw : s.q.lWaiting = 0 := by
      by_contra hlw
      have hidle := (hs.idle hlw).terminate
      rw [hb] at hidle
      cases hidle
    have hwaits := hs.waits
    rw [hlw, ht, Nat.zero_add] at hwaits
    have hsem : s.q.hSem > 0 := hwaits ▸ Nat.one_pos
    simp [OutputThreads.step, threadStep, ht, hsem]
  | receiving batch pSample => exact ⟨.returns S_OK, rfl, by simp [OutputThreads.step, ht]⟩
  | controlling pSample =>
    refine ⟨.thread, rfl, ?_⟩
    by_cases hh : s.q.hr = S_OK <;> rcases pSample with _ | _ | _ | _ | _ | _ <;>
      simp [OutputThreads.step, threadStep, ht, hh]
  | returned => exact absurd ht hne
  | looping => exact ⟨.thread, rfl, by simp [OutputThreads.step, threadStep, ht, hb]⟩
  | testingHr batch pSample =>
    refine ⟨.thread, rfl, ?_⟩
    by_cases hh : s.q.hr = S_OK <;> simp [OutputThreads.step, threadStep, ht, hh]
  | _ => exact ⟨.thread, rfl, by simp [OutputThreads.step, threadStep, ht]⟩

theorem remaining_of_run {acts : List (OutputAction σ π)} {s t : OutputThreads σ π}
    (hrun : Transition.Run step anyStep s acts t) (hb : s.q.bTerminate = true) :
    t.q.bTerminate = true ∧
      acts.countP OutputAction.isOwn + t.thread.remaining ≤ s.thread.remaining := by
  induction hrun with
  | nil => exact ⟨hb, by simp⟩
  | snoc _ _ hstep ih =>
    obtain ⟨hterm, hlen⟩ := ih
    obtain ⟨hterm', hlen'⟩ := (steps_of_step hstep).remaining hterm
    refine ⟨hterm', ?_⟩
    rw [List.countP_append, List.countP_singleton]
    omega

/-- Every sample that `ReceiveMultiple` is handed is released at most once. The
destructor waits for eight steps of the thread at most, and there is always one
that it can take; when it returns, every sample has been released. -/
theorem released_once (lBatchSize : Nat) (bBatchExact bFlushingOpt : Bool) (hpos : 0 < lBatchSize)
    (acts : List (OutputAction σ π)) (s : OutputThreads σ π)
    (hrun : Transition.Run step anyStep (start lBatchSize bBatchExact bFlushingOpt) acts s) :
    s.received.Perm (s.released ++ s.held) ∧
      (s.owner = .destroyed → s.received.Perm s.released) ∧
      (s.q.bTerminate = true → ∀ acts' t, Transition.Run step anyStep s acts' t →
        acts'.countP OutputAction.isOwn ≤ 8 ∧
          (t.thread ≠ .returned → ∃ a : OutputAction σ π, a.isOwn = true ∧ (t.step a).isSome)) := by
  have hreleased := released_of_run hrun
  refine ⟨hreleased, fun hd => ?_, fun hb acts' t hrun' => ⟨?_, fun hne => ?_⟩⟩
  · have hclosed := closed_of_run hrun
    have hret := hclosed.destroyed hd
    obtain ⟨-, hlist, hsamples⟩ := hclosed.returned hret
    rw [held, hret, hlist, hsamples] at hreleased
    simpa [OutputPc.batch] using hreleased
  · have hlen := (remaining_of_run hrun' hb).2
    have hle := OutputPc.remaining_le s.thread
    omega
  · have hawake : Awake t := by
      apply hrun'.invariant
      · intro t a u hinv _ hstep
        exact hinv.step (steps_of_step hstep)
      · exact awake_of_run hpos hrun
    exact hawake.enabled (remaining_of_run hrun' hb).1 hne

theorem released_once_two : ∃ s : OutputThreads Nat Nat,
    Transition.Run step anyStep (start 1 false false)
      (twoSamples ++ [.receiveMultiple [9], .destroy, .thread, .thread, .owner]) s ∧
      s.owner = .destroyed ∧ s.sent = [.sample 7, .sample 8, .eos] ∧ s.received.Perm s.released := by
  have hrun : Transition.Run step anyStep (start 1 false false)
      (twoSamples ++ [.receiveMultiple [9], .destroy, .thread, .thread, .owner]) _ :=
    Transition.run_of_exec rfl
  exact ⟨_, hrun, rfl, rfl, (released_once 1 false false Nat.one_pos _ _ hrun).2.1 rfl⟩

end OutputThreads

end WinDV
