import WinDV.OutputQueueOrder

/-! The semaphore of a `COutputQueue`: its thread sleeps only when no batch is
due, so that a queue at rest has passed on what it was given. -/

namespace WinDV

open QueuePacket COutputQueue

variable {σ π : Type*}

def OutputPc.isWaiting : OutputPc σ π → Bool
  | .waiting => true
  | _ => false

/-- A call that neither fails nor is one of those that drop data. `Reset` drops none: its
packet makes `m_hr` good again. -/
def OutputAction.Healthy : OutputAction σ π → Prop
  | .returns hr => hr = S_OK
  | .beginFlush => False
  | .destroy => False
  | _ => True

namespace COutputQueue

/-- There is nothing for the thread to do: an inexact queue is empty, and in an
exact one less than a batch has gathered. -/
structure Idle (q : COutputQueue σ π) : Prop where
  terminate : q.bTerminate = false
  samplesOnly : ∃ later, q.list = ofSamples later
  few : q.samples.length + q.list.length < q.lBatchSize
  inexact : q.bBatchExact = false → q.list = [] ∧ q.samples = []

theorem getCount_ofSamples (l : List σ) :
    getCount (ofSamples l : List (QueuePacket σ π)) = l.length := by
  induction l with
  | nil => rfl
  | cons s l ih =>
    rw [List.length_cons, Nat.add_comm, ← ih]
    rfl

end COutputQueue

namespace OutputThreads

/-- `waits` says that the thread which counted itself in is asleep, or is about
to be woken. -/
structure Awake (s : OutputThreads σ π) : Prop where
  waits : s.q.lWaiting + s.q.hSem = if s.thread.isWaiting then 1 else 0
  room : s.q.samples.length < s.q.lBatchSize
  idle : s.q.lWaiting ≠ 0 → s.q.Idle

theorem Awake.of_looping {s : OutputThreads σ π} (hs : Awake s) (ht : s.thread = .looping) :
    s.q.lWaiting = 0 ∧ s.q.hSem = 0 := by
  have hw := hs.waits
  rw [ht] at hw
  exact Nat.add_eq_zero_iff.mp hw

theorem Awake.step {s t : OutputThreads σ π} {a : OutputAction σ π} (hs : Awake s)
    (h : Steps s a t) : Awake t := by
  have hwaits := hs.waits
  have hroom := hs.room
  cases h
  case terminated ht _ =>
    rw [ht] at hwaits
    obtain ⟨hlw, -⟩ := hs.of_looping ht
    exact ⟨hwaits, Nat.zero_lt_of_lt hroom, fun hne => absurd hlw hne⟩
  case flushed ht hb _ =>
    obtain ⟨hlw, hsem⟩ := hs.of_looping ht
    have hpos := Nat.zero_lt_of_lt hroom
    refine ⟨by simp [hlw, freeSamples, hsem, OutputPc.isWaiting], hpos, fun _ => ?_⟩
    exact ⟨hb, ⟨[], rfl⟩, hpos, fun _ => ⟨rfl, rfl⟩⟩
  case prepared samples ht hb _ hg =>
    obtain ⟨hlw, hsem⟩ := hs.of_looping ht
    obtain ⟨-, -, -, hinexact, hlen⟩ := gather_empty hg
    refine ⟨by simp [hlw, hsem, OutputPc.isWaiting], hlen hroom, fun _ => ?_⟩
    exact ⟨hb, ⟨[], rfl⟩, hlen hroom, fun he => ⟨rfl, hinexact he⟩⟩
  case gathered pSample list samples ht _ _ _ _ =>
    obtain ⟨hlw, hsem⟩ := hs.of_looping ht
    exact ⟨by simp [hlw, hsem, OutputPc.isWaiting], Nat.zero_lt_of_lt hroom, fun hne => absurd hlw hne⟩
  case gatheredControl pSample list ht _ _ _ =>
    obtain ⟨hlw, hsem⟩ := hs.of_looping ht
    exact ⟨by simp [hlw, hsem, OutputPc.isWaiting], Nat.zero_lt_of_lt hroom, fun hne => absurd hlw hne⟩
  case woken ht hsem =>
    rw [ht] at hwaits
    have hlw : s.q.lWaiting + (s.q.hSem - 1) = 0 := by
      simp only [OutputPc.isWaiting, if_true] at hwaits
      omega
    exact ⟨hlw, hroom, fun hne => absurd (Nat.add_eq_zero_iff.mp hlw).1 hne⟩
  -- The notification takes the thread out of the count.
  case accepted | eosQueued | sendQueued | segmentQueued | resetQueued | flushBegun | destroyCalled =>
    exact ⟨by rw [← hwaits, Nat.zero_add, Nat.add_comm], hroom, fun hne => absurd rfl hne⟩
  case acceptedQuietly ppSamples _ _ hb hlt =>
    refine ⟨hwaits, hroom, fun hne => ?_⟩
    obtain ⟨hterm, ⟨later, hlater⟩, -, -⟩ := hs.idle hne
    have hlist : s.q.list ++ ofSamples ppSamples = ofSamples (later ++ ppSamples) := by
      rw [hlater, ofSamples_append]
    refine ⟨hterm, ⟨later ++ ppSamples, hlist⟩, ?_, fun he => ?_⟩
    · rw [hlist, getCount_ofSamples] at hlt
      dsimp only
      rw [hlist]
      simpa [ofSamples] using hlt
    · rw [hb] at he
      cases he
  all_goals
    refine ⟨?_, hroom, fun hne => ?_⟩
    · first
      | exact hwaits
      | rw [‹s.thread = _›] at hwaits; exact hwaits
    · obtain ⟨hterm, hsamples, hfew, hinexact⟩ := hs.idle hne
      exact ⟨hterm, hsamples, hfew, hinexact⟩

theorem awake_of_run {lBatchSize : Nat} {bBatchExact bFlushingOpt : Bool} (hpos : 0 < lBatchSize)
    {acts : List (OutputAction σ π)} {s : OutputThreads σ π}
    (hrun : Transition.Run step anyStep (start lBatchSize bBatchExact bFlushingOpt) acts s) :
    Awake s := by
  apply hrun.invariant
  · intro t a u hinv _ hstep
    exact hinv.step (steps_of_step hstep)
  · exact ⟨rfl, hpos, fun hne => absurd rfl hne⟩

/-- While every call succeeds and nobody flushes or destroys the queue, `m_hr` stays
good. -/
structure Unfailing (s : OutputThreads σ π) : Prop where
  hr : s.q.hr = S_OK
  owner : s.owner = .outside
  terminate : s.q.bTerminate = false
  flushing : s.q.bFlushing = false
  stored : ∀ hr batch pSample, s.thread = .storingHr hr batch pSample → hr = S_OK

theorem start_unfailing (lBatchSize : Nat) (bBatchExact bFlushingOpt : Bool) :
    Unfailing (start lBatchSize bBatchExact bFlushingOpt : OutputThreads σ π) :=
  ⟨rfl, rfl, rfl, rfl, fun _ _ _ he => by cases he⟩

theorem Unfailing.step {s t : OutputThreads σ π} {a : OutputAction σ π} (hs : Unfailing s)
    (h : Steps s a t) (hok : a.Healthy) : Unfailing t := by
  obtain ⟨hhr, howner, hterm, hflush, hstored⟩ := hs
  cases h
  case callReturned =>
    refine ⟨hhr, howner, hterm, hflush, fun hr' batch' pSample' he => ?_⟩
    cases he
    exact hok
  case hrStored hr batch pSample ht =>
    exact ⟨by simp [hhr, hstored hr batch pSample ht], howner, hterm, hflush, fun _ _ _ he => by cases he⟩
  case hrReset => exact ⟨rfl, howner, hterm, hflush, fun _ _ _ he => by cases he⟩
  case flushSkipped | flushBegun | destroyCalled => exact hok.elim
  case flushSent ho | endFlushSkipped ho _ | endFlushBegun ho _ | flushWaited ho _ | flagsCleared ho |
      endFlushSent ho | hrCleared ho | joined ho _ =>
    rw [howner] at ho
    cases ho
  all_goals first
    | exact ⟨hhr, howner, hterm, hflush, hstored⟩
    | exact ⟨hhr, howner, hterm, hflush, fun _ _ _ he => by cases he⟩

/-- Then no data is dropped either. -/
theorem whole_of_run {lBatchSize : Nat} {bBatchExact bFlushingOpt : Bool}
    {acts : List (OutputAction σ π)} {s : OutputThreads σ π}
    (hrun : Transition.Run step anyStep (start lBatchSize bBatchExact bFlushingOpt) acts s)
    (hok : ∀ a ∈ acts, a.Healthy) : (s.sent ++ s.pending).filter isData = s.queued.filter isData := by
  have hinv : Unfailing s ∧ (s.sent ++ s.pending).filter isData = s.queued.filter isData := by
    apply (hrun.restrict hok).invariant
    · intro t a u ⟨hgood, hwhole⟩ hok hstep
      have h := steps_of_step hstep
      obtain ⟨new, hflow⟩ := h.flow
      refine ⟨hgood.step h hok.2, ?_⟩
      rw [hflow.data hgood.hr hgood.terminate hgood.flushing, hflow.queued, ← List.append_assoc,
        List.filter_append, hwhole, ← List.filter_append]
    · exact ⟨start_unfailing _ _ _, rfl⟩
  exact hinv.2

theorem Steps.settings {s t : OutputThreads σ π} {a : OutputAction σ π} (h : Steps s a t) :
    t.q.lBatchSize = s.q.lBatchSize ∧ t.q.bBatchExact = s.q.bBatchExact := by
  cases h <;> exact ⟨rfl, rfl⟩

theorem settings_of_run {lBatchSize : Nat} {bBatchExact bFlushingOpt : Bool}
    {acts : List (OutputAction σ π)} {s : OutputThreads σ π}
    (hrun : Transition.Run step anyStep (start lBatchSize bBatchExact bFlushingOpt) acts s) :
    s.q.lBatchSize = lBatchSize ∧ s.q.bBatchExact = (bBatchExact && decide (lBatchSize > 1)) := by
  apply hrun.invariant
  · intro t a u hinv _ hstep
    obtain ⟨hsize, hexact⟩ := (steps_of_step hstep).settings
    exact ⟨hsize.trans hinv.1, hexact.trans hinv.2⟩
  · exact ⟨rfl, rfl⟩

theorem empty_of_asleep {lBatchSize : Nat} {bBatchExact bFlushingOpt : Bool} (hpos : 0 < lBatchSize)
    {acts : List (OutputAction σ π)} {s : OutputThreads σ π}
    (hrun : Transition.Run step anyStep (start lBatchSize bBatchExact bFlushingOpt) acts s)
    (hwait : s.thread = .waiting) (hsem : s.q.hSem = 0) :
    s.q.bTerminate = false ∧ s.q.samples.length + s.q.list.length < lBatchSize ∧
      (bBatchExact = false → s.q.list = [] ∧ s.q.samples = []) := by
  have hawake := awake_of_run hpos hrun
  obtain ⟨hsize, hexact⟩ := settings_of_run hrun
  have hlw : s.q.lWaiting ≠ 0 := by
    have hwaits := hawake.waits
    rw [hwait, hsem, Nat.add_zero] at hwaits
    rw [hwaits]
    exact Nat.one_ne_zero
  obtain ⟨hterm, -, hfew, hinexact⟩ := hawake.idle hlw
  exact ⟨hterm, hsize ▸ hfew, fun he => hinexact (by rw [hexact, he, Bool.false_and])⟩

theorem sent_all_of_asleep {lBatchSize : Nat} {bFlushingOpt : Bool} (hpos : 0 < lBatchSize)
    {acts : List (OutputAction σ π)} {s : OutputThreads σ π}
    (hrun : Transition.Run step anyStep (start lBatchSize false bFlushingOpt) acts s)
    (hwait : s.thread = .waiting) (hsem : s.q.hSem = 0) (hok : ∀ a ∈ acts, a.Healthy) :
    s.sent.filter isData = s.queued.filter isData := by
  obtain ⟨-, -, hinexact⟩ := empty_of_asleep hpos hrun hwait hsem
  obtain ⟨hlist, hsamples⟩ := hinexact rfl
  have hpending : s.pending = [] := by
    simp [pending, hwait, OutputPc.unsent, hsamples, hlist]
  have hwhole := whole_of_run hrun hok
  rwa [hpending, List.append_nil] at hwhole

/-- A thread asleep with nobody to wake it is not asked to return and has less
than a batch to send; where no exact batches are asked for it has sent all samples
and ends of stream that were queued, unless a call failed or the queue was flushed. -/
theorem asleep_when_done (lBatchSize : Nat) (bBatchExact bFlushingOpt : Bool) (hpos : 0 < lBatchSize)
    (acts : List (OutputAction σ π)) (s : OutputThreads σ π)
    (hrun : Transition.Run step anyStep (start lBatchSize bBatchExact bFlushingOpt) acts s)
    (hwait : s.thread = .waiting) (hsem : s.q.hSem = 0) :
    s.q.bTerminate = false ∧ s.q.samples.length + s.q.list.length < lBatchSize ∧
      (bBatchExact = false → s.q.list = [] ∧ s.q.samples = [] ∧
        ((∀ a ∈ acts, a.Healthy) → s.sent.filter isData = s.queued.filter isData)) := by
  obtain ⟨hterm, hfew, hinexact⟩ := empty_of_asleep hpos hrun hwait hsem
  refine ⟨hterm, hfew, fun he => ?_⟩
  obtain ⟨hlist, hsamples⟩ := hinexact he
  subst he
  exact ⟨hlist, hsamples, sent_all_of_asleep hpos hrun hwait hsem⟩

theorem asleep_when_done_two : ∃ s : OutputThreads Nat Nat,
    Transition.Run step anyStep (start 1 false false) twoSamples s ∧ s.thread = .waiting ∧
      s.q.hSem = 0 ∧ s.q.list = [] ∧ s.sent.filter isData = s.queued.filter isData := by
  have hrun : Transition.Run step anyStep (start 1 false false) twoSamples _ :=
    Transition.run_of_exec rfl
  obtain ⟨-, -, hrest⟩ := asleep_when_done 1 false false Nat.one_pos _ _ hrun rfl rfl
  obtain ⟨hlist, -, hsent⟩ := hrest rfl
  exact ⟨_, hrun, rfl, rfl, hlist, hsent (by simp [twoSamples, OutputAction.Healthy])⟩

end OutputThreads

end WinDV
