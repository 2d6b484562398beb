import WinDV.OutputQueueThreads

/-! What reaches the pin downstream of a `COutputQueue`: packets in the order
in which they were queued, and of the data nothing but a beginning of it. -/

namespace WinDV

open QueuePacket COutputQueue

variable {σ π : Type*}

/-- The packets that a call passes on. -/
def PinCall.packets : PinCall σ π → List (QueuePacket σ π)
  | .receiveMultiple samples => ofSamples samples
  | .endOfStream => [.eos]
  | .newSegment p => [.newSegment p]
  | .beginFlush => []
  | .endFlush => []

/-- `COutputPin` calls neither `BeginFlush` nor `Reset`. -/
def OutputAction.OfPin (a : OutputAction σ π) : Prop := a ≠ .beginFlush ∧ a ≠ .reset

/-- The owner has not begun a flush. -/
def OwnerPc.NotFlushing (owner : OwnerPc) : Prop :=
  owner = .outside ∨ owner = .joining ∨ owner = .destroyed

namespace OutputPc

/-- What the thread has taken off the list and not yet passed on. -/
def unsent : OutputPc σ π → List (QueuePacket σ π)
  | .testingHr batch pSample => ofSamples batch ++ requested pSample
  | .calling batch pSample => ofSamples batch ++ requested pSample
  | .receiving _ pSample => requested pSample
  | .storingHr _ _ pSample => requested pSample
  | .releasing _ pSample => requested pSample
  | .controlling pSample => requested pSample
  | .sendingEnd => [.eos]
  | _ => []

/-- What it is about to pass on, whatever becomes of `m_hr`. -/
def committed : OutputPc σ π → List (QueuePacket σ π)
  | .calling batch _ => ofSamples batch
  | .sendingEnd => [.eos]
  | _ => []

theorem committed_prefix_unsent (pc : OutputPc σ π) : pc.committed <+: pc.unsent := by
  cases pc with
  | calling batch pSample => exact List.prefix_append _ _
  | sendingEnd => exact List.prefix_rfl
  | _ => exact List.nil_prefix

end OutputPc

namespace OutputThreads

/-- The packets that were passed on. -/
def sent (s : OutputThreads σ π) : List (QueuePacket σ π) := s.calls.flatMap PinCall.packets

/-- The packets that were not passed on yet. -/
def pending (s : OutputThreads σ π) : List (QueuePacket σ π) :=
  s.thread.unsent ++ (ofSamples s.q.samples ++ s.q.list)

/-- A step puts packets at the end of the list, or passes on the first ones that
are pending, or drops some. Data is dropped when `m_hr` is bad, when the queue is
flushed or when it is destroyed. -/
structure Flow (s t : OutputThreads σ π) (new : List (QueuePacket σ π)) : Prop where
  queued : t.queued = s.queued ++ new
  order : (t.sent ++ t.pending).Sublist (s.sent ++ (s.pending ++ new))
  data : s.q.hr = S_OK → s.q.bTerminate = false → s.q.bFlushing = false →
    (t.sent ++ t.pending).filter isData = (s.sent ++ (s.pending ++ new)).filter isData
  committed : s.q.hr ≠ S_OK →
    (t.sent ++ t.thread.committed).filter isData = (s.sent ++ s.thread.committed).filter isData

theorem Steps.flow {s t : OutputThreads σ π} {a : OutputAction σ π} (h : Steps s a t) :
    ∃ new, Flow s t new := by
  cases h
  case terminated ht hb =>
    refine ⟨[], by simp, ?_, ?_, ?_⟩
    · simp [sent, pending, ht, OutputPc.unsent, freeSamples]
    · intro _ hb' _
      rw [hb] at hb'
      cases hb'
    · simp [sent, ht, OutputPc.committed]
  case flushed ht hb hf =>
    refine ⟨[], by simp, ?_, ?_, ?_⟩
    · simp [sent, pending, ht, OutputPc.unsent, freeSamples]
    · intro _ _ hf'
      rw [hf] at hf'
      cases hf'
    · simp [sent, ht, OutputPc.committed]
  case prepared samples ht hb hf hg =>
    obtain ⟨hsub, hdata, -⟩ := gather_empty hg
    refine ⟨[], by simp, ?_, ?_, ?_⟩
    · simpa [sent, pending, ht, OutputPc.unsent] using hsub
    · simpa [sent, pending, ht, OutputPc.unsent] using fun _ _ _ => hdata
    · simp [sent, ht, OutputPc.committed]
  case gathered pSample list samples ht hb hf hne hg =>
    obtain ⟨hsub, hdata, -⟩ := gather_found hg
    refine ⟨[], by simp, ?_, ?_, ?_⟩
    · simpa [sent, pending, ht, OutputPc.unsent] using hsub
    · simpa [sent, pending, ht, OutputPc.unsent] using fun _ _ _ => hdata
    · simp [sent, ht, OutputPc.committed]
  case gatheredControl pSample list ht hb hf hg =>
    obtain ⟨hsub, hdata, -⟩ := gather_found hg
    refine ⟨[], by simp, ?_, ?_, ?_⟩
    · simpa [sent, pending, ht, OutputPc.unsent] using hsub
    · simpa [sent, pending, ht, OutputPc.unsent] using fun _ _ _ => hdata
    · simp [sent, ht, OutputPc.committed]
  case accepted ppSamples _ _ | acceptedQuietly ppSamples _ _ _ _ =>
    exact ⟨ofSamples ppSamples, rfl, by simp [sent, pending], by simp [sent, pending], by simp [sent]⟩
  case eosQueued => exact ⟨[.eos], rfl, by simp [sent, pending], by simp [sent, pending], by simp [sent]⟩
  case sendQueued => exact ⟨[.send], rfl, by simp [sent, pending], by simp [sent, pending], by simp [sent]⟩
  case segmentQueued p _ =>
    exact ⟨[.newSegment p], rfl, by simp [sent, pending], by simp [sent, pending], by simp [sent]⟩
  case resetQueued => exact ⟨[.reset], rfl, by simp [sent, pending], by simp [sent, pending], by simp [sent]⟩
  case uncontrolled pSample ht hc =>
    refine ⟨[], by simp, ?_, ?_, ?_⟩
    · simp [-requested, sent, pending, ht, OutputPc.unsent, hc]
    · simp [-requested, sent, pending, ht, OutputPc.unsent, hc]
    · simp [sent, ht, OutputPc.committed]
  -- The rest of the thread's steps and what the owner does.
  all_goals
    refine ⟨[], (List.append_nil _).symm, ?_, ?_, ?_⟩ <;>
    simp [sent, pending, OutputPc.unsent, OutputPc.committed, PinCall.packets, *]

abbrev anyStep : OutputThreads σ π → OutputAction σ π → Prop := fun _ _ => True

theorem sent_pending_sublist {lBatchSize : Nat} {bBatchExact bFlushingOpt : Bool}
    {acts : List (OutputAction σ π)} {s : OutputThreads σ π}
    (hrun : Transition.Run step anyStep (start lBatchSize bBatchExact bFlushingOpt) acts s) :
    (s.sent ++ s.pending).Sublist s.queued := by
  apply hrun.invariant
  · intro t a u hinv _ hstep
    obtain ⟨new, hflow⟩ := (steps_of_step hstep).flow
    rw [hflow.queued]
    apply hflow.order.trans
    rw [← List.append_assoc]
    exact hinv.append_right new
  · simp [sent, pending, start, OutputPc.unsent, COutputQueue.new]

/-- `m_hr` becomes good again through `Reset` and `EndFlush` only. -/
theorem Steps.hr_bad {s t : OutputThreads σ π} {a : OutputAction σ π} (h : Steps s a t)
    (hbad : s.q.hr ≠ S_OK) : t.q.hr ≠ S_OK ∨ s.thread = .controlling (some .reset) ∨
      s.owner = .flushing ∨ s.owner = .clearingHr := by
  cases h
  case hrReset ht => exact .inr (.inl ht)
  case endFlushSkipped ho _ => exact .inr (.inr (.inl ho))
  case hrCleared ho => exact .inr (.inr (.inr ho))
  case hrStored | flushSkipped | flushBegun => exact .inl (by simp [hbad])
  case destroyCalled => exact .inl S_FALSE_ne_S_OK
  all_goals exact .inl hbad

/-- What holds while no flush and no `Reset` is called. -/
structure Sticky (s : OutputThreads σ π) : Prop where
  owner : OwnerPc.NotFlushing s.owner
  flushing : s.q.bFlushing = false
  noReset : .reset ∉ s.queued
  order : (s.sent ++ s.pending).Sublist s.queued
  terminate : s.q.bTerminate = true → s.q.hr ≠ S_OK
  good : s.q.hr = S_OK → (s.sent ++ s.pending).filter isData = s.queued.filter isData
  begun : (s.sent ++ s.thread.committed).filter isData <+: s.queued.filter isData

theorem Sticky.hr_bad {s t : OutputThreads σ π} {a : OutputAction σ π} (hs : Sticky s)
    (h : Steps s a t) (hbad : s.q.hr ≠ S_OK) : t.q.hr ≠ S_OK := by
  rcases h.hr_bad hbad with hgood | hreset | hflush | hflush
  · exact hgood
  · refine absurd (hs.order.subset (List.mem_append_right _ ?_)) hs.noReset
    rw [pending, hreset]
    simp [OutputPc.unsent]
  · have := hs.owner
    rw [hflush] at this
    simp [OwnerPc.NotFlushing] at this
  · have := hs.owner
    rw [hflush] at this
    simp [OwnerPc.NotFlushing] at this

theorem Sticky.controls {s t : OutputThreads σ π} {a : OutputAction σ π} (hs : Sticky s)
    (h : Steps s a t) (hok : a.OfPin) : OwnerPc.NotFlushing t.owner ∧ t.q.bFlushing = false ∧
      .reset ∉ t.queued ∧ (t.q.bTerminate = true → t.q.hr ≠ S_OK) := by
  have hnf := hs.owner
  have hterm (hb : s.q.bTerminate = true) : t.q.hr ≠ S_OK := hs.hr_bad h (hs.terminate hb)
  have hreset := hs.noReset
  cases h
  case resetQueued => exact (hok.2 rfl).elim
  case flushSkipped => exact (hok.1 rfl).elim
  case flushBegun => exact (hok.1 rfl).elim
  case destroyCalled => exact ⟨.inr (.inl rfl), hs.flushing, hreset, fun _ => S_FALSE_ne_S_OK⟩
  case joined => exact ⟨.inr (.inr rfl), hs.flushing, hreset, hterm⟩
  case flushSent ho | endFlushSkipped ho _ | endFlushBegun ho _ | flushWaited ho _ | flagsCleared ho |
      endFlushSent ho | hrCleared ho =>
    rw [ho] at hnf
    simp [OwnerPc.NotFlushing] at hnf
  case accepted | acceptedQuietly =>
    exact ⟨hnf, hs.flushing, by simp [hreset, ofSamples], hterm⟩
  case eosQueued | sendQueued | segmentQueued =>
    exact ⟨hnf, hs.flushing, by simpa using hreset, hterm⟩
  all_goals exact ⟨hnf, hs.flushing, hreset, hterm⟩

theorem Sticky.step {s t : OutputThreads σ π} {a : OutputAction σ π} (hs : Sticky s)
    (h : Steps s a t) (hok : a.OfPin) : Sticky t := by
  obtain ⟨howner, hflush, hreset, hterm⟩ := hs.controls h hok
  obtain ⟨new, hflow⟩ := h.flow
  have horder : (t.sent ++ t.pending).Sublist t.queued := by
    rw [hflow.queued]
    apply hflow.order.trans
    rw [← List.append_assoc]
    exact hs.order.append_right new
  -- While `m_hr` is good nothing is dropped.
  have hdata (hgood : s.q.hr = S_OK) :
      (t.sent ++ t.pending).filter isData = t.queued.filter isData := by
    have hb : s.q.bTerminate = false := by
      by_contra hne
      exact hs.terminate (Bool.not_eq_false _ ▸ hne) hgood
    rw [hflow.data hgood hb hs.flushing, hflow.queued, ← List.append_assoc, List.filter_append,
      hs.good hgood, ← List.filter_append]
  refine ⟨howner, hflush, hreset, horder, hterm, ?_, ?_⟩
  · intro hgood
    apply hdata
    by_contra hbad
    exact hs.hr_bad h hbad hgood
  · by_cases hgood : s.q.hr = S_OK
    · rw [← hdata hgood]
      apply List.IsPrefix.filter
      apply (List.prefix_append_right_inj _).mpr
      exact t.thread.committed_prefix_unsent.trans (List.prefix_append _ _)
    · rw [hflow.committed hgood, hflow.queued, @List.filter_append _ isData s.queued]
      exact hs.begun.trans (List.prefix_append _ _)

theorem sticky_of_run {lBatchSize : Nat} {bBatchExact bFlushingOpt : Bool}
    {acts : List (OutputAction σ π)} {s : OutputThreads σ π}
    (hrun : Transition.Run step anyStep (start lBatchSize bBatchExact bFlushingOpt) acts s)
    (hpin : ∀ a ∈ acts, a.OfPin) : Sticky s := by
  apply (hrun.restrict hpin).invariant
  · intro t a u hinv hok hstep
    exact hinv.step (steps_of_step hstep) hok.2
  · refine ⟨.inl rfl, rfl, List.not_mem_nil, ?_, fun hb => absurd hb Bool.false_ne_true,
      fun _ => rfl, List.prefix_rfl⟩
    simp [sent, pending, start, OutputPc.unsent, COutputQueue.new]

theorem data_of_run {lBatchSize : Nat} {bBatchExact bFlushingOpt : Bool}
    {acts : List (OutputAction σ π)} {s : OutputThreads σ π}
    (hrun : Transition.Run step anyStep (start lBatchSize bBatchExact bFlushingOpt) acts s)
    (hpin : ∀ a ∈ acts, a.OfPin) : s.sent.filter isData <+: s.queued.filter isData := by
  have hbegun := (sticky_of_run hrun hpin).begun
  rw [List.filter_append] at hbegun
  exact (List.prefix_append _ _).trans hbegun

/-- Whatever the threads do, samples, ends of stream and segments go downstream
at most once and in the order in which they were queued; without flushes and
resets the data that went downstream is a beginning of what was queued. -/
theorem sent_in_order (lBatchSize : Nat) (bBatchExact bFlushingOpt : Bool)
    (acts : List (OutputAction σ π)) (s : OutputThreads σ π)
    (hrun : Transition.Run step anyStep (start lBatchSize bBatchExact bFlushingOpt) acts s) :
    s.sent.Sublist s.queued ∧
      ((∀ a ∈ acts, a.OfPin) → s.sent.filter isData <+: s.queued.filter isData) := by
  constructor
  · exact (List.sublist_append_left _ _).trans (sent_pending_sublist hrun)
  · exact data_of_run hrun

/-- Two samples and the end of the stream, one delivered before the next comes. -/
def twoSamples : List (OutputAction Nat Nat) :=
  [.thread, .receiveMultiple [7], .thread, .thread, .thread, .thread, .returns S_OK, .thread, .thread,
    .thread, .receiveMultiple [8], .eos, .thread, .thread, .thread, .returns S_OK, .thread, .thread,
    .thread, .thread, .thread, .thread, .thread]

theorem sent_in_order_two : ∃ s : OutputThreads Nat Nat,
    Transition.Run step anyStep (start 1 false false) twoSamples s ∧
      s.sent = [.sample 7, .sample 8, .eos] ∧ s.sent.Sublist s.queued ∧
      s.sent.filter isData <+: s.queued.filter isData := by
  have hrun : Transition.Run step anyStep (start 1 false false) twoSamples _ :=
    Transition.run_of_exec rfl
  obtain ⟨hsub, hbefore⟩ := sent_in_order _ _ _ _ _ hrun
  exact ⟨_, hrun, rfl, hsub, hbefore (by simp [twoSamples, OutputAction.OfPin])⟩

end OutputThreads

end WinDV
