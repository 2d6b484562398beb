import WinDV.OutputQueue
import WinDV.Transition

/-! The threads around one `COutputQueue`: its own, which runs `ThreadProc`, the
streaming thread, which delivers, and the one that flushes and destroys the
queue. A locked section, an access to `m_hr` without the lock, a wait, and a call
on the pin downstream are one step each; so is the release of a batch. -/

namespace WinDV

open QueuePacket

/-- A call on the pin downstream. -/
inductive PinCall (σ π : Type*)
  | receiveMultiple (samples : List σ)
  | endOfStream
  | newSegment (p : π)
  | beginFlush
  | endFlush
  deriving DecidableEq, Repr

/-- Where `ThreadProc` stands; `pSample` is the packet that ended its loop under
the lock, and `batch` are the samples that it then holds. -/
inductive OutputPc (σ π : Type*)
  | looping
  | waiting
  | testingHr (batch : List σ) (pSample : Option (QueuePacket σ π))
  | calling (batch : List σ) (pSample : Option (QueuePacket σ π))
  | receiving (batch : List σ) (pSample : Option (QueuePacket σ π))
  | storingHr (hr : Int) (batch : List σ) (pSample : Option (QueuePacket σ π))
  | releasing (batch : List σ) (pSample : Option (QueuePacket σ π))
  | controlling (pSample : Option (QueuePacket σ π))
  | sendingEnd
  | settingComplete
  | returned
  deriving DecidableEq, Repr

/-- The streaming thread: in `NewSegment` behind its test, or waiting in `Reset`. -/
inductive StreamingPc (π : Type*)
  | outside
  | newSegment (p : π)
  | waitingReset
  deriving DecidableEq, Repr

/-- The thread that flushes and destroys. -/
inductive OwnerPc
  | outside
  | flushingDownstream
  | flushing
  | waitingFlush
  | clearingFlags
  | endingDownstream
  | clearingHr
  | joining
  | destroyed
  deriving DecidableEq, Repr

/-- The queue, the threads, and four histories: what was put on `m_List`, the
calls on the pin downstream, and the references that `ReceiveMultiple` was handed
and that the queue released. -/
structure OutputThreads (σ π : Type*) where
  q : COutputQueue σ π
  thread : OutputPc σ π
  stream : StreamingPc π
  owner : OwnerPc
  queued : List (QueuePacket σ π)
  calls : List (PinCall σ π)
  received : List σ
  released : List σ
  deriving DecidableEq, Repr

inductive OutputAction (σ π : Type*)
  | thread
  /-- `ReceiveMultiple` of the pin downstream returns. -/
  | returns (hr : Int)
  | receiveMultiple (ppSamples : List σ)
  | eos
  | sendAnyway
  | newSegment (p : π)
  | reset
  /-- The streaming thread's next step inside `NewSegment` or `Reset`. -/
  | stream
  | beginFlush
  | endFlush
  | destroy
  /-- The next step of the thread that flushes and destroys. -/
  | owner
  deriving DecidableEq, Repr

namespace OutputThreads

variable {σ π : Type*}

def start (lBatchSize : Nat) (bBatchExact bFlushingOpt : Bool) : OutputThreads σ π where
  q := .new lBatchSize bBatchExact bFlushingOpt
  thread := .looping
  stream := .outside
  owner := .outside
  queued := []
  calls := []
  received := []
  released := []

/-- The loop of `ThreadProc` under the lock, when the queue is not being destroyed. -/
def gatherStep (s : OutputThreads σ π) (q : COutputQueue σ π) : OutputThreads σ π :=
  match COutputQueue.gather q.lBatchSize q.bBatchExact q.list q.samples with
  | .empty samples => { s with
      q := { q with list := [], samples := samples, lWaiting := q.lWaiting + 1 }, thread := .waiting }
  | .found pSample list samples => { s with
      q := { q with list := list, samples := [] }
      thread := if samples.isEmpty then .controlling pSample else .testingHr samples pSample }

def threadStep (s : OutputThreads σ π) : Option (OutputThreads σ π) :=
  match s.thread with
  | .looping =>
    if s.q.bTerminate then
      some { s with q := s.q.freeSamples, thread := .returned, released := s.released ++ s.q.freed }
    else if s.q.bFlushing then
      some ({ s with released := s.released ++ s.q.freed }.gatherStep
        { s.q.freeSamples with evFlushComplete := true })
    else some (s.gatherStep s.q)
  | .waiting =>
    if s.q.hSem > 0 then some { s with q := { s.q with hSem := s.q.hSem - 1 }, thread := .looping }
    else none
  | .testingHr batch pSample =>
    if s.q.hr = COutputQueue.S_OK then some { s with thread := .calling batch pSample }
    else some { s with thread := .releasing batch pSample }
  | .calling batch pSample =>
    some { s with thread := .receiving batch pSample, calls := s.calls ++ [.receiveMultiple batch] }
  | .receiving _ _ => none
  | .storingHr hr batch pSample => some { s with
      q := { s.q with hr := if s.q.hr = COutputQueue.S_OK then hr else s.q.hr }
      thread := .releasing batch pSample }
  | .releasing batch pSample =>
    some { s with thread := .controlling pSample, released := s.released ++ batch.reverse }
  | .controlling (some .eos) =>
    if s.q.hr = COutputQueue.S_OK then some { s with thread := .sendingEnd }
    else some { s with thread := .looping }
  | .controlling (some .reset) =>
    some { s with q := { s.q with hr := COutputQueue.S_OK }, thread := .settingComplete }
  | .controlling (some (.newSegment p)) =>
    some { s with thread := .looping, calls := s.calls ++ [.newSegment p] }
  | .controlling (some (.sample _)) => some { s with thread := .looping }
  | .controlling (some .send) => some { s with thread := .looping }
  | .controlling none => some { s with thread := .looping }
  | .sendingEnd => some { s with thread := .looping, calls := s.calls ++ [.endOfStream] }
  | .settingComplete => some { s with q := { s.q with evFlushComplete := true }, thread := .looping }
  | .returned => none

def streamStep (s : OutputThreads σ π) : Option (OutputThreads σ π) :=
  match s.stream with
  | .outside => none
  | .newSegment p => some { s with
      q := s.q.newSegmentLocked p, stream := .outside, queued := s.queued ++ [.newSegment p] }
  | .waitingReset =>
    if s.q.evFlushComplete then
      some { s with q := { s.q with evFlushComplete := false }, stream := .outside }
    else none

def ownerStep (s : OutputThreads σ π) : Option (OutputThreads σ π) :=
  match s.owner with
  | .outside => none
  | .flushingDownstream => some { s with owner := .flushing, calls := s.calls ++ [.beginFlush] }
  | .flushing => none
  | .waitingFlush =>
    if s.q.evFlushComplete then
      some { s with q := { s.q with evFlushComplete := false }, owner := .clearingFlags }
    else none
  | .clearingFlags =>
    some { s with q := { s.q with bFlushing := false, bFlushed := true }, owner := .endingDownstream }
  | .endingDownstream => some { s with owner := .clearingHr, calls := s.calls ++ [.endFlush] }
  | .clearingHr => some { s with q := { s.q with hr := COutputQueue.S_OK }, owner := .outside }
  | .joining =>
    match s.thread with
    | .returned => some { s with owner := .destroyed }
    | _ => none
  | .destroyed => none

/-- A new call may begin: the streaming thread is in none, and the queue is there. -/
def open? (s : OutputThreads σ π) : Bool :=
  match s.stream, s.owner with
  | .outside, .joining => false
  | .outside, .destroyed => false
  | .outside, _ => true
  | _, _ => false

def step (s : OutputThreads σ π) : OutputAction σ π → Option (OutputThreads σ π)
  | .thread => s.threadStep
  | .returns hr =>
    match s.thread with
    | .receiving batch pSample => some { s with thread := .storingHr hr batch pSample }
    | _ => none
  | .receiveMultiple ppSamples =>
    if s.open? then
      let r := s.q.receiveMultiple ppSamples
      some { s with
        q := r.2.2.2
        queued := s.queued ++ ofSamples (ppSamples.take r.2.1)
        received := s.received ++ ppSamples
        released := s.released ++ r.2.2.1 }
    else none
  | .eos =>
    if s.open? then
      some { s with q := s.q.eos.2, queued := s.queued ++ if s.q.eos.1 then [.eos] else [] }
    else none
  | .sendAnyway =>
    if s.open? then some { s with q := s.q.sendAnyway, queued := s.queued ++ [.send] } else none
  | .newSegment p =>
    if s.open? then
      some { s with stream := if s.q.hr = COutputQueue.S_OK then .newSegment p else .outside }
    else none
  | .reset =>
    if s.open? then
      some { s with q := s.q.resetLocked, stream := .waitingReset, queued := s.queued ++ [.reset] }
    else none
  | .stream => s.streamStep
  | .beginFlush =>
    if s.owner = .outside then some { s with
      q := s.q.beginFlushLocked.2
      owner := if s.q.beginFlushLocked.1 then .flushingDownstream else .flushing }
    else none
  | .endFlush =>
    if s.owner = .flushing then some { s with
      q := s.q.endFlushLocked.2
      owner := if s.q.endFlushLocked.1 then .waitingFlush else .outside }
    else none
  | .destroy =>
    if s.owner = .outside ∧ s.open? then
      some { s with q := s.q.terminateLocked, owner := .joining }
    else none
  | .owner => s.ownerStep

/-- What a step can do, one constructor for each branch of the threads. -/
inductive Steps (s : OutputThreads σ π) : OutputAction σ π → OutputThreads σ π → Prop
  | terminated (ht : s.thread = .looping) (hb : s.q.bTerminate = true) :
    Steps s .thread { s with
      q := s.q.freeSamples, thread := .returned, released := s.released ++ s.q.freed }
  | flushed (ht : s.thread = .looping) (hb : s.q.bTerminate = false) (hf : s.q.bFlushing = true) :
    Steps s .thread { s with
      q := { s.q.freeSamples with evFlushComplete := true, lWaiting := s.q.lWaiting + 1 }
      thread := .waiting
      released := s.released ++ s.q.freed }
  | prepared (samples : List σ) (ht : s.thread = .looping) (hb : s.q.bTerminate = false)
    (hf : s.q.bFlushing = false)
    (hg : COutputQueue.gather s.q.lBatchSize s.q.bBatchExact s.q.list s.q.samples = .empty samples) :
    Steps s .thread { s with
      q := { s.q with list := [], samples := samples, lWaiting := s.q.lWaiting + 1 }
      thread := .waiting }
  | gathered (pSample : Option (QueuePacket σ π)) (list : List (QueuePacket σ π))
    (samples : List σ) (ht : s.thread = .looping) (hb : s.q.bTerminate = false)
    (hf : s.q.bFlushing = false) (hne : samples ≠ [])
    (hg : COutputQueue.gather s.q.lBatchSize s.q.bBatchExact s.q.list s.q.samples =
      .found pSample list samples) :
    Steps s .thread { s with
      q := { s.q with list := list, samples := [] }, thread := .testingHr samples pSample }
  | gatheredControl (pSample : Option (QueuePacket σ π)) (list : List (QueuePacket σ π))
    (ht : s.thread = .looping) (hb : s.q.bTerminate = false) (hf : s.q.bFlushing = false)
    (hg : COutputQueue.gather s.q.lBatchSize s.q.bBatchExact s.q.list s.q.samples =
      .found pSample list []) :
    Steps s .thread { s with
      q := { s.q with list := list, samples := [] }, thread := .controlling pSample }
  | woken (ht : s.thread = .waiting) (hsem : 0 < s.q.hSem) :
    Steps s .thread { s with q := { s.q with hSem := s.q.hSem - 1 }, thread := .looping }
  | hrGood (batch : List σ) (pSample : Option (QueuePacket σ π))
    (ht : s.thread = .testingHr batch pSample) (hh : s.q.hr = COutputQueue.S_OK) :
    Steps s .thread { s with thread := .calling batch pSample }
  | hrBad (batch : List σ) (pSample : Option (QueuePacket σ π))
    (ht : s.thread = .testingHr batch pSample) (hh : s.q.hr ≠ COutputQueue.S_OK) :
    Steps s .thread { s with thread := .releasing batch pSample }
  | called (batch : List σ) (pSample : Option (QueuePacket σ π))
    (ht : s.thread = .calling batch pSample) :
    Steps s .thread { s with
      thread := .receiving batch pSample, calls := s.calls ++ [.receiveMultiple batch] }
  | callReturned (hr : Int) (batch : List σ) (pSample : Option (QueuePacket σ π))
    (ht : s.thread = .receiving batch pSample) :
    Steps s (.returns hr) { s with thread := .storingHr hr batch pSample }
  | hrStored (hr : Int) (batch : List σ) (pSample : Option (QueuePacket σ π))
    (ht : s.thread = .storingHr hr batch pSample) :
    Steps s .thread { s with
      q := { s.q with hr := if s.q.hr = COutputQueue.S_OK then hr else s.q.hr }
      thread := .releasing batch pSample }
  | batchReleased (batch : List σ) (pSample : Option (QueuePacket σ π))
    (ht : s.thread = .releasing batch pSample) :
    Steps s .thread { s with
      thread := .controlling pSample, released := s.released ++ batch.reverse }
  | endAllowed (ht : s.thread = .controlling (some .eos)) (hh : s.q.hr = COutputQueue.S_OK) :
    Steps s .thread { s with thread := .sendingEnd }
  | endWithheld (ht : s.thread = .controlling (some .eos)) (hh : s.q.hr ≠ COutputQueue.S_OK) :
    Steps s .thread { s with thread := .looping }
  | hrReset (ht : s.thread = .controlling (some .reset)) :
    Steps s .thread { s with
      q := { s.q with hr := COutputQueue.S_OK }, thread := .settingComplete }
  | segmentSent (p : π) (ht : s.thread = .controlling (some (.newSegment p))) :
    Steps s .thread { s with thread := .looping, calls := s.calls ++ [.newSegment p] }
  | uncontrolled (pSample : Option (QueuePacket σ π)) (ht : s.thread = .controlling pSample)
    (hc : COutputQueue.requested pSample = []) : Steps s .thread { s with thread := .looping }
  | endSent (ht : s.thread = .sendingEnd) :
    Steps s .thread { s with thread := .looping, calls := s.calls ++ [.endOfStream] }
  | completeSet (ht : s.thread = .settingComplete) :
    Steps s .thread { s with q := { s.q with evFlushComplete := true }, thread := .looping }
  | accepted (ppSamples : List σ) (ho : s.open? = true) (hh : s.q.hr = COutputQueue.S_OK) :
    Steps s (.receiveMultiple ppSamples) { s with
      q := { s.q with
        bFlushed := false
        list := s.q.list ++ ofSamples ppSamples
        hSem := s.q.hSem + s.q.lWaiting
        lWaiting := 0 }
      queued := s.queued ++ ofSamples ppSamples
      received := s.received ++ ppSamples }
  | acceptedQuietly (ppSamples : List σ) (ho : s.open? = true) (hh : s.q.hr = COutputQueue.S_OK)
    (hb : s.q.bBatchExact = true)
    (hlt : s.q.samples.length + COutputQueue.getCount (s.q.list ++ ofSamples ppSamples) <
      s.q.lBatchSize) :
    Steps s (.receiveMultiple ppSamples) { s with
      q := { s.q with bFlushed := false, list := s.q.list ++ ofSamples ppSamples }
      queued := s.queued ++ ofSamples ppSamples
      received := s.received ++ ppSamples }
  | refused (ppSamples : List σ) (ho : s.open? = true) (hh : s.q.hr ≠ COutputQueue.S_OK) :
    Steps s (.receiveMultiple ppSamples) { s with
      received := s.received ++ ppSamples, released := s.released ++ ppSamples }
  | eosQueued (ho : s.open? = true) (hh : s.q.hr = COutputQueue.S_OK) :
    Steps s .eos { s with
      q := { s.q with
        bFlushed := false, list := s.q.list ++ [.eos], hSem := s.q.hSem + s.q.lWaiting, lWaiting := 0 }
      queued := s.queued ++ [.eos] }
  | eosRefused (ho : s.open? = true) (hh : s.q.hr ≠ COutputQueue.S_OK) : Steps s .eos s
  | sendQueued (ho : s.open? = true) :
    Steps s .sendAnyway { s with
      q := { s.q with list := s.q.list ++ [.send], hSem := s.q.hSem + s.q.lWaiting, lWaiting := 0 }
      queued := s.queued ++ [.send] }
  | segmentCalled (p : π) (ho : s.open? = true) (hh : s.q.hr = COutputQueue.S_OK) :
    Steps s (.newSegment p) { s with stream := .newSegment p }
  | segmentRefused (p : π) (ho : s.open? = true) (hh : s.q.hr ≠ COutputQueue.S_OK) :
    Steps s (.newSegment p) { s with stream := .outside }
  | segmentQueued (p : π) (hs : s.stream = .newSegment p) :
    Steps s .stream { s with
      q := { s.q with
        list := s.q.list ++ [.newSegment p], hSem := s.q.hSem + s.q.lWaiting, lWaiting := 0 }
      stream := .outside
      queued := s.queued ++ [.newSegment p] }
  | resetQueued (ho : s.open? = true) :
    Steps s .reset { s with
      q := { s.q with list := s.q.list ++ [.reset], hSem := s.q.hSem + s.q.lWaiting, lWaiting := 0 }
      stream := .waitingReset
      queued := s.queued ++ [.reset] }
  | resetWaited (hs : s.stream = .waitingReset) (he : s.q.evFlushComplete = true) :
    Steps s .stream { s with q := { s.q with evFlushComplete := false }, stream := .outside }
  | flushSkipped (ho : s.owner = .outside) (hf : (s.q.bFlushed && s.q.bFlushingOpt) = true) :
    Steps s .beginFlush { s with
      q := { s.q with
        bFlushing := true
        hr := if s.q.hr = COutputQueue.S_OK then COutputQueue.S_FALSE else s.q.hr }
      owner := .flushing }
  | flushBegun (ho : s.owner = .outside) (hf : (s.q.bFlushed && s.q.bFlushingOpt) = false) :
    Steps s .beginFlush { s with
      q := { s.q with
        bFlushing := true
        hr := if s.q.hr = COutputQueue.S_OK then COutputQueue.S_FALSE else s.q.hr
        evFlushComplete := false
        hSem := s.q.hSem + s.q.lWaiting
        lWaiting := 0 }
      owner := .flushingDownstream }
  | flushSent (ho : s.owner = .flushingDownstream) :
    Steps s .owner { s with owner := .flushing, calls := s.calls ++ [.beginFlush] }
  | endFlushSkipped (ho : s.owner = .flushing) (hf : (s.q.bFlushingOpt && s.q.bFlushed) = true) :
    Steps s .endFlush { s with
      q := { s.q with bFlushing := false, hr := COutputQueue.S_OK }, owner := .outside }
  | endFlushBegun (ho : s.owner = .flushing) (hf : (s.q.bFlushingOpt && s.q.bFlushed) = false) :
    Steps s .endFlush { s with owner := .waitingFlush }
  | flushWaited (ho : s.owner = .waitingFlush) (he : s.q.evFlushComplete = true) :
    Steps s .owner { s with q := { s.q with evFlushComplete := false }, owner := .clearingFlags }
  | flagsCleared (ho : s.owner = .clearingFlags) :
    Steps s .owner { s with
      q := { s.q with bFlushing := false, bFlushed := true }, owner := .endingDownstream }
  | endFlushSent (ho : s.owner = .endingDownstream) :
    Steps s .owner { s with owner := .clearingHr, calls := s.calls ++ [.endFlush] }
  | hrCleared (ho : s.owner = .clearingHr) :
    Steps s .owner { s with q := { s.q with hr := COutputQueue.S_OK }, owner := .outside }
  | destroyCalled (ho : s.owner = .outside) (hopen : s.open? = true) :
    Steps s .destroy { s with
      q := { s.q with
        bTerminate := true
        hr := COutputQueue.S_FALSE
        hSem := s.q.hSem + s.q.lWaiting
        lWaiting := 0 }
      owner := .joining }
  | joined (ho : s.owner = .joining) (ht : s.thread = .returned) :
    Steps s .owner { s with owner := .destroyed }

theorem notifyThread_eq (q : COutputQueue σ π) :
    q.notifyThread = { q with hSem := q.hSem + q.lWaiting, lWaiting := 0 } := by
  unfold COutputQueue.notifyThread
  split
  · rfl
  · next h => rw [not_not.mp h, Nat.add_zero, ← not_not.mp h]

theorem steps_of_threadStep {s t : OutputThreads σ π} (h : s.threadStep = some t) :
    Steps s .thread t := by
  unfold threadStep at h
  split at h
  · next ht =>
    by_cases hb : s.q.bTerminate = true
    · rw [if_pos hb] at h
      obtain rfl := Option.some.inj h
      exact .terminated ht hb
    rw [if_neg hb] at h
    rw [Bool.not_eq_true] at hb
    by_cases hf : s.q.bFlushing = true
    · rw [if_pos hf] at h
      obtain rfl := Option.some.inj h
      have hg : COutputQueue.gather s.q.lBatchSize s.q.bBatchExact
          ([] : List (QueuePacket σ π)) ([] : List σ) = .empty [] := by
        simp [COutputQueue.gather]
      simp only [gatherStep, COutputQueue.freeSamples, hg]
      exact .flushed ht hb hf
    rw [if_neg hf] at h
    rw [Bool.not_eq_true] at hf
    obtain rfl := Option.some.inj h
    unfold gatherStep
    split
    · next samples hg => exact .prepared samples ht hb hf hg
    · next pSample list samples hg =>
      cases samples with
      | nil => exact .gatheredControl pSample list ht hb hf hg
      | cons x samples => exact .gathered pSample list (x :: samples) ht hb hf (List.cons_ne_nil _ _) hg
  · next ht =>
    split at h
    · obtain rfl := Option.some.inj h
      exact .woken ht ‹_›
    · cases h
  · next batch pSample ht =>
    split at h <;> obtain rfl := Option.some.inj h
    · exact .hrGood batch pSample ht ‹_›
    · exact .hrBad batch pSample ht ‹_›
  · next batch pSample ht =>
    obtain rfl := Option.some.inj h
    exact .called batch pSample ht
  · cases h
  · next hr batch pSample ht =>
    obtain rfl := Option.some.inj h
    exact .hrStored hr batch pSample ht
  · next batch pSample ht =>
    obtain rfl := Option.some.inj h
    exact .batchReleased batch pSample ht
  · next ht =>
    split at h <;> obtain rfl := Option.some.inj h
    · exact .endAllowed ht ‹_›
    · exact .endWithheld ht ‹_›
  · next ht =>
    obtain rfl := Option.some.inj h
    exact .hrReset ht
  · next p ht =>
    obtain rfl := Option.some.inj h
    exact .segmentSent p ht
  · next ht =>
    obtain rfl := Option.some.inj h
    exact .uncontrolled _ ht rfl
  · next ht =>
    obtain rfl := Option.some.inj h
    exact .uncontrolled _ ht rfl
  · next ht =>
    obtain rfl := Option.some.inj h
    exact .uncontrolled _ ht rfl
  · next ht =>
    obtain rfl := Option.some.inj h
    exact .endSent ht
  · next ht =>
    obtain rfl := Option.some.inj h
    exact .completeSet ht
  · cases h

theorem steps_of_ownerStep {s t : OutputThreads σ π} (h : s.ownerStep = some t) :
    Steps s .owner t := by
  unfold ownerStep at h
  split at h
  · cases h
  · next ho =>
    obtain rfl := Option.some.inj h
    exact .flushSent ho
  · cases h
  · next ho =>
    split at h
    · obtain rfl := Option.some.inj h
      exact .flushWaited ho ‹_›
    · cases h
  · next ho =>
    obtain rfl := Option.some.inj h
    exact .flagsCleared ho
  · next ho =>
    obtain rfl := Option.some.inj h
    exact .endFlushSent ho
  · next ho =>
    obtain rfl := Option.some.inj h
    exact .hrCleared ho
  · next ho =>
    split at h
    · next ht =>
      obtain rfl := Option.some.inj h
      exact .joined ho ht
    · cases h
  · cases h

theorem steps_of_receiveMultiple {s t : OutputThreads σ π} {ppSamples : List σ}
    (h : s.step (.receiveMultiple ppSamples) = some t) : Steps s (.receiveMultiple ppSamples) t := by
  simp only [step, Option.ite_none_right_eq_some, Option.some.injEq] at h
  obtain ⟨ho, rfl⟩ := h
  by_cases hh : s.q.hr = COutputQueue.S_OK
  · simp only [COutputQueue.receiveMultiple, hh, ne_eq, not_true_eq_false, if_false,
      List.take_length, List.append_nil]
    split
    · rw [notifyThread_eq, ← hh]
      exact .accepted ppSamples ho hh
    · next hq =>
      rw [Bool.or_eq_true, not_or, Bool.not_eq_true', Bool.not_eq_false, decide_eq_true_eq,
        ge_iff_le, Nat.not_le] at hq
      rw [← hh]
      exact .acceptedQuietly ppSamples ho hh hq.1 hq.2
  · simp only [COutputQueue.receiveMultiple, ne_eq, hh, not_false_eq_true, if_true, List.take_zero,
      ofSamples_nil, List.append_nil]
    exact .refused ppSamples ho hh

theorem steps_of_step {s t : OutputThreads σ π} {a : OutputAction σ π} (h : s.step a = some t) :
    Steps s a t := by
  cases a with
  | thread => exact steps_of_threadStep h
  | returns hr =>
    simp only [step] at h
    split at h
    · next batch pSample ht =>
      obtain rfl := Option.some.inj h
      exact .callReturned hr batch pSample ht
    · cases h
  | receiveMultiple ppSamples => exact steps_of_receiveMultiple h
  | eos =>
    simp only [step, Option.ite_none_right_eq_some, Option.some.injEq] at h
    obtain ⟨ho, rfl⟩ := h
    by_cases hh : s.q.hr = COutputQueue.S_OK
    · simp only [COutputQueue.eos, if_pos hh, COutputQueue.queueSample, notifyThread_eq]
      exact .eosQueued ho hh
    · simp only [COutputQueue.eos, if_neg hh, Bool.false_eq_true, if_false, List.append_nil]
      exact .eosRefused ho hh
  | sendAnyway =>
    simp only [step, Option.ite_none_right_eq_some, Option.some.injEq] at h
    obtain ⟨ho, rfl⟩ := h
    rw [COutputQueue.sendAnyway, notifyThread_eq]
    exact .sendQueued ho
  | newSegment p =>
    simp only [step, Option.ite_none_right_eq_some, Option.some.injEq] at h
    obtain ⟨ho, rfl⟩ := h
    by_cases hh : s.q.hr = COutputQueue.S_OK
    · rw [if_pos hh]
      exact .segmentCalled p ho hh
    · rw [if_neg hh]
      exact .segmentRefused p ho hh
  | reset =>
    simp only [step, Option.ite_none_right_eq_some, Option.some.injEq] at h
    obtain ⟨ho, rfl⟩ := h
    rw [COutputQueue.resetLocked, notifyThread_eq]
    exact .resetQueued ho
  | stream =>
    simp only [step, streamStep] at h
    split at h
    · cases h
    · next p hs =>
      obtain rfl := Option.some.inj h
      rw [COutputQueue.newSegmentLocked, notifyThread_eq]
      exact .segmentQueued p hs
    · next hs =>
      split at h
      · obtain rfl := Option.some.inj h
        exact .resetWaited hs ‹_›
      · cases h
  | beginFlush =>
    simp only [step, Option.ite_none_right_eq_some, Option.some.injEq] at h
    obtain ⟨ho, rfl⟩ := h
    cases hf : s.q.bFlushed && s.q.bFlushingOpt with
    | true =>
      simp only [COutputQueue.beginFlushLocked, hf, if_true, Bool.false_eq_true, if_false]
      exact .flushSkipped ho hf
    | false =>
      simp only [COutputQueue.beginFlushLocked, hf, if_true, Bool.false_eq_true, if_false,
        notifyThread_eq]
      exact .flushBegun ho hf
  | endFlush =>
    simp only [step, Option.ite_none_right_eq_some, Option.some.injEq] at h
    obtain ⟨ho, rfl⟩ := h
    cases hf : s.q.bFlushingOpt && s.q.bFlushed with
    | true =>
      simp only [COutputQueue.endFlushLocked, hf, if_true, Bool.false_eq_true, if_false]
      exact .endFlushSkipped ho hf
    | false =>
      simp only [COutputQueue.endFlushLocked, hf, if_true, Bool.false_eq_true, if_false]
      exact .endFlushBegun ho hf
  | destroy =>
    simp only [step, Option.ite_none_right_eq_some, Option.some.injEq] at h
    obtain ⟨⟨ho, hopen⟩, rfl⟩ := h
    rw [COutputQueue.terminateLocked, notifyThread_eq]
    exact .destroyCalled ho hopen
  | owner => exact steps_of_ownerStep h

end OutputThreads

end WinDV
