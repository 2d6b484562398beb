import WinDV.CaptureThreads
import WinDV.BlockThreads

/-! The queue of a capture in its block of memory. -/

namespace WinDV.CaptureThreads

open Transition

/-- The frames that the device delivers have durations of 64 bits. -/
def Timely : ThreadsAction → Prop
  | .put f => f.Timed
  | _ => True

instance : DecidablePred Timely
  | .put f => inferInstanceAs (Decidable f.Timed)
  | .producer | .deviceEnds | .finalizer | .call _ | .ui | .worker _ | .timeout =>
    inferInstanceAs (Decidable True)

/-- Where the size of the block does not wrap, the slots of the queue are in a block of
memory in which the same was done. -/
def InBlock (queueSize dataSize : Nat) (memory : Nat → Buffer) (s : CaptureThreads) : Prop :=
  ∀ bytes, memory = (FlatQueue.new queueSize dataSize bytes).bufferAt → BlockFits queueSize dataSize →
    ∃ acts b, Run BlockThreads.step (fun _ _ => True) (BlockThreads.start queueSize dataSize bytes) acts b ∧
      BlockThreads.Refines b s.queue

variable {env : CaptureEnv} {s t : CaptureThreads}

/-- The methods of the queue, called with such frames. -/
abbrev QueueRun (q : QueueThreads) (acts : List QueueAction) (q' : QueueThreads) : Prop :=
  Run QueueThreads.anyStep (fun _ b => BlockThreads.Timely b) q acts q'

theorem run_of_queueStep {b : QueueAction} (h : s.queueStep b = some t) (hb : BlockThreads.Timely b) :
    QueueRun s.queue [b] t.queue := by
  obtain ⟨q, hq, rfl⟩ := queueStep_eq_some h
  exact .single hb (QueueThreads.anyStep_of_step hq)

theorem afterGet_queue {calls : Calls} {q : QueueThreads} (h : s.afterGet env calls q = some t) :
    t.queue = q := by
  unfold afterGet at h
  dsimp only at h
  split at h
  case h_1 =>
    obtain ⟨w, -, rfl⟩ := Option.map_eq_some_iff.mp h
    rfl
  all_goals
    obtain rfl := Option.some.inj h
    rfl

theorem queueRun_of_workerStep {calls : Calls} (h : s.workerStep env calls = some t) :
    ∃ acts, QueueRun s.queue acts t.queue := by
  unfold workerStep getStep at h
  split at h
  · split at h
    · exact ⟨_, run_of_queueStep h trivial⟩
    · obtain ⟨q, hq, hafter⟩ := Option.bind_eq_some_iff.mp h
      rw [afterGet_queue hafter]
      exact ⟨_, .single (by trivial) (QueueThreads.anyStep_of_step hq)⟩
  · obtain ⟨w, -, rfl⟩ := Option.map_eq_some_iff.mp h
    exact ⟨[], .nil _⟩

theorem queueRun_of_uiStep (h : s.uiStep = some t) : ∃ acts, QueueRun s.queue acts t.queue := by
  have hdialog (h : (s.live.uiStep.map fun l => { s with live := l }) = some t) :
      ∃ acts, QueueRun s.queue acts t.queue := by
    obtain ⟨l, -, rfl⟩ := Option.map_eq_some_iff.mp h
    exact ⟨[], .nil _⟩
  unfold uiStep at h
  split at h
  · split_ifs at h
    · exact ⟨_, run_of_queueStep h trivial⟩
    · exact ⟨_, run_of_queueStep h trivial⟩
    · exact hdialog h
  · split_ifs at h
    · exact ⟨_, run_of_queueStep h trivial⟩
    · exact ⟨_, run_of_queueStep h trivial⟩
    · exact hdialog h
  · exact hdialog h

/-- Of the queue a step of the threads is a step or two, or none. -/
theorem queueRun_of_step {a : ThreadsAction} (ha : Timely a) (h : s.step env a = some t) :
    ∃ acts, QueueRun s.queue acts t.queue := by
  cases a with
  | put f => exact ⟨_, run_of_queueStep h ha⟩
  | producer | finalizer | timeout => exact ⟨_, run_of_queueStep h trivial⟩
  | deviceEnds =>
    obtain ⟨u, hu, ht⟩ := Option.bind_eq_some_iff.mp h
    exact ⟨_, (run_of_queueStep hu trivial).trans (run_of_queueStep ht trivial)⟩
  | call k =>
    obtain ⟨l, -, rfl⟩ := Option.map_eq_some_iff.mp h
    exact ⟨[], .nil _⟩
  | ui => exact queueRun_of_uiStep h
  | worker calls => exact queueRun_of_workerStep h

theorem inBlock_of_run {c : CDV} {drops : Int32} {queueSize dataSize : Nat} {memory : Nat → Buffer}
    {acts : List ThreadsAction} {ok : CaptureThreads → ThreadsAction → Prop}
    (hrun : Run (step env) ok (start env c drops queueSize dataSize memory) acts s)
    (htimely : ∀ a ∈ acts, Timely a) : InBlock queueSize dataSize memory s := by
  rintro bytes rfl hfit
  obtain ⟨calls, hqueue⟩ := (hrun.restrict htimely).project queue
    fun _ _ _ hok hstep => queueRun_of_step hok.2 hstep
  have hfollowed : ∃ b,
      Run BlockThreads.step (fun _ _ => True) (BlockThreads.start queueSize dataSize bytes) calls b ∧
        BlockThreads.Ring queueSize dataSize b s.queue := by
    apply hqueue.simulate (fun q b => BlockThreads.Ring queueSize dataSize b q) _
      (BlockThreads.start_ring hfit)
    intro q b a q' h ha hstep
    obtain ⟨b', hb, h'⟩ := h.followed ha hstep
    exact ⟨b', trivial, hb, h'⟩
  obtain ⟨b, hblock, hring⟩ := hfollowed
  exact ⟨calls, b, hblock, hring.refines⟩

end WinDV.CaptureThreads
