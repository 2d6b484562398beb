import WinDV.BorrowedSlot
import WinDV.FlatQueue

/-! The threads around a `CDVQueue` that lies in its block of memory. Where the
size of the block does not wrap, they are the threads around a ring of slots. -/

namespace WinDV

open Transition RingBuffer

/-- The duration is a `REFERENCE_TIME`. -/
def Frame.Timed (f : Frame) : Prop := -2 ^ 63 ≤ f.duration ∧ f.duration < 2 ^ 63

instance : DecidablePred Frame.Timed := fun _ => inferInstanceAs (Decidable (_ ∧ _))

/-- As `QueueThreads`. An access outside of the block is a fault, after which nothing is said. -/
structure BlockThreads where
  ring : FlatQueue
  producer : ProducerPc
  finalizer : FinalizerPc
  consumer : ConsumerPc
  accepted : List Frame
  returned : List Frame
  faulted : Bool

namespace BlockThreads

def start (queueSize dataSize : Nat) (memory : Nat → UInt8) : BlockThreads where
  ring := FlatQueue.new queueSize dataSize memory
  producer := .outside
  finalizer := .outside
  consumer := .outside
  accepted := []
  returned := []
  faulted := false

def fault (s : BlockThreads) : BlockThreads := { s with faulted := true }

def producerStep (s : BlockThreads) : Option BlockThreads :=
  match s.producer with
  | .testEnd f =>
    if s.ring.isEnd then some { s with producer := .outside }
    else some { s with producer := .locking f }
  | .locking f =>
    match s.ring.putLocked (Int64.ofInt f.duration) f.data f.data.length with
    | some (some ring) =>
      some { s with ring := ring, producer := .outside, accepted := s.accepted ++ [f] }
    | some none => some { s with producer := .waiting f }
    | none => some s.fault
  | .waiting f =>
    if s.ring.evPut then
      some { s with ring := { s.ring with evPut := false }, producer := .testEnd f }
    else none
  | .outside => none
  | .stopped => none

def finalizerStep (s : BlockThreads) : Option BlockThreads :=
  match s.finalizer with
  | .settingEnd =>
    some { s with ring := { s.ring with isEnd := true }, finalizer := .signallingGet }
  | .signallingGet =>
    some { s with ring := { s.ring with evGet := true }, finalizer := .signallingPut }
  | .signallingPut =>
    some { s with ring := { s.ring with evPut := true }, finalizer := .returned }
  | .outside => none
  | .returned => none

/-- The worker reads the bytes that it was handed. -/
def takeFrame (s : BlockThreads) (got : FlatQueue.Got) (ring : FlatQueue) : BlockThreads :=
  match ring.buffers.read got.data got.len.toUInt32.toNat with
  | some data => { s with
      ring := ring
      consumer := .outside
      returned := s.returned ++ [⟨got.duration.toInt, data⟩] }
  | none => s.fault

def consumerStep (s : BlockThreads) (capturing : Bool) : Option BlockThreads :=
  match s.consumer with
  | .locking v =>
    match s.ring.getLocked with
    | some (some (got, ring)) => some (s.takeFrame got ring)
    | some none => some { s with consumer := .testEnd v }
    | none => some s.fault
  | .testEnd v =>
    if s.ring.isEnd then some { s with consumer := .returnedFalse v }
    else some { s with consumer := .waiting v }
  | .waiting v =>
    if s.ring.evGet then
      some { s with ring := { s.ring with evGet := false }, consumer := .locking v }
    else none
  | .returnedFalse _ =>
    if s.ring.isEnd then some { s with consumer := .ended }
    else some { s with consumer := .testSignalLost }
  | .testSignalLost =>
    if !s.ring.isEnd && capturing then some { s with consumer := .signalLost }
    else some { s with consumer := .outside }
  | .outside => none
  | .ended => none
  | .signalLost => none

def step (s : BlockThreads) (a : QueueAction) : Option BlockThreads :=
  if s.faulted then none
  else
    match a with
    | .put f => if s.producer = .outside ∧ f.Timed then some { s with producer := .testEnd f } else none
    | .stopSource => if s.producer = .outside then some { s with producer := .stopped } else none
    | .producer => s.producerStep
    | .finalize => if s.finalizer = .outside then some { s with finalizer := .settingEnd } else none
    | .finalizer => s.finalizerStep
    | .get v => if s.consumer.calling then none else some { s with consumer := .locking v }
    | .consumer capturing => s.consumerStep capturing
    | .timeout =>
      if s.consumer = .waiting .getWithTimeout ∧ s.ring.evGet = false then
        some { s with consumer := .returnedFalse .getWithTimeout }
      else none

end BlockThreads

/-- The frame that `Put` was called with. -/
def ProducerPc.frame : ProducerPc → Option Frame
  | .testEnd f | .locking f | .waiting f => some f
  | .outside | .stopped => none

namespace BlockThreads

/-- The threads are where those around the ring of slots are, and the block holds its slots. -/
structure Refines (s : BlockThreads) (q : QueueThreads) : Prop where
  holds : s.ring.Holds q.q
  producer : s.producer = q.producer
  finalizer : s.finalizer = q.finalizer
  consumer : s.consumer = q.consumer
  accepted : s.accepted = q.accepted
  returned : s.returned = q.returned
  timed : ∀ f, q.producer.frame = some f → f.Timed
  unfaulted : s.faulted = false

variable {queueSize dataSize : Nat} {memory : Nat → UInt8} {s t : BlockThreads} {q q' : QueueThreads}
  {a : QueueAction} {acts : List QueueAction}

theorem start_refines (hfit : BlockFits queueSize dataSize) :
    Refines (start queueSize dataSize memory)
      (.start queueSize dataSize (FlatQueue.new queueSize dataSize memory).bufferAt) :=
  ⟨FlatQueue.new_holds hfit, rfl, rfl, rfl, rfl, rfl, nofun, rfl⟩

theorem Refines.stored (h : Refines s q) (hv : q.q.Valid) :
    contents s.ring.bufferAt s.ring.queueSize s.ring.head s.ring.load = q.q.stored := by
  have hpos : 0 < s.ring.queueSize := by
    rw [h.holds.queueSize]
    exact Nat.zero_lt_of_lt hv.head_lt
  rw [CDVQueue.stored, ← h.holds.queueSize, ← h.holds.head, ← h.holds.load]
  exact List.map_congr_left fun i _ => h.holds.slots _ (Nat.mod_lt _ hpos)

theorem Refines.producerStep (h : Refines s q) (hv : q.q.Valid) :
    Option.Rel Refines s.producerStep q.producerStep := by
  have hproducer := h.producer
  have hisEnd := h.holds.isEnd
  have hevPut := h.holds.evPut
  cases hp : q.producer with
  | outside | stopped =>
    simp only [BlockThreads.producerStep, QueueThreads.producerStep, hproducer, hp]
    exact .none
  | testEnd f =>
    simp only [BlockThreads.producerStep, QueueThreads.producerStep, hproducer, hp, hisEnd]
    split
    · exact .some { h with producer := rfl, timed := nofun }
    · exact .some { h with producer := rfl, timed := fun g hg => h.timed g (by rw [hp]; exact hg) }
  | waiting f =>
    simp only [BlockThreads.producerStep, QueueThreads.producerStep, hproducer, hp, hevPut]
    split
    · exact .some { h with
        holds := h.holds.flags hisEnd rfl h.holds.evGet
        producer := rfl
        timed := fun g hg => h.timed g (by rw [hp]; exact hg) }
    · exact .none
  | locking f =>
    have htimed : (Int64.ofInt f.duration).toInt = f.duration :=
      Int64.toInt_ofInt_of_le (h.timed f (by rw [hp]; rfl)).1 (h.timed f (by rw [hp]; rfl)).2
    simp only [BlockThreads.producerStep, QueueThreads.producerStep, hproducer, hp]
    have hput := FlatQueue.putLocked_holds h.holds hv (Int64.ofInt f.duration) f.data
    rw [htimed] at hput
    rcases hput with ⟨hfull, hflat⟩ | ⟨ring, r, hroom, hflat, hholds⟩
    · rw [hfull, hflat]
      exact .some { h with producer := rfl, timed := fun g hg => h.timed g (by rw [hp]; exact hg) }
    · rw [hroom, hflat]
      exact .some { h with
        holds := hholds
        producer := rfl
        accepted := congrArg (· ++ [f]) h.accepted
        timed := nofun }

theorem Refines.finalizerStep (h : Refines s q) :
    Option.Rel Refines s.finalizerStep q.finalizerStep := by
  have hfinalizer := h.finalizer
  cases hf : q.finalizer with
  | outside | returned =>
    simp only [BlockThreads.finalizerStep, QueueThreads.finalizerStep, hfinalizer, hf]
    exact .none
  | settingEnd =>
    simp only [BlockThreads.finalizerStep, QueueThreads.finalizerStep, hfinalizer, hf]
    exact .some { h with holds := h.holds.flags rfl h.holds.evPut h.holds.evGet, finalizer := rfl }
  | signallingGet =>
    simp only [BlockThreads.finalizerStep, QueueThreads.finalizerStep, hfinalizer, hf]
    exact .some { h with holds := h.holds.flags h.holds.isEnd h.holds.evPut rfl, finalizer := rfl }
  | signallingPut =>
    simp only [BlockThreads.finalizerStep, QueueThreads.finalizerStep, hfinalizer, hf]
    exact .some { h with holds := h.holds.flags h.holds.isEnd rfl h.holds.evGet, finalizer := rfl }

/-- The bytes that the worker reads are those of the slot. -/
theorem Refines.takeFrame {got : FlatQueue.Got} {ring : FlatQueue} {r : CDVQueue} (h : Refines s q)
    (hv : q.q.Valid) (hfilled : (q.q.queue q.q.head).len = (q.q.queue q.q.head).frame.data.length)
    (hduration : got.duration.toInt = (q.q.queue q.q.head).duration)
    (hlen : got.len.toUInt32.toNat = (q.q.queue q.q.head).len)
    (hdata : got.data = ring.queue q.q.head + 12) (hbuffers : ring.buffers = s.ring.buffers)
    (hqueue : ring.queue = s.ring.queue) (hholds : ring.Holds r) :
    Refines (s.takeFrame got ring) { q with
      q := r, consumer := .outside, returned := q.returned ++ [(q.q.queue q.q.head).frame] } := by
  have hhead : q.q.head < s.ring.queueSize := by
    rw [h.holds.queueSize]
    exact hv.head_lt
  have hread := (h.holds.read_slot hhead).2
  have htaken : ring.buffers.read got.data got.len.toUInt32.toNat =
      some (q.q.queue q.q.head).frame.data := by
    rw [hbuffers, hdata, hqueue, hlen, hfilled, hread]
  simp only [BlockThreads.takeFrame, htaken]
  refine { h with holds := hholds, consumer := rfl, returned := ?_ }
  rw [hduration, h.returned, Buffer.frame]

theorem Refines.consumerStep (h : Refines s q) (hfifo : QueueThreads.BoundedFifo queueSize dataSize q)
    (capturing : Bool) : Option.Rel Refines (s.consumerStep capturing) (q.consumerStep capturing) := by
  have hconsumer := h.consumer
  have hisEnd := h.holds.isEnd
  have hevGet := h.holds.evGet
  cases hc : q.consumer with
  | outside | ended | signalLost =>
    simp only [BlockThreads.consumerStep, QueueThreads.consumerStep, hconsumer, hc]
    exact .none
  | testEnd v | returnedFalse v | testSignalLost =>
    simp only [BlockThreads.consumerStep, QueueThreads.consumerStep, hconsumer, hc, hisEnd]
    split <;> exact .some { h with consumer := rfl }
  | waiting v =>
    simp only [BlockThreads.consumerStep, QueueThreads.consumerStep, hconsumer, hc, hevGet]
    split
    · exact .some { h with holds := h.holds.flags hisEnd h.holds.evPut rfl, consumer := rfl }
    · exact .none
  | locking v =>
    simp only [BlockThreads.consumerStep, QueueThreads.consumerStep, hconsumer, hc]
    rcases FlatQueue.getLocked_holds h.holds hfifo.valid with ⟨hempty, hflat⟩ |
      ⟨got, ring, r, hsome, hflat, hduration, hlen, hdata, hbuffers, hqueue, hholds⟩
    · rw [hempty, hflat]
      exact .some { h with consumer := rfl }
    · have hfilled : (q.q.queue q.q.head).len = (q.q.queue q.q.head).frame.data.length :=
        hfifo.filled _ (by rw [CDVQueue.getLocked_stored hfifo.valid hsome]; exact List.mem_cons_self)
      rw [hsome, hflat]
      exact .some (h.takeFrame hfifo.valid hfilled hduration hlen (by rw [hqueue, hdata]) hbuffers hqueue
        hholds)

/-- A frame that comes to `Put` has a duration of 64 bits. -/
def Timely : QueueAction → Prop
  | .put f => f.Timed
  | _ => True

/-- The two can do the same, and no access leaves the block. -/
theorem Refines.step (h : Refines s q) (hfifo : QueueThreads.BoundedFifo queueSize dataSize q)
    (ha : Timely a) : Option.Rel Refines (s.step a) (q.anyStep a) := by
  have hproducer := h.producer
  have hfinalizer := h.finalizer
  have hconsumer := h.consumer
  have hunfaulted : ¬ s.faulted = true := Bool.eq_false_iff.mp h.unfaulted
  unfold BlockThreads.step
  rw [if_neg hunfaulted]
  cases a with
  | put f =>
    have htimed : f.Timed := ha
    simp only [QueueThreads.anyStep, QueueThreads.step, hproducer, htimed, and_true]
    split
    · exact .some { h with producer := rfl, timed := fun g hg => by cases hg; exact htimed }
    · exact .none
  | stopSource =>
    simp only [QueueThreads.anyStep, QueueThreads.step, hproducer]
    split
    · exact .some { h with producer := rfl, timed := fun g hg => by cases hg }
    · exact .none
  | finalize =>
    simp only [QueueThreads.anyStep, QueueThreads.step, hfinalizer]
    split
    · exact .some { h with finalizer := rfl }
    · exact .none
  | get v =>
    simp only [QueueThreads.anyStep, hconsumer]
    split
    · exact .none
    · exact .some { h with consumer := rfl }
  | timeout =>
    simp only [QueueThreads.anyStep, QueueThreads.step, hconsumer, h.holds.evGet]
    split
    · exact .some { h with consumer := rfl }
    · exact .none
  | producer => exact h.producerStep hfifo.valid
  | finalizer => exact h.finalizerStep
  | consumer capturing => exact h.consumerStep hfifo capturing

theorem timely_of_step (h : s.step a = some t) : Timely a := by
  cases a with
  | put f =>
    simp only [BlockThreads.step, Option.ite_none_left_eq_some, Option.ite_none_right_eq_some] at h
    exact h.2.1.2
  | _ => trivial

/-- The ring of slots that the block is, in one of its reachable states. -/
structure Ring (queueSize dataSize : Nat) (s : BlockThreads) (q : QueueThreads) : Prop where
  refines : Refines s q
  fifo : QueueThreads.BoundedFifo queueSize dataSize q

theorem start_ring (hfit : BlockFits queueSize dataSize) :
    Ring queueSize dataSize (start queueSize dataSize memory)
      (.start queueSize dataSize (FlatQueue.new queueSize dataSize memory).bufferAt) :=
  ⟨start_refines hfit, QueueThreads.start_boundedFifo _ _ _⟩

/-- The ring of slots follows the block. -/
theorem Ring.follows (h : Ring queueSize dataSize s q) (hstep : s.step a = some t) :
    ∃ q', q.anyStep a = some q' ∧ Ring queueSize dataSize t q' := by
  have hrel := h.refines.step h.fifo (timely_of_step hstep)
  rw [hstep] at hrel
  cases hq : q.anyStep a with
  | none =>
    rw [hq] at hrel
    cases hrel
  | some q' =>
    rw [hq] at hrel
    cases hrel with
    | some hrefines => exact ⟨q', rfl, hrefines, h.fifo.anyStep hq⟩

/-- The block follows the ring of slots. -/
theorem Ring.followed (h : Ring queueSize dataSize s q) (ha : Timely a)
    (hstep : q.anyStep a = some q') : ∃ t, s.step a = some t ∧ Ring queueSize dataSize t q' := by
  have hrel := h.refines.step h.fifo ha
  rw [hstep] at hrel
  cases hs : s.step a with
  | none =>
    rw [hs] at hrel
    cases hrel
  | some t =>
    rw [hs] at hrel
    cases hrel with
    | some hrefines => exact ⟨t, rfl, hrefines, h.fifo.anyStep hstep⟩

theorem Ring.run {p : QueueAction → Prop} (h : Ring queueSize dataSize s q)
    (hrun : Run step (fun _ a => p a) s acts t) :
    ∃ q', Run QueueThreads.anyStep (fun _ a => p a) q acts q' ∧ Ring queueSize dataSize t q' := by
  apply hrun.simulate (Ring queueSize dataSize) _ h
  intro s q a t h ha hstep
  obtain ⟨q', hq, h'⟩ := h.follows hstep
  exact ⟨q', ha, hq, h'⟩

end BlockThreads

end WinDV
