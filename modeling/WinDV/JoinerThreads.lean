import WinDV.Queue
import WinDV.Transition

/-! `CAVIJoiner` at work, after `Run` has started `JoinerThread`: the streaming
thread of the current reader, which calls `HandleFrame`, the joiner thread, and
the thread that called `Run` and may call `Stop`. Files open, and deleting a
reader waits until no call of its streaming thread is under way. -/

namespace WinDV

/-- A `CAVIReader`: the frames that it has yet to deliver, and whether the end
of the stream was delivered. -/
structure CAVIReader where
  running : Bool
  pending : List Frame
  ended : Bool
  deriving DecidableEq, Repr

/-- Where the streaming thread stands in `HandleFrame`; `none` is the end of the stream. -/
inductive StreamPc
  | outside
  | testStopping (data : Option Frame)
  | handling (data : Option Frame)
  deriving DecidableEq, Repr

inductive JoinerPc
  | waiting
  | testStopping
  | testCurrent
  | deleting
  | opening
  | starting
  | sendingEnd
  | returned
  deriving DecidableEq, Repr

/-- The thread that called `Run`; after `running` it is in `Stop`. -/
inductive MainPc
  | starting
  | running
  | settingStop
  | signalling
  | waitingThread
  | deleting
  | resetting
  | stopped
  deriving DecidableEq, Repr

/-- The members of `CAVIJoiner`, with the frames of the files `m_filenames`, the
position of each thread, and what `m_joinHandler` was called with. -/
structure JoinerThreads where
  files : List (List Frame)
  current : Nat
  stopping : Bool
  ev : Bool
  reader : Option CAVIReader
  stream : StreamPc
  joiner : JoinerPc
  main : MainPc
  forwarded : List Frame
  endsSent : Nat
  deriving DecidableEq, Repr

inductive JoinerAction
  /-- The reader calls `HandleFrame` with what comes next. -/
  | deliver
  | stream
  | joiner
  | main
  | stop
  deriving DecidableEq, Repr

namespace JoinerThreads

/-- The constructor has opened the first file. -/
def start (files : List (List Frame)) : JoinerThreads where
  files := files
  current := 1
  stopping := false
  ev := false
  reader := files.head?.map fun frames => ⟨false, frames, false⟩
  stream := .outside
  joiner := .waiting
  main := .starting
  forwarded := []
  endsSent := 0

def deliverStep (s : JoinerThreads) : Option JoinerThreads :=
  match s.stream, s.reader with
  | .outside, some ⟨true, f :: pending, ended⟩ =>
    some { s with reader := some ⟨true, pending, ended⟩, stream := .testStopping (some f) }
  | .outside, some ⟨true, [], false⟩ =>
    some { s with reader := some ⟨true, [], true⟩, stream := .testStopping none }
  | _, _ => none

def streamStep (s : JoinerThreads) : Option JoinerThreads :=
  match s.stream with
  | .outside => none
  | .testStopping data =>
    if s.stopping then some { s with stream := .outside } else some { s with stream := .handling data }
  | .handling (some f) => some { s with forwarded := s.forwarded ++ [f], stream := .outside }
  | .handling none => some { s with ev := true, stream := .outside }

def joinerStep (s : JoinerThreads) : Option JoinerThreads :=
  match s.joiner with
  | .waiting => if s.ev then some { s with ev := false, joiner := .testStopping } else none
  | .testStopping =>
    if s.stopping then some { s with joiner := .returned } else some { s with joiner := .testCurrent }
  | .testCurrent =>
    if s.current < s.files.length then some { s with joiner := .deleting }
    else some { s with joiner := .sendingEnd }
  | .deleting =>
    if s.stream = .outside then some { s with reader := none, joiner := .opening } else none
  | .opening => s.files[s.current]?.map fun frames =>
    { s with reader := some ⟨false, frames, false⟩, current := s.current + 1, joiner := .starting }
  | .starting => s.reader.map fun r =>
    { s with reader := some { r with running := true }, joiner := .waiting }
  | .sendingEnd => some { s with endsSent := s.endsSent + 1, joiner := .returned }
  | .returned => none

def mainStep (s : JoinerThreads) : Option JoinerThreads :=
  match s.main with
  | .starting => s.reader.map fun r =>
    { s with reader := some { r with running := true }, main := .running }
  | .running => none
  | .settingStop => some { s with stopping := true, main := .signalling }
  | .signalling => some { s with ev := true, main := .waitingThread }
  | .waitingThread => if s.joiner = .returned then some { s with main := .deleting } else none
  | .deleting =>
    if s.stream = .outside then some { s with reader := none, main := .resetting } else none
  | .resetting => some { s with stopping := false, main := .stopped }
  | .stopped => none

def step (s : JoinerThreads) : JoinerAction → Option JoinerThreads
  | .deliver => s.deliverStep
  | .stream => s.streamStep
  | .joiner => s.joinerStep
  | .main => s.mainStep
  | .stop => if s.main = .running then some { s with main := .settingStop } else none

/-- What a step can do, one constructor for each branch of the threads. -/
inductive Steps (s : JoinerThreads) : JoinerAction → JoinerThreads → Prop
  | frameCalled (f : Frame) (pending : List Frame) (ended : Bool) (hs : s.stream = .outside)
    (hr : s.reader = some ⟨true, f :: pending, ended⟩) :
    Steps s .deliver { s with
      reader := some ⟨true, pending, ended⟩, stream := .testStopping (some f) }
  | endCalled (hs : s.stream = .outside) (hr : s.reader = some ⟨true, [], false⟩) :
    Steps s .deliver { s with reader := some ⟨true, [], true⟩, stream := .testStopping none }
  | dropped (data : Option Frame) (hs : s.stream = .testStopping data) (hstop : s.stopping = true) :
    Steps s .stream { s with stream := .outside }
  | sawRunning (data : Option Frame) (hs : s.stream = .testStopping data)
    (hstop : s.stopping = false) : Steps s .stream { s with stream := .handling data }
  | frameForwarded (f : Frame) (hs : s.stream = .handling (some f)) :
    Steps s .stream { s with forwarded := s.forwarded ++ [f], stream := .outside }
  | endSignalled (hs : s.stream = .handling none) :
    Steps s .stream { s with ev := true, stream := .outside }
  | woken (hj : s.joiner = .waiting) (he : s.ev = true) :
    Steps s .joiner { s with ev := false, joiner := .testStopping }
  | joinerStopped (hj : s.joiner = .testStopping) (hstop : s.stopping = true) :
    Steps s .joiner { s with joiner := .returned }
  | joinerGoesOn (hj : s.joiner = .testStopping) (hstop : s.stopping = false) :
    Steps s .joiner { s with joiner := .testCurrent }
  | moreFiles (hj : s.joiner = .testCurrent) (hc : s.current < s.files.length) :
    Steps s .joiner { s with joiner := .deleting }
  | noMoreFiles (hj : s.joiner = .testCurrent) (hc : ¬ s.current < s.files.length) :
    Steps s .joiner { s with joiner := .sendingEnd }
  | deleted (hj : s.joiner = .deleting) (hs : s.stream = .outside) :
    Steps s .joiner { s with reader := none, joiner := .opening }
  | opened (frames : List Frame) (hj : s.joiner = .opening) (hf : s.files[s.current]? = some frames) :
    Steps s .joiner { s with
      reader := some ⟨false, frames, false⟩, current := s.current + 1, joiner := .starting }
  | started (r : CAVIReader) (hj : s.joiner = .starting) (hr : s.reader = some r) :
    Steps s .joiner { s with reader := some { r with running := true }, joiner := .waiting }
  | endSent (hj : s.joiner = .sendingEnd) :
    Steps s .joiner { s with endsSent := s.endsSent + 1, joiner := .returned }
  | firstStarted (r : CAVIReader) (hm : s.main = .starting) (hr : s.reader = some r) :
    Steps s .main { s with reader := some { r with running := true }, main := .running }
  | stoppingSet (hm : s.main = .settingStop) :
    Steps s .main { s with stopping := true, main := .signalling }
  | stopSignalled (hm : s.main = .signalling) : Steps s .main { s with ev := true, main := .waitingThread }
  | joined (hm : s.main = .waitingThread) (hj : s.joiner = .returned) :
    Steps s .main { s with main := .deleting }
  | lastDeleted (hm : s.main = .deleting) (hs : s.stream = .outside) :
    Steps s .main { s with reader := none, main := .resetting }
  | stoppingReset (hm : s.main = .resetting) : Steps s .main { s with stopping := false, main := .stopped }
  | stopCalled (hm : s.main = .running) : Steps s .stop { s with main := .settingStop }

theorem steps_of_step {s t : JoinerThreads} {a : JoinerAction} (h : s.step a = some t) :
    Steps s a t := by
  cases a with
  | deliver =>
    simp only [step, deliverStep] at h
    split at h
    · next f pending ended hs hr =>
      obtain rfl := Option.some.inj h
      exact .frameCalled f pending ended hs hr
    · next hs hr =>
      obtain rfl := Option.some.inj h
      exact .endCalled hs hr
    · cases h
  | stream =>
    simp only [step, streamStep] at h
    split at h
    · cases h
    · next data hs =>
      split at h <;> obtain rfl := Option.some.inj h
      · exact .dropped data hs ‹_›
      · exact .sawRunning data hs (Bool.eq_false_iff.mpr ‹_›)
    · next f hs =>
      obtain rfl := Option.some.inj h
      exact .frameForwarded f hs
    · next hs =>
      obtain rfl := Option.some.inj h
      exact .endSignalled hs
  | joiner =>
    simp only [step, joinerStep] at h
    split at h
    · next hj =>
      split at h
      · obtain rfl := Option.some.inj h
        exact .woken hj ‹_›
      · cases h
    · next hj =>
      split at h <;> obtain rfl := Option.some.inj h
      · exact .joinerStopped hj ‹_›
      · exact .joinerGoesOn hj (Bool.eq_false_iff.mpr ‹_›)
    · next hj =>
      split at h <;> obtain rfl := Option.some.inj h
      · exact .moreFiles hj ‹_›
      · exact .noMoreFiles hj ‹_›
    · next hj =>
      split at h
      · obtain rfl := Option.some.inj h
        exact .deleted hj ‹_›
      · cases h
    · next hj =>
      obtain ⟨frames, hf, rfl⟩ := Option.map_eq_some_iff.mp h
      exact .opened frames hj hf
    · next hj =>
      obtain ⟨r, hr, rfl⟩ := Option.map_eq_some_iff.mp h
      exact .started r hj hr
    · next hj =>
      obtain rfl := Option.some.inj h
      exact .endSent hj
    · cases h
  | main =>
    simp only [step, mainStep] at h
    split at h
    · next hm =>
      obtain ⟨r, hr, rfl⟩ := Option.map_eq_some_iff.mp h
      exact .firstStarted r hm hr
    · cases h
    · obtain rfl := Option.some.inj h
      exact .stoppingSet ‹_›
    · obtain rfl := Option.some.inj h
      exact .stopSignalled ‹_›
    · next hm =>
      split at h
      · obtain rfl := Option.some.inj h
        exact .joined hm ‹_›
      · cases h
    · next hm =>
      split at h
      · obtain rfl := Option.some.inj h
        exact .lastDeleted hm ‹_›
      · cases h
    · obtain rfl := Option.some.inj h
      exact .stoppingReset ‹_›
    · cases h
  | stop =>
    simp only [step, Option.ite_none_right_eq_some, Option.some.injEq] at h
    obtain ⟨hm, rfl⟩ := h
    exact .stopCalled hm

end JoinerThreads

end WinDV
