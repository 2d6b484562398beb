import WinDV.PlaybackThreads

/-! The tape gets the frames of the files in order, across the threads of the
joiner, the recording thread and the thread of the output queue. -/

namespace WinDV

open Transition

/-- What a step of the joiner's threads sends to the frame handler. -/
theorem JoinerThreads.Steps.sends {s t : JoinerThreads} {a : JoinerAction}
    (h : JoinerThreads.Steps s a t) :
    (∃ f, t.forwarded = s.forwarded ++ [f] ∧ t.endsSent = s.endsSent) ∨
      (a = .joiner ∧ s.joiner = .sendingEnd ∧ t.forwarded = s.forwarded ∧
        t.endsSent = s.endsSent + 1) ∨
      (t.forwarded = s.forwarded ∧ t.endsSent = s.endsSent) := by
  cases h
  case frameForwarded f _ => exact .inl ⟨f, rfl, rfl⟩
  case endSent hj => exact .inr (.inl ⟨rfl, hj, rfl, rfl⟩)
  all_goals exact .inr (.inr ⟨rfl, rfl⟩)

namespace RecordingThread

theorem worker_of_forwarding {r r' : RecordingThread} (hpc : r.pc = .forwarding)
    (h : r.step .worker = some r') : ∃ a, r.current = some a ∧
      r' = { r with forwarded := r.forwarded ++ [a.frame], pc := .testRecording } := by
  simp only [step, workerStep, hpc] at h
  obtain ⟨a, hc, rfl⟩ := Option.map_eq_some_iff.mp h
  exact ⟨a, hc, rfl⟩

theorem incoming_of_record {r r' : RecordingThread} {b : RecordingAction} (h : r.step b = some r')
    (hb : b ≠ .put) : r'.incoming = r.incoming := by
  have hsteps := steps_of_step h
  cases hsteps
  case queued => exact absurd rfl hb
  case discarded => exact absurd rfl hb
  all_goals rfl

theorem forwarded_of_record {r r' : RecordingThread} {b : RecordingAction} (h : r.step b = some r')
    (hw : b = .worker → r.pc ≠ .forwarding) : r'.forwarded = r.forwarded := by
  have hsteps := steps_of_step h
  cases hsteps
  case frameForwarded hp _ => exact absurd hp (hw rfl)
  all_goals rfl

/-- Of the actions that are none of the frame source only `Destroy` ends the queue. -/
theorem ring_of_record {r r' : RecordingThread} {b : RecordingAction} (h : r.step b = some r')
    (hput : b ≠ .put) (hend : b ≠ .endOfStream) (hw : b ≠ .worker) :
    r'.queue = r.queue ∧ (r'.isEnd = r.isEnd ∨ b = .destroyer ∧ r.destroyer = .endingQueue) := by
  have hsteps := steps_of_step h
  cases hsteps
  case queued | discarded => exact absurd rfl hput
  case ended => exact absurd rfl hend
  case queueEnded hd => exact ⟨rfl, .inr ⟨rfl, hd⟩⟩
  case recordingStarted | recordingStopped | destroyCalled | destroyed => exact ⟨rfl, .inl rfl⟩
  all_goals exact absurd rfl hw

theorem inGet_cases {r : RecordingThread} (h : r.inGet = true) : r.pc = .firstGet ∨ r.pc = .nextGet := by
  simpa [inGet] using h

/-- Only the thread itself moves on to another frame. -/
theorem current_of_record {r r' : RecordingThread} {b : RecordingAction} (h : r.step b = some r')
    (hw : b ≠ .worker) : r'.pc = r.pc ∧ r'.current = r.current := by
  have hsteps := steps_of_step h
  cases hsteps
  case queued | discarded | ended | recordingStarted | recordingStopped => exact ⟨rfl, rfl⟩
  case destroyCalled | queueEnded | destroyed => exact ⟨rfl, rfl⟩
  all_goals exact absurd rfl hw

end RecordingThread

namespace Playback

abbrev anyStep : Playback → PlaybackAction → Prop := fun _ _ => True

theorem feed_frame {s : Playback} {j : JoinerThreads} {f : Frame}
    (hf : j.forwarded = s.joiner.forwarded ++ [f]) (he : j.endsSent = s.joiner.endsSent) :
    s.feed j = s.recorder.handleFrame s.dataSize f := by
  simp [feed, hf, he]

theorem feed_end {s : Playback} {j : JoinerThreads} (hf : j.forwarded = s.joiner.forwarded)
    (he : j.endsSent = s.joiner.endsSent + 1) : s.feed j = s.recorder.handleEnd := by
  simp [feed, hf, he]

theorem feed_nothing {s : Playback} {j : JoinerThreads} (hf : j.forwarded = s.joiner.forwarded)
    (he : j.endsSent = s.joiner.endsSent) : s.feed j = s.recorder := by
  simp [feed, hf, he]

/-- What a step can do: each part is stepped by its own rules. -/
inductive Steps (s : Playback) : PlaybackAction → Playback → Prop
  | joins (b : JoinerAction) (j : JoinerThreads) (hj : s.joiner.step b = some j) :
    Steps s (.joiner b) { s with joiner := j, recorder := s.feed j }
  | calls (time : Option (Int64 × Int64)) (a : Airing) (p : OutputPath)
    (hpc : s.recorder.pc = .forwarding) (hin : s.inCall = false) (hc : s.recorder.current = some a)
    (hp : s.path.step (.handleFrame ⟨time, a.frame.data⟩) = some p) :
    Steps s (.worker time) { s with path := p, inCall := true }
  | returns (time : Option (Int64 × Int64)) (r : RecordingThread) (hpc : s.recorder.pc = .forwarding)
    (hin : s.inCall = true) (hout : s.path.producer = .outside)
    (hr : s.recorder.step .worker = some r) :
    Steps s (.worker time) { s with recorder := r, inCall := false }
  | sawEmpty (time : Option (Int64 × Int64)) (hget : s.recorder.inGet = true)
    (hqueue : s.recorder.queue = []) : Steps s (.worker time) { s with sawEmpty := true }
  | sawOpen (time : Option (Int64 × Int64)) (hget : s.recorder.inGet = true) (hsaw : s.sawEmpty = true)
    (hend : s.recorder.isEnd = false) : Steps s (.worker time) { s with sawEmpty := false }
  | gotNothing (time : Option (Int64 × Int64)) (hget : s.recorder.inGet = true)
    (hsaw : s.sawEmpty = true) (hend : s.recorder.isEnd = true) :
    Steps s (.worker time) { s with sawEmpty := false, recorder := s.recorder.gotNothing }
  | works (time : Option (Int64 × Int64)) (r : RecordingThread) (hpc : s.recorder.pc ≠ .forwarding)
    (hsaw : s.recorder.inGet = true → s.sawEmpty = false) (hr : s.recorder.step .worker = some r) :
    Steps s (.worker time) { s with recorder := r }
  | commands (c : PlaybackAction) (b : RecordingAction) (r : RecordingThread) (hput : b ≠ .put)
    (hend : b ≠ .endOfStream) (hw : b ≠ .worker) (hd : b = .destroyer → c = .destroyer)
    (hr : s.recorder.step b = some r) : Steps s c { s with recorder := r }
  | passes (b : OutputPathAction) (p : OutputPath) (hb : ∀ m, b ≠ .handleFrame m)
    (hp : s.path.step b = some p) : Steps s (.path b) { s with path := p }

theorem steps_of_workerStep {s t : Playback} {time : Option (Int64 × Int64)}
    (h : s.workerStep time = some t) : Steps s (.worker time) t := by
  unfold workerStep at h
  split at h
  · next hpc =>
    split at h
    · next hin =>
      split at h
      · next hout =>
        obtain ⟨r, hr, rfl⟩ := Option.map_eq_some_iff.mp h
        exact .returns time r hpc hin hout hr
      · cases h
    · next hin =>
      obtain ⟨a, hc, ha⟩ := Option.bind_eq_some_iff.mp h
      obtain ⟨p, hp, rfl⟩ := Option.map_eq_some_iff.mp ha
      exact .calls time a p hpc (Bool.eq_false_iff.mpr hin) hc hp
  · next hpc =>
    split at h
    · next hget =>
      unfold getStep at h
      split at h
      · next hsaw =>
        split at h <;> obtain rfl := Option.some.inj h
        · exact .gotNothing time hget hsaw ‹_›
        · exact .sawOpen time hget hsaw (Bool.eq_false_iff.mpr ‹_›)
      · next hsaw =>
        split at h
        · next hqueue =>
          obtain rfl := Option.some.inj h
          exact .sawEmpty time hget hqueue
        · obtain ⟨r, hr, rfl⟩ := Option.map_eq_some_iff.mp h
          exact .works time r hpc (fun _ => Bool.eq_false_iff.mpr hsaw) hr
    · next hget =>
      obtain ⟨r, hr, rfl⟩ := Option.map_eq_some_iff.mp h
      exact .works time r hpc (fun hin => absurd hin hget) hr

theorem steps_of_step {s t : Playback} {a : PlaybackAction} (h : s.step a = some t) :
    Steps s a t := by
  cases a with
  | joiner b =>
    simp only [step, Option.ite_none_left_eq_some, Option.map_eq_some_iff] at h
    obtain ⟨-, j, hj, rfl⟩ := h
    exact .joins b j hj
  | worker time =>
    simp only [step, Option.ite_none_left_eq_some] at h
    exact steps_of_workerStep h.2
  | path b =>
    simp only [step, Option.ite_none_right_eq_some, Option.map_eq_some_iff] at h
    obtain ⟨hb, p, hp, rfl⟩ := h
    refine .passes b p ?_ hp
    rintro m rfl
    cases hb
  | startRecording =>
    simp only [step, Option.ite_none_left_eq_some, Option.map_eq_some_iff] at h
    obtain ⟨-, r, hr, rfl⟩ := h
    exact .commands _ .startRecording r (by simp) (by simp) (by simp) (by simp) hr
  | stopRecording =>
    simp only [step, Option.ite_none_left_eq_some, Option.map_eq_some_iff] at h
    obtain ⟨-, r, hr, rfl⟩ := h
    exact .commands _ .stopRecording r (by simp) (by simp) (by simp) (by simp) hr
  | destroy =>
    simp only [step, Option.ite_none_left_eq_some, Option.map_eq_some_iff] at h
    obtain ⟨-, r, hr, rfl⟩ := h
    exact .commands _ .destroy r (by simp) (by simp) (by simp) (by simp) hr
  | destroyer =>
    simp only [step, Option.ite_none_left_eq_some, Option.map_eq_some_iff] at h
    obtain ⟨-, r, hr, rfl⟩ := h
    exact .commands _ .destroyer r (by simp) (by simp) (by simp) (by simp) hr

/-- The frames that the joiner has not forwarded are those that are still to come, and the
recording thread loses none at the end of the stream. -/
structure Linked (dataSize : Nat) (files : List (List Frame)) (s : Playback) : Prop where
  sound : s.joiner.Sound
  files_eq : s.joiner.files = files
  dataSize_eq : s.dataSize = dataSize
  incoming : s.joiner.forwarded.map (·.clamp dataSize) ++ s.recorder.incoming =
    files.flatten.map (·.clamp dataSize)
  getting : s.sawEmpty = true → s.recorder.inGet = true
  quiet : s.sawEmpty = true → s.recorder.isEnd = true → s.recorder.queue = []

variable {dataSize : Nat} {files : List (List Frame)} {s t : Playback} {a : PlaybackAction}

theorem Linked.joinedOnce (hs : Linked dataSize files s) : s.joiner.JoinedOnce files :=
  hs.files_eq ▸ hs.sound.joinedOnce

/-- The handler gets what the source has next, and its end when nothing is left. -/
theorem Linked.joins {b : JoinerAction} {j : JoinerThreads} (hs : Linked dataSize files s)
    (hquiet : s.SetsEndQuietly (.joiner b)) (hj : s.joiner.step b = some j) :
    Linked dataSize files { s with joiner := j, recorder := s.feed j } ∧
      ∃ acts, Run RecordingThread.step (fun _ _ => True) s.recorder acts (s.feed j) := by
  have hsteps := JoinerThreads.steps_of_step hj
  have hsound := JoinerThreads.sound_of_steps hs.sound hsteps
  have hfiles := (JoinerThreads.files_of_steps hsteps).trans hs.files_eq
  have honce : j.JoinedOnce files := hfiles ▸ hsound.joinedOnce
  have hincoming := hs.incoming
  rcases hsteps.sends with ⟨f, hf, he⟩ | ⟨rfl, hsending, hf, he⟩ | ⟨hf, he⟩
  · have hfeed : s.feed j = s.recorder.handleFrame dataSize f := by
      rw [feed_frame hf he, hs.dataSize_eq]
    rw [hfeed]
    obtain ⟨rest, hrest⟩ := honce.forwarded_prefix
    have hnext : s.recorder.incoming = f.clamp dataSize :: rest.map (·.clamp dataSize) := by
      rw [← hrest, hf, List.append_assoc, List.map_append] at hincoming
      exact List.append_cancel_left hincoming
    refine ⟨⟨hsound, hfiles, hs.dataSize_eq, ?_, hs.getting, fun hsaw hend => ?_⟩, [.put],
      .single trivial ?_⟩
    · rw [hf, ← hrest, hf]
      simp [RecordingThread.handleFrame, hnext]
    · have hend : s.recorder.isEnd = true := hend
      simp [RecordingThread.handleFrame, hend, hs.quiet hsaw hend]
    · simp [RecordingThread.step, RecordingThread.handleFrame, hnext]
  · rw [feed_end hf he]
    have hall := honce.all_forwarded (by omega)
    have hnone : s.recorder.incoming = [] := by
      rw [← hf, hall] at hincoming
      exact List.append_right_eq_self.mp hincoming
    refine ⟨⟨hsound, hfiles, hs.dataSize_eq, by rw [hf]; exact hincoming, hs.getting,
      fun hsaw _ => hquiet hsending hsaw⟩, [.endOfStream], .single trivial ?_⟩
    simp [RecordingThread.step, RecordingThread.handleEnd, hnone]
  · rw [feed_nothing hf he]
    exact ⟨⟨hsound, hfiles, hs.dataSize_eq, by rw [hf]; exact hincoming, hs.getting, hs.quiet⟩, [],
      .nil _⟩

theorem Linked.step (hs : Linked dataSize files s) (hquiet : s.SetsEndQuietly a) (h : Steps s a t) :
    Linked dataSize files t := by
  obtain ⟨hsound, hfiles, hsize, hincoming, hgetting, hnone⟩ := hs
  cases h with
  | joins b j hj => exact (Linked.joins ⟨hsound, hfiles, hsize, hincoming, hgetting, hnone⟩ hquiet hj).1
  | calls time a p hpc hin hc hp => exact ⟨hsound, hfiles, hsize, hincoming, hgetting, hnone⟩
  | returns time r hpc hin hout hr =>
    have hsaw : s.sawEmpty ≠ true := fun hsaw => by
      rcases RecordingThread.inGet_cases (hgetting hsaw) with hget | hget <;> simp [hget] at hpc
    refine ⟨hsound, hfiles, hsize, ?_, fun h => absurd h hsaw, fun h => absurd h hsaw⟩
    rw [RecordingThread.incoming_of_record hr (by simp)]
    exact hincoming
  | sawEmpty time hget hqueue => exact ⟨hsound, hfiles, hsize, hincoming, fun _ => hget, fun _ _ => hqueue⟩
  | sawOpen time hget hsaw hend => exact ⟨hsound, hfiles, hsize, hincoming, nofun, nofun⟩
  | gotNothing time hget hsaw hend => exact ⟨hsound, hfiles, hsize, hincoming, nofun, nofun⟩
  | works time r hpc hsaw hr =>
    have hsaw : s.sawEmpty ≠ true := fun h => by
      have hno := hsaw (hgetting h)
      rw [h] at hno
      cases hno
    refine ⟨hsound, hfiles, hsize, ?_, fun h => absurd h hsaw, fun h => absurd h hsaw⟩
    rw [RecordingThread.incoming_of_record hr (by simp)]
    exact hincoming
  | commands c b r hput hend hw hd hr =>
    obtain ⟨hpc, -⟩ := RecordingThread.current_of_record hr hw
    obtain ⟨hqueue, hends⟩ := RecordingThread.ring_of_record hr hput hend hw
    refine ⟨hsound, hfiles, hsize, ?_, fun hsaw => ?_, fun hsaw hisEnd => ?_⟩
    · rw [RecordingThread.incoming_of_record hr hput]
      exact hincoming
    · rw [← hgetting hsaw, RecordingThread.inGet, RecordingThread.inGet, hpc]
    · rw [hqueue]
      rcases hends with hsame | ⟨hdestroyer, hending⟩
      · exact hnone hsaw (hsame ▸ hisEnd)
      · obtain rfl := hd hdestroyer
        exact hquiet hending hsaw
  | passes b p hb hp => exact ⟨hsound, hfiles, hsize, hincoming, hgetting, hnone⟩

theorem start_linked (hne : files ≠ []) (memory : Nat → MediaSample) :
    Linked dataSize files (start dataSize files memory) :=
  ⟨JoinerThreads.start_sound hne, rfl, rfl, rfl, nofun, nofun⟩

/-- The buffers can be written, and the device takes what it gets. -/
def Healthy : PlaybackAction → Prop
  | .path .noPointer => False
  | .path a => OutputPath.Healthy a
  | _ => True

theorem Healthy.path {b : OutputPathAction} (h : Healthy (.path b)) : OutputPath.Healthy b := by
  cases b
  case noPointer => trivial
  all_goals exact h

/-- `CDV::HandleFrame` touches the queue alone. -/
theorem feed_keeps (s : Playback) (j : JoinerThreads) :
    (s.feed j).forwarded = s.recorder.forwarded ∧ (s.feed j).current = s.recorder.current ∧
      (s.feed j).pc = s.recorder.pc := by
  have hfold (l : List Frame) (r : RecordingThread) :
      (l.foldl (RecordingThread.handleFrame s.dataSize) r).forwarded = r.forwarded ∧
        (l.foldl (RecordingThread.handleFrame s.dataSize) r).current = r.current ∧
        (l.foldl (RecordingThread.handleFrame s.dataSize) r).pc = r.pc := by
    induction l generalizing r with
    | nil => exact ⟨rfl, rfl, rfl⟩
    | cons f l ih => exact ih (r.handleFrame s.dataSize f)
  unfold feed
  dsimp only
  split
  · exact hfold _ _
  · exact hfold _ _

end Playback

namespace HandlePc

/-- The frame of the call, as long as the queue has not taken it. -/
def frame : HandlePc → Option MediaSample
  | .getting m => some m
  | .sleeping m => some m
  | .retrying m => some m
  | .popped m _ => some m
  | .writing m _ => some m
  | .delivering m _ => some m
  | .receiving m _ => some m
  | _ => none

/-- `HandleFrame` has done its work. -/
def passed : HandlePc → Bool
  | .releasing _ => true
  | .outside => true
  | _ => false

end HandlePc

namespace OutputPath

/-- A step takes nothing from the recording thread but the frame of its call. -/
structure Idle (p p' : OutputPath) : Prop where
  received : p'.queue.received = p.queue.received
  passed : p'.producer.passed = p.producer.passed
  frame : ∀ m, p'.producer.frame = some m → p.producer.frame = some m
  outside : p.producer = .outside → p'.producer = .outside

theorem idle_of_queueStep {p p' : OutputPath} {a : OutputAction BufferRef Unit}
    (h : p.queueStep a = some p') (ha : a.handedIn = []) : Idle p p' := by
  obtain ⟨q, hq, rfl⟩ := Option.map_eq_some_iff.mp h
  have hreceived := (OutputThreads.steps_of_step hq).released.1
  rw [ha, List.append_nil] at hreceived
  exact ⟨hreceived, rfl, fun _ => id, id⟩

theorem idle_of_gotBuffer {p : OutputPath} {m : MediaSample}
    (hp : p.producer = .getting m ∨ p.producer = .retrying m) (r : BufferOutcome × CMemAllocator) :
    Idle p (p.gotBuffer m r) := by
  obtain ⟨o, alloc⟩ := r
  have hframe : p.producer.frame = some m := by rcases hp with hp | hp <;> rw [hp] <;> rfl
  have hpassed : p.producer.passed = false := by rcases hp with hp | hp <;> rw [hp] <;> rfl
  have hout : p.producer ≠ .outside := by rcases hp with hp | hp <;> rw [hp] <;> simp
  cases o <;>
    exact ⟨rfl, hpassed.symm, fun n hn => by simp_all [gotBuffer, HandlePc.frame],
      fun h => absurd h hout⟩

/-- A step of the recording thread hands the queue the frame, or changes nothing
of it. -/
theorem fed_of_producerStep {p p' : OutputPath} (h : p.producerStep = some p') :
    (∃ m i, p.producer.frame = some m ∧ p'.producer = .releasing i ∧
        p'.queue.received = p.queue.received ++ [(i, m)]) ∨ Idle p p' := by
  unfold producerStep at h
  split at h
  · cases h
  · next m hp =>
    obtain rfl := Option.some.inj h
    exact .inr (idle_of_gotBuffer (.inl hp) _)
  · next m hp =>
    obtain ⟨alloc, -, rfl⟩ := Option.map_eq_some_iff.mp h
    exact .inr ⟨rfl, by rw [hp]; rfl, fun n hn => by rw [hp]; exact hn, fun hout => by simp_all⟩
  · next m hp =>
    obtain rfl := Option.some.inj h
    exact .inr (idle_of_gotBuffer (.inr hp) _)
  · next m i hp =>
    obtain ⟨alloc, -, rfl⟩ := Option.map_eq_some_iff.mp h
    exact .inr ⟨rfl, by rw [hp]; rfl, fun n hn => by rw [hp]; exact hn, fun hout => by simp_all⟩
  · next m i hp =>
    obtain rfl := Option.some.inj h
    exact .inr ⟨rfl, by rw [hp]; rfl, fun n hn => by rw [hp]; exact hn, fun hout => by simp_all⟩
  · next m i hp =>
    obtain ⟨alloc, -, rfl⟩ := Option.map_eq_some_iff.mp h
    exact .inr ⟨rfl, by rw [hp]; rfl, fun n hn => by rw [hp]; exact hn, fun hout => by simp_all⟩
  · next m i hp =>
    obtain ⟨u, hu, rfl⟩ := Option.map_eq_some_iff.mp h
    obtain ⟨q, hq, rfl⟩ := Option.map_eq_some_iff.mp hu
    have hreceived := (OutputThreads.steps_of_step hq).released.1
    exact .inl ⟨m, i, by rw [hp]; rfl, rfl, hreceived⟩
  · next i hp =>
    obtain rfl := Option.some.inj h
    exact .inr ⟨rfl, by rw [hp]; rfl, fun n hn => (by cases hn), fun _ => rfl⟩
  · cases h

theorem fed_of_step {p p' : OutputPath} {b : OutputPathAction} (h : p.step b = some p')
    (hb : ∀ m, b ≠ .handleFrame m) :
    (∃ m i, p.producer.frame = some m ∧ p'.producer = .releasing i ∧
        p'.queue.received = p.queue.received ++ [(i, m)]) ∨
      (b = .noPointer ∧ p.producer.passed = false ∧ p'.producer = .outside ∧
        p'.queue.received = p.queue.received) ∨ Idle p p' := by
  cases b with
  | handleFrame m => exact absurd rfl (hb m)
  | producer => exact (fed_of_producerStep h).imp_right .inr
  | noPointer =>
    right
    left
    simp only [step] at h
    split at h
    · next m i hp =>
      obtain rfl := Option.some.inj h
      exact ⟨rfl, by rw [hp]; rfl, rfl, rfl⟩
    · cases h
  | deliverEndOfStream => exact .inr (.inr (idle_of_queueStep h rfl))
  | inactive =>
    simp only [step, Option.ite_none_right_eq_some] at h
    exact .inr (.inr (idle_of_queueStep h.2 rfl))
  | inactiveNext => exact .inr (.inr (idle_of_queueStep h rfl))
  | queueThread => exact .inr (.inr (idle_of_queueStep h rfl))
  | receiveReturns hr => exact .inr (.inr (idle_of_queueStep h rfl))
  | _ =>
    right
    right
    simp only [step, Option.ite_none_right_eq_some, Option.map_eq_some_iff, Option.some.injEq] at h
    first
      | obtain ⟨-, rfl⟩ := h; exact ⟨rfl, rfl, fun _ => id, id⟩
      | obtain ⟨-, -, -, rfl⟩ := h; exact ⟨rfl, rfl, fun _ => id, id⟩

end OutputPath

namespace Playback

/-- What the queue of the output pin was handed. -/
def handed (s : Playback) : List (List UInt8) := s.path.queue.received.map fun x => x.2.data

/-- The frame of a call that has done its work and not returned yet. -/
def inside (s : Playback) : List Frame :=
  if s.inCall && s.path.producer.passed then (s.recorder.current.map Airing.frame).toList else []

/-- The frames that `HandleFrame` was called with, and has passed on by now. -/
def brought (s : Playback) : List Frame := s.recorder.forwarded ++ s.inside

/-- The recording thread hands the queue each frame of its calls; `lost` says that
`GetPointer` may have failed. -/
structure Fed (lost : Prop) (s : Playback) : Prop where
  outside : s.inCall = false → s.path.producer = .outside
  forwarding : s.inCall = true → s.recorder.pc = .forwarding
  frame : ∀ m, s.path.producer.frame = some m →
    ∃ a, s.recorder.current = some a ∧ m.data = a.frame.data
  in_order : s.handed.Sublist (s.brought.map Frame.data)
  complete : ¬ lost → s.handed = s.brought.map Frame.data

theorem brought_of_not_passed {s : Playback} (h : s.path.producer.passed = false) :
    s.brought = s.recorder.forwarded := by
  simp [brought, inside, h]

theorem Fed.recorder {lost : Prop} {s : Playback} {r : RecordingThread} (hs : Fed lost s)
    (hforwarded : r.forwarded = s.recorder.forwarded)
    (hcall : s.inCall = true → r.pc = s.recorder.pc ∧ r.current = s.recorder.current) :
    Fed lost { s with recorder := r } := by
  have hbrought : brought { s with recorder := r } = s.brought := by
    unfold brought inside
    rw [hforwarded]
    cases hin : s.inCall with
    | false => rfl
    | true => rw [(hcall hin).2]
  refine ⟨hs.outside, fun hin => (hcall hin).1.trans (hs.forwarding hin), fun m hm => ?_, ?_, ?_⟩
  · cases hin : s.inCall with
    | false =>
      have hout := hs.outside hin
      rw [hout] at hm
      cases hm
    | true =>
      rw [(hcall hin).2]
      exact hs.frame m hm
  · rw [hbrought]
    exact hs.in_order
  · rw [hbrought]
    exact hs.complete

/-- The queue is handed the frame of the call. -/
theorem Fed.hands {lost : Prop} {s : Playback} {p : OutputPath} {m : MediaSample} {i : Nat}
    (hs : Fed lost s) (hin : s.inCall = true) (hm : s.path.producer.frame = some m)
    (hpc : p.producer = .releasing i)
    (hreceived : p.queue.received = s.path.queue.received ++ [(i, m)]) :
    Fed lost { s with path := p } := by
  obtain ⟨a, hc, hdata⟩ := hs.frame m hm
  have hpassed : s.path.producer.passed = false := by
    cases hq : s.path.producer <;> simp [hq, HandlePc.frame] at hm <;> rfl
  have hbefore := brought_of_not_passed hpassed
  have hafter : brought { s with path := p } = s.brought ++ [a.frame] := by
    rw [hbefore]
    simp [brought, inside, hin, hpc, HandlePc.passed, hc]
  have hhanded : handed { s with path := p } = s.handed ++ [a.frame.data] := by
    simp [handed, hreceived, hdata]
  refine ⟨fun hno => absurd hin (Bool.eq_false_iff.mp hno), hs.forwarding, fun n hn => ?_, ?_,
    fun hno => ?_⟩
  · rw [hpc] at hn
    cases hn
  · rw [hafter, hhanded, List.map_append]
    exact hs.in_order.append_right _
  · rw [hafter, hhanded, hs.complete hno, List.map_append]
    rfl

theorem Fed.passes {lost : Prop} {s : Playback} {p : OutputPath} {b : OutputPathAction}
    (hs : Fed lost s) (hp : s.path.step b = some p) (hb : ∀ m, b ≠ .handleFrame m)
    (hlost : b = .noPointer → lost) : Fed lost { s with path := p } := by
  rcases OutputPath.fed_of_step hp hb with ⟨m, i, hm, hpc, hreceived⟩ | ⟨rfl, hpc, hout, hreceived⟩ | h
  · have hin : s.inCall = true := by
      by_contra hin
      rw [hs.outside (Bool.eq_false_iff.mpr hin)] at hm
      cases hm
    exact hs.hands hin hm hpc hreceived
  · have hbrought : s.brought.Sublist (brought { s with path := p }) := by
      rw [brought_of_not_passed hpc]
      exact List.sublist_append_left _ _
    have hhanded : handed { s with path := p } = s.handed := by simp [handed, hreceived]
    refine ⟨fun _ => hout, hs.forwarding, fun n hn => ?_, ?_, fun hno => absurd (hlost rfl) hno⟩
    · rw [hout] at hn
      cases hn
    · rw [hhanded]
      exact hs.in_order.trans (hbrought.map _)
  · have hbrought : brought { s with path := p } = s.brought := by simp [brought, inside, h.passed]
    have hhanded : handed { s with path := p } = s.handed := by simp [handed, h.received]
    refine ⟨fun hin => h.outside (hs.outside hin), hs.forwarding, fun n hn => hs.frame n (h.frame n hn),
      ?_, ?_⟩
    · rw [hbrought, hhanded]
      exact hs.in_order
    · rw [hbrought, hhanded]
      exact hs.complete

theorem Fed.step {lost : Prop} {s t : Playback} {a : PlaybackAction} (hs : Fed lost s)
    (h : Steps s a t) (hlost : a = .path .noPointer → lost) : Fed lost t := by
  cases h with
  | joins b j hj =>
    obtain ⟨hforwarded, hcurrent, hpc⟩ := feed_keeps s j
    have hfed := hs.recorder hforwarded fun _ => ⟨hpc, hcurrent⟩
    exact ⟨hfed.outside, hfed.forwarding, hfed.frame, hfed.in_order, hfed.complete⟩
  | calls time a p hpc hin hc hp =>
    simp only [OutputPath.step, Option.ite_none_right_eq_some, Option.some.injEq] at hp
    obtain ⟨⟨hout, -⟩, rfl⟩ := hp
    have hbrought : s.brought = s.recorder.forwarded ++ [] := by simp [brought, inside, hin]
    refine ⟨fun hno => absurd hno (by simp), fun _ => hpc, fun m hm => ?_, ?_, fun hno => ?_⟩
    · obtain rfl := Option.some.inj hm
      exact ⟨a, hc, rfl⟩
    · have horder := hs.in_order
      rw [hbrought] at horder
      exact horder
    · have hall := hs.complete hno
      rw [hbrought] at hall
      exact hall
  | returns time r hpc hin hout hr =>
    obtain ⟨a, hc, rfl⟩ := RecordingThread.worker_of_forwarding hpc hr
    have hbrought : s.brought = (s.recorder.forwarded ++ [a.frame]) ++ [] := by
      simp [brought, inside, hin, hout, HandlePc.passed, hc]
    have hframe : s.path.producer.frame = none := by
      rw [hout]
      rfl
    refine ⟨fun _ => hout, fun hno => absurd hno (by simp), fun m hm => ?_, ?_, fun hno => ?_⟩
    · rw [hframe] at hm
      cases hm
    · have horder := hs.in_order
      rw [hbrought] at horder
      exact horder
    · have hall := hs.complete hno
      rw [hbrought] at hall
      exact hall
  | sawEmpty time hget hqueue =>
    exact ⟨hs.outside, hs.forwarding, hs.frame, hs.in_order, hs.complete⟩
  | sawOpen time hget hsaw hend =>
    exact ⟨hs.outside, hs.forwarding, hs.frame, hs.in_order, hs.complete⟩
  | gotNothing time hget hsaw hend =>
    have hfed := hs.recorder (r := s.recorder.gotNothing) rfl fun hin => by
      have hpc := hs.forwarding hin
      rcases RecordingThread.inGet_cases hget with h | h <;> simp [h] at hpc
    exact ⟨hfed.outside, hfed.forwarding, hfed.frame, hfed.in_order, hfed.complete⟩
  | works time r hpc hsaw hr =>
    apply hs.recorder (RecordingThread.forwarded_of_record hr fun _ => hpc)
    exact fun hin => absurd (hs.forwarding hin) hpc
  | commands c b r hput hend hw hd hr =>
    apply hs.recorder (RecordingThread.forwarded_of_record hr fun hb => absurd hb hw)
    exact fun _ => RecordingThread.current_of_record hr hw
  | passes b p hb hp => exact hs.passes hp hb fun hb => hlost (congrArg _ hb)

/-- A call that has done its work counts as one that has returned. -/
theorem Fed.returned {lost : Prop} {s : Playback} (hs : Fed lost s) :
    ∃ acts r, Run RecordingThread.step (fun _ _ => True) s.recorder acts r ∧
      r.forwarded = s.brought ∧ r.state = s.recorder.state := by
  by_cases hin : (s.inCall && s.path.producer.passed) = true
  · have hpc := hs.forwarding (Bool.and_eq_true_iff.mp hin).1
    cases hc : s.recorder.current with
    | none => exact ⟨[], s.recorder, .nil _, by simp [brought, inside, hc], rfl⟩
    | some a =>
      have hstep : s.recorder.step .worker = some { s.recorder with
          forwarded := s.recorder.forwarded ++ [a.frame], pc := .testRecording } := by
        simp [RecordingThread.step, RecordingThread.workerStep, hpc, hc]
      exact ⟨[.worker], _, .single trivial hstep, by simp [brought, inside, hin, hc], rfl⟩
  · exact ⟨[], s.recorder, .nil _, by simp [brought, inside, hin], rfl⟩

/-- A file of one frame, recorded to its end. -/
def oneFrameRun : List PlaybackAction :=
  [JoinerAction.main, .deliver, .stream, .stream, .deliver, .stream, .stream, .joiner, .joiner,
    .joiner, .joiner].map .joiner ++
  [.path (.setProperties 1), .path (.commit true), .worker none, .startRecording, .worker none,
    .worker none] ++
  [OutputPathAction.producer, .producer, .producer, .producer, .producer, .producer].map .path ++
  [.worker none, .worker none, .worker none, .worker none, .worker none, .worker none] ++
  [OutputPathAction.queueThread, .queueThread, .queueThread, .receiveReturns COutputQueue.S_OK,
    .queueThread, .queueThread, .releaseBuffer 0, .queueThread, .queueThread].map .path

end Playback

end WinDV
