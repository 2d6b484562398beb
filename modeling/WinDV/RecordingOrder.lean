import WinDV.RecordingThread

/-! The tape gets the frames of the source in order, each of them again and
again while recording pauses, and the last one until the thread ends. -/

namespace WinDV

/-- `ys` is `xs` with each element once or more in a row. -/
def Stutters {α : Type} (xs ys : List α) : Prop :=
  ∃ ns : List Nat, ns.length = xs.length ∧ (∀ n ∈ ns, 0 < n) ∧
    ys = (List.zipWith List.replicate ns xs).flatten

theorem stutters_nil {α : Type} : Stutters ([] : List α) [] := ⟨[], rfl, by simp, rfl⟩

theorem Stutters.append {α : Type} {xs ys : List α} (h : Stutters xs ys) (x : α) {n : Nat} (hn : 0 < n) :
    Stutters (xs ++ [x]) (ys ++ List.replicate n x) := by
  obtain ⟨ns, hlen, hpos, rfl⟩ := h
  refine ⟨ns ++ [n], by simp [hlen], ?_, ?_⟩
  · intro m hm
    rcases List.mem_append.mp hm with hm | hm
    · exact hpos m hm
    · rwa [List.mem_singleton.mp hm]
  · rw [List.zipWith_append hlen]
    simp

namespace Airing

/-- What the thread forwarded of a frame, as far as it tested the state after it. -/
def frames (a : Airing) : List Frame := List.replicate a.tests.length a.frame

/-- The frame was held while recording paused. -/
def Held (a : Airing) : Prop := ∃ k, a.tests = List.replicate k .recordPaused

/-- The frame was counted, and the thread went on to the next. -/
def Left (a : Airing) : Prop := ∃ k, a.tests = List.replicate k .recordPaused ++ [.recording]

/-- The last frame was counted, and sent again after that. -/
def Resent (a : Airing) : Prop :=
  ∃ k m, a.tests = List.replicate k .recordPaused ++ .recording :: List.replicate m .finished

/-- Any of these, and perhaps the destruction of the pipeline after it. -/
def Shown (a : Airing) : Prop :=
  ∃ ts, (Held ⟨a.frame, ts⟩ ∨ Resent ⟨a.frame, ts⟩) ∧ (a.tests = ts ∨ a.tests = ts ++ [.idle])

def Counted (a : Airing) : Prop := .recording ∈ a.tests

instance (a : Airing) : Decidable a.Counted := inferInstanceAs (Decidable (_ ∈ _))

variable {a : Airing}

theorem Left.resent (h : a.Left) : a.Resent := by
  obtain ⟨k, hk⟩ := h
  exact ⟨k, 0, hk⟩

theorem Held.again (h : a.Held) : Held { a with tests := a.tests ++ [.recordPaused] } := by
  obtain ⟨k, hk⟩ := h
  exact ⟨k + 1, by rw [hk, ← List.replicate_succ']⟩

theorem Held.left (h : a.Held) : Left { a with tests := a.tests ++ [.recording] } := by
  obtain ⟨k, hk⟩ := h
  exact ⟨k, by rw [hk]⟩

theorem Resent.again (h : a.Resent) : Resent { a with tests := a.tests ++ [.finished] } := by
  obtain ⟨k, m, hk⟩ := h
  refine ⟨k, m + 1, ?_⟩
  rw [hk, List.append_assoc, List.cons_append, ← List.replicate_succ']

theorem Held.not_counted (h : a.Held) : ¬ a.Counted := by
  obtain ⟨k, hk⟩ := h
  simp [Counted, hk, List.mem_replicate]

theorem Held.not_finished (h : a.Held) : .finished ∉ a.tests := by
  obtain ⟨k, hk⟩ := h
  simp [hk, List.mem_replicate]

theorem Left.counted (h : a.Left) : a.Counted := by
  obtain ⟨k, hk⟩ := h
  simp [Counted, hk]

theorem Left.not_finished (h : a.Left) : .finished ∉ a.tests := by
  obtain ⟨k, hk⟩ := h
  simp [hk, List.mem_replicate]

theorem Left.tests_ne_nil (h : a.Left) : a.tests ≠ [] := by
  obtain ⟨k, hk⟩ := h
  simp [hk]

theorem Resent.tests_ne_nil (h : a.Resent) : a.tests ≠ [] := by
  obtain ⟨k, m, hk⟩ := h
  simp [hk]

end Airing

namespace RecordingThread

open Transition

def airings (s : RecordingThread) : List Airing := s.past ++ s.current.toList

/-- The frames that the thread took from the queue. -/
def taken (s : RecordingThread) : List Frame := s.airings.map Airing.frame

/-- The frame that was forwarded last, while the state was not tested after it. -/
def untested (s : RecordingThread) : List Frame :=
  if s.pc = .testRecording then s.current.toList.map Airing.frame else []

/-- The frames that were advanced past. -/
def advanced (s : RecordingThread) : List Frame :=
  (s.airings.filter fun a => decide a.Counted).map Airing.frame

/-- Where the frames of the source are. -/
structure Queued (source : List Frame) (s : RecordingThread) : Prop where
  prefix_source : s.taken ++ s.queue <+: source
  all_of_open : s.isEnd = false → s.taken ++ s.queue ++ s.incoming = source
  all_of_ended : s.isEnd = true → s.destroyer = .notCalled ∨ s.destroyer = .endingQueue →
    s.taken ++ s.queue = source

/-- The frame at hand is held, or it is the last one and has been counted. -/
def AtHand (source : List Frame) (s : RecordingThread) (a : Airing) : Prop :=
  a.Held ∧ s.state ≠ .finished ∨
    a.Resent ∧ s.taken = source ∧ (s.state = .finished ∨ s.state = .idle)

/-- The frame at hand when the thread leaves its loop. -/
def AtEnd (source : List Frame) (s : RecordingThread) (a : Airing) : Prop :=
  s.state = .idle ∧ a.Shown ∧ (.finished ∈ a.tests → s.taken = source)

def AtPc (source : List Frame) (s : RecordingThread) : Prop :=
  match s.pc with
  | .firstGet => s.current = none ∧ s.state ≠ .finished
  | .testLoop => ∃ a, s.current = some a ∧ (s.AtHand source a ∨ s.AtEnd source a)
  | .forwarding => ∃ a, s.current = some a ∧ s.AtHand source a
  | .testRecording => ∃ a, s.current = some a ∧ s.AtHand source a
  | .nextGet => ∃ a, s.current = some a ∧ a.Left ∧ s.state ≠ .finished
  | .testFinish => ∃ a, s.current = some a ∧ a.Left ∧ s.state ≠ .finished ∧
    (s.state ≠ .idle → s.taken = source)
  | .storingFinished => ∃ a, s.current = some a ∧ a.Left ∧ s.taken = source
  | .returned => s.current = none ∧ s.state ≠ .finished ∨
    ∃ a, s.current = some a ∧ s.AtEnd source a

structure Sound (source : List Frame) (s : RecordingThread) : Prop where
  queued : s.Queued source
  atPc : s.AtPc source
  past_left : ∀ a ∈ s.past, a.Left
  state_mem : s.state = .idle ∨ s.state = .recordPaused ∨ s.state = .recording ∨ s.state = .finished
  destroyed : s.destroyer ≠ .notCalled → s.state = .idle ∨ s.state = .finished
  forwarded_eq : s.forwarded = s.airings.flatMap Airing.frames ++ s.untested
  none_taken : s.current = none → s.past = [] ∧ s.counter = -1 ∧ s.time = -1
  counted : s.current ≠ none → s.destroyer ≠ .returned →
    s.counter = Int32.ofNat s.advanced.length ∧ s.time = (s.advanced.map Frame.duration).sum
  uncounted : s.destroyer = .returned → s.pc = .returned ∧ s.counter = -1 ∧ s.time = -1

variable {source : List Frame} {s t : RecordingThread} {a : Airing}

theorem airings_of_current (hc : s.current = some a) : s.airings = s.past ++ [a] := by
  simp [airings, hc]

theorem taken_of_current (hc : s.current = some a) :
    s.taken = s.past.map Airing.frame ++ [a.frame] := by
  simp [taken, airings_of_current hc]

/-- Commands do not reach into a state that only the thread sets. -/
theorem AtPc.state_moves (h : s.AtPc source) {state : CDVState}
    (hfin : s.state ≠ .finished → state ≠ .finished)
    (hdone : s.state = .finished ∨ s.state = .idle → state = .finished ∨ state = .idle)
    (hidle : s.state = .idle → state = .idle) (destroyer : DestroyerPc) :
    AtPc source { s with state := state, destroyer := destroyer } := by
  have hhand : ∀ a, s.AtHand source a →
      AtHand source { s with state := state, destroyer := destroyer } a := fun a =>
    Or.imp (fun hheld => ⟨hheld.1, hfin hheld.2⟩) fun hsent => ⟨hsent.1, hsent.2.1, hdone hsent.2.2⟩
  unfold AtPc at h ⊢
  cases hp : s.pc with
  | firstGet =>
    simp only [hp] at h
    exact ⟨h.1, hfin h.2⟩
  | testLoop =>
    simp only [hp] at h
    obtain ⟨a, hc, hat⟩ := h
    have hhand := hhand a
    simp only [hp] at hhand
    exact ⟨a, hc, hat.imp hhand fun hs => ⟨hidle hs.1, hs.2⟩⟩
  | forwarding =>
    simp only [hp] at h
    obtain ⟨a, hc, hat⟩ := h
    have hhand := hhand a hat
    simp only [hp] at hhand
    exact ⟨a, hc, hhand⟩
  | testRecording =>
    simp only [hp] at h
    obtain ⟨a, hc, hat⟩ := h
    have hhand := hhand a hat
    simp only [hp] at hhand
    exact ⟨a, hc, hhand⟩
  | nextGet =>
    simp only [hp] at h
    obtain ⟨a, hc, hleft, hs⟩ := h
    exact ⟨a, hc, hleft, hfin hs⟩
  | testFinish =>
    simp only [hp] at h
    obtain ⟨a, hc, hleft, hs, hall⟩ := h
    exact ⟨a, hc, hleft, hfin hs, fun hne => hall fun hi => hne (hidle hi)⟩
  | storingFinished =>
    simp only [hp] at h
    exact h
  | returned =>
    simp only [hp] at h
    rcases h with ⟨hc, hs⟩ | ⟨a, hc, hs, hshown⟩
    · exact .inl ⟨hc, hfin hs⟩
    · exact .inr ⟨a, hc, hidle hs, hshown⟩

theorem Sound.queue_moves (h : s.Sound source) {incoming queue : List Frame} {isEnd : Bool}
    (hqueued : Queued source { s with incoming := incoming, queue := queue, isEnd := isEnd }) :
    Sound source { s with incoming := incoming, queue := queue, isEnd := isEnd } :=
  { h with queued := hqueued, atPc := h.atPc }

theorem sound_of_put (h : s.Sound source) (hstep : Steps s .put t) : t.Sound source := by
  have hq := h.queued
  cases hstep with
  | queued f incoming hi he =>
    have hall := hq.all_of_open he
    have hmoved : s.taken ++ (s.queue ++ [f]) ++ incoming = source := by
      rw [← hall, hi]
      simp
    exact h.queue_moves
      { prefix_source := ⟨incoming, hmoved⟩
        all_of_open := fun _ => hmoved
        all_of_ended := fun hend => by simp [he] at hend }
  | discarded f incoming hi he =>
    exact h.queue_moves
      { prefix_source := hq.prefix_source
        all_of_open := fun hopen => by simp [he] at hopen
        all_of_ended := fun _ hd => hq.all_of_ended he hd }

theorem sound_of_endOfStream (h : s.Sound source) (hstep : Steps s .endOfStream t) :
    t.Sound source := by
  have hq := h.queued
  cases hstep with
  | ended hi =>
    refine h.queue_moves
      { prefix_source := hq.prefix_source
        all_of_open := fun hopen => by simp at hopen
        all_of_ended := fun _ hd => ?_ }
    cases he : s.isEnd with
    | true => exact hq.all_of_ended he hd
    | false =>
      have hall := hq.all_of_open he
      rwa [hi, List.append_nil] at hall

/-- A step of a command: the state and the stage of `Destroy` change. -/
theorem Sound.commands (h : s.Sound source) {state : CDVState} {destroyer : DestroyerPc}
    (hd : s.destroyer = .notCalled) (hd' : destroyer = .notCalled ∨ destroyer = .endingQueue)
    (hfin : s.state ≠ .finished → state ≠ .finished)
    (hdone : s.state = .finished ∨ s.state = .idle → state = .finished ∨ state = .idle)
    (hidle : s.state = .idle → state = .idle)
    (hmem : state = .idle ∨ state = .recordPaused ∨ state = .recording ∨ state = .finished)
    (hdestroyed : destroyer = .endingQueue → state = .idle) :
    Sound source { s with state := state, destroyer := destroyer } :=
  { h with
    queued := { h.queued with all_of_ended := fun he _ => h.queued.all_of_ended he (.inl hd) }
    atPc := h.atPc.state_moves hfin hdone hidle destroyer
    state_mem := hmem
    destroyed := fun hne => .inl (hdestroyed (hd'.resolve_left hne))
    counted := fun hc _ => h.counted hc (by simp [hd])
    uncounted := fun hr => by
      rcases hd' with rfl | rfl <;> cases hr }

theorem sound_of_command (h : s.Sound source) {b : RecordingAction}
    (hb : b = .startRecording ∨ b = .stopRecording ∨ b = .destroy) (hstep : Steps s b t) :
    t.Sound source := by
  have hmem := h.state_mem
  cases hstep with
  | recordingStarted hd =>
    refine h.commands hd (.inl hd) ?_ ?_ ?_ ?_ (by simp [hd])
    · split <;> simp_all
    · rintro (hs | hs) <;> simp [hs]
    · intro hs
      simp [hs]
    · split
      · simp
      · exact hmem
  | recordingStopped hd =>
    refine h.commands hd (.inl hd) ?_ ?_ ?_ ?_ (by simp [hd])
    · split <;> simp_all
    · rintro (hs | hs) <;> simp [hs]
    · intro hs
      simp [hs]
    · split
      · simp
      · exact hmem
  | destroyCalled hd =>
    exact h.commands hd (.inr rfl) (by simp) (by simp) (by simp) (.inl rfl) fun _ => rfl
  | _ => simp at hb

theorem sound_of_destroyer (h : s.Sound source) (hstep : Steps s .destroyer t) : t.Sound source := by
  cases hstep with
  | queueEnded hd =>
    exact
      { h with
        queued :=
          { prefix_source := h.queued.prefix_source
            all_of_open := fun hopen => by simp at hopen
            all_of_ended := fun _ hd => by simp at hd }
        atPc := h.atPc
        destroyed := fun _ => h.destroyed (by simp [hd])
        counted := fun hc _ => h.counted hc (by simp [hd])
        uncounted := fun hr => by cases hr }
  | destroyed hd hp =>
    exact
      { h with
        queued :=
          { prefix_source := h.queued.prefix_source
            all_of_open := h.queued.all_of_open
            all_of_ended := fun _ hd => by simp at hd }
        atPc := h.atPc
        destroyed := fun _ => h.destroyed (by simp [hd])
        none_taken := fun hc => ⟨(h.none_taken hc).1, rfl, rfl⟩
        counted := fun _ hd => absurd rfl hd
        uncounted := fun _ => ⟨hp, rfl, rfl⟩ }

/-- The destruction of the pipeline is not over while the thread runs. -/
theorem Sound.not_destroyed (h : s.Sound source) (hp : s.pc ≠ .returned) : s.destroyer ≠ .returned :=
  fun hd => hp (h.uncounted hd).1

/-- A step of the thread that stays with the frame at hand. -/
theorem Sound.stays (h : s.Sound source) {pc : RecordingPc} (hp : s.pc ≠ .returned)
    (hp' : s.pc ≠ .testRecording) (hpc : pc ≠ .testRecording) (hat : AtPc source { s with pc := pc }) :
    Sound source { s with pc := pc } :=
  { h with
    queued := { h.queued with }
    atPc := hat
    forwarded_eq := by
      have hf := h.forwarded_eq
      simp only [untested, hp', if_false] at hf
      simp only [untested, hpc, if_false]
      exact hf
    counted := h.counted
    uncounted := fun hd => absurd hd (h.not_destroyed hp) }

theorem Queued.takes (h : s.Queued source) {f : Frame} (htaken : t.taken = s.taken ++ [f])
    (hq : s.queue = f :: t.queue) (hi : t.incoming = s.incoming) (he : t.isEnd = s.isEnd)
    (hd : t.destroyer = s.destroyer) : t.Queued source := by
  have hmoved : t.taken ++ t.queue = s.taken ++ s.queue := by
    rw [htaken, hq, List.append_assoc, List.singleton_append]
  exact
    { prefix_source := hmoved ▸ h.prefix_source
      all_of_open := by
        rw [hmoved, hi, he]
        exact h.all_of_open
      all_of_ended := by
        rw [hmoved, he, hd]
        exact h.all_of_ended }

theorem advanced_of_current (hc : s.current = some a) :
    s.advanced = (s.past.filter fun b => decide b.Counted).map Airing.frame ++
      if a.Counted then [a.frame] else [] := by
  rw [advanced, airings_of_current hc, List.filter_append, List.map_append]
  by_cases hcounted : a.Counted
  · simp [hcounted]
  · simp [hcounted]

theorem Queued.keeps (h : s.Queued source) (htaken : t.taken = s.taken) (hq : t.queue = s.queue)
    (hi : t.incoming = s.incoming) (he : t.isEnd = s.isEnd) (hd : t.destroyer = s.destroyer) :
    t.Queued source where
  prefix_source := by
    rw [htaken, hq]
    exact h.prefix_source
  all_of_open := by
    rw [htaken, hq, hi, he]
    exact h.all_of_open
  all_of_ended := by
    rw [htaken, hq, he, hd]
    exact h.all_of_ended

/-- The loop goes on after a test that did not find `Recording`. -/
theorem AtHand.tested (h : s.AtHand source a)
    (htaken : taken { s with
      current := some { a with tests := a.tests ++ [s.state] }, pc := .testLoop } = s.taken)
    (hs : s.state ≠ .recording)
    (hmem : s.state = .idle ∨ s.state = .recordPaused ∨ s.state = .recording ∨ s.state = .finished) :
    AtPc source { s with
      current := some { a with tests := a.tests ++ [s.state] }, pc := .testLoop } := by
  refine ⟨_, rfl, ?_⟩
  rcases hmem with hidle | hpaused | hrec | hfin
  · refine .inr ⟨hidle, ⟨a.tests, ?_, .inr (by rw [hidle])⟩, fun hfin => ?_⟩
    · exact h.imp (fun hheld => hheld.1) fun hsent => hsent.1
    · rcases h with ⟨hheld, -⟩ | ⟨-, hall, -⟩
      · have hnot := hheld.not_finished
        simp [hnot, hidle] at hfin
      · exact htaken.trans hall
  · rcases h with ⟨hheld, hne⟩ | ⟨-, -, hfin | hidle⟩
    · refine .inl (.inl ⟨?_, hne⟩)
      rw [hpaused]
      exact hheld.again
    · simp [hpaused] at hfin
    · simp [hpaused] at hidle
  · exact absurd hrec hs
  · rcases h with ⟨-, hne⟩ | ⟨hsent, hall, -⟩
    · exact absurd hfin hne
    · refine .inl (.inr ⟨?_, htaken.trans hall, .inl hfin⟩)
      rw [hfin]
      exact hsent.again

/-- The test of the state after a frame was forwarded adds to its airing. -/
theorem forwarded_of_test (hp : s.pc = .testRecording)
    (hc : s.current = some a) (hf : s.forwarded = s.airings.flatMap Airing.frames ++ s.untested)
    (st : CDVState) :
    s.forwarded = (s.past ++ [{ a with tests := a.tests ++ [st] }]).flatMap Airing.frames := by
  rw [hf, airings_of_current hc, untested, if_pos hp, hc]
  simp [Airing.frames, List.replicate_succ']

/-- A step of the thread that takes a frame: the one at hand, if any, has been counted. -/
theorem Sound.gets (h : s.Sound source) {f : Frame} {queue : List Frame} {counter : Int32} {time : Int}
    (hp : s.pc = .firstGet ∨ s.pc = .nextGet) (hq : s.queue = f :: queue) (hs : s.state ≠ .finished)
    (hleft : ∀ a, s.current = some a → a.Left)
    (hcounter : counter = Int32.ofNat s.advanced.length)
    (htime : time = (s.advanced.map Frame.duration).sum) :
    Sound source { s with
      queue := queue, past := s.past ++ s.current.toList, current := some ⟨f, []⟩
      counter := counter, time := time, pc := .testLoop } where
  queued := h.queued.takes (by simp [taken, airings]) hq rfl rfl rfl
  atPc := ⟨_, rfl, .inl (.inl ⟨⟨0, rfl⟩, hs⟩)⟩
  past_left := by
    intro b hb
    rcases List.mem_append.mp hb with hb | hb
    · exact h.past_left b hb
    · exact hleft b (by simpa using hb)
  state_mem := h.state_mem
  destroyed := h.destroyed
  forwarded_eq := by
    have hnot : s.pc ≠ .testRecording := by rcases hp with hp | hp <;> simp [hp]
    rw [h.forwarded_eq]
    simp [airings, untested, hnot, Airing.frames]
  none_taken := by simp
  counted := fun _ _ => by
    have hnew : ¬ Airing.Counted ⟨f, []⟩ := by simp [Airing.Counted]
    rw [advanced_of_current rfl, if_neg hnew, List.append_nil]
    exact ⟨hcounter, htime⟩
  uncounted := fun hd => absurd hd (h.not_destroyed (by rcases hp with hp | hp <;> simp [hp]))

/-- A step of the thread that tests the state after it forwarded the frame at hand. -/
theorem Sound.tests (h : s.Sound source) {pc : RecordingPc} {counter : Int32} {time : Int}
    (hp : s.pc = .testRecording) (hc : s.current = some a) (hpc : pc ≠ .testRecording)
    (hat : AtPc source { s with current := some { a with tests := a.tests ++ [s.state] }, pc := pc })
    (hcounted : counter = Int32.ofNat
        (advanced { s with current := some { a with tests := a.tests ++ [s.state] } }).length ∧
      time = ((advanced { s with current := some { a with tests := a.tests ++ [s.state] } }).map
        Frame.duration).sum) :
    Sound source { s with
      current := some { a with tests := a.tests ++ [s.state] }
      counter := counter, time := time, pc := pc } where
  queued := h.queued.keeps (by simp [taken, airings, hc]) rfl rfl rfl rfl
  atPc := hat
  past_left := h.past_left
  state_mem := h.state_mem
  destroyed := h.destroyed
  forwarded_eq := by
    rw [forwarded_of_test hp hc h.forwarded_eq s.state]
    simp [airings, untested, hpc]
  none_taken := by simp
  counted := fun _ _ => hcounted
  uncounted := fun hd => absurd hd (h.not_destroyed (by simp [hp]))

/-- The thread holds a frame, and counted it for what it advanced past. -/
theorem Sound.counted_running (h : s.Sound source) (hc : s.current = some a) (hp : s.pc ≠ .returned) :
    s.counter = Int32.ofNat s.advanced.length ∧ s.time = (s.advanced.map Frame.duration).sum :=
  h.counted (by simp [hc]) (h.not_destroyed hp)

theorem sound_of_worker (h : s.Sound source) (hstep : Steps s .worker t) : t.Sound source := by
  have hat := h.atPc
  have hforwarded := h.forwarded_eq
  cases hstep with
  | gotFirst f queue hp hq =>
    simp only [AtPc, hp] at hat
    obtain ⟨hpast, -, -⟩ := h.none_taken hat.1
    have hgets := h.gets (.inl hp) hq hat.2 (by simp [hat.1]) rfl rfl
    simpa [advanced, airings, hpast, hat.1] using hgets
  | gotNone hp hq he =>
    simp only [AtPc, hp] at hat
    exact h.stays (by simp [hp]) (by simp [hp]) (by simp) (.inl hat)
  | loopEnded hp hs =>
    simp only [AtPc, hp] at hat
    obtain ⟨a, hc, hat⟩ := hat
    refine h.stays (by simp [hp]) (by simp [hp]) (by simp) (.inr ⟨a, hc, hs, ?_⟩)
    rcases hat with (⟨hheld, -⟩ | ⟨hsent, hall, -⟩) | ⟨-, hshown⟩
    · exact ⟨⟨a.tests, .inl hheld, .inl rfl⟩, fun hfin => absurd hfin hheld.not_finished⟩
    · exact ⟨⟨a.tests, .inr hsent, .inl rfl⟩, fun _ => hall⟩
    · exact hshown
  | loopEntered hp hs =>
    simp only [AtPc, hp] at hat
    obtain ⟨a, hc, hat⟩ := hat
    exact h.stays (by simp [hp]) (by simp [hp]) (by simp)
      ⟨a, hc, hat.resolve_right fun hidle => hs hidle.1⟩
  | frameForwarded a hp hc =>
    simp only [AtPc, hp] at hat
    exact
      { h with
        queued := { h.queued with }
        atPc := hat
        forwarded_eq := by
          rw [hforwarded]
          simp [untested, hp, hc, airings]
        counted := h.counted
        uncounted := fun hd => absurd hd (h.not_destroyed (by simp [hp])) }
  | counted a hp hc hs =>
    simp only [AtPc, hp] at hat
    obtain ⟨a', hc', hat⟩ := hat
    obtain rfl := Option.some.inj (hc.symm.trans hc')
    have hheld : a.Held := by
      rcases hat with ⟨hheld, -⟩ | ⟨-, -, hfin | hidle⟩
      · exact hheld
      · simp [hs] at hfin
      · simp [hs] at hidle
    obtain ⟨hcounter, htime⟩ := h.counted_running hc (by simp [hp])
    have hadvanced := advanced_of_current hc
    rw [if_neg hheld.not_counted, List.append_nil] at hadvanced
    have hlast : Airing.Counted { a with tests := a.tests ++ [s.state] } := by
      simp [Airing.Counted, hs]
    refine h.tests hp hc (by simp) ⟨_, rfl, ?_, by simp [hs]⟩ ?_
    · rw [hs]
      exact hheld.left
    · rw [advanced_of_current rfl, if_pos hlast, hcounter, htime, hadvanced]
      simp [Int32.ofNat_add]
  | notCounted a hp hc hs =>
    simp only [AtPc, hp] at hat
    obtain ⟨a', hc', hat⟩ := hat
    obtain rfl := Option.some.inj (hc.symm.trans hc')
    have htaken : taken { s with
        current := some { a with tests := a.tests ++ [s.state] }, pc := .testLoop } = s.taken := by
      simp [taken, airings, hc]
    have hcounted := h.counted_running hc (by simp [hp])
    have hlast : Airing.Counted { a with tests := a.tests ++ [s.state] } ↔ a.Counted := by
      simp [Airing.Counted, Ne.symm hs]
    refine h.tests hp hc (by simp) (hat.tested htaken hs h.state_mem) ?_
    rw [advanced_of_current hc] at hcounted
    rw [advanced_of_current rfl]
    simpa only [hlast] using hcounted
  | gotNext f queue hp hq =>
    simp only [AtPc, hp] at hat
    obtain ⟨a, hc, hleft, hs⟩ := hat
    obtain ⟨hcounter, htime⟩ := h.counted_running hc (by simp [hp])
    refine h.gets (.inr hp) hq hs (fun b hb => ?_) hcounter htime
    obtain rfl := Option.some.inj (hc.symm.trans hb)
    exact hleft
  | gotNoMore hp hq he =>
    simp only [AtPc, hp] at hat
    obtain ⟨a, hc, hleft, hs⟩ := hat
    refine h.stays (by simp [hp]) (by simp [hp]) (by simp) ⟨a, hc, hleft, hs, fun hidle => ?_⟩
    have hd : s.destroyer = .notCalled := by
      by_contra hd
      exact (h.destroyed hd).elim hidle hs
    have hall := h.queued.all_of_ended he (.inl hd)
    rwa [hq, List.append_nil] at hall
  | finishes hp hs =>
    simp only [AtPc, hp] at hat
    obtain ⟨a, hc, hleft, -, hall⟩ := hat
    exact h.stays (by simp [hp]) (by simp [hp]) (by simp) ⟨a, hc, hleft, hall hs⟩
  | destroyedMeanwhile hp hs =>
    simp only [AtPc, hp] at hat
    obtain ⟨a, hc, hleft, -⟩ := hat
    exact h.stays (by simp [hp]) (by simp [hp]) (by simp)
      ⟨a, hc, .inr ⟨hs, ⟨a.tests, .inr hleft.resent, .inl rfl⟩, fun hfin =>
        absurd hfin hleft.not_finished⟩⟩
  | finished hp =>
    simp only [AtPc, hp] at hat
    obtain ⟨a, hc, hleft, hall⟩ := hat
    exact
      { h with
        queued := { h.queued with }
        atPc := ⟨a, hc, .inl (.inr ⟨hleft.resent, hall, .inl rfl⟩)⟩
        state_mem := .inr (.inr (.inr rfl))
        destroyed := fun _ => .inr rfl
        forwarded_eq := by
          rw [hforwarded]
          simp [untested, hp, airings]
        counted := h.counted
        uncounted := fun hd => absurd hd (h.not_destroyed (by simp [hp])) }

theorem sound_of_steps {b : RecordingAction} (h : s.Sound source) (hstep : Steps s b t) :
    t.Sound source := by
  cases b with
  | put => exact sound_of_put h hstep
  | endOfStream => exact sound_of_endOfStream h hstep
  | worker => exact sound_of_worker h hstep
  | startRecording => exact sound_of_command h (.inl rfl) hstep
  | stopRecording => exact sound_of_command h (.inr (.inl rfl)) hstep
  | destroy => exact sound_of_command h (.inr (.inr rfl)) hstep
  | destroyer => exact sound_of_destroyer h hstep

theorem start_sound (source : List Frame) : (start source).Sound source where
  queued := { prefix_source := by simp [start, taken, airings]
              all_of_open := by simp [start, taken, airings]
              all_of_ended := by simp [start] }
  atPc := ⟨rfl, by simp [start]⟩
  past_left := by simp [start]
  state_mem := .inr (.inl rfl)
  destroyed := by simp [start]
  forwarded_eq := by simp [start, airings, untested]
  none_taken := by simp [start]
  counted := by simp [start]
  uncounted := by simp [start]

theorem Sound.current_shown (h : s.Sound source) (hc : s.current = some a) :
    a.Shown ∧ (.finished ∈ a.tests → s.taken = source) := by
  have hhand : s.AtHand source a → a.Shown ∧ (.finished ∈ a.tests → s.taken = source) := by
    rintro (⟨hheld, -⟩ | ⟨hsent, hall, -⟩)
    · exact ⟨⟨a.tests, .inl hheld, .inl rfl⟩, fun hfin => absurd hfin hheld.not_finished⟩
    · exact ⟨⟨a.tests, .inr hsent, .inl rfl⟩, fun _ => hall⟩
  have hleft : a.Left → a.Shown ∧ (.finished ∈ a.tests → s.taken = source) := fun hleft =>
    ⟨⟨a.tests, .inr hleft.resent, .inl rfl⟩, fun hfin => absurd hfin hleft.not_finished⟩
  have hat := h.atPc
  cases hp : s.pc with
  | firstGet =>
    simp [AtPc, hp, hc] at hat
  | testLoop =>
    simp only [AtPc, hp, hc, Option.some.injEq, exists_eq_left'] at hat
    exact hat.elim hhand fun hend => hend.2
  | forwarding =>
    simp only [AtPc, hp, hc, Option.some.injEq, exists_eq_left'] at hat
    exact hhand hat
  | testRecording =>
    simp only [AtPc, hp, hc, Option.some.injEq, exists_eq_left'] at hat
    exact hhand hat
  | nextGet =>
    simp only [AtPc, hp, hc, Option.some.injEq, exists_eq_left'] at hat
    exact hleft hat.1
  | testFinish =>
    simp only [AtPc, hp, hc, Option.some.injEq, exists_eq_left'] at hat
    exact hleft hat.1
  | storingFinished =>
    simp only [AtPc, hp, hc, Option.some.injEq, exists_eq_left'] at hat
    exact hleft hat.1
  | returned =>
    simp only [AtPc, hp, hc, Option.some.injEq, exists_eq_left', reduceCtorEq, false_and, false_or] at hat
    exact hat.2

theorem Sound.finished_source (h : s.Sound source) (hs : s.state = .finished) :
    ∃ a, s.current = some a ∧ a.tests ≠ [] ∧ s.taken = source := by
  have hat := h.atPc
  have hhand : ∀ a, s.AtHand source a → a.tests ≠ [] ∧ s.taken = source := by
    rintro a (⟨-, hne⟩ | ⟨hsent, hall, -⟩)
    · exact absurd hs hne
    · exact ⟨hsent.tests_ne_nil, hall⟩
  have hend : ∀ a, ¬ s.AtEnd source a := fun a hend => by
    rw [hend.1] at hs
    cases hs
  cases hp : s.pc with
  | firstGet =>
    simp only [AtPc, hp] at hat
    exact absurd hs hat.2
  | testLoop =>
    simp only [AtPc, hp] at hat
    obtain ⟨a, hc, hat⟩ := hat
    exact ⟨a, hc, hhand a (hat.resolve_right (hend a))⟩
  | forwarding =>
    simp only [AtPc, hp] at hat
    obtain ⟨a, hc, hat⟩ := hat
    exact ⟨a, hc, hhand a hat⟩
  | testRecording =>
    simp only [AtPc, hp] at hat
    obtain ⟨a, hc, hat⟩ := hat
    exact ⟨a, hc, hhand a hat⟩
  | nextGet =>
    simp only [AtPc, hp] at hat
    obtain ⟨a, -, -, hne⟩ := hat
    exact absurd hs hne
  | testFinish =>
    simp only [AtPc, hp] at hat
    obtain ⟨a, -, -, hne, -⟩ := hat
    exact absurd hs hne
  | storingFinished =>
    simp only [AtPc, hp] at hat
    obtain ⟨a, hc, hleft, hall⟩ := hat
    exact ⟨a, hc, hleft.tests_ne_nil, hall⟩
  | returned =>
    simp only [AtPc, hp] at hat
    rcases hat with ⟨-, hne⟩ | ⟨a, -, hat⟩
    · exact absurd hs hne
    · exact absurd hat (hend a)

theorem stutters_airings {as : List Airing} (h : ∀ a ∈ as, a.tests ≠ []) :
    Stutters (as.map Airing.frame) (as.flatMap Airing.frames) := by
  induction as using List.reverseRecOn with
  | nil => exact stutters_nil
  | append_singleton as a ih =>
    have ha := List.length_pos_iff.mpr (h a (List.mem_append_right _ List.mem_cons_self))
    have hall := (ih fun b hb => h b (List.mem_append_left _ hb)).append a.frame ha
    simpa [Airing.frames] using hall

/-- The frame at hand stutters with the others once it was forwarded. -/
theorem Sound.stutters (h : s.Sound source) (hc : s.current = some a) :
    Stutters s.taken s.forwarded ∨
      a.tests = [] ∧ Stutters (s.past.map Airing.frame) s.forwarded := by
  have hpast := stutters_airings fun b hb => (h.past_left b hb).tests_ne_nil
  have hforwarded := h.forwarded_eq
  rw [airings_of_current hc, List.flatMap_append, List.append_assoc] at hforwarded
  have hframes : [a].flatMap Airing.frames ++ s.untested =
      List.replicate (a.tests.length + if s.pc = .testRecording then 1 else 0) a.frame := by
    rw [untested, hc]
    split <;> simp [Airing.frames, List.replicate_succ']
  rw [hframes] at hforwarded
  by_cases hzero : a.tests.length + (if s.pc = .testRecording then 1 else 0) = 0
  · refine .inr ⟨List.length_eq_zero_iff.mp (by omega), ?_⟩
    rw [hforwarded, hzero]
    simpa using hpast
  · refine .inl ?_
    rw [taken_of_current hc, hforwarded]
    exact hpast.append a.frame (Nat.pos_of_ne_zero hzero)

/-- What the tape got of the source, and how the thread counted it. -/
structure RecordedInOrder (source : List Frame) (s : RecordingThread) : Prop where
  in_order : ∃ xs, xs <+: source ∧ Stutters xs s.forwarded
  all_of_finished : s.state = .finished → Stutters source s.forwarded
  /-- Each test of an airing came after one forwarding of its frame. -/
  iterations : s.taken <+: source ∧ s.forwarded = s.airings.flatMap Airing.frames ++ s.untested
  /-- Of the tests of a frame only the last before the next frame found `Recording`. -/
  past_left : ∀ a ∈ s.past, a.Left
  /-- Only the last frame is sent again after it was counted, and `Idle` ends the loop. -/
  current_shown : ∀ a, s.current = some a → a.Shown ∧ (.finished ∈ a.tests → s.taken = source)
  counted : s.current ≠ none → s.destroyer ≠ .returned →
    s.counter = Int32.ofNat s.advanced.length ∧ s.time = (s.advanced.map Frame.duration).sum
  uncounted : s.current = none ∨ s.destroyer = .returned → s.counter = -1 ∧ s.time = -1

/-- In every interleaving of the thread, the source, the commands and `Destroy`
the tape gets the frames of the source in order. -/
theorem recorded_in_order (source : List Frame) (acts : List RecordingAction) (s : RecordingThread)
    (hrun : Run step (fun _ _ => True) (start source) acts s) : RecordedInOrder source s := by
  have h : s.Sound source := hrun.invariant
    (fun _ _ _ hsound _ hstep => sound_of_steps hsound (steps_of_step hstep)) (start_sound source)
  have htaken := (List.prefix_append _ _).trans h.queued.prefix_source
  refine
    { in_order := ?_
      all_of_finished := fun hs => ?_
      iterations := ⟨htaken, h.forwarded_eq⟩
      past_left := h.past_left
      current_shown := fun a hc => h.current_shown hc
      counted := h.counted
      uncounted := ?_ }
  · cases hc : s.current with
    | none =>
      have hforwarded := h.forwarded_eq
      simp [airings, untested, hc, (h.none_taken hc).1] at hforwarded
      rw [hforwarded]
      exact ⟨[], List.nil_prefix, stutters_nil⟩
    | some a =>
      rcases h.stutters hc with hall | ⟨-, hpast⟩
      · exact ⟨s.taken, htaken, hall⟩
      · refine ⟨_, List.IsPrefix.trans ?_ htaken, hpast⟩
        rw [taken_of_current hc]
        exact List.prefix_append _ _
  · obtain ⟨a, hc, hne, hall⟩ := h.finished_source hs
    rcases h.stutters hc with hstutters | ⟨hnil, -⟩
    · rwa [hall] at hstutters
    · exact absurd hnil hne
  · rintro (hc | hd)
    · exact (h.none_taken hc).2
    · exact (h.uncounted hd).2

def greyFrame : Frame := ⟨400000, [128]⟩

/-- A source of one frame, recorded to its end. -/
def oneFrameRun : List RecordingAction :=
  [.put, .endOfStream, .worker, .startRecording, .worker, .worker, .worker, .worker, .worker, .worker]

theorem oneFrame_recorded :
    ∃ s, exec step (fun _ _ => True) (start [greyFrame]) oneFrameRun = some s ∧
      s.state = .finished ∧ RecordedInOrder [greyFrame] s := by
  have hfinished : (exec step (fun _ _ => True) (start [greyFrame]) oneFrameRun).any
      (fun s => s.state = .finished) = true := by decide
  obtain ⟨s, hs, hstate⟩ := (Option.any_eq_true _ _).mp hfinished
  exact ⟨s, hs, by simpa using hstate, recorded_in_order [greyFrame] oneFrameRun s (run_of_exec hs)⟩

/-- Without a frame the counters stay at -1; and when the pipeline is destroyed
while recording pauses, the frame at hand is sent again in an iteration whose
test finds `Idle`. -/
theorem counters_and_idle_repeat :
    (exec step (fun _ _ => True) (start []) [.endOfStream, .worker]).any
        (fun s => s.counter ≠ Int32.ofNat s.advanced.length ∧
          s.time ≠ (s.advanced.map Frame.duration).sum) = true ∧
      (exec step (fun _ _ => True) (start [greyFrame])
          [.put, .worker, .worker, .worker, .worker, .worker, .worker, .destroy, .worker]).any
        (fun s => s.forwarded = [greyFrame, greyFrame] ∧
          s.airings = [⟨greyFrame, [.recordPaused, .idle]⟩]) = true := by
  decide

end RecordingThread

end WinDV
