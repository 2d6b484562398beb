import WinDV.Pipeline
import WinDV.Transition

/-! In every state that commands and the worker thread reach, `m_state` tells
which objects the pipeline has. -/

namespace WinDV

open Outcome Transition

namespace Pipeline

open Member

@[simp]
theorem put_state (p : Pipeline) (m : Member) (b : Bool) : (p.put m b).state = p.state := rfl

@[simp]
theorem put_isSet (p : Pipeline) (m n : Member) (b : Bool) :
    (p.put m b).isSet n = if n = m then b else p.isSet n := by
  by_cases h : n = m
  · simp [put, h]
  · simp [put, h]

@[simp]
theorem withState_state (p : Pipeline) (state : CDVState) : (p.withState state).state = state := rfl

@[simp]
theorem withState_isSet (p : Pipeline) (state : CDVState) (m : Member) :
    (p.withState state).isSet m = p.isSet m := rfl

theorem put_of_not_set {p : Pipeline} {m : Member} (h : p.isSet m = false) : p.put m false = p := by
  rw [put, ← h, Function.update_eq_self]

variable {p q : Pipeline} {m : Member} {body : Program} {fail : Failure → Pipeline → Prop}

theorem deref_eq (h : p.isSet m = true) : deref m p = .ok () p := if_pos h

theorem ifSet_deref (m : Member) (p : Pipeline) : ifSet m (deref m) p = .ok () p := by
  by_cases h : p.isSet m = true
  · rw [ifSet, if_pos h, deref_eq h]
  · rw [ifSet, if_neg h]

theorem ifSet_clears (h : p.isSet m = true → body p = .ok () (p.put m false)) :
    ifSet m body p = .ok () (p.put m false) := by
  by_cases hm : p.isSet m = true
  · rw [ifSet, if_pos hm, h hm]
  · rw [ifSet, if_neg hm, put_of_not_set (Bool.eq_false_iff.mpr hm)]

theorem ctrl_clears (dvCtrl : Bool) (h : p.isSet m = true) :
    (do if dvCtrl then deref m
        assign m false : Program) p = .ok () (p.put m false) := by
  cases dvCtrl with
  | false => rfl
  | true =>
    show EStateM.bind (deref m) _ p = _
    rw [EStateM.bind, deref_eq h]
    rfl

theorem deref_clears (h : p.isSet m = true) :
    (do deref m
        assign m false : Program) p = .ok () (p.put m false) := by
  show EStateM.bind (deref m) _ p = _
  rw [EStateM.bind, deref_eq h]
  rfl

/-- `Destroy` leaves nothing, whatever was there. -/
theorem destroy_eq (dvCtrl : Bool) (p : Pipeline) : destroy dvCtrl p = .ok () destroyed := by
  rw [destroy, bind_of_ok (f := setState .idle) rfl, bind_of_ok (ifSet_deref _ _),
    bind_of_ok (ifSet_deref _ _), bind_of_ok (ifSet_deref _ _),
    bind_of_ok (ifSet_clears deref_clears), bind_of_ok (ifSet_clears fun _ => rfl),
    bind_of_ok (ifSet_clears (ctrl_clears dvCtrl)), bind_of_ok (ifSet_clears deref_clears),
    bind_of_ok (ifSet_clears (ctrl_clears dvCtrl)), bind_of_ok (ifSet_clears fun _ => rfl),
    ifSet_clears fun _ => rfl]
  refine congrArg _ (Pipeline.ext rfl (funext fun m => ?_))
  cases m <;> simp [destroyed]

structure Agrees (p : Pipeline) : Prop where
  capture : p.state = .capturePaused ∨ p.state = .capturing →
    p.isSet dvInput = true ∧ p.isSet monitor = true ∧ p.isSet queue = true ∧
      p.isSet thread = true ∧ p.isSet aviJoiner = false ∧ p.isSet dvOutput = false
  record : p.state = .recordPaused ∨ p.state = .recording →
    p.isSet aviJoiner = true ∧ p.isSet dvOutput = true ∧ p.isSet monitor = true ∧
      p.isSet queue = true ∧ p.isSet thread = true ∧ p.isSet dvInput = false

/-- How a `Build` function that failed leaves the pipeline. -/
structure Stopped (e : Failure) (p : Pipeline) : Prop where
  thrown : e = .thrown
  state : p.state = .idle
  thread : p.isSet thread = false

theorem agrees_of_idle (h : p.state = .idle) : Agrees p :=
  ⟨by simp [h], by simp [h]⟩

theorem agrees_of_finished (h : p.state = .finished) : Agrees p :=
  ⟨by simp [h], by simp [h]⟩

theorem ends_bind_mayThrow {g : Unit → Program} {post : Unit → Pipeline → Prop} {throws : Bool}
    (hfail : fail .thrown p)
    (hg : Ends (g ()) p post fail) : Ends (mayThrow throws >>= g) p post fail := by
  cases throws with
  | false => exact ends_bind_of_ok rfl hg
  | true => exact hfail

theorem ends_ifCtrl {f : Program} {g : Unit → Program} {post : Unit → Pipeline → Prop} (dvCtrl : Bool)
    (hf : f p = .ok () p)
    (hg : Ends (g ()) p post fail) :
    Ends (if dvCtrl = true then f >>= g else g ()) p post fail := by
  cases dvCtrl with
  | false => exact hg
  | true => exact ends_bind_of_ok hf hg

theorem buildCapturing_ends (dvCtrl : Bool) (throws : BuildCall → Bool) (p : Pipeline) :
    Ends (buildCapturing dvCtrl throws) p (fun _ q => Agrees q) Stopped := by
  refine ends_bind_of_ok (destroy_eq dvCtrl p) ?_
  refine ends_bind_mayThrow ⟨rfl, rfl, rfl⟩ ?_
  refine ends_bind_of_ok (f := assign dvInput true) rfl ?_
  refine ends_bind_of_ok (deref_eq (by simp)) ?_
  refine ends_bind_mayThrow ⟨rfl, rfl, by simp [destroyed]⟩ ?_
  refine ends_bind_mayThrow ⟨rfl, rfl, by simp [destroyed]⟩ ?_
  refine ends_bind_of_ok (f := assign monitor true) rfl ?_
  refine ends_bind_mayThrow ⟨rfl, rfl, by simp [destroyed]⟩ ?_
  refine ends_bind_of_ok (f := assign queue true) rfl ?_
  refine ends_bind_of_ok (deref_eq (by simp)) ?_
  refine ends_bind_mayThrow ⟨rfl, rfl, by simp [destroyed]⟩ ?_
  refine ends_bind_of_ok (f := setState .capturePaused) rfl ?_
  refine ends_bind_of_ok (f := assign thread true) rfl ?_
  refine ends_of_ok (deref_eq (by simp)) ⟨fun _ => ?_, by simp⟩
  simp [destroyed]

theorem buildRecording_ends (dvCtrl : Bool) (throws : BuildCall → Bool) (p : Pipeline) :
    Ends (buildRecording dvCtrl throws) p (fun _ q => Agrees q) Stopped := by
  refine ends_bind_of_ok (destroy_eq dvCtrl p) ?_
  refine ends_bind_mayThrow ⟨rfl, rfl, rfl⟩ ?_
  refine ends_bind_of_ok (f := assign aviJoiner true) rfl ?_
  refine ends_bind_of_ok (deref_eq (by simp)) ?_
  refine ends_bind_mayThrow ⟨rfl, rfl, by simp [destroyed]⟩ ?_
  refine ends_bind_mayThrow ⟨rfl, rfl, by simp [destroyed]⟩ ?_
  refine ends_bind_of_ok (f := assign monitor true) rfl ?_
  refine ends_bind_mayThrow ⟨rfl, rfl, by simp [destroyed]⟩ ?_
  refine ends_bind_of_ok (f := assign dvOutput true) rfl ?_
  refine ends_bind_mayThrow ⟨rfl, rfl, by simp [destroyed]⟩ ?_
  refine ends_bind_of_ok (f := assign queue true) rfl ?_
  refine ends_bind_of_ok (deref_eq (by simp)) ?_
  refine ends_bind_mayThrow ⟨rfl, rfl, by simp [destroyed]⟩ ?_
  refine ends_bind_of_ok (f := setState .recordPaused) rfl ?_
  refine ends_ifCtrl dvCtrl (deref_eq (by simp)) ?_
  refine ends_bind_of_ok (f := assign thread true) rfl ?_
  refine ends_of_ok (deref_eq (by simp)) ⟨by simp, fun _ => ?_⟩
  simp [destroyed]

/-- A transport command changes `m_state` between the two states of a
pipeline, and reaches the device through a pointer that both have. -/
theorem transport_ends (dvCtrl : Bool) {source target : CDVState} (hp : Agrees p)
    (hset : p.state = source → p.isSet m = true)
    (htarget : p.state = source → Agrees (p.withState target)) :
    Ends (do
      if (← get).state = source then
        setState target
        if dvCtrl then deref m : Program) p (fun _ q => Agrees q) fail := by
  refine ends_bind_of_ok (f := get) rfl ?_
  by_cases h : p.state = source
  · rw [if_pos h]
    refine ends_bind_of_ok (f := setState target) rfl ?_
    cases dvCtrl with
    | false => exact htarget h
    | true => exact ends_of_ok (deref_eq (hset h)) (htarget h)
  · rw [if_neg h]
    exact hp

theorem startCapturing_ends (dvCtrl : Bool) (hp : Agrees p) :
    Ends (startCapturing dvCtrl) p (fun _ q => Agrees q) fail := by
  refine transport_ends dvCtrl hp (fun h => (hp.capture (.inl h)).1) fun h => ⟨fun _ => ?_, by simp⟩
  simpa using hp.capture (.inl h)

theorem stopCapturing_ends (dvCtrl : Bool) (hp : Agrees p) :
    Ends (stopCapturing dvCtrl) p (fun _ q => Agrees q) fail := by
  refine transport_ends dvCtrl hp (fun h => (hp.capture (.inr h)).1) fun h => ⟨fun _ => ?_, by simp⟩
  simpa using hp.capture (.inr h)

theorem startRecording_ends (dvCtrl : Bool) (hp : Agrees p) :
    Ends (startRecording dvCtrl) p (fun _ q => Agrees q) fail := by
  refine transport_ends dvCtrl hp (fun h => (hp.record (.inl h)).2.1)
    fun h => ⟨by simp, fun _ => ?_⟩
  simpa using hp.record (.inl h)

theorem stopRecording_ends (dvCtrl : Bool) (hp : Agrees p) :
    Ends (stopRecording dvCtrl) p (fun _ q => Agrees q) fail := by
  refine transport_ends dvCtrl hp (fun h => (hp.record (.inr h)).2.1)
    fun h => ⟨by simp, fun _ => ?_⟩
  simpa using hp.record (.inr h)

theorem joinThread_ends (writerClosed : Bool) (p : Pipeline) :
    Ends (ifSet thread do
      deref thread
      setState .finished
      if writerClosed then assign aviWriter false
      assign thread false) p (fun _ _ => True) fail := by
  by_cases h : p.isSet thread = true
  · rw [Ends, ifSet, if_pos h]
    refine ends_bind_of_ok (deref_eq h) ?_
    cases writerClosed with
    | false => exact trivial
    | true => exact trivial
  · rw [Ends, ifSet, if_neg h]
    exact trivial

theorem finalizeCapturing_ends (dvCtrl writerClosed : Bool) (hp : Agrees p) :
    Ends (finalizeCapturing dvCtrl writerClosed) p (fun _ q => Agrees q) fail := by
  refine ends_bind_of_ok (f := get) rfl ?_
  by_cases h : p.state = .capturing ∨ p.state = .capturePaused
  · rw [if_pos h]
    refine ends_bind_of_ok (f := setState _) rfl ?_
    refine ends_ifCtrl dvCtrl (ifSet_deref dvInput _) ?_
    refine ends_bind_of_ok (ifSet_deref dvInput _) ?_
    refine ends_bind_of_ok (ifSet_deref queue _) ?_
    refine ends_bind (joinThread_ends writerClosed _) fun _ q _ => ?_
    exact agrees_of_finished rfl
  · rw [if_neg h]
    exact hp

theorem onTimer_eq (hp : Agrees p) : onTimer p = .ok () p := by
  refine (bind_of_ok (f := get) rfl).trans ?_
  by_cases h : p.state = .capturing ∨ p.state = .recording ∨ p.state = .recordPaused
  · rw [if_pos h]
    refine deref_eq ?_
    rcases h with h | h | h
    · exact (hp.capture (.inr h)).2.2.1
    · exact (hp.record (.inr h)).2.2.2.1
    · exact (hp.record (.inl h)).2.2.2.1
  · rw [if_neg h]
    rfl

/-- The commands that begin with `Destroy`. -/
def Call.Starts : Call → Prop
  | .buildCapturing .. | .buildRecording .. | .destroy .. => True
  | _ => False

theorem run_ends_of_starts {c : Call} (hc : c.Starts) (p : Pipeline) :
    Ends c.run p (fun _ q => Agrees q) Stopped := by
  cases c with
  | buildCapturing dvCtrl throws => exact buildCapturing_ends dvCtrl throws p
  | buildRecording dvCtrl throws => exact buildRecording_ends dvCtrl throws p
  | destroy dvCtrl => exact ends_of_ok (destroy_eq dvCtrl p) (agrees_of_idle rfl)
  | startCapturing => cases hc
  | stopCapturing => cases hc
  | finalizeCapturing => cases hc
  | startRecording => cases hc
  | stopRecording => cases hc

theorem run_ends (c : Call) (hp : Agrees p) : Ends c.run p (fun _ q => Agrees q) Stopped := by
  cases c with
  | buildCapturing dvCtrl throws => exact buildCapturing_ends dvCtrl throws p
  | startCapturing dvCtrl => exact startCapturing_ends dvCtrl hp
  | stopCapturing dvCtrl => exact stopCapturing_ends dvCtrl hp
  | finalizeCapturing dvCtrl writerClosed => exact finalizeCapturing_ends dvCtrl writerClosed hp
  | buildRecording dvCtrl throws => exact buildRecording_ends dvCtrl throws p
  | startRecording dvCtrl => exact startRecording_ends dvCtrl hp
  | stopRecording dvCtrl => exact stopRecording_ends dvCtrl hp
  | destroy dvCtrl => exact run_ends_of_starts (c := .destroy dvCtrl) trivial p

theorem afterCall_of_ends {f : Program} (h : Ends f p (fun _ q => Agrees q) Stopped) :
    ∃ q, afterCall (f p) = some q ∧ Agrees q := by
  cases hf : f p with
  | ok u q => exact ⟨q, rfl, h.of_ok hf⟩
  | error e q =>
    have hstop := h.of_error hf
    obtain rfl := hstop.thrown
    exact ⟨q, rfl, agrees_of_idle hstop.state⟩

/-- The worker thread leaves a state that needs no objects, or changes only
its writer. -/
theorem agrees_step {a : Action} (hp : Agrees p) (hstep : step p a = some q) : Agrees q := by
  cases a with
  | call c =>
    obtain ⟨r, hr, hagrees⟩ := afterCall_of_ends (run_ends c hp)
    obtain rfl := Option.some.inj (hr.symm.trans hstep)
    exact hagrees
  | workerFinishes =>
    obtain ⟨-, ⟨⟩⟩ := Option.ite_none_right_eq_some.mp hstep
    exact agrees_of_finished rfl
  | workerOpensWriter =>
    obtain ⟨-, ⟨⟩⟩ := Option.ite_none_right_eq_some.mp hstep
    exact ⟨fun h => by simpa using hp.capture h, fun h => by simpa using hp.record h⟩
  | workerClosesWriter =>
    obtain ⟨-, ⟨⟩⟩ := Option.ite_none_right_eq_some.mp hstep
    exact ⟨fun h => by simpa using hp.capture h, fun h => by simpa using hp.record h⟩

/-- From any `m_state`, with the first command one that destroys what was
there, the state tells the objects for ever after. -/
theorem state_agrees_with_objects (state : CDVState) (first : Call) (hfirst : first.Starts) :
    (∃ p₀, step (new state) (.call first) = some p₀ ∧
      ∀ acts p, Run step (fun _ _ => True) p₀ acts p →
        Agrees p ∧ onTimer p = .ok () p ∧ ∀ (c : Call) q, c.run p ≠ .error .nullDereference q) ∧
      (∀ p (c : Call) q, c.Starts → c.run p = .error .thrown q →
        q.state = .idle ∧ q.isSet thread = false) ∧
      ∀ p dvCtrl, ∃ q, destroy dvCtrl p = .ok () q ∧ ∀ m, q.isSet m = false := by
  refine ⟨?_, ?_, ?_⟩
  · obtain ⟨p₀, hp₀, hagrees⟩ := afterCall_of_ends (run_ends_of_starts hfirst (new state))
    refine ⟨p₀, hp₀, fun acts p hrun => ?_⟩
    have hp : Agrees p := hrun.invariant (fun _ _ _ hp _ hstep => agrees_step hp hstep) hagrees
    refine ⟨hp, onTimer_eq hp, fun c q hnull => ?_⟩
    have hstop := (run_ends c hp).of_error hnull
    cases hstop.thrown
  · intro p c q hc hthrown
    have hstop := (run_ends_of_starts hc p).of_error hthrown
    exact ⟨hstop.state, hstop.thread⟩
  · intro p dvCtrl
    exact ⟨destroyed, destroy_eq dvCtrl p, fun _ => rfl⟩

/-- The capture device opens and its queue cannot be made; then a playback is
built and started. -/
theorem afterFailedBuild_agrees :
    let p₀ := (destroyed.put dvInput true).put monitor true
    step (new .recording) (.call (.buildCapturing true fun c => c = .newQueue)) = some p₀ ∧
      ∃ p, Run step (fun _ _ => True) p₀
        [.call (.buildRecording true fun _ => false), .call (.startRecording true)] p ∧
        p.state = .recording ∧ Agrees p := by
  intro p₀
  obtain ⟨⟨p₁, hp₁, hruns⟩, -⟩ := state_agrees_with_objects .recording
    (.buildCapturing true fun c => c = .newQueue) trivial
  have hp₀ : step (new .recording) (.call (.buildCapturing true fun c => c = .newQueue)) = some p₀ :=
    rfl
  obtain rfl := Option.some.inj (hp₀.symm.trans hp₁)
  have hexec : ∃ p, exec step (fun _ _ => True) p₀
      [.call (.buildRecording true fun _ => false), .call (.startRecording true)] = some p ∧
      p.state = .recording := ⟨_, rfl, rfl⟩
  obtain ⟨p, hexec, hstate⟩ := hexec
  have hrun := run_of_exec hexec
  exact ⟨hp₀, p, hrun, hstate, (hruns _ p hrun).1⟩

end Pipeline

end WinDV
