import WinDV.CaptureFiled

/-! End Capture: from the moment the capture runs until the worker thread has
returned, every frame that the queue accepts goes to the files. -/

namespace WinDV

open Transition

namespace CapturingThread

variable {env : CaptureEnv} {t t' : CapturingThread}

/-- The calls for the files leave alone what the tests of the loop read. -/
def Steady (t t' : CapturingThread) : Prop :=
  t'.state = t.state ∧ t'.captureTime = t.captureTime ∧ t'.dequeued = t.dequeued

theorem steady_closeWriter {o : Finalization}
    (h : t.closeWriter o = .ok t' ∨ t.closeWriter o = .error t') : Steady t t' := by
  rcases h with h | h
  · rcases closeWriter_eq_ok h with ⟨-, rfl⟩ | ⟨v, v', phase, -, -, rfl⟩ <;> exact ⟨rfl, rfl, rfl⟩
  · obtain ⟨v, v', phase, -, -, rfl⟩ := closeWriter_eq_error h
    exact ⟨rfl, rfl, rfl⟩

theorem steady_splitFile {o : Finalization}
    (h : t.splitFile env o = .ok t' ∨ t.splitFile env o = .error t') : Steady t t' := by
  rcases h with h | h
  · rcases splitFile_eq_ok h with ⟨-, rfl⟩ | ⟨-, hclose⟩
    · exact ⟨rfl, rfl, rfl⟩
    · exact steady_closeWriter (.inl hclose)
  · exact steady_closeWriter (.inr (splitFile_eq_error h))

theorem steady_openWriter {created : Option Path}
    (h : t.openWriter env created = .ok t' ∨ t.openWriter env created = .error t') : Steady t t' := by
  rcases h with h | h
  · rcases openWriter_eq_ok h with ⟨-, rfl⟩ | ⟨-, tmpfile, -, rfl⟩ <;> exact ⟨rfl, rfl, rfl⟩
  · rw [openWriter_eq_error h]
    exact ⟨rfl, rfl, rfl⟩

theorem steady_writeFrame {d : DequeuedFrame} {o : Delivery}
    (h : t.writeFrame env d o = .ok t' ∨ t.writeFrame env d o = .error t') : Steady t t' := by
  rcases h with h | h
  · rcases writeFrame_eq_ok h with ⟨-, rfl⟩ | ⟨v, v', -, -, -, rfl⟩ <;> exact ⟨rfl, rfl, rfl⟩
  · rw [writeFrame_eq_error h]
    exact ⟨rfl, rfl, rfl⟩

end CapturingThread

namespace CaptureWorker

variable {env : CaptureEnv} {n : Nat} {w w' : CaptureWorker}

/-- From its frame number `n` on the thread captures what it takes, as long as it is in
its loop. -/
structure Keeps (n : Nat) (w : CaptureWorker) : Prop where
  live : w.left = false → w.state.captures = true
  untimed : w.captureTime = 0
  unlimited : w.pc ≠ .limitStore
  settled : ∀ f drops, w.pc = .testFinalizing f drops → n ≤ w.dequeued.length →
    w.state = .captureFinalizing
  late : ∀ d ∈ w.dequeued.drop n, d.state.captures = true

theorem Keeps.steady {t t' : CapturingThread} {pc pc' : WorkerPC} (h : Keeps n ⟨t, pc⟩)
    (ht : CapturingThread.Steady t t') (hleft : left ⟨t, pc⟩ = true → left ⟨t', pc'⟩ = true)
    (hlimit : pc' ≠ .limitStore) (htest : ∀ f drops, pc' ≠ .testFinalizing f drops) :
    Keeps n ⟨t', pc'⟩ := by
  obtain ⟨hstate, htime, hdequeued⟩ := ht
  refine ⟨fun hl => ?_, htime.trans h.untimed, hlimit, fun f drops hpc => absurd hpc (htest f drops), ?_⟩
  · rw [hstate]
    apply h.live
    by_contra hne
    rw [hleft (by simpa using hne)] at hl
    cases hl
  · rw [hdequeued]
    exact h.late

theorem Keeps.continues {t : CapturingThread} {pc next : WorkerPC} (h : Keeps n ⟨t, pc⟩)
    {x : Except CapturingThread CapturingThread}
    (hx : ∀ t', x = .ok t' ∨ x = .error t' → CapturingThread.Steady t t')
    (hleft : left ⟨t, pc⟩ = true → ∀ t', left ⟨t', next⟩ = true) (hlimit : next ≠ .limitStore)
    (htest : ∀ f drops, next ≠ .testFinalizing f drops) : Keeps n (goOn x next) := by
  cases x with
  | ok t' => exact h.steady (hx t' (.inl rfl)) (fun hl => hleft hl t') hlimit htest
  | error t' => exact h.steady (hx t' (.inr rfl)) (fun _ => rfl) (by simp) (by simp)

theorem Keeps.taken {t : CapturingThread} {pc pc' : WorkerPC} (h : Keeps n ⟨t, pc⟩)
    {d : DequeuedFrame} (hd : n ≤ t.dequeued.length → d.state.captures = true)
    (hleft : left ⟨t, pc⟩ = false) (hlimit : pc' ≠ .limitStore)
    (htest : ∀ f drops, pc' ≠ .testFinalizing f drops) : Keeps n ⟨take t d, pc'⟩ := by
  refine ⟨fun _ => h.live hleft, h.untimed, hlimit, fun f drops hpc => absurd hpc (htest f drops), ?_⟩
  intro e he
  have he : e ∈ (t.dequeued ++ [d]).drop n := he
  by_cases hn : n ≤ t.dequeued.length
  · rw [List.drop_append_of_le_length hn] at he
    rcases List.mem_append.mp he with he | he
    · exact h.late e he
    · rw [List.mem_singleton.mp he]
      exact hd hn
  · rw [List.drop_eq_nil_of_le (by simp; omega)] at he
    cases he

theorem Keeps.step {r : Round} (h : Keeps n w) (hget : w.pc = .get → ∃ f, r.got = .frame f)
    (hstep : w.step env r = some w') : Keeps n w' := by
  obtain ⟨t, pc⟩ := w
  have hsame : CapturingThread.Steady t t := ⟨rfl, rfl, rfl⟩
  have hcaptures (hl : left ⟨t, pc⟩ = false) : t.state = .capturing ∨ t.state = .captureFinalizing := by
    simpa [CDVState.captures] using h.live hl
  cases pc with
  | top =>
    obtain rfl := Option.some.inj hstep
    have hidle : t.state ≠ .idle := by rcases hcaptures rfl with hs | hs <;> simp [hs]
    rw [if_neg hidle]
    exact h.steady hsame (by simp [left]) (by simp) (by simp)
  | get =>
    obtain ⟨f, hf⟩ := hget rfl
    simp only [CaptureWorker.step, hf, Option.ite_none_right_eq_some, Option.some.injEq] at hstep
    obtain ⟨-, rfl⟩ := hstep
    obtain ⟨deltaDVTime, oldDVTime, dvTime, first, last, heq⟩ := t.noteDVTime_eq env f
    rw [heq]
    exact h.steady ⟨rfl, rfl, rfl⟩ (by simp [left]) (by simp) (by simp)
  | endTest =>
    obtain rfl := Option.some.inj hstep
    have hidle : t.state ≠ .idle := by rcases hcaptures rfl with hs | hs <;> simp [hs]
    rw [if_neg hidle]
    exact h.steady hsame (by simp [left]) (by simp) (by simp)
  | endStore | timeoutStore =>
    obtain rfl := Option.some.inj hstep
    exact ⟨fun hl => absurd hl (by simp [left]), h.untimed, by simp, by simp, h.late⟩
  | timeoutTest =>
    obtain rfl := Option.some.inj hstep
    split
    · exact h.steady hsame (by simp [left]) (by simp) (by simp)
    · exact h.steady hsame (by simp [left]) (by simp) (by simp)
  | test f drops =>
    simp only [CaptureWorker.step] at hstep
    split at hstep <;> obtain rfl := Option.some.inj hstep
    · next hcap =>
      exact h.taken (fun _ => by simp [CapturingThread.dequeue, hcap, CDVState.captures]) rfl (by simp)
        (by simp)
    · next hcap =>
      exact ⟨h.live, h.untimed, by simp, fun _ _ _ _ => (hcaptures rfl).resolve_left hcap, h.late⟩
  | testFinalizing f drops =>
    simp only [CaptureWorker.step] at hstep
    split at hstep <;> obtain rfl := Option.some.inj hstep
    · next hfin =>
      exact h.taken (fun _ => by simp [CapturingThread.dequeue, hfin, CDVState.captures]) rfl (by simp)
        (by simp)
    · next hfin =>
      exact h.taken (fun hn => absurd (h.settled f drops rfl hn) hfin) rfl (by simp) (by simp)
  | split d =>
    obtain rfl := Option.some.inj hstep
    exact h.continues (fun _ => CapturingThread.steady_splitFile) (by simp [left]) (by simp) (by simp)
  | openFile d =>
    obtain rfl := Option.some.inj hstep
    exact h.continues (fun _ => CapturingThread.steady_openWriter) (by simp [left]) (by simp) (by simp)
  | write d =>
    obtain rfl := Option.some.inj hstep
    exact h.continues (fun _ => CapturingThread.steady_writeFrame) (by simp [left]) (by simp) (by simp)
  | count d =>
    obtain rfl := Option.some.inj hstep
    have hlimit : (t.countUp d).limitHit = false := by
      have htime : (t.countUp d).captureTime = 0 := h.untimed
      simp [CapturingThread.limitHit, htime]
    rw [hlimit]
    exact h.steady ⟨rfl, rfl, rfl⟩ (by simp [left]) (by simp) (by simp)
  | limitStore => exact absurd rfl h.unlimited
  | noteDropped =>
    obtain rfl := Option.some.inj hstep
    exact h.steady ⟨rfl, rfl, rfl⟩ (by simp [left]) (by simp) (by simp)
  | pauseClose | exitClose =>
    obtain rfl := Option.some.inj hstep
    exact h.continues (fun _ => CapturingThread.steady_closeWriter) (by simp [left]) (by simp) (by simp)
  | pauseReset =>
    obtain rfl := Option.some.inj hstep
    rw [t.resetCounters_eq]
    exact h.steady ⟨rfl, rfl, rfl⟩ (by simp [left]) (by simp) (by simp)
  | verify =>
    obtain rfl := Option.some.inj hstep
    obtain ⟨phase, last, capStats, log, heq⟩ := t.verifyAndLog_eq env
    rw [heq]
    exact h.steady ⟨rfl, rfl, rfl⟩ (fun _ => rfl) (by simp) (by simp)
  | returned => cases hstep
  | escaped => cases hstep

theorem left_of_left {r : Round} (hstep : w.step env r = some w') (h : w.left = true) :
    w'.left = true := by
  obtain ⟨t, pc⟩ := w
  cases pc with
  | exitClose =>
    obtain rfl := Option.some.inj hstep
    cases t.closeWriter r.calls.finalize <;> rfl
  | verify =>
    obtain rfl := Option.some.inj hstep
    rfl
  | returned | escaped => cases hstep
  | _ => cases h

end CaptureWorker

namespace CaptureThreads

variable {env : CaptureEnv} {queueSize dataSize n : Nat} {s t : CaptureThreads}

/-- `Destroy` is not called, and `m_end` is not written between an empty-ring test of the
worker and its read of `m_end` when a frame came into the ring after that test. -/
def Orderly (s : CaptureThreads) (a : ThreadsAction) : Prop :=
  a ≠ .call .destroy ∧ (a = .finalizer → s.queue.SetsEndQuietly .finalizer)

instance (s : CaptureThreads) (a : ThreadsAction) : Decidable (s.Orderly a) :=
  inferInstanceAs (Decidable (_ ∧ (_ → _)))

theorem ui_of_uiStep {l l' : LiveCapture} (h : l.uiStep = some l') : l'.ui ≠ .destroyWait := by
  unfold LiveCapture.uiStep at h
  split at h
  case h_1 | h_10 => cases h
  case h_8 | h_9 =>
    dsimp only at h
    split at h
    · obtain rfl := Option.some.inj h
      simp
    · cases h
  case h_5 =>
    obtain rfl := Option.some.inj h
    dsimp only
    split <;> simp
  all_goals
    obtain rfl := Option.some.inj h
    simp

/-- Without `Destroy` the end of the stream comes after the last frame. -/
structure Ending (s : CaptureThreads) : Prop where
  queue : s.queue.EndInv
  dialog : s.live.ui ≠ .destroyWait

theorem Ending.step (h : s.Ending) {a : ThreadsAction} (hok : s.Orderly a) (hstep : Steps env s a t) :
    t.Ending := by
  have hqueue {b : QueueAction} {q : QueueThreads} (hfin : b = .finalize → s.queue.producer = .stopped)
      (hput : b = .finalizer → a = .finalizer) (hq : s.queue.step b = some q) : q.EndInv := by
    apply h.queue.step hfin _ (QueueThreads.steps_of_step hq)
    rintro rfl
    exact hok.2 (hput rfl) rfl
  cases hstep with
  | source a b q ha hb hfin hput hq =>
    exact ⟨hqueue (fun hf => (hfin hf).resolve_right h.dialog) hput hq, h.dialog⟩
  | deviceEnded q q' hq hq' =>
    have hstopped : q.producer = .stopped := by
      have hsteps := QueueThreads.steps_of_step hq
      cases hsteps
      rfl
    have hend : q.EndInv := hqueue (by simp) (by simp) hq
    refine ⟨hend.step (fun _ => hstopped) ?_ (QueueThreads.steps_of_step hq'), h.dialog⟩
    intro hf
    cases hf
  | expired q hq => exact ⟨hqueue (by simp) (by simp) hq, h.dialog⟩
  | calling calls b q hpc hb hq hsame hcall =>
    refine ⟨hqueue ?_ ?_ hq, h.dialog⟩
    · rintro rfl
      exact (hb trivial).elim
    · rintro rfl
      exact (hb trivial).elim
  | gotFrame calls v c q w hpc hc hq hw =>
    refine ⟨?_, h.dialog⟩
    apply hqueue (b := .consumer c) (by simp) (by simp)
    simp [QueueThreads.step, QueueThreads.consumerStep, hc, hq]
  | concluded calls c q pc hpc hq hsame hafter => exact ⟨hqueue (by simp) (by simp) hq, h.dialog⟩
  | worked calls w hpc hw => exact ⟨h.queue, h.dialog⟩
  | called k hui =>
    refine ⟨h.queue, ?_⟩
    cases k with
    | start a | stop | finalize =>
      show (LiveCapture.call _ _).ui ≠ _
      simp only [LiveCapture.call]
      split <;> simp
    | destroy => exact absurd rfl hok.1
  | dialog l hl hwait => exact ⟨h.queue, ui_of_uiStep hl⟩

/-- What the dialog may still do to a capture that it does not stop. -/
def EndsOnly (left : Bool) (state : CDVState) : UIPC → Prop
  | .idle | .finalizeSecond | .finalizeRead => state ≠ .captureFinalizing
  | .finalizeStore writeQueuedFrames =>
    state ≠ .captureFinalizing ∧ (left = false → writeQueuedFrames = true)
  | .finalizeWait => True
  | _ => False

/-- The capture runs, or End Capture brings it to its end. -/
structure Recording (n : Nat) (s : CaptureThreads) : Prop where
  keeps : s.live.worker.Keeps n
  state : s.live.worker.state = .capturing ∨ s.live.worker.state = .captureFinalizing ∨
    s.live.worker.state = .finished
  dialog : EndsOnly s.live.worker.left s.live.worker.state s.live.ui

theorem EndsOnly.worker {left left' : Bool} {state state' : CDVState} {ui : UIPC}
    (h : EndsOnly left state ui) (hleft : left = true → left' = true)
    (hstate : state' = state ∨ state' = .finished) : EndsOnly left' state' ui := by
  have hne (hs : state ≠ .captureFinalizing) : state' ≠ .captureFinalizing := by
    rcases hstate with rfl | rfl
    · exact hs
    · simp
  cases ui with
  | idle | finalizeSecond | finalizeRead => exact hne h
  | finalizeStore b =>
    refine ⟨hne h.1, fun hl => h.2 ?_⟩
    cases left with
    | true => exact absurd (hleft rfl) (by simp [hl])
    | false => rfl
  | finalizeWait => trivial
  | startAssign | startStore | stopStore | destroyWait | destroyed => exact h

theorem Recording.worker (h : s.Recording n) {r : Round} {w : CaptureWorker}
    (hget : s.live.worker.pc = .get → ∃ f, r.got = .frame f)
    (hw : s.live.worker.step env r = some w) :
    w.Keeps n ∧ (w.state = .capturing ∨ w.state = .captureFinalizing ∨ w.state = .finished) ∧
      EndsOnly w.left w.state s.live.ui := by
  have hstate := CaptureWorker.step_state hw
  refine ⟨h.keeps.step hget hw, ?_, h.dialog.worker (CaptureWorker.left_of_left hw) hstate⟩
  rcases hstate with hs | hs
  · rw [hs]
    exact h.state
  · exact .inr (.inr hs)

theorem Recording.called (h : s.Recording n) {k : Command} (hstop : k ≠ .stop) (hdestroy : k ≠ .destroy)
    (hui : s.live.ui = .idle) :
    Recording n { s with live := LiveCapture.call s.live.worker k } := by
  have hdialog := h.dialog
  rw [hui] at hdialog
  cases k with
  | start a =>
    have hpaused : s.live.worker.state ≠ .capturePaused := by
      rcases h.state with hs | hs | hs <;> simp [hs]
    simp only [LiveCapture.call, if_neg hpaused]
    exact ⟨h.keeps, h.state, hdialog⟩
  | stop => exact absurd rfl hstop
  | finalize =>
    refine ⟨h.keeps, h.state, ?_⟩
    simp only [LiveCapture.call]
    split <;> exact hdialog
  | destroy => exact absurd rfl hdestroy

theorem Recording.uiStep (h : s.Recording n) {l : LiveCapture} (hl : s.live.uiStep = some l) :
    Recording n { s with live := l } := by
  obtain ⟨hkeeps, hstate, hdialog⟩ := h
  obtain ⟨q, ⟨w, ui⟩, buffer⟩ := s
  dsimp only at hkeeps hstate hdialog hl
  cases ui with
  | idle => cases hl
  | finalizeSecond =>
    obtain rfl := Option.some.inj hl
    have hpaused : w.state ≠ .capturePaused := by
      rcases hstate with hs | hs | hs <;> simp [hs]
    refine ⟨hkeeps, hstate, ?_⟩
    simp only [if_neg hpaused]
    exact hdialog
  | finalizeRead =>
    obtain rfl := Option.some.inj hl
    refine ⟨⟨hkeeps.live, rfl, hkeeps.unlimited, hkeeps.settled, hkeeps.late⟩, hstate, hdialog, ?_⟩
    intro hleft
    have hcaptures := hkeeps.live hleft
    simpa [CDVState.captures, show w.state ≠ .captureFinalizing from hdialog] using hcaptures
  | finalizeStore b =>
    obtain rfl := Option.some.inj hl
    refine ⟨⟨fun hleft => ?_, hkeeps.untimed, hkeeps.unlimited, fun f drops hpc hn => ?_, hkeeps.late⟩,
      ?_, trivial⟩
    · obtain rfl := hdialog.2 hleft
      rfl
    · exact absurd (hkeeps.settled f drops hpc hn) hdialog.1
    · cases b
      · exact .inr (.inr rfl)
      · exact .inr (.inl rfl)
  | finalizeWait =>
    simp only [LiveCapture.uiStep, Option.ite_none_right_eq_some, Option.some.injEq] at hl
    obtain ⟨hended, rfl⟩ := hl
    have hpc : w.pc = .returned ∨ w.pc = .escaped := by
      simpa [CaptureWorker.hasEnded] using hended
    refine ⟨⟨fun hleft => ?_, hkeeps.untimed, hkeeps.unlimited, fun f drops htest _ => ?_, hkeeps.late⟩,
      .inr (.inr rfl), ?_⟩
    · have hleft : w.left = false := hleft
      rcases hpc with hpc | hpc <;> simp [CaptureWorker.left, hpc] at hleft
    · have htest : w.pc = .testFinalizing f drops := htest
      rcases hpc with hpc | hpc <;> simp [hpc] at htest
    · show CDVState.finished ≠ .captureFinalizing
      simp
  | startAssign | startStore | stopStore | destroyWait | destroyed => exact hdialog.elim

theorem left_of_concludes {t : CapturingThread} {consumer : ConsumerPc} {pc : WorkerPC}
    (h : Concludes consumer pc) : CaptureWorker.left ⟨t, pc⟩ = false := by
  cases h <;> rfl

theorem ne_of_concludes {consumer : ConsumerPc} {pc : WorkerPC} (h : Concludes consumer pc) :
    pc ≠ .limitStore ∧ ∀ f drops, pc ≠ .testFinalizing f drops := by
  cases h <;> simp

theorem Recording.step (h : s.Recording n) (hlinked : Linked queueSize dataSize s) {a : ThreadsAction}
    (hok : s.Orderly a ∧ a ≠ .call .stop) (hstep : Steps env s a t) : t.Recording n := by
  cases hstep with
  | source | deviceEnded | expired | calling => exact ⟨h.keeps, h.state, h.dialog⟩
  | gotFrame calls v c q w hpc hc hq hw =>
    obtain ⟨hkeeps, hstate, hdialog⟩ := h.worker (fun _ => ⟨_, rfl⟩) hw
    exact ⟨hkeeps, hstate, hdialog⟩
  | concluded calls c q pc hpc hq hsame hafter =>
    have hleft : s.live.worker.left = false := by simp [CaptureWorker.left, hpc]
    have hleft' : CaptureWorker.left ⟨s.live.worker.toCapturingThread, pc⟩ = false := left_of_concludes hafter
    refine ⟨⟨fun _ => h.keeps.live hleft, h.keeps.untimed, ?_, fun f drops htest => ?_, h.keeps.late⟩,
      h.state, ?_⟩
    · exact (ne_of_concludes hafter).1
    · exact absurd htest ((ne_of_concludes hafter).2 f drops)
    · have hdialog := h.dialog
      rw [hleft, ← hleft'] at hdialog
      exact hdialog
  | worked calls w hpc hw =>
    rw [hlinked.rereading_eq] at hw
    obtain ⟨hkeeps, hstate, hdialog⟩ := h.worker (fun hget => absurd hget hpc) hw
    exact ⟨hkeeps, hstate, hdialog⟩
  | called k hui =>
    apply h.called _ _ hui
    · rintro rfl
      exact hok.2 rfl
    · rintro rfl
      exact hok.1.1 rfl
  | dialog l hl hwait => exact h.uiStep hl

/-- Where a capture starts, the frame at hand is the last that may be left out. -/
theorem recording_of_capturing (hlinked : Linked queueSize dataSize s)
    (hstate : s.live.worker.state = .capturing) (hui : s.live.ui = .idle)
    (huntimed : s.live.worker.captureTime = 0) (hlimit : s.live.worker.pc ≠ .limitStore) :
    s.Recording s.queue.returned.length := by
  have htaken := congrArg List.length hlinked.taken
  rw [List.length_append, List.length_map] at htaken
  refine ⟨⟨fun _ => by rw [hstate]; rfl, huntimed, hlimit, fun f drops hpc hn => ?_, fun d hd => ?_⟩,
    .inl hstate, ?_⟩
  · rw [hpc] at htaken
    simp only [WorkerPC.inHand, List.length_singleton] at htaken
    omega
  · rw [List.drop_eq_nil_of_le (by omega)] at hd
    cases hd
  · rw [hui, hstate]
    simp [EndsOnly]

/-- What was accepted since the capture started is the last that the writers were handed. -/
theorem kept_at_end {captureFilename dtformat : CString} {ndigits : Int32} {last : AVICheckResult}
    {drops : Int32} {memory : Nat → Buffer} {before acts : List ThreadsAction} (hnth : env.everyNth = 1)
    (hbefore : Run (step env) Orderly (start env (.buildCapturing captureFilename dtformat ndigits
      last) drops queueSize dataSize memory) before s)
    (hstate : s.live.worker.state = .capturing) (hui : s.live.ui = .idle)
    (huntimed : s.live.worker.captureTime = 0) (hlimit : s.live.worker.pc ≠ .limitStore)
    (hrun : Run (step env) (fun u a => u.Orderly a ∧ a ≠ .call .stop) s acts t)
    (hended : t.queue.consumer = .ended) (hreturned : t.live.worker.pc = .returned) :
    (t.queue.accepted.drop s.queue.returned.length).map (·.clamp dataSize) <:+
      t.live.worker.filed.map (·.frame) := by
  have hsound := sound_of_run hbefore
  have hending : s.Ending := by
    apply hbefore.invariant
    · exact fun _ _ _ h hok hstep => h.step hok (steps_of_step hstep)
    · refine ⟨QueueThreads.start_endInv _ _ _, ?_⟩
      simp [start, LiveCapture.start]
  have hkeep : Sound env queueSize dataSize t ∧ t.Ending ∧ t.Recording s.queue.returned.length := by
    apply hrun.invariant
    · intro u a v h hok hstep
      have hsteps := steps_of_step hstep
      exact ⟨h.1.step hstep, h.2.1.step hok.1 hsteps, h.2.2.step h.1.linked hok hsteps⟩
    · exact ⟨hsound, hending, recording_of_capturing hsound.linked hstate hui huntimed hlimit⟩
  obtain ⟨ht, hend, hrecording⟩ := hkeep
  have hin : t.live.worker.pc.inHand = [] ∧ t.live.worker.pc.unwritten = [] := by
    rw [hreturned]
    exact ⟨rfl, rfl⟩
  have hall : t.queue.accepted.map (·.clamp dataSize) = t.live.worker.dequeued.map (·.frame) := by
    have htaken := ht.linked.taken
    rw [hin.1, List.append_nil] at htaken
    rw [htaken, ← ht.linked.fifo.dataSize_eq]
    exact hend.queue.allReturned (.inr hended)
  have hfiled := ht.filed.all hnth (by simp [hreturned])
  rw [hin.2, List.append_nil, CapturingThread.chosen] at hfiled
  have hlate := List.filter_eq_self.mpr hrecording.keeps.late
  rw [List.map_drop, hall, ← List.map_drop, ← hlate, hfiled]
  exact ((List.drop_suffix _ _).filter _).map _

/-- A capture that is neither stopped nor timed: once the worker has come to the end of the
stream and returned, every frame that was in the queue when `StartCapturing` had returned,
or was accepted later, was handed to the writers of the files, in order and as their last
frames, and where the deliveries succeed the mux got their data. -/
theorem end_capture_keeps_frames (env : CaptureEnv) (hnth : env.everyNth = 1)
    (captureFilename dtformat : CString) (ndigits : Int32) (last : AVICheckResult)
    (drops : Int32) (queueSize dataSize : Nat) (memory : Nat → Buffer) (before acts : List ThreadsAction)
    (s t : CaptureThreads)
    (hbefore : Run (step env) Orderly (start env (.buildCapturing captureFilename dtformat ndigits
      last) drops queueSize dataSize memory) before s)
    (hstate : s.live.worker.state = .capturing) (hui : s.live.ui = .idle)
    (huntimed : s.live.worker.captureTime = 0) (hlimit : s.live.worker.pc ≠ .limitStore)
    (hrun : Run (step env) (fun u a => u.Orderly a ∧ a ≠ .call .stop) s acts t)
    (hended : t.queue.consumer = .ended) (hreturned : t.live.worker.pc = .returned) :
    (t.queue.accepted.drop s.queue.returned.length).map (·.clamp dataSize) <:+
        t.live.worker.filed.map (·.frame) ∧
      ((∀ a ∈ before ++ acts, Delivers a) →
        (t.queue.accepted.drop s.queue.returned.length).map (fun f => (f.clamp dataSize).data) <:+
          t.live.worker.contents.flatMap Prod.snd) ∧
      ((∀ a ∈ before ++ acts, Timely a) → InBlock queueSize dataSize memory t) := by
  have hwhole : Run (step env) anyStep (start env (.buildCapturing captureFilename dtformat ndigits
      last) drops queueSize dataSize memory) (before ++ acts) t :=
    (hbefore.mono fun _ _ _ => trivial).trans (hrun.mono fun _ _ _ => trivial)
  have hkept := kept_at_end hnth hbefore hstate hui huntimed hlimit hrun hended hreturned
  refine ⟨hkept, fun hall => ?_, inBlock_of_run hwhole⟩
  have hdata : t.live.worker.contents.flatMap Prod.snd =
      (t.live.worker.filed.map (·.frame)).map Frame.data := by
    rw [CapturingThread.filed, List.map_map, List.map_flatMap]
    exact List.flatMap_congr fun c hc => delivered_of_run hwhole hall c hc
  rw [hdata]
  have hsuffix := hkept.map Frame.data
  rw [List.map_map] at hsuffix
  exact hsuffix

theorem end_capture_keeps_two : ∃ s t : CaptureThreads,
    Run (step (CaptureLoop.shortFrameEnv 10)) Orderly quietCamera startedLate s ∧
      Run (step (CaptureLoop.shortFrameEnv 10)) (fun u a => u.Orderly a ∧ a ≠ .call .stop) s
        endedCapture t ∧
      (t.queue.accepted.drop s.queue.returned.length).map (·.clamp 2) =
        [⟨400000, [3, 4]⟩, ⟨400000, [5, 6]⟩] ∧
      (t.queue.accepted.drop s.queue.returned.length).map (·.clamp 2) <:+
        t.live.worker.filed.map (·.frame) ∧
      (t.queue.accepted.drop s.queue.returned.length).map (fun f => (f.clamp 2).data) <:+
        t.live.worker.contents.flatMap Prod.snd := by
  have hboth : ((exec (step (CaptureLoop.shortFrameEnv 10)) Orderly quietCamera startedLate).any
      fun s => s.live.worker.state = .capturing ∧ s.live.ui = .idle ∧ s.live.worker.captureTime = 0 ∧
        s.live.worker.pc ≠ .limitStore ∧
        (exec (step (CaptureLoop.shortFrameEnv 10)) (fun u a => u.Orderly a ∧ a ≠ .call .stop) s
          endedCapture).any (fun t => t.queue.consumer = .ended ∧ t.live.worker.pc = .returned ∧
            (t.queue.accepted.drop s.queue.returned.length).map (·.clamp 2) =
              [⟨400000, [3, 4]⟩, ⟨400000, [5, 6]⟩]) = true) = true := by decide +kernel
  obtain ⟨s, hs, hcapturing⟩ := (Option.any_eq_true _ _).mp hboth
  obtain ⟨hstate, hui, huntimed, hlimit, hrest⟩ := of_decide_eq_true hcapturing
  obtain ⟨t, ht, hreturned⟩ := (Option.any_eq_true _ _).mp hrest
  obtain ⟨hended, hpc, hframes⟩ := of_decide_eq_true hreturned
  refine ⟨s, t, run_of_exec hs, run_of_exec ht, hframes, ?_⟩
  obtain ⟨hfiled, hdata, -⟩ := end_capture_keeps_frames _ rfl _ _ _ _ _ 2 2 _ _ _ _ _ (run_of_exec hs)
    hstate hui huntimed hlimit (run_of_exec ht) hended hpc
  exact ⟨hfiled, hdata (by decide)⟩

end CaptureThreads

end WinDV
