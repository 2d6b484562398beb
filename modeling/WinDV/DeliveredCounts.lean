import WinDV.EachFile
import WinDV.FailureContainment

/-! The counters of a capture against what reaches the AVI graph. `HandleFrame`
reports neither a missing pointer nor a failed `Deliver` to the loop. -/

namespace WinDV

theorem CAVIWriter.finalizeFile_samples {w w' : CAVIWriter} {o : Finalization}
    (h : w.finalizeFile o = .ok w' ∨ w.finalizeFile o = .error w') : w'.samples = w.samples := by
  obtain ⟨finalfile, endsOfStream, rfl⟩ := finalizeFile_eq h
  rfl

namespace CapturingThread

variable {env : CaptureEnv} {t t' t₂ : CapturingThread} {f : Frame} {calls : Calls}

/-- What reached the AVI graphs of all files of the session. -/
def deliveredSamples (t : CapturingThread) : List Sample := t.files.flatMap (·.samples)

/-- `COutputGraph::m_time` of the open writer. -/
def clock (t : CapturingThread) : Option Int := t.aviWriter.map (·.time)

/-- The thread as `HandleFrame` finds it, its file split and a writer open. -/
def ready (env : CaptureEnv) (t : CapturingThread) (f : Frame) (calls : Calls) :
    Except CapturingThread CapturingThread := do
  let t ← (t.taken env f calls.droppedFrames).splitFile env calls.finalize
  t.openWriter env calls.created

theorem writeFrame_eq_error_iff {w : CAVIWriter} {d : DequeuedFrame} {o : Delivery}
    (hw : t.aviWriter = some w) : (∃ t', t.writeFrame env d o = .error t') ↔
      t.frameCounter.toUInt32 % env.everyNth = 0 ∧ o = .noBuffer := by
  have hisOk : (t.writeFrame env d o).isOk = _ := writeFrame_isOk hw o
  cases hwrite : t.writeFrame env d o with
  | error t' =>
    rw [hwrite] at hisOk
    refine iff_of_true ⟨t', rfl⟩ ?_
    simpa [Except.isOk, Except.toBool] using hisOk
  | ok t' =>
    rw [hwrite] at hisOk
    refine iff_of_false (by simp) ?_
    rw [not_and_or]
    simpa [Except.isOk, Except.toBool] using hisOk

/-- From `t` to `t'` the sample of the frame, and no other, reached the graph. -/
def Delivers (t t' : CapturingThread) (f : Frame) : Prop :=
  ∃ s, t'.deliveredSamples = t.deliveredSamples ++ [s] ∧ s.data = f.data

/-- Nothing counts the frame, and the clock stands still, unless it is delivered. -/
structure OnlyDelivered (env : CaptureEnv) (t : CapturingThread) (f : Frame) (calls : Calls) :
    Prop where
  counter : (t.onFrame env f calls).2.counter = t.counter ∨ Delivers t (t.onFrame env f calls).2 f
  time : (t.onFrame env f calls).2.time = t.time ∨ Delivers t (t.onFrame env f calls).2 f
  nFrames : ∀ t₂, t.ready env f calls = .ok t₂ →
    (t.onFrame env f calls).2.nFrames = t₂.nFrames ∨ Delivers t (t.onFrame env f calls).2 f
  clock : ∀ t₂, t.ready env f calls = .ok t₂ →
    (t.onFrame env f calls).2.clock = t₂.clock ∨ Delivers t (t.onFrame env f calls).2 f

/-- Where `HandleFrame` has a writer, it is called, and it throws or delivers. -/
def SampleReaches (env : CaptureEnv) (t : CapturingThread) (f : Frame) (calls : Calls) : Prop :=
  ∀ t₂, t.ready env f calls = .ok t₂ → t₂.frameCounter.toUInt32 % env.everyNth = 0 ∧
    (calls.delivery = .noBuffer ∨ calls.delivery = .delivered)

theorem deliveredSamples_of_none (h : t.aviWriter = none) :
    t.deliveredSamples = t.closed.flatMap (·.samples) := by
  rw [deliveredSamples, CDV.files, h, Option.toList_none, List.append_nil]

theorem deliveredSamples_of_some {w : CAVIWriter} (h : t.aviWriter = some w) :
    t.deliveredSamples = t.closed.flatMap (·.samples) ++ w.samples := by
  rw [deliveredSamples, CDV.files, h, Option.toList_some, List.flatMap_append, List.flatMap_singleton]

/-- Closing and opening of files. -/
structure SameCounts (t t' : CapturingThread) : Prop where
  counter : t'.counter = t.counter
  time : t'.time = t.time
  samples : t'.deliveredSamples = t.deliveredSamples

theorem SameCounts.trans (h : SameCounts t t₂) (h' : SameCounts t₂ t') : SameCounts t t' :=
  ⟨h'.counter.trans h.counter, h'.time.trans h.time, h'.samples.trans h.samples⟩

theorem closeWriter_same (t : CapturingThread) (o : Finalization) :
    Leaves (SameCounts t) (t.closeWriter o) := by
  rintro t' (h | h)
  · obtain ⟨-, rfl⟩ | ⟨w, w', phase, hw, hfinal, rfl⟩ := closeWriter_eq_ok h
    · exact ⟨rfl, rfl, rfl⟩
    · refine ⟨rfl, rfl, ?_⟩
      rw [deliveredSamples_of_some hw, deliveredSamples_of_none rfl, List.flatMap_append,
        List.flatMap_singleton, CAVIWriter.finalizeFile_samples (.inl hfinal)]
  · obtain ⟨w, w', phase, hw, hfinal, rfl⟩ := closeWriter_eq_error h
    refine ⟨rfl, rfl, ?_⟩
    rw [deliveredSamples_of_some hw, deliveredSamples_of_some rfl,
      CAVIWriter.finalizeFile_samples (.inr hfinal)]

theorem splitFile_same (env : CaptureEnv) (t : CapturingThread) (o : Finalization) :
    Leaves (SameCounts t) (t.splitFile env o) :=
  (closeWriter_same t o).splitFile ⟨rfl, rfl, rfl⟩

theorem openWriter_same (env : CaptureEnv) (t : CapturingThread) (created : Option Path) :
    Leaves (SameCounts t) (t.openWriter env created) := by
  rintro t' (h | h)
  · obtain ⟨-, rfl⟩ | ⟨hw, tmpfile, -, rfl⟩ := openWriter_eq_ok h
    · exact ⟨rfl, rfl, rfl⟩
    · refine ⟨rfl, rfl, ?_⟩
      rw [deliveredSamples_of_none hw, deliveredSamples_of_some rfl, List.append_nil]
  · obtain rfl := openWriter_eq_error h
    exact ⟨rfl, rfl, rfl⟩

theorem taken_sameCounts (env : CaptureEnv) (t : CapturingThread) (f : Frame) (drops : Int32) :
    SameCounts t (t.taken env f drops) := by
  obtain ⟨_, _, _, _, _, hnote⟩ := noteDVTime_eq env t f
  rw [taken, hnote]
  exact ⟨rfl, rfl, rfl⟩

theorem ready_same (env : CaptureEnv) (t : CapturingThread) (f : Frame) (calls : Calls) :
    Leaves (SameCounts t) (t.ready env f calls) :=
  ((splitFile_same env _ calls.finalize).imp
    fun _ h => (taken_sameCounts env t f calls.droppedFrames).trans h).bind
      fun t₁ h₁ => (openWriter_same env t₁ calls.created).imp fun _ h₂ => h₁.trans h₂

theorem captureFrame_eq_bind : (t.taken env f calls.droppedFrames).captureFrame env (t.dequeue f calls.droppedFrames)
    calls = t.ready env f calls >>= fun t₂ =>
      (t₂.writeFrame env (t.dequeue f calls.droppedFrames) calls.delivery).map
        (·.countFrame (t.dequeue f calls.droppedFrames)) := by
  rw [captureFrame, ready]
  cases (t.taken env f calls.droppedFrames).splitFile env calls.finalize with
  | error t₁ => rfl
  | ok t₁ =>
    cases h : t₁.openWriter env calls.created with
    | error t₂ =>
      simp only [bind, Except.bind, h]
    | ok t₂ =>
      simp only [bind, Except.bind, h]
      rfl

theorem onFrame_of_ready (hcap : t.state.captures = true) (h : t.ready env f calls = .ok t₂) :
    t.onFrame env f calls = orEscape .again
      ((t₂.writeFrame env (t.dequeue f calls.droppedFrames) calls.delivery).map
        (·.countFrame (t.dequeue f calls.droppedFrames))) := by
  rw [onFrame_eq, if_pos hcap, captureFrame_eq_bind, h]
  rfl

theorem onFrame_of_not_ready (hcap : t.state.captures = true)
    (h : t.ready env f calls = .error t₂) : t.onFrame env f calls = (.escaped, t₂) := by
  rw [onFrame_eq, if_pos hcap, captureFrame_eq_bind, h]
  rfl

theorem ready_isSome (h : t.ready env f calls = .ok t₂) : ∃ w, t₂.aviWriter = some w := by
  obtain ⟨t₁, -, hopen⟩ := exists_of_bind_ok h
  exact Option.isSome_iff_exists.mp (openWriter_isSome hopen)

theorem countFrame_counts (t : CapturingThread) (d : DequeuedFrame) :
    (t.countFrame d).counter = t.counter + 1 ∧ (t.countFrame d).time = t.time + d.frame.duration ∧
      (t.countFrame d).nFrames = t.nFrames ∧ (t.countFrame d).clock = t.clock ∧
      (t.countFrame d).deliveredSamples = t.deliveredSamples := by
  obtain ⟨state, captureTime, reason, -, h⟩ := countFrame_eq t d
  rw [h]
  refine ⟨rfl, rfl, rfl, ?_, ?_⟩
  · cases hw : t.aviWriter with
    | none =>
      simp only [clock, hw]
      rfl
    | some w =>
      obtain ⟨x, hback⟩ := w.backfill_eq t.dvTime
      simp only [clock, hw, Option.map_some, hback]
  · cases hw : t.aviWriter with
    | none => rw [deliveredSamples_of_none hw, deliveredSamples_of_none rfl]
    | some w =>
      obtain ⟨x, hback⟩ := w.backfill_eq t.dvTime
      have hsamples : (w.backfill t.dvTime).samples = w.samples := by rw [hback]
      rw [deliveredSamples_of_some hw, ← hsamples]
      exact deliveredSamples_of_some rfl

/-- A frame that is not delivered, though `HandleFrame` may have been called, is
counted all the same. -/
theorem counter_of_written {t₃ : CapturingThread} {d : DequeuedFrame}
    (hready : SameCounts t t₂) (h : t₂.writeFrame env d calls.delivery = .ok t₃)
    (hno : ¬ (t₂.frameCounter.toUInt32 % env.everyNth = 0 ∧ calls.delivery = .delivered)) :
    (t₃.countFrame d).counter = t.counter + 1 ∧
      (t₃.countFrame d).deliveredSamples = t.deliveredSamples := by
  obtain ⟨hcounter, -, -, -, hsamples⟩ := countFrame_counts t₃ d
  rw [hcounter, hsamples]
  obtain ⟨-, rfl⟩ | ⟨w, w', hw, hlet, hhandle, rfl⟩ := writeFrame_eq_ok h
  · exact ⟨congrArg (· + 1) hready.counter, hready.samples⟩
  · refine ⟨congrArg (· + 1) hready.counter, ?_⟩
    rw [← hready.samples, deliveredSamples_of_some hw, deliveredSamples_of_some rfl]
    cases ho : calls.delivery with
    | noBuffer =>
      rw [ho] at hhandle
      cases hhandle
    | noPointer =>
      rw [ho] at hhandle
      rw [← Option.some.inj hhandle]
    | deliverFailed =>
      rw [ho] at hhandle
      rw [← Option.some.inj hhandle]
    | delivered => exact absurd ⟨hlet, ho⟩ hno

theorem not_delivers_of_same (h : t'.deliveredSamples = t.deliveredSamples) :
    ¬ Delivers t t' f := by
  rintro ⟨s, hs, -⟩
  rw [h] at hs
  exact absurd hs (by simp)

theorem delivered_of_written {t₃ : CapturingThread} {d : DequeuedFrame} (hready : SameCounts t t₂)
    {w : CAVIWriter} (hw : t₂.aviWriter = some w) (h : t₂.writeFrame env d calls.delivery = .ok t₃)
    (hdelivered : t₂.frameCounter.toUInt32 % env.everyNth = 0 ∧ calls.delivery = .delivered) :
    (t₃.countFrame d).counter = t.counter + 1 ∧
      (t₃.countFrame d).time = t.time + d.frame.duration ∧
      (t₃.countFrame d).deliveredSamples =
        t.deliveredSamples ++ [⟨w.time, w.time + d.frame.duration, d.frame.data⟩] := by
  obtain ⟨hcounter, htime, -, -, hsamples⟩ := countFrame_counts t₃ d
  rw [hcounter, htime, hsamples]
  obtain ⟨hw' | hlet, -⟩ | ⟨w', w'', hw', -, hhandle, rfl⟩ := writeFrame_eq_ok h
  · rw [hw] at hw'
    cases hw'
  · exact absurd hdelivered.1 hlet
  · rw [hdelivered.2] at hhandle
    rw [hw] at hw'
    obtain rfl := Option.some.inj hw'
    refine ⟨congrArg (· + 1) hready.counter, congrArg (· + d.frame.duration) hready.time, ?_⟩
    rw [← hready.samples, deliveredSamples_of_some hw, deliveredSamples_of_some rfl,
      ← Option.some.inj hhandle, List.append_assoc]

theorem onlyDelivered_of_same (h : SameCounts t (t.onFrame env f calls).2)
    (hready : ∀ t₂, t.ready env f calls = .ok t₂ → (t.onFrame env f calls).2 = t₂) :
    OnlyDelivered env t f calls where
  counter := .inl h.counter
  time := .inl h.time
  nFrames t₂ ht₂ := .inl (congrArg (·.nFrames) (hready t₂ ht₂))
  clock t₂ ht₂ := .inl (congrArg (·.clock) (hready t₂ ht₂))

theorem onlyDelivered_of_delivers (h : Delivers t (t.onFrame env f calls).2 f) :
    OnlyDelivered env t f calls :=
  ⟨.inr h, .inr h, fun _ _ => .inr h, fun _ _ => .inr h⟩

/-- Without a throw the frame is counted, so it has to be delivered. -/
theorem onlyDelivered_iff_of_written {t₃ : CapturingThread} (hready : t.ready env f calls = .ok t₂)
    (hwrite : t₂.writeFrame env (t.dequeue f calls.droppedFrames) calls.delivery = .ok t₃)
    (hround : t.onFrame env f calls = (.again, t₃.countFrame (t.dequeue f calls.droppedFrames))) :
    OnlyDelivered env t f calls ↔
      t₂.frameCounter.toUInt32 % env.everyNth = 0 ∧ calls.delivery = .delivered := by
  have hsame : SameCounts t t₂ := ready_same env t f calls _ (.inl hready)
  have hresult : (t.onFrame env f calls).2 = t₃.countFrame (t.dequeue f calls.droppedFrames) :=
    congrArg Prod.snd hround
  obtain ⟨w, hw⟩ := ready_isSome hready
  by_cases hdelivered : t₂.frameCounter.toUInt32 % env.everyNth = 0 ∧ calls.delivery = .delivered
  · refine iff_of_true (onlyDelivered_of_delivers ?_) hdelivered
    obtain ⟨-, -, hsamples⟩ := delivered_of_written hsame hw hwrite hdelivered
    rw [hresult]
    exact ⟨_, hsamples, rfl⟩
  · refine iff_of_false (fun h => ?_) hdelivered
    obtain ⟨hcounter, hsamples⟩ := counter_of_written hsame hwrite hdelivered
    rw [← hresult] at hcounter hsamples
    obtain heq | hdelivers := h.counter
    · rw [heq, Int32.left_eq_add] at hcounter
      exact absurd hcounter (by decide)
    · exact not_delivers_of_same hsamples hdelivers

theorem sampleReaches_of_ready (hready : t.ready env f calls = .ok t₂) :
    SampleReaches env t f calls ↔ t₂.frameCounter.toUInt32 % env.everyNth = 0 ∧
      (calls.delivery = .noBuffer ∨ calls.delivery = .delivered) := by
  refine ⟨fun h => h t₂ hready, fun h t₃ ht₃ => ?_⟩
  rw [hready] at ht₃
  rwa [← Except.ok.inj ht₃]

theorem onlyDelivered_iff (hcap : t.state.captures = true) :
    OnlyDelivered env t f calls ↔ SampleReaches env t f calls := by
  cases hready : t.ready env f calls with
  | error t₁ =>
    have hround := onFrame_of_not_ready hcap hready
    have hno (t₂ : CapturingThread) : t.ready env f calls ≠ .ok t₂ := by
      rw [hready]
      exact nofun
    refine iff_of_true (onlyDelivered_of_same ?_ fun t₂ h => absurd h (hno t₂))
      fun t₂ h => absurd h (hno t₂)
    rw [hround]
    exact ready_same env t f calls _ (.inr hready)
  | ok t₂ =>
    have hround := onFrame_of_ready hcap hready
    obtain ⟨w, hw⟩ := ready_isSome hready
    rw [sampleReaches_of_ready hready]
    cases hwrite : t₂.writeFrame env (t.dequeue f calls.droppedFrames) calls.delivery with
    | error t₃ =>
      obtain rfl := writeFrame_eq_error hwrite
      have hthrows := (writeFrame_eq_error_iff hw).mp ⟨t₃, hwrite⟩
      rw [hwrite] at hround
      refine iff_of_true (onlyDelivered_of_same ?_ fun t₄ h => ?_) ⟨hthrows.1, .inl hthrows.2⟩
      · rw [hround]
        exact ready_same env t f calls _ (.inl hready)
      · rw [hready] at h
        rw [hround, ← Except.ok.inj h]
        rfl
    | ok t₃ =>
      rw [hwrite] at hround
      rw [onlyDelivered_iff_of_written hready hwrite hround]
      refine and_congr_right fun hlet => ?_
      have hno : calls.delivery ≠ .noBuffer := fun hthrow => by
        obtain ⟨t₄, ht₄⟩ := (writeFrame_eq_error_iff (d := t.dequeue f calls.droppedFrames) hw).mpr
          ⟨hlet, hthrow⟩
        rw [hwrite] at ht₄
        cases ht₄
      exact ⟨.inr, fun h => h.resolve_left hno⟩

end CapturingThread

namespace CaptureLoop

open CapturingThread Transition

variable {env : CaptureEnv} {s t : CaptureLoop} {acts : List CaptureAction}

/-- A frame dequeued while capturing, of which `P` holds. -/
def CapturesFrame (P : CapturingThread → Frame → Calls → Prop) (s : CaptureLoop) :
    CaptureAction → Prop
  | .round ⟨.frame f, calls⟩ => s.2.state = .capturing ∧ P s.2 f calls
  | _ => False

theorem capturesFrame_congr {P Q : CapturingThread → Frame → Calls → Prop}
    (h : ∀ t f calls, t.state = .capturing → (P t f calls ↔ Q t f calls)) (s : CaptureLoop)
    (a : CaptureAction) : CapturesFrame P s a ↔ CapturesFrame Q s a := by
  cases a with
  | command c => exact Iff.rfl
  | round r =>
    obtain ⟨got, calls⟩ := r
    cases got with
    | frame f => exact and_congr_right fun hstate => h _ _ _ hstate
    | timeout => exact Iff.rfl
    | endOfStream => exact Iff.rfl

/-- In a segment of captured frames only delivered frames are counted, exactly
when each `HandleFrame` that is not skipped or thrown out of delivers. -/
theorem only_delivered_counted_iff (env : CaptureEnv) (s t : CaptureLoop)
    (acts : List CaptureAction) :
    Run (step env) (CapturesFrame (OnlyDelivered env)) s acts t ↔
      Run (step env) (CapturesFrame (SampleReaches env)) s acts t := by
  have hiff : ∀ s a, CapturesFrame (OnlyDelivered env) s a ↔ CapturesFrame (SampleReaches env) s a :=
    capturesFrame_congr fun t f calls hstate => onlyDelivered_iff (by rw [hstate]; rfl)
  exact ⟨fun h => h.mono fun s a => (hiff s a).mp, fun h => h.mono fun s a => (hiff s a).mpr⟩

def firstFrame : List CaptureAction := [.command (.start ⟨"C:\\tape.avi".toList, [], 0, 0⟩)]

/-- With the disk full, `Deliver` fails on the first frame. -/
def undelivered : Calls := { plainCalls with delivery := .deliverFailed }

theorem undelivered_counted : ∃ s : CaptureLoop,
    Run (step (shortFrameEnv 10)) (fun _ _ => True)
      (start (shortFrameEnv 10) (.buildCapturing [] [] 0 {}) 0) firstFrame s ∧
    s.2.state = .capturing ∧ ¬ OnlyDelivered (shortFrameEnv 10) s.2 ⟨400000, [1]⟩ undelivered ∧
    (s.2.onFrame (shortFrameEnv 10) ⟨400000, [1]⟩ undelivered).2.counter = 1 ∧
    (s.2.onFrame (shortFrameEnv 10) ⟨400000, [1]⟩ undelivered).2.time = 400000 ∧
    (s.2.onFrame (shortFrameEnv 10) ⟨400000, [1]⟩ undelivered).2.nFrames = 1 ∧
    (s.2.onFrame (shortFrameEnv 10) ⟨400000, [1]⟩ undelivered).2.clock = some 400000 ∧
    (s.2.onFrame (shortFrameEnv 10) ⟨400000, [1]⟩ undelivered).2.deliveredSamples = [] := by
  have hrun : Run (step (shortFrameEnv 10)) (fun _ _ => True)
    (start (shortFrameEnv 10) (.buildCapturing [] [] 0 {}) 0) firstFrame _ := run_of_exec rfl
  refine ⟨_, hrun, rfl, fun h => ?_, rfl, rfl, rfl, rfl, rfl⟩
  obtain hcounter | ⟨x, hx, -⟩ := h.counter
  · exact absurd hcounter (by decide)
  · have hlen : 0 = 1 := congrArg List.length hx
    cases hlen

end CaptureLoop

end WinDV
