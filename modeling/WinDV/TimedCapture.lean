import WinDV.DeliveredCounts
import WinDV.EachFile
import WinDV.ShortestPrefix

/-! A capture with a time limit takes in the frames up to the one that reaches
the limit, and none after it. -/

namespace WinDV

def frameDuration (d : DequeuedFrame) : Int := d.frame.duration

/-- The frames of one file that its writer is handed. -/
def decimated (env : CaptureEnv) (ds : List DequeuedFrame) : List DequeuedFrame :=
  thinned (fun i => UInt32.ofNat i % env.everyNth = 0) ds

theorem decimated_one {env : CaptureEnv} (h : env.everyNth = 1) (ds : List DequeuedFrame) :
    decimated env ds = ds := by
  refine thinned_all (fun i => ?_) ds
  rw [h, UInt32.mod_one]
  rfl

namespace CapturingThread

variable {env : CaptureEnv} {t t' t₂ t₃ : CapturingThread} {f : Frame} {calls : Calls}

def capturedFrames (t : CapturingThread) : List DequeuedFrame := t.counted.map (·.1)

/-- The captured frames lie in the files, those of the open one in `last`. -/
structure Filed (env : CaptureEnv) (t : CapturingThread) (closed : List (List DequeuedFrame))
    (last : List DequeuedFrame) : Prop where
  frames : t.capturedFrames = closed.flatten ++ last
  closed : t.closed.map (·.handed) = closed.map (decimated env)
  opened : ∀ w, t.aviWriter = some w →
    w.handed = decimated env last ∧ t.frameCounter = Int32.ofNat last.length
  unopened : t.aviWriter = none → last = []

/-- What does not change between two frames. -/
structure SameLimit (t t' : CapturingThread) : Prop where
  counted : t'.counted = t.counted
  counter : t'.counter = t.counter
  time : t'.time = t.time
  state : t'.state = t.state
  captureTime : t'.captureTime = t.captureTime
  dequeued : t'.dequeued = t.dequeued

theorem SameLimit.refl (t : CapturingThread) : SameLimit t t := ⟨rfl, rfl, rfl, rfl, rfl, rfl⟩

/-- Files may be closed and opened, but nothing is captured. -/
def Refiled (env : CaptureEnv) (t t' : CapturingThread) : Prop :=
  SameLimit t t' ∧ ∃ closed last, Filed env t' closed last

theorem Refiled.trans (h : SameLimit t t₂) (h' : Refiled env t₂ t') : Refiled env t t' :=
  ⟨⟨h'.1.counted.trans h.counted, h'.1.counter.trans h.counter, h'.1.time.trans h.time,
    h'.1.state.trans h.state, h'.1.captureTime.trans h.captureTime,
    h'.1.dequeued.trans h.dequeued⟩, h'.2⟩

theorem Filed.closeWriter {closed : List (List DequeuedFrame)} {last : List DequeuedFrame}
    (h : Filed env t closed last) (o : Finalization) : Leaves (Refiled env t) (t.closeWriter o) := by
  rintro t' (ht | ht)
  · obtain ⟨-, rfl⟩ | ⟨w, w', phase, hw, hfinal, rfl⟩ := closeWriter_eq_ok ht
    · exact ⟨.refl t', closed, last, h⟩
    · have hhanded : w'.handed = decimated env last :=
        (CAVIWriter.finalizeFile_same (.inl hfinal)).1.trans (h.opened w hw).1
      refine ⟨⟨rfl, rfl, rfl, rfl, rfl, rfl⟩, closed ++ [last], [], ?_, ?_, nofun, fun _ => rfl⟩
      · rw [List.flatten_append, List.flatten_singleton, List.append_nil]
        exact h.frames
      · rw [List.map_append, List.map_append, h.closed, List.map_singleton, List.map_singleton,
          hhanded]
  · obtain ⟨w, w', phase, hw, hfinal, rfl⟩ := closeWriter_eq_error ht
    have hhanded : w'.handed = decimated env last :=
      (CAVIWriter.finalizeFile_same (.inr hfinal)).1.trans (h.opened w hw).1
    refine ⟨⟨rfl, rfl, rfl, rfl, rfl, rfl⟩, closed, last, h.frames, h.closed, fun v hv => ?_, nofun⟩
    obtain rfl := Option.some.inj hv
    exact ⟨hhanded, (h.opened w hw).2⟩

theorem Filed.splitFile {closed : List (List DequeuedFrame)} {last : List DequeuedFrame}
    (h : Filed env t closed last) (o : Finalization) :
    Leaves (Refiled env t) (t.splitFile env o) :=
  (h.closeWriter o).splitFile ⟨.refl t, closed, last, h⟩

theorem Filed.openWriter {closed : List (List DequeuedFrame)} {last : List DequeuedFrame}
    (h : Filed env t closed last) (created : Option Path) :
    Leaves (Refiled env t) (t.openWriter env created) := by
  rintro t' (ht | ht)
  · obtain ⟨-, rfl⟩ | ⟨hw, tmpfile, -, rfl⟩ := openWriter_eq_ok ht
    · exact ⟨.refl t', closed, last, h⟩
    · obtain rfl := h.unopened hw
      refine ⟨⟨rfl, rfl, rfl, rfl, rfl, rfl⟩, closed, [], h.frames, h.closed, fun w hw => ?_, nofun⟩
      rw [← Option.some.inj hw]
      exact ⟨rfl, rfl⟩
  · obtain rfl := openWriter_eq_error ht
    exact ⟨.refl _, closed, last, h⟩

theorem taken_limit (env : CaptureEnv) (t : CapturingThread) (f : Frame) (drops : Int32) :
    ∃ dvTime oldDVTime delta first last, t.taken env f drops = { t with
      dvTime := dvTime
      oldDVTime := oldDVTime
      deltaDVTime := delta
      capStats.tFirstRecTime := first
      capStats.tLastRecTime := last
      driverDropped := drops
      dequeued := t.dequeued ++ [t.dequeue f drops] } := by
  obtain ⟨delta, oldDVTime, dvTime, first, last, hnote⟩ := noteDVTime_eq env t f
  exact ⟨dvTime, oldDVTime, delta, first, last, by rw [taken, hnote]⟩

theorem Filed.ready {closed : List (List DequeuedFrame)} {last : List DequeuedFrame}
    (h : Filed env t closed last) (f : Frame) (calls : Calls) :
    Leaves (Refiled env (t.taken env f calls.droppedFrames)) (t.ready env f calls) := by
  have htaken : Filed env (t.taken env f calls.droppedFrames) closed last := by
    obtain ⟨_, _, _, _, _, heq⟩ := taken_limit env t f calls.droppedFrames
    rw [heq]
    exact ⟨h.frames, h.closed, h.opened, h.unopened⟩
  refine (htaken.splitFile calls.finalize).bind fun t₁ ⟨hsame, closed', last', h₁⟩ => ?_
  exact (h₁.openWriter calls.created).imp fun _ h₂ => Refiled.trans hsame h₂

/-- One more frame is counted, and handed to the writer of the open file if its
turn has come. -/
theorem Filed.counted {closed : List (List DequeuedFrame)} {last : List DequeuedFrame}
    (h : Filed env t closed last) (hopen : t.aviWriter ≠ none) {d : DequeuedFrame} {o : Delivery}
    (hwrite : t.writeFrame env d o = .ok t₃) :
    Filed env (t₃.countFrame d) closed (last ++ [d]) := by
  obtain ⟨w, hw⟩ := Option.ne_none_iff_exists'.mp hopen
  obtain ⟨hhanded, hcount⟩ := h.opened w hw
  have hplace : t.frameCounter.toUInt32 = UInt32.ofNat last.length := by
    rw [hcount]
    rfl
  obtain ⟨state, captureTime, reason, -, heq⟩ := countFrame_eq t₃ d
  have hfile (v : CAVIWriter) (hv : v.handed = decimated env (last ++ [d]))
      (ht₃ : t₃ = { t with aviWriter := some v, nFrames := t₃.nFrames }) :
      Filed env (t₃.countFrame d) closed (last ++ [d]) := by
    rw [heq, ht₃]
    refine ⟨?_, h.closed, fun u hu => ?_, nofun⟩
    · rw [capturedFrames, List.map_append, ← List.append_assoc, ← h.frames]
      rfl
    · obtain ⟨x, hback⟩ := v.backfill_eq t.dvTime
      rw [← Option.some.inj hu]
      refine ⟨?_, ?_⟩
      · show (v.backfill t.dvTime).handed = _
        rw [hback]
        exact hv
      · show t.frameCounter + 1 = _
        rw [hcount, List.length_append, Int32.ofNat_add]
        rfl
  obtain ⟨hskip | hskip, rfl⟩ | ⟨w₀, w', hw₀, hlet, hhandle, rfl⟩ := writeFrame_eq_ok hwrite
  · exact absurd hskip hopen
  · refine hfile w ?_ (by rw [← hw])
    rw [decimated, thinned_concat, ← hplace, if_neg (by simpa using hskip), List.append_nil]
    exact hhanded
  · rw [hw] at hw₀
    obtain rfl := Option.some.inj hw₀
    refine hfile w' ?_ rfl
    rw [decimated, thinned_concat, ← hplace, if_pos (by simpa using hlet),
      (CAVIWriter.handleFrame_eq_some hhandle).2.1, hhanded]
    rfl

theorem countFrame_state (t : CapturingThread) (d : DequeuedFrame) :
    ((t.countFrame d).state = .finished ∧ t.captureTime ≠ 0 ∧
      t.captureTime ≤ t.time + d.frame.duration) ∨
    ((t.countFrame d).state = t.state ∧ (t.countFrame d).captureTime = t.captureTime ∧
      ¬ (t.captureTime ≠ 0 ∧ t.captureTime ≤ t.time + d.frame.duration)) := by
  have hhit : (t.countUp d).limitHit = true ↔
      t.captureTime ≠ 0 ∧ t.captureTime ≤ t.time + d.frame.duration := by
    rw [limitHit, Bool.and_eq_true, bne_iff_ne, decide_eq_true_iff]
    rfl
  by_cases h : (t.countUp d).limitHit = true
  · refine .inl ⟨?_, hhit.mp h⟩
    rw [countFrame, if_pos h]
    rfl
  · refine .inr ⟨?_, ?_, fun hlimit => h (hhit.mpr hlimit)⟩
    · rw [countFrame, if_neg h]
      rfl
    · rw [countFrame, if_neg h]
      rfl

/-- The counters hold what was captured, and the files do. -/
structure CountsCaptured (env : CaptureEnv) (t : CapturingThread) : Prop where
  filed : ∃ closed last, Filed env t closed last
  counter : t.counter = Int32.ofNat t.capturedFrames.length
  time : t.time = totalWeight frameDuration t.capturedFrames

theorem capturedFrames_congr (h : t'.counted = t.counted) : t'.capturedFrames = t.capturedFrames := by
  rw [capturedFrames, h]
  rfl

theorem CountsCaptured.refiled (h : CountsCaptured env t) (hrefiled : Refiled env t t') :
    CountsCaptured env t' := by
  obtain ⟨hsame, hfiled⟩ := hrefiled
  refine ⟨hfiled, ?_, ?_⟩
  · rw [hsame.counter, capturedFrames_congr hsame.counted]
    exact h.counter
  · rw [hsame.time, capturedFrames_congr hsame.counted]
    exact h.time

theorem CountsCaptured.taken (h : CountsCaptured env t) (f : Frame) (drops : Int32) :
    CountsCaptured env (t.taken env f drops) := by
  obtain ⟨_, _, _, _, _, heq⟩ := taken_limit env t f drops
  obtain ⟨closed, last, hfiled⟩ := h.filed
  rw [heq]
  exact ⟨⟨closed, last, hfiled.frames, hfiled.closed, hfiled.opened, hfiled.unopened⟩, h.counter,
    h.time⟩

theorem countFrame_captured {d : DequeuedFrame} {o : Delivery}
    (hwrite : t.writeFrame env d o = .ok t₃) :
    (t₃.countFrame d).capturedFrames = t.capturedFrames ++ [d] ∧
      (t₃.countFrame d).counter = t.counter + 1 ∧
      (t₃.countFrame d).time = t.time + d.frame.duration ∧
      (t₃.countFrame d).dequeued = t.dequeued ∧ t₃.state = t.state ∧
      t₃.captureTime = t.captureTime ∧ t₃.time = t.time := by
  obtain ⟨state, captureTime, reason, -, heq⟩ := countFrame_eq t₃ d
  rw [heq]
  obtain ⟨-, rfl⟩ | ⟨w, w', hw, hlet, hhandle, rfl⟩ := writeFrame_eq_ok hwrite
  · exact ⟨List.map_append, rfl, rfl, rfl, rfl, rfl, rfl⟩
  · exact ⟨List.map_append, rfl, rfl, rfl, rfl, rfl, rfl⟩

theorem CountsCaptured.counted (h : CountsCaptured env t) (hopen : t.aviWriter ≠ none)
    {d : DequeuedFrame} {o : Delivery} (hwrite : t.writeFrame env d o = .ok t₃) :
    CountsCaptured env (t₃.countFrame d) := by
  obtain ⟨closed, last, hfiled⟩ := h.filed
  obtain ⟨hcaptured, hcounter, htime, -⟩ := countFrame_captured hwrite
  refine ⟨⟨closed, last ++ [d], hfiled.counted hopen hwrite⟩, ?_, ?_⟩
  · rw [hcaptured, hcounter, h.counter, List.length_append, Int32.ofNat_add]
    rfl
  · rw [hcaptured, htime, h.time, totalWeight_concat]
    rfl

theorem onFrame_capturing (h : CountsCaptured env t) (hcap : t.state.captures = true) (f : Frame)
    (calls : Calls) :
    (∃ t', t.onFrame env f calls = (.escaped, t') ∧ Refiled env (t.taken env f calls.droppedFrames) t') ∨
    ∃ t₂ t₃, t.onFrame env f calls = (.again, t₃.countFrame (t.dequeue f calls.droppedFrames)) ∧
      Refiled env (t.taken env f calls.droppedFrames) t₂ ∧ t₂.aviWriter ≠ none ∧
      t₂.writeFrame env (t.dequeue f calls.droppedFrames) calls.delivery = .ok t₃ := by
  obtain ⟨closed, last, hfiled⟩ := h.filed
  have hleaves := hfiled.ready f calls
  cases hready : t.ready env f calls with
  | error t₂ => exact .inl ⟨t₂, onFrame_of_not_ready hcap hready, hleaves t₂ (.inr hready)⟩
  | ok t₂ =>
    have hrefiled := hleaves t₂ (.inl hready)
    obtain ⟨w, hw⟩ := ready_isSome hready
    have hround := onFrame_of_ready hcap hready
    cases hwrite : t₂.writeFrame env (t.dequeue f calls.droppedFrames) calls.delivery with
    | error t₃ =>
      rw [hwrite] at hround
      rw [writeFrame_eq_error hwrite] at hround
      exact .inl ⟨t₂, hround, hrefiled⟩
    | ok t₃ =>
      rw [hwrite] at hround
      exact .inr ⟨t₂, t₃, hround, hrefiled, by rw [hw]; exact Option.some_ne_none w, hwrite⟩

theorem closeWriter_none {o : Finalization} (h : t.closeWriter o = .ok t') : t'.aviWriter = none := by
  obtain ⟨hnone, rfl⟩ | ⟨_, _, _, _, _, rfl⟩ := closeWriter_eq_ok h
  · exact hnone
  · rfl

theorem Refiled.resetCounters (h : Refiled env t t') (hfinished : t.state = .finished) :
    Refiled env t t'.resetCounters := by
  obtain ⟨hsame, closed, last, hfiled⟩ := h
  have hstate : t'.state = .finished := hsame.state.trans hfinished
  rw [resetCounters_eq, if_pos hstate, if_pos hstate, if_pos hstate]
  exact ⟨⟨hsame.counted, hsame.counter, hsame.time, hsame.state, hsame.captureTime, hsame.dequeued⟩,
    closed, last, hfiled.frames, hfiled.closed, hfiled.opened, hfiled.unopened⟩

theorem onFrame_finished (h : CountsCaptured env t) (hfinished : t.state = .finished) (f : Frame)
    (calls : Calls) :
    (∃ t', t.onFrame env f calls = (.escaped, t') ∧ t.aviWriter ≠ none ∧
      Refiled env (t.taken env f calls.droppedFrames) t') ∨
    ∃ t', t.onFrame env f calls = (.again, t') ∧ t'.aviWriter = none ∧
      Refiled env (t.taken env f calls.droppedFrames) t' := by
  have hcap : ¬ t.state.captures = true := by
    rw [hfinished]
    decide
  obtain ⟨closed, last, hfiled⟩ := (h.taken f calls.droppedFrames).filed
  have hleaves := hfiled.closeWriter calls.finalize
  rw [onFrame_eq, if_neg hcap, pauseFrame]
  cases hclose : (t.taken env f calls.droppedFrames).closeWriter calls.finalize with
  | error t' =>
    refine .inl ⟨t', rfl, fun hnone => ?_, hleaves t' (.inr hclose)⟩
    obtain ⟨w, -, -, hw, -⟩ := closeWriter_eq_error hclose
    obtain ⟨_, _, _, _, _, heq⟩ := taken_limit env t f calls.droppedFrames
    rw [heq] at hw
    rw [hnone] at hw
    cases hw
  | ok t' =>
    have htaken : (t.taken env f calls.droppedFrames).state = .finished := by
      obtain ⟨_, _, _, _, _, heq⟩ := taken_limit env t f calls.droppedFrames
      rw [heq]
      exact hfinished
    have hnone : t'.aviWriter = none := closeWriter_none hclose
    refine .inr ⟨t'.resetCounters, rfl, ?_, (hleaves t' (.inl hclose)).resetCounters htaken⟩
    rw [resetCounters_eq]
    exact hnone

theorem afterLoop_refiled (h : CountsCaptured env t) (calls : Calls) :
    (∃ t', t.afterLoop env calls = (.escaped, t') ∧ t.aviWriter ≠ none ∧ Refiled env t t') ∨
    ∃ t', t.afterLoop env calls = (.returned, t') ∧ t'.aviWriter = none ∧ Refiled env t t' := by
  obtain ⟨closed, last, hfiled⟩ := h.filed
  have hleaves := hfiled.closeWriter calls.finalize
  obtain ⟨t', hclose, heq⟩ | ⟨t', hclose, heq⟩ := t.afterLoop_cases env calls
  · obtain ⟨hsame, closed', last', hfiled'⟩ := hleaves t' (.inl hclose)
    obtain ⟨_, _, _, _, hverify⟩ := t'.verifyAndLog_eq env
    have hnone : t'.aviWriter = none := closeWriter_none hclose
    refine .inr ⟨t'.verifyAndLog env, heq, ?_, ?_⟩
    · rw [hverify]
      exact hnone
    · rw [hverify]
      exact ⟨⟨hsame.counted, hsame.counter, hsame.time, hsame.state, hsame.captureTime,
        hsame.dequeued⟩, closed', last', hfiled'.frames, hfiled'.closed, hfiled'.opened,
        hfiled'.unopened⟩
  · refine .inl ⟨t', heq, fun hnone => ?_, hleaves t' (.inr hclose)⟩
    obtain ⟨w, -, -, hw, -⟩ := closeWriter_eq_error hclose
    rw [hnone] at hw
    cases hw

end CapturingThread

namespace CaptureLoop

open Transition CapturingThread

variable {env : CaptureEnv} {T : Int} {base ds : List DequeuedFrame} {t t' t₂ : CapturingThread}
  {s s' : CaptureLoop}

/-- The worker got through the frames `ds` since a capture of length `T` was
started; an exception may have ended it at one more. -/
structure Timed (env : CaptureEnv) (T : Int) (base ds : List DequeuedFrame) (s : CaptureLoop) :
    Prop extends CountsCaptured env s.2 where
  dequeued : s.2.dequeued = base ++ ds ∨ s.1 = .escaped ∧ ∃ d, s.2.dequeued = base ++ ds ++ [d]
  durations : ∀ d ∈ ds, frameDuration d ≤ 450000
  shortest : ShortestPrefix frameDuration T ds s.2.capturedFrames
  phase : s.2.state = .capturing ∧ s.2.captureTime = T ∧ s.2.capturedFrames = ds ∧
      totalWeight frameDuration ds < T ∨
    s.2.state = .finished ∧ (T ≤ totalWeight frameDuration s.2.capturedFrames ∨ s.1 ≠ .again)
  closed : s.2.aviWriter = none ∨ s.2.capturedFrames = ds
  returned : s.1 = .returned → s.2.aviWriter = none

theorem Timed.base_eq (h : Timed env T base ds (.again, t)) : t.dequeued = base ++ ds := by
  obtain heq | ⟨hescaped, -⟩ := h.dequeued
  · exact heq
  · cases hescaped

theorem Timed.captured_of_open (h : Timed env T base ds s) (hopen : s.2.aviWriter ≠ none) :
    s.2.capturedFrames = ds := h.closed.resolve_left hopen

theorem taken_captured (env : CaptureEnv) (t : CapturingThread) (f : Frame) (drops : Int32) :
    (t.taken env f drops).capturedFrames = t.capturedFrames ∧
      (t.taken env f drops).state = t.state ∧ (t.taken env f drops).captureTime = t.captureTime ∧
      (t.taken env f drops).dequeued = t.dequeued ++ [t.dequeue f drops] := by
  obtain ⟨_, _, _, _, _, heq⟩ := taken_limit env t f drops
  rw [heq]
  exact ⟨rfl, rfl, rfl, rfl⟩

/-- At the frame where an exception ends the thread nothing is captured. -/
theorem Timed.escape (h : Timed env T base ds (.again, t)) {f : Frame} {drops : Int32}
    (hrefiled : Refiled env (t.taken env f drops) t') (hcaptured : t.capturedFrames = ds) :
    Timed env T base ds (.escaped, t') := by
  obtain ⟨hsame, hstate, htime, hdequeued⟩ := taken_captured env t f drops
  have hkept : t'.capturedFrames = t.capturedFrames :=
    (capturedFrames_congr hrefiled.1.counted).trans hsame
  refine ⟨(h.toCountsCaptured.taken f drops).refiled hrefiled, .inr ⟨rfl, t.dequeue f drops, ?_⟩,
    h.durations, ?_, ?_, .inr (hkept.trans hcaptured), nofun⟩
  · rw [hrefiled.1.dequeued, hdequeued, h.base_eq]
  · rw [hkept]
    exact h.shortest
  · rw [hkept, hrefiled.1.state, hstate, hrefiled.1.captureTime, htime]
    exact h.phase.imp_right fun ⟨hfinished, _⟩ => ⟨hfinished, .inr nofun⟩

theorem Timed.onFrame (h : Timed env T base ds (.again, t)) (hT : 0 < T) {f : Frame}
    (hf : f.duration ≤ 450000) (calls : Calls) :
    ∃ ds', Timed env T base ds' (t.onFrame env f calls) := by
  obtain ⟨htaken, hstate, hcaptureTime, hdequeued⟩ := taken_captured env t f calls.droppedFrames
  have hdurations : ∀ d ∈ ds ++ [t.dequeue f calls.droppedFrames], frameDuration d ≤ 450000 := by
    intro d hd
    obtain hd | hd := List.mem_append.mp hd
    · exact h.durations d hd
    · rw [List.mem_singleton.mp hd]
      exact hf
  obtain ⟨hcap, hlimit, hcaptured, hlt⟩ | ⟨hfinished, hreached⟩ := h.phase
  · obtain ⟨t', heq, hrefiled⟩ | ⟨t₂, t₃, heq, hrefiled, hopen, hwrite⟩ :=
      onFrame_capturing h.toCountsCaptured (by rw [hcap]; rfl) f calls
    · rw [heq]
      exact ⟨ds, h.escape hrefiled hcaptured⟩
    · obtain ⟨hnew, -, htime, hdeq, hstate₃, hlimit₃, htime₃⟩ := countFrame_captured hwrite
      have hkept : t₂.capturedFrames = ds :=
        ((capturedFrames_congr hrefiled.1.counted).trans htaken).trans hcaptured
      have hcounts := ((h.toCountsCaptured.taken f calls.droppedFrames).refiled hrefiled).counted hopen hwrite
      rw [hkept] at hnew
      rw [heq]
      refine ⟨ds ++ [t.dequeue f calls.droppedFrames], hcounts, .inl ?_, hdurations, ?_, ?_, .inr hnew, nofun⟩
      · rw [hdeq, hrefiled.1.dequeued, hdequeued, h.base_eq, List.append_assoc]
      · rw [hnew]
        exact (hcaptured ▸ h.shortest).extend hlt _
      · have htotal : t₃.time + f.duration =
            totalWeight frameDuration (ds ++ [t.dequeue f calls.droppedFrames]) := by
          rw [← hnew, ← hcounts.time, htime, htime₃]
          rfl
        have hlimit' : t₃.captureTime = T :=
          hlimit₃.trans ((hrefiled.1.captureTime.trans hcaptureTime).trans hlimit)
        rw [hnew, ← htotal]
        obtain ⟨hfinished, -, hle⟩ | ⟨hsame, hsameLimit, hunder⟩ :=
          countFrame_state t₃ (t.dequeue f calls.droppedFrames)
        · exact .inr ⟨hfinished, .inl (hlimit' ▸ hle)⟩
        · refine .inl ⟨?_, hsameLimit.trans hlimit', rfl, ?_⟩
          · rw [hsame, hstate₃, hrefiled.1.state, hstate, hcap]
          · have hnot : ¬ T ≤ t₃.time + f.duration := fun hle =>
              hunder (hlimit'.symm ▸ ⟨Int.ne_of_gt hT, hle⟩)
            omega
  · have hover := hreached.resolve_right fun hne => hne rfl
    obtain ⟨t', heq, hopen, hrefiled⟩ | ⟨t', heq, hnone, hrefiled⟩ :=
      onFrame_finished h.toCountsCaptured hfinished f calls
    · rw [heq]
      exact ⟨ds, h.escape hrefiled (h.captured_of_open hopen)⟩
    · have hkept : t'.capturedFrames = t.capturedFrames :=
        (capturedFrames_congr hrefiled.1.counted).trans htaken
      rw [heq]
      refine ⟨ds ++ [t.dequeue f calls.droppedFrames],
        (h.toCountsCaptured.taken f calls.droppedFrames).refiled hrefiled, .inl ?_, hdurations, ?_,
        .inr ⟨?_, .inl ?_⟩, .inl hnone, nofun⟩
      · rw [hrefiled.1.dequeued, hdequeued, h.base_eq, List.append_assoc]
      · rw [hkept]
        exact h.shortest.stay hover _
      · rw [hrefiled.1.state, hstate]
        exact hfinished
      · rw [hkept]
        exact hover

theorem Timed.afterLoop (h : Timed env T base ds (.again, t)) (reason : StopReason) (calls : Calls) :
    Timed env T base ds
      (CapturingThread.afterLoop env { t with capStats.eStopReason := reason, state := .finished }
        calls) := by
  obtain ⟨closed, last, hfiled⟩ := h.filed
  have hcounts : CountsCaptured env
      { t with capStats.eStopReason := reason, state := .finished } :=
    ⟨⟨closed, last, hfiled.frames, hfiled.closed, hfiled.opened, hfiled.unopened⟩, h.counter, h.time⟩
  have hkept {t' : CapturingThread}
      (hrefiled : Refiled env { t with capStats.eStopReason := reason, state := .finished } t') :
      t'.capturedFrames = t.capturedFrames := capturedFrames_congr hrefiled.1.counted
  obtain ⟨t', heq, hopen, hrefiled⟩ | ⟨t', heq, hnone, hrefiled⟩ := afterLoop_refiled hcounts calls
  · rw [heq]
    refine ⟨hcounts.refiled hrefiled, .inl ?_, h.durations, ?_, .inr ⟨hrefiled.1.state, .inr nofun⟩,
      .inr ?_, nofun⟩
    · exact hrefiled.1.dequeued.trans h.base_eq
    · rw [hkept hrefiled]
      exact h.shortest
    · rw [hkept hrefiled]
      exact h.captured_of_open hopen
  · rw [heq]
    refine ⟨hcounts.refiled hrefiled, .inl ?_, h.durations, ?_, .inr ⟨hrefiled.1.state, .inr nofun⟩,
      .inl hnone, fun _ => hnone⟩
    · exact hrefiled.1.dequeued.trans h.base_eq
    · rw [hkept hrefiled]
      exact h.shortest

/-- Rounds without a command, with frames of 30 to 45 ms. -/
def PlainRound : CaptureAction → Prop
  | .round ⟨.frame f, _⟩ => 300000 ≤ f.duration ∧ f.duration ≤ 450000
  | .round _ => True
  | .command _ => False

theorem timed_step (h : Timed env T base ds s) (hT : 0 < T) {a : CaptureAction} (ha : PlainRound a)
    (hstep : step env s a = some s') : ∃ ds', Timed env T base ds' s' := by
  cases a with
  | command c => exact ha.elim
  | round r =>
    obtain ⟨hagain, rfl⟩ := step_round hstep
    obtain ⟨e, t⟩ := s
    obtain rfl : e = .again := hagain
    obtain ⟨t', heq, ⟨hidle, -⟩ | ⟨reason, rfl⟩⟩ | heq | ⟨f, hgot, -, heq⟩ := t.round_cases env r
    · obtain ⟨hcap, -⟩ | ⟨hfinished, -⟩ := h.phase
      · cases hcap.symm.trans hidle
      · cases hfinished.symm.trans hidle
    · rw [heq]
      exact ⟨ds, h.afterLoop reason r.calls⟩
    · rw [heq]
      exact ⟨ds, h⟩
    · obtain ⟨got, calls⟩ := r
      obtain rfl : got = .frame f := hgot
      rw [heq]
      exact h.onFrame hT ha.2 calls

theorem timed_run (h : Timed env T base ds s) (hT : 0 < T) {acts : List CaptureAction}
    (hrun : Run (step env) (fun _ => PlainRound) s acts s') : ∃ ds', Timed env T base ds' s' := by
  have hkeep : ∀ u a v, (∃ ds', Timed env T base ds' u) → PlainRound a → step env u a = some v →
      ∃ ds', Timed env T base ds' v := by
    rintro u a v ⟨ds', hu⟩ ha hstep
    exact timed_step hu hT ha hstep
  exact hrun.invariant hkeep ⟨ds, h⟩

/-- No capture has been started. -/
structure Unstarted (t : CapturingThread) : Prop where
  idle : t.state.captures = false
  unopened : t.aviWriter = none
  closed : t.closed = []
  counted : t.counted = []
  counter : t.counter = 0
  time : t.time = 0

def BeforeStart : CaptureAction → Prop
  | .command (.start _) => False
  | _ => True

theorem Unstarted.afterLoop (h : Unstarted t) (calls : Calls) :
    Unstarted (t.afterLoop env calls).2 := by
  obtain ⟨t', hclose, heq⟩ | ⟨t', hclose, heq⟩ := t.afterLoop_cases env calls
  · obtain ⟨-, rfl⟩ | ⟨w, _, _, hw, -⟩ := closeWriter_eq_ok hclose
    · obtain ⟨_, _, _, _, hverify⟩ := t'.verifyAndLog_eq env
      rw [heq, hverify]
      exact ⟨h.idle, h.unopened, h.closed, h.counted, h.counter, h.time⟩
    · rw [h.unopened] at hw
      cases hw
  · obtain ⟨w, _, _, hw, -⟩ := closeWriter_eq_error hclose
    rw [h.unopened] at hw
    cases hw

theorem Unstarted.onFrame (h : Unstarted t) (f : Frame) (calls : Calls) :
    Unstarted (t.onFrame env f calls).2 := by
  obtain ⟨_, _, _, _, _, heq⟩ := taken_limit env t f calls.droppedFrames
  have hclose : (t.taken env f calls.droppedFrames).closeWriter calls.finalize =
      .ok (t.taken env f calls.droppedFrames) := by
    rw [heq]
    unfold CapturingThread.closeWriter CDV.closeAVIWriter
    rw [h.unopened]
  have hround : t.onFrame env f calls = (.again, (t.taken env f calls.droppedFrames).resetCounters) := by
    rw [onFrame_eq, h.idle, if_neg Bool.false_ne_true, pauseFrame, hclose]
    rfl
  rw [hround, resetCounters_eq, heq]
  refine ⟨h.idle, h.unopened, h.closed, h.counted, ?_, ?_⟩
  · show (if t.state = .finished then t.counter else 0) = 0
    rw [h.counter, ite_self]
  · show (if t.state = .finished then t.time else 0) = 0
    rw [h.time, ite_self]

theorem unstarted_step (h : Unstarted s.2) {a : CaptureAction} (ha : BeforeStart a)
    (hstep : step env s a = some s') : Unstarted s'.2 := by
  cases a with
  | command c =>
    rw [step_command hstep]
    have hne : s.2.state ≠ .capturing := by
      intro hcap
      have hidle := h.idle
      rw [hcap] at hidle
      cases hidle
    cases c with
    | start a => exact ha.elim
    | stop =>
      have hsame : s.2.toCDV.command .stop = s.2.toCDV := if_neg hne
      rw [hsame]
      exact h
    | finalize =>
      by_cases hpaused : s.2.state ≠ .capturing ∧ s.2.state ≠ .capturePaused
      · have hsame : s.2.toCDV.command .finalize = s.2.toCDV := if_pos hpaused
        rw [hsame]
        exact h
      · have hfinish : s.2.toCDV.command .finalize = { s.2.toCDV with
            captureTime := 0
            finalizePhase := .draining
            state := .finished } := by
          refine (if_neg hpaused).trans ?_
          rw [if_neg hne]
        rw [hfinish]
        exact ⟨rfl, h.unopened, h.closed, h.counted, h.counter, h.time⟩
    | destroy => exact ⟨rfl, h.unopened, h.closed, h.counted, h.counter, h.time⟩
  | round r =>
    obtain ⟨-, rfl⟩ := step_round hstep
    obtain ⟨t', heq, ⟨-, rfl⟩ | ⟨reason, rfl⟩⟩ | heq | ⟨f, hgot, -, heq⟩ := s.2.round_cases env r
    · rw [heq]
      exact h.afterLoop r.calls
    · rw [heq]
      refine Unstarted.afterLoop ?_ r.calls
      exact ⟨rfl, h.unopened, h.closed, h.counted, h.counter, h.time⟩
    · rw [heq]
      exact h
    · rw [heq]
      exact h.onFrame f r.calls

theorem unstarted_run (env : CaptureEnv) (captureFilename dtformat : CString) (ndigits : Int32)
    (lastCheckResult : AVICheckResult) (drops : Int32) {acts : List CaptureAction}
    (hrun : Run (step env) (fun _ => BeforeStart)
      (start env (.buildCapturing captureFilename dtformat ndigits lastCheckResult) drops) acts s) :
    Unstarted s.2 :=
  hrun.invariant (fun _ _ _ h ha hstep => unstarted_step h ha hstep) ⟨rfl, rfl, rfl, rfl, rfl, rfl⟩

theorem Unstarted.timed (h : Unstarted s.2) {a : StartArgs} (hpaused : s.2.state = .capturePaused)
    (hT : 0 < a.captureTime) (hstep : step env s (.command (.start a)) = some s') :
    Timed env a.captureTime s'.2.dequeued [] s' := by
  have hcommand : s.2.toCDV.command (.start a) = { s.2.toCDV with
      captureTime := a.captureTime
      captureFilename := a.filename
      dtformat := a.dtformat
      ndigits := a.ndigits
      starts := s.2.starts ++ [a]
      state := .capturing } := if_pos hpaused
  have hnone : s.2.capturedFrames = [] := by
    rw [capturedFrames, h.counted]
    rfl
  rw [step_command hstep, hcommand]
  refine ⟨⟨⟨[], [], hnone, ?_, ?_, fun _ => rfl⟩, ?_, ?_⟩, .inl (List.append_nil _).symm, nofun, ?_,
    .inl ⟨rfl, rfl, hnone, hT⟩, .inl h.unopened, fun _ => h.unopened⟩
  · show s.2.closed.map (·.handed) = []
    rw [h.closed]
    rfl
  · intro w hw
    rw [h.unopened] at hw
    cases hw
  · show s.2.counter = Int32.ofNat s.2.capturedFrames.length
    rw [h.counter, hnone]
    rfl
  · show s.2.time = totalWeight frameDuration s.2.capturedFrames
    rw [h.time, hnone]
    rfl
  · show ShortestPrefix frameDuration a.captureTime [] s.2.capturedFrames
    rw [hnone]
    exact .nil frameDuration a.captureTime

/-- What a capture of length `T` made of the frames `ds`. -/
structure TimedCapture (env : CaptureEnv) (T : Int) (ds : List DequeuedFrame) (s : CaptureLoop) :
    Prop where
  shortest : ShortestPrefix frameDuration T ds s.2.capturedFrames
  files : ∃ files : List (List DequeuedFrame), files.flatten = s.2.capturedFrames ∧
    s.2.files.map (·.handed) = files.map (decimated env)
  written : env.everyNth = 1 → s.2.files.flatMap (·.handed) = s.2.capturedFrames
  counter : s.2.counter = Int32.ofNat s.2.capturedFrames.length
  time : s.2.time = totalWeight frameDuration s.2.capturedFrames
  limit : T ≤ totalWeight frameDuration ds →
    T ≤ s.2.time ∧ s.2.time < T + 450000 ∧ s.2.state = .finished
  closed : s.2.capturedFrames ≠ ds ∨ s.1 = .returned → s.2.aviWriter = none
  goesOn : ∀ f calls, (s.2.round env ⟨.frame f, calls⟩).1 ≠ .returned

theorem Timed.reaches (h : Timed env T base ds s) (hT : T ≤ totalWeight frameDuration ds) :
    T ≤ totalWeight frameDuration s.2.capturedFrames ∧ s.2.state = .finished := by
  obtain ⟨-, -, -, hlt⟩ | ⟨hfinished, -⟩ := h.phase
  · omega
  · obtain henough | hall := h.shortest.enough
    · exact ⟨henough, hfinished⟩
    · rw [hall]
      exact ⟨hT, hfinished⟩

theorem filed_files {closed : List (List DequeuedFrame)} {last : List DequeuedFrame}
    (h : Filed env t closed last) : ∃ files : List (List DequeuedFrame),
      files.flatten = t.capturedFrames ∧ t.files.map (·.handed) = files.map (decimated env) := by
  cases hw : t.aviWriter with
  | none =>
    refine ⟨closed, ?_, ?_⟩
    · rw [h.frames, h.unopened hw, List.append_nil]
    · rw [CDV.files, hw, Option.toList_none, List.append_nil]
      exact h.closed
  | some w =>
    refine ⟨closed ++ [last], ?_, ?_⟩
    · rw [List.flatten_append, List.flatten_singleton, h.frames]
    · rw [CDV.files, hw, Option.toList_some, List.map_append, List.map_append, h.closed,
        List.map_singleton, List.map_singleton, (h.opened w hw).1]

theorem Timed.timedCapture (h : Timed env T base ds s) (hT : 0 < T) : TimedCapture env T ds s := by
  obtain ⟨closed, last, hfiled⟩ := h.filed
  obtain ⟨files, hframes, hhanded⟩ := filed_files hfiled
  refine ⟨h.shortest, ⟨files, hframes, hhanded⟩, fun hnth => ?_, h.counter, h.time, fun hreach => ?_,
    fun hclosed => ?_, fun f calls => ?_⟩
  · have hall : files.map (decimated env) = files :=
      (List.map_congr_left fun l _ => decimated_one hnth l).trans (List.map_id files)
    rw [List.flatMap_def, hhanded, hall, hframes]
  · obtain ⟨henough, hfinished⟩ := h.reaches hreach
    have hlt := h.shortest.lt_add hT henough fun d hd =>
      h.durations d (h.shortest.isPrefix.subset hd)
    rw [h.time]
    exact ⟨henough, hlt, hfinished⟩
  · obtain hmore | hreturned := hclosed
    · exact h.closed.resolve_right hmore
    · exact h.returned hreturned
  · have hidle : s.2.state ≠ .idle := by
      obtain ⟨hstate, -⟩ | ⟨hstate, -⟩ := h.phase
      · rw [hstate]
        exact nofun
      · rw [hstate]
        exact nofun
    have hround : s.2.round env ⟨.frame f, calls⟩ = s.2.onFrame env f calls := if_neg hidle
    rw [hround, onFrame_eq]
    cases (if s.2.state.captures then
      (s.2.taken env f calls.droppedFrames).captureFrame env (s.2.dequeue f calls.droppedFrames) calls
      else (s.2.taken env f calls.droppedFrames).pauseFrame calls) with
    | ok t' => exact nofun
    | error t' => exact nofun

/-- The first capture of a session with a time limit, over any rounds that follow
without a command. -/
theorem timed_capture (env : CaptureEnv) (captureFilename dtformat : CString) (ndigits : Int32)
    (lastCheckResult : AVICheckResult) (drops : Int32) {before acts : List CaptureAction}
    {s₀ s₁ s : CaptureLoop} {a : StartArgs}
    (hbefore : Run (step env) (fun _ => BeforeStart)
      (start env (.buildCapturing captureFilename dtformat ndigits lastCheckResult) drops) before s₀)
    (hpaused : s₀.2.state = .capturePaused) (hT : 0 < a.captureTime)
    (hstart : step env s₀ (.command (.start a)) = some s₁)
    (hrun : Run (step env) (fun _ => PlainRound) s₁ acts s) :
    ∃ ds, (s.2.dequeued = s₁.2.dequeued ++ ds ∨
        s.1 = .escaped ∧ ∃ d, s.2.dequeued = s₁.2.dequeued ++ ds ++ [d]) ∧
      TimedCapture env a.captureTime ds s := by
  have hunstarted := unstarted_run env captureFilename dtformat ndigits lastCheckResult drops hbefore
  obtain ⟨ds, htimed⟩ := timed_run (hunstarted.timed hpaused hT hstart) hT hrun
  exact ⟨ds, htimed.dequeued, htimed.timedCapture hT⟩

instance : DecidablePred PlainRound := fun a =>
  match a with
  | .round ⟨.frame f, _⟩ => inferInstanceAs (Decidable (300000 ≤ f.duration ∧ f.duration ≤ 450000))
  | .round ⟨.timeout, _⟩ => .isTrue trivial
  | .round ⟨.endOfStream, _⟩ => .isTrue trivial
  | .command _ => .isFalse id

def limitedTo (T : Int) : StartArgs := ⟨"C:\\tape.avi".toList, [], 0, T⟩

/-- The worker of a session that starts with a limited capture. -/
def limitedStart (env : CaptureEnv) (T : Int) : CaptureLoop :=
  (.again, { CapturingThread.start env (.buildCapturing [] [] 0 {}) 0 with
    toCDV := (CapturingThread.start env (.buildCapturing [] [] 0 {}) 0).toCDV.command
      (.start (limitedTo T)) })

/-- Of four frames of 40 ms a limit of 100 ms takes in three. -/
theorem limitedFrames_captured : ∃ s : CaptureLoop,
    (∃ ds, (s.2.dequeued = (limitedStart (shortFrameEnv 10) 1000000).2.dequeued ++ ds ∨
        s.1 = .escaped ∧ ∃ d, s.2.dequeued =
          (limitedStart (shortFrameEnv 10) 1000000).2.dequeued ++ ds ++ [d]) ∧
      TimedCapture (shortFrameEnv 10) 1000000 ds s) ∧
    s.2.dequeued.length = 4 ∧ s.2.capturedFrames.length = 3 ∧ s.2.state = .finished ∧
    s.2.aviWriter = none := by
  have hrun : Run (step (shortFrameEnv 10)) (fun _ => PlainRound)
    (limitedStart (shortFrameEnv 10) 1000000)
    [.round (shortFrame 1), .round (shortFrame 2), .round (shortFrame 3), .round (shortFrame 4)] _ :=
      run_of_exec rfl
  exact ⟨_, timed_capture (shortFrameEnv 10) [] [] 0 {} 0 (.nil _) rfl (a := limitedTo 1000000)
    (by decide) rfl hrun, rfl, rfl, rfl, rfl⟩

end CaptureLoop

end WinDV
