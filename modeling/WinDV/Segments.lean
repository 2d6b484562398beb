import WinDV.CaptureWorker
import WinDV.Transition

/-! The files and counters against the segments between `StartCapturing` and
`StopCapturing`, where a command can fall between any two steps of the thread. -/

namespace WinDV

open Transition

def StartArgs.names (a : StartArgs) : CString × CString × Int32 := (a.filename, a.dtformat, a.ndigits)

def CDV.names (c : CDV) : CString × CString × Int32 := (c.captureFilename, c.dtformat, c.ndigits)

/-- All frames of the file were taken after the same call of `StartCapturing`,
and before the next one, and its names are those of that call. -/
structure SegmentOf (starts : List StartArgs) (v : CAVIWriter) (k : Nat) (a : StartArgs) : Prop where
  started : starts[k]? = some a
  frames : ∀ d ∈ v.handed, d.segment = k + 1
  names : v.names = a.names

theorem SegmentOf.same {starts : List StartArgs} {v v' : CAVIWriter} {k : Nat} {a : StartArgs}
    (h : SegmentOf starts v k a) (hsame : v'.handed = v.handed ∧ v'.names = v.names) :
    SegmentOf starts v' k a := by
  refine ⟨h.started, ?_, hsame.2.trans h.names⟩
  rw [hsame.1]
  exact h.frames

theorem SegmentOf.append {starts : List StartArgs} {v : CAVIWriter} {k : Nat} {a : StartArgs}
    (h : SegmentOf starts v k a) (b : StartArgs) : SegmentOf (starts ++ [b]) v k a := by
  obtain ⟨hk, -⟩ := List.getElem?_eq_some_iff.mp h.started
  exact ⟨by rw [List.getElem?_append_left hk, h.started], h.frames, h.names⟩

abbrev CountedFrame := DequeuedFrame × Int32 × Int

def ownFrames (k : Nat) (l : List CountedFrame) : List DequeuedFrame :=
  (l.map (·.1)).filter (·.segment = k)

def duration (ds : List DequeuedFrame) : Int := (ds.map (·.frame.duration)).sum

/-- Every frame was counted with the number and the duration of the frames of
its own segment up to it. -/
def OwnCounts (l : List CountedFrame) : Prop :=
  ∀ before d n time after, l = before ++ (d, n, time) :: after →
    n = Int32.ofNat ((ownFrames d.segment before).length + 1) ∧
    time = duration (ownFrames d.segment before) + d.frame.duration

theorem ownFrames_concat (l : List CountedFrame) (d : DequeuedFrame) (n : Int32) (time : Int) :
    ownFrames d.segment (l ++ [(d, n, time)]) = ownFrames d.segment l ++ [d] := by
  simp [ownFrames]

theorem OwnCounts.concat {l : List CountedFrame} (h : OwnCounts l) {d : DequeuedFrame} {n : Int32}
    {time : Int} (hn : n = Int32.ofNat ((ownFrames d.segment l).length + 1))
    (htime : time = duration (ownFrames d.segment l) + d.frame.duration) :
    OwnCounts (l ++ [(d, n, time)]) := by
  intro before d' n' time' after heq
  rcases List.eq_nil_or_concat' after with rfl | ⟨after, x, rfl⟩
  · obtain ⟨rfl, hlast⟩ := List.append_inj' heq rfl
    simp only [List.cons.injEq, Prod.mk.injEq, and_true] at hlast
    obtain ⟨rfl, rfl, rfl⟩ := hlast
    exact ⟨hn, htime⟩
  · rw [← List.cons_append, ← List.append_assoc] at heq
    exact h before d' n' time' after (List.append_inj' heq rfl).1

/-- No file and no count mixes two segments. -/
structure SegmentsKept (t : CapturingThread) : Prop where
  files : ∀ v ∈ t.files, ∃ k a, SegmentOf t.starts v k a
  counts : OwnCounts t.counted

/-- What the steps keep, wherever the thread stands. While the last frame was
captured, the open file and the counters belong to the last segment. -/
structure Segmented (t : CapturingThread) : Prop extends SegmentsKept t where
  current : t.lastCaptured = true → ∀ v, t.aviWriter = some v →
    ∃ a, SegmentOf t.starts v (t.starts.length - 1) a
  named : ∀ a, t.starts.getLast? = some a → t.names = a.names
  begun : t.state.captures = true → t.starts ≠ []
  bounded : ∀ x ∈ t.counted, x.1.segment ≤ t.starts.length
  fresh : t.lastCaptured = false → t.state.captures = true →
    ∀ x ∈ t.counted, x.1.segment ≠ t.starts.length
  own : t.lastCaptured = true →
    t.counter = Int32.ofNat (ownFrames t.starts.length t.counted).length ∧
    t.time = duration (ownFrames t.starts.length t.counted)

namespace CapturingThread

variable {env : CaptureEnv} {t t' : CapturingThread} {d : DequeuedFrame}

def Settled (t : CapturingThread) : Prop :=
  t.lastCaptured = false → t.aviWriter = none ∧
    (t.state ≠ .idle → t.state ≠ .finished → t.counter = 0 ∧ t.time = 0)

/-- `d` is the captured frame that the thread is about to write or count. -/
def Pending (t : CapturingThread) (d : DequeuedFrame) : Prop :=
  t.lastCaptured = true ∧ t.starts ≠ [] ∧ d.segment = t.starts.length

theorem segmented_closeWriter (h : Segmented t) {o : Finalization}
    (hclose : t.closeWriter o = .ok t') :
    Segmented t' ∧ t'.aviWriter = none ∧ t'.lastCaptured = t.lastCaptured ∧ t'.starts = t.starts := by
  rcases closeWriter_eq_ok hclose with ⟨hnone, rfl⟩ | ⟨v, v', phase, hv, hf, rfl⟩
  · exact ⟨h, hnone, rfl, rfl⟩
  · have hfiles : ∀ u ∈ t.closed ++ [v'], ∃ k a, SegmentOf t.starts u k a := by
      intro u hu
      rcases List.mem_append.mp hu with hu | hu
      · exact h.files u (List.mem_append_left _ hu)
      · obtain rfl := List.mem_singleton.mp hu
        obtain ⟨k, a, hseg⟩ := h.files v (by simp [CDV.files, hv])
        exact ⟨k, a, hseg.same (CAVIWriter.finalizeFile_same (.inl hf))⟩
    refine ⟨⟨⟨?_, h.counts⟩, ?_, h.named, h.begun, h.bounded, h.fresh, h.own⟩, rfl, rfl, rfl⟩
    · simpa [CDV.files] using hfiles
    · intro _ u hu
      cases hu

theorem segmented_closeWriter_error (h : Segmented t) {o : Finalization}
    (hclose : t.closeWriter o = .error t') : Segmented t' := by
  obtain ⟨v, v', phase, hv, hf, rfl⟩ := closeWriter_eq_error hclose
  have hsame := CAVIWriter.finalizeFile_same (.inr hf)
  refine ⟨⟨?_, h.counts⟩, ?_, h.named, h.begun, h.bounded, h.fresh, h.own⟩
  · intro u hu
    rcases List.mem_append.mp hu with hu | hu
    · exact h.files u (List.mem_append_left _ hu)
    · obtain rfl := List.mem_singleton.mp hu
      obtain ⟨k, a, hseg⟩ := h.files v (by simp [CDV.files, hv])
      exact ⟨k, a, hseg.same hsame⟩
  · intro hlast u hu
    obtain rfl := Option.some.inj hu
    obtain ⟨a, hseg⟩ := h.current hlast v hv
    exact ⟨a, hseg.same hsame⟩

theorem segmented_openWriter (h : Segmented t) (hp : Pending t d) {created : Option Path}
    (hopen : t.openWriter env created = .ok t') : Segmented t' ∧ Pending t' d := by
  rcases openWriter_eq_ok hopen with ⟨-, rfl⟩ | ⟨hnone, tmpfile, -, rfl⟩
  · exact ⟨h, hp⟩
  · obtain ⟨prior, a, hstarts⟩ := List.eq_nil_or_concat' t.starts |>.resolve_left hp.2.1
    have hnames : t.names = a.names := h.named a (by rw [hstarts, List.getLast?_concat])
    have hnew : ∀ v : CAVIWriter, v.handed = [] → v.names = t.names →
        SegmentOf t.starts v (t.starts.length - 1) a := by
      intro v hv hn
      refine ⟨by simp [hstarts], ?_, hn.trans hnames⟩
      rw [hv]
      intro d hd
      cases hd
    refine ⟨⟨⟨?_, h.counts⟩, ?_, h.named, h.begun, h.bounded, h.fresh, h.own⟩, hp⟩
    · intro u hu
      rcases List.mem_append.mp hu with hu | hu
      · exact h.files u (List.mem_append_left _ hu)
      · obtain rfl := List.mem_singleton.mp hu
        exact ⟨_, a, hnew _ rfl rfl⟩
    · intro _ u hu
      obtain rfl := Option.some.inj hu
      exact ⟨a, hnew _ rfl rfl⟩

theorem segmented_writeFrame (h : Segmented t) (hp : Pending t d) {o : Delivery}
    (hwrite : t.writeFrame env d o = .ok t') : Segmented t' ∧ Pending t' d := by
  rcases writeFrame_eq_ok hwrite with ⟨-, rfl⟩ | ⟨v, v', hv, -, hf, rfl⟩
  · exact ⟨h, hp⟩
  · obtain ⟨hlast, hne, hsegment⟩ := hp
    obtain ⟨-, hhanded, hname, hformat, hdigits, -, -, -⟩ := CAVIWriter.handleFrame_eq_some hf
    obtain ⟨a, hseg⟩ := h.current hlast v hv
    have hlen : 0 < t.starts.length := List.length_pos_iff.mpr hne
    have hnew : SegmentOf t.starts v' (t.starts.length - 1) a := by
      refine ⟨hseg.started, ?_, ?_⟩
      · intro e he
        rw [hhanded] at he
        rcases List.mem_append.mp he with he | he
        · exact hseg.frames e he
        · obtain rfl := List.mem_singleton.mp he
          omega
      · rw [← hseg.names, CAVIWriter.names, hname, hformat, hdigits]
        rfl
    refine ⟨⟨⟨?_, h.counts⟩, ?_, h.named, h.begun, h.bounded, h.fresh, h.own⟩, hlast, hne, hsegment⟩
    · intro u hu
      rcases List.mem_append.mp hu with hu | hu
      · exact h.files u (List.mem_append_left _ hu)
      · obtain rfl := List.mem_singleton.mp hu
        exact ⟨_, a, hnew⟩
    · intro _ u hu
      obtain rfl := Option.some.inj hu
      exact ⟨a, hnew⟩

theorem segmented_countUp (h : Segmented t) (hp : Pending t d) :
    Segmented (t.countUp d) ∧ (t.countUp d).lastCaptured = true := by
  obtain ⟨hlast, hne, hsegment⟩ := hp
  obtain ⟨hcounter, htime⟩ := h.own hlast
  have hback (v : CAVIWriter) : (v.backfill t.dvTime).handed = v.handed ∧
      (v.backfill t.dvTime).names = v.names := by
    obtain ⟨x, hx⟩ := v.backfill_eq t.dvTime
    rw [hx]
    exact ⟨rfl, rfl⟩
  have hcount : t.counter + 1 = Int32.ofNat ((ownFrames t.starts.length t.counted).length + 1) := by
    rw [hcounter, Int32.ofNat_add]
    rfl
  have hown := ownFrames_concat t.counted d (t.counter + 1) (t.time + d.frame.duration)
  rw [hsegment] at hown
  refine ⟨⟨⟨?_, ?_⟩, ?_, h.named, h.begun, ?_, ?_, ?_⟩, hlast⟩
  · intro u hu
    rcases List.mem_append.mp hu with hu | hu
    · exact h.files u (List.mem_append_left _ hu)
    · obtain ⟨v, hv, rfl⟩ := Option.map_eq_some_iff.mp (Option.mem_toList.mp hu)
      obtain ⟨k, a, hseg⟩ := h.files v (by simp [CDV.files, hv])
      exact ⟨k, a, hseg.same (hback v)⟩
  · exact h.counts.concat (by rw [hsegment, hcount]) (by rw [hsegment, htime])
  · intro _ u hu
    obtain ⟨v, hv, rfl⟩ := Option.map_eq_some_iff.mp hu
    obtain ⟨a, hseg⟩ := h.current hlast v hv
    exact ⟨a, hseg.same (hback v)⟩
  · intro x hx
    rcases List.mem_append.mp hx with hx | hx
    · exact h.bounded x hx
    · obtain rfl := List.mem_singleton.mp hx
      exact Nat.le_of_eq hsegment
  · intro hno
    have hyes : t.lastCaptured = false := hno
    rw [hlast] at hyes
    cases hyes
  · intro _
    show t.counter + 1 = Int32.ofNat (ownFrames t.starts.length (t.counted ++ [_])).length ∧
      t.time + d.frame.duration = duration (ownFrames t.starts.length (t.counted ++ [_]))
    rw [hown, hcount]
    simp [duration, htime]

theorem segmented_take (h : Segmented t) (hset : Settled t) (hcap : t.state.captures = true)
    (f : Frame) (drops : Int32) : Segmented (CaptureWorker.take t (t.dequeue f drops)) ∧
      Pending (CaptureWorker.take t (t.dequeue f drops)) (t.dequeue f drops) := by
  have hlast : (CaptureWorker.take t (t.dequeue f drops)).lastCaptured = true := by
    simp [CaptureWorker.take, lastCaptured, dequeue, hcap]
  refine ⟨⟨⟨h.files, h.counts⟩, ?_, h.named, h.begun, h.bounded, ?_, ?_⟩, hlast, h.begun hcap, rfl⟩
  · intro _ v hv
    cases hold : t.lastCaptured with
    | true => exact h.current hold v hv
    | false =>
      have hnone := (hset hold).1
      rw [show t.aviWriter = some v from hv] at hnone
      cases hnone
  · intro hno
    rw [hlast] at hno
    cases hno
  · intro _
    cases hold : t.lastCaptured with
    | true => exact h.own hold
    | false =>
      have hidle : t.state ≠ .idle := by
        intro hs
        rw [hs] at hcap
        cases hcap
      have hfinished : t.state ≠ .finished := by
        intro hs
        rw [hs] at hcap
        cases hcap
      -- the first frame of a segment: the counters were reset, and none of it is counted yet
      obtain ⟨hcounter, htime⟩ := (hset hold).2 hidle hfinished
      have hown : ownFrames t.starts.length t.counted = [] := by
        simpa [ownFrames] using fun d n time hx => h.fresh hold hcap (d, n, time) hx
      show t.counter = Int32.ofNat (ownFrames t.starts.length t.counted).length ∧
        t.time = duration (ownFrames t.starts.length t.counted)
      rw [hown, hcounter, htime]
      exact ⟨rfl, rfl⟩

theorem segmented_skip (h : Segmented t) (hfin : t.state ≠ .captureFinalizing)
    (hlast : t.lastCaptured = true → t.state ≠ .capturing) (f : Frame) (drops : Int32) :
    Segmented (CaptureWorker.take t (CaptureWorker.skipped t f drops)) ∧
      (CaptureWorker.take t (CaptureWorker.skipped t f drops)).lastCaptured = false := by
  have hno : (CaptureWorker.take t (CaptureWorker.skipped t f drops)).lastCaptured = false := by
    by_cases hs : t.state = .capturing <;>
      simp [CaptureWorker.take, lastCaptured, CaptureWorker.skipped, CDVState.captures, hs, hfin]
  refine ⟨⟨⟨h.files, h.counts⟩, ?_, h.named, h.begun, h.bounded, ?_, ?_⟩, hno⟩
  · intro hyes
    rw [hno] at hyes
    cases hyes
  -- capturing can have started again between the two tests, and then in a new segment
  · intro _ hcap
    have hs : t.state = .capturing := by
      have hcap' : t.state.captures = true := hcap
      simpa [CDVState.captures, hfin] using hcap'
    have hold : t.lastCaptured = false := by
      cases hl : t.lastCaptured with
      | true => exact absurd hs (hlast hl)
      | false => rfl
    exact h.fresh hold (by rw [hs]; rfl)
  · intro hyes
    rw [hno] at hyes
    cases hyes

theorem segmented_finished (h : Segmented t) (reason : StopReason) (captureTime : Int) :
    Segmented { t with
      captureTime := captureTime, capStats.eStopReason := reason, state := .finished } :=
  ⟨⟨h.files, h.counts⟩, h.current, h.named, nofun, h.bounded, fun _ => nofun, h.own⟩

theorem settled_of_captured (h : t.lastCaptured = true) : Settled t := by
  intro hno
  rw [h] at hno
  cases hno

end CapturingThread

namespace CaptureWorker

variable {env : CaptureEnv} {w w' : CaptureWorker}

open CapturingThread

def AtPC (w : CaptureWorker) : Prop :=
  match w.pc with
  | .split d | .openFile d | .write d | .count d => Pending w.toCapturingThread d
  | .limitStore | .noteDropped => w.lastCaptured = true
  | .testFinalizing _ _ =>
    Settled w.toCapturingThread ∧ (w.lastCaptured = true → w.state ≠ .capturing)
  | .pauseClose => w.lastCaptured = false
  | .pauseReset => w.lastCaptured = false ∧ w.aviWriter = none
  | .escaped => True
  | _ => Settled w.toCapturingThread

structure SegmentInv (w : CaptureWorker) : Prop where
  segmented : Segmented w.toCapturingThread
  atPC : AtPC w

theorem segmentInv_goOn {x : Except CapturingThread CapturingThread} {next : WorkerPC}
    (hok : ∀ t', x = .ok t' → SegmentInv ⟨t', next⟩) (herror : ∀ t', x = .error t' → Segmented t') :
    SegmentInv (goOn x next) := by
  cases x with
  | ok t' => exact hok t' rfl
  | error t' => exact ⟨herror t' rfl, trivial⟩

theorem SegmentInv.split {t : CapturingThread} {d : DequeuedFrame} (h : SegmentInv ⟨t, .split d⟩)
    (o : Finalization) : SegmentInv (goOn (t.splitFile env o) (.openFile d)) := by
  have hp : Pending t d := h.atPC
  refine segmentInv_goOn (fun t' ht => ?_) fun t' ht => ?_
  · rcases splitFile_eq_ok ht with ⟨-, rfl⟩ | ⟨-, hclose⟩
    · exact ⟨h.segmented, hp⟩
    · obtain ⟨hseg, -, hlast, hstarts⟩ := segmented_closeWriter h.segmented hclose
      refine ⟨hseg, ?_⟩
      show Pending t' d
      rw [Pending, hlast, hstarts]
      exact hp
  · exact segmented_closeWriter_error h.segmented (splitFile_eq_error ht)

theorem SegmentInv.openFile {t : CapturingThread} {d : DequeuedFrame}
    (h : SegmentInv ⟨t, .openFile d⟩) (created : Option Path) :
    SegmentInv (goOn (t.openWriter env created) (.write d)) := by
  have hp : Pending t d := h.atPC
  refine segmentInv_goOn (fun t' ht => ?_) fun t' ht => ?_
  · obtain ⟨hseg, hpend⟩ := segmented_openWriter h.segmented hp ht
    exact ⟨hseg, hpend⟩
  · obtain rfl := openWriter_eq_error ht
    exact h.segmented

theorem SegmentInv.write {t : CapturingThread} {d : DequeuedFrame} (h : SegmentInv ⟨t, .write d⟩)
    (o : Delivery) : SegmentInv (goOn (t.writeFrame env d o) (.count d)) := by
  have hp : Pending t d := h.atPC
  refine segmentInv_goOn (fun t' ht => ?_) fun t' ht => ?_
  · obtain ⟨hseg, hpend⟩ := segmented_writeFrame h.segmented hp ht
    exact ⟨hseg, hpend⟩
  · obtain rfl := writeFrame_eq_error ht
    exact h.segmented

theorem SegmentInv.count {t : CapturingThread} {d : DequeuedFrame} (h : SegmentInv ⟨t, .count d⟩) :
    SegmentInv ⟨t.countUp d, if (t.countUp d).limitHit then .limitStore else .noteDropped⟩ := by
  obtain ⟨hseg, hlast⟩ := segmented_countUp h.segmented h.atPC
  refine ⟨hseg, ?_⟩
  cases (t.countUp d).limitHit with
  | true => exact hlast
  | false => exact hlast

theorem SegmentInv.pauseReset {t : CapturingThread} (h : SegmentInv ⟨t, .pauseReset⟩) :
    SegmentInv ⟨t.resetCounters, .top⟩ := by
  obtain ⟨hlast, hnone⟩ : t.lastCaptured = false ∧ t.aviWriter = none := h.atPC
  have hs := h.segmented
  rw [resetCounters_eq]
  refine ⟨⟨⟨hs.files, hs.counts⟩, hs.current, hs.named, hs.begun, hs.bounded, hs.fresh, ?_⟩, ?_⟩
  · intro hyes
    have hyes' : t.lastCaptured = true := hyes
    rw [hlast] at hyes'
    cases hyes'
  · intro _
    refine ⟨hnone, fun _ hfin => ?_⟩
    exact ⟨if_neg hfin, if_neg hfin⟩

theorem SegmentInv.get {t : CapturingThread} {r : Round} (h : SegmentInv ⟨t, .get⟩)
    (hstep : step env ⟨t, .get⟩ r = some w') : SegmentInv w' := by
  have hs := h.segmented
  have hset : Settled t := h.atPC
  simp only [step] at hstep
  split at hstep
  · split at hstep <;> obtain rfl := Option.some.inj hstep
    · next f hgot =>
      obtain ⟨deltaDVTime, oldDVTime, dvTime, first, last, heq⟩ := t.noteDVTime_eq env f
      rw [heq]
      exact ⟨⟨⟨hs.files, hs.counts⟩, hs.current, hs.named, hs.begun, hs.bounded, hs.fresh, hs.own⟩, hset⟩
    · exact ⟨hs, hset⟩
    · exact ⟨hs, hset⟩
  · cases hstep

theorem SegmentInv.test {t : CapturingThread} {pc : WorkerPC} (h : SegmentInv ⟨t, pc⟩)
    (hset : Settled t) (hcap : t.state.captures = true) (f : Frame) (drops : Int32) :
    SegmentInv ⟨take t (t.dequeue f drops), .split (t.dequeue f drops)⟩ := by
  obtain ⟨hseg, hp⟩ := segmented_take h.segmented hset hcap f drops
  exact ⟨hseg, hp⟩

theorem SegmentInv.finish {t : CapturingThread} {pc : WorkerPC} (h : SegmentInv ⟨t, pc⟩)
    (hset : Settled t) (reason : StopReason) :
    SegmentInv ⟨{ t with capStats.eStopReason := reason, state := .finished }, .exitClose⟩ := by
  refine ⟨segmented_finished h.segmented reason t.captureTime, fun hno => ?_⟩
  exact ⟨(hset hno).1, fun _ hfin => absurd rfl hfin⟩

theorem SegmentInv.step {r : Round} (h : SegmentInv w) (hstep : w.step env r = some w') :
    SegmentInv w' := by
  obtain ⟨t, pc⟩ := w
  have hs := h.segmented
  cases pc with
  | top | endTest =>
    obtain rfl := Option.some.inj hstep
    refine ⟨hs, ?_⟩
    have hset : Settled t := h.atPC
    by_cases hidle : t.state = .idle
    · simpa only [AtPC, if_pos hidle] using hset
    · simpa only [AtPC, if_neg hidle] using hset
  | timeoutTest =>
    obtain rfl := Option.some.inj hstep
    refine ⟨hs, ?_⟩
    have hset : Settled t := h.atPC
    by_cases hcap : t.state = .capturing
    · simpa only [AtPC, if_pos hcap] using hset
    · simpa only [AtPC, if_neg hcap] using hset
  | get => exact h.get hstep
  | endStore =>
    obtain rfl := Option.some.inj hstep
    exact h.finish h.atPC t.capStats.eStopReason
  | timeoutStore =>
    obtain rfl := Option.some.inj hstep
    exact h.finish h.atPC .signalLost
  | test f drops =>
    have hset : Settled t := h.atPC
    simp only [CaptureWorker.step] at hstep
    split at hstep <;> obtain rfl := Option.some.inj hstep
    · next hcap => exact h.test hset (by rw [hcap]; rfl) f drops
    · next hcap => exact ⟨hs, hset, fun _ => hcap⟩
  | testFinalizing f drops =>
    obtain ⟨hset, hlast⟩ : Settled t ∧ (t.lastCaptured = true → t.state ≠ .capturing) := h.atPC
    simp only [CaptureWorker.step] at hstep
    split at hstep <;> obtain rfl := Option.some.inj hstep
    · next hfin => exact h.test hset (by rw [hfin]; rfl) f drops
    · next hfin =>
      obtain ⟨hseg, hno⟩ := segmented_skip hs hfin hlast f drops
      exact ⟨hseg, hno⟩
  | split d =>
    obtain rfl := Option.some.inj hstep
    exact h.split r.calls.finalize
  | openFile d =>
    obtain rfl := Option.some.inj hstep
    exact h.openFile r.calls.created
  | write d =>
    obtain rfl := Option.some.inj hstep
    exact h.write r.calls.delivery
  | count d =>
    obtain rfl := Option.some.inj hstep
    exact h.count
  | limitStore =>
    obtain rfl := Option.some.inj hstep
    exact ⟨segmented_finished hs .timed 0, h.atPC⟩
  | noteDropped =>
    obtain rfl := Option.some.inj hstep
    have hlast : t.lastCaptured = true := h.atPC
    exact ⟨⟨⟨hs.files, hs.counts⟩, hs.current, hs.named, hs.begun, hs.bounded, hs.fresh, hs.own⟩,
      settled_of_captured hlast⟩
  | pauseClose =>
    obtain rfl := Option.some.inj hstep
    have hlast : t.lastCaptured = false := h.atPC
    refine segmentInv_goOn (fun t' ht => ?_) fun t' ht => segmented_closeWriter_error hs ht
    obtain ⟨hseg, hnone, hsame, -⟩ := segmented_closeWriter hs ht
    exact ⟨hseg, hsame.trans hlast, hnone⟩
  | pauseReset =>
    obtain rfl := Option.some.inj hstep
    exact h.pauseReset
  | exitClose =>
    obtain rfl := Option.some.inj hstep
    have hset : Settled t := h.atPC
    refine segmentInv_goOn (fun t' ht => ?_) fun t' ht => segmented_closeWriter_error hs ht
    obtain ⟨hseg, -, -, -⟩ := segmented_closeWriter hs ht
    refine ⟨hseg, ?_⟩
    rcases closeWriter_eq_ok ht with ⟨-, rfl⟩ | ⟨v, v', phase, -, -, rfl⟩
    · exact hset
    · exact fun hno => ⟨rfl, (hset hno).2⟩
  | verify =>
    obtain rfl := Option.some.inj hstep
    have hset : Settled t := h.atPC
    obtain ⟨phase, last, capStats, log, heq⟩ := t.verifyAndLog_eq env
    rw [heq]
    exact ⟨⟨⟨hs.files, hs.counts⟩, hs.current, hs.named, hs.begun, hs.bounded, hs.fresh, hs.own⟩, hset⟩
  | returned => cases hstep
  | escaped => cases hstep

theorem SegmentInv.setState {t : CapturingThread} {pc : WorkerPC} (h : SegmentInv ⟨t, pc⟩)
    (state : CDVState) (phase : FinalizePhase) (captureTime : Int) (hne : state ≠ .capturing)
    (hcap : state.captures = true → t.state.captures = true)
    (hover : state ≠ .idle → state ≠ .finished → t.state ≠ .idle ∧ t.state ≠ .finished) :
    SegmentInv
      ⟨{ t with state := state, finalizePhase := phase, captureTime := captureTime }, pc⟩ := by
  have hs := h.segmented
  have hset : Settled t → Settled { t with
      state := state, finalizePhase := phase, captureTime := captureTime } := by
    intro hset hno
    obtain ⟨hnone, hzero⟩ := hset hno
    exact ⟨hnone, fun hi hf => hzero (hover hi hf).1 (hover hi hf).2⟩
  refine ⟨⟨⟨hs.files, hs.counts⟩, hs.current, hs.named, fun hc => hs.begun (hcap hc), hs.bounded,
    fun hno hc => hs.fresh hno (hcap hc), hs.own⟩, ?_⟩
  cases pc with
  | split d | openFile d | write d | count d => exact h.atPC
  | limitStore | noteDropped | pauseClose | pauseReset | escaped => exact h.atPC
  | testFinalizing f drops =>
    obtain ⟨hold, -⟩ : Settled t ∧ (t.lastCaptured = true → t.state ≠ .capturing) := h.atPC
    exact ⟨hset hold, fun _ => hne⟩
  | top | get | endTest | endStore | timeoutTest | timeoutStore => exact hset h.atPC
  | test f drops => exact hset h.atPC
  | exitClose | verify | returned => exact hset h.atPC

theorem SegmentInv.startCapturing {t : CapturingThread} {pc : WorkerPC} (h : SegmentInv ⟨t, pc⟩)
    (hstate : t.state = .capturePaused) (hlast : t.lastCaptured = false) (a : StartArgs) :
    SegmentInv ⟨{ t with
      captureTime := a.captureTime
      captureFilename := a.filename
      dtformat := a.dtformat
      ndigits := a.ndigits
      starts := t.starts ++ [a]
      state := .capturing }, pc⟩ := by
  have hs := h.segmented
  have hno (P : Prop) : t.lastCaptured = true → P := by
    intro hyes
    rw [hlast] at hyes
    cases hyes
  have hset : Settled t → Settled { t with
      captureTime := a.captureTime
      captureFilename := a.filename
      dtformat := a.dtformat
      ndigits := a.ndigits
      starts := t.starts ++ [a]
      state := .capturing } := by
    intro hset _
    obtain ⟨hnone, hzero⟩ := hset hlast
    exact ⟨hnone, fun _ _ => hzero (by simp [hstate]) (by simp [hstate])⟩
  refine ⟨⟨⟨?_, hs.counts⟩, hno _, ?_, ?_, ?_, ?_, hno _⟩, ?_⟩
  · intro v hv
    obtain ⟨k, b, hseg⟩ := hs.files v hv
    exact ⟨k, b, hseg.append a⟩
  · intro b hb
    have hb' : (t.starts ++ [a]).getLast? = some b := hb
    rw [List.getLast?_concat] at hb'
    obtain rfl := Option.some.inj hb'
    rfl
  · intro _
    exact List.append_ne_nil_of_right_ne_nil _ (List.cons_ne_nil _ _)
  · intro x hx
    show x.1.segment ≤ (t.starts ++ [a]).length
    have hle : x.1.segment ≤ t.starts.length := hs.bounded x hx
    simp only [List.length_append, List.length_singleton]
    omega
  · intro _ _ x hx
    show x.1.segment ≠ (t.starts ++ [a]).length
    have hle : x.1.segment ≤ t.starts.length := hs.bounded x hx
    simp only [List.length_append, List.length_singleton]
    omega
  · cases pc with
    | split d | openFile d | write d | count d => exact hno _ h.atPC.1
    | limitStore | noteDropped => exact hno _ h.atPC
    | pauseClose | pauseReset | escaped => exact h.atPC
    | testFinalizing f drops =>
      obtain ⟨hold, -⟩ : Settled t ∧ (t.lastCaptured = true → t.state ≠ .capturing) := h.atPC
      exact ⟨hset hold, hno _⟩
    | top | get | endTest | endStore | timeoutTest | timeoutStore => exact hset h.atPC
    | test f drops => exact hset h.atPC
    | exitClose | verify | returned => exact hset h.atPC

end CaptureWorker

inductive WorkerAction
  | command (k : Command)
  | worker (r : Round)
  deriving DecidableEq

namespace CaptureWorker

variable {env : CaptureEnv} {w w' : CaptureWorker}

def act (env : CaptureEnv) (w : CaptureWorker) : WorkerAction → Option CaptureWorker
  | .command k => some ⟨{ w.toCapturingThread with toCDV := w.toCDV.command k }, w.pc⟩
  | .worker r => w.step env r

/-- When a segment starts, the thread has found a frame that was not captured
since it captured the last one. -/
def noticesPause (w : CaptureWorker) : WorkerAction → Bool
  | .command (.start _) => w.state != .capturePaused || !w.lastCaptured
  | _ => true

theorem SegmentInv.command (h : SegmentInv w) {k : Command}
    (hok : w.noticesPause (.command k) = true) :
    SegmentInv ⟨{ w.toCapturingThread with toCDV := w.toCDV.command k }, w.pc⟩ := by
  obtain ⟨t, pc⟩ := w
  cases k with
  | start a =>
    show SegmentInv ⟨{ t with toCDV := t.toCDV.startCapturing a }, pc⟩
    unfold CDV.startCapturing
    by_cases hstate : t.state = .capturePaused
    · have hlast : t.lastCaptured = false := by
        simpa [noticesPause, hstate] using hok
      rw [if_pos hstate]
      exact h.startCapturing hstate hlast a
    · rw [if_neg hstate]
      exact h
  | stop =>
    show SegmentInv ⟨{ t with toCDV := t.toCDV.stopCapturing }, pc⟩
    unfold CDV.stopCapturing
    by_cases hstate : t.state = .capturing
    · rw [if_pos hstate]
      exact h.setState .capturePaused t.finalizePhase t.captureTime (by decide) nofun
        fun _ _ => by simp [hstate]
    · rw [if_neg hstate]
      exact h
  | finalize =>
    show SegmentInv ⟨{ t with toCDV := t.toCDV.finalizeCapturing }, pc⟩
    unfold CDV.finalizeCapturing
    by_cases hstate : t.state ≠ .capturing ∧ t.state ≠ .capturePaused
    · rw [if_pos hstate]
      exact h
    · rw [if_neg hstate]
      by_cases hcap : t.state = .capturing
      · simp only [if_pos hcap]
        exact h.setState .captureFinalizing .draining 0 (by decide)
          (fun _ => by rw [hcap]; rfl) fun _ _ => by simp [hcap]
      · simp only [if_neg hcap]
        exact h.setState .finished .draining 0 (by decide) nofun fun _ hf => absurd rfl hf
  | destroy =>
    exact h.setState .idle t.finalizePhase t.captureTime (by decide) nofun fun hi => absurd rfl hi

/-- Every file and every count stays within one segment, as long as the thread
has noticed each pause by the time capturing starts again. -/
theorem segments_kept (env : CaptureEnv) (captureFilename dtformat : CString) (ndigits : Int32)
    (last : AVICheckResult) (drops : Int32) {acts : List WorkerAction} {w : CaptureWorker}
    (hrun : Run (act env) (fun u a => u.noticesPause a = true)
      (start env (.buildCapturing captureFilename dtformat ndigits last) drops) acts w) :
    SegmentsKept w.toCapturingThread := by
  have hkeep : ∀ u a v, SegmentInv u → u.noticesPause a = true → act env u a = some v →
      SegmentInv v := by
    intro u a v hinv hok hstep
    cases a with
    | command k =>
      obtain rfl := Option.some.inj hstep
      exact hinv.command hok
    | worker r => exact hinv.step hstep
  have hstart : SegmentInv (start env (.buildCapturing captureFilename dtformat ndigits last) drops) := by
    refine ⟨⟨⟨nofun, ?_⟩, nofun, nofun, nofun, nofun, nofun, nofun⟩, ?_⟩
    · intro before d n time after heq
      simp [start, CapturingThread.start, CDV.buildCapturing] at heq
    · intro _
      exact ⟨rfl, fun _ _ => ⟨rfl, rfl⟩⟩
  exact (hrun.invariant hkeep hstart).segmented.toSegmentsKept

/-- Two captures of one frame each; in between the thread takes a frame. -/
def noticedPause : List WorkerAction :=
  .command (.start ⟨"C:\\a.avi".toList, [], 0, 0⟩) ::
    List.replicate 8 (.worker (CaptureLoop.shortFrame 1)) ++ .command .stop ::
    List.replicate 6 (.worker (CaptureLoop.shortFrame 2)) ++
    .command (.start ⟨"C:\\b.avi".toList, [], 0, 0⟩) ::
    List.replicate 8 (.worker (CaptureLoop.shortFrame 3))

theorem noticedPause_kept : ∃ w : CaptureWorker,
    Run (act (CaptureLoop.shortFrameEnv 100)) (fun u a => u.noticesPause a = true)
      (start (CaptureLoop.shortFrameEnv 100) (.buildCapturing [] [] 0 {}) 0) noticedPause w ∧
    w.files.map (·.filename) = ["C:\\a.avi".toList, "C:\\b.avi".toList] ∧
    SegmentsKept w.toCapturingThread := by
  have hrun : Run (act (CaptureLoop.shortFrameEnv 100)) (fun u a => u.noticesPause a = true)
    (start (CaptureLoop.shortFrameEnv 100) (.buildCapturing [] [] 0 {}) 0) noticedPause _ :=
    run_of_exec rfl
  exact ⟨_, hrun, rfl, segments_kept _ _ _ _ _ _ hrun⟩

/-- The same with no frame taken during the pause. -/
def quickPause : List WorkerAction :=
  .command (.start ⟨"C:\\a.avi".toList, [], 0, 0⟩) ::
    List.replicate 8 (.worker (CaptureLoop.shortFrame 1)) ++
    [.command .stop, .command (.start ⟨"C:\\b.avi".toList, [], 0, 0⟩)] ++
    List.replicate 8 (.worker (CaptureLoop.shortFrame 3))

theorem quickPause_mixes : ∃ w : CaptureWorker,
    Run (act (CaptureLoop.shortFrameEnv 100)) (fun _ _ => True)
      (start (CaptureLoop.shortFrameEnv 100) (.buildCapturing [] [] 0 {}) 0) quickPause w ∧
    w.files.map (·.handed.map (·.segment)) = [[1, 2]] ∧
    w.files.map (·.filename) = ["C:\\a.avi".toList] ∧ w.counter = 2 ∧
    ¬ SegmentsKept w.toCapturingThread := by
  have hrun : Run (act (CaptureLoop.shortFrameEnv 100)) (fun _ _ => True)
    (start (CaptureLoop.shortFrameEnv 100) (.buildCapturing [] [] 0 {}) 0) quickPause _ :=
    run_of_exec rfl
  refine ⟨_, hrun, rfl, rfl, rfl, fun hkept => ?_⟩
  obtain ⟨k, a, hseg⟩ := hkept.files _ List.mem_cons_self
  have hfirst : 1 = k + 1 := hseg.frames _ List.mem_cons_self
  have hsecond : 2 = k + 1 := hseg.frames _ (List.mem_cons_of_mem _ List.mem_cons_self)
  omega

end CaptureWorker

end WinDV
