import WinDV.RecordingTimes

/-! The files of a session hold the captured frames, each of them once and in
order, as long as the calls of the worker thread succeed. -/

namespace WinDV

open Transition

def Calls.succeed (c : Calls) : Bool :=
  match c.finalize, c.created, c.delivery with
  | .completed _ _, some _, .delivered => true
  | _, _, _ => false

theorem Calls.succeed_eq {c : Calls} (h : c.succeed = true) :
    ∃ finalPath moved tmpfile, c.finalize = .completed finalPath moved ∧
      c.created = some tmpfile ∧ c.delivery = .delivered := by
  unfold succeed at h
  split at h
  · next finalPath moved tmpfile hf hc hd => exact ⟨finalPath, moved, tmpfile, hf, hc, hd⟩
  · cases h

def CaptureAction.succeeds : CaptureAction → Bool
  | .command _ => true
  | .round r => r.calls.succeed

namespace CapturingThread

variable {env : CaptureEnv} {t t' : CapturingThread} {d : DequeuedFrame}

def fileFrames (t : CapturingThread) : List (List DequeuedFrame) := t.files.map (·.handed)

theorem fileFrames_none (h : t.aviWriter = none) : t.fileFrames = t.closed.map (·.handed) := by
  rw [fileFrames, CDV.files, h, Option.toList_none, List.append_nil]

theorem fileFrames_some {w : CAVIWriter} (h : t.aviWriter = some w) :
    t.fileFrames = t.closed.map (·.handed) ++ [w.handed] := by
  rw [fileFrames, CDV.files, h, Option.toList_some, List.map_append, List.map_singleton]

/-- A captured frame starts a file when it is the first one, when the frame
before it was not captured, when the open file is full, or at a discontinuity. -/
def StartsFile (env : CaptureEnv) (t : CapturingThread) (f : Frame) : Prop :=
  (∀ d ∈ t.dequeued, d.state.captures = false) ∨
  (∃ d, t.dequeued.getLast? = some d ∧ d.state.captures = false) ∨
  (∃ w, t.aviWriter = some w ∧ w.handed.length = env.maxAVIFrames.toNat) ∨
  (0 < env.discontinuityTreshold ∧ Discontinuous env t.dequeued f)

/-- The files of `t` while calls succeed: none is too long, the open one is
counted and not ended, and the closed ones are ended once and listed. -/
structure FilesKept (env : CaptureEnv) (t : CapturingThread) : Prop extends TimesNoted env t where
  bounded : ∀ l ∈ t.fileFrames, l.length ≤ env.maxAVIFrames.toNat
  opened : ∀ w, t.aviWriter = some w →
    w.finalfile = [] ∧ w.endsOfStream = 0 ∧ t.nFrames = Int32.ofNat w.handed.length
  ended : ∀ w ∈ t.closed, w.endsOfStream = 1 ∧ w.finalfile ≠ []
  listed : t.finalizedFiles = t.closed.map (·.finalfile)

theorem FilesKept.closeWriter (h : FilesKept env t) (finalPath : Path) (moved : Bool) :
    ∃ t', t.closeWriter (.completed finalPath moved) = .ok t' ∧ FilesKept env t' ∧
      t'.aviWriter = none ∧ t'.fileFrames = t.fileFrames ∧ t'.dequeued = t.dequeued := by
  cases hc : t.closeWriter (.completed finalPath moved) with
  | error t' =>
    obtain ⟨w, w', -, hw, hf, -⟩ := closeWriter_eq_error hc
    rw [CAVIWriter.finalizeFile, if_neg (fun hne => hne (h.opened w hw).1)] at hf
    cases hf
  | ok t' =>
    refine ⟨t', rfl, ?_⟩
    rcases closeWriter_eq_ok hc with ⟨hnone, rfl⟩ | ⟨w, w', phase, hw, hf, rfl⟩
    · exact ⟨h, hnone, rfl, rfl⟩
    · obtain ⟨hfinal, hends, -⟩ := h.opened w hw
      obtain ⟨-, hhanded, -, -, -, hne, hends'⟩ := CAVIWriter.finalizeFile_eq_ok hfinal hf
      have hframes : (t.closed ++ [w']).map (·.handed) = t.fileFrames := by
        rw [fileFrames_some hw, List.map_append, List.map_singleton, hhanded]
      rw [if_pos hne]
      refine ⟨⟨⟨h.dvTime, h.oldDVTime, h.first, h.last⟩, ?_, ?_, ?_, ?_⟩, rfl, ?_, rfl⟩
      · rw [fileFrames_none rfl]
        show ∀ l ∈ (t.closed ++ [w']).map (·.handed), _
        rw [hframes]
        exact h.bounded
      · intro w hw
        cases hw
      · intro v hv
        rcases List.mem_append.mp hv with hv | hv
        · exact h.ended v hv
        · obtain rfl := List.mem_singleton.mp hv
          exact ⟨by rw [hends', hends], hne⟩
      · show t.finalizedFiles ++ [w'.finalfile] = (t.closed ++ [w']).map (·.finalfile)
        rw [h.listed, List.map_append, List.map_singleton]
      · rw [fileFrames_none rfl]
        exact hframes

theorem FilesKept.full_iff (h : FilesKept env t) {w : CAVIWriter} (hw : t.aviWriter = some w) :
    t.nFrames.toUInt32 ≥ env.maxAVIFrames ↔ w.handed.length = env.maxAVIFrames.toNat := by
  have hle : w.handed.length ≤ env.maxAVIFrames.toNat := by
    apply h.bounded
    rw [fileFrames_some hw]
    exact List.mem_append_right _ List.mem_cons_self
  have hmax : env.maxAVIFrames.toNat < 2 ^ 32 := env.maxAVIFrames.toNat_lt
  have hn : t.nFrames.toUInt32.toNat = w.handed.length := by
    rw [(h.opened w hw).2.2, toUInt32_ofNat_toNat]
    exact Nat.mod_eq_of_lt (by omega)
  rw [ge_iff_le, UInt32.le_iff_toNat_le, hn]
  omega

theorem FilesKept.splitFile (h : FilesKept env t) (finalPath : Path) (moved : Bool) :
    ∃ t', t.splitFile env (.completed finalPath moved) = .ok t' ∧ FilesKept env t' ∧
      t'.aviWriter = (if t.splits env then none else t.aviWriter) ∧
      t'.fileFrames = t.fileFrames ∧ t'.dequeued = t.dequeued ∧
      ∀ w, t'.aviWriter = some w → w.handed.length < env.maxAVIFrames.toNat := by
  unfold CapturingThread.splitFile
  cases hs : t.splits env with
  | true =>
    obtain ⟨t', hc, hkept, hnone, hframes, hdeq⟩ := h.closeWriter finalPath moved
    refine ⟨t', hc, hkept, hnone, hframes, hdeq, fun w hw => ?_⟩
    rw [hnone] at hw
    cases hw
  | false =>
    refine ⟨t, rfl, h, rfl, rfl, rfl, fun w hw => ?_⟩
    have hle := h.bounded w.handed (by
      rw [fileFrames_some hw]
      exact List.mem_append_right _ List.mem_cons_self)
    have hfull : ¬ t.nFrames.toUInt32 ≥ env.maxAVIFrames := by
      intro hge
      rw [splits, hw, Option.isSome_some, Bool.true_and, Bool.or_eq_false_iff] at hs
      exact absurd hge (of_decide_eq_false hs.1)
    rw [h.full_iff hw] at hfull
    omega

theorem FilesKept.openWriter (h : FilesKept env t) (tmpfile : Path) :
    ∃ t' w, t.openWriter env (some tmpfile) = .ok t' ∧ FilesKept env t' ∧
      t'.aviWriter = some w ∧ t'.closed = t.closed ∧ t'.dequeued = t.dequeued ∧
      (t.aviWriter = some w ∨ (t.aviWriter = none ∧ w.handed = [])) := by
  unfold CapturingThread.openWriter
  cases hw : t.aviWriter with
  | some w =>
    rw [Option.isSome_some, if_pos rfl]
    exact ⟨t, w, rfl, h, hw, rfl, rfl, .inl rfl⟩
  | none =>
    rw [Option.isSome_none, if_neg Bool.false_ne_true]
    refine ⟨_, _, rfl, ⟨⟨h.dvTime, h.oldDVTime, h.first, h.last⟩, ?_, ?_, h.ended, h.listed⟩,
      rfl, rfl, rfl, .inr ⟨rfl, rfl⟩⟩
    · intro l hl
      rw [fileFrames_some rfl] at hl
      rcases List.mem_append.mp hl with hl | hl
      · apply h.bounded
        rw [fileFrames_none hw]
        exact hl
      · obtain rfl := List.mem_singleton.mp hl
        exact Nat.zero_le _
    · rintro w hw'
      obtain rfl := Option.some.inj hw'
      exact ⟨rfl, rfl, rfl⟩

theorem FilesKept.writeFrame (h : FilesKept env t) (hnth : env.everyNth = 1) {w : CAVIWriter}
    (hw : t.aviWriter = some w) (hroom : w.handed.length < env.maxAVIFrames.toNat) :
    ∃ t' w', t.writeFrame env d .delivered = .ok t' ∧ FilesKept env t' ∧
      t'.aviWriter = some w' ∧ w'.handed = w.handed ++ [d] ∧ t'.closed = t.closed ∧
      t'.dequeued = t.dequeued := by
  obtain ⟨hfinal, hends, hcount⟩ := h.opened w hw
  unfold CapturingThread.writeFrame
  rw [hw, hnth]
  simp only [UInt32.mod_one, if_true, CAVIWriter.handleFrame]
  refine ⟨_, _, rfl, ⟨⟨h.dvTime, h.oldDVTime, h.first, h.last⟩, ?_, ?_, h.ended, h.listed⟩,
    rfl, rfl, rfl, rfl⟩
  · intro l hl
    rw [fileFrames_some rfl] at hl
    rcases List.mem_append.mp hl with hl | hl
    · apply h.bounded
      rw [fileFrames_some hw]
      exact List.mem_append_left _ hl
    · obtain rfl := List.mem_singleton.mp hl
      rw [List.length_append, List.length_singleton]
      exact hroom
  · intro w' hw'
    obtain rfl := Option.some.inj hw'
    refine ⟨hfinal, hends, ?_⟩
    show t.nFrames + 1 = Int32.ofNat (w.handed ++ [d]).length
    rw [hcount, List.length_append, List.length_singleton, Int32.ofNat_add]
    rfl

theorem countFrame_frames (t : CapturingThread) (d : DequeuedFrame) :
    (t.countFrame d).fileFrames = t.fileFrames := by
  obtain ⟨state, captureTime, reason, -, heq⟩ := countFrame_eq t d
  rw [heq]
  cases hw : t.aviWriter with
  | none => rw [fileFrames_none hw, fileFrames_none rfl]
  | some w =>
    obtain ⟨x, hx⟩ := w.backfill_eq t.dvTime
    rw [fileFrames_some hw, fileFrames_some rfl]
    show t.closed.map (·.handed) ++ [(w.backfill t.dvTime).handed] = _
    rw [hx]

theorem FilesKept.countFrame (h : FilesKept env t) :
    FilesKept env (t.countFrame d) ∧ (t.countFrame d).aviWriter.isSome = t.aviWriter.isSome ∧
      (t.countFrame d).dequeued = t.dequeued := by
  have hframes := t.countFrame_frames d
  obtain ⟨state, captureTime, reason, -, heq⟩ := countFrame_eq t d
  refine ⟨?_, ?_, ?_⟩
  · have hbounded := h.bounded
    rw [← hframes, heq] at hbounded
    rw [heq]
    refine ⟨⟨h.dvTime, h.oldDVTime, h.first, h.last⟩, hbounded, ?_, h.ended, h.listed⟩
    intro w' hw'
    obtain ⟨w, hw, rfl⟩ := Option.map_eq_some_iff.mp hw'
    obtain ⟨x, hx⟩ := w.backfill_eq t.dvTime
    rw [hx]
    exact h.opened w hw
  · rw [heq]
    exact Option.isSome_map
  · rw [heq]

theorem FilesKept.captureFrame (h : FilesKept env t) (hnth : env.everyNth = 1)
    (hmax : 0 < env.maxAVIFrames) {calls : Calls} (hcalls : calls.succeed = true) :
    ∃ t', t.captureFrame env d calls = .ok t' ∧ FilesKept env t' ∧ t'.aviWriter.isSome = true ∧
      t'.dequeued = t.dequeued ∧
      ((t.aviWriter = none ∨ t.splits env = true) → t'.fileFrames = t.fileFrames ++ [[d]]) ∧
      ∀ w, t.aviWriter = some w → t.splits env = false →
        t'.fileFrames = t.closed.map (·.handed) ++ [w.handed ++ [d]] := by
  obtain ⟨finalPath, moved, tmpfile, hf, hc, hd⟩ := Calls.succeed_eq hcalls
  unfold CapturingThread.captureFrame
  rw [hf, hc, hd]
  obtain ⟨t₁, h₁, hk₁, hw₁, hframes₁, hdeq₁, hroom₁⟩ :=
    h.splitFile finalPath moved
  obtain ⟨t₂, w₂, h₂, hk₂, hw₂, hclosed₂, hdeq₂, hnew⟩ := hk₁.openWriter tmpfile
  have hroom₂ : w₂.handed.length < env.maxAVIFrames.toNat := by
    rcases hnew with hw | ⟨-, hnil⟩
    · exact hroom₁ w₂ hw
    · rw [hnil]
      exact UInt32.lt_iff_toNat_lt.mp hmax
  obtain ⟨t₃, w₃, h₃, hk₃, hw₃, hhanded, hclosed₃, hdeq₃⟩ := hk₂.writeFrame (d := d) hnth hw₂ hroom₂
  obtain ⟨hk₄, hsome₄, hdeq₄⟩ := hk₃.countFrame (d := d)
  have hframes : (t₃.countFrame d).fileFrames = t₁.closed.map (·.handed) ++ [w₂.handed ++ [d]] := by
    rw [countFrame_frames, fileFrames_some hw₃, hclosed₃, hclosed₂, hhanded]
  rw [h₁]
  refine ⟨t₃.countFrame d, ?_, hk₄, ?_, ?_, ?_, ?_⟩
  · show t₁.openWriter env (some tmpfile) >>= _ = _
    rw [h₂]
    show t₂.writeFrame env d .delivered >>= _ = _
    rw [h₃]
    rfl
  · rw [hsome₄, hw₃]
    rfl
  · rw [hdeq₄, hdeq₃, hdeq₂, hdeq₁]
  · intro hstart
    have hnone : t₁.aviWriter = none := by
      rcases hstart with hw | hs
      · rw [hw₁, hw]
        exact ite_self none
      · rw [hw₁, if_pos hs]
    rcases hnew with hw | ⟨-, hnil⟩
    · rw [hnone] at hw
      cases hw
    · rw [hframes, hnil, ← hframes₁, fileFrames_none hnone]
      rfl
  · intro w hw hs
    have hsame : t₁.aviWriter = some w := by rw [hw₁, hs, if_neg Bool.false_ne_true, hw]
    rcases hnew with hw' | ⟨hnone, -⟩
    · obtain rfl := Option.some.inj (hsame.symm.trans hw')
      have hclosed : t₁.closed.map (·.handed) = t.closed.map (·.handed) := by
        have heq := hframes₁
        rw [fileFrames_some hsame, fileFrames_some hw] at heq
        exact List.append_cancel_right heq
      rw [hframes, hclosed]
    · rw [hsame] at hnone
      cases hnone

theorem FilesKept.pauseFrame (h : FilesKept env t) {calls : Calls} (hcalls : calls.succeed = true) :
    ∃ t', t.pauseFrame calls = .ok t' ∧ FilesKept env t' ∧ t'.aviWriter = none ∧
      t'.fileFrames = t.fileFrames ∧ t'.dequeued = t.dequeued := by
  obtain ⟨finalPath, moved, tmpfile, hf, -, -⟩ := Calls.succeed_eq hcalls
  obtain ⟨t₁, h₁, hk, hnone, hframes, hdeq⟩ := h.closeWriter finalPath moved
  unfold CapturingThread.pauseFrame
  rw [hf, h₁]
  refine ⟨t₁.resetCounters, rfl, ?_, ?_, ?_, ?_⟩
  · rw [resetCounters_eq]
    exact ⟨⟨hk.dvTime, hk.oldDVTime, hk.first, hk.last⟩, hk.bounded, hk.opened, hk.ended, hk.listed⟩
  · rw [resetCounters_eq]
    exact hnone
  · rw [resetCounters_eq]
    exact hframes
  · rw [resetCounters_eq]
    exact hdeq

theorem FilesKept.taken (h : FilesKept env t) (f : Frame) (drops : Int32) :
    FilesKept env (t.taken env f drops) := by
  obtain ⟨deltaDVTime, oldDVTime, dvTime, first, last, heq⟩ := taken_eq env t f drops
  have htimes := h.toTimesNoted.taken f drops
  rw [heq] at htimes ⊢
  exact ⟨htimes, h.bounded, h.opened, h.ended, h.listed⟩

/-- Between two rounds: the files hold the captured frames, and one is open
while frames are captured. -/
structure Partitioned (env : CaptureEnv) (t : CapturingThread) : Prop extends FilesKept env t where
  partition : t.fileFrames.flatten = t.dequeued.filter (·.state.captures)
  isOpen : t.aviWriter.isSome = t.lastCaptured

theorem Partitioned.splits_iff (h : Partitioned env t) (f : Frame) (drops : Int32) :
    ((t.taken env f drops).aviWriter = none ∨ (t.taken env f drops).splits env = true) ↔
      t.StartsFile env f := by
  have hdelta := h.toTimesNoted.delta f drops
  obtain ⟨deltaDVTime, oldDVTime, dvTime, first, last, heq⟩ := taken_eq env t f drops
  have hwriter : (t.taken env f drops).aviWriter = t.aviWriter := by rw [heq]
  have hcount : (t.taken env f drops).nFrames = t.nFrames := by rw [heq]
  rw [hwriter, splits, hwriter, hcount]
  have hopen := h.isOpen
  -- a file is open exactly when the last frame was captured, so not before the first one
  have hpast : (∀ d ∈ t.dequeued, d.state.captures = false) → t.aviWriter = none := by
    intro hall
    cases hl : t.dequeued.getLast? with
    | none => simpa [lastCaptured, hl] using hopen
    | some d => simpa [lastCaptured, hl, hall d (List.mem_of_getLast? hl)] using hopen
  cases hw : t.aviWriter with
  | none =>
    refine ⟨fun _ => ?_, fun _ => .inl rfl⟩
    rw [hw, lastCaptured] at hopen
    cases hl : t.dequeued.getLast? with
    | none =>
      rw [List.getLast?_eq_none_iff] at hl
      exact .inl (by simp [hl])
    | some d => exact .inr (.inl ⟨d, hl, by simpa [hl] using hopen.symm⟩)
  | some w =>
    rw [hw, lastCaptured] at hopen
    have hlast : ¬ ∃ d, t.dequeued.getLast? = some d ∧ d.state.captures = false := by
      rintro ⟨d, hl, hd⟩
      simp [hl, hd] at hopen
    have hfirst : ¬ ∀ d ∈ t.dequeued, d.state.captures = false := by
      intro hall
      rw [hpast hall] at hw
      cases hw
    have hfull := h.full_iff hw
    simp only [StartsFile, hlast, hfirst, hw, false_or, reduceCtorEq, Option.isSome_some,
      Bool.true_and, Bool.or_eq_true, Bool.and_eq_true, decide_eq_true_eq, Option.some.injEq,
      exists_eq_left', gt_iff_lt, hfull, hdelta]

structure FrameFiled (env : CaptureEnv) (t t' : CapturingThread) (d : DequeuedFrame) : Prop where
  starts : t.StartsFile env d.frame → t'.fileFrames = t.fileFrames ++ [[d]]
  continues : ¬ t.StartsFile env d.frame → ∃ before l, t.fileFrames = before ++ [l] ∧
    t'.fileFrames = before ++ [l ++ [d]]

theorem Partitioned.captured (h : Partitioned env t) (hnth : env.everyNth = 1)
    (hmax : 0 < env.maxAVIFrames) {f : Frame} {calls : Calls} (hcalls : calls.succeed = true)
    (hcap : t.state.captures = true) :
    ∃ t', t.onFrame env f calls = (.again, t') ∧ Partitioned env t' ∧
      FrameFiled env t t' (t.dequeue f calls.droppedFrames) := by
  have hkept := h.toFilesKept.taken f calls.droppedFrames
  obtain ⟨t', hc, hk, hopen, hdeq, hstart, hcont⟩ :=
    hkept.captureFrame (d := t.dequeue f calls.droppedFrames) hnth hmax hcalls
  have hsplit := h.splits_iff f calls.droppedFrames
  obtain ⟨deltaDVTime, oldDVTime, dvTime, first, last, heq⟩ := taken_eq env t f calls.droppedFrames
  have hframes : (t.taken env f calls.droppedFrames).fileFrames = t.fileFrames := by rw [heq]; rfl
  have htaken : t'.dequeued = t.dequeued ++ [t.dequeue f calls.droppedFrames] := by rw [hdeq, heq]
  have hfiled : FrameFiled env t t' (t.dequeue f calls.droppedFrames) := by
    refine ⟨fun hs => ?_, fun hs => ?_⟩
    · rw [← hframes]
      exact hstart (hsplit.mpr hs)
    · obtain ⟨hopen', hno⟩ := not_or.mp (mt hsplit.mp hs)
      obtain ⟨w, hw⟩ := Option.ne_none_iff_exists'.mp hopen'
      refine ⟨_, w.handed, ?_, hcont w hw (Bool.eq_false_iff.mpr hno)⟩
      rw [← hframes, fileFrames_some hw]
  refine ⟨t', ?_, ⟨hk, ?_, ?_⟩, hfiled⟩
  · rw [onFrame_eq, hcap, if_pos rfl, hc]
    rfl
  -- whether or not a file starts, the files together gain the one frame
  · have hflat : t'.fileFrames.flatten = t.fileFrames.flatten ++ [t.dequeue f calls.droppedFrames] := by
      by_cases hs : t.StartsFile env f
      · rw [hfiled.starts hs]
        simp
      · obtain ⟨before, l, hl, hl'⟩ := hfiled.continues hs
        rw [hl, hl']
        simp
    rw [hflat, h.partition, htaken, List.filter_append]
    congr 1
    simp [CapturingThread.dequeue, hcap]
  · rw [hopen, lastCaptured, htaken, List.getLast?_concat]
    exact hcap.symm

theorem Partitioned.paused (h : Partitioned env t) {f : Frame} {calls : Calls}
    (hcalls : calls.succeed = true) (hcap : t.state.captures = false) :
    ∃ t', t.onFrame env f calls = (.again, t') ∧ Partitioned env t' := by
  obtain ⟨t', hc, hk, hnone, hframes, hdeq⟩ := (h.toFilesKept.taken f calls.droppedFrames).pauseFrame hcalls
  obtain ⟨deltaDVTime, oldDVTime, dvTime, first, last, heq⟩ := taken_eq env t f calls.droppedFrames
  have htaken : t'.dequeued = t.dequeued ++ [t.dequeue f calls.droppedFrames] := by rw [hdeq, heq]
  refine ⟨t', ?_, hk, ?_, ?_⟩
  · rw [onFrame_eq, hcap, if_neg Bool.false_ne_true, hc]
    rfl
  · rw [htaken, List.filter_append, List.filter_cons_of_neg (by exact Bool.eq_false_iff.mp hcap),
      List.filter_nil, List.append_nil, ← h.partition, hframes, heq]
    rfl
  · rw [hnone, lastCaptured, htaken, List.getLast?_concat]
    exact hcap.symm

end CapturingThread

namespace CaptureLoop

variable {env : CaptureEnv} {s s' : CaptureLoop}

/-- After a run whose calls succeed: no exception left the thread, the files
hold the captured frames in order, and each was finalized once. -/
structure FilesPartition (env : CaptureEnv) (s : CaptureLoop) : Prop where
  partition : s.2.fileFrames.flatten = s.2.dequeued.filter (·.state.captures)
  bounded : ∀ l ∈ s.2.fileFrames, l.length ≤ env.maxAVIFrames.toNat
  filed : ∀ f calls s', s.2.state.captures = true → calls.succeed = true →
    step env s (.round ⟨.frame f, calls⟩) = some s' →
    CapturingThread.FrameFiled env s.2 s'.2 (s.2.dequeue f calls.droppedFrames)
  ended : ∀ w ∈ s.2.closed, w.endsOfStream = 1 ∧ w.finalfile ≠ []
  notEnded : ∀ w, s.2.aviWriter = some w → w.endsOfStream = 0
  listed : s.2.finalizedFiles = s.2.closed.map (·.finalfile)
  contained : s.1 ≠ .escaped
  allClosed : s.1 = .returned → s.2.aviWriter = none

def Kept (env : CaptureEnv) (s : CaptureLoop) : Prop :=
  (s.1 = .again ∧ s.2.Partitioned env) ∨ (s.1 = .returned ∧ FilesPartition env s)

theorem kept_start (env : CaptureEnv) (captureFilename dtformat : CString) (ndigits : Int32)
    (last : AVICheckResult) (drops : Int32) :
    Kept env (start env (.buildCapturing captureFilename dtformat ndigits last) drops) := by
  refine .inl ⟨rfl, ⟨⟨⟨rfl, rfl, rfl, rfl⟩, ?_, ?_, ?_, rfl⟩, rfl, rfl⟩⟩
  · intro l hl
    cases hl
  · intro w hw
    cases hw
  · intro w hw
    cases hw

theorem kept_command (h : Kept env s) (k : Command) :
    Kept env (s.1, { s.2 with toCDV := s.2.toCDV.command k }) := by
  obtain ⟨state, phase, captureTime, captureFilename, dtformat, ndigits, starts, heq⟩ :=
    s.2.toCDV.command_eq k
  rw [heq]
  rcases h with ⟨hag, hp⟩ | ⟨hret, hp⟩
  · exact .inl ⟨hag, ⟨⟨hp.dvTime, hp.oldDVTime, hp.first, hp.last⟩, hp.bounded, hp.opened, hp.ended,
      hp.listed⟩, hp.partition, hp.isOpen⟩
  · refine .inr ⟨hret, hp.partition, hp.bounded, ?_, hp.ended, hp.notEnded, hp.listed,
      hp.contained, hp.allClosed⟩
    intro f calls s' _ _ hstep
    have hag := (step_round hstep).1
    rw [show s.1 = .again from hag] at hret
    cases hret

theorem kept_afterLoop {t : CapturingThread} (h : t.Partitioned env) (reason : StopReason)
    (state : CDVState) {calls : Calls} (hcalls : calls.succeed = true) :
    Kept env (CapturingThread.afterLoop env { t with capStats.eStopReason := reason, state := state }
      calls) := by
  obtain ⟨finalPath, moved, tmpfile, hf, -, -⟩ := Calls.succeed_eq hcalls
  have hkept : CapturingThread.FilesKept env
      { t with capStats.eStopReason := reason, state := state } :=
    ⟨⟨h.dvTime, h.oldDVTime, h.first, h.last⟩, h.bounded, h.opened, h.ended, h.listed⟩
  obtain ⟨t', hc, hk, hnone, hframes, hdeq⟩ := hkept.closeWriter finalPath moved
  have hpart : t'.fileFrames.flatten = t'.dequeued.filter (·.state.captures) := by
    rw [hframes, hdeq]
    exact h.partition
  obtain ⟨phase, last, capStats, log, heq⟩ := t'.verifyAndLog_eq env
  have hend : CapturingThread.afterLoop env { t with capStats.eStopReason := reason, state := state }
      calls = (.returned, t'.verifyAndLog env) := by
    rw [CapturingThread.afterLoop, hf, hc]
    rfl
  rw [hend, heq]
  refine .inr ⟨rfl, hpart, hk.bounded, ?_, hk.ended, ?_, hk.listed, nofun, fun _ => hnone⟩
  · intro f calls s' _ _ hstep
    cases (step_round hstep).1
  · intro w hw
    exact (hk.opened w hw).2.1

theorem kept_round (hnth : env.everyNth = 1) (hmax : 0 < env.maxAVIFrames) {t : CapturingThread}
    (h : t.Partitioned env) {r : Round} (hcalls : r.calls.succeed = true) :
    Kept env (t.round env r) := by
  rcases t.round_cases env r with ⟨t', heq, ⟨-, rfl⟩ | ⟨reason, rfl⟩⟩ | heq | ⟨f, -, -, heq⟩
  · rw [heq]
    exact kept_afterLoop h t'.capStats.eStopReason t'.state hcalls
  · rw [heq]
    exact kept_afterLoop h reason .finished hcalls
  · rw [heq]
    exact .inl ⟨rfl, h⟩
  · rw [heq]
    cases hcap : t.state.captures with
    | true =>
      obtain ⟨t', hframe, hp, -⟩ := h.captured hnth hmax hcalls hcap
      rw [hframe]
      exact .inl ⟨rfl, hp⟩
    | false =>
      obtain ⟨t', hframe, hp⟩ := h.paused hcalls hcap
      rw [hframe]
      exact .inl ⟨rfl, hp⟩

theorem Kept.filesPartition (hnth : env.everyNth = 1) (hmax : 0 < env.maxAVIFrames)
    (h : Kept env s) : FilesPartition env s := by
  rcases h with ⟨hag, hp⟩ | ⟨-, hp⟩
  · refine ⟨hp.partition, hp.bounded, ?_, hp.ended, ?_, hp.listed, ?_, ?_⟩
    · intro f calls s' hcap hcalls hstep
      obtain ⟨t', hframe, -, hfiled⟩ := hp.captured (f := f) hnth hmax hcalls hcap
      have hround : s.2.round env ⟨.frame f, calls⟩ = s.2.onFrame env f calls := by
        rw [CapturingThread.round, if_neg]
        intro hidle
        rw [hidle] at hcap
        cases hcap
      rw [(step_round hstep).2, hround, hframe]
      exact hfiled
    · intro w hw
      exact (hp.opened w hw).2.1
    · rw [hag]
      decide
    · intro hret
      rw [hag] at hret
      cases hret
  · exact hp

/-- Whatever commands come between the rounds, the captured frames are split
into files without loss, duplication or reordering. -/
theorem captured_frames_partitioned (env : CaptureEnv) (hnth : env.everyNth = 1)
    (hmax : 0 < env.maxAVIFrames) (captureFilename dtformat : CString) (ndigits : Int32)
    (last : AVICheckResult) (drops : Int32) {acts : List CaptureAction} {s : CaptureLoop}
    (hrun : Run (step env) (fun _ a => a.succeeds = true)
      (start env (.buildCapturing captureFilename dtformat ndigits last) drops) acts s) :
    FilesPartition env s := by
  have hkeep : ∀ t a u, Kept env t → a.succeeds = true → step env t a = some u → Kept env u := by
    intro t a u hkept hok hstep
    cases a with
    | command k =>
      rw [step_command hstep]
      exact kept_command hkept k
    | round r =>
      obtain ⟨hag, heq⟩ := step_round hstep
      rcases hkept with ⟨-, hp⟩ | ⟨hret, -⟩
      · rw [heq]
        exact kept_round hnth hmax hp hok
      · rw [hag] at hret
        cases hret
  exact (hrun.invariant hkeep (kept_start env _ _ _ _ _)).filesPartition hnth hmax

def pausedCapture : List CaptureAction :=
  [.command (.start ⟨"C:\\tape.avi".toList, [], 0, 0⟩), .round (shortFrame 1), .round (shortFrame 2),
    .command .stop, .round (shortFrame 3), .command (.start ⟨"C:\\tape.avi".toList, [], 0, 0⟩),
    .round (shortFrame 4), .command .finalize, .round ⟨.endOfStream, plainCalls⟩]

theorem pausedCapture_partitioned : ∃ s : CaptureLoop,
    Run (step (shortFrameEnv 1)) (fun _ a => a.succeeds = true)
      (start (shortFrameEnv 1) (.buildCapturing [] [] 0 {}) 0) pausedCapture s ∧
    s.1 = .returned ∧ FilesPartition (shortFrameEnv 1) s ∧
    s.2.fileFrames.map List.length = [1, 1, 1] := by
  have hrun : Run (step (shortFrameEnv 1)) (fun _ a => a.succeeds = true)
    (start (shortFrameEnv 1) (.buildCapturing [] [] 0 {}) 0) pausedCapture _ := run_of_exec rfl
  exact ⟨_, hrun, rfl, captured_frames_partitioned _ rfl (by decide) _ _ _ _ _ hrun, rfl⟩

end CaptureLoop

end WinDV
