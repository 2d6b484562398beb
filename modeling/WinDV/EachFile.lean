import WinDV.CaptureLoop

/-! What every writer of a session meets, closed or open, whether or not an
exception ends the thread: it is enough to look at the calls made on one writer. -/

namespace WinDV

/-- `P` holds of a new writer and is kept by all that is done with it; `ok` are
the calls of `HandleFrame` that occur. -/
structure WriterInvariant (ok : Frame → Delivery → Prop) (P : CAVIWriter → Prop) : Prop where
  opened : ∀ w, w.finalfile = [] → w.time = 0 → w.handed = [] → w.samples = [] →
    w.endsOfStream = 0 → P w
  handled : ∀ w d o w', P w → ok d.frame o → w.handleFrame d o = some w' → P w'
  finalized : ∀ w o w', P w → (w.finalizeFile o = .ok w' ∨ w.finalizeFile o = .error w') → P w'
  backfilled : ∀ w x, P w → P { w with dvtime := x }

namespace CapturingThread

variable {env : CaptureEnv} {ok : Frame → Delivery → Prop} {P : CAVIWriter → Prop}
  {t t' : CapturingThread}

def EachFile (P : CAVIWriter → Prop) (t : CapturingThread) : Prop := ∀ w ∈ t.files, P w

/-- Whatever comes out, the thread or what an exception leaves of it. -/
def Leaves (Q : CapturingThread → Prop) (r : Except CapturingThread CapturingThread) : Prop :=
  ∀ t, r = .ok t ∨ r = .error t → Q t

theorem leaves_ok {Q : CapturingThread → Prop} (h : Q t) : Leaves Q (.ok t) := by
  rintro t' (ht | ht) <;> cases ht
  exact h

theorem leaves_error {Q : CapturingThread → Prop} (h : Q t) : Leaves Q (.error t) := by
  rintro t' (ht | ht) <;> cases ht
  exact h

theorem Leaves.imp {Q Q' : CapturingThread → Prop} {r : Except CapturingThread CapturingThread}
    (h : Leaves Q r) (himp : ∀ t, Q t → Q' t) : Leaves Q' r :=
  fun t ht => himp t (h t ht)

theorem Leaves.bind {Q : CapturingThread → Prop} {r : Except CapturingThread CapturingThread}
    {next : CapturingThread → Except CapturingThread CapturingThread} (h : Leaves Q r)
    (hnext : ∀ t, Q t → Leaves Q (next t)) : Leaves Q (r >>= next) := by
  cases r with
  | ok t => exact hnext t (h t (.inl rfl))
  | error t => exact leaves_error (h t (.inr rfl))

theorem Leaves.orEscape {Q : CapturingThread → Prop} {r : Except CapturingThread CapturingThread}
    (h : Leaves Q r) (e : RoundEnd) : Q (CapturingThread.orEscape e r).2 := by
  cases r with
  | ok t => exact h t (.inl rfl)
  | error t => exact h t (.inr rfl)

/-- Splitting a file closes it, or does nothing. -/
theorem Leaves.splitFile {Q : CapturingThread → Prop} {o : Finalization}
    (hclose : Leaves Q (t.closeWriter o)) (h : Q t) : Leaves Q (t.splitFile env o) := by
  unfold CapturingThread.splitFile
  by_cases hs : t.splits env = true
  · rw [if_pos hs]
    exact hclose
  · rw [if_neg hs]
    exact leaves_ok h

theorem eachFile_none (h : t.aviWriter = none) : t.EachFile P ↔ ∀ w ∈ t.closed, P w := by
  rw [EachFile, CDV.files, h, Option.toList_none, List.append_nil]

theorem eachFile_some {w : CAVIWriter} (h : t.aviWriter = some w) :
    t.EachFile P ↔ (∀ w ∈ t.closed, P w) ∧ P w := by
  rw [EachFile, CDV.files, h, Option.toList_some]
  simp [List.mem_append, or_imp, forall_and]

theorem EachFile.closeWriter (hP : WriterInvariant ok P) (h : t.EachFile P) (o : Finalization) :
    Leaves (EachFile P) (t.closeWriter o) := by
  rintro t' (ht | ht)
  · obtain ⟨-, rfl⟩ | ⟨w, w', phase, hw, hfinal, rfl⟩ := closeWriter_eq_ok ht
    · exact h
    · obtain ⟨hclosed, hopen⟩ := (eachFile_some hw).mp h
      refine (eachFile_none rfl).mpr fun v hv => ?_
      obtain hv | hv := List.mem_append.mp hv
      · exact hclosed v hv
      · rw [List.mem_singleton.mp hv]
        exact hP.finalized w o w' hopen (.inl hfinal)
  · obtain ⟨w, w', phase, hw, hfinal, rfl⟩ := closeWriter_eq_error ht
    obtain ⟨hclosed, hopen⟩ := (eachFile_some hw).mp h
    exact (eachFile_some rfl).mpr ⟨hclosed, hP.finalized w o w' hopen (.inr hfinal)⟩

theorem EachFile.splitFile (hP : WriterInvariant ok P) (h : t.EachFile P) (o : Finalization) :
    Leaves (EachFile P) (t.splitFile env o) :=
  (h.closeWriter hP o).splitFile h

theorem EachFile.openWriter (hP : WriterInvariant ok P) (h : t.EachFile P) (created : Option Path) :
    Leaves (EachFile P) (t.openWriter env created) := by
  rintro t' (ht | ht)
  · obtain ⟨-, rfl⟩ | ⟨hw, tmpfile, -, rfl⟩ := openWriter_eq_ok ht
    · exact h
    · exact (eachFile_some rfl).mpr ⟨(eachFile_none hw).mp h, hP.opened _ rfl rfl rfl rfl rfl⟩
  · obtain rfl := openWriter_eq_error ht
    exact h

theorem EachFile.writeFrame (hP : WriterInvariant ok P) (h : t.EachFile P) {d : DequeuedFrame}
    {o : Delivery} (hok : ok d.frame o) : Leaves (EachFile P) (t.writeFrame env d o) := by
  rintro t' (ht | ht)
  · obtain ⟨-, rfl⟩ | ⟨w, w', hw, -, hhandle, rfl⟩ := writeFrame_eq_ok ht
    · exact h
    · obtain ⟨hclosed, hopen⟩ := (eachFile_some hw).mp h
      exact (eachFile_some rfl).mpr ⟨hclosed, hP.handled w d o w' hopen hok hhandle⟩
  · obtain rfl := writeFrame_eq_error ht
    exact h

theorem EachFile.countFrame (hP : WriterInvariant ok P) (h : t.EachFile P) (d : DequeuedFrame) :
    (t.countFrame d).EachFile P := by
  obtain ⟨state, captureTime, reason, -, heq⟩ := countFrame_eq t d
  rw [heq]
  cases hw : t.aviWriter with
  | none => exact (eachFile_none rfl).mpr ((eachFile_none hw).mp h)
  | some w =>
    obtain ⟨hclosed, hopen⟩ := (eachFile_some hw).mp h
    obtain ⟨x, hback⟩ := w.backfill_eq t.dvTime
    refine (eachFile_some (w := w.backfill t.dvTime) rfl).mpr ⟨hclosed, ?_⟩
    rw [hback]
    exact hP.backfilled w x hopen

theorem EachFile.captureFrame (hP : WriterInvariant ok P) (h : t.EachFile P) {d : DequeuedFrame}
    {calls : Calls} (hok : ok d.frame calls.delivery) :
    Leaves (EachFile P) (t.captureFrame env d calls) :=
  (h.splitFile hP calls.finalize).bind fun _ h₁ =>
    (h₁.openWriter hP calls.created).bind fun _ h₂ =>
      (h₂.writeFrame hP hok).bind fun _ h₃ => leaves_ok (h₃.countFrame hP d)

theorem EachFile.resetCounters (h : t.EachFile P) : t.resetCounters.EachFile P := by
  rw [resetCounters_eq]
  exact h

theorem EachFile.pauseFrame (hP : WriterInvariant ok P) (h : t.EachFile P) (calls : Calls) :
    Leaves (EachFile P) (t.pauseFrame calls) :=
  (h.closeWriter hP calls.finalize).bind fun _ h₁ => leaves_ok h₁.resetCounters

theorem EachFile.taken (h : t.EachFile P) (f : Frame) (drops : Int32) :
    (t.taken env f drops).EachFile P := by
  obtain ⟨_, _, _, _, _, hnote⟩ := noteDVTime_eq env t f
  rw [CapturingThread.taken, hnote]
  exact h

theorem EachFile.onFrame (hP : WriterInvariant ok P) (h : t.EachFile P) {f : Frame} {calls : Calls}
    (hok : ok f calls.delivery) : (t.onFrame env f calls).2.EachFile P := by
  rw [onFrame_eq]
  by_cases hcap : t.state.captures = true
  · rw [if_pos hcap]
    exact ((h.taken f calls.droppedFrames).captureFrame hP hok).orEscape _
  · rw [if_neg hcap]
    exact ((h.taken f calls.droppedFrames).pauseFrame hP calls).orEscape _

theorem EachFile.afterLoop (hP : WriterInvariant ok P) (h : t.EachFile P) (calls : Calls) :
    (t.afterLoop env calls).2.EachFile P := by
  obtain ⟨t', hclose, heq⟩ | ⟨t', hclose, heq⟩ := t.afterLoop_cases env calls
  · have hkept := h.closeWriter hP calls.finalize t' (.inl hclose)
    obtain ⟨_, _, _, _, hverify⟩ := t'.verifyAndLog_eq env
    rw [heq, hverify]
    exact hkept
  · rw [heq]
    exact h.closeWriter hP calls.finalize t' (.inr hclose)

end CapturingThread

namespace CaptureLoop

open Transition CapturingThread

variable {env : CaptureEnv} {ok : Frame → Delivery → Prop} {P : CAVIWriter → Prop}
  {s t : CaptureLoop} {acts : List CaptureAction}

/-- Rounds that get a frame make only calls of `HandleFrame` that are `ok`. -/
def Handles (ok : Frame → Delivery → Prop) : CaptureAction → Prop
  | .round ⟨.frame f, calls⟩ => ok f calls.delivery
  | _ => True

theorem eachFile_step (hP : WriterInvariant ok P) (h : s.2.EachFile P) {a : CaptureAction}
    (hok : Handles ok a) (hstep : step env s a = some t) : t.2.EachFile P := by
  cases a with
  | command c =>
    obtain ⟨_, _, _, _, _, _, _, heq⟩ := s.2.toCDV.command_eq c
    rw [step_command hstep, heq]
    exact h
  | round r =>
    obtain ⟨-, rfl⟩ := step_round hstep
    obtain ⟨t', heq, ⟨-, rfl⟩ | ⟨reason, rfl⟩⟩ | heq | ⟨f, hgot, -, heq⟩ := s.2.round_cases env r
    · rw [heq]
      exact h.afterLoop hP r.calls
    · rw [heq]
      refine EachFile.afterLoop hP ?_ r.calls
      exact h
    · rw [heq]
      exact h
    · obtain ⟨got, calls⟩ := r
      obtain rfl : got = .frame f := hgot
      rw [heq]
      exact h.onFrame hP hok

/-- An invariant of one writer holds of all files of a run. -/
theorem eachFile_of_run (hP : WriterInvariant ok P)
    (hrun : Run (step env) (fun _ a => Handles ok a) s acts t) (h : s.2.EachFile P) :
    t.2.EachFile P :=
  hrun.invariant (fun _ _ _ h hok hstep => eachFile_step hP h hok hstep) h

end CaptureLoop

end WinDV
