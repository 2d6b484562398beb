import WinDV.CDV
import WinDV.FileHash
import WinDV.Transition

/-! The progress of `FinalizeCapturing`: the worker stores a phase and a percentage,
one after the other, and the dialog reads them one after the other whenever it has
waited for the thread, and shows what has changed. A call that finds the capture
finished, as the worker may have stored it, returns at once. -/

namespace WinDV

open Transition

/-- What the worker has to do, as far as the progress goes. -/
inductive ProgressStep
  /-- Frames, the mux, a check, a sidecar file, the log. -/
  | work
  /-- `CloseAVIWriter` tests the phase. -/
  | closing
  /-- The test before the verification. -/
  | verifying
  /-- `m_state` becomes `Finished`. -/
  | finished
  | phase (p : FinalizePhase)
  | percent (x : Int32)
  deriving DecidableEq, Repr

/-- A file is checked, and hashed where that is enabled: `ComputeFileSHA256` stores
its percentages itself. -/
def fileSteps (enableSHA256 : Bool) (file : SHA256CTX × FileReads) : List ProgressStep :=
  .work ::
    if enableSHA256 then
      [.phase .hash, .percent 0] ++
        (FileHash.computeFileSHA256 file.1 true file.2).published.map .percent ++ [.work]
    else []

/-- What comes about in the loop of `CapturingThread`, and at its end. -/
inductive LoopEvent
  /-- A file is closed. -/
  | close
  /-- The limit of a timed capture is reached, or no frame comes any more. -/
  | finish
  deriving DecidableEq, Repr

def LoopEvent.steps : LoopEvent → List ProgressStep
  | .close => [.work, .closing, .work]
  | .finish => [.work, .finished]

/-- `CapturingThread` with the rest of its loop; `files` are those that were finalized. -/
def workerSteps (loop : List LoopEvent) (enableSHA256 : Bool) (files : List (SHA256CTX × FileReads)) :
    List ProgressStep :=
  loop.flatMap LoopEvent.steps ++
    if files ≠ [] then
      .verifying :: files.flatMap (fileSteps enableSHA256) ++ [.work, .phase .done, .percent 100]
    else []

/-- What `WaitForSingleObject` on the thread returns. -/
inductive WaitResult
  | object0
  | timeout
  | failed
  deriving DecidableEq, Repr

/-- Where `FinalizeCapturing` is; `last` is what was shown last, if anything was. -/
inductive ProgressPc
  | test
  | storePhase
  | storePercent
  | wait (last : Option (FinalizePhase × Int32))
  | readPhase (last : Option (FinalizePhase × Int32)) (w : WaitResult)
  | readPercent (last : Option (FinalizePhase × Int32)) (w : WaitResult) (p : FinalizePhase)
  | compare (last : Option (FinalizePhase × Int32)) (w : WaitResult) (p : FinalizePhase) (x : Int32)
  | waitEnd
  | donePhase
  | donePercent
  | doneSend
  | returned
  /-- The test of `m_state` has failed. -/
  | declined
  deriving DecidableEq, Repr

/-- `capturing` tells whether `m_state` is `Capturing` or `CapturePaused`; `messages` are
those sent with `WM_DV_FINALIZE_PROGRESS`. -/
structure FinalizeProgress where
  capturing : Bool
  phase : FinalizePhase
  percent : Int32
  worker : List ProgressStep
  pc : ProgressPc
  messages : List (FinalizePhase × Int32)
  deriving DecidableEq

inductive ProgressAction
  | worker
  | dialog (w : WaitResult)
  deriving DecidableEq

namespace FinalizeProgress

def workerStep (s : FinalizeProgress) : Option FinalizeProgress :=
  match s.worker with
  | [] => none
  | .work :: rest => some { s with worker := rest }
  | .closing :: rest =>
    some { s with worker := if s.phase ≠ .none then .phase .mux :: rest else rest }
  | .verifying :: rest =>
    some { s with worker := if s.phase ≠ .none then .phase .verify :: .percent 0 :: rest else rest }
  | .finished :: rest => some { s with capturing := false, worker := rest }
  | .phase p :: rest => some { s with phase := p, worker := rest }
  | .percent x :: rest => some { s with percent := x, worker := rest }

/-- `w` is how the wait ends; it finds the thread at its end only there. -/
def dialogStep (s : FinalizeProgress) (w : WaitResult) : Option FinalizeProgress :=
  match s.pc with
  | .test => some { s with pc := if s.capturing then .storePhase else .declined }
  | .storePhase => some { s with phase := .draining, pc := .storePercent }
  | .storePercent => some { s with percent := 0, pc := .wait none }
  | .wait last =>
    if w = .object0 ∧ s.worker ≠ [] then none else some { s with pc := .readPhase last w }
  | .readPhase last w => some { s with pc := .readPercent last w s.phase }
  | .readPercent last w p => some { s with pc := .compare last w p s.percent }
  | .compare last w p x =>
    some { s with
      messages := if last ≠ some (p, x) then s.messages ++ [(p, x)] else s.messages
      pc := match w with
        | .object0 => .donePhase
        | .failed => .waitEnd
        | .timeout => .wait (some (p, x)) }
  | .waitEnd => if s.worker ≠ [] then none else some { s with pc := .donePhase }
  | .donePhase => some { s with phase := .done, pc := .donePercent }
  | .donePercent => some { s with percent := 100, pc := .doneSend }
  | .doneSend => some { s with messages := s.messages ++ [(.done, 100)], pc := .returned }
  | .returned | .declined => none

def step (s : FinalizeProgress) : ProgressAction → Option FinalizeProgress
  | .worker => s.workerStep
  | .dialog w => s.dialogStep w

/-- The pipeline was built, and the dialog calls `FinalizeCapturing` at some time. -/
def start (worker : List ProgressStep) : FinalizeProgress := ⟨true, .none, 0, worker, .test, []⟩

variable {s t : FinalizeProgress} {a : ProgressAction} {w : WaitResult}

/-- The phase that the dialog has read and not shown. -/
def heldPhase (s : FinalizeProgress) : List FinalizePhase :=
  match s.pc with
  | .readPercent _ _ p | .compare _ _ p _ => [p]
  | _ => []

def lastPercent (s : FinalizeProgress) : List Int :=
  match s.pc with
  | .doneSend | .returned => []
  | _ => [100]

/-- The wait has found the thread at its end. -/
def Ended (s : FinalizeProgress) : Prop :=
  match s.pc with
  | .readPhase _ w | .readPercent _ w _ | .compare _ w _ _ => w = .object0
  | .donePhase | .donePercent | .doneSend | .returned => True
  | _ => False

section Timelines

variable {α : Type} [Preorder α] {past future : List α} {x y : α}

end Timelines

/-- Where the dialog goes from what it has looked at. -/
@[simp]
def afterLook (shown : FinalizePhase × Int32) : WaitResult → ProgressPc
  | .object0 => .donePhase
  | .failed => .waitEnd
  | .timeout => .wait (some shown)

/-- What a step can do, one constructor for each branch. -/
inductive Steps (s : FinalizeProgress) : ProgressAction → FinalizeProgress → Prop
  | worked (rest : List ProgressStep) (hw : s.worker = .work :: rest) :
    Steps s .worker { s with worker := rest }
  | closed (rest : List ProgressStep) (hw : s.worker = .closing :: rest) (hp : s.phase ≠ .none) :
    Steps s .worker { s with worker := .phase .mux :: rest }
  | closedEarly (rest : List ProgressStep) (hw : s.worker = .closing :: rest) (hp : s.phase = .none) :
    Steps s .worker { s with worker := rest }
  | verified (rest : List ProgressStep) (hw : s.worker = .verifying :: rest) (hp : s.phase ≠ .none) :
    Steps s .worker { s with worker := .phase .verify :: .percent 0 :: rest }
  | verifiedEarly (rest : List ProgressStep) (hw : s.worker = .verifying :: rest)
    (hp : s.phase = .none) : Steps s .worker { s with worker := rest }
  | captureFinished (rest : List ProgressStep) (hw : s.worker = .finished :: rest) :
    Steps s .worker { s with capturing := false, worker := rest }
  | phaseStored (p : FinalizePhase) (rest : List ProgressStep) (hw : s.worker = .phase p :: rest) :
    Steps s .worker { s with phase := p, worker := rest }
  | percentStored (x : Int32) (rest : List ProgressStep) (hw : s.worker = .percent x :: rest) :
    Steps s .worker { s with percent := x, worker := rest }
  | admitted (w : WaitResult) (hp : s.pc = .test) (hc : s.capturing = true) :
    Steps s (.dialog w) { s with pc := .storePhase }
  | refused (w : WaitResult) (hp : s.pc = .test) (hc : s.capturing = false) :
    Steps s (.dialog w) { s with pc := .declined }
  | draining (w : WaitResult) (hp : s.pc = .storePhase) :
    Steps s (.dialog w) { s with phase := .draining, pc := .storePercent }
  | cleared (w : WaitResult) (hp : s.pc = .storePercent) :
    Steps s (.dialog w) { s with percent := 0, pc := .wait none }
  | waited (w : WaitResult) (last : Option (FinalizePhase × Int32)) (hp : s.pc = .wait last)
    (hw : w = .object0 → s.worker = []) : Steps s (.dialog w) { s with pc := .readPhase last w }
  | phaseRead (w w' : WaitResult) (last : Option (FinalizePhase × Int32))
    (hp : s.pc = .readPhase last w') : Steps s (.dialog w) { s with pc := .readPercent last w' s.phase }
  | percentRead (w w' : WaitResult) (last : Option (FinalizePhase × Int32)) (p : FinalizePhase)
    (hp : s.pc = .readPercent last w' p) :
    Steps s (.dialog w) { s with pc := .compare last w' p s.percent }
  | shown (w w' : WaitResult) (last : Option (FinalizePhase × Int32)) (p : FinalizePhase) (x : Int32)
    (hp : s.pc = .compare last w' p x) :
    Steps s (.dialog w) { s with
      messages := if last ≠ some (p, x) then s.messages ++ [(p, x)] else s.messages
      pc := afterLook (p, x) w' }
  | threadEnded (w : WaitResult) (hp : s.pc = .waitEnd) (hw : s.worker = []) :
    Steps s (.dialog w) { s with pc := .donePhase }
  | doneStored (w : WaitResult) (hp : s.pc = .donePhase) :
    Steps s (.dialog w) { s with phase := .done, pc := .donePercent }
  | hundredStored (w : WaitResult) (hp : s.pc = .donePercent) :
    Steps s (.dialog w) { s with percent := 100, pc := .doneSend }
  | sent (w : WaitResult) (hp : s.pc = .doneSend) :
    Steps s (.dialog w) { s with messages := s.messages ++ [(.done, 100)], pc := .returned }

theorem steps_of_workerStep (h : s.workerStep = some t) : Steps s .worker t := by
  unfold workerStep at h
  split at h
  · cases h
  · next rest hw =>
    cases h
    exact .worked rest hw
  · next rest hw =>
    cases h
    by_cases hp : s.phase = .none
    · rw [if_neg (not_not.mpr hp)]
      exact .closedEarly rest hw hp
    · rw [if_pos hp]
      exact .closed rest hw hp
  · next rest hw =>
    cases h
    by_cases hp : s.phase = .none
    · rw [if_neg (not_not.mpr hp)]
      exact .verifiedEarly rest hw hp
    · rw [if_pos hp]
      exact .verified rest hw hp
  · next rest hw =>
    cases h
    exact .captureFinished rest hw
  · next p rest hw =>
    cases h
    exact .phaseStored p rest hw
  · next x rest hw =>
    cases h
    exact .percentStored x rest hw

theorem steps_of_dialogStep (h : s.dialogStep w = some t) : Steps s (.dialog w) t := by
  unfold dialogStep at h
  split at h
  · next hp =>
    cases h
    by_cases hc : s.capturing = true
    · rw [if_pos hc]
      exact .admitted w hp hc
    · rw [if_neg hc]
      exact .refused w hp (Bool.eq_false_iff.mpr hc)
  · next hp =>
    cases h
    exact .draining w hp
  · next hp =>
    cases h
    exact .cleared w hp
  · next last hp =>
    split at h
    · cases h
    · next hwait =>
      cases h
      exact .waited w last hp fun hw => not_not.mp fun hleft => hwait ⟨hw, hleft⟩
  · next last w' hp =>
    cases h
    exact .phaseRead w w' last hp
  · next last w' p hp =>
    cases h
    exact .percentRead w w' last p hp
  · next last w' p x hp =>
    cases h
    exact .shown w w' last p x hp
  · next hp =>
    split at h
    · cases h
    · next hleft =>
      cases h
      exact .threadEnded w hp (not_not.mp hleft)
  · next hp =>
    cases h
    exact .doneStored w hp
  · next hp =>
    cases h
    exact .hundredStored w hp
  · next hp =>
    cases h
    exact .sent w hp
  · cases h
  · cases h

theorem steps_of_step (h : step s a = some t) : Steps s a t := by
  cases a with
  | worker => exact steps_of_workerStep h
  | dialog w => exact steps_of_dialogStep h

/-- When the wait has found the thread at its end, the worker has no step left. -/
theorem not_ended (hended : s.Ended → s.worker = []) {x : ProgressStep} {rest : List ProgressStep}
    (hw : s.worker = x :: rest) : ¬ s.Ended := fun hend => by
  rw [hended hend] at hw
  cases hw

theorem ended_of_pc (hpc : s.pc = .donePhase ∨ s.pc = .donePercent ∨ s.pc = .doneSend ∨ s.pc = .returned) :
    s.Ended := by
  rw [Ended]
  rcases hpc with hpc | hpc | hpc | hpc <;> rw [hpc] <;> trivial

theorem ended_step (hended : s.Ended → s.worker = []) (h : Steps s a t) : t.Ended → t.worker = [] := by
  cases h with
  | worked rest hw => exact fun hend => (not_ended hended hw hend).elim
  | closed rest hw => exact fun hend => (not_ended hended hw hend).elim
  | closedEarly rest hw => exact fun hend => (not_ended hended hw hend).elim
  | verified rest hw => exact fun hend => (not_ended hended hw hend).elim
  | verifiedEarly rest hw => exact fun hend => (not_ended hended hw hend).elim
  | captureFinished rest hw => exact fun hend => (not_ended hended hw hend).elim
  | phaseStored p rest hw => exact fun hend => (not_ended hended hw hend).elim
  | percentStored x rest hw => exact fun hend => (not_ended hended hw hend).elim
  | admitted => exact False.elim
  | refused => exact False.elim
  | draining => exact False.elim
  | cleared => exact False.elim
  | waited w last hp hw => exact hw
  | phaseRead w w' last hp => simpa [Ended, hp] using hended
  | percentRead w w' last p hp => simpa [Ended, hp] using hended
  | shown w w' last p x hp =>
    cases w' with
    | object0 => simpa [Ended, hp] using hended
    | timeout => exact False.elim
    | failed => exact False.elim
  | threadEnded w hp hw => exact fun _ => hw
  | doneStored w hp => exact fun _ => hended (ended_of_pc (.inl hp))
  | hundredStored w hp => exact fun _ => hended (ended_of_pc (.inr (.inl hp)))
  | sent w hp => exact fun _ => hended (ended_of_pc (.inr (.inr (.inl hp))))

/-- Once the phase is `FinalizeDone` the percentage alone is left to store. -/
def DoneLast (worker : List ProgressStep) : Prop :=
  ∀ rest, .phase .done :: rest <:+ worker → rest = [.percent 100]

theorem DoneLast.suffix {u v : List ProgressStep} (h : DoneLast v) (huv : u <:+ v) : DoneLast u :=
  fun rest hrest => h rest (hrest.trans huv)

theorem DoneLast.cons {u : List ProgressStep} (h : DoneLast u) {x : ProgressStep}
    (hx : x ≠ .phase .done) : DoneLast (x :: u) := by
  intro rest hrest
  obtain heq | hsuffix := List.suffix_cons_iff.mp hrest
  · exact absurd (List.cons.inj heq).1.symm hx
  · exact h rest hsuffix

theorem DoneLast.append {u v : List ProgressStep} (h : DoneLast v)
    (hu : ∀ x ∈ u, x ≠ .phase .done) : DoneLast (u ++ v) := by
  induction u with
  | nil => exact h
  | cons x u ih =>
    rw [List.forall_mem_cons] at hu
    exact (ih hu.2).cons hu.1

/-- The phases that the dialog has shown, or may show next. -/
def seen (s : FinalizeProgress) : List FinalizePhase :=
  s.messages.map Prod.fst ++ s.heldPhase ++ [s.phase]

/-- At most the last percentage is left to store. -/
def Finished (s : FinalizeProgress) : Prop := s.worker = [] ∨ s.worker = [.percent 100]

structure DoneKept (s : FinalizeProgress) : Prop where
  ended : s.Ended → s.worker = []
  last : DoneLast s.worker
  finished : .done ∈ s.seen → s.Finished
  result : s.pc = .returned → s.messages.getLast? = some (.done, 100)

/-- With a step left that is not the last one, `FinalizeDone` was not seen. -/
theorem DoneKept.not_seen (hs : DoneKept s) {x : ProgressStep} {rest : List ProgressStep}
    (hw : s.worker = x :: rest) (hne : x ≠ .percent 100) : .done ∉ s.seen := fun hseen => by
  have hshort := hs.finished hseen
  rw [Finished, hw] at hshort
  exact hne (List.cons.inj (hshort.resolve_left (List.cons_ne_nil x rest))).1

/-- A step of the worker that stores no phase: what comes after it is `rest`. -/
theorem DoneKept.goOn (hs : DoneKept s) (h : Steps s .worker t) {x : ProgressStep}
    {rest : List ProgressStep} (hw : s.worker = x :: rest) (hne : x ≠ .percent 100)
    (hseen : t.seen = s.seen) (hpc : t.pc = s.pc) (hlast : DoneLast rest → DoneLast t.worker) :
    DoneKept t where
  ended := ended_step hs.ended h
  last := hlast (hs.last.suffix (hw ▸ List.suffix_cons ..))
  finished hdone := absurd (hseen ▸ hdone) (hs.not_seen hw hne)
  result hreturned := absurd (ended_of_pc (.inr (.inr (.inr (hpc ▸ hreturned))))) (not_ended hs.ended hw)

/-- A call that the test of `m_state` ends has sent nothing, and `Finished` was stored in
the loop. -/
structure Declines (loop : List LoopEvent) (s : FinalizeProgress) : Prop where
  quiet : s.pc = .test ∨ s.pc = .declined → s.messages = []
  closed : s.pc = .declined → s.capturing = false
  stored : s.capturing = false ∨ .finished ∈ s.worker → .finish ∈ loop

section Declined

variable {loop : List LoopEvent}

theorem Declines.rest (hs : Declines loop s) {x : ProgressStep} {rest : List ProgressStep}
    (hw : s.worker = x :: rest) : s.capturing = false ∨ .finished ∈ rest → .finish ∈ loop := fun h =>
  hs.stored (h.imp_right fun hmem => hw ▸ List.mem_cons_of_mem x hmem)

/-- No later step leads to the test or to its failure. -/
theorem Declines.past (hs : Declines loop s) (hpc : t.pc ≠ .test ∧ t.pc ≠ .declined)
    (hcapturing : t.capturing = s.capturing) (hworker : t.worker = s.worker) : Declines loop t where
  quiet h := absurd h (not_or.mpr hpc)
  closed h := absurd h hpc.2
  stored := by
    rw [hcapturing, hworker]
    exact hs.stored

end Declined

variable {loop : List LoopEvent} {u : FinalizeProgress} {acts : List ProgressAction}

section Worker

variable (loop : List LoopEvent) (enableSHA256 : Bool) (files : List (SHA256CTX × FileReads))

end Worker

/-- A file that is read to its end, of a size that is known, not smaller than what is
read, and too small for the percentage to wrap. -/
structure ReadWhole (r : FileReads) : Prop where
  opened : r.opened = true
  ok : r.failed = false
  small : r.fileSize.toInt < 2 ^ 57
  fits : r.content.length ≤ r.fileSize.toInt

theorem ReadWhole.steady {r : FileReads} (h : ReadWhole r) (ctx : SHA256CTX) :
    FileHash.Steady (FileHash.computeFileSHA256 ctx true r).published := by
  have hsmall := h.small
  have hcontent := h.fits
  have hloop := (FileHash.loop_steady_iff ctx true r hsmall).mpr fun _ hpos => by
    have hpos' : 0 < r.fileSize.toInt := Int64.lt_iff_toInt_lt.mp hpos
    have hle : r.content.length * 100 ≤ 100 * r.fileSize.toInt.toNat := by omega
    have hdiv := Nat.div_le_of_le_mul (Nat.mul_comm 100 _ ▸ hle)
    exact ⟨by omega, by omega⟩
  rw [FileHash.published_opened ctx true h.opened, h.ok]
  have hlast : ∀ x ∈ (r.blocks.foldl (FileHash.readBlock true r.fileSize)
      (FileHash.startLoop ctx true)).published, ∀ y ∈ [(100 : Int32)], x ≤ y := fun x hx y hy => by
    rw [List.mem_singleton.mp hy]
    exact (hloop.1 x hx).2
  refine ⟨List.forall_mem_append.mpr ⟨hloop.1, List.forall_mem_singleton.mpr (by decide)⟩, ?_⟩
  exact List.pairwise_append.mpr ⟨hloop.2, List.pairwise_singleton _ _, hlast⟩

variable {loop : List LoopEvent} {enableSHA256 : Bool} {files : List (SHA256CTX × FileReads)}

end FinalizeProgress

end WinDV
