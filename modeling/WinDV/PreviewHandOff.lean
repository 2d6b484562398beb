import WinDV.PreviewSteps

/-! The buffers of the preview, in any order of the steps of the three threads:
what a call of `HandleFrame` fills is delivered whole, unless `GetPointer` fails. -/

namespace WinDV

namespace CMonitor

open Transition

variable {m m' : CMonitor} {buf : Nat} {c : HandleFrameCall} {l : List BufferEvent}

/-- Some way to go on. -/
def Leads (m m' : CMonitor) : Prop := ∃ acts, Run step (fun _ _ => True) m acts m'

theorem Leads.refl (m : CMonitor) : Leads m m := ⟨[], .nil m⟩

theorem Leads.step {a : MonitorAction} {m₁ : CMonitor} (hstep : m.step a = some m₁)
    (h : Leads m₁ m') : Leads m m' := by
  obtain ⟨acts, hrun⟩ := h
  exact ⟨a :: acts, .cons trivial hstep hrun⟩

theorem Leads.trans {m₁ : CMonitor} (h : Leads m m₁) (h' : Leads m₁ m') : Leads m m' := by
  obtain ⟨acts, hrun⟩ := h
  induction hrun with
  | nil => exact h'
  | snoc _ _ hstep ih => exact ih (h'.step hstep)

/-- The call comes to write to its buffer. -/
def Writes (m : CMonitor) (buf : Nat) : Prop :=
  ∃ m' call w, Leads m m' ∧ m'.eventsOf buf = m.eventsOf buf ++ [.written call w]

theorem writes_of_note {pc : HandleFramePc} {call : Nat} {w : SampleWrite}
    (hstep : m.workerStep true = some { m.note buf (.written call w) with worker := pc }) :
    m.Writes buf :=
  ⟨_, call, w, (Leads.refl _).step (a := .worker true) hstep, eventsOf_self _ rfl⟩

theorem writes_of_step {pc : HandleFramePc}
    (hstep : m.workerStep true = some { m with worker := pc })
    (h : Writes { m with worker := pc } buf) : m.Writes buf := by
  obtain ⟨m', call, w, hleads, hevents⟩ := h
  exact ⟨m', call, w, hleads.step (a := .worker true) hstep, hevents⟩

theorem writes_of_load {next : Nat → HandleFramePc} (hsample : m.sample = some buf)
    (hstep : m.workerStep true = some (m.load next)) (h : Writes { m with worker := next buf } buf) :
    m.Writes buf := by
  rw [load_eq hsample] at hstep
  exact writes_of_step hstep h

theorem writes_of_fills (hfills : Fills buf m.worker c l) (huses : m.worker.usesSample = true)
    (hsample : m.sample = some buf) : m.Writes buf := by
  have hcopy : Writes { m with worker := .copyMemory c buf } buf := writes_of_note rfl
  have hget : Writes { m with worker := .getPointer c buf } buf := writes_of_step rfl hcopy
  have hlength : Writes { m with worker := .setLength c buf } buf := writes_of_note rfl
  have hsync : Writes { m with worker := .setSync c buf } buf := writes_of_note rfl
  have hall (pc : HandleFramePc) (hpc : Fills buf pc c l) (huses : pc.usesSample = true) :
      Writes { m with worker := pc } buf := by
    cases hpc with
    | loadForPointer => exact writes_of_load hsample rfl hget
    | getPointer => exact hget
    | copyMemory => exact hcopy
    | loadForLength => exact writes_of_load hsample rfl hlength
    | setLength => exact hlength
    | loadForSync => exact writes_of_load hsample rfl hsync
    | setSync => exact hsync
    | clearSample => cases huses
  exact hall m.worker hfills huses

/-- A write to a buffer that was released is too late. -/
theorem not_handedOver_of_writes (hreleased : .released ∈ m.eventsOf buf) (h : m.Writes buf) :
    ∃ m', Leads m m' ∧ ¬ m'.HandedOver := by
  obtain ⟨m', call, w, hleads, hevents⟩ := h
  obtain ⟨before, after, hsplit⟩ := List.append_of_mem hreleased
  rw [hsplit, List.append_assoc, List.cons_append] at hevents
  exact ⟨m', hleads, fun hgood => hgood.released buf before _ hevents call w
    (List.mem_append_right _ List.mem_cons_self)⟩

/-- Once the destructor has ended its wait, the thread releases the buffer,
whatever a call is doing with it. -/
theorem leads_to_release (hvw : m.vw = false) (hthread : m.thread = .waiting buf ∧ m.ev = true ∨
    m.thread = .testVW buf ∨ m.thread = .discarding buf) :
    ∃ ev, Leads m { m.note buf .released with ev := ev, thread := .returned } := by
  have hdiscard (ev : Bool) : Leads { m with ev := ev, thread := .discarding buf }
      { m.note buf .released with ev := ev, thread := .returned } :=
    (Leads.refl _).step (a := .thread true) rfl
  have htest (ev : Bool) : Leads { m with ev := ev, thread := .testVW buf }
      { m.note buf .released with ev := ev, thread := .returned } := by
    refine Leads.step (a := .thread true) ?_ (hdiscard ev)
    simp [CMonitor.step, threadStep, hvw]
  obtain ⟨hthread, hev⟩ | hthread | hthread := hthread
  · refine ⟨false, Leads.step (a := .thread true) ?_ (htest false)⟩
    simp [CMonitor.step, threadStep, hthread, hev]
  · have hself : m = { m with ev := m.ev, thread := .testVW buf } := by rw [← hthread]
    rw [hself]
    exact ⟨m.ev, htest m.ev⟩
  · have hself : m = { m with ev := m.ev, thread := .discarding buf } := by rw [← hthread]
    rw [hself]
    exact ⟨m.ev, hdiscard m.ev⟩

/-- A call that uses its buffer while the destructor may end the wait writes to it
after it was released. -/
theorem leads_to_late_write (hvw : m.vw = false) (hthread : m.thread = .waiting buf ∧ m.ev = true ∨
    m.thread = .testVW buf ∨ m.thread = .discarding buf) (hfills : Fills buf m.worker c l)
    (huses : m.worker.usesSample = true) (hsample : m.sample = some buf) :
    ∃ m', Leads m m' ∧ ¬ m'.HandedOver := by
  obtain ⟨ev, hleads⟩ := leads_to_release hvw hthread
  have hreleased : .released ∈
      eventsOf { m.note buf .released with ev := ev, thread := .returned } buf := by
    rw [eventsOf_self (m := m) .released rfl]
    exact List.mem_append_right _ List.mem_cons_self
  obtain ⟨m', hleads', hbad⟩ := not_handedOver_of_writes hreleased
    (writes_of_fills hfills huses hsample)
  exact ⟨m', hleads.trans hleads', hbad⟩

/-- A call that uses the buffer does so while the thread waits, and no event is set. -/
theorem Inv.waits_of_uses (h : m.Inv) (huses : m.worker.usesSample = true) :
    ∃ buf c l, m.thread = .waiting buf ∧ Fills buf m.worker c l ∧ m.sample = some buf ∧
      m.ev = false := by
  have hunsignalled (hsignalled : m.signalled = true) : False := by
    rw [h.afterwards hsignalled] at huses
    cases huses
  have hbusy (hidle : m.worker.Idle) : False := by
    rw [usesSample_of_idle hidle] at huses
    cases huses
  cases h.phase with
  | filling buf c l hthread hfills hsample hcalm =>
    refine ⟨buf, c, l, hthread, hfills, hsample, ?_⟩
    rw [← Bool.not_eq_true]
    exact fun hev => hunsignalled (hcalm hev)
  | filled buf c _ hworker =>
    rw [hworker] at huses
    cases huses
  | between _ hidle => exact (hbusy hidle).elim
  | sleeping buf _ hidle => exact (hbusy hidle).elim
  | exposed buf _ hidle => exact (hbusy hidle).elim
  | ready buf c _ hidle => exact (hbusy hidle).elim
  | taken buf c _ hidle => exact (hbusy hidle).elim
  | delivered buf c _ hidle => exact (hbusy hidle).elim
  | stopping buf _ hsignalled => exact (hunsignalled hsignalled).elim
  | stopped _ hrest => exact (hrest.elim hunsignalled fun hidle => hbusy hidle.1).elim

theorem failed_abandons (h : m.Inv) (hworker : m.worker = .getPointer c buf)
    (hstep : m.step (.worker false) = some m') : ∃ m'', Leads m' m'' ∧ ¬ m''.HandedOver := by
  obtain ⟨buf', c', l, hthread, -, -, hev⟩ := h.waits_of_uses (by rw [hworker]; rfl)
  simp only [CMonitor.step, workerStep, hworker] at hstep
  obtain rfl := Option.some.inj hstep
  refine ⟨_, (Leads.refl _).step (a := .worker true) rfl, fun hgood => ?_⟩
  have hsample := hgood.waiting buf' hthread hev rfl
  cases hsample

/-- Where a call finds a buffer after the destructor has set `m_ev`, it writes too late. -/
theorem found_afterwards (h : m.Inv) {ok : Bool} (hworker : m.worker = .testSample c)
    (hsignalled : m.signalled = true) (hsample : m.sample = some buf)
    (hstep : m.step (.worker ok) = some m') : ∃ m'', Leads m' m'' ∧ ¬ m''.HandedOver := by
  have hvw := h.vw_of_signalled hsignalled
  simp only [CMonitor.step, workerStep, hworker, hsample, Option.isSome_some, if_true] at hstep
  obtain rfl := Option.some.inj hstep
  have hlate (hthread : m.thread = .waiting buf ∧ m.ev = true ∨ m.thread = .testVW buf ∨
      m.thread = .discarding buf) := leads_to_late_write (m := { m with
        sample := some buf, worker := .loadForPointer c }) hvw hthread (.loadForPointer c) rfl rfl
  have hnone (hnone : m.sample = none) : False := by
    rw [hsample] at hnone
    cases hnone
  cases h.phase with
  | exposed buf' hthread _ hsome =>
    obtain rfl := Option.some.inj (hsample.symm.trans hsome)
    refine hlate (.inl ⟨hthread, (h.alarm hsignalled).resolve_right ?_⟩)
    rw [hthread]
    exact Bool.false_ne_true
  | stopping buf' hthread _ hsome =>
    obtain hnull | hsome := hsome
    · exact (hnone hnull).elim
    · obtain rfl := Option.some.inj (hsample.symm.trans hsome)
      exact hlate (.inr hthread)
  | stopped _ _ hreleased =>
    obtain ⟨l, hevents⟩ := hreleased buf hsample
    have hmem : .released ∈ m.eventsOf buf := by
      rw [hevents]
      exact List.mem_append_right _ List.mem_cons_self
    exact not_handedOver_of_writes (m := { m with sample := some buf, worker := .loadForPointer c })
      hmem (writes_of_fills (.loadForPointer c) rfl rfl)
  | filling buf' c' l _ hfills => exact absurd hworker (hfills.ne_testSample c)
  | filled buf' c' _ hworker' =>
    rw [hworker] at hworker'
    cases hworker'
  | between _ _ hnull => exact (hnone hnull).elim
  | sleeping _ _ _ hnull => exact (hnone hnull).elim
  | ready _ _ _ _ hnull => exact (hnone hnull).elim
  | taken _ _ _ _ hnull => exact (hnone hnull).elim
  | delivered _ _ _ _ hnull => exact (hnone hnull).elim

/-- Where the destructor sets `m_ev` while a call uses the buffer, the call writes too late. -/
theorem signalled_meanwhile (h : m.Inv) (hdestructor : m.destructor = .settingEvent)
    (huses : m.worker.usesSample = true) (hstep : m.step .destroy = some m') :
    ∃ m'', Leads m' m'' ∧ ¬ m''.HandedOver := by
  obtain ⟨buf, c, l, hthread, hfills, hsample, -⟩ := h.waits_of_uses huses
  have hvw : m.vw = false := h.window.mpr (by rw [hdestructor]; nofun)
  simp only [CMonitor.step, destroyStep, hdestructor] at hstep
  obtain rfl := Option.some.inj hstep
  exact leads_to_late_write hvw (.inl ⟨hthread, rfl⟩) hfills huses hsample

theorem disorder_spoils {a : MonitorAction} (h : m.Inv) (hstep : m.step a = some m')
    (hdisorder : ¬ m.Orderly a) : ∃ m'', Leads m' m'' ∧ ¬ m''.HandedOver := by
  cases a with
  | call data => exact absurd trivial hdisorder
  | thread ok => exact absurd trivial hdisorder
  | destroy =>
    obtain ⟨hdestructor, huses⟩ := Classical.not_imp.mp hdisorder
    exact signalled_meanwhile h hdestructor (by simpa using huses) hstep
  | worker ok =>
    cases hworker : m.worker with
    | testSample c =>
      simp only [Orderly, hworker] at hdisorder
      obtain ⟨hsignalled, hsample⟩ : m.signalled = true ∧ m.sample ≠ none := by
        simpa [HandleFramePc.getsPointer, HandleFramePc.testsSample] using hdisorder
      obtain ⟨buf, hsome⟩ := Option.ne_none_iff_exists'.mp hsample
      exact found_afterwards h hworker hsignalled hsome hstep
    | getPointer c buf =>
      simp only [Orderly, hworker] at hdisorder
      obtain rfl : ok = false := by
        simpa [HandleFramePc.getsPointer, HandleFramePc.testsSample] using hdisorder
      exact failed_abandons h hworker hstep
    | _ =>
      refine absurd ⟨?_, ?_⟩ hdisorder
      · rw [hworker]
        nofun
      · rw [hworker]
        nofun

/-- In any order of the steps no buffer is torn or abandoned while the steps are
orderly, and a step that is not leads to a state in which one is. -/
theorem preview_handed_over {acts : List MonitorAction} (hrun : Run step Orderly start acts m) :
    m.HandedOver ∧ ∀ a m', m.step a = some m' → ¬ m.Orderly a →
      ∃ acts' m'', Run step (fun _ _ => True) m' acts' m'' ∧ ¬ m''.HandedOver := by
  have hinv := inv_of_run hrun
  refine ⟨handedOver_of_inv hinv, fun a m' hstep hdisorder => ?_⟩
  obtain ⟨m'', ⟨acts', hrun'⟩, hbad⟩ := disorder_spoils hinv hstep hdisorder
  exact ⟨acts', m'', hrun', hbad⟩

/-- A buffer is exposed and a call fills it. -/
def filledOnce : List MonitorAction :=
  [.thread true, .thread true, .call (some [1])] ++ List.replicate 10 (.worker true)

/-- The preview of one frame, up to the release of its buffer. -/
def previewed : List MonitorAction := filledOnce ++ List.replicate 4 (.thread true)

theorem previewed_handed_over : ∃ m, Run step Orderly start previewed m ∧
    m.eventsOf 0 = .exposed :: filling ⟨0, [1]⟩ ++ [.delivered, .released] ∧ m.HandedOver ∧
    ∀ a m', m.step a = some m' → ¬ m.Orderly a →
      ∃ acts' m'', Run step (fun _ _ => True) m' acts' m'' ∧ ¬ m''.HandedOver := by
  have hrun : Run step Orderly start previewed _ := run_of_exec rfl
  exact ⟨_, hrun, rfl, preview_handed_over hrun⟩

/-- `GetPointer` fails on the first frame. -/
def failedPointer : List MonitorAction :=
  [.thread true, .thread true, .call (some [1]), .worker true, .worker true, .worker false,
    .worker true]

theorem failedPointer_abandons : ∃ m, Run step (fun _ _ => True) start failedPointer m ∧
    m.thread = .waiting 0 ∧ m.ev = false ∧ m.worker = .outside ∧ m.sample = none ∧
    ¬ m.HandedOver := by
  have hrun : Run step (fun _ _ => True) start failedPointer _ := run_of_exec rfl
  refine ⟨_, hrun, rfl, rfl, rfl, rfl, fun h => ?_⟩
  have hsample := h.waiting 0 rfl rfl rfl
  cases hsample

/-- The thread waits for a frame that no call will bring. -/
structure Abandoned (m : CMonitor) (buf : Nat) : Prop where
  thread : m.thread = .waiting buf
  ev : m.ev = false
  sample : m.sample = none
  worker : m.worker.Idle

theorem abandoned_until_destroyed {acts : List MonitorAction} (h : m.Abandoned buf)
    (hrun : Run step (fun _ a => a ≠ .destroy) m acts m') :
    m'.Abandoned buf ∧ m'.history = m.history := by
  have hkeep (t : CMonitor) (a : MonitorAction) (u : CMonitor)
      (ht : t.Abandoned buf ∧ t.history = m.history) (hne : a ≠ .destroy)
      (hstep : t.step a = some u) : u.Abandoned buf ∧ u.history = m.history := by
    obtain ⟨ht, hhistory⟩ := ht
    cases a with
    | call data =>
      obtain ⟨-, rfl | ⟨data, rfl⟩⟩ := call_step hstep
      · exact ⟨ht, hhistory⟩
      · exact ⟨⟨ht.thread, ht.ev, ht.sample, trivial⟩, hhistory⟩
    | worker ok =>
      obtain ⟨c, -, ⟨-, rfl⟩ | ⟨buf', hsome, -⟩⟩ := idle_step ht.worker hstep
      · exact ⟨⟨ht.thread, ht.ev, ht.sample, trivial⟩, hhistory⟩
      · rw [ht.sample] at hsome
        cases hsome
    | thread ok =>
      obtain ⟨hev, -⟩ := waiting_step ht.thread hstep
      rw [ht.ev] at hev
      cases hev
    | destroy => exact absurd rfl hne
  exact hrun.invariant hkeep ⟨h, rfl⟩

/-- `GetPointer` succeeds, and as in `CDV::Destroy` the worker thread has ended
before the destructor runs. -/
def JoinedFirst (m : CMonitor) : MonitorAction → Prop
  | .call _ => m.destructor = .notCalled
  | .worker ok => m.worker.getsPointer = true → ok = true
  | .thread _ => True
  | .destroy => m.worker = .outside

theorem workerStep_destructor {ok : Bool} (hstep : m.workerStep ok = some m') :
    m'.destructor = m.destructor := by
  have hload (next : Nat → HandleFramePc) : (m.load next).destructor = m.destructor := by
    rw [load]
    cases m.sample <;> rfl
  simp only [workerStep] at hstep
  split at hstep <;> cases hstep <;> first | rfl | exact hload _

theorem threadStep_keeps {ok : Bool} (hstep : m.threadStep ok = some m') :
    m'.worker = m.worker ∧ m'.destructor = m.destructor := by
  simp only [threadStep] at hstep
  split at hstep <;> grind [note]

theorem destroyStep_worker (hstep : m.destroyStep = some m') : m'.worker = m.worker := by
  simp only [destroyStep] at hstep
  split at hstep <;> grind

/-- In the program only a failure of `GetPointer` can abandon a buffer. -/
theorem orderly_of_joinedFirst {acts : List MonitorAction}
    (hrun : Run step JoinedFirst start acts m) : Run step Orderly start acts m ∧
      (m.destructor = .notCalled ∨ m.worker = .outside) := by
  induction hrun with
  | nil => exact ⟨.nil _, .inl rfl⟩
  | @snoc t u acts a _ hok hstep ih =>
    obtain ⟨hbefore, hended⟩ := ih
    cases a with
    | call data =>
      refine ⟨hbefore.snoc trivial hstep, .inl ?_⟩
      obtain ⟨-, rfl | ⟨data, rfl⟩⟩ := call_step hstep
      · exact hok
      · exact hok
    | worker ok =>
      have hrunning : t.destructor = .notCalled := hended.resolve_right fun hworker => by
        simp only [CMonitor.step, workerStep, hworker] at hstep
        cases hstep
      refine ⟨hbefore.snoc ⟨hok, fun _ hsignalled => ?_⟩ hstep,
        .inl ((workerStep_destructor hstep).trans hrunning)⟩
      rw [signalled, hrunning] at hsignalled
      cases hsignalled
    | thread ok =>
      refine ⟨hbefore.snoc trivial hstep, ?_⟩
      obtain ⟨hworker, hdestructor⟩ := threadStep_keeps hstep
      rw [hworker, hdestructor]
      exact hended
    | destroy =>
      have hworker : t.worker = .outside := hok
      refine ⟨hbefore.snoc (fun _ => ?_) hstep, .inr ((destroyStep_worker hstep).trans hworker)⟩
      rw [hworker]
      rfl

end CMonitor

end WinDV
