import WinDV.PreviewPhases

/-! The steps of `HandleFrame`, of `MonitoringThread` and of the destructor, and
where they leave the buffers. -/

namespace WinDV

namespace CMonitor

open Transition

variable {m m' : CMonitor} {buf : Nat} {c : HandleFrameCall} {l : List BufferEvent}

/-- `GetPointer` succeeds. When the destructor sets `m_ev`, no call is using the
buffer, and no call finds one afterwards. -/
def Orderly (m : CMonitor) : MonitorAction → Prop
  | .worker ok => (m.worker.getsPointer = true → ok = true) ∧
    (m.worker.testsSample = true → m.signalled = true → m.sample = none)
  | .destroy => m.destructor = .settingEvent → m.worker.usesSample = false
  | _ => True

instance (m : CMonitor) : (a : MonitorAction) → Decidable (m.Orderly a)
  | .call _ => inferInstanceAs (Decidable True)
  | .worker _ => inferInstanceAs (Decidable (_ ∧ _))
  | .thread _ => inferInstanceAs (Decidable True)
  | .destroy => inferInstanceAs (Decidable (_ → _))

theorem load_eq (hsample : m.sample = some buf) (next : Nat → HandleFramePc) :
    m.load next = { m with worker := next buf } := by
  rw [load, hsample]

/-- A step of a call that has found its buffer: it goes on, it writes, `GetPointer`
fails, or the buffer is full and leaves `m_sample`. -/
theorem fills_step {ok : Bool} (hfills : Fills buf m.worker c l) (hsample : m.sample = some buf)
    (hstep : m.workerStep ok = some m') :
    (∃ pc, m.worker.usesSample = true ∧ Fills buf pc c l ∧ m' = { m with worker := pc }) ∨
    (∃ pc w, m.worker.usesSample = true ∧ Fills buf pc c (l ++ [.written c.number w]) ∧
      m' = { m.note buf (.written c.number w) with worker := pc }) ∨
    (m.worker = .getPointer c buf ∧ ok = false ∧ m' = { m with worker := .clearFailed }) ∨
    (m.worker = .clearSample c ∧ l = filling c ∧
      m' = { m with sample := none, worker := .setEvent c }) := by
  generalize hworker : m.worker = pc at hfills
  simp only [workerStep, hworker] at hstep ⊢
  cases hfills with
  | loadForPointer =>
    have hload : m.load (.getPointer c) = m' := Option.some.inj hstep
    rw [load_eq hsample] at hload
    exact .inl ⟨_, rfl, .getPointer c, hload.symm⟩
  | getPointer =>
    obtain rfl := Option.some.inj hstep
    cases ok with
    | true => exact .inl ⟨_, rfl, .copyMemory c, rfl⟩
    | false => exact .inr (.inr (.inl ⟨rfl, rfl, rfl⟩))
  | copyMemory => exact .inr (.inl ⟨_, _, rfl, .loadForLength c, (Option.some.inj hstep).symm⟩)
  | loadForLength =>
    have hload : m.load (.setLength c) = m' := Option.some.inj hstep
    rw [load_eq hsample] at hload
    exact .inl ⟨_, rfl, .setLength c, hload.symm⟩
  | setLength => exact .inr (.inl ⟨_, _, rfl, .loadForSync c, (Option.some.inj hstep).symm⟩)
  | loadForSync =>
    have hload : m.load (.setSync c) = m' := Option.some.inj hstep
    rw [load_eq hsample] at hload
    exact .inl ⟨_, rfl, .setSync c, hload.symm⟩
  | setSync => exact .inr (.inl ⟨_, _, rfl, .clearSample c, (Option.some.inj hstep).symm⟩)
  | clearSample => exact .inr (.inr (.inr ⟨rfl, rfl, (Option.some.inj hstep).symm⟩))

theorem usesSample_of_idle {pc : HandleFramePc} (h : pc.Idle) : pc.usesSample = false := by
  cases pc <;> first | rfl | exact h.elim

/-- Before its test of `m_sample` a call ends there, or finds the buffer. -/
theorem idle_step {ok : Bool} (hidle : m.worker.Idle) (hstep : m.workerStep ok = some m') :
    ∃ c, m.worker = .testSample c ∧ (m.sample = none ∧ m' = { m with worker := .outside } ∨
      ∃ buf, m.sample = some buf ∧ m' = { m with worker := .loadForPointer c }) := by
  generalize hworker : m.worker = pc at hidle
  simp only [workerStep, hworker] at hstep
  cases pc with
  | outside => cases hstep
  | testSample c =>
    have htest := Option.some.inj hstep
    refine ⟨c, rfl, ?_⟩
    cases hsample : m.sample with
    | none =>
      rw [hsample] at htest
      exact .inl ⟨rfl, htest.symm⟩
    | some buf =>
      rw [hsample] at htest
      exact .inr ⟨buf, rfl, htest.symm⟩
  | _ => exact hidle.elim

/-- A call that is not using the buffer, and finds none, writes nothing. -/
theorem unused_step {ok : Bool} (huses : m.worker.usesSample = false)
    (htest : ∀ c, m.worker = .testSample c → m.sample = none) (hstep : m.workerStep ok = some m') :
    m'.worker.usesSample = false ∧ (∀ c, m'.worker ≠ .testSample c) ∧
      (m'.sample = m.sample ∨ m'.sample = none) ∧ (m.worker.Idle → m'.worker.Idle) ∧
      ∃ ev, m' = { m with sample := m'.sample, worker := m'.worker, ev := ev } := by
  generalize hworker : m.worker = pc at huses htest
  simp only [workerStep, hworker] at hstep
  cases pc with
  | outside => cases hstep
  | testSample c =>
    have hended := Option.some.inj hstep
    rw [htest c rfl] at hended
    rw [← hended]
    exact ⟨rfl, nofun, .inl (htest c rfl).symm, fun _ => trivial, m.ev, rfl⟩
  | clearFailed =>
    obtain rfl := Option.some.inj hstep
    exact ⟨rfl, nofun, .inr rfl, False.elim, m.ev, rfl⟩
  | clearSample c =>
    obtain rfl := Option.some.inj hstep
    exact ⟨rfl, nofun, .inr rfl, False.elim, m.ev, rfl⟩
  | setEvent c =>
    obtain rfl := Option.some.inj hstep
    exact ⟨rfl, nofun, .inl rfl, False.elim, true, rfl⟩
  | crashed => cases hstep
  | _ => cases huses

theorem similar_worker {pc : HandleFramePc} (hidle : m.worker.Idle) (hidle' : pc.Idle) :
    Similar m { m with worker := pc } :=
  ⟨rfl, rfl, rfl, rfl, .inr ⟨hidle, hidle'⟩, fun _ h => h, id, id, id⟩

theorem Inv.similar (h : m.Inv) (hs : Similar m m')
    (hwindow : m'.vw = false ↔ m'.destructor ≠ .notCalled)
    (hafter : m'.signalled = true → m.worker.usesSample = false)
    (hcalling : ∀ c, m'.worker = .testSample c → m'.Called c)
    (halarm : m'.signalled = true → m.signalled = true ∨ m'.ev = true) : m'.Inv where
  phase := h.phase.similar hs
  records := h.records.similar hs
  window := hwindow
  afterwards hsignalled := by
    obtain heq | ⟨-, hidle⟩ := hs.worker
    · rw [heq]
      exact hafter hsignalled
    · exact usesSample_of_idle hidle
  calling := hcalling
  alarm hsignalled := by
    obtain hbefore | hev := halarm hsignalled
    · rw [hs.thread]
      exact (h.alarm hbefore).imp_left hs.ev
    · exact .inl hev

theorem call_step {data : Option (List UInt8)} (hstep : m.callStep data = some m') :
    m.worker = .outside ∧ (m' = m ∨ ∃ data, m' = { m with
      calls := m.calls ++ [data]
      worker := .testSample ⟨m.calls.length, data⟩ }) := by
  cases hworker : m.worker with
  | outside =>
    cases data with
    | none =>
      simp only [callStep, hworker] at hstep
      exact ⟨rfl, .inl (Option.some.inj hstep).symm⟩
    | some data =>
      simp only [callStep, hworker] at hstep
      exact ⟨rfl, .inr ⟨data, (Option.some.inj hstep).symm⟩⟩
  | _ =>
    simp only [callStep, hworker] at hstep
    cases hstep

theorem inv_call {data : Option (List UInt8)} (h : m.Inv) (hstep : m.callStep data = some m') :
    m'.Inv := by
  obtain ⟨hworker, rfl | ⟨data, rfl⟩⟩ := call_step hstep
  · exact h
  · have hidle : m.worker.Idle := by
      rw [hworker]
      trivial
    refine h.similar (m := m) ⟨rfl, rfl, rfl, rfl, .inr ⟨hidle, trivial⟩, fun c hc => ?_, id, id, id⟩
      h.window h.afterwards (fun c hc => ?_) .inl
    · have hlt := (List.getElem?_eq_some_iff.mp hc).1
      exact (List.getElem?_append_left hlt).trans hc
    · rw [← HandleFramePc.testSample.inj hc]
      exact List.getElem?_concat_length

/-- With the step before the last write, a call that uses the buffer keeps it. -/
theorem inv_filling {ok : Bool} (h : m.Inv) (hok : m.Orderly (.worker ok))
    (hthread : m.thread = .waiting buf) (hfills : Fills buf m.worker c l)
    (hsample : m.sample = some buf) (hcalm : m.Calm) (hcalled : m.Called c)
    (hevents : m.eventsOf buf = .exposed :: l) (hstep : m.workerStep ok = some m') : m'.Inv := by
  have hbuf : m.thread.buffer = some buf := congrArg _ hthread
  have hafter {pc : HandleFramePc} (huses : m.worker.usesSample = true)
      (hsignalled : m.signalled = true) : pc.usesSample = false := by
    rw [h.afterwards hsignalled] at huses
    cases huses
  obtain ⟨pc, huses, hpc, rfl⟩ | ⟨pc, w, huses, hpc, rfl⟩ | ⟨hget, rfl, rfl⟩ | ⟨-, rfl, rfl⟩ :=
    fills_step hfills hsample hstep
  · exact ⟨.filling buf c l hthread hpc hsample hcalm hcalled hevents,
      h.records.unnoted rfl rfl rfl fun _ h => h, h.window, hafter huses,
      fun c' hc' => absurd hc' (hpc.ne_testSample c'), h.alarm⟩
  · have hevents' : eventsOf { m.note buf (.written c.number w) with worker := pc } buf =
        .exposed :: (l ++ [.written c.number w]) := by
      refine (eventsOf_self (m := m) _ rfl).trans ?_
      rw [hevents]
      rfl
    exact ⟨.filling buf c _ hthread hpc hsample hcalm hcalled hevents',
      h.records.noted hbuf rfl rfl (fun _ h => h) (.inl hbuf), h.window, hafter huses,
      fun c' hc' => absurd hc' (hpc.ne_testSample c'), h.alarm⟩
  · cases hok.1 (by rw [hget]; rfl)
  · exact ⟨.filled buf c hthread rfl rfl hcalm hcalled hevents,
      h.records.unnoted rfl rfl rfl fun _ h => h, h.window, fun _ => rfl, nofun, h.alarm⟩

/-- A call that comes to its test while `m_sample` is null changes nothing. -/
theorem inv_idle {ok : Bool} (h : m.Inv) (hidle : m.worker.Idle) (hsample : m.sample = none)
    (hstep : m.workerStep ok = some m') : m'.Inv := by
  obtain ⟨c, -, ⟨-, rfl⟩ | ⟨buf, hsome, -⟩⟩ := idle_step hidle hstep
  · exact h.similar (similar_worker hidle trivial) h.window h.afterwards nofun .inl
  · rw [hsample] at hsome
    cases hsome

theorem inv_worker {ok : Bool} (h : m.Inv) (hok : m.Orderly (.worker ok))
    (hstep : m.workerStep ok = some m') : m'.Inv := by
  cases h.phase with
  | between _ hidle hsample => exact inv_idle h hidle hsample hstep
  | sleeping buf _ hidle hsample => exact inv_idle h hidle hsample hstep
  | exposed buf hthread hidle hsample hcalm hevents =>
    obtain ⟨c, htest, ⟨hnone, -⟩ | ⟨buf', hsome, rfl⟩⟩ := idle_step hidle hstep
    · rw [hsample] at hnone
      cases hnone
    · obtain rfl := Option.some.inj (hsample.symm.trans hsome)
      refine ⟨.filling buf c [] hthread (.loadForPointer c) hsample hcalm (h.calling c htest) hevents,
        h.records.unnoted rfl rfl rfl fun _ h => h, h.window, fun hsignalled => ?_, nofun,
        h.alarm⟩
      rw [hok.2 (by rw [htest]; rfl) hsignalled] at hsample
      cases hsample
  | filling buf c l hthread hfills hsample hcalm hcalled hevents =>
    exact inv_filling h hok hthread hfills hsample hcalm hcalled hevents hstep
  | filled buf c hthread hworker hsample hcalm hcalled hevents =>
    simp only [workerStep, hworker] at hstep
    obtain rfl := Option.some.inj hstep
    exact ⟨.ready buf c hthread trivial hsample rfl hcalled hevents,
      h.records.unnoted rfl rfl rfl fun _ h => h, h.window, fun _ => rfl, nofun, fun _ => .inl rfl⟩
  | ready buf c _ hidle hsample => exact inv_idle h hidle hsample hstep
  | taken buf c _ hidle hsample => exact inv_idle h hidle hsample hstep
  | delivered buf c _ hidle hsample => exact inv_idle h hidle hsample hstep
  | stopping buf hthread hsignalled hsample hdelivered hreleased =>
    obtain ⟨huses, hout, hkept, -, ev, heq⟩ := unused_step (h.afterwards hsignalled)
      (fun c hc => hok.2 (by rw [hc]; rfl) hsignalled) hstep
    rw [heq]
    refine ⟨.stopping buf hthread hsignalled ?_ hdelivered hreleased,
      h.records.unnoted rfl rfl rfl fun _ h => h, h.window, fun _ => huses,
      fun c hc => absurd hc (hout c), fun _ => .inr ?_⟩
    · obtain hsame | hnone := hkept
      · exact hsame ▸ hsample
      · exact .inl hnone
    · obtain hthread | hthread := hthread
      · exact congrArg _ hthread
      · exact congrArg _ hthread
  | stopped hthread hrest hsample =>
    have huses : m.worker.usesSample = false := by
      obtain hsignalled | ⟨hidle, -⟩ := hrest
      · exact h.afterwards hsignalled
      · exact usesSample_of_idle hidle
    have htest : ∀ c, m.worker = .testSample c → m.sample = none := fun c hc => by
      obtain hsignalled | ⟨-, hnone⟩ := hrest
      · exact hok.2 (by rw [hc]; rfl) hsignalled
      · exact hnone
    obtain ⟨huses', hout, hkept, hidle, ev, heq⟩ := unused_step huses htest hstep
    rw [heq]
    refine ⟨.stopped hthread ?_ fun buf hbuf => ?_, h.records.unnoted rfl rfl rfl fun _ h => h,
      h.window, fun _ => huses', fun c hc => absurd hc (hout c), fun _ => .inr (congrArg _ hthread)⟩
    · obtain hsignalled | ⟨hidle', hnone⟩ := hrest
      · exact .inl hsignalled
      · refine .inr ⟨hidle hidle', ?_⟩
        obtain hsame | hnone' := hkept
        · exact hsame.trans hnone
        · exact hnone'
    · obtain hsame | hnone := hkept
      · exact hsample buf (hsame.symm.trans hbuf)
      · rw [show m'.sample = some buf from hbuf] at hnone
        cases hnone

theorem inv_destroy (h : m.Inv) (hok : m.Orderly .destroy) (hstep : m.destroyStep = some m') :
    m'.Inv := by
  simp only [destroyStep] at hstep
  split at hstep
  · next hd =>
    obtain rfl := Option.some.inj hstep
    have hunsignalled : m.signalled = false := by
      rw [signalled, hd]
      rfl
    refine h.similar ⟨rfl, rfl, rfl, rfl, .inl rfl, fun _ h => h, id, fun hs => ?_, fun hcalm hev => ?_⟩
      ⟨nofun, fun _ => rfl⟩ nofun h.calling nofun
    · rw [hunsignalled] at hs
      cases hs
    · have hs := hcalm hev
      rw [hunsignalled] at hs
      cases hs
  · next hd =>
    obtain rfl := Option.some.inj hstep
    have hwindow : m.vw = false := h.window.mpr (by rw [hd]; nofun)
    exact h.similar ⟨rfl, rfl, rfl, rfl, .inl rfl, fun _ h => h, fun _ => rfl, fun _ => rfl,
      fun _ _ => rfl⟩ ⟨nofun, fun _ => hwindow⟩ (fun _ => hok hd) h.calling
      fun _ => .inr rfl
  · next hd =>
    split at hstep
    · obtain rfl := Option.some.inj hstep
      have hwindow : m.vw = false := h.window.mpr (by rw [hd]; nofun)
      have hsignalled : m.signalled = true := by
        rw [signalled, hd]
        rfl
      exact h.similar ⟨rfl, rfl, rfl, rfl, .inl rfl, fun _ h => h, id, fun _ => rfl, fun _ _ => rfl⟩
        ⟨nofun, fun _ => hwindow⟩ (fun _ => h.afterwards hsignalled) h.calling
        fun _ => .inl hsignalled
    · cases hstep
  · cases hstep

theorem Inv.vw_of_signalled (h : m.Inv) (hsignalled : m.signalled = true) : m.vw = false :=
  h.window.mpr fun hd => by
    rw [signalled, hd] at hsignalled
    cases hsignalled

/-- A step of the thread leaves the call and the destructor where they are. -/
theorem inv_of_thread (h : m.Inv) (hphase : m'.Phase) (hrecords : m'.Records)
    (hworker : m'.worker = m.worker) (hvw : m'.vw = m.vw) (hdestructor : m'.destructor = m.destructor)
    (hcalls : m'.calls = m.calls) (halarm : m.signalled = true →
      m'.ev = m.ev ∧ m.thread.leaving = false ∨ m'.thread.leaving = true) : m'.Inv where
  phase := hphase
  records := hrecords
  window := by
    rw [hvw, hdestructor]
    exact h.window
  afterwards hsignalled := by
    rw [hworker]
    rw [signalled, hdestructor, ← signalled] at hsignalled
    exact h.afterwards hsignalled
  calling c hc := by
    rw [Called, hcalls]
    exact h.calling c (hworker.symm.trans hc)
  alarm hsignalled := by
    rw [signalled, hdestructor, ← signalled] at hsignalled
    obtain ⟨hev, hstays⟩ | hleaving := halarm hsignalled
    · obtain hset | hleaving := h.alarm hsignalled
      · exact .inl (hev.trans hset)
      · rw [hstays] at hleaving
        cases hleaving
    · exact .inr hleaving

theorem waiting_step {ok : Bool} (hthread : m.thread = .waiting buf)
    (hstep : m.threadStep ok = some m') :
    m.ev = true ∧ m' = { m with ev := false, thread := .testVW buf } := by
  simp only [threadStep, hthread, Option.ite_none_right_eq_some, Option.some.injEq] at hstep
  exact ⟨hstep.1, hstep.2.symm⟩

theorem inv_moved (h : m.Inv) {ev : Bool} {next : MonitoringPc} (hbuf : m.thread.buffer = some buf)
    (hnext : next.buffer = some buf) (hphase : Phase { m with ev := ev, thread := next })
    (hleaving : m.signalled = true → next.leaving = true) :
    Inv { m with ev := ev, thread := next } :=
  inv_of_thread h hphase (h.records.unnoted rfl rfl (hnext.trans hbuf.symm) fun _ h => h)
    rfl rfl rfl rfl fun hsignalled => .inr (hleaving hsignalled)

/-- The destructor ends the wait, with the buffer filled or not. -/
theorem inv_interrupted (h : m.Inv) (hthread : m.thread = .waiting buf)
    (hsignalled : m.signalled = true) (hsample : m.sample = none ∨ m.sample = some buf)
    (hnone : .released ∉ m.eventsOf buf ∧ .delivered ∉ m.eventsOf buf) :
    Inv { m with ev := false, thread := .testVW buf } :=
  inv_moved h (congrArg _ hthread) rfl
    (.stopping buf (.inl rfl) hsignalled hsample hnone.2 hnone.1) fun _ => rfl

theorem inv_released (h : m.Inv) {next : MonitoringPc} (hbuf : m.thread.buffer = some buf)
    (hnext : next.buffer = none)
    (hpast : Past { m.note buf .released with thread := next } buf)
    (hphase : Phase { m.note buf .released with thread := next })
    (halarm : m.thread.leaving = false ∨ next.leaving = true) :
    Inv { m.note buf .released with thread := next } :=
  inv_of_thread h hphase (h.records.noted hbuf rfl rfl (fun _ h => h) (.inr ⟨hnext, hpast⟩)) rfl rfl
    rfl rfl fun _ => halarm.imp_left fun hstays => ⟨rfl, hstays⟩

theorem testVW_step {ok : Bool} (hthread : m.thread = .testVW buf)
    (hstep : m.threadStep ok = some m') :
    m.vw = true ∧ m' = { m with thread := .delivering buf } ∨
      m.vw = false ∧ m' = { m with thread := .discarding buf } := by
  simp only [threadStep, hthread, Option.some.injEq] at hstep
  by_cases hvw : m.vw = true
  · rw [if_pos hvw] at hstep
    exact .inl ⟨hvw, hstep.symm⟩
  · rw [if_neg hvw] at hstep
    exact .inr ⟨(Bool.not_eq_true _).mp hvw, hstep.symm⟩

theorem inv_taken {ok : Bool} (h : m.Inv) (hthread : m.thread = .testVW buf ∨
    m.thread = .delivering buf ∨ m.thread = .discarding buf) (hidle : m.worker.Idle)
    (hsample : m.sample = none) (hcalm : m.Calm) (hcalled : m.Called c)
    (hevents : m.eventsOf buf = .exposed :: filling c) (hstep : m.threadStep ok = some m') :
    m'.Inv := by
  obtain hthread | hthread | hthread := hthread
  · obtain ⟨hvw, rfl⟩ | ⟨-, rfl⟩ := testVW_step hthread hstep
    · refine inv_moved h (congrArg _ hthread) rfl
        (.taken buf c (.inr (.inl rfl)) hidle hsample hcalm hcalled hevents) fun hsignalled => ?_
      rw [h.vw_of_signalled hsignalled] at hvw
      cases hvw
    · exact inv_moved h (congrArg _ hthread) rfl
        (.taken buf c (.inr (.inr rfl)) hidle hsample hcalm hcalled hevents) fun _ => rfl
  · simp only [threadStep, hthread] at hstep
    obtain rfl := Option.some.inj hstep
    have hbuf : m.thread.buffer = some buf := congrArg _ hthread
    refine inv_of_thread h (.delivered buf c rfl hidle hsample hcalm hcalled ?_)
      (h.records.noted hbuf rfl rfl (fun _ h => h) (.inl rfl)) rfl rfl rfl rfl
      fun _ => .inl ⟨rfl, congrArg _ hthread⟩
    refine (eventsOf_self (m := m) .delivered rfl).trans ?_
    rw [hevents]
  · simp only [threadStep, hthread] at hstep
    obtain rfl := Option.some.inj hstep
    have hnone := notMem_of_written (filling_written c)
    rw [← hevents] at hnone
    refine inv_released h (congrArg _ hthread) rfl
      (.inr ⟨_, eventsOf_self (m := m) .released rfl, hnone.2, hnone.1⟩)
      (.stopped rfl (.inr ⟨hidle, hsample⟩) fun buf hsome => ?_) (.inr rfl)
    rw [show m.sample = some buf from hsome] at hsample
    cases hsample

theorem inv_stopping {ok : Bool} (h : m.Inv)
    (hthread : m.thread = .testVW buf ∨ m.thread = .discarding buf)
    (hsignalled : m.signalled = true) (hsample : m.sample = none ∨ m.sample = some buf)
    (hdelivered : .delivered ∉ m.eventsOf buf) (hreleased : .released ∉ m.eventsOf buf)
    (hstep : m.threadStep ok = some m') : m'.Inv := by
  obtain hthread | hthread := hthread
  · obtain ⟨hvw, -⟩ | ⟨-, rfl⟩ := testVW_step hthread hstep
    · rw [h.vw_of_signalled hsignalled] at hvw
      cases hvw
    · exact inv_moved h (congrArg _ hthread) rfl
        (.stopping buf (.inr rfl) hsignalled hsample hdelivered hreleased) fun _ => rfl
  · simp only [threadStep, hthread] at hstep
    obtain rfl := Option.some.inj hstep
    refine inv_released h (congrArg _ hthread) rfl
      (.inr ⟨_, eventsOf_self (m := m) .released rfl, hdelivered, hreleased⟩)
      (.stopped rfl (.inl hsignalled) fun buf' hsome => ?_) (.inr rfl)
    obtain hnone | hsame := hsample
    · rw [show m.sample = some buf' from hsome] at hnone
      cases hnone
    · obtain rfl := Option.some.inj (hsame.symm.trans hsome)
      exact ⟨_, eventsOf_self (m := m) .released rfl⟩

theorem inv_thread {ok : Bool} (h : m.Inv) (hstep : m.threadStep ok = some m') : m'.Inv := by
  cases h.phase with
  | between hthread hidle hsample hcalm =>
    have hbuf : m.thread.buffer = none := congrArg _ hthread
    simp only [threadStep, hthread] at hstep
    cases ok with
    | true =>
      obtain rfl := Option.some.inj hstep
      exact inv_of_thread h (.sleeping m.buffers rfl hidle hsample hcalm
        (h.records.fresh _ (Nat.le_refl _))) (h.records.given hbuf) rfl rfl rfl rfl
        fun _ => .inl ⟨rfl, congrArg _ hthread⟩
    | false =>
      obtain rfl := Option.some.inj hstep
      exact h
  | sleeping buf hthread hidle hsample hcalm hevents =>
    have hbuf : m.thread.buffer = some buf := congrArg _ hthread
    simp only [threadStep, hthread] at hstep
    obtain rfl := Option.some.inj hstep
    refine inv_of_thread h (.exposed buf rfl hidle rfl hcalm ?_)
      (h.records.noted hbuf rfl rfl (fun _ h => h) (.inl rfl)) rfl rfl rfl rfl
      fun _ => .inl ⟨rfl, congrArg _ hthread⟩
    refine (eventsOf_self (m := m) .exposed rfl).trans ?_
    rw [hevents]
    rfl
  | exposed buf hthread hidle hsample hcalm hevents =>
    obtain ⟨hev, rfl⟩ := waiting_step hthread hstep
    refine inv_interrupted h hthread (hcalm hev) (.inr hsample) ?_
    rw [hevents]
    exact notMem_of_written (c := ⟨0, []⟩) nofun
  | filling buf c l hthread hfills hsample hcalm hcalled hevents =>
    obtain ⟨hev, rfl⟩ := waiting_step hthread hstep
    refine inv_interrupted h hthread (hcalm hev) (.inr hsample) ?_
    rw [hevents]
    exact notMem_of_written (fills_written hfills)
  | filled buf c hthread hworker hsample hcalm hcalled hevents =>
    obtain ⟨hev, rfl⟩ := waiting_step hthread hstep
    refine inv_interrupted h hthread (hcalm hev) (.inl hsample) ?_
    rw [hevents]
    exact notMem_of_written (filling_written c)
  | ready buf c hthread hidle hsample hev hcalled hevents =>
    obtain ⟨-, rfl⟩ := waiting_step hthread hstep
    exact inv_moved h (congrArg _ hthread) rfl
      (.taken buf c (.inl rfl) hidle hsample nofun hcalled hevents) fun _ => rfl
  | taken buf c hthread hidle hsample hcalm hcalled hevents =>
    exact inv_taken h hthread hidle hsample hcalm hcalled hevents hstep
  | delivered buf c hthread hidle hsample hcalm hcalled hevents =>
    simp only [threadStep, hthread] at hstep
    obtain rfl := Option.some.inj hstep
    have hbuf : m.thread.buffer = some buf := congrArg _ hthread
    refine inv_released h hbuf rfl (.inl ⟨c, hcalled, ?_⟩) (.between rfl hidle hsample hcalm)
      (.inl (congrArg _ hthread))
    refine (eventsOf_self (m := m) .released rfl).trans ?_
    rw [hevents, List.append_assoc]
    rfl
  | stopping buf hthread hsignalled hsample hdelivered hreleased =>
    exact inv_stopping h hthread hsignalled hsample hdelivered hreleased hstep
  | stopped hthread =>
    simp only [threadStep, hthread] at hstep
    cases hstep

theorem inv_start : start.Inv where
  phase := .between rfl trivial rfl nofun
  records := ⟨fun _ hlt => absurd hlt (Nat.not_lt_zero _), fun _ _ => rfl, nofun⟩
  window := ⟨nofun, fun h => absurd rfl h⟩
  afterwards := nofun
  calling := nofun
  alarm := nofun

theorem inv_step {a : MonitorAction} (h : m.Inv) (hok : m.Orderly a) (hstep : m.step a = some m') :
    m'.Inv := by
  cases a with
  | call data => exact inv_call h hstep
  | worker ok => exact inv_worker h hok hstep
  | thread ok => exact inv_thread h hstep
  | destroy => exact inv_destroy h hok hstep

theorem inv_of_run {acts : List MonitorAction} (hrun : Run step Orderly start acts m) : m.Inv :=
  hrun.invariant (fun _ _ _ h hok hstep => inv_step h hok hstep) inv_start

end CMonitor

end WinDV
