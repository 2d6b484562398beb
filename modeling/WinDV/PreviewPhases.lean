import WinDV.Monitor

/-! Where a buffer of the preview can be, by where the threads are, and what that
says about all buffers. -/

namespace WinDV

namespace HandleFramePc

/-- Not in a call, or not yet at its test of `m_sample`. -/
def Idle : HandleFramePc → Prop
  | .outside | .testSample _ => True
  | _ => False

/-- Between the test of `m_sample` and the last write to the buffer. -/
def usesSample : HandleFramePc → Bool
  | .loadForPointer _ | .getPointer _ _ | .copyMemory _ _ | .loadForLength _ | .setLength _ _
  | .loadForSync _ | .setSync _ _ => true
  | _ => false

def testsSample : HandleFramePc → Bool
  | .testSample _ => true
  | _ => false

def getsPointer : HandleFramePc → Bool
  | .getPointer _ _ => true
  | _ => false

end HandleFramePc

/-- The call `c` is filling `buf`, and has made the writes of the list. -/
inductive Fills (buf : Nat) : HandleFramePc → HandleFrameCall → List BufferEvent → Prop
  | loadForPointer (c) : Fills buf (.loadForPointer c) c []
  | getPointer (c) : Fills buf (.getPointer c buf) c []
  | copyMemory (c) : Fills buf (.copyMemory c buf) c []
  | loadForLength (c) : Fills buf (.loadForLength c) c ((CMonitor.filling c).take 1)
  | setLength (c) : Fills buf (.setLength c buf) c ((CMonitor.filling c).take 1)
  | loadForSync (c) : Fills buf (.loadForSync c) c ((CMonitor.filling c).take 2)
  | setSync (c) : Fills buf (.setSync c buf) c ((CMonitor.filling c).take 2)
  | clearSample (c) : Fills buf (.clearSample c) c (CMonitor.filling c)

theorem Fills.not_idle {buf : Nat} {pc : HandleFramePc} {c : HandleFrameCall} {l : List BufferEvent}
    (h : Fills buf pc c l) : ¬ pc.Idle := by
  cases h <;> exact id

theorem Fills.ne_testSample {buf : Nat} {pc : HandleFramePc} {c : HandleFrameCall}
    {l : List BufferEvent} (h : Fills buf pc c l) (c' : HandleFrameCall) : pc ≠ .testSample c' := by
  rintro rfl
  exact h.not_idle trivial

def MonitoringPc.buffer : MonitoringPc → Option Nat
  | .sleeping buf | .waiting buf | .testVW buf | .discarding buf | .delivering buf
  | .releasing buf => some buf
  | .getBuffer | .returned => none

/-- Past the wait that the destructor has ended. -/
def MonitoringPc.leaving : MonitoringPc → Bool
  | .testVW _ | .discarding _ | .returned => true
  | _ => false

namespace CMonitor

variable {m m' : CMonitor} {buf buf' : Nat} {c : HandleFrameCall} {l : List BufferEvent}

/-- The destructor has set `m_ev`. -/
def signalled (m : CMonitor) : Bool :=
  m.destructor = .waitingThread || m.destructor = .finished

/-- `m_ev` is not set, unless by the destructor. -/
def Calm (m : CMonitor) : Prop := m.ev = true → m.signalled = true

/-- Where a buffer stands, by where the thread does. -/
inductive Phase (m : CMonitor) : Prop
  | between (hthread : m.thread = .getBuffer) (hidle : m.worker.Idle) (hsample : m.sample = none)
      (hcalm : m.Calm)
  | sleeping (buf : Nat) (hthread : m.thread = .sleeping buf) (hidle : m.worker.Idle)
      (hsample : m.sample = none) (hcalm : m.Calm) (hevents : m.eventsOf buf = [])
  | exposed (buf : Nat) (hthread : m.thread = .waiting buf) (hidle : m.worker.Idle)
      (hsample : m.sample = some buf) (hcalm : m.Calm) (hevents : m.eventsOf buf = [.exposed])
  | filling (buf : Nat) (c : HandleFrameCall) (l : List BufferEvent)
      (hthread : m.thread = .waiting buf) (hfills : Fills buf m.worker c l)
      (hsample : m.sample = some buf) (hcalm : m.Calm) (hcalled : m.Called c)
      (hevents : m.eventsOf buf = .exposed :: l)
  | filled (buf : Nat) (c : HandleFrameCall) (hthread : m.thread = .waiting buf)
      (hworker : m.worker = .setEvent c) (hsample : m.sample = none) (hcalm : m.Calm)
      (hcalled : m.Called c) (hevents : m.eventsOf buf = .exposed :: CMonitor.filling c)
  | ready (buf : Nat) (c : HandleFrameCall) (hthread : m.thread = .waiting buf)
      (hidle : m.worker.Idle) (hsample : m.sample = none) (hev : m.ev = true)
      (hcalled : m.Called c) (hevents : m.eventsOf buf = .exposed :: CMonitor.filling c)
  | taken (buf : Nat) (c : HandleFrameCall)
      (hthread : m.thread = .testVW buf ∨ m.thread = .delivering buf ∨ m.thread = .discarding buf)
      (hidle : m.worker.Idle) (hsample : m.sample = none) (hcalm : m.Calm) (hcalled : m.Called c)
      (hevents : m.eventsOf buf = .exposed :: CMonitor.filling c)
  | delivered (buf : Nat) (c : HandleFrameCall) (hthread : m.thread = .releasing buf)
      (hidle : m.worker.Idle) (hsample : m.sample = none) (hcalm : m.Calm) (hcalled : m.Called c)
      (hevents : m.eventsOf buf = .exposed :: CMonitor.filling c ++ [.delivered])
  | stopping (buf : Nat) (hthread : m.thread = .testVW buf ∨ m.thread = .discarding buf)
      (hsignalled : m.signalled = true) (hsample : m.sample = none ∨ m.sample = some buf)
      (hdelivered : .delivered ∉ m.eventsOf buf) (hreleased : .released ∉ m.eventsOf buf)
  | stopped (hthread : m.thread = .returned)
      (hrest : m.signalled = true ∨ m.worker.Idle ∧ m.sample = none)
      (hsample : ∀ buf, m.sample = some buf → ∃ l, m.eventsOf buf = l ++ [.released])

/-- A buffer that the thread is done with. -/
def Past (m : CMonitor) (buf : Nat) : Prop :=
  (∃ c, m.Called c ∧ m.eventsOf buf = .exposed :: filling c ++ [.delivered, .released]) ∨
    ∃ l, m.eventsOf buf = l ++ [.released] ∧ .delivered ∉ l ∧ .released ∉ l

/-- All buffers that were given, but for the one that the thread holds, are past. -/
structure Records (m : CMonitor) : Prop where
  past : ∀ buf < m.buffers, m.thread.buffer ≠ some buf → m.Past buf
  fresh : ∀ buf, m.buffers ≤ buf → m.eventsOf buf = []
  bound : ∀ buf, m.thread.buffer = some buf → buf < m.buffers

structure Inv (m : CMonitor) : Prop where
  phase : m.Phase
  records : m.Records
  window : m.vw = false ↔ m.destructor ≠ .notCalled
  afterwards : m.signalled = true → m.worker.usesSample = false
  calling : ∀ c, m.worker = .testSample c → m.Called c
  alarm : m.signalled = true → m.ev = true ∨ m.thread.leaving = true

theorem eventsOf_self (e : BufferEvent) (h : m'.history = m.history ++ [(buf, e)]) :
    m'.eventsOf buf = m.eventsOf buf ++ [e] := by
  rw [eventsOf, h, List.filter_append, List.map_append, eventsOf]
  simp

theorem eventsOf_of_ne {e : BufferEvent} (h : m'.history = m.history ++ [(buf, e)])
    (hne : buf' ≠ buf) : m'.eventsOf buf' = m.eventsOf buf' := by
  rw [eventsOf, h, List.filter_append, List.map_append, eventsOf]
  simp [hne.symm]

theorem eventsOf_congr (h : m'.history = m.history) (buf : Nat) :
    m'.eventsOf buf = m.eventsOf buf := by
  rw [eventsOf, h, eventsOf]

/-- A step that moves no buffer. -/
structure Similar (m m' : CMonitor) : Prop where
  sample : m'.sample = m.sample
  thread : m'.thread = m.thread
  history : m'.history = m.history
  buffers : m'.buffers = m.buffers
  worker : m'.worker = m.worker ∨ m.worker.Idle ∧ m'.worker.Idle
  called : ∀ c, m.Called c → m'.Called c
  ev : m.ev = true → m'.ev = true
  signalled : m.signalled = true → m'.signalled = true
  calm : m.Calm → m'.Calm

theorem Similar.idle (h : Similar m m') (hidle : m.worker.Idle) : m'.worker.Idle := by
  obtain heq | ⟨-, hidle'⟩ := h.worker
  · rw [heq]
    exact hidle
  · exact hidle'

theorem Similar.fills (h : Similar m m') (hfills : Fills buf m.worker c l) :
    Fills buf m'.worker c l := by
  obtain heq | ⟨hidle, -⟩ := h.worker
  · rw [heq]
    exact hfills
  · exact absurd hidle hfills.not_idle

theorem Phase.similar (h : m.Phase) (hs : Similar m m') : m'.Phase := by
  cases h with
  | between hthread hidle hsample hcalm =>
    exact .between (hs.thread.trans hthread) (hs.idle hidle) (hs.sample.trans hsample) (hs.calm hcalm)
  | sleeping buf hthread hidle hsample hcalm hevents =>
    exact .sleeping buf (hs.thread.trans hthread) (hs.idle hidle) (hs.sample.trans hsample)
      (hs.calm hcalm) ((eventsOf_congr hs.history buf).trans hevents)
  | exposed buf hthread hidle hsample hcalm hevents =>
    exact .exposed buf (hs.thread.trans hthread) (hs.idle hidle) (hs.sample.trans hsample)
      (hs.calm hcalm) ((eventsOf_congr hs.history buf).trans hevents)
  | filling buf c l hthread hfills hsample hcalm hcalled hevents =>
    exact .filling buf c l (hs.thread.trans hthread) (hs.fills hfills) (hs.sample.trans hsample)
      (hs.calm hcalm) (hs.called c hcalled) ((eventsOf_congr hs.history buf).trans hevents)
  | filled buf c hthread hworker hsample hcalm hcalled hevents =>
    have hworker' : m'.worker = .setEvent c := by
      obtain heq | ⟨hidle, -⟩ := hs.worker
      · exact heq.trans hworker
      · rw [hworker] at hidle
        exact hidle.elim
    exact .filled buf c (hs.thread.trans hthread) hworker' (hs.sample.trans hsample) (hs.calm hcalm)
      (hs.called c hcalled) ((eventsOf_congr hs.history buf).trans hevents)
  | ready buf c hthread hidle hsample hev hcalled hevents =>
    exact .ready buf c (hs.thread.trans hthread) (hs.idle hidle) (hs.sample.trans hsample) (hs.ev hev)
      (hs.called c hcalled) ((eventsOf_congr hs.history buf).trans hevents)
  | taken buf c hthread hidle hsample hcalm hcalled hevents =>
    exact .taken buf c (by rw [hs.thread]; exact hthread) (hs.idle hidle) (hs.sample.trans hsample)
      (hs.calm hcalm) (hs.called c hcalled) ((eventsOf_congr hs.history buf).trans hevents)
  | delivered buf c hthread hidle hsample hcalm hcalled hevents =>
    exact .delivered buf c (hs.thread.trans hthread) (hs.idle hidle) (hs.sample.trans hsample)
      (hs.calm hcalm) (hs.called c hcalled) ((eventsOf_congr hs.history buf).trans hevents)
  | stopping buf hthread hsignalled hsample hdelivered hreleased =>
    refine .stopping buf (by rw [hs.thread]; exact hthread) (hs.signalled hsignalled)
      (by rw [hs.sample]; exact hsample) ?_ ?_
    · rw [eventsOf_congr hs.history]
      exact hdelivered
    · rw [eventsOf_congr hs.history]
      exact hreleased
  | stopped hthread hrest hsample =>
    refine .stopped (hs.thread.trans hthread) ?_ fun buf hbuf => ?_
    · exact hrest.imp hs.signalled fun ⟨hidle, hnone⟩ => ⟨hs.idle hidle, hs.sample.trans hnone⟩
    · rw [eventsOf_congr hs.history]
      exact hsample buf (hs.sample.symm.trans hbuf)

theorem Past.congr (h : m.Past buf) (hevents : m'.eventsOf buf = m.eventsOf buf)
    (hcalled : ∀ c, m.Called c → m'.Called c) : m'.Past buf := by
  rw [Past, hevents]
  exact h.imp_left fun ⟨c, hc, heq⟩ => ⟨c, hcalled c hc, heq⟩

theorem Records.unnoted (h : m.Records) (hhistory : m'.history = m.history)
    (hbuffers : m'.buffers = m.buffers) (hthread : m'.thread.buffer = m.thread.buffer)
    (hcalled : ∀ c, m.Called c → m'.Called c) : m'.Records where
  past buf hlt hne :=
    (h.past buf (hbuffers ▸ hlt) (hthread ▸ hne)).congr (eventsOf_congr hhistory buf) hcalled
  fresh buf hle := (eventsOf_congr hhistory buf).trans (h.fresh buf (hbuffers ▸ hle))
  bound buf hbuf := hbuffers ▸ h.bound buf (hthread ▸ hbuf)

/-- An event of the buffer that the thread holds changes no other buffer. -/
theorem Records.noted (h : m.Records) {e : BufferEvent} (hbuf : m.thread.buffer = some buf)
    (hhistory : m'.history = m.history ++ [(buf, e)]) (hbuffers : m'.buffers = m.buffers)
    (hcalled : ∀ c, m.Called c → m'.Called c)
    (hthread : m'.thread.buffer = some buf ∨ m'.thread.buffer = none ∧ m'.Past buf) :
    m'.Records where
  past buf' hlt hne := by
    by_cases heq : buf' = buf
    · rw [heq] at hne ⊢
      obtain hhold | ⟨-, hpast⟩ := hthread
      · exact absurd hhold hne
      · exact hpast
    · have hother : m.thread.buffer ≠ some buf' := by
        rw [hbuf]
        exact fun hsome => heq (Option.some.inj hsome).symm
      exact (h.past buf' (hbuffers ▸ hlt) hother).congr (eventsOf_of_ne hhistory heq) hcalled
  fresh buf' hle := by
    have hne : buf' ≠ buf := by
      rintro rfl
      exact Nat.not_lt.mpr hle (hbuffers ▸ h.bound buf' hbuf)
    rw [eventsOf_of_ne hhistory hne]
    exact h.fresh buf' (hbuffers ▸ hle)
  bound buf' hbuf' := by
    obtain hhold | ⟨hnone, -⟩ := hthread
    · rw [hhold] at hbuf'
      rw [← Option.some.inj hbuf', hbuffers]
      exact h.bound buf hbuf
    · rw [hnone] at hbuf'
      cases hbuf'

theorem Records.given (h : m.Records) (hthread : m.thread.buffer = none) :
    Records { m with buffers := m.buffers + 1, thread := .sleeping m.buffers } where
  past buf hlt hne := by
    have hne' : m.buffers ≠ buf := fun heq => hne (congrArg some heq)
    have hlt' : buf < m.buffers + 1 := hlt
    exact h.past buf (by omega) (by rw [hthread]; nofun)
  fresh buf hle := h.fresh buf (Nat.le_of_succ_le hle)
  bound buf hbuf := by
    rw [← Option.some.inj hbuf]
    exact Nat.lt_succ_self _

theorem Records.similar (h : m.Records) (hs : Similar m m') : m'.Records :=
  h.unnoted hs.history hs.buffers (congrArg _ hs.thread) hs.called

theorem filling_written (c : HandleFrameCall) : ∀ e ∈ filling c, ∃ w, e = .written c.number w := by
  simp [filling]

theorem fills_written {pc : HandleFramePc} (h : Fills buf pc c l) :
    ∀ e ∈ l, ∃ w, e = .written c.number w := by
  have hall := filling_written c
  cases h with
  | loadForPointer => nofun
  | getPointer => nofun
  | copyMemory => nofun
  | loadForLength => exact fun e he => hall e (List.mem_of_mem_take he)
  | setLength => exact fun e he => hall e (List.mem_of_mem_take he)
  | loadForSync => exact fun e he => hall e (List.mem_of_mem_take he)
  | setSync => exact fun e he => hall e (List.mem_of_mem_take he)
  | clearSample => exact hall

/-- While it is filled a buffer is neither delivered nor released. -/
theorem notMem_of_written (hl : ∀ e ∈ l, ∃ w, e = .written c.number w) :
    .released ∉ BufferEvent.exposed :: l ∧ .delivered ∉ BufferEvent.exposed :: l := by
  have hmem (e : BufferEvent) (he : e ∈ .exposed :: l) :
      e = .exposed ∨ ∃ w, e = .written c.number w := (List.mem_cons.mp he).imp_right (hl e)
  refine ⟨fun h => ?_, fun h => ?_⟩
  · obtain heq | ⟨w, heq⟩ := hmem _ h
    · cases heq
    · cases heq
  · obtain heq | ⟨w, heq⟩ := hmem _ h
    · cases heq
    · cases heq

theorem released_notMem_filling (c : HandleFrameCall) :
    .released ∉ BufferEvent.exposed :: filling c ++ [.delivered] := by
  rw [List.mem_append, List.mem_singleton]
  exact not_or.mpr ⟨(notMem_of_written (filling_written c)).1, nofun⟩

/-- The buffer that the thread holds is not released, and if it is delivered,
one call has filled it. -/
theorem Phase.held (h : m.Phase) (hbuf : m.thread.buffer = some buf) :
    .released ∉ m.eventsOf buf ∧ (.delivered ∈ m.eventsOf buf → ∃ c, m.Called c ∧
      m.eventsOf buf = .exposed :: CMonitor.filling c ++ [.delivered]) := by
  have hplain {l : List BufferEvent} {c : HandleFrameCall} (hevents : m.eventsOf buf = .exposed :: l)
      (hl : ∀ e ∈ l, ∃ w, e = .written c.number w) :
      .released ∉ m.eventsOf buf ∧ (.delivered ∈ m.eventsOf buf → ∃ c, m.Called c ∧
        m.eventsOf buf = .exposed :: CMonitor.filling c ++ [.delivered]) := by
    rw [hevents]
    exact (notMem_of_written hl).imp_right fun hnot h => absurd h hnot
  cases h with
  | between hthread =>
    rw [hthread] at hbuf
    cases hbuf
  | sleeping buf' hthread _ _ _ hevents =>
    rw [hthread] at hbuf
    obtain rfl := Option.some.inj hbuf
    rw [hevents]
    exact ⟨List.not_mem_nil, fun h => absurd h List.not_mem_nil⟩
  | exposed buf' hthread _ _ _ hevents =>
    rw [hthread] at hbuf
    obtain rfl := Option.some.inj hbuf
    exact hplain (c := ⟨0, []⟩) hevents nofun
  | filling buf' c l hthread hfills _ _ _ hevents =>
    rw [hthread] at hbuf
    obtain rfl := Option.some.inj hbuf
    exact hplain hevents (fills_written hfills)
  | filled buf' c hthread _ _ _ _ hevents =>
    rw [hthread] at hbuf
    obtain rfl := Option.some.inj hbuf
    exact hplain hevents (filling_written c)
  | ready buf' c hthread _ _ _ _ hevents =>
    rw [hthread] at hbuf
    obtain rfl := Option.some.inj hbuf
    exact hplain hevents (filling_written c)
  | taken buf' c hthread _ _ _ _ hevents =>
    have heq : buf' = buf := by
      obtain h | h | h := hthread
      all_goals
        rw [h] at hbuf
        exact Option.some.inj hbuf
    rw [heq] at hevents
    exact hplain hevents (filling_written c)
  | delivered buf' c hthread _ _ _ hcalled hevents =>
    rw [hthread] at hbuf
    obtain rfl := Option.some.inj hbuf
    refine ⟨?_, fun _ => ⟨c, hcalled, hevents⟩⟩
    rw [hevents]
    exact released_notMem_filling c
  | stopping buf' hthread _ _ hdelivered hreleased =>
    have heq : buf' = buf := by
      obtain h | h := hthread
      all_goals
        rw [h] at hbuf
        exact Option.some.inj hbuf
    rw [heq] at hdelivered hreleased
    exact ⟨hreleased, fun h => absurd h hdelivered⟩
  | stopped hthread =>
    rw [hthread] at hbuf
    cases hbuf

theorem Phase.sample_of_waiting (h : m.Phase) (hthread : m.thread = .waiting buf)
    (hev : m.ev = false) (hworker : m.worker = .outside) : m.sample = some buf := by
  cases h with
  | exposed buf' hthread' _ hsample =>
    rw [hthread] at hthread'
    obtain rfl := MonitoringPc.waiting.inj hthread'
    exact hsample
  | filling buf' c l _ hfills =>
    rw [hworker] at hfills
    exact absurd trivial hfills.not_idle
  | filled buf' c _ hworker' =>
    rw [hworker] at hworker'
    cases hworker'
  | ready buf' c _ _ _ hev' =>
    rw [hev] at hev'
    cases hev'
  | between hthread' =>
    rw [hthread] at hthread'
    cases hthread'
  | sleeping buf' hthread' =>
    rw [hthread] at hthread'
    cases hthread'
  | taken buf' c hthread' =>
    rw [hthread] at hthread'
    obtain h | h | h := hthread' <;> cases h
  | delivered buf' c hthread' =>
    rw [hthread] at hthread'
    cases hthread'
  | stopping buf' hthread' =>
    rw [hthread] at hthread'
    obtain h | h := hthread' <;> cases h
  | stopped hthread' =>
    rw [hthread] at hthread'
    cases hthread'

theorem eq_nil_of_append_cons {α : Type*} {l before after : List α} {a : α} (hl : a ∉ l)
    (h : l ++ [a] = before ++ a :: after) : after = [] := by
  rcases List.eq_nil_or_concat' after with rfl | ⟨after, b, rfl⟩
  · rfl
  · rw [← List.cons_append, ← List.append_assoc] at h
    obtain ⟨hl', -⟩ := List.append_inj' h rfl
    rw [hl'] at hl
    exact absurd (List.mem_append_right _ List.mem_cons_self) hl

theorem handedOver_of_inv (h : m.Inv) : m.HandedOver where
  delivered buf hmem := by
    by_cases hlt : buf < m.buffers
    · by_cases hheld : m.thread.buffer = some buf
      · obtain ⟨c, hcalled, hevents⟩ := (h.phase.held hheld).2 hmem
        exact ⟨c, hcalled, .inl hevents⟩
      · obtain ⟨c, hcalled, hevents⟩ | ⟨l, hevents, hl, -⟩ := h.records.past buf hlt hheld
        · exact ⟨c, hcalled, .inr hevents⟩
        · rw [hevents, List.mem_append, List.mem_singleton] at hmem
          exact absurd (hmem.resolve_right nofun) hl
    · rw [h.records.fresh buf (Nat.not_lt.mp hlt)] at hmem
      exact absurd hmem List.not_mem_nil
  released buf before after hevents := by
    have hmem : .released ∈ m.eventsOf buf := by
      rw [hevents]
      exact List.mem_append_right _ List.mem_cons_self
    have hlt : buf < m.buffers := by
      by_contra hle
      rw [h.records.fresh buf (Nat.not_lt.mp hle)] at hmem
      exact absurd hmem List.not_mem_nil
    have hheld : m.thread.buffer ≠ some buf := fun hheld => (h.phase.held hheld).1 hmem
    obtain ⟨c, -, hdone⟩ | ⟨l, hdone, -, hl⟩ := h.records.past buf hlt hheld
    · have hsplit : (BufferEvent.exposed :: filling c ++ [.delivered]) ++ [.released] =
          before ++ .released :: after := by
        rw [← hevents, hdone, List.append_assoc]
        rfl
      rw [eq_nil_of_append_cons (released_notMem_filling c) hsplit]
      exact fun _ _ => List.not_mem_nil
    · rw [eq_nil_of_append_cons hl (hdone.symm.trans hevents)]
      exact fun _ _ => List.not_mem_nil
  waiting buf hthread hev hworker := h.phase.sample_of_waiting hthread hev hworker

end CMonitor

end WinDV
