import WinDV.CaptureInBlock

/-! From the device to the files: the worker takes the frames that the queue
accepted, in order and with their bytes, and those that it captures are handed
to the writers of its files, each once. -/

namespace WinDV

open Transition

namespace WorkerPC

/-- The frame that the thread has taken but not yet told by its state. -/
def inHand : WorkerPC → List Frame
  | .test f _ | .testFinalizing f _ => [f]
  | _ => []

/-- The captured frame that no writer was handed yet. -/
def unwritten : WorkerPC → List DequeuedFrame
  | .split d | .openFile d | .write d => [d]
  | _ => []

/-- The frame whose bytes the thread has yet to copy. -/
def reading (pc : WorkerPC) : List Frame := pc.inHand ++ pc.unwritten.map (·.frame)

end WorkerPC

namespace CapturingThread

variable {env : CaptureEnv} {t t' : CapturingThread}

/-- Of each file the frames that its writer was handed, and the data that reached the mux. -/
def contents (t : CapturingThread) : List (List DequeuedFrame × List (List UInt8)) :=
  t.files.map fun v => (v.handed, v.samples.map Sample.data)

def chosen (t : CapturingThread) : List DequeuedFrame := t.dequeued.filter (·.state.captures)

/-- The frames of all files, in the order of the files. -/
def filed (t : CapturingThread) : List DequeuedFrame := t.contents.flatMap Prod.fst

theorem contents_none (h : t.aviWriter = none) :
    t.contents = t.closed.map fun v => (v.handed, v.samples.map Sample.data) := by
  simp [contents, CDV.files, h]

theorem contents_some {v : CAVIWriter} (h : t.aviWriter = some v) :
    t.contents = (t.closed.map fun v => (v.handed, v.samples.map Sample.data)) ++
      [(v.handed, v.samples.map Sample.data)] := by
  simp [contents, CDV.files, h]

theorem contents_finalizeFile {v v' : CAVIWriter} {o : Finalization}
    (h : v.finalizeFile o = .ok v' ∨ v.finalizeFile o = .error v') :
    v'.handed = v.handed ∧ v'.samples = v.samples := by
  obtain ⟨finalfile, endsOfStream, rfl⟩ := CAVIWriter.finalizeFile_eq h
  exact ⟨rfl, rfl⟩

theorem contents_closeWriter {o : Finalization}
    (h : t.closeWriter o = .ok t' ∨ t.closeWriter o = .error t') :
    t'.contents = t.contents ∧ t'.dequeued = t.dequeued := by
  rcases h with h | h
  · rcases closeWriter_eq_ok h with ⟨-, rfl⟩ | ⟨v, v', phase, hv, hf, rfl⟩
    · exact ⟨rfl, rfl⟩
    · obtain ⟨hhanded, hsamples⟩ := contents_finalizeFile (.inl hf)
      rw [contents_some hv, contents_none rfl]
      simp [hhanded, hsamples]
  · obtain ⟨v, v', phase, hv, hf, rfl⟩ := closeWriter_eq_error h
    obtain ⟨hhanded, hsamples⟩ := contents_finalizeFile (.inr hf)
    rw [contents_some hv, contents_some rfl]
    simp [hhanded, hsamples]

theorem contents_splitFile {o : Finalization}
    (h : t.splitFile env o = .ok t' ∨ t.splitFile env o = .error t') :
    t'.contents = t.contents ∧ t'.dequeued = t.dequeued := by
  rcases h with h | h
  · rcases splitFile_eq_ok h with ⟨-, rfl⟩ | ⟨-, hclose⟩
    · exact ⟨rfl, rfl⟩
    · exact contents_closeWriter (.inl hclose)
  · exact contents_closeWriter (.inr (splitFile_eq_error h))

theorem contents_openWriter {created : Option Path} (h : t.openWriter env created = .ok t') :
    (t'.contents = t.contents ∨ t'.contents = t.contents ++ [([], [])]) ∧
      t'.dequeued = t.dequeued := by
  rcases openWriter_eq_ok h with ⟨-, rfl⟩ | ⟨hnone, tmpfile, -, rfl⟩
  · exact ⟨.inl rfl, rfl⟩
  · refine ⟨.inr ?_, rfl⟩
    rw [contents_none hnone, contents_some rfl]
    rfl

theorem filed_of_contents (h : t'.contents = t.contents) : t'.filed = t.filed := by
  rw [filed, h, filed]

theorem chosen_of_dequeued (h : t'.dequeued = t.dequeued) : t'.chosen = t.chosen := by
  rw [chosen, h, chosen]

/-- A frame that is written goes to the end of the last file. -/
theorem contents_writeFrame {d : DequeuedFrame} {o : Delivery} (h : t.writeFrame env d o = .ok t')
    (hopen : t.aviWriter ≠ none) : t'.dequeued = t.dequeued ∧
      ((env.everyNth ≠ 1 ∧ t'.contents = t.contents) ∨
        ∃ before handed data data', t.contents = before ++ [(handed, data)] ∧
          t'.contents = before ++ [(handed ++ [d], data')] ∧
          (o = .delivered → data' = data ++ [d.frame.data])) := by
  rcases writeFrame_eq_ok h with ⟨hno, rfl⟩ | ⟨v, v', hv, -, hhandle, rfl⟩
  · refine ⟨rfl, .inl ⟨fun hone => ?_, rfl⟩⟩
    rcases hno with hno | hno
    · exact hopen hno
    · exact hno (by simp [hone])
  · refine ⟨rfl, .inr ⟨_, _, _, v'.samples.map Sample.data, contents_some hv, ?_, ?_⟩⟩
    · obtain ⟨-, hhanded, -⟩ := CAVIWriter.handleFrame_eq_some hhandle
      rw [contents_some rfl, hhanded]
    · rintro rfl
      obtain rfl := Option.some.inj hhandle
      simp

theorem contents_countUp (t : CapturingThread) (d : DequeuedFrame) :
    (t.countUp d).contents = t.contents := by
  have hbackfill (v : CAVIWriter) : (v.backfill t.dvTime).handed = v.handed ∧
      (v.backfill t.dvTime).samples = v.samples := by
    obtain ⟨x, hx⟩ := v.backfill_eq t.dvTime
    rw [hx]
    exact ⟨rfl, rfl⟩
  cases hv : t.aviWriter with
  | none =>
    have hnone : (t.countUp d).aviWriter = none := by simp [countUp, hv]
    rw [contents_none hv, contents_none hnone]
    rfl
  | some v =>
    have hsome : (t.countUp d).aviWriter = some (v.backfill t.dvTime) := by simp [countUp, hv]
    obtain ⟨hhanded, hsamples⟩ := hbackfill v
    rw [contents_some hv, contents_some hsome, hhanded, hsamples]
    rfl

end CapturingThread

namespace CaptureWorker

variable {env : CaptureEnv} {w w' : CaptureWorker}

theorem skipped_captures {t : CapturingThread} {f : Frame} {drops : Int32}
    (hfin : t.state ≠ .captureFinalizing) : (skipped t f drops).state.captures = false := by
  unfold skipped
  by_cases hcap : t.state = .capturing
  · simp [hcap, CDVState.captures]
  · simp [hcap, hfin, CDVState.captures]

/-- What a step of the thread does to the frames that it took and to the files. -/
inductive Moves (env : CaptureEnv) (r : Round) (w w' : CaptureWorker) : Prop
  | quiet (hcontents : w'.contents = w.contents) (hdequeued : w'.dequeued = w.dequeued)
    (hpc : w'.pc.unwritten = w.pc.unwritten) (hwrite : ∀ d, w'.pc ≠ .write d)
  | escapes (hcontents : w'.contents = w.contents) (hdequeued : w'.dequeued = w.dequeued)
    (hpc : w'.pc = .escaped)
  | tells (d : DequeuedFrame) (hpc : w.pc.unwritten = [])
    (hpc' : w'.pc.unwritten = [d].filter (·.state.captures)) (hcontents : w'.contents = w.contents)
    (hdequeued : w'.dequeued = w.dequeued ++ [d]) (hwrite : ∀ d, w'.pc ≠ .write d)
  | opens (d : DequeuedFrame) (hpc : w.pc = .openFile d) (hpc' : w'.pc = .write d)
    (hopen : w'.aviWriter ≠ none)
    (hcontents : w'.contents = w.contents ∨ w'.contents = w.contents ++ [([], [])])
    (hdequeued : w'.dequeued = w.dequeued)
  | passes (d : DequeuedFrame) (hpc : w.pc = .write d) (hpc' : w'.pc = .count d)
    (hnth : env.everyNth ≠ 1) (hcontents : w'.contents = w.contents)
    (hdequeued : w'.dequeued = w.dequeued)
  | writes (d : DequeuedFrame) (hpc : w.pc = .write d) (hpc' : w'.pc = .count d)
    (before : List (List DequeuedFrame × List (List UInt8))) (handed : List DequeuedFrame)
    (data data' : List (List UInt8)) (hold : w.contents = before ++ [(handed, data)])
    (hnew : w'.contents = before ++ [(handed ++ [d], data')])
    (hdelivered : r.calls.delivery = .delivered → data' = data ++ [d.frame.data])
    (hdequeued : w'.dequeued = w.dequeued)

theorem moves_goOn {t : CapturingThread} {pc next : WorkerPC} {r : Round}
    {x : Except CapturingThread CapturingThread}
    (hx : ∀ t', x = .ok t' ∨ x = .error t' → t'.contents = t.contents ∧ t'.dequeued = t.dequeued)
    (hpc : next.unwritten = pc.unwritten) (hwrite : ∀ d, next ≠ .write d) :
    Moves env r ⟨t, pc⟩ (goOn x next) := by
  cases x with
  | ok t' =>
    obtain ⟨hcontents, hdequeued⟩ := hx t' (.inl rfl)
    exact .quiet hcontents hdequeued hpc hwrite
  | error t' =>
    obtain ⟨hcontents, hdequeued⟩ := hx t' (.inr rfl)
    exact .escapes hcontents hdequeued rfl

theorem moves_openWriter {t : CapturingThread} {d : DequeuedFrame} {r : Round} :
    Moves env r ⟨t, .openFile d⟩ (goOn (t.openWriter env r.calls.created) (.write d)) := by
  cases hopen : t.openWriter env r.calls.created with
  | error t' =>
    rw [CapturingThread.openWriter_eq_error hopen]
    exact .escapes rfl rfl rfl
  | ok t' =>
    obtain ⟨hcontents, hdequeued⟩ := CapturingThread.contents_openWriter hopen
    have hsome := Option.isSome_iff_ne_none.mp (CapturingThread.openWriter_isSome hopen)
    exact .opens d rfl rfl hsome hcontents hdequeued

theorem moves_writeFrame {t : CapturingThread} {d : DequeuedFrame} {r : Round}
    (hopen : t.aviWriter ≠ none) :
    Moves env r ⟨t, .write d⟩ (goOn (t.writeFrame env d r.calls.delivery) (.count d)) := by
  cases hwrite : t.writeFrame env d r.calls.delivery with
  | error t' =>
    rw [CapturingThread.writeFrame_eq_error hwrite]
    exact .escapes rfl rfl rfl
  | ok t' =>
    obtain ⟨hdequeued, hcontents⟩ := CapturingThread.contents_writeFrame hwrite hopen
    rcases hcontents with ⟨hnth, hcontents⟩ | ⟨before, handed, data, data', hold, hnew, hdelivered⟩
    · exact .passes d rfl rfl hnth hcontents hdequeued
    · exact .writes d rfl rfl before handed data data' hold hnew hdelivered hdequeued

theorem moves_of_step {r : Round} (hopened : ∀ d, w.pc = .write d → w.aviWriter ≠ none)
    (hstep : w.step env r = some w') : Moves env r w w' := by
  obtain ⟨t, pc⟩ := w
  have hquiet {t' : CapturingThread} {pc' : WorkerPC} (hcontents : t'.contents = t.contents)
      (hdequeued : t'.dequeued = t.dequeued) (hpc : pc.unwritten = []) (hpc' : pc'.unwritten = []) :
      Moves env r ⟨t, pc⟩ ⟨t', pc'⟩ :=
    .quiet hcontents hdequeued (hpc'.trans hpc.symm) fun d hd => by
      obtain rfl : pc' = .write d := hd
      cases hpc'
  cases pc with
  | top | endTest | timeoutTest =>
    obtain rfl := Option.some.inj hstep
    exact hquiet rfl rfl rfl (by split <;> rfl)
  | endStore | timeoutStore | limitStore | noteDropped =>
    obtain rfl := Option.some.inj hstep
    exact hquiet rfl rfl rfl rfl
  | get =>
    simp only [CaptureWorker.step, Option.ite_none_right_eq_some] at hstep
    obtain ⟨-, hstep⟩ := hstep
    split at hstep <;> obtain rfl := Option.some.inj hstep
    · next f hgot =>
      obtain ⟨deltaDVTime, oldDVTime, dvTime, first, last, heq⟩ := t.noteDVTime_eq env f
      rw [heq]
      exact hquiet rfl rfl rfl rfl
    · exact hquiet rfl rfl rfl rfl
    · exact hquiet rfl rfl rfl rfl
  | test f drops =>
    simp only [CaptureWorker.step] at hstep
    split at hstep <;> obtain rfl := Option.some.inj hstep
    · next hcap =>
      have hyes : (t.dequeue f drops).state.captures = true := by
        simp [CapturingThread.dequeue, hcap, CDVState.captures]
      exact .tells (t.dequeue f drops) rfl (by simp [WorkerPC.unwritten, hyes]) rfl rfl (by simp)
    · exact hquiet rfl rfl rfl rfl
  | testFinalizing f drops =>
    simp only [CaptureWorker.step] at hstep
    split at hstep <;> obtain rfl := Option.some.inj hstep
    · next hfin =>
      have hyes : (t.dequeue f drops).state.captures = true := by
        simp [CapturingThread.dequeue, hfin, CDVState.captures]
      exact .tells (t.dequeue f drops) rfl (by simp [WorkerPC.unwritten, hyes]) rfl rfl (by simp)
    · next hfin =>
      have hno : (skipped t f drops).state.captures = false := skipped_captures hfin
      exact .tells (skipped t f drops) rfl (by simp [WorkerPC.unwritten, hno]) rfl rfl (by simp)
  | split d =>
    obtain rfl := Option.some.inj hstep
    exact moves_goOn (fun _ => CapturingThread.contents_splitFile) rfl (by simp)
  | openFile d =>
    obtain rfl := Option.some.inj hstep
    exact moves_openWriter
  | write d =>
    obtain rfl := Option.some.inj hstep
    exact moves_writeFrame (hopened d rfl)
  | count d =>
    obtain rfl := Option.some.inj hstep
    exact hquiet (CapturingThread.contents_countUp t d) rfl rfl (by split <;> rfl)
  | pauseClose | exitClose =>
    obtain rfl := Option.some.inj hstep
    exact moves_goOn (fun _ => CapturingThread.contents_closeWriter) rfl (by simp)
  | pauseReset =>
    obtain rfl := Option.some.inj hstep
    rw [t.resetCounters_eq]
    exact hquiet rfl rfl rfl rfl
  | verify =>
    obtain rfl := Option.some.inj hstep
    obtain ⟨phase, last, capStats, log, heq⟩ := t.verifyAndLog_eq env
    rw [heq]
    exact hquiet rfl rfl rfl rfl
  | returned => cases hstep
  | escaped => cases hstep

theorem pc_ne_of_step {r : Round} (hstep : w.step env r = some w') : w.pc ≠ .escaped := by
  intro hpc
  obtain ⟨t, pc⟩ := w
  obtain rfl : pc = .escaped := hpc
  cases hstep

/-- The dialog leaves the thread where it is, with its frames and files. -/
structure Untouched (w w' : CaptureWorker) : Prop where
  pc : w'.pc = w.pc
  dequeued : w'.dequeued = w.dequeued
  contents : w'.contents = w.contents
  aviWriter : w'.aviWriter = w.aviWriter

/-- No frame that was captured is in two places, and none in a file was not captured;
where every frame is to be written, none is missing. -/
structure Filed (env : CaptureEnv) (w : CaptureWorker) : Prop where
  once : (w.filed ++ w.pc.unwritten).Sublist w.chosen
  all : env.everyNth = 1 → w.pc ≠ .escaped → w.filed ++ w.pc.unwritten = w.chosen
  opened : ∀ d, w.pc = .write d → w.aviWriter ≠ none

theorem Filed.keeps (h : Filed env w) (hfiled : w'.filed = w.filed)
    (hchosen : w'.chosen = w.chosen) (hpc : w'.pc.unwritten = w.pc.unwritten)
    (hin : w'.pc ≠ .escaped → w.pc ≠ .escaped) (hopened : ∀ d, w'.pc = .write d → w'.aviWriter ≠ none) :
    Filed env w' := by
  refine ⟨?_, fun hone hne => ?_, hopened⟩
  · rw [hfiled, hchosen, hpc]
    exact h.once
  · rw [hfiled, hchosen, hpc]
    exact h.all hone (hin hne)

theorem Filed.untouched (h : Filed env w) (hw : Untouched w w') : Filed env w' := by
  apply h.keeps (CapturingThread.filed_of_contents hw.contents)
    (CapturingThread.chosen_of_dequeued hw.dequeued)
  · rw [hw.pc]
  · rw [hw.pc]
    exact id
  · intro d hd
    rw [hw.aviWriter]
    exact h.opened d (hw.pc ▸ hd)

theorem Filed.moves (h : Filed env w) {r : Round} (hin : w.pc ≠ .escaped) (hmoves : Moves env r w w') :
    Filed env w' := by
  cases hmoves with
  | quiet hcontents hdequeued hpc hwrite =>
    exact h.keeps (CapturingThread.filed_of_contents hcontents)
      (CapturingThread.chosen_of_dequeued hdequeued) hpc (fun _ => hin) fun d hd => absurd hd (hwrite d)
  | escapes hcontents hdequeued hpc =>
    have hopened : ∀ d, w'.pc = .write d → w'.aviWriter ≠ none := fun d hd => by simp [hpc] at hd
    refine ⟨?_, fun _ hne => absurd hpc hne, hopened⟩
    rw [CapturingThread.filed_of_contents hcontents, CapturingThread.chosen_of_dequeued hdequeued, hpc]
    exact ((List.nil_sublist _).append_left w.filed).trans h.once
  | tells d hpc hpc' hcontents hdequeued hwrite =>
    have hchosen : w'.chosen = w.chosen ++ [d].filter (·.state.captures) := by
      rw [CapturingThread.chosen, hdequeued, List.filter_append, CapturingThread.chosen]
    have honce := h.once
    have hall := h.all
    rw [hpc, List.append_nil] at honce hall
    refine ⟨?_, fun hone _ => ?_, fun d hd => absurd hd (hwrite d)⟩
    · rw [hpc', hchosen, CapturingThread.filed_of_contents hcontents]
      exact honce.append (List.Sublist.refl _)
    · rw [hpc', hchosen, CapturingThread.filed_of_contents hcontents, hall hone hin]
  | opens d hpc hpc' hopen hcontents hdequeued =>
    have hfiled : w'.filed = w.filed := by
      rcases hcontents with hcontents | hcontents
      · exact CapturingThread.filed_of_contents hcontents
      · rw [CapturingThread.filed, hcontents, List.flatMap_append]
        exact List.append_nil _
    apply h.keeps hfiled (CapturingThread.chosen_of_dequeued hdequeued) _ (fun _ => hin) fun _ _ => hopen
    rw [hpc, hpc']
    rfl
  | passes d hpc hpc' hnth hcontents hdequeued =>
    refine ⟨?_, fun hone => absurd hone hnth, fun d hd => by simp [hpc'] at hd⟩
    rw [CapturingThread.filed_of_contents hcontents, CapturingThread.chosen_of_dequeued hdequeued, hpc']
    exact ((List.nil_sublist _).append_left w.filed).trans h.once
  | writes d hpc hpc' before handed data data' hold hnew hdelivered hdequeued =>
    have hfiled : w'.filed ++ w'.pc.unwritten = w.filed ++ w.pc.unwritten := by
      rw [CapturingThread.filed, hnew, CapturingThread.filed, hold, hpc, hpc']
      simp [WorkerPC.unwritten]
    refine ⟨?_, fun hone _ => ?_, fun d hd => by simp [hpc'] at hd⟩
    · rw [hfiled, CapturingThread.chosen_of_dequeued hdequeued]
      exact h.once
    · rw [hfiled, CapturingThread.chosen_of_dequeued hdequeued]
      exact h.all hone hin

/-- The mux got the data of every frame that a writer was handed. -/
def Delivered (w : CaptureWorker) : Prop := ∀ c ∈ w.contents, c.2 = c.1.map (·.frame.data)

theorem Delivered.moves (h : Delivered w) {r : Round} (hr : r.calls.delivery = .delivered)
    (hmoves : Moves env r w w') : Delivered w' := by
  cases hmoves with
  | quiet hcontents | escapes hcontents | tells _ _ _ hcontents | passes _ _ _ _ hcontents =>
    rw [Delivered, hcontents]
    exact h
  | opens d hpc hpc' hopen hcontents hdequeued =>
    rw [Delivered]
    rcases hcontents with hcontents | hcontents
    · rw [hcontents]
      exact h
    · rw [hcontents, List.forall_mem_append]
      exact ⟨h, List.forall_mem_singleton.mpr rfl⟩
  | writes d hpc hpc' before handed data data' hold hnew hdelivered hdequeued =>
    rw [Delivered, hold, List.forall_mem_append, List.forall_mem_singleton] at h
    obtain ⟨hbefore, hlast⟩ := h
    have hdata : data' = (handed ++ [d]).map (·.frame.data) := by
      rw [hdelivered hr, show data = handed.map (·.frame.data) from hlast, List.map_append,
        List.map_singleton]
    rw [Delivered, hnew, List.forall_mem_append, List.forall_mem_singleton]
    exact ⟨hbefore, hdata⟩

/-- Until the next call of `Get` the thread stays with the frame that it has. -/
structure Stays (w w' : CaptureWorker) : Prop where
  taken : w'.dequeued.map (·.frame) ++ w'.pc.inHand = w.dequeued.map (·.frame) ++ w.pc.inHand
  reading : ∀ f ∈ w'.pc.reading, f ∈ w.pc.reading

theorem stays_of_dequeued {t t' : CapturingThread} {pc pc' : WorkerPC}
    (hdequeued : t'.dequeued = t.dequeued) (hpc : pc'.inHand = pc.inHand)
    (hreading : ∀ f ∈ pc'.reading, f ∈ pc.reading) : Stays ⟨t, pc⟩ ⟨t', pc'⟩ := by
  refine ⟨?_, hreading⟩
  rw [hdequeued, hpc]

theorem stays_of_take {t : CapturingThread} {pc pc' : WorkerPC} {d : DequeuedFrame}
    (hpc : pc.inHand = [d.frame]) (hpc' : pc'.inHand = [])
    (hreading : ∀ f ∈ pc'.reading, f = d.frame) : Stays ⟨t, pc⟩ ⟨take t d, pc'⟩ := by
  refine ⟨?_, fun f hf => ?_⟩
  · rw [hpc, hpc', List.append_nil]
    exact List.map_append
  · rw [WorkerPC.reading, hpc, hreading f hf]
    exact List.mem_cons_self

theorem stays_goOn {t : CapturingThread} {pc next : WorkerPC}
    {x : Except CapturingThread CapturingThread}
    (hx : ∀ t', x = .ok t' ∨ x = .error t' → t'.dequeued = t.dequeued) (hpc : pc.inHand = [])
    (hnext : next.inHand = []) (hreading : ∀ f ∈ next.reading, f ∈ pc.reading) :
    Stays ⟨t, pc⟩ (goOn x next) := by
  cases x with
  | ok t' => exact stays_of_dequeued (hx t' (.inl rfl)) (hnext.trans hpc.symm) hreading
  | error t' => exact stays_of_dequeued (hx t' (.inr rfl)) hpc.symm fun f hf => by cases hf

theorem dequeued_openWriter {t t' : CapturingThread} {created : Option Path}
    (h : t.openWriter env created = .ok t' ∨ t.openWriter env created = .error t') :
    t'.dequeued = t.dequeued := by
  rcases h with h | h
  · exact (CapturingThread.contents_openWriter h).2
  · rw [CapturingThread.openWriter_eq_error h]

theorem dequeued_writeFrame {t t' : CapturingThread} {d : DequeuedFrame} {o : Delivery}
    (h : t.writeFrame env d o = .ok t' ∨ t.writeFrame env d o = .error t') :
    t'.dequeued = t.dequeued := by
  rcases h with h | h
  · rcases CapturingThread.writeFrame_eq_ok h with ⟨-, rfl⟩ | ⟨v, v', -, -, -, rfl⟩ <;> rfl
  · rw [CapturingThread.writeFrame_eq_error h]

theorem stays_of_step {r : Round} (hpc : w.pc ≠ .get) (hstep : w.step env r = some w') :
    Stays w w' := by
  have hnone (f : Frame) {p : Prop} (hf : f ∈ ([] : List Frame)) : p := absurd hf List.not_mem_nil
  obtain ⟨t, pc⟩ := w
  cases pc with
  | get => exact absurd rfl hpc
  | top | endTest | timeoutTest | count d =>
    obtain rfl := Option.some.inj hstep
    exact stays_of_dequeued rfl (by split <;> rfl) (by split <;> exact fun f hf => hnone f hf)
  | endStore | timeoutStore | limitStore | noteDropped =>
    obtain rfl := Option.some.inj hstep
    exact stays_of_dequeued rfl rfl fun f hf => hnone f hf
  | test f drops =>
    simp only [CaptureWorker.step] at hstep
    split at hstep <;> obtain rfl := Option.some.inj hstep
    · exact stays_of_take rfl rfl fun g hg => List.mem_singleton.mp hg
    · exact stays_of_dequeued rfl rfl fun g hg => hg
  | testFinalizing f drops =>
    simp only [CaptureWorker.step] at hstep
    split at hstep <;> obtain rfl := Option.some.inj hstep
    · exact stays_of_take rfl rfl fun g hg => List.mem_singleton.mp hg
    · exact stays_of_take rfl rfl fun g hg => hnone g hg
  | split d =>
    obtain rfl := Option.some.inj hstep
    exact stays_goOn (fun _ hx => (CapturingThread.contents_splitFile hx).2) rfl rfl fun g hg => hg
  | openFile d =>
    obtain rfl := Option.some.inj hstep
    exact stays_goOn (fun _ => dequeued_openWriter) rfl rfl fun g hg => hg
  | write d =>
    obtain rfl := Option.some.inj hstep
    exact stays_goOn (fun _ => dequeued_writeFrame) rfl rfl fun g hg => hnone g hg
  | pauseClose | exitClose =>
    obtain rfl := Option.some.inj hstep
    exact stays_goOn (fun _ hx => (CapturingThread.contents_closeWriter hx).2) rfl rfl
      fun g hg => hnone g hg
  | pauseReset =>
    obtain rfl := Option.some.inj hstep
    rw [t.resetCounters_eq]
    exact stays_of_dequeued rfl rfl fun g hg => hnone g hg
  | verify =>
    obtain rfl := Option.some.inj hstep
    obtain ⟨phase, last, capStats, log, heq⟩ := t.verifyAndLog_eq env
    rw [heq]
    exact stays_of_dequeued rfl rfl fun g hg => hnone g hg
  | returned => cases hstep
  | escaped => cases hstep

theorem step_got {f : Frame} {calls : Calls} (hpc : w.pc = .get)
    (hstep : w.step env ⟨.frame f, calls⟩ = some w') :
    w'.dequeued = w.dequeued ∧ w'.pc = .test f calls.droppedFrames := by
  obtain ⟨t, pc⟩ := w
  obtain rfl : pc = .get := hpc
  simp only [step, Option.ite_none_right_eq_some, Option.some.injEq] at hstep
  obtain ⟨-, rfl⟩ := hstep
  obtain ⟨deltaDVTime, oldDVTime, dvTime, first, last, heq⟩ := t.noteDVTime_eq env f
  rw [heq]
  exact ⟨rfl, rfl⟩

end CaptureWorker

namespace CaptureThreads

/-- Where the threads stand to each other: the worker noted the frames that the queue
returned but for one in hand, it is in the queue's methods only while it gets the next, and
the slot that it reads still holds its frame. -/
structure Linked (queueSize dataSize : Nat) (s : CaptureThreads) : Prop where
  fifo : QueueThreads.BoundedFifo queueSize dataSize s.queue
  taken : s.live.worker.dequeued.map (·.frame) ++ s.live.worker.pc.inHand = s.queue.returned
  outside : s.live.worker.pc ≠ .get → ¬ Calling s.queue.consumer
  borrowed : ∀ f ∈ s.live.worker.pc.reading,
    ∃ b, QueueThreads.Borrowed s.buffer b s.queue ∧ b.frame = f

variable {env : CaptureEnv} {queueSize dataSize : Nat} {s t : CaptureThreads}

theorem source_keeps {q q' : QueueThreads} {b : QueueAction} (hb : OfSource b)
    (hq : q.step b = some q') : q'.returned = q.returned ∧ q'.consumer = q.consumer := by
  have hsteps := QueueThreads.steps_of_step hq
  cases hsteps
  case getCalled | gotFrame | sawEmpty | getSawEnd | getSawOpen | getWoken | workerEnded => exact hb.elim
  case workerSawOpen | workerLost | workerLoops | timedOut => exact hb.elim
  all_goals exact ⟨rfl, rfl⟩

theorem keepsFrame_of_source {b : QueueAction} (hb : OfSource b) : QueueThreads.KeepsFrame b := by
  rintro v rfl
  exact hb

/-- What the worker is about to copy is what it was handed. -/
theorem Linked.rereading_eq (h : Linked queueSize dataSize s) : s.rereading = s.live.worker := by
  unfold rereading
  split
  · next d hpc =>
    obtain ⟨b, hborrowed, hframe⟩ := h.borrowed d.frame (by
      rw [hpc]
      exact List.mem_singleton_self _)
    have hd : s.reread d = d := by
      have hdata : b.data.take d.frame.data.length = d.frame.data := by
        rw [← hframe, Buffer.frame, List.length_take, List.take_eq_take_iff]
        omega
      rw [reread, hborrowed.kept, hdata]
    rw [hd, ← hpc]
  · rfl

theorem untouched_call (w : CaptureWorker) (k : Command) :
    CaptureWorker.Untouched w (LiveCapture.call w k).worker := by
  cases k <;> exact ⟨rfl, rfl, rfl, rfl⟩

theorem untouched_uiStep {l l' : LiveCapture} (h : l.uiStep = some l') :
    CaptureWorker.Untouched l.worker l'.worker := by
  unfold LiveCapture.uiStep at h
  split at h
  case h_1 | h_10 => cases h
  case h_8 | h_9 =>
    dsimp only at h
    split at h
    · obtain rfl := Option.some.inj h
      exact ⟨rfl, rfl, rfl, rfl⟩
    · cases h
  all_goals
    obtain rfl := Option.some.inj h
    exact ⟨rfl, rfl, rfl, rfl⟩

theorem Linked.dialog (h : Linked queueSize dataSize s) {l : LiveCapture}
    (hl : CaptureWorker.Untouched s.live.worker l.worker) : Linked queueSize dataSize { s with live := l } := by
  refine ⟨h.fifo, ?_, fun hpc => h.outside (hl.pc ▸ hpc), fun f hf => h.borrowed f (hl.pc ▸ hf)⟩
  rw [hl.dequeued, hl.pc]
  exact h.taken

theorem Linked.source (h : Linked queueSize dataSize s) {b : QueueAction} {q : QueueThreads}
    (hb : OfSource b) (hq : s.queue.step b = some q) : Linked queueSize dataSize (s.withQueue q) := by
  obtain ⟨hreturned, hconsumer⟩ := source_keeps hb hq
  refine ⟨h.fifo.step (QueueThreads.steps_of_step hq), h.taken.trans hreturned.symm, fun hpc => ?_,
    fun f hf => ?_⟩
  · show ¬ Calling q.consumer
    rw [hconsumer]
    exact h.outside hpc
  · obtain ⟨x, hborrowed, hframe⟩ := h.borrowed f hf
    exact ⟨x, hborrowed.step (keepsFrame_of_source hb) (QueueThreads.anyStep_of_step hq), hframe⟩

theorem Linked.got (h : Linked queueSize dataSize s) {calls : Calls} {v : GetVariant} {q : CDVQueue}
    {w : CaptureWorker} (hpc : s.live.worker.pc = .get) (hc : s.queue.consumer = .locking v)
    (hq : s.queue.q.getLocked = some (s.queue.q.head, q))
    (hw : s.live.worker.step env
      ⟨.frame (s.queue.q.queue s.queue.q.head).frame, calls⟩ = some w) :
    Linked queueSize dataSize { s with
      queue := { s.queue with
        q := q, consumer := .outside
        returned := s.queue.returned ++ [(s.queue.q.queue s.queue.q.head).frame] }
      live := { s.live with worker := w }
      buffer := s.queue.q.head } := by
  have hstep : s.queue.anyStep (.consumer true) = some { s.queue with
      q := q, consumer := .outside
      returned := s.queue.returned ++ [(s.queue.q.queue s.queue.q.head).frame] } := by
    simp [QueueThreads.anyStep, QueueThreads.step, QueueThreads.consumerStep, hc, hq]
  have hborrowed := QueueThreads.borrowed_of_got h.fifo.valid hc hq hstep
  obtain ⟨hdequeued, hpc'⟩ := CaptureWorker.step_got hpc hw
  refine ⟨h.fifo.gotFrame hq, ?_, fun _ => id, fun f hf => ?_⟩
  · have htaken : s.live.worker.dequeued.map (·.frame) ++ [] = s.queue.returned := by
      rw [← h.taken, hpc]
      rfl
    rw [List.append_nil] at htaken
    rw [hdequeued, hpc', htaken]
    rfl
  · rw [hpc'] at hf
    obtain rfl := List.mem_singleton.mp hf
    exact ⟨_, hborrowed, rfl⟩

theorem concludes_pc {consumer : ConsumerPc} {pc : WorkerPC} (h : Concludes consumer pc) :
    pc.inHand = [] ∧ pc.reading = [] ∧ pc.unwritten = [] ∧ (∀ d, pc ≠ .write d) ∧
      ¬ Calling consumer := by
  cases h <;> exact ⟨rfl, rfl, rfl, by simp, id⟩

theorem Linked.step (h : Linked queueSize dataSize s) {a : ThreadsAction} (hstep : Steps env s a t) :
    Linked queueSize dataSize t := by
  have hnone (hpc : s.live.worker.pc = .get) (f : Frame) : f ∉ s.live.worker.pc.reading := by
    rw [hpc]
    exact List.not_mem_nil
  cases hstep with
  | source a b q ha hb hfin hput hq => exact h.source hb hq
  | deviceEnded q q' hq hq' =>
    exact (h.source (b := .stopSource) trivial hq).source (b := .finalize) trivial hq'
  | expired q hq =>
    have hfifo := h.fifo.step (QueueThreads.steps_of_step hq)
    have hsteps := QueueThreads.steps_of_step hq
    cases hsteps with
    | timedOut hc he =>
      have hpc : s.live.worker.pc = .get := by
        by_contra hpc
        exact h.outside hpc (by rw [hc]; trivial)
      exact ⟨hfifo, h.taken, fun hne => absurd hpc hne, fun f hf => absurd hf (hnone hpc f)⟩
  | calling calls b q hpc hb hq hsame hcall =>
    exact ⟨h.fifo.step (QueueThreads.steps_of_step hq), h.taken.trans hsame.symm,
      fun hne => absurd hpc hne, fun f hf => absurd hf (hnone hpc f)⟩
  | gotFrame calls v c q w hpc hc hq hw => exact h.got hpc hc hq hw
  | concluded calls c q pc hpc hq hsame hafter =>
    obtain ⟨hin, hreading, -, -, hout⟩ := concludes_pc hafter
    refine ⟨h.fifo.step (QueueThreads.steps_of_step hq), ?_, fun _ => hout, fun f hf => ?_⟩
    · have htaken := h.taken
      rw [hpc] at htaken
      show s.live.worker.dequeued.map (·.frame) ++ pc.inHand = q.returned
      rw [hsame, ← htaken, hin]
      rfl
    · have hf : f ∈ pc.reading := hf
      rw [hreading] at hf
      cases hf
  | worked calls w hpc hw =>
    rw [h.rereading_eq] at hw
    have hstays := CaptureWorker.stays_of_step hpc hw
    exact ⟨h.fifo, hstays.taken.trans h.taken, fun _ => h.outside hpc,
      fun f hf => h.borrowed f (hstays.reading f hf)⟩
  | called k hui => exact h.dialog (untouched_call _ k)
  | dialog l hl hwait => exact h.dialog (untouched_uiStep hl)

theorem start_linked (env : CaptureEnv) (c : CDV) (drops : Int32) (queueSize dataSize : Nat)
    (memory : Nat → Buffer) :
    Linked queueSize dataSize (start env c drops queueSize dataSize memory) := by
  refine ⟨QueueThreads.start_boundedFifo _ _ _, rfl, fun _ => id, fun f hf => ?_⟩
  cases hf

abbrev anyStep : CaptureThreads → ThreadsAction → Prop := fun _ _ => True

/-- The mux takes what it gets. -/
def Delivers : ThreadsAction → Prop
  | .worker calls => calls.delivery = .delivered
  | _ => True

instance : DecidablePred Delivers
  | .worker calls => inferInstanceAs (Decidable (calls.delivery = .delivered))
  | .put _ | .producer | .deviceEnds | .finalizer | .call _ | .ui | .timeout =>
    inferInstanceAs (Decidable True)

/-- Of the steps only those of the worker's own touch its frames and files. -/
theorem moves_of_steps (h : Linked queueSize dataSize s)
    (hopened : ∀ d, s.live.worker.pc = .write d → s.live.worker.aviWriter ≠ none)
    {a : ThreadsAction} (hstep : Steps env s a t) :
    CaptureWorker.Untouched s.live.worker t.live.worker ∨
      s.live.worker.pc ≠ .escaped ∧ ∃ r, (Delivers a → r.calls.delivery = .delivered) ∧
        CaptureWorker.Moves env r s.live.worker t.live.worker := by
  cases hstep with
  | source | deviceEnded | expired | calling => exact .inl ⟨rfl, rfl, rfl, rfl⟩
  | gotFrame calls v c q w hpc hc hq hw =>
    exact .inr ⟨CaptureWorker.pc_ne_of_step hw, _, id, CaptureWorker.moves_of_step hopened hw⟩
  | concluded calls c q pc hpc hq hsame hafter =>
    obtain ⟨-, -, hunwritten, hwrite, -⟩ := concludes_pc hafter
    refine .inr ⟨by simp [hpc], ⟨.timeout, calls⟩, id, .quiet rfl rfl ?_ hwrite⟩
    rw [hpc]
    exact hunwritten
  | worked calls w hpc hw =>
    rw [h.rereading_eq] at hw
    exact .inr ⟨CaptureWorker.pc_ne_of_step hw, _, id, CaptureWorker.moves_of_step hopened hw⟩
  | called k hui => exact .inl (untouched_call _ k)
  | dialog l hl hwait => exact .inl (untouched_uiStep hl)

structure Sound (env : CaptureEnv) (queueSize dataSize : Nat) (s : CaptureThreads) : Prop where
  linked : Linked queueSize dataSize s
  filed : CaptureWorker.Filed env s.live.worker

theorem Sound.step (h : Sound env queueSize dataSize s) {a : ThreadsAction}
    (hstep : s.step env a = some t) : Sound env queueSize dataSize t := by
  have hsteps := steps_of_step hstep
  refine ⟨h.linked.step hsteps, ?_⟩
  rcases moves_of_steps h.linked h.filed.opened hsteps with hw | ⟨hin, r, -, hmoves⟩
  · exact h.filed.untouched hw
  · exact h.filed.moves hin hmoves

theorem sound_of_run {captureFilename dtformat : CString} {ndigits : Int32} {last : AVICheckResult}
    {drops : Int32} {memory : Nat → Buffer} {acts : List ThreadsAction}
    {ok : CaptureThreads → ThreadsAction → Prop}
    (hrun : Run (step env) ok (start env (.buildCapturing captureFilename dtformat ndigits last)
      drops queueSize dataSize memory) acts s) : Sound env queueSize dataSize s := by
  apply hrun.invariant
  · exact fun _ _ _ h _ hstep => h.step hstep
  · refine ⟨start_linked _ _ _ _ _ _, List.Sublist.refl _, fun _ _ => rfl, fun d hd => ?_⟩
    cases hd

theorem Sound.taken (h : Sound env queueSize dataSize s) :
    s.live.worker.dequeued.map (·.frame) <+: s.queue.accepted.map (·.clamp dataSize) := by
  have hreturned : s.queue.returned <+: s.queue.accepted.map (·.clamp dataSize) := by
    rw [h.linked.fifo.order]
    exact List.prefix_append _ _
  rw [← h.linked.taken] at hreturned
  exact (List.prefix_append _ _).trans hreturned

/-- Where the deliveries succeed, the mux gets the data of what the writers are handed. -/
theorem delivered_of_run {captureFilename dtformat : CString} {ndigits : Int32} {last : AVICheckResult}
    {drops : Int32} {memory : Nat → Buffer} {acts : List ThreadsAction}
    {ok : CaptureThreads → ThreadsAction → Prop}
    (hrun : Run (step env) ok (start env (.buildCapturing captureFilename dtformat ndigits last)
      drops queueSize dataSize memory) acts s) (hall : ∀ a ∈ acts, Delivers a) :
    CaptureWorker.Delivered s.live.worker := by
  have hboth : Sound env queueSize dataSize s ∧ CaptureWorker.Delivered s.live.worker := by
    apply (hrun.restrict hall).invariant
    · intro t a u h hok hstep
      refine ⟨h.1.step hstep, ?_⟩
      rcases moves_of_steps h.1.linked h.1.filed.opened (steps_of_step hstep) with
        hw | ⟨-, r, hr, hmoves⟩
      · rw [CaptureWorker.Delivered, hw.contents]
        exact h.2
      · exact h.2.moves (hr hok.2) hmoves
    · exact ⟨sound_of_run (.nil _ : Run (step env) anyStep _ _ _), fun c hc => by cases hc⟩
  exact hboth.2

/-- However the device, the worker thread and the dialog interleave and whatever calls
fail: the worker takes the frames that the queue accepted, in order and with the bytes
that fit a slot; those that it captures are handed to the writers of its files in this
order and at most once, all of them where every frame is written and nothing was thrown;
the mux gets their data where the deliveries succeed; and the slots are those of a block
of memory where its size does not wrap. -/
theorem frames_filed_in_order (env : CaptureEnv) (captureFilename dtformat : CString)
    (ndigits : Int32) (last : AVICheckResult) (drops : Int32) (queueSize dataSize : Nat)
    (memory : Nat → Buffer) (acts : List ThreadsAction) (s : CaptureThreads)
    (hrun : Run (step env) anyStep (start env (.buildCapturing captureFilename dtformat ndigits last)
      drops queueSize dataSize memory) acts s) :
    s.live.worker.dequeued.map (·.frame) <+: s.queue.accepted.map (·.clamp dataSize) ∧
      s.live.worker.filed.Sublist s.live.worker.chosen ∧
      (env.everyNth = 1 → s.live.worker.pc ≠ .escaped →
        s.live.worker.filed ++ s.live.worker.pc.unwritten = s.live.worker.chosen) ∧
      ((∀ a ∈ acts, Delivers a) →
        ∀ c ∈ s.live.worker.contents, c.2 = c.1.map (·.frame.data)) ∧
      ((∀ a ∈ acts, Timely a) → InBlock queueSize dataSize memory s) := by
  have hs := sound_of_run hrun
  exact ⟨hs.taken, (List.sublist_append_left _ _).trans hs.filed.once, hs.filed.all,
    delivered_of_run hrun, inBlock_of_run hrun⟩

/-- A frame of three bytes for slots of two. -/
def longFrame (x y : UInt8) : List ThreadsAction := [.put ⟨400000, [x, y, 9]⟩, .producer, .producer]

def workerSteps (n : Nat) : List ThreadsAction := List.replicate n (.worker CaptureLoop.plainCalls)

/-- One frame is taken before the capture starts and one is in the queue by then. -/
def startedLate : List ThreadsAction :=
  longFrame 1 2 ++ workerSteps 8 ++ longFrame 3 4 ++
    [.call (.start ⟨"C:\\tape.avi".toList, [], 0, 0⟩), .ui, .ui]

/-- Another frame comes before End Capture. -/
def endedCapture : List ThreadsAction :=
  workerSteps 10 ++ longFrame 5 6 ++
    [.call .finalize, .ui, .ui, .ui, .ui, .finalizer, .finalizer, .finalizer] ++ workerSteps 17

def quietCamera : CaptureThreads :=
  start (CaptureLoop.shortFrameEnv 10) (.buildCapturing [] [] 0 {}) 0 2 2 fun _ => ⟨0, 0, []⟩

theorem frames_filed_two : ∃ s : CaptureThreads,
    Run (step (CaptureLoop.shortFrameEnv 10)) anyStep quietCamera (startedLate ++ endedCapture) s ∧
      s.live.worker.filed.map (·.frame.data) = [[3, 4], [5, 6]] ∧
      s.live.worker.filed ++ s.live.worker.pc.unwritten = s.live.worker.chosen ∧
      ∀ c ∈ s.live.worker.contents, c.2 = c.1.map (·.frame.data) := by
  have hreturned : (exec (step (CaptureLoop.shortFrameEnv 10)) anyStep quietCamera
      (startedLate ++ endedCapture)).any (fun s => s.live.worker.pc = .returned ∧
        s.live.worker.filed.map (·.frame.data) = [[3, 4], [5, 6]]) = true := by decide +kernel
  obtain ⟨s, hs, hfiled⟩ := (Option.any_eq_true _ _).mp hreturned
  obtain ⟨hpc, hfiled⟩ := of_decide_eq_true hfiled
  have hrun := run_of_exec hs
  obtain ⟨-, -, hall, hdata, -⟩ := frames_filed_in_order _ _ _ _ _ _ _ _ _ _ _ hrun
  exact ⟨s, hrun, hfiled, hall rfl (by simp [hpc]), hdata (by decide)⟩

end CaptureThreads

end WinDV
