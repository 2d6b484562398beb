import WinDV.EachFile
import WinDV.OutputGraph
import WinDV.RecordingThread

/-! The presentation times of every file of a capture, and of what is recorded
to the device: each graph gets its own times, from 0 and without gaps. -/

namespace WinDV

def Sample.media (s : Sample) : MediaSample := ⟨some (Int64.ofInt s.start, Int64.ofInt s.stop), s.data⟩

/-- The calls hand over the frames, one for one. -/
def Gives (calls : List FrameCall) (frames : List Frame) : Prop :=
  calls.map (fun c => (c.duration, c.data)) =
    frames.map fun f => (Int64.ofInt f.duration, some f.data)

/-- A frame with a duration of `Receive`, as it comes out of the queue. -/
def Frame.Received (f : Frame) : Prop := ∃ d : Int64, Forwarded d ∧ f.duration = d.toInt

theorem Frame.Received.forwarded {f : Frame} (h : f.Received) :
    Forwarded (Int64.ofInt f.duration) := by
  obtain ⟨d, hd, heq⟩ := h
  rw [heq, Int64.ofInt_toInt]
  exact hd

/-- The ranges of the samples are intervals of the given lengths, end to end. -/
structure Tiles (ds : List Int) (times : List (Option (Int × Int))) : Prop where
  length_eq : times.length = ds.length
  kth : ∀ k d, ds[k]? = some d → times[k]? = some (some ((ds.take k).sum, (ds.take k).sum + d))
  gapless : times.IsChain fun x y => ∃ a b c, x = some (a, b) ∧ y = some (b, c)
  increasing : times.Pairwise fun x y =>
    ∃ a b c d, x = some (a, b) ∧ y = some (c, d) ∧ a < c ∧ b < d

theorem tiles_of_intervals {ds : List Int} (hpos : ∀ d ∈ ds, 0 < d) :
    Tiles ds ((Tiling.intervals 0 ds).map some) where
  length_eq := by rw [List.length_map, Tiling.length_intervals]
  kth k d hd := by
    rw [List.getElem?_map, Tiling.getElem?_intervals, hd, zero_add]
    rfl
  gapless := by
    rw [List.isChain_map]
    exact (Tiling.isChain_intervals 0 ds).imp fun x y hxy => ⟨x.1, x.2, y.2, rfl, by rw [← hxy]⟩
  increasing := by
    rw [List.pairwise_map]
    exact (Tiling.pairwise_intervals 0 hpos).imp fun hxy => ⟨_, _, _, _, rfl, rfl, hxy⟩

theorem COutputGraph.tiles (calls : List FrameCall) (hregular : ∀ c ∈ calls, c.Regular)
    (hfew : (durations calls).length < 2 ^ 43) :
    ∃ g, handleFrames {} calls = some g ∧ Tiles (durations calls) (sampleTimes g) := by
  obtain ⟨g, hg, -, htimes⟩ := handleFrames_tile calls hregular hfew
  have hpos (d : Int) (hd : d ∈ durations calls) : 0 < d := by
    have := (mem_durations hregular hd).1
    omega
  exact ⟨g, hg, htimes ▸ tiles_of_intervals hpos⟩

theorem regular_of_gives {calls : List FrameCall} {frames : List Frame} (hgives : Gives calls frames)
    (hframes : ∀ f ∈ frames, f.Received) (hpackages : ∀ c ∈ calls, c.outcome.packages = true) :
    ∀ c ∈ calls, c.Regular := by
  refine fun c hc => ⟨fun _ => ?_, hpackages c hc⟩
  have hmem : (c.duration, c.data) ∈ calls.map fun c => (c.duration, c.data) :=
    List.mem_map_of_mem hc
  rw [hgives] at hmem
  obtain ⟨f, hf, heq⟩ := List.mem_map.mp hmem
  have hduration : Int64.ofInt f.duration = c.duration := congrArg Prod.fst heq
  rw [← hduration]
  exact (hframes f hf).forwarded

theorem durations_of_gives {calls : List FrameCall} {frames : List Frame} (hgives : Gives calls frames)
    (hframes : ∀ f ∈ frames, f.Received) : durations calls = frames.map (·.duration) := by
  induction calls generalizing frames with
  | nil =>
    obtain rfl := List.map_eq_nil_iff.mp hgives.symm
    rfl
  | cons c calls ih =>
    cases frames with
    | nil => cases hgives
    | cons f frames =>
      obtain ⟨hhead, hrest⟩ := List.cons_eq_cons.mp hgives
      obtain ⟨hduration, hdata⟩ := Prod.mk.inj hhead
      obtain ⟨d, -, hd⟩ := hframes f List.mem_cons_self
      have htail := ih hrest fun f' hf' => hframes f' (List.mem_cons_of_mem f hf')
      have hint : c.duration.toInt = f.duration := by
        rw [hduration, hd, Int64.ofInt_toInt]
      rw [durations, List.filter_cons_of_pos (by rw [hdata]; rfl), List.map_cons, List.map_cons, hint]
      exact congrArg (_ :: ·) htail

/-- The graph of a writer, as its clock and its delivered samples show it. -/
structure Represents (g : COutputGraph) (w : CAVIWriter) : Prop where
  time : g.time = Int64.ofInt w.time
  delivered : g.delivered = w.samples.map Sample.media

/-- `HandleFrame` of the writer is that of its graph. -/
theorem Represents.handleFrame {g : COutputGraph} {w w' : CAVIWriter} (h : Represents g w)
    {d : DequeuedFrame} (hd : d.frame.Received) {o : Delivery} (hhandle : w.handleFrame d o = some w') :
    ∃ g', g.handleFrame (Int64.ofInt d.frame.duration) (some d.frame.data) o = some g' ∧
      Represents g' w' := by
  have hnew : g.time + Int64.ofInt d.frame.duration = Int64.ofInt (w.time + d.frame.duration) := by
    rw [h.time, Int64.ofInt_add]
  simp only [COutputGraph.handleFrame, if_pos hd.forwarded.ne_zero]
  cases o with
  | noBuffer => cases hhandle
  | noPointer =>
    obtain rfl := Option.some.inj hhandle
    exact ⟨_, rfl, h.time, h.delivered⟩
  | deliverFailed =>
    obtain rfl := Option.some.inj hhandle
    exact ⟨_, rfl, hnew, h.delivered⟩
  | delivered =>
    obtain rfl := Option.some.inj hhandle
    refine ⟨_, rfl, hnew, ?_⟩
    simp only [h.delivered, List.map_append, List.map_singleton, Sample.media, h.time, Int64.ofInt_add]

/-- The file is written by a graph of its own, to which its frames were given. -/
def OwnGraph (w : CAVIWriter) : Prop :=
  (∀ d ∈ w.handed, d.frame.Received) ∧ ∃ calls g, Gives calls (w.handed.map (·.frame)) ∧
    (∀ c ∈ calls, c.outcome.packages = true) ∧ COutputGraph.handleFrames {} calls = some g ∧
    Represents g w

def ReceivedAndPackaged (f : Frame) (o : Delivery) : Prop := f.Received ∧ o.packages = true

theorem OwnGraph.of_eq {w w' : CAVIWriter} (h : OwnGraph w) (htime : w'.time = w.time)
    (hhanded : w'.handed = w.handed) (hsamples : w'.samples = w.samples) : OwnGraph w' := by
  obtain ⟨hreceived, calls, g, hgives, hpackages, hg, hrep⟩ := h
  refine ⟨hhanded ▸ hreceived, calls, g, hhanded ▸ hgives, hpackages, hg, ?_, ?_⟩
  · rw [htime, hrep.time]
  · rw [hsamples, hrep.delivered]

theorem ownGraph_invariant : WriterInvariant ReceivedAndPackaged OwnGraph where
  opened w _ htime hhanded hsamples _ := by
    refine ⟨by rw [hhanded]; exact nofun, [], {}, ?_, nofun, rfl, ?_, ?_⟩
    · rw [hhanded]
      rfl
    · rw [htime]
      rfl
    · rw [hsamples]
      rfl
  handled w d o w' h hok hhandle := by
    obtain ⟨hreceived, calls, g, hgives, hpackages, hg, hrep⟩ := h
    obtain ⟨g', hg', hrep'⟩ := hrep.handleFrame hok.1 hhandle
    have hhanded := (CAVIWriter.handleFrame_eq_some hhandle).2.1
    refine ⟨fun d' hd' => ?_, calls ++ [⟨Int64.ofInt d.frame.duration, some d.frame.data, o⟩], g', ?_,
      fun c hc => ?_, (COutputGraph.handleFrames_concat hg).trans hg', hrep'⟩
    · rw [hhanded] at hd'
      obtain hd' | hd' := List.mem_append.mp hd'
      · exact hreceived d' hd'
      · rw [List.mem_singleton.mp hd']
        exact hok.1
    · rw [Gives] at hgives ⊢
      rw [hhanded, List.map_append, List.map_append, List.map_append, hgives]
      rfl
    · obtain hc | hc := List.mem_append.mp hc
      · exact hpackages c hc
      · rw [List.mem_singleton.mp hc]
        exact hok.2
  finalized w o w' h hfinal := by
    obtain ⟨finalfile, endsOfStream, rfl⟩ := CAVIWriter.finalizeFile_eq hfinal
    exact h.of_eq rfl rfl rfl
  backfilled w x h := h.of_eq rfl rfl rfl

theorem OwnGraph.tiles {w : CAVIWriter} (h : OwnGraph w) (hfew : w.handed.length < 2 ^ 43) :
    ∃ calls g, Gives calls (w.handed.map (·.frame)) ∧ COutputGraph.handleFrames {} calls = some g ∧
      Represents g w ∧ Tiles (w.handed.map (·.frame.duration)) (sampleTimes g) := by
  obtain ⟨hreceived, calls, g, hgives, hpackages, hg, hrep⟩ := h
  have hframes (f : Frame) (hf : f ∈ w.handed.map (·.frame)) : f.Received := by
    obtain ⟨d, hd, rfl⟩ := List.mem_map.mp hf
    exact hreceived d hd
  have hdurations : durations calls = w.handed.map (·.frame.duration) := by
    rw [durations_of_gives hgives hframes, List.map_map]
    rfl
  have hregular := regular_of_gives hgives hframes hpackages
  obtain ⟨g', hg', htiles⟩ := COutputGraph.tiles calls hregular
    (by rw [hdurations, List.length_map]; exact hfew)
  obtain rfl := Option.some.inj (hg.symm.trans hg')
  exact ⟨calls, g, hgives, hg, hrep, hdurations ▸ htiles⟩

namespace RecordingThread

/-- Nothing is forwarded that the source did not put. -/
structure FromSource (source : List Frame) (s : RecordingThread) : Prop where
  incoming : ∀ f ∈ s.incoming, f ∈ source
  queue : ∀ f ∈ s.queue, f ∈ source
  current : ∀ a, s.current = some a → a.frame ∈ source
  forwarded : ∀ f ∈ s.forwarded, f ∈ source

theorem FromSource.takes {source : List Frame} {s : RecordingThread} (h : s.FromSource source)
    {f : Frame} {queue : List Frame} (hq : s.queue = f :: queue) :
    f ∈ source ∧ ∀ f' ∈ queue, f' ∈ source :=
  ⟨h.queue f (by rw [hq]; exact List.mem_cons_self),
    fun f' hf' => h.queue f' (by rw [hq]; exact List.mem_cons_of_mem f hf')⟩

theorem FromSource.step {source : List Frame} {s t : RecordingThread} {b : RecordingAction}
    (h : s.FromSource source) (hstep : Steps s b t) : t.FromSource source := by
  cases hstep with
  | queued f incoming hi he =>
    have hall : ∀ f' ∈ f :: incoming, f' ∈ source := hi ▸ h.incoming
    refine ⟨fun f' hf' => hall f' (List.mem_cons_of_mem f hf'), fun f' hf' => ?_, h.current,
      h.forwarded⟩
    obtain hf' | hf' := List.mem_append.mp hf'
    · exact h.queue f' hf'
    · rw [List.mem_singleton.mp hf']
      exact hall f List.mem_cons_self
  | discarded f incoming hi he =>
    have hall : ∀ f' ∈ f :: incoming, f' ∈ source := hi ▸ h.incoming
    exact ⟨fun f' hf' => hall f' (List.mem_cons_of_mem f hf'), h.queue, h.current, h.forwarded⟩
  | gotFirst f queue hp hq =>
    obtain ⟨hf, hrest⟩ := h.takes hq
    refine ⟨h.incoming, hrest, fun a ha => ?_, h.forwarded⟩
    rw [← Option.some.inj ha]
    exact hf
  | gotNext f queue hp hq =>
    obtain ⟨hf, hrest⟩ := h.takes hq
    refine ⟨h.incoming, hrest, fun a ha => ?_, h.forwarded⟩
    rw [← Option.some.inj ha]
    exact hf
  | frameForwarded a hp hc =>
    refine ⟨h.incoming, h.queue, h.current, fun f hf => ?_⟩
    obtain hf | hf := List.mem_append.mp hf
    · exact h.forwarded f hf
    · rw [List.mem_singleton.mp hf]
      exact h.current a hc
  | counted a hp hc hs =>
    refine ⟨h.incoming, h.queue, fun a' ha' => ?_, h.forwarded⟩
    rw [← Option.some.inj ha']
    exact h.current a hc
  | notCounted a hp hc hs =>
    refine ⟨h.incoming, h.queue, fun a' ha' => ?_, h.forwarded⟩
    rw [← Option.some.inj ha']
    exact h.current a hc
  | _ => exact ⟨h.incoming, h.queue, h.current, h.forwarded⟩

open Transition

theorem fromSource_of_run {source : List Frame} {acts : List RecordingAction} {s : RecordingThread}
    (hrun : Run RecordingThread.step (fun _ _ => True) (start source) acts s) :
    s.FromSource source :=
  hrun.invariant (fun _ _ _ h _ hstep => h.step (steps_of_step hstep))
    ⟨fun _ hf => hf, nofun, nofun, nofun⟩

end RecordingThread

open Transition

/-- The durations are forwarded in bounds, and the times of every output graph
tile: of one alone, of each file of a capture, and of the device output. -/
theorem presentation_times_tile :
    (∀ samples : List InputSample, ∀ x ∈ samples.filterMap InputSample.receive,
      300000 ≤ x.1.toInt ∧ x.1.toInt ≤ 450000) ∧
    (∀ calls : List FrameCall, (∀ c ∈ calls, c.Regular) → (durations calls).length < 2 ^ 43 →
      ∃ g, COutputGraph.handleFrames {} calls = some g ∧ Tiles (durations calls) (sampleTimes g)) ∧
    (∀ (env : CaptureEnv) captureFilename dtformat ndigits last drops acts t,
      Run (CaptureLoop.step env) (fun _ a => CaptureLoop.Handles ReceivedAndPackaged a)
        (CaptureLoop.start env (.buildCapturing captureFilename dtformat ndigits last) drops) acts t →
      ∀ w ∈ t.2.files, w.handed.length < 2 ^ 43 → ∃ calls g,
        Gives calls (w.handed.map (·.frame)) ∧ COutputGraph.handleFrames {} calls = some g ∧
          Represents g w ∧ Tiles (w.handed.map (·.frame.duration)) (sampleTimes g)) ∧
    ∀ (source : List Frame) acts s, (∀ f ∈ source, f.Received) →
      Run RecordingThread.step (fun _ _ => True) (.start source) acts s →
      ∀ calls, Gives calls s.forwarded → (∀ c ∈ calls, c.outcome.packages = true) →
        s.forwarded.length < 2 ^ 43 → ∃ g, COutputGraph.handleFrames {} calls = some g ∧
          Tiles (s.forwarded.map (·.duration)) (sampleTimes g) := by
  refine ⟨fun samples x hx => ?_, COutputGraph.tiles, ?_, ?_⟩
  · obtain ⟨s, -, hs⟩ := List.mem_filterMap.mp hx
    exact Forwarded.bounds ⟨s, x.2.1, x.2.2, hs⟩
  · intro env captureFilename dtformat ndigits last drops acts t hrun w hw hfew
    exact OwnGraph.tiles (CaptureLoop.eachFile_of_run ownGraph_invariant hrun nofun w hw) hfew
  · intro source acts s hsource hrun calls hgives hpackages hfew
    have hframes (f : Frame) (hf : f ∈ s.forwarded) : f.Received :=
      hsource f ((RecordingThread.fromSource_of_run hrun).forwarded f hf)
    have hdurations := durations_of_gives hgives hframes
    rw [← hdurations]
    exact COutputGraph.tiles calls (regular_of_gives hgives hframes hpackages)
      (by rw [hdurations, List.length_map]; exact hfew)

/-- A frame of a PAL sample without times, sent twice, and one with times; the
second `Deliver` fails. -/
def repeatedCalls : List FrameCall :=
  [⟨400000, some [1], .delivered⟩, ⟨400000, some [1], .deliverFailed⟩, ⟨333666, some [2], .delivered⟩]

theorem repeatedCalls_tile : ∃ g, COutputGraph.handleFrames {} repeatedCalls = some g ∧
    Tiles [400000, 400000, 333666] (sampleTimes g) ∧ g.delivered.map (·.data) = [[1], [2]] := by
  have hpal : Forwarded 400000 := ⟨⟨true, some [], 144000, none⟩, [], 144000, rfl⟩
  have hntsc : Forwarded 333666 := ⟨⟨true, some [], 0, some (-5, 333661)⟩, [], 0, rfl⟩
  have hregular : ∀ c ∈ repeatedCalls, c.Regular := by
    intro c hc
    simp only [repeatedCalls, List.mem_cons, List.not_mem_nil, or_false] at hc
    obtain rfl | rfl | rfl := hc
    · exact ⟨fun _ => hpal, rfl⟩
    · exact ⟨fun _ => hpal, rfl⟩
    · exact ⟨fun _ => hntsc, rfl⟩
  obtain ⟨g, hg, htiles⟩ := presentation_times_tile.2.1 repeatedCalls hregular (by decide)
  refine ⟨g, hg, htiles, ?_⟩
  rw [← Option.some.inj hg]
  decide

end WinDV
