import WinDV.CAVIWriter
import WinDV.Tiling
import Mathlib.Tactic.Linarith

/-! `CInputPin::Receive`, which sees to the duration of each frame, and the
presentation times that `COutputGraph::HandleFrame` makes of the durations. -/

namespace WinDV

/-- What the calls in `Receive` come to for one sample: whether the base class
takes it, the buffer, its length and the times, which `GetTime` may not give. -/
structure InputSample where
  taken : Bool
  pointer : Option (List UInt8)
  actualDataLength : Int32
  times : Option (Int64 × Int64)
  deriving DecidableEq

namespace InputSample

def timedDuration (s : InputSample) : Int64 :=
  match s.times with
  | some (startTime, endTime) => if endTime > startTime then endTime - startTime else 0
  | none => 0

def duration (s : InputSample) : Int64 :=
  if s.timedDuration < 300000 ∨ s.timedDuration > 450000 then
    if s.actualDataLength ≥ 144000 then 400000 else 333667
  else s.timedDuration

/-- `CInputPin::Receive`: what it calls the frame handler with, if it does. -/
def receive (s : InputSample) : Option (Int64 × List UInt8 × Int32) :=
  if s.taken then s.pointer.map fun ptr => (s.duration, ptr, s.actualDataLength) else none

theorem duration_bounds (s : InputSample) :
    300000 ≤ s.duration.toInt ∧ s.duration.toInt ≤ 450000 := by
  unfold duration
  by_cases hout : s.timedDuration < 300000 ∨ s.timedDuration > 450000
  · rw [if_pos hout]
    by_cases hlen : s.actualDataLength ≥ 144000
    · rw [if_pos hlen]
      decide
    · rw [if_neg hlen]
      decide
  · rw [if_neg hout]
    simp only [not_or, Int64.not_lt, gt_iff_lt, Int64.le_iff_toInt_le] at hout
    exact hout

end InputSample

/-- A duration that `Receive` forwards. -/
def Forwarded (duration : Int64) : Prop :=
  ∃ s : InputSample, ∃ ptr len, s.receive = some (duration, ptr, len)

theorem Forwarded.bounds {duration : Int64} (h : Forwarded duration) :
    300000 ≤ duration.toInt ∧ duration.toInt ≤ 450000 := by
  obtain ⟨s, ptr, len, hs⟩ := h
  unfold InputSample.receive at hs
  by_cases htaken : s.taken = true
  · rw [if_pos htaken, Option.map_eq_some_iff] at hs
    obtain ⟨p, -, hp⟩ := hs
    obtain rfl : s.duration = duration := congrArg Prod.fst hp
    exact s.duration_bounds
  · rw [if_neg htaken] at hs
    cases hs

theorem Forwarded.ne_zero {duration : Int64} (h : Forwarded duration) : duration ≠ 0 := by
  rintro rfl
  exact absurd h.bounds (by decide)

/-- An `IMediaSample` with the times set on it. -/
structure MediaSample where
  time : Option (Int64 × Int64)
  data : List UInt8
  deriving DecidableEq

/-- `packaged` are the samples that `Deliver` was called with, `delivered` those
it did not fail on. -/
structure COutputGraph where
  time : Int64 := 0
  packaged : List MediaSample := []
  delivered : List MediaSample := []
  deriving DecidableEq

/-- A call of `HandleFrame` and what the calls in it come to; there is no data
at the end of the stream. -/
structure FrameCall where
  duration : Int64
  data : Option (List UInt8)
  outcome : Delivery
  deriving DecidableEq

namespace COutputGraph

/-- `COutputGraph::HandleFrame`; `none` when it throws. -/
def handleFrame (g : COutputGraph) (duration : Int64) (data : Option (List UInt8)) (o : Delivery) :
    Option COutputGraph :=
  match data with
  | none => some g
  | some data =>
    let newTime := g.time + duration
    let sample : MediaSample := ⟨if duration ≠ 0 then some (g.time, newTime) else none, data⟩
    match o with
    | .noBuffer => none
    | .noPointer => some g
    | .deliverFailed => some { g with time := newTime, packaged := g.packaged ++ [sample] }
    | .delivered => some {
        time := newTime
        packaged := g.packaged ++ [sample]
        delivered := g.delivered ++ [sample] }

def handleFrames (g : COutputGraph) (calls : List FrameCall) : Option COutputGraph :=
  calls.foldlM (fun g c => g.handleFrame c.duration c.data c.outcome) g

theorem handleFrames_concat {g g' : COutputGraph} {calls : List FrameCall} {c : FrameCall}
    (h : g.handleFrames calls = some g') :
    g.handleFrames (calls ++ [c]) = g'.handleFrame c.duration c.data c.outcome := by
  rw [handleFrames] at h ⊢
  rw [List.foldlM_append, h]
  simp only [bind, Option.bind, List.foldlM_cons, List.foldlM_nil, pure]
  cases g'.handleFrame c.duration c.data c.outcome <;> rfl

end COutputGraph

def Delivery.packages (o : Delivery) : Bool := o == .deliverFailed || o == .delivered

/-- A frame with a duration of `Receive`, or the end of the stream, for which
`GetDeliveryBuffer` and `GetPointer` succeed. -/
structure FrameCall.Regular (c : FrameCall) : Prop where
  forwarded : c.data ≠ none → Forwarded c.duration
  packages : c.outcome.packages = true

/-- The durations of the frames, without the ends of the stream. -/
def durations (calls : List FrameCall) : List Int :=
  (calls.filter (·.data.isSome)).map (·.duration.toInt)

/-- The times of the samples, in unbounded arithmetic. -/
def sampleTimes (g : COutputGraph) : List (Option (Int × Int)) :=
  g.packaged.map fun s => s.time.map fun x => (x.1.toInt, x.2.toInt)

theorem sum_durations_bounds {ds : List Int} (h : ∀ d ∈ ds, 300000 ≤ d ∧ d ≤ 450000) :
    0 ≤ ds.sum ∧ ds.sum ≤ 450000 * ds.length := by
  induction ds with
  | nil => exact ⟨le_rfl, le_rfl⟩
  | cons d ds ih =>
    have hd := h d List.mem_cons_self
    have hrest := ih fun d' hd' => h d' (List.mem_cons_of_mem d hd')
    simp only [List.sum_cons, List.length_cons, Nat.cast_add, Nat.cast_one]
    omega

theorem mem_durations {calls : List FrameCall} (hregular : ∀ c ∈ calls, c.Regular) {d : Int}
    (hd : d ∈ durations calls) : 300000 ≤ d ∧ d ≤ 450000 := by
  obtain ⟨c, hc, rfl⟩ := List.mem_map.mp hd
  obtain ⟨hmem, hsome⟩ := List.mem_filter.mp hc
  exact ((hregular c hmem).forwarded (Option.isSome_iff_ne_none.mp hsome)).bounds

theorem toInt_add_small {a b : Int64} (h : -2 ^ 63 ≤ a.toInt + b.toInt)
    (h' : a.toInt + b.toInt < 2 ^ 63) : (a + b).toInt = a.toInt + b.toInt := by
  rw [Int64.toInt_add, Int.bmod_eq_of_le (by omega) (by omega)]

namespace COutputGraph

theorem handleFrame_packages {g : COutputGraph} {d : Int64} (hd : d ≠ 0) (data : List UInt8)
    {o : Delivery} (ho : o.packages = true) :
    ∃ delivered, g.handleFrame d (some data) o = some
      ⟨g.time + d, g.packaged ++ [⟨some (g.time, g.time + d), data⟩], delivered⟩ := by
  simp only [handleFrame, if_pos hd]
  cases o with
  | noBuffer => cases ho
  | noPointer => cases ho
  | deliverFailed => exact ⟨g.delivered, rfl⟩
  | delivered => exact ⟨_, rfl⟩

/-- With fewer than 2^43 frames the clock does not overflow. -/
theorem handleFrames_tile (calls : List FrameCall) (hregular : ∀ c ∈ calls, c.Regular)
    (hfew : (durations calls).length < 2 ^ 43) :
    ∃ g, handleFrames {} calls = some g ∧ g.time.toInt = (durations calls).sum ∧
      sampleTimes g = (Tiling.intervals 0 (durations calls)).map some := by
  induction calls using List.reverseRecOn with
  | nil => exact ⟨{}, rfl, rfl, rfl⟩
  | append_singleton calls c ih =>
    have hprev : ∀ c ∈ calls, c.Regular := fun c hc => hregular c (List.mem_append_left _ hc)
    have hc : c.Regular := hregular c (List.mem_append_right _ List.mem_cons_self)
    cases hdata : c.data with
    | none =>
      have hsame : durations (calls ++ [c]) = durations calls := by
        simp [durations, hdata]
      rw [hsame] at hfew ⊢
      obtain ⟨g, hg, htime, htimes⟩ := ih hprev hfew
      refine ⟨g, ?_, htime, htimes⟩
      rw [handleFrames_concat hg, hdata]
      rfl
    | some data =>
      have hmore : durations (calls ++ [c]) = durations calls ++ [c.duration.toInt] := by
        simp [durations, hdata]
      have hforwarded : Forwarded c.duration := hc.forwarded (by rw [hdata]; exact nofun)
      rw [hmore] at hfew ⊢
      rw [List.length_append, List.length_singleton] at hfew
      obtain ⟨g, hg, htime, htimes⟩ := ih hprev (by omega)
      obtain ⟨delivered, hhandle⟩ :=
        handleFrame_packages (g := g) hforwarded.ne_zero data hc.packages
      have hbounds := sum_durations_bounds fun d hd => mem_durations hprev hd
      have hd := hforwarded.bounds
      have hadd : (g.time + c.duration).toInt = (durations calls).sum + c.duration.toInt := by
        rw [← htime]
        exact toInt_add_small (by omega) (by omega)
      refine ⟨_, (handleFrames_concat hg).trans (by rw [hdata, hhandle]), ?_, ?_⟩
      · rw [List.sum_append, List.sum_singleton]
        exact hadd
      · rw [sampleTimes] at htimes ⊢
        rw [Tiling.intervals_concat, List.map_append, List.map_append, htimes, zero_add]
        simp [htime, hadd]

end COutputGraph

end WinDV
