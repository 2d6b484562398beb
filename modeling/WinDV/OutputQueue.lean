import Mathlib.Data.List.Basic

/-! `COutputQueue`, which `COutputPin` puts between `HandleFrame` and the DV
device: the locked sections of its methods, as they run when the queue has a
thread of its own. -/

namespace WinDV

/-- An entry of `m_List`. `NEW_SEGMENT` and the packet with its parameters are
added and removed under one lock; they are one entry here. -/
inductive QueuePacket (σ π : Type*)
  | sample (s : σ)
  | send
  | eos
  | reset
  | newSegment (p : π)
  deriving DecidableEq, Repr

namespace QueuePacket

variable {σ π : Type*}

@[simp] def sample? : QueuePacket σ π → Option σ
  | .sample s => some s
  | .send => none
  | .eos => none
  | .reset => none
  | .newSegment _ => none

/-- Samples and the end of the stream: what a failing pin downstream no longer gets. -/
@[simp] def isData : QueuePacket σ π → Bool
  | .sample _ => true
  | .send => false
  | .eos => true
  | .reset => false
  | .newSegment _ => false

/-- How many entries of `m_List` it is. -/
@[simp] def nodes : QueuePacket σ π → Nat
  | .sample _ => 1
  | .send => 1
  | .eos => 1
  | .reset => 1
  | .newSegment _ => 2

def ofSamples (samples : List σ) : List (QueuePacket σ π) := samples.map .sample

@[simp] theorem ofSamples_nil : (ofSamples [] : List (QueuePacket σ π)) = [] := rfl

@[simp] theorem ofSamples_append (l l' : List σ) :
    (ofSamples (l ++ l') : List (QueuePacket σ π)) = ofSamples l ++ ofSamples l' :=
  List.map_append

@[simp] theorem ofSamples_singleton (s : σ) :
    (ofSamples [s] : List (QueuePacket σ π)) = [.sample s] := rfl

@[simp] theorem filter_isData_ofSamples (l : List σ) :
    (ofSamples l : List (QueuePacket σ π)).filter isData = ofSamples l :=
  List.filter_eq_self.mpr fun p hp => by
    obtain ⟨s, -, rfl⟩ := List.mem_map.mp hp
    rfl

@[simp] theorem filterMap_sample?_ofSamples (l : List σ) :
    (ofSamples l : List (QueuePacket σ π)).filterMap sample? = l := by
  induction l with
  | nil => rfl
  | cons s l ih => exact congrArg (s :: ·) ih

end QueuePacket

/-- `samples` are the first `m_nBatched` entries of `m_ppSamples`. -/
structure COutputQueue (σ π : Type*) where
  lBatchSize : Nat
  bBatchExact : Bool
  bFlushingOpt : Bool
  list : List (QueuePacket σ π)
  samples : List σ
  hr : Int
  lWaiting : Nat
  hSem : Nat
  bFlushing : Bool
  bFlushed : Bool
  bTerminate : Bool
  evFlushComplete : Bool
  deriving DecidableEq, Repr

namespace COutputQueue

variable {σ π : Type*}

def S_OK : Int := 0

def S_FALSE : Int := 1

theorem S_FALSE_ne_S_OK : S_FALSE ≠ S_OK := by decide

def new (lBatchSize : Nat) (bBatchExact bFlushingOpt : Bool) : COutputQueue σ π where
  lBatchSize := lBatchSize
  bBatchExact := bBatchExact && decide (lBatchSize > 1)
  bFlushingOpt := bFlushingOpt
  list := []
  samples := []
  hr := S_OK
  lWaiting := 0
  hSem := 0
  bFlushing := false
  bFlushed := true
  bTerminate := false
  evFlushComplete := false

def getCount : List (QueuePacket σ π) → Nat
  | [] => 0
  | p :: list => p.nodes + getCount list

def notifyThread (q : COutputQueue σ π) : COutputQueue σ π :=
  if q.lWaiting ≠ 0 then { q with hSem := q.hSem + q.lWaiting, lWaiting := 0 } else q

def queueSample (q : COutputQueue σ π) (p : QueuePacket σ π) : COutputQueue σ π :=
  { q with list := q.list ++ [p] }

/-- The queued branch of `ReceiveMultiple`: the result, `nSamplesProcessed` and
the samples that it released. -/
def receiveMultiple (q : COutputQueue σ π) (ppSamples : List σ) :
    Int × Nat × List σ × COutputQueue σ π :=
  if q.hr ≠ S_OK then (q.hr, 0, ppSamples, q)
  else
    let q := { q with bFlushed := false, list := q.list ++ QueuePacket.ofSamples ppSamples }
    (S_OK, ppSamples.length, [],
      if !q.bBatchExact || q.samples.length + getCount q.list ≥ q.lBatchSize then q.notifyThread
      else q)

def receive (q : COutputQueue σ π) (pSample : σ) : Int × List σ × COutputQueue σ π :=
  let r := q.receiveMultiple [pSample]
  (r.1, r.2.2.1, r.2.2.2)

/-- `EOS`, and whether it queued its packet. -/
def eos (q : COutputQueue σ π) : Bool × COutputQueue σ π :=
  if q.hr = S_OK then (true, (queueSample { q with bFlushed := false } .eos).notifyThread)
  else (false, q)

def sendAnyway (q : COutputQueue σ π) : COutputQueue σ π := (q.queueSample .send).notifyThread

/-- The locked section of `NewSegment`, behind its test of `m_hr`. -/
def newSegmentLocked (q : COutputQueue σ π) (p : π) : COutputQueue σ π :=
  (q.queueSample (.newSegment p)).notifyThread

/-- The locked section of `Reset`. -/
def resetLocked (q : COutputQueue σ π) : COutputQueue σ π := (q.queueSample .reset).notifyThread

/-- The locked section of `BeginFlush`, and whether the flush goes downstream. -/
def beginFlushLocked (q : COutputQueue σ π) : Bool × COutputQueue σ π :=
  let q := { q with bFlushing := true, hr := if q.hr = S_OK then S_FALSE else q.hr }
  if q.bFlushed && q.bFlushingOpt then (false, q)
  else (true, notifyThread { q with evFlushComplete := false })

/-- The locked section of `EndFlush`, and whether the flush went downstream. -/
def endFlushLocked (q : COutputQueue σ π) : Bool × COutputQueue σ π :=
  if q.bFlushingOpt && q.bFlushed then (false, { q with bFlushing := false, hr := S_OK })
  else (true, q)

/-- The locked section of the destructor. -/
def terminateLocked (q : COutputQueue σ π) : COutputQueue σ π :=
  notifyThread { q with bTerminate := true, hr := S_FALSE }

/-- `FreeSamples`: what it releases, the list before the batch. -/
def freed (q : COutputQueue σ π) : List σ := q.list.filterMap QueuePacket.sample? ++ q.samples

def freeSamples (q : COutputQueue σ π) : COutputQueue σ π := { q with list := [], samples := [] }

/-- How the loop under the lock in `ThreadProc` ends, with `m_List` and the batch
as they are then. `found` carries `pSample`, which is NULL when the list ran out. -/
inductive Gathered (σ π : Type*)
  | empty (samples : List σ)
  | found (pSample : Option (QueuePacket σ π)) (list : List (QueuePacket σ π)) (samples : List σ)
  deriving DecidableEq, Repr

def gather (lBatchSize : Nat) (bBatchExact : Bool) :
    List (QueuePacket σ π) → List σ → Gathered σ π
  | [], samples => if bBatchExact || samples.isEmpty then .empty samples else .found none [] samples
  | .sample s :: list, samples =>
    if (samples ++ [s]).length = lBatchSize then .found (some (.sample s)) list (samples ++ [s])
    else gather lBatchSize bBatchExact list (samples ++ [s])
  -- SEND_PACKET with nothing to send goes on to the next packet
  | .send :: list, samples =>
    if samples.isEmpty then gather lBatchSize bBatchExact list samples
    else .found (some .send) list samples
  | .eos :: list, samples => .found (some .eos) list samples
  | .reset :: list, samples => .found (some .reset) list samples
  | .newSegment p :: list, samples => .found (some (.newSegment p)) list samples

/-- What ends the loop beside the batch: the packet that broke it, unless it is
a sample, which is in the batch, or a mere request to send. -/
@[simp] def requested : Option (QueuePacket σ π) → List (QueuePacket σ π)
  | some (.sample _) => []
  | some .send => []
  | some .eos => [.eos]
  | some .reset => [.reset]
  | some (.newSegment p) => [.newSegment p]
  | none => []

open QueuePacket in
/-- The loop takes packets off the list in order; only requests to send get lost. -/
theorem gather_found {lBatchSize : Nat} {bBatchExact : Bool} {list list' : List (QueuePacket σ π)}
    {samples samples' : List σ} {pSample : Option (QueuePacket σ π)}
    (h : gather lBatchSize bBatchExact list samples = .found pSample list' samples') :
    (ofSamples samples' ++ (requested pSample ++ list')).Sublist (ofSamples samples ++ list) ∧
      (ofSamples samples' ++ (requested pSample ++ list')).filter isData =
        (ofSamples samples ++ list).filter isData ∧
      samples' ++ list'.filterMap sample? = samples ++ list.filterMap sample? := by
  induction list generalizing samples with
  | nil =>
    simp only [gather] at h
    split at h
    · cases h
    · cases h
      simp
  | cons p list ih =>
    cases p with
    | sample s =>
      simp only [gather] at h
      split at h
      · cases h
        simp
      · simpa using ih h
    | send =>
      simp only [gather] at h
      split at h
      · obtain ⟨hsub, hdata, hsamples⟩ := ih h
        exact ⟨hsub.trans ((List.sublist_cons_self _ _).append_left _), by simpa using hdata,
          by simpa [List.filterMap_cons] using hsamples⟩
      · cases h
        simp [List.filterMap_cons]
    | eos =>
      cases h
      simp [List.filterMap_cons]
    | reset =>
      cases h
      simp [List.filterMap_cons]
    | newSegment p =>
      cases h
      simp [List.filterMap_cons]

open QueuePacket in
/-- The thread prepares to wait only when the list has run out and no batch is due. -/
theorem gather_empty {lBatchSize : Nat} {bBatchExact : Bool} {list : List (QueuePacket σ π)}
    {samples samples' : List σ} (h : gather lBatchSize bBatchExact list samples = .empty samples') :
    (ofSamples samples' : List (QueuePacket σ π)).Sublist (ofSamples samples ++ list) ∧
      ofSamples samples' = (ofSamples samples ++ list).filter isData ∧
      samples' = samples ++ list.filterMap sample? ∧ (bBatchExact = false → samples' = []) ∧
      (samples.length < lBatchSize → samples'.length < lBatchSize) := by
  induction list generalizing samples with
  | nil =>
    simp only [gather] at h
    split at h
    · next he =>
      cases h
      refine ⟨by simp, by simp, by simp, ?_, id⟩
      rintro rfl
      simpa using he
    · cases h
  | cons p list ih =>
    cases p with
    | sample s =>
      simp only [gather] at h
      split at h
      · cases h
      · next hne =>
        obtain ⟨hsub, hdata, hsamples, hexact, hlen⟩ := ih h
        refine ⟨by simpa using hsub, by simpa using hdata, by simpa using hsamples, hexact, ?_⟩
        intro hlt
        apply hlen
        rw [List.length_append, List.length_singleton] at hne ⊢
        omega
    | send =>
      simp only [gather] at h
      split at h
      · obtain ⟨hsub, hdata, hsamples, hrest⟩ := ih h
        exact ⟨hsub.trans ((List.sublist_cons_self _ _).append_left _), by simpa using hdata,
          by simpa [List.filterMap_cons] using hsamples, hrest⟩
      · cases h
    | eos => cases h
    | reset => cases h
    | newSegment p => cases h

end COutputQueue

end WinDV
