import WinDV.OutputGraph
import WinDV.OutputQueueRelease
import WinDV.AllocatorRuns

/-! From `COutputGraph::HandleFrame` to the DV device: the recording thread fills
buffers of the allocator and hands them to the `COutputQueue` of `COutputPin`, whose
thread passes them on; the device may keep a buffer for as long as it likes. -/

namespace WinDV

/-- Where the recording thread stands in `HandleFrame`; `m` is what it writes into
the buffer, and `i` the buffer. -/
inductive HandlePc
  | outside
  | getting (m : MediaSample)
  | sleeping (m : MediaSample)
  | retrying (m : MediaSample)
  | popped (m : MediaSample) (i : Nat)
  | writing (m : MediaSample) (i : Nat)
  | delivering (m : MediaSample) (i : Nat)
  | receiving (m : MediaSample) (i : Nat)
  | releasing (i : Nat)
  | thrown
  deriving DecidableEq

/-- A reference to a buffer is written with what the buffer was filled with. -/
abbrev BufferRef := Nat × MediaSample

/-- `mem` is what the buffers hold, `device` the references that the device keeps,
and `tape` what it read from the buffers that it was handed. -/
structure OutputPath where
  alloc : CMemAllocator
  mem : Nat → MediaSample
  queue : OutputThreads BufferRef Unit
  producer : HandlePc
  device : List BufferRef
  tape : List MediaSample

inductive OutputPathAction
  | handleFrame (m : MediaSample)
  | producer
  /-- `GetPointer` fails. -/
  | noPointer
  | deliverEndOfStream
  /-- `Inactive` deletes the queue. -/
  | inactive
  | inactiveNext
  | queueThread
  | receiveReturns (hr : Int)
  /-- The device takes a reference of its own to a buffer that it sees. -/
  | keep (x : BufferRef)
  | drop (x : BufferRef)
  | setProperties (cBuffers : Nat)
  | commit (memory : Bool)
  | decommit
  | releaseBuffer (i : Nat)
  | releaseSelf

namespace CMemAllocator

/-- `Release` of a sample, up to `ReleaseBuffer`. -/
def releaseRef (s : CMemAllocator) (i : Nat) : CMemAllocator := (s.step (.release i)).getD s

def releaseRefs (s : CMemAllocator) (l : List Nat) : CMemAllocator := l.foldl releaseRef s

end CMemAllocator

/-- What the device reads in a call. -/
def PinCall.contents (mem : Nat → MediaSample) : PinCall BufferRef Unit → List MediaSample
  | .receiveMultiple samples => samples.map fun x => mem x.1
  | _ => []

namespace OutputPath

/-- `COutputPin::Active` makes the queue with batches of one sample. -/
def start (memory : Nat → MediaSample) : OutputPath where
  alloc := .start
  mem := memory
  queue := .start 1 false false
  producer := .outside
  device := []
  tape := []

/-- A step of the queue; the references that it releases go back to the allocator. -/
def queueStep (s : OutputPath) (a : OutputAction BufferRef Unit) : Option OutputPath :=
  (s.queue.step a).map fun q => { s with
    queue := q
    alloc := s.alloc.releaseRefs ((q.released.drop s.queue.released.length).map Prod.fst)
    tape := s.tape ++ (q.calls.drop s.queue.calls.length).flatMap (PinCall.contents s.mem) }

/-- What the recording thread does next when the lock of `GetBuffer` is left. -/
def gotBuffer (s : OutputPath) (m : MediaSample) : BufferOutcome × CMemAllocator → OutputPath
  | (.notCommitted, alloc) => { s with alloc := alloc, producer := .thrown }
  | (.sample i, alloc) => { s with alloc := alloc, producer := .popped m i }
  | (.wait, alloc) =>
    { s with alloc := { alloc with waiting := alloc.waiting + 1 }, producer := .sleeping m }

def producerStep (s : OutputPath) : Option OutputPath :=
  match s.producer with
  | .outside => none
  | .getting m => some (s.gotBuffer m s.alloc.getBufferLocked)
  | .sleeping m => (s.alloc.step .wake).map fun alloc =>
    { s with alloc := alloc, producer := .retrying m }
  | .retrying m =>
    some (s.gotBuffer m { s.alloc with woken := s.alloc.woken - 1 }.getBufferLocked)
  | .popped m i => (s.alloc.step (.setRef i)).map fun alloc =>
    { s with alloc := alloc, producer := .writing m i }
  | .writing m i => some { s with mem := Function.update s.mem i m, producer := .delivering m i }
  | .delivering m i => (s.alloc.step (.addRef i)).map fun alloc =>
    { s with alloc := alloc, producer := .receiving m i }
  | .receiving m i => (s.queueStep (.receiveMultiple [(i, m)])).map fun s =>
    { s with producer := .releasing i }
  | .releasing i => some { s with alloc := s.alloc.releaseRef i, producer := .outside }
  | .thrown => none

/-- The device sees a buffer in `ReceiveMultiple`, and while it keeps it. -/
def seen (s : OutputPath) : List BufferRef :=
  match s.queue.thread with
  | .receiving batch _ => batch ++ s.device
  | _ => s.device

def step (s : OutputPath) : OutputPathAction → Option OutputPath
  | .handleFrame m =>
    if s.producer = .outside ∧ s.queue.open? then some { s with producer := .getting m } else none
  | .producer => s.producerStep
  | .noPointer =>
    match s.producer with
    | .writing _ i => some { s with alloc := s.alloc.releaseRef i, producer := .outside }
    | _ => none
  | .deliverEndOfStream => s.queueStep .eos
  | .inactive => if s.producer = .outside then s.queueStep .destroy else none
  | .inactiveNext => s.queueStep .owner
  | .queueThread => s.queueStep .thread
  | .receiveReturns hr => s.queueStep (.returns hr)
  | .keep x =>
    if x ∈ s.seen then (s.alloc.step (.addRef x.1)).map fun alloc =>
      { s with alloc := alloc, device := x :: s.device }
    else none
  | .drop x =>
    if x ∈ s.device then
      some { s with alloc := s.alloc.releaseRef x.1, device := s.device.erase x }
    else none
  | .setProperties n => (s.alloc.step (.setProperties n)).map fun alloc => { s with alloc := alloc }
  | .commit memory => (s.alloc.step (.commit memory)).map fun alloc => { s with alloc := alloc }
  | .decommit => (s.alloc.step .decommit).map fun alloc => { s with alloc := alloc }
  | .releaseBuffer i => (s.alloc.step (.releaseBuffer i)).map fun alloc => { s with alloc := alloc }
  | .releaseSelf => (s.alloc.step .releaseSelf).map fun alloc => { s with alloc := alloc }

end OutputPath

end WinDV
