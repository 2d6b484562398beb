import WinDV.Transition
import Mathlib.Data.List.Nodup
import Mathlib.Data.List.Range
import Mathlib.Logic.Function.Basic

/-! `CMemAllocator` over `CBaseAllocator`, with the reference counts of its
`CMediaSample`s and any number of threads that get and release them. A locked
section, a wait and an access to a count without the lock are one step each. -/

namespace WinDV

/-- The members of the allocator. Samples are numbered in the order in which they
were ever created: those of the current block are the `lAllocated` from `base` on.
The rest are the threads in its methods: those that sleep in `GetBuffer` or have
been woken, the samples that one has popped without yet setting `m_cRef`, those on
their way to `ReleaseBuffer`, and how many have left the lock of `Decommit` or
`ReleaseBuffer` and are about to give up the allocator's reference to itself.
`missed` counts the calls that did not wait. -/
structure CMemAllocator where
  lFree : List Nat
  lCount : Nat
  lAllocated : Nat
  base : Nat
  bChanged : Bool
  bCommitted : Bool
  bDecommitInProgress : Bool
  lWaiting : Nat
  hSem : Nat
  cRef : Nat → Nat
  ownRefs : Int
  waiting : Nat
  woken : Nat
  popped : List Nat
  returning : List Nat
  releasing : Nat
  missed : Nat

/-- What became of the locked section of `GetBuffer`. -/
inductive BufferOutcome
  | notCommitted
  | sample (i : Nat)
  | wait
  deriving DecidableEq, Repr

inductive AllocatorAction
  | setProperties (cBuffers : Nat)
  /-- `memory` says whether `VirtualAlloc` succeeds. -/
  | commit (memory : Bool)
  | decommit
  /-- A new call of `GetBuffer`, up to the first time it leaves the lock. -/
  | getBuffer (noWait : Bool)
  /-- The semaphore lets a sleeping thread go on. -/
  | wake
  /-- A woken thread takes the lock again. -/
  | retry
  | setRef (i : Nat)
  | addRef (i : Nat)
  | release (i : Nat)
  | releaseBuffer (i : Nat)
  /-- `Release` behind the lock of `Decommit` or `ReleaseBuffer`. -/
  | releaseSelf
  deriving DecidableEq, Repr

namespace CMemAllocator

def start : CMemAllocator where
  lFree := []
  lCount := 0
  lAllocated := 0
  base := 0
  bChanged := false
  bCommitted := false
  bDecommitInProgress := false
  lWaiting := 0
  hSem := 0
  cRef := fun _ => 0
  ownRefs := 0
  waiting := 0
  woken := 0
  popped := []
  returning := []
  releasing := 0
  missed := 0

def notifySample (s : CMemAllocator) : CMemAllocator :=
  if s.lWaiting ≠ 0 then { s with hSem := s.hSem + s.lWaiting, lWaiting := 0 } else s

/-- `SetProperties`, as far as the number of buffers goes. -/
def setProperties (s : CMemAllocator) (cBuffers : Nat) : CMemAllocator :=
  if s.bCommitted then s
  else if s.lFree.length < s.lAllocated then s
  else { s with lCount := cBuffers, bChanged := true }

/-- `Alloc`: it fails where no count was set and where there is no memory, and
keeps the samples where the properties have not changed. -/
def alloc (s : CMemAllocator) (memory : Bool) : Bool × CMemAllocator :=
  if s.lCount = 0 then (false, s)
  else if !s.bChanged then (true, s)
  else
    -- `ReallyFree`
    let s := { s with lFree := [], base := s.base + s.lAllocated, lAllocated := 0 }
    if memory then
      (true, { s with
        lFree := (List.range' s.base s.lCount).reverse, lAllocated := s.lCount, bChanged := false })
    else (false, s)

def commit (s : CMemAllocator) (memory : Bool) : CMemAllocator :=
  if s.bCommitted then s
  else if s.bDecommitInProgress then { s with bCommitted := true, bDecommitInProgress := false }
  else
    let r := s.alloc memory
    if r.1 then { r.2 with bCommitted := true, ownRefs := r.2.ownRefs + 1 } else r.2

def decommit (s : CMemAllocator) : CMemAllocator :=
  if s.bCommitted = false ∧ s.bDecommitInProgress = false then s
  else if s.lFree.length < s.lAllocated then
    notifySample { s with bCommitted := false, bDecommitInProgress := true }
  else notifySample { s with
    bCommitted := false, bDecommitInProgress := false, releasing := s.releasing + 1 }

def getBufferLocked (s : CMemAllocator) : BufferOutcome × CMemAllocator :=
  if !s.bCommitted then (.notCommitted, s)
  else
    match s.lFree with
    | i :: lFree => (.sample i, { s with lFree := lFree, popped := i :: s.popped })
    | [] => (.wait, { s with lWaiting := s.lWaiting + 1 })

def releaseBufferLocked (s : CMemAllocator) (i : Nat) : CMemAllocator :=
  let s := notifySample { s with lFree := i :: s.lFree }
  if s.bDecommitInProgress ∧ s.lFree.length = s.lAllocated then
    { s with bDecommitInProgress := false, releasing := s.releasing + 1 }
  else s

def step (s : CMemAllocator) : AllocatorAction → Option CMemAllocator
  | .setProperties cBuffers => some (s.setProperties cBuffers)
  | .commit memory => some (s.commit memory)
  | .decommit => some s.decommit
  | .getBuffer noWait =>
    match s.getBufferLocked with
    | (.wait, s) =>
      if noWait then some { s with missed := s.missed + 1 } else some { s with waiting := s.waiting + 1 }
    | (_, s) => some s
  | .wake =>
    if s.waiting > 0 ∧ s.hSem > 0 then
      some { s with waiting := s.waiting - 1, hSem := s.hSem - 1, woken := s.woken + 1 }
    else none
  | .retry =>
    if s.woken > 0 then
      match { s with woken := s.woken - 1 }.getBufferLocked with
      | (.wait, s) => some { s with waiting := s.waiting + 1 }
      | (_, s) => some s
    else none
  | .setRef i =>
    if i ∈ s.popped then
      some { s with popped := s.popped.erase i, cRef := Function.update s.cRef i 1 }
    else none
  | .addRef i =>
    if s.cRef i > 0 then some { s with cRef := Function.update s.cRef i (s.cRef i + 1) } else none
  | .release i =>
    if s.cRef i > 0 then
      let s' := { s with cRef := Function.update s.cRef i (s.cRef i - 1) }
      some (if s.cRef i = 1 then { s' with returning := i :: s.returning } else s')
    else none
  | .releaseBuffer i =>
    if i ∈ s.returning then
      some ({ s with returning := s.returning.erase i }.releaseBufferLocked i)
    else none
  | .releaseSelf =>
    if s.releasing > 0 then
      some { s with releasing := s.releasing - 1, ownRefs := s.ownRefs - 1 }
    else none

/-- What a step can do, one constructor for each branch. A thread in `GetBuffer`
may be a new caller or a woken one; `w` are the woken ones that are left. -/
inductive Steps (s : CMemAllocator) : CMemAllocator → Prop
  | unchanged (w : Nat) : Steps s { s with woken := w }
  | countSet (n : Nat) (hc : s.bCommitted = false) (hf : ¬ s.lFree.length < s.lAllocated) :
    Steps s { s with lCount := n, bChanged := true }
  | recommitted (hc : s.bCommitted = false) (hd : s.bDecommitInProgress = true) :
    Steps s { s with bCommitted := true, bDecommitInProgress := false }
  | blockKept (hc : s.bCommitted = false) (hd : s.bDecommitInProgress = false) :
    Steps s { s with bCommitted := true, ownRefs := s.ownRefs + 1 }
  | blockMade (hc : s.bCommitted = false) (hd : s.bDecommitInProgress = false) :
    Steps s { s with
      lFree := (List.range' (s.base + s.lAllocated) s.lCount).reverse
      base := s.base + s.lAllocated
      lAllocated := s.lCount
      bChanged := false
      bCommitted := true
      ownRefs := s.ownRefs + 1 }
  | blockLost (hc : s.bCommitted = false) (hd : s.bDecommitInProgress = false) :
    Steps s { s with lFree := [], base := s.base + s.lAllocated, lAllocated := 0 }
  | decommitDeferred (hc : s.bCommitted = true ∨ s.bDecommitInProgress = true)
    (hf : s.lFree.length < s.lAllocated) :
    Steps s { s with
      bCommitted := false
      bDecommitInProgress := true
      hSem := s.hSem + s.lWaiting
      lWaiting := 0 }
  | decommitted (hc : s.bCommitted = true ∨ s.bDecommitInProgress = true)
    (hf : ¬ s.lFree.length < s.lAllocated) :
    Steps s { s with
      bCommitted := false
      bDecommitInProgress := false
      releasing := s.releasing + 1
      hSem := s.hSem + s.lWaiting
      lWaiting := 0 }
  | gave (i : Nat) (lFree : List Nat) (w : Nat) (hc : s.bCommitted = true)
    (hf : s.lFree = i :: lFree) :
    Steps s { s with lFree := lFree, popped := i :: s.popped, woken := w }
  | gaveUp (hc : s.bCommitted = true) (hf : s.lFree = []) :
    Steps s { s with lWaiting := s.lWaiting + 1, missed := s.missed + 1 }
  | slept (w : Nat) (hc : s.bCommitted = true) (hf : s.lFree = []) :
    Steps s { s with lWaiting := s.lWaiting + 1, waiting := s.waiting + 1, woken := w }
  | wokeUp (hw : 0 < s.waiting) (hsem : 0 < s.hSem) :
    Steps s { s with waiting := s.waiting - 1, hSem := s.hSem - 1, woken := s.woken + 1 }
  | refSet (i : Nat) (hi : i ∈ s.popped) :
    Steps s { s with popped := s.popped.erase i, cRef := Function.update s.cRef i 1 }
  | refAdded (i : Nat) (hi : 0 < s.cRef i) :
    Steps s { s with cRef := Function.update s.cRef i (s.cRef i + 1) }
  | refDropped (i : Nat) (hi : 1 < s.cRef i) :
    Steps s { s with cRef := Function.update s.cRef i (s.cRef i - 1) }
  | lastDropped (i : Nat) (hi : s.cRef i = 1) :
    Steps s { s with cRef := Function.update s.cRef i 0, returning := i :: s.returning }
  | returned (i : Nat) (hi : i ∈ s.returning)
    (hf : ¬ (s.bDecommitInProgress = true ∧ s.lFree.length + 1 = s.lAllocated)) :
    Steps s { s with
      returning := s.returning.erase i
      lFree := i :: s.lFree
      hSem := s.hSem + s.lWaiting
      lWaiting := 0 }
  | lastReturned (i : Nat) (hi : i ∈ s.returning) (hd : s.bDecommitInProgress = true)
    (hf : s.lFree.length + 1 = s.lAllocated) :
    Steps s { s with
      returning := s.returning.erase i
      lFree := i :: s.lFree
      hSem := s.hSem + s.lWaiting
      lWaiting := 0
      bDecommitInProgress := false
      releasing := s.releasing + 1 }
  | selfReleased (hr : 0 < s.releasing) :
    Steps s { s with releasing := s.releasing - 1, ownRefs := s.ownRefs - 1 }

theorem notifySample_eq (s : CMemAllocator) :
    s.notifySample = { s with hSem := s.hSem + s.lWaiting, lWaiting := 0 } := by
  unfold notifySample
  split
  · rfl
  · next h => rw [not_not.mp h, Nat.add_zero, ← not_not.mp h]

theorem steps_of_commit (s : CMemAllocator) (memory : Bool) : Steps s (s.commit memory) := by
  unfold commit
  by_cases hc : s.bCommitted = true
  · rw [if_pos hc]
    exact .unchanged s.woken
  rw [if_neg hc]
  rw [Bool.not_eq_true] at hc
  by_cases hd : s.bDecommitInProgress = true
  · rw [if_pos hd]
    exact .recommitted hc hd
  rw [if_neg hd]
  rw [Bool.not_eq_true] at hd
  unfold alloc
  by_cases hcount : s.lCount = 0
  · simp only [hcount, if_true, Bool.false_eq_true, if_false]
    exact .unchanged s.woken
  simp only [hcount, if_false]
  cases hch : s.bChanged with
  | false =>
    simp only [Bool.not_false, if_true]
    exact .blockKept hc hd
  | true =>
    cases memory with
    | false =>
      simp only [Bool.not_true, Bool.false_eq_true, if_false]
      rw [← hch]
      exact .blockLost hc hd
    | true =>
      simp only [Bool.not_true, Bool.false_eq_true, if_false, if_true]
      exact .blockMade hc hd

theorem steps_of_decommit (s : CMemAllocator) : Steps s s.decommit := by
  unfold decommit
  by_cases hidle : s.bCommitted = false ∧ s.bDecommitInProgress = false
  · rw [if_pos hidle]
    exact .unchanged s.woken
  rw [if_neg hidle]
  have hc : s.bCommitted = true ∨ s.bDecommitInProgress = true := by
    cases hc : s.bCommitted with
    | true => exact .inl rfl
    | false =>
      right
      cases hd : s.bDecommitInProgress with
      | true => rfl
      | false => exact absurd ⟨hc, hd⟩ hidle
  by_cases hf : s.lFree.length < s.lAllocated
  · rw [if_pos hf, notifySample_eq]
    exact .decommitDeferred hc hf
  · rw [if_neg hf, notifySample_eq]
    exact .decommitted hc hf

theorem steps_of_step {s t : CMemAllocator} {a : AllocatorAction} (h : s.step a = some t) :
    Steps s t := by
  cases a with
  | setProperties n =>
    obtain rfl := Option.some.inj h
    unfold setProperties
    by_cases hc : s.bCommitted = true
    · rw [if_pos hc]
      exact .unchanged s.woken
    rw [if_neg hc]
    rw [Bool.not_eq_true] at hc
    by_cases hf : s.lFree.length < s.lAllocated
    · rw [if_pos hf]
      exact .unchanged s.woken
    · rw [if_neg hf]
      exact .countSet n hc hf
  | commit memory =>
    obtain rfl := Option.some.inj h
    exact steps_of_commit s memory
  | decommit =>
    obtain rfl := Option.some.inj h
    exact steps_of_decommit s
  | getBuffer noWait =>
    cases hc : s.bCommitted with
    | false =>
      simp only [step, getBufferLocked, hc, Bool.not_false, if_true] at h
      obtain rfl := Option.some.inj h
      exact .unchanged s.woken
    | true =>
      cases hf : s.lFree with
      | cons i lFree =>
        simp only [step, getBufferLocked, hc, hf, Bool.not_true, Bool.false_eq_true, if_false] at h
        obtain rfl := Option.some.inj h
        rw [← hc]
        exact .gave i lFree s.woken hc hf
      | nil =>
        simp only [step, getBufferLocked, hc, hf, Bool.not_true, Bool.false_eq_true, if_false] at h
        cases noWait with
        | true =>
          obtain rfl := Option.some.inj h
          rw [← hc, ← hf]
          exact .gaveUp hc hf
        | false =>
          obtain rfl := Option.some.inj h
          rw [← hc, ← hf]
          exact .slept s.woken hc hf
  | wake =>
    simp only [step, Option.ite_none_right_eq_some, Option.some.injEq] at h
    obtain ⟨⟨hw, hsem⟩, rfl⟩ := h
    exact .wokeUp hw hsem
  | retry =>
    simp only [step, Option.ite_none_right_eq_some] at h
    obtain ⟨-, h⟩ := h
    cases hc : s.bCommitted with
    | false =>
      simp only [getBufferLocked, hc, Bool.not_false, if_true] at h
      obtain rfl := Option.some.inj h
      rw [← hc]
      exact .unchanged (s.woken - 1)
    | true =>
      cases hf : s.lFree with
      | cons i lFree =>
        simp only [getBufferLocked, hc, hf, Bool.not_true, Bool.false_eq_true, if_false] at h
        obtain rfl := Option.some.inj h
        rw [← hc]
        exact .gave i lFree (s.woken - 1) hc hf
      | nil =>
        simp only [getBufferLocked, hc, hf, Bool.not_true, Bool.false_eq_true, if_false] at h
        obtain rfl := Option.some.inj h
        rw [← hc, ← hf]
        exact .slept (s.woken - 1) hc hf
  | setRef i =>
    simp only [step, Option.ite_none_right_eq_some, Option.some.injEq] at h
    obtain ⟨hi, rfl⟩ := h
    exact .refSet i hi
  | addRef i =>
    simp only [step, Option.ite_none_right_eq_some, Option.some.injEq] at h
    obtain ⟨hi, rfl⟩ := h
    exact .refAdded i hi
  | release i =>
    simp only [step, Option.ite_none_right_eq_some, Option.some.injEq] at h
    obtain ⟨hi, rfl⟩ := h
    by_cases hone : s.cRef i = 1
    · simp only [hone, if_true, Nat.sub_self]
      exact .lastDropped i hone
    · rw [if_neg hone]
      exact .refDropped i (by omega)
  | releaseBuffer i =>
    simp only [step, Option.ite_none_right_eq_some, Option.some.injEq] at h
    obtain ⟨hi, rfl⟩ := h
    simp only [releaseBufferLocked, notifySample_eq, List.length_cons]
    by_cases hd : s.bDecommitInProgress = true ∧ s.lFree.length + 1 = s.lAllocated
    · rw [if_pos hd]
      exact .lastReturned i hi hd.1 hd.2
    · rw [if_neg hd]
      exact .returned i hi hd
  | releaseSelf =>
    simp only [step, Option.ite_none_right_eq_some, Option.some.injEq] at h
    obtain ⟨hr, rfl⟩ := h
    exact .selfReleased hr

end CMemAllocator

end WinDV
