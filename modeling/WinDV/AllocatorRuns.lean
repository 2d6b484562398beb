import WinDV.Allocator
import Mathlib.Data.List.Perm.Subperm
import Mathlib.Data.List.Count

/-! Runs of a `CMemAllocator`: each sample of the block is in one place, and no
thread sleeps in `GetBuffer` while it could go on. -/

namespace WinDV.CMemAllocator

/-- In how many places a sample is: the free list, the hands of a thread in
`GetBuffer` or on its way to `ReleaseBuffer`, and the references. -/
def places (s : CMemAllocator) (i : Nat) : Nat :=
  s.lFree.count i + s.popped.count i + s.returning.count i + if 0 < s.cRef i then 1 else 0

/-- How often a sample is in the current block. -/
def inBlock (s : CMemAllocator) (i : Nat) : Nat :=
  if s.base ≤ i ∧ i < s.base + s.lAllocated then 1 else 0

/-- Each sample of the block is in one place and the other ones are in none; all
are at home unless the allocator is committed or waits for them to come home. -/
structure Homes (s : CMemAllocator) : Prop where
  once : ∀ i, s.places i = s.inBlock i
  settled : s.bCommitted = false → s.bDecommitInProgress = false → s.lFree.length = s.lAllocated
  deferred : s.bDecommitInProgress = true → s.bCommitted = false ∧ s.lFree.length < s.lAllocated
  own : s.ownRefs = (if s.bCommitted ∨ s.bDecommitInProgress then 1 else 0) + s.releasing

theorem inBlock_le_one (s : CMemAllocator) (i : Nat) : s.inBlock i ≤ 1 := by
  unfold inBlock
  split <;> omega

theorem mem_block_of_pos {s : CMemAllocator} {i : Nat} (hi : 0 < s.inBlock i) :
    s.base ≤ i ∧ i < s.base + s.lAllocated := by
  unfold inBlock at hi
  by_contra hout
  rw [if_neg hout] at hi
  exact Nat.lt_irrefl 0 hi

theorem Homes.places_le_one {s : CMemAllocator} (hs : Homes s) (i : Nat) : s.places i ≤ 1 :=
  hs.once i ▸ s.inBlock_le_one i

theorem places_pos_of_free {s : CMemAllocator} {i : Nat} (hi : i ∈ s.lFree) : 0 < s.places i := by
  have hcount := List.count_pos_iff.mpr hi
  unfold places
  omega

theorem Homes.free_nodup {s : CMemAllocator} (hs : Homes s) : s.lFree.Nodup := by
  apply List.nodup_iff_count_le_one.mpr
  intro i
  have hi := hs.places_le_one i
  unfold CMemAllocator.places at hi
  omega

theorem Homes.free_subset {s : CMemAllocator} (hs : Homes s) :
    s.lFree ⊆ List.range' s.base s.lAllocated :=
  fun i hi => List.mem_range'_1.mpr (mem_block_of_pos (hs.once i ▸ places_pos_of_free hi))

theorem Homes.length_le {s : CMemAllocator} (hs : Homes s) : s.lFree.length ≤ s.lAllocated := by
  simpa using (List.subperm_of_subset hs.free_nodup hs.free_subset).length_le

/-- With the whole block on the free list, nobody has a sample. -/
theorem Homes.all_home {s : CMemAllocator} (hs : Homes s) (hlen : s.lFree.length = s.lAllocated) :
    s.popped = [] ∧ s.returning = [] ∧ ∀ i, s.cRef i = 0 := by
  have hperm := (List.subperm_of_subset hs.free_nodup hs.free_subset).perm_of_length_le
    (by simp [hlen])
  have hnone (i : Nat) :
      s.popped.count i + s.returning.count i + (if 0 < s.cRef i then 1 else 0) = 0 := by
    have honce := hs.once i
    have hfree : s.inBlock i ≤ s.lFree.count i := by
      unfold inBlock
      split
      · next hin => exact List.count_pos_iff.mpr (hperm.mem_iff.mpr (List.mem_range'_1.mpr hin))
      · exact Nat.zero_le _
    unfold places at honce
    omega
  refine ⟨?_, ?_, fun i => ?_⟩
  · apply List.eq_nil_iff_forall_not_mem.mpr
    intro i
    have hi := hnone i
    exact List.count_eq_zero.mp (by omega)
  · apply List.eq_nil_iff_forall_not_mem.mpr
    intro i
    have hi := hnone i
    exact List.count_eq_zero.mp (by omega)
  · by_contra hne
    have hi := hnone i
    rw [if_pos (Nat.pos_of_ne_zero hne)] at hi
    omega

theorem Homes.of_free_eq {s : CMemAllocator} (hs : Homes s) (hc : s.bCommitted = false)
    (hd : s.bDecommitInProgress = false) : s.popped = [] ∧ s.returning = [] ∧ ∀ i, s.cRef i = 0 :=
  hs.all_home (hs.settled hc hd)

/-- A step that moves samples between the places of the same block. -/
theorem Homes.moved {s t : CMemAllocator} (hs : Homes s) (hplaces : ∀ i, t.places i = s.places i)
    (hbase : t.base = s.base) (hallocated : t.lAllocated = s.lAllocated) (i : Nat) :
    t.places i = t.inBlock i := by
  rw [hplaces, hs.once, inBlock, inBlock, hbase, hallocated]

/-- `ReleaseBuffer` puts a sample on the free list. -/
theorem places_of_returned {s t : CMemAllocator} {i : Nat} (hi : i ∈ s.returning)
    (hfree : t.lFree = i :: s.lFree) (hret : t.returning = s.returning.erase i)
    (hpopped : t.popped = s.popped) (href : t.cRef = s.cRef) (j : Nat) :
    t.places j = s.places j := by
  have hcount := List.count_pos_iff.mpr hi
  unfold places
  rw [hfree, hret, hpopped, href]
  by_cases hij : j = i
  · subst hij
    rw [List.count_cons_self, List.count_erase_self]
    omega
  · rw [List.count_cons_of_ne (Ne.symm hij), List.count_erase_of_ne hij]

theorem Homes.step {s t : CMemAllocator} (hs : Homes s) (h : Steps s t) : Homes t := by
  have hown := hs.own
  cases h with
  | unchanged w => exact ⟨hs.once, hs.settled, hs.deferred, hown⟩
  | countSet n hc hf => exact ⟨hs.once, hs.settled, hs.deferred, hown⟩
  | recommitted hc hd =>
    refine ⟨hs.once, fun he => ?_, fun he => ?_, ?_⟩
    · cases he
    · cases he
    · simpa [hd] using hown
  | blockKept hc hd =>
    refine ⟨hs.once, fun he => ?_, fun he => ?_, ?_⟩
    · cases he
    · rw [hd] at he
      cases he
    · rw [hown]
      simp [hc, hd, Int.add_comm]
  | blockMade hc hd =>
    obtain ⟨hpopped, hreturning, hrefs⟩ := hs.of_free_eq hc hd
    refine ⟨fun i => ?_, fun he => ?_, fun he => ?_, ?_⟩
    · simp only [places, inBlock, List.count_reverse, hpopped, hreturning, hrefs]
      rw [List.Nodup.count List.nodup_range']
      simp [List.mem_range'_1]
    · cases he
    · rw [hd] at he
      cases he
    · rw [hown]
      simp [hc, hd, Int.add_comm]
  | blockLost hc hd =>
    obtain ⟨hpopped, hreturning, hrefs⟩ := hs.of_free_eq hc hd
    refine ⟨fun i => ?_, fun _ _ => rfl, fun he => ?_, hown⟩
    · simp [places, inBlock, hpopped, hreturning, hrefs]
    · rw [hd] at he
      cases he
  | decommitDeferred hc hf =>
    refine ⟨hs.once, fun _ he => ?_, fun _ => ⟨rfl, hf⟩, ?_⟩
    · cases he
    · rw [hown]
      simp [hc]
  | decommitted hc hf =>
    refine ⟨hs.once, fun _ _ => Nat.le_antisymm hs.length_le (Nat.not_lt.mp hf), fun he => ?_, ?_⟩
    · cases he
    · rw [hown]
      simp [hc, Int.add_comm]
  | gave i lFree w hc hf =>
    refine ⟨hs.moved (fun j => ?_) rfl rfl, fun he => ?_, fun hd => ?_, hown⟩
    · simp only [places, hf, List.count_cons]
      omega
    · rw [hc] at he
      cases he
    · rw [(hs.deferred hd).1] at hc
      cases hc
  | gaveUp hc hf => exact ⟨hs.once, hs.settled, hs.deferred, hown⟩
  | slept w hc hf => exact ⟨hs.once, hs.settled, hs.deferred, hown⟩
  | wokeUp hw hsem => exact ⟨hs.once, hs.settled, hs.deferred, hown⟩
  | refSet i hi =>
    refine ⟨hs.moved (fun j => ?_) rfl rfl, hs.settled, hs.deferred, hown⟩
    have hj := hs.places_le_one j
    have hcount := List.count_pos_iff.mpr hi
    unfold places at hj ⊢
    by_cases hij : j = i
    · subst hij
      have hzero : ¬ 0 < s.cRef j := by
        intro hpos
        rw [if_pos hpos] at hj
        omega
      simp only [List.count_erase_self, Function.update_self, hzero, if_false, Nat.one_pos, if_true]
      omega
    · simp only [List.count_erase_of_ne hij, Function.update_of_ne hij]
  | refAdded i hi =>
    refine ⟨hs.moved (fun j => ?_) rfl rfl, hs.settled, hs.deferred, hown⟩
    unfold places
    by_cases hij : j = i
    · subst hij
      simp [hi]
    · simp only [Function.update_of_ne hij]
  | refDropped i hi =>
    refine ⟨hs.moved (fun j => ?_) rfl rfl, hs.settled, hs.deferred, hown⟩
    unfold places
    by_cases hij : j = i
    · subst hij
      have hpos : 0 < s.cRef j - 1 := by omega
      simp [Nat.zero_lt_of_lt hi, hpos]
    · simp only [Function.update_of_ne hij]
  | lastDropped i hi =>
    refine ⟨hs.moved (fun j => ?_) rfl rfl, hs.settled, hs.deferred, hown⟩
    unfold places
    by_cases hij : j = i
    · subst hij
      simp [hi]
      omega
    · simp [Function.update_of_ne hij, List.count_cons_of_ne (Ne.symm hij)]
  | returned i hi hf =>
    refine ⟨hs.moved (places_of_returned hi rfl rfl rfl rfl) rfl rfl, fun hc hd => ?_, fun hd => ?_, hown⟩
    · have := (hs.of_free_eq hc hd).2.1
      rw [this] at hi
      cases hi
    · obtain ⟨hc, hlt⟩ := hs.deferred hd
      have hne : s.lFree.length + 1 ≠ s.lAllocated := fun he => hf ⟨hd, he⟩
      exact ⟨hc, Nat.lt_of_le_of_ne hlt hne⟩
  | lastReturned i hi hd hf =>
    refine ⟨hs.moved (places_of_returned hi rfl rfl rfl rfl) rfl rfl, fun _ _ => hf, fun he => ?_, ?_⟩
    · cases he
    · rw [hown]
      simp [hd, (hs.deferred hd).1, Int.add_comm]
  | selfReleased hr =>
    refine ⟨hs.once, hs.settled, hs.deferred, ?_⟩
    dsimp only
    omega

/-- The semaphore has a count for each thread that sleeps and may go on, and for
each call that should have slept and did not. -/
structure Wakeups (s : CMemAllocator) : Prop where
  counted : s.lWaiting + s.hSem = s.waiting + s.missed
  none_free : s.lWaiting ≠ 0 → s.lFree = [] ∧ s.bCommitted = true

theorem Wakeups.step {s t : CMemAllocator} (hs : Wakeups s) (h : Steps s t) : Wakeups t := by
  obtain ⟨hcounted, hnone⟩ := hs
  have hnoWaiters (hc : s.bCommitted = false) : s.lWaiting = 0 := by
    by_contra hne
    rw [(hnone hne).2] at hc
    cases hc
  cases h with
  | unchanged w => exact ⟨hcounted, hnone⟩
  | countSet n hc hf => exact ⟨hcounted, hnone⟩
  | recommitted hc hd => exact ⟨hcounted, fun hne => absurd (hnoWaiters hc) hne⟩
  | blockKept hc hd => exact ⟨hcounted, fun hne => absurd (hnoWaiters hc) hne⟩
  | blockMade hc hd => exact ⟨hcounted, fun hne => absurd (hnoWaiters hc) hne⟩
  | blockLost hc hd => exact ⟨hcounted, fun hne => absurd (hnoWaiters hc) hne⟩
  | decommitDeferred hc hf => exact ⟨by dsimp only; omega, fun hne => absurd rfl hne⟩
  | decommitted hc hf => exact ⟨by dsimp only; omega, fun hne => absurd rfl hne⟩
  | gave i lFree w hc hf =>
    refine ⟨hcounted, fun hne => ?_⟩
    rw [hf] at hnone
    cases (hnone hne).1
  | gaveUp hc hf => exact ⟨by dsimp only; omega, fun _ => ⟨hf, hc⟩⟩
  | slept w hc hf => exact ⟨by dsimp only; omega, fun _ => ⟨hf, hc⟩⟩
  | wokeUp hw hsem => exact ⟨by dsimp only; omega, hnone⟩
  | refSet i hi => exact ⟨hcounted, hnone⟩
  | refAdded i hi => exact ⟨hcounted, hnone⟩
  | refDropped i hi => exact ⟨hcounted, hnone⟩
  | lastDropped i hi => exact ⟨hcounted, hnone⟩
  | returned i hi hf => exact ⟨by dsimp only; omega, fun hne => absurd rfl hne⟩
  | lastReturned i hi hd hf => exact ⟨by dsimp only; omega, fun hne => absurd rfl hne⟩
  | selfReleased hr => exact ⟨hcounted, hnone⟩

abbrev anyStep : CMemAllocator → AllocatorAction → Prop := fun _ _ => True

theorem homes_of_run {acts : List AllocatorAction} {s : CMemAllocator}
    (hrun : Transition.Run step anyStep start acts s) : Homes s := by
  apply hrun.invariant
  · intro t a u hinv _ hstep
    exact hinv.step (steps_of_step hstep)
  · refine ⟨fun i => ?_, fun _ _ => rfl, fun he => ?_, rfl⟩
    · simp [places, inBlock, start]
    · cases he

/-- Whatever threads get, pass on and release samples: the one that `GetBuffer`
takes off the free list has no reference and is in nobody's hands; the block is
given up or replaced only when all of its samples are at home; and the allocator
keeps itself alive from `Commit` until the last sample has come home, with one
reference more for each thread that is still to give up the one it had then. -/
theorem buffers_exclusive (acts : List AllocatorAction) (s : CMemAllocator)
    (hrun : Transition.Run step anyStep start acts s) :
    (∀ i ∈ s.lFree, s.cRef i = 0 ∧ i ∉ s.popped ∧ i ∉ s.returning ∧ s.lFree.count i = 1) ∧
      (∀ i, 0 < s.cRef i → s.base ≤ i ∧ i < s.base + s.lAllocated) ∧
      (s.bCommitted = false → s.bDecommitInProgress = false →
        s.popped = [] ∧ s.returning = [] ∧ ∀ i, s.cRef i = 0) ∧
      s.ownRefs = (if s.bCommitted ∨ s.bDecommitInProgress then 1 else 0) + s.releasing := by
  have hs := homes_of_run hrun
  refine ⟨fun i hi => ?_, fun i hi => ?_, hs.of_free_eq, hs.own⟩
  · have hcount := List.count_pos_iff.mpr hi
    have hone := hs.places_le_one i
    unfold places at hone
    refine ⟨?_, ?_, ?_, ?_⟩
    · by_contra hne
      rw [if_pos (Nat.pos_of_ne_zero hne)] at hone
      omega
    · exact List.count_eq_zero.mp (by omega)
    · exact List.count_eq_zero.mp (by omega)
    · omega
  · apply mem_block_of_pos
    rw [← hs.once, places, if_pos hi]
    omega

/-- What the class comment says of the lazy signalling, with the calls that do
not wait taken into account: while a sample is free or the allocator is decommitted,
nobody is counted as waiting and no thread sleeps on. -/
theorem nobody_sleeps (acts : List AllocatorAction) (s : CMemAllocator)
    (hrun : Transition.Run step anyStep start acts s) :
    (s.lFree ≠ [] ∨ s.bCommitted = false → s.lWaiting = 0) ∧ s.lWaiting + s.hSem = s.waiting + s.missed ∧
      (s.lFree ≠ [] ∨ s.bCommitted = false → s.waiting ≤ s.hSem) := by
  have hs : Wakeups s := by
    apply hrun.invariant
    · intro t a u hinv _ hstep
      exact hinv.step (steps_of_step hstep)
    · exact ⟨rfl, fun hne => absurd rfl hne⟩
  have hzero (hgo : s.lFree ≠ [] ∨ s.bCommitted = false) : s.lWaiting = 0 := by
    by_contra hne
    obtain ⟨hfree, hc⟩ := hs.none_free hne
    rcases hgo with hgo | hgo
    · exact hgo hfree
    · rw [hc] at hgo
      cases hgo
  refine ⟨hzero, hs.counted, fun hgo => ?_⟩
  have hcounted := hs.counted
  have := hzero hgo
  omega

/-- One buffer, which a second thread waits for until the first releases it. -/
def oneBuffer : List AllocatorAction :=
  [.setProperties 1, .commit true, .getBuffer false, .setRef 0, .getBuffer true, .getBuffer false,
    .release 0, .releaseBuffer 0]

theorem buffers_exclusive_one : ∃ s : CMemAllocator,
    Transition.Run step anyStep start oneBuffer s ∧ s.lFree = [0] ∧ s.cRef 0 = 0 ∧ 0 ∉ s.popped ∧
      0 ∉ s.returning ∧ s.lFree.count 0 = 1 := by
  have hrun : Transition.Run step anyStep start oneBuffer _ := Transition.run_of_exec rfl
  exact ⟨_, hrun, rfl, (buffers_exclusive _ _ hrun).1 0 (List.mem_singleton_self 0)⟩

theorem nobody_sleeps_one : ∃ s : CMemAllocator,
    Transition.Run step anyStep start oneBuffer s ∧ s.waiting = 1 ∧ s.missed = 1 ∧
      s.lWaiting = 0 ∧ s.waiting ≤ s.hSem := by
  have hrun : Transition.Run step anyStep start oneBuffer _ := Transition.run_of_exec rfl
  obtain ⟨hfree, -, hsem⟩ := nobody_sleeps _ _ hrun
  exact ⟨_, hrun, rfl, rfl, hfree (.inl (List.cons_ne_nil _ _)), hsem (.inl (List.cons_ne_nil _ _))⟩

end WinDV.CMemAllocator
