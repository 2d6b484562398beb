import WinDV.OutputPath

/-! What the recording thread writes reaches the tape in order and unchanged,
although the buffers are used again and again. -/

namespace WinDV

open QueuePacket

namespace CMemAllocator

theorem releaseRef_cRef (s : CMemAllocator) (i : Nat) :
    (s.releaseRef i).cRef = Function.update s.cRef i (s.cRef i - 1) := by
  unfold releaseRef step
  by_cases hi : s.cRef i > 0
  · by_cases hone : s.cRef i = 1 <;> simp [hi, hone]
  · have hzero : s.cRef i = 0 := Nat.eq_zero_of_not_pos hi
    have hsame : Function.update s.cRef i 0 = s.cRef := by rw [← hzero, Function.update_eq_self]
    simp [hzero, hsame]

theorem releaseRef_popped (s : CMemAllocator) (i : Nat) : (s.releaseRef i).popped = s.popped := by
  unfold releaseRef step
  by_cases hi : s.cRef i > 0
  · by_cases hone : s.cRef i = 1 <;> simp [hi, hone]
  · simp [hi]

theorem Homes.releaseRef {s : CMemAllocator} (hs : Homes s) (i : Nat) : Homes (s.releaseRef i) := by
  unfold CMemAllocator.releaseRef
  cases h : s.step (.release i) with
  | none => exact hs
  | some t => exact hs.step (steps_of_step h)

theorem releaseRefs_cRef (s : CMemAllocator) (l : List Nat) (i : Nat) :
    (s.releaseRefs l).cRef i = s.cRef i - l.count i := by
  induction l generalizing s with
  | nil => rfl
  | cons j l ih =>
    have hstep : s.releaseRefs (j :: l) = (s.releaseRef j).releaseRefs l := rfl
    rw [hstep, ih, releaseRef_cRef]
    by_cases hij : i = j
    · subst hij
      rw [Function.update_self, List.count_cons_self]
      omega
    · rw [Function.update_of_ne hij, List.count_cons_of_ne (Ne.symm hij)]

theorem releaseRefs_popped (s : CMemAllocator) (l : List Nat) :
    (s.releaseRefs l).popped = s.popped := by
  induction l generalizing s with
  | nil => rfl
  | cons j l ih => exact (ih _).trans (s.releaseRef_popped j)

theorem Homes.releaseRefs {s : CMemAllocator} (hs : Homes s) (l : List Nat) :
    Homes (s.releaseRefs l) := by
  induction l generalizing s with
  | nil => exact hs
  | cons j l ih => exact ih (hs.releaseRef j)

/-- A sample in the hands of a thread in `GetBuffer` has no references. -/
theorem Homes.popped_cRef {s : CMemAllocator} (hs : Homes s) {i : Nat} (hi : i ∈ s.popped) :
    s.cRef i = 0 := by
  have hcount := List.count_pos_iff.mpr hi
  have hone := hs.places_le_one i
  unfold places at hone
  by_contra hne
  rw [if_pos (Nat.pos_of_ne_zero hne)] at hone
  omega

/-- The actions of the allocator that hand nothing out and count no reference. -/
theorem refs_of_step {s t : CMemAllocator} {a : AllocatorAction} (h : s.step a = some t)
    (ha : (∃ n, a = .setProperties n) ∨ (∃ memory, a = .commit memory) ∨ a = .decommit ∨ a = .wake ∨
      a = .releaseSelf ∨ ∃ i, a = .releaseBuffer i) : t.cRef = s.cRef ∧ t.popped = s.popped := by
  rcases ha with ⟨n, rfl⟩ | ⟨memory, rfl⟩ | rfl | rfl | rfl | ⟨i, rfl⟩
  · obtain rfl := Option.some.inj h
    unfold setProperties
    repeat' split
    all_goals exact ⟨rfl, rfl⟩
  · obtain rfl := Option.some.inj h
    have halloc : (s.alloc memory).2.cRef = s.cRef ∧ (s.alloc memory).2.popped = s.popped := by
      unfold alloc
      dsimp only
      repeat' split
      all_goals exact ⟨rfl, rfl⟩
    unfold commit
    dsimp only
    repeat' split
    all_goals first
      | exact ⟨rfl, rfl⟩
      | exact halloc
  · obtain rfl := Option.some.inj h
    unfold decommit
    simp only [notifySample_eq]
    repeat' split
    all_goals exact ⟨rfl, rfl⟩
  · simp only [step, Option.ite_none_right_eq_some, Option.some.injEq] at h
    obtain ⟨-, rfl⟩ := h
    exact ⟨rfl, rfl⟩
  · simp only [step, Option.ite_none_right_eq_some, Option.some.injEq] at h
    obtain ⟨-, rfl⟩ := h
    exact ⟨rfl, rfl⟩
  · simp only [step, Option.ite_none_right_eq_some, Option.some.injEq] at h
    obtain ⟨-, rfl⟩ := h
    simp only [releaseBufferLocked, notifySample_eq]
    split <;> exact ⟨rfl, rfl⟩

end CMemAllocator

theorem PinCall.contents_eq (mem : Nat → MediaSample) (c : PinCall BufferRef Unit) :
    c.contents mem = (c.packets.filterMap sample?).map fun x => mem x.1 := by
  cases c <;> simp [PinCall.contents, PinCall.packets]

/-- The thread calls downstream with samples that it holds. -/
theorem OutputThreads.Steps.called_held {σ π : Type*} {s t : OutputThreads σ π}
    {a : OutputAction σ π} (h : OutputThreads.Steps s a t) : ∃ c, t.calls = s.calls ++ c ∧
      ∀ x ∈ (c.flatMap PinCall.packets).filterMap sample?, x ∈ s.held := by
  cases h
  case called batch pSample ht =>
    refine ⟨[.receiveMultiple batch], rfl, fun x hx => ?_⟩
    simpa [PinCall.packets, OutputThreads.held, ht, OutputPc.batch] using Or.inl hx
  case segmentSent p ht => exact ⟨[.newSegment p], rfl, by simp [PinCall.packets, List.filterMap_cons]⟩
  case endSent => exact ⟨[.endOfStream], rfl, by simp [PinCall.packets, List.filterMap_cons]⟩
  case flushSent => exact ⟨[.beginFlush], rfl, by simp [PinCall.packets]⟩
  case endFlushSent => exact ⟨[.endFlush], rfl, by simp [PinCall.packets]⟩
  all_goals exact ⟨[], (List.append_nil _).symm, by simp⟩

namespace HandlePc

/-- The references that the recording thread has to a buffer. -/
def refs : HandlePc → Nat → Nat
  | .writing _ j, i => if i = j then 1 else 0
  | .delivering _ j, i => if i = j then 1 else 0
  | .receiving _ j, i => if i = j then 2 else 0
  | .releasing j, i => if i = j then 1 else 0
  | _, _ => 0

/-- What it has taken off the free list, without a reference yet. -/
def inHand : HandlePc → List Nat
  | .popped _ i => [i]
  | _ => []

/-- The buffer that it has filled and not yet handed on. -/
def filled : HandlePc → Option BufferRef
  | .delivering m i => some (i, m)
  | .receiving m i => some (i, m)
  | _ => none

/-- The buffer that it is filling. -/
def filling : HandlePc → Option Nat
  | .writing _ i => some i
  | _ => none

end HandlePc

namespace OutputPath

/-- How many references the queue, the device and the recording thread have. -/
def uses (s : OutputPath) (i : Nat) : Nat :=
  (s.queue.held.map Prod.fst).count i + (s.device.map Prod.fst).count i + s.producer.refs i

/-- Every reference is counted, and who has one finds in the buffer what it was
filled with. -/
structure Sound (s : OutputPath) : Prop where
  homes : s.alloc.Homes
  inHand : s.alloc.popped = s.producer.inHand
  counted : ∀ i, s.alloc.cRef i = s.uses i
  intact : ∀ x ∈ s.queue.held ++ s.device, s.mem x.1 = x.2
  filled : ∀ x, s.producer.filled = some x → s.mem x.1 = x.2
  filling : ∀ i, s.producer.filling = some i →
    i ∉ s.queue.held.map Prod.fst ∧ i ∉ s.device.map Prod.fst
  tape : s.tape = (s.queue.sent.filterMap sample?).map Prod.snd

theorem Sound.queueStep {s t : OutputPath} {a : OutputAction BufferRef Unit} {pc : HandlePc}
    (hs : Sound s) (h : s.queueStep a = some t)
    (hrefs : ∀ i, s.producer.refs i = pc.refs i + (a.handedIn.map Prod.fst).count i)
    (hnew : ∀ x ∈ a.handedIn, s.mem x.1 = x.2) (hhand : pc.inHand = s.producer.inHand)
    (hfilled : ∀ x, pc.filled = some x → s.mem x.1 = x.2)
    (hfilling : ∀ i, pc.filling = some i → s.producer.filling = some i ∧ a.handedIn = []) :
    Sound { t with producer := pc } := by
  obtain ⟨q, hq, rfl⟩ := Option.map_eq_some_iff.mp h
  have hsteps := OutputThreads.steps_of_step hq
  obtain ⟨-, freed, hfreed, hperm⟩ := hsteps.released
  obtain ⟨c, hc, hcalled⟩ := hsteps.called_held
  have hheld : ∀ x ∈ q.held, x ∈ s.queue.held ++ a.handedIn :=
    fun x hx => hperm.mem_iff.mpr (List.mem_append_right _ hx)
  have hdrop : q.released.drop s.queue.released.length = freed := by rw [hfreed, List.drop_left]
  have hdrop' : q.calls.drop s.queue.calls.length = c := by rw [hc, List.drop_left]
  refine ⟨hs.homes.releaseRefs _, ?_, fun i => ?_, fun x hx => ?_, hfilled, fun i hi => ?_, ?_⟩
  · rw [hhand, ← hs.inHand]
    exact CMemAllocator.releaseRefs_popped _ _
  · have hcount := (hperm.map Prod.fst).count_eq i
    simp only [List.map_append, List.count_append] at hcount
    have huses := hs.counted i
    have hpc := hrefs i
    simp only [uses, hdrop, CMemAllocator.releaseRefs_cRef] at huses ⊢
    omega
  · rcases List.mem_append.mp hx with hx | hx
    · rcases List.mem_append.mp (hheld x hx) with hx | hx
      · exact hs.intact x (List.mem_append_left _ hx)
      · exact hnew x hx
    · exact hs.intact x (List.mem_append_right _ hx)
  · obtain ⟨hpc, hnone⟩ := hfilling i hi
    obtain ⟨hnot, hdev⟩ := hs.filling i hpc
    refine ⟨fun hin => hnot ?_, hdev⟩
    obtain ⟨x, hx, rfl⟩ := List.mem_map.mp hin
    have hx' := hheld x hx
    rw [hnone, List.append_nil] at hx'
    exact List.mem_map_of_mem hx'
  · have hread : c.flatMap (PinCall.contents s.mem) =
        ((c.flatMap PinCall.packets).filterMap sample?).map Prod.snd := by
      have hcontents : c.flatMap (PinCall.contents s.mem) =
          ((c.flatMap PinCall.packets).filterMap sample?).map fun x => s.mem x.1 := by
        rw [List.filterMap_flatMap, List.map_flatMap]
        exact congrArg (fun f => List.flatMap f c) (funext (PinCall.contents_eq s.mem))
      rw [hcontents]
      exact List.map_congr_left fun x hx => hs.intact x (List.mem_append_left _ (hcalled x hx))
    rw [hdrop', hs.tape, hread]
    simp only [OutputThreads.sent, hc, List.flatMap_append, List.filterMap_append, List.map_append]

/-- A step of the recording thread or of the allocator that touches no reference. -/
theorem Sound.allocStep {s : OutputPath} {alloc : CMemAllocator} {pc : HandlePc} (hs : Sound s)
    (homes : alloc.Homes) (hrefs : alloc.cRef = s.alloc.cRef) (hhand : alloc.popped = pc.inHand)
    (hpc : ∀ i, pc.refs i = s.producer.refs i)
    (hfilled : ∀ x, pc.filled = some x → s.producer.filled = some x)
    (hfilling : ∀ i, pc.filling = some i → s.producer.filling = some i) :
    Sound { s with alloc := alloc, producer := pc } := by
  refine ⟨homes, hhand, fun i => ?_, hs.intact, fun x hx => hs.filled x (hfilled x hx),
    fun i hi => hs.filling i (hfilling i hi), hs.tape⟩
  rw [uses, hpc, hrefs]
  exact hs.counted i

theorem Sound.gotBuffer {s : OutputPath} {m : MediaSample} (hs : Sound s)
    (hpc : s.producer = .getting m ∨ s.producer = .retrying m) (w : Nat) :
    Sound (s.gotBuffer m { s.alloc with woken := w }.getBufferLocked) := by
  have hrefs (i : Nat) : s.producer.refs i = 0 := by rcases hpc with hpc | hpc <;> rw [hpc] <;> rfl
  have hhand : s.alloc.popped = [] := by
    rw [hs.inHand]
    rcases hpc with hpc | hpc <;> rw [hpc] <;> rfl
  unfold CMemAllocator.getBufferLocked
  cases hc : s.alloc.bCommitted with
  | false =>
    have homes := hs.homes.step (.unchanged w)
    rw [← hc]
    simp only [hc, Bool.not_false, if_true]
    rw [← hc]
    exact hs.allocStep homes rfl hhand (fun i => (hrefs i).symm) (by simp [HandlePc.filled])
      (by simp [HandlePc.filling])
  | true =>
    cases hf : s.alloc.lFree with
    | nil =>
      have homes := hs.homes.step (.slept w hc hf)
      simp only [Bool.not_true, Bool.false_eq_true, if_false]
      rw [← hc, ← hf]
      exact hs.allocStep homes rfl hhand (fun i => (hrefs i).symm) (by simp [HandlePc.filled])
        (by simp [HandlePc.filling])
    | cons i lFree =>
      have homes := hs.homes.step (.gave i lFree w hc hf)
      simp only [Bool.not_true, Bool.false_eq_true, if_false]
      rw [← hc]
      exact hs.allocStep homes rfl (congrArg (i :: ·) hhand) (fun i => (hrefs i).symm)
        (by simp [HandlePc.filled]) (by simp [HandlePc.filling])

theorem Sound.popped {s : OutputPath} {m : MediaSample} {i : Nat} (hs : Sound s)
    (hpc : s.producer = .popped m i) : s.alloc.cRef i = 0 ∧ s.uses i = 0 := by
  have hzero := hs.homes.popped_cRef (i := i) (by rw [hs.inHand, hpc]; exact List.mem_singleton_self i)
  exact ⟨hzero, hs.counted i ▸ hzero⟩

theorem Sound.setRef {s : OutputPath} {m : MediaSample} {i : Nat} (hs : Sound s)
    (hpc : s.producer = .popped m i) (hi : i ∈ s.alloc.popped) :
    Sound { s with
      alloc := { s.alloc with
        popped := s.alloc.popped.erase i, cRef := Function.update s.alloc.cRef i 1 }
      producer := .writing m i } := by
  have huses := (hs.popped hpc).2
  unfold uses at huses
  refine ⟨hs.homes.step (.refSet i hi), ?_, fun j => ?_, hs.intact, by simp [HandlePc.filled],
    fun j hj => ?_, hs.tape⟩
  · simp [hs.inHand, hpc, HandlePc.inHand]
  · have hcounted := hs.counted j
    simp only [uses, hpc, HandlePc.refs] at hcounted ⊢
    by_cases hij : j = i
    · subst hij
      rw [Function.update_self, if_pos rfl]
      omega
    · rw [Function.update_of_ne hij, if_neg hij]
      exact hcounted
  · obtain rfl := Option.some.inj hj
    constructor
    · apply List.count_eq_zero.mp
      dsimp only
      omega
    · apply List.count_eq_zero.mp
      dsimp only
      omega

/-- Nobody else has a reference to the buffer that is filled. -/
theorem Sound.write {s : OutputPath} {m : MediaSample} {i : Nat} (hs : Sound s)
    (hpc : s.producer = .writing m i) :
    Sound { s with mem := Function.update s.mem i m, producer := .delivering m i } := by
  obtain ⟨hheld, hdev⟩ := hs.filling i (by rw [hpc]; rfl)
  refine ⟨hs.homes, ?_, fun j => ?_, fun x hx => ?_, fun x hx => ?_, by simp [HandlePc.filling],
    hs.tape⟩
  · rw [hs.inHand, hpc]
    rfl
  · have hcounted := hs.counted j
    rw [uses, hpc] at hcounted
    exact hcounted
  · have hne : x.1 ≠ i := by
      rintro rfl
      rcases List.mem_append.mp hx with hx | hx
      · exact hheld (List.mem_map_of_mem hx)
      · exact hdev (List.mem_map_of_mem hx)
    exact (Function.update_of_ne hne _ _).trans (hs.intact x hx)
  · obtain rfl := Option.some.inj hx
    exact Function.update_self _ _ _

theorem Sound.deliver {s : OutputPath} {m : MediaSample} {i : Nat} (hs : Sound s)
    (hpc : s.producer = .delivering m i) (hpos : 0 < s.alloc.cRef i) :
    Sound { s with
      alloc := { s.alloc with cRef := Function.update s.alloc.cRef i (s.alloc.cRef i + 1) }
      producer := .receiving m i } := by
  refine ⟨hs.homes.step (.refAdded i hpos), ?_, fun j => ?_, hs.intact,
    fun x hx => hs.filled x (by rw [hpc]; exact hx), by simp [HandlePc.filling], hs.tape⟩
  · simp [hs.inHand, hpc, HandlePc.inHand]
  · have hcounted := hs.counted j
    simp only [uses, hpc, HandlePc.refs] at hcounted ⊢
    by_cases hij : j = i
    · subst hij
      rw [Function.update_self, hcounted]
      simp
    · rw [Function.update_of_ne hij, hcounted]
      simp [hij]

theorem Sound.release {s : OutputPath} {pc : HandlePc} {i : Nat} (hs : Sound s)
    (hpc : ∀ j, s.producer.refs j = pc.refs j + if j = i then 1 else 0)
    (hhand : s.producer.inHand = pc.inHand) (hfilled : pc.filled = none)
    (hfilling : pc.filling = none) :
    Sound { s with alloc := s.alloc.releaseRef i, producer := pc } := by
  refine ⟨hs.homes.releaseRef i, ?_, fun j => ?_, hs.intact, fun x hx => ?_, fun j hj => ?_, hs.tape⟩
  · rw [CMemAllocator.releaseRef_popped, hs.inHand, hhand]
  · have hcounted := hs.counted j
    simp only [uses, hpc, CMemAllocator.releaseRef_cRef] at hcounted ⊢
    by_cases hij : j = i
    · subst hij
      rw [if_pos rfl] at hcounted
      rw [Function.update_self]
      omega
    · rw [Function.update_of_ne hij, hcounted]
      simp [hij]
  · rw [hfilled] at hx
    cases hx
  · rw [hfilling] at hj
    cases hj

theorem Sound.producerStep {s t : OutputPath} (hs : Sound s) (h : s.producerStep = some t) :
    Sound t := by
  unfold OutputPath.producerStep at h
  split at h
  · cases h
  · next m hpc =>
    obtain rfl := Option.some.inj h
    exact hs.gotBuffer (.inl hpc) s.alloc.woken
  · next m hpc =>
    obtain ⟨alloc, hstep, rfl⟩ := Option.map_eq_some_iff.mp h
    obtain ⟨hrefs, hpopped⟩ := CMemAllocator.refs_of_step hstep (.inr (.inr (.inr (.inl rfl))))
    refine hs.allocStep (hs.homes.step (CMemAllocator.steps_of_step hstep)) hrefs ?_ (fun i => ?_)
      (by simp [HandlePc.filled]) (by simp [HandlePc.filling])
    · rw [hpopped, hs.inHand, hpc]
      rfl
    · rw [hpc]
      rfl
  · next m hpc =>
    obtain rfl := Option.some.inj h
    exact hs.gotBuffer (.inr hpc) _
  · next m i hpc =>
    have hi : i ∈ s.alloc.popped := by
      rw [hs.inHand, hpc]
      exact List.mem_singleton_self i
    rw [CMemAllocator.step, if_pos hi] at h
    obtain rfl := Option.some.inj h
    exact hs.setRef hpc hi
  · next m i hpc =>
    obtain rfl := Option.some.inj h
    exact hs.write hpc
  · next m i hpc =>
    have hpos : 0 < s.alloc.cRef i := by
      rw [hs.counted, uses, hpc]
      simp [HandlePc.refs]
    rw [CMemAllocator.step, if_pos hpos] at h
    obtain rfl := Option.some.inj h
    exact hs.deliver hpc hpos
  · next m i hpc =>
    obtain ⟨u, hu, rfl⟩ := Option.map_eq_some_iff.mp h
    refine hs.queueStep hu (fun j => ?_) (fun x hx => ?_) ?_ (by simp [HandlePc.filled])
      (by simp [HandlePc.filling])
    · rw [hpc]
      by_cases hij : j = i
      · simp [HandlePc.refs, OutputAction.handedIn, hij]
      · simp [HandlePc.refs, OutputAction.handedIn, hij, Ne.symm hij]
    · obtain rfl := List.mem_singleton.mp hx
      exact hs.filled _ (by rw [hpc]; rfl)
    · rw [hpc]
      rfl
  · next i hpc =>
    obtain rfl := Option.some.inj h
    apply hs.release
    · intro j
      rw [hpc]
      simp [HandlePc.refs]
    · rw [hpc]
      rfl
    · rfl
    · rfl
  · cases h

/-- A call that hands the queue nothing, or a step of the queue's threads. -/
theorem Sound.otherStep {s t : OutputPath} {a : OutputAction BufferRef Unit} (hs : Sound s)
    (h : s.queueStep a = some t) (ha : a.handedIn = []) : Sound t := by
  have hpc : t.producer = s.producer := by
    obtain ⟨q, -, rfl⟩ := Option.map_eq_some_iff.mp h
    rfl
  have hsound : Sound { t with producer := s.producer } :=
    hs.queueStep h (by simp [ha]) (by simp [ha]) rfl hs.filled fun i hi => ⟨hi, ha⟩
  rwa [← hpc] at hsound

theorem Sound.keep {s : OutputPath} {x : BufferRef} (hs : Sound s) (hx : x ∈ s.seen)
    (hpos : 0 < s.alloc.cRef x.1) :
    Sound { s with
      alloc := { s.alloc with cRef := Function.update s.alloc.cRef x.1 (s.alloc.cRef x.1 + 1) }
      device := x :: s.device } := by
  have hheld : x ∈ s.queue.held ++ s.device := by
    unfold seen at hx
    split at hx
    · next batch pSample ht =>
      rcases List.mem_append.mp hx with hx | hx
      · apply List.mem_append_left
        simp [OutputThreads.held, ht, OutputPc.batch, hx]
      · exact List.mem_append_right _ hx
    · exact List.mem_append_right _ hx
  have hmem := hs.intact x hheld
  refine ⟨hs.homes.step (.refAdded x.1 hpos), hs.inHand, fun j => ?_, fun y hy => ?_, hs.filled,
    fun j hj => ?_, hs.tape⟩
  · have hcounted := hs.counted j
    simp only [uses, List.map_cons] at hcounted ⊢
    by_cases hij : j = x.1
    · subst hij
      rw [Function.update_self, List.count_cons_self]
      omega
    · rw [Function.update_of_ne hij, List.count_cons_of_ne (Ne.symm hij)]
      exact hcounted
  · rcases List.mem_append.mp hy with hy | hy
    · exact hs.intact y (List.mem_append_left _ hy)
    · rcases List.mem_cons.mp hy with rfl | hy
      · exact hmem
      · exact hs.intact y (List.mem_append_right _ hy)
  · obtain ⟨hnot, hdev⟩ := hs.filling j hj
    refine ⟨hnot, ?_⟩
    rw [List.map_cons, List.mem_cons, not_or]
    refine ⟨?_, hdev⟩
    rintro rfl
    rcases List.mem_append.mp hheld with hx' | hx'
    · exact hnot (List.mem_map_of_mem hx')
    · exact hdev (List.mem_map_of_mem hx')

theorem Sound.drop {s : OutputPath} {x : BufferRef} (hs : Sound s) (hx : x ∈ s.device) :
    Sound { s with alloc := s.alloc.releaseRef x.1, device := s.device.erase x } := by
  have hperm := List.perm_cons_erase hx
  refine ⟨hs.homes.releaseRef x.1, ?_, fun j => ?_, fun y hy => ?_, hs.filled, fun j hj => ?_, hs.tape⟩
  · rw [CMemAllocator.releaseRef_popped, hs.inHand]
  · have hcounted := hs.counted j
    have hcount := (hperm.map Prod.fst).count_eq j
    simp only [uses, CMemAllocator.releaseRef_cRef] at hcounted ⊢
    rw [List.map_cons] at hcount
    by_cases hij : j = x.1
    · subst hij
      rw [List.count_cons_self] at hcount
      rw [Function.update_self]
      omega
    · rw [List.count_cons_of_ne (Ne.symm hij)] at hcount
      rw [Function.update_of_ne hij]
      omega
  · rcases List.mem_append.mp hy with hy | hy
    · exact hs.intact y (List.mem_append_left _ hy)
    · exact hs.intact y (List.mem_append_right _ (List.mem_of_mem_erase hy))
  · obtain ⟨hnot, hdev⟩ := hs.filling j hj
    refine ⟨hnot, fun hin => hdev ?_⟩
    obtain ⟨y, hy, rfl⟩ := List.mem_map.mp hin
    exact List.mem_map_of_mem (List.mem_of_mem_erase hy)

theorem Sound.allocAction {s : OutputPath} {alloc : CMemAllocator} {a : AllocatorAction}
    (hs : Sound s) (h : s.alloc.step a = some alloc)
    (ha : (∃ n, a = .setProperties n) ∨ (∃ memory, a = .commit memory) ∨ a = .decommit ∨ a = .wake ∨
      a = .releaseSelf ∨ ∃ i, a = .releaseBuffer i) : Sound { s with alloc := alloc } := by
  obtain ⟨hrefs, hpopped⟩ := CMemAllocator.refs_of_step h ha
  exact hs.allocStep (hs.homes.step (CMemAllocator.steps_of_step h)) hrefs
    (hpopped.trans hs.inHand) (fun _ => rfl) (fun _ => id) fun _ => id

theorem Sound.step {s t : OutputPath} {a : OutputPathAction} (hs : Sound s)
    (h : s.step a = some t) : Sound t := by
  cases a with
  | handleFrame m =>
    simp only [OutputPath.step, Option.ite_none_right_eq_some, Option.some.injEq] at h
    obtain ⟨⟨hpc, -⟩, rfl⟩ := h
    apply hs.allocStep hs.homes rfl
    · rw [hs.inHand, hpc]
      rfl
    · intro i
      rw [hpc]
      rfl
    · intro x hx
      cases hx
    · intro i hi
      cases hi
  | producer => exact hs.producerStep h
  | noPointer =>
    simp only [OutputPath.step] at h
    split at h
    · next m i hpc =>
      obtain rfl := Option.some.inj h
      apply hs.release
      · intro j
        rw [hpc]
        simp [HandlePc.refs]
      · rw [hpc]
        rfl
      · rfl
      · rfl
    · cases h
  | deliverEndOfStream => exact hs.otherStep h rfl
  | inactive =>
    simp only [OutputPath.step, Option.ite_none_right_eq_some] at h
    exact hs.otherStep h.2 rfl
  | inactiveNext => exact hs.otherStep h rfl
  | queueThread => exact hs.otherStep h rfl
  | receiveReturns hr => exact hs.otherStep h rfl
  | keep x =>
    simp only [OutputPath.step, CMemAllocator.step, Option.ite_none_right_eq_some,
      Option.map_eq_some_iff, Option.some.injEq] at h
    obtain ⟨hx, alloc, ⟨hpos, rfl⟩, rfl⟩ := h
    exact hs.keep hx hpos
  | drop x =>
    simp only [OutputPath.step, Option.ite_none_right_eq_some, Option.some.injEq] at h
    obtain ⟨hx, rfl⟩ := h
    exact hs.drop hx
  | setProperties n =>
    simp only [OutputPath.step, Option.map_eq_some_iff] at h
    obtain ⟨alloc, hstep, rfl⟩ := h
    exact hs.allocAction hstep (.inl ⟨n, rfl⟩)
  | commit memory =>
    simp only [OutputPath.step, Option.map_eq_some_iff] at h
    obtain ⟨alloc, hstep, rfl⟩ := h
    exact hs.allocAction hstep (.inr (.inl ⟨memory, rfl⟩))
  | decommit =>
    simp only [OutputPath.step, Option.map_eq_some_iff] at h
    obtain ⟨alloc, hstep, rfl⟩ := h
    exact hs.allocAction hstep (.inr (.inr (.inl rfl)))
  | releaseBuffer i =>
    simp only [OutputPath.step, Option.map_eq_some_iff] at h
    obtain ⟨alloc, hstep, rfl⟩ := h
    exact hs.allocAction hstep (.inr (.inr (.inr (.inr (.inr ⟨i, rfl⟩)))))
  | releaseSelf =>
    simp only [OutputPath.step, Option.map_eq_some_iff] at h
    obtain ⟨alloc, hstep, rfl⟩ := h
    exact hs.allocAction hstep (.inr (.inr (.inr (.inr (.inl rfl)))))

abbrev anyStep : OutputPath → OutputPathAction → Prop := fun _ _ => True

theorem sound_of_run {memory : Nat → MediaSample} {acts : List OutputPathAction} {s : OutputPath}
    (hrun : Transition.Run step anyStep (start memory) acts s) : Sound s := by
  apply hrun.invariant
  · intro t a u hinv _ hstep
    exact hinv.step hstep
  · refine ⟨CMemAllocator.homes_of_run (.nil _), rfl, fun i => rfl, fun x hx => ?_, fun x hx => ?_,
      fun i hi => ?_, rfl⟩
    · cases hx
    · cases hx
    · cases hi

/-- `ReceiveMultiple` of the device succeeds, and the pin stays active. -/
def Healthy : OutputPathAction → Prop
  | .receiveReturns hr => hr = COutputQueue.S_OK
  | .inactive => False
  | _ => True

theorem queue_of_queueStep {s t : OutputPath} {a : OutputAction BufferRef Unit}
    (h : s.queueStep a = some t) : s.queue.step a = some t.queue := by
  obtain ⟨q, hq, rfl⟩ := Option.map_eq_some_iff.mp h
  exact hq

theorem queue_of_producerStep {s t : OutputPath} (h : s.producerStep = some t) :
    t.queue = s.queue ∨ ∃ x, s.queue.step (.receiveMultiple [x]) = some t.queue := by
  have hgot (m : MediaSample) (r : BufferOutcome × CMemAllocator) :
      (s.gotBuffer m r).queue = s.queue := by
    obtain ⟨o, alloc⟩ := r
    cases o <;> rfl
  unfold producerStep at h
  split at h
  · cases h
  · obtain rfl := Option.some.inj h
    exact .inl (hgot _ _)
  · obtain ⟨alloc, -, rfl⟩ := Option.map_eq_some_iff.mp h
    exact .inl rfl
  · obtain rfl := Option.some.inj h
    exact .inl (hgot _ _)
  · obtain ⟨alloc, -, rfl⟩ := Option.map_eq_some_iff.mp h
    exact .inl rfl
  · obtain rfl := Option.some.inj h
    exact .inl rfl
  · obtain ⟨alloc, -, rfl⟩ := Option.map_eq_some_iff.mp h
    exact .inl rfl
  · next m i _ =>
    obtain ⟨u, hu, rfl⟩ := Option.map_eq_some_iff.mp h
    have hstep := queue_of_queueStep hu
    exact .inr ⟨(i, m), hstep⟩
  · obtain rfl := Option.some.inj h
    exact .inl rfl
  · cases h

/-- A step is none of the queue, or one that a pin takes. -/
theorem queue_of_step {s t : OutputPath} {a : OutputPathAction} (h : s.step a = some t) :
    t.queue = s.queue ∨
      ∃ a', s.queue.step a' = some t.queue ∧ a'.OfPin ∧ (Healthy a → a'.Healthy) := by
  cases a with
  | producer =>
    rcases queue_of_producerStep h with hsame | ⟨x, hx⟩
    · exact .inl hsame
    · exact .inr ⟨_, hx, by simp [OutputAction.OfPin], fun _ => trivial⟩
  | noPointer =>
    simp only [step] at h
    split at h
    · obtain rfl := Option.some.inj h
      exact .inl rfl
    · cases h
  | deliverEndOfStream =>
    exact .inr ⟨_, queue_of_queueStep h, by simp [OutputAction.OfPin], fun _ => trivial⟩
  | inactive =>
    simp only [step, Option.ite_none_right_eq_some] at h
    exact .inr ⟨_, queue_of_queueStep h.2, by simp [OutputAction.OfPin], id⟩
  | inactiveNext =>
    exact .inr ⟨_, queue_of_queueStep h, by simp [OutputAction.OfPin], fun _ => trivial⟩
  | queueThread =>
    exact .inr ⟨_, queue_of_queueStep h, by simp [OutputAction.OfPin], fun _ => trivial⟩
  | receiveReturns hr =>
    exact .inr ⟨_, queue_of_queueStep h, by simp [OutputAction.OfPin], id⟩
  | _ =>
    left
    simp only [step, Option.ite_none_right_eq_some, Option.map_eq_some_iff, Option.some.injEq] at h
    first
      | obtain ⟨-, rfl⟩ := h; rfl
      | obtain ⟨-, -, -, rfl⟩ := h; rfl

/-- The queue's part in a run. -/
theorem queue_run {memory : Nat → MediaSample} {acts : List OutputPathAction} {s : OutputPath}
    (hrun : Transition.Run step anyStep (start memory) acts s) :
    ∃ acts', Transition.Run OutputThreads.step OutputThreads.anyStep (.start 1 false false) acts'
      s.queue ∧ ∀ a ∈ acts', a.OfPin ∧ ((∀ b ∈ acts, Healthy b) → a.Healthy) := by
  have hhealthy := hrun.restrict (p := fun b => (∀ b ∈ acts, Healthy b) → Healthy b)
    fun b hb hall => hall b hb
  have hrun' : ∃ acts', Transition.Run OutputThreads.step
      (fun _ a => a.OfPin ∧ ((∀ b ∈ acts, Healthy b) → a.Healthy)) (.start 1 false false) acts'
      s.queue := by
    apply hhealthy.project queue
    intro t b u hok hstep
    rcases queue_of_step hstep with hsame | ⟨a, ha, hpin, hb⟩
    · rw [hsame]
      exact ⟨[], .nil _⟩
    · exact ⟨[a], .single ⟨hpin, fun hall => hb (hok.2 hall)⟩ ha⟩
  obtain ⟨acts', hrun'⟩ := hrun'
  exact ⟨acts', hrun'.mono fun _ _ _ => trivial, hrun'.forall_of_ok⟩

theorem filterMap_sample?_isData {σ π : Type*} (l : List (QueuePacket σ π)) :
    (l.filter isData).filterMap sample? = l.filterMap sample? := by
  induction l with
  | nil => rfl
  | cons p l ih => cases p <;> simp [List.filterMap_cons, List.filter_cons, ih]

/-- The frames that `Receive` of the queue accepted, in order. -/
def accepted (s : OutputPath) : List MediaSample := (s.queue.queued.filterMap sample?).map Prod.snd

theorem tape_of_run {memory : Nat → MediaSample} {acts : List OutputPathAction} {s : OutputPath}
    (hrun : Transition.Run step anyStep (start memory) acts s) : s.tape <+: s.accepted := by
  obtain ⟨acts', hqueue, hacts⟩ := queue_run hrun
  rw [(sound_of_run hrun).tape, accepted, ← filterMap_sample?_isData s.queue.sent,
    ← filterMap_sample?_isData s.queue.queued]
  have hbefore := OutputThreads.data_of_run hqueue fun a ha => (hacts a ha).1
  exact (hbefore.filterMap sample?).map Prod.snd

theorem tape_of_asleep {memory : Nat → MediaSample} {acts : List OutputPathAction} {s : OutputPath}
    (hrun : Transition.Run step anyStep (start memory) acts s) (hwait : s.queue.thread = .waiting)
    (hsem : s.queue.q.hSem = 0) (hall : ∀ a ∈ acts, Healthy a) : s.tape = s.accepted := by
  obtain ⟨acts', hqueue, hacts⟩ := queue_run hrun
  have hsent := OutputThreads.sent_all_of_asleep Nat.one_pos hqueue hwait hsem
    fun a ha => (hacts a ha).2 hall
  rw [(sound_of_run hrun).tape, accepted, ← filterMap_sample?_isData s.queue.sent, hsent,
    filterMap_sample?_isData]

/-- The device reads the frames that the queue accepted, in order and as
`HandleFrame` wrote them, although buffers are used again; a buffer that it keeps
stays as it was. When the queue's thread sleeps, it has read all of them, unless a
call failed or the pin became inactive. -/
theorem tape_in_order (memory : Nat → MediaSample) (acts : List OutputPathAction) (s : OutputPath)
    (hrun : Transition.Run step anyStep (start memory) acts s) :
    s.tape <+: s.accepted ∧ (∀ x ∈ s.device, s.mem x.1 = x.2) ∧
      (s.queue.thread = .waiting → s.queue.q.hSem = 0 → (∀ a ∈ acts, Healthy a) →
        s.tape = s.accepted) := by
  have hs := sound_of_run hrun
  exact ⟨tape_of_run hrun, fun x hx => hs.intact x (List.mem_append_right _ hx), tape_of_asleep hrun⟩

/-- Two frames through the same buffer. -/
def oneBuffer : List OutputPathAction :=
  let frame (m : MediaSample) : List OutputPathAction :=
    [.handleFrame m, .producer, .producer, .producer, .producer, .producer, .producer, .queueThread,
      .queueThread, .queueThread, .receiveReturns COutputQueue.S_OK, .queueThread, .queueThread,
      .releaseBuffer 0, .queueThread]
  [.setProperties 1, .commit true] ++ frame ⟨none, [1]⟩ ++ frame ⟨none, [2]⟩ ++ [.queueThread]

theorem tape_in_order_one : ∃ s : OutputPath,
    Transition.Run step anyStep (start fun _ => ⟨none, []⟩) oneBuffer s ∧
      s.tape = [⟨none, [1]⟩, ⟨none, [2]⟩] ∧ s.tape <+: s.accepted ∧ s.tape = s.accepted := by
  have hrun : Transition.Run step anyStep (start fun _ => ⟨none, []⟩) oneBuffer _ :=
    Transition.run_of_exec rfl
  obtain ⟨hbefore, -, hall⟩ := tape_in_order _ _ _ hrun
  exact ⟨_, hrun, rfl, hbefore, hall rfl rfl (by simp [oneBuffer, Healthy])⟩

end OutputPath

end WinDV
