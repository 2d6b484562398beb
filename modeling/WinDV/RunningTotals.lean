import Mathlib.Data.Finset.Card
import Mathlib.Algebra.BigOperators.Group.List.Basic
import Mathlib.Algebra.Order.BigOperators.Group.List
import Mathlib.Data.UInt

/-! What a fold adds up, and the running maximum of a list with the first place
that attains it. -/

variable {σ α M : Type*}

/-- What every step of a fold adds to comes to the sum over the list. -/
theorem foldl_eq_add_sum [AddMonoid M] {step : σ → α → σ} {total : σ → M} {weight : α → M}
    (h : ∀ s a, total (step s a) = total s + weight a) (s : σ) (l : List α) :
    total (l.foldl step s) = total s + (l.map weight).sum := by
  induction l generalizing s with
  | nil => rw [List.foldl_nil, List.map_nil, List.sum_nil, add_zero]
  | cons a l ih => rw [List.foldl_cons, ih, h, List.map_cons, List.sum_cons, add_assoc]

/-- A sum of words that stays below the word size does not wrap. -/
theorem UInt32.toNat_sum {ws : List UInt32} (h : (ws.map UInt32.toNat).sum < 2 ^ 32) :
    ws.sum.toNat = (ws.map UInt32.toNat).sum := by
  induction ws with
  | nil => rfl
  | cons w ws ih =>
    rw [List.map_cons, List.sum_cons] at h ⊢
    have htail := ih (Nat.lt_of_le_of_lt (Nat.le_add_left _ _) h)
    rw [List.sum_cons, UInt32.toNat_add, htail, Nat.mod_eq_of_lt h]

/-- A counter of words that goes up by one for some elements of a list counts them. -/
theorem UInt32.toNat_sum_ite {l : List α} (hlen : l.length < 2 ^ 32) (p : α → Prop)
    [DecidablePred p] :
    (l.map fun a => if p a then (1 : UInt32) else 0).sum.toNat = l.countP fun a => p a := by
  have hones : ((l.map fun a => if p a then (1 : UInt32) else 0).map UInt32.toNat).sum =
      l.countP fun a => p a := by
    clear hlen
    induction l with
    | nil => rfl
    | cons a l ih =>
      rw [List.map_cons, List.map_cons, List.sum_cons, ih, List.countP_cons]
      by_cases hp : p a
      · simp only [hp, if_true, decide_true]
        exact Nat.add_comm _ _
      · simp only [hp, if_false, decide_false]
        exact Nat.zero_add _
  rw [UInt32.toNat_sum (hones ▸ List.countP_le_length.trans_lt hlen), hones]

section FirstMax

variable {β : Type*} [LinearOrder β] [OrderBot β]

/-- `best` is the largest value of `f` on the list, `place` the first place that
attains it; `⊥` and 0 where no value is above `⊥`. -/
structure FirstMax (f : α → β) (l : List α) (best : β) (place : Nat) : Prop where
  le : ∀ a ∈ l, f a ≤ best
  attained : best = ⊥ ∧ place = 0 ∨ ∃ a, l[place]? = some a ∧ f a = best
  first : ∀ k a, k < place → l[k]? = some a → f a < best

namespace FirstMax

variable {f : α → β} {l : List α} {best : β} {place : Nat} {a : α}

theorem nil (f : α → β) : FirstMax f [] ⊥ 0 :=
  ⟨nofun, .inl ⟨rfl, rfl⟩, fun _ _ h => absurd h (Nat.not_lt_zero _)⟩

theorem place_le (h : FirstMax f l best place) : place ≤ l.length := by
  obtain ⟨-, rfl⟩ | ⟨a, ha, -⟩ := h.attained
  · exact Nat.zero_le _
  · exact (List.getElem?_eq_some_iff.mp ha).1.le

theorem concat_of_lt (h : FirstMax f l best place) (hlt : best < f a) :
    FirstMax f (l ++ [a]) (f a) l.length where
  le b hb := by
    obtain hb | hb := List.mem_append.mp hb
    · exact (h.le b hb).trans hlt.le
    · rw [List.mem_singleton.mp hb]
  attained := .inr ⟨a, by simp, rfl⟩
  first k b hk hb := by
    rw [List.getElem?_append_left hk] at hb
    exact (h.le b (List.mem_of_getElem? hb)).trans_lt hlt

theorem concat_of_le (h : FirstMax f l best place) (hle : f a ≤ best) :
    FirstMax f (l ++ [a]) best place where
  le b hb := by
    obtain hb | hb := List.mem_append.mp hb
    · exact h.le b hb
    · rw [List.mem_singleton.mp hb]
      exact hle
  attained := h.attained.imp_right fun ⟨b, hb, heq⟩ =>
    ⟨b, List.getElem?_append_left (List.getElem?_eq_some_iff.mp hb).1 ▸ hb, heq⟩
  first k b hk hb := by
    rw [List.getElem?_append_left (hk.trans_le h.place_le)] at hb
    exact h.first k b hk hb

theorem place_eq_zero (h : FirstMax f l best place) (hbot : ∀ a ∈ l, f a = ⊥) : place = 0 := by
  obtain ⟨-, hzero⟩ | ⟨a, ha, rfl⟩ := h.attained
  · exact hzero
  · by_contra hne
    obtain ⟨hlt, rfl⟩ := List.getElem?_eq_some_iff.mp ha
    have hbefore := h.first 0 l[0] (Nat.pos_of_ne_zero hne)
      (List.getElem?_eq_getElem (Nat.zero_lt_of_lt hlt))
    rw [hbot _ (List.getElem_mem hlt)] at hbefore
    exact not_lt_bot hbefore

theorem best_eq_of_perm {l' : List α} {best' : β} {place' : Nat} (h : FirstMax f l best place)
    (h' : FirstMax f l' best' place') (hperm : l.Perm l') : best = best' := by
  have hle {l l' : List α} {b b' : β} {p p' : Nat} (h : FirstMax f l b p) (h' : FirstMax f l' b' p')
      (hperm : l.Perm l') : b ≤ b' := by
    obtain ⟨rfl, -⟩ | ⟨a, ha, rfl⟩ := h.attained
    · exact bot_le
    · exact h'.le a (hperm.mem_iff.mp (List.mem_of_getElem? ha))
  exact le_antisymm (hle h h' hperm) (hle h' h hperm.symm)

end FirstMax

end FirstMax
