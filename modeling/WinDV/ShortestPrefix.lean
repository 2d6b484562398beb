import Mathlib.Algebra.BigOperators.Group.List.Basic
import Mathlib.Algebra.Order.Ring.Int
import Mathlib.Data.List.Infix

/-! The shortest prefix of a growing list whose weights come to a limit, and the
sublist of the elements at chosen places. -/

variable {α : Type*}

def totalWeight (weight : α → Int) (l : List α) : Int := (l.map weight).sum

theorem totalWeight_concat (weight : α → Int) (l : List α) (a : α) :
    totalWeight weight (l ++ [a]) = totalWeight weight l + weight a := by
  rw [totalWeight, List.map_append, List.sum_append, List.map_singleton, List.sum_singleton]
  rfl

/-- `p` is the shortest prefix of `l` that comes to `T`, or all of `l` if none does. -/
structure ShortestPrefix (weight : α → Int) (T : Int) (l p : List α) : Prop where
  isPrefix : p <+: l
  minimal : ∀ q, q <+: p → q ≠ p → totalWeight weight q < T
  enough : T ≤ totalWeight weight p ∨ p = l

namespace ShortestPrefix

variable {weight : α → Int} {T M : Int} {l p : List α}

theorem nil (weight : α → Int) (T : Int) : ShortestPrefix weight T ([] : List α) [] :=
  ⟨List.prefix_rfl, fun _ hq hne => absurd (List.prefix_nil.mp hq) hne, .inr rfl⟩

/-- Below the limit the prefix takes in the next element. -/
theorem extend (h : ShortestPrefix weight T l l) (hlt : totalWeight weight l < T) (a : α) :
    ShortestPrefix weight T (l ++ [a]) (l ++ [a]) := by
  refine ⟨List.prefix_rfl, fun q hq hne => ?_, .inr rfl⟩
  obtain rfl | hq := List.prefix_concat_iff.mp hq
  · exact absurd rfl hne
  · by_cases heq : q = l
    · rw [heq]
      exact hlt
    · exact h.minimal q hq heq

/-- From the limit on the list may grow without it. -/
theorem stay (h : ShortestPrefix weight T l p) (henough : T ≤ totalWeight weight p) (a : α) :
    ShortestPrefix weight T (l ++ [a]) p :=
  ⟨h.isPrefix.trans (List.prefix_append l [a]), h.minimal, .inl henough⟩

theorem lt_add (h : ShortestPrefix weight T l p) (hT : 0 < T) (henough : T ≤ totalWeight weight p)
    (hM : ∀ a ∈ p, weight a ≤ M) : totalWeight weight p < T + M := by
  rcases List.eq_nil_or_concat p with rfl | ⟨q, a, rfl⟩
  · exact absurd henough (Int.not_le.mpr hT)
  · rw [List.concat_eq_append] at h hM ⊢
    have hlast := hM a (List.mem_append_right q List.mem_cons_self)
    have hlt := h.minimal q (List.prefix_append q [a]) (by simp)
    rw [totalWeight_concat]
    omega

end ShortestPrefix

def thinned (keep : Nat → Bool) (l : List α) : List α :=
  (l.zipIdx.filter fun x => keep x.2).map Prod.fst

theorem thinned_concat (keep : Nat → Bool) (l : List α) (a : α) :
    thinned keep (l ++ [a]) = thinned keep l ++ if keep l.length then [a] else [] := by
  rw [thinned, List.zipIdx_append, List.filter_append, List.map_append, thinned, Nat.zero_add]
  refine congrArg _ ?_
  by_cases h : keep l.length = true
  · simp [h]
  · simp [h]

theorem thinned_all {keep : Nat → Bool} (h : ∀ i, keep i = true) (l : List α) :
    thinned keep l = l := by
  rw [thinned, List.filter_eq_self.mpr fun x _ => h x.2]
  exact List.zipIdx_map_fst 0 l
