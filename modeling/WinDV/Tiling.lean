import Mathlib.Algebra.BigOperators.Group.List.Basic
import Mathlib.Algebra.Order.Monoid.Defs
import Mathlib.Data.List.Chain

/-! Intervals of given lengths laid end to end. -/

namespace Tiling

variable {α : Type*} [AddMonoid α]

def intervals : α → List α → List (α × α)
  | _, [] => []
  | t, d :: ds => (t, t + d) :: intervals (t + d) ds

theorem length_intervals (t : α) (ds : List α) : (intervals t ds).length = ds.length := by
  induction ds generalizing t with
  | nil => rfl
  | cons d ds ih => simp [intervals, ih]

theorem intervals_concat (t : α) (ds : List α) (d : α) :
    intervals t (ds ++ [d]) = intervals t ds ++ [(t + ds.sum, t + ds.sum + d)] := by
  induction ds generalizing t with
  | nil => simp [intervals]
  | cons d' ds ih => simp [intervals, ih, add_assoc]

/-- The `k`th interval lies behind the lengths before it. -/
theorem getElem?_intervals (t : α) (ds : List α) (k : Nat) :
    (intervals t ds)[k]? =
      ds[k]?.map fun d => (t + (ds.take k).sum, t + (ds.take k).sum + d) := by
  induction ds generalizing t k with
  | nil => rfl
  | cons d ds ih =>
    cases k with
    | zero => simp [intervals]
    | succ k => simp [intervals, ih, add_assoc]

theorem isChain_intervals (t : α) (ds : List α) :
    (intervals t ds).IsChain fun x y => y.1 = x.2 := by
  induction ds generalizing t with
  | nil => exact .nil
  | cons d ds ih =>
    cases ds with
    | nil => exact .singleton _
    | cons d' ds => exact (ih (t + d)).cons_cons rfl

variable [PartialOrder α] [AddLeftStrictMono α]

theorem le_of_mem_intervals {t : α} {ds : List α} (hpos : ∀ d ∈ ds, 0 < d) {x : α × α}
    (hx : x ∈ intervals t ds) : t ≤ x.1 ∧ x.1 < x.2 := by
  induction ds generalizing t with
  | nil => cases hx
  | cons d ds ih =>
    have hd : t < t + d := lt_add_of_pos_right t (hpos d List.mem_cons_self)
    obtain rfl | hx := List.mem_cons.mp hx
    · exact ⟨le_rfl, hd⟩
    · obtain ⟨hle, hlt⟩ := ih (fun d' hd' => hpos d' (List.mem_cons_of_mem d hd')) hx
      exact ⟨hd.le.trans hle, hlt⟩

theorem pairwise_intervals (t : α) {ds : List α} (hpos : ∀ d ∈ ds, 0 < d) :
    (intervals t ds).Pairwise fun x y => x.1 < y.1 ∧ x.2 < y.2 := by
  induction ds generalizing t with
  | nil => exact .nil
  | cons d ds ih =>
    have hrest : ∀ d' ∈ ds, 0 < d' := fun d' hd' => hpos d' (List.mem_cons_of_mem d hd')
    have hd : t < t + d := lt_add_of_pos_right t (hpos d List.mem_cons_self)
    refine List.pairwise_cons.mpr ⟨fun x hx => ?_, ih (t + d) hrest⟩
    obtain ⟨hle, hlt⟩ := le_of_mem_intervals hrest hx
    exact ⟨hd.trans_le hle, hle.trans_lt hlt⟩

end Tiling
