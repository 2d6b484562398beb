import Mathlib.Data.List.Basic
import Mathlib.Tactic.Common

/-! Texts of lines, and lines of fields: what comes of them when they are split,
and what a piece of a split can hold. -/

namespace Delimited

variable {α : Type*} {a x : α}

/-- Every line is ended. -/
def unlines (a : α) (lines : List (List α)) : List α := lines.flatMap (· ++ [a])

theorem unlines_concat (lines : List (List α)) (l : List α) :
    unlines a (lines ++ [l]) = unlines a lines ++ (l ++ [a]) := by
  rw [unlines, List.flatMap_append, List.flatMap_singleton]
  rfl

theorem mem_unlines {lines : List (List α)} (h : x ∈ unlines a lines) :
    x = a ∨ ∃ l ∈ lines, x ∈ l := by
  obtain ⟨l, hl, hx⟩ := List.mem_flatMap.mp h
  obtain hx | hx := List.mem_append.mp hx
  · exact .inr ⟨l, hl, hx⟩
  · exact .inl (List.mem_singleton.mp hx)

theorem mem_intercalate {fields : List (List α)} (h : x ∈ [a].intercalate fields) :
    x = a ∨ ∃ f ∈ fields, x ∈ f := by
  induction fields with
  | nil => cases h
  | cons f fields ih =>
    cases fields with
    | nil =>
      rw [List.intercalate_singleton] at h
      exact .inr ⟨f, List.mem_cons_self, h⟩
    | cons f' fields =>
      rw [List.intercalate_cons_cons, List.append_assoc, List.mem_append, List.mem_append,
        List.mem_singleton] at h
      obtain hx | hx | hx := h
      · exact .inr ⟨f, List.mem_cons_self, hx⟩
      · exact .inl hx
      · exact (ih hx).imp_right fun ⟨g, hg, hx⟩ => ⟨g, List.mem_cons_of_mem f hg, hx⟩

variable [DecidableEq α]

theorem splitOn_unlines {lines : List (List α)} (h : ∀ l ∈ lines, a ∉ l) :
    (unlines a lines).splitOn a = lines ++ [[]] := by
  induction lines with
  | nil => rfl
  | cons l lines ih =>
    have hsplit : unlines a (l :: lines) = l ++ a :: unlines a lines := by
      rw [unlines, List.flatMap_cons, List.append_assoc]
      rfl
    rw [hsplit, List.splitOn_append_cons_self_of_not_mem (h l List.mem_cons_self),
      ih fun l' hl' => h l' (List.mem_cons_of_mem l hl')]
    rfl

/-- A piece between separators is part of the list, and holds no separator. -/
theorem mem_of_mem_splitOn {l p : List α} (hp : p ∈ l.splitOn a) (hx : x ∈ p) : x ∈ l ∧ x ≠ a := by
  induction l generalizing p with
  | nil =>
    rw [List.mem_singleton.mp hp] at hx
    cases hx
  | cons b l ih =>
    rw [List.splitOn_cons_eq_if_modifyHead] at hp
    split at hp
    · obtain rfl | hp := List.mem_cons.mp hp
      · cases hx
      · exact (ih hp hx).imp_left (List.mem_cons_of_mem b)
    · next hb =>
      obtain ⟨q, qs, hsplit⟩ := List.exists_cons_of_ne_nil (List.splitOn_ne_nil a l)
      rw [hsplit, List.modifyHead_cons] at hp
      rw [hsplit] at ih
      obtain rfl | hp := List.mem_cons.mp hp
      · obtain rfl | hx := List.mem_cons.mp hx
        · exact ⟨List.mem_cons_self, fun heq => hb (beq_iff_eq.mpr heq)⟩
        · exact (ih List.mem_cons_self hx).imp_left (List.mem_cons_of_mem b)
      · exact (ih (List.mem_cons_of_mem q hp) hx).imp_left (List.mem_cons_of_mem b)

end Delimited
