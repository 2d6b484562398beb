import Mathlib.Data.List.DropRight
import Mathlib.Tactic.Common

/-! The fields of a text: what stands between the separators, trimmed, where
that is anything. -/

namespace Fields

variable {α : Type*} (blank : α → Bool) (sep : α)

def trim (s : List α) : List α := (s.dropWhile blank).rdropWhile blank

def fields [DecidableEq α] (s : List α) : List (List α) :=
  ((s.splitOn sep).map (trim blank)).filter fun t => !t.isEmpty

/-- A text that is a field by itself. -/
structure IsField (p : List α) : Prop where
  ne_nil : p ≠ []
  sep_notMem : sep ∉ p
  head_not_blank : blank (p.head ne_nil) = false
  last_not_blank : blank (p.getLast ne_nil) = false

instance (p : List α) [DecidableEq α] : Decidable (IsField blank sep p) :=
  decidable_of_iff (∃ h : p ≠ [], sep ∉ p ∧ blank (p.head h) = false ∧ blank (p.getLast h) = false)
    ⟨fun ⟨h, hsep, hhead, hlast⟩ => ⟨h, hsep, hhead, hlast⟩,
      fun h => ⟨h.ne_nil, h.sep_notMem, h.head_not_blank, h.last_not_blank⟩⟩

variable {blank sep} {p s t : List α} {b : α}

theorem trim_of_not_blank (hne : p ≠ []) (hhead : blank (p.head hne) = false)
    (hlast : blank (p.getLast hne) = false) : trim blank p = p := by
  have hdrop : p.dropWhile blank = p := by
    cases p with
    | nil => exact absurd rfl hne
    | cons a p => exact List.dropWhile_cons_of_neg (by simpa using hhead)
  rw [trim, hdrop, List.rdropWhile_eq_self_iff]
  intro _
  simpa using hlast

theorem trim_append_blank (hne : p ≠ []) (hhead : blank (p.head hne) = false)
    (hlast : blank (p.getLast hne) = false) (hb : blank b = true) : trim blank (p ++ [b]) = p := by
  have hdrop : (p ++ [b]).dropWhile blank = p ++ [b] := by
    cases p with
    | nil => exact absurd rfl hne
    | cons a p => exact List.dropWhile_cons_of_neg (by simpa using hhead)
  rw [trim, hdrop, List.rdropWhile_concat_pos _ _ _ hb, List.rdropWhile_eq_self_iff]
  intro _
  simpa using hlast

variable [DecidableEq α]

theorem fields_nil : fields blank sep [] = [] := by
  simp [fields, trim]

theorem fields_append (s t : List α) :
    fields blank sep (s ++ sep :: t) = fields blank sep s ++ fields blank sep t := by
  rw [fields, List.splitOn_append_cons_self, List.map_append, List.filter_append, fields, fields]

theorem fields_of_notMem (h : sep ∉ s) :
    fields blank sep s = if trim blank s = [] then [] else [trim blank s] := by
  rw [fields, List.splitOn_eq_singleton h, List.map_singleton]
  by_cases hnil : trim blank s = []
  · simp [hnil]
  · simp [hnil]

theorem IsField.fields_eq (h : IsField blank sep p) : fields blank sep p = [p] := by
  rw [fields_of_notMem h.sep_notMem,
    trim_of_not_blank h.ne_nil h.head_not_blank h.last_not_blank, if_neg h.ne_nil]

theorem IsField.fields_append_blank (h : IsField blank sep p) (hb : blank b = true) (hsep : b ≠ sep) :
    fields blank sep (p ++ [b]) = [p] := by
  have hnot : sep ∉ p ++ [b] := by
    simp [h.sep_notMem, Ne.symm hsep]
  rw [fields_of_notMem hnot, trim_append_blank h.ne_nil h.head_not_blank h.last_not_blank hb,
    if_neg h.ne_nil]

theorem fields_cons_blank (hb : blank b = true) (hsep : b ≠ sep) (s : List α) :
    fields blank sep (b :: s) = fields blank sep s := by
  obtain ⟨t, ts, hsplit⟩ := List.exists_cons_of_ne_nil (List.splitOn_ne_nil sep s)
  have hne : ¬ (b == sep) = true := by simpa using hsep
  have htrim : trim blank (b :: t) = trim blank t := by
    rw [trim, List.dropWhile_cons_of_pos hb, trim]
  rw [fields, List.splitOn_cons_eq_if_modifyHead, if_neg hne, hsplit, List.modifyHead_cons,
    List.map_cons, htrim, fields, hsplit, List.map_cons]

/-- Fields joined by separators with a blank on each side come apart again. -/
theorem fields_intercalate (hb : blank b = true) (hsep : b ≠ sep) {ps : List (List α)}
    (h : ∀ p ∈ ps, IsField blank sep p) : fields blank sep ([b, sep, b].intercalate ps) = ps := by
  induction ps with
  | nil => exact fields_nil
  | cons p ps ih =>
    have hp := h p List.mem_cons_self
    have ih := ih fun q hq => h q (List.mem_cons_of_mem p hq)
    cases ps with
    | nil => simpa using hp.fields_eq
    | cons q ps =>
      have hsplit : [b, sep, b].intercalate (p :: q :: ps) =
          (p ++ [b]) ++ sep :: b :: [b, sep, b].intercalate (q :: ps) := by simp
      rw [hsplit, fields_append, hp.fields_append_blank hb hsep, fields_cons_blank hb hsep, ih,
        List.singleton_append]

/-- The first field, and the rest of the text after its separator. -/
theorem fields_eq_takeWhile (s : List α) :
    fields blank sep s =
      (if trim blank (s.takeWhile (· != sep)) = [] then [] else [trim blank (s.takeWhile (· != sep))]) ++
        fields blank sep (s.drop ((s.takeWhile (· != sep)).length + 1)) := by
  have hnot : sep ∉ s.takeWhile (· != sep) := fun hmem => by
    simpa using List.mem_takeWhile_imp hmem
  rw [← fields_of_notMem hnot]
  have hall := List.takeWhile_append_dropWhile (p := (· != sep)) (l := s)
  rcases hrest : s.dropWhile (· != sep) with _ | ⟨c, rest⟩
  · rw [hrest, List.append_nil] at hall
    rw [hall, List.drop_eq_nil_of_le (Nat.le_succ _), fields_nil, List.append_nil]
  · have hc : c = sep := by
      simpa [hrest] using List.head_dropWhile_not (p := (· != sep)) (l := s) (by simp [hrest])
    rw [hrest, hc] at hall
    generalize s.takeWhile (· != sep) = t at hall ⊢
    have hdrop : (t ++ sep :: rest).drop (t.length + 1) = rest := by simp
    rw [← hall, hdrop]
    exact fields_append t rest

end Fields
