import Mathlib.Data.List.Basic

/-! Finite runs of a partial step function in which every step meets a
condition on the state it leaves and on its action. -/

namespace Transition

variable {σ α : Type*}

/-- `Run step ok s acts t`: the actions lead from `s` to `t`, each of them
taken in a state where `ok` allows it. -/
inductive Run (step : σ → α → Option σ) (ok : σ → α → Prop) : σ → List α → σ → Prop
  | nil (s : σ) : Run step ok s [] s
  | snoc {s t u : σ} {acts : List α} {a : α} (h : Run step ok s acts t) (hok : ok t a)
      (hstep : step t a = some u) : Run step ok s (acts ++ [a]) u

/-- A property of the start that every allowed step keeps holds of every
state that a run reaches. -/
theorem Run.invariant {step : σ → α → Option σ} {ok : σ → α → Prop} {inv : σ → Prop}
    (hkeep : ∀ t a u, inv t → ok t a → step t a = some u → inv u)
    {s t : σ} {acts : List α} (hrun : Run step ok s acts t) (hinit : inv s) : inv t := by
  induction hrun with
  | nil => exact hinit
  | snoc _ hok hstep ih => exact hkeep _ _ _ ih hok hstep

theorem Run.mono {step : σ → α → Option σ} {ok ok' : σ → α → Prop} {s t : σ} {acts : List α}
    (hrun : Run step ok s acts t) (h : ∀ s a, ok s a → ok' s a) : Run step ok' s acts t := by
  induction hrun with
  | nil => exact .nil _
  | snoc _ hok hstep ih => exact ih.snoc (h _ _ hok) hstep

/-- Every step of a run is allowed what all its actions are allowed. -/
theorem Run.restrict {step : σ → α → Option σ} {ok : σ → α → Prop} {p : α → Prop} {s t : σ}
    {acts : List α} (hrun : Run step ok s acts t) (h : ∀ a ∈ acts, p a) :
    Run step (fun s a => ok s a ∧ p a) s acts t := by
  induction hrun with
  | nil => exact .nil _
  | snoc _ hok hstep ih =>
    rw [List.forall_mem_append] at h
    exact (ih h.1).snoc ⟨hok, h.2 _ (List.mem_singleton_self _)⟩ hstep

theorem Run.forall_of_ok {step : σ → α → Option σ} {p : α → Prop} {s t : σ} {acts : List α}
    (hrun : Run step (fun _ a => p a) s acts t) : ∀ a ∈ acts, p a := by
  induction hrun with
  | nil => exact List.forall_mem_nil _
  | snoc _ hok _ ih => exact List.forall_mem_append.mpr ⟨ih, List.forall_mem_singleton.mpr hok⟩

theorem Run.single {step : σ → α → Option σ} {ok : σ → α → Prop} {s t : σ} {a : α} (hok : ok s a)
    (hstep : step s a = some t) : Run step ok s [a] t :=
  (Run.nil s).snoc hok hstep

/-- When a step into a good state is allowed and comes from a good state, a
run into a good state was allowed all along. -/
theorem Run.backward {step : σ → α → Option σ} {ok ok' : σ → α → Prop} {good : σ → Prop}
    (hback : ∀ t a u, good u → step t a = some u → good t ∧ ok' t a)
    {s t : σ} {acts : List α} (hrun : Run step ok s acts t) (hgood : good t) :
    Run step ok' s acts t := by
  induction hrun with
  | nil => exact .nil _
  | snoc _ _ hstep ih =>
    obtain ⟨hprev, hok⟩ := hback _ _ _ hgood hstep
    exact (ih hprev).snoc hok hstep

theorem Run.cons {step : σ → α → Option σ} {ok : σ → α → Prop} {s t u : σ} {acts : List α} {a : α}
    (hok : ok s a) (hstep : step s a = some t) (hrun : Run step ok t acts u) :
    Run step ok s (a :: acts) u := by
  induction hrun with
  | nil => exact (Run.nil s).snoc hok hstep
  | snoc _ hok' hstep' ih => exact ih.snoc hok' hstep'

theorem Run.trans {step : σ → α → Option σ} {ok : σ → α → Prop} {s t u : σ} {acts acts' : List α}
    (hrun : Run step ok s acts t) (hrun' : Run step ok t acts' u) :
    Run step ok s (acts ++ acts') u := by
  induction hrun' with
  | nil => simpa using hrun
  | snoc _ hok hstep ih =>
    rw [← List.append_assoc]
    exact ih.snoc hok hstep

/-- Where each step of a system is a run of one of its parts, a run of the system
is a run of the part. -/
theorem Run.project {σ' α' : Type*} {step : σ → α → Option σ} {ok : σ → α → Prop}
    {step' : σ' → α' → Option σ'} {ok' : σ' → α' → Prop} (part : σ → σ')
    (hpart : ∀ s a t, ok s a → step s a = some t → ∃ acts, Run step' ok' (part s) acts (part t))
    {s t : σ} {acts : List α} (hrun : Run step ok s acts t) :
    ∃ acts', Run step' ok' (part s) acts' (part t) := by
  induction hrun with
  | nil => exact ⟨[], .nil _⟩
  | snoc _ hok hstep ih =>
    obtain ⟨acts₁, hrun₁⟩ := ih
    obtain ⟨acts₂, hrun₂⟩ := hpart _ _ _ hok hstep
    exact ⟨acts₁ ++ acts₂, hrun₁.trans hrun₂⟩

/-- A system that can follow each step of another follows its runs. -/
theorem Run.simulate {σ' : Type*} {step : σ → α → Option σ} {ok : σ → α → Prop}
    {step' : σ' → α → Option σ'} {ok' : σ' → α → Prop} (rel : σ → σ' → Prop)
    (hsim : ∀ s s' a t, rel s s' → ok s a → step s a = some t →
      ∃ t', ok' s' a ∧ step' s' a = some t' ∧ rel t t')
    {s t : σ} {s' : σ'} {acts : List α} (hrun : Run step ok s acts t) (hinit : rel s s') :
    ∃ t', Run step' ok' s' acts t' ∧ rel t t' := by
  induction hrun with
  | nil => exact ⟨s', .nil _, hinit⟩
  | snoc _ hok hstep ih =>
    obtain ⟨u', hrun', hu⟩ := ih
    obtain ⟨t', hok', hstep', ht⟩ := hsim _ _ _ _ hu hok hstep
    exact ⟨t', hrun'.snoc hok' hstep', ht⟩

/-- Executes the actions in turn; `none` when one of them is not allowed or
not enabled. -/
def exec (step : σ → α → Option σ) (ok : σ → α → Prop) [∀ s a, Decidable (ok s a)] (s : σ) :
    List α → Option σ
  | [] => some s
  | a :: acts => if ok s a then (step s a).bind fun t => exec step ok t acts else none

theorem run_of_exec {step : σ → α → Option σ} {ok : σ → α → Prop} [∀ s a, Decidable (ok s a)]
    {acts : List α} {s t : σ} (h : exec step ok s acts = some t) : Run step ok s acts t := by
  induction acts generalizing s with
  | nil =>
    obtain rfl := Option.some.inj h
    exact .nil s
  | cons a acts ih =>
    simp only [exec] at h
    split at h
    · next hok =>
      obtain ⟨u, hu, hrest⟩ := Option.bind_eq_some_iff.mp h
      exact Run.cons hok hu (ih hrest)
    · cases h

end Transition
