import Mathlib.Data.List.Chain
import Mathlib.Tactic.Basic

/-! Files made of chunks that follow one another: a header at a position, a
body of the size it gives, padding to an even size, and the next header. -/

namespace ChunkChain

variable {κ : Type} {header : Nat → Option κ} {size : κ → Nat}

/-- Where the chunk after `k` at `p` begins. -/
def next (size : κ → Nat) (p : Nat) (k : κ) : Nat := p + 8 + size k + size k % 2

/-- The chunk `k` at `q` is declared by the headers from `p` on. -/
inductive Declared (header : Nat → Option κ) (size : κ → Nat) : Nat → Nat → κ → Prop
  | here {p k} : header p = some k → Declared header size p p k
  | later {p k q l} : header p = some k → Declared header size (next size p k) q l →
      Declared header size p q l

theorem Declared.next {p q : Nat} {k l : κ} (h : Declared header size p q k)
    (hl : header (next size q k) = some l) :
    Declared header size p (ChunkChain.next size q k) l := by
  induction h with
  | here hk => exact .later hk (.here hl)
  | later hk _ ih => exact .later hk (ih hl)

/-- The chunk `k` at `q` is the last one declared from `p` on. -/
def Last (header : Nat → Option κ) (size : κ → Nat) (p q : Nat) (k : κ) : Prop :=
  Declared header size p q k ∧ header (next size q k) = none

/-- Where headers can only be read inside the file, a chunk that is not the
last one lies inside it. -/
theorem declared_inside_iff (header : Nat → Option κ) (size : κ → Nat) {length : Nat}
    (hread : ∀ p k, header p = some k → p ≤ length) (start : Nat) :
    (∀ p k, Declared header size start p k → p + 8 + size k ≤ length) ↔
      ∀ p k, Last header size start p k → p + 8 + size k ≤ length := by
  constructor
  · intro hall p k hlast
    exact hall p k hlast.1
  · intro hlast p k hk
    cases hnext : header (next size p k) with
    | none => exact hlast p k ⟨hk, hnext⟩
    | some l =>
      have hle : p + 8 + size k + size k % 2 ≤ length := hread _ l hnext
      omega

/-- The headers that a loop reads from `p` on: it goes on from the chunk `k` at
`p` when `more p k`, and then reads at `step p k`. -/
def visits (header : Nat → Option κ) (more : Nat → κ → Bool) (step : Nat → κ → Nat) :
    Nat → Nat → List (Nat × κ)
  | 0, _ => []
  | fuel + 1, p =>
    match header p with
    | none => []
    | some k => (p, k) :: if more p k then visits header more step fuel (step p k) else []

/-- Each header after the first is read where the chunk before it ends, and none
inside the body of a chunk before it. -/
structure SkipsBodies (size : κ → Nat) (l : List (Nat × κ)) : Prop where
  exact_next : l.IsChain fun a b => b.1 = next size a.1 a.2
  outside : l.Pairwise fun a b => a.1 + 8 + size a.2 ≤ b.1

theorem skipsBodies_iff (size : κ → Nat) (l : List (Nat × κ)) :
    SkipsBodies size l ↔ l.IsChain fun a b => b.1 = next size a.1 a.2 := by
  refine ⟨SkipsBodies.exact_next, fun h => ⟨h, ?_⟩⟩
  have htrans : Trans (fun a b : Nat × κ => a.1 + 8 + size a.2 ≤ b.1)
      (fun a b : Nat × κ => a.1 + 8 + size a.2 ≤ b.1)
      (fun a b : Nat × κ => a.1 + 8 + size a.2 ≤ b.1) :=
    ⟨fun hab hbc => by omega⟩
  have hinside : l.IsChain fun a b => a.1 + 8 + size a.2 ≤ b.1 := h.imp fun a b hab => by
    rw [hab, next]
    omega
  exact hinside.pairwise

/-- The chunk `k` that a loop goes on from, if it stands at `p`. -/
def continued (header : Nat → Option κ) (more : Nat → κ → Bool) (p : Nat) : Option κ :=
  (header p).filter (more p)

section Visits

variable {more : Nat → κ → Bool} {step : Nat → κ → Nat} {bad : κ → Prop} {bound : Nat}

theorem continued_eq_some {p : Nat} {k : κ} (h : header p = some k) (hmore : more p k = true) :
    continued header more p = some k := by
  rw [continued, h, Option.filter_some, if_pos hmore]

theorem continued_of_header_none {p : Nat} (h : header p = none) : continued header more p = none := by
  rw [continued, h, Option.filter_none]

theorem visits_of_none (fuel : Nat) {p : Nat} (h : header p = none) :
    visits header more step fuel p = [] := by
  cases fuel with
  | zero => rfl
  | succ fuel => rw [visits, h]

theorem not_declared_of_none {p q : Nat} {k : κ} (h : header p = none) :
    ¬ Declared (continued header more) size p q k := by
  have hnone : continued header more p = none := continued_of_header_none h
  rintro (hk | ⟨hk, -⟩) <;> rw [hnone] at hk <;> cases hk

theorem mem_head?_visits {fuel p : Nat} {x : Nat × κ}
    (h : x ∈ (visits header more step fuel p).head?) : x.1 = p := by
  cases fuel with
  | zero => cases h
  | succ fuel =>
    cases hk : header p with
    | none =>
      rw [visits, hk] at h
      cases h
    | some k =>
      rw [visits, hk] at h
      exact congrArg Prod.fst (Option.some.inj h).symm

/-- A loop that only goes wrong at `bad` chunks skips all bodies exactly when
there is no header behind a bad chunk that it goes on from. -/
theorem visits_skipsBodies_iff (hbound : ∀ p k, header p = some k → p < bound)
    (hforward : ∀ p k, p < step p k)
    (hgood : ∀ p k, ¬ bad k → step p k = next size p k)
    (hbad : ∀ p k, bad k → step p k ≠ next size p k)
    (hend : ∀ p k, bad k → header (step p k) = none → header (next size p k) = none)
    (fuel p : Nat) (hfuel : bound ≤ p + fuel) :
    SkipsBodies size (visits header more step fuel p) ↔
      ∀ q k, Declared (continued header more) size p q k → bad k → header (step q k) = none := by
  have hnone (fuel : Nat) {p : Nat} (hfuel : bound ≤ p + fuel)
      (h : visits header more step fuel p = []) : header p = none := by
    cases hk : header p with
    | none => rfl
    | some k =>
      cases fuel with
      | zero => exact absurd (hbound p k hk) (by omega)
      | succ fuel =>
        rw [visits, hk] at h
        cases h
  rw [skipsBodies_iff]
  induction fuel generalizing p with
  | zero =>
    have h : header p = none := hnone 0 hfuel rfl
    exact ⟨fun _ _ _ hq => absurd hq (not_declared_of_none h), fun _ => .nil⟩
  | succ fuel ih =>
    cases h : header p with
    | none =>
      rw [visits_of_none _ h]
      exact ⟨fun _ _ _ hq => absurd hq (not_declared_of_none h), fun _ => .nil⟩
    | some k =>
      have hstep := hforward p k
      simp only [visits, h]
      by_cases hmore : more p k = true
      · have hc : continued header more p = some k := continued_eq_some h hmore
        rw [if_pos hmore]
        by_cases hb : bad k
        · -- the next position is wrong, so nothing may be read there
          constructor
          · intro hchain
            have hempty : visits header more step fuel (step p k) = [] := by
              by_contra hne
              obtain ⟨x, l, hl⟩ := List.exists_cons_of_ne_nil hne
              have hx : x.1 = step p k := mem_head?_visits (by rw [hl]; rfl)
              have hnext := (List.isChain_cons.mp hchain).1 x (by rw [hl]; rfl)
              exact hbad p k hb (hx.symm.trans hnext)
            have hlast := hnone fuel (by omega) hempty
            rintro q l (hq | ⟨hq, hlater⟩) -
            · obtain rfl := Option.some.inj (hc.symm.trans hq)
              exact hlast
            · obtain rfl := Option.some.inj (hc.symm.trans hq)
              exact absurd hlater (not_declared_of_none (hend p k hb hlast))
          · intro hall
            rw [visits_of_none _ (hall p k (.here hc) hb)]
            exact .singleton _
        · rw [hgood p k hb] at hstep ⊢
          have hrest := ih (next size p k) (by omega)
          rw [List.isChain_cons]
          constructor
          · rintro ⟨-, hchain⟩ q l (hq | ⟨hq, hlater⟩) hbl
            · obtain rfl := Option.some.inj (hc.symm.trans hq)
              exact absurd hbl hb
            · obtain rfl := Option.some.inj (hc.symm.trans hq)
              exact hrest.mp hchain q l hlater hbl
          · intro hall
            exact ⟨fun x hx => mem_head?_visits hx,
              hrest.mpr fun q l hq => hall q l (.later hc hq)⟩
      · have hc : continued header more p = none := by
          rw [continued, h, Option.filter_some, if_neg hmore]
        rw [if_neg hmore]
        refine ⟨fun _ q l hq => ?_, fun _ => .singleton _⟩
        rcases hq with hq | ⟨hq, -⟩ <;> rw [hc] at hq <;> cases hq

end Visits

end ChunkChain
