import Mathlib.Tactic.Common

/-! Pre- and postconditions of programs with a state that an error leaves as it
was when it was thrown. -/

namespace Outcome

variable {ε σ α β : Type}

/-- From `s` the program ends as `post` says, or with an error as `fail` says. -/
def Ends (f : EStateM ε σ α) (s : σ) (post : α → σ → Prop) (fail : ε → σ → Prop) : Prop :=
  match f s with
  | .ok a t => post a t
  | .error e t => fail e t

variable {f : EStateM ε σ α} {g : α → EStateM ε σ β} {s t : σ} {post mid : α → σ → Prop}
  {post' : β → σ → Prop} {fail : ε → σ → Prop}

theorem Ends.of_ok (h : Ends f s post fail) {a : α} (hf : f s = .ok a t) : post a t := by
  simpa [Ends, hf] using h

theorem Ends.of_error (h : Ends f s post fail) {e : ε} (hf : f s = .error e t) : fail e t := by
  simpa [Ends, hf] using h

theorem ends_of_ok {a : α} (hf : f s = .ok a t) (h : post a t) : Ends f s post fail := by
  simpa [Ends, hf] using h

theorem ends_bind (hf : Ends f s mid fail) (hg : ∀ a t, mid a t → Ends (g a) t post' fail) :
    Ends (f >>= g) s post' fail := by
  show match EStateM.bind f g s with
    | .ok b t => post' b t
    | .error e t => fail e t
  unfold Ends at hf
  unfold EStateM.bind
  cases hs : f s with
  | ok a t =>
    rw [hs] at hf
    exact hg a t hf
  | error e t =>
    rw [hs] at hf
    exact hf

theorem bind_of_ok {a : α} (hf : f s = .ok a t) : (f >>= g) s = g a t := by
  show EStateM.bind f g s = g a t
  rw [EStateM.bind, hf]

theorem ends_bind_of_ok {a : α} (hf : f s = .ok a t) (hg : Ends (g a) t post' fail) :
    Ends (f >>= g) s post' fail := by
  rwa [Ends, bind_of_ok hf]

end Outcome
