import Mathlib.Order.Defs.Unbundled

/-!
# Computations that keep their state when they fail

A computation in `EStateM` ends in a state even when it fails. `Moves R P m Q` says that from
every state with `P` the computation `m` goes to a state along the relation `R`, whether it fails
or not, and that `Q` holds if it does not. For a preorder `R` the statements compose, so that
what a program can do to a state is read off what its primitive steps can do.
-/

namespace EStateM

variable {ε σ α β : Type} {R : σ → σ → Prop} {P P' : σ → Prop} {m : EStateM ε σ α}
  {f : α → EStateM ε σ β} {Q Q' : α → σ → Prop} {S : β → σ → Prop}

/-- The state in which a computation ends. -/
def Result.state : Result ε σ α → σ
  | .ok _ s => s
  | .error _ s => s

/-! ### Evaluation -/

theorem bind_apply (s : σ) : (m >>= f) s = match m s with
    | .ok a s => f a s
    | .error e s => .error e s := rfl

theorem pure_apply (a : α) (s : σ) : (pure a : EStateM ε σ α) s = .ok a s := rfl

theorem throw_apply (e : ε) (s : σ) : (throw e : EStateM ε σ α) s = .error e s := rfl

theorem get_apply (s : σ) : (get : EStateM ε σ σ) s = .ok s s := rfl

theorem modify_apply (g : σ → σ) (s : σ) :
    (modify g : EStateM ε σ Unit) s = .ok () (g s) := rfl

/-! ### What a computation can do -/

/-- What a computation can do to a state. -/
def Moves (R : σ → σ → Prop) (P : σ → Prop) (m : EStateM ε σ α) (Q : α → σ → Prop) : Prop :=
  ∀ s, P s → R s (m s).state ∧ ∀ a s', m s = .ok a s' → Q a s'

namespace Moves

theorem mono (h : Moves R P m Q) (hP : ∀ s, P' s → P s) (hQ : ∀ a s, Q a s → Q' a s) :
    Moves R P' m Q' := by
  intro s hs
  obtain ⟨hR, hok⟩ := h s (hP s hs)
  exact ⟨hR, fun a s' hm => hQ a s' (hok a s' hm)⟩

theorem bind [IsPreorder σ R] (hm : Moves R P m Q) (hf : ∀ a, Moves R (Q a) (f a) S) :
    Moves R P (m >>= f) S := by
  intro s hs
  obtain ⟨hR, hok⟩ := hm s hs
  rw [bind_apply]
  cases hms : m s with
  | ok a s' =>
    rw [hms] at hR
    obtain ⟨hR', hok'⟩ := hf a s' (hok a s' hms)
    exact ⟨trans_of R hR hR', hok'⟩
  | error e s' =>
    rw [hms] at hR
    exact ⟨hR, nofun⟩

theorem ret [IsPreorder σ R] (a : α) (h : ∀ s, P s → Q a s) :
    Moves R P (pure a : EStateM ε σ α) Q := by
  intro s hs
  refine ⟨refl_of R s, fun a' s' hm => ?_⟩
  cases hm
  exact h s hs

theorem throw [IsPreorder σ R] (e : ε) : Moves R P (throw e : EStateM ε σ α) Q :=
  fun s _ => ⟨refl_of R s, nofun⟩

theorem get_eq [IsPreorder σ R] :
    Moves R P (get : EStateM ε σ σ) fun s s' => s = s' ∧ P s := by
  intro s hs
  refine ⟨refl_of R s, fun a s' hm => ?_⟩
  cases hm
  exact ⟨rfl, hs⟩

theorem get [IsPreorder σ R] : Moves R P (get : EStateM ε σ σ) fun _ => P := by
  refine get_eq.mono (fun _ hs => hs) ?_
  rintro _ _ ⟨rfl, hs⟩
  exact hs

theorem modify {g : σ → σ} {Q : Unit → σ → Prop} (h : ∀ s, P s → R s (g s) ∧ Q () (g s)) :
    Moves R P (modify g : EStateM ε σ Unit) Q := by
  intro s hs
  refine ⟨(h s hs).1, fun a s' hm => ?_⟩
  cases hm
  exact (h s hs).2

theorem ite_of {c : Prop} [Decidable c] {m' : EStateM ε σ α} (h : c → Moves R P m Q)
    (h' : ¬ c → Moves R P m' Q) : Moves R P (if c then m else m') Q := by
  split
  · exact h ‹c›
  · exact h' ‹¬ c›

theorem ite {c : Prop} [Decidable c] {m' : EStateM ε σ α} (h : Moves R P m Q)
    (h' : Moves R P m' Q) : Moves R P (if c then m else m') Q :=
  ite_of (fun _ => h) fun _ => h'

end Moves

end EStateM
