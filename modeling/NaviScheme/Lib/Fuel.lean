import Mathlib.Data.Nat.Notation
import NaviScheme.Lib.Except

/-!
# Functions that take a bound on their steps

A function that loops or recurses without a bound is given one, and fails when it is too
small. What it computes is then the result that it has for all bounds from some point on
(`Fuel.Converges`), which does not depend on how the bound is handed down. `Fuel.Ends` is the
total correctness of such a function on a state: it converges, and to a result that meets a
postcondition or to an exception of a certain kind. Its rules follow the constructs of a `do`
block, so that no bound is ever computed.
-/

namespace Fuel

universe u v

variable {σ ε : Type u} {α β : Type u}

/-- The result of a function that takes a bound, for all bounds from some point on. -/
def Converges (f : ℕ → StateT σ (Except ε) α) (s : σ) (r : Except ε (α × σ)) : Prop :=
  ∃ N, ∀ n, N ≤ n → f n s = r

namespace Converges

variable {f : ℕ → StateT σ (Except ε) α} {g : α → ℕ → StateT σ (Except ε) β} {s s' : σ}
  {r r' : Except ε (α × σ)} {a : α} {e : ε}

theorem unique (h : Converges f s r) (h' : Converges f s r') : r = r' := by
  obtain ⟨N, hN⟩ := h
  obtain ⟨N', hN'⟩ := h'
  exact (hN (max N N') (Nat.le_max_left N N')).symm.trans (hN' (max N N') (Nat.le_max_right N N'))

theorem const {m : StateT σ (Except ε) α} (h : m s = r) : Converges (fun _ => m) s r :=
  ⟨0, fun _ _ => h⟩

/-- A bound that is handed down by one less. -/
theorem succ (h : Converges (fun n => f (n + 1)) s r) : Converges f s r := by
  obtain ⟨N, hN⟩ := h
  refine ⟨N + 1, fun n hn => ?_⟩
  obtain ⟨n, rfl⟩ := Nat.exists_eq_succ_of_ne_zero (by omega : n ≠ 0)
  exact hN n (by omega)

theorem of_succ (h : Converges f s r) : Converges (fun n => f (n + 1)) s r := by
  obtain ⟨N, hN⟩ := h
  exact ⟨N, fun n hn => hN (n + 1) (by omega)⟩

theorem bind {r : Except ε (β × σ)} (h : Converges f s (.ok (a, s'))) (h' : Converges (g a) s' r) :
    Converges (fun n => f n >>= fun b => g b n) s r := by
  obtain ⟨N, hN⟩ := h
  obtain ⟨N', hN'⟩ := h'
  refine ⟨max N N', fun n hn => ?_⟩
  change (f n s >>= fun x => g x.1 n x.2) = r
  rw [hN n (Nat.le_trans (Nat.le_max_left N N') hn)]
  exact hN' n (Nat.le_trans (Nat.le_max_right N N') hn)

theorem bind_error (h : Converges f s (.error e)) :
    Converges (fun n => f n >>= fun b => g b n) s (.error e) := by
  obtain ⟨N, hN⟩ := h
  refine ⟨N, fun n hn => ?_⟩
  change (f n s >>= fun x => g x.1 n x.2) = _
  rw [hN n hn]
  rfl

end Converges

/-- A result meets a postcondition, or is an exception of a certain kind. -/
def Meets (K : ε → Prop) (Q : α → σ → Prop) : Except ε (α × σ) → Prop
  | .ok (a, s) => Q a s
  | .error e => K e

/-- A function converges on a state, and to what. -/
def Ends (K : ε → Prop) (f : ℕ → StateT σ (Except ε) α) (s : σ) (Q : α → σ → Prop) : Prop :=
  ∃ r, Converges f s r ∧ Meets K Q r

namespace Ends

variable {K K' : ε → Prop} {f f' : ℕ → StateT σ (Except ε) α}
  {g : α → ℕ → StateT σ (Except ε) β} {s : σ} {Q Q' : α → σ → Prop} {R : β → σ → Prop}

theorem imp (h : Ends K f s Q) (hQ : ∀ a t, Q a t → Q' a t) : Ends K f s Q' := by
  obtain ⟨r, hr, hq⟩ := h
  refine ⟨r, hr, ?_⟩
  rcases r with e | ⟨a, t⟩
  · exact hq
  · exact hQ a t hq

theorem weaken (h : Ends K f s Q) (hK : ∀ e, K e → K' e) : Ends K' f s Q := by
  obtain ⟨r, hr, hq⟩ := h
  refine ⟨r, hr, ?_⟩
  rcases r with e | ⟨a, t⟩
  · exact hK e hq
  · exact hq

theorem succ (h : Ends K (fun n => f (n + 1)) s Q) : Ends K f s Q := by
  obtain ⟨r, hr, hq⟩ := h
  exact ⟨r, hr.succ, hq⟩

theorem ret {a : α} (h : Q a s) : Ends K (fun _ => pure a) s Q :=
  ⟨.ok (a, s), Converges.const rfl, h⟩

theorem raise {e : ε} (h : K e) : Ends K (fun _ => throw e : ℕ → StateT σ (Except ε) α) s Q :=
  ⟨.error e, Converges.const rfl, h⟩

theorem const {m : StateT σ (Except ε) α} (h : Meets K Q (m s)) : Ends K (fun _ => m) s Q :=
  ⟨m s, Converges.const rfl, h⟩

theorem bind (h : Ends K f s Q) (h' : ∀ a t, Q a t → Ends K (g a) t R) :
    Ends K (fun n => f n >>= fun b => g b n) s R := by
  obtain ⟨r, hr, hq⟩ := h
  rcases r with e | ⟨a, t⟩
  · exact ⟨.error e, hr.bind_error, hq⟩
  · obtain ⟨r', hr', hq'⟩ := h' a t hq
    exact ⟨r', hr.bind hr', hq'⟩

/-- What a function returns is what it converges to. -/
theorem self (h : Ends K f s Q) : Ends K f s fun a t => Q a t ∧ Converges f s (.ok (a, t)) := by
  obtain ⟨r, hr, hq⟩ := h
  refine ⟨r, hr, ?_⟩
  rcases r with e | ⟨a, t⟩
  · exact hq
  · exact ⟨hq, hr⟩

theorem ite {c : Prop} [Decidable c] (h : c → Ends K f s Q) (h' : ¬ c → Ends K f' s Q) :
    Ends K (fun n => if c then f n else f' n) s Q := by
  by_cases hc : c
  · simp only [if_pos hc]
    exact h hc
  · simp only [if_neg hc]
    exact h' hc

/-- What a function converges to that ends. -/
theorem meets (h : Ends K f s Q) {r : Except ε (α × σ)} (hr : Converges f s r) : Meets K Q r := by
  obtain ⟨r', hr', hq⟩ := h
  rw [hr.unique hr']
  exact hq

end Ends

end Fuel
