import Mathlib.Logic.Relation
import Mathlib.Order.WellFoundedSet

/-!
# Traversals that do not remember where they have been

`Traverse.visit` follows every edge of a graph from a node, depth first, without checking
whether a node has been visited before; `n` bounds the depth. If it comes to an end, it
has visited the nodes that can be reached (`Traverse.mem_visit`). It does so exactly from
the nodes from which all paths are finite (`Traverse.exists_visit_iff`), which in a finite
graph are those that reach no cycle (`Traverse.acc_iff_acyclic`).
-/

namespace Traverse

open Relation

variable {α : Type*} {succ : α → List α} {a b : α} {as vs : List α} {n m : ℕ}

/-- The edges of a graph. -/
def Edge (succ : α → List α) (a b : α) : Prop := b ∈ succ a

/-- The nodes visited from `a`, with the repetitions. -/
def visit (succ : α → List α) : ℕ → α → Option (List α)
  | 0, _ => none
  | n + 1, a => ((succ a).mapM (visit succ n)).map fun vss => a :: vss.flatten

/-- The nodes visited from each of `as` in turn. -/
def visitAll (succ : α → List α) (n : ℕ) (as : List α) : Option (List α) :=
  (as.mapM (visit succ n)).map List.flatten

theorem visit_succ (succ : α → List α) (n : ℕ) (a : α) :
    visit succ (n + 1) a = (visitAll succ n (succ a)).map (a :: ·) := by
  rw [visit, visitAll, Option.map_map]
  rfl

@[simp] theorem visitAll_nil (succ : α → List α) (n : ℕ) : visitAll succ n [] = some [] := rfl

theorem visitAll_cons (succ : α → List α) (n : ℕ) (a : α) (as : List α) :
    visitAll succ n (a :: as) =
      (visit succ n a).bind fun vs => (visitAll succ n as).map (vs ++ ·) := by
  cases ha : visit succ n a <;> cases has : as.mapM (visit succ n) <;>
    simp [visitAll, List.mapM_cons, ha, has]

theorem visitAll_append (succ : α → List α) (n : ℕ) (as bs : List α) :
    visitAll succ n (as ++ bs) =
      (visitAll succ n as).bind fun vs => (visitAll succ n bs).map (vs ++ ·) := by
  induction as with
  | nil => simp
  | cons a as ih =>
    rw [List.cons_append, visitAll_cons, visitAll_cons, ih]
    cases visit succ n a <;> cases visitAll succ n as <;> cases visitAll succ n bs <;> simp

@[simp] theorem visitAll_singleton (succ : α → List α) (n : ℕ) (a : α) :
    visitAll succ n [a] = visit succ n a := by
  rw [visitAll_cons, visitAll_nil]
  cases visit succ n a <;> simp

/-- A traversal of several nodes ends if and only if each of theirs does. -/
theorem visitAll_isSome : (visitAll succ n as).isSome ↔ ∀ a ∈ as, (visit succ n a).isSome := by
  induction as with
  | nil => simp
  | cons a as ih =>
    rw [visitAll_cons, List.forall_mem_cons, ← ih]
    cases visit succ n a <;> simp

theorem mem_visitAll (h : visitAll succ n as = some vs) :
    b ∈ vs ↔ ∃ a ∈ as, ∃ us, visit succ n a = some us ∧ b ∈ us := by
  induction as generalizing vs with
  | nil =>
    obtain rfl : [] = vs := by simpa using h
    simp
  | cons a as ih =>
    rw [visitAll_cons] at h
    obtain ⟨us, hus, h⟩ := Option.bind_eq_some_iff.mp h
    obtain ⟨ws, hws, rfl⟩ := Option.map_eq_some_iff.mp h
    rw [List.mem_append, ih hws]
    simp [hus]

theorem visitAll_mono_of (h : ∀ {a vs}, visit succ n a = some vs → visit succ m a = some vs)
    (has : visitAll succ n as = some vs) : visitAll succ m as = some vs := by
  induction as generalizing vs with
  | nil => exact has
  | cons a as ih =>
    rw [visitAll_cons] at has ⊢
    obtain ⟨us, hus, has⟩ := Option.bind_eq_some_iff.mp has
    obtain ⟨ws, hws, rfl⟩ := Option.map_eq_some_iff.mp has
    rw [h hus, Option.bind_some, ih hws, Option.map_some]

/-- More depth does not change the result. -/
theorem visit_mono (hnm : n ≤ m) (h : visit succ n a = some vs) : visit succ m a = some vs := by
  induction n generalizing m a vs with
  | zero => exact absurd h (by simp [visit])
  | succ n ih =>
    obtain ⟨m, rfl⟩ : ∃ k, m = k + 1 := ⟨m - 1, by omega⟩
    rw [visit_succ] at h ⊢
    obtain ⟨us, hus, rfl⟩ := Option.map_eq_some_iff.mp h
    rw [visitAll_mono_of (ih (Nat.le_of_succ_le_succ hnm)) hus, Option.map_some]

theorem visitAll_mono (hnm : n ≤ m) (h : visitAll succ n as = some vs) :
    visitAll succ m as = some vs :=
  visitAll_mono_of (visit_mono hnm) h

/-- **A traversal visits the nodes that can be reached.** -/
theorem mem_visit (h : visit succ n a = some vs) : b ∈ vs ↔ ReflTransGen (Edge succ) a b := by
  induction n generalizing a vs with
  | zero => exact absurd h (by simp [visit])
  | succ n ih =>
    rw [visit_succ] at h
    obtain ⟨us, hus, rfl⟩ := Option.map_eq_some_iff.mp h
    have hall : ∀ c ∈ succ a, (visit succ n c).isSome :=
      visitAll_isSome.mp (by rw [hus, Option.isSome_some])
    rw [List.mem_cons, mem_visitAll hus]
    constructor
    · rintro (rfl | ⟨c, hc, ws, hws, hb⟩)
      · exact .refl
      · exact .head hc ((ih hws).mp hb)
    · intro hreach
      rcases hreach.cases_head with rfl | ⟨c, hc, hreach⟩
      · exact .inl rfl
      · obtain ⟨ws, hws⟩ := Option.isSome_iff_exists.mp (hall c hc)
        exact .inr ⟨c, hc, ws, hws, (ih hws).mpr hreach⟩

/-- What the traversals of several nodes visit. -/
theorem mem_visitAll_iff (h : visitAll succ n as = some vs) :
    b ∈ vs ↔ ∃ a ∈ as, ReflTransGen (Edge succ) a b := by
  have hall := visitAll_isSome.mp (Option.isSome_iff_exists.mpr ⟨vs, h⟩)
  rw [mem_visitAll h]
  constructor
  · rintro ⟨a, ha, us, hus, hb⟩
    exact ⟨a, ha, (mem_visit hus).mp hb⟩
  · rintro ⟨a, ha, hab⟩
    obtain ⟨us, hus⟩ := Option.isSome_iff_exists.mp (hall a ha)
    exact ⟨a, ha, us, hus, (mem_visit hus).mpr hab⟩

/-- If the traversals of several nodes end, they do so with one bound on the depth. -/
theorem exists_visitAll_iff :
    (∃ n, (visitAll succ n as).isSome) ↔ ∀ a ∈ as, ∃ n, (visit succ n a).isSome := by
  refine ⟨fun ⟨n, h⟩ a ha => ⟨n, visitAll_isSome.mp h a ha⟩, fun h => ?_⟩
  induction as with
  | nil => exact ⟨0, rfl⟩
  | cons a as ih =>
    obtain ⟨n, hn⟩ := h a List.mem_cons_self
    obtain ⟨m, hm⟩ := ih fun b hb => h b (List.mem_cons_of_mem a hb)
    have hmono : ∀ {k b}, k ≤ max n m → (visit succ k b).isSome →
        (visit succ (max n m) b).isSome := by
      intro k b hk hb
      obtain ⟨vs, hvs⟩ := Option.isSome_iff_exists.mp hb
      rw [visit_mono hk hvs, Option.isSome_some]
    refine ⟨max n m, visitAll_isSome.mpr fun b hb => ?_⟩
    rcases List.mem_cons.mp hb with rfl | hb
    · exact hmono (le_max_left n m) hn
    · exact hmono (le_max_right n m) (visitAll_isSome.mp hm b hb)

/-- **A traversal ends if and only if all paths are finite.** -/
theorem exists_visit_iff : (∃ n, (visit succ n a).isSome) ↔ Acc (fun c b => Edge succ b c) a := by
  constructor
  · rintro ⟨n, h⟩
    induction n generalizing a with
    | zero => exact absurd h (by simp [visit])
    | succ n ih =>
      rw [visit_succ, Option.isSome_map, visitAll_isSome] at h
      exact ⟨a, fun b hb => ih (h b hb)⟩
  · intro h
    induction h with
    | intro a _ ih =>
      obtain ⟨n, hn⟩ := exists_visitAll_iff.mpr fun b hb => ih b hb
      exact ⟨n + 1, by rw [visit_succ, Option.isSome_map, hn]⟩

theorem not_rel_self {r : α → α → Prop} (h : Acc r a) : ¬ r a a := by
  intro ha
  induction h with
  | intro a _ ih => exact ih a ha ha

/-- **In a finite graph all paths are finite if and only if no cycle can be reached.** -/
theorem acc_iff_acyclic {r : α → α → Prop} (hfin : {b | ReflTransGen r a b}.Finite) :
    Acc (fun c b => r b c) a ↔ ∀ b, ReflTransGen r a b → ¬ TransGen r b b := by
  constructor
  · intro h b hab hbb
    have hacc : Acc (fun c b => r b c) b := by
      clear hbb
      induction hab with
      | refl => exact h
      | tail _ hbc ih => exact ih.inv hbc
    exact not_rel_self hacc.transGen (transGen_swap.mpr hbb)
  · intro h
    let S := {b | ReflTransGen r a b}
    have : Finite S := hfin
    let R : S → S → Prop := fun c b => TransGen r b.1 c.1
    have : IsTrans S R := ⟨fun _ _ _ h₁ h₂ => TransGen.trans h₂ h₁⟩
    have : Std.Irrefl R := ⟨fun b hb => h b.1 b.2 hb⟩
    have hwf : WellFounded R := Finite.wellFounded_of_trans_of_irrefl R
    suffices ∀ b : S, Acc (fun c b => r b c) b.1 from this ⟨a, .refl⟩
    intro b
    induction b using hwf.induction with
    | _ b ih => exact ⟨b.1, fun c hc => ih ⟨c, ReflTransGen.tail b.2 hc⟩ (.single hc)⟩

end Traverse
