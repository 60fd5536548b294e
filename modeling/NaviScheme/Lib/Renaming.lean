import Mathlib.Logic.Function.Basic
import Mathlib.Data.List.Pairwise
import Mathlib.Data.List.Nodup

/-!
# Renaming, at once and one by one

A list of pairs of names renames the entries of a partial map: each first name becomes the
second. `Renaming.sim` does it for all pairs at once; `Renaming.seq` does it pair after
pair, each time giving the second name the value of the first, and then removing the first.

Where all first names are bound and the results are distinct (`Renaming.Clean`), the two
come to the same map if and only if no pair names a name again that it or a pair before it
has removed or given (`Renaming.InOrder`, `Renaming.seq_eq_sim_iff`). So a swap of two names
is lost one by one, and so is a name that is renamed to itself.
-/

namespace Renaming

variable {α β : Type} [DecidableEq α]

/-- All pairs at once. -/
def sim (ps : List (α × α)) (m : α → Option β) : α → Option β := fun n =>
  match ps.find? fun p => p.2 = n with
  | some p => m p.1
  | none => if n ∈ ps.map Prod.fst then none else m n

/-- One pair: the second name takes the value, the first is removed. -/
def move (a b : α) (v : β) (m : α → Option β) : α → Option β :=
  Function.update (Function.update m b (some v)) a none

/-- One pair after another; there is no result when a first name is not bound. -/
def seq : List (α × α) → (α → Option β) → Option (α → Option β)
  | [], m => some m
  | (a, b) :: ps, m =>
    match m a with
    | some v => seq ps (move a b v m)
    | none => none

/-- The first names are bound, and the names that result are distinct. -/
structure Clean (ps : List (α × α)) (m : α → Option β) : Prop where
  /-- the first names are bound -/
  bound : ∀ p ∈ ps, (m p.1).isSome
  /-- no two pairs have the same second name -/
  nodup : (ps.map Prod.snd).Nodup
  /-- a second name that is bound is renamed itself -/
  fresh : ∀ p ∈ ps, (m p.2).isSome → p.2 ∈ ps.map Prod.fst

/-- No first name is the second of its own pair, or a name of a pair before. -/
def InOrder (ps : List (α × α)) : Prop :=
  (∀ p ∈ ps, p.1 ≠ p.2) ∧ ps.Pairwise fun p q => q.1 ≠ p.1 ∧ q.1 ≠ p.2

instance (ps : List (α × α)) : Decidable (InOrder ps) := by
  unfold InOrder
  infer_instance

variable {ps : List (α × α)} {m r : α → Option β} {a b n : α} {v : β}

@[simp] theorem sim_nil : sim [] m = m := by
  funext n
  simp [sim]

theorem move_left : move a b v m a = none := by simp [move]

theorem move_right (h : a ≠ b) : move a b v m b = some v := by
  simp [move, Function.update_of_ne h.symm]

theorem move_of_ne (ha : n ≠ a) (hb : n ≠ b) : move a b v m n = m n := by
  simp [move, ha, hb]

theorem move_isSome (h : (move a b v m n).isSome) (hb : n ≠ b) : n ≠ a ∧ move a b v m n = m n := by
  have ha : n ≠ a := by
    rintro rfl
    simp [move_left] at h
  exact ⟨ha, move_of_ne ha hb⟩

omit [DecidableEq α] in
theorem inOrder_cons : InOrder ((a, b) :: ps) ↔
    a ≠ b ∧ (∀ q ∈ ps, q.1 ≠ a ∧ q.1 ≠ b) ∧ InOrder ps := by
  simp only [InOrder, List.forall_mem_cons, List.pairwise_cons]
  tauto

/-- The first pair can be done before the others. -/
theorem sim_cons (hab : a ≠ b) (hne : ∀ q ∈ ps, q.1 ≠ a ∧ q.1 ≠ b)
    (hnodup : b ∉ ps.map Prod.snd) (hv : m a = some v) :
    sim ((a, b) :: ps) m = sim ps (move a b v m) := by
  have hold : ∀ n, n ∈ ps.map Prod.fst → n ≠ a ∧ n ≠ b := by
    intro n hn
    obtain ⟨q, hq, rfl⟩ := List.mem_map.1 hn
    exact hne q hq
  funext n
  by_cases hbn : b = n
  · subst hbn
    have hfind : ps.find? (fun p => p.2 = b) = none := by
      rw [List.find?_eq_none]
      intro q hq hqb
      exact hnodup (List.mem_map.2 ⟨q, hq, of_decide_eq_true hqb⟩)
    have hb : b ∉ ps.map Prod.fst := fun hmem => (hold b hmem).2 rfl
    simp only [sim, List.find?_cons, decide_true, hfind, if_neg hb, move_right hab, hv]
  · simp only [sim, List.find?_cons, decide_eq_false hbn]
    cases hfind : ps.find? fun p => p.2 = n with
    | some q =>
      have hq := hne q (List.mem_of_find?_eq_some hfind)
      exact (move_of_ne hq.1 hq.2).symm
    | none =>
      by_cases hna : n = a
      · subst hna
        simp [move_left]
      · simp only [List.map_cons, List.mem_cons, hna, false_or,
          move_of_ne hna (Ne.symm hbn)]

theorem Clean.tail (h : Clean ((a, b) :: ps) m) (hne : ∀ q ∈ ps, q.1 ≠ a ∧ q.1 ≠ b) :
    Clean ps (move a b v m) := by
  have hnodup := List.nodup_cons.1 h.nodup
  refine ⟨fun q hq => ?_, hnodup.2, fun q hq hbound => ?_⟩
  · rw [move_of_ne (hne q hq).1 (hne q hq).2]
    exact h.bound q (List.mem_cons_of_mem _ hq)
  · have hqb : q.2 ≠ b := fun heq => hnodup.1 (List.mem_map.2 ⟨q, hq, heq⟩)
    obtain ⟨hqa, heq⟩ := move_isSome hbound hqb
    rw [heq] at hbound
    exact (List.mem_cons.1 (h.fresh q (List.mem_cons_of_mem _ hq) hbound)).resolve_left hqa

/-- **Pairs in order** can be done one by one. -/
theorem seq_eq_sim (h : Clean ps m) (hord : InOrder ps) : seq ps m = some (sim ps m) := by
  induction ps generalizing m with
  | nil => rw [seq, sim_nil]
  | cons p ps ih =>
    obtain ⟨a, b⟩ := p
    obtain ⟨hab, hne, hord⟩ := inOrder_cons.1 hord
    obtain ⟨v, hv⟩ := Option.isSome_iff_exists.1 (h.bound (a, b) List.mem_cons_self)
    rw [sim_cons hab hne (List.nodup_cons.1 h.nodup).1 hv]
    simp only [seq, hv]
    exact ih (h.tail hne) hord

/-- A name that is not given again, and is not bound or will be removed, is not bound in
the end. -/
theorem seq_eq_none (hr : seq ps m = some r) (hgiven : n ∉ ps.map Prod.snd)
    (hn : m n = none ∨ n ∈ ps.map Prod.fst) : r n = none := by
  induction ps generalizing m with
  | nil =>
    obtain rfl : m = r := by simpa [seq] using hr
    simpa using hn
  | cons p ps ih =>
    obtain ⟨a, b⟩ := p
    simp only [List.map_cons, List.mem_cons, not_or] at hgiven hn
    cases hv : m a with
    | none => simp [seq, hv] at hr
    | some v =>
      simp only [seq, hv] at hr
      refine ih hr hgiven.2 ?_
      by_cases hna : n = a
      · subst hna
        exact Or.inl move_left
      · rw [move_of_ne hna hgiven.1]
        exact hn.imp_right fun h => h.resolve_left hna

/-- A name that has to be given before it is removed is not bound in the end. -/
theorem seq_removed (hr : seq ps m = some r) (hnodup : (ps.map Prod.snd).Nodup)
    (hold : n ∈ ps.map Prod.fst) (hn : m n = none) : r n = none ∧ n ∈ ps.map Prod.snd := by
  induction ps generalizing m with
  | nil => simp at hold
  | cons p ps ih =>
    obtain ⟨a, b⟩ := p
    obtain ⟨hb, hnodup⟩ := List.nodup_cons.1 hnodup
    cases hv : m a with
    | none => simp [seq, hv] at hr
    | some v =>
      simp only [seq, hv] at hr
      have hna : n ≠ a := by
        rintro rfl
        simp [hn] at hv
      have hold' : n ∈ ps.map Prod.fst := (List.mem_cons.1 hold).resolve_left hna
      by_cases hnb : n = b
      · subst hnb
        exact ⟨seq_eq_none hr hb (Or.inr hold'), List.mem_cons_self⟩
      · obtain ⟨hnone, hgiven⟩ := ih hr hnodup hold' (by rw [move_of_ne hna hnb, hn])
        exact ⟨hnone, List.mem_cons_of_mem _ hgiven⟩

/-- A name that is given is bound when all are given at once. -/
theorem sim_isSome (h : Clean ps m) (hn : n ∈ ps.map Prod.snd) : (sim ps m n).isSome := by
  obtain ⟨p, hp, rfl⟩ := List.mem_map.1 hn
  cases hfind : ps.find? fun q => q.2 = p.2 with
  | some q =>
    simp only [sim, hfind]
    exact h.bound q (List.mem_of_find?_eq_some hfind)
  | none => exact absurd (List.find?_eq_none.1 hfind p hp) (by simp)

/-- **When renaming one by one is renaming at once.** -/
theorem seq_eq_sim_iff (h : Clean ps m) : seq ps m = some (sim ps m) ↔ InOrder ps := by
  refine ⟨fun hseq => ?_, seq_eq_sim h⟩
  induction ps generalizing m with
  | nil => exact ⟨fun p hp => absurd hp List.not_mem_nil, List.Pairwise.nil⟩
  | cons p ps ih =>
    obtain ⟨a, b⟩ := p
    obtain ⟨v, hv⟩ := Option.isSome_iff_exists.1 (h.bound (a, b) List.mem_cons_self)
    obtain ⟨hb, hnodup⟩ := List.nodup_cons.1 h.nodup
    have hr : seq ps (move a b v m) = some (sim ((a, b) :: ps) m) := by
      simpa only [seq, hv] using hseq
    -- a name that is given may not be missing in the end
    have hgiven : ∀ n ∈ b :: ps.map Prod.snd, sim ((a, b) :: ps) m n ≠ none := fun n hn hnone => by
      simpa [hnone] using sim_isSome h hn
    have hab : a ≠ b := by
      rintro rfl
      exact hgiven a List.mem_cons_self (seq_eq_none hr hb (Or.inl move_left))
    have hne : ∀ q ∈ ps, q.1 ≠ a ∧ q.1 ≠ b := by
      intro q hq
      have hold : q.1 ∈ ps.map Prod.fst := List.mem_map_of_mem hq
      refine ⟨fun heq => ?_, fun heq => ?_⟩
      · obtain ⟨hnone, hmem⟩ := seq_removed hr hnodup (heq ▸ hold) move_left
        exact hgiven a (List.mem_cons_of_mem _ hmem) hnone
      · exact hgiven b List.mem_cons_self (seq_eq_none hr hb (Or.inr (heq ▸ hold)))
    rw [sim_cons hab hne hb hv] at hr
    exact inOrder_cons.2 ⟨hab, hne, ih (h.tail hne) hr⟩

end Renaming
