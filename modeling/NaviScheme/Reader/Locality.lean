import NaviScheme.Reader.Structure

/-!
# A reader does what it takes

What a function of the reader does depends on the characters that it takes and the one behind them
(`NaviScheme.Local`), and not on the bound on its steps once it returns. The functions that take a
whole token do not depend on that last character either, if a space is put in front of it
(`NaviScheme.Delimits`): a space ends every token.
-/

namespace NaviScheme

open Fuel

/-- What a port that can be read still delivers, and whether it folds case. -/
structure Port.Stands (p : Port) (cs : List Char) (fold : Bool) : Prop extends p.At cs where
  folds : p.foldCase = fold

theorem Port.At.stands {p : Port} {cs : List Char} (h : p.At cs) : p.Stands cs p.foldCase :=
  ⟨h, rfl⟩

theorem Port.At.unique {p : Port} {cs ds : List Char} (h : p.At cs) (h' : p.At ds) : cs = ds :=
  h.has.unique h'.has

theorem frontCode_append {x : List Char} (hx : x ≠ []) (t t' : List Char) :
    frontCode (x ++ t') = frontCode (x ++ t) := by
  obtain ⟨c, ds, rfl⟩ := List.exists_cons_of_ne_nil hx
  rfl

/-- What is left in front of a text is left of what was in front of it. -/
theorem exists_eq_append {x y t : List Char} (h : y ++ t <:+ x ++ t) : ∃ z, x = z ++ y := by
  obtain ⟨z, hz⟩ := h
  rw [← List.append_assoc] at hz
  exact ⟨z, (List.append_cancel_right hz).symm⟩

section Rules

variable {α β : Type} {n : ℕ} {f f' : ℕ → ReadM α} {g : α → ℕ → ReadM β}

/-- What a function returns with the bound `n` depends on the characters that it takes and the one
behind them. -/
structure Local (n : ℕ) (f : ℕ → ReadM α) : Prop where
  /-- The bound can be raised. -/
  more : ∀ {p : Port} {r : α × Port}, f n p = .ok r → f (n + 1) p = .ok r
  /-- Characters are taken from the front. -/
  leaves : ∀ {p q : Port} {v : α} {cs : List Char}, p.At cs → f n p = .ok (v, q) →
    ∃ ds, q.At ds ∧ ds <:+ cs
  /-- The characters behind the next one play no role. -/
  same : ∀ {p p' q : Port} {v : α} {x y t t' : List Char} {fold fold' : Bool},
    p.Stands (x ++ t) fold → p'.Stands (x ++ t') fold → frontCode t' = frontCode t →
      f n p = .ok (v, q) → q.Stands (y ++ t) fold' →
        ∃ q', f n p' = .ok (v, q') ∧ q'.Stands (y ++ t') fold'

/-- It stops in front of a space wherever it stops. -/
structure Delimits (n : ℕ) (f : ℕ → ReadM α) : Prop extends Local n f where
  /-- A space can be put behind what is taken. -/
  stops : ∀ {p p' q : Port} {v : α} {x t t' : List Char} {w : Char} {fold fold' : Bool}, t ≠ [] →
    isspace w.toNat = true → p.Stands (x ++ t) fold → p'.Stands (x ++ w :: t') fold →
      f n p = .ok (v, q) → q.Stands t fold' →
        ∃ q', f n p' = .ok (v, q') ∧ q'.Stands (w :: t') fold'

/-- The parts of a sequence that returns. -/
theorem bind_eq_ok_readM {m : ReadM α} {k : α → ReadM β} {p : Port} {r : β × Port}
    (h : (m >>= k) p = .ok r) : ∃ v q, m p = .ok (v, q) ∧ k v q = .ok r := by
  obtain ⟨⟨v, q⟩, hm, hk⟩ := bind_eq_ok h
  exact ⟨v, q, hm, hk⟩

namespace Local

theorem bind (hf : Local n f) (hg : ∀ a, Local n (g a)) :
    Local n fun k => f k >>= fun a => g a k where
  more h := by
    obtain ⟨a, p₁, h₁, h₂⟩ := bind_eq_ok_readM h
    exact (readM_bind (hf.more h₁)).trans ((hg a).more h₂)
  leaves hp h := by
    obtain ⟨a, p₁, h₁, h₂⟩ := bind_eq_ok_readM h
    obtain ⟨ds, hds, hsuf⟩ := hf.leaves hp h₁
    obtain ⟨es, hes, hsuf'⟩ := (hg a).leaves hds h₂
    exact ⟨es, hes, hsuf'.trans hsuf⟩
  same hp hp' hfront h hq := by
    obtain ⟨a, p₁, h₁, h₂⟩ := bind_eq_ok_readM h
    obtain ⟨ds, hds, -⟩ := hf.leaves hp.toAt h₁
    obtain ⟨es, hes, z, hz⟩ := (hg a).leaves hds h₂
    obtain rfl := hes.unique hq.toAt
    rw [← hz, ← List.append_assoc] at hds
    obtain ⟨p₁', h₁', hp₁'⟩ := hf.same hp hp' hfront h₁ hds.stands
    obtain ⟨q', h₂', hq'⟩ := (hg a).same hds.stands hp₁' hfront h₂ hq
    exact ⟨q', (readM_bind h₁').trans h₂', hq'⟩

/-- **A space behind what a sequence takes**, if the first part of it leaves some of that. -/
theorem stops_bind {p p' p₁ q : Port} {a : α} {v : β} {x y t t' : List Char} {w : Char}
    {fold fold' : Bool} (hf : Local n f) (hg : Delimits n (g a)) (ht : t ≠ [])
    (hw : isspace w.toNat = true) (hp : p.Stands (x ++ t) fold) (hp' : p'.Stands (x ++ w :: t') fold)
    (h₁ : f n p = .ok (a, p₁)) (hp₁ : p₁.At (y ++ t)) (hy : y ≠ []) (h₂ : g a n p₁ = .ok (v, q))
    (hq : q.Stands t fold') :
    ∃ q', (f n >>= fun a => g a n) p' = .ok (v, q') ∧ q'.Stands (w :: t') fold' := by
  obtain ⟨ds, hds, hsuf⟩ := hf.leaves hp.toAt h₁
  obtain rfl := hds.unique hp₁
  obtain ⟨z, rfl⟩ := exists_eq_append hsuf
  rw [List.append_assoc] at hp hp'
  have hq₁ : p₁.Stands ([] ++ (y ++ t)) p₁.foldCase := hp₁.stands
  obtain ⟨p₁', h₁', hp₁'⟩ := hf.same hp hp' (frontCode_append hy t (w :: t')) h₁ hq₁
  obtain ⟨q', h₂', hq'⟩ := hg.stops ht hw hp₁.stands hp₁' h₂ hq
  exact ⟨q', (readM_bind h₁').trans h₂', hq'⟩

theorem pure (v : α) : Local n fun _ => (Pure.pure v : ReadM α) where
  more h := h
  leaves hp h := by
    cases h
    exact ⟨_, hp, List.suffix_rfl⟩
  same hp hp' _ h hq := by
    cases h
    obtain heq := List.append_cancel_right (hp.toAt.unique hq.toAt)
    obtain rfl := hp.folds.symm.trans hq.folds
    subst heq
    exact ⟨_, rfl, hp'⟩

theorem throw (e : ReadExn) : Local n fun _ => (throw e : ReadM α) where
  more h := nomatch h
  leaves _ h := nomatch h
  same _ _ _ h _ := nomatch h

theorem ite {c : Prop} [Decidable c] (h : Local n f) (h' : Local n f') :
    Local n fun k => if c then f k else f' k := by
  by_cases hc : c
  · simpa only [if_pos hc] using h
  · simpa only [if_neg hc] using h'

/-- A function that hands its bound down by one less. -/
theorem succ (h : Local n fun k => f (k + 1)) : Local (n + 1) f where
  more h₁ := h.more h₁
  leaves hp h₁ := h.leaves hp h₁
  same hp hp' hfront h₁ hq := h.same hp hp' hfront h₁ hq

/-- A function that needs more steps. -/
theorem zero (hf : f 0 = timeout) : Local 0 f where
  more h := by
    rw [hf] at h
    cases h
  leaves _ h := by
    rw [hf] at h
    cases h
  same _ _ _ h _ := by
    rw [hf] at h
    cases h

/-- A result does not depend on the bound. -/
theorem converges (h : ∀ n, Local n f) {p : Port} {r : α × Port} (hr : f n p = .ok r) :
    Converges f p (.ok r) := by
  refine ⟨n, fun k hk => ?_⟩
  induction k, hk using Nat.le_induction with
  | base => exact hr
  | succ k _ ih => exact (h k).more ih

end Local

namespace Delimits

theorem pure (v : α) : Delimits n fun _ => (Pure.pure v : ReadM α) where
  toLocal := Local.pure v
  stops {p p' q v' x t t' w fold fold'} _ _ hp hp' h hq := by
    cases h
    have hx : x = [] := List.append_left_eq_self.mp (hp.toAt.unique hq.toAt)
    obtain rfl := hp.folds.symm.trans hq.folds
    subst hx
    exact ⟨_, rfl, hp'⟩

theorem throw (e : ReadExn) : Delimits n fun _ => (throw e : ReadM α) where
  toLocal := Local.throw e
  stops _ _ _ _ h _ := nomatch h

theorem lift (x : Except ReadExn α) : Delimits n fun _ => (liftM x : ReadM α) := by
  cases x with
  | error e => exact throw e
  | ok v => exact pure v

theorem bind (hf : Delimits n f) (hg : ∀ a, Delimits n (g a)) :
    Delimits n fun k => f k >>= fun a => g a k where
  toLocal := hf.toLocal.bind fun a => (hg a).toLocal
  stops ht hw hp hp' h hq := by
    obtain ⟨a, p₁, h₁, h₂⟩ := bind_eq_ok_readM h
    obtain ⟨ds, hds, -⟩ := hf.leaves hp.toAt h₁
    obtain ⟨es, hes, y, hy⟩ := (hg a).leaves hds h₂
    obtain rfl := hes.unique hq.toAt
    subst hy
    by_cases hy : y = []
    · -- the first function stops here
      subst hy
      obtain ⟨p₁', h₁', hp₁'⟩ := hf.stops ht hw hp hp' h₁ hds.stands
      have hq₁ : p₁.Stands ([] ++ es) p₁.foldCase := hds.stands
      obtain ⟨q', h₂', hq'⟩ := (hg a).stops ht hw hq₁ hp₁' h₂ hq
      exact ⟨q', (readM_bind h₁').trans h₂', hq'⟩
    · exact hf.toLocal.stops_bind (hg a) ht hw hp hp' h₁ hds hy h₂ hq

theorem ite {c : Prop} [Decidable c] (h : Delimits n f) (h' : Delimits n f') :
    Delimits n fun k => if c then f k else f' k := by
  by_cases hc : c
  · simpa only [if_pos hc] using h
  · simpa only [if_neg hc] using h'

theorem succ (h : Delimits n fun k => f (k + 1)) : Delimits (n + 1) f where
  toLocal := h.toLocal.succ
  stops ht hw hp hp' h₁ hq := h.stops ht hw hp hp' h₁ hq

theorem zero (hf : f 0 = timeout) : Delimits 0 f where
  toLocal := Local.zero hf
  stops _ _ _ _ h _ := by
    rw [hf] at h
    cases h

/-- A sequence whose second part takes a character whenever the first has left one. -/
theorem bind_fewer (hf : Local n f) (hg : ∀ a, Delimits n (g a))
    (hfewer : ∀ {p p₁ q : Port} {a : α} {v : β} {cs es : List Char}, p.At cs →
      f n p = .ok (a, p₁) → g a n p₁ = .ok (v, q) → q.At es → es ≠ [] → ¬ p₁.At es) :
    Delimits n fun k => f k >>= fun a => g a k where
  toLocal := hf.bind fun a => (hg a).toLocal
  stops {p p' q v x t t' w fold fold'} ht hw hp hp' h hq := by
    obtain ⟨a, p₁, h₁, h₂⟩ := bind_eq_ok_readM h
    obtain ⟨ds, hds, -⟩ := hf.leaves hp.toAt h₁
    obtain ⟨es, hes, y, hy⟩ := (hg a).leaves hds h₂
    obtain rfl := hes.unique hq.toAt
    subst hy
    have hy : y ≠ [] := by
      rintro rfl
      exact hfewer hp.toAt h₁ h₂ hq.toAt ht hds
    exact hf.stops_bind (hg a) ht hw hp hp' h₁ hds hy h₂ hq

/-- A function that peeks at a character, and does nothing else with it than with a space if it
takes none. -/
theorem bind_peek {k : ℤ → ℕ → ReadM β} {m : ReadM ℤ} (hm : Local n fun _ => m)
    (hpeek : ∀ {p : Port} {cs : List Char}, p.At cs → cs ≠ [] →
      ∃ q, m p = .ok (frontCode cs, q) ∧ q.Stands cs p.foldCase)
    (hk : ∀ c, Delimits n (k c))
    (hidle : ∀ {p q : Port} {v : β} {cs : List Char} {w : Char}, cs ≠ [] → p.At cs →
      k (frontCode cs) n p = .ok (v, q) → q.At cs → isspace w.toNat = true →
        k w.toNat n = k (frontCode cs) n) :
    Delimits n fun j => m >>= fun c => k c j where
  toLocal := hm.bind fun c => (hk c).toLocal
  stops {p p' q v x t t' w fold fold'} ht hw hp hp' h hq := by
    have hne : x ++ t ≠ [] := List.append_ne_nil_of_right_ne_nil x ht
    obtain ⟨p₁, h₁, hp₁⟩ := hpeek hp.toAt hne
    have h₂ : k (frontCode (x ++ t)) n p₁ = .ok (v, q) := (readM_bind h₁).symm.trans h
    by_cases hx : x = []
    · subst hx
      obtain ⟨p₁', h₁', hp₁'⟩ := hpeek hp'.toAt (List.cons_ne_nil w t')
      have hsame := hidle ht hp₁.toAt h₂ hq.toAt hw
      rw [hp.folds] at hp₁
      rw [hp'.folds] at hp₁'
      have hpt : p₁.Stands ([] ++ t) fold := hp₁
      have hpt' : p₁'.Stands ([] ++ w :: t') fold := hp₁'
      obtain ⟨q', h₂', hq'⟩ := (hk _).stops ht hw hpt hpt' h₂ hq
      refine ⟨q', (readM_bind h₁').trans ?_, hq'⟩
      rw [List.nil_append, frontCode_cons, hsame]
      exact h₂'
    · exact hm.stops_bind (hk _) ht hw hp hp' h₁ hp₁.toAt hx h₂ hq

end Delimits

end Rules

/-! ### Characters -/

section Characters

variable {n : ℕ} {p : Port} {cs : List Char}

theorem delimits_readChar : Delimits n fun _ => readChar where
  more h := h
  leaves hp h := by
    obtain ⟨q₁, hrun, hq₁, -⟩ := hp.readChar
    rw [hrun] at h
    cases h
    exact ⟨_, hq₁, List.tail_suffix _⟩
  same {p p' q v x y t t' fold fold'} hp hp' hfront h hq := by
    obtain ⟨q₁, hrun, hq₁, hfold⟩ := hp.toAt.readChar
    rw [hrun] at h
    cases h
    have heq := hq₁.unique hq.toAt
    obtain ⟨q', hrun', hq', hfold'⟩ := hp'.toAt.readChar
    have hstate : q'.foldCase = fold' := by
      rw [hfold', hp'.folds, ← hp.folds, ← hfold, hq.folds]
    cases x with
    | cons c x =>
      obtain rfl := List.append_cancel_right heq
      exact ⟨q', hrun', hq', hstate⟩
    | nil =>
      -- the end has been met
      have hlen := congrArg List.length heq
      rw [List.nil_append, List.length_tail, List.length_append] at hlen
      have ht : t = [] := List.length_eq_zero_iff.mp (by omega)
      have hy : y = [] := List.length_eq_zero_iff.mp (by omega)
      subst ht hy
      obtain rfl := frontCode_eq_eof.mp hfront
      exact ⟨q', hrun', hq', hstate⟩
  stops {p p' q v x t t' w fold fold'} ht _ hp hp' h hq := by
    obtain ⟨q₁, hrun, hq₁, hfold⟩ := hp.toAt.readChar
    rw [hrun] at h
    cases h
    have heq := hq₁.unique hq.toAt
    obtain ⟨q', hrun', hq', hfold'⟩ := hp'.toAt.readChar
    have hstate : q'.foldCase = fold' := by
      rw [hfold', hp'.folds, ← hp.folds, ← hfold, hq.folds]
    cases x with
    | nil =>
      have hlen := congrArg List.length heq
      have hpos := List.length_pos_iff.mpr ht
      rw [List.nil_append, List.length_tail] at hlen
      omega
    | cons c x =>
      have hx : x = [] := List.append_left_eq_self.mp heq
      subst hx
      exact ⟨q', hrun', hq', hstate⟩

theorem local_peekChar : Local n fun _ => peekChar where
  more h := h
  leaves hp h := by
    obtain ⟨q₁, hrun, hq₁, -⟩ := hp.peekChar
    rw [hrun] at h
    cases h
    exact ⟨_, hq₁, List.suffix_rfl⟩
  same {p p' q v x y t t' fold fold'} hp hp' hfront h hq := by
    obtain ⟨q₁, hrun, hq₁, hfold, -⟩ := hp.toAt.peekChar
    rw [hrun] at h
    cases h
    obtain rfl := List.append_cancel_right (hq₁.unique hq.toAt)
    obtain ⟨q', hrun', hq', hfold', -⟩ := hp'.toAt.peekChar
    have hstate : q'.foldCase = fold' := by
      rw [hfold', hp'.folds, ← hp.folds, ← hfold, hq.folds]
    have hcode : frontCode (x ++ t') = frontCode (x ++ t) := by
      by_cases hx : x = []
      · subst hx
        exact hfront
      · exact frontCode_append hx t t'
    rw [hcode] at hrun'
    exact ⟨q', hrun', hq', hstate⟩

theorem Port.At.peeks (h : p.At cs) (_ : cs ≠ []) :
    ∃ q, NaviScheme.peekChar p = .ok (frontCode cs, q) ∧ q.Stands cs p.foldCase := by
  obtain ⟨q, hrun, hq, hfold, -⟩ := h.peekChar
  exact ⟨q, hrun, hq, hfold⟩

theorem Port.At.ipeeks (h : p.At cs) (hcs : cs ≠ []) :
    ∃ q, ipeekChar p = .ok (frontCode cs, q) ∧ q.Stands cs p.foldCase := by
  obtain ⟨q, hrun, hq⟩ := h.peeks hcs
  refine ⟨q, (readM_bind hrun).trans ?_, hq⟩
  rw [if_neg fun heof => hcs (frontCode_eq_eof.mp heof)]
  rfl

theorem delimits_ireadChar : Delimits n fun _ => ireadChar :=
  delimits_readChar.bind fun _ => Delimits.ite (Delimits.throw _) (Delimits.pure _)

theorem local_ipeekChar : Local n fun _ => ipeekChar :=
  local_peekChar.bind fun _ => Local.ite (Local.throw _) (Local.pure _)

theorem local_peekFirstChar : Local n peekFirstChar := by
  induction n with
  | zero => exact Local.zero rfl
  | succ n ih =>
    refine Local.succ (local_peekChar.bind fun c => ?_)
    exact Local.ite (delimits_readChar.toLocal.bind fun _ => ih) (Local.pure _)

theorem local_ipeekFirstChar : Local n ipeekFirstChar :=
  local_peekFirstChar.bind fun _ => Local.ite (Local.throw _) (Local.pure _)

theorem Port.At.setFoldCase (h : p.At cs) (fold : Bool) : { p with foldCase := fold }.At cs :=
  ⟨h.isOpen, h.has.setFoldCase fold⟩

/-- A function that looks at nothing but the folding of case. -/
theorem Delimits.of_folds {α : Type} {m : ReadM α} {k : Bool → α × Bool}
    (hm : ∀ p, m p = .ok ((k p.foldCase).1, { p with foldCase := (k p.foldCase).2 })) :
    Delimits n fun _ => m where
  more h := h
  leaves hp h := by
    rw [hm] at h
    cases h
    exact ⟨_, hp.setFoldCase _, List.suffix_rfl⟩
  same {p p' q v x y t t' fold fold'} hp hp' _ h hq := by
    rw [hm] at h
    cases h
    have hat := hp.toAt.setFoldCase (k p.foldCase).2
    obtain rfl := List.append_cancel_right (hat.unique hq.toAt)
    obtain rfl := hq.folds
    refine ⟨_, (hm p').trans ?_, hp'.toAt.setFoldCase _, rfl⟩
    rw [hp.folds, hp'.folds]
  stops {p p' q v x t t' w fold fold'} _ _ hp hp' h hq := by
    rw [hm] at h
    cases h
    have hat := hp.toAt.setFoldCase (k p.foldCase).2
    have hx : x = [] := List.append_left_eq_self.mp (hat.unique hq.toAt)
    subst hx
    obtain rfl := hq.folds
    refine ⟨_, (hm p').trans ?_, hp'.toAt.setFoldCase _, rfl⟩
    rw [hp.folds, hp'.folds]

theorem delimits_handleCase (str : List UInt8) : Delimits n fun _ => handleCase str := by
  refine Delimits.of_folds (k := fun b => (foldedName b str, b)) fun p => ?_
  change (if p.foldCase then (pure _ : ReadM _) else pure _) p = _
  rw [foldedName]
  split_ifs
  · rfl
  · rfl

theorem delimits_naviPortFoldCase (fold : Bool) : Delimits n fun _ => naviPortFoldCase fold :=
  Delimits.of_folds (k := fun _ => ((), fold)) fun _ => rfl

end Characters

/-! ### Results -/

section Results

variable {α β : Type} {f : ℕ → ReadM α} {g : α → ℕ → ReadM β} {p p' q : Port} {v : α}
  {x y t t' cs es : List Char} {w : Char} {fold fold' : Bool}

/-- A function returns `v`, and leaves the port at the characters `es`, folding case or not. -/
def Gives (f : ℕ → ReadM α) (p : Port) (v : α) (es : List Char) (fold : Bool) : Prop :=
  ∃ q, Converges f p (.ok (v, q)) ∧ q.Stands es fold

/-- The parts of a sequence that returns return. -/
theorem exists_converges_bind (hf : ∀ n, Local n f) (hg : ∀ n a, Local n (g a)) {r : β × Port}
    (h : Converges (fun n => f n >>= fun a => g a n) p (.ok r)) :
    ∃ a q, Converges f p (.ok (a, q)) ∧ Converges (g a) q (.ok r) := by
  obtain ⟨N, hN⟩ := h
  obtain ⟨a, q, hf', hg'⟩ := bind_eq_ok_readM (hN N le_rfl)
  exact ⟨a, q, Local.converges hf hf', Local.converges (fun n => hg n a) hg'⟩

/-- What follows a part that is known to return. -/
theorem converges_of_bind (hf : ∀ n, Local n f) (hg : ∀ n a, Local n (g a)) {r : β × Port}
    (h : Converges (fun n => f n >>= fun a => g a n) p (.ok r))
    (h₁ : Converges f p (.ok (v, q))) : Converges (g v) q (.ok r) := by
  obtain ⟨a, q', h₁', h₂⟩ := exists_converges_bind hf hg h
  cases h₁.unique h₁'
  exact h₂

namespace Local

theorem exists_at (hf : ∀ n, Local n f) (hp : p.At cs) (h : Converges f p (.ok (v, q))) :
    ∃ ds, q.At ds ∧ ds <:+ cs := by
  obtain ⟨N, hN⟩ := h
  exact (hf N).leaves hp (hN N le_rfl)

/-- The same characters give the same result. -/
theorem agree (hf : ∀ n, Local n f) (hp : p.Stands cs fold) (hp' : p'.Stands cs fold)
    (h : Gives f p v es fold') : Gives f p' v es fold' := by
  obtain ⟨q, ⟨N, hN⟩, hq⟩ := h
  rw [← List.append_nil cs] at hp hp'
  rw [← List.append_nil es] at hq
  obtain ⟨q', hq', hat⟩ := (hf N).same hp hp' rfl (hN N le_rfl) hq
  rw [List.append_nil] at hat
  exact ⟨q', Local.converges hf hq', hat⟩

/-- Characters may be put behind those that are looked at. -/
theorem transfer (hf : ∀ n, Local n f) (hp : p.Stands (x ++ t) fold)
    (hp' : p'.Stands (x ++ t') fold) (hy : y ≠ []) (h : Converges f p (.ok (v, q)))
    (hq : q.Stands (y ++ t) fold') : ∃ q', Converges f p' (.ok (v, q')) ∧ q'.Stands (y ++ t') fold' := by
  obtain ⟨ds, hds, hsuf⟩ := exists_at hf hp.toAt h
  obtain rfl := hds.unique hq.toAt
  obtain ⟨z, rfl⟩ := exists_eq_append hsuf
  obtain ⟨N, hN⟩ := h
  rw [List.append_assoc] at hp hp'
  have hq₁ : q.Stands ([] ++ (y ++ t)) fold' := hq
  obtain ⟨q', hq', hat⟩ := (hf N).same hp hp' (frontCode_append hy t t') (hN N le_rfl) hq₁
  exact ⟨q', Local.converges hf hq', hat⟩

end Local

/-- A space may be put behind what is taken. -/
theorem Delimits.transfer (hf : ∀ n, Delimits n f) (ht : t ≠ []) (hw : isspace w.toNat = true)
    (hp : p.Stands (x ++ t) fold) (hp' : p'.Stands (x ++ w :: t') fold)
    (h : Converges f p (.ok (v, q))) (hq : q.Stands (y ++ t) fold') :
    ∃ q', Converges f p' (.ok (v, q')) ∧ q'.Stands (y ++ w :: t') fold' := by
  have hlocal : ∀ n, Local n f := fun n => (hf n).toLocal
  by_cases hy : y = []
  · subst hy
    obtain ⟨N, hN⟩ := h
    obtain ⟨q', hq', hat⟩ := (hf N).stops ht hw hp hp' (hN N le_rfl) hq
    exact ⟨q', Local.converges hlocal hq', hat⟩
  · exact Local.transfer hlocal hp hp' hy h hq

end Results

end NaviScheme
