import NaviScheme.Lib.Prog

/-!
# Contracts of programs

A contract (`Prog.OpContract`, `Prog.FnContract`) says what operations and calls are asked, and
what may be taken of their replies. `Prog.Keeps` says of a program that it keeps to a contract:
whatever replies it gets, if they are as they should be, it asks what it may ask, and what it
returns satisfies a predicate.

If the bodies of all functions keep to a contract, and operations that are asked what they may
be asked keep an invariant of the state and reply as they should, then every run keeps the
invariant, and what it returns is as it should be (`Prog.Semantics.runFn_keeps`). An operation
may also come to a point of no return, after which nothing is said of the run.

A change of the state that operations do not notice, when they are asked what they may be asked,
is not noticed by runs either (`Prog.Semantics.Evaluates.image`).
-/

namespace Prog

variable {O : OpSig} {F : FnSig} {α β σ Φ E : Type}

/-- What operations are asked, and how they reply. -/
structure OpContract (O : OpSig) where
  /-- the operations that may be performed -/
  asks : O.Op → Prop
  /-- the replies -/
  gives : (o : O.Op) → O.Reply o → Prop

/-- What calls are asked, and how they are left. -/
structure FnContract (F : FnSig) where
  /-- the calls that may be made -/
  asks : F.Fn → Prop
  /-- what they return -/
  gives : (f : F.Fn) → F.Ret f → Prop
  /-- the exceptions -/
  exn : F.Exn → Prop

variable {C : OpContract O} {D : FnContract F}

/-- A program keeps to a contract, and returns what satisfies `Q`. -/
def Keeps (C : OpContract O) (D : FnContract F) (p : Prog O F α) (Q : α → Prop) : Prop :=
  match p with
  | .ret a => Q a
  | .throw e => D.exn e
  | .op o k => C.asks o ∧ ∀ r, C.gives o r → Keeps C D (k r) Q
  | .call f _ k => D.asks f ∧ (∀ v, D.gives f v → Keeps C D (k (.ok v)) Q) ∧
      ∀ e, D.exn e → Keeps C D (k (.error e)) Q

namespace Keeps

variable {p : Prog O F α} {g : α → Prog O F β} {Q Q' : α → Prop} {R : β → Prop}

theorem mono (hQ : ∀ a, Q a → Q' a) (h : Keeps C D p Q) : Keeps C D p Q' := by
  induction p with
  | ret a => exact hQ a h
  | throw e => exact h
  | op o k ih => exact ⟨h.1, fun r hr => ih r (h.2 r hr)⟩
  | call f held k ih => exact ⟨h.1, fun v hv => ih _ (h.2.1 v hv), fun e he => ih _ (h.2.2 e he)⟩

/-- One program after another. -/
theorem bind_iff : Keeps C D (p >>= g) R ↔ Keeps C D p fun a => Keeps C D (g a) R := by
  induction p with
  | ret a => exact .rfl
  | throw e => exact .rfl
  | op o k ih => exact and_congr_right fun _ => forall_congr' fun r => imp_congr_right fun _ => ih r
  | call f held k ih =>
    exact and_congr_right fun _ => and_congr (forall_congr' fun v => imp_congr_right fun _ => ih _)
      (forall_congr' fun e => imp_congr_right fun _ => ih _)

/-- One operation. -/
theorem perform {o : O.Op} {Q : O.Reply o → Prop} (ho : C.asks o) (h : ∀ r, C.gives o r → Q r) :
    Keeps C D (Prog.perform o) Q := ⟨ho, h⟩

/-- One call. -/
theorem callFn {f : F.Fn} {held : F.Held} {Q : F.Ret f → Prop} (hf : D.asks f)
    (h : ∀ v, D.gives f v → Q v) : Keeps C D (callFn f held) Q := ⟨hf, h, fun _ he => he⟩

/-- A program without calls, as a part of another. -/
theorem embed {D' : FnContract (noCalls E)} {raise : E → Prog O F α}
    (hr : ∀ e, D'.exn e → Keeps C D (raise e) Q) {p : Leaf O E α} (h : Keeps C D' p Q) :
    Keeps C D (Prog.embed raise p) Q := by
  induction p with
  | ret a => exact h
  | throw e => exact hr e h
  | op o k ih => exact ⟨h.1, fun r hg => ih r (h.2 r hg)⟩
  | call f => exact Empty.elim f

end Keeps

/-! ### Runs -/

/-- What a run comes to is as a contract says, and the state in which it ends satisfies an
invariant `I`, unless it is beyond the point of no return `B`. -/
def Res.Keeps (I B : σ → Prop) (exn : E → Prop) (Q : α → Prop) : Res Φ E σ α → Prop
  | .ok a s => B s ∨ Q a ∧ I s
  | .exn e s => B s ∨ exn e ∧ I s
  | .fault _ => True
  | .timeout => True

/-- A run ends beyond the point of no return. -/
def Res.Ends (B : σ → Prop) : Res Φ E σ α → Prop := Res.Keeps (fun _ => False) B (fun _ => True)
  fun _ => True

theorem Res.Ends.keeps {I B : σ → Prop} {exn : E → Prop} {Q : α → Prop} {r : Res Φ E σ α}
    (h : r.Ends B) : r.Keeps I B exn Q := by
  cases r with
  | ok a s => exact .inl (h.resolve_right fun h => h.2)
  | exn e s => exact .inl (h.resolve_right fun h => h.2)
  | fault φ => trivial
  | timeout => trivial

/-- Changing the state in which a run ends. -/
theorem Res.Keeps.mapState {I I' B : σ → Prop} {exn : E → Prop} {Q : α → Prop}
    {r : Res Φ E σ α} {g : σ → σ} (h : r.Keeps I B exn Q) (hI : ∀ s, I s → I' (g s))
    (hB : ∀ s, B s → B (g s)) : (r.mapState g).Keeps I' B exn Q := by
  cases r with
  | ok a s => exact h.imp (hB s) fun h => ⟨h.1, hI s h.2⟩
  | exn e s => exact h.imp (hB s) fun h => ⟨h.1, hI s h.2⟩
  | fault φ => trivial
  | timeout => trivial

section Run

variable {step : (o : O.Op) → σ → Except Φ (O.Reply o × σ)}
  {calls : (f : F.Fn) → F.Held → σ → Res Φ F.Exn σ (F.Ret f)} {I B : σ → Prop} {s : σ}

/-- There is no return from beyond the point of no return. -/
theorem runWith_ends (hstep : ∀ o s r s', B s → step o s = .ok (r, s') → B s')
    (hcalls : ∀ f held s, B s → (calls f held s).Ends B) (p : Prog O F α) (hs : B s) :
    (runWith step calls p s).Ends B := by
  induction p generalizing s with
  | ret a => exact .inl hs
  | throw e => exact .inl hs
  | op o k ih =>
    rw [Prog.runWith]
    cases ho : step o s with
    | ok r => exact ih r.1 (hstep o s r.1 r.2 hs ho)
    | error φ => trivial
  | call f held k ih =>
    rw [Prog.runWith]
    have hcall := hcalls f held s hs
    cases hf : calls f held s with
    | ok v s' =>
      rw [hf] at hcall
      exact ih _ (hcall.resolve_right fun h => h.2)
    | exn e s' =>
      rw [hf] at hcall
      exact ih _ (hcall.resolve_right fun h => h.2)
    | fault φ => trivial
    | timeout => trivial

/-- A program that keeps to a contract keeps an invariant that its operations and its calls
keep. -/
theorem Keeps.runWith
    (hstep : ∀ o s r s', C.asks o → I s → step o s = .ok (r, s') → B s' ∨ C.gives o r ∧ I s')
    (hcalls : ∀ f held s, D.asks f → I s → (calls f held s).Keeps I B D.exn (D.gives f))
    (hstepB : ∀ o s r s', B s → step o s = .ok (r, s') → B s')
    (hcallsB : ∀ f held s, B s → (calls f held s).Ends B)
    {p : Prog O F α} {Q : α → Prop} (h : Keeps C D p Q) (hs : I s) :
    (runWith step calls p s).Keeps I B D.exn Q := by
  have hlost (p : Prog O F α) {s : σ} (hs : B s) : (Prog.runWith step calls p s).Keeps I B D.exn Q :=
    (runWith_ends hstepB hcallsB p hs).keeps
  induction p generalizing s with
  | ret a => exact .inr ⟨h, hs⟩
  | throw e => exact .inr ⟨h, hs⟩
  | op o k ih =>
    rw [Prog.runWith]
    cases ho : step o s with
    | ok r =>
      obtain hB | ⟨hr, hs'⟩ := hstep o s r.1 r.2 h.1 hs ho
      · exact hlost _ hB
      · exact ih r.1 (h.2 r.1 hr) hs'
    | error φ => trivial
  | call f held k ih =>
    rw [Prog.runWith]
    have hcall := hcalls f held s h.1 hs
    cases hf : calls f held s with
    | ok v s' =>
      rw [hf] at hcall
      obtain hB | ⟨hv, hs'⟩ := hcall
      · exact hlost _ hB
      · exact ih _ (h.2.1 v hv) hs'
    | exn e s' =>
      rw [hf] at hcall
      obtain hB | ⟨he, hs'⟩ := hcall
      · exact hlost _ hB
      · exact ih _ (h.2.2 e he) hs'
    | fault φ => trivial
    | timeout => trivial

end Run

namespace Semantics

variable {M : Semantics O F σ Φ} {I B : σ → Prop} {s s' : σ}

section Contract

variable
  (hstep : ∀ o s r s', C.asks o → I s → M.step o s = .ok (r, s') → B s' ∨ C.gives o r ∧ I s')
  (henter : ∀ f held s, I s → I (M.enter f held s))
  (hleave : ∀ s s', I s → I s' → I (M.leave s s'))
  (hstepB : ∀ o s r s', B s → M.step o s = .ok (r, s') → B s')
  (henterB : ∀ f held s, B s → B (M.enter f held s)) (hleaveB : ∀ s s', B s' → B (M.leave s s'))
  (hbody : ∀ f, D.asks f → Keeps C D (M.body f) (D.gives f))

include hstepB henterB hleaveB in
theorem calls_ends {n : ℕ} {f : F.Fn} {held : F.Held} (hs : B s) :
    (M.calls n f held s).Ends B := by
  refine Res.Keeps.mapState ?_ (fun _ h => h) (hleaveB s)
  replace hs := henterB f held s hs
  induction n generalizing f s held with
  | zero => trivial
  | succ n ih =>
    refine runWith_ends hstepB (fun g held s hs => ?_) (M.body f) hs
    exact Res.Keeps.mapState (ih (henterB g held s hs)) (fun _ h => h) (hleaveB s)

include hstep henter hleave hstepB henterB hleaveB hbody

/-- **The rule of contracts**: if all bodies keep to it, runs do. -/
theorem runFn_keeps {n : ℕ} {f : F.Fn} (hf : D.asks f) (hs : I s) :
    (M.runFn n f s).Keeps I B D.exn (D.gives f) := by
  induction n generalizing f s with
  | zero => trivial
  | succ n ih =>
    refine (hbody f hf).runWith hstep (fun g held s hg hs => ?_) hstepB (fun g held s hs => ?_) hs
    · exact (ih hg (henter g held s hs)).mapState (hleave s · hs) (hleaveB s)
    · exact calls_ends hstepB henterB hleaveB hs

/-- What a program that keeps to the contract comes to. -/
theorem Evaluates.keeps {p : Prog O F α} {Q : α → Prop} {r : Res Φ F.Exn σ α}
    (hr : M.Evaluates p s r) (hp : Keeps C D p Q) (hs : I s) : r.Keeps I B D.exn Q := by
  obtain ⟨-, n, rfl⟩ := hr
  refine hp.runWith hstep (fun g held s hg hs => ?_) hstepB (fun g held s hs => ?_) hs
  · exact (runFn_keeps hstep henter hleave hstepB henterB hleaveB hbody hg
      (henter g held s hs)).mapState (hleave s · hs) (hleaveB s)
  · exact calls_ends hstepB henterB hleaveB hs

end Contract

/-! ### States that differ in what does not matter -/

section Image

variable {f : σ → σ}

/-- A run from a changed state is the changed run. -/
theorem runWith_image {step : (o : O.Op) → σ → Except Φ (O.Reply o × σ)}
    {calls calls' : (g : F.Fn) → F.Held → σ → Res Φ F.Exn σ (F.Ret g)}
    (hstep : ∀ o s r s', C.asks o → I s → step o s = .ok (r, s') → C.gives o r ∧ I s')
    (himage : ∀ o s, C.asks o → I s → step o (f s) = (step o s).map (Prod.map id f))
    (hcalls : ∀ g held s, D.asks g → I s →
      (calls g held s).Keeps I (fun _ => False) D.exn (D.gives g) ∧
        calls' g held (f s) = (calls g held s).mapState f)
    {p : Prog O F α} {Q : α → Prop} (hp : Keeps C D p Q) (hs : I s) :
    runWith step calls' p (f s) = (runWith step calls p s).mapState f := by
  induction p generalizing s with
  | ret a => rfl
  | throw e => rfl
  | op o k ih =>
    rw [runWith, runWith, himage o s hp.1 hs]
    cases ho : step o s with
    | ok r =>
      obtain ⟨hr, hs'⟩ := hstep o s r.1 r.2 hp.1 hs ho
      exact ih r.1 (hp.2 r.1 hr) hs'
    | error φ => rfl
  | call g held k ih =>
    obtain ⟨hkeeps, heq⟩ := hcalls g held s hp.1 hs
    rw [runWith, runWith, heq]
    cases hg : calls g held s with
    | ok v s' =>
      rw [hg] at hkeeps
      obtain ⟨hv, hs'⟩ := hkeeps.resolve_left id
      exact ih _ (hp.2.1 v hv) hs'
    | exn e s' =>
      rw [hg] at hkeeps
      obtain ⟨he, hs'⟩ := hkeeps.resolve_left id
      exact ih _ (hp.2.2 e he) hs'
    | fault φ => rfl
    | timeout => rfl

variable
  (hstep : ∀ o s r s', C.asks o → I s → M.step o s = .ok (r, s') → C.gives o r ∧ I s')
  (himage : ∀ o s, C.asks o → I s → M.step o (f s) = (M.step o s).map (Prod.map id f))
  (henter : ∀ g held s, M.enter g held s = s) (hleave : ∀ s s', M.leave s s' = s')
  (hbody : ∀ g, D.asks g → Keeps C D (M.body g) (D.gives g))

include henter hleave in
theorem calls_eq_runFn (n : ℕ) (g : F.Fn) (held : F.Held) (s : σ) :
    M.calls n g held s = M.runFn n g s := by
  rw [calls, henter]
  cases M.runFn n g s <;> simp only [Res.mapState, hleave]

include hstep himage henter hleave hbody

theorem runFn_image {n : ℕ} {g : F.Fn} (hg : D.asks g) (hs : I s) :
    (M.runFn n g s).Keeps I (fun _ => False) D.exn (D.gives g) ∧
      M.runFn n g (f s) = (M.runFn n g s).mapState f := by
  have hkeeps {n : ℕ} {g : F.Fn} {s : σ} (hg : D.asks g) (hs : I s) :
      (M.runFn n g s).Keeps I (fun _ => False) D.exn (D.gives g) :=
    runFn_keeps (fun o s r s' ho hs h => .inr (hstep o s r s' ho hs h))
      (fun g held s hs => (henter g held s).symm ▸ hs) (fun s s' _ hs' => (hleave s s').symm ▸ hs')
      (fun _ _ _ _ h => h.elim) (fun _ _ _ h => h) (fun _ _ h => h) hbody hg hs
  refine ⟨hkeeps hg hs, ?_⟩
  induction n generalizing g s with
  | zero => rfl
  | succ n ih =>
    rw [runFn_succ, runFn_succ]
    refine runWith_image hstep himage (fun g held s hg hs => ?_) (hbody g hg) hs
    rw [calls_eq_runFn henter hleave, calls_eq_runFn henter hleave]
    exact ⟨hkeeps hg hs, ih hg hs⟩

/-- **What a program comes to does not depend on what operations do not notice.** -/
theorem Evaluates.image {p : Prog O F α} {Q : α → Prop} {r' : Res Φ F.Exn σ α}
    (hp : Keeps C D p Q) (hs : I s) :
    M.Evaluates p (f s) r' ↔ ∃ r, M.Evaluates p s r ∧ r' = r.mapState f := by
  have hrun (n : ℕ) : M.run n p (f s) = (M.run n p s).mapState f := by
    refine runWith_image hstep himage (fun g held s hg hs => ?_) hp hs
    rw [calls_eq_runFn henter hleave, calls_eq_runFn henter hleave]
    exact runFn_image hstep himage henter hleave hbody hg hs
  constructor
  · rintro ⟨hr, n, rfl⟩
    rw [hrun] at hr ⊢
    exact ⟨_, ⟨mt Res.mapState_eq_timeout.mpr hr, n, rfl⟩, rfl⟩
  · rintro ⟨r, ⟨hr, n, rfl⟩, rfl⟩
    exact ⟨mt Res.mapState_eq_timeout.mp hr, n, hrun n⟩

end Image

end Semantics

end Prog
