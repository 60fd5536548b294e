import Mathlib.Data.List.Basic
import NaviScheme.Lib.Prog

/-!
# What a run calls

The trace of a run is the list of the calls that it makes, in order: where a function is
entered, and how it is left (`Prog.CallEvent`). It is computed beside the run
(`Prog.Semantics.trace`) and does not depend on the bound of a run that ends.

`Prog.Only` says of a program which operations it performs, whatever their replies are. What
its operations and its calls change by a rule, the program changes by that rule
(`Prog.Only.run_rel`).
-/

namespace Prog

variable {O : OpSig} {F : FnSig} {α β σ Φ E : Type}

/-- An event in a run. -/
inductive CallEvent (F : FnSig) : Type
  /-- A function is entered. -/
  | enter (f : F.Fn)
  /-- A function is left: it returns, or leaves by an exception. -/
  | exit (f : F.Fn) (e : Option F.Exn)

namespace Res

/-- The state in which a run ends. -/
def final : Res Φ E σ α → Option σ
  | .ok _ s => some s
  | .exn _ s => some s
  | .fault _ => none
  | .timeout => none

@[simp] theorem final_ok (a : α) (s : σ) : (.ok a s : Res Φ E σ α).final = some s := rfl

@[simp] theorem final_exn (e : E) (s : σ) : (.exn e s : Res Φ E σ α).final = some s := rfl

@[simp] theorem final_fault (φ : Φ) : (.fault φ : Res Φ E σ α).final = none := rfl

@[simp] theorem final_timeout : (.timeout : Res Φ E σ α).final = none := rfl

theorem final_mapState (g : σ → σ) (r : Res Φ E σ α) : (r.mapState g).final = r.final.map g := by
  cases r <;> rfl

/-- How a function is left. -/
def exits {F : FnSig} (f : F.Fn) : Res Φ F.Exn σ α → List (CallEvent F)
  | .ok _ _ => [.exit f none]
  | .exn e _ => [.exit f (some e)]
  | .fault _ => []
  | .timeout => []

end Res

section Run

/-- The events in a run of a program, given what operations do, what calls come to and the
events in them. -/
def traceWith (step : (o : O.Op) → σ → Except Φ (O.Reply o × σ))
    (calls : (f : F.Fn) → F.Held → σ → Res Φ F.Exn σ (F.Ret f))
    (sub : F.Fn → F.Held → σ → List (CallEvent F)) : Prog O F α → σ → List (CallEvent F)
  | .ret _, _ => []
  | .throw _, _ => []
  | .op o k, s =>
    match step o s with
    | .ok (r, s) => traceWith step calls sub (k r) s
    | .error _ => []
  | .call f held k, s =>
    sub f held s ++
      match calls f held s with
      | .ok v s => traceWith step calls sub (k (.ok v)) s
      | .exn e s => traceWith step calls sub (k (.error e)) s
      | .fault _ => []
      | .timeout => []

variable {step : (o : O.Op) → σ → Except Φ (O.Reply o × σ)}
  {calls calls' : (f : F.Fn) → F.Held → σ → Res Φ F.Exn σ (F.Ret f)}
  {sub sub' : F.Fn → F.Held → σ → List (CallEvent F)} {s s' : σ}

/-- The events in a run go on after those in its first part. -/
theorem traceWith_bind (p : Prog O F α) (g : α → Prog O F β) (s : σ) :
    traceWith step calls sub (p >>= g) s = traceWith step calls sub p s ++
      match runWith step calls p s with
      | .ok a s => traceWith step calls sub (g a) s
      | .exn _ _ => []
      | .fault _ => []
      | .timeout => [] := by
  induction p generalizing s with
  | ret a => rfl
  | throw e => rfl
  | op o k ih =>
    rw [op_bind, traceWith, traceWith, runWith]
    cases step o s with
    | ok r => exact ih r.1 r.2
    | error φ => rfl
  | call f held k ih =>
    rw [call_bind, traceWith, traceWith, runWith, List.append_assoc]
    cases calls f held s with
    | ok v s => exact congrArg _ (ih _ s)
    | exn e s => exact congrArg _ (ih _ s)
    | fault φ => rfl
    | timeout => rfl

/-- The events in a call. -/
theorem traceWith_callFn (f : F.Fn) (held : F.Held) (s : σ) :
    traceWith step calls sub (callFn f held : Prog O F (F.Ret f)) s = sub f held s := by
  rw [callFn, traceWith]
  cases calls f held s <;> exact List.append_nil _

/-- A run that ends has the same events with calls that end more often. -/
theorem traceWith_mono (h : ∀ f held s, calls f held s ≠ .timeout →
      calls' f held s = calls f held s ∧ sub' f held s = sub f held s) (p : Prog O F α)
    (hp : runWith step calls p s ≠ .timeout) :
    traceWith step calls' sub' p s = traceWith step calls sub p s := by
  induction p generalizing s with
  | ret a => rfl
  | throw e => rfl
  | op o k ih =>
    rw [runWith] at hp
    rw [traceWith, traceWith]
    cases hstep : step o s with
    | ok r =>
      rw [hstep] at hp
      exact ih r.1 hp
    | error φ => rfl
  | call f held k ih =>
    rw [runWith] at hp
    rw [traceWith, traceWith]
    cases hcall : calls f held s with
    | ok v s' =>
      rw [hcall] at hp
      obtain ⟨hcall', hsub⟩ := h f held s (by simp [hcall])
      rw [hcall', hsub, hcall]
      exact congrArg _ (ih _ hp)
    | exn e s' =>
      rw [hcall] at hp
      obtain ⟨hcall', hsub⟩ := h f held s (by simp [hcall])
      rw [hcall', hsub, hcall]
      exact congrArg _ (ih _ hp)
    | fault φ =>
      obtain ⟨hcall', hsub⟩ := h f held s (by simp [hcall])
      rw [hcall', hsub, hcall]
    | timeout =>
      rw [hcall] at hp
      exact absurd rfl hp

/-! ### The operations of a program -/

/-- The operations that a program performs satisfy a predicate, whatever their replies are and
whatever its calls come to. -/
def Only (Q : O.Op → Prop) : Prog O F α → Prop
  | .ret _ => True
  | .throw _ => True
  | .op o k => Q o ∧ ∀ r, Only Q (k r)
  | .call _ _ k => ∀ r, Only Q (k r)

namespace Only

variable {Q : O.Op → Prop}

/-- Nothing is said of the operations. -/
theorem trivial (p : Prog O F α) : p.Only fun _ => True := by
  induction p with
  | ret a => exact True.intro
  | throw e => exact True.intro
  | op o k ih => exact ⟨True.intro, ih⟩
  | call f held k ih => exact ih

/-- What every operation of a program and every call change by a rule, the program changes by
that rule. -/
theorem run_rel (sub : F.Fn → F.Held → σ → List (CallEvent F)) (μ : σ → β)
    {R : β → List (CallEvent F) → β → Prop} (hnil : ∀ b, R b [] b)
    (happ : ∀ {a b c t t'}, R a t b → R b t' c → R a (t ++ t') c)
    (hstep : ∀ o s r s', Q o → step o s = .ok (r, s') → R (μ s) [] (μ s'))
    (hcalls : ∀ f held s s', (calls f held s).final = some s' → R (μ s) (sub f held s) (μ s'))
    {p : Prog O F α} (hp : p.Only Q) (hrun : (runWith step calls p s).final = some s') :
    R (μ s) (traceWith step calls sub p s) (μ s') := by
  induction p generalizing s with
  | ret a =>
    cases hrun
    exact hnil _
  | throw e =>
    cases hrun
    exact hnil _
  | op o k ih =>
    rw [runWith] at hrun
    rw [traceWith]
    cases ho : step o s with
    | ok r =>
      rw [ho] at hrun
      exact happ (hstep o s r.1 r.2 hp.1 ho) (ih r.1 (hp.2 r.1) hrun)
    | error φ =>
      rw [ho] at hrun
      cases hrun
  | call f held k ih =>
    rw [runWith] at hrun
    rw [traceWith]
    have hcall := hcalls f held s
    cases hf : calls f held s with
    | ok v s₁ =>
      rw [hf] at hrun hcall
      exact happ (hcall s₁ rfl) (ih _ (hp _) hrun)
    | exn e s₁ =>
      rw [hf] at hrun hcall
      exact happ (hcall s₁ rfl) (ih _ (hp _) hrun)
    | fault φ =>
      rw [hf] at hrun
      cases hrun
    | timeout =>
      rw [hf] at hrun
      cases hrun

end Only

end Run

/-! ### Invariants -/

namespace Semantics

variable {M : Semantics O F σ Φ} {R : σ → σ → Prop} {n : ℕ} {s s' : σ}

/-- What a program does by a rule that its operations and its calls follow. -/
theorem run_rel (hrefl : ∀ s, R s s) (htrans : ∀ {s t u}, R s t → R t u → R s u)
    (hstep : ∀ o s r s', M.step o s = .ok (r, s') → R s s')
    (hcalls : ∀ f held s s', (M.calls n f held s).final = some s' → R s s') {p : Prog O F α}
    (h : (M.run n p s).final = some s') : R s s' := by
  exact (Only.trivial p).run_rel (fun _ _ _ => []) id (R := fun s _ s' => R s s') hrefl htrans
    (fun o s r s' _ => hstep o s r s') hcalls h

/-- **The invariant rule**: what every operation and the marks of a call relate, a call
relates. -/
theorem runFn_rel (hrefl : ∀ s, R s s) (htrans : ∀ {s t u}, R s t → R t u → R s u)
    (hstep : ∀ o s r s', M.step o s = .ok (r, s') → R s s')
    (hmarks : ∀ f held s s', R (M.enter f held s) s' → R s (M.leave s s')) {f : F.Fn}
    (h : (M.runFn n f s).final = some s') : R s s' := by
  induction n generalizing f s s' with
  | zero => cases h
  | succ n ih =>
    refine run_rel hrefl htrans hstep (fun g held s s' hg => ?_) h
    rw [calls, Res.final_mapState, Option.map_eq_some_iff] at hg
    obtain ⟨s₁, hg, rfl⟩ := hg
    exact hmarks g held s s₁ (ih hg)

/-- The invariant rule for a program. -/
theorem Evaluates.rel (hrefl : ∀ s, R s s) (htrans : ∀ {s t u}, R s t → R t u → R s u)
    (hstep : ∀ o s r s', M.step o s = .ok (r, s') → R s s')
    (hmarks : ∀ f held s s', R (M.enter f held s) s' → R s (M.leave s s')) {p : Prog O F α}
    {r : Res Φ F.Exn σ α} (h : M.Evaluates p s r) (hr : r.final = some s') : R s s' := by
  obtain ⟨-, n, rfl⟩ := h
  refine run_rel hrefl htrans hstep (fun g held s s' hg => ?_) hr
  rw [calls, Res.final_mapState, Option.map_eq_some_iff] at hg
  obtain ⟨s₁, hg, rfl⟩ := hg
  exact hmarks g held s s₁ (runFn_rel hrefl htrans hstep hmarks hg)

end Semantics

/-! ### The trace of a call -/

namespace Semantics

variable (M : Semantics O F σ Φ)

/-- The events in a run of a function in which calls nest at most `n` deep. -/
def trace : ℕ → F.Fn → σ → List (CallEvent F)
  | 0, f, _ => [.enter f]
  | n + 1, f, s =>
    .enter f :: traceWith M.step (M.calls n) (fun g held s => trace n g (M.enter g held s))
      (M.body f) s ++ (M.runFn (n + 1) f s).exits f

/-- The events in a run of a program in which calls nest at most `n` deep. -/
def traceOf (n : ℕ) (p : Prog O F α) (s : σ) : List (CallEvent F) :=
  traceWith M.step (M.calls n) (fun g held s => M.trace n g (M.enter g held s)) p s

theorem trace_succ (n : ℕ) (f : F.Fn) (s : σ) : M.trace (n + 1) f s =
    .enter f :: M.traceOf n (M.body f) s ++ (M.runFn (n + 1) f s).exits f := rfl

/-- **A larger bound does not change the trace of a run that ends.** -/
theorem trace_mono {n m : ℕ} (hnm : n ≤ m) {f : F.Fn} {s : σ} (h : M.runFn n f s ≠ .timeout) :
    M.trace m f s = M.trace n f s := by
  induction n generalizing m f s with
  | zero => exact absurd rfl h
  | succ n ih =>
    obtain ⟨m, rfl⟩ : ∃ k, m = k + 1 := ⟨m - 1, by omega⟩
    rw [trace_succ, trace_succ, M.runFn_mono hnm h]
    congr 2
    refine traceWith_mono (fun g held s hg => ?_) _ h
    have hg' : M.runFn n g (M.enter g held s) ≠ .timeout :=
      fun ht => hg (Res.mapState_eq_timeout.mpr ht)
    refine ⟨?_, ih (Nat.le_of_succ_le_succ hnm) hg'⟩
    rw [calls, calls, M.runFn_mono (Nat.le_of_succ_le_succ hnm) hg']

/-- **A function comes to a result, through some events.** -/
def Traces (f : F.Fn) (s : σ) (r : Res Φ F.Exn σ (F.Ret f)) (t : List (CallEvent F)) : Prop :=
  r ≠ .timeout ∧ ∃ n, M.runFn n f s = r ∧ M.trace n f s = t

variable {M} {f : F.Fn} {s : σ} {r r' : Res Φ F.Exn σ (F.Ret f)} {t t' : List (CallEvent F)}

theorem Traces.unique (h : M.Traces f s r t) (h' : M.Traces f s r' t') : r = r' ∧ t = t' := by
  obtain ⟨hr, n, hn, ht⟩ := h
  obtain ⟨hr', m, hm, ht'⟩ := h'
  have hn' : M.runFn n f s ≠ .timeout := by rwa [hn]
  have hm' : M.runFn m f s ≠ .timeout := by rwa [hm]
  constructor
  · rw [← hn, ← hm, ← M.runFn_mono (le_max_left n m) hn', ← M.runFn_mono (le_max_right n m) hm']
  · rw [← ht, ← ht', ← M.trace_mono (le_max_left n m) hn', ← M.trace_mono (le_max_right n m) hm']

end Semantics

end Prog
