import NaviScheme.Eval.Inspect

/-!
# Promises

`delay` and `make-promise` make a procedure without arguments and give it the tag of a
promise. `force` asks for a procedure, by the type of its argument, and there
`check_apply` turns every promise away: no application of `force` to a promise returns
(`NaviScheme.not_returns_force`), neither the first nor a later one.
-/

namespace NaviScheme

open Prog

variable {F : FnSig} {X : Externals} {w w' w₁ w₂ : World} {o p v e args f : NaviObj} {env : NaviEnv}
  {t t' : NaviType} {d : Data}

/-- `make-promise` -/
def scmMakePromise (args : NaviObj) (env : NaviEnv) : Code NaviObj := do
  naviMakePromise (← naviCar args) env

/-! ### Making a promise -/

/-- A procedure without parameters. -/
theorem computes_naviMakeProcedure_nil (w : World) (body name : NaviObj) (env : NaviEnv) :
    ∃ o w' p, Computes (naviMakeProcedure .nil body name env : Prog evalOps F _) w o w' ∧
      w'.load o = .ok (.naviProcedure, .proc p) := by
  let q : NaviProcedure := ⟨false, 0, name, env.lexical, .nil, .body body, none⟩
  refine ⟨_, _, q, ?_, World.load_make (w := w)⟩
  refine (Computes.perform (o := .walk .nil) (v := ([], .nil)) rfl).bind ?_
  exact (Computes.perform (o := .scopeRef env.lexical) rfl).bind (computes_make _ (.proc q))

/-- **What `delay` and `make-promise` make has the tag of a promise.** -/
theorem computes_naviMakePromise (w : World) (e : NaviObj) (env : NaviEnv) :
    ∃ p w', Computes (naviMakePromise e env : Prog evalOps F _) w p w' ∧
      ∃ d, w'.load p = .ok (.naviPromise, d) := by
  obtain ⟨o, w₃, q, hproc, hload⟩ := computes_naviMakeProcedure_nil (F := F)
    (((w.make .naviPair (.pair (some e) (some .nil))).2.makeSymbol "promise").2)
    (w.make .naviPair (.pair (some e) (some .nil))).1
    ((w.make .naviPair (.pair (some e) (some .nil))).2.makeSymbol "promise").1 env
  obtain ⟨a, rfl⟩ := World.ptr_of_load hload
  refine ⟨.ptr a, w₃.setObj a (.naviPromise, .proc q), ?_, .proc q, ?_⟩
  · refine (computes_make _ _).bind ?_
    refine (Computes.perform (o := .makeSymbol "promise") rfl).bind ?_
    exact hproc.bind ((computes_retag hload).bind (Computes.ret _))
  · rw [World.load_setObj, if_pos rfl]

/-! ### Forcing it -/

/-- The procedure of `force`, as it is declared. -/
def IsForce (w : World) (f : NaviObj) : Prop :=
  ∃ p, w.load f = .ok (.naviProcedure, .proc p) ∧ p.body = .cProc .scmForce ∧ p.arity = 1 ∧
    p.variadic = false ∧ p.types = some [.type .naviProcedure]

/-- An argument of another type than the one that is asked for is refused. -/
theorem not_computes_naviTypeCheck (hload : w.load o = .ok (t, d)) (ht : t ≠ t') :
    ¬ Computes (naviTypeCheck o t') w () w' := by
  intro h
  rw [computes_iff_runLeaf, naviTypeCheck, (computes_naviType hload).runLeaf_bind, if_neg ht] at h
  exact NeverReturns.bind (fun _ => NeverReturns.bind fun _ => neverReturns_naviTypeError _ _) _ _ _ h

/-- **`check_apply` does not let a promise through to `force`.** -/
theorem not_computes_checkApply_force {n : ℕ} (hf : IsForce w f) (hargs : IsPair w args p .nil)
    (hp : w.load p = .ok (.naviPromise, d)) : ¬ Computes (checkApply f args) w n w' := by
  intro h
  obtain ⟨q, hload, -, harity, hvariadic, htypes⟩ := hf
  rw [computes_iff_runLeaf, checkApply, (computes_naviProcedure hload).runLeaf_bind,
    ← computes_iff_runLeaf] at h
  obtain ⟨⟨pairs, last⟩, hwalk, h⟩ := h.of_bind_inspects (inspects_walk args)
  obtain ⟨m, hm⟩ : ∃ m, w.walk m args = .ok (pairs, last) := by
    have hstep := hwalk.perform_inv
    obtain ⟨r, hr, heq⟩ := map_eq_ok hstep
    cases heq
    exact ⟨_, hr⟩
  obtain ⟨rfl, -⟩ := (Spine.cons hargs .nil).walk_inv hm
  have hsat : naviAritySatisfied q 1 = true := by simp [naviAritySatisfied, harity]
  have hcheck : Computes (checkArgs [args] [.type .naviProcedure] >>= fun _ => pure 1) w n w' := by
    simpa [hsat, htypes] using h
  rw [computes_iff_runLeaf, checkArgs, bind_assoc, (computes_naviCar hargs).runLeaf_bind, bind_assoc,
    ← computes_iff_runLeaf] at hcheck
  obtain ⟨u, w₂, hu⟩ : ∃ u w₂, Computes (naviTypeCheck p .naviProcedure) w u w₂ := by
    rw [computes_iff_runLeaf, checkArg, runLeaf, runWith_bind] at hcheck
    split at hcheck
    · rename_i u w₂ hu
      exact ⟨u, w₂, computes_iff_runLeaf.mpr hu⟩
    all_goals cases hcheck
  exact not_computes_naviTypeCheck hp (by decide) hu

/-- **No application of `force` to a promise returns.** -/
theorem not_returns_force (hf : IsForce w f) (hargs : IsPair w args p .nil)
    (hp : w.load p = .ok (.naviPromise, d)) :
    ¬ (worldSemantics X).Returns (.naviApply_ f args env) w (.ok v w') := by
  intro h
  obtain ⟨n, w₁, hcheck, -⟩ := Semantics.Evaluates.bind_ok_inv h
  exact not_computes_checkApply_force hf hargs hp (computes_of_leaf hcheck)

/-- A promise. -/
def IsPromise (w : World) (p : NaviObj) : Prop := ∃ d, w.load p = .ok (.naviPromise, d)

/-- Some application of `force` to `p` returns `v`. -/
def Forces (X : Externals) (w : World) (p v : NaviObj) : Prop :=
  ∃ f args env w', IsForce w f ∧ IsPair w args p .nil ∧
    (worldSemantics X).Returns (.naviApply_ f args env) w (.ok v w')

/-- **Forcing what `delay` or `make-promise` has made never returns**, in any state in which
it is a promise, be it the first time or a later one. -/
theorem naviMakePromise_never_forces {n : ℕ}
    (h : Computes (cProcBody X .scmDelay n args env) w p w₁ ∨
      Computes (scmMakePromise args env) w p w₁) :
    IsPromise w₁ p ∧ ∀ w₂, IsPromise w₂ p → ∀ v, ¬ Forces X w₂ p v := by
  have hmake : Computes (scmMakePromise args env) w p w₁ := h.elim id id
  obtain ⟨e, -, he⟩ := hmake.of_bind_inspects (inspects_naviCar args)
  obtain ⟨p', w', hp', hload⟩ := computes_naviMakePromise w e env
  obtain ⟨rfl, rfl⟩ := he.unique hp'
  refine ⟨hload, fun w₂ ⟨d, hd⟩ v ⟨f, cells, env', w', hf, hcells, hret⟩ => ?_⟩
  exact not_returns_force hf hcells hd hret

/-- A world with `force`, `delay`, and the form `(force (delay 5))`. -/
def promiseWorld : World :=
  let o (n : ℕ) : NaviObj := .ptr (.obj n)
  let pair (car cdr : NaviObj) : NaviType × Data := (.naviPair, .pair (some car) (some cdr))
  let sym (str : String) : NaviType × Data := (.naviSymbol, .symbol str true)
  .ofCells
    [sym "force", sym "delay",
      (.naviProcedure, .proc ⟨false, 1, o 0, 0, .void, .cProc .scmForce,
        some [.type .naviProcedure]⟩),
      (.naviSpecial, .proc ⟨false, 1, o 1, 0, .void, .cProc .scmDelay, some [.naviAny]⟩),
      -- (5), (delay 5), (force (delay 5))
      pair (.fixnum 5) .nil, pair (o 1) (o 4), pair (o 5) .nil, pair (o 0) (o 6)]
    [("force", 0), ("delay", 1)]
    [⟨none, [⟨o 0, o 2⟩, ⟨o 1, o 3⟩]⟩, ⟨none, []⟩] []

theorem naviMakePromise_never_forces_five :
    ∃ p w₁, Computes (cProcBody noExternals .scmDelay 1 (.ptr (.obj 4)) ⟨0, 1⟩) promiseWorld p w₁ ∧
      IsPromise w₁ p ∧ ∀ w₂, IsPromise w₂ p → ∀ v, ¬ Forces noExternals w₂ p v := by
  obtain ⟨p, w₁, hp, -⟩ := computes_naviMakePromise (F := evalFns) promiseWorld (.fixnum 5) ⟨0, 1⟩
  have hdelay : Computes (cProcBody noExternals .scmDelay 1 (.ptr (.obj 4)) ⟨0, 1⟩) promiseWorld
      p w₁ := (computes_naviCar (isPair_ptr.mpr rfl)).bind hp
  exact ⟨p, w₁, hdelay, naviMakePromise_never_forces (.inl hdelay)⟩

/-- **`(force (delay 5))` does not come to `5`**: it raises an error, for which there is no
handler. -/
theorem not_force_delay :
    (∃ w', (worldSemantics noExternals).Returns (.naviEval (.fixnum 5) ⟨0, 1⟩) promiseWorld
      (.ok (.fixnum 5) w')) ∧
    ∃ args w', (worldSemantics noExternals).Returns (.naviEval (.ptr (.obj 7)) ⟨0, 1⟩) promiseWorld
      (.exn (.unhandled args) w') := by
  refine ⟨returns_of_naviEvalRun (n := 19) (by decide), .ptr (.obj 23), ?_⟩
  exact returns_exn_of_naviEvalRun (n := 19) (by decide)

end NaviScheme
