import NaviScheme.Language.Frames
import NaviScheme.Eval.Expansion

/-!
# Values and bounces

`_eval` need not return a value: for an expression in tail position it returns a bounce, and the
loop of `navi_eval` goes on with that. An object leads to a value (`NaviScheme.LeadsTo`) if it is
one, or a bounce with which the loop comes to one. On its way to the loop it passes through
`do_apply` and `eval_call`, which guard it and change nothing else.
-/

namespace NaviScheme

open Prog

variable {X : Externals} {B : OtherBuiltins} {w w' w₁ : World} {o r : NaviObj} {e v : Value}
  {env : NaviEnv} {σ σ' : FrameStore} {f g : ℕ}
  {log : List (NaviObj × NaviEnv)} {α : Type}

/-! ### Guards and the log -/

/-- A world with other guards, in which other things have been evaluated. -/
def World.marked (w : World) (g : ℕ) (log : List (NaviObj × NaviEnv)) : World :=
  { w with nextGuard := g, log := log }

theorem World.builds_marked (w : World) (g : ℕ) (log : List (NaviObj × NaviEnv)) :
    w.Builds nowhere (w.marked g log) := ⟨fun _ _ _ h => h, rfl, le_rfl⟩

theorem World.marked_builds (w : World) (g : ℕ) (log : List (NaviObj × NaviEnv)) :
    (w.marked g log).Builds nowhere w := ⟨fun _ _ _ h => h, rfl, le_rfl⟩

theorem ValueAt.marked (h : ValueAt B w o v) (g : ℕ) (log : List (NaviObj × NaviEnv)) :
    ValueAt B (w.marked g log) o v := h.grows (w.builds_marked g log)

theorem World.Closed.marked (h : w.Closed) (g : ℕ) (log : List (NaviObj × NaviEnv)) :
    (w.marked g log).Closed := ⟨h.objs, { h.hides with }⟩

theorem World.Lives.marked (h : w.Lives B σ) (g : ℕ) (log : List (NaviObj × NaviEnv)) :
    (w.marked g log).Lives B σ :=
  h.grows (w.builds_marked g log) rfl rfl ⟨h.wf.objs, h.wf.scopes, h.wf.thunks, h.wf.symtab⟩
    (h.closed.marked g log)

/-! ### What an evaluation comes to -/

/-- A program comes to the value `v`, and the frames `σ`. -/
def ComesTo (X : Externals) (B : OtherBuiltins) (p : Code NaviObj) (w : World) (v : Value)
    (σ : FrameStore) : Prop :=
  ∃ o w', (worldSemantics X).Evaluates p w (.ok o w') ∧ w.Builds nowhere w' ∧ w'.Lives B σ ∧
    ValueAt B w' o v

/-- What the loop of `navi_eval` does with what `_eval` returns. -/
def trampoline (expr : NaviObj) (env : NaviEnv) : Code NaviObj := do
  if (← naviType expr) = .naviBounce then callFn (.evalLoop expr env) [] [] else return expr

/-- **An object leads to a value**: the loop of `navi_eval` comes to it. -/
def LeadsTo (X : Externals) (B : OtherBuiltins) (w : World) (r : NaviObj) (v : Value)
    (σ : FrameStore) : Prop :=
  ∀ g log env, ComesTo X B (trampoline r env) (w.marked g log) v σ

/-- A program returns what leads to a value. -/
def Attains (X : Externals) (B : OtherBuiltins) (p : Code NaviObj) (w : World) (v : Value)
    (σ : FrameStore) : Prop :=
  ∃ r w', (worldSemantics X).Evaluates p w (.ok r w') ∧ w.Builds nowhere w' ∧
    LeadsTo X B w' r v σ

/-- **`_eval` leads to the value** `v` of an expression. -/
def Meets (X : Externals) (B : OtherBuiltins) (σ : FrameStore) (f : ℕ)
    (e v : Value) (σ' : FrameStore) : Prop :=
  ∀ w o env, w.Lives B σ → env.lexical = f → ValueAt B w o e →
    Attains X B (callFn (.eval_ o env) [] []) w v σ'

/-- A value leads to itself. -/
theorem LeadsTo.of_value (hw : w.Lives B σ) (ho : ValueAt B w o v) : LeadsTo X B w o v σ := by
  intro g log env
  have htype := (ho.marked g log).computes_naviType (F := evalFns) (hw.marked g log).wf
  exact ⟨o, _, htype.evaluates_bind (evaluates_ite_neg v.type_ne_naviBounce .ret), .refl _ _,
    hw.marked g log, ho.marked g log⟩

theorem LeadsTo.marked (h : LeadsTo X B w r v σ) (g : ℕ) (log : List (NaviObj × NaviEnv)) :
    LeadsTo X B (w.marked g log) r v σ := fun g' log' env => h g' log' env

namespace Attains

variable {p : Code NaviObj}

theorem of_comesTo (h : ComesTo X B p w v σ) : Attains X B p w v σ := by
  obtain ⟨o, w', hp, hbuilds, hw', ho⟩ := h
  exact ⟨o, w', hp, hbuilds, .of_value hw' ho⟩

theorem of_computes (hp : Computes p w o w') (hbuilds : w.Builds nowhere w') (hw' : w'.Lives B σ)
    (ho : ValueAt B w' o v) : Attains X B p w v σ :=
  of_comesTo ⟨o, w', hp.evaluates, hbuilds, hw', ho⟩

/-- What is done before. -/
theorem bind {q : Code α} {k : α → Code NaviObj} {a : α}
    (hq : (worldSemantics X).Evaluates q w (.ok a w₁)) (hbuilds : w.Builds nowhere w₁)
    (h : Attains X B (k a) w₁ v σ) : Attains X B (q >>= k) w v σ := by
  obtain ⟨r, w', hk, hbuilds', hr⟩ := h
  exact ⟨r, w', hq.bind hk, hbuilds.trans hbuilds', hr⟩

/-- Reading. -/
theorem reads {q : Code α} {k : α → Code NaviObj} {a : α} (hq : Computes q w a w)
    (h : Attains X B (k a) w v σ) : Attains X B (q >>= k) w v σ :=
  h.bind hq.evaluates (.refl _ _)

/-- Passing on what has been returned. -/
theorem andThen {k : NaviObj → Code NaviObj} (h : Attains X B p w v σ)
    (hk : ∀ r w', ∃ g, (worldSemantics X).Evaluates (k r) w' (.ok r (w'.marked g w'.log))) :
    Attains X B (p >>= k) w v σ := by
  obtain ⟨r, w', hp, hbuilds, hr⟩ := h
  obtain ⟨g, hg⟩ := hk r w'
  exact ⟨r, _, hp.bind hg, hbuilds.trans (w'.builds_marked g _), hr.marked g _⟩

/-- A guard is set for as long as something is done. -/
theorem guarded {k : Code NaviObj} (o : NaviObj) (env : NaviEnv)
    (h : ∀ g, Attains X B k (w.marked g w.log) v σ) :
    Attains X B (do
      let guard ← naviGcGuard o env
      let r ← k
      naviGcUnguard guard
      return r) w v σ := by
  obtain ⟨guard, g, hguard⟩ := computes_naviGcGuard o env w
  refine ((h g).andThen fun r w' => ⟨w'.nextGuard, ?_⟩).bind hguard.evaluates (w.builds_marked g _)
  exact (computes_naviGcUnguard guard w').evaluates_bind .ret

theorem congr {p' : Code NaviObj} (h : Attains X B p w v σ)
    (hp : ∀ r, (worldSemantics X).Evaluates p w r → (worldSemantics X).Evaluates p' w r) :
    Attains X B p' w v σ := by
  obtain ⟨r, w', hrun, hrest⟩ := h
  exact ⟨r, w', hp _ hrun, hrest⟩

end Attains

/-! ### The loop of `navi_eval` -/

/-- Expressions from which `_eval` leads to a value are evaluated by the loop, -/
theorem Meets.evalLoop (h : Meets X B σ f e v σ') (hw : w.Lives B σ) (hf : env.lexical = f)
    (ho : ValueAt B w o e) (objs : List NaviObj) (scopes : List ScopeAddr) :
    ComesTo X B (callFn (.evalLoop o env) objs scopes) w v σ' := by
  obtain ⟨guard, g, hguard⟩ := computes_naviGcGuard o env w
  obtain ⟨r, w₁, heval, hbuilds, hr⟩ := h (w.marked g w.log) o env (hw.marked g _) hf
    (ho.marked g _)
  obtain ⟨o', w', hloop, hbuilds', hw', ho'⟩ := hr w₁.nextGuard w₁.log env
  refine ⟨o', w', evaluates_callFn.mpr (hguard.evaluates_bind ?_),
    (w.builds_marked g _).trans (hbuilds.trans hbuilds'), hw', ho'⟩
  exact (evaluates_callFn.mpr (evaluates_callFn.mp heval)).bind
    ((computes_naviGcUnguard guard w₁).evaluates_bind hloop)

/-- and by `navi_eval`. -/
theorem Meets.naviEval (h : Meets X B σ f e v σ') (hw : w.Lives B σ) (hf : env.lexical = f)
    (ho : ValueAt B w o e) (objs : List NaviObj) (scopes : List ScopeAddr) :
    ComesTo X B (naviEval o env objs scopes) w v σ' := by
  obtain ⟨o', w', hloop, hrest⟩ := h.evalLoop hw hf ho [] []
  exact ⟨o', w', evaluates_callFn.mpr (returns_naviEval_iff.mpr (evaluates_callFn.mp hloop)), hrest⟩

/-! ### Tail positions -/

theorem evaluates_ite_pos {c : Prop} [Decidable c] {p q : Code α} {r : Res Fault EvalExn World α}
    (hc : c) (h : (worldSemantics X).Evaluates p w r) :
    (worldSemantics X).Evaluates (if c then p else q) w r := by
  rwa [if_pos hc]

/-- A world that has been made by reading, writing and allocating in a closed world is closed. -/
theorem World.Closed.of_computes {p : Code α} {a : α} {Q : (Addr → Prop) → α → Prop} (hw : w.Closed)
    (hp : ∀ S, (∀ a, S a → ¬ w.Allocated a) → Spares S True (sparing S) p (Q S))
    (h : Computes p w a w') : w'.Closed :=
  (hw.of_evaluates (X := noExternals) noExternals_spares hp h.evaluates).2.1

theorem World.objs_bounced (a : Addr) : (w.bounced o env).objs a =
    if a = .thunk w.nextThunk then some (.naviBounce, .thunk o env) else w.objs a := by
  rw [World.bounced, World.objs_setObj, World.make, if_pos rfl]
  split_ifs with ha
  · rfl
  · exact (World.objs_setObj _ _ _ _).trans (if_neg ha)

theorem World.bounced_eq : w.bounced o env =
    { w.setObj (.thunk w.nextThunk) (.naviBounce, .thunk o env) with
      nextThunk := w.nextThunk + 1 } := by
  simp [World.bounced, World.make, World.setObj]

theorem World.builds_bounced (hw : w.Closed) (o : NaviObj) (env : NaviEnv) :
    w.Builds nowhere (w.bounced o env) := by
  refine ⟨fun a c _ hobj => ?_, by rw [World.bounced_eq]; rfl,
    by rw [World.bounced_eq]; exact le_rfl⟩
  have hne : a ≠ .thunk w.nextThunk := by
    rintro rfl
    rw [hw.objs (.thunk w.nextThunk) (lt_irrefl w.nextThunk)] at hobj
    cases hobj
  rw [World.objs_bounced, if_neg hne, hobj]

theorem World.Wf.bounced (hw : w.Wf) (hclosed : w.Closed) (o : NaviObj) (env : NaviEnv) :
    (w.bounced o env).Wf := by
  have hbuilds := World.builds_bounced hclosed o env
  refine ⟨fun n hn => ?_, ?_, fun n c hc => ?_, fun str a ha => ?_⟩
  · rw [World.bounced_eq] at hn
    rw [World.objs_bounced, if_neg (by simp)]
    exact hw.objs n hn
  · rw [World.bounced_eq]
    exact hw.scopes
  · rw [World.objs_bounced] at hc
    split_ifs at hc
    · obtain rfl := Option.some.inj hc
      exact ⟨o, env, rfl⟩
    · exact hw.thunks n c hc
  · exact hbuilds.objs a _ id (hw.symtab str a (hbuilds.symtab ▸ ha))

/-- Making a bounce leaves the frames as they are. -/
theorem World.Lives.bounced (hw : w.Lives B σ) (ho : w.Has o) (env : NaviEnv) :
    (w.bounced o env).Lives B σ := by
  refine hw.grows (World.builds_bounced hw.closed o env) ?_ ?_ (hw.wf.bounced hw.closed o env) ?_
  · rw [World.bounced_eq]
    rfl
  · rw [World.bounced_eq]
    rfl
  · exact hw.closed.of_computes (fun S hS => spares_evalTail (avoids_mono hS ho) fun _ h => h)
      (computes_evalTail w o env)

/-- **A bounce leads to the value** of the expression in it. -/
theorem Meets.bounce (h : Meets X B σ f e v σ') (hw : w.Lives B σ) (hf : env.lexical = f)
    (ho : ValueAt B w o e) : Attains X B (evalTail o env) w v σ' := by
  have hbuilds := World.builds_bounced hw.closed o env
  refine ⟨_, _, (computes_evalTail w o env).evaluates, hbuilds, fun g log env₀ => ?_⟩
  have hbounce (g : ℕ) : ((w.bounced o env).marked g log).load (.ptr (.thunk w.nextThunk)) =
      .ok (.naviBounce, .thunk o env) := w.load_bounced o env
  -- the bounce is taken up by the loop, and then by `_eval`
  obtain ⟨guard, g', hguard⟩ := computes_naviGcGuard (.ptr (.thunk w.nextThunk)) env₀
    ((w.bounced o env).marked g log)
  obtain ⟨r, w₁, heval, hbuilds₁, hr⟩ := h
    ((w.bounced o env).marked g' ((.ptr (.thunk w.nextThunk), env₀) :: log)) o env
    ((hw.bounced (ho.has hw.closed) env).marked _ _) hf ((ho.grows hbuilds).marked _ _)
  obtain ⟨o', w', hloop, hbuilds', hw', ho'⟩ := hr w₁.nextGuard w₁.log env₀
  refine ⟨o', w', (computes_naviType (hbounce g)).evaluates_bind ?_, ?_, hw', ho'⟩
  · refine evaluates_ite_pos rfl (evaluates_callFn.mpr (hguard.evaluates_bind ?_))
    have hbounced : (worldSemantics X).Returns (.eval_ (.ptr (.thunk w.nextThunk)) env₀)
        ((w.bounced o env).marked g' log) (.ok r w₁) :=
      (returns_eval_bounce (hbounce g')).mpr (evaluates_callFn.mp heval)
    exact (evaluates_callFn.mpr hbounced).bind
      ((computes_naviGcUnguard guard w₁).evaluates_bind hloop)
  · exact ((w.bounced o env).marked_builds g log).trans
      (((w.bounced o env).builds_marked _ _).trans (hbuilds₁.trans hbuilds'))

end NaviScheme
