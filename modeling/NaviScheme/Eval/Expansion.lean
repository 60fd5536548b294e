import NaviScheme.Eval.Handover

/-!
# Macros

A call of a macro is to come to what the form comes to that the body of the macro returns.
`eval_call` leaves the evaluation of that form to its caller, and returns a bounce of what
applying the macro returned. But a body ends in a bounce itself: what is wrapped is the pending
last expression of the body, and the loop of `navi_eval`, which unwraps both, ends with its
value. So the call comes to the form (`NaviScheme.evaluates_macroCall`), and the form is never
evaluated (`NaviScheme.expandsOnce_iff`).
-/

namespace NaviScheme

open Prog

variable {α β : Type} {X : Externals} {w w' w₁ : World} {call cons e o v : NaviObj}
  {env new : NaviEnv} {objs : List NaviObj} {scopes : List ScopeAddr}
  {r : Res Fault EvalExn World NaviObj}

/-! ### Bodies -/

/-- **A body comes to its last expression** `e`: the ones before it have been evaluated. -/
inductive EndsIn (X : Externals) (env : NaviEnv) : World → NaviObj → NaviObj → World → Prop
  /-- It is the only one. -/
  | last {w : World} {cons e : NaviObj} (hcons : IsPair w cons e .nil) : EndsIn X env w cons e w
  /-- One before it is evaluated. -/
  | next {w w₁ w' : World} {cons x cdr cdr' v e : NaviObj} (hcons : IsPair w cons x cdr)
    (hcdr : cdr ≠ .nil) (hx : (worldSemantics X).Returns (.naviEval x env) w (.ok v w₁))
    (hnext : Computes (naviCdr cons : Code NaviObj) w₁ cdr' w₁)
    (hrest : EndsIn X env w₁ cdr' e w') :
    EndsIn X env w cons e w'

/-- **A body returns a bounce of its last expression.** -/
theorem EndsIn.returns (h : EndsIn X env w cons e w') (result : Option NaviObj) :
    (worldSemantics X).Returns (.beginLoop cons result env) w
      (.ok (.ptr (.thunk w'.nextThunk)) (w'.bounced e env)) := by
  induction h generalizing result with
  | @last w cons e hcons =>
    refine (computes_naviIsPair hcons).evaluates_bind ?_
    refine (computes_naviIsLastPair hcons).evaluates_bind ?_
    exact (computes_naviCar hcons).evaluates_bind (computes_evalTail w e env).evaluates
  | @next w w₁ w' cons x cdr cdr' v e hcons hcdr hx hnext _ ih =>
    refine (computes_naviIsPair hcons).evaluates_bind ?_
    refine (computes_naviIsLastPair hcons).evaluates_bind ?_
    rw [decide_eq_false hcdr]
    refine (computes_naviCar hcons).evaluates_bind ((evaluates_callFn.mpr hx).bind ?_)
    exact hnext.evaluates_bind (evaluates_callFn.mpr (ih (some v)))

/-! ### The loop of `navi_eval` -/

/-- A world in which a guard more has been made. -/
def World.guarding (w : World) : World := { w with nextGuard := w.nextGuard + 1 }

theorem computes_naviGcGuard_ptr (w : World) (a : Addr) (env : NaviEnv) :
    Computes (naviGcGuard (.ptr a) env : Code _) w (some (env.lexical, w.nextGuard)) w.guarding :=
  Computes.perform rfl

/-- What the loop of `navi_eval`, in `env`, makes of an expression that `_eval` evaluates in
`new`. -/
def tailValue (e : NaviObj) (new env : NaviEnv) : Code NaviObj := do
  let expr ← callFn (.eval_ e new) [] new.scopes
  if (← naviType expr) = .naviBounce then callFn (.evalLoop expr env) [] []
  else return expr

theorem returns_naviEval_iff : (worldSemantics X).Returns (.naviEval e env) w r ↔
    (worldSemantics X).Returns (.evalLoop e env) w r := by
  have hunref (w : World) : Computes (naviEnvUnref env : Code Unit) w () w :=
    (Computes.perform (o := .scopeUnref env.lexical) rfl).bind
      (Computes.perform (o := .scopeUnref env.dynamic) rfl)
  refine (computes_naviEnvRef env w).evaluates.bind_iff.trans ?_
  exact (evaluates_bind_ret hunref).trans evaluates_callFn

theorem returns_evalLoop_iff {a : Addr} : (worldSemantics X).Returns (.evalLoop (.ptr a) env) w r ↔
    (worldSemantics X).Evaluates (tailValue (.ptr a) env env) w.guarding r :=
  (computes_naviGcGuard_ptr w a env).evaluates.bind_iff.trans
    (evaluates_bind_skip fun w => computes_naviGcUnguard _ w)

/-- A bounce is evaluated by evaluating what is in it. -/
theorem returns_eval_bounce (ho : w.load o = .ok (.naviBounce, .thunk e new)) :
    (worldSemantics X).Returns (.eval_ o env) w r ↔
      (worldSemantics X).Returns (.eval_ e new) { w with log := (o, env) :: w.log } r := by
  have hstep : Computes (perform (.evaluating o env) : Code _) w ()
      { w with log := (o, env) :: w.log } := Computes.perform rfl
  have ho' : ({ w with log := (o, env) :: w.log } : World).load o =
      .ok (.naviBounce, .thunk e new) := ho
  have hthunk : Computes (naviThunk o : Code _) { w with log := (o, env) :: w.log } (e, new)
      { w with log := (o, env) :: w.log } := (computes_load ho').bind (Computes.ret _)
  refine hstep.evaluates.bind_iff.trans ((computes_naviType ho').evaluates.bind_iff.trans ?_)
  exact hthunk.evaluates.bind_iff.trans evaluates_callFn

/-- **The world in which `_eval` takes up an expression** in tail position in `new` of which a
bounce has been returned, and been wrapped in a bounce for `env`. -/
def World.wrapped (w : World) (e : NaviObj) (new env : NaviEnv) : World :=
  let tail := NaviObj.ptr (.thunk w.nextThunk)
  let inner := (w.bounced e new).guarding
  let bounce := NaviObj.ptr (.thunk inner.nextThunk)
  let outer := (inner.bounced tail env).guarding
  { outer with log := (tail, env) :: (bounce, env) :: outer.log }

theorem World.load_bounced_of_ne {a : Addr} (ha : a ≠ .thunk w.nextThunk) :
    (w.bounced e env).load (.ptr a) = w.load (.ptr a) := by
  rw [World.bounced, World.load_setObj, if_neg ha, World.make, if_pos rfl]
  exact (World.load_setObj _ _ _ _).trans (if_neg ha)

/-- The next bounce is another one. -/
theorem World.load_bounced_bounced :
    ((w.bounced e new).guarding.bounced o env).load (.ptr (.thunk w.nextThunk)) =
      .ok (.naviBounce, .thunk e new) := by
  have hnext : (w.bounced e new).guarding.nextThunk = w.nextThunk + 1 := rfl
  have hne : Addr.thunk w.nextThunk ≠ .thunk (w.bounced e new).guarding.nextThunk := by
    rw [hnext]
    exact fun heq => absurd (Addr.thunk.inj heq) (Nat.lt_succ_self _).ne
  exact (World.load_bounced_of_ne hne).trans (w.load_bounced e new)

/-- **A bounce of a bounce** comes to what the pending expression comes to. -/
theorem returns_evalLoop_wrapped :
    (worldSemantics X).Returns (.evalLoop (.ptr (.thunk (w.bounced e new).guarding.nextThunk)) env)
        ((w.bounced e new).guarding.bounced (.ptr (.thunk w.nextThunk)) env) r ↔
      (worldSemantics X).Evaluates (tailValue e new env) (w.wrapped e new env) r := by
  have houter : ((w.bounced e new).guarding.bounced (.ptr (.thunk w.nextThunk)) env).guarding.load
      (.ptr (.thunk (w.bounced e new).guarding.nextThunk)) =
        .ok (.naviBounce, .thunk (.ptr (.thunk w.nextThunk)) env) := World.load_bounced _ _ _
  refine returns_evalLoop_iff.trans ?_
  have hcalls (q : Res Fault EvalExn World NaviObj) :
      (worldSemantics X).Evaluates
          (callFn (.eval_ (.ptr (.thunk (w.bounced e new).guarding.nextThunk)) env) [] env.scopes)
          ((w.bounced e new).guarding.bounced (.ptr (.thunk w.nextThunk)) env).guarding q ↔
        (worldSemantics X).Evaluates (callFn (.eval_ e new) [] new.scopes)
          (w.wrapped e new env) q := by
    refine evaluates_callFn.trans (Iff.trans ?_ evaluates_callFn.symm)
    exact (returns_eval_bounce houter).trans (returns_eval_bounce World.load_bounced_bounced)
  exact ⟨fun h => h.bind_congr fun q => (hcalls q).mp, fun h => h.bind_congr fun q => (hcalls q).mpr⟩

/-! ### Calls of macros -/

/-- **A call of an interpreted macro comes to the last expression** `e` of the body of the macro,
in an environment `new` in which the parameters are bound to the unevaluated operands. -/
inductive ReachesLast (X : Externals) (w : World) (call : NaviObj) (env : NaviEnv) :
    NaviObj → NaviEnv → World → Prop
  /-- The value of the operator is a macro that accepts the operands. -/
  | intro {op operands args m body e : NaviObj} {p : NaviProcedure} {n : ℕ} {new : NaviEnv}
    {w₁ w₂ w₃ : World} (hcall : IsPair w call op operands)
    (hproper : Computes (naviIsProperList call : Code Bool) (w.evaluated call env (w.nextGuard + 1))
      true (w.evaluated call env (w.nextGuard + 1)))
    (hop : (worldSemantics X).Returns (.naviEval op env) (w.evaluated call env (w.nextGuard + 1))
      (.ok m w₁))
    (hm : w₁.load m = .ok (.naviMacro, .proc p)) (hbody : p.body = .body body)
    (hargs : Computes (naviCdr call : Code NaviObj) w₁.guarding args w₁.guarding)
    (hcheck : Computes (checkApply m args) w₁.guarding n w₁.guarding)
    (hnew : Computes (naviExtendEnvironment env p.args args : Code NaviEnv) w₁.guarding new w₂)
    (hend : EndsIn X new w₂ body e w₃) :
    ReachesLast X w call env e new (w₃.wrapped e new env)

/-- What applying an interpreted procedure returns. -/
theorem returns_naviApply_body {args body : NaviObj} {p : NaviProcedure} {t : NaviType} {n : ℕ}
    {w₂ w₃ : World} (ho : w.load o = .ok (t, .proc p)) (hbody : p.body = .body body)
    (hcheck : Computes (checkApply o args) w n w)
    (hnew : Computes (naviExtendEnvironment env p.args args : Code NaviEnv) w new w₂)
    (hend : EndsIn X new w₂ body e w₃) :
    (worldSemantics X).Returns (.naviApply_ o args env) w
      (.ok (.ptr (.thunk w₃.nextThunk)) (w₃.bounced e new).guarding) := by
  refine hcheck.leaf.bind (evaluates_callFn.mpr ?_)
  refine (computes_naviProcedure ho).evaluates_bind ?_
  rw [hbody]
  refine hnew.evaluates_bind ((evaluates_callFn.mpr (hend.returns none)).bind ?_)
  have hunref : Computes (naviEnvUnref new : Code Unit) (w₃.bounced e new) () (w₃.bounced e new) :=
    (Computes.perform (o := .scopeUnref new.lexical) rfl).bind
      (Computes.perform (o := .scopeUnref new.dynamic) rfl)
  refine hunref.evaluates_bind ((computes_naviGcGuard_ptr _ _ env).evaluates_bind ?_)
  refine (Computes.perform rfl).evaluates_bind ?_
  exact (computes_naviGcUnguard _ _).evaluates_bind .ret

/-- **A call of a macro comes to what the last expression of its body comes to.** -/
theorem evaluates_macroCall (h : ReachesLast X w call env e new w') :
    (worldSemantics X).Returns (.naviEval call env) w r ↔
      (worldSemantics X).Evaluates (tailValue e new env) w' r := by
  obtain ⟨hcall, hproper, hop, hm, hbody, hargs, hcheck, hnew, hend⟩ := h
  rename_i op operands args m body p n w₁ w₂ w₃
  obtain ⟨a, rfl, -⟩ := hcall.ptr
  obtain ⟨b, rfl⟩ := World.ptr_of_load hm
  have hcall' : IsPair (w.evaluated (.ptr a) env (w.nextGuard + 1)) (.ptr a) op operands := hcall
  have hm' : w₁.guarding.load (.ptr b) = .ok (.naviMacro, .proc p) := hm
  -- `eval_call` returns a bounce of the bounce that the body returns
  have heval : (worldSemantics X).Returns (.evalCall (.ptr a) env)
      (w.evaluated (.ptr a) env (w.nextGuard + 1))
      (.ok (.ptr (.thunk (w₃.bounced e new).guarding.nextThunk))
        ((w₃.bounced e new).guarding.bounced (.ptr (.thunk w₃.nextThunk)) env)) := by
    refine (computes_naviCar hcall').evaluates_bind ((evaluates_callFn.mpr hop).bind ?_)
    refine (computes_naviGcGuard_ptr w₁ b env).evaluates_bind ?_
    refine (computes_naviType hm').evaluates_bind ?_
    have htail := returns_naviApply_body hm' hbody hcheck hnew hend
    have hbounce := computes_evalTail (w₃.bounced e new).guarding (.ptr (.thunk w₃.nextThunk)) env
    refine hargs.evaluates_bind ((evaluates_callFn.mpr htail).bind ?_)
    exact hbounce.evaluates_bind ((computes_naviGcUnguard _ _).evaluates_bind .ret)
  have hstep : Computes (perform (.evaluating (.ptr a) env) : Code _) w.guarding ()
      (w.evaluated (.ptr a) env (w.nextGuard + 1)) := Computes.perform rfl
  have hfirst : (worldSemantics X).Returns (.eval_ (.ptr a) env) w.guarding
      (.ok (.ptr (.thunk (w₃.bounced e new).guarding.nextThunk))
        ((w₃.bounced e new).guarding.bounced (.ptr (.thunk w₃.nextThunk)) env)) := by
    refine hstep.evaluates_bind ((computes_naviType hcall').evaluates_bind ?_)
    exact hproper.evaluates_bind (evaluates_callFn.mpr heval)
  refine returns_naviEval_iff.trans (returns_evalLoop_iff.trans ?_)
  refine (evaluates_callFn.mpr hfirst).bind_iff.trans ?_
  refine (computes_naviType (World.load_bounced _ _ _)).evaluates.bind_iff.trans ?_
  exact evaluates_callFn.trans returns_evalLoop_wrapped

/-- **The body of the macro returns the form** `F`. -/
def BodyReturns (X : Externals) (w : World) (call : NaviObj) (env : NaviEnv) (form : NaviObj)
    (w₁ : World) : Prop :=
  ∃ e new w', ReachesLast X w call env e new w' ∧
    (worldSemantics X).Evaluates (tailValue e new env) w' (.ok form w₁)

/-- **A call of a macro expands once**: what it comes to is what the form that the body returns
comes to in the environment of the call, in the world that the body leaves; what is evaluated is
a part of the world. -/
def ExpandsOnce (X : Externals) (w : World) (call : NaviObj) (env : NaviEnv) : Prop :=
  ∀ form w₁, BodyReturns X w call env form w₁ → ∀ r,
    (worldSemantics X).Returns (.naviEval call env) w r ↔
      (worldSemantics X).Returns (.naviEval form env) w₁ r

/-- The call comes to the form itself. -/
theorem BodyReturns.returns {form : NaviObj} (h : BodyReturns X w call env form w₁) :
    (worldSemantics X).Returns (.naviEval call env) w (.ok form w₁) := by
  obtain ⟨e, new, w', hlast, hform⟩ := h
  exact (evaluates_macroCall hlast).mpr hform

/-- An evaluation is recorded. -/
theorem not_returns_same : ¬ (worldSemantics X).Returns (.naviEval e env) w (.ok v w) := by
  intro h
  exact absurd (log_lt_of_returns h) (Nat.not_succ_le_self _)

/-- **No macro is expanded**: a call of one meets its law only if the body returns no form. -/
theorem expandsOnce_iff (X : Externals) (w : World) (call : NaviObj) (env : NaviEnv) :
    ExpandsOnce X w call env ↔ ¬ ∃ form w₁, BodyReturns X w call env form w₁ := by
  constructor
  · rintro h ⟨form, w₁, hform⟩
    exact not_returns_same ((h form w₁ hform _).mp hform.returns)
  · exact fun h form w₁ hform => absurd ⟨form, w₁, hform⟩ h

/-- A world with the macro of `(defmacro (m a) a)`, a variable `x` that is `5`, and the form
`(m x)`. -/
def macroWorld : World :=
  let o (n : ℕ) : NaviObj := .ptr (.obj n)
  let pair (car cdr : NaviObj) : NaviType × Data := (.naviPair, .pair (some car) (some cdr))
  .ofCells
    [(.naviSymbol, .symbol "m" true), (.naviSymbol, .symbol "a" true),
      (.naviSymbol, .symbol "x" true),
      -- the parameters, the body and the macro
      pair (o 1) .nil, pair (o 1) .nil,
      (.naviMacro, .proc ⟨false, 1, o 0, 0, o 3, .body (o 4), none⟩),
      -- (x), (m x)
      pair (o 2) .nil, pair (o 0) (o 6)]
    [("m", 0), ("a", 1), ("x", 2)] [⟨none, [⟨o 0, o 5⟩, ⟨o 2, .fixnum 5⟩]⟩, ⟨none, []⟩] []

/-- The body of the macro returns the symbol `x`. -/
theorem bodyReturns_macroWorld : ∃ w₁,
    BodyReturns noExternals macroWorld (.ptr (.obj 7)) ⟨0, 1⟩ (.ptr (.obj 2)) w₁ ∧
      ∃ w', (worldSemantics noExternals).Returns (.naviEval (.ptr (.obj 2)) ⟨0, 1⟩) w₁
        (.ok (.fixnum 5) w') := by
  refine ⟨_, ⟨.ptr (.obj 1), _, _, .intro (isPair_ptr.mpr rfl) (fun _ => rfl) ⟨nofun, 5, rfl⟩ rfl rfl
    (fun _ => rfl) (fun _ => rfl) (fun _ => rfl) (.last (isPair_ptr.mpr rfl)), nofun, 5, rfl⟩, _,
    nofun, 5, rfl⟩

/-- **`(m x)` comes to the symbol `x`**, and not to `5`. -/
theorem not_expandsOnce : ¬ ExpandsOnce noExternals macroWorld (.ptr (.obj 7)) ⟨0, 1⟩ := by
  intro h
  obtain ⟨w₁, hform, w', hx⟩ := bodyReturns_macroWorld
  exact nomatch ((h _ _ hform _).mp hform.returns).unique hx

end NaviScheme
