import NaviScheme.Eval.Core
import NaviScheme.Uniform.Leaf

/-!
# eval.c, at other addresses

The functions of `eval.c` do not look at addresses. A call of a readdressed function is a
readdressed call (`NaviScheme.natural_callFn`).
-/

namespace NaviScheme

open Prog

variable {α β : Type} [MulAction Readdressing α] [MulAction Readdressing β]

attribute [local simp] Natural smul_bind smul_ite

/-! ### Calls -/

/-- A call, readdressed. -/
theorem natural_callFn (f : EvalFn) (objs : List NaviObj) (scopes : List ScopeAddr) :
    Natural (callFn f objs scopes) fun g =>
      cast (congrArg Code (RenamesFns.ret_smul (F := evalFns) g f))
        (callFn (g • f) (g • objs) scopes) := by
  refine ⟨fun g => ?_, trivial, fun _ _ => trivial, fun _ _ => trivial⟩
  cases f
  all_goals
    refine congrArg (Prog.call _ _) (funext fun r => ?_)
    cases r with
    | ok v => exact congrArg Prog.ret (smul_inv_smul g v)
    | error e => exact congrArg Prog.throw (smul_inv_smul g e)

/-- What follows a call that returns an object. -/
theorem natural_bind_obj {p : Code NaviObj} {p' : Readdressing → Code NaviObj}
    {q : NaviObj → Code β} {q' : Readdressing → NaviObj → Code β} (hp : Natural p p')
    (hq : ∀ o, Natural (q o) fun g => q' g (g • o)) :
    Natural (p >>= q) fun g => p' g >>= q' g :=
  natural_bind hp hq

/-- What follows a call that returns nothing. -/
theorem natural_bind_unit {p : Code Unit} {p' : Readdressing → Code Unit} {q : Unit → Code β}
    {q' : Readdressing → Unit → Code β} (hp : Natural p p')
    (hq : ∀ u, Natural (q u) fun g => q' g u) : Natural (p >>= q) fun g => p' g >>= q' g :=
  natural_bind hp hq

/-- Calling `navi_raise`. -/
@[simp] theorem natural_raise (args : NaviObj) (env : NaviEnv) :
    Natural (raise args env : Code α) fun g => raise (g • args) env :=
  ⟨fun g => (smul_bind_eq ((natural_callFn (.naviRaise args env) [] []).1 g) fun never =>
      Empty.elim never), Heeds.bind (natural_callFn _ _ _).2 fun never => Empty.elim never⟩

/-- A function that does not evaluate. -/
theorem natural_leaf {p : Leaf α} {p' : Readdressing → Leaf α} {env : NaviEnv}
    (hp : Natural p p') : Natural (leaf env p) fun g => leaf env (p' g) := by
  refine ⟨fun g => ?_, Prog.Keeps.embed (fun e _ => (natural_raise e env).2) hp.2⟩
  have hraise (e : NaviObj) : g • (raise e env : Code α) = (fun args => raise args env) (g • e) :=
    (natural_raise e env).1 g
  exact (smul_embed hraise p).trans (congrArg _ (hp.1 g))

@[simp] theorem natural_naviEval (expr : NaviObj) (env : NaviEnv) (objs : List NaviObj)
    (scopes : List ScopeAddr) :
    Natural (naviEval expr env objs scopes) fun g => naviEval (g • expr) env (g • objs) scopes :=
  natural_callFn _ _ _

@[simp] theorem natural_naviApply (proc args : NaviObj) (env : NaviEnv) (objs : List NaviObj)
    (scopes : List ScopeAddr) :
    Natural (naviApply proc args env objs scopes) fun g =>
      naviApply (g • proc) (g • args) env (g • objs) scopes :=
  natural_bind (natural_naviProcedure proc) fun _ => natural_callFn _ _ _

@[simp] theorem natural_evalTail (tail : NaviObj) (env : NaviEnv) :
    Natural (evalTail tail env) fun g => evalTail (g • tail) env := natural_naviMakeBounce _ _

/-! ### The evaluator -/

theorem natural_naviEvalBody (expr : NaviObj) (env : NaviEnv) :
    Natural (naviEvalBody expr env) fun g => naviEvalBody (g • expr) env := by
  refine natural_bind (natural_naviEnvRef env) fun _ => ?_
  refine natural_bind_obj (natural_callFn _ _ _) fun v => ?_
  exact natural_bind (natural_naviEnvUnref env) fun _ => natural_ret v

theorem natural_evalLoopBody (expr : NaviObj) (env : NaviEnv) :
    Natural (evalLoopBody expr env) fun g => evalLoopBody (g • expr) env := by
  refine natural_bind (natural_naviGcGuard expr env) fun guard => ?_
  refine natural_bind_obj (natural_callFn _ _ _) fun v => ?_
  refine natural_bind (natural_naviGcUnguard guard) fun _ => ?_
  refine natural_bind (natural_naviType v) fun t => ?_
  exact natural_ite (by simp) (natural_callFn _ _ _) (natural_ret v)

theorem natural_evalBody_ (expr : NaviObj) (env : NaviEnv) :
    Natural (evalBody_ expr env) fun g => evalBody_ (g • expr) env := by
  refine natural_bind (natural_evaluating expr env) fun _ => ?_
  refine natural_bind (natural_naviType expr) fun t => ?_
  cases t with
  | naviThunk | naviBounce =>
    exact natural_bind (natural_naviThunk expr) fun thunk => natural_callFn _ _ _
  | naviValues => exact natural_bind (natural_naviVector expr) fun data => natural_elem data 0
  | naviSymbol =>
    refine natural_bind (natural_naviEnvLookup _ expr) fun val => ?_
    refine natural_bind (natural_naviType val) fun t => ?_
    exact natural_ite (by simp) (natural_leaf (natural_naviUnboundIdentifierError expr))
      (natural_ret val)
  | naviPair =>
    refine natural_bind (natural_naviIsProperList expr) fun b => ?_
    refine natural_ite (by simp) (natural_callFn _ _ _) ?_
    exact natural_bind (natural_naviMakeApair _ expr) fun e =>
      natural_leaf (natural_naviError _ [e])
  | naviTrap => exact natural_fail _
  | _ => exact natural_ret expr

theorem natural_naviParameterLookup (param : NaviObj) (env : NaviEnv) :
    Natural (naviParameterLookup param env) fun g => naviParameterLookup (g • param) env := by
  refine natural_bind (natural_naviCar param) fun key => ?_
  refine natural_bind (natural_naviEnvBinding _ key) fun r => ?_
  rcases r with _ | ⟨s, o⟩
  · exact natural_leaf (natural_naviError _ [])
  · exact natural_ret o

theorem natural_naviCallEscape (escape arg : NaviObj) :
    Natural (naviCallEscape escape arg : Code α) fun g =>
      naviCallEscape (g • escape) (g • arg) := by
  refine natural_bind (natural_load escape) fun c => ?_
  obtain ⟨t, d⟩ := c
  cases d with
  | escape env arg' =>
    have hstore : Heeds orderly (store escape (.escape env (some arg)) : Code Unit) :=
      heeds_store (mayHold_of_ne nofun)
    exact natural_bind ⟨fun g => smul_store _ _, hstore⟩ fun _ => ⟨fun g => rfl, trivial⟩
  | _ => exact natural_fail _

theorem natural_evalCallBody (expr : NaviObj) (env : NaviEnv) :
    Natural (evalCallBody expr env) fun g => evalCallBody (g • expr) env := by
  refine natural_bind (natural_naviCar expr) fun car => ?_
  refine natural_bind (natural_naviEval car env _ _) fun proc => ?_
  refine natural_bind (natural_naviGcGuard proc env) fun guard => ?_
  refine natural_bind (natural_naviType proc) fun t => ?_
  have hlast (o : NaviObj) : Natural (do
      naviGcUnguard guard
      return o : Code NaviObj) fun g => do
        naviGcUnguard (g • guard)
        return g • o :=
    natural_bind (natural_naviGcUnguard guard) fun _ => natural_ret o
  cases t with
  | naviSpecial | naviProcedure | naviCaselambda =>
    refine natural_bind (natural_naviCdr expr) fun cdr => ?_
    exact natural_bind_obj (natural_callFn _ _ _) hlast
  | naviMacro =>
    refine natural_bind (natural_naviCdr expr) fun cdr => ?_
    refine natural_bind_obj (natural_callFn _ _ _) fun e => ?_
    exact natural_bind (natural_evalTail e env) hlast
  | naviEscape =>
    refine natural_bind (natural_naviListLength expr) fun n => natural_ite (by simp) ?_ ?_
    · exact natural_bind (natural_ret NaviObj.nil) fun arg =>
        natural_bind (natural_naviCallEscape proc arg) hlast
    · exact natural_bind (natural_naviCadr expr) fun arg =>
        natural_bind (natural_naviCallEscape proc arg) hlast
  | naviParameter =>
    refine natural_bind (natural_naviCdr expr) fun cdr => natural_ite (by simp) ?_ ?_
    · exact natural_bind (natural_naviParameterLookup proc env) hlast
    · refine natural_bind (natural_naviCar proc) fun name => ?_
      exact natural_bind (natural_leaf (natural_naviArityError name)) hlast
  | _ =>
    refine natural_bind (natural_naviMakeApair _ proc) fun v => ?_
    exact natural_bind (natural_leaf (natural_naviError _ [v])) hlast

theorem natural_naviApplyBody_ (proc args : NaviObj) (env : NaviEnv) :
    Natural (naviApplyBody_ proc args env) fun g => naviApplyBody_ (g • proc) (g • args) env :=
  natural_bind (natural_leaf (natural_checkApply proc args)) fun _ => natural_callFn _ _ _

theorem natural_doApplyBody (proc : NaviObj) (nrArgs : ℕ) (args : NaviObj) (env : NaviEnv) :
    Natural (doApplyBody proc nrArgs args env) fun g =>
      doApplyBody (g • proc) nrArgs (g • args) env := by
  refine natural_bind (natural_naviProcedure proc) fun p => ?_
  have hlast (v : NaviObj) : Natural (do
      let guard ← naviGcGuard v env
      perform (.gcCheck ⟨[v], [env.lexical]⟩)
      naviGcUnguard guard
      return v : Code NaviObj) fun g => do
        let guard ← naviGcGuard (g • v) env
        perform (.gcCheck ⟨[g • v], [env.lexical]⟩)
        naviGcUnguard guard
        return g • v := by
    refine natural_bind (natural_naviGcGuard v env) fun guard => ?_
    refine natural_bind (natural_gcCheck _) fun _ => ?_
    exact natural_bind (natural_naviGcUnguard guard) fun _ => natural_ret v
  obtain ⟨variadic, arity, name, penv, pargs, body, types⟩ := p
  cases body with
  | cProc f =>
    refine natural_bind (natural_naviGcGuard args env) fun guard => ?_
    refine natural_bind_obj (natural_callFn _ _ _) fun v => ?_
    exact natural_bind (natural_naviGcUnguard guard) fun _ => hlast v
  | body body =>
    refine natural_bind (natural_naviExtendEnvironment env pargs args) fun new => ?_
    refine natural_bind_obj (natural_callFn _ _ _) fun v => ?_
    exact natural_bind (natural_naviEnvUnref new) fun _ => hlast v

theorem natural_procedureCallBody (proc args : NaviObj) (env : NaviEnv) :
    Natural (procedureCallBody proc args env) fun g =>
      procedureCallBody (g • proc) (g • args) env := by
  refine natural_bind (natural_naviIsPair args) fun b => natural_ite (by simp) ?_
    (natural_naviApply proc .nil env [] [])
  refine natural_bind (natural_naviMakePair .void .nil) fun first => ?_
  refine natural_bind (natural_naviGcGuard first env) fun guard => ?_
  refine natural_bind (natural_naviCar args) fun car => ?_
  refine natural_bind (natural_naviEval car env _ _) fun val => ?_
  refine natural_bind (natural_naviSetCar first val) fun _ => ?_
  refine natural_bind (natural_naviCdr args) fun cdr => ?_
  refine natural_bind_unit (natural_callFn _ _ _) fun _ => ?_
  refine natural_bind (natural_naviGcUnguard guard) fun _ => ?_
  exact natural_naviApply proc first env [] []

theorem natural_operandLoopBody (cons ptr : NaviObj) (env : NaviEnv) :
    Natural (operandLoopBody cons ptr env) fun g => operandLoopBody (g • cons) (g • ptr) env := by
  refine natural_bind (natural_naviIsPair cons) fun b => natural_ite (by simp) ?_
    (natural_naviSetCdr ptr .nil)
  refine natural_bind (natural_naviMakePair .void .nil) fun pair => ?_
  refine natural_bind (natural_naviSetCdr ptr pair) fun _ => ?_
  refine natural_bind (natural_naviCar cons) fun car => ?_
  refine natural_bind (natural_naviEval car env _ _) fun val => ?_
  refine natural_bind (natural_naviSetCar pair val) fun _ => ?_
  exact natural_bind (natural_naviCdr cons) fun cdr => natural_callFn _ _ _

theorem natural_findClause (nrArgs : ℕ) (clauses : List (Option NaviObj)) :
    Natural (findClause nrArgs clauses) fun g => findClause nrArgs (g • clauses) := by
  induction clauses with
  | nil => exact natural_ret none
  | cons clause rest ih =>
    cases clause with
    | none => exact natural_fail _
    | some clause =>
      refine natural_bind (natural_naviProcedure clause) fun p => ?_
      exact natural_ite (fun _ => .rfl) (natural_ret (some clause)) ih

theorem natural_caselambdaCallBody (lambda args : NaviObj) (env : NaviEnv) :
    Natural (caselambdaCallBody lambda args env) fun g =>
      caselambdaCallBody (g • lambda) (g • args) env := by
  refine natural_bind (natural_naviListLength args) fun n => ?_
  refine natural_bind (natural_naviVector lambda) fun data => ?_
  refine natural_bind (natural_findClause n data) fun clause => ?_
  cases clause with
  | none =>
    exact natural_bind (natural_naviMakeSymbol _) fun name =>
      natural_leaf (natural_naviArityError name)
  | some clause => exact natural_naviApply clause args env [] []

theorem natural_beginLoopBody (cons : NaviObj) (result : Option NaviObj) (env : NaviEnv) :
    Natural (beginLoopBody cons result env) fun g =>
      beginLoopBody (g • cons) (g • result) env := by
  refine natural_bind (natural_naviIsPair cons) fun b => natural_ite (by simp) ?_ ?_
  · refine natural_bind (natural_naviIsLastPair cons) fun b => natural_ite (by simp) ?_ ?_
    · exact natural_bind (natural_naviCar cons) fun car => natural_evalTail car env
    · refine natural_bind (natural_naviCar cons) fun car => ?_
      refine natural_bind (natural_naviEval car env _ _) fun v => ?_
      exact natural_bind (natural_naviCdr cons) fun cdr => natural_callFn _ _ _
  · cases result with
    | none => exact natural_fail _
    | some result => exact natural_ret result

theorem natural_andLoopBody (cons : NaviObj) (env : NaviEnv) :
    Natural (andLoopBody cons env) fun g => andLoopBody (g • cons) env := by
  refine natural_bind (natural_naviIsPair cons) fun b => natural_ite (by simp) ?_ (natural_ret _)
  refine natural_bind (natural_naviIsLastPair cons) fun b => natural_ite (by simp) ?_ ?_
  · exact natural_bind (natural_naviCar cons) fun car => natural_evalTail car env
  · refine natural_bind (natural_naviCar cons) fun car => ?_
    refine natural_bind (natural_naviEval car env _ _) fun v => ?_
    refine natural_ite (by simp) ?_ (natural_ret _)
    exact natural_bind (natural_naviCdr cons) fun cdr => natural_callFn _ _ _

theorem natural_orLoopBody (cons : NaviObj) (env : NaviEnv) :
    Natural (orLoopBody cons env) fun g => orLoopBody (g • cons) env := by
  refine natural_bind (natural_naviIsPair cons) fun b => natural_ite (by simp) ?_ (natural_ret _)
  refine natural_bind (natural_naviIsLastPair cons) fun b => natural_ite (by simp) ?_ ?_
  · exact natural_bind (natural_naviCar cons) fun car => natural_evalTail car env
  · refine natural_bind (natural_naviCar cons) fun car => ?_
    refine natural_bind (natural_naviEval car env _ _) fun v => ?_
    refine natural_ite (by simp) (natural_ret _) ?_
    exact natural_bind (natural_naviCdr cons) fun cdr => natural_callFn _ _ _

theorem natural_evalQqBody (expr : NaviObj) (env : NaviEnv) :
    Natural (evalQqBody expr env) fun g => evalQqBody (g • expr) env := by
  refine natural_bind (natural_naviType expr) fun t => ?_
  cases t with
  | naviPair =>
    refine natural_bind (natural_naviCar expr) fun car => ?_
    refine natural_bind (natural_naviMakeSymbol _) fun sym => ?_
    refine natural_bind (natural_naviSymbolEq car sym) fun b => natural_ite (by simp) ?_ ?_
    · exact natural_bind (natural_naviCadr expr) fun e => natural_naviEval e env _ _
    · exact natural_callFn (.qqLoop expr none none env) _ _
  | naviVector =>
    refine natural_bind (natural_naviVectorToList expr) fun list => ?_
    exact natural_bind_obj (natural_callFn _ _ _) fun list => natural_naviListToVector list
  | _ => exact natural_ret expr

theorem natural_setLast (first last : Option NaviObj) (obj : NaviObj) :
    Natural (setLast first last obj) fun g => setLast (g • first) (g • last) (g • obj) := by
  cases first with
  | none => exact natural_ret obj
  | some first =>
    cases last with
    | none => exact natural_ret obj
    | some last => exact natural_bind (natural_naviSetCdr last obj) fun _ => natural_ret first

theorem natural_qqLoopBody (cons : NaviObj) (first last : Option NaviObj) (env : NaviEnv) :
    Natural (qqLoopBody cons first last env) fun g =>
      qqLoopBody (g • cons) (g • first) (g • last) env := by
  have htail : Natural (do
      let val ← callFn (.evalQq cons env) (first.toList ++ last.toList) []
      setLast first last val : Code NaviObj) (fun g => do
        let val ← callFn (.evalQq (g • cons) env) ((g • first).toList ++ (g • last).toList) []
        setLast (g • first) (g • last) val) := by
    refine natural_bind_obj ?_ fun val => natural_setLast first last val
    cases first <;> cases last <;> exact natural_callFn _ _ _
  refine natural_bind (natural_naviIsPair cons) fun b => natural_ite (by simp) ?_ ?_
  · refine natural_bind (natural_naviCar cons) fun elm => ?_
    refine natural_bind (natural_naviMakeSymbol _) fun splice => ?_
    refine natural_bind (natural_naviMakeSymbol _) fun unquote => ?_
    refine natural_bind (natural_naviIsPair elm) fun b => natural_ite (by simp)
      (natural_bind (natural_naviCar elm) fun car =>
        natural_bind (natural_naviSymbolEq car splice) fun isSplice => natural_ite (by simp) ?_ ?_)
      (natural_bind (natural_ret false) fun isSplice => natural_ite (by simp) ?_ ?_)
    -- whether or not the element is a pair
    case refine_1 | refine_3 =>
      refine natural_bind (natural_naviCdar cons) fun tail => ?_
      refine natural_bind (natural_naviCar tail) fun e => ?_
      refine natural_bind ?_ fun list => ?_
      · cases first <;> cases last <;> exact natural_naviEval e env _ _
      · refine natural_bind (natural_naviIsProperList list) fun b => natural_ite (by simp) ?_ ?_
        · refine natural_bind (natural_setLast first last list) fun first => ?_
          refine natural_bind (natural_naviLastCons list) fun last => ?_
          exact natural_bind (natural_naviCdr cons) fun cdr => natural_callFn _ _ _
        · exact natural_bind (natural_naviCdr cons) fun cdr => natural_callFn _ _ _
    case refine_2 | refine_4 =>
      refine natural_bind (natural_naviSymbolEq elm unquote) fun b => natural_ite (by simp) htail ?_
      refine natural_bind natural_naviMakeEmptyPair fun pair => ?_
      refine natural_bind (natural_setLast first last pair) fun first => ?_
      refine natural_bind (natural_naviCar cons) fun car => ?_
      refine natural_bind_obj (natural_callFn _ _ _) fun val => ?_
      refine natural_bind (natural_naviSetCar pair val) fun _ => ?_
      exact natural_bind (natural_naviCdr cons) fun cdr => natural_callFn _ _ _
  · exact natural_ite (by simp) (natural_setLast first last .nil) htail

theorem natural_evalClauseBody (arg begin : NaviObj) (env : NaviEnv) :
    Natural (evalClauseBody arg begin env) fun g =>
      evalClauseBody (g • arg) (g • begin) env := by
  refine natural_bind (natural_naviCar begin) fun car => ?_
  refine natural_bind (natural_naviMakeSymbol _) fun sym => ?_
  refine natural_bind (natural_naviSymbolEq car sym) fun b => natural_ite (by simp) ?_
    (natural_callFn _ _ _)
  refine natural_bind (natural_naviCadr begin) fun e => ?_
  refine natural_bind (natural_naviEval e env _ _) fun proc => ?_
  refine natural_bind (natural_naviMakePair arg .nil) fun args => ?_
  exact natural_bind (natural_naviMakePair proc args) fun expr => natural_evalTail expr env

theorem natural_findCase (test : NaviObj) (clauses : List NaviObj) :
    Natural (findCase test clauses) fun g => findCase (g • test) (g • clauses) := by
  induction clauses with
  | nil => exact natural_ret none
  | cons fst rest ih =>
    refine natural_bind (natural_naviCar fst) fun datums => ?_
    refine natural_bind (natural_naviMakeSymbol _) fun sym => ?_
    refine natural_bind (natural_naviSymbolEq datums sym) fun b => natural_ite (by simp)
      (natural_ret (some fst)) ?_
    refine natural_bind (natural_elements datums) fun os => ?_
    exact natural_ite (fun g => mem_smul) (natural_ret (some fst)) ih

theorem natural_scmCase (args : NaviObj) (env : NaviEnv) :
    Natural (scmCase args env) fun g => scmCase (g • args) env := by
  refine natural_bind (natural_caseValid args) fun b => natural_ite (by simp) ?_
    (natural_leaf (natural_naviError _ []))
  refine natural_bind (natural_naviCar args) fun e => ?_
  refine natural_bind (natural_naviEval e env _ _) fun test => ?_
  refine natural_bind (natural_naviCdr args) fun cdr => ?_
  refine natural_bind (natural_elements cdr) fun os => ?_
  refine natural_bind (natural_findCase test os) fun clause => ?_
  cases clause with
  | some fst => exact natural_bind (natural_naviCdr fst) fun begin => natural_callFn _ _ _
  | none => exact natural_ret _

theorem natural_condLoopBody (cons : NaviObj) (env : NaviEnv) :
    Natural (condLoopBody cons env) fun g => condLoopBody (g • cons) env := by
  refine natural_bind (natural_naviIsPair cons) fun b => natural_ite (by simp) ?_ (natural_ret _)
  refine natural_bind (natural_naviCar cons) fun fst => ?_
  refine natural_bind (natural_naviCar fst) fun car => ?_
  refine natural_bind (natural_naviMakeSymbol _) fun sym => ?_
  refine natural_bind (natural_naviSymbolEq car sym) fun b => natural_ite (by simp) ?_ ?_
  · exact natural_bind (natural_naviCdr fst) fun begin => natural_callFn _ _ _
  · refine natural_bind (natural_naviCar fst) fun e => ?_
    refine natural_bind (natural_naviEval e env _ _) fun test => natural_ite (by simp) ?_ ?_
    · exact natural_bind (natural_naviCdr fst) fun begin => natural_callFn _ _ _
    · exact natural_bind (natural_naviCdr cons) fun cdr => natural_callFn _ _ _

theorem natural_caselambdaClauses (env : NaviEnv) (expr : NaviObj) (conses : List NaviObj)
    (i : ℕ) : Natural (caselambdaClauses env expr conses i) fun g =>
      caselambdaClauses env (g • expr) (g • conses) i := by
  induction conses generalizing i with
  | nil => exact natural_ret ()
  | cons cons rest ih =>
    refine natural_bind (natural_naviCar cons) fun clause => ?_
    refine natural_bind (natural_lambdaValid clause) fun b => natural_ite (by simp) ?_
      (natural_leaf (natural_naviError _ []))
    refine natural_bind (natural_naviCar clause) fun formals => ?_
    refine natural_bind (natural_naviCdr clause) fun body => ?_
    refine natural_bind (natural_naviMakeLambda formals body env) fun lambda => ?_
    exact natural_bind (natural_vectorSet expr i lambda) fun _ => ih (i + 1)

theorem natural_scmCaselambda (args : NaviObj) (env : NaviEnv) :
    Natural (scmCaselambda args env) fun g => scmCaselambda (g • args) env := by
  refine natural_bind (natural_walk args) fun c => ?_
  have hnone (g : Readdressing) : g • c.1.map (fun _ => (none : Option NaviObj)) =
      (g • c.1).map fun _ => none := by
    simp [smul_list, Function.comp_def]
  have hmake : Natural (make .naviVector (.vector (c.1.map fun _ => none)) : Code NaviObj)
      fun g => make .naviVector (.vector ((g • c.1).map fun _ => none)) :=
    ⟨fun g => (smul_make _ _).trans (by rw [smul_vector, hnone]), heeds_make nofun⟩
  refine natural_bind hmake fun expr => ?_
  refine natural_bind (natural_retag expr .naviCaselambda) fun _ => ?_
  exact natural_bind (natural_caselambdaClauses env expr c.1 0) fun _ => natural_ret expr

theorem natural_scmLambda (args : NaviObj) (env : NaviEnv) :
    Natural (scmLambda args env) fun g => scmLambda (g • args) env := by
  refine natural_bind (natural_lambdaValid args) fun b => natural_ite (by simp) ?_
    (natural_leaf (natural_naviError _ []))
  refine natural_bind (natural_naviCar args) fun formals => ?_
  exact natural_bind (natural_naviCdr args) fun body => natural_naviMakeLambda formals body env

theorem natural_scmIf (nrArgs : ℕ) (args : NaviObj) (env : NaviEnv) :
    Natural (scmIf nrArgs args env) fun g => scmIf nrArgs (g • args) env := by
  refine natural_ite (fun _ => .rfl) ?_ ?_
  · exact natural_bind (natural_naviMakeSymbol _) fun name =>
      natural_leaf (natural_naviArityError name)
  · refine natural_bind (natural_naviCar args) fun e => ?_
    refine natural_bind (natural_naviEval e env _ _) fun test => natural_ite (by simp) ?_ ?_
    · exact natural_bind (natural_naviCadr args) fun e => natural_evalTail e env
    · refine natural_ite (fun _ => .rfl) ?_ (natural_ret _)
      exact natural_bind (natural_naviCaddr args) fun e => natural_evalTail e env

theorem natural_scmForce (args : NaviObj) (env : NaviEnv) :
    Natural (scmForce args env) fun g => scmForce (g • args) env := by
  refine natural_bind (natural_naviCar args) fun obj => ?_
  refine natural_bind (natural_naviProcedure obj) fun p => ?_
  obtain ⟨variadic, arity, name, penv, pargs, body, types⟩ := p
  cases body with
  | cProc f => exact natural_fail _
  | body body =>
    refine natural_bind (natural_naviMakeSymbol _) fun begin => ?_
    refine natural_bind (natural_naviMakePair begin body) fun expr => ?_
    refine natural_bind (natural_naviEval expr _ _ _) fun r => ?_
    refine natural_bind (natural_naviMakePair r .nil) fun quoted => ?_
    refine natural_bind (natural_naviMakeSymbol _) fun quote => ?_
    refine natural_bind (natural_naviMakePair quote quoted) fun body => ?_
    refine natural_bind (natural_naviProcedure obj) fun p => ?_
    have hstore : Heeds orderly
        (store obj (.proc { p with body := .body body }) : Code Unit) :=
      heeds_store (mayHold_of_ne nofun)
    exact natural_bind ⟨fun g => smul_store _ _, hstore⟩ fun _ => natural_ret r

theorem natural_typeCheckAll (t : NaviType) (os : List NaviObj) :
    Natural (typeCheckAll t os) fun g => typeCheckAll t (g • os) := by
  induction os with
  | nil => exact natural_ret ()
  | cons cons rest ih =>
    refine natural_bind (natural_naviCar cons) fun o => ?_
    exact natural_bind (natural_naviTypeCheck o t) fun _ => ih

theorem natural_includeLoopBody (cons : NaviObj) (ci : Bool) (env : NaviEnv) :
    Natural (includeLoopBody cons ci env) fun g => includeLoopBody (g • cons) ci env := by
  refine natural_bind (natural_naviCar cons) fun filename => ?_
  refine natural_bind_obj (natural_callFn _ _ _) fun result => ?_
  refine natural_bind (natural_naviIsLastPair cons) fun b => natural_ite (by simp)
    (natural_ret result) ?_
  have hnext (result : NaviObj) : Natural (do
      let cons ← naviCdr cons
      if ← naviIsPair cons then callFn (.includeLoop cons ci env) [] []
      else return result : Code NaviObj) (fun g => do
        let cons ← naviCdr (g • cons)
        if ← naviIsPair cons then callFn (.includeLoop cons ci env) [] []
        else return g • result) := by
    refine natural_bind (natural_naviCdr cons) fun cons => ?_
    exact natural_bind (natural_naviIsPair cons) fun b => natural_ite (by simp)
      (natural_callFn _ _ _) (natural_ret result)
  refine natural_bind (natural_naviType result) fun t => natural_ite (by simp) ?_ ?_
  · exact natural_bind (natural_naviEval result env _ _) hnext
  · exact natural_bind (natural_ret result) hnext

theorem natural_naviInclude (args : NaviObj) (ci : Bool) (env : NaviEnv) :
    Natural (naviInclude args ci env) fun g => naviInclude (g • args) ci env := by
  refine natural_bind (natural_walk args) fun c => ?_
  exact natural_bind (natural_leaf (natural_typeCheckAll .naviString c.1)) fun _ =>
    natural_callFn _ _ _

/-! ### What uses ports and other builtins -/

/-- The builtins and the ports do not look at addresses. -/
structure Externals.Natural (X : Externals) : Prop where
  /-- the C functions of builtins -/
  builtin : ∀ n nrArgs args env, NaviScheme.Natural (X.builtin n nrArgs args env) fun g =>
    X.builtin n nrArgs (g • args) env
  /-- `navi_equalp` -/
  naviEqualp : ∀ a b, NaviScheme.Natural (X.naviEqualp a b) fun g => X.naviEqualp (g • a) (g • b)
  /-- `_navi_open_input_file` -/
  naviOpenInputFile_ : ∀ path, NaviScheme.Natural (X.naviOpenInputFile_ path) fun _ =>
    X.naviOpenInputFile_ path
  /-- `navi_close_input_port` -/
  naviCloseInputPort : ∀ port, NaviScheme.Natural (X.naviCloseInputPort port) fun g =>
    X.naviCloseInputPort (g • port)
  /-- `navi_port_set_fold_case` -/
  naviPortSetFoldCase : ∀ port ci, NaviScheme.Natural (X.naviPortSetFoldCase port ci) fun g =>
    X.naviPortSetFoldCase (g • port) ci
  /-- `navi_read` -/
  naviRead : ∀ port, NaviScheme.Natural (X.naviRead port) fun g => X.naviRead (g • port)

section Ports

variable {X : Externals} (hX : X.Natural)
include hX

theorem natural_loadLoopBody (fst port : NaviObj) (env : NaviEnv) :
    Natural (loadLoopBody X fst port env) fun g => loadLoopBody X (g • fst) (g • port) env := by
  refine natural_bind (natural_leaf (hX.naviRead port)) fun snd => ?_
  refine natural_ite (by simp) (natural_ret fst) ?_
  exact natural_bind (natural_naviEval fst env _ _) fun _ => natural_callFn _ _ _

theorem natural_naviOpenInputFile (filename : NaviObj) (env : NaviEnv) :
    Natural (naviOpenInputFile X filename env) fun g =>
      naviOpenInputFile X (g • filename) env := by
  refine natural_bind (natural_load filename) fun c => ?_
  obtain ⟨t, d⟩ := c
  cases d with
  | string path =>
    refine natural_bind (natural_leaf (hX.naviOpenInputFile_ path)) fun r => ?_
    exact natural_ite (by simp) (natural_leaf (natural_naviFileError _)) (natural_ret r)
  | _ => exact natural_fail _

theorem natural_naviLoadBody (filename : NaviObj) (ci : Bool) (inEnv outEnv : NaviEnv) :
    Natural (naviLoadBody X filename ci inEnv outEnv) fun g =>
      naviLoadBody X (g • filename) ci inEnv outEnv := by
  refine natural_bind (natural_naviOpenInputFile hX filename outEnv) fun port => ?_
  refine natural_bind (natural_naviGcGuard port outEnv) fun guard => ?_
  refine natural_bind (natural_leaf (hX.naviPortSetFoldCase port ci)) fun _ => ?_
  refine natural_bind (natural_leaf (hX.naviRead port)) fun fst => natural_ite (by simp) ?_ ?_
  · refine natural_bind (natural_leaf (hX.naviCloseInputPort port)) fun _ => ?_
    exact natural_bind (natural_naviGcUnguard guard) fun _ => natural_ret _
  · refine natural_bind_obj (natural_callFn _ _ _) fun fst => ?_
    refine natural_bind (natural_leaf (hX.naviCloseInputPort port)) fun _ => ?_
    exact natural_bind (natural_naviGcUnguard guard) fun _ => natural_evalTail fst inEnv

end Ports

end NaviScheme
