import NaviScheme.Eval.Binding
import NaviScheme.Uniform.Core

/-!
# environment.c, at other addresses: bindings
-/

namespace NaviScheme

open Prog

theorem natural_evalDefvar (sym rest : NaviObj) (env : NaviEnv) :
    Natural (evalDefvar sym rest env) fun g => evalDefvar (g • sym) (g • rest) env := by
  refine natural_bind (natural_naviCdr rest) fun cdr => natural_ite (by simp) ?_ ?_
  · refine natural_bind (natural_naviCar rest) fun e => ?_
    refine natural_bind (natural_naviEval e env _ _) fun val => ?_
    exact natural_bind (natural_naviScopeSet _ sym val) fun _ => natural_ret _
  · exact natural_bind (natural_naviMakeSymbol _) fun name =>
      natural_leaf (natural_naviArityError name)

theorem natural_evalDefun (fundecl rest : NaviObj) (env : NaviEnv) :
    Natural (evalDefun fundecl rest env) fun g => evalDefun (g • fundecl) (g • rest) env := by
  refine natural_bind (natural_naviIsListOf fundecl _ _) fun b => natural_ite (by simp) ?_
    (natural_leaf (natural_naviError _ []))
  refine natural_bind (natural_naviCar fundecl) fun name => ?_
  refine natural_bind (natural_naviCdr fundecl) fun formals => ?_
  refine natural_bind (natural_naviMakeProcedure formals rest name env) fun proc => ?_
  exact natural_bind (natural_naviScopeSet _ name proc) fun _ => natural_ret _

theorem natural_scmDefine (args : NaviObj) (env : NaviEnv) :
    Natural (scmDefine args env) fun g => scmDefine (g • args) env := by
  refine natural_bind (natural_naviCar args) fun target => ?_
  refine natural_bind (natural_naviCdr args) fun rest => ?_
  refine natural_bind (natural_naviType target) fun t => ?_
  cases t with
  | naviSymbol => exact natural_evalDefvar target rest env
  | naviPair => exact natural_evalDefun target rest env
  | _ => exact natural_leaf (natural_naviError _ [])

theorem natural_scmDefineSyntax (args : NaviObj) (env : NaviEnv) :
    Natural (scmDefineSyntax args env) fun g => scmDefineSyntax (g • args) env := by
  refine natural_bind (natural_naviCadr args) fun e => ?_
  refine natural_bind (natural_naviEval e env _ _) fun transformer => ?_
  refine natural_bind (natural_leaf (natural_naviTypeCheck transformer _)) fun _ => ?_
  refine natural_bind (natural_naviCar args) fun name => ?_
  exact natural_bind (natural_naviScopeSet _ name transformer) fun _ => natural_ret _

theorem natural_bindValues (scope : ScopeAddr) (vars : List NaviObj)
    (vals : List (Option NaviObj)) :
    Natural (bindValues scope vars vals) fun g => bindValues scope (g • vars) (g • vals) := by
  induction vars generalizing vals with
  | nil => exact natural_ret ()
  | cons cons vars ih =>
    rcases vals with _ | ⟨_ | val, vals⟩
    · exact natural_fail _
    · exact natural_fail _
    · refine natural_bind (natural_naviCar cons) fun var => ?_
      exact natural_bind (natural_naviScopeSet _ var val) fun _ => ih vals

theorem natural_extendWithValues (vars vals which : NaviObj) (env : NaviEnv) :
    Natural (extendWithValues vars vals which env) fun g =>
      extendWithValues (g • vars) (g • vals) (g • which) env := by
  refine natural_bind (natural_walk vars) fun c => ?_
  refine natural_bind (natural_naviType vals) fun t => natural_ite (by simp) ?_ ?_
  · refine natural_bind (natural_naviVector vals) fun data => ?_
    exact natural_ite (by simp) (natural_bindValues _ c.1 data) (natural_naviArityError which)
  · refine natural_ite (by simp) ?_ (natural_naviArityError which)
    exact natural_bind (natural_naviCar vars) fun var => natural_naviScopeSet _ var vals

theorem natural_scmDefineValues (args : NaviObj) (env : NaviEnv) :
    Natural (scmDefineValues args env) fun g => scmDefineValues (g • args) env := by
  refine natural_bind (natural_naviCadr args) fun e => ?_
  refine natural_bind (natural_naviEval e env _ _) fun vals => ?_
  refine natural_bind (natural_naviMakeSymbol _) fun which => ?_
  refine natural_bind (natural_naviCar args) fun vars => ?_
  exact natural_bind (natural_leaf (natural_extendWithValues vars vals which env)) fun _ =>
    natural_ret _

theorem natural_scmDefmacroForm (args : NaviObj) (env : NaviEnv) :
    Natural (scmDefmacroForm args env) fun g => scmDefmacroForm (g • args) env := by
  refine natural_bind (natural_naviCar args) fun decl => ?_
  refine natural_bind (natural_naviIsListOf decl _ _) fun b => natural_ite (by simp) ?_
    (natural_leaf (natural_naviError _ []))
  refine natural_bind (natural_naviCar decl) fun name => ?_
  refine natural_bind (natural_naviCdr decl) fun formals => ?_
  refine natural_bind (natural_naviCdr args) fun body => ?_
  refine natural_bind (natural_naviMakeMacro formals body name env) fun expr => ?_
  exact natural_bind (natural_naviScopeSet _ name expr) fun _ => natural_ret _

theorem natural_letLoopBody (cons : NaviObj) (env new : NaviEnv) :
    Natural (letLoopBody cons env new) fun g => letLoopBody (g • cons) env new := by
  refine natural_bind (natural_naviIsPair cons) fun b => natural_ite (by simp) ?_ (natural_ret ())
  refine natural_bind (natural_naviCar cons) fun defn => ?_
  refine natural_bind (natural_naviCadr defn) fun e => ?_
  refine natural_bind (natural_naviEval e env _ _) fun val => ?_
  refine natural_bind (natural_naviCar defn) fun var => ?_
  refine natural_bind (natural_naviScopeSet _ var val) fun _ => ?_
  exact natural_bind (natural_naviCdr cons) fun cdr => natural_callFn _ _ _

theorem natural_letValuesLoopBody (cons : NaviObj) (env : NaviEnv) :
    Natural (letValuesLoopBody cons env) fun g => letValuesLoopBody (g • cons) env := by
  refine natural_bind (natural_naviIsPair cons) fun b => natural_ite (by simp) ?_ (natural_ret ())
  refine natural_bind (natural_naviCadar cons) fun e => ?_
  refine natural_bind (natural_naviEval e env _ _) fun vals => ?_
  refine natural_bind (natural_naviMakeSymbol _) fun which => ?_
  refine natural_bind (natural_naviCaar cons) fun vars => ?_
  refine natural_bind (natural_leaf (natural_extendWithValues vars vals which env)) fun _ => ?_
  exact natural_bind (natural_naviCdr cons) fun cdr => natural_callFn _ _ _

theorem natural_defLet {valid : NaviObj → Code Bool} {msg : String}
    {extend : NaviObj → NaviEnv → Code Unit}
    {extend' : Readdressing → NaviObj → NaviEnv → Code Unit}
    (hvalid : ∀ o, Natural (valid o) fun g => valid (g • o))
    (hextend : ∀ defs new, Natural (extend defs new) fun g => extend' g (g • defs) new)
    (args : NaviObj) (env : NaviEnv) :
    Natural (defLet valid msg extend args env) fun g =>
      defLet valid msg (extend' g) (g • args) env := by
  refine natural_bind (natural_naviCar args) fun defs => ?_
  refine natural_bind (hvalid defs) fun b => natural_ite (by simp) ?_
    (natural_leaf (natural_naviError _ []))
  refine natural_bind (natural_naviEnvNewScope env) fun new => ?_
  refine natural_bind (hextend defs new) fun _ => ?_
  refine natural_bind (natural_naviCdr args) fun body => ?_
  refine natural_bind_obj (natural_callFn _ _ _) fun result => ?_
  exact natural_bind (natural_naviEnvUnref new) fun _ => natural_ret result

theorem natural_scmLet (args : NaviObj) (env : NaviEnv) :
    Natural (scmLet args env) fun g => scmLet (g • args) env :=
  natural_defLet (natural_defsValid natural_letDefValid)
    (fun _ _ => natural_callFn _ [args] _) args env

theorem natural_scmSequentialLet (args : NaviObj) (env : NaviEnv) :
    Natural (scmSequentialLet args env) fun g => scmSequentialLet (g • args) env :=
  natural_defLet (natural_defsValid natural_letDefValid)
    (fun _ _ => natural_callFn _ [args] _) args env

theorem natural_scmLetValues (args : NaviObj) (env : NaviEnv) :
    Natural (scmLetValues args env) fun g => scmLetValues (g • args) env :=
  natural_defLet (natural_defsValid natural_letValuesDefValid)
    (fun _ _ => natural_callFn _ [args] _) args env

theorem natural_setBinding (s : ScopeAddr) (symbol object : NaviObj) :
    Natural (perform (.setBinding s symbol object) : Code Unit) fun g =>
      perform (.setBinding s (g • symbol) (g • object)) :=
  ⟨fun _ => eq_of_heq smul_perform, heeds_perform.mpr trivial⟩

theorem natural_scmSet (args : NaviObj) (env : NaviEnv) :
    Natural (scmSet args env) fun g => scmSet (g • args) env := by
  refine natural_bind (natural_naviCar args) fun symbol => ?_
  refine natural_bind (natural_naviEnvBinding _ symbol) fun r => ?_
  rcases r with _ | ⟨s, o⟩
  · exact natural_leaf (natural_naviUnboundIdentifierError symbol)
  · refine natural_bind (natural_naviCadr args) fun e => ?_
    refine natural_bind (natural_naviEval e env _ _) fun value => ?_
    exact natural_bind (natural_setBinding s symbol value) fun _ => natural_ret _

theorem natural_naviParameterConvertBody (param obj : NaviObj) (env : NaviEnv) :
    Natural (naviParameterConvertBody param obj env) fun g =>
      naviParameterConvertBody (g • param) (g • obj) env := by
  refine natural_bind (natural_naviCdr param) fun converter => ?_
  refine natural_bind (natural_naviType converter) fun t => natural_ite (by simp)
    (natural_ret obj) ?_
  exact natural_bind (natural_naviMakePair obj .nil) fun args => natural_callFn _ _ _

theorem natural_naviMakeParameter (value converter : NaviObj) (env : NaviEnv) :
    Natural (naviMakeParameter value converter env) fun g =>
      naviMakeParameter (g • value) (g • converter) env := by
  refine natural_bind (natural_count _) fun n => ?_
  refine natural_bind (natural_naviMakeUninterned _) fun key => ?_
  refine natural_bind (natural_naviMakePair key converter) fun param => ?_
  refine natural_bind (natural_retag param _) fun _ => ?_
  refine natural_bind (natural_naviGcGuard param env) fun guard => ?_
  refine natural_bind (natural_getGlobalScope _) fun scope => ?_
  refine natural_bind_obj (natural_callFn _ _ _) fun val => ?_
  refine natural_bind (natural_naviScopeSet scope key val) fun _ => ?_
  exact natural_bind (natural_naviGcUnguard guard) fun _ => natural_ret param

theorem natural_scmMakeParameter (nrArgs : ℕ) (args : NaviObj) (env : NaviEnv) :
    Natural (scmMakeParameter nrArgs args env) fun g =>
      scmMakeParameter nrArgs (g • args) env := by
  have hmake (converter : NaviObj) : Natural (do
      naviMakeParameter (← naviCar args) converter env : Code NaviObj) (fun g => do
        naviMakeParameter (← naviCar (g • args)) (g • converter) env) :=
    natural_bind (natural_naviCar args) fun value =>
      natural_naviMakeParameter value converter env
  refine natural_ite (fun _ => .rfl) ?_ (natural_ite (fun _ => .rfl) ?_ ?_)
  · exact natural_bind (natural_naviMakeSymbol _) fun name =>
      natural_leaf (natural_naviArityError name)
  · exact natural_bind (natural_naviCadr args) hmake
  · exact natural_bind (natural_ret NaviObj.void) hmake

theorem natural_parameterizeParamsBody (cons params : NaviObj) (env : NaviEnv) :
    Natural (parameterizeParamsBody cons params env) fun g =>
      parameterizeParamsBody (g • cons) (g • params) env := by
  refine natural_bind (natural_naviIsPair cons) fun b => natural_ite (by simp) ?_
    (natural_ite (by simp) (natural_ret params) (natural_leaf (natural_naviError _ [])))
  refine natural_bind (natural_naviCar cons) fun defn => ?_
  refine natural_bind (natural_naviListLengthSafe defn) fun n => natural_ite (by simp) ?_
    (natural_leaf (natural_naviError _ []))
  refine natural_bind (natural_naviCar defn) fun e => ?_
  refine natural_bind (natural_naviEval e env _ _) fun param => ?_
  refine natural_bind (natural_naviType param) fun t => natural_ite (by simp) ?_
    (natural_leaf (natural_naviError _ []))
  refine natural_bind (natural_naviCadr defn) fun value => ?_
  refine natural_bind (natural_naviMakePair param value) fun pair => ?_
  refine natural_bind (natural_naviMakePair pair params) fun params => ?_
  exact natural_bind (natural_naviCdr cons) fun cdr => natural_callFn _ _ _

theorem natural_parameterizeValsBody (cons : NaviObj) (env new : NaviEnv) :
    Natural (parameterizeValsBody cons env new) fun g =>
      parameterizeValsBody (g • cons) env new := by
  refine natural_bind (natural_naviIsPair cons) fun b => natural_ite (by simp) ?_ (natural_ret ())
  refine natural_bind (natural_naviCar cons) fun defn => ?_
  refine natural_bind (natural_naviCar defn) fun param => ?_
  refine natural_bind (natural_naviCdr defn) fun e => ?_
  refine natural_bind (natural_naviEval e env _ _) fun val => ?_
  refine natural_bind_obj (natural_callFn _ _ _) fun val => ?_
  refine natural_bind (natural_naviCar param) fun key => ?_
  refine natural_bind (natural_naviScopeSet _ key val) fun _ => ?_
  exact natural_bind (natural_naviCdr cons) fun cdr => natural_callFn _ _ _

theorem natural_scmParameterize (args : NaviObj) (env : NaviEnv) :
    Natural (scmParameterize args env) fun g => scmParameterize (g • args) env := by
  refine natural_bind (natural_naviCar args) fun defs => ?_
  refine natural_bind (natural_naviIsPair defs) fun b => natural_ite (by simp) ?_
    (natural_leaf (natural_naviError _ []))
  refine natural_bind_obj (natural_callFn _ _ _) fun params => ?_
  refine natural_bind (natural_naviDynamicEnvNewScope env) fun new => ?_
  refine natural_bind_unit (natural_callFn _ _ _) fun _ => ?_
  refine natural_bind (natural_naviCdr args) fun body => ?_
  refine natural_bind_obj (natural_callFn _ _ _) fun result => ?_
  exact natural_bind (natural_naviEnvUnref new) fun _ => natural_ret result

end NaviScheme
