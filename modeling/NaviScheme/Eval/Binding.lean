import NaviScheme.Eval.Core

/-!
# environment.c: bindings

The forms that bind variables and parameters.
-/

namespace NaviScheme

/-- `eval_defvar` -/
def evalDefvar (sym rest : NaviObj) (env : NaviEnv) : Code NaviObj := do
  if (← naviCdr rest) = .nil then
    let val ← naviEval (← naviCar rest) env [sym] [env.lexical]
    naviScopeSet env.lexical sym val
    return .void
  else leaf env (naviArityError (← naviMakeSymbol "define"))

/-- `eval_defun` -/
def evalDefun (fundecl rest : NaviObj) (env : NaviEnv) : Code NaviObj := do
  if ← naviIsListOf fundecl .naviSymbol true then
    let name ← naviCar fundecl
    let proc ← naviMakeProcedure (← naviCdr fundecl) rest name env
    naviScopeSet env.lexical name proc
    return .void
  else leaf env (naviError "invalid defun list" [])

/-- `define` -/
def scmDefine (args : NaviObj) (env : NaviEnv) : Code NaviObj := do
  let target ← naviCar args
  let rest ← naviCdr args
  match ← naviType target with
  | .naviSymbol => evalDefvar target rest env
  | .naviPair => evalDefun target rest env
  | _ => leaf env (naviError "invalid define list" [])

/-- `define-syntax` -/
def scmDefineSyntax (args : NaviObj) (env : NaviEnv) : Code NaviObj := do
  let transformer ← naviEval (← naviCadr args) env [args] env.scopes
  leaf env (naviTypeCheck transformer .naviMacro)
  naviScopeSet env.lexical (← naviCar args) transformer
  return .void

/-- Binding the variables of `extend_with_values`. -/
def bindValues (scope : ScopeAddr) : List NaviObj → List (Option NaviObj) → Leaf Unit
  | [], _ => return ()
  | _, [] | _, none :: _ => fail .badWord
  | cons :: vars, some val :: vals => do
    naviScopeSet scope (← naviCar cons) val
    bindValues scope vars vals

/-- `extend_with_values` -/
def extendWithValues (vars vals which : NaviObj) (env : NaviEnv) : Leaf Unit := do
  let (pairs, _) ← walk vars
  if (← naviType vals) = .naviValues then
    let data ← naviVector vals
    if pairs.length = data.length then bindValues env.lexical pairs data
    else naviArityError which
  else if pairs.length = 1 then naviScopeSet env.lexical (← naviCar vars) vals
  else naviArityError which

/-- `define-values` -/
def scmDefineValues (args : NaviObj) (env : NaviEnv) : Code NaviObj := do
  let vals ← naviEval (← naviCadr args) env [args] env.scopes
  let which ← naviMakeSymbol "define-values"
  leaf env (extendWithValues (← naviCar args) vals which env)
  return .void

/-- `defmacro` -/
def scmDefmacroForm (args : NaviObj) (env : NaviEnv) : Code NaviObj := do
  let decl ← naviCar args
  if ← naviIsListOf decl .naviSymbol true then
    let name ← naviCar decl
    let macroObj ← naviMakeMacro (← naviCdr decl) (← naviCdr args) name env
    naviScopeSet env.lexical name macroObj
    return .void
  else leaf env (naviError "invalid define-macro list" [])

/-- The loops of `let_extend_env` and of `sequential_let_extend_env`, which evaluates in
`new`. -/
def letLoopBody (cons : NaviObj) (env new : NaviEnv) : Code Unit := do
  if ← naviIsPair cons then
    let defn ← naviCar cons
    let val ← naviEval (← naviCadr defn) env [cons, defn] (env.scopes ++ new.scopes)
    naviScopeSet new.lexical (← naviCar defn) val
    callFn (.letLoop (← naviCdr cons) env new) [] []
  else return ()

/-- The loop of `letvals_extend_env`: the variables are bound in `env`. -/
def letValuesLoopBody (cons : NaviObj) (env : NaviEnv) : Code Unit := do
  if ← naviIsPair cons then
    let vals ← naviEval (← naviCadar cons) env [cons] env.scopes
    let which ← naviMakeSymbol "let-values"
    leaf env (extendWithValues (← naviCaar cons) vals which env)
    callFn (.letValuesLoop (← naviCdr cons) env) [] []
  else return ()

/-- `DEFLET`, by the check of the definitions, the error and the loop over them. -/
def defLet (valid : NaviObj → Code Bool) (msg : String) (extend : NaviObj → NaviEnv → Code Unit)
    (args : NaviObj) (env : NaviEnv) : Code NaviObj := do
  let defs ← naviCar args
  if ← valid defs then
    let new ← naviEnvNewScope env
    extend defs new
    let result ← callFn (.beginLoop (← naviCdr args) none new) [] new.scopes
    naviEnvUnref new
    return result
  else leaf env (naviError msg [])

/-- `let` -/
def scmLet (args : NaviObj) (env : NaviEnv) : Code NaviObj :=
  defLet (defsValid letDefValid) "invalid let list"
    (fun defs new => callFn (.letLoop defs env new) [args] new.scopes) args env

/-- `let*` -/
def scmSequentialLet (args : NaviObj) (env : NaviEnv) : Code NaviObj :=
  defLet (defsValid letDefValid) "invalid let* list"
    (fun defs new => callFn (.letLoop defs new new) [args] new.scopes) args env

/-- `let-values` -/
def scmLetValues (args : NaviObj) (env : NaviEnv) : Code NaviObj :=
  defLet (defsValid letValuesDefValid) "invalid let-values list"
    (fun defs new => callFn (.letValuesLoop defs env) [args] new.scopes) args env

/-- `set!` -/
def scmSet (args : NaviObj) (env : NaviEnv) : Code NaviObj := do
  let symbol ← naviCar args
  match ← naviEnvBinding env.lexical symbol with
  | some (s, _) =>
    let value ← naviEval (← naviCadr args) env [symbol] [s]
    perform (.setBinding s symbol value)
    return .void
  | none => leaf env (naviUnboundIdentifierError symbol)

/-- `navi_parameter_convert` -/
def naviParameterConvertBody (param obj : NaviObj) (env : NaviEnv) : Code NaviObj := do
  let converter ← naviCdr param
  if (← naviType converter) = .naviVoid then return obj
  else
    let args ← naviMakePair obj .nil
    callFn (.applyForce converter args env) [] []

/-- `navi_make_parameter` -/
def naviMakeParameter (value converter : NaviObj) (env : NaviEnv) : Code NaviObj := do
  let n ← count .param
  let key ← naviMakeUninterned s!"param{n}"
  let param ← naviMakePair key converter
  retag param .naviParameter
  let guard ← naviGcGuard param env
  let scope ← getGlobalScope env.dynamic
  let val ← callFn (.naviParameterConvert param value env) [param, key] [scope, env.lexical]
  naviScopeSet scope key val
  naviGcUnguard guard
  return param

/-- `make-parameter` -/
def scmMakeParameter (nrArgs : ℕ) (args : NaviObj) (env : NaviEnv) : Code NaviObj := do
  if nrArgs > 2 then leaf env (naviArityError (← naviMakeSymbol "make-parameter"))
  else
    let converter ← if nrArgs = 2 then naviCadr args else pure .void
    naviMakeParameter (← naviCar args) converter env

/-- The first loop of `parameterize_extend_env`: evaluate the parameters. -/
def parameterizeParamsBody (cons params : NaviObj) (env : NaviEnv) : Code NaviObj := do
  if ← naviIsPair cons then
    let defn ← naviCar cons
    if (← naviListLengthSafe defn) = some 2 then
      let param ← naviEval (← naviCar defn) env [cons, defn, params] env.scopes
      if (← naviType param) = .naviParameter then
        let pair ← naviMakePair param (← naviCadr defn)
        let params ← naviMakePair pair params
        callFn (.parameterizeParams (← naviCdr cons) params env) [] []
      else leaf env (naviError "non-parameter in parameterize" [])
    else leaf env (naviError "invalid syntax in parameterize" [])
  else if cons = .nil then return params
  else leaf env (naviError "not a proper list" [])

/-- The second loop of `parameterize_extend_env`: evaluate the values and bind them. -/
def parameterizeValsBody (cons : NaviObj) (env new : NaviEnv) : Code Unit := do
  if ← naviIsPair cons then
    let defn ← naviCar cons
    let param ← naviCar defn
    let val ← naviEval (← naviCdr defn) env [cons, param] (env.scopes ++ new.scopes)
    let val ← callFn (.naviParameterConvert param val env) [cons, param]
      (env.scopes ++ new.scopes)
    naviScopeSet new.dynamic (← naviCar param) val
    callFn (.parameterizeVals (← naviCdr cons) env new) [] []
  else return ()

/-- `parameterize` -/
def scmParameterize (args : NaviObj) (env : NaviEnv) : Code NaviObj := do
  let defs ← naviCar args
  if ← naviIsPair defs then
    let params ← callFn (.parameterizeParams defs .nil env) [args] env.scopes
    let new ← naviDynamicEnvNewScope env
    callFn (.parameterizeVals params env new) [args] new.scopes
    let result ← callFn (.beginLoop (← naviCdr args) none new) [] new.scopes
    naviEnvUnref new
    return result
  else leaf env (naviError "invalid syntax in parameterize" [])

end NaviScheme
