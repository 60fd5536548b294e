import NaviScheme.Eval.Function

/-!
# eval.c

The evaluator: `navi_eval`, calls, and the special forms of `eval.c`.
-/

namespace NaviScheme

variable {α : Type} (X : Externals)

/-- `navi_eval` -/
def naviEvalBody (expr : NaviObj) (env : NaviEnv) : Code NaviObj := do
  naviEnvRef env
  let expr ← callFn (.evalLoop expr env) [] env.scopes
  naviEnvUnref env
  return expr

/-- The loop of `navi_eval`. -/
def evalLoopBody (expr : NaviObj) (env : NaviEnv) : Code NaviObj := do
  let guard ← naviGcGuard expr env
  let expr ← callFn (.eval_ expr env) [] env.scopes
  naviGcUnguard guard
  if (← naviType expr) = .naviBounce then callFn (.evalLoop expr env) [] []
  else return expr

/-- `_eval` -/
def evalBody_ (expr : NaviObj) (env : NaviEnv) : Code NaviObj := do
  perform (.evaluating expr env)
  match ← naviType expr with
  | .naviVoid | .naviNil | .naviEof | .naviFixnum | .naviBool | .naviChar | .naviPort
  | .naviString | .naviVector | .naviBytevec | .naviMacro | .naviSpecial | .naviProcedure
  | .naviPromise | .naviCaselambda | .naviEscape | .naviParameter | .naviEnvironment =>
    return expr
  | .naviThunk | .naviBounce =>
    let thunk ← naviThunk expr
    callFn (.eval_ thunk.1 thunk.2) [] []
  | .naviValues => elem (← naviVector expr) 0
  | .naviSymbol =>
    let val ← naviEnvLookup env.lexical expr
    if (← naviType val) = .naviVoid then leaf env (naviUnboundIdentifierError expr)
    else return val
  | .naviPair =>
    if ← naviIsProperList expr then callFn (.evalCall expr env) [] []
    else
      let expression ← naviMakeApair "expression" expr
      leaf env (naviError "malformed expression" [expression])
  | .naviTrap => fail .die

/-- `navi_parameter_lookup` -/
def naviParameterLookup (param : NaviObj) (env : NaviEnv) : Code NaviObj := do
  match ← naviEnvBinding env.dynamic (← naviCar param) with
  | some (_, object) => return object
  | none => leaf env (naviError "unbound parameter object" [])

/-- `navi_call_escape` -/
def naviCallEscape (escape arg : NaviObj) : Code α := do
  match (← load escape).2 with
  | .escape env _ =>
    store escape (.escape env (some arg))
    .throw (.escape escape)
  | _ => fail .badWord

/-- `eval_call` -/
def evalCallBody (call : NaviObj) (env : NaviEnv) : Code NaviObj := do
  let proc ← naviEval (← naviCar call) env [call] env.scopes
  let guard ← naviGcGuard proc env
  let obj ← match ← naviType proc with
    -- special: pass args unevaluated, return result
    | .naviSpecial => do callFn (.naviApply_ proc (← naviCdr call) env) [] [env.lexical]
    -- procedure: pass args evaluated, return result
    | .naviProcedure => do callFn (.procedureCall proc (← naviCdr call) env) [] [env.lexical]
    -- macro: pass args unevaluated, return eval(result)
    | .naviMacro => do
      let expansion ← callFn (.naviApply_ proc (← naviCdr call) env) [] env.scopes
      evalTail expansion env
    -- escape: magic
    | .naviEscape => do
      let n ← naviListLength call
      let arg ← if n < 2 then pure .nil else naviCadr call
      naviCallEscape proc arg
    -- caselambda: magic
    | .naviCaselambda => do callFn (.caselambdaCall proc (← naviCdr call) env) [] [env.lexical]
    | .naviParameter => do
      if (← naviCdr call) = .nil then naviParameterLookup proc env
      else leaf env (naviArityError (← naviCar proc))
    | _ => do
      let value ← naviMakeApair "value" proc
      leaf env (naviError "call of non-procedure" [value])
  naviGcUnguard guard
  return obj

/-- `_navi_apply` -/
def naviApplyBody_ (proc args : NaviObj) (env : NaviEnv) : Code NaviObj := do
  let nrArgs ← leaf env (checkApply proc args)
  callFn (.doApply proc nrArgs args env) [] []

/-- `do_apply` -/
def doApplyBody (proc : NaviObj) (nrArgs : ℕ) (args : NaviObj) (env : NaviEnv) :
    Code NaviObj := do
  let p ← naviProcedure proc
  let result ← match p.body with
    | .cProc f => do
      let guard ← naviGcGuard args env
      let result ← callFn (.cProc f nrArgs args env) [] [env.lexical]
      naviGcUnguard guard
      pure result
    | .body body => do
      let new ← naviExtendEnvironment env p.args args
      let result ← callFn (.beginLoop body none new) [] (env.lexical :: new.scopes)
      naviEnvUnref new
      pure result
  let guard ← naviGcGuard result env
  perform (.gcCheck ⟨[result], [env.lexical]⟩)
  naviGcUnguard guard
  return result

/-- `procedure_call` -/
def procedureCallBody (proc args : NaviObj) (env : NaviEnv) : Code NaviObj := do
  if ← naviIsPair args then
    let first ← naviMakePair .void .nil
    let guard ← naviGcGuard first env
    let val ← naviEval (← naviCar args) env [proc, args, first] env.scopes
    naviSetCar first val
    callFn (.operandLoop (← naviCdr args) first env) [proc, first] env.scopes
    naviGcUnguard guard
    naviApply proc first env [] []
  else naviApply proc .nil env [] []

/-- The loop of `procedure_call`, from the second operand on. -/
def operandLoopBody (cons ptr : NaviObj) (env : NaviEnv) : Code Unit := do
  if ← naviIsPair cons then
    let pair ← naviMakePair .void .nil
    naviSetCdr ptr pair
    let val ← naviEval (← naviCar cons) env [cons, pair] env.scopes
    naviSetCar pair val
    callFn (.operandLoop (← naviCdr cons) pair env) [] []
  else naviSetCdr ptr .nil

/-- The search of `caselambda_call`. -/
def findClause (nrArgs : ℕ) : List (Option NaviObj) → Code (Option NaviObj)
  | [] => return none
  | none :: _ => fail .badWord
  | some clause :: rest => do
    let p ← naviProcedure clause
    if naviAritySatisfied p nrArgs then return some clause else findClause nrArgs rest

/-- `caselambda_call` -/
def caselambdaCallBody (lambda args : NaviObj) (env : NaviEnv) : Code NaviObj := do
  let nrArgs ← naviListLength args
  match ← findClause nrArgs (← naviVector lambda) with
  | some clause => naviApply clause args env [] []
  | none => leaf env (naviArityError (← naviMakeSymbol "case-lambda"))

/-- The loop of `begin`. -/
def beginLoopBody (cons : NaviObj) (result : Option NaviObj) (env : NaviEnv) : Code NaviObj := do
  if ← naviIsPair cons then
    if ← naviIsLastPair cons then evalTail (← naviCar cons) env
    else
      let result ← naviEval (← naviCar cons) env [cons] env.scopes
      callFn (.beginLoop (← naviCdr cons) (some result) env) [] []
  else
    match result with
    | some result => return result
    | none => fail .badWord

/-- The loop of `and`. -/
def andLoopBody (cons : NaviObj) (env : NaviEnv) : Code NaviObj := do
  if ← naviIsPair cons then
    if ← naviIsLastPair cons then evalTail (← naviCar cons) env
    else
      let val ← naviEval (← naviCar cons) env [cons] env.scopes
      if naviIsTrue val then callFn (.andLoop (← naviCdr cons) env) [] []
      else return .bool false
  else return .bool true

/-- The loop of `or`. -/
def orLoopBody (cons : NaviObj) (env : NaviEnv) : Code NaviObj := do
  if ← naviIsPair cons then
    if ← naviIsLastPair cons then evalTail (← naviCar cons) env
    else
      let val ← naviEval (← naviCar cons) env [cons] env.scopes
      if naviIsTrue val then return .bool true
      else callFn (.orLoop (← naviCdr cons) env) [] []
  else return .bool false

/-- `eval_qq` -/
def evalQqBody (expr : NaviObj) (env : NaviEnv) : Code NaviObj := do
  match ← naviType expr with
  | .naviPair =>
    if ← naviSymbolEq (← naviCar expr) (← naviMakeSymbol "unquote") then
      naviEval (← naviCadr expr) env [] []
    else callFn (.qqLoop expr none none env) [] []
  | .naviVector =>
    let list ← naviVectorToList expr
    let list ← callFn (.evalQq list env) [] []
    naviListToVector list
  | _ => return expr

/-- `last->cdr = obj`; the result is `head.cdr`. -/
def setLast (first last : Option NaviObj) (obj : NaviObj) : Code NaviObj := do
  match first, last with
  | some first, some last =>
    naviSetCdr last obj
    return first
  | _, _ => return obj

/-- The loop of `eval_qq`, and what follows it. -/
def qqLoopBody (cons : NaviObj) (first last : Option NaviObj) (env : NaviEnv) :
    Code NaviObj := do
  let held := first.toList ++ last.toList
  if ← naviIsPair cons then
    let elm ← naviCar cons
    let splice ← naviMakeSymbol "unquote-splice"
    let unquote ← naviMakeSymbol "unquote"
    let isSplice ← if ← naviIsPair elm then naviSymbolEq (← naviCar elm) splice else pure false
    if isSplice then
      let list ← naviEval (← naviCar (← naviCdar cons)) env (cons :: held) env.scopes
      if ← naviIsProperList list then
        let first ← setLast first last list
        let last ← naviLastCons list
        callFn (.qqLoop (← naviCdr cons) (some first) (some last) env) [] []
      else callFn (.qqLoop (← naviCdr cons) first last env) [] []
    else if ← naviSymbolEq elm unquote then
      -- unquote in dotted tail
      let val ← callFn (.evalQq cons env) held []
      setLast first last val
    else
      let pair ← naviMakeEmptyPair
      let first ← setLast first last pair
      let val ← callFn (.evalQq (← naviCar cons) env) [cons, first, pair] env.scopes
      naviSetCar pair val
      callFn (.qqLoop (← naviCdr cons) (some first) (some pair) env) [] []
  else if cons = .nil then setLast first last .nil
  else
    let val ← callFn (.evalQq cons env) held []
    setLast first last val

/-- `eval_clause` -/
def evalClauseBody (arg begin : NaviObj) (env : NaviEnv) : Code NaviObj := do
  if ← naviSymbolEq (← naviCar begin) (← naviMakeSymbol "=>") then
    let proc ← naviEval (← naviCadr begin) env [arg] env.scopes
    let args ← naviMakePair arg .nil
    let call ← naviMakePair proc args
    evalTail call env
  else callFn (.beginLoop begin none env) [] []

/-- The clause that `case` selects. -/
def findCase (test : NaviObj) : List NaviObj → Code (Option NaviObj)
  | [] => return none
  | fst :: rest => do
    let datums ← naviCar fst
    if ← naviSymbolEq datums (← naviMakeSymbol "else") then return some fst
    else
      -- `navi_eqvp`: immediates are compared by value, other objects by address
      if test ∈ (← elements datums) then return some fst else findCase test rest

/-- `case` -/
def scmCase (args : NaviObj) (env : NaviEnv) : Code NaviObj := do
  if ← caseValid args then
    let test ← naviEval (← naviCar args) env [args] env.scopes
    match ← findCase test (← elements (← naviCdr args)) with
    | some fst => callFn (.evalClause test (← naviCdr fst) env) [] []
    | none => return .void
  else leaf env (naviError "invalid case list" [])

/-- The loop of `cond`. -/
def condLoopBody (cons : NaviObj) (env : NaviEnv) : Code NaviObj := do
  if ← naviIsPair cons then
    let fst ← naviCar cons
    if ← naviSymbolEq (← naviCar fst) (← naviMakeSymbol "else") then
      callFn (.evalClause (.bool true) (← naviCdr fst) env) [] []
    else
      let test ← naviEval (← naviCar fst) env [cons, fst] env.scopes
      if naviIsTrue test then callFn (.evalClause test (← naviCdr fst) env) [] []
      else callFn (.condLoop (← naviCdr cons) env) [] []
  else return .void

/-- The loop of `case-lambda`. -/
def caselambdaClauses (env : NaviEnv) (expr : NaviObj) : List NaviObj → ℕ → Code Unit
  | [], _ => return ()
  | cons :: rest, i => do
    let clause ← naviCar cons
    if ← lambdaValid clause then
      let lambda ← naviMakeLambda (← naviCar clause) (← naviCdr clause) env
      vectorSet expr i lambda
      caselambdaClauses env expr rest (i + 1)
    else leaf env (naviError "invalid case-lambda list" [])

/-- `case-lambda` -/
def scmCaselambda (args : NaviObj) (env : NaviEnv) : Code NaviObj := do
  let (pairs, _) ← walk args
  let expr ← make .naviVector (.vector (pairs.map fun _ => none))
  retag expr .naviCaselambda
  caselambdaClauses env expr pairs 0
  return expr

/-- `lambda` -/
def scmLambda (args : NaviObj) (env : NaviEnv) : Code NaviObj := do
  if ← lambdaValid args then naviMakeLambda (← naviCar args) (← naviCdr args) env
  else leaf env (naviError "invalid lambda list" [])

/-- `if` -/
def scmIf (nrArgs : ℕ) (args : NaviObj) (env : NaviEnv) : Code NaviObj := do
  if nrArgs > 3 then leaf env (naviArityError (← naviMakeSymbol "if"))
  else
    let test ← naviEval (← naviCar args) env [args] env.scopes
    if naviIsTrue test then evalTail (← naviCadr args) env
    else if nrArgs = 3 then evalTail (← naviCaddr args) env
    else return .void

/-- `force` -/
def scmForce (args : NaviObj) (env : NaviEnv) : Code NaviObj := do
  let obj ← naviCar args
  let p ← naviProcedure obj
  match p.body with
  | .cProc _ => fail .badWord
  | .body body =>
    let expr ← naviMakePair (← naviMakeSymbol "begin") body
    let r ← naviEval expr ⟨p.env, env.dynamic⟩ [obj] []
    let quoted ← naviMakePair r .nil
    let body ← naviMakePair (← naviMakeSymbol "quote") quoted
    let p ← naviProcedure obj
    store obj (.proc { p with body := .body body })
    return r

/-! ### Files -/

/-- The loop of `navi_load`: read and evaluate until the end of the file, one expression
behind. -/
def loadLoopBody (fst port : NaviObj) (inEnv : NaviEnv) : Code NaviObj := do
  let snd ← leaf inEnv (X.naviRead port)
  if snd = .eof then return fst
  else
    let _ ← naviEval fst inEnv [snd, port] inEnv.scopes
    callFn (.loadLoop snd port inEnv) [] []

/-- `navi_open_input_file` -/
def naviOpenInputFile (filename : NaviObj) (env : NaviEnv) : Code NaviObj := do
  match (← load filename).2 with
  | .string path =>
    let r ← leaf env (X.naviOpenInputFile_ path)
    if r = .void then leaf env (naviFileError "unable to open file") else return r
  | _ => fail .badWord

/-- `navi_load` -/
def naviLoadBody (filename : NaviObj) (ci : Bool) (inEnv outEnv : NaviEnv) : Code NaviObj := do
  let port ← naviOpenInputFile X filename outEnv
  let guard ← naviGcGuard port outEnv
  leaf outEnv (X.naviPortSetFoldCase port ci)
  let fst ← leaf inEnv (X.naviRead port)
  -- if the file is empty, return void and not #!eof
  if fst = .eof then
    leaf outEnv (X.naviCloseInputPort port)
    naviGcUnguard guard
    return .void
  else
    let fst ← callFn (.loadLoop fst port inEnv) [port] (inEnv.scopes ++ outEnv.scopes)
    leaf outEnv (X.naviCloseInputPort port)
    naviGcUnguard guard
    evalTail fst inEnv

/-- The first loop of `navi_include`. -/
def typeCheckAll (t : NaviType) : List NaviObj → Leaf Unit
  | [] => return ()
  | cons :: rest => do
    naviTypeCheck (← naviCar cons) t
    typeCheckAll t rest

/-- The second loop of `navi_include`. -/
def includeLoopBody (cons : NaviObj) (ci : Bool) (env : NaviEnv) : Code NaviObj := do
  let result ← callFn (.naviLoad (← naviCar cons) ci env env) [cons] env.scopes
  if ← naviIsLastPair cons then return result
  else
    let result ← if (← naviType result) = .naviBounce then
      naviEval result env [cons] env.scopes
      else pure result
    let cons ← naviCdr cons
    if ← naviIsPair cons then callFn (.includeLoop cons ci env) [] []
    else return result

/-- `navi_include` -/
def naviInclude (args : NaviObj) (ci : Bool) (env : NaviEnv) : Code NaviObj := do
  let (pairs, _) ← walk args
  leaf env (typeCheckAll .naviString pairs)
  callFn (.includeLoop args ci env) [] []

end NaviScheme
