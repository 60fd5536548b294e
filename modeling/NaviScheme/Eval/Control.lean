import NaviScheme.Eval.Library

/-!
# control_features.c, list.c and vector.c

The builtins that apply procedures, and then the bodies of all functions
(`NaviScheme.evalBody`).
-/

namespace NaviScheme

variable {α : Type} (X : Externals)

/-! ### control_features.c -/

/-- `navi_force_tail(navi_apply(proc, args, env), env)` -/
def applyForceBody (proc args : NaviObj) (env : NaviEnv) : Code NaviObj := do
  let result ← naviApply proc args env [] env.scopes
  if (← naviType result) = .naviBounce then naviEval result env [] []
  else return result

/-- `navi_raise` -/
def naviRaiseBody (args : NaviObj) (env : NaviEnv) : Code Empty := do
  let sym ← naviMakeSymbol "#current-exception-handler"
  let handler ← naviEnvLookup env.dynamic sym
  if (← naviType handler) = .naviProcedure then
    -- set up environment and run handler
    naviScopeUnset env.dynamic sym
    let _ ← callFn (.applyForce handler args env) [args] env.scopes
    -- handler returned: raise again
    callFn (.naviRaise args env) [] []
  else .throw (.unhandled args)

/-- The loop of `apply`, from the pair before. -/
def applyFlatten (last : NaviObj) : List NaviObj → Leaf Unit
  | [] => return ()
  | cons :: rest => do
    let fst ← naviCar cons
    if ← naviIsLastPair cons then
      naviTypeCheckProperList fst
      -- flatten arg list
      naviSetCdr last fst
    else applyFlatten cons rest

/-- `apply` -/
def scmApply (args : NaviObj) (env : NaviEnv) : Code NaviObj := do
  let (pairs, _) ← walk args
  leaf env (applyFlatten args pairs)
  naviApply (← naviCar args) (← naviCdr args) env [] []

/-- `call/ec` -/
def scmCallEc (args : NaviObj) (env : NaviEnv) : Code NaviObj := do
  let proc ← naviCar args
  leaf env (naviCheckArity proc 1)
  let cont ← make .naviEscape (.escape none none)
  let guard ← naviGcGuard cont env
  store cont (.escape (some env) none)
  naviEnvRef env
  let contArgs ← naviMakePair cont .nil
  let result ← .call (.applyForce proc contArgs env) ⟨[cont], env.scopes⟩ fun
    | .ok v => .ret v
    | .error (.escape o) =>
      if o = cont then do
        match (← load cont).2 with
        | .escape _ (some arg) => return arg
        | _ => fail .badWord
      else .throw (.escape o)
    | .error e => .throw e
  naviGcUnguard guard
  naviEnvUnref env
  return result

/-- `values` -/
def scmValues (args : NaviObj) : Code NaviObj := do
  let values ← naviListToVector args
  retag values .naviValues
  return values

/-- `call-with-values` -/
def scmCallWithValues (args : NaviObj) (env : NaviEnv) : Code NaviObj := do
  let producer ← naviCar args
  leaf env (naviCheckArity producer 0)
  let call ← naviMakePair producer .nil
  let values ← naviEval call env [args] env.scopes
  let callArgs ← if (← naviType values) = .naviValues then naviVectorToList values
    else naviMakePair values .nil
  let call ← naviMakePair (← naviCadr args) callArgs
  naviEval call env [] []

/-- `with-exception-handler` -/
def scmWithExceptionHandler (args : NaviObj) (env : NaviEnv) : Code NaviObj := do
  let handler ← naviCar args
  let thunk ← naviCadr args
  leaf env (naviCheckArity handler 1)
  leaf env (naviCheckArity thunk 0)
  let exnEnv ← naviDynamicEnvNewScope env
  naviScopeSet exnEnv.dynamic (← naviMakeSymbol "#current-exception-handler") handler
  let result ← naviApply thunk .nil exnEnv [] exnEnv.scopes
  naviEnvUnref exnEnv
  return result

/-- `raise-continuable` -/
def scmRaiseContinuable (args : NaviObj) (env : NaviEnv) : Code NaviObj := do
  let sym ← naviMakeSymbol "#current-exception-handler"
  let handler ← naviEnvLookup env.dynamic sym
  if (← naviType handler) = .naviProcedure then
    let guard ← naviGcGuard handler env
    naviScopeUnset env.dynamic sym
    let result ← naviApply handler args env [handler] env.scopes
    naviScopeSet env.dynamic sym handler
    naviGcUnguard guard
    return result
  else .throw (.unhandled args)

/-- `error` -/
def scmError (args : NaviObj) (env : NaviEnv) : Code NaviObj := do
  let args ← naviMakePair args .nil
  raise args env

/-! ### list.c -/

/-- `do_compare` -/
def doCompare (proc fst snd : NaviObj) (env : NaviEnv) (held : List NaviObj) : Code Bool := do
  let args ← naviList_ fst [snd]
  let result ← callFn (.applyForce proc args env) held env.scopes
  return naviIsTrue result

/-- `navi_member`, from the pairs of a list. -/
def naviMember (obj : NaviObj) : List NaviObj → Leaf NaviObj
  | [] => return .bool false
  | cons :: rest => do
    if ← X.naviEqualp obj (← naviCar cons) then return cons else naviMember obj rest

/-- The loop of `member`. -/
def memberLoopBody (obj cons proc : NaviObj) (env : NaviEnv) : Code NaviObj := do
  if ← naviIsPair cons then
    if ← doCompare proc obj (← naviCar cons) env [obj, cons, proc] then return cons
    else callFn (.memberLoop obj (← naviCdr cons) proc env) [] []
  else return .bool false

/-- `member` -/
def scmMember (nrArgs : ℕ) (args : NaviObj) (env : NaviEnv) : Code NaviObj := do
  if nrArgs > 3 then leaf env (naviArityError (← naviMakeSymbol "member"))
  else
    let obj ← naviCar args
    let list ← naviCadr args
    if nrArgs = 2 then leaf env (do naviMember X obj (← walk list).1)
    else
      let proc ← naviCaddr args
      leaf env (do
        naviTypeCheck proc .naviProcedure
        naviCheckArity proc 2)
      callFn (.memberLoop obj list proc env) [] []

/-- `navi_assoc`, from the pairs of a list. -/
def naviAssoc (obj : NaviObj) : List NaviObj → Leaf NaviObj
  | [] => return .bool false
  | cons :: rest => do
    let entry ← naviCar cons
    naviTypeCheck entry .naviPair
    if ← X.naviEqualp obj (← naviCar entry) then return entry else naviAssoc obj rest

/-- The loop of `assoc`. -/
def assocLoopBody (obj cons proc : NaviObj) (env : NaviEnv) : Code NaviObj := do
  if ← naviIsPair cons then
    let entry ← naviCar cons
    leaf env (naviTypeCheck entry .naviPair)
    if ← doCompare proc obj (← naviCar entry) env [obj, cons, proc] then naviCar cons
    else callFn (.assocLoop obj (← naviCdr cons) proc env) [] []
  else return .bool false

/-- `assoc` -/
def scmAssoc (nrArgs : ℕ) (args : NaviObj) (env : NaviEnv) : Code NaviObj := do
  if nrArgs > 3 then leaf env (naviArityError (← naviMakeSymbol "assoc"))
  else
    let obj ← naviCar args
    let list ← naviCadr args
    if nrArgs = 2 then leaf env (do naviAssoc X obj (← walk list).1)
    else callFn (.assocLoop obj list (← naviCaddr args) env) [] []

/-- `cons_array_fill` -/
def consArrayFill : List NaviObj → Leaf Unit
  | [] => return ()
  | list :: rest => do
    naviTypeCheckList list
    consArrayFill rest

/-- `cons_array_terminated` -/
def consArrayTerminated : List NaviObj → Code Bool
  | [] => return false
  | list :: rest => do
    if ← naviIsPair list then consArrayTerminated rest else return true

/-- `cons_array_advance` -/
def consArrayAdvance : List NaviObj → Code (List NaviObj)
  | [] => return []
  | list :: rest => do
    let cdr ← naviCdr list
    return cdr :: (← consArrayAdvance rest)

/-- The loop of `arg_list`. -/
def argListLoop : NaviObj → List NaviObj → Code Unit
  | _, [] => return ()
  | cons, list :: rest => do
    let cdr ← naviMakePair (← naviCar list) .nil
    naviSetCdr cons cdr
    argListLoop cdr rest

/-- `arg_list` -/
def argList (lists : List NaviObj) : Code NaviObj := do
  let args ← naviMakePair .nil .nil
  argListLoop args lists
  naviCdr args

/-- The loop of `for-each`. -/
def forEachLoopBody (proc : NaviObj) (lists : List NaviObj) (env : NaviEnv) : Code Unit := do
  if ← consArrayTerminated lists then return ()
  else
    let args ← argList lists
    let _ ← callFn (.applyForce proc args env) (proc :: lists) env.scopes
    let lists ← consArrayAdvance lists
    callFn (.forEachLoop proc lists env) [] []

/-- `for-each` -/
def scmForEach (nrArgs : ℕ) (args : NaviObj) (env : NaviEnv) : Code NaviObj := do
  let proc ← naviCar args
  leaf env (naviCheckArity proc (nrArgs - 1))
  let lists ← elements (← naviCdr args)
  leaf env (consArrayFill lists)
  callFn (.forEachLoop proc lists env) [] []
  return .void

/-- The loop of `map`. -/
def mapLoopBody (proc : NaviObj) (lists : List NaviObj) (result last : NaviObj)
    (env : NaviEnv) : Code NaviObj := do
  if ← consArrayTerminated lists then naviCdr result
  else
    let args ← argList lists
    let elm ← callFn (.applyForce proc args env) (proc :: result :: last :: lists) env.scopes
    let pair ← naviMakePair elm .nil
    naviSetCdr last pair
    let lists ← consArrayAdvance lists
    callFn (.mapLoop proc lists result pair env) [] []

/-- `map` -/
def scmMap (nrArgs : ℕ) (args : NaviObj) (env : NaviEnv) : Code NaviObj := do
  let proc ← naviCar args
  leaf env (naviCheckArity proc (nrArgs - 1))
  let lists ← elements (← naviCdr args)
  leaf env (consArrayFill lists)
  let result ← naviMakePair .nil .nil
  callFn (.mapLoop proc lists result result env) [] []

/-! ### vector.c -/

/-- The elements of vectors at an index. -/
def nthElements (k : ℕ) : List NaviObj → Code (List NaviObj)
  | [] => return []
  | vec :: rest => do
    let o ← elem (← naviVector vec) k
    return o :: (← nthElements k rest)

/-- The loop of `vector-map`. -/
def vectorMapLoopBody (proc : NaviObj) (vecs : List NaviObj) (result : NaviObj) (i minLen : ℕ)
    (env : NaviEnv) : Code Unit := do
  if i < minLen then
    let args ← naviList (← nthElements i vecs)
    let val ← callFn (.applyForce proc args env) (proc :: result :: vecs) env.scopes
    vectorSet result i val
    callFn (.vectorMapLoop proc vecs result (i + 1) minLen env) [] []
  else return ()

/-- `vector_array_fill`: the least length. -/
def vectorArrayFill : List NaviObj → ℕ → Leaf ℕ
  | [], minLen => return minLen
  | vec :: rest, minLen => do
    naviTypeCheck vec .naviVector
    let data ← naviVector vec
    vectorArrayFill rest (min data.length minLen)

/-- `vector-map` -/
def scmVectorMap (nrArgs : ℕ) (args : NaviObj) (env : NaviEnv) : Code NaviObj := do
  let proc ← naviCar args
  leaf env (naviCheckArity proc (nrArgs - 1))
  let vecs ← elements (← naviCdr args)
  let data ← naviVector (← naviCadr args)
  let minLen ← leaf env (vectorArrayFill vecs data.length)
  let result ← make .naviVector (.vector (List.replicate minLen none))
  callFn (.vectorMapLoop proc vecs result 0 minLen env) [result] []
  return result

/-- The loop of `navi_vector_map`. -/
def vectorMapIpLoopBody (proc dst src : NaviObj) (i size : ℕ) (env : NaviEnv) : Code Unit := do
  if i < size then
    let call ← naviList_ proc [← elem (← naviVector src) i]
    let val ← naviEval call env [proc, dst, src] env.scopes
    vectorSet dst i val
    callFn (.vectorMapIpLoop proc dst src (i + 1) size env) [] []
  else return ()

/-- `vector-map!` -/
def scmVectorMapIp (args : NaviObj) (env : NaviEnv) : Code NaviObj := do
  let proc ← naviCar args
  leaf env (naviCheckArity proc 1)
  let vec ← naviCadr args
  leaf env (naviTypeCheck vec .naviVector)
  let data ← naviVector vec
  callFn (.vectorMapIpLoop proc vec vec 0 data.length env) [vec] []
  return vec

/-- The loop of `vector-for-each`. -/
def vectorForEachLoopBody (proc : NaviObj) (vecs : List NaviObj) (i minLen : ℕ)
    (env : NaviEnv) : Code Unit := do
  if i < minLen then
    let args ← naviList (← nthElements i vecs)
    let _ ← callFn (.applyForce proc args env) (proc :: vecs) env.scopes
    callFn (.vectorForEachLoop proc vecs (i + 1) minLen env) [] []
  else return ()

/-- `vector-for-each` -/
def scmVectorForEach (nrArgs : ℕ) (args : NaviObj) (env : NaviEnv) : Code NaviObj := do
  let proc ← naviCar args
  leaf env (naviCheckArity proc (nrArgs - 1))
  let vecs ← elements (← naviCdr args)
  let data ← naviVector (← naviCadr args)
  let minLen ← leaf env (vectorArrayFill vecs data.length)
  callFn (.vectorForEachLoop proc vecs 0 minLen env) [] []
  return .void

/-! ### The bodies -/

/-- The C functions of the builtins. -/
def cProcBody (f : Builtin) (nrArgs : ℕ) (args : NaviObj) (env : NaviEnv) :
    Code NaviObj :=
  match f with
  | .scmLambda => scmLambda args env
  | .scmCaselambda => scmCaselambda args env
  | .scmBegin => callFn (.beginLoop args none env) [] []
  | .scmInclude => naviInclude args false env
  | .scmIncludeCi => naviInclude args true env
  | .scmQuote => naviCar args
  | .scmUnquote => do naviEval (← naviCar args) env [] []
  | .scmQuasiquote => do callFn (.evalQq (← naviCar args) env) [] []
  | .scmCase => scmCase args env
  | .scmCond => do
    if ← condValid args then callFn (.condLoop args env) [] []
    else leaf env (naviError "invalid cond list" [])
  | .scmIf => scmIf nrArgs args env
  | .scmAnd => callFn (.andLoop args env) [] []
  | .scmOr => callFn (.orLoop args env) [] []
  | .scmDelay => do naviMakePromise (← naviCar args) env
  | .scmForce => scmForce args env
  | .scmEval => do naviEval (← naviCar args) env [] []
  | .scmDefine => scmDefine args env
  | .scmDefineSyntax => scmDefineSyntax args env
  | .scmDefineValues => scmDefineValues args env
  | .scmDefmacroForm => scmDefmacroForm args env
  | .scmLet => scmLet args env
  | .scmSequentialLet => scmSequentialLet args env
  | .scmLetValues => scmLetValues args env
  | .scmSet => scmSet args env
  | .scmMakeParameter => scmMakeParameter nrArgs args env
  | .scmParameterize => scmParameterize args env
  | .scmDefineLibrary => scmDefineLibrary args env
  | .scmImport => scmImport args env
  | .scmApply => scmApply args env
  | .scmCallEc => scmCallEc args env
  | .scmValues => scmValues args
  | .scmCallWithValues => scmCallWithValues args env
  | .scmWithExceptionHandler => scmWithExceptionHandler args env
  | .scmRaise => raise args env
  | .scmRaiseContinuable => scmRaiseContinuable args env
  | .scmError => scmError args env
  | .scmCons => do naviMakePair (← naviCar args) (← naviCadr args)
  | .scmCar => do naviCar (← naviCar args)
  | .scmCdr => do naviCdr (← naviCar args)
  | .scmSetCar => do
    naviSetCar (← naviCar args) (← naviCadr args)
    return .void
  | .scmSetCdr => do
    naviSetCdr (← naviCar args) (← naviCadr args)
    return .void
  | .scmList => return args
  | .scmMember => scmMember X nrArgs args env
  | .scmAssoc => scmAssoc X nrArgs args env
  | .scmForEach => scmForEach nrArgs args env
  | .scmMap => scmMap nrArgs args env
  | .scmVectorMap => scmVectorMap nrArgs args env
  | .scmVectorMapIp => scmVectorMapIp args env
  | .scmVectorForEach => scmVectorForEach nrArgs args env
  | .scmGcCollect => do
    perform (.gcCollect ⟨[], []⟩)
    return .void
  | .other n => leaf env (X.builtin n nrArgs args env)

/-- The bodies of the functions. -/
def evalBody : (f : EvalFn) → Code f.Ret
  | .naviEval expr env => naviEvalBody expr env
  | .evalLoop expr env => evalLoopBody expr env
  | .eval_ expr env => evalBody_ expr env
  | .evalCall call env => evalCallBody call env
  | .naviApply_ proc args env => naviApplyBody_ proc args env
  | .doApply proc nrArgs args env => doApplyBody proc nrArgs args env
  | .cProc f nrArgs args env => cProcBody X f nrArgs args env
  | .procedureCall proc args env => procedureCallBody proc args env
  | .operandLoop cons ptr env => operandLoopBody cons ptr env
  | .caselambdaCall lambda args env => caselambdaCallBody lambda args env
  | .beginLoop cons result env => beginLoopBody cons result env
  | .andLoop cons env => andLoopBody cons env
  | .orLoop cons env => orLoopBody cons env
  | .evalQq expr env => evalQqBody expr env
  | .qqLoop cons first last env => qqLoopBody cons first last env
  | .evalClause arg begin env => evalClauseBody arg begin env
  | .condLoop cons env => condLoopBody cons env
  | .naviLoad filename ci inEnv outEnv => naviLoadBody X filename ci inEnv outEnv
  | .loadLoop fst port inEnv => loadLoopBody X fst port inEnv
  | .includeLoop cons ci env => includeLoopBody cons ci env
  | .letLoop cons env new => letLoopBody cons env new
  | .letValuesLoop cons env => letValuesLoopBody cons env
  | .naviParameterConvert param obj env => naviParameterConvertBody param obj env
  | .parameterizeParams cons params env => parameterizeParamsBody cons params env
  | .parameterizeVals cons env new => parameterizeValsBody cons env new
  | .importValid set => importValidBody set
  | .getImportEnv set env => getImportEnvBody X set env
  | .naviImport imports env => naviImportBody imports env
  | .importLoop cons env => importLoopBody cons env
  | .doLoadLibrary lib env => doLoadLibraryBody lib env
  | .loadDeclarations cons exports libEnv => loadDeclarationsBody cons exports libEnv
  | .naviRaise args env => naviRaiseBody args env
  | .applyForce proc args env => applyForceBody proc args env
  | .memberLoop obj cons proc env => memberLoopBody obj cons proc env
  | .assocLoop obj cons proc env => assocLoopBody obj cons proc env
  | .forEachLoop proc lists env => forEachLoopBody proc lists env
  | .mapLoop proc lists result last env => mapLoopBody proc lists result last env
  | .vectorMapIpLoop proc dst src i size env => vectorMapIpLoopBody proc dst src i size env
  | .vectorForEachLoop proc vecs i minLen env => vectorForEachLoopBody proc vecs i minLen env
  | .vectorMapLoop proc vecs result i minLen env =>
    vectorMapLoopBody proc vecs result i minLen env

end NaviScheme
