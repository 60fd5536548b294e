import NaviScheme.Eval.World

/-!
# Functions that do not evaluate

The functions of the source that neither evaluate nor apply anything: accessors,
constructors, errors, checks of syntax. They are programs without calls
(`NaviScheme.Leaf`); an exception of theirs is a call of `navi_raise`, with its arguments.
-/

namespace NaviScheme

/-- A function that does not evaluate. -/
abbrev Leaf (α : Type) := Prog.Leaf evalOps NaviObj α

variable {α : Type} {F : FnSig}

/-! ### Operations -/

/-- One operation. -/
def perform (o : EvalOp) : Prog evalOps F o.Reply := .op o .ret

/-- Something goes wrong. -/
def fail (φ : Fault) : Prog evalOps F α := .op (.fail φ) Empty.elim

/-- Reading the tag and the contents of an object. -/
def load (o : NaviObj) : Prog evalOps F (NaviType × Data) := perform (.load o)

/-- Writing the contents of an object. -/
def store (o : NaviObj) (d : Data) : Prog evalOps F Unit := perform (.store o d)

/-- Allocating an object. -/
def make (t : NaviType) (d : Data) : Prog evalOps F NaviObj := perform (.make t d)

/-- Writing the tag of an object. -/
def retag (o : NaviObj) (t : NaviType) : Prog evalOps F Unit := perform (.retag o t)

/-- `navi_list_for_each`: the pairs, and what ends the list. -/
def walk (o : NaviObj) : Prog evalOps F (List NaviObj × NaviObj) := perform (.walk o)

/-- `navi_make_symbol` -/
def naviMakeSymbol (str : String) : Prog evalOps F NaviObj := perform (.makeSymbol str)

/-- The next value of a counter. -/
def count (c : Counter) : Prog evalOps F ℕ := perform (.count c)

/-- `_navi_scope_ref` -/
def scopeRef (s : ScopeAddr) : Prog evalOps F Unit := perform (.scopeRef s)

/-- `_navi_scope_unref` -/
def scopeUnref (s : ScopeAddr) : Prog evalOps F Unit := perform (.scopeUnref s)

/-- `navi_env_ref` -/
def naviEnvRef (env : NaviEnv) : Prog evalOps F Unit := do
  scopeRef env.lexical
  scopeRef env.dynamic

/-- `navi_env_unref` -/
def naviEnvUnref (env : NaviEnv) : Prog evalOps F Unit := do
  scopeUnref env.lexical
  scopeUnref env.dynamic

/-- `navi_env_binding` -/
def naviEnvBinding (s : ScopeAddr) (symbol : NaviObj) :
    Prog evalOps F (Option (ScopeAddr × NaviObj)) :=
  perform (.envBinding s symbol)

/-- `navi_scope_set` -/
def naviScopeSet (s : ScopeAddr) (symbol object : NaviObj) : Prog evalOps F Unit :=
  perform (.scopeSet s symbol object)

/-- `navi_scope_unset` -/
def naviScopeUnset (s : ScopeAddr) (symbol : NaviObj) : Prog evalOps F Unit :=
  perform (.scopeUnset s symbol)

/-- `get_global_scope` -/
def getGlobalScope (s : ScopeAddr) : Prog evalOps F ScopeAddr := perform (.globalScope s)

/-- `navi_gc_guard(o, env)` -/
def naviGcGuard (o : NaviObj) (env : NaviEnv) : Prog evalOps F (Option (ScopeAddr × ℕ)) :=
  perform (.guard o env.lexical)

/-- `navi_gc_unguard` -/
def naviGcUnguard (guard : Option (ScopeAddr × ℕ)) : Prog evalOps F Unit :=
  perform (.unguard guard)

/-- `navi_scope_lookup`: the object of the binding. -/
def naviScopeLookup (s : ScopeAddr) (symbol : NaviObj) : Prog evalOps F (Option NaviObj) := do
  return lookupIn (← perform (.bindings s)) symbol

/-! ### Objects -/

/-- `navi_type` -/
def naviType : NaviObj → Prog evalOps F NaviType
  | .void => return .naviVoid
  | .nil => return .naviNil
  | .eof => return .naviEof
  | .fixnum _ => return .naviFixnum
  | .bool _ => return .naviBool
  | .char _ => return .naviChar
  | .ptr a => do return (← load (.ptr a)).1

/-- `navi_car` -/
def naviCar (o : NaviObj) : Prog evalOps F NaviObj := do
  match (← load o).2 with
  | .pair (some car) _ => return car
  | _ => fail .badWord

/-- `navi_cdr` -/
def naviCdr (o : NaviObj) : Prog evalOps F NaviObj := do
  match (← load o).2 with
  | .pair _ (some cdr) => return cdr
  | _ => fail .badWord

/-- `navi_set_car` -/
def naviSetCar (cons obj : NaviObj) : Prog evalOps F Unit := do
  match (← load cons).2 with
  | .pair _ cdr => store cons (.pair (some obj) cdr)
  | _ => fail .badWord

/-- `navi_set_cdr` -/
def naviSetCdr (cons obj : NaviObj) : Prog evalOps F Unit := do
  match (← load cons).2 with
  | .pair car _ => store cons (.pair car (some obj))
  | _ => fail .badWord

/-- `navi_procedure` -/
def naviProcedure (o : NaviObj) : Prog evalOps F NaviProcedure := do
  match (← load o).2 with
  | .proc p => return p
  | _ => fail .badWord

/-- `navi_thunk` -/
def naviThunk (o : NaviObj) : Prog evalOps F (NaviObj × NaviEnv) := do
  match (← load o).2 with
  | .thunk expr env => return (expr, env)
  | _ => fail .badWord

/-- `navi_vector(o)->data` -/
def naviVector (o : NaviObj) : Prog evalOps F (List (Option NaviObj)) := do
  match (← load o).2 with
  | .vector data => return data
  | _ => fail .badWord

/-- Reading an element of an array. -/
def elem (data : List (Option NaviObj)) (i : ℕ) : Prog evalOps F NaviObj :=
  match data[i]? with
  | some (some o) => return o
  | _ => fail .badWord

/-- `navi_vector(o)->data[i] = obj` -/
def vectorSet (o : NaviObj) (i : ℕ) (obj : NaviObj) : Prog evalOps F Unit := do
  let data ← naviVector o
  if i < data.length then store o (.vector (data.set i (some obj))) else fail .badWord

/-- `navi_cadr` -/
def naviCadr (o : NaviObj) : Prog evalOps F NaviObj := do naviCar (← naviCdr o)

/-- `navi_cddr` -/
def naviCddr (o : NaviObj) : Prog evalOps F NaviObj := do naviCdr (← naviCdr o)

/-- `navi_caddr` -/
def naviCaddr (o : NaviObj) : Prog evalOps F NaviObj := do naviCar (← naviCddr o)

/-- `navi_caar` -/
def naviCaar (o : NaviObj) : Prog evalOps F NaviObj := do naviCar (← naviCar o)

/-- `navi_cdar` -/
def naviCdar (o : NaviObj) : Prog evalOps F NaviObj := do naviCdr (← naviCar o)

/-- `navi_cadar` -/
def naviCadar (o : NaviObj) : Prog evalOps F NaviObj := do naviCar (← naviCdar o)

/-- `navi_is_pair` -/
def naviIsPair (o : NaviObj) : Prog evalOps F Bool := do return (← naviType o) = .naviPair

/-- `navi_symbol_eq` -/
def naviSymbolEq (expr symbol : NaviObj) : Prog evalOps F Bool := do
  return (← naviType expr) = .naviSymbol && expr = symbol

/-- `navi_is_true` -/
def naviIsTrue : NaviObj → Bool
  | .bool b => b
  | _ => true

/-- `navi_make_empty_pair` -/
def naviMakeEmptyPair : Prog evalOps F NaviObj := make .naviPair (.pair none none)

/-- `navi_make_pair` -/
def naviMakePair (car cdr : NaviObj) : Prog evalOps F NaviObj :=
  make .naviPair (.pair (some car) (some cdr))

/-- `navi_make_thunk` -/
def naviMakeThunk (expr : NaviObj) (env : NaviEnv) : Prog evalOps F NaviObj := do
  let obj ← make .naviThunk (.thunk expr env)
  naviEnvRef env
  return obj

/-- `navi_make_bounce` -/
def naviMakeBounce (object : NaviObj) (env : NaviEnv) : Prog evalOps F NaviObj := do
  let bounce ← naviMakeThunk object env
  retag bounce .naviBounce
  return bounce

/-- `navi_make_uninterned` -/
def naviMakeUninterned (str : String) : Prog evalOps F NaviObj :=
  make .naviSymbol (.symbol str false)

/-- `navi_cstr_to_string` -/
def naviCstrToString (str : String) : Prog evalOps F NaviObj := make .naviString (.string str)

/-- `navi_make_apair` -/
def naviMakeApair (sym : String) (val : NaviObj) : Prog evalOps F NaviObj := do
  naviMakePair (← naviMakeSymbol sym) val

/-! ### Lists -/

/-- `navi_list_length` -/
def naviListLength (list : NaviObj) : Prog evalOps F ℕ := do return (← walk list).1.length

/-- `navi_list_length_safe`; `none` for a negative result. -/
def naviListLengthSafe (list : NaviObj) : Prog evalOps F (Option ℕ) := do
  let (pairs, last) ← walk list
  return if last = .nil then some pairs.length else none

/-- `navi_is_proper_list` -/
def naviIsProperList (list : NaviObj) : Prog evalOps F Bool := do return (← walk list).2 = .nil

/-- `navi_is_list` -/
def naviIsList (o : NaviObj) : Prog evalOps F Bool := do
  let t ← naviType o
  return t = .naviPair || t = .naviNil

/-- The elements of the pairs of a list. -/
def cars : List NaviObj → Prog evalOps F (List NaviObj)
  | [] => return []
  | cons :: rest => do
    let car ← naviCar cons
    return car :: (← cars rest)

/-- The elements of a list, whatever ends it. -/
def elements (list : NaviObj) : Prog evalOps F (List NaviObj) := do cars (← walk list).1

/-- Whether all objects are of a type. -/
def allOfType (t : NaviType) : List NaviObj → Prog evalOps F Bool
  | [] => return true
  | o :: rest => do
    if (← naviType o) = t then allOfType t rest else return false

/-- `navi_is_list_of`, for a type of objects. -/
def naviIsListOf (list : NaviObj) (t : NaviType) (allowDottedTail : Bool) :
    Prog evalOps F Bool := do
  let (pairs, last) ← walk list
  if ← allOfType t (← cars pairs) then
    if last = .nil then return true
    else if allowDottedTail then return (← naviType last) = t
    else return false
  else return false

/-- `navi_is_last_pair` -/
def naviIsLastPair (pair : NaviObj) : Prog evalOps F Bool := do return (← naviCdr pair) = .nil

/-- `navi_last_cons` -/
def naviLastCons (list : NaviObj) : Prog evalOps F NaviObj := do
  let (pairs, _) ← walk list
  match pairs.getLast? with
  | some last => return last
  | none => fail .badWord

/-- The links of `navi_vlist` and of `navi_vector_to_list`: pairs are made and assigned one
after another. -/
def appendPairs : NaviObj → List NaviObj → Prog evalOps F Unit
  | last, [] => naviSetCdr last .nil
  | last, o :: rest => do
    let pair ← naviMakeEmptyPair
    naviSetCdr last pair
    naviSetCar pair o
    appendPairs pair rest

/-- A list of objects, as `navi_vector_to_list` makes it. -/
def naviList : List NaviObj → Prog evalOps F NaviObj
  | [] => return .nil
  | first :: rest => do
    let list ← naviMakeEmptyPair
    naviSetCar list first
    appendPairs list rest
    return list

/-- `navi_vlist`: void ends the arguments. -/
def naviVlist (first : NaviObj) (rest : List NaviObj) : Prog evalOps F NaviObj :=
  naviList (first :: rest.takeWhile (· ≠ .void))

/-- `_navi_list` -/
def naviList_ (first : NaviObj) (rest : List NaviObj) : Prog evalOps F NaviObj :=
  if first = .void then return .nil else naviVlist first rest

/-- `navi_list_to_vector` -/
def naviListToVector (list : NaviObj) : Prog evalOps F NaviObj := do
  let data ← elements list
  make .naviVector (.vector (data.map some))

/-- Reading all elements of an array. -/
def readAll : List (Option NaviObj) → Prog evalOps F (List NaviObj)
  | [] => return []
  | some o :: rest => do return o :: (← readAll rest)
  | none :: _ => fail .badWord

/-- `navi_vector_to_list` -/
def naviVectorToList (o : NaviObj) : Prog evalOps F NaviObj := do
  naviList (← readAll (← naviVector o))

/-! ### Environments -/

/-- `navi_env_new_scope` -/
def naviEnvNewScope (env : NaviEnv) : Prog evalOps F NaviEnv := do
  let scope ← perform (.makeScope (some env.lexical))
  naviEnvRef env
  return ⟨scope, env.dynamic⟩

/-- `navi_dynamic_env_new_scope` -/
def naviDynamicEnvNewScope (env : NaviEnv) : Prog evalOps F NaviEnv := do
  let scope ← perform (.makeScope (some env.dynamic))
  naviEnvRef env
  return ⟨env.lexical, scope⟩

/-- `navi_env_lookup` -/
def naviEnvLookup (s : ScopeAddr) (symbol : NaviObj) : Prog evalOps F NaviObj := do
  match ← naviEnvBinding s symbol with
  | some (_, object) => return object
  | none => return .void

/-- The loop of `navi_extend_environment`, and the dotted tail. -/
def bindAll (scope : ScopeAddr) : List NaviObj → NaviObj → List NaviObj → NaviObj →
    Prog evalOps F Unit
  | vcons :: vars, vlast, acons :: args, alast => do
    naviScopeSet scope (← naviCar vcons) (← naviCar acons)
    bindAll scope vars vlast args alast
  | vars, vlast, args, alast => do
    let vcons := vars.headD vlast
    let acons := args.headD alast
    if vcons = .nil then return () else naviScopeSet scope vcons acons

/-- `navi_extend_environment` -/
def naviExtendEnvironment (env : NaviEnv) (vars args : NaviObj) : Prog evalOps F NaviEnv := do
  let new ← naviEnvNewScope env
  let (vpairs, vlast) ← walk vars
  let (apairs, alast) ← walk args
  bindAll new.lexical vpairs vlast apairs alast
  return new

/-- `navi_make_procedure` -/
def naviMakeProcedure (args body name : NaviObj) (env : NaviEnv) : Prog evalOps F NaviObj := do
  let (pairs, last) ← walk args
  scopeRef env.lexical
  make .naviProcedure (.proc
    { variadic := last ≠ .nil
      arity := pairs.length
      name := name
      env := env.lexical
      args := args
      body := .body body
      types := none })

/-- `navi_make_lambda` -/
def naviMakeLambda (args body : NaviObj) (env : NaviEnv) : Prog evalOps F NaviObj := do
  let n ← count .lam
  let name ← naviMakeUninterned s!"lam{n}"
  naviMakeProcedure args body name env

/-- `navi_make_macro` -/
def naviMakeMacro (args body name : NaviObj) (env : NaviEnv) : Prog evalOps F NaviObj := do
  let obj ← naviMakeProcedure args body name env
  retag obj .naviMacro
  return obj

/-- `navi_make_promise` -/
def naviMakePromise (e : NaviObj) (env : NaviEnv) : Prog evalOps F NaviObj := do
  let body ← naviMakePair e .nil
  let name ← naviMakeSymbol "promise"
  let promise ← naviMakeProcedure .nil body name env
  retag promise .naviPromise
  return promise

/-! ### Errors -/

/-- `_navi_error`: the error object is raised. -/
def naviError_ (type msg : String) (irritants : List NaviObj) : Leaf α := do
  let type ← naviMakeSymbol type
  let str ← naviCstrToString msg
  let list ← naviVlist str irritants
  let list ← naviMakePair type list
  let args ← naviMakePair list .nil
  .throw args

/-- `navi_error` -/
def naviError (msg : String) (irritants : List NaviObj) : Leaf α :=
  naviError_ "#internal-error" msg irritants

/-- `navi_file_error` -/
def naviFileError (msg : String) : Leaf α := naviError_ "#file-error" msg []

/-- `navi_arity_error` -/
def naviArityError (name : NaviObj) : Leaf α := do
  let target ← naviMakeApair "target" name
  naviError "wrong number of arguments" [target]

/-- `navi_unbound_identifier_error` -/
def naviUnboundIdentifierError (ident : NaviObj) : Leaf α := do
  let identifier ← naviMakeApair "identifier" ident
  naviError "unbound identifier" [identifier]

/-- `navi_strtype` -/
def naviStrtype : NaviType → String
  | .naviVoid => "void"
  | .naviNil => "nil"
  | .naviEof => "eof-object"
  | .naviFixnum => "number"
  | .naviBool => "boolean"
  | .naviChar => "character"
  | .naviValues => "values"
  | .naviPair => "pair"
  | .naviPort => "port"
  | .naviString => "string"
  | .naviSymbol => "symbol"
  | .naviVector => "vector"
  | .naviBytevec => "bytevector"
  | .naviThunk => "thunk"
  | .naviMacro => "macro"
  | .naviSpecial => "special"
  | .naviPromise => "promise"
  | .naviProcedure => "procedure"
  | .naviCaselambda => "case-lambda"
  | .naviEscape => "escape"
  | .naviParameter => "parameter"
  | .naviEnvironment => "environment"
  | .naviBounce => "bounce"
  | .naviTrap => "trap"

/-- `navi_type_error` -/
def naviTypeError (expected actual : NaviObj) : Leaf α := do
  let expected ← naviMakeApair "expected" expected
  let actual ← naviMakeApair "actual" actual
  naviError "type error" [expected, actual]

/-- `navi_type_check` -/
def naviTypeCheck (obj : NaviObj) (t : NaviType) : Leaf Unit := do
  let actual ← naviType obj
  if actual = t then return ()
  else naviTypeError (← naviMakeSymbol (naviStrtype t)) (← naviMakeSymbol (naviStrtype actual))

/-- `navi_type_check_list` -/
def naviTypeCheckList (list : NaviObj) : Leaf Unit := do
  if ← naviIsList list then return ()
  else
    let actual ← naviType list
    naviTypeError (← naviMakeSymbol "list") (← naviMakeSymbol (naviStrtype actual))

/-- `navi_type_check_proper_list` -/
def naviTypeCheckProperList (list : NaviObj) : Leaf Unit := do
  if ← naviIsProperList list then return ()
  else naviError "type error: not a proper list" []

/-- `navi_type_check_byte` -/
def naviTypeCheckByte (n : NaviObj) : Leaf Unit := do
  naviTypeCheck n .naviFixnum
  match n with
  | .fixnum k =>
    if 0 ≤ k ∧ k < 256 then return ()
    else
      let min ← naviMakeApair "min" (.fixnum 0)
      let max ← naviMakeApair "max" (.fixnum 256)
      let actual ← naviMakeApair "actual" n
      naviError "argument not in allowed range" [min, max, actual]
  | _ => fail .badWord

/-- `navi_arity_satisfied` -/
def naviAritySatisfied (p : NaviProcedure) (n : ℕ) : Bool :=
  n = p.arity || (p.variadic && n > p.arity)

/-- `navi_check_arity` -/
def naviCheckArity (proc : NaviObj) (arity : ℕ) : Leaf Unit := do
  let p ← naviProcedure proc
  if naviAritySatisfied p arity then return ()
  else
    let expected ← naviMakeApair "expected" (.fixnum arity)
    let actual ← naviMakeApair "actual" (.fixnum p.arity)
    naviError "wrong arity" [expected, actual]

/-! ### Checks of arguments and of syntax -/

/-- The check of one argument in `check_apply`. -/
def checkArg (arg : NaviObj) : ArgType → Leaf Unit
  | .naviList => naviTypeCheckList arg
  | .naviProperList => naviTypeCheckProperList arg
  | .naviByte => naviTypeCheckByte arg
  | .naviAny => return ()
  | .type t => naviTypeCheck arg t

/-- The loop of `check_apply`. -/
def checkArgs : List NaviObj → List ArgType → Leaf Unit
  | cons :: args, t :: types => do
    checkArg (← naviCar cons) t
    checkArgs args types
  | _, _ => return ()

/-- `check_apply` -/
def checkApply (proc args : NaviObj) : Leaf ℕ := do
  let p ← naviProcedure proc
  let (pairs, _) ← walk args
  if naviAritySatisfied p pairs.length then
    checkArgs pairs (p.types.getD [])
    return pairs.length
  else naviArityError p.name

/-- `lambda_valid` -/
def lambdaValid (lambda : NaviObj) : Prog evalOps F Bool := do
  if ← naviIsPair lambda then
    if ← naviIsPair (← naviCdr lambda) then
      let formals ← naviCar lambda
      if (← naviType formals) = .naviSymbol then return true
      else naviIsListOf formals .naviSymbol true
    else return false
  else return false

/-- `let_def_valid` -/
def letDefValid (defn : NaviObj) : Prog evalOps F Bool := do
  if ← naviIsPair defn then
    if ← naviIsPair (← naviCdr defn) then
      if (← naviCddr defn) = .nil then return (← naviType (← naviCar defn)) = .naviSymbol
      else return false
    else return false
  else return false

/-- `let_values_def_valid` -/
def letValuesDefValid (defn : NaviObj) : Prog evalOps F Bool := do
  if ← naviIsPair defn then
    if ← naviIsPair (← naviCdr defn) then
      if (← naviCddr defn) = .nil then naviIsListOf (← naviCar defn) .naviSymbol false
      else return false
    else return false
  else return false

/-- Whether a check holds of all objects. -/
def allValid (valid : NaviObj → Prog evalOps F Bool) : List NaviObj → Prog evalOps F Bool
  | [] => return true
  | o :: rest => do
    if ← valid o then allValid valid rest else return false

/-- `let_defs_valid` and `letvals_defs_valid`, by the check of one definition. -/
def defsValid (valid : NaviObj → Prog evalOps F Bool) (list : NaviObj) : Prog evalOps F Bool := do
  let (pairs, last) ← walk list
  if ← allValid valid (← cars pairs) then return last = .nil else return false

/-- One clause, for `case_valid`. -/
def caseClauseValid (fst : NaviObj) : Prog evalOps F Bool := do
  let n ← naviListLength fst
  if n < 2 then return false
  else naviIsProperList fst

/-- `case_valid` -/
def caseValid (scase : NaviObj) : Prog evalOps F Bool := do
  if (← naviListLength scase) < 2 then return false
  else allValid caseClauseValid (← elements (← naviCdr scase))

/-- One clause, for `cond_valid`. -/
def condClauseValid (fst : NaviObj) : Prog evalOps F Bool := do
  if ← naviIsProperList fst then
    let length ← naviListLength fst
    if length < 2 then return false
    else
      let isArrow ← naviSymbolEq (← naviCadr fst) (← naviMakeSymbol "=>")
      return !(isArrow && length ≠ 3)
  else return false

/-- `cond_valid` -/
def condValid (cond : NaviObj) : Prog evalOps F Bool := do
  let (pairs, last) ← walk cond
  if ← allValid condClauseValid (← cars pairs) then return last = .nil else return false

end NaviScheme
