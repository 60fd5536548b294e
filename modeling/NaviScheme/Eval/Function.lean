import NaviScheme.Eval.Leaf

/-!
# The functions that evaluate

The functions of `eval.c`, `environment.c`, `control_features.c`, `list.c` and `vector.c`
that evaluate or apply something (`NaviScheme.EvalFn`). A loop that evaluates is a function
of its own, of the locals that it changes. What each does is a program
(`NaviScheme.Code`), in the modules that follow.

A function that calls another says which objects and scopes in its locals it will use
afterwards (`NaviScheme.Locals`). `longjmp` is an exception.
-/

namespace NaviScheme

/-- The functions that evaluate, with their arguments. -/
inductive EvalFn
  -- eval.c
  /-- `navi_eval` -/
  | naviEval (expr : NaviObj) (env : NaviEnv)
  /-- the loop of `navi_eval` -/
  | evalLoop (expr : NaviObj) (env : NaviEnv)
  /-- `_eval` -/
  | eval_ (expr : NaviObj) (env : NaviEnv)
  /-- `eval_call` -/
  | evalCall (call : NaviObj) (env : NaviEnv)
  /-- `_navi_apply` -/
  | naviApply_ (proc args : NaviObj) (env : NaviEnv)
  /-- `do_apply` -/
  | doApply (proc : NaviObj) (nrArgs : ℕ) (args : NaviObj) (env : NaviEnv)
  /-- the C function of a builtin -/
  | cProc (f : Builtin) (nrArgs : ℕ) (args : NaviObj) (env : NaviEnv)
  /-- `procedure_call` -/
  | procedureCall (proc args : NaviObj) (env : NaviEnv)
  /-- its loop -/
  | operandLoop (cons ptr : NaviObj) (env : NaviEnv)
  /-- `caselambda_call` -/
  | caselambdaCall (lambda args : NaviObj) (env : NaviEnv)
  /-- the loop of `begin` -/
  | beginLoop (cons : NaviObj) (result : Option NaviObj) (env : NaviEnv)
  /-- the loop of `and` -/
  | andLoop (cons : NaviObj) (env : NaviEnv)
  /-- the loop of `or` -/
  | orLoop (cons : NaviObj) (env : NaviEnv)
  /-- `eval_qq` -/
  | evalQq (expr : NaviObj) (env : NaviEnv)
  /-- its loop: `head.cdr`, and `last` unless it is `&head` -/
  | qqLoop (cons : NaviObj) (first last : Option NaviObj) (env : NaviEnv)
  /-- `eval_clause` -/
  | evalClause (arg begin : NaviObj) (env : NaviEnv)
  /-- the loop of `cond` -/
  | condLoop (cons : NaviObj) (env : NaviEnv)
  /-- `navi_load` -/
  | naviLoad (filename : NaviObj) (ci : Bool) (inEnv outEnv : NaviEnv)
  /-- its loop -/
  | loadLoop (fst port : NaviObj) (inEnv : NaviEnv)
  /-- the second loop of `navi_include` -/
  | includeLoop (cons : NaviObj) (ci : Bool) (env : NaviEnv)
  -- environment.c
  /-- the loops of `let_extend_env` and `sequential_let_extend_env` -/
  | letLoop (cons : NaviObj) (env new : NaviEnv)
  /-- the loop of `letvals_extend_env` -/
  | letValuesLoop (cons : NaviObj) (env : NaviEnv)
  /-- `navi_parameter_convert` -/
  | naviParameterConvert (param obj : NaviObj) (env : NaviEnv)
  /-- the first loop of `parameterize_extend_env` -/
  | parameterizeParams (cons params : NaviObj) (env : NaviEnv)
  /-- the second loop of `parameterize_extend_env` -/
  | parameterizeVals (cons : NaviObj) (env new : NaviEnv)
  /-- `import_valid` -/
  | importValid (set : NaviObj)
  /-- `get_import_env` -/
  | getImportEnv (set : NaviObj) (env : NaviEnv)
  /-- `navi_import` -/
  | naviImport (imports : NaviObj) (env : NaviEnv)
  /-- its loop -/
  | importLoop (cons : NaviObj) (env : NaviEnv)
  /-- `do_load_library` -/
  | doLoadLibrary (lib : ℕ) (env : NaviEnv)
  /-- its loop -/
  | loadDeclarations (cons exports : NaviObj) (libEnv : NaviEnv)
  -- control_features.c
  /-- `navi_raise` -/
  | naviRaise (args : NaviObj) (env : NaviEnv)
  /-- `navi_force_tail(navi_apply(proc, args, env), env)` -/
  | applyForce (proc args : NaviObj) (env : NaviEnv)
  -- list.c
  /-- the loop of `member` -/
  | memberLoop (obj cons proc : NaviObj) (env : NaviEnv)
  /-- the loop of `assoc` -/
  | assocLoop (obj cons proc : NaviObj) (env : NaviEnv)
  /-- the loop of `for-each` -/
  | forEachLoop (proc : NaviObj) (lists : List NaviObj) (env : NaviEnv)
  /-- the loop of `map` -/
  | mapLoop (proc : NaviObj) (lists : List NaviObj) (result last : NaviObj) (env : NaviEnv)
  -- vector.c
  /-- the loop of `navi_vector_map` -/
  | vectorMapIpLoop (proc dst src : NaviObj) (i size : ℕ) (env : NaviEnv)
  /-- the loop of `vector-for-each` -/
  | vectorForEachLoop (proc : NaviObj) (vecs : List NaviObj) (i minLen : ℕ) (env : NaviEnv)
  /-- the loop of `vector-map` -/
  | vectorMapLoop (proc : NaviObj) (vecs : List NaviObj) (result : NaviObj) (i minLen : ℕ)
      (env : NaviEnv)

/-- What the functions return. -/
def EvalFn.Ret : EvalFn → Type
  | .naviRaise _ _ => Empty
  | .operandLoop _ _ _ | .letLoop _ _ _ | .letValuesLoop _ _ | .parameterizeVals _ _ _
  | .naviImport _ _ | .importLoop _ _ | .doLoadLibrary _ _ | .forEachLoop _ _ _
  | .vectorMapIpLoop _ _ _ _ _ _ | .vectorForEachLoop _ _ _ _ _
  | .vectorMapLoop _ _ _ _ _ _ => Unit
  | .importValid _ => Bool
  | .getImportEnv _ _ => NaviEnv
  | _ => NaviObj

/-- How a function is left otherwise. -/
inductive EvalExn
  /-- `longjmp` to the `setjmp` of an escape. -/
  | escape (o : NaviObj)
  /-- `unhandled_exception`: the interpreter dies. -/
  | unhandled (args : NaviObj)
  deriving DecidableEq, Repr

/-- The functions with what they return. -/
abbrev evalFns : FnSig := ⟨EvalFn, EvalFn.Ret, Locals, EvalExn⟩

/-- A function that may evaluate. -/
abbrev Code (α : Type) := Prog evalOps evalFns α

variable {α : Type}

/-- Calling a function; the locals that the caller will use are `objs` and `scopes`. -/
def callFn (f : EvalFn) (objs : List NaviObj) (scopes : List ScopeAddr) : Code f.Ret :=
  Prog.callFn (F := evalFns) f ⟨objs, scopes⟩

/-- Calling `navi_raise`. -/
def raise (args : NaviObj) (env : NaviEnv) : Code α := do
  let never ← callFn (.naviRaise args env) [] []
  Empty.elim never

/-- A function that does not evaluate, called with `env` for its errors. -/
def leaf (env : NaviEnv) (p : Leaf α) : Code α := Prog.embed (fun args => raise args env) p

/-- The scopes of an environment. -/
def NaviEnv.scopes (env : NaviEnv) : List ScopeAddr := [env.lexical, env.dynamic]

/-- `navi_eval` -/
def naviEval (expr : NaviObj) (env : NaviEnv) (objs : List NaviObj) (scopes : List ScopeAddr) :
    Code NaviObj :=
  callFn (.naviEval expr env) objs scopes

/-- `navi_apply` -/
def naviApply (proc args : NaviObj) (env : NaviEnv) (objs : List NaviObj)
    (scopes : List ScopeAddr) : Code NaviObj := do
  let p ← naviProcedure proc
  callFn (.naviApply_ proc args ⟨p.env, env.dynamic⟩) objs scopes

/-- `eval_tail` -/
def evalTail (tail : NaviObj) (env : NaviEnv) : Code NaviObj := naviMakeBounce tail env

/-- What is not in the model: the builtins that neither evaluate nor apply anything, but for
those that are told apart by name, ports and the reader. -/
structure Externals where
  /-- the C functions of builtins -/
  builtin : ℕ → (nrArgs : ℕ) → (args : NaviObj) → (env : NaviEnv) → Leaf NaviObj
  /-- `navi_equalp` -/
  naviEqualp : NaviObj → NaviObj → Leaf Bool
  /-- `_navi_open_input_file`: a port, or void -/
  naviOpenInputFile_ : String → Leaf NaviObj
  /-- `navi_close_input_port` -/
  naviCloseInputPort : NaviObj → Leaf Unit
  /-- `navi_port_set_fold_case` -/
  naviPortSetFoldCase : NaviObj → Bool → Leaf Unit
  /-- `navi_read` -/
  naviRead : NaviObj → Leaf NaviObj

end NaviScheme
