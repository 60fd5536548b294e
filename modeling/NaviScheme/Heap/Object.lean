import Mathlib.Data.Finset.Basic
import Mathlib.Logic.Function.Basic
import NaviScheme.Lib.Except

/-!
# Objects, scopes and the heap

The types of `navi.h` and `internal.h`: `navi_obj` is `NaviScheme.NaviObj`, and an object on
the heap is a `NaviScheme.Cell`, whose tag and contents are separate, as in the source,
where some objects are retagged after they are made. `NaviScheme.Store` holds what the
collector works on: the heap list, the active scopes and the symbol table.

A word that is read where the program has stored nothing yet, or something that is not a
`navi_obj`, is told apart (`NaviScheme.Word`), since `gc_mark_obj` may follow it.
-/

namespace NaviScheme

/-- The address of an object. Thunks and bounces are allocated from a cache of their own
(`thunk_cache`). -/
inductive Addr
  | obj (n : ℕ)
  | thunk (n : ℕ)
  deriving DecidableEq, Repr

/-- The address of a scope. -/
abbrev ScopeAddr := ℕ

/-- `enum navi_type` -/
inductive NaviType
  | naviVoid | naviNil | naviFixnum | naviEof | naviBool | naviChar | naviPair | naviPort
  | naviString | naviSymbol | naviVector | naviBytevec | naviValues | naviMacro | naviSpecial
  | naviPromise | naviThunk | naviProcedure | naviCaselambda | naviEscape | naviParameter
  | naviBounce | naviEnvironment | naviTrap
  deriving DecidableEq, Repr

/-- The values of `enum navi_type`, in order. -/
def naviTypes : List NaviType :=
  [.naviVoid, .naviNil, .naviFixnum, .naviEof, .naviBool, .naviChar, .naviPair, .naviPort,
    .naviString, .naviSymbol, .naviVector, .naviBytevec, .naviValues, .naviMacro, .naviSpecial,
    .naviPromise, .naviThunk, .naviProcedure, .naviCaselambda, .naviEscape, .naviParameter,
    .naviBounce, .naviEnvironment, .naviTrap]

/-- `navi_obj`: an immediate value or a pointer to an object. -/
inductive NaviObj
  | void
  | nil
  | eof
  | fixnum (n : ℤ)
  | bool (b : Bool)
  | char (c : ℕ)
  | ptr (a : Addr)
  deriving DecidableEq, Repr

/-- `navi_env` -/
structure NaviEnv where
  /-- `lexical` -/
  lexical : ScopeAddr
  /-- `dynamic` -/
  dynamic : ScopeAddr
  deriving DecidableEq, Repr

/-- What the list of argument types of a builtin may require. -/
inductive ArgType
  | naviAny
  | naviList
  | naviProperList
  | naviByte
  | type (t : NaviType)
  deriving DecidableEq, Repr

/-- The C functions of the builtins. Those that neither evaluate nor apply anything, but for
a few, are not told apart by name. -/
inductive Builtin
  -- eval.c
  | scmLambda | scmCaselambda | scmBegin | scmInclude | scmIncludeCi | scmQuote | scmUnquote
  | scmQuasiquote | scmCase | scmCond | scmIf | scmAnd | scmOr | scmDelay | scmForce | scmEval
  -- environment.c
  | scmDefine | scmDefineSyntax | scmDefineValues | scmDefmacroForm | scmLet | scmSequentialLet
  | scmLetValues | scmSet | scmMakeParameter | scmParameterize | scmDefineLibrary | scmImport
  -- control_features.c
  | scmApply | scmCallEc | scmValues | scmCallWithValues | scmWithExceptionHandler | scmRaise
  | scmRaiseContinuable | scmError
  -- list.c
  | scmCons | scmCar | scmCdr | scmSetCar | scmSetCdr | scmList | scmMember | scmAssoc
  | scmForEach | scmMap
  -- vector.c
  | scmVectorMap | scmVectorMapIp | scmVectorForEach
  -- heap.c
  | scmGcCollect
  | other (n : ℕ)
  deriving DecidableEq, Repr

/-- The union of `body` and `c_proc`, told apart by `NAVI_PROC_BUILTIN`. -/
inductive ProcBody
  | body (obj : NaviObj)
  | cProc (f : Builtin)
  deriving DecidableEq, Repr

/-- `struct navi_procedure` -/
structure NaviProcedure where
  /-- `NAVI_PROC_VARIADIC` -/
  variadic : Bool
  /-- `arity` -/
  arity : ℕ
  /-- `name` -/
  name : NaviObj
  /-- `env` -/
  env : ScopeAddr
  /-- `args` -/
  args : NaviObj
  /-- `body` or `c_proc` -/
  body : ProcBody
  /-- `types`, up to the arity -/
  types : Option (List ArgType)
  deriving DecidableEq, Repr

/-- The contents of an object; a field that is not yet assigned is `none`. -/
inductive Data
  /-- `struct navi_pair` -/
  | pair (car cdr : Option NaviObj)
  /-- `struct navi_thunk` -/
  | thunk (expr : NaviObj) (env : NaviEnv)
  /-- `struct navi_procedure` -/
  | proc (p : NaviProcedure)
  /-- `struct navi_vector` -/
  | vector (data : List (Option NaviObj))
  /-- `struct navi_bytevec` -/
  | bytevec (data : List ℕ)
  /-- `struct navi_string` -/
  | string (data : String)
  /-- `struct navi_symbol` -/
  | symbol (data : String) (interned : Bool)
  /-- `struct navi_escape`; `setjmp` fills in `state`. -/
  | escape (env : Option NaviEnv) (arg : Option NaviObj)
  /-- `struct navi_port` on a file: `expr`, and the position in the file. -/
  | port (expr : NaviObj) (file pos : ℕ)
  /-- A captured `navi_env`. -/
  | environment (env : NaviEnv)
  deriving DecidableEq, Repr

/-- `struct navi_object` -/
structure Cell where
  /-- `link` -/
  link : Option Addr
  /-- `type` -/
  type : NaviType
  /-- `NAVI_GC_MARK` -/
  mark : Bool
  /-- `NAVI_GC_PROTECT` -/
  protect : Bool
  /-- `data` -/
  data : Data
  deriving DecidableEq, Repr

/-- A word of memory. -/
inductive Word
  /-- A `navi_obj`. -/
  | obj (o : NaviObj)
  /-- A pointer to a scope. -/
  | scope (s : ScopeAddr)
  /-- Memory that nothing has been stored in. -/
  | unassigned
  /-- Anything else: a count, a code address, bytes. -/
  | other
  deriving DecidableEq, Repr

/-- The word of a field that may not be assigned yet. -/
def Word.ofField : Option NaviObj → Word
  | some o => .obj o
  | none => .unassigned

namespace Data

/-- `navi_car`: the first word, whatever the object is. -/
def car : Data → Word
  | .pair car _ => .ofField car
  | .thunk expr _ => .obj expr
  | _ => .other

/-- `navi_cdr`: the second word. That of a thunk or a bounce is `env.lexical`. -/
def cdr : Data → Word
  | .pair _ cdr => .ofField cdr
  | .thunk _ env => .scope env.lexical
  | _ => .other

/-- `navi_port(obj)->expr` -/
def portExpr : Data → Word
  | .port expr _ _ => .obj expr
  | _ => .other

/-- `navi_vector(obj)->data` -/
def elems : Data → List Word
  | .vector data => data.map .ofField
  | _ => [.other]

/-- `navi_escape(obj)->arg` -/
def escapeArg : Data → Word
  | .escape _ arg => .ofField arg
  | _ => .other

end Data

/-- `struct navi_binding` -/
structure NaviBinding where
  /-- `symbol` -/
  symbol : NaviObj
  /-- `object` -/
  object : NaviObj
  deriving DecidableEq, Repr

/-- `struct navi_guard`, with a number for its address. -/
structure NaviGuard where
  /-- the address -/
  id : ℕ
  /-- `obj` -/
  obj : NaviObj
  deriving DecidableEq, Repr

/-- `struct navi_scope`. The buckets are one list: bindings of one symbol would share a
bucket. Read as an object, a scope has its `link.le_prev` where the flags are. -/
structure NaviScope where
  /-- `next` -/
  next : Option ScopeAddr
  /-- `refs` -/
  refs : ℕ
  /-- `guards` -/
  guards : List NaviGuard
  /-- `bindings` -/
  bindings : List NaviBinding
  /-- whether a mark has been written over the link -/
  linkMarked : Bool
  deriving DecidableEq, Repr

/-- What the collector works on. -/
structure Store where
  /-- `heap.slh_first` -/
  first : Option Addr
  /-- the objects in memory -/
  cells : Addr → Option Cell
  /-- `active_environments` -/
  active : List ScopeAddr
  /-- the scopes in memory -/
  scopes : ScopeAddr → Option NaviScope
  /-- `symbol_table`, as one list -/
  symtab : List (String × Addr)

/-- What can go wrong. -/
inductive Fault
  /-- An object or a scope is used that has been freed. -/
  | useAfterFree
  /-- A word is used as an object that is not one. -/
  | badWord
  /-- `navi_die` -/
  | die
  /-- A loop has no end. -/
  | hang
  /-- More steps are needed. -/
  | timeout
  deriving DecidableEq, Repr

namespace Store

variable (st : Store)

/-- Reading an object. -/
def load (a : Addr) : Except Fault Cell :=
  match st.cells a with
  | some c => .ok c
  | none => .error .useAfterFree

/-- Writing an object. -/
def setCell (a : Addr) (c : Cell) : Store :=
  { st with cells := Function.update st.cells a (some c) }

/-- Giving back the memory of an object. -/
def freeCell (a : Addr) : Store :=
  { st with cells := Function.update st.cells a none }

/-- Reading a scope. -/
def loadScope (s : ScopeAddr) : Except Fault NaviScope :=
  match st.scopes s with
  | some sc => .ok sc
  | none => .error .useAfterFree

/-- Writing a scope. -/
def setScope (s : ScopeAddr) (sc : NaviScope) : Store :=
  { st with scopes := Function.update st.scopes s (some sc) }

@[simp] theorem cells_setScope (s : ScopeAddr) (sc : NaviScope) :
    (st.setScope s sc).cells = st.cells := rfl

@[simp] theorem first_setScope (s : ScopeAddr) (sc : NaviScope) :
    (st.setScope s sc).first = st.first := rfl

theorem load_eq {a : Addr} {c : Cell} (h : st.cells a = some c) : st.load a = .ok c := by
  rw [load, h]

theorem loadScope_eq {s : ScopeAddr} {sc : NaviScope} (h : st.scopes s = some sc) :
    st.loadScope s = .ok sc := by
  rw [loadScope, h]

end Store

/-- `navi_type`, of an object at hand. -/
def Store.naviType (st : Store) : NaviObj → Except Fault NaviType
  | .void => .ok .naviVoid
  | .nil => .ok .naviNil
  | .eof => .ok .naviEof
  | .fixnum _ => .ok .naviFixnum
  | .bool _ => .ok .naviBool
  | .char _ => .ok .naviChar
  | .ptr a => (st.load a).map Cell.type

end NaviScheme
