import NaviScheme.Heap.Object
import NaviScheme.Lib.Prog

/-!
# The world of the evaluator

The operations that the functions of the evaluator perform on memory
(`NaviScheme.EvalOp`), and what they do when memory is never given back: a
`NaviScheme.World` has objects and scopes, and no trace of the collector. The operations
that are for the collector only (guards, reference counts, the checks themselves) do
nothing in it.

The world also records what is evaluated, and where, in `log`; no operation reads it.
-/

namespace NaviScheme

/-- What a function keeps in its locals, to be used after it has called another. -/
structure Locals where
  /-- the objects -/
  objs : List NaviObj
  /-- the scopes -/
  scopes : List ScopeAddr
  deriving DecidableEq, Repr

/-- The static counters from which names are made. -/
inductive Counter
  /-- of `navi_make_lambda` -/
  | lam
  /-- of `_navi_make_parameter` -/
  | param
  deriving DecidableEq, Repr

/-- `struct navi_library` -/
structure NaviLibrary where
  /-- the address -/
  id : ℕ
  /-- `loaded` -/
  loaded : Bool
  /-- `name` -/
  name : NaviObj
  /-- `declarations`, and once it is loaded `exports`, in the same place -/
  list : NaviObj
  /-- `env`, once it is loaded -/
  env : Option NaviEnv
  deriving DecidableEq, Repr

/-- The operations on memory. -/
inductive EvalOp
  /-- Reading the tag and the contents of an object. -/
  | load (o : NaviObj)
  /-- Writing the contents of an object. -/
  | store (o : NaviObj) (d : Data)
  /-- Writing the tag of an object. -/
  | retag (o : NaviObj) (t : NaviType)
  /-- Allocating an object. -/
  | make (t : NaviType) (d : Data)
  /-- `navi_make_symbol` -/
  | makeSymbol (str : String)
  /-- The next value of a counter. -/
  | count (c : Counter)
  /-- `navi_list_for_each`, when the body leaves the list alone: the pairs of a list, and
  what ends it. -/
  | walk (o : NaviObj)
  /-- `navi_make_scope`, and setting `next`. -/
  | makeScope (next : Option ScopeAddr)
  /-- `_navi_scope_ref` -/
  | scopeRef (s : ScopeAddr)
  /-- `_navi_scope_unref` -/
  | scopeUnref (s : ScopeAddr)
  /-- `navi_env_binding`: the scope that has the binding, and its object. -/
  | envBinding (s : ScopeAddr) (symbol : NaviObj)
  /-- Writing the object of a binding. -/
  | setBinding (s : ScopeAddr) (symbol object : NaviObj)
  /-- `navi_scope_set` -/
  | scopeSet (s : ScopeAddr) (symbol object : NaviObj)
  /-- `navi_scope_unset` -/
  | scopeUnset (s : ScopeAddr) (symbol : NaviObj)
  /-- `get_global_scope` -/
  | globalScope (s : ScopeAddr)
  /-- The bindings of a scope. -/
  | bindings (s : ScopeAddr)
  /-- `navi_gc_guard`: the guard, unless the object is an immediate. -/
  | guard (o : NaviObj) (s : ScopeAddr)
  /-- `navi_gc_unguard` -/
  | unguard (guard : Option (ScopeAddr × ℕ))
  /-- `navi_gc_check`, and what its caller keeps. -/
  | gcCheck (held : Locals)
  /-- `navi_gc_collect`, and what its caller keeps. -/
  | gcCollect (held : Locals)
  /-- `navi_gc_disable` -/
  | gcDisable
  /-- `navi_gc_enable` -/
  | gcEnable
  /-- `libraries`, as one list -/
  | libraries
  /-- `NAVI_LIST_INSERT_HEAD` of a library that is not loaded yet; its address. -/
  | registerLibrary (name declarations : NaviObj)
  /-- Writing `loaded`, `exports` and `env` of a library. -/
  | setLibrary (lib : ℕ) (exports : NaviObj) (env : NaviEnv)
  /-- `_eval` is entered. -/
  | evaluating (expr : NaviObj) (env : NaviEnv)
  /-- Something goes wrong. -/
  | fail (φ : Fault)

/-- What an operation replies. -/
def EvalOp.Reply : EvalOp → Type
  | .load _ => NaviType × Data
  | .make _ _ | .makeSymbol _ => NaviObj
  | .count _ | .registerLibrary _ _ => ℕ
  | .libraries => List NaviLibrary
  | .walk _ => List NaviObj × NaviObj
  | .makeScope _ | .globalScope _ => ScopeAddr
  | .envBinding _ _ => Option (ScopeAddr × NaviObj)
  | .bindings _ => List NaviBinding
  | .guard _ _ => Option (ScopeAddr × ℕ)
  | .fail _ => Empty
  | _ => Unit

/-- The operations with their replies. -/
abbrev evalOps : OpSig := ⟨EvalOp, EvalOp.Reply⟩

/-- A scope without the fields for the collector. -/
structure WorldScope where
  /-- `next` -/
  next : Option ScopeAddr
  /-- `bindings` -/
  bindings : List NaviBinding
  deriving DecidableEq, Repr

/-- Memory that is never given back. -/
structure World where
  /-- the objects -/
  objs : Addr → Option (NaviType × Data)
  /-- the scopes -/
  scopes : ScopeAddr → Option WorldScope
  /-- the symbol table -/
  symtab : List (String × Addr)
  /-- the next address of an object -/
  nextObj : ℕ
  /-- the next address of a thunk -/
  nextThunk : ℕ
  /-- the next address of a scope -/
  nextScope : ℕ
  /-- the next address of a guard -/
  nextGuard : ℕ
  /-- the counters -/
  counter : Counter → ℕ
  /-- the libraries, the newest first -/
  libraries : List NaviLibrary
  /-- what has been evaluated -/
  log : List (NaviObj × NaviEnv)

/-- The object a binding list has for a symbol. -/
def lookupIn (bindings : List NaviBinding) (symbol : NaviObj) : Option NaviObj :=
  (bindings.find? fun b => b.symbol = symbol).map NaviBinding.object

/-- `navi_scope_set`, on the bindings. -/
def setIn (bindings : List NaviBinding) (symbol object : NaviObj) : List NaviBinding :=
  if (lookupIn bindings symbol).isSome then
    bindings.map fun b => if b.symbol = symbol then { b with object := object } else b
  else ⟨symbol, object⟩ :: bindings

namespace World

variable (w : World)

/-- Reading an object. -/
def load : NaviObj → Except Fault (NaviType × Data)
  | .ptr a =>
    match w.objs a with
    | some c => .ok c
    | none => .error .useAfterFree
  | _ => .error .badWord

/-- Writing an object. -/
def setObj (a : Addr) (c : NaviType × Data) : World :=
  { w with objs := Function.update w.objs a (some c) }

/-- Allocating an object. Thunks come from a cache of their own. -/
def make (t : NaviType) (d : Data) : NaviObj × World :=
  if t = .naviThunk then
    (.ptr (.thunk w.nextThunk),
      { w.setObj (.thunk w.nextThunk) (t, d) with nextThunk := w.nextThunk + 1 })
  else (.ptr (.obj w.nextObj), { w.setObj (.obj w.nextObj) (t, d) with nextObj := w.nextObj + 1 })

/-- `navi_make_symbol` -/
def makeSymbol (str : String) : NaviObj × World :=
  match w.symtab.lookup str with
  | some a => (.ptr a, w)
  | none =>
    let (o, w) := w.make .naviSymbol (.symbol str true)
    match o with
    | .ptr a => (o, { w with symtab := (str, a) :: w.symtab })
    | _ => (o, w)

/-- The pairs of a list, and what ends it; `n` bounds their number. -/
def walk : ℕ → NaviObj → Except Fault (List NaviObj × NaviObj)
  | 0, _ => .error .hang
  | n + 1, .ptr a =>
    match w.objs a with
    | none => .error .useAfterFree
    | some (.naviPair, .pair _ (some cdr)) => do
      let (pairs, last) ← walk n cdr
      return (.ptr a :: pairs, last)
    | some (.naviPair, _) => .error .badWord
    | some _ => .ok ([], .ptr a)
  | _ + 1, o => .ok ([], o)

/-- Reading a scope. -/
def loadScope (s : ScopeAddr) : Except Fault WorldScope :=
  match w.scopes s with
  | some sc => .ok sc
  | none => .error .useAfterFree

/-- Writing the bindings of a scope. -/
def setBindings (s : ScopeAddr) (f : List NaviBinding → List NaviBinding) : Except Fault World := do
  let sc ← w.loadScope s
  return { w with
    scopes := Function.update w.scopes s (some { sc with bindings := f sc.bindings }) }

/-- `navi_env_binding`, along a chain of at most `n` scopes. -/
def envBinding (symbol : NaviObj) : ℕ → ScopeAddr → Except Fault (Option (ScopeAddr × NaviObj))
  | 0, _ => .error .hang
  | n + 1, s => do
    let sc ← w.loadScope s
    match lookupIn sc.bindings symbol with
    | some o => return some (s, o)
    | none =>
      match sc.next with
      | some next => envBinding symbol n next
      | none => return none

/-- `get_global_scope`, along a chain of at most `n` scopes. -/
def globalScope : ℕ → ScopeAddr → Except Fault ScopeAddr
  | 0, _ => .error .hang
  | n + 1, s => do
    let sc ← w.loadScope s
    match sc.next with
    | some next => globalScope n next
    | none => return s

/-- What an operation does. A list without a cycle has fewer pairs than there are objects,
and a chain of scopes no more than there are. -/
def step : (o : EvalOp) → World → Except Fault (o.Reply × World)
  | .load o, w => (w.load o).map (·, w)
  | .store o d, w =>
    match o with
    | .ptr a => do
      let c ← w.load (.ptr a)
      return ((), w.setObj a (c.1, d))
    | _ => .error .badWord
  | .retag o t, w =>
    match o with
    | .ptr a => do
      let c ← w.load (.ptr a)
      return ((), w.setObj a (t, c.2))
    | _ => .error .badWord
  | .make t d, w => .ok (w.make t d)
  | .makeSymbol str, w => .ok (w.makeSymbol str)
  | .count c, w =>
    .ok (w.counter c, { w with counter := Function.update w.counter c (w.counter c + 1) })
  | .walk o, w => (w.walk (w.nextObj + 1) o).map (·, w)
  | .makeScope next, w =>
    .ok (w.nextScope, { w with
      scopes := Function.update w.scopes w.nextScope (some ⟨next, []⟩)
      nextScope := w.nextScope + 1 })
  | .envBinding s symbol, w => (w.envBinding symbol (s + 1) s).map (·, w)
  | .setBinding s symbol object, w =>
    (w.setBindings s fun bs => if (lookupIn bs symbol).isSome then setIn bs symbol object else bs).map
      ((), ·)
  | .scopeSet s symbol object, w => (w.setBindings s (setIn · symbol object)).map ((), ·)
  | .scopeUnset s symbol, w =>
    (w.setBindings s fun bs => bs.filter fun b => b.symbol ≠ symbol).map ((), ·)
  | .globalScope s, w => (w.globalScope (s + 1) s).map (·, w)
  | .bindings s, w => (w.loadScope s).map fun sc => (sc.bindings, w)
  | .guard o s, w =>
    match o with
    | .nil | .eof | .fixnum _ | .bool _ | .char _ => .ok (none, w)
    | _ => .ok (some (s, w.nextGuard), { w with nextGuard := w.nextGuard + 1 })
  | .libraries, w => .ok (w.libraries, w)
  | .registerLibrary name declarations, w =>
    .ok (w.libraries.length, { w with
      libraries := ⟨w.libraries.length, false, name, declarations, none⟩ :: w.libraries })
  | .setLibrary lib exports env, w =>
    .ok ((), { w with
      libraries := w.libraries.map fun l =>
        if l.id = lib then { l with loaded := true, list := exports, env := some env } else l })
  | .evaluating expr env, w => .ok ((), { w with log := (expr, env) :: w.log })
  | .fail φ, _ => .error φ
  | .scopeRef _, w | .scopeUnref _, w | .unguard _, w | .gcCheck _, w | .gcCollect _, w
  | .gcDisable, w | .gcEnable, w => .ok ((), w)

end World

end NaviScheme
