import Mathlib.Algebra.Group.Nat.Defs
import NaviScheme.Heap.Object

/-!
# The collector

`gc_mark` and `gc_sweep` of `heap.c`. Marking is a recursion through the fields of objects
that never asks whether an object is marked already, so it is given a bound on its depth.
It follows the second word of a bounce as it does that of a pair, but that word is a
pointer to a scope (`NaviScheme.Data.cdr`); what is found there, read as an object, is part
of the link of the scope (`NaviScheme.ScopeLayout`).
-/

namespace NaviScheme

/-- Where the scopes are in memory. The tag of an object is where a scope has the low half
of `link.le_prev`, the address of a pointer. -/
structure ScopeLayout where
  /-- `link.le_prev` -/
  lePrev : ScopeAddr → ℕ
  aligned : ∀ s, 8 ∣ lePrev s

/-- Scopes one after another. -/
def ScopeLayout.spaced : ScopeLayout where
  lePrev s := 8 * s
  aligned s := ⟨s, rfl⟩

/-- The tag that a scope has when it is read as an object. -/
def ScopeLayout.tag (L : ScopeLayout) (s : ScopeAddr) : Option NaviType :=
  naviTypes[L.lePrev s % 2 ^ 32]?

/-- `gc_set_mark` -/
def gcSetMark (obj : NaviObj) (st : Store) : Except Fault Store :=
  match obj with
  | .ptr a => do
    let c ← st.load a
    return st.setCell a { c with mark := true }
  | _ => .error .badWord

/-- `gc_mark_obj`. A word that is not an object makes it follow a stray pointer. -/
def gcMarkObj (L : ScopeLayout) : ℕ → Word → Store → Except Fault Store
  | 0, _, _ => .error .timeout
  | _ + 1, .unassigned, _ => .error .badWord
  | _ + 1, .other, _ => .error .badWord
  | n + 1, .scope s, st => do
    let sc ← st.loadScope s
    match L.tag s with
    | none | some .naviVoid => return st
    | some .naviString => return st.setScope s { sc with linkMarked := true }
    | some .naviThunk =>
      let st := st.setScope s { sc with linkMarked := true }
      match sc.next with
      | none => return st
      | some next => gcMarkObj L n (.scope next) st
    -- the alignment of pointers leaves no other tag
    | some _ => .error .badWord
  | n + 1, .obj (.ptr a), st => do
    let c ← st.load a
    match c.type with
    | .naviVoid | .naviNil | .naviEof | .naviFixnum | .naviBool | .naviChar => return st
    | .naviPair | .naviBounce | .naviParameter =>
      let st ← gcSetMark (.ptr a) st
      let st ← gcMarkObj L n c.data.car st
      gcMarkObj L n c.data.cdr st
    | .naviPort =>
      let st ← gcSetMark (.ptr a) st
      gcMarkObj L n c.data.portExpr st
    | .naviSymbol | .naviString | .naviBytevec => gcSetMark (.ptr a) st
    | .naviVector | .naviValues | .naviCaselambda =>
      let st ← gcSetMark (.ptr a) st
      c.data.elems.foldlM (fun st w => gcMarkObj L n w st) st
    | .naviThunk =>
      let st ← gcSetMark (.ptr a) st
      gcMarkObj L n c.data.car st
    | .naviMacro | .naviSpecial | .naviPromise | .naviProcedure =>
      let st ← gcSetMark (.ptr a) st
      match c.data with
      | .proc p =>
        let st ← gcMarkObj L n (.obj p.args) st
        let st ← gcSetMark p.name st
        match p.body with
        | .cProc _ => return st
        | .body body => gcMarkObj L n (.obj body) st
      | _ => .error .badWord
    | .naviEscape =>
      let st ← gcSetMark (.ptr a) st
      gcMarkObj L n c.data.escapeArg st
    | .naviEnvironment => gcSetMark (.ptr a) st
    | .naviTrap => .error .die
  | _ + 1, .obj _, st => .ok st

/-- `gc_mark_env` -/
def gcMarkEnv (L : ScopeLayout) (n : ℕ) (s : ScopeAddr) (st : Store) : Except Fault Store := do
  let sc ← st.loadScope s
  let st ← sc.bindings.foldlM (fun st binding => do
    let st ← gcSetMark binding.symbol st
    gcMarkObj L n (.obj binding.object) st) st
  sc.guards.foldlM (fun st guard => gcMarkObj L n (.obj guard.obj) st) st

/-- `gc_mark` -/
def gcMark (L : ScopeLayout) (n : ℕ) (st : Store) : Except Fault Store :=
  st.active.foldlM (fun st s => gcMarkEnv L n s st) st

/-- `_navi_scope_unref` and `navi_scope_free`; `n` bounds the length of the chain of
scopes that are freed. -/
def naviScopeUnref : ℕ → ScopeAddr → Store → Store
  | 0, _, st => st
  | n + 1, s, st =>
    match st.scopes s with
    | none => st
    | some sc =>
      let refs := (sc.refs + (2 ^ 32 - 1)) % 2 ^ 32
      if refs = 0 then
        let st := { st with
          active := st.active.erase s
          scopes := Function.update st.scopes s none }
        match sc.next with
        | none => st
        | some next => naviScopeUnref n next st
      else st.setScope s { sc with refs := refs }

/-- `_navi_scope_unref`. A scope is newer than its `next`. -/
def Store.unref (st : Store) (s : ScopeAddr) : Store := naviScopeUnref (s + 1) s st

/-- `navi_env_unref` -/
def Store.envUnref (st : Store) (env : NaviEnv) : Store :=
  (st.unref env.lexical).unref env.dynamic

/-- `navi_free` -/
def naviFree (a : Addr) (st : Store) : Except Fault Store := do
  let c ← st.load a
  match c.type with
  | .naviThunk | .naviBounce =>
    match c.data with
    | .thunk _ env => return (st.envUnref env).freeCell a
    | _ => .error .badWord
  | .naviProcedure =>
    match c.data with
    | .proc p => return (st.unref p.env).freeCell a
    | _ => .error .badWord
  | .naviEnvironment =>
    match c.data with
    | .environment env => return (st.envUnref env).freeCell a
    | _ => .error .badWord
  | .naviSymbol =>
    -- remove interned symbols from symbol table
    return { st with symtab := st.symtab.filter fun entry => entry.2 ≠ a }.freeCell a
  | _ => return st.freeCell a

/-- `NAVI_SLIST_REMOVE_HEAD(&heap, link)` -/
def removeHead (st : Store) : Except Fault Store :=
  match st.first with
  | none => .error .badWord
  | some a => do
    let c ← st.load a
    return { st with first := c.link }

/-- `NAVI_SLIST_REMOVE_AFTER(last, link)` -/
def removeAfter (last : Addr) (st : Store) : Except Fault Store := do
  let c ← st.load last
  match c.link with
  | none => .error .badWord
  | some a => do
    let removed ← st.load a
    return st.setCell last { c with link := removed.link }

/-- The removal in `gc_sweep`. -/
def gcUnlink (obj : Addr) (last : Option Addr) (st : Store) : Except Fault Store :=
  if st.first = some obj then removeHead st
  else match last with
    | some last => removeAfter last st
    | none => .error .badWord

/-- The loop of `gc_sweep`: `obj` and `last`, and the objects freed so far. -/
def gcSweepLoop : ℕ → Option Addr → Option Addr → Store → List Addr →
    Except Fault (Store × List Addr)
  | 0, _, _, _, _ => .error .timeout
  | _ + 1, none, _, st, freed => .ok (st, freed)
  | n + 1, some obj, last, st, freed => do
    let c ← st.load obj
    let p := c.link
    if c.mark then
      gcSweepLoop n p (some obj) (st.setCell obj { c with mark := false }) freed
    else if c.protect then
      gcSweepLoop n p (some obj) st freed
    else if c.type = .naviSymbol then
      gcSweepLoop n p (some obj) st freed
    else
      let st ← gcUnlink obj last st
      let st ← naviFree obj st
      gcSweepLoop n p last st (freed ++ [obj])

/-- `gc_sweep`, with the objects freed, in order. -/
def gcSweep (n : ℕ) (st : Store) : Except Fault (Store × List Addr) :=
  gcSweepLoop n st.first st.first st []

/-- `do_gc_collect` -/
def doGcCollect (L : ScopeLayout) (n : ℕ) (st : Store) : Except Fault (Store × List Addr) := do
  let st ← gcMark L n st
  gcSweep n st

end NaviScheme
