import NaviScheme.Eval.Function
import NaviScheme.Lib.Contract

/-!
# What avoids given addresses

`NaviScheme.Spares` says of a program that it spares the objects at some addresses: given
objects that are not among them, it neither reads nor writes them, stores no reference to
them, and returns none. It is a contract (`NaviScheme.sparing`), so that a function is seen to
keep to it from its body alone; that the memory keeps to its side of the contract is another
matter.

The contract also says whether the switch of the collector may be turned.
-/

namespace NaviScheme

open Prog

/-! ### Avoiding addresses -/

/-- An object that is not one of those at the addresses `S`. -/
def Avoids (S : Addr → Prop) : NaviObj → Prop
  | .ptr a => ¬ S a
  | _ => True

/-- The objects that an object refers to. -/
def Data.objs : Data → List NaviObj
  | .pair car cdr => car.toList ++ cdr.toList
  | .thunk expr _ => [expr]
  | .proc p => p.name :: p.args ::
    match p.body with
    | .body body => [body]
    | .cProc _ => []
  | .vector data => data.filterMap id
  | .escape _ arg => arg.toList
  | .port expr _ _ => [expr]
  | .bytevec _ | .string _ | .symbol _ _ | .environment _ => []

/-- Contents that refer to nothing at the addresses `S`. -/
def Data.Avoids (S : Addr → Prop) (d : Data) : Prop := ∀ o ∈ d.objs, NaviScheme.Avoids S o

/-- A procedure that refers to nothing at the addresses `S`. -/
def NaviProcedure.Avoids (S : Addr → Prop) (p : NaviProcedure) : Prop :=
  NaviScheme.Avoids S p.name ∧ NaviScheme.Avoids S p.args ∧
    ∀ body, p.body = .body body → NaviScheme.Avoids S body

/-- A binding that refers to nothing at the addresses `S`. -/
def NaviBinding.Avoids (S : Addr → Prop) (b : NaviBinding) : Prop :=
  NaviScheme.Avoids S b.symbol ∧ NaviScheme.Avoids S b.object

/-- A library that refers to nothing at the addresses `S`. -/
def NaviLibrary.Avoids (S : Addr → Prop) (l : NaviLibrary) : Prop :=
  NaviScheme.Avoids S l.name ∧ NaviScheme.Avoids S l.list

/-- Objects none of which is at the addresses `S`. -/
def AllAvoid (S : Addr → Prop) (os : List NaviObj) : Prop := ∀ o ∈ os, Avoids S o

/-- Words of an array none of which, as far as they are assigned, is at the addresses `S`. -/
def WordsAvoid (S : Addr → Prop) (data : List (Option NaviObj)) : Prop :=
  ∀ o, some o ∈ data → Avoids S o

section Avoids

variable {S : Addr → Prop} {o : NaviObj} {os os' : List NaviObj} {data : List (Option NaviObj)}

@[simp, grind =] theorem avoids_void : Avoids S .void ↔ True := .rfl
@[simp, grind =] theorem avoids_nil : Avoids S .nil ↔ True := .rfl
@[simp, grind =] theorem avoids_eof : Avoids S .eof ↔ True := .rfl
@[simp, grind =] theorem avoids_fixnum (n : ℤ) : Avoids S (.fixnum n) ↔ True := .rfl
@[simp, grind =] theorem avoids_bool (b : Bool) : Avoids S (.bool b) ↔ True := .rfl

@[simp, grind =] theorem avoids_char (c : ℕ) : Avoids S (.char c) ↔ True := .rfl

@[simp, grind =] theorem allAvoid_nil : AllAvoid S [] ↔ True := by simp [AllAvoid]

@[simp, grind =] theorem allAvoid_cons : AllAvoid S (o :: os) ↔ Avoids S o ∧ AllAvoid S os := by
  simp [AllAvoid]

@[simp, grind =] theorem allAvoid_append :
    AllAvoid S (os ++ os') ↔ AllAvoid S os ∧ AllAvoid S os' := by
  simp [AllAvoid, or_imp, forall_and]

theorem AllAvoid.mono (h : AllAvoid S os) (hsub : os' ⊆ os) : AllAvoid S os' :=
  fun o ho => h o (hsub ho)

@[grind →] theorem AllAvoid.of_mem (h : AllAvoid S os) (ho : o ∈ os) : Avoids S o := h o ho

@[simp, grind =] theorem wordsAvoid_nil : WordsAvoid S [] ↔ True := by simp [WordsAvoid]

@[simp, grind =] theorem wordsAvoid_none : WordsAvoid S (none :: data) ↔ WordsAvoid S data := by
  simp [WordsAvoid]

@[simp, grind =] theorem wordsAvoid_some :
    WordsAvoid S (some o :: data) ↔ Avoids S o ∧ WordsAvoid S data := by
  simp [WordsAvoid]

@[grind →] theorem WordsAvoid.of_mem (h : WordsAvoid S data) (ho : some o ∈ data) : Avoids S o :=
  h o ho

@[grind =] theorem wordsAvoid_map : WordsAvoid S (os.map some) ↔ AllAvoid S os := by
  simp [WordsAvoid, AllAvoid]

theorem WordsAvoid.set {i : ℕ} (h : WordsAvoid S data) (ho : Avoids S o) :
    WordsAvoid S (data.set i (some o)) := by
  intro o' ho'
  obtain heq | ho' := List.mem_or_eq_of_mem_set ho' |>.symm
  · cases heq
    exact ho
  · exact h o' ho'

namespace Data

@[grind =] theorem avoids_pair (car cdr : Option NaviObj) :
    Data.Avoids S (.pair car cdr) ↔
      (∀ o, car = some o → NaviScheme.Avoids S o) ∧ ∀ o, cdr = some o → NaviScheme.Avoids S o := by
  simp [Data.Avoids, objs, or_imp, forall_and]

@[grind =] theorem avoids_thunk (expr : NaviObj) (env : NaviEnv) :
    Data.Avoids S (.thunk expr env) ↔ NaviScheme.Avoids S expr := by
  simp [Data.Avoids, objs]

@[grind =] theorem avoids_proc (p : NaviProcedure) : Data.Avoids S (.proc p) ↔ p.Avoids S := by
  cases hp : p.body <;> simp [Data.Avoids, objs, NaviProcedure.Avoids, hp]

@[grind =] theorem avoids_vector (data : List (Option NaviObj)) :
    Data.Avoids S (.vector data) ↔ WordsAvoid S data := by
  simp [Data.Avoids, objs, WordsAvoid]

@[grind =] theorem avoids_escape (env : Option NaviEnv) (arg : Option NaviObj) :
    Data.Avoids S (.escape env arg) ↔ ∀ o, arg = some o → NaviScheme.Avoids S o := by
  simp [Data.Avoids, objs]

@[grind =] theorem avoids_port (expr : NaviObj) (file pos : ℕ) :
    Data.Avoids S (.port expr file pos) ↔ NaviScheme.Avoids S expr := by
  simp [Data.Avoids, objs]

@[grind =] theorem avoids_bytevec (data : List ℕ) : Data.Avoids S (.bytevec data) ↔ True := by
  simp [Data.Avoids, objs]

@[grind =] theorem avoids_string (str : String) : Data.Avoids S (.string str) ↔ True := by
  simp [Data.Avoids, objs]

@[grind =] theorem avoids_symbol (str : String) (interned : Bool) :
    Data.Avoids S (.symbol str interned) ↔ True := by
  simp [Data.Avoids, objs]

@[grind =] theorem avoids_environment (env : NaviEnv) :
    Data.Avoids S (.environment env) ↔ True := by
  simp [Data.Avoids, objs]

end Data

end Avoids

/-! ### The contract -/

/-- The objects among the arguments of a function. -/
def EvalFn.objs : EvalFn → List NaviObj
  | .naviEval expr _ | .evalLoop expr _ | .eval_ expr _ | .evalQq expr _ => [expr]
  | .evalCall expr _ => [expr]
  | .naviApply_ proc args _ | .doApply proc _ args _ | .procedureCall proc args _
  | .applyForce proc args _ => [proc, args]
  | .cProc _ _ args _ | .naviRaise args _ => [args]
  | .operandLoop cons ptr _ => [cons, ptr]
  | .caselambdaCall lambda args _ => [lambda, args]
  | .beginLoop cons result _ => cons :: result.toList
  | .andLoop cons _ | .orLoop cons _ | .condLoop cons _ | .includeLoop cons _ _
  | .letLoop cons _ _ | .letValuesLoop cons _ | .parameterizeVals cons _ _
  | .importLoop cons _ => [cons]
  | .qqLoop cons first last _ => cons :: (first.toList ++ last.toList)
  | .evalClause arg begin _ => [arg, begin]
  | .naviLoad filename _ _ _ => [filename]
  | .loadLoop fst port _ => [fst, port]
  | .naviParameterConvert param obj _ => [param, obj]
  | .parameterizeParams cons params _ => [cons, params]
  | .importValid set | .getImportEnv set _ => [set]
  | .naviImport imports _ => [imports]
  | .doLoadLibrary _ _ => []
  | .loadDeclarations cons exports _ => [cons, exports]
  | .memberLoop obj cons proc _ | .assocLoop obj cons proc _ => [obj, cons, proc]
  | .forEachLoop proc lists _ => proc :: lists
  | .mapLoop proc lists result last _ => proc :: result :: last :: lists
  | .vectorMapIpLoop proc dst src _ _ _ => [proc, dst, src]
  | .vectorForEachLoop proc vecs _ _ _ => proc :: vecs
  | .vectorMapLoop proc vecs result _ _ _ => proc :: result :: vecs

/-- The arguments of a function avoid the addresses `S`. -/
def EvalFn.Avoids (S : Addr → Prop) (f : EvalFn) : Prop := AllAvoid S f.objs

/-- What a function returns avoids the addresses `S`, if it is an object. -/
def EvalFn.RetAvoids (S : Addr → Prop) : (f : EvalFn) → f.Ret → Prop
  | .naviEval _ _, (o : NaviObj) | .evalLoop _ _, (o : NaviObj) | .eval_ _ _, (o : NaviObj)
  | .evalCall _ _, (o : NaviObj) | .naviApply_ _ _ _, (o : NaviObj)
  | .doApply _ _ _ _, (o : NaviObj) | .cProc _ _ _ _, (o : NaviObj)
  | .procedureCall _ _ _, (o : NaviObj) | .caselambdaCall _ _ _, (o : NaviObj)
  | .beginLoop _ _ _, (o : NaviObj) | .andLoop _ _, (o : NaviObj) | .orLoop _ _, (o : NaviObj)
  | .evalQq _ _, (o : NaviObj) | .qqLoop _ _ _ _, (o : NaviObj)
  | .evalClause _ _ _, (o : NaviObj) | .condLoop _ _, (o : NaviObj)
  | .naviLoad _ _ _ _, (o : NaviObj) | .loadLoop _ _ _, (o : NaviObj)
  | .includeLoop _ _ _, (o : NaviObj) | .naviParameterConvert _ _ _, (o : NaviObj)
  | .parameterizeParams _ _ _, (o : NaviObj) | .loadDeclarations _ _ _, (o : NaviObj)
  | .applyForce _ _ _, (o : NaviObj) | .memberLoop _ _ _ _, (o : NaviObj)
  | .assocLoop _ _ _ _, (o : NaviObj) | .mapLoop _ _ _ _ _, (o : NaviObj) => NaviScheme.Avoids S o
  | .naviRaise _ _, _ | .operandLoop _ _ _, _ | .letLoop _ _ _, _ | .letValuesLoop _ _, _
  | .parameterizeVals _ _ _, _ | .naviImport _ _, _ | .importLoop _ _, _ | .doLoadLibrary _ _, _
  | .forEachLoop _ _ _, _ | .vectorMapIpLoop _ _ _ _ _ _, _ | .vectorForEachLoop _ _ _ _ _, _
  | .vectorMapLoop _ _ _ _ _ _, _ | .importValid _, _ | .getImportEnv _ _, _ => True

/-- The exceptions carry nothing at the addresses `S`. -/
def EvalExn.Avoids (S : Addr → Prop) : EvalExn → Prop
  | .escape o => NaviScheme.Avoids S o
  | .unhandled args => NaviScheme.Avoids S args

/-- The operations on what avoids `S`; `G` says whether the switch of the collector may be
turned. -/
def EvalOp.Spares (S : Addr → Prop) (G : Prop) : EvalOp → Prop
  | .load o | .retag o _ | .walk o => Avoids S o
  | .store o d => Avoids S o ∧ d.Avoids S
  | .make _ d => d.Avoids S
  | .setBinding _ symbol object | .scopeSet _ symbol object => Avoids S symbol ∧ Avoids S object
  | .registerLibrary name declarations => Avoids S name ∧ Avoids S declarations
  | .setLibrary _ exports _ => Avoids S exports
  | .gcDisable | .gcEnable => G
  | _ => True

/-- What an operation replies avoids the addresses `S`. -/
def EvalOp.ReplyAvoids (S : Addr → Prop) : (o : EvalOp) → o.Reply → Prop
  | .load _, (c : NaviType × Data) => c.2.Avoids S
  | .make _ _, (o : NaviObj) => Avoids S o
  | .makeSymbol _, (o : NaviObj) => Avoids S o
  | .walk _, (r : List NaviObj × NaviObj) => AllAvoid S r.1 ∧ Avoids S r.2
  | .envBinding _ _, (r : Option (ScopeAddr × NaviObj)) => ∀ s o, r = some (s, o) → Avoids S o
  | .bindings _, (bs : List NaviBinding) => ∀ b ∈ bs, b.Avoids S
  | .libraries, (ls : List NaviLibrary) => ∀ l ∈ ls, l.Avoids S
  | _, _ => True

/-- The operations spare the objects at the addresses `S`. -/
def sparingOps (S : Addr → Prop) (G : Prop) : OpContract evalOps :=
  ⟨EvalOp.Spares S G, EvalOp.ReplyAvoids S⟩

/-- The functions that evaluate spare the objects at the addresses `S`. -/
def sparing (S : Addr → Prop) : FnContract evalFns :=
  ⟨EvalFn.Avoids S, EvalFn.RetAvoids S, EvalExn.Avoids S⟩

/-- An error spares the objects at the addresses `S`. -/
def raising (S : Addr → Prop) : FnContract (noCalls NaviObj) :=
  ⟨fun f => Empty.elim f, fun f => Empty.elim f, Avoids S⟩

variable {α β : Type} {F : FnSig} {S : Addr → Prop} {G : Prop} {D : FnContract F}

/-- A program that spares the objects at the addresses `S`: it neither reads nor writes them,
nor passes them on. -/
def Spares (S : Addr → Prop) (G : Prop) (D : FnContract F) (p : Prog evalOps F α) (Q : α → Prop) :
    Prop :=
  Keeps (sparingOps S G) D p Q

/-! ### Operations -/

theorem spares_bind_iff {p : Prog evalOps F α} {g : α → Prog evalOps F β}
    {Q : β → Prop} : Spares S G D (p >>= g) Q ↔ Spares S G D p fun a => Spares S G D (g a) Q :=
  Keeps.bind_iff

@[grind ←] theorem spares_bind {p : Prog evalOps F α} {g : α → Prog evalOps F β} {Q : β → Prop}
    (h : Spares S G D p fun a => Spares S G D (g a) Q) : Spares S G D (p >>= g) Q :=
  spares_bind_iff.mpr h

theorem spares_ite_iff {c : Prop} [Decidable c] {p q : Prog evalOps F α} {Q : α → Prop} :
    Spares S G D (if c then p else q) Q ↔ if c then Spares S G D p Q else Spares S G D q Q := by
  by_cases hc : c <;> simp [hc]

theorem spares_ite {c : Prop} [Decidable c] {p q : Prog evalOps F α} {Q : α → Prop}
    (hp : c → Spares S G D p Q) (hq : ¬ c → Spares S G D q Q) :
    Spares S G D (if c then p else q) Q := by
  split_ifs with hc
  · exact hp hc
  · exact hq hc

@[grind ←] theorem spares_pure {a : α} {Q : α → Prop} (h : Q a) : Spares S G D (pure a) Q := h

@[grind ←] theorem spares_fail {φ : Fault} {Q : α → Prop} : Spares S G D (fail φ) Q :=
  ⟨trivial, fun r => r.elim⟩

@[grind ←] theorem spares_throw {args : NaviObj} {Q : α → Prop} (hargs : Avoids S args) :
    Spares S G (raising S) (.throw args : Leaf α) Q := hargs

theorem spares_perform {o : EvalOp} {Q : o.Reply → Prop} (ho : o.Spares S G)
    (h : ∀ r, o.ReplyAvoids S r → Q r) : Spares S G D (perform o) Q := ⟨ho, h⟩

@[grind ←] theorem spares_load {o : NaviObj} {Q : NaviType × Data → Prop} (ho : Avoids S o)
    (h : ∀ t d, d.Avoids S → Q (t, d)) : Spares S G D (load o) Q :=
  spares_perform ho fun r hr => h r.1 r.2 hr

@[grind ←] theorem spares_store {o : NaviObj} {d : Data} {Q : Unit → Prop} (ho : Avoids S o)
    (hd : d.Avoids S) (h : Q ()) : Spares S G D (store o d) Q :=
  spares_perform ⟨ho, hd⟩ fun _ _ => h

@[grind ←] theorem spares_make {t : NaviType} {d : Data} {Q : NaviObj → Prop} (hd : d.Avoids S)
    (h : ∀ r, Avoids S r → Q r) : Spares S G D (make t d) Q := spares_perform hd h

@[grind ←] theorem spares_retag {o : NaviObj} {t : NaviType} {Q : Unit → Prop} (ho : Avoids S o)
    (h : Q ()) : Spares S G D (retag o t) Q := spares_perform ho fun _ _ => h

@[grind ←] theorem spares_walk {o : NaviObj} {Q : List NaviObj × NaviObj → Prop} (ho : Avoids S o)
    (h : ∀ pairs last, AllAvoid S pairs → Avoids S last → Q (pairs, last)) :
    Spares S G D (walk o) Q := spares_perform ho fun r hr => h r.1 r.2 hr.1 hr.2

@[grind ←] theorem spares_naviMakeSymbol {str : String} {Q : NaviObj → Prop}
    (h : ∀ r, Avoids S r → Q r) : Spares S G D (naviMakeSymbol str) Q := spares_perform trivial h

@[grind ←] theorem spares_count {c : Counter} {Q : ℕ → Prop} (h : ∀ r, Q r) :
    Spares S G D (count c) Q := spares_perform trivial fun r _ => h r

@[grind ←] theorem spares_scopeRef {s : ScopeAddr} {Q : Unit → Prop} (h : Q ()) :
    Spares S G D (scopeRef s) Q := spares_perform trivial fun _ _ => h

@[grind ←] theorem spares_scopeUnref {s : ScopeAddr} {Q : Unit → Prop} (h : Q ()) :
    Spares S G D (scopeUnref s) Q := spares_perform trivial fun _ _ => h

@[grind ←] theorem spares_naviEnvBinding {s : ScopeAddr} {symbol : NaviObj}
    {Q : Option (ScopeAddr × NaviObj) → Prop}
    (h : ∀ r, (∀ s o, r = some (s, o) → Avoids S o) → Q r) :
    Spares S G D (naviEnvBinding s symbol) Q := spares_perform trivial h

@[grind ←] theorem spares_naviScopeSet {s : ScopeAddr} {symbol object : NaviObj} {Q : Unit → Prop}
    (hsymbol : Avoids S symbol) (hobject : Avoids S object) (h : Q ()) :
    Spares S G D (naviScopeSet s symbol object) Q :=
  spares_perform ⟨hsymbol, hobject⟩ fun _ _ => h

@[grind ←] theorem spares_setBinding {s : ScopeAddr} {symbol object : NaviObj} {Q : Unit → Prop}
    (hsymbol : Avoids S symbol) (hobject : Avoids S object) (h : Q ()) :
    Spares S G D (perform (.setBinding s symbol object)) Q :=
  spares_perform ⟨hsymbol, hobject⟩ fun _ _ => h

@[grind ←] theorem spares_naviScopeUnset {s : ScopeAddr} {symbol : NaviObj} {Q : Unit → Prop}
    (h : Q ()) : Spares S G D (naviScopeUnset s symbol) Q := spares_perform trivial fun _ _ => h

@[grind ←] theorem spares_getGlobalScope {s : ScopeAddr} {Q : ScopeAddr → Prop} (h : ∀ r, Q r) :
    Spares S G D (getGlobalScope s) Q := spares_perform trivial fun r _ => h r

@[grind ←] theorem spares_makeScope {next : Option ScopeAddr} {Q : ScopeAddr → Prop}
    (h : ∀ r, Q r) : Spares S G D (perform (.makeScope next)) Q :=
  spares_perform trivial fun r _ => h r

@[grind ←] theorem spares_bindings {s : ScopeAddr} {Q : List NaviBinding → Prop}
    (h : ∀ bs, (∀ b ∈ bs, b.Avoids S) → Q bs) : Spares S G D (perform (.bindings s)) Q :=
  spares_perform trivial h

@[grind ←] theorem spares_libraries {Q : List NaviLibrary → Prop}
    (h : ∀ ls, (∀ l ∈ ls, l.Avoids S) → Q ls) : Spares S G D (perform .libraries) Q :=
  spares_perform trivial h

@[grind ←] theorem spares_registerLibrary {name declarations : NaviObj} {Q : ℕ → Prop}
    (hname : Avoids S name) (hdeclarations : Avoids S declarations) (h : ∀ r, Q r) :
    Spares S G D (perform (.registerLibrary name declarations)) Q :=
  spares_perform ⟨hname, hdeclarations⟩ fun r _ => h r

@[grind ←] theorem spares_setLibrary {lib : ℕ} {exports : NaviObj} {env : NaviEnv}
    {Q : Unit → Prop} (hexports : Avoids S exports) (h : Q ()) :
    Spares S G D (perform (.setLibrary lib exports env)) Q :=
  spares_perform hexports fun _ _ => h

@[grind ←] theorem spares_evaluating {expr : NaviObj} {env : NaviEnv} {Q : Unit → Prop}
    (h : Q ()) : Spares S G D (perform (.evaluating expr env)) Q :=
  spares_perform trivial fun _ _ => h

@[grind ←] theorem spares_naviGcGuard {o : NaviObj} {env : NaviEnv}
    {Q : Option (ScopeAddr × ℕ) → Prop} (h : ∀ r, Q r) : Spares S G D (naviGcGuard o env) Q :=
  spares_perform trivial fun r _ => h r

@[grind ←] theorem spares_naviGcUnguard {guard : Option (ScopeAddr × ℕ)} {Q : Unit → Prop}
    (h : Q ()) : Spares S G D (naviGcUnguard guard) Q := spares_perform trivial fun _ _ => h

@[grind ←] theorem spares_gcCheck {held : Locals} {Q : Unit → Prop} (h : Q ()) :
    Spares S G D (perform (.gcCheck held)) Q := spares_perform trivial fun _ _ => h

@[grind ←] theorem spares_gcCollect {held : Locals} {Q : Unit → Prop} (h : Q ()) :
    Spares S G D (perform (.gcCollect held)) Q := spares_perform trivial fun _ _ => h

theorem lookupIn_eq_some {bs : List NaviBinding} {symbol o : NaviObj}
    (h : lookupIn bs symbol = some o) : ∃ b ∈ bs, b.object = o := by
  rw [lookupIn, Option.map_eq_some_iff] at h
  obtain ⟨b, hb, rfl⟩ := h
  exact ⟨b, List.mem_of_find?_eq_some hb, rfl⟩

end NaviScheme
