import Mathlib.Algebra.Group.Action.Option
import Mathlib.Algebra.Group.Action.Prod
import Mathlib.Algebra.Group.End
import Mathlib.Algebra.Module.PUnit
import NaviScheme.Eval.Function
import NaviScheme.Lib.Uniform

/-!
# Objects at other addresses

A readdressing (`NaviScheme.Readdressing`) gives the objects other addresses. It acts on
everything that has addresses in it: objects and their contents, bindings and libraries, the
operations on memory and the functions of the evaluator. Numbers, names, scopes and types are
left as they are (`NaviScheme.Fixed`).

Thunks have addresses of their own, and no pair is ever at one of them, if nothing that is not
a thunk is stored there (`NaviScheme.orderly`).
-/

namespace NaviScheme

open Prog

/-- Other addresses: for the objects, and for the thunks. -/
def Readdressing : Type := Equiv.Perm ℕ × Equiv.Perm ℕ

namespace Readdressing

instance : Group Readdressing := inferInstanceAs (Group (Equiv.Perm ℕ × Equiv.Perm ℕ))

/-- Where an object is. -/
def addr (g : Readdressing) : Addr → Addr
  | .obj n => .obj (g.1 n)
  | .thunk n => .thunk (g.2 n)

end Readdressing

variable {g : Readdressing}

/-! ### What has no addresses in it -/

/-- A type whose values have no addresses in them. -/
class Fixed (α : Type) [SMul Readdressing α] : Prop where
  smul_eq (g : Readdressing) (a : α) : g • a = a

export Fixed (smul_eq)

attribute [simp] smul_eq

/-- The action on values without addresses. -/
@[reducible] def fixedAction (α : Type) : MulAction Readdressing α where
  smul _ a := a
  one_smul _ := rfl
  mul_smul _ _ _ := rfl

instance : MulAction Readdressing ℕ := fixedAction ℕ
instance : MulAction Readdressing ℤ := fixedAction ℤ
instance : MulAction Readdressing Bool := fixedAction Bool
instance : MulAction Readdressing String := fixedAction String
instance : MulAction Readdressing Unit := fixedAction Unit
instance : MulAction Readdressing Empty := fixedAction Empty
instance : MulAction Readdressing NaviType := fixedAction NaviType
instance : MulAction Readdressing NaviEnv := fixedAction NaviEnv

instance : Fixed ℕ := ⟨fun _ _ => rfl⟩
instance : Fixed ℤ := ⟨fun _ _ => rfl⟩
instance : Fixed Bool := ⟨fun _ _ => rfl⟩
instance : Fixed String := ⟨fun _ _ => rfl⟩
instance : Fixed Unit := ⟨fun _ _ => rfl⟩
instance : Fixed Empty := ⟨fun _ _ => rfl⟩
instance : Fixed NaviType := ⟨fun _ _ => rfl⟩
instance : Fixed NaviEnv := ⟨fun _ _ => rfl⟩

instance {α : Type} [MulAction Readdressing α] [Fixed α] : Fixed (Option α) where
  smul_eq g o := by cases o <;> simp

instance {α β : Type} [MulAction Readdressing α] [Fixed α] [MulAction Readdressing β] [Fixed β] :
    Fixed (α × β) where
  smul_eq g p := by simp [Prod.smul_def]

/-! ### Objects -/

instance : MulAction Readdressing Addr where
  smul := Readdressing.addr
  one_smul a := by cases a <;> rfl
  mul_smul g g' a := by cases a <;> rfl

@[simp] theorem smul_obj (n : ℕ) : g • Addr.obj n = .obj (g.1 n) := rfl
@[simp] theorem smul_thunk (n : ℕ) : g • Addr.thunk n = .thunk (g.2 n) := rfl

/-- An object at another address. -/
def NaviObj.at (g : Readdressing) : NaviObj → NaviObj
  | .ptr a => .ptr (g • a)
  | o => o

instance : MulAction Readdressing NaviObj where
  smul := NaviObj.at
  one_smul o := by
    cases o with
    | ptr a => exact congrArg NaviObj.ptr (one_smul _ a)
    | _ => rfl
  mul_smul g g' o := by
    cases o with
    | ptr a => exact congrArg NaviObj.ptr (mul_smul g g' a)
    | _ => rfl

@[simp] theorem smul_ptr (a : Addr) : g • NaviObj.ptr a = .ptr (g • a) := rfl
@[simp] theorem smul_void : g • NaviObj.void = .void := rfl
@[simp] theorem smul_nil : g • NaviObj.nil = .nil := rfl
@[simp] theorem smul_eof : g • NaviObj.eof = .eof := rfl
@[simp] theorem smul_fixnum (n : ℤ) : g • NaviObj.fixnum n = .fixnum n := rfl
@[simp] theorem smul_bool (b : Bool) : g • NaviObj.bool b = .bool b := rfl
@[simp] theorem smul_char (c : ℕ) : g • NaviObj.char c = .char c := rfl

@[simp] theorem smul_eq_nil {o : NaviObj} : g • o = .nil ↔ o = .nil := by cases o <;> simp
@[simp] theorem smul_eq_void {o : NaviObj} : g • o = .void ↔ o = .void := by cases o <;> simp
@[simp] theorem smul_eq_eof {o : NaviObj} : g • o = .eof ↔ o = .eof := by cases o <;> simp

/-! ### Lists -/

section List

variable {α : Type} [MulAction Readdressing α] {l : List α}

instance : MulAction Readdressing (List α) where
  smul g l := l.map (g • ·)
  one_smul l := (List.map_congr_left fun a _ => one_smul _ a).trans l.map_id
  mul_smul g g' _ := (List.map_congr_left fun a _ => mul_smul g g' a).trans List.map_map.symm

theorem smul_list : g • l = l.map (g • ·) := rfl

@[simp] theorem smul_list_nil : g • ([] : List α) = [] := rfl
@[simp] theorem smul_list_cons (a : α) : g • (a :: l) = g • a :: g • l := rfl

@[simp] theorem smul_list_append (l' : List α) : g • (l ++ l') = g • l ++ g • l' := List.map_append

@[simp] theorem length_smul : (g • l).length = l.length := List.length_map _

@[simp] theorem getElem?_smul (i : ℕ) : (g • l)[i]? = g • l[i]? := List.getElem?_map

@[simp] theorem getLast?_smul : (g • l).getLast? = g • l.getLast? := List.getLast?_map

@[simp] theorem toList_smul (o : Option α) : (g • o).toList = g • o.toList := by cases o <;> rfl

@[simp] theorem mem_smul {a : α} : g • a ∈ g • l ↔ a ∈ l :=
  List.mem_map_of_injective (MulAction.injective g)

end List

/-! ### Contents -/

instance : MulAction Readdressing ProcBody where
  smul g
    | .body obj => .body (g • obj)
    | .cProc f => .cProc f
  one_smul b := by
    cases b with
    | body o => exact congrArg ProcBody.body (one_smul _ o)
    | cProc f => rfl
  mul_smul g g' b := by
    cases b with
    | body o => exact congrArg ProcBody.body (mul_smul g g' o)
    | cProc f => rfl

@[simp] theorem smul_body (o : NaviObj) : g • ProcBody.body o = .body (g • o) := rfl
@[simp] theorem smul_cProc (f : Builtin) : g • ProcBody.cProc f = .cProc f := rfl

instance : MulAction Readdressing NaviProcedure where
  smul g p := { p with name := g • p.name, args := g • p.args, body := g • p.body }
  one_smul p := by
    change ({ p with name := _, args := _, body := _ } : NaviProcedure) = p
    simp only [one_smul]
  mul_smul g g' p := by
    change ({ p with name := _, args := _, body := _ } : NaviProcedure) = _
    simp only [mul_smul]
    rfl

theorem smul_procedure (p : NaviProcedure) :
    g • p = { p with name := g • p.name, args := g • p.args, body := g • p.body } := rfl

@[simp] theorem arity_smul (p : NaviProcedure) : (g • p).arity = p.arity := rfl
@[simp] theorem types_smul (p : NaviProcedure) : (g • p).types = p.types := rfl
@[simp] theorem name_smul (p : NaviProcedure) : (g • p).name = g • p.name := rfl
@[simp] theorem args_smul (p : NaviProcedure) : (g • p).args = g • p.args := rfl
@[simp] theorem body_smul (p : NaviProcedure) : (g • p).body = g • p.body := rfl
@[simp] theorem env_smul (p : NaviProcedure) : (g • p).env = p.env := rfl

/-- Contents with the addresses of a readdressing. -/
def Data.at (g : Readdressing) : Data → Data
  | .pair car cdr => .pair (g • car) (g • cdr)
  | .thunk expr env => .thunk (g • expr) env
  | .proc p => .proc (g • p)
  | .vector data => .vector (g • data)
  | .bytevec data => .bytevec data
  | .string data => .string data
  | .symbol data interned => .symbol data interned
  | .escape env arg => .escape env (g • arg)
  | .port expr file pos => .port (g • expr) file pos
  | .environment env => .environment env

instance : MulAction Readdressing Data where
  smul := Data.at
  one_smul d := by
    change d.at 1 = d
    cases d <;> simp only [Data.at, one_smul]
  mul_smul g g' d := by
    change d.at (g * g') = (d.at g').at g
    cases d <;> simp only [Data.at, mul_smul]

@[simp] theorem smul_pair (car cdr : Option NaviObj) :
    g • Data.pair car cdr = .pair (g • car) (g • cdr) := rfl
@[simp] theorem smul_thunkData (expr : NaviObj) (env : NaviEnv) :
    g • Data.thunk expr env = .thunk (g • expr) env := rfl
@[simp] theorem smul_proc (p : NaviProcedure) : g • Data.proc p = .proc (g • p) := rfl
@[simp] theorem smul_vector (data : List (Option NaviObj)) :
    g • Data.vector data = .vector (g • data) := rfl
@[simp] theorem smul_bytevec (data : List ℕ) : g • Data.bytevec data = .bytevec data := rfl
@[simp] theorem smul_string (data : String) : g • Data.string data = .string data := rfl
@[simp] theorem smul_symbol (data : String) (interned : Bool) :
    g • Data.symbol data interned = .symbol data interned := rfl
@[simp] theorem smul_escape (env : Option NaviEnv) (arg : Option NaviObj) :
    g • Data.escape env arg = .escape env (g • arg) := rfl
@[simp] theorem smul_port (expr : NaviObj) (file pos : ℕ) :
    g • Data.port expr file pos = .port (g • expr) file pos := rfl
@[simp] theorem smul_environment (env : NaviEnv) :
    g • Data.environment env = .environment env := rfl

/-! ### Bindings and libraries -/

instance : MulAction Readdressing NaviBinding where
  smul g b := ⟨g • b.symbol, g • b.object⟩
  one_smul b := by
    change NaviBinding.mk _ _ = b
    simp only [one_smul]
  mul_smul g g' b := by
    change NaviBinding.mk _ _ = _
    simp only [mul_smul]
    rfl

@[simp] theorem symbol_smul (b : NaviBinding) : (g • b).symbol = g • b.symbol := rfl
@[simp] theorem object_smul (b : NaviBinding) : (g • b).object = g • b.object := rfl

instance : MulAction Readdressing NaviLibrary where
  smul g l := { l with name := g • l.name, list := g • l.list }
  one_smul l := by
    change ({ l with name := _, list := _ } : NaviLibrary) = l
    simp only [one_smul]
  mul_smul g g' l := by
    change ({ l with name := _, list := _ } : NaviLibrary) = _
    simp only [mul_smul]
    rfl

theorem smul_library (l : NaviLibrary) :
    g • l = { l with name := g • l.name, list := g • l.list } := rfl

/-- A readdressing does not change which of two objects is looked up. -/
@[simp] theorem lookupIn_smul (bs : List NaviBinding) (symbol : NaviObj) :
    lookupIn (g • bs) (g • symbol) = g • lookupIn bs symbol := by
  induction bs with
  | nil => rfl
  | cons b bs ih =>
    simp only [lookupIn, smul_list_cons, List.find?_cons, symbol_smul] at ih ⊢
    by_cases h : b.symbol = symbol
    · simp [h]
    · simpa [h] using ih

/-! ### Operations -/

instance : SMul Readdressing EvalOp where
  smul g
    | .load o => .load (g • o)
    | .store o d => .store (g • o) (g • d)
    | .retag o t => .retag (g • o) t
    | .make t d => .make t (g • d)
    | .makeSymbol str => .makeSymbol str
    | .count c => .count c
    | .walk o => .walk (g • o)
    | .makeScope next => .makeScope next
    | .scopeRef s => .scopeRef s
    | .scopeUnref s => .scopeUnref s
    | .envBinding s symbol => .envBinding s (g • symbol)
    | .setBinding s symbol object => .setBinding s (g • symbol) (g • object)
    | .scopeSet s symbol object => .scopeSet s (g • symbol) (g • object)
    | .scopeUnset s symbol => .scopeUnset s (g • symbol)
    | .globalScope s => .globalScope s
    | .bindings s => .bindings s
    | .guard o s => .guard (g • o) s
    | .unguard guard => .unguard guard
    | .gcCheck held => .gcCheck { held with objs := g • held.objs }
    | .gcCollect held => .gcCollect { held with objs := g • held.objs }
    | .gcDisable => .gcDisable
    | .gcEnable => .gcEnable
    | .libraries => .libraries
    | .registerLibrary name declarations => .registerLibrary (g • name) (g • declarations)
    | .setLibrary lib exports env => .setLibrary lib (g • exports) env
    | .evaluating expr env => .evaluating (g • expr) env
    | .fail φ => .fail φ

/-- The action on what an operation replies. -/
@[reducible] def EvalOp.replyAction : (o : EvalOp) → MulAction Readdressing o.Reply
  | .load _ => (inferInstance : MulAction Readdressing (NaviType × Data))
  | .make _ _ | .makeSymbol _ => (inferInstance : MulAction Readdressing NaviObj)
  | .count _ | .registerLibrary _ _ => (inferInstance : MulAction Readdressing ℕ)
  | .libraries => (inferInstance : MulAction Readdressing (List NaviLibrary))
  | .walk _ => (inferInstance : MulAction Readdressing (List NaviObj × NaviObj))
  | .makeScope _ | .globalScope _ => (inferInstance : MulAction Readdressing ℕ)
  | .envBinding _ _ => (inferInstance : MulAction Readdressing (Option (ℕ × NaviObj)))
  | .bindings _ => (inferInstance : MulAction Readdressing (List NaviBinding))
  | .guard _ _ => (inferInstance : MulAction Readdressing (Option (ℕ × ℕ)))
  | .fail _ => (inferInstance : MulAction Readdressing Empty)
  | .store _ _ | .retag _ _ | .scopeRef _ | .scopeUnref _ | .setBinding _ _ _ | .scopeSet _ _ _
  | .scopeUnset _ _ | .unguard _ | .gcCheck _ | .gcCollect _ | .gcDisable | .gcEnable
  | .setLibrary _ _ _ | .evaluating _ _ => (inferInstance : MulAction Readdressing Unit)

instance (o : EvalOp) : MulAction Readdressing o.Reply := o.replyAction

instance : RenamesOps Readdressing evalOps where
  reply_smul g o := by cases o <;> rfl

/-! ### Functions -/

instance : SMul Readdressing Locals where
  smul g held := { held with objs := g • held.objs }

instance : SMul Readdressing EvalFn where
  smul g
    | .naviEval expr env => .naviEval (g • expr) env
    | .evalLoop expr env => .evalLoop (g • expr) env
    | .eval_ expr env => .eval_ (g • expr) env
    | .evalCall expr env => .evalCall (g • expr) env
    | .naviApply_ proc args env => .naviApply_ (g • proc) (g • args) env
    | .doApply proc nrArgs args env => .doApply (g • proc) nrArgs (g • args) env
    | .cProc f nrArgs args env => .cProc f nrArgs (g • args) env
    | .procedureCall proc args env => .procedureCall (g • proc) (g • args) env
    | .operandLoop cons ptr env => .operandLoop (g • cons) (g • ptr) env
    | .caselambdaCall lambda args env => .caselambdaCall (g • lambda) (g • args) env
    | .beginLoop cons result env => .beginLoop (g • cons) (g • result) env
    | .andLoop cons env => .andLoop (g • cons) env
    | .orLoop cons env => .orLoop (g • cons) env
    | .evalQq expr env => .evalQq (g • expr) env
    | .qqLoop cons first last env => .qqLoop (g • cons) (g • first) (g • last) env
    | .evalClause arg begin env => .evalClause (g • arg) (g • begin) env
    | .condLoop cons env => .condLoop (g • cons) env
    | .naviLoad filename ci inEnv outEnv => .naviLoad (g • filename) ci inEnv outEnv
    | .loadLoop fst port inEnv => .loadLoop (g • fst) (g • port) inEnv
    | .includeLoop cons ci env => .includeLoop (g • cons) ci env
    | .letLoop cons env new => .letLoop (g • cons) env new
    | .letValuesLoop cons env => .letValuesLoop (g • cons) env
    | .naviParameterConvert param obj env => .naviParameterConvert (g • param) (g • obj) env
    | .parameterizeParams cons params env => .parameterizeParams (g • cons) (g • params) env
    | .parameterizeVals cons env new => .parameterizeVals (g • cons) env new
    | .importValid set => .importValid (g • set)
    | .getImportEnv set env => .getImportEnv (g • set) env
    | .naviImport imports env => .naviImport (g • imports) env
    | .importLoop cons env => .importLoop (g • cons) env
    | .doLoadLibrary lib env => .doLoadLibrary lib env
    | .loadDeclarations cons exports libEnv => .loadDeclarations (g • cons) (g • exports) libEnv
    | .naviRaise args env => .naviRaise (g • args) env
    | .applyForce proc args env => .applyForce (g • proc) (g • args) env
    | .memberLoop obj cons proc env => .memberLoop (g • obj) (g • cons) (g • proc) env
    | .assocLoop obj cons proc env => .assocLoop (g • obj) (g • cons) (g • proc) env
    | .forEachLoop proc lists env => .forEachLoop (g • proc) (g • lists) env
    | .mapLoop proc lists result last env =>
      .mapLoop (g • proc) (g • lists) (g • result) (g • last) env
    | .vectorMapIpLoop proc dst src i size env =>
      .vectorMapIpLoop (g • proc) (g • dst) (g • src) i size env
    | .vectorForEachLoop proc vecs i minLen env =>
      .vectorForEachLoop (g • proc) (g • vecs) i minLen env
    | .vectorMapLoop proc vecs result i minLen env =>
      .vectorMapLoop (g • proc) (g • vecs) (g • result) i minLen env

/-- The action on what a function returns. -/
@[reducible] def EvalFn.retAction : (f : EvalFn) → MulAction Readdressing f.Ret
  | .naviRaise _ _ => (inferInstance : MulAction Readdressing Empty)
  | .operandLoop _ _ _ | .letLoop _ _ _ | .letValuesLoop _ _ | .parameterizeVals _ _ _
  | .naviImport _ _ | .importLoop _ _ | .doLoadLibrary _ _ | .forEachLoop _ _ _
  | .vectorMapIpLoop _ _ _ _ _ _ | .vectorForEachLoop _ _ _ _ _
  | .vectorMapLoop _ _ _ _ _ _ => (inferInstance : MulAction Readdressing Unit)
  | .importValid _ => (inferInstance : MulAction Readdressing Bool)
  | .getImportEnv _ _ => (inferInstance : MulAction Readdressing NaviEnv)
  | .naviEval _ _ | .evalLoop _ _ | .eval_ _ _ | .evalCall _ _ | .naviApply_ _ _ _
  | .doApply _ _ _ _ | .cProc _ _ _ _ | .procedureCall _ _ _ | .caselambdaCall _ _ _
  | .beginLoop _ _ _ | .andLoop _ _ | .orLoop _ _ | .evalQq _ _ | .qqLoop _ _ _ _
  | .evalClause _ _ _ | .condLoop _ _ | .naviLoad _ _ _ _ | .loadLoop _ _ _ | .includeLoop _ _ _
  | .naviParameterConvert _ _ _ | .parameterizeParams _ _ _ | .loadDeclarations _ _ _
  | .applyForce _ _ _ | .memberLoop _ _ _ _ | .assocLoop _ _ _ _ | .mapLoop _ _ _ _ _ =>
    (inferInstance : MulAction Readdressing NaviObj)

instance (f : EvalFn) : MulAction Readdressing f.Ret := f.retAction

instance : RenamesFns Readdressing evalFns where
  ret_smul g f := by cases f <;> rfl

instance : MulAction Readdressing EvalExn where
  smul g
    | .escape o => .escape (g • o)
    | .unhandled args => .unhandled (g • args)
  one_smul e := by
    cases e with
    | escape o => exact congrArg EvalExn.escape (one_smul _ o)
    | unhandled args => exact congrArg EvalExn.unhandled (one_smul _ args)
  mul_smul g g' e := by
    cases e with
    | escape o => exact congrArg EvalExn.escape (mul_smul g g' o)
    | unhandled args => exact congrArg EvalExn.unhandled (mul_smul g g' args)

instance (f : Empty) : MulAction Readdressing (Empty.elim f : Type) := f.elim

instance (E : Type) : RenamesFns Readdressing (noCalls E) where
  ret_smul _ f := f.elim

/-! ### Where thunks are, there is no pair -/

/-- Contents that may be at an object: a pair is never at the address of a thunk. -/
def NaviObj.MayHold : NaviObj → Data → Prop
  | .ptr (.thunk _), .pair _ _ => False
  | _, _ => True

/-- Nothing but a thunk is made where thunks are, and no pair is stored there. -/
def orderly : OpContract evalOps where
  asks
    | .store o d => o.MayHold d
    | .make t d => t = .naviThunk → ∀ n, (NaviObj.ptr (.thunk n)).MayHold d
    | _ => True
  gives
    | .load o, c => o.MayHold c.2
    | _, _ => True

end NaviScheme
