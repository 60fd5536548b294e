import NaviScheme.Lib.Lisp
import NaviScheme.Eval.Formals
import NaviScheme.Eval.Handover
import NaviScheme.Frame.Switch
import Mathlib.Data.List.Forall2

/-!
# Values and frames in memory

Objects stand for the values of the language (`NaviScheme.ValueAt`), and scopes for its frames
(`NaviScheme.World.Lives`). What an object stands for is settled by what can be reached from it,
and does not change as long as that is left as it is (`NaviScheme.ValueAt.builds`).
-/

namespace NaviScheme

/-- The constants: the immediates, but for the empty list. -/
inductive Constant
  | void
  | eof
  | fixnum (n : ℤ)
  | bool (b : Bool)
  | char (c : ℕ)
  deriving DecidableEq, Repr

/-- The immediate of a constant. -/
def Constant.obj : Constant → NaviObj
  | .void => .void
  | .eof => .eof
  | .fixnum n => .fixnum n
  | .bool b => .bool b
  | .char c => .char c

/-- The values of the language. -/
abbrev Value := Lisp.Val Constant String Builtin

/-- The frames of the language. -/
abbrev FrameStore := Lisp.Store Constant String Builtin

/-- The type of a value. -/
def Value.type : Value → NaviType
  | .nil => .naviNil
  | .const .void => .naviVoid
  | .const .eof => .naviEof
  | .const (.fixnum _) => .naviFixnum
  | .const (.bool _) => .naviBool
  | .const (.char _) => .naviChar
  | .sym _ => .naviSymbol
  | .pair _ _ => .naviPair
  | .closure _ _ _ | .prim _ => .naviProcedure
  | .special _ => .naviSpecial

/-- The values that an argument may have. -/
def ArgType.Admits : ArgType → Value → Prop
  | .naviAny, _ => True
  | .naviList, v => v.type = .naviPair ∨ v.type = .naviNil
  | .naviProperList, v => ∃ vs, v = .list vs
  | .naviByte, v => ∃ n : ℤ, v = .const (.fixnum n) ∧ 0 ≤ n ∧ n < 256
  | .type t, v => v.type = t

/-- What `DEFUN` and `DEFSPECIAL` say of the arguments. -/
structure BuiltinSpec where
  /-- the arity -/
  arity : ℕ
  /-- `NAVI_PROC_VARIADIC` -/
  variadic : Bool
  /-- the types -/
  types : List ArgType
  deriving DecidableEq, Repr

/-- The arguments are as many as they should be, and of the types they should be of. -/
structure BuiltinSpec.Admits (s : BuiltinSpec) (vs : List Value) : Prop where
  /-- the arity -/
  arity : vs.length = s.arity ∨ s.variadic = true ∧ s.arity < vs.length
  /-- the types -/
  types : ∀ p ∈ vs.zip s.types, p.2.Admits p.1

theorem BuiltinSpec.Admits.of_variadic {s : BuiltinSpec} {vs : List Value} (hs : s.variadic = true)
    (hlen : s.arity ≤ vs.length) (htypes : ∀ t ∈ s.types, t = .naviAny) : s.Admits vs where
  arity := hlen.eq_or_lt.imp Eq.symm fun hlt => ⟨hs, hlt⟩
  types p hp := by
    rw [htypes p.2 (List.of_mem_zip hp).2]
    trivial

/-- The procedure of a declaration. -/
structure NaviProcedure.Declares (p : NaviProcedure) (f : Builtin) (s : BuiltinSpec) : Prop where
  /-- the C function -/
  body : p.body = .cProc f
  /-- the arity -/
  arity : p.arity = s.arity
  /-- `NAVI_PROC_VARIADIC` -/
  variadic : p.variadic = s.variadic
  /-- the types -/
  types : p.types = some s.types

/-- The C functions of the special forms. -/
def specialFn : Lisp.Special → Builtin
  | .quote => .scmQuote
  | .if => .scmIf
  | .lambda => .scmLambda
  | .begin => .scmBegin
  | .and => .scmAnd
  | .or => .scmOr
  | .cond => .scmCond
  | .case => .scmCase
  | .let => .scmLet
  | .letStar => .scmSequentialLet
  | .define => .scmDefine
  | .set => .scmSet

/-- How the special forms are declared. -/
def specialSpec : Lisp.Special → BuiltinSpec
  | .quote => ⟨1, false, [.naviAny]⟩
  | .if => ⟨2, true, [.naviAny, .naviAny]⟩
  | .lambda => ⟨2, true, [.naviAny, .naviAny]⟩
  | .begin => ⟨1, true, [.naviAny]⟩
  | .and | .or => ⟨0, true, []⟩
  | .cond => ⟨1, true, [.naviAny]⟩
  | .case => ⟨2, true, [.naviAny, .naviAny]⟩
  | .let | .letStar => ⟨2, true, [.naviAny, .naviAny]⟩
  | .define => ⟨2, true, [.naviAny, .naviAny]⟩
  | .set => ⟨2, false, [.type .naviSymbol, .naviAny]⟩

/-- The builtins that are not told apart by name: how they are declared, and what they compute. -/
structure OtherBuiltins where
  /-- the declarations -/
  spec : ℕ → BuiltinSpec
  /-- the values at arguments -/
  meaning : ℕ → List Value → Option Value

/-- How the primitives are declared. -/
def OtherBuiltins.primSpec (B : OtherBuiltins) : Builtin → Option BuiltinSpec
  | .scmCons => some ⟨2, false, [.naviAny, .naviAny]⟩
  | .scmCar => some ⟨1, false, [.type .naviPair]⟩
  | .scmCdr => some ⟨1, false, [.type .naviPair]⟩
  | .scmList => some ⟨0, true, []⟩
  | .other n => some (B.spec n)
  | _ => none

/-- The language of the interpreter. -/
def OtherBuiltins.lang (B : OtherBuiltins) : Lisp.Lang Constant String Builtin where
  unspecified := .void
  true := .bool true
  false := .bool false
  els := "else"
  arrow := "=>"
  isTrue c := naviIsTrue c.obj
  prim
    | .scmCons, [u, v] => some (.pair u v)
    | .scmCar, [.pair u _] => some u
    | .scmCdr, [.pair _ v] => some v
    | .scmList, vs => some (.list vs)
    | .other n, vs => B.meaning n vs
    | _, _ => none

variable {B : OtherBuiltins} {w w' w'' : World} {o : NaviObj} {v : Value} {S : Addr → Prop}

/-- **What an object stands for.** -/
inductive ValueAt (B : OtherBuiltins) (w : World) : NaviObj → Value → Prop
  | nil : ValueAt B w .nil .nil
  | const (c : Constant) : ValueAt B w c.obj (.const c)
  | sym {o : NaviObj} {x : String} (ho : IsSym w o x) : ValueAt B w o (.sym x)
  | pair {o car cdr : NaviObj} {u v : Value} (ho : IsPair w o car cdr) (hcar : ValueAt B w car u)
    (hcdr : ValueAt B w cdr v) : ValueAt B w o (.pair u v)
  | closure {o body : NaviObj} {p : NaviProcedure} {fs es : Value}
    (ho : w.load o = .ok (.naviProcedure, .proc p)) (hfs : fs.IsFormals)
    (hargs : ValueAt B w p.args fs) (harity : p.arity = fs.arity)
    (hvariadic : p.variadic = fs.variadic) (htypes : p.types = none)
    (hbody : p.body = .body body) (hes : ValueAt B w body es) (henv : p.env < w.nextScope) :
    ValueAt B w o (.closure fs es p.env)
  | special {o : NaviObj} {p : NaviProcedure} {s : Lisp.Special}
    (ho : w.load o = .ok (.naviSpecial, .proc p)) (hp : p.Declares (specialFn s) (specialSpec s)) :
    ValueAt B w o (.special s)
  | prim {o : NaviObj} {p : NaviProcedure} {f : Builtin} {s : BuiltinSpec}
    (ho : w.load o = .ok (.naviProcedure, .proc p)) (hf : B.primSpec f = some s)
    (hp : p.Declares f s) : ValueAt B w o (.prim f)

/-! ### Worlds that grow -/

/-- A world with more in it, and with other contents at the addresses `S`. -/
structure World.Builds (w : World) (S : Addr → Prop) (w' : World) : Prop where
  /-- the other objects are as they were -/
  objs : ∀ a c, ¬ S a → w.objs a = some c → w'.objs a = some c
  /-- so are the names -/
  symtab : w'.symtab = w.symtab
  /-- no scope has been given back -/
  nextScope : w.nextScope ≤ w'.nextScope

namespace World.Builds

theorem refl (w : World) (S : Addr → Prop) : w.Builds S w := ⟨fun _ _ _ h => h, rfl, le_rfl⟩

theorem trans (h : w.Builds S w') (h' : w'.Builds S w'') : w.Builds S w'' :=
  ⟨fun a c ha hc => h'.objs a c ha (h.objs a c ha hc), h'.symtab.trans h.symtab,
    h.nextScope.trans h'.nextScope⟩

theorem load {c : NaviType × Data} (h : w.Builds S w') (ho : Avoids S o) (hc : w.load o = .ok c) :
    w'.load o = .ok c := by
  obtain ⟨a, rfl⟩ := World.ptr_of_load hc
  exact World.load_ptr (h.objs a c ho (World.objs_of_load hc))

theorem isSym {x : String} (h : w.Builds S w') (ho : IsSym w o x) : IsSym w' o x := by
  rw [IsSym, h.symtab]
  exact ho

end World.Builds

theorem avoids_body {p : NaviProcedure} {body : NaviObj} (h : (Data.proc p).Avoids S)
    (hbody : p.body = .body body) : Avoids S p.args ∧ Avoids S body := by
  refine ⟨h _ ?_, h _ ?_⟩ <;> simp [Data.objs, hbody]

/-- **An object stands for what it stood for**, if nothing has changed but at addresses that the
world hides from it. -/
theorem ValueAt.builds (h : ValueAt B w o v) (hS : w.Hides S) (ho : Avoids S o)
    (hw : w.Builds S w') : ValueAt B w' o v := by
  induction h with
  | nil => exact .nil
  | const c => exact .const c
  | sym hsym => exact .sym (hw.isSym hsym)
  | pair hpair _ _ ihcar ihcdr =>
    obtain ⟨hcar, hcdr⟩ := (Data.avoids_pair _ _).mp (hS.load ho hpair)
    exact .pair (hw.load ho hpair) (ihcar (hcar _ rfl)) (ihcdr (hcdr _ rfl))
  | closure hload hfs _ harity hvariadic htypes hbody _ henv ihargs ihbody =>
    obtain ⟨hargs, hes⟩ := avoids_body (hS.load ho hload) hbody
    exact .closure (hw.load ho hload) hfs (ihargs hargs) harity hvariadic htypes hbody (ihbody hes)
      (henv.trans_le hw.nextScope)
  | special hload hp => exact .special (hw.load ho hload) hp
  | prim hload hf hp => exact .prim (hw.load ho hload) hf hp

theorem World.hides_nowhere (w : World) : w.Hides nowhere where
  objs _ c _ _ := c.2.avoids_nowhere
  scopes _ _ _ b _ := ⟨avoids_nowhere b.symbol, avoids_nowhere b.object⟩
  symtab _ _ h := h
  libraries l _ := ⟨avoids_nowhere l.name, avoids_nowhere l.list⟩

theorem ValueAt.grows (h : ValueAt B w o v) (hw : w.Builds nowhere w') : ValueAt B w' o v :=
  h.builds w.hides_nowhere (avoids_nowhere o) hw

/-- What stands for a value has been allocated. -/
theorem ValueAt.has (h : ValueAt B w o v) (hw : w.Closed) : w.Has o := by
  have hload {c : NaviType × Data} (hc : w.load o = .ok c) : w.Has o := by
    obtain ⟨a, rfl⟩ := World.ptr_of_load hc
    intro hnot
    rw [World.load, hw.objs a hnot] at hc
    cases hc
  cases h with
  | nil => trivial
  | const c => cases c <;> trivial
  | @sym _ x hsym =>
    obtain ⟨a, rfl, ha⟩ := hsym
    obtain ⟨l, l', hl, -⟩ := List.lookup_eq_some_iff.mp ha
    exact hw.hides.symtab (x, a) (by simp [hl])
  | pair hpair => exact hload hpair
  | closure ho => exact hload ho
  | special ho => exact hload ho
  | prim ho => exact hload ho

/-- **What `navi_type` says.** -/
theorem ValueAt.computes_naviType {F : FnSig} (h : ValueAt B w o v) (hw : w.Wf) :
    Computes (naviType o : Prog evalOps F _) w v.type w := by
  cases h with
  | nil => exact Computes.ret _
  | const c => cases c <;> exact Computes.ret _
  | sym hsym => exact NaviScheme.computes_naviType (hsym.load hw)
  | pair hpair => exact NaviScheme.computes_naviType hpair
  | closure ho => exact NaviScheme.computes_naviType ho
  | special ho => exact NaviScheme.computes_naviType ho
  | prim ho => exact NaviScheme.computes_naviType ho

/-- No value is a bounce. -/
theorem Value.type_ne_naviBounce (v : Value) : v.type ≠ .naviBounce := by
  rcases v with _ | (_ | _ | _ | _ | _) | _ | _ | _ | _ | _ <;> exact nofun

theorem Value.type_eq_naviVoid {v : Value} (h : v.type = .naviVoid) : v = .const .void := by
  rcases v with _ | (_ | _ | _ | _ | _) | _ | _ | _ | _ | _ <;> first | rfl | cases h

theorem naviIsTrue_of_load {c : NaviType × Data} (h : w.load o = .ok c) : naviIsTrue o = true := by
  obtain ⟨a, rfl⟩ := World.ptr_of_load h
  rfl

/-- What counts as truth. -/
theorem ValueAt.isTrue_iff (h : ValueAt B w o v) : naviIsTrue o = true ↔ B.lang.Holds v := by
  cases h with
  | const => exact Iff.rfl
  | nil => exact iff_of_true rfl trivial
  | sym hsym =>
    obtain ⟨a, rfl, -⟩ := hsym
    exact iff_of_true rfl trivial
  | pair ho => exact iff_of_true (naviIsTrue_of_load ho) trivial
  | closure ho => exact iff_of_true (naviIsTrue_of_load ho) trivial
  | special ho => exact iff_of_true (naviIsTrue_of_load ho) trivial
  | prim ho => exact iff_of_true (naviIsTrue_of_load ho) trivial

/-! ### Lists -/

/-- What stands for a list is one. -/
theorem ValueAt.spine {es : List Value} (h : ValueAt B w o (.list es)) :
    ∃ pairs os, Spine w o pairs os ∧ List.Forall₂ (ValueAt B w) os es := by
  induction es generalizing o with
  | nil =>
    cases h
    exact ⟨[], [], .nil, .nil⟩
  | cons e es ih =>
    obtain _ | _ | _ | ⟨hpair, hcar, hcdr⟩ := h
    obtain ⟨pairs, os, hs, hos⟩ := ih hcdr
    exact ⟨_, _, .cons hpair hs, .cons hcar hos⟩

theorem valueAt_list {pairs os : List NaviObj} {es : List Value} (h : Spine w o pairs os)
    (hos : List.Forall₂ (ValueAt B w) os es) : ValueAt B w o (.list es) := by
  induction h generalizing es with
  | nil =>
    cases hos
    exact .nil
  | cons hpair _ ih =>
    cases hos with
    | cons hcar hos => exact .pair hpair hcar (ih hos)

end NaviScheme
