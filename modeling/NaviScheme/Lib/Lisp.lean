import Mathlib.Data.Nat.Notation
import Mathlib.Logic.Function.Basic

/-!
# A small Lisp

What programs mean whose text is data: numbers and other constants, symbols and pairs
(`Lisp.Val`). They are evaluated in frames, which bind names to values and can be changed; a
closure has the frame in which it was made. A form is told from a call by what its operator
evaluates to, not by how it is written (`Lisp.Runs`).

Memory does not occur here: two equal lists are the same value, and nothing says when one is
copied. An evaluation that goes wrong, or on and on, has no meaning.
-/

namespace Lisp

/-- The forms with rules of their own. -/
inductive Special
  | quote | if | lambda | begin | and | or | cond | case | let | letStar | define | set
  deriving DecidableEq, Repr

/-- Values, with constants `κ`, names `ν` and primitives `π`. -/
inductive Val (κ ν π : Type)
  | nil
  | const (c : κ)
  | sym (x : ν)
  | pair (car cdr : Val κ ν π)
  | closure (formals body : Val κ ν π) (frame : ℕ)
  | special (s : Special)
  | prim (p : π)
  deriving DecidableEq

variable {κ ν π : Type}

namespace Val

/-- A proper list. -/
def list : List (Val κ ν π) → Val κ ν π
  | [] => nil
  | v :: vs => pair v (list vs)

@[simp] theorem list_nil : (list [] : Val κ ν π) = nil := rfl

@[simp] theorem list_cons (v : Val κ ν π) (vs : List (Val κ ν π)) :
    list (v :: vs) = pair v (list vs) := rfl

/-- What evaluates to itself. -/
def IsAtom : Val κ ν π → Prop
  | sym _ | pair _ _ => False
  | _ => True

/-- What is the same as another value only if they are equal. -/
def IsScalar : Val κ ν π → Prop
  | nil | const _ | sym _ => True
  | _ => False

/-- Names with expressions, as `let` has them. -/
def inits (ds : List (ν × Val κ ν π)) : Val κ ν π := list (ds.map fun d => list [sym d.1, d.2])

/-- A test with expressions, as `cond` has them. -/
def clause (c : Val κ ν π × List (Val κ ν π)) : Val κ ν π := list (c.1 :: c.2)

/-- A list of names, at the end of which there may be one for the rest. -/
def IsFormals : Val κ ν π → Prop
  | nil | sym _ => True
  | pair (sym _) fs => IsFormals fs
  | _ => False

/-- How many arguments the names stand for, but for the rest. -/
def arity : Val κ ν π → ℕ
  | pair _ fs => arity fs + 1
  | _ => 0

/-- There is a name for the rest. -/
def variadic : Val κ ν π → Bool
  | pair _ fs => variadic fs
  | sym _ => true
  | _ => false

variable [DecidableEq ν]

/-- Binding names to arguments, one after another. -/
def bind : Val κ ν π → List (Val κ ν π) → (ν → Option (Val κ ν π)) → Option (ν → Option (Val κ ν π))
  | nil, [], vars => some vars
  | sym x, vs, vars => some (Function.update vars x (some (list vs)))
  | pair (sym x) fs, v :: vs, vars => bind fs vs (Function.update vars x (some v))
  | _, _, _ => none

end Val

/-- The bindings of a scope, inside of another. -/
structure Frame (κ ν π : Type) where
  /-- the frame around it -/
  parent : Option ℕ
  /-- the values of the names -/
  vars : ν → Option (Val κ ν π)

/-- The frames there are, by their numbers. -/
structure Store (κ ν π : Type) where
  /-- the frames -/
  frames : ℕ → Option (Frame κ ν π)
  /-- the number of the next frame -/
  next : ℕ

/-- Another value for a name. -/
def Frame.set [DecidableEq ν] (fr : Frame κ ν π) (x : ν) (v : Val κ ν π) : Frame κ ν π :=
  { fr with vars := Function.update fr.vars x (some v) }

/-- Another frame in the place of one. -/
def Store.put (σ : Store κ ν π) (f : ℕ) (fr : Frame κ ν π) : Store κ ν π :=
  { σ with frames := Function.update σ.frames f (some fr) }

/-- A frame more. -/
def Store.push (σ : Store κ ν π) (fr : Frame κ ν π) : Store κ ν π :=
  ⟨Function.update σ.frames σ.next (some fr), σ.next + 1⟩

section Store

variable {σ : Store κ ν π} {f : ℕ} {fr : Frame κ ν π}

@[simp] theorem Store.put_self : (σ.put f fr).frames f = some fr := Function.update_self _ _ _

theorem Store.put_of_ne {g : ℕ} (h : g ≠ f) : (σ.put f fr).frames g = σ.frames g :=
  Function.update_of_ne h _ _

@[simp] theorem Store.push_self : (σ.push fr).frames σ.next = some fr := Function.update_self _ _ _

theorem Store.push_of_ne (h : f ≠ σ.next) : (σ.push fr).frames f = σ.frames f :=
  Function.update_of_ne h _ _

end Store

/-- Looking a name up, from a frame outwards. -/
inductive Lookup (σ : Store κ ν π) (x : ν) : ℕ → ℕ → Val κ ν π → Prop
  | here {f : ℕ} {fr : Frame κ ν π} {v : Val κ ν π} (hf : σ.frames f = some fr)
    (hv : fr.vars x = some v) : Lookup σ x f f v
  | outer {f g h : ℕ} {fr : Frame κ ν π} {v : Val κ ν π} (hf : σ.frames f = some fr)
    (hv : fr.vars x = none) (hg : fr.parent = some g) (hrest : Lookup σ x g h v) :
    Lookup σ x f h v

/-- What is left open: some constants and names, and what primitives do. -/
structure Lang (κ ν π : Type) where
  /-- what a form returns that has nothing to return -/
  unspecified : κ
  /-- truth -/
  true : κ
  /-- the opposite -/
  false : κ
  /-- what counts as truth -/
  isTrue : κ → Bool
  /-- the test of a last clause -/
  els : ν
  /-- before a procedure in a clause -/
  arrow : ν
  /-- the value of a primitive at some arguments, if it has one -/
  prim : π → List (Val κ ν π) → Option (Val κ ν π)

/-- Whether a value counts as truth. -/
def Lang.Holds (L : Lang κ ν π) : Val κ ν π → Prop
  | .const c => L.isTrue c
  | _ => True

/-- A clause has a body, and an arrow in it is followed by one expression. -/
def Lang.IsClause (L : Lang κ ν π) (c : Val κ ν π × List (Val κ ν π)) : Prop :=
  ∃ e es, c.2 = e :: es ∧ (e = .sym L.arrow → es.length = 1)

/-- The clause of a `case` that a value selects, if it selects one. -/
inductive Lang.Selects (L : Lang κ ν π) (u : Val κ ν π) :
    List (Val κ ν π × List (Val κ ν π)) → Option (List (Val κ ν π)) → Prop
  | none : Selects L u [] none
  | els {es cs} : Selects L u ((.sym L.els, es) :: cs) (some es)
  | here {ds es cs} (h : u ∈ ds) : Selects L u ((.list ds, es) :: cs) (some es)
  | there {ds es cs r} (h : u ∉ ds) (hcs : Selects L u cs r) : Selects L u ((.list ds, es) :: cs) r

/-- What is to be done: an expression is evaluated, or the operands of a call, the expressions of
a body, of a conjunction or of a disjunction, the clauses of a `cond`, a clause that a value has
selected, or what the frame `g` binds. -/
inductive Task (κ ν π : Type)
  | expr (e : Val κ ν π)
  | operands (es : List (Val κ ν π))
  | body (es : List (Val κ ν π))
  | conj (es : List (Val κ ν π))
  | disj (es : List (Val κ ν π))
  | clauses (cs : List (Val κ ν π × List (Val κ ν π)))
  | clause (u : Val κ ν π) (es : List (Val κ ν π))
  | inits (g : ℕ) (ds : List (ν × Val κ ν π))

/-- **What a task comes to** in a frame: its values, and the frames that it leaves. -/
inductive Runs [DecidableEq ν] (L : Lang κ ν π) :
    Store κ ν π → ℕ → Task κ ν π → List (Val κ ν π) → Store κ ν π → Prop
  | atom {σ f e} (he : e.IsAtom) : Runs L σ f (.expr e) [e] σ
  -- a name whose value is unspecified counts as unbound
  | var {σ f x g v} (hx : Lookup σ x f g v) (hv : v ≠ .const L.unspecified) :
    Runs L σ f (.expr (.sym x)) [v] σ
  | quote {σ σ₁ f op d} (hop : Runs L σ f (.expr op) [.special .quote] σ₁) :
    Runs L σ f (.expr (.list [op, d])) [d] σ₁
  | ifTrue {σ σ₁ σ₂ σ₃ f op c t es u v} (hop : Runs L σ f (.expr op) [.special .if] σ₁)
    (hes : es.length ≤ 1) (hc : Runs L σ₁ f (.expr c) [u] σ₂) (hu : L.Holds u)
    (ht : Runs L σ₂ f (.expr t) [v] σ₃) : Runs L σ f (.expr (.list (op :: c :: t :: es))) [v] σ₃
  | ifFalse {σ σ₁ σ₂ σ₃ f op c t e u v} (hop : Runs L σ f (.expr op) [.special .if] σ₁)
    (hc : Runs L σ₁ f (.expr c) [u] σ₂) (hu : ¬ L.Holds u) (he : Runs L σ₂ f (.expr e) [v] σ₃) :
    Runs L σ f (.expr (.list [op, c, t, e])) [v] σ₃
  | ifElse {σ σ₁ σ₂ f op c t u} (hop : Runs L σ f (.expr op) [.special .if] σ₁)
    (hc : Runs L σ₁ f (.expr c) [u] σ₂) (hu : ¬ L.Holds u) :
    Runs L σ f (.expr (.list [op, c, t])) [.const L.unspecified] σ₂
  | lambda {σ σ₁ f fr op fs e es} (hop : Runs L σ f (.expr op) [.special .lambda] σ₁)
    (hfs : fs.IsFormals) (hf : σ₁.frames f = some fr) :
    Runs L σ f (.expr (.list (op :: fs :: e :: es))) [.closure fs (.list (e :: es)) f] σ₁
  | begin {σ σ₁ σ₂ f op e es v} (hop : Runs L σ f (.expr op) [.special .begin] σ₁)
    (hes : Runs L σ₁ f (.body (e :: es)) [v] σ₂) : Runs L σ f (.expr (.list (op :: e :: es))) [v] σ₂
  | and {σ σ₁ σ₂ f op es v} (hop : Runs L σ f (.expr op) [.special .and] σ₁)
    (hes : Runs L σ₁ f (.conj es) [v] σ₂) : Runs L σ f (.expr (.list (op :: es))) [v] σ₂
  | or {σ σ₁ σ₂ f op es v} (hop : Runs L σ f (.expr op) [.special .or] σ₁)
    (hes : Runs L σ₁ f (.disj es) [v] σ₂) : Runs L σ f (.expr (.list (op :: es))) [v] σ₂
  | cond {σ σ₁ σ₂ f op c cs v} (hop : Runs L σ f (.expr op) [.special .cond] σ₁)
    (hvalid : ∀ c' ∈ c :: cs, L.IsClause c') (hcs : Runs L σ₁ f (.clauses (c :: cs)) [v] σ₂) :
    Runs L σ f (.expr (.list (op :: (c :: cs).map .clause))) [v] σ₂
  | caseSome {σ σ₁ σ₂ σ₃ f op k c cs u es v} (hop : Runs L σ f (.expr op) [.special .case] σ₁)
    (hvalid : ∀ c' ∈ c :: cs, c'.2 ≠ []) (hk : Runs L σ₁ f (.expr k) [u] σ₂) (hu : u.IsScalar)
    (hcs : L.Selects u (c :: cs) (some es)) (hes : Runs L σ₂ f (.clause u es) [v] σ₃) :
    Runs L σ f (.expr (.list (op :: k :: (c :: cs).map .clause))) [v] σ₃
  | caseNone {σ σ₁ σ₂ f op k c cs u} (hop : Runs L σ f (.expr op) [.special .case] σ₁)
    (hvalid : ∀ c' ∈ c :: cs, c'.2 ≠ []) (hk : Runs L σ₁ f (.expr k) [u] σ₂) (hu : u.IsScalar)
    (hcs : L.Selects u (c :: cs) none) :
    Runs L σ f (.expr (.list (op :: k :: (c :: cs).map .clause))) [.const L.unspecified] σ₂
  -- the new frame is there before its bindings are evaluated outside of it
  | let {σ σ₁ σ₂ σ₃ f fr op ds e es v} (hop : Runs L σ f (.expr op) [.special .let] σ₁)
    (hf : σ₁.frames f = some fr)
    (hds : Runs L (σ₁.push ⟨some f, fun _ => none⟩) f (.inits σ₁.next ds) [] σ₂)
    (hes : Runs L σ₂ σ₁.next (.body (e :: es)) [v] σ₃) :
    Runs L σ f (.expr (.list (op :: .inits ds :: e :: es))) [v] σ₃
  | letStar {σ σ₁ σ₂ σ₃ f fr op ds e es v} (hop : Runs L σ f (.expr op) [.special .letStar] σ₁)
    (hf : σ₁.frames f = some fr)
    (hds : Runs L (σ₁.push ⟨some f, fun _ => none⟩) σ₁.next (.inits σ₁.next ds) [] σ₂)
    (hes : Runs L σ₂ σ₁.next (.body (e :: es)) [v] σ₃) :
    Runs L σ f (.expr (.list (op :: .inits ds :: e :: es))) [v] σ₃
  | define {σ σ₁ σ₂ f fr op x e v} (hop : Runs L σ f (.expr op) [.special .define] σ₁)
    (he : Runs L σ₁ f (.expr e) [v] σ₂) (hf : σ₂.frames f = some fr) :
    Runs L σ f (.expr (.list [op, .sym x, e])) [.const L.unspecified] (σ₂.put f (fr.set x v))
  | defun {σ σ₁ f fr op x fs e es} (hop : Runs L σ f (.expr op) [.special .define] σ₁)
    (hfs : fs.IsFormals) (hf : σ₁.frames f = some fr) :
    Runs L σ f (.expr (.list (op :: .pair (.sym x) fs :: e :: es))) [.const L.unspecified]
      (σ₁.put f (fr.set x (.closure fs (.list (e :: es)) f)))
  -- the frame is looked for before the value is there
  | set {σ σ₁ σ₂ f g fr op x e u u' v} (hop : Runs L σ f (.expr op) [.special .set] σ₁)
    (hx : Lookup σ₁ x f g u) (he : Runs L σ₁ f (.expr e) [v] σ₂) (hg : σ₂.frames g = some fr)
    (hu : fr.vars x = some u') :
    Runs L σ f (.expr (.list [op, .sym x, e])) [.const L.unspecified] (σ₂.put g (fr.set x v))
  | call {σ σ₁ σ₂ σ₃ f g op as fs es vs vars v}
    (hop : Runs L σ f (.expr op) [.closure fs (.list es) g] σ₁)
    (has : Runs L σ₁ f (.operands as) vs σ₂) (hvars : fs.bind vs (fun _ => none) = some vars)
    (hes : Runs L (σ₂.push ⟨some g, vars⟩) σ₂.next (.body es) [v] σ₃) :
    Runs L σ f (.expr (.list (op :: as))) [v] σ₃
  | prim {σ σ₁ σ₂ f p op as vs v} (hop : Runs L σ f (.expr op) [.prim p] σ₁)
    (has : Runs L σ₁ f (.operands as) vs σ₂) (hv : L.prim p vs = some v) :
    Runs L σ f (.expr (.list (op :: as))) [v] σ₂
  | operandsNil {σ f} : Runs L σ f (.operands []) [] σ
  | operandsCons {σ σ₁ σ₂ f e es v vs} (he : Runs L σ f (.expr e) [v] σ₁)
    (hes : Runs L σ₁ f (.operands es) vs σ₂) : Runs L σ f (.operands (e :: es)) (v :: vs) σ₂
  | bodyLast {σ σ₁ f e v} (he : Runs L σ f (.expr e) [v] σ₁) : Runs L σ f (.body [e]) [v] σ₁
  | bodyCons {σ σ₁ σ₂ f e e' es u v} (he : Runs L σ f (.expr e) [u] σ₁)
    (hes : Runs L σ₁ f (.body (e' :: es)) [v] σ₂) : Runs L σ f (.body (e :: e' :: es)) [v] σ₂
  | conjNil {σ f} : Runs L σ f (.conj []) [.const L.true] σ
  | conjLast {σ σ₁ f e v} (he : Runs L σ f (.expr e) [v] σ₁) : Runs L σ f (.conj [e]) [v] σ₁
  | conjStop {σ σ₁ f e e' es v} (he : Runs L σ f (.expr e) [v] σ₁) (hv : ¬ L.Holds v) :
    Runs L σ f (.conj (e :: e' :: es)) [v] σ₁
  | conjCons {σ σ₁ σ₂ f e e' es u v} (he : Runs L σ f (.expr e) [u] σ₁) (hu : L.Holds u)
    (hes : Runs L σ₁ f (.conj (e' :: es)) [v] σ₂) : Runs L σ f (.conj (e :: e' :: es)) [v] σ₂
  | disjNil {σ f} : Runs L σ f (.disj []) [.const L.false] σ
  | disjLast {σ σ₁ f e v} (he : Runs L σ f (.expr e) [v] σ₁) : Runs L σ f (.disj [e]) [v] σ₁
  -- only the last expression gives its value
  | disjStop {σ σ₁ f e e' es u} (he : Runs L σ f (.expr e) [u] σ₁) (hu : L.Holds u) :
    Runs L σ f (.disj (e :: e' :: es)) [.const L.true] σ₁
  | disjCons {σ σ₁ σ₂ f e e' es u v} (he : Runs L σ f (.expr e) [u] σ₁) (hu : ¬ L.Holds u)
    (hes : Runs L σ₁ f (.disj (e' :: es)) [v] σ₂) : Runs L σ f (.disj (e :: e' :: es)) [v] σ₂
  | clausesNil {σ f} : Runs L σ f (.clauses []) [.const L.unspecified] σ
  | clausesElse {σ σ₁ f es cs v} (hes : Runs L σ f (.clause (.const L.true) es) [v] σ₁) :
    Runs L σ f (.clauses ((.sym L.els, es) :: cs)) [v] σ₁
  | clausesTrue {σ σ₁ σ₂ f c es cs u v} (hne : c ≠ .sym L.els)
    (hc : Runs L σ f (.expr c) [u] σ₁) (hu : L.Holds u) (hes : Runs L σ₁ f (.clause u es) [v] σ₂) :
    Runs L σ f (.clauses ((c, es) :: cs)) [v] σ₂
  | clausesFalse {σ σ₁ σ₂ f c es cs u v} (hne : c ≠ .sym L.els)
    (hc : Runs L σ f (.expr c) [u] σ₁) (hu : ¬ L.Holds u) (hcs : Runs L σ₁ f (.clauses cs) [v] σ₂) :
    Runs L σ f (.clauses ((c, es) :: cs)) [v] σ₂
  | clauseBody {σ σ₁ f u e es v} (hne : e ≠ .sym L.arrow)
      (hes : Runs L σ f (.body (e :: es)) [v] σ₁) :
    Runs L σ f (.clause u (e :: es)) [v] σ₁
  -- the values are put into a call, in which they are evaluated again
  | clauseArrow {σ σ₁ σ₂ f u e es p v} (he : Runs L σ f (.expr e) [p] σ₁)
    (hcall : Runs L σ₁ f (.expr (.list [p, u])) [v] σ₂) :
    Runs L σ f (.clause u (.sym L.arrow :: e :: es)) [v] σ₂
  | initsNil {σ f g} : Runs L σ f (.inits g []) [] σ
  | initsCons {σ σ₁ σ₂ f g fr x e ds v} (he : Runs L σ f (.expr e) [v] σ₁)
    (hg : σ₁.frames g = some fr) (hds : Runs L (σ₁.put g (fr.set x v)) f (.inits g ds) [] σ₂) :
    Runs L σ f (.inits g ((x, e) :: ds)) [] σ₂

/-! ### Names and arguments -/

section Bind

variable [DecidableEq ν] {fs : Val κ ν π} {vs : List (Val κ ν π)}
  {vars vars' : ν → Option (Val κ ν π)}

/-- Arguments are bound only to formals, and there are as many of them as the formals say. -/
theorem Val.isFormals_of_bind (h : fs.bind vs vars = some vars') :
    fs.IsFormals ∧ (vs.length = fs.arity ∨ fs.variadic = true ∧ fs.arity ≤ vs.length) := by
  induction fs generalizing vs vars with
  | nil =>
    cases vs with
    | nil => exact ⟨trivial, .inl rfl⟩
    | cons v vs => cases h
  | sym x => exact ⟨trivial, .inr ⟨rfl, Nat.zero_le _⟩⟩
  | pair car cdr _ ih =>
    cases car with
    | sym x =>
      cases vs with
      | nil => cases h
      | cons v vs =>
        obtain ⟨hfs, hlen⟩ := ih h
        exact ⟨hfs, hlen.imp (congrArg (· + 1)) (And.imp_right Nat.succ_le_succ)⟩
    | _ => cases h
  | _ => cases h

end Bind

end Lisp
