import NaviScheme.Language.Calls
import NaviScheme.Language.Clauses

/-!
# The evaluator implements the language

Wherever the rules of the language give an expression a value, `navi_eval` returns an object that
stands for it, and leaves scopes that are the frames that the rules leave
(`NaviScheme.returns_naviEval`). What the objects are and where they have been allocated does not
occur in the rules, nor do bounces, guards and the list that the operands are collected in.
-/

namespace NaviScheme

open Prog

variable {X : Externals} {B : OtherBuiltins} {w : World} {o : NaviObj} {e v : Value}
  {vs : List Value} {env : NaviEnv} {σ σ' : FrameStore} {f : ℕ}

/-- The evaluator does what the rules say of a task. -/
def MeetsTask (X : Externals) (B : OtherBuiltins) (σ : FrameStore) (f : ℕ) :
    Lisp.Task Constant String Builtin → List Value → FrameStore → Prop
  | .expr e, [v], σ' => Meets X B σ f e v σ'
  | .operands es, vs, σ' => MeetsOperands X B σ f es vs σ' ∧ MeetsArgs X B σ f es vs σ'
  | .body es, [v], σ' => MeetsBody X B σ f es v σ'
  | .conj es, [v], σ' => MeetsConj X B σ f es v σ'
  | .disj es, [v], σ' => MeetsDisj X B σ f es v σ'
  | .clauses cs, [v], σ' => MeetsClauses X B σ f cs v σ'
  | .clause u es, [v], σ' => MeetsClause X B σ f u es v σ'
  | .inits g ds, [], σ' => MeetsInits X B σ f g ds σ'
  | _, _, _ => False

/-- **Each rule is implemented.** -/
theorem meetsTask_of_runs (hX : ∀ S, X.Spares S True) (hB : B.Sound X)
    {t : Lisp.Task Constant String Builtin} (h : Lisp.Runs B.lang σ f t vs σ') :
    MeetsTask X B σ f t vs σ' := by
  induction h with
  | atom he => exact meets_atom he
  | var hx hv => exact meets_sym hx hv
  | quote _ ihop =>
    refine .special ihop ⟨.inl rfl, ?_⟩ fun w args env hw _ hargs => attains_scmQuote hw hargs
    simp [specialSpec, ArgType.Admits]
  | ifTrue _ hes _ hu _ ihop ihc iht =>
    exact .form ihop rfl (by simp [specialSpec]) fun w args env hw hf hargs =>
      attains_scmIf_true (Nat.add_le_add_right hes 2) ihc hu iht hw hf hargs
  | ifFalse _ _ hu _ ihop ihc ihe =>
    exact .form ihop rfl (by simp [specialSpec]) fun w args env hw hf hargs =>
      attains_scmIf_false ihc hu ihe hw hf hargs
  | ifElse _ _ hu ihop ihc =>
    exact .form ihop rfl (by simp [specialSpec]) fun w args env hw hf hargs =>
      attains_scmIf_else (Nat.lt_succ_self 2) ihc hu hw hf hargs
  | lambda _ hfs hfr ihop =>
    exact .form ihop rfl (by simp [specialSpec]) fun w args env hw hf hargs =>
      attains_scmLambda hw hf (hw.lt_nextScope hfr) hfs hargs
  | begin _ _ ihop ihes =>
    exact .form ihop rfl (by simp [specialSpec]) fun w args env hw hf hargs =>
      ihes w args env none hw hf hargs
  | and _ _ ihop ihes =>
    exact .form ihop rfl (by simp [specialSpec]) fun w args env hw hf hargs =>
      ihes w args env hw hf hargs
  | or _ _ ihop ihes =>
    exact .form ihop rfl (by simp [specialSpec]) fun w args env hw hf hargs =>
      ihes w args env hw hf hargs
  | cond _ hvalid _ ihop ihcs =>
    exact .form ihop rfl (by simp [specialSpec]) fun w args env hw hf hargs =>
      attains_scmCond hvalid ihcs hw hf hargs
  | caseSome _ hvalid _ hu hcs _ ihop ihk ihes =>
    refine .form ihop rfl (by simp [specialSpec]) fun w args env hw hf hargs =>
      attains_scmCase hvalid ihk hu hcs (fun es h => ?_)
        (fun h => absurd h (Option.some_ne_none _)) hw hf hargs
    cases h
    exact ihes
  | caseNone _ hvalid _ hu hcs ihop ihk =>
    exact .form ihop rfl (by simp [specialSpec]) fun w args env hw hf hargs =>
      attains_scmCase hvalid ihk hu hcs (fun es h => absurd h (Option.some_ne_none es).symm)
        (fun _ => ⟨rfl, rfl⟩) hw hf hargs
  | «let» _ hfr _ _ ihop ihds ihes =>
    exact .form ihop rfl (by simp [specialSpec]) fun w args env hw hf hargs =>
      attains_scmLet (hw.lt_nextScope hfr) ihds ihes hw hf hargs
  | letStar _ hfr _ _ ihop ihds ihes =>
    exact .form ihop rfl (by simp [specialSpec]) fun w args env hw hf hargs =>
      attains_scmSequentialLet (hw.lt_nextScope hfr) ihds ihes hw hf hargs
  | define _ _ hfr ihop ihe =>
    exact .form ihop rfl (by simp [specialSpec]) fun w args env hw hf hargs =>
      attains_scmDefine ihe hfr hw hf hargs
  | defun _ hfs hfr ihop =>
    exact .form ihop rfl (by simp [specialSpec]) fun w args env hw hf hargs =>
      attains_scmDefine_defun hfs hfr hw hf hargs
  | set _ hx _ hfr hu ihop ihe =>
    refine .special ihop ⟨.inl rfl, ?_⟩ fun w args env hw hf hargs =>
      attains_scmSet hx ihe hfr hu hw hf hargs
    simp [specialSpec, ArgType.Admits, Value.type]
  | call _ _ hvars _ ihop ihas ihes =>
    exact Meets.procedure ihop rfl ihas.2 fun w proc list pairs os env hw hproc hs hos =>
      attains_naviApply_closure hw hproc hs hos hvars ihes
  | prim _ _ hv ihop ihas =>
    refine Meets.procedure ihop rfl ihas.2 fun w proc list pairs os env hw hproc hs hos => ?_
    cases hproc with
    | prim hload hspec hp =>
    have hcheck := computes_checkApply_admits hload hp hs hos (hB.admits_prim hv hspec) hw.wf
    exact .reads (computes_naviProcedure hload) (.naviApply_ hload hp.body hcheck fun g =>
      attains_prim hX hB hv (hw.marked g _) ((valueAt_list hs hos).marked g _))
  | operandsNil => exact ⟨.nil, .nil⟩
  | operandsCons _ _ ihe ihes => exact ⟨.cons hX ihe ihes.1, .cons hX ihe ihes.1⟩
  | bodyLast _ ihe => exact .last ihe
  | bodyCons _ _ ihe ihes => exact .cons ihe ihes
  | conjNil => exact .nil
  | conjLast _ ihe => exact .last ihe
  | conjStop _ hv ihe => exact .stop ihe hv
  | conjCons _ hu _ ihe ihes => exact .cons ihe hu ihes
  | disjNil => exact .nil
  | disjLast _ ihe => exact .last ihe
  | disjStop _ hu ihe => exact .stop ihe hu
  | disjCons _ hu _ ihe ihes => exact .cons ihe hu ihes
  | clausesNil => exact .nil
  | clausesElse _ ihes => exact .els ihes
  | clausesTrue hne _ hu _ ihc ihes => exact .here hne ihc hu ihes
  | clausesFalse hne _ hu _ ihc ihcs => exact .there hne ihc hu ihcs
  | clauseBody hne _ ihes => exact .body hne ihes
  | clauseArrow _ _ ihe ihcall => exact .arrow ihe ihcall
  | initsNil => exact .nil
  | initsCons _ hg _ ihe ihds => exact .cons ihe hg ihds

/-- What returns a value returns it from `navi_eval`. -/
theorem Meets.returns (h : Meets X B σ env.lexical e v σ') (hw : w.Lives B σ)
    (ho : ValueAt B w o e) :
    ∃ o' w', (worldSemantics X).Returns (.naviEval o env) w (.ok o' w') ∧ w'.Lives B σ' ∧
      ValueAt B w' o' v ∧ ∀ a c, w.objs a = some c → w'.objs a = some c := by
  obtain ⟨o', w', heval, hbuilds, hw', ho'⟩ := h.naviEval hw rfl ho [] []
  exact ⟨o', w', evaluates_callFn.mp heval, hw', ho', fun a c => hbuilds.objs a c id⟩

/-- **`navi_eval` implements the language**: if the rules give an expression a value, `navi_eval`
returns an object that stands for it, in a world whose scopes are the frames that the rules
leave. The objects that there were are as they were. -/
theorem returns_naviEval_of_runs (hX : ∀ S, X.Spares S True) (hB : B.Sound X)
    (h : Lisp.Runs B.lang σ env.lexical (.expr e) [v] σ') (hw : w.Lives B σ)
    (ho : ValueAt B w o e) :
    ∃ o' w', (worldSemantics X).Returns (.naviEval o env) w (.ok o' w') ∧ w'.Lives B σ' ∧
      ValueAt B w' o' v ∧ ∀ a c, w.objs a = some c → w'.objs a = some c := by
  have hmeets : Meets X B σ env.lexical e v σ' := meetsTask_of_runs hX hB h
  exact hmeets.returns hw ho

/-- The special forms that the program uses, and the program
`(begin (define (f x) (if x (f #f) 7)) (f #t))`. -/
def recursionCells : List (NaviType × Data) :=
  let o (n : ℕ) : NaviObj := .ptr (.obj n)
  let pair (car cdr : NaviObj) : NaviType × Data := (.naviPair, .pair (some car) (some cdr))
  let special (s : Lisp.Special) (name : ℕ) : NaviType × Data := (.naviSpecial,
    .proc ⟨(specialSpec s).variadic, (specialSpec s).arity, o name, 0, .nil, .cProc (specialFn s),
      some (specialSpec s).types⟩)
  [(.naviSymbol, .symbol "begin" true), (.naviSymbol, .symbol "define" true),
    (.naviSymbol, .symbol "if" true), (.naviSymbol, .symbol "f" true),
    (.naviSymbol, .symbol "x" true),
    special .begin 0, special .define 1, special .if 2,
    -- (f #f)
    pair (o 3) (o 9), pair (.bool false) .nil,
    -- (if x (f #f) 7)
    pair (o 2) (o 11), pair (o 4) (o 12), pair (o 8) (o 13), pair (.fixnum 7) .nil,
    -- (f x)
    pair (o 3) (o 15), pair (o 4) .nil,
    -- (define (f x) (if x (f #f) 7))
    pair (o 1) (o 17), pair (o 14) (o 18), pair (o 10) .nil,
    -- (f #t)
    pair (o 3) (o 20), pair (.bool true) .nil,
    -- the program
    pair (o 0) (o 22), pair (o 16) (o 23), pair (o 19) .nil,
    (.naviSymbol, .symbol "else" true), (.naviSymbol, .symbol "=>" true)]

/-- The world with the program. -/
def recursionWorld : World :=
  World.ofCells recursionCells
    [("begin", 0), ("define", 1), ("if", 2), ("f", 3), ("x", 4), ("else", 24), ("=>", 25)]
    [⟨none, [⟨.ptr (.obj 2), .ptr (.obj 7)⟩, ⟨.ptr (.obj 1), .ptr (.obj 6)⟩,
      ⟨.ptr (.obj 0), .ptr (.obj 5)⟩]⟩] []

/-- No other builtins. -/
def noOthers : OtherBuiltins := ⟨fun _ => ⟨0, false, []⟩, fun _ _ => none⟩

section Recursion

/-- A call of the procedure. -/
def recursionCall (arg : Bool) : Value := .list [.sym "f", .const (.bool arg)]

/-- The body of the procedure. -/
def recursionBody : Value :=
  .list [.sym "if", .sym "x", recursionCall false, .const (.fixnum 7)]

/-- The program. -/
def recursionProgram : Value :=
  .list [.sym "begin", .list [.sym "define", .list [.sym "f", .sym "x"], recursionBody],
    recursionCall true]

/-- The procedure. -/
def recursionClosure : Value := .closure (.list [.sym "x"]) (.list [recursionBody]) 0

/-- The names of the special forms. -/
def recursionVars : String → Option Value :=
  Function.update (Function.update
    (Function.update (fun _ => none) "begin" (some (.special .begin)))
    "define" (some (.special .define))) "if" (some (.special .if))

/-- The frames before the program is evaluated. -/
def recursionFrames : FrameStore :=
  ⟨Function.update (fun _ => none) 0 (some ⟨none, recursionVars⟩), 1⟩

/-- The global frame when the procedure has been defined. -/
def recursionGlobal : Lisp.Frame Constant String Builtin :=
  Lisp.Frame.set ⟨none, recursionVars⟩ "f" recursionClosure

/-- The frame of a call. -/
def recursionFrame (arg : Bool) : Lisp.Frame Constant String Builtin :=
  ⟨some 0, Function.update (fun _ => none) "x" (some (.const (.bool arg)))⟩

theorem lives_recursionWorld : recursionWorld.Lives noOthers recursionFrames := by
  have hwf : recursionWorld.Wf := World.wf_ofCells (by decide)
  have hclosed : recursionWorld.Closed :=
    World.closed_ofCells (by decide) (by decide) (by decide) (by decide)
  have hsym {x : String} {n : ℕ} (h : recursionWorld.symtab.lookup x = some (.obj n)) :
    IsSym recursionWorld (.ptr (.obj n)) x := ⟨_, rfl, h⟩
  have hspecial (s : Lisp.Special) (n : ℕ) {p : NaviProcedure}
      (h : recursionWorld.objs (.obj n) = some (.naviSpecial, .proc p))
      (hp : p.Declares (specialFn s) (specialSpec s)) :
      ValueAt noOthers recursionWorld (.ptr (.obj n)) (.special s) := .special (World.load_ptr h) hp
  have hbegin : FrameAt noOthers recursionWorld [⟨.ptr (.obj 0), .ptr (.obj 5)⟩]
      (Function.update (fun _ => none) "begin" (some (.special .begin))) :=
    (FrameAt.nil _).setIn hwf (hsym rfl) (hspecial .begin 5 rfl ⟨rfl, rfl, rfl, rfl⟩)
  have hdefine := hbegin.setIn hwf (hsym (x := "define") (n := 1) rfl)
    (hspecial .define 6 rfl ⟨rfl, rfl, rfl, rfl⟩)
  have hif := hdefine.setIn hwf (hsym (x := "if") (n := 2) rfl)
    (hspecial .if 7 rfl ⟨rfl, rfl, rfl, rfl⟩)
  have hkeywords : ∀ x ∈ ["else", "=>"], ∃ o, IsSym recursionWorld o x := by
    simp only [List.forall_mem_cons]
    exact ⟨⟨_, hsym (n := 24) rfl⟩, ⟨_, hsym (n := 25) rfl⟩, nofun⟩
  exact .global hwf hclosed hkeywords rfl rfl hif

theorem valueAt_recursionProgram : ValueAt noOthers recursionWorld (.ptr (.obj 21))
    recursionProgram := by
  have hsym (x : String) (n : ℕ) (h : recursionWorld.symtab.lookup x = some (.obj n)) :
    ValueAt noOthers recursionWorld (.ptr (.obj n)) (.sym x) := .sym ⟨_, rfl, h⟩
  have hpair (n : ℕ) {car cdr : NaviObj} {u v : Value}
      (h : recursionWorld.objs (.obj n) = some (.naviPair, .pair (some car) (some cdr)))
      (hcar : ValueAt noOthers recursionWorld car u)
      (hcdr : ValueAt noOthers recursionWorld cdr v) :
      ValueAt noOthers recursionWorld (.ptr (.obj n)) (.pair u v) := .pair
      (isPair_ptr.mpr h) hcar hcdr
  have hf := hsym "f" 3 rfl
  have hx := hsym "x" 4 rfl
  have hagain := hpair 8 rfl hf (hpair 9 rfl (.const (.bool false)) .nil)
  have hbody := hpair 10 rfl (hsym "if" 2 rfl) (hpair 11 rfl hx (hpair 12 rfl hagain
    (hpair 13 rfl (.const (.fixnum 7)) .nil)))
  have hdefine := hpair 16 rfl (hsym "define" 1 rfl) (hpair 17 rfl (hpair 14 rfl hf
    (hpair 15 rfl hx .nil)) (hpair 18 rfl hbody .nil))
  exact hpair 21 rfl (hsym "begin" 0 rfl) (hpair 22 rfl hdefine (hpair 23 rfl
    (hpair 19 rfl hf (hpair 20 rfl (.const (.bool true)) .nil)) .nil))

variable {arg : Bool}

theorem vars_recursionFrame : (recursionFrame arg).vars "x" = some (.const (.bool arg)) := by
  simp [recursionFrame]

theorem lookup_recursionGlobal {x : String} (hx : x ≠ "x") (hσ : σ.frames 0 = some recursionGlobal)
    (hf : σ.frames f = some (recursionFrame arg)) (hv : recursionGlobal.vars x = some v) :
    Lisp.Lookup σ x f 0 v := by
  have hnone : (recursionFrame arg).vars x = none := by simp [recursionFrame, hx]
  exact .outer hf hnone rfl (.here hσ hv)

/-- Calling the procedure. -/
theorem runs_recursionCall (hf : Lisp.Lookup σ "f" f 0 recursionClosure)
    (hbody : Lisp.Runs noOthers.lang (σ.push (recursionFrame arg)) σ.next
    (.expr recursionBody) [v] σ') :
    Lisp.Runs noOthers.lang σ f (.expr (recursionCall arg)) [v] σ' :=
  .call (.var hf nofun) (.operandsCons (.atom trivial) .operandsNil) rfl (.bodyLast hbody)

theorem runs_recursionBody_false (hσ : σ.frames 0 = some recursionGlobal)
    (hf : σ.frames f = some (recursionFrame false)) :
    Lisp.Runs noOthers.lang σ f (.expr recursionBody) [.const (.fixnum 7)] σ := by
  have hif : recursionGlobal.vars "if" = some (.special .if) := rfl
  refine .ifFalse (.var (lookup_recursionGlobal (by decide) hσ hf hif) nofun)
    (.var (.here hf vars_recursionFrame) nofun) nofun (.atom trivial)

theorem runs_recursionBody_true (hnext : σ.next ≠ 0) (hσ : σ.frames 0 = some recursionGlobal)
    (hf : σ.frames f = some (recursionFrame true)) :
    Lisp.Runs noOthers.lang σ f (.expr recursionBody) [.const (.fixnum 7)]
      (σ.push (recursionFrame false)) := by
  have hif : recursionGlobal.vars "if" = some (.special .if) := rfl
  have hproc : recursionGlobal.vars "f" = some recursionClosure := rfl
  refine .ifTrue (.var (lookup_recursionGlobal (by decide) hσ hf hif) nofun) (Nat.le_refl 1)
    (.var (.here hf vars_recursionFrame) nofun) rfl
    (runs_recursionCall (lookup_recursionGlobal (by decide) hσ hf hproc)
      (runs_recursionBody_false ?_ Lisp.Store.push_self))
  rw [Lisp.Store.push_of_ne hnext.symm]
  exact hσ

theorem runs_recursionProgram : ∃ σ', Lisp.Runs noOthers.lang recursionFrames 0
    (.expr recursionProgram) [.const (.fixnum 7)] σ' := by
  have hbegin : recursionVars "begin" = some (.special .begin) := rfl
  have hdefine : recursionVars "define" = some (.special .define) := rfl
  have hproc : recursionGlobal.vars "f" = some recursionClosure := rfl
  refine ⟨_, .begin (.var (.here rfl hbegin) nofun) (.bodyCons
    (.defun (.var (.here rfl hdefine) nofun) trivial rfl) (.bodyLast
      (runs_recursionCall (.here Lisp.Store.put_self hproc)
        (runs_recursionBody_true ?_ ?_ Lisp.Store.push_self))))⟩
  · exact Nat.succ_ne_zero 1
  · rw [Lisp.Store.push_of_ne]
    · exact Lisp.Store.put_self
    · exact (Nat.succ_ne_zero 0).symm

end Recursion

theorem returns_naviEval_of_runs_recursion :
    ∃ σ' o' w', (worldSemantics noExternals).Returns (.naviEval (.ptr (.obj 21)) ⟨0, 0⟩)
    recursionWorld
      (.ok o' w') ∧ w'.Lives noOthers σ' ∧ ValueAt noOthers w' o' (.const (.fixnum 7)) ∧
      ∀ a c, recursionWorld.objs a = some c → w'.objs a = some c := by
  obtain ⟨σ', hruns⟩ := runs_recursionProgram
  have hB : noOthers.Sound noExternals := ⟨nofun, nofun⟩
  exact ⟨σ', returns_naviEval_of_runs noExternals_spares hB hruns lives_recursionWorld
    valueAt_recursionProgram⟩

end NaviScheme
