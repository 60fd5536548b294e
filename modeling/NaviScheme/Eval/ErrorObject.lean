import Mathlib.Data.List.TakeWhile
import NaviScheme.Import.Modifiers
import NaviScheme.Eval.Formals
import NaviScheme.Eval.Handover

/-!
# Error objects

Errors are raised in two ways: by the builtin `error`, which raises the list of its arguments, and
by `_navi_error`, which puts a symbol before the message and the irritants. The accessors expect
the symbol, so what `error` raises is no error object for any message; and `navi_vlist` takes a
void object for the end of the irritants (`NaviScheme.reports_iff`).
-/

namespace NaviScheme

open Prog

variable {F : FnSig} {X : Externals} {w w' w₁ : World} {env : NaviEnv}
  {o args handler rest : NaviObj} {type msg : String} {vs irritants pairs : List NaviObj}

/-! ### The accessors -/

/-- `is_error_object` -/
def isErrorObject (object : NaviObj) : Prog evalOps F Bool := do
  if (← naviType object) = .naviPair then
    if (← naviType (← naviCar object)) = .naviSymbol then
      if (← naviType (← naviCdr object)) = .naviPair then
        return (← naviType (← naviCadr object)) = .naviString
      else return false
    else return false
  else return false

/-- `navi_type_check_error` -/
def naviTypeCheckError (object : NaviObj) : Leaf NaviObj := do
  if ← isErrorObject object then return object
  else naviError "type error: not an error object" []

/-- `error-object?` -/
def scmErrorObjectp (args : NaviObj) : Leaf NaviObj := do
  return .bool (← isErrorObject (← naviCar args))

/-- `error-object-message` -/
def scmErrorObjectMessage (args : NaviObj) : Leaf NaviObj := do
  let object ← naviTypeCheckError (← naviCar args)
  naviCadr object

/-- `error-object-irritants` -/
def scmErrorObjectIrritants (args : NaviObj) : Leaf NaviObj := do
  let object ← naviTypeCheckError (← naviCar args)
  naviCddr object

/-- What the accessors say of the only element of the list `args`. -/
structure Reports (w : World) (args : NaviObj) (msg : String) (irritants : List NaviObj) :
    Prop where
  /-- it is an error object -/
  isError : Computes (scmErrorObjectp args) w (.bool true) w
  /-- its message -/
  message : ∃ str, Computes (scmErrorObjectMessage args) w str w ∧
    w.load str = .ok (.naviString, .string msg)
  /-- its irritants -/
  irritants : ∃ list pairs, Computes (scmErrorObjectIrritants args) w list w ∧
    Spine w list pairs irritants

/-! ### Raising errors -/

/-- The ways of raising an error. -/
inductive ErrorCall
  /-- `error`, with its arguments -/
  | scmError (args : NaviObj)
  /-- `_navi_error`, with what it is given before the void object that ends its arguments -/
  | naviError_ (type msg : String) (irritants : List NaviObj)

namespace ErrorCall

/-- The program that raises the error. -/
def code (env : NaviEnv) : ErrorCall → Code NaviObj
  | .scmError args => NaviScheme.scmError args env
  | .naviError_ type msg irritants => leaf env (NaviScheme.naviError_ type msg irritants)

/-- The program, up to the call of `navi_raise`. -/
def raising : ErrorCall → Leaf NaviObj
  | .scmError args => do
    let args ← naviMakePair args .nil
    .throw args
  | .naviError_ type msg irritants => NaviScheme.naviError_ type msg irritants

/-- What an error is given: the message and the irritants. -/
inductive Carries (w : World) : ErrorCall → String → List NaviObj → Prop
  | scmError {args str rest : NaviObj} {msg : String} {pairs irritants : List NaviObj} :
    IsPair w args str rest → w.load str = .ok (.naviString, .string msg) →
    Spine w rest pairs irritants → Carries w (.scmError args) msg irritants
  | naviError_ {type msg : String} {irritants : List NaviObj} :
    Carries w (.naviError_ type msg irritants) msg irritants

/-- The error is raised by `_navi_error`, and none of the irritants is void. -/
def Reported : ErrorCall → Prop
  | .scmError _ => False
  | .naviError_ _ _ irritants => NaviObj.void ∉ irritants

theorem code_eq (c : ErrorCall) : c.code env = leaf env c.raising := by
  cases c <;> rfl

end ErrorCall

/-- `navi_raise` finds a handler, and unsets it. -/
structure FindsHandler (w : World) (env : NaviEnv) (handler : NaviObj) (w' : World) : Prop where
  /-- the handler -/
  found : ∃ sym, Computes (naviMakeSymbol "#current-exception-handler" : Code _) w sym w ∧
    Computes (naviEnvLookup env.dynamic sym : Code _) w handler w ∧
    Computes (naviScopeUnset env.dynamic sym : Code _) w () w'
  /-- it is a procedure -/
  procedure : Computes (naviType handler : Code _) w .naviProcedure w

/-- The handler is applied; when it returns, the error is raised again. -/
def handled (handler args : NaviObj) (env : NaviEnv) : Code NaviObj := do
  let _ ← callFn (.applyForce handler args env) [args] env.scopes
  raise args env

/-- **The handler receives the list `args`** for an error. -/
structure Receives (X : Externals) (c : ErrorCall) (env : NaviEnv) (w : World) (args : NaviObj)
    (w' : World) : Prop where
  /-- `navi_raise` is called with it -/
  raised : runLeaf World.step c.raising w = .exn args w'
  /-- it has one element -/
  isPair : ∃ o, IsPair w' args o .nil
  /-- the handler is applied to it -/
  applied : ∀ handler w₁, FindsHandler w' env handler w₁ → ∀ r,
    (worldSemantics X).Evaluates (c.code env) w r ↔
      (worldSemantics X).Evaluates (handled handler args env) w₁ r

/-! ### Handlers -/

theorem evaluates_naviRaiseBody (h : FindsHandler w env handler w₁) (args : NaviObj)
    (r : Res Fault EvalExn World Empty) :
    (worldSemantics X).Evaluates (naviRaiseBody args env) w r ↔
      (worldSemantics X).Evaluates (do
        let _ ← callFn (.applyForce handler args env) [args] env.scopes
        callFn (.naviRaise args env) [] [] : Code Empty) w₁ r := by
  obtain ⟨sym, hsym, hlookup, hunset⟩ := h.found
  refine hsym.evaluates.bind_iff.trans (hlookup.evaluates.bind_iff.trans ?_)
  exact h.procedure.evaluates.bind_iff.trans hunset.evaluates.bind_iff

/-- **`navi_raise` applies the handler** to what it is given. -/
theorem evaluates_raise (h : FindsHandler w env handler w₁) (args : NaviObj)
    (r : Res Fault EvalExn World NaviObj) :
    (worldSemantics X).Evaluates (raise args env : Code NaviObj) w r ↔
      (worldSemantics X).Evaluates (handled handler args env) w₁ r := by
  have hraise (r) : (worldSemantics X).Evaluates (callFn (.naviRaise args env) [] []) w r ↔
      (worldSemantics X).Evaluates (do
        let _ ← callFn (.applyForce handler args env) [args] env.scopes
        callFn (.naviRaise args env) [] [] : Code Empty) w₁ r :=
    evaluates_callFn.trans (evaluates_naviRaiseBody h args r)
  have hhandled : handled handler args env = (do
      let _ ← callFn (.applyForce handler args env) [args] env.scopes
      callFn (.naviRaise args env) [] [] : Code Empty) >>= fun never => Empty.elim never :=
    (Prog.bind_assoc _ _ _).symm
  rw [hhandled]
  exact ⟨fun h => h.bind_congr fun r hr => (hraise r).mp hr,
    fun h => h.bind_congr fun r hr => (hraise r).mpr hr⟩

/-- An error that raises a list of one element. -/
theorem receives_of_runLeaf {c : ErrorCall} (h : runLeaf World.step c.raising w = .exn args w')
    (hp : IsPair w' args o .nil) : Receives X c env w args w' := by
  refine ⟨h, ⟨o, hp⟩, fun handler w₁ hfinds r => ?_⟩
  have hrun : runLeaf (worldSemantics X).step c.raising w = .exn args w' := h
  rw [c.code_eq, leaf, evaluates_embed, hrun]
  exact evaluates_raise hfinds args r

/-! ### Lists that extend a world -/

/-- An object is made. -/
theorem World.Wf.exists_make (h : w.Wf) {t : NaviType} (ht : t ≠ .naviThunk) (d : Data) :
    ∃ o w', Computes (NaviScheme.make t d : Prog evalOps F _) w o w' ∧ w'.load o = .ok (t, d) ∧
      w'.Wf ∧ w.Extends w' :=
  ⟨_, _, computes_make t d, World.load_make, h.make ht d, h.extends_make ht d⟩

/-- The links of a list: nothing but the last pair is written. -/
theorem World.Wf.computes_appendPairs {a : Addr} {x : NaviObj} {c : Option NaviObj} (hw : w.Wf)
    (hobj : w.objs a = some (.naviPair, .pair (some x) c)) (os : List NaviObj) :
    ∃ rest pairs w', Computes (appendPairs (.ptr a) os : Prog evalOps F _) w () w' ∧ w'.Wf ∧
      (∀ b d, b ≠ a → w.objs b = some d → w'.objs b = some d) ∧
      IsPair w' (.ptr a) x rest ∧ Spine w' rest pairs os := by
  induction os generalizing w a x c with
  | nil =>
    refine ⟨.nil, [], _, computes_naviSetCdr .nil (World.load_ptr hobj), hw.setObj_pair hobj,
      fun b d hb hd => ?_, isPair_ptr.mpr ?_, .nil⟩
    · rw [World.objs_setObj, if_neg hb, hd]
    · rw [World.objs_setObj, if_pos rfl]
  | cons o os ih =>
    have hne := hw.ne_nextObj hobj
    have hlast : (w.appended a x o).objs (.obj w.nextObj) =
        some (.naviPair, .pair (some o) none) := by
      rw [World.objs_appended, if_pos rfl]
    have hmade := hw.make_pair (.pair none none)
    have hlinked : (w.make .naviPair (.pair none none)).2.objs a =
        some (.naviPair, .pair (some x) c) := by rw [World.objs_make_pair, if_neg hne, hobj]
    have hempty : ((w.make .naviPair (.pair none none)).2.setObj a
        (.naviPair, .pair (some x) (some (.ptr (.obj w.nextObj))))).objs (.obj w.nextObj) =
          some (.naviPair, .pair none none) := by
      rw [World.objs_setObj, if_neg hne.symm, World.objs_make_pair, if_pos rfl]
    have hwf : (w.appended a x o).Wf := (hmade.setObj_pair hlinked).setObj_pair hempty
    obtain ⟨rest, pairs, w', hrun, hw', hsame, hpair, hspine⟩ := ih hwf hlast
    refine ⟨.ptr (.obj w.nextObj), _, w', computes_appended hne hobj hrun, hw', fun b d hb hd => ?_,
      isPair_ptr.mpr (hsame a _ hne ?_), .cons hpair hspine⟩
    · have hnew := hw.ne_nextObj hd
      refine hsame b d hnew ?_
      rw [World.objs_appended, if_neg hnew, if_neg hb, hd]
    · rw [World.objs_appended, if_neg hne, if_pos rfl]

/-- **A list is made**, and what was there stays. -/
theorem World.Wf.computes_naviList (hw : w.Wf) (v : NaviObj) (vs : List NaviObj) :
    ∃ list rest pairs w', Computes (naviList (v :: vs) : Prog evalOps F _) w list w' ∧ w'.Wf ∧
      (∀ o d, w.load o = .ok d → w'.load o = .ok d) ∧
      IsPair w' list v rest ∧ Spine w' rest pairs vs := by
  have hmade := hw.make_pair (.pair none none)
  have hempty : (w.make .naviPair (.pair none none)).2.objs (.obj w.nextObj) =
      some (.naviPair, .pair none none) := by rw [World.objs_make_pair, if_pos rfl]
  have hcar : ((w.make .naviPair (.pair none none)).2.setObj (.obj w.nextObj)
      (.naviPair, .pair (some v) none)).objs (.obj w.nextObj) =
        some (.naviPair, .pair (some v) none) := by rw [World.objs_setObj, if_pos rfl]
  obtain ⟨rest, pairs, w', hrun, hw', hsame, hpair, hspine⟩ :=
    (hmade.setObj_pair hempty).computes_appendPairs (F := F) hcar vs
  refine ⟨.ptr (.obj w.nextObj), rest, pairs, w', ?_, hw', fun o d ho => ?_, hpair, hspine⟩
  · refine (computes_make .naviPair (.pair none none)).bind ?_
    refine (computes_naviSetCar v (World.load_ptr hempty)).bind ?_
    exact hrun.bind (Computes.ret _)
  · obtain ⟨a, rfl⟩ := World.ptr_of_load ho
    have hobj := World.objs_of_load ho
    have hne := hw.ne_nextObj hobj
    refine World.load_ptr (hsame a d hne ?_)
    rw [World.objs_setObj, if_neg hne, World.objs_make_pair, if_neg hne, hobj]

/-! ### What is received -/

/-- The layout that the accessors expect, in the only element of the list `args`. -/
structure ErrorLayout (w : World) (args : NaviObj) (msg : String) (irritants : List NaviObj) :
    Prop where
  /-- a symbol, the message, and the irritants -/
  layout : ∃ o sym list str rest pairs d, IsPair w args o .nil ∧ IsPair w o sym list ∧
    w.load sym = .ok (.naviSymbol, d) ∧ IsPair w list str rest ∧
    w.load str = .ok (.naviString, .string msg) ∧ Spine w rest pairs irritants

theorem computes_isErrorObject {sym list str : NaviObj} {d d' : Data} (ho : IsPair w o sym list)
    (hsym : w.load sym = .ok (.naviSymbol, d)) (hlist : IsPair w list str rest)
    (hstr : w.load str = .ok (.naviString, d')) :
    Computes (isErrorObject o : Prog evalOps F _) w true w := by
  refine (computes_naviType ho).bind ?_
  refine (computes_naviCar ho).bind ((computes_naviType hsym).bind ?_)
  refine (computes_naviCdr ho).bind ((computes_naviType hlist).bind ?_)
  have hcadr : Computes (naviCadr o : Prog evalOps F _) w str w :=
    (computes_naviCdr ho).bind (computes_naviCar hlist)
  exact hcadr.bind ((computes_naviType hstr).bind (Computes.ret _))

/-- **What the accessors say** of an object with the layout that they expect. -/
theorem ErrorLayout.reported_iff (h : ErrorLayout w args msg vs) :
    Reports w args msg irritants ↔ vs = irritants := by
  obtain ⟨o, sym, list, str, rest, pairs, d, hargs, ho, hsym, hlist, hstr, hspine⟩ := h.layout
  have hcar : Computes (naviCar args : Leaf _) w o w := computes_naviCar hargs
  have herror : Computes (isErrorObject o : Leaf _) w true w :=
    computes_isErrorObject ho hsym hlist hstr
  have hcheck : Computes (naviTypeCheckError o) w o w := herror.bind (Computes.ret o)
  have hcddr : Computes (scmErrorObjectIrritants args) w rest w :=
    hcar.bind (hcheck.bind ((computes_naviCdr ho).bind (computes_naviCdr hlist)))
  constructor
  · intro hreports
    obtain ⟨list', pairs', hlist', hspine'⟩ := hreports.irritants
    obtain ⟨rfl, -⟩ := hlist'.unique hcddr
    exact (hspine.unique hspine').2
  · rintro rfl
    refine ⟨hcar.bind (herror.bind (Computes.ret _)), ⟨str, ?_, hstr⟩, ⟨rest, pairs, hcddr, hspine⟩⟩
    exact hcar.bind (hcheck.bind ((computes_naviCdr ho).bind (computes_naviCar hlist)))

/-- A list that begins with a string is not an error object. -/
theorem not_reports {str : NaviObj} {d : Data} (hargs : IsPair w args o .nil)
    (ho : IsPair w o str rest) (hstr : w.load str = .ok (.naviString, d)) :
    ¬ Reports w args msg irritants := by
  intro hreports
  have herror : Computes (isErrorObject o : Leaf _) w false w :=
    (computes_naviType ho).bind ((computes_naviCar ho).bind ((computes_naviType hstr).bind
      (Computes.ret _)))
  have hfalse : Computes (scmErrorObjectp args) w (.bool false) w :=
    (computes_naviCar hargs).bind (herror.bind (Computes.ret _))
  cases (hreports.isError.unique hfalse).1

/-- **What `error` raises** is the list of its arguments. -/
theorem receives_scmError (w : World) (args : NaviObj) (env : NaviEnv) :
    ∃ args', Receives X (.scmError args) env w args'
        (w.make .naviPair (.pair (some args) (some .nil))).2 ∧
      IsPair (w.make .naviPair (.pair (some args) (some .nil))).2 args' args .nil := by
  have hpair : IsPair (w.make .naviPair (.pair (some args) (some .nil))).2
      (w.make .naviPair (.pair (some args) (some .nil))).1 args .nil := World.load_make
  refine ⟨_, receives_of_runLeaf ?_ hpair, hpair⟩
  exact (computes_make .naviPair (.pair (some args) (some .nil))).runLeaf_bind

/-- **What `_navi_error` raises** has the layout that the accessors expect, with the irritants
before the first void object. -/
theorem receives_naviError_ (hw : w.Wf) (type msg : String) (irritants : List NaviObj)
    (env : NaviEnv) :
    ∃ args w', Receives X (.naviError_ type msg irritants) env w args w' ∧
      ErrorLayout w' args msg (irritants.takeWhile (· ≠ .void)) := by
  obtain ⟨sym, w₁, hmakeSym, hsym, hw₁, -, -⟩ :=
    exists_computes_naviMakeSymbol (F := noCalls NaviObj) hw type
  obtain ⟨str, w₂, hmakeStr, hstr, hw₂, hext₂⟩ :=
    hw₁.exists_make (F := noCalls NaviObj) (t := .naviString) (by decide) (.string msg)
  obtain ⟨list, rest, pairs, w₃, hmakeList, hw₃, hkeep, hlist, hspine⟩ :=
    hw₂.computes_naviList (F := noCalls NaviObj) str (irritants.takeWhile (· ≠ .void))
  obtain ⟨o, w₄, hmakeObj, ho, hw₄, hext₄⟩ :=
    hw₃.exists_make (F := noCalls NaviObj) (t := .naviPair) (by decide)
      (.pair (some sym) (some list))
  obtain ⟨args, w₅, hmakeArgs, hargs, -, hext₅⟩ :=
    hw₄.exists_make (F := noCalls NaviObj) (t := .naviPair) (by decide) (.pair (some o) (some .nil))
  have hext := hext₄.trans hext₅
  refine ⟨args, w₅, receives_of_runLeaf ?_ hargs, ⟨o, sym, list, str, rest, pairs, _, hargs,
    hext₅.load ho, hext.load (hkeep _ _ (hext₂.load (hsym.load hw₁))), hext.load hlist,
    hext.load (hkeep _ _ hstr), hext.spine hspine⟩⟩
  refine hmakeSym.runLeaf_bind.trans (hmakeStr.runLeaf_bind.trans ?_)
  exact hmakeList.runLeaf_bind.trans (hmakeObj.runLeaf_bind.trans hmakeArgs.runLeaf_bind)

theorem Receives.unique {c : ErrorCall} {args' : NaviObj} (h : Receives X c env w args w')
    (h' : Receives X c env w args' w₁) : args = args' ∧ w' = w₁ := by
  have heq := h.raised.symm.trans h'.raised
  cases heq
  exact ⟨rfl, rfl⟩

/-- `error` raises no error object. -/
theorem not_receives_scmError {str : NaviObj} {d : Data} (hw : w.Wf)
    (hargs : IsPair w args str rest) (hstr : w.load str = .ok (.naviString, d)) :
    ¬ ∃ args' w', Receives X (.scmError args) env w args' w' ∧ Reports w' args' msg irritants := by
  rintro ⟨args', w', hreceives, hreports⟩
  obtain ⟨args'', hraised, hpair⟩ := receives_scmError (X := X) w args env
  obtain ⟨rfl, rfl⟩ := hreceives.unique hraised
  have hext := hw.extends_make (t := .naviPair) (by decide) (.pair (some args) (some .nil))
  exact not_reports hpair (hext.load hargs) (hext.load hstr) hreports

/-- **What a handler receives for an error** is an error object with the message and the irritants
exactly when the error is raised by `_navi_error`, and none of the irritants is void. -/
theorem reports_iff {c : ErrorCall} (hw : w.Wf) (hc : c.Carries w msg irritants) (env : NaviEnv) :
    (∃ args w', Receives X c env w args w' ∧ Reports w' args msg irritants) ↔ c.Reported := by
  cases hc with
  | scmError hargs hstr hspine => exact iff_of_false (not_receives_scmError hw hargs hstr) id
  | @naviError_ type =>
    obtain ⟨args, w', hreceives, hlayout⟩ := receives_naviError_ (X := X) hw type msg irritants env
    have hvoid : irritants.takeWhile (· ≠ .void) = irritants ↔ NaviObj.void ∉ irritants := by
      simp only [List.takeWhile_eq_self_iff, decide_eq_true_eq]
      exact ⟨fun h hmem => h _ hmem rfl, fun h o ho heq => h (heq ▸ ho)⟩
    refine Iff.trans ⟨?_, fun h => ⟨args, w', hreceives, hlayout.reported_iff.mpr h⟩⟩ hvoid
    rintro ⟨args₁, w₁, hreceives₁, hreports⟩
    obtain ⟨rfl, rfl⟩ := hreceives₁.unique hreceives
    exact hlayout.reported_iff.mp hreports

/-- A world with the list `("boom" 1)`. -/
def errorWorld : World :=
  .ofCells [(.naviString, .string "boom"),
    (.naviPair, .pair (some (.fixnum 1)) (some .nil)),
    (.naviPair, .pair (some (.ptr (.obj 0))) (some (.ptr (.obj 1))))] [] [⟨none, []⟩] []

theorem reports_iff_boom :
    (∃ args w', Receives noExternals (.scmError (.ptr (.obj 2))) ⟨0, 0⟩ errorWorld args w' ∧
      Reports w' args "boom" [.fixnum 1]) ↔ (ErrorCall.scmError (.ptr (.obj 2))).Reported :=
  reports_iff (World.wf_ofCells (by decide))
    (.scmError (isPair_ptr.mpr rfl) rfl (.cons (isPair_ptr.mpr rfl) .nil)) ⟨0, 0⟩

/-- **A handler does not receive an error object for `(error "boom" 1)`.** -/
theorem not_reports_boom :
    ErrorCall.Carries errorWorld (.scmError (.ptr (.obj 2))) "boom" [.fixnum 1] ∧
      ¬ ∃ args w', Receives noExternals (.scmError (.ptr (.obj 2))) ⟨0, 0⟩ errorWorld args w' ∧
        Reports w' args "boom" [.fixnum 1] :=
  ⟨.scmError (isPair_ptr.mpr rfl) rfl (.cons (isPair_ptr.mpr rfl) .nil),
    not_receives_scmError (World.wf_ofCells (by decide)) (isPair_ptr.mpr rfl) rfl⟩

end NaviScheme
