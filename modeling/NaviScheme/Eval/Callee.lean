import NaviScheme.Eval.Handover

/-!
# What the callee of a call receives

`eval_call` evaluates the operands of a call if the operator is a procedure. If it is a
case-lambda or an escape it hands them over as they are in the call, without evaluating them. So
the callee receives the values of the operands exactly if the operator is a procedure, or each of
the operands is its own value (`NaviScheme.passesValues_iff`).
-/

namespace NaviScheme

open Prog

variable {X : Externals} {w₀ w w' : World} {call proc e args o v : NaviObj} {env : NaviEnv}
  {t : NaviType} {d : Data} {guard : Option (ScopeAddr × ℕ)} {n : ℕ}

/-! ### The parts of `eval_call` -/

/-- The operator of a call is evaluated, and guarded. -/
def callOperator (call : NaviObj) (env : NaviEnv) :
    Code (NaviObj × Option (ScopeAddr × ℕ)) := do
  let proc ← naviEval (← naviCar call) env [call] env.scopes
  let guard ← naviGcGuard proc env
  return (proc, guard)

/-- What a procedure or a case-lambda that is called is given: the procedure that is applied,
and its list of arguments. There is none if no clause accepts the number of operands. -/
def calleeOperands (proc args : NaviObj) (env : NaviEnv) : Code (Option (NaviObj × NaviObj)) := do
  if (← naviType proc) = .naviCaselambda then
    let nrArgs ← naviListLength args
    let clause ← findClause nrArgs (← naviVector proc)
    return clause.map fun clause => (clause, args)
  else
    let list ← operandList proc args env
    return some (proc, list)

/-- It is applied. -/
def applyCallee (env : NaviEnv) : Option (NaviObj × NaviObj) → Code NaviObj
  | some (callee, list) => naviApply callee list env [] []
  | none => do leaf env (naviArityError (← naviMakeSymbol "case-lambda"))

/-- What an escape that is called is given. -/
def escapeOperand (call : NaviObj) : Code NaviObj := do
  let n ← naviListLength call
  if n < 2 then return .nil else naviCadr call

/-- What `call/ec` does when the procedure that it has applied is left, `cont` being the
escape. -/
def callEcCatch (cont : NaviObj) : Except EvalExn NaviObj → Code NaviObj
  | .ok v => .ret v
  | .error (.escape o) =>
    if o = cont then do
      match (← load cont).2 with
      | .escape _ (some arg) => return arg
      | _ => fail .badWord
    else .throw (.escape o)
  | .error e => .throw e

theorem scmCallEc_eq (args : NaviObj) (env : NaviEnv) :
    scmCallEc args env = (do
      let proc ← naviCar args
      leaf env (naviCheckArity proc 1)
      let cont ← make .naviEscape (.escape none none)
      let guard ← naviGcGuard cont env
      store cont (.escape (some env) none)
      naviEnvRef env
      let contArgs ← naviMakePair cont .nil
      let result ← .call (.applyForce proc contArgs env) ⟨[cont], env.scopes⟩ (callEcCatch cont)
      naviGcUnguard guard
      naviEnvUnref env
      return result) := by
  refine bind_congr fun proc => bind_congr fun _ => bind_congr fun cont => bind_congr fun _ =>
    bind_congr fun _ => bind_congr fun _ => bind_congr fun contArgs => congrArg (· >>= _) ?_
  refine congrArg (Prog.call _ _) (funext fun r => ?_)
  rcases r with (o | args) | v <;> rfl

theorem World.Closed.callOperator (hX : ∀ S, X.Spares S True) (hw : w₀.Closed) (hhas : w₀.Has call)
    (hop : (worldSemantics X).Evaluates (callOperator call env) w₀ (.ok (proc, guard) w)) :
    w.Closed := by
  obtain ⟨e, he, hop⟩ := (inspects_naviCar call).of_bind hop nofun
  obtain ⟨v, w₁, heval, hop⟩ := hop.bind_ok_inv
  obtain ⟨guard', g, hguard⟩ := computes_naviGcGuard v env w₁
  cases (hguard.of_bind hop).unique .ret
  have hsees := hw.isPrivate.naviCar hhas.sees he
  exact ((hw.isPrivate.naviEval hX hsees heval).1.guarded g).closed

/-- What follows when the operator has been evaluated. -/
theorem evaluates_callOperator {α : Type} {g : NaviObj → Option (ScopeAddr × ℕ) → Code α}
    (hop : (worldSemantics X).Evaluates (callOperator call env) w₀ (.ok (proc, guard) w))
    {r : Res Fault EvalExn World α} :
    (worldSemantics X).Evaluates (do
      let proc ← naviEval (← naviCar call) env [call] env.scopes
      let guard ← naviGcGuard proc env
      g proc guard) w₀ r ↔ (worldSemantics X).Evaluates (g proc guard) w r := by
  have hrest := hop.bind_iff (g := fun r => g r.1 r.2) (q := r)
  simp only [callOperator, Prog.bind_assoc, pure_bind] at hrest
  exact hrest

/-- A call of a procedure or of a case-lambda hands over what the callee is given, and applies
it. -/
theorem evaluates_evalCall
    (hop : (worldSemantics X).Evaluates (callOperator call env) w₀ (.ok (proc, guard) w))
    (hcall : IsPair w call e args) (hproc : w.load proc = .ok (t, d))
    (ht : t = .naviProcedure ∨ t = .naviCaselambda) (r : Res Fault EvalExn World NaviObj) :
    (worldSemantics X).Evaluates (evalCallBody call env) w₀ r ↔
      (worldSemantics X).Evaluates (calleeOperands proc args env >>= applyCallee env) w r := by
  have htype : Computes (naviType proc : Code _) w t w := computes_naviType hproc
  refine (evaluates_callOperator hop).trans (htype.evaluates.bind_iff.trans ?_)
  rw [calleeOperands, Prog.bind_assoc]
  refine Iff.trans ?_ htype.evaluates.bind_iff.symm
  obtain rfl | rfl := ht
  · refine (computes_naviCdr hcall).evaluates.bind_iff.trans ?_
    refine (evaluates_bind_ret fun w => computes_naviGcUnguard guard w).trans ?_
    refine evaluates_callFn.trans ?_
    rw [if_neg (by decide)]
    change (worldSemantics X).Evaluates (procedureCallBody proc args env) w r ↔ _
    rw [procedureCallBody_eq, Prog.bind_assoc]
    rfl
  · refine (computes_naviCdr hcall).evaluates.bind_iff.trans ?_
    refine (evaluates_bind_ret fun w => computes_naviGcUnguard guard w).trans ?_
    refine evaluates_callFn.trans ?_
    rw [if_pos rfl]
    change (worldSemantics X).Evaluates (caselambdaCallBody proc args env) w r ↔ _
    have heq : caselambdaCallBody proc args env = (do
        let nrArgs ← naviListLength args
        let clause ← findClause nrArgs (← naviVector proc)
        return clause.map fun clause => (clause, args)) >>= applyCallee env := by
      simp only [caselambdaCallBody, Prog.bind_assoc, pure_bind]
      refine bind_congr fun n => bind_congr fun data => bind_congr fun clause => ?_
      cases clause <;> rfl
    rw [heq]

/-! ### What the callee receives -/

/-- The first clause of a case-lambda whose arity accepts `n` operands. -/
inductive FirstAccepting (w : World) (n : ℕ) : List (Option NaviObj) → NaviObj → Prop
  /-- the first of the clauses -/
  | here {clause : NaviObj} {rest : List (Option NaviObj)} {t : NaviType} {p : NaviProcedure}
    (hp : w.load clause = .ok (t, .proc p)) (haccepts : naviAritySatisfied p n = true) :
    FirstAccepting w n (some clause :: rest) clause
  /-- a later one -/
  | there {clause callee : NaviObj} {rest : List (Option NaviObj)} {t : NaviType}
    {p : NaviProcedure} (hp : w.load clause = .ok (t, .proc p))
    (haccepts : naviAritySatisfied p n = false) (hrest : FirstAccepting w n rest callee) :
    FirstAccepting w n (some clause :: rest) callee

theorem inspects_findClause (n : ℕ) (data : List (Option NaviObj)) :
    Inspects (findClause n data) := by
  induction data with
  | nil => exact Inspects.ret _
  | cons clause rest ih =>
    cases clause with
    | none => exact Inspects.fail _
    | some clause =>
      refine (inspects_naviProcedure clause).bind fun p => ?_
      split_ifs
      · exact Inspects.ret _
      · exact ih

/-- **The search of `caselambda_call`.** -/
theorem computes_findClause_iff {data : List (Option NaviObj)} {clause : NaviObj} :
    Computes (findClause n data) w (some clause) w ↔ FirstAccepting w n data clause := by
  induction data with
  | nil =>
    refine ⟨fun h => ?_, fun h => by cases h⟩
    cases (Computes.ret_inv h).1
  | cons first rest ih =>
    constructor
    · intro h
      cases first with
      | none => exact absurd h not_computes_fail
      | some first =>
        obtain ⟨p, hp, hrest⟩ := h.of_bind_inspects (inspects_naviProcedure first)
        obtain ⟨t, hload⟩ := naviProcedure_inv hp
        split_ifs at hrest with haccepts
        · cases (Computes.ret_inv hrest).1
          exact .here hload haccepts
        · exact .there hload (by simpa using haccepts) (ih.mp hrest)
    · intro h
      cases h with
      | here hp haccepts =>
        refine (computes_naviProcedure hp).bind ?_
        rw [if_pos haccepts]
        exact Computes.ret _
      | there hp haccepts hrest =>
        refine (computes_naviProcedure hp).bind ?_
        rw [if_neg (by simp [haccepts])]
        exact ih.mpr hrest

/-- What is applied when a procedure or a case-lambda is called with `n` operands. -/
inductive Applied (w : World) (proc : NaviObj) (n : ℕ) : NaviObj → Prop
  /-- the procedure itself -/
  | procedure {d : Data} (hproc : w.load proc = .ok (.naviProcedure, d)) : Applied w proc n proc
  /-- the first clause that accepts the operands -/
  | clause {data : List (Option NaviObj)} {callee : NaviObj}
    (hproc : w.load proc = .ok (.naviCaselambda, .vector data))
    (hcallee : FirstAccepting w n data callee) : Applied w proc n callee

/-- The operands `args` of a call that has got to the world `w` have been evaluated once each, from
left to right, in `env`: their values are `vs`. -/
def Evaluated (X : Externals) (w : World) (args : NaviObj) (env : NaviEnv) (vs : List NaviObj)
    (w' : World) : Prop :=
  ∃ last, Operands X env (fun a => ¬ w.Allocated a) w args vs w' last ∧ NoPair w' last

/-- **The callee of a call receives exactly the values of the operands**, when the operator has
been evaluated from the world `w₀` to `w`. For an escape, this is what `call/ec` returns; without an
operand it is the empty list. -/
def PassesValues (X : Externals) (w₀ w : World) (call proc args : NaviObj) (env : NaviEnv) :
    NaviType → Prop
  | .naviEscape => ∀ x w', (worldSemantics X).Evaluates (evalCallBody call env) w₀ (.exn x w') →
    ∃ vs v w₁, Evaluated X w args env vs w₁ ∧ (vs = [v] ∨ vs = [] ∧ v = .nil) ∧
      w₁.SameBut (fun a => .ptr a = proc) w' ∧
      (worldSemantics X).Evaluates (callEcCatch proc (.error x)) w' (.ok v w')
  | _ => (∀ r, (worldSemantics X).Evaluates (evalCallBody call env) w₀ r ↔
      (worldSemantics X).Evaluates (calleeOperands proc args env >>= applyCallee env) w r) ∧
    ∀ callee list w', (worldSemantics X).Evaluates (calleeOperands proc args env) w
        (.ok (some (callee, list)) w') →
      ∃ vs, Evaluated X w args env vs w' ∧ Elements w' list vs ∧ Applied w proc vs.length callee

/-- All operands of a call are their own values. -/
def OwnValues (w : World) (env : NaviEnv) (args : NaviObj) : Prop :=
  ∃ vs, Elements w args vs ∧ ∀ v ∈ vs, w.SelfEvaluating env v

theorem Elements.length_walk {vs pairs : List NaviObj} {last : NaviObj} (h : Elements w o vs)
    (hwalk : w.walk n o = .ok (pairs, last)) : pairs.length = vs.length := by
  induction h generalizing n pairs with
  | nil ho =>
    obtain ⟨rfl, -⟩ | ⟨_, _, _, _, -, hload, -⟩ := World.walk_inv hwalk
    · rfl
    · exact absurd hload (ho _)
  | cons ho _ ih =>
    obtain ⟨-, -, hno⟩ | ⟨m, car, cdr, ps, rfl, hload, hm⟩ := World.walk_inv hwalk
    · exact absurd ho (hno _)
    · have heq := hload.symm.trans ho
      obtain ⟨rfl, rfl⟩ : car = some _ ∧ cdr = _ := by simpa using heq
      rw [List.length_cons, List.length_cons, ih hm]

theorem Elements.naviListLength_eq {vs : List NaviObj} (h : Elements w o vs)
    (hn : Computes (naviListLength o : Code _) w n w) : n = vs.length := by
  obtain ⟨⟨pairs, last⟩, hwalk, hret⟩ := hn.of_bind_inspects (inspects_walk o)
  obtain ⟨rfl, -⟩ := hret.ret_inv
  obtain ⟨r, hr, heq⟩ := map_eq_ok hwalk.perform_inv
  cases heq
  exact h.length_walk hr

/-! ### Procedures and case-lambdas -/

theorem passesValues_procedure (hX : ∀ S, X.Spares S True) (hw : w.Closed) (hargs : w.Has args)
    (hop : (worldSemantics X).Evaluates (callOperator call env) w₀ (.ok (proc, guard) w))
    (hcall : IsPair w call e args) (hproc : w.load proc = .ok (.naviProcedure, d)) :
    PassesValues X w₀ w call proc args env .naviProcedure := by
  refine ⟨evaluates_evalCall hop hcall hproc (.inl rfl), fun callee list w' h => ?_⟩
  have hlist := (computes_naviType hproc).evaluates.bind_iff.mp h
  rw [if_neg (by decide)] at hlist
  obtain ⟨list', w₁, hlist, hret⟩ := hlist.bind_ok_inv
  cases hret.unique .ret
  obtain ⟨pairs, vs, hfrom⟩ := operandList_values hX hw hargs hlist
  obtain ⟨last, hops, hlast⟩ := hfrom.operands
  exact ⟨vs, ⟨last, hops.mono hfrom.new, hlast⟩, hfrom.spine.toElements, .procedure hproc⟩

/-- What a clause of a case-lambda is given. -/
theorem evaluates_calleeOperands_caselambda {callee list : NaviObj}
    (hproc : w.load proc = .ok (.naviCaselambda, d)) :
    (worldSemantics X).Evaluates (calleeOperands proc args env) w (.ok (some (callee, list)) w') ↔
      ∃ data n, d = .vector data ∧ Computes (naviListLength args : Code _) w n w ∧
        FirstAccepting w n data callee ∧ list = args ∧ w' = w := by
  refine (computes_naviType hproc).evaluates.bind_iff.trans ?_
  rw [if_pos rfl]
  constructor
  · intro h
    obtain ⟨n, hn, h⟩ := (inspects_naviListLength args).of_bind h nofun
    obtain ⟨data, hdata, h⟩ := (inspects_naviVector proc).of_bind h nofun
    obtain ⟨clause, hclause, h⟩ := (inspects_findClause n data).of_bind h nofun
    obtain ⟨t, hload⟩ := naviVector_inv hdata
    obtain rfl : d = .vector data := (Prod.mk.inj (Except.ok.inj (hproc.symm.trans hload))).2
    cases clause with
    | none => cases h.unique .ret
    | some clause =>
      cases h.unique .ret
      exact ⟨data, n, rfl, hn, computes_findClause_iff.mp hclause, rfl, rfl⟩
  · rintro ⟨data, n, rfl, hn, hclause, rfl, rfl⟩
    have hdata : Computes (naviVector proc : Code _) w' data w' :=
      (computes_load hproc).bind (Computes.ret _)
    exact hn.evaluates_bind (hdata.evaluates_bind
      ((computes_findClause_iff.mpr hclause).evaluates_bind .ret))

theorem Evaluated.ownValues {vs : List NaviObj} (h : Evaluated X w args env vs w') (hw : w.Closed)
    (hargs : w.Has args) (hlog : w'.log = w.log) :
    Elements w args vs ∧ ∀ v ∈ vs, w.SelfEvaluating env v := by
  obtain ⟨last, hops, hlast⟩ := h
  exact hops.of_log (.refl _ w) hw hargs (fun _ ha => ha) hlast (congrArg List.length hlog).le

theorem passesValues_caselambda_iff (hw : w.Closed) (hargs : w.Has args)
    (hop : (worldSemantics X).Evaluates (callOperator call env) w₀ (.ok (proc, guard) w))
    (hcall : IsPair w call e args) (hproc : w.load proc = .ok (.naviCaselambda, d)) :
    PassesValues X w₀ w call proc args env .naviCaselambda ↔
      ∀ data n callee, d = .vector data → Computes (naviListLength args : Code _) w n w →
        FirstAccepting w n data callee → OwnValues w env args := by
  constructor
  · rintro ⟨-, h⟩ data n callee hdata hn hcallee
    obtain ⟨vs, hvs, -⟩ := h callee args w
      ((evaluates_calleeOperands_caselambda hproc).mpr ⟨data, n, hdata, hn, hcallee, rfl, rfl⟩)
    exact ⟨vs, hvs.ownValues hw hargs rfl⟩
  · intro h
    refine ⟨evaluates_evalCall hop hcall hproc (.inr rfl), fun callee list w' hlist => ?_⟩
    obtain ⟨data, n, rfl, hn, hcallee, rfl, rfl⟩ :=
      (evaluates_calleeOperands_caselambda hproc).mp hlist
    obtain ⟨vs, helems, hself⟩ := h data n callee rfl hn hcallee
    refine ⟨vs, Operands.of_self helems hself, helems, .clause hproc ?_⟩
    exact helems.naviListLength_eq hn ▸ hcallee

/-! ### Escapes -/

theorem inspects_escapeOperand (call : NaviObj) : Inspects (escapeOperand call) := by
  refine (inspects_naviListLength call).bind fun n => ?_
  split_ifs
  · exact Inspects.ret _
  · exact (inspects_naviCdr call).bind fun cdr => inspects_naviCar cdr

/-- What an escape is given, of a call whose operands can be read. -/
theorem escapeOperand_eq {vs : List NaviObj} (hcall : IsPair w call e args) (h : Elements w args vs)
    (ho : Computes (escapeOperand call) w o w) : o = vs.headD .nil := by
  obtain ⟨n, hn, ho⟩ := ho.of_bind_inspects (inspects_naviListLength call)
  obtain rfl : n = vs.length + 1 := (Elements.cons hcall h).naviListLength_eq hn
  cases h with
  | nil =>
    rw [if_pos (by simp)] at ho
    exact ho.ret_inv.1
  | cons hcar _ =>
    rw [if_neg (by simp)] at ho
    exact (ho.unique ((computes_naviCdr hcall).bind (computes_naviCar hcar))).1

theorem evaluates_naviCallEscape_iff {α β : Type} {arg : NaviObj} {g : α → Code β} {x : EvalExn}
    (hproc : w.load proc = .ok (t, d)) :
    (worldSemantics X).Evaluates (naviCallEscape proc arg >>= g) w (.exn x w') ↔
      ∃ a env' arg', proc = .ptr a ∧ d = .escape env' arg' ∧ x = .escape proc ∧
        w' = w.setObj a (t, .escape env' (some arg)) := by
  obtain ⟨a, rfl⟩ := World.ptr_of_load hproc
  rw [naviCallEscape, Prog.bind_assoc]
  refine (computes_load hproc).evaluates.bind_iff.trans ?_
  cases d with
  | escape env' arg' =>
    have hstore : Computes (store (.ptr a) (.escape env' (some arg)) : Code _) w ()
        (w.setObj a (t, .escape env' (some arg))) := by
      refine Computes.perform ?_
      rw [World.step, hproc]
      rfl
    simp only [Prog.bind_assoc, Prog.throw_bind]
    refine hstore.evaluates.bind_iff.trans ⟨fun h => ?_, ?_⟩
    · cases h.unique .throw
      exact ⟨a, env', arg', rfl, rfl, rfl, rfl⟩
    · rintro ⟨b, env'', arg'', hb, hd, rfl, rfl⟩
      cases hb
      cases hd
      exact .throw
  | _ =>
    refine iff_of_false (fun h => ?_) ?_
    · obtain ⟨-, n, hn⟩ := h
      cases hn
    · rintro ⟨b, env'', arg'', hb, hd, -⟩
      cases hd

/-- **A call of an escape** stores what it is given in the escape, and goes to `call/ec`. -/
theorem evaluates_evalCall_escape {x : EvalExn}
    (hop : (worldSemantics X).Evaluates (callOperator call env) w₀ (.ok (proc, guard) w))
    (hproc : w.load proc = .ok (.naviEscape, d)) :
    (worldSemantics X).Evaluates (evalCallBody call env) w₀ (.exn x w') ↔
      ∃ arg, Computes (escapeOperand call) w arg w ∧ ∃ a env' arg', proc = .ptr a ∧
        d = .escape env' arg' ∧ x = .escape proc ∧
        w' = w.setObj a (.naviEscape, .escape env' (some arg)) := by
  refine (evaluates_callOperator hop).trans
    ((computes_naviType hproc).evaluates.bind_iff.trans ?_)
  have hbranch : (do
      let n ← naviListLength call
      let arg ← if n < 2 then pure .nil else naviCadr call
      let obj ← (naviCallEscape proc arg : Code NaviObj)
      naviGcUnguard guard
      return obj) = escapeOperand call >>= fun arg => naviCallEscape proc arg >>= fun obj => (do
        naviGcUnguard guard
        return obj) := by
    simp only [escapeOperand, Prog.bind_assoc, Prog.ite_bind]
  refine (iff_of_eq (congrArg (fun p => (worldSemantics X).Evaluates p w _) hbranch)).trans ⟨?_, ?_⟩
  · intro h
    obtain ⟨arg, harg, h⟩ := (inspects_escapeOperand call).of_bind h nofun
    exact ⟨arg, harg, (evaluates_naviCallEscape_iff hproc).mp h⟩
  · rintro ⟨arg, harg, h⟩
    exact harg.evaluates_bind ((evaluates_naviCallEscape_iff hproc).mpr h)

theorem passesValues_escape_iff (hw : w.Closed) (hargs : w.Has args)
    (hop : (worldSemantics X).Evaluates (callOperator call env) w₀ (.ok (proc, guard) w))
    (hcall : IsPair w call e args) (hproc : w.load proc = .ok (.naviEscape, d)) :
    PassesValues X w₀ w call proc args env .naviEscape ↔
      ∀ env' arg' arg, d = .escape env' arg' → Computes (escapeOperand call) w arg w →
        ∃ vs, vs.length ≤ 1 ∧ Elements w args vs ∧ ∀ v ∈ vs, w.SelfEvaluating env v := by
  obtain ⟨a, rfl⟩ := World.ptr_of_load hproc
  constructor
  · intro h env' arg' arg hd harg
    obtain ⟨vs, v, w₁, hvs, hv, hsame, -⟩ := h _ _ ((evaluates_evalCall_escape hop hproc).mpr
      ⟨arg, harg, a, env', arg', rfl, hd, rfl, rfl⟩)
    refine ⟨vs, ?_, hvs.ownValues hw hargs hsame.log.symm⟩
    obtain rfl | ⟨rfl, -⟩ := hv <;> simp
  · intro h x w' hexn
    obtain ⟨arg, harg, b, env', arg', hb, hd, rfl, rfl⟩ :=
      (evaluates_evalCall_escape hop hproc).mp hexn
    cases hb
    obtain ⟨vs, hlength, helems, hself⟩ := h env' arg' arg hd harg
    have hsame : w.SameBut (fun b => NaviObj.ptr b = .ptr a)
        (w.setObj a (.naviEscape, .escape env' (some arg))) :=
      .setObj (fun b => NaviObj.ptr b = .ptr a) rfl _
    refine ⟨vs, arg, w, Operands.of_self helems hself, ?_, hsame, ?_⟩
    · rw [escapeOperand_eq hcall helems harg]
      match vs, hlength with
      | [], _ => exact .inr ⟨rfl, rfl⟩
      | [v], _ => exact .inl rfl
    · have hload : (w.setObj a (.naviEscape, .escape env' (some arg))).load (.ptr a) =
          .ok (.naviEscape, .escape env' (some arg)) :=
        World.load_ptr (by rw [World.objs_setObj, if_pos rfl])
      rw [callEcCatch, if_pos rfl]
      exact (computes_load hload).evaluates_bind .ret

/-! ### All calls -/

/-- **The callee of a call receives exactly the values of the operands**, each evaluated once, from
left to right, **exactly if** the operator is a procedure, or a case-lambda none of whose clauses
accepts the operands or all of whose operands are their own values, or an escape with at most one
operand, which is its own value. -/
theorem passesValues_iff (hX : ∀ S, X.Spares S True) (hw : w₀.Closed) (hhas : w₀.Has call)
    (hop : (worldSemantics X).Evaluates (callOperator call env) w₀ (.ok (proc, guard) w))
    (hcall : IsPair w call e args) (hproc : w.load proc = .ok (t, d))
    (ht : t = .naviProcedure ∨ t = .naviCaselambda ∨ t = .naviEscape) :
    PassesValues X w₀ w call proc args env t ↔
      t = .naviProcedure ∨
      (t = .naviCaselambda ∧ ∀ data n callee, d = .vector data →
        Computes (naviListLength args : Code _) w n w → FirstAccepting w n data callee →
        OwnValues w env args) ∨
      (t = .naviEscape ∧ ∀ env' arg' arg, d = .escape env' arg' →
        Computes (escapeOperand call) w arg w →
        ∃ vs, vs.length ≤ 1 ∧ Elements w args vs ∧ ∀ v ∈ vs, w.SelfEvaluating env v) := by
  have hclosed := hw.callOperator hX hhas hop
  have hargs : w.Has args :=
    hclosed.hides.load (hclosed.has_of_load hcall) hcall _ (by simp [Data.objs])
  obtain rfl | rfl | rfl := ht
  · exact iff_of_true (passesValues_procedure hX hclosed hargs hop hcall hproc) (.inl rfl)
  · simpa using passesValues_caselambda_iff hclosed hargs hop hcall hproc
  · simpa using passesValues_escape_iff hclosed hargs hop hcall hproc

/-- A world in which `y` is bound to `5` and `g` to the procedure `(lambda (k) (k y))`, with the
form `(call/ec g)` and with calls of a case-lambda, whose clause is `((x) x)`, with the operands
`y` and `7`. -/
def calleeWorld : World :=
  let o (n : ℕ) : NaviObj := .ptr (.obj n)
  .ofCells
    [(.naviSymbol, .symbol "f" true),
      (.naviSymbol, .symbol "y" true),
      (.naviSymbol, .symbol "x" true),
      (.naviSymbol, .symbol "k" true),
      (.naviSymbol, .symbol "call/ec" true),
      (.naviSymbol, .symbol "g" true),
      -- (x), the clause, the case-lambda
      (.naviPair, .pair (some (o 2)) (some .nil)),
      (.naviProcedure, .proc ⟨false, 1, o 0, 0, o 6, .body (o 6), none⟩),
      (.naviCaselambda, .vector [some (o 7)]),
      -- (y), and the call of the case-lambda
      (.naviPair, .pair (some (o 1)) (some .nil)),
      (.naviPair, .pair (some (o 8)) (some (o 9))),
      -- (k), (k y), ((k y)), the procedure
      (.naviPair, .pair (some (o 3)) (some .nil)),
      (.naviPair, .pair (some (o 3)) (some (o 9))),
      (.naviPair, .pair (some (o 12)) (some .nil)),
      (.naviProcedure, .proc ⟨false, 1, o 5, 0, o 11, .body (o 13), none⟩),
      (.naviProcedure, .proc ⟨false, 1, o 4, 0, .void, .cProc .scmCallEc,
        some [.type .naviProcedure]⟩),
      -- (g), (call/ec g)
      (.naviPair, .pair (some (o 5)) (some .nil)),
      (.naviPair, .pair (some (o 4)) (some (o 16))),
      -- (7), and the call of the case-lambda
      (.naviPair, .pair (some (.fixnum 7)) (some .nil)),
      (.naviPair, .pair (some (o 8)) (some (o 18)))]
    [("f", 0), ("y", 1), ("x", 2), ("k", 3), ("call/ec", 4), ("g", 5)]
    [⟨none, [⟨o 1, .fixnum 5⟩, ⟨o 4, o 15⟩, ⟨o 5, o 14⟩]⟩, ⟨none, []⟩] []

theorem calleeWorld_closed : calleeWorld.Closed :=
  World.closed_ofCells (by decide) (by decide) (by decide) (by decide)

/-- The operator of the calls of the case-lambda is evaluated. -/
theorem calleeWorld_callOperator (hcall : IsPair calleeWorld call (.ptr (.obj 8)) args) :
    ∃ guard g, (worldSemantics noExternals).Evaluates (callOperator call ⟨0, 1⟩) calleeWorld
      (.ok (.ptr (.obj 8), guard) (calleeWorld.evaluated (.ptr (.obj 8)) ⟨0, 1⟩ g)) := by
  have hself : calleeWorld.SelfEvaluating ⟨0, 1⟩ (.ptr (.obj 8)) :=
    .constant (World.load_ptr rfl) trivial
  obtain ⟨g, heval⟩ := evaluates_naviEval_self (X := noExternals) hself [call] [0, 1]
  obtain ⟨guard, g', hguard⟩ := computes_naviGcGuard (.ptr (.obj 8)) ⟨0, 1⟩
    (calleeWorld.evaluated (.ptr (.obj 8)) ⟨0, 1⟩ g)
  exact ⟨guard, g',
    (computes_naviCar hcall).evaluates_bind (heval.bind (hguard.evaluates_bind .ret))⟩

theorem passesValues_iff_seven :
    ∃ guard w, (worldSemantics noExternals).Evaluates (callOperator (.ptr (.obj 19)) ⟨0, 1⟩)
        calleeWorld (.ok (.ptr (.obj 8), guard) w) ∧
      PassesValues noExternals calleeWorld w (.ptr (.obj 19)) (.ptr (.obj 8)) (.ptr (.obj 18))
        ⟨0, 1⟩ .naviCaselambda := by
  have hcall : IsPair calleeWorld (.ptr (.obj 19)) (.ptr (.obj 8)) (.ptr (.obj 18)) :=
    isPair_ptr.mpr rfl
  obtain ⟨guard, g, hop⟩ := calleeWorld_callOperator hcall
  refine ⟨guard, _, hop, (passesValues_iff noExternals_spares calleeWorld_closed
    (World.has_ofCells (by decide)) hop hcall (World.load_ptr rfl)
    (.inr (.inl rfl))).mpr (.inr (.inl ⟨rfl, fun data n callee _ _ _ => ?_⟩))⟩
  exact ⟨[.fixnum 7], .cons (isPair_ptr.mpr rfl) (.nil noPair_nil),
    List.forall_mem_singleton.mpr (.immediate nofun)⟩

/-- **A case-lambda and an escape receive the symbol `y`**, whose value is `5`. -/
theorem not_passesValues :
    (∃ w', (worldSemantics noExternals).Returns (.naviEval (.ptr (.obj 1)) ⟨0, 1⟩) calleeWorld
      (.ok (.fixnum 5) w')) ∧
    (∃ w', (worldSemantics noExternals).Returns (.naviEval (.ptr (.obj 10)) ⟨0, 1⟩) calleeWorld
      (.ok (.ptr (.obj 1)) w')) ∧
    (∃ w', (worldSemantics noExternals).Returns (.naviEval (.ptr (.obj 17)) ⟨0, 1⟩) calleeWorld
      (.ok (.ptr (.obj 1)) w')) ∧
    ∃ guard w, (worldSemantics noExternals).Evaluates (callOperator (.ptr (.obj 10)) ⟨0, 1⟩)
        calleeWorld (.ok (.ptr (.obj 8), guard) w) ∧
      ¬ PassesValues noExternals calleeWorld w (.ptr (.obj 10)) (.ptr (.obj 8)) (.ptr (.obj 9))
        ⟨0, 1⟩ .naviCaselambda := by
  refine ⟨returns_of_naviEvalRun (n := 19) (by decide),
    returns_of_naviEvalRun (n := 19) (by decide), returns_of_naviEvalRun (n := 19) (by decide), ?_⟩
  have hcall : IsPair calleeWorld (.ptr (.obj 10)) (.ptr (.obj 8)) (.ptr (.obj 9)) :=
    isPair_ptr.mpr rfl
  obtain ⟨guard, g, hop⟩ := calleeWorld_callOperator hcall
  have hclosed :=
    calleeWorld_closed.callOperator noExternals_spares (World.has_ofCells (by decide)) hop
  refine ⟨guard, _, hop, fun h => ?_⟩
  generalize hw : calleeWorld.evaluated (.ptr (.obj 8)) ⟨0, 1⟩ g = w at *
  have hargs : IsPair w (.ptr (.obj 9)) (.ptr (.obj 1)) .nil := hw ▸ isPair_ptr.mpr rfl
  have hlength : Computes (naviListLength (.ptr (.obj 9)) : Code _) w 1 w := by
    subst hw
    exact (Computes.perform rfl).bind (Computes.ret _)
  have hclause : FirstAccepting w 1 [some (.ptr (.obj 7))] (.ptr (.obj 7)) := by
    subst hw
    exact .here (World.load_ptr rfl) rfl
  have hcall' : IsPair w (.ptr (.obj 10)) (.ptr (.obj 8)) (.ptr (.obj 9)) := hw ▸ hcall
  have hproc : w.load (.ptr (.obj 8)) = .ok (.naviCaselambda, .vector [some (.ptr (.obj 7))]) :=
    hw ▸ World.load_ptr rfl
  obtain ⟨vs, hvs, hself⟩ := (passesValues_caselambda_iff hclosed (hclosed.has_of_load hargs) hop
    hcall' hproc).mp h _ 1 _ rfl hlength hclause
  cases hvs with
  | nil ho => exact ho _ hargs
  | cons ho _ =>
    -- the symbol is not its own value
    obtain ⟨rfl, -⟩ := ho.unique hargs
    have hy := hself _ List.mem_cons_self
    cases hy with
    | immediate hv => exact hv _ rfl
    | constant hv ht =>
      subst hw
      cases hv
      exact ht
    | symbol hv hu =>
      subst hw
      cases hu
    | values hv hu =>
      subst hw
      cases hv

end NaviScheme
