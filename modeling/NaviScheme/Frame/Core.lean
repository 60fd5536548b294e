import NaviScheme.Eval.Core
import NaviScheme.Frame.Leaf

/-!
# eval.c spares

The functions of `eval.c` spare the objects that they are not given.
-/

namespace NaviScheme

open Prog

variable {α : Type} {F : FnSig} {S : Addr → Prop} {G : Prop} {D : FnContract F}
  {expr proc args cons obj fst : NaviObj} {env new : NaviEnv} {objs : List NaviObj}
  {scopes : List ScopeAddr} {Q : NaviObj → Prop} {X : Externals}

attribute [local simp] EvalFn.Avoids EvalFn.objs

theorem spares_naviEvalBody (hexpr : Avoids S expr) :
    Spares S G (sparing S) (naviEvalBody expr env) (Avoids S) := by
  refine spares_bind (spares_naviEnvRef ?_)
  refine spares_bind (spares_callFn (by simp [hexpr]) fun v hv => ?_)
  exact spares_bind (spares_naviEnvUnref hv)

theorem spares_evalLoopBody (hexpr : Avoids S expr) :
    Spares S G (sparing S) (evalLoopBody expr env) (Avoids S) := by
  refine spares_bind (spares_naviGcGuard fun guard => ?_)
  refine spares_bind (spares_callFn (by simp [hexpr]) fun (v : NaviObj) (hv : Avoids S v) => ?_)
  refine spares_bind (spares_naviGcUnguard (spares_bind (spares_naviType hv fun t => ?_)))
  refine spares_ite_iff.mpr ?_
  split_ifs
  · exact spares_callFn (by simp [hv]) fun _ h => h
  · exact hv

theorem spares_evalBody_ (hexpr : Avoids S expr) :
    Spares S G (sparing S) (evalBody_ expr env) (Avoids S) := by
  refine spares_bind (spares_evaluating (spares_bind (spares_naviType hexpr fun t => ?_)))
  cases t with
  | naviThunk | naviBounce =>
    refine spares_bind (spares_naviThunk hexpr fun thunk hthunk => ?_)
    exact spares_callFn (by simp [hthunk]) fun _ h => h
  | naviValues =>
    exact spares_bind (spares_naviVector hexpr fun data hdata => spares_elem hdata fun _ h => h)
  | naviSymbol =>
    refine spares_bind (spares_naviEnvLookup fun val hval => ?_)
    refine spares_bind (spares_naviType hval fun t => spares_ite_iff.mpr ?_)
    split_ifs
    · exact spares_leaf (spares_naviUnboundIdentifierError hexpr)
    · exact hval
  | naviPair =>
    refine spares_bind (spares_naviIsProperList hexpr fun b => spares_ite_iff.mpr ?_)
    split_ifs
    · exact spares_callFn (by simp [hexpr]) fun _ h => h
    · refine spares_bind (spares_naviMakeApair hexpr fun e he => ?_)
      exact spares_leaf (spares_naviError (by simp [he]))
  | naviTrap => exact spares_fail
  | _ => exact hexpr

theorem spares_naviParameterLookup (hexpr : Avoids S expr) (h : ∀ r, Avoids S r → Q r) :
    Spares S G (sparing S) (naviParameterLookup expr env) Q := by
  refine spares_bind (spares_naviCar hexpr fun key _ => ?_)
  refine spares_bind (spares_naviEnvBinding fun r hr => ?_)
  cases r with
  | none => exact spares_leaf (spares_naviError (by simp))
  | some b => exact h _ (hr b.1 b.2 rfl)

theorem spares_naviCallEscape {escape arg : NaviObj} {R : α → Prop} (hescape : Avoids S escape)
    (harg : Avoids S arg) : Spares S G (sparing S) (naviCallEscape escape arg) R := by
  refine spares_bind (spares_load hescape fun t d hd => ?_)
  cases d with
  | escape env _ =>
    refine spares_bind (spares_store hescape ((Data.avoids_escape _ _).mpr ?_) hescape)
    simp [harg]
  | _ => exact spares_fail

theorem spares_evalCallBody (hexpr : Avoids S expr) :
    Spares S G (sparing S) (evalCallBody expr env) (Avoids S) := by
  refine spares_bind (spares_naviCar hexpr fun e he => ?_)
  refine spares_bind (spares_naviEval he fun proc hproc => ?_)
  refine spares_bind (spares_naviGcGuard fun guard => ?_)
  refine spares_bind (spares_naviType hproc fun t => ?_)
  have hlast : ∀ obj, Avoids S obj → Spares S G (sparing S) (do
      naviGcUnguard guard
      return obj : Code NaviObj) (Avoids S) := fun obj hobj =>
    spares_bind (spares_naviGcUnguard hobj)
  cases t with
  | naviSpecial | naviProcedure | naviCaselambda =>
    refine spares_bind (spares_naviCdr hexpr fun cdr hcdr => ?_)
    exact spares_bind (spares_callFn (by simp [hproc, hcdr]) hlast)
  | naviMacro =>
    refine spares_bind (spares_naviCdr hexpr fun cdr hcdr => ?_)
    refine spares_bind (spares_callFn (by simp [hproc, hcdr]) fun e he => ?_)
    exact spares_bind (spares_evalTail he hlast)
  | naviEscape =>
    refine spares_bind (spares_naviListLength hexpr fun n => spares_ite_iff.mpr ?_)
    split_ifs
    · exact spares_bind (spares_pure (spares_bind (spares_naviCallEscape hproc (by simp))))
    · refine spares_bind (spares_naviCadr hexpr fun arg harg => ?_)
      exact spares_bind (spares_naviCallEscape hproc harg)
  | naviParameter =>
    refine spares_bind (spares_naviCdr hexpr fun cdr hcdr => spares_ite_iff.mpr ?_)
    split_ifs
    · exact spares_bind (spares_naviParameterLookup hproc hlast)
    · refine spares_bind (spares_naviCar hproc fun key hkey => ?_)
      exact spares_bind (spares_leaf (spares_naviArityError hkey))
  | _ =>
    refine spares_bind (spares_naviMakeApair hproc fun value hvalue => ?_)
    exact spares_bind (spares_leaf (spares_naviError (by simp [hvalue])))

theorem spares_naviApplyBody_ (hproc : Avoids S proc) (hargs : Avoids S args) :
    Spares S G (sparing S) (naviApplyBody_ proc args env) (Avoids S) := by
  refine spares_bind (spares_leaf (spares_checkApply hproc hargs fun n => ?_))
  exact spares_callFn (by simp [hproc, hargs]) fun _ h => h

theorem spares_doApplyBody {nrArgs : ℕ} (hproc : Avoids S proc) (hargs : Avoids S args) :
    Spares S G (sparing S) (doApplyBody proc nrArgs args env) (Avoids S) := by
  refine spares_bind (spares_naviProcedure hproc fun p hp => ?_)
  dsimp only
  have hlast : ∀ result, Avoids S result → Spares S G (sparing S) (do
      let guard ← naviGcGuard result env
      perform (.gcCheck ⟨[result], [env.lexical]⟩)
      naviGcUnguard guard
      return result : Code NaviObj) (Avoids S) := fun result hresult =>
    spares_bind (spares_naviGcGuard fun _ => spares_bind (spares_gcCheck
      (spares_bind (spares_naviGcUnguard hresult))))
  cases hbody : p.body with
  | cProc f =>
    refine spares_bind (spares_naviGcGuard fun guard => ?_)
    refine spares_bind (spares_callFn (by simp [hargs]) fun v hv => ?_)
    exact spares_bind (spares_naviGcUnguard (hlast v hv))
  | body body =>
    refine spares_bind (spares_naviExtendEnvironment hp.2.1 hargs fun new => ?_)
    refine spares_bind (spares_beginLoop (hp.2.2 body hbody) (by simp) fun v hv => ?_)
    exact spares_bind (spares_naviEnvUnref (hlast v hv))

theorem spares_procedureCallBody (hproc : Avoids S proc) (hargs : Avoids S args) :
    Spares S G (sparing S) (procedureCallBody proc args env) (Avoids S) := by
  refine spares_bind (spares_naviIsPair hargs fun b => spares_ite_iff.mpr ?_)
  split_ifs
  · refine spares_bind (spares_naviMakePair (by simp) (by simp) fun first hfirst => ?_)
    refine spares_bind (spares_naviGcGuard fun guard => ?_)
    refine spares_bind (spares_naviCar hargs fun e he => ?_)
    refine spares_bind (spares_naviEval he fun val hval => ?_)
    refine spares_bind (spares_naviSetCar hfirst hval ?_)
    refine spares_bind (spares_naviCdr hargs fun cdr hcdr => ?_)
    refine spares_bind (spares_callFn (by simp [hfirst, hcdr]) fun _ _ => ?_)
    refine spares_bind (spares_naviGcUnguard ?_)
    exact spares_naviApply hproc hfirst fun _ h => h
  · exact spares_naviApply hproc (by simp) fun _ h => h

theorem spares_operandLoopBody {ptr : NaviObj} (hcons : Avoids S cons) (hptr : Avoids S ptr) :
    Spares S G (sparing S) (operandLoopBody cons ptr env) fun _ => True := by
  refine spares_bind (spares_naviIsPair hcons fun b => spares_ite_iff.mpr ?_)
  split_ifs
  · refine spares_bind (spares_naviMakePair (by simp) (by simp) fun pair hpair => ?_)
    refine spares_bind (spares_naviSetCdr hptr hpair ?_)
    refine spares_bind (spares_naviCar hcons fun e he => ?_)
    refine spares_bind (spares_naviEval he fun val hval => ?_)
    refine spares_bind (spares_naviSetCar hpair hval ?_)
    refine spares_bind (spares_naviCdr hcons fun cdr hcdr => ?_)
    exact spares_callFn (by simp [hpair, hcdr]) fun _ h => h
  · exact spares_naviSetCdr hptr (by simp) trivial

theorem spares_findClause {nrArgs : ℕ} {clauses : List (Option NaviObj)}
    {R : Option NaviObj → Prop} (hclauses : WordsAvoid S clauses)
    (h : ∀ r, AllAvoid S r.toList → R r) :
    Spares S G (sparing S) (findClause nrArgs clauses) R := by
  fun_induction findClause with grind

theorem spares_caselambdaCallBody (hproc : Avoids S proc) (hargs : Avoids S args) :
    Spares S G (sparing S) (caselambdaCallBody proc args env) (Avoids S) := by
  refine spares_bind (spares_naviListLength hargs fun n => ?_)
  refine spares_bind (spares_naviVector hproc fun data hdata => ?_)
  refine spares_bind (spares_findClause hdata fun clause hclause => ?_)
  cases clause with
  | some clause => exact spares_naviApply (by simpa using hclause) hargs fun _ h => h
  | none =>
    refine spares_bind (spares_naviMakeSymbol fun name hname => ?_)
    exact spares_leaf (spares_naviArityError hname)

theorem spares_beginLoopBody {result : Option NaviObj} (hcons : Avoids S cons)
    (hresult : AllAvoid S result.toList) :
    Spares S G (sparing S) (beginLoopBody cons result env) (Avoids S) := by
  refine spares_bind (spares_naviIsPair hcons fun b => spares_ite_iff.mpr ?_)
  split_ifs
  · refine spares_bind (spares_naviIsLastPair hcons fun b => spares_ite_iff.mpr ?_)
    split_ifs
    · exact spares_bind (spares_naviCar hcons fun e he => spares_evalTail he fun _ h => h)
    · refine spares_bind (spares_naviCar hcons fun e he => ?_)
      refine spares_bind (spares_naviEval he fun val hval => ?_)
      refine spares_bind (spares_naviCdr hcons fun cdr hcdr => ?_)
      exact spares_beginLoop hcdr (by simp [hval]) fun _ h => h
  · cases result with
    | some result => exact spares_pure (by simpa using hresult)
    | none => exact spares_fail

/-- The loops of `and` and `or`, by what follows the value of an operand. -/
theorem spares_connective {next : NaviObj → Code NaviObj} {dflt : NaviObj}
    (hcons : Avoids S cons) (hdflt : Avoids S dflt)
    (hnext : ∀ v, Avoids S v → Spares S G (sparing S) (next v) (Avoids S)) :
    Spares S G (sparing S) (do
      if ← naviIsPair cons then
        if ← naviIsLastPair cons then evalTail (← naviCar cons) env
        else
          let val ← naviEval (← naviCar cons) env [cons] env.scopes
          next val
      else return dflt : Code NaviObj) (Avoids S) := by
  refine spares_bind (spares_naviIsPair hcons fun b => spares_ite_iff.mpr ?_)
  split_ifs
  · refine spares_bind (spares_naviIsLastPair hcons fun b => spares_ite_iff.mpr ?_)
    split_ifs
    · exact spares_bind (spares_naviCar hcons fun e he => spares_evalTail he fun _ h => h)
    · refine spares_bind (spares_naviCar hcons fun e he => ?_)
      exact spares_bind (spares_naviEval he hnext)
  · exact hdflt

theorem spares_andLoopBody (hcons : Avoids S cons) :
    Spares S G (sparing S) (andLoopBody cons env) (Avoids S) := by
  refine spares_connective hcons (by simp) fun v _ => spares_ite_iff.mpr ?_
  split_ifs
  · refine spares_bind (spares_naviCdr hcons fun cdr hcdr => ?_)
    exact spares_callFn (by simp [hcdr]) fun _ h => h
  · exact spares_pure (by simp)

theorem spares_orLoopBody (hcons : Avoids S cons) :
    Spares S G (sparing S) (orLoopBody cons env) (Avoids S) := by
  refine spares_connective hcons (by simp) fun v _ => spares_ite_iff.mpr ?_
  split_ifs
  · exact spares_pure (by simp)
  · refine spares_bind (spares_naviCdr hcons fun cdr hcdr => ?_)
    exact spares_callFn (by simp [hcdr]) fun _ h => h

theorem spares_evalQqBody (hexpr : Avoids S expr) :
    Spares S G (sparing S) (evalQqBody expr env) (Avoids S) := by
  refine spares_bind (spares_naviType hexpr fun t => ?_)
  cases t with
  | naviPair =>
    refine spares_bind (spares_naviCar hexpr fun car hcar => ?_)
    refine spares_bind (spares_naviMakeSymbol fun sym _ => ?_)
    refine spares_bind (spares_naviSymbolEq hcar fun b => spares_ite_iff.mpr ?_)
    split_ifs
    · exact spares_bind (spares_naviCadr hexpr fun e he => spares_naviEval he fun _ h => h)
    · exact spares_callFn (by simp [hexpr]) fun _ h => h
  | naviVector =>
    refine spares_bind (spares_naviVectorToList hexpr fun list hlist => ?_)
    refine spares_bind (spares_callFn (by simp [hlist]) fun list hlist => ?_)
    exact spares_naviListToVector hlist fun _ h => h
  | _ => exact hexpr

theorem spares_setLast {first last : Option NaviObj} (hfirst : AllAvoid S first.toList)
    (hlast : AllAvoid S last.toList) (hobj : Avoids S obj) (h : ∀ r, Avoids S r → Q r) :
    Spares S G (sparing S) (setLast first last obj) Q := by
  cases first <;> cases last <;> grind [setLast]

theorem spares_qqLoopBody {first last : Option NaviObj} (hcons : Avoids S cons)
    (hfirst : AllAvoid S first.toList) (hlast : AllAvoid S last.toList) :
    Spares S G (sparing S) (qqLoopBody cons first last env) (Avoids S) := by
  have htail : Spares S G (sparing S) (do
      let val ← callFn (.evalQq cons env) (first.toList ++ last.toList) []
      setLast first last val : Code NaviObj) (Avoids S) := by
    refine spares_bind (spares_callFn (by simp [hcons]) fun v hv => ?_)
    exact spares_setLast hfirst hlast hv fun _ h => h
  refine spares_bind (spares_naviIsPair hcons fun b => spares_ite_iff.mpr ?_)
  split_ifs
  · refine spares_bind (spares_naviCar hcons fun elm helm => ?_)
    refine spares_bind (spares_naviMakeSymbol fun splice _ => ?_)
    refine spares_bind (spares_naviMakeSymbol fun unquote _ => ?_)
    extract_lets jp
    have hjp : ∀ isSplice, Spares S G (sparing S) (jp isSplice) (Avoids S) := by
      intro isSplice
      refine spares_ite_iff.mpr ?_
      split_ifs
      · refine spares_bind (spares_naviCdar hcons fun tail htail => ?_)
        refine spares_bind (spares_naviCar htail fun e he => ?_)
        refine spares_bind (spares_naviEval he fun list hlist => ?_)
        refine spares_bind (spares_naviIsProperList hlist fun b => spares_ite_iff.mpr ?_)
        split_ifs
        · refine spares_bind (spares_setLast hfirst hlast hlist fun first hfirst => ?_)
          refine spares_bind (spares_naviLastCons hlist fun last hlast => ?_)
          refine spares_bind (spares_naviCdr hcons fun cdr hcdr => ?_)
          exact spares_callFn (by simp [hcdr, hfirst, hlast]) fun _ h => h
        · refine spares_bind (spares_naviCdr hcons fun cdr hcdr => ?_)
          exact spares_callFn (by simp [hcdr, hfirst, hlast]) fun _ h => h
      · refine spares_bind (spares_naviSymbolEq helm fun b => spares_ite_iff.mpr ?_)
        split_ifs
        · exact htail
        · refine spares_bind (spares_naviMakeEmptyPair fun pair hpair => ?_)
          refine spares_bind (spares_setLast hfirst hlast hpair fun first hfirst => ?_)
          refine spares_bind (spares_naviCar hcons fun car hcar => ?_)
          refine spares_bind (spares_callFn (by simp [hcar]) fun v hv => ?_)
          refine spares_bind (spares_naviSetCar hpair hv ?_)
          refine spares_bind (spares_naviCdr hcons fun cdr hcdr => ?_)
          exact spares_callFn (by simp [hcdr, hfirst, hpair]) fun _ h => h
    refine spares_bind (spares_naviIsPair helm fun b => spares_ite_iff.mpr ?_)
    split_ifs
    · refine spares_bind (spares_naviCar helm fun car hcar => ?_)
      exact spares_bind (spares_naviSymbolEq hcar hjp)
    · exact hjp false
  · exact spares_setLast hfirst hlast (by simp) fun _ h => h
  · exact htail

theorem spares_evalClauseBody {arg begin : NaviObj} (harg : Avoids S arg)
    (hbegin : Avoids S begin) :
    Spares S G (sparing S) (evalClauseBody arg begin env) (Avoids S) := by
  refine spares_bind (spares_naviCar hbegin fun car hcar => ?_)
  refine spares_bind (spares_naviMakeSymbol fun sym _ => ?_)
  refine spares_bind (spares_naviSymbolEq hcar fun b => spares_ite_iff.mpr ?_)
  split_ifs
  · refine spares_bind (spares_naviCadr hbegin fun e he => ?_)
    refine spares_bind (spares_naviEval he fun proc hproc => ?_)
    refine spares_bind (spares_naviMakePair harg (by simp) fun args hargs => ?_)
    refine spares_bind (spares_naviMakePair hproc hargs fun call hcall => ?_)
    exact spares_evalTail hcall fun _ h => h
  · exact spares_beginLoop hbegin (by simp) fun _ h => h

theorem spares_findCase {test : NaviObj} {clauses : List NaviObj} {R : Option NaviObj → Prop}
    (hclauses : AllAvoid S clauses) (h : ∀ r, AllAvoid S r.toList → R r) :
    Spares S G (sparing S) (findCase test clauses) R := by
  induction clauses with
  | nil => exact spares_pure (h _ (by simp))
  | cons fst rest ih =>
    obtain ⟨hfst, hrest⟩ := allAvoid_cons.mp hclauses
    refine spares_bind (spares_naviCar hfst fun datums hdatums => ?_)
    refine spares_bind (spares_naviMakeSymbol fun sym _ => ?_)
    refine spares_bind (spares_naviSymbolEq hdatums fun b => spares_ite_iff.mpr ?_)
    split_ifs
    · exact spares_pure (h _ (by simp [hfst]))
    · refine spares_bind (spares_elements hdatums fun os _ => spares_ite_iff.mpr ?_)
      split_ifs
      · exact spares_pure (h _ (by simp [hfst]))
      · exact ih hrest

theorem spares_scmCase (hargs : Avoids S args) :
    Spares S G (sparing S) (scmCase args env) (Avoids S) := by
  refine spares_bind (spares_caseValid hargs fun b => spares_ite_iff.mpr ?_)
  split_ifs
  · refine spares_bind (spares_naviCar hargs fun e he => ?_)
    refine spares_bind (spares_naviEval he fun test htest => ?_)
    refine spares_bind (spares_naviCdr hargs fun cdr hcdr => ?_)
    refine spares_bind (spares_elements hcdr fun os hos => ?_)
    refine spares_bind (spares_findCase hos fun clause hclause => ?_)
    cases clause with
    | some fst =>
      refine spares_bind (spares_naviCdr (by simpa using hclause) fun begin hbegin => ?_)
      exact spares_callFn (by simp [htest, hbegin]) fun _ h => h
    | none => exact spares_pure (by simp)
  · exact spares_leaf (spares_naviError (by simp))

theorem spares_condLoopBody (hcons : Avoids S cons) :
    Spares S G (sparing S) (condLoopBody cons env) (Avoids S) := by
  refine spares_bind (spares_naviIsPair hcons fun b => spares_ite_iff.mpr ?_)
  split_ifs
  · refine spares_bind (spares_naviCar hcons fun fst hfst => ?_)
    refine spares_bind (spares_naviCar hfst fun car hcar => ?_)
    refine spares_bind (spares_naviMakeSymbol fun sym _ => ?_)
    refine spares_bind (spares_naviSymbolEq hcar fun b => spares_ite_iff.mpr ?_)
    have hclause : ∀ test, Avoids S test → Spares S G (sparing S) (do
        callFn (.evalClause test (← naviCdr fst) env) [] [] : Code NaviObj) (Avoids S) :=
      fun test htest => spares_bind (spares_naviCdr hfst fun begin hbegin =>
        spares_callFn (by simp [htest, hbegin]) fun _ h => h)
    split_ifs
    · exact hclause _ (by simp)
    · refine spares_bind (spares_naviCar hfst fun e he => ?_)
      refine spares_bind (spares_naviEval he fun test htest => spares_ite_iff.mpr ?_)
      split_ifs
      · exact hclause test htest
      · refine spares_bind (spares_naviCdr hcons fun cdr hcdr => ?_)
        exact spares_callFn (by simp [hcdr]) fun _ h => h
  · exact spares_pure (by simp)

theorem spares_caselambdaClauses {expr : NaviObj} {conses : List NaviObj} {i : ℕ}
    (hexpr : Avoids S expr) (hconses : AllAvoid S conses) :
    Spares S G (sparing S) (caselambdaClauses env expr conses i) fun _ => True := by
  induction conses generalizing i with
  | nil => trivial
  | cons cons rest ih =>
    obtain ⟨hcons, hrest⟩ := allAvoid_cons.mp hconses
    refine spares_bind (spares_naviCar hcons fun clause hclause => ?_)
    refine spares_bind (spares_lambdaValid hclause fun b => spares_ite_iff.mpr ?_)
    split_ifs
    · refine spares_bind (spares_naviCar hclause fun formals hformals => ?_)
      refine spares_bind (spares_naviCdr hclause fun body hbody => ?_)
      refine spares_bind (spares_naviMakeLambda hformals hbody fun lambda hlambda => ?_)
      exact spares_bind (spares_vectorSet hexpr hlambda (ih hrest))
    · exact spares_leaf (spares_naviError (by simp))

theorem spares_scmCaselambda (hargs : Avoids S args) :
    Spares S G (sparing S) (scmCaselambda args env) (Avoids S) := by
  refine spares_bind (spares_walk hargs fun pairs last hpairs _ => ?_)
  have hnone : WordsAvoid S (pairs.map fun _ => (none : Option NaviObj)) := by simp [WordsAvoid]
  refine spares_bind (spares_make ((Data.avoids_vector _).mpr hnone) fun expr hexpr => ?_)
  refine spares_bind (spares_retag hexpr ?_)
  refine spares_bind ((spares_caselambdaClauses hexpr hpairs).mono fun _ _ => ?_)
  exact hexpr

theorem spares_scmLambda (hargs : Avoids S args) :
    Spares S G (sparing S) (scmLambda args env) (Avoids S) := by
  refine spares_bind (spares_lambdaValid hargs fun b => spares_ite_iff.mpr ?_)
  split_ifs
  · refine spares_bind (spares_naviCar hargs fun formals hformals => ?_)
    refine spares_bind (spares_naviCdr hargs fun body hbody => ?_)
    exact spares_naviMakeLambda hformals hbody fun _ h => h
  · exact spares_leaf (spares_naviError (by simp))

theorem spares_scmIf {nrArgs : ℕ} (hargs : Avoids S args) :
    Spares S G (sparing S) (scmIf nrArgs args env) (Avoids S) := by
  refine spares_ite (fun _ => ?_) fun _ => ?_
  · exact spares_bind (spares_naviMakeSymbol fun name hname => spares_leaf
      (spares_naviArityError hname))
  · refine spares_bind (spares_naviCar hargs fun e he => ?_)
    refine spares_bind (spares_naviEval he fun test htest => spares_ite_iff.mpr ?_)
    split_ifs
    · exact spares_bind (spares_naviCadr hargs fun e he => spares_evalTail he fun _ h => h)
    · exact spares_bind (spares_naviCaddr hargs fun e he => spares_evalTail he fun _ h => h)
    · exact spares_pure (by simp)

theorem spares_scmForce (hargs : Avoids S args) :
    Spares S G (sparing S) (scmForce args env) (Avoids S) := by
  refine spares_bind (spares_naviCar hargs fun obj hobj => ?_)
  refine spares_bind (spares_naviProcedure hobj fun p hp => ?_)
  cases hbody : p.body with
  | cProc f => exact spares_fail
  | body body =>
    refine spares_bind (spares_naviMakeSymbol fun begin hbegin => ?_)
    refine spares_bind (spares_naviMakePair hbegin (hp.2.2 body hbody) fun expr hexpr => ?_)
    refine spares_bind (spares_naviEval hexpr fun r hr => ?_)
    refine spares_bind (spares_naviMakePair hr (by simp) fun quoted hquoted => ?_)
    refine spares_bind (spares_naviMakeSymbol fun quote hquote => ?_)
    refine spares_bind (spares_naviMakePair hquote hquoted fun body hbody => ?_)
    refine spares_bind (spares_naviProcedure hobj fun p hp => ?_)
    refine spares_bind (spares_store hobj ((Data.avoids_proc _).mpr ?_) hr)
    exact ⟨hp.1, hp.2.1, fun _ h => ProcBody.body.inj h ▸ hbody⟩

theorem spares_typeCheckAll {t : NaviType} {os : List NaviObj} {R : Unit → Prop}
    (hos : AllAvoid S os) (h : R ()) : Spares S G (raising S) (typeCheckAll t os) R := by
  induction os with
  | nil => exact h
  | cons cons rest ih =>
    obtain ⟨hcons, hrest⟩ := allAvoid_cons.mp hos
    refine spares_bind (spares_naviCar hcons fun o ho => ?_)
    exact spares_bind (spares_naviTypeCheck ho (ih hrest))

theorem spares_includeLoopBody {ci : Bool} (hcons : Avoids S cons) :
    Spares S G (sparing S) (includeLoopBody cons ci env) (Avoids S) := by
  refine spares_bind (spares_naviCar hcons fun filename hfilename => ?_)
  refine spares_bind (spares_callFn (by simp [hfilename]) fun (result : NaviObj)
    (hresult : Avoids S result) => ?_)
  refine spares_bind (spares_naviIsLastPair hcons fun b => spares_ite_iff.mpr ?_)
  split_ifs
  · exact hresult
  · extract_lets jp
    have hjp : ∀ result, Avoids S result → Spares S G (sparing S) (jp result) (Avoids S) := by
      intro result hresult
      refine spares_bind (spares_naviCdr hcons fun cons hcons => ?_)
      refine spares_bind (spares_naviIsPair hcons fun b => spares_ite_iff.mpr ?_)
      split_ifs
      · exact spares_callFn (by simp [hcons]) fun _ h => h
      · exact hresult
    refine spares_bind (spares_naviType hresult fun t => spares_ite_iff.mpr ?_)
    split_ifs
    · exact spares_bind (spares_naviEval hresult hjp)
    · exact hjp _ hresult

theorem spares_naviInclude {ci : Bool} (hargs : Avoids S args) :
    Spares S G (sparing S) (naviInclude args ci env) (Avoids S) := by
  refine spares_bind (spares_walk hargs fun pairs last hpairs _ => ?_)
  refine spares_bind (spares_leaf (spares_typeCheckAll hpairs ?_))
  exact spares_callFn (by simp [hargs]) fun _ h => h

/-! ### What uses ports and other builtins -/

variable (hX : X.Spares S G)
include hX

theorem spares_loadLoopBody {port : NaviObj} (hfst : Avoids S fst) (hport : Avoids S port) :
    Spares S G (sparing S) (loadLoopBody X fst port env) (Avoids S) := by
  refine spares_bind (spares_leaf ((hX.naviRead hport).mono fun snd hsnd => ?_))
  refine spares_ite (fun _ => hfst) fun _ => spares_bind (spares_naviEval hfst fun _ _ => ?_)
  exact spares_callFn (by simp [hsnd, hport]) fun _ h => h

theorem spares_naviOpenInputFile {filename : NaviObj} (hfilename : Avoids S filename)
    (h : ∀ r, Avoids S r → Q r) :
    Spares S G (sparing S) (naviOpenInputFile X filename env) Q := by
  refine spares_bind (spares_load hfilename fun t d _ => ?_)
  cases d with
  | string path =>
    refine spares_bind (spares_leaf ((hX.naviOpenInputFile_ path).mono fun r hr => ?_))
    exact spares_ite (fun _ => spares_leaf spares_naviFileError) fun _ => h r hr
  | _ => exact spares_fail

theorem spares_naviLoadBody {filename : NaviObj} {ci : Bool} (hfilename : Avoids S filename) :
    Spares S G (sparing S) (naviLoadBody X filename ci env new) (Avoids S) := by
  refine spares_bind (spares_naviOpenInputFile hX hfilename fun port hport => ?_)
  refine spares_bind (spares_naviGcGuard fun guard => ?_)
  refine spares_bind (spares_leaf ((hX.naviPortSetFoldCase ci hport).mono fun _ _ => ?_))
  refine spares_bind (spares_leaf ((hX.naviRead hport).mono fun fst hfst => ?_))
  refine spares_ite (fun _ => ?_) fun _ => ?_
  · refine spares_bind (spares_leaf ((hX.naviCloseInputPort hport).mono fun _ _ => ?_))
    exact spares_bind (spares_naviGcUnguard (spares_pure (by simp)))
  · refine spares_bind (spares_callFn (by simp [hfst, hport]) fun (fst : NaviObj)
      (hfst : Avoids S fst) => ?_)
    refine spares_bind (spares_leaf ((hX.naviCloseInputPort hport).mono fun _ _ => ?_))
    exact spares_bind (spares_naviGcUnguard (spares_evalTail hfst fun _ h => h))

end NaviScheme
