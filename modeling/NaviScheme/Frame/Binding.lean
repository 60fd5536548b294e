import NaviScheme.Eval.Binding
import NaviScheme.Frame.Leaf

/-!
# environment.c spares: bindings

The forms that bind variables and parameters spare the objects that they are not given.
-/

namespace NaviScheme

open Prog

variable {α : Type} {F : FnSig} {S : Addr → Prop} {G : Prop} {D : FnContract F}
  {expr proc args cons obj fst : NaviObj} {env new : NaviEnv} {objs : List NaviObj}
  {scopes : List ScopeAddr} {Q : NaviObj → Prop} {X : Externals}

attribute [local simp] EvalFn.Avoids EvalFn.objs

theorem spares_evalDefvar {sym rest : NaviObj} (hsym : Avoids S sym) (hrest : Avoids S rest) :
    Spares S G (sparing S) (evalDefvar sym rest env) (Avoids S) := by
  refine spares_bind (spares_naviCdr hrest fun cdr hcdr => spares_ite_iff.mpr ?_)
  split_ifs
  · refine spares_bind (spares_naviCar hrest fun e he => ?_)
    refine spares_bind (spares_naviEval he fun val hval => ?_)
    exact spares_bind (spares_naviScopeSet hsym hval (spares_pure (by simp)))
  · exact spares_bind (spares_naviMakeSymbol fun name hname => spares_leaf
      (spares_naviArityError hname))

theorem spares_evalDefun {fundecl rest : NaviObj} (hfundecl : Avoids S fundecl)
    (hrest : Avoids S rest) :
    Spares S G (sparing S) (evalDefun fundecl rest env) (Avoids S) := by
  refine spares_bind (spares_naviIsListOf hfundecl fun b => spares_ite_iff.mpr ?_)
  split_ifs
  · refine spares_bind (spares_naviCar hfundecl fun name hname => ?_)
    refine spares_bind (spares_naviCdr hfundecl fun formals hformals => ?_)
    refine spares_bind (spares_naviMakeProcedure hformals hrest hname fun proc hproc => ?_)
    exact spares_bind (spares_naviScopeSet hname hproc (spares_pure (by simp)))
  · exact spares_leaf (spares_naviError (by simp))

theorem spares_scmDefine (hargs : Avoids S args) :
    Spares S G (sparing S) (scmDefine args env) (Avoids S) := by
  refine spares_bind (spares_naviCar hargs fun target htarget => ?_)
  refine spares_bind (spares_naviCdr hargs fun rest hrest => ?_)
  refine spares_bind (spares_naviType htarget fun t => ?_)
  cases t with
  | naviSymbol => exact spares_evalDefvar htarget hrest
  | naviPair => exact spares_evalDefun htarget hrest
  | _ => exact spares_leaf (spares_naviError (by simp))

theorem spares_scmDefineSyntax (hargs : Avoids S args) :
    Spares S G (sparing S) (scmDefineSyntax args env) (Avoids S) := by
  refine spares_bind (spares_naviCadr hargs fun e he => ?_)
  refine spares_bind (spares_naviEval he fun transformer htransformer => ?_)
  refine spares_bind (spares_leaf (spares_naviTypeCheck htransformer ?_))
  refine spares_bind (spares_naviCar hargs fun name hname => ?_)
  exact spares_bind (spares_naviScopeSet hname htransformer (spares_pure (by simp)))

theorem spares_bindValues {scope : ScopeAddr} {vars : List NaviObj} {vals : List (Option NaviObj)}
    {R : Unit → Prop} (hvars : AllAvoid S vars) (hvals : WordsAvoid S vals) (h : R ()) :
    Spares S G (raising S) (bindValues scope vars vals) R := by
  fun_induction bindValues with
  | case1 => exact h
  | case2 => exact spares_fail
  | case3 => exact spares_fail
  | case4 cons vars val vals ih =>
    obtain ⟨hcons, hvars⟩ := allAvoid_cons.mp hvars
    obtain ⟨hval, hvals⟩ := wordsAvoid_some.mp hvals
    refine spares_bind (spares_naviCar hcons fun symbol hsymbol => ?_)
    exact spares_bind (spares_naviScopeSet hsymbol hval (ih hvars hvals))

theorem spares_extendWithValues {vars vals which : NaviObj} {R : Unit → Prop}
    (hvars : Avoids S vars) (hvals : Avoids S vals) (hwhich : Avoids S which) (h : R ()) :
    Spares S G (raising S) (extendWithValues vars vals which env) R := by
  refine spares_bind (spares_walk hvars fun pairs last hpairs _ => ?_)
  refine spares_bind (spares_naviType hvals fun t => spares_ite (fun _ => ?_) fun _ => ?_)
  · refine spares_bind (spares_naviVector hvals fun data hdata => spares_ite_iff.mpr ?_)
    split_ifs
    · exact spares_bindValues hpairs hdata h
    · exact spares_naviArityError hwhich
  · refine spares_ite (fun _ => ?_) fun _ => ?_
    · refine spares_bind (spares_naviCar hvars fun symbol hsymbol => ?_)
      exact spares_naviScopeSet hsymbol hvals h
    · exact spares_naviArityError hwhich

theorem spares_scmDefineValues (hargs : Avoids S args) :
    Spares S G (sparing S) (scmDefineValues args env) (Avoids S) := by
  refine spares_bind (spares_naviCadr hargs fun e he => ?_)
  refine spares_bind (spares_naviEval he fun vals hvals => ?_)
  refine spares_bind (spares_naviMakeSymbol fun which hwhich => ?_)
  refine spares_bind (spares_naviCar hargs fun vars hvars => ?_)
  exact spares_bind (spares_leaf (spares_extendWithValues hvars hvals hwhich
    (spares_pure (by simp))))

theorem spares_scmDefmacroForm (hargs : Avoids S args) :
    Spares S G (sparing S) (scmDefmacroForm args env) (Avoids S) := by
  refine spares_bind (spares_naviCar hargs fun decl hdecl => ?_)
  refine spares_bind (spares_naviIsListOf hdecl fun b => spares_ite_iff.mpr ?_)
  split_ifs
  · refine spares_bind (spares_naviCar hdecl fun name hname => ?_)
    refine spares_bind (spares_naviCdr hdecl fun formals hformals => ?_)
    refine spares_bind (spares_naviCdr hargs fun body hbody => ?_)
    refine spares_bind (spares_naviMakeMacro hformals hbody hname fun m hm => ?_)
    exact spares_bind (spares_naviScopeSet hname hm (spares_pure (by simp)))
  · exact spares_leaf (spares_naviError (by simp))

theorem spares_letLoopBody (hcons : Avoids S cons) :
    Spares S G (sparing S) (letLoopBody cons env new) fun _ => True := by
  refine spares_bind (spares_naviIsPair hcons fun b => spares_ite_iff.mpr ?_)
  split_ifs
  · refine spares_bind (spares_naviCar hcons fun defn hdefn => ?_)
    refine spares_bind (spares_naviCadr hdefn fun e he => ?_)
    refine spares_bind (spares_naviEval he fun val hval => ?_)
    refine spares_bind (spares_naviCar hdefn fun symbol hsymbol => ?_)
    refine spares_bind (spares_naviScopeSet hsymbol hval ?_)
    refine spares_bind (spares_naviCdr hcons fun cdr hcdr => ?_)
    exact spares_callFn (by simp [hcdr]) fun _ h => h
  · trivial

theorem spares_letValuesLoopBody (hcons : Avoids S cons) :
    Spares S G (sparing S) (letValuesLoopBody cons env) fun _ => True := by
  refine spares_bind (spares_naviIsPair hcons fun b => spares_ite_iff.mpr ?_)
  split_ifs
  · refine spares_bind (spares_naviCadar hcons fun e he => ?_)
    refine spares_bind (spares_naviEval he fun vals hvals => ?_)
    refine spares_bind (spares_naviMakeSymbol fun which hwhich => ?_)
    refine spares_bind (spares_naviCaar hcons fun vars hvars => ?_)
    refine spares_bind (spares_leaf (spares_extendWithValues hvars hvals hwhich ?_))
    refine spares_bind (spares_naviCdr hcons fun cdr hcdr => ?_)
    exact spares_callFn (by simp [hcdr]) fun _ h => h
  · trivial

theorem spares_defLet {valid : NaviObj → Code Bool} {msg : String}
    {extend : NaviObj → NaviEnv → Code Unit} (hargs : Avoids S args)
    (hvalid : ∀ o (R : Bool → Prop), Avoids S o → (∀ b, R b) →
      Spares S G (sparing S) (valid o) R)
    (hextend : ∀ o new (R : Unit → Prop), Avoids S o → R () →
      Spares S G (sparing S) (extend o new) R) :
    Spares S G (sparing S) (defLet valid msg extend args env) (Avoids S) := by
  refine spares_bind (spares_naviCar hargs fun defs hdefs => ?_)
  refine spares_bind (hvalid _ _ hdefs fun b => spares_ite_iff.mpr ?_)
  split_ifs
  · refine spares_bind (spares_naviEnvNewScope fun new => ?_)
    refine spares_bind (hextend _ _ _ hdefs ?_)
    refine spares_bind (spares_naviCdr hargs fun body hbody => ?_)
    refine spares_bind (spares_beginLoop hbody (by simp) fun result hresult => ?_)
    exact spares_bind (spares_naviEnvUnref hresult)
  · exact spares_leaf (spares_naviError (by simp))

theorem spares_letDefsValid {defs : NaviObj} {R : Bool → Prop} (hdefs : Avoids S defs)
    (h : ∀ b, R b) : Spares S G (sparing S) (defsValid letDefValid defs) R :=
  spares_defsValid (fun _ _ ho h => spares_letDefValid ho h) hdefs h

theorem spares_scmLet (hargs : Avoids S args) :
    Spares S G (sparing S) (scmLet args env) (Avoids S) :=
  spares_defLet hargs (fun _ _ => spares_letDefsValid) fun _ _ _ ho h =>
    spares_callFn (by simp [ho]) fun _ _ => h

theorem spares_scmSequentialLet (hargs : Avoids S args) :
    Spares S G (sparing S) (scmSequentialLet args env) (Avoids S) :=
  spares_defLet hargs (fun _ _ => spares_letDefsValid) fun _ _ _ ho h =>
    spares_callFn (by simp [ho]) fun _ _ => h

theorem spares_scmLetValues (hargs : Avoids S args) :
    Spares S G (sparing S) (scmLetValues args env) (Avoids S) :=
  spares_defLet hargs
    (fun _ _ => spares_defsValid fun _ _ ho h => spares_letValuesDefValid ho h)
    fun _ _ _ ho h => spares_callFn (by simp [ho]) fun _ _ => h

theorem spares_scmSet (hargs : Avoids S args) :
    Spares S G (sparing S) (scmSet args env) (Avoids S) := by
  refine spares_bind (spares_naviCar hargs fun symbol hsymbol => ?_)
  refine spares_bind (spares_naviEnvBinding fun r hr => ?_)
  cases r with
  | some b =>
    refine spares_bind (spares_naviCadr hargs fun e he => ?_)
    refine spares_bind (spares_naviEval he fun value hvalue => ?_)
    exact spares_bind (spares_setBinding hsymbol hvalue (spares_pure (by simp)))
  | none => exact spares_leaf (spares_naviUnboundIdentifierError hsymbol)

theorem spares_naviParameterConvertBody {param : NaviObj} (hparam : Avoids S param)
    (hobj : Avoids S obj) :
    Spares S G (sparing S) (naviParameterConvertBody param obj env) (Avoids S) := by
  refine spares_bind (spares_naviCdr hparam fun converter hconverter => ?_)
  refine spares_bind (spares_naviType hconverter fun t => spares_ite_iff.mpr ?_)
  split_ifs
  · exact hobj
  · refine spares_bind (spares_naviMakePair hobj (by simp) fun args hargs => ?_)
    exact spares_applyForce hconverter hargs fun _ h => h

theorem spares_naviMakeParameter {value converter : NaviObj} (hvalue : Avoids S value)
    (hconverter : Avoids S converter) :
    Spares S G (sparing S) (naviMakeParameter value converter env) (Avoids S) := by
  refine spares_bind (spares_count fun n => ?_)
  refine spares_bind (spares_naviMakeUninterned fun key hkey => ?_)
  refine spares_bind (spares_naviMakePair hkey hconverter fun param hparam => ?_)
  refine spares_bind (spares_retag hparam ?_)
  refine spares_bind (spares_naviGcGuard fun guard => ?_)
  refine spares_bind (spares_getGlobalScope fun scope => ?_)
  refine spares_bind (spares_callFn (by simp [hparam, hvalue]) fun val hval => ?_)
  refine spares_bind (spares_naviScopeSet hkey hval ?_)
  exact spares_bind (spares_naviGcUnguard hparam)

theorem spares_scmMakeParameter {nrArgs : ℕ} (hargs : Avoids S args) :
    Spares S G (sparing S) (scmMakeParameter nrArgs args env) (Avoids S) := by
  refine spares_ite (fun _ => ?_) fun _ => ?_
  · exact spares_bind (spares_naviMakeSymbol fun name hname => spares_leaf
      (spares_naviArityError hname))
  · extract_lets jp
    have hjp : ∀ converter, Avoids S converter →
        Spares S G (sparing S) (jp converter) (Avoids S) := fun converter hconverter =>
      spares_bind (spares_naviCar hargs fun value hvalue =>
        spares_naviMakeParameter hvalue hconverter)
    refine spares_ite (fun _ => ?_) fun _ => ?_
    · exact spares_bind (spares_naviCadr hargs hjp)
    · exact spares_bind (spares_pure (hjp _ (by simp)))

theorem spares_parameterizeParamsBody {params : NaviObj} (hcons : Avoids S cons)
    (hparams : Avoids S params) :
    Spares S G (sparing S) (parameterizeParamsBody cons params env) (Avoids S) := by
  refine spares_bind (spares_naviIsPair hcons fun b => spares_ite (fun _ => ?_) fun _ => ?_)
  · refine spares_bind (spares_naviCar hcons fun defn hdefn => ?_)
    refine spares_bind (spares_naviListLengthSafe hdefn fun n =>
      spares_ite (fun _ => ?_) fun _ => ?_)
    · refine spares_bind (spares_naviCar hdefn fun e he => ?_)
      refine spares_bind (spares_naviEval he fun param hparam => ?_)
      refine spares_bind (spares_naviType hparam fun t => spares_ite (fun _ => ?_) fun _ => ?_)
      · refine spares_bind (spares_naviCadr hdefn fun val hval => ?_)
        refine spares_bind (spares_naviMakePair hparam hval fun pair hpair => ?_)
        refine spares_bind (spares_naviMakePair hpair hparams fun params hparams => ?_)
        refine spares_bind (spares_naviCdr hcons fun cdr hcdr => ?_)
        exact spares_callFn (by simp [hcdr, hparams]) fun _ h => h
      · exact spares_leaf (spares_naviError (by simp))
    · exact spares_leaf (spares_naviError (by simp))
  · refine spares_ite (fun _ => hparams) fun _ => ?_
    exact spares_leaf (spares_naviError (by simp))

theorem spares_parameterizeValsBody (hcons : Avoids S cons) :
    Spares S G (sparing S) (parameterizeValsBody cons env new) fun _ => True := by
  refine spares_bind (spares_naviIsPair hcons fun b => spares_ite (fun _ => ?_) fun _ => trivial)
  refine spares_bind (spares_naviCar hcons fun defn hdefn => ?_)
  refine spares_bind (spares_naviCar hdefn fun param hparam => ?_)
  refine spares_bind (spares_naviCdr hdefn fun e he => ?_)
  refine spares_bind (spares_naviEval he fun val hval => ?_)
  refine spares_bind (spares_callFn (by simp [hparam, hval]) fun val hval => ?_)
  refine spares_bind (spares_naviCar hparam fun key hkey => ?_)
  refine spares_bind (spares_naviScopeSet hkey hval ?_)
  refine spares_bind (spares_naviCdr hcons fun cdr hcdr => ?_)
  exact spares_callFn (by simp [hcdr]) fun _ h => h

theorem spares_scmParameterize (hargs : Avoids S args) :
    Spares S G (sparing S) (scmParameterize args env) (Avoids S) := by
  refine spares_bind (spares_naviCar hargs fun defs hdefs => ?_)
  refine spares_bind (spares_naviIsPair hdefs fun b => spares_ite (fun _ => ?_) fun _ => ?_)
  · refine spares_bind (spares_callFn (by simp [hdefs]) fun (params : NaviObj)
      (hparams : Avoids S params) => ?_)
    refine spares_bind (spares_naviDynamicEnvNewScope fun new => ?_)
    refine spares_bind (spares_callFn (by simp [hparams]) fun _ _ => ?_)
    refine spares_bind (spares_naviCdr hargs fun body hbody => ?_)
    refine spares_bind (spares_beginLoop hbody (by simp) fun result hresult => ?_)
    exact spares_bind (spares_naviEnvUnref hresult)
  · exact spares_leaf (spares_naviError (by simp))

end NaviScheme
