import NaviScheme.Eval.Control
import NaviScheme.Frame.Core
import NaviScheme.Frame.Binding
import NaviScheme.Frame.Library

/-!
# control_features.c, list.c and vector.c spare

The builtins that apply procedures spare the objects that they are not given, and so do all
functions (`NaviScheme.spares_evalBody`).
-/

namespace NaviScheme

open Prog

variable {α : Type} {F : FnSig} {S : Addr → Prop} {G : Prop} {D : FnContract F}
  {expr proc args cons obj fst : NaviObj} {env new : NaviEnv} {objs : List NaviObj}
  {scopes : List ScopeAddr} {Q : NaviObj → Prop} {X : Externals}

attribute [local simp] EvalFn.Avoids EvalFn.objs

/-! ### control_features.c -/

theorem spares_applyForceBody (hproc : Avoids S proc) (hargs : Avoids S args) :
    Spares S G (sparing S) (applyForceBody proc args env) (Avoids S) := by
  refine spares_bind (spares_naviApply hproc hargs fun result hresult => ?_)
  refine spares_bind (spares_naviType hresult fun t => spares_ite (fun _ => ?_) fun _ => hresult)
  exact spares_naviEval hresult fun _ h => h

theorem spares_naviRaiseBody {R : Empty → Prop} (hargs : Avoids S args) :
    Spares S G (sparing S) (naviRaiseBody args env) R := by
  refine spares_bind (spares_naviMakeSymbol fun sym _ => ?_)
  refine spares_bind (spares_naviEnvLookup fun handler hhandler => ?_)
  refine spares_bind (spares_naviType hhandler fun t => spares_ite (fun _ => ?_) fun _ => hargs)
  refine spares_bind (spares_naviScopeUnset ?_)
  refine spares_bind (spares_applyForce hhandler hargs fun _ _ => ?_)
  exact spares_callFn (by simp [hargs]) fun v => v.elim

theorem spares_applyFlatten {last : NaviObj} {pairs : List NaviObj} {R : Unit → Prop}
    (hlast : Avoids S last) (hpairs : AllAvoid S pairs) (h : R ()) :
    Spares S G (raising S) (applyFlatten last pairs) R := by
  induction pairs generalizing last with
  | nil => exact h
  | cons cons rest ih =>
    obtain ⟨hcons, hrest⟩ := allAvoid_cons.mp hpairs
    refine spares_bind (spares_naviCar hcons fun fst hfst => ?_)
    refine spares_bind (spares_naviIsLastPair hcons fun b => spares_ite (fun _ => ?_) fun _ => ?_)
    · exact spares_bind (spares_naviTypeCheckProperList hfst (spares_naviSetCdr hlast hfst h))
    · exact ih hcons hrest

theorem spares_scmApply (hargs : Avoids S args) :
    Spares S G (sparing S) (scmApply args env) (Avoids S) := by
  refine spares_bind (spares_walk hargs fun pairs last hpairs _ => ?_)
  refine spares_bind (spares_leaf (spares_applyFlatten hargs hpairs ?_))
  refine spares_bind (spares_naviCar hargs fun proc hproc => ?_)
  exact spares_bind (spares_naviCdr hargs fun cdr hcdr => spares_naviApply hproc hcdr fun _ h => h)

theorem spares_scmCallEc (hargs : Avoids S args) :
    Spares S G (sparing S) (scmCallEc args env) (Avoids S) := by
  refine spares_bind (spares_naviCar hargs fun proc hproc => ?_)
  refine spares_bind (spares_leaf (spares_naviCheckArity hproc ?_))
  refine spares_bind (spares_make (by simp [Data.avoids_escape]) fun cont hcont => ?_)
  refine spares_bind (spares_naviGcGuard fun guard => ?_)
  refine spares_bind (spares_store hcont (by simp [Data.avoids_escape]) ?_)
  refine spares_bind (spares_naviEnvRef ?_)
  refine spares_bind (spares_naviMakePair hcont (by simp) fun contArgs hcontArgs => ?_)
  have hlast : ∀ result, Avoids S result → Spares S G (sparing S) (do
      naviGcUnguard guard
      naviEnvUnref env
      return result : Code NaviObj) (Avoids S) := fun result hresult =>
    spares_bind (spares_naviGcUnguard (spares_bind (spares_naviEnvUnref hresult)))
  refine spares_bind ⟨by simp [sparing, hproc, hcontArgs], fun v hv => hlast v hv, fun e he => ?_⟩
  cases e with
  | escape o =>
    refine spares_ite (fun _ => ?_) fun _ => spares_throw_ he
    refine spares_bind (spares_load hcont fun t d hd => ?_)
    cases d with
    | escape _ arg =>
      cases arg with
      | some arg => exact hlast arg ((Data.avoids_escape _ _).mp hd arg rfl)
      | none => exact spares_fail
    | _ => exact spares_fail
  | unhandled args => exact spares_throw_ he

theorem spares_scmValues (hargs : Avoids S args) :
    Spares S G (sparing S) (scmValues args) (Avoids S) := by
  refine spares_bind (spares_naviListToVector hargs fun values hvalues => ?_)
  exact spares_bind (spares_retag hvalues hvalues)

theorem spares_scmCallWithValues (hargs : Avoids S args) :
    Spares S G (sparing S) (scmCallWithValues args env) (Avoids S) := by
  refine spares_bind (spares_naviCar hargs fun producer hproducer => ?_)
  refine spares_bind (spares_leaf (spares_naviCheckArity hproducer ?_))
  refine spares_bind (spares_naviMakePair hproducer (by simp) fun call hcall => ?_)
  refine spares_bind (spares_naviEval hcall fun values hvalues => ?_)
  have hlast : ∀ callArgs, Avoids S callArgs → Spares S G (sparing S) (do
      let call ← naviMakePair (← naviCadr args) callArgs
      naviEval call env [] [] : Code NaviObj) (Avoids S) := fun callArgs hcallArgs =>
    spares_bind (spares_naviCadr hargs fun consumer hconsumer => spares_bind (spares_naviMakePair
      hconsumer hcallArgs fun call hcall => spares_naviEval hcall fun _ h => h))
  refine spares_bind (spares_naviType hvalues fun t => spares_ite (fun _ => ?_) fun _ => ?_)
  · exact spares_bind (spares_naviVectorToList hvalues hlast)
  · exact spares_bind (spares_naviMakePair hvalues (by simp) hlast)

theorem spares_scmWithExceptionHandler (hargs : Avoids S args) :
    Spares S G (sparing S) (scmWithExceptionHandler args env) (Avoids S) := by
  refine spares_bind (spares_naviCar hargs fun handler hhandler => ?_)
  refine spares_bind (spares_naviCadr hargs fun thunk hthunk => ?_)
  refine spares_bind (spares_leaf (spares_naviCheckArity hhandler ?_))
  refine spares_bind (spares_leaf (spares_naviCheckArity hthunk ?_))
  refine spares_bind (spares_naviDynamicEnvNewScope fun exnEnv => ?_)
  refine spares_bind (spares_naviMakeSymbol fun sym hsym => ?_)
  refine spares_bind (spares_naviScopeSet hsym hhandler ?_)
  refine spares_bind (spares_naviApply hthunk (by simp) fun result hresult => ?_)
  exact spares_bind (spares_naviEnvUnref hresult)

theorem spares_scmRaiseContinuable (hargs : Avoids S args) :
    Spares S G (sparing S) (scmRaiseContinuable args env) (Avoids S) := by
  refine spares_bind (spares_naviMakeSymbol fun sym hsym => ?_)
  refine spares_bind (spares_naviEnvLookup fun handler hhandler => ?_)
  refine spares_bind (spares_naviType hhandler fun t => spares_ite (fun _ => ?_) fun _ => hargs)
  refine spares_bind (spares_naviGcGuard fun guard => ?_)
  refine spares_bind (spares_naviScopeUnset ?_)
  refine spares_bind (spares_naviApply hhandler hargs fun result hresult => ?_)
  refine spares_bind (spares_naviScopeSet hsym hhandler ?_)
  exact spares_bind (spares_naviGcUnguard hresult)

theorem spares_scmError (hargs : Avoids S args) :
    Spares S G (sparing S) (scmError args env) (Avoids S) :=
  spares_bind (spares_naviMakePair hargs (by simp) fun _ h => spares_raise h)

/-! ### list.c -/

theorem spares_doCompare {snd : NaviObj} {R : Bool → Prop} (hproc : Avoids S proc)
    (hfst : Avoids S fst) (hsnd : Avoids S snd) (h : ∀ b, R b) :
    Spares S G (sparing S) (doCompare proc fst snd env objs) R := by
  refine spares_bind (spares_naviList_ hfst (by simp [hsnd]) fun args hargs => ?_)
  exact spares_bind (spares_applyForce hproc hargs fun _ _ => h _)

theorem spares_memberLoopBody (hobj : Avoids S obj) (hcons : Avoids S cons)
    (hproc : Avoids S proc) :
    Spares S G (sparing S) (memberLoopBody obj cons proc env) (Avoids S) := by
  refine spares_bind (spares_naviIsPair hcons fun b => spares_ite (fun _ => ?_) fun _ => ?_)
  · refine spares_bind (spares_naviCar hcons fun car hcar => ?_)
    refine spares_bind (spares_doCompare hproc hobj hcar fun b =>
      spares_ite (fun _ => hcons) fun _ => ?_)
    refine spares_bind (spares_naviCdr hcons fun cdr hcdr => ?_)
    exact spares_callFn (by simp [hobj, hcdr, hproc]) fun _ h => h
  · exact spares_pure (by simp)

theorem spares_assocLoopBody (hobj : Avoids S obj) (hcons : Avoids S cons) (hproc : Avoids S proc) :
    Spares S G (sparing S) (assocLoopBody obj cons proc env) (Avoids S) := by
  refine spares_bind (spares_naviIsPair hcons fun b => spares_ite (fun _ => ?_) fun _ => ?_)
  · refine spares_bind (spares_naviCar hcons fun entry hentry => ?_)
    refine spares_bind (spares_leaf (spares_naviTypeCheck hentry ?_))
    refine spares_bind (spares_naviCar hentry fun key hkey => ?_)
    refine spares_bind (spares_doCompare hproc hobj hkey fun b =>
      spares_ite (fun _ => ?_) fun _ => ?_)
    · exact spares_naviCar hcons fun _ h => h
    · refine spares_bind (spares_naviCdr hcons fun cdr hcdr => ?_)
      exact spares_callFn (by simp [hobj, hcdr, hproc]) fun _ h => h
  · exact spares_pure (by simp)

theorem spares_consArrayFill {lists : List NaviObj} {R : Unit → Prop} (hlists : AllAvoid S lists)
    (h : R ()) : Spares S G (raising S) (consArrayFill lists) R := by
  induction lists with
  | nil => exact h
  | cons list rest ih =>
    obtain ⟨hlist, hrest⟩ := allAvoid_cons.mp hlists
    exact spares_bind (spares_naviTypeCheckList hlist (ih hrest))

theorem spares_consArrayTerminated {lists : List NaviObj} {R : Bool → Prop}
    (hlists : AllAvoid S lists) (h : ∀ b, R b) :
    Spares S G (sparing S) (consArrayTerminated lists) R := by
  induction lists with
  | nil => exact spares_pure (h _)
  | cons list rest ih =>
    obtain ⟨hlist, hrest⟩ := allAvoid_cons.mp hlists
    exact spares_bind (spares_naviIsPair hlist fun b =>
      spares_ite (fun _ => ih hrest) fun _ => spares_pure (h _))

theorem spares_consArrayAdvance {lists : List NaviObj} {R : List NaviObj → Prop}
    (hlists : AllAvoid S lists) (h : ∀ r, AllAvoid S r → R r) :
    Spares S G (sparing S) (consArrayAdvance lists) R := by
  induction lists generalizing R with
  | nil => exact spares_pure (h _ (by simp))
  | cons list rest ih =>
    obtain ⟨hlist, hrest⟩ := allAvoid_cons.mp hlists
    refine spares_bind (spares_naviCdr hlist fun cdr hcdr => ?_)
    exact spares_bind (ih hrest fun r hr => spares_pure (h _ (by simp [hcdr, hr])))

theorem spares_argListLoop {lists : List NaviObj} {R : Unit → Prop} (hcons : Avoids S cons)
    (hlists : AllAvoid S lists) (h : R ()) :
    Spares S G (sparing S) (argListLoop cons lists) R := by
  induction lists generalizing cons with
  | nil => exact h
  | cons list rest ih =>
    obtain ⟨hlist, hrest⟩ := allAvoid_cons.mp hlists
    refine spares_bind (spares_naviCar hlist fun car hcar => ?_)
    refine spares_bind (spares_naviMakePair hcar (by simp) fun cdr hcdr => ?_)
    exact spares_bind (spares_naviSetCdr hcons hcdr (ih hcdr hrest))

theorem spares_argList {lists : List NaviObj} (hlists : AllAvoid S lists)
    (h : ∀ r, Avoids S r → Q r) : Spares S G (sparing S) (argList lists) Q := by
  refine spares_bind (spares_naviMakePair (by simp) (by simp) fun args hargs => ?_)
  exact spares_bind (spares_argListLoop hargs hlists (spares_naviCdr hargs h))

theorem spares_forEachLoopBody {lists : List NaviObj} (hproc : Avoids S proc)
    (hlists : AllAvoid S lists) :
    Spares S G (sparing S) (forEachLoopBody proc lists env) fun _ => True := by
  refine spares_bind (spares_consArrayTerminated hlists fun b =>
    spares_ite (fun _ => trivial) fun _ => ?_)
  refine spares_bind (spares_argList hlists fun args hargs => ?_)
  refine spares_bind (spares_applyForce hproc hargs fun _ _ => ?_)
  refine spares_bind (spares_consArrayAdvance hlists fun lists hlists => ?_)
  exact spares_callFn (by simp [hproc, hlists]) fun _ h => h

theorem spares_scmForEach {nrArgs : ℕ} (hargs : Avoids S args) :
    Spares S G (sparing S) (scmForEach nrArgs args env) (Avoids S) := by
  refine spares_bind (spares_naviCar hargs fun proc hproc => ?_)
  refine spares_bind (spares_leaf (spares_naviCheckArity hproc ?_))
  refine spares_bind (spares_naviCdr hargs fun cdr hcdr => ?_)
  refine spares_bind (spares_elements hcdr fun lists hlists => ?_)
  refine spares_bind (spares_leaf (spares_consArrayFill hlists ?_))
  exact spares_bind (spares_callFn (by simp [hproc, hlists]) fun _ _ => spares_pure (by simp))

theorem spares_mapLoopBody {lists : List NaviObj} {result last : NaviObj} (hproc : Avoids S proc)
    (hlists : AllAvoid S lists) (hresult : Avoids S result) (hlast : Avoids S last) :
    Spares S G (sparing S) (mapLoopBody proc lists result last env) (Avoids S) := by
  refine spares_bind (spares_consArrayTerminated hlists fun b =>
    spares_ite (fun _ => spares_naviCdr hresult fun _ h => h) fun _ => ?_)
  refine spares_bind (spares_argList hlists fun args hargs => ?_)
  refine spares_bind (spares_applyForce hproc hargs fun elm helm => ?_)
  refine spares_bind (spares_naviMakePair helm (by simp) fun pair hpair => ?_)
  refine spares_bind (spares_naviSetCdr hlast hpair ?_)
  refine spares_bind (spares_consArrayAdvance hlists fun lists hlists => ?_)
  exact spares_callFn (by simp [hproc, hlists, hresult, hpair]) fun _ h => h

theorem spares_scmMap {nrArgs : ℕ} (hargs : Avoids S args) :
    Spares S G (sparing S) (scmMap nrArgs args env) (Avoids S) := by
  refine spares_bind (spares_naviCar hargs fun proc hproc => ?_)
  refine spares_bind (spares_leaf (spares_naviCheckArity hproc ?_))
  refine spares_bind (spares_naviCdr hargs fun cdr hcdr => ?_)
  refine spares_bind (spares_elements hcdr fun lists hlists => ?_)
  refine spares_bind (spares_leaf (spares_consArrayFill hlists ?_))
  refine spares_bind (spares_naviMakePair (by simp) (by simp) fun result hresult => ?_)
  exact spares_callFn (by simp [hproc, hlists, hresult]) fun _ h => h

/-! ### vector.c -/

theorem spares_nthElements {k : ℕ} {vecs : List NaviObj} {R : List NaviObj → Prop}
    (hvecs : AllAvoid S vecs) (h : ∀ r, AllAvoid S r → R r) :
    Spares S G (sparing S) (nthElements k vecs) R := by
  induction vecs generalizing R with
  | nil => exact spares_pure (h _ (by simp))
  | cons vec rest ih =>
    obtain ⟨hvec, hrest⟩ := allAvoid_cons.mp hvecs
    refine spares_bind (spares_naviVector hvec fun data hdata => ?_)
    refine spares_bind (spares_elem hdata fun o ho => ?_)
    exact spares_bind (ih hrest fun r hr => spares_pure (h _ (by simp [ho, hr])))

theorem spares_vectorMapLoopBody {vecs : List NaviObj} {result : NaviObj} {i minLen : ℕ}
    (hproc : Avoids S proc) (hvecs : AllAvoid S vecs) (hresult : Avoids S result) :
    Spares S G (sparing S) (vectorMapLoopBody proc vecs result i minLen env) fun _ => True := by
  refine spares_ite (fun _ => ?_) fun _ => trivial
  refine spares_bind (spares_nthElements hvecs fun os hos => ?_)
  refine spares_bind (spares_naviList hos fun args hargs => ?_)
  refine spares_bind (spares_applyForce hproc hargs fun val hval => ?_)
  refine spares_bind (spares_vectorSet hresult hval ?_)
  exact spares_callFn (by simp [hproc, hvecs, hresult]) fun _ h => h

theorem spares_vectorArrayFill {vecs : List NaviObj} {minLen : ℕ} {R : ℕ → Prop}
    (hvecs : AllAvoid S vecs) (h : ∀ n, R n) :
    Spares S G (raising S) (vectorArrayFill vecs minLen) R := by
  induction vecs generalizing minLen with
  | nil => exact spares_pure (h _)
  | cons vec rest ih =>
    obtain ⟨hvec, hrest⟩ := allAvoid_cons.mp hvecs
    refine spares_bind (spares_naviTypeCheck hvec ?_)
    exact spares_bind (spares_naviVector hvec fun data _ => ih hrest)

/-- What `vector-map` and `vector-for-each` do before their loops. -/
theorem spares_vectorArgs {nrArgs : ℕ} {p : NaviObj → List NaviObj → ℕ → Code NaviObj}
    (hargs : Avoids S args) (hp : ∀ proc vecs minLen, Avoids S proc → AllAvoid S vecs →
      Spares S G (sparing S) (p proc vecs minLen) (Avoids S)) :
    Spares S G (sparing S) (do
      let proc ← naviCar args
      leaf env (naviCheckArity proc (nrArgs - 1))
      let vecs ← elements (← naviCdr args)
      let data ← naviVector (← naviCadr args)
      let minLen ← leaf env (vectorArrayFill vecs data.length)
      p proc vecs minLen : Code NaviObj) (Avoids S) := by
  refine spares_bind (spares_naviCar hargs fun proc hproc => ?_)
  refine spares_bind (spares_leaf (spares_naviCheckArity hproc ?_))
  refine spares_bind (spares_naviCdr hargs fun cdr hcdr => ?_)
  refine spares_bind (spares_elements hcdr fun vecs hvecs => ?_)
  refine spares_bind (spares_naviCadr hargs fun vec hvec => ?_)
  refine spares_bind (spares_naviVector hvec fun data _ => ?_)
  exact spares_bind (spares_leaf (spares_vectorArrayFill hvecs fun n => hp _ _ _ hproc hvecs))

theorem spares_scmVectorMap {nrArgs : ℕ} (hargs : Avoids S args) :
    Spares S G (sparing S) (scmVectorMap nrArgs args env) (Avoids S) := by
  refine spares_vectorArgs hargs fun proc vecs minLen hproc hvecs => ?_
  have hnone : WordsAvoid S (List.replicate minLen (none : Option NaviObj)) := by
    simp [WordsAvoid, List.mem_replicate]
  refine spares_bind (spares_make ((Data.avoids_vector _).mpr hnone) fun result hresult => ?_)
  exact spares_bind (spares_callFn (by simp [hproc, hvecs, hresult]) fun _ _ => hresult)

theorem spares_vectorMapIpLoopBody {dst src : NaviObj} {i size : ℕ} (hproc : Avoids S proc)
    (hdst : Avoids S dst) (hsrc : Avoids S src) :
    Spares S G (sparing S) (vectorMapIpLoopBody proc dst src i size env) fun _ => True := by
  refine spares_ite (fun _ => ?_) fun _ => trivial
  refine spares_bind (spares_naviVector hsrc fun data hdata => ?_)
  refine spares_bind (spares_elem hdata fun o ho => ?_)
  refine spares_bind (spares_naviList_ hproc (by simp [ho]) fun call hcall => ?_)
  refine spares_bind (spares_naviEval hcall fun val hval => ?_)
  refine spares_bind (spares_vectorSet hdst hval ?_)
  exact spares_callFn (by simp [hproc, hdst, hsrc]) fun _ h => h

theorem spares_scmVectorMapIp (hargs : Avoids S args) :
    Spares S G (sparing S) (scmVectorMapIp args env) (Avoids S) := by
  refine spares_bind (spares_naviCar hargs fun proc hproc => ?_)
  refine spares_bind (spares_leaf (spares_naviCheckArity hproc ?_))
  refine spares_bind (spares_naviCadr hargs fun vec hvec => ?_)
  refine spares_bind (spares_leaf (spares_naviTypeCheck hvec ?_))
  refine spares_bind (spares_naviVector hvec fun data _ => ?_)
  exact spares_bind (spares_callFn (by simp [hproc, hvec]) fun _ _ => hvec)

theorem spares_vectorForEachLoopBody {vecs : List NaviObj} {i minLen : ℕ} (hproc : Avoids S proc)
    (hvecs : AllAvoid S vecs) :
    Spares S G (sparing S) (vectorForEachLoopBody proc vecs i minLen env) fun _ => True := by
  refine spares_ite (fun _ => ?_) fun _ => trivial
  refine spares_bind (spares_nthElements hvecs fun os hos => ?_)
  refine spares_bind (spares_naviList hos fun args hargs => ?_)
  refine spares_bind (spares_applyForce hproc hargs fun _ _ => ?_)
  exact spares_callFn (by simp [hproc, hvecs]) fun _ h => h

theorem spares_scmVectorForEach {nrArgs : ℕ} (hargs : Avoids S args) :
    Spares S G (sparing S) (scmVectorForEach nrArgs args env) (Avoids S) :=
  spares_vectorArgs hargs fun proc vecs minLen hproc hvecs =>
    spares_bind (spares_callFn (by simp [hproc, hvecs]) fun _ _ => spares_pure (by simp))

/-! ### What uses ports and other builtins -/

variable (hX : X.Spares S G)
include hX

theorem spares_naviMember {os : List NaviObj} (hobj : Avoids S obj) (hos : AllAvoid S os) :
    Spares S G (raising S) (naviMember X obj os) (Avoids S) := by
  induction os with
  | nil => exact spares_pure (by simp)
  | cons cons rest ih =>
    obtain ⟨hcons, hrest⟩ := allAvoid_cons.mp hos
    refine spares_bind (spares_naviCar hcons fun car hcar => ?_)
    exact spares_bind ((hX.naviEqualp hobj hcar).mono fun b _ =>
      spares_ite (fun _ => hcons) fun _ => ih hrest)

theorem spares_scmMember {nrArgs : ℕ} (hargs : Avoids S args) :
    Spares S G (sparing S) (scmMember X nrArgs args env) (Avoids S) := by
  refine spares_ite (fun _ => ?_) fun _ => ?_
  · exact spares_bind (spares_naviMakeSymbol fun name hname => spares_leaf
      (spares_naviArityError hname))
  · refine spares_bind (spares_naviCar hargs fun obj hobj => ?_)
    refine spares_bind (spares_naviCadr hargs fun list hlist => ?_)
    refine spares_ite (fun _ => ?_) fun _ => ?_
    · exact spares_leaf (spares_bind (spares_walk hlist fun pairs _ hpairs _ =>
        spares_naviMember hX hobj hpairs))
    · refine spares_bind (spares_naviCaddr hargs fun proc hproc => ?_)
      refine spares_bind (spares_leaf (spares_bind (spares_naviTypeCheck hproc
        (spares_naviCheckArity hproc ?_))))
      exact spares_callFn (by simp [hobj, hlist, hproc]) fun _ h => h

theorem spares_naviAssoc {os : List NaviObj} (hobj : Avoids S obj) (hos : AllAvoid S os) :
    Spares S G (raising S) (naviAssoc X obj os) (Avoids S) := by
  induction os with
  | nil => exact spares_pure (by simp)
  | cons cons rest ih =>
    obtain ⟨hcons, hrest⟩ := allAvoid_cons.mp hos
    refine spares_bind (spares_naviCar hcons fun entry hentry => ?_)
    refine spares_bind (spares_naviTypeCheck hentry ?_)
    refine spares_bind (spares_naviCar hentry fun key hkey => ?_)
    exact spares_bind ((hX.naviEqualp hobj hkey).mono fun b _ =>
      spares_ite (fun _ => hentry) fun _ => ih hrest)

theorem spares_scmAssoc {nrArgs : ℕ} (hargs : Avoids S args) :
    Spares S G (sparing S) (scmAssoc X nrArgs args env) (Avoids S) := by
  refine spares_ite (fun _ => ?_) fun _ => ?_
  · exact spares_bind (spares_naviMakeSymbol fun name hname => spares_leaf
      (spares_naviArityError hname))
  · refine spares_bind (spares_naviCar hargs fun obj hobj => ?_)
    refine spares_bind (spares_naviCadr hargs fun list hlist => ?_)
    refine spares_ite (fun _ => ?_) fun _ => ?_
    · exact spares_leaf (spares_bind (spares_walk hlist fun pairs _ hpairs _ =>
        spares_naviAssoc hX hobj hpairs))
    · refine spares_bind (spares_naviCaddr hargs fun proc hproc => ?_)
      exact spares_callFn (by simp [hobj, hlist, hproc]) fun _ h => h

/-! ### The bodies -/

theorem spares_cProcBody (f : Builtin) (nrArgs : ℕ) (hargs : Avoids S args) :
    Spares S G (sparing S) (cProcBody X f nrArgs args env) (Avoids S) := by
  have hcar : ∀ g : NaviObj → Code NaviObj,
      (∀ o, Avoids S o → Spares S G (sparing S) (g o) (Avoids S)) →
      Spares S G (sparing S) (naviCar args >>= g) (Avoids S) := fun g hg =>
    spares_bind (spares_naviCar hargs hg)
  have hset : ∀ g : NaviObj → NaviObj → Code Unit,
      (∀ cons o (R : Unit → Prop), Avoids S cons → Avoids S o → R () →
        Spares S G (sparing S) (g cons o) R) →
      Spares S G (sparing S) (do
        g (← naviCar args) (← naviCadr args)
        return .void : Code NaviObj) (Avoids S) := fun g hg =>
    spares_bind (spares_naviCar hargs fun cons hcons => spares_bind (spares_naviCadr hargs
      fun o ho => spares_bind (hg cons o _ hcons ho (spares_pure (by simp)))))
  cases f with
  | scmLambda => exact spares_scmLambda hargs
  | scmCaselambda => exact spares_scmCaselambda hargs
  | scmBegin => exact spares_beginLoop hargs (by simp) fun _ h => h
  | scmInclude => exact spares_naviInclude hargs
  | scmIncludeCi => exact spares_naviInclude hargs
  | scmQuote => exact spares_naviCar hargs fun _ h => h
  | scmUnquote => exact hcar _ fun o ho => spares_naviEval ho fun _ h => h
  | scmQuasiquote => exact hcar _ fun o ho => spares_callFn (by simp [ho]) fun _ h => h
  | scmCase => exact spares_scmCase hargs
  | scmCond =>
    refine spares_bind (spares_condValid hargs fun b => spares_ite (fun _ => ?_) fun _ => ?_)
    · exact spares_callFn (by simp [hargs]) fun _ h => h
    · exact spares_leaf (spares_naviError (by simp))
  | scmIf => exact spares_scmIf hargs
  | scmAnd => exact spares_callFn (by simp [hargs]) fun _ h => h
  | scmOr => exact spares_callFn (by simp [hargs]) fun _ h => h
  | scmDelay => exact hcar _ fun o ho => spares_naviMakePromise ho fun _ h => h
  | scmForce => exact spares_scmForce hargs
  | scmEval => exact hcar _ fun o ho => spares_naviEval ho fun _ h => h
  | scmDefine => exact spares_scmDefine hargs
  | scmDefineSyntax => exact spares_scmDefineSyntax hargs
  | scmDefineValues => exact spares_scmDefineValues hargs
  | scmDefmacroForm => exact spares_scmDefmacroForm hargs
  | scmLet => exact spares_scmLet hargs
  | scmSequentialLet => exact spares_scmSequentialLet hargs
  | scmLetValues => exact spares_scmLetValues hargs
  | scmSet => exact spares_scmSet hargs
  | scmMakeParameter => exact spares_scmMakeParameter hargs
  | scmParameterize => exact spares_scmParameterize hargs
  | scmDefineLibrary => exact spares_scmDefineLibrary hargs
  | scmImport => exact spares_scmImport hargs
  | scmApply => exact spares_scmApply hargs
  | scmCallEc => exact spares_scmCallEc hargs
  | scmValues => exact spares_scmValues hargs
  | scmCallWithValues => exact spares_scmCallWithValues hargs
  | scmWithExceptionHandler => exact spares_scmWithExceptionHandler hargs
  | scmRaise => exact spares_raise hargs
  | scmRaiseContinuable => exact spares_scmRaiseContinuable hargs
  | scmError => exact spares_scmError hargs
  | scmCons =>
    exact hcar _ fun car hcar => spares_bind (spares_naviCadr hargs fun cdr hcdr =>
      spares_naviMakePair hcar hcdr fun _ h => h)
  | scmCar => exact hcar _ fun o ho => spares_naviCar ho fun _ h => h
  | scmCdr => exact hcar _ fun o ho => spares_naviCdr ho fun _ h => h
  | scmSetCar => exact hset _ fun _ _ _ => spares_naviSetCar
  | scmSetCdr => exact hset _ fun _ _ _ => spares_naviSetCdr
  | scmList => exact hargs
  | scmMember => exact spares_scmMember hX hargs
  | scmAssoc => exact spares_scmAssoc hX hargs
  | scmForEach => exact spares_scmForEach hargs
  | scmMap => exact spares_scmMap hargs
  | scmVectorMap => exact spares_scmVectorMap hargs
  | scmVectorMapIp => exact spares_scmVectorMapIp hargs
  | scmVectorForEach => exact spares_scmVectorForEach hargs
  | scmGcCollect => exact spares_bind (spares_gcCollect (spares_pure (by simp)))
  | other n => exact spares_leaf (hX.builtin n nrArgs env hargs)

/-- **Every function spares what it is not given**; that `navi_import` turns the switch of the
collector is told apart. -/
theorem spares_evalBody {f : EvalFn} (hf : f.Avoids S)
    (hG : G ∨ ∀ imports env, f ≠ .naviImport imports env) :
    Spares S G (sparing S) (evalBody X f) (f.RetAvoids S) := by
  simp only [EvalFn.Avoids] at hf
  cases f <;> simp only [EvalFn.objs, allAvoid_cons, allAvoid_append, allAvoid_nil, and_true] at hf
  case naviEval => exact spares_naviEvalBody hf
  case evalLoop => exact spares_evalLoopBody hf
  case eval_ => exact spares_evalBody_ hf
  case evalCall => exact spares_evalCallBody hf
  case naviApply_ => exact spares_naviApplyBody_ hf.1 hf.2
  case doApply => exact spares_doApplyBody hf.1 hf.2
  case cProc => exact spares_cProcBody hX _ _ hf
  case procedureCall => exact spares_procedureCallBody hf.1 hf.2
  case operandLoop => exact spares_operandLoopBody hf.1 hf.2
  case caselambdaCall => exact spares_caselambdaCallBody hf.1 hf.2
  case beginLoop => exact spares_beginLoopBody hf.1 hf.2
  case andLoop => exact spares_andLoopBody hf
  case orLoop => exact spares_orLoopBody hf
  case evalQq => exact spares_evalQqBody hf
  case qqLoop => exact spares_qqLoopBody hf.1 hf.2.1 hf.2.2
  case evalClause => exact spares_evalClauseBody hf.1 hf.2
  case condLoop => exact spares_condLoopBody hf
  case naviLoad => exact spares_naviLoadBody hX hf
  case loadLoop => exact spares_loadLoopBody hX hf.1 hf.2
  case includeLoop => exact spares_includeLoopBody hf
  case letLoop => exact spares_letLoopBody hf
  case letValuesLoop => exact spares_letValuesLoopBody hf
  case naviParameterConvert => exact spares_naviParameterConvertBody hf.1 hf.2
  case parameterizeParams => exact spares_parameterizeParamsBody hf.1 hf.2
  case parameterizeVals => exact spares_parameterizeValsBody hf
  case importValid => exact spares_importValidBody hf
  case getImportEnv => exact spares_getImportEnvBody hX hf
  case naviImport => exact spares_naviImportBody (hG.resolve_right fun h => h _ _ rfl) hf
  case importLoop => exact spares_importLoopBody hf
  case doLoadLibrary => exact spares_doLoadLibraryBody
  case loadDeclarations => exact spares_loadDeclarationsBody hf.1 hf.2
  case naviRaise => exact spares_naviRaiseBody hf
  case applyForce => exact spares_applyForceBody hf.1 hf.2
  case memberLoop => exact spares_memberLoopBody hf.1 hf.2.1 hf.2.2
  case assocLoop => exact spares_assocLoopBody hf.1 hf.2.1 hf.2.2
  case forEachLoop => exact spares_forEachLoopBody hf.1 hf.2
  case mapLoop => exact spares_mapLoopBody hf.1 hf.2.2.2 hf.2.1 hf.2.2.1
  case vectorMapIpLoop => exact spares_vectorMapIpLoopBody hf.1 hf.2.1 hf.2.2
  case vectorForEachLoop => exact spares_vectorForEachLoopBody hf.1 hf.2
  case vectorMapLoop => exact spares_vectorMapLoopBody hf.1 hf.2.2 hf.2.1

end NaviScheme
