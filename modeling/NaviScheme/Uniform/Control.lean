import NaviScheme.Eval.Control
import NaviScheme.Eval.Callee
import NaviScheme.Uniform.Library

/-!
# control_features.c, list.c and vector.c, at other addresses

No function looks at addresses (`NaviScheme.Externals.Natural.uniform`), if the builtins and
ports that are not in the model do not.
-/

namespace NaviScheme

open Prog

/-! ### control_features.c -/

theorem natural_applyForceBody (proc args : NaviObj) (env : NaviEnv) :
    Natural (applyForceBody proc args env) fun g => applyForceBody (g • proc) (g • args) env := by
  refine natural_bind (natural_naviApply proc args env _ _) fun result => ?_
  refine natural_bind (natural_naviType result) fun t => ?_
  exact natural_ite (by simp) (natural_naviEval result env _ _) (natural_ret result)

theorem natural_naviRaiseBody (args : NaviObj) (env : NaviEnv) :
    Natural (naviRaiseBody args env) fun g => naviRaiseBody (g • args) env := by
  refine natural_bind (natural_naviMakeSymbol _) fun sym => ?_
  refine natural_bind (natural_naviEnvLookup _ sym) fun handler => ?_
  refine natural_bind (natural_naviType handler) fun t => natural_ite (by simp) ?_
    ⟨fun g => rfl, trivial⟩
  refine natural_bind (natural_naviScopeUnset _ sym) fun _ => ?_
  exact natural_bind_obj (natural_callFn _ _ _) fun _ => natural_callFn _ _ _

theorem natural_applyFlatten (last : NaviObj) (conses : List NaviObj) :
    Natural (applyFlatten last conses) fun g => applyFlatten (g • last) (g • conses) := by
  induction conses generalizing last with
  | nil => exact natural_ret ()
  | cons cons rest ih =>
    refine natural_bind (natural_naviCar cons) fun fst => ?_
    refine natural_bind (natural_naviIsLastPair cons) fun b => natural_ite (by simp) ?_ (ih cons)
    exact natural_bind (natural_naviTypeCheckProperList fst) fun _ => natural_naviSetCdr last fst

theorem natural_scmApply (args : NaviObj) (env : NaviEnv) :
    Natural (scmApply args env) fun g => scmApply (g • args) env := by
  refine natural_bind (natural_walk args) fun c => ?_
  refine natural_bind (natural_leaf (natural_applyFlatten args c.1)) fun _ => ?_
  refine natural_bind (natural_naviCar args) fun proc => ?_
  exact natural_bind (natural_naviCdr args) fun rest => natural_naviApply proc rest env _ _

/-- Whether an escape is the one that is waited for. -/
theorem smul_ite_escape {g : Readdressing} {p p' : Code NaviObj} (hp : g • p = p')
    (cont o : NaviObj) :
    g • (if g⁻¹ • o = cont then p else .throw (.escape (g⁻¹ • o))) =
      if o = g • cont then p' else .throw (.escape o) := by
  by_cases h : o = g • cont
  · rw [if_pos (inv_smul_eq_iff.mpr h), if_pos h, hp]
  · rw [if_neg (mt inv_smul_eq_iff.mp h), if_neg h, smul_throw]
    exact congrArg (fun o => (.throw (.escape o) : Code NaviObj)) (smul_inv_smul g o)

/-- What the escape that was called has been given. -/
def escapeResult (cont : NaviObj) : Code NaviObj := do
  match (← load cont).2 with
  | .escape _ (some arg) => return arg
  | _ => fail .badWord

theorem natural_escapeResult (cont : NaviObj) :
    Natural (escapeResult cont) fun g => escapeResult (g • cont) := by
  refine natural_bind (natural_load cont) fun c => ?_
  obtain ⟨t, d⟩ := c
  cases d with
  | escape env arg =>
    cases arg with
    | none => exact natural_fail _
    | some arg => exact natural_ret arg
  | _ => exact natural_fail _

theorem natural_scmCallEc (args : NaviObj) (env : NaviEnv) :
    Natural (scmCallEc args env) fun g => scmCallEc (g • args) env := by
  refine natural_bind (natural_naviCar args) fun proc => ?_
  refine natural_bind (natural_leaf (natural_naviCheckArity proc 1)) fun _ => ?_
  refine natural_bind ⟨fun g => smul_make _ _, heeds_make nofun⟩ fun cont => ?_
  refine natural_bind (natural_naviGcGuard cont env) fun guard => ?_
  have hstore : Heeds orderly (store cont (.escape (some env) none) : Code Unit) :=
    heeds_store (mayHold_of_ne nofun)
  refine natural_bind ⟨fun g => smul_store _ _, hstore⟩ fun _ => ?_
  refine natural_bind (natural_naviEnvRef env) fun _ => ?_
  refine natural_bind (natural_naviMakePair cont .nil) fun contArgs => ?_
  refine natural_bind ?_ fun result => natural_bind (natural_naviGcUnguard guard) fun _ =>
    natural_bind (natural_naviEnvUnref env) fun _ => natural_ret result
  have harg := natural_escapeResult cont
  refine ⟨fun g => congrArg (Prog.call _ _) (funext fun r => ?_), trivial, fun _ _ => trivial,
    fun e _ => ?_⟩
  · rcases r with (o | args) | v
    · exact smul_ite_escape (harg.1 g) cont o
    · exact congrArg (fun o => (.throw (.unhandled o) : Code NaviObj)) (smul_inv_smul g args)
    · exact congrArg Prog.ret (smul_inv_smul g v)
  · rcases e with o | args
    · exact heeds_ite.mpr (by split_ifs <;> [exact harg.2; trivial])
    · trivial

theorem natural_scmValues (args : NaviObj) :
    Natural (scmValues args) fun g => scmValues (g • args) := by
  refine natural_bind (natural_naviListToVector args) fun values => ?_
  exact natural_bind (natural_retag values _) fun _ => natural_ret values

theorem natural_scmCallWithValues (args : NaviObj) (env : NaviEnv) :
    Natural (scmCallWithValues args env) fun g => scmCallWithValues (g • args) env := by
  refine natural_bind (natural_naviCar args) fun producer => ?_
  refine natural_bind (natural_leaf (natural_naviCheckArity producer 0)) fun _ => ?_
  refine natural_bind (natural_naviMakePair producer .nil) fun expr => ?_
  refine natural_bind (natural_naviEval expr env _ _) fun values => ?_
  have hcall (callArgs : NaviObj) : Natural (do
      let expr ← naviMakePair (← naviCadr args) callArgs
      naviEval expr env [] [] : Code NaviObj) (fun g => do
        let expr ← naviMakePair (← naviCadr (g • args)) (g • callArgs)
        naviEval expr env [] []) := by
    refine natural_bind (natural_naviCadr args) fun consumer => ?_
    exact natural_bind (natural_naviMakePair consumer callArgs) fun expr =>
      natural_naviEval expr env _ _
  refine natural_bind (natural_naviType values) fun t => natural_ite (by simp) ?_ ?_
  · exact natural_bind (natural_naviVectorToList values) hcall
  · exact natural_bind (natural_naviMakePair values .nil) hcall

theorem natural_scmWithExceptionHandler (args : NaviObj) (env : NaviEnv) :
    Natural (scmWithExceptionHandler args env) fun g =>
      scmWithExceptionHandler (g • args) env := by
  refine natural_bind (natural_naviCar args) fun handler => ?_
  refine natural_bind (natural_naviCadr args) fun thunk => ?_
  refine natural_bind (natural_leaf (natural_naviCheckArity handler 1)) fun _ => ?_
  refine natural_bind (natural_leaf (natural_naviCheckArity thunk 0)) fun _ => ?_
  refine natural_bind (natural_naviDynamicEnvNewScope env) fun exnEnv => ?_
  refine natural_bind (natural_naviMakeSymbol _) fun sym => ?_
  refine natural_bind (natural_naviScopeSet _ sym handler) fun _ => ?_
  refine natural_bind (natural_naviApply thunk .nil _ _ _) fun result => ?_
  exact natural_bind (natural_naviEnvUnref _) fun _ => natural_ret result

theorem natural_scmRaiseContinuable (args : NaviObj) (env : NaviEnv) :
    Natural (scmRaiseContinuable args env) fun g => scmRaiseContinuable (g • args) env := by
  refine natural_bind (natural_naviMakeSymbol _) fun sym => ?_
  refine natural_bind (natural_naviEnvLookup _ sym) fun handler => ?_
  refine natural_bind (natural_naviType handler) fun t => natural_ite (by simp) ?_
    ⟨fun g => rfl, trivial⟩
  refine natural_bind (natural_naviGcGuard handler env) fun guard => ?_
  refine natural_bind (natural_naviScopeUnset _ sym) fun _ => ?_
  refine natural_bind (natural_naviApply handler args env _ _) fun result => ?_
  refine natural_bind (natural_naviScopeSet _ sym handler) fun _ => ?_
  exact natural_bind (natural_naviGcUnguard guard) fun _ => natural_ret result

theorem natural_scmError (args : NaviObj) (env : NaviEnv) :
    Natural (scmError args env) fun g => scmError (g • args) env :=
  natural_bind (natural_naviMakePair args .nil) fun args => natural_raise args env

/-! ### list.c -/

theorem natural_doCompare (proc fst snd : NaviObj) (env : NaviEnv) (held : List NaviObj) :
    Natural (doCompare proc fst snd env held) fun g =>
      doCompare (g • proc) (g • fst) (g • snd) env (g • held) := by
  refine natural_bind (natural_naviList_ fst [snd]) fun args => ?_
  refine natural_bind_obj (natural_callFn _ _ _) fun result => ⟨fun g => ?_, trivial⟩
  exact congrArg Prog.ret (naviIsTrue_smul result).symm

theorem natural_memberLoopBody (obj cons proc : NaviObj) (env : NaviEnv) :
    Natural (memberLoopBody obj cons proc env) fun g =>
      memberLoopBody (g • obj) (g • cons) (g • proc) env := by
  refine natural_bind (natural_naviIsPair cons) fun b => natural_ite (by simp) ?_ (natural_ret _)
  refine natural_bind (natural_naviCar cons) fun car => ?_
  refine natural_bind (natural_doCompare proc obj car env _) fun b => natural_ite (by simp)
    (natural_ret cons) ?_
  exact natural_bind (natural_naviCdr cons) fun cdr => natural_callFn _ _ _

theorem natural_assocLoopBody (obj cons proc : NaviObj) (env : NaviEnv) :
    Natural (assocLoopBody obj cons proc env) fun g =>
      assocLoopBody (g • obj) (g • cons) (g • proc) env := by
  refine natural_bind (natural_naviIsPair cons) fun b => natural_ite (by simp) ?_ (natural_ret _)
  refine natural_bind (natural_naviCar cons) fun entry => ?_
  refine natural_bind (natural_leaf (natural_naviTypeCheck entry _)) fun _ => ?_
  refine natural_bind (natural_naviCar entry) fun key => ?_
  refine natural_bind (natural_doCompare proc obj key env _) fun b => natural_ite (by simp)
    (natural_naviCar cons) ?_
  exact natural_bind (natural_naviCdr cons) fun cdr => natural_callFn _ _ _

theorem natural_consArrayFill (lists : List NaviObj) :
    Natural (consArrayFill lists) fun g => consArrayFill (g • lists) := by
  induction lists with
  | nil => exact natural_ret ()
  | cons list rest ih => exact natural_bind (natural_naviTypeCheckList list) fun _ => ih

theorem natural_consArrayTerminated (lists : List NaviObj) :
    Natural (consArrayTerminated lists) fun g => consArrayTerminated (g • lists) := by
  induction lists with
  | nil => exact natural_ret _
  | cons list rest ih =>
    exact natural_bind (natural_naviIsPair list) fun b => natural_ite (by simp) ih (natural_ret _)

theorem natural_consArrayAdvance (lists : List NaviObj) :
    Natural (consArrayAdvance lists) fun g => consArrayAdvance (g • lists) := by
  induction lists with
  | nil => exact natural_ret []
  | cons list rest ih =>
    refine natural_bind (natural_naviCdr list) fun cdr => ?_
    exact natural_bind ih fun cdrs => natural_ret (cdr :: cdrs)

theorem natural_argListLoop (cons : NaviObj) (lists : List NaviObj) :
    Natural (argListLoop cons lists) fun g => argListLoop (g • cons) (g • lists) := by
  induction lists generalizing cons with
  | nil => exact natural_ret ()
  | cons list rest ih =>
    refine natural_bind (natural_naviCar list) fun car => ?_
    refine natural_bind (natural_naviMakePair car .nil) fun cdr => ?_
    exact natural_bind (natural_naviSetCdr cons cdr) fun _ => ih cdr

theorem natural_argList (lists : List NaviObj) :
    Natural (argList lists) fun g => argList (g • lists) := by
  refine natural_bind (natural_naviMakePair .nil .nil) fun args => ?_
  exact natural_bind (natural_argListLoop args lists) fun _ => natural_naviCdr args

theorem natural_forEachLoopBody (proc : NaviObj) (lists : List NaviObj) (env : NaviEnv) :
    Natural (forEachLoopBody proc lists env) fun g =>
      forEachLoopBody (g • proc) (g • lists) env := by
  refine natural_bind (natural_consArrayTerminated lists) fun b => natural_ite (by simp)
    (natural_ret ()) ?_
  refine natural_bind (natural_argList lists) fun args => ?_
  refine natural_bind_obj (natural_callFn _ _ _) fun _ => ?_
  exact natural_bind (natural_consArrayAdvance lists) fun lists => natural_callFn _ _ _

theorem natural_scmForEach (nrArgs : ℕ) (args : NaviObj) (env : NaviEnv) :
    Natural (scmForEach nrArgs args env) fun g => scmForEach nrArgs (g • args) env := by
  refine natural_bind (natural_naviCar args) fun proc => ?_
  refine natural_bind (natural_leaf (natural_naviCheckArity proc _)) fun _ => ?_
  refine natural_bind (natural_naviCdr args) fun cdr => ?_
  refine natural_bind (natural_elements cdr) fun lists => ?_
  refine natural_bind (natural_leaf (natural_consArrayFill lists)) fun _ => ?_
  exact natural_bind_unit (natural_callFn _ _ _) fun _ => natural_ret _

theorem natural_mapLoopBody (proc : NaviObj) (lists : List NaviObj) (result last : NaviObj)
    (env : NaviEnv) :
    Natural (mapLoopBody proc lists result last env) fun g =>
      mapLoopBody (g • proc) (g • lists) (g • result) (g • last) env := by
  refine natural_bind (natural_consArrayTerminated lists) fun b => natural_ite (by simp)
    (natural_naviCdr result) ?_
  refine natural_bind (natural_argList lists) fun args => ?_
  refine natural_bind_obj (natural_callFn _ _ _) fun elm => ?_
  refine natural_bind (natural_naviMakePair elm .nil) fun pair => ?_
  refine natural_bind (natural_naviSetCdr last pair) fun _ => ?_
  exact natural_bind (natural_consArrayAdvance lists) fun lists => natural_callFn _ _ _

theorem natural_scmMap (nrArgs : ℕ) (args : NaviObj) (env : NaviEnv) :
    Natural (scmMap nrArgs args env) fun g => scmMap nrArgs (g • args) env := by
  refine natural_bind (natural_naviCar args) fun proc => ?_
  refine natural_bind (natural_leaf (natural_naviCheckArity proc _)) fun _ => ?_
  refine natural_bind (natural_naviCdr args) fun cdr => ?_
  refine natural_bind (natural_elements cdr) fun lists => ?_
  refine natural_bind (natural_leaf (natural_consArrayFill lists)) fun _ => ?_
  exact natural_bind (natural_naviMakePair .nil .nil) fun result => natural_callFn _ _ _

/-! ### vector.c -/

theorem natural_nthElements (k : ℕ) (vecs : List NaviObj) :
    Natural (nthElements k vecs) fun g => nthElements k (g • vecs) := by
  induction vecs with
  | nil => exact natural_ret []
  | cons vec rest ih =>
    refine natural_bind (natural_naviVector vec) fun data => ?_
    refine natural_bind (natural_elem data k) fun o => ?_
    exact natural_bind ih fun os => natural_ret (o :: os)

theorem natural_vectorMapLoopBody (proc : NaviObj) (vecs : List NaviObj) (result : NaviObj)
    (i minLen : ℕ) (env : NaviEnv) :
    Natural (vectorMapLoopBody proc vecs result i minLen env) fun g =>
      vectorMapLoopBody (g • proc) (g • vecs) (g • result) i minLen env := by
  refine natural_ite (fun _ => .rfl) ?_ (natural_ret ())
  refine natural_bind (natural_nthElements i vecs) fun os => ?_
  refine natural_bind (natural_naviList os) fun args => ?_
  refine natural_bind_obj (natural_callFn _ _ _) fun val => ?_
  exact natural_bind (natural_vectorSet result i val) fun _ => natural_callFn _ _ _

theorem natural_vectorArrayFill (vecs : List NaviObj) (minLen : ℕ) :
    Natural (vectorArrayFill vecs minLen) fun g => vectorArrayFill (g • vecs) minLen := by
  induction vecs generalizing minLen with
  | nil => exact natural_ret _
  | cons vec rest ih =>
    refine natural_bind (natural_naviTypeCheck vec _) fun _ => ?_
    refine natural_bind (natural_naviVector vec) fun data => ?_
    refine ⟨fun g => ?_, (ih _).2⟩
    change _ = vectorArrayFill (g • rest) (min (g • data).length minLen)
    rw [length_smul]
    exact (ih _).1 g

/-- From the length of one of the vectors. -/
theorem natural_vectorArrayFill_length (vecs : List NaviObj) (data : List (Option NaviObj)) :
    Natural (vectorArrayFill vecs data.length) fun g =>
      vectorArrayFill (g • vecs) (g • data).length := by
  simpa only [length_smul] using natural_vectorArrayFill vecs data.length

theorem natural_scmVectorMap (nrArgs : ℕ) (args : NaviObj) (env : NaviEnv) :
    Natural (scmVectorMap nrArgs args env) fun g => scmVectorMap nrArgs (g • args) env := by
  refine natural_bind (natural_naviCar args) fun proc => ?_
  refine natural_bind (natural_leaf (natural_naviCheckArity proc _)) fun _ => ?_
  refine natural_bind (natural_naviCdr args) fun cdr => ?_
  refine natural_bind (natural_elements cdr) fun vecs => ?_
  refine natural_bind (natural_naviCadr args) fun vec => ?_
  refine natural_bind (natural_naviVector vec) fun data => ?_
  refine natural_bind (natural_leaf (natural_vectorArrayFill_length vecs data)) fun minLen => ?_
  have hmake : Natural (make .naviVector (.vector (List.replicate minLen none)) : Code NaviObj)
      fun _ => make .naviVector (.vector (List.replicate minLen none)) := by
    refine ⟨fun g => ?_, heeds_make nofun⟩
    rw [smul_make, smul_vector, smul_list, List.map_replicate]
    rfl
  refine natural_bind hmake fun result => ?_
  exact natural_bind_unit (natural_callFn _ _ _) fun _ => natural_ret result

theorem natural_vectorMapIpLoopBody (proc dst src : NaviObj) (i size : ℕ) (env : NaviEnv) :
    Natural (vectorMapIpLoopBody proc dst src i size env) fun g =>
      vectorMapIpLoopBody (g • proc) (g • dst) (g • src) i size env := by
  refine natural_ite (fun _ => .rfl) ?_ (natural_ret ())
  refine natural_bind (natural_naviVector src) fun data => ?_
  refine natural_bind (natural_elem data i) fun o => ?_
  refine natural_bind (natural_naviList_ proc [o]) fun expr => ?_
  refine natural_bind (natural_naviEval expr env _ _) fun val => ?_
  exact natural_bind (natural_vectorSet dst i val) fun _ => natural_callFn _ _ _

theorem natural_scmVectorMapIp (args : NaviObj) (env : NaviEnv) :
    Natural (scmVectorMapIp args env) fun g => scmVectorMapIp (g • args) env := by
  refine natural_bind (natural_naviCar args) fun proc => ?_
  refine natural_bind (natural_leaf (natural_naviCheckArity proc 1)) fun _ => ?_
  refine natural_bind (natural_naviCadr args) fun vec => ?_
  refine natural_bind (natural_leaf (natural_naviTypeCheck vec _)) fun _ => ?_
  refine natural_bind (natural_naviVector vec) fun data => ?_
  have hloop (n : ℕ) : Natural (callFn (.vectorMapIpLoop proc vec vec 0 n env) [vec] [] : Code Unit)
      fun g => callFn (.vectorMapIpLoop (g • proc) (g • vec) (g • vec) 0 n env) [g • vec] [] :=
    natural_callFn _ _ _
  refine natural_bind_unit ⟨fun g => ((hloop data.length).1 g).trans ?_, (hloop _).2⟩ fun _ =>
    natural_ret vec
  exact congrArg (fun n => show Code Unit from
    callFn (.vectorMapIpLoop (g • proc) (g • vec) (g • vec) 0 n env) [g • vec] []) length_smul.symm

theorem natural_vectorForEachLoopBody (proc : NaviObj) (vecs : List NaviObj) (i minLen : ℕ)
    (env : NaviEnv) :
    Natural (vectorForEachLoopBody proc vecs i minLen env) fun g =>
      vectorForEachLoopBody (g • proc) (g • vecs) i minLen env := by
  refine natural_ite (fun _ => .rfl) ?_ (natural_ret ())
  refine natural_bind (natural_nthElements i vecs) fun os => ?_
  refine natural_bind (natural_naviList os) fun args => ?_
  exact natural_bind_obj (natural_callFn _ _ _) fun _ => natural_callFn _ _ _

theorem natural_scmVectorForEach (nrArgs : ℕ) (args : NaviObj) (env : NaviEnv) :
    Natural (scmVectorForEach nrArgs args env) fun g =>
      scmVectorForEach nrArgs (g • args) env := by
  refine natural_bind (natural_naviCar args) fun proc => ?_
  refine natural_bind (natural_leaf (natural_naviCheckArity proc _)) fun _ => ?_
  refine natural_bind (natural_naviCdr args) fun cdr => ?_
  refine natural_bind (natural_elements cdr) fun vecs => ?_
  refine natural_bind (natural_naviCadr args) fun vec => ?_
  refine natural_bind (natural_naviVector vec) fun data => ?_
  refine natural_bind (natural_leaf (natural_vectorArrayFill_length vecs data)) fun minLen => ?_
  exact natural_bind_unit (natural_callFn _ _ _) fun _ => natural_ret _

/-! ### The bodies -/

theorem natural_gcCollect (held : Locals) :
    Natural (perform (.gcCollect held) : Code Unit) fun g =>
      perform (.gcCollect { held with objs := g • held.objs }) :=
  ⟨fun _ => eq_of_heq smul_perform, heeds_perform.mpr trivial⟩

section Bodies

variable {X : Externals} (hX : X.Natural)
include hX

theorem natural_naviMember (obj : NaviObj) (conses : List NaviObj) :
    Natural (naviMember X obj conses) fun g => naviMember X (g • obj) (g • conses) := by
  induction conses with
  | nil => exact natural_ret _
  | cons cons rest ih =>
    refine natural_bind (natural_naviCar cons) fun car => ?_
    exact natural_bind (hX.naviEqualp obj car) fun b => natural_ite (by simp)
      (natural_ret cons) ih

theorem natural_scmMember (nrArgs : ℕ) (args : NaviObj) (env : NaviEnv) :
    Natural (scmMember X nrArgs args env) fun g => scmMember X nrArgs (g • args) env := by
  refine natural_ite (fun _ => .rfl) ?_ ?_
  · exact natural_bind (natural_naviMakeSymbol _) fun name =>
      natural_leaf (natural_naviArityError name)
  refine natural_bind (natural_naviCar args) fun obj => ?_
  refine natural_bind (natural_naviCadr args) fun list => natural_ite (fun _ => .rfl) ?_ ?_
  · refine natural_leaf (natural_bind (natural_walk list) fun c => ?_)
    exact natural_naviMember hX obj c.1
  · refine natural_bind (natural_naviCaddr args) fun proc => ?_
    refine natural_bind (natural_leaf (natural_bind (natural_naviTypeCheck proc _) fun _ =>
      natural_naviCheckArity proc 2)) fun _ => ?_
    exact natural_callFn _ _ _

theorem natural_naviAssoc (obj : NaviObj) (conses : List NaviObj) :
    Natural (naviAssoc X obj conses) fun g => naviAssoc X (g • obj) (g • conses) := by
  induction conses with
  | nil => exact natural_ret _
  | cons cons rest ih =>
    refine natural_bind (natural_naviCar cons) fun entry => ?_
    refine natural_bind (natural_naviTypeCheck entry _) fun _ => ?_
    refine natural_bind (natural_naviCar entry) fun key => ?_
    exact natural_bind (hX.naviEqualp obj key) fun b => natural_ite (by simp)
      (natural_ret entry) ih

theorem natural_scmAssoc (nrArgs : ℕ) (args : NaviObj) (env : NaviEnv) :
    Natural (scmAssoc X nrArgs args env) fun g => scmAssoc X nrArgs (g • args) env := by
  refine natural_ite (fun _ => .rfl) ?_ ?_
  · exact natural_bind (natural_naviMakeSymbol _) fun name =>
      natural_leaf (natural_naviArityError name)
  refine natural_bind (natural_naviCar args) fun obj => ?_
  refine natural_bind (natural_naviCadr args) fun list => natural_ite (fun _ => .rfl) ?_ ?_
  · refine natural_leaf (natural_bind (natural_walk list) fun c => ?_)
    exact natural_naviAssoc hX obj c.1
  · exact natural_bind (natural_naviCaddr args) fun proc => natural_callFn _ _ _

theorem natural_cProcBody (f : Builtin) (nrArgs : ℕ) (args : NaviObj) (env : NaviEnv) :
    Natural (cProcBody X f nrArgs args env) fun g => cProcBody X f nrArgs (g • args) env := by
  cases f with
  | scmLambda => exact natural_scmLambda args env
  | scmCaselambda => exact natural_scmCaselambda args env
  | scmBegin => exact natural_callFn (.beginLoop args none env) [] []
  | scmInclude => exact natural_naviInclude args false env
  | scmIncludeCi => exact natural_naviInclude args true env
  | scmQuote => exact natural_naviCar args
  | scmUnquote | scmEval =>
    exact natural_bind (natural_naviCar args) fun e => natural_naviEval e env _ _
  | scmQuasiquote =>
    exact natural_bind (natural_naviCar args) fun e => natural_callFn (.evalQq e env) [] []
  | scmCase => exact natural_scmCase args env
  | scmCond =>
    exact natural_bind (natural_condValid args) fun b => natural_ite (by simp)
      (natural_callFn (.condLoop args env) [] []) (natural_leaf (natural_naviError _ []))
  | scmIf => exact natural_scmIf nrArgs args env
  | scmAnd => exact natural_callFn (.andLoop args env) [] []
  | scmOr => exact natural_callFn (.orLoop args env) [] []
  | scmDelay => exact natural_bind (natural_naviCar args) fun e => natural_naviMakePromise e env
  | scmForce => exact natural_scmForce args env
  | scmDefine => exact natural_scmDefine args env
  | scmDefineSyntax => exact natural_scmDefineSyntax args env
  | scmDefineValues => exact natural_scmDefineValues args env
  | scmDefmacroForm => exact natural_scmDefmacroForm args env
  | scmLet => exact natural_scmLet args env
  | scmSequentialLet => exact natural_scmSequentialLet args env
  | scmLetValues => exact natural_scmLetValues args env
  | scmSet => exact natural_scmSet args env
  | scmMakeParameter => exact natural_scmMakeParameter nrArgs args env
  | scmParameterize => exact natural_scmParameterize args env
  | scmDefineLibrary => exact natural_scmDefineLibrary args env
  | scmImport => exact natural_scmImport args env
  | scmApply => exact natural_scmApply args env
  | scmCallEc => exact natural_scmCallEc args env
  | scmValues => exact natural_scmValues args
  | scmCallWithValues => exact natural_scmCallWithValues args env
  | scmWithExceptionHandler => exact natural_scmWithExceptionHandler args env
  | scmRaise => exact natural_raise args env
  | scmRaiseContinuable => exact natural_scmRaiseContinuable args env
  | scmError => exact natural_scmError args env
  | scmCons =>
    exact natural_bind (natural_naviCar args) fun car =>
      natural_bind (natural_naviCadr args) fun cdr => natural_naviMakePair car cdr
  | scmCar => exact natural_bind (natural_naviCar args) fun o => natural_naviCar o
  | scmCdr => exact natural_bind (natural_naviCar args) fun o => natural_naviCdr o
  | scmSetCar =>
    refine natural_bind (natural_naviCar args) fun cons => ?_
    refine natural_bind (natural_naviCadr args) fun o => ?_
    exact natural_bind (natural_naviSetCar cons o) fun _ => natural_ret _
  | scmSetCdr =>
    refine natural_bind (natural_naviCar args) fun cons => ?_
    refine natural_bind (natural_naviCadr args) fun o => ?_
    exact natural_bind (natural_naviSetCdr cons o) fun _ => natural_ret _
  | scmList => exact natural_ret args
  | scmMember => exact natural_scmMember hX nrArgs args env
  | scmAssoc => exact natural_scmAssoc hX nrArgs args env
  | scmForEach => exact natural_scmForEach nrArgs args env
  | scmMap => exact natural_scmMap nrArgs args env
  | scmVectorMap => exact natural_scmVectorMap nrArgs args env
  | scmVectorMapIp => exact natural_scmVectorMapIp args env
  | scmVectorForEach => exact natural_scmVectorForEach nrArgs args env
  | scmGcCollect => exact natural_bind (natural_gcCollect _) fun _ => natural_ret _
  | other n => exact natural_leaf (hX.builtin n nrArgs args env)

/-- **No body looks at addresses.** -/
theorem natural_evalBody (f : EvalFn) :
    (∀ g : Readdressing, HEq (g • evalBody X f) (evalBody X (g • f))) ∧
      Heeds orderly (evalBody X f) := by
  have hbody {α : Type} [MulAction Readdressing α] {p : Code α} {p' : Readdressing → Code α}
      (h : Natural p p') : (∀ g : Readdressing, HEq (g • p) (p' g)) ∧ Heeds orderly p :=
    ⟨fun g => heq_of_eq (h.1 g), h.2⟩
  cases f with
  | naviEval expr env => exact hbody (natural_naviEvalBody expr env)
  | evalLoop expr env => exact hbody (natural_evalLoopBody expr env)
  | eval_ expr env => exact hbody (natural_evalBody_ expr env)
  | evalCall expr env => exact hbody (natural_evalCallBody expr env)
  | naviApply_ proc args env => exact hbody (natural_naviApplyBody_ proc args env)
  | doApply proc nrArgs args env => exact hbody (natural_doApplyBody proc nrArgs args env)
  | cProc f nrArgs args env => exact hbody (natural_cProcBody hX f nrArgs args env)
  | procedureCall proc args env => exact hbody (natural_procedureCallBody proc args env)
  | operandLoop cons ptr env => exact hbody (natural_operandLoopBody cons ptr env)
  | caselambdaCall lambda args env => exact hbody (natural_caselambdaCallBody lambda args env)
  | beginLoop cons result env => exact hbody (natural_beginLoopBody cons result env)
  | andLoop cons env => exact hbody (natural_andLoopBody cons env)
  | orLoop cons env => exact hbody (natural_orLoopBody cons env)
  | evalQq expr env => exact hbody (natural_evalQqBody expr env)
  | qqLoop cons first last env => exact hbody (natural_qqLoopBody cons first last env)
  | evalClause arg begin env => exact hbody (natural_evalClauseBody arg begin env)
  | condLoop cons env => exact hbody (natural_condLoopBody cons env)
  | naviLoad filename ci inEnv outEnv =>
    exact hbody (natural_naviLoadBody hX filename ci inEnv outEnv)
  | loadLoop fst port inEnv => exact hbody (natural_loadLoopBody hX fst port inEnv)
  | includeLoop cons ci env => exact hbody (natural_includeLoopBody cons ci env)
  | letLoop cons env new => exact hbody (natural_letLoopBody cons env new)
  | letValuesLoop cons env => exact hbody (natural_letValuesLoopBody cons env)
  | naviParameterConvert param obj env =>
    exact hbody (natural_naviParameterConvertBody param obj env)
  | parameterizeParams cons params env =>
    exact hbody (natural_parameterizeParamsBody cons params env)
  | parameterizeVals cons env new => exact hbody (natural_parameterizeValsBody cons env new)
  | importValid set => exact hbody (natural_importValidBody set)
  | getImportEnv set env => exact hbody (natural_getImportEnvBody hX set env)
  | naviImport imports env => exact hbody (natural_naviImportBody imports env)
  | importLoop cons env => exact hbody (natural_importLoopBody cons env)
  | doLoadLibrary lib env => exact hbody (natural_doLoadLibraryBody lib env)
  | loadDeclarations cons exports libEnv =>
    exact hbody (natural_loadDeclarationsBody cons exports libEnv)
  | naviRaise args env => exact hbody (natural_naviRaiseBody args env)
  | applyForce proc args env => exact hbody (natural_applyForceBody proc args env)
  | memberLoop obj cons proc env => exact hbody (natural_memberLoopBody obj cons proc env)
  | assocLoop obj cons proc env => exact hbody (natural_assocLoopBody obj cons proc env)
  | forEachLoop proc lists env => exact hbody (natural_forEachLoopBody proc lists env)
  | mapLoop proc lists result last env =>
    exact hbody (natural_mapLoopBody proc lists result last env)
  | vectorMapIpLoop proc dst src i size env =>
    exact hbody (natural_vectorMapIpLoopBody proc dst src i size env)
  | vectorForEachLoop proc vecs i minLen env =>
    exact hbody (natural_vectorForEachLoopBody proc vecs i minLen env)
  | vectorMapLoop proc vecs result i minLen env =>
    exact hbody (natural_vectorMapLoopBody proc vecs result i minLen env)

end Bodies

end NaviScheme
