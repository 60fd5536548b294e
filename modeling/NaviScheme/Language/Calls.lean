import NaviScheme.Language.Operands
import NaviScheme.Eval.Callee

/-!
# Calls

`eval_call` evaluates the operator, and what it does then depends on what it is: a special form is
given its operands as they are written, a procedure a list of their values. `check_apply` accepts
what the declaration of a builtin or the formals of a closure admit.
-/

namespace NaviScheme

open Prog

variable {X : Externals} {B : OtherBuiltins} {w w' w₁ : World} {o args proc : NaviObj}
  {e u v op : Value} {as vs : List Value} {env : NaviEnv} {σ σ₁ σ₂ σ₃ : FrameStore} {f g n : ℕ}
  {objs os pairs : List NaviObj} {scopes : List ScopeAddr} {p : NaviProcedure}

/-! ### Checking arguments -/

section Check

variable {t : ArgType} {types : List ArgType} {s : BuiltinSpec}

theorem computes_naviTypeCheck {t : NaviType} (h : v.type = t) (ho : ValueAt B w o v) (hw : w.Wf) :
    Computes (naviTypeCheck o t) w () w := by
  refine (ho.computes_naviType hw).bind ?_
  rw [if_pos h]
  exact Computes.ret _

/-- An argument that is admitted passes its check. -/
theorem computes_checkArg (h : t.Admits v) (ho : ValueAt B w o v) (hw : w.Wf) :
    Computes (checkArg o t) w () w := by
  cases t with
  | naviAny => exact Computes.ret _
  | naviList =>
    have hlist : Computes (naviIsList o : Leaf Bool) w true w := by
      refine (ho.computes_naviType hw).bind ?_
      obtain h | h : v.type = .naviPair ∨ v.type = .naviNil := h
      · rw [h]
        exact Computes.ret _
      · rw [h]
        exact Computes.ret _
    refine hlist.bind ?_
    rw [if_pos rfl]
    exact Computes.ret _
  | naviProperList =>
    obtain ⟨vs, rfl⟩ := h
    obtain ⟨pairs, os, hs, -⟩ := ho.spine
    refine (computes_naviIsProperList hw hs).bind ?_
    rw [if_pos rfl]
    exact Computes.ret _
  | naviByte =>
    obtain ⟨n, rfl, hn⟩ := h
    refine (computes_naviTypeCheck rfl ho hw).bind ?_
    cases ho
    change Computes (if 0 ≤ n ∧ n < 256 then _ else _) w () w
    rw [if_pos hn]
    exact Computes.ret _
  | type t => exact computes_naviTypeCheck h ho hw

theorem computes_checkArgs (hs : Spine w o pairs os) (hos : List.Forall₂ (ValueAt B w) os vs)
    (h : ∀ p ∈ vs.zip types, p.2.Admits p.1) (hw : w.Wf) :
    Computes (checkArgs pairs types) w () w := by
  induction hs generalizing vs types with
  | nil => exact Computes.ret _
  | cons hpair _ ih =>
    cases hos with
    | cons ho hos =>
    cases types with
    | nil => exact Computes.ret _
    | cons t types =>
      obtain ⟨hhead, hrest⟩ := List.forall_mem_cons.mp h
      exact (computes_naviCar hpair).bind ((computes_checkArg hhead ho hw).bind (ih hos hrest))

/-- **`check_apply` accepts the arguments** that the declaration of a builtin admits. -/
theorem computes_checkApply_admits {t : NaviType} {fn : Builtin}
    (hload : w.load proc = .ok (t, .proc p)) (hp : p.Declares fn s) (hs : Spine w args pairs os)
    (hos : List.Forall₂ (ValueAt B w) os vs) (h : s.Admits vs) (hw : w.Wf) :
    Computes (checkApply proc args) w vs.length w := by
  have hlen : pairs.length = vs.length := hs.length_eq.trans hos.length_eq
  refine (computes_naviProcedure hload).bind ((computes_walk hw hs).bind ?_)
  have hsat : naviAritySatisfied p pairs.length = true := by
    rw [hlen, naviAritySatisfied, hp.arity, hp.variadic, Bool.or_eq_true, Bool.and_eq_true,
      decide_eq_true_eq, decide_eq_true_eq]
    exact h.arity
  dsimp only
  rw [if_pos hsat, hp.types, hlen]
  exact (computes_checkArgs hs hos h.types hw).bind (Computes.ret _)

end Check

/-! ### Applying -/

/-- What `do_apply` does with a result. -/
def passResult (env : NaviEnv) (result : NaviObj) : Code NaviObj := do
  let guard ← naviGcGuard result env
  perform (.gcCheck ⟨[result], [env.lexical]⟩)
  naviGcUnguard guard
  return result

theorem evaluates_passResult (env : NaviEnv) (o : NaviObj) (w : World) :
    ∃ g, (worldSemantics X).Evaluates (passResult env o) w (.ok o (w.marked g w.log)) := by
  obtain ⟨guard, g, hguard⟩ := computes_naviGcGuard o env w
  exact ⟨g, hguard.evaluates_bind ((Computes.perform rfl).evaluates_bind
    ((computes_naviGcUnguard guard _).evaluates_bind .ret))⟩

/-- What the C function of a builtin attains is passed on by `do_apply`. -/
theorem Attains.naviApply_ {t : NaviType} {fn : Builtin} (hload : w.load proc = .ok (t, .proc p))
    (hbody : p.body = .cProc fn) (hcheck : Computes (checkApply proc args) w n w)
    (h : ∀ g, Attains X B (cProcBody X fn n args env) (w.marked g w.log) v σ) :
    Attains X B (callFn (.naviApply_ proc args env) objs scopes) w v σ := by
  refine Attains.congr (p := naviApplyBody_ proc args env) ?_ fun r hr => evaluates_callFn.mpr hr
  refine .reads hcheck.code ?_
  refine Attains.congr (p := doApplyBody proc n args env) ?_ fun r hr => evaluates_callFn.mpr hr
  refine .reads (computes_naviProcedure hload) ?_
  rw [hbody]
  obtain ⟨guard, g, hguard⟩ := computes_naviGcGuard args env w
  refine .bind hguard.evaluates (w.builds_marked g _) ?_
  have hresult : Attains X B (callFn (.cProc fn n args env) [] [env.lexical])
    (w.marked g w.log) v σ :=
    (h g).congr fun r hr => evaluates_callFn.mpr hr
  refine hresult.andThen fun r w' => ?_
  obtain ⟨g', hg'⟩ := evaluates_passResult (X := X) env r w'
  exact ⟨g', (computes_naviGcUnguard guard w').evaluates_bind hg'⟩

/-! ### Closures -/

section Closure

variable {fs : Value} {es : List Value} {last formals tail : NaviObj} {fpairs syms : List NaviObj}
  {bs : List NaviBinding} {vars vars' : String → Option Value}

theorem bindIn_nil :
    bindIn bs [] last os tail = if last = .nil then bs else setIn bs last tail := by
  cases os <;> rfl

/-- **The bindings of a call** are those of the frame of the call. -/
theorem FrameAt.bindIn (hbind : fs.bind vs vars = some vars') (hfs : ValueAt B w formals fs)
    (h : Formals w last formals fpairs syms) (hos : List.Forall₂ (ValueAt B w) os vs)
    (htail : ValueAt B w tail (.list (vs.drop fs.arity))) (hbs : FrameAt B w bs vars) (hw : w.Wf) :
    FrameAt B w (NaviScheme.bindIn bs syms last os tail) vars' := by
  induction h generalizing fs vs os bs vars with
  | nil hlast =>
    cases fs with
    | nil =>
      obtain rfl := hfs.eq_nil
      cases vs with
      | nil =>
        obtain rfl := Option.some.inj hbind
        cases hos
        exact hbs
      | cons v vs => cases hbind
    | sym x =>
      obtain rfl := Option.some.inj hbind
      have hne : last ≠ .nil := by
        rintro rfl
        obtain ⟨a, ha, -⟩ := hfs.sym_inv
        cases ha
      rw [bindIn_nil, if_neg hne]
      exact hbs.setIn hw hfs.sym_inv htail
    | pair car cdr =>
      obtain ⟨_, _, hpair, -⟩ := hfs.cons_inv
      exact absurd hpair (Formals.not_isPair_last hlast)
    | _ => cases hbind
  | cons hpair hsym ht ih =>
    cases fs with
    | pair car cdr =>
      obtain ⟨_, _, hpair', hcar, hcdr⟩ := hfs.cons_inv
      obtain ⟨rfl, rfl⟩ := hpair.unique hpair'
      cases car with
      | sym x =>
        cases vs with
        | nil => cases hbind
        | cons v vs =>
          cases hos with
          | cons ho hos =>
            have hrest : cdr.bind vs (Function.update vars x (some v)) = some vars' := hbind
            exact ih hrest hcdr hos htail (hbs.setIn hw hcar.sym_inv ho)
      | _ => cases hbind
    | nil =>
      obtain rfl := hfs.eq_nil
      cases hpair
    | sym x => exact nomatch hpair.symm.trans (hfs.sym_inv.load hw)
    | _ => cases hbind

/-- **Applying a closure** evaluates its body in a new frame. -/
theorem attains_naviApply_closure {list : NaviObj} (hw : w.Lives B σ)
    (hproc : ValueAt B w proc (.closure fs (.list es) g)) (hs : Spine w list pairs os)
    (hos : List.Forall₂ (ValueAt B w) os vs) (hbind : fs.bind vs (fun _ => none) = some vars)
    (hes : MeetsBody X B (σ.push ⟨some g, vars⟩) σ.next es v σ₁) :
    Attains X B (naviApply proc list env [] []) w v σ₁ := by
  cases hproc with
  | @closure _ body p _ _ hload hfs hargs harity hvariadic htypes hbody hbodyAt henv =>
  obtain ⟨hformals, hlen⟩ := Lisp.Val.isFormals_of_bind hbind
  obtain ⟨last, fpairs, syms, hsyms, hsymsLen, hlast⟩ := hargs.formals hfs hw.wf
  have hp : HasArity p syms last := ⟨harity.trans hsymsLen.symm, hvariadic.trans hlast.symm, htypes⟩
  have hvs := hos.length_eq
  have haccepts : Accepts syms last os.length := by
    rw [hvs, Accepts, hsymsLen, ← decide_eq_true_iff (p := last ≠ .nil), hlast]
    exact hlen
  have hcheck := computes_checkApply hload hp hs hw.wf haccepts
  obtain ⟨tail, tpairs, htail, hextend⟩ := computes_naviExtendEnvironment (F := evalFns) hsyms hs
    hw.wf haccepts ⟨p.env, env.dynamic⟩
  have htailAt : ValueAt B w tail (.list (vs.drop fs.arity)) := by
    rw [hsymsLen] at htail
    exact valueAt_list htail (List.forall₂_drop _ hos)
  have hframe := FrameAt.bindIn hbind hargs hsyms hos htailAt (.nil w) hw.wf
  have hclosed := hw.closed.of_computes (Q := fun _ _ => True) (fun S hS =>
    spares_naviExtendEnvironment (avoids_mono hS (hargs.has hw.closed))
      (avoids_mono hS ((valueAt_list hs hos).has hw.closed)) fun _ => trivial) hextend
  have hpush := hw.push henv hframe hclosed
  refine .reads (computes_naviProcedure hload) ?_
  refine Attains.congr (p := naviApplyBody_ proc list ⟨p.env, env.dynamic⟩) ?_
    fun r hr => evaluates_callFn.mpr hr
  refine .reads hcheck.code ?_
  refine Attains.congr (p := doApplyBody proc os.length list ⟨p.env, env.dynamic⟩) ?_
    fun r hr => evaluates_callFn.mpr hr
  refine .reads (computes_naviProcedure hload) ?_
  rw [hbody]
  refine .bind hextend.evaluates (World.builds_newScope _ _ _) ?_
  have hresult := hes _ body ⟨w.nextScope, env.dynamic⟩ none hpush hw.next.symm
    (hbodyAt.grows (World.builds_newScope _ _ _))
  have hcall : Attains X B (callFn (.beginLoop body none ⟨w.nextScope, env.dynamic⟩) []
      (p.env :: NaviEnv.scopes ⟨w.nextScope, env.dynamic⟩)) _ v σ₁ :=
    hresult.congr fun r hr => evaluates_callFn.mpr (evaluates_callFn.mp hr)
  refine hcall.andThen fun r w' => ?_
  obtain ⟨g', hg'⟩ := evaluates_passResult (X := X) ⟨p.env, env.dynamic⟩ r w'
  have hunref : Computes (naviEnvUnref ⟨w.nextScope, env.dynamic⟩ : Code Unit) w' () w' :=
    (Computes.perform (o := .scopeUnref w.nextScope) rfl).bind
      (Computes.perform (o := .scopeUnref env.dynamic) rfl)
  exact ⟨g', hunref.evaluates_bind hg'⟩

end Closure

/-! ### Builtins -/

/-- **What is asked of the other builtins**: where they have a meaning, the declaration admits the
arguments, and the C function returns it without changing what is there. -/
structure OtherBuiltins.Sound (B : OtherBuiltins) (X : Externals) : Prop where
  /-- the declaration -/
  admits : ∀ n vs v, B.meaning n vs = some v → (B.spec n).Admits vs
  /-- the C function -/
  computes : ∀ n vs v, B.meaning n vs = some v → ∀ w args env, w.Wf → w.Closed →
    ValueAt B w args (.list vs) → ∃ o w', Computes (X.builtin n vs.length args env) w o w' ∧
      w.Builds nowhere w' ∧ w'.scopes = w.scopes ∧ w'.nextScope = w.nextScope ∧ w'.Wf ∧
        ValueAt B w' o v

/-- The declaration of a primitive admits the arguments at which it has a value. -/
theorem OtherBuiltins.Sound.admits_prim {fn : Builtin} {s : BuiltinSpec} (hB : B.Sound X)
    (hv : B.lang.prim fn vs = some v) (hs : B.primSpec fn = some s) : s.Admits vs := by
  simp only [OtherBuiltins.lang] at hv
  split at hv
  · obtain rfl := Option.some.inj hs
    exact ⟨.inl rfl, by simp [ArgType.Admits]⟩
  · obtain rfl := Option.some.inj hs
    exact ⟨.inl rfl, by simp [ArgType.Admits, Value.type]⟩
  · obtain rfl := Option.some.inj hs
    exact ⟨.inl rfl, by simp [ArgType.Admits, Value.type]⟩
  · obtain rfl := Option.some.inj hs
    exact .of_variadic rfl (Nat.zero_le _) nofun
  · obtain rfl := Option.some.inj hs
    exact hB.admits _ _ _ hv
  · cases hv

/-- The C function of a primitive returns its value. -/
theorem attains_prim {fn : Builtin} (hX : ∀ S, X.Spares S True) (hB : B.Sound X)
    (hv : B.lang.prim fn vs = some v) (hw : w.Lives B σ) (hargs : ValueAt B w args (.list vs)) :
    Attains X B (cProcBody X fn vs.length args env) w v σ := by
  simp only [OtherBuiltins.lang] at hv
  split at hv
  · obtain rfl := Option.some.inj hv
    obtain ⟨car, cdr, hpair, hcar, hcdr⟩ := hargs.cons_inv
    obtain ⟨cadr, cddr, hpair', hcadr, -⟩ := hcdr.cons_inv
    have hmake := World.builds_make hw.wf (t := .naviPair) (by decide)
      (.pair (some car) (some cadr))
    refine .reads (computes_naviCar hpair) (.reads (a := cadr)
      ((computes_naviCdr hpair).bind (computes_naviCar hpair')) ?_)
    refine .of_computes (computes_make .naviPair _) hmake (hw.make (by decide) fun o ho => ?_)
      (.pair World.load_make (hcar.grows hmake) (hcadr.grows hmake))
    obtain rfl | rfl : o = car ∨ o = cadr := by simpa [Data.objs] using ho
    · exact hcar.has hw.closed
    · exact hcadr.has hw.closed
  · obtain rfl := Option.some.inj hv
    obtain ⟨car, cdr, hpair, hcar, -⟩ := hargs.cons_inv
    obtain ⟨caar, cdar, hpair', hcaar, -⟩ := hcar.cons_inv
    exact .reads (computes_naviCar hpair)
      (.of_computes (computes_naviCar hpair') (.refl _ _) hw hcaar)
  · obtain rfl := Option.some.inj hv
    obtain ⟨car, cdr, hpair, hcar, -⟩ := hargs.cons_inv
    obtain ⟨caar, cdar, hpair', -, hcdar⟩ := hcar.cons_inv
    exact .reads (computes_naviCar hpair)
      (.of_computes (computes_naviCdr hpair') (.refl _ _) hw hcdar)
  · obtain rfl := Option.some.inj hv
    exact .of_computes (Computes.ret _) (.refl _ _) hw hargs
  · obtain ⟨o, w', hrun, hbuilds, hscopes, hnext, hwf, ho⟩ :=
      hB.computes _ _ _ hv w args env hw.wf hw.closed hargs
    have hrun' : Computes (leaf env (X.builtin _ _ args env)) w o w' := hrun.code
    have hclosed := hw.closed.of_computes (fun S hS => spares_leaf
      ((hX S).builtin _ _ _ (avoids_mono hS (hargs.has hw.closed)))) hrun'
    exact .of_computes hrun' hbuilds (hw.grows hbuilds hscopes hnext hwf hclosed) ho
  · cases hv

/-! ### `eval_call` -/

/-- A proper list is evaluated by `eval_call`, which evaluates the operator first. -/
theorem Meets.of_operator (hop : Meets X B σ f op u σ₁)
    (h : ∀ w₀ w o proc guard env, (worldSemantics X).Evaluates (callOperator o env) w₀
        (.ok (proc, guard) w) → w.Lives B σ₁ → env.lexical = f → ValueAt B w proc u →
      ValueAt B w o (.list (op :: as)) →
      ∃ r w', (worldSemantics X).Evaluates (evalCallBody o env) w₀
        (.ok r w') ∧ w.Builds nowhere w' ∧ LeadsTo X B w' r v σ₂) :
    Meets X B σ f (.list (op :: as)) v σ₂ := by
  intro w o env hw hf ho
  refine Attains.congr (p := evalBody_ o env) ?_ fun r hr => evaluates_callFn.mpr hr
  refine .bind (computes_evaluating w o env).evaluates (w.builds_marked _ _) ?_
  replace hw := hw.marked w.nextGuard ((o, env) :: w.log)
  replace ho := ho.marked w.nextGuard ((o, env) :: w.log)
  generalize w.marked w.nextGuard ((o, env) :: w.log) = w at hw ho
  obtain ⟨pairs, os, hs, -⟩ := ho.spine
  obtain ⟨car, cdr, hpair, hcar, -⟩ := ho.cons_inv
  refine .reads (computes_naviType hpair) (.reads (computes_naviIsProperList hw.wf hs) ?_)
  refine .ite_pos rfl (Attains.congr (p := evalCallBody o env) ?_ fun r hr =>
    evaluates_callFn.mpr hr)
  obtain ⟨proc, w₁, heval, hbuilds, hw₁, hproc⟩ := hop.naviEval hw hf hcar [o] env.scopes
  obtain ⟨guard, g, hguard⟩ := computes_naviGcGuard proc env w₁
  have hoperator : (worldSemantics X).Evaluates (callOperator o env) w
      (.ok (proc, guard) (w₁.marked g w₁.log)) :=
    (computes_naviCar hpair).evaluates_bind (heval.bind (hguard.evaluates_bind .ret))
  have hmarked := hbuilds.trans (w₁.builds_marked g w₁.log)
  obtain ⟨r, w', hrun, hbuilds', hr⟩ := h w _ o proc guard env hoperator (hw₁.marked _ _) hf
    (hproc.marked _ _) (ho.grows hmarked)
  exact ⟨r, w', hrun, hmarked.trans hbuilds', hr⟩

/-- **A special form** is given its operands as they are. -/
theorem Meets.special {s : Lisp.Special} (hop : Meets X B σ f op (.special s) σ₁)
    (has : (specialSpec s).Admits as) (h : ∀ w args env, w.Lives B σ₁ → env.lexical = f →
      ValueAt B w args (.list as) →
        Attains X B (cProcBody X (specialFn s) as.length args env) w v σ₂) :
    Meets X B σ f (.list (op :: as)) v σ₂ := by
  refine .of_operator hop fun w₀ w o proc guard env hoperator hw hf hproc ho => ?_
  obtain ⟨car, cdr, hpair, -, hcdr⟩ := ho.cons_inv
  obtain ⟨pairs, os, hs, hos⟩ := hcdr.spine
  cases hproc with
  | @special _ p _ hload hp =>
  have hcheck := computes_checkApply_admits hload hp hs hos has hw.wf
  have happly : Attains X B (callFn (.naviApply_ proc cdr env) [] [env.lexical]) w v σ₂ :=
    .naviApply_ hload hp.body hcheck fun g => h _ cdr env (hw.marked g _) hf (hcdr.marked g _)
  have hlast (r : NaviObj) (w' : World) : ∃ g, (worldSemantics X).Evaluates (do
      naviGcUnguard guard
      return r) w' (.ok r (w'.marked g w'.log)) :=
    ⟨w'.nextGuard, (computes_naviGcUnguard guard w').evaluates_bind .ret⟩
  obtain ⟨r, w', hrun, hrest⟩ := happly.andThen hlast
  exact ⟨r, w', (evaluates_callOperator hoperator).mpr ((computes_naviType hload).evaluates_bind
    ((computes_naviCdr hpair).evaluates_bind hrun)), hrest⟩

/-- A form that may have more operands says of none of them what it is. -/
theorem Meets.form {s : Lisp.Special} (hop : Meets X B σ f op (.special s) σ₁)
    (hs : (specialSpec s).variadic = true) (hlen : (specialSpec s).arity ≤ as.length)
    (h : ∀ w args env, w.Lives B σ₁ → env.lexical = f → ValueAt B w args (.list as) →
      Attains X B (cProcBody X (specialFn s) as.length args env) w v σ₂) :
    Meets X B σ f (.list (op :: as)) v σ₂ := by
  refine .special hop (.of_variadic hs hlen ?_) h
  cases s <;> simp_all [specialSpec]

/-- **A procedure** is applied to the values of the operands. -/
theorem Meets.procedure (hop : Meets X B σ f op u σ₁) (hu : u.type = .naviProcedure)
    (has : MeetsArgs X B σ₁ f as vs σ₂) (h : ∀ w proc list pairs os env, w.Lives B σ₂ →
      ValueAt B w proc u → Spine w list pairs os → List.Forall₂ (ValueAt B w) os vs →
        Attains X B (naviApply proc list env [] []) w v σ₃) :
    Meets X B σ f (.list (op :: as)) v σ₃ := by
  refine .of_operator hop fun w₀ w o proc guard env hoperator hw hf hproc ho => ?_
  obtain ⟨car, cdr, hpair, -, hcdr⟩ := ho.cons_inv
  obtain ⟨d, hload⟩ : ∃ d, w.load proc = .ok (.naviProcedure, d) := by
    cases hproc with
    | closure hload => exact ⟨_, hload⟩
    | prim hload => exact ⟨_, hload⟩
    | const c => cases c <;> cases hu
    | _ => cases hu
  obtain ⟨list, pairs, xs, w₁, hlist, hbuilds, hw₁, hs, hxs⟩ := has w proc cdr env hw hf hcdr
  obtain ⟨r, w', hrun, hbuilds', hr⟩ := h w₁ proc list pairs xs env hw₁ (hproc.grows hbuilds) hs hxs
  have hoperands : (worldSemantics X).Evaluates (calleeOperands proc cdr env) w
      (.ok (some (proc, list)) w₁) := (computes_naviType hload).evaluates_bind
    (evaluates_ite_neg (by decide) (hlist.bind .ret))
  exact ⟨r, w', (evaluates_evalCall hoperator hpair hload (.inl rfl) _).mpr (hoperands.bind hrun),
    hbuilds.trans hbuilds', hr⟩

end NaviScheme
