import NaviScheme.Language.Forms

/-!
# Closures and bindings

`lambda` and `define` make closures of the formals and the body in the form, in the frame in which
they are evaluated. `define` and `set!` bind names in the frames of the language by binding them
in the scopes that these are, and so do `let` and `let*` in a new scope.
-/

namespace NaviScheme

open Prog

variable {X : Externals} {B : OtherBuiltins} {w w' w₁ : World} {o args sym : NaviObj}
  {e u v fs es : Value} {env : NaviEnv} {σ σ₁ σ₂ : FrameStore} {f g n : ℕ} {x : String}
  {objs : List NaviObj} {scopes : List ScopeAddr}

/-! ### Formals -/

/-- Formals in memory. -/
theorem ValueAt.formals (h : ValueAt B w o fs) (hfs : fs.IsFormals) (hw : w.Wf) :
    ∃ last pairs os, Formals w last o pairs os ∧ os.length = fs.arity ∧
      decide (last ≠ .nil) = fs.variadic := by
  induction fs generalizing o with
  | nil =>
    obtain rfl := h.eq_nil
    exact ⟨.nil, [], [], .nil (.inl rfl), rfl, rfl⟩
  | sym x =>
    have hload := h.sym_inv.load hw
    have hne : o ≠ .nil := by
      rintro rfl
      cases hload
    exact ⟨o, [], [], .nil (.inr ⟨_, hload⟩), rfl, decide_eq_true hne⟩
  | pair car cdr _ ih =>
    cases car with
    | sym x =>
      obtain ⟨p, rest, hpair, hp, hrest⟩ := h.cons_inv
      obtain ⟨last, pairs, os, hformals, harity, hvariadic⟩ := ih hrest hfs
      exact ⟨last, _, _, .cons hpair ⟨_, hp.sym_inv.load hw⟩ hformals,
        congrArg (· + 1) harity, hvariadic⟩
    | _ => exact hfs.elim
  | _ => exact hfs.elim

section Formals

variable {F : FnSig} {last formals body name : NaviObj} {pairs os : List NaviObj}

theorem Formals.computes_cars (h : Formals w last o pairs os) :
    Computes (cars pairs : Prog evalOps F _) w os w := by
  induction h with
  | nil => exact Computes.ret _
  | cons hp _ _ ih => exact (computes_naviCar hp).bind (ih.bind (Computes.ret _))

theorem Formals.isSymbol (h : Formals w last o pairs os) : ∀ x ∈ os, IsSymbol w x := by
  induction h with
  | nil => exact nofun
  | cons _ hs _ ih => exact List.forall_mem_cons.mpr ⟨hs, ih⟩

/-- Formals are a list of symbols, with a dotted tail. -/
theorem Formals.computes_naviIsListOf (h : Formals w last o pairs os) (hw : w.Wf) :
    Computes (naviIsListOf o .naviSymbol true : Prog evalOps F _) w true w := by
  refine (h.computes_walk (h.length_le hw)).bind (h.computes_cars.bind
    ((computes_allOfType h.isSymbol).bind ?_))
  obtain rfl | ⟨d, hd⟩ := h.last
  · exact Computes.ret _
  · have hne : last ≠ .nil := by
      rintro rfl
      cases hd
    rw [if_pos rfl, if_neg hne, if_pos rfl]
    exact (computes_naviType hd).bind (Computes.ret _)

/-- What `lambda_valid` says of formals and a body. -/
theorem computes_lambdaValid (hargs : ValueAt B w args (.pair fs (.pair e es))) (hfs : fs.IsFormals)
    (hw : w.Wf) : Computes (lambdaValid args : Prog evalOps F _) w true w := by
  obtain ⟨car, cdr, hpair, hcar, hcdr⟩ := hargs.cons_inv
  obtain ⟨cadr, cddr, hpair', -, -⟩ := hcdr.cons_inv
  obtain ⟨last, pairs, os, hformals, -⟩ := hcar.formals hfs hw
  refine (computes_naviIsPair hpair).bind ((computes_naviCdr hpair).bind
    ((computes_naviIsPair hpair').bind ((computes_naviCar hpair).bind
      ((hcar.computes_naviType hw).bind ?_))))
  split_ifs
  · exact Computes.ret _
  · exact hformals.computes_naviIsListOf hw

/-- What `navi_make_procedure` makes of formals. -/
theorem computes_naviMakeProcedure (h : Formals w last formals pairs os) (hw : w.Wf)
    (body name : NaviObj) (env : NaviEnv) :
    Computes (naviMakeProcedure formals body name env : Prog evalOps F _) w (.ptr (.obj w.nextObj))
      (w.make .naviProcedure (.proc ⟨decide (last ≠ .nil), pairs.length, name, env.lexical, formals,
        .body body, none⟩)).2 :=
  (h.computes_walk (h.length_le hw)).bind
    ((Computes.perform (o := .scopeRef env.lexical) rfl).bind (computes_make .naviProcedure _))

end Formals

/-! ### Making closures -/

theorem World.builds_make (hw : w.Wf) {t : NaviType} (ht : t ≠ .naviThunk) (d : Data) :
    w.Builds nowhere (w.make t d).2 := by
  refine ⟨fun a c _ hc => (hw.extends_make ht d).objs a c hc, ?_, ?_⟩
  · rw [World.make, if_neg ht]
    rfl
  · rw [World.make, if_neg ht]
    exact le_rfl

/-- Allocating an object leaves the frames as they are. -/
theorem World.Lives.make (hw : w.Lives B σ) {t : NaviType} (ht : t ≠ .naviThunk) {d : Data}
    (hd : ∀ o ∈ d.objs, w.Has o) : (w.make t d).2.Lives B σ := by
  refine hw.grows (World.builds_make hw.wf ht d) ?_ ?_ (hw.wf.make ht d) ?_
  · rw [World.make, if_neg ht]
    rfl
  · rw [World.make, if_neg ht]
    rfl
  · exact hw.closed.of_computes (fun S hS => spares_make (fun o ho => avoids_mono hS (hd o ho))
      fun _ h => h) (computes_make t d)

/-- **A closure** is made of formals and a body. -/
theorem computes_naviMakeProcedure_closure {formals body name : NaviObj} (hw : w.Lives B σ)
    (hfs : fs.IsFormals) (hformals : ValueAt B w formals fs) (hbody : ValueAt B w body es)
    (hname : w.Has name) (hf : env.lexical < w.nextScope) :
    ∃ o w', Computes (naviMakeProcedure formals body name env : Code _) w o w' ∧
      w.Builds nowhere w' ∧ w'.Lives B σ ∧ ValueAt B w' o (.closure fs es env.lexical) := by
  obtain ⟨last, pairs, os, hos, harity, hvariadic⟩ := hformals.formals hfs hw.wf
  have hbuilds := World.builds_make (t := .naviProcedure) hw.wf (by decide) (.proc
    ⟨decide (last ≠ .nil), pairs.length, name, env.lexical, formals, .body body, none⟩)
  refine ⟨_, _, computes_naviMakeProcedure hos hw.wf body name env, hbuilds,
    hw.make (by decide) fun o ho => ?_, ?_⟩
  · obtain rfl | rfl | rfl : o = name ∨ o = formals ∨ o = body := by
      simpa [Data.objs] using ho
    · exact hname
    · exact hformals.has hw.closed
    · exact hbody.has hw.closed
  · exact .closure World.load_make hfs (hformals.grows hbuilds) (hos.length_eq.trans harity)
      hvariadic rfl rfl (hbody.grows hbuilds) (hf.trans_le hbuilds.nextScope)

theorem attains_scmLambda (hw : w.Lives B σ) (hf : env.lexical = f) (hlt : f < w.nextScope)
    (hfs : fs.IsFormals) (hargs : ValueAt B w args (.pair fs (.pair e es))) :
    Attains X B (scmLambda args env) w (.closure fs (.pair e es) f) σ := by
  subst hf
  obtain ⟨formals, body, hpair, hformals, hbody⟩ := hargs.cons_inv
  refine .reads (computes_lambdaValid hargs hfs hw.wf) (.ite_pos rfl ?_)
  refine .reads (computes_naviCar hpair) (.reads (computes_naviCdr hpair) ?_)
  -- the name of the closure is a symbol that has just been made
  let counted : World := { w with counter := Function.update w.counter .lam (w.counter .lam + 1) }
  have hbuilds : w.Builds nowhere counted := ⟨fun _ _ _ h => h, rfl, le_rfl⟩
  have hcounted : counted.Lives B σ := hw.grows hbuilds rfl rfl
    ⟨hw.wf.objs, hw.wf.scopes, hw.wf.thunks, hw.wf.symtab⟩
    ⟨hw.closed.objs, { hw.closed.hides with }⟩
  have hcount : Computes (count .lam : Code _) w (w.counter .lam) counted := Computes.perform rfl
  have hname := computes_make (F := evalFns) (w := counted) .naviSymbol
    (.symbol s!"lam{w.counter .lam}" false)
  have hnamed := hcounted.make (t := .naviSymbol) (by decide)
    (d := .symbol s!"lam{w.counter .lam}" false) (by simp [Data.objs])
  have hbuilds' := hbuilds.trans (World.builds_make (t := .naviSymbol) hcounted.wf (by decide)
    (.symbol s!"lam{w.counter .lam}" false))
  have hhas : (counted.make .naviSymbol (.symbol s!"lam{w.counter .lam}" false)).2.Has
      (counted.make .naviSymbol (.symbol s!"lam{w.counter .lam}" false)).1 :=
    fun hnot => hnot (Nat.lt_succ_self w.nextObj)
  generalize (counted.make .naviSymbol (.symbol s!"lam{w.counter .lam}" false)).2 = named,
    (counted.make .naviSymbol (.symbol s!"lam{w.counter .lam}" false)).1 = name
      at hname hnamed hbuilds' hhas
  obtain ⟨o, w', hmake, hmade, hw', ho⟩ := computes_naviMakeProcedure_closure hnamed hfs
    (hformals.grows hbuilds') (hbody.grows hbuilds') hhas (hlt.trans_le hbuilds'.nextScope)
  exact .of_computes (hcount.bind (hname.bind hmake)) (hbuilds'.trans hmade) hw' ho

/-! ### Binding names -/

/-- **Binding a name in a scope** binds it in the frame that the scope is. -/
theorem World.Lives.set {fr : Lisp.Frame Constant String Builtin} (hw : w.Lives B σ)
    (hf : σ.frames f = some fr) (hsym : IsSym w sym x) (ho : ValueAt B w o v) :
    ∃ sc, w.scopes f = some sc ∧ Option.Rel (ValueAt B w) (lookupIn sc.bindings sym) (fr.vars x) ∧
      w.Builds nowhere (w.setScope f { sc with bindings := setIn sc.bindings sym o }) ∧
      (w.setScope f { sc with bindings := setIn sc.bindings sym o }).Lives B
        (σ.put f (fr.set x v)) := by
  obtain ⟨bs, hbs, hframe, -⟩ := hw.frames f fr hf
  have hname : ValueAt B w sym (.sym x) := .sym hsym
  refine ⟨_, hbs, hframe.lookupIn_eq hsym, w.builds_setScope f _, hw.put hf hbs hsym ho ?_⟩
  refine hw.closed.of_computes (Q := fun _ _ => True) (fun S hS => ?_)
    (computes_naviScopeSet (F := evalFns) hbs sym o)
  exact spares_naviScopeSet (avoids_mono hS (hname.has hw.closed))
    (avoids_mono hS (ho.has hw.closed)) trivial

theorem attains_naviScopeSet {fr : Lisp.Frame Constant String Builtin} (hw : w.Lives B σ)
    (hf : σ.frames env.lexical = some fr) (hsym : IsSym w sym x) (ho : ValueAt B w o v) :
    Attains X B (do
      naviScopeSet env.lexical sym o
      return .void) w (.const .void) (σ.put env.lexical (fr.set x v)) := by
  obtain ⟨sc, hsc, -, hbuilds, hw'⟩ := hw.set hf hsym ho
  exact .of_computes ((computes_naviScopeSet hsc sym o).bind (Computes.ret _)) hbuilds hw'
    (.const .void)

theorem attains_scmDefine {fr : Lisp.Frame Constant String Builtin} (he : Meets X B σ f e v σ₁)
    (hfr : σ₁.frames f = some fr) (hw : w.Lives B σ) (hf : env.lexical = f)
    (hargs : ValueAt B w args (.list [.sym x, e])) :
    Attains X B (scmDefine args env) w (.const .void) (σ₁.put f (fr.set x v)) := by
  obtain ⟨target, rest, hpair, htarget, hrest⟩ := hargs.cons_inv
  obtain ⟨expr, cddr, hpair', hexpr, hcddr⟩ := hrest.cons_inv
  obtain rfl := hcddr.eq_nil
  refine .reads (computes_naviCar hpair) (.reads (computes_naviCdr hpair) ?_)
  refine .reads (htarget.computes_naviType hw.wf) (.reads (computes_naviCdr hpair') ?_)
  refine .ite_pos rfl (.reads (computes_naviCar hpair') ?_)
  refine .naviEval he hw hf hexpr fun o' w' hbuilds hw' ho' => ?_
  subst hf
  exact attains_naviScopeSet hw' hfr (hbuilds.isSym htarget.sym_inv) ho'

theorem attains_scmDefine_defun {fr : Lisp.Frame Constant String Builtin} (hfs : fs.IsFormals)
    (hfr : σ.frames f = some fr) (hw : w.Lives B σ) (hf : env.lexical = f)
    (hargs : ValueAt B w args (.pair (.pair (.sym x) fs) es)) :
    Attains X B (scmDefine args env) w (.const .void) (σ.put f (fr.set x (.closure fs es f))) := by
  subst hf
  obtain ⟨target, rest, hpair, htarget, hrest⟩ := hargs.cons_inv
  obtain ⟨name, formals, hpair', hname, hformals⟩ := htarget.cons_inv
  obtain ⟨last, pairs, os, hos, -⟩ := htarget.formals hfs hw.wf
  refine .reads (computes_naviCar hpair) (.reads (computes_naviCdr hpair) ?_)
  refine .reads (htarget.computes_naviType hw.wf) ?_
  refine .reads (hos.computes_naviIsListOf hw.wf) (.ite_pos rfl ?_)
  refine .reads (computes_naviCar hpair') (.reads (computes_naviCdr hpair') ?_)
  obtain ⟨o, w', hmake, hmade, hw', ho⟩ := computes_naviMakeProcedure_closure hw hfs hformals hrest
    (hname.has hw.closed) (hw.lt_nextScope hfr)
  refine Attains.bind hmake.evaluates hmade ?_
  exact attains_naviScopeSet hw' hfr (hmade.isSym hname.sym_inv) ho

/-- A binding that is there is written. -/
theorem computes_setBinding {F : FnSig} {sc : WorldScope} (h : w.scopes g = some sc)
    (hsome : (lookupIn sc.bindings sym).isSome) (object : NaviObj) :
    Computes (perform (.setBinding g sym object) : Prog evalOps F _) w ()
      (w.setScope g { sc with bindings := setIn sc.bindings sym object }) := by
  refine Computes.perform ?_
  change (w.setBindings g fun bs =>
    if (lookupIn bs sym).isSome then setIn bs sym object else bs).map
    ((), ·) = _
  rw [World.setBindings_eq h, if_pos hsome]
  rfl

/-- `set!` writes the binding that it has found before it evaluates. -/
theorem attains_scmSet {fr : Lisp.Frame Constant String Builtin} {u' : Value}
    (hx : Lisp.Lookup σ x f g u) (he : Meets X B σ f e v σ₁) (hfr : σ₁.frames g = some fr)
    (hu : fr.vars x = some u') (hw : w.Lives B σ) (hf : env.lexical = f)
    (hargs : ValueAt B w args (.list [.sym x, e])) :
    Attains X B (scmSet args env) w (.const .void) (σ₁.put g (fr.set x v)) := by
  obtain ⟨symbol, rest, hpair, hsymbol, hrest⟩ := hargs.cons_inv
  obtain ⟨expr, cddr, hpair', hexpr, -⟩ := hrest.cons_inv
  obtain ⟨val, hbinding, -⟩ := hw.envBinding hx hsymbol.sym_inv (Nat.lt_succ_self _)
  refine .reads (computes_naviCar hpair) (.reads (a := some (g, val)) ?_ ?_)
  · refine Computes.perform ?_
    rw [← hf] at hbinding
    change (w.envBinding symbol (env.lexical + 1) env.lexical).map (·, w) = _
    rw [hbinding]
    rfl
  refine .reads (a := expr) ((computes_naviCdr hpair).bind (computes_naviCar hpair')) ?_
  refine .naviEval he hw hf hexpr fun o' w' hbuilds hw' ho' => ?_
  have hsym := hbuilds.isSym hsymbol.sym_inv
  obtain ⟨sc, hsc, hrel, hset, hw''⟩ := hw'.set hfr hsym ho'
  -- the binding is still there
  have hsome : (lookupIn sc.bindings symbol).isSome := by
    rw [hu] at hrel
    generalize lookupIn sc.bindings symbol = r at hrel
    cases hrel
    rfl
  exact .of_computes ((computes_setBinding hsc hsome o').bind (Computes.ret _)) hset hw''
    (.const .void)

/-! ### Frames of `let` and `let*` -/

section Let

variable {ds : List (String × Value)} {es' : List Value}

/-- The loops of `let` and `let*` bind what the expressions come to. -/
def MeetsInits (X : Externals) (B : OtherBuiltins) (σ : FrameStore) (f g : ℕ)
    (ds : List (String × Value)) (σ' : FrameStore) : Prop :=
  ∀ w o env new, w.Lives B σ → env.lexical = f → new.lexical = g → ValueAt B w o (.inits ds) →
    ∃ w', (worldSemantics X).Evaluates (callFn (.letLoop o env new) [] []) w (.ok () w') ∧
      w.Builds nowhere w' ∧ w'.Lives B σ'

theorem MeetsInits.nil : MeetsInits X B σ f g [] σ := by
  intro w o env new hw _ _ ho
  obtain rfl := ho.eq_nil
  have hloop : Computes (letLoopBody .nil env new) w () w := fun _ => rfl
  exact ⟨w, evaluates_callFn.mpr hloop.evaluates, .refl _ _, hw⟩

theorem MeetsInits.cons {fr : Lisp.Frame Constant String Builtin} (he : Meets X B σ f e v σ₁)
    (hg : σ₁.frames g = some fr) (hds : MeetsInits X B (σ₁.put g (fr.set x v)) f g ds σ₂) :
    MeetsInits X B σ f g ((x, e) :: ds) σ₂ := by
  intro w o env new hw hf hnew ho
  obtain ⟨defn, cdr, hpair, hdefn, hcdr⟩ := ho.cons_inv
  obtain ⟨name, rest, hpair', hname, hrest⟩ := hdefn.cons_inv
  obtain ⟨expr, cddr, hpair'', hexpr, -⟩ := hrest.cons_inv
  obtain ⟨val, w₁, heval, hbuilds, hw₁, hval⟩ := he.naviEval hw hf hexpr [o, defn]
    (env.scopes ++ new.scopes)
  obtain ⟨sc, hsc, -, hset, hw₂⟩ := hw₁.set hg (hbuilds.isSym hname.sym_inv) hval
  obtain ⟨w', hloop, hbuilds', hw'⟩ := hds _ cdr env new hw₂ hf hnew
    (hcdr.grows (hbuilds.trans hset))
  subst hnew
  refine ⟨w', evaluates_callFn.mpr ?_, (hbuilds.trans hset).trans hbuilds', hw'⟩
  refine (computes_naviIsPair hpair).evaluates_bind (evaluates_ite_pos rfl ?_)
  refine (computes_naviCar hpair).evaluates_bind ?_
  refine ((computes_naviCdr hpair').bind (computes_naviCar hpair'')).evaluates_bind (heval.bind ?_)
  refine (computes_naviCar (hbuilds.load (avoids_nowhere defn) hpair')).evaluates_bind ?_
  refine (computes_naviScopeSet hsc name val).evaluates_bind ?_
  exact (computes_naviCdr ((hbuilds.trans hset).load (avoids_nowhere o) hpair)).evaluates_bind hloop

/-- What `let_defs_valid` says of names with expressions. -/
theorem computes_letDefsValid {F : FnSig} (ho : ValueAt B w o (.inits ds)) (hw : w.Wf) :
    Computes (defsValid letDefValid o : Prog evalOps F _) w true w := by
  obtain ⟨pairs, os, hs, hos⟩ := ho.spine
  refine (computes_walk hw hs).bind (hs.computes_cars.bind
    ((computes_allValid fun d hd => ?_).bind (Computes.ret _)))
  obtain ⟨i, hi, rfl⟩ := List.mem_iff_getElem.mp hd
  have hdefn := hos.get hi (hos.length_eq ▸ hi)
  simp only [List.get_eq_getElem, List.getElem_map] at hdefn
  obtain ⟨name, rest, hpair, hname, hrest⟩ := hdefn.cons_inv
  obtain ⟨expr, cddr, hpair', -, hcddr⟩ := hrest.cons_inv
  obtain rfl := hcddr.eq_nil
  refine (computes_naviIsPair hpair).bind ((computes_naviCdr hpair).bind
    ((computes_naviIsPair hpair').bind
      (((computes_naviCdr hpair).bind (computes_naviCdr hpair')).bind ?_)))
  exact (computes_naviCar hpair).bind ((hname.computes_naviType hw).bind (Computes.ret _))

theorem computes_naviEnvNewScope {F : FnSig} (w : World) (env : NaviEnv) :
    Computes (naviEnvNewScope env : Prog evalOps F _) w ⟨w.nextScope, env.dynamic⟩
      (w.newScope env.lexical []) :=
  (Computes.perform (o := .makeScope (some env.lexical)) rfl).bind
    (((Computes.perform (o := .scopeRef w.nextScope) rfl).bind
      (Computes.perform (o := .scopeRef env.dynamic) rfl)).bind (Computes.ret _))

/-- **A form with bindings of its own** evaluates its body in a new frame, when `extend` has bound
the names there. -/
theorem attains_defLet {extend : NaviObj → NaviEnv → Code Unit} {msg : String}
    (hlt : f < w.nextScope)
    (hextend : ∀ w o new, w.Lives B (σ.push ⟨some f, fun _ => none⟩) → new.lexical = σ.next →
      ValueAt B w o (.inits ds) → ∃ w', (worldSemantics X).Evaluates (extend o new) w (.ok () w') ∧
        w.Builds nowhere w' ∧ w'.Lives B σ₁)
    (hes : MeetsBody X B σ₁ σ.next es' v σ₂) (hw : w.Lives B σ) (hf : env.lexical = f)
    (hargs : ValueAt B w args (.list (.inits ds :: es'))) :
    Attains X B (defLet (defsValid letDefValid) msg extend args env) w v σ₂ := by
  subst hf
  obtain ⟨defs, body, hpair, hdefs, hbody⟩ := hargs.cons_inv
  have hnew := computes_naviEnvNewScope (F := evalFns) w env
  have hclosed := hw.closed.of_computes (Q := fun _ _ => True)
    (fun S _ => spares_naviEnvNewScope fun _ => trivial) hnew
  have hpush := hw.push hlt (.nil w) hclosed
  have hscope := w.builds_newScope env.lexical []
  obtain ⟨w₁, hrun, hbuilds, hw₁⟩ := hextend _ defs ⟨w.nextScope, env.dynamic⟩ hpush hw.next.symm
    (hdefs.grows hscope)
  refine .reads (computes_naviCar hpair)
    (.reads (computes_letDefsValid hdefs hw.wf) (.ite_pos rfl ?_))
  refine .bind hnew.evaluates hscope (.bind hrun hbuilds ?_)
  refine .reads (computes_naviCdr ((hscope.trans hbuilds).load (avoids_nowhere args) hpair)) ?_
  have hresult := hes _ body ⟨w.nextScope, env.dynamic⟩ none hw₁ hw.next.symm
    (hbody.grows (hscope.trans hbuilds))
  have hcall : Attains X B (callFn (.beginLoop body none ⟨w.nextScope, env.dynamic⟩) []
      (NaviEnv.scopes ⟨w.nextScope, env.dynamic⟩)) _ v σ₂ :=
    hresult.congr fun r hr => evaluates_callFn.mpr (evaluates_callFn.mp hr)
  refine hcall.andThen fun r w' => ⟨w'.nextGuard, ?_⟩
  have hunref : Computes (naviEnvUnref ⟨w.nextScope, env.dynamic⟩ : Code Unit) w' () w' :=
    (Computes.perform (o := .scopeUnref w.nextScope) rfl).bind
      (Computes.perform (o := .scopeUnref env.dynamic) rfl)
  exact hunref.evaluates_bind .ret

theorem attains_scmLet (hlt : f < w.nextScope)
    (hds : MeetsInits X B (σ.push ⟨some f, fun _ => none⟩) f σ.next ds σ₁)
    (hes : MeetsBody X B σ₁ σ.next es' v σ₂) (hw : w.Lives B σ) (hf : env.lexical = f)
    (hargs : ValueAt B w args (.list (.inits ds :: es'))) :
    Attains X B (scmLet args env) w v σ₂ := by
  refine attains_defLet hlt (fun w o new hw hnew ho => ?_) hes hw hf hargs
  obtain ⟨w', hloop, hrest⟩ := hds w o env new hw hf hnew ho
  exact ⟨w', evaluates_callFn.mpr (evaluates_callFn.mp hloop), hrest⟩

theorem attains_scmSequentialLet (hlt : f < w.nextScope)
    (hds : MeetsInits X B (σ.push ⟨some f, fun _ => none⟩) σ.next σ.next ds σ₁)
    (hes : MeetsBody X B σ₁ σ.next es' v σ₂) (hw : w.Lives B σ) (hf : env.lexical = f)
    (hargs : ValueAt B w args (.list (.inits ds :: es'))) :
    Attains X B (scmSequentialLet args env) w v σ₂ := by
  refine attains_defLet hlt (fun w o new hw hnew ho => ?_) hes hw hf hargs
  obtain ⟨w', hloop, hrest⟩ := hds w o new new hw hnew hnew ho
  exact ⟨w', evaluates_callFn.mpr (evaluates_callFn.mp hloop), hrest⟩

end Let

end NaviScheme
