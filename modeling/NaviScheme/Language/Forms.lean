import NaviScheme.Language.Bounces
import NaviScheme.Import.Run

/-!
# Special forms

What `_eval` does with atoms and names, and the C functions of the special forms with their
operands: each leads to the value that the language says, if the expressions in it do. Forms
in tail position are not evaluated by the C functions; a bounce is returned for them.
-/

namespace NaviScheme

open Prog

variable {X : Externals} {B : OtherBuiltins} {w w' w₁ : World} {o args sym : NaviObj}
  {c d e t u v fs es : Value} {env : NaviEnv} {σ σ₁ σ₂ : FrameStore} {f g n : ℕ} {x : String}
  {objs : List NaviObj} {scopes : List ScopeAddr} {α : Type}

/-! ### Reading -/

theorem ValueAt.cons_inv (h : ValueAt B w o (.pair u v)) :
    ∃ car cdr, IsPair w o car cdr ∧ ValueAt B w car u ∧ ValueAt B w cdr v := by
  cases h with
  | pair ho hcar hcdr => exact ⟨_, _, ho, hcar, hcdr⟩

theorem ValueAt.eq_nil (h : ValueAt B w o .nil) : o = .nil := by
  cases h
  rfl

theorem ValueAt.ne_nil (h : ValueAt B w o (.pair u v)) : o ≠ .nil := by
  rintro rfl
  obtain ⟨car, cdr, hpair, -⟩ := h.cons_inv
  cases hpair

theorem ValueAt.sym_inv (h : ValueAt B w o (.sym x)) : IsSym w o x := by
  cases h with
  | sym ho => exact ho

/-- The world in which `_eval` has been entered. -/
theorem computes_evaluating (w : World) (o : NaviObj) (env : NaviEnv) :
    Computes (perform (.evaluating o env) : Code _) w ()
      (w.marked w.nextGuard ((o, env) :: w.log)) := Computes.perform rfl

namespace Attains

variable {p q : Code NaviObj} {P : Prop} [Decidable P]

theorem ite_pos (hP : P) (h : Attains X B p w v σ) :
    Attains X B (if P then p else q) w v σ := by
  rwa [if_pos hP]

theorem ite_neg (hP : ¬ P) (h : Attains X B q w v σ) :
    Attains X B (if P then p else q) w v σ := by
  rwa [if_neg hP]

/-- An expression is evaluated first. -/
theorem naviEval {k : NaviObj → Code NaviObj} (he : Meets X B σ f e u σ₁) (hw : w.Lives B σ)
    (hf : env.lexical = f) (ho : ValueAt B w o e)
    (h : ∀ o' w', w.Builds nowhere w' → w'.Lives B σ₁ → ValueAt B w' o' u →
      Attains X B (k o') w' v σ₂) :
    Attains X B (NaviScheme.naviEval o env objs scopes >>= k) w v σ₂ := by
  obtain ⟨o', w', heval, hbuilds, hw', ho'⟩ := he.naviEval hw hf ho objs scopes
  exact (h o' w' hbuilds hw' ho').bind heval hbuilds

end Attains

/-! ### Atoms and names -/

/-- Atoms are their own values. -/
theorem meets_atom (he : e.IsAtom) : Meets X B σ f e e σ := by
  intro w o env hw _ ho
  have hself : w.SelfEvaluating env o := by
    cases ho with
    | nil => exact .immediate nofun
    | const c => cases c <;> exact .immediate nofun
    | sym => exact he.elim
    | pair => exact he.elim
    | closure ho => exact .constant ho trivial
    | special ho => exact .constant ho trivial
    | prim ho => exact .constant ho trivial
  exact ⟨o, _, evaluates_callFn.mpr (returns_eval_self hself), w.builds_marked w.nextGuard _,
    .of_value (hw.marked _ _) (ho.marked _ _)⟩

/-- A name has the value that it is bound to. -/
theorem meets_sym (hx : Lisp.Lookup σ x f g v) (hv : v ≠ .const .void) :
    Meets X B σ f (.sym x) v σ := by
  intro w o env hw hf ho
  have hw₁ := hw.marked w.nextGuard ((o, env) :: w.log)
  have ho₁ := ho.marked w.nextGuard ((o, env) :: w.log)
  obtain ⟨val, hbinding, hval⟩ := hw₁.envBinding hx ho₁.sym_inv (Nat.lt_succ_self _)
  rw [← hf] at hbinding
  refine Attains.congr (p := evalBody_ o env) ?_ fun r hr => evaluates_callFn.mpr hr
  refine Attains.bind (computes_evaluating w o env).evaluates (w.builds_marked _ _) ?_
  refine Attains.reads (ho₁.computes_naviType hw₁.wf) ?_
  refine Attains.reads (computes_naviEnvLookup hbinding) ?_
  refine Attains.reads (hval.computes_naviType hw₁.wf) ?_
  exact .ite_neg (fun hvoid => hv (Value.type_eq_naviVoid hvoid))
    (.of_computes (Computes.ret _) (.refl _ _) hw₁ hval)

/-! ### Bodies, conjunctions and disjunctions -/

/-- The loop of `begin` leads to the value of a body. -/
def MeetsBody (X : Externals) (B : OtherBuiltins) (σ : FrameStore) (f : ℕ) (es : List Value)
    (v : Value)
    (σ' : FrameStore) : Prop :=
  ∀ w o env result, w.Lives B σ → env.lexical = f → ValueAt B w o (.list es) →
    Attains X B (callFn (.beginLoop o result env) [] []) w v σ'

/-- The loop of `and` leads to the value of a conjunction. -/
def MeetsConj (X : Externals) (B : OtherBuiltins) (σ : FrameStore) (f : ℕ) (es : List Value)
    (v : Value)
    (σ' : FrameStore) : Prop :=
  ∀ w o env, w.Lives B σ → env.lexical = f → ValueAt B w o (.list es) →
    Attains X B (callFn (.andLoop o env) [] []) w v σ'

/-- The loop of `or` leads to the value of a disjunction. -/
def MeetsDisj (X : Externals) (B : OtherBuiltins) (σ : FrameStore) (f : ℕ) (es : List Value)
    (v : Value)
    (σ' : FrameStore) : Prop :=
  ∀ w o env, w.Lives B σ → env.lexical = f → ValueAt B w o (.list es) →
    Attains X B (callFn (.orLoop o env) [] []) w v σ'

section Loops

variable {e' : Value} {es : List Value} {k : NaviObj → Code NaviObj} {done : Code NaviObj}

/-- The last expression of a loop is left to `navi_eval`, -/
theorem Meets.loop_last (he : Meets X B σ f e v σ₁) (hw : w.Lives B σ) (hf : env.lexical = f)
    (ho : ValueAt B w o (.list [e])) :
    Attains X B (do
      if ← naviIsPair o then
        if ← naviIsLastPair o then evalTail (← naviCar o) env
        else
          let val ← NaviScheme.naviEval (← naviCar o) env [o] env.scopes
          k val
      else done) w v σ₁ := by
  obtain ⟨car, cdr, hpair, hcar, hcdr⟩ := ho.cons_inv
  obtain rfl := hcdr.eq_nil
  refine .reads (computes_naviIsPair hpair) (.reads (computes_naviIsLastPair hpair) ?_)
  exact .reads (computes_naviCar hpair) (he.bounce hw hf hcar)

/-- and those before it are evaluated. -/
theorem Meets.loop_cons (he : Meets X B σ f e u σ₁) (hw : w.Lives B σ) (hf : env.lexical = f)
    (ho : ValueAt B w o (.list (e :: e' :: es)))
    (h : ∀ w o' car cdr, w.Lives B σ₁ → ValueAt B w o' u → IsPair w o car cdr →
      ValueAt B w cdr (.list (e' :: es)) → Attains X B (k o') w v σ₂) :
    Attains X B (do
      if ← naviIsPair o then
        if ← naviIsLastPair o then evalTail (← naviCar o) env
        else
          let val ← NaviScheme.naviEval (← naviCar o) env [o] env.scopes
          k val
      else done) w v σ₂ := by
  obtain ⟨car, cdr, hpair, hcar, hcdr⟩ := ho.cons_inv
  refine .reads (computes_naviIsPair hpair) (.reads (computes_naviIsLastPair hpair) ?_)
  refine .ite_neg (by simpa using hcdr.ne_nil) (.reads (computes_naviCar hpair) ?_)
  refine .naviEval he hw hf hcar fun o' w' hbuilds hw' ho' => ?_
  exact h w' o' car cdr hw' ho' (hbuilds.load (avoids_nowhere o) hpair) (hcdr.grows hbuilds)

theorem MeetsBody.last (he : Meets X B σ f e v σ₁) : MeetsBody X B σ f [e] v σ₁ := by
  intro w o env result hw hf ho
  refine Attains.congr (p := beginLoopBody o result env) ?_ fun r hr => evaluates_callFn.mpr hr
  exact he.loop_last hw hf ho

theorem MeetsBody.cons (he : Meets X B σ f e u σ₁) (hes : MeetsBody X B σ₁ f (e' :: es) v σ₂) :
    MeetsBody X B σ f (e :: e' :: es) v σ₂ := by
  intro w o env result hw hf ho
  refine Attains.congr (p := beginLoopBody o result env) ?_ fun r hr => evaluates_callFn.mpr hr
  refine he.loop_cons hw hf ho fun w o' car cdr hw _ hpair hcdr => ?_
  exact .reads (computes_naviCdr hpair) (hes w cdr env (some o') hw hf hcdr)

theorem MeetsConj.nil : MeetsConj X B σ f [] (.const (.bool true)) σ := by
  intro w o env hw hf ho
  obtain rfl := ho.eq_nil
  refine Attains.congr (p := andLoopBody .nil env) ?_ fun r hr => evaluates_callFn.mpr hr
  exact .of_computes (fun _ => rfl) (.refl _ _) hw (.const (.bool true))

theorem MeetsConj.last (he : Meets X B σ f e v σ₁) : MeetsConj X B σ f [e] v σ₁ := by
  intro w o env hw hf ho
  refine Attains.congr (p := andLoopBody o env) ?_ fun r hr => evaluates_callFn.mpr hr
  exact he.loop_last hw hf ho

theorem MeetsConj.stop (he : Meets X B σ f e v σ₁) (hv : ¬ B.lang.Holds v) :
    MeetsConj X B σ f (e :: e' :: es) v σ₁ := by
  intro w o env hw hf ho
  refine Attains.congr (p := andLoopBody o env) ?_ fun r hr => evaluates_callFn.mpr hr
  refine he.loop_cons hw hf ho fun w o' car cdr hw hv' _ _ => ?_
  have hfalse := fun h => hv (hv'.isTrue_iff.mp h)
  refine .ite_neg hfalse (.of_computes (Computes.ret _) (.refl _ _) hw ?_)
  -- nothing else counts as false
  obtain rfl : o' = .bool false := by
    cases o' with
    | bool b => cases b <;> first | rfl | exact absurd rfl hfalse
    | _ => exact absurd rfl hfalse
  exact hv'

theorem MeetsConj.cons (he : Meets X B σ f e u σ₁) (hu : B.lang.Holds u)
    (hes : MeetsConj X B σ₁ f (e' :: es) v σ₂) : MeetsConj X B σ f (e :: e' :: es) v σ₂ := by
  intro w o env hw hf ho
  refine Attains.congr (p := andLoopBody o env) ?_ fun r hr => evaluates_callFn.mpr hr
  refine he.loop_cons hw hf ho fun w o' car cdr hw hu' hpair hcdr => ?_
  exact .ite_pos (hu'.isTrue_iff.mpr hu)
    (.reads (computes_naviCdr hpair) (hes w cdr env hw hf hcdr))

theorem MeetsDisj.nil : MeetsDisj X B σ f [] (.const (.bool false)) σ := by
  intro w o env hw hf ho
  obtain rfl := ho.eq_nil
  refine Attains.congr (p := orLoopBody .nil env) ?_ fun r hr => evaluates_callFn.mpr hr
  exact .of_computes (fun _ => rfl) (.refl _ _) hw (.const (.bool false))

theorem MeetsDisj.last (he : Meets X B σ f e v σ₁) : MeetsDisj X B σ f [e] v σ₁ := by
  intro w o env hw hf ho
  refine Attains.congr (p := orLoopBody o env) ?_ fun r hr => evaluates_callFn.mpr hr
  exact he.loop_last hw hf ho

theorem MeetsDisj.stop (he : Meets X B σ f e u σ₁) (hu : B.lang.Holds u) :
    MeetsDisj X B σ f (e :: e' :: es) (.const (.bool true)) σ₁ := by
  intro w o env hw hf ho
  refine Attains.congr (p := orLoopBody o env) ?_ fun r hr => evaluates_callFn.mpr hr
  refine he.loop_cons hw hf ho fun w o' car cdr hw hu' _ _ => ?_
  refine .ite_pos (hu'.isTrue_iff.mpr hu) ?_
  exact .of_computes (Computes.ret _) (.refl _ _) hw (.const (.bool true))

theorem MeetsDisj.cons (he : Meets X B σ f e u σ₁) (hu : ¬ B.lang.Holds u)
    (hes : MeetsDisj X B σ₁ f (e' :: es) v σ₂) : MeetsDisj X B σ f (e :: e' :: es) v σ₂ := by
  intro w o env hw hf ho
  refine Attains.congr (p := orLoopBody o env) ?_ fun r hr => evaluates_callFn.mpr hr
  refine he.loop_cons hw hf ho fun w o' car cdr hw hu' hpair hcdr => ?_
  refine .ite_neg (fun h => hu (hu'.isTrue_iff.mp h)) ?_
  exact .reads (computes_naviCdr hpair) (hes w cdr env hw hf hcdr)

end Loops

/-! ### The C functions -/

theorem attains_scmQuote (hw : w.Lives B σ) (hargs : ValueAt B w args (.pair d u)) :
    Attains X B (cProcBody X .scmQuote n args env) w d σ := by
  obtain ⟨car, cdr, hpair, hcar, -⟩ := hargs.cons_inv
  exact .of_computes (computes_naviCar hpair) (.refl _ _) hw hcar

section If

variable {rest : Value}

/-- The condition of `if` is evaluated first. -/
theorem attains_scmIf (hn : n ≤ 3) (hc : Meets X B σ f c u σ₁) (hw : w.Lives B σ)
    (hf : env.lexical = f) (hargs : ValueAt B w args (.pair c rest))
    (h : ∀ w o' car cdr, w.Lives B σ₁ → ValueAt B w o' u → IsPair w args car cdr →
      ValueAt B w cdr rest → Attains X B (do
        if naviIsTrue o' then evalTail (← naviCadr args) env
        else if n = 3 then evalTail (← naviCaddr args) env
        else return .void) w v σ₂) :
    Attains X B (scmIf n args env) w v σ₂ := by
  obtain ⟨car, cdr, hpair, hcar, hcdr⟩ := hargs.cons_inv
  refine .ite_neg (not_lt.mpr hn) (.reads (computes_naviCar hpair) ?_)
  refine .naviEval hc hw hf hcar fun o' w' hbuilds hw' ho' => ?_
  exact h w' o' car cdr hw' ho' (hbuilds.load (avoids_nowhere args) hpair) (hcdr.grows hbuilds)

theorem attains_scmIf_true (hn : n ≤ 3) (hc : Meets X B σ f c u σ₁) (hu : B.lang.Holds u)
    (ht : Meets X B σ₁ f t v σ₂) (hw : w.Lives B σ) (hf : env.lexical = f)
    (hargs : ValueAt B w args (.pair c (.pair t rest))) :
    Attains X B (scmIf n args env) w v σ₂ := by
  refine attains_scmIf hn hc hw hf hargs fun w o' car cdr hw ho' hpair hcdr => ?_
  obtain ⟨cadr, cddr, hpair', hcadr, -⟩ := hcdr.cons_inv
  refine .ite_pos (ho'.isTrue_iff.mpr hu) (.reads (a := cadr) ?_ (ht.bounce hw hf hcadr))
  exact (computes_naviCdr hpair).bind (computes_naviCar hpair')

theorem attains_scmIf_false (hc : Meets X B σ f c u σ₁) (hu : ¬ B.lang.Holds u)
    (he : Meets X B σ₁ f e v σ₂) (hw : w.Lives B σ) (hf : env.lexical = f)
    (hargs : ValueAt B w args (.pair c (.pair t (.pair e rest)))) :
    Attains X B (scmIf 3 args env) w v σ₂ := by
  refine attains_scmIf le_rfl hc hw hf hargs fun w o' car cdr hw ho' hpair hcdr => ?_
  obtain ⟨cadr, cddr, hpair', -, hcddr⟩ := hcdr.cons_inv
  obtain ⟨caddr, cdddr, hpair'', hcaddr, -⟩ := hcddr.cons_inv
  refine .ite_neg (fun h => hu (ho'.isTrue_iff.mp h)) (.ite_pos rfl ?_)
  refine .reads (a := caddr) ?_ (he.bounce hw hf hcaddr)
  exact ((computes_naviCdr hpair).bind (computes_naviCdr hpair')).bind (computes_naviCar hpair'')

theorem attains_scmIf_else (hn : n < 3) (hc : Meets X B σ f c u σ₁) (hu : ¬ B.lang.Holds u)
    (hw : w.Lives B σ) (hf : env.lexical = f) (hargs : ValueAt B w args (.pair c rest)) :
    Attains X B (scmIf n args env) w (.const .void) σ₁ := by
  refine attains_scmIf hn.le hc hw hf hargs fun w o' car cdr hw ho' _ _ => ?_
  refine .ite_neg (fun h => hu (ho'.isTrue_iff.mp h)) (.ite_neg hn.ne ?_)
  exact .of_computes (Computes.ret _) (.refl _ _) hw (.const .void)

end If

end NaviScheme
