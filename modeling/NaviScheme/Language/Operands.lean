import NaviScheme.Language.Binding
import NaviScheme.Eval.Handover

/-!
# Operands

`procedure_call` puts the values of the operands into pairs while it evaluates, and evaluating an
operand may change everything but these pairs: they are private. What the operands stand for, what
the values that are in the pairs already stand for and the frames are the same after a pair has
been written.
-/

namespace NaviScheme

open Prog

variable {X : Externals} {B : OtherBuiltins} {S : Addr → Prop} {w w' w₁ : World}
  {o x proc args : NaviObj} {e u v : Value} {es vs : List Value} {env : NaviEnv}
  {σ σ₁ σ₂ : FrameStore} {f : ℕ} {a p : Addr} {objs : List NaviObj} {scopes : List ScopeAddr}

/-! ### Writing private pairs -/

theorem World.Builds.mono {T : Addr → Prop} (h : w.Builds S w') (hle : ∀ a, S a → T a) :
    w.Builds T w' := ⟨fun a c ha => h.objs a c fun hS => ha (hle a hS), h.symtab, h.nextScope⟩

theorem World.builds_setObj (ha : S a) (c : NaviType × Data) : w.Builds S (w.setObj a c) := by
  refine ⟨fun b c' hb hobj => ?_, rfl, le_rfl⟩
  have hne : b ≠ a := fun heq => hb (heq ▸ ha)
  rw [World.objs_setObj, if_neg hne, hobj]

/-- New addresses do not count. -/
theorem World.Builds.of_new (h : w.Builds (fun b => S b ∨ b = p) w') (hp : w.objs p = none) :
    w.Builds S w' := by
  refine ⟨fun a c ha hobj => h.objs a c ?_ hobj, h.symtab, h.nextScope⟩
  rintro (hS | rfl)
  · exact ha hS
  · rw [hp] at hobj
    cases hobj

/-- **Writing a private pair** leaves the frames as they are. -/
theorem World.Lives.setObj {d : Data} {q r : Option NaviObj} (hw : w.Lives B σ)
    (hpriv : w.Private S) (ha : S a) (hobj : w.objs a = some (.naviPair, .pair q r))
    (hd : ∀ o ∈ d.objs, w.Has o) : (w.setObj a (.naviPair, d)).Lives B σ :=
  hw.builds hpriv.hides (World.builds_setObj ha _) rfl rfl (hw.wf.setObj_pair hobj)
    (hpriv.setObj (c := (.naviPair, d)) ha hd).closed

/-- The value of one operand in a private pair, and what follows that operand. -/
structure ValueInto (B : OtherBuiltins) (w : World) (S : Addr → Prop) (p : Addr) (v es : Value)
    (σ : FrameStore) (o cdr : NaviObj) (w' : World) : Prop extends OperandInto w S p o cdr w' where
  /-- other objects are as they were -/
  builds : w.Builds S w'
  /-- the frames -/
  lives : w'.Lives B σ
  /-- the value -/
  valueAt : ValueAt B w' o v
  /-- the operands that follow -/
  restAt : ValueAt B w' cdr es

/-- **One operand** is evaluated into a pair that has been made for it. -/
theorem evaluates_operandInto (hX : ∀ S, X.Spares S True) {cons : NaviObj} {es : Value}
    {car : Option NaviObj}
    (he : Meets X B σ f e v σ₁) (hw : w.Lives B σ) (hpriv : w.Private S) (hp : S p)
    (hobj : w.objs p = some (.naviPair, .pair car (some .nil))) (hsees : w.Sees S cons)
    (hcons : ValueAt B w cons (.pair e es)) (hf : env.lexical = f) (objs : List NaviObj)
    (scopes : List ScopeAddr) :
    ∃ o cdr w', ValueInto B w S p v es σ₁ o cdr w' ∧
      ∀ {β : Type} (g : NaviObj → Code β) (r : Res Fault EvalExn World β),
        (worldSemantics X).Evaluates (g cdr) w' r → (worldSemantics X).Evaluates (do
          let val ← naviEval (← naviCar cons) env objs scopes
          naviSetCar (.ptr p) val
          g (← naviCdr cons)) w r := by
  obtain ⟨car', cdr, hpair, hcar, hcdr⟩ := hcons.cons_inv
  obtain ⟨o, w₁, heval, hbuilds, hw₁, ho⟩ := he.naviEval hw hf hcar objs scopes
  have hseesCar : w.Sees S car' := hpriv.load hsees hpair (by simp [Data.objs])
  have hseesCdr : w.Sees S cdr := hpriv.load hsees hpair (by simp [Data.objs])
  obtain ⟨hpriv₁, ho', hsame, hle⟩ := hpriv.naviEval hX hseesCar heval
  have hobj₁ := (hsame p hp).trans hobj
  have hdata : ∀ q ∈ (Data.pair (some o) (some .nil)).objs, w₁.Has q := by
    simpa [Data.objs, World.Has] using ho'.has
  have hwrite : w₁.Builds S (w₁.setObj p (.naviPair, .pair (some o) (some .nil))) :=
    World.builds_setObj hp _
  have hpair₁ := hbuilds.load (avoids_nowhere cons) hpair
  refine ⟨o, cdr, _, ⟨⟨hpriv₁.setObj hp hdata, ?_, fun b hb hne => ?_, ⟨ho'.has, ho'.avoids⟩,
    ⟨(hseesCdr.mono hle).has, hseesCdr.avoids⟩, hle⟩,
    (hbuilds.mono fun _ h => h.elim).trans hwrite, hw₁.setObj hpriv₁ hp hobj₁ hdata,
    ho.builds hpriv₁.hides ho'.avoids hwrite,
    (hcdr.grows hbuilds).builds hpriv₁.hides hseesCdr.avoids hwrite⟩, fun g r hg => ?_⟩
  · rw [World.objs_setObj, if_pos rfl]
  · rw [World.objs_setObj, if_neg hne, hsame b hb]
  · refine (computes_naviCar hpair).evaluates_bind (heval.bind ?_)
    refine (computes_naviSetCar o (World.load_ptr hobj₁)).evaluates_bind ?_
    exact (computes_naviCdr (hwrite.load hsees.avoids hpair₁)).evaluates_bind hg

/-! ### The list of operands -/

/-- The loop of `procedure_call` puts the values of operands behind a private pair. -/
def MeetsOperands (X : Externals) (B : OtherBuiltins) (σ : FrameStore) (f : ℕ) (es vs : List Value)
    (σ' : FrameStore) : Prop :=
  ∀ w S cons a x cdr env, w.Lives B σ → w.Private S → S a → w.Sees S x →
    w.objs a = some (.naviPair, .pair (some x) cdr) → w.Sees S cons → env.lexical = f →
    ValueAt B w cons (.list es) → ∃ pairs xs w',
      (worldSemantics X).Returns (.operandLoop cons (.ptr a) env) w (.ok () w') ∧
        OperandsFrom w S a x w' pairs xs ∧ w.Builds S w' ∧ w'.Lives B σ' ∧
        List.Forall₂ (ValueAt B w') xs vs

theorem MeetsOperands.nil : MeetsOperands X B σ f [] [] σ := by
  intro w S cons a x cdr env hw hpriv ha hx hobj _ _ ho
  obtain rfl := ho.eq_nil
  have hset := computes_naviSetCdr (F := evalFns) .nil (World.load_ptr hobj)
  refine ⟨[], [], _, (Computes.ret _).evaluates_bind hset.evaluates, .nil hpriv ha hx,
    World.builds_setObj ha _, hw.setObj hpriv ha hobj ?_, .nil⟩
  simpa [Data.objs, World.Has] using hx.has

/-- Before an operand is evaluated, a pair is made for it and put behind the last. -/
theorem World.Lives.linked {cdr : Option NaviObj} (hw : w.Lives B σ)
    (hpriv : w.Private S) (ha : S a)
    (hx : w.Sees S x) (hobj : w.objs a = some (.naviPair, .pair (some x) cdr)) :
    (w.linked a x).Lives B σ ∧ w.Builds S (w.linked a x) := by
  have hmake := World.builds_make hw.wf (t := .naviPair) (by decide)
    (.pair (some .void) (some .nil))
  have hdata : ∀ o ∈ (Data.pair (some x) (some (.ptr (.obj w.nextObj)))).objs,
      (w.make .naviPair (.pair (some .void) (some .nil))).2.Has o := by
    intro o ho
    obtain rfl | rfl : o = x ∨ o = .ptr (.obj w.nextObj) := by simpa [Data.objs] using ho
    · exact (hx.make _).has
    · exact fun hnot => hnot ((w.allocated_make_pair _ _).mpr (.inr rfl))
  have hmade := hw.make (t := .naviPair) (by decide) (d := .pair (some .void) (some .nil))
    (by simp [Data.objs, World.Has])
  refine ⟨hmade.setObj (hpriv.make (by simp [Data.objs, World.Has])) (.inl ha)
    (hmake.objs a _ id hobj) hdata, (hmake.mono fun _ h => h.elim).trans (World.builds_setObj ha _)⟩

theorem MeetsOperands.cons (hX : ∀ S, X.Spares S True) (he : Meets X B σ f e v σ₁)
    (hes : MeetsOperands X B σ₁ f es vs σ₂) : MeetsOperands X B σ f (e :: es) (v :: vs) σ₂ := by
  intro w S cons a x cdr env hw hpriv ha hx hobj hsees hf ho
  have hnone := hpriv.closed.objs _ w.not_allocated_nextObj
  have hne : ∀ b, S b → b ≠ .obj w.nextObj := fun b hb heq =>
    w.not_allocated_nextObj (heq ▸ hpriv.allocated b hb)
  obtain ⟨hlinked, hbuilds⟩ := hw.linked hpriv ha hx hobj
  obtain ⟨car, rest, hpair, -⟩ := ho.cons_inv
  have hp : (w.linked a x).objs (.obj w.nextObj) =
      some (.naviPair, .pair (some .void) (some .nil)) := by
    rw [World.objs_linked, if_neg (hne a ha).symm, if_pos rfl]
  -- the operand is evaluated into the new pair, and the loop goes on behind it
  obtain ⟨o, next, w₁, hinto, heval⟩ := evaluates_operandInto hX he hlinked (hpriv.linked ha hx)
    (.inr rfl) hp hsees.linked (ho.builds hpriv.hides hsees.avoids hbuilds) hf
    [cons, .ptr (.obj w.nextObj)] env.scopes
  obtain ⟨pairs, xs, w', hloop, hfrom, hbuilds', hw', hxs⟩ := hes w₁ _ next _ o _ env hinto.lives
    hinto.isPrivate (.inr rfl) hinto.value hinto.pair hinto.rest hf hinto.restAt
  have hle : ∀ b, w.Allocated b → (w.linked a x).Allocated b := fun b hb =>
    (World.allocated_linked b).mpr (.inl hb)
  refine ⟨_, _, w', (computes_naviIsPair hpair).evaluates_bind ?_,
    .cons w.not_allocated_nextObj hne ha ?_ (fun b hb hba => ?_) hinto.value
      (fun b hb => hinto.allocated b (hle b hb)) hfrom, ?_, hw',
    .cons (hinto.valueAt.builds hinto.isPrivate.hides hinto.value.avoids hbuilds') hxs⟩
  · refine evaluates_ite_pos rfl (evaluates_of_run (fun n => run_linked (hne a ha) hobj n) ?_)
    exact heval _ _ (evaluates_callFn.mpr hloop)
  · rw [hinto.same a (.inl ha) (hne a ha), World.objs_linked, if_pos rfl]
  · rw [hinto.same b (.inl hb) (hne b hb), World.objs_linked, if_neg hba, if_neg (hne b hb)]
  · exact ((hbuilds.mono fun _ hb => .inl hb).trans (hinto.builds.trans hbuilds')).of_new hnone

/-- **`procedure_call` makes a list of the values** of the operands. -/
def MeetsArgs (X : Externals) (B : OtherBuiltins) (σ : FrameStore) (f : ℕ) (es vs : List Value)
    (σ' : FrameStore) : Prop :=
  ∀ w proc args env, w.Lives B σ → env.lexical = f → ValueAt B w args (.list es) →
    ∃ list pairs xs w', (worldSemantics X).Evaluates (operandList proc args env) w (.ok list w') ∧
      w.Builds nowhere w' ∧ w'.Lives B σ' ∧ Spine w' list pairs xs ∧
      List.Forall₂ (ValueAt B w') xs vs

theorem MeetsArgs.nil : MeetsArgs X B σ f [] [] σ := by
  intro w proc args env hw _ ho
  obtain rfl := ho.eq_nil
  exact ⟨.nil, [], [], w, (Computes.ret _).evaluates_bind .ret, .refl _ _, hw, .nil, .nil⟩

theorem MeetsArgs.cons (hX : ∀ S, X.Spares S True) (he : Meets X B σ f e v σ₁)
    (hes : MeetsOperands X B σ₁ f es vs σ₂) : MeetsArgs X B σ f (e :: es) (v :: vs) σ₂ := by
  intro w proc args env hw hf ho
  have hnone := hw.closed.objs _ w.not_allocated_nextObj
  have hmake := World.builds_make hw.wf (t := .naviPair) (by decide)
    (.pair (some .void) (some .nil))
  have hmade := hw.make (t := .naviPair) (by decide) (d := .pair (some .void) (some .nil))
    (by simp [Data.objs, World.Has])
  have hguarded : w.Builds nowhere w.guardedPair := hmake.trans (World.builds_marked _ _ _)
  have hlives : w.guardedPair.Lives B σ := hmade.marked (w.nextGuard + 1) w.log
  obtain ⟨car, rest, hpair, -⟩ := ho.cons_inv
  have hp : w.guardedPair.objs (.obj w.nextObj) =
      some (.naviPair, .pair (some .void) (some .nil)) :=
    (World.objs_guardedPair _).trans (if_pos rfl)
  -- nothing refers to the first pair
  obtain ⟨o, next, w₁, hinto, heval⟩ := evaluates_operandInto hX he hlives
    hw.closed.isPrivate.guardedPair
    (.inr rfl) hp (ho.has hw.closed).sees.guardedPair (ho.grows hguarded) hf
    [proc, args, .ptr (.obj w.nextObj)] env.scopes
  obtain ⟨pairs, xs, w', hloop, hfrom, hbuilds', hw', hxs⟩ := hes w₁ _ next _ o _ env hinto.lives
    hinto.isPrivate (.inr rfl) hinto.value hinto.pair hinto.rest hf hinto.restAt
  obtain ⟨last, hlast, hspine⟩ := hfrom.last
  refine ⟨.ptr (.obj w.nextObj), _, o :: xs, w', (computes_naviIsPair hpair).evaluates_bind
    ?_, ?_, hw',
    .cons (isPair_ptr.mpr hlast) hspine,
    .cons (hinto.valueAt.builds hinto.isPrivate.hides hinto.value.avoids hbuilds') hxs⟩
  · refine evaluates_ite_pos rfl ((computes_make _ _).evaluates_bind
      ((computes_guardedPair w env).evaluates_bind
      (heval _ _ ((evaluates_callFn.mpr hloop).bind ?_))))
    exact (computes_naviGcUnguard _ _).evaluates_bind .ret
  · exact ((hguarded.mono fun _ hb => .inl hb).trans (hinto.builds.trans hbuilds')).of_new hnone

end NaviScheme
