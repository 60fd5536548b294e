import NaviScheme.Import.Scope

/-!
# The modifiers of an import set

What the loops of `import_only`, `import_except`, `import_prefix` and `import_rename` make of
a scope that represents a map. The first two filter; the third sets the bindings of another
scope; the last is `Renaming.seq`, and does not return when that has no result.
-/

namespace NaviScheme

open Prog

variable {F : FnSig} {w w' w₀ : World} {s : ScopeAddr} {sc : WorldScope} {o : NaviObj}
  {m : String → Option NaviObj}

/-! ### `only` and `except` -/

theorem computes_removeBindings (hsc : w.scopes s = some sc) (remove : NaviObj → Bool)
    (l : List NaviBinding) : Computes (removeBindings s remove l : Prog evalOps F Unit) w ()
      (w.setScope s { sc with bindings := sc.bindings.filter fun b =>
        !(l.any fun b' => remove b'.symbol && b'.symbol = b.symbol) }) := by
  induction l generalizing w sc with
  | nil =>
    have hself : w.setScope s { sc with bindings := sc.bindings.filter fun b =>
        !(([] : List NaviBinding).any fun b' => remove b'.symbol && b'.symbol = b.symbol) } = w := by
      simpa using World.setScope_self hsc
    rw [hself]
    exact Computes.ret _
  | cons b l ih =>
    by_cases hb : remove b.symbol
    · have hunset := computes_naviScopeUnset (F := F) hsc b.symbol
      have hrest := ih (w := w.setScope s { sc with
        bindings := sc.bindings.filter fun b' => b'.symbol ≠ b.symbol }) World.scopes_setScope
      simp only [World.setScope_setScope, List.filter_filter] at hrest
      rw [removeBindings, if_pos hb]
      refine hunset.bind ?_
      convert hrest using 5
      rename_i c
      simp [hb, Bool.and_comm, eq_comm]
    · rw [removeBindings, if_neg hb]
      simpa [hb] using ih hsc

/-- Removing all bindings whose symbols satisfy a test. -/
theorem computes_removeAll (hsc : w.scopes s = some sc) (remove : NaviObj → Bool) :
    Computes (removeBindings s remove sc.bindings : Prog evalOps F Unit) w ()
      (w.setScope s { sc with bindings := sc.bindings.filter fun b => !remove b.symbol }) := by
  have h := computes_removeBindings (F := F) hsc remove sc.bindings
  have heq : (sc.bindings.filter fun b =>
      !(sc.bindings.any fun b' => remove b'.symbol && b'.symbol = b.symbol)) =
      sc.bindings.filter fun b => !remove b.symbol := by
    refine List.filter_congr fun b hb => congrArg Bool.not ?_
    rw [Bool.eq_iff_iff, List.any_eq_true]
    constructor
    · rintro ⟨c, -, hc⟩
      simp only [Bool.and_eq_true, decide_eq_true_eq] at hc
      exact hc.2 ▸ hc.1
    · exact fun hr => ⟨b, hb, by simp [hr]⟩
  rwa [heq] at h

/-- A list of symbols has a symbol if the list of their names has its name. -/
theorem mem_iff_of_isSym {objs : List NaviObj} {ids : List String} (hwf : w.Wf)
    (h : List.Forall₂ (IsSym w) objs ids) {n : String} (hn : IsSym w o n) : o ∈ objs ↔ n ∈ ids := by
  induction h with
  | nil => simp
  | cons hx ht ih =>
    rw [List.mem_cons, List.mem_cons, ih]
    refine or_congr_left ⟨fun heq => ?_, fun heq => ?_⟩
    · exact hn.name_eq hwf (heq ▸ hx)
    · exact hn.unique (heq ▸ hx)

/-! ### `rename` -/

theorem spine_setScope {pairs xs : List NaviObj} (h : Spine w o pairs xs) :
    Spine (w.setScope s sc) o pairs xs := by
  induction h with
  | nil => exact .nil
  | cons hp ht ih => exact .cons (World.load_setScope.trans hp) ih

theorem isRename_setScope {p : String × String} (h : IsRename w o p) :
    IsRename (w.setScope s sc) o p := by
  obtain ⟨pairs, x, y, hs, hx, hy⟩ := h
  exact ⟨pairs, x, y, spine_setScope hs, hx, hy⟩

/-- **The loop of `import_rename` renames one by one**, and does not return when a name is
not bound. -/
theorem renameBindings_run {env : NaviEnv} {cells objs : List NaviObj}
    {ps : List (String × String)} (hwf : w.Wf) (hs : Spine w o cells objs)
    (hps : List.Forall₂ (IsRename w) objs ps) (hsc : w.scopes env.lexical = some sc)
    (hrep : Represents w sc.bindings m) :
    match Renaming.seq ps m with
    | some m' => ∃ bs, Computes (renameBindings env cells : Leaf Unit) w ()
        (w.setScope env.lexical { sc with bindings := bs }) ∧ Represents w bs m'
    | none => ∀ w', runLeaf World.step (renameBindings env cells) w ≠ .ok () w' := by
  induction ps generalizing w sc o cells objs m with
  | nil =>
    cases hps
    cases hs
    refine ⟨sc.bindings, ?_, hrep⟩
    rw [World.setScope_self hsc]
    exact Computes.ret _
  | cons p ps ih =>
    obtain ⟨x, y⟩ := p
    obtain ⟨r, objs, ⟨pairs, a, b, hr, ha, hb⟩, hps', rfl⟩ := List.forall₂_cons_right_iff.1 hps
    cases hs with
    | cons hcell hs =>
    rename_i cdr cells
    cases hr with
    | cons hr₁ hr =>
    cases hr with
    | cons hr₂ hr =>
    have hcaar : Computes (naviCaar o : Leaf NaviObj) w a w :=
      (computes_naviCar hcell).bind (computes_naviCar hr₁)
    have hcadar : Computes (naviCadar o : Leaf NaviObj) w b w :=
      ((computes_naviCar hcell).bind (computes_naviCdr hr₁)).bind (computes_naviCar hr₂)
    have hlookup := computes_naviScopeLookup (F := noCalls NaviObj) hsc a
    rw [hrep.lookup_sym ha] at hlookup
    cases hv : m x with
    | none =>
      simp only [Renaming.seq, hv] at hlookup ⊢
      intro w' hrun
      rw [renameBindings, hcaar.runLeaf_bind, hcadar.runLeaf_bind, hlookup.runLeaf_bind] at hrun
      exact NeverReturns.bind (fun _ => NeverReturns.bind fun _ => neverReturns_naviError _ _)
        w () w' hrun
    | some v =>
      rw [hv] at hlookup
      have hset := computes_naviScopeSet (F := noCalls NaviObj) hsc b v
      have hunset := computes_naviScopeUnset (F := noCalls NaviObj)
        (w := w.setScope env.lexical { sc with bindings := setIn sc.bindings b v })
        World.scopes_setScope a
      rw [World.setScope_setScope] at hunset
      -- the map after the two changes
      have hrep' : Represents w ((setIn sc.bindings b v).filter fun c => c.symbol ≠ a)
          (Renaming.move x y v m) := by
        have hfilter := (hrep.setIn hwf hb v).filter
          (fun c => decide (c ≠ a)) (fun n => n ≠ x) fun c n hc => by
            rw [decide_eq_true_eq]
            refine not_congr ⟨fun heq => ?_, fun heq => ?_⟩
            · exact (heq ▸ hc).name_eq hwf ha
            · exact hc.unique (heq ▸ ha)
        convert hfilter using 1
        funext n
        by_cases hn : n = x
        · subst hn
          simp [Renaming.move_left]
        · simp [Renaming.move, hn]
      have hrest := ih (w := w.setScope env.lexical
        { sc with bindings := (setIn sc.bindings b v).filter fun c => c.symbol ≠ a })
        (hwf.setScope hsc) (spine_setScope hs) (hps'.imp fun _ _ h => isRename_setScope h)
        World.scopes_setScope (represents_setScope.2 hrep')
      simp only [Renaming.seq, hv]
      cases hseq : Renaming.seq ps (Renaming.move x y v m) with
      | some m' =>
        rw [hseq] at hrest
        obtain ⟨bs, hrun, hbs⟩ := hrest
        refine ⟨bs, ?_, represents_setScope.1 hbs⟩
        rw [World.setScope_setScope] at hrun
        rw [renameBindings]
        exact hcaar.bind (hcadar.bind (hlookup.bind (hset.bind (hunset.bind hrun))))
      | none =>
        rw [hseq] at hrest
        intro w' hrun
        rw [renameBindings, hcaar.runLeaf_bind, hcadar.runLeaf_bind, hlookup.runLeaf_bind] at hrun
        exact hrest w' ((hset.runLeaf_bind.trans hunset.runLeaf_bind).symm.trans hrun)

/-! ### `prefix` -/

/-- A world with a new symbol. -/
def World.addSymbol (w : World) (str : String) : World :=
  { w with
    objs := Function.update w.objs (.obj w.nextObj) (some (.naviSymbol, .symbol str true))
    symtab := (str, .obj w.nextObj) :: w.symtab
    nextObj := w.nextObj + 1 }

section AddSymbol

variable {str : String}

theorem World.makeSymbol_eq (ha : w.symtab.lookup str = none) :
    w.makeSymbol str = (.ptr (.obj w.nextObj), w.addSymbol str) := by
  rw [World.makeSymbol, ha]
  rfl

theorem World.objs_addSymbol_of_ne {a : Addr} (h : a ≠ .obj w.nextObj) :
    (w.addSymbol str).objs a = w.objs a := Function.update_of_ne h _ _

theorem World.objs_addSymbol_self :
    (w.addSymbol str).objs (.obj w.nextObj) = some (.naviSymbol, .symbol str true) :=
  Function.update_self ..

theorem World.lookup_addSymbol_of_ne {str' : String} (h : str' ≠ str) :
    (w.addSymbol str).symtab.lookup str' = w.symtab.lookup str' := by
  rw [World.addSymbol, List.lookup_cons, beq_false_of_ne h]

theorem World.lookup_addSymbol_self :
    (w.addSymbol str).symtab.lookup str = some (.obj w.nextObj) := by
  rw [World.addSymbol, List.lookup_cons, beq_self_eq_true]

/-- An object that is there is not where the next one will be. -/
theorem World.Wf.ne_nextObj (hwf : w.Wf) {a : Addr} {c : NaviType × Data}
    (h : w.objs a = some c) : a ≠ .obj w.nextObj := by
  rintro rfl
  rw [hwf.objs _ le_rfl] at h
  cases h

theorem World.Wf.extends_addSymbol (hwf : w.Wf) (ha : w.symtab.lookup str = none) :
    w.Extends (w.addSymbol str) := by
  refine ⟨fun a c hc => ?_, fun _ _ h => h, fun str' a h => ?_⟩
  · rw [World.objs_addSymbol_of_ne (hwf.ne_nextObj hc), hc]
  · have hne : str' ≠ str := by
      rintro rfl
      rw [ha] at h
      cases h
    rw [World.lookup_addSymbol_of_ne hne, h]

theorem World.Wf.addSymbol (hwf : w.Wf) : (w.addSymbol str).Wf := by
  refine ⟨fun n hn => ?_, hwf.scopes, fun n c hc => ?_, fun str' a h => ?_⟩
  · have hlt : w.nextObj < n := hn
    rw [World.objs_addSymbol_of_ne fun heq => hlt.ne' (Addr.obj.inj heq)]
    exact hwf.objs n hlt.le
  · rw [World.objs_addSymbol_of_ne (by simp)] at hc
    exact hwf.thunks n c hc
  · by_cases hstr : str' = str
    · subst hstr
      rw [World.lookup_addSymbol_self] at h
      cases h
      exact World.objs_addSymbol_self
    · rw [World.lookup_addSymbol_of_ne hstr] at h
      have hobj := hwf.symtab str' a h
      rw [World.objs_addSymbol_of_ne (hwf.ne_nextObj hobj), hobj]

end AddSymbol

/-- A symbol is made, or found. -/
theorem exists_computes_naviMakeSymbol (hwf : w.Wf) (str : String) : ∃ o w₁,
    Computes (naviMakeSymbol str : Prog evalOps F _) w o w₁ ∧ IsSym w₁ o str ∧ w₁.Wf ∧
      w.Extends w₁ ∧ w₁.scopes = w.scopes := by
  cases ha : w.symtab.lookup str with
  | some a =>
    have hsym : IsSym w (.ptr a) str := ⟨a, rfl, ha⟩
    exact ⟨.ptr a, w, computes_naviMakeSymbol hsym, hsym, hwf, .refl w, rfl⟩
  | none =>
    refine ⟨_, w.addSymbol str, Computes.perform ?_, ⟨_, rfl, World.lookup_addSymbol_self⟩,
      hwf.addSymbol, hwf.extends_addSymbol ha, rfl⟩
    exact congrArg Except.ok (World.makeSymbol_eq ha)

/-- **The loop of `import_prefix`** adds what it is given under the longer names. -/
theorem prefixBindings_run (str : String) {l : List NaviBinding} {m₀ : String → Option NaviObj}
    (hwf : w.Wf) (hsc : w.scopes s = some sc) (hrep : Represents w sc.bindings m)
    (hl : Represents w l m₀) (hnew : w₀.scopes s = none) (hext : w₀.Extends w) :
    ∃ w' sc', Computes (prefixBindings s str l : Prog evalOps F Unit) w () w' ∧ w'.Wf ∧
      w₀.Extends w' ∧ w'.scopes s = some sc' ∧
      Represents w' sc'.bindings fun n => ((stripPrefix str n).bind m₀).or (m n) := by
  induction l generalizing w sc m m₀ with
  | nil =>
    refine ⟨w, sc, Computes.ret _, hwf, hext, hsc, ?_⟩
    convert hrep using 1
    funext n
    have hm₀ : m₀ = fun _ => none := by
      funext x
      rw [hl.lookup]
      cases w.symtab.lookup x <;> rfl
    rw [hm₀]
    cases stripPrefix str n <;> rfl
  | cons b l ih =>
    obtain ⟨x, hx⟩ := hl.named b List.mem_cons_self
    obtain ⟨hfresh, hnodup⟩ := List.nodup_cons.1 hl.nodup
    obtain ⟨o, w₁, hmake, ho, hwf₁, hext₁, hscopes⟩ :=
      exists_computes_naviMakeSymbol (F := F) hwf (str ++ x)
    have hadd : Computes (addPrefix str b.symbol : Prog evalOps F _) w o w₁ :=
      (computes_symbolData hwf hx).bind hmake
    have hsc₁ : w₁.scopes s = some sc := by rw [hscopes, hsc]
    have hset := computes_naviScopeSet (F := F) hsc₁ o b.object
    have hrep₁ : Represents w₁
        ({ sc with bindings := setIn sc.bindings o b.object } : WorldScope).bindings _ :=
      (hext₁.represents hwf₁ hrep).setIn hwf₁ ho b.object
    -- the other bindings, as a map
    have hl₁ : Represents w₁ l (Function.update m₀ x none) := by
      have hall := hext₁.represents hwf₁ hl
      refine ⟨fun n => ?_, fun c hc => hall.named c (List.mem_cons_of_mem _ hc), hnodup⟩
      by_cases hn : n = x
      · subst hn
        obtain ⟨a, ha, hlook⟩ := hext₁.isSym hx
        rw [Function.update_self, hlook, Option.bind_some, ← ha]
        exact (lookupIn_eq_none.2 hfresh).symm
      · rw [Function.update_of_ne hn, hall.lookup]
        cases ha : w₁.symtab.lookup n with
        | none => rfl
        | some a =>
          rw [Option.bind_some, Option.bind_some, lookupIn_cons, if_neg fun heq => hn ?_]
          exact IsSym.name_eq hwf₁ ⟨a, rfl, ha⟩ (heq ▸ hext₁.isSym hx)
    have hval : m₀ x = some b.object := by
      rw [← hl.lookup_sym hx, lookupIn_cons, if_pos rfl]
    obtain ⟨w', sc', hrun, hwf', hext', hsc', hrep'⟩ := ih
      (hwf₁.setScope hsc₁)
      World.scopes_setScope (represents_setScope.2 hrep₁) (represents_setScope.2 hl₁)
      ((hext.trans hext₁).setScope hnew)
    refine ⟨w', sc', ?_, hwf', hext', hsc', ?_⟩
    · rw [prefixBindings]
      exact hadd.bind (hset.bind hrun)
    · convert hrep' using 1
      funext n
      cases hn : stripPrefix str n with
      | none =>
        have hne : n ≠ str ++ x := fun heq => by
          rw [stripPrefix_eq_some.2 heq] at hn
          cases hn
        simp [Function.update_of_ne hne]
      | some y =>
        rw [stripPrefix_eq_some] at hn
        subst hn
        by_cases hxy : y = x
        · subst hxy
          simp [hval]
        · have hne : str ++ y ≠ str ++ x := fun heq => hxy (append_right_inj.1 heq)
          simp [Function.update_of_ne hne, Function.update_of_ne hxy]

end NaviScheme
