import NaviScheme.Import.Modifiers

/-!
# Importing an import set

What `get_import_env` returns for an import set over a library that can be loaded.
`import_only`, `import_except` and `import_prefix` do what the set means; `import_rename`
does where its pairs are in order. So the scope that is returned for an import set, and for
every import set in it, binds what it means if and only if the pairs of each `rename` in it
are in order (`NaviScheme.importsMeaning_iff_inOrder`): swapping two names loses one of
them, and renaming a name to itself loses it.
-/

namespace NaviScheme

open Prog

variable {α : Type} {F : FnSig} {X : Externals} {w w₀ w₁ : World} {o : NaviObj}
  {pairs xs : List NaviObj} {env : NaviEnv}

/-! ### Checks of syntax -/

theorem computes_allOfType {t : NaviType} (h : ∀ x ∈ xs, ∃ d, w.load x = .ok (t, d)) :
    Computes (allOfType t xs : Prog evalOps F _) w true w := by
  induction xs with
  | nil => exact Computes.ret _
  | cons x xs ih =>
    obtain ⟨d, hd⟩ := h x List.mem_cons_self
    refine (computes_naviType hd).bind ?_
    rw [if_pos rfl]
    exact ih fun y hy => h y (List.mem_cons_of_mem _ hy)

theorem computes_naviIsListOf {t : NaviType} {dotted : Bool} (hwf : w.Wf) (hs : Spine w o pairs xs)
    (h : ∀ x ∈ xs, ∃ d, w.load x = .ok (t, d)) :
    Computes (naviIsListOf o t dotted : Prog evalOps F _) w true w := by
  refine (computes_walk hwf hs).bind (hs.computes_cars.bind ((computes_allOfType h).bind ?_))
  exact Computes.ret _

theorem computes_allValid {valid : NaviObj → Prog evalOps F Bool}
    (h : ∀ x ∈ xs, Computes (valid x) w true w) : Computes (allValid valid xs) w true w := by
  induction xs with
  | nil => exact Computes.ret _
  | cons x xs ih =>
    exact (h x List.mem_cons_self).bind (ih fun y hy => h y (List.mem_cons_of_mem _ hy))

theorem forall_isSym {objs : List NaviObj} {ids : List String} (hwf : w.Wf)
    (h : List.Forall₂ (IsSym w) objs ids) : ∀ x ∈ objs, ∃ d, w.load x = .ok (.naviSymbol, d) := by
  intro x hx
  obtain ⟨i, hi, rfl⟩ := List.mem_iff_getElem.1 hx
  have hlen := h.length_eq
  exact ⟨_, (h.get hi (hlen ▸ hi)).load hwf⟩

theorem computes_renameValid {p : String × String} (hwf : w.Wf) (h : IsRename w o p) :
    Computes (renameValid o : Prog evalOps F _) w true w := by
  obtain ⟨pairs, x, y, hs, hx, hy⟩ := h
  have hsym : ∀ z ∈ [x, y], ∃ d, w.load z = .ok (.naviSymbol, d) := by
    simp only [List.forall_mem_cons]
    exact ⟨⟨_, hx.load hwf⟩, ⟨_, hy.load hwf⟩, fun _ h => absurd h List.not_mem_nil⟩
  exact (computes_naviIsListOf hwf hs hsym).bind ((computes_naviListLength hwf hs).bind (Computes.ret _))

theorem computes_libnamePartValid (h : IsNamePart w o) :
    Computes (libnamePartValid o : Prog evalOps F _) w true w := by
  obtain ⟨d, hd⟩ | ⟨n, hn, rfl⟩ := h
  · exact (computes_naviType hd).bind (Computes.ret _)
  · refine (Computes.ret NaviType.naviFixnum).bind ?_
    rw [if_neg (by decide)]
    change Computes (.ret (decide (0 ≤ n))) w true w
    rw [decide_eq_true hn]
    exact Computes.ret _

/-! ### Choosing the modifier -/

/-- The symbols that are compared with the first of an import set are in the table. -/
def World.HasKeywords (w : World) : Prop := ∀ k ∈ importKeywords, ∃ o, IsSym w o k

/-- The choice that `import_valid` and `get_import_env` make. -/
def importSelect (sym : NaviObj) (only except prefixed rename library : Code α) : Code α := do
  if sym = (← naviMakeSymbol "only") then only
  else if sym = (← naviMakeSymbol "except") then except
  else if sym = (← naviMakeSymbol "prefix") then prefixed
  else if sym = (← naviMakeSymbol "rename") then rename
  else library

section Select

variable {sym : NaviObj} {only except prefixed rename library : Code α}
  {r : Res Fault EvalExn World α}

/-- A keyword that is not the first of the import set is passed over. -/
theorem evaluates_pass {k : String} {p q : Code α} (hk : ∃ o, IsSym w o k) (hsym : ¬ IsSym w sym k)
    (h : (worldSemantics X).Evaluates q w r) : (worldSemantics X).Evaluates
      (do if sym = (← naviMakeSymbol k) then p else q) w r := by
  obtain ⟨o, ho⟩ := hk
  have hne : sym ≠ o := fun heq => hsym (heq ▸ ho)
  refine (computes_naviMakeSymbol ho).evaluates_bind ?_
  rwa [if_neg hne]

theorem evaluates_take {k : String} {p q : Code α} (hsym : IsSym w sym k)
    (h : (worldSemantics X).Evaluates p w r) : (worldSemantics X).Evaluates
      (do if sym = (← naviMakeSymbol k) then p else q) w r := by
  refine (computes_naviMakeSymbol hsym).evaluates_bind ?_
  rwa [if_pos rfl]

variable (hwf : w.Wf) (hk : w.HasKeywords)

include hwf in
theorem IsSym.not_isSym {a b : String} (h : IsSym w o a) (hne : a ≠ b) : ¬ IsSym w o b :=
  fun h' => hne (h.name_eq hwf h')

include hwf hk in
theorem evaluates_importSelect_except (hsym : IsSym w sym "except")
    (h : (worldSemantics X).Evaluates except w r) :
    (worldSemantics X).Evaluates (importSelect sym only except prefixed rename library) w r :=
  evaluates_pass (hk _ (by simp [importKeywords])) (hsym.not_isSym hwf (by decide))
    (evaluates_take hsym h)

include hwf hk in
theorem evaluates_importSelect_prefixed (hsym : IsSym w sym "prefix")
    (h : (worldSemantics X).Evaluates prefixed w r) :
    (worldSemantics X).Evaluates (importSelect sym only except prefixed rename library) w r :=
  evaluates_pass (hk _ (by simp [importKeywords])) (hsym.not_isSym hwf (by decide)) <|
    evaluates_pass (hk _ (by simp [importKeywords])) (hsym.not_isSym hwf (by decide)) <|
      evaluates_take hsym h

include hwf hk in
theorem evaluates_importSelect_rename (hsym : IsSym w sym "rename")
    (h : (worldSemantics X).Evaluates rename w r) :
    (worldSemantics X).Evaluates (importSelect sym only except prefixed rename library) w r :=
  evaluates_pass (hk _ (by simp [importKeywords])) (hsym.not_isSym hwf (by decide)) <|
    evaluates_pass (hk _ (by simp [importKeywords])) (hsym.not_isSym hwf (by decide)) <|
      evaluates_pass (hk _ (by simp [importKeywords])) (hsym.not_isSym hwf (by decide)) <|
        evaluates_take hsym h

include hwf hk in
/-- What is chosen for `rename` is what is evaluated. -/
theorem importSelect_rename_inv (hsym : IsSym w sym "rename")
    (h : (worldSemantics X).Evaluates (importSelect sym only except prefixed rename library) w r) :
    (worldSemantics X).Evaluates rename w r := by
  have hpass : ∀ {k : String} {p q : Code α}, k ∈ importKeywords → "rename" ≠ k →
      (worldSemantics X).Evaluates (do if sym = (← naviMakeSymbol k) then p else q) w r →
      (worldSemantics X).Evaluates q w r := by
    intro k p q hmem hne h
    obtain ⟨o, ho⟩ := hk k hmem
    have hsymo : sym ≠ o := fun heq => hsym.not_isSym hwf hne (heq ▸ ho)
    have hrest := (computes_naviMakeSymbol ho).of_bind h
    rwa [if_neg hsymo] at hrest
  have hrest := hpass (by simp [importKeywords]) (by decide)
    (hpass (by simp [importKeywords]) (by decide) (hpass (by simp [importKeywords]) (by decide) h))
  have htake := (computes_naviMakeSymbol hsym).of_bind hrest
  rwa [if_pos rfl] at htake

include hk in
theorem evaluates_importSelect_library (hsym : ∀ k ∈ importKeywords, ¬ IsSym w sym k)
    (h : (worldSemantics X).Evaluates library w r) :
    (worldSemantics X).Evaluates (importSelect sym only except prefixed rename library) w r :=
  evaluates_pass (hk _ (by simp [importKeywords])) (hsym _ (by simp [importKeywords])) <|
    evaluates_pass (hk _ (by simp [importKeywords])) (hsym _ (by simp [importKeywords])) <|
      evaluates_pass (hk _ (by simp [importKeywords])) (hsym _ (by simp [importKeywords])) <|
        evaluates_pass (hk _ (by simp [importKeywords])) (hsym _ (by simp [importKeywords])) h

end Select

/-! ### `import_valid` -/

/-- An import set in memory begins with its first symbol. -/
theorem evaluates_importValidBody {kw : NaviObj} {d : Data} (hwf : w.Wf)
    (hs : Spine w o pairs (kw :: xs)) (hkw : w.load kw = .ok (.naviSymbol, d))
    {r : Res Fault EvalExn World Bool}
    (h : ∀ rest pairs', Spine w rest pairs' xs → (worldSemantics X).Evaluates
      (importSelect kw (importOnlyExceptValid rest) (importOnlyExceptValid rest)
        (importPrefixValid rest) (importRenameValid rest) (libnameValid o)) w r) :
    (worldSemantics X).Returns (.importValid o) w r := by
  have hproper := computes_naviIsProperList (F := evalFns) hwf hs
  cases hs with
  | cons hp ht =>
  change (worldSemantics X).Evaluates (importValidBody o) w r
  have hnil : o ≠ .nil := by
    obtain ⟨a, rfl, -⟩ := hp.ptr
    simp
  rw [importValidBody, if_neg hnil]
  refine hproper.evaluates_bind ?_
  rw [if_pos rfl]
  refine (computes_naviCar hp).evaluates_bind ((computes_naviCdr hp).evaluates_bind ?_)
  refine (computes_naviType hkw).evaluates_bind ?_
  rw [if_pos rfl]
  exact h _ _ ht

theorem evaluates_importOnlyExceptValid {rest x : NaviObj} {ids : List String} (hwf : w.Wf)
    (hs : Spine w rest pairs (x :: xs)) (hids : List.Forall₂ (IsSym w) xs ids)
    (h : (worldSemantics X).Returns (.importValid x) w (.ok true w)) :
    (worldSemantics X).Evaluates (importOnlyExceptValid rest) w (.ok true w) := by
  cases hs with
  | cons hp ht =>
  refine (computes_naviIsPair hp).evaluates_bind ?_
  rw [if_pos rfl]
  refine (computes_naviCar hp).evaluates_bind ((Prog.Semantics.Evaluates.call h).bind ?_)
  change (worldSemantics X).Evaluates (if true = true then _ else _) w _
  rw [if_pos rfl]
  exact (computes_naviCdr hp).evaluates_bind
    (computes_naviIsListOf hwf ht (forall_isSym hwf hids)).evaluates

/-- **An import set is valid.** -/
theorem returns_importValid (hwf : w.Wf) (hk : w.HasKeywords) (S : ImportSet) (h : S.Reads w w₀) :
    (worldSemantics X).Returns (.importValid S.form) w (.ok true w) := by
  induction S with
  | library form =>
    obtain ⟨pairs, hd, tl, hs, ⟨d, hd'⟩, hkw, hparts⟩ := h
    refine evaluates_importValidBody hwf hs hd' fun rest pairs' hrest => ?_
    refine evaluates_importSelect_library hk hkw (Computes.evaluates ?_)
    cases hs with
    | cons hp ht =>
    refine (computes_naviIsPair hp).bind ?_
    rw [if_pos rfl]
    have hall : ∀ x ∈ hd :: tl, Computes (libnamePartValid x : Code Bool) w true w := by
      intro x hx
      refine computes_libnamePartValid ?_
      rcases List.mem_cons.1 hx with rfl | hx
      · exact Or.inl ⟨d, hd'⟩
      · exact hparts x hx
    refine (computes_walk hwf (.cons hp ht)).bind (((Spine.cons hp ht).computes_cars).bind ?_)
    exact (computes_allValid hall).bind (Computes.ret _)
  | only form set ids ih =>
    obtain ⟨hset, pairs, kw, objs, hs, -, hkw, hids, -⟩ := h
    refine evaluates_importValidBody hwf hs (hkw.load hwf) fun rest pairs' hrest => ?_
    exact evaluates_take hkw (evaluates_importOnlyExceptValid hwf hrest hids (ih hset))
  | except form set ids ih =>
    obtain ⟨hset, pairs, kw, objs, hs, -, hkw, hids, -⟩ := h
    refine evaluates_importValidBody hwf hs (hkw.load hwf) fun rest pairs' hrest => ?_
    exact evaluates_importSelect_except hwf hk hkw
      (evaluates_importOnlyExceptValid hwf hrest hids (ih hset))
  | prefixed form set str ih =>
    obtain ⟨hset, pairs, kw, o, hs, hkw, ho⟩ := h
    refine evaluates_importValidBody hwf hs (hkw.load hwf) fun rest pairs' hrest => ?_
    refine evaluates_importSelect_prefixed hwf hk hkw ?_
    refine (computes_naviListLength hwf hrest).evaluates_bind ?_
    cases hrest with
    | cons hp ht =>
    cases ht with
    | cons hp' ht =>
    rw [if_pos (show [set.form, o].length = 2 from rfl)]
    refine (computes_naviCar hp).evaluates_bind ((Prog.Semantics.Evaluates.call (ih hset)).bind ?_)
    change (worldSemantics X).Evaluates (if true = true then _ else _) w _
    rw [if_pos rfl]
    exact (((computes_naviCdr hp).bind (computes_naviCar hp')).bind
      ((computes_naviType (ho.load hwf)).bind (Computes.ret true))).evaluates
  | rename form set ps ih =>
    obtain ⟨hset, pairs, kw, objs, hs, -, hkw, hps, -⟩ := h
    refine evaluates_importValidBody hwf hs (hkw.load hwf) fun rest pairs' hrest => ?_
    refine evaluates_importSelect_rename hwf hk hkw ?_
    cases hrest with
    | cons hp ht =>
    refine (computes_naviIsPair hp).evaluates_bind ?_
    rw [if_pos rfl]
    refine (computes_naviCar hp).evaluates_bind ((Prog.Semantics.Evaluates.call (ih hset)).bind ?_)
    change (worldSemantics X).Evaluates (if true = true then _ else _) w _
    rw [if_pos rfl]
    have hall : ∀ x ∈ objs, Computes (renameValid x : Code Bool) w true w := by
      intro x hx
      obtain ⟨i, hi, rfl⟩ := List.mem_iff_getElem.1 hx
      exact computes_renameValid hwf (hps.get hi (hps.length_eq ▸ hi))
    exact ((computes_naviCdr hp).bind ((computes_elements hwf ht).bind (computes_allValid hall))).evaluates

/-! ### The library -/

/-- A world with a new scope. -/
def World.addScope (w : World) (next : Option ScopeAddr) : World :=
  { w with
    scopes := Function.update w.scopes w.nextScope (some ⟨next, []⟩)
    nextScope := w.nextScope + 1 }

section AddScope

variable {next : Option ScopeAddr}

theorem World.scopes_addScope_self :
    (w.addScope next).scopes w.nextScope = some ⟨next, []⟩ := Function.update_self ..

theorem World.Wf.addScope (hwf : w.Wf) : (w.addScope next).Wf := by
  refine ⟨hwf.objs, fun s hs => ?_, hwf.thunks, hwf.symtab⟩
  have hlt : w.nextScope < s := hs
  exact (Function.update_of_ne hlt.ne' _ _).trans (hwf.scopes s hlt.le)

theorem World.Wf.extends_addScope (hwf : w.Wf) : w.Extends (w.addScope next) := by
  refine ⟨fun _ _ h => h, fun s sc hs => ?_, fun _ _ h => h⟩
  have hne : s ≠ w.nextScope := by
    rintro rfl
    rw [hwf.scopes _ le_rfl] at hs
    cases hs
  exact (Function.update_of_ne hne _ _).trans hs

theorem computes_scopeRef (s : ScopeAddr) : Computes (scopeRef s : Prog evalOps F Unit) w () w :=
  Computes.perform (o := .scopeRef s) rfl

theorem computes_scopeUnref (s : ScopeAddr) : Computes (scopeUnref s : Prog evalOps F Unit) w () w :=
  Computes.perform (o := .scopeUnref s) rfl

theorem computes_newLexicalEnvironment :
    Computes (newLexicalEnvironment env : Prog evalOps F _) w ⟨w.nextScope, env.dynamic⟩
      (w.addScope none) :=
  (Computes.perform (o := .makeScope none) (show World.step _ w = .ok (_, w.addScope none) from rfl)).bind
    ((computes_scopeRef _).bind (Computes.ret _))

end AddScope

/-- An entry of the list of exports: the identifier that a scope of the library binds, if
need be with the identifier that it is exported as; and the object. -/
def IsExport (w : World) (libEnv : NaviEnv) (o : NaviObj) (e : String × NaviObj) : Prop :=
  ∃ x y, ((o = x ∧ o = y) ∨ ∃ pairs kw, Spine w o pairs [kw, x, y]) ∧ (∃ n, IsSym w x n) ∧
    IsSym w y e.1 ∧ ∃ s, w.envBinding x (libEnv.lexical + 1) libEnv.lexical = .ok (some (s, e.2))

/-- A library can be loaded, and then exports objects under names. -/
structure LibraryLoads (X : Externals) (w : World) (env : NaviEnv) (name : NaviObj) (w₀ : World)
    (es : List (String × NaviObj)) : Prop where
  /-- loading it, if it is not loaded, and its record -/
  loads : ∃ lib l libEnv pairs objs, (worldSemantics X).Evaluates (loadLibrary X name env) w
    (.ok lib w₀) ∧ w₀.libraries.find? (fun l => l.id = lib) = some l ∧ l.env = some libEnv ∧
    Spine w₀ l.list pairs objs ∧ List.Forall₂ (IsExport w₀ libEnv) objs es

/-- The map of a list of exports. -/
def exportMap (es : List (String × NaviObj)) : String → Option NaviObj :=
  es.foldl (fun m e => Function.update m e.1 (some e.2)) fun _ => none

theorem computes_importBinding {libEnv : NaviEnv} {x y obj : NaviObj} {s : ScopeAddr}
    {sc : WorldScope} (hx : w.envBinding x (libEnv.lexical + 1) libEnv.lexical = .ok (some (s, obj)))
    (hsc : w.scopes env.lexical = some sc) :
    Computes (importBinding libEnv x y env) w ()
      (w.setScope env.lexical { sc with bindings := setIn sc.bindings y obj }) := by
  have hbind : Computes (naviEnvBinding libEnv.lexical x : Leaf _) w (some (s, obj)) w := by
    refine Computes.perform ?_
    change (w.envBinding x (libEnv.lexical + 1) libEnv.lexical).map (·, w) = _
    rw [hx]
    rfl
  exact hbind.bind (computes_naviScopeSet hsc y obj)

/-- The loop of `do_import_library`. -/
theorem computes_importBindings (env : NaviEnv) {libEnv : NaviEnv} {sc : WorldScope} {m : String → Option NaviObj}
    {objs : List NaviObj} {es : List (String × NaviObj)}
    (hes : List.Forall₂ (IsExport w₀ libEnv) objs es) (hext : w₀.Extends w) (hwf : w.Wf)
    (hsc : w.scopes env.lexical = some sc) (hnew : w₀.scopes env.lexical = none)
    (hrep : Represents w sc.bindings m) :
    ∃ bs, Computes (importBindings libEnv env objs) w ()
        (w.setScope env.lexical { sc with bindings := bs }) ∧
      Represents w bs (es.foldl (fun m e => Function.update m e.1 (some e.2)) m) := by
  induction hes generalizing w sc m with
  | nil =>
    refine ⟨sc.bindings, ?_, hrep⟩
    rw [World.setScope_self hsc]
    exact Computes.ret _
  | @cons o e objs es ho _ ih =>
    obtain ⟨x, y, hread, ⟨n, hx⟩, hy, s, hobj⟩ := ho
    have hset := computes_importBinding (y := y) (hext.envBinding hobj) hsc
    have hrep' : Represents w ({ sc with bindings := setIn sc.bindings y e.2 } : WorldScope).bindings _ :=
      hrep.setIn hwf (hext.isSym hy) e.2
    obtain ⟨bs, hrun, hbs⟩ := ih (hext.setScope hnew)
      (hwf.setScope hsc) World.scopes_setScope (represents_setScope.2 hrep')
    rw [World.setScope_setScope] at hrun
    refine ⟨bs, ?_, represents_setScope.1 hbs⟩
    rw [importBindings]
    rcases hread with ⟨rfl, rfl⟩ | ⟨pairs, kw, hs⟩
    · refine (computes_naviType ((hext.isSym hx).load hwf)).bind ?_
      rw [if_pos rfl]
      exact hset.bind hrun
    · cases hext.spine hs with
      | cons h₁ ht =>
      cases ht with
      | cons h₂ ht =>
      cases ht with
      | cons h₃ ht =>
      refine (computes_naviType h₁).bind ?_
      rw [if_neg (by decide)]
      have hcddr : Computes (naviCddr o : Leaf NaviObj) w _ w :=
        (computes_naviCdr h₁).bind (computes_naviCdr h₂)
      exact ((computes_naviCdr h₁).bind (computes_naviCar h₂)).bind
        ((hcddr.bind (computes_naviCar h₃)).bind (hset.bind hrun))

/-- What is known of the scope that is returned for an import set. -/
structure Imported (w₀ w₁ : World) (env' : NaviEnv) (m : String → Option NaviObj) : Prop where
  /-- the world grows -/
  ext : w₀.Extends w₁
  /-- and is well formed -/
  wf : w₁.Wf
  /-- the scope is new -/
  new : w₀.scopes env'.lexical = none
  /-- it binds what it should -/
  binds : Binds w₁ env'.lexical m

/-- **A plain library** is imported with what it exports. -/
theorem LibraryLoads.imported {es : List (String × NaviObj)}
    (h : LibraryLoads X w env o w₀ es) (hwf₀ : w₀.Wf) : ∃ env' w₁,
      (worldSemantics X).Evaluates (importLibrary X o env) w (.ok env' w₁) ∧
        Imported w₀ w₁ env' (exportMap es) := by
  obtain ⟨lib, l, libEnv, pairs, objs, hload, hfind, henv, hs, hes⟩ := h.loads
  have hext : w₀.Extends (w₀.addScope none) := hwf₀.extends_addScope
  have hwf : (w₀.addScope none).Wf := hwf₀.addScope
  have hnew : w₀.scopes w₀.nextScope = none := hwf₀.scopes _ le_rfl
  obtain ⟨bs, hrun, hbs⟩ := computes_importBindings ⟨w₀.nextScope, env.dynamic⟩ hes hext hwf
    World.scopes_addScope_self hnew (Represents.nil _)
  refine ⟨⟨w₀.nextScope, env.dynamic⟩, _, hload.bind ?_, hext.setScope hnew,
    hwf.setScope World.scopes_addScope_self, hnew, ⟨none, bs⟩, World.scopes_setScope,
    represents_setScope.2 hbs⟩
  have hget : Computes (getLibrary lib : Code NaviLibrary) w₀ l w₀ := by
    refine (Computes.perform (o := .libraries) rfl).bind ?_
    rw [hfind]
    exact Computes.ret _
  refine hget.evaluates_bind (computes_newLexicalEnvironment.evaluates_bind ?_)
  rw [henv]
  have hall := (computes_elements (F := noCalls NaviObj) hwf (hext.spine hs)).bind hrun
  exact (Computes.leaf hall).bind .ret

/-! ### Import sets -/

/-- The scope that is returned for an import set binds what the set means. -/
def ImportsMeaning (X : Externals) (w : World) (env : NaviEnv) (exports : String → Option NaviObj)
    (S : ImportSet) : Prop :=
  ∃ env' w', (worldSemantics X).Returns (.getImportEnv S.form env) w (.ok env' w') ∧
    Binds w' env'.lexical (S.meaning exports)

/-- An import set over a library that can be loaded, whose identifiers are there. -/
structure Importable (X : Externals) (w : World) (env : NaviEnv) (w₀ : World)
    (es : List (String × NaviObj)) (S : ImportSet) : Prop where
  /-- the world is well formed -/
  wf : w.Wf
  /-- the keywords are symbols -/
  keywords : w.HasKeywords
  /-- the form is the import set, and still is when the library is loaded -/
  reads : S.Reads w w₀
  /-- its library can be loaded -/
  loads : LibraryLoads X w env S.base w₀ es
  /-- the world is still well formed then -/
  wf' : w₀.Wf
  /-- every identifier that is named is there, and the results are distinct -/
  named : S.WellNamed (exportMap es)

/-- `get_import_env` of a valid import set. -/
theorem returns_getImportEnv_iff {rest x : NaviObj} {r : Res Fault EvalExn World NaviEnv}
    (hvalid : (worldSemantics X).Returns (.importValid o) w (.ok true w)) (hp : IsPair w o x rest) :
    (worldSemantics X).Returns (.getImportEnv o env) w r ↔
      (worldSemantics X).Evaluates (importSelect x
        (do importOnly (← naviCar rest) (← naviCdr rest) env)
        (do importExcept (← naviCar rest) (← naviCdr rest) env)
        (do importPrefix (← naviCar rest) (← naviCadr rest) env)
        (do importRename (← naviCar rest) (← naviCdr rest) env)
        (importLibrary X o env)) w r := by
  have hcall : (worldSemantics X).Evaluates (importValid o [o] env.scopes) w (.ok true w) :=
    .call hvalid
  refine ⟨fun h => ?_, fun h => ?_⟩
  · obtain ⟨b, w', hvalid', h⟩ | ⟨e, w', hvalid', -⟩ | ⟨φ, hvalid', -⟩ := h.bind_inv
    · obtain ⟨rfl, rfl⟩ : true = b ∧ w = w' := by simpa using hcall.unique hvalid'
      change (worldSemantics X).Evaluates (if true = true then _ else _) w r at h
      rw [if_pos rfl] at h
      exact (computes_naviCdr hp).of_bind ((computes_naviCar hp).of_bind h)
    · exact absurd (hcall.unique hvalid') (by simp)
    · exact absurd (hcall.unique hvalid') (by simp)
  · refine hcall.bind ?_
    change (worldSemantics X).Evaluates (if true = true then _ else _) w r
    rw [if_pos rfl]
    exact (computes_naviCar hp).evaluates_bind ((computes_naviCdr hp).evaluates_bind h)

section Modifiers

variable {x includes : NaviObj} {env₁ : NaviEnv} {m : String → Option NaviObj}
  {objs : List NaviObj} {ids : List String}

/-- Removing bindings from the scope of an import set. -/
theorem Imported.remove (h : Imported w₀ w₁ env₁ m) (remove : NaviObj → Bool) (q : String → Prop)
    [DecidablePred q] (hremove : ∀ o n, IsSym w₁ o n → ((!remove o) = true ↔ q n)) :
    ∃ sc w', w₁.scopes env₁.lexical = some sc ∧
      Computes (removeBindings env₁.lexical remove sc.bindings : Code Unit) w₁ () w' ∧
      Imported w₀ w' env₁ fun n => if q n then m n else none := by
  obtain ⟨sc, hsc, hrep⟩ := h.binds
  exact ⟨sc, _, hsc, computes_removeAll hsc remove, h.ext.setScope h.new, h.wf.setScope hsc, h.new, _,
    World.scopes_setScope, represents_setScope.2 (hrep.filter _ q hremove)⟩

theorem importOnly_run (hx : (worldSemantics X).Returns (.getImportEnv x env) w (.ok env₁ w₁))
    (h : Imported w₀ w₁ env₁ m) (hs : Spine w₀ includes pairs objs)
    (hids : List.Forall₂ (IsSym w₀) objs ids) :
    ∃ w', (worldSemantics X).Evaluates (importOnly x includes env) w (.ok env₁ w') ∧
      Imported w₀ w' env₁ fun n => if n ∈ ids then m n else none := by
  obtain ⟨sc, w', hsc, hrun, himp⟩ := h.remove (fun symbol => symbol ∉ objs)
    (fun n => n ∈ ids) fun o n hn => by
      have hmem := mem_iff_of_isSym h.wf (hids.imp fun _ _ => h.ext.isSym) hn
      simp [hmem]
  refine ⟨w', (Prog.Semantics.Evaluates.call hx).bind ?_, himp⟩
  exact ((computes_elements h.wf (h.ext.spine hs)).bind
    ((computes_bindings hsc).bind (hrun.bind (Computes.ret env₁)))).evaluates

theorem importExcept_run (hx : (worldSemantics X).Returns (.getImportEnv x env) w (.ok env₁ w₁))
    (h : Imported w₀ w₁ env₁ m) (hs : Spine w₀ includes pairs objs)
    (hids : List.Forall₂ (IsSym w₀) objs ids) :
    ∃ w', (worldSemantics X).Evaluates (importExcept x includes env) w (.ok env₁ w') ∧
      Imported w₀ w' env₁ fun n => if n ∈ ids then none else m n := by
  obtain ⟨sc, w', hsc, hrun, himp⟩ := h.remove (fun symbol => symbol ∈ objs)
    (fun n => n ∉ ids) fun o n hn => by
      have hmem := mem_iff_of_isSym h.wf (hids.imp fun _ _ => h.ext.isSym) hn
      simp [hmem]
  refine ⟨w', (Prog.Semantics.Evaluates.call hx).bind ?_, ?_⟩
  · exact ((computes_elements h.wf (h.ext.spine hs)).bind
      ((computes_bindings hsc).bind (hrun.bind (Computes.ret env₁)))).evaluates
  · simpa only [ite_not] using himp

theorem importPrefix_run {str : String}
    (hx : (worldSemantics X).Returns (.getImportEnv x env) w (.ok env₁ w₁))
    (h : Imported w₀ w₁ env₁ m) (hwf : w.Wf) (ho : IsSym w o str) :
    ∃ env' w', (worldSemantics X).Evaluates (importPrefix x o env) w (.ok env' w') ∧
      Imported w₀ w' env' fun n => (stripPrefix str n).bind m := by
  obtain ⟨sc, hsc, hrep⟩ := h.binds
  have hext : w₁.Extends (w₁.addScope none) := h.wf.extends_addScope
  have hwf₁ : (w₁.addScope none).Wf := h.wf.addScope
  have hnew : w₀.scopes w₁.nextScope = none := by
    cases hs : w₀.scopes w₁.nextScope with
    | none => rfl
    | some sc =>
      have hsome := h.ext.scopes _ _ hs
      rw [h.wf.scopes _ le_rfl] at hsome
      cases hsome
  obtain ⟨w', sc', hrun, hwf', hext', hsc', hrep'⟩ := prefixBindings_run (F := evalFns) str hwf₁
    World.scopes_addScope_self (Represents.nil _) (hext.represents hwf₁ hrep) hnew
    (h.ext.trans hext)
  refine ⟨⟨w₁.nextScope, env₁.dynamic⟩, w', ?_, hext', hwf', hnew, sc', hsc', ?_⟩
  · refine (computes_symbolData hwf ho).evaluates_bind ((Prog.Semantics.Evaluates.call hx).bind ?_)
    have hunref : Computes (naviEnvUnref env₁ : Code Unit) w' () w' :=
      (computes_scopeUnref _).bind (computes_scopeUnref _)
    exact (computes_newLexicalEnvironment.bind ((computes_bindings (hext.scopes _ _ hsc)).bind
      (hrun.bind (hunref.bind (Computes.ret (⟨w₁.nextScope, env₁.dynamic⟩ : NaviEnv)))))).evaluates
  · simpa only [Option.or_none] using hrep'

/-- **`import_rename` renames one by one.** -/
theorem importRename_run {ps : List (String × String)}
    (hx : (worldSemantics X).Returns (.getImportEnv x env) w (.ok env₁ w₁))
    (h : Imported w₀ w₁ env₁ m) (hs : Spine w₀ includes pairs objs)
    (hps : List.Forall₂ (IsRename w₀) objs ps) :
    match Renaming.seq ps m with
    | some m' => ∃ w', (worldSemantics X).Evaluates (importRename x includes env) w
        (.ok env₁ w') ∧ Imported w₀ w' env₁ m'
    | none => ∀ env' w', ¬ (worldSemantics X).Evaluates (importRename x includes env) w
        (.ok env' w') := by
  obtain ⟨sc, hsc, hrep⟩ := h.binds
  have hrun := renameBindings_run h.wf (h.ext.spine hs) (hps.imp fun _ _ => h.ext.isRename) hsc hrep
  have hwalk := computes_walk (F := noCalls NaviObj) h.wf (h.ext.spine hs)
  cases hseq : Renaming.seq ps m with
  | some m' =>
    rw [hseq] at hrun
    obtain ⟨bs, hrun, hbs⟩ := hrun
    refine ⟨_, (Prog.Semantics.Evaluates.call hx).bind ((Computes.leaf (hwalk.bind hrun)).bind .ret), ?_⟩
    exact ⟨h.ext.setScope h.new, h.wf.setScope hsc, h.new, ⟨sc.next, bs⟩, World.scopes_setScope,
      represents_setScope.2 hbs⟩
  | none =>
    rw [hseq] at hrun
    intro env' w' heval
    obtain ⟨_, _, hx', hrest⟩ | ⟨_, _, hx', -⟩ | ⟨_, hx', -⟩ := heval.bind_inv
    · have heq := (Prog.Semantics.Evaluates.call hx).unique hx'
      cases heq
      obtain ⟨u, w₂, hleaf, -⟩ | ⟨_, _, -, heq⟩ | ⟨_, -, heq⟩ := hrest.bind_inv
      · exact hrun w₂ (hwalk.runLeaf_bind.symm.trans (runLeaf_of_evaluates hleaf))
      · cases heq
      · cases heq
    · exact absurd ((Prog.Semantics.Evaluates.call hx).unique hx') (by simp)
    · exact absurd ((Prog.Semantics.Evaluates.call hx).unique hx') (by simp)

end Modifiers

/-! ### The meaning of an import set -/

section Meaning

variable {es : List (String × NaviObj)} {S set : ImportSet} {form : NaviObj} {ids : List String}
  {str : String} {ps : List (String × String)}

/-- What is needed of the import set is needed of the one in it. -/
theorem Importable.of_inner (h : Importable X w env w₀ es S) (set : ImportSet)
    (hbase : S.base = set.base)
    (hreads : set.Reads w w₀) (hnamed : set.WellNamed (exportMap es)) :
    Importable X w env w₀ es set :=
  ⟨h.wf, h.keywords, hreads, hbase ▸ h.loads, h.wf', hnamed⟩

/-- A `rename` comes to what its pairs make of the inner scope one by one. -/
theorem Importable.rename_run (h : Importable X w env w₀ es (.rename form set ps))
    {env₁ : NaviEnv} (hx : (worldSemantics X).Returns (.getImportEnv set.form env) w (.ok env₁ w₁))
    (himp : Imported w₀ w₁ env₁ (set.meaning (exportMap es))) :
    match Renaming.seq ps (set.meaning (exportMap es)) with
    | some m' => ∃ w', (worldSemantics X).Returns (.getImportEnv form env) w (.ok env₁ w') ∧
        Imported w₀ w' env₁ m'
    | none => ∀ env' w', ¬ (worldSemantics X).Returns (.getImportEnv form env) w (.ok env' w') := by
  have hvalid := returns_importValid (X := X) h.wf h.keywords _ h.reads
  obtain ⟨-, pairs, kw, objs, hs, hs₀, hkw, -, hps⟩ := h.reads
  obtain ⟨rest, hp, pairs₁, hrest, hrest₀⟩ := hs.cons_inv₂ hs₀
  obtain ⟨renames, hp', pairs₂, -, hrenames₀⟩ := hrest.cons_inv₂ hrest₀
  have hrun := importRename_run hx himp hrenames₀ hps
  cases hseq : Renaming.seq ps (set.meaning (exportMap es)) with
  | some m' =>
    rw [hseq] at hrun
    obtain ⟨w', hrun, himp'⟩ := hrun
    refine ⟨w', (returns_getImportEnv_iff hvalid hp).2 ?_, himp'⟩
    refine evaluates_importSelect_rename h.wf h.keywords hkw ?_
    exact (computes_naviCar hp').evaluates_bind ((computes_naviCdr hp').evaluates_bind hrun)
  | none =>
    rw [hseq] at hrun
    intro env' w' hret
    have hsel := (returns_getImportEnv_iff hvalid hp).1 hret
    refine hrun env' w' ?_
    have hpick := importSelect_rename_inv h.wf h.keywords hkw hsel
    exact (computes_naviCdr hp').of_bind ((computes_naviCar hp').of_bind hpick)

/-- **Where all `rename`s are in order**, the scope binds what the import set means. -/
theorem Importable.imported (h : Importable X w env w₀ es S)
    (hord : ∀ ps ∈ S.renames, Renaming.InOrder ps) : ∃ env' w',
      (worldSemantics X).Returns (.getImportEnv S.form env) w (.ok env' w') ∧
        Imported w₀ w' env' (S.meaning (exportMap es)) := by
  have hvalid := returns_importValid (X := X) h.wf h.keywords _ h.reads
  induction S with
  | library form =>
    obtain ⟨pairs, hd, tl, hs, -, hkw, -⟩ := h.reads
    obtain ⟨rest, hp, -⟩ := hs.cons_inv
    obtain ⟨env', w', hrun, himp⟩ := h.loads.imported h.wf'
    exact ⟨env', w', (returns_getImportEnv_iff hvalid hp).2
      (evaluates_importSelect_library h.keywords hkw hrun), himp⟩
  | only form set ids ih =>
    obtain ⟨hset, pairs, kw, objs, hs, hs₀, hkw, -, hids⟩ := h.reads
    have hinner := h.of_inner set rfl hset h.named.1
    obtain ⟨env₁, w₁, hx, himp⟩ := ih hinner hord
      (returns_importValid h.wf h.keywords _ hinner.reads)
    obtain ⟨rest, hp, pairs₁, hrest, hrest₀⟩ := hs.cons_inv₂ hs₀
    obtain ⟨includes, hp', pairs₂, -, hincludes₀⟩ := hrest.cons_inv₂ hrest₀
    obtain ⟨w', hrun, himp'⟩ := importOnly_run hx himp hincludes₀ hids
    refine ⟨env₁, w', (returns_getImportEnv_iff hvalid hp).2 (evaluates_take hkw ?_), himp'⟩
    exact (computes_naviCar hp').evaluates_bind ((computes_naviCdr hp').evaluates_bind hrun)
  | except form set ids ih =>
    obtain ⟨hset, pairs, kw, objs, hs, hs₀, hkw, -, hids⟩ := h.reads
    have hinner := h.of_inner set rfl hset h.named.1
    obtain ⟨env₁, w₁, hx, himp⟩ := ih hinner hord
      (returns_importValid h.wf h.keywords _ hinner.reads)
    obtain ⟨rest, hp, pairs₁, hrest, hrest₀⟩ := hs.cons_inv₂ hs₀
    obtain ⟨excludes, hp', pairs₂, -, hexcludes₀⟩ := hrest.cons_inv₂ hrest₀
    obtain ⟨w', hrun, himp'⟩ := importExcept_run hx himp hexcludes₀ hids
    refine ⟨env₁, w', (returns_getImportEnv_iff hvalid hp).2
      (evaluates_importSelect_except h.wf h.keywords hkw ?_), himp'⟩
    exact (computes_naviCar hp').evaluates_bind ((computes_naviCdr hp').evaluates_bind hrun)
  | prefixed form set str ih =>
    obtain ⟨hset, pairs, kw, o, hs, hkw, ho⟩ := h.reads
    have hinner := h.of_inner set rfl hset h.named
    obtain ⟨env₁, w₁, hx, himp⟩ := ih hinner hord
      (returns_importValid h.wf h.keywords _ hinner.reads)
    obtain ⟨rest, hp, pairs₁, hrest⟩ := hs.cons_inv
    obtain ⟨cdr, hp', pairs₂, hcdr⟩ := hrest.cons_inv
    obtain ⟨_, hp'', -⟩ := hcdr.cons_inv
    obtain ⟨env', w', hrun, himp'⟩ := importPrefix_run hx himp h.wf ho
    refine ⟨env', w', (returns_getImportEnv_iff hvalid hp).2
      (evaluates_importSelect_prefixed h.wf h.keywords hkw ?_), himp'⟩
    exact (computes_naviCar hp').evaluates_bind
      (((computes_naviCdr hp').bind (computes_naviCar hp'')).evaluates_bind hrun)
  | rename form set ps ih =>
    have hinner := h.of_inner set rfl h.reads.1 h.named.1
    obtain ⟨env₁, w₁, hx, himp⟩ := ih hinner (fun qs hqs => hord qs (List.mem_cons_of_mem _ hqs))
      (returns_importValid h.wf h.keywords _ hinner.reads)
    have hrun := h.rename_run hx himp
    rw [Renaming.seq_eq_sim h.named.2 (hord ps List.mem_cons_self)] at hrun
    obtain ⟨w', hrun, himp'⟩ := hrun
    exact ⟨env₁, w', hrun, himp'⟩

/-- A `rename` over an import set that is right is right if its pairs are in order, and only
then. -/
theorem Importable.importsMeaning_rename_iff (h : Importable X w env w₀ es (.rename form set ps))
    (hord : ∀ qs ∈ set.renames, Renaming.InOrder qs) :
    ImportsMeaning X w env (exportMap es) (.rename form set ps) ↔ Renaming.InOrder ps := by
  have hinner := h.of_inner set rfl h.reads.1 h.named.1
  obtain ⟨env₁, w₁, hx, himp⟩ := hinner.imported hord
  have hrun := h.rename_run hx himp
  rw [← Renaming.seq_eq_sim_iff h.named.2]
  constructor
  · rintro ⟨env', w', hret, hbinds⟩
    cases hseq : Renaming.seq ps (set.meaning (exportMap es)) with
    | some m' =>
      rw [hseq] at hrun
      obtain ⟨w₂, hret₂, himp₂⟩ := hrun
      cases hret.unique hret₂
      exact congrArg some (himp₂.binds.unique hbinds)
    | none =>
      rw [hseq] at hrun
      exact absurd hret (hrun env' w')
  · intro hseq
    rw [hseq] at hrun
    obtain ⟨w₂, hret, himp₂⟩ := hrun
    exact ⟨env₁, w₂, hret, himp₂.binds⟩

/-- **Import sets are imported with their meaning if and only if their `rename`s are in
order.** -/
theorem importsMeaning_iff_inOrder (h : Importable X w env w₀ es S) :
    (∀ T ∈ S.parts, ImportsMeaning X w env (exportMap es) T) ↔
      ∀ ps ∈ S.renames, Renaming.InOrder ps := by
  induction S with
  | library form =>
    obtain ⟨env', w', hret, himp⟩ := h.imported fun _ hps => absurd hps List.not_mem_nil
    refine ⟨fun _ _ hps => absurd hps List.not_mem_nil, fun _ T hT => ?_⟩
    obtain rfl := List.mem_singleton.1 hT
    exact ⟨env', w', hret, himp.binds⟩
  | only form set ids ih | except form set ids ih =>
    have hinner := h.of_inner set rfl h.reads.1 h.named.1
    refine ⟨fun hall => (ih hinner).1 fun T hT => hall T (List.mem_cons_of_mem _ hT),
      fun hord => List.forall_mem_cons.2 ⟨?_, (ih hinner).2 hord⟩⟩
    obtain ⟨env', w', hret, himp⟩ := h.imported hord
    exact ⟨env', w', hret, himp.binds⟩
  | prefixed form set str ih =>
    have hinner := h.of_inner set rfl h.reads.1 h.named
    refine ⟨fun hall => (ih hinner).1 fun T hT => hall T (List.mem_cons_of_mem _ hT),
      fun hord => List.forall_mem_cons.2 ⟨?_, (ih hinner).2 hord⟩⟩
    obtain ⟨env', w', hret, himp⟩ := h.imported hord
    exact ⟨env', w', hret, himp.binds⟩
  | rename form set ps ih =>
    have hinner := h.of_inner set rfl h.reads.1 h.named.1
    simp only [ImportSet.parts, ImportSet.renames, List.forall_mem_cons, ih hinner]
    exact and_congr_left fun hord => h.importsMeaning_rename_iff hord

end Meaning

/-! ### A library with two exports -/

/-- The symbols, a library `(lib)` that exports `a` and `b`, and the forms
`(rename (lib) (a b) (b a))` and `(prefix (rename (lib) (a c)) b)`. -/
def importWorld : World :=
  let sym (str : String) : NaviType × Data := (.naviSymbol, .symbol str true)
  let pair (car cdr : NaviObj) : NaviType × Data := (.naviPair, .pair (some car) (some cdr))
  let o (n : ℕ) : NaviObj := .ptr (.obj n)
  .ofCells
    [sym "only", sym "except", sym "prefix", sym "rename", sym "lib", sym "a", sym "b", sym "c",
      -- (lib) and (a b)
      pair (o 4) .nil, pair (o 5) (o 10), pair (o 6) .nil,
      -- (b a)
      pair (o 6) (o 12), pair (o 5) .nil,
      -- (rename (lib) (a b) (b a))
      pair (o 3) (o 14), pair (o 8) (o 15), pair (o 9) (o 16), pair (o 11) .nil,
      -- (a c) and (rename (lib) (a c))
      pair (o 5) (o 18), pair (o 7) .nil, pair (o 3) (o 20), pair (o 8) (o 21), pair (o 17) .nil,
      -- (prefix (rename (lib) (a c)) b)
      pair (o 2) (o 23), pair (o 19) (o 24), pair (o 6) .nil]
    [("only", 0), ("except", 1), ("prefix", 2), ("rename", 3), ("lib", 4), ("a", 5), ("b", 6),
      ("c", 7)]
    [⟨none, []⟩, ⟨none, [⟨o 5, .fixnum 1⟩, ⟨o 6, .fixnum 2⟩]⟩, ⟨none, []⟩]
    [⟨0, true, o 8, o 9, some ⟨1, 2⟩⟩]

/-- What the library exports. -/
def importExports : List (String × NaviObj) := [("a", .fixnum 1), ("b", .fixnum 2)]

/-- The library. -/
def importLib : ImportSet := .library (.ptr (.obj 8))

/-- `(rename (lib) (a b) (b a))` -/
def importSwap : ImportSet := .rename (.ptr (.obj 13)) importLib [("a", "b"), ("b", "a")]

/-- `(prefix (rename (lib) (a c)) b)` -/
def importNested : ImportSet :=
  .prefixed (.ptr (.obj 22)) (.rename (.ptr (.obj 19)) importLib [("a", "c")]) "b"

theorem importWorld_wf : importWorld.Wf := World.wf_ofCells (by decide)

theorem importWorld_hasKeywords : importWorld.HasKeywords := by
  intro k hk
  simp only [importKeywords, List.mem_cons, List.not_mem_nil, or_false] at hk
  rcases hk with rfl | rfl | rfl | rfl
  all_goals exact ⟨_, _, rfl, rfl⟩

theorem importLib_loads :
    LibraryLoads noExternals importWorld ⟨0, 2⟩ (.ptr (.obj 8)) importWorld importExports := by
  refine ⟨0, _, ⟨1, 2⟩, _, _, Computes.evaluates fun calls => ?_, rfl, rfl,
    .cons rfl (.cons rfl .nil), .cons ?_ (.cons ?_ .nil)⟩
  · rfl
  · exact ⟨_, _, Or.inl ⟨rfl, rfl⟩, ⟨"a", _, rfl, rfl⟩, ⟨_, rfl, rfl⟩, _, rfl⟩
  · exact ⟨_, _, Or.inl ⟨rfl, rfl⟩, ⟨"b", _, rfl, rfl⟩, ⟨_, rfl, rfl⟩, _, rfl⟩

theorem importLib_reads : importLib.Reads importWorld importWorld := by
  refine ⟨_, _, _, .cons rfl .nil, ⟨_, rfl⟩, fun k hk hsym => ?_,
    fun _ h => absurd h List.not_mem_nil⟩
  have hlib : IsSym importWorld (.ptr (.obj 4)) "lib" := ⟨_, rfl, rfl⟩
  rw [hsym.name_eq importWorld_wf hlib] at hk
  simp [importKeywords] at hk

/-- A pair of names of the rename forms. -/
theorem importWorld_isRename {o c x y : NaviObj} {a b : String}
    (h₁ : IsPair importWorld o x c) (h₂ : IsPair importWorld c y .nil)
    (hx : IsSym importWorld x a) (hy : IsSym importWorld y b) : IsRename importWorld o (a, b) :=
  ⟨_, x, y, .cons h₁ (.cons h₂ .nil), hx, hy⟩

theorem importSwap_importable :
    Importable noExternals importWorld ⟨0, 2⟩ importWorld importExports importSwap := by
  refine ⟨importWorld_wf, importWorld_hasKeywords, ?_, importLib_loads, importWorld_wf, trivial,
    by decide, by decide, by decide⟩
  have hs : Spine importWorld (.ptr (.obj 13)) _ _ := .cons rfl (.cons rfl (.cons rfl (.cons rfl .nil)))
  have hps : List.Forall₂ (IsRename importWorld) [.ptr (.obj 9), .ptr (.obj 11)]
      [("a", "b"), ("b", "a")] :=
    .cons (importWorld_isRename rfl rfl ⟨_, rfl, rfl⟩ ⟨_, rfl, rfl⟩)
      (.cons (importWorld_isRename rfl rfl ⟨_, rfl, rfl⟩ ⟨_, rfl, rfl⟩) .nil)
  exact ⟨importLib_reads, _, _, _, hs, hs, ⟨_, rfl, rfl⟩, hps, hps⟩

theorem importNested_importable :
    Importable noExternals importWorld ⟨0, 2⟩ importWorld importExports importNested := by
  refine ⟨importWorld_wf, importWorld_hasKeywords, ?_, importLib_loads, importWorld_wf, trivial,
    by decide, by decide, by decide⟩
  have hs : Spine importWorld (.ptr (.obj 19)) _ _ := .cons rfl (.cons rfl (.cons rfl .nil))
  have hps : List.Forall₂ (IsRename importWorld) [.ptr (.obj 17)] [("a", "c")] :=
    .cons (importWorld_isRename rfl rfl ⟨_, rfl, rfl⟩ ⟨_, rfl, rfl⟩) .nil
  exact ⟨⟨importLib_reads, _, _, _, hs, hs, ⟨_, rfl, rfl⟩, hps, hps⟩, _, _, _,
    .cons rfl (.cons rfl (.cons rfl .nil)), ⟨_, rfl, rfl⟩, ⟨_, rfl, rfl⟩⟩

theorem importsMeaning_iff_inOrder_nested :
    Importable noExternals importWorld ⟨0, 2⟩ importWorld importExports importNested ∧
      ∀ T ∈ importNested.parts,
        ImportsMeaning noExternals importWorld ⟨0, 2⟩ (exportMap importExports) T :=
  ⟨importNested_importable, (importsMeaning_iff_inOrder importNested_importable).2 (by decide)⟩

/-- **Two names that are swapped** do not both stay: `b` is removed after it was given. -/
theorem not_importsMeaning_swap :
    Importable noExternals importWorld ⟨0, 2⟩ importWorld importExports importSwap ∧
      ¬ ImportsMeaning noExternals importWorld ⟨0, 2⟩ (exportMap importExports) importSwap := by
  refine ⟨importSwap_importable, fun h => ?_⟩
  exact absurd ((importSwap_importable.importsMeaning_rename_iff (by decide)).1 h) (by decide)

end NaviScheme
