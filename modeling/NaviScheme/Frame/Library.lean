import NaviScheme.Eval.Library
import NaviScheme.Frame.Leaf

/-!
# environment.c spares: libraries

`define-library` and `import` spare the objects that they are not given. Only `navi_import`
turns the switch of the collector.
-/

namespace NaviScheme

open Prog

variable {α : Type} {F : FnSig} {S : Addr → Prop} {G : Prop} {D : FnContract F}
  {expr proc args cons obj fst : NaviObj} {env new : NaviEnv} {objs : List NaviObj}
  {scopes : List ScopeAddr} {Q : NaviObj → Prop} {X : Externals}

attribute [local simp] EvalFn.Avoids EvalFn.objs

theorem spares_libnameEqual {bs : List NaviObj} {blast a : NaviObj} {R : Bool → Prop}
    (hbs : AllAvoid S bs) (ha : Avoids S a) (h : ∀ b, R b) :
    Spares S G D (libnameEqual bs blast a) R := by
  induction bs generalizing a with
  | nil => exact spares_pure (h _)
  | cons bcons bs ih =>
    obtain ⟨hbcons, hbs⟩ := allAvoid_cons.mp hbs
    refine spares_bind (spares_naviIsPair ha fun b => spares_ite (fun _ => ?_) fun _ => h _)
    refine spares_bind (spares_naviCar ha fun car _ => ?_)
    refine spares_bind (spares_naviCar hbcons fun bcar _ => spares_ite (fun _ => ?_) fun _ => h _)
    exact spares_bind (spares_naviCdr ha fun cdr hcdr => ih hbs hcdr)

theorem spares_findLibraryIn {pairs : List NaviObj} {last : NaviObj} {libs : List NaviLibrary}
    {R : Option NaviLibrary → Prop} (hpairs : AllAvoid S pairs) (hlibs : ∀ l ∈ libs, l.Avoids S)
    (h : ∀ r, (∀ l, r = some l → l.Avoids S) → R r) :
    Spares S G D (findLibraryIn pairs last libs) R := by
  induction libs with
  | nil => exact spares_pure (h _ (by simp))
  | cons entry rest ih =>
    obtain ⟨hentry, hrest⟩ := List.forall_mem_cons.mp hlibs
    refine spares_bind (spares_libnameEqual hpairs hentry.1 fun b =>
      spares_ite (fun _ => ?_) fun _ => ih hrest)
    exact spares_pure (h _ (by simpa using hentry))

theorem spares_findLibrary {name : NaviObj} {R : Option NaviLibrary → Prop} (hname : Avoids S name)
    (h : ∀ r, (∀ l, r = some l → l.Avoids S) → R r) : Spares S G D (findLibrary name) R :=
  spares_bind (spares_walk hname fun _ _ hpairs _ => spares_bind (spares_libraries fun _ hlibs =>
    spares_findLibraryIn hpairs hlibs h))

theorem spares_getLibrary {lib : ℕ} {R : NaviLibrary → Prop} (h : ∀ r, r.Avoids S → R r) :
    Spares S G D (getLibrary lib) R := by
  refine spares_bind (spares_libraries fun libs hlibs => ?_)
  cases hfind : libs.find? fun l => l.id = lib with
  | some l => exact spares_pure (h l (hlibs l (List.mem_of_find?_eq_some hfind)))
  | none => exact spares_fail

theorem spares_libnameParts {os : List NaviObj} {R : String → Prop} (hos : AllAvoid S os)
    (h : ∀ r, R r) : Spares S G D (libnameParts os) R := by
  induction os generalizing R with
  | nil => exact spares_pure (h _)
  | cons cons rest ih =>
    obtain ⟨hcons, hrest⟩ := allAvoid_cons.mp hos
    refine spares_bind (spares_naviCar hcons fun part hpart => ?_)
    cases part with
    | ptr a =>
      refine spares_bind (spares_load hpart fun t d _ => ?_)
      split
      · exact spares_bind (ih hrest fun parts => spares_pure (h _))
      · exact ih hrest h
    | _ => exact ih hrest h

theorem spares_libnameToPath {base : String} {name : NaviObj} {R : String → Prop}
    (hname : Avoids S name) (h : ∀ r, R r) : Spares S G D (libnameToPath base name) R :=
  spares_bind (spares_walk hname fun _ _ hpairs _ => spares_bind (spares_libnameParts hpairs
    fun _ => spares_pure (h _)))

theorem spares_libnamePartValid {part : NaviObj} {R : Bool → Prop} (hpart : Avoids S part)
    (h : ∀ r, R r) : Spares S G D (libnamePartValid part) R := by
  refine spares_bind (spares_naviType hpart fun t => spares_ite (fun _ => h _) fun _ => ?_)
  cases part <;> exact spares_pure (h _)

theorem spares_libnameValid {name : NaviObj} {R : Bool → Prop} (hname : Avoids S name)
    (h : ∀ r, R r) : Spares S G D (libnameValid name) R := by
  refine spares_bind (spares_naviIsPair hname fun b => spares_ite (fun _ => ?_) fun _ => h _)
  refine spares_bind (spares_walk hname fun pairs last hpairs _ => ?_)
  refine spares_bind (spares_cars hpairs fun os hos => ?_)
  refine spares_bind (spares_allValid (fun _ _ => spares_libnamePartValid) hos fun b => ?_)
  exact spares_ite (fun _ => h _) fun _ => h _

theorem spares_exportValid {exp : NaviObj} {R : Bool → Prop} (hexp : Avoids S exp)
    (h : ∀ r, R r) : Spares S G D (exportValid exp) R := by
  refine spares_bind (spares_naviType hexp fun t => spares_ite (fun _ => h _) fun _ => ?_)
  refine spares_bind (spares_naviIsProperList hexp fun b => spares_ite (fun _ => ?_) fun _ => h _)
  refine spares_bind (spares_naviListLength hexp fun n => spares_ite (fun _ => ?_) fun _ => h _)
  refine spares_bind (spares_naviCar hexp fun car hcar => ?_)
  refine spares_bind (spares_naviMakeSymbol fun sym _ => ?_)
  refine spares_bind (spares_naviSymbolEq hcar fun b => spares_ite (fun _ => ?_) fun _ => h _)
  refine spares_bind (spares_naviCadr hexp fun cadr hcadr => ?_)
  refine spares_bind (spares_naviType hcadr fun t => spares_ite (fun _ => ?_) fun _ => h _)
  refine spares_bind (spares_naviCaddr hexp fun caddr hcaddr => ?_)
  exact spares_bind (spares_naviType hcaddr fun t => spares_pure (h _))

theorem spares_exportsValid {exports : NaviObj} {R : Bool → Prop} (hexports : Avoids S exports)
    (h : ∀ r, R r) : Spares S G D (exportsValid exports) R := by
  refine spares_bind (spares_naviIsPair hexports fun b => spares_ite (fun _ => ?_) fun _ => h _)
  refine spares_bind (spares_elements hexports fun os hos => ?_)
  exact spares_allValid (fun _ _ => spares_exportValid) hos h

theorem spares_importValid {set : NaviObj} {R : Bool → Prop} (hset : Avoids S set)
    (h : ∀ b, R b) : Spares S G (sparing S) (importValid set objs scopes) R :=
  spares_callFn (by simp [hset]) fun b _ => h b

theorem spares_importOnlyExceptValid {R : Bool → Prop} (hargs : Avoids S args) (h : ∀ b, R b) :
    Spares S G (sparing S) (importOnlyExceptValid args) R := by
  refine spares_bind (spares_naviIsPair hargs fun b => spares_ite (fun _ => ?_) fun _ => h _)
  refine spares_bind (spares_naviCar hargs fun set hset => ?_)
  refine spares_bind (spares_importValid hset fun b => spares_ite (fun _ => ?_) fun _ => h _)
  exact spares_bind (spares_naviCdr hargs fun names hnames => spares_naviIsListOf hnames h)

theorem spares_importPrefixValid {R : Bool → Prop} (hargs : Avoids S args) (h : ∀ b, R b) :
    Spares S G (sparing S) (importPrefixValid args) R := by
  refine spares_bind (spares_naviListLength hargs fun n => spares_ite (fun _ => ?_) fun _ => h _)
  refine spares_bind (spares_naviCar hargs fun set hset => ?_)
  refine spares_bind (spares_importValid hset fun b => spares_ite (fun _ => ?_) fun _ => h _)
  refine spares_bind (spares_naviCadr hargs fun cadr hcadr => ?_)
  exact spares_bind (spares_naviType hcadr fun t => spares_pure (h _))

theorem spares_renameValid {pair : NaviObj} {R : Bool → Prop} (hpair : Avoids S pair)
    (h : ∀ b, R b) : Spares S G D (renameValid pair) R := by
  refine spares_bind (spares_naviIsListOf hpair fun b => spares_ite (fun _ => ?_) fun _ => h _)
  exact spares_bind (spares_naviListLength hpair fun n => spares_pure (h _))

theorem spares_importRenameValid {R : Bool → Prop} (hargs : Avoids S args) (h : ∀ b, R b) :
    Spares S G (sparing S) (importRenameValid args) R := by
  refine spares_bind (spares_naviIsPair hargs fun b => spares_ite (fun _ => ?_) fun _ => h _)
  refine spares_bind (spares_naviCar hargs fun set hset => ?_)
  refine spares_bind (spares_importValid hset fun b => spares_ite (fun _ => ?_) fun _ => h _)
  refine spares_bind (spares_naviCdr hargs fun cdr hcdr => ?_)
  refine spares_bind (spares_elements hcdr fun os hos => ?_)
  exact spares_allValid (fun _ _ => spares_renameValid) hos h

theorem spares_importValidBody {set : NaviObj} (hset : Avoids S set) :
    Spares S G (sparing S) (importValidBody set) fun _ => True := by
  refine spares_ite (fun _ => trivial) fun _ => ?_
  refine spares_bind (spares_naviIsProperList hset fun b =>
    spares_ite (fun _ => ?_) fun _ => trivial)
  refine spares_bind (spares_naviCar hset fun sym hsym => ?_)
  refine spares_bind (spares_naviCdr hset fun rest hrest => ?_)
  refine spares_bind (spares_naviType hsym fun t => spares_ite (fun _ => ?_) fun _ => trivial)
  refine spares_bind (spares_naviMakeSymbol fun _ _ => spares_ite (fun _ => ?_) fun _ => ?_)
  · exact spares_importOnlyExceptValid hrest fun _ => trivial
  refine spares_bind (spares_naviMakeSymbol fun _ _ => spares_ite (fun _ => ?_) fun _ => ?_)
  · exact spares_importOnlyExceptValid hrest fun _ => trivial
  refine spares_bind (spares_naviMakeSymbol fun _ _ => spares_ite (fun _ => ?_) fun _ => ?_)
  · exact spares_importPrefixValid hrest fun _ => trivial
  refine spares_bind (spares_naviMakeSymbol fun _ _ => spares_ite (fun _ => ?_) fun _ => ?_)
  · exact spares_importRenameValid hrest fun _ => trivial
  · exact spares_libnameValid hset fun _ => trivial

theorem spares_allImportsValid {sets : List NaviObj} {R : Bool → Prop} (hsets : AllAvoid S sets)
    (h : ∀ b, R b) : Spares S G (sparing S) (allImportsValid sets) R := by
  induction sets with
  | nil => exact spares_pure (h _)
  | cons set rest ih =>
    obtain ⟨hset, hrest⟩ := allAvoid_cons.mp hsets
    refine spares_bind (spares_naviIsProperList hset fun b => spares_ite (fun _ => ?_) fun _ => h _)
    exact spares_bind (spares_importValid hset fun b =>
      spares_ite (fun _ => ih hrest) fun _ => h _)

theorem spares_importsValid {imports : NaviObj} {R : Bool → Prop} (himports : Avoids S imports)
    (h : ∀ b, R b) : Spares S G (sparing S) (importsValid imports) R := by
  refine spares_bind (spares_naviIsPair himports fun b => spares_ite (fun _ => ?_) fun _ => h _)
  exact spares_bind (spares_elements himports fun os hos => spares_allImportsValid hos h)

theorem spares_declarationValid {declaration : NaviObj} {R : Bool → Prop}
    (hdeclaration : Avoids S declaration) (h : ∀ b, R b) :
    Spares S G (sparing S) (declarationValid declaration) R := by
  refine spares_bind (spares_naviCar hdeclaration fun sym hsym => ?_)
  refine spares_bind (spares_naviCdr hdeclaration fun rest hrest => ?_)
  refine spares_bind (spares_naviType hsym fun t => spares_ite (fun _ => ?_) fun _ => h _)
  refine spares_bind (spares_naviIsPair hrest fun b => spares_ite (fun _ => ?_) fun _ => h _)
  refine spares_bind (spares_naviMakeSymbol fun _ _ => spares_ite (fun _ => ?_) fun _ => ?_)
  · exact spares_exportsValid hrest h
  refine spares_bind (spares_naviMakeSymbol fun _ _ => spares_ite (fun _ => ?_) fun _ => ?_)
  · exact spares_importsValid hrest h
  · exact spares_bind (spares_naviMakeSymbol fun _ _ => h _)

theorem spares_checkDeclarations {declarations : List NaviObj} {R : Unit → Prop}
    (hdeclarations : AllAvoid S declarations) (h : R ()) :
    Spares S G (sparing S) (checkDeclarations env declarations) R := by
  induction declarations with
  | nil => exact h
  | cons declaration rest ih =>
    obtain ⟨hdeclaration, hrest⟩ := allAvoid_cons.mp hdeclarations
    have hjp : ∀ valid : Bool, Spares S G (sparing S) (if valid then checkDeclarations env rest
        else do
          let irritant ← naviMakeApair "declaration" declaration
          leaf env (naviError "invalid library declaration" [irritant])) R := by
      refine fun valid => spares_ite (fun _ => ih hrest) fun _ => ?_
      refine spares_bind (spares_naviMakeApair hdeclaration fun irritant hirritant => ?_)
      exact spares_leaf (spares_naviError (by simp [hirritant]))
    refine spares_ite (fun _ => ?_) fun _ => ?_
    · exact spares_bind (spares_pure (hjp _))
    · exact spares_bind (spares_declarationValid hdeclaration hjp)

theorem spares_checkLibrarySyntax {name declarations : NaviObj} {R : Unit → Prop}
    (hname : Avoids S name) (hdeclarations : Avoids S declarations) (h : R ()) :
    Spares S G (sparing S) (checkLibrarySyntax name declarations env) R := by
  refine spares_bind (spares_walk hdeclarations fun pairs last hpairs _ => ?_)
  refine spares_bind (spares_cars hpairs fun os hos => ?_)
  refine spares_bind (spares_allValid (fun _ _ => spares_naviIsProperList) hos fun b =>
    spares_ite (fun _ => ?_) fun _ => spares_leaf (spares_naviError (by simp)))
  refine spares_bind (spares_libnameValid hname fun b => spares_ite (fun _ => ?_) fun _ => ?_)
  · exact spares_bind (spares_elements hdeclarations fun os hos => spares_checkDeclarations hos h)
  · refine spares_bind (spares_naviMakeApair hname fun irritant hirritant => ?_)
    exact spares_leaf (spares_naviError (by simp [hirritant]))

theorem spares_defineLibrary {R : ℕ → Prop} (hargs : Avoids S args) (h : ∀ n, R n) :
    Spares S G (sparing S) (defineLibrary args env) R := by
  refine spares_bind (spares_naviCar hargs fun name hname => ?_)
  refine spares_bind (spares_naviCdr hargs fun declarations hdeclarations => ?_)
  refine spares_bind (spares_checkLibrarySyntax hname hdeclarations ?_)
  refine spares_bind (spares_naviCar hargs fun name hname => ?_)
  refine spares_bind (spares_naviCdr hargs fun declarations hdeclarations => ?_)
  exact spares_registerLibrary hname hdeclarations h

theorem spares_scmDefineLibrary (hargs : Avoids S args) :
    Spares S G (sparing S) (scmDefineLibrary args env) (Avoids S) :=
  spares_bind (spares_defineLibrary hargs fun _ => spares_pure (by simp))

theorem spares_isLibdef {R : Bool → Prop} (hobj : Avoids S obj) (h : ∀ b, R b) :
    Spares S G (sparing S) (isLibdef obj) R := by
  refine spares_bind (spares_naviIsPair hobj fun b => spares_ite (fun _ => ?_) fun _ => h _)
  refine spares_bind (spares_naviCar hobj fun car hcar => ?_)
  exact spares_bind (spares_naviMakeSymbol fun sym _ => spares_naviSymbolEq hcar h)

theorem spares_newLexicalEnvironment {R : NaviEnv → Prop} (h : ∀ r, R r) :
    Spares S G D (newLexicalEnvironment env) R :=
  spares_bind (spares_makeScope fun _ => spares_bind (spares_scopeRef (spares_pure (h _))))

theorem spares_naviListAppendIp {a b : NaviObj} {R : NaviObj → Prop} (ha : Avoids S a)
    (hb : Avoids S b) (h : ∀ r, Avoids S r → R r) : Spares S G D (naviListAppendIp a b) R := by
  refine spares_ite (fun _ => h _ hb) fun _ => spares_ite (fun _ => h _ ha) fun _ => ?_
  refine spares_bind (spares_naviLastCons ha fun last hlast => ?_)
  exact spares_bind (spares_naviSetCdr hlast hb (h _ ha))

theorem spares_loadDeclarationsBody {exports : NaviObj} (hcons : Avoids S cons)
    (hexports : Avoids S exports) :
    Spares S G (sparing S) (loadDeclarationsBody cons exports env) (Avoids S) := by
  have hnext : ∀ exports, Avoids S exports → Spares S G (sparing S) (do
      callFn (.loadDeclarations (← naviCdr cons) exports env) [] [] : Code NaviObj) (Avoids S) :=
    fun exports hexports => spares_bind (spares_naviCdr hcons fun cdr hcdr =>
      spares_callFn (by simp [hcdr, hexports]) fun _ h => h)
  refine spares_bind (spares_naviIsPair hcons fun b => spares_ite (fun _ => ?_) fun _ => hexports)
  refine spares_bind (spares_naviCaar hcons fun sym hsym => ?_)
  refine spares_bind (spares_naviCdar hcons fun rest hrest => ?_)
  refine spares_bind (spares_naviMakeSymbol fun _ _ => spares_ite (fun _ => ?_) fun _ => ?_)
  · exact spares_bind (spares_naviListAppendIp hexports hrest hnext)
  refine spares_bind (spares_naviMakeSymbol fun _ _ => spares_ite (fun _ => ?_) fun _ => ?_)
  · exact spares_bind (spares_callFn (by simp [hrest]) fun _ _ => hnext _ hexports)
  refine spares_bind (spares_naviMakeSymbol fun _ _ => spares_ite (fun _ => ?_) fun _ => ?_)
  · refine spares_bind (spares_beginLoop hrest (by simp) fun result hresult => ?_)
    refine spares_bind (spares_naviType hresult fun t => spares_ite (fun _ => ?_) fun _ => ?_)
    · exact spares_bind (spares_naviEval hresult fun _ _ => hnext _ hexports)
    · exact hnext _ hexports
  · exact hnext _ hexports

theorem spares_doLoadLibraryBody {lib : ℕ} :
    Spares S G (sparing S) (doLoadLibraryBody lib env) fun _ => True := by
  refine spares_bind (spares_getLibrary fun library hlibrary => ?_)
  refine spares_bind (spares_newLexicalEnvironment fun libEnv => ?_)
  refine spares_bind (spares_callFn (by simp [hlibrary.2]) fun exports hexports => ?_)
  exact spares_setLibrary hexports trivial

theorem spares_importBinding {libEnv : NaviEnv} {libName exportName : NaviObj} {R : Unit → Prop}
    (hlib : Avoids S libName) (hexport : Avoids S exportName) (h : R ()) :
    Spares S G (raising S) (importBinding libEnv libName exportName env) R := by
  refine spares_bind (spares_naviEnvBinding fun r hr => ?_)
  cases r with
  | some b => exact spares_naviScopeSet hexport (hr b.1 b.2 rfl) h
  | none =>
    refine spares_bind (spares_naviMakeApair hlib fun irritant hirritant => ?_)
    exact spares_naviError (by simp [hirritant])

theorem spares_importBindings {libEnv : NaviEnv} {os : List NaviObj} {R : Unit → Prop}
    (hos : AllAvoid S os) (h : R ()) :
    Spares S G (raising S) (importBindings libEnv env os) R := by
  induction os with
  | nil => exact h
  | cons exp rest ih =>
    obtain ⟨hexp, hrest⟩ := allAvoid_cons.mp hos
    refine spares_bind (spares_naviType hexp fun t => spares_ite (fun _ => ?_) fun _ => ?_)
    · exact spares_bind (spares_importBinding hexp hexp (ih hrest))
    · refine spares_bind (spares_naviCadr hexp fun libName hlib => ?_)
      refine spares_bind (spares_naviCaddr hexp fun exportName hexport => ?_)
      exact spares_bind (spares_importBinding hlib hexport (ih hrest))

theorem spares_doImportLibrary {lib : NaviLibrary} {R : NaviEnv → Prop} (hlib : lib.Avoids S)
    (h : ∀ r, R r) : Spares S G (sparing S) (doImportLibrary lib env) R := by
  refine spares_bind (spares_newLexicalEnvironment fun importEnv => ?_)
  cases lib.env with
  | some libEnv =>
    refine spares_bind (spares_leaf (spares_bind (spares_elements hlib.2 fun os hos => ?_)))
    exact spares_importBindings hos (h _)
  | none => exact spares_fail

theorem spares_removeBindings {s : ScopeAddr} {remove : NaviObj → Bool} {bs : List NaviBinding}
    {R : Unit → Prop} (h : R ()) : Spares S G D (removeBindings s remove bs) R := by
  induction bs with
  | nil => exact h
  | cons binding rest ih =>
    refine spares_ite (fun _ => ?_) fun _ => ?_
    · exact spares_bind (spares_naviScopeUnset ih)
    · exact ih

theorem spares_getImportEnv {set : NaviObj} {R : NaviEnv → Prop} (hset : Avoids S set)
    (h : ∀ r, R r) : Spares S G (sparing S) (callFn (.getImportEnv set env) objs scopes) R :=
  spares_callFn (by simp [hset]) fun r _ => h r

theorem spares_importOnly {set includes : NaviObj} {R : NaviEnv → Prop} (hset : Avoids S set)
    (hincludes : Avoids S includes) (h : ∀ r, R r) :
    Spares S G (sparing S) (importOnly set includes env) R := by
  refine spares_bind (spares_getImportEnv hset fun importEnv => ?_)
  refine spares_bind (spares_elements hincludes fun names _ => ?_)
  exact spares_bind (spares_bindings fun bs _ => spares_bind (spares_removeBindings (h _)))

theorem spares_importExcept {set excludes : NaviObj} {R : NaviEnv → Prop} (hset : Avoids S set)
    (hexcludes : Avoids S excludes) (h : ∀ r, R r) :
    Spares S G (sparing S) (importExcept set excludes env) R := by
  refine spares_bind (spares_getImportEnv hset fun importEnv => ?_)
  refine spares_bind (spares_elements hexcludes fun names _ => ?_)
  exact spares_bind (spares_bindings fun bs _ => spares_bind (spares_removeBindings (h _)))

theorem spares_symbolData {o : NaviObj} {R : String → Prop} (ho : Avoids S o) (h : ∀ r, R r) :
    Spares S G D (symbolData o) R := by
  refine spares_bind (spares_load ho fun t d _ => ?_)
  cases d with
  | symbol str interned => exact spares_pure (h _)
  | _ => exact spares_fail

theorem spares_prefixBindings {s : ScopeAddr} {prefixStr : String} {bs : List NaviBinding}
    {R : Unit → Prop} (hbs : ∀ b ∈ bs, b.Avoids S) (h : R ()) :
    Spares S G D (prefixBindings s prefixStr bs) R := by
  induction bs with
  | nil => exact h
  | cons binding rest ih =>
    obtain ⟨hbinding, hrest⟩ := List.forall_mem_cons.mp hbs
    refine spares_bind (spares_bind (spares_symbolData hbinding.1 fun str => ?_))
    refine spares_naviMakeSymbol fun symbol hsymbol => ?_
    exact spares_bind (spares_naviScopeSet hsymbol hbinding.2 (ih hrest))

theorem spares_importPrefix {set prefixSym : NaviObj} {R : NaviEnv → Prop} (hset : Avoids S set)
    (hsym : Avoids S prefixSym) (h : ∀ r, R r) :
    Spares S G (sparing S) (importPrefix set prefixSym env) R := by
  refine spares_bind (spares_symbolData hsym fun prefixStr => ?_)
  refine spares_bind (spares_getImportEnv hset fun importEnv => ?_)
  refine spares_bind (spares_newLexicalEnvironment fun prefixEnv => ?_)
  refine spares_bind (spares_bindings fun bs hbs => ?_)
  refine spares_bind (spares_prefixBindings hbs ?_)
  exact spares_bind (spares_naviEnvUnref (h _))

theorem spares_renameBindings {importEnv : NaviEnv} {os : List NaviObj} {R : Unit → Prop}
    (hos : AllAvoid S os) (h : R ()) : Spares S G (raising S) (renameBindings importEnv os) R := by
  induction os with
  | nil => exact h
  | cons cons rest ih =>
    obtain ⟨hcons, hrest⟩ := allAvoid_cons.mp hos
    refine spares_bind (spares_naviCaar hcons fun libname hlib => ?_)
    refine spares_bind (spares_naviCadar hcons fun newname hnew => ?_)
    refine spares_bind (spares_naviScopeLookup fun r hr => ?_)
    cases r with
    | none =>
      refine spares_bind (spares_naviEnvUnref ?_)
      refine spares_bind (spares_naviMakeApair hlib fun irritant hirritant => ?_)
      exact spares_naviError (by simp [hirritant])
    | some object =>
      refine spares_bind (spares_naviScopeSet hnew (by simpa using hr) ?_)
      exact spares_bind (spares_naviScopeUnset (ih hrest))

theorem spares_importRename {set renames : NaviObj} {R : NaviEnv → Prop} (hset : Avoids S set)
    (hrenames : Avoids S renames) (h : ∀ r, R r) :
    Spares S G (sparing S) (importRename set renames env) R := by
  refine spares_bind (spares_getImportEnv hset fun importEnv => ?_)
  refine spares_bind (spares_leaf (spares_bind (spares_walk hrenames fun pairs _ hpairs _ => ?_)))
  exact spares_renameBindings hpairs (h _)

theorem spares_naviImportAll {dst : ScopeAddr} {bs : List NaviBinding} {R : Unit → Prop}
    (hbs : ∀ b ∈ bs, b.Avoids S) (h : R ()) : Spares S G D (naviImportAll dst bs) R := by
  induction bs with
  | nil => exact h
  | cons binding rest ih =>
    obtain ⟨hbinding, hrest⟩ := List.forall_mem_cons.mp hbs
    exact spares_bind (spares_naviScopeSet hbinding.1 hbinding.2 (ih hrest))

theorem spares_importLoopBody (hcons : Avoids S cons) :
    Spares S G (sparing S) (importLoopBody cons env) fun _ => True := by
  refine spares_bind (spares_naviIsPair hcons fun b => spares_ite (fun _ => ?_) fun _ => trivial)
  refine spares_bind (spares_naviCar hcons fun set hset => ?_)
  refine spares_bind (spares_getImportEnv hset fun importEnv => ?_)
  refine spares_bind (spares_getGlobalScope fun dst => ?_)
  refine spares_bind (spares_bindings fun bs hbs => ?_)
  refine spares_bind (spares_naviImportAll hbs ?_)
  refine spares_bind (spares_naviEnvUnref ?_)
  refine spares_bind (spares_naviCdr hcons fun cdr hcdr => ?_)
  exact spares_callFn (by simp [hcdr]) fun _ h => h

/-- Importing turns the switch of the collector. -/
theorem spares_naviImportBody {imports : NaviObj} (hG : G) (himports : Avoids S imports) :
    Spares S G (sparing S) (naviImportBody imports env) fun _ => True := by
  refine spares_bind (spares_perform hG fun _ _ => ?_)
  refine spares_bind (spares_callFn (by simp [himports]) fun _ _ => ?_)
  exact spares_perform hG fun _ _ => trivial

theorem spares_scmImport (hargs : Avoids S args) :
    Spares S G (sparing S) (scmImport args env) (Avoids S) := by
  refine spares_bind (spares_importsValid hargs fun b => spares_ite (fun _ => ?_) fun _ => ?_)
  · exact spares_bind (spares_callFn (by simp [hargs]) fun _ _ => spares_pure (by simp))
  · exact spares_leaf (spares_naviError (by simp))

/-! ### What uses ports and other builtins -/

variable (hX : X.Spares S G)
include hX

theorem spares_tryReadLibrary {path name : NaviObj} {R : Option ℕ → Prop} (hpath : Avoids S path)
    (hname : Avoids S name) (h : ∀ r, R r) :
    Spares S G (sparing S) (tryReadLibrary X path name env) R := by
  refine spares_bind (spares_load hpath fun t d _ => ?_)
  cases d with
  | string base =>
    refine spares_bind (spares_leaf (spares_bind (spares_libnameToPath hname fun path => ?_)))
    refine (hX.naviOpenInputFile_ path).mono fun port hport => ?_
    refine spares_ite (fun _ => h _) fun _ => ?_
    refine spares_bind (spares_leaf ((hX.naviRead hport).mono fun defn hdefn => ?_))
    refine spares_bind (spares_isLibdef hdefn fun b => spares_ite (fun _ => ?_) fun _ => ?_)
    · refine spares_bind (spares_naviCdr hdefn fun cdr hcdr => ?_)
      exact spares_bind (spares_defineLibrary hcdr fun n => h _)
    · refine spares_bind (spares_naviMakeApair hname fun irritant hirritant => ?_)
      exact spares_leaf (spares_naviError (by simp [hirritant]))
  | _ => exact spares_fail

theorem spares_readLibraryFrom {name : NaviObj} {os : List NaviObj} {R : ℕ → Prop}
    (hname : Avoids S name) (hos : AllAvoid S os) (h : ∀ r, R r) :
    Spares S G (sparing S) (readLibraryFrom X name env os) R := by
  induction os with
  | nil =>
    refine spares_bind (spares_naviMakeApair hname fun irritant hirritant => ?_)
    exact spares_leaf (spares_naviError (by simp [hirritant]))
  | cons path paths ih =>
    obtain ⟨hpath, hpaths⟩ := allAvoid_cons.mp hos
    refine spares_bind (spares_tryReadLibrary hX hpath hname fun r => ?_)
    cases r with
    | some lib => exact h lib
    | none => exact ih hpaths

theorem spares_loadLibrary {name : NaviObj} {R : ℕ → Prop} (hname : Avoids S name)
    (h : ∀ r, R r) : Spares S G (sparing S) (loadLibrary X name env) R := by
  have hload : ∀ lib : ℕ, Spares S G (sparing S) (do
      callFn (.doLoadLibrary lib env) [] []
      return lib : Code ℕ) R := fun lib =>
    spares_bind (spares_callFn (by simp) fun _ _ => h _)
  refine spares_bind (spares_findLibrary hname fun r _ => ?_)
  cases r with
  | some lib => exact spares_ite (fun _ => h _) fun _ => hload _
  | none =>
    refine spares_bind (spares_bind (spares_naviMakeSymbol fun sym _ => ?_))
    refine spares_bind (spares_naviEnvLookup fun paths hpaths => ?_)
    refine spares_bind (spares_elements hpaths fun os hos => ?_)
    exact spares_readLibraryFrom hX hname hos hload

theorem spares_importLibrary {name : NaviObj} {R : NaviEnv → Prop} (hname : Avoids S name)
    (h : ∀ r, R r) : Spares S G (sparing S) (importLibrary X name env) R :=
  spares_bind (spares_loadLibrary hX hname fun _ => spares_bind (spares_getLibrary fun _ hlib =>
    spares_doImportLibrary hlib h))

theorem spares_getImportEnvBody {set : NaviObj} (hset : Avoids S set) :
    Spares S G (sparing S) (getImportEnvBody X set env) fun _ => True := by
  refine spares_bind (spares_importValid hset fun b => spares_ite (fun _ => ?_) fun _ =>
    spares_leaf (spares_naviError (by simp)))
  refine spares_bind (spares_naviCar hset fun sym _ => ?_)
  refine spares_bind (spares_naviCdr hset fun rest hrest => ?_)
  refine spares_bind (spares_naviMakeSymbol fun _ _ => spares_ite (fun _ => ?_) fun _ => ?_)
  · exact spares_bind (spares_naviCar hrest fun set hset => spares_bind (spares_naviCdr hrest
      fun names hnames => spares_importOnly hset hnames fun _ => trivial))
  refine spares_bind (spares_naviMakeSymbol fun _ _ => spares_ite (fun _ => ?_) fun _ => ?_)
  · exact spares_bind (spares_naviCar hrest fun set hset => spares_bind (spares_naviCdr hrest
      fun names hnames => spares_importExcept hset hnames fun _ => trivial))
  refine spares_bind (spares_naviMakeSymbol fun _ _ => spares_ite (fun _ => ?_) fun _ => ?_)
  · exact spares_bind (spares_naviCar hrest fun set hset => spares_bind (spares_naviCadr hrest
      fun sym hsym => spares_importPrefix hset hsym fun _ => trivial))
  refine spares_bind (spares_naviMakeSymbol fun _ _ => spares_ite (fun _ => ?_) fun _ => ?_)
  · exact spares_bind (spares_naviCar hrest fun set hset => spares_bind (spares_naviCdr hrest
      fun names hnames => spares_importRename hset hnames fun _ => trivial))
  · exact spares_importLibrary hX hset fun _ => trivial

end NaviScheme
