import NaviScheme.Eval.Library
import NaviScheme.Uniform.Binding

/-!
# environment.c, at other addresses: libraries

Libraries are told apart by their names, and those by the symbols and numbers in them.
-/

namespace NaviScheme

open Prog

variable {F : FnSig} [SMul Readdressing F.Fn] [SMul Readdressing F.Held]
  [MulAction Readdressing F.Exn] [∀ f, MulAction Readdressing (F.Ret f)]
  [RenamesFns Readdressing F]

/-! ### Names and records -/

theorem natural_libraries :
    Natural (perform .libraries : Prog evalOps F _) fun _ => perform .libraries :=
  ⟨fun _ => eq_of_heq smul_perform, heeds_perform.mpr trivial⟩

theorem natural_libnameEqual (bs : List NaviObj) (blast a : NaviObj) :
    Natural (libnameEqual bs blast a : Prog evalOps F _) fun g =>
      libnameEqual (g • bs) (g • blast) (g • a) := by
  induction bs generalizing a with
  | nil =>
    refine ⟨fun g => ?_, trivial⟩
    simp [libnameEqual]
  | cons bcons bs ih =>
    refine natural_bind (natural_naviIsPair a) fun b => natural_ite (by simp) ?_ (natural_ret _)
    refine natural_bind (natural_naviCar a) fun car => ?_
    refine natural_bind (natural_naviCar bcons) fun bcar => ?_
    refine natural_ite (by simp) ?_ (natural_ret _)
    exact natural_bind (natural_naviCdr a) fun cdr => ih cdr

theorem natural_findLibraryIn (pairs : List NaviObj) (last : NaviObj)
    (libraries : List NaviLibrary) :
    Natural (findLibraryIn pairs last libraries : Prog evalOps F _) fun g =>
      findLibraryIn (g • pairs) (g • last) (g • libraries) := by
  induction libraries with
  | nil => exact natural_ret none
  | cons entry rest ih =>
    refine natural_bind (natural_libnameEqual pairs last entry.name) fun b => ?_
    exact natural_ite (by simp) (natural_ret (some entry)) ih

theorem natural_findLibrary (name : NaviObj) :
    Natural (findLibrary name : Prog evalOps F _) fun g => findLibrary (g • name) := by
  refine natural_bind (natural_walk name) fun c => ?_
  exact natural_bind natural_libraries fun libraries => natural_findLibraryIn c.1 c.2 libraries

@[simp] theorem id_smul (g : Readdressing) (l : NaviLibrary) : (g • l).id = l.id := rfl

theorem find?_library_smul (g : Readdressing) (lib : ℕ) (libraries : List NaviLibrary) :
    (g • libraries).find? (fun l => l.id = lib) = g • libraries.find? fun l => l.id = lib := by
  induction libraries with
  | nil => rfl
  | cons l rest ih => by_cases h : l.id = lib <;> simp_all

theorem natural_getLibrary (lib : ℕ) :
    Natural (getLibrary lib : Prog evalOps F _) fun _ => getLibrary lib := by
  refine natural_bind natural_libraries fun libraries => ?_
  have hfind (g : Readdressing) :
      List.find? (fun l : NaviLibrary => l.id = lib) (g • libraries) =
        g • List.find? (fun l : NaviLibrary => l.id = lib) libraries :=
    find?_library_smul g lib libraries
  simp only [hfind]
  cases List.find? (fun l : NaviLibrary => l.id = lib) libraries with
  | none => exact natural_fail _
  | some l => exact natural_ret l

theorem natural_libnameParts (conses : List NaviObj) :
    Natural (libnameParts conses : Prog evalOps F _) fun g => libnameParts (g • conses) := by
  induction conses with
  | nil => exact natural_ret _
  | cons cons rest ih =>
    refine natural_bind (natural_naviCar cons) fun part => ?_
    cases part with
    | ptr a =>
      refine natural_bind (natural_load _) fun c => ?_
      obtain ⟨t, d⟩ := c
      cases t <;> cases d <;> first | exact ih | exact natural_bind ih fun parts => natural_ret _
    | _ => exact ih

theorem natural_libnameToPath (base : String) (name : NaviObj) :
    Natural (libnameToPath base name : Prog evalOps F _) fun g =>
      libnameToPath base (g • name) := by
  refine natural_bind (natural_walk name) fun c => ?_
  exact natural_bind (natural_libnameParts c.1) fun parts => natural_ret _

/-! ### Checks of syntax -/

theorem natural_libnamePartValid (part : NaviObj) :
    Natural (libnamePartValid part : Prog evalOps F _) fun g => libnamePartValid (g • part) := by
  refine natural_bind (natural_naviType part) fun t => natural_ite (by simp) (natural_ret _) ?_
  cases part <;> exact natural_ret _

theorem natural_libnameValid (name : NaviObj) :
    Natural (libnameValid name : Prog evalOps F _) fun g => libnameValid (g • name) := by
  refine natural_bind (natural_naviIsPair name) fun b => natural_ite (by simp) ?_ (natural_ret _)
  refine natural_bind (natural_walk name) fun c => ?_
  refine natural_bind (natural_cars c.1) fun parts => ?_
  refine natural_bind (natural_allValid natural_libnamePartValid parts) fun b =>
    natural_ite (by simp) ?_ (natural_ret _)
  refine ⟨fun g => ?_, trivial⟩
  simp

theorem natural_exportValid (exp : NaviObj) :
    Natural (exportValid exp : Prog evalOps F _) fun g => exportValid (g • exp) := by
  refine natural_bind (natural_naviType exp) fun t => natural_ite (by simp) (natural_ret _) ?_
  refine natural_bind (natural_naviIsProperList exp) fun b => natural_ite (by simp) ?_
    (natural_ret _)
  refine natural_bind (natural_naviListLength exp) fun n => natural_ite (by simp) ?_
    (natural_ret _)
  refine natural_bind (natural_naviCar exp) fun car => ?_
  refine natural_bind (natural_naviMakeSymbol _) fun sym => ?_
  refine natural_bind (natural_naviSymbolEq car sym) fun b => natural_ite (by simp) ?_
    (natural_ret _)
  refine natural_bind (natural_naviCadr exp) fun cadr => ?_
  refine natural_bind (natural_naviType cadr) fun t => natural_ite (by simp) ?_ (natural_ret _)
  refine natural_bind (natural_naviCaddr exp) fun caddr => ?_
  exact natural_bind (natural_naviType caddr) fun t => natural_ret _

theorem natural_exportsValid (exports : NaviObj) :
    Natural (exportsValid exports : Prog evalOps F _) fun g => exportsValid (g • exports) := by
  refine natural_bind (natural_naviIsPair exports) fun b => natural_ite (by simp) ?_
    (natural_ret _)
  exact natural_bind (natural_elements exports) fun os => natural_allValid natural_exportValid os

theorem natural_importValid (set : NaviObj) (objs : List NaviObj) (scopes : List ScopeAddr) :
    Natural (importValid set objs scopes) fun g => importValid (g • set) (g • objs) scopes :=
  natural_callFn _ _ _

theorem natural_importOnlyExceptValid (args : NaviObj) :
    Natural (importOnlyExceptValid args) fun g => importOnlyExceptValid (g • args) := by
  refine natural_bind (natural_naviIsPair args) fun b => natural_ite (by simp) ?_ (natural_ret _)
  refine natural_bind (natural_naviCar args) fun set => ?_
  refine natural_bind (natural_importValid set _ _) fun b => natural_ite (by simp) ?_
    (natural_ret _)
  exact natural_bind (natural_naviCdr args) fun cdr => natural_naviIsListOf cdr _ _

theorem natural_importPrefixValid (args : NaviObj) :
    Natural (importPrefixValid args) fun g => importPrefixValid (g • args) := by
  refine natural_bind (natural_naviListLength args) fun n => natural_ite (by simp) ?_
    (natural_ret _)
  refine natural_bind (natural_naviCar args) fun set => ?_
  refine natural_bind (natural_importValid set _ _) fun b => natural_ite (by simp) ?_
    (natural_ret _)
  refine natural_bind (natural_naviCadr args) fun cadr => ?_
  exact natural_bind (natural_naviType cadr) fun t => natural_ret _

theorem natural_renameValid (pair : NaviObj) :
    Natural (renameValid pair : Prog evalOps F _) fun g => renameValid (g • pair) := by
  refine natural_bind (natural_naviIsListOf pair _ _) fun b => natural_ite (by simp) ?_
    (natural_ret _)
  exact natural_bind (natural_naviListLength pair) fun n => natural_ret _

theorem natural_importRenameValid (args : NaviObj) :
    Natural (importRenameValid args) fun g => importRenameValid (g • args) := by
  refine natural_bind (natural_naviIsPair args) fun b => natural_ite (by simp) ?_ (natural_ret _)
  refine natural_bind (natural_naviCar args) fun set => ?_
  refine natural_bind (natural_importValid set _ _) fun b => natural_ite (by simp) ?_
    (natural_ret _)
  refine natural_bind (natural_naviCdr args) fun cdr => ?_
  exact natural_bind (natural_elements cdr) fun os => natural_allValid natural_renameValid os

theorem natural_importValidBody (set : NaviObj) :
    Natural (importValidBody set) fun g => importValidBody (g • set) := by
  refine natural_ite (by simp) (natural_ret _) ?_
  refine natural_bind (natural_naviIsProperList set) fun b => natural_ite (by simp) ?_
    (natural_ret _)
  refine natural_bind (natural_naviCar set) fun sym => ?_
  refine natural_bind (natural_naviCdr set) fun rest => ?_
  refine natural_bind (natural_naviType sym) fun t => natural_ite (by simp) ?_ (natural_ret _)
  refine natural_bind (natural_naviMakeSymbol _) fun only => natural_ite (by simp)
    (natural_importOnlyExceptValid rest) ?_
  refine natural_bind (natural_naviMakeSymbol _) fun except => natural_ite (by simp)
    (natural_importOnlyExceptValid rest) ?_
  refine natural_bind (natural_naviMakeSymbol _) fun pre => natural_ite (by simp)
    (natural_importPrefixValid rest) ?_
  exact natural_bind (natural_naviMakeSymbol _) fun rename => natural_ite (by simp)
    (natural_importRenameValid rest) (natural_libnameValid set)

theorem natural_allImportsValid (sets : List NaviObj) :
    Natural (allImportsValid sets) fun g => allImportsValid (g • sets) := by
  induction sets with
  | nil => exact natural_ret _
  | cons set rest ih =>
    refine natural_bind (natural_naviIsProperList set) fun b => natural_ite (by simp) ?_
      (natural_ret _)
    exact natural_bind (natural_importValid set rest []) fun b => natural_ite (by simp) ih
      (natural_ret _)

theorem natural_importsValid (imports : NaviObj) :
    Natural (importsValid imports) fun g => importsValid (g • imports) := by
  refine natural_bind (natural_naviIsPair imports) fun b => natural_ite (by simp) ?_
    (natural_ret _)
  exact natural_bind (natural_elements imports) fun sets => natural_allImportsValid sets

theorem natural_declarationValid (declaration : NaviObj) :
    Natural (declarationValid declaration) fun g => declarationValid (g • declaration) := by
  refine natural_bind (natural_naviCar declaration) fun sym => ?_
  refine natural_bind (natural_naviCdr declaration) fun rest => ?_
  refine natural_bind (natural_naviType sym) fun t => natural_ite (by simp) ?_ (natural_ret _)
  refine natural_bind (natural_naviIsPair rest) fun b => natural_ite (by simp) ?_ (natural_ret _)
  refine natural_bind (natural_naviMakeSymbol _) fun exp => natural_ite (by simp)
    (natural_exportsValid rest) ?_
  refine natural_bind (natural_naviMakeSymbol _) fun imp => natural_ite (by simp)
    (natural_importsValid rest) ?_
  refine natural_bind (natural_naviMakeSymbol _) fun begin => ⟨fun g => ?_, trivial⟩
  simp

theorem natural_checkDeclarations (env : NaviEnv) (declarations : List NaviObj) :
    Natural (checkDeclarations env declarations) fun g =>
      checkDeclarations env (g • declarations) := by
  induction declarations with
  | nil => exact natural_ret ()
  | cons declaration rest ih =>
    have hvalid (valid : Bool) : Natural (if valid then checkDeclarations env rest
        else do
          let irritant ← naviMakeApair "declaration" declaration
          leaf env (naviError "invalid library declaration" [irritant])) (fun g =>
        if g • valid then checkDeclarations env (g • rest)
        else do
          let irritant ← naviMakeApair "declaration" (g • declaration)
          leaf env (naviError "invalid library declaration" [irritant])) :=
      natural_ite (by simp) ih (natural_bind (natural_naviMakeApair _ declaration) fun irritant =>
        natural_leaf (natural_naviError _ [irritant]))
    refine natural_ite (by simp) ?_ ?_
    · exact natural_bind (natural_ret false) hvalid
    · exact natural_bind (natural_declarationValid declaration) hvalid

theorem natural_checkLibrarySyntax (name declarations : NaviObj) (env : NaviEnv) :
    Natural (checkLibrarySyntax name declarations env) fun g =>
      checkLibrarySyntax (g • name) (g • declarations) env := by
  refine natural_bind (natural_walk declarations) fun c => ?_
  refine natural_bind (natural_cars c.1) fun cars => ?_
  refine natural_bind (natural_allValid natural_naviIsProperList cars) fun b =>
    natural_ite (by simp) ?_ (natural_leaf (natural_naviError _ []))
  refine natural_bind (natural_libnameValid name) fun b => natural_ite (by simp) ?_ ?_
  · exact natural_bind (natural_elements declarations) fun os => natural_checkDeclarations env os
  · exact natural_bind (natural_naviMakeApair _ name) fun irritant =>
      natural_leaf (natural_naviError _ [irritant])

theorem natural_registerLibrary (name declarations : NaviObj) :
    Natural (perform (.registerLibrary name declarations) : Code ℕ) fun g =>
      perform (.registerLibrary (g • name) (g • declarations)) :=
  ⟨fun _ => eq_of_heq smul_perform, heeds_perform.mpr trivial⟩

theorem natural_defineLibrary (args : NaviObj) (env : NaviEnv) :
    Natural (defineLibrary args env) fun g => defineLibrary (g • args) env := by
  refine natural_bind (natural_naviCar args) fun name => ?_
  refine natural_bind (natural_naviCdr args) fun declarations => ?_
  refine natural_bind (natural_checkLibrarySyntax name declarations env) fun _ => ?_
  refine natural_bind (natural_naviCar args) fun name => ?_
  exact natural_bind (natural_naviCdr args) fun declarations =>
    natural_registerLibrary name declarations

theorem natural_scmDefineLibrary (args : NaviObj) (env : NaviEnv) :
    Natural (scmDefineLibrary args env) fun g => scmDefineLibrary (g • args) env :=
  natural_bind (natural_defineLibrary args env) fun _ => natural_ret _

/-! ### Loading a library -/

theorem natural_isLibdef (obj : NaviObj) :
    Natural (isLibdef obj) fun g => isLibdef (g • obj) := by
  refine natural_bind (natural_naviIsPair obj) fun b => natural_ite (by simp) ?_ (natural_ret _)
  refine natural_bind (natural_naviCar obj) fun car => ?_
  exact natural_bind (natural_naviMakeSymbol _) fun sym => natural_naviSymbolEq car sym

theorem natural_newLexicalEnvironment (env : NaviEnv) :
    Natural (newLexicalEnvironment env : Prog evalOps F _) fun _ => newLexicalEnvironment env := by
  refine natural_bind (natural_makeScope none) fun scope => ?_
  exact natural_bind (natural_scopeRef _) fun _ => natural_ret _

theorem natural_naviListAppendIp (a b : NaviObj) :
    Natural (naviListAppendIp a b : Prog evalOps F _) fun g =>
      naviListAppendIp (g • a) (g • b) := by
  refine natural_ite (by simp) (natural_ret b) (natural_ite (by simp) (natural_ret a) ?_)
  refine natural_bind (natural_naviLastCons a) fun last => ?_
  exact natural_bind (natural_naviSetCdr last b) fun _ => natural_ret a

theorem natural_loadDeclarationsBody (cons exports : NaviObj) (libEnv : NaviEnv) :
    Natural (loadDeclarationsBody cons exports libEnv) fun g =>
      loadDeclarationsBody (g • cons) (g • exports) libEnv := by
  have hnext : Natural (do
      callFn (.loadDeclarations (← naviCdr cons) exports libEnv) [] [] : Code NaviObj) (fun g => do
        callFn (.loadDeclarations (← naviCdr (g • cons)) (g • exports) libEnv) [] []) :=
    natural_bind (natural_naviCdr cons) fun cdr => natural_callFn _ _ _
  refine natural_bind (natural_naviIsPair cons) fun b => natural_ite (by simp) ?_
    (natural_ret exports)
  refine natural_bind (natural_naviCaar cons) fun sym => ?_
  refine natural_bind (natural_naviCdar cons) fun rest => ?_
  refine natural_bind (natural_naviMakeSymbol _) fun exp => natural_ite (by simp) ?_ ?_
  · refine natural_bind (natural_naviListAppendIp exports rest) fun exports => ?_
    exact natural_bind (natural_naviCdr cons) fun cdr => natural_callFn _ _ _
  refine natural_bind (natural_naviMakeSymbol _) fun imp => natural_ite (by simp) ?_ ?_
  · exact natural_bind_unit (natural_callFn _ _ _) fun _ => hnext
  refine natural_bind (natural_naviMakeSymbol _) fun begin => natural_ite (by simp) ?_ hnext
  refine natural_bind_obj (natural_callFn _ _ _) fun result => ?_
  refine natural_bind (natural_naviType result) fun t => natural_ite (by simp) ?_ hnext
  exact natural_bind (natural_naviEval result _ _ _) fun _ => hnext

theorem natural_setLibrary (lib : ℕ) (exports : NaviObj) (env : NaviEnv) :
    Natural (perform (.setLibrary lib exports env) : Code Unit) fun g =>
      perform (.setLibrary lib (g • exports) env) :=
  ⟨fun _ => eq_of_heq smul_perform, heeds_perform.mpr trivial⟩

theorem natural_doLoadLibraryBody (lib : ℕ) (env : NaviEnv) :
    Natural (doLoadLibraryBody lib env) fun _ => doLoadLibraryBody lib env := by
  refine natural_bind (natural_getLibrary lib) fun library => ?_
  refine natural_bind (natural_newLexicalEnvironment env) fun libEnv => ?_
  refine natural_bind_obj (natural_callFn _ _ _) fun exports => ?_
  exact natural_setLibrary lib exports libEnv

/-! ### Importing -/

theorem natural_importBinding (libEnv : NaviEnv) (libName exportName : NaviObj)
    (env : NaviEnv) :
    Natural (importBinding libEnv libName exportName env) fun g =>
      importBinding libEnv (g • libName) (g • exportName) env := by
  refine natural_bind (natural_naviEnvBinding _ libName) fun r => ?_
  rcases r with _ | ⟨s, o⟩
  · exact natural_bind (natural_naviMakeApair _ libName) fun irritant =>
      natural_naviError _ [irritant]
  · exact natural_naviScopeSet _ exportName o

theorem natural_importBindings (libEnv env : NaviEnv) (exports : List NaviObj) :
    Natural (importBindings libEnv env exports) fun g =>
      importBindings libEnv env (g • exports) := by
  induction exports with
  | nil => exact natural_ret ()
  | cons exp rest ih =>
    refine natural_bind (natural_naviType exp) fun t => natural_ite (by simp) ?_ ?_
    · exact natural_bind (natural_importBinding libEnv exp exp env) fun _ => ih
    · refine natural_bind (natural_naviCadr exp) fun libName => ?_
      refine natural_bind (natural_naviCaddr exp) fun exportName => ?_
      exact natural_bind (natural_importBinding libEnv libName exportName env) fun _ => ih

theorem natural_doImportLibrary (lib : NaviLibrary) (env : NaviEnv) :
    Natural (doImportLibrary lib env) fun g => doImportLibrary (g • lib) env := by
  obtain ⟨id, loaded, name, list, libEnv⟩ := lib
  refine natural_bind (natural_newLexicalEnvironment env) fun importEnv => ?_
  cases libEnv with
  | none => exact natural_fail _
  | some libEnv =>
    refine natural_bind (natural_leaf ?_) fun _ => natural_ret _
    exact natural_bind (natural_elements list) fun os => natural_importBindings libEnv _ os

theorem natural_removeBindings (s : ScopeAddr) {remove : NaviObj → Bool}
    {remove' : Readdressing → NaviObj → Bool} (h : ∀ g o, remove' g (g • o) = remove o)
    (bs : List NaviBinding) :
    Natural (removeBindings s remove bs : Prog evalOps F _) fun g =>
      removeBindings s (remove' g) (g • bs) := by
  induction bs with
  | nil => exact natural_ret ()
  | cons binding rest ih =>
    refine natural_ite (by simp [h]) ?_ ?_
    · exact natural_bind (natural_naviScopeUnset s binding.symbol) fun _ => ih
    · exact ih

theorem natural_importOnly (set includes : NaviObj) (env : NaviEnv) :
    Natural (importOnly set includes env) fun g => importOnly (g • set) (g • includes) env := by
  refine natural_bind (natural_callFn (.getImportEnv set env) _ _) fun importEnv => ?_
  refine natural_bind (natural_elements includes) fun names => ?_
  refine natural_bind (natural_bindings _) fun bs => ?_
  refine natural_bind (natural_removeBindings _ (fun g o => ?_) bs) fun _ => natural_ret _
  simp

theorem natural_importExcept (set excludes : NaviObj) (env : NaviEnv) :
    Natural (importExcept set excludes env) fun g =>
      importExcept (g • set) (g • excludes) env := by
  refine natural_bind (natural_callFn (.getImportEnv set env) _ _) fun importEnv => ?_
  refine natural_bind (natural_elements excludes) fun names => ?_
  refine natural_bind (natural_bindings _) fun bs => ?_
  refine natural_bind (natural_removeBindings _ (fun g o => ?_) bs) fun _ => natural_ret _
  simp

theorem natural_symbolData (o : NaviObj) :
    Natural (symbolData o : Prog evalOps F _) fun g => symbolData (g • o) := by
  refine natural_bind (natural_load o) fun c => ?_
  obtain ⟨t, d⟩ := c
  cases d with
  | symbol str interned => exact natural_ret _
  | _ => exact natural_fail _

theorem natural_addPrefix (prefixStr : String) (symbol : NaviObj) :
    Natural (addPrefix prefixStr symbol : Prog evalOps F _) fun g =>
      addPrefix prefixStr (g • symbol) :=
  natural_bind (natural_symbolData symbol) fun _ => natural_naviMakeSymbol _

theorem natural_prefixBindings (s : ScopeAddr) (prefixStr : String) (bs : List NaviBinding) :
    Natural (prefixBindings s prefixStr bs : Prog evalOps F _) fun g =>
      prefixBindings s prefixStr (g • bs) := by
  induction bs with
  | nil => exact natural_ret ()
  | cons binding rest ih =>
    refine natural_bind (natural_addPrefix prefixStr binding.symbol) fun symbol => ?_
    exact natural_bind (natural_naviScopeSet s symbol binding.object) fun _ => ih

theorem natural_importPrefix (set prefixSym : NaviObj) (env : NaviEnv) :
    Natural (importPrefix set prefixSym env) fun g =>
      importPrefix (g • set) (g • prefixSym) env := by
  refine natural_bind (natural_symbolData prefixSym) fun prefixStr => ?_
  refine natural_bind (natural_callFn (.getImportEnv set env) _ _) fun importEnv => ?_
  refine natural_bind (natural_newLexicalEnvironment _) fun prefixEnv => ?_
  refine natural_bind (natural_bindings _) fun bs => ?_
  refine natural_bind (natural_prefixBindings _ prefixStr bs) fun _ => ?_
  exact natural_bind (natural_naviEnvUnref _) fun _ => natural_ret _

theorem natural_renameBindings (importEnv : NaviEnv) (pairs : List NaviObj) :
    Natural (renameBindings importEnv pairs) fun g => renameBindings importEnv (g • pairs) := by
  induction pairs with
  | nil => exact natural_ret ()
  | cons cons rest ih =>
    refine natural_bind (natural_naviCaar cons) fun libname => ?_
    refine natural_bind (natural_naviCadar cons) fun newname => ?_
    refine natural_bind (natural_naviScopeLookup _ libname) fun r => ?_
    rcases r with _ | object
    · refine natural_bind (natural_naviEnvUnref importEnv) fun _ => ?_
      exact natural_bind (natural_naviMakeApair _ libname) fun irritant =>
        natural_naviError _ [irritant]
    · refine natural_bind (natural_naviScopeSet _ newname object) fun _ => ?_
      exact natural_bind (natural_naviScopeUnset _ libname) fun _ => ih

theorem natural_importRename (set renames : NaviObj) (env : NaviEnv) :
    Natural (importRename set renames env) fun g =>
      importRename (g • set) (g • renames) env := by
  refine natural_bind (natural_callFn (.getImportEnv set env) _ _) fun importEnv => ?_
  refine natural_bind (natural_leaf ?_) fun _ => natural_ret _
  exact natural_bind (natural_walk renames) fun c => natural_renameBindings _ c.1

theorem natural_naviImportAll (dst : ScopeAddr) (bs : List NaviBinding) :
    Natural (naviImportAll dst bs : Prog evalOps F _) fun g => naviImportAll dst (g • bs) := by
  induction bs with
  | nil => exact natural_ret ()
  | cons binding rest ih =>
    exact natural_bind (natural_naviScopeSet dst binding.symbol binding.object) fun _ => ih

theorem natural_importLoopBody (cons : NaviObj) (env : NaviEnv) :
    Natural (importLoopBody cons env) fun g => importLoopBody (g • cons) env := by
  refine natural_bind (natural_naviIsPair cons) fun b => natural_ite (by simp) ?_ (natural_ret ())
  refine natural_bind (natural_naviCar cons) fun set => ?_
  refine natural_bind (natural_callFn (.getImportEnv set env) _ _) fun importEnv => ?_
  refine natural_bind (natural_getGlobalScope _) fun dst => ?_
  refine natural_bind (natural_bindings _) fun bs => ?_
  refine natural_bind (natural_naviImportAll dst bs) fun _ => ?_
  refine natural_bind (natural_naviEnvUnref _) fun _ => ?_
  exact natural_bind (natural_naviCdr cons) fun cdr => natural_callFn _ _ _

theorem natural_gcDisable :
    Natural (perform .gcDisable : Code Unit) fun _ => perform .gcDisable :=
  ⟨fun _ => eq_of_heq smul_perform, heeds_perform.mpr trivial⟩

theorem natural_gcEnable :
    Natural (perform .gcEnable : Code Unit) fun _ => perform .gcEnable :=
  ⟨fun _ => eq_of_heq smul_perform, heeds_perform.mpr trivial⟩

theorem natural_naviImportBody (imports : NaviObj) (env : NaviEnv) :
    Natural (naviImportBody imports env) fun g => naviImportBody (g • imports) env := by
  refine natural_bind natural_gcDisable fun _ => ?_
  exact natural_bind_unit (natural_callFn _ _ _) fun _ => natural_gcEnable

theorem natural_scmImport (args : NaviObj) (env : NaviEnv) :
    Natural (scmImport args env) fun g => scmImport (g • args) env := by
  refine natural_bind (natural_importsValid args) fun b => natural_ite (by simp) ?_
    (natural_leaf (natural_naviError _ []))
  exact natural_bind_unit (natural_callFn _ _ _) fun _ => natural_ret _

/-! ### What uses ports -/

section Ports

variable {X : Externals} (hX : X.Natural)
include hX

theorem natural_openLibFile (base : String) (name : NaviObj) :
    Natural (openLibFile X base name) fun g => openLibFile X base (g • name) :=
  natural_bind (natural_libnameToPath base name) fun path => hX.naviOpenInputFile_ path

theorem natural_tryReadLibrary (path name : NaviObj) (env : NaviEnv) :
    Natural (tryReadLibrary X path name env) fun g =>
      tryReadLibrary X (g • path) (g • name) env := by
  refine natural_bind (natural_load path) fun c => ?_
  obtain ⟨t, d⟩ := c
  cases d with
  | string base =>
    refine natural_bind (natural_leaf (natural_openLibFile hX base name)) fun port => ?_
    refine natural_ite (by simp) (natural_ret _) ?_
    refine natural_bind (natural_leaf (hX.naviRead port)) fun defn => ?_
    refine natural_bind (natural_isLibdef defn) fun b => natural_ite (by simp) ?_ ?_
    · refine natural_bind (natural_naviCdr defn) fun cdr => ?_
      exact natural_bind (natural_defineLibrary cdr env) fun lib => natural_ret _
    · exact natural_bind (natural_naviMakeApair _ name) fun irritant =>
        natural_leaf (natural_naviError _ [irritant])
  | _ => exact natural_fail _

theorem natural_readLibraryFrom (name : NaviObj) (env : NaviEnv) (paths : List NaviObj) :
    Natural (readLibraryFrom X name env paths) fun g =>
      readLibraryFrom X (g • name) env (g • paths) := by
  induction paths with
  | nil =>
    exact natural_bind (natural_naviMakeApair _ name) fun irritant =>
      natural_leaf (natural_naviError _ [irritant])
  | cons path paths ih =>
    refine natural_bind (natural_tryReadLibrary hX path name env) fun lib => ?_
    cases lib with
    | none => exact ih
    | some lib => exact natural_ret _

theorem natural_readLibrary (name : NaviObj) (env : NaviEnv) :
    Natural (readLibrary X name env) fun g => readLibrary X (g • name) env := by
  refine natural_bind (natural_naviMakeSymbol _) fun sym => ?_
  refine natural_bind (natural_naviEnvLookup _ sym) fun paths => ?_
  exact natural_bind (natural_elements paths) fun os => natural_readLibraryFrom hX name env os

theorem natural_loadLibrary (name : NaviObj) (env : NaviEnv) :
    Natural (loadLibrary X name env) fun g => loadLibrary X (g • name) env := by
  refine natural_bind (natural_findLibrary name) fun lib => ?_
  rcases lib with _ | ⟨id, loaded, name', list, libEnv⟩
  · refine natural_bind (natural_readLibrary hX name env) fun lib => ?_
    exact natural_bind_unit (natural_callFn _ _ _) fun _ => natural_ret _
  · refine natural_ite (fun _ => .rfl) (natural_ret _) ?_
    exact natural_bind_unit (natural_callFn _ _ _) fun _ => natural_ret _

theorem natural_importLibrary (name : NaviObj) (env : NaviEnv) :
    Natural (importLibrary X name env) fun g => importLibrary X (g • name) env := by
  refine natural_bind (natural_loadLibrary hX name env) fun lib => ?_
  exact natural_bind (natural_getLibrary _) fun lib => natural_doImportLibrary lib env

theorem natural_getImportEnvBody (set : NaviObj) (env : NaviEnv) :
    Natural (getImportEnvBody X set env) fun g => getImportEnvBody X (g • set) env := by
  refine natural_bind (natural_importValid set _ _) fun b => natural_ite (by simp) ?_
    (natural_leaf (natural_naviError _ []))
  refine natural_bind (natural_naviCar set) fun sym => ?_
  refine natural_bind (natural_naviCdr set) fun rest => ?_
  refine natural_bind (natural_naviMakeSymbol _) fun only => natural_ite (by simp) ?_ ?_
  · refine natural_bind (natural_naviCar rest) fun set => ?_
    exact natural_bind (natural_naviCdr rest) fun names => natural_importOnly set names env
  refine natural_bind (natural_naviMakeSymbol _) fun except => natural_ite (by simp) ?_ ?_
  · refine natural_bind (natural_naviCar rest) fun set => ?_
    exact natural_bind (natural_naviCdr rest) fun names => natural_importExcept set names env
  refine natural_bind (natural_naviMakeSymbol _) fun pre => natural_ite (by simp) ?_ ?_
  · refine natural_bind (natural_naviCar rest) fun set => ?_
    exact natural_bind (natural_naviCadr rest) fun sym => natural_importPrefix set sym env
  refine natural_bind (natural_naviMakeSymbol _) fun rename => natural_ite (by simp) ?_ ?_
  · refine natural_bind (natural_naviCar rest) fun set => ?_
    exact natural_bind (natural_naviCdr rest) fun names => natural_importRename set names env
  · exact natural_importLibrary hX set env

end Ports

end NaviScheme
