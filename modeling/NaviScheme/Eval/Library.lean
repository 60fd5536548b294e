import NaviScheme.Eval.Binding

/-!
# environment.c: libraries

`define-library` and `import`. The buckets of the table of libraries are one list: libraries
whose names are equal would share a bucket.
-/

namespace NaviScheme

variable {α : Type} {F : FnSig} (X : Externals)

/-! ### Names and records -/

/-- `libname_equal`, given the pairs of `b` and what ends it. -/
def libnameEqual : List NaviObj → NaviObj → NaviObj → Prog evalOps F Bool
  | [], blast, a => return a = .nil && blast = .nil
  | bcons :: bs, blast, a => do
    if ← naviIsPair a then
      if (← naviCar a) = (← naviCar bcons) then libnameEqual bs blast (← naviCdr a)
      else return false
    else return false

/-- The loop of `find_library`. -/
def findLibraryIn (pairs : List NaviObj) (last : NaviObj) :
    List NaviLibrary → Prog evalOps F (Option NaviLibrary)
  | [] => return none
  | entry :: rest => do
    if ← libnameEqual pairs last entry.name then return some entry
    else findLibraryIn pairs last rest

/-- `find_library` -/
def findLibrary (name : NaviObj) : Prog evalOps F (Option NaviLibrary) := do
  let (pairs, last) ← walk name
  findLibraryIn pairs last (← perform .libraries)

/-- The record of a library, by its address. -/
def getLibrary (lib : ℕ) : Prog evalOps F NaviLibrary := do
  match (← perform .libraries).find? fun l => l.id = lib with
  | some l => return l
  | none => fail .badWord

/-- The names of the symbols of a library name, for `libname_to_path`. -/
def libnameParts : List NaviObj → Prog evalOps F String
  | [] => return ""
  | cons :: rest => do
    let part ← naviCar cons
    match part with
    | .ptr a =>
      match ← load (.ptr a) with
      | (.naviSymbol, .symbol str _) => do
        let parts ← libnameParts rest
        return "/" ++ str.map (fun c => if c = '/' then '_' else c) ++ parts
      | _ => libnameParts rest
    | _ => libnameParts rest

/-- `libname_to_path` -/
def libnameToPath (base : String) (name : NaviObj) : Prog evalOps F String := do
  let parts ← libnameParts (← walk name).1
  return base ++ parts ++ ".scm"

/-- `open_lib_file` -/
def openLibFile (base : String) (name : NaviObj) : Leaf NaviObj := do
  X.naviOpenInputFile_ (← libnameToPath base name)

/-! ### Checks of syntax -/

/-- One part, for `libname_valid`. -/
def libnamePartValid (part : NaviObj) : Prog evalOps F Bool := do
  if (← naviType part) = .naviSymbol then return true
  else
    match part with
    | .fixnum n => return 0 ≤ n
    | _ => return false

/-- `libname_valid` -/
def libnameValid (name : NaviObj) : Prog evalOps F Bool := do
  if ← naviIsPair name then
    let (pairs, last) ← walk name
    if ← allValid libnamePartValid (← cars pairs) then return last = .nil else return false
  else return false

/-- One export, for `exports_valid`. -/
def exportValid (exp : NaviObj) : Prog evalOps F Bool := do
  if (← naviType exp) = .naviSymbol then return true
  else if ← naviIsProperList exp then
    if (← naviListLength exp) = 3 then
      if ← naviSymbolEq (← naviCar exp) (← naviMakeSymbol "rename") then
        if (← naviType (← naviCadr exp)) = .naviSymbol then
          return (← naviType (← naviCaddr exp)) = .naviSymbol
        else return false
      else return false
    else return false
  else return false

/-- `exports_valid` -/
def exportsValid (exports : NaviObj) : Prog evalOps F Bool := do
  if ← naviIsPair exports then allValid exportValid (← elements exports) else return false

/-- `import_valid`; the locals that the caller will use are `objs` and `scopes`. -/
def importValid (set : NaviObj) (objs : List NaviObj) (scopes : List ScopeAddr) : Code Bool :=
  callFn (.importValid set) objs scopes

/-- `import_only_except_valid` -/
def importOnlyExceptValid (args : NaviObj) : Code Bool := do
  if ← naviIsPair args then
    if ← importValid (← naviCar args) [args] [] then
      naviIsListOf (← naviCdr args) .naviSymbol false
    else return false
  else return false

/-- `import_prefix_valid` -/
def importPrefixValid (args : NaviObj) : Code Bool := do
  if (← naviListLength args) = 2 then
    if ← importValid (← naviCar args) [args] [] then
      return (← naviType (← naviCadr args)) = .naviSymbol
    else return false
  else return false

/-- One pair of names, for `import_rename_valid`. -/
def renameValid (pair : NaviObj) : Prog evalOps F Bool := do
  if ← naviIsListOf pair .naviSymbol false then return (← naviListLength pair) = 2
  else return false

/-- `import_rename_valid` -/
def importRenameValid (args : NaviObj) : Code Bool := do
  if ← naviIsPair args then
    if ← importValid (← naviCar args) [args] [] then
      allValid renameValid (← elements (← naviCdr args))
    else return false
  else return false

/-- `import_valid` -/
def importValidBody (set : NaviObj) : Code Bool := do
  if set = .nil then return false
  else if ← naviIsProperList set then
    let sym ← naviCar set
    let rest ← naviCdr set
    if (← naviType sym) = .naviSymbol then
      if sym = (← naviMakeSymbol "only") then importOnlyExceptValid rest
      else if sym = (← naviMakeSymbol "except") then importOnlyExceptValid rest
      else if sym = (← naviMakeSymbol "prefix") then importPrefixValid rest
      else if sym = (← naviMakeSymbol "rename") then importRenameValid rest
      else libnameValid set
    else return false
  else return false

/-- The loop of `imports_valid`. -/
def allImportsValid : List NaviObj → Code Bool
  | [] => return true
  | set :: rest => do
    if ← naviIsProperList set then
      if ← importValid set rest [] then allImportsValid rest else return false
    else return false

/-- `imports_valid` -/
def importsValid (imports : NaviObj) : Code Bool := do
  if ← naviIsPair imports then allImportsValid (← elements imports) else return false

/-- `declaration_valid` -/
def declarationValid (declaration : NaviObj) : Code Bool := do
  let sym ← naviCar declaration
  let rest ← naviCdr declaration
  if (← naviType sym) = .naviSymbol then
    if ← naviIsPair rest then
      if sym = (← naviMakeSymbol "export") then exportsValid rest
      else if sym = (← naviMakeSymbol "import") then importsValid rest
      else return sym = (← naviMakeSymbol "begin")
    else return false
  else return false

/-- The loop of `check_library_syntax`. -/
def checkDeclarations (env : NaviEnv) : List NaviObj → Code Unit
  | [] => return ()
  | declaration :: rest => do
    let valid ← if declaration = .nil then pure false else declarationValid declaration
    if valid then checkDeclarations env rest
    else
      let irritant ← naviMakeApair "declaration" declaration
      leaf env (naviError "invalid library declaration" [irritant])

/-- Whether all objects are proper lists. -/
def allProper : List NaviObj → Prog evalOps F Bool := allValid naviIsProperList

/-- `check_library_syntax` -/
def checkLibrarySyntax (name declarations : NaviObj) (env : NaviEnv) : Code Unit := do
  let (pairs, last) ← walk declarations
  if (← allProper (← cars pairs)) && last = .nil then
    if ← libnameValid name then checkDeclarations env (← elements declarations)
    else
      let irritant ← naviMakeApair "name" name
      leaf env (naviError "invalid library name" [irritant])
  else leaf env (naviError "invalid library definition" [])

/-- `define_library` -/
def defineLibrary (args : NaviObj) (env : NaviEnv) : Code ℕ := do
  checkLibrarySyntax (← naviCar args) (← naviCdr args) env
  perform (.registerLibrary (← naviCar args) (← naviCdr args))

/-- `define-library` -/
def scmDefineLibrary (args : NaviObj) (env : NaviEnv) : Code NaviObj := do
  let _ ← defineLibrary args env
  return .void

/-! ### Loading a library -/

/-- `is_libdef` -/
def isLibdef (obj : NaviObj) : Code Bool := do
  if ← naviIsPair obj then naviSymbolEq (← naviCar obj) (← naviMakeSymbol "define-library")
  else return false

/-- `try_read_library` -/
def tryReadLibrary (path name : NaviObj) (env : NaviEnv) : Code (Option ℕ) := do
  match (← load path).2 with
  | .string base =>
    let port ← leaf env (openLibFile X base name)
    if port = .void then return none
    else
      let defn ← leaf env (X.naviRead port)
      if ← isLibdef defn then
        let lib ← defineLibrary (← naviCdr defn) env
        return some lib
      else
        let irritant ← naviMakeApair "library" name
        leaf env (naviError "error reading library" [irritant])
  | _ => fail .badWord

/-- The loop of `read_library`. -/
def readLibraryFrom (name : NaviObj) (env : NaviEnv) : List NaviObj → Code ℕ
  | [] => do
    let irritant ← naviMakeApair "library" name
    leaf env (naviError "library not found" [irritant])
  | path :: paths => do
    match ← tryReadLibrary X path name env with
    | some lib => return lib
    | none => readLibraryFrom name env paths

/-- `read_library` -/
def readLibrary (name : NaviObj) (env : NaviEnv) : Code ℕ := do
  let paths ← naviEnvLookup env.dynamic (← naviMakeSymbol "#lib-search-paths")
  readLibraryFrom X name env (← elements paths)

/-- `new_lexical_environment` -/
def newLexicalEnvironment (env : NaviEnv) : Prog evalOps F NaviEnv := do
  let scope ← perform (.makeScope none)
  scopeRef env.dynamic
  return ⟨scope, env.dynamic⟩

/-- `navi_list_append_ip` -/
def naviListAppendIp (a b : NaviObj) : Prog evalOps F NaviObj := do
  if a = .nil then return b
  else if b = .nil then return a
  else
    naviSetCdr (← naviLastCons a) b
    return a

/-- The loop of `do_load_library`. -/
def loadDeclarationsBody (cons exports : NaviObj) (libEnv : NaviEnv) : Code NaviObj := do
  if ← naviIsPair cons then
    let sym ← naviCaar cons
    let rest ← naviCdar cons
    if sym = (← naviMakeSymbol "export") then
      let exports ← naviListAppendIp exports rest
      callFn (.loadDeclarations (← naviCdr cons) exports libEnv) [] []
    else if sym = (← naviMakeSymbol "import") then
      callFn (.naviImport rest libEnv) [cons, exports] libEnv.scopes
      callFn (.loadDeclarations (← naviCdr cons) exports libEnv) [] []
    else if sym = (← naviMakeSymbol "begin") then
      let result ← callFn (.beginLoop rest none libEnv) [cons, exports] libEnv.scopes
      if (← naviType result) = .naviBounce then
        let _ ← naviEval result libEnv [cons, exports] libEnv.scopes
        callFn (.loadDeclarations (← naviCdr cons) exports libEnv) [] []
      else callFn (.loadDeclarations (← naviCdr cons) exports libEnv) [] []
    else callFn (.loadDeclarations (← naviCdr cons) exports libEnv) [] []
  else return exports

/-- `do_load_library` -/
def doLoadLibraryBody (lib : ℕ) (env : NaviEnv) : Code Unit := do
  let library ← getLibrary lib
  let libEnv ← newLexicalEnvironment env
  let exports ← callFn (.loadDeclarations library.list .nil libEnv) [] libEnv.scopes
  perform (.setLibrary lib exports libEnv)

/-- `load_library` -/
def loadLibrary (name : NaviObj) (env : NaviEnv) : Code ℕ := do
  match ← findLibrary name with
  | some lib =>
    if lib.loaded then return lib.id
    else
      callFn (.doLoadLibrary lib.id env) [] []
      return lib.id
  | none =>
    let lib ← readLibrary X name env
    callFn (.doLoadLibrary lib env) [] []
    return lib

/-! ### Importing -/

/-- `import_binding` -/
def importBinding (libEnv : NaviEnv) (libName exportName : NaviObj) (env : NaviEnv) :
    Leaf Unit := do
  match ← naviEnvBinding libEnv.lexical libName with
  | some (_, object) => naviScopeSet env.lexical exportName object
  | none => naviError "identifier not found in library" [← naviMakeApair "identifier" libName]

/-- The loop of `do_import_library`. -/
def importBindings (libEnv env : NaviEnv) : List NaviObj → Leaf Unit
  | [] => return ()
  | exp :: rest => do
    if (← naviType exp) = .naviSymbol then importBinding libEnv exp exp env
    else importBinding libEnv (← naviCadr exp) (← naviCaddr exp) env
    importBindings libEnv env rest

/-- `do_import_library` -/
def doImportLibrary (lib : NaviLibrary) (env : NaviEnv) : Code NaviEnv := do
  let importEnv ← newLexicalEnvironment env
  match lib.env with
  | some libEnv => do
    -- the errors of `import_binding` are raised in `import_env`
    leaf importEnv (do importBindings libEnv importEnv (← elements lib.list))
    return importEnv
  | none => fail .badWord

/-- `import_library` -/
def importLibrary (name : NaviObj) (env : NaviEnv) : Code NaviEnv := do
  let lib ← loadLibrary X name env
  doImportLibrary (← getLibrary lib) env

/-- Removing the bindings whose symbols satisfy a test. -/
def removeBindings (s : ScopeAddr) (remove : NaviObj → Bool) :
    List NaviBinding → Prog evalOps F Unit
  | [] => return ()
  | binding :: rest => do
    if remove binding.symbol then naviScopeUnset s binding.symbol else pure ()
    removeBindings s remove rest

/-- `import_only` -/
def importOnly (set includes : NaviObj) (env : NaviEnv) : Code NaviEnv := do
  let importEnv ← callFn (.getImportEnv set env) [includes] env.scopes
  let names ← elements includes
  removeBindings importEnv.lexical (fun symbol => symbol ∉ names)
    (← perform (.bindings importEnv.lexical))
  return importEnv

/-- `import_except` -/
def importExcept (set excludes : NaviObj) (env : NaviEnv) : Code NaviEnv := do
  let importEnv ← callFn (.getImportEnv set env) [excludes] env.scopes
  let names ← elements excludes
  removeBindings importEnv.lexical (fun symbol => symbol ∈ names)
    (← perform (.bindings importEnv.lexical))
  return importEnv

/-- `navi_symbol(o)->data` -/
def symbolData (o : NaviObj) : Prog evalOps F String := do
  match (← load o).2 with
  | .symbol str _ => return str
  | _ => fail .badWord

/-- `add_prefix` -/
def addPrefix (prefixStr : String) (symbol : NaviObj) : Prog evalOps F NaviObj := do
  naviMakeSymbol (prefixStr ++ (← symbolData symbol))

/-- The loop of `import_prefix`. -/
def prefixBindings (s : ScopeAddr) (prefixStr : String) :
    List NaviBinding → Prog evalOps F Unit
  | [] => return ()
  | binding :: rest => do
    naviScopeSet s (← addPrefix prefixStr binding.symbol) binding.object
    prefixBindings s prefixStr rest

/-- `import_prefix` -/
def importPrefix (set prefixSym : NaviObj) (env : NaviEnv) : Code NaviEnv := do
  let prefixStr ← symbolData prefixSym
  let importEnv ← callFn (.getImportEnv set env) [] env.scopes
  let prefixEnv ← newLexicalEnvironment importEnv
  prefixBindings prefixEnv.lexical prefixStr (← perform (.bindings importEnv.lexical))
  naviEnvUnref importEnv
  return prefixEnv

/-- The loop of `import_rename`. -/
def renameBindings (importEnv : NaviEnv) : List NaviObj → Leaf Unit
  | [] => return ()
  | cons :: rest => do
    let libname ← naviCaar cons
    let newname ← naviCadar cons
    match ← naviScopeLookup importEnv.lexical libname with
    | none =>
      naviEnvUnref importEnv
      naviError "unbound identifier" [← naviMakeApair "identifier" libname]
    | some object => do
      naviScopeSet importEnv.lexical newname object
      naviScopeUnset importEnv.lexical libname
      renameBindings importEnv rest

/-- `import_rename` -/
def importRename (set renames : NaviObj) (env : NaviEnv) : Code NaviEnv := do
  let importEnv ← callFn (.getImportEnv set env) [renames] env.scopes
  leaf env (do renameBindings importEnv (← walk renames).1)
  return importEnv

/-- `get_import_env` -/
def getImportEnvBody (set : NaviObj) (env : NaviEnv) : Code NaviEnv := do
  if ← importValid set [set] env.scopes then
    let sym ← naviCar set
    let rest ← naviCdr set
    if sym = (← naviMakeSymbol "only") then importOnly (← naviCar rest) (← naviCdr rest) env
    else if sym = (← naviMakeSymbol "except") then
      importExcept (← naviCar rest) (← naviCdr rest) env
    else if sym = (← naviMakeSymbol "prefix") then
      importPrefix (← naviCar rest) (← naviCadr rest) env
    else if sym = (← naviMakeSymbol "rename") then
      importRename (← naviCar rest) (← naviCdr rest) env
    else importLibrary X set env
  else leaf env (naviError "invalid import set" [])

/-- `navi_import_all` -/
def naviImportAll (dst : ScopeAddr) : List NaviBinding → Prog evalOps F Unit
  | [] => return ()
  | binding :: rest => do
    naviScopeSet dst binding.symbol binding.object
    naviImportAll dst rest

/-- The loop of `navi_import`. -/
def importLoopBody (cons : NaviObj) (env : NaviEnv) : Code Unit := do
  if ← naviIsPair cons then
    let importEnv ← callFn (.getImportEnv (← naviCar cons) env) [cons] env.scopes
    let dst ← getGlobalScope env.lexical
    naviImportAll dst (← perform (.bindings importEnv.lexical))
    naviEnvUnref importEnv
    callFn (.importLoop (← naviCdr cons) env) [] []
  else return ()

/-- `navi_import` -/
def naviImportBody (imports : NaviObj) (env : NaviEnv) : Code Unit := do
  perform .gcDisable
  callFn (.importLoop imports env) [] []
  perform .gcEnable

/-- `import` -/
def scmImport (args : NaviObj) (env : NaviEnv) : Code NaviObj := do
  if ← importsValid args then
    callFn (.naviImport args env) [] []
    return .void
  else leaf env (naviError "invalid import set" [])

end NaviScheme
