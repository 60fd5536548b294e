import NaviScheme.Frame.Objects

/-!
# Functions that do not evaluate, and calls

What the functions of `NaviScheme.Leaf` and the calls of the others need to spare the objects
at some addresses. One lemma for each function says it of the function followed by anything;
`grind` finds the ones for the functions that it calls.
-/

namespace NaviScheme

open Prog

variable {α β : Type} {F : FnSig} {S : Addr → Prop} {G : Prop} {D : FnContract F}

attribute [local grind =] NaviProcedure.Avoids NaviBinding.Avoids NaviLibrary.Avoids
attribute [local grind →] lookupIn_eq_some

/-! ### Objects, lists and environments -/

@[grind ←] theorem spares_naviEnvRef {env : NaviEnv} {Q : Unit → Prop} (h : Q ()) :
    Spares S G D (naviEnvRef env) Q := by
  grind [naviEnvRef]

@[grind ←] theorem spares_naviEnvUnref {env : NaviEnv} {Q : Unit → Prop} (h : Q ()) :
    Spares S G D (naviEnvUnref env) Q := by
  grind [naviEnvUnref]

@[grind ←] theorem spares_naviScopeLookup {s : ScopeAddr} {symbol : NaviObj}
    {Q : Option NaviObj → Prop} (h : ∀ r, AllAvoid S r.toList → Q r) :
    Spares S G D (naviScopeLookup s symbol) Q := by
  refine spares_bind (spares_bindings fun bs hbs => h _ ?_)
  cases hlookup : lookupIn bs symbol with
  | none => simp
  | some o =>
    obtain ⟨b, hb, rfl⟩ := lookupIn_eq_some hlookup
    simpa using (hbs b hb).2

@[grind ←] theorem spares_naviType {o : NaviObj} {Q : NaviType → Prop} (ho : Avoids S o)
    (h : ∀ r, Q r) : Spares S G D (naviType o) Q := by
  cases o <;> grind [naviType]

@[grind ←] theorem spares_naviCar {o : NaviObj} {Q : NaviObj → Prop} (ho : Avoids S o)
    (h : ∀ r, Avoids S r → Q r) : Spares S G D (naviCar o) Q := by
  grind [naviCar]

@[grind ←] theorem spares_naviCdr {o : NaviObj} {Q : NaviObj → Prop} (ho : Avoids S o)
    (h : ∀ r, Avoids S r → Q r) : Spares S G D (naviCdr o) Q := by
  grind [naviCdr]

@[grind ←] theorem spares_naviSetCar {cons obj : NaviObj} {Q : Unit → Prop} (hcons : Avoids S cons)
    (hobj : Avoids S obj) (h : Q ()) : Spares S G D (naviSetCar cons obj) Q := by
  grind [naviSetCar]

@[grind ←] theorem spares_naviSetCdr {cons obj : NaviObj} {Q : Unit → Prop} (hcons : Avoids S cons)
    (hobj : Avoids S obj) (h : Q ()) : Spares S G D (naviSetCdr cons obj) Q := by
  grind [naviSetCdr]

@[grind ←] theorem spares_naviProcedure {o : NaviObj} {Q : NaviProcedure → Prop} (ho : Avoids S o)
    (h : ∀ r, r.Avoids S → Q r) : Spares S G D (naviProcedure o) Q := by
  grind [naviProcedure]

@[grind ←] theorem spares_naviThunk {o : NaviObj} {Q : NaviObj × NaviEnv → Prop} (ho : Avoids S o)
    (h : ∀ r, Avoids S r.1 → Q r) : Spares S G D (naviThunk o) Q := by
  grind [naviThunk]

@[grind ←] theorem spares_naviVector {o : NaviObj} {Q : List (Option NaviObj) → Prop}
    (ho : Avoids S o) (h : ∀ r, WordsAvoid S r → Q r) : Spares S G D (naviVector o) Q := by
  grind [naviVector]

@[grind ←] theorem spares_elem {data : List (Option NaviObj)} {i : ℕ} {Q : NaviObj → Prop}
    (hdata : WordsAvoid S data) (h : ∀ r, Avoids S r → Q r) : Spares S G D (elem data i) Q := by
  rw [elem]
  split
  · rename_i o heq
    exact h o (hdata.of_mem (List.mem_of_getElem? heq))
  · exact spares_fail

@[grind ←] theorem spares_vectorSet {o : NaviObj} {i : ℕ} {obj : NaviObj} {Q : Unit → Prop}
    (ho : Avoids S o) (hobj : Avoids S obj) (h : Q ()) : Spares S G D (vectorSet o i obj) Q := by
  refine spares_bind (spares_naviVector ho fun data hdata => ?_)
  split_ifs with hi
  · exact spares_store ho ((Data.avoids_vector _).mpr (hdata.set hobj)) h
  · exact spares_fail

@[grind ←] theorem spares_naviCadr {o : NaviObj} {Q : NaviObj → Prop} (ho : Avoids S o)
    (h : ∀ r, Avoids S r → Q r) : Spares S G D (naviCadr o) Q := by
  grind [naviCadr]

@[grind ←] theorem spares_naviCddr {o : NaviObj} {Q : NaviObj → Prop} (ho : Avoids S o)
    (h : ∀ r, Avoids S r → Q r) : Spares S G D (naviCddr o) Q := by
  grind [naviCddr]

@[grind ←] theorem spares_naviCaddr {o : NaviObj} {Q : NaviObj → Prop} (ho : Avoids S o)
    (h : ∀ r, Avoids S r → Q r) : Spares S G D (naviCaddr o) Q := by
  grind [naviCaddr]

@[grind ←] theorem spares_naviCaar {o : NaviObj} {Q : NaviObj → Prop} (ho : Avoids S o)
    (h : ∀ r, Avoids S r → Q r) : Spares S G D (naviCaar o) Q := by
  grind [naviCaar]

@[grind ←] theorem spares_naviCdar {o : NaviObj} {Q : NaviObj → Prop} (ho : Avoids S o)
    (h : ∀ r, Avoids S r → Q r) : Spares S G D (naviCdar o) Q := by
  grind [naviCdar]

@[grind ←] theorem spares_naviCadar {o : NaviObj} {Q : NaviObj → Prop} (ho : Avoids S o)
    (h : ∀ r, Avoids S r → Q r) : Spares S G D (naviCadar o) Q := by
  grind [naviCadar]

@[grind ←] theorem spares_naviIsPair {o : NaviObj} {Q : Bool → Prop} (ho : Avoids S o)
    (h : ∀ r, Q r) : Spares S G D (naviIsPair o) Q := by
  grind [naviIsPair]

@[grind ←] theorem spares_naviSymbolEq {expr symbol : NaviObj} {Q : Bool → Prop}
    (hexpr : Avoids S expr) (h : ∀ r, Q r) : Spares S G D (naviSymbolEq expr symbol) Q := by
  grind [naviSymbolEq]

@[grind ←] theorem spares_naviMakeEmptyPair {Q : NaviObj → Prop} (h : ∀ r, Avoids S r → Q r) :
    Spares S G D (naviMakeEmptyPair) Q := by
  grind [naviMakeEmptyPair]

@[grind ←] theorem spares_naviMakePair {car cdr : NaviObj} {Q : NaviObj → Prop}
    (hcar : Avoids S car) (hcdr : Avoids S cdr) (h : ∀ r, Avoids S r → Q r) :
    Spares S G D (naviMakePair car cdr) Q := by
  grind [naviMakePair]

@[grind ←] theorem spares_naviMakeThunk {expr : NaviObj} {env : NaviEnv} {Q : NaviObj → Prop}
    (hexpr : Avoids S expr) (h : ∀ r, Avoids S r → Q r) :
    Spares S G D (naviMakeThunk expr env) Q := by
  grind [naviMakeThunk]

@[grind ←] theorem spares_naviMakeBounce {object : NaviObj} {env : NaviEnv} {Q : NaviObj → Prop}
    (hobject : Avoids S object) (h : ∀ r, Avoids S r → Q r) :
    Spares S G D (naviMakeBounce object env) Q := by
  grind [naviMakeBounce]

@[grind ←] theorem spares_naviMakeUninterned {str : String} {Q : NaviObj → Prop}
    (h : ∀ r, Avoids S r → Q r) : Spares S G D (naviMakeUninterned str) Q := by
  grind [naviMakeUninterned]

@[grind ←] theorem spares_naviCstrToString {str : String} {Q : NaviObj → Prop}
    (h : ∀ r, Avoids S r → Q r) : Spares S G D (naviCstrToString str) Q := by
  grind [naviCstrToString]

@[grind ←] theorem spares_naviMakeApair {sym : String} {val : NaviObj} {Q : NaviObj → Prop}
    (hval : Avoids S val) (h : ∀ r, Avoids S r → Q r) : Spares S G D (naviMakeApair sym val) Q := by
  grind [naviMakeApair]

@[grind ←] theorem spares_naviListLength {list : NaviObj} {Q : ℕ → Prop} (hlist : Avoids S list)
    (h : ∀ r, Q r) : Spares S G D (naviListLength list) Q := by
  grind [naviListLength]

@[grind ←] theorem spares_naviListLengthSafe {list : NaviObj} {Q : Option ℕ → Prop}
    (hlist : Avoids S list) (h : ∀ r, Q r) : Spares S G D (naviListLengthSafe list) Q := by
  grind [naviListLengthSafe]

@[grind ←] theorem spares_naviIsProperList {list : NaviObj} {Q : Bool → Prop}
    (hlist : Avoids S list) (h : ∀ r, Q r) : Spares S G D (naviIsProperList list) Q := by
  grind [naviIsProperList]

@[grind ←] theorem spares_naviIsList {o : NaviObj} {Q : Bool → Prop} (ho : Avoids S o)
    (h : ∀ r, Q r) : Spares S G D (naviIsList o) Q := by
  grind [naviIsList]

@[grind ←] theorem spares_cars {x : List NaviObj} {Q : List NaviObj → Prop} (hx : AllAvoid S x)
    (h : ∀ r, AllAvoid S r → Q r) : Spares S G D (cars x) Q := by
  induction x generalizing Q with grind [cars]

@[grind ←] theorem spares_elements {list : NaviObj} {Q : List NaviObj → Prop}
    (hlist : Avoids S list) (h : ∀ r, AllAvoid S r → Q r) : Spares S G D (elements list) Q := by
  grind [elements]

@[grind ←] theorem spares_allOfType {t : NaviType} {x : List NaviObj} {Q : Bool → Prop}
    (hx : AllAvoid S x) (h : ∀ r, Q r) : Spares S G D (allOfType t x) Q := by
  fun_induction allOfType with grind

@[grind ←] theorem spares_naviIsListOf {list : NaviObj} {t : NaviType} {allowDottedTail : Bool}
    {Q : Bool → Prop} (hlist : Avoids S list) (h : ∀ r, Q r) :
    Spares S G D (naviIsListOf list t allowDottedTail) Q := by
  simp only [naviIsListOf, spares_bind_iff, spares_ite_iff]
  grind

@[grind ←] theorem spares_naviIsLastPair {pair : NaviObj} {Q : Bool → Prop} (hpair : Avoids S pair)
    (h : ∀ r, Q r) : Spares S G D (naviIsLastPair pair) Q := by
  grind [naviIsLastPair]

@[grind ←] theorem spares_naviLastCons {list : NaviObj} {Q : NaviObj → Prop}
    (hlist : Avoids S list) (h : ∀ r, Avoids S r → Q r) : Spares S G D (naviLastCons list) Q := by
  refine spares_bind (spares_walk hlist fun pairs last hpairs _ => ?_)
  dsimp only
  cases hlast : pairs.getLast? with
  | none => exact spares_fail
  | some pair => exact h pair (hpairs.of_mem (List.mem_of_getLast? hlast))

@[grind ←] theorem spares_appendPairs {x : NaviObj} {y : List NaviObj} {Q : Unit → Prop}
    (hx : Avoids S x) (hy : AllAvoid S y) (h : Q ()) : Spares S G D (appendPairs x y) Q := by
  fun_induction appendPairs with grind

@[grind ←] theorem spares_naviList {os : List NaviObj} {Q : NaviObj → Prop} (hos : AllAvoid S os)
    (h : ∀ r, Avoids S r → Q r) : Spares S G D (naviList os) Q := by
  cases os <;> grind [naviList]

@[grind ←] theorem spares_naviVlist {first : NaviObj} {rest : List NaviObj} {Q : NaviObj → Prop}
    (hfirst : Avoids S first) (hrest : AllAvoid S rest) (h : ∀ r, Avoids S r → Q r) :
    Spares S G D (naviVlist first rest) Q := by
  refine spares_naviList ?_ h
  exact allAvoid_cons.mpr ⟨hfirst, hrest.mono (List.takeWhile_subset _)⟩

@[grind ←] theorem spares_naviList_ {first : NaviObj} {rest : List NaviObj} {Q : NaviObj → Prop}
    (hfirst : Avoids S first) (hrest : AllAvoid S rest) (h : ∀ r, Avoids S r → Q r) :
    Spares S G D (naviList_ first rest) Q := by
  grind [naviList_]

@[grind ←] theorem spares_naviListToVector {list : NaviObj} {Q : NaviObj → Prop}
    (hlist : Avoids S list) (h : ∀ r, Avoids S r → Q r) :
    Spares S G D (naviListToVector list) Q := by
  grind [naviListToVector]

@[grind ←] theorem spares_readAll {x : List (Option NaviObj)} {Q : List NaviObj → Prop}
    (hx : WordsAvoid S x) (h : ∀ r, AllAvoid S r → Q r) : Spares S G D (readAll x) Q := by
  induction x generalizing Q with
  | nil => exact h [] (allAvoid_nil.mpr trivial)
  | cons o x ih => cases o <;> grind [readAll]

@[grind ←] theorem spares_naviVectorToList {o : NaviObj} {Q : NaviObj → Prop} (ho : Avoids S o)
    (h : ∀ r, Avoids S r → Q r) : Spares S G D (naviVectorToList o) Q := by
  grind [naviVectorToList]

@[grind ←] theorem spares_naviEnvNewScope {env : NaviEnv} {Q : NaviEnv → Prop} (h : ∀ r, Q r) :
    Spares S G D (naviEnvNewScope env) Q := by
  grind [naviEnvNewScope]

@[grind ←] theorem spares_naviDynamicEnvNewScope {env : NaviEnv} {Q : NaviEnv → Prop}
    (h : ∀ r, Q r) : Spares S G D (naviDynamicEnvNewScope env) Q := by
  grind [naviDynamicEnvNewScope]

@[grind ←] theorem spares_naviEnvLookup {s : ScopeAddr} {symbol : NaviObj} {Q : NaviObj → Prop}
    (h : ∀ r, Avoids S r → Q r) : Spares S G D (naviEnvLookup s symbol) Q := by
  grind [naviEnvLookup]

@[grind ←] theorem spares_bindAll {scope : ScopeAddr} {x : List NaviObj} {y : NaviObj}
    {z : List NaviObj} {u : NaviObj} {Q : Unit → Prop} (hx : AllAvoid S x) (hy : Avoids S y)
    (hz : AllAvoid S z) (hu : Avoids S u) (h : Q ()) : Spares S G D (bindAll scope x y z u) Q := by
  fun_induction bindAll with
  | case1 => grind
  | case2 vars vlast args alast hno vcons hnil => exact h
  | case3 vars vlast args alast hno vcons acons hnil =>
    refine spares_naviScopeSet ?_ ?_ h
    · cases vars <;> grind
    · cases args <;> grind

@[grind ←] theorem spares_naviExtendEnvironment {env : NaviEnv} {vars args : NaviObj}
    {Q : NaviEnv → Prop} (hvars : Avoids S vars) (hargs : Avoids S args) (h : ∀ r, Q r) :
    Spares S G D (naviExtendEnvironment env vars args) Q := by
  simp only [naviExtendEnvironment, spares_bind_iff]
  grind

@[grind ←] theorem spares_naviMakeProcedure {args body name : NaviObj} {env : NaviEnv}
    {Q : NaviObj → Prop} (hargs : Avoids S args) (hbody : Avoids S body) (hname : Avoids S name)
    (h : ∀ r, Avoids S r → Q r) : Spares S G D (naviMakeProcedure args body name env) Q := by
  grind [naviMakeProcedure]

@[grind ←] theorem spares_naviMakeLambda {args body : NaviObj} {env : NaviEnv}
    {Q : NaviObj → Prop} (hargs : Avoids S args) (hbody : Avoids S body)
    (h : ∀ r, Avoids S r → Q r) :
    Spares S G D (naviMakeLambda args body env) Q := by
  grind [naviMakeLambda]

@[grind ←] theorem spares_naviMakeMacro {args body name : NaviObj} {env : NaviEnv}
    {Q : NaviObj → Prop} (hargs : Avoids S args) (hbody : Avoids S body) (hname : Avoids S name)
    (h : ∀ r, Avoids S r → Q r) : Spares S G D (naviMakeMacro args body name env) Q := by
  grind [naviMakeMacro]

@[grind ←] theorem spares_naviMakePromise {e : NaviObj} {env : NaviEnv} {Q : NaviObj → Prop}
    (he : Avoids S e) (h : ∀ r, Avoids S r → Q r) : Spares S G D (naviMakePromise e env) Q := by
  simp only [naviMakePromise, spares_bind_iff]
  grind

@[grind ←] theorem spares_naviError_ {type msg : String} {irritants : List NaviObj} {Q : α → Prop}
    (hirritants : AllAvoid S irritants) :
    Spares S G (raising S) (naviError_ type msg irritants) Q := by
  simp only [naviError_, spares_bind_iff]
  grind

@[grind ←] theorem spares_naviError {msg : String} {irritants : List NaviObj} {Q : α → Prop}
    (hirritants : AllAvoid S irritants) : Spares S G (raising S) (naviError msg irritants) Q := by
  grind [naviError]

@[grind ←] theorem spares_naviFileError {msg : String} {Q : α → Prop} :
    Spares S G (raising S) (naviFileError msg) Q := by
  grind [naviFileError]

@[grind ←] theorem spares_naviArityError {name : NaviObj} {Q : α → Prop} (hname : Avoids S name) :
    Spares S G (raising S) (naviArityError name) Q := by
  grind [naviArityError]

@[grind ←] theorem spares_naviUnboundIdentifierError {ident : NaviObj} {Q : α → Prop}
    (hident : Avoids S ident) : Spares S G (raising S) (naviUnboundIdentifierError ident) Q := by
  grind [naviUnboundIdentifierError]

@[grind ←] theorem spares_naviTypeError {expected actual : NaviObj} {Q : α → Prop}
    (hexpected : Avoids S expected) (hactual : Avoids S actual) :
    Spares S G (raising S) (naviTypeError expected actual) Q := by
  simp only [naviTypeError, spares_bind_iff]
  grind

@[grind ←] theorem spares_naviTypeCheck {obj : NaviObj} {t : NaviType} {Q : Unit → Prop}
    (hobj : Avoids S obj) (h : Q ()) : Spares S G (raising S) (naviTypeCheck obj t) Q := by
  grind [naviTypeCheck]

@[grind ←] theorem spares_naviTypeCheckList {list : NaviObj} {Q : Unit → Prop}
    (hlist : Avoids S list) (h : Q ()) : Spares S G (raising S) (naviTypeCheckList list) Q := by
  simp only [naviTypeCheckList, spares_bind_iff, spares_ite_iff]
  grind

@[grind ←] theorem spares_naviTypeCheckProperList {list : NaviObj} {Q : Unit → Prop}
    (hlist : Avoids S list) (h : Q ()) :
    Spares S G (raising S) (naviTypeCheckProperList list) Q := by
  grind [naviTypeCheckProperList]

@[grind ←] theorem spares_naviTypeCheckByte {n : NaviObj} {Q : Unit → Prop} (hn : Avoids S n)
    (h : Q ()) : Spares S G (raising S) (naviTypeCheckByte n) Q := by
  refine spares_bind (spares_naviTypeCheck hn ?_)
  cases n with
  | fixnum k =>
    simp only [spares_bind_iff, spares_ite_iff]
    grind
  | _ => exact spares_fail

@[grind ←] theorem spares_naviCheckArity {proc : NaviObj} {arity : ℕ} {Q : Unit → Prop}
    (hproc : Avoids S proc) (h : Q ()) : Spares S G (raising S) (naviCheckArity proc arity) Q := by
  simp only [naviCheckArity, spares_bind_iff, spares_ite_iff]
  grind

@[grind ←] theorem spares_checkArg {arg : NaviObj} {t : ArgType} {Q : Unit → Prop}
    (harg : Avoids S arg) (h : Q ()) : Spares S G (raising S) (checkArg arg t) Q := by
  cases t <;> grind [checkArg]

@[grind ←] theorem spares_checkArgs {x : List NaviObj} {y : List ArgType} {Q : Unit → Prop}
    (hx : AllAvoid S x) (h : Q ()) : Spares S G (raising S) (checkArgs x y) Q := by
  fun_induction checkArgs with grind

@[grind ←] theorem spares_checkApply {proc args : NaviObj} {Q : ℕ → Prop} (hproc : Avoids S proc)
    (hargs : Avoids S args) (h : ∀ r, Q r) : Spares S G (raising S) (checkApply proc args) Q := by
  simp only [checkApply, spares_bind_iff, spares_ite_iff]
  grind

@[grind ←] theorem spares_lambdaValid {lambda : NaviObj} {Q : Bool → Prop}
    (hlambda : Avoids S lambda) (h : ∀ r, Q r) : Spares S G D (lambdaValid lambda) Q := by
  simp only [lambdaValid, spares_bind_iff, spares_ite_iff]
  grind

@[grind ←] theorem spares_letDefValid {defn : NaviObj} {Q : Bool → Prop} (hdefn : Avoids S defn)
    (h : ∀ r, Q r) : Spares S G D (letDefValid defn) Q := by
  simp only [letDefValid, spares_bind_iff, spares_ite_iff]
  grind

@[grind ←] theorem spares_letValuesDefValid {defn : NaviObj} {Q : Bool → Prop}
    (hdefn : Avoids S defn) (h : ∀ r, Q r) : Spares S G D (letValuesDefValid defn) Q := by
  simp only [letValuesDefValid, spares_bind_iff, spares_ite_iff]
  grind

theorem spares_allValid {valid : NaviObj → Prog evalOps F Bool}
    (hvalid : ∀ o (Q : Bool → Prop), Avoids S o → (∀ b, Q b) → Spares S G D (valid o) Q)
    {os : List NaviObj} {Q : Bool → Prop} (hos : ∀ o ∈ os, Avoids S o) (h : ∀ b, Q b) :
    Spares S G D (allValid valid os) Q := by
  induction os with grind [allValid]

theorem spares_defsValid {valid : NaviObj → Prog evalOps F Bool}
    (hvalid : ∀ o (Q : Bool → Prop), Avoids S o → (∀ b, Q b) → Spares S G D (valid o) Q)
    {list : NaviObj} {Q : Bool → Prop} (hlist : Avoids S list) (h : ∀ b, Q b) :
    Spares S G D (defsValid valid list) Q := by
  refine spares_bind (spares_walk hlist fun pairs last hpairs _ => ?_)
  refine spares_bind (spares_cars hpairs fun os hos => ?_)
  refine spares_bind (spares_allValid hvalid hos fun b => ?_)
  grind

@[grind ←] theorem spares_caseClauseValid {fst : NaviObj} {Q : Bool → Prop} (hfst : Avoids S fst)
    (h : ∀ r, Q r) : Spares S G D (caseClauseValid fst) Q := by
  grind [caseClauseValid]

@[grind ←] theorem spares_caseValid {scase : NaviObj} {Q : Bool → Prop} (hscase : Avoids S scase)
    (h : ∀ r, Q r) : Spares S G D (caseValid scase) Q := by
  refine spares_bind (spares_naviListLength hscase fun n => ?_)
  rw [spares_ite_iff]
  split_ifs
  · exact h _
  · refine spares_bind (spares_naviCdr hscase fun cdr hcdr => ?_)
    refine spares_bind (spares_elements hcdr fun os hos => ?_)
    exact spares_allValid (fun o Q ho h => spares_caseClauseValid ho h) hos h

@[grind ←] theorem spares_condClauseValid {fst : NaviObj} {Q : Bool → Prop} (hfst : Avoids S fst)
    (h : ∀ r, Q r) : Spares S G D (condClauseValid fst) Q := by
  simp only [condClauseValid, spares_bind_iff, spares_ite_iff]
  grind

@[grind ←] theorem spares_condValid {cond : NaviObj} {Q : Bool → Prop} (hcond : Avoids S cond)
    (h : ∀ r, Q r) : Spares S G D (condValid cond) Q := by
  refine spares_bind (spares_walk hcond fun pairs last hpairs _ => ?_)
  refine spares_bind (spares_cars hpairs fun os hos => ?_)
  refine spares_bind (spares_allValid (fun o Q ho h => spares_condClauseValid ho h) hos fun b => ?_)
  grind

/-! ### Calls -/

@[grind ←] theorem spares_throw_ {e : EvalExn} {Q : α → Prop} (he : e.Avoids S) :
    Spares S G (sparing S) (.throw e : Code α) Q := he

theorem spares_callFn {f : EvalFn} {objs : List NaviObj} {scopes : List ScopeAddr}
    {Q : f.Ret → Prop} (hf : f.Avoids S) (h : ∀ v, f.RetAvoids S v → Q v) :
    Spares S G (sparing S) (callFn f objs scopes) Q := Keeps.callFn hf h

attribute [local simp] EvalFn.Avoids EvalFn.objs

@[grind ←] theorem spares_raise {args : NaviObj} {env : NaviEnv} {Q : α → Prop}
    (hargs : Avoids S args) : Spares S G (sparing S) (raise args env : Code α) Q :=
  spares_bind (spares_callFn (by simp [hargs]) fun v => v.elim)

@[grind ←] theorem spares_leaf {p : Leaf α} {env : NaviEnv} {Q : α → Prop}
    (h : Spares S G (raising S) p Q) : Spares S G (sparing S) (leaf env p) Q :=
  Keeps.embed (fun _ he => spares_raise he) h

section Eval

variable {expr proc args cons : NaviObj} {env : NaviEnv} {objs : List NaviObj}
  {scopes : List ScopeAddr} {Q : NaviObj → Prop}

@[grind ←] theorem spares_naviEval (hexpr : Avoids S expr) (h : ∀ r, Avoids S r → Q r) :
    Spares S G (sparing S) (naviEval expr env objs scopes) Q :=
  spares_callFn (by simp [hexpr]) h

@[grind ←] theorem spares_naviApply (hproc : Avoids S proc) (hargs : Avoids S args)
    (h : ∀ r, Avoids S r → Q r) :
    Spares S G (sparing S) (naviApply proc args env objs scopes) Q :=
  spares_bind (spares_naviProcedure hproc fun _ _ => spares_callFn (by simp [hproc, hargs]) h)

@[grind ←] theorem spares_applyForce (hproc : Avoids S proc) (hargs : Avoids S args)
    (h : ∀ r, Avoids S r → Q r) :
    Spares S G (sparing S) (callFn (.applyForce proc args env) objs scopes) Q :=
  spares_callFn (by simp [hproc, hargs]) h

@[grind ←] theorem spares_beginLoop {result : Option NaviObj} (hcons : Avoids S cons)
    (hresult : AllAvoid S result.toList) (h : ∀ r, Avoids S r → Q r) :
    Spares S G (sparing S) (callFn (.beginLoop cons result env) objs scopes) Q :=
  spares_callFn (by simp [hcons, hresult]) h

@[grind ←] theorem spares_evalTail (hexpr : Avoids S expr) (h : ∀ r, Avoids S r → Q r) :
    Spares S G (sparing S) (evalTail expr env) Q := by
  grind [evalTail]

end Eval

/-! ### What is not in the model -/

/-- What is not in the model spares what it is not given. -/
structure Externals.Spares (X : Externals) (S : Addr → Prop) (G : Prop) : Prop where
  builtin (n nrArgs : ℕ) {args : NaviObj} (env : NaviEnv) (hargs : NaviScheme.Avoids S args) :
    NaviScheme.Spares S G (raising S) (X.builtin n nrArgs args env) (NaviScheme.Avoids S)
  naviEqualp {a b : NaviObj} (ha : NaviScheme.Avoids S a) (hb : NaviScheme.Avoids S b) :
    NaviScheme.Spares S G (raising S) (X.naviEqualp a b) fun _ => True
  naviOpenInputFile_ (path : String) :
    NaviScheme.Spares S G (raising S) (X.naviOpenInputFile_ path) (NaviScheme.Avoids S)
  naviCloseInputPort {port : NaviObj} (hport : NaviScheme.Avoids S port) :
    NaviScheme.Spares S G (raising S) (X.naviCloseInputPort port) fun _ => True
  naviPortSetFoldCase {port : NaviObj} (ci : Bool) (hport : NaviScheme.Avoids S port) :
    NaviScheme.Spares S G (raising S) (X.naviPortSetFoldCase port ci) fun _ => True
  naviRead {port : NaviObj} (hport : NaviScheme.Avoids S port) :
    NaviScheme.Spares S G (raising S) (X.naviRead port) (NaviScheme.Avoids S)

end NaviScheme
