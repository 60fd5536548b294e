import NaviScheme.Uniform.Objects

/-!
# Functions that do not evaluate, at other addresses

None of them looks at an address: readdressing a call of one is calling it with readdressed
arguments. Nor does any store a pair where thunks are (`NaviScheme.Natural`).
-/

namespace NaviScheme

open Prog

variable {g : Readdressing} {α β : Type} {F : FnSig}

section Heeds

variable {p : Prog evalOps F α} {q : α → Prog evalOps F β}

@[simp] theorem heeds_bind :
    Heeds orderly (p >>= q) ↔ Prog.Keeps orderly (anyCalls F) p fun a => Heeds orderly (q a) :=
  Prog.Keeps.bind_iff

@[simp] theorem keeps_true :
    Prog.Keeps orderly (anyCalls F) p (fun _ => True) ↔ Heeds orderly p := .rfl

@[simp] theorem heeds_ret (a : α) : Heeds orderly (.ret a : Prog evalOps F α) := trivial
@[simp] theorem heeds_throw (e : F.Exn) : Heeds orderly (.throw e : Prog evalOps F α) := trivial

@[simp] theorem heeds_ite {c : Prop} [Decidable c] {p' : Prog evalOps F α} :
    Heeds orderly (if c then p else p') ↔ if c then Heeds orderly p else Heeds orderly p' := by
  split_ifs <;> rfl

theorem heeds_perform {o : EvalOp} :
    Heeds orderly (perform o : Prog evalOps F o.Reply) ↔ orderly.asks o :=
  ⟨fun h => h.1, fun h => ⟨h, fun _ _ => trivial⟩⟩

theorem Heeds.bind (hp : Heeds orderly p) (hq : ∀ a, Heeds orderly (q a)) :
    Heeds orderly (p >>= q) :=
  heeds_bind.mpr (Prog.Keeps.mono (fun a _ => hq a) hp)

theorem heeds_make {t : NaviType} {d : Data} (h : t ≠ .naviThunk) :
    Heeds orderly (make t d : Prog evalOps F _) := heeds_perform.mpr fun ht => absurd ht h

theorem heeds_store {o : NaviObj} {d : Data} (h : o.MayHold d) :
    Heeds orderly (store o d : Prog evalOps F _) := heeds_perform.mpr h

end Heeds

/-- A pair is where pairs may be. -/
theorem mayHold_pair {o : NaviObj} {car cdr car' cdr' : Option NaviObj}
    (h : o.MayHold (.pair car cdr)) : o.MayHold (.pair car' cdr') := by
  cases o with
  | ptr a =>
    cases a with
    | obj n => trivial
    | thunk n => exact h
  | _ => trivial

/-- Contents that are no pair may be anywhere. -/
theorem mayHold_of_ne {o : NaviObj} {d : Data} (h : ∀ car cdr, d ≠ .pair car cdr) :
    o.MayHold d := by
  cases d with
  | pair car cdr => exact absurd rfl (h car cdr)
  | _ =>
    cases o with
    | ptr a => cases a <;> trivial
    | _ => trivial

variable [SMul Readdressing F.Fn] [SMul Readdressing F.Held] [MulAction Readdressing F.Exn]
  [∀ f, MulAction Readdressing (F.Ret f)] [RenamesFns Readdressing F] [MulAction Readdressing α]
  [MulAction Readdressing β]

/-- A program is orderly, and readdressing it gives `p'`. -/
abbrev Natural (p : Prog evalOps F α) (p' : Readdressing → Prog evalOps F α) : Prop :=
  (∀ g : Readdressing, g • p = p' g) ∧ Heeds orderly p

attribute [local simp] Natural smul_bind smul_ite

theorem natural_ret (a : α) : Natural (.ret a : Prog evalOps F α) fun g => .ret (g • a) :=
  ⟨fun _ => rfl, trivial⟩

@[simp] theorem smul_ret_prog (a : α) : g • (.ret a : Prog evalOps F α) = .ret (g • a) := rfl

theorem smul_bind_eq {p p' : Prog evalOps F α} {q q' : α → Prog evalOps F β} (hp : g • p = p')
    (hq : ∀ a, g • q a = q' (g • a)) : g • (p >>= q) = p' >>= q' := by
  rw [smul_bind, hp]
  refine congrArg _ (funext fun a => ?_)
  rw [hq, smul_inv_smul]

/-- One program after another. -/
theorem natural_bind {p : Prog evalOps F α} {p' : Readdressing → Prog evalOps F α}
    {q : α → Prog evalOps F β} {q' : Readdressing → α → Prog evalOps F β} (hp : Natural p p')
    (hq : ∀ a, Natural (q a) fun g => q' g (g • a)) :
    Natural (p >>= q) fun g => p' g >>= q' g :=
  ⟨fun g => smul_bind_eq (hp.1 g) fun a => (hq a).1 g, Heeds.bind hp.2 fun a => (hq a).2⟩

theorem natural_ite {c : Prop} {c' : Readdressing → Prop} [Decidable c] [∀ g, Decidable (c' g)]
    {p q : Prog evalOps F α} {p' q' : Readdressing → Prog evalOps F α} (hc : ∀ g, c' g ↔ c)
    (hp : Natural p p') (hq : Natural q q') :
    Natural (if c then p else q) fun g => if c' g then p' g else q' g := by
  by_cases h : c
  · simp only [Natural, h, if_true, hc]
    exact hp
  · simp only [Natural, h, if_false, hc]
    exact hq

/-! ### Operations -/

/-- One operation, readdressed. -/
theorem smul_perform {o : EvalOp} :
    HEq (g • (perform o : Prog evalOps F o.Reply)) (perform (g • o) : Prog evalOps F _) := by
  cases o
  all_goals
    exact heq_of_eq (congrArg (Prog.op _) (funext fun r => congrArg Prog.ret (smul_inv_smul g r)))

@[simp] theorem natural_fail (φ : Fault) :
    Natural (fail φ : Prog evalOps F α) fun _ => fail φ := by
  refine ⟨fun g => ?_, trivial, nofun⟩
  exact congrArg (@Prog.op evalOps F α (.fail φ)) (funext fun r => Empty.elim r)

@[simp] theorem natural_load (o : NaviObj) :
    Natural (load o : Prog evalOps F _) fun g => load (g • o) :=
  ⟨fun _ => eq_of_heq smul_perform, heeds_perform.mpr trivial⟩

@[simp] theorem smul_store (o : NaviObj) (d : Data) :
    g • (store o d : Prog evalOps F _) = store (g • o) (g • d) := eq_of_heq smul_perform

@[simp] theorem smul_make (t : NaviType) (d : Data) :
    g • (make t d : Prog evalOps F _) = make t (g • d) := eq_of_heq smul_perform

@[simp] theorem natural_retag (o : NaviObj) (t : NaviType) :
    Natural (retag o t : Prog evalOps F _) fun g => retag (g • o) t :=
  ⟨fun _ => eq_of_heq smul_perform, heeds_perform.mpr trivial⟩

@[simp] theorem natural_walk (o : NaviObj) :
    Natural (walk o : Prog evalOps F _) fun g => walk (g • o) :=
  ⟨fun _ => eq_of_heq smul_perform, heeds_perform.mpr trivial⟩

@[simp] theorem natural_naviMakeSymbol (str : String) :
    Natural (naviMakeSymbol str : Prog evalOps F _) fun _ => naviMakeSymbol str :=
  ⟨fun _ => eq_of_heq smul_perform, heeds_perform.mpr trivial⟩

@[simp] theorem natural_count (c : Counter) :
    Natural (count c : Prog evalOps F _) fun _ => count c :=
  ⟨fun _ => eq_of_heq smul_perform, heeds_perform.mpr trivial⟩

@[simp] theorem natural_scopeRef (s : ScopeAddr) :
    Natural (scopeRef s : Prog evalOps F _) fun _ => scopeRef s :=
  ⟨fun _ => eq_of_heq smul_perform, heeds_perform.mpr trivial⟩

@[simp] theorem natural_scopeUnref (s : ScopeAddr) :
    Natural (scopeUnref s : Prog evalOps F _) fun _ => scopeUnref s :=
  ⟨fun _ => eq_of_heq smul_perform, heeds_perform.mpr trivial⟩

@[simp] theorem natural_naviEnvRef (env : NaviEnv) :
    Natural (naviEnvRef env : Prog evalOps F _) fun _ => naviEnvRef env := by
  simp [naviEnvRef]

@[simp] theorem natural_naviEnvUnref (env : NaviEnv) :
    Natural (naviEnvUnref env : Prog evalOps F _) fun _ => naviEnvUnref env := by
  simp [naviEnvUnref]

@[simp] theorem natural_naviEnvBinding (s : ScopeAddr) (symbol : NaviObj) :
    Natural (naviEnvBinding s symbol : Prog evalOps F _) fun g => naviEnvBinding s (g • symbol) :=
  ⟨fun _ => eq_of_heq smul_perform, heeds_perform.mpr trivial⟩

@[simp] theorem natural_naviScopeSet (s : ScopeAddr) (symbol object : NaviObj) :
    Natural (naviScopeSet s symbol object : Prog evalOps F _) fun g =>
      naviScopeSet s (g • symbol) (g • object) :=
  ⟨fun _ => eq_of_heq smul_perform, heeds_perform.mpr trivial⟩

@[simp] theorem natural_naviScopeUnset (s : ScopeAddr) (symbol : NaviObj) :
    Natural (naviScopeUnset s symbol : Prog evalOps F _) fun g => naviScopeUnset s (g • symbol) :=
  ⟨fun _ => eq_of_heq smul_perform, heeds_perform.mpr trivial⟩

@[simp] theorem natural_getGlobalScope (s : ScopeAddr) :
    Natural (getGlobalScope s : Prog evalOps F _) fun _ => getGlobalScope s :=
  ⟨fun _ => eq_of_heq smul_perform, heeds_perform.mpr trivial⟩

@[simp] theorem natural_naviGcGuard (o : NaviObj) (env : NaviEnv) :
    Natural (naviGcGuard o env : Prog evalOps F _) fun g => naviGcGuard (g • o) env :=
  ⟨fun _ => eq_of_heq smul_perform, heeds_perform.mpr trivial⟩

@[simp] theorem natural_naviGcUnguard (guard : Option (ScopeAddr × ℕ)) :
    Natural (naviGcUnguard guard : Prog evalOps F _) fun g => naviGcUnguard (g • guard) := by
  have hguard (g : Readdressing) : guard = g • guard := (smul_eq g guard).symm
  exact ⟨fun g => (eq_of_heq smul_perform).trans (congrArg naviGcUnguard (hguard g)),
    heeds_perform.mpr trivial⟩

theorem natural_evaluating (expr : NaviObj) (env : NaviEnv) :
    Natural (perform (.evaluating expr env) : Prog evalOps F Unit) fun g =>
      perform (.evaluating (g • expr) env) :=
  ⟨fun _ => eq_of_heq smul_perform, heeds_perform.mpr trivial⟩

theorem natural_gcCheck (held : Locals) :
    Natural (perform (.gcCheck held) : Prog evalOps F Unit) fun g =>
      perform (.gcCheck { held with objs := g • held.objs }) :=
  ⟨fun _ => eq_of_heq smul_perform, heeds_perform.mpr trivial⟩

@[simp] theorem natural_naviScopeLookup (s : ScopeAddr) (symbol : NaviObj) :
    Natural (naviScopeLookup s symbol : Prog evalOps F _) fun g =>
      naviScopeLookup s (g • symbol) := by
  refine natural_bind ⟨fun _ => eq_of_heq smul_perform, heeds_perform.mpr trivial⟩ fun bs => ?_
  refine ⟨fun g => congrArg Prog.ret ?_, trivial⟩
  exact (lookupIn_smul bs symbol).symm

/-! ### Objects -/

@[simp] theorem natural_naviType (o : NaviObj) :
    Natural (naviType o : Prog evalOps F _) fun g => naviType (g • o) := by
  cases o with
  | ptr a => exact natural_bind (natural_load _) fun c => natural_ret _
  | _ => exact natural_ret _

@[simp] theorem natural_naviCar (o : NaviObj) :
    Natural (naviCar o : Prog evalOps F _) fun g => naviCar (g • o) := by
  refine natural_bind (natural_load o) fun c => ?_
  obtain ⟨t, d⟩ := c
  cases d with
  | pair car cdr =>
    cases car with
    | none => exact natural_fail _
    | some car => exact natural_ret car
  | _ => exact natural_fail _

@[simp] theorem natural_naviCdr (o : NaviObj) :
    Natural (naviCdr o : Prog evalOps F _) fun g => naviCdr (g • o) := by
  refine natural_bind (natural_load o) fun c => ?_
  obtain ⟨t, d⟩ := c
  cases d with
  | pair car cdr =>
    cases cdr with
    | none => exact natural_fail _
    | some cdr => exact natural_ret cdr
  | _ => exact natural_fail _

/-- Reading an object, and going on with what is there. -/
theorem natural_load_bind {o : NaviObj} {q : NaviType × Data → Prog evalOps F α}
    {q' : Readdressing → NaviType × Data → Prog evalOps F α}
    (hq : ∀ t d, (∀ g : Readdressing, g • q (t, d) = q' g (t, g • d)) ∧
      (o.MayHold d → Heeds orderly (q (t, d)))) :
    Natural (load o >>= q) fun g => load (g • o) >>= q' g :=
  ⟨fun g => smul_bind_eq ((natural_load o).1 g) fun c => (hq c.1 c.2).1 g, trivial,
    fun c hc => (hq c.1 c.2).2 hc⟩

@[simp] theorem natural_naviSetCar (cons obj : NaviObj) :
    Natural (naviSetCar cons obj : Prog evalOps F _) fun g => naviSetCar (g • cons) (g • obj) := by
  refine natural_load_bind fun t d => ?_
  cases d with
  | pair car cdr => exact ⟨fun g => smul_store _ _, fun h => heeds_store (mayHold_pair h)⟩
  | _ => exact ⟨(natural_fail _).1, fun _ => (natural_fail _).2⟩

@[simp] theorem natural_naviSetCdr (cons obj : NaviObj) :
    Natural (naviSetCdr cons obj : Prog evalOps F _) fun g => naviSetCdr (g • cons) (g • obj) := by
  refine natural_load_bind fun t d => ?_
  cases d with
  | pair car cdr => exact ⟨fun g => smul_store _ _, fun h => heeds_store (mayHold_pair h)⟩
  | _ => exact ⟨(natural_fail _).1, fun _ => (natural_fail _).2⟩

@[simp] theorem natural_naviProcedure (o : NaviObj) :
    Natural (naviProcedure o : Prog evalOps F _) fun g => naviProcedure (g • o) := by
  refine natural_bind (natural_load o) fun c => ?_
  obtain ⟨t, d⟩ := c
  cases d with
  | proc p => exact natural_ret p
  | _ => exact natural_fail _

@[simp] theorem natural_naviThunk (o : NaviObj) :
    Natural (naviThunk o : Prog evalOps F _) fun g => naviThunk (g • o) := by
  refine natural_bind (natural_load o) fun c => ?_
  obtain ⟨t, d⟩ := c
  cases d with
  | thunk expr env => exact natural_ret (expr, env)
  | _ => exact natural_fail _

@[simp] theorem natural_naviVector (o : NaviObj) :
    Natural (naviVector o : Prog evalOps F _) fun g => naviVector (g • o) := by
  refine natural_bind (natural_load o) fun c => ?_
  obtain ⟨t, d⟩ := c
  cases d with
  | vector data => exact natural_ret data
  | _ => exact natural_fail _

@[simp] theorem natural_elem (data : List (Option NaviObj)) (i : ℕ) :
    Natural (elem data i : Prog evalOps F _) fun g => elem (g • data) i := by
  simp only [elem, getElem?_smul]
  cases data[i]? with
  | none => exact natural_fail _
  | some o =>
    cases o with
    | none => exact natural_fail _
    | some o => exact natural_ret o

theorem smul_list_set (data : List (Option NaviObj)) (i : ℕ) (o : Option NaviObj) :
    g • data.set i o = (g • data).set i (g • o) := List.map_set

@[simp] theorem natural_vectorSet (o : NaviObj) (i : ℕ) (obj : NaviObj) :
    Natural (vectorSet o i obj : Prog evalOps F _) fun g => vectorSet (g • o) i (g • obj) := by
  refine natural_bind (natural_naviVector o) fun data => ?_
  have hstore : Heeds orderly
      (store o (.vector (data.set i (some obj))) : Prog evalOps F _) :=
    heeds_store (mayHold_of_ne nofun)
  simp [smul_list_set, hstore]

@[simp] theorem natural_naviCadr (o : NaviObj) :
    Natural (naviCadr o : Prog evalOps F _) fun g => naviCadr (g • o) := by
  simp [naviCadr]

@[simp] theorem natural_naviCddr (o : NaviObj) :
    Natural (naviCddr o : Prog evalOps F _) fun g => naviCddr (g • o) := by
  simp [naviCddr]

@[simp] theorem natural_naviCaddr (o : NaviObj) :
    Natural (naviCaddr o : Prog evalOps F _) fun g => naviCaddr (g • o) := by
  simp [naviCaddr]

@[simp] theorem natural_naviCaar (o : NaviObj) :
    Natural (naviCaar o : Prog evalOps F _) fun g => naviCaar (g • o) := by
  simp [naviCaar]

@[simp] theorem natural_naviCdar (o : NaviObj) :
    Natural (naviCdar o : Prog evalOps F _) fun g => naviCdar (g • o) := by
  simp [naviCdar]

@[simp] theorem natural_naviCadar (o : NaviObj) :
    Natural (naviCadar o : Prog evalOps F _) fun g => naviCadar (g • o) := by
  simp [naviCadar]

@[simp] theorem natural_naviIsPair (o : NaviObj) :
    Natural (naviIsPair o : Prog evalOps F _) fun g => naviIsPair (g • o) := by
  simp [naviIsPair]

@[simp] theorem natural_naviSymbolEq (expr symbol : NaviObj) :
    Natural (naviSymbolEq expr symbol : Prog evalOps F _) fun g =>
      naviSymbolEq (g • expr) (g • symbol) := by
  simp [naviSymbolEq]

@[simp] theorem naviIsTrue_smul (o : NaviObj) : naviIsTrue (g • o) = naviIsTrue o := by
  cases o <;> rfl

@[simp] theorem natural_naviMakeEmptyPair :
    Natural (naviMakeEmptyPair : Prog evalOps F _) fun _ => naviMakeEmptyPair :=
  ⟨fun _ => smul_make _ _, heeds_make nofun⟩

@[simp] theorem natural_naviMakePair (car cdr : NaviObj) :
    Natural (naviMakePair car cdr : Prog evalOps F _) fun g => naviMakePair (g • car) (g • cdr) :=
  ⟨fun _ => smul_make _ _, heeds_make nofun⟩

@[simp] theorem natural_naviMakeThunk (expr : NaviObj) (env : NaviEnv) :
    Natural (naviMakeThunk expr env : Prog evalOps F _) fun g => naviMakeThunk (g • expr) env := by
  have hmake : Heeds orderly (make .naviThunk (.thunk expr env) : Prog evalOps F _) :=
    heeds_perform.mpr fun _ n => trivial
  simp [naviMakeThunk, hmake]

@[simp] theorem natural_naviMakeBounce (object : NaviObj) (env : NaviEnv) :
    Natural (naviMakeBounce object env : Prog evalOps F _) fun g =>
      naviMakeBounce (g • object) env := by
  simp [naviMakeBounce]

@[simp] theorem natural_naviMakeUninterned (str : String) :
    Natural (naviMakeUninterned str : Prog evalOps F _) fun _ => naviMakeUninterned str :=
  ⟨fun _ => smul_make _ _, heeds_make nofun⟩

@[simp] theorem natural_naviCstrToString (str : String) :
    Natural (naviCstrToString str : Prog evalOps F _) fun _ => naviCstrToString str :=
  ⟨fun _ => smul_make _ _, heeds_make nofun⟩

@[simp] theorem natural_naviMakeApair (sym : String) (val : NaviObj) :
    Natural (naviMakeApair sym val : Prog evalOps F _) fun g => naviMakeApair sym (g • val) := by
  simp [naviMakeApair]

/-! ### Lists -/

@[simp] theorem natural_naviListLength (list : NaviObj) :
    Natural (naviListLength list : Prog evalOps F _) fun g => naviListLength (g • list) := by
  simp [naviListLength]

@[simp] theorem natural_naviListLengthSafe (list : NaviObj) :
    Natural (naviListLengthSafe list : Prog evalOps F _) fun g =>
      naviListLengthSafe (g • list) := by
  simp [naviListLengthSafe]

@[simp] theorem natural_naviIsProperList (list : NaviObj) :
    Natural (naviIsProperList list : Prog evalOps F _) fun g => naviIsProperList (g • list) := by
  simp [naviIsProperList]

@[simp] theorem natural_naviIsList (o : NaviObj) :
    Natural (naviIsList o : Prog evalOps F _) fun g => naviIsList (g • o) := by
  simp [naviIsList]

@[simp] theorem natural_cars (pairs : List NaviObj) :
    Natural (cars pairs : Prog evalOps F _) fun g => cars (g • pairs) := by
  induction pairs with
  | nil => simp [cars]
  | cons cons rest ih => simp [cars, ih]

@[simp] theorem natural_elements (list : NaviObj) :
    Natural (elements list : Prog evalOps F _) fun g => elements (g • list) := by
  simp [elements]

@[simp] theorem natural_allOfType (t : NaviType) (os : List NaviObj) :
    Natural (allOfType t os : Prog evalOps F _) fun g => allOfType t (g • os) := by
  induction os with
  | nil => simp [allOfType]
  | cons o rest ih => simp [allOfType, ih]

@[simp] theorem natural_naviIsListOf (list : NaviObj) (t : NaviType) (allowDottedTail : Bool) :
    Natural (naviIsListOf list t allowDottedTail : Prog evalOps F _) fun g =>
      naviIsListOf (g • list) t allowDottedTail := by
  simp [naviIsListOf]

@[simp] theorem natural_naviIsLastPair (pair : NaviObj) :
    Natural (naviIsLastPair pair : Prog evalOps F _) fun g => naviIsLastPair (g • pair) := by
  simp [naviIsLastPair]

@[simp] theorem natural_naviLastCons (list : NaviObj) :
    Natural (naviLastCons list : Prog evalOps F _) fun g => naviLastCons (g • list) := by
  refine natural_bind (natural_walk list) fun c => ?_
  obtain ⟨pairs, last⟩ := c
  simp only [Prod.smul_mk, getLast?_smul]
  cases pairs.getLast? with
  | none => exact natural_fail _
  | some pair => exact natural_ret pair

@[simp] theorem natural_appendPairs (last : NaviObj) (os : List NaviObj) :
    Natural (appendPairs last os : Prog evalOps F _) fun g => appendPairs (g • last) (g • os) := by
  induction os generalizing last with
  | nil => simp [appendPairs]
  | cons o rest ih => simp [appendPairs, ih]

@[simp] theorem natural_naviList (os : List NaviObj) :
    Natural (naviList os : Prog evalOps F _) fun g => naviList (g • os) := by
  cases os with
  | nil => simp [naviList]
  | cons first rest => simp [naviList]

@[simp] theorem takeWhile_smul (os : List NaviObj) :
    (g • os).takeWhile (· ≠ .void) = g • os.takeWhile (· ≠ .void) := by
  induction os with
  | nil => rfl
  | cons o rest ih => by_cases h : o = .void <;> simp_all

@[simp] theorem natural_naviVlist (first : NaviObj) (rest : List NaviObj) :
    Natural (naviVlist first rest : Prog evalOps F _) fun g =>
      naviVlist (g • first) (g • rest) := by
  refine ⟨fun g => ((natural_naviList _).1 g).trans (congrArg naviList ?_), (natural_naviList _).2⟩
  rw [smul_list_cons, takeWhile_smul]

@[simp] theorem natural_naviList_ (first : NaviObj) (rest : List NaviObj) :
    Natural (naviList_ first rest : Prog evalOps F _) fun g =>
      naviList_ (g • first) (g • rest) := by
  simp [naviList_]

theorem smul_map_some (os : List NaviObj) : g • os.map some = (g • os).map some := by
  simp [smul_list]

@[simp] theorem natural_naviListToVector (list : NaviObj) :
    Natural (naviListToVector list : Prog evalOps F _) fun g => naviListToVector (g • list) := by
  refine natural_bind (natural_elements list) fun data => ⟨fun g => ?_, heeds_make nofun⟩
  rw [smul_make, smul_vector, smul_map_some]

@[simp] theorem natural_readAll (data : List (Option NaviObj)) :
    Natural (readAll data : Prog evalOps F _) fun g => readAll (g • data) := by
  induction data with
  | nil => simp [readAll]
  | cons o rest ih =>
    cases o with
    | none => simp [readAll]
    | some o => simp [readAll, ih]

@[simp] theorem natural_naviVectorToList (o : NaviObj) :
    Natural (naviVectorToList o : Prog evalOps F _) fun g => naviVectorToList (g • o) := by
  simp [naviVectorToList]

/-! ### Environments -/

instance (next : Option ScopeAddr) : Fixed (EvalOp.Reply (.makeScope next)) := ⟨fun _ _ => rfl⟩
instance (s : ScopeAddr) : Fixed (EvalOp.Reply (.globalScope s)) := ⟨fun _ _ => rfl⟩
instance (name declarations : NaviObj) :
    Fixed (EvalOp.Reply (.registerLibrary name declarations)) := ⟨fun _ _ => rfl⟩

@[simp] theorem natural_makeScope (next : Option ScopeAddr) :
    Natural (perform (.makeScope next) : Prog evalOps F _) fun _ => perform (.makeScope next) :=
  ⟨fun _ => eq_of_heq smul_perform, heeds_perform.mpr trivial⟩

@[simp] theorem natural_bindings (s : ScopeAddr) :
    Natural (perform (.bindings s) : Prog evalOps F _) fun _ => perform (.bindings s) :=
  ⟨fun _ => eq_of_heq smul_perform, heeds_perform.mpr trivial⟩

@[simp] theorem natural_naviEnvNewScope (env : NaviEnv) :
    Natural (naviEnvNewScope env : Prog evalOps F _) fun _ => naviEnvNewScope env := by
  simp [naviEnvNewScope]

@[simp] theorem natural_naviDynamicEnvNewScope (env : NaviEnv) :
    Natural (naviDynamicEnvNewScope env : Prog evalOps F _) fun _ =>
      naviDynamicEnvNewScope env := by
  simp [naviDynamicEnvNewScope]

@[simp] theorem natural_naviEnvLookup (s : ScopeAddr) (symbol : NaviObj) :
    Natural (naviEnvLookup s symbol : Prog evalOps F _) fun g => naviEnvLookup s (g • symbol) := by
  refine natural_bind (natural_naviEnvBinding s symbol) fun r => ?_
  rcases r with _ | ⟨s', o⟩
  · exact natural_ret _
  · exact natural_ret o

@[simp] theorem natural_bindAll (scope : ScopeAddr) (vars : List NaviObj) (vlast : NaviObj)
    (args : List NaviObj) (alast : NaviObj) :
    Natural (bindAll scope vars vlast args alast : Prog evalOps F _) fun g =>
      bindAll scope (g • vars) (g • vlast) (g • args) (g • alast) := by
  induction vars generalizing args with
  | nil => cases args <;> simp [bindAll]
  | cons vcons vars ih =>
    cases args with
    | nil => simp [bindAll]
    | cons acons args => simp [bindAll, ih]

@[simp] theorem natural_naviExtendEnvironment (env : NaviEnv) (vars args : NaviObj) :
    Natural (naviExtendEnvironment env vars args : Prog evalOps F _) fun g =>
      naviExtendEnvironment env (g • vars) (g • args) := by
  simp [naviExtendEnvironment]

@[simp] theorem natural_naviMakeProcedure (args body name : NaviObj) (env : NaviEnv) :
    Natural (naviMakeProcedure args body name env : Prog evalOps F _) fun g =>
      naviMakeProcedure (g • args) (g • body) (g • name) env := by
  refine natural_bind (natural_walk args) fun c => ?_
  refine natural_bind (natural_scopeRef _) fun _ => ?_
  refine ⟨fun g => ?_, heeds_make nofun⟩
  simp [smul_procedure]

@[simp] theorem natural_naviMakeLambda (args body : NaviObj) (env : NaviEnv) :
    Natural (naviMakeLambda args body env : Prog evalOps F _) fun g =>
      naviMakeLambda (g • args) (g • body) env := by
  simp [naviMakeLambda]

@[simp] theorem natural_naviMakeMacro (args body name : NaviObj) (env : NaviEnv) :
    Natural (naviMakeMacro args body name env : Prog evalOps F _) fun g =>
      naviMakeMacro (g • args) (g • body) (g • name) env := by
  simp [naviMakeMacro]

@[simp] theorem natural_naviMakePromise (e : NaviObj) (env : NaviEnv) :
    Natural (naviMakePromise e env : Prog evalOps F _) fun g => naviMakePromise (g • e) env := by
  simp [naviMakePromise]

/-! ### Errors -/

section Errors

@[simp] theorem natural_throw (args : NaviObj) :
    Natural (.throw args : Leaf α) fun g => .throw (g • args) :=
  ⟨fun _ => rfl, trivial⟩

@[simp] theorem natural_naviError_ (type msg : String) (irritants : List NaviObj) :
    Natural (naviError_ type msg irritants : Leaf α) fun g =>
      naviError_ type msg (g • irritants) := by
  simp [naviError_]

@[simp] theorem natural_naviError (msg : String) (irritants : List NaviObj) :
    Natural (naviError msg irritants : Leaf α) fun g => naviError msg (g • irritants) :=
  natural_naviError_ _ _ _

@[simp] theorem natural_naviFileError (msg : String) :
    Natural (naviFileError msg : Leaf α) fun _ => naviFileError msg := natural_naviError_ _ _ _

@[simp] theorem natural_naviArityError (name : NaviObj) :
    Natural (naviArityError name : Leaf α) fun g => naviArityError (g • name) := by
  simp [naviArityError]

@[simp] theorem natural_naviUnboundIdentifierError (ident : NaviObj) :
    Natural (naviUnboundIdentifierError ident : Leaf α) fun g =>
      naviUnboundIdentifierError (g • ident) := by
  simp [naviUnboundIdentifierError]

@[simp] theorem natural_naviTypeError (expected actual : NaviObj) :
    Natural (naviTypeError expected actual : Leaf α) fun g =>
      naviTypeError (g • expected) (g • actual) := by
  simp [naviTypeError]

@[simp] theorem natural_naviTypeCheck (obj : NaviObj) (t : NaviType) :
    Natural (naviTypeCheck obj t) fun g => naviTypeCheck (g • obj) t := by
  simp [naviTypeCheck]

@[simp] theorem natural_naviTypeCheckList (list : NaviObj) :
    Natural (naviTypeCheckList list) fun g => naviTypeCheckList (g • list) := by
  simp [naviTypeCheckList]

@[simp] theorem natural_naviTypeCheckProperList (list : NaviObj) :
    Natural (naviTypeCheckProperList list) fun g => naviTypeCheckProperList (g • list) := by
  simp [naviTypeCheckProperList]

@[simp] theorem natural_naviTypeCheckByte (n : NaviObj) :
    Natural (naviTypeCheckByte n) fun g => naviTypeCheckByte (g • n) := by
  cases n <;> simp [naviTypeCheckByte]

@[simp] theorem naviAritySatisfied_smul (p : NaviProcedure) (n : ℕ) :
    naviAritySatisfied (g • p) n = naviAritySatisfied p n := rfl

@[simp] theorem natural_naviCheckArity (proc : NaviObj) (arity : ℕ) :
    Natural (naviCheckArity proc arity) fun g => naviCheckArity (g • proc) arity := by
  refine natural_bind (natural_naviProcedure proc) fun p => ?_
  cases h : naviAritySatisfied p arity <;> simp [h]

/-! ### Checks of arguments and of syntax -/

@[simp] theorem natural_checkArg (arg : NaviObj) (t : ArgType) :
    Natural (checkArg arg t) fun g => checkArg (g • arg) t := by
  cases t <;> simp [checkArg]

@[simp] theorem natural_checkArgs (args : List NaviObj) (types : List ArgType) :
    Natural (checkArgs args types) fun g => checkArgs (g • args) types := by
  induction args generalizing types with
  | nil => simp [checkArgs]
  | cons cons args ih => cases types <;> simp [checkArgs, ih]

@[simp] theorem natural_checkApply (proc args : NaviObj) :
    Natural (checkApply proc args) fun g => checkApply (g • proc) (g • args) := by
  refine natural_bind (natural_naviProcedure proc) fun p => ?_
  refine natural_bind (natural_walk args) fun c => ?_
  cases h : naviAritySatisfied p c.1.length <;> simp [h]

end Errors

@[simp] theorem natural_lambdaValid (lambda : NaviObj) :
    Natural (lambdaValid lambda : Prog evalOps F _) fun g => lambdaValid (g • lambda) := by
  simp [lambdaValid]

@[simp] theorem natural_letDefValid (defn : NaviObj) :
    Natural (letDefValid defn : Prog evalOps F _) fun g => letDefValid (g • defn) := by
  simp [letDefValid]

@[simp] theorem natural_letValuesDefValid (defn : NaviObj) :
    Natural (letValuesDefValid defn : Prog evalOps F _) fun g => letValuesDefValid (g • defn) := by
  simp [letValuesDefValid]

/-- A check that does not look at addresses, of all objects. -/
theorem natural_allValid {valid : NaviObj → Prog evalOps F Bool}
    (h : ∀ o, Natural (valid o) fun g => valid (g • o)) (os : List NaviObj) :
    Natural (allValid valid os) fun g => allValid valid (g • os) := by
  induction os with
  | nil => simp [allValid]
  | cons o rest ih => simp [allValid, ih, h]

theorem natural_defsValid {valid : NaviObj → Prog evalOps F Bool}
    (h : ∀ o, Natural (valid o) fun g => valid (g • o)) (list : NaviObj) :
    Natural (defsValid valid list) fun g => defsValid valid (g • list) := by
  simp [defsValid, natural_allValid h]

@[simp] theorem natural_caseClauseValid (fst : NaviObj) :
    Natural (caseClauseValid fst : Prog evalOps F _) fun g => caseClauseValid (g • fst) := by
  simp [caseClauseValid]

@[simp] theorem natural_caseValid (scase : NaviObj) :
    Natural (caseValid scase : Prog evalOps F _) fun g => caseValid (g • scase) := by
  simp [caseValid, natural_allValid natural_caseClauseValid]

@[simp] theorem natural_condClauseValid (fst : NaviObj) :
    Natural (condClauseValid fst : Prog evalOps F _) fun g => condClauseValid (g • fst) := by
  simp [condClauseValid]

@[simp] theorem natural_condValid (cond : NaviObj) :
    Natural (condValid cond : Prog evalOps F _) fun g => condValid (g • cond) := by
  simp [condValid, natural_allValid natural_condClauseValid]

end NaviScheme
