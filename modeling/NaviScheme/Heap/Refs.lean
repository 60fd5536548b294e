import Mathlib.Algebra.BigOperators.Group.Finset.Basic
import Mathlib.Algebra.Order.BigOperators.Group.Finset
import NaviScheme.Heap.Sweep

/-!
# References to scopes

A scope counts its holders in `refs`: inner scopes, environments held by callers, and the
objects that keep a scope or an environment. `NaviScheme.RefState` adds the environments
held by callers to the heap, `NaviScheme.RefOp` has the operations that create, copy and drop
references, and `NaviScheme.RefState.holders` counts the holders.

The count is right in every state of a run (`NaviScheme.refReach_correct`) that does without
the two kinds of steps that do not keep it: `navi_capture_env`, which takes no reference, and
`navi_free` of a macro or of a promise, which drops none.
-/

namespace NaviScheme

open Finset

/-! ### Sums over what is in memory -/

section Tally

variable {β : Type} {f : ℕ → Option β} {n i : ℕ} {w : β → ℕ} {v : Option β} {b : β}

/-- The sum of the weights of what is at the first `n` places. -/
def tally (f : ℕ → Option β) (n : ℕ) (w : β → ℕ) : ℕ := ∑ i ∈ range n, (f i).elim 0 w

theorem tally_succ : tally f (n + 1) w = tally f n w + (f n).elim 0 w := sum_range_succ _ n

theorem tally_congr {g : ℕ → Option β} (h : ∀ i < n, f i = g i) : tally f n w = tally g n w :=
  sum_congr rfl fun i hi => by rw [h i (mem_range.mp hi)]

/-- What is written at a place counts instead of what was there. -/
theorem tally_update (hi : i < n) :
    tally (Function.update f i v) n w + (f i).elim 0 w = tally f n w + v.elim 0 w := by
  have hmem : i ∈ range n := mem_range.mpr hi
  rw [tally, tally, ← add_sum_erase _ _ hmem, ← add_sum_erase (range n) _ hmem,
    Function.update_self, sum_congr rfl fun j hj => by
      rw [Function.update_of_ne (ne_of_mem_erase hj)]]
  omega

theorem tally_update_ge (hi : n ≤ i) : tally (Function.update f i v) n w = tally f n w := by
  refine tally_congr fun j hj => ?_
  rw [Function.update_of_ne (by omega)]

end Tally

/-! ### The operations -/

/-- The scopes that an object holds. -/
def Cell.holds (c : Cell) : List ScopeAddr :=
  match c.type, c.data with
  | .naviProcedure, .proc p | .naviMacro, .proc p | .naviPromise, .proc p => [p.env]
  | .naviThunk, .thunk _ env | .naviBounce, .thunk _ env => [env.lexical, env.dynamic]
  | .naviEnvironment, .environment env => [env.lexical, env.dynamic]
  | _, _ => []

/-- `_navi_scope_ref` -/
def Store.scopeRef (st : Store) (s : ScopeAddr) : Except Fault Store := do
  let sc ← st.loadScope s
  return st.setScope s { sc with refs := (sc.refs + 1) % 2 ^ 32 }

/-- `navi_env_ref` -/
def Store.envRef (st : Store) (env : NaviEnv) : Except Fault Store := do
  let st ← st.scopeRef env.lexical
  st.scopeRef env.dynamic

/-- The heap, the next addresses, and the scopes of the environments that callers hold. -/
structure RefState where
  store : Store
  nextObj : ℕ
  nextThunk : ℕ
  nextScope : ℕ
  held : List ScopeAddr

namespace RefState

/-- An empty heap. -/
def init : RefState where
  store := ⟨none, fun _ => none, [], fun _ => none, []⟩
  nextObj := 0
  nextThunk := 0
  nextScope := 0
  held := []

variable (st : RefState)

/-- `navi_make_scope`: the caller holds the scope. -/
def naviMakeScope : RefState :=
  { st with
    store := { st.store.setScope st.nextScope ⟨none, 1, [], [], false⟩ with
      active := st.nextScope :: st.store.active }
    nextScope := st.nextScope + 1
    held := st.nextScope :: st.held }

/-- `scope->next = next` -/
def setNext (s next : ScopeAddr) : Except Fault RefState := do
  let sc ← st.store.loadScope s
  return { st with store := st.store.setScope s { sc with next := some next } }

/-- `navi_env_new_scope`: the caller holds the new environment, whose scopes are the new one
and `env.dynamic`. -/
def naviEnvNewScope (env : NaviEnv) : Except Fault RefState := do
  let new := st.naviMakeScope
  let store ← new.store.envRef env
  let new ← { new with store := store }.setNext st.nextScope env.lexical
  return { new with held := env.dynamic :: new.held }

/-- `navi_dynamic_env_new_scope` -/
def naviDynamicEnvNewScope (env : NaviEnv) : Except Fault RefState := do
  let new := st.naviMakeScope
  let store ← new.store.envRef env
  let new ← { new with store := store }.setNext st.nextScope env.dynamic
  return { new with held := env.lexical :: new.held }

/-- `new_lexical_environment` -/
def newLexicalEnvironment (env : NaviEnv) : Except Fault RefState := do
  let new := st.naviMakeScope
  let store ← new.store.scopeRef env.dynamic
  return { new with store := store, held := env.dynamic :: new.held }

/-- `make_object`, and `slab_make_object` for thunks. -/
def makeObject (t : NaviType) (d : Data) : RefState :=
  let a := if t = .naviThunk then Addr.thunk st.nextThunk else .obj st.nextObj
  { st with
    store := { st.store.setCell a ⟨st.store.first, t, false, false, d⟩ with first := some a }
    nextObj := if t = .naviThunk then st.nextObj else st.nextObj + 1
    nextThunk := if t = .naviThunk then st.nextThunk + 1 else st.nextThunk }

/-- Writing the tag of an object. -/
def retag (a : Addr) (t : NaviType) : Except Fault RefState := do
  let c ← st.store.load a
  return { st with store := st.store.setCell a { c with type := t } }

/-- `navi_make_procedure`, with contents `p`. -/
def naviMakeProcedure (p : NaviProcedure) : Except Fault RefState := do
  let store ← st.store.scopeRef p.env
  return { st with store := store }.makeObject .naviProcedure (.proc p)

/-- `navi_make_macro` and `navi_make_promise`: a procedure that is retagged. -/
def naviMakeRetagged (t : NaviType) (p : NaviProcedure) : Except Fault RefState := do
  let new ← st.naviMakeProcedure p
  new.retag (.obj st.nextObj) t

/-- `navi_make_thunk` -/
def naviMakeThunk (expr : NaviObj) (env : NaviEnv) : Except Fault RefState := do
  let new := st.makeObject .naviThunk (.thunk expr env)
  let store ← new.store.envRef env
  return { new with store := store }

/-- `navi_make_bounce`: a thunk that is retagged. -/
def naviMakeBounce (expr : NaviObj) (env : NaviEnv) : Except Fault RefState := do
  let new ← st.naviMakeThunk expr env
  new.retag (.thunk st.nextThunk) .naviBounce

/-- `navi_capture_env`: no reference is taken. -/
def naviCaptureEnv (env : NaviEnv) : RefState := st.makeObject .naviEnvironment (.environment env)

end RefState

/-- The operations that create, copy and drop references. -/
inductive RefOp
  | naviMakeScope
  | naviEnvNewScope (env : NaviEnv)
  | naviDynamicEnvNewScope (env : NaviEnv)
  | newLexicalEnvironment (env : NaviEnv)
  | naviMakeProcedure (p : NaviProcedure)
  | naviMakeMacro (p : NaviProcedure)
  | naviMakePromise (p : NaviProcedure)
  | naviMakeThunk (expr : NaviObj) (env : NaviEnv)
  | naviMakeBounce (expr : NaviObj) (env : NaviEnv)
  | naviCaptureEnv (env : NaviEnv)
  /-- an object that holds no scope -/
  | makeObject (t : NaviType) (d : Data)
  | naviEnvRef (env : NaviEnv)
  | naviEnvUnref (env : NaviEnv)
  | naviFree (a : Addr)

/-- What an operation does. -/
def RefOp.step (st : RefState) : RefOp → Except Fault RefState
  | .naviMakeScope => .ok st.naviMakeScope
  | .naviEnvNewScope env => st.naviEnvNewScope env
  | .naviDynamicEnvNewScope env => st.naviDynamicEnvNewScope env
  | .newLexicalEnvironment env => st.newLexicalEnvironment env
  | .naviMakeProcedure p => st.naviMakeProcedure p
  | .naviMakeMacro p => st.naviMakeRetagged .naviMacro p
  | .naviMakePromise p => st.naviMakeRetagged .naviPromise p
  | .naviMakeThunk expr env => st.naviMakeThunk expr env
  | .naviMakeBounce expr env => st.naviMakeBounce expr env
  | .naviCaptureEnv env => .ok (st.naviCaptureEnv env)
  | .makeObject t d => .ok (st.makeObject t d)
  | .naviEnvRef env => do
    let store ← st.store.envRef env
    return { st with store := store, held := env.lexical :: env.dynamic :: st.held }
  | .naviEnvUnref env =>
    .ok { st with
      store := st.store.envUnref env
      held := (st.held.erase env.lexical).erase env.dynamic }
  | .naviFree a => do
    let store ← NaviScheme.naviFree a st.store
    return { st with store := store }

/-- What callers see to: a new scope is made in an environment that is in memory, and an
environment is dropped by a caller that holds it. -/
def RefOp.Allowed (st : RefState) : RefOp → Prop
  | .naviEnvNewScope env | .naviDynamicEnvNewScope env | .newLexicalEnvironment env =>
    (st.store.scopes env.lexical).isSome ∧ (st.store.scopes env.dynamic).isSome
  | .naviEnvUnref env => env.lexical ∈ st.held ∧ env.dynamic ∈ st.held.erase env.lexical
  | .makeObject t _ => t ≠ .naviThunk ∧ t ≠ .naviBounce ∧ t ≠ .naviProcedure ∧ t ≠ .naviMacro ∧
      t ≠ .naviPromise ∧ t ≠ .naviEnvironment
  | _ => True

/-- A step that keeps the count. -/
def RefOp.Balanced (st : RefState) : RefOp → Prop
  | .naviCaptureEnv _ => False
  | .naviFree a => ∀ c, st.store.cells a = some c → c.type ≠ .naviMacro ∧ c.type ≠ .naviPromise
  | _ => True

namespace RefState

variable (st : RefState) (s : ScopeAddr)

/-- The holders of a scope that are not scopes: environments held by callers, and objects. -/
def outerHolders : ℕ :=
  st.held.count s + tally (fun n => st.store.cells (.obj n)) st.nextObj (fun c => c.holds.count s) +
    tally (fun n => st.store.cells (.thunk n)) st.nextThunk (fun c => c.holds.count s)

/-- The number of inner scopes of a scope. -/
def innerScopes : ℕ :=
  tally st.store.scopes st.nextScope fun sc => if sc.next = some s then 1 else 0

/-- **The number of holders of a scope.** -/
def holders : ℕ := st.outerHolders s + st.innerScopes s

end RefState

/-! ### Counts of references -/

section Counts

variable {scopes : ℕ → Option NaviScope} {n m : ℕ} {ext ext' : ℕ → ℕ} {s t : ℕ}
  {sc : NaviScope} {st st' : Store}

/-- One holder more of a scope. -/
def one (s t : ℕ) : ℕ := if t = s then 1 else 0

theorem count_cons_one {l : List ℕ} : (s :: l).count t = l.count t + one s t := by
  rw [List.count_cons, one]
  rcases eq_or_ne t s with rfl | hne
  · simp
  · simp [hne, hne.symm]

/-- The number of scopes whose `next` is a scope. -/
def inner (scopes : ℕ → Option NaviScope) (n s : ℕ) : ℕ :=
  tally scopes n fun sc => if sc.next = some s then 1 else 0

/-- **The counts are right**, when the scopes have `ext` holders besides inner scopes. -/
structure ScopesOk (scopes : ℕ → Option NaviScope) (n : ℕ) (ext : ℕ → ℕ) :
    Prop where
  live : ∀ s sc, scopes s = some sc →
    sc.refs = (ext s + inner scopes n s) % 2 ^ 32 ∧ 0 < ext s + inner scopes n s
  dead : ∀ s, scopes s = none → ext s + inner scopes n s = 0
  bound : ∀ s, n ≤ s → scopes s = none
  next : ∀ s sc, scopes s = some sc → ∀ t : ℕ, t ∈ sc.next → t < s

theorem ScopesOk.lt (h : ScopesOk scopes n ext) (hs : scopes s = some sc) : s < n := by
  by_contra hlt
  exact absurd (h.bound s (by omega)) (by simp [hs])

theorem ScopesOk.congr (h : ScopesOk scopes n ext) (hext : ∀ s, ext' s = ext s) :
    ScopesOk scopes n ext' := by
  rwa [show ext' = ext from funext hext]

/-- Writing a scope without changing its `next`. -/
theorem inner_update (hs : scopes s = some sc) (hlt : s < n) {sc' : NaviScope}
    (hnext : sc'.next = sc.next) : inner (Function.update scopes s (some sc')) n t =
      inner scopes n t := by
  have hsum := tally_update (f := scopes) (v := some sc')
    (w := fun sc => if sc.next = some t then 1 else 0) hlt
  rw [hs] at hsum
  simp only [Option.elim_some, hnext] at hsum
  exact Nat.add_right_cancel hsum

/-- Writing the count of a scope. -/
theorem ScopesOk.setRefs (h : ScopesOk scopes n ext) (hs : scopes s = some sc)
    (hext : ∀ t, t ≠ s → ext' t = ext t) {sc' : NaviScope} (hnext : sc'.next = sc.next)
    (hrefs : sc'.refs = (ext' s + inner scopes n s) % 2 ^ 32)
    (hpos : 0 < ext' s + inner scopes n s) :
    ScopesOk (Function.update scopes s (some sc')) n ext' := by
  have hin : ∀ t, inner (Function.update scopes s (some sc')) n t = inner scopes n t := fun t =>
    inner_update hs (h.lt hs) hnext
  refine ⟨fun t tc ht => ?_, fun t ht => ?_, fun t ht => ?_, fun t tc ht => ?_⟩
  · rw [hin]
    rcases eq_or_ne t s with rfl | hne
    · rw [Function.update_self, Option.some.injEq] at ht
      exact ht ▸ ⟨hrefs, hpos⟩
    · rw [Function.update_of_ne hne] at ht
      rw [hext t hne]
      exact h.live t tc ht
  · rw [hin]
    rcases eq_or_ne t s with rfl | hne
    · exact absurd ht (by simp)
    · rw [Function.update_of_ne hne] at ht
      rw [hext t hne]
      exact h.dead t ht
  · have hlt := h.lt hs
    rw [Function.update_of_ne (by omega)]
    exact h.bound t ht
  · rcases eq_or_ne t s with rfl | hne
    · rw [Function.update_self, Option.some.injEq] at ht
      rw [← ht, hnext]
      exact h.next t sc hs
    · rw [Function.update_of_ne hne] at ht
      exact h.next t tc ht

/-- `_navi_scope_ref` counts one holder more. -/
theorem ScopesOk.scopeRef (h : ScopesOk st.scopes n ext) (hst : st.scopeRef s = .ok st') :
    ScopesOk st'.scopes n (fun t => ext t + one s t) ∧ st'.cells = st.cells ∧
      ∀ t, (st'.scopes t).map NaviScope.next = (st.scopes t).map NaviScope.next := by
  obtain ⟨sc, hload, hst⟩ := bind_eq_ok hst
  obtain rfl := Except.ok.inj hst
  have hs : st.scopes s = some sc := by
    rw [Store.loadScope] at hload
    split at hload
    · rename_i sc' hs
      rw [hs, Except.ok.inj hload]
    · exact absurd hload (by simp)
  obtain ⟨hrefs, hpos⟩ := h.live s sc hs
  refine ⟨h.setRefs hs (fun t ht => by simp [one, ht]) rfl ?_ ?_, rfl, fun t => ?_⟩
  · simp only [one, if_pos]
    omega
  · simp only [one, if_pos]
    omega
  · rcases eq_or_ne t s with rfl | hne
    · simp [Store.setScope, hs]
    · simp [Store.setScope, hne]

theorem ScopesOk.envRef {env : NaviEnv} (h : ScopesOk st.scopes n ext)
    (hst : st.envRef env = .ok st') :
    ScopesOk st'.scopes n (fun t => ext t + one env.lexical t + one env.dynamic t) ∧
      st'.cells = st.cells ∧
      ∀ t, (st'.scopes t).map NaviScope.next = (st.scopes t).map NaviScope.next := by
  obtain ⟨st₁, hl, hd⟩ := bind_eq_ok hst
  obtain ⟨h₁, hcells₁, hnext₁⟩ := h.scopeRef hl
  obtain ⟨h₂, hcells₂, hnext₂⟩ := h₁.scopeRef hd
  exact ⟨h₂, hcells₂.trans hcells₁, fun t => (hnext₂ t).trans (hnext₁ t)⟩

/-- A new scope has one holder. -/
theorem ScopesOk.makeScope (h : ScopesOk scopes n ext) :
    ScopesOk (Function.update scopes n (some ⟨none, 1, [], [], false⟩)) (n + 1)
      (fun t => ext t + one n t) := by
  have hfree := h.bound n le_rfl
  have hin : ∀ t, inner (Function.update scopes n (some ⟨none, 1, [], [], false⟩)) (n + 1) t =
      inner scopes n t := fun t => by
    rw [inner, tally_succ, tally_update_ge le_rfl, Function.update_self, Option.elim_some,
      if_neg (by simp)]
    rfl
  refine ⟨fun t tc ht => ?_, fun t ht => ?_, fun t ht => ?_, fun t tc ht => ?_⟩
  · rw [hin]
    rcases eq_or_ne t n with rfl | hne
    · rw [Function.update_self, Option.some.injEq] at ht
      have hzero := h.dead t hfree
      simp only [← ht, one, if_pos]
      omega
    · rw [Function.update_of_ne hne] at ht
      simpa only [one, if_neg hne, Nat.add_zero] using h.live t tc ht
  · rw [hin]
    rcases eq_or_ne t n with rfl | hne
    · exact absurd ht (by simp)
    · rw [Function.update_of_ne hne] at ht
      simpa only [one, if_neg hne, Nat.add_zero] using h.dead t ht
  · rw [Function.update_of_ne (by omega)]
    exact h.bound t (by omega)
  · rcases eq_or_ne t n with rfl | hne
    · rw [Function.update_self, Option.some.injEq] at ht
      simp [← ht]
    · rw [Function.update_of_ne hne] at ht
      exact h.next t tc ht

/-- A holder of a scope that becomes the `next` of another. -/
theorem ScopesOk.setNext (h : ScopesOk scopes n (fun u => ext u + one t u))
    (hs : scopes s = some sc) (hnone : sc.next = none) (hlt : t < s) :
    ScopesOk (Function.update scopes s (some { sc with next := some t })) n ext := by
  have hin : ∀ u, inner (Function.update scopes s (some { sc with next := some t })) n u =
      inner scopes n u + one t u := fun u => by
    have hsum := tally_update (f := scopes) (v := some { sc with next := some t })
      (w := fun sc => if sc.next = some u then 1 else 0) (h.lt hs)
    rw [hs] at hsum
    simp only [Option.elim_some, hnone, reduceCtorEq, if_false, Option.some.injEq,
      Nat.add_zero] at hsum
    rw [inner, hsum, inner, one]
    simp only [eq_comm]
  have hsum : ∀ u, ext u + (inner scopes n u + one t u) =
      ext u + one t u + inner scopes n u := fun u => by omega
  refine ⟨fun u uc hu => ?_, fun u hu => ?_, fun u hu => ?_, fun u uc hu => ?_⟩
  · rw [hin, hsum]
    rcases eq_or_ne u s with rfl | hne
    · rw [Function.update_self, Option.some.injEq] at hu
      rw [← hu]
      exact h.live u sc hs
    · rw [Function.update_of_ne hne] at hu
      exact h.live u uc hu
  · rw [hin, hsum]
    rcases eq_or_ne u s with rfl | hne
    · exact absurd hu (by simp)
    · rw [Function.update_of_ne hne] at hu
      exact h.dead u hu
  · have hs' := h.lt hs
    rw [Function.update_of_ne (by omega)]
    exact h.bound u hu
  · rcases eq_or_ne u s with rfl | hne
    · rw [Function.update_self, Option.some.injEq] at hu
      rw [← hu]
      simpa using hlt
    · rw [Function.update_of_ne hne] at hu
      exact h.next u uc hu

/-- **`_navi_scope_unref` takes a holder away**, and gives back the scopes that are left
without one. -/
theorem ScopesOk.scopeUnref (h : ScopesOk st.scopes n (fun t => ext t + one s t))
    (hlt : ∀ t, ext t + one s t + inner st.scopes n t < 2 ^ 32) (hm : s < m) :
    ScopesOk (naviScopeUnref m s st).scopes n ext ∧
      ∀ t, inner (naviScopeUnref m s st).scopes n t ≤ inner st.scopes n t := by
  induction m generalizing s st with
  | zero => omega
  | succ m ih =>
    rw [naviScopeUnref]
    cases hs : st.scopes s with
    | none =>
      have hzero := h.dead s hs
      simp [one] at hzero
    | some sc =>
      obtain ⟨hrefs, -⟩ := h.live s sc hs
      have hbound := hlt s
      simp only [one, if_pos] at hrefs hbound
      have hcount : (sc.refs + (2 ^ 32 - 1)) % 2 ^ 32 = ext s + inner st.scopes n s := by omega
      simp only [hcount]
      split_ifs with hzero
      · have hin : ∀ t, inner (Function.update st.scopes s none) n t +
            (if sc.next = some t then 1 else 0) = inner st.scopes n t := fun t => by
          have hsum := tally_update (f := st.scopes) (v := none)
            (w := fun sc => if sc.next = some t then 1 else 0) (h.lt hs)
          rw [hs] at hsum
          rw [Option.elim_some, Option.elim_none, Nat.add_zero] at hsum
          exact hsum
        have hfreed : ScopesOk (Function.update st.scopes s none) n
            (fun t => ext t + if sc.next = some t then 1 else 0) := by
          have hsum : ∀ t, ext t + (if sc.next = some t then 1 else 0) +
              inner (Function.update st.scopes s none) n t = ext t + inner st.scopes n t := by
            intro t
            have := hin t
            omega
          refine ⟨fun t tc ht => ?_, fun t ht => ?_, fun t ht => ?_, fun t tc ht => ?_⟩
          · rw [hsum]
            rcases eq_or_ne t s with rfl | hne
            · exact absurd ht (by simp)
            · rw [Function.update_of_ne hne] at ht
              simpa only [one, if_neg hne, Nat.add_zero] using h.live t tc ht
          · rw [hsum]
            rcases eq_or_ne t s with rfl | hne
            · exact hzero
            · rw [Function.update_of_ne hne] at ht
              simpa only [one, if_neg hne, Nat.add_zero] using h.dead t ht
          · have hs' := h.lt hs
            rw [Function.update_of_ne (by omega)]
            exact h.bound t ht
          · rcases eq_or_ne t s with rfl | hne
            · exact absurd ht (by simp)
            · rw [Function.update_of_ne hne] at ht
              exact h.next t tc ht
        cases hnext : sc.next with
        | none =>
          simp only [hnext, reduceCtorEq, if_false, Nat.add_zero] at hfreed
          exact ⟨hfreed, fun t => (Nat.le_add_right _ _).trans_eq (hin t)⟩
        | some t =>
          have hts := h.next s sc hs t hnext
          have hone : ∀ u, (if sc.next = some u then 1 else 0) = one t u := fun u => by
            simp only [hnext, Option.some.injEq, one, eq_comm]
          simp only [hone] at hfreed hin
          have hlt' : ∀ u, ext u + one t u + inner (Function.update st.scopes s none) n u <
              2 ^ 32 := by
            intro u
            have := hin u
            have := hlt u
            omega
          obtain ⟨hok, hle⟩ := @ih _ { st with
            active := st.active.erase s
            scopes := Function.update st.scopes s none } hfreed hlt' (by omega)
          exact ⟨hok, fun u => (hle u).trans ((Nat.le_add_right _ _).trans_eq (hin u))⟩
      · refine ⟨h.setRefs hs (fun t ht => by simp [one, ht]) rfl ?_ (by omega), fun t => ?_⟩
        · show ext s + inner st.scopes n s = (ext s + inner st.scopes n s) % 2 ^ 32
          omega
        · exact (inner_update hs (h.lt hs)
            (rfl : { sc with refs := ext s + inner st.scopes n s }.next = sc.next)).le

end Counts

/-! ### Runs -/

namespace RefState

variable {st st' : RefState} {s : ℕ} {a : Addr} {c : Cell} {t : NaviType} {d : Data}

/-- The counts of a state are right. -/
structure Counted (st : RefState) : Prop where
  scopes : ScopesOk st.store.scopes st.nextScope st.outerHolders
  objs : ∀ k, st.nextObj ≤ k → st.store.cells (.obj k) = none
  thunks : ∀ k, st.nextThunk ≤ k → st.store.cells (.thunk k) = none

theorem obj_update {cells : Addr → Option Cell} {k : ℕ} {v : Option Cell} :
    (fun n => Function.update cells (.obj k) v (.obj n)) =
      Function.update (fun n => cells (.obj n)) k v := by
  funext n
  by_cases hn : n = k <;> simp [hn]

theorem thunk_update {cells : Addr → Option Cell} {k : ℕ} {v : Option Cell} :
    (fun n => Function.update cells (.thunk k) v (.thunk n)) =
      Function.update (fun n => cells (.thunk n)) k v := by
  funext n
  by_cases hn : n = k <;> simp [hn]

theorem obj_update_thunk {cells : Addr → Option Cell} {k : ℕ} {v : Option Cell} :
    (fun n => Function.update cells (.thunk k) v (.obj n)) = fun n => cells (.obj n) := by
  funext n
  simp

theorem thunk_update_obj {cells : Addr → Option Cell} {k : ℕ} {v : Option Cell} :
    (fun n => Function.update cells (.obj k) v (.thunk n)) = fun n => cells (.thunk n) := by
  funext n
  simp

/-- What is written at an address holds scopes instead of what was there. -/
theorem outerHolders_update (h : st.Counted) (hc : st.store.cells a = some c) {v : Option Cell}
    {store : Store} (hstore : store.cells = Function.update st.store.cells a v) :
    { st with store := store }.outerHolders s + c.holds.count s =
      st.outerHolders s + v.elim 0 fun c => c.holds.count s := by
  simp only [outerHolders, hstore]
  cases a with
  | obj k =>
    have hlt : k < st.nextObj := by
      by_contra hge
      exact absurd (h.objs k (by omega)) (by simp [hc])
    have hsum := tally_update (f := fun n => st.store.cells (.obj n)) (v := v)
      (w := fun c => c.holds.count s) hlt
    rw [hc, Option.elim_some] at hsum
    rw [obj_update, thunk_update_obj]
    omega
  | thunk k =>
    have hlt : k < st.nextThunk := by
      by_contra hge
      exact absurd (h.thunks k (by omega)) (by simp [hc])
    have hsum := tally_update (f := fun n => st.store.cells (.thunk n)) (v := v)
      (w := fun c => c.holds.count s) hlt
    rw [hc, Option.elim_some] at hsum
    rw [obj_update_thunk, thunk_update]
    omega

/-- A new object holds what its contents say. -/
theorem outerHolders_makeObject (st : RefState) :
    (st.makeObject t d).outerHolders s =
      st.outerHolders s + (Cell.holds ⟨st.store.first, t, false, false, d⟩).count s := by
  simp only [outerHolders, makeObject, Store.setCell]
  by_cases ht : t = .naviThunk
  · simp only [if_pos ht, obj_update_thunk, thunk_update, tally_succ, Function.update_self,
      Option.elim_some, tally_update_ge le_rfl]
    omega
  · simp only [if_neg ht, obj_update, thunk_update_obj, tally_succ, Function.update_self,
      Option.elim_some, tally_update_ge le_rfl]
    omega

/-- The object that `makeObject` makes. -/
theorem cells_makeObject (st : RefState) :
    (st.makeObject t d).store.cells (if t = .naviThunk then .thunk st.nextThunk
      else .obj st.nextObj) = some ⟨st.store.first, t, false, false, d⟩ := by
  simp [makeObject, Store.setCell]

/-- Beyond the next addresses nothing is in memory. -/
theorem free_makeObject (st : RefState)
    (hobjs : ∀ k, st.nextObj ≤ k → st.store.cells (.obj k) = none)
    (hthunks : ∀ k, st.nextThunk ≤ k → st.store.cells (.thunk k) = none) :
    (∀ k, (st.makeObject t d).nextObj ≤ k → (st.makeObject t d).store.cells (.obj k) = none) ∧
      ∀ k, (st.makeObject t d).nextThunk ≤ k →
        (st.makeObject t d).store.cells (.thunk k) = none := by
  constructor
  · intro k hk
    simp only [makeObject, Store.setCell] at hk ⊢
    split_ifs at hk ⊢ with ht
    · simpa using hobjs k hk
    · rw [Function.update_of_ne (by simp; omega)]
      exact hobjs k (by omega)
  · intro k hk
    simp only [makeObject, Store.setCell] at hk ⊢
    split_ifs at hk ⊢ with ht
    · rw [Function.update_of_ne (by simp; omega)]
      exact hthunks k (by omega)
    · simpa using hthunks k hk

/-- Retagging an object that holds the same afterwards. -/
theorem Counted.retag (h : st.Counted) (hc : st.store.cells a = some c)
    (hholds : ({ c with type := t } : Cell).holds = c.holds) (hst : st.retag a t = .ok st') :
    st'.Counted := by
  rw [RefState.retag, Store.load_eq _ hc, ok_bind] at hst
  obtain rfl := Except.ok.inj hst
  have hupdate : (st.store.setCell a { c with type := t }).cells =
      Function.update st.store.cells a (some { c with type := t }) := rfl
  refine ⟨h.scopes.congr fun s => ?_, fun k hk => ?_, fun k hk => ?_⟩
  · have hsum := outerHolders_update (s := s) h hc hupdate
    rw [Option.elim_some, hholds] at hsum
    exact Nat.add_right_cancel hsum
  · rw [hupdate, Function.update_apply, if_neg]
    · exact h.objs k hk
    · rintro rfl
      exact absurd (h.objs k hk) (by simp [hc])
  · rw [hupdate, Function.update_apply, if_neg]
    · exact h.thunks k hk
    · rintro rfl
      exact absurd (h.thunks k hk) (by simp [hc])

/-- A change of the scopes and of what callers hold. -/
theorem Counted.change (h : st.Counted) {store : Store} {ext : ℕ → ℕ} {k : ℕ} {held : List ℕ}
    (hok : ScopesOk store.scopes k ext) (hcells : store.cells = st.store.cells)
    (hext : ∀ s, ext s + st.held.count s = st.outerHolders s + held.count s) :
    { st with store := store, nextScope := k, held := held }.Counted := by
  refine ⟨hok.congr fun s => ?_, ?_, ?_⟩
  · have hsum := hext s
    simp only [outerHolders, hcells] at hsum ⊢
    omega
  · rw [hcells]
    exact h.objs
  · rw [hcells]
    exact h.thunks

/-- A new scope that the caller holds. -/
theorem Counted.naviMakeScope (h : st.Counted) : st.naviMakeScope.Counted := by
  refine h.change h.scopes.makeScope rfl fun s => ?_
  rw [count_cons_one]
  omega

/-- `navi_env_new_scope` and `navi_dynamic_env_new_scope`: of the references to the two scopes
of the environment, one is for `next`. -/
theorem Counted.newScope (h : st.Counted) {env : NaviEnv} {next other : ℕ}
    (hor : (next = env.lexical ∧ other = env.dynamic) ∨ (next = env.dynamic ∧ other = env.lexical))
    (hnext : (st.store.scopes next).isSome) {store : Store}
    (hstore : st.naviMakeScope.store.envRef env = .ok store) {new : RefState}
    (hnew : { st.naviMakeScope with store := store }.setNext st.nextScope next = .ok new) :
    { new with held := other :: new.held }.Counted := by
  obtain ⟨hok, hcells, hnexts⟩ := h.naviMakeScope.scopes.envRef hstore
  obtain ⟨sc, hsc, hnone⟩ : ∃ sc, store.scopes st.nextScope = some sc ∧ sc.next = none := by
    simpa [RefState.naviMakeScope, Store.setScope] using hnexts st.nextScope
  obtain ⟨nc, hnc⟩ := Option.isSome_iff_exists.mp hnext
  rw [RefState.setNext, Store.loadScope_eq _ hsc, ok_bind] at hnew
  obtain rfl := Except.ok.inj hnew
  have hext : ScopesOk store.scopes st.naviMakeScope.nextScope fun t =>
      st.naviMakeScope.outerHolders t + one other t + one next t :=
    hok.congr fun t => by rcases hor with ⟨rfl, rfl⟩ | ⟨rfl, rfl⟩ <;> omega
  have hok' := hext.setNext hsc hnone (h.scopes.lt hnc)
  refine h.naviMakeScope.change hok' hcells fun s => ?_
  show _ = st.naviMakeScope.outerHolders s + (other :: st.naviMakeScope.held).count s
  rw [count_cons_one]
  omega

/-- Making an object once references to what it holds have been taken. -/
theorem Counted.makeAfter (h : st.Counted) {store : Store}
    (hok : ScopesOk store.scopes st.nextScope fun s =>
      st.outerHolders s + (Cell.holds ⟨store.first, t, false, false, d⟩).count s)
    (hcells : store.cells = st.store.cells) :
    ({ st with store := store }.makeObject t d).Counted := by
  obtain ⟨hobjs, hthunks⟩ := free_makeObject { st with store := store } (t := t) (d := d)
    (by rw [hcells]; exact h.objs) (by rw [hcells]; exact h.thunks)
  refine ⟨hok.congr fun s => ?_, hobjs, hthunks⟩
  rw [outerHolders_makeObject]
  simp only [outerHolders, hcells]

theorem Counted.naviMakeProcedure (h : st.Counted) {p : NaviProcedure}
    (hst : st.naviMakeProcedure p = .ok st') :
    st'.Counted ∧ st'.store.cells (.obj st.nextObj) =
      some ⟨st.store.first, .naviProcedure, false, false, .proc p⟩ := by
  obtain ⟨store, hs, hst⟩ := bind_eq_ok hst
  obtain rfl := Except.ok.inj hst
  obtain ⟨hok, hcells, -⟩ := h.scopes.scopeRef hs
  have hfirst : store.first = st.store.first := by
    obtain ⟨sc, -, hs⟩ := bind_eq_ok hs
    obtain rfl := Except.ok.inj hs
    rfl
  refine ⟨h.makeAfter (hok.congr fun s => ?_) hcells, ?_⟩
  · rw [Cell.holds, count_cons_one]
    simp
  · rw [← hfirst]
    exact cells_makeObject { st with store := store } (t := .naviProcedure)

theorem Counted.naviMakeRetagged (h : st.Counted) {p : NaviProcedure}
    (ht : t = .naviMacro ∨ t = .naviPromise) (hst : st.naviMakeRetagged t p = .ok st') :
    st'.Counted := by
  obtain ⟨new, hp, hst⟩ := bind_eq_ok hst
  obtain ⟨hnew, hc⟩ := h.naviMakeProcedure hp
  refine hnew.retag hc ?_ hst
  rcases ht with rfl | rfl <;> rfl

theorem Counted.naviMakeThunk (h : st.Counted) {expr : NaviObj} {env : NaviEnv}
    (hst : st.naviMakeThunk expr env = .ok st') :
    st'.Counted ∧ st'.store.cells (.thunk st.nextThunk) =
      some ⟨st.store.first, .naviThunk, false, false, .thunk expr env⟩ := by
  obtain ⟨store, hs, hst⟩ := bind_eq_ok hst
  obtain rfl := Except.ok.inj hst
  have hscopes : ScopesOk (st.makeObject .naviThunk (.thunk expr env)).store.scopes
    st.nextScope st.outerHolders := h.scopes
  obtain ⟨hok, hcells, -⟩ := hscopes.envRef hs
  obtain ⟨hobjs, hthunks⟩ := free_makeObject st (t := .naviThunk) (d := .thunk expr env) h.objs
    h.thunks
  refine ⟨⟨hok.congr fun s => ?_, ?_, ?_⟩, ?_⟩
  · have hnew := outerHolders_makeObject (s := s) st (t := .naviThunk)
      (d := .thunk expr env)
    simp only [outerHolders, hcells] at hnew ⊢
    rw [hnew, Cell.holds, count_cons_one, count_cons_one]
    simp only [List.count_nil]
    omega
  · rw [hcells]
    exact hobjs
  · rw [hcells]
    exact hthunks
  · rw [hcells]
    exact cells_makeObject _ (t := .naviThunk)

theorem Counted.naviMakeBounce (h : st.Counted) {expr : NaviObj} {env : NaviEnv}
    (hst : st.naviMakeBounce expr env = .ok st') : st'.Counted := by
  obtain ⟨new, hp, hst⟩ := bind_eq_ok hst
  obtain ⟨hnew, hc⟩ := h.naviMakeThunk hp
  refine hnew.retag hc ?_ hst
  rfl

/-- What `navi_free` does to scopes, by what the object holds. -/
theorem naviFree_scopes {store st' : Store} (hc : store.cells a = some c)
    (hbalanced : c.type ≠ .naviMacro ∧ c.type ≠ .naviPromise)
    (hst : NaviScheme.naviFree a store = .ok st') :
    st'.cells = Function.update store.cells a none ∧
      ((c.holds = [] ∧ st'.scopes = store.scopes) ∨
        (∃ s, c.holds = [s] ∧ st'.scopes = (store.unref s).scopes) ∨
        ∃ env, c.holds = [env.lexical, env.dynamic] ∧ st'.scopes = (store.envUnref env).scopes) := by
  have henv : ∀ env : NaviEnv, ((store.envUnref env).freeCell a).cells =
      Function.update store.cells a none := fun env => by
    rw [Store.freeCell, (envUnref_cells env store).1]
  rw [NaviScheme.naviFree, Store.load_eq _ hc, ok_bind] at hst
  cases ht : c.type
  case naviMacro => exact absurd ht hbalanced.1
  case naviPromise => exact absurd ht hbalanced.2
  case naviThunk | naviBounce =>
    cases hd : c.data
    case thunk expr env =>
      simp only [ht, hd] at hst
      obtain rfl := Except.ok.inj hst
      exact ⟨henv env, .inr (.inr ⟨env, by rw [Cell.holds, ht, hd], rfl⟩)⟩
    all_goals simp [ht, hd] at hst
  case naviProcedure =>
    cases hd : c.data
    case proc p =>
      simp only [ht, hd] at hst
      obtain rfl := Except.ok.inj hst
      have hcells : (store.unref p.env).cells = store.cells := (naviScopeUnref_cells _ _ _).1
      exact ⟨by rw [Store.freeCell, hcells],
        .inr (.inl ⟨p.env, by rw [Cell.holds, ht, hd], rfl⟩)⟩
    all_goals simp [ht, hd] at hst
  case naviEnvironment =>
    cases hd : c.data
    case environment env =>
      simp only [ht, hd] at hst
      obtain rfl := Except.ok.inj hst
      exact ⟨henv env, .inr (.inr ⟨env, by rw [Cell.holds, ht, hd], rfl⟩)⟩
    all_goals simp [ht, hd] at hst
  all_goals
    simp only [ht] at hst
    obtain rfl := Except.ok.inj hst
    exact ⟨rfl, .inl ⟨by simp [Cell.holds, ht], rfl⟩⟩

/-- `navi_env_unref`, of scopes that each had one holder more. -/
theorem scopesOk_envUnref {store : Store} {n : ℕ} {ext : ℕ → ℕ} {env : NaviEnv}
    (h : ScopesOk store.scopes n fun t => ext t + one env.dynamic t + one env.lexical t)
    (hlt : ∀ t, ext t + one env.dynamic t + one env.lexical t + inner store.scopes n t < 2 ^ 32) :
    ScopesOk (store.envUnref env).scopes n ext := by
  obtain ⟨hl, hle⟩ := h.scopeUnref hlt (Nat.lt_succ_self env.lexical)
  refine (ScopesOk.scopeUnref hl (fun t => ?_) (Nat.lt_succ_self env.dynamic)).1
  have := hlt t
  have := hle t
  omega

theorem Counted.naviFree (h : st.Counted) (hlt : ∀ s : ℕ, st.holders s < 2 ^ 32)
    (hbalanced : RefOp.Balanced st (.naviFree a)) {store : Store}
    (hst : NaviScheme.naviFree a st.store = .ok store) : { st with store := store }.Counted := by
  obtain ⟨c, hc⟩ : ∃ c, st.store.cells a = some c := by
    cases hc : st.store.cells a with
    | some c => exact ⟨c, rfl⟩
    | none => simp [NaviScheme.naviFree, Store.load, hc, bind, Except.bind] at hst
  obtain ⟨hcells, hscopes⟩ := naviFree_scopes hc (hbalanced c hc) hst
  have hsum : ∀ s : ℕ, { st with store := store }.outerHolders s + c.holds.count s =
      st.outerHolders s := fun s => outerHolders_update (s := s) h hc hcells
  have hok : ScopesOk store.scopes st.nextScope { st with store := store }.outerHolders := by
    rcases hscopes with ⟨hholds, heq⟩ | ⟨s, hholds, heq⟩ | ⟨env, hholds, heq⟩
    · rw [heq]
      exact h.scopes.congr fun s => by simpa [hholds] using hsum s
    · rw [heq]
      have hone : ∀ t, { st with store := store }.outerHolders t + one s t = st.outerHolders t :=
        fun t => by simpa [hholds, count_cons_one] using hsum t
      refine (ScopesOk.scopeUnref (h.scopes.congr hone) (fun t => ?_) (Nat.lt_succ_self s)).1
      rw [hone]
      exact hlt t
    · rw [heq]
      have hone : ∀ t, { st with store := store }.outerHolders t + one env.dynamic t +
          one env.lexical t = st.outerHolders t := fun t => by
        rw [← hsum t, hholds, count_cons_one, count_cons_one, List.count_nil]
        omega
      refine scopesOk_envUnref (h.scopes.congr hone) fun t => ?_
      rw [hone]
      exact hlt t
  refine ⟨hok, fun k hk => ?_, fun k hk => ?_⟩
  · rw [hcells, Function.update_apply]
    split_ifs
    · rfl
    · exact h.objs k hk
  · rw [hcells, Function.update_apply]
    split_ifs
    · rfl
    · exact h.thunks k hk

/-- **A step keeps the count.** -/
theorem Counted.step (h : st.Counted) (hlt : ∀ s : ℕ, st.holders s < 2 ^ 32) {op : RefOp}
    (hallowed : op.Allowed st) (hbalanced : op.Balanced st) (hst : op.step st = .ok st') :
    st'.Counted := by
  cases op with
  | naviMakeScope =>
    obtain rfl := Except.ok.inj hst
    exact h.naviMakeScope
  | naviEnvNewScope env =>
    rw [RefOp.step, RefState.naviEnvNewScope] at hst
    obtain ⟨store, hstore, hst⟩ := bind_eq_ok hst
    obtain ⟨new, hnew, hst⟩ := bind_eq_ok hst
    obtain rfl := Except.ok.inj hst
    exact h.newScope (.inl ⟨rfl, rfl⟩) hallowed.1 hstore hnew
  | naviDynamicEnvNewScope env =>
    rw [RefOp.step, RefState.naviDynamicEnvNewScope] at hst
    obtain ⟨store, hstore, hst⟩ := bind_eq_ok hst
    obtain ⟨new, hnew, hst⟩ := bind_eq_ok hst
    obtain rfl := Except.ok.inj hst
    exact h.newScope (.inr ⟨rfl, rfl⟩) hallowed.2 hstore hnew
  | newLexicalEnvironment env =>
    rw [RefOp.step, RefState.newLexicalEnvironment] at hst
    obtain ⟨store, hstore, hst⟩ := bind_eq_ok hst
    obtain rfl := Except.ok.inj hst
    obtain ⟨hok, hcells, -⟩ := h.naviMakeScope.scopes.scopeRef hstore
    refine h.naviMakeScope.change hok hcells fun s => ?_
    rw [count_cons_one]
    omega
  | naviMakeProcedure p => exact (h.naviMakeProcedure hst).1
  | naviMakeMacro p => exact h.naviMakeRetagged (.inl rfl) hst
  | naviMakePromise p => exact h.naviMakeRetagged (.inr rfl) hst
  | naviMakeThunk expr env => exact (h.naviMakeThunk hst).1
  | naviMakeBounce expr env => exact h.naviMakeBounce hst
  | naviCaptureEnv env => exact hbalanced.elim
  | makeObject t d =>
    obtain rfl := Except.ok.inj hst
    have hholds : (Cell.holds ⟨st.store.first, t, false, false, d⟩) = [] := by
      obtain ⟨h₁, h₂, h₃, h₄, h₅, h₆⟩ := hallowed
      cases t <;> first | rfl | contradiction
    exact h.makeAfter (h.scopes.congr fun s => by rw [hholds, List.count_nil, Nat.add_zero]) rfl
  | naviEnvRef env =>
    rw [RefOp.step] at hst
    obtain ⟨store, hstore, hst⟩ := bind_eq_ok hst
    obtain rfl := Except.ok.inj hst
    obtain ⟨hok, hcells, -⟩ := h.scopes.envRef hstore
    refine h.change hok hcells fun s => ?_
    rw [count_cons_one, count_cons_one]
    omega
  | naviEnvUnref env =>
    obtain rfl := Except.ok.inj hst
    obtain ⟨hl, hd⟩ := hallowed
    have hcount : ∀ s : ℕ, st.held.count s =
        ((st.held.erase env.lexical).erase env.dynamic).count s + one env.dynamic s +
          one env.lexical s := fun s => by
      rw [← count_cons_one, ← count_cons_one, (List.perm_cons_erase hl).count_eq]
      exact ((List.perm_cons_erase hd).cons _).count_eq s
    have hrest : ∀ s : ℕ, { st with
        held := (st.held.erase env.lexical).erase env.dynamic }.outerHolders s +
          one env.dynamic s + one env.lexical s = st.outerHolders s := fun s => by
      have := hcount s
      simp only [outerHolders]
      omega
    refine h.change (scopesOk_envUnref (h.scopes.congr hrest) fun s => ?_)
      (envUnref_cells env st.store).1 fun s => ?_
    · rw [hrest]
      exact hlt s
    · have := hrest s
      have := hcount s
      omega
  | naviFree a =>
    rw [RefOp.step] at hst
    obtain ⟨store, hstore, hst⟩ := bind_eq_ok hst
    obtain rfl := Except.ok.inj hst
    exact h.naviFree hlt hbalanced hstore

end RefState

/-- A step that keeps the count, and after which no scope has `2 ^ 32` holders. -/
def RefOp.Keeps (st : RefState) (op : RefOp) : Prop :=
  op.Balanced st ∧ ∀ st', op.step st = .ok st' → ∀ s, st'.holders s < 2 ^ 32

/-- **The states of a run** from an empty heap, all of whose steps satisfy a condition. -/
inductive RefReach (P : RefState → RefOp → Prop) : RefState → Prop
  | init : RefReach P .init
  | step {st st' : RefState} (op : RefOp) (h : RefReach P st) (hallowed : op.Allowed st)
    (hP : P st op) (hst : op.step st = .ok st') : RefReach P st'

theorem RefReach.counted {st : RefState} (h : RefReach (fun st op => op.Keeps st) st) :
    st.Counted ∧ ∀ s : ℕ, st.holders s < 2 ^ 32 := by
  induction h with
  | init =>
    refine ⟨⟨⟨by simp [RefState.init], fun s _ => ?_, fun _ _ => rfl, by simp [RefState.init]⟩,
      fun _ _ => rfl, fun _ _ => rfl⟩, fun s => ?_⟩
    · simp [RefState.outerHolders, inner, tally, RefState.init]
    · simp [RefState.holders, RefState.outerHolders, RefState.innerScopes, tally, RefState.init]
  | step op _ hallowed hkeeps hst ih =>
    exact ⟨ih.1.step ih.2 hallowed hkeeps.1 hst, hkeeps.2 _ hst⟩

/-- **The references of a scope are its holders**, and it is in memory as long as it has
any. -/
theorem refReach_correct {st : RefState} (h : RefReach (fun st op => op.Keeps st) st)
    (s : ScopeAddr) :
    (∀ sc, st.store.scopes s = some sc → sc.refs = st.holders s) ∧
      ((st.store.scopes s).isSome ↔ 0 < st.holders s) := by
  obtain ⟨hcounted, hlt⟩ := h.counted
  refine ⟨fun sc hs => ?_, ?_⟩
  · rw [(hcounted.scopes.live s sc hs).1]
    exact Nat.mod_eq_of_lt (hlt s)
  · constructor
    · intro hs
      obtain ⟨sc, hs⟩ := Option.isSome_iff_exists.mp hs
      exact (hcounted.scopes.live s sc hs).2
    · intro hpos
      by_contra hs
      exact hpos.ne' (hcounted.scopes.dead s (Option.not_isSome_iff_eq_none.mp hs))

/-- A new scope is held by its maker. -/
theorem refReach_correct_makeScope :
    (∀ sc, RefState.init.naviMakeScope.store.scopes 0 = some sc →
        sc.refs = RefState.init.naviMakeScope.holders 0) ∧
      ((RefState.init.naviMakeScope.store.scopes 0).isSome ↔
        0 < RefState.init.naviMakeScope.holders 0) := by
  have hstep : RefOp.step RefState.init .naviMakeScope = .ok RefState.init.naviMakeScope := rfl
  refine refReach_correct (.step .naviMakeScope .init trivial ⟨trivial, fun st' hst' s => ?_⟩ hstep) 0
  obtain rfl := Except.ok.inj (hstep.symm.trans hst')
  have hholders : RefState.init.naviMakeScope.holders s = [0].count s := by
    simp [RefState.holders, RefState.outerHolders, RefState.innerScopes, tally, RefState.init,
      RefState.naviMakeScope, Store.setScope]
  have hle := List.count_le_length (a := s) (l := [0])
  rw [hholders]
  exact hle.trans_lt (by decide)

/-- A procedure in the scope 0. -/
def scopeProcedure : NaviProcedure := ⟨false, 0, .nil, 0, .nil, .body .nil, none⟩

/-- **Two runs that spoil the count.** Freeing a macro leaves the scope with a reference too
many; capturing an environment, and freeing what has been captured, takes the scope away
from its holder. -/
theorem refReach_incorrect :
    (∃ st, RefReach (fun _ _ => True) st ∧ (st.store.scopes 0).map NaviScope.refs = some 2 ∧
      st.holders 0 = 1) ∧
    ∃ st, RefReach (fun _ _ => True) st ∧ st.store.scopes 0 = none ∧ st.holders 0 = 1 := by
  constructor
  · refine ⟨_, .step (.naviFree (.obj 0)) (.step (.naviMakeMacro scopeProcedure)
      (.step .naviMakeScope .init trivial trivial rfl) trivial trivial rfl) trivial trivial rfl,
      rfl, ?_⟩
    decide
  · refine ⟨_, .step (.naviFree (.obj 0)) (.step (.naviCaptureEnv ⟨0, 1⟩) (.step .naviMakeScope
      (.step .naviMakeScope .init trivial trivial rfl) trivial trivial rfl) trivial trivial rfl)
      trivial trivial rfl, rfl, ?_⟩
    decide

end NaviScheme
