import NaviScheme.Heap.Symbols

/-!
# The bindings of scopes

A scope has 64 lists of bindings, and the word of a symbol says in which of them its binding is. The
functions of `environment.c` that set, unset and look up bindings are here as they work on the
pointers of these lists (`EnvMemory`).

To the program a scope is a finite map from symbols to objects (`ScopeMaps`), and that is what the
functions implement over any sequence of calls (`scopes_refine`). The invariant is `StandsFor`: each
binding is in the list where it is looked for, and there is one for a symbol at most.
-/

namespace NaviScheme

/-- The address of a `struct navi_binding`. -/
abbrev BindingAddr := ℕ

/-- One of the lists of bindings of a scope. -/
abbrev Bucket := ScopeAddr × Fin 64

/-- The scopes and the bindings in memory. Scopes are numbered in the order in which they are made,
and have no bindings up to then. -/
structure EnvMemory where
  /-- `next`, of the scopes -/
  next : ScopeAddr → Option ScopeAddr
  /-- `bindings`, of the scopes, and `link` -/
  links : Links Bucket BindingAddr
  symbol : BindingAddr → NaviWord
  object : BindingAddr → NaviWord
  /-- The bindings that have been made. -/
  made : List BindingAddr

namespace EnvMemory

/-- The memory before the first binding is made. -/
def start (next : ScopeAddr → Option ScopeAddr) : EnvMemory :=
  ⟨next, .empty, fun _ => 0, fun _ => 0, []⟩

/-- `ptr_hash` -/
def ptrHash (ptr : NaviWord) : ℕ := ptr.toNat

/-- `get_bucket` -/
def getBucket (scope : ScopeAddr) (hashcode : ℕ) : Bucket := (scope, hashBucket hashcode)

/-- `scope_lookup`. There are no more bindings in a list than have been made. -/
def scopeLookup (m : EnvMemory) (scope : ScopeAddr) (symbol : NaviWord) (hashcode : ℕ) :
    Option (Option BindingAddr) :=
  m.links.find (fun b => m.symbol b = symbol) (m.made.length + 1) (.head (getBucket scope hashcode))

/-- `navi_scope_lookup` -/
def naviScopeLookup (m : EnvMemory) (scope : ScopeAddr) (symbol : NaviWord) :
    Option (Option BindingAddr) :=
  m.scopeLookup scope symbol (ptrHash symbol)

/-- `navi_env_binding`, along a chain of at most `n` scopes. -/
def envBindingUpTo (m : EnvMemory) (symbol : NaviWord) : ℕ → ScopeAddr → Option (Option BindingAddr)
  | 0, _ => none
  | n + 1, s => do
    match ← m.scopeLookup s symbol (ptrHash symbol) with
    | some b => return some b
    | none =>
      match m.next s with
      | some t => envBindingUpTo m symbol n t
      | none => return none

/-- `navi_env_binding` -/
def naviEnvBinding (m : EnvMemory) (env : ScopeAddr) (symbol : NaviWord) :
    Option (Option BindingAddr) :=
  m.envBindingUpTo symbol (env + 1) env

variable (alloc : List BindingAddr → BindingAddr)

/-- `navi_make_binding`, and `NAVI_LIST_INSERT_HEAD`; `alloc` stands for `navi_slab_alloc`. -/
def insertBinding (m : EnvMemory) (head : Bucket) (symbol object : NaviWord) : EnvMemory :=
  { m with
    links := m.links.insertHead head (alloc m.made)
    symbol := Function.update m.symbol (alloc m.made) symbol
    object := Function.update m.object (alloc m.made) object
    made := alloc m.made :: m.made }

/-- The new binding. -/
theorem insertBinding_self (m : EnvMemory) (head : Bucket) (symbol object : NaviWord) :
    (m.insertBinding alloc head symbol object).symbol (alloc m.made) = symbol ∧
      (m.insertBinding alloc head symbol object).object (alloc m.made) = object :=
  ⟨Function.update_self _ _ _, Function.update_self _ _ _⟩

theorem insertBinding_of_ne (m : EnvMemory) (head : Bucket) (symbol object : NaviWord)
    {b : BindingAddr} (h : b ≠ alloc m.made) :
    (m.insertBinding alloc head symbol object).symbol b = m.symbol b ∧
      (m.insertBinding alloc head symbol object).object b = m.object b :=
  ⟨Function.update_of_ne h _ _, Function.update_of_ne h _ _⟩

/-- `binding->object = object` -/
def setObject (m : EnvMemory) (b : BindingAddr) (object : NaviWord) : EnvMemory :=
  { m with object := Function.update m.object b object }

theorem setObject_object_self (m : EnvMemory) (b : BindingAddr) (object : NaviWord) :
    (m.setObject b object).object b = object := Function.update_self _ _ _

theorem setObject_object_of_ne (m : EnvMemory) {b b' : BindingAddr} (object : NaviWord)
    (h : b' ≠ b) : (m.setObject b object).object b' = m.object b' := Function.update_of_ne h _ _

/-- `navi_scope_set` -/
def naviScopeSet (m : EnvMemory) (env : ScopeAddr) (symbol object : NaviWord) :
    Option EnvMemory := do
  match ← m.scopeLookup env symbol (ptrHash symbol) with
  | some b => return m.setObject b object
  | none => return m.insertBinding alloc (getBucket env (ptrHash symbol)) symbol object

/-- `navi_scope_unset` -/
def naviScopeUnset (m : EnvMemory) (env : ScopeAddr) (symbol : NaviWord) :
    Option (Bool × EnvMemory) := do
  match ← m.scopeLookup env symbol (ptrHash symbol) with
  | none => return (false, m)
  | some b => return (true, { m with links := ← m.links.remove b })

end EnvMemory

/-! ### Calls -/

/-- A call on a scope. -/
inductive ScopeCall
  | set (s : ScopeAddr) (symbol object : NaviWord)
  | unset (s : ScopeAddr) (symbol : NaviWord)
  | lookup (s : ScopeAddr) (symbol : NaviWord)
  deriving DecidableEq, Repr

/-- What it returns. -/
inductive ScopeReply
  | done
  | removed (present : Bool)
  /-- The object of the binding, if there is one. -/
  | found (object : Option NaviWord)
  deriving DecidableEq, Repr

namespace ScopeCall

/-- What a call does; `none` where it faults or does not end. -/
def run (alloc : List BindingAddr → BindingAddr) (m : EnvMemory) :
    ScopeCall → Option (ScopeReply × EnvMemory)
  | set s symbol object => (m.naviScopeSet alloc s symbol object).map (.done, ·)
  | unset s symbol => (m.naviScopeUnset s symbol).map fun r => (.removed r.1, r.2)
  | lookup s symbol => (m.naviScopeLookup s symbol).map fun b => (.found (b.map m.object), m)

/-- What a sequence of calls does. -/
def runAll (alloc : List BindingAddr → BindingAddr) (m : EnvMemory) :
    List ScopeCall → Option (List ScopeReply × EnvMemory)
  | [] => some ([], m)
  | c :: cs => do
    let (reply, m) ← c.run alloc m
    let (replies, m) ← runAll alloc m cs
    return (reply :: replies, m)

end ScopeCall

/-- `set!`, of a symbol and a value; while the value is evaluated the calls `evaluation` are made.
`none` inside of `some` is an unbound identifier. -/
def EnvMemory.setBang (alloc : List BindingAddr → BindingAddr) (m : EnvMemory) (env : ScopeAddr)
    (symbol value : NaviWord) (evaluation : List ScopeCall) : Option (Option EnvMemory) := do
  match ← m.naviEnvBinding env symbol with
  | none => return none
  | some b => return some ((← ScopeCall.runAll alloc m evaluation).2.setObject b value)

/-! ### Scopes as maps -/

/-- The objects of the symbols in each scope. -/
abbrev ScopeMaps := ScopeAddr → NaviWord → Option NaviWord

namespace ScopeMaps

/-- No bindings. -/
def empty : ScopeMaps := fun _ _ => none

/-- A symbol of a scope is bound, or unbound. -/
def put (M : ScopeMaps) (s : ScopeAddr) (symbol : NaviWord) (object : Option NaviWord) :
    ScopeMaps :=
  Function.update M s (Function.update (M s) symbol object)

end ScopeMaps

/-- The scopes from `s` on, outwards, as far as `n` of them. -/
def chainUpTo (next : ScopeAddr → Option ScopeAddr) : ℕ → ScopeAddr → List ScopeAddr
  | 0, _ => []
  | n + 1, s => s :: (next s).elim [] (chainUpTo next n)

/-- The scopes from `s` on, outwards. -/
def scopeChain (next : ScopeAddr → Option ScopeAddr) (s : ScopeAddr) : List ScopeAddr :=
  chainUpTo next (s + 1) s

/-- The innermost scope that has the symbol. -/
def ScopeMaps.innermost (M : ScopeMaps) (next : ScopeAddr → Option ScopeAddr) (env : ScopeAddr)
    (symbol : NaviWord) : Option ScopeAddr :=
  (scopeChain next env).find? fun s => (M s symbol).isSome

namespace ScopeCall

/-- What a call does to the maps. -/
def meaning (M : ScopeMaps) : ScopeCall → ScopeReply × ScopeMaps
  | set s symbol object => (.done, M.put s symbol (some object))
  | unset s symbol => (.removed (M s symbol).isSome, M.put s symbol none)
  | lookup s symbol => (.found (M s symbol), M)

/-- What a sequence of calls does to the maps. -/
def meaningAll (M : ScopeMaps) : List ScopeCall → List ScopeReply × ScopeMaps
  | [] => ([], M)
  | c :: cs => ((c.meaning M).1 :: (meaningAll (c.meaning M).2 cs).1, (meaningAll (c.meaning M).2 cs).2)

end ScopeCall

/-- The lists of bindings and the maps that they stand for. -/
structure StandsFor (m : EnvMemory) (T : Bucket → List BindingAddr) (M : ScopeMaps) : Prop where
  links : m.links.Represents T
  /-- The bindings in the lists have been made. -/
  made : ∀ h, ∀ b ∈ T h, b ∈ m.made
  /-- They are where they are looked for. -/
  bucket : ∀ s i, ∀ b ∈ T (s, i), EnvMemory.getBucket s (EnvMemory.ptrHash (m.symbol b)) = (s, i)
  /-- There is one for a symbol. -/
  unique : ∀ h, ∀ b ∈ T h, ∀ b' ∈ T h, m.symbol b = m.symbol b' → b = b'
  map : ∀ s symbol object, M s symbol = some object ↔
    ∃ b ∈ T (EnvMemory.getBucket s (EnvMemory.ptrHash symbol)), m.symbol b = symbol ∧
      m.object b = object

section

variable {alloc : List BindingAddr → BindingAddr} {m m' : EnvMemory} {T : Bucket → List BindingAddr}
  {M : ScopeMaps} {s s' : ScopeAddr} {k k' v : NaviWord} {b : BindingAddr}

open EnvMemory

theorem standsFor_start (next : ScopeAddr → Option ScopeAddr) :
    StandsFor (EnvMemory.start next) (fun _ => []) .empty where
  links := Links.represents_empty
  made _ _ h := nomatch h
  bucket _ _ _ h := nomatch h
  unique _ _ h := nomatch h
  map _ _ _ := ⟨nofun, fun ⟨_, h, _⟩ => nomatch h⟩

namespace ScopeMaps

theorem put_self (M : ScopeMaps) (s : ScopeAddr) (k : NaviWord) (o : Option NaviWord) :
    M.put s k o s k = o := by
  rw [put, Function.update_self, Function.update_self]

/-- Other symbols and other scopes are as they were. -/
theorem put_of_ne (M : ScopeMaps) (o : Option NaviWord) (h : ¬ (s' = s ∧ k' = k)) :
    M.put s k o s' k' = M s' k' := by
  rw [put]
  by_cases hs : s' = s
  · subst hs
    rw [Function.update_self, Function.update_of_ne fun hk => h ⟨rfl, hk⟩]
  · rw [Function.update_of_ne hs]

end ScopeMaps

namespace StandsFor

/-- The lists of two scopes have nothing in common. -/
theorem scope_eq (h : StandsFor m T M) (hb : b ∈ T (getBucket s (ptrHash k)))
    (hb' : b ∈ T (getBucket s' (ptrHash k'))) : s' = s :=
  congrArg Prod.fst (h.links.disjoint hb' hb)

/-- A lookup finds the binding of the symbol. -/
theorem lookup_cases (h : StandsFor m T M) (s : ScopeAddr) (k : NaviWord) :
    (m.naviScopeLookup s k = some none ∧ M s k = none) ∨
      ∃ b ∈ T (getBucket s (ptrHash k)), m.naviScopeLookup s k = some (some b) ∧ m.symbol b = k ∧
        M s k = some (m.object b) := by
  have hlength : (T (getBucket s (ptrHash k))).length < m.made.length + 1 :=
    Nat.lt_succ_of_le ((h.links.nodup _).subperm (h.made _)).length_le
  have hfind : m.naviScopeLookup s k =
      some ((T (getBucket s (ptrHash k))).find? fun b => m.symbol b = k) :=
    (h.links.holds _).find_eq hlength
  cases hb : (T (getBucket s (ptrHash k))).find? fun b => m.symbol b = k with
  | none =>
    rw [hb] at hfind
    refine .inl ⟨hfind, Option.eq_none_iff_forall_ne_some.mpr fun v hv => ?_⟩
    obtain ⟨b, hmem, hsymbol, -⟩ := (h.map s k v).mp hv
    exact List.find?_eq_none.mp hb b hmem (decide_eq_true hsymbol)
  | some b =>
    rw [hb] at hfind
    have hmem := List.mem_of_find?_eq_some hb
    have hsymbol : m.symbol b = k :=
      of_decide_eq_true (List.find?_some (p := fun b => decide (m.symbol b = k)) hb)
    exact .inr ⟨b, hmem, hfind, hsymbol, (h.map s k _).mpr ⟨b, hmem, hsymbol, rfl⟩⟩

/-- The object of a binding is changed in place. -/
theorem setObject (h : StandsFor m T M) (hb : b ∈ T (getBucket s (ptrHash k)))
    (hsymbol : m.symbol b = k) (v : NaviWord) :
    StandsFor (m.setObject b v) T (M.put s k (some v)) := by
  refine ⟨h.links, h.made, h.bucket, h.unique, fun s' k' v' => ?_⟩
  by_cases heq : s' = s ∧ k' = k
  · obtain ⟨rfl, rfl⟩ := heq
    rw [ScopeMaps.put_self]
    constructor
    · intro hv
      exact ⟨b, hb, hsymbol, (m.setObject_object_self b v).trans (Option.some.inj hv)⟩
    · rintro ⟨b', hb', hsymbol', hv⟩
      obtain rfl := h.unique _ b' hb' b hb (hsymbol'.trans hsymbol.symm)
      exact congrArg some ((m.setObject_object_self b' v).symm.trans hv)
  · rw [ScopeMaps.put_of_ne M (some v) heq, h.map]
    refine exists_congr fun b' => and_congr_right fun hb' => and_congr_right fun hsymbol' => ?_
    have hne : b' ≠ b := by
      rintro rfl
      obtain rfl : k' = k := hsymbol'.symm.trans hsymbol
      exact heq ⟨h.scope_eq hb hb', rfl⟩
    rw [m.setObject_object_of_ne v hne]

/-- A binding that is in no list can be changed. -/
theorem setObject_of_not_mem (h : StandsFor m T M) (hb : ∀ g, b ∉ T g) (v : NaviWord) :
    StandsFor (m.setObject b v) T M := by
  refine ⟨h.links, h.made, h.bucket, h.unique, fun s' k' v' => ?_⟩
  rw [h.map]
  refine exists_congr fun b' => and_congr_right fun hb' => and_congr_right fun _ => ?_
  have hne : b' ≠ b := fun heq => hb _ (heq ▸ hb')
  rw [m.setObject_object_of_ne v hne]

/-- A binding is made where the symbol has none. -/
theorem insertBinding (h : StandsFor m T M) (halloc : ∀ l, alloc l ∉ l) (hk : M s k = none)
    (v : NaviWord) :
    StandsFor (m.insertBinding alloc (getBucket s (ptrHash k)) k v)
      (Function.update T (getBucket s (ptrHash k))
        (alloc m.made :: T (getBucket s (ptrHash k)))) (M.put s k (some v)) := by
  have hfresh : ∀ g, alloc m.made ∉ T g := fun g hmem => halloc _ (h.made g _ hmem)
  have hnone : ∀ b ∈ T (getBucket s (ptrHash k)), m.symbol b ≠ k := by
    intro b hb hsymbol
    have hsome := (h.map s k (m.object b)).mpr ⟨b, hb, hsymbol, rfl⟩
    rw [hk] at hsome
    cases hsome
  -- the new binding, and the ones that there were
  have hnew := insertBinding_self alloc m (getBucket s (ptrHash k)) k v
  have hold : ∀ {g b}, b ∈ T g →
      (m.insertBinding alloc (getBucket s (ptrHash k)) k v).symbol b = m.symbol b ∧
        (m.insertBinding alloc (getBucket s (ptrHash k)) k v).object b = m.object b :=
    fun hb => insertBinding_of_ne alloc m _ k v fun heq => hfresh _ (heq ▸ hb)
  refine ⟨h.links.insertHead hfresh _, fun g b hb => ?_, fun s' i b hb => ?_,
    fun g b hb b' hb' hsymbol => ?_, fun s' k' v' => ?_⟩
  · obtain hb | ⟨-, rfl⟩ := Links.mem_update_cons.mp hb
    · exact List.mem_cons_of_mem _ (h.made g b hb)
    · exact List.mem_cons_self
  · obtain hb | ⟨hg, rfl⟩ := Links.mem_update_cons.mp hb
    · rw [(hold hb).1]
      exact h.bucket s' i b hb
    · rw [hnew.1, hg, show s' = s from congrArg Prod.fst hg]
  · obtain hb | ⟨rfl, rfl⟩ := Links.mem_update_cons.mp hb
    · rw [(hold hb).1] at hsymbol
      obtain hb' | ⟨rfl, rfl⟩ := Links.mem_update_cons.mp hb'
      · rw [(hold hb').1] at hsymbol
        exact h.unique g b hb b' hb' hsymbol
      · rw [hnew.1] at hsymbol
        exact absurd hsymbol (hnone b hb)
    · rw [hnew.1] at hsymbol
      obtain hb' | ⟨-, rfl⟩ := Links.mem_update_cons.mp hb'
      · rw [(hold hb').1] at hsymbol
        exact absurd hsymbol.symm (hnone b' hb')
      · rfl
  · by_cases heq : s' = s ∧ k' = k
    · obtain ⟨rfl, rfl⟩ := heq
      rw [ScopeMaps.put_self]
      constructor
      · intro hv
        exact ⟨_, Links.mem_update_cons.mpr (.inr ⟨rfl, rfl⟩), hnew.1,
          hnew.2.trans (Option.some.inj hv)⟩
      · rintro ⟨b, hb, hsymbol, hv⟩
        obtain hb | ⟨-, rfl⟩ := Links.mem_update_cons.mp hb
        · rw [(hold hb).1] at hsymbol
          exact absurd hsymbol (hnone b hb)
        · exact congrArg some (hnew.2.symm.trans hv)
    · rw [ScopeMaps.put_of_ne M (some v) heq, h.map]
      constructor
      · rintro ⟨b, hb, hsymbol, hv⟩
        exact ⟨b, Links.mem_update_cons.mpr (.inl hb), (hold hb).1.trans hsymbol,
          (hold hb).2.trans hv⟩
      · rintro ⟨b, hb, hsymbol, hv⟩
        obtain hb | ⟨hg, rfl⟩ := Links.mem_update_cons.mp hb
        · exact ⟨b, hb, (hold hb).1.symm.trans hsymbol, (hold hb).2.symm.trans hv⟩
        · exact absurd ⟨congrArg Prod.fst hg, hsymbol.symm.trans hnew.1⟩ heq

/-- A binding is taken out of its list. -/
theorem remove (h : StandsFor m T M) (hb : b ∈ T (getBucket s (ptrHash k))) (hsymbol : m.symbol b = k) :
    ∃ L, m.links.remove b = some L ∧ StandsFor { m with links := L }
      (Function.update T (getBucket s (ptrHash k)) ((T (getBucket s (ptrHash k))).erase b))
      (M.put s k none) := by
  obtain ⟨L, hL, hlinks⟩ := h.links.remove hb
  have hmem : ∀ {g b'}, b' ∈ Function.update T (getBucket s (ptrHash k))
      ((T (getBucket s (ptrHash k))).erase b) g ↔ b' ∈ T g ∧ b' ≠ b := h.links.mem_update_erase hb
  refine ⟨L, hL, hlinks, fun g b' hb' => h.made g b' (hmem.mp hb').1,
    fun s' i b' hb' => h.bucket s' i b' (hmem.mp hb').1, fun g b₁ hb₁ b₂ hb₂ =>
      h.unique g b₁ (hmem.mp hb₁).1 b₂ (hmem.mp hb₂).1, fun s' k' v => ?_⟩
  by_cases heq : s' = s ∧ k' = k
  · obtain ⟨rfl, rfl⟩ := heq
    rw [ScopeMaps.put_self]
    refine iff_of_false nofun ?_
    rintro ⟨b', hb', hsymbol', -⟩
    obtain ⟨hb', hne⟩ := hmem.mp hb'
    exact hne (h.unique _ b' hb' b hb (hsymbol'.trans hsymbol.symm))
  · rw [ScopeMaps.put_of_ne M none heq, h.map]
    refine exists_congr fun b' => ?_
    rw [hmem, and_assoc]
    refine and_congr_right fun hb' => ⟨fun hmap => ⟨?_, hmap⟩, fun hmap => hmap.2⟩
    rintro rfl
    exact heq ⟨h.scope_eq hb hb', hmap.1.symm.trans hsymbol⟩

end StandsFor

/-! ### Runs -/

theorem ScopeMaps.put_eq_self (M : ScopeMaps) (s : ScopeAddr) (k : NaviWord) :
    M.put s k (M s k) = M := by
  rw [put, Function.update_eq_self, Function.update_eq_self]

/-- The binding of a symbol is in its list. -/
def Placed (m : EnvMemory) (T : Bucket → List BindingAddr) (b : BindingAddr) (s : ScopeAddr)
    (k : NaviWord) : Prop :=
  b ∈ T (getBucket s (ptrHash k)) ∧ m.symbol b = k

/-- A binding has been taken out of its list. -/
def Removed (m : EnvMemory) (T : Bucket → List BindingAddr) (b : BindingAddr) : Prop :=
  b ∈ m.made ∧ ∀ g, b ∉ T g

/-- What a call does to a binding: it stays in its list, or is taken out, and then stays out. -/
structure Tracks (c : ScopeCall) (m : EnvMemory) (T : Bucket → List BindingAddr) (m' : EnvMemory)
    (T' : Bucket → List BindingAddr) : Prop where
  next : m'.next = m.next
  placed : ∀ {b s k}, Placed m T b s k → c ≠ .unset s k → Placed m' T' b s k
  placed_or : ∀ {b s k}, Placed m T b s k → Placed m' T' b s k ∨ Removed m' T' b
  removed : ∀ {b}, Removed m T b → Removed m' T' b

theorem StandsFor.placed_insertBinding (h : StandsFor m T M) (halloc : ∀ l, alloc l ∉ l) {g : Bucket}
    (hb : Placed m T b s k) :
    Placed (m.insertBinding alloc g k' v) (Function.update T g (alloc m.made :: T g)) b s k := by
  have hne : b ≠ alloc m.made := fun heq => halloc _ (heq ▸ h.made _ b hb.1)
  exact ⟨Links.mem_update_cons.mpr (.inl hb.1),
    (insertBinding_of_ne alloc m g k' v hne).1.trans hb.2⟩

/-- Each call does to the lists what it does to the maps. -/
theorem ScopeCall.run_spec (halloc : ∀ l, alloc l ∉ l) (h : StandsFor m T M) (c : ScopeCall) :
    ∃ m' T', c.run alloc m = some ((c.meaning M).1, m') ∧ StandsFor m' T' (c.meaning M).2 ∧
      Tracks c m T m' T' := by
  have hsame : ∀ c, Tracks c m T m T := fun c => ⟨rfl, fun hb _ => hb, .inl, id⟩
  cases c with
  | lookup s k =>
    refine ⟨m, T, ?_, h, hsame _⟩
    obtain ⟨hnone, hM⟩ | ⟨b, -, hsome, -, hM⟩ := h.lookup_cases s k
    · rw [run, hnone, meaning, hM]
      rfl
    · rw [run, hsome, meaning, hM]
      rfl
  | set s k v =>
    obtain ⟨hnone, hM⟩ | ⟨b, hb, hsome, hsymbol, -⟩ := h.lookup_cases s k
    · refine ⟨_, _, ?_, h.insertBinding halloc hM v, rfl, fun hb _ => ?_, fun hb => .inl ?_,
        fun hb => ?_⟩
      · change (m.naviScopeLookup s k >>= _).map _ = _
        rw [hnone]
        rfl
      · exact h.placed_insertBinding halloc hb
      · exact h.placed_insertBinding halloc hb
      · obtain ⟨hmade, hlists⟩ := hb
        refine ⟨List.mem_cons_of_mem _ hmade, fun g hmem => ?_⟩
        obtain hmem | ⟨-, rfl⟩ := Links.mem_update_cons.mp hmem
        · exact hlists g hmem
        · exact halloc _ hmade
    · refine ⟨_, _, ?_, h.setObject hb hsymbol v, rfl, fun hb _ => hb, .inl, id⟩
      change (m.naviScopeLookup s k >>= _).map _ = _
      rw [hsome]
      rfl
  | unset s k =>
    obtain ⟨hnone, hM⟩ | ⟨b, hb, hsome, hsymbol, hM⟩ := h.lookup_cases s k
    · refine ⟨m, T, ?_, ?_, hsame _⟩
      · change (m.naviScopeLookup s k >>= _).map _ = _
        rw [hnone, meaning, hM]
        rfl
      · rw [meaning, ← hM, M.put_eq_self]
        exact h
    · obtain ⟨L, hL, hstands⟩ := h.remove hb hsymbol
      have hmem : ∀ {g b'}, b' ∈ Function.update T (getBucket s (ptrHash k))
          ((T (getBucket s (ptrHash k))).erase b) g ↔ b' ∈ T g ∧ b' ≠ b :=
        h.links.mem_update_erase hb
      refine ⟨_, _, ?_, hstands, rfl, fun {b' s' k'} hb' hne => ?_, fun {b' s' k'} hb' => ?_,
        fun hb' => ⟨hb'.1, fun g hg => hb'.2 g (hmem.mp hg).1⟩⟩
      · change (m.naviScopeLookup s k >>= _).map _ = _
        rw [hsome, meaning, hM]
        change ((m.links.remove b >>= _) : Option _).map _ = _
        rw [hL]
        rfl
      · refine ⟨hmem.mpr ⟨hb'.1, ?_⟩, hb'.2⟩
        rintro rfl
        obtain rfl : k' = k := hb'.2.symm.trans hsymbol
        obtain rfl := h.scope_eq hb hb'.1
        exact hne rfl
      · by_cases heq : b' = b
        · exact .inr ⟨h.made _ _ hb'.1, fun g hg => (hmem.mp hg).2 heq⟩
        · exact .inl ⟨hmem.mpr ⟨hb'.1, heq⟩, hb'.2⟩

/-- **A run of calls** replies as the maps do, and the lists stand for the maps again. -/
theorem ScopeCall.runAll_spec (halloc : ∀ l, alloc l ∉ l) (h : StandsFor m T M)
    (cs : List ScopeCall) :
    ∃ m' T', runAll alloc m cs = some ((meaningAll M cs).1, m') ∧
      StandsFor m' T' (meaningAll M cs).2 ∧ m'.next = m.next ∧
      (∀ {b s k}, Placed m T b s k → .unset s k ∉ cs → Placed m' T' b s k) ∧
      (∀ {b s k}, Placed m T b s k → Placed m' T' b s k ∨ Removed m' T' b) ∧
      ∀ {b}, Removed m T b → Removed m' T' b := by
  induction cs generalizing m T M with
  | nil => exact ⟨m, T, rfl, h, rfl, fun hb _ => hb, .inl, id⟩
  | cons c cs ih =>
    obtain ⟨m₁, T₁, hrun, h₁, hnext, hplaced, hplaced_or, hremoved⟩ := c.run_spec halloc h
    obtain ⟨m₂, T₂, hruns, h₂, hnext', hplaced', hplaced_or', hremoved'⟩ := ih h₁
    refine ⟨m₂, T₂, ?_, h₂, hnext'.trans hnext, fun hb hcs => ?_, fun hb => ?_,
      fun hb => hremoved' (hremoved hb)⟩
    · rw [runAll, hrun]
      change (runAll alloc m₁ cs >>= _) = _
      rw [hruns]
      rfl
    · rw [List.mem_cons, not_or] at hcs
      exact hplaced' (hplaced hb (Ne.symm hcs.1)) hcs.2
    · exact (hplaced_or hb).elim hplaced_or' fun hb => .inr (hremoved' hb)

/-! ### Chains -/

/-- The object that a lookup finds. -/
def EnvMemory.value (m : EnvMemory) (s : ScopeAddr) (k : NaviWord) : Option (Option NaviWord) :=
  (m.naviScopeLookup s k).map fun b => b.map m.object

theorem StandsFor.value_eq (h : StandsFor m T M) (s : ScopeAddr) (k : NaviWord) :
    m.value s k = some (M s k) := by
  obtain ⟨hnone, hM⟩ | ⟨b, -, hsome, -, hM⟩ := h.lookup_cases s k
  · rw [EnvMemory.value, hnone, hM]
    rfl
  · rw [EnvMemory.value, hsome, hM]
    rfl

theorem StandsFor.envBindingUpTo_eq (h : StandsFor m T M) (hnext : ∀ s t, m.next s = some t → t < s)
    (k : NaviWord) (n : ℕ) : ∀ s < n, m.envBindingUpTo k n s =
      ((chainUpTo m.next n s).find? fun s => (M s k).isSome).elim (some none)
        (m.naviScopeLookup · k) := by
  induction n with
  | zero => exact fun s hs => absurd hs (Nat.not_lt_zero s)
  | succ n ih =>
    intro s hs
    obtain ⟨hnone, hM⟩ | ⟨b, -, hsome, -, hM⟩ := h.lookup_cases s k
    · change (m.naviScopeLookup s k >>= _) = _
      rw [hnone, chainUpTo, List.find?_cons_of_neg (by rw [hM]; exact Bool.false_ne_true)]
      cases ht : m.next s with
      | none => rfl
      | some t => exact ih t (Nat.lt_of_lt_of_le (hnext s t ht) (Nat.le_of_lt_succ hs))
    · change (m.naviScopeLookup s k >>= _) = _
      rw [hsome, chainUpTo, List.find?_cons_of_pos (by rw [hM]; rfl)]
      exact hsome.symm

/-- `navi_env_binding` returns the binding of the innermost scope. -/
theorem StandsFor.naviEnvBinding_eq (h : StandsFor m T M) (hnext : ∀ s t, m.next s = some t → t < s)
    (env : ScopeAddr) (k : NaviWord) : m.naviEnvBinding env k =
      (M.innermost m.next env k).elim (some none) (m.naviScopeLookup · k) :=
  h.envBindingUpTo_eq hnext k (env + 1) env (Nat.lt_succ_self env)

/-- What `set!` does: it leaves all bindings but the innermost one of the symbol as the evaluation
of the value has left them, and this one has the value, if it is still in its scope. -/
def SetLaw (alloc : List BindingAddr → BindingAddr) (m : EnvMemory) (M : ScopeMaps)
    (env : ScopeAddr) (k v : NaviWord) (evaluation : List ScopeCall) : Prop :=
  match M.innermost m.next env k with
  | none => m.setBang alloc env k v evaluation = some none
  | some s => ∃ m', m.setBang alloc env k v evaluation = some (some m') ∧
    (∀ s' k', ¬ (s' = s ∧ k' = k) →
      m'.value s' k' = some ((ScopeCall.meaningAll M evaluation).2 s' k')) ∧
    (.unset s k ∉ evaluation → m'.value s k = some (some v)) ∧
    (m'.value s k = some (some v) ∨
      m'.value s k = some ((ScopeCall.meaningAll M evaluation).2 s k))

theorem StandsFor.setLaw (h : StandsFor m T M) (halloc : ∀ l, alloc l ∉ l)
    (hnext : ∀ s t, m.next s = some t → t < s) (env : ScopeAddr) (k v : NaviWord)
    (evaluation : List ScopeCall) : SetLaw alloc m M env k v evaluation := by
  have hbinding := h.naviEnvBinding_eq hnext env k
  rw [SetLaw]
  split
  · rename_i hnone
    rw [hnone] at hbinding
    change (m.naviEnvBinding env k >>= _) = _
    rw [hbinding]
    rfl
  · rename_i s hs
    rw [hs] at hbinding
    have hbound : (M s k).isSome := List.find?_some (p := fun s => (M s k).isSome) hs
    obtain ⟨-, hM⟩ | ⟨b, hb, hsome, hsymbol, -⟩ := h.lookup_cases s k
    · rw [hM] at hbound
      cases hbound
    obtain ⟨m₁, T₁, hrun, h₁, -, hplaced, hplaced_or, -⟩ :=
      ScopeCall.runAll_spec halloc h evaluation
    refine ⟨m₁.setObject b v, ?_, ?_⟩
    · change (m.naviEnvBinding env k >>= _) = _
      rw [hbinding]
      change (m.naviScopeLookup s k >>= _) = _
      rw [hsome]
      change (ScopeCall.runAll alloc m evaluation >>= _) = _
      rw [hrun]
      rfl
    · obtain ⟨hmem, hsymbol₁⟩ | ⟨-, hgone⟩ := hplaced_or ⟨hb, hsymbol⟩
      · have hvalue := (h₁.setObject hmem hsymbol₁ v).value_eq
        have hself : (m₁.setObject b v).value s k = some (some v) := by
          rw [hvalue, ScopeMaps.put_self]
        refine ⟨fun s' k' hne => ?_, fun _ => hself, .inl hself⟩
        rw [hvalue, ScopeMaps.put_of_ne _ _ hne]
      · have hvalue := (h₁.setObject_of_not_mem hgone v).value_eq
        refine ⟨fun s' k' _ => hvalue s' k', fun hunset => ?_, .inr (hvalue s k)⟩
        exact absurd (hplaced ⟨hb, hsymbol⟩ hunset).1 (hgone _)

/-- **Scopes are maps.** Any run of calls replies as maps do; a lookup finds what is in the map;
`navi_env_binding` finds the binding of the innermost scope; and `set!` changes this one. -/
theorem scopes_refine (halloc : ∀ l, alloc l ∉ l) (next : ScopeAddr → Option ScopeAddr)
    (hnext : ∀ s t, next s = some t → t < s) (cs : List ScopeCall) :
    ∃ m, ScopeCall.runAll alloc (EnvMemory.start next) cs =
        some ((ScopeCall.meaningAll .empty cs).1, m) ∧
      let M := (ScopeCall.meaningAll .empty cs).2
      (∀ s k, m.value s k = some (M s k)) ∧
      (∀ env k, m.naviEnvBinding env k =
        (M.innermost next env k).elim (some none) (m.naviScopeLookup · k)) ∧
      ∀ env k v evaluation, SetLaw alloc m M env k v evaluation := by
  obtain ⟨m, T, hrun, hm, hm', -⟩ := ScopeCall.runAll_spec halloc (standsFor_start next) cs
  change m.next = next at hm'
  subst hm'
  exact ⟨m, hrun, hm.value_eq, hm.naviEnvBinding_eq hnext, hm.setLaw halloc hnext⟩

/-- A scope within another one, in which the symbol is unbound again. -/
theorem scopes_refine_two :
    ∃ m, ScopeCall.runAll nextAddr (EnvMemory.start fun s => if s = 1 then some 0 else none)
        [.set 0 8 3, .set 1 8 5, .lookup 1 8, .unset 1 8, .lookup 1 8] =
        some ([.done, .done, .found (some 5), .removed true, .found none], m) ∧
      m.naviEnvBinding 1 8 = m.naviScopeLookup 0 8 := by
  have hnext : ∀ s t : ScopeAddr, (if s = 1 then some 0 else none) = some t → t < s := by
    intro s t h
    split at h
    · rename_i hs
      cases h
      exact hs ▸ Nat.one_pos
    · cases h
  obtain ⟨m, hrun, -, hbinding, -⟩ := scopes_refine nextAddr_not_mem _ hnext
    [.set 0 8 3, .set 1 8 5, .lookup 1 8, .unset 1 8, .lookup 1 8]
  exact ⟨m, hrun, hbinding 1 8⟩

end

end NaviScheme
