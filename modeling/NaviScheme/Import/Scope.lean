import NaviScheme.Import.Meaning

/-!
# What importing does to a scope

The loops of `import_only`, `import_except`, `import_prefix` and `import_rename`, run on a
scope that represents a map. The first two filter its bindings; the third sets the bindings
of another scope; the last renames one by one (`Renaming.seq`).

Importing changes only scopes that it has made and symbols that it adds
(`NaviScheme.World.Extends`), so the forms it reads stay what they are.
-/

namespace NaviScheme

open Prog

variable {F : FnSig} {w w' w'' : World} {s : ScopeAddr} {o : NaviObj} {n : String}

/-! ### Worlds that grow -/

/-- What was in a world is still in another. -/
structure World.Extends (w w' : World) : Prop where
  /-- the objects -/
  objs : ∀ a c, w.objs a = some c → w'.objs a = some c
  /-- the scopes -/
  scopes : ∀ s sc, w.scopes s = some sc → w'.scopes s = some sc
  /-- the symbols -/
  symtab : ∀ str a, w.symtab.lookup str = some a → w'.symtab.lookup str = some a

namespace World.Extends

theorem refl (w : World) : w.Extends w := ⟨fun _ _ h => h, fun _ _ h => h, fun _ _ h => h⟩

theorem trans (h : w.Extends w') (h' : w'.Extends w'') : w.Extends w'' :=
  ⟨fun a c hc => h'.objs a c (h.objs a c hc), fun s sc hs => h'.scopes s sc (h.scopes s sc hs),
    fun str a ha => h'.symtab str a (h.symtab str a ha)⟩

theorem load (h : w.Extends w') {c : NaviType × Data} (hc : w.load o = .ok c) :
    w'.load o = .ok c := by
  cases o with
  | ptr a =>
    simp only [World.load] at hc ⊢
    cases hobj : w.objs a with
    | none => simp [hobj] at hc
    | some c' =>
      rw [hobj] at hc
      rw [h.objs a c' hobj]
      exact hc
  | _ => exact hc

theorem isSym (h : w.Extends w') (hs : IsSym w o n) : IsSym w' o n := by
  obtain ⟨a, rfl, ha⟩ := hs
  exact ⟨a, rfl, h.symtab n a ha⟩

theorem spine (h : w.Extends w') {pairs xs : List NaviObj} (hs : Spine w o pairs xs) :
    Spine w' o pairs xs :=
  hs.of_isPair fun _ _ _ _ hpair => h.load hpair

theorem isRename (h : w.Extends w') {p : String × String} (hr : IsRename w o p) :
    IsRename w' o p := by
  obtain ⟨pairs, x, y, hs, hx, hy⟩ := hr
  exact ⟨pairs, x, y, h.spine hs, h.isSym hx, h.isSym hy⟩

/-- The binding that a chain of scopes has for a symbol. -/
theorem envBinding (h : w.Extends w') {symbol : NaviObj} {k : ℕ} {r : Option (ScopeAddr × NaviObj)}
    (hr : w.envBinding symbol k s = .ok r) : w'.envBinding symbol k s = .ok r := by
  induction k generalizing s with
  | zero => exact absurd hr (by simp [World.envBinding])
  | succ k ih =>
    rw [World.envBinding, World.loadScope] at hr ⊢
    cases hsc : w.scopes s with
    | none => simp [hsc] at hr
    | some sc =>
      rw [hsc] at hr
      rw [h.scopes s sc hsc]
      simp only [ok_bind] at hr ⊢
      cases hl : lookupIn sc.bindings symbol with
      | some v => simpa [hl] using hr
      | none =>
        rw [hl] at hr
        cases hnext : sc.next with
        | none => simpa [hnext] using hr
        | some next =>
          rw [hnext] at hr
          exact ih hr

/-- The bindings of a scope represent the same map: a symbol that is added is not bound. -/
theorem represents (h : w.Extends w') (hwf' : w'.Wf) {bs : List NaviBinding}
    {m : String → Option NaviObj} (hrep : Represents w bs m) : Represents w' bs m := by
  refine ⟨fun n => ?_, fun b hb => ?_, hrep.nodup⟩
  · rw [hrep.lookup]
    cases ha : w.symtab.lookup n with
    | some a => rw [h.symtab n a ha]
    | none =>
      cases ha' : w'.symtab.lookup n with
      | none => rfl
      | some a =>
        refine (Option.eq_none_iff_forall_not_mem.2 fun v hv => ?_).symm
        have hmem : ∃ b ∈ bs, b.symbol = .ptr a := by
          have hsome : (lookupIn bs (.ptr a)).isSome := Option.isSome_iff_exists.2 ⟨v, hv⟩
          simpa [lookupIn, List.find?_isSome] using hsome
        obtain ⟨b, hb, hba⟩ := hmem
        obtain ⟨n', hn'⟩ := hrep.named b hb
        have hname : n' = n := (h.isSym hn').name_eq hwf' ⟨a, hba, ha'⟩
        obtain ⟨a', -, ha''⟩ := hn'
        rw [hname, ha] at ha''
        cases ha''
  · obtain ⟨n, hn⟩ := hrep.named b hb
    exact ⟨n, h.isSym hn⟩

end World.Extends

/-! ### Setting a scope -/

/-- A world with another scope at an address. -/
def World.setScope (w : World) (s : ScopeAddr) (sc : WorldScope) : World :=
  { w with scopes := Function.update w.scopes s (some sc) }

section SetScope

variable {sc sc' : WorldScope}

@[simp] theorem World.scopes_setScope : (w.setScope s sc).scopes s = some sc := by
  simp [World.setScope]

@[simp] theorem World.objs_setScope : (w.setScope s sc).objs = w.objs := rfl

@[simp] theorem World.symtab_setScope : (w.setScope s sc).symtab = w.symtab := rfl

@[simp] theorem World.setScope_setScope : (w.setScope s sc).setScope s sc' = w.setScope s sc' := by
  simp [World.setScope]

@[simp] theorem World.load_setScope : (w.setScope s sc).load o = w.load o := by
  cases o <;> rfl

theorem World.setScope_self (h : w.scopes s = some sc) : w.setScope s sc = w := by
  rw [World.setScope, Function.update_eq_self_iff.2 h.symm]

theorem World.setBindings_eq (h : w.scopes s = some sc) (f : List NaviBinding → List NaviBinding) :
    w.setBindings s f = .ok (w.setScope s { sc with bindings := f sc.bindings }) := by
  rw [World.setBindings, World.loadScope, h]
  rfl

theorem World.Wf.setScope (h : w.Wf) (hs : w.scopes s = some sc') : (w.setScope s sc).Wf := by
  refine ⟨h.objs, fun s' hs' => ?_, h.thunks, h.symtab⟩
  have hne : s' ≠ s := by
    rintro rfl
    rw [h.scopes s' hs'] at hs
    cases hs
  exact (Function.update_of_ne hne _ _).trans (h.scopes s' hs')

/-- Setting a scope that is not in a world changes nothing that is. -/
theorem World.Extends.setScope {w₀ : World} (h : w₀.Extends w) (hs : w₀.scopes s = none) :
    w₀.Extends (w.setScope s sc) := by
  refine ⟨h.objs, fun s' sc' hs' => ?_, h.symtab⟩
  have hne : s' ≠ s := by
    rintro rfl
    rw [hs] at hs'
    cases hs'
  exact (Function.update_of_ne hne _ _).trans (h.scopes s' sc' hs')

theorem represents_setScope {bs : List NaviBinding} {m : String → Option NaviObj} :
    Represents (w.setScope s sc) bs m ↔ Represents w bs m :=
  ⟨fun h => ⟨h.lookup, h.named, h.nodup⟩, fun h => ⟨h.lookup, h.named, h.nodup⟩⟩

theorem computes_bindings (h : w.scopes s = some sc) :
    Computes (perform (.bindings s) : Prog evalOps F _) w sc.bindings w := by
  refine Computes.perform ?_
  change (w.loadScope s).map (fun sc => (sc.bindings, w)) = _
  rw [World.loadScope, h]
  rfl

theorem computes_naviScopeSet (h : w.scopes s = some sc) (symbol object : NaviObj) :
    Computes (naviScopeSet s symbol object : Prog evalOps F _) w ()
      (w.setScope s { sc with bindings := setIn sc.bindings symbol object }) := by
  refine Computes.perform ?_
  change (w.setBindings s (setIn · symbol object)).map ((), ·) = _
  rw [World.setBindings_eq h]
  rfl

theorem computes_naviScopeUnset (h : w.scopes s = some sc) (symbol : NaviObj) :
    Computes (naviScopeUnset s symbol : Prog evalOps F _) w ()
      (w.setScope s { sc with bindings := sc.bindings.filter fun b => b.symbol ≠ symbol }) := by
  refine Computes.perform ?_
  change (w.setBindings s fun bs => bs.filter fun b => b.symbol ≠ symbol).map ((), ·) = _
  rw [World.setBindings_eq h]
  rfl

theorem computes_naviScopeLookup (h : w.scopes s = some sc) (symbol : NaviObj) :
    Computes (naviScopeLookup s symbol : Prog evalOps F _) w (lookupIn sc.bindings symbol) w :=
  (computes_bindings h).bind (Computes.ret _)

end SetScope

/-! ### Bindings as a map -/

section Bindings

variable {bs : List NaviBinding} {sym sym' object : NaviObj}

theorem lookupIn_cons (b : NaviBinding) :
    lookupIn (b :: bs) sym = if b.symbol = sym then some b.object else lookupIn bs sym := by
  rw [lookupIn, List.find?_cons]
  by_cases h : b.symbol = sym <;> simp [h, lookupIn]

theorem lookupIn_eq_none : lookupIn bs sym = none ↔ sym ∉ bs.map NaviBinding.symbol := by
  simp [lookupIn, List.find?_eq_none]

theorem lookupIn_filter (keep : NaviObj → Bool) :
    lookupIn (bs.filter fun b => keep b.symbol) sym =
      if keep sym then lookupIn bs sym else none := by
  induction bs with
  | nil => simp [lookupIn]
  | cons b bs ih =>
    rw [List.filter_cons]
    by_cases hb : keep b.symbol
    · rw [if_pos hb, lookupIn_cons, lookupIn_cons, ih]
      by_cases hs : b.symbol = sym
      · rw [if_pos hs, if_pos hs, if_pos (hs ▸ hb)]
      · rw [if_neg hs, if_neg hs]
    · rw [if_neg hb, lookupIn_cons, ih]
      by_cases hs : b.symbol = sym
      · rw [if_neg (hs ▸ hb), if_neg (hs ▸ hb)]
      · rw [if_neg hs]

theorem map_symbol_update : (bs.map fun b => if b.symbol = sym then { b with object := object }
    else b).map NaviBinding.symbol = bs.map NaviBinding.symbol := by
  rw [List.map_map]
  refine List.map_congr_left fun b _ => ?_
  by_cases h : b.symbol = sym <;> simp [h]

theorem lookupIn_update : lookupIn (bs.map fun b => if b.symbol = sym then
    { b with object := object } else b) sym' =
      if sym = sym' then (lookupIn bs sym).map fun _ => object else lookupIn bs sym' := by
  induction bs with
  | nil => simp [lookupIn]
  | cons b bs ih =>
    rw [List.map_cons, lookupIn_cons, ih, lookupIn_cons, lookupIn_cons]
    by_cases hb : b.symbol = sym
    · by_cases hs : sym = sym' <;> simp [hb, hs]
    · by_cases hs : sym = sym'
      · subst hs
        simp [hb]
      · simp [hb, hs]

theorem lookupIn_setIn :
    lookupIn (setIn bs sym object) sym' = if sym = sym' then some object else lookupIn bs sym' := by
  unfold setIn
  split
  · rename_i hsome
    obtain ⟨v, hv⟩ := Option.isSome_iff_exists.1 hsome
    rw [lookupIn_update, hv]
    rfl
  · rw [lookupIn_cons]

variable {m : String → Option NaviObj} {x : String}

theorem Represents.nil (w : World) : Represents w [] fun _ => none :=
  ⟨fun n => by cases w.symtab.lookup n <;> rfl, fun _ h => absurd h List.not_mem_nil,
    List.nodup_nil⟩

/-- What the map has for a name is what is bound to the symbol. -/
theorem Represents.lookup_sym (h : Represents w bs m) (hs : IsSym w sym x) :
    lookupIn bs sym = m x := by
  obtain ⟨a, rfl, ha⟩ := hs
  rw [h.lookup, ha]
  rfl

theorem Represents.setIn (h : Represents w bs m) (hwf : w.Wf) (hs : IsSym w sym x)
    (object : NaviObj) : Represents w (setIn bs sym object) (Function.update m x (some object)) := by
  refine ⟨fun n => ?_, fun b hb => ?_, ?_⟩
  · by_cases hnx : n = x
    · subst hnx
      obtain ⟨a, rfl, ha⟩ := hs
      rw [Function.update_self, ha]
      exact (lookupIn_setIn.trans (if_pos rfl)).symm
    · rw [Function.update_of_ne hnx, h.lookup]
      cases ha : w.symtab.lookup n with
      | none => rfl
      | some a =>
        refine (lookupIn_setIn.trans (if_neg fun heq => hnx ?_)).symm
        exact (IsSym.name_eq hwf hs ⟨a, heq, ha⟩).symm
  · unfold NaviScheme.setIn at hb
    split at hb
    · obtain ⟨c, hc, rfl⟩ := List.mem_map.1 hb
      obtain ⟨n, hn⟩ := h.named c hc
      exact ⟨n, by split <;> exact hn⟩
    · rcases List.mem_cons.1 hb with rfl | hb
      · exact ⟨x, hs⟩
      · exact h.named b hb
  · unfold NaviScheme.setIn
    split
    · rw [map_symbol_update]
      exact h.nodup
    · rename_i hnone
      exact List.nodup_cons.2 ⟨lookupIn_eq_none.1 (by simpa using hnone), h.nodup⟩

theorem Represents.filter (h : Represents w bs m) (keep : NaviObj → Bool) (q : String → Prop)
    [DecidablePred q] (hkeep : ∀ o n, IsSym w o n → (keep o = true ↔ q n)) :
    Represents w (bs.filter fun b => keep b.symbol) fun n => if q n then m n else none := by
  refine ⟨fun n => ?_, fun b hb => h.named b (List.mem_of_mem_filter hb),
    h.nodup.sublist (List.filter_sublist.map _)⟩
  rw [h.lookup]
  cases ha : w.symtab.lookup n with
  | none => simp
  | some a =>
    have hq := hkeep (.ptr a) n ⟨a, rfl, ha⟩
    rw [Option.bind_some, Option.bind_some, lookupIn_filter]
    by_cases hqn : q n
    · rw [if_pos hqn, if_pos (hq.2 hqn)]
    · rw [if_neg hqn, if_neg fun hk => hqn (hq.1 hk)]

end Bindings

end NaviScheme
