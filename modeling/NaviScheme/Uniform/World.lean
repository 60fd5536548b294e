import NaviScheme.Eval.Formals
import NaviScheme.Frame.Run
import NaviScheme.Uniform.Control

/-!
# Worlds with objects at other addresses

What it is for two worlds to correspond as far as the objects at some addresses are concerned
(`NaviScheme.World.Corresponds`): the second has the objects of the first at other addresses,
with contents that refer to them there. It may have others that no one knows.

Operations, one on known objects in the first world and the readdressed one in the second, keep
worlds corresponding (`NaviScheme.World.Corresponds.steps`). An object that is made in both is
known from then on.
-/

namespace NaviScheme

open Prog

variable {g : Readdressing} {α β : Type}

/-! ### Moving one object -/

/-- Addresses of the same kind: of objects, or of thunks. -/
def Addr.SameKind : Addr → Addr → Prop
  | .obj _, .obj _ | .thunk _, .thunk _ => True
  | _, _ => False

/-- The readdressing that swaps two addresses of the same kind. -/
def Readdressing.swap : Addr → Addr → Readdressing
  | .obj n, .obj m => (Equiv.swap n m, 1)
  | .thunk n, .thunk m => (1, Equiv.swap n m)
  | _, _ => 1

section Swap

variable {a b c : Addr}

theorem swap_left (h : a.SameKind b) : Readdressing.swap a b • a = b := by
  cases a <;> cases b <;> first
    | exact congrArg _ (Equiv.swap_apply_left _ _)
    | exact h.elim

theorem swap_of_ne (ha : c ≠ a) (hb : c ≠ b) : Readdressing.swap a b • c = c := by
  cases a <;> cases b <;> cases c <;> first
    | exact congrArg _ (Equiv.swap_apply_of_ne_of_ne (fun h => ha (congrArg _ h))
        fun h => hb (congrArg _ h))
    | rfl

theorem sameKind_smul (a : Addr) : a.SameKind (g • a) := by cases a <;> trivial

theorem Addr.SameKind.symm (h : a.SameKind b) : b.SameKind a := by
  cases a <;> cases b <;> trivial

theorem Addr.SameKind.trans (h : a.SameKind b) (h' : b.SameKind c) : a.SameKind c := by
  cases a <;> cases b <;> cases c <;> trivial

end Swap

/-! ### What is known -/

section Names

variable {σ : Type} {c : Stage Readdressing Addr σ} {V : Set Addr} {a : Addr}

/-- An address that matters is one of those in the set, if there are others. -/
theorem mem_of_onlyOn {w : World} (hV : ∀ a ∈ V, w.Allocated a) (h : OnlyOn Readdressing V a) :
    a ∈ V := by
  by_contra ha
  -- an address of the same kind that is new
  obtain ⟨b, hkind, hne, hb⟩ : ∃ b, a.SameKind b ∧ b ≠ a ∧ ¬ w.Allocated b := by
    cases a with
    | obj n =>
      refine ⟨.obj (n + 1 + w.nextObj), trivial, fun heq => ?_, fun h => ?_⟩
      · have := Addr.obj.inj heq
        omega
      · have : n + 1 + w.nextObj < w.nextObj := h
        omega
    | thunk n =>
      refine ⟨.thunk (n + 1 + w.nextThunk), trivial, fun heq => ?_, fun h => ?_⟩
      · have := Addr.thunk.inj heq
        omega
      · have : n + 1 + w.nextThunk < w.nextThunk := h
        omega
  have hswap := h 1 (Readdressing.swap a b) fun d hd => by
    have hda : d ≠ a := fun heq => ha (heq ▸ hd)
    have hdb : d ≠ b := fun heq => hb (heq ▸ hV d hd)
    rw [one_smul, swap_of_ne hda hdb]
  rw [one_smul, swap_left hkind] at hswap
  exact hne hswap.symm

variable [MulAction Readdressing α] [MulAction Readdressing β]

theorem names_fixed [Fixed α] (x : α) : c.Names x x :=
  ⟨(smul_eq _ x).symm, fun g g' _ => by rw [smul_eq, smul_eq]⟩

/-- What can be told from something is known when it is. -/
theorem names_of_inj {f : α → β} (hf : ∀ (g : Readdressing) x, g • f x = f (g • x))
    (hinj : Function.Injective f) {x y : α} (h : c.Names (f x) (f y)) : c.Names x y :=
  ⟨hinj (h.1.trans (hf _ x)), fun g g' hg => hinj (by rw [← hf, ← hf, h.2 g g' hg])⟩

theorem names_some {x x' : α} : c.Names (some x) (some x') ↔ c.Names x x' :=
  ⟨names_of_inj (fun _ _ => rfl) (Option.some_injective α), .map fun _ _ => rfl⟩

theorem names_none : c.Names (none : Option α) none := ⟨rfl, fun _ _ _ => rfl⟩

theorem names_mk {x x' : α} {y y' : β} (hx : c.Names x x') (hy : c.Names y y') :
    c.Names (x, y) (x', y') :=
  ⟨Prod.ext hx.1 hy.1, fun g g' hg => Prod.ext (hx.2 g g' hg) (hy.2 g g' hg)⟩

theorem names_fst {p p' : α × β} (h : c.Names p p') : c.Names p.1 p'.1 := h.map fun _ _ => rfl

theorem names_snd {p p' : α × β} (h : c.Names p p') : c.Names p.2 p'.2 := h.map fun _ _ => rfl

theorem names_nil : c.Names ([] : List α) [] := ⟨rfl, fun _ _ _ => rfl⟩

theorem names_cons {x x' : α} {l l' : List α} (hx : c.Names x x') (hl : c.Names l l') :
    c.Names (x :: l) (x' :: l') :=
  ⟨by rw [hx.1, hl.1]; rfl, fun g g' hg => by
    rw [smul_list_cons, smul_list_cons, hx.2 g g' hg, hl.2 g g' hg]⟩

theorem names_ptr {a a' : Addr} : c.Names (NaviObj.ptr a) (.ptr a') ↔ c.Names a a' :=
  ⟨names_of_inj (fun _ _ => rfl) fun _ _ => NaviObj.ptr.inj, .map fun _ _ => rfl⟩

end Names

/-! ### Replies -/

section Replies

variable {σ Φ : Type} {c : Stage Readdressing Addr σ} [MulAction Readdressing α]
  [MulAction Readdressing β]

/-- What two operations come to is the same, under other names. -/
def Replies (c : Stage Readdressing Addr σ) : Except Φ α → Except Φ α → Prop
  | .ok x, .ok x' => c.Names x x'
  | .error φ, .error φ' => φ = φ'
  | _, _ => False

theorem Replies.bind {x x' : Except Φ α} {f f' : α → Except Φ β} (h : Replies c x x')
    (hf : ∀ a a', c.Names a a' → Replies c (f a) (f' a')) : Replies c (x >>= f) (x' >>= f') := by
  cases x <;> cases x' <;> first | exact h.elim | exact h | exact hf _ _ h

theorem Replies.map {x x' : Except Φ α} {f f' : α → β} (h : Replies c x x')
    (hf : ∀ a a', c.Names a a' → c.Names (f a) (f' a')) : Replies c (x.map f) (x'.map f') := by
  cases x <;> cases x' <;> first | exact h.elim | exact h | exact hf _ _ h

/-- Replies whose types are the same. -/
theorem Replies.of_cast {T : Type} (hT : T = α) {x : Except Φ α} {y : Except Φ T}
    (h : Replies c x (cast (congrArg (Except Φ) hT) y)) :
    (∃ a b, x = .ok a ∧ y = .ok b ∧ c.Names a (cast hT b)) ∨ ∃ φ, x = .error φ ∧ y = .error φ := by
  subst hT
  cases x <;> cases y
  · exact .inr ⟨_, rfl, congrArg _ (id h).symm⟩
  · exact h.elim
  · exact h.elim
  · exact .inl ⟨_, _, rfl, rfl, h⟩

end Replies

/-! ### Corresponding worlds -/

instance : MulAction Readdressing WorldScope where
  smul g sc := { sc with bindings := g • sc.bindings }
  one_smul sc := by
    change ({ sc with bindings := _ } : WorldScope) = sc
    simp only [one_smul]
  mul_smul g g' sc := by
    change ({ sc with bindings := _ } : WorldScope) = _
    simp only [mul_smul]
    rfl

/-- Nothing is where the next object will be, and there are no pairs where thunks are. -/
structure World.Orderly (w : World) : Prop where
  /-- no object has the next address or a later one -/
  objs : ∀ n, w.nextObj ≤ n → w.objs (.obj n) = none
  /-- pairs are where they may be -/
  mayHold : ∀ a d, w.objs a = some d → (NaviObj.ptr a).MayHold d.2

/-- A world with the objects of another, but for those at the addresses `own`, and others that
are new. -/
structure World.Adds (own : Set Addr) (w w' : World) : Prop where
  /-- the objects -/
  objs : ∀ a, w.Allocated a → a ∉ own → w'.objs a = w.objs a
  /-- what has been allocated stays allocated -/
  allocated : ∀ a, w.Allocated a → w'.Allocated a
  /-- the scopes -/
  scopes : w'.scopes = w.scopes
  /-- the symbol table -/
  symtab : w'.symtab = w.symtab
  /-- the libraries -/
  libraries : w'.libraries = w.libraries
  /-- the next address of a scope -/
  nextScope : w'.nextScope = w.nextScope
  /-- the next address of a guard -/
  nextGuard : w'.nextGuard = w.nextGuard
  /-- the counters -/
  counter : w'.counter = w.counter
  /-- an orderly world stays orderly -/
  orderly : w.Orderly → w'.Orderly

section Adds

variable {w w' w₁ : World} {own own' : Set Addr} {a b : Addr} {t : NaviType} {d : Data}

theorem mayHold_smul {o : NaviObj} : (g • o).MayHold (g • d) ↔ o.MayHold d := by
  cases o with
  | ptr a => cases a <;> cases d <;> exact .rfl
  | _ => cases d <;> exact .rfl

/-- The address that the next object of a type will have. -/
def World.fresh (w : World) (t : NaviType) : Addr :=
  if t = .naviThunk then .thunk w.nextThunk else .obj w.nextObj

theorem World.make_fst (w : World) (t : NaviType) (d : Data) :
    (w.make t d).1 = .ptr (w.fresh t) := by
  rw [make, fresh]
  split_ifs <;> rfl

theorem World.objs_make (w : World) (t : NaviType) (d : Data) (b : Addr) :
    (w.make t d).2.objs b = if b = w.fresh t then some (t, d) else w.objs b := by
  rw [make, fresh]
  by_cases ht : t = .naviThunk
  · rw [if_pos ht, if_pos ht]
    exact w.objs_setObj _ _ _
  · rw [if_neg ht, if_neg ht]
    exact w.objs_setObj _ _ _

theorem World.allocated_make (w : World) (t : NaviType) (d : Data) (b : Addr) :
    (w.make t d).2.Allocated b ↔ w.Allocated b ∨ b = w.fresh t := by
  have hlt (m n : ℕ) : m < n + 1 ↔ m < n ∨ m = n := Nat.lt_succ_iff_lt_or_eq
  rw [make, fresh]
  split_ifs
  · cases b with
    | obj m => exact (or_iff_left Addr.noConfusion).symm
    | thunk m => exact (hlt m _).trans (or_congr_right (iff_of_eq (Addr.thunk.injEq _ _)).symm)
  · cases b with
    | obj m => exact (hlt m _).trans (or_congr_right (iff_of_eq (Addr.obj.injEq _ _)).symm)
    | thunk m => exact (or_iff_left Addr.noConfusion).symm

theorem World.not_allocated_fresh (w : World) (t : NaviType) : ¬ w.Allocated (w.fresh t) := by
  rw [fresh]
  split_ifs <;> exact lt_irrefl _

theorem World.sameKind_fresh (w w' : World) (t : NaviType) :
    (w.fresh t).SameKind (w'.fresh t) := by
  rw [fresh, fresh]
  split_ifs <;> trivial

namespace World.Adds

theorem refl (own : Set Addr) (w : World) : w.Adds own w :=
  ⟨fun _ _ _ => rfl, fun _ h => h, rfl, rfl, rfl, rfl, rfl, rfl, id⟩

theorem mono (h : w.Adds own w') (hsub : own ⊆ own') : w.Adds own' w' :=
  { h with objs := fun a ha hnot => h.objs a ha fun hmem => hnot (hsub hmem) }

theorem trans (h : w.Adds own w₁) (h' : w₁.Adds own' w')
    (hown : ∀ a ∈ own', w.Allocated a → a ∈ own) : w.Adds own w' where
  objs a ha hnot := by
    rw [h'.objs a (h.allocated a ha) fun hmem => hnot (hown a hmem ha), h.objs a ha hnot]
  allocated a ha := h'.allocated a (h.allocated a ha)
  scopes := h'.scopes.trans h.scopes
  symtab := h'.symtab.trans h.symtab
  libraries := h'.libraries.trans h.libraries
  nextScope := h'.nextScope.trans h.nextScope
  nextGuard := h'.nextGuard.trans h.nextGuard
  counter := h'.counter.trans h.counter
  orderly hw := h'.orderly (h.orderly hw)

theorem setObj {c : NaviType × Data} (ha : w.Allocated a) (hc : (NaviObj.ptr a).MayHold c.2) :
    w.Adds {a} (w.setObj a c) where
  objs b _ hb := by rw [World.objs_setObj, if_neg (mt Set.mem_singleton_iff.mpr hb)]
  allocated b hb := hb
  scopes := rfl
  symtab := rfl
  libraries := rfl
  nextScope := rfl
  nextGuard := rfl
  counter := rfl
  orderly hw := by
    refine ⟨fun n hn => ?_, fun b c' hb => ?_⟩
    · have hne : Addr.obj n ≠ a := by
        rintro rfl
        exact absurd ha (not_lt.mpr hn)
      rw [World.objs_setObj, if_neg hne]
      exact hw.objs n hn
    · rw [World.objs_setObj] at hb
      split_ifs at hb with heq
      · cases hb
        exact heq ▸ hc
      · exact hw.mayHold b c' hb

theorem make (hd : t = .naviThunk → ∀ n, (NaviObj.ptr (.thunk n)).MayHold d) :
    w.Adds ∅ (w.make t d).2 where
  objs a ha _ := by
    have hne : a ≠ w.fresh t := fun heq => w.not_allocated_fresh t (heq ▸ ha)
    rw [w.objs_make, if_neg hne]
  allocated a ha := (w.allocated_make t d a).mpr (.inl ha)
  scopes := by rw [World.make]; split_ifs <;> rfl
  symtab := by rw [World.make]; split_ifs <;> rfl
  libraries := by rw [World.make]; split_ifs <;> rfl
  nextScope := by rw [World.make]; split_ifs <;> rfl
  nextGuard := by rw [World.make]; split_ifs <;> rfl
  counter := by rw [World.make]; split_ifs <;> rfl
  orderly hw := by
    refine ⟨fun n hn => ?_, fun b c hb => ?_⟩
    · have hne : ¬ (w.make t d).2.Allocated (.obj n) := not_lt.mpr hn
      rw [w.allocated_make, not_or] at hne
      rw [w.objs_make, if_neg hne.2]
      exact hw.objs n (not_lt.mp hne.1)
    · rw [w.objs_make] at hb
      split_ifs at hb with heq
      · cases hb
        rw [heq, World.fresh]
        split_ifs with ht
        · exact hd ht _
        · trivial
      · exact hw.mayHold b c hb

end World.Adds

end Adds

/-- **The second world is the first, as far as what is known in it is concerned.** -/
structure World.Corresponds (c : Stage Readdressing Addr World) : Prop where
  /-- the objects -/
  objs : ∀ a ∈ c.names, c.Names (c.left.objs a) (c.right.objs (c.naming • a))
  /-- known objects have been allocated in the first -/
  allocated_left : ∀ a ∈ c.names, c.left.Allocated a
  /-- and in the second -/
  allocated_right : ∀ a ∈ c.names, c.right.Allocated (c.naming • a)
  /-- the scopes -/
  scopes : ∀ s, c.Names (c.left.scopes s) (c.right.scopes s)
  /-- the symbol table -/
  symtab : c.Names c.left.symtab c.right.symtab
  /-- the libraries -/
  libraries : c.Names c.left.libraries c.right.libraries
  /-- the next address of a scope -/
  nextScope : c.right.nextScope = c.left.nextScope
  /-- the next address of a guard -/
  nextGuard : c.right.nextGuard = c.left.nextGuard
  /-- the counters -/
  counter : c.right.counter = c.left.counter
  /-- the first world is orderly -/
  orderly_left : c.left.Orderly
  /-- and the second is -/
  orderly_right : c.right.Orderly

/-- How stages follow one another. Objects of the second world that are not known stay
unknown, and those at the addresses `kept` stay as they are. -/
def World.course (kept : Set Addr) : Course Readdressing Addr World where
  good := World.Corresponds
  grows c c' := c.names ⊆ c'.names ∧ (∀ a ∈ c.names, c.naming • a = c'.naming • a) ∧
    (∀ b, c.right.Allocated b → c'.right.Allocated b) ∧
    (∀ a ∈ c'.names, c.right.Allocated (c'.naming • a) → a ∈ c.names) ∧
    ∀ b ∈ kept, c.right.Allocated b → (∀ a ∈ c.names, c.naming • a ≠ b) →
      c'.right.objs b = c.right.objs b
  refl c := ⟨subset_rfl, fun _ _ => rfl, fun _ h => h, fun _ h _ => h, fun _ _ _ _ => rfl⟩
  trans h h' := by
    obtain ⟨hnames, hagree, halloc, hnew, hsame⟩ := h
    obtain ⟨hnames', hagree', halloc', hnew', hsame'⟩ := h'
    refine ⟨hnames.trans hnames', fun a ha => (hagree a ha).trans (hagree' a (hnames ha)),
      fun b hb => halloc' b (halloc b hb), fun a ha hb => ?_, fun b hb hr hunknown => ?_⟩
    · have ha' := hnew' a ha (halloc _ hb)
      exact hnew a ha' (hagree' a ha' ▸ hb)
    · rw [hsame' b hb (halloc b hr) fun a ha heq => ?_, hsame b hb hr hunknown]
      have ha' := hnew a ha (heq ▸ hr)
      exact hunknown a ha' ((hagree a ha').trans heq)
  names h := h.1
  agrees h := h.2.1

/-! ### Bindings -/

theorem bindings_smul (g : Readdressing) (sc : WorldScope) :
    (g • sc).bindings = g • sc.bindings := rfl

theorem setIn_smul (g : Readdressing) (bs : List NaviBinding) (symbol object : NaviObj) :
    g • setIn bs symbol object = setIn (g • bs) (g • symbol) (g • object) := by
  have hsome : (g • lookupIn bs symbol).isSome = (lookupIn bs symbol).isSome := by
    cases lookupIn bs symbol <;> rfl
  rw [setIn, setIn, lookupIn_smul, hsome]
  by_cases h : (lookupIn bs symbol).isSome
  · rw [if_pos h, if_pos h, smul_list, smul_list, List.map_map, List.map_map]
    refine List.map_congr_left fun b _ => ?_
    by_cases hb : b.symbol = symbol
    · simp only [Function.comp_apply, hb, symbol_smul, if_true]
      rfl
    · simp only [Function.comp_apply, hb, symbol_smul, smul_left_cancel_iff, if_false]
  · rw [if_neg h, if_neg h]
    rfl

theorem filter_smul (g : Readdressing) (bs : List NaviBinding) (symbol : NaviObj) :
    g • bs.filter (fun b => b.symbol ≠ symbol) =
      (g • bs).filter fun b => b.symbol ≠ g • symbol := by
  induction bs with
  | nil => rfl
  | cons b bs ih => by_cases hb : b.symbol = symbol <;> simp_all

section Bindings

variable {σ : Type} {c : Stage Readdressing Addr σ} {bs bs' : List NaviBinding}
  {symbol symbol' object object' : NaviObj}

theorem names_lookupIn (hbs : c.Names bs bs') (hsymbol : c.Names symbol symbol') :
    c.Names (lookupIn bs symbol) (lookupIn bs' symbol') :=
  (names_mk hbs hsymbol).map (f := fun p => lookupIn p.1 p.2) fun _ p =>
    (lookupIn_smul p.1 p.2).symm

theorem names_setIn (hbs : c.Names bs bs') (hsymbol : c.Names symbol symbol')
    (hobject : c.Names object object') :
    c.Names (setIn bs symbol object) (setIn bs' symbol' object') :=
  (names_mk hbs (names_mk hsymbol hobject)).map (f := fun p => setIn p.1 p.2.1 p.2.2) fun g p =>
    setIn_smul g p.1 p.2.1 p.2.2

theorem names_filter (hbs : c.Names bs bs') (hsymbol : c.Names symbol symbol') :
    c.Names (bs.filter fun b => b.symbol ≠ symbol) (bs'.filter fun b => b.symbol ≠ symbol') :=
  (names_mk hbs hsymbol).map
    (f := fun p : List NaviBinding × NaviObj => p.1.filter fun b => b.symbol ≠ p.2) fun g p =>
    filter_smul g p.1 p.2

/-- Writing the fields of a library. -/
theorem names_setLibrary {libraries libraries' : List NaviLibrary} {exports exports' : NaviObj}
    (hlibraries : c.Names libraries libraries') (hexports : c.Names exports exports') (lib : ℕ)
    (env : NaviEnv) :
    c.Names
      (libraries.map fun l =>
        if l.id = lib then { l with loaded := true, list := exports, env := some env } else l)
      (libraries'.map fun l =>
        if l.id = lib then { l with loaded := true, list := exports', env := some env }
        else l) := by
  refine (names_mk hlibraries hexports).map (f := fun p : List NaviLibrary × NaviObj =>
    p.1.map fun l =>
      if l.id = lib then { l with loaded := true, list := p.2, env := some env } else l)
    fun g p => ?_
  simp only [smul_list, Prod.smul_fst, List.map_map]
  refine List.map_congr_left fun l _ => ?_
  by_cases hl : l.id = lib
  · simp only [Function.comp_apply, id_smul, hl, if_true]
    rfl
  · simp only [Function.comp_apply, id_smul, hl, if_false]

end Bindings

/-! ### Symbols -/

theorem lookup_smul (g : Readdressing) (l : List (String × Addr)) (str : String) :
    g • l.lookup str = (g • l).lookup str := by
  induction l with
  | nil => rfl
  | cons e l ih =>
    obtain ⟨str', a⟩ := e
    rw [smul_list_cons, Prod.smul_mk, smul_eq g str', List.lookup_cons, List.lookup_cons]
    cases str == str' with
    | true => rfl
    | false => exact ih

theorem names_symbol {σ : Type} {c : Stage Readdressing Addr σ} (str : String) (interned : Bool) :
    c.Names (Data.symbol str interned) (.symbol str interned) := ⟨rfl, fun _ _ _ => rfl⟩

theorem World.makeSymbol_of_some {w : World} {str : String} {a : Addr}
    (h : w.symtab.lookup str = some a) : w.makeSymbol str = (.ptr a, w) := by
  rw [makeSymbol, h]

theorem World.makeSymbol_of_none {w : World} {str : String} (h : w.symtab.lookup str = none) :
    w.makeSymbol str = (.ptr (w.fresh .naviSymbol),
      { (w.make .naviSymbol (.symbol str true)).2 with
        symtab := (str, w.fresh .naviSymbol) :: w.symtab }) := by
  rw [makeSymbol, h]
  rfl

/-! ### Contents -/

theorem World.step_store (w : World) (a : Addr) (d : Data) :
    World.step (.store (.ptr a) d) w =
      ((w.load (.ptr a)).map fun c => w.setObj a (c.1, d)).map ((), ·) := by
  cases h : w.load (.ptr a) <;> simp only [World.step, h] <;> rfl

theorem World.step_retag (w : World) (a : Addr) (t : NaviType) :
    World.step (.retag (.ptr a) t) w =
      ((w.load (.ptr a)).map fun c => w.setObj a (t, c.2)).map ((), ·) := by
  cases h : w.load (.ptr a) <;> simp only [World.step, h] <;> rfl

/-! ### Walking along pairs -/

/-- The second field of a pair. -/
def Data.cdrField : Data → Option NaviObj
  | .pair _ cdr => cdr
  | _ => none

/-- The pairs from an object on, up to what has no second field. -/
inductive World.Path (w : World) : NaviObj → List NaviObj → Prop
  | stop {o : NaviObj} (h : ∀ car cdr, w.load o ≠ .ok (.naviPair, .pair car (some cdr))) :
    Path w o []
  | pair {o cdr : NaviObj} {car : Option NaviObj} {pairs : List NaviObj}
    (h : w.load o = .ok (.naviPair, .pair car (some cdr))) (hrest : Path w cdr pairs) :
    Path w o (o :: pairs)

namespace World.Path

variable {w : World} {o p : NaviObj} {pairs pairs' : List NaviObj}

theorem unique (h : w.Path o pairs) (h' : w.Path o pairs') : pairs = pairs' := by
  induction h generalizing pairs' with
  | stop h =>
    cases h' with
    | stop => rfl
    | pair h' => exact absurd h' (h _ _)
  | pair h _ ih =>
    cases h' with
    | stop h' => exact absurd h (h' _ _)
    | pair h' hrest =>
      obtain ⟨-, heq⟩ := Prod.mk.inj (Except.ok.inj (h.symm.trans h'))
      obtain rfl := Option.some.inj (Data.pair.inj heq).2
      rw [ih hrest]

theorem of_mem (h : w.Path o pairs) (hp : p ∈ pairs) :
    ∃ pairs', w.Path p pairs' ∧ pairs'.length ≤ pairs.length := by
  induction h with
  | stop => exact absurd hp List.not_mem_nil
  | pair h hrest ih =>
    rcases List.mem_cons.mp hp with rfl | hp
    · exact ⟨_, .pair h hrest, le_rfl⟩
    · obtain ⟨pairs', hpath, hle⟩ := ih hp
      exact ⟨pairs', hpath, hle.trans (Nat.le_succ _)⟩

theorem nodup (h : w.Path o pairs) : pairs.Nodup := by
  induction h with
  | stop => exact List.nodup_nil
  | pair h hrest ih =>
    refine List.nodup_cons.mpr ⟨fun hmem => ?_, ih⟩
    obtain ⟨pairs', hpath, hle⟩ := hrest.of_mem hmem
    rw [hpath.unique (.pair h hrest), List.length_cons] at hle
    exact absurd hle (Nat.not_succ_le_self _)

theorem load_of_mem (h : w.Path o pairs) (hp : p ∈ pairs) :
    ∃ car cdr, w.load p = .ok (.naviPair, .pair car cdr) := by
  induction h with
  | stop => exact absurd hp List.not_mem_nil
  | pair h _ ih =>
    rcases List.mem_cons.mp hp with rfl | hp
    · exact ⟨_, _, h⟩
    · exact ih hp

/-- There are no more pairs than objects. -/
theorem length_le (hw : w.Orderly) (h : w.Path o pairs) : pairs.length ≤ w.nextObj := by
  have hsub : pairs ⊆ (List.range w.nextObj).map fun n => NaviObj.ptr (.obj n) := by
    intro p hp
    obtain ⟨car, cdr, hload⟩ := h.load_of_mem hp
    obtain ⟨a, rfl⟩ := World.ptr_of_load hload
    have hobj := World.objs_of_load hload
    cases a with
    | thunk n => exact (hw.mayHold _ _ hobj).elim
    | obj n =>
      refine List.mem_map.mpr ⟨n, List.mem_range.mpr ?_, rfl⟩
      by_contra hn
      rw [hw.objs n (not_lt.mp hn)] at hobj
      cases hobj
  simpa using (h.nodup.subperm hsub).length_le

/-- How far a walk may go does not matter if it ends. -/
theorem walk_eq (h : w.Path o pairs) {n m : ℕ} (hn : pairs.length < n) (hm : pairs.length < m) :
    w.walk n o = w.walk m o := by
  obtain ⟨n, rfl⟩ := Nat.exists_eq_succ_of_ne_zero (Nat.ne_of_gt (Nat.zero_lt_of_lt hn))
  obtain ⟨m, rfl⟩ := Nat.exists_eq_succ_of_ne_zero (Nat.ne_of_gt (Nat.zero_lt_of_lt hm))
  induction h generalizing n m with
  | @stop o h =>
    cases o with
    | ptr a =>
      rw [World.walk, World.walk]
      split
      · rfl
      · rename_i hobj
        exact absurd (by rw [World.load, hobj]) (h _ _)
      · rfl
      · rfl
    | _ => rfl
  | @pair o cdr car pairs h hrest ih =>
    obtain ⟨a, rfl⟩ := World.ptr_of_load h
    rw [List.length_cons] at hn hm
    obtain ⟨n, rfl⟩ := Nat.exists_eq_succ_of_ne_zero (n := n) (by omega)
    obtain ⟨m, rfl⟩ := Nat.exists_eq_succ_of_ne_zero (n := m) (by omega)
    rw [World.walk, World.walk, World.objs_of_load h]
    simp only [ih n (by omega) m (by omega)]

end World.Path

/-- A walk that does not end goes as far as it may. -/
theorem World.walk_of_no_path {w : World} {o : NaviObj} (h : ∀ pairs, ¬ w.Path o pairs) (n : ℕ) :
    w.walk n o = .error .hang := by
  induction n generalizing o with
  | zero => rfl
  | succ n ih =>
    by_cases hpair : ∃ car cdr, w.load o = .ok (.naviPair, .pair car (some cdr))
    · obtain ⟨car, cdr, hload⟩ := hpair
      obtain ⟨a, rfl⟩ := World.ptr_of_load hload
      have hcdr : w.walk n cdr = .error .hang := ih fun pairs hp => h _ (.pair hload hp)
      rw [World.walk, World.objs_of_load hload]
      simp only [hcdr]
      rfl
    · exact absurd (.stop fun car cdr hload => hpair ⟨car, cdr, hload⟩) (h [])

theorem World.Orderly.walk_eq {w : World} (hw : w.Orderly) {n m : ℕ} (hn : w.nextObj < n)
    (hm : w.nextObj < m) (o : NaviObj) : w.walk n o = w.walk m o := by
  by_cases h : ∃ pairs, w.Path o pairs
  · obtain ⟨pairs, hpath⟩ := h
    exact hpath.walk_eq ((hpath.length_le hw).trans_lt hn) ((hpath.length_le hw).trans_lt hm)
  · rw [World.walk_of_no_path (fun pairs hp => h ⟨pairs, hp⟩),
      World.walk_of_no_path fun pairs hp => h ⟨pairs, hp⟩]

section Corresponds

variable {c : Stage Readdressing Addr World} {kept : Set Addr} {a : Addr} {o o' : NaviObj}

theorem World.grows_of_same {l r : World}
    (halloc : ∀ b, c.right.Allocated b → r.Allocated b)
    (hsame : ∀ b, (∀ a ∈ c.names, c.naming • a ≠ b) → r.objs b = c.right.objs b) :
    (course kept).grows c ⟨c.names, c.naming, l, r⟩ :=
  ⟨subset_rfl, fun _ _ => rfl, halloc, fun _ ha _ => ha, fun b _ _ hb => hsame b hb⟩

namespace World.Corresponds

variable (hc : Corresponds c)
include hc

/-! ### Reading -/

theorem mem_names (h : c.Names (NaviObj.ptr a) o) : a ∈ c.names :=
  mem_of_onlyOn hc.allocated_left (names_of_inj (c := c) (x := a) (y := c.naming • a)
    (fun _ _ => rfl) (fun _ _ => NaviObj.ptr.inj) ⟨rfl, h.2⟩).2

theorem load (ho : c.Names o o') : Replies c (c.left.load o) (c.right.load o') := by
  obtain rfl := ho.1
  cases o with
  | ptr a =>
    have hcell := hc.objs a (hc.mem_names ho)
    rw [smul_ptr, World.load, World.load]
    revert hcell
    cases c.left.objs a <;> cases c.right.objs (c.naming • a) <;> intro hcell
    · exact rfl
    · cases hcell.1
    · cases hcell.1
    · exact names_some.mp hcell
  | _ => exact rfl

theorem walk_same (n : ℕ) (ho : c.Names o o') :
    Replies c (c.left.walk n o) (c.right.walk n o') := by
  induction n generalizing o o' with
  | zero => exact rfl
  | succ n ih =>
    have hload := hc.load ho
    obtain rfl := ho.1
    cases o with
    | ptr a =>
      rw [smul_ptr, World.load, World.load] at hload
      rw [smul_ptr, World.walk, World.walk]
      revert hload
      cases c.left.objs a <;> cases c.right.objs (c.naming • a) <;> intro hload
      · exact rfl
      · exact hload.elim
      · exact hload.elim
      rename_i cell cell'
      obtain rfl := hload.1
      obtain ⟨t, d⟩ := cell
      by_cases ht : t = .naviPair
      · subst ht
        cases d with
        | pair car cdr =>
          cases cdr with
          | none => exact rfl
          | some cdr =>
            have hcdr : c.Names cdr (c.naming • cdr) := names_some.mp
              ((names_snd hload).map (f := Data.cdrField) fun g d => by cases d <;> rfl)
            exact (ih hcdr).bind fun r r' hr =>
              names_mk (names_cons ho (names_fst hr)) (names_snd hr)
        | _ => exact rfl
      · cases t <;> first
          | exact absurd rfl ht
          | exact names_mk names_nil ho
    | _ => exact ⟨rfl, fun _ _ _ => rfl⟩

theorem walk (ho : c.Names o o') :
    Replies c (c.left.walk (c.left.nextObj + 1) o) (c.right.walk (c.right.nextObj + 1) o') := by
  have hl := Nat.lt_succ_of_le (le_max_left c.left.nextObj c.right.nextObj)
  have hr := Nat.lt_succ_of_le (le_max_right c.left.nextObj c.right.nextObj)
  rw [hc.orderly_left.walk_eq (Nat.lt_succ_self _) hl,
    hc.orderly_right.walk_eq (Nat.lt_succ_self _) hr]
  exact hc.walk_same _ ho

theorem loadScope (s : ScopeAddr) : Replies c (c.left.loadScope s) (c.right.loadScope s) := by
  have hscope := hc.scopes s
  rw [World.loadScope, World.loadScope]
  revert hscope
  cases c.left.scopes s <;> cases c.right.scopes s <;> intro hscope
  · exact rfl
  · cases hscope.1
  · cases hscope.1
  · exact names_some.mp hscope

theorem envBinding {symbol symbol' : NaviObj} (hsymbol : c.Names symbol symbol') (n : ℕ)
    (s : ScopeAddr) :
    Replies c (c.left.envBinding symbol n s) (c.right.envBinding symbol' n s) := by
  induction n generalizing s with
  | zero => exact rfl
  | succ n ih =>
    refine (hc.loadScope s).bind fun sc sc' hsc => ?_
    have hbs : c.Names sc.bindings sc'.bindings := hsc.map bindings_smul
    have hlookup := names_lookupIn hbs hsymbol
    have hnext : sc'.next = sc.next := by rw [hsc.1]; rfl
    rw [hnext]
    revert hlookup
    cases lookupIn sc.bindings symbol <;> cases lookupIn sc'.bindings symbol' <;> intro hlookup
    · cases sc.next with
      | none => exact names_none
      | some next => exact ih next
    · cases hlookup.1
    · cases hlookup.1
    · exact names_some.mpr (names_mk (names_fixed s) (names_some.mp hlookup))

theorem globalScope (n : ℕ) (s : ScopeAddr) :
    Replies c (c.left.globalScope n s) (c.right.globalScope n s) := by
  induction n generalizing s with
  | zero => exact rfl
  | succ n ih =>
    refine (hc.loadScope s).bind fun sc sc' hsc => ?_
    have hnext : sc'.next = sc.next := by rw [hsc.1]; rfl
    rw [hnext]
    cases sc.next with
    | none => exact names_fixed s
    | some next => exact ih next

/-! ### Writing and making objects -/

/-- Objects that no one knows may be made in both worlds, and changed in the second. -/
theorem of_adds {l r : World} {own : Set Addr} (hl : c.left.Adds ∅ l) (hr : c.right.Adds own r)
    (hown : ∀ a ∈ c.names, c.naming • a ∉ own) : Corresponds ⟨c.names, c.naming, l, r⟩ where
  objs a ha := by
    have hobj := hc.objs a ha
    rw [← hl.objs a (hc.allocated_left a ha) (Set.notMem_empty a),
      ← hr.objs _ (hc.allocated_right a ha) (hown a ha)] at hobj
    exact hobj
  allocated_left a ha := hl.allocated a (hc.allocated_left a ha)
  allocated_right a ha := hr.allocated _ (hc.allocated_right a ha)
  scopes s := by
    rw [hl.scopes, hr.scopes]
    exact hc.scopes s
  symtab := by
    rw [hl.symtab, hr.symtab]
    exact hc.symtab
  libraries := by
    rw [hl.libraries, hr.libraries]
    exact hc.libraries
  nextScope := by rw [hl.nextScope, hr.nextScope, hc.nextScope]
  nextGuard := by rw [hl.nextGuard, hr.nextGuard, hc.nextGuard]
  counter := by rw [hl.counter, hr.counter, hc.counter]
  orderly_left := hl.orderly hc.orderly_left
  orderly_right := hr.orderly hc.orderly_right

/-- A known object may be changed in both worlds. -/
theorem setObj {d d' : NaviType × Data} (ha : a ∈ c.names) (hd : c.Names d d')
    (hmay : (NaviObj.ptr a).MayHold d.2) :
    Corresponds ⟨c.names, c.naming, c.left.setObj a d, c.right.setObj (c.naming • a) d'⟩ := by
  have hmay' : (NaviObj.ptr (c.naming • a)).MayHold d'.2 := by
    rw [hd.1]
    exact mayHold_smul.mpr hmay
  have hl := (Adds.setObj (hc.allocated_left a ha) hmay).orderly hc.orderly_left
  have hr := (Adds.setObj (hc.allocated_right a ha) hmay').orderly hc.orderly_right
  refine { hc with objs := fun b hb => ?_, orderly_left := hl, orderly_right := hr }
  simp only [World.objs_setObj, smul_left_cancel_iff]
  by_cases hba : b = a
  · rw [if_pos hba, if_pos hba]
    exact names_some.mpr hd
  · rw [if_neg hba, if_neg hba]
    exact hc.objs b hb

/-- An object of each of the worlds that is not known, with contents that correspond, may be
known from now on. -/
theorem insert {a' : Addr} (ha : c.left.Allocated a) (hnew : a ∉ c.names)
    (ha' : c.right.Allocated a') (hnew' : ∀ b ∈ c.names, c.naming • b ≠ a')
    (hkind : a.SameKind a') (hobj : c.Names (c.left.objs a) (c.right.objs a')) :
    ∃ g, (∀ b ∈ c.names, c.naming • b = g • b) ∧ g • a = a' ∧
      Corresponds ⟨insert a c.names, g, c.left, c.right⟩ := by
  have hswap : Readdressing.swap (c.naming • a) a' • c.naming • a = a' :=
    swap_left ((sameKind_smul a).symm.trans hkind)
  have hagrees : ∀ b ∈ c.names,
      c.naming • b = (Readdressing.swap (c.naming • a) a' * c.naming) • b :=
    fun b hb => by
      have hne : c.naming • b ≠ c.naming • a := fun heq => hnew (smul_left_cancel _ heq ▸ hb)
      rw [mul_smul, swap_of_ne hne (hnew' b hb)]
  refine ⟨Readdressing.swap (c.naming • a) a' * c.naming, hagrees, by rw [mul_smul, hswap], ?_⟩
  have hmono {α : Type} [MulAction Readdressing α] {x x' : α} (h : c.Names x x') :
      (⟨Insert.insert a c.names, Readdressing.swap (c.naming • a) a' * c.naming, c.left, c.right⟩ :
        Stage Readdressing Addr World).Names x x' :=
    h.mono (Set.subset_insert _ _) hagrees
  refine ⟨fun b hb => ?_, fun b hb => ?_, fun b hb => ?_, fun s => hmono (hc.scopes s),
    hmono hc.symtab, hmono hc.libraries, hc.nextScope, hc.nextGuard, hc.counter, hc.orderly_left,
    hc.orderly_right⟩
  · rcases hb with rfl | hb
    · rw [mul_smul, hswap]
      exact hmono hobj
    · rw [← hagrees b hb]
      exact hmono (hc.objs b hb)
  · rcases hb with rfl | hb
    · exact ha
    · exact hc.allocated_left b hb
  · rcases hb with rfl | hb
    · rw [mul_smul, hswap]
      exact ha'
    · rw [← hagrees b hb]
      exact hc.allocated_right b hb

variable (kept) in
/-- Making an object in both worlds. -/
theorem make {t : NaviType} {d d' : Data} (hd : c.Names d d')
    (hmay : t = .naviThunk → ∀ n, (NaviObj.ptr (.thunk n)).MayHold d) :
    ∃ g, (course kept).grows c ⟨Insert.insert (c.left.fresh t) c.names, g, (c.left.make t d).2,
        (c.right.make t d').2⟩ ∧
      Corresponds ⟨Insert.insert (c.left.fresh t) c.names, g, (c.left.make t d).2,
        (c.right.make t d').2⟩ ∧ g • c.left.fresh t = c.right.fresh t := by
  have hmay' : t = .naviThunk → ∀ n, (NaviObj.ptr (.thunk n)).MayHold d' := by
    intro ht n
    rw [hd.1, ← smul_inv_smul c.naming (NaviObj.ptr (.thunk n))]
    exact mayHold_smul.mpr (hmay ht _)
  have hmade := hc.of_adds (.make hmay) (.make hmay') fun _ _ => Set.notMem_empty _
  have hfresh : c.left.fresh t ∉ c.names := fun h =>
    c.left.not_allocated_fresh t (hc.allocated_left _ h)
  have hfresh' : ∀ b ∈ c.names, c.naming • b ≠ c.right.fresh t := fun b hb heq =>
    c.right.not_allocated_fresh t (heq ▸ hc.allocated_right b hb)
  obtain ⟨g, hagrees, hg, hcor⟩ := hmade.insert
    ((c.left.allocated_make t d _).mpr (.inr rfl)) hfresh
    ((c.right.allocated_make t d' _).mpr (.inr rfl)) hfresh' (c.left.sameKind_fresh c.right t) (by
      rw [World.objs_make, World.objs_make, if_pos rfl, if_pos rfl]
      exact names_some.mpr (names_mk (names_fixed t) hd))
  refine ⟨g, ⟨Set.subset_insert _ _, hagrees, fun b hb => ?_, fun a ha hb => ?_,
    fun b _ hb _ => ?_⟩, hcor, hg⟩
  · exact (c.right.allocated_make t d' b).mpr (.inl hb)
  · rcases ha with rfl | ha
    · rw [hg] at hb
      exact absurd hb (c.right.not_allocated_fresh t)
    · exact ha
  · have hne : b ≠ c.right.fresh t := fun heq => c.right.not_allocated_fresh t (heq ▸ hb)
    rw [World.objs_make, if_neg hne]

variable (kept) in
/-- The symbol of a name. -/
theorem makeSymbol (str : String) :
    ∃ V g, (course kept).grows c ⟨V, g, (c.left.makeSymbol str).2, (c.right.makeSymbol str).2⟩ ∧
      Corresponds ⟨V, g, (c.left.makeSymbol str).2, (c.right.makeSymbol str).2⟩ ∧
      (⟨V, g, (c.left.makeSymbol str).2, (c.right.makeSymbol str).2⟩ :
        Stage Readdressing Addr World).Names (c.left.makeSymbol str).1
          (c.right.makeSymbol str).1 := by
  have hlookup : c.Names (c.left.symtab.lookup str) (c.right.symtab.lookup str) :=
    hc.symtab.map fun g l => lookup_smul g l str
  cases hl : c.left.symtab.lookup str <;> cases hr : c.right.symtab.lookup str
  all_goals rw [hl, hr] at hlookup
  · obtain ⟨g, hgrows, hcor, hg⟩ := hc.make kept (t := .naviSymbol)
      (d := .symbol str true) (names_symbol str true) nofun
    rw [World.makeSymbol_of_none hl, World.makeSymbol_of_none hr]
    have hfresh : (⟨Insert.insert (c.left.fresh .naviSymbol) c.names, g, c.left, c.right⟩ :
        Stage Readdressing Addr World).Names (c.left.fresh .naviSymbol)
          (c.right.fresh .naviSymbol) :=
      ⟨hg.symm, fun _ _ h => h _ (Set.mem_insert _ _)⟩
    refine ⟨_, g, hgrows, { hcor with symtab := ?_, orderly_left := ?_, orderly_right := ?_ },
      names_ptr.mpr hfresh⟩
    · exact names_cons (names_mk (names_fixed str) hfresh) (hc.symtab.mono hgrows.1 hgrows.2.1)
    · exact ⟨hcor.orderly_left.objs, hcor.orderly_left.mayHold⟩
    · exact ⟨hcor.orderly_right.objs, hcor.orderly_right.mayHold⟩
  · cases hlookup.1
  · cases hlookup.1
  · rw [World.makeSymbol_of_some hl, World.makeSymbol_of_some hr]
    exact ⟨c.names, c.naming, (course kept).refl c, hc, names_ptr.mpr (names_some.mp hlookup)⟩

/-! ### Scopes -/

/-- Writing the bindings of a scope. -/
theorem setBindings (s : ScopeAddr) {f f' : List NaviBinding → List NaviBinding}
    (hf : ∀ bs bs', c.Names bs bs' → c.Names (f bs) (f' bs')) :
    (∀ l, c.left.setBindings s f = .ok l → ∃ r, c.right.setBindings s f' = .ok r ∧
      (course kept).grows c ⟨c.names, c.naming, l, r⟩ ∧ Corresponds ⟨c.names, c.naming, l, r⟩) ∧
      ∀ φ, c.left.setBindings s f = .error φ → c.right.setBindings s f' = .error φ := by
  have hload := hc.loadScope s
  rw [World.setBindings, World.setBindings]
  revert hload
  cases c.left.loadScope s <;> cases c.right.loadScope s <;> intro hload
  · refine ⟨fun l h => ?_, fun φ h => ?_⟩
    · cases h
    · cases h
      exact congrArg Except.error (id hload).symm
  · exact hload.elim
  · exact hload.elim
  · rename_i sc sc'
    refine ⟨fun l hl => ?_, fun φ h => by cases h⟩
    cases hl
    refine ⟨_, rfl, World.grows_of_same (fun _ h => h) fun _ _ => rfl,
      { hc with scopes := fun s' => ?_, orderly_left := ?_, orderly_right := ?_ }⟩
    · have hbs := hf _ _ (Stage.Names.map bindings_smul hload)
      have hnext : sc'.next = sc.next := by rw [hload.1]; rfl
      by_cases hs : s' = s
      · subst hs
        simp only [Function.update_self]
        rw [hnext]
        exact names_some.mpr
          (hbs.map (f := fun bs => (⟨sc.next, bs⟩ : WorldScope)) fun _ _ => rfl)
      · simp only [Function.update_of_ne hs]
        exact hc.scopes s'
    · exact ⟨hc.orderly_left.objs, hc.orderly_left.mayHold⟩
    · exact ⟨hc.orderly_right.objs, hc.orderly_right.mayHold⟩

/-! ### Operations -/

/-- An operation that only reads. -/
theorem steps_read {o : EvalOp} {x : Except Fault o.Reply}
    {y : Except Fault (EvalOp.Reply (c.naming • o))}
    (hl : World.step o c.left = x.map (·, c.left))
    (hr : World.step (c.naming • o) c.right = y.map (·, c.right))
    (h : Replies c x (cast (congrArg (Except Fault)
      (RenamesOps.reply_smul (O := evalOps) c.naming o)) y))
    (hgives : ∀ r, x = .ok r → orderly.gives o r) :
    (course kept).Steps orderly World.step c o := by
  obtain ⟨a, b, rfl, rfl, hab⟩ | ⟨φ, rfl, rfl⟩ := Replies.of_cast _ h
  · refine ⟨fun r l hrun => ?_, fun φ hrun => ?_⟩
    · obtain ⟨rfl, rfl⟩ := Prod.mk.inj (Except.ok.inj (hl.symm.trans hrun))
      exact ⟨c.names, c.naming, b, c.right, hr, (course kept).refl c, hc, hab, hgives a rfl⟩
    · cases hl.symm.trans hrun
  · refine ⟨fun r l hrun => ?_, fun φ' hrun => ?_⟩
    · cases hl.symm.trans hrun
    · cases hl.symm.trans hrun
      exact hr

omit hc in
/-- An operation that writes to known objects, to scopes or elsewhere, and replies nothing new. -/
theorem steps_write {o : EvalOp} {v : o.Reply} {u : EvalOp.Reply (c.naming • o)}
    {x y : Except Fault World} (hl : World.step o c.left = x.map (v, ·))
    (hr : World.step (c.naming • o) c.right = y.map (u, ·))
    (hv : c.Names v (cast (RenamesOps.reply_smul (O := evalOps) c.naming o) u))
    (hgives : orderly.gives o v)
    (h : (∀ l, x = .ok l → ∃ r, y = .ok r ∧ (course kept).grows c ⟨c.names, c.naming, l, r⟩ ∧
      Corresponds ⟨c.names, c.naming, l, r⟩) ∧ ∀ φ, x = .error φ → y = .error φ) :
    (course kept).Steps orderly World.step c o := by
  cases x with
  | ok l =>
    obtain ⟨r, rfl, hgrows, hcor⟩ := h.1 l rfl
    refine ⟨fun u l' hrun => ?_, fun φ hrun => ?_⟩
    · obtain ⟨rfl, rfl⟩ := Prod.mk.inj (Except.ok.inj (hl.symm.trans hrun))
      exact ⟨c.names, c.naming, u, r, hr, hgrows, hcor, hv, hgives⟩
    · cases hl.symm.trans hrun
  | error φ =>
    refine ⟨fun u l' hrun => ?_, fun φ' hrun => ?_⟩
    · cases hl.symm.trans hrun
    · cases hl.symm.trans hrun
      rw [hr, h.2 φ rfl]
      rfl

/-- Changing the contents of an object. -/
theorem writeObj (ho : c.Names (NaviObj.ptr a) o) {f k : NaviType × Data → NaviType × Data}
    (hf : ∀ d d', c.Names d d' → c.Names (f d) (k d'))
    (hmay : ∀ d, c.left.load (.ptr a) = .ok d → (NaviObj.ptr a).MayHold (f d).2) :
    (∀ l, (c.left.load (.ptr a)).map (fun d => c.left.setObj a (f d)) = .ok l →
      ∃ r, (c.right.load (c.naming • .ptr a)).map
        (fun d => c.right.setObj (c.naming • a) (k d)) = .ok r ∧
        (course kept).grows c ⟨c.names, c.naming, l, r⟩ ∧
        Corresponds ⟨c.names, c.naming, l, r⟩) ∧
      ∀ φ, (c.left.load (.ptr a)).map (fun d => c.left.setObj a (f d)) = .error φ →
        (c.right.load (c.naming • .ptr a)).map (fun d => c.right.setObj (c.naming • a) (k d)) =
          .error φ := by
  have ha := hc.mem_names ho
  have hload := hc.load (⟨rfl, ho.2⟩ : c.Names (.ptr a) (c.naming • .ptr a))
  cases hl : c.left.load (.ptr a) <;> cases hr : c.right.load (c.naming • .ptr a)
  all_goals rw [hl, hr] at hload
  · refine ⟨nofun, fun φ h => ?_⟩
    cases h
    exact congrArg Except.error (id hload).symm
  · exact hload.elim
  · exact hload.elim
  · refine ⟨fun l h => ?_, nofun⟩
    cases h
    refine ⟨_, rfl, World.grows_of_same (fun _ hb => hb) fun b hb => ?_,
      hc.setObj ha (hf _ _ hload) (hmay _ hl)⟩
    rw [World.objs_setObj, if_neg (hb a ha).symm]

theorem mayHold_load {d : NaviType × Data} (h : c.left.load o = .ok d) : o.MayHold d.2 := by
  obtain ⟨a, rfl⟩ := World.ptr_of_load h
  exact hc.orderly_left.mayHold a d (World.objs_of_load h)

omit hc in
/-- An operation that changes no object. -/
theorem steps_same {o : EvalOp} {v : o.Reply} {u : EvalOp.Reply (c.naming • o)} {l r : World}
    (hl : World.step o c.left = .ok (v, l)) (hr : World.step (c.naming • o) c.right = .ok (u, r))
    (hv : c.Names v (cast (RenamesOps.reply_smul (O := evalOps) c.naming o) u))
    (hgives : orderly.gives o v) (halloc : ∀ b, c.right.Allocated b → r.Allocated b)
    (hobjs : r.objs = c.right.objs) (hcor : Corresponds ⟨c.names, c.naming, l, r⟩) :
    (course kept).Steps orderly World.step c o := by
  refine steps_write (x := .ok l) (y := .ok r) hl hr hv hgives ⟨fun l' hl' => ?_, nofun⟩
  cases hl'
  exact ⟨r, rfl, World.grows_of_same halloc fun b _ => congrFun hobjs b, hcor⟩

theorem steps_store {d : Data} (ho : c.Names o (c.naming • o)) (hd : c.Names d (c.naming • d))
    (hmay : o.MayHold d) : (course kept).Steps orderly World.step c (.store o d) := by
  cases o with
  | ptr a =>
    exact steps_write (o := .store (.ptr a) d) (v := ()) (u := ()) (World.step_store _ _ _)
      (World.step_store _ _ _) (names_fixed ()) trivial
      (hc.writeObj ho (f := fun e => (e.1, d)) (k := fun e => (e.1, c.naming • d))
        (fun e e' he => names_mk (names_fst he) hd) fun _ _ => hmay)
  | _ => exact hc.steps_read (x := .error .badWord) (y := .error .badWord) rfl rfl rfl nofun

theorem steps_retag (ho : c.Names o (c.naming • o)) (t : NaviType) :
    (course kept).Steps orderly World.step c (.retag o t) := by
  cases o with
  | ptr a =>
    exact steps_write (o := .retag (.ptr a) t) (v := ()) (u := ()) (World.step_retag _ _ _)
      (World.step_retag _ _ _) (names_fixed ()) trivial
      (hc.writeObj ho (f := fun e => (t, e.2)) (k := fun e => (t, e.2))
        (fun e e' he => names_mk (names_fixed t) (names_snd he)) fun _ => hc.mayHold_load)
  | _ => exact hc.steps_read (x := .error .badWord) (y := .error .badWord) rfl rfl rfl nofun

theorem steps_make {t : NaviType} {d : Data} (hd : c.Names d (c.naming • d))
    (hmay : t = .naviThunk → ∀ n, (NaviObj.ptr (.thunk n)).MayHold d) :
    (course kept).Steps orderly World.step c (.make t d) := by
  obtain ⟨g, hgrows, hcor, hg⟩ := hc.make kept hd hmay
  refine ⟨fun r l hrun => ?_, nofun⟩
  obtain ⟨rfl, rfl⟩ := Prod.mk.inj (Except.ok.inj hrun)
  refine ⟨_, g, _, _, rfl, hgrows, hcor, ?_, trivial⟩
  change Stage.Names _ (c.left.make t d).1 (c.right.make t (c.naming • d)).1
  rw [World.make_fst, World.make_fst]
  exact names_ptr.mpr ⟨hg.symm, fun _ _ h => h _ (Set.mem_insert _ _)⟩

theorem steps_makeSymbol (str : String) :
    (course kept).Steps orderly World.step c (.makeSymbol str) := by
  obtain ⟨V, g, hgrows, hcor, hnames⟩ := hc.makeSymbol kept str
  refine ⟨fun r l hrun => ?_, nofun⟩
  obtain ⟨rfl, rfl⟩ := Prod.mk.inj (Except.ok.inj hrun)
  exact ⟨V, g, _, _, rfl, hgrows, hcor, hnames, trivial⟩

theorem steps_count (k : Counter) : (course kept).Steps orderly World.step c (.count k) := by
  refine steps_same (o := .count k) (v := c.left.counter k) (u := c.right.counter k) rfl rfl ?_
    trivial (fun _ h => h) rfl { hc with
      counter := ?_
      orderly_left := ⟨hc.orderly_left.objs, hc.orderly_left.mayHold⟩
      orderly_right := ⟨hc.orderly_right.objs, hc.orderly_right.mayHold⟩ }
  · change c.Names (c.left.counter k) (c.right.counter k)
    rw [hc.counter]
    exact names_fixed _
  · simp only [hc.counter]

theorem steps_makeScope (next : Option ScopeAddr) :
    (course kept).Steps orderly World.step c (.makeScope next) := by
  refine steps_same (o := .makeScope next) (v := c.left.nextScope) (u := c.right.nextScope) rfl
    rfl ?_ trivial (fun _ h => h) rfl { hc with
      scopes := fun s => ?_
      nextScope := ?_
      orderly_left := ⟨hc.orderly_left.objs, hc.orderly_left.mayHold⟩
      orderly_right := ⟨hc.orderly_right.objs, hc.orderly_right.mayHold⟩ }
  · change c.Names (c.left.nextScope : ℕ) c.right.nextScope
    rw [hc.nextScope]
    exact names_fixed _
  · simp only [hc.nextScope, Function.update_apply]
    split_ifs
    · exact ⟨rfl, fun _ _ _ => rfl⟩
    · exact hc.scopes s
  · simp only [hc.nextScope]

theorem steps_setBinding (s : ScopeAddr) {symbol object : NaviObj}
    (hsymbol : c.Names symbol (c.naming • symbol)) (hobject : c.Names object (c.naming • object)) :
    (course kept).Steps orderly World.step c (.setBinding s symbol object) := by
  refine steps_write (o := .setBinding s symbol object) (v := ()) (u := ()) rfl rfl
    (names_fixed ()) trivial (hc.setBindings s fun bs bs' hbs => ?_)
  have hsome : (lookupIn bs' (c.naming • symbol)).isSome = (lookupIn bs symbol).isSome := by
    rw [(names_lookupIn hbs hsymbol).1]
    cases lookupIn bs symbol <;> rfl
  rw [hsome]
  split_ifs
  · exact names_setIn hbs hsymbol hobject
  · exact hbs

theorem steps_bindings (s : ScopeAddr) :
    (course kept).Steps orderly World.step c (.bindings s) := by
  refine hc.steps_read (o := .bindings s) (x := (c.left.loadScope s).map (·.bindings))
    (y := (c.right.loadScope s).map (·.bindings)) ?_ ?_
    ((hc.loadScope s).map fun sc sc' hsc => hsc.map bindings_smul) fun _ _ => trivial
  · change (c.left.loadScope s).map _ = _
    cases c.left.loadScope s <;> rfl
  · change (c.right.loadScope s).map _ = _
    cases c.right.loadScope s <;> rfl

theorem steps_guard (o : NaviObj) (s : ScopeAddr) :
    (course kept).Steps orderly World.step c (.guard o s) := by
  have hguard : c.Names (some (s, c.left.nextGuard)) (some (s, c.right.nextGuard)) := by
    rw [hc.nextGuard]
    exact names_fixed _
  have hcor : Corresponds ⟨c.names, c.naming,
      { c.left with nextGuard := c.left.nextGuard + 1 },
      { c.right with nextGuard := c.right.nextGuard + 1 }⟩ := { hc with
    nextGuard := by simp only [hc.nextGuard]
    orderly_left := ⟨hc.orderly_left.objs, hc.orderly_left.mayHold⟩
    orderly_right := ⟨hc.orderly_right.objs, hc.orderly_right.mayHold⟩ }
  cases o with
  | ptr _ | void =>
    exact steps_same (o := .guard _ s) rfl rfl hguard trivial (fun _ h => h) rfl hcor
  | _ =>
    exact hc.steps_read (o := .guard _ s) (x := .ok none) (y := .ok none) rfl rfl names_none
      fun _ _ => trivial

theorem steps_registerLibrary {name declarations : NaviObj} (hname : c.Names name (c.naming • name))
    (hdeclarations : c.Names declarations (c.naming • declarations)) :
    (course kept).Steps orderly World.step c (.registerLibrary name declarations) := by
  have hlength : c.right.libraries.length = c.left.libraries.length := by
    rw [hc.libraries.1, length_smul]
  refine steps_same (o := .registerLibrary name declarations) (v := c.left.libraries.length)
    (u := c.right.libraries.length) rfl rfl ?_ trivial (fun _ h => h) rfl { hc with
      libraries := names_cons ?_ hc.libraries
      orderly_left := ⟨hc.orderly_left.objs, hc.orderly_left.mayHold⟩
      orderly_right := ⟨hc.orderly_right.objs, hc.orderly_right.mayHold⟩ }
  · change c.Names c.left.libraries.length c.right.libraries.length
    rw [hlength]
    exact names_fixed _
  · rw [hlength]
    exact (names_mk hname hdeclarations).map (f := fun p : NaviObj × NaviObj =>
      (⟨c.left.libraries.length, false, p.1, p.2, none⟩ : NaviLibrary)) fun _ _ => rfl

theorem steps_setLibrary {exports : NaviObj} (hexports : c.Names exports (c.naming • exports))
    (lib : ℕ) (env : NaviEnv) :
    (course kept).Steps orderly World.step c (.setLibrary lib exports env) :=
  steps_same (o := .setLibrary lib exports env) (v := ()) (u := ()) rfl rfl (names_fixed ())
    trivial (fun _ h => h) rfl { hc with
      libraries := names_setLibrary hc.libraries hexports lib env
      orderly_left := ⟨hc.orderly_left.objs, hc.orderly_left.mayHold⟩
      orderly_right := ⟨hc.orderly_right.objs, hc.orderly_right.mayHold⟩ }

theorem steps_evaluating (expr : NaviObj) (env : NaviEnv) :
    (course kept).Steps orderly World.step c (.evaluating expr env) :=
  steps_same (o := .evaluating expr env) (v := ()) (u := ()) rfl rfl (names_fixed ()) trivial
    (fun _ h => h) rfl { hc with
      orderly_left := ⟨hc.orderly_left.objs, hc.orderly_left.mayHold⟩
      orderly_right := ⟨hc.orderly_right.objs, hc.orderly_right.mayHold⟩ }

/-- **Corresponding worlds stay so**, whatever is done to known objects in the first, and to what
they are in the second. -/
theorem steps {o : EvalOp} (ho : OnlyOn Readdressing c.names o) (hasks : orderly.asks o) :
    (course kept).Steps orderly World.step c o := by
  cases o with
  | load o =>
    have hobj : c.Names o (c.naming • o) := ⟨rfl, fun g g' hg => EvalOp.load.inj (ho g g' hg)⟩
    exact hc.steps_read (o := .load o) rfl rfl (hc.load hobj) fun d hd => hc.mayHold_load hd
  | store o d =>
    exact hc.steps_store ⟨rfl, fun g g' hg => (EvalOp.store.inj (ho g g' hg)).1⟩
      ⟨rfl, fun g g' hg => (EvalOp.store.inj (ho g g' hg)).2⟩ hasks
  | retag o t => exact hc.steps_retag ⟨rfl, fun g g' hg => (EvalOp.retag.inj (ho g g' hg)).1⟩ t
  | make t d => exact hc.steps_make ⟨rfl, fun g g' hg => (EvalOp.make.inj (ho g g' hg)).2⟩ hasks
  | makeSymbol str => exact hc.steps_makeSymbol str
  | count k => exact hc.steps_count k
  | walk o =>
    have hobj : c.Names o (c.naming • o) := ⟨rfl, fun g g' hg => EvalOp.walk.inj (ho g g' hg)⟩
    exact hc.steps_read (o := .walk o) rfl rfl (hc.walk hobj) fun _ _ => trivial
  | makeScope next => exact hc.steps_makeScope next
  | scopeRef s | scopeUnref s | unguard guard | gcCheck held | gcCollect held | gcDisable
  | gcEnable =>
    exact hc.steps_read (x := .ok ()) (y := .ok ()) rfl rfl (names_fixed ()) fun _ _ => trivial
  | envBinding s symbol =>
    have hsymbol : c.Names symbol (c.naming • symbol) :=
      ⟨rfl, fun g g' hg => (EvalOp.envBinding.inj (ho g g' hg)).2⟩
    exact hc.steps_read (o := .envBinding s symbol) rfl rfl (hc.envBinding hsymbol _ s)
      fun _ _ => trivial
  | setBinding s symbol object =>
    exact hc.steps_setBinding s ⟨rfl, fun g g' hg => (EvalOp.setBinding.inj (ho g g' hg)).2.1⟩
      ⟨rfl, fun g g' hg => (EvalOp.setBinding.inj (ho g g' hg)).2.2⟩
  | scopeSet s symbol object =>
    have hsymbol : c.Names symbol (c.naming • symbol) :=
      ⟨rfl, fun g g' hg => (EvalOp.scopeSet.inj (ho g g' hg)).2.1⟩
    have hobject : c.Names object (c.naming • object) :=
      ⟨rfl, fun g g' hg => (EvalOp.scopeSet.inj (ho g g' hg)).2.2⟩
    exact steps_write (o := .scopeSet s symbol object) (v := ()) (u := ()) rfl rfl
      (names_fixed ()) trivial (hc.setBindings s fun bs bs' hbs => names_setIn hbs hsymbol hobject)
  | scopeUnset s symbol =>
    have hsymbol : c.Names symbol (c.naming • symbol) :=
      ⟨rfl, fun g g' hg => (EvalOp.scopeUnset.inj (ho g g' hg)).2⟩
    exact steps_write (o := .scopeUnset s symbol) (v := ()) (u := ()) rfl rfl
      (names_fixed ()) trivial (hc.setBindings s fun bs bs' hbs => names_filter hbs hsymbol)
  | globalScope s =>
    exact hc.steps_read (o := .globalScope s) rfl rfl (hc.globalScope _ s) fun _ _ => trivial
  | bindings s => exact hc.steps_bindings s
  | guard o s => exact hc.steps_guard o s
  | libraries =>
    exact hc.steps_read (o := .libraries) (x := .ok c.left.libraries) (y := .ok c.right.libraries)
      rfl rfl hc.libraries fun _ _ => trivial
  | registerLibrary name declarations =>
    exact hc.steps_registerLibrary
      ⟨rfl, fun g g' hg => (EvalOp.registerLibrary.inj (ho g g' hg)).1⟩
      ⟨rfl, fun g g' hg => (EvalOp.registerLibrary.inj (ho g g' hg)).2⟩
  | setLibrary lib exports env =>
    exact hc.steps_setLibrary
      ⟨rfl, fun g g' hg => (EvalOp.setLibrary.inj (ho g g' hg)).2.1⟩ lib env
  | evaluating expr env => exact hc.steps_evaluating expr env
  | fail φ => exact hc.steps_read (o := .fail φ) (x := .error φ) (y := .error φ) rfl rfl rfl nofun

end World.Corresponds

end Corresponds

end NaviScheme
