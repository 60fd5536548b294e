import NaviScheme.Frame.Control
import NaviScheme.Eval.Inspect
import NaviScheme.Lib.Trace

/-!
# Runs spare what is hidden

A world hides the objects at some addresses (`NaviScheme.World.Hides`) when nothing but these
objects themselves refers to them. No program that is not given them can reach them: they are
as they were when it ends, and still hidden (`NaviScheme.Hidden.of_evaluates`).

An address at which nothing has been allocated is such an address, as long as nothing is
allocated there, so that a world in which everything that is referred to has been allocated
(`NaviScheme.World.Closed`) stays one.
-/

namespace NaviScheme

open Prog

variable {α : Type} {S T : Addr → Prop} {w w' : World} {o : NaviObj}

/-- Nothing in a world but the objects at the addresses `S` refers to them. -/
structure World.Hides (w : World) (S : Addr → Prop) : Prop where
  /-- the other objects do not -/
  objs : ∀ a c, ¬ S a → w.objs a = some c → c.2.Avoids S
  /-- bindings do not -/
  scopes : ∀ s sc, w.scopes s = some sc → ∀ b ∈ sc.bindings, b.Avoids S
  /-- the symbol table does not -/
  symtab : ∀ e ∈ w.symtab, ¬ S e.2
  /-- libraries do not -/
  libraries : ∀ l ∈ w.libraries, l.Avoids S

/-- An address at which an object has been allocated. -/
def World.Allocated (w : World) : Addr → Prop
  | .obj n => n < w.nextObj
  | .thunk n => n < w.nextThunk

/-- What a run makes of a world that hides the objects at the addresses `S`. -/
structure World.Sparing (w : World) (S : Addr → Prop) (w' : World) : Prop where
  /-- they are still hidden -/
  hides : w'.Hides S
  /-- they are as they were -/
  same : ∀ a, S a → w'.objs a = w.objs a

theorem avoids_mono (h : ∀ a, T a → S a) (ho : Avoids S o) : Avoids T o := by
  cases o with
  | ptr a => exact fun ha => ho (h a ha)
  | _ => trivial

theorem World.objs_setObj (w : World) (a b : Addr) (c : NaviType × Data) :
    (w.setObj a c).objs b = if b = a then some c else w.objs b := by
  by_cases hb : b = a <;> simp [World.setObj, hb]

/-! ### Operations -/

section Step

variable {w₀ : World}

theorem World.Sparing.setObj {a : Addr} {c : NaviType × Data} (h : w₀.Sparing S w) (ha : ¬ S a)
    (hc : c.2.Avoids S) : w₀.Sparing S (w.setObj a c) where
  hides :=
    { h.hides with
      objs := fun b c' hb hobj => by
        rw [World.objs_setObj] at hobj
        split at hobj
        · cases hobj
          exact hc
        · exact h.hides.objs b c' hb hobj }
  same b hb := by
    have hne : b ≠ a := fun heq => ha (heq ▸ hb)
    rw [World.objs_setObj, if_neg hne, h.same b hb]

theorem World.Hides.load {c : NaviType × Data} (h : w.Hides S) (ho : Avoids S o)
    (hload : w.load o = .ok c) : c.2.Avoids S := by
  obtain ⟨a, rfl⟩ := World.ptr_of_load hload
  rw [World.load] at hload
  split at hload
  · rename_i c' hobj
    cases hload
    exact h.objs a c ho hobj
  · cases hload

theorem World.Hides.walk {n : ℕ} {pairs : List NaviObj} {last : NaviObj} (h : w.Hides S)
    (ho : Avoids S o) (hwalk : w.walk n o = .ok (pairs, last)) : AllAvoid S pairs ∧ Avoids S last := by
  fun_induction World.walk generalizing pairs with
  | case1 => cases hwalk
  | case2 => cases hwalk
  | case3 n a car cdr hobj ih =>
    have hcdr := ((Data.avoids_pair _ _).mp (h.objs a _ ho hobj)).2 cdr rfl
    obtain ⟨⟨pairs', last'⟩, hrec, heq⟩ := bind_eq_ok hwalk
    cases heq
    obtain ⟨hpairs, hlast⟩ := ih hcdr hrec
    exact ⟨allAvoid_cons.mpr ⟨ho, hpairs⟩, hlast⟩
  | case4 => cases hwalk
  | case5 =>
    cases hwalk
    exact ⟨allAvoid_nil.mpr trivial, ho⟩
  | case6 =>
    cases hwalk
    exact ⟨allAvoid_nil.mpr trivial, ho⟩

theorem World.scopes_of_loadScope {s : ScopeAddr} {sc : WorldScope}
    (h : w.loadScope s = .ok sc) : w.scopes s = some sc := by
  rw [World.loadScope] at h
  split at h
  · cases h
    assumption
  · cases h

theorem World.Hides.envBinding {n : ℕ} {s s' : ScopeAddr} {symbol : NaviObj} (h : w.Hides S)
    (henv : w.envBinding symbol n s = .ok (some (s', o))) : Avoids S o := by
  induction n generalizing s with
  | zero => cases henv
  | succ n ih =>
    obtain ⟨sc, hsc, henv⟩ := bind_eq_ok henv
    split at henv
    · rename_i o' hlookup
      cases henv
      obtain ⟨b, hb, rfl⟩ := lookupIn_eq_some hlookup
      exact (h.scopes _ sc (World.scopes_of_loadScope hsc) b hb).2
    · split at henv
      · exact ih henv
      · cases henv

theorem avoids_setIn {bs : List NaviBinding} {symbol object : NaviObj} (hbs : ∀ b ∈ bs, b.Avoids S)
    (hsymbol : Avoids S symbol) (hobject : Avoids S object) :
    ∀ b ∈ setIn bs symbol object, b.Avoids S := by
  intro b hb
  rw [setIn] at hb
  split_ifs at hb
  · obtain ⟨b', hb', rfl⟩ := List.mem_map.mp hb
    split_ifs
    · exact ⟨(hbs b' hb').1, hobject⟩
    · exact hbs b' hb'
  · obtain rfl | hb := List.mem_cons.mp hb
    · exact ⟨hsymbol, hobject⟩
    · exact hbs b hb

theorem World.Sparing.setBindings {s : ScopeAddr} {f : List NaviBinding → List NaviBinding}
    (h : w₀.Sparing S w) (hf : ∀ bs, (∀ b ∈ bs, b.Avoids S) → ∀ b ∈ f bs, b.Avoids S)
    (hset : w.setBindings s f = .ok w') : w₀.Sparing S w' := by
  obtain ⟨sc, hsc, hset⟩ := bind_eq_ok hset
  cases hset
  refine ⟨{ h.hides with scopes := fun s' sc' hs' => ?_ }, h.same⟩
  replace hs' : Function.update w.scopes s _ s' = some sc' := hs'
  by_cases heq : s' = s
  · subst heq
    rw [Function.update_self] at hs'
    cases hs'
    exact hf _ (h.hides.scopes s' sc (World.scopes_of_loadScope hsc))
  · rw [Function.update_of_ne heq] at hs'
    exact h.hides.scopes s' sc' hs'

theorem World.Sparing.make {t : NaviType} {d : Data} (h : w₀.Sparing S w) (hd : d.Avoids S)
    (hfresh : ∀ a, S a → (w.make t d).2.Allocated a → w.Allocated a) :
    Avoids S (w.make t d).1 ∧ w₀.Sparing S (w.make t d).2 := by
  unfold World.make at hfresh ⊢
  split_ifs at hfresh ⊢
  · have hnew : ¬ S (.thunk w.nextThunk) := fun hS => absurd (hfresh _ hS (by simp [World.Allocated]))
      (by simp [World.Allocated])
    have hset := h.setObj (c := (t, d)) hnew hd
    exact ⟨hnew, ⟨hset.hides.objs, hset.hides.scopes, hset.hides.symtab, hset.hides.libraries⟩,
      hset.same⟩
  · have hnew : ¬ S (.obj w.nextObj) := fun hS => absurd (hfresh _ hS (by simp [World.Allocated]))
      (by simp [World.Allocated])
    have hset := h.setObj (c := (t, d)) hnew hd
    exact ⟨hnew, ⟨hset.hides.objs, hset.hides.scopes, hset.hides.symtab, hset.hides.libraries⟩,
      hset.same⟩

theorem World.Sparing.makeSymbol {str : String} (h : w₀.Sparing S w)
    (hfresh : ∀ a, S a → (w.makeSymbol str).2.Allocated a → w.Allocated a) :
    Avoids S (w.makeSymbol str).1 ∧ w₀.Sparing S (w.makeSymbol str).2 := by
  unfold World.makeSymbol at hfresh ⊢
  cases hlookup : w.symtab.lookup str with
  | some a =>
    obtain ⟨l₁, l₂, heq, -⟩ := List.lookup_eq_some_iff.mp hlookup
    exact ⟨h.hides.symtab (str, a) (by simp [heq]), h⟩
  | none =>
    rw [hlookup] at hfresh
    obtain ⟨ho, hmake⟩ := h.make (t := .naviSymbol) (d := .symbol str true)
      ((Data.avoids_symbol _ _).mpr trivial) hfresh
    refine ⟨ho, { hmake.hides with symtab := fun e he => ?_ }, hmake.same⟩
    obtain rfl | he := List.mem_cons.mp he
    · exact ho
    · exact hmake.hides.symtab e he

/-- **An operation spares what is hidden**, unless it allocates an object there. -/
theorem World.step_spares {o : EvalOp} {r : o.Reply} (ho : o.Spares S True) (h : w₀.Sparing S w)
    (hstep : World.step o w = .ok (r, w')) (hfresh : ∀ a, S a → w'.Allocated a → w.Allocated a) :
    o.ReplyAvoids S r ∧ w₀.Sparing S w' := by
  cases o with
  | load o =>
    obtain ⟨c, hload, heq⟩ := map_eq_ok hstep
    cases heq
    exact ⟨h.hides.load ho hload, h⟩
  | store o d =>
    cases o with
    | ptr a =>
      obtain ⟨c, hload, heq⟩ := bind_eq_ok hstep
      cases heq
      exact ⟨trivial, h.setObj ho.1 ho.2⟩
    | _ => cases hstep
  | retag o t =>
    cases o with
    | ptr a =>
      obtain ⟨c, hload, heq⟩ := bind_eq_ok hstep
      cases heq
      have ha : Avoids S (.ptr a) := ho
      exact ⟨trivial, h.setObj ha (h.hides.load (c := c) ha hload)⟩
    | _ => cases hstep
  | make t d =>
    obtain ⟨rfl, rfl⟩ := Prod.mk.inj (Except.ok.inj hstep)
    exact h.make ho hfresh
  | makeSymbol str =>
    obtain ⟨rfl, rfl⟩ := Prod.mk.inj (Except.ok.inj hstep)
    exact h.makeSymbol hfresh
  | walk o =>
    obtain ⟨⟨pairs, last⟩, hwalk, heq⟩ := map_eq_ok hstep
    cases heq
    exact ⟨h.hides.walk ho hwalk, h⟩
  | makeScope next =>
    cases hstep
    refine ⟨trivial, { h.hides with scopes := fun s sc hs => ?_ }, h.same⟩
    replace hs : Function.update w.scopes w.nextScope _ s = some sc := hs
    by_cases heq : s = w.nextScope
    · subst heq
      rw [Function.update_self] at hs
      cases hs
      exact fun b hb => absurd hb List.not_mem_nil
    · rw [Function.update_of_ne heq] at hs
      exact h.hides.scopes s sc hs
  | envBinding s symbol =>
    obtain ⟨r', henv, heq⟩ := map_eq_ok hstep
    cases heq
    refine ⟨fun s' o hr => ?_, h⟩
    subst hr
    exact h.hides.envBinding henv
  | setBinding s symbol object =>
    obtain ⟨w₁, hset, heq⟩ := map_eq_ok hstep
    cases heq
    refine ⟨trivial, h.setBindings (fun bs hbs => ?_) hset⟩
    split_ifs
    · exact avoids_setIn hbs ho.1 ho.2
    · exact hbs
  | scopeSet s symbol object =>
    obtain ⟨w₁, hset, heq⟩ := map_eq_ok hstep
    cases heq
    exact ⟨trivial, h.setBindings (fun bs hbs => avoids_setIn hbs ho.1 ho.2) hset⟩
  | scopeUnset s symbol =>
    obtain ⟨w₁, hset, heq⟩ := map_eq_ok hstep
    cases heq
    exact ⟨trivial, h.setBindings (fun bs hbs b hb => hbs b (List.mem_of_mem_filter hb)) hset⟩
  | globalScope s =>
    obtain ⟨s', -, heq⟩ := map_eq_ok hstep
    cases heq
    exact ⟨trivial, h⟩
  | bindings s =>
    obtain ⟨sc, hsc, heq⟩ := map_eq_ok hstep
    cases heq
    exact ⟨h.hides.scopes s sc (World.scopes_of_loadScope hsc), h⟩
  | guard o s =>
    refine ⟨trivial, ?_⟩
    simp only [World.step] at hstep
    split at hstep
    all_goals
      cases hstep
      exact ⟨{ h.hides with }, h.same⟩
  | libraries =>
    cases hstep
    exact ⟨h.hides.libraries, h⟩
  | registerLibrary name declarations =>
    cases hstep
    refine ⟨trivial, { h.hides with libraries := fun l hl => ?_ }, h.same⟩
    obtain rfl | hl := List.mem_cons.mp hl
    · exact ho
    · exact h.hides.libraries l hl
  | setLibrary lib exports env =>
    cases hstep
    refine ⟨trivial, { h.hides with libraries := fun l hl => ?_ }, h.same⟩
    obtain ⟨l', hl', rfl⟩ := List.mem_map.mp hl
    split_ifs
    · exact ⟨(h.hides.libraries l' hl').1, ho⟩
    · exact h.hides.libraries l' hl'
  | fail φ => cases hstep
  | _ =>
    cases hstep
    exact ⟨trivial, { h.hides with }, h.same⟩

theorem World.make_next (w : World) (t : NaviType) (d : Data) :
    w.nextObj ≤ (w.make t d).2.nextObj ∧ w.nextThunk ≤ (w.make t d).2.nextThunk := by
  unfold World.make
  split_ifs
  · exact ⟨le_rfl, Nat.le_succ _⟩
  · exact ⟨Nat.le_succ _, le_rfl⟩

theorem World.setBindings_next {s : ScopeAddr} {f : List NaviBinding → List NaviBinding}
    (h : w.setBindings s f = .ok w') : w.nextObj ≤ w'.nextObj ∧ w.nextThunk ≤ w'.nextThunk := by
  obtain ⟨sc, -, heq⟩ := bind_eq_ok h
  cases heq
  exact ⟨le_rfl, le_rfl⟩

theorem World.step_next {o : EvalOp} {r : o.Reply} (hstep : World.step o w = .ok (r, w')) :
    w.nextObj ≤ w'.nextObj ∧ w.nextThunk ≤ w'.nextThunk := by
  cases o with
  | load o | walk o | envBinding s symbol | globalScope s | bindings s =>
    obtain ⟨c, -, heq⟩ := map_eq_ok hstep
    cases heq
    exact ⟨le_rfl, le_rfl⟩
  | store o d | retag o t =>
    cases o with
    | ptr a =>
      obtain ⟨c, -, heq⟩ := bind_eq_ok hstep
      cases heq
      exact ⟨le_rfl, le_rfl⟩
    | _ => cases hstep
  | make t d =>
    obtain ⟨rfl, rfl⟩ := Prod.mk.inj (Except.ok.inj hstep)
    exact w.make_next t d
  | makeSymbol str =>
    obtain ⟨rfl, rfl⟩ := Prod.mk.inj (Except.ok.inj hstep)
    cases w.symtab.lookup str with
    | some a => exact ⟨le_rfl, le_rfl⟩
    | none => exact w.make_next .naviSymbol (.symbol str true)
  | setBinding s symbol object | scopeSet s symbol object | scopeUnset s symbol =>
    obtain ⟨w₁, hset, heq⟩ := map_eq_ok hstep
    cases heq
    exact World.setBindings_next hset
  | guard o s =>
    simp only [World.step] at hstep
    split at hstep
    all_goals
      cases hstep
      exact ⟨le_rfl, le_rfl⟩
  | fail φ => cases hstep
  | _ =>
    cases hstep
    exact ⟨le_rfl, le_rfl⟩

/-- What has been allocated stays allocated. -/
theorem World.step_allocated {o : EvalOp} {r : o.Reply} {a : Addr}
    (hstep : World.step o w = .ok (r, w')) (ha : w.Allocated a) : w'.Allocated a := by
  cases a with
  | obj n => exact lt_of_lt_of_le ha (World.step_next hstep).1
  | thunk n => exact lt_of_lt_of_le ha (World.step_next hstep).2

end Step

/-! ### Runs -/

section Run

variable {X : Externals} {p : Code α} {Q : α → Prop} {v : α} {r : Res Fault EvalExn World α}

/-- A run allocates an object at one of the addresses `S`. -/
def World.Reaches (w : World) (S : Addr → Prop) (w' : World) : Prop :=
  ∃ a, S a ∧ w'.Allocated a ∧ ¬ w.Allocated a

theorem keeps_of_evaluates (hX : X.Spares S True) (hp : Spares S True (sparing S) p Q)
    (hw : w.Hides S) (h : (worldSemantics X).Evaluates p w r) :
    r.Keeps (fun w' => w.Sparing S w' ∧ ∀ a, w.Allocated a → w'.Allocated a) (w.Reaches S)
      (EvalExn.Avoids S) Q := by
  refine Semantics.Evaluates.keeps (M := worldSemantics X) (C := sparingOps S True)
    (D := sparing S) (fun o w₁ r w₂ ho hw₁ hstep => ?_) (fun _ _ _ h => h) (fun _ _ _ h => h)
    (fun o w₁ r w₂ hw₁ hstep => ?_) (fun _ _ _ h => h) (fun _ _ h => h)
    (fun f hf => spares_evalBody hX hf (.inl trivial)) h hp
    ⟨⟨hw, fun _ _ => rfl⟩, fun _ h => h⟩
  · by_cases hB : w.Reaches S w₂
    · exact .inl hB
    · obtain ⟨hr, hw₂⟩ := World.step_spares ho hw₁.1 hstep fun a ha hw₂ =>
        hw₁.2 a (by_contra fun hw => hB ⟨a, ha, hw₂, hw⟩)
      exact .inr ⟨hr, hw₂, fun a ha => World.step_allocated hstep (hw₁.2 a ha)⟩
  · obtain ⟨a, ha, hw₁, hw⟩ := hw₁
    exact ⟨a, ha, World.step_allocated hstep hw₁, hw⟩

/-- **A run spares what is hidden**, unless it allocates an object there. -/
theorem World.Hides.of_evaluates (hw : w.Hides S) (hX : X.Spares S True)
    (hp : Spares S True (sparing S) p Q) (h : (worldSemantics X).Evaluates p w (.ok v w'))
    (hfresh : ∀ a, S a → w'.Allocated a → w.Allocated a) : Q v ∧ w.Sparing S w' := by
  obtain ⟨a, ha, hw', hw⟩ | ⟨hv, hspare, -⟩ := keeps_of_evaluates hX hp hw h
  · exact absurd (hfresh a ha hw') hw
  · exact ⟨hv, hspare⟩

/-! ### What has been allocated -/

/-- All objects have been allocated, and nothing refers to an object that has not been. -/
structure World.Closed (w : World) : Prop where
  /-- there is no object where none has been allocated -/
  objs : ∀ a, ¬ w.Allocated a → w.objs a = none
  /-- nothing refers to an object that has not been allocated -/
  hides : w.Hides fun a => ¬ w.Allocated a

/-- An object that has been allocated, or that needs not be. -/
def World.Has (w : World) (o : NaviObj) : Prop := Avoids (fun a => ¬ w.Allocated a) o

theorem World.Hides.mono (h : w.Hides S) (hTS : ∀ a, T a → S a)
    (hobjs : ∀ a, S a → ¬ T a → w.objs a = none) : w.Hides T where
  objs a c ha hobj o ho := by
    by_cases hS : S a
    · rw [hobjs a hS ha] at hobj
      cases hobj
    · exact avoids_mono hTS (h.objs a c hS hobj o ho)
  scopes s sc hs b hb := ⟨avoids_mono hTS (h.scopes s sc hs b hb).1,
    avoids_mono hTS (h.scopes s sc hs b hb).2⟩
  symtab e he ha := h.symtab e he (hTS _ ha)
  libraries l hl := ⟨avoids_mono hTS (h.libraries l hl).1, avoids_mono hTS (h.libraries l hl).2⟩

theorem avoids_or : Avoids (fun a => S a ∨ T a) o ↔ Avoids S o ∧ Avoids T o := by
  cases o <;> simp [Avoids]

theorem World.Hides.or (hS : w.Hides S) (hT : w.Hides T) : w.Hides fun a => S a ∨ T a where
  objs a c ha hobj o ho := avoids_or.mpr ⟨hS.objs a c (fun h => ha (.inl h)) hobj o ho,
    hT.objs a c (fun h => ha (.inr h)) hobj o ho⟩
  scopes s sc hs b hb := ⟨avoids_or.mpr ⟨(hS.scopes s sc hs b hb).1, (hT.scopes s sc hs b hb).1⟩,
    avoids_or.mpr ⟨(hS.scopes s sc hs b hb).2, (hT.scopes s sc hs b hb).2⟩⟩
  symtab e he ha := ha.elim (hS.symtab e he) (hT.symtab e he)
  libraries l hl := ⟨avoids_or.mpr ⟨(hS.libraries l hl).1, (hT.libraries l hl).1⟩,
    avoids_or.mpr ⟨(hS.libraries l hl).2, (hT.libraries l hl).2⟩⟩

/-- **A run keeps a world closed.** -/
theorem World.Closed.of_evaluates {Q : (Addr → Prop) → α → Prop} (hw : w.Closed)
    (hX : ∀ S, X.Spares S True)
    (hp : ∀ S, (∀ a, S a → ¬ w.Allocated a) → Spares S True (sparing S) p (Q S))
    (h : (worldSemantics X).Evaluates p w (.ok v w')) :
    Q (fun a => ¬ w'.Allocated a) v ∧ w'.Closed ∧ ∀ a, w.Allocated a → w'.Allocated a := by
  have hle : ∀ a, w.Allocated a → w'.Allocated a :=
    Semantics.Evaluates.rel (R := fun w w' : World => ∀ a, w.Allocated a → w'.Allocated a)
      (fun _ _ h => h) (fun h h' a ha => h' a (h a ha))
      (fun o w r w' hstep a => World.step_allocated hstep) (fun _ _ _ _ h => h) h rfl
  have hsub : ∀ a, ¬ w'.Allocated a → ¬ w.Allocated a := fun a ha hw => ha (hle a hw)
  obtain ⟨hv, hspare⟩ := (hw.hides.mono hsub fun a ha _ => hw.objs a ha).of_evaluates (hX _)
    (hp _ hsub) h fun a ha hw' => absurd hw' ha
  refine ⟨hv, ⟨fun a ha => ?_, hspare.hides⟩, hle⟩
  rw [hspare.same a ha, hw.objs a (hsub a ha)]

end Run

/-! ### Worlds from tables -/

/-- An object that is in a table of `n` entries, or that needs not be. -/
def NaviObj.below (n : ℕ) : NaviObj → Bool
  | .ptr (.obj m) => m < n
  | .ptr (.thunk _) => false
  | _ => true

theorem World.has_ofCells {cells : List (NaviType × Data)} {names : List (String × ℕ)}
    {scopes : List WorldScope} {libraries : List NaviLibrary} (ho : o.below cells.length = true) :
    (World.ofCells cells names scopes libraries).Has o := by
  cases o with
  | ptr a =>
    cases a with
    | obj m => exact fun hnot => hnot (of_decide_eq_true ho : m < cells.length)
    | thunk m => cases ho
  | _ => trivial

/-- A world from a table is closed if everything in it refers to its entries. -/
theorem World.closed_ofCells {cells : List (NaviType × Data)} {names : List (String × ℕ)}
    {scopes : List WorldScope} {libraries : List NaviLibrary}
    (hcells : ∀ c ∈ cells, ∀ o ∈ c.2.objs, o.below cells.length = true)
    (hscopes : ∀ sc ∈ scopes, ∀ b ∈ sc.bindings,
      b.symbol.below cells.length = true ∧ b.object.below cells.length = true)
    (hnames : ∀ e ∈ names, e.2 < cells.length)
    (hlibraries : ∀ l ∈ libraries,
      l.name.below cells.length = true ∧ l.list.below cells.length = true) :
    (World.ofCells cells names scopes libraries).Closed where
  objs a ha := by
    cases a with
    | obj n => exact List.getElem?_eq_none (not_lt.mp ha)
    | thunk n => rfl
  hides :=
    { objs := fun a c ha hobj o ho => by
        cases a with
        | obj n => exact has_ofCells (hcells c (List.mem_of_getElem? hobj) o ho)
        | thunk n => cases hobj
      scopes := fun s sc hs b hb => by
        have hb := hscopes sc (List.mem_of_getElem? hs) b hb
        exact ⟨has_ofCells hb.1, has_ofCells hb.2⟩
      symtab := fun e he => by
        obtain ⟨e', he', rfl⟩ := List.mem_map.mp he
        exact fun hnot => hnot (hnames e' he')
      libraries := fun l hl => ⟨has_ofCells (hlibraries l hl).1, has_ofCells (hlibraries l hl).2⟩ }

theorem noExternals_spares (S : Addr → Prop) : noExternals.Spares S True :=
  ⟨fun _ _ _ _ _ => trivial, fun _ _ => trivial, fun _ => trivial, fun _ => trivial,
    fun _ _ => trivial, fun _ => trivial⟩

end NaviScheme
