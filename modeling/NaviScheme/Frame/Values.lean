import NaviScheme.Eval.Reads
import NaviScheme.Frame.Run

/-!
# Operands and their values

What it is for the operands of a call to have been evaluated once each, from left to right
(`NaviScheme.Operands`). The list that their values are put into is made in between; its pairs
have not been there before, and no operand sees them. An operand that is its own value
may be passed on as it is. The log tells whether all of them have been
(`NaviScheme.Operands.of_log`).
-/

namespace NaviScheme

open Prog

variable {X : Externals} {own own' : Addr → Prop} {w w' w₁ w₂ : World} {a : Addr}
  {o u v cons last : NaviObj} {env : NaviEnv} {vs : List NaviObj}

/-! ### Worlds that differ in some objects -/

/-- A world in which only the objects at the addresses `own` are others. -/
structure World.SameBut (own : Addr → Prop) (w w' : World) : Prop where
  /-- the other objects -/
  objs : ∀ a, ¬ own a → w'.objs a = w.objs a
  /-- the scopes -/
  scopes : w'.scopes = w.scopes
  /-- the symbol table -/
  symtab : w'.symtab = w.symtab
  /-- the counters -/
  counter : w'.counter = w.counter
  /-- the libraries -/
  libraries : w'.libraries = w.libraries
  /-- nothing has been evaluated -/
  log : w'.log = w.log

namespace World.SameBut

theorem refl (own : Addr → Prop) (w : World) : w.SameBut own w :=
  ⟨fun _ _ => rfl, rfl, rfl, rfl, rfl, rfl⟩

theorem trans (h : w.SameBut own w₁) (h' : w₁.SameBut own w') : w.SameBut own w' :=
  ⟨fun a ha => (h'.objs a ha).trans (h.objs a ha), h'.scopes.trans h.scopes,
    h'.symtab.trans h.symtab, h'.counter.trans h.counter, h'.libraries.trans h.libraries,
    h'.log.trans h.log⟩

theorem mono (h : w.SameBut own w') (hle : ∀ a, own a → own' a) : w.SameBut own' w' :=
  { h with objs := fun a ha => h.objs a fun hown => ha (hle a hown) }

theorem setObj (own : Addr → Prop) (ha : own a) (c : NaviType × Data) :
    w.SameBut own (w.setObj a c) := by
  refine ⟨fun b hb => ?_, rfl, rfl, rfl, rfl, rfl⟩
  have hne : b ≠ a := fun heq => hb (heq ▸ ha)
  rw [World.objs_setObj, if_neg hne]

theorem make_pair (own : Addr → Prop) (hown : own (.obj w.nextObj)) (d : Data) :
    w.SameBut own (w.make .naviPair d).2 :=
  have hset := setObj own hown (.naviPair, d)
  ⟨hset.objs, rfl, rfl, rfl, rfl, rfl⟩

theorem guarded (w : World) (g : ℕ) : w.SameBut own { w with nextGuard := g } :=
  ⟨fun _ _ => rfl, rfl, rfl, rfl, rfl, rfl⟩

theorem load (h : w.SameBut own w') (ho : Avoids own o) : w'.load o = w.load o := by
  cases o with
  | ptr a => rw [World.load, World.load, h.objs a ho]
  | _ => rfl

theorem reads (h : w.SameBut own w') (hv : Avoids own v) (hr : w'.Reads env v u) :
    w.Reads env v u := by
  have hload := h.load hv
  cases hr with
  | immediate hv => exact .immediate hv
  | constant hv ht => exact .constant (hload.symm.trans hv) ht
  | symbol hv hu =>
    exact .symbol (hload.symm.trans hv) ((World.envBinding_congr h.scopes _ _ _).symm.trans hu)
  | values hv hu => exact .values (hload.symm.trans hv) hu

end World.SameBut

/-! ### Reading a list -/

/-- An object is a pair that has `e` in its first field. -/
def HasCar (w : World) (o e : NaviObj) : Prop := ∃ c, w.load o = .ok (.naviPair, .pair (some e) c)

/-- An object has `e` in its second field. -/
def HasCdr (w : World) (o e : NaviObj) : Prop := ∃ t c, w.load o = .ok (t, .pair c (some e))

/-- An object is no pair. -/
def NoPair (w : World) (o : NaviObj) : Prop := ∀ d, w.load o ≠ .ok (.naviPair, d)

theorem noPair_nil : NoPair w .nil := by
  intro d hd
  cases hd

/-- The elements of a list, whatever ends it. -/
inductive Elements (w : World) : NaviObj → List NaviObj → Prop
  | nil {o : NaviObj} (ho : NoPair w o) : Elements w o []
  | cons {o car cdr : NaviObj} {xs : List NaviObj} (ho : IsPair w o car cdr)
    (ht : Elements w cdr xs) : Elements w o (car :: xs)

theorem Spine.toElements {pairs xs : List NaviObj} (h : Spine w o pairs xs) : Elements w o xs := by
  induction h with
  | nil => exact .nil noPair_nil
  | cons hp _ ih => exact .cons hp ih

/-! ### Operands -/

/-- **The operands from `cons` on have the values `vs`**: one after another, each is evaluated in
`env`, once; what is its own value need not be. In between, only the objects at the addresses
`own` change. What follows these operands is `last`. -/
inductive Operands (X : Externals) (env : NaviEnv) (own : Addr → Prop) :
    World → NaviObj → List NaviObj → World → NaviObj → Prop
  /-- none -/
  | nil {w w' : World} {cons : NaviObj} (hown : w.SameBut own w') :
    Operands X env own w cons [] w' cons
  /-- One is evaluated. -/
  | eval {w w₁ w₂ w' : World} {cons e cdr v last : NaviObj} {vs : List NaviObj}
    (hown : w.SameBut own w₁) (hcons : HasCar w₁ cons e)
    (he : (worldSemantics X).Returns (.naviEval e env) w₁ (.ok v w₂)) (hcdr : HasCdr w₂ cons cdr)
    (hrest : Operands X env own w₂ cdr vs w' last) : Operands X env own w cons (v :: vs) w' last
  /-- One is its own value. -/
  | self {w w₁ w' : World} {cons e cdr last : NaviObj} {vs : List NaviObj}
    (hown : w.SameBut own w₁) (hcons : IsPair w₁ cons e cdr) (he : w₁.SelfEvaluating env e)
    (hrest : Operands X env own w₁ cdr vs w' last) : Operands X env own w cons (e :: vs) w' last

namespace Operands

theorem mono (h : Operands X env own w cons vs w' last) (hle : ∀ a, own a → own' a) :
    Operands X env own' w cons vs w' last := by
  induction h with
  | nil hown => exact .nil (hown.mono hle)
  | eval hown hcons he hcdr _ ih => exact .eval (hown.mono hle) hcons he hcdr ih
  | self hown hcons he _ ih => exact .self (hown.mono hle) hcons he ih

theorem of_same (h : Operands X env own w₁ cons vs w' last) (hsame : w.SameBut own w₁) :
    Operands X env own w cons vs w' last := by
  cases h with
  | nil hown => exact .nil (hsame.trans hown)
  | eval hown hcons he hcdr hrest => exact .eval (hsame.trans hown) hcons he hcdr hrest
  | self hown hcons he hrest => exact .self (hsame.trans hown) hcons he hrest

/-- Operands that are their own values. -/
theorem of_self (h : Elements w cons vs) (hself : ∀ v ∈ vs, w.SelfEvaluating env v) :
    ∃ last, Operands X env own w cons vs w last ∧ NoPair w last := by
  induction h with
  | nil ho => exact ⟨_, .nil (.refl _ _), ho⟩
  | cons ho _ ih =>
    obtain ⟨last, hrest, hlast⟩ := ih fun v hv => hself v (List.mem_cons_of_mem _ hv)
    exact ⟨last, .self (.refl _ _) ho (hself _ List.mem_cons_self) hrest, hlast⟩

theorem log_le (h : Operands X env own w cons vs w' last) : w.log.length ≤ w'.log.length := by
  induction h with
  | nil hown => exact (congrArg List.length hown.log).ge
  | eval hown _ he _ _ ih =>
    have hlt := log_lt_of_returns he
    rw [hown.log] at hlt
    omega
  | self hown _ _ _ ih =>
    rw [hown.log] at ih
    exact ih

/-- **If nothing has been evaluated, all operands are their own values.** -/
theorem of_log {w₀ : World} (h : Operands X env own w cons vs w' last)
    (hsame : w₀.SameBut own w) (hw : w₀.Closed) (hcons : w₀.Has cons)
    (hown : ∀ a, own a → ¬ w₀.Allocated a) (hlast : NoPair w' last)
    (hle : w'.log.length ≤ w.log.length) :
    Elements w₀ cons vs ∧ ∀ v ∈ vs, w₀.SelfEvaluating env v := by
  induction h with
  | nil hnil =>
    have hload := (hsame.trans hnil).load (avoids_mono hown hcons)
    exact ⟨.nil fun d hd => hlast d (hload.trans hd), nofun⟩
  | eval hnext _ he _ hrest =>
    -- an evaluation is in the log
    have hlt := log_lt_of_returns he
    have hmore := hrest.log_le
    rw [hnext.log] at hlt
    omega
  | self hnext hpair he _ ih =>
    have hsame₁ := hsame.trans hnext
    have hpair₀ := (hsame₁.load (avoids_mono hown hcons)).symm.trans hpair
    have hhas := hw.hides.load hcons hpair₀
    obtain ⟨helems, hself⟩ := ih hsame₁ (hhas _ (by simp [Data.objs])) hlast (by rwa [hnext.log])
    refine ⟨.cons hpair₀ helems, List.forall_mem_cons.mpr ⟨?_, hself⟩⟩
    exact hsame₁.reads (avoids_mono hown (hhas _ (by simp [Data.objs]))) he

end Operands

end NaviScheme
