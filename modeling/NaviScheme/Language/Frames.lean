import NaviScheme.Language.Values
import NaviScheme.Frame.Operands

/-!
# Frames

The scopes of a world are the frames of the language, under the same numbers
(`NaviScheme.World.Lives`). Binding a name in a scope is binding it in the frame, calling a
closure makes the scope that the call's frame is, and what only makes objects leaves all frames
as they are.
-/

namespace NaviScheme

open Prog

variable {B : OtherBuiltins} {w w' : World} {o sym : NaviObj} {v : Value} {S : Addr → Prop}
    {x : String}
  {bs : List NaviBinding} {vars : String → Option Value} {σ : FrameStore}
  {f g : ℕ}

/-- The bindings of a scope are those of a frame. -/
def FrameAt (B : OtherBuiltins) (w : World) (bs : List NaviBinding)
    (vars : String → Option Value) : Prop :=
  ∃ m, Represents w bs m ∧ ∀ x, Option.Rel (ValueAt B w) (m x) (vars x)

theorem FrameAt.nil (w : World) : FrameAt B w [] fun _ => none :=
  ⟨_, .nil w, fun _ => .none⟩

theorem FrameAt.setIn (h : FrameAt B w bs vars) (hw : w.Wf) (hsym : IsSym w sym x)
    (ho : ValueAt B w o v) :
    FrameAt B w (NaviScheme.setIn bs sym o) (Function.update vars x (some v)) := by
  obtain ⟨m, hm, hrel⟩ := h
  refine ⟨_, hm.setIn hw hsym o, fun y => ?_⟩
  by_cases hy : y = x
  · subst hy
    rw [Function.update_self, Function.update_self]
    exact .some ho
  · rw [Function.update_of_ne hy, Function.update_of_ne hy]
    exact hrel y

/-- What a name is bound to. -/
theorem FrameAt.lookupIn_eq (h : FrameAt B w bs vars) (hsym : IsSym w sym x) :
    Option.Rel (ValueAt B w) (lookupIn bs sym) (vars x) := by
  obtain ⟨m, hm, hrel⟩ := h
  rw [hm.lookup_sym hsym]
  exact hrel x

theorem FrameAt.builds (h : FrameAt B w bs vars) (hS : w.Hides S)
    (hbs : ∀ b ∈ bs, b.Avoids S) (hw : w.Builds S w') : FrameAt B w' bs vars := by
  obtain ⟨m, hm, hrel⟩ := h
  refine ⟨m, ⟨fun n => ?_, fun b hb => ?_, hm.nodup⟩, fun y => ?_⟩
  · rw [hm.lookup n, hw.symtab]
  · obtain ⟨n, hn⟩ := hm.named b hb
    exact ⟨n, hw.isSym hn⟩
  · have hlookup := hm.lookup y
    have hvalue := hrel y
    generalize vars y = u at hvalue
    cases hmy : m y with
    | none =>
      rw [hmy] at hvalue
      cases hvalue
      exact .none
    | some o =>
      rw [hmy] at hvalue hlookup
      obtain ⟨a, -, ha⟩ := Option.bind_eq_some_iff.mp hlookup.symm
      obtain ⟨b, hb, rfl⟩ := lookupIn_eq_some ha
      cases hvalue with
      | some ho => exact .some (ho.builds hS (hbs b hb).2 hw)

/-- **The scopes of a world are the frames of the language.** -/
structure World.Lives (B : OtherBuiltins) (w : World) (σ : FrameStore) :
    Prop where
  /-- the world is well-formed -/
  wf : w.Wf
  /-- it is closed -/
  closed : w.Closed
  /-- the names that clauses are told apart by have been interned -/
  keywords : ∀ x ∈ ["else", "=>"], ∃ o, IsSym w o x
  /-- the next scope is the next frame -/
  next : σ.next = w.nextScope
  /-- each frame is a scope, whose bindings are its own -/
  frames : ∀ f fr, σ.frames f = some fr → ∃ bs, w.scopes f = some ⟨fr.parent, bs⟩ ∧
    FrameAt B w bs fr.vars ∧ ∀ g, fr.parent = some g → g < f

namespace World.Lives

theorem lt_nextScope {fr : Lisp.Frame Constant String Builtin} (h : w.Lives B σ)
    (hf : σ.frames f = some fr) : f < w.nextScope := by
  obtain ⟨bs, hbs, -⟩ := h.frames f fr hf
  by_contra hnot
  rw [h.wf.scopes f (not_lt.mp hnot)] at hbs
  cases hbs

/-- **Looking a name up** goes along the scopes to the same frame. -/
theorem envBinding (h : w.Lives B σ) (hx : Lisp.Lookup σ x f g v) (hsym : IsSym w sym x) {n : ℕ}
    (hn : f < n) : ∃ o, w.envBinding sym n f = .ok (some (g, o)) ∧ ValueAt B w o v := by
  induction hx generalizing n with
  | here hf hv =>
    obtain ⟨n, rfl⟩ := Nat.exists_eq_succ_of_ne_zero (Nat.ne_of_gt (Nat.zero_lt_of_lt hn))
    obtain ⟨bs, hbs, hframe, -⟩ := h.frames _ _ hf
    have hlookup := hframe.lookupIn_eq hsym
    rw [World.envBinding, World.loadScope, hbs]
    cases hl : lookupIn bs sym with
    | none =>
      rw [hl, hv] at hlookup
      cases hlookup
    | some o =>
      rw [hl, hv] at hlookup
      cases hlookup with
      | some ho => exact ⟨o, by simp only [ok_bind, hl, pure_eq_ok], ho⟩
  | outer hf hv hg _ ih =>
    obtain ⟨n, rfl⟩ := Nat.exists_eq_succ_of_ne_zero (Nat.ne_of_gt (Nat.zero_lt_of_lt hn))
    obtain ⟨bs, hbs, hframe, hlt⟩ := h.frames _ _ hf
    have hlookup := hframe.lookupIn_eq hsym
    obtain ⟨o, ho, hval⟩ := ih ((hlt _ hg).trans_le (Nat.le_of_lt_succ hn))
    refine ⟨o, ?_, hval⟩
    rw [World.envBinding, World.loadScope, hbs]
    cases hl : lookupIn bs sym with
    | none => simp only [ok_bind, hl, hg, ho]
    | some o =>
      rw [hl, hv] at hlookup
      cases hlookup

/-- What only makes objects, and writes those at addresses that are hidden, leaves the frames as
they are. -/
theorem builds (h : w.Lives B σ) (hS : w.Hides S) (hw : w.Builds S w')
    (hscopes : w'.scopes = w.scopes) (hnext : w'.nextScope = w.nextScope) (hwf : w'.Wf)
    (hclosed : w'.Closed) : w'.Lives B σ where
  wf := hwf
  closed := hclosed
  keywords x hx := (h.keywords x hx).imp fun _ => hw.isSym
  next := h.next.trans hnext.symm
  frames f fr hf := by
    obtain ⟨bs, hbs, hframe, hlt⟩ := h.frames f fr hf
    refine ⟨bs, ?_, hframe.builds hS (hS.scopes f _ hbs) hw, hlt⟩
    rw [hscopes]
    exact hbs

theorem grows (h : w.Lives B σ) (hw : w.Builds nowhere w') (hscopes : w'.scopes = w.scopes)
    (hnext : w'.nextScope = w.nextScope) (hwf : w'.Wf) (hclosed : w'.Closed) : w'.Lives B σ :=
  h.builds w.hides_nowhere hw hscopes hnext hwf hclosed

end World.Lives

/-- A world with a global scope and no other. -/
theorem World.Lives.global (hw : w.Wf) (hclosed : w.Closed)
    (hkeywords : ∀ x ∈ ["else", "=>"], ∃ o, IsSym w o x) (hnext : w.nextScope = 1)
    (hsc : w.scopes 0 = some ⟨none, bs⟩) (hbs : FrameAt B w bs vars) :
    w.Lives B ⟨Function.update (fun _ => none) 0 (some ⟨none, vars⟩), 1⟩ where
  wf := hw
  closed := hclosed
  keywords := hkeywords
  next := hnext.symm
  frames f fr hf := by
    change Function.update (fun _ => none) 0 (some (⟨none, vars⟩ : Lisp.Frame _ _ _)) f =
      some fr at hf
    by_cases heq : f = 0
    · subst heq
      rw [Function.update_self] at hf
      obtain rfl := Option.some.inj hf
      exact ⟨bs, hsc, hbs, nofun⟩
    · rw [Function.update_of_ne heq] at hf
      cases hf

/-! ### Other bindings -/

theorem World.builds_setScope (w : World) (s : ScopeAddr) (sc : WorldScope) :
    w.Builds nowhere (w.setScope s sc) := ⟨fun _ _ _ h => h, rfl, le_rfl⟩

theorem World.builds_newScope (w : World) (next : ScopeAddr) (bs : List NaviBinding) :
    w.Builds nowhere (w.newScope next bs) := ⟨fun _ _ _ h => h, rfl, Nat.le_succ _⟩

theorem FrameAt.grows (h : FrameAt B w bs vars) (hw : w.Builds nowhere w') : FrameAt B w' bs vars :=
  h.builds w.hides_nowhere (fun b _ => ⟨avoids_nowhere b.symbol, avoids_nowhere b.object⟩) hw

/-- **Binding a name in a scope** is binding it in the frame. -/
theorem World.Lives.put {fr : Lisp.Frame Constant String Builtin} {sc : WorldScope}
    (h : w.Lives B σ) (hf : σ.frames f = some fr) (hsc : w.scopes f = some sc)
    (hsym : IsSym w sym x) (ho : ValueAt B w o v)
    (hclosed : (w.setScope f { sc with bindings := setIn sc.bindings sym o }).Closed) :
    (w.setScope f { sc with bindings := setIn sc.bindings sym o }).Lives B
      (σ.put f (fr.set x v)) where
  wf := h.wf.setScope hsc
  closed := hclosed
  keywords := h.keywords
  next := h.next
  frames f' fr' hf' := by
    by_cases heq : f' = f
    · subst heq
      obtain rfl : fr.set x v = fr' := Option.some.inj (Lisp.Store.put_self.symm.trans hf')
      obtain ⟨bs, hbs, hframe, hlt⟩ := h.frames f' fr hf
      obtain rfl := Option.some.inj (hsc.symm.trans hbs)
      exact ⟨_, World.scopes_setScope, (hframe.setIn h.wf hsym ho).grows
        (w.builds_setScope f' _), hlt⟩
    · obtain ⟨bs, hbs, hframe, hlt⟩ :=
        h.frames f' fr' ((Lisp.Store.put_of_ne heq).symm.trans hf')
      exact ⟨bs, (Function.update_of_ne heq _ _).trans hbs, hframe.grows
        (w.builds_setScope f _), hlt⟩

theorem World.Wf.newScope (h : w.Wf) (next : ScopeAddr) (bs : List NaviBinding) :
    (w.newScope next bs).Wf := by
  refine ⟨h.objs, fun s hs => ?_, h.thunks, h.symtab⟩
  have hlt : w.nextScope < s := hs
  exact (Function.update_of_ne hlt.ne' _ _).trans (h.scopes s hlt.le)

/-- **A new scope** is a new frame. -/
theorem World.Lives.push (h : w.Lives B σ) (hg : g < w.nextScope) (hbs : FrameAt B w bs vars)
    (hclosed : (w.newScope g bs).Closed) :
    (w.newScope g bs).Lives B (σ.push ⟨some g, vars⟩) where
  wf := h.wf.newScope g bs
  closed := hclosed
  keywords := h.keywords
  next := congrArg (· + 1) h.next
  frames f fr hf := by
    by_cases heq : f = σ.next
    · subst heq
      obtain rfl := Option.some.inj (Lisp.Store.push_self.symm.trans hf)
      rw [h.next]
      refine ⟨bs, Function.update_self _ _ _, hbs.grows (w.builds_newScope g bs), fun g' hg' => ?_⟩
      obtain rfl := Option.some.inj hg'
      exact hg
    · obtain ⟨bs', hbs', hframe, hlt⟩ :=
        h.frames f fr ((Lisp.Store.push_of_ne heq).symm.trans hf)
      rw [h.next] at heq
      exact ⟨bs', (Function.update_of_ne heq _ _).trans hbs', hframe.grows
        (w.builds_newScope g bs), hlt⟩

end NaviScheme
