import NaviScheme.Eval.Inspect
import NaviScheme.Import.Run
import NaviScheme.Lib.Trace

/-!
# Libraries that cannot be loaded

What an attempt to load a library leaves behind when it ends in an exception.
`do_load_library` collects the exports with `navi_list_append_ip`, which links the lists of
the export declarations to one another in place. So the declarations are as before if and
only if no more than one export came before the declaration that failed
(`NaviScheme.doLoadLibrary_keeps_iff`).
-/

namespace NaviScheme

open Prog

variable {X : Externals} {w w' w₁ w₂ : World} {libEnv : NaviEnv} {cons exports exports' list : NaviObj}
  {e : EvalExn} {lib : ℕ}

/-! ### Symbols stay -/

section Symbols

variable {α : Type}

theorem World.setBindings_inv {s : ScopeAddr} {f : List NaviBinding → List NaviBinding}
    (h : w.setBindings s f = .ok w') : w'.symtab = w.symtab := by
  obtain ⟨sc, -, h⟩ := bind_eq_ok h
  cases h
  rfl

theorem World.symtab_make (w : World) (t : NaviType) (d : Data) : (w.make t d).2.symtab = w.symtab := by
  rw [World.make]
  split <;> rfl

/-- Symbols stay in the symbol table. -/
theorem World.step_symtab {o : EvalOp} {r : o.Reply} (h : World.step o w = .ok (r, w')) {str : String}
    {a : Addr} (ha : w.symtab.lookup str = some a) : w'.symtab.lookup str = some a := by
  have hsame : w'.symtab = w.symtab → w'.symtab.lookup str = some a := fun heq => heq ▸ ha
  cases o with
  | makeSymbol str' =>
    obtain rfl : (w.makeSymbol str').2 = w' := congrArg Prod.snd (Except.ok.inj h)
    cases hs : w.symtab.lookup str' with
    | some b =>
      rw [World.makeSymbol, hs]
      exact ha
    | none =>
      have hne : str ≠ str' := by
        rintro rfl
        rw [hs] at ha
        cases ha
      rw [World.makeSymbol_eq hs]
      exact (World.lookup_addSymbol_of_ne hne).trans ha
  | store o d =>
    cases o with
    | ptr x =>
      obtain ⟨c, -, h⟩ := bind_eq_ok h
      cases h
      exact ha
    | _ => cases h
  | retag o t =>
    cases o with
    | ptr x =>
      obtain ⟨c, -, h⟩ := bind_eq_ok h
      cases h
      exact ha
    | _ => cases h
  | make t d =>
    obtain rfl : (w.make t d).2 = w' := congrArg Prod.snd (Except.ok.inj h)
    exact hsame (w.symtab_make t d)
  | guard o s =>
    cases o <;> cases h <;> exact ha
  | fail φ => cases h
  | load _ | walk _ | envBinding _ _ | globalScope _ | bindings _ =>
    obtain ⟨_, -, h⟩ := map_eq_ok h
    cases h
    exact ha
  | setBinding _ _ _ | scopeSet _ _ _ | scopeUnset _ _ =>
    obtain ⟨_, hw, h⟩ := map_eq_ok h
    cases h
    exact hsame (World.setBindings_inv hw)
  | _ =>
    cases h
    exact ha

/-- A symbol stays the symbol of its name. -/
theorem IsSym.of_evaluates {p : Code α} {r : Res Fault EvalExn World α} {o : NaviObj} {str : String}
    (h : (worldSemantics X).Evaluates p w r) (hr : r.final = some w') (hs : IsSym w o str) :
    IsSym w' o str := by
  obtain ⟨a, rfl, ha⟩ := hs
  let R (w w' : World) : Prop :=
    ∀ a, w.symtab.lookup str = some a → w'.symtab.lookup str = some a
  have hR : R w w' := h.rel (fun _ _ ha => ha) (fun {w₁ w₂ w₃} (h : R w₁ w₂) (h' : R w₂ w₃) a ha =>
    h' a (h a ha)) (fun _ _ _ _ hstep _ ha => World.step_symtab hstep ha) (fun _ _ _ _ h => h) hr
  exact ⟨a, rfl, hR a ha⟩

end Symbols

/-! ### The loop, one declaration after another -/

/-- What the loop of `do_load_library` does with a declaration: the exports after it. -/
def declare (cons exports : NaviObj) (libEnv : NaviEnv) : Code NaviObj := do
  let sym ← naviCaar cons
  let rest ← naviCdar cons
  if sym = (← naviMakeSymbol "export") then naviListAppendIp exports rest
  else if sym = (← naviMakeSymbol "import") then
    callFn (.naviImport rest libEnv) [cons, exports] libEnv.scopes
    return exports
  else if sym = (← naviMakeSymbol "begin") then
    let result ← callFn (.beginLoop rest none libEnv) [cons, exports] libEnv.scopes
    if (← naviType result) = .naviBounce then
      let _ ← naviEval result libEnv [cons, exports] libEnv.scopes
      return exports
    else return exports
  else return exports

theorem loadDeclarationsBody_eq (cons exports : NaviObj) (libEnv : NaviEnv) :
    loadDeclarationsBody cons exports libEnv = (do
      if ← naviIsPair cons then
        let exports ← declare cons exports libEnv
        callFn (.loadDeclarations (← naviCdr cons) exports libEnv) [] []
      else return exports) := by
  let next (exports : NaviObj) : Code NaviObj := do
    callFn (.loadDeclarations (← naviCdr cons) exports libEnv) [] []
  have hnext {α : Type} (p : Code α) :
      (p >>= fun _ => next exports) = (p >>= fun _ => pure exports) >>= next :=
    (Prog.bind_assoc p (fun _ => pure exports) next).symm
  rw [loadDeclarationsBody]
  refine congrArg _ (funext fun b => ?_)
  split
  · refine (congrArg _ (funext fun sym => ?_)).trans (Prog.bind_assoc _ _ _).symm
    refine (congrArg _ (funext fun rest => ?_)).trans (Prog.bind_assoc _ _ _).symm
    refine (congrArg _ (funext fun k => ?_)).trans (Prog.bind_assoc _ _ _).symm
    split
    · rfl
    · refine (congrArg _ (funext fun k => ?_)).trans (Prog.bind_assoc _ _ _).symm
      split
      · exact hnext (callFn (.naviImport rest libEnv) [cons, exports] libEnv.scopes : Code Unit)
      · refine (congrArg _ (funext fun k => ?_)).trans (Prog.bind_assoc _ _ _).symm
        split
        · refine (congrArg _ (funext fun result => ?_)).trans
            (Prog.bind_assoc (callFn (.beginLoop rest none libEnv) _ _) _ _).symm
          refine (congrArg _ (funext fun t => ?_)).trans (Prog.bind_assoc _ _ _).symm
          split
          · exact hnext _
          · rfl
        · rfl
  · rfl

/-! ### What is declared -/

/-- Declarations as `check_library_syntax` accepts them: lists of a symbol and of something
more. -/
def Declared (w : World) (list : NaviObj) : Prop :=
  (∃ k, IsSym w k "export") ∧ ∃ pairs ds, Spine w list pairs ds ∧
    ∀ d ∈ ds, ∃ sym rest x ps xs, IsPair w d sym rest ∧ Spine w rest ps (x :: xs)

/-- The pairs of the list of declarations, and of the declarations. -/
inductive DeclCell (w : World) (list : NaviObj) : NaviObj → Prop
  | outer {pairs ds : List NaviObj} {c : NaviObj} :
    Spine w list pairs ds → c ∈ pairs → DeclCell w list c
  | inner {pairs ds ps xs : List NaviObj} {d c : NaviObj} :
    Spine w list pairs ds → d ∈ ds → Spine w d ps xs → c ∈ ps → DeclCell w list c

/-- Between two worlds, the record of a library and its declarations stay as they are. -/
structure Keeps (w : World) (lib : ℕ) (list : NaviObj) (w₁ w₂ : World) : Prop where
  /-- the record -/
  record : w₂.libraries.find? (fun l => l.id = lib) = w₁.libraries.find? fun l => l.id = lib
  /-- the declarations -/
  cells : ∀ c, DeclCell w list c → w₂.load c = w₁.load c

/-- The first pair of a list has an export declaration. -/
def ExportDecl (w : World) (cons : NaviObj) : Prop :=
  ∃ decl next sym rest, IsPair w cons decl next ∧ IsPair w decl sym rest ∧ IsSym w sym "export"

/-- A declaration that the loop carries out. -/
structure DeclStep where
  /-- whether it is an export -/
  exported : Bool
  /-- the world before -/
  before : World
  /-- the world after -/
  after : World

/-- The loop of `do_load_library` comes to an exception, one declaration after another. -/
inductive Attempt (X : Externals) (libEnv : NaviEnv) (e : EvalExn) (w' : World) :
    NaviObj → NaviObj → World → List DeclStep → Prop
  /-- A declaration fails. -/
  | fails {cons exports : NaviObj} {w : World} :
    (worldSemantics X).Evaluates (declare cons exports libEnv) w (.exn e w') →
    Attempt X libEnv e w' cons exports w [⟨false, w, w'⟩]
  /-- A declaration is carried out. -/
  | step {cons exports next exports' : NaviObj} {w w₁ : World} {steps : List DeclStep} (b : Bool) :
    (b = true ↔ ExportDecl w cons) →
    (worldSemantics X).Evaluates (declare cons exports libEnv) w (.ok exports' w₁) →
    Computes (naviCdr cons : Code NaviObj) w₁ next w₁ →
    Attempt X libEnv e w' next exports' w₁ steps →
    Attempt X libEnv e w' cons exports w (⟨b, w, w₁⟩ :: steps)

/-- A run of the loop that ends in an exception. -/
theorem exists_attempt {n : ℕ}
    (h : (worldSemantics X).runFn n (.loadDeclarations cons exports libEnv) w = .exn e w') :
    ∃ steps, Attempt X libEnv e w' cons exports w steps := by
  induction n generalizing cons exports w with
  | zero => cases h
  | succ n ih =>
    rw [Semantics.runFn_succ] at h
    change (worldSemantics X).run n (loadDeclarationsBody cons exports libEnv) w = _ at h
    rw [loadDeclarationsBody_eq] at h
    obtain ⟨b, -, h⟩ := (inspects_naviIsPair cons).run_of_bind h nofun
    cases b with
    | false =>
      rw [if_neg (by simp)] at h
      cases h
    | true =>
      rw [if_pos rfl] at h
      obtain ⟨exports', w₁, hd, h⟩ | ⟨e₁, w₁, hd, heq⟩ | ⟨φ, -, heq⟩ :=
        Semantics.run_bind_inv h nofun
      · obtain ⟨next, hnext, h⟩ := (inspects_naviCdr cons).run_of_bind h nofun
        have hcall := (runWith_callFn _ _ _).symm.trans h
        rw [worldSemantics_calls] at hcall
        obtain ⟨steps, hsteps⟩ := ih hcall
        by_cases hx : ExportDecl w cons
        · exact ⟨_, .step true (iff_of_true rfl hx) ⟨nofun, n, hd⟩ hnext hsteps⟩
        · exact ⟨_, .step false (iff_of_false (by simp) hx) ⟨nofun, n, hd⟩ hnext hsteps⟩
      · cases heq
        exact ⟨_, .fails ⟨nofun, n, hd⟩⟩
      · cases heq

/-! ### Exports -/

/-- `navi_list_append_ip`: it links the last pair of the first list to the second. -/
theorem naviListAppendIp_inv {a b c : NaviObj}
    (h : (worldSemantics X).Evaluates (naviListAppendIp a b : Code NaviObj) w (.ok c w')) :
    (a = .nil ∧ c = b ∧ w' = w) ∨ (b = .nil ∧ c = a ∧ w' = w) ∨
      (a ≠ .nil ∧ b ≠ .nil ∧ c = a ∧ ∃ n pairs last x car, w.walk n a = .ok (pairs, last) ∧
        pairs.getLast? = some (.ptr x) ∧ w.load (.ptr x) = .ok (.naviPair, .pair car (some last)) ∧
        w' = w.setObj x (.naviPair, .pair car (some b))) := by
  rw [naviListAppendIp] at h
  by_cases ha : a = .nil
  · rw [if_pos ha] at h
    cases h.unique Semantics.Evaluates.ret
    exact .inl ⟨ha, rfl, rfl⟩
  rw [if_neg ha] at h
  by_cases hb : b = .nil
  · rw [if_pos hb] at h
    cases h.unique Semantics.Evaluates.ret
    exact .inr (.inl ⟨hb, rfl, rfl⟩)
  rw [if_neg hb] at h
  obtain ⟨q, hq, h⟩ := (inspects_naviLastCons a).of_bind h nofun
  obtain ⟨n, pairs, last, hwalk, hlast⟩ := naviLastCons_inv hq
  obtain ⟨car, hload⟩ := World.walk_getLast hwalk hlast
  cases q with
  | ptr x =>
    have hset := (computes_naviSetCdr (F := evalFns) b hload).of_bind h
    cases hset.unique Semantics.Evaluates.ret
    exact .inr (.inr ⟨ha, hb, rfl, n, pairs, last, x, car, hwalk, hlast, hload, rfl⟩)
  | _ => cases hload

/-- What the loop does with an export. -/
theorem declare_export_inv {decl next sym rest : NaviObj} (hcons : IsPair w cons decl next)
    (hdecl : IsPair w decl sym rest) (hsym : IsSym w sym "export")
    (h : (worldSemantics X).Evaluates (declare cons exports libEnv) w (.ok exports' w₁)) :
    (worldSemantics X).Evaluates (naviListAppendIp exports rest : Code NaviObj) w
      (.ok exports' w₁) := by
  have h₁ := ((computes_naviCar hcons).bind (computes_naviCar (F := evalFns) hdecl)).of_bind h
  have h₂ := ((computes_naviCar hcons).bind (computes_naviCdr (F := evalFns) hdecl)).of_bind h₁
  have h₃ := (computes_naviMakeSymbol (F := evalFns) hsym).of_bind h₂
  rwa [if_pos rfl] at h₃

/-- The loop has the same exports after another declaration. -/
theorem declare_other_inv {decl next sym rest k : NaviObj} (hcons : IsPair w cons decl next)
    (hdecl : IsPair w decl sym rest) (hk : IsSym w k "export") (hx : ¬ ExportDecl w cons)
    (h : (worldSemantics X).Evaluates (declare cons exports libEnv) w (.ok exports' w₁)) :
    exports' = exports := by
  have hret : ∀ {w w₁ : World}, (worldSemantics X).Evaluates (pure exports : Code NaviObj) w
      (.ok exports' w₁) → exports' = exports := by
    intro w w₁ h
    cases h.unique Semantics.Evaluates.ret
    rfl
  have h₁ := ((computes_naviCar hcons).bind (computes_naviCar (F := evalFns) hdecl)).of_bind h
  have h₂ := ((computes_naviCar hcons).bind (computes_naviCdr (F := evalFns) hdecl)).of_bind h₁
  have h₃ := (computes_naviMakeSymbol (F := evalFns) hk).of_bind h₂
  have hne : sym ≠ k := fun heq => hx ⟨decl, next, sym, rest, hcons, hdecl, heq ▸ hk⟩
  rw [if_neg hne] at h₃
  obtain ⟨k₁, w₂, -, h₄⟩ := h₃.bind_ok_inv
  split at h₄
  · obtain ⟨_, _, -, h₅⟩ := h₄.bind_ok_inv
    exact hret h₅
  obtain ⟨k₂, w₃, -, h₅⟩ := h₄.bind_ok_inv
  split at h₅
  · obtain ⟨result, w₄, -, h₆⟩ := h₅.bind_ok_inv
    obtain ⟨ty, -, h₇⟩ := (inspects_naviType _).of_bind h₆ nofun
    split at h₇
    · obtain ⟨_, _, -, h₈⟩ := h₇.bind_ok_inv
      exact hret h₈
    · exact hret h₇
  · exact hret h₅

/-! ### The declarations through the loop -/

namespace Keeps

theorem refl (w w₁ : World) : Keeps w lib list w₁ w₁ := ⟨rfl, fun _ _ => rfl⟩

theorem trans (h : Keeps w lib list w' w₁) (h' : Keeps w lib list w₁ w₂) :
    Keeps w lib list w' w₂ :=
  ⟨h'.record.trans h.record, fun c hc => (h'.cells c hc).trans (h.cells c hc)⟩

end Keeps

/-- A declaration, with its pairs. -/
def DeclAt (w : World) (list d : NaviObj) : Prop :=
  DeclCell w list d ∧ ∃ sym rest x ps xs, IsPair w d sym rest ∧ Spine w rest ps (x :: xs) ∧
    ∀ p ∈ ps, DeclCell w list p

/-- The declarations from a pair on. -/
def DeclsFrom (w : World) (list cons : NaviObj) : Prop :=
  ∃ pairs ds, Spine w cons pairs ds ∧ (∀ c ∈ pairs, DeclCell w list c) ∧ ∀ d ∈ ds, DeclAt w list d

theorem Declared.declsFrom (h : Declared w list) : DeclsFrom w list list := by
  obtain ⟨-, pairs, ds, hs, hds⟩ := h
  refine ⟨pairs, ds, hs, fun c hc => .outer hs hc, fun d hd => ?_⟩
  obtain ⟨sym, rest, x, ps, xs, hdecl, hrest⟩ := hds d hd
  exact ⟨.inner hs hd (.cons hdecl hrest) List.mem_cons_self, sym, rest, x, ps, xs, hdecl, hrest,
    fun p hp => .inner hs hd (.cons hdecl hrest) (List.mem_cons_of_mem _ hp)⟩

theorem DeclsFrom.next {d next : NaviObj} (h : DeclsFrom w list cons) (hcons : IsPair w cons d next) :
    DeclCell w list cons ∧ DeclAt w list d ∧ DeclsFrom w list next := by
  obtain ⟨pairs, ds, hs, hpairs, hds⟩ := h
  cases hs with
  | nil => cases hcons
  | cons hp ht =>
    obtain ⟨rfl, rfl⟩ := hp.unique hcons
    exact ⟨hpairs _ List.mem_cons_self, hds _ List.mem_cons_self, _, _, ht,
      fun c hc => hpairs c (List.mem_cons_of_mem _ hc), fun d hd => hds d (List.mem_cons_of_mem _ hd)⟩

theorem DeclsFrom.uncons {t : NaviType} {car cdr : Option NaviObj} (h : DeclsFrom w list cons)
    (hload : w₁.load cons = .ok (t, .pair car cdr)) : ∃ d next, IsPair w cons d next := by
  obtain ⟨pairs, ds, hs, -⟩ := h
  cases hs with
  | nil => cases hload
  | cons hp ht => exact ⟨_, _, hp⟩

theorem DeclCell.isPair {c : NaviObj} (h : DeclCell w list c) : ∃ car cdr, IsPair w c car cdr := by
  cases h with
  | outer hs hc => exact hs.isPair_of_mem hc
  | inner _ _ hps hc => exact hps.isPair_of_mem hc

/-- An export list that ended in a pair goes on behind it. -/
structure Linked (w : World) (list : NaviObj) (w₁ : World) : Prop where
  /-- the pairs of the declarations are pairs -/
  pairs : ∀ c, DeclCell w list c → ∃ car cdr, w₁.load c = .ok (.naviPair, .pair car cdr)
  /-- the pair, and what is behind it -/
  linked : ∃ p car b, DeclCell w list p ∧ DeclCell w list b ∧
    w.load p = .ok (.naviPair, .pair car (some .nil)) ∧
    w₁.load p = .ok (.naviPair, .pair car (some b))

namespace Linked

theorem not_keeps (h : Linked w list w₁) : ¬ Keeps w lib list w w₁ := by
  intro hk
  obtain ⟨p, car, b, hp, hb, hw, hw₁⟩ := h.linked
  rw [hk.cells p hp, hw] at hw₁
  obtain rfl : NaviObj.nil = b := by simpa using hw₁
  obtain ⟨_, _, hnil⟩ := hb.isPair
  cases hnil

theorem of_keeps (h : Linked w list w₁) (hk : Keeps w lib list w₁ w₂) : Linked w list w₂ := by
  obtain ⟨p, car, b, hp, hb, hw, hw₁⟩ := h.linked
  refine ⟨fun c hc => ?_, p, car, b, hp, hb, hw, (hk.cells p hp).trans hw₁⟩
  rw [hk.cells c hc]
  exact h.pairs c hc

/-- Another link does not undo it: it is made where a list ends. -/
theorem setObj (h : Linked w list w₁) {x : Addr} {car : Option NaviObj} {last b : NaviObj}
    (hx : w₁.load (.ptr x) = .ok (.naviPair, .pair car (some last)))
    (hlast : ∀ d, w₁.load last ≠ .ok (.naviPair, d)) :
    Linked w list (w₁.setObj x (.naviPair, .pair car (some b))) := by
  obtain ⟨p, car', b', hp, hb, hw, hw₁⟩ := h.linked
  refine ⟨fun c hc => ?_, p, car', b', hp, hb, hw, ?_⟩
  · obtain ⟨car₁, cdr₁, hc₁⟩ := h.pairs c hc
    cases c with
    | ptr y =>
      rw [World.load_setObj]
      split
      · exact ⟨_, _, rfl⟩
      · exact ⟨_, _, hc₁⟩
    | _ => cases hc₁
  · cases p with
    | ptr y =>
      rw [World.load_setObj, if_neg, hw₁]
      rintro rfl
      have heq := hx.symm.trans hw₁
      obtain ⟨-, rfl⟩ : car = car' ∧ last = b' := by simpa using heq
      obtain ⟨_, _, hpair⟩ := h.pairs _ hb
      exact hlast _ hpair
    | _ => cases hw₁

end Linked

/-- Once two lists are linked, they stay so. -/
theorem Attempt.linked {steps : List DeclStep} (h : Attempt X libEnv e w' cons exports w₁ steps)
    (hkeep : ∀ s ∈ steps, s.exported = false → Keeps w lib list s.before s.after)
    (hl : Linked w list w₁) : Linked w list w' := by
  induction h with
  | fails _ => exact hl.of_keeps (hkeep _ List.mem_cons_self rfl)
  | @step cons exports next exports' w₁ w₂ steps b hb hdecl _ _ ih =>
    refine ih (fun s hs => hkeep s (List.mem_cons_of_mem _ hs)) ?_
    cases b with
    | false => exact hl.of_keeps (hkeep _ List.mem_cons_self rfl)
    | true =>
      obtain ⟨decl, next', sym, rest, hcons, hd, hsym⟩ := hb.1 rfl
      obtain ⟨-, -, rfl⟩ | ⟨-, -, rfl⟩ | ⟨-, -, -, n, pairs, last, x, car, hwalk, -, hload, rfl⟩ :=
        naviListAppendIp_inv (declare_export_inv hcons hd hsym hdecl)
      · exact hl
      · exact hl
      · exact hl.setObj hload (World.walk_last hwalk)

/-! ### How many exports there were -/

theorem IsPair.of_keeps {o car cdr : NaviObj} (h : IsPair w o car cdr) (hk : Keeps w lib list w w₁)
    (hc : DeclCell w list o) : IsPair w₁ o car cdr := (hk.cells o hc).trans h

theorem Spine.of_keeps {o : NaviObj} {ps xs : List NaviObj} (h : Spine w o ps xs)
    (hk : Keeps w lib list w w₁) (hc : ∀ p ∈ ps, DeclCell w list p) : Spine w₁ o ps xs :=
  h.of_isPair fun p hp _ _ hpair => hpair.of_keeps hk (hc p hp)

theorem Spine.ne_nil {o x : NaviObj} {ps xs : List NaviObj} (h : Spine w o ps (x :: xs)) :
    o ≠ .nil := by
  rintro rfl
  cases h with
  | cons hp ht => cases hp

theorem DeclCell.of_head {o x : NaviObj} {ps xs : List NaviObj} (h : Spine w o ps (x :: xs))
    (hc : ∀ p ∈ ps, DeclCell w list p) : DeclCell w list o := by
  cases h with
  | cons hp ht => exact hc _ List.mem_cons_self

/-- The first link. -/
theorem Linked.of_keeps_setObj {rest x y : NaviObj} {ps ps' xs ys pairs : List NaviObj} {z : Addr}
    {car : Option NaviObj} {n : ℕ} {last : NaviObj} (hk : Keeps w lib list w w₁)
    (hexports : Spine w exports ps (x :: xs)) (hps : ∀ p ∈ ps, DeclCell w list p)
    (hrest : Spine w rest ps' (y :: ys)) (hps' : ∀ p ∈ ps', DeclCell w list p)
    (hwalk : w₁.walk n exports = .ok (pairs, last)) (hlast : pairs.getLast? = some (.ptr z))
    (hload : w₁.load (.ptr z) = .ok (.naviPair, .pair car (some last))) :
    Linked w list (w₁.setObj z (.naviPair, .pair car (some rest))) := by
  obtain ⟨rfl, rfl⟩ := (hexports.of_keeps hk hps).walk_inv hwalk
  have hz : DeclCell w list (.ptr z) := hps _ (List.mem_of_getLast? hlast)
  refine ⟨fun c hc => ?_, .ptr z, car, rest, hz, .of_head hrest hps', ?_, ?_⟩
  · obtain ⟨car₁, cdr₁, hc₁⟩ := hc.isPair
    obtain ⟨b, rfl, -⟩ := hc₁.ptr
    rw [World.load_setObj]
    split
    · exact ⟨_, _, rfl⟩
    · exact ⟨_, _, hc₁.of_keeps hk hc⟩
  · rw [← hk.cells _ hz, hload]
  · rw [World.load_setObj, if_pos rfl]

/-- Behind an export, the declarations stay as they are if no other export comes. -/
theorem Attempt.keeps_iff_of_exports {steps : List DeclStep} {x : NaviObj} {ps xs : List NaviObj}
    (h : Attempt X libEnv e w' cons exports w₁ steps)
    (hkeep : ∀ s ∈ steps, s.exported = false → Keeps w lib list s.before s.after)
    (hsym : ∃ k, IsSym w₁ k "export") (hcons : DeclsFrom w list cons)
    (hexports : Spine w exports ps (x :: xs)) (hps : ∀ p ∈ ps, DeclCell w list p)
    (hk : Keeps w lib list w w₁) :
    Keeps w lib list w w' ↔ steps.countP DeclStep.exported = 0 := by
  induction h with
  | fails _ => exact iff_of_true (hk.trans (hkeep _ List.mem_cons_self rfl)) rfl
  | @step cons exports next exports' w₁ w₂ steps b hb hdecl hnext htail ih =>
    obtain ⟨k, hk₁⟩ := hsym
    obtain ⟨_, _, hload⟩ := naviCdr_inv hnext
    obtain ⟨d, next₀, hpair⟩ := hcons.uncons hload
    obtain ⟨hcell, ⟨hdcell, sym, rest, y, ps', ys, hd, hrest, hps'⟩, hfrom⟩ := hcons.next hpair
    have hpair₁ := hpair.of_keeps hk hcell
    have hd₁ := hd.of_keeps hk hdcell
    have hkeep' : ∀ s ∈ steps, s.exported = false → Keeps w lib list s.before s.after :=
      fun s hs => hkeep s (List.mem_cons_of_mem _ hs)
    cases b with
    | false =>
      have hk₂ : Keeps w lib list w w₂ := hk.trans (hkeep _ List.mem_cons_self rfl)
      obtain rfl := (hnext.unique (computes_naviCdr (hpair.of_keeps hk₂ hcell))).1
      obtain rfl := declare_other_inv hpair₁ hd₁ hk₁ (by simpa using hb) hdecl
      exact ih hkeep' ⟨k, hk₁.of_evaluates hdecl rfl⟩ hfrom hexports hk₂
    | true =>
      -- the last pair of the exports, which ended the list, now has another list behind it
      refine iff_of_false (Linked.not_keeps (htail.linked hkeep' ?_)) (by simp)
      obtain ⟨_, _, _, _, hpair', hd', hsym'⟩ := hb.1 rfl
      obtain ⟨rfl, rfl⟩ := hpair'.unique hpair₁
      obtain ⟨rfl, rfl⟩ := hd'.unique hd₁
      obtain ⟨hnil, -⟩ | ⟨hnil, -⟩ | ⟨-, -, -, n, pairs, last, z, car, hwalk, hlast, hl, rfl⟩ :=
        naviListAppendIp_inv (declare_export_inv hpair₁ hd₁ hsym' hdecl)
      · exact absurd hnil hexports.ne_nil
      · exact absurd hnil hrest.ne_nil
      · exact .of_keeps_setObj hk hexports hps hrest hps' hwalk hlast hl

/-- **The declarations stay as they are if and only if there is no more than one export.** -/
theorem Attempt.keeps_iff {steps : List DeclStep}
    (h : Attempt X libEnv e w' cons .nil w₁ steps)
    (hkeep : ∀ s ∈ steps, s.exported = false → Keeps w lib list s.before s.after)
    (hsym : ∃ k, IsSym w₁ k "export") (hcons : DeclsFrom w list cons)
    (hk : Keeps w lib list w w₁) :
    Keeps w lib list w w' ↔ steps.countP DeclStep.exported ≤ 1 := by
  generalize hnil : NaviObj.nil = exports at h
  induction h with
  | fails _ => exact iff_of_true (hk.trans (hkeep _ List.mem_cons_self rfl)) (Nat.zero_le _)
  | @step cons exports next exports' w₁ w₂ steps b hb hdecl hnext htail ih =>
    subst hnil
    obtain ⟨k, hk₁⟩ := hsym
    obtain ⟨_, _, hload⟩ := naviCdr_inv hnext
    obtain ⟨d, next₀, hpair⟩ := hcons.uncons hload
    obtain ⟨hcell, ⟨hdcell, sym, rest, y, ps, ys, hd, hrest, hps⟩, hfrom⟩ := hcons.next hpair
    have hpair₁ := hpair.of_keeps hk hcell
    have hd₁ := hd.of_keeps hk hdcell
    have hkeep' : ∀ s ∈ steps, s.exported = false → Keeps w lib list s.before s.after :=
      fun s hs => hkeep s (List.mem_cons_of_mem _ hs)
    cases b with
    | false =>
      have hk₂ : Keeps w lib list w w₂ := hk.trans (hkeep _ List.mem_cons_self rfl)
      obtain rfl := (hnext.unique (computes_naviCdr (hpair.of_keeps hk₂ hcell))).1
      exact ih hkeep' ⟨k, hk₁.of_evaluates hdecl rfl⟩ hfrom hk₂
        (declare_other_inv hpair₁ hd₁ hk₁ (by simpa using hb) hdecl).symm
    | true =>
      obtain ⟨_, _, _, _, hpair', hd', hsym'⟩ := hb.1 rfl
      obtain ⟨rfl, rfl⟩ := hpair'.unique hpair₁
      obtain ⟨rfl, rfl⟩ := hd'.unique hd₁
      obtain ⟨-, rfl, rfl⟩ | ⟨hnil, -⟩ | ⟨hnil, -⟩ :=
        naviListAppendIp_inv (declare_export_inv hpair₁ hd₁ hsym' hdecl)
      · obtain rfl := (hnext.unique (computes_naviCdr hpair₁)).1
        rw [htail.keeps_iff_of_exports hkeep' ⟨k, hk₁⟩ hfrom hrest hps hk]
        simp
      · exact absurd hnil hrest.ne_nil
      · exact absurd rfl hnil

/-- An attempt to load a library that ends in an exception. -/
def LoadAttempt (X : Externals) (lib : ℕ) (env : NaviEnv) (e : EvalExn) (w w' : World)
    (steps : List DeclStep) : Prop :=
  ∃ l libEnv w₁, w.libraries.find? (fun l => l.id = lib) = some l ∧
    Computes (newLexicalEnvironment env : Code NaviEnv) w libEnv w₁ ∧
    Attempt X libEnv e w' l.list .nil w₁ steps

/-- **The record of a library and its declarations are the same after an attempt to load it
that fails, if and only if no more than one export came before the declaration that failed**,
unless the code of the library changes them. -/
theorem doLoadLibrary_keeps_iff {l : NaviLibrary} {env : NaviEnv}
    (hl : w.libraries.find? (fun l => l.id = lib) = some l) (hd : Declared w l.list)
    (h : (worldSemantics X).Returns (.doLoadLibrary lib env) w (.exn e w')) :
    ∃ steps, LoadAttempt X lib env e w w' steps ∧
      ((∀ s ∈ steps, s.exported = false → Keeps w lib l.list s.before s.after) →
        (Keeps w lib l.list w w' ↔ steps.countP DeclStep.exported ≤ 1)) := by
  have hget : Computes (getLibrary lib : Code NaviLibrary) w l w := by
    refine (Computes.perform (o := .libraries) rfl).bind ?_
    rw [hl]
    exact Computes.ret l
  have hnew : Computes (newLexicalEnvironment env : Code NaviEnv) w ⟨w.nextScope, env.dynamic⟩
      (w.addScope none) := computes_newLexicalEnvironment
  have h₁ := hnew.of_bind (hget.of_bind h)
  obtain ⟨exports, w₁, -, h₂⟩ | ⟨e', w₁, h₂, heq⟩ | ⟨φ, -, heq⟩ := h₁.bind_inv
  · cases h₂.unique (Semantics.Evaluates.perform rfl)
  · cases heq
    obtain ⟨-, n, hn⟩ := h₂
    have hcall := (runWith_callFn _ _ _).symm.trans hn
    rw [worldSemantics_calls] at hcall
    obtain ⟨steps, hsteps⟩ := exists_attempt hcall
    refine ⟨steps, ⟨l, _, _, hl, hnew, hsteps⟩, fun hkeep => ?_⟩
    exact hsteps.keeps_iff hkeep hd.1 hd.declsFrom ⟨rfl, fun _ _ => rfl⟩
  · cases heq

/-! ### Two exports before a library that is not there -/

/-- `(define-library (foo) (export a) (export b) (import (bar)))`, below the handler
`(lambda (e) (k e))`. -/
def attemptWorld : World :=
  let o (n : ℕ) : NaviObj := .ptr (.obj n)
  let pair (car cdr : NaviObj) : NaviType × Data := (.naviPair, .pair (some car) (some cdr))
  let sym (str : String) : NaviType × Data := (.naviSymbol, .symbol str true)
  .ofCells
    [sym "export", sym "import", sym "a", sym "b", sym "foo", sym "bar",
      sym "#current-exception-handler", sym "#lib-search-paths", sym "e", sym "k",
      -- (foo)
      pair (o 4) .nil,
      -- (export a), (export b) and (import (bar))
      pair (o 2) .nil, pair (o 0) (o 11), pair (o 3) .nil, pair (o 0) (o 13),
      pair (o 5) .nil, pair (o 15) .nil, pair (o 1) (o 16),
      -- the list of them
      pair (o 17) .nil, pair (o 14) (o 18), pair (o 12) (o 19),
      -- the handler, and the escape k
      pair (o 8) .nil, pair (o 9) (o 21), pair (o 22) .nil,
      (.naviProcedure, .proc ⟨false, 1, o 8, 0, o 21, .body (o 23), none⟩),
      (.naviEscape, .escape (some ⟨0, 1⟩) none)]
    [("export", 0), ("import", 1), ("a", 2), ("b", 3), ("foo", 4), ("bar", 5),
      ("#current-exception-handler", 6), ("#lib-search-paths", 7), ("e", 8), ("k", 9)]
    [⟨none, [⟨o 9, o 25⟩]⟩, ⟨none, [⟨o 6, o 24⟩, ⟨o 7, .nil⟩]⟩]
    [⟨0, false, o 10, o 20, none⟩]

/-- What the attempt to load the library comes to. -/
def attemptRun : Res Fault EvalExn World Unit :=
  (worldSemantics noExternals).runFn 30 (.doLoadLibrary 0 ⟨0, 1⟩) attemptWorld

/-- The list of the first export declaration goes on with the one of the second. -/
theorem attemptRun_eq : ∃ w', attemptRun = .exn (.escape (.ptr (.obj 25))) w' ∧
    w'.objs (.obj 11) = some (.naviPair, .pair (some (.ptr (.obj 2))) (some (.ptr (.obj 13)))) := by
  have hexn : attemptRun.exn? = some (.escape (.ptr (.obj 25))) := by decide +kernel
  have hfinal : attemptRun.final.map (·.objs (.obj 11)) =
      some (some (.naviPair, .pair (some (.ptr (.obj 2))) (some (.ptr (.obj 13))))) := by
    decide +kernel
  obtain ⟨w', hrun⟩ := Res.exn?_eq_some.mp hexn
  rw [hrun, Res.final_exn, Option.map_some] at hfinal
  exact ⟨w', hrun, Option.some.inj hfinal⟩

theorem returns_attempt : ∃ w', (worldSemantics noExternals).Returns (.doLoadLibrary 0 ⟨0, 1⟩)
    attemptWorld (.exn (.escape (.ptr (.obj 25))) w') ∧
    w'.objs (.obj 11) = some (.naviPair, .pair (some (.ptr (.obj 2))) (some (.ptr (.obj 13)))) := by
  obtain ⟨w', hrun, hobj⟩ := attemptRun_eq
  exact ⟨w', ⟨nofun, 29, (Semantics.runFn_succ _ _ _ _).symm.trans hrun⟩, hobj⟩

theorem attemptWorld_spine : Spine attemptWorld (.ptr (.obj 20))
    [.ptr (.obj 20), .ptr (.obj 19), .ptr (.obj 18)]
    [.ptr (.obj 12), .ptr (.obj 14), .ptr (.obj 17)] := .cons rfl (.cons rfl (.cons rfl .nil))

theorem attemptWorld_declared : Declared attemptWorld (.ptr (.obj 20)) := by
  refine ⟨⟨_, _, rfl, rfl⟩, _, _, attemptWorld_spine, fun d hd => ?_⟩
  simp only [List.mem_cons, List.not_mem_nil, or_false] at hd
  obtain rfl | rfl | rfl := hd
  · exact ⟨_, .ptr (.obj 11), _, _, _, rfl, .cons rfl .nil⟩
  · exact ⟨_, .ptr (.obj 13), _, _, _, rfl, .cons rfl .nil⟩
  · exact ⟨_, .ptr (.obj 16), _, _, _, rfl, .cons rfl .nil⟩

theorem doLoadLibrary_keeps_iff_attempt :
    ∃ e w' steps, LoadAttempt noExternals 0 ⟨0, 1⟩ e attemptWorld w' steps ∧
      ((∀ s ∈ steps, s.exported = false →
          Keeps attemptWorld 0 (.ptr (.obj 20)) s.before s.after) →
        (Keeps attemptWorld 0 (.ptr (.obj 20)) attemptWorld w' ↔
          steps.countP DeclStep.exported ≤ 1)) := by
  obtain ⟨w', hret, -⟩ := returns_attempt
  exact ⟨_, w', doLoadLibrary_keeps_iff (l := ⟨0, false, .ptr (.obj 10), .ptr (.obj 20), none⟩) rfl
    attemptWorld_declared hret⟩

/-- **The first list of exports is longer than before** when the import fails. -/
theorem not_doLoadLibrary_keeps :
    ∃ e w', (worldSemantics noExternals).Returns (.doLoadLibrary 0 ⟨0, 1⟩) attemptWorld (.exn e w') ∧
      ¬ Keeps attemptWorld 0 (.ptr (.obj 20)) attemptWorld w' := by
  obtain ⟨w', hret, hobj⟩ := returns_attempt
  refine ⟨_, w', hret, fun hk => ?_⟩
  have hcell : DeclCell attemptWorld (.ptr (.obj 20)) (.ptr (.obj 11)) :=
    .inner (d := .ptr (.obj 12)) attemptWorld_spine List.mem_cons_self
      (.cons (o := .ptr (.obj 12)) rfl (.cons (o := .ptr (.obj 11)) rfl .nil))
      (List.mem_cons_of_mem _ List.mem_cons_self)
  have hload := hk.cells _ hcell
  rw [World.load, hobj] at hload
  exact absurd hload (by decide)

end NaviScheme
