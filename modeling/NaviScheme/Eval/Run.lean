import NaviScheme.Eval.Control
import Mathlib.Data.List.Nodup
import Mathlib.Data.List.Perm.Subperm

/-!
# Runs in a world

What the functions of the evaluator come to when memory is never given back
(`NaviScheme.worldSemantics`).

The parts of a function that only perform operations are run on their own: `Computes p w a w'`
says that `p` returns `a` and leaves `w'`, whatever the calls of other functions come to.
Accessors yield what is stored; a proper list is read through its pairs
(`NaviScheme.Spine`), and has fewer of them than there are objects.
-/

namespace NaviScheme

open Prog

variable {α β : Type} {F : FnSig} {w w' w'' : World}

/-- The evaluator, in a world. -/
def worldSemantics (X : Externals) : Prog.Semantics evalOps evalFns World Fault :=
  ⟨World.step, fun _ _ w => w, fun _ w => w, evalBody X⟩

theorem worldSemantics_calls {X : Externals} {n : ℕ} (f : EvalFn) (held : Locals) (w : World) :
    (worldSemantics X).calls n f held w = (worldSemantics X).runFn n f w := by
  change Res.mapState (fun w => w) ((worldSemantics X).runFn n f w) = _
  cases (worldSemantics X).runFn n f w <;> rfl

/-- The run of a call. -/
theorem run_callFn {X : Externals} {f : EvalFn} {objs : List NaviObj} {scopes : List ScopeAddr}
    (n : ℕ) (w : World) :
    (worldSemantics X).run n (callFn f objs scopes) w = (worldSemantics X).runFn n f w := by
  rw [NaviScheme.callFn, Semantics.run, runWith_callFn, worldSemantics_calls]

/-- What a call comes to. -/
theorem evaluates_callFn {X : Externals} {f : EvalFn} {objs : List NaviObj}
    {scopes : List ScopeAddr} {r : Res Fault EvalExn World f.Ret} :
    (worldSemantics X).Evaluates (callFn f objs scopes) w r ↔ (worldSemantics X).Returns f w r := by
  constructor
  · rintro ⟨hr, n, hn⟩
    rw [run_callFn] at hn
    cases n with
    | zero => exact absurd hn.symm hr
    | succ n => exact ⟨hr, n, hn⟩
  · rintro ⟨hr, n, hn⟩
    exact ⟨hr, n + 1, (run_callFn _ _).trans hn⟩

/-- A program returns a value without calling a function. -/
def Computes (p : Prog evalOps F α) (w : World) (a : α) (w' : World) : Prop :=
  ∀ calls, runWith World.step calls p w = .ok a w'

namespace Computes

variable {p : Prog evalOps F α} {g : α → Prog evalOps F β} {a a' : α} {b : β}

theorem ret (a : α) : Computes (.ret a : Prog evalOps F α) w a w := fun _ => rfl

theorem bind (h : Computes p w a w') (hg : Computes (g a) w' b w'') : Computes (p >>= g) w b w'' := by
  intro calls
  rw [runWith_bind, h calls]
  exact hg calls

theorem perform {o : EvalOp} {v : o.Reply} (h : World.step o w = .ok (v, w')) :
    Computes (perform o : Prog evalOps F o.Reply) w v w' := by
  intro calls
  rw [NaviScheme.perform, runWith, h]
  rfl

theorem unique {F : FnSig} {p : Prog evalOps F α} (h : Computes p w a w') (h' : Computes p w a' w'') :
    a = a' ∧ w' = w'' := by
  have heq := (h fun _ _ _ => .timeout).symm.trans (h' fun _ _ _ => .timeout)
  simpa using heq

variable {X : Externals}

theorem evaluates {p : Prog evalOps evalFns α} (h : Computes p w a w') :
    (worldSemantics X).Evaluates p w (.ok a w') := ⟨by simp, 0, h _⟩

/-- A program that begins without a call. -/
theorem evaluates_bind {p : Prog evalOps evalFns α} {g : α → Code β}
    {r : Res Fault EvalExn World β} (h : Computes p w a w')
    (hg : (worldSemantics X).Evaluates (g a) w' r) :
    (worldSemantics X).Evaluates (p >>= g) w r := h.evaluates.bind hg

/-- What follows a beginning without a call. -/
theorem of_bind {p : Prog evalOps evalFns α} {g : α → Code β}
    {r : Res Fault EvalExn World β} (h : Computes p w a w')
    (hg : (worldSemantics X).Evaluates (p >>= g) w r) :
    (worldSemantics X).Evaluates (g a) w' r := by
  obtain ⟨a₁, w₁, hp, hrest⟩ | ⟨e, w₁, hp, -⟩ | ⟨φ, hp, -⟩ := hg.bind_inv
  · obtain ⟨rfl, rfl⟩ : a = a₁ ∧ w' = w₁ := by simpa using h.evaluates.unique hp
    exact hrest
  · exact absurd (h.evaluates.unique hp) (by simp)
  · exact absurd (h.evaluates.unique hp) (by simp)

/-- The run of a program after a beginning without a call. -/
theorem runLeaf_bind {p : Leaf α} {g : α → Leaf β} (h : Computes p w a w') :
    runLeaf World.step (p >>= g) w = runLeaf World.step (g a) w' := by
  rw [runLeaf, runWith_bind, h _]
  rfl

/-- A function that does not evaluate, as a part of one that may. -/
theorem code {env : NaviEnv} {p : Leaf α} (h : Computes p w a w') :
    Computes (NaviScheme.leaf env p) w a w' := fun _ => runWith_embed (h _)

theorem leaf {env : NaviEnv} {p : Leaf α} (h : Computes p w a w') :
    (worldSemantics X).Evaluates (leaf env p) w (.ok a w') := h.code.evaluates

end Computes

/-- An error does not return. -/
theorem not_evaluates_raise {X : Externals} {args : NaviObj} {env : NaviEnv} {a : α} :
    ¬ (worldSemantics X).Evaluates (raise args env : Code α) w (.ok a w') := by
  intro h
  obtain ⟨never, -⟩ | ⟨e, w₁, -, h⟩ | ⟨φ, -, h⟩ := h.bind_inv
  · exact Empty.elim never
  · cases h
  · cases h

/-- A function that returns has not raised an error. -/
theorem runLeaf_of_evaluates {X : Externals} {env : NaviEnv} {p : Leaf α} {a : α}
    (h : (worldSemantics X).Evaluates (leaf env p) w (.ok a w')) :
    runLeaf World.step p w = .ok a w' := by
  have hrun := (evaluates_embed _).mp h
  change runLeaf (worldSemantics X).step p w = _
  cases hp : runLeaf (worldSemantics X).step p w with
  | ok b w₁ =>
    rw [hp] at hrun
    obtain ⟨rfl, rfl⟩ : a = b ∧ w' = w₁ := by simpa using hrun
    rfl
  | exn e w₁ =>
    rw [hp] at hrun
    exact absurd hrun not_evaluates_raise
  | fault φ =>
    rw [hp] at hrun
    cases hrun
  | timeout =>
    rw [hp] at hrun
    exact hrun.elim

/-- A program that does not return. -/
def NeverReturns (p : Leaf α) : Prop :=
  ∀ w a w', runLeaf World.step p w ≠ .ok a w'

theorem NeverReturns.bind {p : Leaf α} {g : α → Leaf β} (h : ∀ a, NeverReturns (g a)) :
    NeverReturns (p >>= g) := by
  intro w b w' hrun
  rw [runLeaf, runWith_bind] at hrun
  split at hrun
  · rename_i a w₁ _
    exact h a w₁ b w' hrun
  all_goals cases hrun

theorem neverReturns_naviError (msg : String) (irritants : List NaviObj) :
    NeverReturns (naviError msg irritants : Leaf α) := by
  refine NeverReturns.bind fun _ => NeverReturns.bind fun _ => NeverReturns.bind fun _ =>
    NeverReturns.bind fun _ => NeverReturns.bind fun _ => ?_
  intro w a w' hrun
  cases hrun

theorem neverReturns_naviTypeError (expected actual : NaviObj) :
    NeverReturns (naviTypeError expected actual : Leaf α) :=
  NeverReturns.bind fun _ => NeverReturns.bind fun _ => neverReturns_naviError _ _

/-! ### Reading -/

/-- A pair of a world, with its two fields. -/
def IsPair (w : World) (o car cdr : NaviObj) : Prop :=
  w.load o = .ok (.naviPair, .pair (some car) (some cdr))

section Reading

variable {o car cdr : NaviObj} {t : NaviType} {d : Data}

theorem computes_load {c : NaviType × Data} (h : w.load o = .ok c) :
    Computes (load o : Prog evalOps F _) w c w := by
  refine Computes.perform ?_
  change (w.load o).map (·, w) = _
  rw [h]
  rfl

theorem computes_naviType (h : w.load o = .ok (t, d)) :
    Computes (naviType o : Prog evalOps F _) w t w := by
  cases o with
  | ptr a => exact (computes_load h).bind (Computes.ret _)
  | _ => cases h

theorem computes_naviCar (h : IsPair w o car cdr) : Computes (naviCar o : Prog evalOps F _) w car w :=
  (computes_load h).bind (Computes.ret _)

theorem computes_naviCdr (h : IsPair w o car cdr) : Computes (naviCdr o : Prog evalOps F _) w cdr w :=
  (computes_load h).bind (Computes.ret _)

theorem computes_naviIsPair (h : IsPair w o car cdr) :
    Computes (naviIsPair o : Prog evalOps F _) w true w :=
  (computes_naviType h).bind (Computes.ret _)

theorem computes_naviIsLastPair (h : IsPair w o car cdr) :
    Computes (naviIsLastPair o : Prog evalOps F _) w (decide (cdr = .nil)) w :=
  (computes_naviCdr h).bind (Computes.ret _)

theorem IsPair.unique {car' cdr' : NaviObj} (h : IsPair w o car cdr) (h' : IsPair w o car' cdr') :
    car = car' ∧ cdr = cdr' := by
  simpa using h.symm.trans h'

theorem IsPair.ptr (h : IsPair w o car cdr) :
    ∃ a, o = .ptr a ∧ w.objs a = some (.naviPair, .pair (some car) (some cdr)) := by
  cases o with
  | ptr a =>
    refine ⟨a, rfl, ?_⟩
    have hload : w.load (.ptr a) = _ := h
    rw [World.load] at hload
    cases hobj : w.objs a with
    | none => simp [hobj] at hload
    | some c => simpa [hobj] using hload
  | _ => cases h

theorem isPair_ptr {a : Addr} :
    IsPair w (.ptr a) car cdr ↔ w.objs a = some (.naviPair, .pair (some car) (some cdr)) := by
  refine ⟨fun h => ?_, fun h => ?_⟩
  · obtain ⟨b, hb, hobj⟩ := h.ptr
    cases hb
    exact hobj
  · rw [IsPair, World.load, h]

end Reading

/-! ### Lists -/

/-- A proper list of a world: its pairs, and its elements. -/
inductive Spine (w : World) : NaviObj → List NaviObj → List NaviObj → Prop
  | nil : Spine w .nil [] []
  | cons {o car cdr : NaviObj} {pairs xs : List NaviObj} :
    IsPair w o car cdr → Spine w cdr pairs xs → Spine w o (o :: pairs) (car :: xs)

namespace Spine

variable {o car cdr : NaviObj} {pairs pairs' xs xs' : List NaviObj}

theorem length_eq (h : Spine w o pairs xs) : pairs.length = xs.length := by
  induction h with
  | nil => rfl
  | cons hp ht ih => simp [ih]

theorem unique (h : Spine w o pairs xs) (h' : Spine w o pairs' xs') :
    pairs = pairs' ∧ xs = xs' := by
  induction h generalizing pairs' xs' with
  | nil =>
    cases h' with
    | nil => exact ⟨rfl, rfl⟩
    | cons hp => exact absurd hp.ptr (by simp)
  | cons hp ht ih =>
    cases h' with
    | nil => exact absurd hp.ptr (by simp)
    | cons hp' ht' =>
      obtain ⟨rfl, rfl⟩ := hp.unique hp'
      obtain ⟨rfl, rfl⟩ := ih ht'
      exact ⟨rfl, rfl⟩

theorem eq_headD (h : Spine w o pairs xs) : o = pairs.headD .nil := by
  cases h <;> rfl

theorem cons_inv {x : NaviObj} (h : Spine w o pairs (x :: xs)) :
    ∃ cdr, IsPair w o x cdr ∧ ∃ pairs', Spine w cdr pairs' xs := by
  cases h with
  | cons hp ht => exact ⟨_, hp, _, ht⟩

/-- Lists of two worlds that have the same pairs have the same tails. -/
theorem cons_inv₂ {x : NaviObj} {w₀ : World} (h : Spine w o pairs (x :: xs))
    (h₀ : Spine w₀ o pairs (x :: xs)) :
    ∃ cdr, IsPair w o x cdr ∧ ∃ pairs', Spine w cdr pairs' xs ∧ Spine w₀ cdr pairs' xs := by
  cases h with
  | cons hp ht =>
  cases h₀ with
  | cons hp₀ ht₀ =>
  rw [ht₀.eq_headD, ← ht.eq_headD] at ht₀
  exact ⟨_, hp, _, ht, ht₀⟩

/-- It is a list of every world in which its pairs are as they were. -/
theorem of_isPair {w' : World} (h : Spine w o pairs xs)
    (hpairs : ∀ p ∈ pairs, ∀ car cdr, IsPair w p car cdr → IsPair w' p car cdr) :
    Spine w' o pairs xs := by
  induction h with
  | nil => exact .nil
  | cons hp ht ih =>
    exact .cons (hpairs _ List.mem_cons_self _ _ hp)
      (ih fun p hp => hpairs p (List.mem_cons_of_mem _ hp))

/-- From each of its pairs on it is a list. -/
theorem of_mem {p : NaviObj} (h : Spine w o pairs xs) (hp : p ∈ pairs) :
    ∃ pairs' xs', Spine w p pairs' xs' ∧ pairs'.length ≤ pairs.length := by
  induction h with
  | nil => exact absurd hp List.not_mem_nil
  | @cons o car cdr pairs xs hcons ht ih =>
    rcases List.mem_cons.1 hp with rfl | hp
    · exact ⟨_, _, .cons hcons ht, le_rfl⟩
    · obtain ⟨pairs', xs', hs, hle⟩ := ih hp
      exact ⟨pairs', xs', hs, hle.trans (Nat.le_succ _)⟩

theorem nodup (h : Spine w o pairs xs) : pairs.Nodup := by
  induction h with
  | nil => exact List.nodup_nil
  | @cons o car cdr pairs xs hp ht ih =>
    refine List.nodup_cons.2 ⟨fun hmem => ?_, ih⟩
    obtain ⟨pairs', xs', hs, hle⟩ := ht.of_mem hmem
    have heq := (hs.unique (.cons hp ht)).1
    rw [heq, List.length_cons] at hle
    omega

theorem isPair_of_mem {p : NaviObj} (h : Spine w o pairs xs) (hp : p ∈ pairs) :
    ∃ car cdr, IsPair w p car cdr := by
  induction h with
  | nil => exact absurd hp List.not_mem_nil
  | @cons o car cdr pairs xs hcons ht ih =>
    rcases List.mem_cons.1 hp with rfl | hp
    · exact ⟨car, cdr, hcons⟩
    · exact ih hp

/-- A list has no more pairs than there are objects. -/
theorem length_le (h : Spine w o pairs xs)
    (hobjs : ∀ p ∈ pairs, ∃ n < w.nextObj, p = .ptr (.obj n)) : pairs.length ≤ w.nextObj := by
  have hsub : pairs ⊆ (List.range w.nextObj).map fun n => NaviObj.ptr (.obj n) := by
    intro p hp
    obtain ⟨n, hn, rfl⟩ := hobjs p hp
    exact List.mem_map.2 ⟨n, List.mem_range.2 hn, rfl⟩
  simpa using (h.nodup.subperm hsub).length_le

/-- The walk along a list that is not longer than its bound. -/
theorem walk_eq (h : Spine w o pairs xs) {n : ℕ} (hn : pairs.length < n) :
    w.walk n o = .ok (pairs, .nil) := by
  induction h generalizing n with
  | nil =>
    cases n with
    | zero => exact absurd hn (Nat.not_lt_zero _)
    | succ n => rfl
  | @cons o car cdr pairs xs hp ht ih =>
    cases n with
    | zero => exact absurd hn (Nat.not_lt_zero _)
    | succ n =>
      obtain ⟨a, rfl, hobj⟩ := hp.ptr
      rw [World.walk, hobj]
      simp only [ih (Nat.lt_of_succ_lt_succ hn), ok_bind]
      rfl

theorem computes_cars (h : Spine w o pairs xs) : Computes (cars pairs : Prog evalOps F _) w xs w := by
  induction h with
  | nil => exact Computes.ret _
  | cons hp ht ih => exact (computes_naviCar hp).bind (ih.bind (Computes.ret _))

end Spine

/-! ### Well-formed worlds -/

/-- What holds of every world that a program makes: nothing is where the next object or
scope will be, thunks have their own addresses, and the symbol table has the symbols of the
names. -/
structure World.Wf (w : World) : Prop where
  /-- no object has the next address or a later one -/
  objs : ∀ n, w.nextObj ≤ n → w.objs (.obj n) = none
  /-- no scope has the next address or a later one -/
  scopes : ∀ s, w.nextScope ≤ s → w.scopes s = none
  /-- thunks and nothing else have the addresses of thunks -/
  thunks : ∀ n c, w.objs (.thunk n) = some c → ∃ expr env, c.2 = .thunk expr env
  /-- the table has the symbol of each of its names -/
  symtab : ∀ str a, w.symtab.lookup str = some a → w.objs a = some (.naviSymbol, .symbol str true)

section Wf

variable {o : NaviObj} {pairs xs : List NaviObj}

theorem World.Wf.length_le (hwf : w.Wf) (h : Spine w o pairs xs) : pairs.length ≤ w.nextObj := by
  refine h.length_le fun p hp => ?_
  obtain ⟨car, cdr, hpair⟩ := h.isPair_of_mem hp
  obtain ⟨a, rfl, hobj⟩ := hpair.ptr
  cases a with
  | thunk n =>
    obtain ⟨expr, env, hd⟩ := hwf.thunks n _ hobj
    cases hd
  | obj n =>
    refine ⟨n, ?_, rfl⟩
    by_contra hn
    rw [hwf.objs n (not_lt.1 hn)] at hobj
    cases hobj

theorem computes_walk (hwf : w.Wf) (h : Spine w o pairs xs) :
    Computes (walk o : Prog evalOps F _) w (pairs, .nil) w := by
  refine Computes.perform ?_
  change (w.walk (w.nextObj + 1) o).map (·, w) = _
  rw [h.walk_eq (Nat.lt_succ_of_le (hwf.length_le h))]
  rfl

theorem computes_elements (hwf : w.Wf) (h : Spine w o pairs xs) :
    Computes (elements o : Prog evalOps F _) w xs w :=
  (computes_walk hwf h).bind h.computes_cars

theorem computes_naviIsProperList (hwf : w.Wf) (h : Spine w o pairs xs) :
    Computes (naviIsProperList o : Prog evalOps F _) w true w :=
  (computes_walk hwf h).bind (Computes.ret _)

theorem computes_naviListLength (hwf : w.Wf) (h : Spine w o pairs xs) :
    Computes (naviListLength o : Prog evalOps F _) w xs.length w := by
  rw [← h.length_eq]
  exact (computes_walk hwf h).bind (Computes.ret _)

end Wf

/-! ### Symbols -/

/-- The interned symbol of a name. -/
def IsSym (w : World) (o : NaviObj) (str : String) : Prop :=
  ∃ a, o = .ptr a ∧ w.symtab.lookup str = some a

section Symbols

variable {o o' : NaviObj} {str str' : String}

theorem IsSym.unique (h : IsSym w o str) (h' : IsSym w o' str) : o = o' := by
  obtain ⟨a, rfl, ha⟩ := h
  obtain ⟨b, rfl, hb⟩ := h'
  rw [ha] at hb
  cases hb
  rfl

theorem IsSym.load (hwf : w.Wf) (h : IsSym w o str) :
    w.load o = .ok (.naviSymbol, .symbol str true) := by
  obtain ⟨a, rfl, ha⟩ := h
  rw [World.load, hwf.symtab str a ha]

/-- A symbol has one name. -/
theorem IsSym.name_eq (hwf : w.Wf) (h : IsSym w o str) (h' : IsSym w o str') : str = str' := by
  simpa using (h.load hwf).symm.trans (h'.load hwf)

theorem computes_naviMakeSymbol (h : IsSym w o str) :
    Computes (naviMakeSymbol str : Prog evalOps F _) w o w := by
  obtain ⟨a, rfl, ha⟩ := h
  refine Computes.perform ?_
  change Except.ok (w.makeSymbol str) = _
  rw [World.makeSymbol, ha]
  rfl

theorem computes_symbolData (hwf : w.Wf) (h : IsSym w o str) :
    Computes (symbolData o : Prog evalOps F _) w str w :=
  (computes_load (h.load hwf)).bind (Computes.ret _)

end Symbols

/-! ### Worlds from tables -/

/-- The world with given objects, names of symbols, scopes and libraries, at the addresses
that their positions are. -/
def World.ofCells (cells : List (NaviType × Data)) (names : List (String × ℕ))
    (scopes : List WorldScope) (libraries : List NaviLibrary) : World where
  objs
    | .obj n => cells[n]?
    | .thunk _ => none
  scopes s := scopes[s]?
  symtab := names.map fun e => (e.1, .obj e.2)
  nextObj := cells.length
  nextThunk := 0
  nextScope := scopes.length
  nextGuard := 0
  counter _ := 0
  libraries := libraries
  log := []

theorem World.wf_ofCells {cells : List (NaviType × Data)} {names : List (String × ℕ)}
    {scopes : List WorldScope} {libraries : List NaviLibrary}
    (h : ∀ e ∈ names, cells[e.2]? = some (.naviSymbol, .symbol e.1 true)) :
    (World.ofCells cells names scopes libraries).Wf := by
  refine ⟨fun n hn => List.getElem?_eq_none hn, fun s hs => List.getElem?_eq_none hs,
    fun n c hc => (by cases hc), fun str a ha => ?_⟩
  change List.lookup str (names.map fun e => (e.1, Addr.obj e.2)) = some a at ha
  induction names with
  | nil => cases ha
  | cons e names ih =>
    rw [List.map_cons, List.lookup_cons] at ha
    cases hstr : str == e.1 with
    | true =>
      rw [hstr] at ha
      obtain rfl : Addr.obj e.2 = a := by simpa using ha
      rw [beq_iff_eq.1 hstr]
      exact h e List.mem_cons_self
    | false =>
      rw [hstr] at ha
      exact ih (fun e' he' => h e' (List.mem_cons_of_mem _ he')) ha

/-- Builtins that do nothing, and files that cannot be opened. -/
def noExternals : Externals where
  builtin _ _ _ _ := return .void
  naviEqualp a b := return decide (a = b)
  naviOpenInputFile_ _ := return .void
  naviCloseInputPort _ := return ()
  naviPortSetFoldCase _ _ := return ()
  naviRead _ := return .eof

end NaviScheme
