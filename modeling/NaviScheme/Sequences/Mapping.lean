import NaviScheme.Eval.Handover
import NaviScheme.Uniform.Lists

/-!
# Mapping over lists and over vectors

`map`, `for-each`, `vector-map` and `vector-for-each`, of any procedure and any number of sequences.
The functions of `list.c` move a cursor along each list until one of them ends; those of `vector.c`
find out the least length first.

All four make the calls of one program (`NaviScheme.mapCalls`), which calls the procedure once for
each index below the shortest length, from the first on, with the elements at that index. They
differ in the addresses of what they make, and so do the objects that the procedure makes in
between: a run of one of them and a run of the calls go together at other addresses
(`NaviScheme.alike_mappings`). The procedure may have any effects, but it leaves the sequences as
they are (`NaviScheme.LeavesAlone`).
-/

namespace NaviScheme

open Prog Semantics

variable {X : Externals} {w : World}

/-! ### The calls -/

/-- The length of the shortest of some sequences. -/
def shortest (xss : List (List NaviObj)) : ℕ := (xss.map List.length).min?.getD 0

/-- The elements of sequences at an index. -/
def tupleAt (xss : List (List NaviObj)) (i : ℕ) : List NaviObj := xss.filterMap (·[i]?)

/-- The elements of sequences at each index below the shortest length, from the first on. -/
def tuples (xss : List (List NaviObj)) : List (List NaviObj) :=
  (List.range (shortest xss)).map (tupleAt xss)

/-- Calls of a procedure, one after another, with new lists of arguments. -/
def mapCalls (proc : NaviObj) (env : NaviEnv) : List (List NaviObj) → Code (List NaviObj)
  | [] => return []
  | tuple :: rest => do
    let args ← naviList tuple
    let v ← callFn (.applyForce proc args env) [] []
    return v :: (← mapCalls proc env rest)

/-- The calls of a mapping, if the procedure takes as many arguments as there are sequences. -/
def mapping (proc : NaviObj) (env : NaviEnv) (xss : List (List NaviObj)) : Code (List NaviObj) := do
  leaf env (naviCheckArity proc xss.length)
  mapCalls proc env (tuples xss)

/-- The calls that are made of a procedure leave some objects as they are. -/
def LeavesAlone (X : Externals) (proc : NaviObj) (env : NaviEnv) (cells : Set NaviObj) :
    List (List NaviObj) → World → Prop
  | [], _ => True
  | tuple :: rest, w => ∀ args w₁ v w₂, Computes (naviList tuple : Code _) w args w₁ →
      (worldSemantics X).Returns (.applyForce proc args env) w₁ (.ok v w₂) →
      (∀ o ∈ cells, w₂.load o = w.load o) ∧ LeavesAlone X proc env cells rest w₂

/-- Lists, and vectors with the same elements, all of them at some objects. -/
structure SequencesAt (w : World) (cells : Set NaviObj) (lists vecs : List NaviObj)
    (xss : List (List NaviObj)) : Prop where
  /-- the lists -/
  lists : List.Forall₂ (fun l xs => ∃ ps, Spine w l ps xs ∧ ∀ p ∈ ps, p ∈ cells) lists xss
  /-- the vectors -/
  vecs : List.Forall₂ (fun v xs => w.load v = .ok (.naviVector, .vector (xs.map some)) ∧ v ∈ cells)
    vecs xss

/-! ### Indexes -/

section Indexes

variable {xss : List (List NaviObj)} {i : ℕ}

theorem lt_shortest (hne : xss ≠ []) : i < shortest xss ↔ ∀ xs ∈ xss, i < xs.length := by
  obtain ⟨m, hm⟩ := Option.isSome_iff_exists.mp
    (List.isSome_min?_of_ne_nil (l := xss.map List.length) (mt List.map_eq_nil_iff.mp hne))
  rw [shortest, hm, Option.getD_some, ← Nat.succ_le_iff, List.le_min?_iff hm]
  simp [Nat.succ_le_iff]

theorem tuples_eq : tuples xss = (List.range' 0 (shortest xss)).map (tupleAt xss) := by
  rw [tuples, List.range_eq_range']

theorem any_ended (hne : xss ≠ []) :
    (xss.any fun xs => decide (xs.length ≤ i)) = decide (shortest xss ≤ i) := by
  rw [Bool.eq_iff_iff, List.any_eq_true, decide_eq_true_iff, ← not_lt, lt_shortest hne]
  simp

theorem foldl_min_length {xs : List NaviObj} :
    (((xs :: xss).map List.length).foldl min xs.length) = shortest (xs :: xss) := by
  rw [shortest, List.map_cons, List.min?_cons', Option.getD_some, List.foldl_cons, min_self]

theorem tupleAt_cons {xs : List NaviObj} (hlt : i < xs.length) :
    tupleAt (xs :: xss) i = xs[i] :: tupleAt xss i := by
  rw [tupleAt, List.filterMap_cons, List.getElem?_eq_getElem hlt]
  rfl

theorem has_tupleAt (hxss : ∀ xs ∈ xss, ∀ x ∈ xs, w.Has x) : ∀ x ∈ tupleAt xss i, w.Has x := by
  rintro x hx
  obtain ⟨xs, hxs, hx⟩ := List.mem_filterMap.mp hx
  exact hxss xs hxs x (List.mem_of_getElem? hx)

end Indexes

/-! ### Reading the sequences -/

/-- Objects that are there are as they were. -/
def SameCells (cells : Set NaviObj) (w w' : World) : Prop :=
  ∀ o ∈ cells, ∀ d, w.load o = .ok d → w'.load o = .ok d

/-- The cursors into lists at an index. -/
def ListsFrom (w : World) (cells : Set NaviObj) (i : ℕ) (lists : List NaviObj)
    (xss : List (List NaviObj)) : Prop :=
  List.Forall₂ (fun l xs => ∃ ps, Spine w l ps (xs.drop i) ∧ ∀ p ∈ ps, p ∈ cells) lists xss

section Reading

variable {cells : Set NaviObj} {w' : World} {lists vecs : List NaviObj}
  {xss : List (List NaviObj)} {i : ℕ}

/-- `cons_array_terminated` tells whether one of the lists has ended. -/
theorem computes_consArrayTerminated (h : ListsFrom w cells i lists xss)
    (hsame : SameCells cells w w') : Computes (consArrayTerminated lists) w'
      (xss.any fun xs => decide (xs.length ≤ i)) w' := by
  induction h with
  | nil => exact Computes.ret false
  | @cons l xs lists xss hl _ ih =>
    obtain ⟨ps, hl, hps⟩ := hl
    rw [List.any_cons]
    by_cases hlt : i < xs.length
    · rw [List.drop_eq_getElem_cons hlt] at hl
      rw [decide_eq_false (not_le.mpr hlt), Bool.false_or]
      cases hl with
      | cons hp _ =>
        have hpair : IsPair w' l _ _ := hsame l (hps l List.mem_cons_self) _ hp
        exact (computes_naviIsPair hpair).bind ih
    · rw [List.drop_eq_nil_of_le (not_lt.mp hlt)] at hl
      rw [decide_eq_true (not_lt.mp hlt), Bool.true_or]
      cases hl
      exact Computes.bind (Computes.ret false) (Computes.ret true)

/-- Where no list has ended, there is an element of each. -/
theorem ListsFrom.heads (h : ListsFrom w cells i lists xss) (hsame : SameCells cells w w')
    (hlt : ∀ xs ∈ xss, i < xs.length) :
    List.Forall₂ (fun l x => ∃ cdr, IsPair w' l x cdr) lists (tupleAt xss i) := by
  induction h with
  | nil => exact .nil
  | @cons l xs lists xss hl _ ih =>
    obtain ⟨ps, hl, hps⟩ := hl
    have hi : i < xs.length := hlt xs List.mem_cons_self
    rw [List.drop_eq_getElem_cons hi] at hl
    rw [tupleAt_cons hi]
    refine .cons ?_ (ih fun xs hxs => hlt xs (List.mem_cons_of_mem _ hxs))
    cases hl with
    | cons hp _ => exact ⟨_, hsame l (hps l List.mem_cons_self) _ hp⟩

/-- `cons_array_advance` -/
theorem ListsFrom.advance (h : ListsFrom w cells i lists xss) (hlt : ∀ xs ∈ xss, i < xs.length) :
    ∃ lists', ListsFrom w cells (i + 1) lists' xss ∧
      ∀ w', SameCells cells w w' → Computes (consArrayAdvance lists) w' lists' w' := by
  induction h with
  | nil => exact ⟨[], .nil, fun _ _ => Computes.ret []⟩
  | @cons l xs lists xss hl _ ih =>
    obtain ⟨ps, hl, hps⟩ := hl
    obtain ⟨lists', hlists, hrun⟩ := ih fun xs hxs => hlt xs (List.mem_cons_of_mem _ hxs)
    rw [List.drop_eq_getElem_cons (hlt xs List.mem_cons_self)] at hl
    cases hl with
    | @cons _ _ cdr ps _ hp ht =>
      refine ⟨cdr :: lists', .cons ⟨ps, ht, fun p hp => hps p (List.mem_cons_of_mem _ hp)⟩ hlists,
        fun w' hsame => ?_⟩
      have hpair : IsPair w' l _ cdr := hsame l (hps l List.mem_cons_self) _ hp
      exact (computes_naviCdr hpair).bind ((hrun w' hsame).bind (Computes.ret _))

/-- `cons_array_fill` accepts the lists. -/
theorem computes_consArrayFill (h : ListsFrom w cells i lists xss) :
    Computes (consArrayFill lists) w () w := by
  induction h with
  | nil => exact Computes.ret ()
  | @cons l xs lists xss hl _ ih =>
    obtain ⟨ps, hl, -⟩ := hl
    have hcheck : Computes (naviTypeCheckList l) w () w := by
      generalize xs.drop i = ys at hl
      cases hl with
      | nil => exact (Computes.ret _).bind (Computes.ret _)
      | cons hp _ =>
        have hlist : Computes (naviIsList l : Leaf Bool) w true w :=
          (computes_naviType hp).bind (Computes.ret _)
        exact hlist.bind (Computes.ret ())
    exact hcheck.bind ih

variable (hvecs : List.Forall₂ (fun v xs => w.load v = .ok (.naviVector, .vector (xs.map some)) ∧
  v ∈ cells) vecs xss) (hsame : SameCells cells w w')
include hvecs hsame

/-- The elements of the vectors at an index. -/
theorem computes_nthElements (hlt : ∀ xs ∈ xss, i < xs.length) :
    Computes (nthElements i vecs) w' (tupleAt xss i) w' := by
  induction hvecs with
  | nil => exact Computes.ret []
  | @cons v xs vecs xss hv _ ih =>
    have hi : i < xs.length := hlt xs List.mem_cons_self
    have hload : w'.load v = .ok (.naviVector, .vector (xs.map some)) := hsame v hv.2 _ hv.1
    have helem : Computes (elem (xs.map some) i : Code _) w' xs[i] w' := by
      rw [elem, List.getElem?_map, List.getElem?_eq_getElem hi]
      exact Computes.ret _
    rw [tupleAt_cons hi]
    refine ((computes_load hload).bind (Computes.ret _)).bind (helem.bind ?_)
    exact (ih fun xs hxs => hlt xs (List.mem_cons_of_mem _ hxs)).bind (Computes.ret _)

/-- `vector_array_fill` finds out the least length. -/
theorem computes_vectorArrayFill (n : ℕ) :
    Computes (vectorArrayFill vecs n) w' ((xss.map List.length).foldl min n) w' := by
  induction hvecs generalizing n with
  | nil => exact Computes.ret n
  | @cons v xs vecs xss hv _ ih =>
    have hload : w'.load v = .ok (.naviVector, .vector (xs.map some)) := hsame v hv.2 _ hv.1
    have hcheck : Computes (naviTypeCheck v .naviVector) w' () w' :=
      (computes_naviType hload).bind (Computes.ret _)
    have hdata : Computes (naviVector v : Leaf _) w' (xs.map some) w' :=
      (computes_load hload).bind (Computes.ret _)
    refine hcheck.bind (hdata.bind ?_)
    rw [List.length_map, min_comm]
    exact ih (min n xs.length)

end Reading

/-! ### One call -/

section Calls

variable {c c' : Stage Readdressing Addr World} {cells : Set NaviObj} {proc : NaviObj}
  {env : NaviEnv}

theorem World.course_mono {kept kept' : Set Addr} (h : (World.course kept).grows c c')
    (hkept : kept' ⊆ kept) : (World.course kept').grows c c' :=
  ⟨h.1, h.2.1, h.2.2.1, h.2.2.2.1, fun b hb => h.2.2.2.2 b (hkept hb)⟩

/-- Something else in the second world only. -/
theorem World.grows_right {l r : World} (halloc : ∀ b, c.right.Allocated b → r.Allocated b) :
    (World.course ∅).grows c ⟨c.names, c.naming, l, r⟩ :=
  ⟨subset_rfl, fun _ _ => rfl, halloc, fun _ ha _ => ha, fun b hb => absurd hb (Set.notMem_empty b)⟩

/-- A stage of two mappings in a world, at which the sequences are as they were. -/
structure Traversing (w : World) (cells : Set NaviObj) (c : Stage Readdressing Addr World) :
    Prop where
  /-- the worlds correspond -/
  good : World.Corresponds c
  /-- they come from the one world -/
  grows : (World.course ∅).grows w.start c
  /-- the sequences are as they were -/
  same : ∀ o ∈ cells, c.left.load o = w.load o

namespace Traversing

variable (hT : Traversing w cells c)
include hT

/-- What the world has had from the start is the same in both. -/
theorem names {α : Type} [MulAction Readdressing α] {x : α}
    (hx : OnlyOn Readdressing {a | w.Allocated a} x) : c.Names x x :=
  (World.names_start hx).mono hT.grows.1 hT.grows.2.1

theorem names_has {o : NaviObj} (ho : w.Has o) : c.Names o o := hT.names (onlyOn_of_avoids ho)

theorem names_list {xs : List NaviObj} (hxs : ∀ x ∈ xs, w.Has x) : c.Names xs xs :=
  hT.names fun g g' hg => List.map_congr_left fun x hx => onlyOn_of_avoids (hxs x hx) g g' hg

/-- The sequences are as they were in the second world, too. -/
theorem same_right (hw : w.Closed) : SameCells cells w c.right := by
  intro o ho d hd
  have hhas : w.Has o := hw.has_of_load hd
  have hload := hT.good.load (hT.names_has hhas)
  rw [hT.same o ho, hd] at hload
  cases hr : c.right.load o with
  | error φ =>
    rw [hr] at hload
    exact hload.elim
  | ok d' =>
    rw [hr] at hload
    have hdata : c.Names d d := hT.names fun g g' hg => Prod.ext rfl
      (onlyOn_data (fun x hx => onlyOn_of_avoids (hw.hides.load hhas hd x hx)) g g' hg)
    rw [hload.1, ← hdata.1]

/-- Something else in the second world only, at objects that no one knows. -/
theorem of_adds {own : Set Addr} {r : World} (hr : c.right.Adds own r)
    (hown : ∀ a ∈ c.names, c.naming • a ∉ own) :
    Traversing w cells ⟨c.names, c.naming, c.left, r⟩ where
  good := hT.good.of_adds (.refl ∅ _) hr hown
  grows := (World.course ∅).trans hT.grows (World.grows_right hr.allocated)
  same := hT.same

/-- **One call of each**: with lists of the same arguments, each of which has been made in its
own way. Where the call returns, both go on. -/
theorem alike_cons (hX : X.Natural) (hproc : w.Has proc) {tuple : List NaviObj}
    {rest : List (List NaviObj)} (htuple : ∀ x ∈ tuple, w.Has x)
    (hf : LeavesAlone X proc env cells (tuple :: rest) c.left) {β : Type} {args : NaviObj}
    {r : World} {pairs : List NaviObj} {p : Code NaviObj} (hp : Computes p c.right args r)
    (hnew : NewList c.right r args pairs tuple) {objs : List NaviObj} {scopes : List ScopeAddr}
    {q : NaviObj → Code β} {R : Stage Readdressing Addr World → List NaviObj → β → Prop}
    (hq : ∀ c' v v', (World.course Set.univ).grows c c' → Traversing w cells c' →
      LeavesAlone X proc env cells rest c'.left → c'.Names v v' →
      (worldSemantics X).Alike (World.course ∅) c' R
        (mapCalls proc env rest >>= fun vs => pure (v :: vs)) (q v')) :
    (worldSemantics X).Alike (World.course ∅) c R (mapCalls proc env (tuple :: rest))
      (p >>= fun args => callFn (.applyForce proc args env) objs scopes >>= q) := by
  obtain ⟨args₀, l, pairs₀, hl, hnew₀⟩ :=
    naviList_newList (F := evalFns) hT.good.orderly_left tuple
  obtain ⟨V, g, hgrows, hcor, hargs⟩ :=
    hT.good.lists Set.univ hnew₀ hnew (hT.names_list htuple)
  refine Alike.of_later (d := ⟨V, g, l, r⟩) ?_ (World.course_mono hgrows (Set.empty_subset _))
    (fun _ => hl.evaluates.bind_iff) fun _ => hp.evaluates.bind_iff
  -- the calls themselves
  have hcall := (alike_applyForce Set.univ hX hcor
    ((hT.names_has hproc).mono hgrows.1 hgrows.2.1) hargs env [] objs [] scopes).weaken
    (T := World.course ∅) fun c' hc' hgood =>
      ⟨World.course_mono hc' (Set.empty_subset _), hgood⟩
  refine hcall.bind fun c' v v' hgrows' hgood hv hrun _ => ?_
  have hret := evaluates_callFn.mp hrun
  obtain ⟨hsame, hrest⟩ := hf args₀ l v c'.left hl hret
  refine hq c' v v' ((World.course Set.univ).trans hgrows hv.1) ⟨hgood, ?_, fun o ho => ?_⟩ hrest
    hv.2
  · exact (World.course ∅).trans hT.grows ((World.course ∅).trans
      (World.course_mono hgrows (Set.empty_subset _)) hgrows')
  · rw [hsame o ho, hT.same o ho]

end Traversing

/-- What a program does first, in the second world only. -/
theorem alike_of_computes {α β γ : Type} {Q : Stage Readdressing Addr World → α → γ → Prop}
    {p : Code α} {p' : Code β} {q : β → Code γ} {a : β} {r : World}
    (hp : Computes p' c.right a r)
    (hgrows : (World.course ∅).grows c ⟨c.names, c.naming, c.left, r⟩)
    (h : (worldSemantics X).Alike (World.course ∅) ⟨c.names, c.naming, c.left, r⟩ Q p (q a)) :
    (worldSemantics X).Alike (World.course ∅) c Q p (p' >>= q) :=
  h.of_later hgrows (fun _ => .rfl) fun _ => hp.evaluates.bind_iff

/-- What a program reads first. -/
theorem alike_of_reads {α β γ : Type} {Q : Stage Readdressing Addr World → α → γ → Prop}
    {p : Code α} {p' : Code β} {q : β → Code γ} {a : β} (hp : Computes p' c.right a c.right)
    (h : (worldSemantics X).Alike (World.course ∅) c Q p (q a)) :
    (worldSemantics X).Alike (World.course ∅) c Q p (p' >>= q) :=
  alike_of_computes hp ((World.course ∅).refl c) h

/-- A call comes to what the body does. -/
theorem alike_of_body {α : Type} {f : EvalFn} {objs : List NaviObj} {scopes : List ScopeAddr}
    {Q : Stage Readdressing Addr World → α → f.Ret → Prop} {p : Code α} {p' : Code f.Ret}
    (hbody : evalBody X f = p') (h : (worldSemantics X).Alike (World.course ∅) c Q p p') :
    (worldSemantics X).Alike (World.course ∅) c Q p (callFn f objs scopes) := by
  subst hbody
  exact h.of_later ((World.course ∅).refl c) (fun _ => .rfl) fun _ => evaluates_callFn

theorem alike_ret {α β : Type} {Q : Stage Readdressing Addr World → α → β → Prop} {a : α} {b : β}
    (hc : World.Corresponds c) (h : Q c a b) :
    (worldSemantics X).Alike (World.course ∅) c Q (.ret a) (.ret b) :=
  Alike.of_evaluates .ret .ret ⟨c.names, c.naming, (World.course ∅).refl c, hc, h⟩

end Calls

/-! ### What the second world has for itself -/

section Hidden

variable {c c' : Stage Readdressing Addr World} {o : NaviObj} {r : World} {a : Addr}

/-- An object of the second world that no one knows. -/
def Hidden (c : Stage Readdressing Addr World) (o : NaviObj) : Prop :=
  ∃ a, o = .ptr a ∧ c.right.Allocated a ∧ ∀ b ∈ c.names, c.naming • b ≠ a

/-- A call leaves it hidden, and as it is. -/
theorem Hidden.grows (h : Hidden c o) (hc : (World.course Set.univ).grows c c') :
    Hidden c' o ∧ c'.right.load o = c.right.load o := by
  obtain ⟨a, rfl, halloc, hunknown⟩ := h
  obtain ⟨-, hagrees, hle, hnew, hsame⟩ := hc
  refine ⟨⟨a, rfl, hle a halloc, ?_⟩, ?_⟩
  · rintro b hb rfl
    have hb' := hnew b hb halloc
    exact hunknown b hb' (hagrees b hb')
  · rw [World.load, World.load, hsame a trivial halloc hunknown]

theorem Hidden.right (h : Hidden c o) (halloc : ∀ b, c.right.Allocated b → r.Allocated b) :
    Hidden ⟨c.names, c.naming, c.left, r⟩ o := by
  obtain ⟨a, rfl, ha, hunknown⟩ := h
  exact ⟨a, rfl, halloc a ha, hunknown⟩

theorem Hidden.notMem (h : Hidden c (.ptr a)) : ∀ b ∈ c.names, c.naming • b ∉ ({a} : Set Addr) := by
  rintro b hb hmem
  obtain ⟨a', heq, -, hunknown⟩ := h
  exact hunknown b hb (hmem.trans (NaviObj.ptr.inj heq))

theorem World.Corresponds.hidden (hc : World.Corresponds c) (ha : ¬ c.right.Allocated a)
    (hr : r.Allocated a) : Hidden ⟨c.names, c.naming, c.left, r⟩ (.ptr a) :=
  ⟨a, rfl, hr, fun b hb heq => ha (heq ▸ hc.allocated_right b hb)⟩

/-- The list that `map` makes of the results, behind a first pair. -/
def Collected (c : Stage Readdressing Addr World) (result last : NaviObj) (ys : List NaviObj) :
    Prop :=
  ∃ ps b xs x, last = .ptr b ∧ .nil :: ys = xs ++ [x] ∧
    Segment c.right result (ps ++ [.ptr b]) (xs ++ [x]) .nil ∧ ∀ p ∈ ps ++ [.ptr b], Hidden c p

variable {result last v : NaviObj} {ys : List NaviObj}

theorem Collected.grows (h : Collected c result last ys)
    (hc : (World.course Set.univ).grows c c') : Collected c' result last ys := by
  obtain ⟨ps, b, xs, x, rfl, hys, hseg, hhidden⟩ := h
  refine ⟨ps, b, xs, x, rfl, hys, hseg.of_isPair fun p hp car cdr hpair => ?_,
    fun p hp => ((hhidden p hp).grows hc).1⟩
  rw [IsPair, ((hhidden p hp).grows hc).2]
  exact hpair

/-- The list of the results, when there are no more. -/
theorem Collected.spine (h : Collected c result last ys) :
    ∃ cdr pairs, IsPair c.right result .nil cdr ∧ Spine c.right cdr pairs ys := by
  obtain ⟨ps, b, xs, x, rfl, hys, hseg, -⟩ := h
  rw [← hys] at hseg
  generalize ps ++ [.ptr b] = pairs at hseg
  cases hseg with
  | cons hp h => exact ⟨_, _, hp, Segment.spine_iff.mp h⟩

/-- One result more. -/
theorem Collected.snoc (hc : World.Corresponds c) (h : Collected c result last ys) (v : NaviObj) :
    ∃ a r, last = .ptr a ∧ (∀ b ∈ c.names, c.naming • b ∉ ({a} : Set Addr)) ∧
      c.right.Adds {a} r ∧
      Computes (naviSetCdr last (.ptr (.obj c.right.nextObj)) : Code _)
        (c.right.consed v .nil) () r ∧
      Collected ⟨c.names, c.naming, c.left, r⟩ result (.ptr (.obj c.right.nextObj))
        (ys ++ [v]) := by
  obtain ⟨ps, b, xs, x, rfl, hys, hseg, hhidden⟩ := h
  have hb : Hidden c (.ptr b) := hhidden _ (List.mem_append_right _ (List.mem_singleton_self _))
  obtain ⟨xs', x', heq, -, hlast⟩ := hseg.snoc_inv
  obtain ⟨rfl, hx⟩ := List.append_inj' heq rfl
  cases hx
  have hobj := isPair_ptr.mp hlast
  have hadds : c.right.Adds {b} (c.right.behind b x (.pair (some v) (some .nil))) :=
    .behind hc.orderly_right hobj
  refine ⟨b, _, rfl, hb.notMem, hadds, computes_naviSetCdr_behind hc.orderly_right hobj,
    ps ++ [.ptr b], _, xs ++ [x], v, rfl, by rw [← hys]; rfl, ?_, fun p hp => ?_⟩
  · have hnext : IsPair (c.right.behind b x (.pair (some v) (some .nil)))
        (.ptr (.obj c.right.nextObj)) v .nil := by
      rw [isPair_ptr, World.objs_behind, if_neg (hc.orderly_right.ne_nextObj hobj).symm, if_pos rfl]
    have hpair : IsPair (c.right.behind b x (.pair (some v) (some .nil))) (.ptr b) x
        (.ptr (.obj c.right.nextObj)) := by
      rw [isPair_ptr, World.objs_behind, if_pos rfl]
    have hextended := hseg.extend (fun d e hd he => ?_) hpair (.cons hnext (.nil .nil))
    · simpa using hextended
    · rw [World.objs_behind, if_neg hd, if_neg (hc.orderly_right.ne_nextObj he), he]
  · rcases List.mem_append.mp hp with hp | hp
    · exact (hhidden p hp).right hadds.allocated
    · rw [List.mem_singleton.mp hp]
      exact hc.hidden c.right.not_allocated_nextObj (c.right.allocated_behind b x _)

/-- The vector that `vector-map` fills with the results. -/
def Gathered (c : Stage Readdressing Addr World) (result : NaviObj) (m : ℕ) (ys : List NaviObj) :
    Prop :=
  Hidden c result ∧
    c.right.load result = .ok (.naviVector, .vector (ys.map some ++ List.replicate m none))

theorem Gathered.grows {m : ℕ} (h : Gathered c result m ys)
    (hc : (World.course Set.univ).grows c c') : Gathered c' result m ys :=
  ⟨(h.1.grows hc).1, (h.1.grows hc).2.trans h.2⟩

/-- One result more. -/
theorem Gathered.snoc {m : ℕ} (h : Gathered c result (m + 1) ys) (v : NaviObj) :
    ∃ a r, (∀ b ∈ c.names, c.naming • b ∉ ({a} : Set Addr)) ∧ c.right.Adds {a} r ∧
      Computes (vectorSet result ys.length v : Code _) c.right () r ∧
      Gathered ⟨c.names, c.naming, c.left, r⟩ result m (ys ++ [v]) := by
  obtain ⟨hhidden, hload⟩ := h
  obtain ⟨a, rfl⟩ := World.ptr_of_load hload
  have hset : (ys.map some ++ List.replicate (m + 1) none).set ys.length (some v) =
      (ys ++ [v]).map some ++ List.replicate m none := by
    rw [List.set_append_right _ _ (by simp), List.length_map, Nat.sub_self, List.replicate_succ,
      List.set_cons_zero, List.map_append, List.append_assoc]
    rfl
  have halloc : c.right.Allocated a := by
    obtain ⟨b, heq, hb, -⟩ := hhidden
    exact NaviObj.ptr.inj heq ▸ hb
  have hadds : c.right.Adds {a} (c.right.setObj a
      (.naviVector, .vector ((ys ++ [v]).map some ++ List.replicate m none))) := by
    refine .setObj halloc ?_
    cases a <;> trivial
  refine ⟨a, _, hhidden.notMem, hadds, ?_, hhidden.right hadds.allocated, ?_⟩
  · have hdata : Computes (naviVector (.ptr a) : Code _) c.right
        (ys.map some ++ List.replicate (m + 1) none) c.right :=
      (computes_load hload).bind (Computes.ret _)
    rw [vectorSet]
    refine hdata.bind ?_
    rw [if_pos (by simp), hset]
    refine Computes.perform ?_
    rw [World.step_store, hload]
    rfl
  · exact World.load_ptr ((World.objs_setObj _ _ _ _).trans (if_pos rfl))

end Hidden

/-! ### The loops -/

section Loops

variable {c : Stage Readdressing Addr World} {cells : Set NaviObj} {proc : NaviObj}
  {env : NaviEnv} {lists vecs ys : List NaviObj} {xss : List (List NaviObj)} {i m : ℕ}
  {objs : List NaviObj} {scopes : List ScopeAddr}
  (hX : X.Natural) (hw : w.Closed) (hproc : w.Has proc) (hxss : ∀ xs ∈ xss, ∀ x ∈ xs, w.Has x)
  (hne : xss ≠ []) (hT : Traversing w cells c) (him : i + m = shortest xss)
  (hf : LeavesAlone X proc env cells ((List.range' i m).map (tupleAt xss)) c.left)
include hX hw hproc hxss hne hT him hf

/-- The loop of `for-each`. -/
theorem alike_forEachLoop (hlists : ListsFrom w cells i lists xss) :
    (worldSemantics X).Alike (World.course ∅) c (fun _ _ _ => True)
      (mapCalls proc env ((List.range' i m).map (tupleAt xss)))
      (callFn (.forEachLoop proc lists env) objs scopes) := by
  induction m generalizing i c lists objs scopes with
  | zero =>
    refine alike_of_body rfl ?_
    refine alike_of_reads (computes_consArrayTerminated hlists (hT.same_right hw)) ?_
    rw [any_ended hne, decide_eq_true (him ▸ le_rfl)]
    exact alike_ret hT.good trivial
  | succ m ih =>
    have hi : i < shortest xss := him ▸ Nat.lt_add_of_pos_right m.succ_pos
    have hlt := (lt_shortest hne).mp hi
    obtain ⟨args, r, pairs, hargs, hnew⟩ :=
      argList_newList hT.good.orderly_right (hlists.heads (hT.same_right hw) hlt)
    obtain ⟨lists', hlists', hadvance⟩ := hlists.advance hlt
    refine alike_of_body rfl ?_
    refine alike_of_reads (computes_consArrayTerminated hlists (hT.same_right hw)) ?_
    rw [any_ended hne, decide_eq_false (not_le.mpr hi), if_neg Bool.false_ne_true]
    refine hT.alike_cons hX hproc (has_tupleAt hxss) hf hargs hnew (q := fun _ => _) ?_
    rintro c' v v' - hT' hf' -
    refine alike_of_reads (hadvance _ (hT'.same_right hw)) ?_
    refine (ih hT' ?_ hf' hlists').bind_left fun c'' vs _ _ hgood _ => alike_ret hgood trivial
    omega

/-- The loop of `map`, with the results that it has behind a first pair. -/
theorem alike_mapLoop {result last : NaviObj} (hlists : ListsFrom w cells i lists xss)
    (hcollected : Collected c result last ys) :
    (worldSemantics X).Alike (World.course ∅) c
      (fun c' vs o => ∃ vs' pairs, c'.Names vs vs' ∧ Spine c'.right o pairs (ys ++ vs'))
      (mapCalls proc env ((List.range' i m).map (tupleAt xss)))
      (callFn (.mapLoop proc lists result last env) objs scopes) := by
  induction m generalizing i c lists last ys objs scopes with
  | zero =>
    obtain ⟨cdr, pairs, hresult, hspine⟩ := hcollected.spine
    refine alike_of_body (f := .mapLoop proc lists result last env) rfl ?_
    refine alike_of_reads (computes_consArrayTerminated hlists (hT.same_right hw)) ?_
    rw [any_ended hne, decide_eq_true (him ▸ le_rfl), if_pos rfl]
    refine Alike.of_evaluates .ret (computes_naviCdr hresult).evaluates
      ⟨c.names, c.naming, (World.course ∅).refl c, hT.good, [], pairs, names_nil, ?_⟩
    rwa [List.append_nil]
  | succ m ih =>
    have hi : i < shortest xss := him ▸ Nat.lt_add_of_pos_right m.succ_pos
    have hlt := (lt_shortest hne).mp hi
    obtain ⟨args, r, pairs, hargs, hnew⟩ :=
      argList_newList hT.good.orderly_right (hlists.heads (hT.same_right hw) hlt)
    obtain ⟨lists', hlists', hadvance⟩ := hlists.advance hlt
    refine alike_of_body (f := .mapLoop proc lists result last env) rfl ?_
    refine alike_of_reads (computes_consArrayTerminated hlists (hT.same_right hw)) ?_
    rw [any_ended hne, decide_eq_false (not_le.mpr hi), if_neg Bool.false_ne_true]
    refine hT.alike_cons hX hproc (has_tupleAt hxss) hf hargs hnew (q := fun _ => _) ?_
    rintro c' v v' hgrows hT' hf' hv
    -- the result goes behind the last one
    obtain ⟨a, r', rfl, hunknown, hadds, hset, hcollected'⟩ :=
      (hcollected.grows hgrows).snoc hT'.good v'
    have hT'' := hT'.of_adds hadds hunknown
    refine Alike.of_later (d := ⟨c'.names, c'.naming, c'.left, r'⟩) ?_
      (World.grows_right hadds.allocated) (fun _ => .rfl) fun _ =>
        (computes_make _ _).evaluates.bind_iff.trans hset.evaluates.bind_iff
    refine alike_of_reads (hadvance _ (hT''.same_right hw)) ?_
    refine (ih hT'' ?_ hf' hlists' hcollected').bind_left ?_
    · omega
    · rintro c'' vs o hgrows' hgood ⟨vs', pairs', hvs, hspine⟩
      refine alike_ret hgood ⟨v' :: vs', pairs', names_cons ?_ hvs, ?_⟩
      · exact hv.mono hgrows'.1 hgrows'.2.1
      · rwa [List.append_assoc] at hspine

variable (hvecs : List.Forall₂ (fun v xs => w.load v = .ok (.naviVector, .vector (xs.map some)) ∧
  v ∈ cells) vecs xss)
include hvecs

/-- The loop of `vector-for-each`. -/
theorem alike_vectorForEachLoop :
    (worldSemantics X).Alike (World.course ∅) c (fun _ _ _ => True)
      (mapCalls proc env ((List.range' i m).map (tupleAt xss)))
      (callFn (.vectorForEachLoop proc vecs i (shortest xss) env) objs scopes) := by
  induction m generalizing i c objs scopes with
  | zero =>
    refine alike_of_body (f := .vectorForEachLoop proc vecs i (shortest xss) env)
      (if_neg (him ▸ lt_irrefl _)) ?_
    exact alike_ret hT.good trivial
  | succ m ih =>
    have hi : i < shortest xss := him ▸ Nat.lt_add_of_pos_right m.succ_pos
    obtain ⟨args, r, pairs, hargs, hnew⟩ :=
      naviList_newList (F := evalFns) hT.good.orderly_right (tupleAt xss i)
    refine alike_of_body (f := .vectorForEachLoop proc vecs i (shortest xss) env) (if_pos hi) ?_
    refine alike_of_reads
      (computes_nthElements hvecs (hT.same_right hw) ((lt_shortest hne).mp hi)) ?_
    refine hT.alike_cons hX hproc (has_tupleAt hxss) hf hargs hnew (q := fun _ => _) ?_
    rintro c' v v' - hT' hf' -
    refine (ih hT' ?_ hf').bind_left fun c'' vs _ _ hgood _ => alike_ret hgood trivial
    omega

/-- The loop of `vector-map`, with the results that it has in a vector. -/
theorem alike_vectorMapLoop {result : NaviObj} (hgathered : Gathered c result m ys)
    (hlength : ys.length = i) :
    (worldSemantics X).Alike (World.course ∅) c
      (fun c' vs _ => ∃ vs', c'.Names vs vs' ∧
        c'.right.load result = .ok (.naviVector, .vector ((ys ++ vs').map some)))
      (mapCalls proc env ((List.range' i m).map (tupleAt xss)))
      (callFn (.vectorMapLoop proc vecs result i (shortest xss) env) objs scopes) := by
  induction m generalizing i c ys objs scopes with
  | zero =>
    refine alike_of_body (f := .vectorMapLoop proc vecs result i (shortest xss) env)
      (if_neg (him ▸ lt_irrefl _)) ?_
    refine alike_ret hT.good ⟨[], names_nil, ?_⟩
    simpa using hgathered.2
  | succ m ih =>
    have hi : i < shortest xss := him ▸ Nat.lt_add_of_pos_right m.succ_pos
    obtain ⟨args, r, pairs, hargs, hnew⟩ :=
      naviList_newList (F := evalFns) hT.good.orderly_right (tupleAt xss i)
    refine alike_of_body (f := .vectorMapLoop proc vecs result i (shortest xss) env) (if_pos hi) ?_
    refine alike_of_reads
      (computes_nthElements hvecs (hT.same_right hw) ((lt_shortest hne).mp hi)) ?_
    refine hT.alike_cons hX hproc (has_tupleAt hxss) hf hargs hnew (q := fun _ => _) ?_
    rintro c' v v' hgrows hT' hf' hv
    -- the result goes where it belongs
    obtain ⟨a, r', hunknown, hadds, hset, hgathered'⟩ := (hgathered.grows hgrows).snoc v'
    rw [hlength] at hset
    have hT'' := hT'.of_adds hadds hunknown
    refine alike_of_computes hset (World.grows_right hadds.allocated) ?_
    refine (ih hT'' ?_ hf' hgathered' ?_).bind_left ?_
    · omega
    · rw [List.length_append, hlength, List.length_singleton]
    · rintro c'' vs _ hgrows' hgood ⟨vs', hvs, hload⟩
      refine alike_ret hgood ⟨v' :: vs', names_cons ?_ hvs, ?_⟩
      · exact hv.mono hgrows'.1 hgrows'.2.1
      · rwa [List.append_assoc] at hload

end Loops

/-! ### The operations -/

theorem computes_naviCheckArity_inv {proc : NaviObj} {k : ℕ} {w' : World}
    (h : Computes (naviCheckArity proc k) w () w') : w' = w := by
  obtain ⟨p, -, hrest⟩ := h.of_bind_inspects (inspects_naviProcedure proc)
  split_ifs at hrest with hsat
  · exact hrest.ret_inv.2
  · have hnever : NeverReturns (do
        let expected ← naviMakeApair "expected" (.fixnum k)
        let actual ← naviMakeApair "actual" (.fixnum p.arity)
        naviError "wrong arity" [expected, actual] : Leaf Unit) :=
      .bind fun _ => .bind fun _ => neverReturns_naviError _ _
    exact absurd (computes_iff_runLeaf.mp hrest) (hnever _ _ _)

section Operations

variable {cells : Set NaviObj} {proc args : NaviObj} {env : NaviEnv}
  {lists vecs ps : List NaviObj} {xss : List (List NaviObj)} {c : Stage Readdressing Addr World}

/-- Both check first that the procedure takes as many arguments as there are sequences. -/
theorem alike_checked (cells : Set NaviObj) (hX : X.Natural) (hw : w.Closed) (hwf : w.Wf)
    (hproc : w.Has proc) (k : ℕ) {α β : Type}
    {Q : Stage Readdressing Addr World → α → β → Prop} {p : Code α} {p' : Code β}
    (h : ∀ V g, Traversing w cells ⟨V, g, w, w⟩ →
      (worldSemantics X).Alike (World.course ∅) ⟨V, g, w, w⟩ Q p p') :
    (worldSemantics X).Alike (World.course ∅) w.start Q
      (leaf env (naviCheckArity proc k) >>= fun _ => p)
      (leaf env (naviCheckArity proc k) >>= fun _ => p') := by
  have hc := hw.corresponds hwf
  have hnatural : Natural (leaf env (naviCheckArity proc k)) fun g =>
      leaf env (naviCheckArity (g • proc) k) := natural_leaf (natural_naviCheckArity proc k)
  have hcheck := alike_of_natural ∅ hX hc hnatural fun g g' hg => by
    rw [hnatural.1, hnatural.1]
    exact congrArg (fun o => leaf env (naviCheckArity o k)) (onlyOn_of_avoids hproc g g' hg)
  have hone : w.start.naming • proc = proc := one_smul _ proc
  rw [hone] at hcheck
  refine hcheck.bind ?_
  rintro ⟨V, g, l, r⟩ _ _ hgrows hgood - hl hr
  replace hl : l = w := computes_naviCheckArity_inv (computes_of_leaf hl)
  replace hr : r = w := computes_naviCheckArity_inv (computes_of_leaf hr)
  rw [hl, hr] at hgrows hgood ⊢
  exact h V g ⟨hgood, hgrows, fun _ _ => rfl⟩

/-- The objects that a procedure returns are in a list. -/
def ReturnsList (c : Stage Readdressing Addr World) (vs : List NaviObj) (o : NaviObj) : Prop :=
  ∃ vs' pairs, c.Names vs vs' ∧ Spine c.right o pairs vs'

/-- The objects that a procedure returns are in a vector. -/
def ReturnsVector (c : Stage Readdressing Addr World) (vs : List NaviObj) (o : NaviObj) : Prop :=
  ∃ vs', c.Names vs vs' ∧ c.right.load o = .ok (.naviVector, .vector (vs'.map some))

theorem World.Closed.has_of_spine {o : NaviObj} {xs : List NaviObj} (hw : w.Closed)
    (h : Spine w o ps xs) : ∀ x ∈ xs, w.Has x := by
  induction h with
  | nil => exact fun _ hx => absurd hx List.not_mem_nil
  | @cons o car cdr ps xs hp _ ih =>
    rintro x hx
    rcases List.mem_cons.mp hx with rfl | hx
    · exact hw.hides.load (hw.has_of_load hp) hp x (by simp [Data.objs])
    · exact ih x hx

/-- The operands of a mapping. -/
theorem computes_operands {seqs : List NaviObj} (hwf : w.Wf) (h : Spine w args ps (proc :: seqs)) :
    Computes (naviCar args : Code _) w proc w ∧
      ∃ cdr qs, Computes (naviCdr args : Code _) w cdr w ∧ Spine w cdr qs seqs ∧
        Computes (elements cdr : Code _) w seqs w := by
  cases h with
  | cons hp ht =>
    exact ⟨computes_naviCar hp, _, _, computes_naviCdr hp, ht, computes_elements hwf ht⟩

/-- The first pair of the list that `map` makes. -/
theorem Traversing.collected (hT : Traversing w cells c) :
    ∃ o r, Computes (naviMakePair .nil .nil : Code _) c.right o r ∧
      (World.course ∅).grows c ⟨c.names, c.naming, c.left, r⟩ ∧
      Traversing w cells ⟨c.names, c.naming, c.left, r⟩ ∧
      Collected ⟨c.names, c.naming, c.left, r⟩ o o [] := by
  have hadds : c.right.Adds ∅ (c.right.consed .nil .nil) := .make nofun
  have hpair : IsPair (c.right.consed .nil .nil) (.ptr (.obj c.right.nextObj)) .nil .nil :=
    isPair_ptr.mpr ((World.objs_consed _ _ _ _).trans (if_pos rfl))
  refine ⟨_, _, computes_make _ _, World.grows_right hadds.allocated,
    hT.of_adds hadds fun _ _ => Set.notMem_empty _, [], _, [], .nil, rfl, rfl,
    .cons hpair (.nil _), fun p hp => ?_⟩
  rw [List.mem_singleton.mp hp]
  exact hT.good.hidden c.right.not_allocated_nextObj
    ((c.right.allocated_make_pair _ _).mpr (.inr rfl))

/-- The vector that `vector-map` makes. -/
theorem Traversing.gathered (hT : Traversing w cells c) (m : ℕ) :
    ∃ o r, Computes (make .naviVector (.vector (List.replicate m none)) : Code _) c.right o r ∧
      (World.course ∅).grows c ⟨c.names, c.naming, c.left, r⟩ ∧
      Traversing w cells ⟨c.names, c.naming, c.left, r⟩ ∧
      Gathered ⟨c.names, c.naming, c.left, r⟩ o m [] := by
  have hadds : c.right.Adds ∅ (c.right.make .naviVector (.vector (List.replicate m none))).2 :=
    .make nofun
  refine ⟨_, _, computes_make _ _, World.grows_right hadds.allocated,
    hT.of_adds hadds fun _ _ => Set.notMem_empty _, ?_, World.load_make⟩
  rw [World.make_fst]
  exact hT.good.hidden (c.right.not_allocated_fresh _)
    ((c.right.allocated_make _ _ _).mpr (.inr rfl))

/-- The list of the elements of a vector. -/
theorem alike_naviVectorToList {vs : List NaviObj} {o : NaviObj} (hc : World.Corresponds c)
    (h : ReturnsVector c vs o) :
    (worldSemantics X).Alike (World.course ∅) c ReturnsList (.ret vs) (naviVectorToList o) := by
  obtain ⟨vs', hvs, hload⟩ := h
  obtain ⟨list, r, pairs, hrun, hnew⟩ := naviList_newList (F := evalFns) hc.orderly_right vs'
  have hdata : Computes (naviVector o : Code _) c.right (vs'.map some) c.right :=
    (computes_load hload).bind (Computes.ret _)
  refine Alike.of_evaluates .ret
    (hdata.bind ((computes_readAll vs' c.right).bind hrun)).evaluates
    ⟨c.names, c.naming, World.grows_right hnew.adds.allocated,
      hc.of_adds (.refl ∅ _) hnew.adds fun _ _ => Set.notMem_empty _, vs', pairs, hvs, hnew.spine⟩

theorem SequencesAt.has (hw : w.Closed) (h : SequencesAt w cells lists vecs xss) :
    ∀ xs ∈ xss, ∀ x ∈ xs, w.Has x := by
  obtain ⟨lists, hlists⟩ : ∃ lists, List.Forall₂ (fun l xs => ∃ ps, Spine w l ps xs) lists xss :=
    ⟨_, h.lists.imp fun _ _ hl => ⟨_, hl.choose_spec.1⟩⟩
  clear h
  induction hlists with
  | nil => exact fun _ h => absurd h List.not_mem_nil
  | cons hl _ ih =>
    rintro xs hxs
    rcases List.mem_cons.mp hxs with rfl | hxs
    · exact hw.has_of_spine hl.choose_spec
    · exact ih xs hxs

section

variable (hX : X.Natural) (hw : w.Closed) (hwf : w.Wf) (hne : xss ≠ [])
  (hxss : ∀ xs ∈ xss, ∀ x ∈ xs, w.Has x) (hf : LeavesAlone X proc env cells (tuples xss) w)
include hX hw hwf hne hxss hf

section Lists

variable (hargs : Spine w args ps (proc :: lists)) (hlists : ListsFrom w cells 0 lists xss)
include hargs hlists

/-- **`for-each`** -/
theorem alike_scmForEach :
    (worldSemantics X).Alike (World.course ∅) w.start (fun _ _ o => o = NaviObj.void)
      (mapping proc env xss) (scmForEach (xss.length + 1) args env) := by
  obtain ⟨hcar, cdr, qs, hcdr, -, helements⟩ := computes_operands hwf hargs
  have hproc : w.Has proc := hw.has_of_spine hargs proc List.mem_cons_self
  refine alike_of_reads hcar (alike_checked cells hX hw hwf hproc xss.length fun V g hT => ?_)
  refine alike_of_reads hcdr (alike_of_reads helements
    (alike_of_reads (computes_consArrayFill hlists).code ?_))
  rw [tuples_eq] at hf ⊢
  exact (alike_forEachLoop hX hw hproc hxss hne hT (Nat.zero_add _) hf hlists).bind_right
    fun c vs _ _ hgood _ => alike_ret hgood rfl

/-- **`map`** -/
theorem alike_scmMap :
    (worldSemantics X).Alike (World.course ∅) w.start ReturnsList
      (mapping proc env xss) (scmMap (xss.length + 1) args env) := by
  obtain ⟨hcar, cdr, qs, hcdr, -, helements⟩ := computes_operands hwf hargs
  have hproc : w.Has proc := hw.has_of_spine hargs proc List.mem_cons_self
  refine alike_of_reads hcar (alike_checked cells hX hw hwf hproc xss.length fun V g hT => ?_)
  refine alike_of_reads hcdr (alike_of_reads helements
    (alike_of_reads (computes_consArrayFill hlists).code ?_))
  obtain ⟨o, r, hmake, hgrows, hT', hcollected⟩ := hT.collected
  refine alike_of_computes hmake hgrows ?_
  rw [tuples_eq] at hf ⊢
  exact alike_mapLoop hX hw hproc hxss hne hT' (Nat.zero_add _) hf hlists hcollected

end Lists

section Vectors

variable (hargs : Spine w args ps (proc :: vecs))
  (hvecs : List.Forall₂ (fun v xs => w.load v = .ok (.naviVector, .vector (xs.map some)) ∧
    v ∈ cells) vecs xss)
include hargs hvecs

omit hX hf hxss hw in
/-- What the functions of `vector.c` find out first. -/
theorem computes_vectorOperands :
    ∃ cdr data, Computes (naviCdr args : Code _) w cdr w ∧
      Computes (elements cdr : Code _) w vecs w ∧
      Computes (naviCadr args : Code _) w (vecs.headD .nil) w ∧
      Computes (naviVector (vecs.headD .nil) : Code _) w data w ∧
      Computes (vectorArrayFill vecs data.length) w (shortest xss) w := by
  obtain ⟨-, cdr, qs, hcdr, hspine, helements⟩ := computes_operands hwf hargs
  have hfill := fun n => computes_vectorArrayFill hvecs (fun _ _ _ h => h) n
  cases hvecs with
  | nil => exact absurd rfl hne
  | @cons v xs vecs xss hv _ =>
    cases hspine with
    | cons hp _ =>
      have hdata : Computes (naviVector v : Code _) w (xs.map some) w :=
        (computes_load hv.1).bind (Computes.ret _)
      refine ⟨_, _, hcdr, helements, hcdr.bind (computes_naviCar hp), hdata, ?_⟩
      rw [← foldl_min_length, List.length_map]
      exact hfill xs.length

/-- **`vector-for-each`** -/
theorem alike_scmVectorForEach :
    (worldSemantics X).Alike (World.course ∅) w.start (fun _ _ o => o = NaviObj.void)
      (mapping proc env xss) (scmVectorForEach (xss.length + 1) args env) := by
  have hcar := (computes_operands hwf hargs).1
  obtain ⟨cdr, data, hcdr, helements, hcadr, hdata, hfill⟩ :=
    computes_vectorOperands hwf hne hargs hvecs
  have hproc : w.Has proc := hw.has_of_spine hargs proc List.mem_cons_self
  refine alike_of_reads hcar (alike_checked cells hX hw hwf hproc xss.length fun V g hT => ?_)
  refine alike_of_reads hcdr (alike_of_reads helements (alike_of_reads hcadr
    (alike_of_reads hdata (alike_of_reads hfill.code ?_))))
  rw [tuples_eq] at hf ⊢
  exact (alike_vectorForEachLoop hX hw hproc hxss hne hT (Nat.zero_add _) hf hvecs).bind_right
    fun c vs _ _ hgood _ => alike_ret hgood rfl

/-- **`vector-map`** -/
theorem alike_scmVectorMap :
    (worldSemantics X).Alike (World.course ∅) w.start ReturnsVector
      (mapping proc env xss) (scmVectorMap (xss.length + 1) args env) := by
  have hcar := (computes_operands hwf hargs).1
  obtain ⟨cdr, data, hcdr, helements, hcadr, hdata, hfill⟩ :=
    computes_vectorOperands hwf hne hargs hvecs
  have hproc : w.Has proc := hw.has_of_spine hargs proc List.mem_cons_self
  refine alike_of_reads hcar (alike_checked cells hX hw hwf hproc xss.length fun V g hT => ?_)
  refine alike_of_reads hcdr (alike_of_reads helements (alike_of_reads hcadr
    (alike_of_reads hdata (alike_of_reads hfill.code ?_))))
  obtain ⟨o, r, hmake, hgrows, hT', hgathered⟩ := hT.gathered (shortest xss)
  refine alike_of_computes hmake hgrows ?_
  rw [tuples_eq] at hf ⊢
  refine (alike_vectorMapLoop hX hw hproc hxss hne hT' (Nat.zero_add _) hf hvecs hgathered
    rfl).bind_right ?_
  rintro c vs - - hgood ⟨vs', hvs, hload⟩
  exact alike_ret hgood ⟨vs', hvs, hload⟩

end Vectors

end

/-- **The four operations make the same calls.** For any procedure that leaves the sequences
alone, `for-each` and `map` over lists, and `vector-for-each` and `vector-map` over vectors with
the same elements, come to what the calls come to: one for each index below the shortest length,
from the first on. The results are in the list that `map` returns and in the vector that
`vector-map` returns, each at the index of its call, and the list of the elements of that vector is
the list that `map` returns. -/
theorem alike_mappings {vargs : NaviObj} {qs : List NaviObj} (hX : X.Natural) (hw : w.Closed)
    (hwf : w.Wf) (hne : xss ≠ []) (hseqs : SequencesAt w cells lists vecs xss)
    (hargs : Spine w args ps (proc :: lists)) (hvargs : Spine w vargs qs (proc :: vecs))
    (hf : LeavesAlone X proc env cells (tuples xss) w) :
    (worldSemantics X).Alike (World.course ∅) w.start (fun _ _ o => o = NaviObj.void)
        (mapping proc env xss) (scmForEach (xss.length + 1) args env) ∧
      (worldSemantics X).Alike (World.course ∅) w.start (fun _ _ o => o = NaviObj.void)
        (mapping proc env xss) (scmVectorForEach (xss.length + 1) vargs env) ∧
      (worldSemantics X).Alike (World.course ∅) w.start ReturnsList
        (mapping proc env xss) (scmMap (xss.length + 1) args env) ∧
      (worldSemantics X).Alike (World.course ∅) w.start ReturnsVector
        (mapping proc env xss) (scmVectorMap (xss.length + 1) vargs env) ∧
      (worldSemantics X).Alike (World.course ∅) w.start ReturnsList
        (mapping proc env xss)
        (scmVectorMap (xss.length + 1) vargs env >>= fun vec => naviVectorToList vec) := by
  have hxss := hseqs.has hw
  have hvector := alike_scmVectorMap hX hw hwf hne hxss hf hvargs hseqs.vecs
  refine ⟨alike_scmForEach hX hw hwf hne hxss hf hargs hseqs.lists,
    alike_scmVectorForEach hX hw hwf hne hxss hf hvargs hseqs.vecs,
    alike_scmMap hX hw hwf hne hxss hf hargs hseqs.lists, hvector, hvector.bind_right ?_⟩
  exact fun c vs o _ hgood ho => alike_naviVectorToList hgood ho

/-- A world with `cons`, the lists `(5 7)` and `(9)`, the vectors `#(5 7)` and `#(9)`, and the
arguments that a mapping of `cons` over them has. -/
def mappingWorld : World :=
  let o (n : ℕ) : NaviObj := .ptr (.obj n)
  .ofCells
    [(.naviProcedure, .proc ⟨false, 2, .nil, 0, .nil, .cProc .scmCons, none⟩),
      -- (7), (5 7), (9)
      (.naviPair, .pair (some (.fixnum 7)) (some .nil)),
      (.naviPair, .pair (some (.fixnum 5)) (some (o 1))),
      (.naviPair, .pair (some (.fixnum 9)) (some .nil)),
      -- #(5 7), #(9)
      (.naviVector, .vector [some (.fixnum 5), some (.fixnum 7)]),
      (.naviVector, .vector [some (.fixnum 9)]),
      -- the arguments with the lists
      (.naviPair, .pair (some (o 3)) (some .nil)),
      (.naviPair, .pair (some (o 2)) (some (o 6))),
      (.naviPair, .pair (some (o 0)) (some (o 7))),
      -- the arguments with the vectors
      (.naviPair, .pair (some (o 5)) (some .nil)),
      (.naviPair, .pair (some (o 4)) (some (o 9))),
      (.naviPair, .pair (some (o 0)) (some (o 10)))]
    [] [⟨none, []⟩] []

/-- `cons` leaves them alone. -/
theorem leavesAlone_mappingWorld : LeavesAlone noExternals (.ptr (.obj 0)) ⟨0, 0⟩
    {o | ∃ n < 12, o = .ptr (.obj n)} (tuples [[.fixnum 5, .fixnum 7], [.fixnum 9]])
    mappingWorld := by
  rintro args w₁ v w₂ hlist hret
  let call : Code NaviObj := do
    let args ← naviList [.fixnum 5, .fixnum 9]
    callFn (.applyForce (.ptr (.obj 0)) args ⟨0, 0⟩) [] []
  have hcall : (worldSemantics noExternals).Evaluates call mappingWorld (.ok v w₂) :=
    hlist.evaluates.bind (evaluates_callFn.mpr hret)
  obtain ⟨w', hrun⟩ := Res.value?_eq_some.mp (show ((worldSemantics noExternals).run 9 call
    mappingWorld).value? = some (.ptr (.obj 14)) by decide)
  obtain ⟨-, rfl⟩ := Res.ok.inj (hcall.unique ⟨nofun, 9, hrun⟩)
  have hobjs : ∀ n < 12, ((worldSemantics noExternals).run 9 call mappingWorld).final.map
      (fun w => w.objs (.obj n)) = some (mappingWorld.objs (.obj n)) := by decide
  refine ⟨?_, trivial⟩
  rintro _ ⟨n, hn, rfl⟩
  have hobj : w₂.objs (.obj n) = mappingWorld.objs (.obj n) := by
    have hfinal := hobjs n hn
    rw [hrun] at hfinal
    exact Option.some.inj hfinal
  rw [World.load, World.load, hobj]

theorem alike_mappings_cons :
    let calls := mapping (.ptr (.obj 0)) ⟨0, 0⟩ [[.fixnum 5, .fixnum 7], [.fixnum 9]]
    (worldSemantics noExternals).Alike (World.course ∅) mappingWorld.start ReturnsList calls
        (scmMap 3 (.ptr (.obj 8)) ⟨0, 0⟩) ∧
      (worldSemantics noExternals).Alike (World.course ∅) mappingWorld.start ReturnsVector calls
        (scmVectorMap 3 (.ptr (.obj 11)) ⟨0, 0⟩) := by
  have hseqs : SequencesAt mappingWorld {o | ∃ n < 12, o = .ptr (.obj n)}
      [.ptr (.obj 2), .ptr (.obj 3)] [.ptr (.obj 4), .ptr (.obj 5)]
      [[.fixnum 5, .fixnum 7], [.fixnum 9]] := by
    refine ⟨.cons ⟨_, .cons rfl (.cons rfl .nil), ?_⟩ (.cons ⟨_, .cons rfl .nil, ?_⟩ .nil),
      .cons ⟨rfl, 4, by decide, rfl⟩ (.cons ⟨rfl, 5, by decide, rfl⟩ .nil)⟩ <;> simp
  have hargs : Spine mappingWorld (.ptr (.obj 8)) [.ptr (.obj 8), .ptr (.obj 7), .ptr (.obj 6)]
      [.ptr (.obj 0), .ptr (.obj 2), .ptr (.obj 3)] := .cons rfl (.cons rfl (.cons rfl .nil))
  have hvargs : Spine mappingWorld (.ptr (.obj 11))
      [.ptr (.obj 11), .ptr (.obj 10), .ptr (.obj 9)]
      [.ptr (.obj 0), .ptr (.obj 4), .ptr (.obj 5)] := .cons rfl (.cons rfl (.cons rfl .nil))
  obtain ⟨-, -, hmap, hvectorMap, -⟩ := alike_mappings noExternals_natural
    (World.closed_ofCells (by decide) (by decide) (by decide) (by decide))
    (World.wf_ofCells (by decide)) (by decide) hseqs hargs hvargs leavesAlone_mappingWorld
  exact ⟨hmap, hvectorMap⟩

end Operations

end NaviScheme
