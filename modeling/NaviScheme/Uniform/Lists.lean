import NaviScheme.Sequences.Lists
import NaviScheme.Uniform.Run

/-!
# Lists of new pairs

The lists of arguments that `arg_list` makes, in `list.c` and in `vector.c`. Each of the two makes
its pairs one behind the other, and nothing else (`NaviScheme.NewList`).

Programs that go together may make a list of corresponding elements each in its own way. The
worlds correspond still, and the lists may be taken to be known from then on
(`NaviScheme.World.Corresponds.lists`).
-/

namespace NaviScheme

open Prog

variable {F : FnSig} {w w₀ w₁ w' : World} {a : Addr} {n : ℕ} {o x y v list : NaviObj}
  {pairs xs : List NaviObj}

/-- An object that is in a world, and has not been in an earlier one. -/
def IsMade (w w' : World) (p : NaviObj) : Prop :=
  ∃ n, p = .ptr (.obj n) ∧ ¬ w.Allocated (.obj n) ∧ w'.Allocated (.obj n)

/-- A list of new pairs, the only objects that have been made. -/
structure NewList (w w' : World) (list : NaviObj) (pairs xs : List NaviObj) : Prop where
  /-- the other objects are as they were -/
  adds : w.Adds ∅ w'
  /-- the list -/
  spine : Spine w' list pairs xs
  /-- its pairs are new -/
  new : ∀ p ∈ pairs, IsMade w w' p

/-- New pairs behind the one that holds `x` at `a`. -/
structure NewBehind (w : World) (a : Addr) (x : NaviObj) (w' : World) (pairs xs : List NaviObj) :
    Prop where
  /-- the other objects are as they were -/
  adds : w.Adds {a} w'
  /-- the pairs are behind the one at `a` -/
  last : ∃ rest, w'.objs a = some (.naviPair, .pair (some x) (some rest)) ∧ Spine w' rest pairs xs
  /-- they are new -/
  new : ∀ p ∈ pairs, IsMade w w' p

/-- What is new in a later world is new. -/
theorem IsMade.of_adds {own : Set Addr} {p : NaviObj} (h : IsMade w₁ w' p) (hadds : w.Adds own w₁) :
    IsMade w w' p := by
  obtain ⟨n, rfl, hn, hn'⟩ := h
  exact ⟨n, rfl, fun hw => hn (hadds.allocated _ hw), hn'⟩

/-! ### Pairs, one behind the other -/

theorem World.Orderly.allocated_of_pair {car cdr : Option NaviObj} (hw : w.Orderly)
    (h : w.objs a = some (.naviPair, .pair car cdr)) : w.Allocated a := by
  cases a with
  | thunk n => exact (hw.mayHold _ _ h).elim
  | obj n =>
    by_contra hn
    rw [hw.objs n (not_lt.mp hn)] at h
    cases h

/-- Pairs stay as they were. -/
theorem World.Adds.isPair {car cdr : NaviObj} {own : Set Addr} (h : w.Adds own w')
    (hw : w.Orderly) (hp : IsPair w o car cdr) (ho : ∀ a ∈ own, o ≠ .ptr a) :
    IsPair w' o car cdr := by
  obtain ⟨a, rfl, ha⟩ := hp.ptr
  rw [isPair_ptr, h.objs a (hw.allocated_of_pair ha) fun hmem => ho a hmem rfl, ha]

theorem World.Adds.spine {own : Set Addr} (h : w.Adds own w') (hw : w.Orderly)
    (hs : Spine w o pairs xs) (ho : ∀ a ∈ own, NaviObj.ptr a ∉ pairs) : Spine w' o pairs xs :=
  hs.of_isPair fun _ hp _ _ hpair => h.isPair hw hpair fun a ha heq => ho a ha (heq ▸ hp)

/-- What has been written behind objects that are new stays new. -/
theorem World.Adds.of_new (h : w₀.Adds ∅ w) (h' : w.Adds {a} w') (ha : ¬ w₀.Allocated a) :
    w₀.Adds ∅ w' :=
  h.trans h' fun _ hb hw => absurd (Set.mem_singleton_iff.mp hb ▸ hw) ha

/-- A pair that is written. -/
theorem World.Adds.setPair {car cdr : Option NaviObj} (car' cdr' : Option NaviObj)
    (hw : w.Orderly)
    (h : w.objs a = some (.naviPair, .pair car cdr)) :
    w.Adds {a} (w.setObj a (.naviPair, .pair car' cdr')) := by
  have ha := hw.allocated_of_pair h
  cases a with
  | obj n => exact .setObj ha trivial
  | thunk n => exact (hw.mayHold _ _ h).elim

/-- Pairs behind another that is new. -/
theorem NewBehind.cons (hadds : w.Adds {a} w₁) (ha : w.Allocated a) (hnew : ¬ w.Allocated (.obj n))
    (hn : w₁.Allocated (.obj n))
    (hobj : w₁.objs a = some (.naviPair, .pair (some x) (some (.ptr (.obj n)))))
    (h : NewBehind w₁ (.obj n) y w' pairs xs) :
    NewBehind w a x w' (.ptr (.obj n) :: pairs) (y :: xs) where
  adds := hadds.trans h.adds fun b hb hw => absurd (Set.mem_singleton_iff.mp hb ▸ hw) hnew
  last := by
    obtain ⟨rest, hlast, hspine⟩ := h.last
    have hne : a ∉ ({.obj n} : Set Addr) := fun hmem =>
      hnew (Set.mem_singleton_iff.mp hmem ▸ ha)
    exact ⟨_, (h.adds.objs a (hadds.allocated a ha) hne).trans hobj,
      .cons (isPair_ptr.mpr hlast) hspine⟩
  new := by
    rintro p hp
    rcases List.mem_cons.mp hp with rfl | hp
    · exact ⟨n, rfl, hnew, h.adds.allocated _ hn⟩
    · exact (h.new p hp).of_adds hadds

/-- What a pair and those behind it are. -/
theorem NewBehind.newList (hadds : w.Adds ∅ w₁) (hnew : ¬ w.Allocated (.obj n))
    (hn : w₁.Allocated (.obj n)) (h : NewBehind w₁ (.obj n) y w' pairs xs) :
    NewList w w' (.ptr (.obj n)) (.ptr (.obj n) :: pairs) (y :: xs) where
  adds := hadds.of_new h.adds hnew
  spine := by
    obtain ⟨rest, hlast, hspine⟩ := h.last
    exact .cons (isPair_ptr.mpr hlast) hspine
  new := by
    rintro p hp
    rcases List.mem_cons.mp hp with rfl | hp
    · exact ⟨n, rfl, hnew, h.adds.allocated _ hn⟩
    · exact (h.new p hp).of_adds hadds

theorem NewList.nil (w : World) : NewList w w .nil [] [] := ⟨.refl ∅ w, .nil, by simp⟩

/-! ### The two ways of making a list -/

section Making

variable {d : Data}

/-- A world with a new pair behind the one that holds `x` at `a`. -/
def World.behind (w : World) (a : Addr) (x : NaviObj) (d : Data) : World :=
  (w.make .naviPair d).2.setObj a (.naviPair, .pair (some x) (some (.ptr (.obj w.nextObj))))

theorem World.objs_behind (w : World) (a : Addr) (x : NaviObj) (d : Data) (b : Addr) :
    (w.behind a x d).objs b =
      if b = a then some (.naviPair, .pair (some x) (some (.ptr (.obj w.nextObj))))
      else if b = .obj w.nextObj then some (.naviPair, d) else w.objs b := by
  rw [World.behind, World.objs_setObj, World.objs_make_pair]

theorem World.allocated_behind (w : World) (a : Addr) (x : NaviObj) (d : Data) :
    (w.behind a x d).Allocated (.obj w.nextObj) :=
  (w.allocated_make_pair d _).mpr (.inr rfl)

theorem World.Orderly.ne_nextObj (hw : w.Orderly) {c : NaviType × Data} (h : w.objs a = some c) :
    a ≠ .obj w.nextObj := by
  rintro rfl
  rw [hw.objs _ le_rfl] at h
  cases h

variable {cdr : Option NaviObj} (hw : w.Orderly)
  (hobj : w.objs a = some (.naviPair, .pair (some x) cdr))
include hw hobj

theorem World.Adds.behind : w.Adds {a} (w.behind a x d) := by
  have hmake : w.Adds ∅ (w.make .naviPair d).2 := .make nofun
  have hset : (w.make .naviPair d).2.Adds {a} (w.behind a x d) :=
    .setPair _ _ (hmake.orderly hw) ((w.objs_make_pair d a).trans (by
      rw [if_neg (hw.ne_nextObj hobj), hobj]))
  exact (hmake.mono (Set.empty_subset _)).trans hset fun _ hb _ => hb

theorem computes_naviSetCdr_behind : Computes (naviSetCdr (.ptr a) (.ptr (.obj w.nextObj)) :
    Prog evalOps F _) (w.make .naviPair d).2 () (w.behind a x d) := by
  have hmade : (w.make .naviPair d).2.objs a = some (.naviPair, .pair (some x) cdr) := by
    rw [World.objs_make_pair, if_neg (hw.ne_nextObj hobj), hobj]
  exact computes_naviSetCdr _ (World.load_ptr hmade)

omit hw hobj in
/-- The pairs that are made from a vector. -/
theorem appendPairs_newBehind (xs : List NaviObj) (hw : w.Orderly)
    (hobj : w.objs a = some (.naviPair, .pair (some x) cdr)) :
    ∃ w' pairs, Computes (appendPairs (.ptr a) xs : Prog evalOps F _) w () w' ∧
      NewBehind w a x w' pairs xs := by
  induction xs generalizing w a x cdr with
  | nil =>
    refine ⟨_, [], computes_naviSetCdr .nil (World.load_ptr hobj), .setPair _ _ hw hobj,
      ⟨.nil, ?_, .nil⟩, by simp⟩
    rw [World.objs_setObj, if_pos rfl]
  | cons v xs ih =>
    have hbehind : w.Adds {a} (w.behind a x (.pair none none)) := .behind hw hobj
    have hcell : (w.behind a x (.pair none none)).objs (.obj w.nextObj) =
        some (.naviPair, .pair none none) := by
      rw [World.objs_behind, if_neg (hw.ne_nextObj hobj).symm, if_pos rfl]
    have hset := World.Adds.setPair (some v) none (hbehind.orderly hw) hcell
    have hadds := hbehind.trans hset fun b hb hlt =>
      absurd (Set.mem_singleton_iff.mp hb ▸ hlt) w.not_allocated_nextObj
    obtain ⟨w', pairs, hrun, hnew⟩ := ih (hadds.orderly hw)
      ((World.objs_setObj _ _ _ _).trans (if_pos rfl))
    refine ⟨w', _, ?_, hnew.cons hadds (hw.allocated_of_pair hobj) w.not_allocated_nextObj
      (hset.allocated _ (w.allocated_behind a x _)) ?_⟩
    · refine (computes_make _ _).bind ((computes_naviSetCdr_behind hw hobj).bind ?_)
      exact (computes_naviSetCar v (World.load_ptr hcell)).bind hrun
    · rw [World.objs_setObj, if_neg (hw.ne_nextObj hobj), World.objs_behind, if_pos rfl]

end Making

/-- **The list that is made from a vector** is new. -/
theorem naviList_newList (hw : w.Orderly) (xs : List NaviObj) :
    ∃ list w' pairs, Computes (naviList xs : Prog evalOps F _) w list w' ∧
      NewList w w' list pairs xs := by
  cases xs with
  | nil => exact ⟨.nil, w, [], Computes.ret _, .nil w⟩
  | cons x xs =>
    have hmake : w.Adds ∅ (w.make .naviPair (.pair none none)).2 := .make nofun
    have hcell : (w.make .naviPair (.pair none none)).2.objs (.obj w.nextObj) =
        some (.naviPair, .pair none none) := (w.objs_make_pair _ _).trans (if_pos rfl)
    have hset := World.Adds.setPair (some x) none (hmake.orderly hw) hcell
    have hadds := hmake.of_new hset w.not_allocated_nextObj
    obtain ⟨w', pairs, hrun, hnew⟩ := appendPairs_newBehind (F := F) xs (hadds.orderly hw)
      ((World.objs_setObj _ _ _ _).trans (if_pos rfl))
    refine ⟨_, w', _, (computes_make _ _).bind ((computes_naviSetCar x (World.load_ptr hcell)).bind
      (hrun.bind (Computes.ret _))), hnew.newList hadds w.not_allocated_nextObj ?_⟩
    exact hset.allocated _ ((w.allocated_make_pair _ _).mpr (.inr rfl))

/-- The pairs that are made from the first elements of lists. -/
theorem argListLoop_newBehind {lists : List NaviObj} (hw : w.Orderly)
    (hlists : List.Forall₂ (fun l x => ∃ cdr, IsPair w₀ l x cdr) lists xs) (hw₀ : w₀.Orderly)
    (hadds : w₀.Adds ∅ w) (ha : ¬ w₀.Allocated a)
    (hobj : w.objs a = some (.naviPair, .pair (some x) (some .nil))) :
    ∃ w' pairs, Computes (argListLoop (.ptr a) lists) w () w' ∧ NewBehind w a x w' pairs xs := by
  induction hlists generalizing w a x with
  | nil => exact ⟨w, [], Computes.ret _, .refl {a} w, ⟨.nil, hobj, .nil⟩, by simp⟩
  | @cons l v lists xs hl _ ih =>
    obtain ⟨cdr, hl⟩ := hl
    have hpair : IsPair w l v cdr := hadds.isPair hw₀ hl fun b hb => absurd hb (Set.notMem_empty b)
    have hbehind : w.Adds {a} (w.behind a x (.pair (some v) (some .nil))) := .behind hw hobj
    have hcell : (w.behind a x (.pair (some v) (some .nil))).objs (.obj w.nextObj) =
        some (.naviPair, .pair (some v) (some .nil)) := by
      rw [World.objs_behind, if_neg (hw.ne_nextObj hobj).symm, if_pos rfl]
    obtain ⟨w', pairs, hrun, hnew⟩ := ih (hbehind.orderly hw) (hadds.of_new hbehind ha)
      (fun h => w.not_allocated_nextObj (hadds.allocated _ h)) hcell
    refine ⟨w', _, ?_, hnew.cons hbehind (hw.allocated_of_pair hobj) w.not_allocated_nextObj
      (w.allocated_behind a x _) ?_⟩
    · refine (computes_naviCar hpair).bind ((computes_make _ _).bind ?_)
      exact (computes_naviSetCdr_behind hw hobj).bind hrun
    · rw [World.objs_behind, if_pos rfl]

/-- **The list that is made from the first elements of lists** is new. -/
theorem argList_newList {lists : List NaviObj} (hw : w.Orderly)
    (hlists : List.Forall₂ (fun l x => ∃ cdr, IsPair w l x cdr) lists xs) :
    ∃ list w' pairs, Computes (argList lists) w list w' ∧ NewList w w' list pairs xs := by
  have hmake : w.Adds ∅ (w.consed .nil .nil) := .make nofun
  have hcell : (w.consed .nil .nil).objs (.obj w.nextObj) =
      some (.naviPair, .pair (some .nil) (some .nil)) :=
    (w.objs_consed .nil .nil _).trans (if_pos rfl)
  obtain ⟨w', pairs, hrun, hnew⟩ :=
    argListLoop_newBehind (hmake.orderly hw) hlists hw hmake w.not_allocated_nextObj hcell
  obtain ⟨rest, hlast, hspine⟩ := hnew.last
  refine ⟨rest, w', pairs, (computes_make _ _).bind (hrun.bind
    (computes_naviCdr (isPair_ptr.mpr hlast))), hmake.of_new hnew.adds w.not_allocated_nextObj,
    hspine, fun p hp => (hnew.new p hp).of_adds hmake⟩

/-! ### Lists that correspond -/

section Corresponding

variable {c : Stage Readdressing Addr World} {kept : Set Addr} {list' : NaviObj}
  {pairs' xs' : List NaviObj}

theorem names_pair {σ : Type} {c : Stage Readdressing Addr σ} {car car' cdr cdr' : NaviObj}
    (hcar : c.Names car car') (hcdr : c.Names cdr cdr') :
    c.Names (Data.pair (some car) (some cdr)) (.pair (some car') (some cdr')) := by
  obtain ⟨rfl, hcar⟩ := hcar
  obtain ⟨rfl, hcdr⟩ := hcdr
  exact ⟨rfl, fun g g' hg => congrArg₂ (Data.pair · ·) (congrArg some (hcar g g' hg))
    (congrArg some (hcdr g g' hg))⟩

/-- A pair that is not known becomes known, if its fields are. -/
theorem World.Corresponds.insert_pair {a a' : Addr} {car car' cdr cdr' : NaviObj}
    (hc : World.Corresponds c) (hp : IsPair c.left (.ptr a) car cdr)
    (hp' : IsPair c.right (.ptr a') car' cdr') (ha : c.left.Allocated a) (hnew : a ∉ c.names)
    (ha' : c.right.Allocated a') (hnew' : ∀ b ∈ c.names, c.naming • b ≠ a')
    (hkind : a.SameKind a') (hcar : c.Names car car') (hcdr : c.Names cdr cdr') :
    ∃ g, (∀ b ∈ c.names, c.naming • b = g • b) ∧ g • a = a' ∧
      World.Corresponds ⟨Insert.insert a c.names, g, c.left, c.right⟩ := by
  refine hc.insert ha hnew ha' hnew' hkind ?_
  rw [isPair_ptr.mp hp, isPair_ptr.mp hp']
  exact names_some.mpr (names_mk (names_fixed NaviType.naviPair) (names_pair hcar hcdr))

/-- A list whose pairs are not known becomes known, from its last pair to its first. -/
theorem World.Corresponds.insert_spine (hc : World.Corresponds c)
    (hl : Spine c.left list pairs xs) (hr : Spine c.right list' pairs' xs')
    (hnew : ∀ p ∈ pairs, ∃ n, p = .ptr (.obj n) ∧ c.left.Allocated (.obj n) ∧ .obj n ∉ c.names)
    (hnew' : ∀ p ∈ pairs', ∃ n, p = .ptr (.obj n) ∧ c.right.Allocated (.obj n) ∧
      ∀ b ∈ c.names, c.naming • b ≠ .obj n)
    (hxs : c.Names xs xs') :
    ∃ g, (∀ b ∈ c.names, c.naming • b = g • b) ∧ (∀ b, .ptr b ∈ pairs → .ptr (g • b) ∈ pairs') ∧
      World.Corresponds ⟨c.names ∪ {b | .ptr b ∈ pairs}, g, c.left, c.right⟩ ∧
      (⟨c.names ∪ {b | .ptr b ∈ pairs}, g, c.left, c.right⟩ :
        Stage Readdressing Addr World).Names list list' := by
  induction hl generalizing list' pairs' xs' with
  | nil =>
    obtain rfl : xs' = [] := hxs.1
    cases hr
    refine ⟨c.naming, fun _ _ => rfl, by simp, ?_, ⟨rfl, fun _ _ _ => rfl⟩⟩
    simpa using hc
  | @cons o car cdr pairs xs hp ht ih =>
    obtain ⟨rfl, honly⟩ := hxs
    have hcar : c.Names car (c.naming • car) :=
      ⟨rfl, fun g g' hg => (List.cons.inj (honly g g' hg)).1⟩
    have htail : c.Names xs (c.naming • xs) :=
      ⟨rfl, fun g g' hg => (List.cons.inj (honly g g' hg)).2⟩
    rw [smul_list_cons] at hr
    obtain ⟨n, rfl, hn, hunknown⟩ := hnew o List.mem_cons_self
    have hnotmem : NaviObj.ptr (.obj n) ∉ pairs := (List.nodup_cons.mp (Spine.cons hp ht).nodup).1
    cases hr with
    | @cons _ _ cdr' pairs' _ hp' ht' =>
    obtain ⟨m, rfl, hm, hunknown'⟩ := hnew' list' List.mem_cons_self
    have hnotmem' : NaviObj.ptr (.obj m) ∉ pairs' :=
      (List.nodup_cons.mp (Spine.cons hp' ht').nodup).1
    obtain ⟨g, hagrees, hpairs, hcor, hcdr⟩ := ih ht'
      (fun p hp => hnew p (List.mem_cons_of_mem _ hp))
      (fun p hp => hnew' p (List.mem_cons_of_mem _ hp)) htail
    -- the first pair, after those behind it
    have hfresh : Addr.obj n ∉ c.names ∪ {b | .ptr b ∈ pairs} := by
      rintro (h | h)
      · exact hunknown h
      · exact hnotmem h
    have hfresh' : ∀ b ∈ c.names ∪ {b | .ptr b ∈ pairs}, g • b ≠ .obj m := by
      rintro b (h | h) heq
      · exact hunknown' b h ((hagrees b h).trans heq)
      · exact hnotmem' (heq ▸ hpairs b h)
    obtain ⟨g', hagrees', hfirst, hcor'⟩ := hcor.insert_pair hp hp' hn hfresh hm hfresh' trivial
      (hcar.mono Set.subset_union_left hagrees) hcdr
    have hset : Insert.insert (Addr.obj n) (c.names ∪ {b | .ptr b ∈ pairs}) =
        c.names ∪ {b | .ptr b ∈ NaviObj.ptr (.obj n) :: pairs} := by
      ext b
      simp [or_left_comm]
    rw [hset] at hcor'
    refine ⟨g', fun b hb => (hagrees b hb).trans (hagrees' b (.inl hb)), fun b hb => ?_, hcor',
      names_ptr.mpr ⟨hfirst.symm, fun g g' hg => hg _ (.inr List.mem_cons_self)⟩⟩
    rcases List.mem_cons.mp hb with heq | hb
    · rw [NaviObj.ptr.inj heq, hfirst]
      exact List.mem_cons_self
    · exact List.mem_cons_of_mem _ (hagrees' b (.inr hb) ▸ hpairs b hb)

variable (kept) in
/-- **New lists of corresponding elements may be taken to correspond.** -/
theorem World.Corresponds.lists (hc : World.Corresponds c) {l r : World}
    (hl : NewList c.left l list pairs xs) (hr : NewList c.right r list' pairs' xs')
    (hxs : c.Names xs xs') :
    ∃ V g, (World.course kept).grows c ⟨V, g, l, r⟩ ∧ World.Corresponds ⟨V, g, l, r⟩ ∧
      (⟨V, g, l, r⟩ : Stage Readdressing Addr World).Names list list' := by
  have hmade := hc.of_adds hl.adds hr.adds fun _ _ => Set.notMem_empty _
  obtain ⟨g, hagrees, hpairs, hcor, hlist⟩ := hmade.insert_spine hl.spine hr.spine
    (fun p hp => by
      obtain ⟨n, rfl, hn, hn'⟩ := hl.new p hp
      exact ⟨n, rfl, hn', fun hmem => hn (hc.allocated_left _ hmem)⟩)
    (fun p hp => by
      obtain ⟨n, rfl, hn, hn'⟩ := hr.new p hp
      exact ⟨n, rfl, hn', fun b hb heq => hn (heq ▸ hc.allocated_right b hb)⟩) hxs
  refine ⟨_, g, ⟨Set.subset_union_left, hagrees, hr.adds.allocated, ?_, fun b _ hb _ =>
    hr.adds.objs b hb (Set.notMem_empty b)⟩, hcor, hlist⟩
  rintro a (ha | ha) halloc
  · exact ha
  · obtain ⟨n, hn, hold, -⟩ := hr.new _ (hpairs a ha)
    exact absurd (NaviObj.ptr.inj hn ▸ halloc) hold

end Corresponding

end NaviScheme
