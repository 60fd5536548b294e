import NaviScheme.Eval.Handover

/-!
# `apply`

`apply` puts the elements of its last argument behind the other arguments by writing the pair
before the last one of the list of its arguments. That pair is one of those that
`procedure_call` has made if `apply` is called by a call form. If `apply` is called through
`apply`, the list ends with pairs of the last argument of the outer call, which the program
can reach, and the pair that is written may be one of these. `NaviScheme.apply_iff` says for
any number of levels when it is not.
-/

namespace NaviScheme

open Prog

variable {X : Externals} {w w' w₁ : World} {o f l x : NaviObj} {env : NaviEnv} {n m : ℕ}
  {roots pairs ps us xs ls zs : List NaviObj} {P : Addr} {q : NaviObj} {R : Addr → Prop}

/-! ### What a program can reach -/

/-- **What a program can reach** that has the objects `roots`: these, what is bound in any scope,
symbols, libraries, and what an object refers to that it can reach. -/
inductive World.Reachable (w : World) (roots : List NaviObj) : NaviObj → Prop
  /-- the objects it has -/
  | root {o : NaviObj} (ho : o ∈ roots) : w.Reachable roots o
  /-- the name of a binding -/
  | name {s : ScopeAddr} {sc : WorldScope} {b : NaviBinding} (hs : w.scopes s = some sc)
    (hb : b ∈ sc.bindings) : w.Reachable roots b.symbol
  /-- the object of a binding -/
  | binding {s : ScopeAddr} {sc : WorldScope} {b : NaviBinding} (hs : w.scopes s = some sc)
    (hb : b ∈ sc.bindings) : w.Reachable roots b.object
  /-- a symbol of the symbol table -/
  | symbol {e : String × Addr} (he : e ∈ w.symtab) : w.Reachable roots (.ptr e.2)
  /-- the name of a library -/
  | libraryName {lib : NaviLibrary} (hlib : lib ∈ w.libraries) : w.Reachable roots lib.name
  /-- the declarations or the exports of a library -/
  | libraryList {lib : NaviLibrary} (hlib : lib ∈ w.libraries) : w.Reachable roots lib.list
  /-- what an object refers to -/
  | ref {o o' : NaviObj} {c : NaviType × Data} (ho : w.Reachable roots o) (hload : w.load o = .ok c)
    (ho' : o' ∈ c.2.objs) : w.Reachable roots o'

/-- What is hidden cannot be reached. -/
theorem World.Reachable.avoids {S : Addr → Prop} (hw : w.Hides S) (hroots : ∀ o ∈ roots, Avoids S o)
    (h : w.Reachable roots o) : Avoids S o := by
  induction h with
  | root ho => exact hroots _ ho
  | name hs hb => exact (hw.scopes _ _ hs _ hb).1
  | binding hs hb => exact (hw.scopes _ _ hs _ hb).2
  | symbol he => exact hw.symtab _ he
  | libraryName hlib => exact (hw.libraries _ hlib).1
  | libraryList hlib => exact (hw.libraries _ hlib).2
  | ref ho hload ho' ih => exact hw.load ih hload _ ho'

/-! ### The list of the arguments -/

/-- What `apply` does before it applies the procedure: the procedure, and the list of its
arguments. -/
def applyArgs (args : NaviObj) (env : NaviEnv) : Code (NaviObj × NaviObj) := do
  let (pairs, _) ← walk args
  leaf env (applyFlatten args pairs)
  return (← naviCar args, ← naviCdr args)

theorem scmApply_eq (args : NaviObj) (env : NaviEnv) :
    scmApply args env = applyArgs args env >>= fun r => naviApply r.1 r.2 env [] [] := by
  simp only [scmApply, applyArgs, bind_assoc]
  rfl

/-- A world in which the list of the arguments has been flattened. -/
def World.flattened (w : World) (P : Addr) (x l : NaviObj) : World :=
  w.setObj P (.naviPair, .pair (some x) (some l))

/-- A list, from its first pair. -/
theorem Spine.cons_iff {p : NaviObj} :
    Spine w o (p :: ps) xs ↔
      ∃ car cdr ys, o = p ∧ xs = car :: ys ∧ IsPair w p car cdr ∧ Spine w cdr ps ys := by
  constructor
  · intro h
    cases h with
    | cons hp ht => exact ⟨_, _, _, rfl, rfl, hp, ht⟩
  · rintro ⟨car, cdr, ys, rfl, rfl, hp, ht⟩
    exact .cons hp ht

theorem Spine.last_two (h : Spine w o [.ptr P, q] (us ++ [x, l])) :
    us = [] ∧ o = .ptr P ∧ IsPair w (.ptr P) x q ∧ IsPair w q l .nil := by
  obtain rfl : us = [] := by
    have hlength := h.length_eq
    simpa using hlength.symm
  obtain ⟨_, _, _, rfl, hxs, hP, ht⟩ := Spine.cons_iff.mp h
  obtain ⟨_, _, _, rfl, rfl, hq, hnil⟩ := Spine.cons_iff.mp ht
  cases hnil
  obtain ⟨rfl, rfl⟩ : x = _ ∧ l = _ := by simpa using hxs
  exact ⟨rfl, rfl, hP, hq⟩

theorem Spine.isPair_last_two (h : Spine w o (ps ++ [.ptr P, q]) (us ++ [x, l])) :
    IsPair w (.ptr P) x q ∧ IsPair w q l .nil := by
  induction ps generalizing o us with
  | nil =>
    obtain ⟨-, -, hP, hq⟩ := h.last_two
    exact ⟨hP, hq⟩
  | cons p ps ih =>
    obtain ⟨car, cdr, ys, rfl, hxs, hp, ht⟩ := Spine.cons_iff.mp h
    cases us with
    | nil =>
      have hlength := h.length_eq
      simp at hlength
    | cons u us =>
      obtain ⟨rfl, rfl⟩ : u = car ∧ us ++ [x, l] = ys := by simpa using hxs
      exact ih ht

/-- **The pair before the last is written.** -/
theorem computes_applyFlatten (hw : w.Wf) (last : NaviObj)
    (hs : Spine w o (ps ++ [.ptr P, q]) (us ++ [x, l])) (hl : Spine w l ls zs) :
    Computes (applyFlatten last (ps ++ [.ptr P, q])) w () (w.flattened P x l) := by
  induction ps generalizing o us last with
  | nil =>
    obtain ⟨-, rfl, hP, hq⟩ := hs.last_two
    have hne : q ≠ .nil := by
      rintro rfl
      cases hq
    -- the first round passes the pair, the second writes it
    refine (computes_naviCar hP).bind ((computes_naviIsLastPair hP).bind ?_)
    rw [decide_eq_false hne, if_neg Bool.false_ne_true]
    refine (computes_naviCar hq).bind ((computes_naviIsLastPair hq).bind ?_)
    rw [decide_eq_true rfl, if_pos rfl]
    have hproper : Computes (naviTypeCheckProperList l : Leaf _) w () w :=
      (computes_naviIsProperList hw hl).bind (Computes.ret _)
    exact hproper.bind (computes_naviSetCdr l hP)
  | cons p ps ih =>
    obtain ⟨car, cdr, ys, rfl, hxs, hp, ht⟩ := Spine.cons_iff.mp hs
    have hne : cdr ≠ .nil := by
      rintro rfl
      have hlength := ht.eq_headD
      cases ps <;> cases hlength
      cases ht with
      | cons hq _ => cases hq
    cases us with
    | nil =>
      have hlength := hs.length_eq
      simp at hlength
    | cons u us =>
      obtain ⟨rfl, rfl⟩ : u = car ∧ us ++ [x, l] = ys := by simpa using hxs
      refine (computes_naviCar hp).bind ((computes_naviIsLastPair hp).bind ?_)
      rw [decide_eq_false hne, if_neg Bool.false_ne_true]
      exact ih o ht

theorem World.objs_flattened (b : Addr) :
    (w.flattened P x l).objs b =
      if b = P then some (.naviPair, .pair (some x) (some l)) else w.objs b :=
  World.objs_setObj w P b _

/-- A list that the written pair is not in. -/
theorem Spine.of_not_mem (h : Spine w o pairs xs) (hP : NaviObj.ptr P ∉ pairs) :
    Spine (w.flattened P x l) o pairs xs := by
  refine h.of_objs fun b hb => ?_
  have hne : b ≠ P := fun heq => hP (heq ▸ hb)
  rw [World.objs_flattened, if_neg hne]

theorem Spine.not_mem_init (h : Spine w o (ps ++ [.ptr P, q]) xs) : NaviObj.ptr P ∉ ps := by
  intro hmem
  have hnodup := h.nodup
  rw [List.nodup_append] at hnodup
  exact hnodup.2.2 _ hmem _ List.mem_cons_self rfl

/-- **The elements of the last argument are behind the others**, unless the written pair is one
of the pairs of that list. -/
theorem Spine.flattened (hs : Spine w o (ps ++ [.ptr P, q]) (us ++ [x, l])) (hl : Spine w l ls zs)
    (hP : NaviObj.ptr P ∉ ls) :
    Spine (w.flattened P x l) o (ps ++ .ptr P :: ls) (us ++ x :: zs) := by
  have hinit := hs.not_mem_init
  induction ps generalizing o us with
  | nil =>
    obtain ⟨rfl, rfl, -, -⟩ := hs.last_two
    refine .cons (isPair_ptr.mpr ?_) (hl.of_not_mem hP)
    rw [World.objs_flattened, if_pos rfl]
  | cons p ps ih =>
    obtain ⟨car, cdr, ys, rfl, hxs, hp, ht⟩ := Spine.cons_iff.mp hs
    cases us with
    | nil =>
      have hlength := hs.length_eq
      simp at hlength
    | cons u us =>
      obtain ⟨rfl, rfl⟩ : u = car ∧ us ++ [x, l] = ys := by simpa using hxs
      obtain ⟨a, rfl, hobj⟩ := hp.ptr
      have hne : a ≠ P := fun heq => hinit (heq ▸ List.mem_cons_self)
      refine .cons (isPair_ptr.mpr ?_) (ih ht fun hmem => hinit (List.mem_cons_of_mem _ hmem))
      rw [World.objs_flattened, if_neg hne, hobj]

/-- The first pair, after that. -/
theorem Spine.head_flattened {as : List NaviObj}
    (hs : Spine w o (ps ++ [.ptr P, q]) (us ++ [x, l])) (hf : us ++ [x] = f :: as) :
    ∃ list, IsPair (w.flattened P x l) o f list := by
  cases ps with
  | nil =>
    obtain ⟨rfl, rfl, -, -⟩ := hs.last_two
    obtain ⟨rfl, -⟩ : x = f ∧ [] = as := by simpa using hf
    exact ⟨l, isPair_ptr.mpr (by rw [World.objs_flattened, if_pos rfl])⟩
  | cons p ps =>
    have hinit := hs.not_mem_init
    obtain ⟨car, cdr, ys, rfl, hxs, hp, -⟩ := Spine.cons_iff.mp hs
    obtain ⟨a, rfl, hobj⟩ := hp.ptr
    have hne : a ≠ P := fun heq => hinit (heq ▸ List.mem_cons_self)
    cases us with
    | nil =>
      have hlength := hs.length_eq
      simp at hlength
    | cons u us =>
      obtain ⟨rfl, -⟩ : u = f ∧ us ++ [x] = as := by simpa using hf
      obtain ⟨rfl, -⟩ : u = car ∧ us ++ [x, l] = ys := by simpa using hxs
      exact ⟨cdr, isPair_ptr.mpr (by rw [World.objs_flattened, if_neg hne, hobj])⟩

/-- What `apply` does to the list of its arguments. -/
theorem computes_applyArgs {as : List NaviObj} (hw : w.Wf)
    (hs : Spine w o (ps ++ [.ptr P, q]) (us ++ [x, l])) (hl : Spine w l ls zs)
    (hf : us ++ [x] = f :: as) (env : NaviEnv) :
    ∃ list, Computes (applyArgs o env) w (f, list) (w.flattened P x l) ∧
      IsPair (w.flattened P x l) o f list := by
  obtain ⟨list, hlist⟩ := hs.head_flattened hf
  refine ⟨list, (computes_walk hw hs).bind ?_, hlist⟩
  exact (computes_applyFlatten hw o hs hl).code.bind ((computes_naviCar hlist).bind
    ((computes_naviCdr hlist).bind (Computes.ret _)))

/-! ### The pairs at the front of the list -/

/-- An object that is at one of the addresses `R`, or that is not in memory. -/
def Within (R : Addr → Prop) (o : NaviObj) : Prop := ∀ a, o = .ptr a → R a

/-- What is at the addresses `R` refers to what is there only. -/
def World.ClosedAt (w : World) (R : Addr → Prop) : Prop :=
  ∀ a c, R a → w.objs a = some c → ∀ o ∈ c.2.objs, Within R o

/-- A list that has `n` pairs in front that are not at the addresses `R`, while their elements
and the rest of the list are. -/
def Fronted (R : Addr → Prop) (w : World) : ℕ → NaviObj → Prop
  | 0, o => Within R o
  | n + 1, o => ∃ a x cdr, o = .ptr a ∧ ¬ R a ∧ IsPair w o x cdr ∧ Within R x ∧ Fronted R w n cdr

theorem World.ClosedAt.isPair {car cdr : NaviObj} (h : w.ClosedAt R) (ho : Within R o)
    (hp : IsPair w o car cdr) : Within R car ∧ Within R cdr := by
  obtain ⟨a, rfl, hobj⟩ := hp.ptr
  have hrefs := h a _ (ho a rfl) hobj
  exact ⟨hrefs car (by simp [Data.objs]), hrefs cdr (by simp [Data.objs])⟩

/-- A list at the addresses `R`, with its elements. -/
theorem World.ClosedAt.spine (h : w.ClosedAt R) (ho : Within R o) (hs : Spine w o pairs xs) :
    (∀ p ∈ pairs, Within R p) ∧ ∀ y ∈ xs, Within R y := by
  induction hs with
  | nil => exact ⟨nofun, nofun⟩
  | cons hp _ ih =>
    obtain ⟨hcar, hcdr⟩ := h.isPair ho hp
    obtain ⟨hpairs, hxs⟩ := ih hcdr
    exact ⟨List.forall_mem_cons.mpr ⟨ho, hpairs⟩, List.forall_mem_cons.mpr ⟨hcar, hxs⟩⟩

theorem Fronted.elements (h : Fronted R w n o) (hw : w.ClosedAt R) (hs : Spine w o pairs xs) :
    ∀ y ∈ xs, Within R y := by
  induction n generalizing o pairs xs with
  | zero => exact (hw.spine h hs).2
  | succ n ih =>
    obtain ⟨a, x, cdr, rfl, -, hp, hx, hcdr⟩ := h
    cases hs with
    | cons hp' ht =>
      obtain ⟨rfl, rfl⟩ := hp.unique hp'
      exact List.forall_mem_cons.mpr ⟨hx, ih hcdr ht⟩

/-- The rest of such a list. -/
theorem Fronted.tail {car cdr : NaviObj} (h : Fronted R w n o) (hw : w.ClosedAt R)
    (hp : IsPair w o car cdr) : Fronted R w (n - 1) cdr := by
  cases n with
  | zero => exact (hw.isPair h hp).2
  | succ n =>
    obtain ⟨a, x, cdr', -, -, hp', -, hcdr⟩ := h
    obtain ⟨-, rfl⟩ := hp'.unique hp
    exact hcdr

/-- If the pair before the last is one of those in front, it is not at `R`, and `apply` leaves
the pairs up to it in front. -/
theorem Fronted.flattened_front (h : Fronted R w n o)
    (hs : Spine w o (ps ++ [.ptr P, q]) (us ++ [x, l])) (hn : ps.length < n) (hl : Within R l) :
    ¬ R P ∧ Fronted R (w.flattened P x l) (ps.length + 1) o := by
  have hinit := hs.not_mem_init
  induction ps generalizing o us n with
  | nil =>
    obtain ⟨rfl, rfl, hP, -⟩ := hs.last_two
    obtain ⟨n, rfl⟩ := Nat.exists_eq_succ_of_ne_zero hn.ne'
    obtain ⟨a, y, cdr, ha, hR, hp, hy, -⟩ := h
    cases ha
    obtain ⟨rfl, -⟩ := hp.unique hP
    refine ⟨hR, P, y, l, rfl, hR, isPair_ptr.mpr ?_, hy, hl⟩
    rw [World.objs_flattened, if_pos rfl]
  | cons p ps ih =>
    obtain ⟨car, cdr, ys, rfl, hxs, hp, ht⟩ := Spine.cons_iff.mp hs
    obtain ⟨n, rfl⟩ := Nat.exists_eq_succ_of_ne_zero (Nat.ne_zero_of_lt hn)
    obtain ⟨a, y, cdr', rfl, hR, hp', hy, hcdr⟩ := h
    obtain ⟨rfl, rfl⟩ := hp'.unique hp
    have hne : a ≠ P := fun heq => hinit (heq ▸ List.mem_cons_self)
    cases us with
    | nil =>
      have hlength := hs.length_eq
      simp at hlength
    | cons u us =>
      obtain ⟨rfl, rfl⟩ : u = y ∧ us ++ [x, l] = ys := by simpa using hxs
      obtain ⟨hRP, hfront⟩ := ih hcdr ht (Nat.lt_of_succ_lt_succ hn) fun hmem =>
        hinit (List.mem_cons_of_mem _ hmem)
      refine ⟨hRP, a, u, cdr', rfl, hR, isPair_ptr.mpr ?_, hy, hfront⟩
      rw [World.objs_flattened, if_neg hne]
      exact isPair_ptr.mp hp

/-- If it is not, it is at `R`, and `apply` leaves those in front as they are. -/
theorem Fronted.flattened_back (h : Fronted R w n o) (hw : w.ClosedAt R)
    (hs : Spine w o (ps ++ [.ptr P, q]) xs) (hn : n ≤ ps.length) :
    R P ∧ Fronted R (w.flattened P x l) n o := by
  induction n generalizing o ps xs with
  | zero => exact ⟨(hw.spine h hs).1 (.ptr P) (by simp) P rfl, h⟩
  | succ n ih =>
    obtain ⟨a, y, cdr, rfl, hR, hp, hy, hcdr⟩ := h
    cases ps with
    | nil => simp at hn
    | cons p ps =>
      obtain ⟨car, cdr', ys, rfl, rfl, hp', ht⟩ := Spine.cons_iff.mp hs
      obtain ⟨rfl, rfl⟩ := hp.unique hp'
      obtain ⟨hRP, hfront⟩ := ih hcdr ht (Nat.le_of_succ_le_succ hn)
      have hne : a ≠ P := fun heq => hR (heq ▸ hRP)
      refine ⟨hRP, a, y, cdr, rfl, hR, isPair_ptr.mpr ?_, hy, hfront⟩
      rw [World.objs_flattened, if_neg hne]
      exact isPair_ptr.mp hp

/-! ### Any number of levels -/

/-- The procedure `apply`. -/
def IsApply (w : World) (f : NaviObj) : Prop :=
  ∃ p, w.load f = .ok (.naviProcedure, .proc p) ∧ p.body = .cProc .scmApply

/-- **The calls of `apply` that come from one call**: `apply` is called in the world `w` with the
list `args`, of which `n` pairs in front are pairs of the list that the first call has been
given. -/
inductive Nested (w₁ : World) (args₁ : NaviObj) (n₁ : ℕ) : World → NaviObj → ℕ → Prop
  /-- the first call -/
  | direct {g : ℕ} : Nested w₁ args₁ n₁ { w₁ with nextGuard := g } args₁ n₁
  /-- `apply` applies itself to the list that it has made of its arguments. -/
  | through {w w' : World} {args f l list : NaviObj} {as pairs ls zs : List NaviObj} {n g : ℕ}
    {env : NaviEnv} (h : Nested w₁ args₁ n₁ w args n) (hargs : Spine w args pairs (f :: (as ++ [l])))
    (hl : Spine w l ls zs) (hlist : Computes (applyArgs args env) w (f, list) w')
    (hf : IsApply w' f) :
    Nested w₁ args₁ n₁ { w' with nextGuard := g } list (min n (pairs.length - 1) - 1)

/-- A list with pairs that are not at `R`, while its elements are. -/
theorem Spine.fronted (h : Spine w o pairs xs) (hpairs : ∀ a, NaviObj.ptr a ∈ pairs → ¬ R a)
    (hxs : ∀ x ∈ xs, Within R x) : Fronted R w pairs.length o := by
  induction h with
  | nil => exact nofun
  | cons hp ht ih =>
    obtain ⟨a, rfl, -⟩ := hp.ptr
    exact ⟨a, _, _, rfl, hpairs a List.mem_cons_self, hp, hxs _ List.mem_cons_self,
      ih (fun b hb => hpairs b (List.mem_cons_of_mem _ hb)) fun x hx =>
        hxs x (List.mem_cons_of_mem _ hx)⟩

/-- What holds of a call of `apply` with the list `args`. -/
structure Applying (R : Addr → Prop) (w : World) (args : NaviObj) (n : ℕ) : Prop where
  /-- the world is well-formed -/
  wf : w.Wf
  /-- what is at `R` refers to what is there only -/
  closed : w.ClosedAt R
  /-- the list has `n` pairs in front that are not there -/
  fronted : Fronted R w n args

theorem Spine.exists_last_two {as : List NaviObj} (h : Spine w o pairs (f :: (as ++ [l]))) :
    ∃ ps P q us x, pairs = ps ++ [.ptr P, q] ∧ us ++ [x] = f :: as ∧
      Spine w o (ps ++ [.ptr P, q]) (us ++ [x, l]) := by
  obtain ⟨us, x, hus⟩ : ∃ us x, us ++ [x] = f :: as :=
    ⟨_, _, List.dropLast_append_getLast (List.cons_ne_nil f as)⟩
  have hlength : pairs.length = as.length + 2 := by simpa using h.length_eq
  obtain rfl | ⟨pairs', q, rfl⟩ := pairs.eq_nil_or_concat'
  · simp at hlength
  obtain rfl | ⟨ps, p, rfl⟩ := pairs'.eq_nil_or_concat'
  · simp at hlength
  obtain ⟨car, cdr, hp⟩ := h.isPair_of_mem (p := p) (by simp)
  obtain ⟨P, rfl, -⟩ := hp.ptr
  refine ⟨ps, P, q, us, x, by simp, hus, ?_⟩
  have hxs : us ++ [x, l] = f :: (as ++ [l]) := by
    rw [← List.cons_append, ← hus, List.append_assoc]
    rfl
  rw [hxs]
  simpa using h

theorem World.ClosedAt.flattened (h : w.ClosedAt R) (hx : Within R x) (hl : Within R l) :
    (w.flattened P x l).ClosedAt R := by
  intro a c ha hobj
  rw [World.objs_flattened] at hobj
  split_ifs at hobj with hP
  · cases hobj
    simpa [Data.objs] using ⟨hx, hl⟩
  · exact h a c ha hobj

theorem Fronted.of_objs (h : Fronted R w n o) (hobjs : w'.objs = w.objs) : Fronted R w' n o := by
  induction n generalizing o with
  | zero => exact h
  | succ n ih =>
    obtain ⟨a, y, cdr, rfl, hR, hp, hy, hcdr⟩ := h
    refine ⟨a, y, cdr, rfl, hR, isPair_ptr.mpr ?_, hy, ih hcdr⟩
    rw [hobjs]
    exact isPair_ptr.mp hp

/-- Each level keeps this. -/
theorem Applying.through {list : NaviObj} (h : Applying R w o n)
    (hs : Spine w o (ps ++ [.ptr P, q]) (us ++ [x, l])) (hlist : IsPair (w.flattened P x l) o f list)
    (g : ℕ) :
    Applying R { w.flattened P x l with nextGuard := g } list (min n (ps.length + 1) - 1) := by
  have helements := h.fronted.elements h.closed hs
  have hx : Within R x := helements x (by simp)
  have hl : Within R l := helements l (by simp)
  have hclosed : (w.flattened P x l).ClosedAt R := h.closed.flattened hx hl
  obtain ⟨car, cdr, hP⟩ := hs.isPair_of_mem (p := .ptr P) (by simp)
  have hwf : (w.flattened P x l).Wf := h.wf.setObj_pair (isPair_ptr.mp hP)
  refine ⟨⟨hwf.objs, hwf.scopes, hwf.thunks, hwf.symtab⟩, hclosed, ?_⟩
  have hfront : Fronted R (w.flattened P x l) (min n (ps.length + 1)) o := by
    obtain hn | hn := Nat.lt_or_ge ps.length n
    · rw [min_eq_right hn]
      exact (h.fronted.flattened_front hs hn hl).2
    · rw [min_eq_left (hn.trans (Nat.le_succ _))]
      exact (h.fronted.flattened_back h.closed hs hn).2
  exact (hfront.tail hclosed hlist).of_objs rfl

theorem Nested.applying {w₁ : World} {args₁ : NaviObj} {n₁ : ℕ} (h : Nested w₁ args₁ n₁ w o n)
    (h₁ : Applying R w₁ args₁ n₁) : Applying R w o n := by
  induction h with
  | direct =>
    exact ⟨⟨h₁.wf.objs, h₁.wf.scopes, h₁.wf.thunks, h₁.wf.symtab⟩, h₁.closed,
      h₁.fronted.of_objs rfl⟩
  | @through w w' args f l list as pairs ls zs n g env _ hargs hl hlist hf ih =>
    obtain ⟨ps, P, q, us, x, rfl, hus, hs⟩ := hargs.exists_last_two
    obtain ⟨list', hcomp, hpair⟩ := computes_applyArgs ih.wf hs hl hus env
    obtain ⟨heq, rfl⟩ := hlist.unique hcomp
    obtain ⟨-, rfl⟩ := Prod.mk.inj heq
    have hlength : (ps ++ [NaviObj.ptr P, q]).length - 1 = ps.length + 1 := by simp
    rw [hlength]
    exact ih.through hs hpair g

/-! ### What `apply` leaves alone -/

/-- `apply` calls the procedure `f` with the objects `zs`, and what is at the addresses `R` is as
it was. -/
def AppliesWith (w : World) (args : NaviObj) (env : NaviEnv) (f : NaviObj) (zs : List NaviObj)
    (R : Addr → Prop) : Prop :=
  ∃ list w', Computes (applyArgs args env) w (f, list) w' ∧ (∃ pairs, Spine w' list pairs zs) ∧
    ∀ a, R a → w'.objs a = w.objs a

/-- The pair before the last of a list is already followed by an object. -/
def FollowedBy (w : World) (pairs : List NaviObj) (l : NaviObj) : Prop :=
  ∃ p x, pairs[pairs.length - 2]? = some p ∧ IsPair w p x l

theorem Applying.appliesWith_iff {as : List NaviObj} (h : Applying R w o n)
    (hargs : Spine w o pairs (f :: (as ++ [l]))) (hl : Spine w l ls zs) (env : NaviEnv) :
    AppliesWith w o env f (as ++ zs) R ↔ pairs.length ≤ n + 1 ∨ FollowedBy w pairs l := by
  obtain ⟨ps, P, q, us, x, rfl, hus, hs⟩ := hargs.exists_last_two
  obtain ⟨list, hcomp, hpair⟩ := computes_applyArgs h.wf hs hl hus env
  have hat : (ps ++ [NaviObj.ptr P, q])[(ps ++ [NaviObj.ptr P, q]).length - 2]? = some (.ptr P) := by
    simp
  have hlength : (ps ++ [NaviObj.ptr P, q]).length = ps.length + 2 := by simp
  obtain ⟨hP, hq⟩ := hs.isPair_last_two
  -- the list that `apply` has made, if it is one
  have hlist : ∀ {pairs ys}, Spine (w.flattened P x l) o pairs (f :: ys) →
      ∃ pairs, Spine (w.flattened P x l) list pairs ys := fun hspine => by
    obtain ⟨cdr, hcons, pairs, ht⟩ := hspine.cons_inv
    obtain ⟨-, rfl⟩ := hcons.unique hpair
    exact ⟨pairs, ht⟩
  constructor
  · rintro ⟨list', w', hcomp', -, hsame⟩
    obtain hn | hn := Nat.lt_or_ge ps.length n
    · exact .inl (by omega)
    · -- the pair can be reached, and has been written
      obtain ⟨-, rfl⟩ := hcomp.unique hcomp'
      have hwritten := hsame P (h.fronted.flattened_back (x := x) (l := l) h.closed hs hn).1
      rw [World.objs_flattened, if_pos rfl] at hwritten
      exact .inr ⟨_, x, hat, isPair_ptr.mpr hwritten.symm⟩
  · rintro (hn | ⟨p, y, hp, hpy⟩)
    · have hlR : Within R l := h.fronted.elements h.closed hs l (by simp)
      have hRP := (h.fronted.flattened_front hs (by omega) hlR).1
      have hPls : NaviObj.ptr P ∉ ls := fun hmem => hRP ((h.closed.spine hlR hl).1 _ hmem P rfl)
      have hspine := hs.flattened hl hPls
      have hxs : us ++ x :: zs = f :: (as ++ zs) := by
        calc us ++ x :: zs = (us ++ [x]) ++ zs := by simp
          _ = f :: (as ++ zs) := by rw [hus, List.cons_append]
      rw [hxs] at hspine
      refine ⟨list, _, hcomp, hlist hspine, fun a ha => ?_⟩
      have hne : a ≠ P := fun heq => hRP (heq ▸ ha)
      rw [World.objs_flattened, if_neg hne]
    · -- the pair is written as it was
      obtain rfl : NaviObj.ptr P = p := Option.some.inj (hat.symm.trans hp)
      obtain ⟨rfl, rfl⟩ := hP.unique hpy
      have hsame : ∀ a, (w.flattened P x q).objs a = w.objs a := fun a => by
        rw [World.objs_flattened]
        split_ifs with ha
        · rw [ha]
          exact (isPair_ptr.mp hP).symm
        · rfl
      obtain ⟨-, rfl⟩ := hl.unique (.cons hq .nil)
      exact ⟨list, _, hcomp, hlist (hargs.of_objs fun a _ => hsame a), fun a _ => hsame a⟩

/-! ### Calling `apply` -/

/-- What is left of `do_apply` when the function has returned. -/
def applied (guard : Option (ScopeAddr × ℕ)) (env : NaviEnv) (result : NaviObj) : Code NaviObj := do
  naviGcUnguard guard
  let guard ← naviGcGuard result env
  perform (.gcCheck ⟨[result], [env.lexical]⟩)
  naviGcUnguard guard
  return result

/-- **Applying `apply`** is running its body with the list, in the same world. -/
theorem evaluates_naviApply (hf : IsApply w f) (hcheck : Computes (checkApply f o) w m w)
    (env : NaviEnv) : ∃ p guard g, w.load f = .ok (.naviProcedure, .proc p) ∧ ∀ r,
      (worldSemantics X).Evaluates (naviApply f o env [] []) w r ↔
        (worldSemantics X).Evaluates
          (scmApply o ⟨p.env, env.dynamic⟩ >>= applied guard ⟨p.env, env.dynamic⟩)
          { w with nextGuard := g } r := by
  obtain ⟨p, hp, hbody⟩ := hf
  obtain ⟨guard, g, hguard⟩ := computes_naviGcGuard o ⟨p.env, env.dynamic⟩ w
  refine ⟨p, guard, g, hp, fun r => (computes_naviProcedure hp).evaluates.bind_iff.trans ?_⟩
  refine (evaluates_callFn (f := .naviApply_ f o ⟨p.env, env.dynamic⟩)).trans ?_
  have hchecked : (worldSemantics X).Evaluates (leaf ⟨p.env, env.dynamic⟩ (checkApply f o)) w
      (.ok m w) := hcheck.leaf
  refine hchecked.bind_iff.trans ?_
  refine (evaluates_callFn (f := .doApply f m o ⟨p.env, env.dynamic⟩)).trans ?_
  refine (computes_naviProcedure hp).evaluates.bind_iff.trans ?_
  rw [hbody]
  simp only
  refine hguard.evaluates.bind_iff.trans ⟨fun h => h.bind_congr fun _ hcall => ?_, fun h =>
    h.bind_congr fun _ hcall => ?_⟩
  · exact (evaluates_callFn (f := .cProc .scmApply m o _)).mp hcall
  · exact (evaluates_callFn (f := .cProc .scmApply m o _)).mpr hcall

/-- **The list that `procedure_call` makes is in front**, and what the program can reach is
behind it. -/
theorem applying_of_operandList (hX : ∀ S, X.Spares S True) {proc operands args : NaviObj}
    (hw : w.Closed) (hoperands : w.Has operands)
    (hrun : (worldSemantics X).Evaluates (operandList proc operands env) w (.ok args w₁))
    (hwf : w₁.Wf) (hs : Spine w₁ args pairs xs) :
    Applying (fun a => w₁.Reachable xs (.ptr a)) w₁ args pairs.length := by
  obtain ⟨pairs', xs', hs', hpriv, hsees⟩ := operandList_private hX hw hoperands hrun
  obtain ⟨rfl, rfl⟩ := hs'.unique hs
  have hnot : ∀ b, NaviObj.ptr b ∈ pairs' → ¬ w₁.Reachable xs' (.ptr b) := fun b hb hreach =>
    hreach.avoids hpriv.hides (fun x hx => (hsees x hx).avoids) hb
  have hroots : ∀ x ∈ xs', Within (fun a => w₁.Reachable xs' (.ptr a)) x := fun x hx a ha =>
    .root (ha ▸ hx)
  exact ⟨hwf, fun a c ha hobj o ho b hb => .ref ha (World.load_ptr hobj) (hb ▸ ho),
    hs.fronted hnot hroots⟩

/-- **`apply` calls the procedure with the leading arguments and the elements of the list, and
changes nothing that the program could reach, exactly if** the pair before the last of its
arguments is one that `procedure_call` has made for the first call, or is already followed by
the list. -/
theorem apply_iff (hX : ∀ S, X.Spares S True) {proc operands args₁ args : NaviObj}
    {pairs₁ xs₁ as : List NaviObj} (hw : w.Closed) (hoperands : w.Has operands)
    (hrun : (worldSemantics X).Evaluates (operandList proc operands env) w (.ok args₁ w₁))
    (hwf : w₁.Wf) (hs : Spine w₁ args₁ pairs₁ xs₁) (hnest : Nested w₁ args₁ pairs₁.length w' args n)
    (hargs : Spine w' args pairs (f :: (as ++ [l]))) (hl : Spine w' l ls zs) (env' : NaviEnv) :
    AppliesWith w' args env' f (as ++ zs) (fun a => w₁.Reachable xs₁ (.ptr a)) ↔
      pairs.length ≤ n + 1 ∨ FollowedBy w' pairs l :=
  (hnest.applying (applying_of_operandList hX hw hoperands hrun hwf hs)).appliesWith_iff hargs hl env'

/-- A world with the forms `(apply apply x)`, where `x` is the list of `list`, `1` and the list
of `2`, and `(apply list 1 ())`. -/
def applyWorld : World :=
  let o (n : ℕ) : NaviObj := .ptr (.obj n)
  .ofCells
    [(.naviSymbol, .symbol "apply" true),
      (.naviSymbol, .symbol "list" true),
      (.naviSymbol, .symbol "x" true),
      (.naviProcedure, .proc ⟨true, 2, o 0, 0, .void, .cProc .scmApply,
        some [.type .naviProcedure, .naviAny]⟩),
      (.naviProcedure, .proc ⟨true, 0, o 1, 0, .void, .cProc .scmList, none⟩),
      -- the list `x`
      (.naviPair, .pair (some (.fixnum 2)) (some .nil)),
      (.naviPair, .pair (some (o 5)) (some .nil)),
      (.naviPair, .pair (some (.fixnum 1)) (some (o 6))),
      (.naviPair, .pair (some (o 4)) (some (o 7))),
      -- (x), (apply x), (apply apply x)
      (.naviPair, .pair (some (o 2)) (some .nil)),
      (.naviPair, .pair (some (o 0)) (some (o 9))),
      (.naviPair, .pair (some (o 0)) (some (o 10))),
      -- (()), (1 ()), (list 1 ())
      (.naviPair, .pair (some .nil) (some .nil)),
      (.naviPair, .pair (some (.fixnum 1)) (some (o 12))),
      (.naviPair, .pair (some (o 4)) (some (o 13)))]
    [("apply", 0), ("list", 1), ("x", 2)]
    [⟨none, [⟨o 0, o 3⟩, ⟨o 1, o 4⟩, ⟨o 2, o 8⟩]⟩, ⟨none, []⟩] []

theorem apply_iff_list :
    ∃ args w₁, (worldSemantics noExternals).Evaluates
        (operandList (.ptr (.obj 3)) (.ptr (.obj 14)) ⟨0, 1⟩) applyWorld (.ok args w₁) ∧
      ∃ pairs, Spine w₁ args pairs [.ptr (.obj 4), .fixnum 1, .nil] ∧
        (AppliesWith w₁ args ⟨0, 1⟩ (.ptr (.obj 4)) [.fixnum 1]
            (fun a => w₁.Reachable [.ptr (.obj 4), .fixnum 1, .nil] (.ptr a)) ↔
          pairs.length ≤ pairs.length + 1 ∨ FollowedBy w₁ pairs .nil) := by
  have hoperands : Spine applyWorld (.ptr (.obj 14)) [.ptr (.obj 14), .ptr (.obj 13), .ptr (.obj 12)]
      [.ptr (.obj 4), .fixnum 1, .nil] :=
    .cons (isPair_ptr.mpr rfl) (.cons (isPair_ptr.mpr rfl) (.cons (isPair_ptr.mpr rfl) .nil))
  have hwf : applyWorld.Wf := World.wf_ofCells (by decide)
  have hself : ∀ v ∈ [NaviObj.ptr (.obj 4), .fixnum 1, .nil], applyWorld.SelfEvaluating ⟨0, 1⟩ v := by
    simp only [List.forall_mem_cons]
    exact ⟨.constant (t := .naviProcedure) rfl trivial, .immediate nofun, .immediate nofun, nofun⟩
  obtain ⟨args, pairs, w₁, hrun, hread⟩ := evaluates_operandList_self (X := noExternals)
    (.ptr (.obj 3)) hoperands hwf.objs hself
  refine ⟨args, w₁, hrun, pairs, hread.spine, ?_⟩
  have hargs : Spine w₁ args pairs (.ptr (.obj 4) :: ([.fixnum 1] ++ [.nil])) := hread.spine
  exact apply_iff noExternals_spares
    (World.closed_ofCells (by decide) (by decide) (by decide) (by decide))
    (World.has_ofCells (by decide)) hrun (hread.wf hwf) hread.spine .direct hargs .nil ⟨0, 1⟩

/-- **`(apply apply x)` changes a pair of the list `x`**, which is `(list 1 2)` after it. -/
theorem not_apply_apply :
    IsPair applyWorld (.ptr (.obj 7)) (.fixnum 1) (.ptr (.obj 6)) ∧
      ∃ w', (worldSemantics noExternals).Returns (.naviEval (.ptr (.obj 11)) ⟨0, 1⟩) applyWorld
        (.ok (.ptr (.obj 7)) w') ∧ IsPair w' (.ptr (.obj 7)) (.fixnum 1) (.ptr (.obj 5)) := by
  simp only [isPair_ptr]
  exact ⟨rfl, returns_of_naviEvalRun_objs (n := 19) (by decide) (by decide)⟩

end NaviScheme
