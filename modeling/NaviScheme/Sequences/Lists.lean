import NaviScheme.Eval.ErrorObject

/-!
# Lists in memory

The functions of `list.c` that copy, append, reverse and index lists. They go along their arguments
with a cursor, and build their results by writing the `cdr` of the last pair that they have made.
The loops take a bound on their steps.

A list is a segment of memory (`NaviScheme.Segment`): pairs from one object to another one. The
functions write only pairs that they have made, so that the segments of their arguments stay, and
what they return are segments of new pairs. The laws of lists hold of them
(`NaviScheme.listLaws_iff`), but for `list-tail` where a list ends in the void object, by which
`navi_list_tail` says that there is no such tail.
-/

namespace NaviScheme

open Prog

/-! ### list.c -/

/-- The loop of `navi_list_copy`, and the write behind it. -/
def listCopyLoop : ℕ → NaviObj → NaviObj → Leaf Unit
  | 0, _, _ => fail .timeout
  | n + 1, cursor, cons => do
    if (← naviType cons) = .naviPair then
      let pair ← naviMakePair (← naviCar cons) .nil
      naviSetCdr cursor pair
      listCopyLoop n (← naviCdr cursor) (← naviCdr cons)
    else naviSetCdr cursor cons

/-- `navi_list_copy` -/
def naviListCopy (n : ℕ) (list : NaviObj) : Leaf NaviObj := do
  if list = .nil then return .nil
  else do
    let copy ← naviMakePair (← naviCar list) .nil
    listCopyLoop n copy (← naviCdr list)
    return copy

/-- The loop of `append`, from a cursor into the arguments on. -/
def appendLoop : ℕ → NaviObj → NaviObj → Leaf Unit
  | 0, _, _ => fail .timeout
  | n + 1, last, cons => do
    if (← naviType cons) = .naviPair then
      if ← naviIsLastPair cons then naviSetCdr last (← naviCar cons)
      else do
        naviTypeCheckProperList (← naviCar cons)
        naviSetCdr last (← naviListCopy n (← naviCar cons))
        appendLoop n (← naviLastCons last) (← naviCdr cons)
    else return ()

/-- `append` -/
def scmAppend (n : ℕ) (args : NaviObj) : Leaf NaviObj := do
  let first ← naviMakePair .nil .nil
  appendLoop n first args
  naviCdr first

/-- The loop of `reverse`. -/
def reverseLoop : ℕ → NaviObj → NaviObj → Leaf NaviObj
  | 0, _, _ => fail .timeout
  | n + 1, reversed, cons => do
    if (← naviType cons) = .naviPair then
      let reversed ← naviMakePair (← naviCar cons) reversed
      reverseLoop n reversed (← naviCdr cons)
    else return reversed

/-- `reverse` -/
def scmReverse (n : ℕ) (list : NaviObj) : Leaf NaviObj := reverseLoop n .nil list

/-- `navi_list_tail`, from a pair on: the loop, and what is behind it. -/
def listTailLoop (k : ℤ) : ℕ → ℤ → NaviObj → Leaf NaviObj
  | 0, _, _ => fail .timeout
  | n + 1, i, cons => do
    if (← naviType cons) = .naviPair then
      if i = k then return cons else listTailLoop k n (i + 1) (← naviCdr cons)
    else if i = k then return cons
    else return .void

/-- `list-tail` -/
def scmListTail (n : ℕ) (list : NaviObj) (k : ℤ) : Leaf NaviObj := do
  if k < 0 then naviError "type error: not a positive integer" []
  else do
    let result ← listTailLoop k n 0 list
    if result = .void then naviError "list index out of bounds" [] else return result

/-- `list-ref` -/
def scmListRef (n : ℕ) (list : NaviObj) (k : ℤ) : Leaf NaviObj := do
  if k < 0 then naviError "type error: not a positive integer" []
  else do
    let result ← listTailLoop k n 0 list
    if ← naviIsPair result then naviCar result else naviError "list index out of bounds" []

/-! ### Calls -/

/-- A call of `list-copy`: `check_apply`, and the function. -/
def callListCopy (n : ℕ) (list : NaviObj) : Leaf NaviObj := do
  checkArg list .naviList
  naviListCopy n list

/-- A call of `reverse` -/
def callReverse (n : ℕ) (list : NaviObj) : Leaf NaviObj := do
  checkArg list .naviList
  scmReverse n list

/-- A call of `list-tail`, with a fixnum -/
def callListTail (n : ℕ) (list : NaviObj) (k : ℤ) : Leaf NaviObj := do
  checkArg list .naviList
  scmListTail n list k

/-- A call of `list-ref`, with a fixnum -/
def callListRef (n : ℕ) (list : NaviObj) (k : ℤ) : Leaf NaviObj := do
  checkArg list (.type .naviPair)
  scmListRef n list k

/-- A call of `append`, with a new list of arguments. -/
def callAppend (n : ℕ) (args : List NaviObj) : Leaf NaviObj := do
  scmAppend n (← naviList args)

variable {w w₀ w' : World} {o e z : NaviObj} {ps qs xs ys : List NaviObj}

/-! ### Segments -/

/-- A segment of memory: from an object, along some pairs, to an object. -/
inductive Segment (w : World) : NaviObj → List NaviObj → List NaviObj → NaviObj → Prop
  | nil (o : NaviObj) : Segment w o [] [] o
  | cons {o car cdr e : NaviObj} {ps xs : List NaviObj} (hp : IsPair w o car cdr)
    (h : Segment w cdr ps xs e) : Segment w o (o :: ps) (car :: xs) e

/-- An object that is no pair. -/
def IsAtom (w : World) (z : NaviObj) : Prop :=
  (∀ a, z ≠ .ptr a) ∨ ∃ t d, t ≠ .naviPair ∧ w.load z = .ok (t, d)

/-- A pair that is not there yet. -/
def IsNew (w : World) (p : NaviObj) : Prop := ∃ a, p = .ptr a ∧ w.objs a = none

/-- A well-formed world with more objects. -/
structure World.Grown (w w' : World) : Prop where
  wf : w'.Wf
  objs : ∀ a c, w.objs a = some c → w'.objs a = some c

namespace World.Grown

theorem refl (hw : w.Wf) : w.Grown w := ⟨hw, fun _ _ h => h⟩

theorem trans {w₁ : World} (h : w.Grown w₁) (h' : w₁.Grown w') : w.Grown w' :=
  ⟨h'.wf, fun a c hc => h'.objs a c (h.objs a c hc)⟩

theorem load (h : w.Grown w') {c : NaviType × Data} (hc : w.load o = .ok c) :
    w'.load o = .ok c := by
  obtain ⟨a, rfl⟩ := World.ptr_of_load hc
  exact World.load_ptr (h.objs a c (World.objs_of_load hc))

theorem isNew (h : w.Grown w') (hp : IsNew w' o) : IsNew w o := by
  obtain ⟨a, rfl, ha⟩ := hp
  refine ⟨a, rfl, ?_⟩
  by_contra hne
  obtain ⟨c, hc⟩ := Option.ne_none_iff_exists'.mp hne
  rw [h.objs a c hc] at ha
  cases ha

/-- Writing a pair that is not in the smaller world. -/
theorem setObj {a : Addr} {d : Data} {car cdr : Option NaviObj} (h : w₀.Grown w)
    (ha : w₀.objs a = none) (hobj : w.objs a = some (.naviPair, .pair car cdr)) :
    w₀.Grown (w.setObj a (.naviPair, d)) := by
  refine ⟨h.wf.setObj_pair hobj, fun b c hc => ?_⟩
  have hne : b ≠ a := by
    rintro rfl
    rw [ha] at hc
    cases hc
  rw [World.objs_setObj, if_neg hne, h.objs b c hc]

theorem isAtom (h : w.Grown w') (hz : IsAtom w z) : IsAtom w' z := by
  rcases hz with hz | ⟨t, d, ht, hload⟩
  · exact .inl hz
  · exact .inr ⟨t, d, ht, h.load hload⟩

end World.Grown

namespace Segment

theorem length_eq (h : Segment w o ps xs e) : ps.length = xs.length := by
  induction h with
  | nil => rfl
  | cons _ _ ih => simp [ih]

theorem append (h : Segment w o ps xs e) (h' : Segment w e qs ys z) :
    Segment w o (ps ++ qs) (xs ++ ys) z := by
  induction h with
  | nil => exact h'
  | cons hp _ ih => exact .cons hp (ih h')

theorem of_isPair (h : Segment w o ps xs e)
    (hpairs : ∀ p ∈ ps, ∀ car cdr, IsPair w p car cdr → IsPair w' p car cdr) :
    Segment w' o ps xs e := by
  induction h with
  | nil o => exact .nil o
  | cons hp _ ih =>
    exact .cons (hpairs _ List.mem_cons_self _ _ hp)
      (ih fun p hp => hpairs p (List.mem_cons_of_mem _ hp))

theorem grown (h : Segment w o ps xs e) (hg : w.Grown w') : Segment w' o ps xs e :=
  h.of_isPair fun _ _ _ _ hp => hg.load hp

theorem spine_iff : Segment w o ps xs .nil ↔ Spine w o ps xs := by
  constructor
  · intro h
    generalize he : NaviObj.nil = e at h
    induction h with
    | nil => exact he ▸ .nil
    | cons hp _ ih => exact .cons hp (ih he)
  · intro h
    induction h with
    | nil => exact .nil _
    | cons hp _ ih => exact .cons hp ih

theorem of_nil (h : Segment w .nil ps xs e) : ps = [] := by
  cases h with
  | nil => rfl
  | cons hp => cases hp

/-- The last pair of a segment. -/
theorem snoc_inv {q : NaviObj} (h : Segment w o (ps ++ [q]) xs e) :
    ∃ ys x, xs = ys ++ [x] ∧ Segment w o ps ys q ∧ IsPair w q x e := by
  induction ps generalizing o xs with
  | nil =>
    cases h with
    | cons hp h =>
      cases h
      exact ⟨[], _, rfl, .nil _, hp⟩
  | cons p ps ih =>
    cases h with
    | cons hp h =>
      obtain ⟨ys, x, rfl, hseg, hq⟩ := ih h
      exact ⟨_ :: ys, x, rfl, .cons hp hseg, hq⟩

end Segment

theorem IsAtom.computes_naviType (hz : IsAtom w z) :
    ∃ t, t ≠ .naviPair ∧ Computes (naviType z : Leaf _) w t w := by
  rcases hz with hz | ⟨t, d, ht, hload⟩
  · cases z with
    | ptr a => exact absurd rfl (hz a)
    | _ => exact ⟨_, by decide, Computes.ret _⟩
  · exact ⟨t, ht, NaviScheme.computes_naviType hload⟩

theorem IsPair.computes_naviType {car cdr : NaviObj} (h : IsPair w o car cdr) :
    Computes (naviType o : Leaf _) w .naviPair w :=
  NaviScheme.computes_naviType h

theorem exists_bound {m n : ℕ} (h : m < n) : ∃ k, n = k + 1 :=
  Nat.exists_eq_succ_of_ne_zero (Nat.ne_of_gt (Nat.zero_lt_of_lt h))

/-! ### Copying -/

section

variable {a : Addr} {x v : NaviObj} {n : ℕ}

/-- A world with a new pair. -/
def World.consed (w : World) (car cdr : NaviObj) : World :=
  (w.make .naviPair (.pair (some car) (some cdr))).2

theorem World.objs_consed (w : World) (car cdr : NaviObj) (b : Addr) :
    (w.consed car cdr).objs b =
      if b = .obj w.nextObj then some (.naviPair, .pair (some car) (some cdr)) else w.objs b :=
  w.objs_make_pair _ b

theorem computes_naviMakePair (w : World) (car cdr : NaviObj) :
    Computes (naviMakePair car cdr : Leaf _) w (.ptr (.obj w.nextObj)) (w.consed car cdr) :=
  computes_make _ _

/-- A world with a new pair for `v`, behind the pair for `x` at `a`. -/
def World.chained (w : World) (a : Addr) (x v : NaviObj) : World :=
  (w.consed v .nil).setObj a (.naviPair, .pair (some x) (some (.ptr (.obj w.nextObj))))

theorem World.objs_chained (w : World) (a b : Addr) (x v : NaviObj) :
    (w.chained a x v).objs b =
      if b = a then some (.naviPair, .pair (some x) (some (.ptr (.obj w.nextObj))))
      else if b = .obj w.nextObj then some (.naviPair, .pair (some v) (some .nil))
      else w.objs b := by
  rw [World.chained, World.objs_setObj, World.objs_consed]

namespace World.Grown

theorem consed {car cdr : NaviObj} (h : w₀.Grown w) : w₀.Grown (w.consed car cdr) := by
  refine h.trans ⟨h.wf.make_pair _, fun b d hd => ?_⟩
  rw [World.objs_consed, if_neg (h.wf.ne_nextObj hd), hd]

/-- The next object is new. -/
theorem isNew_next (h : w₀.Grown w) : w₀.objs (.obj w.nextObj) = none := by
  by_contra hne
  obtain ⟨c, hc⟩ := Option.ne_none_iff_exists'.mp hne
  exact h.wf.ne_nextObj (h.objs _ c hc) rfl

theorem chained {c : Option NaviObj} (h : w₀.Grown w) (ha : w₀.objs a = none)
    (hobj : w.objs a = some (.naviPair, .pair (some x) c)) : w₀.Grown (w.chained a x v) := by
  have hcell : (w.consed v .nil).objs a = some (.naviPair, .pair (some x) c) := by
    rw [World.objs_consed, if_neg (h.wf.ne_nextObj hobj), hobj]
  exact h.consed.setObj ha hcell

end World.Grown

/-- **The loop of `navi_list_copy`** writes the pair at its cursor, and new pairs behind it. -/
theorem computes_listCopyLoop {l : NaviObj} (h : Segment w₀ l ps xs z) (hz : IsAtom w₀ z)
    (hg : w₀.Grown w) (ha : w₀.objs a = none)
    (hobj : w.objs a = some (.naviPair, .pair (some x) (some .nil))) :
    ∃ rest qs w', (∀ n, ps.length < n → Computes (listCopyLoop n (.ptr a) l) w () w') ∧
      w₀.Grown w' ∧
      (∀ b c, b ≠ a → w.objs b = some c → w'.objs b = some c) ∧
      IsPair w' (.ptr a) x rest ∧ Segment w' rest qs xs z ∧ ∀ q ∈ qs, IsNew w₀ q := by
  induction h generalizing w a x with
  | nil z =>
    obtain ⟨t, ht, htype⟩ := (hg.isAtom hz).computes_naviType
    refine ⟨z, [], w.setObj a (.naviPair, .pair (some x) (some z)), fun n hn => ?_,
      hg.setObj ha hobj, fun b c hb hc => ?_, isPair_ptr.mpr ?_, .nil z, by simp⟩
    · obtain ⟨n, rfl⟩ := exists_bound hn
      refine htype.bind ?_
      rw [if_neg ht]
      exact computes_naviSetCdr z (World.load_ptr hobj)
    · rw [World.objs_setObj, if_neg hb, hc]
    · rw [World.objs_setObj, if_pos rfl]
  | @cons l car cdr e ps xs hp h ih =>
    have hne := hg.wf.ne_nextObj hobj
    have hg' : w₀.Grown (w.chained a x car) := hg.chained ha hobj
    have hnew : w₀.objs (.obj w.nextObj) = none := hg.isNew_next
    have hcell : (w.chained a x car).objs (.obj w.nextObj) =
        some (.naviPair, .pair (some car) (some .nil)) := by
      rw [World.objs_chained, if_neg hne.symm, if_pos rfl]
    obtain ⟨rest, qs, w', hrun, hgrown, hsame, hpair, hseg, hqs⟩ :=
      ih hz hg' hnew hcell
    have hcursor : IsPair (w.chained a x car) (.ptr a) x (.ptr (.obj w.nextObj)) := by
      rw [isPair_ptr, World.objs_chained, if_pos rfl]
    have hset := computes_naviSetCdr (F := noCalls NaviObj) (.ptr (.obj w.nextObj))
      (World.load_ptr ((w.objs_consed car .nil a).trans ((if_neg hne).trans hobj)))
    have hl : IsPair w l car cdr := hg.load hp
    have hl' : IsPair (w.chained a x car) l car cdr := hg'.load hp
    refine ⟨_, _, w', fun n hn => ?_, hgrown, fun b c hb hc => ?_, ?_, .cons hpair hseg,
      fun q hq => ?_⟩
    · obtain ⟨n, rfl⟩ := exists_bound hn
      refine hl.computes_naviType.bind ?_
      rw [if_pos rfl]
      refine (computes_naviCar hl).bind ((computes_naviMakePair w car .nil).bind ?_)
      refine (hset : Computes (naviSetCdr (.ptr a) (.ptr (.obj w.nextObj)) : Leaf _)
        (w.consed car .nil) () (w.chained a x car)).bind ?_
      exact (computes_naviCdr hcursor).bind ((computes_naviCdr hl').bind
        (hrun n (Nat.lt_of_succ_lt_succ hn)))
    · refine hsame b c (hg.wf.ne_nextObj hc) ?_
      rw [World.objs_chained, if_neg hb, if_neg (hg.wf.ne_nextObj hc), hc]
    · exact isPair_ptr.mpr (hsame a _ hne (isPair_ptr.mp hcursor))
    · rcases List.mem_cons.mp hq with rfl | hq
      · exact ⟨_, rfl, hnew⟩
      · exact hqs q hq

/-- **`navi_list_copy`** makes new pairs. -/
theorem computes_naviListCopy {l : NaviObj} (hw : w.Wf) (h : Segment w l ps xs z)
    (hz : IsAtom w z) (hl : l = .nil ∨ ps ≠ []) :
    ∃ o qs w', (∀ n, ps.length < n → Computes (naviListCopy n l) w o w') ∧ w.Grown w' ∧
      Segment w' o qs xs z ∧ ∀ q ∈ qs, IsNew w q := by
  cases h with
  | nil =>
    obtain rfl := hl.resolve_right fun h => h rfl
    exact ⟨.nil, [], w, fun _ _ => Computes.ret _, .refl hw, .nil _, by simp⟩
  | @cons l car cdr _ ps xs hp h =>
    have hne : l ≠ .nil := by
      rintro rfl
      cases hp
    have hg : w.Grown (w.consed car .nil) := (World.Grown.refl hw).consed
    have hnew : w.objs (.obj w.nextObj) = none := hw.objs _ le_rfl
    obtain ⟨rest, qs, w', hrun, hgrown, -, hpair, hseg, hqs⟩ :=
      computes_listCopyLoop h hz hg hnew ((w.objs_consed car .nil _).trans (if_pos rfl))
    have hp' : IsPair (w.consed car .nil) l car cdr := hg.load hp
    refine ⟨_, _, w', fun n hn => ?_, hgrown, .cons hpair hseg, fun q hq => ?_⟩
    · rw [naviListCopy, if_neg hne]
      refine (computes_naviCar hp).bind ((computes_naviMakePair w car .nil).bind ?_)
      exact (computes_naviCdr hp').bind ((hrun n (Nat.lt_of_succ_lt hn)).bind (Computes.ret _))
    · rcases List.mem_cons.mp hq with rfl | hq
      · exact ⟨_, rfl, hnew⟩
      · exact hqs q hq

/-! ### Appending -/

theorem computes_naviLastCons {q : NaviObj} (hw : w.Wf) (h : Segment w o (ps ++ [q]) xs .nil) :
    Computes (naviLastCons o : Leaf _) w q w := by
  refine (computes_walk hw (Segment.spine_iff.mp h)).bind ?_
  simp only [List.getLast?_concat]
  exact Computes.ret q

/-- A list of which only the last pair has been written. -/
theorem Segment.extend {b : Addr} {rest : NaviObj}
    (h : Segment w o (ps ++ [.ptr b]) (xs ++ [x]) .nil)
    (hsame : ∀ c d, c ≠ b → w.objs c = some d → w'.objs c = some d)
    (hp : IsPair w' (.ptr b) x rest) (hseg : Segment w' rest qs ys e) :
    Segment w' o (ps ++ .ptr b :: qs) (xs ++ x :: ys) e := by
  have hnodup := (spine_iff.mp h).nodup
  obtain ⟨xs', x', heq, hinit, -⟩ := h.snoc_inv
  obtain ⟨rfl, -⟩ := List.append_inj' heq rfl
  refine (hinit.of_isPair fun p hmem car cdr hpair => ?_).append (.cons hp hseg)
  obtain ⟨c, rfl, hc⟩ := hpair.ptr
  refine isPair_ptr.mpr (hsame c _ ?_ hc)
  rintro rfl
  exact List.disjoint_of_nodup_append hnodup hmem List.mem_cons_self

theorem Segment.nil_or_ne (h : Segment w o ps xs .nil) : o = .nil ∨ ps ≠ [] := by
  cases h with
  | nil => exact .inl rfl
  | cons => exact .inr (List.cons_ne_nil _ _)

theorem isAtom_nil (w : World) : IsAtom w .nil := .inl nofun

/-- The proper lists that `append` is given, with their elements. -/
def AreLists (w : World) (ls : List NaviObj) (xss : List (List NaviObj)) : Prop :=
  List.Forall₂ (fun l xs => ∃ ps, Segment w l ps xs .nil) ls xss

/-- Where the cursor of `append` is, behind a list `o₁` that has been copied. -/
structure Advances (w₀ w w₂ : World) (a : Addr) (x : NaviObj) (qs₁ xs : List NaviObj)
    (ps : List NaviObj) (b : Addr) (ys : List NaviObj) (y : NaviObj) : Prop where
  pairs : .ptr a :: qs₁ = ps ++ [.ptr b]
  elements : x :: xs = ys ++ [y]
  segment : Segment w₂ (.ptr a) (ps ++ [.ptr b]) (ys ++ [y]) .nil
  isNew : w₀.objs b = none
  cell : w₂.objs b = some (.naviPair, .pair (some y) (some .nil))
  ne : ∀ c d, c ≠ a → w.objs c = some d → c ≠ b

theorem exists_advances {w₁ : World} {o₁ : NaviObj} {qs₁ : List NaviObj} (hg : w₀.Grown w)
    (ha : w₀.objs a = none) (hobj : w.objs a = some (.naviPair, .pair (some x) (some .nil)))
    (hseg : Segment w₁ o₁ qs₁ xs .nil) (hqs₁ : ∀ q ∈ qs₁, IsNew w q) :
    ∃ ps b ys y, Advances w₀ w (w₁.setObj a (.naviPair, .pair (some x) (some o₁))) a x qs₁ xs
      ps b ys y := by
  have hhead : IsPair (w₁.setObj a (.naviPair, .pair (some x) (some o₁))) (.ptr a) x o₁ := by
    rw [isPair_ptr, World.objs_setObj, if_pos rfl]
  have hne : ∀ b, IsNew w (.ptr b) → b ≠ a := by
    rintro b ⟨_, ⟨⟩, hb⟩ rfl
    rw [hobj] at hb
    cases hb
  have hseg₂ : Segment (w₁.setObj a (.naviPair, .pair (some x) (some o₁))) (.ptr a)
      (.ptr a :: qs₁) (x :: xs) .nil := by
    refine .cons hhead (hseg.of_isPair fun p hp car cdr hpair => ?_)
    obtain ⟨c, rfl, hc⟩ := hpair.ptr
    rw [isPair_ptr, World.objs_setObj, if_neg (hne c (hqs₁ _ hp)), hc]
  obtain ⟨ps, q, hq⟩ := (List.eq_nil_or_concat (.ptr a :: qs₁)).resolve_left (List.cons_ne_nil _ _)
  rw [List.concat_eq_append] at hq
  have hmem : q ∈ .ptr a :: qs₁ := hq ▸ List.mem_concat_self
  rw [hq] at hseg₂
  obtain ⟨ys, y, hxs, -, hpair⟩ := hseg₂.snoc_inv
  obtain ⟨b, rfl, hb⟩ := hpair.ptr
  refine ⟨ps, b, ys, y, hq, hxs, hxs ▸ hseg₂, ?_, hb, fun c d hc hd => ?_⟩
  · rcases List.mem_cons.mp hmem with heq | hmem
    · cases heq
      exact ha
    · obtain ⟨_, ⟨⟩, hnew⟩ := hg.isNew (hqs₁ _ hmem)
      exact hnew
  · rintro rfl
    rcases List.mem_cons.mp hmem with heq | hmem
    · cases heq
      exact hc rfl
    · obtain ⟨_, ⟨⟩, hnew⟩ := hqs₁ _ hmem
      rw [hnew] at hd
      cases hd

/-- **The loop of `append`** writes the pair at its cursor, and new pairs behind it. -/
theorem computes_appendLoop {cons last : NaviObj} {ls aps : List NaviObj}
    {xss : List (List NaviObj)} (hls : AreLists w₀ ls xss)
    (hargs : Segment w₀ cons aps (ls ++ [last]) .nil) (hg : w₀.Grown w) (ha : w₀.objs a = none)
    (hobj : w.objs a = some (.naviPair, .pair (some x) (some .nil))) :
    ∃ rest qs w', (∀ n, aps.length + xss.flatten.length < n →
        Computes (appendLoop n (.ptr a) cons) w () w') ∧
      w₀.Grown w' ∧ (∀ b c, b ≠ a → w.objs b = some c → w'.objs b = some c) ∧
      IsPair w' (.ptr a) x rest ∧ Segment w' rest qs xss.flatten last ∧ ∀ q ∈ qs, IsNew w₀ q := by
  induction hls generalizing w a x cons aps with
  | nil =>
    cases hargs with
    | @cons _ _ cdr _ aps _ hp htail =>
      cases htail
      have hcons : IsPair w cons last .nil := hg.load hp
      refine ⟨last, [], w.setObj a (.naviPair, .pair (some x) (some last)), fun n hn => ?_,
        hg.setObj ha hobj, fun b c hb hc => ?_, isPair_ptr.mpr ?_, .nil last, by simp⟩
      · obtain ⟨n, rfl⟩ := exists_bound hn
        refine hcons.computes_naviType.bind ?_
        rw [if_pos rfl]
        refine (computes_naviIsLastPair hcons).bind ?_
        rw [decide_eq_true rfl, if_pos rfl]
        exact (computes_naviCar hcons).bind (computes_naviSetCdr last (World.load_ptr hobj))
      · rw [World.objs_setObj, if_neg hb, hc]
      · rw [World.objs_setObj, if_pos rfl]
  | @cons l xs ls xss hl hls ih =>
    obtain ⟨ps, hl⟩ := hl
    cases hargs with
    | @cons _ _ cdr _ aps _ hp htail =>
    have hlen := htail.length_eq
    have hps := hl.length_eq
    -- the list is copied
    obtain ⟨o₁, qs₁, w₁, hcopy, hg₁, hseg₁, hqs₁⟩ := computes_naviListCopy hg.wf (hl.grown hg)
      (isAtom_nil w) hl.nil_or_ne
    have hg₂ : w₀.Grown (w₁.setObj a (.naviPair, .pair (some x) (some o₁))) :=
      (hg.trans hg₁).setObj ha (hg₁.objs _ _ hobj)
    obtain ⟨ps', b, ys', y, hadv⟩ := exists_advances hg ha hobj hseg₁ hqs₁
    -- the other lists are appended to the last pair of the copy
    obtain ⟨rest, qs, w', hrun, hg', hsame, hpair, hseg, hqs⟩ :=
      ih htail hg₂ hadv.isNew hadv.cell
    have hall := hadv.segment.extend hsame hpair hseg
    rw [List.append_cons, ← hadv.pairs, List.append_cons, ← hadv.elements, List.cons_append,
      List.cons_append] at hall
    cases hall with
    | @cons _ _ rest' _ _ _ hhead hbody =>
    refine ⟨rest', qs₁ ++ qs, w', fun n hn => ?_, hg', fun c d hc hd => ?_, hhead, hbody,
      fun q hq => ?_⟩
    · obtain ⟨n, rfl⟩ := exists_bound hn
      simp only [List.length_append, List.length_cons, List.flatten_cons] at hn hlen
      have hcons : IsPair w cons l cdr := hg.load hp
      have hcons₁ : IsPair (w₁.setObj a (.naviPair, .pair (some x) (some o₁))) cons l cdr :=
        hg₂.load hp
      have hcdr : cdr ≠ .nil := by
        rintro rfl
        rw [htail.of_nil] at hlen
        simp at hlen
      refine hcons.computes_naviType.bind ?_
      rw [if_pos rfl]
      refine (computes_naviIsLastPair hcons).bind ?_
      rw [decide_eq_false hcdr, if_neg Bool.false_ne_true]
      have hproper : Computes (naviTypeCheckProperList l) w () w :=
        (computes_naviIsProperList hg.wf (Segment.spine_iff.mp (hl.grown hg))).bind (Computes.ret _)
      refine (computes_naviCar hcons).bind (hproper.bind ?_)
      refine (computes_naviCar hcons).bind ((hcopy n (by omega)).bind ?_)
      refine (computes_naviSetCdr o₁ (World.load_ptr (hg₁.objs _ _ hobj))).bind ?_
      exact (computes_naviLastCons hg₂.wf hadv.segment).bind
        ((computes_naviCdr hcons₁).bind (hrun n (by omega)))
    · refine hsame c d (hadv.ne c d hc hd) ?_
      rw [World.objs_setObj, if_neg hc, hg₁.objs c d hd]
    · rcases List.mem_append.mp hq with hq | hq
      · exact hg.isNew (hqs₁ q hq)
      · exact hqs q hq

/-- **`append`** makes new pairs, up to its last argument. -/
theorem computes_scmAppend {args last : NaviObj} {ls aps : List NaviObj}
    {xss : List (List NaviObj)} (hw : w.Wf) (hls : AreLists w ls xss)
    (hargs : Segment w args aps (ls ++ [last]) .nil) :
    ∃ r qs w', (∀ n, aps.length + xss.flatten.length < n → Computes (scmAppend n args) w r w') ∧
      w.Grown w' ∧ Segment w' r qs xss.flatten last ∧ ∀ q ∈ qs, IsNew w q := by
  have hg : w.Grown (w.consed .nil .nil) := (World.Grown.refl hw).consed
  obtain ⟨rest, qs, w', hrun, hgrown, -, hpair, hseg, hqs⟩ := computes_appendLoop hls hargs hg
    (hw.objs _ le_rfl) ((w.objs_consed .nil .nil _).trans (if_pos rfl))
  refine ⟨rest, qs, w', fun n hn => ?_, hgrown, hseg, hqs⟩
  exact (computes_naviMakePair w .nil .nil).bind ((hrun n hn).bind (computes_naviCdr hpair))

/-- **A call of `append`** -/
theorem computes_callAppend {last : NaviObj} {ls : List NaviObj} {xss : List (List NaviObj)}
    (hw : w.Wf) (hls : AreLists w ls xss) :
    ∃ r qs w', (∀ n, ls.length + 1 + xss.flatten.length < n →
        Computes (callAppend n (ls ++ [last])) w r w') ∧
      w.Grown w' ∧ Segment w' r qs xss.flatten last ∧ ∀ q ∈ qs, IsNew w q := by
  obtain ⟨v, vs, hvs⟩ := List.exists_cons_of_ne_nil (List.append_ne_nil_of_right_ne_nil ls
    (List.cons_ne_nil last []))
  obtain ⟨args, rest, aps, w₁, hlist, hw₁, hkeep, hpair, hspine⟩ :=
    hw.computes_naviList (F := noCalls NaviObj) v vs
  have hg₁ : w.Grown w₁ := ⟨hw₁, fun a c hc => World.objs_of_load (hkeep _ c (World.load_ptr hc))⟩
  have hargs : Segment w₁ args (args :: aps) (ls ++ [last]) .nil := by
    rw [hvs]
    exact .cons hpair (Segment.spine_iff.mpr hspine)
  have hlen := hargs.length_eq
  rw [List.length_append, List.length_singleton] at hlen
  have hls₁ : AreLists w₁ ls xss := hls.imp fun l xs ⟨ps, hl⟩ => ⟨ps, hl.grown hg₁⟩
  obtain ⟨r, qs, w', hrun, hg, hseg, hqs⟩ := computes_scmAppend hw₁ hls₁ hargs
  refine ⟨r, qs, w', fun n hn => ?_, hg₁.trans hg, hseg, fun q hq => hg₁.isNew (hqs q hq)⟩
  rw [callAppend, hvs]
  exact hlist.bind (hrun n (by omega))

/-! ### Reversing -/

/-- **The loop of `reverse`** writes nothing. -/
theorem computes_reverseLoop {l rev : NaviObj} (h : Segment w₀ l ps xs z) (hz : IsAtom w₀ z)
    (hg : w₀.Grown w) (hrev : Segment w rev qs ys .nil) (hqs : ∀ q ∈ qs, IsNew w₀ q) :
    ∃ r rs w', (∀ n, ps.length < n → Computes (reverseLoop n rev l) w r w') ∧ w₀.Grown w' ∧
      Segment w' r rs (xs.reverse ++ ys) .nil ∧ ∀ q ∈ rs, IsNew w₀ q := by
  induction h generalizing w rev qs ys with
  | nil z =>
    obtain ⟨t, ht, htype⟩ := (hg.isAtom hz).computes_naviType
    refine ⟨rev, qs, w, fun n hn => ?_, hg, hrev, hqs⟩
    obtain ⟨n, rfl⟩ := exists_bound hn
    refine htype.bind ?_
    rw [if_neg ht]
    exact Computes.ret _
  | @cons l car cdr e ps xs hp h ih =>
    have hl : IsPair w l car cdr := hg.load hp
    have hg' : w.Grown (w.consed car rev) := (World.Grown.refl hg.wf).consed
    have hrev' : Segment (w.consed car rev) (.ptr (.obj w.nextObj)) (.ptr (.obj w.nextObj) :: qs)
        (car :: ys) .nil := by
      refine .cons (isPair_ptr.mpr ?_) (hrev.grown hg')
      rw [World.objs_consed, if_pos rfl]
    obtain ⟨r, rs, w', hrun, hgrown, hseg, hrs⟩ := ih hz (hg.trans hg') hrev'
      (List.forall_mem_cons.mpr ⟨⟨_, rfl, hg.isNew_next⟩, hqs⟩)
    refine ⟨r, rs, w', fun n hn => ?_, hgrown, ?_, hrs⟩
    · obtain ⟨n, rfl⟩ := exists_bound hn
      refine hl.computes_naviType.bind ?_
      rw [if_pos rfl]
      have hl' : IsPair (w.consed car rev) l car cdr := hg'.load hl
      exact (computes_naviCar hl).bind ((computes_naviMakePair w car rev).bind
        ((computes_naviCdr hl').bind (hrun n (Nat.lt_of_succ_lt_succ hn))))
    · rwa [List.reverse_cons, List.append_assoc]

/-! ### Tails -/

/-- **`navi_list_tail`** of a number that is not too large -/
theorem computes_listTailLoop {l : NaviObj} {k i : ℤ} (h : Segment w l ps xs z)
    (hz : IsAtom w z) {j : ℕ} (hk : k = i + j) (hj : j ≤ ps.length) :
    ∃ o, (∀ n, ps.length < n → Computes (listTailLoop k n i l) w o w) ∧
      Segment w o (ps.drop j) (xs.drop j) z := by
  induction h generalizing i j with
  | nil z =>
    obtain ⟨t, ht, htype⟩ := hz.computes_naviType
    obtain rfl := Nat.le_zero.mp hj
    refine ⟨z, fun n hn => ?_, .nil z⟩
    obtain ⟨n, rfl⟩ := exists_bound hn
    refine htype.bind ?_
    rw [if_neg ht, if_pos (by omega)]
    exact Computes.ret _
  | @cons l car cdr e ps xs hp h ih =>
    cases j with
    | zero =>
      refine ⟨l, fun n hn => ?_, .cons hp h⟩
      obtain ⟨n, rfl⟩ := exists_bound hn
      refine hp.computes_naviType.bind ?_
      rw [if_pos rfl, if_pos (by omega)]
      exact Computes.ret _
    | succ j =>
      obtain ⟨o, hrun, hseg⟩ := ih hz (i := i + 1) (j := j) (by push_cast at hk; omega)
        (by simpa using hj)
      refine ⟨o, fun n hn => ?_, hseg⟩
      obtain ⟨n, rfl⟩ := exists_bound hn
      refine hp.computes_naviType.bind ?_
      rw [if_pos rfl, if_neg (by push_cast at hk; omega)]
      exact (computes_naviCdr hp).bind (hrun n (Nat.lt_of_succ_lt_succ hn))

/-- **`navi_list_tail`** of a number that is too large, or negative -/
theorem computes_listTailLoop_void {l : NaviObj} {k i : ℤ} (h : Segment w l ps xs z)
    (hz : IsAtom w z) (hk : k < i ∨ i + ps.length < k) (hn : ps.length < n) :
    Computes (listTailLoop k n i l) w .void w := by
  induction h generalizing i n with
  | nil z =>
    obtain ⟨n, rfl⟩ := exists_bound hn
    obtain ⟨t, ht, htype⟩ := hz.computes_naviType
    refine htype.bind ?_
    rw [if_neg ht, if_neg (by simp at hk; omega)]
    exact Computes.ret _
  | @cons l car cdr e ps xs hp h ih =>
    obtain ⟨n, rfl⟩ := exists_bound hn
    rw [List.length_cons] at hk
    refine hp.computes_naviType.bind ?_
    rw [if_pos rfl, if_neg (by omega)]
    exact (computes_naviCdr hp).bind (ih hz (by omega) (by simpa using hn))

end

/-! ### Errors -/

section

variable {α β : Type}

/-- A function raises an error; what was there stays. -/
def RaisesError (p : Leaf α) (w : World) : Prop :=
  ∃ args w', runLeaf World.step p w = .exn args w' ∧ w.Grown w'

namespace RaisesError

variable {p : Leaf α} {g : α → Leaf β} {a : α} {w₁ : World}

theorem after (h : Computes p w a w₁) (hg : w.Grown w₁) (hr : RaisesError (g a) w₁) :
    RaisesError (p >>= g) w := by
  obtain ⟨args, w', hrun, hgrown⟩ := hr
  exact ⟨args, w', h.runLeaf_bind.trans hrun, hg.trans hgrown⟩

theorem bind (h : RaisesError p w) : RaisesError (p >>= g) w := by
  obtain ⟨args, w', hrun, hgrown⟩ := h
  refine ⟨args, w', ?_, hgrown⟩
  rw [runLeaf, runWith_bind]
  rw [runLeaf] at hrun
  rw [hrun]

theorem not_computes (h : RaisesError p w) : ¬ Computes p w a w' := by
  obtain ⟨args, w₁, hrun, -⟩ := h
  intro hc
  rw [computes_iff_runLeaf, hrun] at hc
  cases hc

end RaisesError

theorem World.Extends.grown (h : w.Extends w') (hw' : w'.Wf) : w.Grown w' := ⟨hw', h.objs⟩

theorem raisesError_naviError_ (hw : w.Wf) (type msg : String) (irritants : List NaviObj) :
    RaisesError (naviError_ type msg irritants : Leaf α) w := by
  obtain ⟨sym, w₁, hmakeSym, -, hw₁, hext₁, -⟩ :=
    exists_computes_naviMakeSymbol (F := noCalls NaviObj) hw type
  obtain ⟨str, w₂, hmakeStr, -, hw₂, hext₂⟩ :=
    hw₁.exists_make (F := noCalls NaviObj) (t := .naviString) (by decide) (.string msg)
  obtain ⟨list, -, -, w₃, hmakeList, hw₃, hkeep, -, -⟩ :=
    hw₂.computes_naviList (F := noCalls NaviObj) str (irritants.takeWhile (· ≠ .void))
  have hg₃ : w₂.Grown w₃ := ⟨hw₃, fun a c hc => World.objs_of_load (hkeep _ c (World.load_ptr hc))⟩
  refine .after hmakeSym (hext₁.grown hw₁) (.after hmakeStr (hext₂.grown hw₂)
    (.after hmakeList hg₃ (.after (computes_naviMakePair w₃ sym list) (World.Grown.refl hw₃).consed
      ?_)))
  have hg₄ : w₃.Grown (w₃.consed sym list) := (World.Grown.refl hw₃).consed
  exact .after (computes_naviMakePair _ _ .nil) (World.Grown.refl hg₄.wf).consed
    ⟨_, _, rfl, .refl ((World.Grown.refl hg₄.wf).consed).wf⟩

theorem raisesError_naviTypeError (hw : w.Wf) (expected actual : NaviObj) :
    RaisesError (naviTypeError expected actual : Leaf α) w := by
  have hapair : ∀ (w : World) (sym : String) (val : NaviObj), w.Wf →
      ∃ o w', Computes (naviMakeApair sym val : Leaf _) w o w' ∧ w.Grown w' := by
    intro w sym val hw
    obtain ⟨o, w₁, hmake, -, hw₁, hext, -⟩ :=
      exists_computes_naviMakeSymbol (F := noCalls NaviObj) hw sym
    exact ⟨_, _, hmake.bind (computes_naviMakePair w₁ o val),
      (hext.grown hw₁).trans (World.Grown.refl hw₁).consed⟩
  obtain ⟨o₁, w₁, h₁, hg₁⟩ := hapair w "expected" expected hw
  obtain ⟨o₂, w₂, h₂, hg₂⟩ := hapair w₁ "actual" actual hg₁.wf
  exact .after h₁ hg₁ (.after h₂ hg₂ (raisesError_naviError_ hg₂.wf _ _ _))

end

/-! ### Calls -/

/-- A function returns, for all bounds from some point on, and what was there stays. -/
def Makes (f : ℕ → Leaf NaviObj) (w : World) (Q : NaviObj → World → Prop) : Prop :=
  ∃ o w', (∃ N, ∀ n, N ≤ n → Computes (f n) w o w') ∧ w.Grown w' ∧ Q o w'

/-- A function raises an error, for all bounds from some point on. -/
def Refuses (f : ℕ → Leaf NaviObj) (w : World) : Prop := ∃ N, ∀ n, N ≤ n → RaisesError (f n) w

theorem Makes.bind {f : ℕ → Leaf NaviObj} {g : NaviObj → ℕ → Leaf NaviObj}
    {Q R : NaviObj → World → Prop} (h : Makes f w Q)
    (hg : ∀ o w', w.Grown w' → Q o w' → Makes (g o) w' R) :
    Makes (fun n => f n >>= fun o => g o n) w R := by
  obtain ⟨o, w₁, ⟨N, hN⟩, hgrown, hQ⟩ := h
  obtain ⟨o', w₂, ⟨N', hN'⟩, hgrown', hR⟩ := hg o w₁ hgrown hQ
  refine ⟨o', w₂, ⟨max N N', fun n hn => ?_⟩, hgrown.trans hgrown', hR⟩
  exact (hN n (le_of_max_le_left hn)).bind (hN' n (le_of_max_le_right hn))

theorem Makes.imp {f : ℕ → Leaf NaviObj} {Q R : NaviObj → World → Prop} (h : Makes f w Q)
    (hQ : ∀ o w', w.Grown w' → Q o w' → R o w') : Makes f w R := by
  obtain ⟨o, w₁, hrun, hgrown, hq⟩ := h
  exact ⟨o, w₁, hrun, hgrown, hQ o w₁ hgrown hq⟩

theorem not_makes_of_refuses {f : ℕ → Leaf NaviObj} {Q : NaviObj → World → Prop}
    (h : Refuses f w) : ¬ Makes f w Q := by
  obtain ⟨N, hN⟩ := h
  rintro ⟨o, w', ⟨N', hN'⟩, -, -⟩
  exact (hN _ (Nat.le_max_left N N')).not_computes (hN' _ (Nat.le_max_right N N'))

section

variable {l a : NaviObj} {aps axs : List NaviObj} {k : ℤ}

theorem computes_checkArg_list (h : Segment w l ps xs z) (hl : l = .nil ∨ ps ≠ []) :
    Computes (checkArg l .naviList) w () w := by
  rcases hl with rfl | hne
  · exact (Computes.ret (F := noCalls NaviObj) true).bind (Computes.ret _)
  · cases h with
    | nil => exact absurd rfl hne
    | cons hp =>
      have his : Computes (naviIsList l : Leaf _) w true w :=
        hp.computes_naviType.bind (Computes.ret _)
      exact his.bind (Computes.ret _)

theorem makes_listCopy (hw : w.Wf) (h : Segment w l ps xs z) (hz : IsAtom w z)
    (hl : l = .nil ∨ ps ≠ []) :
    Makes (callListCopy · l) w fun r w' => ∃ qs, Segment w' r qs xs z ∧ ∀ q ∈ qs, IsNew w q := by
  obtain ⟨o, qs, w', hrun, hg, hseg, hqs⟩ := computes_naviListCopy hw h hz hl
  exact ⟨o, w', ⟨ps.length + 1, fun n hn => (computes_checkArg_list h hl).bind (hrun n hn)⟩, hg,
    qs, hseg, hqs⟩

theorem makes_reverse (hw : w.Wf) (h : Segment w l ps xs z) (hz : IsAtom w z)
    (hl : l = .nil ∨ ps ≠ []) :
    Makes (callReverse · l) w fun r w' =>
      ∃ qs, Segment w' r qs xs.reverse .nil ∧ ∀ q ∈ qs, IsNew w q := by
  obtain ⟨o, qs, w', hrun, hg, hseg, hqs⟩ := computes_reverseLoop h hz (World.Grown.refl hw)
    (.nil .nil) (fun q hq => absurd hq List.not_mem_nil)
  rw [List.append_nil] at hseg
  exact ⟨o, w', ⟨ps.length + 1, fun n hn => (computes_checkArg_list h hl).bind (hrun n hn)⟩, hg,
    qs, hseg, hqs⟩

/-- A call of `append` with two arguments -/
theorem makes_append (hw : w.Wf) (ha : Segment w a aps axs .nil) (h : Segment w l ps xs z) :
    Makes (callAppend · [a, l]) w fun r w' => ∃ qs, Segment w' r qs (axs ++ xs) z ∧
      (l = .nil ∨ ps ≠ [] → r = .nil ∨ qs ≠ []) := by
  have hls : AreLists w [a] [axs] := .cons ⟨aps, ha⟩ .nil
  obtain ⟨r, qs, w', hrun, hg, hseg, -⟩ := computes_callAppend hw hls
  rw [List.flatten_singleton] at hseg
  refine ⟨r, w', ⟨_, fun n hn => hrun n hn⟩, hg, qs ++ ps, hseg.append (h.grown hg), fun hl => ?_⟩
  cases hseg with
  | nil => exact hl
  | cons => exact .inr (List.cons_ne_nil _ _)

/-- **The reverse of what is appended** -/
theorem makes_reverse_append (hw : w.Wf) (ha : Segment w a aps axs .nil) (h : Segment w l ps xs z)
    (hz : IsAtom w z) (hl : l = .nil ∨ ps ≠ []) :
    Makes (fun n => do callReverse n (← callAppend n [a, l])) w fun r w' =>
      ∃ qs, Segment w' r qs (axs ++ xs).reverse .nil := by
  refine (makes_append hw ha h).bind fun r w₁ hg ⟨qs, hseg, hr⟩ => ?_
  exact (makes_reverse hg.wf hseg (hg.isAtom hz) (hr hl)).imp fun _ _ _ ⟨rs, hrs, _⟩ => ⟨rs, hrs⟩

/-- **What is appended of the reverses** -/
theorem makes_append_reverse (hw : w.Wf) (ha : Segment w a aps axs .nil) (h : Segment w l ps xs z)
    (hz : IsAtom w z) (hl : l = .nil ∨ ps ≠ []) :
    Makes (fun n => do
      let lr ← callReverse n l
      let ar ← callReverse n a
      callAppend n [lr, ar]) w fun r w' =>
        ∃ qs, Segment w' r qs (xs.reverse ++ axs.reverse) .nil := by
  refine (makes_reverse hw h hz hl).bind fun lr w₁ hg₁ ⟨qs₁, hlr, _⟩ => ?_
  refine (makes_reverse hg₁.wf (ha.grown hg₁) (isAtom_nil w₁) ha.nil_or_ne).bind
    fun ar w₂ hg₂ ⟨qs₂, har, _⟩ => ?_
  exact (makes_append hg₂.wf (hlr.grown hg₂) har).imp fun _ _ _ ⟨qs, hqs, _⟩ => ⟨qs, hqs⟩

theorem makes_listTail (hw : w.Wf) (h : Segment w l ps xs z) (hz : IsAtom w z)
    (hl : l = .nil ∨ ps ≠ []) (hk : 0 ≤ k) (hle : k ≤ xs.length)
    (hvoid : ¬ (k = xs.length ∧ z = .void)) :
    Makes (callListTail · l k) w fun r w' =>
      Segment w' r (ps.drop k.toNat) (xs.drop k.toNat) z := by
  have hlen := h.length_eq
  obtain ⟨o, hrun, hseg⟩ := computes_listTailLoop h hz (k := k) (i := 0) (j := k.toNat) (by omega)
    (by omega)
  refine ⟨o, w, ⟨ps.length + 1, fun n hn => ?_⟩, .refl hw, hseg⟩
  have hne : o ≠ .void := by
    rintro rfl
    generalize hqs : ps.drop k.toNat = qs, xs.drop k.toNat = ys at hseg
    cases hseg with
    | nil =>
      have hdrop := List.drop_eq_nil_iff.mp hqs
      exact hvoid ⟨by omega, rfl⟩
    | cons hp => cases hp
  refine (computes_checkArg_list h hl).bind ?_
  rw [scmListTail, if_neg (by omega)]
  refine (hrun n hn).bind ?_
  rw [if_neg hne]
  exact Computes.ret o

theorem refuses_listTail (hw : w.Wf) (h : Segment w l ps xs z) (hz : IsAtom w z)
    (hl : l = .nil ∨ ps ≠ []) (hk : ¬ (0 ≤ k ∧ k ≤ xs.length) ∨ k = xs.length ∧ z = .void) :
    Refuses (callListTail · l k) w := by
  have hlen := h.length_eq
  refine ⟨ps.length + 1, fun n hn => .after (computes_checkArg_list h hl) (.refl hw) ?_⟩
  rw [scmListTail]
  by_cases hneg : k < 0
  · rw [if_pos hneg]
    exact raisesError_naviError_ hw _ _ _
  · rw [if_neg hneg]
    have hrun : Computes (listTailLoop k n 0 l) w .void w := by
      rcases hk with hk | ⟨hk, rfl⟩
      · exact computes_listTailLoop_void h hz (by omega) hn
      · obtain ⟨o, hrun, hseg⟩ := computes_listTailLoop h hz (k := k) (i := 0) (j := ps.length)
          (by omega) le_rfl
        rw [List.drop_length] at hseg
        generalize hys : xs.drop ps.length = ys at hseg
        cases hseg
        exact hrun n hn
    refine .after hrun (.refl hw) ?_
    rw [if_pos rfl]
    exact raisesError_naviError_ hw _ _ _

theorem makes_listRef (hw : w.Wf) (h : Segment w l ps xs z) (hz : IsAtom w z) (hk : 0 ≤ k)
    (hlt : k < xs.length) :
    Makes (callListRef · l k) w fun r _ => xs[k.toNat]? = some r := by
  have hlen := h.length_eq
  obtain ⟨o, hrun, hseg⟩ := computes_listTailLoop h hz (k := k) (i := 0) (j := k.toNat) (by omega)
    (by omega)
  have htype : Computes (naviType l : Leaf _) w .naviPair w := by
    cases h with
    | nil => exact absurd hlt (by simpa using hk)
    | cons hp => exact hp.computes_naviType
  have hj : k.toNat < ps.length := by omega
  have hj' : k.toNat < xs.length := by omega
  rw [List.drop_eq_getElem_cons hj, List.drop_eq_getElem_cons hj'] at hseg
  cases hseg with
  | cons hp =>
  refine ⟨xs[k.toNat], w, ⟨ps.length + 1, fun n hn => ?_⟩, .refl hw, List.getElem?_eq_getElem hj'⟩
  refine (htype.bind (Computes.ret _) : Computes (checkArg l (.type .naviPair)) w () w).bind ?_
  rw [scmListRef, if_neg (by omega)]
  refine (hrun n hn).bind ((computes_naviIsPair hp).bind ?_)
  exact computes_naviCar hp

theorem refuses_listRef (hw : w.Wf) (h : Segment w l ps xs z) (hz : IsAtom w z)
    (hl : l = .nil ∨ ps ≠ []) (hk : ¬ (0 ≤ k ∧ k < xs.length)) : Refuses (callListRef · l k) w := by
  have hlen := h.length_eq
  refine ⟨ps.length + 1, fun n hn => ?_⟩
  by_cases hps : ps = []
  · -- the empty list is not of the type of the argument
    obtain rfl := hl.resolve_right (absurd hps)
    refine RaisesError.bind (.after (Computes.ret NaviType.naviNil) (.refl hw) ?_)
    rw [if_neg (by decide)]
    obtain ⟨o₁, w₁, hmake₁, -, hw₁, hext₁, -⟩ :=
      exists_computes_naviMakeSymbol (F := noCalls NaviObj) hw (naviStrtype .naviPair)
    obtain ⟨o₂, w₂, hmake₂, -, hw₂, hext₂, -⟩ :=
      exists_computes_naviMakeSymbol (F := noCalls NaviObj) hw₁ (naviStrtype .naviNil)
    exact .after hmake₁ (hext₁.grown hw₁) (.after hmake₂ (hext₂.grown hw₂)
      (raisesError_naviTypeError hw₂ _ _))
  · have htype : Computes (naviType l : Leaf _) w .naviPair w := by
      cases h with
      | nil => exact absurd rfl hps
      | cons hp => exact hp.computes_naviType
    refine .after (htype.bind (Computes.ret _) : Computes (checkArg l (.type .naviPair)) w () w)
      (.refl hw) ?_
    rw [scmListRef]
    by_cases hneg : k < 0
    · rw [if_pos hneg]
      exact raisesError_naviError_ hw _ _ _
    · rw [if_neg hneg]
      obtain ⟨o, hrun, ho⟩ : ∃ o, Computes (listTailLoop k n 0 l) w o w ∧ IsAtom w o := by
        by_cases heq : k = xs.length
        · obtain ⟨o, hrun, hseg⟩ := computes_listTailLoop h hz (k := k) (i := 0) (j := ps.length)
            (by omega) le_rfl
          rw [List.drop_length] at hseg
          generalize hys : xs.drop ps.length = ys at hseg
          cases hseg
          exact ⟨z, hrun n hn, hz⟩
        · exact ⟨.void, computes_listTailLoop_void h hz (by omega) hn, .inl nofun⟩
      obtain ⟨t, ht, htype⟩ := ho.computes_naviType
      have hpair : Computes (naviIsPair o : Leaf _) w false w := by
        refine htype.bind ?_
        rw [decide_eq_false ht]
        exact Computes.ret _
      exact .after hrun (.refl hw) (.after hpair (.refl hw) (raisesError_naviError_ hw _ _ _))

end

/-! ### The laws -/

/-- **The laws of lists**, of some proper lists `ls` and a last object for `append`, and of a list
`l` with a number `k`. -/
structure ListLaws (w : World) (ls : List NaviObj) (xss : List (List NaviObj)) (last l : NaviObj)
    (ps xs : List NaviObj) (z : NaviObj) (k : ℤ) : Prop where
  /-- `append` makes new pairs, up to its last argument. -/
  append : ∀ args aps, Segment w args aps (ls ++ [last]) .nil → Makes (scmAppend · args) w
    fun r w' => ∃ qs, Segment w' r qs xss.flatten last ∧ ∀ q ∈ qs, IsNew w q
  /-- `list-copy` makes new pairs, up to the end. -/
  copy : Makes (callListCopy · l) w
    fun r w' => ∃ qs, Segment w' r qs xs z ∧ ∀ q ∈ qs, IsNew w q
  reverse : Makes (callReverse · l) w
    fun r w' => ∃ qs, Segment w' r qs xs.reverse .nil ∧ ∀ q ∈ qs, IsNew w q
  /-- There is a tail, and a list of the elements before it can be appended to it. -/
  tail : 0 ≤ k ∧ k ≤ xs.length → Makes (callListTail · l k) w
    fun r w' => Segment w' r (ps.drop k.toNat) (xs.drop k.toNat) z ∧
      ∀ a aps, Segment w' a aps (xs.take k.toNat) .nil → Makes (callAppend · [a, r]) w'
        fun r' w'' => ∃ qs, Segment w'' r' qs xs z
  noTail : ¬ (0 ≤ k ∧ k ≤ xs.length) → Refuses (callListTail · l k) w
  ref : 0 ≤ k ∧ k < xs.length → Makes (callListRef · l k) w fun r _ => xs[k.toNat]? = some r
  noRef : ¬ (0 ≤ k ∧ k < xs.length) → Refuses (callListRef · l k) w
  /-- The reverse of what is appended is what is appended of the reverses. -/
  reverse_append : ∀ a aps axs, Segment w a aps axs .nil → ∃ ys,
    Makes (fun n => do callReverse n (← callAppend n [a, l])) w
      (fun r w' => ∃ qs, Segment w' r qs ys .nil) ∧
    Makes (fun n => do
      let lr ← callReverse n l
      let ar ← callReverse n a
      callAppend n [lr, ar]) w fun r w' => ∃ qs, Segment w' r qs ys .nil

/-- **The laws hold** exactly if the tail is not the void object. -/
theorem listLaws_iff {ls : List NaviObj} {xss : List (List NaviObj)} {l : NaviObj} (last : NaviObj)
    (k : ℤ) (hw : w.Wf) (hls : AreLists w ls xss) (h : Segment w l ps xs z) (hz : IsAtom w z)
    (hl : l = .nil ∨ ps ≠ []) :
    ListLaws w ls xss last l ps xs z k ↔ ¬ (k = xs.length ∧ z = .void) := by
  constructor
  · rintro hlaws ⟨hk, hvoid⟩
    exact not_makes_of_refuses (refuses_listTail hw h hz hl (.inr ⟨hk, hvoid⟩))
      (hlaws.tail ⟨by omega, by omega⟩)
  · intro hvoid
    refine ⟨fun args aps hargs => ?_, makes_listCopy hw h hz hl, makes_reverse hw h hz hl,
      fun ⟨hk, hle⟩ => ?_, fun hk => refuses_listTail hw h hz hl (.inl hk),
      fun ⟨hk, hlt⟩ => makes_listRef hw h hz hk hlt, fun hk => refuses_listRef hw h hz hl hk,
      fun a aps axs ha => ⟨_, makes_reverse_append hw ha h hz hl, ?_⟩⟩
    · obtain ⟨r, qs, w', hrun, hg, hseg, hqs⟩ := computes_scmAppend hw hls hargs
      exact ⟨r, w', ⟨_, fun n hn => hrun n hn⟩, hg, qs, hseg, hqs⟩
    · refine (makes_listTail hw h hz hl hk hle hvoid).imp fun r w₁ hg hseg => ⟨hseg, ?_⟩
      intro a aps ha
      refine (makes_append hg.wf ha hseg).imp fun _ _ _ ⟨qs, hqs, _⟩ => ⟨qs, ?_⟩
      rwa [List.take_append_drop] at hqs
    · rw [List.reverse_append]
      exact makes_append_reverse hw ha h hz hl

/-- A list of one element that ends in the void object, and the list `(2)`. -/
def voidTail : World := .ofCells [
  (.naviPair, .pair (some (.fixnum 1)) (some .void)),
  (.naviPair, .pair (some (.fixnum 2)) (some .nil))] [] [] []

theorem segment_voidTail :
    Segment voidTail (.ptr (.obj 0)) [.ptr (.obj 0)] [.fixnum 1] .void :=
  .cons (isPair_ptr.mpr rfl) (.nil _)

theorem areLists_voidTail : AreLists voidTail [.ptr (.obj 1)] [[.fixnum 2]] :=
  .cons ⟨_, .cons (isPair_ptr.mpr rfl) (.nil _)⟩ .nil

theorem listLaws_iff_voidTail :
    ListLaws voidTail [.ptr (.obj 1)] [[.fixnum 2]] (.fixnum 3) (.ptr (.obj 0)) [.ptr (.obj 0)]
      [.fixnum 1] .void 0 ↔ ¬ ((0 : ℤ) = ([.fixnum 1] : List NaviObj).length ∧
        NaviObj.void = .void) :=
  listLaws_iff (.fixnum 3) 0 (World.wf_ofCells (by decide)) areLists_voidTail segment_voidTail
    (.inl nofun) (.inr (List.cons_ne_nil _ _))

/-- **There is no tail of `(1 . v)` at 1**, where `v` is the void object. -/
theorem not_listLaws :
    ¬ ∀ (w : World) (ls : List NaviObj) (xss : List (List NaviObj)) (last l : NaviObj)
      (ps xs : List NaviObj) (z : NaviObj) (k : ℤ), w.Wf → AreLists w ls xss →
      Segment w l ps xs z → IsAtom w z → l = .nil ∨ ps ≠ [] →
      ListLaws w ls xss last l ps xs z k := by
  intro h
  have hw : voidTail.Wf := World.wf_ofCells (by decide)
  have hz : IsAtom voidTail .void := .inl nofun
  have hl : NaviObj.ptr (.obj 0) = .nil ∨ [NaviObj.ptr (.obj 0)] ≠ [] := .inr (List.cons_ne_nil _ _)
  have hlaws := h _ _ _ (.fixnum 3) _ _ _ _ 1 hw areLists_voidTail segment_voidTail hz hl
  exact not_makes_of_refuses (refuses_listTail hw segment_voidTail hz hl (.inr ⟨rfl, rfl⟩))
    (hlaws.tail ⟨by decide, by decide⟩)

end NaviScheme
