import NaviScheme.RbTree.Links

/-!
# Removal as a function of a tree

What `navi_rb_remove` leaves depends on the tree alone, not on where its nodes and its dummy root
are nor on what else is in memory. As insertion is (`NaviScheme.treeInsert`), it is a partial
function of trees (`NaviScheme.treeRemove`), which has no value where the source follows a null
pointer, and a removal that comes to an end leaves its value
(`NaviScheme.naviRbRemove_treeRemove`).
-/

namespace NaviScheme

open RedBlack

variable {ι : Type} [LinearOrder ι] {m m' : Mem ι} {d n : ι} {ctx ctx₀ : Ctx ι} {c : Color}
  {l r t : RedBlack.Tree ι} {fuel : ℕ}

/-- The position of a node, below the position `ctx`. -/
def locate (n : ι) : RedBlack.Tree ι → Ctx ι → Option
    (Ctx ι × Color × RedBlack.Tree ι × RedBlack.Tree ι)
  | .nil, _ => none
  | .node c l y r, ctx =>
    if n < y then locate n l (⟨.left, c, y, r⟩ :: ctx)
    else if y < n then locate n r (⟨.right, c, y, l⟩ :: ctx)
    else some (ctx, c, l, r)

/-- The position of the last node, with its colour and its left-hand subtree. -/
def lastPath : RedBlack.Tree ι → Ctx ι → Option (Ctx ι × Color × RedBlack.Tree ι × ι)
  | .nil, _ => none
  | .node c l y .nil, ctx => some (ctx, c, l, y)
  | .node c l y (.node c' l' z r'), ctx => lastPath (.node c' l' z r') (⟨.right, c, y, l⟩ :: ctx)

/-- The tree that unlinking leaves: the only child `u` takes the place of a node of colour `c`. -/
def unlinkTree (ctx : Ctx ι) (c : Color) (u : RedBlack.Tree ι) : Option (RedBlack.Tree ι) :=
  (unlinkFix c ctx).map fun res => res.1.plug (if res.2 then u.blacken else u)

/-- The tree that `navi_rb_remove` leaves. A node with two children is unlinked where its
predecessor is, which comes to be where the node was. -/
def treeRemove (t : RedBlack.Tree ι) (n : ι) : Option (RedBlack.Tree ι) := do
  let (ctx, c, l, r) ← locate n t []
  match l, r with
  | .nil, r => unlinkTree ctx c r
  | l, .nil => unlinkTree ctx c l
  | l, r =>
    let (lctx, c', pl, p) ← lastPath l []
    unlinkTree (lctx ++ ⟨.left, c, p, r⟩ :: ctx) c' pl

/-- The search for a node comes to where it is. -/
theorem locate_plug (hord : (ctx.plug t).toList.Pairwise (· < ·)) (hn : n ∈ t.toList) :
    locate n (ctx.plug t) ctx₀ = locate n t (ctx ++ ctx₀) := by
  induction ctx generalizing t with
  | nil => rfl
  | cons f ctx ih =>
    obtain ⟨s, c, y, u⟩ := f
    have hmem : n ∈ (t.join s c y u).toList :=
      (RedBlack.Tree.toList_join_perm s c t y u).mem_iff.mpr (by simp [hn])
    have hsub : (t.join s c y u).toList.Pairwise (· < ·) := by
      have hplug := Ctx.toList_plug ctx (t.join s c y u)
      rw [Ctx.plug_cons, hplug] at hord
      exact (List.pairwise_append.mp (List.pairwise_append.mp hord).1).2.1
    rw [Ctx.plug_cons, ih hord hmem]
    cases s with
    | left =>
      simp only [RedBlack.Tree.join, RedBlack.Tree.toList_node, List.pairwise_append,
        List.mem_cons] at hsub
      have hlt : n < y := hsub.2.2 n hn y (.inl rfl)
      simp [RedBlack.Tree.join, locate, hlt]
    | right =>
      simp only [RedBlack.Tree.join, RedBlack.Tree.toList_node, List.pairwise_append,
        List.pairwise_cons] at hsub
      have hlt : y < n := hsub.2.1.1 n hn
      simp [RedBlack.Tree.join, locate, hlt, hlt.not_gt]

theorem locate_eq (hord : (ctx.plug (.node c l n r)).toList.Pairwise (· < ·)) :
    locate n (ctx.plug (.node c l n r)) [] = some (ctx, c, l, r) := by
  rw [locate_plug hord (by simp), locate]
  simp

omit [LinearOrder ι] in
/-- The last node sits below right-hand turns only. -/
theorem lastPath_plug (hafter : ctx.after = []) (ht : t ≠ .nil) :
    lastPath (ctx.plug t) ctx₀ = lastPath t (ctx ++ ctx₀) := by
  induction ctx generalizing t with
  | nil => rfl
  | cons f ctx ih =>
    obtain ⟨s, c, y, u⟩ := f
    cases s with
    | left => cases hafter
    | right =>
      cases t with
      | nil => exact absurd rfl ht
      | node c' l' z r' =>
        rw [Ctx.plug_cons, ih hafter (by simp [RedBlack.Tree.join])]
        rfl

/-- The second half of a removal that comes to an end. -/
theorem Unlinking.done {m₁ : Mem ι} {v : ι} {ctx₁ : Ctx ι} {u : RedBlack.Tree ι}
    (hun : Unlinking m m₁ d n v t c ctx ctx₁ l r) (hu : r = .nil ∧ u = l ∨ l = .nil ∧ u = r)
    (hfuel : t.toList.length < fuel) (hrem : unlink fuel m₁ n = .ok m') :
    ∃ t', unlinkTree ctx₁ c u = some t' ∧ At m' d [] t' := by
  obtain ⟨hnone, hsome⟩ := unlink_eq hun.after hu (hun.length.trans_lt hfuel)
  cases hfix : unlinkFix c ctx₁ with
  | none =>
    rw [hnone hfix] at hrem
    cases hrem
  | some res =>
    obtain ⟨ctx', b⟩ := res
    obtain ⟨m₂, hm₂, hat⟩ := hsome ctx' b hfix
    rw [hm₂] at hrem
    cases hrem
    exact ⟨_, by rw [unlinkTree, hfix]; rfl, at_plug.mp hat⟩

/-- **A removal that comes to an end** leaves the tree that it should. -/
theorem naviRbRemove_treeRemove (h : At m d [] t) (hord : t.toList.Pairwise (· < ·))
    (hn : n ∈ t.toList) (hrem : naviRbRemove fuel m n = .ok m') :
    ∃ t', treeRemove t n = some t' ∧ At m' d [] t' := by
  obtain ⟨fuel', hfuel, hrem⟩ : ∃ fuel', t.toList.length < fuel' ∧
      naviRbRemove fuel' m n = .ok m' :=
    ⟨_, Nat.lt_of_succ_le (le_max_right fuel _), naviRbRemove_mono (le_max_left _ _) hrem⟩
  obtain ⟨ctx, c, l, r, rfl⟩ := RedBlack.Tree.exists_plug_of_mem hn
  have hat := at_plug.mpr h
  have hleft : m.left n = l.root? := hat.rep.1.near
  have hright : m.right n = r.root? := hat.rep.1.far
  rw [treeRemove, locate_eq hord]
  cases l with
  | nil =>
    rw [naviRbRemove, hleft] at hrem
    exact (Unlinking.self hat (.inl rfl)).done (.inr ⟨rfl, rfl⟩) hfuel hrem
  | node cl ll y lr =>
    cases r with
    | nil =>
      simp only [naviRbRemove, hleft, hright, RedBlack.Tree.root?_node,
        RedBlack.Tree.root?_nil] at hrem
      exact (Unlinking.self hat (.inr rfl)).done (.inl ⟨rfl, rfl⟩) hfuel hrem
    | node cr rl z rr =>
      set l := RedBlack.Tree.node cl ll y lr with hl
      have hsub := (Ctx.toList_plug_perm ctx (.node c l n (.node cr rl z rr))).length_eq
      rw [List.length_append, RedBlack.Tree.toList_node c l, List.length_append] at hsub
      have hlen := (Nat.le_of_add_right_le (Nat.le_of_add_right_le hsub.ge)).trans_lt hfuel
      obtain ⟨lctx, c', pl, p, hplug, hafter, hlast⟩ :=
        naviRbLast_eq (at_cons (s := .left).mpr hat) (n := y) rfl hlen
      have hpath : lastPath (.node cl ll y lr) [] = some (lctx, c', pl, p) := by
        rw [← hl, hplug, lastPath_plug hafter (t := .node c' pl p .nil) (by simp),
          List.append_nil, lastPath]
      rw [hplug] at hat
      obtain ⟨m₁, hswap, hun⟩ := Unlinking.swap hat hafter (by simp) (hplug ▸ rfl) hlast
      rw [← hplug] at hun
      rw [naviRbRemove, hleft, hright] at hrem
      simp only [hl, RedBlack.Tree.root?_node] at hrem
      rw [hlast, ok_bind, hswap, ok_bind] at hrem
      simp only [Option.bind_eq_bind, Option.bind_some, hl, hpath]
      exact hun.done (.inl ⟨rfl, rfl⟩) hfuel hrem

/-! ### What a removal keeps -/

omit [LinearOrder ι] in
/-- The last node is followed by nothing. -/
theorem plug_of_lastPath {p : ι} (h : lastPath t ctx₀ = some (ctx, c, l, p)) :
    ctx.plug (.node c l p .nil) = ctx₀.plug t ∧ ctx.after = ctx₀.after := by
  induction t, ctx₀ using lastPath.induct with
  | case1 ctx₀ => cases h
  | case2 c' l' y ctx₀ =>
    cases h
    exact ⟨rfl, rfl⟩
  | case3 c' l' y c₂ l₂ z r₂ ctx₀ ih => exact ih h

theorem plug_of_locate (h : locate n t ctx₀ = some (ctx, c, l, r)) :
    ctx.plug (.node c l n r) = ctx₀.plug t := by
  induction t generalizing ctx₀ with
  | nil => cases h
  | node c' l' y r' ihl ihr =>
    rw [locate] at h
    split_ifs at h with hlt hgt
    · exact ihl h
    · exact ihr h
    · obtain rfl : y = n := le_antisymm (not_lt.mp hlt) (not_lt.mp hgt)
      cases h
      rfl

omit [LinearOrder ι] in
/-- A node and its predecessor have changed places. -/
theorem toList_swap_pred {lctx : Ctx ι} (hafter : lctx.after = []) (ctx : Ctx ι) (c c' : Color)
    (n p : ι) (r pl : RedBlack.Tree ι) :
    ∃ before after, (ctx.plug (.node c (lctx.plug (.node c' pl p .nil)) n r)).toList =
        before ++ p :: n :: after ∧
      ((lctx ++ ⟨.left, c, p, r⟩ :: ctx).plug (.node c' pl n .nil)).toList =
        before ++ n :: p :: after := by
  refine ⟨ctx.before ++ (lctx.before ++ pl.toList), r.toList ++ ctx.after, ?_, ?_⟩
  · simp [Ctx.toList_plug, hafter]
  · simp [Ctx.toList_plug, Ctx.before_append, Ctx.after_append, Ctx.before, Ctx.after, hafter]

theorem toList_unlinkTree {u : RedBlack.Tree ι} (hu : r = .nil ∧ u = l ∨ l = .nil ∧ u = r)
    (hnodup : (ctx.plug (.node c l n r)).toList.Nodup) (h : unlinkTree ctx c u = some t) :
    t.toList = (ctx.plug (.node c l n r)).toList.erase n := by
  obtain ⟨⟨ctx', b⟩, hfix, rfl⟩ := Option.map_eq_some_iff.mp h
  rw [← toList_plug_child hu hnodup (unlinkFix_order hfix)]
  refine Ctx.toList_plug_congr ctx' ?_
  cases b with
  | false => rfl
  | true => exact RedBlack.Tree.toList_blacken u

/-- **A removal takes out the node** and keeps the order of the others. -/
theorem toList_treeRemove {t' : RedBlack.Tree ι} (hnodup : t.toList.Nodup)
    (h : treeRemove t n = some t') : t'.toList = t.toList.erase n := by
  obtain ⟨⟨ctx, c, l, r⟩, hloc, hrem⟩ := Option.bind_eq_some_iff.mp h
  obtain rfl : ctx.plug (.node c l n r) = t := plug_of_locate hloc
  cases l with
  | nil => exact toList_unlinkTree (.inr ⟨rfl, rfl⟩) hnodup hrem
  | node cl ll y lr =>
    cases r with
    | nil => exact toList_unlinkTree (.inl ⟨rfl, rfl⟩) hnodup hrem
    | node cr rl z rr =>
      obtain ⟨⟨lctx, c', pl, p⟩, hpath, hrem⟩ := Option.bind_eq_some_iff.mp hrem
      obtain ⟨hplug, hafter⟩ := plug_of_lastPath hpath
      obtain ⟨before, after, hlist, hlist'⟩ :=
        toList_swap_pred hafter ctx c c' n p (.node cr rl z rr) pl
      rw [hplug, Ctx.plug_nil] at hlist
      rw [hlist] at hnodup ⊢
      have hswap : (before ++ n :: p :: after).Perm (before ++ p :: n :: after) :=
        (List.Perm.swap p n after).append_left before
      rw [toList_unlinkTree (.inl ⟨rfl, rfl⟩) (hlist' ▸ hswap.nodup_iff.mpr hnodup) hrem, hlist']
      rw [List.nodup_append, List.nodup_cons, List.mem_cons, not_or] at hnodup
      refine erase_swap (fun hn => ?_) (Ne.symm hnodup.2.1.1.1) after
      exact hnodup.2.2 n hn n (List.mem_cons_of_mem p List.mem_cons_self) rfl

end NaviScheme
