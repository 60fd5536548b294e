import NaviScheme.RbTree.Run

/-!
# Iteration

`rb_for_each` begins at `navi_rb_first` and goes on by `navi_rb_next`, which follows the links to
parents back up. In a tree of any shape and with any colouring it comes to each node once, in
order, and ends (`NaviScheme.At.rbForEach_eq`).

At a position, what is still to come is to the right of it: the right-hand subtree, and then
`RedBlack.Ctx.after`.
-/

namespace NaviScheme

open RedBlack

variable {ι : Type} {m : Mem ι} {d n : ι} {ctx : Ctx ι} {t : RedBlack.Tree ι}

/-- A position has no more nodes above it than there are in the tree. -/
theorem length_ctx_le (ctx : Ctx ι) (t : RedBlack.Tree ι) :
    ctx.length ≤ (ctx.plug t).toList.length := by
  have hperm := (Ctx.toList_plug_perm ctx t).length_eq
  rw [List.length_append] at hperm
  have hle := Ctx.length_le_nodes ctx
  omega

/-- The first node below a node: the end of the left-hand path. -/
theorem At.rbFirstLoop_eq (h : At m d ctx t) (hn : t.root? = some n) {fuel : ℕ}
    (hfuel : t.toList.length < fuel) :
    ∃ lctx c p r, t = Ctx.plug lctx (.node c .nil p r) ∧ lctx.before = [] ∧
      rbFirstLoop fuel m n = .ok p := by
  induction t generalizing ctx n fuel with
  | nil => simp at hn
  | node c l x r ihl ihr =>
    obtain ⟨fuel, rfl⟩ : ∃ k, fuel = k + 1 := ⟨fuel - 1, by omega⟩
    obtain rfl : x = n := by simpa using hn
    have hnode : NodeAt m x .left l.root? r.root? _ _ := h.rep.1
    have hleft : m.left x = l.root? := hnode.near
    cases hl : l.root? with
    | none =>
      obtain rfl := RedBlack.Tree.root?_eq_none.mp hl
      exact ⟨[], c, x, r, rfl, rfl, by simp [rbFirstLoop, hleft]⟩
    | some y =>
      simp only [RedBlack.Tree.toList_node, List.length_append, List.length_cons] at hfuel
      have hlt : l.toList.length < fuel := by omega
      obtain ⟨lctx, c', p, r', rfl, hbefore, hfirst⟩ := ihl (at_cons (s := .left).mpr h) hl hlt
      refine ⟨lctx ++ [⟨.left, c, x, r⟩], c', p, r', ?_, ?_, ?_⟩
      · rw [Ctx.plug_append]
        rfl
      · rw [Ctx.before_append, hbefore]
        rfl
      · rw [rbFirstLoop, hleft, hl]
        exact hfirst

/-- The first node of a subtree that is not empty, and what comes after it. -/
theorem At.naviRbFirst_eq (h : At m d ctx t) (hn : t.root? = some n) {fuel : ℕ}
    (hfuel : t.toList.length < fuel) :
    ∃ ctx' c p r, At m d ctx' (.node c .nil p r) ∧ naviRbFirst fuel m (some n) = .ok (some p) ∧
      ctx'.plug (.node c .nil p r) = ctx.plug t ∧
      p :: (r.toList ++ ctx'.after) = t.toList ++ ctx.after := by
  obtain ⟨lctx, c, p, r, rfl, hbefore, hfirst⟩ := h.rbFirstLoop_eq hn hfuel
  refine ⟨lctx ++ ctx, c, p, r, at_append.mpr h, ?_, Ctx.plug_append lctx ctx _, ?_⟩
  · rw [naviRbFirst, hfirst]
    rfl
  · rw [Ctx.toList_plug, hbefore, Ctx.after_append]
    simp

variable [DecidableEq ι]

/-- The walk up, out of the right-hand subtrees. -/
theorem At.rbNextLoop_eq (h : At m d ctx t) (hn : t.root? = some n) {fuel : ℕ}
    (hfuel : ctx.length < fuel) :
    ∃ ctx' t' n', At m d ctx' t' ∧ t'.root? = some n' ∧ rbNextLoop fuel m n = .ok n' ∧
      sideOf ctx' = .left ∧ ctx'.plug t' = ctx.plug t ∧ ctx'.after = ctx.after := by
  induction ctx generalizing t n fuel with
  | nil =>
    obtain ⟨fuel, rfl⟩ : ∃ k, fuel = k + 1 := ⟨fuel - 1, by omega⟩
    refine ⟨[], t, n, h, hn, ?_, rfl, rfl, rfl⟩
    rw [rbNextLoop, isRightChild, h.isChild_eq hn]
    rfl
  | cons f ctx ih =>
    obtain ⟨fuel, rfl⟩ : ∃ k, fuel = k + 1 := ⟨fuel - 1, by omega⟩
    obtain ⟨s, c, x, u⟩ := f
    cases s with
    | left =>
      refine ⟨_, t, n, h, hn, ?_, rfl, rfl, rfl⟩
      rw [rbNextLoop, isRightChild, h.isChild_eq hn]
      rfl
    | right =>
      obtain ⟨ctx', t', n', hat, hroot, hloop, hside, hplug, hafter⟩ :=
        ih (at_cons.mp h) (n := x) rfl (Nat.lt_of_succ_lt_succ hfuel)
      refine ⟨ctx', t', n', hat, hroot, ?_, hside, hplug, hafter⟩
      rw [rbNextLoop, isRightChild, h.isChild_eq hn, h.parent_eq hn]
      exact hloop

/-- **The next node in order**, if there is one. -/
theorem At.naviRbNext_eq {c : Color} {l r : RedBlack.Tree ι} (h : At m d ctx (.node c l n r))
    {fuel : ℕ} (hfuel : (ctx.plug (.node c l n r)).toList.length < fuel) :
    (naviRbNext fuel m n = .ok none ∧ r.toList ++ ctx.after = []) ∨
      ∃ ctx' c' l' n' r', At m d ctx' (.node c' l' n' r') ∧ naviRbNext fuel m n = .ok (some n') ∧
        ctx'.plug (.node c' l' n' r') = ctx.plug (.node c l n r) ∧
        n' :: (r'.toList ++ ctx'.after) = r.toList ++ ctx.after := by
  have hlen := (Ctx.toList_plug_perm ctx (.node c l n r)).length_eq
  rw [List.length_append, RedBlack.Tree.toList_node, List.length_append, List.length_cons] at hlen
  have hright : m.right n = r.root? := h.rep.1.far
  cases hr : r.root? with
  | some y =>
    have hrlen : r.toList.length < fuel := by omega
    obtain ⟨ctx', c', p, r', hat, hfirst, hplug, hrest⟩ :=
      (at_cons (s := .right).mpr h).naviRbFirst_eq hr hrlen
    refine .inr ⟨ctx', c', .nil, p, r', hat, ?_, hplug, hrest⟩
    rw [naviRbNext, hright, hr]
    exact hfirst
  | none =>
    obtain rfl := RedBlack.Tree.root?_eq_none.mp hr
    have hctx : ctx.length < fuel := (length_ctx_le ctx _).trans_lt hfuel
    obtain ⟨ctx', t', n', hat, hroot, hloop, hside, hplug, hafter⟩ := h.rbNextLoop_eq rfl hctx
    have hnext : naviRbNext fuel m n = do
        if ← isRoot m n' then return none else return m.parent n' := by
      rw [naviRbNext, hright, hr, hloop]
      rfl
    rw [hat.isRoot_eq hroot, hat.parent_eq hroot] at hnext
    cases ctx' with
    | nil => exact .inl ⟨hnext, hafter.symm⟩
    | cons f ctx' =>
      obtain ⟨s, c', p, u⟩ := f
      obtain rfl : s = .left := hside
      exact .inr ⟨ctx', c', t', p, u, at_cons.mp hat, hnext, hplug, hafter⟩

/-- From a node on, the loop comes to what is behind it in order. -/
theorem At.rbForEachLoop_eq {c : Color} {l r : RedBlack.Tree ι} (h : At m d ctx (.node c l n r))
    {fuel k : ℕ} (hfuel : (ctx.plug (.node c l n r)).toList.length < fuel)
    (hk : (r.toList ++ ctx.after).length + 1 < k) :
    rbForEachLoop fuel m k (some n) = .ok (n :: (r.toList ++ ctx.after)) := by
  induction hrest : r.toList ++ ctx.after generalizing ctx c l n r k with
  | nil =>
    obtain ⟨k, rfl⟩ : ∃ j, k = j + 2 := ⟨k - 2, by omega⟩
    rcases h.naviRbNext_eq hfuel with ⟨hnext, -⟩ | ⟨_, _, _, _, _, -, -, -, hcons⟩
    · rw [rbForEachLoop, hnext]
      rfl
    · exact absurd (hcons.trans hrest) (List.cons_ne_nil _ _)
  | cons y ys ih =>
    obtain ⟨k, rfl⟩ : ∃ j, k = j + 1 := ⟨k - 1, by omega⟩
    rcases h.naviRbNext_eq hfuel with ⟨-, hnil⟩ | ⟨ctx', c', l', n', r', hat, hnext, hplug, hcons⟩
    · exact absurd (hrest.symm.trans hnil) (List.cons_ne_nil _ _)
    · rw [hrest] at hcons hk
      obtain ⟨rfl, htail⟩ := List.cons.inj hcons
      rw [List.length_cons] at hk
      have hloop := ih hat (hplug ▸ hfuel) (k := k) (by rw [htail]; omega) htail
      rw [rbForEachLoop, hnext, ok_bind, hloop]
      rfl

/-- **`rb_for_each` comes to each node of a tree once, in order**, and ends. -/
theorem At.rbForEach_eq (h : At m d [] t) {fuel : ℕ} (hfuel : t.toList.length + 1 < fuel) :
    rbForEach fuel m d = .ok t.toList := by
  have hleft : m.left d = t.root? := h.repC.near
  rw [rbForEach, hleft]
  cases ht : t.root? with
  | none =>
    obtain rfl := RedBlack.Tree.root?_eq_none.mp ht
    obtain ⟨fuel, rfl⟩ : ∃ k, fuel = k + 1 := ⟨fuel - 1, by omega⟩
    rfl
  | some n =>
    obtain ⟨ctx', c, p, r, hat, hfirst, hplug, hrest⟩ := h.naviRbFirst_eq ht
      (Nat.lt_of_succ_lt hfuel)
    have hlist : p :: (r.toList ++ ctx'.after) = t.toList := by simpa [Ctx.after] using hrest
    have hlen := congrArg List.length hlist
    rw [List.length_cons] at hlen
    rw [hfirst, ok_bind, hat.rbForEachLoop_eq (by rw [hplug]; exact Nat.lt_of_succ_lt hfuel)
      (by omega), hlist]

end NaviScheme
