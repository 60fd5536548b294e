import NaviScheme.Lib.RedBlack

/-!
# Bottom-up rebalancing of red–black trees

The two walks towards the root that restore the red–black conditions, on trees
with a context (`RedBlack.Ctx`) and independent of any memory layout.

* `RedBlack.insertFix` repairs a red tree below a red node; on a position of a
  balanced tree it always succeeds and gives a balanced tree with the same order
  (`RedBlack.insertFix_balanced`).
* `RedBlack.removeFix` makes room for a tree whose black-height is one too small.
  It reports whether the walk went all the way to the root. It only does that when
  everything along the path is black (`RedBlack.removeFix_climbed`), it keeps the
  order (`RedBlack.removeFix_order`), and on a position of a balanced tree it
  always succeeds and leaves room for a tree of the smaller height
  (`RedBlack.removeFix_fits`).

Both return `none` where a walk would have to look below an empty subtree.
-/

namespace RedBlack

universe u

variable {ι : Type u}

/-- The subtree on side `s`. -/
def Tree.child (s : Side) : Tree ι → Tree ι
  | .nil => .nil
  | .node _ l _ r => match s with
    | .left => l
    | .right => r

@[simp] theorem Tree.child_join (s : Side) (c : Color) (t : Tree ι) (x : ι) (u : Tree ι) :
    (Tree.join s c t x u).child s = t := by cases s <;> rfl

@[simp] theorem Tree.child_flip_join (s : Side) (c : Color) (t : Tree ι) (x : ι) (u : Tree ι) :
    (Tree.join s c t x u).child s.flip = u := by cases s <;> rfl

/-! ### Insertion -/

/-- Repairing a red tree `t` placed at a position whose node above may be red. -/
def insertFix : Tree ι → Ctx ι → Option (Tree ι)
  | t, [] => some t.blacken
  | t, [⟨s, c, p, u⟩] => if c = .black then some (t.join s c p u) else none
  | t, ⟨s, c, p, u⟩ :: ⟨s', c', g, v⟩ :: ctx =>
    if c = .black then some (Ctx.plug (⟨s, c, p, u⟩ :: ⟨s', c', g, v⟩ :: ctx) t)
    else if v.color = .red then
      insertFix (.join s' .red (.join s .black t p u) g v.blacken) ctx
    else if s = s' then
      some (Ctx.plug ctx (.join s' .black t p (.join s' .red u g v)))
    else match t with
      | .nil => none
      | .node d l x r =>
        some (Ctx.plug ctx (.join s' .black (.join s' .red u p ((Tree.node d l x r).child s')) x
          (.join s' .red ((Tree.node d l x r).child s'.flip) g v)))

/-- Repairing an insertion keeps the order. -/
theorem insertFix_toList {t t' : Tree ι} {ctx : Ctx ι} (h : insertFix t ctx = some t') :
    t'.toList = (ctx.plug t).toList := by
  induction t, ctx using insertFix.induct with
  | case1 t =>
    simp only [insertFix, Option.some.injEq] at h
    rw [← h, Tree.toList_blacken, Ctx.plug_nil]
  | case2 t s p u =>
    simp only [insertFix, if_true, Option.some.injEq] at h
    rw [← h]
    rfl
  | case3 t s c p u hc => simp [insertFix, hc] at h
  | case4 t s p u s' c' g v ctx =>
    simp only [insertFix, if_true, Option.some.injEq] at h
    rw [← h]
  | case5 t s c p u s' c' g v ctx hc hv ih =>
    simp only [insertFix, if_neg hc, if_pos hv] at h
    rw [ih h]
    refine Ctx.toList_plug_congr ctx ?_
    cases s <;> cases s' <;> simp [Tree.join]
  | case6 t c p u s c' g v ctx hc hv =>
    simp only [insertFix, if_neg hc, if_neg hv, if_true, Option.some.injEq] at h
    rw [← h]
    refine Ctx.toList_plug_congr ctx ?_
    cases s <;> simp [Tree.join]
  | case7 s c p u s' c' g v ctx hc hv hs => simp [insertFix, hc, hv, hs] at h
  | case8 s c p u s' c' g v ctx hc hv hs d l x r =>
    simp only [insertFix, if_neg hc, if_neg hv, if_neg hs, Option.some.injEq] at h
    rw [← h]
    refine Ctx.toList_plug_congr ctx ?_
    cases s <;> cases s' <;> first | exact absurd rfl hs | simp [Tree.join, Tree.child]

/-- **Repairing an insertion into a balanced tree succeeds and gives a balanced
tree.** -/
theorem insertFix_balanced {t : Tree ι} {ctx : Ctx ι} {n : ℕ} (ht : Balanced t .red n)
    (hctx : ctx.Fits .black n) : ∃ t' k, insertFix t ctx = some t' ∧ Balanced t' .black k := by
  induction t, ctx using insertFix.induct generalizing n with
  | case1 t =>
    obtain ⟨k, hk⟩ := ht.blacken
    exact ⟨_, k, rfl, hk⟩
  | case2 t s p u =>
    cases hctx with
    | black hroot hu =>
      have hp := Balanced.join_black (s := s) (x := p) |>.mpr ⟨_, _, _, rfl, ht, hu⟩
      exact ⟨_, _, by simp only [insertFix, if_true], hp⟩
  | case3 t s c p u hc =>
    -- a red node above, itself at the root, does not occur in a balanced tree
    cases hctx with
    | red hroot hu => cases hroot
    | black hroot hu => exact absurd rfl hc
  | case4 t s p u s' c' g v ctx =>
    cases hctx with
    | black hgrand hu =>
      obtain ⟨k, hk⟩ := (Ctx.Fits.black (s := s) (x := p) (c := .red) hgrand hu).plug ht
      exact ⟨_, k, by simp [insertFix], hk⟩
  | case5 t s c p u s' c' g v ctx hc hv ih =>
    cases hctx with
    | black hgrand hu => exact absurd rfl hc
    | red hgrand hu =>
      cases hgrand with
      | black hroot hvb =>
        have hpb := Balanced.join_black (s := s) (x := p) |>.mpr ⟨_, _, _, rfl, ht, hu⟩
        obtain ⟨t', k, heq, hk⟩ :=
          ih (Balanced.join_red.mpr ⟨hpb, (hvb.to_red hv).blacken_red⟩) hroot
        exact ⟨t', k, by simpa only [insertFix, if_neg hc, if_pos hv] using heq, hk⟩
  | case6 t c p u s c' g v ctx hc hv =>
    cases hctx with
    | black hgrand hu => exact absurd rfl hc
    | red hgrand hu =>
      cases hgrand with
      | black hroot hvb =>
        have hg := Balanced.join_red (s := s) (x := g) |>.mpr ⟨hu, hvb.to_black hv⟩
        have hp := Balanced.join_black (s := s) (x := p) |>.mpr ⟨_, _, _, rfl, ht, hg⟩
        obtain ⟨k, hk⟩ := hroot.plug hp
        exact ⟨_, k, by simp only [insertFix, if_neg hc, if_neg hv, if_true], hk⟩
  | case7 s c p u s' c' g v ctx hc hv hs => cases ht
  | case8 s c p u s' c' g v ctx hc hv hs d l x r =>
    cases hctx with
    | black hgrand hu => exact absurd rfl hc
    | red hgrand hu =>
      cases hgrand with
      | black hroot hvb =>
        obtain ⟨near, far, hjoin⟩ := Tree.exists_eq_join s' l x r
        rw [hjoin] at ht
        obtain rfl : d = .red := by simpa using ht.color_eq
        obtain ⟨hnear, hfar⟩ := Balanced.join_red.mp ht
        have hp := Balanced.join_red (s := s') (x := p) |>.mpr ⟨hu, hnear⟩
        have hg := Balanced.join_red (s := s') (x := g) |>.mpr ⟨hfar, hvb.to_black hv⟩
        have hx := Balanced.join_black (s := s') (x := x) |>.mpr ⟨_, _, _, rfl, hp, hg⟩
        obtain ⟨k, hk⟩ := hroot.plug hx
        refine ⟨_, k, ?_, hk⟩
        simp only [insertFix, if_neg hc, if_neg hv, if_neg hs]
        rw [hjoin, Tree.child_join, Tree.child_flip_join]

/-! ### Removal -/

/-- Lifting the sibling `S` of a position above the node over it: `near` becomes the
position's new sibling, and `far`, painted black, hangs on the other side of `S`. -/
def liftSibling (s : Side) (c : Color) (p : ι) (near : Tree ι) (S : ι) (far : Tree ι) :
    Option (List (Frame ι)) :=
  match far with
  | .nil => none
  | .node d l x r => some [⟨s, .black, p, near⟩, ⟨s, c, S, (Tree.node d l x r).blacken⟩]

/-- Lifting the sibling `S`, or its child `near` where that one is red and the other
child is not. -/
def liftNear (s : Side) (c : Color) (p : ι) (d : Color) (near : Tree ι) (S : ι) (far : Tree ι) :
    Option (List (Frame ι)) :=
  match near with
  | .node .red l N r =>
    if d = .black ∧ far.color = .black then
      liftSibling s c p ((Tree.node .red l N r).child s) N
        (.join s .red ((Tree.node .red l N r).child s.flip) S far)
    else liftSibling s c p near S far
  | _ => liftSibling s c p near S far

/-- The last steps of `RedBlack.removeFix`, below a node that need not be black. -/
def settle (s : Side) (c : Color) (p : ι) : Tree ι → Option (List (Frame ι))
  | .nil => some [⟨s, c, p, .nil⟩]
  | .node d l S r =>
    if c = .red ∧ d = .black ∧ l.color = .black ∧ r.color = .black then
      some [⟨s, .black, p, .node .red l S r⟩]
    else liftNear s c p d ((Tree.node d l S r).child s) S ((Tree.node d l S r).child s.flip)

theorem settle_join {s : Side} {c d : Color} {p S : ι} {near far : Tree ι} :
    settle s c p (.join s d near S far) =
      if c = .red ∧ d = .black ∧ near.color = .black ∧ far.color = .black then
        some [⟨s, .black, p, .join s .red near S far⟩]
      else liftNear s c p d near S far := by
  cases s
  · rfl
  · simp only [Tree.join, settle, Tree.child, Side.flip_right, and_comm (a := far.color = .black)]

theorem liftSibling_ne_nil {s : Side} {c : Color} {p S : ι} {near far : Tree ι} :
    liftSibling s c p near S far ≠ some [] := by
  cases far <;> simp [liftSibling]

theorem settle_ne_nil {s : Side} {c : Color} {p : ι} {u : Tree ι} : settle s c p u ≠ some [] := by
  cases u with
  | nil => simp [settle]
  | node d l S r =>
    simp only [settle]
    split
    · simp
    · unfold liftNear
      split
      · split <;> exact liftSibling_ne_nil
      · exact liftSibling_ne_nil

/-- **Making room for a tree whose black-height is one too small**, by moving up from
the position. The Boolean says whether the walk went all the way to the root. -/
def removeFix : Ctx ι → Option (Ctx ι × Bool)
  | [] => some ([], true)
  | ⟨s, c, p, .nil⟩ :: ctx => some (⟨s, c, p, .nil⟩ :: ctx, false)
  | ⟨s, _, p, .node .red l S r⟩ :: ctx =>
    (settle s .red p ((Tree.node .red l S r).child s)).map fun fs =>
      (fs ++ ⟨s, .black, S, (Tree.node .red l S r).child s.flip⟩ :: ctx, false)
  | ⟨s, c, p, .node .black l S r⟩ :: ctx =>
    if c = .black ∧ l.color = .black ∧ r.color = .black then
      (removeFix ctx).map fun res => (⟨s, c, p, .node .red l S r⟩ :: res.1, res.2)
    else (settle s c p (.node .black l S r)).map fun fs => (fs ++ ctx, false)

/-- A path all of whose nodes are black, with black siblings that have black children:
the one kind of path that `RedBlack.removeFix` climbs to the root. -/
def Ctx.AllBlack (ctx : Ctx ι) : Prop :=
  ∀ f ∈ ctx, f.color = .black ∧ ∃ l S r, f.sib = .node .black l S r ∧
    l.color = .black ∧ r.color = .black

/-- **The walk reaches the root only along a path of black nodes.** -/
theorem removeFix_climbed {ctx ctx' : Ctx ι} (h : removeFix ctx = some (ctx', true)) :
    ctx.AllBlack := by
  induction ctx using removeFix.induct generalizing ctx' with
  | case1 => intro f hf; simp at hf
  | case2 s c p ctx => simp [removeFix] at h
  | case3 s c p l S r ctx => simp [removeFix] at h
  | case4 s c p l S r ctx hblack ih =>
    simp only [removeFix, if_pos hblack, Option.map_eq_some_iff] at h
    obtain ⟨⟨rest, b⟩, hrest, heq⟩ := h
    obtain rfl : b = true := congrArg Prod.snd heq
    intro f hf
    rcases List.mem_cons.mp hf with rfl | hf
    · exact ⟨hblack.1, l, S, r, rfl, hblack.2⟩
    · exact ih hrest f hf
  | case5 s c p l S r ctx hblack => simp [removeFix, hblack] at h

/-- The loop climbs to the root along a path of black nodes, and paints the siblings red. -/
theorem removeFix_of_allBlack {s : Side} {c : Color} {p : ι} {u : Tree ι} {ctx : Ctx ι}
    (h : Ctx.AllBlack (⟨s, c, p, u⟩ :: ctx)) :
    ∃ l S r ctx', u = .node .black l S r ∧
      removeFix (⟨s, c, p, u⟩ :: ctx) = some (⟨s, c, p, .node .red l S r⟩ :: ctx', true) := by
  induction ctx generalizing s c p u with
  | nil =>
    obtain ⟨hc, l, S, r, hu, hl, hr⟩ := h _ List.mem_cons_self
    obtain rfl : c = .black := hc
    obtain rfl : u = .node .black l S r := hu
    exact ⟨l, S, r, [], rfl, by simp [removeFix, hl, hr]⟩
  | cons f ctx ih =>
    obtain ⟨hc, l, S, r, hu, hl, hr⟩ := h _ List.mem_cons_self
    obtain rfl : c = .black := hc
    obtain rfl : u = .node .black l S r := hu
    obtain ⟨l', S', r', ctx', -, hfix⟩ := ih fun g hg => h g (List.mem_cons_of_mem _ hg)
    exact ⟨l, S, r, _, rfl, by rw [removeFix, if_pos ⟨rfl, hl, hr⟩, hfix]; rfl⟩

/-! ### The order -/

/-- Two contexts with the same identifiers on each side of the position. -/
def Ctx.SameOrder (ctx ctx' : Ctx ι) : Prop :=
  before ctx' = before ctx ∧ after ctx' = after ctx

/-- Plugging the same tree into two such contexts gives trees with the same order. -/
theorem Ctx.SameOrder.toList_plug {ctx ctx' : Ctx ι} (h : ctx.SameOrder ctx') (t : Tree ι) :
    (ctx'.plug t).toList = (ctx.plug t).toList := by
  rw [Ctx.toList_plug, Ctx.toList_plug, h.1, h.2]

theorem liftSibling_order {s : Side} {c : Color} {p S : ι} {near far : Tree ι}
    {fs : List (Frame ι)} (h : liftSibling s c p near S far = some fs) (c' d : Color)
    (ctx : Ctx ι) :
    Ctx.SameOrder (⟨s, c', p, .join s d near S far⟩ :: ctx) (fs ++ ctx) := by
  cases far with
  | nil => simp [liftSibling] at h
  | node e l x r =>
    simp only [liftSibling, Option.some.injEq] at h
    subst h
    cases s <;> simp [Ctx.SameOrder, Ctx.before, Ctx.after, Tree.join, Tree.blacken]

theorem liftNear_order {s : Side} {c d : Color} {p S : ι} {near far : Tree ι}
    {fs : List (Frame ι)} (h : liftNear s c p d near S far = some fs) (c' : Color)
    (ctx : Ctx ι) :
    Ctx.SameOrder (⟨s, c', p, .join s d near S far⟩ :: ctx) (fs ++ ctx) := by
  unfold liftNear at h
  split at h
  · rename_i l N r
    split at h
    · have hord := liftSibling_order h c' .black ctx
      refine ⟨hord.1.trans ?_, hord.2.trans ?_⟩ <;>
        cases s <;> simp [Ctx.before, Ctx.after, Tree.join, Tree.child]
    · exact liftSibling_order h c' d ctx
  · exact liftSibling_order h c' d ctx

theorem settle_order {s : Side} {c : Color} {p : ι} {u : Tree ι} {fs : List (Frame ι)}
    (h : settle s c p u = some fs) (c' : Color) (ctx : Ctx ι) :
    Ctx.SameOrder (⟨s, c', p, u⟩ :: ctx) (fs ++ ctx) := by
  cases u with
  | nil =>
    simp only [settle, Option.some.injEq] at h
    subst h
    cases s <;> simp [Ctx.SameOrder, Ctx.before, Ctx.after]
  | node d l S r =>
    obtain ⟨near, far, hjoin⟩ := Tree.exists_eq_join s l S r
    rw [hjoin, settle_join] at h
    rw [hjoin]
    split at h
    · simp only [Option.some.injEq] at h
      subst h
      cases s <;> simp [Ctx.SameOrder, Ctx.before, Ctx.after, Tree.join]
    · exact liftNear_order h c' ctx

/-- **Making room keeps the order.** -/
theorem removeFix_order {ctx ctx' : Ctx ι} {b : Bool} (h : removeFix ctx = some (ctx', b)) :
    ctx.SameOrder ctx' := by
  induction ctx using removeFix.induct generalizing ctx' with
  | case1 =>
    simp only [removeFix, Option.some.injEq, Prod.mk.injEq] at h
    rw [← h.1]
    exact ⟨rfl, rfl⟩
  | case2 s c p ctx =>
    simp only [removeFix, Option.some.injEq, Prod.mk.injEq] at h
    rw [← h.1]
    exact ⟨rfl, rfl⟩
  | case3 s c p l S r ctx =>
    simp only [removeFix, Option.map_eq_some_iff, Prod.mk.injEq] at h
    obtain ⟨fs, hfs, rfl, -⟩ := h
    have hord := settle_order hfs .red
      (⟨s, .black, S, (Tree.node .red l S r).child s.flip⟩ :: ctx)
    refine ⟨hord.1.trans ?_, hord.2.trans ?_⟩ <;>
      cases s <;> simp [Ctx.before, Ctx.after, Tree.child]
  | case4 s c p l S r ctx hblack ih =>
    simp only [removeFix, if_pos hblack, Option.map_eq_some_iff, Prod.mk.injEq] at h
    obtain ⟨⟨rest, b'⟩, hrest, rfl, rfl⟩ := h
    obtain ⟨hbefore, hafter⟩ := ih hrest
    constructor <;> cases s <;> simp [Ctx.before, Ctx.after, hbefore, hafter]
  | case5 s c p l S r ctx hblack =>
    simp only [removeFix, if_neg hblack, Option.map_eq_some_iff, Prod.mk.injEq] at h
    obtain ⟨fs, hfs, rfl, -⟩ := h
    exact settle_order hfs c ctx

/-! ### The room made -/

/-- Lifting the sibling makes room for a tree of black-height one smaller. -/
theorem liftSibling_fits {s : Side} {c d : Color} {p S : ι} {near far : Tree ι} {ctx : Ctx ι}
    {n : ℕ} (hnear : Balanced near d n) (hfar : Balanced far .red n)
    (hctx : ∀ u : Tree ι, Balanced u .black (n + 1) →
      Ctx.Fits (⟨s, c, S, u⟩ :: ctx) .black (n + 1)) :
    ∃ fs, liftSibling s c p near S far = some fs ∧ ∀ e, Ctx.Fits (fs ++ ctx) e n := by
  cases far with
  | nil => cases hfar
  | node e l x r =>
    exact ⟨_, rfl, fun e => .black (hctx _ hfar.blacken_red) hnear⟩

theorem liftNear_fits {s : Side} {c d e : Color} {p S : ι} {near far : Tree ι} {ctx : Ctx ι}
    {n : ℕ} (hnear : Balanced near d n) (hfar : Balanced far e n)
    (hctx : ∀ (x : ι) (u : Tree ι), Balanced u .black (n + 1) →
      Ctx.Fits (⟨s, c, x, u⟩ :: ctx) .black (n + 1))
    (hred : near.color = .red ∨ far.color = .red) :
    ∃ fs, liftNear s c p .black near S far = some fs ∧ ∀ e, Ctx.Fits (fs ++ ctx) e n := by
  unfold liftNear
  split
  · rename_i l N r
    obtain rfl : d = .red := hnear.color_eq.symm
    obtain ⟨nn, nf, hjoin⟩ := Tree.exists_eq_join s l N r
    rw [hjoin] at hnear ⊢
    obtain ⟨hnn, hnf⟩ := Balanced.join_red.mp hnear
    simp only [Tree.child_join, Tree.child_flip_join]
    split
    · rename_i hfb
      have hfar' := Balanced.join_red (s := s) (x := S) |>.mpr
        ⟨hnf, hfar.to_black (by simp [hfb.2])⟩
      exact liftSibling_fits hnn hfar' (hctx N)
    · rename_i hfb
      have hfr : far.color = .red := by cases hf : far.color <;> simp_all
      exact liftSibling_fits hnear (hfar.to_red hfr) (hctx S)
  · rename_i hN
    have hfr : far.color = .red := by
      refine hred.resolve_left fun hnr => ?_
      cases near with
      | nil => simp at hnr
      | node cn l N r =>
        obtain rfl : cn = .red := hnr
        exact hN _ _ _ rfl
    exact liftSibling_fits hnear (hfar.to_red hfr) (hctx S)

/-- The last steps make room for a tree of black-height one smaller, below any node
that has room for a black tree next to a black sibling of the same height. -/
theorem settle_fits {s : Side} {c : Color} {p : ι} {u : Tree ι} {ctx : Ctx ι} {n : ℕ}
    (hu : Balanced u .black (n + 1)) (hctx : Ctx.Fits (⟨s, c, p, u⟩ :: ctx) .black (n + 1))
    (hc : ¬(c = .black ∧ (u.child s).color = .black ∧ (u.child s.flip).color = .black)) :
    ∃ fs, settle s c p u = some fs ∧ ∀ d, Ctx.Fits (fs ++ ctx) d n := by
  have hroom : ∀ (S : ι) (v : Tree ι), Balanced v .black (n + 1) →
      Ctx.Fits (⟨s, c, S, v⟩ :: ctx) .black (n + 1) := by
    intro S v hv
    cases hctx with
    | red hroot _ => exact .red hroot hv
    | black hroot _ => exact .black hroot hv
  obtain ⟨l, S, r, rfl⟩ := hu.exists_node
  obtain ⟨near, far, hjoin⟩ := Tree.exists_eq_join s l S r
  rw [hjoin] at hu hc ⊢
  simp only [Tree.child_join, Tree.child_flip_join] at hc
  obtain ⟨d, e, k, hk, hnear, hfar⟩ := Balanced.join_black.mp hu
  obtain rfl : n = k := by omega
  rw [settle_join]
  split
  · rename_i hall
    obtain ⟨rfl, -, hnb, hfb⟩ := hall
    have hred := Balanced.join_red (s := s) (x := S) |>.mpr
      ⟨hnear.to_black (by simp [hnb]), hfar.to_black (by simp [hfb])⟩
    cases hctx with
    | red hroot _ => exact ⟨_, rfl, fun d' => .black hroot.to_black hred⟩
  · rename_i hall
    have hchild : near.color = .red ∨ far.color = .red := by
      cases hc' : c <;> cases hn : near.color <;> cases hf : far.color <;> simp_all
    exact liftNear_fits hnear hfar hroom hchild

/-- **Making room in a balanced tree succeeds**: where there was room for a black tree
of height `n + 1` there is room for a tree of height `n`, of any colour unless the
position is the root. -/
theorem removeFix_fits {ctx : Ctx ι} {n : ℕ} (h : ctx.Fits .black (n + 1)) :
    ∃ ctx' b, removeFix ctx = some (ctx', b) ∧
      ∀ c, (ctx = [] → c = .black) → Ctx.Fits ctx' c n := by
  induction ctx using removeFix.induct generalizing n with
  | case1 =>
    refine ⟨[], true, rfl, fun c hc => ?_⟩
    rw [hc rfl]
    exact .nil n
  | case2 s c p ctx =>
    -- an empty sibling has no room next to it for a node
    cases h with
    | red _ hu => cases hu
    | black _ hu => cases hu
  | case3 s c p l S r ctx =>
    cases h with
    | red _ hu => exact absurd hu.color_eq (by simp)
    | black hroot hu =>
      obtain rfl : _ = Color.red := hu.color_eq.symm
      obtain ⟨near, far, hjoin⟩ := Tree.exists_eq_join s l S r
      rw [hjoin] at hu
      obtain ⟨hnear, hfar⟩ := Balanced.join_red.mp hu
      obtain ⟨fs, hfs, hfits⟩ := settle_fits (p := p) hnear
        (.red (.black (s := s) (x := S) (c := .red) hroot hfar) hnear) (by simp)
      refine ⟨_, false, ?_, fun c _ => hfits c⟩
      rw [removeFix, hjoin, Tree.child_join, Tree.child_flip_join, hfs]
      rfl
  | case4 s c p l S r ctx hblack ih =>
    obtain ⟨rfl, hl, hr⟩ := hblack
    cases h with
    | black hroot hu =>
      obtain rfl : _ = Color.black := hu.color_eq.symm
      obtain ⟨ctx', b, heq, hfits⟩ := ih hroot
      refine ⟨_, b, by simp only [removeFix, hl, hr, and_self, if_true, heq]; rfl, fun c _ => ?_⟩
      refine .black (hfits .black fun _ => rfl) (d := .red) ?_
      cases hu with
      | black hbl hbr => exact .red (hbl.to_black (by simp [hl])) (hbr.to_black (by simp [hr]))
  | case5 s c p l S r ctx hblack =>
    have hu : Balanced (Tree.node .black l S r) .black (n + 1) := by
      cases h with
      | red _ hu => exact hu
      | black _ hu => exact hu.to_black (by simp)
    obtain ⟨fs, hfs, hfits⟩ := settle_fits hu h fun hall => hblack <| by
      cases s <;> simpa [Tree.child, and_comm] using hall
    exact ⟨_, false, by simp only [removeFix, if_neg hblack, hfs]; rfl, fun c _ => hfits c⟩

/-! ### The walk to the root -/

/-- Where a walk climbs to the root below a red child, the paths through the child get one
black node more than those through its sibling. -/
theorem not_balanced_of_climb {s : Side} {c : Color} {n p S : ι} {l r u ls rs : Tree ι}
    {ctx ctx' : Ctx ι} {k k' : ℕ}
    (hbal : Balanced
      (Ctx.plug (⟨s, .black, p, .node .black ls S rs⟩ :: ctx) (.node .black l n r)) .black k)
    (hu : r = .nil ∧ u = l ∨ l = .nil ∧ u = r) (hred : u.color = .red) :
    ¬ Balanced (Ctx.plug (⟨s, c, p, .node .red ls S rs⟩ :: ctx') u.blacken) .black k' := by
  intro hbal'
  obtain ⟨cb, j, hb, -⟩ := Balanced.split_cons hbal
  obtain ⟨_, _, i, -, hnode, hsib⟩ : ∃ c d i, j = i + 1 ∧
      Balanced (.node .black l n r) c i ∧ Balanced (.node .black ls S rs) d i := by
    obtain rfl : Color.black = cb := by simpa using hb.color_eq
    exact Balanced.join_black.mp hb
  -- the child has no black nodes below it, and so the sibling has one
  have hi : Balanced u .red 0 ∧ i = 1 := by
    cases hnode with
    | black hl hr =>
      rcases hu with ⟨rfl, rfl⟩ | ⟨rfl, rfl⟩
      · cases hr
        exact ⟨hl.to_red hred, rfl⟩
      · cases hl
        exact ⟨hr.to_red hred, rfl⟩
  obtain ⟨hu0, rfl⟩ := hi
  have hls : ∃ cl, Balanced ls cl 0 := by
    cases hsib with
    | black hls hrs => exact ⟨_, hls⟩
  obtain ⟨cl, hls⟩ := hls
  -- painting the child black and the sibling red upsets the balance
  obtain ⟨cb', j', hb', -⟩ := Balanced.split_cons hbal'
  have hboth : ∃ d e i, Balanced u.blacken d i ∧
      Balanced (.node .red ls S rs) e i := by
    cases c with
    | red =>
      obtain rfl : Color.red = cb' := by simpa using hb'.color_eq
      obtain ⟨h1, h2⟩ := Balanced.join_red.mp hb'
      exact ⟨_, _, _, h1, h2⟩
    | black =>
      obtain rfl : Color.black = cb' := by simpa using hb'.color_eq
      obtain ⟨_, _, _, -, h1, h2⟩ := Balanced.join_black.mp hb'
      exact ⟨_, _, _, h1, h2⟩
  obtain ⟨d, e, i, h1, h2⟩ := hboth
  have hone : i = 1 := h1.height_unique hu0.blacken_red
  cases h2 with
  | red hls' hrs' => exact absurd (hls.height_unique hls') (by omega)

end RedBlack
