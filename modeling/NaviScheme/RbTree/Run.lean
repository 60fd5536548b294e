import Mathlib.Data.Finset.Sort
import NaviScheme.RbTree.Insert
import NaviScheme.RbTree.Remove
import NaviScheme.RbTree.Swap

/-!
# Runs of insertions and removals

`navi_rb_remove` on a balanced tree, and whole runs of insertions and removals from
the empty tree. After its loop, `navi_rb_remove` paints the child that takes the
place of the removed node black if the loop variable is at the root. The loop moves
that variable: when the removed node is black with a red child and the walk climbs
all the way (`NaviScheme.RemoveClimbs`), a node far from the root is painted, and one
path gets a black node too many. The tree is still sorted, but a later removal can
follow a null pointer (`NaviScheme.rbRun_nullDeref`).

In every other case the tree stays balanced (`NaviScheme.naviRbRemove_spec`), so that
a run in which this never happens does what it should
(`NaviScheme.rbRun_sorted`).
-/

namespace NaviScheme

open RedBlack

variable {ι : Type}

/-! ### The place where a node is unlinked -/

section Position

variable {m m₁ : Mem ι} {d n v : ι} {ctx ctx₁ : Ctx ι} {t : RedBlack.Tree ι}

/-- The predecessor below a node: the end of the right-hand path. -/
theorem naviRbLast_eq (h : At m d ctx t) (hn : t.root? = some n) {fuel : ℕ}
    (hfuel : t.toList.length < fuel) :
    ∃ lctx c l p, t = Ctx.plug lctx (.node c l p .nil) ∧ lctx.after = [] ∧
      naviRbLast fuel m n = .ok p := by
  induction t generalizing ctx n fuel with
  | nil => simp at hn
  | node c l x r ihl ihr =>
    obtain ⟨fuel, rfl⟩ : ∃ k, fuel = k + 1 := ⟨fuel - 1, by omega⟩
    obtain rfl : x = n := by simpa using hn
    have hnode : NodeAt m x .left l.root? r.root? _ _ := h.rep.1
    have hright : m.right x = r.root? := hnode.far
    cases hr : r.root? with
    | none =>
      obtain rfl := RedBlack.Tree.root?_eq_none.mp hr
      exact ⟨[], c, l, x, rfl, rfl, by simp [naviRbLast, hright]⟩
    | some y =>
      simp only [RedBlack.Tree.toList_node, List.length_append, List.length_cons] at hfuel
      have hlt : r.toList.length < fuel := by omega
      obtain ⟨lctx, c', l', p, rfl, hafter, hlast⟩ := ihr (at_cons (s := .right).mpr h) hr hlt
      refine ⟨lctx ++ [⟨.right, c, x, l⟩], c', l', p, ?_, ?_, ?_⟩
      · rw [Ctx.plug_append]
        rfl
      · rw [Ctx.after_append, hafter]
        rfl
      · rw [naviRbLast, hright, hr]
        exact hlast

variable [DecidableEq ι]

/-- The node at whose place `n` is unlinked: its predecessor if it has two children. -/
def UnlinkedAt (m : Mem ι) (n v : ι) : Prop :=
  (∃ l fuel, m.left n = some l ∧ m.right n ≠ none ∧ naviRbLast fuel m l = .ok v) ∨
    (m.left n = none ∨ m.right n = none) ∧ v = n

/-- Case 3 applies at `n` and at every node above it: all are black, and so are their
siblings and the siblings' children. -/
inductive ClimbsToRoot (m : Mem ι) : ι → Prop
  /-- The root is reached. -/
  | root {n : ι} (hroot : isRoot m n = .ok true) : ClimbsToRoot m n
  /-- Case 3 applies. -/
  | step {n p s : ι} (hroot : isRoot m n = .ok false) (hp : m.parent n = some p)
      (hs : rbSibling m n = .ok (some s)) (hblack : isBlack m (some p) ∧ isBlack m (some s))
      (hchildren : isBlack m (m.left s) ∧ isBlack m (m.right s)) (hup : ClimbsToRoot m p) :
      ClimbsToRoot m n

/-- Removing `n` unlinks a black node with a red child from where case 3 applies all the
way to the root, which is not that node. -/
def RemoveClimbs (m : Mem ι) (n : ι) : Prop :=
  ∃ v, UnlinkedAt m n v ∧ isRoot m v = .ok false ∧ isBlack m (some v) ∧
    (isRed m (m.left v) ∨ isRed m (m.right v)) ∧ ClimbsToRoot m v

/-- Along a path of black nodes, case 3 applies all the way. -/
theorem ClimbsToRoot.of_allBlack (h : At m d ctx t) (hn : t.root? = some n)
    (hctx : ctx.AllBlack) : ClimbsToRoot m n := by
  induction ctx generalizing t n with
  | nil => exact .root (h.isRoot_eq hn)
  | cons f ctx ih =>
    obtain ⟨s, c, p, u⟩ := f
    obtain ⟨hc, l, S, r, hu, hl, hr⟩ := hctx _ List.mem_cons_self
    obtain rfl : c = .black := hc
    obtain rfl : u = .node .black l S r := hu
    have hrep := (at_flip.mp h).rep
    have hnode : NodeAt m S .left l.root? r.root? _ _ := hrep.1
    have hblackp := h.isBlack_parent hn
    rw [h.parent_eq hn] at hblackp
    refine .step (h.isRoot_eq hn) (h.parent_eq hn) (h.rbSibling_eq hn) ⟨by simpa using hblackp, ?_⟩
      ⟨?_, ?_⟩ (ih (at_cons.mp h) (by simp [above]) fun f hf => hctx f (List.mem_cons_of_mem _ hf))
    · simpa using isBlack_root? hrep
    · have hleft : m.left S = l.root? := hnode.near
      rw [hleft, isBlack_root? hrep.2.1, hl]
      rfl
    · have hright : m.right S = r.root? := hnode.far
      rw [hright, isBlack_root? hrep.2.2, hr]
      rfl

/-- The first half of `navi_rb_remove`: in the memory `m₁` the node `n` sits, with at most
one child, where `v` sits in `m`. -/
structure Unlinking (m m₁ : Mem ι) (d n v : ι) (t : RedBlack.Tree ι) (c : Color) (ctx ctx₁ : Ctx ι)
    (l r : RedBlack.Tree ι) : Prop where
  unlinkedAt : UnlinkedAt m n v
  before : At m d ctx (.node c l v r)
  after : At m₁ d ctx₁ (.node c l n r)
  child : l = .nil ∨ r = .nil
  allBlack : ctx₁.AllBlack → ctx.AllBlack
  isEmpty : ctx = [] → ctx₁ = []
  balanced : ∀ k, RedBlack.Balanced t .black k →
    RedBlack.Balanced (ctx₁.plug (.node c l n r)) .black k
  order : (ctx₁.plug (.node c l n r)).toList.erase n = t.toList.erase n
  length : ctx₁.length ≤ t.toList.length

/-- A node with at most one child is unlinked where it is. -/
theorem Unlinking.self {c : Color} {l r : RedBlack.Tree ι} (h : At m d ctx (.node c l n r))
    (hchild : l = .nil ∨ r = .nil) :
    Unlinking m m d n n (ctx.plug (.node c l n r)) c ctx ctx l r where
  unlinkedAt := by
    have hnode : NodeAt m n .left l.root? r.root? _ _ := h.rep.1
    refine .inr ⟨hchild.imp (fun hl => ?_) (fun hr => ?_), rfl⟩
    · exact hnode.near.trans (by rw [hl]; rfl)
    · exact hnode.far.trans (by rw [hr]; rfl)
  before := h
  after := h
  child := hchild
  allBlack := id
  isEmpty := id
  balanced := fun _ => id
  order := rfl
  length := by
    rw [(Ctx.toList_plug_perm ctx _).length_eq, List.length_append]
    exact (Ctx.length_le_nodes ctx).trans (Nat.le_add_left _ _)

/-- Exchanging two neighbours and then erasing the first is erasing it. -/
theorem erase_swap {n p : ι} {xs : List ι} (hn : n ∉ xs) (hnp : n ≠ p) (ys : List ι) :
    (xs ++ n :: p :: ys).erase n = (xs ++ p :: n :: ys).erase n := by
  rw [List.erase_append_right _ hn, List.erase_append_right _ hn]
  simp [Ne.symm hnp]

/-- Exchanging the names of a node and its predecessor moves each to the other's place. -/
theorem map_swap_pred {c c' : Color} {r pl : RedBlack.Tree ι} {lctx : Ctx ι} {p : ι}
    (hnodup : (ctx.plug (.node c (lctx.plug (.node c' pl p .nil)) n r)).toList.Nodup) :
    (ctx.plug (.node c (lctx.plug (.node c' pl p .nil)) n r)).map (Equiv.swap n p) =
      (lctx ++ ⟨.left, c, p, r⟩ :: ctx).plug (.node c' pl n .nil) := by
  have hplug : ctx.plug (.node c (lctx.plug (.node c' pl p .nil)) n r) =
      (lctx ++ ⟨.left, c, n, r⟩ :: ctx).plug (.node c' pl p .nil) := by
    rw [Ctx.plug_append]
    rfl
  rw [hplug, (Ctx.toList_plug_perm _ _).nodup_iff] at hnodup
  have hfix : ∀ x, x ∈ pl.toList ∨ x ∈ lctx.nodes ∨ x ∈ r.toList ∨ x ∈ ctx.nodes →
      Equiv.swap n p x = x := by
    intro x hx
    simp only [Ctx.nodes_append, Ctx.nodes_cons, RedBlack.Tree.toList_node,
      RedBlack.Tree.toList_nil,
      List.nodup_append, List.nodup_cons, List.mem_append, List.mem_cons, not_or] at hnodup
    refine Equiv.swap_apply_of_ne_of_ne ?_ ?_ <;> rintro rfl <;> grind
  rw [hplug, Ctx.map_plug, Ctx.map_append, Ctx.map_eq_self fun x hx => hfix x (.inr (.inl hx))]
  simp only [Ctx.map, List.map_cons, RedBlack.Tree.map, Equiv.swap_apply_left,
    Equiv.swap_apply_right]
  rw [RedBlack.Tree.map_eq_self fun x hx => hfix x (.inl hx),
    RedBlack.Tree.map_eq_self (t := r) fun x hx => hfix x (.inr (.inr (.inl hx)))]
  exact congrArg (fun ctx => Ctx.plug (lctx ++ _ :: ctx) _)
    (Ctx.map_eq_self fun x hx => hfix x (.inr (.inr (.inr hx))))

/-- A node with two children is unlinked where its predecessor is. -/
theorem Unlinking.swap {c c' : Color} {r pl : RedBlack.Tree ι} {lctx : Ctx ι} {p y : ι} {fuel : ℕ}
    (h : At m d ctx (.node c (lctx.plug (.node c' pl p .nil)) n r)) (hafter : lctx.after = [])
    (hr : r ≠ .nil) (hy : (lctx.plug (.node c' pl p .nil)).root? = some y)
    (hlast : naviRbLast fuel m y = .ok p) :
    ∃ m₁, NaviScheme.swap m n p = .ok m₁ ∧
      Unlinking m m₁ d n p (ctx.plug (.node c (lctx.plug (.node c' pl p .nil)) n r)) c'
        (lctx ++ ⟨.left, c, n, r⟩ :: ctx) (lctx ++ ⟨.left, c, p, r⟩ :: ctx) pl .nil := by
  set l := lctx.plug (.node c' pl p .nil) with hl
  have hpos : At m d (lctx ++ ⟨.left, c, n, r⟩ :: ctx) (.node c' pl p .nil) :=
    at_append.mpr (at_cons (s := .left).mpr h)
  have hnode : NodeAt m n .left l.root? r.root? _ _ := h.rep.1
  have hlperm := Ctx.toList_plug_perm lctx (.node c' pl p .nil)
  rw [← hl] at hlperm
  have hpl : p ∈ l.toList := hlperm.mem_iff.mpr (by simp)
  have hnl : n ∉ l.toList ∧ n ∉ r.toList := by
    have hnodup := h.nodup_tree
    simp only [RedBlack.Tree.toList_node, List.nodup_append, List.nodup_cons,
      List.mem_cons] at hnodup
    exact ⟨fun hn => hnodup.2.2 n hn n (.inl rfl) rfl, hnodup.2.1.1⟩
  have hnp : n ≠ p := fun hnp => hnl.1 (hnp ▸ hpl)
  have habove : lctx = [] ∨ above d (lctx ++ ⟨.left, c, n, r⟩ :: ctx) ∈ l.toList := by
    cases lctx with
    | nil => exact .inl rfl
    | cons f lctx => exact .inr (hlperm.mem_iff.mpr (by simp [above]))
  have hparent := h.parent_eq (n := n) rfl
  have hparentp := hpos.parent_eq (n := p) rfl
  have hup : ∀ x ∈ (RedBlack.Tree.node c l n r).toList, x ≠ above d ctx := fun x hx hxa =>
    h.disjoint hx (hxa ▸ above_mem d ctx)
  have hT : ∀ x ∈ (RedBlack.Tree.node c l n r).toList, x ∈ (ctx.plug (.node c l n r)).toList :=
    
    fun x hx => (Ctx.toList_plug_perm ctx _).mem_iff.mpr (List.mem_append_left _ hx)
  -- swapping the two
  obtain ⟨m₁, hswap, hat₁⟩ := swap_eq (a := n) (b := p) (at_plug.mp h) (hT n (by simp))
    (hT p (by simp [hpl])) hnp hpos.rep.1.far
    (by rw [hparent]; simpa using (hup p (by simp [hpl])).symm)
    (by
      rw [hparent, hparentp]
      rcases habove with rfl | habove
      · simpa [above] using (hup n (by simp)).symm
      · simpa using (hup _ (by simp [habove])).symm)
    (by
      rw [hparentp]
      rcases habove with rfl | habove
      · exact fun _ => hnode.near
      · intro hn
        exact absurd (Option.some_inj.mp hn ▸ habove) hnl.1)
  have hmap := map_swap_pred h.nodup_plug
  rw [← hl] at hmap
  rw [hmap] at hat₁
  refine ⟨m₁, hswap,
    { unlinkedAt := .inl ⟨y, fuel, hnode.near.trans hy, ?_, hlast⟩
      before := hpos
      after := at_plug.mpr hat₁
      child := .inr rfl
      allBlack := fun hall f hf => ?_
      isEmpty := fun hnil => by simp at hnil
      balanced := fun k hbal => hmap ▸ hbal.map _
      order := ?_
      length := ?_ }⟩
  · have hright : m.right n = r.root? := hnode.far
    rw [hright]
    exact fun hnil => hr (RedBlack.Tree.root?_eq_none.mp hnil)
  · rw [List.mem_append, List.mem_cons] at hf
    rcases hf with hf | rfl | hf
    · exact hall f (by simp [hf])
    · exact hall ⟨.left, c, p, r⟩ (by simp)
    · exact hall f (by simp [hf])
  · have hn : n ∉ ctx.before ++ (lctx.before ++ pl.toList) := by
      have hnb : n ∉ ctx.before := fun hn => by
        have hnodup := h.nodup_plug
        rw [Ctx.toList_plug] at hnodup
        simp only [RedBlack.Tree.toList_node, List.nodup_append, List.mem_append,
          List.mem_cons] at hnodup
        exact hnodup.1.2.2 n hn n (.inr (.inl rfl)) rfl
      have hnl' := hnl.1
      rw [hl, Ctx.toList_plug] at hnl'
      simp only [RedBlack.Tree.toList_node, List.mem_append, not_or] at hnl' ⊢
      exact ⟨hnb, hnl'.1.1, hnl'.1.2.1⟩
    have herase := erase_swap hn hnp (r.toList ++ ctx.after)
    simpa [Ctx.toList_plug, hl, Ctx.before_append, Ctx.after_append, Ctx.before, Ctx.after, hafter]
      using herase
  · rw [← List.length_map (f := Equiv.swap n p), ← RedBlack.Tree.toList_map, hmap,
      (Ctx.toList_plug_perm _ _).length_eq]
    exact (Ctx.length_le_nodes _).trans (List.sublist_append_right _ _).length_le

/-- The colours of the nodes along a path, with their siblings. -/
def shapeOf (ctx : Ctx ι) : List (Color × RedBlack.Tree ι) :=
  List.map (fun f => (f.color, f.sib)) ctx

omit [DecidableEq ι] in
theorem allBlack_of_shape (h : ctx.AllBlack) (hshape : shapeOf ctx₁ = shapeOf ctx) :
    ctx₁.AllBlack := by
  intro f hf
  have hmem : (f.color, f.sib) ∈ shapeOf ctx := hshape ▸ List.mem_map_of_mem hf
  obtain ⟨g, hg, heq⟩ := List.mem_map.mp hmem
  simp only [Prod.mk.injEq] at heq
  rw [← heq.1, ← heq.2]
  exact h g hg

/-- The first half of `navi_rb_remove`, in any tree; the path to the node has the colours and
the siblings of the path to the place that it takes. -/
theorem exists_unlinking_shape (h : At m d [] t) (hn : n ∈ t.toList) {fuel : ℕ}
    (hfuel : t.toList.length < fuel) :
    ∃ m₁ v c ctx ctx₁ l r, naviRbRemove fuel m n = unlink fuel m₁ n ∧
      Unlinking m m₁ d n v t c ctx ctx₁ l r ∧ shapeOf ctx₁ = shapeOf ctx := by
  obtain ⟨ctx, c, l, r, rfl⟩ := RedBlack.Tree.exists_plug_of_mem hn
  have hat := at_plug.mpr h
  have hnode : NodeAt m n .left l.root? r.root? _ _ := hat.rep.1
  have hleft : m.left n = l.root? := hnode.near
  have hright : m.right n = r.root? := hnode.far
  cases hl : l.root? with
  | none =>
    refine ⟨m, n, c, ctx, ctx, l, r, ?_, .self hat (.inl (RedBlack.Tree.root?_eq_none.mp hl)), rfl⟩
    simp [naviRbRemove, hleft, hl]
  | some y =>
    cases hr : r.root? with
    | none =>
      refine ⟨m, n, c, ctx, ctx, l, r, ?_, .self hat (.inr (RedBlack.Tree.root?_eq_none.mp hr)),
        rfl⟩
      simp [naviRbRemove, hright, hr]
    | some z =>
      have hlen : l.toList.length < fuel := by
        rw [(Ctx.toList_plug_perm ctx _).length_eq] at hfuel
        simp only [RedBlack.Tree.toList_node, List.length_append, List.length_cons] at hfuel
        omega
      obtain ⟨lctx, c', pl, p, rfl, hafter, hlast⟩ :=
        naviRbLast_eq (at_cons (s := .left).mpr hat) hl hlen
      obtain ⟨m₁, hswap, hunlink⟩ :=
        Unlinking.swap hat hafter (by rintro rfl; simp at hr) hl hlast
      refine ⟨m₁, p, c', _, _, pl, .nil, ?_, hunlink, by simp [shapeOf]⟩
      simp [naviRbRemove, hleft, hright, hl, hr, hlast, hswap]

/-- **The first half of `navi_rb_remove`**, in any tree. -/
theorem exists_unlinking (h : At m d [] t) (hn : n ∈ t.toList) {fuel : ℕ}
    (hfuel : t.toList.length < fuel) :
    ∃ m₁ v c ctx ctx₁ l r, naviRbRemove fuel m n = unlink fuel m₁ n ∧
      Unlinking m m₁ d n v t c ctx ctx₁ l r := by
  obtain ⟨m₁, v, c, ctx, ctx₁, l, r, hrem, hun, -⟩ := exists_unlinking_shape h hn hfuel
  exact ⟨m₁, v, c, ctx, ctx₁, l, r, hrem, hun⟩

/-- Putting its only child in the place of a node erases the node from the order. -/
theorem toList_plug_child {c : Color} {l r u : RedBlack.Tree ι} {ctx' : Ctx ι}
    (hu : r = .nil ∧ u = l ∨ l = .nil ∧ u = r)
    (hnodup : (ctx.plug (.node c l n r)).toList.Nodup) (hctx : ctx.SameOrder ctx') :
    (ctx'.plug u).toList = (ctx.plug (.node c l n r)).toList.erase n := by
  rw [hctx.toList_plug, Ctx.toList_plug, Ctx.toList_plug]
  rw [Ctx.toList_plug] at hnodup
  simp only [RedBlack.Tree.toList_node, List.nodup_append, List.nodup_cons, List.mem_append,
    List.mem_cons] at hnodup
  have hnb : n ∉ ctx.before := fun hn => hnodup.1.2.2 n hn n (.inr (.inl rfl)) rfl
  have hnl : n ∉ l.toList := fun hn => hnodup.1.2.1.2.2 n hn n (.inl rfl) rfl
  rw [List.append_assoc, List.append_assoc, List.erase_append_right _ hnb,
    RedBlack.Tree.toList_node,
    List.append_assoc, List.erase_append_right _ hnl, List.cons_append, List.erase_cons_head]
  rcases hu with ⟨rfl, rfl⟩ | ⟨rfl, rfl⟩
  · simp
  · simp

omit [DecidableEq ι] in
/-- Where a node with at most one child is unlinked from a balanced tree, its child fits,
unless the walk climbs to the root below a red child. -/
theorem unlinkFix_balanced {c : Color} {l r u : RedBlack.Tree ι} {k : ℕ}
    (hbal : RedBlack.Balanced (ctx.plug (.node c l n r)) .black k)
    (hu : r = .nil ∧ u = l ∨ l = .nil ∧ u = r)
    (hclimb : ¬(c = .black ∧ u.color = .red ∧ ctx ≠ [] ∧ ctx.AllBlack)) :
    ∃ ctx' b k', unlinkFix c ctx = some (ctx', b) ∧
      RedBlack.Balanced (ctx'.plug (if b then u.blacken else u)) .black k' := by
  obtain ⟨c', j, hnode, hfits⟩ := hbal.split
  cases hnode with
  | red hl hr =>
    have hj : RedBlack.Balanced u .black 0 ∧ j = 0 := by
      rcases hu with ⟨rfl, rfl⟩ | ⟨rfl, rfl⟩
      · cases hr
        exact ⟨hl, rfl⟩
      · cases hl
        exact ⟨hr, rfl⟩
    obtain ⟨hu, rfl⟩ := hj
    obtain rfl : u = .nil := hu.eq_nil_or_red.resolve_right (by simp)
    obtain ⟨k', hk'⟩ := hfits.to_black.plug .nil
    exact ⟨ctx, ctx.isEmpty, k', rfl, by simpa [RedBlack.Tree.blacken] using hk'⟩
  | black hl hr =>
    rename_i cl cr j
    have hj : (∃ cu, RedBlack.Balanced u cu 0) ∧ j = 0 := by
      rcases hu with ⟨rfl, rfl⟩ | ⟨rfl, rfl⟩
      · cases hr
        exact ⟨⟨cl, hl⟩, rfl⟩
      · cases hl
        exact ⟨⟨cr, hr⟩, rfl⟩
    obtain ⟨⟨cu, hu⟩, rfl⟩ := hj
    obtain ⟨ctx', b, hfix, hfits'⟩ := removeFix_fits hfits
    refine ⟨ctx', b, ?_⟩
    suffices H : ∃ k', RedBlack.Balanced (ctx'.plug (if b then u.blacken else u)) .black k' from
      H.imp fun k' hk' => ⟨hfix, hk'⟩
    rcases hu.eq_nil_or_red with rfl | rfl
    · have hnil := (hfits' .black fun _ => rfl).plug .nil
      cases b <;> exact hnil
    · cases ctx with
      | nil =>
        simp only [removeFix, Option.some.injEq, Prod.mk.injEq] at hfix
        obtain ⟨rfl, rfl⟩ := hfix
        exact hu.blacken
      | cons f ctx =>
        cases b with
        | true =>
          exact absurd ⟨rfl, hu.color_eq, by simp, removeFix_climbed hfix⟩ hclimb
        | false => exact (hfits' .red (by simp)).plug hu

/-- **Removing a node from a balanced tree** ends, follows no null pointer, and gives the
balanced tree without the node, unless the walk climbs to the root below a red child. -/
theorem naviRbRemove_spec {k : ℕ} (h : At m d [] t) (hbal : RedBlack.Balanced t .black k)
    (hn : n ∈ t.toList) (hclimb : ¬RemoveClimbs m n) {fuel : ℕ} (hfuel : t.toList.length < fuel) :
    ∃ m' t' k', naviRbRemove fuel m n = .ok m' ∧ At m' d [] t' ∧ RedBlack.Balanced t' .black k' ∧
      t'.toList = t.toList.erase n := by
  obtain ⟨m₁, v, c, ctx, ctx₁, l, r, hrem, hun⟩ := exists_unlinking h hn hfuel
  obtain ⟨u, hu⟩ : ∃ u, r = .nil ∧ u = l ∨ l = .nil ∧ u = r :=
    hun.child.elim (fun hl => ⟨r, .inr ⟨hl, rfl⟩⟩) fun hr => ⟨l, .inl ⟨hr, rfl⟩⟩
  have hclimb' : ¬(c = .black ∧ u.color = .red ∧ ctx₁ ≠ [] ∧ ctx₁.AllBlack) := by
    rintro ⟨rfl, hred, hne, hall⟩
    have hnode : NodeAt m v .left l.root? r.root? _ _ := hun.before.rep.1
    refine hclimb ⟨v, hun.unlinkedAt, ?_, isBlack_root? hun.before.rep, ?_,
      .of_allBlack hun.before rfl (hun.allBlack hall)⟩
    · rw [hun.before.isRoot_eq rfl]
      cases hctx : ctx with
      | nil => exact absurd (hun.isEmpty hctx) hne
      | cons f ctx => rfl
    · have hleft : m.left v = l.root? := hnode.near
      have hright : m.right v = r.root? := hnode.far
      rw [hleft, hright, isRed_root? hun.before.rep.2.1, isRed_root? hun.before.rep.2.2]
      rcases hu with ⟨-, rfl⟩ | ⟨-, rfl⟩
      · exact .inl (by simp [hred])
      · exact .inr (by simp [hred])
  obtain ⟨ctx', b, k', hfix, hbal'⟩ := unlinkFix_balanced (hun.balanced k hbal) hu hclimb'
  obtain ⟨m', hm', hat⟩ := (unlink_eq hun.after hu (hun.length.trans_lt hfuel)).2 ctx' b hfix
  refine ⟨m', _, k', hrem.trans hm', at_plug.mp hat, hbal', ?_⟩
  rw [← hun.order, ← toList_plug_child hu hun.after.nodup_plug (unlinkFix_order hfix)]
  refine Ctx.toList_plug_congr ctx' ?_
  split
  · exact RedBlack.Tree.toList_blacken u
  · rfl

end Position

/-! ### Runs -/

/-- An operation on a tree of nodes. -/
inductive RbOp (ι : Type)
  /-- Inserting a node by `slab_insert`. -/
  | insert (x : ι)
  /-- Removing a node by `navi_rb_remove`. -/
  | remove (x : ι)
  deriving DecidableEq, Repr

/-- `RB_ROOT_INIT`: the memory in which `tree` is the dummy root of an empty tree. -/
def rbRootInit [DecidableEq ι] (m : Mem ι) (tree : ι) : Mem ι :=
  (((m.setChild .left tree none).setChild .right tree none).setParent tree none).setColor tree
    .rbRootMark

section Run

variable [LinearOrder ι]

/-- One operation on the tree with dummy root `tree`. -/
def rbStep (fuel : ℕ) (tree : ι) (m : Mem ι) : RbOp ι → Except RbFault (Mem ι)
  | .insert x => slabInsert fuel tree m x
  | .remove x => naviRbRemove fuel m x

/-- A run of operations. -/
def rbRun (fuel : ℕ) (tree : ι) : Mem ι → List (RbOp ι) → Except RbFault (Mem ι)
  | m, [] => .ok m
  | m, op :: ops => do
    let m ← rbStep fuel tree m op
    rbRun fuel tree m ops

/-- The set of live nodes after one more operation. -/
def RbOp.apply (live : Finset ι) : RbOp ι → Finset ι
  | insert x => Insert.insert x live
  | remove x => live.erase x

/-- The nodes inserted and not yet removed. -/
def live (ops : List (RbOp ι)) : Finset ι := ops.foldl RbOp.apply ∅

/-- An operation that may follow: a fresh node is inserted, or a live one removed. -/
def RbOp.Allowed (tree : ι) (live : Finset ι) : RbOp ι → Prop
  | insert x => x ≠ tree ∧ x ∉ live
  | remove x => x ∈ live

instance (tree : ι) (live : Finset ι) (op : RbOp ι) : Decidable (op.Allowed tree live) :=
  match op with
  | .insert _ => inferInstanceAs (Decidable (_ ∧ _))
  | .remove x => inferInstanceAs (Decidable (x ∈ live))

/-- A run in which every operation may follow the ones before it. -/
def ValidFrom (tree : ι) : Finset ι → List (RbOp ι) → Prop
  | _, [] => True
  | live, op :: ops => op.Allowed tree live ∧ ValidFrom tree (op.apply live) ops

instance decidableValidFrom (tree : ι) :
    (live : Finset ι) → (ops : List (RbOp ι)) → Decidable (ValidFrom tree live ops)
  | _, [] => inferInstanceAs (Decidable True)
  | live, op :: ops =>
    have := decidableValidFrom tree (op.apply live) ops
    inferInstanceAs (Decidable (_ ∧ _))

/-- **The run does what it should**: every operation ends and follows no null pointer, and
afterwards the tree holds the live nodes in order. -/
def RunSorted (tree : ι) (m : Mem ι) (ops : List (RbOp ι)) : Prop :=
  ∃ N, ∀ fuel ≥ N, ∃ m' t, rbRun fuel tree m ops = .ok m' ∧ At m' tree [] t ∧
    t.toList = (live ops).sort (· ≤ ·)

/-- No removal of the run climbs to the root below a red child. -/
def NeverClimbs (tree : ι) (m : Mem ι) (ops : List (RbOp ι)) : Prop :=
  ∀ pre n post, ops = pre ++ .remove n :: post →
    ∀ fuel m', rbRun fuel tree m pre = .ok m' → ¬RemoveClimbs m' n

variable {m : Mem ι} {tree : ι}

theorem rbRun_append (fuel : ℕ) (pre post : List (RbOp ι)) :
    rbRun fuel tree m (pre ++ post) =
      rbRun fuel tree m pre >>= fun m => rbRun fuel tree m post := by
  induction pre generalizing m with
  | nil => rfl
  | cons op pre ih =>
    simp only [List.cons_append, rbRun]
    cases rbStep fuel tree m op with
    | error e => rfl
    | ok m' => exact ih

theorem live_append (pre : List (RbOp ι)) (op : RbOp ι) :
    live (pre ++ [op]) = op.apply (live pre) := by simp [live]

theorem validFrom_append {S : Finset ι} {pre post : List (RbOp ι)} :
    ValidFrom tree S (pre ++ post) ↔
      ValidFrom tree S pre ∧ ValidFrom tree (pre.foldl RbOp.apply S) post := by
  induction pre generalizing S with
  | nil => simp [ValidFrom]
  | cons op pre ih => simp [ValidFrom, ih, and_assoc]

/-- The empty tree. -/
theorem at_rbRootInit (m : Mem ι) (tree : ι) : At (rbRootInit m tree) tree [] .nil := by
  refine ⟨trivial, ⟨?_, ?_, ?_, ?_⟩, by simp⟩ <;> simp [rbRootInit]

theorem card_live_le (ops : List (RbOp ι)) : (live ops).card ≤ ops.length := by
  induction ops using List.reverseRecOn with
  | nil => simp [live]
  | append_singleton pre op ih =>
    rw [live_append, List.length_append, List.length_singleton]
    cases op with
    | insert x => exact (Finset.card_insert_le _ _).trans (by omega)
    | remove x => exact Finset.card_erase_le.trans (by omega)

/-- A strictly increasing list is the sorted list of its elements. -/
theorem eq_sort {xs : List ι} {S : Finset ι} (hxs : xs.Pairwise (· < ·))
    (hS : ∀ y, y ∈ xs ↔ y ∈ S) : xs = S.sort (· ≤ ·) := by
  obtain rfl : xs.toFinset = S := Finset.ext fun y => List.mem_toFinset.trans (hS y)
  exact ((List.toFinset_sort (· ≤ ·) (hxs.imp ne_of_lt)).mpr (hxs.imp le_of_lt)).symm

/-- One operation keeps the tree balanced and sorted. -/
theorem rbStep_spec {S : Finset ι} {t : RedBlack.Tree ι} {k : ℕ} (h : At m tree [] t)
    (hbal : RedBlack.Balanced t .black k) (hlist : t.toList = S.sort (· ≤ ·)) {op : RbOp ι}
    (hop : op.Allowed tree S) (hclimb : ∀ n, op = .remove n → ¬RemoveClimbs m n) {fuel : ℕ}
    (hfuel : S.card < fuel) :
    ∃ m' t' k', rbStep fuel tree m op = .ok m' ∧ At m' tree [] t' ∧ RedBlack.Balanced t' .black k' ∧
      t'.toList = (op.apply S).sort (· ≤ ·) := by
  have hlen : t.toList.length < fuel := by rwa [hlist, Finset.length_sort]
  have hord : t.toList.Pairwise (· < ·) := by
    rw [hlist]
    exact (Finset.sortedLT_sort S).pairwise
  have hmem : ∀ y, y ∈ t.toList ↔ y ∈ S := fun y => by rw [hlist, Finset.mem_sort]
  cases op with
  | insert x =>
    obtain ⟨m', t', k', hstep, hat, hbal', hord', hmem'⟩ := slabInsert_spec (x := x) h hbal hord
      (by simpa [hmem, not_or, RbOp.Allowed] using hop) hlen
    refine ⟨m', t', k', hstep, hat, hbal', eq_sort hord' fun y => ?_⟩
    rw [hmem', hmem, RbOp.apply, Finset.mem_insert]
  | remove x =>
    obtain ⟨m', t', k', hstep, hat, hbal', hlist'⟩ :=
      naviRbRemove_spec h hbal ((hmem x).mpr hop) (hclimb x rfl) hlen
    refine ⟨m', t', k', hstep, hat, hbal', eq_sort ?_ fun y => ?_⟩
    · rw [hlist']
      exact hord.sublist List.erase_sublist
    · rw [hlist', List.Nodup.mem_erase_iff (hord.imp ne_of_lt), hmem, RbOp.apply, Finset.mem_erase]

theorem NeverClimbs.of_append {pre post : List (RbOp ι)} (h : NeverClimbs tree m (pre ++ post)) :
    NeverClimbs tree m pre := fun pre' n post' hpre =>
  h pre' n (post' ++ post) (by simp [hpre])

/-- A run keeps the tree balanced and sorted. -/
theorem rbRun_spec (hm : At m tree [] .nil) {ops : List (RbOp ι)}
    (hvalid : ValidFrom tree ∅ ops) (hclimb : NeverClimbs tree m ops) {fuel : ℕ}
    (hfuel : ops.length < fuel) :
    ∃ m' t k, rbRun fuel tree m ops = .ok m' ∧ At m' tree [] t ∧ RedBlack.Balanced t .black k ∧
      t.toList = (live ops).sort (· ≤ ·) := by
  induction ops using List.reverseRecOn with
  | nil => exact ⟨m, .nil, 0, rfl, hm, .nil, by simp [live]⟩
  | append_singleton pre op ih =>
    rw [List.length_append, List.length_singleton] at hfuel
    obtain ⟨hpre, hop⟩ := validFrom_append.mp hvalid
    obtain ⟨m₁, t₁, k₁, hrun, hat₁, hbal₁, hlist₁⟩ := ih hpre hclimb.of_append (by omega)
    obtain ⟨m', t', k', hstep, hat, hbal, hlist⟩ := rbStep_spec hat₁ hbal₁ hlist₁ hop.1
      (fun n hn => hclimb pre n [] (by simp [hn]) fuel m₁ hrun)
      ((card_live_le pre).trans_lt (by omega : pre.length < fuel))
    refine ⟨m', t', k', ?_, hat, hbal, live_append pre op ▸ hlist⟩
    rw [rbRun_append, hrun, ok_bind, rbRun, hstep]
    rfl

/-- A memory with nothing in it. -/
def blankMem : Mem ℕ := ⟨fun _ _ => none, fun _ => none, fun _ => .rbRed⟩

/-- Fourteen operations on nine nodes. The removal of `5` unlinks the black node `2`, which
has a red child, and climbs to the root; the last removal, of `6`, finds a sibling
without the red child that case 6 expects. -/
def climbOps : List (RbOp ℕ) :=
  [.insert 5, .insert 2, .insert 0, .insert 7, .remove 5, .remove 2, .insert 8, .insert 4,
    .insert 1, .insert 6, .insert 3, .remove 1, .remove 7, .remove 6]

/-- **A run that follows a null pointer.** -/
theorem rbRun_nullDeref :
    ValidFrom 100 ∅ climbOps ∧
      (∀ n, rbRun (n + 20) 100 (rbRootInit blankMem 100) climbOps = .error .nullDeref) ∧
      ¬RunSorted 100 (rbRootInit blankMem 100) climbOps := by
  have hnull : ∀ n, rbRun (n + 20) 100 (rbRootInit blankMem 100) climbOps = .error .nullDeref :=
    fun n => rfl
  refine ⟨by decide, hnull, ?_⟩
  rintro ⟨N, hN⟩
  obtain ⟨m', t, hrun, -⟩ := hN (N + 20) (by omega)
  rw [hnull N] at hrun
  cases hrun

/-- **A run whose removals never climb to the root below a red child does what it
should**, after every operation. -/
theorem rbRun_sorted (m : Mem ι) (tree : ι) (ops : List (RbOp ι)) (hvalid : ValidFrom tree ∅ ops)
    (hclimb : NeverClimbs tree (rbRootInit m tree) ops) :
    ∀ pre, pre <+: ops → RunSorted tree (rbRootInit m tree) pre := by
  rintro pre ⟨post, rfl⟩
  refine ⟨pre.length + 1, fun fuel hfuel => ?_⟩
  obtain ⟨m', t, k, hrun, hat, -, hlist⟩ := rbRun_spec (at_rbRootInit m tree)
    (validFrom_append.mp hvalid).1 hclimb.of_append (Nat.lt_of_succ_le hfuel)
  exact ⟨m', t, hrun, hat, hlist⟩

/-- The theorem at a run that removes a red leaf. -/
theorem rbRun_sorted_leaf :
    RunSorted 100 (rbRootInit blankMem 100) [.insert 2, .insert 1, .remove 1] := by
  refine rbRun_sorted blankMem 100 [.insert 2, .insert 1, .remove 1] (by decide) ?_ _
    (List.prefix_refl _)
  rintro pre n post hpre fuel m' hrun ⟨v, hv, -, hblack, -⟩
  obtain ⟨rfl, rfl⟩ : pre = [.insert 2, .insert 1] ∧ n = 1 := by
    rcases pre with _ | ⟨a, _ | ⟨b, _ | ⟨c, pre⟩⟩⟩
    · simp at hpre
    · simp at hpre
    · simp only [List.cons_append, List.nil_append, List.cons.injEq, RbOp.remove.injEq] at hpre
      exact ⟨by rw [hpre.1, hpre.2.1], hpre.2.2.1.symm⟩
    · simp at hpre
  rcases fuel with _ | _ | fuel
  · cases hrun
  · cases hrun
  · cases hrun
    rcases hv with ⟨l, -, hl, -⟩ | ⟨-, rfl⟩
    · exact absurd (hl : (none : Option ℕ) = some l) nofun
    · exact absurd (hblack : false = true) nofun

end Run

end NaviScheme
