import Mathlib.Tactic.SplitIfs
import NaviScheme.RbTree.Memory

/-!
# Trees in memory

What it means for a memory to hold a tree, with a position in it singled out:
`NaviScheme.At m d ctx t` says that the tree below the dummy root `d` is `t` plugged
into the position `ctx`, all parent links included. The reads of the source at the
position are computed from the context and the subtree, and the writes that the
source combines – painting a node, replacing a subtree, rotating – act on the
subtree alone.
-/

namespace NaviScheme

open RedBlack

variable {ι : Type} {m m' : Mem ι} {d n q : ι} {ctx : Ctx ι} {t u : RedBlack.Tree ι}

/-- The colour of the source for a colour of a tree. -/
def toRbColor : Color → RbColor
  | .red => .rbRed
  | .black => .rbBlack

@[simp] theorem toRbColor_red : toRbColor .red = .rbRed := rfl

@[simp] theorem toRbColor_black : toRbColor .black = .rbBlack := rfl

@[simp] theorem toRbColor_ne_rootMark (c : Color) : toRbColor c ≠ .rbRootMark := by
  cases c <;> simp [toRbColor]

@[simp] theorem toRbColor_eq_rbRed {c : Color} : toRbColor c = .rbRed ↔ c = .red := by
  cases c <;> simp [toRbColor]

@[simp] theorem toRbColor_eq_rbBlack {c : Color} : toRbColor c = .rbBlack ↔ c = .black := by
  cases c <;> simp [toRbColor]

/-! ### The writes -/

section Writes

variable [DecidableEq ι] (m : Mem ι) (s r : Side) (x y : ι) (p : Option ι) (c : RbColor)

@[simp] theorem Mem.child_setChild :
    (m.setChild s x p).child r y = if r = s ∧ y = x then p else m.child r y := rfl

@[simp] theorem Mem.parent_setChild : (m.setChild s x p).parent = m.parent := rfl

@[simp] theorem Mem.color_setChild : (m.setChild s x p).color = m.color := rfl

@[simp] theorem Mem.child_setParent : (m.setParent x p).child = m.child := rfl

@[simp] theorem Mem.parent_setParent :
    (m.setParent x p).parent y = if y = x then p else m.parent y := by
  simp [Mem.setParent, Function.update_apply]

@[simp] theorem Mem.color_setParent : (m.setParent x p).color = m.color := rfl

@[simp] theorem Mem.child_setColor : (m.setColor x c).child = m.child := rfl

@[simp] theorem Mem.parent_setColor : (m.setColor x c).parent = m.parent := rfl

@[simp] theorem Mem.color_setColor :
    (m.setColor x c).color y = if y = x then c else m.color y := by
  simp [Mem.setColor, Function.update_apply]

@[simp] theorem Mem.child_adopt (p q : Option ι) : (m.adopt p q).child = m.child := by
  cases p <;> rfl

@[simp] theorem Mem.parent_adopt (p q : Option ι) :
    (m.adopt p q).parent y = if p = some y then q else m.parent y := by
  cases p with
  | none => simp [Mem.adopt]
  | some x => simp [Mem.adopt, eq_comm]

@[simp] theorem Mem.color_adopt (p q : Option ι) : (m.adopt p q).color = m.color := by
  cases p <;> rfl

end Writes

/-! ### Representation -/

/-- The contents of the node `x`, seen from side `s`. -/
structure NodeAt (m : Mem ι) (x : ι) (s : Side) (near far parent : Option ι) (c : RbColor) :
    Prop where
  near : m.child s x = near
  far : m.child s.flip x = far
  parent : m.parent x = parent
  color : m.color x = c

/-- The memory holds the tree, its root's parent being `q`. -/
def Rep (m : Mem ι) (q : ι) : RedBlack.Tree ι → Prop
  | .nil => True
  | .node c l x r =>
    NodeAt m x .left l.root? r.root? (some q) (toRbColor c) ∧ Rep m x l ∧ Rep m x r

/-- The node above a position, in a tree with dummy root `d`. -/
def above (d : ι) : Ctx ι → ι
  | [] => d
  | f :: _ => f.node

/-- The side of the node above on which a position lies. -/
def sideOf : Ctx ι → Side
  | [] => .left
  | f :: _ => f.side

theorem above_mem (d : ι) (ctx : Ctx ι) : above d ctx ∈ d :: ctx.nodes := by
  cases ctx <;> simp [above]

/-- The memory holds the context, with link `p` at the position. -/
def RepC (m : Mem ι) (d : ι) (p : Option ι) : Ctx ι → Prop
  | [] => NodeAt m d .left p none none .rbRootMark
  | ⟨s, c, x, u⟩ :: ctx =>
    NodeAt m x s p u.root? (some (above d ctx)) (toRbColor c) ∧ Rep m x u ∧ RepC m d (some x) ctx

/-- **The memory holds a tree**: `t` at the position `ctx` below the dummy root `d`,
with distinct nodes. -/
structure At (m : Mem ι) (d : ι) (ctx : Ctx ι) (t : RedBlack.Tree ι) : Prop where
  rep : Rep m (above d ctx) t
  repC : RepC m d t.root? ctx
  nodup : (d :: (t.toList ++ ctx.nodes)).Nodup

theorem NodeAt.flip {x : ι} {s : Side} {a b p : Option ι} {c : RbColor}
    (h : NodeAt m x s a b p c) : NodeAt m x s.flip b a p c :=
  ⟨h.far, by rw [Side.flip_flip, h.near], h.parent, h.color⟩

theorem rep_join {s : Side} {c : Color} {x : ι} :
    Rep m q (.join s c t x u) ↔
      NodeAt m x s t.root? u.root? (some q) (toRbColor c) ∧ Rep m x t ∧ Rep m x u := by
  cases s
  · exact Iff.rfl
  · exact ⟨fun ⟨h, hl, hr⟩ => ⟨h.flip, hr, hl⟩, fun ⟨h, hl, hr⟩ => ⟨h.flip, hr, hl⟩⟩

/-- **Moving the position one step up or down.** -/
theorem at_cons {s : Side} {c : Color} {x : ι} :
    At m d (⟨s, c, x, u⟩ :: ctx) t ↔ At m d ctx (.join s c t x u) := by
  have hperm : (d :: ((RedBlack.Tree.join s c t x u).toList ++ ctx.nodes)).Perm
      (d :: (t.toList ++ Ctx.nodes (⟨s, c, x, u⟩ :: ctx))) := by
    refine List.Perm.cons d (((RedBlack.Tree.toList_join_perm s c t x u).append_right _).trans ?_)
    simpa using List.perm_middle.symm
  constructor
  · rintro ⟨ht, ⟨hx, hu, hctx⟩, hnodup⟩
    exact ⟨rep_join.mpr ⟨hx, ht, hu⟩, by simpa using hctx, hperm.nodup_iff.mpr hnodup⟩
  · rintro ⟨ht, hctx, hnodup⟩
    obtain ⟨hx, ht, hu⟩ := rep_join.mp ht
    exact ⟨ht, ⟨hx, hu, by simpa using hctx⟩, hperm.nodup_iff.mp hnodup⟩

/-- **Moving the position to the sibling.** -/
theorem at_flip {s : Side} {c : Color} {x : ι} :
    At m d (⟨s, c, x, u⟩ :: ctx) t ↔ At m d (⟨s.flip, c, x, t⟩ :: ctx) u := by
  rw [at_cons, at_cons, RedBlack.Tree.join_flip]

/-- **Moving the position to any place in the tree.** -/
theorem at_append {ctx' : Ctx ι} : At m d (ctx ++ ctx') t ↔ At m d ctx' (ctx.plug t) := by
  induction ctx generalizing t with
  | nil => rfl
  | cons f ctx ih => exact at_cons.trans ih

theorem at_plug : At m d ctx t ↔ At m d [] (ctx.plug t) := by
  rw [← at_append, List.append_nil]

/-! ### Nodes a write does not touch -/

/-- Two memories with the same contents of node `x`. -/
structure SameAt (m m' : Mem ι) (x : ι) : Prop where
  child : ∀ s, m'.child s x = m.child s x
  parent : m'.parent x = m.parent x
  color : m'.color x = m.color x

theorem SameAt.trans {m₁ m₂ m₃ : Mem ι} {x : ι} (h₁ : SameAt m₁ m₂ x) (h₂ : SameAt m₂ m₃ x) :
    SameAt m₁ m₃ x :=
  ⟨fun s => (h₂.child s).trans (h₁.child s), h₂.parent.trans h₁.parent,
    h₂.color.trans h₁.color⟩

theorem NodeAt.congr {x : ι} {s : Side} {a b p : Option ι} {c : RbColor}
    (h : NodeAt m x s a b p c) (hx : SameAt m m' x) : NodeAt m' x s a b p c :=
  ⟨(hx.child s).trans h.near, (hx.child _).trans h.far, hx.parent.trans h.parent,
    hx.color.trans h.color⟩

theorem Rep.congr (h : Rep m q t) (hsame : ∀ x ∈ t.toList, SameAt m m' x) : Rep m' q t := by
  induction t generalizing q with
  | nil => trivial
  | node c l x r ihl ihr =>
    obtain ⟨hx, hl, hr⟩ := h
    simp only [RedBlack.Tree.toList_node, List.mem_append, List.mem_cons] at hsame
    exact ⟨hx.congr (hsame x (.inr (.inl rfl))), ihl hl fun y hy => hsame y (.inl hy),
      ihr hr fun y hy => hsame y (.inr (.inr hy))⟩

/-- A subtree whose root gets another parent. -/
theorem Rep.reparent {q' : ι} (h : Rep m q t) (hnodup : t.toList.Nodup)
    (hsame : ∀ x ∈ t.toList, t.root? ≠ some x → SameAt m m' x)
    (hroot : ∀ x, t.root? = some x → (∀ s, m'.child s x = m.child s x) ∧
      m'.parent x = some q' ∧ m'.color x = m.color x) : Rep m' q' t := by
  cases t with
  | nil => trivial
  | node c l x r =>
    obtain ⟨hx, hl, hr⟩ := h
    obtain ⟨hchild, hparent, hcolor⟩ := hroot x rfl
    simp only [RedBlack.Tree.toList_node, List.nodup_append, List.nodup_cons,
      List.mem_cons] at hnodup
    refine ⟨⟨(hchild _).trans hx.near, (hchild _).trans hx.far, hparent, hcolor.trans hx.color⟩,
      hl.congr fun y hy => hsame y (by simp [hy]) ?_, hr.congr fun y hy => hsame y (by simp [hy]) ?_⟩
    · simpa using (hnodup.2.2 y hy x (.inl rfl)).symm
    · simpa using fun hxy : x = y => hnodup.2.1.1 (hxy ▸ hy)

theorem RepC.congr {p : Option ι} (h : RepC m d p ctx)
    (hsame : ∀ x ∈ d :: ctx.nodes, SameAt m m' x) : RepC m' d p ctx := by
  induction ctx generalizing p with
  | nil => exact NodeAt.congr h (hsame d (by simp))
  | cons f ctx ih =>
    obtain ⟨hx, hu, hctx⟩ := h
    refine ⟨hx.congr (hsame _ (by simp)), hu.congr fun y hy => hsame y (by simp [hy]),
      ih hctx fun y hy => hsame y ?_⟩
    rcases List.mem_cons.mp hy with rfl | hy <;> simp [*]

/-! ### Reading around a position -/

theorem isRed_root? (h : Rep m q t) : isRed m t.root? = decide (t.color = .red) := by
  cases t with
  | nil => rfl
  | node c l x r => exact decide_eq_decide.mpr (by simp [h.1.color])

theorem isBlack_root? (h : Rep m q t) : isBlack m t.root? = decide (t.color = .black) := by
  cases t with
  | nil => rfl
  | node c l x r => exact decide_eq_decide.mpr (by simp [h.1.color])

theorem rbColor_root? (h : Rep m q t) : rbColor m t.root? = toRbColor t.color := by
  cases t with
  | nil => rfl
  | node c l x r => simpa [rbColor] using h.1.color

namespace At

/-- The contents of the node at a position. -/
theorem nodeAt {s : Side} {c : Color} (h : At m d ctx (.join s c t n u)) :
    NodeAt m n s t.root? u.root? (some (above d ctx)) (toRbColor c) := (rep_join.mp h.rep).1

theorem parent_eq (h : At m d ctx t) (hn : t.root? = some n) :
    m.parent n = some (above d ctx) := by
  obtain ⟨c, t₁, t₂, rfl⟩ := RedBlack.Tree.eq_join_of_root? .left hn
  exact h.nodeAt.parent

/-- The link at a position, and the other link of the node above. -/
theorem child_above (h : At m d ctx t) : m.child (sideOf ctx) (above d ctx) = t.root? := by
  cases ctx with
  | nil => exact h.repC.near
  | cons f ctx => exact h.repC.1.near

theorem child_flip_above (h : At m d ctx t) (hn : t.root? = some n) :
    m.child (sideOf ctx).flip (above d ctx) ≠ some n := by
  cases ctx with
  | nil =>
    have hfar : m.child Side.left.flip d = none := h.repC.far
    exact fun hf => Option.some_ne_none n (hf.symm.trans hfar)
  | cons f ctx =>
    intro hf
    have hu : f.sib.root? = some n := h.repC.1.far.symm.trans hf
    have hnodup := h.nodup
    simp only [Ctx.nodes_cons, List.nodup_cons, List.nodup_append] at hnodup
    exact hnodup.2.2.2 n (RedBlack.Tree.root?_mem hn) n (by simp [RedBlack.Tree.root?_mem hu]) rfl

/-- Whether the node at a position is the root. -/
theorem isRoot_eq (h : At m d ctx t) (hn : t.root? = some n) :
    isRoot m n = .ok ctx.isEmpty := by
  rw [isRoot, h.parent_eq hn]
  cases ctx with
  | nil =>
    have hc : m.color d = .rbRootMark := h.repC.color
    simp [above, hc, pure, Except.pure]
  | cons f ctx =>
    have hc : m.color f.node = toRbColor f.color := h.repC.1.color
    simp [above, hc, pure, Except.pure]

/-- The children of the sibling of a position. -/
theorem sib_children {s : Side} {c c' : Color} {p x : ι} {near far : RedBlack.Tree ι}
    (h : At m d (⟨s, c, p, .join s c' near x far⟩ :: ctx) t) :
    m.child s x = near.root? ∧ m.child s.flip x = far.root? := by
  obtain ⟨hx, -, -⟩ := rep_join.mp h.repC.2.1
  exact ⟨hx.near, hx.far⟩

/-- The colours that the loops ask for around the sibling of a position. -/
theorem sib_colors {s : Side} {c c' : Color} {p x : ι} {near far : RedBlack.Tree ι}
    (h : At m d (⟨s, c, p, .join s c' near x far⟩ :: ctx) t) :
    isBlack m (some x) = decide (c' = .black) ∧
    isRed m near.root? = decide (near.color = .red) ∧
    isBlack m near.root? = decide (near.color = .black) ∧
    isBlack m far.root? = decide (far.color = .black) := by
  have hrep := (at_flip.mp h).rep
  obtain ⟨-, hnear, hfar⟩ := rep_join.mp hrep
  have hx := isBlack_root? hrep
  rw [RedBlack.Tree.root?_join, RedBlack.Tree.color_join] at hx
  exact ⟨hx, isRed_root? hnear, isBlack_root? hnear, isBlack_root? hfar⟩

theorem color_above {f : Frame ι} (h : At m d (f :: ctx) t) :
    m.color f.node = toRbColor f.color := h.repC.1.color

theorem isBlack_parent {f : Frame ι} (h : At m d (f :: ctx) t) (hn : t.root? = some n) :
    isBlack m (m.parent n) = decide (f.color = .black) := by
  rw [h.parent_eq hn]
  exact decide_eq_decide.mpr (by rw [above, h.color_above, toRbColor_eq_rbBlack])

/-- The nodes of the subtree are not those of the context. -/
theorem disjoint (h : At m d ctx t) {x : ι} (hx : x ∈ t.toList) : x ∉ d :: ctx.nodes := by
  have hnodup := h.nodup
  simp only [List.nodup_cons, List.mem_append, not_or, List.nodup_append] at hnodup
  simp only [List.mem_cons, not_or]
  exact ⟨fun hxd => hnodup.1.1 (hxd ▸ hx), fun hc => hnodup.2.2.2 x hx x hc rfl⟩

theorem nodup_ctx (h : At m d ctx t) : (d :: ctx.nodes).Nodup :=
  h.nodup.sublist ((List.sublist_append_right _ _).cons_cons d)

theorem nodup_plug (h : At m d ctx t) : (ctx.plug t).toList.Nodup :=
  (Ctx.toList_plug_perm ctx t).nodup_iff.mpr (List.nodup_cons.mp h.nodup).2

theorem nodup_tree (h : At m d ctx t) : t.toList.Nodup :=
  (List.nodup_cons.mp h.nodup).2.sublist (List.sublist_append_left _ _)

end At

/-! ### Nodes a write does touch -/

variable [DecidableEq ι]

theorem sameAt_setChild {s : Side} {x y : ι} {p : Option ι} (h : y ≠ x) :
    SameAt m (m.setChild s x p) y :=
  ⟨fun r => by simp [h], rfl, rfl⟩

theorem sameAt_setColor {x y : ι} {c : RbColor} (h : y ≠ x) : SameAt m (m.setColor x c) y :=
  ⟨fun _ => rfl, rfl, by simp [h]⟩

theorem sameAt_adopt {p p' : Option ι} {y : ι} (h : p ≠ some y) : SameAt m (m.adopt p p') y :=
  ⟨fun _ => by simp, by simp [h], by simp⟩

/-- The link at a position is overwritten. -/
theorem RepC.setChild {p : Option ι} (h : RepC m d p ctx) (hnodup : (d :: ctx.nodes).Nodup)
    (p' : Option ι) : RepC (m.setChild (sideOf ctx) (above d ctx) p') d p' ctx := by
  cases ctx with
  | nil => exact ⟨by simp [sideOf, above], by simpa [sideOf] using h.far, h.parent, h.color⟩
  | cons f ctx =>
    obtain ⟨s, c, x, u⟩ := f
    obtain ⟨hx, hu, hctx⟩ := h
    have hne : ∀ y ∈ u.toList ++ d :: Ctx.nodes ctx, y ≠ x := by
      simp only [Ctx.nodes_cons, List.nodup_cons, List.mem_cons, List.mem_append, not_or] at hnodup
      simp only [List.mem_append, List.mem_cons]
      rintro y (hy | rfl | hy) rfl
      · exact hnodup.2.1.1 hy
      · exact hnodup.1.1 rfl
      · exact hnodup.2.1.2 hy
    exact ⟨⟨by simp [sideOf, above], by simpa [sideOf, above] using hx.far, hx.parent, hx.color⟩,
      hu.congr fun y hy => sameAt_setChild (hne y (by simp [hy])),
      hctx.congr fun y hy => sameAt_setChild (hne y (List.mem_append_right _ hy))⟩

/-! ### Finding the way around a position -/

namespace At

/-- Which child of its parent the node at a position is. -/
theorem isChild_eq (h : At m d ctx t) (hn : t.root? = some n) (s : Side) :
    isChild s m n = .ok (decide (s = sideOf ctx)) := by
  rw [isChild, h.parent_eq hn]
  rcases Side.eq_or_eq_flip (sideOf ctx) s with rfl | rfl
  · simp [h.child_above, hn, pure, Except.pure]
  · simp [h.child_flip_above hn, pure, Except.pure]

/-- The sibling of the node at a position below a node. -/
theorem rbSibling_eq {f : Frame ι} (h : At m d (f :: ctx) t) (hn : t.root? = some n) :
    rbSibling m n = .ok f.sib.root? := by
  have hfar : m.child f.side.flip f.node = f.sib.root? := h.repC.1.far
  rw [rbSibling, isLeftChild, h.isChild_eq hn, h.parent_eq hn]
  obtain ⟨s, c, x, u⟩ := f
  cases s <;> simpa [above, sideOf, Mem.left, Mem.right] using hfar

/-! ### Writing at a position -/

/-- Painting the node at a position. -/
theorem setColor {s : Side} {c : Color} (h : At m d ctx (.join s c t n u)) (c' : Color) :
    At (m.setColor n (toRbColor c')) d ctx (.join s c' t n u) := by
  obtain ⟨hn, ht, hu⟩ := rep_join.mp h.rep
  have hmem : n ∈ (RedBlack.Tree.join s c t n u).toList := RedBlack.Tree.root?_mem (by simp)
  have hperm := RedBlack.Tree.toList_join_perm s c t n u
  have hnodup := List.nodup_cons.mp (hperm.nodup_iff.mp h.nodup_tree)
  have hsub : ∀ y ∈ t.toList ++ u.toList, y ≠ n := fun y hy hyn => hnodup.1 (hyn ▸ hy)
  refine ⟨rep_join.mpr ⟨⟨hn.near, hn.far, hn.parent, by simp⟩,
      ht.congr fun y hy => sameAt_setColor (hsub y (by simp [hy])),
      hu.congr fun y hy => sameAt_setColor (hsub y (by simp [hy]))⟩, ?_, ?_⟩
  · simpa using h.repC.congr fun y hy =>
      sameAt_setColor fun hyn : y = n => h.disjoint hmem (hyn ▸ hy)
  · refine (List.Perm.nodup_iff ?_).mp h.nodup
    exact ((hperm.trans (RedBlack.Tree.toList_join_perm s c' t n u).symm).append_right _).cons d

/-- Painting the node above a position. -/
theorem setColor_above {s : Side} {c : Color} {x : ι} (h : At m d (⟨s, c, x, u⟩ :: ctx) t)
    (c' : Color) : At (m.setColor x (toRbColor c')) d (⟨s, c', x, u⟩ :: ctx) t :=
  at_cons.mpr ((at_cons.mp h).setColor c')

/-- Painting the sibling of a position. -/
theorem setColor_sib {s r : Side} {c c' : Color} {p x : ι} {u v : RedBlack.Tree ι}
    (h : At m d (⟨s, c, p, .join r c' u x v⟩ :: ctx) t) (c'' : Color) :
    At (m.setColor x (toRbColor c'')) d (⟨s, c, p, .join r c'' u x v⟩ :: ctx) t :=
  at_flip.mpr ((at_flip.mp h).setColor c'')

/-- Painting the node at a position black. -/
theorem blacken (h : At m d ctx t) (hn : t.root? = some n) :
    At (m.setColor n .rbBlack) d ctx t.blacken := by
  cases t with
  | nil => simp at hn
  | node c l x r =>
    obtain rfl : x = n := by simpa using hn
    exact h.setColor (s := .left) .black

/-- `replace`, at a position. -/
theorem replace_eq (h : At m d ctx t) (hn : t.root? = some n) (p : Option ι) :
    replace m n p =
      .ok ((m.setChild (sideOf ctx) (above d ctx) p).adopt p (some (above d ctx))) := by
  have hside : (if sideOf ctx = .left then Side.left else .right) = sideOf ctx := by
    cases sideOf ctx <;> rfl
  simp [replace, isLeftChild, h.isChild_eq hn, h.parent_eq hn, eq_comm (a := Side.left), hside]

/-- **Replacing the subtree at a position** by a tree that the memory already holds. -/
theorem replace {q : ι} (h : At m d ctx t) (hu : Rep m q u)
    (hmem : ∀ x ∈ u.toList, x ∈ t.toList) (hnodup : u.toList.Nodup) :
    At ((m.setChild (sideOf ctx) (above d ctx) u.root?).adopt u.root? (some (above d ctx)))
      d ctx u := by
  have hne : ∀ x ∈ u.toList, x ≠ above d ctx := fun x hx hxa =>
    h.disjoint (hmem x hx) (hxa ▸ above_mem d ctx)
  refine ⟨hu.reparent hnodup (fun x hx hxr => ?_) (fun x hxr => ?_), ?_, ?_⟩
  · exact (sameAt_setChild (hne x hx)).trans (sameAt_adopt hxr)
  · have hx := hne x (RedBlack.Tree.root?_mem hxr)
    exact ⟨fun r => by simp [hx], by simp [hxr], by simp⟩
  · refine (h.repC.setChild h.nodup_ctx u.root?).congr fun x hx => sameAt_adopt fun hxr => ?_
    exact h.disjoint (hmem x (RedBlack.Tree.root?_mem hxr)) hx
  · have hctx := h.nodup_ctx
    simp only [List.nodup_cons, List.nodup_append, List.mem_append, not_or] at hctx ⊢
    exact ⟨⟨fun hd => h.disjoint (hmem d hd) (by simp), hctx.1⟩, hnodup, hctx.2,
      fun x hx y hy hxy => h.disjoint (hmem x hx) (by simp [hxy, hy])⟩

/-- What `rotate` writes, at a position. -/
theorem rotate_fields {s : Side} {c c' : Color} {p x : ι} {a b e : RedBlack.Tree ι}
    (h : At m d ctx (.join s c a p (.join s c' b x e))) (hxa : x ≠ above d ctx) :
    ∃ m', NaviScheme.rotate s m p = .ok m' ∧ m'.color = m.color ∧
      (∀ r y, m'.child r y = if r = s ∧ y = x then some p else if r = s.flip ∧ y = p then b.root?
        else if r = sideOf ctx ∧ y = above d ctx then some x else m.child r y) ∧
      ∀ y, m'.parent y = if y = p then some x else if b.root? = some y then some p
        else if y = x then some (above d ctx) else m.parent y := by
  obtain ⟨hp, -, hx⟩ := rep_join.mp h.rep
  obtain ⟨hx, -, -⟩ := rep_join.mp hx
  have hfar : m.child s.flip p = some x := by simpa using hp.far
  have hnear : ((m.setChild (sideOf ctx) (above d ctx) (some x)).adopt (some x)
      (some (above d ctx))).child s x = b.root? := by simp [hxa, hx.near]
  have hnear' : (((m.setChild (sideOf ctx) (above d ctx) (some x)).adopt (some x)
      (some (above d ctx))).setChild s.flip p b.root?).child s x = b.root? := by
    simp [hxa, hx.near]
  have hrotate : NaviScheme.rotate s m p =
      .ok ((((((m.setChild (sideOf ctx) (above d ctx) (some x)).adopt (some x)
        (some (above d ctx))).setChild s.flip p b.root?).adopt b.root? (some p)).setChild s x
        (some p)).setParent p (some x)) := by
    simp only [NaviScheme.rotate, hfar, h.replace_eq (n := p) (by simp), ok_bind, deref_some,
      pure_eq_ok, hnear, hnear']
  refine ⟨_, hrotate, ?_, ?_, ?_⟩
  · simp
  · intro r y
    simp
  · intro y
    simp [eq_comm (a := x)]

/-- **Rotating at a position** towards side `s`. -/
theorem rotate {s : Side} {c c' : Color} {p x : ι} {a b e : RedBlack.Tree ι}
    (h : At m d ctx (.join s c a p (.join s c' b x e))) :
    ∃ m', NaviScheme.rotate s m p = .ok m' ∧
      At m' d ctx (.join s c' (.join s c a p b) x e) := by
  have hperm : (RedBlack.Tree.join s c a p (.join s c' b x e)).toList.Perm
      (p :: x :: (a.toList ++ (b.toList ++ e.toList))) :=
    (RedBlack.Tree.toList_join_perm _ _ _ _ _).trans <| .cons p <|
      ((RedBlack.Tree.toList_join_perm _ _ _ _ _).append_left _).trans List.perm_middle
  have hnodup := hperm.nodup_iff.mp h.nodup_tree
  have hdisj : ∀ y ∈ p :: x :: (a.toList ++ (b.toList ++ e.toList)), y ∉ d :: ctx.nodes :=
    fun y hy => h.disjoint (hperm.mem_iff.mpr hy)
  have habove : ∀ y ∈ p :: x :: (a.toList ++ (b.toList ++ e.toList)), y ≠ above d ctx :=
    fun y hy hya => hdisj y hy (hya ▸ above_mem d ctx)
  obtain ⟨m', hm', hcolor, hchild, hparent⟩ := h.rotate_fields (habove x (by simp))
  refine ⟨m', hm', ?_⟩
  obtain ⟨hp, ha, hx⟩ := rep_join.mp h.rep
  obtain ⟨hx, hb, he⟩ := rep_join.mp hx
  simp only [List.nodup_cons, List.nodup_append, List.mem_cons, List.mem_append, not_or] at hnodup
  obtain ⟨⟨hpx, hpa, hpb, hpe⟩, ⟨hxa, hxb, hxe⟩, hna, ⟨hnb, hne, hbe⟩, hab⟩ := hnodup
  have hpA := habove p (by simp)
  have hxA := habove x (by simp)
  have hxp : x ≠ p := Ne.symm hpx
  have hroot : ∀ {y}, b.root? = some y → y ∈ b.toList := RedBlack.Tree.root?_mem
  have hbp : b.root? ≠ some p := fun h => hpb (hroot h)
  have hbx : b.root? ≠ some x := fun h => hxb (hroot h)
  have hsame : ∀ y, y ≠ p → y ≠ x → y ≠ above d ctx → b.root? ≠ some y → SameAt m m' y :=
    fun y hyp hyx hya hyb => ⟨fun r => by simp [hchild, hyp, hyx, hya],
      by simp [hparent, hyp, hyx, hyb], by rw [hcolor]⟩
  refine ⟨rep_join.mpr ⟨⟨?_, ?_, ?_, ?_⟩, rep_join.mpr ⟨⟨?_, ?_, ?_, ?_⟩, ?_, ?_⟩, ?_⟩, ?_, ?_⟩
  · simp [hchild]
  · simpa [hchild, hxp, hxA] using hx.far
  · simp [hparent, hxp, hbx]
  · rw [hcolor, hx.color]
  · simpa [hchild, hpx, hpA] using hp.near
  · simp [hchild]
  · simp [hparent]
  · rw [hcolor, hp.color]
  · exact ha.congr fun y hy => hsame y (fun h => hpa (h ▸ hy)) (fun h => hxa (h ▸ hy))
      (habove y (by simp [hy])) fun h => hab y hy y (.inl (hroot h)) rfl
  · refine hb.reparent hnb (fun y hy hyr => ?_) fun y hyr => ?_
    · exact hsame y (fun h => hpb (h ▸ hy)) (fun h => hxb (h ▸ hy)) (habove y (by simp [hy])) hyr
    · have hy := hroot hyr
      have hyp : y ≠ p := fun h => hpb (h ▸ hy)
      have hyx : y ≠ x := fun h => hxb (h ▸ hy)
      exact ⟨fun r => by simp [hchild, hyp, hyx, habove y (by simp [hy])],
        by simp [hparent, hyp, hyr], by rw [hcolor]⟩
  · exact he.congr fun y hy => hsame y (fun h => hpe (h ▸ hy)) (fun h => hxe (h ▸ hy))
      (habove y (by simp [hy])) fun h => hbe y (hroot h) y hy rfl
  · rw [RedBlack.Tree.root?_join]
    refine (h.repC.setChild h.nodup_ctx (some x)).congr fun y hy => ?_
    have hyp : y ≠ p := fun h => hdisj p (by simp) (h ▸ hy)
    have hyx : y ≠ x := fun h => hdisj x (by simp) (h ▸ hy)
    have hyb : b.root? ≠ some y := fun h => hdisj y (by simp [hroot h]) hy
    exact ⟨fun r => by simp [hchild, hyp, hyx], by simp [hparent, hyp, hyx, hyb], by rw [hcolor]; rfl⟩
  · rw [← RedBlack.Tree.toList_rotate s c c' c' c]
    exact h.nodup

end At

end NaviScheme
