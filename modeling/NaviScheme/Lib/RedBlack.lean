import Mathlib.Data.List.Perm.Basic
import Mathlib.Data.List.Nodup
import Mathlib.Tactic.Common

/-!
# Red–black trees with a context

Binary trees with a colour at every node, together with the *contexts* (paths
from a position up to the root) that a bottom-up rebalancing walks along. The
definitions are symmetric in left and right: a `RedBlack.Side` says on which side
of a node the position lies, and `RedBlack.Tree.join` builds the node from the
subtree on that side and the one on the other, so that a rebalancing step and its
mirror image are one definition and one proof.

The red–black conditions are `RedBlack.Balanced` on trees and `RedBlack.Ctx.Fits`
on contexts: a context fits a colour and a black-height when plugging a tree with
that colour and height gives a balanced tree with a black root
(`RedBlack.Ctx.Fits.plug`), and every position of a balanced tree splits it that
way (`RedBlack.Balanced.split`).
-/

namespace RedBlack

universe u

variable {ι : Type u}

/-- The two colours of a node. -/
inductive Color
  /-- A red node. -/
  | red
  /-- A black node. -/
  | black
  deriving DecidableEq, Repr

/-- The two sides of a node. -/
inductive Side
  /-- The left-hand side. -/
  | left
  /-- The right-hand side. -/
  | right
  deriving DecidableEq, Repr

/-- The other side. -/
def Side.flip : Side → Side
  | left => right
  | right => left

@[simp] theorem Side.flip_left : Side.left.flip = .right := rfl

@[simp] theorem Side.flip_right : Side.right.flip = .left := rfl

@[simp] theorem Side.flip_flip (s : Side) : s.flip.flip = s := by cases s <;> rfl

@[simp] theorem Side.flip_ne (s : Side) : s.flip ≠ s := by cases s <;> simp

@[simp] theorem Side.ne_flip (s : Side) : s ≠ s.flip := by cases s <;> simp

theorem Side.eq_or_eq_flip (s r : Side) : r = s ∨ r = s.flip := by
  cases s <;> cases r <;> simp

/-- Binary trees with a colour and an identifier at every node. -/
inductive Tree (ι : Type u)
  /-- The empty tree. -/
  | nil
  /-- A node with its two subtrees. -/
  | node (c : Color) (l : Tree ι) (x : ι) (r : Tree ι)
  deriving DecidableEq, Repr

namespace Tree

/-- The identifiers of a tree, in order. -/
def toList : Tree ι → List ι
  | nil => []
  | node _ l x r => l.toList ++ x :: r.toList

/-- The identifier at the root. -/
def root? : Tree ι → Option ι
  | nil => none
  | node _ _ x _ => some x

/-- The colour of the root; the empty tree counts as black. -/
def color : Tree ι → Color
  | nil => .black
  | node c _ _ _ => c

/-- The tree with its root painted black. -/
def blacken : Tree ι → Tree ι
  | nil => nil
  | node _ l x r => node .black l x r

/-- The node `x` with `near` on side `s` and `far` on the other. -/
def join (s : Side) (c : Color) (near : Tree ι) (x : ι) (far : Tree ι) : Tree ι :=
  match s with
  | .left => node c near x far
  | .right => node c far x near

@[simp] theorem toList_nil : (nil : Tree ι).toList = [] := rfl

@[simp] theorem toList_node (c : Color) (l : Tree ι) (x : ι) (r : Tree ι) :
    (node c l x r).toList = l.toList ++ x :: r.toList := rfl

@[simp] theorem root?_nil : (nil : Tree ι).root? = none := rfl

@[simp] theorem root?_node (c : Color) (l : Tree ι) (x : ι) (r : Tree ι) :
    (node c l x r).root? = some x := rfl

@[simp] theorem color_nil : (nil : Tree ι).color = .black := rfl

@[simp] theorem color_node (c : Color) (l : Tree ι) (x : ι) (r : Tree ι) :
    (node c l x r).color = c := rfl

@[simp] theorem root?_join (s : Side) (c : Color) (t : Tree ι) (x : ι) (u : Tree ι) :
    (join s c t x u).root? = some x := by cases s <;> rfl

@[simp] theorem color_join (s : Side) (c : Color) (t : Tree ι) (x : ι) (u : Tree ι) :
    (join s c t x u).color = c := by cases s <;> rfl

@[simp] theorem root?_blacken (t : Tree ι) : t.blacken.root? = t.root? := by cases t <;> rfl

@[simp] theorem toList_blacken (t : Tree ι) : t.blacken.toList = t.toList := by
  cases t <;> rfl

@[simp] theorem color_blacken (t : Tree ι) : t.blacken.color = .black := by cases t <;> rfl

/-- Looking at a node from the other side. -/
theorem join_flip (s : Side) (c : Color) (t : Tree ι) (x : ι) (u : Tree ι) :
    join s.flip c t x u = join s c u x t := by cases s <;> rfl

/-- Every node can be looked at from either side. -/
theorem exists_eq_join (s : Side) (l : Tree ι) (x : ι) (r : Tree ι) :
    ∃ t u, ∀ c, node c l x r = join s c t x u := by
  cases s
  · exact ⟨l, r, fun _ => rfl⟩
  · exact ⟨r, l, fun _ => rfl⟩

/-- A tree without a root is empty. -/
theorem root?_eq_none {t : Tree ι} : t.root? = none ↔ t = nil := by
  cases t <;> simp

/-- A tree with root `x` is a node `x`, seen from either side. -/
theorem eq_join_of_root? (s : Side) {t : Tree ι} {x : ι} (h : t.root? = some x) :
    ∃ c t₁ t₂, t = join s c t₁ x t₂ := by
  cases t with
  | nil => simp at h
  | node c l y r =>
    obtain rfl : y = x := by simpa using h
    obtain ⟨t₁, t₂, ht⟩ := exists_eq_join s l y r
    exact ⟨c, t₁, t₂, ht c⟩

theorem root?_mem {t : Tree ι} {x : ι} (h : t.root? = some x) : x ∈ t.toList := by
  cases t with
  | nil => simp at h
  | node c l y r =>
    obtain rfl : y = x := by simpa using h
    simp

theorem toList_join_perm (s : Side) (c : Color) (t : Tree ι) (x : ι) (u : Tree ι) :
    (join s c t x u).toList.Perm (x :: (t.toList ++ u.toList)) := by
  cases s
  · exact List.perm_middle
  · exact List.perm_middle.trans (List.perm_append_comm.cons x)

/-- Renaming the identifiers of a tree. -/
def map (f : ι → ι) : Tree ι → Tree ι
  | nil => nil
  | node c l x r => node c (l.map f) (f x) (r.map f)

@[simp] theorem toList_map (f : ι → ι) (t : Tree ι) : (t.map f).toList = t.toList.map f := by
  induction t with
  | nil => rfl
  | node c l x r ihl ihr => simp [map, ihl, ihr]

@[simp] theorem root?_map (f : ι → ι) (t : Tree ι) : (t.map f).root? = t.root?.map f := by
  cases t <;> rfl

/-- Renaming identifiers that do not occur changes nothing. -/
theorem map_eq_self {f : ι → ι} {t : Tree ι} (h : ∀ x ∈ t.toList, f x = x) : t.map f = t := by
  induction t with
  | nil => rfl
  | node c l x r ihl ihr =>
    simp only [toList_node, List.mem_append, List.mem_cons] at h
    rw [map, ihl fun y hy => h y (.inl hy), ihr fun y hy => h y (.inr (.inr hy)),
      h x (.inr (.inl rfl))]

end Tree

/-- One step of a path to the root: the node above, on which of its sides the
path comes from, its colour, and its subtree on the other side. -/
structure Frame (ι : Type u) where
  /-- The side of the node on which the path comes from. -/
  side : Side
  /-- The colour of the node. -/
  color : Color
  /-- The node. -/
  node : ι
  /-- The subtree on the other side. -/
  sib : Tree ι
  deriving DecidableEq, Repr

/-- A position in a tree: the path from it to the root, innermost step first. -/
abbrev Ctx (ι : Type u) := List (Frame ι)

namespace Ctx

/-- The whole tree, with `t` at the position. -/
def plug : Ctx ι → Tree ι → Tree ι
  | [], t => t
  | f :: ctx, t => plug ctx (t.join f.side f.color f.node f.sib)

/-- The identifiers to the left of the position. -/
def before : Ctx ι → List ι
  | [] => []
  | ⟨.left, _, _, _⟩ :: ctx => before ctx
  | ⟨.right, _, x, u⟩ :: ctx => before ctx ++ (u.toList ++ [x])

/-- The identifiers to the right of the position. -/
def after : Ctx ι → List ι
  | [] => []
  | ⟨.left, _, x, u⟩ :: ctx => x :: u.toList ++ after ctx
  | ⟨.right, _, _, _⟩ :: ctx => after ctx

/-- All identifiers off the position. -/
def nodes : Ctx ι → List ι
  | [] => []
  | f :: ctx => f.node :: (f.sib.toList ++ nodes ctx)

@[simp] theorem plug_nil (t : Tree ι) : plug [] t = t := rfl

@[simp] theorem plug_cons (f : Frame ι) (ctx : Ctx ι) (t : Tree ι) :
    plug (f :: ctx) t = plug ctx (t.join f.side f.color f.node f.sib) := rfl

@[simp] theorem nodes_nil : nodes ([] : Ctx ι) = [] := rfl

@[simp] theorem nodes_cons (f : Frame ι) (ctx : Ctx ι) :
    nodes (f :: ctx) = f.node :: (f.sib.toList ++ nodes ctx) := rfl

theorem nodes_append (ctx₁ ctx₂ : Ctx ι) : nodes (ctx₁ ++ ctx₂) = nodes ctx₁ ++ nodes ctx₂ := by
  induction ctx₁ with
  | nil => rfl
  | cons f ctx ih => simp [ih]

theorem plug_append (ctx₁ ctx₂ : Ctx ι) (t : Tree ι) :
    plug (ctx₁ ++ ctx₂) t = plug ctx₂ (plug ctx₁ t) := by
  induction ctx₁ generalizing t with
  | nil => rfl
  | cons f ctx ih => exact ih _

theorem after_append (ctx₁ ctx₂ : Ctx ι) : after (ctx₁ ++ ctx₂) = after ctx₁ ++ after ctx₂ := by
  induction ctx₁ with
  | nil => rfl
  | cons f ctx ih =>
    obtain ⟨s, c, x, u⟩ := f
    cases s <;> simp [after, ih]

theorem before_append (ctx₁ ctx₂ : Ctx ι) :
    before (ctx₁ ++ ctx₂) = before ctx₂ ++ before ctx₁ := by
  induction ctx₁ with
  | nil => simp [before]
  | cons f ctx ih =>
    obtain ⟨s, c, x, u⟩ := f
    cases s <;> simp [before, ih]

/-- The order of a tree around a position. -/
theorem toList_plug (ctx : Ctx ι) (t : Tree ι) :
    (plug ctx t).toList = before ctx ++ t.toList ++ after ctx := by
  induction ctx generalizing t with
  | nil => simp [before, after]
  | cons f ctx ih =>
    obtain ⟨s, c, x, u⟩ := f
    cases s <;> simp [ih, before, after, Tree.join]

theorem toList_plug_perm (ctx : Ctx ι) (t : Tree ι) :
    (plug ctx t).toList.Perm (t.toList ++ nodes ctx) := by
  induction ctx generalizing t with
  | nil => simp
  | cons f ctx ih =>
    refine (ih _).trans ?_
    have h := (Tree.toList_join_perm f.side f.color t f.node f.sib).append_right (nodes ctx)
    refine h.trans ?_
    have hmid : (t.toList ++ f.node :: (f.sib.toList ++ nodes ctx)).Perm _ := List.perm_middle
    simpa using hmid.symm

theorem length_le_nodes (ctx : Ctx ι) : ctx.length ≤ (nodes ctx).length := by
  induction ctx with
  | nil => simp
  | cons f ctx ih =>
    simp only [List.length_cons, nodes_cons, List.length_append]
    omega

/-- Two trees with the same order, plugged into the same position, have the same order. -/
theorem toList_plug_congr (ctx : Ctx ι) {t u : Tree ι} (h : t.toList = u.toList) :
    (plug ctx t).toList = (plug ctx u).toList := by
  rw [toList_plug, toList_plug, h]

end Ctx

/-- Renaming the identifiers of a context. -/
def Ctx.map (f : ι → ι) (ctx : Ctx ι) : Ctx ι :=
  List.map (fun g => { g with node := f g.node, sib := g.sib.map f }) ctx

theorem Ctx.map_append (f : ι → ι) (ctx₁ ctx₂ : Ctx ι) :
    Ctx.map f (ctx₁ ++ ctx₂) = ctx₁.map f ++ ctx₂.map f := List.map_append

theorem Ctx.map_plug (f : ι → ι) (ctx : Ctx ι) (t : Tree ι) :
    (ctx.plug t).map f = (ctx.map f).plug (t.map f) := by
  induction ctx generalizing t with
  | nil => rfl
  | cons g ctx ih =>
    obtain ⟨s, c, x, u⟩ := g
    rw [plug_cons, ih]
    cases s <;> rfl

theorem Ctx.map_eq_self {f : ι → ι} {ctx : Ctx ι} (h : ∀ x ∈ ctx.nodes, f x = x) :
    ctx.map f = ctx := by
  induction ctx with
  | nil => rfl
  | cons g ctx ih =>
    simp only [nodes_cons, List.mem_cons, List.mem_append] at h
    rw [map, List.map_cons, h g.node (.inl rfl), Tree.map_eq_self fun x hx => h x (.inr (.inl hx))]
    exact congrArg _ (ih fun x hx => h x (.inr (.inr hx)))

/-! ### Finding a position -/

/-- Every identifier of a tree sits at some position. -/
theorem Tree.exists_plug_of_mem {t : Tree ι} {x : ι} (h : x ∈ t.toList) :
    ∃ ctx c l r, t = Ctx.plug ctx (node c l x r) := by
  suffices H : ∀ ctx₀ : Ctx ι, ∃ ctx c l r, ctx₀.plug t = Ctx.plug ctx (node c l x r) from H []
  induction t with
  | nil => simp at h
  | node c l y r ihl ihr =>
    intro ctx₀
    simp only [toList_node, List.mem_append, List.mem_cons] at h
    rcases h with h | rfl | h
    · exact ihl h (⟨.left, c, y, r⟩ :: ctx₀)
    · exact ⟨ctx₀, c, l, r, rfl⟩
    · exact ihr h (⟨.right, c, y, l⟩ :: ctx₀)

/-! ### The red–black conditions -/

/-- `Balanced t c n`: no red node of `t` has a red child, every path from the root
of `t` to an empty subtree has `n` black nodes, and the root has colour `c`. -/
inductive Balanced : Tree ι → Color → ℕ → Prop
  /-- The empty tree is black, of height `0`. -/
  | nil : Balanced .nil .black 0
  /-- A red node has black children. -/
  | red {l : Tree ι} {x : ι} {r : Tree ι} {n : ℕ} (hl : Balanced l .black n)
      (hr : Balanced r .black n) : Balanced (.node .red l x r) .red n
  /-- A black node has children of any colour. -/
  | black {l : Tree ι} {x : ι} {r : Tree ι} {c d : Color} {n : ℕ} (hl : Balanced l c n)
      (hr : Balanced r d n) : Balanced (.node .black l x r) .black (n + 1)

namespace Balanced

/-- The colour in `RedBlack.Balanced` is that of the root. -/
theorem color_eq {t : Tree ι} {c : Color} {n : ℕ} (h : Balanced t c n) : t.color = c := by
  cases h <;> rfl

theorem join_red {s : Side} {t : Tree ι} {x : ι} {u : Tree ι} {n : ℕ} :
    Balanced (Tree.join s .red t x u) .red n ↔ Balanced t .black n ∧ Balanced u .black n := by
  constructor
  · intro h
    cases s <;> cases h <;> exact ⟨‹_›, ‹_›⟩
  · rintro ⟨ht, hu⟩
    cases s
    · exact .red ht hu
    · exact .red hu ht

theorem join_black {s : Side} {t : Tree ι} {x : ι} {u : Tree ι} {n : ℕ} :
    Balanced (Tree.join s .black t x u) .black n ↔
      ∃ c d k, n = k + 1 ∧ Balanced t c k ∧ Balanced u d k := by
  constructor
  · intro h
    cases s <;> cases h <;> exact ⟨_, _, _, rfl, ‹_›, ‹_›⟩
  · rintro ⟨c, d, k, rfl, ht, hu⟩
    cases s
    · exact .black ht hu
    · exact .black hu ht

theorem to_black {t : Tree ι} {c : Color} {n : ℕ} (h : Balanced t c n) (ht : t.color ≠ .red) :
    Balanced t .black n := by
  cases h with
  | nil => exact .nil
  | red => simp at ht
  | black hl hr => exact .black hl hr

theorem to_red {t : Tree ι} {c : Color} {n : ℕ} (h : Balanced t c n) (ht : t.color = .red) :
    Balanced t .red n := by
  cases h with
  | nil => simp at ht
  | red hl hr => exact .red hl hr
  | black => simp at ht

/-- Painting a red root black adds one to the black-height. -/
theorem blacken_red {t : Tree ι} {n : ℕ} (h : Balanced t .red n) :
    Balanced t.blacken .black (n + 1) := by
  cases h with
  | red hl hr => exact .black hl hr

/-- Painting the root of a balanced tree black keeps it balanced. -/
theorem blacken {t : Tree ι} {c : Color} {n : ℕ} (h : Balanced t c n) :
    ∃ k, Balanced t.blacken .black k := by
  cases h with
  | nil => exact ⟨0, .nil⟩
  | red hl hr => exact ⟨_, .black hl hr⟩
  | black hl hr => exact ⟨_, .black hl hr⟩

/-- The black nodes on the paths of a tree are counted once. -/
theorem height_unique {t : Tree ι} {c c' : Color} {k k' : ℕ} (h : Balanced t c k)
    (h' : Balanced t c' k') : k = k' := by
  induction h generalizing c' k' with
  | nil =>
    cases h'
    rfl
  | red hl hr ihl ihr =>
    cases h' with
    | red hl' hr' => exact ihl hl'
  | black hl hr ihl ihr =>
    cases h' with
    | black hl' hr' => exact congrArg (· + 1) (ihl hl')

/-- A balanced tree of black-height zero is empty or red. -/
theorem eq_nil_or_red {t : Tree ι} {c : Color} (h : Balanced t c 0) : t = .nil ∨ c = .red := by
  cases h
  · exact .inl rfl
  · exact .inr rfl

/-- A balanced tree of black-height at least one is not empty. -/
theorem exists_node {t : Tree ι} {c : Color} {n : ℕ} (h : Balanced t c (n + 1)) :
    ∃ l x r, t = .node c l x r := by
  cases h
  · exact ⟨_, _, _, rfl⟩
  · exact ⟨_, _, _, rfl⟩

end Balanced

/-- `Fits ctx c n`: the position `ctx` of a balanced tree with a black root has room
for a subtree whose root has colour `c` and whose black-height is `n`. -/
inductive Ctx.Fits : Ctx ι → Color → ℕ → Prop
  /-- At the root there is room for a black tree of any height. -/
  | nil (n : ℕ) : Fits [] .black n
  /-- Below a red node there is room for a black tree as high as the other one. -/
  | red {s : Side} {x : ι} {u : Tree ι} {ctx : Ctx ι} {n : ℕ} (hctx : Fits ctx .red n)
      (hu : Balanced u .black n) : Fits (⟨s, .red, x, u⟩ :: ctx) .black n
  /-- Below a black node there is room for any tree as high as the other one. -/
  | black {s : Side} {x : ι} {u : Tree ι} {ctx : Ctx ι} {c d : Color} {n : ℕ}
      (hctx : Fits ctx .black (n + 1)) (hu : Balanced u d n) :
      Fits (⟨s, .black, x, u⟩ :: ctx) c n

/-- Renaming the identifiers keeps a tree balanced. -/
theorem Balanced.map {t : Tree ι} {c : Color} {n : ℕ} (h : Balanced t c n) (f : ι → ι) :
    Balanced (t.map f) c n := by
  induction h with
  | nil => exact .nil
  | red _ _ ihl ihr => exact .red ihl ihr
  | black _ _ ihl ihr => exact .black ihl ihr

namespace Ctx.Fits

/-- A position with room for a red tree has room for a black one. -/
theorem to_black {ctx : Ctx ι} {c : Color} {n : ℕ} (h : Fits ctx c n) : Fits ctx .black n := by
  cases h with
  | nil => exact .nil _
  | red hctx hu => exact .red hctx hu
  | black hctx hu => exact .black hctx hu

/-- **Plugging a tree that fits gives a balanced tree.** -/
theorem plug {ctx : Ctx ι} {t : Tree ι} {c : Color} {n : ℕ} (h : Fits ctx c n)
    (ht : Balanced t c n) : ∃ k, Balanced (ctx.plug t) .black k := by
  induction h generalizing t with
  | nil n => exact ⟨n, ht⟩
  | red hctx hu ih => exact ih (Balanced.join_red.mpr ⟨ht, hu⟩)
  | black hctx hu ih => exact ih (Balanced.join_black.mpr ⟨_, _, _, rfl, ht, hu⟩)

end Ctx.Fits

/-- **Every position of a balanced tree splits it** into a balanced subtree and a
context that has room for it. -/
theorem Balanced.split {ctx : Ctx ι} {t : Tree ι} {k : ℕ}
    (h : Balanced (ctx.plug t) .black k) : ∃ c n, Balanced t c n ∧ ctx.Fits c n := by
  induction ctx generalizing t with
  | nil => exact ⟨_, _, h, .nil k⟩
  | cons f ctx ih =>
    obtain ⟨s, d, x, u⟩ := f
    obtain ⟨c, n, hb, hfit⟩ := ih h
    obtain rfl : d = c := by simpa using hb.color_eq
    cases d with
    | red =>
      obtain ⟨ht, hu⟩ := join_red.mp hb
      exact ⟨_, n, ht, .red hfit hu⟩
    | black =>
      obtain ⟨c, d, m, rfl, ht, hu⟩ := join_black.mp hb
      exact ⟨c, m, ht, .black hfit hu⟩

/-- The node above a position of a balanced tree, with its subtrees, is balanced. -/
theorem Balanced.split_cons {f : Frame ι} {ctx : Ctx ι} {t : Tree ι} {k : ℕ}
    (h : Balanced (Ctx.plug (f :: ctx) t) .black k) :
    ∃ c n, Balanced (t.join f.side f.color f.node f.sib) c n ∧ ctx.Fits c n :=
  Balanced.split h

/-! ### Rotation -/

/-- A rotation towards side `s` keeps the order: the node on the other side comes up. -/
theorem Tree.toList_rotate (s : Side) (c d c' d' : Color) (t : Tree ι) (x : ι) (u : Tree ι)
    (y : ι) (v : Tree ι) :
    (join s c t x (join s d u y v)).toList = (join s c' (join s d' t x u) y v).toList := by
  cases s <;> simp [join]

end RedBlack
