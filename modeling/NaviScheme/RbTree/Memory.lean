import Mathlib.Logic.Function.Basic
import Mathlib.Order.Lattice
import NaviScheme.Lib.Except
import NaviScheme.Lib.RedBlack

/-!
# The red–black trees of the slab allocator

`rbtree.c` and `slab_insert` of `slab.c`, over a memory that gives the contents of
the node at every address. A null pointer is `none`; following one is the fault
`NaviScheme.RbFault.nullDeref`. The loops of the source take a bound on the number
of their iterations and end in `NaviScheme.RbFault.outOfFuel` when they reach it,
so that a loop terminates when some bound is enough.

A function that the source writes twice, once for each side, is written here once,
for a `RedBlack.Side`; its two instances carry the names of the source.
-/

namespace NaviScheme

open RedBlack

variable {ι : Type}

/-- `enum rb_color`. -/
inductive RbColor
  /-- `RB_RED` -/
  | rbRed
  /-- `RB_BLACK` -/
  | rbBlack
  /-- `RB_ROOT_MARK`, the colour of the dummy root -/
  | rbRootMark
  deriving DecidableEq, Repr

/-- The fields of the `struct rb_node` at every address: `left` and `right`, the children
on the two sides, `parent` and `color`. -/
structure Mem (ι : Type) where
  /-- `left` and `right` -/
  child : Side → ι → Option ι
  /-- `parent` -/
  parent : ι → Option ι
  /-- `color` -/
  color : ι → RbColor

/-- What can go wrong in a tree operation. -/
inductive RbFault
  /-- A null pointer is followed. -/
  | nullDeref
  /-- A loop has used up the bound on its iterations. -/
  | outOfFuel
  deriving DecidableEq, Repr

/-- Following a pointer. -/
def deref : Option ι → Except RbFault ι
  | none => .error .nullDeref
  | some x => .ok x

@[simp] theorem deref_none : deref (none : Option ι) = .error .nullDeref := rfl

@[simp] theorem deref_some (x : ι) : deref (some x) = .ok x := rfl

namespace Mem

variable [DecidableEq ι]

/-- `n->left`. -/
def left (m : Mem ι) (n : ι) : Option ι := m.child .left n

/-- `n->right`. -/
def right (m : Mem ι) (n : ι) : Option ι := m.child .right n

/-- Writing one of the children of `n`. -/
def setChild (m : Mem ι) (s : Side) (n : ι) (p : Option ι) : Mem ι :=
  { m with child := fun r x => if r = s ∧ x = n then p else m.child r x }

/-- Writing the parent of `n`. -/
def setParent (m : Mem ι) (n : ι) (p : Option ι) : Mem ι :=
  { m with parent := Function.update m.parent n p }

/-- Writing the colour of `n`. -/
def setColor (m : Mem ι) (n : ι) (c : RbColor) : Mem ι :=
  { m with color := Function.update m.color n c }

/-- `if (p) p->parent = q`. -/
def adopt (m : Mem ι) (p : Option ι) (q : Option ι) : Mem ι :=
  match p with
  | none => m
  | some x => m.setParent x q

end Mem

section Source

variable [DecidableEq ι]

/-- Whether `n` is the child of its parent on side `s`. -/
def isChild (s : Side) (m : Mem ι) (n : ι) : Except RbFault Bool := do
  let p ← deref (m.parent n)
  return decide (m.child s p = some n)

/-- `is_left_child`. -/
def isLeftChild (m : Mem ι) (n : ι) : Except RbFault Bool := isChild .left m n

/-- `is_right_child`. -/
def isRightChild (m : Mem ι) (n : ι) : Except RbFault Bool := isChild .right m n

/-- `is_red`. -/
def isRed (m : Mem ι) : Option ι → Bool
  | none => false
  | some n => m.color n = .rbRed

/-- `is_black`. -/
def isBlack (m : Mem ι) : Option ι → Bool
  | none => true
  | some n => m.color n = .rbBlack

/-- `rb_color`. -/
def rbColor (m : Mem ι) : Option ι → RbColor
  | none => .rbBlack
  | some n => m.color n

/-- `is_root`. -/
def isRoot (m : Mem ι) (n : ι) : Except RbFault Bool := do
  let p ← deref (m.parent n)
  return decide (m.color p = .rbRootMark)

/-- `rb_uncle`. -/
def rbUncle (m : Mem ι) (n : ι) : Except RbFault (Option ι) := do
  let p ← deref (m.parent n)
  let grandparent ← deref (m.parent p)
  if m.parent n = m.left grandparent then
    return m.right grandparent
  else
    return m.left grandparent

/-- `rb_sibling`. -/
def rbSibling (m : Mem ι) (n : ι) : Except RbFault (Option ι) := do
  let p ← deref (m.parent n)
  if ← isLeftChild m n then
    return m.right p
  else
    return m.left p

/-- `replace`. -/
def replace (m : Mem ι) (old : ι) (new : Option ι) : Except RbFault (Mem ι) := do
  let p ← deref (m.parent old)
  let m := m.setChild (if ← isLeftChild m old then .left else .right) p new
  return m.adopt new (m.parent old)

/-- Rotating towards side `s`: the child of `parent` on the other side comes up. -/
def rotate (s : Side) (m : Mem ι) (parent : ι) : Except RbFault (Mem ι) := do
  let up := m.child s.flip parent
  let m ← replace m parent up
  let up ← deref up
  let m := m.setChild s.flip parent (m.child s up)
  let m := m.adopt (m.child s up) (some parent)
  let m := m.setChild s up (some parent)
  return m.setParent parent (some up)

/-- `rotate_left`. -/
def rotateLeft (m : Mem ι) (parent : ι) : Except RbFault (Mem ι) := rotate .left m parent

/-- `rotate_right`. -/
def rotateRight (m : Mem ι) (parent : ι) : Except RbFault (Mem ι) := rotate .right m parent

/-! ### Insertion -/

/-- Case 4 of `navi_rb_insert`; the result gives the node to go on with. -/
def insertCase4 (m : Mem ι) (new : ι) : Except RbFault (Mem ι × ι) := do
  let parent ← deref (m.parent new)
  if (← isRightChild m new) && (← isLeftChild m parent) then
    let m ← rotateLeft m parent
    return (m, ← deref (m.left new))
  else if (← isLeftChild m new) && (← isRightChild m parent) then
    let m ← rotateRight m parent
    return (m, ← deref (m.right new))
  else
    return (m, new)

/-- Case 5 of `navi_rb_insert`. -/
def insertCase5 (m : Mem ι) (new : ι) : Except RbFault (Mem ι) := do
  let parent ← deref (m.parent new)
  let m := m.setColor parent .rbBlack
  let grandparent ← deref (m.parent parent)
  let m := m.setColor grandparent .rbRed
  if (← isLeftChild m new) && (← isLeftChild m parent) then
    rotateRight m grandparent
  else
    rotateLeft m grandparent

/-- The loop of `navi_rb_insert`. -/
def insertLoop : ℕ → Mem ι → ι → Except RbFault (Mem ι)
  | 0, _, _ => .error .outOfFuel
  | fuel + 1, m, new => do
    -- case 1
    if ← isRoot m new then
      return m.setColor new .rbBlack
    -- case 2
    if isBlack m (m.parent new) then
      return m
    -- case 3
    let uncle ← rbUncle m new
    if uncle.isSome && isRed m uncle then
      let parent ← deref (m.parent new)
      let m := (m.setColor parent .rbBlack).setColor (← deref uncle) .rbBlack
      let grandparent ← deref (m.parent parent)
      insertLoop fuel (m.setColor grandparent .rbRed) grandparent
    else
      let (m, new) ← insertCase4 m new
      let m ← insertCase5 m new
      insertLoop fuel m new

/-- `navi_rb_insert`; the link is a child of a node, `parent_link = (node, side)`. -/
def naviRbInsert (fuel : ℕ) (m : Mem ι) (new parent : ι) (parentLink : ι × Side) :
    Except RbFault (Mem ι) :=
  let m := (m.setChild .left new none).setChild .right new none
  let m := (m.setColor new .rbRed).setParent new (some parent)
  insertLoop fuel (m.setChild parentLink.2 parentLink.1 (some new)) new

/-- `navi_rb_last`, below a node. -/
def naviRbLast : ℕ → Mem ι → ι → Except RbFault ι
  | 0, _, _ => .error .outOfFuel
  | fuel + 1, m, node =>
    match m.right node with
    | none => .ok node
    | some r => naviRbLast fuel m r

/-! ### Iteration -/

/-- The loop of `navi_rb_first`. -/
def rbFirstLoop : ℕ → Mem ι → ι → Except RbFault ι
  | 0, _, _ => .error .outOfFuel
  | fuel + 1, m, node =>
    match m.left node with
    | none => .ok node
    | some l => rbFirstLoop fuel m l

/-- `navi_rb_first`. -/
def naviRbFirst (fuel : ℕ) (m : Mem ι) (node : Option ι) : Except RbFault (Option ι) :=
  match node with
  | none => .ok none
  | some node => (rbFirstLoop fuel m node).map some

/-- The loop of `navi_rb_next`. -/
def rbNextLoop : ℕ → Mem ι → ι → Except RbFault ι
  | 0, _, _ => .error .outOfFuel
  | fuel + 1, m, node => do
    if ← isRightChild m node then rbNextLoop fuel m (← deref (m.parent node))
    else return node

/-- `navi_rb_next`. -/
def naviRbNext (fuel : ℕ) (m : Mem ι) (node : ι) : Except RbFault (Option ι) := do
  if (m.right node).isSome then naviRbFirst fuel m (m.right node)
  else
    let node ← rbNextLoop fuel m node
    if ← isRoot m node then return none
    else return m.parent node

/-- The loop of `rb_for_each`, from a node on: the nodes that it comes to. -/
def rbForEachLoop (fuel : ℕ) (m : Mem ι) : ℕ → Option ι → Except RbFault (List ι)
  | 0, _ => .error .outOfFuel
  | _ + 1, none => .ok []
  | k + 1, some n => do
    let rest ← rbForEachLoop fuel m k (← naviRbNext fuel m n)
    return n :: rest

/-- `rb_for_each`: the nodes of a tree that it comes to, in order. -/
def rbForEach (fuel : ℕ) (m : Mem ι) (tree : ι) : Except RbFault (List ι) := do
  rbForEachLoop fuel m fuel (← naviRbFirst fuel m (m.left tree))

/-! ### Removal -/

/-- The first half of `swap`: the children of `a` and `b`. -/
def swapChildren (m : Mem ι) (a b : ι) : Mem ι :=
  let left := m.left a
  let right := m.right a
  -- swap a children
  let m := m.setChild .left a (m.left b)
  let m := m.adopt (m.left b) (some a)
  let m := m.setChild .right a (m.right b)
  let m := m.adopt (m.right b) (some a)
  -- swap b children
  let m := m.setChild .left b left
  let m := m.adopt left (some b)
  let m := m.setChild .right b right
  m.adopt right (some b)

/-- Writing `b` for `a` in the parent of `a`. -/
def relinkParent (m : Mem ι) (a b : ι) : Except RbFault (Mem ι) := do
  let p ← deref (m.parent a)
  return m.setChild (if ← isLeftChild m a then .left else .right) p (some b)

/-- `swap`. -/
def swap (m : Mem ι) (a b : ι) : Except RbFault (Mem ι) := do
  let parent := m.parent a
  let color := m.color a
  let m := swapChildren m a b
  -- swap a parent
  let m ← relinkParent m a b
  let m := m.setParent a (m.parent b)
  -- swap b parent
  let m ← relinkParent m b a
  let m := m.setParent b parent
  -- swap colors
  let m := m.setColor a (m.color b)
  return m.setColor b color

/-- Case 2 of `navi_rb_remove`. -/
def removeCase2 (m : Mem ι) (n : ι) : Except RbFault (Mem ι) := do
  let sibling ← rbSibling m n
  if isRed m sibling then
    let parent ← deref (m.parent n)
    let m := (m.setColor parent .rbRed).setColor (← deref sibling) .rbBlack
    if ← isLeftChild m n then rotateLeft m parent else rotateRight m parent
  else
    return m

/-- Case 5 of `navi_rb_remove`. -/
def removeCase5 (m : Mem ι) (n sibling : ι) : Except RbFault (Mem ι) := do
  if (← isLeftChild m n) && isBlack m (some sibling) && isRed m (m.left sibling)
      && isBlack m (m.right sibling) then
    let m := m.setColor sibling .rbRed
    let m := m.setColor (← deref (m.left sibling)) .rbBlack
    rotateRight m sibling
  else if (← isRightChild m n) && isBlack m (some sibling) && isRed m (m.right sibling)
      && isBlack m (m.left sibling) then
    let m := m.setColor sibling .rbRed
    let m := m.setColor (← deref (m.right sibling)) .rbBlack
    rotateLeft m sibling
  else
    return m

/-- Case 6 of `navi_rb_remove`. -/
def removeCase6 (m : Mem ι) (n : ι) : Except RbFault (Mem ι) := do
  let sibling ← deref (← rbSibling m n)
  let parent ← deref (m.parent n)
  let m := m.setColor sibling (rbColor m (some parent))
  let m := m.setColor parent .rbBlack
  if ← isLeftChild m n then
    let m := m.setColor (← deref (m.right sibling)) .rbBlack
    rotateLeft m parent
  else
    let m := m.setColor (← deref (m.left sibling)) .rbBlack
    rotateRight m parent

/-- The loop of `navi_rb_remove`; the result gives the final value of `n`. -/
def removeLoop : ℕ → Mem ι → ι → Except RbFault (Mem ι × ι)
  | 0, _, _ => .error .outOfFuel
  | fuel + 1, m, n => do
    -- case 1
    if ← isRoot m n then
      return (m, n)
    -- case 2
    let m ← removeCase2 m n
    -- case 3
    match ← rbSibling m n with
    | none => return (m, n)
    | some sibling =>
      let parent ← deref (m.parent n)
      let allBlack := isBlack m (some sibling) && isBlack m (m.left sibling)
        && isBlack m (m.right sibling)
      if isBlack m (some parent) && allBlack then
        removeLoop fuel (m.setColor sibling .rbRed) parent
      -- case 4
      else if isRed m (some parent) && allBlack then
        return ((m.setColor sibling .rbRed).setColor parent .rbBlack, n)
      else do
        let m ← removeCase5 m n sibling
        let m ← removeCase6 m n
        return (m, n)

/-- The last lines of `navi_rb_remove`: `child` takes the place of `savedN` and is
painted black if `n` is the root. -/
def replaceRemoved (m : Mem ι) (savedN : ι) (child : Option ι) (n : ι) :
    Except RbFault (Mem ι) := do
  let m ← replace m savedN child
  match ← isRoot m n, child with
  | true, some c => return m.setColor c .rbBlack
  | _, _ => return m

/-- `navi_rb_remove`, for a node with at most one child. -/
def unlink (fuel : ℕ) (m : Mem ι) (n : ι) : Except RbFault (Mem ι) := do
  let savedN := n
  let child := if (m.right n).isSome then m.right n else m.left n
  let (m, n) ←
    if isBlack m (some n) then removeLoop fuel (m.setColor n (rbColor m child)) n
    else pure (m, n)
  replaceRemoved m savedN child n

/-- `navi_rb_remove`: a node with two children is first swapped with its predecessor. -/
def naviRbRemove (fuel : ℕ) (m : Mem ι) (n : ι) : Except RbFault (Mem ι) :=
  match m.left n, m.right n with
  | some l, some _ => do
    let m ← swap m n (← naviRbLast fuel m l)
    unlink fuel m n
  | _, _ => unlink fuel m n

end Source

/-! ### Ordered insertion -/

section Ordered

variable [LinearOrder ι]

/-- The loop of `slab_insert`: following links from `*p` down to an empty one. -/
def descend : ℕ → Mem ι → ι → ι → ι × Side → Except RbFault (ι × (ι × Side))
  | 0, _, _, _, _ => .error .outOfFuel
  | fuel + 1, m, slab, parent, p =>
    match m.child p.2 p.1 with
    | none => .ok (parent, p)
    | some ptr => descend fuel m slab ptr (ptr, if slab < ptr then .left else .right)

/-- `slab_insert`, on the tree whose dummy root is `tree`. -/
def slabInsert (fuel : ℕ) (tree : ι) (m : Mem ι) (slab : ι) : Except RbFault (Mem ι) := do
  let (parent, p) ← descend fuel m slab tree (tree, .left)
  naviRbInsert fuel m slab parent p

end Ordered

end NaviScheme
