import Mathlib.Data.Finset.Basic
import Mathlib.Data.List.Sort
import NaviScheme.Lib.Except
import NaviScheme.Lib.RedBlack

/-!
# The slab allocator

`slab.c`: caches of fixed-size objects, carved out of blocks of `NaviScheme.slabSize`
bytes. A slab is identified with the address of its block, and its list of free
objects, linked through the objects themselves, is a list of addresses. The three
trees of a cache are trees of such addresses. How they are rebalanced does not matter
here: insertion and removal are parameters (`NaviScheme.SlabTrees`), of which the
results assume that they keep the addresses in order (`NaviScheme.SlabTrees.Ordered`).

The flag `NAVI_SLAB_DOUBLY_LINKED` of `slab.h` is `0`, so that no cache ever takes the
branches for doubly linked lists.
-/

namespace NaviScheme

open RedBlack

/-- `SLAB_SIZE`. -/
def slabSize : ℕ := 4096

/-- `SLAB_DESC_SIZE`: the tree node (32 bytes), the head of the free list (8), `in_use` (4),
and padding to the alignment of `mem`. -/
def slabDescSize : ℕ := 48

/-- `SLAB_MEM_SIZE`. -/
def slabMemSize : ℕ := slabSize - slabDescSize

/-- The descriptor of a slab: `struct slab` without its tree node. -/
structure Slab where
  /-- `free` -/
  free : List ℕ
  /-- `in_use` -/
  inUse : ℕ

/-- The three trees of a cache. -/
inductive SlabStatus
  /-- `full` -/
  | full
  /-- `partial` -/
  | part
  /-- `empty` -/
  | empty
  deriving DecidableEq, Repr

/-- `struct slab_cache`, with the descriptors of its slabs in memory. -/
structure SlabCache where
  /-- `full`, `partial` and `empty` -/
  tree : SlabStatus → RedBlack.Tree ℕ
  /-- `objs_per_slab` -/
  objsPerSlab : ℕ
  /-- `obj_size` -/
  objSize : ℕ
  /-- the descriptor at every address -/
  slabs : ℕ → Slab

/-- Insertion into and removal from a tree. -/
structure SlabTrees where
  /-- `slab_insert` on one tree -/
  insert : RedBlack.Tree ℕ → ℕ → RedBlack.Tree ℕ
  /-- `slab_remove` on the tree that holds the slab -/
  remove : RedBlack.Tree ℕ → ℕ → RedBlack.Tree ℕ

/-- **The trees behave as address-ordered sets.** -/
structure SlabTrees.Ordered (T : SlabTrees) : Prop where
  insert_ordered : ∀ {t x}, t.toList.Pairwise (· < ·) → x ∉ t.toList →
    (T.insert t x).toList.Pairwise (· < ·)
  mem_insert : ∀ {t x}, t.toList.Pairwise (· < ·) → x ∉ t.toList →
    ∀ {y}, y ∈ (T.insert t x).toList ↔ y = x ∨ y ∈ t.toList
  remove_ordered : ∀ {t x}, t.toList.Pairwise (· < ·) → x ∈ t.toList →
    (T.remove t x).toList.Pairwise (· < ·)
  mem_remove : ∀ {t x}, t.toList.Pairwise (· < ·) → x ∈ t.toList →
    ∀ {y}, y ∈ (T.remove t x).toList ↔ y ≠ x ∧ y ∈ t.toList

/-- What can go wrong in the allocator. -/
inductive SlabFault
  /-- A null pointer is followed. -/
  | nullDeref
  /-- `navi_die` -/
  | die
  deriving DecidableEq, Repr

/-- `navi_slab_cache_create`. -/
def naviSlabCacheCreate (size : ℕ) : SlabCache :=
  let objSize := if size < 16 then 16 else size
  { tree := fun _ => .nil
    objsPerSlab := slabMemSize / objSize
    objSize := objSize
    slabs := fun _ => ⟨[], 0⟩ }

namespace SlabCache

/-- `get_object`. -/
def getObject (cache : SlabCache) (slab i : ℕ) : ℕ := slab + slabDescSize + cache.objSize * i

/-- Writing the descriptor of a slab. -/
def setSlab (cache : SlabCache) (slab : ℕ) (desc : Slab) : SlabCache :=
  { cache with slabs := Function.update cache.slabs slab desc }

/-- Writing one of the trees. -/
def setTree (cache : SlabCache) (st : SlabStatus) (t : RedBlack.Tree ℕ) : SlabCache :=
  { cache with tree := Function.update cache.tree st t }

/-- `init_single`: every object is put at the head of the free list. -/
def initSingle (cache : SlabCache) (slab : ℕ) : List ℕ :=
  (List.range cache.objsPerSlab).foldl (fun free i => cache.getObject slab i :: free) []

/-- `new_slab`, on the block that `malloc` returns. -/
def newSlab (cache : SlabCache) (block : ℕ) : SlabCache :=
  cache.setSlab block ⟨cache.initSingle block, 0⟩

variable (T : SlabTrees)

/-- `slab_insert`. -/
def slabInsert (cache : SlabCache) (st : SlabStatus) (slab : ℕ) : SlabCache :=
  cache.setTree st (T.insert (cache.tree st) slab)

/-- `slab_remove`: the slab is unlinked from the tree that holds it. -/
def slabRemove (cache : SlabCache) (slab : ℕ) : SlabCache :=
  { cache with tree := fun st =>
      if slab ∈ (cache.tree st).toList then T.remove (cache.tree st) slab else cache.tree st }

/-- `get_slab`, where `malloc` returns `block`. -/
def getSlab (cache : SlabCache) (block : ℕ) : SlabCache × ℕ :=
  match (cache.tree .part).root?, (cache.tree .empty).root? with
  | none, none => ((cache.newSlab block).slabInsert T .part block, block)
  | none, some slab => (cache, slab)
  | some slab, _ => (cache, slab)

/-- `slab_pop`. -/
def slabPop (cache : SlabCache) (slab : ℕ) : Except SlabFault (SlabCache × ℕ) :=
  match (cache.slabs slab).free with
  | [] => .error .nullDeref
  | obj :: rest => .ok (cache.setSlab slab { cache.slabs slab with free := rest }, obj)

/-- `navi_slab_alloc`, where `malloc` returns `block` if it is called. -/
def naviSlabAlloc (cache : SlabCache) (block : ℕ) : Except SlabFault (SlabCache × ℕ) := do
  let (cache, slab) := cache.getSlab T block
  let (cache, obj) ← cache.slabPop slab
  let inUse := (cache.slabs slab).inUse + 1
  let cache := cache.setSlab slab { cache.slabs slab with inUse := inUse }
  -- move slab to full/partial list, as appropriate
  if inUse = cache.objsPerSlab then
    return ((cache.slabRemove T slab).slabInsert T .full slab, obj)
  else if inUse = 1 then
    return ((cache.slabRemove T slab).slabInsert T .part slab, obj)
  else
    return (cache, obj)

/-- `_find_slab`; `slab_end` is `slabSize` bytes above the slab. -/
def findIn (mem : ℕ) : RedBlack.Tree ℕ → Option ℕ
  | .nil => none
  | .node _ l slab r =>
    if mem < slab then findIn mem l
    else if mem ≥ slab + slabDescSize + slabMemSize then findIn mem r
    else some slab

/-- `find_slab`. -/
def findSlab (cache : SlabCache) (mem : ℕ) : Option ℕ :=
  match findIn mem (cache.tree .full) with
  | some slab => some slab
  | none => findIn mem (cache.tree .part)

/-- `navi_slab_free`. -/
def naviSlabFree (cache : SlabCache) (mem : ℕ) : Except SlabFault SlabCache :=
  match cache.findSlab mem with
  | none => .error .die
  | some slab =>
    let desc := cache.slabs slab
    let cache := cache.setSlab slab ⟨mem :: desc.free, desc.inUse - 1⟩
    let inUse := (cache.slabs slab).inUse
    -- update slab status within cache
    if inUse = 0 then .ok ((cache.slabRemove T slab).slabInsert T .empty slab)
    else if inUse + 1 = cache.objsPerSlab then
      .ok ((cache.slabRemove T slab).slabInsert T .part slab)
    else .ok cache

end SlabCache

/-! ### Runs -/

/-- A block that `malloc` may return: it overlaps none of the blocks in use. -/
def FreshBlock (blocks : Finset ℕ) (block : ℕ) : Prop :=
  ∀ slab ∈ blocks, block + slabSize ≤ slab ∨ slab + slabSize ≤ block

/-- Whether `get_slab` will call `malloc`. -/
def SlabCache.NeedsBlock (cache : SlabCache) : Prop :=
  (cache.tree .part).root? = none ∧ (cache.tree .empty).root? = none

instance (cache : SlabCache) : Decidable cache.NeedsBlock :=
  inferInstanceAs (Decidable (_ ∧ _))

/-- The blocks in use after an allocation. -/
def SlabCache.blocksAfter (cache : SlabCache) (blocks : Finset ℕ) (block : ℕ) : Finset ℕ :=
  if cache.NeedsBlock then insert block blocks else blocks

/-- The states reached from a new cache for objects of `size` bytes: the cache, the blocks
obtained from `malloc`, and the objects allocated and not yet freed. -/
inductive SlabReach (T : SlabTrees) (size : ℕ) : SlabCache → Finset ℕ → Finset ℕ → Prop
  /-- A new cache. -/
  | create : SlabReach T size (naviSlabCacheCreate size) ∅ ∅
  /-- An allocation. -/
  | alloc {cache cache' : SlabCache} {blocks live : Finset ℕ} {block obj : ℕ}
      (h : SlabReach T size cache blocks live) (hfresh : cache.NeedsBlock → FreshBlock blocks block)
      (halloc : cache.naviSlabAlloc T block = .ok (cache', obj)) :
      SlabReach T size cache' (cache.blocksAfter blocks block) (insert obj live)
  /-- An allocated object is freed. -/
  | free {cache cache' : SlabCache} {blocks live : Finset ℕ} {mem : ℕ}
      (h : SlabReach T size cache blocks live) (hmem : mem ∈ live)
      (hfree : cache.naviSlabFree T mem = .ok cache') :
      SlabReach T size cache' blocks (live.erase mem)

end NaviScheme
