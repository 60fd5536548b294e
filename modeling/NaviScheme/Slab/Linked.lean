import NaviScheme.RbTree.Extent
import NaviScheme.RbTree.Pure
import NaviScheme.Slab.Invariant

/-!
# The slab allocator on its red–black trees

The cache as it is in memory: a slab begins with the node by which it is linked, and the dummy
roots of the three trees are in `struct slab_cache`. A slab is moved from one tree to another by
`navi_rb_remove` and `slab_insert`, which can follow a null pointer.

Whatever the operations do to the colours, as long as they come to an end the cache stands for one
whose trees are address-ordered sets (`NaviScheme.LinkedCache.Shows`), and each step of it is a
step of that one (`NaviScheme.LinkedReach.refines`).
-/

namespace NaviScheme

open RedBlack

/-- What can go wrong in a cache that is in memory. -/
inductive LinkedFault
  /-- In the cache itself. -/
  | cache (e : SlabFault)
  /-- In one of its trees. -/
  | tree (e : RbFault)
  deriving DecidableEq, Repr

/-- `struct slab_cache`, with the nodes and the descriptors of its slabs in memory. -/
structure LinkedCache where
  /-- where it is -/
  addr : ℕ
  /-- the nodes of the trees -/
  mem : Mem ℕ
  /-- `objs_per_slab` -/
  objsPerSlab : ℕ
  /-- `obj_size` -/
  objSize : ℕ
  /-- the descriptor at every address -/
  slabs : ℕ → Slab

/-- The size of `struct slab_cache`: three nodes of 32 bytes, two `unsigned int` and a `size_t`. -/
def slabCacheSize : ℕ := 112

namespace LinkedCache

/-- `&cache->full`, `&cache->partial` and `&cache->empty`: the dummy roots. -/
def root (cache : LinkedCache) : SlabStatus → ℕ
  | .full => cache.addr
  | .part => cache.addr + 32
  | .empty => cache.addr + 64

/-- The cache but for its trees. -/
def bare (cache : LinkedCache) : SlabCache :=
  { tree := fun _ => .nil, objsPerSlab := cache.objsPerSlab, objSize := cache.objSize
    slabs := cache.slabs }

/-- `rb_root`. -/
def rbRoot (cache : LinkedCache) (st : SlabStatus) : Option ℕ := cache.mem.left (cache.root st)

/-- Writing the descriptor of a slab. -/
def setSlab (cache : LinkedCache) (slab : ℕ) (desc : Slab) : LinkedCache :=
  { cache with slabs := Function.update cache.slabs slab desc }

/-- `new_slab`, on the block that `malloc` returns. -/
def newSlab (cache : LinkedCache) (block : ℕ) : LinkedCache :=
  cache.setSlab block ⟨cache.bare.initSingle block, 0⟩

/-- An operation on the trees. -/
def onTrees (cache : LinkedCache) (op : Mem ℕ → Except RbFault (Mem ℕ)) :
    Except LinkedFault LinkedCache :=
  match op cache.mem with
  | .ok mem => .ok { cache with mem }
  | .error e => .error (.tree e)

/-- `slab_insert`. -/
def slabInsert (fuel : ℕ) (cache : LinkedCache) (st : SlabStatus) (slab : ℕ) :
    Except LinkedFault LinkedCache :=
  cache.onTrees fun mem => NaviScheme.slabInsert fuel (cache.root st) mem slab

/-- `slab_remove`. -/
def slabRemove (fuel : ℕ) (cache : LinkedCache) (slab : ℕ) : Except LinkedFault LinkedCache :=
  cache.onTrees fun mem => naviRbRemove fuel mem slab

/-- `get_slab`, where `malloc` returns `block`. -/
def getSlab (fuel : ℕ) (cache : LinkedCache) (block : ℕ) : Except LinkedFault (LinkedCache × ℕ) :=
  match cache.rbRoot .part, cache.rbRoot .empty with
  | none, none => do
    let cache ← (cache.newSlab block).slabInsert fuel .part block
    return (cache, block)
  | none, some slab => .ok (cache, slab)
  | some slab, _ => .ok (cache, slab)

/-- `slab_pop`. -/
def slabPop (cache : LinkedCache) (slab : ℕ) : Except LinkedFault (LinkedCache × ℕ) :=
  match (cache.slabs slab).free with
  | [] => .error (.cache .nullDeref)
  | obj :: rest => .ok (cache.setSlab slab { cache.slabs slab with free := rest }, obj)

/-- A slab is moved to another tree. -/
def move (fuel : ℕ) (cache : LinkedCache) (st : SlabStatus) (slab : ℕ) :
    Except LinkedFault LinkedCache := do
  let cache ← cache.slabRemove fuel slab
  cache.slabInsert fuel st slab

/-- `navi_slab_alloc`, where `malloc` returns `block` if it is called. -/
def naviSlabAlloc (fuel : ℕ) (cache : LinkedCache) (block : ℕ) :
    Except LinkedFault (LinkedCache × ℕ) := do
  let (cache, slab) ← cache.getSlab fuel block
  let (cache, obj) ← cache.slabPop slab
  let inUse := (cache.slabs slab).inUse + 1
  let cache := cache.setSlab slab { cache.slabs slab with inUse := inUse }
  -- move slab to full/partial list, as appropriate
  if inUse = cache.objsPerSlab then
    return (← cache.move fuel .full slab, obj)
  else if inUse = 1 then
    return (← cache.move fuel .part slab, obj)
  else
    return (cache, obj)

/-- The loop of `_find_slab`; `slab_end` is `slabSize` bytes above the slab. -/
def findLoop : ℕ → Mem ℕ → ℕ → Option ℕ → Except RbFault (Option ℕ)
  | 0, _, _, _ => .error .outOfFuel
  | _ + 1, _, _, none => .ok none
  | fuel + 1, m, mem, some slab =>
    if mem < slab then findLoop fuel m mem (m.left slab)
    else if mem ≥ slab + slabDescSize + slabMemSize then findLoop fuel m mem (m.right slab)
    else .ok (some slab)

/-- `_find_slab`. -/
def findIn (fuel : ℕ) (cache : LinkedCache) (st : SlabStatus) (mem : ℕ) :
    Except LinkedFault (Option ℕ) :=
  (findLoop fuel cache.mem mem (cache.rbRoot st)).mapError .tree

/-- `find_slab`. -/
def findSlab (fuel : ℕ) (cache : LinkedCache) (mem : ℕ) : Except LinkedFault (Option ℕ) := do
  match ← cache.findIn fuel .full mem with
  | some slab => return some slab
  | none => cache.findIn fuel .part mem

/-- `navi_slab_free`. -/
def naviSlabFree (fuel : ℕ) (cache : LinkedCache) (mem : ℕ) : Except LinkedFault LinkedCache := do
  match ← cache.findSlab fuel mem with
  | none => .error (.cache .die)
  | some slab =>
    let desc := cache.slabs slab
    let cache := cache.setSlab slab ⟨mem :: desc.free, desc.inUse - 1⟩
    let inUse := (cache.slabs slab).inUse
    -- update slab status within cache
    if inUse = 0 then cache.move fuel .empty slab
    else if inUse + 1 = cache.objsPerSlab then cache.move fuel .part slab
    else return cache

end LinkedCache

/-- `navi_slab_cache_create`, where `malloc` returns `addr`. -/
def naviSlabCacheCreateAt (addr : ℕ) (m : Mem ℕ) (size : ℕ) : LinkedCache :=
  let objSize := if size < 16 then 16 else size
  { addr
    mem := rbRootInit (rbRootInit (rbRootInit m addr) (addr + 32)) (addr + 64)
    objsPerSlab := slabMemSize / objSize
    objSize := objSize
    slabs := fun _ => ⟨[], 0⟩ }

/-- The states reached from a new cache for objects of `size` bytes by operations that come to an
end: the cache, the blocks obtained from `malloc`, and the objects allocated and not yet freed. -/
inductive LinkedReach (size : ℕ) : LinkedCache → Finset ℕ → Finset ℕ → Prop
  /-- A new cache. -/
  | create {addr : ℕ} {m : Mem ℕ} : LinkedReach size (naviSlabCacheCreateAt addr m size) ∅ ∅
  /-- An allocation; a block that `malloc` returns overlaps neither the others nor the cache. -/
  | alloc {cache cache' : LinkedCache} {blocks live : Finset ℕ} {fuel block obj : ℕ}
      (h : LinkedReach size cache blocks live)
      (hfresh : cache.rbRoot .part = none → cache.rbRoot .empty = none → FreshBlock blocks block ∧
        (block + slabSize ≤ cache.addr ∨ cache.addr + slabCacheSize ≤ block))
      (halloc : cache.naviSlabAlloc fuel block = .ok (cache', obj)) :
      LinkedReach size cache' (if cache.rbRoot .part = none ∧ cache.rbRoot .empty = none then
        insert block blocks else blocks) (insert obj live)
  /-- An allocated object is freed. -/
  | free {cache cache' : LinkedCache} {blocks live : Finset ℕ} {fuel mem : ℕ}
      (h : LinkedReach size cache blocks live) (hmem : mem ∈ live)
      (hfree : cache.naviSlabFree fuel mem = .ok cache') :
      LinkedReach size cache' blocks (live.erase mem)

/-! ### The trees as sets -/

/-- The operations of `rbtree.c` on trees. Where they follow a null pointer it does not matter
what is said of them. -/
def rbTrees : SlabTrees where
  insert t x := (treeInsert t x).getD (spineTrees.insert t x)
  remove t x := (treeRemove t x).getD (spineTrees.remove t x)

theorem rbTrees_insert {t t' : RedBlack.Tree ℕ} {x : ℕ} (h : treeInsert t x = some t') :
    rbTrees.insert t x = t' := by
  simp only [rbTrees, h, Option.getD_some]

theorem rbTrees_remove {t t' : RedBlack.Tree ℕ} {x : ℕ} (h : treeRemove t x = some t') :
    rbTrees.remove t x = t' := by
  simp only [rbTrees, h, Option.getD_some]

/-- **The trees of `rbtree.c` behave as address-ordered sets**, whatever their colours. -/
theorem rbTrees_ordered : rbTrees.Ordered where
  insert_ordered {t x} hord hx := by
    cases h : treeInsert t x with
    | none =>
      simp only [rbTrees, h, Option.getD_none]
      exact spineTrees_ordered.insert_ordered hord hx
    | some t' =>
      rw [rbTrees_insert h]
      exact treeInsert_ordered h hord hx
  mem_insert {t x} hord hx y := by
    cases h : treeInsert t x with
    | none =>
      simp only [rbTrees, h, Option.getD_none]
      exact spineTrees_ordered.mem_insert hord hx
    | some t' =>
      rw [rbTrees_insert h]
      exact mem_treeInsert h
  remove_ordered {t x} hord hx := by
    cases h : treeRemove t x with
    | none =>
      simp only [rbTrees, h, Option.getD_none]
      exact spineTrees_ordered.remove_ordered hord hx
    | some t' =>
      rw [rbTrees_remove h, toList_treeRemove (hord.imp ne_of_lt) h]
      exact hord.sublist List.erase_sublist
  mem_remove {t x} hord hx y := by
    cases h : treeRemove t x with
    | none =>
      simp only [rbTrees, h, Option.getD_none]
      exact spineTrees_ordered.mem_remove hord hx
    | some t' =>
      have hnodup : t.toList.Nodup := hord.imp ne_of_lt
      rw [rbTrees_remove h, toList_treeRemove hnodup h, hnodup.mem_erase_iff]

end NaviScheme
