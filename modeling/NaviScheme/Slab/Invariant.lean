import NaviScheme.Slab.Cache

/-!
# The slab allocator is correct

The invariant `NaviScheme.SlabCache.Valid` ties the three trees, the free lists and the
counters of a cache to the blocks it got from `malloc` and the objects it gave out. Every
slab is in the tree that its counter dictates (`NaviScheme.SlabCache.dictated`); its free
list holds distinct objects of its own, and those it does not hold are the allocated ones.

An allocation and the freeing of an allocated object succeed in a valid cache and keep it
valid (`NaviScheme.SlabCache.Valid.alloc`, `NaviScheme.SlabCache.Valid.free`), so that all
states reached are valid (`NaviScheme.SlabReach.valid`).
-/

namespace NaviScheme

open RedBlack

theorem FreshBlock.not_mem {blocks : Finset ℕ} {block : ℕ} (h : FreshBlock blocks block) :
    block ∉ blocks := fun hb => by
  have hself := h block hb
  simp only [slabSize] at hself
  omega

namespace SlabCache

variable {T : SlabTrees} {cache : SlabCache} {blocks live : Finset ℕ} {slab s obj block : ℕ}
  {st st' : SlabStatus}

/-- The objects of a slab. -/
def objects (cache : SlabCache) (slab : ℕ) : List ℕ :=
  (List.range cache.objsPerSlab).map (cache.getObject slab)

/-- The tree that a slab with `u` objects in use belongs to. -/
def dictated (cache : SlabCache) (u : ℕ) : SlabStatus :=
  if u = cache.objsPerSlab then .full else if u = 0 then .empty else .part

/-- The blocks are carved into objects: the free list of a slab and the allocated objects
share out the objects of the slab. -/
structure Carved (cache : SlabCache) (blocks live : Finset ℕ) : Prop where
  objSize_pos : 0 < cache.objSize
  fits : cache.objsPerSlab * cache.objSize ≤ slabMemSize
  apart : ∀ {s}, s ∈ blocks → ∀ {s'}, s' ∈ blocks → s ≠ s' →
    s + slabSize ≤ s' ∨ s' + slabSize ≤ s
  nodup : ∀ {s}, s ∈ blocks → (cache.slabs s).free.Nodup
  sub : ∀ {s}, s ∈ blocks → ∀ {o}, o ∈ (cache.slabs s).free → o ∈ cache.objects s
  count : ∀ {s}, s ∈ blocks → (cache.slabs s).inUse + (cache.slabs s).free.length =
    cache.objsPerSlab
  used : ∀ {s}, s ∈ blocks → ∀ {o}, o ∈ cache.objects s →
    (o ∈ live ↔ o ∉ (cache.slabs s).free)
  owned : ∀ {o}, o ∈ live → ∃ s ∈ blocks, o ∈ cache.objects s

/-- **The invariant of a cache**: the blocks are carved up, and every slab is in the tree
that its counter dictates. -/
structure Valid (cache : SlabCache) (blocks live : Finset ℕ) : Prop
    extends Carved cache blocks live where
  ordered : ∀ st, (cache.tree st).toList.Pairwise (· < ·)
  status : ∀ {st s}, s ∈ (cache.tree st).toList ↔
    s ∈ blocks ∧ cache.dictated (cache.slabs s).inUse = st

/-! ### Objects and their slabs -/

/-- An object lies inside the memory area of its slab. -/
theorem Carved.object_bounds (h : cache.Carved blocks live) (ho : obj ∈ cache.objects slab) :
    slab + slabDescSize ≤ obj ∧ obj + cache.objSize ≤ slab + slabSize := by
  obtain ⟨i, hi, rfl⟩ := List.mem_map.mp ho
  have hlt := List.mem_range.mp hi
  have hmul : cache.objSize * (i + 1) ≤ cache.objsPerSlab * cache.objSize := by
    rw [Nat.mul_comm]
    exact Nat.mul_le_mul_right _ hlt
  have hfits := hmul.trans h.fits
  rw [Nat.mul_add, Nat.mul_one] at hfits
  simp only [getObject, slabMemSize, slabSize, slabDescSize] at hfits ⊢
  omega

/-- Two objects of one slab are the same or do not overlap. -/
theorem objects_apart {o o' : ℕ} (ho : o ∈ cache.objects slab) (ho' : o' ∈ cache.objects slab)
    (hne : o ≠ o') : o + cache.objSize ≤ o' ∨ o' + cache.objSize ≤ o := by
  obtain ⟨i, -, rfl⟩ := List.mem_map.mp ho
  obtain ⟨j, -, rfl⟩ := List.mem_map.mp ho'
  have hij : i ≠ j := fun hij => hne (by rw [hij])
  simp only [getObject]
  rcases Nat.lt_or_gt_of_ne hij with hlt | hlt
  · have hle := Nat.mul_le_mul_left cache.objSize (Nat.succ_le_of_lt hlt)
    rw [Nat.mul_succ] at hle
    omega
  · have hle := Nat.mul_le_mul_left cache.objSize (Nat.succ_le_of_lt hlt)
    rw [Nat.mul_succ] at hle
    omega

theorem objects_nodup (h : 0 < cache.objSize) (slab : ℕ) : (cache.objects slab).Nodup := by
  refine List.Nodup.map (fun i j hij => ?_) List.nodup_range
  simp only [getObject] at hij
  exact Nat.eq_of_mul_eq_mul_left h (by omega)

/-- An object belongs to one slab only. -/
theorem Carved.slab_unique (h : cache.Carved blocks live) {o : ℕ} (hs : s ∈ blocks)
    (hslab : slab ∈ blocks) (ho : o ∈ cache.objects s) (ho' : o ∈ cache.objects slab) :
    s = slab := by
  by_contra hne
  have hb := h.object_bounds ho
  have hb' := h.object_bounds ho'
  have hpos := h.objSize_pos
  rcases h.apart hs hslab hne with hlt | hlt <;> omega

/-- Allocated objects of a slab count as in use. -/
theorem Carved.inUse_pos (h : cache.Carved blocks live) (hs : slab ∈ blocks) (ho : obj ∈ live)
    (hobj : obj ∈ cache.objects slab) : 0 < (cache.slabs slab).inUse := by
  have hfree : obj ∉ (cache.slabs slab).free := (h.used hs hobj).mp ho
  have hsub : (obj :: (cache.slabs slab).free).Subperm (cache.objects slab) := by
    refine (List.nodup_cons.mpr ⟨hfree, h.nodup hs⟩).subperm fun o ho => ?_
    rcases List.mem_cons.mp ho with rfl | ho
    · exact hobj
    · exact h.sub hs ho
  have hlen := hsub.length_le
  have hcount := h.count hs
  simp only [objects, List.length_cons, List.length_map, List.length_range] at hlen
  omega

/-! ### Moving a slab between the trees -/

theorem mem_slabRemove (hT : T.Ordered) (hord : ∀ st, (cache.tree st).toList.Pairwise (· < ·))
    (slab : ℕ) (st : SlabStatus) :
    ((cache.slabRemove T slab).tree st).toList.Pairwise (· < ·) ∧
      ∀ {s}, s ∈ ((cache.slabRemove T slab).tree st).toList ↔
        s ≠ slab ∧ s ∈ (cache.tree st).toList := by
  simp only [slabRemove]
  split
  · rename_i hmem
    exact ⟨hT.remove_ordered (hord st) hmem, hT.mem_remove (hord st) hmem⟩
  · rename_i hmem
    exact ⟨hord st, fun {s} => ⟨fun hs => ⟨fun hss => hmem (hss ▸ hs), hs⟩, And.right⟩⟩

/-- Moving a slab to one of the trees takes it out of the others. -/
theorem mem_move (hT : T.Ordered) (hord : ∀ st, (cache.tree st).toList.Pairwise (· < ·))
    (slab : ℕ) (st st' : SlabStatus) :
    (((cache.slabRemove T slab).slabInsert T st slab).tree st').toList.Pairwise (· < ·) ∧
      ∀ {s}, s ∈ (((cache.slabRemove T slab).slabInsert T st slab).tree st').toList ↔
        if s = slab then st = st' else s ∈ (cache.tree st').toList := by
  obtain ⟨hord', hmem'⟩ := mem_slabRemove hT hord slab st'
  rcases eq_or_ne st' st with rfl | hne
  · have hnot : slab ∉ ((cache.slabRemove T slab).tree st').toList := fun hs => (hmem'.mp hs).1 rfl
    simp only [slabInsert, setTree, Function.update_self]
    refine ⟨hT.insert_ordered hord' hnot, fun {s} => ?_⟩
    rw [hT.mem_insert hord' hnot, hmem']
    by_cases hs : s = slab <;> simp [hs]
  · simp only [slabInsert, setTree, Function.update_of_ne hne]
    refine ⟨hord', fun {s} => ?_⟩
    rw [hmem']
    by_cases hs : s = slab <;> simp [hs, Ne.symm hne]

theorem Carved.congr {cache' : SlabCache} (h : cache.Carved blocks live)
    (hslabs : cache'.slabs = cache.slabs) (hn : cache'.objsPerSlab = cache.objsPerSlab)
    (hsize : cache'.objSize = cache.objSize) : cache'.Carved blocks live := by
  have hobj : ∀ s, cache'.objects s = cache.objects s := fun s => by
    simp only [objects, hn]
    refine List.map_congr_left fun i _ => ?_
    simp only [getObject, hsize]
  exact
    { objSize_pos := by rw [hsize]; exact h.objSize_pos
      fits := by rw [hsize, hn]; exact h.fits
      apart := h.apart
      nodup := by rw [hslabs]; exact h.nodup
      sub := by simp only [hslabs, hobj]; exact h.sub
      count := by simp only [hslabs, hn]; exact h.count
      used := by simp only [hslabs, hobj]; exact h.used
      owned := by simp only [hobj]; exact h.owned }

/-- Moving a slab to the tree that its counter dictates makes a cache valid. -/
theorem Valid.of_move (hT : T.Ordered) (h : cache.Carved blocks live)
    (hord : ∀ st, (cache.tree st).toList.Pairwise (· < ·)) (hslab : slab ∈ blocks)
    (hother : ∀ {st s}, s ≠ slab → (s ∈ (cache.tree st).toList ↔
      s ∈ blocks ∧ cache.dictated (cache.slabs s).inUse = st))
    (hst : cache.dictated (cache.slabs slab).inUse = st) :
    ((cache.slabRemove T slab).slabInsert T st slab).Valid blocks live where
  toCarved := h.congr rfl rfl rfl
  ordered st' := (mem_move hT hord slab st st').1
  status {st'} {s} := by
    rw [(mem_move hT hord slab st st').2]
    split
    · rename_i hs
      subst hs hst
      exact ⟨fun heq => ⟨hslab, heq⟩, And.right⟩
    · exact hother ‹_›

/-! ### Allocation -/

theorem initSingle_eq (cache : SlabCache) (slab : ℕ) :
    cache.initSingle slab = (cache.objects slab).reverse := by
  have hfold : ∀ (is : List ℕ) (free : List ℕ),
      is.foldl (fun free i => cache.getObject slab i :: free) free =
        (is.map (cache.getObject slab)).reverse ++ free := by
    intro is
    induction is with
    | nil => exact fun _ => rfl
    | cons i is ih => exact fun free => by simp [ih]
  rw [initSingle, hfold, List.append_nil, objects]

/-- A new slab on a fresh block keeps the blocks carved up. -/
theorem Carved.newSlab (h : cache.Carved blocks live) (hfresh : FreshBlock blocks block) :
    (cache.newSlab block).Carved (insert block blocks) live := by
  have hne : ∀ {s}, s ∈ blocks → s ≠ block := fun hs hsb => hfresh.not_mem (hsb ▸ hs)
  have hobj : ∀ s, (cache.newSlab block).objects s = cache.objects s := fun s => rfl
  have hself : (cache.newSlab block).slabs block = ⟨(cache.objects block).reverse, 0⟩ := by
    simp [SlabCache.newSlab, setSlab, initSingle_eq]
  have hother : ∀ {s}, s ∈ blocks → (cache.newSlab block).slabs s = cache.slabs s := fun hs => by
    simp [SlabCache.newSlab, setSlab, Function.update_of_ne (hne hs)]
  have hbounds : ∀ {s o}, o ∈ cache.objects s →
      s + slabDescSize ≤ o ∧ o + cache.objSize ≤ s + slabSize := h.object_bounds
  refine ⟨h.objSize_pos, h.fits, ?_, ?_, ?_, ?_, ?_, ?_⟩
  · intro s hs s' hs' hss
    rcases Finset.mem_insert.mp hs with rfl | hs <;> rcases Finset.mem_insert.mp hs' with rfl | hs'
    · exact absurd rfl hss
    · exact hfresh s' hs'
    · exact (hfresh s ‹_›).symm
    · exact h.apart hs hs' hss
  · intro s hs
    rcases Finset.mem_insert.mp hs with rfl | hs
    · rw [hself]
      exact List.nodup_reverse.mpr (objects_nodup h.objSize_pos _)
    · rw [hother hs]
      exact h.nodup hs
  · intro s hs o
    rcases Finset.mem_insert.mp hs with rfl | hs
    · rw [hself]
      exact List.mem_reverse.mp
    · rw [hother hs]
      exact h.sub hs
  · intro s hs
    rcases Finset.mem_insert.mp hs with rfl | hs
    · rw [hself]
      simp [objects, SlabCache.newSlab, setSlab]
    · rw [hother hs]
      exact h.count hs
  · intro s hs o ho
    rcases Finset.mem_insert.mp hs with rfl | hs
    · rw [hself]
      refine iff_of_false (fun hlive => ?_) (fun hfree => hfree (List.mem_reverse.mpr ho))
      obtain ⟨s', hs', ho'⟩ := h.owned hlive
      have hb := hbounds ho
      have hb' := hbounds ho'
      have hpos := h.objSize_pos
      rcases hfresh s' hs' with hlt | hlt <;> simp only [slabSize] at * <;> omega
    · rw [hother hs]
      exact h.used hs ho
  · intro o ho
    obtain ⟨s, hs, ho⟩ := h.owned ho
    exact ⟨s, Finset.mem_insert_of_mem hs, ho⟩

/-- What `get_slab` finds: a slab with a free object. The slabs are in the trees that their
counters dictate, but for that one if it is empty. -/
structure Found (cache : SlabCache) (blocks live : Finset ℕ) (slab : ℕ) : Prop
    extends Carved cache blocks live where
  mem : slab ∈ blocks
  ordered : ∀ st, (cache.tree st).toList.Pairwise (· < ·)
  room : (cache.slabs slab).inUse < cache.objsPerSlab
  status : ∀ {st s}, (s = slab → (cache.slabs slab).inUse ≠ 0) →
    (s ∈ (cache.tree st).toList ↔ s ∈ blocks ∧ cache.dictated (cache.slabs s).inUse = st)

theorem Valid.found (h : cache.Valid blocks live) (hst : slab ∈ (cache.tree st).toList)
    (hfull : st ≠ .full) : cache.Found blocks live slab where
  toCarved := h.toCarved
  mem := (h.status.mp hst).1
  ordered := h.ordered
  room := by
    obtain ⟨hmem, hdict⟩ := h.status.mp hst
    have hcount := h.count hmem
    have hne : (cache.slabs slab).inUse ≠ cache.objsPerSlab := fun heq => by
      rw [dictated, if_pos heq] at hdict
      exact hfull hdict.symm
    omega
  status _ := h.status

/-- A new slab goes to the tree of partially used slabs at first. -/
theorem Valid.found_new (hT : T.Ordered) (hn : 0 < cache.objsPerSlab)
    (h : cache.Valid blocks live) (hfresh : FreshBlock blocks block) :
    ((cache.newSlab block).slabInsert T .part block).Found (insert block blocks) live block := by
  have hblock := hfresh.not_mem
  have hnot : block ∉ (cache.tree .part).toList := fun hs => hblock (h.status.mp hs).1
  have hself : ((cache.newSlab block).slabs block).inUse = 0 := by
    simp [SlabCache.newSlab, setSlab]
  refine ⟨(h.toCarved.newSlab hfresh).congr rfl rfl rfl, Finset.mem_insert_self _ _,
    fun st => ?_, hself.trans_lt hn, fun {st s} hs => ?_⟩
  · rcases eq_or_ne st .part with rfl | hne
    · simp only [slabInsert, setTree, Function.update_self]
      exact hT.insert_ordered (h.ordered .part) hnot
    · simp only [slabInsert, setTree, Function.update_of_ne hne]
      exact h.ordered st
  · have hsb : s ≠ block := fun hsb => hs hsb hself
    have hslab : (cache.newSlab block).slabs s = cache.slabs s := by
      simp [SlabCache.newSlab, setSlab, Function.update_of_ne hsb]
    have hold : s ∈ (((cache.newSlab block).slabInsert T .part block).tree st).toList ↔
        s ∈ (cache.tree st).toList := by
      rcases eq_or_ne st .part with rfl | hne
      · simp only [slabInsert, setTree, Function.update_self]
        exact (hT.mem_insert (h.ordered .part) hnot).trans (or_iff_right hsb)
      · simp only [slabInsert, setTree, Function.update_of_ne hne]
        exact Iff.rfl
    rw [hold, h.status, Finset.mem_insert, or_iff_right hsb]
    simp only [slabInsert, setTree, hslab]
    exact Iff.rfl

/-- **`get_slab` finds a slab with a free object.** -/
theorem getSlab_spec (hT : T.Ordered) (hn : 0 < cache.objsPerSlab) (h : cache.Valid blocks live)
    (hfresh : cache.NeedsBlock → FreshBlock blocks block) :
    ∃ cache' slab, cache.getSlab T block = (cache', slab) ∧
      cache'.Found (cache.blocksAfter blocks block) live slab := by
  cases hpart : (cache.tree .part).root? with
  | some slab =>
    refine ⟨cache, slab, by simp [getSlab, hpart], ?_⟩
    rw [blocksAfter, if_neg fun hneed => by simpa [hpart] using hneed.1]
    exact h.found (RedBlack.Tree.root?_mem hpart) (by simp)
  | none =>
    cases hempty : (cache.tree .empty).root? with
    | some slab =>
      refine ⟨cache, slab, by simp [getSlab, hpart, hempty], ?_⟩
      rw [blocksAfter, if_neg fun hneed => by simpa [hempty] using hneed.2]
      exact h.found (RedBlack.Tree.root?_mem hempty) (by simp)
    | none =>
      have hget : cache.getSlab T block = ((cache.newSlab block).slabInsert T .part block, block) := by
        simp only [getSlab, hpart, hempty]
      refine ⟨_, block, hget, ?_⟩
      rw [blocksAfter, if_pos ⟨hpart, hempty⟩]
      exact h.found_new hT hn (hfresh ⟨hpart, hempty⟩)

/-- Taking the first free object of a slab keeps the blocks carved up. -/
theorem Carved.pop {rest : List ℕ} (h : cache.Carved blocks live) (hslab : slab ∈ blocks)
    (hfree : (cache.slabs slab).free = obj :: rest) :
    (cache.setSlab slab ⟨rest, (cache.slabs slab).inUse + 1⟩).Carved blocks (insert obj live) ∧
      obj ∈ cache.objects slab ∧ obj ∉ live := by
  have hobj : obj ∈ cache.objects slab := h.sub hslab (by simp [hfree])
  have hnodup := h.nodup hslab
  rw [hfree, List.nodup_cons] at hnodup
  have hself : (cache.setSlab slab ⟨rest, (cache.slabs slab).inUse + 1⟩).slabs slab =
      ⟨rest, (cache.slabs slab).inUse + 1⟩ := by simp [setSlab]
  have hother : ∀ {s}, s ≠ slab →
      (cache.setSlab slab ⟨rest, (cache.slabs slab).inUse + 1⟩).slabs s = cache.slabs s :=
    fun hs => by simp [setSlab, Function.update_of_ne hs]
  have hlive : obj ∉ live := fun hl => (h.used hslab hobj).mp hl (by simp [hfree])
  refine ⟨⟨h.objSize_pos, h.fits, h.apart, fun {s} hs => ?_, fun {s} hs o ho => ?_,
    fun {s} hs => ?_, fun {s} hs o ho => ?_, fun {o} ho => ?_⟩, hobj, hlive⟩
  · rcases eq_or_ne s slab with rfl | hne
    · rw [hself]
      exact hnodup.2
    · rw [hother hne]
      exact h.nodup hs
  · rcases eq_or_ne s slab with rfl | hne
    · rw [hself] at ho
      exact h.sub hs (by simp [hfree, show o ∈ rest from ho])
    · rw [hother hne] at ho
      exact h.sub hs ho
  · rcases eq_or_ne s slab with rfl | hne
    · have hcount := h.count hs
      rw [hfree, List.length_cons] at hcount
      rw [hself]
      exact (by omega : (cache.slabs s).inUse + 1 + rest.length = cache.objsPerSlab)
    · rw [hother hne]
      exact h.count hs
  · have hold := h.used hs ho
    rcases eq_or_ne s slab with rfl | hne
    · rw [hself, Finset.mem_insert, hold, hfree, List.mem_cons]
      rcases eq_or_ne o obj with rfl | hoo
      · simp [hnodup.1]
      · simp [hoo]
    · rw [hother hne, Finset.mem_insert, hold]
      refine or_iff_right fun hoo => hne ?_
      exact h.slab_unique hs hslab (hoo ▸ ho) hobj
  · rcases Finset.mem_insert.mp ho with rfl | ho
    · exact ⟨slab, hslab, hobj⟩
    · exact h.owned ho

/-- **An allocation succeeds** in a valid cache, gives an object of one of its slabs that
was not allocated, and keeps the cache valid. -/
theorem Valid.alloc (hT : T.Ordered) (hn : 0 < cache.objsPerSlab) (h : cache.Valid blocks live)
    (hfresh : cache.NeedsBlock → FreshBlock blocks block) :
    ∃ cache' obj, cache.naviSlabAlloc T block = .ok (cache', obj) ∧
      cache'.Valid (cache.blocksAfter blocks block) (insert obj live) ∧ obj ∉ live ∧
      ∃ slab ∈ cache.blocksAfter blocks block, obj ∈ cache'.objects slab := by
  obtain ⟨cache₁, slab, hget, hfound⟩ := getSlab_spec hT hn h hfresh
  obtain ⟨obj, rest, hfree⟩ : ∃ obj rest, (cache₁.slabs slab).free = obj :: rest := by
    have hcount := hfound.count hfound.mem
    have hroom := hfound.room
    cases hfree : (cache₁.slabs slab).free with
    | nil => rw [hfree, List.length_nil] at hcount; omega
    | cons obj rest => exact ⟨obj, rest, rfl⟩
  obtain ⟨hcarved, hobj, hlive⟩ := hfound.toCarved.pop hfound.mem hfree
  set u := (cache₁.slabs slab).inUse + 1 with hu
  set cache₂ := cache₁.setSlab slab ⟨rest, u⟩ with hcache₂
  have halloc : cache.naviSlabAlloc T block =
      if u = cache₂.objsPerSlab then .ok ((cache₂.slabRemove T slab).slabInsert T .full slab, obj)
      else if u = 1 then .ok ((cache₂.slabRemove T slab).slabInsert T .part slab, obj)
      else .ok (cache₂, obj) := by
    simp only [naviSlabAlloc, hget, slabPop, hfree, ok_bind, setSlab, Function.update_self,
      Function.update_idem, hcache₂, pure_eq_ok]
    rfl
  have hself : cache₂.slabs slab = ⟨rest, u⟩ := by simp [hcache₂, setSlab]
  have hother : ∀ {st s}, s ≠ slab → (s ∈ (cache₂.tree st).toList ↔
      s ∈ cache.blocksAfter blocks block ∧ cache₂.dictated (cache₂.slabs s).inUse = st) := by
    intro st s hs
    have hold : cache₂.slabs s = cache₁.slabs s := by
      simp [hcache₂, setSlab, Function.update_of_ne hs]
    rw [hold]
    exact hfound.status fun hss => absurd hss hs
  rw [halloc]
  split_ifs with hfull hone
  · refine ⟨_, obj, rfl, Valid.of_move hT hcarved hfound.ordered hfound.mem hother ?_, hlive,
      slab, hfound.mem, hobj⟩
    rw [hself, dictated, if_pos hfull]
  · refine ⟨_, obj, rfl, Valid.of_move hT hcarved hfound.ordered hfound.mem hother ?_, hlive,
      slab, hfound.mem, hobj⟩
    rw [hself, dictated, if_neg hfull, if_neg (show u ≠ 0 by omega)]
  · refine ⟨_, obj, rfl, ⟨hcarved, hfound.ordered, fun {st s} => ?_⟩, hlive, slab, hfound.mem, hobj⟩
    rcases eq_or_ne s slab with rfl | hs
    · -- the slab was partially used before, and is so still
      have hroom := hfound.room
      have hne : (cache₁.slabs s).inUse ≠ 0 := by omega
      have hdict : cache₂.dictated (cache₂.slabs s).inUse =
          cache₁.dictated (cache₁.slabs s).inUse := by
        rw [hself, dictated, if_neg hfull, if_neg (show u ≠ 0 by omega), dictated,
          if_neg hroom.ne, if_neg hne]
      rw [hdict]
      exact hfound.status fun _ => hne
    · exact hother hs

/-! ### Freeing -/

/-- What the search of one tree gives is a slab whose block holds the address. -/
theorem findIn_sound {mem : ℕ} {t : RedBlack.Tree ℕ} (h : findIn mem t = some slab) :
    slab ∈ t.toList ∧ slab ≤ mem ∧ mem < slab + slabSize := by
  induction t with
  | nil => exact absurd h (by simp [findIn])
  | node c l s r ihl ihr =>
    rw [findIn] at h
    simp only [RedBlack.Tree.toList, List.mem_append, List.mem_cons]
    split_ifs at h with hlt hge
    · obtain ⟨hmem, hbounds⟩ := ihl h
      exact ⟨.inl hmem, hbounds⟩
    · obtain ⟨hmem, hbounds⟩ := ihr h
      exact ⟨.inr (.inr hmem), hbounds⟩
    · obtain rfl : s = slab := Option.some.inj h
      refine ⟨.inr (.inl rfl), by omega, ?_⟩
      simp only [slabSize, slabDescSize, slabMemSize] at hge ⊢
      omega

/-- The search of a tree of blocks that do not overlap finds the one that holds the
address. -/
theorem findIn_complete {mem : ℕ} {t : RedBlack.Tree ℕ} (hord : t.toList.Pairwise (· < ·))
    (hapart : ∀ s ∈ t.toList, s ≠ slab → s + slabSize ≤ slab ∨ slab + slabSize ≤ s)
    (hslab : slab ∈ t.toList) (hle : slab ≤ mem) (hlt : mem < slab + slabSize) :
    findIn mem t = some slab := by
  induction t with
  | nil => exact absurd hslab (by simp [RedBlack.Tree.toList])
  | node c l s r ihl ihr =>
    simp only [RedBlack.Tree.toList, List.pairwise_append, List.pairwise_cons, List.mem_append,
      List.mem_cons] at hord hapart hslab
    obtain ⟨hl, ⟨hsr, hr⟩, hlsr⟩ := hord
    have hroot := hapart s (.inr (.inl rfl))
    have hend : s + slabDescSize + slabMemSize = s + slabSize := by
      simp only [slabDescSize, slabMemSize, slabSize]
    rw [findIn, hend]
    rcases hslab with hslab | rfl | hslab
    · have hbelow := hlsr slab hslab s (.inl rfl)
      have hroot := hroot (by omega)
      rw [if_pos (by omega)]
      exact ihl hl (fun s' hs' => hapart s' (.inl hs')) hslab
    · rw [if_neg (by omega), if_neg (by omega)]
    · have habove := hsr slab hslab
      have hroot := hroot (by omega)
      rw [if_neg (by omega), if_pos (by omega)]
      exact ihr hr (fun s' hs' => hapart s' (.inr (.inr hs'))) hslab

/-- **`find_slab` finds the slab of an allocated object.** -/
theorem Valid.findSlab (h : cache.Valid blocks live) {mem : ℕ} (hmem : mem ∈ live)
    (hslab : slab ∈ blocks) (hobj : mem ∈ cache.objects slab) :
    cache.findSlab mem = some slab := by
  have hpos := h.inUse_pos hslab hmem hobj
  have hbounds := h.object_bounds hobj
  have hle : slab ≤ mem := by omega
  have hlt : mem < slab + slabSize := by
    have hsize := h.objSize_pos
    omega
  have hfind : ∀ st, slab ∈ (cache.tree st).toList → findIn mem (cache.tree st) = some slab :=
    fun st hst => findIn_complete (h.ordered st)
      (fun s hs hne => h.apart (h.status.mp hs).1 hslab hne) hst hle hlt
  rw [SlabCache.findSlab]
  by_cases hfull : slab ∈ (cache.tree .full).toList
  · rw [hfind .full hfull]
  · have hpart : slab ∈ (cache.tree .part).toList := by
      refine h.status.mpr ⟨hslab, ?_⟩
      have hne : (cache.slabs slab).inUse ≠ cache.objsPerSlab := fun heq =>
        hfull (h.status.mpr ⟨hslab, if_pos heq⟩)
      rw [dictated, if_neg hne, if_neg hpos.ne']
    cases hfind' : findIn mem (cache.tree .full) with
    | none => exact hfind .part hpart
    | some s =>
      -- a full slab whose block holds the address would be this one
      obtain ⟨hs, hsle, hslt⟩ := findIn_sound hfind'
      have heq : s = slab := by
        by_contra hne
        rcases h.apart (h.status.mp hs).1 hslab hne with hap | hap <;> omega
      rw [heq]

/-- Putting an allocated object back keeps the blocks carved up. -/
theorem Carved.push {mem : ℕ} (h : cache.Carved blocks live) (hslab : slab ∈ blocks)
    (hmem : mem ∈ live) (hobj : mem ∈ cache.objects slab) :
    (cache.setSlab slab ⟨mem :: (cache.slabs slab).free, (cache.slabs slab).inUse - 1⟩).Carved
      blocks (live.erase mem) := by
  set desc : Slab := ⟨mem :: (cache.slabs slab).free, (cache.slabs slab).inUse - 1⟩ with hdesc
  have hfree : mem ∉ (cache.slabs slab).free := (h.used hslab hobj).mp hmem
  have hself : (cache.setSlab slab desc).slabs slab = desc := by simp [setSlab]
  have hother : ∀ {s}, s ≠ slab → (cache.setSlab slab desc).slabs s = cache.slabs s :=
    fun hs => by simp [setSlab, Function.update_of_ne hs]
  refine ⟨h.objSize_pos, h.fits, h.apart, fun {s} hs => ?_, fun {s} hs o ho => ?_,
    fun {s} hs => ?_, fun {s} hs o ho => ?_, fun {o} ho => ?_⟩
  · rcases eq_or_ne s slab with rfl | hne
    · rw [hself]
      exact List.nodup_cons.mpr ⟨hfree, h.nodup hs⟩
    · rw [hother hne]
      exact h.nodup hs
  · rcases eq_or_ne s slab with rfl | hne
    · rw [hself] at ho
      rcases List.mem_cons.mp ho with rfl | ho
      · exact hobj
      · exact h.sub hs ho
    · rw [hother hne] at ho
      exact h.sub hs ho
  · rcases eq_or_ne s slab with rfl | hne
    · have hcount := h.count hs
      have hpos := h.inUse_pos hs hmem hobj
      rw [hself, hdesc, List.length_cons]
      exact (by omega : (cache.slabs s).inUse - 1 + ((cache.slabs s).free.length + 1) =
        cache.objsPerSlab)
    · rw [hother hne]
      exact h.count hs
  · have hold := h.used hs ho
    rcases eq_or_ne s slab with rfl | hne
    · rw [hself, Finset.mem_erase, hold, hdesc, List.mem_cons, not_or]
    · rw [hother hne, Finset.mem_erase, hold]
      refine and_iff_right fun hoo => hne ?_
      exact h.slab_unique hs hslab ho (hoo ▸ hobj)
  · exact h.owned (Finset.mem_of_mem_erase ho)

/-- **Freeing an allocated object succeeds** in a valid cache, and keeps it valid. -/
theorem Valid.free (hT : T.Ordered) (h : cache.Valid blocks live) {mem : ℕ} (hmem : mem ∈ live) :
    ∃ cache', cache.naviSlabFree T mem = .ok cache' ∧ cache'.Valid blocks (live.erase mem) := by
  obtain ⟨slab, hslab, hobj⟩ := h.owned hmem
  have hpos := h.inUse_pos hslab hmem hobj
  have hcarved := h.toCarved.push hslab hmem hobj
  set u := (cache.slabs slab).inUse - 1 with hu
  set cache₁ := cache.setSlab slab ⟨mem :: (cache.slabs slab).free, u⟩ with hcache₁
  have hself : cache₁.slabs slab = ⟨mem :: (cache.slabs slab).free, u⟩ := by
    simp [hcache₁, setSlab]
  have hfree : cache.naviSlabFree T mem =
      if u = 0 then .ok ((cache₁.slabRemove T slab).slabInsert T .empty slab)
      else if u + 1 = cache₁.objsPerSlab then
        .ok ((cache₁.slabRemove T slab).slabInsert T .part slab)
      else .ok cache₁ := by
    simp only [naviSlabFree, h.findSlab hmem hslab hobj, ← hu, ← hcache₁, hself]
  have hother : ∀ {st s}, s ≠ slab → (s ∈ (cache₁.tree st).toList ↔
      s ∈ blocks ∧ cache₁.dictated (cache₁.slabs s).inUse = st) := by
    intro st s hs
    have hold : cache₁.slabs s = cache.slabs s := by
      simp [hcache₁, setSlab, Function.update_of_ne hs]
    rw [hold]
    exact h.status
  have hle : u + 1 ≤ cache₁.objsPerSlab := by
    have hcount := h.count hslab
    exact (by omega : u + 1 ≤ cache.objsPerSlab)
  rw [hfree]
  split_ifs with hzero hlast
  · refine ⟨_, rfl, Valid.of_move hT hcarved h.ordered hslab hother ?_⟩
    rw [hself, dictated, if_neg (show u ≠ _ by omega), if_pos hzero]
  · refine ⟨_, rfl, Valid.of_move hT hcarved h.ordered hslab hother ?_⟩
    rw [hself, dictated, if_neg (show u ≠ _ by omega), if_neg hzero]
  · refine ⟨_, rfl, ⟨hcarved, h.ordered, fun {st s} => ?_⟩⟩
    rcases eq_or_ne s slab with rfl | hs
    · -- the slab was neither full nor about to be empty, and stays partially used
      have hdict : cache₁.dictated (cache₁.slabs s).inUse =
          cache.dictated (cache.slabs s).inUse := by
        rw [hself, dictated, if_neg (show u ≠ _ by omega), if_neg hzero, dictated,
          if_neg (show (cache.slabs s).inUse ≠ cache.objsPerSlab from fun heq => hlast ?_),
          if_neg hpos.ne']
        exact (by omega : u + 1 = cache.objsPerSlab)
      rw [hdict]
      exact h.status
    · exact hother hs

/-! ### All states reached -/

/-- A new cache is valid. -/
theorem valid_create (size : ℕ) : (naviSlabCacheCreate size).Valid ∅ ∅ where
  objSize_pos := by
    simp only [naviSlabCacheCreate]
    split_ifs <;> omega
  fits := Nat.div_mul_le_self _ _
  apart hs := absurd hs (Finset.notMem_empty _)
  nodup hs := absurd hs (Finset.notMem_empty _)
  sub hs := absurd hs (Finset.notMem_empty _)
  count hs := absurd hs (Finset.notMem_empty _)
  used hs := absurd hs (Finset.notMem_empty _)
  owned ho := absurd ho (Finset.notMem_empty _)
  ordered _ := List.Pairwise.nil
  status := iff_of_false (fun h => absurd h List.not_mem_nil)
    fun h => absurd h.1 (Finset.notMem_empty _)

/-- What a cache keeps for good: the size of its objects and their number in a slab. -/
def config (cache : SlabCache) : ℕ × ℕ := (cache.objsPerSlab, cache.objSize)

theorem naviSlabAlloc_config {cache' : SlabCache}
    (h : cache.naviSlabAlloc T block = .ok (cache', obj)) : cache'.config = cache.config := by
  have hget : (cache.getSlab T block).1.config = cache.config := by
    rw [getSlab]
    split <;> rfl
  cases hgs : cache.getSlab T block with
  | mk cache₁ slab =>
    rw [hgs] at hget
    rw [← hget]
    simp only [naviSlabAlloc, hgs, slabPop] at h
    cases hfree : (cache₁.slabs slab).free with
    | nil => exact absurd h (by simp [hfree, error_bind])
    | cons obj rest =>
      simp only [hfree, ok_bind, pure_eq_ok] at h
      split_ifs at h <;> obtain ⟨rfl, -⟩ := Prod.mk.inj (Except.ok.inj h) <;> rfl

theorem naviSlabFree_config {cache' : SlabCache} {mem : ℕ}
    (h : cache.naviSlabFree T mem = .ok cache') : cache'.config = cache.config := by
  rw [naviSlabFree] at h
  split at h
  · exact absurd h (by simp)
  · simp only at h
    split_ifs at h <;> obtain rfl := Except.ok.inj h <;> rfl

end SlabCache

open SlabCache

variable {T : SlabTrees} {size : ℕ} {cache : SlabCache} {blocks live : Finset ℕ}

theorem SlabReach.config_eq (h : SlabReach T size cache blocks live) :
    cache.config = (naviSlabCacheCreate size).config := by
  induction h with
  | create => rfl
  | alloc _ _ halloc ih => exact (naviSlabAlloc_config halloc).trans ih
  | free _ _ hfree ih => exact (naviSlabFree_config hfree).trans ih

/-- **Every state reached is valid.** -/
theorem SlabReach.valid (hT : T.Ordered) (hn : 0 < (naviSlabCacheCreate size).objsPerSlab)
    (h : SlabReach T size cache blocks live) : cache.Valid blocks live := by
  induction h with
  | create => exact valid_create size
  | @alloc cache cache' blocks live block obj h hfresh halloc ih =>
    have hpos : 0 < cache.objsPerSlab := by
      rw [show cache.objsPerSlab = _ from congrArg Prod.fst h.config_eq]
      exact hn
    obtain ⟨cache'', obj', halloc', hvalid, -⟩ := ih.alloc hT hpos hfresh
    obtain ⟨rfl, rfl⟩ := Prod.mk.inj (Except.ok.inj (halloc.symm.trans halloc'))
    exact hvalid
  | free _ hmem hfree ih =>
    obtain ⟨cache'', hfree', hvalid⟩ := ih.free hT hmem
    obtain rfl := Except.ok.inj (hfree.symm.trans hfree')
    exact hvalid

/-- **The slab allocator is correct.** In every state reached from a new cache with room
for an object in a slab: an allocation succeeds, and the object it gives lies inside the
memory area of a slab of the cache and overlaps no allocated object; an allocated object
can be freed; every slab is in the tree that its counter dictates and in no other; and its
counter and the length of its free list add up to the number of its objects. -/
theorem slabReach_correct (hT : T.Ordered) (hn : 0 < (naviSlabCacheCreate size).objsPerSlab)
    (h : SlabReach T size cache blocks live) :
    (∀ block, (cache.NeedsBlock → FreshBlock blocks block) →
      ∃ cache' obj, cache.naviSlabAlloc T block = .ok (cache', obj) ∧
        (∃ st, ∃ slab ∈ (cache'.tree st).toList,
          slab + slabDescSize ≤ obj ∧ obj + cache.objSize ≤ slab + slabDescSize + slabMemSize) ∧
        ∀ o ∈ live, o + cache.objSize ≤ obj ∨ obj + cache.objSize ≤ o) ∧
    (∀ mem ∈ live, ∃ cache', cache.naviSlabFree T mem = .ok cache') ∧
    (∀ st, ∀ slab ∈ (cache.tree st).toList, slab ∈ blocks) ∧
    ∀ slab ∈ blocks,
      (∀ st, slab ∈ (cache.tree st).toList ↔ cache.dictated (cache.slabs slab).inUse = st) ∧
      (cache.slabs slab).inUse + (cache.slabs slab).free.length = cache.objsPerSlab := by
  have hvalid := h.valid hT hn
  have hpos : 0 < cache.objsPerSlab := by
    rw [show cache.objsPerSlab = _ from congrArg Prod.fst h.config_eq]
    exact hn
  refine ⟨fun block hfresh => ?_, fun mem hmem => ?_, fun st slab hslab =>
    (hvalid.status.mp hslab).1, fun slab hslab => ⟨fun st => ?_, hvalid.count hslab⟩⟩
  · obtain ⟨cache', obj, halloc, hvalid', hlive, slab, hslab, hobj⟩ := hvalid.alloc hT hpos hfresh
    have hsize : cache'.objSize = cache.objSize := congrArg Prod.snd (naviSlabAlloc_config halloc)
    have hbounds := hvalid'.object_bounds hobj
    rw [hsize] at hbounds
    refine ⟨cache', obj, halloc, ⟨_, slab, hvalid'.status.mpr ⟨hslab, rfl⟩, hbounds⟩,
      fun o ho => ?_⟩
    rw [← hsize]
    have hne : o ≠ obj := fun heq => hlive (heq ▸ ho)
    obtain ⟨s, hs, hos⟩ := hvalid'.owned (Finset.mem_insert_of_mem ho)
    rcases eq_or_ne s slab with rfl | hss
    · exact objects_apart hos hobj hne
    · have hb := hvalid'.object_bounds hos
      have hb' := hvalid'.object_bounds hobj
      rcases hvalid'.apart hs hslab hss with hlt | hlt <;> omega
  · obtain ⟨cache', hfree, -⟩ := hvalid.free hT hmem
    exact ⟨cache', hfree⟩
  · rw [hvalid.status]
    exact and_iff_right hslab

/-- The tree without left branches. -/
def spine : List ℕ → RedBlack.Tree ℕ
  | [] => .nil
  | x :: xs => .node .black .nil x (spine xs)

theorem toList_spine : ∀ xs, (spine xs).toList = xs
  | [] => rfl
  | x :: xs => congrArg (x :: ·) (toList_spine xs)

/-- The trees without left branches, as address-ordered sets. -/
def spineTrees : SlabTrees where
  insert t x := spine (t.toList.orderedInsert (· ≤ ·) x)
  remove t x := spine (t.toList.erase x)

theorem spineTrees_ordered : spineTrees.Ordered where
  insert_ordered {t x} ht hx := by
    have hle : (t.toList.orderedInsert (· ≤ ·) x).Pairwise (· ≤ ·) :=
      (ht.imp le_of_lt).orderedInsert x t.toList
    have hnodup : (t.toList.orderedInsert (· ≤ ·) x).Nodup :=
      (List.perm_orderedInsert _ x _).nodup_iff.mpr (List.nodup_cons.mpr ⟨hx, ht.imp ne_of_lt⟩)
    rw [spineTrees, toList_spine]
    exact (hle.and hnodup).imp fun h => lt_of_le_of_ne h.1 h.2
  mem_insert _ _ y := by
    rw [spineTrees, toList_spine, List.mem_orderedInsert]
  remove_ordered ht _ := by
    rw [spineTrees, toList_spine]
    exact ht.sublist List.erase_sublist
  mem_remove ht _ y := by
    rw [spineTrees, toList_spine, List.Nodup.mem_erase_iff (ht.imp ne_of_lt)]

/-- One object of 2000 bytes allocated. -/
theorem slabReach_correct_spine : ∃ cache cache',
    SlabReach spineTrees 2000 cache {4096} {6144} ∧
      cache.naviSlabFree spineTrees 6144 = .ok cache' := by
  obtain ⟨cache, hcache⟩ : ∃ cache,
      (naviSlabCacheCreate 2000).naviSlabAlloc spineTrees 4096 = .ok (cache, 6144) := ⟨_, rfl⟩
  have hreach : SlabReach spineTrees 2000 cache {4096} {6144} :=
    .alloc .create (fun _ _ h => absurd h (Finset.notMem_empty _)) hcache
  obtain ⟨cache', hfree⟩ := (slabReach_correct spineTrees_ordered (by decide) hreach).2.1 6144
    (Finset.mem_singleton_self _)
  exact ⟨cache, cache', hreach, hfree⟩

end NaviScheme
