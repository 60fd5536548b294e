import NaviScheme.Slab.Linked

/-!
# The cache in memory refines the cache on sets

A cache in memory shows a cache on address-ordered sets (`NaviScheme.LinkedCache.Shows`) if its
memory holds the three trees, no node being in two of them. An operation on one tree stays within
its nodes, so that the other two are as they were, and each operation that comes to an end is
followed by the other cache. In this way every state reached shows a state that is reached there
(`NaviScheme.LinkedReach.refines`).
-/

namespace NaviScheme

open RedBlack

namespace LinkedCache

variable {c c' c₁ : LinkedCache} {a a' : SlabCache} {blocks live : Finset ℕ}
  {slab block obj mem fuel : ℕ} {st st' : SlabStatus} {e : LinkedFault}

/-- **The cache in memory shows a cache**: it holds its trees, which have no nodes in common. -/
structure Shows (c : LinkedCache) (a : SlabCache) : Prop where
  objsPerSlab : a.objsPerSlab = c.objsPerSlab
  objSize : a.objSize = c.objSize
  slabs : a.slabs = c.slabs
  holds : ∀ st, At c.mem (c.root st) [] (a.tree st)
  apart : ∀ {st st'}, st ≠ st' → ∀ x ∈ extent (c.root st) (a.tree st),
    x ∉ extent (c.root st') (a.tree st')

/-! ### Operations on the trees -/

theorem onTrees_eq_ok {op : Mem ℕ → Except RbFault (Mem ℕ)} (h : c.onTrees op = .ok c') :
    ∃ m, op c.mem = .ok m ∧ c' = { c with mem := m } := by
  rw [onTrees] at h
  cases hop : op c.mem with
  | ok m =>
    rw [hop] at h
    exact ⟨m, rfl, (Except.ok.inj h).symm⟩
  | error e =>
    rw [hop] at h
    cases h

namespace Shows

/-- One of the trees is changed, within its nodes and perhaps others that are in no tree. -/
theorem setTree {S : Set ℕ} {m : Mem ℕ} {t : RedBlack.Tree ℕ} (h : c.Shows a)
    (hw : WritesIn S c.mem m) (hat : At m (c.root st) [] t)
    (hsub : ∀ x ∈ extent (c.root st) t, x ∈ S)
    (hS : ∀ {st'}, st' ≠ st → ∀ x ∈ extent (c.root st') (a.tree st'), x ∉ S) :
    ({ c with mem := m } : LinkedCache).Shows (a.setTree st t) := by
  have htree (st' : SlabStatus) : (a.setTree st t).tree st' = if st' = st then t else a.tree st' :=
    Function.update_apply _ _ _ _
  refine ⟨h.objsPerSlab, h.objSize, h.slabs, fun st' => ?_, fun {st₁ st₂} hne x hx hx' => ?_⟩
  · rw [htree]
    split_ifs with hst
    · exact hst ▸ hat
    · exact (h.holds st').of_writesIn hw (hS hst)
  · rw [htree] at hx hx'
    split_ifs at hx hx' with h₁ h₂ h₂
    · exact hne (h₁.trans h₂.symm)
    · exact hS h₂ x hx' (hsub x (h₁ ▸ hx))
    · exact hS h₁ x hx (hsub x (h₂ ▸ hx'))
    · exact h.apart hne x hx hx'

/-- **`slab_insert`**, of a slab that is in none of the trees. -/
theorem slabInsert (h : c.Shows a) (hslab : ∀ st, slab ∉ extent (c.root st) (a.tree st))
    (hins : c.slabInsert fuel st slab = .ok c') : c'.Shows (a.slabInsert rbTrees st slab) := by
  obtain ⟨m, hop, rfl⟩ := onTrees_eq_ok hins
  have hat := h.holds st
  obtain ⟨t, htree, hat'⟩ := slabInsert_treeInsert hat
    (fun hx => hslab st (List.mem_cons.mp hx)) hop
  rw [SlabCache.slabInsert, rbTrees_insert htree]
  have hwithin := (WritesIn.refl hat.encloses).slabInsert (.inl rfl) hop
  refine h.setTree hwithin hat' (fun x hx => ?_) fun {st'} hne x hx hx' => ?_
  · rcases hx with rfl | hx
    · exact .inr (.inl rfl)
    · exact ((mem_treeInsert htree).mp hx).imp id .inr
  · rcases hx' with rfl | hx'
    · exact hslab st' hx
    · exact h.apart hne x hx hx'

/-- A slab is removed from the one tree that it is in. -/
theorem slabRemove_eq (h : c.Shows a) (hslab : slab ∈ (a.tree st).toList) (T : SlabTrees) :
    a.slabRemove T slab = a.setTree st (T.remove (a.tree st) slab) := by
  have hother {st'} (hne : st' ≠ st) : slab ∉ (a.tree st').toList := fun hx =>
    h.apart hne slab (.inr hx) (.inr hslab)
  simp only [SlabCache.slabRemove, SlabCache.setTree, SlabCache.mk.injEq, and_true]
  funext st'
  rcases eq_or_ne st' st with rfl | hne
  · rw [if_pos hslab, Function.update_self]
  · rw [if_neg (hother hne), Function.update_of_ne hne]

/-- **`slab_remove`.** -/
theorem slabRemove (h : c.Shows a) (hslab : slab ∈ (a.tree st).toList)
    (hord : (a.tree st).toList.Pairwise (· < ·)) (hrem : c.slabRemove fuel slab = .ok c') :
    c'.Shows (a.slabRemove rbTrees slab) := by
  obtain ⟨m, hop, rfl⟩ := onTrees_eq_ok hrem
  have hat := h.holds st
  obtain ⟨t, htree, hat'⟩ := naviRbRemove_treeRemove hat hord hslab hop
  rw [h.slabRemove_eq hslab, rbTrees_remove htree]
  have hwithin := (WritesIn.refl hat.encloses).naviRbRemove (.inr hslab) hop
  refine h.setTree hwithin hat' (fun x hx => hx.imp id fun hx => ?_) fun hne => h.apart hne
  rw [toList_treeRemove (hord.imp ne_of_lt) htree] at hx
  exact List.mem_of_mem_erase hx

/-- A slab is moved to another tree. -/
theorem move (h : c.Shows a) (hslab : slab ∈ (a.tree st).toList)
    (hord : ∀ st, (a.tree st).toList.Pairwise (· < ·)) (hmove : c.move fuel st' slab = .ok c') :
    c'.Shows ((a.slabRemove rbTrees slab).slabInsert rbTrees st' slab) := by
  obtain ⟨c₁, hrem, hins⟩ := bind_eq_ok hmove
  have h₁ := h.slabRemove hslab (hord st) hrem
  obtain ⟨m, -, rfl⟩ := onTrees_eq_ok hrem
  refine h₁.slabInsert (fun st₁ hx => ?_) hins
  rcases hx with hroot | hx
  · -- a slab is not one of the dummy roots
    rcases eq_or_ne st₁ st with rfl | hne
    · have hmem : c.root st₁ ∈ (a.tree st₁).toList := (show slab = c.root st₁ from hroot) ▸ hslab
      exact (List.nodup_cons.mp (h.holds st₁).nodup).1 (by simpa using hmem)
    · exact h.apart hne slab (.inl hroot) (.inr hslab)
  · exact ((SlabCache.mem_slabRemove rbTrees_ordered hord slab st₁).2.mp hx).1 rfl

/-! ### Allocation -/

theorem rbRoot_eq (h : c.Shows a) (st : SlabStatus) : c.rbRoot st = (a.tree st).root? :=
  (h.holds st).child_above

theorem setSlab (h : c.Shows a) (slab : ℕ) (desc : Slab) :
    (c.setSlab slab desc).Shows (a.setSlab slab desc) := by
  refine ⟨h.objsPerSlab, h.objSize, ?_, h.holds, h.apart⟩
  rw [LinkedCache.setSlab, SlabCache.setSlab, h.slabs]

theorem newSlab (h : c.Shows a) (block : ℕ) : (c.newSlab block).Shows (a.newSlab block) := by
  have hinit : c.bare.initSingle block = a.initSingle block := by
    simp only [SlabCache.initSingle, SlabCache.getObject, bare, h.objsPerSlab, h.objSize]
  rw [LinkedCache.newSlab, SlabCache.newSlab, hinit]
  exact h.setSlab block _

/-- **`get_slab`.** -/
theorem getSlab (h : c.Shows a) (hord : ∀ st, (a.tree st).toList.Pairwise (· < ·))
    (hblock : a.NeedsBlock → ∀ st, block ∉ extent (c.root st) (a.tree st))
    (hget : c.getSlab fuel block = .ok (c', slab)) :
    ∃ a' st, a.getSlab rbTrees block = (a', slab) ∧ c'.Shows a' ∧ slab ∈ (a'.tree st).toList := by
  rw [LinkedCache.getSlab, h.rbRoot_eq, h.rbRoot_eq] at hget
  rw [SlabCache.getSlab]
  cases hpart : (a.tree .part).root? with
  | some s =>
    rw [hpart] at hget
    cases hget
    exact ⟨a, .part, rfl, h, RedBlack.Tree.root?_mem hpart⟩
  | none =>
    cases hempty : (a.tree .empty).root? with
    | some s =>
      rw [hpart, hempty] at hget
      cases hget
      exact ⟨a, .empty, rfl, h, RedBlack.Tree.root?_mem hempty⟩
    | none =>
      rw [hpart, hempty] at hget
      obtain ⟨c₁, hins, hget⟩ := bind_eq_ok hget
      cases hget
      have hfresh := hblock ⟨hpart, hempty⟩
      refine ⟨_, .part, rfl, (h.newSlab _).slabInsert hfresh hins, ?_⟩
      have hnot : slab ∉ (a.tree .part).toList := fun hx => hfresh .part (.inr hx)
      simp only [SlabCache.slabInsert, SlabCache.setTree, Function.update_self]
      exact (rbTrees_ordered.mem_insert (hord .part) hnot).mpr (.inl rfl)

/-- What is done to the slab that `get_slab` has found. -/
theorem pop {o : ℕ} {rest : List ℕ} (h : c.Shows a) (hfree : (c.slabs slab).free = o :: rest) :
    c.slabPop slab = .ok (c.setSlab slab { c.slabs slab with free := rest }, o) ∧
      a.slabPop slab = .ok (a.setSlab slab { c.slabs slab with free := rest }, o) := by
  rw [LinkedCache.slabPop, SlabCache.slabPop, h.slabs, hfree]
  exact ⟨rfl, rfl⟩

/-- **`navi_slab_alloc`.** -/
theorem alloc (h : c.Shows a) (hn : 0 < a.objsPerSlab) (hvalid : a.Valid blocks live)
    (hfresh : a.NeedsBlock → FreshBlock blocks block)
    (hblock : a.NeedsBlock → ∀ st, block ∉ extent (c.root st) (a.tree st))
    (halloc : c.naviSlabAlloc fuel block = .ok (c', obj)) :
    ∃ a', a.naviSlabAlloc rbTrees block = .ok (a', obj) ∧ c'.Shows a' := by
  obtain ⟨⟨c₁, slab⟩, hget, halloc⟩ := bind_eq_ok halloc
  obtain ⟨a₁, st, hget', h₁, hslab⟩ := h.getSlab hvalid.ordered hblock hget
  obtain ⟨_, _, hspec, hfound⟩ := SlabCache.getSlab_spec rbTrees_ordered hn hvalid hfresh
  cases hget'.symm.trans hspec
  obtain ⟨⟨c₂, o⟩, hpop, halloc⟩ := bind_eq_ok halloc
  cases hfree : (c₁.slabs slab).free with
  | nil =>
    rw [LinkedCache.slabPop, hfree] at hpop
    cases hpop
  | cons o rest =>
    obtain ⟨hpop₁, hpop₂⟩ := h₁.pop hfree
    cases hpop₁.symm.trans hpop
    set u := (c₁.slabs slab).inUse + 1 with hu
    have h₂ := (h₁.setSlab slab { c₁.slabs slab with free := rest }).setSlab slab ⟨rest, u⟩
    have hord := hfound.ordered
    have hn₁ : a₁.objsPerSlab = c₁.objsPerSlab := h₁.objsPerSlab
    simp only [LinkedCache.setSlab, Function.update_self, ← hu] at halloc h₂
    simp only [SlabCache.naviSlabAlloc, hget', hpop₂, ok_bind, SlabCache.setSlab,
      Function.update_self,
      ← hu, hn₁, pure_eq_ok] at h₂ ⊢
    split_ifs at halloc ⊢ with hfull hone
    · obtain ⟨c₃, hmove, halloc⟩ := bind_eq_ok halloc
      cases halloc
      exact ⟨_, rfl, h₂.move hslab hord hmove⟩
    · obtain ⟨c₃, hmove, halloc⟩ := bind_eq_ok halloc
      cases halloc
      exact ⟨_, rfl, h₂.move hslab hord hmove⟩
    · cases halloc
      exact ⟨_, rfl, h₂⟩

/-! ### Freeing -/

/-- **`_find_slab`** finds what the search of the tree does. -/
theorem findLoop_eq {m : Mem ℕ} {d : ℕ} {ctx : Ctx ℕ} {t : RedBlack.Tree ℕ} {r : Option ℕ}
    (h : At m d ctx t) (hloop : findLoop fuel m mem t.root? = .ok r) :
    r = SlabCache.findIn mem t := by
  induction t generalizing ctx fuel with
  | nil =>
    cases fuel with
    | zero => cases hloop
    | succ fuel => exact (Except.ok.inj hloop).symm
  | node c l x r ihl ihr =>
    cases fuel with
    | zero => cases hloop
    | succ fuel =>
      have hleft : m.left x = l.root? := h.rep.1.near
      have hright : m.right x = r.root? := h.rep.1.far
      simp only [RedBlack.Tree.root?_node, findLoop, hleft, hright] at hloop
      rw [SlabCache.findIn]
      split_ifs at hloop ⊢
      · exact ihl (at_cons (s := .left).mpr h) hloop
      · exact ihr (at_cons (s := .right).mpr h) hloop
      · exact (Except.ok.inj hloop).symm

theorem findIn {r : Option ℕ} (h : c.Shows a) (hfind : c.findIn fuel st mem = .ok r) :
    r = SlabCache.findIn mem (a.tree st) := by
  rw [LinkedCache.findIn, h.rbRoot_eq] at hfind
  cases hloop : findLoop fuel c.mem mem (a.tree st).root? with
  | error e =>
    rw [hloop] at hfind
    cases hfind
  | ok r' =>
    rw [hloop] at hfind
    cases hfind
    exact findLoop_eq (h.holds st) hloop

theorem findSlab {r : Option ℕ} (h : c.Shows a) (hfind : c.findSlab fuel mem = .ok r) :
    r = a.findSlab mem := by
  obtain ⟨o, hfull, hfind⟩ := bind_eq_ok hfind
  have ho := h.findIn hfull
  rw [SlabCache.findSlab]
  cases o with
  | some s =>
    cases hfind
    rw [← ho]
  | none =>
    rw [← ho]
    exact h.findIn hfind

/-- The slab that is found is in one of the trees. -/
theorem mem_of_findSlab (hfind : a.findSlab mem = some slab) : ∃ st, slab ∈ (a.tree st).toList := by
  rw [SlabCache.findSlab] at hfind
  cases hfull : SlabCache.findIn mem (a.tree .full) with
  | some s =>
    rw [hfull] at hfind
    cases hfind
    exact ⟨.full, (SlabCache.findIn_sound hfull).1⟩
  | none =>
    rw [hfull] at hfind
    exact ⟨.part, (SlabCache.findIn_sound hfind).1⟩

/-- **`navi_slab_free`.** -/
theorem free (h : c.Shows a) (hvalid : a.Valid blocks live)
    (hfree : c.naviSlabFree fuel mem = .ok c') :
    ∃ a', a.naviSlabFree rbTrees mem = .ok a' ∧ c'.Shows a' := by
  obtain ⟨o, hfind, hfree⟩ := bind_eq_ok hfree
  have ho := h.findSlab hfind
  cases o with
  | none => cases hfree
  | some slab =>
    obtain ⟨st, hslab⟩ := mem_of_findSlab ho.symm
    have h₁ := h.setSlab slab ⟨mem :: (c.slabs slab).free, (c.slabs slab).inUse - 1⟩
    have hn : a.objsPerSlab = c.objsPerSlab := h.objsPerSlab
    have hord := hvalid.ordered
    simp only [LinkedCache.setSlab, Function.update_self] at hfree h₁
    simp only [SlabCache.naviSlabFree, ← ho, SlabCache.setSlab, Function.update_self, h.slabs,
      hn] at h₁ ⊢
    split_ifs at hfree ⊢
    · exact ⟨_, rfl, h₁.move hslab hord hfree⟩
    · exact ⟨_, rfl, h₁.move hslab hord hfree⟩
    · cases hfree
      exact ⟨_, rfl, h₁⟩

end Shows

/-! ### Faults -/

/-- What can go wrong goes wrong in the trees. -/
def TreesOnly {α : Type} (x : Except LinkedFault α) : Prop := ∀ e, x ≠ .error (.cache e)

theorem TreesOnly.bind {α β : Type} {x : Except LinkedFault α} {f : α → Except LinkedFault β}
    (hx : TreesOnly x) (hf : ∀ y, x = .ok y → TreesOnly (f y)) : TreesOnly (x >>= f) := by
  cases x with
  | ok y => exact hf y rfl
  | error e =>
    cases e with
    | cache e => exact absurd rfl (hx e)
    | tree e => exact nofun

theorem treesOnly_ok {α : Type} (y : α) : TreesOnly (.ok y : Except LinkedFault α) := nofun

theorem treesOnly_onTrees (op : Mem ℕ → Except RbFault (Mem ℕ)) : TreesOnly (c.onTrees op) := by
  rw [onTrees]
  cases op c.mem with
  | ok m => exact nofun
  | error e => exact nofun

theorem treesOnly_move : TreesOnly (c.move fuel st slab) :=
  (treesOnly_onTrees _).bind fun _ _ => treesOnly_onTrees _

theorem treesOnly_getSlab : TreesOnly (c.getSlab fuel block) := by
  rw [getSlab]
  cases c.rbRoot .part with
  | some s => exact treesOnly_ok _
  | none =>
    cases c.rbRoot .empty with
    | some s => exact treesOnly_ok _
    | none => exact (treesOnly_onTrees _).bind fun _ _ => treesOnly_ok _

theorem treesOnly_findIn : TreesOnly (c.findIn fuel st mem) := by
  rw [findIn]
  cases findLoop fuel c.mem mem (c.rbRoot st) with
  | ok r => exact nofun
  | error e => exact nofun

theorem treesOnly_findSlab : TreesOnly (c.findSlab fuel mem) := by
  refine treesOnly_findIn.bind fun o _ => ?_
  cases o with
  | some s => exact treesOnly_ok _
  | none => exact treesOnly_findIn

namespace Shows

/-- An allocation always finds a free object. -/
theorem treesOnly_alloc (h : c.Shows a) (hn : 0 < a.objsPerSlab) (hvalid : a.Valid blocks live)
    (hfresh : a.NeedsBlock → FreshBlock blocks block)
    (hblock : a.NeedsBlock → ∀ st, block ∉ extent (c.root st) (a.tree st)) :
    TreesOnly (c.naviSlabAlloc fuel block) := by
  refine treesOnly_getSlab.bind fun ⟨c₁, slab⟩ hget => ?_
  obtain ⟨a₁, st, hget', h₁, hslab⟩ := h.getSlab hvalid.ordered hblock hget
  obtain ⟨_, _, hspec, hfound⟩ := SlabCache.getSlab_spec rbTrees_ordered hn hvalid hfresh
  cases hget'.symm.trans hspec
  cases hfree : (c₁.slabs slab).free with
  | nil =>
    have hcount := hfound.count hfound.mem
    have hroom := hfound.room
    rw [h₁.slabs, hfree, List.length_nil] at hcount
    rw [h₁.slabs] at hroom
    omega
  | cons o rest =>
    simp only [(h₁.pop hfree).1, ok_bind]
    split_ifs
    · exact treesOnly_move.bind fun _ _ => treesOnly_ok _
    · exact treesOnly_move.bind fun _ _ => treesOnly_ok _
    · exact treesOnly_ok _

/-- The slab of an allocated object is found. -/
theorem treesOnly_free (h : c.Shows a) (hvalid : a.Valid blocks live) (hmem : mem ∈ live) :
    TreesOnly (c.naviSlabFree fuel mem) := by
  refine treesOnly_findSlab.bind fun o hfind => ?_
  obtain ⟨slab, hslab, hobj⟩ := hvalid.owned hmem
  obtain rfl : o = some slab := (h.findSlab hfind).trans (hvalid.findSlab hmem hslab hobj)
  simp only
  split_ifs
  · exact treesOnly_move
  · exact treesOnly_move
  · exact treesOnly_ok _

/-- The block that `malloc` returns is in none of the trees. -/
theorem not_mem_of_fresh (h : c.Shows a) (hvalid : a.Valid blocks live)
    (hfresh : c.rbRoot .part = none → c.rbRoot .empty = none → FreshBlock blocks block ∧
      (block + slabSize ≤ c.addr ∨ c.addr + slabCacheSize ≤ block)) (hneed : a.NeedsBlock)
    (st : SlabStatus) : block ∉ extent (c.root st) (a.tree st) := by
  obtain ⟨hpart, hempty⟩ := hneed
  obtain ⟨hblock, haddr⟩ := hfresh ((h.rbRoot_eq _).trans hpart) ((h.rbRoot_eq _).trans hempty)
  rintro (hroot | hx)
  · cases st <;> simp only [root, slabSize, slabCacheSize] at hroot haddr <;> omega
  · exact hblock.not_mem (hvalid.status.mp hx).1

end Shows

end LinkedCache

/-! ### Whole runs -/

open LinkedCache

variable {size : ℕ} {c : LinkedCache} {blocks live : Finset ℕ}

theorem sameAt_rbRootInit {m : Mem ℕ} {d x : ℕ} (h : x ≠ d) : SameAt m (rbRootInit m d) x :=
  (((sameAt_setChild h).trans (sameAt_setChild h)).trans
    (sameAt_adopt (p := some d) fun hd => h (Option.some.inj hd).symm)).trans (sameAt_setColor h)

theorem shows_create (addr : ℕ) (m : Mem ℕ) (size : ℕ) :
    (naviSlabCacheCreateAt addr m size).Shows (naviSlabCacheCreate size) := by
  have hextent {d x : ℕ} (h : x ∈ extent d .nil) : x = d := h.resolve_right List.not_mem_nil
  refine ⟨rfl, rfl, rfl, fun st => ?_, fun {st st'} hne x hx hx' => ?_⟩
  · -- a dummy root is not touched by what comes after it
    have hlater {m : Mem ℕ} {d d' : ℕ} (h : At m d [] .nil) (hne : d ≠ d') :
        At (rbRootInit m d') d [] .nil := h.congr fun x hx =>
      sameAt_rbRootInit ((hextent hx).trans_ne hne)
    cases st with
    | full =>
      exact hlater (hlater (at_rbRootInit m addr)
        (Nat.ne_of_lt (Nat.lt_add_of_pos_right (by decide))))
        (Nat.ne_of_lt (Nat.lt_add_of_pos_right (by decide)))
    | part =>
      exact hlater (at_rbRootInit _ (addr + 32)) (Nat.ne_of_lt (Nat.add_lt_add_left (by decide) _))
    | empty => exact at_rbRootInit _ (addr + 64)
  · have hroot := (hextent hx).symm.trans (hextent hx')
    cases st <;> cases st' <;> first | exact hne rfl | simp only [root] at hroot; omega

/-- **Every state reached in memory shows a state reached on sets.** -/
theorem LinkedReach.refines (hn : 0 < (naviSlabCacheCreate size).objsPerSlab)
    (h : LinkedReach size c blocks live) :
    ∃ a, SlabReach rbTrees size a blocks live ∧ c.Shows a := by
  induction h with
  | @create addr m => exact ⟨_, .create, shows_create addr m size⟩
  | @alloc c c' blocks live fuel block obj h hfresh halloc ih =>
    obtain ⟨a, hreach, hshows⟩ := ih
    have hvalid := hreach.valid rbTrees_ordered hn
    have hpos : 0 < a.objsPerSlab := by
      rw [show a.objsPerSlab = _ from congrArg Prod.fst hreach.config_eq]
      exact hn
    have hfresh' : a.NeedsBlock → FreshBlock blocks block := fun hneed =>
      (hfresh ((hshows.rbRoot_eq _).trans hneed.1) ((hshows.rbRoot_eq _).trans hneed.2)).1
    obtain ⟨a', halloc', hshows'⟩ := hshows.alloc hpos hvalid hfresh'
      (hshows.not_mem_of_fresh hvalid hfresh) halloc
    refine ⟨a', ?_, hshows'⟩
    have hblocks : a.blocksAfter blocks block = if c.rbRoot .part = none ∧ c.rbRoot .empty
      = none then
        insert block blocks else blocks := by
      rw [SlabCache.blocksAfter, hshows.rbRoot_eq, hshows.rbRoot_eq]
      rfl
    exact hblocks ▸ hreach.alloc hfresh' halloc'
  | @free c c' blocks live fuel mem h hmem hfree ih =>
    obtain ⟨a, hreach, hshows⟩ := ih
    obtain ⟨a', hfree', hshows'⟩ := hshows.free (hreach.valid rbTrees_ordered hn) hfree
    exact ⟨a', hreach.free hmem hfree', hshows'⟩

/-- Two allocated objects do not overlap. -/
theorem SlabCache.Valid.disjoint {a : SlabCache} (h : a.Valid blocks live) {o o' : ℕ}
    (ho : o ∈ live)
    (ho' : o' ∈ live) (hne : o ≠ o') : o + a.objSize ≤ o' ∨ o' + a.objSize ≤ o := by
  obtain ⟨s, hs, hobj⟩ := h.owned ho
  obtain ⟨s', hs', hobj'⟩ := h.owned ho'
  rcases eq_or_ne s s' with rfl | hss
  · exact SlabCache.objects_apart hobj hobj' hne
  · have hb := h.object_bounds hobj
    have hb' := h.object_bounds hobj'
    rcases h.apart hs hs' hss with hlt | hlt <;> omega

/-- **The allocator on its red–black trees is correct** as long as their operations come to an
end, whatever these do to the colours. Every state reached shows one that is reached on
address-ordered sets; the allocated objects lie in blocks from `malloc` and do not overlap; an
allocation returns an object that was not allocated; and all that can go wrong, when an object is
allocated or an allocated one freed, is in the operations on the trees. -/
theorem linkedReach_correct (hn : 0 < (naviSlabCacheCreate size).objsPerSlab)
    (h : LinkedReach size c blocks live) :
    (∃ a, SlabReach rbTrees size a blocks live ∧ c.Shows a) ∧
    (∀ o ∈ live, ∃ slab ∈ blocks, slab + slabDescSize ≤ o ∧ o + c.objSize ≤ slab + slabSize) ∧
    (∀ o ∈ live, ∀ o' ∈ live, o ≠ o' → o + c.objSize ≤ o' ∨ o' + c.objSize ≤ o) ∧
    (∀ fuel block, (c.rbRoot .part = none → c.rbRoot .empty = none → FreshBlock blocks block ∧
        (block + slabSize ≤ c.addr ∨ c.addr + slabCacheSize ≤ block)) →
      TreesOnly (c.naviSlabAlloc fuel block) ∧
        ∀ c' obj, c.naviSlabAlloc fuel block = .ok (c', obj) → obj ∉ live) ∧
    ∀ fuel, ∀ mem ∈ live, TreesOnly (c.naviSlabFree fuel mem) := by
  obtain ⟨a, hreach, hshows⟩ := h.refines hn
  have hvalid := hreach.valid rbTrees_ordered hn
  have hpos : 0 < a.objsPerSlab := by
    rw [show a.objsPerSlab = _ from congrArg Prod.fst hreach.config_eq]
    exact hn
  refine ⟨⟨a, hreach, hshows⟩, fun o ho => ?_, fun o ho o' ho' hne => ?_,
    fun fuel block hfresh => ?_,
    fun fuel mem hmem => hshows.treesOnly_free hvalid hmem⟩
  · obtain ⟨slab, hslab, hobj⟩ := hvalid.owned ho
    exact ⟨slab, hslab, hshows.objSize ▸ hvalid.object_bounds hobj⟩
  · exact hshows.objSize ▸ hvalid.disjoint ho ho' hne
  · have hfresh' : a.NeedsBlock → FreshBlock blocks block := fun hneed =>
      (hfresh ((hshows.rbRoot_eq _).trans hneed.1) ((hshows.rbRoot_eq _).trans hneed.2)).1
    have hblock := hshows.not_mem_of_fresh hvalid hfresh
    refine ⟨hshows.treesOnly_alloc hpos hvalid hfresh' hblock, fun c' obj halloc => ?_⟩
    obtain ⟨a', halloc', -⟩ := hshows.alloc hpos hvalid hfresh' hblock halloc
    obtain ⟨_, _, hspec, -, hobj, -⟩ := hvalid.alloc rbTrees_ordered hpos hfresh'
    cases halloc'.symm.trans hspec
    exact hobj

/-- The theorem when one object of 2000 bytes has been allocated. -/
theorem linkedReach_correct_one : ∃ c fuel,
    LinkedReach 2000 c {4096} {6144} ∧ TreesOnly (c.naviSlabFree fuel 6144) := by
  obtain ⟨c, halloc⟩ : ∃ c,
      (naviSlabCacheCreateAt 8192 blankMem 2000).naviSlabAlloc 5 4096 = .ok (c, 6144) := ⟨_, rfl⟩
  have hreach : LinkedReach 2000 c {4096} {6144} := .alloc .create
    (fun _ _ => ⟨fun _ h => absurd h (Finset.notMem_empty _), .inl (by decide)⟩) halloc
  exact ⟨c, 5, hreach, (linkedReach_correct (by decide) hreach).2.2.2.2 5 6144
    (Finset.mem_singleton_self _)⟩

end NaviScheme
