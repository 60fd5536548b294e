import Mathlib.Data.Nat.Basic
import NaviScheme.Lib.Rebalance
import NaviScheme.RbTree.Represent

/-!
# Insertion

`navi_rb_insert` does in memory what `RedBlack.insertFix` does on trees
(`NaviScheme.insertLoop_eq`), and `slab_insert` finds the place of a new node in
the order of the addresses (`NaviScheme.descend_eq`). Together: inserting a fresh
node into a balanced tree ends, follows no null pointer, and gives the balanced
tree with the node put in its place (`NaviScheme.slabInsert_spec`).
-/

namespace NaviScheme

open RedBlack

variable {ι : Type} {d x : ι} {ctx : Ctx ι} {t t' : RedBlack.Tree ι}

/-! ### The loop of `navi_rb_insert` -/

section Loop

variable [DecidableEq ι] {m : Mem ι}

theorem At.rbUncle_eq {f g : Frame ι} (h : At m d (f :: g :: ctx) t) (hx : t.root? = some x) :
    rbUncle m x = .ok g.sib.root? := by
  have hp := at_cons.mp h
  have hparent : m.parent f.node = some g.node := hp.parent_eq (n := f.node) (by simp)
  have hchild := hp.child_above
  have hother := hp.child_flip_above (n := f.node) (by simp)
  have hfar : m.child g.side.flip g.node = g.sib.root? := hp.repC.1.far
  rw [rbUncle, h.parent_eq hx]
  obtain ⟨s, c, y, u⟩ := g
  cases s <;>
    simp_all [above, sideOf, Mem.left, Mem.right, eq_comm (a := some f.node)]

theorem At.isChild_above {f g : Frame ι} (h : At m d (f :: g :: ctx) t) (s : Side) :
    isChild s m f.node = .ok (decide (s = g.side)) :=
  (at_cons.mp h).isChild_eq (by simp) s

/-- Case 4, when the two links go to the same side: nothing happens. -/
theorem insertCase4_same {s : Side} {c c' : Color} {p g : ι} {u v : RedBlack.Tree ι}
    (h : At m d (⟨s, c, p, u⟩ :: ⟨s, c', g, v⟩ :: ctx) t) (hx : t.root? = some x) :
    insertCase4 m x = .ok (m, x) := by
  have hp := h.isChild_above
  simp only at hp
  rw [insertCase4, h.parent_eq hx]
  simp only [deref_some, ok_bind, isLeftChild, isRightChild, h.isChild_eq hx, above, hp, sideOf]
  cases s <;> rfl

/-- Case 4, when the two links go to different sides: the node comes up. -/
theorem insertCase4_flip {s : Side} {c c₁ c₂ : Color} {p g : ι} {u v tn tf : RedBlack.Tree ι}
    (h : At m d (⟨s.flip, c₁, p, u⟩ :: ⟨s, c, g, v⟩ :: ctx) (.join s c₂ tn x tf)) :
    ∃ m', insertCase4 m x = .ok (m', p) ∧
      At m' d (⟨s, c₂, x, tf⟩ :: ⟨s, c, g, v⟩ :: ctx) (.join s c₁ u p tn) := by
  have hp := h.isChild_above
  simp only at hp
  have hrot := at_cons.mp h
  rw [RedBlack.Tree.join_flip] at hrot
  obtain ⟨m', hm', hat⟩ := hrot.rotate
  have hat' := at_cons.mpr hat
  have hnear : m'.child s x = some p := hat'.child_above.trans (by simp)
  refine ⟨m', ?_, hat'⟩
  rw [insertCase4, h.parent_eq (n := x) (by simp)]
  simp only [deref_some, ok_bind, isLeftChild, isRightChild, h.isChild_eq (n := x) (by simp),
    above, hp, sideOf]
  cases s
  · simp [rotateLeft, hm', Mem.left, hnear]
  · simp [rotateRight, hm', Mem.right, hnear]

/-- Case 5: the node above comes up, black, and the one above that goes down, red. -/
theorem insertCase5_eq {s : Side} {c c' : Color} {p g : ι} {u v : RedBlack.Tree ι}
    (h : At m d (⟨s, c, p, u⟩ :: ⟨s, c', g, v⟩ :: ctx) t) (hx : t.root? = some x) :
    ∃ m', insertCase5 m x = .ok m' ∧ At m' d (⟨s, .black, p, .join s .red u g v⟩ :: ctx) t := by
  have hblack := h.setColor_above .black
  have hred := at_cons.mpr ((at_cons.mp hblack).setColor_above .red)
  have hparent := (at_cons.mp hblack).parent_eq (n := p) (by simp)
  have hp := hred.isChild_above
  simp only at hp
  have hrot := at_cons.mp (at_cons.mp hred)
  rw [← RedBlack.Tree.join_flip s .red, ← RedBlack.Tree.join_flip s .black] at hrot
  obtain ⟨m', hm', hat⟩ := hrot.rotate
  rw [RedBlack.Tree.join_flip, RedBlack.Tree.join_flip] at hat
  refine ⟨m', ?_, at_cons.mpr hat⟩
  rw [insertCase5, h.parent_eq hx]
  simp only [toRbColor_red, toRbColor_black] at hred hparent hp hm'
  simp only [deref_some, ok_bind, isLeftChild, above, hparent, hred.isChild_eq hx, hp, sideOf]
  cases s
  · simpa [rotateRight] using hm'
  · simpa [rotateLeft] using hm'

/-- Case 1: at the root, the node is painted black. -/
theorem insertLoop_root (h : At m d [] t) (hx : t.root? = some x) (fuel : ℕ) :
    insertLoop (fuel + 1) m x = .ok (m.setColor x .rbBlack) := by
  simp [insertLoop, h.isRoot_eq hx]

/-- Case 2: below a black node there is nothing to do. -/
theorem insertLoop_black {f : Frame ι} (h : At m d (f :: ctx) t) (hx : t.root? = some x)
    (hf : f.color = .black) (fuel : ℕ) : insertLoop (fuel + 1) m x = .ok m := by
  simp [insertLoop, h.isRoot_eq hx, h.isBlack_parent hx, hf]

/-- Case 3: the parent and a red uncle become black, the grandparent red. -/
theorem insertLoop_red_uncle {s s' : Side} {c c' : Color} {p g : ι} {u v : RedBlack.Tree ι}
    (h : At m d (⟨s, c, p, u⟩ :: ⟨s', c', g, v⟩ :: ctx) t) (hx : t.root? = some x)
    (hc : c ≠ .black) (hv : v.color = .red) (fuel : ℕ) :
    ∃ m', insertLoop (fuel + 1) m x = insertLoop fuel m' g ∧
      At m' d ctx (.join s' .red (.join s .black t p u) g v.blacken) := by
  obtain ⟨w, hw⟩ : ∃ w, v.root? = some w := by
    cases v with
    | nil => simp at hv
    | node c l y r => exact ⟨y, rfl⟩
  have hp := at_cons.mp (h.setColor_above .black)
  have huncle := at_flip.mpr ((at_flip.mp hp).blacken hw)
  have hg := at_cons.mp (huncle.setColor_above .red)
  have hred : isRed m (some w) = true := by
    have hrep := (at_flip.mp (at_cons.mp h)).rep
    rw [← hw, isRed_root? hrep, hv]
    rfl
  have hblack : isBlack m (some p) = false := by
    have hp := h.isBlack_parent hx
    rw [h.parent_eq hx] at hp
    exact hp.trans (decide_eq_false hc)
  have hparent : m.parent p = some g := (at_cons.mp h).parent_eq (by simp)
  refine ⟨_, ?_, hg⟩
  simp only [insertLoop, h.isRoot_eq hx, h.rbUncle_eq hx, hw, hred, hblack, h.parent_eq hx,
    ok_bind, List.isEmpty_cons, Option.isSome_some, Bool.and_self, if_true, deref_some,
    Bool.false_eq_true, if_false, above, Mem.parent_setColor, hparent]
  rfl

/-- Cases 4 and 5: with a black uncle one or two rotations finish the work. -/
theorem insertLoop_black_uncle {s s' : Side} {c c' : Color} {p g : ι} {u v : RedBlack.Tree ι}
    (h : At m d (⟨s, c, p, u⟩ :: ⟨s', c', g, v⟩ :: ctx) t) (hx : t.root? = some x)
    (hc : c ≠ .black) (hv : v.color ≠ .red) (fuel : ℕ) :
    insertLoop (fuel + 1) m x =
      (do
        let (m, new) ← insertCase4 m x
        let m ← insertCase5 m new
        insertLoop fuel m new) := by
  have hrep := (at_flip.mp (at_cons.mp h)).rep
  simp [insertLoop, h.isRoot_eq hx, h.isBlack_parent hx, hc, h.rbUncle_eq hx, isRed_root? hrep, hv]

/-- **The loop of `navi_rb_insert` is `RedBlack.insertFix`.** -/
theorem insertLoop_eq (h : At m d ctx t) (hx : t.root? = some x)
    (hfix : insertFix t ctx = some t') {fuel : ℕ} (hfuel : ctx.length < fuel) :
    ∃ m', insertLoop fuel m x = .ok m' ∧ At m' d [] t' := by
  induction t, ctx using insertFix.induct generalizing m x fuel with
  | case1 t =>
    obtain ⟨fuel, rfl⟩ : ∃ k, fuel = k + 1 := ⟨fuel - 1, by simp at hfuel; omega⟩
    obtain rfl : t.blacken = t' := by simpa [insertFix] using hfix
    exact ⟨_, insertLoop_root h hx fuel, h.blacken hx⟩
  | case2 t s p u =>
    obtain ⟨fuel, rfl⟩ : ∃ k, fuel = k + 1 := ⟨fuel - 1, by simp at hfuel; omega⟩
    obtain rfl : RedBlack.Tree.join s .black t p u = t' := by simpa [insertFix] using hfix
    exact ⟨m, insertLoop_black h hx rfl fuel, at_cons.mp h⟩
  | case3 t s c p u hc => simp [insertFix, hc] at hfix
  | case4 t s p u s' c' g v ctx =>
    obtain ⟨fuel, rfl⟩ : ∃ k, fuel = k + 1 := ⟨fuel - 1, by simp at hfuel; omega⟩
    simp only [insertFix, if_true, Option.some.injEq] at hfix
    refine ⟨m, insertLoop_black h hx rfl fuel, ?_⟩
    rw [← hfix]
    exact at_plug.mp h
  | case5 t s c p u s' c' g v ctx hc hv ih =>
    obtain ⟨fuel, rfl⟩ : ∃ k, fuel = k + 1 := ⟨fuel - 1, by simp at hfuel; omega⟩
    simp only [insertFix, if_neg hc, if_pos hv] at hfix
    obtain ⟨m₁, hstep, hat⟩ := insertLoop_red_uncle h hx hc hv fuel
    rw [hstep]
    exact ih hat (by simp) hfix (by simp at hfuel; omega)
  | case6 t c p u s c' g v ctx hc hv =>
    obtain ⟨fuel, rfl⟩ : ∃ k, fuel = k + 2 := ⟨fuel - 2, by simp at hfuel; omega⟩
    simp only [insertFix, if_neg hc, if_neg hv, if_true, Option.some.injEq] at hfix
    obtain ⟨m₁, h₁, hat₁⟩ := insertCase5_eq h hx
    refine ⟨m₁, ?_, ?_⟩
    · rw [insertLoop_black_uncle h hx hc hv, insertCase4_same h hx]
      simp only [ok_bind, h₁]
      exact insertLoop_black hat₁ hx rfl fuel
    · rw [← hfix]
      exact at_plug.mp (at_cons.mp hat₁)
  | case7 s c p u s' c' g v ctx hc hv hs => simp at hx
  | case8 s c p u s' c' g v ctx hc hv hs c₂ l y r =>
    obtain ⟨fuel, rfl⟩ : ∃ k, fuel = k + 2 := ⟨fuel - 2, by simp at hfuel; omega⟩
    simp only [insertFix, if_neg hc, if_neg hv, if_neg hs, Option.some.injEq] at hfix
    obtain rfl : c = .red := by cases c <;> simp at hc ⊢
    obtain rfl : s = s'.flip := (Side.eq_or_eq_flip s' s).resolve_left hs
    obtain rfl : y = x := by simpa using hx
    obtain ⟨tn, tf, hjoin⟩ := RedBlack.Tree.exists_eq_join s' l y r
    rw [hjoin] at h hx hfix
    obtain ⟨m₁, h₁, hat₁⟩ := insertCase4_flip h
    obtain ⟨m₂, h₂, hat₂⟩ := insertCase5_eq hat₁ (x := p) (by simp)
    refine ⟨m₂, ?_, ?_⟩
    · rw [insertLoop_black_uncle h hx hc hv, h₁]
      simp only [ok_bind, h₂]
      exact insertLoop_black hat₂ (by simp) rfl fuel
    · rw [RedBlack.Tree.child_join, RedBlack.Tree.child_flip_join] at hfix
      rw [← hfix]
      exact at_plug.mp (at_cons.mp hat₂)

/-! ### Attaching a new node -/

/-- Attaching a red node at an empty position. -/
theorem At.attach (h : At m d ctx .nil) (hx : x ∉ d :: ctx.nodes) (fuel : ℕ) :
    ∃ m', At m' d ctx (.node .red .nil x .nil) ∧
      naviRbInsert fuel m x (above d ctx) (above d ctx, sideOf ctx) = insertLoop fuel m' x := by
  refine ⟨_, ?_, rfl⟩
  have hxa : x ≠ above d ctx := fun hxa => hx (hxa ▸ above_mem d ctx)
  have hfresh : ∀ y ∈ d :: ctx.nodes, y ≠ x := fun y hy hyx => hx (hyx ▸ hy)
  have hctx : RepC ((((m.setChild .left x none).setChild .right x none).setColor x
      .rbRed).setParent x (some (above d ctx))) d none ctx :=
    h.repC.congr fun y hy => ⟨fun s => by simp [hfresh y hy], by simp [hfresh y hy],
      by simp [hfresh y hy]⟩
  refine ⟨⟨⟨?_, ?_, ?_, ?_⟩, trivial, trivial⟩, hctx.setChild h.nodup_ctx _, ?_⟩
  · simp [hxa]
  · simp [hxa]
  · simp
  · simp [toRbColor]
  · have hnodup := h.nodup_ctx
    simp only [List.mem_cons, not_or] at hx
    simp only [List.nodup_cons] at hnodup
    simp [Ne.symm hx.1, hx.2, hnodup.1, hnodup.2]

end Loop

/-! ### The descent of `slab_insert` -/

section Descent

variable [LinearOrder ι] {m : Mem ι}

/-- The position below `ctx` where a search for `x` in a tree ends. -/
def searchPath (x : ι) : RedBlack.Tree ι → Ctx ι → Ctx ι
  | .nil, ctx => ctx
  | .node c l y r, ctx =>
    if x < y then searchPath x l (⟨.left, c, y, r⟩ :: ctx)
    else searchPath x r (⟨.right, c, y, l⟩ :: ctx)

theorem plug_searchPath (x : ι) (t : RedBlack.Tree ι) (ctx : Ctx ι) :
    (searchPath x t ctx).plug .nil = ctx.plug t := by
  induction t generalizing ctx with
  | nil => rfl
  | node c l y r ihl ihr =>
    rw [searchPath]
    split
    · exact ihl _
    · exact ihr _

/-- The search goes right of the smaller nodes and left of the larger ones. -/
theorem searchPath_order {x : ι} {t : RedBlack.Tree ι} (ctx : Ctx ι)
    (ht : t.toList.Pairwise (· < ·))
    (hx : x ∉ t.toList) (hb : ∀ y ∈ ctx.before, y < x) (ha : ∀ y ∈ ctx.after, x < y) :
    (∀ y ∈ (searchPath x t ctx).before, y < x) ∧ ∀ y ∈ (searchPath x t ctx).after, x < y := by
  induction t generalizing ctx with
  | nil => exact ⟨hb, ha⟩
  | node c l y r ihl ihr =>
    simp only [RedBlack.Tree.toList_node, List.pairwise_append, List.pairwise_cons, List.mem_append,
      List.mem_cons, not_or] at ht hx
    obtain ⟨hl, ⟨hyr, hr⟩, hlr⟩ := ht
    obtain ⟨hxl, hxy, hxr⟩ := hx
    rw [searchPath]
    split
    · rename_i hlt
      refine ihl _ hl hxl hb fun z hz => ?_
      simp only [Ctx.after, List.cons_append, List.mem_cons, List.mem_append] at hz
      rcases hz with rfl | hz | hz
      · exact hlt
      · exact lt_trans hlt (hyr z hz)
      · exact ha z hz
    · rename_i hlt
      have hgt : y < x := lt_of_le_of_ne (not_lt.mp hlt) (Ne.symm hxy)
      refine ihr _ hr hxr (fun z hz => ?_) ha
      simp only [Ctx.before, List.mem_append, List.mem_singleton] at hz
      rcases hz with hz | hz | rfl
      · exact hb z hz
      · exact lt_trans (hlr z hz y (.inl rfl)) hgt
      · exact hgt

/-- **The descent follows the search path.** -/
theorem descend_eq (h : At m d ctx t) {fuel : ℕ} (hfuel : t.toList.length < fuel) :
    descend fuel m x (above d ctx) (above d ctx, sideOf ctx) =
      .ok (above d (searchPath x t ctx), (above d (searchPath x t ctx),
        sideOf (searchPath x t ctx))) := by
  induction t generalizing ctx fuel with
  | nil =>
    obtain ⟨fuel, rfl⟩ : ∃ k, fuel = k + 1 := ⟨fuel - 1, by omega⟩
    simp [descend, h.child_above, searchPath]
  | node c l y r ihl ihr =>
    obtain ⟨fuel, rfl⟩ : ∃ k, fuel = k + 1 := ⟨fuel - 1, by omega⟩
    simp only [RedBlack.Tree.toList_node, List.length_append, List.length_cons] at hfuel
    rw [descend, searchPath]
    simp only [h.child_above, RedBlack.Tree.root?_node]
    split
    · exact ihl (at_cons (s := .left).mpr h) (by omega)
    · exact ihr (at_cons (s := .right).mpr h) (by omega)

/-- Inserting a fresh node into a balanced tree ends, follows no null pointer, and gives a
balanced tree with the node where the search for it ended. -/
theorem slabInsert_searchPath {k : ℕ} (h : At m d [] t) (hbal : RedBlack.Balanced t .black k)
    (hx : x ∉ d :: t.toList) {fuel : ℕ} (hfuel : t.toList.length < fuel) :
    ∃ m' t' k', slabInsert fuel d m x = .ok m' ∧ At m' d [] t' ∧ RedBlack.Balanced t' .black k' ∧
      t.toList = (searchPath x t []).before ++ (searchPath x t []).after ∧
      t'.toList = (searchPath x t []).before ++ x :: (searchPath x t []).after := by
  set ctx := searchPath x t [] with hctx
  have hplug : ctx.plug .nil = t := plug_searchPath x t []
  have hat : At m d ctx .nil := at_plug.mpr (by rwa [hplug])
  have hperm : t.toList.Perm ctx.nodes := by simpa [hplug] using Ctx.toList_plug_perm ctx .nil
  obtain ⟨m₁, hat₁, hattach⟩ := hat.attach (x := x) (by simpa [← hperm.mem_iff] using hx) fuel
  rw [← hplug] at hbal
  obtain ⟨c, n, hnil, hfits⟩ := hbal.split
  cases hnil
  obtain ⟨t', k', hfix, hbal'⟩ :=
    insertFix_balanced (t := .node .red .nil x .nil) (.red .nil .nil) hfits
  have hlen : ctx.length < fuel := by
    have hle := Ctx.length_le_nodes ctx
    rw [← hperm.length_eq] at hle
    omega
  obtain ⟨m', hloop, hat'⟩ := insertLoop_eq hat₁ rfl hfix hlen
  refine ⟨m', t', k', ?_, hat', hbal', ?_, ?_⟩
  · have hdesc : descend fuel m x d (d, .left) = _ := descend_eq h hfuel
    rw [slabInsert, hdesc]
    exact hattach.trans hloop
  · simpa [hplug] using Ctx.toList_plug ctx .nil
  · rw [insertFix_toList hfix, Ctx.toList_plug]
    simp

/-- In an ordered tree the search ends between the smaller nodes and the larger ones. -/
theorem searchPath_between (hord : t.toList.Pairwise (· < ·)) (hx : x ∉ t.toList) :
    (∀ y ∈ (searchPath x t []).before, y < x) ∧ ∀ y ∈ (searchPath x t []).after, x < y :=
  searchPath_order [] hord hx (by simp [Ctx.before]) (by simp [Ctx.after])

/-- **Inserting a fresh node into a balanced tree** ends, follows no null pointer, and
gives the balanced tree with the node put in its place. -/
theorem slabInsert_spec {k : ℕ} (h : At m d [] t) (hbal : RedBlack.Balanced t .black k)
    (hord : t.toList.Pairwise (· < ·)) (hx : x ∉ d :: t.toList) {fuel : ℕ}
    (hfuel : t.toList.length < fuel) :
    ∃ m' t' k', slabInsert fuel d m x = .ok m' ∧ At m' d [] t' ∧ RedBlack.Balanced t' .black k' ∧
      t'.toList.Pairwise (· < ·) ∧ ∀ y, y ∈ t'.toList ↔ y = x ∨ y ∈ t.toList := by
  obtain ⟨m', t', k', hins, hat', hbal', hlist, hlist'⟩ := slabInsert_searchPath h hbal hx hfuel
  obtain ⟨hbefore, hafter⟩ := searchPath_between hord (List.not_mem_of_not_mem_cons hx)
  refine ⟨m', t', k', hins, hat', hbal', ?_, fun y => ?_⟩
  · rw [hlist, List.pairwise_append] at hord
    rw [hlist', List.pairwise_append, List.pairwise_cons]
    refine ⟨hord.1, ⟨hafter, hord.2.1⟩, fun y hy z hz => ?_⟩
    rcases List.mem_cons.mp hz with rfl | hz
    · exact hbefore y hy
    · exact hord.2.2 y hy z hz
  · rw [hlist, hlist']
    simp only [List.mem_append, List.mem_cons]
    tauto

/-- **Insertion into any balanced tree**: it ends and follows no null pointer, and the tree is
then balanced, with the node inserted in its order; where the order was increasing, between
the smaller nodes and the larger ones. -/
theorem slabInsert_inserts {k : ℕ} (h : At m d [] t) (hbal : RedBlack.Balanced t .black k)
    (hx : x ∉ d :: t.toList) :
    ∃ N, ∀ fuel ≥ N, ∃ m' t' k' before after, slabInsert fuel d m x = .ok m' ∧ At m' d [] t' ∧
      RedBlack.Balanced t' .black k' ∧ t.toList = before ++ after ∧
      t'.toList = before ++ x :: after ∧
      (t.toList.Pairwise (· < ·) → (∀ y ∈ before, y < x) ∧ ∀ y ∈ after, x < y) := by
  refine ⟨t.toList.length + 1, fun fuel hfuel => ?_⟩
  obtain ⟨m', t', k', hins, hat', hbal', hlist, hlist'⟩ :=
    slabInsert_searchPath h hbal hx (Nat.lt_of_succ_le hfuel)
  exact ⟨m', t', k', _, _, hins, hat', hbal', hlist, hlist',
    fun hord => searchPath_between hord (List.not_mem_of_not_mem_cons hx)⟩

/-- The memory of a tree with dummy root `9`, a black node `2` and its red child `1`. -/
def twoNodes : Mem ℕ where
  child s x := if s = .left then (if x = 9 then some 2 else if x = 2 then some 1 else none) else none
  parent x := if x = 2 then some 9 else if x = 1 then some 2 else none
  color x := if x = 9 then .rbRootMark else if x = 2 then .rbBlack else .rbRed

/-- The theorem at a tree of two nodes. -/
theorem slabInsert_inserts_twoNodes :
    ∃ N, ∀ fuel ≥ N, ∃ m' t' k' before after, slabInsert fuel 9 twoNodes 3 = .ok m' ∧
      At m' 9 [] t' ∧ RedBlack.Balanced t' .black k' ∧ [1, 2] = before ++ after ∧
      t'.toList = before ++ 3 :: after ∧
      ([1, 2].Pairwise (· < ·) → (∀ y ∈ before, y < 3) ∧ ∀ y ∈ after, 3 < y) :=
  slabInsert_inserts (t := .node .black (.node .red .nil 1 .nil) 2 .nil)
    ⟨⟨⟨rfl, rfl, rfl, rfl⟩, ⟨⟨rfl, rfl, rfl, rfl⟩, trivial, trivial⟩, trivial⟩,
      ⟨rfl, rfl, rfl, rfl⟩, by decide⟩
    (.black (.red .nil .nil) .nil) (by decide)

end Descent

end NaviScheme
