import NaviScheme.RbTree.Erase
import NaviScheme.RbTree.Iterate

/-!
# Runs that come to an end

A removal can leave a tree that is not balanced, and then a later operation can follow a null
pointer. What no operation does is to end with wrong links. An insertion below a red root stops at
the dummy root, which has no parent (`NaviScheme.insertLoop_red_root`), and elsewhere the repair
keeps the order. So after any run of operations that ends, `rb_for_each` comes to the nodes
inserted and not yet removed, each once and in order (`NaviScheme.rbForEach_rbRun`).
-/

namespace NaviScheme

open RedBlack

section Insertion

variable {ι : Type} [DecidableEq ι] {m m' : Mem ι} {d x n : ι} {ctx : Ctx ι}
  {t t' : RedBlack.Tree ι} {fuel fuel' : ℕ}

/-- A rotation at the dummy root follows a null pointer. -/
theorem rotate_of_parent_none (h : m.parent n = none) (s : Side) :
    rotate s m n = .error .nullDeref := by
  simp only [rotate, replace, h]
  rfl

/-- Case 5 below the root rotates at the dummy root. -/
theorem insertCase5_root {p : ι} (hx : m.parent x = some p) (hp : m.parent p = some d)
    (hd : m.parent d = none) : ∃ e, insertCase5 m x = .error e := by
  have hrot := fun s => rotate_of_parent_none (m := (m.setColor p .rbBlack).setColor d .rbRed)
    (n := d) hd s
  rw [insertCase5, hx]
  simp only [deref_some, ok_bind, Mem.parent_setColor, hp, rotateRight, rotateLeft, hrot]
  cases isLeftChild ((m.setColor p .rbBlack).setColor d .rbRed) x with
  | error e => exact ⟨e, rfl⟩
  | ok b =>
    cases isLeftChild ((m.setColor p .rbBlack).setColor d .rbRed) p with
    | error e => exact ⟨e, rfl⟩
    | ok b' => exact ⟨.nullDeref, ite_self _⟩


omit [DecidableEq ι] in
theorem At.parent_dummy (h : At m d [] t) : m.parent d = none := h.repC.parent

/-- Below a red root the repair goes above the tree, and stops at a null pointer. -/
theorem insertLoop_red_root {f : Frame ι} (h : At m d [f] t) (hx : t.root? = some x)
    (hf : f.color ≠ .black) (fuel : ℕ) : ∃ e, insertLoop fuel m x = .error e := by
  obtain ⟨s, c, p, u⟩ := f
  obtain _ | fuel := fuel
  · exact ⟨_, rfl⟩
  have hp := at_cons.mp h
  have hparent : m.parent p = some d := hp.parent_eq (n := p) (by simp)
  have hleft : m.left d = some p := hp.child_above.trans (by simp)
  have hright : m.right d = none := hp.repC.far
  have huncle : rbUncle m x = .ok none := by
    rw [rbUncle, h.parent_eq hx]
    simp only [deref_some, ok_bind, above, hparent, hleft, hright, if_true]
    rfl
  have hside := fun r => hp.isChild_eq (n := p) (by simp) r
  simp only at hf
  simp only [insertLoop, h.isRoot_eq hx, h.isBlack_parent hx, huncle, hf]
  have hfour : ∃ m₁ y q, insertCase4 m x = .ok (m₁, y) ∧ m₁.parent y = some q ∧
      m₁.parent q = some d ∧ m₁.parent d = none := by
    cases s with
    | left =>
      refine ⟨m, x, p, ?_, h.parent_eq hx, hparent, hp.parent_dummy⟩
      rw [insertCase4, h.parent_eq hx]
      simp only [deref_some, ok_bind, isLeftChild, isRightChild, h.isChild_eq hx, above,
        hside, sideOf]
      rfl
    | right =>
      obtain ⟨c₂, tn, tf, rfl⟩ := RedBlack.Tree.eq_join_of_root? .left hx
      have hrot : At m d [] (.join .left c u p (.join .left c₂ tn x tf)) := hp
      obtain ⟨m₁, hm₁, hat⟩ := hrot.rotate
      have hbelow := at_cons.mpr hat
      have hnear : m₁.left x = some p := hbelow.child_above.trans (by simp)
      refine ⟨m₁, p, x, ?_, hbelow.parent_eq (by simp), hat.parent_eq (by simp), hat.parent_dummy⟩
      rw [insertCase4, h.parent_eq hx]
      simp only [deref_some, ok_bind, isLeftChild, isRightChild, h.isChild_eq hx, above, hside,
        sideOf]
      simp [rotateLeft, hm₁, hnear]
  obtain ⟨m₁, y, q, hcase, hy, hq, hd⟩ := hfour
  obtain ⟨e, he⟩ := insertCase5_root hy hq hd
  refine ⟨e, ?_⟩
  simp [hcase, he]

/-- The repair of an insertion does not depend on the bound. -/
theorem insertLoop_mono (hle : fuel ≤ fuel') (h : insertLoop fuel m x = .ok m') :
    insertLoop fuel' m x = .ok m' := by
  induction fuel generalizing fuel' m x with
  | zero => cases h
  | succ fuel ih =>
    obtain ⟨fuel', rfl⟩ : ∃ k, fuel' = k + 1 := ⟨fuel' - 1, by omega⟩
    rw [insertLoop] at h ⊢
    obtain ⟨b, hroot, h⟩ := bind_eq_ok h
    rw [hroot, ok_bind]
    cases b with
    | true => exact h
    | false =>
      simp only [Bool.false_eq_true, if_false] at h ⊢
      split_ifs at h ⊢ with hblack
      · exact h
      obtain ⟨uncle, huncle, h⟩ := bind_eq_ok h
      rw [huncle, ok_bind]
      split_ifs at h ⊢ with hred
      · obtain ⟨p, hp, h⟩ := bind_eq_ok h
        obtain ⟨u, hu, h⟩ := bind_eq_ok h
        obtain ⟨g, hg, h⟩ := bind_eq_ok h
        rw [hp, ok_bind, hu, ok_bind, hg, ok_bind]
        exact ih (by omega) h
      · obtain ⟨r, hr, h⟩ := bind_eq_ok h
        obtain ⟨m₂, hm₂, h⟩ := bind_eq_ok h
        rw [hr, ok_bind, hm₂, ok_bind]
        exact ih (by omega) h

/-- **A repair that comes to an end is `RedBlack.insertFix`.** -/
theorem insertLoop_done (h : At m d ctx t) (hx : t.root? = some x)
    (hloop : insertLoop fuel m x = .ok m') :
    ∃ t', insertFix t ctx = some t' ∧ At m' d [] t' := by
  obtain ⟨t', hfix⟩ : ∃ t', insertFix t ctx = some t' := by
    induction t, ctx using insertFix.induct generalizing m x fuel with
    | case1 t => exact ⟨_, rfl⟩
    | case2 t s p u => exact ⟨_, by simp only [insertFix, if_true]; rfl⟩
    | case3 t s c p u hc =>
      obtain ⟨e, he⟩ := insertLoop_red_root h hx hc fuel
      cases he.symm.trans hloop
    | case4 t s p u s' c' g v ctx => exact ⟨_, by simp only [insertFix, if_true]; rfl⟩
    | case5 t s c p u s' c' g v ctx hc hv ih =>
      obtain _ | fuel := fuel
      · cases hloop
      obtain ⟨m₁, hstep, hat⟩ := insertLoop_red_uncle h hx hc hv fuel
      simpa only [insertFix, if_neg hc, if_pos hv] using ih hat (by simp) (hstep ▸ hloop)
    | case6 t c p u s c' g v ctx hc hv =>
      exact ⟨_, by simp only [insertFix, if_neg hc, if_neg hv, if_true]; rfl⟩
    | case7 s c p u s' c' g v ctx hc hv hs => simp at hx
    | case8 s c p u s' c' g v ctx hc hv hs c₂ l y r =>
      exact ⟨_, by simp only [insertFix, if_neg hc, if_neg hv, if_neg hs]; rfl⟩
  obtain ⟨m₁, hm₁, hat⟩ := insertLoop_eq h hx hfix (Nat.lt_of_succ_le (le_max_right fuel _))
  cases (insertLoop_mono (le_max_left fuel _) hloop).symm.trans hm₁
  exact ⟨t', hfix, hat⟩

end Insertion

section Run

variable {ι : Type} [LinearOrder ι] {m m' : Mem ι} {tree x y : ι} {t t' : RedBlack.Tree ι}
  {fuel fuel' : ℕ}

theorem descend_mono {parent : ι} {p : ι × Side} {r : ι × (ι × Side)} (hle : fuel ≤ fuel')
    (h : descend fuel m x parent p = .ok r) : descend fuel' m x parent p = .ok r := by
  induction fuel generalizing fuel' parent p with
  | zero => cases h
  | succ fuel ih =>
    obtain ⟨fuel', rfl⟩ : ∃ k, fuel' = k + 1 := ⟨fuel' - 1, by omega⟩
    rw [descend] at h ⊢
    cases hp : m.child p.2 p.1 with
    | none => rwa [hp] at h
    | some ptr =>
      rw [hp] at h
      exact ih (by omega) h

/-- The tree that `slab_insert` leaves. -/
def treeInsert (t : RedBlack.Tree ι) (x : ι) : Option (RedBlack.Tree ι) :=
  insertFix (.node .red .nil x .nil) (searchPath x t [])

/-- A node is inserted between the smaller nodes and the larger ones. -/
theorem treeInsert_toList (h : treeInsert t x = some t') :
    t.toList = (searchPath x t []).before ++ (searchPath x t []).after ∧
      t'.toList = (searchPath x t []).before ++ x :: (searchPath x t []).after := by
  have hplug : (searchPath x t []).plug .nil = t := plug_searchPath x t []
  refine ⟨by simpa [hplug] using Ctx.toList_plug (searchPath x t []) .nil, ?_⟩
  rw [insertFix_toList h, Ctx.toList_plug]
  simp

theorem mem_treeInsert (h : treeInsert t x = some t') : y ∈ t'.toList ↔ y = x ∨ y ∈ t.toList := by
  obtain ⟨hlist, hlist'⟩ := treeInsert_toList h
  rw [hlist, hlist', List.perm_middle.mem_iff, List.mem_cons]

theorem treeInsert_ordered (h : treeInsert t x = some t') (hord : t.toList.Pairwise (· < ·))
    (hx : x ∉ t.toList) : t'.toList.Pairwise (· < ·) := by
  obtain ⟨hlist, hlist'⟩ := treeInsert_toList h
  obtain ⟨hbefore, hafter⟩ := searchPath_between hord hx
  rw [hlist, List.pairwise_append] at hord
  rw [hlist']
  refine List.pairwise_append.mpr ⟨hord.1, hord.2.1.cons hafter, fun y hy z hz => ?_⟩
  exact (List.mem_cons.mp hz).elim (fun hzx => hzx ▸ hbefore y hy) (hord.2.2 y hy z)

/-- **An insertion that comes to an end** leaves the tree that it should. -/
theorem slabInsert_treeInsert (h : At m tree [] t) (hx : x ∉ tree :: t.toList)
    (hins : slabInsert fuel tree m x = .ok m') :
    ∃ t', treeInsert t x = some t' ∧ At m' tree [] t' := by
  set ctx := searchPath x t [] with hctx
  have hplug : ctx.plug .nil = t := plug_searchPath x t []
  have hat : At m tree ctx .nil := at_plug.mpr (by rwa [hplug])
  have hperm : t.toList.Perm ctx.nodes := by simpa [hplug] using Ctx.toList_plug_perm ctx .nil
  obtain ⟨r, hr, hins⟩ := bind_eq_ok hins
  have hdesc : descend (max fuel (t.toList.length + 1)) m x tree (tree, .left) = _ :=
    descend_eq h (Nat.lt_of_succ_le (le_max_right _ _))
  cases (descend_mono (le_max_left _ _) hr).symm.trans hdesc
  obtain ⟨m₁, hat₁, hattach⟩ := hat.attach (x := x) (by simpa [← hperm.mem_iff] using hx) fuel
  exact insertLoop_done hat₁ rfl (hattach.symm.trans hins)

/-- **An insertion that comes to an end** puts the node in its place, in an ordered tree with any
colouring. -/
theorem slabInsert_done (h : At m tree [] t) (hord : t.toList.Pairwise (· < ·))
    (hx : x ∉ tree :: t.toList) (hins : slabInsert fuel tree m x = .ok m') :
    ∃ t', At m' tree [] t' ∧ t'.toList.Pairwise (· < ·) ∧
      ∀ y, y ∈ t'.toList ↔ y = x ∨ y ∈ t.toList := by
  obtain ⟨t', htree, hat⟩ := slabInsert_treeInsert h hx hins
  exact ⟨t', hat, treeInsert_ordered htree hord (List.not_mem_of_not_mem_cons hx),
    fun y => mem_treeInsert htree⟩

/-- One operation that comes to an end, on the set of live nodes. -/
theorem rbStep_done {S : Finset ι} (h : At m tree [] t) (hlist : t.toList = S.sort (· ≤ ·))
    {op : RbOp ι} (hop : op.Allowed tree S) (hstep : rbStep fuel tree m op = .ok m') :
    ∃ t', At m' tree [] t' ∧ t'.toList = (op.apply S).sort (· ≤ ·) := by
  have hord : t.toList.Pairwise (· < ·) := by
    rw [hlist]
    exact (Finset.sortedLT_sort S).pairwise
  have hmem : ∀ y, y ∈ t.toList ↔ y ∈ S := fun y => by rw [hlist, Finset.mem_sort]
  cases op with
  | insert x =>
    obtain ⟨t', hat, hord', hmem'⟩ := slabInsert_done (x := x) h hord
      (by simpa [hmem, not_or, RbOp.Allowed] using hop) hstep
    refine ⟨t', hat, eq_sort hord' fun y => ?_⟩
    rw [hmem', hmem, RbOp.apply, Finset.mem_insert]
  | remove x =>
    obtain ⟨t', hat, hlist'⟩ := naviRbRemove_erases h ((hmem x).mpr hop) hstep
    refine ⟨t', hat, eq_sort ?_ fun y => ?_⟩
    · rw [hlist']
      exact hord.sublist List.erase_sublist
    · rw [hlist', List.Nodup.mem_erase_iff (hord.imp ne_of_lt), hmem, RbOp.apply, Finset.mem_erase]

/-- A run that comes to an end, from any tree on. -/
theorem rbRun_done {ops : List (RbOp ι)} {S : Finset ι} (h : At m tree [] t)
    (hlist : t.toList = S.sort (· ≤ ·)) (hvalid : ValidFrom tree S ops)
    (hrun : rbRun fuel tree m ops = .ok m') :
    ∃ t', At m' tree [] t' ∧ t'.toList = (ops.foldl RbOp.apply S).sort (· ≤ ·) := by
  induction ops generalizing m t S with
  | nil =>
    cases hrun
    exact ⟨t, h, hlist⟩
  | cons op ops ih =>
    obtain ⟨m₁, hstep, hrun⟩ := bind_eq_ok hrun
    obtain ⟨t₁, hat, hlist₁⟩ := rbStep_done h hlist hvalid.1 hstep
    exact ih hat hlist₁ hvalid.2 hrun

/-- **After a run that comes to an end, `rb_for_each` comes to the nodes inserted and not yet
removed**, each once and in order, whatever the run has done to the colours. -/
theorem rbForEach_rbRun {ops : List (RbOp ι)} (hvalid : ValidFrom tree ∅ ops)
    (hrun : rbRun fuel tree (rbRootInit m tree) ops = .ok m') :
    ∃ N, ∀ fuel' ≥ N, rbForEach fuel' m' tree = .ok ((live ops).sort (· ≤ ·)) := by
  obtain ⟨t, hat, hlist⟩ := rbRun_done (at_rbRootInit m tree) (Finset.sort_empty _).symm hvalid hrun
  refine ⟨t.toList.length + 2, fun fuel' hfuel => ?_⟩
  rw [hat.rbForEach_eq hfuel, hlist]
  rfl

/-- The theorem at a run whose removal climbs to the root. -/
theorem rbForEach_rbRun_climb :
    ∃ N, ∀ fuel' ≥ N, ∃ m', rbRun 20 100 (rbRootInit blankMem 100) (climbOps.take 5) = .ok m' ∧
      rbForEach fuel' m' 100 = .ok [0, 2, 7] := by
  obtain ⟨m', hrun⟩ : ∃ m', rbRun 20 100 (rbRootInit blankMem 100) (climbOps.take 5) = .ok m' :=
    ⟨_, rfl⟩
  have hlive : live (climbOps.take 5) = {0, 2, 7} := by decide
  have hsort : [0, 2, 7] = (live (climbOps.take 5)).sort (· ≤ ·) :=
    eq_sort (by decide) fun y => by simp [hlive]
  obtain ⟨N, hN⟩ := rbForEach_rbRun (by decide) hrun
  exact ⟨N, fun fuel' hfuel => ⟨m', hrun, hsort ▸ hN fuel' hfuel⟩⟩

end Run

end NaviScheme
