import NaviScheme.RbTree.Run

/-!
# What a removal leaves

In any tree, of any shape and with any colouring, `navi_rb_remove` erases the node from the
order if it follows no null pointer (`NaviScheme.naviRbRemove_erases`).

In a balanced tree it leaves a balanced one exactly if the walk does not climb to the root
below a red child (`NaviScheme.naviRbRemove_balanced_iff`): otherwise every sibling on the
path has turned red, and the child in the place of the removed node has turned black instead
of making up for it.
-/

namespace NaviScheme

open RedBlack

variable {ι : Type} {m m' m₁ : Mem ι} {d n v v' : ι} {ctx : Ctx ι} {t t' : RedBlack.Tree ι}
  {fuel fuel' : ℕ}

/-! ### Larger bounds -/

theorem naviRbLast_mono (hle : fuel ≤ fuel') (h : naviRbLast fuel m n = .ok v) :
    naviRbLast fuel' m n = .ok v := by
  induction fuel generalizing fuel' n with
  | zero => cases h
  | succ fuel ih =>
    obtain ⟨fuel', rfl⟩ : ∃ k, fuel' = k + 1 := ⟨fuel' - 1, by omega⟩
    rw [naviRbLast] at h ⊢
    cases hr : m.right n with
    | none => rwa [hr] at h
    | some r =>
      rw [hr] at h
      exact ih (by omega) h

/-- The last node on the right-hand path does not depend on the bound. -/
theorem naviRbLast_unique (h : naviRbLast fuel m n = .ok v) (h' : naviRbLast fuel' m n = .ok v') :
    v = v' := by
  have hmax := naviRbLast_mono (le_max_left fuel fuel') h
  rw [naviRbLast_mono (le_max_right fuel fuel') h'] at hmax
  exact (Except.ok.inj hmax).symm

variable [DecidableEq ι]

theorem removeLoop_mono (hle : fuel ≤ fuel') (h : removeLoop fuel m n = .ok (m', v)) :
    removeLoop fuel' m n = .ok (m', v) := by
  induction fuel generalizing fuel' m n with
  | zero => cases h
  | succ fuel ih =>
    obtain ⟨fuel', rfl⟩ : ∃ k, fuel' = k + 1 := ⟨fuel' - 1, by omega⟩
    rw [removeLoop] at h ⊢
    obtain ⟨b, hroot, h⟩ := bind_eq_ok h
    rw [hroot, ok_bind]
    cases b with
    | true => exact h
    | false =>
      obtain ⟨m₂, hcase, h⟩ := bind_eq_ok h
      simp only [Bool.false_eq_true, if_false]
      rw [hcase, ok_bind]
      obtain ⟨sib, hsib, h⟩ := bind_eq_ok h
      rw [hsib, ok_bind]
      cases sib with
      | none => exact h
      | some s =>
        obtain ⟨p, hp, h⟩ := bind_eq_ok h
        simp only [hp, ok_bind]
        simp only at h
        split_ifs at h ⊢
        · exact ih (by omega) h
        · exact h
        · exact h

theorem unlink_mono (hle : fuel ≤ fuel') (h : unlink fuel m n = .ok m') :
    unlink fuel' m n = .ok m' := by
  simp only [unlink] at h ⊢
  by_cases hblack : isBlack m (some n) = true
  · rw [if_pos hblack] at h ⊢
    obtain ⟨r, hr, h⟩ := bind_eq_ok h
    rw [removeLoop_mono hle hr, ok_bind]
    exact h
  · rw [if_neg hblack] at h ⊢
    exact h

/-- A removal that is done does not depend on the bound. -/
theorem naviRbRemove_mono (hle : fuel ≤ fuel') (h : naviRbRemove fuel m n = .ok m') :
    naviRbRemove fuel' m n = .ok m' := by
  rw [naviRbRemove] at h ⊢
  split at h
  · obtain ⟨p, hlast, h⟩ := bind_eq_ok h
    obtain ⟨m₂, hswap, h⟩ := bind_eq_ok h
    rw [naviRbLast_mono hle hlast, ok_bind, hswap, ok_bind]
    exact unlink_mono hle h
  · exact unlink_mono hle h

/-! ### Any tree -/

/-- **A removal that is done erases the node from the order**, in a tree of any shape and with
any colouring, and leaves all links consistent. -/
theorem naviRbRemove_erases (h : At m d [] t) (hn : n ∈ t.toList)
    (hrem : naviRbRemove fuel m n = .ok m') :
    ∃ t', At m' d [] t' ∧ t'.toList = t.toList.erase n := by
  have hfuel : t.toList.length < max fuel (t.toList.length + 1) :=
    (Nat.lt_succ_self _).trans_le (le_max_right _ _)
  obtain ⟨m₁, v, c, ctx, ctx₁, l, r, heq, hun⟩ := exists_unlinking h hn hfuel
  obtain ⟨u, hu⟩ : ∃ u, r = .nil ∧ u = l ∨ l = .nil ∧ u = r :=
    hun.child.elim (fun hl => ⟨r, .inr ⟨hl, rfl⟩⟩) fun hr => ⟨l, .inl ⟨hr, rfl⟩⟩
  have hdone := (naviRbRemove_mono (le_max_left _ _) hrem).symm.trans heq
  obtain ⟨hnone, hsome⟩ := unlink_eq hun.after hu (hun.length.trans_lt hfuel)
  cases hfix : unlinkFix c ctx₁ with
  | none =>
    rw [hnone hfix] at hdone
    cases hdone
  | some res =>
    obtain ⟨ctx', b⟩ := res
    obtain ⟨m₂, hm₂, hat⟩ := hsome ctx' b hfix
    rw [hm₂] at hdone
    cases hdone
    refine ⟨_, at_plug.mp hat, ?_⟩
    rw [← hun.order, ← toList_plug_child hu hun.after.nodup_plug (unlinkFix_order hfix)]
    refine Ctx.toList_plug_congr ctx' ?_
    split
    · exact RedBlack.Tree.toList_blacken u
    · rfl

/-- The memory of a tree with dummy root `9` and a black node `2` with red children `1` and
`3`. -/
def threeNodes : Mem ℕ where
  child s x := match s with
    | .left => if x = 9 then some 2 else if x = 2 then some 1 else none
    | .right => if x = 2 then some 3 else none
  parent x := if x = 2 then some 9 else if x = 1 ∨ x = 3 then some 2 else none
  color x := if x = 9 then .rbRootMark else if x = 2 then .rbBlack else .rbRed

theorem at_threeNodes : At threeNodes 9 []
    (.node .black (.node .red .nil 1 .nil) 2 (.node .red .nil 3 .nil)) :=
  ⟨⟨⟨rfl, rfl, rfl, rfl⟩, ⟨⟨rfl, rfl, rfl, rfl⟩, trivial, trivial⟩,
    ⟨rfl, rfl, rfl, rfl⟩, trivial, trivial⟩, ⟨rfl, rfl, rfl, rfl⟩, by decide⟩

/-- The theorem at a root whose predecessor is its own left child. -/
theorem naviRbRemove_erases_threeNodes :
    ∃ m' t', naviRbRemove 4 threeNodes 2 = .ok m' ∧ At m' 9 [] t' ∧ t'.toList = [1, 3] := by
  obtain ⟨m', hrem⟩ : ∃ m', naviRbRemove 4 threeNodes 2 = .ok m' := ⟨_, rfl⟩
  obtain ⟨t', hat, hlist⟩ := naviRbRemove_erases at_threeNodes (by decide) hrem
  exact ⟨m', t', hrem, hat, hlist⟩

/-! ### Balanced trees -/

omit [DecidableEq ι] in
/-- A memory holds one tree at a root. -/
theorem Rep.unique {q q' : ι} (h : Rep m q t) (h' : Rep m q' t') (hroot : t.root? = t'.root?) :
    t = t' := by
  induction t generalizing q q' t' with
  | nil => exact (RedBlack.Tree.root?_eq_none.mp hroot.symm).symm
  | node c l x r ihl ihr =>
    cases t' with
    | nil => simp at hroot
    | node c' l' x' r' =>
      obtain rfl : x = x' := by simpa using hroot
      obtain ⟨hx, hl, hr⟩ := h
      obtain ⟨hx', hl', hr'⟩ := h'
      have hcolor := hx.color.symm.trans hx'.color
      obtain rfl : c = c' := by cases c <;> cases c' <;> simp [toRbColor] at hcolor ⊢
      rw [ihl hl hl' (hx.near.symm.trans hx'.near), ihr hr hr' (hx.far.symm.trans hx'.far)]

omit [DecidableEq ι] in
/-- **A memory holds one tree below a dummy root.** -/
theorem At.unique (h : At m d [] t) (h' : At m d [] t') : t = t' :=
  h.rep.unique h'.rep (h.child_above.symm.trans h'.child_above)

omit [DecidableEq ι] in
/-- The place where a node is unlinked. -/
theorem UnlinkedAt.unique (h : UnlinkedAt m n v) (h' : UnlinkedAt m n v') : v = v' := by
  rcases h with ⟨l, fuel, hl, hr, hlast⟩ | ⟨hnone, rfl⟩
  · rcases h' with ⟨l', fuel', hl', -, hlast'⟩ | ⟨hnone, -⟩
    · obtain rfl : l = l' := Option.some_inj.mp (hl.symm.trans hl')
      exact naviRbLast_unique hlast hlast'
    · rcases hnone with hnone | hnone
      · simp [hl] at hnone
      · exact absurd hnone hr
  · rcases h' with ⟨l', fuel', hl', hr', -⟩ | ⟨-, rfl⟩
    · rcases hnone with hnone | hnone
      · simp [hl'] at hnone
      · exact absurd hnone hr'
    · rfl

/-- Where case 3 applies all the way, the path is black. -/
theorem ClimbsToRoot.allBlack (h : ClimbsToRoot m n) (hat : At m d ctx t)
    (hn : t.root? = some n) : ctx.AllBlack := by
  induction h generalizing ctx t with
  | root hroot =>
    rw [hat.isRoot_eq hn] at hroot
    obtain rfl := List.isEmpty_iff.mp (Except.ok.inj hroot)
    exact fun f hf => absurd hf List.not_mem_nil
  | @step n p S hroot hp hs hblack hchildren hup ih =>
    cases ctx with
    | nil => simp [hat.isRoot_eq hn] at hroot
    | cons f ctx =>
      obtain ⟨s, c, x, u⟩ := f
      obtain rfl : x = p := Option.some_inj.mp ((hat.parent_eq hn).symm.trans hp)
      have hroot : u.root? = some S := Except.ok.inj ((hat.rbSibling_eq hn).symm.trans hs)
      have hrep := (at_flip.mp hat).rep
      obtain ⟨c', l, r, rfl⟩ : ∃ c' l r, u = .node c' l S r := by
        obtain ⟨c', l, r, hu⟩ := RedBlack.Tree.eq_join_of_root? .left hroot
        exact ⟨c', l, r, hu⟩
      have hc : c = .black := by
        have hx := hat.isBlack_parent hn
        rw [hat.parent_eq hn] at hx
        exact of_decide_eq_true (hx.symm.trans hblack.1)
      have hc' : c' = .black := of_decide_eq_true ((isBlack_root? hrep).symm.trans hblack.2)
      have hnode : NodeAt m S .left l.root? r.root? _ _ := hrep.1
      have hleft : m.left S = l.root? := hnode.near
      have hright : m.right S = r.root? := hnode.far
      have hl : l.color = .black := by
        have hcl := isBlack_root? hrep.2.1
        rw [← hleft] at hcl
        exact of_decide_eq_true (hcl.symm.trans hchildren.1)
      have hr : r.color = .black := by
        have hcr := isBlack_root? hrep.2.2
        rw [← hright] at hcr
        exact of_decide_eq_true (hcr.symm.trans hchildren.2)
      intro g hg
      rcases List.mem_cons.mp hg with rfl | hg
      · exact ⟨hc, l, S, r, by rw [hc'], hl, hr⟩
      · exact ih (at_cons.mp hat) (by simp) g hg

/-- A walk that climbs to the root below a red child leaves a tree that is not balanced. -/
theorem not_balanced_of_removeClimbs {k : ℕ} (h : At m d [] t)
    (hbal : RedBlack.Balanced t .black k) (hn : n ∈ t.toList) (hclimb : RemoveClimbs m n)
    (hfuel : t.toList.length < fuel) (hrem : naviRbRemove fuel m n = .ok m') (hat : At m' d [] t') :
    ∀ k', ¬ RedBlack.Balanced t' .black k' := by
  obtain ⟨m₁, w, c, ctx, ctx₁, l, r, heq, hun, hshape⟩ := exists_unlinking_shape h hn hfuel
  obtain ⟨v, hv, hroot, hblack, hred, hup⟩ := hclimb
  obtain rfl : v = w := hv.unique hun.unlinkedAt
  have hat₀ := hun.before
  have hnode : NodeAt m v .left l.root? r.root? _ _ := hat₀.rep.1
  have hleft : m.left v = l.root? := hnode.near
  have hright : m.right v = r.root? := hnode.far
  rw [hleft, hright, isRed_root? hat₀.rep.2.1, isRed_root? hat₀.rep.2.2] at hred
  obtain ⟨u, hu, hured⟩ : ∃ u, (r = .nil ∧ u = l ∨ l = .nil ∧ u = r) ∧ u.color = .red := by
    rcases hred with hred | hred
    · have hl : l.color = .red := of_decide_eq_true hred
      refine ⟨l, .inl ⟨hun.child.resolve_left fun hnil => ?_, rfl⟩, hl⟩
      simp [hnil] at hl
    · have hr : r.color = .red := of_decide_eq_true hred
      refine ⟨r, .inr ⟨hun.child.resolve_right fun hnil => ?_, rfl⟩, hr⟩
      simp [hnil] at hr
  obtain rfl : c = .black := of_decide_eq_true ((isBlack_root? hat₀.rep).symm.trans hblack)
  have hall : ctx₁.AllBlack := allBlack_of_shape (hup.allBlack hat₀ rfl) hshape
  have hne : ctx ≠ [] := by
    rintro rfl
    rw [hat₀.isRoot_eq rfl] at hroot
    cases hroot
  obtain ⟨f, ctx₂, rfl⟩ : ∃ f ctx₂, ctx₁ = f :: ctx₂ := by
    cases ctx₁ with
    | nil => exact absurd (List.map_eq_nil_iff.mp hshape.symm) hne
    | cons f ctx₂ => exact ⟨f, ctx₂, rfl⟩
  obtain ⟨s, c, p, v'⟩ := f
  obtain ⟨ls, S, rs, ctx', rfl, hfix⟩ := removeFix_of_allBlack hall
  have hc : c = .black := (hall _ List.mem_cons_self).1
  subst hc
  obtain ⟨m₂, hm₂, hat₂⟩ := (unlink_eq hun.after hu (hun.length.trans_lt hfuel)).2 _ true (by
    simpa [unlinkFix] using hfix)
  obtain rfl : m' = m₂ := Except.ok.inj ((hrem.symm.trans heq).trans hm₂)
  obtain rfl := (at_plug.mp hat₂).unique hat
  exact fun k' => not_balanced_of_climb (hun.balanced k hbal) hu hured

/-- **Removal from a balanced tree leaves a balanced tree exactly if it does not climb to the
root below a red child.** -/
theorem naviRbRemove_balanced_iff {k : ℕ} (h : At m d [] t)
    (hbal : RedBlack.Balanced t .black k) (hn : n ∈ t.toList) :
    (∃ N, ∀ fuel ≥ N, ∃ m' t' k', naviRbRemove fuel m n = .ok m' ∧ At m' d [] t' ∧
      RedBlack.Balanced t' .black k') ↔ ¬ RemoveClimbs m n := by
  constructor
  · rintro ⟨N, hN⟩ hclimb
    obtain ⟨m', t', k', hrem, hat, hbal'⟩ := hN (max N (t.toList.length + 1)) (le_max_left _ _)
    exact not_balanced_of_removeClimbs h hbal hn hclimb
      ((Nat.lt_succ_self _).trans_le (le_max_right _ _)) hrem hat k' hbal'
  · intro hclimb
    refine ⟨t.toList.length + 1, fun fuel hfuel => ?_⟩
    obtain ⟨m', t', k', hrem, hat, hbal', -⟩ :=
      naviRbRemove_spec h hbal hn hclimb (Nat.lt_of_succ_le hfuel)
    exact ⟨m', t', k', hrem, hat, hbal'⟩

/-- The theorem at a red leaf. -/
theorem naviRbRemove_balanced_iff_threeNodes :
    ∃ N, ∀ fuel ≥ N, ∃ m' t' k', naviRbRemove fuel threeNodes 1 = .ok m' ∧ At m' 9 [] t' ∧
      RedBlack.Balanced t' .black k' := by
  refine (naviRbRemove_balanced_iff (k := 1) at_threeNodes
    (.black (.red .nil .nil) (.red .nil .nil)) (by decide)).mpr ?_
  rintro ⟨v, hv, -, hblack, -⟩
  rcases hv with ⟨l, -, hl, -⟩ | ⟨-, rfl⟩
  · exact absurd (hl : (none : Option ℕ) = some l) nofun
  · exact absurd (hblack : false = true) nofun

/-- The memory of a tree with dummy root `9`: a black node `2` with black children `1` and `3`,
and a red child `4` of `3`. -/
def fourNodes : Mem ℕ where
  child s x := match s with
    | .left => if x = 9 then some 2 else if x = 2 then some 1 else none
    | .right => if x = 2 then some 3 else if x = 3 then some 4 else none
  parent x := if x = 2 then some 9 else if x = 1 ∨ x = 3 then some 2 else if x = 4 then some 3 else none
  color x := if x = 9 then .rbRootMark else if x = 4 then .rbRed else .rbBlack

/-- **The removal of `3` leaves one path with a black node too many.** -/
theorem not_naviRbRemove_balanced :
    ¬ ∀ (m : Mem ℕ) (d n k : ℕ) (t : RedBlack.Tree ℕ), At m d [] t →
      RedBlack.Balanced t .black k → n ∈ t.toList →
      ∃ N, ∀ fuel ≥ N, ∃ m' t' k', naviRbRemove fuel m n = .ok m' ∧ At m' d [] t' ∧
        RedBlack.Balanced t' .black k' := by
  intro h
  have hat : At fourNodes 9 [] (.node .black (.node .black .nil 1 .nil) 2
      (.node .black .nil 3 (.node .red .nil 4 .nil))) :=
    ⟨⟨⟨rfl, rfl, rfl, rfl⟩, ⟨⟨rfl, rfl, rfl, rfl⟩, trivial, trivial⟩,
      ⟨rfl, rfl, rfl, rfl⟩, trivial, ⟨rfl, rfl, rfl, rfl⟩, trivial, trivial⟩,
      ⟨rfl, rfl, rfl, rfl⟩, by decide⟩
  have hbal := RedBlack.Balanced.black (x := 2) (.black (x := 1) .nil .nil)
    (.black (x := 3) .nil (.red (x := 4) .nil .nil))
  have hclimb : RemoveClimbs fourNodes 3 :=
    ⟨3, .inr ⟨.inl rfl, rfl⟩, rfl, rfl, .inr rfl,
      .step rfl rfl rfl ⟨rfl, rfl⟩ ⟨rfl, rfl⟩ (.root rfl)⟩
  obtain ⟨N, hN⟩ := h fourNodes 9 3 2 _ hat hbal (by decide)
  obtain ⟨m', t', k', hrem, hat', hbal'⟩ := hN (N + 5) (by omega)
  exact not_balanced_of_removeClimbs hat hbal (by decide) hclimb
    (by simp only [RedBlack.Tree.toList_node, RedBlack.Tree.toList_nil, List.length_append,
      List.length_cons, List.length_nil]; omega) hrem hat' k' hbal'

end NaviScheme
