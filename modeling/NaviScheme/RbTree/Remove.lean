import NaviScheme.Lib.Rebalance
import NaviScheme.RbTree.Represent

/-!
# Removal: the loop

The loop of `navi_rb_remove` does in memory what `RedBlack.removeFix` does on trees
(`NaviScheme.removeLoop_eq`): case by case, the writes turn the context of the
position into the one that `RedBlack.removeFix` computes, and where that one looks
below an empty subtree, the loop follows a null pointer. At the end the loop variable
`n` is at the root exactly when the walk went all the way up.
-/

namespace NaviScheme

open RedBlack

variable {ι : Type} {m : Mem ι} {d n : ι} {ctx : Ctx ι} {t : RedBlack.Tree ι}

/-- What the loop leaves behind: the context `ctx` around the position, and the loop
variable at the root or not. -/
structure Left (n : ι) (t : RedBlack.Tree ι) (d : ι) (ctx : Ctx ι) (climbed : Bool) (m : Mem ι)
    (n' : ι) :
    Prop where
  hat : At m d ctx t
  isRoot : isRoot m n' = .ok climbed
  mem : n' = n ∨ n' ∈ ctx.nodes

theorem Left.of_at {m' : Mem ι} (fs : List (Frame ι)) (h : At m' d (fs ++ ctx) t)
    (hn : t.root? = some n) (hfs : fs ≠ []) : Left n t d (fs ++ ctx) false m' n := by
  refine ⟨h, (h.isRoot_eq hn).trans ?_, .inl rfl⟩
  cases fs with
  | nil => exact absurd rfl hfs
  | cons f fs => rfl

theorem bind_pair (x : Except RbFault (Mem ι)) (f : Mem ι → Except RbFault (Mem ι)) (n : ι) :
    (do let m ← x; let m ← f m; return (m, n)) = (x >>= f) >>= fun m => .ok (m, n) := by
  cases x <;> rfl

/-- The context that is left around a removed node of colour `c`, and whether the loop
variable ends at the root. -/
def unlinkFix (c : Color) (ctx : Ctx ι) : Option (Ctx ι × Bool) :=
  if c = .black then removeFix ctx else some (ctx, ctx.isEmpty)

/-- The order around a removed node is kept. -/
theorem unlinkFix_order {c : Color} {ctx ctx' : Ctx ι} {b : Bool}
    (h : unlinkFix c ctx = some (ctx', b)) : ctx.SameOrder ctx' := by
  unfold unlinkFix at h
  split at h
  · exact removeFix_order h
  · simp only [Option.some.injEq, Prod.mk.injEq] at h
    rw [← h.1]
    exact ⟨rfl, rfl⟩

variable [DecidableEq ι]

/-! ### The cases -/

/-- Case 2: below a node with a red sibling, the sibling comes up. -/
theorem removeCase2_red {s : Side} {c : Color} {p S : ι} {near far : RedBlack.Tree ι}
    (h : At m d (⟨s, c, p, .join s .red near S far⟩ :: ctx) t) (hn : t.root? = some n) :
    ∃ m', removeCase2 m n = .ok m' ∧
      At m' d (⟨s, .red, p, near⟩ :: ⟨s, .black, S, far⟩ :: ctx) t := by
  have hred := (h.setColor_above .red).setColor_sib .black
  have hrot := at_cons.mp hred
  obtain ⟨m', hm', hat⟩ := hrot.rotate
  refine ⟨m', ?_, at_cons.mpr (at_cons.mpr hat)⟩
  have hisRed : isRed m (RedBlack.Tree.join s .red near S far).root? = true := by
    rw [isRed_root? (at_flip.mp h).rep, RedBlack.Tree.color_join]
    rfl
  simp only [RedBlack.Tree.root?_join] at hisRed
  simp only [removeCase2, h.rbSibling_eq hn, RedBlack.Tree.root?_join, ok_bind, hisRed, if_true,
    h.parent_eq hn, deref_some, above, isLeftChild]
  simp only [toRbColor_red, toRbColor_black] at hred hm'
  rw [hred.isChild_eq hn]
  cases s
  · exact hm'
  · exact hm'

/-- Case 2 does nothing when the sibling is black. -/
theorem removeCase2_black {f : Frame ι} (h : At m d (f :: ctx) t) (hn : t.root? = some n)
    (hf : f.sib.color ≠ .red) : removeCase2 m n = .ok m := by
  have hisRed : isRed m f.sib.root? = false := by
    rw [isRed_root? (at_flip.mp h).rep]
    exact decide_eq_false hf
  simp [removeCase2, h.rbSibling_eq hn, hisRed]

/-- Painting the child of the sibling on the other side black. -/
theorem At.blacken_far {s : Side} {c c' : Color} {p S x : ι} {near far : RedBlack.Tree ι}
    (h : At m d (⟨s, c, p, .join s c' near S far⟩ :: ctx) t) (hx : far.root? = some x) :
    At (m.setColor x .rbBlack) d (⟨s, c, p, .join s c' near S far.blacken⟩ :: ctx) t := by
  have hfar := at_flip.mp h
  rw [← RedBlack.Tree.join_flip] at hfar
  have hpaint := at_cons.mp ((at_cons.mpr hfar).blacken hx)
  rw [RedBlack.Tree.join_flip] at hpaint
  exact at_flip.mpr hpaint

/-- Case 6: the sibling comes up and its far child is painted black. -/
theorem removeCase6_eq {s : Side} {c c' : Color} {p S : ι} {near far : RedBlack.Tree ι}
    (h : At m d (⟨s, c, p, .join s c' near S far⟩ :: ctx) t) (hn : t.root? = some n) :
    (liftSibling s c p near S far = none → removeCase6 m n = .error .nullDeref) ∧
    ∀ fs, liftSibling s c p near S far = some fs →
      ∃ m', removeCase6 m n = .ok m' ∧ At m' d (fs ++ ctx) t := by
  have hp : rbColor m (some p) = toRbColor c := h.color_above
  have hpaint := (h.setColor_sib c).setColor_above .black
  have hside := hpaint.isChild_eq hn .left
  have hfar := hpaint.sib_children.2
  simp only [toRbColor_black, Mem.child_setColor] at hpaint hside hfar
  simp only [removeCase6, h.rbSibling_eq hn, RedBlack.Tree.root?_join, ok_bind, deref_some,
    h.parent_eq hn, above, hp, isLeftChild, hside, sideOf, Mem.left, Mem.right,
    Mem.child_setColor]
  cases far with
  | nil =>
    refine ⟨fun _ => ?_, fun fs hfs => by simp [liftSibling] at hfs⟩
    cases s
    · simp at hfar
      simp [hfar]
    · simp at hfar
      simp [hfar]
  | node e l x r =>
    refine ⟨fun hnone => by simp [liftSibling] at hnone, fun fs hfs => ?_⟩
    simp only [liftSibling, Option.some.injEq] at hfs
    subst hfs
    obtain ⟨m', hm', hat⟩ := (at_cons.mp (hpaint.blacken_far rfl)).rotate
    refine ⟨m', ?_, at_cons.mpr (at_cons.mpr hat)⟩
    cases s
    · simp at hfar
      simpa [hfar, rotateLeft] using hm'
    · simp at hfar
      simpa [hfar, rotateRight] using hm'

/-- Case 5, as one test on the sibling's colours. -/
theorem removeCase5_eq {s : Side} {c c' : Color} {p S : ι} {near far : RedBlack.Tree ι}
    (h : At m d (⟨s, c, p, .join s c' near S far⟩ :: ctx) t) (hn : t.root? = some n) :
    removeCase5 m n S =
      if c' = .black ∧ near.color = .red ∧ far.color = .black then do
        let N ← deref near.root?
        rotate s.flip ((m.setColor S .rbRed).setColor N .rbBlack) S
      else .ok m := by
  obtain ⟨hS, hnear, -, hfar⟩ := h.sib_colors
  obtain ⟨hN, hF⟩ := h.sib_children
  have hand : (decide (c' = .black) && decide (near.color = .red) &&
      decide (far.color = .black)) =
        decide (c' = .black ∧ near.color = .red ∧ far.color = .black) := by
    simp [Bool.and_assoc]
  simp only [removeCase5, isLeftChild, isRightChild, h.isChild_eq hn, sideOf, ok_bind, Mem.left,
    Mem.right, Mem.child_setColor]
  cases s
  · rw [Side.flip_left] at hF
    simp only [hS, hN, hF, hnear, hfar, decide_true, Bool.true_and, hand, decide_eq_true_eq]
    rfl
  · rw [Side.flip_right] at hF
    simp only [hS, hN, hF, hnear, hfar, decide_true, Bool.true_and, hand, decide_eq_true_eq,
      reduceCtorEq, decide_false, Bool.false_and, Bool.false_eq_true, if_false]
    rfl

/-- Case 5: a black sibling with a red near child and a black far child. -/
theorem removeCase5_red {s : Side} {c : Color} {p S N : ι} {nn nf far : RedBlack.Tree ι}
    (h : At m d (⟨s, c, p, .join s .black (.join s .red nn N nf) S far⟩ :: ctx) t)
    (hn : t.root? = some n) (hfar : far.color = .black) :
    ∃ m', removeCase5 m n S = .ok m' ∧
      At m' d (⟨s, c, p, .join s .black nn N (.join s .red nf S far)⟩ :: ctx) t := by
  have hN := at_cons.mpr ((at_flip.mp h).setColor .red)
  have hpaint := at_cons.mp (hN.setColor .black)
  rw [← RedBlack.Tree.join_flip s .red, ← RedBlack.Tree.join_flip s .black nf] at hpaint
  obtain ⟨m', hm', hat⟩ := hpaint.rotate
  rw [RedBlack.Tree.join_flip, RedBlack.Tree.join_flip] at hat
  refine ⟨m', ?_, at_flip.mpr hat⟩
  rw [removeCase5_eq h hn, if_pos ⟨rfl, RedBlack.Tree.color_join .., hfar⟩,
    RedBlack.Tree.root?_join]
  exact hm'

/-- The last steps of an iteration. -/
theorem liftNear_eq {s : Side} {c c' : Color} {p S : ι} {near far : RedBlack.Tree ι}
    (h : At m d (⟨s, c, p, .join s c' near S far⟩ :: ctx) t) (hn : t.root? = some n) :
    (liftNear s c p c' near S far = none →
      (removeCase5 m n S >>= fun m => removeCase6 m n) = .error .nullDeref) ∧
    ∀ fs, liftNear s c p c' near S far = some fs →
      ∃ m', (removeCase5 m n S >>= fun m => removeCase6 m n) = .ok m' ∧
        At m' d (fs ++ ctx) t := by
  unfold liftNear
  by_cases hcase : c' = .black ∧ near.color = .red ∧ far.color = .black
  · obtain ⟨rfl, hnear, hfar⟩ := hcase
    cases near with
    | nil => simp at hnear
    | node e l N r =>
      obtain rfl : e = .red := hnear
      obtain ⟨nn, nf, hjoin⟩ := RedBlack.Tree.exists_eq_join s l N r
      simp only [hfar, and_self, if_true, hjoin, RedBlack.Tree.child_join,
        RedBlack.Tree.child_flip_join]
      rw [hjoin] at h
      obtain ⟨m₁, h₁, hat₁⟩ := removeCase5_red h hn hfar
      rw [h₁, ok_bind]
      exact removeCase6_eq hat₁ hn
  · rw [removeCase5_eq h hn, if_neg hcase, ok_bind]
    have hlift := removeCase6_eq h hn
    split
    · rename_i l N r
      rw [if_neg fun hb => hcase ⟨hb.1, rfl, hb.2⟩]
      exact hlift
    · exact hlift

/-! ### The loop -/

/-- An iteration, once case 2 is done and there is a sibling. -/
def removeRest (fuel : ℕ) (m : Mem ι) (n parent sibling : ι) (black red : Bool) :
    Except RbFault (Mem ι × ι) :=
  if black then removeLoop fuel (m.setColor sibling .rbRed) parent
  else if red then .ok ((m.setColor sibling .rbRed).setColor parent .rbBlack, n)
  else do
    let m ← removeCase5 m n sibling
    let m ← removeCase6 m n
    return (m, n)

/-- Cases 3 to 6, as tests on the colours around the position. -/
theorem removeLoop_node {s : Side} {c c' : Color} {p S : ι} {near far : RedBlack.Tree ι}
    {m₀ : Mem ι} {f : Frame ι} {ctx₀ : Ctx ι} (h₀ : At m₀ d (f :: ctx₀) t)
    (hcase : removeCase2 m₀ n = .ok m)
    (h : At m d (⟨s, c, p, .join s c' near S far⟩ :: ctx) t) (hn : t.root? = some n) (fuel : ℕ) :
    removeLoop (fuel + 1) m₀ n = removeRest fuel m n p S
      (decide (c = .black ∧ c' = .black ∧ near.color = .black ∧ far.color = .black))
      (decide (c = .red ∧ c' = .black ∧ near.color = .black ∧ far.color = .black)) := by
  obtain ⟨hS, -, hnear, hfar⟩ := h.sib_colors
  obtain ⟨hN, hF⟩ := h.sib_children
  have hall : (isBlack m (some S) && isBlack m (m.left S) && isBlack m (m.right S)) =
      decide (c' = .black ∧ near.color = .black ∧ far.color = .black) := by
    cases s
    · simp only [Mem.left, Mem.right]
      rw [Side.flip_left] at hF
      rw [hS, hN, hF, hnear, hfar]
      simp [Bool.and_assoc]
    · simp only [Mem.left, Mem.right]
      rw [Side.flip_right] at hF
      rw [hS, hN, hF, hnear, hfar]
      simp [Bool.and_assoc, Bool.and_comm (decide (far.color = .black))]
  have hp : m.color p = toRbColor c := h.color_above
  have hblack : isBlack m (some p) = decide (c = .black) :=
    decide_eq_decide.mpr (by rw [hp, toRbColor_eq_rbBlack])
  have hred : isRed m (some p) = decide (c = .red) :=
    decide_eq_decide.mpr (by rw [hp, toRbColor_eq_rbRed])
  simp only [removeLoop, h₀.isRoot_eq hn, ok_bind, List.isEmpty_cons, Bool.false_eq_true, if_false,
    hcase, h.rbSibling_eq hn, RedBlack.Tree.root?_join, h.parent_eq hn, above, deref_some, hall,
    hblack,
    hred, removeRest, ← Bool.decide_and]
  rfl

/-- At the root the loop ends. -/
theorem removeLoop_root (h : At m d [] t) (hn : t.root? = some n) (fuel : ℕ) :
    removeLoop (fuel + 1) m n = .ok (m, n) := by
  simp [removeLoop, h.isRoot_eq hn]

/-- Without a sibling the loop ends. -/
theorem removeLoop_nil {s : Side} {c : Color} {p : ι} {m₀ : Mem ι} {f : Frame ι} {ctx₀ : Ctx ι}
    (h₀ : At m₀ d (f :: ctx₀) t) (hcase : removeCase2 m₀ n = .ok m)
    (h : At m d (⟨s, c, p, .nil⟩ :: ctx) t) (hn : t.root? = some n) (fuel : ℕ) :
    removeLoop (fuel + 1) m₀ n = .ok (m, n) := by
  simp [removeLoop, h₀.isRoot_eq hn, hcase, h.rbSibling_eq hn]

/-- The iterations that `RedBlack.settle` describes. -/
theorem removeLoop_settle {s : Side} {c : Color} {p : ι} {u : RedBlack.Tree ι} {m₀ : Mem ι}
    {f : Frame ι} {ctx₀ : Ctx ι} (h₀ : At m₀ d (f :: ctx₀) t) (hcase : removeCase2 m₀ n = .ok m)
    (h : At m d (⟨s, c, p, u⟩ :: ctx) t) (hn : t.root? = some n)
    (hc : ¬(c = .black ∧ u.color = .black ∧ (u.child s).color = .black ∧
      (u.child s.flip).color = .black)) (fuel : ℕ) :
    (settle s c p u = none → removeLoop (fuel + 1) m₀ n = .error .nullDeref) ∧
    ∀ fs, settle s c p u = some fs → ∃ m', removeLoop (fuel + 1) m₀ n = .ok (m', n) ∧
      Left n t d (fs ++ ctx) false m' n := by
  cases u with
  | nil =>
    refine ⟨fun hnone => by simp [settle] at hnone, fun fs hfs => ?_⟩
    simp only [settle, Option.some.injEq] at hfs
    subst hfs
    exact ⟨m, removeLoop_nil h₀ hcase h hn fuel, .of_at [_] h hn (by simp)⟩
  | node c' l S r =>
    obtain ⟨near, far, hjoin⟩ := RedBlack.Tree.exists_eq_join s l S r
    rw [hjoin] at h hc ⊢
    simp only [RedBlack.Tree.color_join, RedBlack.Tree.child_join,
      RedBlack.Tree.child_flip_join] at hc
    rw [removeLoop_node h₀ hcase h hn, settle_join, removeRest, decide_eq_false hc]
    simp only [Bool.false_eq_true, if_false, decide_eq_true_eq]
    split
    · refine ⟨fun hnone => by simp at hnone, fun fs hfs => ?_⟩
      simp only [Option.some.injEq] at hfs
      subst hfs
      have hat := (h.setColor_sib .red).setColor_above .black
      exact ⟨_, rfl, .of_at [_] hat hn (by simp)⟩
    · obtain ⟨hnone, hsome⟩ := liftNear_eq h hn
      rw [bind_pair]
      refine ⟨fun hl => by rw [hnone hl]; rfl, fun fs hl => ?_⟩
      obtain ⟨m', hm', hat⟩ := hsome fs hl
      refine ⟨m', by rw [hm']; rfl, .of_at fs hat hn ?_⟩
      rintro rfl
      refine settle_ne_nil (s := s) (c := c) (p := p) (u := .join s c' near S far) ?_
      rw [settle_join, if_neg ‹_›, hl]

/-- **The loop of `navi_rb_remove` is `RedBlack.removeFix`.** -/
theorem removeLoop_eq (h : At m d ctx t) (hn : t.root? = some n) {fuel : ℕ}
    (hfuel : ctx.length < fuel) :
    (removeFix ctx = none → removeLoop fuel m n = .error .nullDeref) ∧
    ∀ ctx' b, removeFix ctx = some (ctx', b) →
      ∃ m' n', removeLoop fuel m n = .ok (m', n') ∧ Left n t d ctx' b m' n' := by
  induction ctx using removeFix.induct generalizing m n t fuel with
  | case1 =>
    obtain ⟨fuel, rfl⟩ : ∃ k, fuel = k + 1 := ⟨fuel - 1, by simp at hfuel; omega⟩
    refine ⟨fun hnone => by simp [removeFix] at hnone, fun ctx' b hsome => ?_⟩
    simp only [removeFix, Option.some.injEq, Prod.mk.injEq] at hsome
    obtain ⟨rfl, rfl⟩ := hsome
    exact ⟨m, n, removeLoop_root h hn fuel, h, h.isRoot_eq hn, .inl rfl⟩
  | case2 s c p ctx =>
    obtain ⟨fuel, rfl⟩ : ∃ k, fuel = k + 1 := ⟨fuel - 1, by simp at hfuel; omega⟩
    refine ⟨fun hnone => by simp [removeFix] at hnone, fun ctx' b hsome => ?_⟩
    simp only [removeFix, Option.some.injEq, Prod.mk.injEq] at hsome
    obtain ⟨rfl, rfl⟩ := hsome
    have hcase := removeCase2_black h hn (by simp)
    exact ⟨m, n, removeLoop_nil h hcase h hn fuel, .of_at [_] h hn (by simp)⟩
  | case3 s c p l S r ctx =>
    obtain ⟨fuel, rfl⟩ : ∃ k, fuel = k + 1 := ⟨fuel - 1, by simp at hfuel; omega⟩
    obtain ⟨near, far, hjoin⟩ := RedBlack.Tree.exists_eq_join s l S r
    rw [hjoin] at h
    obtain ⟨m₁, hcase, hat⟩ := removeCase2_red h hn
    obtain ⟨hnone, hsome⟩ := removeLoop_settle h hcase hat hn (by simp) fuel
    simp only [removeFix, hjoin, RedBlack.Tree.child_join, RedBlack.Tree.child_flip_join]
    refine ⟨fun hl => hnone (by simpa using hl), fun ctx' b hl => ?_⟩
    simp only [Option.map_eq_some_iff, Prod.mk.injEq] at hl
    obtain ⟨fs, hfs, rfl, rfl⟩ := hl
    obtain ⟨m', hm', hleft⟩ := hsome fs hfs
    exact ⟨m', n, hm', hleft⟩
  | case4 s c p l S r ctx hblack ih =>
    obtain ⟨fuel, rfl⟩ : ∃ k, fuel = k + 1 := ⟨fuel - 1, by simp at hfuel; omega⟩
    obtain ⟨rfl, hl, hr⟩ := hblack
    have hcase := removeCase2_black h hn (by simp)
    have hloop : removeLoop (fuel + 1) m n = removeLoop fuel (m.setColor S .rbRed) p := by
      obtain ⟨near, far, hjoin⟩ := RedBlack.Tree.exists_eq_join s l S r
      have hall : near.color = .black ∧ far.color = .black := by
        have hjoin := hjoin .black
        cases s
        · obtain ⟨-, rfl, -, rfl⟩ := RedBlack.Tree.node.inj hjoin
          exact ⟨hl, hr⟩
        · obtain ⟨-, rfl, -, rfl⟩ := RedBlack.Tree.node.inj hjoin
          exact ⟨hr, hl⟩
      rw [hjoin] at h
      simp [removeLoop_node h hcase h hn, removeRest, hall]
    have hat := at_cons.mp (h.setColor_sib (r := .left) .red)
    have hlt : ctx.length < fuel := by simpa using hfuel
    obtain ⟨hnone, hsome⟩ := ih hat (n := p) (by simp) hlt
    rw [hloop]
    simp only [removeFix, hl, hr, and_self, if_true]
    refine ⟨fun h => hnone (by simpa using h), fun ctx' b h => ?_⟩
    simp only [Option.map_eq_some_iff, Prod.mk.injEq] at h
    obtain ⟨⟨rest, b'⟩, hrest, rfl, rfl⟩ := h
    obtain ⟨m', n', hm', hleft⟩ := hsome rest b' hrest
    refine ⟨m', n', hm', at_cons.mpr hleft.hat, hleft.isRoot, .inr ?_⟩
    rcases hleft.mem with rfl | hmem
    · simp
    · simp [hmem]
  | case5 s c p l S r ctx hblack =>
    obtain ⟨fuel, rfl⟩ : ∃ k, fuel = k + 1 := ⟨fuel - 1, by simp at hfuel; omega⟩
    have hcase := removeCase2_black h hn (by simp)
    obtain ⟨hnone, hsome⟩ := removeLoop_settle h hcase h hn (fun hall => hblack <| by
      cases s <;> simpa [RedBlack.Tree.child, and_comm] using hall) fuel
    simp only [removeFix, if_neg hblack]
    refine ⟨fun hl => hnone (by simpa using hl), fun ctx' b hl => ?_⟩
    simp only [Option.map_eq_some_iff, Prod.mk.injEq] at hl
    obtain ⟨fs, hfs, rfl, rfl⟩ := hl
    obtain ⟨m', hm', hleft⟩ := hsome fs hfs
    exact ⟨m', n, hm', hleft⟩

/-! ### Unlinking a node -/

theorem isRoot_adopt (m : Mem ι) (s : Side) (y : ι) {p : Option ι} (q : Option ι) (hn : p ≠ some n) :
    isRoot ((m.setChild s y p).adopt p q) n = isRoot m n := by
  simp [isRoot, hn]

/-- The child takes the removed node's place. -/
theorem replaceRemoved_eq {l r u : RedBlack.Tree ι} {c : Color} {b : Bool} {n' : ι}
    (h : Left n (.node c l n r) d ctx b m n') (hu : u = l ∨ u = r) :
    ∃ m', replaceRemoved m n u.root? n' = .ok m' ∧
      At m' d ctx (if b then u.blacken else u) := by
  have hmem : ∀ x ∈ u.toList, x ∈ (RedBlack.Tree.node c l n r).toList ∧ x ≠ n := by
    have hnodup := h.hat.nodup_tree
    simp only [RedBlack.Tree.toList_node, List.nodup_append, List.nodup_cons,
      List.mem_cons] at hnodup ⊢
    rcases hu with rfl | rfl
    · exact fun x hx => ⟨by simp [hx], hnodup.2.2 x hx n (.inl rfl)⟩
    · exact fun x hx => ⟨by simp [hx], fun hxn => hnodup.2.1.1 (hxn ▸ hx)⟩
  have hnodup : u.toList.Nodup := by
    have hnodup := h.hat.nodup_tree
    simp only [RedBlack.Tree.toList_node, List.nodup_append, List.nodup_cons] at hnodup
    rcases hu with rfl | rfl
    · exact hnodup.1
    · exact hnodup.2.1.2
  have hrep : Rep m n u := by
    rcases hu with rfl | rfl
    · exact h.hat.rep.2.1
    · exact h.hat.rep.2.2
  have hat := h.hat.replace hrep (fun x hx => (hmem x hx).1) hnodup
  have hroot : u.root? ≠ some n' := fun hn => by
    have hx := hmem n' (RedBlack.Tree.root?_mem hn)
    rcases h.mem with rfl | hctx
    · exact hx.2 rfl
    · exact h.hat.disjoint hx.1 (List.mem_cons_of_mem d hctx)
  have hisRoot :=
    (isRoot_adopt m (sideOf ctx) (above d ctx) (some (above d ctx)) hroot).trans h.isRoot
  simp only [replaceRemoved, h.hat.replace_eq (n := n) rfl, ok_bind, hisRoot]
  cases b with
  | false => exact ⟨_, rfl, hat⟩
  | true =>
    cases u with
    | nil => exact ⟨_, rfl, hat⟩
    | node e l' x r' => exact ⟨_, rfl, hat.blacken rfl⟩

/-- **Unlinking a node with at most one child**, in any tree. -/
theorem unlink_eq {l r u : RedBlack.Tree ι} {c : Color} (h : At m d ctx (.node c l n r))
    (hu : r = .nil ∧ u = l ∨ l = .nil ∧ u = r) {fuel : ℕ} (hfuel : ctx.length < fuel) :
    (unlinkFix c ctx = none → unlink fuel m n = .error .nullDeref) ∧
    ∀ ctx' b, unlinkFix c ctx = some (ctx', b) →
      ∃ m', unlink fuel m n = .ok m' ∧ At m' d ctx' (if b then u.blacken else u) := by
  have hchild : (if (m.right n).isSome then m.right n else m.left n) = u.root? := by
    have hnode : NodeAt m n .left l.root? r.root? _ _ := h.rep.1
    have hr : m.right n = r.root? := hnode.far
    have hl : m.left n = l.root? := hnode.near
    rw [hr, hl]
    rcases hu with ⟨rfl, rfl⟩ | ⟨rfl, rfl⟩
    · rfl
    · cases u <;> rfl
  have hside : u = l ∨ u = r := hu.imp And.right And.right
  have hblack : isBlack m (some n) = decide (c = .black) := isBlack_root? h.rep
  have hrep : Rep m n u := by
    rcases hside with rfl | rfl
    · exact h.rep.2.1
    · exact h.rep.2.2
  simp only [unlink, hchild, hblack, rbColor_root? hrep, decide_eq_true_eq, unlinkFix]
  split
  · have hpaint : At (m.setColor n (toRbColor u.color)) d ctx (.node u.color l n r) :=
      h.setColor (s := .left) u.color
    obtain ⟨hnone, hsome⟩ := removeLoop_eq hpaint rfl hfuel
    refine ⟨fun hfix => by rw [hnone hfix]; rfl, fun ctx' b hfix => ?_⟩
    obtain ⟨m', n', hm', hleft⟩ := hsome ctx' b hfix
    rw [hm']
    exact replaceRemoved_eq hleft hside
  · refine ⟨fun hfix => by simp at hfix, fun ctx' b hfix => ?_⟩
    simp only [Option.some.injEq, Prod.mk.injEq] at hfix
    obtain ⟨rfl, rfl⟩ := hfix
    exact replaceRemoved_eq ⟨h, h.isRoot_eq rfl, .inl rfl⟩ hside

end NaviScheme
