import NaviScheme.RbTree.Links

/-!
# How far the operations reach

The nodes of several trees lie in one memory. An operation follows the links of the nodes that it
is given, and writes only nodes that it comes to: in a set of nodes that no link leaves
(`NaviScheme.Mem.Encloses`) everything stays inside, and outside of it nothing is written
(`NaviScheme.WritesIn`). A tree with its dummy root is such a set, so that what is done to one tree
leaves the others as they are (`NaviScheme.At.of_writesIn`).
-/

namespace NaviScheme

open RedBlack

variable {ι : Type} {m₀ m m' : Mem ι} {d n p q x : ι} {t : RedBlack.Tree ι} {S : Set ι}
  {fuel : ℕ}

/-- No link of a node of the set leaves the set. -/
structure Mem.Encloses (m : Mem ι) (S : Set ι) : Prop where
  child : ∀ {x y s}, x ∈ S → m.child s x = some y → y ∈ S
  parent : ∀ {x y}, x ∈ S → m.parent x = some y → y ∈ S

/-- **Only nodes of the set have been written**, and no link leaves it. -/
structure WritesIn (S : Set ι) (m₀ m : Mem ι) : Prop where
  encloses : m.Encloses S
  same : ∀ {x}, x ∉ S → SameAt m₀ m x

theorem WritesIn.refl (h : m.Encloses S) : WritesIn S m m := ⟨h, fun _ => ⟨fun _ => rfl, rfl, rfl⟩⟩

/-- Following a pointer that is not null. -/
theorem deref_eq_ok {p : Option ι} (h : deref p = .ok x) : p = some x := by
  cases p with
  | none => cases h
  | some y => exact congrArg some (Except.ok.inj h)

/-! ### The writes -/

namespace WritesIn

variable [DecidableEq ι]

theorem setChild (h : WritesIn S m₀ m) (s : Side) (hx : x ∈ S) {p : Option ι}
    (hp : ∀ y ∈ p, y ∈ S) :
    WritesIn S m₀ (m.setChild s x p) := by
  refine ⟨⟨fun {y z r} hy hz => ?_, h.encloses.parent⟩, fun {y} hy => ?_⟩
  · rw [Mem.child_setChild] at hz
    split_ifs at hz
    · exact hp z hz
    · exact h.encloses.child hy hz
  · exact (h.same hy).trans (sameAt_setChild fun hyx : y = x => hy (hyx ▸ hx))

theorem setColor (h : WritesIn S m₀ m) (hx : x ∈ S) (c : RbColor) :
    WritesIn S m₀ (m.setColor x c) :=
  ⟨⟨h.encloses.child, h.encloses.parent⟩, fun {y} hy =>
    (h.same hy).trans (sameAt_setColor fun hyx : y = x => hy (hyx ▸ hx))⟩

theorem adopt (h : WritesIn S m₀ m) {p q : Option ι} (hp : ∀ y ∈ p, y ∈ S) (hq : ∀ y ∈ q, y ∈ S) :
    WritesIn S m₀ (m.adopt p q) := by
  refine ⟨⟨fun {y z r} hy hz => ?_, fun {y z} hy hz => ?_⟩, fun {y} hy => ?_⟩
  · rw [Mem.child_adopt] at hz
    exact h.encloses.child hy hz
  · rw [Mem.parent_adopt] at hz
    split_ifs at hz
    · exact hq z hz
    · exact h.encloses.parent hy hz
  · exact (h.same hy).trans (sameAt_adopt fun hpy => hy (hp y hpy))

theorem setParent (h : WritesIn S m₀ m) (hx : x ∈ S) {q : Option ι} (hq : ∀ y ∈ q, y ∈ S) :
    WritesIn S m₀ (m.setParent x q) :=
  h.adopt (p := some x) (fun _ hy => Option.some.inj hy ▸ hx) hq

/-! ### The links that are followed -/

omit [DecidableEq ι] in
theorem child (h : WritesIn S m₀ m) (hx : x ∈ S) (s : Side) : ∀ y ∈ m.child s x, y ∈ S :=
  fun _ hy => h.encloses.child hx hy

omit [DecidableEq ι] in
theorem parent (h : WritesIn S m₀ m) (hx : x ∈ S) : ∀ y ∈ m.parent x, y ∈ S :=
  fun _ hy => h.encloses.parent hx hy

theorem rbSibling (h : WritesIn S m₀ m) (hn : n ∈ S) {o : Option ι}
    (hs : rbSibling m n = .ok o) : ∀ y ∈ o, y ∈ S := by
  obtain ⟨p, hp, hs⟩ := bind_eq_ok hs
  have hpS := h.parent hn p (deref_eq_ok hp)
  obtain ⟨b, -, hs⟩ := bind_eq_ok hs
  split_ifs at hs <;> cases hs
  · exact h.child hpS .right
  · exact h.child hpS .left

theorem rbUncle (h : WritesIn S m₀ m) (hn : n ∈ S) {o : Option ι}
    (hs : rbUncle m n = .ok o) : ∀ y ∈ o, y ∈ S := by
  obtain ⟨p, hp, hs⟩ := bind_eq_ok hs
  obtain ⟨g, hg, hs⟩ := bind_eq_ok hs
  have hgS := h.parent (h.parent hn p (deref_eq_ok hp)) g (deref_eq_ok hg)
  split_ifs at hs <;> cases hs
  · exact h.child hgS .right
  · exact h.child hgS .left

/-! ### Rotations -/

theorem replace (h : WritesIn S m₀ m) (hn : n ∈ S) {new : Option ι} (hnew : ∀ y ∈ new, y ∈ S)
    (hrep : replace m n new = .ok m') : WritesIn S m₀ m' := by
  obtain ⟨p, hp, hrep⟩ := bind_eq_ok hrep
  obtain ⟨b, -, hrep⟩ := bind_eq_ok hrep
  cases hrep
  exact (h.setChild _ (h.parent hn p (deref_eq_ok hp)) hnew).adopt hnew (h.parent hn)

theorem rotate (h : WritesIn S m₀ m) {s : Side} (hn : n ∈ S) (hrot : rotate s m n = .ok m') :
    WritesIn S m₀ m' := by
  obtain ⟨m₁, hrep, hrot⟩ := bind_eq_ok hrot
  obtain ⟨up, hup, hrot⟩ := bind_eq_ok hrot
  cases hrot
  have hupS : up ∈ S := h.child hn s.flip up (deref_eq_ok hup)
  have hnS : ∀ y ∈ some n, y ∈ S := fun _ hy => Option.some.inj hy ▸ hn
  have hrep := h.replace hn (h.child hn _) hrep
  have hdown := hrep.setChild s.flip hn (hrep.child hupS s)
  exact ((hdown.adopt (hdown.child hupS s) hnS).setChild s hupS hnS).setParent hn
    fun _ hy => Option.some.inj hy ▸ hupS

/-! ### Insertion -/

/-- Rotating, and going on at a child. -/
theorem turn (h : WritesIn S m₀ m) {s s' : Side} (hp : p ∈ S) (hn : n ∈ S) {r : Mem ι × ι}
    (hturn : (do
      let m ← NaviScheme.rotate s m p
      return (m, ← deref (m.child s' n)) : Except RbFault (Mem ι × ι)) = .ok r) :
    WritesIn S m₀ r.1 ∧ r.2 ∈ S := by
  obtain ⟨m₁, hm₁, hturn⟩ := bind_eq_ok hturn
  obtain ⟨c, hc, hturn⟩ := bind_eq_ok hturn
  cases hturn
  have hrot := h.rotate hp hm₁
  exact ⟨hrot, hrot.child hn s' c (deref_eq_ok hc)⟩

theorem insertCase4 (h : WritesIn S m₀ m) (hn : n ∈ S) {r : Mem ι × ι}
    (hcase : insertCase4 m n = .ok r) : WritesIn S m₀ r.1 ∧ r.2 ∈ S := by
  obtain ⟨p, hp, hcase⟩ := bind_eq_ok hcase
  have hpS := h.parent hn p (deref_eq_ok hp)
  obtain ⟨b, -, hcase⟩ := bind_eq_ok hcase
  obtain ⟨b', -, hcase⟩ := bind_eq_ok hcase
  split_ifs at hcase
  · exact h.turn hpS hn hcase
  obtain ⟨b, -, hcase⟩ := bind_eq_ok hcase
  obtain ⟨b', -, hcase⟩ := bind_eq_ok hcase
  split_ifs at hcase
  · exact h.turn hpS hn hcase
  · cases hcase
    exact ⟨h, hn⟩

theorem insertCase5 (h : WritesIn S m₀ m) (hn : n ∈ S) (hcase : insertCase5 m n = .ok m') :
    WritesIn S m₀ m' := by
  obtain ⟨p, hp, hcase⟩ := bind_eq_ok hcase
  have hpS := h.parent hn p (deref_eq_ok hp)
  obtain ⟨g, hg, hcase⟩ := bind_eq_ok hcase
  have hgS : g ∈ S := h.parent hpS g (deref_eq_ok hg)
  have hpaint := (h.setColor hpS .rbBlack).setColor hgS .rbRed
  obtain ⟨b, -, hcase⟩ := bind_eq_ok hcase
  obtain ⟨b', -, hcase⟩ := bind_eq_ok hcase
  split_ifs at hcase
  · exact hpaint.rotate hgS hcase
  · exact hpaint.rotate hgS hcase

theorem insertLoop (h : WritesIn S m₀ m) (hn : n ∈ S) (hloop : insertLoop fuel m n = .ok m') :
    WritesIn S m₀ m' := by
  induction fuel generalizing m n with
  | zero => cases hloop
  | succ fuel ih =>
    obtain ⟨b, -, hloop⟩ := bind_eq_ok hloop
    split_ifs at hloop
    · cases hloop
      exact h.setColor hn .rbBlack
    · cases hloop
      exact h
    obtain ⟨uncle, huncle, hloop⟩ := bind_eq_ok hloop
    split_ifs at hloop
    · obtain ⟨p, hp, hloop⟩ := bind_eq_ok hloop
      obtain ⟨u, hu, hloop⟩ := bind_eq_ok hloop
      obtain ⟨g, hg, hloop⟩ := bind_eq_ok hloop
      have hpS := h.parent hn p (deref_eq_ok hp)
      have hgS : g ∈ S := h.parent hpS g (deref_eq_ok hg)
      have huS := h.rbUncle hn huncle u (deref_eq_ok hu)
      exact ih (((h.setColor hpS _).setColor huS _).setColor hgS _) hgS hloop
    · obtain ⟨r, hr, hloop⟩ := bind_eq_ok hloop
      obtain ⟨m₁, hm₁, hloop⟩ := bind_eq_ok hloop
      obtain ⟨hcase, hnode⟩ := h.insertCase4 hn hr
      exact ih (hcase.insertCase5 hnode hm₁) hnode hloop

/-- What is written into a new node before it is linked. -/
theorem leaf (h : WritesIn S m₀ m) (hp : p ∈ S) : WritesIn (insert x S) m₀
    ((((m.setChild .left x none).setChild .right x none).setColor x .rbRed).setParent x
    (some p)) := by
  refine ⟨⟨fun {y z r} hy hz => ?_, fun {y z} hy hz => ?_⟩, fun {y} hy => ?_⟩
  · rcases eq_or_ne y x with rfl | hne
    · cases r <;> simp at hz
    · simp only [Mem.child_setParent, Mem.child_setColor, Mem.child_setChild, hne, and_false,
        if_false] at hz
      exact .inr (h.encloses.child (hy.resolve_left hne) hz)
  · rcases eq_or_ne y x with rfl | hne
    · simp only [Mem.parent_setParent, if_true] at hz
      exact .inr (Option.some.inj hz ▸ hp)
    · simp only [Mem.parent_setParent, if_neg hne, Mem.parent_setColor, Mem.parent_setChild] at hz
      exact .inr (h.encloses.parent (hy.resolve_left hne) hz)
  · rw [Set.mem_insert_iff, not_or] at hy
    have hne : some x ≠ some y := fun hxy => hy.1 (Option.some.inj hxy).symm
    exact ((((h.same hy.2).trans (sameAt_setChild hy.1)).trans (sameAt_setChild hy.1)).trans
      (sameAt_setColor hy.1)).trans (sameAt_adopt hne)

theorem naviRbInsert (h : WritesIn S m₀ m) (hp : p ∈ S) {link : ι × Side} (hlink : link.1 ∈ S)
    (hins : naviRbInsert fuel m x p link = .ok m') : WritesIn (insert x S) m₀ m' :=
  ((h.leaf hp).setChild link.2 (.inr hlink) fun _ hy => .inl (Option.some.inj hy).symm).insertLoop
    (.inl rfl) hins

/-! ### Removal -/

omit [DecidableEq ι] in
theorem naviRbLast (h : WritesIn S m₀ m) (hn : n ∈ S) (hlast : naviRbLast fuel m n = .ok p) :
    p ∈ S := by
  induction fuel generalizing n with
  | zero => cases hlast
  | succ fuel ih =>
    rw [NaviScheme.naviRbLast] at hlast
    cases hr : m.right n with
    | none =>
      rw [hr] at hlast
      exact Except.ok.inj hlast ▸ hn
    | some r =>
      rw [hr] at hlast
      exact ih (h.child hn .right r hr) hlast

theorem swapChildren (h : WritesIn S m₀ m) (hn : n ∈ S) (hx : x ∈ S) :
    WritesIn S m₀ (swapChildren m n x) := by
  have hsome {y : ι} (hy : y ∈ S) : ∀ z ∈ some y, z ∈ S := fun _ hz => Option.some.inj hz ▸ hy
  -- the children of `n`, and then those of `x`
  have h₁ := h.setChild .left hn (h.child hx .left)
  have h₂ := h₁.adopt (h₁.child hx .left) (hsome hn)
  have h₃ := h₂.setChild .right hn (h₂.child hx .right)
  have h₄ := h₃.adopt (h₃.child hx .right) (hsome hn)
  have h₅ := (h₄.setChild .left hx (h.child hn .left)).adopt (h.child hn .left) (hsome hx)
  exact (h₅.setChild .right hx (h.child hn .right)).adopt (h.child hn .right) (hsome hx)

theorem relinkParent (h : WritesIn S m₀ m) (hn : n ∈ S) (hx : x ∈ S)
    (hlink : relinkParent m n x = .ok m') : WritesIn S m₀ m' := by
  obtain ⟨p, hp, hlink⟩ := bind_eq_ok hlink
  obtain ⟨b, -, hlink⟩ := bind_eq_ok hlink
  cases hlink
  exact h.setChild _ (h.parent hn p (deref_eq_ok hp)) fun _ hy => Option.some.inj hy ▸ hx

theorem swap (h : WritesIn S m₀ m) (hn : n ∈ S) (hx : x ∈ S) (hswap : swap m n x = .ok m') :
    WritesIn S m₀ m' := by
  obtain ⟨m₁, hm₁, hswap⟩ := bind_eq_ok hswap
  obtain ⟨m₂, hm₂, hswap⟩ := bind_eq_ok hswap
  cases hswap
  have h₁ := (h.swapChildren hn hx).relinkParent hn hx hm₁
  have h₂ := (h₁.setParent hn (h₁.parent hx)).relinkParent hx hn hm₂
  exact ((h₂.setParent hx (h.parent hn)).setColor hn _).setColor hx _

theorem removeCase2 (h : WritesIn S m₀ m) (hn : n ∈ S) (hcase : removeCase2 m n = .ok m') :
    WritesIn S m₀ m' := by
  obtain ⟨sib, hsib, hcase⟩ := bind_eq_ok hcase
  split_ifs at hcase
  · obtain ⟨p, hp, hcase⟩ := bind_eq_ok hcase
    obtain ⟨s, hs, hcase⟩ := bind_eq_ok hcase
    obtain ⟨b, -, hcase⟩ := bind_eq_ok hcase
    have hpS := h.parent hn p (deref_eq_ok hp)
    have hpaint := (h.setColor hpS .rbRed).setColor
      (h.rbSibling hn hsib s (deref_eq_ok hs)) .rbBlack
    split_ifs at hcase
    · exact hpaint.rotate hpS hcase
    · exact hpaint.rotate hpS hcase
  · cases hcase
    exact h

/-- Painting two nodes and rotating. -/
theorem paint_rotate (h : WritesIn S m₀ m) {s r : Side} {c c' : RbColor} (hn : n ∈ S) (hx : x ∈ S)
    (hrot : (do
      let m := m.setColor x c
      let y ← deref (m.child s x)
      NaviScheme.rotate r (m.setColor y c') n) = .ok m') : WritesIn S m₀ m' := by
  obtain ⟨y, hy, hrot⟩ := bind_eq_ok hrot
  have hpaint := h.setColor hx c
  exact (hpaint.setColor (hpaint.child hx s y (deref_eq_ok hy)) c').rotate hn hrot

theorem removeCase5 (h : WritesIn S m₀ m) (hx : x ∈ S) (hcase : removeCase5 m n x = .ok m') :
    WritesIn S m₀ m' := by
  obtain ⟨b, -, hcase⟩ := bind_eq_ok hcase
  split_ifs at hcase
  · exact h.paint_rotate hx hx hcase
  obtain ⟨b, -, hcase⟩ := bind_eq_ok hcase
  split_ifs at hcase
  · exact h.paint_rotate hx hx hcase
  · cases hcase
    exact h

theorem removeCase6 (h : WritesIn S m₀ m) (hn : n ∈ S) (hcase : removeCase6 m n = .ok m') :
    WritesIn S m₀ m' := by
  obtain ⟨o, ho, hcase⟩ := bind_eq_ok hcase
  obtain ⟨s, hs, hcase⟩ := bind_eq_ok hcase
  obtain ⟨p, hp, hcase⟩ := bind_eq_ok hcase
  obtain ⟨b, -, hcase⟩ := bind_eq_ok hcase
  have hsS := h.rbSibling hn ho s (deref_eq_ok hs)
  have hpS := h.parent hn p (deref_eq_ok hp)
  have hpaint := (h.setColor hsS (rbColor m (some p))).setColor hpS .rbBlack
  split_ifs at hcase
  · obtain ⟨y, hy, hcase⟩ := bind_eq_ok hcase
    exact (hpaint.setColor (hpaint.child hsS .right y (deref_eq_ok hy)) _).rotate hpS hcase
  · obtain ⟨y, hy, hcase⟩ := bind_eq_ok hcase
    exact (hpaint.setColor (hpaint.child hsS .left y (deref_eq_ok hy)) _).rotate hpS hcase

theorem removeLoop (h : WritesIn S m₀ m) (hn : n ∈ S) {r : Mem ι × ι}
    (hloop : removeLoop fuel m n = .ok r) : WritesIn S m₀ r.1 ∧ r.2 ∈ S := by
  induction fuel generalizing m n with
  | zero => cases hloop
  | succ fuel ih =>
    obtain ⟨b, -, hloop⟩ := bind_eq_ok hloop
    split_ifs at hloop
    · cases hloop
      exact ⟨h, hn⟩
    obtain ⟨m₁, hm₁, hloop⟩ := bind_eq_ok hloop
    have h₁ := h.removeCase2 hn hm₁
    obtain ⟨o, ho, hloop⟩ := bind_eq_ok hloop
    cases o with
    | none =>
      cases hloop
      exact ⟨h₁, hn⟩
    | some s =>
      obtain ⟨p, hp, hloop⟩ := bind_eq_ok hloop
      have hsS : s ∈ S := h₁.rbSibling hn ho s rfl
      have hpS := h₁.parent hn p (deref_eq_ok hp)
      simp only at hloop
      split_ifs at hloop
      · exact ih (h₁.setColor hsS .rbRed) hpS hloop
      · cases hloop
        exact ⟨(h₁.setColor hsS .rbRed).setColor hpS .rbBlack, hn⟩
      · obtain ⟨m₂, hm₂, hloop⟩ := bind_eq_ok hloop
        obtain ⟨m₃, hm₃, hloop⟩ := bind_eq_ok hloop
        cases hloop
        exact ⟨(h₁.removeCase5 hsS hm₂).removeCase6 hn hm₃, hn⟩

theorem replaceRemoved (h : WritesIn S m₀ m) (hx : x ∈ S) {c : Option ι} (hc : ∀ y ∈ c, y ∈ S)
    (hrep : replaceRemoved m x c n = .ok m') : WritesIn S m₀ m' := by
  obtain ⟨m₁, hm₁, hrep⟩ := bind_eq_ok hrep
  obtain ⟨b, -, hrep⟩ := bind_eq_ok hrep
  have h₁ := h.replace hx hc hm₁
  cases b with
  | false =>
    cases hrep
    exact h₁
  | true =>
    cases c with
    | none =>
      cases hrep
      exact h₁
    | some c =>
      cases hrep
      exact h₁.setColor (hc c rfl) .rbBlack

theorem unlink (h : WritesIn S m₀ m) (hn : n ∈ S) (hun : unlink fuel m n = .ok m') :
    WritesIn S m₀ m' := by
  have hchild : ∀ y ∈ (if (m.right n).isSome then m.right n else m.left n), y ∈ S := by
    split_ifs
    · exact h.child hn .right
    · exact h.child hn .left
  simp only [NaviScheme.unlink] at hun
  by_cases hblack : isBlack m (some n) = true
  · rw [if_pos hblack] at hun
    obtain ⟨r, hr, hun⟩ := bind_eq_ok hun
    exact ((h.setColor hn _).removeLoop hn hr).1.replaceRemoved hn hchild hun
  · rw [if_neg hblack] at hun
    exact h.replaceRemoved hn hchild hun

/-- **A removal stays within** a set that no link leaves. -/
theorem naviRbRemove (h : WritesIn S m₀ m) (hn : n ∈ S) (hrem : naviRbRemove fuel m n = .ok m') :
    WritesIn S m₀ m' := by
  rw [NaviScheme.naviRbRemove] at hrem
  split at hrem
  · rename_i l r hl hr
    obtain ⟨p, hp, hrem⟩ := bind_eq_ok hrem
    obtain ⟨m₁, hm₁, hrem⟩ := bind_eq_ok hrem
    have hpS := h.naviRbLast (h.child hn .left l hl) hp
    exact (h.swap hn hpS hm₁).unlink hn hrem
  · exact h.unlink hn hrem

end WritesIn

section Ordered

variable [LinearOrder ι]

theorem WritesIn.descend (h : WritesIn S m₀ m) (hp : p ∈ S) {link : ι × Side} (hlink : link.1 ∈ S)
    {r : ι × (ι × Side)} (hdesc : descend fuel m x p link = .ok r) : r.1 ∈ S ∧ r.2.1 ∈ S := by
  induction fuel generalizing p link with
  | zero => cases hdesc
  | succ fuel ih =>
    rw [NaviScheme.descend] at hdesc
    cases hc : m.child link.2 link.1 with
    | none =>
      rw [hc] at hdesc
      cases hdesc
      exact ⟨hp, hlink⟩
    | some y =>
      rw [hc] at hdesc
      have hy := h.child hlink link.2 y hc
      exact ih hy hy hdesc

/-- **An insertion stays within** a set that no link leaves, with the new node. -/
theorem WritesIn.slabInsert (h : WritesIn S m₀ m) (hd : d ∈ S)
    (hins : slabInsert fuel d m x = .ok m') : WritesIn (insert x S) m₀ m' := by
  obtain ⟨r, hr, hins⟩ := bind_eq_ok hins
  obtain ⟨hp, hlink⟩ := h.descend hd hd hr
  exact h.naviRbInsert hp hlink hins

end Ordered

/-! ### Trees in one memory -/

/-- A tree with its dummy root. -/
def extent (d : ι) (t : RedBlack.Tree ι) : Set ι := {x | x = d ∨ x ∈ t.toList}

theorem Rep.encloses (h : Rep m q t) (hq : q ∈ S) (ht : ∀ x ∈ t.toList, x ∈ S) :
    ∀ x ∈ t.toList, (∀ s, ∀ y ∈ m.child s x, y ∈ S) ∧ ∀ y ∈ m.parent x, y ∈ S := by
  induction t generalizing q with
  | nil => simp
  | node c l x r ihl ihr =>
    obtain ⟨hnode, hl, hr⟩ := h
    simp only [RedBlack.Tree.toList_node, List.mem_append, List.mem_cons] at ht ⊢
    have hx : x ∈ S := ht x (.inr (.inl rfl))
    rintro y (hy | rfl | hy)
    · exact ihl hl hx (fun z hz => ht z (.inl hz)) y hy
    · refine ⟨fun s z hz => ?_, fun z hz => ?_⟩
      · cases s with
        | left => exact ht z (.inl (RedBlack.Tree.root?_mem (hnode.near.symm.trans hz)))
        | right => exact ht z (.inr (.inr (RedBlack.Tree.root?_mem (hnode.far.symm.trans hz))))
      · exact Option.some.inj (hnode.parent.symm.trans hz) ▸ hq
    · exact ihr hr hx (fun z hz => ht z (.inr (.inr hz))) y hy

/-- **No link leaves a tree** with its dummy root. -/
theorem At.encloses (h : At m d [] t) : m.Encloses (extent d t) := by
  have hrep := h.rep.encloses (S := extent d t) (.inl rfl) fun _ hx => .inr hx
  refine ⟨fun {x y s} hx hy => ?_, fun {x y} hx hy => ?_⟩
  · rcases hx with rfl | hx
    · cases s with
      | left => exact .inr (RedBlack.Tree.root?_mem (h.child_above.symm.trans hy))
      | right => exact absurd (h.repC.far.symm.trans hy) nofun
    · exact (hrep x hx).1 s y hy
  · rcases hx with rfl | hx
    · exact absurd (h.parent_dummy.symm.trans hy) nofun
    · exact (hrep x hx).2 y hy

theorem At.congr (h : At m d [] t) (hsame : ∀ x ∈ extent d t, SameAt m m' x) : At m' d [] t := by
  refine ⟨h.rep.congr fun x hx => hsame x (.inr hx), h.repC.congr fun x hx => ?_, h.nodup⟩
  obtain rfl : x = d := by simpa using hx
  exact hsame x (.inl rfl)

/-- What is done elsewhere leaves a tree as it is. -/
theorem At.of_writesIn (h : At m d [] t) (hw : WritesIn S m m') (hS : ∀ x ∈ extent d t, x ∉ S) :
    At m' d [] t := h.congr fun x hx => hw.same (hS x hx)

end NaviScheme
