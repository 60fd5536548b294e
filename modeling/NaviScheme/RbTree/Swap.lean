import Mathlib.Logic.Equiv.Basic
import NaviScheme.RbTree.Represent

/-!
# Swapping two nodes

`swap` of `rbtree.c` exchanges a node with its in-order predecessor by rewriting
the links of both. The effect is to rename the two in the tree
(`NaviScheme.swap_eq`), also when the predecessor is the left child of the node, where
the rewriting passes through a node that is its own parent. The argument is about
one node at a time, from three facts on the links of a tree
(`NaviScheme.At.child_parent`, `NaviScheme.At.parent_child`).
-/

namespace NaviScheme

open RedBlack

variable {ι : Type} {m m' : Mem ι} {d x y z : ι} {ctx : Ctx ι} {t : RedBlack.Tree ι}

/-! ### The links of a tree -/

/-- A child has its parent's link, on one side only. -/
theorem At.child_parent (h : At m d [] t) (hy : y ∈ d :: t.toList) {s : Side}
    (hz : m.child s y = some z) :
    z ∈ t.toList ∧ m.parent z = some y ∧ m.child s.flip y ≠ some z := by
  rcases List.mem_cons.mp hy with rfl | hy
  · cases s with
    | left =>
      have hroot : t.root? = some z := h.repC.near.symm.trans hz
      exact ⟨RedBlack.Tree.root?_mem hroot, h.parent_eq hroot, h.child_flip_above hroot⟩
    | right => exact absurd (hz.symm.trans h.repC.far) (by simp)
  · obtain ⟨ctx, c, l, r, rfl⟩ := RedBlack.Tree.exists_plug_of_mem hy
    obtain ⟨t₁, t₂, hjoin⟩ := RedBlack.Tree.exists_eq_join s l y r
    rw [hjoin] at h ⊢
    have hat := at_plug.mpr h
    have hpos := at_cons.mpr hat
    have hroot : t₁.root? = some z := hat.nodeAt.near.symm.trans hz
    refine ⟨?_, hpos.parent_eq hroot, hpos.child_flip_above hroot⟩
    rw [(Ctx.toList_plug_perm ctx _).mem_iff, List.mem_append,
      (RedBlack.Tree.toList_join_perm s c t₁ y t₂).mem_iff]
    simp [RedBlack.Tree.root?_mem hroot]

/-- A node is a child of its parent, which is another node. -/
theorem At.parent_child (h : At m d [] t) (hy : y ∈ t.toList) :
    ∃ w ∈ d :: t.toList, m.parent y = some w ∧ w ≠ y ∧ ∃ s, m.child s w = some y := by
  obtain ⟨ctx, c, l, r, rfl⟩ := RedBlack.Tree.exists_plug_of_mem hy
  have hat := at_plug.mpr h
  refine ⟨above d ctx, ?_, hat.parent_eq rfl, ?_, sideOf ctx, hat.child_above⟩
  rotate_left
  · exact fun hw => hat.disjoint (x := y) (by simp) (hw ▸ above_mem d ctx)
  have hmem := above_mem d ctx
  rw [List.mem_cons] at hmem ⊢
  exact hmem.imp_right fun hn => (Ctx.toList_plug_perm ctx _).mem_iff.mpr (by simp [hn])

/-- A node has exactly its children as nodes whose parent it is. -/
theorem At.parent_eq_iff (h : At m d [] t) (hx : x ∈ t.toList) (hy : y ∈ d :: t.toList) :
    m.parent y = some x ↔ m.right x = some y ∨ m.left x = some y := by
  constructor
  · intro hp
    rcases List.mem_cons.mp hy with rfl | hy
    · exact absurd (hp.symm.trans h.repC.parent) (by simp)
    · obtain ⟨w, -, hw, -, s, hs⟩ := h.parent_child hy
      obtain rfl : x = w := Option.some_inj.mp (hp.symm.trans hw)
      cases s
      · exact .inr hs
      · exact .inl hs
  · rintro (hc | hc)
    · exact (h.child_parent (s := .right) (List.mem_cons_of_mem d hx) hc).2.1
    · exact (h.child_parent (s := .left) (List.mem_cons_of_mem d hx) hc).2.1

/-! ### Renaming -/

/-- The node `f y` of the second memory is the node `y` of the first, with its links
renamed. -/
structure RenamedAt (m m' : Mem ι) (f : ι → ι) (y : ι) : Prop where
  child : ∀ s, m'.child s (f y) = (m.child s y).map f
  parent : m'.parent (f y) = (m.parent y).map f
  color : m'.color (f y) = m.color y

theorem NodeAt.rename {f : ι → ι} {s : Side} {a b p : Option ι} {c : RbColor}
    (h : NodeAt m x s a b p c) (hx : RenamedAt m m' f x) :
    NodeAt m' (f x) s (a.map f) (b.map f) (p.map f) c :=
  ⟨by rw [hx.child, h.near], by rw [hx.child, h.far], by rw [hx.parent, h.parent],
    by rw [hx.color, h.color]⟩

theorem Rep.rename {f : ι → ι} {q : ι} (h : Rep m q t)
    (hf : ∀ y ∈ t.toList, RenamedAt m m' f y) : Rep m' (f q) (t.map f) := by
  induction t generalizing q with
  | nil => trivial
  | node c l x r ihl ihr =>
    obtain ⟨hx, hl, hr⟩ := h
    simp only [RedBlack.Tree.toList_node, List.mem_append, List.mem_cons] at hf
    refine ⟨?_, ihl hl fun y hy => hf y (.inl hy), ihr hr fun y hy => hf y (.inr (.inr hy))⟩
    simpa using hx.rename (hf x (.inr (.inl rfl)))

/-- **A memory renamed node by node holds the renamed tree.** -/
theorem At.rename {f : ι → ι} (h : At m d [] t) (hf : ∀ y ∈ d :: t.toList, RenamedAt m m' f y)
    (hd : f d = d) (hinj : Function.Injective f) : At m' d [] (t.map f) := by
  refine ⟨?_, ?_, ?_⟩
  · have hrep := h.rep.rename fun y hy => hf y (by simp [hy])
    exact hd ▸ hrep
  · have hroot := NodeAt.rename h.repC (hf d (by simp))
    rw [hd] at hroot
    simpa [RepC] using hroot
  · have hnodup := h.nodup.map hinj
    simpa [hd] using hnodup

/-! ### Swapping -/

variable [DecidableEq ι]

theorem relinkParent_eq {a b p : ι} (h : m.parent a = some p) :
    relinkParent m a b =
      .ok (m.setChild (if m.child .left p = some a then .left else .right) p (some b)) := by
  simp [relinkParent, isLeftChild, isChild, h]

@[simp] theorem color_swapChildren (a b : ι) : (swapChildren m a b).color = m.color := by
  simp [swapChildren]

theorem child_swapChildren {a b : ι} (hab : a ≠ b) (r : Side) (y : ι) :
    (swapChildren m a b).child r y =
      if y = b then m.child r a else if y = a then m.child r b else m.child r y := by
  have hba : b ≠ a := Ne.symm hab
  cases r <;> by_cases hyb : y = b <;> by_cases hya : y = a <;>
    simp [swapChildren, Mem.left, Mem.right, hyb, hya, hab, hba]

theorem parent_swapChildren {a b : ι} (hab : a ≠ b) (hright : m.right b = none) (y : ι) :
    (swapChildren m a b).parent y =
      if m.right a = some y ∨ m.left a = some y then some b
      else if m.left b = some y then some a else m.parent y := by
  have hba : b ≠ a := Ne.symm hab
  have hright' : m.child .right b = none := hright
  by_cases hr : m.child .right a = some y <;> by_cases hl : m.child .left a = some y <;>
    by_cases hb : m.child .left b = some y <;>
      simp [swapChildren, Mem.left, Mem.right, hba, hright', hr, hl, hb]

theorem map_swap_of_ne {a b : ι} {p : Option ι} (ha : p ≠ some a) (hb : p ≠ some b) :
    p.map (Equiv.swap a b) = p := by
  cases p with
  | none => rfl
  | some y => simp [Equiv.swap_apply_of_ne_of_ne (by simpa using ha) (by simpa using hb)]

/-- The nodes `a` and `b`, with parents `pa` and `q`, where `b` lies below `a` and has no
right child, and is the left child of `a` if it is a child of `a` at all. -/
structure Swappable (m : Mem ι) (a b pa q : ι) (sa sb : Side) : Prop where
  ne : a ≠ b
  parent_a : m.parent a = some pa
  parent_b : m.parent b = some q
  right_b : m.right b = none
  pa_ne_a : pa ≠ a
  pa_ne_b : pa ≠ b
  pa_ne_q : pa ≠ q
  q_ne_b : q ≠ b
  child_pa : ∀ r, m.child r pa = some a ↔ r = sa
  child_q : ∀ r, m.child r q = some b ↔ r = sb
  adjacent : q = a → sb = .left
  child_a_ne : ∀ r, m.child r a ≠ some a
  child_b_ne : ∀ r, m.child r b ≠ some b
  below : ∀ r, m.child r b ≠ some a
  of_child : ∀ r, m.child r a = some b → q = a

namespace Swappable

variable {a b pa q : ι} {sa sb : Side}

theorem pa_ne (h : Swappable m a b pa q sa sb) : pa ≠ if q = a then b else q := by
  split
  · exact h.pa_ne_b
  · exact h.pa_ne_q

/-- What `swap` writes. -/
theorem fields (h : Swappable m a b pa q sa sb) :
    ∃ m', swap m a b = .ok m' ∧
      (∀ y, m'.color y = if y = b then m.color a else if y = a then m.color b else m.color y) ∧
      (∀ r y, m'.child r y =
        if y = (if q = a then b else q) ∧ r = sb then some a
        else if y = pa ∧ r = sa then some b
        else if y = b then m.child r a else if y = a then m.child r b else m.child r y) ∧
      ∀ y, m'.parent y =
        if y = b then some pa
        else if y = a then some (if q = a then b else q)
        else if m.right a = some y ∨ m.left a = some y then some b
        else if m.left b = some y then some a else m.parent y := by
  have hab := h.ne
  have hba : b ≠ a := Ne.symm hab
  have hla : m.left a ≠ some a := h.child_a_ne .left
  have hra : m.right a ≠ some a := h.child_a_ne .right
  have hlba : m.left b ≠ some a := h.below .left
  have hlbb : m.left b ≠ some b := h.child_b_ne .left
  -- the parent of `a`
  have hparenta : (swapChildren m a b).parent a = some pa := by
    rw [parent_swapChildren hab h.right_b, if_neg (by simp [hla, hra]), if_neg hlba, h.parent_a]
  have hside : (if (swapChildren m a b).child .left pa = some a then Side.left else .right) =
      sa := by
    simp only [child_swapChildren hab, h.pa_ne_b, h.pa_ne_a, if_false, h.child_pa]
    cases sa <;> rfl
  set m₁ := (swapChildren m a b).setChild sa pa (some b) with hm₁
  have hrelink : relinkParent (swapChildren m a b) a b = .ok m₁ := by
    rw [relinkParent_eq hparenta, hside]
  -- the parent of `b`, which is by now `b` itself if it was `a`
  have hparentb : m₁.parent b = some (if q = a then b else q) := by
    rw [hm₁, Mem.parent_setChild, parent_swapChildren hab h.right_b]
    by_cases hqa : q = a
    · rw [if_pos hqa, if_pos]
      have hleft := (h.child_q .left).mpr (h.adjacent hqa).symm
      exact .inr (hqa ▸ hleft)
    · have hrb : m.right a ≠ some b := fun hr => hqa (h.of_child .right hr)
      have hlb : m.left a ≠ some b := fun hl => hqa (h.of_child .left hl)
      rw [if_neg hqa, if_neg (by simp [hrb, hlb]), if_neg hlbb, h.parent_b]
  have hne := h.pa_ne
  set pb := if q = a then b else q with hpb
  set m₂ := m₁.setParent a (some pb) with hm₂
  have hlink : m₂.child .left pb = some b ↔ Side.left = sb := by
    have hchild : m₂.child .left pb = (swapChildren m a b).child .left pb := by
      simp [hm₂, hm₁, Ne.symm hne]
    rw [hchild, child_swapChildren hab, ← h.child_q, hpb]
    by_cases hqa : q = a
    · simp [hqa]
    · simp [hqa, h.q_ne_b]
  have hside' : (if m₂.child .left pb = some b then Side.left else .right) = sb := by
    simp only [hlink]
    cases sb <;> rfl
  have hrelink' : relinkParent m₂ b a = .ok (m₂.setChild sb pb (some a)) := by
    rw [relinkParent_eq (p := pb) (by simp [hm₂, hba, hparentb]), hside']
  have hswap : swap m a b =
      .ok ((((m₂.setChild sb pb (some a)).setParent b (some pa)).setColor a (m.color b)).setColor b
        (m.color a)) := by
    simp only [swap, hrelink, ok_bind, hparentb, ← hm₂, hrelink', h.parent_a, pure_eq_ok,
      Mem.color_setParent, Mem.color_setChild]
    simp [hm₂, hm₁]
  refine ⟨_, hswap, fun y => ?_, fun r y => ?_, fun y => ?_⟩
  · simp [hm₂, hm₁]
  · simp only [Mem.child_setColor, Mem.child_setParent, Mem.child_setChild, hm₂, hm₁,
      child_swapChildren hab, and_comm]
  · simp only [Mem.parent_setColor, Mem.parent_setParent, Mem.parent_setChild, hm₂, hm₁,
      parent_swapChildren hab h.right_b]

/-- The children that `swap` writes are the renamed ones. -/
theorem child_renamed (h : Swappable m a b pa q sa sb) (r : Side)
    (ha : m.child r y = some a → y = pa) (hb : m.child r y = some b → y = q) :
    (if Equiv.swap a b y = (if q = a then b else q) ∧ r = sb then some a
      else if Equiv.swap a b y = pa ∧ r = sa then some b
      else if Equiv.swap a b y = b then m.child r a
      else if Equiv.swap a b y = a then m.child r b
      else m.child r (Equiv.swap a b y)) = (m.child r y).map (Equiv.swap a b) := by
  rcases eq_or_ne y a with rfl | hya
  · rw [Equiv.swap_apply_left]
    by_cases hqy : q = y
    · by_cases hr : r = sb
      · have hyb : m.child r y = some b := hqy ▸ (h.child_q r).mpr hr
        rw [hyb, if_pos ⟨(if_pos hqy).symm, hr⟩]
        simp
      · have hyb : m.child r y ≠ some b := fun hrb => hr ((h.child_q r).mp (hqy ▸ hrb))
        simp [hr, Ne.symm h.pa_ne_b, map_swap_of_ne (h.child_a_ne r) hyb]
    · simp [hqy, Ne.symm h.q_ne_b, Ne.symm h.pa_ne_b,
        map_swap_of_ne (h.child_a_ne r) fun hrb => hqy (hb hrb).symm]
  · rcases eq_or_ne y b with rfl | hyb
    · rw [Equiv.swap_apply_right, map_swap_of_ne (h.below r) (h.child_b_ne r)]
      have hpb : a ≠ if q = a then y else q := by
        split
        · exact h.ne
        · exact Ne.symm ‹_›
      simp [hpb, Ne.symm h.pa_ne_a, h.ne]
    · rw [Equiv.swap_apply_of_ne_of_ne hya hyb, if_neg hyb, if_neg hya]
      by_cases hra : m.child r y = some a
      · obtain rfl : y = pa := ha hra
        rw [if_neg fun hand => h.pa_ne hand.1, if_pos ⟨rfl, (h.child_pa r).mp hra⟩, hra]
        simp
      · by_cases hrb : m.child r y = some b
        · obtain rfl : y = q := hb hrb
          rw [if_neg hya, if_pos ⟨rfl, (h.child_q r).mp hrb⟩, hrb]
          simp
        · rw [map_swap_of_ne hra hrb, if_neg, if_neg]
          · rintro ⟨rfl, rfl⟩
            exact hra ((h.child_pa r).mpr rfl)
          · rintro ⟨hypb, rfl⟩
            split at hypb
            · exact hyb hypb
            · exact hrb (hypb ▸ (h.child_q r).mpr rfl)

/-- The parents that `swap` writes are the renamed ones. -/
theorem parent_renamed (h : Swappable m a b pa q sa sb)
    (ha : m.parent y = some a ↔ m.right a = some y ∨ m.left a = some y)
    (hb : m.parent y = some b ↔ m.left b = some y) :
    (if Equiv.swap a b y = b then some pa
      else if Equiv.swap a b y = a then some (if q = a then b else q)
      else if m.right a = some (Equiv.swap a b y) ∨ m.left a = some (Equiv.swap a b y) then some b
      else if m.left b = some (Equiv.swap a b y) then some a
      else m.parent (Equiv.swap a b y)) = (m.parent y).map (Equiv.swap a b) := by
  rcases eq_or_ne y a with rfl | hya
  · rw [Equiv.swap_apply_left, if_pos rfl, h.parent_a,
      map_swap_of_ne (by simpa using h.pa_ne_a) (by simpa using h.pa_ne_b)]
  · rcases eq_or_ne y b with rfl | hyb
    · rw [Equiv.swap_apply_right, if_neg h.ne, if_pos rfl, h.parent_b]
      by_cases hqa : q = a
      · simp [hqa]
      · rw [if_neg hqa, map_swap_of_ne (by simpa using hqa) (by simpa using h.q_ne_b)]
    · rw [Equiv.swap_apply_of_ne_of_ne hya hyb, if_neg hyb, if_neg hya]
      by_cases hpa : m.parent y = some a
      · rw [if_pos (ha.mp hpa), hpa]
        simp
      · rw [if_neg fun hc => hpa (ha.mpr hc)]
        by_cases hpb : m.parent y = some b
        · rw [if_pos (hb.mp hpb), hpb]
          simp
        · rw [if_neg fun hc => hpb (hb.mpr hc), map_swap_of_ne hpa hpb]

end Swappable

/-- **Swapping a node with its predecessor renames the two.** -/
theorem swap_eq {a b : ι} (h : At m d [] t) (ha : a ∈ t.toList) (hb : b ∈ t.toList)
    (hab : a ≠ b) (hright : m.right b = none) (hbelow : m.parent a ≠ some b)
    (hsib : m.parent a ≠ m.parent b) (hadj : m.parent b = some a → m.left a = some b) :
    ∃ m', swap m a b = .ok m' ∧ At m' d [] (t.map (Equiv.swap a b)) := by
  obtain ⟨pa, hpat, hpa, hpaa, sa, hsa⟩ := h.parent_child ha
  obtain ⟨q, hqt, hq, hqb, sb, hsb⟩ := h.parent_child hb
  have hone : ∀ {s r y z}, y ∈ d :: t.toList → m.child s y = some z →
      (m.child r y = some z ↔ r = s) := by
    intro s r y z hy hz
    refine ⟨fun hr => ?_, fun hr => hr ▸ hz⟩
    exact (Side.eq_or_eq_flip s r).resolve_right fun hrs => (h.child_parent hy hz).2.2 (hrs ▸ hr)
  have hup : ∀ {s y z}, y ∈ d :: t.toList → m.child s y = some z → m.parent z = some y :=
    fun hy hz => (h.child_parent hy hz).2.1
  have ha' := List.mem_cons_of_mem d ha
  have hb' := List.mem_cons_of_mem d hb
  have hswap : Swappable m a b pa q sa sb :=
    { ne := hab
      parent_a := hpa
      parent_b := hq
      right_b := hright
      pa_ne_a := hpaa
      pa_ne_b := fun hp => hbelow (hp ▸ hpa)
      pa_ne_q := fun hp => hsib (by rw [hpa, hq, hp])
      q_ne_b := hqb
      child_pa := fun r => hone hpat hsa
      child_q := fun r => hone hqt hsb
      adjacent := fun hqa => ((hone hqt hsb).mp (hqa ▸ hadj (hqa ▸ hq))).symm
      child_a_ne := fun r hr => hpaa (Option.some_inj.mp (hpa.symm.trans (hup ha' hr)))
      child_b_ne := fun r hr => hqb (Option.some_inj.mp (hq.symm.trans (hup hb' hr)))
      below := fun r hr => hbelow (hup hb' hr)
      of_child := fun r hr => Option.some_inj.mp (hq.symm.trans (hup ha' hr)) }
  obtain ⟨m', hm', hcolor, hchild, hparent⟩ := hswap.fields
  have hd : ∀ {y}, y ∈ t.toList → y ≠ d := fun hy hyd =>
    (List.nodup_cons.mp h.nodup).1 (by simp [← hyd, hy])
  refine ⟨m', hm', h.rename (fun y hy => ⟨fun r => ?_, ?_, ?_⟩) ?_ (Equiv.injective _)⟩
  · rw [hchild]
    refine hswap.child_renamed r (fun hr => ?_) fun hr => ?_
    · exact Option.some_inj.mp ((hup hy hr).symm.trans hpa)
    · exact Option.some_inj.mp ((hup hy hr).symm.trans hq)
  · rw [hparent]
    refine hswap.parent_renamed (h.parent_eq_iff ha hy) ((h.parent_eq_iff hb hy).trans ?_)
    simp [hright]
  · rw [hcolor]
    rcases eq_or_ne y a with rfl | hya
    · simp
    · rcases eq_or_ne y b with rfl | hyb
      · simp [hab]
      · simp [Equiv.swap_apply_of_ne_of_ne hya hyb, hya, hyb]
  · exact Equiv.swap_apply_of_ne_of_ne (hd ha).symm (hd hb).symm

end NaviScheme
