import Mathlib.Data.List.Nodup
import Mathlib.Logic.Function.Basic

/-!
# Doubly linked lists in memory

A table of lists is kept as pointers: each list has a pointer to its first element, each element
one to the next element, and one to the pointer that points to it (`Links`). So an element can be
removed without its list (`Links.remove`).

`Links.Represents` says that the pointers are those of given lists. Inserting at the front of a list
and removing an element do to the lists what they should, and walking along the pointers finds
what there is to find.
-/

/-- Where a pointer to an element is: in the head of a list, or in another element. -/
inductive Slot (H A : Type)
  | head (h : H)
  | next (a : A)
  deriving DecidableEq

/-- The pointers to elements, by where they are, and the pointers of the elements to them. -/
structure Links (H A : Type) where
  pointer : Slot H A → Option A
  prev : A → Option (Slot H A)

namespace Links

variable {H A : Type}

/-- No elements. -/
def empty : Links H A := ⟨fun _ => none, fun _ => none⟩

/-- The first element from a slot on that has a property, if at most `n` pointers are read. -/
def find (p : A → Bool) (L : Links H A) : ℕ → Slot H A → Option (Option A)
  | 0, _ => none
  | n + 1, s =>
    match L.pointer s with
    | none => some none
    | some a => if p a then some (some a) else find p L n (.next a)

section Change

variable [DecidableEq H] [DecidableEq A]

/-- Where an element points back to is set, if there is one. -/
def setPrev (L : Links H A) (o : Option A) (s : Option (Slot H A)) : A → Option (Slot H A) :=
  match o with
  | some a => Function.update L.prev a s
  | none => L.prev

/-- An element is inserted at the front of a list. -/
def insertHead (L : Links H A) (h : H) (a : A) : Links H A where
  pointer := Function.update (Function.update L.pointer (.next a) (L.pointer (.head h)))
    (.head h) (some a)
  prev := Function.update (L.setPrev (L.pointer (.head h)) (some (.next a))) a (some (.head h))

/-- An element is taken out of its list; `none` where nothing points to it. -/
def remove (L : Links H A) (a : A) : Option (Links H A) :=
  match L.prev a with
  | none => none
  | some s => some
    { pointer := Function.update L.pointer s (L.pointer (.next a))
      prev := L.setPrev (L.pointer (.next a)) (L.prev a) }

end Change

/-! ### Lists of elements -/

/-- The elements from a slot on. -/
def Holds (L : Links H A) : Slot H A → List A → Prop
  | s, [] => L.pointer s = none
  | s, a :: as => L.pointer s = some a ∧ L.prev a = some s ∧ L.Holds (.next a) as

/-- The lists of a table: no element is in two places. -/
structure Represents (L : Links H A) (T : H → List A) : Prop where
  holds : ∀ h, L.Holds (.head h) (T h)
  nodup : ∀ h, (T h).Nodup
  disjoint : ∀ {h h' a}, a ∈ T h → a ∈ T h' → h = h'

variable {L L' : Links H A} {s : Slot H A} {T : H → List A} {h h' : H} {a b : A} {as bs : List A}

theorem represents_empty : (empty : Links H A).Represents fun _ => [] where
  holds _ := rfl
  nodup _ := List.nodup_nil
  disjoint h := nomatch h

/-- Walking along a list finds the first element with the property. -/
theorem Holds.find_eq {p : A → Bool} {n : ℕ} (hL : L.Holds s as) (hn : as.length < n) :
    L.find p n s = some (as.find? p) := by
  induction as generalizing s n with
  | nil =>
    obtain ⟨n, rfl⟩ := Nat.exists_eq_succ_of_ne_zero (Nat.ne_of_gt hn)
    rw [find, hL]
    rfl
  | cons a as ih =>
    obtain ⟨n, rfl⟩ := Nat.exists_eq_succ_of_ne_zero (Nat.ne_of_gt (Nat.zero_lt_of_lt hn))
    obtain ⟨hpointer, -, hrest⟩ := hL
    rw [find, hpointer, List.find?_cons]
    dsimp only
    cases hp : p a with
    | true => rfl
    | false => exact ih hrest (Nat.lt_of_succ_lt_succ hn)

/-- A list is as it was if its pointers are. -/
theorem Holds.congr (hL : L.Holds s as) (hs : L'.pointer s = L.pointer s)
    (hnext : ∀ a ∈ as, L'.pointer (.next a) = L.pointer (.next a))
    (hprev : ∀ a ∈ as, L'.prev a = L.prev a) : L'.Holds s as := by
  induction as generalizing s with
  | nil => exact hs.trans hL
  | cons a as ih =>
    obtain ⟨hpointer, hback, hrest⟩ := hL
    rw [List.forall_mem_cons] at hnext hprev
    exact ⟨hs.trans hpointer, hprev.1.trans hback, ih hrest hnext.1 hnext.2 hprev.2⟩

/-- The lists of a table are as they were if their pointers are. -/
theorem Represents.congr (hT : L.Represents T) (hpointer : L'.pointer = L.pointer)
    (hprev : ∀ h, ∀ a ∈ T h, L'.prev a = L.prev a) : L'.Represents T where
  holds h := (hT.holds h).congr (congrFun hpointer _) (fun _ _ => congrFun hpointer _) (hprev h)
  nodup := hT.nodup
  disjoint := hT.disjoint

theorem Holds.pointer_eq (hL : L.Holds s as) : L.pointer s = as.head? := by
  cases as with
  | nil => exact hL
  | cons a as => exact hL.1

/-- What follows an element of a list. -/
theorem Holds.next (hL : L.Holds s (as ++ a :: bs)) : L.Holds (.next a) bs := by
  induction as generalizing s with
  | nil => exact hL.2.2
  | cons b as ih => exact ih hL.2.2

/-- Where the pointer to an element of a list is. -/
theorem Holds.exists_prev (hL : L.Holds s (as ++ a :: bs)) :
    ∃ t, L.prev a = some t ∧ (as = [] ∧ t = s ∨ ∃ b ∈ as, t = .next b) := by
  induction as generalizing s with
  | nil => exact ⟨s, hL.2.1, .inl ⟨rfl, rfl⟩⟩
  | cons b as ih =>
    obtain ⟨t, ht, ⟨-, rfl⟩ | ⟨c, hc, rfl⟩⟩ := ih hL.2.2
    · exact ⟨_, ht, .inr ⟨b, List.mem_cons_self, rfl⟩⟩
    · exact ⟨_, ht, .inr ⟨c, List.mem_cons_of_mem b hc, rfl⟩⟩

section

variable [DecidableEq A]

theorem setPrev_of_ne {o : Option A} {t : Option (Slot H A)} (hne : o ≠ some a) :
    L.setPrev o t a = L.prev a := by
  cases o with
  | none => rfl
  | some b => exact Function.update_of_ne (fun h => hne (congrArg some h.symm)) _ _

/-- A list that is moved behind another slot: only its first element points back to it. -/
theorem Holds.move {t : Slot H A} (hL : L.Holds s as) (hnodup : as.Nodup)
    (hpointer : L'.pointer t = L.pointer s)
    (hnext : ∀ a ∈ as, L'.pointer (.next a) = L.pointer (.next a))
    (hprev : ∀ a ∈ as, L'.prev a = L.setPrev (L.pointer s) (some t) a) : L'.Holds t as := by
  cases as with
  | nil => exact hpointer.trans hL
  | cons a as =>
    obtain ⟨hfirst, -, hrest⟩ := hL
    obtain ⟨hmem, -⟩ := List.nodup_cons.mp hnodup
    rw [List.forall_mem_cons] at hnext hprev
    rw [hfirst] at hpointer hprev
    refine ⟨hpointer, hprev.1.trans (Function.update_self _ _ _), hrest.congr hnext.1 hnext.2 ?_⟩
    intro b hb
    rw [hprev.2 b hb]
    exact setPrev_of_ne fun heq => hmem (Option.some.inj heq ▸ hb)

end

variable [DecidableEq H] [DecidableEq A]

/-! ### Changing one list of a table -/

omit [DecidableEq A] in
theorem mem_update_cons :
    b ∈ Function.update T h (a :: T h) h' ↔ b ∈ T h' ∨ h' = h ∧ b = a := by
  by_cases heq : h' = h
  · subst heq
    rw [Function.update_self, List.mem_cons, or_comm, and_iff_right rfl]
  · rw [Function.update_of_ne heq, or_iff_left fun h => heq h.1]

theorem Represents.mem_update_erase (hT : L.Represents T) (ha : a ∈ T h) :
    b ∈ Function.update T h ((T h).erase a) h' ↔ b ∈ T h' ∧ b ≠ a := by
  by_cases heq : h' = h
  · subst heq
    rw [Function.update_self, (hT.nodup h').mem_erase_iff, and_comm]
  · rw [Function.update_of_ne heq, and_iff_left_of_imp]
    rintro hb rfl
    exact heq (hT.disjoint hb ha)

/-! ### Inserting -/

omit [DecidableEq H] [DecidableEq A] in
theorem next_ne_head : (Slot.next a : Slot H A) ≠ .head h := nofun

theorem insertHead_pointer_next_self :
    (L.insertHead h a).pointer (.next a) = L.pointer (.head h) := by
  simp [insertHead]

theorem insertHead_pointer_next (hne : b ≠ a) :
    (L.insertHead h a).pointer (.next b) = L.pointer (.next b) := by
  simp [insertHead, hne]

theorem insertHead_pointer_head (hne : h' ≠ h) :
    (L.insertHead h a).pointer (.head h') = L.pointer (.head h') := by
  simp [insertHead, hne]

theorem insertHead_prev (hne : b ≠ a) :
    (L.insertHead h a).prev b = L.setPrev (L.pointer (.head h)) (some (.next a)) b :=
  Function.update_of_ne hne _ _

/-- A new element is put in front of its list, and the other lists are as they were. -/
theorem Represents.insertHead (hT : L.Represents T) (hfresh : ∀ h, a ∉ T h) (h : H) :
    (L.insertHead h a).Represents (Function.update T h (a :: T h)) := by
  have hne : ∀ {h' b}, b ∈ T h' → b ≠ a := fun hb heq => hfresh _ (heq ▸ hb)
  have hother : ∀ {h'}, h' ≠ h → Function.update T h (a :: T h) h' = T h' := fun hne =>
    Function.update_of_ne hne _ _
  have hself : Function.update T h (a :: T h) h = a :: T h := Function.update_self _ _ _
  refine ⟨fun h' => ?_, fun h' => ?_, ?_⟩
  · by_cases heq : h' = h
    · subst heq
      rw [hself]
      refine ⟨Function.update_self _ _ _, Function.update_self _ _ _, ?_⟩
      exact (hT.holds h').move (hT.nodup h') insertHead_pointer_next_self
        (fun b hb => insertHead_pointer_next (hne hb)) fun b hb => insertHead_prev (hne hb)
    · rw [hother heq]
      refine (hT.holds h').congr (insertHead_pointer_head heq)
        (fun b hb => insertHead_pointer_next (hne hb)) fun b hb => ?_
      rw [insertHead_prev (hne hb)]
      refine setPrev_of_ne fun hfirst => heq (hT.disjoint hb ?_)
      exact List.mem_of_mem_head? ((hT.holds h).pointer_eq.symm.trans hfirst)
  · by_cases heq : h' = h
    · subst heq
      rw [hself]
      exact List.nodup_cons.mpr ⟨hfresh h', hT.nodup h'⟩
    · rw [hother heq]
      exact hT.nodup h'
  · intro h₁ h₂ b hb₁ hb₂
    obtain hold₁ | ⟨heq₁, hb⟩ := mem_update_cons.mp hb₁
    · obtain hold₂ | ⟨-, hb⟩ := mem_update_cons.mp hb₂
      · exact hT.disjoint hold₁ hold₂
      · exact absurd hb (hne hold₁)
    · obtain hold₂ | ⟨heq₂, -⟩ := mem_update_cons.mp hb₂
      · exact absurd hb (hne hold₂)
      · exact heq₁.trans heq₂.symm

/-! ### Removing -/

/-- The pointer to an element is redirected to the next one. -/
theorem Holds.remove {t : Slot H A} (hL : L.Holds s (as ++ a :: bs))
    (hnodup : (as ++ a :: bs).Nodup) (hs : ∀ b ∈ as ++ a :: bs, s ≠ .next b)
    (ht : L.prev a = some t) (hpointer : L'.pointer = Function.update L.pointer t (L.pointer (.next a)))
    (hprev : L'.prev = L.setPrev (L.pointer (.next a)) (some t)) : L'.Holds s (as ++ bs) := by
  induction as generalizing s with
  | nil =>
    obtain ⟨-, hback, hrest⟩ := hL
    cases ht.symm.trans hback
    rw [List.nil_append] at hnodup hs ⊢
    refine hrest.move (List.nodup_cons.mp hnodup).2 ?_ (fun b hb => ?_) fun b _ => ?_
    · rw [hpointer, Function.update_self]
    · rw [hpointer, Function.update_of_ne (hs b (List.mem_cons_of_mem a hb)).symm]
    · rw [hprev]
  | cons x as ih =>
    obtain ⟨hfirst, hback, hrest⟩ := hL
    rw [List.cons_append] at hnodup hs ⊢
    obtain ⟨hmem, hnodup⟩ := List.nodup_cons.mp hnodup
    have hst : s ≠ t := by
      obtain ⟨t', ht', ⟨-, rfl⟩ | ⟨b, hb, rfl⟩⟩ := hrest.exists_prev
      · cases ht.symm.trans ht'
        exact hs x List.mem_cons_self
      · cases ht.symm.trans ht'
        exact hs b (List.mem_cons_of_mem x (List.mem_append_left _ hb))
    refine ⟨?_, ?_, ih hrest hnodup fun b hb heq => hmem (Slot.next.inj heq ▸ hb)⟩
    · rw [hpointer, Function.update_of_ne hst]
      exact hfirst
    · rw [hprev, setPrev_of_ne]
      · exact hback
      · rw [hrest.next.pointer_eq]
        intro heq
        refine hmem (List.mem_append_right _ (List.mem_cons_of_mem a ?_))
        exact List.mem_of_mem_head? heq

/-- An element is taken out of its list, and the other lists are as they were. -/
theorem Represents.remove (hT : L.Represents T) (ha : a ∈ T h) :
    ∃ L', L.remove a = some L' ∧ L'.Represents (Function.update T h ((T h).erase a)) := by
  obtain ⟨as, bs, hsplit⟩ := List.append_of_mem ha
  have hholds := hT.holds h
  have hnodup := hT.nodup h
  rw [hsplit] at hholds hnodup
  have herase : (T h).erase a = as ++ bs := by
    have hnot : a ∉ as := fun hmem =>
      (List.nodup_append.mp hnodup).2.2 a hmem a List.mem_cons_self rfl
    rw [hsplit, List.erase_append_right _ hnot, List.erase_cons_head]
  obtain ⟨t, ht, hplace⟩ := hholds.exists_prev
  have hmem : ∀ {b}, b ∈ as ∨ b ∈ bs → b ∈ T h := by
    rintro b hb
    rw [hsplit, List.mem_append, List.mem_cons]
    exact hb.imp_right .inr
  refine ⟨_, by rw [Links.remove, ht], fun h' => ?_, fun h' => ?_, ?_⟩
  · by_cases heq : h' = h
    · subst heq
      rw [Function.update_self, herase]
      exact hholds.remove hnodup (fun _ _ => next_ne_head.symm) ht rfl rfl
    · rw [Function.update_of_ne heq]
      refine (hT.holds h').congr ?_ (fun b hb => ?_) fun b hb => ?_
      · refine Function.update_of_ne ?_ _ _
        obtain ⟨-, rfl⟩ | ⟨c, -, rfl⟩ := hplace
        · exact fun h => heq (Slot.head.inj h)
        · exact next_ne_head.symm
      · refine Function.update_of_ne ?_ _ _
        obtain ⟨-, rfl⟩ | ⟨c, hc, rfl⟩ := hplace
        · exact next_ne_head
        · rintro h
          cases Slot.next.inj h
          exact heq (hT.disjoint hb (hmem (.inl hc)))
      · refine setPrev_of_ne fun hfirst => heq (hT.disjoint hb (hmem (.inr ?_)))
        exact List.mem_of_mem_head? (hholds.next.pointer_eq.symm.trans hfirst)
  · by_cases heq : h' = h
    · subst heq
      rw [Function.update_self]
      exact (hT.nodup h').erase a
    · rw [Function.update_of_ne heq]
      exact hT.nodup h'
  · exact fun {_ _ _} hb₁ hb₂ =>
      hT.disjoint ((hT.mem_update_erase ha).mp hb₁).1 ((hT.mem_update_erase ha).mp hb₂).1

end Links
