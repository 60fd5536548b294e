import NaviScheme.Heap.Object
import NaviScheme.Lib.CopyForward
import NaviScheme.Strings.Replace

/-!
# Vectors and bytevectors

The operations of `vector.c` and `bytevector.c` that copy and fill. The two files have the same
`copy_to`, which copies one element after the other, upwards (`copyElements`): to another object
that is what it should be, and to the same one it is as long as the elements that are copied are not
overwritten before they are read, or are equal to those that overwrite them (`copies_iff`).
-/

namespace NaviScheme

/-- The vectors, or the bytevectors, by their addresses. -/
abbrev Arrays (β : Type) := List (List β)

section

variable {β : Type}

/-- The elements of the object at an address. -/
def Arrays.get (h : Arrays β) (a : ℕ) : Except StringStop (List β) :=
  match h[a]? with
  | some data => .ok data
  | none => .error .fault

/-- `data[i]` -/
def loadAt (data : List β) (i : ℤ) : Except StringStop β :=
  match if 0 ≤ i then data[i.toNat]? else none with
  | some x => .ok x
  | none => .error .fault

/-- `data[i] = x` -/
def storeAt (data : List β) (i : ℤ) (x : β) : Except StringStop (List β) :=
  if 0 ≤ i ∧ i < data.length then .ok (data.set i.toNat x) else .error .fault

/-- `copy_to` of `vector.c` and of `bytevector.c`, with `n` elements left. -/
def copyElements (h : Arrays β) (to_ at_ from_ i : ℕ) : ℕ → Except StringStop (Arrays β)
  | 0 => .ok h
  | n + 1 => do
    let tov ← h.get to_
    let fromv ← h.get from_
    let x ← loadAt fromv i
    let data ← storeAt tov at_ x
    copyElements (h.set to_ data) to_ (at_ + 1) from_ (i + 1) n

/-- `vector-copy!` and `bytevector-copy!` -/
def sequenceCopyTo (h : Arrays β) (to_ : ℕ) (at_ : ℤ) (from_ : ℕ) (start end_ : Option StringArg) :
    Except StringStop (Arrays β) := do
  let tov ← h.get to_
  let fromv ← h.get from_
  let start ← fixnumOr start 0
  let end_ ← fixnumOr end_ fromv.length
  naviCheckCopyTo tov.length at_ fromv.length start end_
  copyElements h to_ at_.toNat from_ start.toNat (end_ - start).toNat

/-- `vector-copy` and `bytevector-copy`; `junk` is what is in the memory of the new object. -/
def sequenceCopy (junk : ℕ → β) (h : Arrays β) (from_ : ℕ) (start end_ : Option StringArg) :
    Except StringStop (Arrays β) := do
  let vec ← h.get from_
  let start ← fixnumOr start 0
  let end_ ← fixnumOr end_ vec.length
  naviCheckCopy vec.length start end_
  copyElements (h ++ [(List.range (end_ - start).toNat).map junk]) h.length 0 from_ start.toNat
    (end_ - start).toNat

/-- The loop of `vector-fill!`, with `n` elements left. -/
def fillElements (fill : β) (data : List β) (i : ℕ) : ℕ → Except StringStop (List β)
  | 0 => .ok data
  | n + 1 => do
    let data ← storeAt data i fill
    fillElements fill data (i + 1) n

end

/-- `vector-copy!` -/
def vectorCopyTo (h : Arrays NaviObj) := sequenceCopyTo h

/-- `bytevector-copy!` -/
def bytevectorCopyTo (h : Arrays UInt8) := sequenceCopyTo h

/-- `vector-copy` -/
def vectorCopy (junk : ℕ → NaviObj) (h : Arrays NaviObj) := sequenceCopy junk h

/-- `bytevector-copy` -/
def bytevectorCopy (junk : ℕ → UInt8) (h : Arrays UInt8) := sequenceCopy junk h

/-- `vector-fill!` -/
def vectorFill (h : Arrays NaviObj) (a : ℕ) (fill : NaviObj) (start end_ : Option StringArg) :
    Except StringStop (Arrays NaviObj) := do
  let vec ← h.get a
  let start ← fixnumOr start 0
  let end_ ← fixnumOr end_ vec.length
  naviCheckCopy vec.length start end_
  let data ← fillElements fill vec start.toNat (end_ - start).toNat
  return h.set a data

section

variable {β : Type} {h : Arrays β} {t f : List β} {to_ from_ : ℕ}

theorem Arrays.get_eq_ok {a : ℕ} : h.get a = .ok t ↔ h[a]? = some t := by
  unfold Arrays.get
  cases h[a]? <;> simp

theorem loadAt_natCast {i : ℕ} (hi : i < t.length) : loadAt t (i : ℤ) = .ok t[i] := by
  rw [loadAt, if_pos (Int.natCast_nonneg i), Int.toNat_natCast, List.getElem?_eq_getElem hi]

theorem storeAt_natCast {i : ℕ} {x : β} (hi : i < t.length) :
    storeAt t (i : ℤ) x = .ok (t.set i x) := by
  rw [storeAt, if_pos (by omega), Int.toNat_natCast]

/-! ### `copy_to` -/

/-- A text with its part replaced, the first letter first. -/
theorem splice_set {k : ℕ} {x : β} {ys : List β} (hk : k < t.length) :
    splice (t.set k x) (k + 1 : ℕ) ys = splice t k (x :: ys) := by
  simp only [splice, Int.toNat_natCast, List.length_cons]
  rw [List.take_set, List.take_succ_eq_append_getElem hk, List.set_append_right _ _ (by simp),
    List.drop_set_of_lt (by omega)]
  simp only [List.length_take, min_eq_left hk.le, Nat.sub_self, List.set_cons_zero,
    List.append_assoc, List.singleton_append]
  congr 3
  omega

theorem splice_nil {k : ℤ} : splice t k [] = t := by
  simp [splice]

/-- **From another object.** -/
theorem copyElements_other {at_ i n : ℕ} (hne : from_ ≠ to_) (hto : h[to_]? = some t)
    (hfrom : h[from_]? = some f) (hat : at_ + n ≤ t.length) (hi : i + n ≤ f.length) :
    copyElements h to_ at_ from_ i n = .ok (h.set to_ (splice t at_ ((f.drop i).take n))) := by
  induction n generalizing h t at_ i with
  | zero =>
    obtain ⟨hlt, rfl⟩ := List.getElem?_eq_some_iff.mp hto
    rw [copyElements, List.take_zero, splice_nil, List.set_getElem_self]
  | succ n ih =>
    obtain ⟨hlt, -⟩ := List.getElem?_eq_some_iff.mp hto
    have hto' : (h.set to_ (t.set at_ f[i]))[to_]? = some (t.set at_ f[i]) :=
      List.getElem?_set_self hlt
    have hfrom' : (h.set to_ (t.set at_ f[i]))[from_]? = some f := by
      rw [List.getElem?_set_ne hne.symm, hfrom]
    rw [copyElements, Arrays.get_eq_ok.mpr hto, ok_bind, Arrays.get_eq_ok.mpr hfrom, ok_bind,
      loadAt_natCast (by omega), ok_bind, storeAt_natCast (by omega), ok_bind,
      ih hto' hfrom' (by rw [List.length_set]; omega) (by omega), List.set_set,
      splice_set (by omega), List.drop_eq_getElem_cons (show i < f.length by omega),
      List.take_succ_cons]

/-- **Within an object**, one after the other. -/
theorem copyElements_self {at_ i n : ℕ} (hto : h[to_]? = some t) (hat : at_ + n ≤ t.length)
    (hi : i + n ≤ t.length) :
    copyElements h to_ at_ to_ i n = .ok (h.set to_ (copyForward t at_ i n)) := by
  induction n generalizing h t at_ i with
  | zero =>
    obtain ⟨hlt, rfl⟩ := List.getElem?_eq_some_iff.mp hto
    rw [copyElements, copyForward, List.set_getElem_self]
  | succ n ih =>
    obtain ⟨hlt, -⟩ := List.getElem?_eq_some_iff.mp hto
    have hto' : (h.set to_ (t.set at_ t[i]))[to_]? = some (t.set at_ t[i]) :=
      List.getElem?_set_self hlt
    rw [copyElements, Arrays.get_eq_ok.mpr hto, ok_bind, ok_bind, loadAt_natCast (by omega),
      ok_bind, storeAt_natCast (by omega), ok_bind, ih hto' (by rw [List.length_set]; omega)
        (by rw [List.length_set]; omega), List.set_set, copyForward,
      List.getElem?_eq_getElem (show i < t.length by omega), Option.elim_some]

/-- What a copy is to leave: the elements of the source, in place of as many others. -/
def copied (h : Arrays β) (to_ : ℕ) (at_ : ℤ) (from_ : ℕ) (start end_ : ℤ) : Arrays β :=
  h.set to_ (splice (h.getD to_ []) at_ (slice (h.getD from_ []) start end_))

/-- **Copying is safe**: the object is another one, or the target is not behind the beginning of
the source, or the elements repeat themselves with the distance as the period; for example, if
there are not more of them. -/
def CopySafe (h : Arrays β) (to_ : ℕ) (at_ : ℤ) (from_ : ℕ) (start end_ : ℤ) : Prop :=
  from_ = to_ → start < at_ → ∀ j < (end_ - start).toNat,
    (h.getD from_ [])[start.toNat + j % (at_ - start).toNat]? =
      (h.getD from_ [])[start.toNat + j]?

/-- Elements in place of others, one by one. -/
theorem eq_splice_iff {t' ys : List β} {k : ℕ} (hlen : t'.length = t.length)
    (hk : k + ys.length ≤ t.length)
    (hframe : ∀ p, p < k ∨ k + ys.length ≤ p → t'[p]? = t[p]?) :
    t' = splice t k ys ↔ ∀ j < ys.length, t'[k + j]? = ys[j]? := by
  have hget : ∀ p, (splice t k ys)[p]? =
      if p < k ∨ k + ys.length ≤ p then t[p]? else ys[p - k]? := by
    intro p
    simp only [splice, Int.toNat_natCast, List.append_assoc]
    have hmin : (t.take k).length = k := by rw [List.length_take]; omega
    rcases Nat.lt_or_ge p k with hlt | hge
    · rw [if_pos (Or.inl hlt), List.getElem?_append_left (by omega), List.getElem?_take_of_lt hlt]
    · rw [List.getElem?_append_right (by omega), hmin]
      rcases Nat.lt_or_ge p (k + ys.length) with hlt' | hge'
      · rw [if_neg (by omega), List.getElem?_append_left (by omega)]
      · rw [if_pos (Or.inr hge'), List.getElem?_append_right (by omega), List.getElem?_drop]
        congr 1
        omega
  constructor
  · rintro rfl j hj
    rw [hget, if_neg (by omega), Nat.add_sub_cancel_left]
  · intro hpart
    refine List.ext_getElem? fun p => ?_
    rw [hget]
    split
    · rename_i hp
      exact hframe p hp
    · have := hpart (p - k) (by omega)
      rwa [show k + (p - k) = p by omega] at this

/-- **Copying elements** exactly. -/
theorem copyElements_eq_iff (hto : to_ < h.length) (hfrom : from_ < h.length) {at_ start end_ : ℤ}
    (hat : 0 ≤ at_) (h0 : 0 ≤ start) (hle : start ≤ end_) (hend : end_ ≤ (h.getD from_ []).length)
    (hle' : at_ + (end_ - start) ≤ (h.getD to_ []).length) :
    copyElements h to_ at_.toNat from_ start.toNat (end_ - start).toNat =
        .ok (copied h to_ at_ from_ start end_) ↔ CopySafe h to_ at_ from_ start end_ := by
  obtain ⟨k, rfl⟩ := Int.eq_ofNat_of_zero_le hat
  obtain ⟨i, rfl⟩ := Int.eq_ofNat_of_zero_le h0
  obtain ⟨n, rfl⟩ : ∃ n : ℕ, end_ = i + n := ⟨(end_ - i).toNat, by omega⟩
  have hn : ((i : ℤ) + n - i).toNat = n := by omega
  have hdist : ((k : ℤ) - i).toNat = k - i := by omega
  have hgetTo : h[to_]? = some (h.getD to_ []) := by
    rw [List.getD_eq_getElem _ _ hto, List.getElem?_eq_getElem hto]
  have hgetFrom : h[from_]? = some (h.getD from_ []) := by
    rw [List.getD_eq_getElem _ _ hfrom, List.getElem?_eq_getElem hfrom]
  simp only [copied, CopySafe, slice, hn, hdist, Int.toNat_natCast]
  by_cases hsame : from_ = to_
  · subst hsame
    generalize h.getD from_ [] = t at *
    have hpart : ((t.drop i).take n).length = n := by
      rw [List.length_take, List.length_drop]
      omega
    have hinj : (Except.ok (h.set from_ (copyForward t k i n)) : Except StringStop (Arrays β)) =
        .ok (h.set from_ (splice t k ((t.drop i).take n))) ↔
          copyForward t k i n = splice t k ((t.drop i).take n) := by
      constructor
      · intro heq
        have hset := congrArg (fun h : Arrays β => h[from_]?) (Except.ok.inj heq)
        simpa [List.getElem?_set_self hto] using hset
      · intro heq
        rw [heq]
    rw [copyElements_self hgetFrom (by omega) (by omega), hinj,
      eq_splice_iff (copyForward_length t k i n) (by omega) (fun p hp => copyForward_frame
        (by omega)), hpart]
    have hiff := copyForward_copies_iff (t := t) (k := k) (i := i) (n := n) (by omega) (by omega)
    simp only [true_implies, Int.ofNat_lt]
    rw [← hiff]
    exact forall₂_congr fun j hj => by rw [List.getElem?_take_of_lt hj, List.getElem?_drop]
  · rw [copyElements_other hsame hgetTo hgetFrom (by omega) (by omega)]
    exact ⟨fun _ heq => absurd heq hsame, fun _ => rfl⟩

/-- **`vector-copy!` or `bytevector-copy!`**, when the indices are accepted. -/
theorem sequenceCopyTo_eq_iff (hto : to_ < h.length) (hfrom : from_ < h.length) {at_ : ℤ}
    {start end_ : Option ℤ} (haccept : naviCheckCopyTo (h.getD to_ []).length at_
      (h.getD from_ []).length (start.getD 0) (end_.getD (h.getD from_ []).length) = .ok ()) :
    sequenceCopyTo h to_ at_ from_ (start.map .fixnum) (end_.map .fixnum) =
        .ok (copied h to_ at_ from_ (start.getD 0) (end_.getD (h.getD from_ []).length)) ↔
      CopySafe h to_ at_ from_ (start.getD 0) (end_.getD (h.getD from_ []).length) := by
  have hgetTo : h.get to_ = .ok (h.getD to_ []) := by
    rw [Arrays.get_eq_ok, List.getD_eq_getElem _ _ hto, List.getElem?_eq_getElem hto]
  have hgetFrom : h.get from_ = .ok (h.getD from_ []) := by
    rw [Arrays.get_eq_ok, List.getD_eq_getElem _ _ hfrom, List.getElem?_eq_getElem hfrom]
  obtain ⟨hat, -, h0, -, hle, hend, hle'⟩ := naviCheckCopyTo_iff.mp haccept
  rw [sequenceCopyTo, hgetTo, ok_bind, hgetFrom, ok_bind, fixnumOr_map, ok_bind, fixnumOr_map,
    ok_bind, haccept, ok_bind]
  exact copyElements_eq_iff hto hfrom hat h0 hle hend hle'

end

/-- The indices of a copy are accepted. -/
def CopyAccepted {β : Type} (h : Arrays β) (to_ : ℕ) (at_ : ℤ) (from_ : ℕ) (start end_ : Option ℤ) :
    Prop :=
  to_ < h.length ∧ from_ < h.length ∧ naviCheckCopyTo (h.getD to_ []).length at_
    (h.getD from_ []).length (start.getD 0) (end_.getD (h.getD from_ []).length) = .ok ()

/-- **`vector-copy!` and `bytevector-copy!`** leave in the target what the source has held, and
change nothing else, exactly when copying is safe. -/
theorem copies_iff (to_ : ℕ) (at_ : ℤ) (from_ : ℕ) (start end_ : Option ℤ) :
    (∀ h, CopyAccepted h to_ at_ from_ start end_ →
      (vectorCopyTo h to_ at_ from_ (start.map .fixnum) (end_.map .fixnum) =
          .ok (copied h to_ at_ from_ (start.getD 0) (end_.getD (h.getD from_ []).length)) ↔
        CopySafe h to_ at_ from_ (start.getD 0) (end_.getD (h.getD from_ []).length))) ∧
    ∀ h, CopyAccepted h to_ at_ from_ start end_ →
      (bytevectorCopyTo h to_ at_ from_ (start.map .fixnum) (end_.map .fixnum) =
          .ok (copied h to_ at_ from_ (start.getD 0) (end_.getD (h.getD from_ []).length)) ↔
        CopySafe h to_ at_ from_ (start.getD 0) (end_.getD (h.getD from_ []).length)) :=
  ⟨fun _ haccept => sequenceCopyTo_eq_iff haccept.1 haccept.2.1 haccept.2.2,
    fun _ haccept => sequenceCopyTo_eq_iff haccept.1 haccept.2.1 haccept.2.2⟩

theorem copies_iff_left :
    vectorCopyTo [[.fixnum 1, .fixnum 2, .fixnum 3]] 0 0 0 (some (.fixnum 1)) none =
        .ok (copied [[.fixnum 1, .fixnum 2, .fixnum 3]] 0 0 0 1 3) ↔
      CopySafe [[NaviObj.fixnum 1, .fixnum 2, .fixnum 3]] 0 0 0 1 3 :=
  (copies_iff 0 0 0 (some 1) none).1 [[.fixnum 1, .fixnum 2, .fixnum 3]]
    ⟨by decide, by decide, rfl⟩

/-- **A copy to behind the beginning of its source** repeats the first element:
`(bytevector-copy! v 1 v 0 2)` with `v` `#u8(1 2 3)`, and the same of a vector. -/
theorem not_copies :
    (CopyAccepted [[NaviObj.fixnum 1, .fixnum 2, .fixnum 3]] 0 1 0 (some 0) (some 2) ∧
      vectorCopyTo [[.fixnum 1, .fixnum 2, .fixnum 3]] 0 1 0 (some (.fixnum 0))
          (some (.fixnum 2)) ≠
        .ok (copied [[.fixnum 1, .fixnum 2, .fixnum 3]] 0 1 0 0 2)) ∧
    CopyAccepted [[(1 : UInt8), 2, 3]] 0 1 0 (some 0) (some 2) ∧
      bytevectorCopyTo [[1, 2, 3]] 0 1 0 (some (.fixnum 0)) (some (.fixnum 2)) ≠
        .ok (copied [[1, 2, 3]] 0 1 0 0 2) := by
  refine ⟨⟨⟨by decide, by decide, rfl⟩, fun heq => ?_⟩, ⟨by decide, by decide, rfl⟩,
    fun heq => ?_⟩
  · exact absurd (Except.ok.inj heq) (by decide)
  · exact absurd (Except.ok.inj heq) (by decide)

end NaviScheme
