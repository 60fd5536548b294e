import NaviScheme.Sequences.Copy
import NaviScheme.Strings.Convert
import NaviScheme.Strings.Edit

/-!
# The ranges that copies accept

Ten operations check their indices with `navi_check_copy_to` (`CopyRequest`). What it lets through
is in the range (`CopySpan.valid_of_passes`), but it asks for a position in the source and in the
target at which there is an element, so that nothing can be copied from the end of a sequence, to
the end of one, or out of an empty one. Besides, two operations on strings hand it the size of the
string for the end that is left out. Otherwise the check is that of the range (`ranges_iff`).
-/

namespace NaviScheme

/-- The objects that are sequences. -/
structure SequenceHeap where
  vectors : Arrays NaviObj
  bytevectors : Arrays UInt8
  strings : StringHeap

/-- A call that copies or fills a range, with fixnums for the indices. -/
inductive CopyRequest
  | vectorFill (a : ℕ) (fill : NaviObj) (start end_ : Option ℤ)
  | vectorCopy (a : ℕ) (start end_ : Option ℤ)
  | vectorCopyTo (to_ : ℕ) (at_ : ℤ) (from_ : ℕ) (start end_ : Option ℤ)
  | bytevectorCopy (a : ℕ) (start end_ : Option ℤ)
  | bytevectorCopyTo (to_ : ℕ) (at_ : ℤ) (from_ : ℕ) (start end_ : Option ℤ)
  | stringCopy (a : ℕ) (start end_ : Option ℤ)
  | substring (a : ℕ) (start end_ : ℤ)
  | stringCopyTo (to_ : ℕ) (at_ : ℤ) (from_ : ℕ) (start end_ : Option ℤ)
  | stringToUtf8 (a : ℕ) (start end_ : Option ℤ)
  | utf8ToString (a : ℕ) (start end_ : Option ℤ)

/-- The lengths of a target and of a source, and the indices. -/
structure CopySpan where
  to_ : ℕ
  at_ : ℤ
  from_ : ℕ
  start : ℤ
  end_ : ℤ

namespace CopySpan

/-- The indices are in the range. -/
def Valid (s : CopySpan) : Prop :=
  0 ≤ s.start ∧ s.start ≤ s.end_ ∧ s.end_ ≤ s.from_ ∧ 0 ≤ s.at_ ∧ s.at_ ≤ s.to_ ∧
    s.end_ - s.start ≤ s.to_ - s.at_

/-- `navi_check_copy_to` lets them through. -/
def Passes (s : CopySpan) : Prop :=
  naviCheckCopyTo s.to_ s.at_ s.from_ s.start s.end_ = .ok ()

theorem passes_iff {s : CopySpan} : s.Passes ↔ s.Valid ∧ s.start < s.from_ ∧ s.at_ < s.to_ := by
  rw [Passes, naviCheckCopyTo_iff, Valid]
  omega

end CopySpan

namespace CopyRequest

/-- What a call does; `junk` is what is in the memory of a new vector, and `fwd1` is `u8_fwd_1`. -/
def run (U : Unicode) (fwd1 : (ℕ → UInt8) → ℕ → ℕ) (u : Unknown) (junk : ℕ → NaviObj)
    (h : SequenceHeap) : CopyRequest → Except StringStop SequenceHeap
  | vectorFill a fill start end_ => do
    return { h with
      vectors := ← NaviScheme.vectorFill h.vectors a fill (start.map .fixnum) (end_.map .fixnum) }
  | vectorCopy a start end_ => do
    return { h with
      vectors := ← NaviScheme.vectorCopy junk h.vectors a (start.map .fixnum)
        (end_.map .fixnum) }
  | vectorCopyTo to_ at_ from_ start end_ => do
    return { h with
      vectors := ← NaviScheme.vectorCopyTo h.vectors to_ at_ from_ (start.map .fixnum)
        (end_.map .fixnum) }
  | bytevectorCopy a start end_ => do
    return { h with
      bytevectors := ← NaviScheme.bytevectorCopy u.fresh h.bytevectors a (start.map .fixnum)
        (end_.map .fixnum) }
  | bytevectorCopyTo to_ at_ from_ start end_ => do
    return { h with
      bytevectors := ← NaviScheme.bytevectorCopyTo h.bytevectors to_ at_ from_
        (start.map .fixnum) (end_.map .fixnum) }
  | stringCopy a start end_ => do
    return { h with
      strings := ← h.strings.stringCopy U u a (start.map .fixnum) (end_.map .fixnum) }
  | substring a start end_ => do
    return { h with
      strings := ← h.strings.stringCopy U u a (some (.fixnum start)) (some (.fixnum end_)) }
  | stringCopyTo to_ at_ from_ start end_ => do
    return { h with
      strings := ← h.strings.stringCopyTo U u to_ at_ from_ (start.map .fixnum)
        (end_.map .fixnum) }
  | stringToUtf8 a start end_ => do
    let vec ← h.strings.stringToUtf8 U fwd1 u a (start.map .fixnum) (end_.map .fixnum)
    return { h with bytevectors := h.bytevectors ++ [vec] }
  | utf8ToString a start end_ => do
    let vec ← h.bytevectors.get a
    return { h with
      strings := ← h.strings.utf8ToString U u vec (start.map .fixnum) (end_.map .fixnum) }

/-- The objects are there. -/
def Live (h : SequenceHeap) : CopyRequest → Prop
  | vectorFill a _ _ _ | vectorCopy a _ _ => a < h.vectors.length
  | vectorCopyTo to_ _ from_ _ _ => to_ < h.vectors.length ∧ from_ < h.vectors.length
  | bytevectorCopy a _ _ | utf8ToString a _ _ => a < h.bytevectors.length
  | bytevectorCopyTo to_ _ from_ _ _ =>
    to_ < h.bytevectors.length ∧ from_ < h.bytevectors.length
  | stringCopy a _ _ | substring a _ _ | stringToUtf8 a _ _ => a < h.strings.strings.length
  | stringCopyTo to_ _ from_ _ _ =>
    to_ < h.strings.strings.length ∧ from_ < h.strings.strings.length

section

variable {α : Type} (C : Coding α) (h : SequenceHeap) (T : List (List α))

/-- The range of one sequence. -/
def ownSpan (n : ℕ) (start end_ : Option ℤ) (last : ℤ) : CopySpan :=
  ⟨n, 0, n, start.getD 0, end_.getD last⟩

/-- What is asked for. An `end` that is left out is the length of the source. -/
def span : CopyRequest → CopySpan
  | vectorFill a _ start end_ | vectorCopy a start end_ =>
    ownSpan (h.vectors.getD a []).length start end_ (h.vectors.getD a []).length
  | vectorCopyTo to_ at_ from_ start end_ =>
    ⟨(h.vectors.getD to_ []).length, at_, (h.vectors.getD from_ []).length, start.getD 0,
      end_.getD (h.vectors.getD from_ []).length⟩
  | bytevectorCopy a start end_ | utf8ToString a start end_ =>
    ownSpan (h.bytevectors.getD a []).length start end_ (h.bytevectors.getD a []).length
  | bytevectorCopyTo to_ at_ from_ start end_ =>
    ⟨(h.bytevectors.getD to_ []).length, at_, (h.bytevectors.getD from_ []).length,
      start.getD 0, end_.getD (h.bytevectors.getD from_ []).length⟩
  | stringCopy a start end_ | stringToUtf8 a start end_ =>
    ownSpan (T.getD a []).length start end_ (T.getD a []).length
  | substring a start end_ =>
    ownSpan (T.getD a []).length (some start) (some end_) (T.getD a []).length
  | stringCopyTo to_ at_ from_ start end_ =>
    ⟨(T.getD to_ []).length, at_, (T.getD from_ []).length, start.getD 0,
      end_.getD (T.getD from_ []).length⟩

/-- What is checked. For two operations an `end` that is left out is the size of the source. -/
def checked : CopyRequest → CopySpan
  | stringCopy a start end_ =>
    ownSpan (T.getD a []).length start end_ (C.encode (T.getD a [])).length
  | stringCopyTo to_ at_ from_ start end_ =>
    ⟨(T.getD to_ []).length, at_, (T.getD from_ []).length, start.getD 0,
      end_.getD (C.encode (T.getD from_ [])).length⟩
  | r => r.span h T

/-- The two operations, with an `end`, or of a source in which each letter has one byte. -/
def EndFits : CopyRequest → Prop
  | stringCopy a _ end_ | stringCopyTo _ _ a _ end_ =>
    end_ = none → (C.encode (T.getD a [])).length = (T.getD a []).length
  | _ => True

/-- All of a sequence is copied to a new one. -/
def Whole : CopyRequest → Prop
  | vectorCopy a start end_ =>
    start.getD 0 = 0 ∧ end_.getD (h.vectors.getD a []).length = (h.vectors.getD a []).length
  | bytevectorCopy a start end_ =>
    start.getD 0 = 0 ∧
      end_.getD (h.bytevectors.getD a []).length = (h.bytevectors.getD a []).length
  | stringCopy a start end_ =>
    start.getD 0 = 0 ∧ end_.getD (T.getD a []).length = (T.getD a []).length
  | substring a start end_ => start = 0 ∧ end_ = (T.getD a []).length
  | _ => False

end

/-- The new sequence is equal to the one that was copied. -/
def Yields (u : Unknown) (h h' : SequenceHeap) : CopyRequest → Prop
  | vectorCopy a _ _ => h' = { h with vectors := h.vectors ++ [h.vectors.getD a []] }
  | bytevectorCopy a _ _ =>
    h' = { h with bytevectors := h.bytevectors ++ [h.bytevectors.getD a []] }
  | stringCopy a _ _ | substring a _ _ =>
    ∃ from_ str, h.strings.get a = .ok from_ ∧ h' = { h with strings := h.strings.add str } ∧
      naviStringEqual u (h.strings.strings.length, str) (a, from_) = true
  | _ => True

/-- A string is copied to a new one. -/
def CopiesString : CopyRequest → Prop
  | stringCopy _ _ _ | substring _ _ _ => True
  | _ => False

end CopyRequest

/-- The indices are refused. -/
def Refused {β : Type} (x : Except StringStop β) : Prop :=
  x = .error (.raise "invalid indices for copy")

/-- **A request meets its range**: whatever is in memory, it is accepted exactly when the indices
are in the range, and copying all of a sequence gives an equal one. -/
def CopyRequest.Meets (build : StringBuild) (fwd1 : (ℕ → UInt8) → ℕ → ℕ)
    (T : List (List build.Letter)) (h : SequenceHeap) (r : CopyRequest) : Prop :=
  (∀ u junk, ¬ Refused (r.run build.unicode fwd1 u junk h) ↔ (r.span h T).Valid) ∧
  (r.Whole h T → ∀ u junk, ∃ h', r.run build.unicode fwd1 u junk h = .ok h' ∧ r.Yields u h h')

/-- **When it does**: in the range, there is an element at the beginning of the source and of the
target, and a size that is taken for the end is one; and it is not a copy of all of a string with
ICU, where the memory of the copy is decoded before anything is written to it. -/
def CopyRequest.Fits (build : StringBuild) (T : List (List build.Letter)) (h : SequenceHeap)
    (r : CopyRequest) : Prop :=
  ((r.span h T).Valid → (r.span h T).start < (r.span h T).from_ ∧
    (r.span h T).at_ < (r.span h T).to_ ∧ r.EndFits build.coding T) ∧
  (r.Whole h T → r.CopiesString → build = .ascii)

/-! ### What is refused -/

section

variable {β γ : Type}

theorem NoRaise.not_refused {x : Except StringStop β} (hx : NoRaise x) : ¬ Refused x := hx _

theorem refused_pure_iff {x : Except StringStop β} {f : β → γ} :
    Refused (x >>= fun b => pure (f b)) ↔ Refused x := by
  cases x with
  | ok b => simp [Refused]
  | error e => simp [Refused]

/-- A check, and what does not refuse. -/
theorem refused_check_iff {s : CopySpan} {x : Except StringStop β} (hx : ¬ Refused x) :
    Refused (naviCheckCopyTo s.to_ s.at_ s.from_ s.start s.end_ >>= fun _ => x) ↔ ¬ s.Passes := by
  by_cases hs : s.Passes
  · have hok : naviCheckCopyTo s.to_ s.at_ s.from_ s.start s.end_ = .ok () := hs
    rw [hok]
    exact ⟨fun h => absurd h hx, fun h => absurd hs h⟩
  · have herr := naviCheckCopyTo_eq_error fun h => hs (naviCheckCopyTo_iff.mpr h)
    rw [herr]
    exact ⟨fun _ => hs, fun _ => rfl⟩

namespace NoRaise

theorem arraysGet (h : Arrays β) (a : ℕ) : NoRaise (h.get a) := by
  unfold Arrays.get
  split <;> exact fun _ => nofun

theorem loadAt (data : List β) (i : ℤ) : NoRaise (loadAt data i) := by
  unfold NaviScheme.loadAt
  split <;> exact fun _ => nofun

theorem storeAt (data : List β) (i : ℤ) (x : β) : NoRaise (storeAt data i x) := by
  unfold NaviScheme.storeAt
  split <;> exact fun _ => nofun

theorem copyElements (h : Arrays β) (to_ at_ from_ i n : ℕ) :
    NoRaise (copyElements h to_ at_ from_ i n) := by
  induction n generalizing h at_ i with
  | zero => exact .ok _
  | succ n ih =>
    exact (arraysGet _ _).bind fun _ => (arraysGet _ _).bind fun _ => (loadAt _ _).bind fun _ =>
      (storeAt _ _ _).bind fun _ => ih _ _ _

theorem fillElements (fill : β) (data : List β) (i n : ℕ) :
    NoRaise (fillElements fill data i n) := by
  induction n generalizing data i with
  | zero => exact .ok _
  | succ n ih => exact (storeAt _ _ _).bind fun _ => ih _ _

theorem naviMakeString (u : Unknown) (capacity size length : ℕ) :
    NoRaise (naviMakeString u capacity size length) :=
  (storeByte _ _ _).bind fun _ => (storeByte _ _ _).bind fun _ => .ok _

end NoRaise

end

section

variable {α : Type} {C : Coding α} {U : Unicode} {fwd1 : (ℕ → UInt8) → ℕ → ℕ} {u : Unknown}
  {junk : ℕ → NaviObj} {h : SequenceHeap} {T : List (List α)} {r : CopyRequest}

theorem Arrays.get_getD {β : Type} {h : Arrays β} {a : ℕ} (ha : a < h.length) :
    h.get a = .ok (h.getD a []) := by
  rw [Arrays.get_eq_ok, List.getD_eq_getElem _ _ ha, List.getElem?_eq_getElem ha]

theorem sequenceCopy_refused {β : Type} {h : Arrays β} {a : ℕ} {start end_ : Option ℤ}
    (ha : a < h.length) (junk : ℕ → β) :
    Refused (sequenceCopy junk h a (start.map .fixnum) (end_.map .fixnum)) ↔
      ¬ (CopyRequest.ownSpan (h.getD a []).length start end_ (h.getD a []).length).Passes := by
  rw [sequenceCopy, Arrays.get_getD ha, ok_bind, fixnumOr_map, ok_bind, fixnumOr_map, ok_bind]
  exact refused_check_iff (s := CopyRequest.ownSpan _ _ _ _)
    (NoRaise.copyElements _ _ _ _ _ _).not_refused

theorem sequenceCopyTo_refused {β : Type} {h : Arrays β} {to_ from_ : ℕ} {at_ : ℤ}
    {start end_ : Option ℤ} (hto : to_ < h.length) (hfrom : from_ < h.length) :
    Refused (sequenceCopyTo h to_ at_ from_ (start.map .fixnum) (end_.map .fixnum)) ↔
      ¬ CopySpan.Passes ⟨(h.getD to_ []).length, at_, (h.getD from_ []).length, start.getD 0,
        end_.getD (h.getD from_ []).length⟩ := by
  rw [sequenceCopyTo, Arrays.get_getD hto, ok_bind, Arrays.get_getD hfrom, ok_bind, fixnumOr_map,
    ok_bind, fixnumOr_map, ok_bind]
  exact refused_check_iff (s := ⟨_, _, _, _, _⟩) (NoRaise.copyElements _ _ _ _ _ _).not_refused

theorem stringCopy_refused {h : StringHeap} (hT : h.Holds C T) {a : ℕ} {start end_ : Option ℤ}
    (ha : a < h.strings.length) :
    Refused (h.stringCopy U u a (start.map .fixnum) (end_.map .fixnum)) ↔
      ¬ (CopyRequest.ownSpan (T.getD a []).length start end_
        (C.encode (T.getD a [])).length).Passes := by
  obtain ⟨str, hget⟩ := StringHeap.get_eq ha
  obtain ⟨hstr, -⟩ := hT.get hget
  rw [StringHeap.stringCopy, hget, ok_bind, fixnumOr_map, ok_bind, fixnumOr_map, ok_bind,
    hstr.sizeT_length, hstr.size]
  exact refused_check_iff (s := CopyRequest.ownSpan _ _ _ _)
    ((NoRaise.naviMakeString _ _ _ _).bind fun _ => .copyTo _ _ _ _ _ _ _ _).not_refused

/-- **A request is refused** exactly when `navi_check_copy_to` does not let it through. -/
theorem CopyRequest.refused_iff (hT : h.strings.Holds C T) (hlive : r.Live h) :
    Refused (r.run U fwd1 u junk h) ↔ ¬ (r.checked C h T).Passes := by
  cases r with
  | vectorFill a fill start end_ =>
    rw [CopyRequest.run, refused_pure_iff, NaviScheme.vectorFill, Arrays.get_getD hlive, ok_bind,
      fixnumOr_map, ok_bind, fixnumOr_map, ok_bind]
    exact refused_check_iff (s := CopyRequest.ownSpan _ _ _ _)
      ((NoRaise.fillElements _ _ _ _).bind fun _ => .ok _).not_refused
  | vectorCopy a start end_ =>
    rw [CopyRequest.run, refused_pure_iff]
    exact sequenceCopy_refused hlive _
  | vectorCopyTo to_ at_ from_ start end_ =>
    rw [CopyRequest.run, refused_pure_iff]
    exact sequenceCopyTo_refused hlive.1 hlive.2
  | bytevectorCopy a start end_ =>
    rw [CopyRequest.run, refused_pure_iff]
    exact sequenceCopy_refused hlive _
  | bytevectorCopyTo to_ at_ from_ start end_ =>
    rw [CopyRequest.run, refused_pure_iff]
    exact sequenceCopyTo_refused hlive.1 hlive.2
  | stringCopy a start end_ =>
    rw [CopyRequest.run, refused_pure_iff]
    exact stringCopy_refused hT hlive
  | substring a start end_ =>
    rw [CopyRequest.run, refused_pure_iff]
    exact (stringCopy_refused hT hlive :
      Refused (h.strings.stringCopy U u a ((some start).map .fixnum) ((some end_).map .fixnum)) ↔ _)
  | stringCopyTo to_ at_ from_ start end_ =>
    obtain ⟨tos, hto⟩ := StringHeap.get_eq hlive.1
    obtain ⟨froms, hfrom⟩ := StringHeap.get_eq hlive.2
    obtain ⟨hts, -⟩ := hT.get hto
    obtain ⟨hfs, -⟩ := hT.get hfrom
    rw [CopyRequest.run, refused_pure_iff, StringHeap.stringCopyTo, hto, ok_bind, hfrom, ok_bind,
      fixnumOr_map, ok_bind, fixnumOr_map, ok_bind, hts.sizeT_length, hfs.sizeT_length, hfs.size]
    exact refused_check_iff (s := ⟨_, _, _, _, _⟩) (NoRaise.copyTo _ _ _ _ _ _ _ _).not_refused
  | stringToUtf8 a start end_ =>
    obtain ⟨str, hget⟩ := StringHeap.get_eq hlive
    obtain ⟨hstr, -⟩ := hT.get hget
    rw [CopyRequest.run, refused_pure_iff, StringHeap.stringToUtf8, hget, ok_bind, fixnumOr_map,
      ok_bind, fixnumOr_map, ok_bind, hstr.sizeT_length, hstr.length]
    refine refused_check_iff (s := CopyRequest.ownSpan _ _ _ _) fun hraise => ?_
    cases hraise
  | utf8ToString a start end_ =>
    rw [CopyRequest.run, Arrays.get_getD hlive, ok_bind, refused_pure_iff,
      StringHeap.utf8ToString, fixnumOr_map, ok_bind, fixnumOr_map, ok_bind]
    refine refused_check_iff (s := CopyRequest.ownSpan _ _ _ _) ?_
    split
    · exact fun hraise => absurd (StringStop.raise.inj (Except.error.inj hraise)) (by decide)
    · exact ((NoRaise.naviMakeString _ _ _ _).bind fun _ => (NoRaise.storeBytes _ _ _).bind
        fun _ => .ok _).not_refused

/-! ### The range -/

/-- The check and the range. -/
theorem CopyRequest.passes_iff :
    (r.checked C h T).Passes ↔ (r.span h T).Valid ∧ (r.span h T).start < (r.span h T).from_ ∧
      (r.span h T).at_ < (r.span h T).to_ ∧ r.EndFits C T := by
  cases r with
  | stringCopy a start end_ =>
    have hle := C.length_le_encode (T.getD a [])
    cases end_ with
    | none =>
      simp only [CopySpan.passes_iff, CopySpan.Valid, CopyRequest.checked, CopyRequest.span,
        CopyRequest.ownSpan, CopyRequest.EndFits, Option.getD_none, true_implies]
      omega
    | some n =>
      simp only [CopySpan.passes_iff, CopyRequest.checked, CopyRequest.span, CopyRequest.ownSpan,
        CopyRequest.EndFits, Option.getD_some, reduceCtorEq, false_implies, and_true]
  | stringCopyTo to_ at_ from_ start end_ =>
    have hle := C.length_le_encode (T.getD from_ [])
    cases end_ with
    | none =>
      simp only [CopySpan.passes_iff, CopySpan.Valid, CopyRequest.checked, CopyRequest.span,
        CopyRequest.EndFits, Option.getD_none, true_implies]
      omega
    | some n =>
      simp only [CopySpan.passes_iff, CopyRequest.checked, CopyRequest.span, CopyRequest.EndFits,
        Option.getD_some, reduceCtorEq, false_implies, and_true]
  | _ =>
    simp only [CopySpan.passes_iff, CopyRequest.checked, CopyRequest.EndFits, and_true]

/-- The indices of a request are accepted as they should be, exactly when the first half of
`CopyRequest.Fits` holds. -/
theorem CopyRequest.accepts_iff (hT : h.strings.Holds C T) (hlive : r.Live h) :
    (¬ Refused (r.run U fwd1 u junk h) ↔ (r.span h T).Valid) ↔
      ((r.span h T).Valid → (r.span h T).start < (r.span h T).from_ ∧
        (r.span h T).at_ < (r.span h T).to_ ∧ r.EndFits C T) := by
  rw [CopyRequest.refused_iff hT hlive, not_not, CopyRequest.passes_iff]
  tauto

/-! ### Whole copies -/

theorem sequenceCopy_whole {β : Type} {h : Arrays β} {a : ℕ} (ha : a < h.length)
    (hne : (h.getD a []) ≠ []) (junk : ℕ → β) {start end_ : Option ℤ} (hstart : start.getD 0 = 0)
    (hend : end_.getD (h.getD a []).length = (h.getD a []).length) :
    sequenceCopy junk h a (start.map .fixnum) (end_.map .fixnum) = .ok (h ++ [h.getD a []]) := by
  have hpos := List.length_pos_iff.mpr hne
  have hcheck : naviCheckCopy (h.getD a []).length 0 (h.getD a []).length = .ok () :=
    naviCheckCopyTo_iff.mpr (by omega)
  have hn : (((h.getD a []).length : ℤ) - 0).toNat = (h.getD a []).length := by simp
  have hlast : (h ++ [(List.range (h.getD a []).length).map junk])[h.length]? =
      some ((List.range (h.getD a []).length).map junk) := by simp
  have hfrom : (h ++ [(List.range (h.getD a []).length).map junk])[a]? = some (h.getD a []) := by
    rw [List.getElem?_append_left ha, List.getElem?_eq_getElem ha, List.getD_eq_getElem _ _ ha]
  rw [sequenceCopy, Arrays.get_getD ha, ok_bind, fixnumOr_map, ok_bind, fixnumOr_map, ok_bind,
    hstart, hend, hcheck, ok_bind, hn]
  refine (copyElements_other ha.ne hlast hfrom (by simp) (by simp)).trans ?_
  congr 1
  simp [splice]

/-- A copy of all of a string, when each letter has one byte. -/
theorem stringCopy_whole {letter : UInt32 → Option α} (hU : U.Implements C letter)
    (hone : C.OneByte) {h : StringHeap} (hT : h.Holds C T) {a : ℕ} (ha : a < h.strings.length)
    (hne : T.getD a [] ≠ []) {start end_ : Option ℤ} (hstart : start.getD 0 = 0)
    (hend : end_.getD (T.getD a []).length = (T.getD a []).length) :
    ∃ from_ str, h.get a = .ok from_ ∧
      h.stringCopy U u a (start.map .fixnum) (end_.map .fixnum) = .ok (h.add str) ∧
      naviStringEqual u (h.strings.length, str) (a, from_) = true := by
  have h64 : (2 : ℕ) ^ 31 < 2 ^ 64 := by decide
  obtain ⟨froms, hget⟩ := StringHeap.get_eq ha
  obtain ⟨hfs, -⟩ := hT.get hget
  have hflt := hfs.length_lt
  have hpos := List.length_pos_iff.mpr hne
  have hsize : (C.encode (T.getD a [])).length = (T.getD a []).length := hone.encode_length _
  have hcheck : naviCheckCopy (T.getD a []).length 0 (T.getD a []).length = .ok () :=
    naviCheckCopyTo_iff.mpr (by omega)
  have hn : sizeT (((T.getD a []).length : ℤ) - 0) = (T.getD a []).length := by
    rw [sub_zero, sizeT_natCast (by omega)]
  obtain ⟨new, hmake⟩ : ∃ new, naviMakeString u (T.getD a []).length (T.getD a []).length
      (T.getD a []).length = .ok new := by
    obtain ⟨block, -, hmake⟩ := naviMakeString_of_le u (T.getD a []).length
      (le_refl (T.getD a []).length)
    exact ⟨_, hmake⟩
  -- the memory of the copy holds some letters
  obtain ⟨ws, hwslen, hnew⟩ := exists_holds_fresh hflt (fun j _ => hone (u.fresh j)) hmake
  have hslice : slice (T.getD a []) 0 (T.getD a []).length = T.getD a [] := by simp [slice]
  have hsplice : splice ws 0 (T.getD a []) = T.getD a [] := by simp [splice, hwslen]
  have hfrom : (h.add new).get a = .ok froms := (get_add_of_lt ha).trans hget
  have hcopy := copyTo_eq hU ha.ne get_add_self hfrom hnew hfs le_rfl le_rfl
    (Int.natCast_nonneg (T.getD a []).length) le_rfl (by omega) u
  have hroom : (0 : ℤ) + (T.getD a []).length ≤ ws.length := by omega
  obtain ⟨str, hrun, hholds⟩ := replaceText_ok hnew le_rfl hroom
    (by rw [hsplice]; exact hfs.encode_length_lt) u h.strings.length
  rw [hslice, hrun] at hcopy
  rw [hsplice] at hholds
  refine ⟨froms, str, hget, ?_, naviStringEqual_of_hasText hholds.hasText hfs.hasText⟩
  have hlast : end_.getD (C.encode (T.getD a [])).length = (T.getD a []).length := by
    rw [hsize, hend]
  rw [StringHeap.stringCopy, hget, ok_bind, fixnumOr_map, ok_bind, fixnumOr_map, ok_bind,
    hfs.sizeT_length, hfs.size, hstart, hlast, hcheck, ok_bind]
  dsimp only
  rw [hn, hmake, ok_bind, hcopy]
  exact congrArg Except.ok put_add

/-- Memory that holds bytes of which none is the first one of a character. -/
def trailMemory : Unknown := { zeroMemory with fresh := fun _ => 0x80 }

/-- With ICU, a copy of all of a string may find memory that cannot be decoded. -/
theorem stringCopy_icu_ne_ok {M : U8Macros} (hM : M.Standard) {h : StringHeap}
    {T : List (List Char)} (hT : h.Holds Coding.utf8 T) {a : ℕ} (hne : T.getD a [] ≠ [])
    {start end_ : Option ℤ} (hstart : start.getD 0 = 0)
    (hend : end_.getD (T.getD a []).length = (T.getD a []).length) (h' : StringHeap) :
    h.stringCopy (.icu M) trailMemory a (start.map .fixnum) (end_.map .fixnum) ≠ .ok h' := by
  intro hrun
  obtain ⟨froms, hfroms, hrun⟩ := bind_eq_ok hrun
  obtain ⟨hfs, -⟩ := hT.get hfroms
  rw [fixnumOr_map, ok_bind, fixnumOr_map, ok_bind, hstart, hfs.sizeT_length, hfs.size] at hrun
  obtain ⟨⟨⟩, hcheck, hrun⟩ := bind_eq_ok hrun
  have hpos := List.length_pos_iff.mpr hne
  have hle := Coding.utf8.length_le_encode (T.getD a [])
  have hflt := hfs.length_lt
  obtain ⟨-, -, -, -, -, hlast, -⟩ := naviCheckCopyTo_eq_ok hcheck
  have hsize : end_.getD (Coding.utf8.encode (T.getD a [])).length = (T.getD a []).length := by
    cases end_ with
    | none =>
      rw [Option.getD_none] at hlast ⊢
      omega
    | some n => exact hend
  obtain ⟨n, hn⟩ : ∃ n, (T.getD a []).length = n + 1 := ⟨(T.getD a []).length - 1, by omega⟩
  dsimp only at hrun
  rw [hsize, sub_zero, sizeT_natCast (by omega)] at hrun
  obtain ⟨new, hmake, hrun⟩ := bind_eq_ok hrun
  obtain ⟨hnsize, -, -, -, -, hfresh⟩ := naviMakeString_spec le_rfl hflt hflt hmake
  obtain ⟨tos, htos, hrun⟩ := bind_eq_ok hrun
  obtain rfl : new = tos := Except.ok.inj (get_add_self.symm.trans htos)
  obtain ⟨froms', -, hrun⟩ := bind_eq_ok hrun
  obtain ⟨toSize, hcount, -⟩ := bind_eq_ok hrun
  have hbyte : new.bytes trailMemory h.strings.length 0 = 0x80 := by
    rw [NaviString.bytes, hfresh 0 hpos]
    rfl
  -- the first byte of the new string is not the first one of a character
  have hill : ∀ c, BytesAt (new.bytes trailMemory h.strings.length) 0 (Coding.utf8.word c) →
      new.size < (0 + (Coding.utf8.word c).length : ℕ) := by
    intro c hat
    have hlead := hat 0 (Coding.utf8.word_length_pos c)
    rw [Nat.zero_add, hbyte] at hlead
    have hcont := (Utf8.continues_iff (Coding.utf8.word_length_pos c)).not.mpr (not_not.mpr rfl)
    exact absurd (hlead ▸ (by decide : Utf8.Continues 0x80)) hcont
  have hnext := hM.next_illFormed (new.bytes trailMemory h.strings.length) 0 new.size (by
    rw [hnsize]
    omega) hill
  have hfwd : M.fwdN (new.bytes trailMemory h.strings.length) 0 (int32 0).toNat = 0 :=
    hM.fwdN _ 0 [] BytesAt.nil
  have hnone : (Unicode.icu M).u8Next (new.bytes trailMemory h.strings.length) 0 new.size =
      none := by
    change (codePoint (M.next _ 0 new.size).1).map _ = none
    rw [codePoint, if_pos hnext]
    rfl
  have hlen : (int32 (n + 1 : ℕ) - int32 0).toNat = n + 1 := by
    rw [int32_eq_self (n := (n + 1 : ℕ)) (by omega) (by omega), int32_eq_self le_rfl (by decide)]
    omega
  change charsSize (.icu M) _ new.size _ (M.fwdN _ 0 (int32 0).toNat) 0 = _ at hcount
  rw [hfwd, hn, hlen, charsSize, hnone] at hcount
  cases hcount

end

section

variable {build : StringBuild} {fwd1 : (ℕ → UInt8) → ℕ → ℕ} {h : SequenceHeap}
  {T : List (List build.Letter)} {r : CopyRequest}

/-- A request for all of a sequence is in the range, and begins with its first element. -/
theorem CopyRequest.Whole.span_valid (hwhole : r.Whole h T) :
    (r.span h T).Valid ∧ (r.span h T).start = 0 := by
  cases r with
  | vectorCopy a start end_ | bytevectorCopy a start end_ | stringCopy a start end_ =>
    obtain ⟨hstart, hend⟩ := hwhole
    refine ⟨?_, hstart⟩
    simp only [CopyRequest.span, CopyRequest.ownSpan, CopySpan.Valid, hstart, hend]
    omega
  | substring a start end_ =>
    obtain ⟨rfl, rfl⟩ := hwhole
    refine ⟨?_, rfl⟩
    simp only [CopyRequest.span, CopyRequest.ownSpan, CopySpan.Valid, Option.getD_some]
    omega
  | vectorFill | vectorCopyTo | bytevectorCopyTo | stringCopyTo | stringToUtf8 | utf8ToString =>
    exact hwhole.elim

/-- **Copying all of a sequence** that is not empty. -/
theorem CopyRequest.Whole.run_ok (hbuild : build.Standard) (hT : h.strings.Holds build.coding T)
    (hlive : r.Live h) (hwhole : r.Whole h T) (hpos : 0 < (r.span h T).from_)
    (hicu : r.CopiesString → build = .ascii) (u : Unknown) (junk : ℕ → NaviObj) :
    ∃ h', r.run build.unicode fwd1 u junk h = .ok h' ∧ r.Yields u h h' := by
  have hone : r.CopiesString → build.coding.OneByte := fun hcopies => by
    cases hicu hcopies
    exact fun b => ⟨b, rfl⟩
  cases r with
  | vectorCopy a start end_ =>
    have hcopy := sequenceCopy_whole hlive (List.length_pos_iff.mp hpos) junk hwhole.1 hwhole.2
    exact ⟨_, by rw [CopyRequest.run, NaviScheme.vectorCopy, hcopy]; rfl, rfl⟩
  | bytevectorCopy a start end_ =>
    have hcopy := sequenceCopy_whole hlive (List.length_pos_iff.mp hpos) u.fresh hwhole.1 hwhole.2
    exact ⟨_, by rw [CopyRequest.run, NaviScheme.bytevectorCopy, hcopy]; rfl, rfl⟩
  | stringCopy a start end_ =>
    obtain ⟨from_, str, hget, hcopy, hequal⟩ := stringCopy_whole (u := u)
      (StringBuild.implements hbuild) (hone trivial) hT hlive (List.length_pos_iff.mp hpos)
      hwhole.1 hwhole.2
    exact ⟨_, by rw [CopyRequest.run, hcopy]; rfl, from_, str, hget, rfl, hequal⟩
  | substring a start end_ =>
    obtain ⟨rfl, rfl⟩ := hwhole
    have hcopy := stringCopy_whole (u := u) (StringBuild.implements hbuild) (hone trivial) hT hlive
      (List.length_pos_iff.mp hpos) (Option.getD_some (a := 0))
      (Option.getD_some (a := ((T.getD a []).length : ℤ)))
    obtain ⟨from_, str, hget, hcopy, hequal⟩ := hcopy
    exact ⟨_, by rw [CopyRequest.run]; exact congrArg (· >>= _) hcopy, from_, str, hget, rfl,
      hequal⟩
  | vectorFill | vectorCopyTo | bytevectorCopyTo | stringCopyTo | stringToUtf8 | utf8ToString =>
    exact hwhole.elim

/-- **Copying all of a string** with ICU may not succeed. -/
theorem CopyRequest.Whole.eq_ascii (hbuild : build.Standard)
    (hT : h.strings.Holds build.coding T) (hwhole : r.Whole h T)
    (hpos : 0 < (r.span h T).from_) (hcopies : r.CopiesString) {junk : ℕ → NaviObj}
    (hrun : ∃ h', r.run build.unicode fwd1 trailMemory junk h = .ok h') : build = .ascii := by
  cases build with
  | ascii => rfl
  | icu M =>
    obtain ⟨h', hrun⟩ := hrun
    cases r with
    | stringCopy a start end_ =>
      obtain ⟨strings, hcopy, -⟩ := bind_eq_ok hrun
      exact absurd hcopy (stringCopy_icu_ne_ok hbuild hT (List.length_pos_iff.mp hpos) hwhole.1
        hwhole.2 strings)
    | substring a start end_ =>
      obtain ⟨rfl, rfl⟩ := hwhole
      obtain ⟨strings, hcopy, -⟩ := bind_eq_ok hrun
      exact absurd hcopy (stringCopy_icu_ne_ok hbuild hT (List.length_pos_iff.mp hpos)
        (Option.getD_some (a := 0)) (Option.getD_some (a := ((T.getD a []).length : ℤ))) strings)
    | _ => exact hcopies.elim

end

/-- A vector of one element, an empty bytevector and the string `é`. -/
def someSequences : SequenceHeap := ⟨[[.fixnum 1]], [[]], ⟨[stringE], []⟩⟩

end NaviScheme
