import NaviScheme.Strings.Replace

/-!
# Editing strings

What `string-set!`, `string-fill!` and `string-copy!` between two strings are to do to the text
(`StringEdit.Edits`), and when they do it (`edits_iff`): when their own checks let through the
requests that are in the range of the text and no others, all characters are letters, there is
room for the new text and `string_shift` finds its bytes in the block.
-/

namespace NaviScheme

/-- The letter of a character, `n` times, if there is one. -/
def copies {α : Type} (letter : UInt32 → Option α) (ch : UInt32) : ℕ → Option (List α)
  | 0 => some []
  | n + 1 => (letter ch).map (List.replicate (n + 1))

theorem copies_eq_some {α : Type} {letter : UInt32 → Option α} {ch : UInt32} {n : ℕ}
    {ys : List α} : copies letter ch n = some ys ↔
      (List.replicate n ch).map letter = ys.map some := by
  cases n with
  | zero =>
    rw [copies, List.replicate_zero, List.map_nil, Option.some_inj]
    exact ⟨fun h => h ▸ rfl, fun h => (List.map_eq_nil_iff.mp h.symm).symm⟩
  | succ n =>
    rw [copies, List.map_replicate]
    cases hc : letter ch with
    | some c =>
      rw [Option.map_some, ← List.map_replicate,
        (List.map_injective_iff.mpr (Option.some_injective α)).eq_iff, Option.some_inj]
    | none =>
      cases ys <;> simp [List.replicate_succ]

/-- A call that edits a string in place. -/
inductive StringEdit
  | set (a : ℕ) (k : ℤ) (ch : UInt32)
  | fill (a : ℕ) (ch : UInt32) (start end_ : Option ℤ)
  | copyTo (to_ : ℕ) (at_ : ℤ) (from_ : ℕ) (start end_ : Option ℤ)

namespace StringEdit

/-- The call. -/
def op : StringEdit → StringOp
  | set a k ch => .stringSet a k ch
  | fill a ch start end_ => .stringFill a ch (start.map .fixnum) (end_.map .fixnum)
  | copyTo to_ at_ from_ start end_ =>
    .stringCopyTo to_ at_ from_ (start.map .fixnum) (end_.map .fixnum)

/-- The string that is edited. -/
def target : StringEdit → ℕ
  | set a _ _ | fill a _ _ _ => a
  | copyTo to_ _ _ _ _ => to_

/-- The strings are there, and are two for `string-copy!`. -/
def Live (h : StringHeap) : StringEdit → Prop
  | set a _ _ | fill a _ _ _ => a < h.strings.length
  | copyTo to_ _ from_ _ _ =>
    to_ < h.strings.length ∧ from_ < h.strings.length ∧ from_ ≠ to_

section

variable {α : Type} (C : Coding α) (letter : UInt32 → Option α) (T : List (List α))

/-- The request is in the range of the text; an `end` that is left out is the end of the text. -/
def InRange : StringEdit → Prop
  | set a k _ => 0 ≤ k ∧ k < (T.getD a []).length
  | fill a _ start end_ =>
    0 ≤ start.getD 0 ∧ start.getD 0 ≤ end_.getD (T.getD a []).length ∧
      end_.getD (T.getD a []).length ≤ (T.getD a []).length
  | copyTo to_ at_ from_ start end_ =>
    0 ≤ at_ ∧ 0 ≤ start.getD 0 ∧ start.getD 0 ≤ end_.getD (T.getD from_ []).length ∧
      end_.getD (T.getD from_ []).length ≤ (T.getD from_ []).length ∧
      at_ + (end_.getD (T.getD from_ []).length - start.getD 0) ≤ (T.getD to_ []).length

/-- The request passes the checks of the call. `string-set!` compares the index with the size,
`string-fill!` has made an `int32_t` of its arguments, an `end` that is left out is the size, and
a copy may not begin at the end of a text. -/
def Accepted : StringEdit → Prop
  | set a k _ => 0 ≤ k ∧ k < (C.encode (T.getD a [])).length
  | fill a _ start end_ =>
    0 ≤ int32 (start.getD 0) ∧ int32 (start.getD 0) < (T.getD a []).length ∧
      int32 (start.getD 0) ≤ int32 (end_.getD (C.encode (T.getD a [])).length) ∧
      int32 (end_.getD (C.encode (T.getD a [])).length) ≤ (T.getD a []).length
  | copyTo to_ at_ from_ start end_ =>
    0 ≤ at_ ∧ at_ < (T.getD to_ []).length ∧ 0 ≤ start.getD 0 ∧
      start.getD 0 < (T.getD from_ []).length ∧
      start.getD 0 ≤ end_.getD (C.encode (T.getD from_ [])).length ∧
      end_.getD (C.encode (T.getD from_ [])).length ≤ (T.getD from_ []).length ∧
      at_ + (end_.getD (C.encode (T.getD from_ [])).length - start.getD 0) ≤
        (T.getD to_ []).length

/-- Where the letters are that are replaced. -/
def first : StringEdit → ℤ
  | set _ k _ => k
  | fill _ _ start _ => start.getD 0
  | copyTo _ at_ _ _ _ => at_

/-- The letters that take the place of as many others. -/
def new : StringEdit → Option (List α)
  | set _ _ ch => copies letter ch 1
  | fill a ch start end_ =>
    copies letter ch (end_.getD (T.getD a []).length - start.getD 0).toNat
  | copyTo _ _ from_ start end_ =>
    some (slice (T.getD from_ []) (start.getD 0) (end_.getD (T.getD from_ []).length))

/-- **The call edits the text**: in the range, exactly the letters of the range are replaced, and
nothing is read or written outside of the block of the string; out of it, an error is raised. -/
def Edits (U : Unicode) (u : Unknown) (h : StringHeap) (e : StringEdit) : Prop :=
  (e.InRange T → ∃ ys str, e.new letter T = some ys ∧
    e.op.run U u h = .ok (h.put e.target str) ∧
    str.Holds C (splice (T.getD e.target []) e.first ys) ∧
    Inside (fun u => e.op.run U u h) u) ∧
  (¬ e.InRange T → ∃ msg, e.op.run U u h = .error (.raise msg))

/-- **When it does**: the checks are those of the range; and in the range, there are new letters,
an `int32_t` can measure the new text, and `string_shift` stays in the block. -/
def Fits (h : StringHeap) (e : StringEdit) : Prop :=
  (e.InRange T ↔ e.Accepted C T) ∧
  (e.InRange T → ∃ ys, e.new letter T = some ys ∧
    (C.encode (splice (T.getD e.target []) e.first ys)).length < 2 ^ 31 ∧
    ∀ str, h.get e.target = .ok str → ShiftFits str
      (C.encode ((T.getD e.target []).take e.first.toNat)).length
      (editDiff C (T.getD e.target []) e.first ys))

end

end StringEdit

section

variable {α : Type} {C : Coding α} {letter : UInt32 → Option α} {U : Unicode} {u : Unknown}
  {h : StringHeap} {T : List (List α)} {e : StringEdit} {str : NaviString}

theorem StringEdit.Live.target_lt (hlive : e.Live h) : e.target < h.strings.length := by
  cases e with
  | set | fill => exact hlive
  | copyTo => exact hlive.1

/-! ### The checks -/

/-- A check, and what does not raise. -/
theorem raises_check_iff {β : Type} {to_ from_ : ℕ} {at_ start end_ : ℤ}
    {x : Except StringStop β} (hx : NoRaise x) :
    (∃ msg, (naviCheckCopyTo to_ at_ from_ start end_ >>= fun _ => x) = .error (.raise msg)) ↔
      ¬ (0 ≤ at_ ∧ at_ < to_ ∧ 0 ≤ start ∧ start < from_ ∧ start ≤ end_ ∧ end_ ≤ from_ ∧
        at_ + (end_ - start) ≤ to_) := by
  by_cases hcheck : 0 ≤ at_ ∧ at_ < to_ ∧ 0 ≤ start ∧ start < from_ ∧ start ≤ end_ ∧
      end_ ≤ from_ ∧ at_ + (end_ - start) ≤ to_
  · rw [naviCheckCopyTo_iff.mpr hcheck, ok_bind]
    exact ⟨fun ⟨msg, hmsg⟩ => absurd hmsg (hx msg), fun hno => absurd hcheck hno⟩
  · rw [naviCheckCopyTo_eq_error hcheck]
    exact ⟨fun _ => hcheck, fun _ => ⟨_, rfl⟩⟩

/-- **A request is refused** exactly when it does not pass the checks. -/
theorem StringEdit.raises_iff (hT : h.Holds C T) (hlive : e.Live h) :
    (∃ msg, e.op.run U u h = .error (.raise msg)) ↔ ¬ e.Accepted C T := by
  cases e with
  | set a k ch =>
    obtain ⟨str, hget⟩ := StringHeap.get_eq hlive
    have hsize := (hT.get hget).1.size
    change (∃ msg, h.stringSet U u a k ch = _) ↔ _
    rw [StringHeap.stringSet, hget, ok_bind]
    simp only [StringEdit.Accepted]
    split
    · exact ⟨fun _ => by omega, fun _ => ⟨_, rfl⟩⟩
    · have hrest : NoRaise (str.set U u a k ch >>= fun str => .ok (h.put a str)) :=
        (NoRaise.set _ _ _ _ _ _).bind fun _ => .ok _
      refine ⟨?_, fun hno => absurd hno (by omega)⟩
      rintro ⟨msg, hmsg⟩
      exact absurd hmsg (hrest msg)
  | fill a ch start end_ =>
    obtain ⟨str, hget⟩ := StringHeap.get_eq hlive
    obtain ⟨hstr, -⟩ := hT.get hget
    change (∃ msg, h.stringFill U u a ch _ _ = _) ↔ _
    rw [StringHeap.stringFill, hget, ok_bind, fixnumOr_map, ok_bind, fixnumOr_map, ok_bind]
    dsimp only
    rw [hstr.sizeT_length, hstr.size, naviCheckCopy]
    refine (raises_check_iff ?_).trans (not_congr ?_)
    · exact (NoRaise.skipChars _ _ _ _ _).bind fun _ => (NoRaise.shift _ _ _ _ _).bind fun _ =>
        (NoRaise.appendChars _ _ _ _ _).bind fun _ => (NoRaise.setSize _ _).bind fun _ => .ok _
    · simp only [StringEdit.Accepted]
      omega
  | copyTo to_ at_ from_ start end_ =>
    obtain ⟨tos, hto⟩ := StringHeap.get_eq hlive.1
    obtain ⟨froms, hfrom⟩ := StringHeap.get_eq hlive.2.1
    obtain ⟨hts, -⟩ := hT.get hto
    obtain ⟨hfs, -⟩ := hT.get hfrom
    change (∃ msg, h.stringCopyTo U u to_ at_ from_ _ _ = _) ↔ _
    rw [StringHeap.stringCopyTo, hto, ok_bind, hfrom, ok_bind, fixnumOr_map, ok_bind,
      fixnumOr_map, ok_bind, hts.sizeT_length, hfs.sizeT_length, hfs.size]
    exact raises_check_iff (NoRaise.copyTo _ _ _ _ _ _ _ _)

/-! ### The edits -/

/-- The letters that are replaced are letters of the text. -/
theorem StringEdit.first_bounds (hin : e.InRange T) {ys : List α} (hys : e.new letter T = some ys) :
    0 ≤ e.first ∧ e.first + ys.length ≤ (T.getD e.target []).length := by
  cases e with
  | set a k ch =>
    have hlen : 1 = ys.length := by
      simpa using congrArg List.length (copies_eq_some (n := 1).mp hys)
    simp only [StringEdit.InRange, StringEdit.first, StringEdit.target] at *
    omega
  | fill a ch start end_ =>
    have hlen := congrArg List.length (copies_eq_some.mp hys)
    simp only [StringEdit.InRange, StringEdit.first, StringEdit.target, List.length_map,
      List.length_replicate] at *
    omega
  | copyTo to_ at_ from_ start end_ =>
    simp only [StringEdit.InRange] at hin
    cases hys
    have hlen := (eq_splice_slice (t := T.getD from_ []) hin.2.1 hin.2.2.1 hin.2.2.2.1).2
    simp only [StringEdit.first, StringEdit.target]
    omega

/-- The indices of `string-fill!` are what they are as `int32_t`s. -/
theorem fill_args {start end_ : Option ℤ} {t : List α} (hstr : str.Holds C t)
    (hin : 0 ≤ start.getD 0 ∧ start.getD 0 ≤ end_.getD t.length ∧ end_.getD t.length ≤ t.length)
    (hacc : int32 (end_.getD (C.encode t).length) ≤ t.length) :
    int32 (start.getD 0) = start.getD 0 ∧
      int32 (end_.getD (C.encode t).length) = end_.getD t.length := by
  have hlen := hstr.length_lt
  have hsize := hstr.encode_length_lt
  have hle := C.length_le_encode t
  refine ⟨int32_eq_self hin.1 (by omega), ?_⟩
  cases end_ with
  | some n =>
    rw [Option.getD_some, Option.getD_some] at *
    exact int32_eq_self (by omega) (by omega)
  | none =>
    rw [Option.getD_none, Option.getD_none] at *
    rw [int32_eq_self (by omega) (by omega)] at hacc ⊢
    omega

/-- **A call replaces the letters.** -/
theorem StringEdit.run_eq (hU : U.Implements C letter) (hT : h.Holds C T) (hlive : e.Live h)
    (hin : e.InRange T) (hacc : e.Accepted C T) (hget : h.get e.target = .ok str) {ys : List α}
    (hys : e.new letter T = some ys)
    (hfit : (C.encode (splice (T.getD e.target []) e.first ys)).length < 2 ^ 31) (u : Unknown) :
    e.op.run U u h = (str.replaceText C u e.target (T.getD e.target []) e.first ys).map
      (h.put e.target) := by
  obtain ⟨hstr, -⟩ := hT.get hget
  cases e with
  | set a k ch =>
    obtain ⟨c, hc, rfl⟩ := Option.map_eq_some_iff.mp hys
    simp only [StringEdit.InRange] at hin
    simp only [StringEdit.target, StringEdit.first] at hget hstr hfit ⊢
    obtain ⟨k, rfl⟩ := Int.eq_ofNat_of_zero_le hin.1
    exact stringSet_eq hU hget hstr (by omega) hc hfit u
  | fill a ch start end_ =>
    simp only [StringEdit.target, StringEdit.first] at hget hstr hfit ⊢
    simp only [StringEdit.InRange] at hin
    simp only [StringEdit.Accepted] at hacc
    obtain ⟨hs, he⟩ := fill_args hstr hin hacc.2.2.2
    rw [hs, he] at hacc
    exact stringFill_eq hU hget hstr hs.symm (by rw [hstr.size, he]) hacc.1 hacc.2.1 hacc.2.2.1
      hacc.2.2.2 (copies_eq_some.mp hys) hfit u
  | copyTo to_ at_ from_ start end_ =>
    cases hys
    simp only [StringEdit.target, StringEdit.first] at hget hstr hfit ⊢
    simp only [StringEdit.InRange] at hin
    simp only [StringEdit.Accepted] at hacc
    obtain ⟨froms, hfrom⟩ := StringHeap.get_eq hlive.2.1
    obtain ⟨hfs, -⟩ := hT.get hfrom
    have hend : end_.getD (C.encode (T.getD from_ [])).length =
        end_.getD (T.getD from_ []).length := by
      cases end_ with
      | some n => rfl
      | none =>
        have := C.length_le_encode (T.getD from_ [])
        simp only [Option.getD_none] at *
        omega
    change h.stringCopyTo U u to_ at_ from_ _ _ = _
    rw [StringHeap.stringCopyTo, hget, ok_bind, hfrom, ok_bind, fixnumOr_map, ok_bind,
      fixnumOr_map, ok_bind, hstr.sizeT_length, hfs.sizeT_length, hfs.size,
      naviCheckCopyTo_iff.mpr hacc, ok_bind, hend]
    exact copyTo_eq hU hlive.2.2 hget hfrom hstr hfs hin.1 hin.2.1 hin.2.2.1 hin.2.2.2.1
      hin.2.2.2.2 u

theorem StringHeap.put_inj {a : ℕ} {str' : NaviString} (ha : a < h.strings.length)
    (heq : h.put a str = h.put a str') : str = str' := by
  have hset := congrArg (fun h => h.strings[a]?) heq
  simpa [StringHeap.put, ha] using hset

/-- **A call edits the text** exactly when the text fits. -/
theorem StringEdit.edits_iff_fits (hU : U.Implements C letter) (hT : h.Holds C T)
    (hlive : e.Live h) : e.Edits C letter T U u h ↔ e.Fits C letter T h := by
  obtain ⟨str, hget⟩ := StringHeap.get_eq hlive.target_lt
  obtain ⟨hstr, hlt⟩ := hT.get hget
  constructor
  · rintro ⟨hedit, hraise⟩
    have hchecks : e.InRange T ↔ e.Accepted C T := by
      constructor
      · intro hin
        by_contra hno
        obtain ⟨ys, str', -, hrun, -⟩ := hedit hin
        obtain ⟨msg, hmsg⟩ := (StringEdit.raises_iff hT hlive).mpr hno
        rw [hrun] at hmsg
        cases hmsg
      · intro hacc
        by_contra hno
        exact (StringEdit.raises_iff hT hlive).mp (hraise hno) hacc
    refine ⟨hchecks, fun hin => ?_⟩
    obtain ⟨ys, str', hys, hrun, hholds, hinside⟩ := hedit hin
    have hfit := hholds.encode_length_lt
    obtain ⟨h0, hle⟩ := StringEdit.first_bounds hin hys
    refine ⟨ys, hys, hfit, fun str₁ hget₁ => ?_⟩
    obtain rfl : str = str₁ := Except.ok.inj (hget.symm.trans hget₁)
    refine (inside_replaceText_iff hstr h0 hle hfit (u := u) (a := e.target)).mp fun beyond => ?_
    have heq := hinside beyond
    simp only [StringEdit.run_eq hU hT hlive hin (hchecks.mp hin) hget hys hfit] at heq
    obtain ⟨str₂, hrun₂, -⟩ := replaceText_ok hstr h0 hle hfit u e.target
    obtain ⟨str₃, hrun₃, -⟩ := replaceText_ok hstr h0 hle hfit { u with beyond } e.target
    dsimp only
    rw [hrun₂, hrun₃] at heq ⊢
    exact congrArg Except.ok (StringHeap.put_inj hlt (Except.ok.inj heq))
  · rintro ⟨hchecks, hfits⟩
    refine ⟨fun hin => ?_, fun hno =>
      (StringEdit.raises_iff hT hlive).mpr (hchecks.not.mp hno)⟩
    obtain ⟨ys, hys, hfit, hshift⟩ := hfits hin
    obtain ⟨h0, hle⟩ := StringEdit.first_bounds hin hys
    have heq := StringEdit.run_eq hU hT hlive hin (hchecks.mp hin) hget hys hfit
    obtain ⟨str', hrun, hholds⟩ := replaceText_ok hstr h0 hle hfit u e.target
    refine ⟨ys, str', hys, by rw [heq, hrun]; rfl, hholds, fun beyond => ?_⟩
    have hinside := (inside_replaceText_iff hstr h0 hle hfit (u := u) (a := e.target)).mpr
      (hshift str hget)
    simp only [heq]
    exact congrArg (Except.map (h.put e.target)) (hinside beyond)

end

/-- The string `𝄞ab`. -/
def stringGab : NaviString := ⟨6, 3, 6, [0xf0, 0x9d, 0x84, 0x9e, 97, 98, 0]⟩

theorem holds_stringE : stringE.Holds Coding.utf8 ['é'] :=
  ⟨rfl, rfl, by decide, by decide, rfl, by decide, rfl⟩

theorem holds_stringGab : stringGab.Holds Coding.utf8 ['𝄞', 'a', 'b'] :=
  ⟨rfl, rfl, by decide, by decide, rfl, by decide, rfl⟩

theorem StringHeap.holds_singleton {α : Type} {C : Coding α} {str : NaviString} {t : List α}
    (hstr : str.Holds C t) : StringHeap.Holds C ⟨[str], []⟩ [t] :=
  .cons hstr .nil

end NaviScheme
