import NaviScheme.Strings.Returns

/-!
# Replacing a part of a string in place

`string-set!`, `string-fill!` and `copy_to` between two strings replace a part of the text by other
letters: they shift what is behind the part, store the new bytes and set the size
(`NaviString.replace`). That gives the text that it should (`replace_ok`), but `string_shift` reads
behind the block when it shifts to the left by more bytes than are left there
(`inside_replace_iff`).

That the functions do this is said by `stringSet_eq`, `stringFill_eq` and `copyTo_eq`; apart from
their checks they raise no error (`NoRaise`).
-/

namespace NaviScheme

/-! ### Functions that do not raise -/

/-- The function does not end with `navi_error`. -/
def NoRaise {β : Type} (x : Except StringStop β) : Prop := ∀ msg, x ≠ .error (.raise msg)

namespace NoRaise

variable {β γ : Type}

theorem ok (b : β) : NoRaise (.ok b : Except StringStop β) := fun _ => nofun

theorem bind {x : Except StringStop β} {f : β → Except StringStop γ} (hx : NoRaise x)
    (hf : ∀ b, NoRaise (f b)) : NoRaise (x >>= f) := by
  intro msg
  cases x with
  | ok b => exact hf b msg
  | error e =>
    intro he
    exact hx msg (congrArg Except.error (Except.error.inj he))

theorem assertSome (o : Option β) : NoRaise (assertSome o) := by
  cases o <;> exact fun _ => nofun

theorem storeByte (data : List UInt8) (i : ℤ) (b : UInt8) : NoRaise (storeByte data i b) := by
  unfold NaviScheme.storeByte
  split <;> exact fun _ => nofun

theorem storeBytes (data : List UInt8) (i : ℕ) (bs : List UInt8) :
    NoRaise (storeBytes data i bs) := by
  induction bs generalizing data i with
  | nil => exact .ok _
  | cons b bs ih => exact (storeByte data i b).bind fun data => ih data (i + 1)

theorem appendChars (U : Unicode) (capacity : ℤ) (data : List UInt8) (i : ℕ) (cs : List UInt32) :
    NoRaise (appendChars U capacity data i cs) := by
  induction cs generalizing data i with
  | nil => exact .ok _
  | cons c cs ih =>
    exact (assertSome _).bind fun bs => (storeBytes data i bs).bind fun data => ih data _

theorem charsSize (U : Unicode) (s : ℕ → UInt8) (size : ℤ) (n j : ℕ) (acc : ℤ) :
    NoRaise (charsSize U s size n j acc) := by
  induction n generalizing j acc with
  | zero => exact .ok _
  | succ n ih => exact (assertSome _).bind fun p => ih p.2 _

theorem skipChars (U : Unicode) (s : ℕ → UInt8) (size : ℤ) (n j : ℕ) :
    NoRaise (skipChars U s size n j) := by
  induction n generalizing j with
  | zero => exact .ok _
  | succ n ih => exact (assertSome _).bind fun p => ih p.2

theorem growStorage (u : Unknown) (str : NaviString) (need : ℤ) :
    NoRaise (str.growStorage u need) := by
  unfold NaviString.growStorage
  split
  · exact .ok _
  · exact (storeByte _ _ _).bind fun data => .ok _

theorem shiftRight (u : Unknown) (a pos diff : ℕ) (str : NaviString) (i : ℕ) :
    NoRaise (str.shiftRight u a pos diff i) := by
  induction i generalizing str with
  | zero => exact .ok _
  | succ i ih =>
    rw [NaviString.shiftRight]
    split
    · exact (storeByte _ _ _).bind fun data => ih _
    · exact .ok _

theorem shiftLeft (u : Unknown) (a diff : ℕ) (str : NaviString) (i n : ℕ) :
    NoRaise (str.shiftLeft u a diff i n) := by
  induction n generalizing str i with
  | zero => exact .ok _
  | succ n ih => exact (storeByte _ _ _).bind fun data => ih _ _

theorem shift (u : Unknown) (a : ℕ) (str : NaviString) (pos : ℕ) (diff : ℤ) :
    NoRaise (str.shift u a pos diff) := by
  unfold NaviString.shift
  split
  · exact (growStorage u str diff).bind fun str => shiftRight _ _ _ _ _ _
  · split
    · exact shiftLeft _ _ _ _ _ _
    · exact .ok _

theorem setSize (str : NaviString) (size : ℤ) : NoRaise (str.setSize size) :=
  (storeByte _ _ _).bind fun _ => .ok _

theorem set (U : Unicode) (u : Unknown) (a : ℕ) (str : NaviString) (k : ℤ) (ch : UInt32) :
    NoRaise (str.set U u a k ch) :=
  (assertSome _).bind fun _ => (shift _ _ _ _ _).bind fun _ => (assertSome _).bind fun _ =>
    (storeBytes _ _ _).bind fun _ => setSize _ _

theorem get (h : StringHeap) (a : ℕ) : NoRaise (h.get a) := by
  unfold StringHeap.get
  split <;> exact fun _ => nofun

theorem copyTo (U : Unicode) (u : Unknown) (h : StringHeap) (to_ : ℕ) (at_ : ℤ) (from_ : ℕ)
    (start end_ : ℤ) : NoRaise (h.copyTo U u to_ at_ from_ start end_) :=
  (get _ _).bind fun _ => (get _ _).bind fun _ => (charsSize _ _ _ _ _ _).bind fun _ =>
    (charsSize _ _ _ _ _ _).bind fun _ => (shift _ _ _ _ _).bind fun _ =>
      (storeBytes _ _ _).bind fun _ => (setSize _ _).bind fun _ => .ok _

end NoRaise

/-! ### Replacing a part -/

/-- What the three functions do, when they have found out the bytes and the sizes. -/
def NaviString.replace (u : Unknown) (a : ℕ) (str : NaviString) (pos : ℕ) (diff : ℤ)
    (bs : List UInt8) : Except StringStop NaviString := do
  let str ← str.shift u a pos diff
  let data ← storeBytes str.data pos bs
  NaviString.setSize { str with data } (str.size + diff)

/-- The function has read nothing from behind the block of a string: the result is the same
whatever is there. -/
def Inside {β : Type} (run : Unknown → Except StringStop β) (u : Unknown) : Prop :=
  ∀ beyond, run { u with beyond } = run u

/-- The loop of `string_shift` to the left, from behind `pos` to the last byte but one, finds its
bytes in the block. -/
def ShiftFits (str : NaviString) (pos : ℕ) (diff : ℤ) : Prop :=
  diff < 0 → (pos : ℤ) + 1 < str.size - 1 → str.size - 2 - diff ≤ str.capacity

section

variable {α : Type} {C : Coding α} {letter : UInt32 → Option α} {U : Unicode} {u : Unknown}
  {a pos : ℕ} {str str' : NaviString} {t xs ys zs ys' : List α}

theorem bytes_congr {beyond : ℕ → ℕ → UInt8} {i : ℕ} (hi : i < str.data.length) :
    str.bytes { u with beyond } a i = str.bytes u a i := by
  simp only [NaviString.bytes, List.getElem?_eq_getElem hi, Option.getD_some]

theorem growStorage_congr {beyond : ℕ → ℕ → UInt8} {need : ℤ} :
    str.growStorage { u with beyond } need = str.growStorage u need := rfl

theorem shiftRight_congr {beyond : ℕ → ℕ → UInt8} {diff i : ℕ} (hi : i < str.data.length) :
    str.shiftRight { u with beyond } a pos diff i = str.shiftRight u a pos diff i := by
  induction i generalizing str with
  | zero => rfl
  | succ i ih =>
    rw [NaviString.shiftRight, NaviString.shiftRight, bytes_congr hi]
    split
    · cases hstore : storeByte str.data (i + 1 + diff : ℕ) (str.bytes u a (i + 1)) with
      | error e => rfl
      | ok data =>
        obtain ⟨n, -, -, rfl⟩ := storeByte_eq_ok.mp hstore
        rw [ok_bind, ok_bind]
        exact ih (by rw [List.length_set]; omega)
    · rfl

theorem shiftLeft_congr {beyond : ℕ → ℕ → UInt8} {diff i n : ℕ}
    (hi : n = 0 ∨ i + n - 1 + diff < str.data.length) :
    str.shiftLeft { u with beyond } a diff i n = str.shiftLeft u a diff i n := by
  induction n generalizing str i with
  | zero => rfl
  | succ n ih =>
    rw [NaviString.shiftLeft, NaviString.shiftLeft, bytes_congr (by omega)]
    cases hstore : storeByte str.data i (str.bytes u a (i + diff)) with
    | error e => rfl
    | ok data =>
      obtain ⟨m, -, -, rfl⟩ := storeByte_eq_ok.mp hstore
      rw [ok_bind, ok_bind]
      exact ih (by rw [List.length_set]; omega)

/-- `string_shift` reads in the block, if it is not to go behind it. -/
theorem shift_congr (hstr : str.Holds C t) {diff : ℤ} (hfit : str.size + diff < 2 ^ 31)
    (hshift : ShiftFits str pos diff) (beyond : ℕ → ℕ → UInt8) :
    str.shift { u with beyond } a pos diff = str.shift u a pos diff := by
  have hsize := hstr.size
  have hblock := hstr.block
  have hle := hstr.size_le
  unfold NaviString.shift
  split
  · rename_i hdiff
    rw [growStorage_congr]
    cases hgrow : str.growStorage u diff with
    | error e => rfl
    | ok str₁ =>
      obtain ⟨hs, -, hcap, -, hb, -⟩ := growStorage_spec hdiff.le (by omega) hle hstr.capacity_lt
        hblock hfit hgrow
      rw [ok_bind, ok_bind]
      exact shiftRight_congr (by omega)
  · split
    · rename_i hdiff
      refine shiftLeft_congr ?_
      rcases lt_or_ge ((pos : ℤ) + 1) (str.size - 1) with hlt | hge
      · have := hshift hdiff hlt
        omega
      · omega
    · rfl

/-- The text that a part has been replaced in. -/
theorem replace_ok (hstr : str.Holds C (xs ++ ys ++ zs)) (hlen : ys.length = ys'.length)
    (hfit : (C.encode (xs ++ ys' ++ zs)).length < 2 ^ 31) (u : Unknown) (a : ℕ) :
    ∃ str', str.replace u a (C.encode xs).length
        ((C.encode ys').length - (C.encode ys).length) (C.encode ys') = .ok str' ∧
      str'.Holds C (xs ++ ys' ++ zs) := by
  have hsize := hstr.size
  have hfit' := hfit
  simp only [Coding.encode_append, List.length_append] at hsize hfit'
  obtain ⟨str₁, hshift⟩ := hstr.shift_ok (u := u) (a := a) (C.encode xs).length
    ((C.encode ys').length - (C.encode ys).length) (by omega) (by omega)
  obtain ⟨hs, -, hcap, hcaplt, hblock, -⟩ := shift_spec (by omega) hstr.size_le hstr.capacity_lt
    hstr.block (by omega) hshift
  obtain ⟨data, hdata⟩ := storeBytes_of_le (C.encode ys') str₁.data (C.encode xs).length (by omega)
  obtain ⟨hdlen, -⟩ := storeBytes_spec hdata
  have hnew : str₁.size + (((C.encode ys').length : ℤ) - (C.encode ys).length) =
      ((C.encode xs).length + (C.encode ys').length + (C.encode zs).length : ℕ) := by omega
  obtain ⟨str₂, hset⟩ : ∃ str₂, NaviString.setSize { str₁ with data }
      (str₁.size + ((C.encode ys').length - (C.encode ys).length)) = .ok str₂ := by
    rw [hnew]
    exact setSize_ok hfit' (show _ < data.length by omega)
  refine ⟨str₂, ?_, hstr.splice hlen hfit hshift hdata hset⟩
  rw [NaviString.replace, hshift, ok_bind, hdata, ok_bind, hset]

/-- The last byte that `string_shift` to the left has moved stays where it is. -/
theorem replace_getElem? {diff : ℤ} {bs : List UInt8} (hdiff : diff < 0)
    (hpos : (pos : ℤ) + 1 < str.size - 1) (hlt : str.size + diff < 2 ^ 31)
    (hnonneg : 0 ≤ str.size + diff) (hbs : (pos + bs.length : ℤ) ≤ str.size - 2)
    (hsize : str.size + diff < str.size - 2) (hrun : str.replace u a pos diff bs = .ok str') :
    str'.data[(str.size - 2).toNat]? = some (str.bytes u a (str.size - 2 - diff).toNat) := by
  obtain ⟨str₁, hshift, hrun⟩ := bind_eq_ok hrun
  obtain ⟨data, hdata, hset⟩ := bind_eq_ok hrun
  rw [NaviString.shift, if_neg (by omega), if_pos hdiff] at hshift
  obtain ⟨⟨data₁, rfl, -⟩, -, hmid, -⟩ := shiftLeft_spec (by omega) hshift
  obtain ⟨-, -, -, -, hafter⟩ := storeBytes_spec hdata
  obtain ⟨n, hn⟩ := Int.eq_ofNat_of_zero_le hnonneg
  dsimp only at hset
  rw [hn] at hset
  obtain ⟨-, rfl⟩ := setSize_spec (by omega) hset
  have hidx : (str.size - 2).toNat + (-diff).toNat = (str.size - 2 - diff).toNat := by omega
  dsimp only at hmid hafter ⊢
  rw [List.getElem?_set_ne (by omega), hafter _ (by omega), hmid _ (by omega) (by omega), hidx]

/-- **`string_shift` stays in the block** exactly when what it moves to the left is in there. -/
theorem inside_replace_iff (hstr : str.Holds C (xs ++ ys ++ zs)) (hlen : ys.length = ys'.length)
    (hfit : (C.encode (xs ++ ys' ++ zs)).length < 2 ^ 31) :
    Inside (fun u => str.replace u a (C.encode xs).length
        ((C.encode ys').length - (C.encode ys).length) (C.encode ys')) u ↔
      ShiftFits str (C.encode xs).length ((C.encode ys').length - (C.encode ys).length) := by
  have hsize := hstr.size
  have hblock := hstr.block
  have hle := hstr.size_le
  have hfit' := hfit
  simp only [Coding.encode_append, List.length_append] at hsize hfit'
  constructor
  · intro hinside hdiff hpos
    by_contra hcap
    obtain ⟨str₂, hrun, -⟩ := replace_ok hstr hlen hfit u a
    -- whatever is behind the block is in the result
    have hread : ∀ b : UInt8, str₂.data[(str.size - 2).toNat]? = some b := by
      intro b
      have hrun' := (hinside fun _ _ => b).trans hrun
      dsimp only at hrun'
      rw [replace_getElem? hdiff hpos (by omega) (by omega) (by omega) (by omega) hrun',
        NaviString.bytes, List.getElem?_eq_none (by omega)]
      rfl
    have := (hread 0).symm.trans (hread 1)
    exact absurd (Option.some.inj this) (by decide)
  · intro hfits beyond
    dsimp only
    rw [NaviString.replace, NaviString.replace, shift_congr hstr (by omega) hfits]

/-! ### The part of a text -/

/-- The difference of the sizes, when the letters `ys` take the place of as many others. -/
def editDiff (C : Coding α) (t : List α) (start : ℤ) (ys : List α) : ℤ :=
  (C.encode ys).length - (C.encode (slice t start (start + ys.length))).length

/-- Replacing the letters from `start` on. -/
def NaviString.replaceText (C : Coding α) (u : Unknown) (a : ℕ) (str : NaviString) (t : List α)
    (start : ℤ) (ys : List α) : Except StringStop NaviString :=
  str.replace u a (C.encode (t.take start.toNat)).length (editDiff C t start ys) (C.encode ys)

section

variable {start : ℤ}

/-- A text as what is before a part, the part and what is behind it. -/
theorem splice_parts (h0 : 0 ≤ start) (hle : start + ys.length ≤ t.length) :
    t = t.take start.toNat ++ slice t start (start + ys.length) ++
        t.drop (start.toNat + ys.length) ∧
      (slice t start (start + ys.length)).length = ys.length := by
  obtain ⟨heq, hlen⟩ := eq_splice_slice (t := t) h0 (show start ≤ start + ys.length by omega) hle
  have hend : (start + (ys.length : ℤ)).toNat = start.toNat + ys.length := by omega
  rw [hend] at heq
  exact ⟨heq, by omega⟩

theorem replaceText_ok (hstr : str.Holds C t) (h0 : 0 ≤ start)
    (hle : start + ys.length ≤ t.length) (hfit : (C.encode (splice t start ys)).length < 2 ^ 31)
    (u : Unknown) (a : ℕ) :
    ∃ str', str.replaceText C u a t start ys = .ok str' ∧ str'.Holds C (splice t start ys) := by
  obtain ⟨heq, hlen⟩ := splice_parts h0 hle
  rw [heq] at hstr
  exact replace_ok hstr hlen hfit u a

theorem inside_replaceText_iff (hstr : str.Holds C t) (h0 : 0 ≤ start)
    (hle : start + ys.length ≤ t.length) (hfit : (C.encode (splice t start ys)).length < 2 ^ 31) :
    Inside (fun u => str.replaceText C u a t start ys) u ↔
      ShiftFits str (C.encode (t.take start.toNat)).length (editDiff C t start ys) := by
  obtain ⟨heq, hlen⟩ := splice_parts h0 hle
  rw [heq] at hstr
  exact inside_replace_iff hstr hlen hfit

/-- The shift is done and has made room. -/
theorem shift_edit_ok (hstr : str.Holds C t) (h0 : 0 ≤ start) (hle : start + ys.length ≤ t.length)
    (hfit : (C.encode (splice t start ys)).length < 2 ^ 31) (u : Unknown) (a : ℕ) :
    ∃ str₁, str.shift u a (C.encode (t.take start.toNat)).length (editDiff C t start ys) =
        .ok str₁ ∧ str₁.size = str.size ∧
      (((C.encode (t.take start.toNat)).length + (C.encode ys).length : ℕ) : ℤ) ≤
        str.size + editDiff C t start ys ∧
      str.size + editDiff C t start ys ≤ str₁.capacity ∧
      (str₁.data.length : ℤ) = str₁.capacity + 1 := by
  obtain ⟨heq, -⟩ := splice_parts h0 hle
  have hsize := hstr.size
  rw [heq] at hsize
  simp only [splice, Coding.encode_append, List.length_append] at hsize hfit
  have hdiff : str.size + editDiff C t start ys = ((C.encode (t.take start.toNat)).length +
      (C.encode ys).length + (C.encode (t.drop (start.toNat + ys.length))).length : ℕ) := by
    rw [editDiff, hsize]
    omega
  obtain ⟨str₁, hshift⟩ := hstr.shift_ok (u := u) (a := a)
    (C.encode (t.take start.toNat)).length (editDiff C t start ys) (by omega) (by omega)
  obtain ⟨hs, -, hcap, -, hblock, -⟩ := shift_spec (by omega) hstr.size_le hstr.capacity_lt
    hstr.block (by omega) hshift
  exact ⟨str₁, hshift, hs, by omega, hcap, hblock⟩

end

/-! ### The three functions -/

section

variable {h : StringHeap} {ch : UInt32} {c : α}

theorem StringHeap.get_eq {a : ℕ} (ha : a < h.strings.length) : ∃ str, h.get a = .ok str :=
  ⟨h.strings[a], by rw [StringHeap.get, List.getElem?_eq_getElem ha]⟩

theorem bind_pure_eq_map {ε β γ : Type} (x : Except ε β) (f : β → γ) :
    (x >>= fun b => pure (f b)) = x.map f := by
  cases x <;> rfl

theorem slice_singleton {k : ℕ} (hk : k < t.length) : slice t k (k + 1) = [t[k]] := by
  have hone : ((k : ℤ) + 1 - k).toNat = 1 := by omega
  rw [slice, hone, Int.toNat_natCast, List.drop_eq_getElem_cons hk, List.take_succ_cons,
    List.take_zero]

/-- **`string-set!`** of a letter of the text. -/
theorem stringSet_eq (hU : U.Implements C letter) (hget : h.get a = .ok str)
    (hstr : str.Holds C t) {k : ℕ} (hk : k < t.length) (hc : letter ch = some c)
    (hfit : (C.encode (splice t k [c])).length < 2 ^ 31) (u : Unknown) :
    h.stringSet U u a k ch = (str.replaceText C u a t k [c]).map (h.put a) := by
  have hsize := hstr.size
  have hlen := C.length_le_encode t
  have hk0 : (0 : ℤ) ≤ k := Int.natCast_nonneg k
  have hle : (k : ℤ) + ([c] : List α).length ≤ t.length := by
    rw [List.length_singleton]
    omega
  obtain ⟨hfwd, hat, hbound⟩ := part_spec (u := u) (a := a) hU hstr.hasText hk0
    (show (k : ℤ) ≤ k + 1 by omega) (show (k : ℤ) + 1 ≤ t.length by omega)
  have hword : ∀ b, C.encode [b] = C.word b := by simp
  rw [slice_singleton hk, hword] at hat hbound
  obtain ⟨old, hold, hletter⟩ := hU.get str.size hat hbound
  have hdiff : editDiff C t k [c] = U.u8Length ch - U.u8Length old := by
    rw [editDiff, List.length_singleton, Nat.cast_one, slice_singleton hk, hword, hword,
      hU.length_letter hc, hU.length_letter hletter]
  obtain ⟨str₁, hshift, hs, hroom, -, -⟩ := shift_edit_ok hstr hk0 hle hfit u a
  have happend : U.u8Append (C.encode (t.take (k : ℤ).toNat)).length
      (str₁.size + editDiff C t k [c]) ch = some (C.word c) := by
    refine hU.append hc ?_
    rw [hs, ← hword]
    exact hroom
  have hset : str.set U u a k ch = str.replaceText C u a t k [c] := by
    rw [NaviString.set, hfwd]
    dsimp only
    rw [hold]
    simp only [assertSome, ok_bind]
    rw [← hdiff, hshift, ok_bind, happend, NaviString.replaceText, NaviString.replace, hshift,
      ok_bind, hword]
    rfl
  rw [StringHeap.stringSet, hget, ok_bind, if_neg (by omega), hset]
  exact bind_pure_eq_map _ _

/-- An optional fixnum that is a fixnum. -/
theorem fixnumOr_map (arg : Option ℤ) (n : ℤ) :
    fixnumOr (arg.map .fixnum) n = .ok (arg.getD n) := by
  cases arg <;> rfl

/-- **`string-fill!`** with letters. -/
theorem stringFill_eq (hU : U.Implements C letter) (hget : h.get a = .ok str)
    (hstr : str.Holds C t) {startArg endArg : Option ℤ} {start end_ : ℤ}
    (hstart : start = int32 (startArg.getD 0)) (hend : end_ = int32 (endArg.getD str.size))
    (h0 : 0 ≤ start) (hlt : start < t.length) (hle : start ≤ end_) (hle' : end_ ≤ t.length)
    (hys : (List.replicate (end_ - start).toNat ch).map letter = ys.map some)
    (hfit : (C.encode (splice t start ys)).length < 2 ^ 31) (u : Unknown) :
    h.stringFill U u a ch (startArg.map .fixnum) (endArg.map .fixnum) =
      (str.replaceText C u a t start ys).map (h.put a) := by
  have hyslen : ys.length = (end_ - start).toNat := by simpa using (congrArg List.length hys).symm
  have hend' : start + ys.length = end_ := by omega
  obtain ⟨hfwd, hat, hbound⟩ := part_spec (u := u) (a := a) hU hstr.hasText h0 hle hle'
  obtain ⟨-, hslice⟩ := eq_splice_slice (t := t) h0 hle hle'
  have hskip := skipChars_eq hU hat hbound
  rw [hslice] at hskip
  have hcheck : naviCheckCopy (sizeT str.length) start end_ = .ok () := by
    rw [hstr.sizeT_length]
    exact naviCheckCopyTo_iff.mpr (by omega)
  have hfit' := hfit
  simp only [splice, Coding.encode_append, List.length_append] at hfit'
  have hnew : int32 (U.u8Length ch * (end_ - start)) = (C.encode ys).length := by
    rw [u8Length_mul hU (sub_nonneg.mpr hle) hys, int32_eq_self (by omega) (by omega)]
  have hdiff : ∀ n : ℕ, ((C.encode ys).length : ℤ) - ((n + (C.encode (slice t start end_)).length :
      ℕ) - n) = editDiff C t start ys := fun n => by
    rw [editDiff, hend']
    push_cast
    omega
  obtain ⟨str₁, hshift, hs, hroom, hcap, hblock⟩ := shift_edit_ok hstr h0 (by omega) hfit u a
  have hblock' : (C.encode (t.take start.toNat)).length + (C.encode ys).length ≤
      str₁.data.length := by omega
  obtain ⟨data, hdata⟩ := appendChars_ok hU hys (hroom.trans hcap) hblock'
  obtain ⟨as, has, hstore, -⟩ := appendChars_spec hU hdata
  obtain rfl : as = ys := by
    have := has.symm.trans hys
    exact List.map_injective_iff.mpr (Option.some_injective α) this
  unfold StringHeap.stringFill
  rw [hget, ok_bind, fixnumOr_map, ok_bind, fixnumOr_map, ok_bind, ← hstart, ← hend]
  dsimp only
  rw [hcheck, ok_bind, hfwd, hskip, ok_bind, hnew, hdiff, hshift, ok_bind, hdata, ok_bind,
    NaviString.replaceText, NaviString.replace, hshift, ok_bind, hstore, ok_bind]
  exact bind_pure_eq_map _ _

/-- **`copy_to`** from another string. -/
theorem copyTo_eq (hU : U.Implements C letter) {to_ from_ : ℕ} (hne : from_ ≠ to_)
    {tos froms : NaviString} {t f : List α} (hto : h.get to_ = .ok tos)
    (hfrom : h.get from_ = .ok froms) (hts : tos.Holds C t) (hfs : froms.Holds C f)
    {at_ start end_ : ℤ} (hat : 0 ≤ at_) (h0 : 0 ≤ start) (hle : start ≤ end_)
    (hend : end_ ≤ f.length) (hle' : at_ + (end_ - start) ≤ t.length) (u : Unknown) :
    h.copyTo U u to_ at_ from_ start end_ =
      (tos.replaceText C u to_ t at_ (slice f start end_)).map (h.put to_) := by
  obtain ⟨-, hflen⟩ := eq_splice_slice (t := f) h0 hle hend
  obtain ⟨-, hfat, -⟩ := part_spec (u := u) (a := from_) hU hfs.hasText h0 hle hend
  have hlast : at_ + ((slice f start end_).length : ℤ) = at_ + (end_ - start) := by omega
  have hdiff : ((C.encode (slice f start end_)).length : ℤ) -
      (C.encode (slice t at_ (at_ + (end_ - start)))).length =
        editDiff C t at_ (slice f start end_) := by
    rw [editDiff, hlast]
  have hbytes : ∀ overlap : Prop, ∀ _ : Decidable overlap, ¬ overlap →
      memcpyBytes u from_ froms overlap (C.encode (f.take start.toNat)).length
        (C.encode (slice f start end_)).length = C.encode (slice f start end_) :=
    fun overlap _ hoverlap => memcpyBytes_eq hoverlap hfat
  rw [copyTo_eq_measured hU hto hfrom hts hfs hat h0 hle hend hle', StringHeap.copyMeasured, hdiff,
    NaviString.replaceText, NaviString.replace]
  cases hshift : tos.shift u to_ (C.encode (t.take at_.toNat)).length
      (editDiff C t at_ (slice f start end_)) with
  | error e => rfl
  | ok tos₁ =>
    rw [ok_bind, ok_bind, if_neg hne]
    dsimp only
    rw [hbytes _ _ fun hoverlap => hne hoverlap.1]
    cases hdata : storeBytes tos₁.data (C.encode (t.take at_.toNat)).length
        (C.encode (slice f start end_)) with
    | error e => rfl
    | ok data =>
      rw [ok_bind, ok_bind]
      exact bind_pure_eq_map _ _

end

end

end NaviScheme
