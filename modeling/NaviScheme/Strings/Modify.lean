import Mathlib.Algebra.BigOperators.Group.List.Basic
import NaviScheme.Strings.Texts

/-!
# Operations on the strings of a heap

What the operations that read or change strings of the heap do to their texts: `string-append`,
`string-set!`, `string-fill!`, `string-copy!` and the others over `copy_to`, and string ports.
-/

namespace NaviScheme

variable {α : Type} {C : Coding α} {letter : UInt32 → Option α} {U : Unicode} {u : Unknown}
  {h h' : StringHeap} {T : List (List α)} {a : ℕ} {str str' : NaviString} {t : List α}

/-! ### Whole strings -/

/-- The texts of strings that are given as arguments. -/
def argTexts (T : List (List α)) (args : List StringArg) : List α :=
  args.flatMap fun
    | .string a => T.getD a []
    | _ => []

/-- What the loops of `string-append` compute. -/
theorem stringArgs_spec (hT : h.Holds C T) {args : List StringArg} {strs : List (ℕ × NaviString)}
    (hargs : h.stringArgs args = .ok strs) :
    (strs.flatMap fun s => contents u s.1 s.2) = C.encode (argTexts T args) ∧
      ∀ n m : ℕ, n + (C.encode (argTexts T args)).length < 2 ^ 31 →
        m + (argTexts T args).length < 2 ^ 31 →
        strs.foldl (fun n s => int32 (n + s.2.size)) (n : ℤ) =
            (n + (C.encode (argTexts T args)).length : ℕ) ∧
          strs.foldl (fun n s => int32 (n + s.2.length)) (m : ℤ) =
            (m + (argTexts T args).length : ℕ) := by
  induction args generalizing strs with
  | nil =>
    cases hargs
    exact ⟨rfl, fun n m _ _ => ⟨rfl, rfl⟩⟩
  | cons arg args ih =>
    obtain ⟨a, ha, hargs⟩ := bind_eq_ok hargs
    obtain ⟨str, hstr, hargs⟩ := bind_eq_ok hargs
    obtain ⟨strs', hstrs, hargs⟩ := bind_eq_ok hargs
    cases hargs
    have harg : arg = .string a := by
      cases arg <;> cases ha
      rfl
    subst harg
    obtain ⟨hflat, hfold⟩ := ih hstrs
    obtain ⟨hholds, -⟩ := hT.get hstr
    have htext : argTexts T (.string a :: args) = T.getD a [] ++ argTexts T args := rfl
    rw [htext, Coding.encode_append, List.length_append, List.length_append, List.flatMap_cons]
    refine ⟨by rw [hflat, hholds.contents], fun n m hn hm => ?_⟩
    rw [List.foldl_cons, List.foldl_cons, hholds.size, hholds.length,
      int32_eq_self (by omega) (by omega), int32_eq_self (by omega) (by omega)]
    have := hfold (n + (C.encode (T.getD a [])).length) (m + (T.getD a []).length)
      (by omega) (by omega)
    rw [Nat.add_assoc, Nat.add_assoc] at this
    exact_mod_cast this

/-- `string-append` -/
theorem stringAppend_spec (hT : h.Holds C T) {args : List StringArg}
    (hfit : (C.encode (argTexts T args)).length < 2 ^ 31)
    (hrun : h.stringAppend u args = .ok h') :
    ∃ str, h' = h.add str ∧ str.Holds C (argTexts T args) := by
  have h64 : (2 : ℕ) ^ 31 < 2 ^ 64 := by decide
  obtain ⟨strs, hstrs, hrun⟩ := bind_eq_ok hrun
  obtain ⟨hflat, hfold⟩ := stringArgs_spec (u := u) hT hstrs
  have hlen := C.length_le_encode (argTexts T args)
  obtain ⟨hsize, hlength⟩ := hfold 0 0 (by omega) (by omega)
  rw [Nat.zero_add, Nat.cast_zero] at hsize hlength
  dsimp only at hrun
  rw [hsize, hlength, sizeT_natCast (by omega), sizeT_natCast (by omega), hflat] at hrun
  obtain ⟨str, hstr, hrun⟩ := bind_eq_ok hrun
  obtain ⟨data, hdata, hrun⟩ := bind_eq_ok hrun
  cases hrun
  exact ⟨_, rfl, holds_of_make hfit rfl rfl hstr hdata⟩

/-- `navi_get_output_string`, of a port whose string holds a text. -/
theorem naviGetOutputString_of_holds {p : ℕ} (hp : h.ports[p]? = some a)
    (hstr : h.get a = .ok str) (hholds : str.Holds C t)
    (hrun : h.naviGetOutputString u p = .ok h') :
    ∃ str, h' = h.add str ∧ str.Holds C t := by
  have h64 : (2 : ℕ) ^ 31 < 2 ^ 64 := by decide
  have hport : h.port p = .ok a := by rw [StringHeap.port, hp]
  unfold StringHeap.naviGetOutputString at hrun
  rw [hport, ok_bind, hstr, ok_bind] at hrun
  have hfit := hholds.encode_length_lt
  have hlen := hholds.length_lt
  rw [hholds.size, hholds.length, sizeT_natCast (by omega), sizeT_natCast (by omega),
    hholds.contents] at hrun
  obtain ⟨copy, hcopy, hrun⟩ := bind_eq_ok hrun
  obtain ⟨data, hdata, hrun⟩ := bind_eq_ok hrun
  cases hrun
  exact ⟨_, rfl, holds_of_make hfit rfl rfl hcopy hdata⟩

/-- `navi_get_output_string` -/
theorem naviGetOutputString_spec (hT : h.Holds C T) {p : ℕ} (hp : h.ports[p]? = some a)
    (hrun : h.naviGetOutputString u p = .ok h') :
    ∃ str, h' = h.add str ∧ str.Holds C (T.getD a []) := by
  have hport : h.port p = .ok a := by rw [StringHeap.port, hp]
  have hget := hrun
  unfold StringHeap.naviGetOutputString at hget
  rw [hport, ok_bind] at hget
  obtain ⟨str, hstr, -⟩ := bind_eq_ok hget
  exact naviGetOutputString_of_holds hp hstr (hT.get hstr).1 hrun

/-- `string_write`, to a port whose string holds a text. -/
theorem stringWrite_of_holds (hU : U.Implements C letter) {p : ℕ} {ch : UInt32}
    (hp : h.ports[p]? = some a) (hstr : h.get a = .ok str) (hholds : str.Holds C t)
    (hfit : ∀ c, letter ch = some c → (C.encode (t ++ [c])).length < 2 ^ 31)
    (hrun : h.stringWrite U u p ch = .ok h') :
    ∃ c str, letter ch = some c ∧ h' = h.put a str ∧ str.Holds C (t ++ [c]) := by
  have hport : h.port p = .ok a := by rw [StringHeap.port, hp]
  unfold StringHeap.stringWrite at hrun
  rw [hport, ok_bind, hstr, ok_bind] at hrun
  obtain ⟨str₁, hgrow, hrun⟩ := bind_eq_ok hrun
  obtain ⟨bs, hbs, hrun⟩ := bind_eq_ok hrun
  obtain ⟨data, hdata, hrun⟩ := bind_eq_ok hrun
  obtain ⟨str₂, hset, hrun⟩ := bind_eq_ok hrun
  cases hrun
  obtain ⟨c, hc, rfl⟩ := hU.of_append (assertSome_eq_ok.1 hbs)
  have hfit := hfit c hc
  have hsize := hholds.size
  have hlen := hholds.length_lt
  have htlen := C.length_le_encode (t ++ [c])
  simp only [Coding.encode_append, Coding.encode_cons, Coding.encode_nil, List.append_nil,
    List.length_append, List.length_singleton] at hfit htlen
  rw [hU.length_letter hc] at hgrow
  obtain ⟨hs, hl, hroom, hcap, hblock, hbytes⟩ := growStorage_spec (by omega) (by omega)
    hholds.size_le hholds.capacity_lt hholds.block (by omega) hgrow
  have hnat : str₁.size.toNat = (C.encode t).length := by omega
  rw [hnat] at hdata
  obtain ⟨hdlen, -, hlow, hmid, -⟩ := storeBytes_spec hdata
  have hnew : str₁.size + ((C.word c).length : ℤ) =
      ((C.encode t).length + (C.word c).length : ℕ) := by omega
  rw [hnew] at hset
  obtain ⟨hlt, rfl⟩ := setSize_spec hfit hset
  refine ⟨c, _, hc, rfl, ?_⟩
  refine ⟨by simp, ?_, ?_, hcap, ?_, fun j hj => ?_, ?_⟩
  · change int32 (str₁.length + 1) = _
    rw [hl, hholds.length, List.length_append, List.length_singleton,
      int32_eq_self (by omega) (by omega)]
    push_cast
    rfl
  · change ((_ : ℕ) : ℤ) ≤ str₁.capacity
    omega
  · simp only [List.length_set, hdlen]
    exact hblock
  · simp only [Coding.encode_append, Coding.encode_cons, Coding.encode_nil, List.append_nil,
      List.length_append] at hj ⊢
    rw [List.getElem?_set_ne (by omega)]
    rcases Nat.lt_or_ge j (C.encode t).length with hjt | hjt
    · rw [hlow j hjt, hbytes j (by omega), hholds.text j hjt, List.getElem?_append_left hjt]
    · obtain ⟨k, rfl⟩ := Nat.exists_eq_add_of_le hjt
      rw [hmid k (by omega), List.getElem?_append_right hjt, Nat.add_sub_cancel_left]
  · simp only [Coding.encode_append, Coding.encode_cons, Coding.encode_nil, List.append_nil,
      List.length_append]
    exact List.getElem?_set_self hlt

/-- `string_write` -/
theorem stringWrite_spec (hU : U.Implements C letter) (hT : h.Holds C T) {p : ℕ} {ch : UInt32}
    (hp : h.ports[p]? = some a)
    (hfit : ∀ c, letter ch = some c → (C.encode (T.getD a [] ++ [c])).length < 2 ^ 31)
    (hrun : h.stringWrite U u p ch = .ok h') :
    ∃ c str, letter ch = some c ∧ h' = h.put a str ∧ str.Holds C (T.getD a [] ++ [c]) := by
  have hport : h.port p = .ok a := by rw [StringHeap.port, hp]
  have hwrite := hrun
  unfold StringHeap.stringWrite at hwrite
  rw [hport, ok_bind] at hwrite
  obtain ⟨str, hstr, -⟩ := bind_eq_ok hwrite
  exact stringWrite_of_holds hU hp hstr (hT.get hstr).1 hfit hrun

/-! ### A part of a string -/

theorem NaviString.HasText.at_append {xs ys : List α} (hstr : str.HasText C (xs ++ ys)) (a : ℕ) :
    BytesAt (str.bytes u a) 0 (C.encode xs) ∧
      BytesAt (str.bytes u a) (C.encode xs).length (C.encode ys) := by
  have := hstr.bytesAt (u := u) a
  rw [Coding.encode_append, BytesAt.append, Nat.zero_add] at this
  exact this

/-- `navi_string_set`, of a letter of the text. -/
theorem NaviString.Holds.set (hU : U.Implements C letter) {xs zs : List α} {b : α} {k : ℤ}
    {ch : UInt32} (hstr : str.Holds C (xs ++ [b] ++ zs)) (hk : k = xs.length)
    (hfit : ∀ c, letter ch = some c → (C.encode (xs ++ [c] ++ zs)).length < 2 ^ 31)
    (hrun : str.set U u a k ch = .ok str') :
    ∃ c, letter ch = some c ∧ str'.Holds C (xs ++ [c] ++ zs) := by
  obtain ⟨hxs, hys⟩ := NaviString.HasText.at_append (u := u)
    (List.append_assoc _ _ _ ▸ hstr.hasText) a
  rw [Coding.encode_append, BytesAt.append] at hys
  obtain ⟨hb, -⟩ := hys
  have hi : U.u8FwdN (str.bytes u a) 0 k.toNat = (C.encode xs).length := by
    rw [hk, Int.toNat_natCast, hU.fwdN hxs, Nat.zero_add]
  have hword : C.encode [b] = C.word b := by simp
  rw [hword] at hb
  obtain ⟨old, hold, hletter⟩ := hU.get str.size hb (by
    rw [hstr.size]
    simp only [Coding.encode_append, List.length_append, hword]
    omega)
  unfold NaviString.set at hrun
  rw [hi] at hrun
  dsimp only at hrun
  rw [hold] at hrun
  obtain ⟨old', hold', hrun⟩ := bind_eq_ok hrun
  cases hold'
  rw [hU.length_letter hletter] at hrun
  obtain ⟨str₁, hshift, hrun⟩ := bind_eq_ok hrun
  obtain ⟨bs, hbs, hrun⟩ := bind_eq_ok hrun
  obtain ⟨data, hdata, hset⟩ := bind_eq_ok hrun
  obtain ⟨c, hc, rfl⟩ := hU.of_append (assertSome_eq_ok.1 hbs)
  rw [hU.length_letter hc] at hshift hset
  have hword' : C.encode [c] = C.word c := by simp
  rw [← hword, ← hword'] at hshift hset
  rw [← hword'] at hdata
  exact ⟨c, hc, hstr.splice rfl (hfit c hc) hshift hdata hset⟩

/-- A text with a letter in another's place. -/
theorem set_eq_append {k : ℕ} {c : α} (hk : k < t.length) :
    t = t.take k ++ [t[k]] ++ t.drop (k + 1) ∧
      t.set k c = t.take k ++ [c] ++ t.drop (k + 1) := by
  constructor
  · simp
  · rw [List.set_eq_take_append_cons_drop, if_pos hk]
    simp

/-- `string-set!`, of a letter of the text. -/
theorem stringSet_spec (hU : U.Implements C letter) (hT : h.Holds C T) {k : ℤ} {ch : UInt32}
    (hk : k < (T.getD a []).length)
    (hfit : ∀ c, letter ch = some c → (C.encode ((T.getD a []).set k.toNat c)).length < 2 ^ 31)
    (hrun : h.stringSet U u a k ch = .ok h') :
    ∃ c str, letter ch = some c ∧ h' = h.put a str ∧
      str.Holds C ((T.getD a []).set k.toNat c) := by
  obtain ⟨str, hstr, hrun⟩ := bind_eq_ok hrun
  split at hrun
  · cases hrun
  · rename_i hbounds
    obtain ⟨hholds, -⟩ := hT.get hstr
    generalize T.getD a [] = t at hk hfit hholds ⊢
    obtain ⟨k, rfl⟩ := Int.eq_ofNat_of_zero_le (a := k) (by omega)
    rw [Int.toNat_natCast] at hfit ⊢
    have hk' : k < t.length := by omega
    obtain ⟨str', hset, hrun⟩ := bind_eq_ok hrun
    cases hrun
    obtain ⟨heq, -⟩ := set_eq_append (c := t[k]) hk'
    rw [heq] at hholds
    obtain ⟨c, hc, hholds'⟩ := hholds.set hU (by simp [hk'.le]) (fun c hc => by
      rw [← (set_eq_append hk').2]
      exact hfit c hc) hset
    exact ⟨c, str', hc, rfl, (set_eq_append hk').2 ▸ hholds'⟩

/-- The part of a text from a position to another one. -/
def slice (t : List α) (start end_ : ℤ) : List α := (t.drop start.toNat).take (end_ - start).toNat

/-- A text with a part of it replaced. -/
def splice (t : List α) (at_ : ℤ) (ys : List α) : List α :=
  t.take at_.toNat ++ ys ++ t.drop (at_.toNat + ys.length)

theorem eq_splice_slice {start end_ : ℤ} (h0 : 0 ≤ start) (hle : start ≤ end_)
    (hend : end_ ≤ t.length) :
    t = t.take start.toNat ++ slice t start end_ ++ t.drop end_.toNat ∧
      (slice t start end_).length = (end_ - start).toNat := by
  constructor
  · have hdrop : t.drop end_.toNat = (t.drop start.toNat).drop (end_ - start).toNat := by
      rw [List.drop_drop]
      congr 1
      omega
    rw [slice, hdrop, List.append_assoc, List.take_append_drop, List.take_append_drop]
  · rw [slice, List.length_take, List.length_drop]
    omega

/-- What `navi_check_copy_to` lets through. -/
theorem naviCheckCopyTo_eq_ok {to_ from_ : ℕ} {at_ start end_ : ℤ}
    (hcheck : naviCheckCopyTo to_ at_ from_ start end_ = .ok ()) :
    0 ≤ at_ ∧ at_ < to_ ∧ 0 ≤ start ∧ start < from_ ∧ start ≤ end_ ∧ end_ ≤ from_ ∧
      at_ + (end_ - start) ≤ to_ := by
  unfold naviCheckCopyTo at hcheck
  split at hcheck
  · cases hcheck
  · omega

/-! ### `copy_to` -/

/-- The source of a copy is apart from its target: it is another string, or the bytes of the
source stay where they are and are not among those that are replaced. -/
def Apart (C : Coding α) (T : List (List α)) (to_ : ℕ) (at_ : ℤ) (from_ : ℕ) (start end_ : ℤ) :
    Prop :=
  from_ = to_ → end_ ≤ at_ ∨ start = end_ ∨ at_ + (end_ - start) ≤ start ∧
    (C.encode (slice (T.getD to_ []) at_ (at_ + (end_ - start)))).length =
      (C.encode (slice (T.getD to_ []) start end_)).length

/-- What a copy makes of the target: the letters of the source take the place of as many others.
In a build with one byte for a character, some letters do if the source is not apart. -/
def CopyText (C : Coding α) (T : List (List α)) (to_ : ℕ) (at_ : ℤ) (from_ : ℕ) (start end_ : ℤ)
    (t : List α) : Prop :=
  ∃ ys : List α, ys.length = (end_ - start).toNat ∧
    (Apart C T to_ at_ from_ start end_ → ys = slice (T.getD from_ []) start end_) ∧
    t = splice (T.getD to_ []) at_ ys

theorem shift_zero {pos : ℕ} (hrun : str.shift u a pos 0 = .ok str') : str' = str := by
  simpa [NaviString.shift] using hrun.symm

/-- A `memcpy` of bytes that are known. -/
theorem memcpyBytes_eq {from_ i : ℕ} {froms : NaviString} {overlap : Prop} [Decidable overlap]
    {bs : List UInt8} (hoverlap : ¬ overlap) (hbs : BytesAt (froms.bytes u from_) i bs) :
    memcpyBytes u from_ froms overlap i bs.length = bs := by
  refine List.ext_getElem (by simp [memcpyBytes]) fun j hj hj' => ?_
  simp only [memcpyBytes, if_neg hoverlap, List.getElem_map, List.getElem_range]
  exact hbs j hj'

theorem length_memcpyBytes {from_ i n : ℕ} {froms : NaviString} {overlap : Prop}
    [Decidable overlap] : (memcpyBytes u from_ froms overlap i n).length = n := by
  simp [memcpyBytes]

/-- Where the letters of a part of a text stand. -/
theorem part_spec (hU : U.Implements C letter) (hstr : str.HasText C t) {start end_ : ℤ}
    (hstart : 0 ≤ start) (hle : start ≤ end_) (hend : end_ ≤ t.length) :
    U.u8FwdN (str.bytes u a) 0 start.toNat = (C.encode (t.take start.toNat)).length ∧
      BytesAt (str.bytes u a) (C.encode (t.take start.toNat)).length
        (C.encode (slice t start end_)) ∧
      (((C.encode (t.take start.toNat)).length + (C.encode (slice t start end_)).length : ℕ) : ℤ) ≤
        str.size := by
  obtain ⟨heq, -⟩ := eq_splice_slice hstart hle hend
  have hstr' := hstr
  rw [heq] at hstr'
  obtain ⟨hxs, hys⟩ := NaviString.HasText.at_append (u := u) (List.append_assoc _ _ _ ▸ hstr') a
  rw [Coding.encode_append, BytesAt.append] at hys
  refine ⟨?_, hys.1, ?_⟩
  · have := hU.fwdN hxs
    rwa [List.length_take, min_eq_left (by omega), Nat.zero_add] at this
  · have := hstr'.size
    simp only [Coding.encode_append, List.length_append] at this
    omega

theorem encode_part_le {start end_ k : ℤ} (hstart : 0 ≤ start) (hle : start ≤ end_) (hk : end_ ≤ k) :
    (C.encode (t.take start.toNat)).length + (C.encode (slice t start end_)).length ≤
      (C.encode (t.take k.toNat)).length := by
  have hend : t.take end_.toNat = t.take start.toNat ++ slice t start end_ := by
    have hsum : end_.toNat = start.toNat + (end_ - start).toNat := by omega
    rw [hsum, List.take_add, slice]
  have htake : t.take k.toNat = t.take end_.toNat ++ (t.drop end_.toNat).take (k - end_).toNat := by
    have hsum : k.toNat = end_.toNat + (k - end_).toNat := by omega
    rw [hsum, List.take_add]
  rw [htake, hend]
  simp only [Coding.encode_append, List.length_append]
  omega

/-- The bytes that `copy_to` reads are those of the part of the source, if that is apart from the
target; else they are those of some letters, where each byte is one. -/
theorem exists_copied {to_ from_ : ℕ} {at_ start end_ : ℤ} {tos froms tos₁ : NaviString}
    {overlap : Prop} [Decidable overlap] (htos : tos.Holds C (T.getD to_ []))
    (hfroms : froms.Holds C (T.getD from_ [])) (hU : U.Implements C letter)
    (hat : 0 ≤ at_) (hstart : 0 ≤ start) (hle : start ≤ end_)
    (hto : at_ + (end_ - start) ≤ (T.getD to_ []).length)
    (hfrom : end_ ≤ (T.getD from_ []).length)
    (hapart : Apart C T to_ at_ from_ start end_ ∨ C.OneByte)
    (hsame : from_ = to_ → froms = tos)
    (hsize' : tos.size + ((C.encode (slice (T.getD from_ []) start end_)).length -
      (C.encode (slice (T.getD to_ []) at_ (at_ + (end_ - start)))).length) < 2 ^ 31)
    (hoverlap : overlap → from_ = to_ ∧
      (C.encode ((T.getD to_ []).take at_.toNat)).length <
        (C.encode ((T.getD from_ []).take start.toNat)).length +
          (C.encode (slice (T.getD from_ []) start end_)).length ∧
      (C.encode ((T.getD from_ []).take start.toNat)).length <
        (C.encode ((T.getD to_ []).take at_.toNat)).length +
          (C.encode (slice (T.getD from_ []) start end_)).length)
    (hshift : tos.shift u to_ (C.encode ((T.getD to_ []).take at_.toNat)).length
      ((C.encode (slice (T.getD from_ []) start end_)).length -
        (C.encode (slice (T.getD to_ []) at_ (at_ + (end_ - start)))).length) = .ok tos₁) :
    ∃ ys : List α, ys.length = (end_ - start).toNat ∧
      (Apart C T to_ at_ from_ start end_ → ys = slice (T.getD from_ []) start end_) ∧
      (C.encode ys).length = (C.encode (slice (T.getD from_ []) start end_)).length ∧
      memcpyBytes u from_ (if from_ = to_ then tos₁ else froms) overlap
        (C.encode ((T.getD from_ []).take start.toNat)).length
        (C.encode (slice (T.getD from_ []) start end_)).length = C.encode ys := by
  obtain ⟨-, hbytes, hsize⟩ := part_spec (u := u) (a := from_) hU hfroms.hasText hstart hle hfrom
  obtain ⟨-, hlen⟩ := eq_splice_slice (t := T.getD from_ []) hstart hle hfrom
  by_cases happly : Apart C T to_ at_ from_ start end_
  · refine ⟨_, hlen, fun _ => rfl, rfl, ?_⟩
    by_cases heq : from_ = to_
    · subst heq
      obtain rfl := hsame rfl
      rw [if_pos rfl]
      rcases happly rfl with hbefore | hnone | ⟨hbehind, hsizes⟩
      · -- the source is before the target, and its bytes are not shifted
        have hprefix := encode_part_le (C := C) (t := T.getD from_ []) hstart hle hbefore
        refine memcpyBytes_eq (fun h => ?_) (hbytes.congr fun j hj => ?_)
        · have := (hoverlap h).2.1
          omega
        · obtain ⟨-, -, -, -, -, hlow, -⟩ := shift_spec (by rw [htos.size]; omega) htos.size_le
            htos.capacity_lt htos.block hsize' hshift
          rw [NaviString.bytes, NaviString.bytes, hlow _ (by omega) (by omega)]
      · subst hnone
        have hempty : slice (T.getD from_ []) start start = [] := by simp [slice]
        rw [hempty]
        rfl
      · rw [hsizes, sub_self] at hshift
        obtain rfl := shift_zero hshift
        refine memcpyBytes_eq (fun h => ?_) hbytes
        have := (hoverlap h).2.2
        have hprefix := encode_part_le (C := C) (t := T.getD from_ []) hat
          (show at_ ≤ at_ + (end_ - start) by omega) hbehind
        omega
    · rw [if_neg heq]
      exact memcpyBytes_eq (fun h => heq (hoverlap h).1) hbytes
  · have hone := hapart.resolve_left happly
    obtain ⟨ys, hys, hyslen⟩ := C.exists_encode_eq (memcpyBytes u from_
      (if from_ = to_ then tos₁ else froms) overlap
      (C.encode ((T.getD from_ []).take start.toNat)).length
      (C.encode (slice (T.getD from_ []) start end_)).length) fun b _ => hone b
    rw [length_memcpyBytes, hone.encode_length, hlen] at hyslen
    refine ⟨ys, hyslen, fun h => absurd h happly, ?_, hys.symm⟩
    rw [hone.encode_length, hone.encode_length, hyslen, hlen]

/-- `copy_to` behind the counting: `m` bytes at `i` give way to `n` bytes from `j` on. -/
def StringHeap.copyMeasured (u : Unknown) (h : StringHeap) (to_ : ℕ) (tos : NaviString)
    (i m : ℕ) (from_ : ℕ) (froms : NaviString) (j n : ℕ) : Except StringStop StringHeap := do
  let tos ← tos.shift u to_ i (n - m)
  let froms := if from_ = to_ then tos else froms
  let overlap := from_ = to_ ∧ i < j + n ∧ j < i + n
  let data ← storeBytes tos.data i (memcpyBytes u from_ froms overlap j n)
  let tos ← NaviString.setSize { tos with data } (tos.size + (n - m))
  return h.put to_ tos

/-- The parts of the texts are counted and measured. -/
theorem copyTo_eq_measured (hU : U.Implements C letter) {to_ from_ : ℕ} {tos froms : NaviString}
    {t f : List α} (hto : h.get to_ = .ok tos) (hfrom : h.get from_ = .ok froms)
    (hts : tos.Holds C t) (hfs : froms.Holds C f) {at_ start end_ : ℤ} (hat : 0 ≤ at_)
    (h0 : 0 ≤ start) (hle : start ≤ end_) (hend : end_ ≤ f.length)
    (hle' : at_ + (end_ - start) ≤ t.length) :
    h.copyTo U u to_ at_ from_ start end_ =
      h.copyMeasured u to_ tos (C.encode (t.take at_.toNat)).length
        (C.encode (slice t at_ (at_ + (end_ - start)))).length from_ froms
        (C.encode (f.take start.toNat)).length (C.encode (slice f start end_)).length := by
  obtain ⟨-, hflen⟩ := eq_splice_slice (t := f) h0 hle hend
  obtain ⟨-, htlen⟩ := eq_splice_slice (t := t) hat (show at_ ≤ at_ + (end_ - start) by omega) hle'
  have hcount : at_ + (end_ - start) - at_ = end_ - start := by omega
  rw [hcount] at htlen
  obtain ⟨htfwd, htat, htsize⟩ := part_spec (u := u) (a := to_) hU hts.hasText hat
    (show at_ ≤ at_ + (end_ - start) by omega) hle'
  obtain ⟨hffwd, hfat, hfsize⟩ := part_spec (u := u) (a := from_) hU hfs.hasText h0 hle hend
  have htlt := hts.length_lt
  have hflt := hfs.length_lt
  have htfit := hts.encode_length_lt
  have hffit := hfs.encode_length_lt
  have htsize' := hts.size
  have hfsize' := hfs.size
  have htmeasure := charsSize_eq hU htat htsize le_rfl (by omega)
  have hfmeasure := charsSize_eq hU hfat hfsize le_rfl (by omega)
  rw [htlen] at htmeasure
  rw [hflen] at hfmeasure
  unfold StringHeap.copyTo
  rw [hto, ok_bind, hfrom, ok_bind]
  dsimp only
  rw [int32_eq_self (n := at_) (by omega) (by omega),
    int32_eq_self (n := start) (by omega) (by omega),
    int32_eq_self (n := end_) (by omega) (by omega), htfwd, hffwd, htmeasure, ok_bind,
    hfmeasure, ok_bind]
  simp only [zero_add, Int.toNat_natCast]
  rfl

/-- `copy_to`, of strings whose texts have the parts. -/
theorem copyTo_spec (hU : U.Implements C letter) (hT : h.Holds C T) {to_ from_ : ℕ}
    {at_ start end_ : ℤ} (hat : 0 ≤ at_) (hstart : 0 ≤ start) (hle : start ≤ end_)
    (hto : at_ + (end_ - start) ≤ (T.getD to_ []).length)
    (hfrom : end_ ≤ (T.getD from_ []).length)
    (hapart : Apart C T to_ at_ from_ start end_ ∨ C.OneByte)
    (hfit : ∀ t, CopyText C T to_ at_ from_ start end_ t → (C.encode t).length < 2 ^ 31)
    (hrun : h.copyTo U u to_ at_ from_ start end_ = .ok h') :
    ∃ t str, CopyText C T to_ at_ from_ start end_ t ∧ h' = h.put to_ str ∧ str.Holds C t := by
  obtain ⟨tos, htos, hfound⟩ := bind_eq_ok hrun
  obtain ⟨froms, hfroms, -⟩ := bind_eq_ok hfound
  obtain ⟨hts, -⟩ := hT.get htos
  obtain ⟨hfs, -⟩ := hT.get hfroms
  have htsize := hts.size
  have hteq := eq_splice_slice (t := T.getD to_ []) hat
    (show at_ ≤ at_ + (end_ - start) by omega) hto
  have hflen := (eq_splice_slice (t := T.getD from_ []) hstart hle hfrom).2
  have hsum : at_ + (end_ - start) - at_ = end_ - start := by omega
  rw [hsum] at hteq
  rw [copyTo_eq_measured hU htos hfroms hts hfs hat hstart hle hfrom hto] at hrun
  obtain ⟨tos₁, hshift, hrun⟩ := bind_eq_ok hrun
  obtain ⟨data, hdata, hrun⟩ := bind_eq_ok hrun
  obtain ⟨tos₂, hset, hrun⟩ := bind_eq_ok hrun
  cases hrun
  have hsame : from_ = to_ → froms = tos := by
    rintro rfl
    rw [htos] at hfroms
    cases hfroms
    rfl
  have hcopy : ∀ ys : List α, ys.length = (end_ - start).toNat →
      (Apart C T to_ at_ from_ start end_ → ys = slice (T.getD from_ []) start end_) →
        CopyText C T to_ at_ from_ start end_ ((T.getD to_ []).take at_.toNat ++ ys ++
          (T.getD to_ []).drop (at_ + (end_ - start)).toNat) := by
    intro ys hlen hys
    refine ⟨ys, hlen, hys, ?_⟩
    rw [splice, hlen]
    congr 2
    omega
  -- the size of the target, as it will be
  have hnew := hfit _ (hcopy _ hflen fun _ => rfl)
  have hold := congrArg (fun t => (C.encode t).length) hteq.1
  simp only [Coding.encode_append, List.length_append] at hnew hold
  obtain ⟨ys, hyslen, hysapart, hyssize, hbytes⟩ := exists_copied hts hfs hU hat hstart hle hto
    hfrom hapart hsame (by omega) (fun h => h) hshift
  rw [hbytes] at hdata
  rw [← hyssize] at hshift hset
  have hcopy := hcopy ys hyslen hysapart
  refine ⟨_, tos₂, hcopy, rfl, ?_⟩
  rw [hteq.1] at hts
  exact hts.splice (by rw [hteq.2, hyslen]) (hfit _ hcopy) hshift hdata hset

/-! ### `string-copy!`, `string-copy` and `string-fill!` -/

theorem NaviString.Holds.sizeT_length (hstr : str.Holds C t) : sizeT str.length = t.length :=
  hstr.hasText.sizeT_length

/-- `string-copy!` -/
theorem stringCopyTo_spec (hU : U.Implements C letter) (hT : h.Holds C T) {to_ from_ : ℕ}
    {at_ start end_ : ℤ} {startArg endArg : Option StringArg}
    (hstart : start = fixnumArg startArg 0)
    (hend : end_ = fixnumArg endArg (C.encode (T.getD from_ [])).length)
    (hapart : Apart C T to_ at_ from_ start end_ ∨ C.OneByte)
    (hfit : ∀ t, CopyText C T to_ at_ from_ start end_ t → (C.encode t).length < 2 ^ 31)
    (hrun : h.stringCopyTo U u to_ at_ from_ startArg endArg = .ok h') :
    ∃ t str, CopyText C T to_ at_ from_ start end_ t ∧ h' = h.put to_ str ∧ str.Holds C t := by
  obtain ⟨tos, htos, hrun⟩ := bind_eq_ok hrun
  obtain ⟨froms, hfroms, hrun⟩ := bind_eq_ok hrun
  obtain ⟨s, hs, hrun⟩ := bind_eq_ok hrun
  obtain ⟨e, he, hrun⟩ := bind_eq_ok hrun
  obtain ⟨⟨⟩, hcheck, hrun⟩ := bind_eq_ok hrun
  obtain ⟨hts, -⟩ := hT.get htos
  obtain ⟨hfs, -⟩ := hT.get hfroms
  obtain rfl : s = start := by rw [fixnumOr_eq_ok hs, hstart]
  obtain rfl : e = end_ := by rw [fixnumOr_eq_ok he, hend, hfs.size]
  rw [hts.sizeT_length, hfs.sizeT_length] at hcheck
  obtain ⟨h0, -, h0', -, hle, hfrom, hto⟩ := naviCheckCopyTo_eq_ok hcheck
  exact copyTo_spec hU hT h0 h0' hle hto hfrom hapart hfit hrun

theorem get_add_self : (h.add str).get h.strings.length = .ok str := by
  simp [StringHeap.get, StringHeap.add]

theorem get_add_of_lt (ha : a < h.strings.length) : (h.add str).get a = h.get a := by
  simp only [StringHeap.get, StringHeap.add, List.getElem?_append_left ha]

theorem put_add {str str' : NaviString} :
    (h.add str).put h.strings.length str' = h.add str' := by
  simp [StringHeap.add, StringHeap.put]

/-- A new string whose memory holds letters of one byte each. -/
theorem exists_holds_fresh {n : ℕ} (hn : n < 2 ^ 31)
    (hfresh : ∀ j < n, ∃ a, C.word a = [u.fresh j]) (hmake : naviMakeString u n n n = .ok str) :
    ∃ ws, ws.length = n ∧ str.Holds C ws := by
  obtain ⟨hsize, hlength, hcap, hblock, hterm, hbytes⟩ := naviMakeString_spec le_rfl hn hn hmake
  obtain ⟨ws, hws, hwslen⟩ := C.exists_encode_eq ((List.range n).map u.fresh) fun b hb => by
    obtain ⟨j, hj, rfl⟩ := List.mem_map.1 hb
    exact hfresh j (List.mem_range.1 hj)
  have hwssize : (C.encode ws).length = n := by rw [hws]; simp
  have hwslen : ws.length = n := by rw [hwslen]; simp
  refine ⟨ws, hwslen, by rw [hsize, hwssize], by rw [hlength, hwslen], by omega, by omega,
    by omega, fun j hj => ?_, by rw [hwssize]; exact hterm⟩
  rw [hbytes j (by omega), hws, List.getElem?_map, List.getElem?_range (by omega)]
  rfl

/-- `string-copy`, when each byte of the memory that the copy is made in is a letter. -/
theorem stringCopy_spec (hU : U.Implements C letter) (hT : h.Holds C T) {from_ : ℕ}
    {start end_ : ℤ} {startArg endArg : Option StringArg}
    (hstart : start = fixnumArg startArg 0)
    (hend : end_ = fixnumArg endArg (C.encode (T.getD from_ [])).length)
    (hfresh : ∀ j < (end_ - start).toNat, ∃ a, C.word a = [u.fresh j])
    (hfit : (C.encode (slice (T.getD from_ []) start end_)).length < 2 ^ 31)
    (hrun : h.stringCopy U u from_ startArg endArg = .ok h') :
    ∃ str, h' = h.add str ∧ str.Holds C (slice (T.getD from_ []) start end_) := by
  have h64 : (2 : ℕ) ^ 31 < 2 ^ 64 := by decide
  obtain ⟨froms, hfroms, hrun⟩ := bind_eq_ok hrun
  obtain ⟨s, hs, hrun⟩ := bind_eq_ok hrun
  obtain ⟨e, he, hrun⟩ := bind_eq_ok hrun
  obtain ⟨⟨⟩, hcheck, hrun⟩ := bind_eq_ok hrun
  obtain ⟨hfs, hfromlt⟩ := hT.get hfroms
  obtain rfl : s = start := by rw [fixnumOr_eq_ok hs, hstart]
  obtain rfl : e = end_ := by rw [fixnumOr_eq_ok he, hend, hfs.size]
  rw [hfs.sizeT_length] at hcheck
  obtain ⟨-, -, h0, -, hle, hfrom, -⟩ := naviCheckCopyTo_eq_ok hcheck
  have hflt := hfs.length_lt
  obtain ⟨n, hn⟩ : ∃ n : ℕ, e - s = n := ⟨(e - s).toNat, by omega⟩
  rw [hn, Int.toNat_natCast] at hfresh
  dsimp only at hrun
  rw [hn, sizeT_natCast (by omega)] at hrun
  obtain ⟨str, hmake, hrun⟩ := bind_eq_ok hrun
  obtain ⟨ws, hwslen, hstr⟩ := exists_holds_fresh (by omega) hfresh hmake
  have hlen : T.length = h.strings.length := hT.length_eq.symm
  have hto : (T ++ [ws]).getD h.strings.length [] = ws := by
    rw [← hlen, List.getD_append_right _ _ _ _ le_rfl]
    simp
  have hfrom' : (T ++ [ws]).getD from_ [] = T.getD from_ [] :=
    List.getD_append _ _ _ _ (by omega)
  have hcopy : ∀ t, CopyText C (T ++ [ws]) h.strings.length 0 from_ s e t →
      t = slice (T.getD from_ []) s e := by
    rintro t ⟨ys, hys, hslice, rfl⟩
    rw [hfrom'] at hslice
    rw [hto, splice, ← hslice (fun heq => absurd heq (by omega))]
    simp [hys, hn, hwslen]
  obtain ⟨t, str', ht, rfl, hholds⟩ := copyTo_spec hU (hT.add hstr) le_rfl h0 hle
    (by rw [hto, hwslen]; omega) (by rw [hfrom']; exact hfrom)
    (Or.inl fun heq => absurd heq (by omega)) (fun t ht => hcopy t ht ▸ hfit) hrun
  refine ⟨str', put_add, ?_⟩
  rw [← hcopy t ht]
  exact hholds

/-- `n` times `u8_length` is the size of a letter that is written `n` times. -/
theorem u8Length_mul (hU : U.Implements C letter) {ch : UInt32} {n : ℤ} (hn : 0 ≤ n) {as : List α}
    (has : (List.replicate n.toNat ch).map letter = as.map some) :
    U.u8Length ch * n = (C.encode as).length := by
  have hsum := u8Length_sum hU (List.replicate n.toNat ch)
  rw [filterMap_eq_of_map has, List.map_replicate, List.sum_replicate, nsmul_eq_mul] at hsum
  rw [← hsum, mul_comm, Int.toNat_of_nonneg hn]

/-- What `string-fill!` makes of a text. -/
def fillText (letter : UInt32 → Option α) (t : List α) (ch : UInt32) (start end_ : ℤ) : List α :=
  splice t start ((List.replicate (end_ - start).toNat ch).filterMap letter)

/-- `string-fill!` -/
theorem stringFill_spec (hU : U.Implements C letter) (hT : h.Holds C T) {ch : UInt32}
    {start end_ : ℤ} {startArg endArg : Option StringArg}
    (hstart : start = int32 (fixnumArg startArg 0))
    (hend : end_ = int32 (fixnumArg endArg (C.encode (T.getD a [])).length))
    (hfit : (C.encode (fillText letter (T.getD a []) ch start end_)).length < 2 ^ 31)
    (hrun : h.stringFill U u a ch startArg endArg = .ok h') :
    ∃ str, h' = h.put a str ∧ str.Holds C (fillText letter (T.getD a []) ch start end_) := by
  obtain ⟨str, hstr, hrun⟩ := bind_eq_ok hrun
  obtain ⟨s, hs, hrun⟩ := bind_eq_ok hrun
  obtain ⟨e, he, hrun⟩ := bind_eq_ok hrun
  obtain ⟨⟨⟩, hcheck, hrun⟩ := bind_eq_ok hrun
  obtain ⟨hholds, -⟩ := hT.get hstr
  obtain rfl : int32 s = start := by rw [fixnumOr_eq_ok hs, hstart]
  obtain rfl : int32 e = end_ := by rw [fixnumOr_eq_ok he, hend, hholds.size]
  generalize T.getD a [] = t at hfit hholds ⊢
  generalize int32 s = start at hcheck hrun hfit ⊢
  generalize int32 e = end_ at hcheck hrun hfit ⊢
  rw [hholds.sizeT_length] at hcheck
  obtain ⟨-, -, h0, -, hle, hend', -⟩ := naviCheckCopyTo_eq_ok hcheck
  obtain ⟨hi, hat, hsize⟩ := part_spec (u := u) (a := a) hU hholds.hasText h0 hle hend'
  obtain ⟨hteq, htlen⟩ := eq_splice_slice h0 hle hend'
  dsimp only at hrun
  rw [hi] at hrun
  have hskip := skipChars_eq hU hat hsize
  rw [htlen] at hskip
  rw [hskip, ok_bind] at hrun
  obtain ⟨str₁, hshift, hrun⟩ := bind_eq_ok hrun
  obtain ⟨⟨data, i⟩, hdata, hrun⟩ := bind_eq_ok hrun
  obtain ⟨str₂, hset, hrun⟩ := bind_eq_ok hrun
  cases hrun
  obtain ⟨as, has, hstore, -⟩ := appendChars_spec hU hdata
  -- the letters that have been written, and their size
  have hletters := filterMap_eq_of_map has
  have haslen : as.length = (end_ - start).toNat := by
    simpa using (congrArg List.length has).symm
  have htext : fillText letter t ch start end_ =
      t.take start.toNat ++ as ++ t.drop end_.toNat := by
    rw [fillText, hletters, splice, haslen]
    congr 2
    omega
  rw [htext] at hfit ⊢
  have hnew := u8Length_mul hU (sub_nonneg.mpr hle) has
  have hfit' := hfit
  simp only [Coding.encode_append, List.length_append] at hfit'
  rw [hnew, int32_eq_self (by omega) (by omega)] at hshift hset
  have hdiff : (((C.encode (t.take start.toNat)).length + (C.encode (slice t start end_)).length :
      ℕ) : ℤ) - ((C.encode (t.take start.toNat)).length : ℕ) =
        ((C.encode (slice t start end_)).length : ℕ) := by
    push_cast
    omega
  rw [hdiff] at hshift hset
  refine ⟨str₂, rfl, ?_⟩
  rw [hteq] at hholds
  exact hholds.splice (by rw [htlen, haslen]) hfit hshift hstore hset

end NaviScheme
