import NaviScheme.Lib.Coding

/-!
# The macros of `unicode.h`

The string functions reach the bytes of a string through a handful of macros, which `unicode.h`
defines twice: over the macros of ICU, with assertions (`Unicode.icu`; ICU is a parameter,
`U8Macros`, and what its documentation says of it is `U8Macros.Standard`), and for a build
without ICU, with one byte for a character (`Unicode.ascii`). What the string functions rely on
is the same in both (`Unicode.Implements`), up to the coding.
-/

namespace NaviScheme

/-- The macros of `unicode/utf8.h` that are used. Characters go in as `uint32_t`, to which the
macros cast them. -/
structure U8Macros where
  /-- `U8_LENGTH(c)` -/
  length : UInt32 → ℤ
  /-- `U8_FWD_N_UNSAFE(s, i, n)`: the new `i`. -/
  fwdN : (ℕ → UInt8) → ℕ → ℕ → ℕ
  /-- `U8_GET(s, start, i, length, c)`: the value of `c`. -/
  get : (ℕ → UInt8) → ℕ → ℕ → ℤ → ℤ
  /-- `U8_NEXT(s, i, length, c)`: the value of `c` and the new `i`. -/
  next : (ℕ → UInt8) → ℕ → ℤ → ℤ × ℕ
  /-- `U8_APPEND(s, i, capacity, c, isError)`: the bytes that it writes from `i` on, if it does
  not set `isError`. -/
  append : ℕ → ℤ → UInt32 → Option (List UInt8)

/-- `unicode.h` -/
structure Unicode where
  u8Length : UInt32 → ℤ
  u8FwdN : (ℕ → UInt8) → ℕ → ℕ → ℕ
  /-- `none` where the assertion fails. -/
  u8Get : (ℕ → UInt8) → ℕ → ℕ → ℤ → Option UInt32
  /-- `none` stands for a negative `c`. -/
  u8NextUnchecked : (ℕ → UInt8) → ℕ → ℤ → Option UInt32 × ℕ
  /-- `none` where the assertion fails. -/
  u8Append : ℕ → ℤ → UInt32 → Option (List UInt8)

/-- `u8_next`, which asserts `c >= 0`. (Without ICU it is `u8_next_unchecked`, whose `c` is a
byte.) -/
def Unicode.u8Next (U : Unicode) (s : ℕ → UInt8) (i : ℕ) (length : ℤ) : Option (UInt32 × ℕ) :=
  (U.u8NextUnchecked s i length).1.map (·, (U.u8NextUnchecked s i length).2)

/-- A value that the macros read, unless it is negative. -/
def codePoint (c : ℤ) : Option UInt32 := if c < 0 then none else some (UInt32.ofInt c)

/-- `#ifdef HAVE_ICU`, in a build with assertions. -/
def Unicode.icu (M : U8Macros) : Unicode where
  u8Length := M.length
  u8FwdN := M.fwdN
  u8Get s start i length := codePoint (M.get s start i length)
  u8NextUnchecked s i length := ((codePoint (M.next s i length).1), (M.next s i length).2)
  u8Append := M.append

/-- The build without ICU. -/
def Unicode.ascii : Unicode where
  u8Length _ := 1
  u8FwdN _ i n := i + n
  u8Get s start i _ := some (s (start + i)).toUInt32
  u8NextUnchecked s i _ := (some (s i).toUInt32, i + 1)
  u8Append _ _ c := some [c.toUInt8]

/-! ### What the macros do -/

/-- The code point of a character object, if it is a Unicode scalar value. -/
def scalar? (c : UInt32) : Option Char := if h : c.isValidChar then some ⟨c, h⟩ else none

/-- What ICU documents: the macros read and write UTF-8. Nothing is said of `U8_NEXT` at or
behind the end of the string, of `U8_GET` inside of a character and of `U8_FWD_N_UNSAFE` on
text that is not well formed. -/
structure U8Macros.Standard (M : U8Macros) : Prop where
  length_scalar : ∀ c : Char, M.length c.val = (Coding.utf8.word c).length
  length_other : ∀ c, scalar? c = none → M.length c = 0
  fwdN : ∀ s i cs, BytesAt s i (Coding.utf8.encode cs) →
    M.fwdN s i cs.length = i + (Coding.utf8.encode cs).length
  get : ∀ s i length c, BytesAt s i (Coding.utf8.word c) →
    ((i + (Coding.utf8.word c).length : ℕ) : ℤ) ≤ length → M.get s 0 i length = c.toNat
  next : ∀ s i length c, BytesAt s i (Coding.utf8.word c) →
    ((i + (Coding.utf8.word c).length : ℕ) : ℤ) ≤ length →
      M.next s i length = ((c.toNat : ℤ), i + (Coding.utf8.word c).length)
  next_illFormed : ∀ s (i : ℕ) (length : ℤ), i < length →
    (∀ c, BytesAt s i (Coding.utf8.word c) →
      length < (i + (Coding.utf8.word c).length : ℕ)) → (M.next s i length).1 < 0
  append : ∀ (i : ℕ) (capacity : ℤ) (c : Char),
    ((i + (Coding.utf8.word c).length : ℕ) : ℤ) ≤ capacity →
      M.append i capacity c.val = some (Coding.utf8.word c)
  append_full : ∀ i capacity (c : Char) bs, M.append i capacity c.val = some bs →
    bs = Coding.utf8.word c
  append_other : ∀ i capacity c, scalar? c = none → M.append i capacity c = none

/-- What the string functions rely on. A character object that is a letter of the coding is
written as the word of the letter and read back from it, and no other one is written. -/
structure Unicode.Implements {α : Type} (U : Unicode) (C : Coding α)
    (letter : UInt32 → Option α) : Prop where
  length_letter : ∀ {c a}, letter c = some a → U.u8Length c = (C.word a).length
  length_other : ∀ {c}, letter c = none → U.u8Length c = 0
  fwdN : ∀ {s i as}, BytesAt s i (C.encode as) →
    U.u8FwdN s i as.length = i + (C.encode as).length
  get : ∀ {s i a} (length : ℤ), BytesAt s i (C.word a) →
    ((i + (C.word a).length : ℕ) : ℤ) ≤ length →
      ∃ c, U.u8Get s 0 i length = some c ∧ letter c = some a
  next : ∀ {s i a} (length : ℤ), BytesAt s i (C.word a) →
    ((i + (C.word a).length : ℕ) : ℤ) ≤ length →
      ∃ c, U.u8NextUnchecked s i length = (some c, i + (C.word a).length) ∧ letter c = some a
  of_next : ∀ {s} {i : ℕ} {length c i'}, (i : ℤ) < length →
    U.u8NextUnchecked s i length = (some c, i') →
      ∃ a, letter c = some a ∧ BytesAt s i (C.word a) ∧ i' = i + (C.word a).length ∧
        (i' : ℤ) ≤ length
  append : ∀ {i capacity c a}, letter c = some a →
    ((i + (C.word a).length : ℕ) : ℤ) ≤ capacity → U.u8Append i capacity c = some (C.word a)
  of_append : ∀ {i capacity c bs}, U.u8Append i capacity c = some bs →
    ∃ a, letter c = some a ∧ bs = C.word a

theorem scalar?_val (c : Char) : scalar? c.val = some c := dif_pos c.valid

theorem scalar?_eq_some {c : UInt32} {a : Char} (h : scalar? c = some a) : c = a.val := by
  unfold scalar? at h
  split at h
  · cases h
    rfl
  · cases h

theorem codePoint_toNat (c : Char) : codePoint c.toNat = some c.val := by
  have hnonneg : ¬ (c.toNat : ℤ) < 0 := by omega
  have hval : UInt32.ofInt (c.toNat : ℤ) = c.val := by
    apply UInt32.toNat_inj.1
    have : c.val.toNat < 2 ^ 32 := c.val.toNat_lt
    simp only [UInt32.ofInt, UInt32.toNat_ofNat']
    change ((c.val.toNat : ℤ) % 2 ^ 32).toNat % 2 ^ 32 = c.val.toNat
    omega
  rw [codePoint, if_neg hnonneg, hval]

theorem U8Macros.Standard.implements {M : U8Macros} (hM : M.Standard) :
    (Unicode.icu M).Implements Coding.utf8 scalar? where
  length_letter h := scalar?_eq_some h ▸ hM.length_scalar _
  length_other h := hM.length_other _ h
  fwdN h := hM.fwdN _ _ _ h
  get {s i a} length h hle := by
    refine ⟨a.val, ?_, scalar?_val a⟩
    change codePoint (M.get s 0 i length) = _
    rw [hM.get s i length a h hle, codePoint_toNat]
  next {s i a} length h hle := by
    refine ⟨a.val, ?_, scalar?_val a⟩
    change (codePoint (M.next s i length).1, (M.next s i length).2) = _
    rw [hM.next s i length a h hle, codePoint_toNat]
  of_next {s i length c i'} hi h := by
    have hnext : codePoint (M.next s i length).1 = some c ∧ (M.next s i length).2 = i' :=
      Prod.mk.inj h
    by_cases hill : ∀ a, BytesAt s i (Coding.utf8.word a) →
        length < (i + (Coding.utf8.word a).length : ℕ)
    · rw [codePoint, if_pos (hM.next_illFormed s i length hi hill)] at hnext
      cases hnext.1
    · push Not at hill
      obtain ⟨a, hat, hle⟩ := hill
      rw [hM.next s i length a hat hle, codePoint_toNat] at hnext
      obtain ⟨hc, rfl⟩ := hnext
      cases hc
      exact ⟨a, scalar?_val a, hat, rfl, hle⟩
  append h hle := scalar?_eq_some h ▸ hM.append _ _ _ hle
  of_append {i capacity c bs} h := by
    cases hc : scalar? c with
    | none =>
      change M.append i capacity c = some bs at h
      rw [hM.append_other i capacity c hc] at h
      cases h
    | some a =>
      rw [scalar?_eq_some hc] at h
      exact ⟨a, rfl, hM.append_full _ _ _ _ h⟩

theorem Unicode.ascii_implements :
    Unicode.ascii.Implements Coding.bytes fun c => some c.toUInt8 where
  length_letter _ := rfl
  length_other h := nomatch h
  fwdN {s i as} _ := by rw [Coding.encode_bytes]; rfl
  get {s i a} _ h _ := by
    refine ⟨a.toUInt32, ?_, by simp⟩
    change some (s (0 + i)).toUInt32 = _
    rw [Nat.zero_add, BytesAt.singleton.1 h]
  next {s i a} _ h _ := by
    refine ⟨a.toUInt32, ?_, by simp⟩
    change (some (s i).toUInt32, i + 1) = _
    rw [BytesAt.singleton.1 h]
    rfl
  of_next {s i length c i'} hi h := by
    obtain ⟨hc, rfl⟩ : some (s i).toUInt32 = some c ∧ i + 1 = i' := Prod.mk.inj h
    cases hc
    refine ⟨s i, by simp, BytesAt.singleton.2 rfl, rfl, ?_⟩
    push_cast
    omega
  append h _ := congrArg (fun b => some [b]) (Option.some.inj h)
  of_append {i capacity c bs} h := ⟨c.toUInt8, rfl, (Option.some.inj h).symm⟩

/-! ### Macros that do what ICU documents -/

/-- The code point that is encoded at `i`, within `n` bytes. -/
def decodeAt (s : ℕ → UInt8) (i n : ℕ) : Option Char :=
  (Utf8.next? ((List.range n).map fun j => s (i + j))).map Prod.fst

theorem decodeAt_eq_some {s : ℕ → UInt8} {i n : ℕ} {c : Char} :
    decodeAt s i n = some c ↔
      BytesAt s i (Coding.utf8.word c) ∧ (Coding.utf8.word c).length ≤ n := by
  have hmap : decodeAt s i n = some c ↔
      ∃ ds, (List.range n).map (fun j => s (i + j)) = Coding.utf8.word c ++ ds := by
    simp only [decodeAt, Option.map_eq_some_iff, Prod.exists, Utf8.next?_eq_some_iff]
    constructor
    · rintro ⟨_, ds, h, rfl⟩
      exact ⟨ds, h⟩
    · rintro ⟨ds, h⟩
      exact ⟨c, ds, h, rfl⟩
  rw [hmap]
  constructor
  · rintro ⟨ds, h⟩
    have hlen : n = (Coding.utf8.word c).length + ds.length := by
      simpa using congrArg List.length h
    refine ⟨fun j hj => ?_, by omega⟩
    have := congrArg (fun l => l[j]?) h
    simp only [List.getElem?_append_left hj, List.getElem?_map,
      List.getElem?_range (show j < n by omega), List.getElem?_eq_getElem hj] at this
    exact Option.some.inj this
  · rintro ⟨hat, hle⟩
    refine ⟨((List.range n).map fun j => s (i + j)).drop (Coding.utf8.word c).length, ?_⟩
    conv_lhs => rw [← List.take_append_drop (Coding.utf8.word c).length
      ((List.range n).map fun j => s (i + j))]
    congr 1
    refine List.ext_getElem (by simp [hle]) fun j hj hj' => ?_
    simp [hat j hj']

/-- The macros, by the UTF-8 of the core library. -/
def utf8Macros : U8Macros where
  length c := (scalar? c).elim 0 fun a => (Coding.utf8.word a).length
  fwdN s i n := (fun i => i + (decodeAt s i 4).elim 1 fun a => (Coding.utf8.word a).length)^[n] i
  get s _ i length := (decodeAt s i (length - i).toNat).elim (-1) fun a => a.toNat
  next s i length :=
    (decodeAt s i (length - i).toNat).elim (-1, i + 1) fun a =>
      (a.toNat, i + (Coding.utf8.word a).length)
  append i capacity c := (scalar? c).bind fun a =>
    if ((i + (Coding.utf8.word a).length : ℕ) : ℤ) ≤ capacity then some (Coding.utf8.word a)
    else none

theorem utf8Macros_standard : utf8Macros.Standard where
  length_scalar c := by simp [utf8Macros, scalar?_val]
  length_other c h := by simp [utf8Macros, h]
  fwdN s i cs h := by
    induction cs generalizing i with
    | nil => rfl
    | cons c cs ih =>
      rw [Coding.encode_cons, BytesAt.append] at h
      have hle : (Coding.utf8.word c).length ≤ 4 :=
        (String.length_utf8EncodeChar c).trans_le c.utf8Size_le_four
      have hstep : decodeAt s i 4 = some c := decodeAt_eq_some.2 ⟨h.1, hle⟩
      have := ih _ h.2
      simp only [utf8Macros, List.length_cons, Function.iterate_succ_apply, hstep,
        Option.elim_some, Coding.encode_cons, List.length_append] at this ⊢
      rw [this, Nat.add_assoc]
  get s i length c h hle := by
    have hstep : decodeAt s i (length - i).toNat = some c :=
      decodeAt_eq_some.2 ⟨h, by omega⟩
    simp only [utf8Macros]
    rw [hstep, Option.elim_some]
  next s i length c h hle := by
    have hstep : decodeAt s i (length - i).toNat = some c :=
      decodeAt_eq_some.2 ⟨h, by omega⟩
    simp only [utf8Macros]
    rw [hstep, Option.elim_some]
  next_illFormed s i length hi h := by
    have hstep : decodeAt s i (length - i).toNat = none := by
      rw [Option.eq_none_iff_forall_ne_some]
      intro c hc
      obtain ⟨hat, hle⟩ := decodeAt_eq_some.1 hc
      have := h c hat
      omega
    simp only [utf8Macros]
    rw [hstep, Option.elim_none]
    exact (by decide : (-1 : ℤ) < 0)
  append i capacity c h := by
    simp only [utf8Macros]
    rw [scalar?_val, Option.bind_some, if_pos h]
  append_full i capacity c bs h := by
    simp only [utf8Macros, scalar?_val, Option.bind_some] at h
    split at h
    · exact (Option.some.inj h).symm
    · cases h
  append_other i capacity c h := by simp [utf8Macros, h]

end NaviScheme
