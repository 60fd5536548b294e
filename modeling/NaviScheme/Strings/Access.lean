import NaviScheme.Strings.Run

/-!
# Reading the characters of a string

`string->list` and `string->vector` decode a string from its beginning to its end, so that they
give the characters of its text (`nextChars_ok`, `vectorChars_ok`). `string-ref` does not count
characters: it decodes the one that the *byte* `k` belongs to (`stringRef_eq`). The three agree at
`k` exactly when that one is equal to the character number `k` (`refAgrees_iff`).

Two more facts about ICU are needed for this, of macros that accept or step over a single
character (`U8Access`).
-/

namespace NaviScheme

/-! ### The macros of ICU -/

/-- The macros of `unicode/utf8.h` that are used, all of them. -/
structure U8Access extends U8Macros where
  /-- `U8_FWD_1_UNSAFE(s, i)`: the new `i`. -/
  fwd1 : (ℕ → UInt8) → ℕ → ℕ

/-- What ICU documents: the offset that `U8_GET` is given may be inside of a character, and
`U8_FWD_1_UNSAFE` goes over a character. -/
structure U8Access.Standard (M : U8Access) : Prop extends U8Macros.Standard M.toU8Macros where
  get_inside : ∀ s i j length c, BytesAt s i (Coding.utf8.word c) →
    j < (Coding.utf8.word c).length → ((i + (Coding.utf8.word c).length : ℕ) : ℤ) ≤ length →
      M.get s 0 (i + j) length = c.toNat
  fwd1 : ∀ s i c, BytesAt s i (Coding.utf8.word c) →
    M.fwd1 s i = i + (Coding.utf8.word c).length

/-- `U8_SET_CP_START`, which goes back by `n` bytes at most. -/
def leadBefore (s : ℕ → UInt8) (i : ℕ) : ℕ → ℕ
  | 0 => i
  | n + 1 => if Utf8.Continues (s i) ∧ 0 < i then leadBefore s (i - 1) n else i

/-- The beginning of the character is found. -/
theorem leadBefore_eq {s : ℕ → UInt8} {c : Char} {i j n : ℕ}
    (hat : BytesAt s i (Coding.utf8.word c)) (hj : j < (Coding.utf8.word c).length)
    (hn : j ≤ n) : leadBefore s (i + j) n = i := by
  induction n generalizing j with
  | zero =>
    obtain rfl : j = 0 := by omega
    rfl
  | succ n ih =>
    have hlead : Utf8.Continues (s (i + j)) ↔ j ≠ 0 := by
      rw [hat j hj]
      exact Utf8.continues_iff hj
    rw [leadBefore]
    rcases j with _ | j
    · rw [if_neg fun h => hlead.mp h.1 rfl]
      rfl
    · rw [if_pos ⟨hlead.mpr (Nat.succ_ne_zero j), by omega⟩]
      exact ih (by omega) (by omega)

/-- The macros, by the UTF-8 of the core library. -/
def utf8Access : U8Access where
  toU8Macros := { utf8Macros with
    get s _ i length := utf8Macros.get s 0 (leadBefore s i 3) length }
  fwd1 s i := utf8Macros.fwdN s i 1

theorem utf8Access_standard : utf8Access.Standard := by
  have hinside : ∀ s i j length c, BytesAt s i (Coding.utf8.word c) →
      j < (Coding.utf8.word c).length → ((i + (Coding.utf8.word c).length : ℕ) : ℤ) ≤ length →
        utf8Access.get s 0 (i + j) length = c.toNat := by
    intro s i j length c hat hj hle
    have hfour : (Coding.utf8.word c).length ≤ 4 :=
      (String.length_utf8EncodeChar c).trans_le c.utf8Size_le_four
    change utf8Macros.get s 0 (leadBefore s (i + j) 3) length = _
    rw [leadBefore_eq hat hj (by omega)]
    exact utf8Macros_standard.get s i length c hat hle
  have hget : ∀ s i length c, BytesAt s i (Coding.utf8.word c) →
      ((i + (Coding.utf8.word c).length : ℕ) : ℤ) ≤ length →
        utf8Access.get s 0 i length = c.toNat := fun s i length c hat hle =>
    hinside s i 0 length c hat (Coding.utf8.word_length_pos c) hle
  refine { utf8Macros_standard with get := hget, get_inside := hinside, fwd1 := ?_ }
  intro s i c hat
  have hone := utf8Macros_standard.fwdN s i [c] (by simpa using hat)
  change utf8Macros.fwdN s i 1 = _
  simpa using hone

/-! ### Strings that are read -/

/-- The characters that are read: for the letter `a` it is `char a`. -/
structure Unicode.Reads {α : Type} (U : Unicode) (C : Coding α) (char : α → UInt32) : Prop where
  next : ∀ {s i a} (length : ℤ), BytesAt s i (C.word a) →
    ((i + (C.word a).length : ℕ) : ℤ) ≤ length →
      U.u8NextUnchecked s i length = (some (char a), i + (C.word a).length)

theorem U8Macros.Standard.reads {M : U8Macros} (hM : M.Standard) :
    (Unicode.icu M).Reads Coding.utf8 Char.val where
  next {s i a} length h hle := by
    change (codePoint (M.next s i length).1, (M.next s i length).2) = _
    rw [hM.next s i length a h hle, codePoint_toNat]

theorem Unicode.ascii_reads : Unicode.ascii.Reads Coding.bytes UInt8.toUInt32 where
  next {s i a} _ h _ := by
    change (some (s i).toUInt32, i + 1) = _
    rw [BytesAt.singleton.mp h]
    rfl

/-- The characters that are accessed: whatever byte of the letter `a` the offset is at, it is
`char a`. -/
structure Unicode.Gets {α : Type} (U : Unicode) (C : Coding α) (char : α → UInt32) : Prop where
  get : ∀ {s i j a} (length : ℤ), BytesAt s i (C.word a) → j < (C.word a).length →
    ((i + (C.word a).length : ℕ) : ℤ) ≤ length → U.u8Get s 0 (i + j) length = some (char a)

theorem U8Access.Standard.gets {M : U8Access} (hM : M.Standard) :
    (Unicode.icu M.toU8Macros).Gets Coding.utf8 Char.val where
  get {s i j a} length h hj hle := by
    change codePoint (M.get s 0 (i + j) length) = _
    rw [hM.get_inside s i j length a h hj hle, codePoint_toNat]

theorem Unicode.ascii_gets : Unicode.ascii.Gets Coding.bytes UInt8.toUInt32 where
  get {s i j a} _ h hj _ := by
    obtain rfl : j = 0 := Nat.lt_one_iff.mp hj
    change some (s (0 + (i + 0))).toUInt32 = _
    rw [Nat.zero_add, Nat.add_zero, BytesAt.singleton.mp h]

section

variable (U : Unicode) (u : Unknown)

/-- `for (i = 0; i < size;) u8_next(data, i, size, ch)`, with the characters that are read; the
loop goes round at most `size` times, because each round goes on by a byte. -/
def nextChars (s : ℕ → UInt8) (size : ℤ) (i : ℕ) : ℕ → Except StringStop (List UInt32)
  | 0 => .ok []
  | fuel + 1 =>
    if i < size then do
      let (ch, i) ← assertSome (U.u8Next s i size)
      let chs ← nextChars s size i fuel
      return ch :: chs
    else
      .ok []

/-- The loop of `string_to_vector`, with the assertions `vi < vec->size` and, behind the loop,
`vi == vec->size`. -/
def vectorChars (s : ℕ → UInt8) (size : ℤ) (n si vi : ℕ) : ℕ → Except StringStop (List UInt32)
  | 0 => if vi = n then .ok [] else .error .abort
  | fuel + 1 =>
    if si < size then
      if vi < n then do
        let (ch, si) ← assertSome (U.u8Next s si size)
        let chs ← vectorChars s size n si (vi + 1) fuel
        return ch :: chs
      else
        .error .abort
    else if vi = n then
      .ok []
    else
      .error .abort

/-- `string_to_list` -/
def stringToList (a : ℕ) (str : NaviString) : Except StringStop (List UInt32) :=
  nextChars U (str.bytes u a) str.size 0 str.size.toNat

/-- `string_to_vector` -/
def stringToVector (a : ℕ) (str : NaviString) : Except StringStop (List UInt32) :=
  vectorChars U (str.bytes u a) str.size (sizeT str.length) 0 0 str.size.toNat

/-- `navi_type_check_range`, of a fixnum. -/
def naviTypeCheckRange (n min max : ℤ) : Except StringStop ℤ :=
  if n < min ∨ n ≥ max then .error (.raise "argument not in allowed range") else .ok n

/-- `string_ref` -/
def stringRef (a : ℕ) (str : NaviString) (k : ℤ) : Except StringStop UInt32 := do
  let k ← naviTypeCheckRange k 0 str.length
  assertSome (U.u8Get (str.bytes u a) 0 k.toNat str.size)

/-- **`string-ref` agrees** with `string->list` and `string->vector` at `k`. -/
def RefAgrees (a : ℕ) (str : NaviString) (k : ℕ) : Prop :=
  ∃ ch list vec, stringRef U u a str k = .ok ch ∧ stringToList U u a str = .ok list ∧
    stringToVector U u a str = .ok vec ∧ list[k]? = some ch ∧ vec[k]? = some ch

end

section

variable {α : Type} {C : Coding α} {U : Unicode} {u : Unknown} {char : α → UInt32} {a : ℕ}
  {str : NaviString} {as : List α}

/-- A well-formed string has a text. -/
theorem NaviString.WellFormed.exists_hasText (h : str.WellFormed) (hlt : str.size < 2 ^ 31) :
    ∃ cs, str.HasText Coding.utf8 cs := by
  obtain ⟨hsized, cs, htake, hlength⟩ := h
  change _ = Coding.utf8.encode cs at htake
  have hterm := (List.getElem?_eq_some_iff.mp hsized.terminated).1
  have hlen := congrArg List.length htake
  rw [List.length_take, min_eq_left hterm.le] at hlen
  have hnonneg := hsized.nonneg
  refine ⟨cs, by omega, hlength, hlt, fun j hj => ?_⟩
  rw [← htake, List.getElem?_take_of_lt (by omega)]

/-! ### The loops -/

theorem Unicode.Reads.u8Next (hU : U.Reads C char) {s : ℕ → UInt8} {i : ℕ} {b : α} {length : ℤ}
    (h : BytesAt s i (C.word b)) (hle : ((i + (C.word b).length : ℕ) : ℤ) ≤ length) :
    U.u8Next s i length = some (char b, i + (C.word b).length) := by
  rw [Unicode.u8Next, hU.next length h hle]
  rfl

theorem nextChars_ok (hU : U.Reads C char) {s : ℕ → UInt8} {size : ℤ} {i fuel : ℕ}
    (hat : BytesAt s i (C.encode as)) (hsize : size = (i + (C.encode as).length : ℕ))
    (hfuel : as.length ≤ fuel) : nextChars U s size i fuel = .ok (as.map char) := by
  induction as generalizing i fuel with
  | nil =>
    rw [Coding.encode_nil, List.length_nil, Nat.add_zero] at hsize
    cases fuel with
    | zero => rfl
    | succ fuel => rw [nextChars, if_neg (by omega), List.map_nil]
  | cons b as ih =>
    rw [Coding.encode_cons, BytesAt.append] at hat
    rw [Coding.encode_cons, List.length_append] at hsize
    have hpos := C.word_length_pos b
    obtain ⟨fuel, rfl⟩ : ∃ n, fuel = n + 1 := ⟨fuel - 1, by rw [List.length_cons] at hfuel; omega⟩
    rw [nextChars, if_pos (by omega), hU.u8Next hat.1 (by omega)]
    simp only [assertSome, ok_bind]
    rw [ih hat.2 (by omega) (Nat.le_of_succ_le_succ hfuel), ok_bind]
    rfl

theorem vectorChars_ok (hU : U.Reads C char) {s : ℕ → UInt8} {size : ℤ} {n si vi fuel : ℕ}
    (hat : BytesAt s si (C.encode as)) (hsize : size = (si + (C.encode as).length : ℕ))
    (hn : n = vi + as.length) (hfuel : as.length ≤ fuel) :
    vectorChars U s size n si vi fuel = .ok (as.map char) := by
  induction as generalizing si vi fuel with
  | nil =>
    rw [Coding.encode_nil, List.length_nil, Nat.add_zero] at hsize
    have hvi : vi = n := hn.symm
    cases fuel with
    | zero => rw [vectorChars, if_pos hvi, List.map_nil]
    | succ fuel => rw [vectorChars, if_neg (by omega), if_pos hvi, List.map_nil]
  | cons b as ih =>
    rw [Coding.encode_cons, BytesAt.append] at hat
    rw [Coding.encode_cons, List.length_append] at hsize
    rw [List.length_cons] at hn hfuel
    have hpos := C.word_length_pos b
    obtain ⟨fuel, rfl⟩ : ∃ n, fuel = n + 1 := ⟨fuel - 1, by omega⟩
    rw [vectorChars, if_pos (by omega), if_pos (by omega), hU.u8Next hat.1 (by omega)]
    simp only [assertSome, ok_bind]
    rw [ih hat.2 (by omega) (by omega) (by omega), ok_bind]
    rfl

/-- `string->list` gives the characters of the text. -/
theorem stringToList_ok (hU : U.Reads C char) (hstr : str.HasText C as) :
    stringToList U u a str = .ok (as.map char) := by
  have hlen := C.length_le_encode as
  refine nextChars_ok hU (hstr.bytesAt a) ?_ (by rw [hstr.toNat_size]; exact hlen)
  rw [hstr.size, Nat.zero_add]

/-- `string->vector` does, too. -/
theorem stringToVector_ok (hU : U.Reads C char) (hstr : str.HasText C as) :
    stringToVector U u a str = .ok (as.map char) := by
  have hlen := C.length_le_encode as
  refine vectorChars_ok hU (hstr.bytesAt a) ?_ ?_ (by rw [hstr.toNat_size]; exact hlen)
  · rw [hstr.size, Nat.zero_add]
  · rw [hstr.sizeT_length, Nat.zero_add]

/-! ### `string-ref` -/

/-- The byte `k` of a text is one of the letter `a`. -/
def ByteOf (C : Coding α) (as : List α) (k : ℕ) (b : α) : Prop :=
  ∃ xs zs, as = xs ++ b :: zs ∧ (C.encode xs).length ≤ k ∧
    k < (C.encode xs).length + (C.word b).length

/-- Every byte is one of a letter. -/
theorem exists_byteOf {k : ℕ} (hk : k < (C.encode as).length) : ∃ b, ByteOf C as k b := by
  induction as generalizing k with
  | nil => exact absurd hk (Nat.not_lt_zero k)
  | cons b as ih =>
    rw [Coding.encode_cons, List.length_append] at hk
    rcases Nat.lt_or_ge k (C.word b).length with hlt | hge
    · exact ⟨b, [], as, rfl, Nat.zero_le k, by simpa using hlt⟩
    · obtain ⟨c, xs, zs, rfl, hle, hlt⟩ := ih (k := k - (C.word b).length) (by omega)
      refine ⟨c, b :: xs, zs, rfl, ?_, ?_⟩
      · rw [Coding.encode_cons, List.length_append]
        omega
      · rw [Coding.encode_cons, List.length_append]
        omega

/-- **`string-ref` of a byte** is the character that the byte belongs to. -/
theorem stringRef_eq (hU : U.Gets C char) (hstr : str.HasText C as) {k : ℕ} (hk : k < as.length)
    {b : α} (hb : ByteOf C as k b) : stringRef U u a str k = .ok (char b) := by
  obtain ⟨xs, zs, rfl, hle, hlt⟩ := hb
  have hrange : naviTypeCheckRange k 0 str.length = .ok (k : ℤ) := by
    rw [naviTypeCheckRange, hstr.length, if_neg (by omega)]
  have hat := hstr.bytesAt (u := u) a
  rw [Coding.encode_append, Coding.encode_cons, BytesAt.append, BytesAt.append] at hat
  have hsize := hstr.size
  rw [Coding.encode_append, Coding.encode_cons, List.length_append, List.length_append] at hsize
  obtain ⟨j, rfl⟩ := Nat.exists_eq_add_of_le hle
  have hget := hU.get str.size hat.2.1 (show j < (C.word b).length by omega) (by omega)
  rw [Nat.zero_add] at hget
  rw [stringRef, hrange, ok_bind, Int.toNat_natCast, hget]
  rfl

end

/-- **`string-ref` and the conversions** agree at `k`, in the build with ICU, exactly when the
byte `k` belongs to a character that is equal to the one at position `k`. -/
theorem refAgrees_iff {M : U8Access} (hM : M.Standard) (u : Unknown) (a : ℕ) {str : NaviString}
    {cs : List Char} (hstr : str.HasText Coding.utf8 cs) {k : ℕ} (hk : k < cs.length) :
    RefAgrees (.icu M.toU8Macros) u a str k ↔
      ∃ c, cs[k]? = some c ∧ ByteOf Coding.utf8 cs k c := by
  have hlist : stringToList (.icu M.toU8Macros) u a str = .ok (cs.map Char.val) :=
    stringToList_ok hM.reads hstr
  have hvec : stringToVector (.icu M.toU8Macros) u a str = .ok (cs.map Char.val) :=
    stringToVector_ok hM.reads hstr
  constructor
  · rintro ⟨ch, list, vec, href, hlist', -, hch, -⟩
    obtain ⟨c, hc⟩ := exists_byteOf (hk.trans_le (Coding.utf8.length_le_encode cs))
    rw [stringRef_eq hM.gets hstr hk hc] at href
    cases href
    rw [hlist] at hlist'
    cases hlist'
    rw [List.getElem?_map, Option.map_eq_some_iff] at hch
    obtain ⟨c', hc', hval⟩ := hch
    obtain rfl : c' = c := Char.ext hval
    exact ⟨c', hc', hc⟩
  · rintro ⟨c, hc, hbyte⟩
    have hget : (cs.map Char.val)[k]? = some c.val := by rw [List.getElem?_map, hc]; rfl
    exact ⟨c.val, _, _, stringRef_eq hM.gets hstr hk hbyte, hlist, hvec, hget, hget⟩

/-- The string `aé`. -/
def stringAE : NaviString := ⟨3, 2, 3, [97, 0xc3, 0xa9, 0]⟩

/-- The string `éa`. -/
def stringEA : NaviString := ⟨3, 2, 3, [0xc3, 0xa9, 97, 0]⟩

theorem hasText_stringAE : stringAE.HasText Coding.utf8 ['a', 'é'] :=
  ⟨rfl, rfl, by decide, by decide⟩

theorem hasText_stringEA : stringEA.HasText Coding.utf8 ['é', 'a'] :=
  ⟨rfl, rfl, by decide, by decide⟩

theorem refAgrees_iff_stringAE :
    RefAgrees (.icu utf8Access.toU8Macros) zeroMemory 0 stringAE 1 ↔
      ∃ c, ['a', 'é'][1]? = some c ∧ ByteOf Coding.utf8 ['a', 'é'] 1 c :=
  refAgrees_iff utf8Access_standard zeroMemory 0 hasText_stringAE (by decide)

/-- **`string-ref` of a byte inside of a character** is that character: `(string-ref "éa" 1)`. -/
theorem not_refAgrees :
    stringEA.WellFormed ∧
      ¬ RefAgrees (.icu utf8Access.toU8Macros) zeroMemory 0 stringEA 1 := by
  refine ⟨⟨⟨by decide, by decide, rfl⟩, ['é', 'a'], by decide, rfl⟩, ?_⟩
  rintro ⟨ch, list, vec, href, hlist, -, hch, -⟩
  have hbyte : ByteOf Coding.utf8 ['é', 'a'] 1 'é' := ⟨[], ['a'], rfl, by decide, by decide⟩
  rw [stringRef_eq utf8Access_standard.gets hasText_stringEA (by decide) hbyte] at href
  have hall : stringToList (.icu utf8Access.toU8Macros) zeroMemory 0 stringEA =
      .ok (['é', 'a'].map Char.val) :=
    stringToList_ok utf8Access_standard.reads hasText_stringEA
  rw [hall] at hlist
  cases href
  cases hlist
  exact absurd hch (by decide)

end NaviScheme
