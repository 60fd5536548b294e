import NaviScheme.Strings.Compare
import NaviScheme.Strings.Returns

/-!
# Strings, lists, vectors and bytevectors

What goes from a string to a list or a vector and back, or from a list of characters to a string
and back, is there again (`roundTrips_iff`), in both builds, unless the list has so many characters
that an `int32_t` cannot measure the string. So is a part of a string that is made a bytevector and
a string again (`utf8RoundTrips`).
-/

namespace NaviScheme

/-! ### Lists and vectors -/

/-- **A list of characters** is made a string by `list->string` and by `vector->string`: it is the
same string, and `string->list` and `string->vector` give the characters back. -/
def CharsRoundTrip (U : Unicode) (u u' : Unknown) (h : StringHeap) (chs : List UInt32) : Prop :=
  ∃ str str', h.listToString U u (chs.map .char) = .ok (h.add str) ∧
    (h.add str).vectorToString U u' (chs.map .char) = .ok ((h.add str).add str') ∧
    stringToList U u h.strings.length str = .ok chs ∧
    stringToVector U u' (h.strings.length + 1) str' = .ok chs ∧
    naviStringEqual u' (h.strings.length, str) (h.strings.length + 1, str') = true

/-- **A string** is made a list and a string again, and a vector and a string again: they are
`equal?` to it. -/
def StringRoundTrip (U : Unicode) (u u' : Unknown) (h : StringHeap) (a : ℕ) (str : NaviString) :
    Prop :=
  ∃ list vec str₁ str₂, stringToList U u a str = .ok list ∧
    h.listToString U u (list.map .char) = .ok (h.add str₁) ∧
    stringToVector U u' a str = .ok vec ∧
    (h.add str₁).vectorToString U u' (vec.map .char) = .ok ((h.add str₁).add str₂) ∧
    naviStringEqual u' (h.strings.length, str₁) (a, str) = true ∧
    naviStringEqual u' (h.strings.length + 1, str₂) (a, str) = true

section

variable {α : Type} {C : Coding α} {letter : UInt32 → Option α} {char : α → UInt32} {U : Unicode}
  {u u' : Unknown} {h : StringHeap} {str str' : NaviString} {as : List α} {cs chs : List UInt32}

theorem charArgs_chars (cs : List UInt32) : charArgs (cs.map .char) = .ok cs := by
  induction cs with
  | nil => rfl
  | cons c cs ih =>
    rw [List.map_cons, charArgs, ih]
    rfl

theorem letters_chars : letters letter (cs.map .char) = cs.filterMap letter :=
  charArgs_spec (charArgs_chars cs)

/-- The block that `navi_make_string` returns takes the characters. -/
theorem makeString_append_ok (hU : U.Implements C letter) (hcs : cs.map letter = as.map some)
    (hfit : (C.encode as).length < 2 ^ 31) (u : Unknown) (length : ℕ) :
    ∃ str data, naviMakeString u (C.encode as).length (C.encode as).length length = .ok str ∧
      appendChars U str.capacity str.data 0 cs = .ok (data, (C.encode as).length) ∧
      data.length = (C.encode as).length + 1 := by
  obtain ⟨block, hblock, hmake⟩ := naviMakeString_of_le u length (le_refl (C.encode as).length)
  have hcap : int32 ((C.encode as).length : ℤ) = (C.encode as).length :=
    int32_eq_self (by omega) (by omega)
  obtain ⟨data, hdata⟩ : ∃ data, appendChars U (int32 (C.encode as).length) block 0 cs =
      .ok (data, 0 + (C.encode as).length) :=
    appendChars_ok hU hcs (by omega) (by omega)
  obtain ⟨as', has', hstore, -⟩ := appendChars_spec hU hdata
  refine ⟨_, data, hmake, ?_, (storeBytes_spec hstore).1.trans hblock⟩
  rw [hdata, Nat.zero_add]

/-- **`list->string`** of letters. -/
theorem listToString_ok (hU : U.Implements C letter) (hcs : cs.map letter = as.map some)
    (hfit : (C.encode as).length < 2 ^ 31) (u : Unknown) (h : StringHeap) :
    ∃ str, h.listToString U u (cs.map .char) = .ok (h.add str) ∧ str.Holds C as := by
  have hletters : cs.filterMap letter = as := filterMap_eq_of_map hcs
  have hsize : u32Size U cs = (C.encode as).length := by
    rw [u32Size_eq hU (by rwa [hletters]), hletters]
  obtain ⟨str, data, hmake, hdata, -⟩ := makeString_append_ok hU hcs hfit u cs.length
  have hrun : ∃ h', h.listToString U u (cs.map .char) = .ok h' := by
    rw [StringHeap.listToString, charArgs_chars, ok_bind, hsize, hmake, ok_bind, hdata]
    exact ⟨_, rfl⟩
  obtain ⟨h', hrun⟩ := hrun
  obtain ⟨str', rfl, hstr'⟩ := listToString_spec hU (by rwa [letters_chars, hletters]) hrun
  rw [letters_chars, hletters] at hstr'
  exact ⟨str', hrun, hstr'⟩

/-- **`vector->string`** of letters. -/
theorem vectorToString_ok (hU : U.Implements C letter) (hcs : cs.map letter = as.map some)
    (hfit : (C.encode as).length < 2 ^ 31) (u : Unknown) (h : StringHeap) :
    ∃ str, h.vectorToString U u (cs.map .char) = .ok (h.add str) ∧ str.Holds C as := by
  have h64 : (2 : ℕ) ^ 31 < 2 ^ 64 := by decide
  have hletters : cs.filterMap letter = as := filterMap_eq_of_map hcs
  have hsize : u32Size U cs = (C.encode as).length := by
    rw [u32Size_eq hU (by rwa [hletters]), hletters]
  have hsizeT : sizeT (int32 (u32Size U cs)) = (C.encode as).length := by
    rw [hsize, int32_eq_self (by omega) (by omega), sizeT_natCast (by omega)]
  obtain ⟨str, data, hmake, hdata, hlen⟩ := makeString_append_ok hU hcs hfit u cs.length
  obtain ⟨str', hset⟩ : ∃ str', NaviString.setSize { str with data } (C.encode as).length =
      .ok str' := setSize_ok hfit (show _ < data.length by omega)
  have hrun : ∃ h', h.vectorToString U u (cs.map .char) = .ok h' := by
    rw [StringHeap.vectorToString, charArgs_chars, ok_bind, hsizeT]
    dsimp only
    rw [hmake, ok_bind, hdata, ok_bind]
    dsimp only
    rw [hset]
    exact ⟨_, rfl⟩
  obtain ⟨h', hrun⟩ := hrun
  obtain ⟨str', rfl, hstr'⟩ := vectorToString_spec hU (by rwa [letters_chars, hletters]) hrun
  rw [letters_chars, hletters] at hstr'
  exact ⟨str', hrun, hstr'⟩

/-- Strings of one text are equal. -/
theorem naviStringEqual_of_hasText {a b : ℕ} (hstr : str.HasText C as) (hstr' : str'.HasText C as) :
    naviStringEqual u (a, str) (b, str') = true := by
  have hsize := hstr.size
  have hsize' := hstr'.size
  refine (naviStringEqual_iff (a := (a, str)) (b := (b, str')) (by dsimp only; omega)
    (by dsimp only; omega)).mpr ⟨hstr.length.trans hstr'.length.symm, ?_⟩
  exact (hstr.contents a).trans (hstr'.contents b).symm

/-- What `string->list` has read is within the size of the string. -/
theorem nextChars_length_le (hU : U.Implements C letter) {s : ℕ → UInt8} {size : ℤ} {i fuel : ℕ}
    (hrun : nextChars U s size i fuel = .ok chs) :
    (C.encode (chs.filterMap letter)).length ≤ (size - i).toNat := by
  induction fuel generalizing i chs with
  | zero =>
    cases hrun
    exact Nat.zero_le _
  | succ fuel ih =>
    rw [nextChars] at hrun
    split at hrun
    · rename_i hi
      obtain ⟨⟨ch, i'⟩, hnext, hrun⟩ := bind_eq_ok hrun
      obtain ⟨rest, hrest, hrun⟩ := bind_eq_ok hrun
      cases hrun
      obtain ⟨c, hc, hpair⟩ := Option.map_eq_some_iff.mp (assertSome_eq_ok.mp hnext)
      obtain ⟨rfl, hi'⟩ := Prod.mk.inj hpair
      obtain ⟨b, hb, -, rfl, hle⟩ := hU.of_next hi (Prod.ext hc hi')
      have := ih hrest
      rw [List.filterMap_cons_some hb, Coding.encode_cons, List.length_append]
      omega
    · cases hrun
      exact Nat.zero_le _

theorem StringHeap.add_inj (heq : h.add str = h.add str') : str = str' := by
  have := congrArg StringHeap.strings heq
  simpa [StringHeap.add] using this

/-- The size of a string that `list->string` has made is an `int32_t`. -/
theorem listToString_size_lt {args : List StringArg}
    (hrun : h.listToString U u args = .ok (h.add str)) : str.size < 2 ^ 31 := by
  obtain ⟨cs, -, hrun⟩ := bind_eq_ok hrun
  obtain ⟨str₁, hmake, hrun⟩ := bind_eq_ok hrun
  obtain ⟨⟨data, i⟩, -, hrun⟩ := bind_eq_ok hrun
  have hadd : h.add { str₁ with data } = h.add str := Except.ok.inj hrun
  rw [← StringHeap.add_inj hadd]
  change str₁.size < _
  rw [naviMakeString_size hmake]
  exact int32_lt _

/-- **A list of letters** goes round exactly when an `int32_t` can measure its string. -/
theorem charsRoundTrip_iff (hU : U.Implements C letter) (hR : U.Reads C char)
    (hchar : ∀ a, letter (char a) = some a) :
    CharsRoundTrip U u u' h (as.map char) ↔ (C.encode as).length < 2 ^ 31 := by
  have hcs : (as.map char).map letter = as.map some := by
    rw [List.map_map]
    exact List.map_congr_left fun a _ => hchar a
  constructor
  · rintro ⟨str, str', hlist, -, hback, -⟩
    have hle := nextChars_length_le hU hback
    rw [filterMap_eq_of_map hcs] at hle
    have := listToString_size_lt hlist
    omega
  · intro hfit
    obtain ⟨str, hlist, hstr⟩ := listToString_ok hU hcs hfit u h
    obtain ⟨str', hvec, hstr'⟩ := vectorToString_ok hU hcs hfit u' (h.add str)
    exact ⟨str, str', hlist, hvec, stringToList_ok hR hstr.hasText,
      stringToVector_ok hR hstr'.hasText, naviStringEqual_of_hasText hstr.hasText hstr'.hasText⟩

/-- **A string** goes round. -/
theorem stringRoundTrip (hU : U.Implements C letter) (hR : U.Reads C char)
    (hchar : ∀ a, letter (char a) = some a) {a : ℕ} (hstr : str.HasText C as) :
    StringRoundTrip U u u' h a str := by
  have hcs : (as.map char).map letter = as.map some := by
    rw [List.map_map]
    exact List.map_congr_left fun a _ => hchar a
  obtain ⟨str₁, hlist, hstr₁⟩ := listToString_ok hU hcs hstr.encode_length_lt u h
  obtain ⟨str₂, hvec, hstr₂⟩ := vectorToString_ok hU hcs hstr.encode_length_lt u' (h.add str₁)
  exact ⟨_, _, str₁, str₂, stringToList_ok hR hstr, hlist, stringToVector_ok hR hstr, hvec,
    naviStringEqual_of_hasText hstr₁.hasText hstr, naviStringEqual_of_hasText hstr₂.hasText hstr⟩

end

namespace StringBuild

/-- The character of a letter. -/
def char : (build : StringBuild) → build.Letter → UInt32
  | icu _ => Char.val
  | ascii => UInt8.toUInt32

/-- The characters that are Unicode scalar values, or ASCII. -/
def Takes : StringBuild → UInt32 → Prop
  | icu _, c => c.isValidChar
  | ascii, c => c.toNat < 128

theorem reads : ∀ {build : StringBuild}, build.Standard →
    build.unicode.Reads build.coding build.char
  | icu _, hbuild => U8Macros.Standard.reads hbuild
  | ascii, _ => Unicode.ascii_reads

theorem letter_char : ∀ (build : StringBuild) (a : build.Letter),
    build.letter (build.char a) = some a
  | icu _, a => scalar?_val a
  | ascii, a => congrArg some (UInt8.toUInt8_toUInt32 a)

theorem Takes.exists_char : ∀ {build : StringBuild} {c : UInt32}, build.Takes c →
    ∃ a, build.char a = c
  | icu _, c, hc => ⟨⟨c, hc⟩, rfl⟩
  | ascii, c, hc => by
    have hlt : c.toNat < 128 := hc
    refine ⟨c.toUInt8, UInt32.toNat_inj.mp ?_⟩
    change c.toUInt8.toUInt32.toNat = c.toNat
    rw [UInt8.toNat_toUInt32, UInt32.toNat_toUInt8]
    exact Nat.mod_eq_of_lt (by omega)

theorem exists_map_char {build : StringBuild} {chs : List UInt32}
    (hchs : ∀ c ∈ chs, build.Takes c) : ∃ as : List build.Letter, as.map build.char = chs := by
  induction chs with
  | nil => exact ⟨[], rfl⟩
  | cons c chs ih =>
    obtain ⟨a, rfl⟩ := (hchs c List.mem_cons_self).exists_char
    obtain ⟨as, rfl⟩ := ih fun c hc => hchs c (List.mem_cons_of_mem _ hc)
    exact ⟨a :: as, rfl⟩

end StringBuild

/-- **The conversions between strings, lists and vectors** are inverse to each other, in both
builds: for every string, and for the lists of characters whose string has less than `2 ^ 31`
bytes. -/
theorem roundTrips_iff {build : StringBuild} (hbuild : build.Standard) (u u' : Unknown)
    (h : StringHeap) :
    (∀ chs, (∀ c ∈ chs, build.Takes c) → (CharsRoundTrip build.unicode u u' h chs ↔
      (build.coding.encode (chs.filterMap build.letter)).length < 2 ^ 31)) ∧
    ∀ a str as, str.HasText build.coding as → StringRoundTrip build.unicode u u' h a str := by
  have hU := StringBuild.implements hbuild
  have hR := StringBuild.reads hbuild
  refine ⟨fun chs hchs => ?_, fun a str as hstr => stringRoundTrip hU hR build.letter_char hstr⟩
  obtain ⟨as, rfl⟩ := StringBuild.exists_map_char hchs
  have hcs : (as.map build.char).filterMap build.letter = as := by
    rw [List.filterMap_map]
    have hid : build.letter ∘ build.char = some := funext build.letter_char
    rw [hid, List.filterMap_some]
  rw [hcs]
  exact charsRoundTrip_iff hU hR build.letter_char

theorem roundTrips_iff_utf8 :
    (∀ chs, (∀ c ∈ chs, (StringBuild.icu utf8Macros).Takes c) →
      (CharsRoundTrip (.icu utf8Macros) zeroMemory zeroMemory ⟨[], []⟩ chs ↔
        (Coding.utf8.encode (chs.filterMap scalar?)).length < 2 ^ 31)) ∧
    ∀ a str as, str.HasText Coding.utf8 as →
      StringRoundTrip (.icu utf8Macros) zeroMemory zeroMemory ⟨[], []⟩ a str := by
  have hbuild : (StringBuild.icu utf8Macros).Standard := utf8Macros_standard
  exact roundTrips_iff hbuild zeroMemory zeroMemory ⟨[], []⟩

/-- **`2 ^ 31` characters are too many** for a string, in both builds. -/
theorem not_charsRoundTrip :
    ((∀ c ∈ List.replicate (2 ^ 31) 97, (StringBuild.icu utf8Macros).Takes c) ∧
      ¬ CharsRoundTrip (.icu utf8Macros) zeroMemory zeroMemory ⟨[], []⟩
        (List.replicate (2 ^ 31) 97)) ∧
    (∀ c ∈ List.replicate (2 ^ 31) 97, StringBuild.ascii.Takes c) ∧
      ¬ CharsRoundTrip .ascii zeroMemory zeroMemory ⟨[], []⟩ (List.replicate (2 ^ 31) 97) := by
  refine ⟨⟨fun c hc => ?_, fun hround => ?_⟩, fun c hc => ?_, fun hround => ?_⟩
  · rw [List.eq_of_mem_replicate hc]
    exact (by decide : (97 : UInt32).isValidChar)
  · have hchars : List.replicate (2 ^ 31) 97 = (List.replicate (2 ^ 31) 'a').map Char.val := by
      rw [List.map_replicate]
      rfl
    rw [hchars, charsRoundTrip_iff utf8Macros_standard.implements utf8Macros_standard.reads
      scalar?_val, Coding.encode_replicate_length] at hround
    have hword : (Coding.utf8.word 'a').length = 1 := by decide
    rw [hword] at hround
    omega
  · rw [List.eq_of_mem_replicate hc]
    exact (by decide : (97 : UInt32).toNat < 128)
  · have hchars : List.replicate (2 ^ 31) 97 = (List.replicate (2 ^ 31) (97 : UInt8)).map
        UInt8.toUInt32 := by
      rw [List.map_replicate]
      rfl
    rw [hchars, charsRoundTrip_iff Unicode.ascii_implements Unicode.ascii_reads
      fun a => congrArg some (UInt8.toUInt8_toUInt32 a), Coding.encode_bytes,
      List.length_replicate] at hround
    omega

/-! ### Bytevectors -/

/-- `string->utf8`; `fwd1` is `u8_fwd_1`. -/
def StringHeap.stringToUtf8 (U : Unicode) (fwd1 : (ℕ → UInt8) → ℕ → ℕ) (u : Unknown)
    (h : StringHeap) (a : ℕ) (start end_ : Option StringArg) : Except StringStop (List UInt8) := do
  let str ← h.get a
  let start ← fixnumOr start 0
  let end_ ← fixnumOr end_ str.length
  naviCheckCopy (sizeT str.length) start end_
  let startI := U.u8FwdN (str.bytes u a) 0 start.toNat
  let endI := (fwd1 (str.bytes u a))^[(end_ - start).toNat] startI
  return (List.range (endI - startI)).map fun j => str.bytes u a (startI + j)

/-- **A part of a string** that is made a bytevector is the encoding of its characters, and the
string that is made of this is the part. -/
def Utf8RoundTrip (M : U8Access) (u u' : Unknown) (h : StringHeap) (a : ℕ) (cs : List Char)
    (start end_ : ℤ) : Prop :=
  ∃ str, h.stringToUtf8 (.icu M.toU8Macros) M.fwd1 u a (some (.fixnum start))
      (some (.fixnum end_)) = .ok (Utf8.encode (slice cs start end_)) ∧
    h.utf8ToString (.icu M.toU8Macros) u' (Utf8.encode (slice cs start end_)) none none =
      .ok (h.add str) ∧
    str.HasText Coding.utf8 (slice cs start end_) ∧ str.length = end_ - start

/-- The loop of `u8_fwd_1`. -/
theorem iterate_fwd1 {M : U8Access} (hM : M.Standard) {s : ℕ → UInt8} {cs : List Char} {i : ℕ}
    (hat : BytesAt s i (Coding.utf8.encode cs)) :
    (M.fwd1 s)^[cs.length] i = i + (Coding.utf8.encode cs).length := by
  induction cs generalizing i with
  | nil => rfl
  | cons c cs ih =>
    rw [Coding.encode_cons, BytesAt.append] at hat
    rw [List.length_cons, Function.iterate_succ_apply, hM.fwd1 s i c hat.1, ih hat.2,
      Coding.encode_cons, List.length_append, Nat.add_assoc]

/-- **`string->utf8`** of a part of a string. -/
theorem stringToUtf8_ok {M : U8Access} (hM : M.Standard) {u : Unknown} {h : StringHeap} {a : ℕ}
    {str : NaviString} {cs : List Char} (hget : h.get a = .ok str)
    (hstr : str.HasText Coding.utf8 cs) {start end_ : ℤ} (hstart : 0 ≤ start) (hlt : start < end_)
    (hend : end_ ≤ cs.length) :
    h.stringToUtf8 (.icu M.toU8Macros) M.fwd1 u a (some (.fixnum start)) (some (.fixnum end_)) =
      .ok (Coding.utf8.encode (slice cs start end_)) := by
  obtain ⟨hfwd, hat, -⟩ := part_spec (u := u) (a := a) hM.implements hstr hstart hlt.le hend
  obtain ⟨-, hlen⟩ := eq_splice_slice (t := cs) hstart hlt.le hend
  have hcheck : naviCheckCopy (sizeT str.length) start end_ = .ok () := by
    rw [hstr.sizeT_length]
    exact naviCheckCopyTo_iff.mpr (by omega)
  unfold StringHeap.stringToUtf8
  rw [hget, ok_bind]
  simp only [fixnumOr, naviFixnumCast, ok_bind, hcheck, pure_eq_ok, Except.ok.injEq]
  rw [hfwd, ← hlen, iterate_fwd1 hM hat, Nat.add_sub_cancel_left]
  refine List.ext_getElem (by simp) fun j hj hj' => ?_
  rw [List.getElem_map, List.getElem_range]
  exact hat j hj'

/-- **`utf8->string`** of the encoding of a text. -/
theorem utf8ToString_ok {α : Type} {C : Coding α} {letter : UInt32 → Option α} {U : Unicode}
    (hU : U.Implements C letter) (u : Unknown) (h : StringHeap) {as : List α} (has : as ≠ [])
    (hfit : (C.encode as).length < 2 ^ 31) :
    ∃ str, h.utf8ToString U u (C.encode as) none none = .ok (h.add str) ∧ str.Holds C as := by
  have hpos := C.encode_length_pos has
  have hcheck : naviCheckCopy (C.encode as).length 0 ((C.encode as).length : ℕ) = .ok () :=
    naviCheckCopyTo_iff.mpr (by omega)
  have hat : BytesAt (fun i => (C.encode as).getD i 0) 0 (C.encode as) := fun j hj => by
    rw [Nat.zero_add]
    exact List.getD_eq_getElem _ _ hj
  have hcount : countChars U (fun i => (C.encode as).getD i 0) (C.encode as).length 0 0
      (C.encode as).length = some (0 + as.length) :=
    countChars_ok hU hat (Nat.zero_add _).symm hfit (C.length_le_encode as)
  obtain ⟨block, hblock, hmake⟩ := naviMakeString_of_le u (0 + as.length)
    (le_refl (C.encode as).length)
  obtain ⟨data, hdata⟩ := storeBytes_of_le (C.encode as) block 0 (by omega)
  have hrun : ∃ h', h.utf8ToString U u (C.encode as) none none = .ok h' := by
    have hsize : (((C.encode as).length : ℤ) - 0).toNat = (C.encode as).length := by simp
    have hdrop : ((C.encode as).drop (0 : ℤ).toNat).take (C.encode as).length = C.encode as := by
      simp
    simp only [StringHeap.utf8ToString, fixnumOr, ok_bind, hcheck, hsize, hcount, hmake, hdrop,
      hdata]
    exact ⟨_, rfl⟩
  obtain ⟨h', hrun⟩ := hrun
  obtain ⟨as', str, heq, rfl, hstr⟩ := utf8ToString_spec hU rfl rfl hfit hrun
  obtain rfl := C.encode_injective heq
  exact ⟨str, hrun, hstr⟩

/-- **Parts of strings** go to bytevectors and back, for all characters and all ranges. -/
theorem utf8RoundTrips {M : U8Access} (hM : M.Standard) (u u' : Unknown) {h : StringHeap} {a : ℕ}
    {str : NaviString} {cs : List Char} (hget : h.get a = .ok str)
    (hstr : str.HasText Coding.utf8 cs) {start end_ : ℤ} (hstart : 0 ≤ start) (hlt : start < end_)
    (hend : end_ ≤ cs.length) : Utf8RoundTrip M u u' h a cs start end_ := by
  obtain ⟨heq, hlen⟩ := eq_splice_slice (t := cs) hstart hlt.le hend
  have hfit : (Coding.utf8.encode (slice cs start end_)).length < 2 ^ 31 := by
    have hcs := hstr.encode_length_lt
    rw [heq] at hcs
    simp only [Coding.encode_append, List.length_append] at hcs
    omega
  have hne : slice cs start end_ ≠ [] := List.length_pos_iff.mp (by omega)
  obtain ⟨str', hback, hholds⟩ := utf8ToString_ok hM.implements u' h hne hfit
  refine ⟨str', stringToUtf8_ok hM hget hstr hstart hlt hend, hback, hholds.hasText, ?_⟩
  rw [hholds.length, hlen]
  omega

theorem utf8RoundTrips_stringEA :
    Utf8RoundTrip utf8Access zeroMemory zeroMemory ⟨[stringEA], []⟩ 0 ['é', 'a'] 0 1 :=
  utf8RoundTrips utf8Access_standard zeroMemory zeroMemory (h := ⟨[stringEA], []⟩) (a := 0) rfl
    hasText_stringEA (by decide) (by decide) (by decide)

end NaviScheme
