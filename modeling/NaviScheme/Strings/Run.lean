import NaviScheme.Strings.Modify

/-!
# Runs of string operations

In every run of the operations of `StringOp` from an empty heap, all strings keep what the other
string functions trust: the size is within the capacity, a NUL is behind the text, the bytes are
a text and `length` is its number of letters (`stringReach_wellFormed`). This is so as long as
each call is `StringOp.Admissible` and leaves a string that an `int32_t` can measure; the calls
that are not admissible leave strings whose `length` is not the one of their bytes
(`not_stringReach_wellFormed`).
-/

namespace NaviScheme

/-- The states that calls meeting a condition lead to. -/
inductive StringReach (U : Unicode) (P : Unknown → StringHeap → StringOp → Prop) :
    StringHeap → Prop
  | empty : StringReach U P ⟨[], []⟩
  | step {h h' : StringHeap} (u : Unknown) (op : StringOp) (hreach : StringReach U P h)
    (hop : P u h op) (hrun : op.run U u h = .ok h') : StringReach U P h'

/-- What the string functions trust. -/
structure NaviString.Sized (str : NaviString) : Prop where
  nonneg : 0 ≤ str.size
  size_le : str.size ≤ str.capacity
  terminated : str.data[str.size.toNat]? = some 0

/-- A string of the build with ICU. -/
def NaviString.WellFormed (str : NaviString) : Prop :=
  str.Sized ∧ ∃ cs : List Char,
    str.data.take str.size.toNat = Utf8.encode cs ∧ str.length = cs.length

/-- A string of the build without ICU. -/
def NaviString.AsciiWellFormed (str : NaviString) : Prop := str.Sized ∧ str.length = str.size

section

variable {α : Type} (C : Coding α) (letter : UInt32 → Option α)

/-- The text of the string that a call makes or changes. -/
def StringOp.Text (h : StringHeap) (T : List (List α)) : StringOp → List α → Prop
  | .string args, t | .listToString args, t | .vectorToString args, t => t = letters letter args
  | .makeString n ch, t => t = madeText letter n ch
  | .stringAppend args, t => t = argTexts T args
  | .stringCopy from_ start end_, t =>
    t = slice (T.getD from_ []) (fixnumArg start 0)
      (fixnumArg end_ (C.encode (T.getD from_ [])).length)
  | .substring from_ start end_, t => t = slice (T.getD from_ []) start end_
  | .stringCopyTo to_ at_ from_ start end_, t =>
    CopyText C T to_ at_ from_ (fixnumArg start 0)
      (fixnumArg end_ (C.encode (T.getD from_ [])).length) t
  | .stringSet a k ch, t => ∃ c, letter ch = some c ∧ t = (T.getD a []).set k.toNat c
  | .stringFill a ch start end_, t =>
    t = fillText letter (T.getD a []) ch (int32 (fixnumArg start 0))
      (int32 (fixnumArg end_ (C.encode (T.getD a [])).length))
  | .utf8ToString vec _ _, t => C.encode t = vec
  | .openOutputString, t => t = []
  | .stringWrite p ch, t =>
    ∃ a c, h.ports[p]? = some a ∧ letter ch = some c ∧ t = T.getD a [] ++ [c]
  | .getOutputString p, t => ∃ a, h.ports[p]? = some a ∧ t = T.getD a []
  | .cstrToString cstr, t => C.encode t = cstr.takeWhile (· ≠ 0)

/-- The calls that do not go wrong:
* `make-string` of no character or of a letter;
* `string-copy` and `substring` when the memory for the copy happens to hold letters of one byte;
* `string-copy!` when the target is apart from the source;
* `string-set!` of a letter of the text;
* `utf8->string` of a whole bytevector;
* `navi_cstr_to_string` of bytes that are letters. -/
def StringOp.Admissible (u : Unknown) (T : List (List α)) : StringOp → Prop
  | .makeString n ch => 0 < n → ((ch.getD (.char 32)).letter? letter).isSome
  | .stringCopy from_ start end_ =>
    ∀ j < (fixnumArg end_ (C.encode (T.getD from_ [])).length - fixnumArg start 0).toNat,
      ∃ a, C.word a = [u.fresh j]
  | .substring _ start end_ => ∀ j < (end_ - start).toNat, ∃ a, C.word a = [u.fresh j]
  | .stringCopyTo to_ at_ from_ start end_ =>
    Apart C T to_ at_ from_ (fixnumArg start 0)
      (fixnumArg end_ (C.encode (T.getD from_ [])).length) ∨ C.OneByte
  | .stringSet a k _ => k < (T.getD a []).length
  | .utf8ToString vec start end_ =>
    fixnumArg start 0 = 0 ∧ fixnumArg end_ vec.length = vec.length ∧ vec.length < 2 ^ 31
  | .cstrToString cstr =>
    (∀ b ∈ cstr.takeWhile (· ≠ 0), ∃ a, C.word a = [b]) ∧
      (cstr.takeWhile (· ≠ 0)).length < 2 ^ 31
  | _ => True

/-- An admissible call, whose string has less than `2 ^ 31` bytes. -/
def StringOp.Safe (u : Unknown) (h : StringHeap) (op : StringOp) : Prop :=
  ∀ T, h.Holds C T → op.Admissible C letter u T ∧
    ∀ t, op.Text C letter h T t → (C.encode t).length < 2 ^ 31

end

section

variable {α : Type} {C : Coding α} {letter : UInt32 → Option α} {U : Unicode} {u : Unknown}
  {h h' : StringHeap} {T : List (List α)} {op : StringOp}

theorem exists_holds_add (hT : h.Holds C T) {str : NaviString} {t : List α}
    (hrun : h' = h.add str) (hstr : str.Holds C t) : ∃ T', h'.Holds C T' :=
  ⟨_, hrun ▸ hT.add hstr⟩

theorem exists_holds_put (hT : h.Holds C T) {a : ℕ} {str : NaviString} {t : List α}
    (hrun : h' = h.put a str) (hstr : str.Holds C t) : ∃ T', h'.Holds C T' :=
  ⟨_, hrun ▸ hT.put hstr⟩

theorem port_eq_ok {p a : ℕ} (hport : h.port p = .ok a) : h.ports[p]? = some a := by
  unfold StringHeap.port at hport
  split at hport
  · cases hport
    assumption
  · cases hport

/-- One call: the strings still hold texts. -/
theorem StringOp.run_holds (hU : U.Implements C letter) (hT : h.Holds C T)
    (hsafe : op.Safe C letter u h) (hrun : op.run U u h = .ok h') : ∃ T', h'.Holds C T' := by
  obtain ⟨hop, hfit⟩ := hsafe T hT
  cases op with
  | string args | listToString args =>
    obtain ⟨str, hadd, hstr⟩ := listToString_spec hU (hfit _ rfl) hrun
    exact exists_holds_add hT hadd hstr
  | vectorToString vec =>
    obtain ⟨str, hadd, hstr⟩ := vectorToString_spec hU (hfit _ rfl) hrun
    exact exists_holds_add hT hadd hstr
  | makeString n ch =>
    obtain ⟨str, hadd, hstr⟩ := makeString_spec hU hop (hfit _ rfl) hrun
    exact exists_holds_add hT hadd hstr
  | stringAppend args =>
    obtain ⟨str, hadd, hstr⟩ := stringAppend_spec hT (hfit _ rfl) hrun
    exact exists_holds_add hT hadd hstr
  | stringCopy from_ start end_ =>
    obtain ⟨str, hadd, hstr⟩ := stringCopy_spec hU hT rfl rfl hop (hfit _ rfl) hrun
    exact exists_holds_add hT hadd hstr
  | substring from_ start end_ =>
    have hstart : start = fixnumArg (some (.fixnum start)) 0 := rfl
    have hend : end_ = fixnumArg (some (.fixnum end_)) (C.encode (T.getD from_ [])).length := rfl
    obtain ⟨str, hadd, hstr⟩ := stringCopy_spec hU hT hstart hend hop (hfit _ rfl) hrun
    exact exists_holds_add hT hadd hstr
  | stringCopyTo to_ at_ from_ start end_ =>
    obtain ⟨t, str, -, hput, hstr⟩ := stringCopyTo_spec hU hT rfl rfl hop hfit hrun
    exact exists_holds_put hT hput hstr
  | stringSet a k ch =>
    obtain ⟨c, str, -, hput, hstr⟩ :=
      stringSet_spec hU hT hop (fun c hc => hfit _ ⟨c, hc, rfl⟩) hrun
    exact exists_holds_put hT hput hstr
  | stringFill a ch start end_ =>
    obtain ⟨str, hput, hstr⟩ := stringFill_spec hU hT rfl rfl (hfit _ rfl) hrun
    exact exists_holds_put hT hput hstr
  | utf8ToString vec start end_ =>
    obtain ⟨hstart, hend, hlt⟩ := hop
    obtain ⟨t, str, -, hadd, hstr⟩ := utf8ToString_spec hU hstart hend hlt hrun
    exact exists_holds_add hT hadd hstr
  | openOutputString =>
    obtain ⟨str, hstrings, hstr⟩ := naviOpenOutputString_spec (C := C) hrun
    exact ⟨T ++ [[]], by rw [StringHeap.Holds, hstrings]; exact hT.add hstr⟩
  | stringWrite p ch =>
    obtain ⟨a, ha, -⟩ := bind_eq_ok hrun
    have hp := port_eq_ok ha
    obtain ⟨c, str, -, hput, hstr⟩ :=
      stringWrite_spec hU hT hp (fun c hc => hfit _ ⟨a, c, hp, hc, rfl⟩) hrun
    exact exists_holds_put hT hput hstr
  | getOutputString p =>
    obtain ⟨a, ha, -⟩ := bind_eq_ok hrun
    have hp := port_eq_ok ha
    obtain ⟨str, hadd, hstr⟩ := naviGetOutputString_spec hT hp hrun
    exact exists_holds_add hT hadd hstr
  | cstrToString cstr =>
    obtain ⟨t, str, -, hadd, hstr⟩ := naviCstrToString_spec hop.1 hop.2 hrun
    exact exists_holds_add hT hadd hstr

/-- The strings hold texts in every state that safe calls lead to. -/
theorem StringReach.holds (hU : U.Implements C letter)
    (hreach : StringReach U (StringOp.Safe C letter) h) : ∃ T, h.Holds C T := by
  induction hreach with
  | empty => exact ⟨[], .nil⟩
  | step _ _ _ hop hrun ih =>
    obtain ⟨T, hT⟩ := ih
    exact StringOp.run_holds hU hT hop hrun

theorem NaviString.Holds.sized {str : NaviString} {t : List α} (hstr : str.Holds C t) :
    str.Sized ∧ str.data.take str.size.toNat = C.encode t := by
  have hnat : str.size.toNat = (C.encode t).length := by
    rw [hstr.size]
    rfl
  have := hstr.size
  refine ⟨⟨by omega, hstr.size_le, ?_⟩, ?_⟩
  · rw [hnat]
    exact hstr.terminator
  · rw [hnat]
    exact hstr.take_data

theorem StringHeap.Holds.exists_of_mem (hT : h.Holds C T) {str : NaviString}
    (hmem : str ∈ h.strings) : ∃ t, str.Holds C t := by
  obtain ⟨i, hi, rfl⟩ := List.getElem_of_mem hmem
  exact ⟨_, (List.forall₂_iff_get.1 hT).2 i hi (hT.length_eq ▸ hi)⟩

end

/-- The two builds. -/
inductive StringBuild
  /-- `HAVE_ICU`, with the macros of ICU. -/
  | icu (M : U8Macros)
  | ascii

namespace StringBuild

def unicode : StringBuild → Unicode
  | icu M => .icu M
  | ascii => .ascii

/-- What is assumed of ICU. -/
def Standard : StringBuild → Prop
  | icu M => M.Standard
  | ascii => True

/-- The calls that do not go wrong. -/
def Safe : StringBuild → Unknown → StringHeap → StringOp → Prop
  | icu _ => StringOp.Safe Coding.utf8 scalar?
  | ascii => StringOp.Safe Coding.bytes fun c => some c.toUInt8

/-- What the strings are to satisfy. -/
def WellFormed : StringBuild → NaviString → Prop
  | icu _ => NaviString.WellFormed
  | ascii => NaviString.AsciiWellFormed

end StringBuild

/-- **Strings keep their invariant**, in the build with ICU and in the build without it, in every
state that safe calls lead to. -/
theorem stringReach_wellFormed {build : StringBuild} (hbuild : build.Standard) {h : StringHeap}
    (hreach : StringReach build.unicode build.Safe h) {str : NaviString} (hmem : str ∈ h.strings) :
    build.WellFormed str := by
  cases build with
  | icu M =>
    obtain ⟨T, hT⟩ := hreach.holds hbuild.implements
    obtain ⟨cs, hstr⟩ := hT.exists_of_mem hmem
    exact ⟨hstr.sized.1, cs, hstr.sized.2, hstr.length⟩
  | ascii =>
    obtain ⟨T, hT⟩ := hreach.holds Unicode.ascii_implements
    obtain ⟨bs, hstr⟩ := hT.exists_of_mem hmem
    refine ⟨hstr.sized.1, ?_⟩
    rw [hstr.length, hstr.size, Coding.encode_bytes]

/-- Memory that holds zeros. -/
def zeroMemory : Unknown := ⟨fun _ => 0, fun _ => 0, fun _ _ => 0, fun _ => 0⟩

/-- The string `a`. -/
def stringA : NaviString := ⟨1, 1, 1, [97, 0]⟩

/-- The string `é`, in the memory of `a`. -/
def stringE : NaviString := ⟨2, 1, 2, [0xc3, 0xa9, 0]⟩

/-- `(define s (string #\\a))` and `(string-set! s 0 #\\é)` -/
theorem stringReach_stringE :
    StringReach (.icu utf8Macros) (StringOp.Safe Coding.utf8 scalar?) ⟨[stringE], []⟩ := by
  have hstring : StringReach (.icu utf8Macros) (StringOp.Safe Coding.utf8 scalar?)
      ⟨[stringA], []⟩ := by
    refine .step zeroMemory (.string [.char 97]) .empty (fun T _ => ⟨trivial, ?_⟩)
      (by decide +kernel)
    rintro t rfl
    decide
  refine .step zeroMemory (.stringSet 0 0 0xe9) hstring (fun T hT => ?_)
    (by decide +kernel)
  obtain ⟨hstr, -⟩ := hT.get (show StringHeap.get ⟨[stringA], []⟩ 0 = .ok stringA from rfl)
  have hlen : (T.getD 0 []).length = 1 := by
    have := hstr.length
    change (1 : ℤ) = _ at this
    omega
  obtain ⟨b, hb⟩ := List.length_eq_one_iff.1 hlen
  refine ⟨?_, ?_⟩
  · change (0 : ℤ) < (T.getD 0 []).length
    omega
  · rintro t ⟨c, -, rfl⟩
    rw [hb]
    have hword : (Coding.utf8.encode [c]).length ≤ 4 := by
      have := (String.length_utf8EncodeChar c).trans_le c.utf8Size_le_four
      simpa [Coding.utf8] using this
    exact hword.trans_lt (by decide)

theorem stringReach_wellFormed_stringE : stringE.WellFormed :=
  stringReach_wellFormed (show (StringBuild.icu utf8Macros).Standard from utf8Macros_standard)
    stringReach_stringE List.mem_cons_self

/-- **A part of a bytevector** that is made a string has the length of all of it:
`(utf8->string #u8(97 98 99) 0 1)`. -/
theorem not_stringReach_wellFormed :
    ¬ (∀ h, StringReach (StringBuild.icu utf8Macros).unicode (fun _ _ _ => True) h →
      ∀ str ∈ h.strings, (StringBuild.icu utf8Macros).WellFormed str) ∧
    ¬ ∀ h, StringReach StringBuild.ascii.unicode (fun _ _ _ => True) h →
      ∀ str ∈ h.strings, StringBuild.ascii.WellFormed str := by
  have hicu : StringReach (.icu utf8Macros) (fun _ _ _ => True) ⟨[⟨1, 3, 1, [97, 0]⟩], []⟩ :=
    .step zeroMemory
      (.utf8ToString [97, 98, 99] (some (.fixnum 0)) (some (.fixnum 1))) .empty trivial rfl
  have hascii : StringReach .ascii (fun _ _ _ => True) ⟨[⟨1, 3, 1, [97, 0]⟩], []⟩ :=
    .step zeroMemory
      (.utf8ToString [97, 98, 99] (some (.fixnum 0)) (some (.fixnum 1))) .empty trivial rfl
  constructor
  · intro hall
    obtain ⟨-, cs, htake, hlen⟩ := hall _ hicu _ List.mem_cons_self
    have hle := Utf8.length_le_encode cs
    rw [← htake] at hle
    have hcs : (3 : ℤ) = cs.length := hlen
    change cs.length ≤ 1 at hle
    omega
  · intro hall
    exact absurd (hall _ hascii _ List.mem_cons_self).2 (by decide)

end NaviScheme
