import NaviScheme.Strings.Run

/-!
# String output ports

`string_write` makes room for the character, appends its bytes to the string of the port and
writes the NUL behind them; `navi_get_output_string` copies the string. Every call finds a string
that holds what has been written so far, and leaves one (`NaviScheme.runPort_spec`), until the
bytes are too many for an `int32_t`: the store of the NUL behind the capacity then goes outside of
the block.
-/

namespace NaviScheme

section Port

variable {α : Type} {C : Coding α} {letter : UInt32 → Option α} {U : Unicode} {u : Unknown}
  {h h' : StringHeap} {str : NaviString} {a p : ℕ} {t : List α}

/-- The calls on a string output port that is open. -/
inductive PortCall
  /-- `write-char` -/
  | writeChar (ch : UInt32)
  /-- `get-output-string` -/
  | getOutputString
deriving DecidableEq, Repr

/-- What a call does with the port `p`. -/
def PortCall.op (p : ℕ) : PortCall → StringOp
  | .writeChar ch => .stringWrite p ch
  | .getOutputString => .getOutputString p

/-- The calls, one after another, each with what it finds in memory. -/
def runPort (U : Unicode) (p : ℕ) : List (Unknown × PortCall) → StringHeap →
    Except StringStop StringHeap
  | [], h => .ok h
  | (u, c) :: calls, h => do runPort U p calls (← (c.op p).run U u h)

/-- A port is opened, and the calls are made. -/
def runFreshPort (U : Unicode) (u : Unknown) (calls : List (Unknown × PortCall))
    (h : StringHeap) : Except StringStop StringHeap := do
  runPort U h.ports.length calls (← h.naviOpenOutputString u)

section Texts

variable (letter)

/-- The characters that are written. -/
def written : List (Unknown × PortCall) → List α
  | [] => []
  | (_, .writeChar ch) :: calls => (letter ch).toList ++ written calls
  | (_, .getOutputString) :: calls => written calls

/-- What `get-output-string` is to return, each time; `t` has been written before. -/
def outputs (t : List α) : List (Unknown × PortCall) → List (List α)
  | [] => []
  | (_, .writeChar ch) :: calls => outputs (t ++ (letter ch).toList) calls
  | (_, .getOutputString) :: calls => t :: outputs t calls

/-- The characters that are written are valid. -/
def Valid (calls : List (Unknown × PortCall)) : Prop :=
  ∀ u ch, (u, PortCall.writeChar ch) ∈ calls → (letter ch).isSome

end Texts

/-- **The calls on a fresh port** have left the heap `h'`: the strings that were there, the one of
the port with all that has been written, and behind it a string for each `get-output-string`, with
what had been written then. -/
def Records (C : Coding α) (letter : UInt32 → Option α) (calls : List (Unknown × PortCall))
    (h h' : StringHeap) : Prop :=
  ∃ str copies, h'.strings = h.strings ++ str :: copies ∧ str.Holds C (written letter calls) ∧
    List.Forall₂ (NaviString.Holds C) copies (outputs letter [] calls)

/-! ### Stores that are made -/

theorem NaviString.growStorage_eq {need : ℤ} (hroom : ¬ str.capacity - str.size > need) :
    str.growStorage u need = (storeByte (reallocate u str.data (sizeT (str.size + need + 1)))
      (int32 (str.size + need)) 0).map fun data =>
        { str with capacity := int32 (str.size + need), data } := by
  have hneed : str.capacity + (need - (str.capacity - str.size)) = str.size + need := by omega
  rw [NaviString.growStorage, if_neg hroom]
  simp only [hneed]
  rfl

/-- Room is made. -/
theorem NaviString.Holds.growStorage_ok {need : ℤ} (hstr : str.Holds C t) (hneed : 0 ≤ need)
    (hfit : str.size + need < 2 ^ 31) : ∃ str', str.growStorage u need = .ok str' := by
  by_cases hroom : str.capacity - str.size > need
  · exact ⟨str, if_pos hroom⟩
  · have hsize := hstr.size
    have hblock := hstr.block
    obtain ⟨n, hn⟩ : ∃ n : ℕ, str.size + need = n := ⟨(str.size + need).toNat, by omega⟩
    have h64 : (2 : ℤ) ^ 31 < 2 ^ 64 := by decide
    have hn64 : sizeT ((n : ℤ) + 1) = n + 1 := sizeT_natCast (n := n + 1) (by omega)
    have hlen : (reallocate u str.data (n + 1)).length = n + 1 := by
      simp only [reallocate, List.length_append, List.length_take, List.length_map,
        List.length_range]
      omega
    rw [NaviString.growStorage_eq hroom, hn, hn64, int32_eq_self (by omega) (by omega),
      storeByte_eq_ok.2 ⟨n, rfl, by omega, rfl⟩]
    exact ⟨_, rfl⟩

/-- The capacity is not an `int32_t`: the NUL is stored before the block. -/
theorem NaviString.Holds.growStorage_fault {need : ℤ} (hstr : str.Holds C t)
    (hneed : need < 2 ^ 31) (hfit : 2 ^ 31 ≤ str.size + need) :
    str.growStorage u need = .error .fault := by
  have hle := hstr.size_le
  have hcap := hstr.capacity_lt
  have hneg : int32 (str.size + need) < 0 := by
    have h32 : ((2 ^ 32 : ℕ) : ℤ) = 4294967296 := by decide
    rw [int32, Int.bmod_def, h32]
    split <;> omega
  rw [NaviString.growStorage_eq (by omega), storeByte, if_neg (by omega)]
  rfl

/-! ### One call -/

section Call

variable {ch : UInt32} {c : α}

theorem StringHeap.port_eq (hp : h.ports[p]? = some a) : h.port p = .ok a := by
  rw [StringHeap.port, hp]

/-- **A character is written.** -/
theorem stringWrite_ok (hU : U.Implements C letter) (hp : h.ports[p]? = some a)
    (hstr : h.get a = .ok str) (hholds : str.Holds C t) (hc : letter ch = some c)
    (hfit : (C.encode (t ++ [c])).length < 2 ^ 31) :
    ∃ str', h.stringWrite U u p ch = .ok (h.put a str') ∧ str'.Holds C (t ++ [c]) := by
  have hsize := hholds.size
  have hlen : (C.encode (t ++ [c])).length = (C.encode t).length + (C.word c).length := by
    simp
  obtain ⟨str₁, hgrow⟩ : ∃ str', str.growStorage u (C.word c).length = .ok str' :=
    hholds.growStorage_ok (by omega) (by omega)
  obtain ⟨hs, -, hroom, hcap, hblock, -⟩ := growStorage_spec (by omega) (by omega)
    hholds.size_le hholds.capacity_lt hholds.block (by omega) hgrow
  have hnat : str₁.size.toNat = (C.encode t).length := by omega
  have happend : U.u8Append str₁.size.toNat str₁.capacity ch = some (C.word c) :=
    hU.append hc (by omega)
  obtain ⟨data, hdata⟩ := storeBytes_of_le (C.word c) str₁.data str₁.size.toNat (by omega)
  obtain ⟨hdlen, -⟩ := storeBytes_spec hdata
  have hset : NaviString.setSize { str₁ with data } (str₁.size + (C.word c).length) =
      .ok { str₁ with
        size := str₁.size + (C.word c).length
        data := data.set (str₁.size + (C.word c).length).toNat 0 } := by
    rw [NaviString.setSize, int32_eq_self (by omega) (by omega),
      storeByte_eq_ok.2 ⟨(str₁.size + (C.word c).length).toNat, by omega, by simp; omega, rfl⟩]
    rfl
  have hrun : ∃ h', h.stringWrite U u p ch = .ok h' := by
    rw [StringHeap.stringWrite, StringHeap.port_eq hp, ok_bind, hstr, ok_bind, hU.length_letter hc,
      hgrow, ok_bind, happend]
    simp only [assertSome, ok_bind, hdata, hset]
    exact ⟨_, rfl⟩
  obtain ⟨h', hrun⟩ := hrun
  obtain ⟨c', str', hc', rfl, hstr'⟩ := stringWrite_of_holds hU hp hstr hholds
    (fun c' hc' => by rw [← Option.some.inj (hc.symm.trans hc')]; exact hfit) hrun
  obtain rfl : c = c' := Option.some.inj (hc.symm.trans hc')
  exact ⟨str', hrun, hstr'⟩

/-- **A character is too much.** -/
theorem stringWrite_fault (hU : U.Implements C letter) (hp : h.ports[p]? = some a)
    (hstr : h.get a = .ok str) (hholds : str.Holds C t) (hc : letter ch = some c)
    (hword : (C.word c).length < 2 ^ 31) (hfit : 2 ^ 31 ≤ (C.encode (t ++ [c])).length) :
    h.stringWrite U u p ch = .error .fault := by
  have hsize := hholds.size
  have hlen : (C.encode (t ++ [c])).length = (C.encode t).length + (C.word c).length := by
    simp
  have hgrow : str.growStorage u (C.word c).length = .error .fault :=
    hholds.growStorage_fault (by omega) (by omega)
  rw [StringHeap.stringWrite, StringHeap.port_eq hp, ok_bind, hstr, ok_bind, hU.length_letter hc,
    hgrow]
  rfl

/-- **The string of a port is copied.** -/
theorem naviGetOutputString_ok (hp : h.ports[p]? = some a) (hstr : h.get a = .ok str)
    (hholds : str.Holds C t) :
    ∃ str', h.naviGetOutputString u p = .ok (h.add str') ∧ str'.Holds C t := by
  have hsize := hholds.size
  have hfit := hholds.encode_length_lt
  have h64 : (2 : ℕ) ^ 31 < 2 ^ 64 := by decide
  have hsizeT : sizeT str.size = (C.encode t).length := by
    rw [hsize]
    exact sizeT_natCast (by omega)
  have hrun : ∃ h', h.naviGetOutputString u p = .ok h' := by
    rw [StringHeap.naviGetOutputString, StringHeap.port_eq hp, ok_bind, hstr, ok_bind, hsizeT]
    obtain ⟨block, hblock, hcopy⟩ := naviMakeString_of_le u (sizeT str.length)
      (le_refl (C.encode t).length)
    obtain ⟨data, hdata⟩ := storeBytes_of_le (contents u a str) block 0 (by
      rw [hholds.contents]
      omega)
    rw [hcopy, ok_bind, hdata]
    exact ⟨_, rfl⟩
  obtain ⟨h', hrun⟩ := hrun
  obtain ⟨str', rfl, hstr'⟩ := naviGetOutputString_of_holds hp hstr hholds hrun
  exact ⟨str', hrun, hstr'⟩

end Call

/-! ### Runs -/

/-- A port whose string, with the text `t`, is behind the strings `before`. -/
structure Opened (C : Coding α) (p : ℕ) (before : List NaviString) (t : List α)
    (copies : List NaviString) (h : StringHeap) : Prop where
  port : h.ports[p]? = some before.length
  strings : ∃ str, h.strings = before ++ str :: copies ∧ str.Holds C t

namespace Opened

variable {before copies : List NaviString} {ch : UInt32} {c : α}

theorem get (h' : Opened C p before t copies h) :
    ∃ str, h.get before.length = .ok str ∧ str.Holds C t ∧ h.strings = before ++ str :: copies := by
  obtain ⟨str, hstrings, hholds⟩ := h'.strings
  refine ⟨str, ?_, hholds, hstrings⟩
  rw [StringHeap.get, hstrings, List.getElem?_append_right le_rfl, Nat.sub_self]
  rfl

/-- A character is written, if there is room for it. -/
theorem write (h' : Opened C p before t copies h) (hU : U.Implements C letter)
    (hc : letter ch = some c) (hfit : (C.encode (t ++ [c])).length < 2 ^ 31) :
    ∃ h₁, h.stringWrite U u p ch = .ok h₁ ∧ Opened C p before (t ++ [c]) copies h₁ := by
  obtain ⟨str, hget, hholds, hstrings⟩ := h'.get
  obtain ⟨str', hrun, hstr'⟩ := stringWrite_ok (u := u) hU h'.port hget hholds hc hfit
  refine ⟨_, hrun, h'.port, str', ?_, hstr'⟩
  rw [StringHeap.put, hstrings, List.set_append_right _ _ le_rfl, Nat.sub_self]
  rfl

/-- The text is copied. -/
theorem copy (h' : Opened C p before t copies h) :
    ∃ h₁ str, h.naviGetOutputString u p = .ok h₁ ∧ str.Holds C t ∧
      Opened C p before t (copies ++ [str]) h₁ := by
  obtain ⟨str, hget, hholds, hstrings⟩ := h'.get
  obtain ⟨str', hrun, hstr'⟩ := naviGetOutputString_ok (u := u) h'.port hget hholds
  refine ⟨_, str', hrun, hstr', h'.port, str, ?_, hholds⟩
  rw [StringHeap.add, hstrings, List.append_assoc]
  rfl

end Opened

theorem Valid.tail {uc : Unknown × PortCall} {calls : List (Unknown × PortCall)}
    (h : Valid letter (uc :: calls)) : Valid letter calls :=
  fun u ch hmem => h u ch (List.mem_cons_of_mem _ hmem)

/-- **Calls, as long as the bytes fit**: all that is written is there, and in the copies what had
been written then. -/
theorem runPort_spec (hU : U.Implements C letter) {calls : List (Unknown × PortCall)}
    {before copies : List NaviString} (hopen : Opened C p before t copies h)
    (hvalid : Valid letter calls) (hfit : (C.encode (t ++ written letter calls)).length < 2 ^ 31) :
    ∃ h' more, runPort U p calls h = .ok h' ∧
      Opened C p before (t ++ written letter calls) (copies ++ more) h' ∧
      List.Forall₂ (NaviString.Holds C) more (outputs letter t calls) := by
  induction calls generalizing h t copies with
  | nil => exact ⟨h, [], rfl, by simpa [written] using hopen, .nil⟩
  | cons uc calls ih =>
    obtain ⟨u, call⟩ := uc
    cases call with
    | writeChar ch =>
      obtain ⟨c, hc⟩ := Option.isSome_iff_exists.mp (hvalid u ch List.mem_cons_self)
      have htext : t ++ written letter ((u, .writeChar ch) :: calls) =
          t ++ [c] ++ written letter calls := by
        rw [written, hc, List.append_assoc]
        rfl
      rw [htext] at hfit ⊢
      have hfit' : (C.encode (t ++ [c])).length < 2 ^ 31 := by
        rw [Coding.encode_append, List.length_append] at hfit
        omega
      obtain ⟨h₁, hrun, hopen₁⟩ := hopen.write (u := u) hU hc hfit'
      obtain ⟨h', more, hrun', hopen', hmore⟩ := ih hopen₁ hvalid.tail hfit
      refine ⟨h', more, ?_, hopen', ?_⟩
      · change (h.stringWrite U u p ch >>= runPort U p calls) = _
        rw [hrun, ok_bind, hrun']
      · rw [outputs, hc]
        exact hmore
    | getOutputString =>
      obtain ⟨h₁, str, hrun, hstr, hopen₁⟩ := hopen.copy (u := u)
      obtain ⟨h', more, hrun', hopen', hmore⟩ := ih hopen₁ hvalid.tail hfit
      refine ⟨h', str :: more, ?_, ?_, .cons hstr hmore⟩
      · change (h.naviGetOutputString u p >>= runPort U p calls) = _
        rw [hrun, ok_bind, hrun']
      · rw [List.append_assoc] at hopen'
        exact hopen'

/-- **Calls that write too much** do not come to their end. -/
theorem runPort_fault (hU : U.Implements C letter) (hword : ∀ c, (C.word c).length < 2 ^ 31)
    {calls : List (Unknown × PortCall)} {before copies : List NaviString}
    (hopen : Opened C p before t copies h) (hvalid : Valid letter calls)
    (hfit : 2 ^ 31 ≤ (C.encode (t ++ written letter calls)).length) :
    runPort U p calls h = .error .fault := by
  induction calls generalizing h t copies with
  | nil =>
    obtain ⟨str, -, hholds, -⟩ := hopen.get
    rw [written, List.append_nil] at hfit
    exact absurd hholds.encode_length_lt (not_lt.mpr hfit)
  | cons uc calls ih =>
    obtain ⟨u, call⟩ := uc
    cases call with
    | writeChar ch =>
      obtain ⟨c, hc⟩ := Option.isSome_iff_exists.mp (hvalid u ch List.mem_cons_self)
      change (h.stringWrite U u p ch >>= runPort U p calls) = _
      have htext : t ++ written letter ((u, .writeChar ch) :: calls) =
          t ++ [c] ++ written letter calls := by
        rw [written, hc, List.append_assoc]
        rfl
      rw [htext] at hfit
      rcases Nat.lt_or_ge (C.encode (t ++ [c])).length (2 ^ 31) with hlt | hge
      · obtain ⟨h₁, hrun, hopen₁⟩ := hopen.write (u := u) hU hc hlt
        rw [hrun, ok_bind]
        exact ih hopen₁ hvalid.tail hfit
      · obtain ⟨str, hget, hholds, -⟩ := hopen.get
        rw [stringWrite_fault hU hopen.port hget hholds hc (hword c) hge]
        rfl
    | getOutputString =>
      obtain ⟨h₁, str, hrun, -, hopen₁⟩ := hopen.copy (u := u)
      change (h.naviGetOutputString u p >>= runPort U p calls) = _
      rw [hrun, ok_bind]
      exact ih hopen₁ hvalid.tail hfit

/-- A fresh port. -/
theorem exists_opened (C : Coding α) (u : Unknown) (h : StringHeap) :
    ∃ h₁, h.naviOpenOutputString u = .ok h₁ ∧ Opened C h.ports.length h.strings [] [] h₁ := by
  obtain ⟨data, -, hstr⟩ := naviMakeString_of_le u 0 (Nat.zero_le stringInitSize)
  have hrun : ∃ str, h.naviOpenOutputString u =
      .ok { h.add str with ports := h.ports ++ [h.strings.length] } := by
    rw [StringHeap.naviOpenOutputString, hstr]
    exact ⟨_, rfl⟩
  obtain ⟨str, hrun⟩ := hrun
  obtain ⟨str', hstrings, hholds⟩ := naviOpenOutputString_spec (C := C) hrun
  exact ⟨_, hrun, by simp, str', hstrings, hholds⟩

/-- **Calls on a fresh port** record everything exactly when the bytes fit in an `int32_t`. -/
theorem records_runFreshPort_iff (hU : U.Implements C letter)
    (hword : ∀ c, (C.word c).length < 2 ^ 31) (u : Unknown) {calls : List (Unknown × PortCall)}
    (hvalid : Valid letter calls) (h : StringHeap) :
    (∃ h', runFreshPort U u calls h = .ok h' ∧ Records C letter calls h h') ↔
      (C.encode (written letter calls)).length < 2 ^ 31 := by
  obtain ⟨h₁, hnew, hopen⟩ := exists_opened C u h
  constructor
  · rintro ⟨h', hrun, -⟩
    by_contra hfit
    rw [runFreshPort, hnew, ok_bind, runPort_fault hU hword hopen hvalid (not_lt.mp hfit)] at hrun
    cases hrun
  · intro hfit
    obtain ⟨h', more, hrun, hopen', hmore⟩ := runPort_spec hU hopen hvalid hfit
    obtain ⟨str, -, hholds, hstrings⟩ := hopen'.get
    refine ⟨h', ?_, str, more, hstrings, hholds, hmore⟩
    rw [runFreshPort, hnew, ok_bind, hrun]

end Port

/-! ### The builds -/

namespace StringBuild

/-- The letters of the strings of a build. -/
def Letter : StringBuild → Type
  | icu _ => Char
  | ascii => UInt8

/-- How they are kept. -/
def coding : (build : StringBuild) → Coding build.Letter
  | icu _ => Coding.utf8
  | ascii => Coding.bytes

/-- The letter of a character. -/
def letter : (build : StringBuild) → UInt32 → Option build.Letter
  | icu _ => scalar?
  | ascii => fun c => some c.toUInt8

theorem implements : ∀ {build : StringBuild}, build.Standard →
    build.unicode.Implements build.coding build.letter
  | icu _, hbuild => U8Macros.Standard.implements hbuild
  | ascii, _ => Unicode.ascii_implements

theorem word_length_lt : ∀ (build : StringBuild) (c : build.Letter),
    (build.coding.word c).length < 2 ^ 31
  | icu _, c => by
    have hle : (Coding.utf8.word c).length ≤ 4 :=
      (String.length_utf8EncodeChar c).trans_le (Char.utf8Size_le_four c)
    exact hle.trans_lt (by decide)
  | ascii, _ => by
    change 1 < 2 ^ 31
    decide

end StringBuild

/-- **A fresh string output port** takes every sequence of `write-char` and `get-output-string`,
in both builds, and every string that is made holds what has been written then, exactly when the
characters have less than `2 ^ 31` bytes. -/
theorem runFreshPort_records_iff {build : StringBuild} (hbuild : build.Standard) (u : Unknown)
    {calls : List (Unknown × PortCall)} (hvalid : Valid build.letter calls) (h : StringHeap) :
    (∃ h', runFreshPort build.unicode u calls h = .ok h' ∧
      Records build.coding build.letter calls h h') ↔
      (build.coding.encode (written build.letter calls)).length < 2 ^ 31 :=
  records_runFreshPort_iff (StringBuild.implements hbuild) build.word_length_lt u hvalid h

theorem runFreshPort_records_iff_a :
    (∃ h', runFreshPort (.icu utf8Macros) zeroMemory
        [(zeroMemory, .writeChar 97), (zeroMemory, .getOutputString)] ⟨[], []⟩ = .ok h' ∧
      Records Coding.utf8 scalar?
        [(zeroMemory, .writeChar 97), (zeroMemory, .getOutputString)] ⟨[], []⟩ h') ↔
      (Coding.utf8.encode (written scalar?
        [(zeroMemory, .writeChar 97), (zeroMemory, .getOutputString)])).length < 2 ^ 31 := by
  have hbuild : (StringBuild.icu utf8Macros).Standard := utf8Macros_standard
  refine runFreshPort_records_iff hbuild zeroMemory ?_ _
  rintro u ch hmem
  obtain h | h := List.mem_cons.mp hmem
  · cases h
    rfl
  · cases List.mem_singleton.mp h

theorem written_replicate {α : Type} {letter : UInt32 → Option α} {ch : UInt32} {c : α}
    (hc : letter ch = some c) (u : Unknown) (n : ℕ) :
    written letter (List.replicate n (u, .writeChar ch)) = List.replicate n c := by
  induction n with
  | zero => rfl
  | succ n ih =>
    rw [List.replicate_succ, written, hc, ih]
    rfl

/-- The character `a`, `n` times. -/
def writesOfA (n : ℕ) : List (Unknown × PortCall) := List.replicate n (zeroMemory, .writeChar 97)

theorem valid_writesOfA (n : ℕ) : Valid scalar? (writesOfA n) := by
  intro u ch hmem
  cases List.eq_of_mem_replicate hmem
  rfl

theorem length_encode_writesOfA (n : ℕ) :
    (Coding.utf8.encode (written scalar? (writesOfA n))).length = n := by
  have hword : (Coding.utf8.word 'a').length = 1 := by decide
  have ha : scalar? 97 = some 'a' := by decide
  rw [writesOfA, written_replicate ha, Coding.encode_replicate_length, hword, Nat.mul_one]

/-- **`2 ^ 31` characters are too many**: the last one is not written. -/
theorem not_runFreshPort_records :
    Valid scalar? (writesOfA (2 ^ 31)) ∧
      ¬ ∃ h', runFreshPort (.icu utf8Macros) zeroMemory (writesOfA (2 ^ 31)) ⟨[], []⟩ = .ok h' ∧
        Records Coding.utf8 scalar? (writesOfA (2 ^ 31)) ⟨[], []⟩ h' := by
  refine ⟨valid_writesOfA _, fun hrecords => ?_⟩
  have hlt := (records_runFreshPort_iff (U8Macros.Standard.implements utf8Macros_standard)
    (StringBuild.icu utf8Macros).word_length_lt zeroMemory (valid_writesOfA (2 ^ 31)) ⟨[], []⟩).mp
    hrecords
  rw [length_encode_writesOfA] at hlt
  exact lt_irrefl _ hlt

end NaviScheme
