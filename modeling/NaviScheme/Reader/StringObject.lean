import NaviScheme.Reader.StringLiteral
import NaviScheme.Strings.Splice

/-!
# The buffer of `read_string`

`read_string` keeps its position in a variable of its own and sets the size of the string only
at the end, so that `navi_string_grow_storage`, which computes the free space from the size,
always finds the 64 bytes that it is asked for: the buffer never grows
(`NaviScheme.Unsized.growStorage`). Here is the function once more, on the string object with
its block of memory (`NaviScheme.readStringObject`); the reader's `NaviScheme.readString` is
what it computes (`NaviScheme.readStringObject_refines`).

Which literals leave the buffer is decided by the characters that they denote
(`NaviScheme.staysInBuffer_iff`).
-/

namespace NaviScheme

/-- How a function of the reader is left when a function on strings is. -/
def StringStop.toReadExn : StringStop → ReadExn
  | .raise msg => internalError msg []
  | .abort => .fault .assertion
  | .fault => .fault .overflow

/-- A function on strings, called from the reader. -/
def onString {α : Type} : Except StringStop α → Except ReadExn α
  | .ok a => .ok a
  | .error e => .error e.toReadExn

/-- `u8_append` at `i`: the bytes that it stores. A code point of one byte is stored without a
check. -/
def u8AppendBytes (i : ℕ) (capacity c : ℤ) : Except ReadExn (List UInt8) :=
  if u8Length c = 1 then .ok (String.utf8EncodeChar (Char.ofNat c.toNat))
  else if u8Length c ≠ 0 ∧ i + u8Length c ≤ capacity then
    .ok (String.utf8EncodeChar (Char.ofNat c.toNat))
  else .error (.fault .assertion)

section

variable (X : ReadEnv) (u : Unknown)

/-- What the loop of `read_string` does with a character: the string, and the new position. -/
def storeChar (str : NaviString) (pos : ℕ) (c : ℤ) : Except ReadExn (NaviString × ℕ) := do
  let str ← onString (if pos + u8Length c ≥ str.capacity then str.growStorage u strBufStep
    else .ok str)
  let bs ← u8AppendBytes pos str.capacity c
  let data ← onString (storeBytes str.data pos bs)
  return ({ str with data }, pos + bs.length)

/-- What `read_string` does at the closing quote. -/
def closeString (str : NaviString) (pos length : ℕ) : Except ReadExn NaviString := do
  let data ← onString (storeByte str.data pos 0)
  return { str with size := int32 pos, length := int32 length, data }

/-- The loop of `read_string`. -/
def readStringObjectLoop : ℕ → NaviString → ℕ → ℕ → ReadM NaviString
  | 0, _, _, _ => timeout
  | n + 1, str, pos, length => do
    let c ← ireadChar
    if c = doubleQuote then closeString str pos length
    else do
      let c ← if c = backslash then readStringEscape X n else pure c
      let (str, pos) ← storeChar u str pos c
      readStringObjectLoop n str pos (length + 1)

/-- `read_string` -/
def readStringObject (n : ℕ) : ReadM NaviString := do
  let str ← onString (naviMakeString u strBufLen.toNat 0 0)
  readStringObjectLoop X u n str 0 0

end

/-! ### The buffer -/

/-- A string that `read_string` fills: it has room for 64 bytes and a NUL, and its size has not
been set. -/
structure Unsized (str : NaviString) : Prop where
  size : str.size = 0
  capacity : str.capacity = 64
  block : str.data.length = 65

theorem naviMakeString_unsized (u : Unknown) :
    ∃ str, naviMakeString u strBufLen.toNat 0 0 = .ok str ∧ Unsized str := by
  obtain ⟨data, hlen, hmake⟩ := naviMakeString_of_le u 0 (Nat.zero_le strBufLen.toNat)
  exact ⟨_, hmake, (by decide : int32 0 = 0), (by decide : int32 64 = 64), hlen⟩

/-- **The buffer does not grow**: there are always 64 bytes free, as far as the size says. The
byte behind them is cleared. -/
theorem Unsized.growStorage {str : NaviString} (h : Unsized str) (u : Unknown) :
    str.growStorage u strBufStep = .ok { str with data := str.data.set 64 0 } := by
  have hcap : int32 (str.capacity + (strBufStep - (str.capacity - str.size))) = 64 := by
    rw [h.capacity, h.size]
    decide
  have hn : sizeT (str.capacity + (strBufStep - (str.capacity - str.size)) + 1) = 65 := by
    rw [h.capacity, h.size]
    decide
  have hsame : reallocate u str.data 65 = str.data := by
    rw [reallocate, h.block, List.take_of_length_le (by rw [h.block])]
    simp
  have hstore : storeByte str.data 64 0 = .ok (str.data.set 64 0) :=
    storeByte_eq_ok.2 ⟨64, rfl, by rw [h.block]; decide, rfl⟩
  have hfree : ¬ str.capacity - str.size > strBufStep := by
    rw [h.capacity, h.size]
    decide
  rw [NaviString.growStorage, if_neg hfree]
  simp only [hcap, hn, hsame, hstore, ok_bind, pure_eq_ok]
  rw [← h.capacity]

/-! ### The object and the datum -/

/-- The string that `read_string` fills has been filled with the bytes `data`. -/
structure Filled (str : NaviString) (data : List UInt8) : Prop extends Unsized str where
  take : str.data.take data.length = data

theorem Filled.length_le {str : NaviString} {data : List UInt8} (h : Filled str data) :
    data.length ≤ 65 := by
  have := congrArg List.length h.take
  rw [List.length_take, h.block] at this
  omega

/-- Bytes behind those that have been written. -/
theorem Filled.store {str : NaviString} {data bs data' : List UInt8} (h : Filled str data)
    (hstore : storeBytes str.data data.length bs = .ok data') :
    Filled { str with data := data' } (data ++ bs) := by
  obtain ⟨hlen, hle, hlt, hmid, -⟩ := storeBytes_spec hstore
  have hdata := h.length_le
  refine ⟨⟨h.size, h.capacity, hlen.trans h.block⟩, List.ext_getElem? fun j => ?_⟩
  rw [List.length_append]
  rcases Nat.lt_or_ge j data.length with hj | hj
  · rw [List.getElem?_take_of_lt (by omega), hlt j hj, List.getElem?_append_left hj]
    conv_rhs => rw [← h.take]
    rw [List.getElem?_take_of_lt hj]
  · rw [List.getElem?_append_right hj]
    rcases Nat.lt_or_ge j (data.length + bs.length) with hj' | hj'
    · have := hmid (j - data.length) (by omega)
      rw [List.getElem?_take_of_lt hj', ← this]
      congr 1
      omega
    · rw [List.getElem?_eq_none (by rw [List.length_take]; omega),
        List.getElem?_eq_none (by omega)]

/-- The string when `navi_string_grow_storage` has been called, or not. -/
theorem Filled.grow {str : NaviString} {data : List UInt8} (h : Filled str data) (u : Unknown)
    (need : Prop) [Decidable need] :
    ∃ str', (if need then str.growStorage u strBufStep else .ok str) = .ok str' ∧
      Unsized str' ∧ (data.length ≤ 64 → Filled str' data) := by
  by_cases hneed : need
  · rw [if_pos hneed, h.growStorage u]
    have hsize : Unsized { str with data := str.data.set 64 0 } :=
      ⟨h.size, h.capacity, by simpa using h.block⟩
    exact ⟨_, rfl, hsize, fun hdata => ⟨hsize, (List.take_set_of_le hdata).trans h.take⟩⟩
  · rw [if_neg hneed]
    exact ⟨str, rfl, h.toUnsized, fun _ => h⟩

theorem u8Length_nonneg (c : ℤ) : 0 ≤ u8Length c := by
  unfold u8Length
  split_ifs <;> omega

/-- What is stored for a character is what the reader's buffer holds then. -/
theorem storeChar_refines {str : NaviString} {data : List UInt8} (h : Filled str data)
    (u : Unknown) (c : ℤ) :
    (∃ e, u8Append data strBufLen c = .error e ∧ storeChar u str data.length c = .error e) ∨
      ∃ data' str', u8Append data strBufLen c = .ok data' ∧
        storeChar u str data.length c = .ok (str', data'.length) ∧ Filled str' data' := by
  obtain ⟨str', hgrow, hstr', hfill⟩ :=
    h.grow u (data.length + u8Length c ≥ str.capacity)
  have hlen := h.length_le
  -- the bytes go to the end of what has been written, if they are in the block
  have hstored : ∀ bs, u8AppendBytes data.length str'.capacity c = .ok bs →
      data.length ≤ 64 → data.length + bs.length ≤ 65 →
      ∃ str'', storeChar u str data.length c = .ok (str'', (data ++ bs).length) ∧
        Filled str'' (data ++ bs) := by
    intro bs hbs hdata hle
    obtain ⟨data', hdata'⟩ := storeBytes_of_le bs str'.data data.length
      (by rw [hstr'.block]; exact hle)
    refine ⟨{ str' with data := data' }, ?_, (hfill hdata).store hdata'⟩
    rw [storeChar, hgrow, onString, ok_bind, hbs, ok_bind, hdata', List.length_append]
    rfl
  have hcap : str'.capacity = strBufLen := hstr'.capacity
  rw [hcap] at hstored
  -- what does not leave the block
  have hfits : u8Length c ≠ 0 → data.length ≤ 64 → data.length + u8Length c ≤ 65 →
      u8AppendBytes data.length strBufLen c = .ok (String.utf8EncodeChar (Char.ofNat c.toNat)) →
      ∃ data' str', Except.ok (data ++ String.utf8EncodeChar (Char.ofNat c.toNat)) =
        (.ok data' : Except ReadExn (List UInt8)) ∧
        storeChar u str data.length c = .ok (str', data'.length) ∧ Filled str' data' := by
    intro hne hdata hle hbs
    have hbytes := length_utf8EncodeChar_of_ne hne
    obtain ⟨str'', hs, hf⟩ := hstored _ hbs hdata (by omega)
    exact ⟨_, str'', rfl, hs, hf⟩
  unfold u8Append
  by_cases hone : u8Length c = 1
  · have hbs : u8AppendBytes data.length strBufLen c =
        .ok (String.utf8EncodeChar (Char.ofNat c.toNat)) := by
      rw [u8AppendBytes, if_pos hone]
    rw [if_pos hone]
    by_cases hdata : (data.length : ℤ) ≤ strBufLen
    · rw [if_pos hdata]
      simp only [strBufLen] at hdata
      exact Or.inr (hfits (by omega) (by omega) (by omega) hbs)
    · rw [if_neg hdata]
      refine Or.inl ⟨_, rfl, ?_⟩
      have hbytes := length_utf8EncodeChar_of_ne (by omega : u8Length c ≠ 0)
      obtain ⟨b, hb⟩ := List.length_eq_one_iff.1
        (show (String.utf8EncodeChar (Char.ofNat c.toNat)).length = 1 by omega)
      have hout : storeBytes str'.data data.length [b] = .error .fault := by
        simp only [strBufLen] at hdata
        rw [storeBytes, storeByte, if_neg (by rw [hstr'.block]; omega)]
        rfl
      rw [storeChar, hgrow, onString, ok_bind, hcap, hbs, ok_bind, hb, hout]
      rfl
  · rw [if_neg hone]
    by_cases hfit : u8Length c ≠ 0 ∧ data.length + u8Length c ≤ strBufLen
    · have hbs : u8AppendBytes data.length strBufLen c =
          .ok (String.utf8EncodeChar (Char.ofNat c.toNat)) := by
        rw [u8AppendBytes, if_neg hone, if_pos hfit]
      have hpos := u8Length_nonneg c
      have hle := hfit.2
      simp only [strBufLen] at hle
      rw [if_pos hfit]
      exact Or.inr (hfits hfit.1 (by omega) (by omega) hbs)
    · rw [if_neg hfit]
      refine Or.inl ⟨_, rfl, ?_⟩
      rw [storeChar, hgrow, onString, ok_bind, hcap, u8AppendBytes, if_neg hone, if_neg hfit]
      rfl

/-- What `read_string` returns: the bytes that it has stored, with a NUL behind them. -/
structure Closed (str : NaviString) (data : List UInt8) (length : ℕ) : Prop where
  size : str.size = data.length
  le_capacity : str.size ≤ str.capacity
  nul : str.data[data.length]? = some 0
  take : str.data.take data.length = data
  length : str.length = int32 length

/-- A call of the reader's function, and one of the function on the string object. -/
inductive SameString : Except ReadExn (Datum × Port) → Except ReadExn (NaviString × Port) → Prop
  | raised (e : ReadExn) : SameString (.error e) (.error e)
  | returned {str : NaviString} {data : List UInt8} {length : ℕ} (p : Port)
    (h : Closed str data length) : SameString (.ok (.string data length, p)) (.ok (str, p))

theorem closeString_fits {str : NaviString} {data : List UInt8} (h : Filled str data)
    (hdata : data.length ≤ 64) (length : ℕ) :
    ∃ str', closeString str data.length length = .ok str' ∧ Closed str' data length := by
  have hstore : storeByte str.data data.length 0 = .ok (str.data.set data.length 0) :=
    storeByte_eq_ok.2 ⟨data.length, rfl, by rw [h.block]; omega, rfl⟩
  have hsize : int32 data.length = data.length := int32_eq_self (by omega) (by omega)
  have hclosed : Closed ⟨data.length, int32 length, str.capacity, str.data.set data.length 0⟩ data
      length :=
    { size := rfl
      le_capacity := by
        change (data.length : ℤ) ≤ str.capacity
        rw [h.capacity]
        omega
      nul := List.getElem?_set_self (by rw [h.block]; omega)
      take := (List.take_set_of_le (le_refl _)).trans h.take
      length := by dsimp only }
  refine ⟨_, ?_, hclosed⟩
  rw [closeString, hstore, hsize]
  rfl

theorem closeString_spills {str : NaviString} {data : List UInt8} (h : Filled str data)
    (hdata : ¬ data.length ≤ 64) (length : ℕ) :
    closeString str data.length length = .error (.fault .overflow) := by
  have hout : storeByte str.data data.length 0 = .error .fault := by
    rw [storeByte, if_neg (by rw [h.block]; omega)]
  rw [closeString, hout]
  rfl

theorem length_le_strBufLen {data : List UInt8} :
    (data.length : ℤ) ≤ strBufLen ↔ data.length ≤ 64 := by
  simp only [strBufLen]
  omega

variable {X : ReadEnv}

theorem readStringObjectLoop_refines (u : Unknown) (n : ℕ) :
    ∀ {str : NaviString} {data : List UInt8} (length : ℕ) (p : Port), Filled str data →
      SameString (readStringLoop X n data length strBufLen p)
        (readStringObjectLoop X u n str data.length length p) := by
  induction n with
  | zero => exact fun _ _ _ => .raised _
  | succ n ih =>
    intro str data length p h
    rw [readStringLoop, readStringObjectLoop]
    rcases hread : ireadChar p with e | ⟨c, p₁⟩
    · rw [readM_bind_error hread, readM_bind_error hread]
      exact .raised e
    · rw [readM_bind hread, readM_bind hread]
      by_cases hquote : c = doubleQuote
      · rw [if_pos hquote, if_pos hquote]
        by_cases hdata : data.length ≤ 64
        · obtain ⟨str', hstr', hc⟩ := closeString_fits h hdata length
          rw [if_pos (length_le_strBufLen.2 hdata), readM_lift_ok hstr']
          exact .returned p₁ hc
        · rw [if_neg (mt length_le_strBufLen.1 hdata),
            readM_lift_error (closeString_spills h hdata length)]
          exact .raised _
      · -- what both loops do with a character
        have hrest : ∀ (d : ℤ) (p₂ : Port), SameString
            ((do
              let capacity := if data.length + u8Length d ≥ strBufLen then
                growStorage strBufLen 0 strBufStep else strBufLen
              let data ← (u8Append data capacity d : Except ReadExn (List UInt8))
              readStringLoop X n data (length + 1) capacity : ReadM Datum) p₂)
            ((do
              let (str, pos) ← (storeChar u str data.length d : Except ReadExn (NaviString × ℕ))
              readStringObjectLoop X u n str pos (length + 1) : ReadM NaviString) p₂) := by
          intro d p₂
          have hcap : (if (data.length : ℤ) + u8Length d ≥ strBufLen then
              growStorage strBufLen 0 strBufStep else strBufLen) = strBufLen := by
            rw [growStorage_strBufLen, ite_self]
          simp only [hcap]
          rcases storeChar_refines h u d with ⟨e, happ, hstore⟩ | ⟨data', str', happ, hstore, h'⟩
          · rw [readM_bind_error (readM_lift_error happ p₂),
              readM_bind_error (readM_lift_error hstore p₂)]
            exact .raised e
          · rw [readM_bind (readM_lift_ok happ p₂), readM_bind (readM_lift_ok hstore p₂)]
            exact ih (length + 1) p₂ h'
        rw [if_neg hquote, if_neg hquote]
        by_cases hback : c = backslash
        · rw [if_pos hback, if_pos hback]
          rcases hesc : readStringEscape X n p₁ with e | ⟨d, p₂⟩
          · rw [readM_bind_error hesc, readM_bind_error hesc]
            exact .raised e
          · rw [readM_bind hesc, readM_bind hesc]
            exact hrest d p₂
        · rw [if_neg hback, if_neg hback]
          exact hrest c p₁

/-- **The function on the string object computes what the reader's does.** -/
theorem readStringObject_refines (u : Unknown) (n : ℕ) (p : Port) :
    SameString (readString X n p) (readStringObject X u n p) := by
  obtain ⟨str, hstr, h⟩ := naviMakeString_unsized u
  have hnew : onString (naviMakeString u strBufLen.toNat 0 0) = .ok str := by
    rw [hstr]
    rfl
  rw [readStringObject, readM_bind (readM_lift_ok hnew p)]
  exact readStringObjectLoop_refines u n 0 p ⟨h, rfl⟩

/-! ### Which literals fit -/

/-- The characters that a literal denotes: the loop of `read_string` without the buffer. -/
def readStringChars (X : ReadEnv) : ℕ → ReadM (List ℤ)
  | 0 => timeout
  | n + 1 => do
    let c ← ireadChar
    if c = doubleQuote then return []
    else do
      let c ← if c = backslash then readStringEscape X n else pure c
      let cs ← readStringChars X n
      return c :: cs

/-- **The reader's function stores the characters one after the other.** -/
theorem readStringLoop_chars (n : ℕ) : ∀ {p p' : Port} {cs : List ℤ} (data : List UInt8)
    (length : ℕ), readStringChars X n p = .ok (cs, p') →
      readStringLoop X n data length strBufLen p =
        (cs.foldlM (u8Append · strBufLen) data >>= fun data =>
          if data.length ≤ 64 then .ok (.string data (length + cs.length), p')
          else .error (.fault .overflow)) := by
  induction n with
  | zero => exact fun _ _ h => nomatch h
  | succ n ih =>
    intro p p' cs data length h
    rw [readStringChars] at h
    rw [readStringLoop]
    rcases hread : ireadChar p with e | ⟨c, p₁⟩
    · rw [readM_bind_error hread] at h
      exact nomatch h
    · rw [readM_bind hread] at h ⊢
      by_cases hquote : c = doubleQuote
      · rw [if_pos hquote] at h ⊢
        cases h
        simp only [length_le_strBufLen]
        split
        · rename_i hdata
          rw [List.foldlM_nil, pure_eq_ok, ok_bind, if_pos hdata]
          rfl
        · rename_i hdata
          rw [List.foldlM_nil, pure_eq_ok, ok_bind, if_neg hdata]
          rfl
      · have hrest : ∀ {d : ℤ} {p₂ : Port}, (do
              let cs ← readStringChars X n
              return d :: cs : ReadM (List ℤ)) p₂ = .ok (cs, p') →
            (do
              let capacity := if data.length + u8Length d ≥ strBufLen then
                growStorage strBufLen 0 strBufStep else strBufLen
              let data ← (u8Append data capacity d : Except ReadExn (List UInt8))
              readStringLoop X n data (length + 1) capacity : ReadM Datum) p₂ =
            (cs.foldlM (u8Append · strBufLen) data >>= fun data =>
              if data.length ≤ 64 then .ok (.string data (length + cs.length), p')
              else .error (.fault .overflow)) := by
          intro d p₂ h
          obtain ⟨⟨ds, p₃⟩, hds, hcs⟩ := bind_eq_ok (x := readStringChars X n p₂) h
          cases hcs
          have hcap : (if (data.length : ℤ) + u8Length d ≥ strBufLen then
              growStorage strBufLen 0 strBufStep else strBufLen) = strBufLen := by
            rw [growStorage_strBufLen, ite_self]
          simp only [hcap]
          rw [List.foldlM_cons, List.length_cons, Nat.add_comm ds.length, ← Nat.add_assoc]
          rcases happ : u8Append data strBufLen d with e | data'
          · rw [readM_bind_error (readM_lift_error rfl p₂)]
            rfl
          · rw [readM_bind (readM_lift_ok rfl p₂), ih data' (length + 1) hds]
            rfl
        rw [if_neg hquote] at h ⊢
        by_cases hback : c = backslash
        · rw [if_pos hback] at h ⊢
          rcases hesc : readStringEscape X n p₁ with e | ⟨d, p₂⟩
          · rw [readM_bind_error hesc] at h
            exact nomatch h
          · rw [readM_bind hesc] at h ⊢
            exact hrest h
        · rw [if_neg hback] at h ⊢
          exact hrest h

/-- Behind `k` bytes, the characters begin with some that fill the buffer up to its 64 bytes,
and an ASCII one that takes the place of the NUL; then comes the end, or another ASCII one. -/
def SpillsFrom (k : ℤ) (cs : List ℤ) : Prop :=
  ∃ before c after, cs = before ++ c :: after ∧ (∀ d ∈ before, u8Length d ≠ 0) ∧
    k + (before.map u8Length).sum = 64 ∧ u8Length c = 1 ∧ ∀ d ∈ after.head?, u8Length d = 1

/-- The characters begin with some of 64 bytes in all and an ASCII one, with the end or another
ASCII one behind it. -/
def Spills (cs : List ℤ) : Prop :=
  ∃ before c after, cs = before ++ c :: after ∧ (∀ d ∈ before, u8Length d ≠ 0) ∧
    (before.map u8Length).sum = 64 ∧ u8Length c = 1 ∧ ∀ d ∈ after.head?, u8Length d = 1

theorem spillsFrom_zero {cs : List ℤ} : SpillsFrom 0 cs ↔ Spills cs := by
  simp only [SpillsFrom, Spills, Int.zero_add]

theorem sum_u8Length_nonneg (cs : List ℤ) : 0 ≤ (cs.map u8Length).sum := by
  induction cs with
  | nil => exact le_refl _
  | cons c cs ih =>
    have := u8Length_nonneg c
    rw [List.map_cons, List.sum_cons]
    omega

theorem SpillsFrom.le {k : ℤ} {cs : List ℤ} (h : SpillsFrom k cs) : k ≤ 64 := by
  obtain ⟨before, -, -, -, -, hsum, -⟩ := h
  have := sum_u8Length_nonneg before
  omega

theorem not_spillsFrom_nil (k : ℤ) : ¬ SpillsFrom k [] := by
  rintro ⟨before, c, after, h, -⟩
  simp at h

theorem spillsFrom_cons {k c : ℤ} {cs : List ℤ} :
    SpillsFrom k (c :: cs) ↔ (k = 64 ∧ u8Length c = 1 ∧ ∀ d ∈ cs.head?, u8Length d = 1) ∨
      u8Length c ≠ 0 ∧ SpillsFrom (k + u8Length c) cs := by
  constructor
  · rintro ⟨before, d, after, hcs, hne, hsum, hd, hafter⟩
    cases before with
    | nil =>
      obtain ⟨rfl, rfl⟩ := List.cons_eq_cons.1 hcs
      exact Or.inl ⟨by simpa using hsum, hd, hafter⟩
    | cons e before =>
      obtain ⟨rfl, hcs'⟩ := List.cons_eq_cons.1 hcs
      rw [List.map_cons, List.sum_cons] at hsum
      exact Or.inr ⟨hne c List.mem_cons_self, before, d, after, hcs',
        fun f hf => hne f (List.mem_cons_of_mem c hf), by omega, hd, hafter⟩
  · rintro (⟨hk, hc, hafter⟩ | ⟨hc, before, d, after, rfl, hne, hsum, hd, hafter⟩)
    · exact ⟨[], c, cs, rfl, by simp, by simpa using hk, hc, hafter⟩
    · refine ⟨c :: before, d, after, rfl, ?_, ?_, hd, hafter⟩
      · intro f hf
        rcases List.mem_cons.1 hf with rfl | hf
        · exact hc
        · exact hne f hf
      · rw [List.map_cons, List.sum_cons]
        omega

/-- What becomes of characters that come behind the bytes `data`: the bytes that are there at
the closing quote. -/
def storeChars (data : List UInt8) (cs : List ℤ) : Except ReadExn (List UInt8) :=
  cs.foldlM (u8Append · strBufLen) data >>= fun data =>
    if data.length ≤ 64 then .ok data else .error (.fault .overflow)

theorem storeChars_nil {data : List UInt8} :
    storeChars data [] = if data.length ≤ 64 then .ok data else .error (.fault .overflow) := rfl

theorem storeChars_cons {data : List UInt8} {c : ℤ} {cs : List ℤ} :
    storeChars data (c :: cs) = u8Append data strBufLen c >>= (storeChars · cs) := by
  unfold storeChars
  rw [List.foldlM_cons, bind_assoc]

theorem u8Append_strBufLen (data : List UInt8) (c : ℤ) :
    (u8Length c = 1 ∧ 64 < data.length ∧ u8Append data strBufLen c = .error (.fault .overflow)) ∨
      (u8Length c ≠ 1 ∧ (u8Length c = 0 ∨ 64 < data.length + u8Length c) ∧
        u8Append data strBufLen c = .error (.fault .assertion)) ∨
      u8Length c ≠ 0 ∧ data.length + u8Length c ≤ 65 ∧
        (u8Length c ≠ 1 → data.length + u8Length c ≤ 64) ∧
        ∃ data', u8Append data strBufLen c = .ok data' := by
  have h64 : strBufLen = 64 := rfl
  unfold u8Append
  by_cases hone : u8Length c = 1
  · rw [if_pos hone]
    by_cases hdata : (data.length : ℤ) ≤ strBufLen
    · rw [if_pos hdata]
      exact Or.inr (Or.inr ⟨by omega, by omega, fun h => absurd hone h, _, rfl⟩)
    · rw [if_neg hdata]
      exact Or.inl ⟨hone, by omega, rfl⟩
  · rw [if_neg hone]
    by_cases hfit : u8Length c ≠ 0 ∧ data.length + u8Length c ≤ strBufLen
    · rw [if_pos hfit]
      have hle := hfit.2
      exact Or.inr (Or.inr ⟨hfit.1, by omega, fun _ => by omega, _, rfl⟩)
    · rw [if_neg hfit]
      exact Or.inr (Or.inl ⟨hone, by omega, rfl⟩)

/-- With 65 bytes in the block, there is no room for another byte, nor for the NUL. -/
theorem storeChars_full {data : List UInt8} (cs : List ℤ) (hdata : data.length = 65) :
    storeChars data cs = .error (.fault .overflow) ↔ ∀ d ∈ cs.head?, u8Length d = 1 := by
  cases cs with
  | nil =>
    rw [storeChars_nil, if_neg (by omega)]
    simp
  | cons c cs =>
    rw [storeChars_cons]
    simp only [List.head?_cons, Option.mem_some_iff, forall_eq']
    rcases u8Append_strBufLen data c with ⟨hone, -, happ⟩ | ⟨hone, -, happ⟩ | ⟨-, hle, hne, -⟩
    · rw [happ]
      exact ⟨fun _ => hone, fun _ => rfl⟩
    · rw [happ]
      exact ⟨(fun h => nomatch h), fun h => absurd h hone⟩
    · have := u8Length_nonneg c
      omega

theorem storeChars_overflow_iff (cs : List ℤ) : ∀ (data : List UInt8), data.length ≤ 64 →
    (storeChars data cs = .error (.fault .overflow) ↔ SpillsFrom data.length cs) := by
  induction cs with
  | nil =>
    intro data hdata
    rw [storeChars_nil, if_pos hdata]
    exact ⟨(fun h => nomatch h), fun h => absurd h (not_spillsFrom_nil _)⟩
  | cons c cs ih =>
    intro data hdata
    rw [storeChars_cons, spillsFrom_cons]
    rcases u8Append_strBufLen data c with
      ⟨-, hlt, -⟩ | ⟨hone, hfit, happ⟩ | ⟨hne, hle, hle', data', happ⟩
    · omega
    · rw [happ]
      refine ⟨fun h => (nomatch h), ?_⟩
      rintro (⟨-, h, -⟩ | ⟨hne, h⟩)
      · exact absurd h hone
      · have := h.le
        omega
    · obtain ⟨-, hlen⟩ := length_u8Append happ
      rw [happ, ok_bind]
      by_cases hfull : data'.length = 65
      · -- an ASCII character behind 64 bytes
        rw [storeChars_full cs hfull]
        refine ⟨fun h => Or.inl ⟨by omega, by omega, h⟩, ?_⟩
        rintro (⟨-, -, h⟩ | ⟨-, h⟩)
        · exact h
        · have := h.le
          omega
      · rw [ih data' (by omega), hlen]
        refine ⟨fun h => Or.inr ⟨hne, h⟩, ?_⟩
        rintro (⟨h, h', -⟩ | ⟨-, h⟩)
        · omega
        · exact h

theorem length_le_of_storeChars (cs : List ℤ) : ∀ {data data' : List UInt8},
    storeChars data cs = .ok data' →
      data.length + cs.length ≤ data'.length ∧ data'.length ≤ 64 := by
  induction cs with
  | nil =>
    intro data data' h
    rw [storeChars_nil] at h
    split at h
    · cases h
      exact ⟨le_refl _, by assumption⟩
    · cases h
  | cons c cs ih =>
    intro data data' h
    rw [storeChars_cons] at h
    obtain ⟨data₁, happ, h⟩ := bind_eq_ok h
    obtain ⟨-, hlen⟩ := length_u8Append happ
    obtain ⟨hle, h64⟩ := ih h
    rcases u8Append_strBufLen data c with ⟨-, -, happ'⟩ | ⟨-, -, happ'⟩ | ⟨hne, -, -, -⟩
    · exact nomatch happ.symm.trans happ'
    · exact nomatch happ.symm.trans happ'
    · have := u8Length_nonneg c
      rw [List.length_cons]
      exact ⟨by omega, h64⟩

/-- A call of `read_string` has stored nothing outside of the block, and if it has returned, the
string has a size that its block has room for, a NUL behind its bytes, and a length of `count`
characters. -/
structure StaysInBuffer (r : Except ReadExn (NaviString × Port)) (count : ℕ) : Prop where
  stores : r ≠ .error (.fault .overflow)
  returned : ∀ str p, r = .ok (str, p) →
    str.size ≤ str.capacity ∧ str.data[str.size.toNat]? = some 0 ∧ str.length = count

theorem readString_chars {n : ℕ} {p p' : Port} {cs : List ℤ}
    (h : readStringChars X n p = .ok (cs, p')) :
    readString X n p = storeChars [] cs >>= fun data => .ok (.string data cs.length, p') := by
  rw [readString, readStringLoop_chars n [] 0 h, storeChars, bind_assoc]
  congr 1
  funext data
  rw [Nat.zero_add]
  split
  · rfl
  · rfl

theorem Spills.not_staysInBuffer {cs : List ℤ} (hs : Spills cs) (u : Unknown) {n : ℕ}
    {p p' : Port} (h : readStringChars X n p = .ok (cs, p')) (count : ℕ) :
    ¬ StaysInBuffer (readStringObject X u n p) count := by
  have hover := (storeChars_overflow_iff cs [] (by decide)).2 (spillsFrom_zero.2 hs)
  have hread := readString_chars h
  have hrefines := readStringObject_refines (X := X) u n p
  rw [hover, error_bind] at hread
  rw [hread] at hrefines
  intro hstays
  generalize readStringObject X u n p = r at hrefines hstays
  cases hrefines
  exact hstays.stores rfl

theorem staysInBuffer_of_not_spills {cs : List ℤ} (hs : ¬ Spills cs) (u : Unknown) {n : ℕ}
    {p p' : Port} (h : readStringChars X n p = .ok (cs, p')) :
    StaysInBuffer (readStringObject X u n p) cs.length := by
  have hover := mt (storeChars_overflow_iff cs [] (by decide)).1 (mt spillsFrom_zero.1 hs)
  have hread := readString_chars h
  have hrefines := readStringObject_refines (X := X) u n p
  rcases hstore : storeChars [] cs with e | data
  · rw [hstore, error_bind] at hread
    rw [hread] at hrefines
    rw [hstore] at hover
    generalize readStringObject X u n p = r at hrefines ⊢
    cases hrefines
    exact ⟨fun he => hover (by rw [Except.error.inj he]), fun _ _ hr => nomatch hr⟩
  · obtain ⟨hle, h64⟩ := length_le_of_storeChars cs hstore
    rw [hstore, ok_bind] at hread
    rw [hread] at hrefines
    generalize readStringObject X u n p = r at hrefines ⊢
    cases hrefines with
    | returned _ hclosed =>
      refine ⟨(fun he => nomatch he), ?_⟩
      intro str p'' hr
      cases hr
      rw [List.length_nil, Nat.zero_add] at hle
      refine ⟨hclosed.le_capacity, ?_, ?_⟩
      · rw [hclosed.size]
        exact hclosed.nul
      · rw [hclosed.length]
        exact int32_eq_self (by omega) (by omega)

/-- **Which string literals `read_string` reads without leaving its buffer.** -/
theorem staysInBuffer_iff (u : Unknown) {n : ℕ} {p p' : Port} {cs : List ℤ}
    (h : readStringChars X n p = .ok (cs, p')) :
    StaysInBuffer (readStringObject X u n p) cs.length ↔ ¬ Spills cs :=
  ⟨fun hstays hs => hs.not_staysInBuffer u h cs.length hstays,
    fun hs => staysInBuffer_of_not_spills hs u h⟩

/-- A text without quotes and backslashes denotes itself. -/
theorem reads_readStringChars (rest : List UInt8) :
    ∀ (cs : List Char) (n : ℕ), (∀ c ∈ cs, c.toNat ≠ 0x22 ∧ c.toNat ≠ 0x5C) → cs.length < n →
      Reads (readStringChars X n) (Utf8.encode cs ++ 0x22 :: rest)
        (cs.map fun c => (c.toNat : ℤ)) rest := by
  intro cs
  induction cs with
  | nil =>
    intro n _ hn
    obtain ⟨n, rfl⟩ := Nat.exists_eq_succ_of_ne_zero (by omega : n ≠ 0)
    rw [readStringChars]
    refine (reads_ireadChar (by decide)).bind ?_
    rw [if_pos (by decide)]
    exact Reads.ret _ _
  | cons c cs ih =>
    intro n hcs hn
    rw [List.length_cons] at hn
    obtain ⟨n, rfl⟩ := Nat.exists_eq_succ_of_ne_zero (by omega : n ≠ 0)
    obtain ⟨hquote, hback⟩ := hcs c List.mem_cons_self
    rw [readStringChars, Utf8.encode_cons, List.append_assoc]
    refine (reads_ireadChar_append c _).bind ?_
    rw [if_neg (by simp only [doubleQuote]; omega), if_neg (by simp only [backslash]; omega)]
    refine (Reads.ret _ _).bind ?_
    exact (ih n (fun d hd => hcs d (List.mem_cons_of_mem c hd)) (by omega)).bind (Reads.ret _ _)

/-- Memory that holds zeros. -/
def zeroed : Unknown := ⟨fun _ => 0, fun _ => 0, fun _ _ => 0, fun _ => 0⟩

/-- The string of one letter. -/
theorem staysInBuffer_iff_a :
    StaysInBuffer (readStringObject allDefined zeroed 2 (Port.openOn .string [0x61, 0x22])) 1 ↔
      ¬ Spills [0x61] := by
  have h : readStringChars allDefined 2 (Port.openOn .string [0x61, 0x22]) =
      .ok ([0x61], ⟨.string, [], 0x22, false, false, false, false⟩) := rfl
  exact staysInBuffer_iff zeroed h

/-- A literal of 65 letters. -/
theorem not_staysInBuffer :
    ¬ ∀ (X : ReadEnv) (u : Unknown) (n : ℕ) (p p' : Port) (cs : List ℤ),
      readStringChars X n p = .ok (cs, p') →
        StaysInBuffer (readStringObject X u n p) cs.length := by
  intro h
  have htext : ∀ c ∈ List.replicate 65 'a', c.toNat ≠ 0x22 ∧ c.toNat ≠ 0x5C := by
    intro c hc
    rw [List.eq_of_mem_replicate hc]
    decide
  obtain ⟨p', hread, -⟩ := reads_readStringChars (X := allDefined) [] (List.replicate 65 'a') 66
    htext (by decide) (Port.openOn .string _) (Port.openOn_ready _ _) rfl
  refine Spills.not_staysInBuffer ?_ zeroed hread _ (h allDefined zeroed _ _ _ _ hread)
  exact ⟨List.replicate 64 97, 97, [], by decide, by decide, by decide, by decide, by decide⟩

end NaviScheme
