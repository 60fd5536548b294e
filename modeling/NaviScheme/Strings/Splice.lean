import NaviScheme.Strings.Operations
import NaviScheme.Lib.Except

/-!
# Texts in strings

`Holds C str as` says that a string object represents the text `as`: the bytes of the text stand
in its block, with a NUL behind them, and its three numbers are the ones of the text. All
functions that change a string replace a part of it: they shift what is behind the part, store
the bytes of another text of the same number of letters and set the size (`Holds.splice`).
-/

namespace NaviScheme

variable {α : Type} {C : Coding α} {u : Unknown}

/-! ### Stores -/

theorem storeByte_eq_ok {data data' : List UInt8} {i : ℤ} {b : UInt8} :
    storeByte data i b = .ok data' ↔
      ∃ n : ℕ, i = n ∧ n < data.length ∧ data' = data.set n b := by
  unfold storeByte
  constructor
  · intro h
    split at h
    · rename_i hi
      cases h
      exact ⟨i.toNat, by omega, by omega, rfl⟩
    · cases h
  · rintro ⟨n, rfl, hn, rfl⟩
    rw [if_pos ⟨by omega, by omega⟩]
    rfl

/-- A string of a size within its capacity is made. -/
theorem naviMakeString_of_le {n m : ℕ} (u : Unknown) (length : ℕ) (h : m ≤ n) :
    ∃ data : List UInt8, data.length = n + 1 ∧
      naviMakeString u n m length = .ok ⟨int32 m, int32 length, int32 n, data⟩ := by
  have hn : storeByte ((List.range (n + 1)).map u.fresh) n 0 =
      .ok (((List.range (n + 1)).map u.fresh).set n 0) :=
    storeByte_eq_ok.2 ⟨n, rfl, by simp, rfl⟩
  have hm : storeByte (((List.range (n + 1)).map u.fresh).set n 0) m 0 =
      .ok ((((List.range (n + 1)).map u.fresh).set n 0).set m 0) :=
    storeByte_eq_ok.2 ⟨m, rfl, by simp; omega, rfl⟩
  rw [naviMakeString, hn, ok_bind, hm]
  exact ⟨_, by simp, rfl⟩

/-- What is stored and what is not. -/
theorem storeBytes_spec {data data' : List UInt8} {i : ℕ} {bs : List UInt8}
    (h : storeBytes data i bs = .ok data') :
    data'.length = data.length ∧ (bs = [] ∨ i + bs.length ≤ data.length) ∧
      (∀ j < i, data'[j]? = data[j]?) ∧ (∀ j < bs.length, data'[i + j]? = bs[j]?) ∧
      ∀ j, i + bs.length ≤ j → data'[j]? = data[j]? := by
  induction bs generalizing data i with
  | nil =>
    cases h
    exact ⟨rfl, Or.inl rfl, fun _ _ => rfl, fun j hj => absurd hj (Nat.not_lt_zero j),
      fun _ _ => rfl⟩
  | cons b bs ih =>
    obtain ⟨data₁, hb, hbs⟩ := bind_eq_ok h
    obtain ⟨n, hi, hn, rfl⟩ := storeByte_eq_ok.1 hb
    obtain rfl : n = i := by omega
    obtain ⟨hlen, hle, hlt, hmid, hgt⟩ := ih hbs
    rw [List.length_set] at hlen hle
    refine ⟨hlen, Or.inr ?_, fun j hj => ?_, fun j hj => ?_, fun j hj => ?_⟩
    · rcases hle with rfl | hle
      · exact hn
      · rw [List.length_cons]
        omega
    · rw [hlt j (by omega), List.getElem?_set_ne (by omega)]
    · cases j with
      | zero =>
        rw [Nat.add_zero, hlt n (by omega), List.getElem?_set_self hn]
        rfl
      | succ j =>
        rw [List.length_cons] at hj
        rw [List.getElem?_cons_succ, ← hmid j (by omega)]
        congr 1
        omega
    · rw [List.length_cons] at hj
      rw [hgt j (by omega), List.getElem?_set_ne (by omega)]

/-- Bytes that fit in the block are stored. -/
theorem storeBytes_of_le (bs : List UInt8) : ∀ (data : List UInt8) (i : ℕ),
    i + bs.length ≤ data.length → ∃ data', storeBytes data i bs = .ok data' := by
  induction bs with
  | nil => exact fun data _ _ => ⟨data, rfl⟩
  | cons b bs ih =>
    intro data i h
    rw [List.length_cons] at h
    have hstore : storeByte data i b = .ok (data.set i b) :=
      storeByte_eq_ok.2 ⟨i, rfl, by omega, rfl⟩
    obtain ⟨data', hdata'⟩ := ih (data.set i b) (i + 1) (by rw [List.length_set]; omega)
    exact ⟨data', by rw [storeBytes, hstore, ok_bind, hdata']⟩

/-! ### Numbers -/

theorem int32_eq_self {n : ℤ} (h : 0 ≤ n) (h' : n < 2 ^ 31) : int32 n = n := by
  have h31 : (2 : ℤ) ^ 31 = 2147483648 := by decide
  have h32 : ((2 ^ 32 : ℕ) : ℤ) = 4294967296 := by decide
  rw [int32, Int.bmod_def, h32]
  rw [h31] at h'
  split <;> omega

theorem bmod_two_pow_64 {n : ℕ} (h : n < 2 ^ 31) : (n : ℤ).bmod (2 ^ 64) = n := by
  have h31 : (2 : ℕ) ^ 31 = 2147483648 := by decide
  have h64 : ((2 ^ 64 : ℕ) : ℤ) = 18446744073709551616 := by decide
  rw [Int.bmod_def, h64]
  rw [h31] at h
  split <;> omega

theorem sizeT_natCast {n : ℕ} (h : n < 2 ^ 64) : sizeT n = n := by
  have h64 : (2 : ℤ) ^ 64 = ((2 ^ 64 : ℕ) : ℤ) := by decide
  rw [sizeT, h64, ← Int.natCast_mod, Nat.mod_eq_of_lt h, Int.toNat_natCast]

/-! ### Texts -/

/-- A string object represents a text. -/
structure NaviString.Holds (C : Coding α) (str : NaviString) (as : List α) : Prop where
  size : str.size = (C.encode as).length
  length : str.length = as.length
  size_le : str.size ≤ str.capacity
  capacity_lt : str.capacity < 2 ^ 31
  block : (str.data.length : ℤ) = str.capacity + 1
  text : ∀ j < (C.encode as).length, str.data[j]? = (C.encode as)[j]?
  terminator : str.data[(C.encode as).length]? = some 0

/-- A string object represents a text, as far as it is read. -/
structure NaviString.HasText (C : Coding α) (str : NaviString) (as : List α) : Prop where
  size : str.size = (C.encode as).length
  length : str.length = as.length
  /-- The size is an `int32_t`. -/
  size_lt : str.size < 2 ^ 31
  text : ∀ j < (C.encode as).length, str.data[j]? = (C.encode as)[j]?

namespace NaviString.HasText

variable {str : NaviString} {as : List α}

theorem bytesAt (h : str.HasText C as) (a : ℕ) : BytesAt (str.bytes u a) 0 (C.encode as) := by
  intro j hj
  rw [Nat.zero_add, NaviString.bytes, h.text j hj, List.getElem?_eq_getElem hj]
  rfl

theorem encode_length_lt (h : str.HasText C as) : (C.encode as).length < 2 ^ 31 := by
  have := h.size
  have := h.size_lt
  omega

theorem length_lt (h : str.HasText C as) : as.length < 2 ^ 31 :=
  (C.length_le_encode as).trans_lt h.encode_length_lt

theorem toNat_size (h : str.HasText C as) : str.size.toNat = (C.encode as).length := by
  rw [h.size]
  rfl

theorem sizeT_length (h : str.HasText C as) : sizeT str.length = as.length := by
  have h64 : (2 : ℕ) ^ 31 < 2 ^ 64 := by decide
  rw [h.length, sizeT_natCast (h.length_lt.trans h64)]

theorem contents (h : str.HasText C as) (a : ℕ) : contents u a str = C.encode as := by
  refine List.ext_getElem (by rw [NaviScheme.contents, h.toNat_size]; simp) fun j hj hj' => ?_
  have := h.bytesAt (u := u) a j hj'
  rw [Nat.zero_add] at this
  simpa [NaviScheme.contents] using this

end NaviString.HasText

namespace NaviString.Holds

variable {str : NaviString} {as : List α}

theorem hasText (h : str.Holds C as) : str.HasText C as :=
  ⟨h.size, h.length, h.size_le.trans_lt h.capacity_lt, h.text⟩

theorem encode_lt (h : str.Holds C as) : (C.encode as).length < str.data.length := by
  have := h.size
  have := h.size_le
  have := h.block
  omega

theorem encode_length_lt (h : str.Holds C as) : (C.encode as).length < 2 ^ 31 :=
  h.hasText.encode_length_lt

theorem length_lt (h : str.Holds C as) : as.length < 2 ^ 31 := h.hasText.length_lt

theorem take_data (h : str.Holds C as) : str.data.take (C.encode as).length = C.encode as := by
  refine List.ext_getElem? fun j => ?_
  rcases Nat.lt_or_ge j (C.encode as).length with hj | hj
  · rw [List.getElem?_take_of_lt hj, h.text j hj]
  · rw [List.getElem?_take_eq_none hj, List.getElem?_eq_none hj]

/-- The text is determined by the string. -/
theorem unique {as' : List α} (h : str.Holds C as) (h' : str.Holds C as') : as = as' := by
  have hlen : (C.encode as).length = (C.encode as').length := by
    have := h.size
    have := h'.size
    omega
  exact C.encode_injective (h.take_data.symm.trans (hlen ▸ h'.take_data))

theorem contents (h : str.Holds C as) (a : ℕ) : contents u a str = C.encode as :=
  h.hasText.contents a

/-- Setting the size to what it is. -/
theorem terminate (h : str.Holds C as) :
    NaviString.Holds C { str with
      size := (C.encode as).length, data := str.data.set (C.encode as).length 0 } as := by
  refine ⟨rfl, h.length, h.size ▸ h.size_le, h.capacity_lt, ?_, fun j hj => ?_,
    List.getElem?_set_self h.encode_lt⟩
  · rw [List.length_set]
    exact h.block
  · rw [List.getElem?_set_ne (by omega), h.text j hj]

end NaviString.Holds

/-- A block into which a text has been stored behind the text that is there. -/
theorem holds_of_store {str : NaviString} {as : List α} {data : List UInt8}
    (hsize : str.size = (C.encode as).length) (hlength : str.length = as.length)
    (hle : str.size ≤ str.capacity) (hlt : str.capacity < 2 ^ 31)
    (hblock : (str.data.length : ℤ) = str.capacity + 1)
    (hterm : str.data[(C.encode as).length]? = some 0)
    (hstore : storeBytes str.data 0 (C.encode as) = .ok data) :
    NaviString.Holds C { str with data } as := by
  obtain ⟨hlen, -, -, hmid, hgt⟩ := storeBytes_spec hstore
  refine ⟨hsize, hlength, hle, hlt, ?_, fun j hj => ?_, ?_⟩
  · change ((data.length : ℕ) : ℤ) = _
    rw [hlen]
    exact hblock
  · change data[j]? = _
    rw [← hmid j hj, Nat.zero_add]
  · change data[_]? = _
    rw [hgt _ (by omega)]
    exact hterm

/-- `navi_make_string` -/
theorem naviMakeString_spec {n m : ℕ} {str : NaviString} (hmn : m ≤ n) (hn : n < 2 ^ 31)
    {length : ℕ} (hlength : length < 2 ^ 31) (h : naviMakeString u n m length = .ok str) :
    str.size = m ∧ str.length = length ∧ str.capacity = n ∧ str.data.length = n + 1 ∧
      str.data[m]? = some 0 ∧ ∀ j < m, str.data[j]? = some (u.fresh j) := by
  obtain ⟨data₁, h₁, h⟩ := bind_eq_ok h
  obtain ⟨data₂, h₂, h⟩ := bind_eq_ok h
  rw [pure_eq_ok, Except.ok.injEq] at h
  subst h
  obtain ⟨n', hn', hlt₁, rfl⟩ := storeByte_eq_ok.1 h₁
  obtain ⟨m', hm', hlt₂, rfl⟩ := storeByte_eq_ok.1 h₂
  obtain rfl : n = n' := by omega
  obtain rfl : m = m' := by omega
  dsimp only
  rw [int32_eq_self (n := m) (by omega) (by omega), int32_eq_self (n := n) (by omega) (by omega),
    int32_eq_self (n := length) (by omega) (by omega)]
  refine ⟨rfl, rfl, rfl, by simp, List.getElem?_set_self hlt₂, fun j hj => ?_⟩
  rw [List.getElem?_set_ne (by omega), List.getElem?_set_ne (by omega)]
  rw [List.getElem?_map, List.getElem?_range (by omega)]
  rfl

/-! ### Growing and shifting -/

section Shift

variable {str str' : NaviString} {a pos : ℕ}

/-- `navi_string_grow_storage` leaves the bytes below the size and makes room. -/
theorem growStorage_spec {need : ℤ} (hneed : 0 ≤ need) (hsize : 0 ≤ str.size)
    (hle : str.size ≤ str.capacity) (hcap : str.capacity < 2 ^ 31)
    (hblock : (str.data.length : ℤ) = str.capacity + 1) (hfit : str.size + need < 2 ^ 31)
    (h : str.growStorage u need = .ok str') :
    str'.size = str.size ∧ str'.length = str.length ∧ str.size + need ≤ str'.capacity ∧
      str'.capacity < 2 ^ 31 ∧ (str'.data.length : ℤ) = str'.capacity + 1 ∧
      ∀ j : ℕ, (j : ℤ) < str.size → str'.data[j]? = str.data[j]? := by
  have h64 : (2 : ℤ) ^ 31 < 2 ^ 64 := by decide
  unfold NaviString.growStorage at h
  split at h
  · cases h
    exact ⟨rfl, rfl, by omega, hcap, hblock, fun _ _ => rfl⟩
  · rename_i hfree
    obtain ⟨n, hn⟩ : ∃ n : ℕ, str.size + need = n := ⟨(str.size + need).toNat, by omega⟩
    have hcap' : str.capacity + (need - (str.capacity - str.size)) = n := by omega
    have hn64 : sizeT ((n : ℤ) + 1) = n + 1 := sizeT_natCast (n := n + 1) (by omega)
    dsimp only at h
    rw [hcap', hn64, int32_eq_self (by omega) (by omega)] at h
    obtain ⟨data, hstore, h⟩ := bind_eq_ok h
    rw [pure_eq_ok, Except.ok.injEq] at h
    subst h
    obtain ⟨n', hn', hlt, rfl⟩ := storeByte_eq_ok.1 hstore
    obtain rfl : n = n' := by omega
    refine ⟨rfl, rfl, hn.le, hn ▸ hfit, ?_, fun j hj => ?_⟩
    · simp only [List.length_set, reallocate, List.length_append, List.length_take,
        List.length_map, List.length_range]
      omega
    · simp only [reallocate]
      rw [List.getElem?_set_ne (by omega), List.getElem?_append_left (by
        rw [List.length_take]; omega), List.getElem?_take_of_lt (by omega)]

theorem getElem?_data {j : ℕ} (h : j < str.data.length) :
    str.data[j]? = some (str.bytes u a j) := by
  rw [NaviString.bytes, List.getElem?_eq_getElem h]
  rfl

/-- The loop that shifts to the right has copied the bytes behind `pos`, the last one first. -/
theorem shiftRight_spec {diff i : ℕ} (hdiff : 0 < diff) (hi : i < str.data.length)
    (h : str.shiftRight u a pos diff i = .ok str') :
    (∃ data, str' = { str with data } ∧ data.length = str.data.length) ∧
      (∀ j ≤ pos + diff, str'.data[j]? = str.data[j]?) ∧
      (∀ j, pos + diff < j → j ≤ i + diff → str'.data[j]? = str.data[j - diff]?) ∧
      ∀ j, i + diff < j → str'.data[j]? = str.data[j]? := by
  induction i generalizing str with
  | zero =>
    cases h
    exact ⟨⟨_, rfl, rfl⟩, fun _ _ => rfl, fun j hj hj' => by omega, fun _ _ => rfl⟩
  | succ i ih =>
    rw [NaviString.shiftRight] at h
    split at h
    · rename_i hpos
      obtain ⟨data, hstore, h⟩ := bind_eq_ok h
      obtain ⟨n, hn, hlt, rfl⟩ := storeByte_eq_ok.1 hstore
      obtain rfl : i + 1 + diff = n := by omega
      obtain ⟨⟨data', hstr', hlen⟩, hlow, hmid, hhigh⟩ :=
        ih (by rw [List.length_set]; omega) h
      rw [List.length_set] at hlen
      refine ⟨⟨data', hstr', hlen⟩, fun j hj => ?_, fun j hj hj' => ?_, fun j hj => ?_⟩
      · rw [hlow j hj]
        exact List.getElem?_set_ne (by omega)
      · rcases Nat.lt_or_ge j (i + 1 + diff) with hlt' | hge
        · rw [hmid j hj (by omega)]
          exact List.getElem?_set_ne (by omega)
        · obtain rfl : j = i + 1 + diff := by omega
          rw [hhigh _ (by omega), Nat.add_sub_cancel]
          exact (List.getElem?_set_self hlt).trans (getElem?_data hi).symm
      · rw [hhigh j (by omega)]
        exact List.getElem?_set_ne (by omega)
    · cases h
      exact ⟨⟨_, rfl, rfl⟩, fun _ _ => rfl, fun j hj hj' => by omega, fun _ _ => rfl⟩

/-- The loop that shifts to the left has copied the bytes that it has found, in the block and
behind it. -/
theorem shiftLeft_spec {diff i n : ℕ} (hdiff : 0 < diff)
    (h : str.shiftLeft u a diff i n = .ok str') :
    (∃ data, str' = { str with data } ∧ data.length = str.data.length) ∧
      (∀ j < i, str'.data[j]? = str.data[j]?) ∧
      (∀ j, i ≤ j → j < i + n → str'.data[j]? = some (str.bytes u a (j + diff))) ∧
      ∀ j, i + n ≤ j → str'.data[j]? = str.data[j]? := by
  induction n generalizing str i with
  | zero =>
    cases h
    exact ⟨⟨_, rfl, rfl⟩, fun _ _ => rfl, fun j hj hj' => by omega, fun _ _ => rfl⟩
  | succ n ih =>
    obtain ⟨data, hstore, h⟩ := bind_eq_ok h
    obtain ⟨i', hi', hlt, rfl⟩ := storeByte_eq_ok.1 hstore
    obtain rfl : i = i' := by omega
    obtain ⟨⟨data', hstr', hlen⟩, hlow, hmid, hhigh⟩ := ih h
    rw [List.length_set] at hlen
    refine ⟨⟨data', hstr', hlen⟩, fun j hj => ?_, fun j hj hj' => ?_, fun j hj => ?_⟩
    · rw [hlow j (by omega)]
      exact List.getElem?_set_ne (by omega)
    · rcases Nat.eq_or_lt_of_le hj with rfl | hgt
      · rw [hlow i (by omega)]
        exact List.getElem?_set_self hlt
      · have hne : i ≠ j + diff := by omega
        rw [hmid j hgt (by omega)]
        simp only [NaviString.bytes, List.getElem?_set_ne hne]
    · rw [hhigh j (by omega)]
      exact List.getElem?_set_ne (by omega)

/-- `string_shift` leaves the bytes up to `pos` and takes those behind it to their new places,
as far as they are in the text before and after. -/
theorem shift_spec {diff : ℤ} (hsize : 0 ≤ str.size) (hle : str.size ≤ str.capacity)
    (hcap : str.capacity < 2 ^ 31) (hblock : (str.data.length : ℤ) = str.capacity + 1)
    (hfit : str.size + diff < 2 ^ 31) (h : str.shift u a pos diff = .ok str') :
    str'.size = str.size ∧ str'.length = str.length ∧ str.size + diff ≤ str'.capacity ∧
      str'.capacity < 2 ^ 31 ∧ (str'.data.length : ℤ) = str'.capacity + 1 ∧
      (∀ j ≤ pos, (j : ℤ) < str.size → str'.data[j]? = str.data[j]?) ∧
      ∀ j k : ℕ, pos < j → pos < k → (k : ℤ) < str.size → (j : ℤ) = k + diff →
        str'.data[j]? = str.data[k]? := by
  unfold NaviString.shift at h
  split at h
  · rename_i hpos
    obtain ⟨str₁, hgrow, h⟩ := bind_eq_ok h
    obtain ⟨hs, hl, hc, hclt, hb, hbytes⟩ :=
      growStorage_spec hpos.le hsize hle hcap hblock hfit hgrow
    rcases lt_or_ge 0 str.size with hne | hempty
    · obtain ⟨⟨data, rfl, hlen⟩, hlow, hmid, -⟩ :=
        shiftRight_spec (i := (str₁.size - 1).toNat) (by omega) (by omega) h
      refine ⟨hs, hl, hc, hclt, ?_, fun j hj hj' => ?_, fun j k hj hk hk' hjk => ?_⟩
      · change (data.length : ℤ) = _
        rw [hlen, hb]
      · rw [hlow j (by omega), hbytes j hj']
      · rw [hmid j (by omega) (by omega), hbytes _ (by omega)]
        congr 1
        omega
    · have hzero : (str₁.size - 1).toNat = 0 := by omega
      rw [hzero] at h
      cases h
      exact ⟨hs, hl, hc, hclt, hb, fun j _ hj' => hbytes j hj', fun j k _ _ hk' _ => by omega⟩
  · split at h
    · rename_i hneg
      obtain ⟨⟨data, rfl, hlen⟩, hlow, hmid, -⟩ := shiftLeft_spec (by omega) h
      refine ⟨rfl, rfl, by change _ ≤ str.capacity; omega, hcap, ?_, fun j hj hj' => ?_,
        fun j k hj hk hk' hjk => ?_⟩
      · change (data.length : ℤ) = _
        rw [hlen, hblock]
      · exact hlow j (by omega)
      · have hidx : j + (-diff).toNat = k := by omega
        rw [hmid j (by omega) (by omega), hidx, ← getElem?_data (by omega)]
    · cases h
      refine ⟨rfl, rfl, by omega, hcap, hblock, fun _ _ _ => rfl, fun j k _ _ _ hjk => ?_⟩
      congr 1
      omega

end Shift

/-! ### Replacing a part of a text -/

/-- `str->size = size; str->data[str->size] = '\0'` -/
theorem setSize_spec {str str' : NaviString} {n : ℕ} (hn : n < 2 ^ 31)
    (h : str.setSize n = .ok str') :
    n < str.data.length ∧ str' = { str with size := n, data := str.data.set n 0 } := by
  unfold NaviString.setSize at h
  rw [int32_eq_self (by omega) (by omega)] at h
  obtain ⟨data, hstore, h⟩ := bind_eq_ok h
  rw [pure_eq_ok, Except.ok.injEq] at h
  obtain ⟨n', hn', hlt, rfl⟩ := storeByte_eq_ok.1 hstore
  obtain rfl : n = n' := by omega
  exact ⟨hlt, h.symm⟩

/-- **Replacing a part of a text** by as many other letters: the bytes behind the part are
shifted, the bytes of the new part are stored and the size is set. -/
theorem NaviString.Holds.splice {str str₁ str' : NaviString} {xs ys zs ys' : List α}
    {data : List UInt8} {a : ℕ} (h : str.Holds C (xs ++ ys ++ zs)) (hlen : ys.length = ys'.length)
    (hfit : (C.encode (xs ++ ys' ++ zs)).length < 2 ^ 31)
    (hshift : str.shift u a (C.encode xs).length
      ((C.encode ys').length - (C.encode ys).length) = .ok str₁)
    (hstore : storeBytes str₁.data (C.encode xs).length (C.encode ys') = .ok data)
    (hset : NaviString.setSize { str₁ with data }
      (str₁.size + ((C.encode ys').length - (C.encode ys).length)) = .ok str') :
    str'.Holds C (xs ++ ys' ++ zs) := by
  have hsize := h.size
  have htext := h.text
  simp only [Coding.encode_append, List.length_append] at hsize htext hfit
  obtain ⟨hs, hl, hc, hclt, hb, hlow, hmove⟩ := shift_spec (by omega) h.size_le h.capacity_lt
    h.block (by omega) hshift
  -- the bytes behind the part, in both cases of `string_shift`
  have hbehind : ∀ k : ℕ, (C.encode xs).length + (C.encode ys).length ≤ k → (k : ℤ) < str.size →
      str₁.data[k - (C.encode ys).length + (C.encode ys').length]? = str.data[k]? := by
    intro k hk hk'
    rcases ys with _ | ⟨y, ys⟩
    · obtain rfl : ys' = [] := List.length_eq_zero_iff.1 hlen.symm
      have hself : str₁ = str := by
        simpa [NaviString.shift] using hshift.symm
      rw [hself]
      rfl
    · have hpos := C.encode_length_pos (List.cons_ne_nil y ys)
      have hpos' : 0 < (C.encode ys').length :=
        C.encode_length_pos (List.length_pos_iff.1 (by rw [← hlen]; exact Nat.succ_pos _))
      exact hmove _ k (by omega) (by omega) hk' (by omega)
  obtain ⟨hdata, -, hbefore, hpart, hafter⟩ := storeBytes_spec hstore
  have hnew : str₁.size + (((C.encode ys').length : ℤ) - (C.encode ys).length) =
      ((C.encode xs).length + (C.encode ys').length + (C.encode zs).length : ℕ) := by
    rw [hs, hsize]
    push_cast
    omega
  rw [hnew] at hset
  obtain ⟨hlt, rfl⟩ := setSize_spec hfit hset
  refine ⟨by simp [Int.add_assoc], ?_, ?_, hclt, ?_, fun j hj => ?_, ?_⟩
  · change str₁.length = _
    rw [hl, h.length]
    simp [hlen]
  · change ((_ : ℕ) : ℤ) ≤ str₁.capacity
    omega
  · simp only [List.length_set, hdata]
    exact hb
  · simp only [Coding.encode_append, List.length_append] at hj ⊢
    rw [List.getElem?_set_ne (by omega)]
    rcases Nat.lt_or_ge j (C.encode xs).length with hxs | hxs
    · rw [hbefore j hxs, hlow j hxs.le (by omega), htext j (by omega)]
      simp only [List.append_assoc]
      rw [List.getElem?_append_left hxs, List.getElem?_append_left hxs]
    · obtain ⟨k, rfl⟩ := Nat.exists_eq_add_of_le hxs
      rw [List.append_assoc, List.getElem?_append_right hxs, Nat.add_sub_cancel_left]
      rcases Nat.lt_or_ge k (C.encode ys').length with hys | hys
      · rw [hpart k hys, List.getElem?_append_left hys]
      · have hk := hbehind ((C.encode xs).length + (k - (C.encode ys').length) +
          (C.encode ys).length) (by omega) (by omega)
        rw [hafter _ (Nat.add_le_add_left hys _), List.getElem?_append_right hys]
        have hidx : (C.encode xs).length + (k - (C.encode ys').length) + (C.encode ys).length -
            (C.encode ys).length + (C.encode ys').length = (C.encode xs).length + k := by omega
        rw [hidx] at hk
        have hlen' : (C.encode xs ++ C.encode ys).length ≤
            (C.encode xs).length + (k - (C.encode ys').length) + (C.encode ys).length := by
          rw [List.length_append]
          omega
        rw [hk, htext _ (by omega), List.getElem?_append_right hlen', List.length_append]
        exact congrArg (fun n => (C.encode zs)[n]?) (by omega)
  · simp only [Coding.encode_append, List.length_append]
    exact List.getElem?_set_self hlt

end NaviScheme
