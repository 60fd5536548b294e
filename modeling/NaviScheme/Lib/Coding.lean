import NaviScheme.Lib.Utf8

/-!
# Codings

A coding gives each letter a word of bytes; the words are not empty and a text is decoded in one
way only (`Coding`). UTF-8 is one (`Coding.utf8`), and so is a byte for a byte (`Coding.bytes`).
Programs keep an encoded text in memory, which is a function from positions to bytes here:
`BytesAt s i bs` says that the bytes `bs` stand in `s` from position `i` on.
-/

/-- A uniquely decodable code with non-empty words. -/
structure Coding (α : Type) where
  /-- The bytes of a letter. -/
  word : α → List UInt8
  word_ne_nil : ∀ a, word a ≠ []
  word_append_inj : ∀ {a b bs ds}, word a ++ bs = word b ++ ds → a = b ∧ bs = ds

namespace Coding

variable {α : Type} (C : Coding α)

/-- The bytes of a text. -/
def encode (as : List α) : List UInt8 := as.flatMap C.word

@[simp] theorem encode_nil : C.encode [] = [] := rfl

@[simp] theorem encode_cons (a : α) (as : List α) : C.encode (a :: as) = C.word a ++ C.encode as :=
  rfl

@[simp] theorem encode_append (as bs : List α) :
    C.encode (as ++ bs) = C.encode as ++ C.encode bs := by
  simp [encode]

theorem word_length_pos (a : α) : 0 < (C.word a).length :=
  List.length_pos_iff.2 (C.word_ne_nil a)

theorem length_le_encode (as : List α) : as.length ≤ (C.encode as).length := by
  induction as with
  | nil => exact le_refl _
  | cons a as ih =>
    have := C.word_length_pos a
    simp only [encode_cons, List.length_append, List.length_cons]
    omega

theorem encode_length_pos {as : List α} (h : as ≠ []) : 0 < (C.encode as).length :=
  (List.length_pos_iff.2 h).trans_le (C.length_le_encode as)

@[simp] theorem encode_replicate_length (n : ℕ) (a : α) :
    (C.encode (List.replicate n a)).length = n * (C.word a).length := by
  induction n with
  | zero => simp
  | succ n ih =>
    rw [List.replicate_succ, encode_cons, List.length_append, ih]
    rw [Nat.succ_mul, Nat.add_comm]

theorem encode_injective : Function.Injective C.encode := by
  intro as
  induction as with
  | nil =>
    intro bs h
    cases bs with
    | nil => rfl
    | cons b bs =>
      have := C.encode_length_pos (List.cons_ne_nil b bs)
      rw [← h] at this
      exact absurd this (lt_irrefl 0)
  | cons a as ih =>
    intro bs h
    cases bs with
    | nil =>
      have := C.encode_length_pos (List.cons_ne_nil a as)
      rw [h] at this
      exact absurd this (lt_irrefl 0)
    | cons b bs =>
      obtain ⟨rfl, h'⟩ := C.word_append_inj h
      rw [ih h']

/-- UTF-8. -/
def utf8 : Coding Char where
  word := String.utf8EncodeChar
  word_ne_nil c h := by
    have := c.utf8Size_pos
    rw [← String.length_utf8EncodeChar, h] at this
    exact lt_irrefl 0 this
  word_append_inj := Utf8.utf8EncodeChar_append_inj

/-- A byte for each letter. -/
def bytes : Coding UInt8 where
  word b := [b]
  word_ne_nil _ := List.cons_ne_nil _ _
  word_append_inj h := by simpa using h

@[simp] theorem encode_bytes (bs : List UInt8) : bytes.encode bs = bs := by
  simp [encode, bytes]

/-- Bytes each of which is a word are a text. -/
theorem exists_encode_eq (bs : List UInt8) (h : ∀ b ∈ bs, ∃ a, C.word a = [b]) :
    ∃ as, C.encode as = bs ∧ as.length = bs.length := by
  induction bs with
  | nil => exact ⟨[], rfl, rfl⟩
  | cons b bs ih =>
    obtain ⟨a, ha⟩ := h b List.mem_cons_self
    obtain ⟨as, has, hlen⟩ := ih fun b' hb' => h b' (List.mem_cons_of_mem b hb')
    exact ⟨a :: as, by rw [encode_cons, ha, has]; rfl, by simp [hlen]⟩

/-- Every byte is the word of a letter. -/
def OneByte : Prop := ∀ b, ∃ a, C.word a = [b]

/-- Then every word is a byte. -/
theorem OneByte.encode_length {C : Coding α} (hC : C.OneByte) (as : List α) :
    (C.encode as).length = as.length := by
  induction as with
  | nil => rfl
  | cons a as ih =>
    have hword : (C.word a).length = 1 := by
      cases ha : C.word a with
      | nil => exact absurd ha (C.word_ne_nil a)
      | cons b bs =>
        obtain ⟨a', ha'⟩ := hC b
        have heq : C.word a' ++ bs = C.word a ++ [] := by
          rw [ha, ha']
          simp
        rw [(C.word_append_inj heq).2]
        rfl
    rw [encode_cons, List.length_append, ih, hword, List.length_cons, Nat.add_comm]

end Coding

/-! ### Bytes in memory -/

/-- The bytes `bs` stand in `s` from position `i` on. -/
def BytesAt (s : ℕ → UInt8) (i : ℕ) (bs : List UInt8) : Prop :=
  ∀ j, (h : j < bs.length) → s (i + j) = bs[j]

namespace BytesAt

variable {s t : ℕ → UInt8} {i : ℕ} {b : UInt8} {bs ds : List UInt8}

@[simp] theorem nil : BytesAt s i [] := fun _ h => absurd h (Nat.not_lt_zero _)

@[simp] theorem singleton : BytesAt s i [b] ↔ s i = b := by
  constructor
  · intro h
    exact h 0 Nat.zero_lt_one
  · intro h j hj
    obtain rfl : j = 0 := Nat.lt_one_iff.1 hj
    exact h

theorem append : BytesAt s i (bs ++ ds) ↔ BytesAt s i bs ∧ BytesAt s (i + bs.length) ds := by
  constructor
  · refine fun h => ⟨fun j hj => ?_, fun j hj => ?_⟩
    · rw [h j (by rw [List.length_append]; omega), List.getElem_append_left hj]
    · have := h (bs.length + j) (by rw [List.length_append]; omega)
      rw [List.getElem_append_right (Nat.le_add_right _ _)] at this
      rw [Nat.add_assoc, this]
      simp
  · rintro ⟨hb, hd⟩ j hj
    rcases Nat.lt_or_ge j bs.length with hlt | hge
    · rw [List.getElem_append_left hlt, hb j hlt]
    · rw [List.length_append] at hj
      rw [List.getElem_append_right hge, ← hd (j - bs.length) (by omega)]
      congr 1
      omega

/-- What stands in `s` stands in every function that agrees with it there, with another start. -/
theorem congr {k : ℕ} (h : BytesAt s i bs) (hst : ∀ j < bs.length, t (k + j) = s (i + j)) :
    BytesAt t k bs := fun j hj => (hst j hj).trans (h j hj)

end BytesAt
