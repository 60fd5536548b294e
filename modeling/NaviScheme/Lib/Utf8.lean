import Mathlib.Data.List.Flatten
import Mathlib.Data.UInt

/-!
# UTF-8 on lists of bytes

Encoding a list of code points (`Utf8.encode`) and decoding the first code point of a list
of bytes (`Utf8.next?`), which is what programs that read a text from front to back do. The
encoding of a single code point and its decoding are the core library's
(`String.utf8EncodeChar`, `ByteArray.utf8DecodeChar?`).
-/

namespace Utf8

/-- The encoding of a list of code points. -/
def encode (cs : List Char) : List UInt8 := cs.flatMap String.utf8EncodeChar

@[simp] theorem encode_nil : encode [] = [] := rfl

@[simp] theorem encode_cons (c : Char) (cs : List Char) :
    encode (c :: cs) = String.utf8EncodeChar c ++ encode cs := rfl

@[simp] theorem encode_append (cs ds : List Char) :
    encode (cs ++ ds) = encode cs ++ encode ds := by
  simp [encode]

theorem length_le_encode (cs : List Char) : cs.length ≤ (encode cs).length := by
  induction cs with
  | nil => exact le_refl _
  | cons c cs ih =>
    have := c.utf8Size_pos
    simp only [encode_cons, List.length_append, String.length_utf8EncodeChar, List.length_cons]
    omega

/-- The first code point of a text, and what follows it. -/
def next? (bs : List UInt8) : Option (Char × List UInt8) :=
  (bs.toByteArray.utf8DecodeChar? 0).map fun c => (c, bs.drop c.utf8Size)

@[simp] theorem next?_append (c : Char) (bs : List UInt8) :
    next? (String.utf8EncodeChar c ++ bs) = some (c, bs) := by
  have h : (String.utf8EncodeChar c ++ bs).drop c.utf8Size = bs := by
    rw [← String.length_utf8EncodeChar]
    exact List.drop_left
  simp [next?, List.toByteArray_append, ByteArray.utf8DecodeChar?_utf8EncodeChar_append, h]

theorem eq_of_next? {bs ds : List UInt8} {c : Char} (h : next? bs = some (c, ds)) :
    bs = String.utf8EncodeChar c ++ ds := by
  simp only [next?, Option.map_eq_some_iff, Prod.mk.injEq] at h
  obtain ⟨c', hc, rfl, rfl⟩ := h
  obtain ⟨l, hl⟩ := ByteArray.exists_of_utf8DecodeChar?_eq_some hc
  have hbs : bs = String.utf8EncodeChar c' ++ l.data.toList := by
    have := congrArg (fun b => b.data.toList) hl
    simpa using this
  have hdrop : bs.drop c'.utf8Size = l.data.toList := by
    rw [hbs, ← String.length_utf8EncodeChar]
    exact List.drop_left
  rw [hdrop]
  exact hbs

theorem next?_eq_some_iff {bs ds : List UInt8} {c : Char} :
    next? bs = some (c, ds) ↔ bs = String.utf8EncodeChar c ++ ds :=
  ⟨eq_of_next?, fun h => h ▸ next?_append c ds⟩

@[simp] theorem next?_nil : next? [] = none := by
  rcases h : next? [] with _ | ⟨c, ds⟩
  · rfl
  · have := congrArg List.length (eq_of_next? h)
    have := c.utf8Size_pos
    simp only [List.length_nil, List.length_append, String.length_utf8EncodeChar] at *
    omega

theorem utf8EncodeChar_append_inj {c d : Char} {bs ds : List UInt8}
    (h : String.utf8EncodeChar c ++ bs = String.utf8EncodeChar d ++ ds) : c = d ∧ bs = ds := by
  have := next?_append c bs
  rw [h, next?_append] at this
  simpa [eq_comm] using this

theorem encode_injective : Function.Injective encode := by
  intro cs
  induction cs with
  | nil =>
    intro ds h
    cases ds with
    | nil => rfl
    | cons d ds =>
      have := congrArg List.length h
      have := d.utf8Size_pos
      simp only [encode_nil, encode_cons, List.length_nil, List.length_append,
        String.length_utf8EncodeChar] at *
      omega
  | cons c cs ih =>
    intro ds h
    cases ds with
    | nil =>
      have := congrArg List.length h
      have := c.utf8Size_pos
      simp only [encode_nil, encode_cons, List.length_nil, List.length_append,
        String.length_utf8EncodeChar] at *
      omega
    | cons d ds =>
      obtain ⟨rfl, h'⟩ := utf8EncodeChar_append_inj (by simpa using h)
      rw [ih h']

/-! ### The bytes of a code point -/

theorem utf8EncodeChar_ascii {c : Char} (h : c.toNat < 128) :
    String.utf8EncodeChar c = [UInt8.ofNat c.toNat] := by
  have h' : c.val.toNat ≤ 0x7f := by
    have : c.toNat = c.val.toNat := rfl
    omega
  simp only [String.utf8EncodeChar, h', if_true]
  rfl

/-- The code point of a number below 128 is the number. -/
theorem toNat_ofNat_ascii {n : ℕ} (h : n < 128) : (Char.ofNat n).toNat = n := by
  have hv : n.isValidChar := Or.inl (by omega)
  rw [Char.ofNat, dif_pos hv]
  rfl

theorem le_of_mem_utf8EncodeChar {c : Char} (h : 128 ≤ c.toNat) {b : UInt8}
    (hb : b ∈ String.utf8EncodeChar c) : 128 ≤ b.toNat := by
  have h' : ¬ c.val.toNat ≤ 0x7f := by
    have : c.toNat = c.val.toNat := rfl
    omega
  simp only [String.utf8EncodeChar, h', if_false] at hb
  split at hb
  · simp only [List.mem_cons, List.not_mem_nil, or_false] at hb
    rcases hb with rfl | rfl <;> simp only [UInt8.toNat_ofNat'] <;> omega
  · split at hb
    · simp only [List.mem_cons, List.not_mem_nil, or_false] at hb
      rcases hb with rfl | rfl | rfl <;> simp only [UInt8.toNat_ofNat'] <;> omega
    · simp only [List.mem_cons, List.not_mem_nil, or_false] at hb
      rcases hb with rfl | rfl | rfl | rfl <;> simp only [UInt8.toNat_ofNat'] <;> omega

/-- A byte below 128 is a byte of the text only as a code point of its own. -/
theorem ascii_mem_encode (cs : List Char) {b : UInt8} (hb : b.toNat < 128)
    (h : b ∈ encode cs) : ∃ c ∈ cs, c.toNat = b.toNat := by
  obtain ⟨c, hc, hbc⟩ := List.mem_flatMap.1 h
  rcases Nat.lt_or_ge c.toNat 128 with hlt | hge
  · refine ⟨c, hc, ?_⟩
    rw [utf8EncodeChar_ascii hlt, List.mem_singleton] at hbc
    rw [hbc, UInt8.toNat_ofNat']
    omega
  · have := le_of_mem_utf8EncodeChar hge hbc
    omega

theorem utf8Size_eq_one_iff {c : Char} : c.utf8Size = 1 ↔ c.toNat < 128 := by
  rw [Char.utf8Size_eq_one_iff]
  have : c.toNat = c.val.toNat := rfl
  rw [UInt32.le_iff_toNat_le, this]
  simp only [UInt32.reduceToNat]
  omega

/-! ### The first byte of a code point -/

/-- The byte is not the first one of a code point. -/
def Continues (b : UInt8) : Prop := 128 ≤ b.toNat ∧ b.toNat < 192

instance (b : UInt8) : Decidable (Continues b) := inferInstanceAs (Decidable (_ ∧ _))

/-- The first byte of a code point is told from the others. -/
theorem exists_lead (c : Char) : ∃ b bs, String.utf8EncodeChar c = b :: bs ∧
    ¬ Continues b ∧ ∀ b' ∈ bs, Continues b' := by
  have hbyte : ∀ n : ℕ, (UInt8.ofNat n).toNat = n % 256 := fun n => UInt8.toNat_ofNat'
  have hval : c.val.toNat < 0x110000 := by
    rcases c.valid with h | h
    · exact h.trans (by decide)
    · exact h.2
  simp only [String.utf8EncodeChar]
  split
  · refine ⟨_, _, rfl, ?_, by simp⟩
    simp only [Continues, hbyte]
    omega
  · split
    · refine ⟨_, _, rfl, ?_, List.forall_mem_singleton.mpr ?_⟩ <;>
        simp only [Continues, hbyte] <;> omega
    · split
      · refine ⟨_, _, rfl, ?_, List.forall_mem_cons.mpr ⟨?_, List.forall_mem_singleton.mpr ?_⟩⟩ <;>
          simp only [Continues, hbyte] <;> omega
      · refine ⟨_, _, rfl, ?_, List.forall_mem_cons.mpr ⟨?_,
          List.forall_mem_cons.mpr ⟨?_, List.forall_mem_singleton.mpr ?_⟩⟩⟩ <;>
          simp only [Continues, hbyte] <;> omega

theorem continues_iff {c : Char} {j : ℕ} (hj : j < (String.utf8EncodeChar c).length) :
    Continues (String.utf8EncodeChar c)[j] ↔ j ≠ 0 := by
  obtain ⟨b, bs, hc, hlead, htrail⟩ := exists_lead c
  simp only [hc] at hj ⊢
  cases j with
  | zero => simp [hlead]
  | succ j => simpa using htrail _ (List.getElem_mem (by simpa using hj))

end Utf8
