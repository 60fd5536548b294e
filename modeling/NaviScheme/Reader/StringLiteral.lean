import Mathlib.Tactic.Positivity
import NaviScheme.Reader.Literal

/-!
# What `read_string` returns

On a text that is well-formed UTF-8, whatever is in it, `read_string` returns no more bytes
than it takes, and less if it meets an escape
(`NaviScheme.readStringLoop_yields`). The functions that it calls are described by what
they leave of the text when they return at all (`NaviScheme.Yields`).
-/

namespace NaviScheme

variable {X : ReadEnv} {α β : Type}

/-- When a function returns on a text of code points, it leaves a text of code points. -/
def Yields (m : ReadM α) (Q : List Char → α → List Char → Prop) : Prop :=
  ∀ (p : Port) (es : List Char) (v : α) (p' : Port), p.Ready → p.unread = Utf8.encode es →
    m p = .ok (v, p') → p'.Ready ∧ ∃ fs, p'.unread = Utf8.encode fs ∧ Q es v fs

namespace Yields

variable {m : ReadM α} {Q R : List Char → α → List Char → Prop}

theorem imp (h : Yields m Q) (hQ : ∀ es v fs, Q es v fs → R es v fs) : Yields m R := by
  intro p es v p' hp hu hm
  obtain ⟨hp', fs, hu', hq⟩ := h p es v p' hp hu hm
  exact ⟨hp', fs, hu', hQ es v fs hq⟩

theorem ret (v : α) : Yields (pure v) fun es w fs => w = v ∧ fs = es := by
  intro p es w p' hp hu hm
  cases hm
  exact ⟨hp, es, hu, rfl, rfl⟩

theorem raise (e : ReadExn) : Yields (throw e : ReadM α) Q := by
  intro p es v p' hp hu hm
  exact nomatch hm

theorem bind {f : α → ReadM β} {S : α → List Char → β → List Char → Prop} (h : Yields m Q)
    (h' : ∀ v, Yields (f v) (S v)) :
    Yields (m >>= f) fun es w gs => ∃ v fs, Q es v fs ∧ S v fs w gs := by
  intro p es w p'' hp hu hm
  obtain ⟨⟨v, p'⟩, hm', hf⟩ := bind_eq_ok (show (m p >>= fun x => f x.1 x.2) = _ from hm)
  obtain ⟨hp', fs, hu', hq⟩ := h p es v p' hp hu hm'
  obtain ⟨hp'', gs, hu'', hs⟩ := h' v p' fs w p'' hp' hu' hf
  exact ⟨hp'', gs, hu'', v, fs, hq, hs⟩

theorem lift {x : Except ReadExn α} : Yields (liftM x) fun es w fs => x = .ok w ∧ fs = es := by
  intro p es w p' hp hu hm
  cases x with
  | error e => exact nomatch hm
  | ok v =>
    cases hm
    exact ⟨hp, es, hu, rfl, rfl⟩

/-- A function that is described by triples on every text. -/
theorem of_reads {Q : List Char → α → List Char → Prop}
    (h : ∀ es, ∃ v fs, Reads m (Utf8.encode es) v (Utf8.encode fs) ∧ Q es v fs) : Yields m Q := by
  intro p es w p' hp hu hm
  obtain ⟨v, fs, hr, hq⟩ := h es
  obtain ⟨rfl, hp', hu'⟩ := hr.eq_of_ok hp hu hm
  exact ⟨hp', fs, hu', hq⟩

end Yields

/-! ### The size of what is taken -/

/-- The number of bytes of a text. -/
def size (es : List Char) : ℕ := (Utf8.encode es).length

@[simp] theorem size_nil : size [] = 0 := rfl

@[simp] theorem size_cons (c : Char) (es : List Char) : size (c :: es) = c.utf8Size + size es := by
  simp [size]

theorem readChar_yields : Yields readChar fun es v fs =>
    (∃ c, es = c :: fs ∧ v = c.toNat) ∨ es = [] ∧ fs = [] ∧ v = eofValue := by
  refine Yields.of_reads fun es => ?_
  rcases es with _ | ⟨c, es⟩
  · exact ⟨eofValue, [], reads_readChar_nil, Or.inr ⟨rfl, rfl, rfl⟩⟩
  · exact ⟨c.toNat, es, reads_readChar_append c _, Or.inl ⟨c, rfl, rfl⟩⟩

theorem peekChar_yields : Yields peekChar fun es v fs =>
    fs = es ∧ ((∃ c gs, es = c :: gs ∧ v = c.toNat) ∨ es = [] ∧ v = eofValue) := by
  refine Yields.of_reads fun es => ?_
  rcases es with _ | ⟨c, es⟩
  · exact ⟨eofValue, [], reads_peekChar [] (by decide), rfl, Or.inr ⟨rfl, rfl⟩⟩
  · exact ⟨c.toNat, c :: es, reads_peekChar_append c _, rfl, Or.inl ⟨c, es, rfl, rfl⟩⟩

theorem ireadChar_yields : Yields ireadChar fun es v fs => ∃ c, es = c :: fs ∧ v = c.toNat := by
  have hcont : ∀ v : ℤ, Yields (if v = eofValue then throw unexpectedEof else pure v : ReadM ℤ)
      fun es w fs => v ≠ eofValue ∧ w = v ∧ fs = es := by
    intro v
    by_cases hv : v = eofValue
    · rw [if_pos hv]
      exact Yields.raise _
    · rw [if_neg hv]
      exact (Yields.ret v).imp fun _ _ _ h => ⟨hv, h⟩
  refine (readChar_yields.bind hcont).imp ?_
  rintro es w gs ⟨v, fs, ⟨c, rfl, rfl⟩ | ⟨rfl, rfl, rfl⟩, hv, rfl, rfl⟩
  · exact ⟨c, rfl, rfl⟩
  · exact absurd rfl hv

theorem ipeekChar_yields : Yields ipeekChar fun es v fs =>
    fs = es ∧ ∃ c gs, es = c :: gs ∧ v = c.toNat := by
  have hcont : ∀ v : ℤ, Yields (if v = eofValue then throw unexpectedEof else pure v : ReadM ℤ)
      fun es w fs => v ≠ eofValue ∧ w = v ∧ fs = es := by
    intro v
    by_cases hv : v = eofValue
    · rw [if_pos hv]
      exact Yields.raise _
    · rw [if_neg hv]
      exact (Yields.ret v).imp fun _ _ _ h => ⟨hv, h⟩
  refine (peekChar_yields.bind hcont).imp ?_
  rintro es w gs ⟨v, fs, ⟨rfl, ⟨c, hs, rfl, rfl⟩ | ⟨rfl, rfl⟩⟩, hv, rfl, rfl⟩
  · exact ⟨rfl, c, hs, rfl, rfl⟩
  · exact absurd rfl hv

/-! ### Escapes -/

theorem hexValue_bounds {c v : ℤ} (h : hexValue c = .ok v) : 0 ≤ v ∧ v < 16 := by
  have h0 : ('0').toNat = 48 := rfl
  have h9 : ('9').toNat = 57 := rfl
  have ha : ('a').toNat = 97 := rfl
  have hf : ('f').toNat = 102 := rfl
  have hA : ('A').toNat = 65 := rfl
  have hF : ('F').toNat = 70 := rfl
  simp only [hexValue, isdigit, ascii, decide_eq_true_eq] at h
  split_ifs at h
  all_goals (cases h; omega)

/-- The number after `\\x` is below what its digits can hold. -/
theorem readUnum_yields (k : ℕ) : ∀ n : ℤ, 0 ≤ n →
    Yields (readUnum 16 isxdigit hexValue k n) fun es v fs =>
      ∃ j : ℕ, j + size fs ≤ size es ∧ 0 ≤ v ∧ v < (n + 1) * 16 ^ j := by
  induction k with
  | zero => exact fun n _ => Yields.raise _
  | succ k ih =>
    intro n hn
    have hstep : ∀ c : ℤ, Yields (if isxdigit (toChar c) then do
        let d ← (hexValue (toChar c) : Except ReadExn ℤ)
        let _ ← readChar
        readUnum 16 isxdigit hexValue k ((n * 16 + d) % 2 ^ 64)
      else pure n : ReadM ℤ) fun es v fs =>
        (isxdigit (toChar c) = true ∧ ∃ gs, ((∃ c, es = c :: gs) ∨ es = []) ∧
          ∃ j : ℕ, j + size fs ≤ size gs ∧ 0 ≤ v ∧ v < (n + 1) * 16 ^ (j + 1)) ∨
        v = n ∧ fs = es := by
      intro c
      by_cases hx : isxdigit (toChar c) = true
      · rw [if_pos hx]
        refine (Yields.lift.bind fun d => readChar_yields.bind fun _ =>
          ih ((n * 16 + d) % 2 ^ 64) (by omega)).imp ?_
        rintro es v fs ⟨d, es', ⟨hd, rfl⟩, c', gs, hgs, j, hj, h0, hlt⟩
        obtain ⟨hd0, hd16⟩ := hexValue_bounds hd
        refine Or.inl ⟨hx, gs, ?_, j, hj, h0, ?_⟩
        · rcases hgs with ⟨c, hc, -⟩ | ⟨hnil, -⟩
          · exact Or.inl ⟨c, hc⟩
          · exact Or.inr hnil
        · have hle : (n * 16 + d) % 2 ^ 64 + 1 ≤ (n + 1) * 16 := by omega
          calc v < ((n * 16 + d) % 2 ^ 64 + 1) * 16 ^ j := hlt
            _ ≤ (n + 1) * 16 * 16 ^ j := mul_le_mul_of_nonneg_right hle (by positivity)
            _ = (n + 1) * 16 ^ (j + 1) := by ring
      · rw [if_neg hx]
        exact (Yields.ret n).imp fun _ _ _ h => Or.inr h
    refine (peekChar_yields.bind hstep).imp ?_
    rintro es v fs ⟨c, es', ⟨rfl, hc⟩, ⟨hx, gs, hgs, j, hj, h0, hlt⟩ | ⟨rfl, rfl⟩⟩
    · rcases hgs with ⟨d, rfl⟩ | rfl
      · have := d.utf8Size_pos
        rw [size_cons]
        exact ⟨j + 1, by omega, h0, hlt⟩
      · rcases hc with ⟨c, gs, h, -⟩ | ⟨-, rfl⟩
        · exact nomatch h
        · exact absurd hx (by decide)
    · exact ⟨0, by omega, hn, by simp⟩

theorem skipSpaces_yields (n : ℕ) : Yields (skipSpaces n) fun es v fs =>
    ∃ c : Char, v = c.toNat ∧ c.utf8Size + size fs ≤ size es := by
  induction n with
  | zero => exact Yields.raise _
  | succ n ih =>
    have hstep : ∀ v : ℤ, Yields (if isspace v then skipSpaces n else pure v : ReadM ℤ)
        fun es w fs => (∃ c : Char, w = c.toNat ∧ c.utf8Size + size fs ≤ size es) ∨
          w = v ∧ fs = es := by
      intro v
      by_cases hv : isspace v = true
      · rw [if_pos hv]
        exact ih.imp fun _ _ _ h => Or.inl h
      · rw [if_neg hv]
        exact (Yields.ret v).imp fun _ _ _ h => Or.inr h
    refine (ireadChar_yields.bind hstep).imp ?_
    rintro es w fs ⟨v, gs, ⟨c, rfl, rfl⟩, ⟨d, rfl, hd⟩ | ⟨rfl, rfl⟩⟩
    · exact ⟨d, rfl, by rw [size_cons]; omega⟩
    · exact ⟨c, rfl, by rw [size_cons]⟩

theorem u8Length_le (c : ℤ) : u8Length c ≤ 4 := by
  unfold u8Length
  split_ifs <;> omega

theorem u8Length_le_one {c : ℤ} (h : c < 128) : u8Length c ≤ 1 := by
  unfold u8Length
  split_ifs <;> omega

theorem u8Length_le_two {c : ℤ} (h : c < 256) : u8Length c ≤ 2 := by
  unfold u8Length
  split_ifs <;> omega

/-- The code point that an escape stands for has no more bytes than the escape has digits,
and one. -/
theorem u8Length_hex (X : ReadEnv) {u : ℤ} {j : ℕ} (h : 0 ≤ u) (h' : u < (0 + 1) * 16 ^ j) :
    u8Length (if X.uIsdefined (toInt32 u) then toInt32 u else ascii '?') ≤ 1 + j := by
  have hq : u8Length (ascii '?') ≤ 1 + j := by
    have : u8Length (ascii '?') = 1 := by decide
    omega
  split_ifs
  · rcases j with _ | _ | _ | j
    · have hu : toInt32 u = u := Int.bmod_eq_of_le (by omega) (by omega)
      rw [hu]
      exact le_trans (u8Length_le_one (by omega)) (by omega)
    · have hu : toInt32 u = u := Int.bmod_eq_of_le (by omega) (by omega)
      rw [hu]
      exact le_trans (u8Length_le_one (by omega)) (by omega)
    · have hu : toInt32 u = u := Int.bmod_eq_of_le (by omega) (by omega)
      rw [hu]
      exact le_trans (u8Length_le_two (by omega)) (by omega)
    · exact le_trans (u8Length_le _) (by omega)
  · exact hq

/-- What an escape stands for has no more bytes than what is behind the backslash. -/
theorem readStringEscape_yields (n : ℕ) : Yields (readStringEscape X n) fun es v fs =>
    u8Length v + size fs ≤ size es := by
  have hdone : ∀ {v : ℤ}, v < 128 → Yields (pure v : ReadM ℤ) fun es w fs =>
      u8Length w + size fs ≤ 1 + size es := by
    intro v hv
    refine (Yields.ret v).imp ?_
    rintro es w fs ⟨rfl, rfl⟩
    have := u8Length_le_one hv
    omega
  have hcont : ∀ v : ℤ, Yields (do
      let d ← ipeekChar
      if d = ascii ';' then do
        let _ ← readChar
        return v
      else return v : ReadM ℤ) fun es w fs => w = v ∧ size fs ≤ size es := by
    intro v
    have hstep : ∀ d : ℤ, Yields (if d = ascii ';' then do
          let _ ← readChar
          return v
        else return v : ReadM ℤ) fun es w fs => w = v ∧ size fs ≤ size es := by
      intro d
      by_cases hd : d = ascii ';'
      · rw [if_pos hd]
        refine (readChar_yields.bind fun _ => Yields.ret v).imp ?_
        rintro es w fs ⟨c, gs, ⟨c', rfl, -⟩ | ⟨rfl, rfl, -⟩, rfl, rfl⟩
        · exact ⟨rfl, by rw [size_cons]; omega⟩
        · exact ⟨rfl, le_refl _⟩
      · rw [if_neg hd]
        refine (Yields.ret v).imp ?_
        rintro es w fs ⟨rfl, rfl⟩
        exact ⟨rfl, le_refl _⟩
    refine (ipeekChar_yields.bind hstep).imp ?_
    rintro es w fs ⟨d, gs, ⟨rfl, -⟩, rfl, h⟩
    exact ⟨rfl, h⟩
  refine (ireadChar_yields.bind (S := fun _ es v fs => u8Length v + size fs ≤ 1 + size es)
    fun c => ?_).imp ?_
  · split_ifs with ha hb ht hnl hr hq hs hx
    · exact hdone (by omega)
    · exact hdone (by omega)
    · exact hdone (by omega)
    · exact hdone (by omega)
    · exact hdone (by omega)
    · refine hdone ?_
      have hp : ascii '|' = 124 := rfl
      simp only [doubleQuote, backslash, hp] at hq
      omega
    · refine (skipSpaces_yields n).imp ?_
      rintro es v fs ⟨d, rfl, hd⟩
      rw [u8Length_toNat]
      omega
    · refine ((readUnum_yields n 0 (le_refl 0)).bind fun u => hcont _).imp ?_
      rintro es v fs ⟨u, gs, ⟨j, hj, h0, hlt⟩, rfl, hsize⟩
      have := u8Length_hex X h0 hlt
      omega
    · exact Yields.raise _
  · rintro es v fs ⟨c, gs, ⟨d, rfl, rfl⟩, h⟩
    have := d.utf8Size_pos
    rw [size_cons]
    push_cast
    omega

/-! ### The whole string -/

theorem isValidChar_of_u8Length {c : ℤ} (h : u8Length c ≠ 0) : 0 ≤ c ∧ c.toNat.isValidChar := by
  simp only [u8Length] at h
  split_ifs at h
  all_goals omega

/-- `U8_LENGTH` of a code point is the number of its bytes. -/
theorem length_utf8EncodeChar_of_ne {c : ℤ} (h : u8Length c ≠ 0) :
    ((String.utf8EncodeChar (Char.ofNat c.toNat)).length : ℤ) = u8Length c := by
  obtain ⟨h0, hvalid⟩ := isValidChar_of_u8Length h
  have htoNat : (Char.ofNat c.toNat).toNat = c.toNat := by
    rw [Char.ofNat, dif_pos hvalid]
    rfl
  have hlen := u8Length_toNat (Char.ofNat c.toNat)
  rw [htoNat, Int.toNat_of_nonneg h0] at hlen
  rw [String.length_utf8EncodeChar, hlen]

/-- What `u8_append` writes. -/
theorem length_u8Append {data data' : List UInt8} {capacity c : ℤ}
    (h : u8Append data capacity c = .ok data') :
    data' = data ++ String.utf8EncodeChar (Char.ofNat c.toNat) ∧
      (data'.length : ℤ) = data.length + u8Length c := by
  have hne : u8Length c ≠ 0 ∧ data' = data ++ String.utf8EncodeChar (Char.ofNat c.toNat) := by
    rw [u8Append] at h
    split_ifs at h with h1 h2 h3
    · exact ⟨by omega, (Except.ok.inj h).symm⟩
    · exact ⟨h3.1, (Except.ok.inj h).symm⟩
  obtain ⟨hne, rfl⟩ := hne
  refine ⟨rfl, ?_⟩
  rw [List.length_append, ← length_utf8EncodeChar_of_ne hne]
  push_cast
  rfl

theorem size_append (es fs : List Char) : size (es ++ fs) = size es + size fs := by
  simp [size]

/-- What the loop of `read_string` returns: the text up to the next quote as it stands, if it
fits in the buffer, or fewer bytes than it has taken. -/
theorem readStringLoop_yields (n : ℕ) : ∀ (data : List UInt8) (length : ℕ),
    Yields (readStringLoop X n data length strBufLen) fun es v fs =>
      ∃ (data' : List UInt8) (length' : ℕ), v = .string data' length' ∧
        ((∃ us c, es = us ++ c :: fs ∧ c.toNat = 0x22 ∧ data' = data ++ Utf8.encode us ∧
          data'.length ≤ 64 ∧ ∀ u ∈ us, u.toNat ≠ 0x22 ∧ u.toNat ≠ 0x5C) ∨
        data'.length + size fs + 1 < data.length + size es) := by
  induction n with
  | zero => exact fun _ _ => Yields.raise _
  | succ n ih =>
    intro data length
    -- What the rest of the loop does with a code point.
    have hrest : ∀ c : ℤ, Yields (do
        let capacity := if data.length + u8Length c ≥ strBufLen then
          growStorage strBufLen 0 strBufStep else strBufLen
        let data ← (u8Append data capacity c : Except ReadExn (List UInt8))
        readStringLoop X n data (length + 1) capacity : ReadM Datum) fun es v fs =>
          ∃ (data' : List UInt8) (length' : ℕ), v = .string data' length' ∧
            ((∃ us d, es = us ++ d :: fs ∧ d.toNat = 0x22 ∧
              data' = data ++ String.utf8EncodeChar (Char.ofNat c.toNat) ++ Utf8.encode us ∧
              (data'.length : ℤ) = data.length + u8Length c + size us ∧ data'.length ≤ 64 ∧
              ∀ u ∈ us, u.toNat ≠ 0x22 ∧ u.toNat ≠ 0x5C) ∨
            (data'.length + size fs + 1 : ℤ) < data.length + u8Length c + size es) := by
      intro c
      have hcap : (if (data.length : ℤ) + u8Length c ≥ strBufLen then
          growStorage strBufLen 0 strBufStep else strBufLen) = strBufLen := by
        rw [growStorage_strBufLen, ite_self]
      simp only [hcap]
      refine (Yields.lift.bind fun data' => ih data' (length + 1)).imp ?_
      rintro es v fs ⟨data₁, gs, ⟨happ, rfl⟩, data', length', rfl, hcase⟩
      obtain ⟨hdata, hlen⟩ := length_u8Append happ
      refine ⟨data', length', rfl, ?_⟩
      rcases hcase with ⟨us, d, rfl, hd, hdata', h64, hus⟩ | hlt
      · refine Or.inl ⟨us, d, rfl, hd, by rw [hdata', hdata], ?_, h64, hus⟩
        rw [hdata', List.length_append]
        push_cast
        rw [hlen]
        rfl
      · refine Or.inr ?_
        omega
    refine (ireadChar_yields.bind (S := fun (c : ℤ) (es : List Char) (v : Datum) (fs : List Char) =>
      ∃ (data' : List UInt8) (length' : ℕ), v = .string data' length' ∧
        ∀ d : Char, c = d.toNat →
        ((∃ us q, d :: es = us ++ q :: fs ∧ q.toNat = 0x22 ∧ data' = data ++ Utf8.encode us ∧
          data'.length ≤ 64 ∧ ∀ u ∈ us, u.toNat ≠ 0x22 ∧ u.toNat ≠ 0x5C) ∨
        data'.length + size fs + 1 < data.length + size (d :: es))) fun c => ?_).imp ?_
    · by_cases hquote : c = doubleQuote
      · rw [if_pos hquote]
        by_cases h64 : (data.length : ℤ) ≤ strBufLen
        · rw [if_pos h64]
          refine (Yields.ret _).imp ?_
          rintro es v fs ⟨rfl, rfl⟩
          refine ⟨data, length, rfl, fun d hd => Or.inl ⟨[], d, rfl, ?_, by simp, ?_, by simp⟩⟩
          · simp only [doubleQuote] at hquote
            omega
          · simp only [strBufLen] at h64
            omega
        · rw [if_neg h64]
          exact Yields.raise _
      · rw [if_neg hquote]
        by_cases hback : c = backslash
        · rw [if_pos hback]
          refine ((readStringEscape_yields n).bind hrest).imp ?_
          rintro es v fs ⟨c', gs, hesc, data', length', rfl, hcase⟩
          refine ⟨data', length', rfl, fun d hd => Or.inr ?_⟩
          have hpos := d.utf8Size_pos
          rw [size_cons]
          rcases hcase with ⟨us, q, rfl, hq, -, hlen, -⟩ | hlt
          · rw [size_append, size_cons] at hesc
            have := q.utf8Size_pos
            have hq1 : q.utf8Size = 1 := Utf8.utf8Size_eq_one_iff.2 (by omega)
            omega
          · omega
        · rw [if_neg hback]
          refine ((Yields.ret c).bind hrest).imp ?_
          rintro es v fs ⟨c', gs, ⟨rfl, rfl⟩, data', length', rfl, hcase⟩
          refine ⟨data', length', rfl, ?_⟩
          rintro d rfl
          rw [u8Length_toNat, Int.toNat_natCast, Char.ofNat_toNat] at hcase
          rcases hcase with ⟨us, q, rfl, hq, hdata', -, h64, hus⟩ | hlt
          · refine Or.inl ⟨d :: us, q, rfl, hq, by simp [hdata'], h64, ?_⟩
            intro u hu
            rcases List.mem_cons.1 hu with rfl | hu
            · simp only [doubleQuote, backslash] at hquote hback
              exact ⟨by omega, by omega⟩
            · exact hus u hu
          · refine Or.inr ?_
            rw [size_cons]
            omega
    · rintro es v fs ⟨c, gs, ⟨d, rfl, rfl⟩, data', length', rfl, hcase⟩
      exact ⟨data', length', rfl, hcase d rfl⟩

/-! ### What is written of a string -/

theorem writeString_eq (data : List UInt8) (length : ℕ) :
    naviPortWrite .file (.string data length) =
      .ok (0x22 :: (data.takeWhile (· ≠ 0) ++ [0x22])) := by
  have hquote : naviPortWriteCstr .file [toByte doubleQuote] = .ok [0x22] := by
    rw [naviPortWriteCstr_nonzero (by decide)]
    rfl
  rw [naviPortWrite, naviDisplay_, writeString]
  simp only [if_true, hquote, naviPortWriteCstr_file]
  rfl

/-- What stands before the first NUL. -/
theorem encode_takeWhile (cs : List Char) :
    (Utf8.encode cs).takeWhile (· ≠ 0) = Utf8.encode (cs.takeWhile (·.toNat ≠ 0)) := by
  induction cs with
  | nil => rfl
  | cons c cs ih =>
    by_cases hc : c.toNat = 0
    · have henc : String.utf8EncodeChar c = [0] := by
        rw [Utf8.utf8EncodeChar_ascii (by omega), hc]
        rfl
      rw [Utf8.encode_cons, henc, List.takeWhile_cons_of_neg (by simp [hc])]
      rfl
    · have hne : ∀ b ∈ String.utf8EncodeChar c, (decide (b ≠ 0)) = true := by
        intro b hb
        rw [decide_eq_true_eq]
        rintro rfl
        obtain ⟨d, hd, hdn⟩ := Utf8.ascii_mem_encode [c] (b := 0) (by decide) (by simpa using hb)
        rw [List.mem_singleton.1 hd] at hdn
        exact hc hdn
      rw [Utf8.encode_cons, List.takeWhile_append_of_pos hne, ih,
        List.takeWhile_cons_of_pos (by simpa using hc), Utf8.encode_cons]

/-- A code point of one byte is a byte of the text. -/
theorem mem_encode_of_ascii {cs : List Char} {c : Char} (h : c ∈ cs) (hc : c.toNat < 128) :
    UInt8.ofNat c.toNat ∈ Utf8.encode cs := by
  refine List.mem_flatMap.2 ⟨c, h, ?_⟩
  rw [Utf8.utf8EncodeChar_ascii hc]
  exact List.mem_singleton_self _

theorem roundTrips_string {cs : List Char}
    (h : Datum.WritesBack X (.string (Utf8.encode cs) cs.length)) :
    RoundTrips X (.string (Utf8.encode cs) cs.length) := by
  obtain ⟨hlen, hquote, hback, hnul⟩ := h
  have hcs : ∀ c ∈ cs, c.toNat ≠ 0x22 ∧ c.toNat ≠ 0x5C := by
    intro c hc
    refine ⟨fun hq => hquote ?_, fun hb => hback ?_⟩
    · have := mem_encode_of_ascii hc (by omega)
      rwa [hq] at this
    · have := mem_encode_of_ascii hc (by omega)
      rwa [hb] at this
  refine (parses_string (X := X) hcs hlen).roundTrips ?_
  rw [writeString_eq, List.takeWhile_eq_self_iff.2]
  intro b hb
  rw [decide_eq_true_eq]
  rintro rfl
  exact hnul hb

/-- When `navi_read` returns on a text that begins with a quote, `read_string` does. -/
theorem readString_of_naviRead {n : ℕ} (hn : 0 < n) {bs : List UInt8} {p p'' : Port} {d : Datum}
    (hp : p.Ready) (hu : p.unread = 0x22 :: bs) (h : naviRead X (n + 1) p = .ok (d, p'')) :
    ∃ p' : Port, p'.Ready ∧ p'.unread = bs ∧ readString X n p' = .ok (d, p'') := by
  rw [naviRead] at h
  obtain ⟨p₁, hp₁, hu₁, h⟩ := (reads_peekFirstChar_cons (by decide) (by decide) []
    (fun _ h => absurd h List.not_mem_nil) hn).ok_of_bind hp hu h
  rw [if_neg (by decide), if_pos (by decide)] at h
  obtain ⟨p₂, hp₂, hu₂, h⟩ := (reads_readChar (by decide)).ok_of_bind hp₁ hu₁ h
  exact ⟨p₂, hp₂, hu₂, h⟩

/-- A string that is read back has no quote, no backslash and no NUL, and is short. -/
theorem writesBack_of_roundTrips_string {cs : List Char}
    (h : RoundTrips X (.string (Utf8.encode cs) cs.length)) :
    Datum.WritesBack X (.string (Utf8.encode cs) cs.length) := by
  obtain ⟨-, hround⟩ := h
  obtain ⟨n₀, hread⟩ := hround .file _ (writeString_eq _ _) [] (Port.openOn .file _) rfl
    (Port.openOn_ready _ _) (by rw [Port.unread_openOn, List.append_nil])
  obtain ⟨d', p'', hok, heq, -, hu⟩ := hread (n₀ + 1 + 1) (by omega)
  obtain ⟨p', hp', hu', hok⟩ := readString_of_naviRead (by omega) (Port.openOn_ready _ _) rfl hok
  have hquote : String.utf8EncodeChar (Char.ofNat 0x22) = [0x22] := by decide
  have htext : (Utf8.encode cs).takeWhile (· ≠ 0) ++ [0x22] =
      Utf8.encode (cs.takeWhile (·.toNat ≠ 0) ++ [Char.ofNat 0x22]) := by
    rw [encode_takeWhile, Utf8.encode_append, Utf8.encode_cons, hquote]
    rfl
  rw [htext] at hu'
  obtain ⟨-, fs, hfs, data, length, rfl, hcase⟩ :=
    readStringLoop_yields (X := X) _ [] 0 p' _ _ _ hp' hu' hok
  have hnil : fs = [] := Utf8.encode_injective (hfs.symm.trans hu)
  subst hnil
  have hdata : Utf8.encode cs = data := by
    simp only [naviEqualp, Bool.and_eq_true, beq_iff_eq] at heq
    exact heq.2
  have hle : size (cs.takeWhile (·.toNat ≠ 0)) ≤ size cs := by
    simp only [size, ← encode_takeWhile]
    exact (List.takeWhile_prefix _).length_le
  have hone : (Char.ofNat 0x22).utf8Size = 1 := by decide
  rcases hcase with ⟨us, q, hus, hq, hdata', h64, hplain⟩ | hlt
  · obtain ⟨hus, -⟩ := List.append_inj' hus rfl
    rw [List.nil_append] at hdata'
    have hcs : us = cs := Utf8.encode_injective (hdata'.symm.trans hdata.symm)
    rw [hcs] at hus hplain
    have hmem : ∀ {b : UInt8}, b.toNat < 128 → b ∈ Utf8.encode cs →
        ∃ c ∈ cs, c.toNat = b.toNat := fun hb hm => Utf8.ascii_mem_encode cs hb hm
    refine ⟨hdata ▸ h64, fun hm => ?_, fun hm => ?_, fun hm => ?_⟩
    · obtain ⟨c, hc, hcn⟩ := hmem (by decide) hm
      exact (hplain c hc).1 hcn
    · obtain ⟨c, hc, hcn⟩ := hmem (by decide) hm
      exact (hplain c hc).2 hcn
    · obtain ⟨c, hc, hcn⟩ := hmem (by decide) hm
      have := List.takeWhile_eq_self_iff.1 hus c hc
      simp only [ne_eq, decide_not, Bool.not_eq_eq_eq_not, Bool.not_true,
        decide_eq_false_iff_not] at this
      exact this hcn
  · rw [size_append, size_cons, hone] at hlt
    rw [← hdata] at hlt
    simp only [List.length_nil, size] at hlt hle
    omega

/-! ### All literals -/

theorem not_roundTrips_bytevec_nil : ¬ RoundTrips X (.bytevec []) := by
  have hd : naviPortWrite .file (.bytevec []) = .ok (35 :: cstr "u8(") := by
    rw [naviPortWrite, naviDisplay_, writeBytevec, naviPortWriteCstr_nonzero (by decide)]
    rfl
  refine not_roundTrips_of_fails hd 4 fun n hn => ?_
  obtain ⟨n, rfl⟩ := Nat.exists_eq_add_of_le hn
  have hn' : 4 + n = n + 1 + 1 + 1 + 1 := by omega
  have htext : cstr "u8(" = [117, 56, 40] := by decide
  rw [hn', htext]
  refine fails_naviRead_sharp (by omega) ?_
  rw [readSharp]
  refine (reads_ireadChar (by decide)).fails ?_
  rw [toChar_byte (by decide), if_neg (by decide), if_neg (by decide), if_neg (by decide),
    if_pos (by decide)]
  refine (reads_ireadChar (by decide)).fails ?_
  rw [toChar_byte (by decide), if_neg (by decide)]
  refine (reads_ireadChar (by decide)).fails ?_
  rw [toChar_byte (by decide), if_neg (by decide)]
  -- `read_list` meets the end of the text.
  refine Fails.bind ?_
  rw [readList]
  refine Fails.bind ?_
  refine (reads_peekFirstChar [] (by decide) (by decide) [] (n + 1)
    (fun _ h => absurd h List.not_mem_nil) (by simp only [List.length_nil]; omega)).fails ?_
  rw [if_pos (by decide)]
  exact fails_throw _ _

/-- **Which literals are read back.** For a string of any code points, a character that the
reader or an operation on strings makes, and a bytevector: what `write` emits for it, in
front of a delimiter, is read back as an `equal?` object, and is exactly what is taken from
the port, if and only if it has a literal of its own. -/
theorem roundTrips_iff_writesBack {d : Datum} (h : d.Literal) :
    RoundTrips X d ↔ d.WritesBack X := by
  cases h with
  | string cs => exact ⟨writesBack_of_roundTrips_string, roundTrips_string⟩
  | char c hmin hmax => exact ⟨writesBack_of_roundTrips_char hmin hmax, roundTrips_char hmax⟩
  | bytevec bs =>
    refine ⟨?_, fun hne => ?_⟩
    · rintro h rfl
      exact not_roundTrips_bytevec_nil h
    · obtain ⟨text, hd, hp⟩ := (readable_bytevec (X := X) hne).1
      exact hp.roundTrips hd

/-- `"a"` is read back. -/
theorem roundTrips_iff_writesBack_a : RoundTrips allDefined (.string [97] 1) ↔
    Datum.WritesBack allDefined (.string [97] 1) :=
  roundTrips_iff_writesBack (.string [Char.ofNat 97])

/-- The string of one double quote is not read back. -/
theorem not_roundTrips_doubleQuote : ¬ ∀ d : Datum, d.Literal → RoundTrips allDefined d := by
  intro h
  have := writesBack_of_roundTrips_string (h _ (.string [Char.ofNat 0x22]))
  exact this.2.1 (by decide)

end NaviScheme
