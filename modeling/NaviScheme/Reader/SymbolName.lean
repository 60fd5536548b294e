import NaviScheme.Reader.Literal

/-!
# The names of symbols

`read_until` puts a character into its buffer as a byte if it is at most `0xFF`, and as UTF-8 if
it is greater. For the characters from `0x80` to `0xFF` that is not their encoding, so that the
name of a symbol is the encoding of its token exactly if there is none of them in it
(`NaviScheme.symbolName_iff`).
-/

namespace NaviScheme

/-- What `read_until` puts into its buffer for a character. -/
def bufferBytes (c : Char) : List UInt8 :=
  if 0xFF < c.toNat then String.utf8EncodeChar c else [toByte c.toNat]

/-- What `read_until` puts into its buffer for a token. -/
def tokenBytes (cs : List Char) : List UInt8 := cs.flatMap bufferBytes

/-- A character that `read_until` takes for a byte, while its encoding has two. -/
def IsLatin (c : Char) : Prop := 0x80 ≤ c.toNat ∧ c.toNat ≤ 0xFF

instance (c : Char) : Decidable (IsLatin c) := inferInstanceAs (Decidable (_ ∧ _))

variable {cs ds : List Char} {rest : List UInt8}

@[simp] theorem tokenBytes_nil : tokenBytes [] = [] := rfl

@[simp] theorem tokenBytes_cons (c : Char) (cs : List Char) :
    tokenBytes (c :: cs) = bufferBytes c ++ tokenBytes cs := rfl

/-! ### Names and encodings -/

theorem bufferBytes_of_not_isLatin {c : Char} (h : ¬ IsLatin c) :
    bufferBytes c = String.utf8EncodeChar c := by
  rw [bufferBytes]
  split_ifs with hc
  · rfl
  · have hlt : c.toNat < 128 := by
      simp only [IsLatin] at h
      omega
    rw [Utf8.utf8EncodeChar_ascii hlt, toByte]
    congr 2
    omega

theorem length_bufferBytes_le (c : Char) : (bufferBytes c).length ≤ c.utf8Size := by
  rw [bufferBytes]
  split_ifs
  · rw [String.length_utf8EncodeChar]
  · exact c.utf8Size_pos

theorem length_bufferBytes_lt {c : Char} (h : IsLatin c) : (bufferBytes c).length < c.utf8Size := by
  have hsize : c.utf8Size ≠ 1 := by
    rw [ne_eq, Utf8.utf8Size_eq_one_iff]
    have hle := h.1
    omega
  have hpos := c.utf8Size_pos
  rw [bufferBytes, if_neg (by have hle := h.2; omega), List.length_singleton]
  omega

theorem length_tokenBytes_le (cs : List Char) :
    (tokenBytes cs).length ≤ (Utf8.encode cs).length := by
  induction cs with
  | nil => exact le_rfl
  | cons c cs ih =>
    have hc := length_bufferBytes_le c
    rw [tokenBytes_cons, Utf8.encode_cons, List.length_append, List.length_append,
      String.length_utf8EncodeChar]
    omega

/-- **The buffer holds the encoding of a token** exactly if no character of it is taken for a
byte. -/
theorem tokenBytes_eq_iff : tokenBytes cs = Utf8.encode cs ↔ ∀ c ∈ cs, ¬ IsLatin c := by
  induction cs with
  | nil => simp
  | cons c cs ih =>
    rw [tokenBytes_cons, Utf8.encode_cons, List.forall_mem_cons]
    by_cases hc : IsLatin c
    · -- the buffer is shorter than the encoding
      refine iff_of_false (fun heq => ?_) fun h => h.1 hc
      have hlen := congrArg List.length heq
      have hlt := length_bufferBytes_lt hc
      have hle := length_tokenBytes_le cs
      rw [List.length_append, List.length_append, String.length_utf8EncodeChar] at hlen
      omega
    · rw [bufferBytes_of_not_isLatin hc, List.append_cancel_left_eq, ih]
      exact (and_iff_right hc).symm

theorem not_mem_tokenBytes (h : ∀ c ∈ cs, c.toNat ≠ 0) : ∀ b ∈ tokenBytes cs, b ≠ 0 := by
  intro b hb
  obtain ⟨c, hc, hb⟩ := List.mem_flatMap.mp hb
  have hpos := h c hc
  rw [bufferBytes] at hb
  rintro rfl
  split_ifs at hb with hbig
  · have hge := Utf8.le_of_mem_utf8EncodeChar (by omega) hb
    simp at hge
  · have hzero := congrArg UInt8.toNat (List.mem_singleton.mp hb)
    simp only [toByte, UInt8.toNat_ofNat'] at hzero
    change 0 = _ at hzero
    omega

/-! ### Reading a token -/

/-- What stops `read_until` is in front of the rest of a text. -/
def Stops (ctype : ℤ → Except ReadExn Bool) (rest : List UInt8) : Prop :=
  firstCode rest < 128 ∧ ctype (firstCode rest) = .ok true

/-- `read_until` takes a token, and returns what is in the buffer before the first NUL. -/
theorem reads_readUntil_token {ctype : ℤ → Except ReadExn Bool} (hrest : Stops ctype rest) :
    ∀ (cs : List Char) (str : List UInt8) (n : ℕ), (∀ c ∈ cs, ctype c.toNat = .ok false) →
      cs.length < n →
      Reads (readUntil ctype n str) (Utf8.encode cs ++ rest)
        ((str ++ tokenBytes cs).takeWhile (· ≠ 0)) rest := by
  intro cs
  induction cs with
  | nil =>
    intro str n _ hn
    obtain ⟨n, rfl⟩ := Nat.exists_eq_succ_of_ne_zero (Nat.ne_of_gt hn)
    refine (reads_peekChar rest hrest.1).bind ?_
    rw [hrest.2]
    refine (Reads.ret _ _).bind ?_
    rw [if_pos rfl, tokenBytes_nil, List.append_nil]
    exact Reads.ret _ _
  | cons c cs ih =>
    intro str n hcs hn
    obtain ⟨n, rfl⟩ := Nat.exists_eq_succ_of_ne_zero (Nat.ne_of_gt (Nat.zero_lt_of_lt hn))
    have hloop := fun str => ih str n (fun d hd => hcs d (List.mem_cons_of_mem _ hd))
      (Nat.lt_of_succ_lt_succ hn)
    rw [Utf8.encode_cons, List.append_assoc]
    refine (reads_peekChar_append c _).bind ?_
    rw [hcs c List.mem_cons_self]
    refine (Reads.ret _ _).bind ?_
    rw [if_neg Bool.false_ne_true]
    refine (reads_readChar_append c _).bind ?_
    rw [tokenBytes_cons, ← List.append_assoc, bufferBytes]
    split_ifs with hbig hbig' hbig'
    · have hsize := c.utf8Size_le_four
      rw [u8Append_toNat (by omega)]
      exact (Reads.ret _ _).bind (hloop _)
    · omega
    · omega
    · exact hloop _

/-! ### Symbols -/

/-- How a symbol is written. -/
inductive SymbolForm
  /-- up to a delimiter -/
  | bare
  /-- up to a delimiter, behind a character that has been read before -/
  | prefixed (first : Char)
  /-- between pipes -/
  | piped

namespace SymbolForm

/-- The function that reads it. -/
def read (n : ℕ) : SymbolForm → ReadM Datum
  | bare => readSymbol (fun c => .ok (isterminal c)) n
  | prefixed first => readSymbolWithPrefix first.toNat n
  | piped => readSymbol ispipe n

/-- The code points of the token, of which the characters `cs` are still to be read. -/
def token (cs : List Char) : SymbolForm → List Char
  | bare | piped => cs
  | prefixed first => first :: cs

/-- What ends the token. -/
def ctype : SymbolForm → ℤ → Except ReadExn Bool
  | bare | prefixed _ => fun c => .ok (isterminal c)
  | piped => ispipe

/-- The characters `cs`, of a token without NUL, are in front of what ends it. -/
structure Holds (form : SymbolForm) (cs : List Char) (rest : List UInt8) : Prop where
  /-- what ends the token -/
  stops : Stops form.ctype rest
  /-- the token does not end before -/
  inside : ∀ c ∈ cs, form.ctype c.toNat = .ok false
  /-- there is no NUL in it -/
  noNul : ∀ c ∈ cs, c.toNat ≠ 0
  /-- `navi_read` and `read_list` read these before -/
  first : ∀ c, form = prefixed c → c = '+' ∨ c = '-' ∨ c = '.'

/-- The name of the symbol. -/
def name (cs : List Char) : SymbolForm → List UInt8
  | bare | piped => tokenBytes cs
  | prefixed first => toByte first.toNat :: tokenBytes cs

variable {form form' : SymbolForm}

theorem Holds.reads (h : form.Holds cs rest) {n : ℕ} (hn : cs.length < n) :
    Reads (form.read n) (Utf8.encode cs ++ rest) (.symbol (form.name cs)) rest := by
  have htoken := reads_readUntil_token h.stops cs [] n h.inside hn
  rw [List.nil_append, List.takeWhile_eq_self_iff.2 (by simpa using not_mem_tokenBytes h.noNul)]
    at htoken
  cases form with
  | bare => exact htoken.bind ((reads_handleCase _ _).bind (Reads.ret _ _))
  | prefixed first => exact htoken.bind ((reads_handleCase _ _).bind (Reads.ret _ _))
  | piped => exact htoken.bind ((reads_handleCase _ _).bind (Reads.ret _ _))

theorem Holds.name_eq_iff (h : form.Holds cs rest) :
    form.name cs = Utf8.encode (form.token cs) ↔ ∀ c ∈ form.token cs, ¬ IsLatin c := by
  cases form with
  | bare => exact tokenBytes_eq_iff
  | piped => exact tokenBytes_eq_iff
  | prefixed first =>
    have hfirst : ¬ IsLatin first ∧ String.utf8EncodeChar first = [toByte first.toNat] := by
      obtain rfl | rfl | rfl := h.first first rfl
      all_goals exact ⟨by decide, by decide⟩
    rw [name, token, Utf8.encode_cons, hfirst.2, List.singleton_append, List.cons.injEq,
      and_iff_right rfl, tokenBytes_eq_iff, List.forall_mem_cons, and_iff_right hfirst.1]

end SymbolForm

/-- A token of one character, up to the end of the text. -/
theorem SymbolForm.holds_bare {c : Char} (hc : isterminal c.toNat = false) (hnul : c.toNat ≠ 0) :
    bare.Holds [c] [] where
  stops := ⟨by decide, rfl⟩
  inside d hd := by
    rw [List.mem_singleton.mp hd]
    exact congrArg Except.ok hc
  noNul d hd := by rwa [List.mem_singleton.mp hd]
  first := nofun

end NaviScheme
