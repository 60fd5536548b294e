import Mathlib.Tactic.Ring
import NaviScheme.Reader.RoundTrip

/-!
# Characters, strings and bytevectors

`write` and `read` do not agree on every character and string: `write_string` quotes
nothing and stops at a NUL, the buffer of `read_string` never grows, `write_char` leaves
delimiters as they are, and `write_bytevec` does not close an empty bytevector. What is
written is read back exactly if none of this is met
(`NaviScheme.roundTrips_iff_writesBack`).

For the one direction, the reader is followed on the text that is written. For the other,
what `read_string` returns is never longer than what it takes, and shorter if there is an
escape in it (`NaviScheme.readStringLoop_yields`), so that nothing but the content itself,
without escapes, can give back a string.
-/

namespace NaviScheme

/-- The objects with a literal of their own: strings of any code points, the characters that
the reader and the operations on strings make, and bytevectors. A character of one byte
from 128 on is read as a negative number. -/
inductive Datum.Literal : Datum → Prop
  | string (cs : List Char) : Literal (.string (Utf8.encode cs) cs.length)
  | char (c : ℤ) : -128 ≤ c → c ≤ 0x10FFFF → Literal (.char c)
  | bytevec (bs : List UInt8) : Literal (.bytevec bs)

/-- What is written of a literal is a literal of the same object: a string has no quote, no
backslash and no NUL, and fits in the first buffer of `read_string`; a character is neither
a delimiter nor undefined; a bytevector is not empty. -/
def Datum.WritesBack (X : ReadEnv) : Datum → Prop
  | .string data _ => data.length ≤ 64 ∧ 0x22 ∉ data ∧ 0x5C ∉ data ∧ 0 ∉ data
  | .char c => 0 ≤ c ∧ c ≤ 127 ∧ c ≠ 0xB ∧ c ≠ 0xC ∧ c ≠ 0x28 ∧ c ≠ 0x29 ∨
      127 < c ∧ X.uIsdefined c = true
  | .bytevec data => data ≠ []
  | _ => True

variable {X : ReadEnv}

/-! ### Strings that are read back -/

theorem u8Length_toNat (c : Char) : u8Length c.toNat = c.utf8Size := by
  have hc : c.toNat = c.val.toNat := rfl
  have hvalid : c.val.toNat < 0xD800 ∨ 0xDFFF < c.val.toNat ∧ c.val.toNat < 0x110000 := c.valid
  rw [hc]
  simp only [u8Length, Char.utf8Size, UInt32.le_iff_toNat_le]
  have h1 : (UInt32.ofNatLT 0x7F (by decide)).toNat = 127 := rfl
  have h2 : (UInt32.ofNatLT 0x7FF (by decide)).toNat = 2047 := rfl
  have h3 : (UInt32.ofNatLT 0xFFFF (by decide)).toNat = 65535 := rfl
  rw [h1, h2, h3]
  split_ifs <;> omega

theorem growStorage_strBufLen : growStorage strBufLen 0 strBufStep = strBufLen := by decide

/-- A code point that fits is appended. -/
theorem u8Append_toNat {data : List UInt8} {c : Char} {capacity : ℤ}
    (h : (data.length : ℤ) + c.utf8Size ≤ capacity) :
    u8Append data capacity c.toNat = .ok (data ++ String.utf8EncodeChar c) := by
  have hpos := c.utf8Size_pos
  rw [u8Append, u8Length_toNat, Int.toNat_natCast, Char.ofNat_toNat]
  split_ifs with h1 h2 h3
  · rfl
  · omega
  · rfl
  · omega

theorem reads_readStringLoop (rest : List UInt8) :
    ∀ (cs done : List Char) (n : ℕ), (∀ c ∈ cs, c.toNat ≠ 0x22 ∧ c.toNat ≠ 0x5C) →
      (Utf8.encode (done ++ cs)).length ≤ 64 → cs.length < n →
      Reads (readStringLoop X n (Utf8.encode done) done.length strBufLen)
        (Utf8.encode cs ++ 0x22 :: rest)
        (.string (Utf8.encode (done ++ cs)) (done ++ cs).length) rest := by
  intro cs
  induction cs with
  | nil =>
    intro done n _ hlen hn
    obtain ⟨n, rfl⟩ := Nat.exists_eq_succ_of_ne_zero (Nat.ne_of_gt hn)
    refine (reads_ireadChar (b := 0x22) (by decide)).bind ?_
    rw [List.append_nil] at hlen ⊢
    rw [if_pos (by decide), if_pos (by simp only [strBufLen]; omega)]
    exact Reads.ret _ _
  | cons c cs ih =>
    intro done n hcs hlen hn
    obtain ⟨n, rfl⟩ := Nat.exists_eq_succ_of_ne_zero (Nat.ne_of_gt (Nat.zero_lt_of_lt hn))
    obtain ⟨hquote, hback⟩ := hcs c List.mem_cons_self
    have hfit : ((Utf8.encode done).length : ℤ) + c.utf8Size ≤ strBufLen := by
      simp only [Utf8.encode_append, Utf8.encode_cons, List.length_append,
        String.length_utf8EncodeChar] at hlen
      simp only [strBufLen]
      omega
    rw [Utf8.encode_cons, List.append_assoc]
    refine (reads_ireadChar_append c _).bind ?_
    rw [if_neg (by simp only [doubleQuote]; omega), if_neg (by simp only [backslash]; omega)]
    refine (Reads.ret _ _).bind ?_
    have hcap : (if ((Utf8.encode done).length : ℤ) + u8Length c.toNat ≥ strBufLen then
        growStorage strBufLen 0 strBufStep else strBufLen) = strBufLen := by
      rw [growStorage_strBufLen, ite_self]
    simp only [hcap]
    rw [u8Append_toNat hfit]
    refine (Reads.ret _ _).bind ?_
    have hloop := ih (done ++ [c]) n (fun d hd => hcs d (List.mem_cons_of_mem _ hd))
      (by simpa using hlen) (by simp only [List.length_cons] at hn; omega)
    simpa using hloop

theorem parses_string {cs : List Char} (hcs : ∀ c ∈ cs, c.toNat ≠ 0x22 ∧ c.toNat ≠ 0x5C)
    (hlen : (Utf8.encode cs).length ≤ 64) :
    Parses X (.string (Utf8.encode cs) cs.length) (0x22 :: (Utf8.encode cs ++ [0x22])) := by
  refine ⟨⟨0x22, _, rfl, by decide⟩, rfl, rfl, ?_, ?_⟩
  · intro bs hbs
    exact absurd (List.cons.inj hbs).1 (by decide)
  · intro _ ws rest n hws hr hn
    obtain ⟨n, rfl⟩ := Nat.exists_eq_succ_of_ne_zero (Nat.ne_of_gt (Nat.zero_lt_of_lt hn))
    simp only [List.length_cons, List.length_append, List.length_nil] at hn
    have hsize := Utf8.length_le_encode cs
    rw [NaviScheme.naviRead]
    refine (reads_peekFirstChar_cons (by decide) (by decide) ws hws (by omega)).bind ?_
    rw [if_neg (by decide), if_pos (by decide)]
    refine (reads_readChar (by decide)).bind ?_
    have hloop := reads_readStringLoop (X := X) rest cs [] n hcs hlen (by omega)
    have happ : Utf8.encode cs ++ [0x22] ++ rest = Utf8.encode cs ++ 0x22 :: rest := by simp
    change Reads (readString X n) (Utf8.encode cs ++ [0x22] ++ rest) _ rest
    rw [happ]
    exact hloop

/-! ### Characters that are read back -/

/-- `read_character` takes a text, up to a delimiter. -/
def CharReads (X : ReadEnv) (str : List UInt8) (c : ℤ) : Prop :=
  ∀ (rest : List UInt8) (n : ℕ), Delimited rest → str.length < n →
    Reads (readCharacter X n) (str ++ rest) (.char c) rest

theorem CharReads.parses {str : List UInt8} {c : ℤ} (h : CharReads X str c) :
    Parses X (.char c) (35 :: 92 :: str) := by
  refine ⟨⟨35, _, rfl, by decide⟩, rfl, rfl, ?_, fun hne => absurd rfl (hne _)⟩
  intro bs hbs rest n hr hn
  obtain ⟨-, rfl⟩ := List.cons.inj hbs
  obtain ⟨n, rfl⟩ := Nat.exists_eq_succ_of_ne_zero (Nat.ne_of_gt (Nat.zero_lt_of_lt hn))
  simp only [List.length_cons] at hn
  rw [NaviScheme.readSharp]
  refine (reads_ireadChar (by decide)).bind ?_
  rw [toChar_byte (by decide), if_neg (by decide), if_pos (by decide)]
  exact h rest n hr (by omega)

theorem namedChars_spec : ∀ e ∈ namedChars, (cstr e.1).all (NameByte ·) ∧
    2 ≤ (cstr e.1).length ∧ (cstr e.1).head? ≠ some (toByte (ascii 'x')) ∧
    (namedChars.find? fun e' => cstr e'.1 = cstr e.1) = some e := by
  decide

theorem nameByte_namedChars {e : String × ℤ} (h : e ∈ namedChars) : ∀ b ∈ cstr e.1, NameByte b := by
  simpa using (namedChars_spec e h).1

/-- A named character. -/
theorem charReads_named {name : String} {c : ℤ} (h : (name, c) ∈ namedChars) :
    CharReads X (cstr name) c := by
  obtain ⟨-, hlen, hx, hfind⟩ := namedChars_spec _ h
  intro rest n hr hn
  refine (reads_readUntilTerminal hr (cstr name) (nameByte_namedChars h) hn).bind ?_
  obtain ⟨b, d, bs, hbs⟩ : ∃ b d bs, cstr name = b :: d :: bs := by
    rcases hstr : cstr name with _ | ⟨b, _ | ⟨d, bs⟩⟩
    · simp [hstr] at hlen
    · simp [hstr] at hlen
    · exact ⟨b, d, bs, rfl⟩
  rw [hbs] at hx hfind ⊢
  refine (reads_handleCase _ _).bind ?_
  rw [if_neg hx, hfind]
  exact Reads.ret _ _

/-- A character of its own. -/
theorem charReads_raw {b : UInt8} (h : NameByte b) : CharReads X [b] b.toNat := by
  intro rest n hr hn
  refine (reads_readUntilTerminal hr [b] (by simpa using h) hn).bind ?_
  rw [← toChar_byte h.1]
  exact Reads.ret _ _

/-- The value of a hexadecimal digit. -/
def hexByte (b : UInt8) : ℤ :=
  match hexValue (toChar b.toNat) with
  | .ok v => v
  | .error _ => 0

theorem hexByte_eq {b : UInt8} {v : ℤ} (hlt : b.toNat < 128) (h : hexValue b.toNat = .ok v) :
    hexByte b = v := by
  unfold hexByte
  rw [toChar_byte hlt, h]

theorem hexDigits_eq_foldl {ds : List UInt8} (h : ∀ d ∈ ds, d.toNat < 128 ∧
    isxdigit d.toNat = true ∧ ∃ v, hexValue d.toNat = .ok v) (ch : ℤ) :
    hexDigits ds ch = .ok (ds.foldl (fun n d => toInt32 (n * 16 + hexByte d)) ch) := by
  induction ds generalizing ch with
  | nil => rfl
  | cons d ds ih =>
    obtain ⟨hlt, hx, v, hv⟩ := h d List.mem_cons_self
    have hb := hexByte_eq hlt hv
    rw [hexDigits, toChar_byte hlt, if_pos hx, hv, ok_bind,
      ih fun e he => h e (List.mem_cons_of_mem _ he), List.foldl_cons, hb]

/-- The digits that `write_char` prints give the code point back. -/
theorem hexDigits_hexadecimal {n : ℕ} (h : n < 2 ^ 31) :
    hexDigits (digitBytes 16 n) 0 = .ok (n : ℤ) := by
  rw [hexDigits_eq_foldl]
  · congr 1
    refine foldl_digitBytes (by decide) (2 ^ 31) ?_ n h
    intro m d hd hlt
    obtain ⟨hlt', -, hv⟩ := digitByte_hex hd
    have hb := hexByte_eq hlt' hv
    simp only [hb]
    rw [toInt32, Int.bmod_eq_of_le (by omega) (by omega)]
    push_cast
    ring
  · intro b hb
    obtain ⟨d, hd, rfl⟩ := mem_digitBytes (by decide) n hb
    obtain ⟨hlt, hx, hv⟩ := digitByte_hex hd
    exact ⟨hlt, hx, _, hv⟩

theorem nameByte_of_isxdigit {b : UInt8} (hlt : b.toNat < 128) (h : isxdigit b.toNat = true) :
    NameByte b := by
  have hb : 48 ≤ b.toNat ∧ b.toNat ≤ 57 ∨ 97 ≤ b.toNat ∧ b.toNat ≤ 102 ∨
      65 ≤ b.toNat ∧ b.toNat ≤ 70 := by
    simp only [isxdigit, decide_eq_true_eq, isdigit_byte, ascii] at h
    have ha : ('a').toNat = 97 := rfl
    have hf : ('f').toNat = 102 := rfl
    have hA : ('A').toNat = 65 := rfl
    have hF : ('F').toNat = 70 := rfl
    omega
  refine ⟨hlt, ?_, ?_⟩
  · rintro rfl
    simp at hb
  · simp only [isterminal, isspace, ascii, eofValue, decide_eq_false_iff_not, decide_eq_true_eq]
    have h2 : ('(').toNat = 40 := rfl
    have h3 : (')').toNat = 41 := rfl
    omega

/-- The digits of a code point above 127: there are at least two. -/
theorem hexadecimal_spec {c : ℤ} (h : 127 < c) (h' : c ≤ 0x10FFFF) :
    (∀ b ∈ 120 :: hexadecimal c, NameByte b) ∧ hexadecimal c ≠ [] ∧
      hexDigits (hexadecimal c) 0 = .ok c := by
  obtain ⟨n, rfl⟩ := Int.eq_ofNat_of_zero_le (show 0 ≤ c by omega)
  have htext : hexadecimal n = digitBytes 16 n := rfl
  rw [htext]
  refine ⟨?_, digitBytes_ne_nil 16 n, hexDigits_hexadecimal (by omega)⟩
  intro b hb
  rcases List.mem_cons.1 hb with rfl | hb
  · decide
  · obtain ⟨d, hd, rfl⟩ := mem_digitBytes (by decide) n hb
    obtain ⟨hlt, hx, -⟩ := digitByte_hex hd
    exact nameByte_of_isxdigit hlt hx

/-- A code point in hexadecimal digits. -/
theorem charReads_hexadecimal {c : ℤ} (h : 127 < c) (h' : c ≤ 0x10FFFF)
    (hdef : X.uIsdefined c = true) : CharReads X (120 :: hexadecimal c) c := by
  obtain ⟨hname, hne, hdig⟩ := hexadecimal_spec h h'
  obtain ⟨b, bs, hbs⟩ := List.exists_cons_of_ne_nil hne
  intro rest n hr hn
  refine (reads_readUntilTerminal hr _ hname hn).bind ?_
  rw [hbs] at hdig ⊢
  refine (reads_handleCase _ _).bind ?_
  rw [List.head?_cons, if_pos (by decide), List.tail_cons, hdig]
  refine (Reads.ret _ _).bind ?_
  rw [if_pos hdef]
  exact Reads.ret _ _

/-- The text of a character. -/
theorem naviPortWrite_char (c : ℤ) :
    naviPortWrite .file (.char c) = .ok ((charText c).takeWhile (· ≠ 0)) := by
  rw [naviPortWrite, naviDisplay_, naviPortWriteCstr_file]

theorem naviCharName_spec {c : ℤ} {name : String} (h : naviCharName c = some name) :
    (name, c) ∈ namedChars := by
  rw [naviCharName, Option.map_eq_some_iff] at h
  obtain ⟨e, he, rfl⟩ := h
  have hc : e.2 = c := by simpa using List.find?_some he
  rw [← hc]
  exact List.mem_of_find?_eq_some he

theorem charText_named {c : ℤ} {name : String} (h : naviCharName c = some name) :
    charText c = cstr "#\\" ++ cstr name := by
  rw [charText, h]

theorem charText_raw {c : ℤ} (h : naviCharName c = none) (h' : c ≤ 127) :
    charText c = cstr "#\\" ++ [toByte c] := by
  rw [charText, h]
  simp only
  rw [if_neg (by omega)]

theorem charText_hexadecimal {c : ℤ} (h : naviCharName c = none) (h' : 127 < c) :
    charText c = cstr "#\\" ++ (120 :: hexadecimal c) := by
  have hx : cstr "#\\x" = cstr "#\\" ++ [120] := by decide
  rw [charText, h]
  simp only
  rw [if_pos h', hx, List.append_assoc]
  rfl

/-- A character whose text has no NUL in it. -/
theorem writeChar_eq {c : ℤ} {str : List UInt8} (h : charText c = cstr "#\\" ++ str)
    (hstr : ∀ b ∈ str, b ≠ 0) : naviPortWrite .file (.char c) = .ok (35 :: 92 :: str) := by
  have hpre : cstr "#\\" = [35, 92] := by decide
  rw [naviPortWrite_char, h, hpre, List.takeWhile_eq_self_iff.2]
  · rfl
  · intro b hb
    rcases List.mem_append.1 hb with hb | hb
    · simp only [List.mem_cons, List.not_mem_nil, or_false] at hb
      rcases hb with rfl | rfl <;> decide
    · simpa using hstr b hb

/-- The characters that have no name. -/
theorem naviCharName_eq_none {c : ℤ} (h : naviCharName c = none) :
    c ≠ 7 ∧ c ≠ 8 ∧ c ≠ 0x7F ∧ c ≠ 0x1B ∧ c ≠ 0xA ∧ c ≠ 0 ∧ c ≠ 0xD ∧ c ≠ 0x20 ∧ c ≠ 9 := by
  have hnot : ∀ e ∈ namedChars, e.2 ≠ c := by simpa [naviCharName] using h
  simp only [namedChars, List.mem_cons, List.not_mem_nil, or_false, forall_eq_or_imp,
    forall_eq] at hnot
  omega

theorem toNat_toByte {c : ℤ} (h : 0 ≤ c) (h' : c ≤ 127) : ((toByte c).toNat : ℤ) = c := by
  rw [toByte, UInt8.toNat_ofNat']
  omega

/-- A character that is written as something the reader has a literal for. -/
theorem roundTrips_char {c : ℤ} (hmax : c ≤ 0x10FFFF) (h : Datum.WritesBack X (.char c)) :
    RoundTrips X (.char c) := by
  rcases hname : naviCharName c with _ | name
  · rcases h with ⟨h0, h127, hB, hC, h28, h29⟩ | ⟨h127, hdef⟩
    · have hnone := naviCharName_eq_none hname
      have htoNat := toNat_toByte h0 h127
      have hnb : NameByte (toByte c) := by
        refine ⟨by omega, fun hz => ?_, ?_⟩
        · rw [hz] at htoNat
          exact hnone.2.2.2.2.2.1 htoNat.symm
        · rw [htoNat]
          simp only [isterminal, isspace, ascii, eofValue, decide_eq_false_iff_not,
            decide_eq_true_eq]
          have h2 : ('(').toNat = 40 := rfl
          have h3 : (')').toNat = 41 := rfl
          omega
      have hreads := (charReads_raw (X := X) hnb).parses
      rw [htoNat] at hreads
      exact hreads.roundTrips (writeChar_eq (charText_raw hname h127) (by simpa using hnb.2.1))
    · exact (charReads_hexadecimal h127 hmax hdef).parses.roundTrips
        (writeChar_eq (charText_hexadecimal hname h127)
          fun b hb => ((hexadecimal_spec h127 hmax).1 b hb).2.1)
  · have hmem := naviCharName_spec hname
    exact (charReads_named hmem).parses.roundTrips
      (writeChar_eq (charText_named hname) fun b hb => (nameByte_namedChars hmem b hb).2.1)

/-! ### Characters that are not read back -/

/-- An object whose text the reader refuses, at the end of a file. -/
theorem not_roundTrips_of_fails {d : Datum} {text : List UInt8}
    (hd : naviPortWrite .file d = .ok text) (N : ℕ)
    (h : ∀ n ≥ N, Fails (naviRead X n) text) : ¬ RoundTrips X d := by
  rintro ⟨-, hround⟩
  obtain ⟨n₀, hread⟩ := hround .file text hd [] (Port.openOn .file text) rfl
    (Port.openOn_ready _ _) (by simp)
  obtain ⟨d', p', hok, -⟩ := hread (max n₀ N) (le_max_left _ _)
  obtain ⟨e, he⟩ := h (max n₀ N) (le_max_right _ _) _ (Port.openOn_ready .file text) rfl
  rw [he] at hok
  exact nomatch hok

/-- `navi_read` goes on to `read_sharp` behind `#`. -/
theorem fails_naviRead_sharp {bs : List UInt8} {n : ℕ} (hn : 0 < n)
    (h : Fails (readSharp X n) bs) : Fails (naviRead X (n + 1)) (35 :: bs) := by
  rw [naviRead]
  refine (reads_peekFirstChar_cons (by decide) (by decide) []
    (fun _ h => absurd h List.not_mem_nil) hn).fails ?_
  rw [if_neg (by decide), if_neg (by decide), if_neg (by decide), if_neg (by decide),
    if_neg (by decide), if_pos (by decide)]
  exact (reads_readChar (by decide)).fails h.bind

theorem not_roundTrips_char_of_fails {c : ℤ} {str : List UInt8}
    (hd : naviPortWrite .file (.char c) = .ok (35 :: 92 :: str)) (N : ℕ)
    (h : ∀ n ≥ N, Fails (readCharacter X n) str) : ¬ RoundTrips X (.char c) := by
  refine not_roundTrips_of_fails hd (N + 3) fun n hn => ?_
  obtain ⟨n, rfl⟩ := Nat.exists_eq_add_of_le hn
  have hn' : N + 3 + n = N + n + 1 + 1 + 1 := by omega
  rw [hn']
  refine fails_naviRead_sharp (by omega) ?_
  rw [readSharp]
  refine (reads_ireadChar (by decide)).fails ?_
  rw [toChar_byte (by decide), if_neg (by decide), if_pos (by decide)]
  exact h _ (by omega)

/-- A delimiter ends the literal that it should be. -/
theorem fails_readCharacter_delimiter {b : UInt8} (h : isterminal b.toNat = true) {n : ℕ}
    (hn : 0 < n) : Fails (readCharacter X n) [b] := by
  have hnil : Reads (readUntilTerminal n) [b] [] [b] :=
    reads_readUntilTerminal (show Delimited [b] from h) [] (fun _ h => nomatch h) hn
  refine hnil.fails ((reads_handleCase _ _).fails ?_)
  rw [if_neg (by simp)]
  have hfind : (namedChars.find? fun e => cstr e.1 = []) = none := by decide
  rw [hfind]
  exact fails_throw _ _

theorem fails_readCharacter_undefined {c : ℤ} (h : 127 < c) (h' : c ≤ 0x10FFFF)
    (hdef : X.uIsdefined c = false) {n : ℕ} (hn : (120 :: hexadecimal c).length < n) :
    Fails (readCharacter X n) (120 :: hexadecimal c) := by
  obtain ⟨hname, hne, hdig⟩ := hexadecimal_spec h h'
  obtain ⟨b, bs, hbs⟩ := List.exists_cons_of_ne_nil hne
  have hstr : Reads (readUntilTerminal n) (120 :: hexadecimal c) (120 :: hexadecimal c) [] := by
    have := reads_readUntilTerminal (show Delimited [] from rfl) _ hname hn
    rwa [List.append_nil] at this
  refine hstr.fails ?_
  rw [hbs] at hdig ⊢
  refine (reads_handleCase _ _).fails ?_
  rw [List.head?_cons, if_pos (by decide), List.tail_cons, hdig]
  refine (Reads.ret _ _).fails ?_
  rw [if_neg (by simp [hdef])]
  exact fails_throw _ _

/-- A byte from 128 on is no code point by itself. -/
theorem fails_peekChar {b : UInt8} (h : 128 ≤ b.toNat) : Fails peekChar [b] := by
  have hne : ∀ (c : Char) (bs : List UInt8), String.utf8EncodeChar c ++ bs ≠ [b] := by
    intro c bs hbs
    have hlen := congrArg List.length hbs
    have hpos := c.utf8Size_pos
    simp only [List.length_append, String.length_utf8EncodeChar, List.length_cons,
      List.length_nil] at hlen
    have hlt : c.toNat < 128 := Utf8.utf8Size_eq_one_iff.1 (by omega)
    rw [Utf8.utf8EncodeChar_ascii hlt] at hbs
    have hb := (List.cons.inj hbs).1
    rw [← hb, UInt8.toNat_ofNat'] at h
    omega
  have hnext : Utf8.next? [b] = none := by
    rcases hn : Utf8.next? [b] with _ | ⟨c, bs⟩
    · rfl
    · exact absurd (Utf8.eq_of_next? hn).symm (hne c bs)
  refine Fails.bind fun p hp hu => ?_
  unfold naviPortPeekChar
  rw [checkCanRead_ready hp, ok_bind]
  rcases hp.cases with ⟨he, hn⟩ | ⟨c, he, hb, hc, hr⟩ | ⟨he, hb, hr⟩
  · exact absurd (hu.symm.trans hn) (by simp)
  · exact absurd (hr.symm.trans hu) (hne c p.rest)
  · rw [hr] at hu
    simp only [he, hb, Bool.false_eq_true, if_false]
    unfold naviPortBufferChar
    rw [hu]
    cases p.kind with
    | string => exact ⟨_, by simp only [stringRead, hnext]; rfl⟩
    | file =>
      simp only [decodeUtf8, List.length_nil]
      by_cases h0 : utf8CharSize b ≤ 0
      · rw [if_pos h0]
        exact ⟨_, rfl⟩
      · have h1 : utf8CharSize b ≠ 1 := by
          simp only [utf8CharSize, lenTab, UInt8.lt_iff_toNat_lt, UInt8.reduceToNat]
          rw [if_neg (by omega)]
          split_ifs <;> decide
        rw [if_neg h0, if_pos (by omega)]
        exact ⟨_, rfl⟩

theorem fails_readCharacter_byte {b : UInt8} (h : 128 ≤ b.toNat) {n : ℕ} (hn : 0 < n) :
    Fails (readCharacter X n) [b] := by
  obtain ⟨n, rfl⟩ := Nat.exists_eq_succ_of_ne_zero (Nat.ne_of_gt hn)
  exact (fails_peekChar h).bind.bind

/-- A character that is not written as a literal of it is not read back. -/
theorem writesBack_of_roundTrips_char {c : ℤ} (hmin : -128 ≤ c) (hmax : c ≤ 0x10FFFF)
    (h : RoundTrips X (.char c)) : Datum.WritesBack X (.char c) := by
  rcases hname : naviCharName c with _ | name
  · have hnone := naviCharName_eq_none hname
    by_contra hnot
    simp only [Datum.WritesBack, not_or, not_and, Bool.not_eq_true] at hnot
    rcases lt_or_ge 127 c with h127 | h127
    · exact not_roundTrips_char_of_fails (writeChar_eq (charText_hexadecimal hname h127)
        fun b hb => ((hexadecimal_spec h127 hmax).1 b hb).2.1) _
        (fun n hn => fails_readCharacter_undefined h127 hmax (hnot.2 h127) hn) h
    · have hnz : toByte c ≠ 0 := by
        intro hz
        have hnat := congrArg UInt8.toNat hz
        rw [toByte, UInt8.toNat_ofNat', show (0 : UInt8).toNat = 0 from rfl] at hnat
        omega
      have hwrite := writeChar_eq (charText_raw hname h127) (by simpa using hnz)
      rcases lt_or_ge c 0 with hneg | hpos
      · exact not_roundTrips_char_of_fails hwrite 1
          (fun n hn => fails_readCharacter_byte (by rw [toByte, UInt8.toNat_ofNat']; omega) hn) h
      · refine not_roundTrips_char_of_fails hwrite 1
          (fun n hn => fails_readCharacter_delimiter ?_ hn) h
        rw [toNat_toByte hpos h127]
        simp only [isterminal, isspace, ascii, decide_eq_true_eq]
        have h2 : ('(').toNat = 40 := rfl
        have h3 : (')').toNat = 41 := rfl
        omega
  · have hmem := naviCharName_spec hname
    have hval : ∀ e ∈ namedChars, 0 ≤ e.2 ∧ e.2 ≤ 127 ∧ e.2 ≠ 0xB ∧ e.2 ≠ 0xC ∧ e.2 ≠ 0x28 ∧
        e.2 ≠ 0x29 := by decide
    exact Or.inl (hval _ hmem)

end NaviScheme
