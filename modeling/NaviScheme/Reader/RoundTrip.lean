import NaviScheme.Reader.Scan

/-!
# What is written is read back

For data without characters and strings (`NaviScheme.Datum.Plain`), the text that `write`
emits, in front of a delimiter, is read back as the same object, and nothing behind it is
taken from the port (`NaviScheme.naviRead_naviPortWrite`).

The reader sees an object in two places, at its beginning (`navi_read`) and in a list
(`read_list`, which looks at the first character itself). What it needs of a text for both
is `NaviScheme.Parses`, and what `read_list` needs of the rest of a list
`NaviScheme.ParsesTail`; each kind of object has the first, and every object that can be
a tail of a list the second.
-/

namespace NaviScheme

variable (X : ReadEnv)

/-- What `write` emits for an object, in front of a delimiter, is read back as an object that
is `equal?` to it, and is what is taken from the port. -/
def RoundTrips (d : Datum) : Prop :=
  (∃ text, naviPortWrite .file d = .ok text) ∧
    ∀ (kind : PortKind) (text : List UInt8), naviPortWrite kind d = .ok text →
      ∀ (rest : List UInt8) (p : Port), Delimited rest → p.Ready → p.unread = text ++ rest →
        ∃ n₀, ∀ n ≥ n₀, ∃ d' p', naviRead X n p = .ok (d', p') ∧ naviEqualp d d' = true ∧
          p'.Ready ∧ p'.unread = rest

/-! ### Plain data -/

/-- A letter, a digit or one of the characters that are in plain symbols. -/
def plainByte (b : UInt8) : Bool :=
  97 ≤ b.toNat ∧ b.toNat ≤ 122 ∨ 65 ≤ b.toNat ∧ b.toNat ≤ 90 ∨ 48 ≤ b.toNat ∧ b.toNat ≤ 57 ∨
    b ∈ cstr "!$%&*/:<=>?^_~"

/-- The name of a plain symbol. -/
structure PlainName (name : List UInt8) : Prop where
  ne_nil : name ≠ []
  plain : ∀ b ∈ name, plainByte b = true
  notDigit : isdigit (firstCode name) = false

/-- Fixnums, booleans, the empty list, pairs, vectors, bytevectors that are not empty, and
plain symbols. -/
inductive Datum.Plain : Datum → Prop
  | nil : Plain .nil
  | fixnum (n : ℤ) : -2 ^ 62 ≤ n → n < 2 ^ 62 → Plain (.fixnum n)
  | bool (b : Bool) : Plain (.bool b)
  | pair {car cdr : Datum} : Plain car → Plain cdr → Plain (.pair car cdr)
  | vector {ds : List Datum} : (∀ d ∈ ds, Plain d) → Plain (.vector ds)
  | bytevec {bs : List UInt8} : bs ≠ [] → Plain (.bytevec bs)
  | symbol {name : List UInt8} : PlainName name → Plain (.symbol name)

theorem plainByte_toNat {b : UInt8} (h : plainByte b = true) :
    97 ≤ b.toNat ∧ b.toNat ≤ 122 ∨ 65 ≤ b.toNat ∧ b.toNat ≤ 90 ∨ 48 ≤ b.toNat ∧ b.toNat ≤ 57 ∨
      b.toNat ∈ [33, 36, 37, 38, 42, 47, 58, 60, 61, 62, 63, 94, 95, 126] := by
  simp only [plainByte, decide_eq_true_eq] at h
  rcases h with h | h | h | h
  · exact Or.inl h
  · exact Or.inr (Or.inl h)
  · exact Or.inr (Or.inr (Or.inl h))
  · have hc : cstr "!$%&*/:<=>?^_~" = [33, 36, 37, 38, 42, 47, 58, 60, 61, 62, 63, 94, 95, 126] := by
      decide
    rw [hc] at h
    have := List.mem_map_of_mem (f := UInt8.toNat) h
    exact Or.inr (Or.inr (Or.inr this))

theorem nameByte_of_plainByte {b : UInt8} (h : plainByte b = true) : NameByte b := by
  have hb := plainByte_toNat h
  simp only [List.mem_cons, List.not_mem_nil, or_false] at hb
  refine ⟨by omega, ?_, ?_⟩
  · rintro rfl
    simp at hb
  · simp only [isterminal, isspace, ascii, eofValue, decide_eq_false_iff_not, decide_eq_true_eq]
    have h2 : ('(').toNat = 40 := rfl
    have h3 : (')').toNat = 41 := rfl
    omega

/-! ### Where an object stands -/

/-- The reader takes the text of an object, at the beginning of `navi_read` and in a list. -/
structure Parses (d : Datum) (text : List UInt8) : Prop where
  head : ∃ b bs, text = b :: bs ∧ b.toNat < 128 ∧ isspace b.toNat = false ∧
    b.toNat ≠ 41 ∧ b.toNat ≠ 46 ∧ b.toNat ≠ 59
  notVoid : d.isVoid = false
  notEof : d.isEof = false
  /-- Behind `#`, `read_sharp` goes on. -/
  sharp : ∀ bs, text = 35 :: bs → ∀ (rest : List UInt8) (n : ℕ), Delimited rest →
    text.length < n → Reads (readSharp X n) (bs ++ rest) d rest
  /-- Otherwise `navi_read` does, also behind spaces. -/
  plain : (∀ bs, text ≠ 35 :: bs) → ∀ (ws rest : List UInt8) (n : ℕ),
    (∀ b ∈ ws, isspace b.toNat = true) → Delimited rest → ws.length + text.length + 1 < n →
    Reads (naviRead X n) (ws ++ (text ++ rest)) d rest

/-- `read_list` takes the rest of a list. -/
def ParsesTail (d : Datum) (text : List UInt8) : Prop :=
  ∀ (elms : List Datum) (rest : List UInt8) (n : ℕ), text.length + 1 < n →
    Reads (readList X n elms) (text ++ rest) (Datum.listTail elms d) rest

variable {X}

theorem Parses.length_pos {d : Datum} {text : List UInt8} (h : Parses X d text) :
    0 < text.length := by
  obtain ⟨b, bs, rfl, -⟩ := h.head
  exact Nat.succ_pos _

/-- `navi_read` takes the text of an object, whatever its first character. -/
theorem Parses.naviRead {d : Datum} {text : List UInt8} (h : Parses X d text) (ws : List UInt8)
    {rest : List UInt8} {n : ℕ} (hws : ∀ b ∈ ws, isspace b.toNat = true)
    (hr : Delimited rest) (hn : ws.length + text.length + 1 < n) :
    Reads (naviRead X n) (ws ++ (text ++ rest)) d rest := by
  obtain ⟨b, bs, rfl, hlt, hs, -⟩ := h.head
  by_cases hb : b = 35
  · subst hb
    obtain ⟨n, rfl⟩ := Nat.exists_eq_succ_of_ne_zero (Nat.ne_of_gt (Nat.zero_lt_of_lt hn))
    simp only [List.length_cons] at hn
    rw [NaviScheme.naviRead]
    refine (reads_peekFirstChar_cons (by decide) (by decide) ws hws (by omega)).bind ?_
    rw [if_neg (by decide), if_neg (by decide), if_neg (by decide),
      if_neg (by decide), if_neg (by decide), if_pos (by decide)]
    refine (reads_readChar (by decide)).bind ((h.sharp bs rfl rest n hr (by simp; omega)).bind ?_)
    rw [h.notVoid]
    exact Reads.ret _ _
  · exact h.plain (fun bs' hbs => hb (List.cons.inj hbs).1) ws rest n hws hr hn

/-- An element of a list is taken, and the loop goes on behind it. -/
theorem Parses.readList {d : Datum} {text : List UInt8} (h : Parses X d text) (ws : List UInt8)
    {rest es : List UInt8} {elms : List Datum} {v : Datum} {n : ℕ}
    (hws : ∀ b ∈ ws, isspace b.toNat = true) (hr : Delimited rest)
    (hn : ws.length + text.length + 1 < n)
    (hloop : Reads (readList X n (elms ++ [d])) rest v es) :
    Reads (readList X (n + 1) elms) (ws ++ (text ++ rest)) v es := by
  have hnaviRead := fun (h' : ∀ bs, text ≠ 35 :: bs) =>
    h.plain h' [] rest n (fun _ h => nomatch h) hr (by simp only [List.length_nil]; omega)
  obtain ⟨b, bs, rfl, hlt, hs, h41, h46, h59⟩ := h.head
  simp only [List.length_cons] at hn
  rw [NaviScheme.readList]
  refine (reads_ipeekFirstChar hlt hs ws hws (by omega)).bind ?_
  have e41 : ascii ')' = 41 := rfl
  have e46 : ascii '.' = 46 := rfl
  have e59 : ascii ';' = 59 := rfl
  have e35 : ascii '#' = 35 := rfl
  simp only [toChar_byte hlt, e41, e46, e59, e35]
  rw [if_neg (by omega), if_neg (by omega)]
  by_cases hb : b = 35
  · subst hb
    rw [if_pos (by decide)]
    refine (reads_readChar (by decide)).bind ((h.sharp bs rfl rest n hr (by simp; omega)).bind ?_)
    rw [h.notVoid]
    exact hloop
  · have hne : b.toNat ≠ 35 := fun h35 => hb (UInt8.toNat_inj.1 h35)
    rw [if_neg (by omega), if_neg (by omega)]
    refine (hnaviRead fun bs' hbs => hb (List.cons.inj hbs).1).bind ?_
    rw [h.notEof]
    exact hloop

/-! ### The kinds of objects -/

/-- A name that begins like no other token. -/
theorem parses_name {b : UInt8} {bs : List UInt8} (hplain : plainByte b = true)
    (hdig : isdigit b.toNat = false) (hname : ∀ c ∈ b :: bs, NameByte c) :
    Parses X (.symbol (b :: bs)) (b :: bs) := by
  have hb := plainByte_toNat hplain
  obtain ⟨hlt, -, hterm⟩ := nameByte_of_plainByte hplain
  have hs : isspace b.toNat = false := by
    simp only [isterminal, decide_eq_false_iff_not, not_or, Bool.not_eq_true] at hterm
    exact hterm.1
  simp only [List.mem_cons, List.not_mem_nil, or_false] at hb
  refine ⟨⟨b, bs, rfl, hlt, hs, by omega, by omega, by omega⟩, rfl, rfl, ?_, ?_⟩
  · intro bs' hbs
    obtain ⟨rfl, -⟩ := List.cons.inj hbs
    exact absurd hplain (by decide)
  · intro _ ws rest n hws hr hn
    obtain ⟨n, rfl⟩ := Nat.exists_eq_succ_of_ne_zero (Nat.ne_of_gt (Nat.zero_lt_of_lt hn))
    rw [NaviScheme.naviRead]
    refine (reads_peekFirstChar_cons hlt hs ws hws
      (by simp only [List.length_cons] at hn; omega)).bind ?_
    have e1 : ascii ',' = 44 := rfl
    have e2 : ascii '#' = 35 := rfl
    have e3 : ascii '(' = 40 := rfl
    have e4 : ascii ')' = 41 := rfl
    have e5 : ascii ';' = 59 := rfl
    have e6 : ascii '|' = 124 := rfl
    have e7 : ascii '+' = 43 := rfl
    have e8 : ascii '-' = 45 := rfl
    simp only [hdig, doubleQuote, e1, e2, e3, e4, e5, e6, e7, e8, eofValue]
    rw [if_neg (by simp), if_neg (by omega), if_neg (by omega), if_neg (by omega),
      if_neg (by omega), if_neg (by omega), if_neg (by omega), if_neg (by omega),
      if_neg (by omega), if_neg (by omega), if_neg (by omega), if_neg (by omega)]
    exact reads_readSymbol hr hname (by omega)

theorem parses_symbol {name : List UInt8} (h : PlainName name) :
    Parses X (.symbol name) name := by
  obtain ⟨b, bs, rfl⟩ := List.exists_cons_of_ne_nil h.ne_nil
  exact parses_name (h.plain b List.mem_cons_self) h.notDigit
    fun c hc => nameByte_of_plainByte (h.plain c hc)

theorem parses_bool (b : Bool) : Parses X (.bool b) (cstr (if b then "#t" else "#f")) := by
  have key : ∀ c : UInt8, c = 116 ∨ c = 102 → ∀ (rest : List UInt8) (n : ℕ), Delimited rest →
      1 < n → Reads (readSharp X n) (c :: rest) (.bool (c = 116)) rest := by
    intro c hc rest n hr hn
    obtain ⟨n, rfl⟩ := Nat.exists_eq_succ_of_ne_zero (Nat.ne_of_gt (Nat.zero_lt_of_lt hn))
    have hlt : c.toNat < 128 := by rcases hc with rfl | rfl <;> decide
    have hstr : Reads (readUntilTerminal n) rest [] rest :=
      reads_readUntilTerminal hr [] (fun _ h => nomatch h) (by simp only [List.length_nil]; omega)
    rw [NaviScheme.readSharp]
    refine (reads_ireadChar hlt).bind ?_
    rw [toChar_byte hlt]
    rcases hc with rfl | rfl
    · rw [if_pos (by decide)]
      refine hstr.bind ?_
      rw [if_pos (by decide)]
      exact Reads.ret _ _
    · rw [if_pos (by decide)]
      refine hstr.bind ?_
      rw [if_neg (by decide), if_pos (by decide)]
      exact Reads.ret _ _
  have htext : cstr (if b then "#t" else "#f") = [35, if b then 116 else 102] := by
    cases b <;> decide
  rw [htext]
  refine ⟨⟨35, _, rfl, by decide⟩, rfl, rfl, ?_, fun h => absurd rfl (h _)⟩
  intro bs hbs rest n hr hn
  obtain ⟨-, rfl⟩ := List.cons.inj hbs
  simp only [List.length_cons, List.length_nil] at hn
  cases b with
  | false => exact key 102 (Or.inr rfl) rest n hr (by omega)
  | true => exact key 116 (Or.inl rfl) rest n hr (by omega)

/-- The sign is multiplied in, and the shifts of `navi_make_fixnum` bring back the least
fixnum, whose absolute value is none. -/
theorem fixnumBits_neg {n : ℤ} (h : -2 ^ 62 ≤ n) (h' : n < 0) :
    fixnumBits (fixnumBits (toLong n.natAbs) * -1) = n := by
  rw [toLong_of_lt (by omega) (by omega)]
  rcases Int.lt_or_eq_of_le h with hlt | heq
  · rw [fixnumBits_of_lt (n := n.natAbs) (by omega) (by omega),
      fixnumBits_of_lt (by omega) (by omega)]
    omega
  · subst heq
    rfl

theorem parses_fixnum {n : ℤ} (h : -2 ^ 62 ≤ n) (h' : n < 2 ^ 62) :
    Parses X (.fixnum n) (decimal n) := by
  have hdigit : ∀ (m : ℕ), ∀ b ∈ digitBytes 10 m, 48 ≤ b.toNat ∧ b.toNat ≤ 57 := by
    intro m b hb
    obtain ⟨d, hd, rfl⟩ := mem_digitBytes (by decide) m hb
    have := digitByte_decimal hd
    omega
  rcases lt_or_ge n 0 with hneg | hpos
  · obtain ⟨b, bs, hbs⟩ := List.exists_cons_of_ne_nil (digitBytes_ne_nil 10 n.natAbs)
    have hb := hdigit n.natAbs b (by rw [hbs]; exact List.mem_cons_self)
    have htext : decimal n = 45 :: digitBytes 10 n.natAbs := by
      rw [decimal_of_neg hneg]
      rfl
    rw [htext]
    refine ⟨⟨45, _, rfl, by decide⟩, rfl, rfl, ?_, ?_⟩
    · intro bs hbs
      exact absurd (List.cons.inj hbs).1 (by decide)
    · intro _ ws rest k hws hr hk
      obtain ⟨k, rfl⟩ := Nat.exists_eq_succ_of_ne_zero (Nat.ne_of_gt (Nat.zero_lt_of_lt hk))
      simp only [List.length_cons] at hk
      rw [NaviScheme.naviRead]
      refine (reads_peekFirstChar_cons (by decide) (by decide) ws hws (by omega)).bind ?_
      rw [if_neg (by decide), if_neg (by decide), if_neg (by decide), if_neg (by decide),
        if_neg (by decide), if_neg (by decide), if_neg (by decide), if_neg (by decide),
        if_neg (by decide), if_neg (by decide), if_neg (by decide), if_pos (by decide)]
      refine (reads_readChar (by decide)).bind ?_
      have hpeek := reads_peekChar (digitBytes 10 n.natAbs ++ rest)
        (by rw [hbs, List.cons_append, firstCode_cons]; omega)
      refine hpeek.bind ?_
      rw [if_pos (by rw [hbs, List.cons_append, firstCode_cons]; exact isdigit_byte.2 hb)]
      refine (reads_readDecimal hr n.natAbs (by omega) (by omega)).bind ?_
      rw [if_neg (by decide), naviMakeFixnum, fixnumBits_neg h hneg]
      exact Reads.ret _ _
  · obtain ⟨m, rfl⟩ := Int.eq_ofNat_of_zero_le hpos
    obtain ⟨b, bs, hbs⟩ := List.exists_cons_of_ne_nil (digitBytes_ne_nil 10 m)
    have hb := hdigit m b (by rw [hbs]; exact List.mem_cons_self)
    have hspace : isspace b.toNat = false := by
      simp only [isspace, decide_eq_false_iff_not]
      omega
    rw [decimal_of_nonneg]
    refine ⟨⟨b, bs, hbs, by omega, hspace, by omega, by omega, by omega⟩, rfl, rfl, ?_, ?_⟩
    · intro bs' hbs'
      obtain ⟨rfl, -⟩ := List.cons.inj (hbs.symm.trans hbs')
      exact absurd hb (by decide)
    · intro _ ws rest k hws hr hk
      obtain ⟨k, rfl⟩ := Nat.exists_eq_succ_of_ne_zero (Nat.ne_of_gt (Nat.zero_lt_of_lt hk))
      have hdec := reads_readDecimal hr m (k := k) (by omega) (by omega)
      rw [hbs] at hk hdec ⊢
      simp only [List.length_cons] at hk
      rw [NaviScheme.naviRead]
      refine (reads_peekFirstChar_cons (by omega) hspace ws hws (by omega)).bind ?_
      rw [if_pos (isdigit_byte.2 hb)]
      refine hdec.bind ?_
      rw [toLong_of_lt (by omega) (by omega), fixnumBits_of_lt h h']
      exact Reads.ret _ _

/-! ### Lists -/

/-- The end of a list. -/
theorem parsesTail_nil : ParsesTail X .nil (cstr ")") := by
  intro elms rest n hn
  have htext : cstr ")" = [41] := by decide
  rw [htext] at hn ⊢
  obtain ⟨n, rfl⟩ := Nat.exists_eq_succ_of_ne_zero (Nat.ne_of_gt (Nat.zero_lt_of_lt hn))
  simp only [List.length_cons, List.length_nil] at hn
  rw [NaviScheme.readList]
  refine (reads_ipeekFirstChar (by decide) (by decide) [] (fun _ h => nomatch h)
    (by simp only [List.length_nil]; omega)).bind ?_
  rw [toChar_byte (by decide), if_pos (by decide)]
  exact (reads_readChar (by decide)).bind (Reads.ret _ _)

/-- A dotted tail. -/
theorem Parses.tail {d : Datum} {text : List UInt8} (h : Parses X d text) :
    ParsesTail X d (cstr " . " ++ text ++ cstr ")") := by
  intro elms rest n hn
  have htext : cstr " . " ++ text ++ cstr ")" = 32 :: 46 :: 32 :: (text ++ [41]) := by
    have h1 : cstr " . " = [32, 46, 32] := by decide
    have h2 : cstr ")" = [41] := by decide
    rw [h1, h2]
    rfl
  rw [htext] at hn ⊢
  simp only [List.length_cons, List.length_append, List.length_nil] at hn
  obtain ⟨n, rfl⟩ := Nat.exists_eq_succ_of_ne_zero (Nat.ne_of_gt (Nat.zero_lt_of_lt hn))
  rw [NaviScheme.readList]
  refine (reads_ipeekFirstChar (b := 46) (by decide) (by decide) [32] (List.forall_mem_singleton.2 rfl)
    (by simp only [List.length_cons, List.length_nil]; omega)).bind ?_
  rw [toChar_byte (by decide), if_neg (by decide), if_pos (by decide)]
  refine (reads_readChar (by decide)).bind ((reads_ipeekChar (by decide)).bind ?_)
  rw [toChar_byte (by decide), if_pos (by decide)]
  have hr : Delimited (41 :: rest) := rfl
  have hlast : Reads (NaviScheme.naviRead X n) (32 :: (text ++ [41] ++ rest)) d (41 :: rest) := by
    rw [List.append_assoc]
    exact h.naviRead [32] (List.forall_mem_singleton.2 rfl) hr (by simp only [List.length_cons, List.length_nil]; omega)
  refine hlast.bind ((reads_peekFirstChar_cons (by decide) (by decide) [] (fun _ h => nomatch h)
    (by simp only [List.length_nil]; omega)).bind ?_)
  rw [toChar_byte (by decide), if_pos (by decide)]
  exact (reads_readChar (by decide)).bind (Reads.ret _ _)

/-- What stands behind an element in a list is a delimiter. -/
def TailText (text : List UInt8) : Prop := 0 < text.length ∧ ∀ rest, Delimited (text ++ rest)

/-- An element and the rest of the list. -/
theorem Parses.cons {car cdr : Datum} {text ctext : List UInt8} (h : Parses X car text)
    (ht : ParsesTail X cdr ctext) (hc : TailText ctext) (ws : List UInt8)
    (hws : ∀ b ∈ ws, isspace b.toNat = true) (elms : List Datum) (rest : List UInt8) {n : ℕ}
    (hn : ws.length + text.length + ctext.length + 1 < n) :
    Reads (NaviScheme.readList X n elms) (ws ++ (text ++ (ctext ++ rest)))
      (Datum.listTail elms (.pair car cdr)) rest := by
  have hpos := h.length_pos
  obtain ⟨hcpos, hdel⟩ := hc
  obtain ⟨n, rfl⟩ := Nat.exists_eq_succ_of_ne_zero (Nat.ne_of_gt (Nat.zero_lt_of_lt hn))
  have htail : Datum.listTail elms (.pair car cdr) = Datum.listTail (elms ++ [car]) cdr := by
    clear hn
    induction elms with
    | nil => rfl
    | cons e elms ih => rw [List.cons_append, Datum.listTail, Datum.listTail, ih]
  rw [htail]
  exact h.readList ws hws (hdel rest) (by omega) (ht (elms ++ [car]) rest n (by omega))

/-- A text in parentheses that `read_list` takes. -/
theorem parses_paren {d : Datum} {text : List UInt8} (hv : d.isVoid = false)
    (he : d.isEof = false)
    (h : ∀ (rest : List UInt8) (n : ℕ), text.length + 1 < n →
      Reads (readList X n []) (text ++ rest) d rest) :
    Parses X d (40 :: text) := by
  refine ⟨⟨40, _, rfl, by decide⟩, hv, he, ?_, ?_⟩
  · intro bs hbs
    exact absurd (List.cons.inj hbs).1 (by decide)
  · intro _ ws rest n hws hr hn
    obtain ⟨n, rfl⟩ := Nat.exists_eq_succ_of_ne_zero (Nat.ne_of_gt (Nat.zero_lt_of_lt hn))
    simp only [List.length_cons] at hn
    rw [NaviScheme.naviRead]
    refine (reads_peekFirstChar_cons (by decide) (by decide) ws hws (by omega)).bind ?_
    rw [if_neg (by decide), if_neg (by decide), if_neg (by decide), if_neg (by decide),
      if_neg (by decide), if_neg (by decide), if_pos (by decide)]
    exact (reads_readChar (by decide)).bind (h rest n (by omega))

/-- A text between `#(` and its end. -/
theorem parses_vector (ds : List Datum) {text : List UInt8}
    (h : ∀ (rest : List UInt8) (n : ℕ), text.length + 1 < n →
      Reads (readList X n []) (text ++ rest) (Datum.listTail ds .nil) rest) :
    Parses X (.vector ds) (35 :: 40 :: text) := by
  refine ⟨⟨35, _, rfl, by decide⟩, rfl, rfl, ?_, fun hne => absurd rfl (hne _)⟩
  intro bs hbs rest n hr hn
  obtain ⟨-, rfl⟩ := List.cons.inj hbs
  obtain ⟨n, rfl⟩ := Nat.exists_eq_succ_of_ne_zero (Nat.ne_of_gt (Nat.zero_lt_of_lt hn))
  simp only [List.length_cons] at hn
  rw [NaviScheme.readSharp]
  refine (reads_ireadChar (by decide)).bind ?_
  rw [toChar_byte (by decide), if_neg (by decide), if_neg (by decide), if_pos (by decide)]
  refine (h rest n (by omega)).bind ?_
  rw [Datum.elements_listTail_nil]
  exact Reads.ret _ _

/-- The bytes of a bytevector are put back. -/
theorem naviListToBytevec_listTail (bs : List UInt8) :
    naviListToBytevec (Datum.listTail (bs.map fun b => .fixnum b.toNat) .nil) = .ok (.bytevec bs) := by
  have h : (bs.map fun b => Datum.fixnum b.toNat).mapM typeCheckByte = .ok bs := by
    induction bs with
    | nil => rfl
    | cons b bs ih =>
      have hb := b.toNat_lt
      rw [List.map_cons, List.mapM_cons, ih, typeCheckByte, if_pos (by omega), toByte_toNat]
      rfl
  rw [naviListToBytevec, Datum.elements_listTail_nil, h]
  rfl

/-- A text between `#u8(` and its end. -/
theorem parses_bytevec (bs : List UInt8) {text : List UInt8}
    (h : ∀ (rest : List UInt8) (n : ℕ), text.length + 1 < n → Reads (readList X n []) (text ++ rest)
      (Datum.listTail (bs.map fun b => .fixnum b.toNat) .nil) rest) :
    Parses X (.bytevec bs) (35 :: 117 :: 56 :: 40 :: text) := by
  refine ⟨⟨35, _, rfl, by decide⟩, rfl, rfl, ?_, fun hne => absurd rfl (hne _)⟩
  intro bs' hbs rest n hr hn
  obtain ⟨-, rfl⟩ := List.cons.inj hbs
  obtain ⟨n, rfl⟩ := Nat.exists_eq_succ_of_ne_zero (Nat.ne_of_gt (Nat.zero_lt_of_lt hn))
  simp only [List.length_cons] at hn
  rw [NaviScheme.readSharp]
  refine (reads_ireadChar (by decide)).bind ?_
  rw [toChar_byte (by decide), if_neg (by decide), if_neg (by decide), if_neg (by decide),
    if_pos (by decide)]
  refine (reads_ireadChar (by decide)).bind ?_
  rw [toChar_byte (by decide), if_neg (by decide)]
  refine (reads_ireadChar (by decide)).bind ?_
  rw [toChar_byte (by decide), if_neg (by decide)]
  refine (h rest n (by omega)).bind ?_
  rw [naviListToBytevec_listTail]
  exact Reads.ret _ _

/-! ### What is written -/

theorem naviPortWriteCstr_nonzero {str : List UInt8} (h : 0 ∉ str) :
    naviPortWriteCstr .file str = .ok str := by
  rw [naviPortWriteCstr_file, List.takeWhile_eq_self_iff.2 fun b hb => ?_]
  exact decide_eq_true fun hzero => h (hzero ▸ hb)

theorem naviPortWriteCstr_decimal (n : ℤ) : naviPortWriteCstr .file (decimal n) = .ok (decimal n) := by
  have hdigit : 0 ∉ digitBytes 10 n.natAbs := by
    intro hb
    obtain ⟨d, hd, h⟩ := mem_digitBytes (by decide) _ hb
    have := digitByte_decimal hd
    rw [← h] at this
    simp at this
  refine naviPortWriteCstr_nonzero fun hb => hdigit ?_
  rcases lt_or_ge n 0 with hneg | hpos
  · rw [decimal_of_neg hneg] at hb
    exact (List.mem_cons.1 hb).resolve_left (by decide)
  · rwa [decimal, if_neg (by omega)] at hb

/-- The elements of a vector are written as the rest of a list is. -/
theorem writeVector_eq (kind : PortKind) (write : Bool) (ds : List Datum) :
    writeVector kind write ds = writeCdr kind write (Datum.listTail ds .nil) := by
  induction ds with
  | nil => rw [writeVector, Datum.listTail, writeCdr]
  | cons d ds ih => rw [writeVector, Datum.listTail, writeCdr, ih]

/-- The bytes of a bytevector are written as the elements of a vector are. -/
theorem writeBytes_eq (kind : PortKind) (write : Bool) (bs : List UInt8) :
    writeBytes kind bs = writeVector kind write (bs.map fun b => .fixnum b.toNat) := by
  induction bs with
  | nil => rw [writeBytes, List.map_nil, writeVector]
  | cons b bs ih => rw [writeBytes, List.map_cons, writeVector, ih, naviDisplay_]

/-- What `write` emits for an object can be read wherever the object may stand. -/
def Readable (X : ReadEnv) (d : Datum) : Prop :=
  (∃ text, naviDisplay_ .file true d = .ok text ∧ Parses X d text) ∧
    ∃ text, writeCdr .file true d = .ok text ∧ ParsesTail X d text ∧ TailText text

/-- An object that is not a list is written behind a dot. -/
theorem Parses.readable {d : Datum} {text : List UInt8} (h : Parses X d text)
    (hd : naviDisplay_ .file true d = .ok text)
    (hc : writeCdr .file true d = do
      return (← naviPortWriteCstr .file (cstr " . ")) ++ (← naviDisplay_ .file true d) ++
        (← naviPortWriteCstr .file (cstr ")"))) : Readable X d := by
  refine ⟨⟨text, hd, h⟩, _, ?_, h.tail, ?_⟩
  · rw [hc, hd, naviPortWriteCstr_nonzero (by decide), naviPortWriteCstr_nonzero (by decide)]
    rfl
  · have h1 : cstr " . " = [32, 46, 32] := by decide
    rw [h1]
    exact ⟨by simp, fun rest => by rw [List.cons_append, List.cons_append, List.cons_append]; rfl⟩

theorem readable_nil : Readable X .nil := by
  have h1 : cstr "()" = 40 :: cstr ")" := by decide
  refine ⟨⟨cstr "()", ?_, ?_⟩, cstr ")", ?_, parsesTail_nil, ?_⟩
  · rw [naviDisplay_, naviPortWriteCstr_nonzero (by decide)]
  · rw [h1]
    exact parses_paren rfl rfl fun rest n hn => parsesTail_nil [] rest n hn
  · rw [writeCdr, naviPortWriteCstr_nonzero (by decide)]
  · have h2 : cstr ")" = [41] := by decide
    rw [h2]
    exact ⟨by decide, fun rest => rfl⟩

/-- The rest of a list that begins with an element. -/
theorem Readable.cons {car cdr : Datum} (h : Readable X car) (h' : Readable X cdr) :
    ∃ text ctext, naviDisplay_ .file true car = .ok text ∧ writeCdr .file true cdr = .ok ctext ∧
      (∀ (rest : List UInt8) (n : ℕ), (text ++ ctext).length + 1 < n →
        Reads (readList X n []) (text ++ ctext ++ rest) (.pair car cdr) rest) ∧
      ParsesTail X (.pair car cdr) (32 :: (text ++ ctext)) := by
  obtain ⟨text, hd, hp⟩ := h.1
  obtain ⟨ctext, hc, ht, htt⟩ := h'.2
  refine ⟨text, ctext, hd, hc, ?_, ?_⟩
  · intro rest n hn
    rw [List.append_assoc]
    exact hp.cons ht htt [] (fun _ h => nomatch h) [] rest
      (by simp only [List.length_append, List.length_nil] at *; omega)
  · intro elms rest n hn
    rw [List.cons_append, List.append_assoc]
    exact hp.cons ht htt [32] (List.forall_mem_singleton.2 rfl) elms rest
      (by simp only [List.length_append, List.length_cons, List.length_nil] at *; omega)

theorem Readable.pair {car cdr : Datum} (h : Readable X car) (h' : Readable X cdr) :
    Readable X (.pair car cdr) := by
  obtain ⟨text, ctext, hd, hc, hread, htail⟩ := h.cons h'
  refine ⟨⟨40 :: (text ++ ctext), ?_, parses_paren rfl rfl hread⟩, 32 :: (text ++ ctext), ?_, htail, ?_⟩
  · rw [naviDisplay_, naviPortWriteCstr_nonzero (by decide), hd, hc]
    rfl
  · rw [writeCdr, naviPortWriteCstr_nonzero (by decide), hd, hc]
    rfl
  · exact ⟨Nat.succ_pos _, fun rest => rfl⟩

/-- A list of objects that can be read can be read. -/
theorem readable_listTail (ds : List Datum) (h : ∀ d ∈ ds, Readable X d) :
    Readable X (Datum.listTail ds .nil) := by
  induction ds with
  | nil => exact readable_nil
  | cons d ds ih =>
    exact (h d List.mem_cons_self).pair (ih fun e he => h e (List.mem_cons_of_mem _ he))

theorem readable_vector {ds : List Datum} (h : ∀ d ∈ ds, Readable X d) :
    Readable X (.vector ds) := by
  cases ds with
  | nil =>
    have h1 : cstr "#()" = 35 :: 40 :: cstr ")" := by decide
    refine (parses_vector [] fun rest n hn => parsesTail_nil [] rest n hn).readable ?_
      (by rw [writeCdr] <;> simp)
    rw [naviDisplay_, naviPortWriteCstr_nonzero (by decide), h1]
  | cons d ds =>
    obtain ⟨text, ctext, hd, hc, hread, -⟩ := (h d List.mem_cons_self).cons
      (readable_listTail ds fun e he => h e (List.mem_cons_of_mem _ he))
    refine (parses_vector (d :: ds) hread).readable ?_
      (by rw [writeCdr] <;> simp)
    rw [naviDisplay_, naviPortWriteCstr_nonzero (by decide), hd, writeVector_eq, hc]
    rfl

theorem readable_fixnum {n : ℤ} (h : -2 ^ 62 ≤ n) (h' : n < 2 ^ 62) : Readable X (.fixnum n) :=
  (parses_fixnum h h').readable (by rw [naviDisplay_, naviPortWriteCstr_decimal])
    (by rw [writeCdr] <;> simp)

theorem readable_bytevec {bs : List UInt8} (h : bs ≠ []) : Readable X (.bytevec bs) := by
  have hbyte : ∀ b : UInt8, Readable X (.fixnum b.toNat) := by
    intro b
    have := b.toNat_lt
    exact readable_fixnum (by omega) (by omega)
  obtain ⟨b, bs, rfl⟩ := List.exists_cons_of_ne_nil h
  obtain ⟨text, ctext, hd, hc, hread, -⟩ := (hbyte b).cons
    (readable_listTail (bs.map fun b => .fixnum b.toNat) (by
      intro d hd
      obtain ⟨b, -, rfl⟩ := List.mem_map.1 hd
      exact hbyte b))
  refine (parses_bytevec (b :: bs) hread).readable ?_
    (by rw [writeCdr] <;> simp)
  rw [naviDisplay_] at hd
  rw [naviDisplay_, writeBytevec, naviPortWriteCstr_nonzero (by decide), hd, writeBytes_eq .file true,
    writeVector_eq, hc]
  rfl

theorem readable_symbol {name : List UInt8} (h : PlainName name) : Readable X (.symbol name) := by
  refine (parses_symbol h).readable ?_ (by rw [writeCdr] <;> simp)
  rw [naviDisplay_, writeSymbol_file, List.takeWhile_eq_self_iff.2]
  intro b hb
  simpa using (nameByte_of_plainByte (h.plain b hb)).2.1

/-- Plain data can be read. -/
theorem Datum.Plain.readable {d : Datum} (h : d.Plain) : Readable X d := by
  induction h with
  | nil => exact readable_nil
  | fixnum n h h' => exact readable_fixnum h h'
  | bool b =>
    refine (parses_bool b).readable ?_ (by rw [writeCdr] <;> simp)
    rw [naviDisplay_, naviPortWriteCstr_nonzero (by cases b <;> decide)]
  | pair _ _ ih ih' => exact ih.pair ih'
  | vector _ ih => exact readable_vector ih
  | bytevec h => exact readable_bytevec h
  | symbol h => exact readable_symbol h

/-- An object whose text the reader takes wherever it may stand is read back. -/
theorem Parses.roundTrips {d : Datum} {text : List UInt8} (h : Parses X d text)
    (hd : naviPortWrite .file d = .ok text) : RoundTrips X d := by
  refine ⟨⟨text, hd⟩, ?_⟩
  intro kind text' htext rest p hr hp hu
  have heq : naviPortWrite .file d = .ok text' := by
    cases kind with
    | file => exact htext
    | string => exact naviDisplay_of_string true d text' htext
  obtain rfl : text = text' := by
    rw [hd] at heq
    exact Except.ok.inj heq
  refine ⟨text.length + 2, fun n hn => ?_⟩
  obtain ⟨p', hm, hp', hu'⟩ := h.naviRead [] (n := n) (fun _ h => nomatch h) hr
    (by simp only [List.length_nil]; omega) p hp hu
  exact ⟨d, p', hm, naviEqualp_refl d, hp', hu'⟩

/-- **What is written is read back.** For fixnums, booleans, the empty list, pairs, vectors,
bytevectors that are not empty and plain symbols, nested in any way: the text that `write`
emits, in front of a delimiter and with case folding off, is read as an object that is
`equal?`, and exactly that text is taken from the port. -/
theorem naviRead_naviPortWrite {d : Datum} (h : d.Plain) : RoundTrips X d := by
  obtain ⟨text, hd, hp⟩ := (h.readable (X := X)).1
  exact hp.roundTrips hd

/-- ICU's table where every code point is defined, and no internal bindings. -/
def allDefined : ReadEnv := ⟨fun c => 0 ≤ c ∧ c ≤ 0x10FFFF, fun _ => .ok .void⟩

/-- `(a -4611686018427387904 . #(#t #u8(7)))` -/
theorem naviRead_naviPortWrite_nested :
    RoundTrips allDefined (.pair (.symbol (cstr "a")) (.pair (.fixnum (-4611686018427387904))
      (.vector [.bool true, .bytevec [7]]))) :=
  naviRead_naviPortWrite (.pair (.symbol ⟨by decide, List.forall_mem_singleton.2 (by decide), by decide⟩)
    (.pair (.fixnum _ (by decide) (by decide)) (.vector (by
      intro d hd
      simp only [List.mem_cons, List.not_mem_nil, or_false] at hd
      rcases hd with rfl | rfl
      · exact .bool true
      · exact .bytevec (by decide)))))

end NaviScheme
