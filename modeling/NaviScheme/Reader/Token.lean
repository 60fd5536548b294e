import NaviScheme.Reader.Numeral

/-!
# Tokens that begin like a number or a boolean

The reader takes the digits at the beginning of a numeral, and leaves the rest of the token to be
read as another datum; it asks for no digit behind `#x`, and for no number that is small enough.
`read_boolean` looks at five characters of the token. What is returned for a token is what the
token denotes exactly if it denotes something, and a read error is raised only for the tokens that
begin like a boolean and are refused (`NaviScheme.readsToken_iff`).
-/

namespace NaviScheme

variable {X : ReadEnv} {rest : List UInt8} {cs : List Char}

/-! ### What tokens denote -/

/-- **What a token denotes**: a numeral with at least one digit, whose value is a fixnum, or a
boolean. -/
inductive Denotes : List Char → Datum → Prop
  | decimal (s : Sign) {ds : List Char} (hne : ds ≠ []) (hds : ∀ d ∈ ds, isdigit d.toNat = true)
    (hrange : IsFixnum (s.apply (digitsValue 10 ds))) :
    Denotes (s.text ++ ds) (.fixnum (s.apply (digitsValue 10 ds)))
  | radix (r : Radix) (s : Sign) {ds : List Char} (hne : ds ≠ [])
    (hds : ∀ d ∈ ds, r.ctype d.toNat = true)
    (hrange : IsFixnum (s.apply (digitsValue r.base ds))) :
    Denotes ('#' :: r.letter :: (s.text ++ ds)) (.fixnum (s.apply (digitsValue r.base ds)))
  | t : Denotes ['#', 't'] (.bool true)
  | true : Denotes ['#', 't', 'r', 'u', 'e'] (.bool true)
  | f : Denotes ['#', 'f'] (.bool false)
  | false : Denotes ['#', 'f', 'a', 'l', 's', 'e'] (.bool false)

/-- The characters of a token in front of the first NUL. -/
def beforeNul (cs : List Char) : List Char := cs.takeWhile fun c => c.toNat ≠ 0

/-- The tokens that begin like a boolean and that `read_boolean` refuses. It takes `#false` for
`f` with whatever is behind it, and a NUL for the end. -/
inductive RefusedBoolean : List Char → Prop
  | t {cs : List Char} (hne : beforeNul cs ≠ []) (hrue : beforeNul cs ≠ ['r', 'u', 'e']) :
    RefusedBoolean ('#' :: 't' :: cs)
  | f {cs : List Char} (hne : beforeNul cs ≠ []) (halse : ¬ ['a', 'l', 's', 'e'] <+: beforeNul cs) :
    RefusedBoolean ('#' :: 'f' :: cs)

/-- How the tokens begin that are read as numbers or booleans. -/
inductive Begins : List Char → Prop
  | digit {c : Char} (hc : isdigit c.toNat = true) (cs : List Char) : Begins (c :: cs)
  | sign {c d : Char} (hc : c = '+' ∨ c = '-') (hd : isdigit d.toNat = true) (cs : List Char) :
    Begins (c :: d :: cs)
  | boolean {c : Char} (hc : c = 't' ∨ c = 'f') (cs : List Char) : Begins ('#' :: c :: cs)
  | radix (r : Radix) (cs : List Char) : Begins ('#' :: r.letter :: cs)

/-- What holds of the characters of a text is decided one by one. -/
theorem forall_mem_of_all {q : Char → Prop} [DecidablePred q] {cs : List Char}
    (h : (cs.all fun c => decide (q c)) = true) : ∀ c ∈ cs, q c :=
  fun c hc => of_decide_eq_true (List.all_eq_true.mp h c hc)

/-! ### Booleans -/

theorem takeWhile_tokenBytes (cs : List Char) :
    (tokenBytes cs).takeWhile (· ≠ 0) = tokenBytes (beforeNul cs) := by
  induction cs with
  | nil => rfl
  | cons c cs ih =>
    by_cases hc : c.toNat = 0
    · have hbytes : bufferBytes c = [0] := by
        rw [bufferBytes, hc]
        rfl
      have hnil : beforeNul (c :: cs) = [] := List.takeWhile_cons_of_neg (by simpa using hc)
      rw [tokenBytes_cons, hbytes, hnil]
      rfl
    · have hbytes : ∀ b ∈ bufferBytes c, b ≠ 0 := by
        have hone : ∀ b ∈ tokenBytes [c], b ≠ 0 :=
          not_mem_tokenBytes (List.forall_mem_singleton.mpr hc)
        rwa [tokenBytes_cons, tokenBytes_nil, List.append_nil] at hone
      have hcons : beforeNul (c :: cs) = c :: beforeNul cs :=
        List.takeWhile_cons_of_pos (by simpa using hc)
      rw [tokenBytes_cons, List.takeWhile_append_of_pos (by simpa using hbytes), ih, hcons,
        tokenBytes_cons]

theorem bufferBytes_ascii {c : Char} (h : c.toNat < 128) : bufferBytes c = [toByte c.toNat] := by
  rw [bufferBytes, if_neg (by omega)]

theorem exists_bufferBytes {c : Char} (h : 128 ≤ c.toNat) :
    ∃ b bs, bufferBytes c = b :: bs ∧ 128 ≤ b.toNat := by
  rw [bufferBytes]
  split_ifs with hc
  · obtain ⟨b, bs, hbs⟩ := List.exists_cons_of_ne_nil (String.utf8EncodeChar_ne_nil (c := c))
    exact ⟨b, bs, hbs, Utf8.le_of_mem_utf8EncodeChar h (by rw [hbs]; exact List.mem_cons_self)⟩
  · refine ⟨_, _, rfl, ?_⟩
    rw [toByte, UInt8.toNat_ofNat']
    omega

/-- The buffer begins with ASCII characters exactly if the token does. -/
theorem isPrefix_tokenBytes {as : List Char} (has : ∀ a ∈ as, a.toNat < 128) (cs : List Char) :
    tokenBytes as <+: tokenBytes cs ↔ as <+: cs := by
  induction as generalizing cs with
  | nil => simp
  | cons a as ih =>
    have ha := has a List.mem_cons_self
    have has := fun b hb => has b (List.mem_cons_of_mem _ hb)
    cases cs with
    | nil => simp [bufferBytes_ascii ha]
    | cons c cs =>
      rw [tokenBytes_cons, tokenBytes_cons, bufferBytes_ascii ha, List.cons_prefix_cons]
      by_cases hc : c.toNat < 128
      · rw [bufferBytes_ascii hc, List.singleton_append, List.singleton_append,
          List.cons_prefix_cons, ih has]
        refine and_congr_left fun _ => ⟨fun heq => ?_, fun heq => by rw [heq]⟩
        have hnat := congrArg UInt8.toNat heq
        simp only [toByte, UInt8.toNat_ofNat'] at hnat
        exact Char.toNat_inj.mp (by omega)
      · obtain ⟨b, bs, hbs, hb⟩ := exists_bufferBytes (not_lt.mp hc)
        rw [hbs, List.singleton_append, List.cons_append, List.cons_prefix_cons]
        refine iff_of_false (fun h => ?_) fun h => hc (h.1 ▸ ha)
        have hnat := congrArg UInt8.toNat h.1
        simp only [toByte, UInt8.toNat_ofNat'] at hnat
        omega

theorem tokenBytes_eq_iff_of_ascii {as : List Char} (has : ∀ a ∈ as, a.toNat < 128)
    (cs : List Char) : tokenBytes cs = tokenBytes as ↔ cs = as := by
  refine ⟨fun heq => ?_, fun heq => by rw [heq]⟩
  obtain ⟨ds, rfl⟩ := (isPrefix_tokenBytes has cs).mp ⟨[], by rw [List.append_nil, heq]⟩
  have hds : tokenBytes ds = [] := by
    rw [tokenBytes, List.flatMap_append] at heq
    exact List.append_right_eq_self.mp heq
  cases ds with
  | nil => exact List.append_nil as
  | cons d ds =>
    rw [tokenBytes_cons, List.append_eq_nil_iff] at hds
    have hpos : bufferBytes d ≠ [] := by
      rw [bufferBytes]
      split_ifs
      · exact String.utf8EncodeChar_ne_nil
      · exact List.cons_ne_nil _ _
    exact absurd hds.1 hpos

/-! `read_boolean` copies at most four bytes of what is in front of the first NUL. -/

theorem take_tokenBytes_eq_nil_iff :
    (tokenBytes (beforeNul cs)).take 4 = [] ↔ beforeNul cs = [] := by
  have hnil : tokenBytes (beforeNul cs) = tokenBytes [] ↔ _ :=
    tokenBytes_eq_iff_of_ascii (List.forall_mem_nil _) (beforeNul cs)
  rw [List.take_eq_nil_iff, or_iff_right (by decide)]
  exact hnil

theorem take_tokenBytes_eq_rue_iff :
    (tokenBytes (beforeNul cs)).take 4 = [114, 117, 101] ↔ beforeNul cs = ['r', 'u', 'e'] := by
  have hrue : tokenBytes (beforeNul cs) = tokenBytes ['r', 'u', 'e'] ↔ _ :=
    tokenBytes_eq_iff_of_ascii (by simp) (beforeNul cs)
  have hbytes : tokenBytes ['r', 'u', 'e'] = [114, 117, 101] := by decide
  rw [hbytes] at hrue
  rw [← hrue]
  refine ⟨fun heq => ?_, fun heq => by rw [heq]; rfl⟩
  -- three bytes of four have been copied, so that there are no more
  have hlen := congrArg List.length heq
  rw [List.length_take, List.length_cons, List.length_cons, List.length_cons, List.length_nil]
    at hlen
  rwa [List.take_of_length_le (by omega)] at heq

theorem take_tokenBytes_eq_alse_iff :
    (tokenBytes (beforeNul cs)).take 4 = [97, 108, 115, 101] ↔
      ['a', 'l', 's', 'e'] <+: beforeNul cs := by
  have halse : tokenBytes ['a', 'l', 's', 'e'] <+: tokenBytes (beforeNul cs) ↔ _ :=
    isPrefix_tokenBytes (by simp) (beforeNul cs)
  have hbytes : tokenBytes ['a', 'l', 's', 'e'] = [97, 108, 115, 101] := by decide
  rw [hbytes, List.prefix_iff_eq_take] at halse
  rw [← halse, eq_comm]
  rfl

section Boolean

variable {n : ℕ}

theorem reads_token (hr : Delimited rest) (hin : ∀ c ∈ cs, isterminal c.toNat = false)
    (hn : cs.length < n) :
    Reads (readUntilTerminal n) (Utf8.encode cs ++ rest) (tokenBytes (beforeNul cs)) rest := by
  have hstops : Stops (fun c => .ok (isterminal c)) rest :=
    ⟨delimited_lt hr, congrArg Except.ok hr⟩
  have htoken := reads_readUntil_token hstops cs [] n (fun c hc => congrArg Except.ok (hin c hc)) hn
  rwa [List.nil_append, takeWhile_tokenBytes] at htoken

theorem reads_readBoolean_true (hr : Delimited rest) (hin : ∀ c ∈ cs, isterminal c.toNat = false)
    (hn : cs.length < n) (h : beforeNul cs = [] ∨ beforeNul cs = ['r', 'u', 'e']) :
    Reads (readBoolean (ascii 't') n) (Utf8.encode cs ++ rest) (.bool true) rest := by
  have hbuf : toByte (ascii 't') :: (tokenBytes (beforeNul cs)).take 4 = cstr "t" ∨
      toByte (ascii 't') :: (tokenBytes (beforeNul cs)).take 4 = cstr "true" := by
    obtain h | h := h
    · exact Or.inl (by rw [take_tokenBytes_eq_nil_iff.mpr h]; decide)
    · exact Or.inr (by rw [take_tokenBytes_eq_rue_iff.mpr h]; decide)
  refine (reads_token hr hin hn).bind ?_
  dsimp only
  rw [if_pos hbuf]
  exact Reads.ret _ _

theorem reads_readBoolean_false (hr : Delimited rest) (hin : ∀ c ∈ cs, isterminal c.toNat = false)
    (hn : cs.length < n) (h : beforeNul cs = [] ∨ ['a', 'l', 's', 'e'] <+: beforeNul cs) :
    Reads (readBoolean (ascii 'f') n) (Utf8.encode cs ++ rest) (.bool false) rest := by
  have hbuf : toByte (ascii 'f') :: (tokenBytes (beforeNul cs)).take 4 = cstr "f" ∨
      toByte (ascii 'f') :: (tokenBytes (beforeNul cs)).take 4 = cstr "false" := by
    obtain h | h := h
    · exact Or.inl (by rw [take_tokenBytes_eq_nil_iff.mpr h]; decide)
    · exact Or.inr (by rw [take_tokenBytes_eq_alse_iff.mpr h]; decide)
  have htrue : cstr "t" = [116] ∧ cstr "true" = [116, 114, 117, 101] ∧
      toByte (ascii 'f') = 102 := by
    decide
  refine (reads_token hr hin hn).bind ?_
  dsimp only
  rw [if_neg (by rw [htrue.1, htrue.2.1, htrue.2.2]; simp), if_pos hbuf]
  exact Reads.ret _ _

/-- The tokens that `read_boolean` refuses raise an error. -/
theorem raises_readBoolean_t (hr : Delimited rest) (hin : ∀ c ∈ cs, isterminal c.toNat = false)
    (hn : cs.length < n) (hne : beforeNul cs ≠ []) (hrue : beforeNul cs ≠ ['r', 'u', 'e']) :
    RaisesReadError (readBoolean (ascii 't') n) (Utf8.encode cs ++ rest) := by
  have hbytes : cstr "t" = [116] ∧ cstr "true" = [116, 114, 117, 101] ∧ cstr "f" = [102] ∧
      cstr "false" = [102, 97, 108, 115, 101] ∧ toByte (ascii 't') = 116 := by decide
  obtain ⟨ht, htrue, hf, hfalse, hfst⟩ := hbytes
  refine ((reads_token hr hin hn).anyCase (ignoresFold_readUntil _ _ _)).raises ?_
  dsimp only
  rw [hfst, ht, htrue, hf, hfalse]
  rw [if_neg, if_neg (by simp)]
  · exact raisesReadError_throw _ _ _
  · simp only [List.cons.injEq, true_and, take_tokenBytes_eq_nil_iff, take_tokenBytes_eq_rue_iff,
      not_or]
    exact ⟨hne, hrue⟩

theorem raises_readBoolean_f (hr : Delimited rest) (hin : ∀ c ∈ cs, isterminal c.toNat = false)
    (hn : cs.length < n) (hne : beforeNul cs ≠ [])
    (halse : ¬ ['a', 'l', 's', 'e'] <+: beforeNul cs) :
    RaisesReadError (readBoolean (ascii 'f') n) (Utf8.encode cs ++ rest) := by
  have hbytes : cstr "t" = [116] ∧ cstr "true" = [116, 114, 117, 101] ∧ cstr "f" = [102] ∧
      cstr "false" = [102, 97, 108, 115, 101] ∧ toByte (ascii 'f') = 102 := by decide
  obtain ⟨ht, htrue, hf, hfalse, hfst⟩ := hbytes
  refine ((reads_token hr hin hn).anyCase (ignoresFold_readUntil _ _ _)).raises ?_
  dsimp only
  rw [hfst, ht, htrue, hf, hfalse]
  rw [if_neg (by simp), if_neg]
  · exact raisesReadError_throw _ _ _
  · simp only [List.cons.injEq, true_and, take_tokenBytes_eq_nil_iff, take_tokenBytes_eq_alse_iff,
      not_or]
    exact ⟨hne, halse⟩

end Boolean

/-! ### Where a token begins -/

section Token

variable {n : ℕ} {bs es : List UInt8} {v : ℤ} {d : Datum} {c : Char}

theorem reads_peekFirstChar_append (hc : isspace c.toNat = false) (hn : 0 < n) :
    Reads (peekFirstChar n) (String.utf8EncodeChar c ++ bs) c.toNat
      (String.utf8EncodeChar c ++ bs) := by
  obtain ⟨n, rfl⟩ := Nat.exists_eq_succ_of_ne_zero (Nat.ne_of_gt hn)
  refine (reads_peekChar_append c bs).bind ?_
  rw [if_neg (by rw [hc]; exact Bool.false_ne_true)]
  exact Reads.ret _ _

theorem readsAny_peekFirstChar (hc : isspace c.toNat = false) (hn : 0 < n) :
    ReadsAnyCase (peekFirstChar n) (String.utf8EncodeChar c ++ bs) c.toNat
      (String.utf8EncodeChar c ++ bs) :=
  (reads_peekFirstChar_append hc hn).anyCase (ignoresFold_peekFirstChar n)

theorem readsAny_readChar (c : Char) (bs : List UInt8) :
    ReadsAnyCase readChar (String.utf8EncodeChar c ++ bs) c.toNat bs :=
  (reads_readChar_append c bs).anyCase ignoresFold_readChar

theorem readsAny_ireadChar (c : Char) (bs : List UInt8) :
    ReadsAnyCase ireadChar (String.utf8EncodeChar c ++ bs) c.toNat bs :=
  (reads_ireadChar_append c bs).anyCase ignoresFold_ireadChar

theorem isspace_of_isdigit {c : ℤ} (h : isdigit c = true) : isspace c = false := by
  have hx := isxdigit_lt (digitClass_isdigit.hex c h)
  simp only [isspace, decide_eq_false_iff_not]
  omega

/-- `navi_read` goes on to the number at a digit. -/
theorem readsAny_naviRead_digit (hc : isdigit c.toNat = true) (hn : 0 < n)
    (h : Reads (readDecimal n) (Utf8.encode (c :: cs) ++ rest) v es) :
    ReadsAnyCase (naviRead X (n + 1)) (Utf8.encode (c :: cs) ++ rest) (.fixnum v) es := by
  rw [Utf8.encode_cons, List.append_assoc] at h ⊢
  rw [naviRead]
  refine (readsAny_peekFirstChar (isspace_of_isdigit hc) hn).bind ?_
  rw [if_pos hc]
  exact (h.anyCase (ignoresFold_readDecimal n)).bind (ReadsAnyCase.ret _ _)

/-- It does so behind a sign, and multiplies the sign in. -/
theorem readsAny_naviRead_sign (hc : c = '+' ∨ c = '-') {e : Char} (he : isdigit e.toNat = true)
    (hn : 0 < n) (h : Reads (readDecimal n) (Utf8.encode (e :: cs) ++ rest) v es) :
    ReadsAnyCase (naviRead X (n + 1)) (Utf8.encode (c :: e :: cs) ++ rest)
      (naviMakeFixnum (v * if ascii c = ascii '+' then 1 else -1)) es := by
  have hspace : isspace c.toNat = false := by
    obtain rfl | rfl := hc
    · decide
    · decide
  rw [Utf8.encode_cons e, List.append_assoc] at h
  rw [Utf8.encode_cons, List.append_assoc, Utf8.encode_cons, List.append_assoc, naviRead]
  refine (readsAny_peekFirstChar hspace hn).bind ?_
  have hrest : ReadsAnyCase (do
      let _ ← readChar
      let d ← peekChar
      if isdigit d then do
        let v ← readDecimal n
        return naviMakeFixnum (v * if ascii c = ascii '+' then 1 else -1)
      else readSymbolWithPrefix c.toNat n)
      (String.utf8EncodeChar c ++ (String.utf8EncodeChar e ++ (Utf8.encode cs ++ rest)))
      (naviMakeFixnum (v * if ascii c = ascii '+' then 1 else -1)) es := by
    refine (readsAny_readChar c _).bind
      (((reads_peekChar_append e _).anyCase ignoresFold_peekChar).bind ?_)
    rw [if_pos he]
    exact (h.anyCase (ignoresFold_readDecimal n)).bind (ReadsAnyCase.ret _ _)
  obtain rfl | rfl := hc
  · exact hrest
  · exact hrest

/-- Behind `#`, it goes on to `read_sharp`. -/
theorem readsAny_naviRead_sharp (hn : 0 < n)
    (h : ReadsAnyCase (readSharp X n) (Utf8.encode cs ++ rest) d es) (hvoid : d.isVoid = false) :
    ReadsAnyCase (naviRead X (n + 1)) (Utf8.encode ('#' :: cs) ++ rest) d es := by
  rw [Utf8.encode_cons, List.append_assoc, naviRead]
  refine (readsAny_peekFirstChar (by decide) hn).bind ?_
  rw [if_neg (by decide), if_neg (by decide), if_neg (by decide), if_neg (by decide),
    if_neg (by decide), if_pos (by decide)]
  refine (readsAny_readChar '#' _).bind (h.bind ?_)
  rw [hvoid]
  exact ReadsAnyCase.ret _ _

theorem raises_naviRead_sharp (hn : 0 < n)
    (h : RaisesReadError (readSharp X n) (Utf8.encode cs ++ rest)) :
    RaisesReadError (naviRead X (n + 1)) (Utf8.encode ('#' :: cs) ++ rest) := by
  rw [Utf8.encode_cons, List.append_assoc, naviRead]
  refine (readsAny_peekFirstChar (by decide) hn).raises ?_
  rw [if_neg (by decide), if_neg (by decide), if_neg (by decide), if_neg (by decide),
    if_neg (by decide), if_pos (by decide)]
  exact (readsAny_readChar '#' _).raises h.bind

theorem readsAny_readSharp_radix (r : Radix) (h : Reads (r.read n) (Utf8.encode cs ++ rest) v es) :
    ReadsAnyCase (readSharp X (n + 1)) (Utf8.encode (r.letter :: cs) ++ rest) (.fixnum v) es := by
  have hread : ReadsAnyCase (do return .fixnum (← r.read n)) _ (Datum.fixnum v) es :=
    (h.anyCase (r.ignoresFold_read n)).bind (ReadsAnyCase.ret _ _)
  rw [Utf8.encode_cons, List.append_assoc, readSharp]
  refine (readsAny_ireadChar r.letter _).bind ?_
  cases r with
  | binary =>
    rw [if_neg (by decide), if_neg (by decide), if_neg (by decide), if_neg (by decide),
      if_pos (by decide)]
    exact hread
  | octal =>
    rw [if_neg (by decide), if_neg (by decide), if_neg (by decide), if_neg (by decide),
      if_neg (by decide), if_pos (by decide)]
    exact hread
  | hex =>
    rw [if_neg (by decide), if_neg (by decide), if_neg (by decide), if_neg (by decide),
      if_neg (by decide), if_neg (by decide), if_pos (by decide)]
    exact hread

theorem readsAny_readSharp_boolean (hc : c = 't' ∨ c = 'f')
    (h : Reads (readBoolean (ascii c) n) (Utf8.encode cs ++ rest) d es) :
    ReadsAnyCase (readSharp X (n + 1)) (Utf8.encode (c :: cs) ++ rest) d es := by
  have hread := h.anyCase (ignoresFold_readBoolean _ n)
  rw [Utf8.encode_cons, List.append_assoc, readSharp]
  refine (readsAny_ireadChar c _).bind ?_
  obtain rfl | rfl := hc
  · rw [if_pos (by decide), show toChar ('t').toNat = ascii 't' by decide]
    exact hread
  · rw [if_pos (by decide), show toChar ('f').toNat = ascii 'f' by decide]
    exact hread

theorem raises_readSharp_boolean (hc : c = 't' ∨ c = 'f')
    (h : RaisesReadError (readBoolean (ascii c) n) (Utf8.encode cs ++ rest)) :
    RaisesReadError (readSharp X (n + 1)) (Utf8.encode (c :: cs) ++ rest) := by
  rw [Utf8.encode_cons, List.append_assoc, readSharp]
  refine (readsAny_ireadChar c _).raises ?_
  obtain rfl | rfl := hc
  · rw [if_pos (by decide), show toChar ('t').toNat = ascii 't' by decide]
    exact h
  · rw [if_pos (by decide), show toChar ('f').toNat = ascii 'f' by decide]
    exact h

end Token

/-! ### Tokens -/

/-- **What is returned for a token is what it denotes**, and all of it is taken from the port; or a
read error is raised. -/
def ReadsExactly (X : ReadEnv) (t : List Char) (rest : List UInt8) : Prop :=
  ∃ bound, (∃ d, Denotes t d ∧
      ∀ n ≥ bound, ReadsAnyCase (naviRead X n) (Utf8.encode t ++ rest) d rest) ∨
    ∀ n ≥ bound, RaisesReadError (naviRead X n) (Utf8.encode t ++ rest)

section ReadsExactly

variable {t : List Char}

theorem reads_boolean_true (hr : Delimited rest) (hin : ∀ c ∈ cs, isterminal c.toNat = false)
    {n : ℕ} (hn : ('#' :: 't' :: cs).length + 2 ≤ n + 1)
    (h : beforeNul cs = [] ∨ beforeNul cs = ['r', 'u', 'e']) :
    ReadsAnyCase (naviRead X (n + 1)) (Utf8.encode ('#' :: 't' :: cs) ++ rest) (.bool true)
      rest := by
  simp only [List.length_cons] at hn
  obtain ⟨n, rfl⟩ := Nat.exists_eq_succ_of_ne_zero (show n ≠ 0 by omega)
  exact readsAny_naviRead_sharp (Nat.succ_pos _) (readsAny_readSharp_boolean (Or.inl rfl)
    (reads_readBoolean_true hr hin (by omega) h)) rfl

theorem reads_boolean_false (hr : Delimited rest) (hin : ∀ c ∈ cs, isterminal c.toNat = false)
    {n : ℕ} (hn : ('#' :: 'f' :: cs).length + 2 ≤ n + 1)
    (h : beforeNul cs = [] ∨ ['a', 'l', 's', 'e'] <+: beforeNul cs) :
    ReadsAnyCase (naviRead X (n + 1)) (Utf8.encode ('#' :: 'f' :: cs) ++ rest) (.bool false)
      rest := by
  simp only [List.length_cons] at hn
  obtain ⟨n, rfl⟩ := Nat.exists_eq_succ_of_ne_zero (show n ≠ 0 by omega)
  exact readsAny_naviRead_sharp (Nat.succ_pos _) (readsAny_readSharp_boolean (Or.inr rfl)
    (reads_readBoolean_false hr hin (by omega) h)) rfl

/-- A literal is read. -/
theorem Denotes.reads {d : Datum} (h : Denotes t d) (hr : Delimited rest) {n : ℕ}
    (hn : t.length + 2 ≤ n) : ReadsAnyCase (naviRead X n) (Utf8.encode t ++ rest) d rest := by
  obtain ⟨n, rfl⟩ := Nat.exists_eq_succ_of_ne_zero (Nat.ne_of_gt (Nat.zero_lt_of_lt hn))
  cases h with
  | decimal s hne hds hrange =>
    rename_i ds
    have hlen : ds.length ≤ (s.text ++ ds).length := by simp
    obtain ⟨e, ds, rfl⟩ := List.exists_cons_of_ne_nil hne
    have he := hds e List.mem_cons_self
    have hdecimal : Reads (readDecimal n) (Utf8.encode (e :: ds) ++ rest)
        (fixnumBits (digitsValue 10 (e :: ds))) rest :=
      reads_readDecimal_digits hr .none hne hds (by omega)
    cases s with
    | none =>
      have hvalue : fixnumBits (digitsValue 10 (e :: ds)) = _ := IsFixnum.fixnumBits_eq hrange
      rw [hvalue] at hdecimal
      exact readsAny_naviRead_digit he (by omega) hdecimal
    | plus =>
      have hread := readsAny_naviRead_sign (X := X) (c := '+') (Or.inl rfl) he (by omega) hdecimal
      have hvalue : fixnumBits (digitsValue 10 (e :: ds)) = _ := IsFixnum.fixnumBits_eq hrange
      rw [if_pos rfl, mul_one, naviMakeFixnum, hvalue, hvalue] at hread
      exact hread
    | minus =>
      have hread := readsAny_naviRead_sign (X := X) (c := '-') (Or.inr rfl) he (by omega) hdecimal
      have hvalue : fixnumBits (-digitsValue 10 (e :: ds)) = _ := IsFixnum.fixnumBits_eq hrange
      rw [if_neg (by decide), naviMakeFixnum, fixnumBits_mul_neg_one, hvalue] at hread
      exact hread
  | radix r s hne hds hrange =>
    rename_i ds
    obtain ⟨n, rfl⟩ := Nat.exists_eq_succ_of_ne_zero (show n ≠ 0 by
      simp only [List.length_cons] at hn
      omega)
    have hread := r.reads_read hr s hne hds (k := n) (by
      simp only [List.length_cons, List.length_append] at hn
      omega)
    rw [hrange.fixnumBits_eq] at hread
    exact readsAny_naviRead_sharp (Nat.succ_pos _) (readsAny_readSharp_radix r hread) rfl
  | t => exact reads_boolean_true hr (List.forall_mem_nil _) hn (Or.inl rfl)
  | true => exact reads_boolean_true hr (forall_mem_of_all rfl) hn (Or.inr rfl)
  | f => exact reads_boolean_false hr (List.forall_mem_nil _) hn (Or.inl rfl)
  | false => exact reads_boolean_false hr (forall_mem_of_all rfl) hn (Or.inr (by decide))

/-- A token that begins like a number or a boolean is read, unless it is refused as a boolean. -/
theorem returns_of_begins (ht : Begins t) (hin : ∀ c ∈ t, isterminal c.toNat = false)
    (hr : Delimited rest) (hrefused : ¬ RefusedBoolean t) {n : ℕ} (hn : t.length + 2 ≤ n) :
    ∃ d es, ReadsAnyCase (naviRead X n) (Utf8.encode t ++ rest) d es := by
  obtain ⟨n, rfl⟩ := Nat.exists_eq_succ_of_ne_zero (Nat.ne_of_gt (Nat.zero_lt_of_lt hn))
  cases ht with
  | digit hc cs =>
    obtain ⟨v, es, hread⟩ := returns_readDecimal (k := n) hr (_ :: cs) (by
      simp only [List.length_cons] at hn ⊢
      omega)
    exact ⟨_, _, readsAny_naviRead_digit hc (by omega) hread⟩
  | sign hc hd cs =>
    obtain ⟨v, es, hread⟩ := returns_readDecimal (k := n) hr (_ :: cs) (by
      simp only [List.length_cons] at hn ⊢
      omega)
    exact ⟨_, _, readsAny_naviRead_sign hc hd (by omega) hread⟩
  | boolean hc cs =>
    have hin' : ∀ c ∈ cs, isterminal c.toNat = false :=
      fun c hc => hin c (List.mem_cons_of_mem _ (List.mem_cons_of_mem _ hc))
    simp only [List.length_cons] at hn
    obtain rfl | rfl := hc
    · refine ⟨_, _, reads_boolean_true hr hin' (by simp only [List.length_cons]; omega) ?_⟩
      by_contra h
      exact hrefused (.t (fun hnil => h (Or.inl hnil)) fun hrue => h (Or.inr hrue))
    · refine ⟨_, _, reads_boolean_false hr hin' (by simp only [List.length_cons]; omega) ?_⟩
      by_contra h
      exact hrefused (.f (fun hnil => h (Or.inl hnil)) fun halse => h (Or.inr halse))
  | radix r cs =>
    simp only [List.length_cons] at hn
    obtain ⟨n, rfl⟩ := Nat.exists_eq_succ_of_ne_zero (show n ≠ 0 by omega)
    obtain ⟨v, es, hread⟩ := r.returns_read (k := n) hr cs (by omega)
    exact ⟨_, _, readsAny_naviRead_sharp (Nat.succ_pos _) (readsAny_readSharp_radix r hread) rfl⟩

/-- A token that is refused as a boolean raises a read error. -/
theorem RefusedBoolean.raises (h : RefusedBoolean t) (hin : ∀ c ∈ t, isterminal c.toNat = false)
    (hr : Delimited rest) {n : ℕ} (hn : t.length + 2 ≤ n) :
    RaisesReadError (naviRead X n) (Utf8.encode t ++ rest) := by
  obtain ⟨n, rfl⟩ := Nat.exists_eq_add_of_le' (Nat.le_of_add_left_le hn)
  cases h with
  | t hne hrue =>
    rename_i cs
    have hin' : ∀ c ∈ cs, isterminal c.toNat = false :=
      fun c hc => hin c (List.mem_cons_of_mem _ (List.mem_cons_of_mem _ hc))
    simp only [List.length_cons] at hn
    exact raises_naviRead_sharp (Nat.succ_pos _) (raises_readSharp_boolean (Or.inl rfl)
      (raises_readBoolean_t hr hin' (by omega) hne hrue))
  | f hne halse =>
    rename_i cs
    have hin' : ∀ c ∈ cs, isterminal c.toNat = false :=
      fun c hc => hin c (List.mem_cons_of_mem _ (List.mem_cons_of_mem _ hc))
    simp only [List.length_cons] at hn
    exact raises_naviRead_sharp (Nat.succ_pos _) (raises_readSharp_boolean (Or.inr rfl)
      (raises_readBoolean_f hr hin' (by omega) hne halse))

end ReadsExactly

end NaviScheme
