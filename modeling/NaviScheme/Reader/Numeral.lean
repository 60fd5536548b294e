import NaviScheme.Reader.Folding

/-!
# Numerals

What `read_num` takes of a text: the digits behind a sign, up to a character that it does not see
as one. It always returns (`NaviScheme.returns_readNum`), and of a numeral in front of a delimiter
it returns the value, which is wrapped around twice on its way into a fixnum
(`NaviScheme.fixnumBits_toLong`).
-/

namespace NaviScheme

variable {X : ReadEnv} {rest : List UInt8} {cs : List Char}

/-! ### Digits, signs and radixes -/

/-- The value of a digit. -/
def digitValue (c : Char) : ℤ :=
  if isdigit c.toNat then c.toNat - ascii '0'
  else if ascii 'a' ≤ c.toNat then c.toNat - ascii 'a' + 10 else c.toNat - ascii 'A' + 10

/-- The value of digits. -/
def digitsValue (radix : ℤ) (ds : List Char) : ℤ := ds.foldl (fun n d => n * radix + digitValue d) 0

/-- The sign of a number. -/
inductive Sign
  | none
  | plus
  | minus

/-- How it is written. -/
def Sign.text : Sign → List Char
  | none => []
  | plus => ['+']
  | minus => ['-']

/-- The number with the sign. -/
def Sign.apply : Sign → ℤ → ℤ
  | none, n | plus, n => n
  | minus, n => -n

/-- The radix of a number behind `#`. -/
inductive Radix
  | binary
  | octal
  | hex

namespace Radix

/-- The letter for it. -/
def letter : Radix → Char
  | binary => 'b'
  | octal => 'o'
  | hex => 'x'

/-- The radix as a number. -/
def base : Radix → ℤ
  | binary => 2
  | octal => 8
  | hex => 16

/-- Its digits. -/
def ctype : Radix → ℤ → Bool
  | binary => isbdigit
  | octal => isodigit
  | hex => isxdigit

/-- The value of a digit, to the reader. -/
def tonum : Radix → ℤ → Except ReadExn ℤ
  | binary | octal => decimalValue
  | hex => hexValue

/-- The function that reads such a number. -/
def read (n : ℕ) : Radix → ReadM ℤ
  | binary => readBinary n
  | octal => readOctal n
  | hex => readHex n

end Radix

/-- A number that a fixnum can be. -/
def IsFixnum (n : ℤ) : Prop := -2 ^ 62 ≤ n ∧ n < 2 ^ 62

/-! ### Functions that return -/

section Returns

variable {α β : Type} {m : ReadM α} {f : α → ReadM β} {bs es : List UInt8} {v : α}

/-- A function returns on the text `bs`. -/
def Returns (m : ReadM α) (bs : List UInt8) : Prop := ∃ v es, Reads m bs v es

theorem Reads.returns (h : Reads m bs v es) (h' : Returns (f v) es) : Returns (m >>= f) bs := by
  obtain ⟨w, fs, hf⟩ := h'
  exact ⟨w, fs, h.bind hf⟩

theorem Returns.bind_ret (h : Returns m bs) (g : α → β) :
    Returns (m >>= fun a => pure (g a)) bs := by
  obtain ⟨v, es, hm⟩ := h
  exact ⟨g v, es, hm.bind (Reads.ret _ _)⟩

end Returns

/-! ### Digits -/

/-- The first character of a text. -/
def frontOf (cs : List Char) (rest : List UInt8) : ℤ :=
  match cs with
  | [] => firstCode rest
  | c :: _ => c.toNat

theorem reads_peekChar_frontOf (hr : Delimited rest) (cs : List Char) :
    Reads peekChar (Utf8.encode cs ++ rest) (frontOf cs rest) (Utf8.encode cs ++ rest) := by
  cases cs with
  | nil => exact reads_peekChar rest (delimited_lt hr)
  | cons c cs =>
    rw [Utf8.encode_cons, List.append_assoc]
    exact reads_peekChar_append c _

/-- A class of digits, with their values. -/
structure DigitClass (ctype : ℤ → Bool) (tonum : ℤ → Except ReadExn ℤ) : Prop where
  /-- a digit of the class -/
  hex : ∀ c, ctype c = true → isxdigit c = true
  /-- its value -/
  exists_value : ∀ c, ctype c = true → ∃ d, tonum c = .ok d
  /-- its value, as a character -/
  eq_value : ∀ c : Char, ctype c.toNat = true → tonum c.toNat = .ok (digitValue c)

section Digits

variable {ctype : ℤ → Bool} {tonum : ℤ → Except ReadExn ℤ} {radix : ℤ}

theorem isxdigit_lt {c : ℤ} (h : isxdigit c = true) : 48 ≤ c ∧ c < 128 := by
  simp only [isxdigit, isdigit, ascii, decide_eq_true_eq] at h
  have h0 : ('0').toNat = 48 := rfl
  have h9 : ('9').toNat = 57 := rfl
  have ha : ('a').toNat = 97 := rfl
  have hf : ('f').toNat = 102 := rfl
  have hA : ('A').toNat = 65 := rfl
  have hF : ('F').toNat = 70 := rfl
  omega

theorem Delimited.toChar_eq (h : Delimited rest) : toChar (firstCode rest) = firstCode rest := by
  have hlt := delimited_lt h
  refine toChar_of_lt ?_ hlt
  cases rest with
  | nil => decide
  | cons b bs => simp only [firstCode_cons]; omega

/-- A delimiter is not a digit. -/
theorem Delimited.not_isxdigit (h : Delimited rest) :
    isxdigit (toChar (firstCode rest)) = false := by
  rw [h.toChar_eq]
  by_contra hx
  have hx := isxdigit_lt (Bool.of_not_eq_false hx)
  simp only [Delimited, isterminal, isspace, ascii, eofValue, decide_eq_true_eq] at h
  have h1 : ('(').toNat = 40 := rfl
  have h2 : (')').toNat = 41 := rfl
  omega

theorem DigitClass.not_delimited (hc : DigitClass ctype tonum) (h : Delimited rest) :
    ctype (toChar (firstCode rest)) = false := by
  by_contra hx
  have hdigit := hc.hex _ (Bool.of_not_eq_false hx)
  rw [h.not_isxdigit] at hdigit
  cases hdigit

theorem digitClass_isdigit : DigitClass isdigit decimalValue where
  hex c h := by simp [isxdigit, h]
  exists_value c _ := ⟨_, rfl⟩
  eq_value c h := by rw [decimalValue, digitValue, if_pos h]

theorem isdigit_of_isodigit {c : ℤ} (h : isodigit c = true) : isdigit c = true := by
  simp only [isodigit, isdigit, ascii, decide_eq_true_eq] at h ⊢
  have h8 : ('8').toNat = 56 := rfl
  have h9 : ('9').toNat = 57 := rfl
  omega

theorem isdigit_of_isbdigit {c : ℤ} (h : isbdigit c = true) : isdigit c = true := by
  simp only [isbdigit, decide_eq_true_eq] at h
  obtain rfl | rfl := h
  · decide
  · decide

theorem hexValue_eq (c : Char) (h : isxdigit c.toNat = true) :
    hexValue c.toNat = .ok (digitValue c) := by
  have h9 : ('9').toNat = 57 := rfl
  have ha : ('a').toNat = 97 := rfl
  have hF : ('F').toNat = 70 := rfl
  simp only [isxdigit, decide_eq_true_eq] at h
  rw [hexValue, digitValue]
  by_cases hd : isdigit c.toNat = true
  · rw [if_pos hd, if_pos hd]
  · rw [if_neg hd, if_neg hd]
    rcases h with h | h | h
    · exact absurd h hd
    · rw [if_pos h, if_pos h.1]
    · simp only [ascii] at h ⊢
      rw [if_neg (by omega), if_pos h, if_neg (by omega)]

/-- The digits of each radix. -/
theorem Radix.digitClass (r : Radix) : DigitClass r.ctype r.tonum := by
  cases r with
  | binary =>
    exact ⟨fun c h => digitClass_isdigit.hex c (isdigit_of_isbdigit h), fun _ _ => ⟨_, rfl⟩,
      fun c h => digitClass_isdigit.eq_value c (isdigit_of_isbdigit h)⟩
  | octal =>
    exact ⟨fun c h => digitClass_isdigit.hex c (isdigit_of_isodigit h), fun _ _ => ⟨_, rfl⟩,
      fun c h => digitClass_isdigit.eq_value c (isdigit_of_isodigit h)⟩
  | hex =>
    refine ⟨fun c h => h, fun c h => ?_, hexValue_eq⟩
    have hc := isxdigit_lt h
    obtain ⟨n, rfl⟩ := Int.eq_ofNat_of_zero_le (show 0 ≤ c by omega)
    have hn : (Char.ofNat n).toNat = n := Utf8.toNat_ofNat_ascii (by omega)
    have hvalue := hexValue_eq (Char.ofNat n) (by rw [hn]; exact h)
    rw [hn] at hvalue
    exact ⟨_, hvalue⟩

/-- The number that `read_unum` takes a character for. -/
def unumDigit (tonum : ℤ → Except ReadExn ℤ) (c : Char) : ℤ :=
  match tonum (toChar c.toNat) with
  | .ok d => d
  | .error _ => 0

/-- The number that `read_unum` makes of characters. -/
def unumOf (radix : ℤ) (tonum : ℤ → Except ReadExn ℤ) (n : ℤ) (ds : List Char) : ℤ :=
  ds.foldl (fun n d => (n * radix + unumDigit tonum d) % 2 ^ 64) n

/-- **`read_unum` takes the characters that it sees as digits.** -/
theorem reads_readUnum_front (hc : DigitClass ctype tonum) (hr : Delimited rest) {es : List Char}
    (hes : ctype (toChar (frontOf es rest)) = false) :
    ∀ (ds : List Char) (k : ℕ) (n : ℤ), (∀ d ∈ ds, ctype (toChar d.toNat) = true) →
      ds.length < k →
      Reads (readUnum radix ctype tonum k n) (Utf8.encode (ds ++ es) ++ rest)
        (unumOf radix tonum n ds) (Utf8.encode es ++ rest) := by
  intro ds
  induction ds with
  | nil =>
    intro k n _ hk
    obtain ⟨k, rfl⟩ := Nat.exists_eq_succ_of_ne_zero (Nat.ne_of_gt hk)
    refine (reads_peekChar_frontOf hr es).bind ?_
    rw [if_neg (by rw [hes]; exact Bool.false_ne_true)]
    exact Reads.ret _ _
  | cons d ds ih =>
    intro k n hds hk
    obtain ⟨k, rfl⟩ := Nat.exists_eq_succ_of_ne_zero (Nat.ne_of_gt (Nat.zero_lt_of_lt hk))
    have hd := hds d List.mem_cons_self
    obtain ⟨v, hv⟩ := hc.exists_value _ hd
    have hdigit : unumDigit tonum d = v := by rw [unumDigit, hv]
    have hloop := ih k ((n * radix + v) % 2 ^ 64) (fun d hd => hds d (List.mem_cons_of_mem _ hd))
      (Nat.lt_of_succ_lt_succ hk)
    rw [List.cons_append, Utf8.encode_cons, List.append_assoc]
    refine (reads_peekChar_append d _).bind ?_
    rw [if_pos hd, hv]
    refine Reads.bind (Reads.ret _ _) ((reads_readChar_append d _).bind ?_)
    rw [unumOf, List.foldl_cons, hdigit]
    exact hloop

/-- `read_unum` returns. -/
theorem returns_readUnum (hc : DigitClass ctype tonum) (hr : Delimited rest) (cs : List Char)
    {k : ℕ} (hk : cs.length < k) (n : ℤ) :
    Returns (readUnum radix ctype tonum k n) (Utf8.encode cs ++ rest) := by
  let digit : Char → Bool := fun c => ctype (toChar c.toNat)
  have hstop : ctype (toChar (frontOf (cs.dropWhile digit) rest)) = false := by
    have hhead := List.head?_dropWhile_not digit cs
    cases hes : cs.dropWhile digit with
    | nil => exact hc.not_delimited hr
    | cons e es =>
      rw [hes] at hhead
      exact hhead
  have hreads : Reads (readUnum radix ctype tonum k n) _ _ _ :=
    reads_readUnum_front hc hr hstop (cs.takeWhile digit) k n
    (fun d hd => show digit d = true from List.mem_takeWhile_imp hd)
    ((List.takeWhile_prefix digit).length_le.trans_lt hk)
  rw [List.takeWhile_append_dropWhile] at hreads
  exact ⟨_, _, hreads⟩

theorem exists_cons_of_frontOf {c : ℤ} (hr : Delimited rest) (hc : isterminal c = false)
    (h : toChar (frontOf cs rest) = c) : ∃ d ds, cs = d :: ds := by
  cases cs with
  | nil =>
    -- a delimiter is no other character
    rw [frontOf, hr.toChar_eq] at h
    rw [← h, hr] at hc
    cases hc
  | cons d ds => exact ⟨d, ds, rfl⟩

/-- `read_num` returns. -/
theorem returns_readNum (hc : DigitClass ctype tonum) (hr : Delimited rest) (cs : List Char)
    {k : ℕ} (hk : cs.length < k) :
    Returns (readNum radix ctype tonum k) (Utf8.encode cs ++ rest) := by
  refine (reads_peekChar_frontOf hr cs).returns ?_
  by_cases hminus : toChar (frontOf cs rest) = ascii '-'
  · obtain ⟨c, ds, rfl⟩ := exists_cons_of_frontOf hr (by decide) hminus
    rw [if_pos hminus, Utf8.encode_cons, List.append_assoc]
    exact (reads_readChar_append c _).returns
      ((returns_readUnum hc hr ds (Nat.lt_of_succ_lt hk) 0).bind_ret _)
  by_cases hplus : toChar (frontOf cs rest) = ascii '+'
  · obtain ⟨c, ds, rfl⟩ := exists_cons_of_frontOf hr (by decide) hplus
    rw [if_neg hminus, if_pos hplus, Utf8.encode_cons, List.append_assoc]
    exact (reads_readChar_append c _).returns
      ((returns_readUnum hc hr ds (Nat.lt_of_succ_lt hk) 0).bind_ret _)
  · rw [if_neg hminus, if_neg hplus]
    exact (returns_readUnum hc hr cs hk 0).bind_ret _

/-! ### Numerals -/

variable (radix) in
/-- The wrapping of the accumulator does not change what is left of the number. -/
theorem unumOf_eq {ds : List Char} (hds : ∀ d ∈ ds, unumDigit tonum d = digitValue d) (n : ℤ) :
    unumOf radix tonum (n % 2 ^ 64) ds =
      (ds.foldl (fun n d => n * radix + digitValue d) n) % 2 ^ 64 := by
  induction ds generalizing n with
  | nil => rfl
  | cons d ds ih =>
    have hstep : (n % 2 ^ 64 * radix + digitValue d) % 2 ^ 64 =
        (n * radix + digitValue d) % 2 ^ 64 := by
      rw [Int.add_emod, Int.mul_emod, Int.emod_emod_of_dvd _ (dvd_refl _), ← Int.mul_emod,
        ← Int.add_emod]
    rw [unumOf, List.foldl_cons, hds d List.mem_cons_self, hstep, List.foldl_cons]
    exact ih (fun d hd => hds d (List.mem_cons_of_mem _ hd)) _

theorem DigitClass.unumDigit_eq (hc : DigitClass ctype tonum) {d : Char}
    (hd : ctype d.toNat = true) : unumDigit tonum d = digitValue d := by
  have hlt := isxdigit_lt (hc.hex _ hd)
  rw [unumDigit, toChar_of_lt (by omega) hlt.2, hc.eq_value d hd]

/-- `read_unum` takes a numeral. -/
theorem reads_readUnum_digits (hc : DigitClass ctype tonum) (hr : Delimited rest) {ds : List Char}
    (hds : ∀ d ∈ ds, ctype d.toNat = true) {k : ℕ} (hk : ds.length < k) :
    Reads (readUnum radix ctype tonum k 0) (Utf8.encode ds ++ rest)
      (digitsValue radix ds % 2 ^ 64) rest := by
  have hseen : ∀ d ∈ ds, ctype (toChar d.toNat) = true := by
    intro d hd
    have hlt := isxdigit_lt (hc.hex _ (hds d hd))
    rw [toChar_of_lt (by omega) hlt.2]
    exact hds d hd
  have hstop : ctype (toChar (frontOf [] rest)) = false := hc.not_delimited hr
  have hfront : Reads (readUnum radix ctype tonum k 0) _ _ _ :=
    reads_readUnum_front hc hr hstop ds k 0 hseen hk
  have hvalue : unumOf radix tonum (0 % 2 ^ 64) ds = _ :=
    unumOf_eq _ (fun d hd => hc.unumDigit_eq (hds d hd)) 0
  rw [List.append_nil, Utf8.encode_nil, List.nil_append] at hfront
  rw [Int.zero_emod] at hvalue
  rw [digitsValue, ← hvalue]
  exact hfront

/-- `read_num` takes a numeral with a sign. -/
theorem reads_readNum_digits (hc : DigitClass ctype tonum) (hr : Delimited rest) (s : Sign)
    {ds : List Char} (hne : ds ≠ []) (hds : ∀ d ∈ ds, ctype d.toNat = true) {k : ℕ}
    (hk : ds.length < k) :
    Reads (readNum radix ctype tonum k) (Utf8.encode (s.text ++ ds) ++ rest)
      (toLong (s.apply (digitsValue radix ds % 2 ^ 64))) rest := by
  have hunum : Reads (readUnum radix ctype tonum k 0) _ _ _ :=
    reads_readUnum_digits hc hr hds hk
  cases s with
  | none =>
    obtain ⟨d, ds, rfl⟩ := List.exists_cons_of_ne_nil hne
    have hlt := isxdigit_lt (hc.hex _ (hds d List.mem_cons_self))
    have hminus : ascii '-' = 45 := rfl
    have hplus : ascii '+' = 43 := rfl
    refine (reads_peekChar_frontOf hr (d :: ds)).bind ?_
    rw [frontOf, toChar_of_lt (by omega) hlt.2, if_neg (by omega), if_neg (by omega)]
    exact hunum.bind (Reads.ret _ _)
  | plus =>
    refine (reads_peekChar_frontOf hr ('+' :: ds)).bind ?_
    rw [frontOf, if_neg (by decide), if_pos (by decide), Utf8.encode_cons, List.append_assoc]
    exact (reads_readChar_append '+' _).bind (hunum.bind (Reads.ret _ _))
  | minus =>
    refine (reads_peekChar_frontOf hr ('-' :: ds)).bind ?_
    rw [frontOf, if_pos (by decide), Utf8.encode_cons, List.append_assoc]
    exact (reads_readChar_append '-' _).bind (hunum.bind (Reads.ret _ _))

end Digits

/-! ### Fixnums -/

/-- The conversions of a number to `unsigned long` and back do not change the fixnum. -/
theorem fixnumBits_toLong (s : Sign) (n : ℤ) :
    fixnumBits (toLong (s.apply (n % 2 ^ 64))) = fixnumBits (s.apply n) := by
  have hdvd : (2 ^ 63 : ℕ) ∣ 2 ^ 64 := ⟨2, by norm_num⟩
  rw [fixnumBits, fixnumBits, toLong, Int.bmod_bmod_of_dvd hdvd]
  cases s with
  | none | plus =>
    simp only [Sign.apply, Int.bmod_def]
    omega
  | minus =>
    simp only [Sign.apply, Int.bmod_def]
    omega

theorem IsFixnum.fixnumBits_eq {n : ℤ} (h : IsFixnum n) : fixnumBits n = n :=
  fixnumBits_of_lt h.1 h.2

theorem fixnumBits_mul_neg_one (n : ℤ) : fixnumBits (fixnumBits n * -1) = fixnumBits (-n) := by
  simp only [fixnumBits, Int.bmod_def]
  omega

theorem reads_readDecimal_digits (hr : Delimited rest) (s : Sign) {ds : List Char} (hne : ds ≠ [])
    (hds : ∀ d ∈ ds, isdigit d.toNat = true) {k : ℕ} (hk : ds.length < k) :
    Reads (readDecimal k) (Utf8.encode (s.text ++ ds) ++ rest)
      (fixnumBits (s.apply (digitsValue 10 ds))) rest := by
  rw [← fixnumBits_toLong]
  exact (reads_readNum_digits digitClass_isdigit hr s hne hds hk).bind (Reads.ret _ _)

theorem Radix.reads_read (r : Radix) (hr : Delimited rest) (s : Sign) {ds : List Char}
    (hne : ds ≠ []) (hds : ∀ d ∈ ds, r.ctype d.toNat = true) {k : ℕ} (hk : ds.length < k) :
    Reads (r.read k) (Utf8.encode (s.text ++ ds) ++ rest)
      (fixnumBits (s.apply (digitsValue r.base ds))) rest := by
  rw [← fixnumBits_toLong]
  cases r with
  | binary =>
    exact (reads_readNum_digits binary.digitClass hr s hne hds hk).bind (Reads.ret _ _)
  | octal => exact (reads_readNum_digits octal.digitClass hr s hne hds hk).bind (Reads.ret _ _)
  | hex => exact (reads_readNum_digits hex.digitClass hr s hne hds hk).bind (Reads.ret _ _)

theorem returns_readDecimal (hr : Delimited rest) (cs : List Char) {k : ℕ} (hk : cs.length < k) :
    Returns (readDecimal k) (Utf8.encode cs ++ rest) :=
  (returns_readNum digitClass_isdigit hr cs hk).bind_ret _

theorem Radix.returns_read (r : Radix) (hr : Delimited rest) (cs : List Char) {k : ℕ}
    (hk : cs.length < k) : Returns (r.read k) (Utf8.encode cs ++ rest) := by
  cases r with
  | binary => exact (returns_readNum binary.digitClass hr cs hk).bind_ret _
  | octal => exact (returns_readNum octal.digitClass hr cs hk).bind_ret _
  | hex => exact (returns_readNum hex.digitClass hr cs hk).bind_ret _

theorem ignoresFold_readDecimal (k : ℕ) : IgnoresFold (readDecimal k) :=
  (ignoresFold_readNum _ _ _ k).bind fun _ => ignoresFold_pure _

theorem Radix.ignoresFold_read (r : Radix) (k : ℕ) : IgnoresFold (r.read k) := by
  cases r with
  | binary => exact (ignoresFold_readNum _ _ _ k).bind fun _ => ignoresFold_pure _
  | octal => exact (ignoresFold_readNum _ _ _ k).bind fun _ => ignoresFold_pure _
  | hex => exact (ignoresFold_readNum _ _ _ k).bind fun _ => ignoresFold_pure _

end NaviScheme
