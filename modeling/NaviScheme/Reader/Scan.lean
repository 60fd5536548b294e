import Mathlib.Data.List.TakeWhile
import Mathlib.Tactic.IntervalCases
import NaviScheme.Reader.Display

/-!
# What the reader's loops take

The triples of the functions below `navi_read`: how they see the first character of a text
(`NaviScheme.firstCode`), skip spaces, and take numbers and names up to a delimiter.
-/

namespace NaviScheme

variable {α : Type}

/-- The first character of a text, of one byte, or `EOF`. -/
def firstCode : List UInt8 → ℤ
  | [] => eofValue
  | b :: _ => b.toNat

@[simp] theorem firstCode_cons (b : UInt8) (bs : List UInt8) : firstCode (b :: bs) = b.toNat := rfl

/-- A delimiter: the end, a space or a parenthesis. -/
def Delimited (rest : List UInt8) : Prop := isterminal (firstCode rest) = true

instance (rest : List UInt8) : Decidable (Delimited rest) := by
  unfold Delimited
  infer_instance

theorem delimited_lt {rest : List UInt8} (h : Delimited rest) : firstCode rest < 128 := by
  simp only [Delimited, isterminal, isspace, ascii, eofValue, decide_eq_true_eq] at h
  rcases h with h | h | h | h
  · rcases h with h | h <;> omega
  · rw [h]; decide
  · rw [h]; decide
  · omega

theorem toChar_byte {b : UInt8} (h : b.toNat < 128) : toChar b.toNat = b.toNat :=
  toChar_of_lt (by omega) (by omega)

theorem utf8EncodeChar_byte {b : UInt8} (h : b.toNat < 128) :
    String.utf8EncodeChar (Char.ofNat b.toNat) = [b] := by
  rw [Utf8.utf8EncodeChar_ascii (by rwa [Utf8.toNat_ofNat_ascii h]), Utf8.toNat_ofNat_ascii h]
  simp

/-! ### One character -/

theorem reads_peekChar_append (c : Char) (bs : List UInt8) :
    Reads peekChar (String.utf8EncodeChar c ++ bs) c.toNat (String.utf8EncodeChar c ++ bs) :=
  (reads_naviPortPeekChar c bs).bind (Reads.ret _ _)

theorem reads_readChar_append (c : Char) (bs : List UInt8) :
    Reads readChar (String.utf8EncodeChar c ++ bs) c.toNat bs :=
  (reads_naviPortReadChar c bs).bind (Reads.ret _ _)

theorem reads_peekChar (bs : List UInt8) (h : firstCode bs < 128) :
    Reads peekChar bs (firstCode bs) bs := by
  rcases bs with _ | ⟨b, bs⟩
  · intro p hp hu
    obtain ⟨o, p', hm, ho, hp', hu'⟩ := naviPortPeekChar_nil hp hu
    refine ⟨p', ?_, hp', hu'⟩
    change (naviPortPeekChar p >>= fun x => _) = _
    rw [hm, ok_bind]
    rcases ho with rfl | rfl <;> rfl
  · have hb : b.toNat < 128 := by simp only [firstCode_cons] at h; omega
    have := reads_peekChar_append (Char.ofNat b.toNat) bs
    rwa [utf8EncodeChar_byte hb, Utf8.toNat_ofNat_ascii hb] at this

theorem reads_readChar_nil : Reads readChar [] eofValue [] :=
  reads_naviPortReadChar_nil.bind (Reads.ret _ _)

theorem reads_readChar {b : UInt8} {bs : List UInt8} (h : b.toNat < 128) :
    Reads readChar (b :: bs) b.toNat bs := by
  have := reads_readChar_append (Char.ofNat b.toNat) bs
  rwa [utf8EncodeChar_byte h, Utf8.toNat_ofNat_ascii h] at this

theorem reads_ireadChar_append (c : Char) (bs : List UInt8) :
    Reads ireadChar (String.utf8EncodeChar c ++ bs) c.toNat bs := by
  refine (reads_readChar_append c bs).bind ?_
  rw [if_neg (by simp only [eofValue]; omega)]
  exact Reads.ret _ _

theorem reads_ireadChar {b : UInt8} {bs : List UInt8} (h : b.toNat < 128) :
    Reads ireadChar (b :: bs) b.toNat bs := by
  refine (reads_readChar h).bind ?_
  rw [if_neg (by simp only [eofValue]; omega)]
  exact Reads.ret _ _

theorem reads_ipeekChar {b : UInt8} {bs : List UInt8} (h : b.toNat < 128) :
    Reads ipeekChar (b :: bs) b.toNat (b :: bs) := by
  refine (reads_peekChar (b :: bs) (by simp only [firstCode_cons]; omega)).bind ?_
  rw [firstCode_cons, if_neg (by simp only [eofValue]; omega)]
  exact Reads.ret _ _

/-! ### Spaces -/

/-- `peek_first_char` passes the spaces in front of a text. -/
theorem reads_peekFirstChar (bs : List UInt8) (h : firstCode bs < 128)
    (hs : isspace (firstCode bs) = false) :
    ∀ (ws : List UInt8) (n : ℕ), (∀ b ∈ ws, isspace b.toNat = true) → ws.length < n →
      Reads (peekFirstChar n) (ws ++ bs) (firstCode bs) bs := by
  intro ws
  induction ws with
  | nil =>
    intro n _ hn
    obtain ⟨n, rfl⟩ := Nat.exists_eq_succ_of_ne_zero (Nat.ne_of_gt hn)
    refine (reads_peekChar bs h).bind ?_
    rw [if_neg (by simp [hs])]
    exact Reads.ret _ _
  | cons b ws ih =>
    intro n hws hn
    obtain ⟨n, rfl⟩ := Nat.exists_eq_succ_of_ne_zero (Nat.ne_of_gt (Nat.zero_lt_of_lt hn))
    have hb : isspace b.toNat = true := hws b List.mem_cons_self
    have hlt : b.toNat < 128 := by
      simp only [isspace, decide_eq_true_eq] at hb
      rcases hb with hb | hb <;> omega
    refine (reads_peekChar (b :: (ws ++ bs)) (by simp only [firstCode_cons]; omega)).bind ?_
    rw [firstCode_cons, if_pos hb]
    refine (reads_readChar hlt).bind (ih n (fun b hb => hws b (List.mem_cons_of_mem _ hb)) ?_)
    simp only [List.length_cons] at hn
    omega

theorem reads_peekFirstChar_cons {b : UInt8} {bs : List UInt8} (h : b.toNat < 128)
    (hs : isspace b.toNat = false) (ws : List UInt8) {n : ℕ}
    (hws : ∀ b ∈ ws, isspace b.toNat = true) (hn : ws.length < n) :
    Reads (peekFirstChar n) (ws ++ b :: bs) b.toNat (b :: bs) :=
  reads_peekFirstChar (b :: bs) (by simp only [firstCode_cons]; omega) hs ws n hws hn

theorem reads_ipeekFirstChar {b : UInt8} {bs : List UInt8} (h : b.toNat < 128)
    (hs : isspace b.toNat = false) (ws : List UInt8) {n : ℕ}
    (hws : ∀ b ∈ ws, isspace b.toNat = true) (hn : ws.length < n) :
    Reads (ipeekFirstChar n) (ws ++ b :: bs) b.toNat (b :: bs) := by
  refine (reads_peekFirstChar_cons h hs ws hws hn).bind ?_
  rw [if_neg (by simp only [eofValue]; omega)]
  exact Reads.ret _ _

/-! ### Numbers -/

/-- The number that `read_unum` makes of digits. -/
def unumValue (radix : ℤ) (value : UInt8 → ℤ) (n : ℤ) (ds : List UInt8) : ℤ :=
  ds.foldl (fun n d => (n * radix + value d) % 2 ^ 64) n

/-- `read_unum` takes the digits in front of a character that is none. -/
theorem reads_readUnum (radix : ℤ) {ctype : ℤ → Bool} {tonum : ℤ → Except ReadExn ℤ}
    {value : UInt8 → ℤ} {rest : List UInt8} (hr : firstCode rest < 128)
    (hrest : ctype (toChar (firstCode rest)) = false) :
    ∀ (ds : List UInt8) (k : ℕ) (n : ℤ),
      (∀ d ∈ ds, d.toNat < 128 ∧ ctype d.toNat = true ∧ tonum d.toNat = .ok (value d)) →
      ds.length < k →
      Reads (readUnum radix ctype tonum k n) (ds ++ rest) (unumValue radix value n ds) rest := by
  intro ds
  induction ds with
  | nil =>
    intro k n _ hk
    obtain ⟨k, rfl⟩ := Nat.exists_eq_succ_of_ne_zero (Nat.ne_of_gt hk)
    refine (reads_peekChar rest hr).bind ?_
    rw [if_neg (by simp [hrest])]
    exact Reads.ret _ _
  | cons d ds ih =>
    intro k n hds hk
    obtain ⟨k, rfl⟩ := Nat.exists_eq_succ_of_ne_zero (Nat.ne_of_gt (Nat.zero_lt_of_lt hk))
    obtain ⟨hlt, hc, hv⟩ := hds d List.mem_cons_self
    refine (reads_peekChar (d :: (ds ++ rest)) (by simp only [firstCode_cons]; omega)).bind ?_
    rw [firstCode_cons, toChar_byte hlt, if_pos hc, hv]
    refine Reads.bind (Reads.ret _ _) ((reads_readChar hlt).bind ?_)
    refine ih k _ (fun d hd => hds d (List.mem_cons_of_mem _ hd)) ?_
    simp only [List.length_cons] at hk
    omega

/-- The byte of a digit. -/
def digitByte (d : ℕ) : UInt8 := toByte (ascii d.digitChar)

/-- The digits of a number. -/
def digitBytes (radix n : ℕ) : List UInt8 := (Nat.toDigits radix n).map fun c => toByte (ascii c)

theorem decimal_of_nonneg (n : ℕ) : decimal n = digitBytes 10 n := by
  rw [decimal, if_neg (by omega)]
  rfl

theorem decimal_of_neg {n : ℤ} (h : n < 0) :
    decimal n = toByte (ascii '-') :: digitBytes 10 n.natAbs := by
  rw [decimal, if_pos h]
  rfl

theorem digitByte_decimal {d : ℕ} (h : d < 10) :
    48 ≤ (digitByte d).toNat ∧ (digitByte d).toNat < 58 ∧ (digitByte d).toNat = 48 + d := by
  interval_cases d <;> decide

theorem digitByte_hex {d : ℕ} (h : d < 16) :
    (digitByte d).toNat < 128 ∧ isxdigit (digitByte d).toNat = true ∧
      hexValue (digitByte d).toNat = .ok (d : ℤ) := by
  interval_cases d <;> exact ⟨by decide, by decide, rfl⟩

theorem digitBytes_ne_nil (radix n : ℕ) : digitBytes radix n ≠ [] := by
  simp [digitBytes]

/-- The digits of a number are those of its quotient, and the remainder. -/
theorem digitBytes_eq {radix : ℕ} (hb : 1 < radix) (n : ℕ) :
    digitBytes radix n =
      if n < radix then [digitByte n] else digitBytes radix (n / radix) ++ [digitByte (n % radix)] := by
  rw [digitBytes, Nat.toDigits_eq_if hb]
  split
  · rfl
  · rw [List.map_append]
    rfl

theorem mem_digitBytes {radix : ℕ} (hb : 1 < radix) (n : ℕ) {b : UInt8}
    (h : b ∈ digitBytes radix n) : ∃ d < radix, b = digitByte d := by
  induction n using Nat.strong_induction_on with
  | _ n ih =>
    rw [digitBytes_eq hb] at h
    split at h
    · rename_i hn
      exact ⟨n, hn, List.mem_singleton.1 h⟩
    · rename_i hn
      rcases List.mem_append.1 h with h | h
      · exact ih _ (Nat.div_lt_self (by omega) hb) h
      · exact ⟨_, Nat.mod_lt n (by omega), List.mem_singleton.1 h⟩

/-- The digits of a number give it back. -/
theorem foldl_digitBytes {radix : ℕ} (hb : 1 < radix) {f : ℤ → UInt8 → ℤ} (bound : ℕ)
    (hf : ∀ m d : ℕ, d < radix → m * radix + d < bound →
      f m (digitByte d) = ((m * radix + d : ℕ) : ℤ)) (n : ℕ) (hn : n < bound) :
    (digitBytes radix n).foldl f 0 = n := by
  induction n using Nat.strong_induction_on with
  | _ n ih =>
    rw [digitBytes_eq hb]
    split
    · rename_i hlt
      have := hf 0 n hlt (by omega)
      simpa using this
    · rename_i hge
      have hmod := Nat.div_add_mod n radix
      rw [Nat.mul_comm] at hmod
      have hdiv : n / radix < n := Nat.div_lt_self (by omega) hb
      rw [List.foldl_append, ih _ hdiv (by omega), List.foldl_cons, List.foldl_nil,
        hf _ _ (Nat.mod_lt n (by omega)) (by omega), hmod]

theorem isdigit_byte {b : UInt8} : isdigit b.toNat = true ↔ 48 ≤ b.toNat ∧ b.toNat ≤ 57 := by
  simp only [isdigit, ascii, decide_eq_true_eq]
  have h : ('0').toNat = 48 := rfl
  have h' : ('9').toNat = 57 := rfl
  omega

/-- A delimiter is not a digit. -/
theorem Delimited.not_isdigit {rest : List UInt8} (h : Delimited rest) :
    isdigit (toChar (firstCode rest)) = false := by
  have hlt := delimited_lt h
  have hge : -1 ≤ firstCode rest := by
    cases rest with
    | nil => exact le_refl _
    | cons b bs => simp only [firstCode_cons]; omega
  rw [toChar_of_lt (by omega) hlt]
  simp only [Delimited, isterminal, isspace, ascii, eofValue, decide_eq_true_eq] at h
  simp only [isdigit, ascii, decide_eq_false_iff_not]
  have h0 : ('0').toNat = 48 := rfl
  have h1 : ('(').toNat = 40 := rfl
  have h2 : (')').toNat = 41 := rfl
  omega

/-- `read_decimal` takes the digits of a number. -/
theorem reads_readDecimal {rest : List UInt8} (hr : Delimited rest) (n : ℕ) {k : ℕ} (hn : n < 2 ^ 64)
    (hk : (digitBytes 10 n).length < k) :
    Reads (readDecimal k) (digitBytes 10 n ++ rest) (fixnumBits (toLong n)) rest := by
  have hdig : ∀ d ∈ digitBytes 10 n, 48 ≤ d.toNat ∧ d.toNat < 58 := by
    intro d hd
    obtain ⟨m, hm, rfl⟩ := mem_digitBytes (by decide) n hd
    have := digitByte_decimal hm
    omega
  have hval : unumValue 10 (fun b => (b.toNat : ℤ) - 48) 0 (digitBytes 10 n) = n := by
    refine foldl_digitBytes (by decide) (2 ^ 64) ?_ n hn
    intro m d hd hlt
    have := (digitByte_decimal hd).2.2
    simp only [this]
    omega
  obtain ⟨b, bs, hbs⟩ := List.exists_cons_of_ne_nil (digitBytes_ne_nil 10 n)
  have hb : 48 ≤ b.toNat ∧ b.toNat < 58 := hdig b (by rw [hbs]; exact List.mem_cons_self)
  have hunum : Reads (readUnum 10 isdigit decimalValue k 0) (digitBytes 10 n ++ rest)
      (unumValue 10 (fun b => (b.toNat : ℤ) - 48) 0 (digitBytes 10 n)) rest := by
    refine reads_readUnum 10 (delimited_lt hr) hr.not_isdigit (digitBytes 10 n) k 0 ?_ hk
    intro d hd
    have := hdig d hd
    exact ⟨by omega, isdigit_byte.2 (by omega), rfl⟩
  rw [hval] at hunum
  have hnum : Reads (readNum 10 isdigit decimalValue k) (digitBytes 10 n ++ rest) (toLong n) rest := by
    rw [hbs] at hunum ⊢
    refine (reads_peekChar (b :: (bs ++ rest)) (by simp only [firstCode_cons]; omega)).bind ?_
    have hminus : ('-').toNat = 45 := rfl
    have hplus : ('+').toNat = 43 := rfl
    rw [firstCode_cons, toChar_of_lt (by omega) (by omega), if_neg (by simp only [ascii]; omega),
      if_neg (by simp only [ascii]; omega)]
    exact hunum.bind (Reads.ret _ _)
  exact hnum.bind (Reads.ret _ _)

/-! ### Names -/

theorem reads_handleCase (str bs : List UInt8) : Reads (handleCase str) bs str bs := by
  intro p hp hu
  refine ⟨p, ?_, hp, hu⟩
  change (if p.foldCase = true then _ else _ : ReadM (List UInt8)) p = _
  rw [if_neg (by simp [hp.noFold])]
  rfl

/-- A byte of a name: not a delimiter, and not the NUL that would end it. -/
def NameByte (b : UInt8) : Prop := b.toNat < 128 ∧ b ≠ 0 ∧ isterminal b.toNat = false

instance (b : UInt8) : Decidable (NameByte b) := by
  unfold NameByte
  infer_instance

theorem reads_readUntil {rest : List UInt8} (hr : Delimited rest) :
    ∀ (name str : List UInt8) (n : ℕ), (∀ b ∈ name, NameByte b) → (∀ b ∈ str, b ≠ 0) →
      name.length < n →
      Reads (readUntil (fun c => .ok (isterminal c)) n str) (name ++ rest) (str ++ name) rest := by
  intro name
  induction name with
  | nil =>
    intro str n _ hstr hn
    obtain ⟨n, rfl⟩ := Nat.exists_eq_succ_of_ne_zero (Nat.ne_of_gt hn)
    refine (reads_peekChar rest (delimited_lt hr)).bind ((Reads.ret _ _).bind ?_)
    rw [if_pos (show isterminal (firstCode rest) = true from hr), List.append_nil, List.takeWhile_eq_self_iff.2 (by simpa using hstr)]
    exact Reads.ret _ _
  | cons b name ih =>
    intro str n hname hstr hn
    obtain ⟨n, rfl⟩ := Nat.exists_eq_succ_of_ne_zero (Nat.ne_of_gt (Nat.zero_lt_of_lt hn))
    obtain ⟨hlt, hb, ht⟩ := hname b List.mem_cons_self
    refine (reads_peekChar (b :: (name ++ rest)) (by simp only [firstCode_cons]; omega)).bind
      ((Reads.ret _ _).bind ?_)
    rw [firstCode_cons, if_neg (by simp [ht])]
    refine (reads_readChar hlt).bind ?_
    rw [if_neg (by omega), toByte_toNat]
    have hstr' : ∀ c ∈ str ++ [b], c ≠ 0 := by
      intro c hc
      rcases List.mem_append.1 hc with hc | hc
      · exact hstr c hc
      · exact List.mem_singleton.1 hc ▸ hb
    have hloop := ih (str ++ [b]) n (fun c hc => hname c (List.mem_cons_of_mem _ hc)) hstr'
      (by simp only [List.length_cons] at hn; omega)
    rwa [List.append_assoc] at hloop

/-- `read_until` takes a name, up to a delimiter. -/
theorem reads_readUntilTerminal {rest : List UInt8} (hr : Delimited rest) (name : List UInt8)
    (hname : ∀ b ∈ name, NameByte b) {n : ℕ} (hn : name.length < n) :
    Reads (readUntilTerminal n) (name ++ rest) name rest :=
  reads_readUntil hr name [] n hname (fun _ h => nomatch h) hn

theorem reads_readSymbol {name rest : List UInt8} (hr : Delimited rest)
    (hname : ∀ b ∈ name, NameByte b) {n : ℕ} (hn : name.length < n) :
    Reads (readSymbol (fun c => .ok (isterminal c)) n) (name ++ rest) (.symbol name) rest :=
  (reads_readUntilTerminal hr name hname hn).bind ((reads_handleCase _ _).bind (Reads.ret _ _))

end NaviScheme
