import NaviScheme.Reader.Takes

/-!
# What string literals denote

A string literal is made of characters, escapes and line continuations
(`NaviScheme.StringElement`). `read_string_escape` returns a character for every escape, also where
the escape denotes none: behind a line continuation it takes the next character as it stands. Where
that is an ordinary character, `read_string` stores what the literal denotes, up to its closing
quote (`NaviScheme.readsLiteral`); a code point that is not defined is a question mark.
-/

namespace NaviScheme

open Fuel

/-! ### Literals -/

/-- The double quote, as a character. -/
def quoteChar : Char := Char.ofNat 0x22

/-- The backslash, as a character. -/
def backslashChar : Char := Char.ofNat 0x5C

/-- A space or a tab. -/
def isBlank (c : Char) : Bool := c.toNat = 0x20 ∨ c.toNat = 9

/-- The escapes of one letter, and what they stand for. -/
def stringEscapes : List (Char × ℤ) :=
  [('a', 0x7), ('b', 0x8), ('t', 0x9), ('n', 0xA), ('r', 0xD), (quoteChar, doubleQuote),
    (backslashChar, backslash), ('|', ascii '|')]

/-- What a string literal is made of. -/
inductive StringElement
  /-- an ordinary character -/
  | char (c : Char)
  /-- a backslash and a letter, which stand for a code -/
  | escape (letter : Char) (code : ℤ)
  /-- a backslash, `x`, digits and a semicolon -/
  | hex (ds : List Char)
  /-- a backslash, blanks, a newline and the blanks of the next line -/
  | continuation (before after : List Char)

namespace StringElement

/-- How it is written. -/
def text : StringElement → List Char
  | char c => [c]
  | escape letter _ => [backslashChar, letter]
  | hex ds => backslashChar :: 'x' :: (ds ++ [';'])
  | continuation before after => backslashChar :: (before ++ newlineChar :: after)

/-- An element of a literal. -/
def Valid : StringElement → Prop
  | char c => c ≠ quoteChar ∧ c ≠ backslashChar
  | escape letter code => (letter, code) ∈ stringEscapes
  | hex ds => ds ≠ [] ∧ (∀ d ∈ ds, isxdigit d.toNat = true) ∧ digitsValue 16 ds ≤ 0x10FFFF
  | continuation before after => ∀ c ∈ before ++ after, isBlank c = true

/-- The code points that it denotes. -/
def denotes : StringElement → List ℤ
  | char c => [(c.toNat : ℤ)]
  | escape _ code => [code]
  | hex ds => [digitsValue 16 ds]
  | continuation _ _ => []

/-- The same, with a question mark for a code point that is not defined. -/
def denotesDefined (X : ReadEnv) : StringElement → List ℤ
  | hex ds => [if X.uIsdefined (digitsValue 16 ds) then digitsValue 16 ds else ascii '?']
  | e => e.denotes

end StringElement

/-- A literal behind its opening quote. -/
def literalText : List StringElement → List Char
  | [] => [quoteChar]
  | e :: es => e.text ++ literalText es

/-- Every line continuation stands in front of an ordinary character that is no space. -/
def ContinuesToChar : List StringElement → Prop
  | [] => True
  | .continuation _ _ :: es => (∃ c fs, es = .char c :: fs ∧ isspace c.toNat = false) ∧
      ContinuesToChar es
  | _ :: es => ContinuesToChar es

/-- The encoding of code points. -/
def encodeCodes (cs : List ℤ) : List UInt8 :=
  cs.flatMap fun c => String.utf8EncodeChar (Char.ofNat c.toNat)

/-- **`read_string` reads the code points `cs`**, and leaves `rest`: the rounds of its loop store
them up to the closing quote, and where they have room in its buffer, it returns their string. -/
def ReadsLiteral (X : ReadEnv) (p : Port) (cs : List ℤ) (rest : List Char) : Prop :=
  ∃ p', Literal X p cs (some p') ∧ p'.At rest ∧
    (LiteralFits cs true → Converges (readString X) p (.ok (.string (encodeCodes cs) cs.length, p')))

variable {X : ReadEnv} {p : Port} {cs : List ℤ} {rest : List Char}

/-! ### The buffer -/

/-- What is in the buffer is the encoding of what has been stored. -/
theorem foldlM_u8Append_eq {data data' : List UInt8}
    (h : cs.foldlM (u8Append · strBufLen) data = .ok data') : data' = data ++ encodeCodes cs := by
  induction cs generalizing data with
  | nil =>
    cases h
    exact (List.append_nil _).symm
  | cons c cs ih =>
    rw [List.foldlM_cons] at h
    obtain ⟨data₁, happ, hrest⟩ := bind_eq_ok h
    rw [ih hrest, (length_u8Append happ).1, encodeCodes, encodeCodes, List.flatMap_cons,
      List.append_assoc]

/-- `read_string` returns the string of a literal that has room. -/
theorem Literal.readString {p' : Port} {ds : List Char} (h : Literal X p cs (some p'))
    (hp : p.At ds) (hfit : LiteralFits cs true) :
    Converges (readString X) p (.ok (.string (encodeCodes cs) cs.length, p')) := by
  obtain ⟨r, hr, hends⟩ := readStringLoop_literal h [] 0 hp.has
  have hsum : (cs.map u8Length).sum ≤ 64 := by
    obtain hle | ⟨hclosed, -⟩ := hfit.2
    · exact hle
    · cases hclosed
  obtain ⟨-, data, hdata, hlen⟩ | ⟨hno, -⟩ := foldlM_u8Append cs
  · rw [hdata] at hends
    have hle : (data.length : ℤ) ≤ strBufLen := by
      rw [hlen]
      exact hsum
    have hres : r = .ok (.string data (0 + cs.length), p') := by
      refine Eq.trans hends ?_
      rw [if_pos hle]
    rw [Nat.zero_add, foldlM_u8Append_eq hdata, List.nil_append] at hres
    rwa [hres] at hr
  · exact absurd ⟨hfit.1, Or.inl hsum⟩ hno

/-! ### Rounds -/

theorem digitsValue_nonneg {ds : List Char} (hds : ∀ d ∈ ds, isxdigit d.toNat = true) :
    0 ≤ digitsValue 16 ds := by
  have hdigit : ∀ d ∈ ds, 0 ≤ digitValue d := by
    intro d hd
    have h0 : ('0').toNat = 48 := rfl
    have ha : ('a').toNat = 97 := rfl
    have hA : ('A').toNat = 65 := rfl
    have hx := hds d hd
    simp only [isxdigit, isdigit, ascii, decide_eq_true_eq] at hx
    simp only [digitValue, isdigit, ascii, decide_eq_true_eq]
    split_ifs
    all_goals omega
  have hfold : ∀ n : ℤ, 0 ≤ n → 0 ≤ ds.foldl (fun n d => n * 16 + digitValue d) n := by
    clear hds
    induction ds with
    | nil => exact fun n hn => hn
    | cons d ds ih =>
      intro n hn
      have hd := hdigit d List.mem_cons_self
      exact ih (fun e he => hdigit e (List.mem_cons_of_mem _ he)) (n * 16 + digitValue d) (by omega)
  exact hfold 0 le_rfl

/-- A round at an ordinary character. -/
theorem takes_readStringChar_char {c : Char} (hc : (StringElement.char c).Valid)
    (h : p.At (c :: rest)) : Takes (readStringChar X) p (some c.toNat) rest := by
  have hne : ∀ d : Char, c ≠ d → ¬ (c.toNat : ℤ) = d.toNat := fun d hd heq =>
    hd (Char.toNat_inj.mp (by exact_mod_cast heq))
  refine (takes_ireadChar h).bind fun p' hp' _ => ?_
  simp only [if_neg (show ¬ (c.toNat : ℤ) = doubleQuote from hne _ hc.1),
    if_neg (show ¬ (c.toNat : ℤ) = backslash from hne _ hc.2)]
  exact Takes.ret hp' _

/-- A round at the closing quote. -/
theorem takes_readStringChar_quote (h : p.At (quoteChar :: rest)) :
    Takes (readStringChar X) p none rest :=
  (takes_ireadChar h).bind fun _ hp' _ => Takes.ret hp' _

/-- A round at a backslash. -/
theorem takes_readStringChar_backslash {v : ℤ} {ds : List Char} (h : p.At (backslashChar :: ds))
    (hescape : ∀ p', p'.At ds → p'.foldCase = p.foldCase →
      Takes (readStringEscape X) p' v rest) :
    Takes (readStringChar X) p (some v) rest :=
  (takes_ireadChar h).bind fun _ hp' hfold =>
    (hescape _ hp' hfold).bind fun _ hq _ => Takes.ret hq _

/-- The escapes of one letter. -/
theorem takes_readStringEscape_letter {letter : Char} {code : ℤ}
    (he : (StringElement.escape letter code).Valid) (h : p.At (letter :: rest)) :
    Takes (readStringEscape X) p code rest := by
  refine (takes_ireadChar h).bind fun p' hp' _ => ?_
  have hcases : (letter, code) ∈ stringEscapes := he
  simp only [stringEscapes, List.mem_cons, Prod.mk.injEq, List.not_mem_nil, or_false] at hcases
  rcases hcases with ⟨rfl, rfl⟩ | ⟨rfl, rfl⟩ | ⟨rfl, rfl⟩ | ⟨rfl, rfl⟩ | ⟨rfl, rfl⟩ | ⟨rfl, rfl⟩ |
    ⟨rfl, rfl⟩ | ⟨rfl, rfl⟩
  all_goals exact Takes.ret hp' _

/-- `x`, digits and a semicolon. -/
theorem takes_readStringEscape_hex {ds : List Char} (he : (StringElement.hex ds).Valid)
    (h : p.At ('x' :: (ds ++ ';' :: rest))) :
    Takes (readStringEscape X) p
      (if X.uIsdefined (digitsValue 16 ds) then digitsValue 16 ds else ascii '?') rest := by
  obtain ⟨-, hds, hmax⟩ := he
  have hseen : ∀ d ∈ ds, seenDigit isxdigit d = true := by
    intro d hd
    have hlt := isxdigit_lt (hds d hd)
    rw [seenDigit, toChar_of_lt (by omega) hlt.2]
    exact hds d hd
  have hstop : ¬ seenDigit isxdigit ';' = true := by decide
  have htake : (ds ++ ';' :: rest).takeWhile (seenDigit isxdigit) = ds := by
    rw [List.takeWhile_append_of_pos hseen, List.takeWhile_cons_of_neg hstop, List.append_nil]
  have hdrop : (ds ++ ';' :: rest).dropWhile (seenDigit isxdigit) = ';' :: rest := by
    rw [List.dropWhile_append_of_pos hseen, List.dropWhile_cons_of_neg hstop]
  have hclass : DigitClass isxdigit hexValue := Radix.hex.digitClass
  have hnonneg : 0 ≤ digitsValue 16 ds := digitsValue_nonneg hds
  have hvalue : unumOf 16 hexValue 0 ds = digitsValue 16 ds := by
    have hmod := unumOf_eq 16 (fun d hd => hclass.unumDigit_eq (hds d hd)) 0
    rw [Int.zero_emod] at hmod
    rw [hmod]
    exact Int.emod_eq_of_lt hnonneg (by simp only [digitsValue] at hmax; omega)
  have hint : toInt32 (digitsValue 16 ds) = digitsValue 16 ds :=
    Int.bmod_eq_of_le (by omega) (by omega)
  refine (takes_ireadChar h).bind fun p' hp' _ => ?_
  change Takes (fun n => do
    let u ← readUnum 16 isxdigit hexValue n 0
    let d ← ipeekChar
    if d = ascii ';' then do
      let _ ← readChar
      return if X.uIsdefined (toInt32 u) then toInt32 u else ascii '?'
    else return if X.uIsdefined (toInt32 u) then toInt32 u else ascii '?') p' _ rest
  have hunum := takes_readUnum 16 hclass 0 hp'
  rw [htake, hdrop, hvalue] at hunum
  refine hunum.bind fun q hq _ => (takes_ipeekChar hq).bind fun q' hq' _ => ?_
  refine (takes_readChar hq').bind fun q'' hq'' _ => ?_
  rw [hint]
  exact Takes.ret hq'' _

theorem takes_skipSpaces {ws : List Char} {c : Char} (hws : ∀ d ∈ ws, isspace d.toNat = true)
    (hc : isspace c.toNat = false) (h : p.At (ws ++ c :: rest)) :
    Takes skipSpaces p c.toNat rest := by
  induction ws generalizing p with
  | nil =>
    refine Takes.succ ((takes_ireadChar h).bind fun p' hp' _ => ?_)
    simp only [hc, Bool.false_eq_true, if_false]
    exact Takes.ret hp' _
  | cons d ws ih =>
    refine Takes.succ ((takes_ireadChar h).bind fun p' hp' _ => ?_)
    simp only [if_pos (hws d List.mem_cons_self)]
    exact ih (fun e he => hws e (List.mem_cons_of_mem _ he)) hp'

/-- **A line continuation**: the character that follows is returned. -/
theorem takes_readStringEscape_continuation {before after : List Char} {c : Char}
    (he : (StringElement.continuation before after).Valid) (hc : isspace c.toNat = false)
    (h : p.At (before ++ newlineChar :: after ++ c :: rest)) :
    Takes (readStringEscape X) p c.toNat rest := by
  have hspace : ∀ d ∈ before ++ newlineChar :: after, isspace d.toNat = true := by
    have hblank : ∀ d : Char, isBlank d = true → isspace d.toNat = true := by
      intro d hd
      simp only [isBlank, decide_eq_true_eq] at hd
      simp only [isspace, decide_eq_true_eq]
      omega
    intro d hd
    rcases List.mem_append.mp hd with hd | hd
    · exact hblank d (he d (List.mem_append_left _ hd))
    · rcases List.mem_cons.mp hd with rfl | hd
      · decide
      · exact hblank d (he d (List.mem_append_right _ hd))
  obtain ⟨d, ws, hws⟩ := List.exists_cons_of_ne_nil
    (List.append_ne_nil_of_right_ne_nil before (List.cons_ne_nil newlineChar after))
  rw [hws] at hspace h
  have hd := hspace d List.mem_cons_self
  have hother : ∀ a : Char, isspace a.toNat = false → ¬ (d.toNat : ℤ) = a.toNat := by
    intro a ha heq
    rw [heq, ha] at hd
    cases hd
  refine (takes_ireadChar h).bind fun p' hp' _ => ?_
  simp only [if_neg (show ¬ (d.toNat : ℤ) = ascii 'a' from hother 'a' (by decide)),
    if_neg (show ¬ (d.toNat : ℤ) = ascii 'b' from hother 'b' (by decide)),
    if_neg (show ¬ (d.toNat : ℤ) = ascii 't' from hother 't' (by decide)),
    if_neg (show ¬ (d.toNat : ℤ) = ascii 'n' from hother 'n' (by decide)),
    if_neg (show ¬ (d.toNat : ℤ) = ascii 'r' from hother 'r' (by decide)),
    show ¬ (d.toNat : ℤ) = doubleQuote from hother quoteChar (by decide),
    show ¬ (d.toNat : ℤ) = backslash from hother backslashChar (by decide),
    show ¬ (d.toNat : ℤ) = ascii '|' from hother '|' (by decide), or_false, if_false, if_pos hd]
  exact takes_skipSpaces (fun e he => hspace e (List.mem_cons_of_mem _ he)) hc hp'

/-! ### Whole literals -/

/-- The closing quote. -/
theorem readsLiteral_nil (h : p.At (quoteChar :: rest)) : ReadsLiteral X p [] rest := by
  obtain ⟨p', hread, hp', -⟩ := takes_readStringChar_quote (X := X) h
  have hliteral : Literal X p [] (some p') := .close hread
  exact ⟨p', hliteral, hp', hliteral.readString h⟩

/-- A round, and the rounds that follow. -/
theorem ReadsLiteral.cons {v : ℤ} {ds : List Char} {text : List Char} (hp : p.At text)
    (h : Takes (readStringChar X) p (some v) ds)
    (hrest : ∀ q, q.At ds → ReadsLiteral X q cs rest) : ReadsLiteral X p (v :: cs) rest := by
  obtain ⟨q, hread, hq, -⟩ := h
  obtain ⟨p', hliteral, hp', -⟩ := hrest q hq
  have hcons : Literal X p (v :: cs) (some p') := .char hread hliteral
  exact ⟨p', hcons, hp', hcons.readString hp⟩

/-- U+0378 is not defined. -/
def undefined0378 : ReadEnv where
  uIsdefined c := c ≠ 0x378
  naviGetInternal d := .ok d

end NaviScheme
