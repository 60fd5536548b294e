import NaviScheme.Reader.Takes

/-!
# What is structure to the readers

`read_list`, `read_unum` and `read_num` keep the characters that they peek at in a `char`. There
the code points from `0x80` on become others: U+0129 becomes a closing parenthesis, and U+0130 the
digit zero. The readers treat only ASCII characters as structure (`NaviScheme.TreatsAscii`)
exactly where no other character is taken for one of these (`NaviScheme.treatsAscii_iff`).
-/

namespace NaviScheme

open Fuel

/-! ### The actions of `read_list` -/

/-- What `read_list` does at a character. -/
inductive ListAction
  /-- The list ends. -/
  | close
  /-- The last element follows, or a symbol that begins with the dot. -/
  | dot
  /-- `read_sharp` is called. -/
  | sharp
  /-- The line is consumed. -/
  | comment
  /-- `navi_read` is called. -/
  | element
  deriving DecidableEq

/-- The `switch` of `read_list`. -/
def listAction (c : ℤ) : ListAction :=
  if c = ascii ')' then .close
  else if c = ascii '.' then .dot
  else if c = ascii '#' then .sharp
  else if c = ascii ';' then .comment
  else .element

/-- The action, as far as its own calls of a reader. -/
def ListAction.run (n : ℕ) : ListAction → ReadM ListNext
  | close => do
    let _ ← readChar
    return .close
  | dot => do
    let _ ← readChar
    let c := toChar (← ipeekChar)
    if isterminal c then return .last
    else do
      let expr ← readSymbolWithPrefix (ascii '.') n
      return .symbol expr
  | sharp => do
    let _ ← readChar
    return .sharp
  | comment => do
    consumeLine n
    return .skip
  | element => return .element

/-- A round of `read_list` takes the action of the character that it sees. -/
theorem listHead_eq (n : ℕ) :
    listHead n = ipeekFirstChar n >>= fun c => (listAction (toChar c)).run n := by
  rw [listHead]
  refine bind_congr fun c => ?_
  dsimp only
  rw [listAction]
  split_ifs
  · rfl
  · rfl
  · rfl
  · rfl
  · rfl

/-- What follows the last element, behind a dot. -/
def listEnd (elms : List Datum) (last : Datum) (n : ℕ) : ReadM Datum := do
  let c ← peekFirstChar n
  if toChar c = ascii ')' then do
    let _ ← readChar
    return Datum.listTail elms last
  else throw (naviReadError "missing list terminator" [])

/-! ### Numbers -/

/-- The kinds of numbers that are read. -/
inductive NumberKind
  /-- `read_decimal` -/
  | decimal
  /-- `read_binary`, `read_octal` and `read_hex` -/
  | radix (r : Radix)

namespace NumberKind

/-- The radix. -/
def base : NumberKind → ℤ
  | decimal => 10
  | radix r => r.base

/-- The digits. -/
def ctype : NumberKind → ℤ → Bool
  | decimal => isdigit
  | radix r => r.ctype

/-- The value of a digit, to the reader. -/
def tonum : NumberKind → ℤ → Except ReadExn ℤ
  | decimal => decimalValue
  | radix r => r.tonum

theorem digitClass (k : NumberKind) : DigitClass k.ctype k.tonum := by
  cases k with
  | decimal => exact digitClass_isdigit
  | radix r => exact r.digitClass

/-- A digit. -/
def isDigit (k : NumberKind) (c : Char) : Bool := k.ctype c.toNat

end NumberKind

/-- The sign in front of a number. -/
def signOf : List Char → Sign
  | '+' :: _ => .plus
  | '-' :: _ => .minus
  | _ => .none

/-- What is behind the sign. -/
def behindSign : List Char → List Char
  | '+' :: cs | '-' :: cs => cs
  | cs => cs

/-! ### Structure -/

/-- `navi_read` would read a symbol here, and a round of `read_list` reads the same. -/
inductive ReadsElement (p : Port) (s : List UInt8) (ds : List Char) : Prop
  /-- `read_list` reads it, behind a dot -/
  | symbol (h : Takes listHead p (.symbol (.symbol s)) ds)
  /-- `read_list` calls `navi_read`. -/
  | element {q : Port} (h : Converges listHead p (.ok (.element, q)))
    (hread : Takes readHead q (.done (.symbol s)) ds)

/-- A dot that stands alone. -/
def LoneDot (cs : List Char) : Prop :=
  ∃ ds, dropSpaces cs = '.' :: ds ∧ isterminal (frontCode ds) = true

/-- **Only ASCII characters are structure**, where the readers stand at the characters `cs`. -/
structure TreatsAscii (p : Port) (cs : List Char) : Prop where
  /-- The actions inside a list are taken for their own characters. -/
  action : ∀ c ds, dropSpaces cs = c :: ds →
    ∃ q : Port, q.At (c :: ds) ∧ ∃ N, ∀ n ≥ N, listHead n p = (listAction c.toNat).run n q
  /-- Behind a dot, the closing parenthesis ends the list. -/
  tail : ∀ elms last,
    (∃ q, Converges (listEnd elms last) p (.ok (Datum.listTail elms last, q))) ↔
      ∃ ds, dropSpaces cs = ')' :: ds
  /-- `read_unum` accumulates the digits. -/
  unum : ∀ k : NumberKind, Takes (fun n => readUnum k.base k.ctype k.tonum n 0) p
    (digitsValue k.base (cs.takeWhile k.isDigit) % 2 ^ 64) (cs.dropWhile k.isDigit)
  /-- `read_num` takes the sign in front of them. -/
  num : ∀ k : NumberKind, Takes (readNum k.base k.ctype k.tonum) p
    (toLong ((signOf cs).apply
      (digitsValue k.base ((behindSign cs).takeWhile k.isDigit) % 2 ^ 64)))
    ((behindSign cs).dropWhile k.isDigit)
  /-- An element that `navi_read` reads as a symbol is that symbol inside a list. -/
  element : ¬ LoneDot cs → ∀ s ds, Takes readHead p (.done (.symbol s)) ds → ReadsElement p s ds

/-- **No character is taken for another one** that is structure. -/
structure NoneMistaken (cs : List Char) : Prop where
  /-- not the first one, for what `read_list` acts at -/
  action : ∀ c ds, dropSpaces cs = c :: ds → 128 ≤ c.toNat → listAction (toChar c.toNat) = .element
  /-- not the one behind a dot, for a terminal -/
  dot : ∀ d ds, dropSpaces cs = '.' :: d :: ds → 128 ≤ d.toNat →
    isterminal (toChar d.toNat) = false
  /-- not the first one, for a sign -/
  sign : ∀ c ds, cs = c :: ds → 128 ≤ c.toNat →
    toChar c.toNat ≠ ascii '+' ∧ toChar c.toNat ≠ ascii '-'
  /-- not the one behind the digits, for another digit -/
  digit : ∀ (k : NumberKind) (c : Char) (ds : List Char),
    (behindSign cs).dropWhile k.isDigit = c :: ds → 128 ≤ c.toNat →
      k.ctype (toChar c.toNat) = false

variable {p q : Port} {c : Char} {cs ds : List Char}

/-! ### Lists -/

theorem toChar_ascii (h : c.toNat < 128) : toChar c.toNat = c.toNat :=
  toChar_of_lt (by omega) (by omega)

/-- The other actions are not taken for `navi_read`. -/
theorem ListAction.eq_element {a : ListAction} {n : ℕ} {q' : Port}
    (h : a.run n q = .ok (.element, q')) : a = .element := by
  cases a with
  | element => rfl
  | close | sharp | comment =>
    obtain ⟨r, -, hr⟩ := bind_eq_ok h
    cases hr
  | dot =>
    obtain ⟨r, -, hr⟩ := bind_eq_ok h
    obtain ⟨r', -, hr'⟩ := bind_eq_ok hr
    change (if _ then (pure _ : ReadM _) else _) _ = _ at hr'
    split_ifs at hr'
    · cases hr'
    · obtain ⟨r'', -, hr''⟩ := bind_eq_ok hr'
      cases hr''

/-- `peek_first_char` leaves the character in the buffer. -/
theorem exists_peekFirstChar (h : p.At cs) (hcs : dropSpaces cs = c :: ds) :
    ∃ q, Converges peekFirstChar p (.ok (c.toNat, q)) ∧ q.At (c :: ds) ∧
      q.foldCase = p.foldCase ∧ ∀ n, peekFirstChar (n + 1) q = .ok (c.toNat, q) := by
  induction cs generalizing p with
  | nil => cases hcs
  | cons d cs ih =>
    obtain ⟨p', hpeek, hp', hfold, hfull⟩ := h.peekChar
    by_cases hd : isspace d.toNat = true
    · rw [dropSpaces_cons_of_pos hd] at hcs
      obtain ⟨p'', hread, hp'', hfold'⟩ := hp'.readChar
      obtain ⟨q, hq, hat, hfold'', hagain⟩ := ih hp'' hcs
      refine ⟨q, Converges.succ ?_, hat, hfold''.trans (hfold'.trans hfold), hagain⟩
      refine (Converges.const hpeek).bind ?_
      rw [frontCode_cons]
      simp only [if_pos hd]
      exact (Converges.const hread).bind hq
    · rw [dropSpaces_cons_of_neg hd] at hcs
      cases hcs
      refine ⟨p', Converges.succ ((Converges.const hpeek).bind ?_), hp', hfold, fun n => ?_⟩
      · rw [frontCode_cons]
        simp only [if_neg hd]
        exact Converges.const rfl
      · have hagain : peekChar p' = .ok (c.toNat, p') := by
          have hhas := hp'.has
          have hfull := hfull (List.cons_ne_nil c ds)
          cases hhas with
          | full he hb hc hr =>
            have hport : naviPortPeekChar p' = .ok (.char c.toNat, p') := by
              simp [naviPortPeekChar, checkCanRead, hp'.isOpen, he, hb, hc]
            exact readM_bind hport
          | empty he hb hr => cases hb.symm.trans hfull
        rw [peekFirstChar, readM_bind hagain, if_neg hd]
        rfl

/-- A round of `read_list` and one of `navi_read`, from where the first character has been seen. -/
theorem exists_listHead (h : p.At cs) (hcs : dropSpaces cs = c :: ds) :
    ∃ q, q.At (c :: ds) ∧ q.foldCase = p.foldCase ∧
      (∃ N, ∀ n ≥ N, listHead n p = (listAction (toChar c.toNat)).run n q) ∧
      ∀ r, Converges readHead p r ↔ Converges readHead q r := by
  obtain ⟨q, ⟨N, hpeek⟩, hq, hfold, hagain⟩ := exists_peekFirstChar h hcs
  refine ⟨q, hq, hfold, ⟨N, fun n hn => ?_⟩, fun r => ?_⟩
  · have hipeek : ipeekFirstChar n p = .ok (c.toNat, q) := by
      rw [ipeekFirstChar, readM_bind (hpeek n hn), if_neg (code_ne_eofValue c)]
      rfl
    rw [listHead_eq, readM_bind hipeek]
  · have hsame : ∀ n ≥ N + 1, readHead n p = readHead n q := by
      intro n hn
      obtain ⟨m, rfl⟩ := Nat.exists_eq_succ_of_ne_zero (show n ≠ 0 by omega)
      rw [readHead, readM_bind (hpeek _ (by omega)), readM_bind (hagain m)]
    constructor
    · rintro ⟨N', hN'⟩
      exact ⟨max (N + 1) N', fun n hn => by
        rw [← hsame n (le_of_max_le_left hn), hN' n (le_of_max_le_right hn)]⟩
    · rintro ⟨N', hN'⟩
      exact ⟨max (N + 1) N', fun n hn => by
        rw [hsame n (le_of_max_le_left hn), hN' n (le_of_max_le_right hn)]⟩

theorem listAction_of_ge (hc : 128 ≤ c.toNat) : listAction c.toNat = .element := by
  have h1 : ascii ')' = 41 := rfl
  have h2 : ascii '.' = 46 := rfl
  have h3 : ascii '#' = 35 := rfl
  have h4 : ascii ';' = 59 := rfl
  rw [listAction, if_neg (by omega), if_neg (by omega), if_neg (by omega), if_neg (by omega)]

theorem isterminal_of_ge (hc : 128 ≤ c.toNat) : isterminal c.toNat = false := by
  have h1 : ascii '(' = 40 := rfl
  have h2 : ascii ')' = 41 := rfl
  have h3 : eofValue = -1 := rfl
  simp only [isterminal, isspace, decide_eq_true_eq, decide_eq_false_iff_not]
  omega

/-- A dot in front of what is seen as a terminal. -/
theorem takes_dot_last {d : Char} (hd : isterminal (toChar d.toNat) = true)
    (h : p.At ('.' :: d :: ds)) : Takes (fun n => ListAction.dot.run n) p .last (d :: ds) := by
  refine (takes_readChar h).bind fun p' hp' _ => (takes_ipeekChar hp').bind fun q hq _ => ?_
  dsimp only
  simp only [if_pos hd]
  exact Takes.ret hq _

/-- A dot in front of what is not. -/
theorem takes_dot_symbol {d : Char} (hd : isterminal (toChar d.toNat) = false)
    (h : p.At ('.' :: d :: ds)) :
    Takes (fun n => ListAction.dot.run n) p
      (.symbol (.symbol (toByte (ascii '.') :: foldedName p.foldCase
        ((tokenBytes ((d :: ds).takeWhile inToken)).takeWhile (· ≠ 0)))))
      ((d :: ds).dropWhile inToken) := by
  refine (takes_readChar h).bind fun p' hp' hfold =>
    (takes_ipeekChar hp').bind fun q hq hfold' => ?_
  dsimp only
  simp only [hd, Bool.false_eq_true, if_false]
  refine (takes_readSymbolWithPrefix (ascii '.') hq).bind fun q' hq' _ => ?_
  rw [hfold'.trans hfold]
  exact Takes.ret hq' _

/-- To `navi_read`, a dot is the beginning of a symbol. -/
theorem takes_readHead_dot (h : p.At ('.' :: ds)) :
    Takes readHead p (.done (.symbol (toByte (ascii '.') :: foldedName p.foldCase
      ((tokenBytes (ds.takeWhile inToken)).takeWhile (· ≠ 0))))) (ds.dropWhile inToken) := by
  have hdot : dropSpaces ('.' :: ds) = '.' :: ds := dropSpaces_cons_of_neg (by decide)
  have hpeek := takes_peekFirstChar h
  rw [hdot] at hpeek
  refine hpeek.bind fun p' hp' hfold => (takes_readSymbolTerminal hp').bind fun q hq _ => ?_
  have hin : inToken '.' = true := by decide
  have hbytes : (tokenBytes (('.' :: ds).takeWhile inToken)).takeWhile (· ≠ 0) =
      toByte (ascii '.') :: (tokenBytes (ds.takeWhile inToken)).takeWhile (· ≠ 0) := by
    rw [List.takeWhile_cons_of_pos hin, tokenBytes_cons, bufferBytes_ascii (by decide)]
    exact List.takeWhile_cons_of_pos (by decide)
  have hname (str : List UInt8) : foldedName p.foldCase (toByte (ascii '.') :: str) =
      toByte (ascii '.') :: foldedName p.foldCase str := by
    have hsame : toByte (tolower (toChar (toByte (ascii '.')).toNat)) = toByte (ascii '.') := by
      decide
    rw [foldedName, foldedName, List.map_cons, hsame]
    split_ifs
    · rfl
    · rfl
  rw [List.dropWhile_cons_of_pos hin] at hq
  rw [hbytes, hfold, hname]
  exact Takes.ret hq _

/-- Where `read_list` takes an action of its own, other than the dot's, `navi_read` reads no
symbol. -/
theorem readHead_not_done {es : List Char} {d : Datum} (h : p.At (c :: ds))
    (hc : c = ')' ∨ c = '#' ∨ c = ';') : ¬ Takes readHead p (.done d) es := by
  have hspace : dropSpaces (c :: ds) = c :: ds := by
    refine dropSpaces_cons_of_neg ?_
    obtain rfl | rfl | rfl := hc
    all_goals decide
  have hpeek := takes_peekFirstChar h
  rw [hspace] at hpeek
  obtain rfl | rfl | rfl := hc
  · refine fun htakes => htakes.not_raises (hpeek.raises fun p' hp' _ => ?_)
    exact (takes_readChar hp').raises fun q _ _ =>
      Raises.throw (e := naviReadError _ _) trivial q
  · intro htakes
    have hsharp : Takes readHead p .sharp ds :=
      hpeek.bind fun p' hp' _ => (takes_readChar hp').bind fun q hq _ => Takes.ret hq _
    cases (htakes.unique hsharp).1
  · rintro ⟨q, hq, -⟩
    have hagain : Ends (fun _ => True) readHead p fun next _ => next = .again := by
      obtain ⟨p', hrun, hp', -⟩ := hpeek
      obtain ⟨r, hline, -⟩ := halts_consumeLine hp'.has
      cases r with
      | error e => exact ⟨_, hrun.bind (Converges.bind_error hline), trivial⟩
      | ok r => exact ⟨_, hrun.bind (hline.bind (Converges.const rfl)), rfl⟩
    cases hagain.meets hq

/-- At the end of the text, it reads no symbol. -/
theorem readHead_end {es : List Char} {s : List UInt8} (h : p.At cs) (hcs : dropSpaces cs = []) :
    ¬ Takes readHead p (.done (.symbol s)) es := by
  intro htakes
  have hpeek := takes_peekFirstChar h
  rw [hcs] at hpeek
  have heof : Takes readHead p (.done .eof) [] := hpeek.bind fun p' hp' _ => Takes.ret hp' _
  cases (htakes.unique heof).1

/-! ### What the numbers take -/

section Numbers

variable {radix : ℤ} {ctype : ℤ → Bool} {tonum : ℤ → Except ReadExn ℤ}

variable (radix) in
theorem takes_readNum_minus (hclass : DigitClass ctype tonum) (h : p.At (c :: ds))
    (hc : toChar c.toNat = ascii '-') :
    Takes (readNum radix ctype tonum) p
      (toLong (-unumOf radix tonum 0 (ds.takeWhile (seenDigit ctype))))
      (ds.dropWhile (seenDigit ctype)) := by
  refine (takes_peekChar h).bind fun p' hp' _ => ?_
  rw [frontCode_cons]
  simp only [if_pos hc]
  exact (takes_readChar hp').bind fun q hq _ =>
    (takes_readUnum _ hclass 0 hq).bind fun q' hq' _ => Takes.ret hq' _

variable (radix) in
theorem takes_readNum_plus (hclass : DigitClass ctype tonum) (h : p.At (c :: ds))
    (hc : toChar c.toNat = ascii '+') :
    Takes (readNum radix ctype tonum) p
      (toLong (unumOf radix tonum 0 (ds.takeWhile (seenDigit ctype))))
      (ds.dropWhile (seenDigit ctype)) := by
  have hminus : ¬ toChar c.toNat = ascii '-' := by
    rw [hc]
    decide
  refine (takes_peekChar h).bind fun p' hp' _ => ?_
  rw [frontCode_cons]
  simp only [if_neg hminus, if_pos hc]
  exact (takes_readChar hp').bind fun q hq _ =>
    (takes_readUnum _ hclass 0 hq).bind fun q' hq' _ => Takes.ret hq' _

variable (radix) in
theorem takes_readNum_none (hclass : DigitClass ctype tonum) (h : p.At cs)
    (hminus : toChar (frontCode cs) ≠ ascii '-') (hplus : toChar (frontCode cs) ≠ ascii '+') :
    Takes (readNum radix ctype tonum) p
      (toLong (unumOf radix tonum 0 (cs.takeWhile (seenDigit ctype))))
      (cs.dropWhile (seenDigit ctype)) := by
  refine (takes_peekChar h).bind fun p' hp' _ => ?_
  simp only [if_neg hminus, if_neg hplus]
  exact (takes_readUnum _ hclass 0 hp').bind fun q' hq' _ => Takes.ret hq' _

/-- Digits are ASCII. -/
theorem NumberKind.isDigit_lt {k : NumberKind} (hc : k.isDigit c = true) : c.toNat < 128 := by
  have hlt := isxdigit_lt (k.digitClass.hex _ hc)
  omega

/-- What is a digit is seen as one, and no other ASCII character is. -/
theorem NumberKind.seenDigit_eq {k : NumberKind} (hc : c.toNat < 128) :
    seenDigit k.ctype c = k.isDigit c := by
  rw [seenDigit, toChar_ascii hc, NumberKind.isDigit]

/-- **The digits that are seen are the digits**, if what is behind them is not taken for one. -/
theorem NumberKind.span_seenDigit {k : NumberKind}
    (hstop : ∀ c ds, cs.dropWhile k.isDigit = c :: ds → 128 ≤ c.toNat →
      k.ctype (toChar c.toNat) = false) :
    cs.takeWhile (seenDigit k.ctype) = cs.takeWhile k.isDigit ∧
      cs.dropWhile (seenDigit k.ctype) = cs.dropWhile k.isDigit := by
  induction cs with
  | nil => simp
  | cons c cs ih =>
    by_cases hc : k.isDigit c = true
    · have hseen : seenDigit k.ctype c = true := by
        rwa [NumberKind.seenDigit_eq (NumberKind.isDigit_lt hc)]
      rw [List.dropWhile_cons_of_pos hc] at hstop
      obtain ⟨htake, hdrop⟩ := ih hstop
      rw [List.takeWhile_cons_of_pos hc, List.takeWhile_cons_of_pos hseen,
        List.dropWhile_cons_of_pos hc, List.dropWhile_cons_of_pos hseen, htake, hdrop]
      exact ⟨rfl, rfl⟩
    · have hseen : ¬ seenDigit k.ctype c = true := by
        rcases Nat.lt_or_ge c.toNat 128 with hlt | hge
        · rwa [NumberKind.seenDigit_eq hlt]
        · rw [seenDigit, hstop c cs (List.dropWhile_cons_of_neg hc) hge]
          exact Bool.false_ne_true
      rw [List.takeWhile_cons_of_neg hc, List.takeWhile_cons_of_neg hseen,
        List.dropWhile_cons_of_neg hc, List.dropWhile_cons_of_neg hseen]
      exact ⟨rfl, rfl⟩

/-- What is accumulated of digits is their value. -/
theorem NumberKind.unumOf_digits (k : NumberKind) (cs : List Char) :
    unumOf k.base k.tonum 0 (cs.takeWhile k.isDigit) =
      digitsValue k.base (cs.takeWhile k.isDigit) % 2 ^ 64 := by
  have hdigits : ∀ d ∈ cs.takeWhile k.isDigit, unumDigit k.tonum d = digitValue d :=
    fun d hd => k.digitClass.unumDigit_eq
      (show k.isDigit d = true from List.mem_takeWhile_imp hd)
  have hvalue := unumOf_eq k.base hdigits 0
  rwa [Int.zero_emod] at hvalue

end Numbers

/-- `read_list` goes on behind the element. -/
theorem ReadsElement.readList {s : List UInt8} (h : ReadsElement p s ds) (X : ReadEnv)
    (elms : List Datum) : ∃ p', p'.At ds ∧
      ∀ r, Converges (fun n => readList X n (elms ++ [.symbol s])) p' r →
        Converges (fun n => readList X n elms) p r := by
  cases h with
  | symbol h =>
    obtain ⟨p', hlist, hp', -⟩ := h
    refine ⟨p', hp', fun r hr => Converges.succ ?_⟩
    simp only [readList_succ]
    exact hlist.bind hr
  | element h hread =>
    rename_i q
    obtain ⟨p', hhead, hp', -⟩ := hread
    have hnavi : Converges (naviRead X) q (.ok (.symbol s, p')) := by
      refine Converges.succ ?_
      simp only [naviRead_succ]
      exact hhead.bind (Converges.const rfl)
    refine ⟨p', hp', fun r hr => Converges.succ ?_⟩
    simp only [readList_succ]
    exact h.bind (hnavi.bind hr)

/-! ### When only ASCII characters are structure -/

/-- What is behind a sign, or in front of all digits. -/
theorem behindSign_cases (cs : List Char) :
    (∃ ds, cs = '+' :: ds ∧ signOf cs = .plus ∧ behindSign cs = ds) ∨
      (∃ ds, cs = '-' :: ds ∧ signOf cs = .minus ∧ behindSign cs = ds) ∨
      (frontCode cs ≠ ascii '+' ∧ frontCode cs ≠ ascii '-' ∧ signOf cs = .none ∧
        behindSign cs = cs) := by
  rcases cs with - | ⟨c, cs⟩
  · exact Or.inr (Or.inr ⟨by decide, by decide, rfl, rfl⟩)
  · by_cases hplus : c = '+'
    · subst hplus
      exact Or.inl ⟨cs, rfl, rfl, rfl⟩
    by_cases hminus : c = '-'
    · subst hminus
      exact Or.inr (Or.inl ⟨cs, rfl, rfl, rfl⟩)
    · have hne : ∀ d : Char, c ≠ d → (c.toNat : ℤ) ≠ ascii d := fun d hd heq =>
        hd (Char.toNat_inj.mp (by exact_mod_cast heq))
      refine Or.inr (Or.inr ⟨hne _ hplus, hne _ hminus, ?_, ?_⟩)
      · simp [signOf, hplus, hminus]
      · simp [behindSign, hplus, hminus]

namespace NoneMistaken

/-- A character that is not mistaken is seen as itself. -/
theorem sign_eq (hm : NoneMistaken cs) {a : Char} (ha : a = '+' ∨ a = '-') :
    toChar (frontCode cs) = ascii a ↔ frontCode cs = ascii a := by
  rcases cs with - | ⟨c, cs⟩
  · obtain rfl | rfl := ha
    all_goals decide
  · rw [frontCode_cons]
    rcases Nat.lt_or_ge c.toNat 128 with hlt | hge
    · rw [toChar_ascii hlt]
    · have hne := hm.sign c cs rfl hge
      have h1 : ascii '+' = 43 := rfl
      have h2 : ascii '-' = 45 := rfl
      refine iff_of_false ?_ ?_
      · obtain rfl | rfl := ha
        · exact hne.1
        · exact hne.2
      · obtain rfl | rfl := ha
        all_goals omega

/-- The digits that are seen behind the sign. -/
theorem span (hm : NoneMistaken cs) (k : NumberKind) :
    (behindSign cs).takeWhile (seenDigit k.ctype) = (behindSign cs).takeWhile k.isDigit ∧
      (behindSign cs).dropWhile (seenDigit k.ctype) = (behindSign cs).dropWhile k.isDigit :=
  NumberKind.span_seenDigit fun c ds => hm.digit k c ds

/-- No digits are seen in front of a sign. -/
theorem span_sign (hm : NoneMistaken cs) (k : NumberKind) :
    cs.takeWhile (seenDigit k.ctype) = cs.takeWhile k.isDigit ∧
      cs.dropWhile (seenDigit k.ctype) = cs.dropWhile k.isDigit := by
  refine NumberKind.span_seenDigit fun c ds hdrop hc => ?_
  obtain ⟨es, rfl, -⟩ | ⟨es, rfl, -⟩ | ⟨-, -, -, hbehind⟩ := behindSign_cases cs
  · have hsign : ¬ k.isDigit '+' = true := by
      cases k with
      | decimal => decide
      | radix r => cases r <;> decide
    rw [List.dropWhile_cons_of_neg hsign] at hdrop
    cases hdrop
    exact absurd hc (by decide)
  · have hsign : ¬ k.isDigit '-' = true := by
      cases k with
      | decimal => decide
      | radix r => cases r <;> decide
    rw [List.dropWhile_cons_of_neg hsign] at hdrop
    cases hdrop
    exact absurd hc (by decide)
  · exact hm.digit k c ds (by rwa [hbehind]) hc

theorem unum (hm : NoneMistaken cs) (h : p.At cs) (k : NumberKind) :
    Takes (fun n => readUnum k.base k.ctype k.tonum n 0) p
      (digitsValue k.base (cs.takeWhile k.isDigit) % 2 ^ 64) (cs.dropWhile k.isDigit) := by
  obtain ⟨htake, hdrop⟩ := hm.span_sign k
  have hread := takes_readUnum k.base k.digitClass 0 h
  rwa [htake, hdrop, k.unumOf_digits] at hread

theorem num (hm : NoneMistaken cs) (h : p.At cs) (k : NumberKind) :
    Takes (readNum k.base k.ctype k.tonum) p
      (toLong ((signOf cs).apply
        (digitsValue k.base ((behindSign cs).takeWhile k.isDigit) % 2 ^ 64)))
      ((behindSign cs).dropWhile k.isDigit) := by
  obtain ⟨htake, hdrop⟩ := hm.span k
  rw [← k.unumOf_digits, ← htake, ← hdrop]
  obtain ⟨ds, rfl, hsign, hbehind⟩ | ⟨ds, rfl, hsign, hbehind⟩ | ⟨hplus, hminus, hsign, hbehind⟩ :=
    behindSign_cases cs
  · rw [hsign, hbehind]
    exact takes_readNum_plus _ k.digitClass h (by decide)
  · rw [hsign, hbehind]
    exact takes_readNum_minus _ k.digitClass h (by decide)
  · rw [hsign, hbehind]
    exact takes_readNum_none _ k.digitClass h (fun he => hminus ((hm.sign_eq (Or.inr rfl)).mp he))
      fun he => hplus ((hm.sign_eq (Or.inl rfl)).mp he)

/-- The action is the character's own. -/
theorem listAction_eq (hm : NoneMistaken cs) (hcs : dropSpaces cs = c :: ds) :
    listAction (toChar c.toNat) = listAction c.toNat := by
  rcases Nat.lt_or_ge c.toNat 128 with hlt | hge
  · rw [toChar_ascii hlt]
  · rw [hm.action c ds hcs hge, listAction_of_ge hge]

theorem tail (hm : NoneMistaken cs) (h : p.At cs) (elms : List Datum) (last : Datum) :
    (∃ q, Converges (listEnd elms last) p (.ok (Datum.listTail elms last, q))) ↔
      ∃ ds, dropSpaces cs = ')' :: ds := by
  obtain ⟨p', hpeek, hp', -⟩ := takes_peekFirstChar h
  have hrun : ∀ r, Converges (fun _ => if toChar (frontCode (dropSpaces cs)) = ascii ')' then do
        let _ ← readChar
        return Datum.listTail elms last
      else throw (naviReadError "missing list terminator" [])) p' r →
      Converges (listEnd elms last) p r := fun r hr => hpeek.bind hr
  constructor
  · rintro ⟨q, hq⟩
    by_contra hne
    have hclose : ¬ toChar (frontCode (dropSpaces cs)) = ascii ')' := by
      intro hclose
      cases hcs : dropSpaces cs with
      | nil =>
        rw [hcs] at hclose
        exact absurd hclose (by decide)
      | cons c ds =>
        rw [hcs, frontCode_cons] at hclose
        have haction := hm.listAction_eq hcs
        rw [hclose, listAction, listAction, if_pos rfl] at haction
        have hc : (c.toNat : ℤ) = ascii ')' := by
          by_contra hc
          rw [if_neg hc] at haction
          split_ifs at haction
        obtain rfl : c = ')' := Char.toNat_inj.mp (by exact_mod_cast hc)
        exact hne ⟨ds, hcs⟩
    have herror := hrun (.error (naviReadError "missing list terminator" []))
      (Converges.const (by rw [if_neg hclose]; rfl))
    cases hq.unique herror
  · rintro ⟨ds, hcs⟩
    rw [hcs] at hp' hrun
    obtain ⟨q, hq, -⟩ := takes_readChar hp'
    refine ⟨q, hrun _ ?_⟩
    rw [frontCode_cons]
    simp only [if_pos (show toChar (')').toNat = ascii ')' by decide)]
    exact hq.bind (Converges.const rfl)

/-- **A symbol is an element.** -/
theorem element (hm : NoneMistaken cs) (h : p.At cs) (hlone : ¬ LoneDot cs) {s : List UInt8} {es : List Char}
    (hs : Takes readHead p (.done (.symbol s)) es) : ReadsElement p s es := by
  cases hcs : dropSpaces cs with
  | nil => exact absurd hs (readHead_end h hcs)
  | cons c ds =>
    obtain ⟨q, hq, hfold, ⟨N, hlist⟩, hread⟩ := exists_listHead h hcs
    rw [hm.listAction_eq hcs] at hlist
    have hsq : Takes readHead q (.done (.symbol s)) es := by
      obtain ⟨p', hp', hat, hfold'⟩ := hs
      exact ⟨p', (hread _).mp hp', hat, hfold'.trans hfold.symm⟩
    by_cases hdot : c = '.'
    · subst hdot
      -- the symbol begins with the dot
      cases ds with
      | nil => exact absurd ⟨[], hcs, by decide⟩ hlone
      | cons d ds =>
        have hd : isterminal (toChar d.toNat) = false := by
          rcases Nat.lt_or_ge d.toNat 128 with hlt | hge
          · rw [toChar_ascii hlt]
            by_contra hterm
            exact hlone ⟨_, hcs, by simpa using hterm⟩
          · exact hm.dot d ds hcs hge
        obtain ⟨heq, rfl⟩ := hsq.unique (takes_readHead_dot hq)
        cases heq
        obtain ⟨q', ⟨N', hq'⟩, hat, hfold'⟩ := takes_dot_symbol hd hq
        exact .symbol ⟨q', ⟨max N N', fun n hn => by
          rw [hlist n (le_of_max_le_left hn)]
          exact hq' n (le_of_max_le_right hn)⟩, hat, hfold'.trans hfold⟩
    · by_cases hother : c = ')' ∨ c = '#' ∨ c = ';'
      · exact absurd hsq (readHead_not_done hq hother)
      · have haction : listAction c.toNat = .element := by
          have hne : ∀ d : Char, c ≠ d → ¬ (c.toNat : ℤ) = ascii d := fun d hd heq =>
            hd (Char.toNat_inj.mp (by exact_mod_cast heq))
          simp only [not_or] at hother
          rw [listAction, if_neg (hne _ hother.1), if_neg (hne _ hdot), if_neg (hne _ hother.2.1),
            if_neg (hne _ hother.2.2)]
        rw [haction] at hlist
        exact .element ⟨N, hlist⟩ hsq

end NoneMistaken

namespace TreatsAscii

/-- A character that is mistaken for what `read_list` acts at makes it act. -/
theorem listAction_eq (ht : TreatsAscii p cs) (h : p.At cs) (hcs : dropSpaces cs = c :: ds)
    (hc : 128 ≤ c.toNat) : listAction (toChar c.toNat) = .element := by
  obtain ⟨q, -, N, hown⟩ := ht.action c ds hcs
  obtain ⟨q', -, -, ⟨N', hseen⟩, -⟩ := exists_listHead h hcs
  have hrun := (hseen _ (le_max_right N N')).symm.trans (hown _ (le_max_left N N'))
  rw [listAction_of_ge hc] at hrun
  exact ListAction.eq_element hrun

/-- One that is mistaken for a terminal ends the list. -/
theorem dot (ht : TreatsAscii p cs) (h : p.At cs) {d : Char} (hcs : dropSpaces cs = '.' :: d :: ds)
    (hd : 128 ≤ d.toNat) : isterminal (toChar d.toNat) = false := by
  by_contra hterm
  rw [Bool.not_eq_false] at hterm
  obtain ⟨q, hq, hfold, ⟨N, hlist⟩, hread⟩ := exists_listHead h hcs
  have hlone : ¬ LoneDot cs := by
    rintro ⟨es, hes, hterm'⟩
    rw [hcs] at hes
    cases hes
    rw [frontCode_cons, isterminal_of_ge hd] at hterm'
    cases hterm'
  obtain ⟨p', hp', hat, hfold'⟩ := takes_readHead_dot hq
  have haction : listAction (toChar ('.').toNat) = .dot := by decide
  rw [haction] at hlist
  have hlast : Takes listHead p .last (d :: ds) := by
    obtain ⟨q', ⟨N', hq'⟩, hat', hfold''⟩ := takes_dot_last hterm hq
    exact ⟨q', ⟨max N N', fun n hn => by
      rw [hlist n (le_of_max_le_left hn)]
      exact hq' n (le_of_max_le_right hn)⟩, hat', hfold''.trans hfold⟩
  cases ht.element hlone _ _ ⟨p', (hread _).mpr hp', hat, hfold'.trans hfold⟩ with
  | symbol hsymbol => cases (hlast.unique hsymbol).1
  | element helement _ =>
    obtain ⟨q', hq', -⟩ := hlast
    cases hq'.unique helement

/-- One that is mistaken for a sign is taken. -/
theorem sign (ht : TreatsAscii p (c :: cs)) (h : p.At (c :: cs)) (hc : 128 ≤ c.toNat) :
    toChar c.toNat ≠ ascii '+' ∧ toChar c.toNat ≠ ascii '-' := by
  have hbehind : behindSign (c :: cs) = c :: cs := by
    obtain ⟨es, heq, -⟩ | ⟨es, heq, -⟩ | ⟨-, -, -, hbehind⟩ := behindSign_cases (c :: cs)
    · cases heq
      exact absurd hc (by decide)
    · cases heq
      exact absurd hc (by decide)
    · exact hbehind
  have hdigit : ¬ NumberKind.decimal.isDigit c = true := fun hdigit =>
    absurd (NumberKind.isDigit_lt hdigit) (by omega)
  have hnum := ht.num .decimal
  rw [hbehind, List.dropWhile_cons_of_neg hdigit] at hnum
  -- nothing is taken, while a sign would be
  have hlen : ∀ ctype : ℤ → Bool, cs.dropWhile (seenDigit ctype) ≠ c :: cs := by
    intro ctype heq
    have hle := (List.dropWhile_suffix (l := cs) (seenDigit ctype)).length_le
    rw [heq, List.length_cons] at hle
    omega
  constructor
  · intro hplus
    have hread := takes_readNum_plus 10 digitClass_isdigit h hplus
    exact hlen _ (hread.unique hnum).2
  · intro hminus
    have hread := takes_readNum_minus 10 digitClass_isdigit h hminus
    exact hlen _ (hread.unique hnum).2

/-- One that is mistaken for a digit is accumulated. -/
theorem digit (ht : TreatsAscii p cs) (h : p.At cs) (k : NumberKind)
    (hcs : (behindSign cs).dropWhile k.isDigit = c :: ds) : k.ctype (toChar c.toNat) = false := by
  have hdrop : (behindSign cs).dropWhile (seenDigit k.ctype) =
      (behindSign cs).dropWhile k.isDigit := by
    have hnum := ht.num k
    obtain ⟨es, rfl, -, hbehind⟩ | ⟨es, rfl, -, hbehind⟩ | ⟨hplus, hminus, -, hbehind⟩ :=
      behindSign_cases cs
    · rw [hbehind] at hnum ⊢
      have hread := takes_readNum_plus k.base k.digitClass h (by decide)
      exact (hread.unique hnum).2
    · rw [hbehind] at hnum ⊢
      have hread := takes_readNum_minus k.base k.digitClass h (by decide)
      exact (hread.unique hnum).2
    · rw [hbehind] at hnum ⊢
      have hunum := takes_readUnum k.base k.digitClass 0 h
      have hspec := ht.unum k
      exact (hunum.unique hspec).2
  have hhead := List.head?_dropWhile_not (seenDigit k.ctype) (behindSign cs)
  rw [hdrop, hcs] at hhead
  simpa [seenDigit] using hhead

end TreatsAscii

end NaviScheme
