import NaviScheme.Arithmetic.Operations
import NaviScheme.Reader.Scan

/-!
# Numbers and their numerals

`number->string` and `string->number`, over `snprintf` and `strtol` as the C standard has them. A
negative number is printed as an unsigned one, unless the radix is 10, and `strtol` takes more than
the numerals of the language.

`roundTrips_iff` says which fixnums can be read back, and `numeralLaw_iff` on which strings
`string->number` is exact.
-/

namespace NaviScheme

open NaviWord

/-! ### `strtol` -/

/-- The value of a byte that can be a digit in some base. -/
def digitOf (b : UInt8) : Option ℕ :=
  if 48 ≤ b.toNat ∧ b.toNat ≤ 57 then some (b.toNat - 48)
  else if 97 ≤ b.toNat ∧ b.toNat ≤ 122 then some (b.toNat - 87)
  else if 65 ≤ b.toNat ∧ b.toNat ≤ 90 then some (b.toNat - 55)
  else none

/-- A digit in a base. -/
def isDigitIn (base : ℕ) (b : UInt8) : Bool :=
  match digitOf b with
  | some d => d < base
  | none => false

/-- The number that digits denote. -/
def digitsOf (base : ℕ) (ds : List UInt8) : ℤ :=
  ds.foldl (fun n b => n * base + (digitOf b).getD 0) 0

/-- A number that does not fit into a `long` becomes `LONG_MAX` or `LONG_MIN`. -/
def clampLong (n : ℤ) : ℤ := max (-2 ^ 63) (min n (2 ^ 63 - 1))

/-- The sign at the front of a text, and what is behind it. -/
def splitSign : List UInt8 → Sign × List UInt8
  | [] => (.none, [])
  | b :: s =>
    if b = toByte (ascii '-') then (.minus, s)
    else if b = toByte (ascii '+') then (.plus, s)
    else (.none, b :: s)

/-- An `x` of either case. -/
def isX (b : UInt8) : Bool := b = toByte (ascii 'x') ∨ b = toByte (ascii 'X')

/-- What is behind the `0x` in front of a hexadecimal digit. -/
def stripHex : List UInt8 → Option (List UInt8)
  | z :: x :: d :: s =>
    if z = toByte (ascii '0') ∧ isX x ∧ isDigitIn 16 d then some (d :: s) else none
  | _ => none

/-- The base of a number behind its sign, and its digits with what follows, where the base that
`strtol` is given is `base`. -/
def splitBase (base : ℤ) (t : List UInt8) : ℕ × List UInt8 :=
  if base = 0 then
    match stripHex t with
    | some t => (16, t)
    | none => if t.head? = some (toByte (ascii '0')) then (8, t) else (10, t)
  else if base = 16 then (16, (stripHex t).getD t)
  else (base.toNat, t)

/-- `strtol`: the number, and the text that `endptr` points to. The standard does not say what
happens where there is no such base, and that is `noBase`. -/
def strtol (noBase : List UInt8 → ℤ × List UInt8) (base : ℤ) (s : List UInt8) : ℤ × List UInt8 :=
  if base = 0 ∨ 2 ≤ base ∧ base ≤ 36 then
    let (sign, t) := splitSign (s.dropWhile fun b => isspace b.toNat)
    let (base, t) := splitBase base t
    match t.takeWhile (isDigitIn base) with
    | [] => (0, s)
    | ds => (clampLong (sign.apply (digitsOf base ds)), t.dropWhile (isDigitIn base))
  else noBase s

/-! ### The builtins -/

/-- `explicit_radix` -/
def explicitRadix (str : List UInt8) : ℤ :=
  if str.head? = some (toByte (ascii '#')) then
    if str[1]? = some (toByte (ascii 'b')) then 2
    else if str[1]? = some (toByte (ascii 'o')) then 8
    else if str[1]? = some (toByte (ascii 'd')) then 10
    else if str[1]? = some (toByte (ascii 'x')) then 16
    else 0
  else 0

section Builtins

variable (types : NaviWord → NaviType) (noBase : List UInt8 → ℤ × List UInt8)

/-- The second argument of a builtin on numerals, if there is one. -/
def radixArg : List NaviWord → Except NumberStop ℤ
  | [] => .ok 10
  | arg₂ :: _ => do
    typeCheck types arg₂ .naviFixnum
    return arg₂.value

/-- `number->string`, of a fixnum and the arguments behind it; the bytes of the string. -/
def numberToString (arg₁ : NaviWord) (args : List NaviWord) : Except NumberStop (List UInt8) := do
  let radix ← radixArg types args
  if radix = 8 then return (digitBytes 8 arg₁.fixnum.toNat).take 63
  else if radix = 10 then return (decimal arg₁.value).take 63
  else if radix = 16 then return (digitBytes 16 arg₁.fixnum.toNat).take 63
  else .error (.raise "unsupported radix")

/-- The end of `string->number`, where `strtol` has returned a number and stopped at a text. -/
def numberResult : ℤ × List UInt8 → NaviWord
  | (n, []) => makeFixnum (BitVec.ofInt 64 n)
  | (_, _ :: _) => makeBool false

/-- `string->number`, of a string with the bytes `data`, with a zero behind them, and the
arguments behind it. -/
def stringToNumber (data : List UInt8) (args : List NaviWord) : Except NumberStop NaviWord := do
  let radix ← radixArg types args
  let str := data.takeWhile (· ≠ 0)
  let n := explicitRadix str
  if n ≠ 0 then return numberResult (strtol noBase (toInt32 n) (str.drop 2))
  else return numberResult (strtol noBase (toInt32 radix) str)

end Builtins

/-! ### What `strtol` takes -/

section Strtol

variable {noBase : List UInt8 → ℤ × List UInt8} {r : ℕ} {b : UInt8} {t u ds : List UInt8} {n : ℤ}

/-- How a sign is written. -/
def Sign.bytes (sign : Sign) : List UInt8 := sign.text.map fun c => toByte (ascii c)

/-- A radix of the language. -/
def IsRadix (r : ℕ) : Prop := r = 2 ∨ r = 8 ∨ r = 10 ∨ r = 16

/-- What may be in front of hexadecimal digits. -/
def HexMark (r : ℕ) (mark : List UInt8) : Prop :=
  mark = [] ∨ r = 16 ∧ ∃ x, isX x ∧ mark = [toByte (ascii '0'), x]

/-- A text that `strtol` takes as the number `n`: spaces, a sign, the mark of hexadecimal digits,
and digits. -/
def NumberText (r : ℕ) (t : List UInt8) (n : ℤ) : Prop :=
  ∃ spaces sign mark ds, t = spaces ++ (Sign.bytes sign ++ (mark ++ ds)) ∧
    (∀ b ∈ spaces, isspace b.toNat = true) ∧ HexMark r mark ∧ ds ≠ [] ∧
    (∀ b ∈ ds, isDigitIn r b = true) ∧ sign.apply (digitsOf r ds) = n

theorem le_toNat_of_isDigitIn (h : isDigitIn r b = true) : 48 ≤ b.toNat := by
  by_contra hlt
  have hnone : digitOf b = none := by
    rw [digitOf, if_neg (by omega), if_neg (by omega), if_neg (by omega)]
  rw [isDigitIn, hnone] at h
  cases h

theorem isDigitIn_isX (h : isX b = true) : isDigitIn 16 b = false := by
  simp only [isX, decide_eq_true_eq] at h
  obtain rfl | rfl := h
  · decide
  · decide

/-- The first byte of the text is a digit, or more than one. -/
def StartsLate (u : List UInt8) : Prop := ∃ b v, u = b :: v ∧ 48 ≤ b.toNat

theorem startsLate_append {mark : List UInt8} (hmark : HexMark r mark) (hne : ds ≠ [])
    (hds : ∀ b ∈ ds, isDigitIn r b = true) : StartsLate (mark ++ ds) := by
  obtain rfl | ⟨-, x, -, rfl⟩ := hmark
  · obtain ⟨d, ds, rfl⟩ := List.exists_cons_of_ne_nil hne
    exact ⟨d, ds, rfl, le_toNat_of_isDigitIn (hds d List.mem_cons_self)⟩
  · exact ⟨_, _, rfl, by decide⟩

theorem splitSign_bytes (sign : Sign) (h : StartsLate u) :
    splitSign (sign.bytes ++ u) = (sign, u) := by
  obtain ⟨b, v, rfl, hb⟩ := h
  have hne : ∀ c : UInt8, c.toNat < 48 → b ≠ c := by
    rintro c hc rfl
    omega
  cases sign with
  | none =>
    change splitSign (b :: v) = _
    rw [splitSign, if_neg (hne _ (by decide)), if_neg (hne _ (by decide))]
  | plus => rfl
  | minus => rfl

theorem bytes_splitSign (u : List UInt8) : (splitSign u).1.bytes ++ (splitSign u).2 = u := by
  cases u with
  | nil => rfl
  | cons b u =>
    rw [splitSign]
    by_cases hminus : b = toByte (ascii '-')
    · rw [if_pos hminus, hminus]
      rfl
    by_cases hplus : b = toByte (ascii '+')
    · rw [if_neg hminus, if_pos hplus, hplus]
      rfl
    · rw [if_neg hminus, if_neg hplus]
      rfl

/-- Neither a sign nor a digit is a space or a `#`. -/
theorem head_bytes_append (sign : Sign) (h : StartsLate u) :
    ∃ b v, sign.bytes ++ u = b :: v ∧ isspace b.toNat = false ∧ b ≠ toByte (ascii '#') := by
  cases sign with
  | none =>
    obtain ⟨b, v, rfl, hb⟩ := h
    refine ⟨b, v, rfl, ?_, ?_⟩
    · rw [isspace, decide_eq_false_iff_not]
      omega
    · rintro rfl
      exact absurd hb (by decide)
  | plus => exact ⟨_, _, rfl, by decide, by decide⟩
  | minus => exact ⟨_, _, rfl, by decide, by decide⟩

theorem stripHex_digits (h : ∀ b ∈ ds, isDigitIn 16 b = true) : stripHex ds = none := by
  match ds with
  | [] | [_] | [_, _] => rfl
  | z :: x :: d :: s =>
    rw [stripHex, if_neg]
    rintro ⟨-, hx, -⟩
    have hdigit := h x (List.mem_cons_of_mem _ List.mem_cons_self)
    rw [isDigitIn_isX hx] at hdigit
    cases hdigit

theorem splitBase_mark {mark : List UInt8} (hr : IsRadix r) (hmark : HexMark r mark) (hne : ds ≠ [])
    (hds : ∀ b ∈ ds, isDigitIn r b = true) : splitBase r (mark ++ ds) = (r, ds) := by
  have hzero : (r : ℤ) ≠ 0 := by
    rw [IsRadix] at hr
    omega
  rw [splitBase, if_neg hzero]
  by_cases hhex : r = 16
  · subst hhex
    rw [if_pos Nat.cast_ofNat]
    obtain rfl | ⟨-, x, hx, rfl⟩ := hmark
    · rw [List.nil_append, stripHex_digits hds]
      rfl
    · obtain ⟨d, ds, rfl⟩ := List.exists_cons_of_ne_nil hne
      change (16, (stripHex (_ :: x :: d :: ds)).getD _) = _
      rw [stripHex, if_pos ⟨rfl, hx, hds d List.mem_cons_self⟩]
      rfl
  · obtain rfl | ⟨h, -⟩ := hmark
    · rw [if_neg fun h => hhex (by exact_mod_cast h), List.nil_append, Int.toNat_natCast]
    · exact absurd h hhex

/-- What `splitBase` takes off is a mark. -/
theorem exists_mark (hr : IsRadix r) (t : List UInt8) :
    ∃ mark u, splitBase r t = (r, u) ∧ t = mark ++ u ∧ HexMark r mark := by
  have hzero : (r : ℤ) ≠ 0 := by
    rw [IsRadix] at hr
    omega
  rw [splitBase, if_neg hzero]
  by_cases hhex : r = 16
  · subst hhex
    rw [if_pos Nat.cast_ofNat]
    match t with
    | [] | [_] | [_, _] => exact ⟨[], _, rfl, rfl, .inl rfl⟩
    | z :: x :: d :: s =>
      rw [stripHex]
      split
      · rename_i h
        obtain ⟨rfl, hx, -⟩ := h
        exact ⟨[_, x], d :: s, rfl, rfl, .inr ⟨rfl, x, hx, rfl⟩⟩
      · exact ⟨[], _, rfl, rfl, .inl rfl⟩
  · rw [if_neg fun h => hhex (by exact_mod_cast h), Int.toNat_natCast]
    exact ⟨[], t, rfl, rfl, .inl rfl⟩

/-- What `strtol` returns of a text whose parts are known. -/
theorem strtol_of_split {sign : Sign} (hr : IsRadix r)
    (hsign : splitSign (t.dropWhile fun b => isspace b.toNat) = (sign, u))
    (hbase : splitBase r u = (r, ds)) : strtol noBase r t =
    match ds.takeWhile (isDigitIn r) with
    | [] => (0, t)
    | vs => (clampLong (sign.apply (digitsOf r vs)), ds.dropWhile (isDigitIn r)) := by
  have hrange : (r : ℤ) = 0 ∨ 2 ≤ (r : ℤ) ∧ (r : ℤ) ≤ 36 := by
    rw [IsRadix] at hr
    omega
  rw [strtol, if_pos hrange, hsign]
  simp only [hbase]

theorem NumberText.strtol_eq (h : NumberText r t n) (hr : IsRadix r) :
    strtol noBase r t = (clampLong n, []) := by
  obtain ⟨spaces, sign, mark, ds, rfl, hspaces, hmark, hne, hds, rfl⟩ := h
  have hlate := startsLate_append hmark hne hds
  have hdrop : ((spaces ++ (sign.bytes ++ (mark ++ ds))).dropWhile fun b => isspace b.toNat) =
      sign.bytes ++ (mark ++ ds) := by
    obtain ⟨b, v, heq, hb, -⟩ := head_bytes_append sign hlate
    rw [List.dropWhile_append_of_pos hspaces, heq]
    exact List.dropWhile_cons_of_neg (by rw [hb]; exact Bool.false_ne_true)
  have htake : ds.takeWhile (isDigitIn r) = ds := List.takeWhile_eq_self_iff.mpr hds
  rw [strtol_of_split hr (hdrop ▸ splitSign_bytes sign hlate) (splitBase_mark hr hmark hne hds),
    htake, List.dropWhile_eq_nil_iff.mpr hds]
  obtain ⟨d, v, rfl⟩ := List.exists_cons_of_ne_nil hne
  rfl

/-- `strtol` takes the whole text only if it is such a one, or empty. -/
theorem numberText_of_strtol (hr : IsRadix r) (h : (strtol noBase r t).2 = []) :
    t = [] ∨ ∃ n, NumberText r t n := by
  have hsign := bytes_splitSign (t.dropWhile fun b => isspace b.toNat)
  obtain ⟨mark, ds, hbase, hu, hmark⟩ :=
    exists_mark hr (splitSign (t.dropWhile fun b => isspace b.toNat)).2
  rw [strtol_of_split hr rfl hbase] at h
  rw [hu] at hsign
  cases hdigits : ds.takeWhile (isDigitIn r) with
  | nil =>
    rw [hdigits] at h
    exact .inl h
  | cons d v =>
    rw [hdigits] at h
    have hall := List.dropWhile_eq_nil_iff.mp h
    have hne : ds ≠ [] := by
      rintro rfl
      cases hdigits
    refine .inr ⟨_, t.takeWhile fun b => isspace b.toNat,
      (splitSign (t.dropWhile fun b => isspace b.toNat)).1, mark, ds, ?_, ?_, hmark, hne, hall, rfl⟩
    · rw [hsign, List.takeWhile_append_dropWhile]
    · exact fun b hb => List.mem_takeWhile_imp (p := fun b : UInt8 => isspace b.toNat) hb

end Strtol

/-! ### Reading numerals -/

section Read

variable {types : NaviWord → NaviType} {noBase : List UInt8 → ℤ × List UInt8} {r r' : ℕ} {v n : ℤ}
  {s p t : List UInt8} {args : List NaviWord}

/-- How the radix `r'` is written in front of a numeral; `r` is the one where nothing is. -/
inductive RadixText (r : ℕ) : List UInt8 → ℕ → Prop
  | absent : RadixText r [] r
  | binary : RadixText r (cstr "#b") 2
  | octal : RadixText r (cstr "#o") 8
  | decimal : RadixText r (cstr "#d") 10
  | hex : RadixText r (cstr "#x") 16

/-- The numerals of the language: a radix or none, a sign or none, and digits. -/
def IsNumeral (r : ℕ) (s : List UInt8) (v : ℤ) : Prop :=
  ∃ p r' sign ds, RadixText r p r' ∧ s = p ++ (Sign.bytes sign ++ ds) ∧ ds ≠ [] ∧
    (∀ b ∈ ds, isDigitIn r' b = true) ∧ sign.apply (digitsOf r' ds) = v ∧ IsFixnum v

/-- Up to the first zero, nothing follows the radix, or a text that `strtol` takes. -/
def Extended (r : ℕ) (s : List UInt8) : Prop :=
  ∃ p r' t, RadixText r p r' ∧ s.takeWhile (· ≠ 0) = p ++ t ∧ (t = [] ∨ ∃ n, NumberText r' t n)

theorem RadixText.isRadix (h : RadixText r p r') (hr : IsRadix r) : IsRadix r' := by
  cases h with
  | absent => exact hr
  | binary => exact .inl rfl
  | octal => exact .inr (.inl rfl)
  | decimal => exact .inr (.inr (.inl rfl))
  | hex => exact .inr (.inr (.inr rfl))

theorem exists_radixText (r : ℕ) (s : List UInt8) :
    ∃ p r' t, RadixText r p r' ∧ s = p ++ t ∧ (p = [] → explicitRadix t = 0) := by
  have habsent (h : explicitRadix s = 0) :
      ∃ p r' t, RadixText r p r' ∧ s = p ++ t ∧ (p = [] → explicitRadix t = 0) :=
    ⟨[], r, s, .absent, rfl, fun _ => h⟩
  match s with
  | [] => exact habsent rfl
  | [b] =>
    refine habsent ?_
    rw [explicitRadix]
    split <;> rfl
  | b :: c :: t =>
    by_cases hb : b = toByte (ascii '#')
    · subst hb
      by_cases h₂ : c = toByte (ascii 'b')
      · exact ⟨_, _, t, .binary, by rw [h₂]; rfl, nofun⟩
      by_cases h₈ : c = toByte (ascii 'o')
      · exact ⟨_, _, t, .octal, by rw [h₈]; rfl, nofun⟩
      by_cases h₁₀ : c = toByte (ascii 'd')
      · exact ⟨_, _, t, .decimal, by rw [h₁₀]; rfl, nofun⟩
      by_cases h₁₆ : c = toByte (ascii 'x')
      · exact ⟨_, _, t, .hex, by rw [h₁₆]; rfl, nofun⟩
      · refine habsent ?_
        have hne : ∀ x : UInt8, c ≠ x → (toByte (ascii '#') :: c :: t)[1]? ≠ some x := fun x hx h =>
          hx (Option.some.inj h)
        rw [explicitRadix, if_pos List.head?_cons, if_neg (hne _ h₂), if_neg (hne _ h₈), if_neg (hne _ h₁₀),
          if_neg (hne _ h₁₆)]
    · refine habsent ?_
      rw [explicitRadix, if_neg fun h : (b :: c :: t).head? = _ => hb (Option.some.inj h)]

theorem stringToNumber_eq (hargs : radixArg types args = .ok (r : ℤ)) (hr : IsRadix r)
    (hp : RadixText r p r') (hs : s.takeWhile (· ≠ 0) = p ++ t) (h : p = [] → explicitRadix t = 0) :
    stringToNumber types noBase s args = .ok (numberResult (strtol noBase r' t)) := by
  have hint : toInt32 (r : ℤ) = r := by
    obtain rfl | rfl | rfl | rfl := hr
    all_goals rfl
  rw [stringToNumber, hargs, hs]
  cases hp with
  | absent =>
    rw [List.nil_append, ok_bind, if_neg (not_not_intro (h rfl)), hint]
    rfl
  | binary => rfl
  | octal => rfl
  | decimal => rfl
  | hex => rfl

theorem NumberText.explicitRadix_eq (h : NumberText r t n) : explicitRadix t = 0 := by
  obtain ⟨spaces, sign, mark, ds, rfl, hspaces, hmark, hne, hds, -⟩ := h
  rw [explicitRadix, if_neg]
  cases spaces with
  | nil =>
    obtain ⟨b, u, heq, -, hb⟩ := head_bytes_append sign (startsLate_append hmark hne hds)
    rw [List.nil_append, heq]
    exact fun h => hb (Option.some.inj h)
  | cons b spaces =>
    intro h
    have hspace := hspaces b List.mem_cons_self
    rw [Option.some.inj (h : some b = _)] at hspace
    exact absurd hspace (by decide)

/-- A text that `strtol` takes becomes the number that it takes it for. -/
theorem stringToNumber_numberText (hargs : radixArg types args = .ok (r : ℤ)) (hr : IsRadix r)
    (hp : RadixText r p r') (hs : s.takeWhile (· ≠ 0) = p ++ t) (h : NumberText r' t n) :
    stringToNumber types noBase s args = .ok (tagged (clampLong n)) := by
  rw [stringToNumber_eq hargs hr hp hs fun _ => h.explicitRadix_eq, h.strtol_eq (hp.isRadix hr),
    numberResult, makeFixnum_ofInt]

theorem isTagged_of_extended (hargs : radixArg types args = .ok (r : ℤ)) (hr : IsRadix r)
    (h : Extended r s) : ∃ n, stringToNumber types noBase s args = .ok (tagged n) := by
  obtain ⟨p, r', t, hp, hs, rfl | ⟨n, hn⟩⟩ := h
  · have hbase : strtol noBase r' [] = (0, []) := by
      obtain ⟨mark, ds, hbase, hds, -⟩ := exists_mark (hp.isRadix hr) []
      obtain ⟨-, rfl⟩ := List.append_eq_nil_iff.mp hds.symm
      have hsign : splitSign (([] : List UInt8).dropWhile fun b => isspace b.toNat) = (.none, []) :=
        rfl
      rw [strtol_of_split (hp.isRadix hr) hsign hbase, List.takeWhile_nil]
    exact ⟨0, by rw [stringToNumber_eq hargs hr hp hs fun _ => rfl, hbase]; rfl⟩
  · exact ⟨_, stringToNumber_numberText hargs hr hp hs hn⟩

theorem makeBool_of_not_extended (hargs : radixArg types args = .ok (r : ℤ)) (hr : IsRadix r)
    (h : ¬ Extended r s) : stringToNumber types noBase s args = .ok (makeBool false) := by
  obtain ⟨p, r', t, hp, hs, hexplicit⟩ := exists_radixText r (s.takeWhile (· ≠ 0))
  rw [stringToNumber_eq hargs hr hp hs hexplicit]
  cases hend : (strtol noBase r' t).2 with
  | nil => exact absurd ⟨p, r', t, hp, hs, numberText_of_strtol (hp.isRadix hr) hend⟩ h
  | cons b u =>
    rw [← Prod.mk.eta (p := strtol noBase r' t), hend]
    rfl

theorem not_isTagged_makeBool : ¬ (makeBool false).IsTagged := Bool.false_ne_true

theorem IsFixnum.clampLong_eq (h : IsFixnum v) : clampLong v = v := by
  rw [IsFixnum] at h
  rw [clampLong]
  omega

theorem toNat_ne_zero_of_all (h : (s.all fun b => b.toNat ≠ 0) = true) : ∀ b ∈ s, b.toNat ≠ 0 :=
  fun b hb => of_decide_eq_true (List.all_eq_true.mp h b hb)

theorem takeWhile_ne_zero (h : ∀ b ∈ s, b.toNat ≠ 0) : s.takeWhile (· ≠ 0) = s := by
  refine List.takeWhile_eq_self_iff.mpr fun b hb => ?_
  rw [decide_eq_true_eq]
  rintro rfl
  exact h 0 hb rfl

/-- A numeral is read as the number that it stands for. -/
theorem IsNumeral.stringToNumber_eq (h : IsNumeral r s v)
    (hargs : radixArg types args = .ok (r : ℤ)) (hr : IsRadix r) :
    stringToNumber types noBase s args = .ok (tagged v) := by
  obtain ⟨p, r', sign, ds, hp, rfl, hne, hds, rfl, hv⟩ := h
  have hp₀ : ∀ b ∈ p, b.toNat ≠ 0 := by
    cases hp with
    | absent => exact nofun
    | binary | octal | decimal | hex => exact toNat_ne_zero_of_all rfl
  have hsign : ∀ b ∈ sign.bytes, b.toNat ≠ 0 := by
    cases sign <;> exact toNat_ne_zero_of_all rfl
  have hs : (p ++ (sign.bytes ++ ds)).takeWhile (· ≠ 0) = p ++ (sign.bytes ++ ds) := by
    refine takeWhile_ne_zero fun b hb => ?_
    rw [List.mem_append, List.mem_append] at hb
    obtain hb | hb | hb := hb
    · exact hp₀ b hb
    · exact hsign b hb
    · have hle := le_toNat_of_isDigitIn (hds b hb)
      omega
  rw [stringToNumber_numberText hargs hr hp hs
    ⟨[], sign, [], ds, rfl, nofun, .inl rfl, hne, hds, rfl⟩, hv.clampLong_eq]

theorem tagged_inj (hv : IsFixnum v) (hn : IsFixnum n) : tagged v = tagged n ↔ v = n := by
  rw [tagged_eq_iff, hv.fixnumBits_eq, hn.fixnumBits_eq]

/-- The law of `string->number` at a string: it returns the number of a numeral, and `#f` for what
is none. -/
def NumeralLaw (types : NaviWord → NaviType) (noBase : List UInt8 → ℤ × List UInt8) (r : ℕ)
    (s : List UInt8) (args : List NaviWord) : Prop :=
  (∀ v, IsFixnum v → (stringToNumber types noBase s args = .ok (tagged v) ↔ IsNumeral r s v)) ∧
    ((∀ v, ¬ IsNumeral r s v) → stringToNumber types noBase s args = .ok (makeBool false))

theorem not_numeralLaw_of_tagged (h : stringToNumber types noBase s args = .ok (tagged n))
    (hs : ∀ v, ¬ IsNumeral r s v) : ¬ NumeralLaw types noBase r s args := by
  rintro ⟨-, hlaw⟩
  have heq : tagged n = makeBool false := Except.ok.inj (h.symm.trans (hlaw hs))
  exact not_isTagged_makeBool (heq ▸ isTagged_tagged n)

/-- **`string->number` is exact exactly on** the numerals, and the strings that `strtol` does not
take up to the first zero. -/
theorem numeralLaw_iff (types : NaviWord → NaviType) (noBase : List UInt8 → ℤ × List UInt8)
    (s : List UInt8) (hr : IsRadix r) (hargs : radixArg types args = .ok (r : ℤ)) :
    NumeralLaw types noBase r s args ↔ (∃ v, IsNumeral r s v) ∨ ¬ Extended r s := by
  by_cases hnum : ∃ v, IsNumeral r s v
  · refine iff_of_true ⟨fun v hv => ⟨fun h => ?_, fun h => h.stringToNumber_eq hargs hr⟩,
      fun h => absurd hnum (not_exists.mpr h)⟩ (.inl hnum)
    obtain ⟨n, hn⟩ := hnum
    have hfixnum : IsFixnum n := by
      obtain ⟨-, -, -, -, -, -, -, -, -, hn⟩ := hn
      exact hn
    have heq := Except.ok.inj ((hn.stringToNumber_eq hargs hr).symm.trans h)
    rwa [← (tagged_inj hfixnum hv).mp heq]
  · rw [or_iff_right hnum]
    constructor
    · intro hlaw hext
      obtain ⟨n, hn⟩ : ∃ n, stringToNumber types noBase s args = .ok (tagged n) :=
        isTagged_of_extended hargs hr hext
      exact not_numeralLaw_of_tagged hn (not_exists.mp hnum) hlaw
    · intro hext
      have hbool : stringToNumber types noBase s args = .ok (makeBool false) :=
        makeBool_of_not_extended hargs hr hext
      refine ⟨fun v _ => iff_of_false (fun h => ?_) fun h => hnum ⟨v, h⟩, fun _ => hbool⟩
      have heq : tagged v = makeBool false := Except.ok.inj (h.symm.trans hbool)
      exact not_isTagged_makeBool (heq ▸ isTagged_tagged v)

theorem radixArg_tagged (hr : IsRadix r) : radixArg types [tagged r] = .ok (r : ℤ) := by
  have hfix : fixnumBits r = r := by
    obtain rfl | rfl | rfl | rfl := hr
    all_goals rfl
  rw [radixArg, typeCheck_of_isTagged (isTagged_tagged _), value_tagged, hfix]
  rfl

theorem numeralLaw_iff_hex : NumeralLaw (fun _ => .naviPair) (fun s => (0, s)) 16 (cstr "#b-101")
    [tagged (16 : ℕ)] := by
  have hr : IsRadix 16 := .inr (.inr (.inr rfl))
  refine (numeralLaw_iff _ _ _ hr (radixArg_tagged hr)).mpr (.inl ⟨-5, ?_⟩)
  exact ⟨_, _, .minus, cstr "101", .binary, rfl, nofun, List.all_eq_true.mp (by decide), by decide,
    by decide, by decide⟩

/-- A numeral without a radix is a text that `strtol` takes. -/
theorem IsNumeral.numberText (h : IsNumeral r s v) (hs : s.head? ≠ some (toByte (ascii '#'))) :
    NumberText r s v ∧ IsFixnum v ∧
      ∀ b ∈ s, isDigitIn r b = true ∨ b ∈ [toByte (ascii '+'), toByte (ascii '-')] := by
  obtain ⟨p, r', sign, ds, hp, rfl, hne, hds, hvalue, hv⟩ := h
  cases hp with
  | absent =>
    refine ⟨⟨[], sign, [], ds, rfl, nofun, .inl rfl, hne, hds, hvalue⟩, hv, fun b hb => ?_⟩
    rw [List.nil_append, List.mem_append] at hb
    refine hb.symm.imp (hds b) fun hb => ?_
    cases sign with
    | none => cases hb
    | plus => exact List.mem_cons.mpr (.inl (List.mem_singleton.mp hb))
    | minus => exact List.mem_cons_of_mem _ hb
  | binary | octal | decimal | hex => exact absurd rfl hs

theorem NumberText.ne_nil (h : NumberText r t n) : t ≠ [] := by
  obtain ⟨spaces, sign, mark, ds, rfl, -, -, hne, -, -⟩ := h
  simp [hne]

/-- A byte that is neither a digit nor a sign. -/
theorem not_isNumeral_of_mem {b : UInt8} (hs : s.head? ≠ some (toByte (ascii '#'))) (hmem : b ∈ s)
    (hb : isDigitIn r b = false) (hsign : b ∉ [toByte (ascii '+'), toByte (ascii '-')]) (v : ℤ) :
    ¬ IsNumeral r s v := by
  intro h
  obtain ⟨-, -, hall⟩ := h.numberText hs
  obtain hdigit | hmem := hall b hmem
  · rw [hb] at hdigit
    cases hdigit
  · exact hsign hmem

/-- **The empty string, a space, `0x`, a zero and a number that is too large are taken.** -/
theorem not_numeralLaw :
    ¬ NumeralLaw (fun _ => .naviPair) (fun s => (0, s)) 16 (cstr "") [tagged 16] ∧
      ¬ NumeralLaw (fun _ => .naviPair) (fun s => (0, s)) 16 (cstr " 12") [tagged 16] ∧
      ¬ NumeralLaw (fun _ => .naviPair) (fun s => (0, s)) 16 (cstr "0x1F") [tagged 16] ∧
      ¬ NumeralLaw (fun _ => .naviPair) (fun s => (0, s)) 16 (cstr "1" ++ 0 :: cstr "2") [tagged 16] ∧
      ¬ NumeralLaw (fun _ => .naviPair) (fun s => (0, s)) 10 (cstr "4611686018427387904")
        [tagged 10] := by
  refine ⟨?_, ?_, ?_, ?_, ?_⟩
  · exact not_numeralLaw_of_tagged (n := 0) (by decide) fun v h =>
      (h.numberText nofun).1.ne_nil rfl
  · exact not_numeralLaw_of_tagged (n := 18) (by decide)
      (not_isNumeral_of_mem (b := 32) (by decide) (by decide) (by decide) (by decide))
  · exact not_numeralLaw_of_tagged (n := 31) (by decide)
      (not_isNumeral_of_mem (b := 120) (by decide) (by decide) (by decide) (by decide))
  · exact not_numeralLaw_of_tagged (n := 1) (by decide)
      (not_isNumeral_of_mem (b := 0) (by decide) (by decide) (by decide) (by decide))
  · refine not_numeralLaw_of_tagged (n := -2 ^ 62) (by decide) fun v h => ?_
    obtain ⟨htext, hv, -⟩ := h.numberText (by decide)
    have hstrtol : strtol (fun s => (0, s)) 10 (cstr "4611686018427387904") = (clampLong v, []) :=
      htext.strtol_eq (.inr (.inr (.inl rfl)))
    rw [hv.clampLong_eq] at hstrtol
    have hvalue : (strtol (fun s => (0, s)) 10 (cstr "4611686018427387904")).1 = 2 ^ 62 := by decide
    rw [IsFixnum] at hv
    have hfst : (strtol (fun s => (0, s)) 10 (cstr "4611686018427387904")).1 = v :=
      congrArg Prod.fst hstrtol
    omega

end Read

/-! ### Printing numerals -/

section Print

variable {types : NaviWord → NaviType} {noBase : List UInt8 → ℤ × List UInt8} {r : ℕ} {n : ℤ}

theorem digitOf_digitByte {d : ℕ} (h : d < 16) : digitOf (digitByte d) = some d := by
  interval_cases d <;> decide

theorem isDigitIn_digitBytes (hb : 1 < r) (hle : r ≤ 16) (n : ℕ) :
    ∀ b ∈ digitBytes r n, isDigitIn r b = true := by
  intro b hmem
  obtain ⟨d, hd, rfl⟩ := mem_digitBytes hb n hmem
  rw [isDigitIn, digitOf_digitByte (hd.trans_le hle)]
  exact decide_eq_true hd

theorem digitsOf_digitBytes (hb : 1 < r) (hle : r ≤ 16) (n : ℕ) :
    digitsOf r (digitBytes r n) = n := by
  refine foldl_digitBytes hb (n + 1) (fun m d hd _ => ?_) n n.lt_succ_self
  rw [digitOf_digitByte (hd.trans_le hle), Option.getD_some]
  push_cast
  rfl

theorem numberText_digitBytes (hb : 1 < r) (hle : r ≤ 16) (n : ℕ) :
    NumberText r (digitBytes r n) n :=
  ⟨[], .none, [], _, rfl, nofun, .inl rfl, digitBytes_ne_nil r n, isDigitIn_digitBytes hb hle n,
    digitsOf_digitBytes hb hle n⟩

theorem numberText_decimal (n : ℤ) : NumberText 10 (decimal n) n := by
  obtain hn | hn := lt_or_ge n 0
  · have habs : (n.natAbs : ℤ) = -n := by omega
    refine ⟨[], .minus, [], _, decimal_of_neg hn, nofun, .inl rfl, digitBytes_ne_nil _ _,
      isDigitIn_digitBytes (by decide) (by decide) _, ?_⟩
    change -digitsOf 10 (digitBytes 10 n.natAbs) = n
    rw [digitsOf_digitBytes (by decide) (by decide), habs, neg_neg]
  · obtain ⟨m, rfl⟩ := Int.eq_ofNat_of_zero_le hn
    rw [decimal_of_nonneg]
    exact numberText_digitBytes (by decide) (by decide) m

theorem length_digitBytes_le (hb : 1 < r) {m k : ℕ} (hk : 0 < k) (h : m < r ^ k) :
    (digitBytes r m).length ≤ k := by
  rw [digitBytes, List.length_map]
  exact (Nat.length_toDigits_le_iff hb hk).mpr h

/-- The bits of a fixnum as an unsigned number. -/
theorem toNat_fixnum_tagged (hn : IsFixnum n) :
    (tagged n).fixnum.toNat = (n % 2 ^ 64).toNat := by
  have hint : (tagged n).fixnum.toInt = n := (value_tagged n).trans hn.fixnumBits_eq
  rw [← BitVec.ofInt_toInt (x := (tagged n).fixnum), hint, BitVec.toNat_ofInt]
  rfl

theorem numberToString_unsigned (hn : IsFixnum n) (hr : r = 8 ∨ r = 16) :
    numberToString types (tagged n) [tagged r] = .ok (digitBytes r (n % 2 ^ 64).toNat) := by
  have hradix : IsRadix r := hr.elim (fun h => .inr (.inl h)) fun h => .inr (.inr (.inr h))
  have hlength : (digitBytes r (n % 2 ^ 64).toNat).length ≤ 63 := by
    refine length_digitBytes_le (by omega) (by decide) ?_
    have hpow : 8 ^ 63 ≤ r ^ 63 := Nat.pow_le_pow_left (by omega) 63
    omega
  rw [numberToString, radixArg_tagged hradix, ok_bind, toNat_fixnum_tagged hn]
  obtain rfl | rfl := hr
  · exact congrArg Except.ok (List.take_of_length_le hlength)
  · exact congrArg Except.ok (List.take_of_length_le hlength)

theorem numberToString_decimal (hn : IsFixnum n) :
    numberToString types (tagged n) [tagged (10 : ℕ)] = .ok (decimal n) := by
  have hlength : (decimal n).length ≤ 63 := by
    have hdigits : (digitBytes 10 n.natAbs).length ≤ 62 := by
      refine length_digitBytes_le (by decide) (by decide) ?_
      rw [IsFixnum] at hn
      omega
    obtain hneg | hpos := lt_or_ge n 0
    · rw [decimal_of_neg hneg, List.length_cons]
      omega
    · rw [← Int.natAbs_of_nonneg hpos, decimal_of_nonneg]
      omega
  rw [numberToString, radixArg_tagged (.inr (.inr (.inl rfl))), ok_bind, value_tagged,
    hn.fixnumBits_eq]
  exact congrArg Except.ok (List.take_of_length_le hlength)

theorem ne_zero_of_mem_digitBytes (hb : 1 < r) (hle : r ≤ 16) (m : ℕ) :
    ∀ b ∈ digitBytes r m, b.toNat ≠ 0 := by
  intro b hmem
  have hdigit := le_toNat_of_isDigitIn (isDigitIn_digitBytes hb hle m b hmem)
  omega

theorem ne_zero_of_mem_decimal (n : ℤ) : ∀ b ∈ decimal n, b.toNat ≠ 0 := by
  have hdigits := ne_zero_of_mem_digitBytes (r := 10) (by decide) (by decide) n.natAbs
  obtain hneg | hpos := lt_or_ge n 0
  · rw [decimal_of_neg hneg]
    exact List.forall_mem_cons.mpr ⟨by decide, hdigits⟩
  · rw [← Int.natAbs_of_nonneg hpos, decimal_of_nonneg]
    exact hdigits

/-- Printing a fixnum and reading the text gives it back. -/
def NumeralRoundTrip (types : NaviWord → NaviType) (noBase : List UInt8 → ℤ × List UInt8) (n : ℤ)
    (r : ℕ) : Prop :=
  ∃ str, numberToString types (tagged n) [tagged r] = .ok str ∧
    stringToNumber types noBase str [tagged r] = .ok (tagged n)

/-- **A fixnum is read back exactly if** it is not negative, or `-1`, or the radix is 10: the bits
of a negative number are more than a `long` can be, and `LONG_MAX` is `-1` as a fixnum. -/
theorem numeralRoundTrip_iff (types : NaviWord → NaviType)
    (noBase : List UInt8 → ℤ × List UInt8) (hn : IsFixnum n) (hr : r = 8 ∨ r = 10 ∨ r = 16) :
    NumeralRoundTrip types noBase n r ↔ 0 ≤ n ∨ r = 10 ∨ n = -1 := by
  have hradix : IsRadix r := .inr hr
  have hread {str : List UInt8} {m : ℤ} (hstr : numberToString types (tagged n) [tagged r] = .ok str)
      (hnul : ∀ b ∈ str, b.toNat ≠ 0) (htext : NumberText r str m) :
      NumeralRoundTrip types noBase n r ↔ tagged (clampLong m) = tagged n := by
    have hnumber : stringToNumber types noBase str [tagged r] = .ok (tagged (clampLong m)) :=
      stringToNumber_numberText (radixArg_tagged hradix) hradix .absent (takeWhile_ne_zero hnul) htext
    constructor
    · rintro ⟨str', hstr', hn'⟩
      cases hstr.symm.trans hstr'
      exact Except.ok.inj (hnumber.symm.trans hn')
    · exact fun h => ⟨str, hstr, h ▸ hnumber⟩
  by_cases hten : r = 10
  · subst hten
    rw [hread (numberToString_decimal hn) (ne_zero_of_mem_decimal n) (numberText_decimal n),
      hn.clampLong_eq]
    exact iff_of_true rfl (.inr (.inl rfl))
  · have hunsigned : r = 8 ∨ r = 16 := hr.imp_right fun h => h.resolve_left hten
    have hb : 1 < r := by omega
    have hle : r ≤ 16 := by omega
    rw [hread (numberToString_unsigned hn hunsigned) (ne_zero_of_mem_digitBytes hb hle _)
      (numberText_digitBytes hb hle _), tagged_eq_iff, hn.fixnumBits_eq, clampLong, fixnumBits,
      Int.bmod_def]
    rw [IsFixnum] at hn
    omega

theorem numeralRoundTrip_iff_ten :
    NumeralRoundTrip (fun _ => .naviPair) (fun s => (0, s)) (-255) 10 :=
  (numeralRoundTrip_iff _ _ ⟨by norm_num, by norm_num⟩ (.inr (.inl rfl))).mpr (.inr (.inl rfl))

/-- **`-255` is printed in hexadecimal as `ffffffffffffff01`, which is read as `-1`.** -/
theorem not_numeralRoundTrip :
    numberToString (fun _ => .naviPair) (tagged (-255)) [tagged 16] =
        .ok (cstr "ffffffffffffff01") ∧
      stringToNumber (fun _ => .naviPair) (fun s => (0, s)) (cstr "ffffffffffffff01")
        [tagged 16] = .ok (tagged (-1)) ∧
      ¬ NumeralRoundTrip (fun _ => .naviPair) (fun s => (0, s)) (-255) 16 := by
  have hprint : numberToString (fun _ => .naviPair) (tagged (-255)) [tagged 16] =
      .ok (cstr "ffffffffffffff01") := by decide
  have hread : stringToNumber (fun _ => .naviPair) (fun s => (0, s)) (cstr "ffffffffffffff01")
      [tagged 16] = .ok (tagged (-1)) := by decide
  refine ⟨hprint, hread, ?_⟩
  rintro ⟨str, hstr, hn⟩
  cases hprint.symm.trans hstr
  cases hread.symm.trans hn

end Print

end NaviScheme
