import NaviScheme.Arithmetic.Word

/-!
# Sums, products and quotients

The builtins of `arithmetic.c` that compute. Sums, differences and products are the exact ones,
modulo `2 ^ 63` (`foldOp_value`). No builtin that divides looks at the divisor first, so that it
traps where the divisor is zero; and the least fixnum divided by `-1` is no fixnum
(`divisionLaw_iff`).
-/

namespace NaviScheme

/-- How a builtin on numbers ends that does not return. -/
inductive NumberStop
  /-- `navi_arity_error` -/
  | arity (name : String)
  /-- `navi_type_error` -/
  | type (expected : NaviType) (actual : Option NaviType)
  /-- `navi_error` -/
  | raise (msg : String)
  /-- The processor traps. -/
  | trap
  deriving DecidableEq, Repr

/-- A navi error is raised. -/
def NumberStop.Raised : NumberStop → Prop
  | .arity _ | .type _ _ | .raise _ => True
  | .trap => False

namespace NaviWord

/-- `navi_fixnum_divide`. The quotient is rounded towards zero. -/
def divide (n₁ n₂ : NaviWord) : Except NumberStop NaviWord :=
  if unfix n₂ = 0 then .error .trap else .ok (fix ((unfix n₁).sdiv (unfix n₂)))

/-- The quotient of two `long`s. -/
def quot (n₁ n₂ : NaviWord) : Except NumberStop NaviWord :=
  if n₂ = 0 then .error .trap else .ok (n₁.sdiv n₂)

/-- The remainder of two `long`s. -/
def rem (n₁ n₂ : NaviWord) : Except NumberStop NaviWord :=
  if n₂ = 0 then .error .trap else .ok (n₁.srem n₂)

end NaviWord

open NaviWord

section Builtins

variable (types : NaviWord → NaviType)

/-- `navi_type_check` -/
def typeCheck (obj : NaviWord) (t : NaviType) : Except NumberStop Unit :=
  if NaviWord.naviType types obj ≠ some t then .error (.type t (NaviWord.naviType types obj)) else .ok ()

/-- `check_apply`, of a builtin whose arguments up to its arity are fixnums. -/
def checkFixnums (name : String) (arity : ℕ) (variadic : Bool) (args : List NaviWord) :
    Except NumberStop Unit :=
  if args.length = arity ∨ variadic ∧ args.length > arity then
    (args.take arity).forM fun arg => typeCheck types arg .naviFixnum
  else .error (.arity name)

/-- `ARITHMETIC_FOLD`, for a list of arguments with its first one apart. -/
def arithmeticFold (operator : NaviWord → NaviWord → Except NumberStop NaviWord) (arg : NaviWord)
    (args : List NaviWord) : Except NumberStop NaviWord := do
  typeCheck types arg .naviFixnum
  args.foldlM (fun acc arg => do
    typeCheck types arg .naviFixnum
    operator acc arg) arg

/-- `+` -/
def add (args : List NaviWord) : Except NumberStop NaviWord := do
  checkFixnums types "+" 0 true args
  match args with
  | [] => return makeFixnum 0
  | [arg] => return arg
  | arg :: args => arithmeticFold types (fun m n => .ok (plus m n)) arg args

/-- `-` -/
def sub (args : List NaviWord) : Except NumberStop NaviWord := do
  checkFixnums types "-" 1 true args
  match args with
  | [] => .error (.arity "-")
  | [arg] => return minus (makeFixnum 0) arg
  | arg :: args => arithmeticFold types (fun m n => .ok (minus m n)) arg args

/-- `*` -/
def mul (args : List NaviWord) : Except NumberStop NaviWord := do
  checkFixnums types "*" 0 true args
  match args with
  | [] => return makeFixnum 1
  | [arg] => return arg
  | arg :: args => arithmeticFold types (fun m n => .ok (times m n)) arg args

/-- `/` -/
def div (args : List NaviWord) : Except NumberStop NaviWord := do
  checkFixnums types "/" 1 true args
  match args with
  | [] => .error (.arity "/")
  | [arg] => divide (makeFixnum 1) arg
  | arg :: args => arithmeticFold types divide arg args

/-- `quotient` -/
def quotient (args : List NaviWord) : Except NumberStop NaviWord := do
  checkFixnums types "quotient" 2 false args
  match args with
  | [arg₁, arg₂] => return makeFixnum (← quot (fixnum arg₁) (fixnum arg₂))
  | _ => .error (.arity "quotient")

/-- `remainder` -/
def remainder (args : List NaviWord) : Except NumberStop NaviWord := do
  checkFixnums types "remainder" 2 false args
  match args with
  | [arg₁, arg₂] => return makeFixnum (← rem (fixnum arg₁) (fixnum arg₂))
  | _ => .error (.arity "remainder")

end Builtins

variable {types : NaviWord → NaviType} {w a b : NaviWord} {ws : List NaviWord}

/-! ### Checks -/

theorem typeCheck_of_isTagged (h : w.IsTagged) : typeCheck types w .naviFixnum = .ok () := by
  rw [typeCheck, h.naviType types, if_neg (not_not_intro rfl)]

theorem checkFixnums_of_isTagged {name : String} {arity : ℕ} {variadic : Bool}
    (hlength : ws.length = arity ∨ variadic ∧ ws.length > arity) (hws : ∀ w ∈ ws, w.IsTagged) :
    checkFixnums types name arity variadic ws = .ok () := by
  rw [checkFixnums, if_pos hlength]
  have hall : ∀ w ∈ ws.take arity, w.IsTagged := fun w hw => hws w (List.mem_of_mem_take hw)
  generalize ws.take arity = us at hall
  induction us with
  | nil => rfl
  | cons u us ih =>
    change (typeCheck types u .naviFixnum >>= fun _ => us.forM _) = _
    rw [typeCheck_of_isTagged (hall u List.mem_cons_self)]
    exact ih fun w hw => hall w (List.mem_cons_of_mem u hw)

/-! ### Sums, differences and products -/

section Fold

variable {operator : NaviWord → NaviWord → Except NumberStop NaviWord} {q : NaviWord}

theorem arithmeticFold_nil (ha : a.IsTagged) : arithmeticFold types operator a [] = .ok a := by
  rw [arithmeticFold, typeCheck_of_isTagged ha]
  rfl

theorem arithmeticFold_cons (ha : a.IsTagged) (hb : b.IsTagged) (hq : q.IsTagged)
    (h : operator a b = .ok q) :
    arithmeticFold types operator a (b :: ws) = arithmeticFold types operator q ws := by
  rw [arithmeticFold, arithmeticFold, typeCheck_of_isTagged ha, typeCheck_of_isTagged hq,
    List.foldlM_cons, typeCheck_of_isTagged hb, h]
  rfl

theorem arithmeticFold_error {e : NumberStop} (ha : a.IsTagged) (hb : b.IsTagged)
    (h : operator a b = .error e) : arithmeticFold types operator a (b :: ws) = .error e := by
  rw [arithmeticFold, typeCheck_of_isTagged ha, List.foldlM_cons, typeCheck_of_isTagged hb, h]
  rfl

/-- An operation that computes modulo `2 ^ 63` does so over all the arguments. -/
theorem arithmeticFold_eq {operator : NaviWord → NaviWord → NaviWord} {f : ℤ → ℤ → ℤ}
    (hf : ∀ m n, operator (tagged m) (tagged n) = tagged (f m n)) (ha : a.IsTagged)
    (hws : ∀ w ∈ ws, w.IsTagged) :
    arithmeticFold types (fun m n => .ok (operator m n)) a ws =
      .ok (tagged ((ws.map value).foldl f a.value)) := by
  have hfold (n : ℤ) : arithmeticFold types (fun m n => .ok (operator m n)) (tagged n) ws =
      .ok (tagged ((ws.map value).foldl f n)) := by
    induction ws generalizing n with
    | nil => exact arithmeticFold_nil (isTagged_tagged n)
    | cons w ws ih =>
      have hw := hws w List.mem_cons_self
      have hstep : operator (tagged n) w = tagged (f n w.value) := by
        rw [← hf, hw.tagged_value]
      rw [arithmeticFold_cons (isTagged_tagged n) hw (isTagged_tagged _) (congrArg _ hstep),
        ih fun u hu => hws u (List.mem_cons_of_mem w hu)]
      rfl
  rw [← hfold, ha.tagged_value]

end Fold

/-- The builtins that fold their arguments. -/
inductive FoldOp
  | add
  | sub
  | mul
  deriving DecidableEq, Repr

namespace FoldOp

/-- The builtin. -/
def call (types : NaviWord → NaviType) : FoldOp → List NaviWord → Except NumberStop NaviWord
  | add => NaviScheme.add types
  | sub => NaviScheme.sub types
  | mul => NaviScheme.mul types

/-- The exact result: the left fold over the integers. -/
def leftFold : FoldOp → List ℤ → ℤ
  | add, ns => ns.foldl (· + ·) 0
  | sub, [] => 0
  | sub, [n] => 0 - n
  | sub, n :: ns => ns.foldl (· - ·) n
  | mul, ns => ns.foldl (· * ·) 1

theorem leftFold_add_cons (n : ℤ) (ns : List ℤ) : leftFold .add (n :: ns) = ns.foldl (· + ·) n := by
  rw [leftFold, List.foldl_cons, zero_add]

theorem leftFold_sub_cons (n m : ℤ) (ns : List ℤ) :
    leftFold .sub (n :: m :: ns) = (m :: ns).foldl (· - ·) n := rfl

theorem leftFold_mul_cons (n : ℤ) (ns : List ℤ) : leftFold .mul (n :: ns) = ns.foldl (· * ·) n := by
  rw [leftFold, List.foldl_cons, one_mul]

/-- All the arguments are folded. -/
theorem call_eq (op : FoldOp) (hne : ws ≠ []) (hws : ∀ w ∈ ws, w.IsTagged) :
    op.call types ws = .ok (tagged (op.leftFold (ws.map value))) := by
  have hcheck : ∀ name n, n ≤ 1 → checkFixnums types name n true ws = .ok () := by
    intro name n hn
    refine checkFixnums_of_isTagged ?_ hws
    have hpos := List.length_pos_of_ne_nil hne
    rw [gt_iff_lt, and_iff_right rfl]
    omega
  obtain ⟨a, us, rfl⟩ := List.exists_cons_of_ne_nil hne
  have ha := hws a List.mem_cons_self
  have hus : ∀ u ∈ us, u.IsTagged := fun u hu => hws u (List.mem_cons_of_mem a hu)
  cases op with
  | add =>
    rw [List.map_cons, leftFold_add_cons]
    cases us with
    | nil =>
      change (checkFixnums types "+" 0 true [a] >>= fun _ => .ok a) = .ok (tagged a.value)
      rw [hcheck _ 0 zero_le_one, ha.tagged_value]
      rfl
    | cons u us =>
      change (checkFixnums types "+" 0 true (a :: u :: us) >>= fun _ =>
        arithmeticFold types (fun m n => .ok (plus m n)) a (u :: us)) = _
      rw [hcheck _ 0 zero_le_one]
      exact arithmeticFold_eq plus_tagged ha hus
  | sub =>
    cases us with
    | nil =>
      change (checkFixnums types "-" 1 true [a] >>= fun _ => .ok (minus (tagged 0) a)) = _
      rw [hcheck _ 1 le_rfl, ← ha.tagged_value, minus_tagged, ha.tagged_value]
      rfl
    | cons u us =>
      change (checkFixnums types "-" 1 true (a :: u :: us) >>= fun _ =>
        arithmeticFold types (fun m n => .ok (minus m n)) a (u :: us)) = _
      rw [hcheck _ 1 le_rfl]
      exact arithmeticFold_eq minus_tagged ha hus
  | mul =>
    rw [List.map_cons, leftFold_mul_cons]
    cases us with
    | nil =>
      change (checkFixnums types "*" 0 true [a] >>= fun _ => .ok a) = .ok (tagged a.value)
      rw [hcheck _ 0 zero_le_one, ha.tagged_value]
      rfl
    | cons u us =>
      change (checkFixnums types "*" 0 true (a :: u :: us) >>= fun _ =>
        arithmeticFold types (fun m n => .ok (times m n)) a (u :: us)) = _
      rw [hcheck _ 0 zero_le_one]
      exact arithmeticFold_eq times_tagged ha hus

end FoldOp

/-- **Sums, differences and products are exact modulo `2 ^ 63`**: the result is a fixnum, and its
number is that of the left fold, which it is itself if it is in the range. -/
theorem foldOp_value (types : NaviWord → NaviType) (op : FoldOp) (hne : ws ≠ [])
    (hws : ∀ w ∈ ws, w.IsTagged) :
    ∃ w, op.call types ws = .ok w ∧ w.IsTagged ∧
      w.value = fixnumBits (op.leftFold (ws.map value)) ∧
      (IsFixnum (op.leftFold (ws.map value)) → w.value = op.leftFold (ws.map value)) := by
  refine ⟨_, op.call_eq hne hws, isTagged_tagged _, value_tagged _, fun h => ?_⟩
  rw [value_tagged, h.fixnumBits_eq]

/-- The sum of the greatest fixnum and `1` is the least. -/
theorem foldOp_value_wraps :
    ∃ w, FoldOp.add.call (fun _ => .naviPair) [tagged (2 ^ 62 - 1), tagged 1] = .ok w ∧
      w.IsTagged ∧ w.value = -2 ^ 62 := by
  have hws : ∀ w ∈ [tagged (2 ^ 62 - 1), tagged 1], w.IsTagged := by
    simp only [List.forall_mem_cons, isTagged_tagged, true_and]
    exact nofun
  obtain ⟨w, hw, htagged, hvalue, -⟩ :=
    foldOp_value (fun _ => .naviPair) .add (List.cons_ne_nil _ _) hws
  refine ⟨w, hw, htagged, hvalue.trans ?_⟩
  rw [List.map_cons, List.map_singleton, value_tagged, value_tagged]
  decide

/-! ### Quotients -/

namespace NaviWord

theorem fix_eq (w : NaviWord) : fix w = tagged w.toInt := by
  rw [← fix_ofInt, BitVec.ofInt_toInt]

theorem fixnum_eq_zero_iff : w.fixnum = 0 ↔ w.value = 0 := by
  rw [← BitVec.toInt_inj]
  rfl

theorem toInt_sdiv_fixnum (a b : NaviWord) :
    tagged (a.fixnum.sdiv b.fixnum).toInt = tagged (a.value.tdiv b.value) := by
  have hdvd : (2 ^ 63 : ℕ) ∣ 2 ^ 64 := ⟨2, by norm_num⟩
  rw [tagged_eq_iff, BitVec.toInt_sdiv, fixnumBits, Int.bmod_bmod_of_dvd hdvd]
  rfl

theorem divide_eq (a b : NaviWord) : divide a b =
    if b.value = 0 then .error .trap else .ok (tagged (a.value.tdiv b.value)) := by
  rw [divide, fix_eq]
  change (if b.fixnum = 0 then _ else Except.ok (tagged (a.fixnum.sdiv b.fixnum).toInt)) = _
  rw [toInt_sdiv_fixnum]
  exact if_congr fixnum_eq_zero_iff rfl rfl

end NaviWord

/-- A fold of quotients traps at the first divisor that is zero. -/
theorem arithmeticFold_divide (ha : a.IsTagged) (hws : ∀ w ∈ ws, w.IsTagged) :
    (0 ∈ ws.map value → arithmeticFold types divide a ws = .error .trap) ∧
      (0 ∉ ws.map value → ∃ q, arithmeticFold types divide a ws = .ok q ∧ q.IsTagged) := by
  induction ws generalizing a with
  | nil => exact ⟨fun h => absurd h List.not_mem_nil, fun _ => ⟨a, arithmeticFold_nil ha, ha⟩⟩
  | cons w ws ih =>
    have hw := hws w List.mem_cons_self
    have hdivide := divide_eq a w
    rw [List.map_cons, List.mem_cons]
    by_cases hzero : w.value = 0
    · rw [if_pos hzero] at hdivide
      rw [arithmeticFold_error ha hw hdivide]
      exact ⟨fun _ => rfl, fun h => absurd (.inl hzero.symm) h⟩
    · rw [if_neg hzero] at hdivide
      have hq := isTagged_tagged (a.value.tdiv w.value)
      rw [arithmeticFold_cons ha hw hq hdivide, or_iff_right (Ne.symm hzero)]
      exact ih hq fun u hu => hws u (List.mem_cons_of_mem w hu)

/-- What `/` divides by. -/
def divisors : List NaviWord → List ℤ
  | [arg] => [arg.value]
  | args => args.tail.map value

/-- A call, with the numbers that it divides by: it raises an error, or none of them is zero and it
returns a fixnum. -/
def GuardsZero (divisors : List ℤ) (result : Except NumberStop NaviWord) : Prop :=
  (∃ e, result = .error e ∧ e.Raised) ∨ 0 ∉ divisors ∧ ∃ q, result = .ok q ∧ q.IsTagged

/-- The law of `quotient` and `remainder`, at two fixnums. -/
def QuotientLaw (types : NaviWord → NaviType) (a b : NaviWord) : Prop :=
  GuardsZero [b.value] (quotient types [a, b]) ∧ GuardsZero [b.value] (remainder types [a, b]) ∧
    ∀ q r, quotient types [a, b] = .ok q → remainder types [a, b] = .ok r →
      a.value = b.value * q.value + r.value ∧ |r.value| < |b.value| ∧
        (0 ≤ a.value → 0 ≤ r.value) ∧ (a.value ≤ 0 → r.value ≤ 0)

theorem not_raised_trap : ¬ NumberStop.trap.Raised := id

/-- A call that traps exactly where it divides by zero is guarded if it does not. -/
theorem guardsZero_iff {ds : List ℤ} {result : Except NumberStop NaviWord}
    (htrap : 0 ∈ ds → result = .error .trap) (hok : 0 ∉ ds → ∃ q, result = .ok q ∧ q.IsTagged) :
    GuardsZero ds result ↔ 0 ∉ ds := by
  constructor
  · rintro (⟨e, he, hraised⟩ | ⟨hmem, -⟩) hzero
    · cases (htrap hzero).symm.trans he
      exact not_raised_trap hraised
    · exact hmem hzero
  · exact fun h => .inr ⟨h, hok h⟩

theorem guardsZero_div_iff (hws : ∀ w ∈ ws, w.IsTagged) :
    GuardsZero (divisors ws) (div types ws) ↔ 0 ∉ divisors ws := by
  cases ws with
  | nil => exact iff_of_true (.inl ⟨_, rfl, trivial⟩) List.not_mem_nil
  | cons a us =>
    have hcheck : checkFixnums types "/" 1 true (a :: us) = .ok () := by
      refine checkFixnums_of_isTagged ?_ hws
      rw [List.length_cons, gt_iff_lt, and_iff_right rfl]
      omega
    cases us with
    | nil =>
      have heq : div types [a] = divide (makeFixnum 1) a := by
        change (checkFixnums types "/" 1 true [a] >>= fun _ => divide (makeFixnum 1) a) = _
        rw [hcheck]
        rfl
      rw [heq, divide_eq]
      refine guardsZero_iff (fun h => ?_) fun h => ?_
      · rw [if_pos (List.mem_singleton.mp h).symm]
      · rw [if_neg fun hzero => h (List.mem_singleton.mpr hzero.symm)]
        exact ⟨_, rfl, isTagged_tagged _⟩
    | cons u us =>
      have heq : div types (a :: u :: us) = arithmeticFold types divide a (u :: us) := by
        change (checkFixnums types "/" 1 true (a :: u :: us) >>= fun _ =>
          arithmeticFold types divide a (u :: us)) = _
        rw [hcheck]
        rfl
      obtain ⟨htrap, hok⟩ := @arithmeticFold_divide types a (u :: us) (hws a List.mem_cons_self)
        fun w hw => hws w (List.mem_cons_of_mem a hw)
      rw [heq]
      exact guardsZero_iff htrap hok

section Quotient

theorem checkFixnums_two (ha : a.IsTagged) (hb : b.IsTagged) (name : String) :
    checkFixnums types name 2 false [a, b] = .ok () :=
  checkFixnums_of_isTagged (.inl rfl) (by simp [ha, hb])

theorem quotient_eq (ha : a.IsTagged) (hb : b.IsTagged) : quotient types [a, b] =
    if b.value = 0 then .error .trap else .ok (tagged (a.value.tdiv b.value)) := by
  change (checkFixnums types "quotient" 2 false [a, b] >>= fun _ =>
    quot a.fixnum b.fixnum >>= fun q => .ok (fix q)) = _
  rw [checkFixnums_two ha hb, quot]
  by_cases hzero : b.value = 0
  · rw [if_pos hzero, if_pos (fixnum_eq_zero_iff.mpr hzero)]
    rfl
  · rw [if_neg hzero, if_neg (mt fixnum_eq_zero_iff.mp hzero), ← toInt_sdiv_fixnum, ← fix_eq]
    rfl

theorem remainder_eq (ha : a.IsTagged) (hb : b.IsTagged) : remainder types [a, b] =
    if b.value = 0 then .error .trap else .ok (tagged (a.value.tmod b.value)) := by
  change (checkFixnums types "remainder" 2 false [a, b] >>= fun _ =>
    rem a.fixnum b.fixnum >>= fun r => .ok (fix r)) = _
  have hsrem : (a.fixnum.srem b.fixnum).toInt = a.value.tmod b.value := BitVec.toInt_srem _ _
  rw [checkFixnums_two ha hb, rem]
  by_cases hzero : b.value = 0
  · rw [if_pos hzero, if_pos (fixnum_eq_zero_iff.mpr hzero)]
    rfl
  · rw [if_neg hzero, if_neg (mt fixnum_eq_zero_iff.mp hzero), ← hsrem, ← fix_eq]
    rfl

/-- The quotient of two fixnums is a fixnum, but for that of the least one and `-1`. -/
theorem isFixnum_tdiv {m n : ℤ} (hm : IsFixnum m) (h : ¬ (m = -2 ^ 62 ∧ n = -1)) :
    IsFixnum (m.tdiv n) := by
  obtain ⟨h₁, h₂⟩ := hm
  by_cases hone : n.natAbs = 1
  · obtain rfl | rfl := Int.natAbs_eq_iff.mp hone
    · rw [Nat.cast_one, Int.tdiv_one]
      exact ⟨h₁, h₂⟩
    · rw [Nat.cast_one, Int.tdiv_neg, Int.tdiv_one, IsFixnum]
      have hne : m ≠ -2 ^ 62 := fun hm => h ⟨hm, rfl⟩
      omega
  · -- the quotient by any other number is at most one half
    have hhalf : (m.tdiv n).natAbs ≤ m.natAbs / 2 := by
      rw [Int.natAbs_tdiv]
      change m.natAbs / n.natAbs ≤ m.natAbs / 2
      obtain hzero | htwo : n.natAbs = 0 ∨ 2 ≤ n.natAbs := by omega
      · rw [hzero, Nat.div_zero]
        exact Nat.zero_le _
      · exact Nat.div_le_div_left htwo two_pos
    rw [IsFixnum]
    omega

theorem natAbs_tmod_lt {m n : ℤ} (hzero : n ≠ 0) : (m.tmod n).natAbs < n.natAbs := by
  rw [Int.natAbs_tmod]
  exact Nat.mod_lt _ (Int.natAbs_pos.mpr hzero)

theorem isFixnum_tmod {m n : ℤ} (hn : IsFixnum n) (hzero : n ≠ 0) : IsFixnum (m.tmod n) := by
  have hlt := natAbs_tmod_lt (m := m) hzero
  obtain ⟨h₁, h₂⟩ := hn
  rw [IsFixnum]
  omega

theorem quotientLaw_iff (ha : a.IsTagged) (hb : b.IsTagged) :
    QuotientLaw types a b ↔ b.value ≠ 0 ∧ ¬ (a.value = -2 ^ 62 ∧ b.value = -1) := by
  have hquotient := @quotient_eq types a b ha hb
  have hremainder := @remainder_eq types a b ha hb
  by_cases hzero : b.value = 0
  · rw [if_pos hzero] at hquotient
    refine iff_of_false (fun h => ?_) fun h => h.1 hzero
    obtain ⟨e, he, hraised⟩ | ⟨-, q, hq, -⟩ := h.1
    · cases hquotient.symm.trans he
      exact not_raised_trap hraised
    · cases hquotient.symm.trans hq
  rw [if_neg hzero] at hquotient hremainder
  have hguards : ∀ n : ℤ, ∀ result : Except NumberStop NaviWord, result = .ok (tagged n) →
      GuardsZero [b.value] result := fun n result h =>
    .inr ⟨fun hmem => hzero (List.mem_singleton.mp hmem).symm, _, h, isTagged_tagged n⟩
  have hr : (tagged (a.value.tmod b.value)).value = a.value.tmod b.value := by
    rw [value_tagged, (isFixnum_tmod (isFixnum_value b) hzero).fixnumBits_eq]
  constructor
  · rintro ⟨-, -, hlaw⟩
    refine ⟨hzero, fun ⟨hmin, hone⟩ => ?_⟩
    have heq := (hlaw _ _ hquotient hremainder).1
    rw [hr, value_tagged, hmin, hone] at heq
    revert heq
    decide
  · rintro ⟨-, hrange⟩
    refine ⟨hguards _ _ hquotient, hguards _ _ hremainder, fun q r hq' hr' => ?_⟩
    cases hquotient.symm.trans hq'
    cases hremainder.symm.trans hr'
    have hq : (tagged (a.value.tdiv b.value)).value = a.value.tdiv b.value := by
      rw [value_tagged, (isFixnum_tdiv (isFixnum_value a) hrange).fixnumBits_eq]
    rw [hq, hr]
    refine ⟨(Int.mul_tdiv_add_tmod _ _).symm, ?_, fun h => Int.tmod_nonneg _ h, fun h => ?_⟩
    · rw [Int.abs_eq_natAbs, Int.abs_eq_natAbs]
      exact Nat.cast_lt.mpr (natAbs_tmod_lt hzero)
    · have hneg := Int.tmod_nonneg b.value (neg_nonneg.mpr h)
      rw [Int.neg_tmod] at hneg
      exact neg_nonneg.mp hneg

end Quotient

/-- **The law of division holds exactly if** no divisor is zero, and `quotient` and `remainder` do
not divide the least fixnum by `-1`. -/
theorem divisionLaw_iff (types : NaviWord → NaviType) (hws : ∀ w ∈ ws, w.IsTagged)
    (ha : a.IsTagged) (hb : b.IsTagged) :
    GuardsZero (divisors ws) (div types ws) ∧ QuotientLaw types a b ↔
      0 ∉ divisors ws ∧ b.value ≠ 0 ∧ ¬ (a.value = -2 ^ 62 ∧ b.value = -1) :=
  and_congr (guardsZero_div_iff hws) (quotientLaw_iff ha hb)

theorem divisors_pair (m n : ℤ) : divisors [tagged m, tagged n] = [fixnumBits n] := by
  rw [← value_tagged]
  rfl

theorem forall_isTagged_pair (m n : ℤ) : ∀ w ∈ [tagged m, tagged n], w.IsTagged := by
  simp only [List.forall_mem_cons, isTagged_tagged, true_and]
  exact nofun

theorem divisionLaw_iff_six :
    GuardsZero (divisors [tagged 6, tagged (-3)])
        (div (fun _ => .naviPair) [tagged 6, tagged (-3)]) ∧
      QuotientLaw (fun _ => .naviPair) (tagged 5) (tagged 2) := by
  refine (divisionLaw_iff _ (forall_isTagged_pair 6 (-3)) (isTagged_tagged 5)
    (isTagged_tagged 2)).mpr ?_
  rw [divisors_pair, value_tagged, value_tagged]
  decide

/-- **A divisor that is zero traps, and the least fixnum divided by `-1` is itself.** -/
theorem not_divisionLaw :
    div (fun _ => .naviPair) [tagged 1, tagged 0] = .error .trap ∧
      ¬ GuardsZero (divisors [tagged 1, tagged 0])
        (div (fun _ => .naviPair) [tagged 1, tagged 0]) ∧
      ¬ QuotientLaw (fun _ => .naviPair) (tagged 1) (tagged 0) ∧
      quotient (fun _ => .naviPair) [tagged (-2 ^ 62), tagged (-1)] = .ok (tagged (-2 ^ 62)) ∧
      ¬ QuotientLaw (fun _ => .naviPair) (tagged (-2 ^ 62)) (tagged (-1)) := by
  refine ⟨by decide, fun h => ?_, fun h => ?_, by decide, fun h => ?_⟩
  · have hmem := (guardsZero_div_iff (forall_isTagged_pair 1 0)).mp h
    rw [divisors_pair] at hmem
    exact hmem List.mem_cons_self
  · exact ((quotientLaw_iff (isTagged_tagged 1) (isTagged_tagged 0)).mp h).1 (value_tagged 0)
  · exact ((quotientLaw_iff (isTagged_tagged _) (isTagged_tagged _)).mp h).2
      ⟨value_tagged _, value_tagged _⟩

end NaviScheme
