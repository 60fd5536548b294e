import NaviScheme.Eval.Builtins
import NaviScheme.Language.Clauses
import NaviScheme.Language.Run
import NaviScheme.Arithmetic.Operations

/-!
# Numbers and lists

What the builtins on numbers, booleans and lists return, as values of the language
(`NaviScheme.CoreBuiltin.meaning`): sums, differences and products modulo `2 ^ 63`, comparisons of
neighbours, the first tail of a list with some head. This file defines it, and has what their loops
compute; `NaviScheme.CoreBuiltin.returnsAt` puts it together.

Sharing is not seen by values. So `eq?` and the searches have a meaning only where symbols and
constants are compared.
-/

namespace Lisp.Val

variable {κ ν π : Type}

/-- The elements of a proper list. -/
def toList? : Val κ ν π → Option (List (Val κ ν π))
  | nil => some []
  | pair v vs => (toList? vs).map (v :: ·)
  | _ => none

theorem eq_list_of_toList? {v : Val κ ν π} {vs : List (Val κ ν π)} (h : v.toList? = some vs) :
    v = list vs := by
  induction v generalizing vs with
  | nil =>
    cases h
    rfl
  | pair v rest _ ih =>
    obtain ⟨us, hus, rfl⟩ := Option.map_eq_some_iff.mp h
    rw [list_cons, ih hus]
  | _ => cases h

instance : DecidablePred (IsScalar : Val κ ν π → Prop)
  | nil | const _ | sym _ => .isTrue trivial
  | pair _ _ | closure _ _ _ | special _ | prim _ => .isFalse not_false

end Lisp.Val

namespace NaviScheme

open Prog

/-! ### Meanings -/

instance (n : ℤ) : Decidable (IsFixnum n) := inferInstanceAs (Decidable (_ ∧ _))

/-- The numbers that are the values. -/
def fixnums : List Value → Option (List ℤ)
  | [] => some []
  | .const (.fixnum n) :: vs => (fixnums vs).map (n :: ·)
  | _ => none

/-- The booleans that are the values. -/
def booleans : List Value → Option (List Bool)
  | [] => some []
  | .const (.bool b) :: vs => (booleans vs).map (b :: ·)
  | _ => none

/-- A number as a value. -/
def Value.fixnum (n : ℤ) : Value := .const (.fixnum n)

/-- A boolean as a value. -/
def Value.bool (b : Bool) : Value := .const (.bool b)

/-- The tail of a list from where a value is. -/
def memTail (u : Value) (vs : List Value) : Value :=
  match vs.dropWhile (· ≠ u) with
  | [] => .bool false
  | tail => .list tail

/-- The first entry of an association list with a value at its head. -/
def assocEntry (u : Value) : List Value → Option Value
  | [] => some (.bool false)
  | .pair k v :: rest => if u = k then some (.pair k v) else assocEntry u rest
  | _ => none

namespace CoreBuiltin

/-- The declarations. -/
def spec : CoreBuiltin → BuiltinSpec
  | not | booleanp | charp | procedurep | pairp | nullp | listp => ⟨1, false, [.naviAny]⟩
  | eqp | eqvp => ⟨2, false, [.naviAny, .naviAny]⟩
  | booleanEq => ⟨1, true, [.type .naviBool]⟩
  | add | mul => ⟨0, true, []⟩
  | sub | lt | gt | lte | gte | numeq => ⟨1, true, [.type .naviFixnum]⟩
  | quotient | remainder => ⟨2, false, [.type .naviFixnum, .type .naviFixnum]⟩
  | zerop | positivep | negativep | oddp | evenp => ⟨1, false, [.type .naviFixnum]⟩
  | length => ⟨1, false, [.naviList]⟩
  | makeList => ⟨1, true, [.type .naviFixnum]⟩
  | memq | memv | assq | assv => ⟨2, false, [.naviAny, .naviList]⟩

/-- Whether a value is of a type. -/
def typeMeaning (t : NaviType) : List Value → Option Value
  | [v] => some (.bool (v.type = t))
  | _ => none

/-- Whether booleans are all the same. -/
def booleanEqMeaning : List Value → Option Value
  | .const (.bool b) :: vs => (booleans vs).map fun bs => .bool (bs.all (· = b))
  | _ => none

/-- Sums, differences and products are those of the integers, modulo `2 ^ 63`. -/
def foldMeaning (op : FoldOp) (vs : List Value) : Option Value :=
  (fixnums vs).map fun ns => .fixnum (fixnumBits (op.leftFold ns))

/-- Quotients of fixnums, but for those by zero. -/
def longMeaning (f : ℤ → ℤ → ℤ) : List Value → Option Value
  | [.const (.fixnum m), .const (.fixnum n)] =>
    if IsFixnum m ∧ IsFixnum n ∧ n ≠ 0 then some (.fixnum (fixnumBits (f m n))) else none
  | _ => none

/-- Whether each number is in order with the one after it. -/
def orderMeaning (op : Comparison) : List Value → Option Value
  | [] => none
  | vs => (fixnums vs).map fun ns => .bool (ns.IsChain fun m n => op.holds m n)

/-- A test of a number. -/
def testMeaning (test : ℤ → Bool) : List Value → Option Value
  | [.const (.fixnum n)] => some (.bool (test n))
  | _ => none

/-- Whether two values are the same, where one of them is a symbol or a constant. -/
def sameMeaning : List Value → Option Value
  | [u, v] => if u.IsScalar ∨ v.IsScalar then some (.bool (u = v)) else none
  | _ => none

/-- A search for a symbol or a constant in a list. -/
def searchMeaning (f : Value → List Value → Option Value) : List Value → Option Value
  | [u, l] => if u.IsScalar then l.toList?.bind (f u) else none
  | _ => none

/-- A list of so many elements, which are `0` if nothing is said of them. -/
def makeListMeaning : List Value → Option Value
  | [.const (.fixnum k)] =>
    if 0 ≤ k then some (.list (List.replicate k.toNat (Value.fixnum 0))) else none
  | [.const (.fixnum k), v] => if 0 ≤ k then some (.list (List.replicate k.toNat v)) else none
  | _ => none

/-- **What the builtins return.** -/
def meaning : CoreBuiltin → List Value → Option Value
  | not, [v] => some (.bool (v = .bool false))
  | booleanp, vs => typeMeaning .naviBool vs
  | charp, vs => typeMeaning .naviChar vs
  | procedurep, vs => typeMeaning .naviProcedure vs
  | pairp, vs => typeMeaning .naviPair vs
  | nullp, vs => typeMeaning .naviNil vs
  | eqp, vs | eqvp, vs => sameMeaning vs
  | booleanEq, vs => booleanEqMeaning vs
  | add, [v] | mul, [v] => some v
  | add, vs => foldMeaning .add vs
  | mul, vs => foldMeaning .mul vs
  | sub, v :: vs => foldMeaning .sub (v :: vs)
  | quotient, vs => longMeaning Int.tdiv vs
  | remainder, vs => longMeaning Int.tmod vs
  | lt, vs => orderMeaning .lt vs
  | gt, vs => orderMeaning .gt vs
  | lte, vs => orderMeaning .lte vs
  | gte, vs => orderMeaning .gte vs
  | numeq, vs => orderMeaning .eq vs
  | zerop, vs => testMeaning (· = 0) vs
  | positivep, vs => testMeaning (0 < ·) vs
  | negativep, vs => testMeaning (· < 0) vs
  | oddp, vs => testMeaning (fun n => n.tmod 2 ≠ 0) vs
  | evenp, vs => testMeaning (fun n => n.tmod 2 = 0) vs
  | listp, [v] => if v.type = .naviPair then v.toList?.map fun _ => .bool true
    else some (.bool (v = .nil))
  | length, [v] => v.toList?.map fun vs => .fixnum vs.length
  | makeList, vs => makeListMeaning vs
  | memq, vs | memv, vs => searchMeaning (fun u vs => some (memTail u vs)) vs
  | assq, vs | assv, vs => searchMeaning assocEntry vs
  | _, _ => none

end CoreBuiltin

/-- The builtins on numbers, booleans and lists. -/
def coreBuiltins : OtherBuiltins where
  spec n := (CoreBuiltin.all[n]?.map CoreBuiltin.spec).getD ⟨0, false, []⟩
  meaning n vs := CoreBuiltin.all[n]?.bind fun b => b.meaning vs

/-- An interpreter that has them. -/
def Externals.HasCore (X : Externals) : Prop :=
  ∀ n b, CoreBuiltin.all[n]? = some b → X.builtin n = fun nrArgs args _ => b.run nrArgs args

/-! ### What the C functions compute -/

section Compute

variable {B : OtherBuiltins} {w : World} {o o' args : NaviObj} {u v : Value} {vs us : List Value}
  {os pairs : List NaviObj} {n : ℕ} {t : NaviType}

open Builtins

/-- The arguments of a builtin: the first, -/
theorem ValueAt.first (h : ValueAt B w args (.list (v :: vs))) :
    ∃ o, Computes (naviCar args : Leaf _) w o w ∧ ValueAt B w o v := by
  obtain ⟨car, cdr, hpair, hcar, -⟩ := h.cons_inv
  exact ⟨car, computes_naviCar hpair, hcar⟩

/-- those after it, -/
theorem ValueAt.rest (h : ValueAt B w args (.list (v :: vs))) :
    ∃ o, Computes (naviCdr args : Leaf _) w o w ∧ ValueAt B w o (.list vs) := by
  obtain ⟨car, cdr, hpair, -, hcdr⟩ := h.cons_inv
  exact ⟨cdr, computes_naviCdr hpair, hcdr⟩

/-- and the second. -/
theorem ValueAt.second (h : ValueAt B w args (.list (u :: v :: vs))) :
    ∃ o, Computes (naviCadr args : Leaf _) w o w ∧ ValueAt B w o v := by
  obtain ⟨car, cdr, hpair, -, hcdr⟩ := h.cons_inv
  obtain ⟨cadr, cddr, hpair', hcadr, -⟩ := hcdr.cons_inv
  exact ⟨cadr, (computes_naviCdr hpair).bind (computes_naviCar hpair'), hcadr⟩

theorem computes_typePredicate (hw : w.Wf) (h : ValueAt B w args (.list [v])) (t : NaviType) :
    Computes (typePredicate t args) w (.bool (v.type = t)) w := by
  obtain ⟨o, hcar, ho⟩ := h.first
  exact hcar.bind ((ho.computes_naviType hw).bind (Computes.ret _))

theorem ValueAt.not_isTrue (h : ValueAt B w o v) : (!naviIsTrue o) = decide (v = .bool false) := by
  rw [Bool.eq_iff_iff, decide_eq_true_iff, Bool.not_eq_true', Bool.eq_false_iff, ne_eq,
    h.isTrue_iff]
  constructor
  · intro hnot
    rcases v with _ | (_ | _ | _ | b | _) | _ | _ | _ | _ | _
    case const.bool =>
      cases b with
      | false => rfl
      | true => exact absurd rfl hnot
    all_goals first | exact absurd trivial hnot | exact absurd rfl hnot
  · rintro rfl
    exact nofun

theorem computes_scmNot (h : ValueAt B w args (.list [v])) :
    Computes (scmNot args) w (.bool (v = .bool false)) w := by
  obtain ⟨o, hcar, ho⟩ := h.first
  rw [← ho.not_isTrue]
  exact hcar.bind (Computes.ret _)

/-- What stands for constants. -/
theorem ValueAt.eq_bool {b : Bool} (h : ValueAt B w o (.const (.bool b))) : o = .bool b := h.obj_eq

theorem ValueAt.eq_fixnum {n : ℤ} (h : ValueAt B w o (.const (.fixnum n))) : o = .fixnum n :=
  h.obj_eq

/-! ### Booleans -/

theorem computes_booleanEqLoop {b : Bool} {bs : List Bool} (hos : List.Forall₂ (ValueAt B w) os vs)
    (h : booleans vs = some bs) :
    Computes (booleanEqLoop (.bool b) os) w (.bool (bs.all (· = b))) w := by
  induction hos generalizing bs with
  | nil =>
    cases h
    exact Computes.ret _
  | @cons o v os vs ho _ ih =>
    rcases v with _ | (_ | _ | _ | c | _) | _ | _ | _ | _ | _
    case const.bool =>
      obtain ⟨cs, hcs, rfl⟩ := Option.map_eq_some_iff.mp h
      obtain rfl := ho.eq_bool
      have hcheck : Computes (naviTypeCheck (.bool c) .naviBool) w () w := fun _ => rfl
      refine hcheck.bind ?_
      by_cases hc : c = b
      · rw [if_pos (congrArg _ hc), List.all_cons, decide_eq_true hc, Bool.true_and]
        exact ih hcs
      · rw [if_neg fun heq => hc (NaviObj.bool.inj heq), List.all_cons, decide_eq_false hc,
          Bool.false_and]
        exact Computes.ret _
    all_goals cases h

theorem computes_scmBooleanEq {b : Bool} {bs : List Bool} (hw : w.Wf)
    (hargs : ValueAt B w args (.list (.const (.bool b) :: vs))) (h : booleans vs = some bs) :
    Computes (scmBooleanEq args) w (.bool (bs.all (· = b))) w := by
  obtain ⟨o, hcar, ho⟩ := hargs.first
  obtain ⟨rest, hcdr, hrest⟩ := hargs.rest
  obtain ⟨pairs, os, hs, hos⟩ := hrest.spine
  obtain rfl := ho.eq_bool
  exact hcdr.bind ((computes_elements hw hs).bind (hcar.bind (computes_booleanEqLoop hos h)))

/-! ### Numbers -/

section Numbers

variable {operator : NaviWord → NaviWord → NaviWord} {f : ℤ → ℤ → ℤ} {op : Comparison} {ns : List ℤ}
  {m k a : ℤ}

theorem fixnums_cons_inv (h : fixnums (v :: vs) = some ns) :
    ∃ n ms, v = .const (.fixnum n) ∧ fixnums vs = some ms ∧ ns = n :: ms := by
  rcases v with _ | (_ | _ | n | _ | _) | _ | _ | _ | _ | _
  case const.fixnum =>
    obtain ⟨ms, hms, rfl⟩ := Option.map_eq_some_iff.mp h
    exact ⟨n, ms, rfl, hms, rfl⟩
  all_goals cases h

theorem computes_typeCheck_fixnum (n : ℤ) (w : World) :
    Computes (naviTypeCheck (.fixnum n) .naviFixnum) w () w := fun _ => rfl

theorem computes_fixnumOp (m n : ℤ) (w : World) :
    Computes (fixnumOp operator (.fixnum m) (.fixnum n)) w
      (.fixnum (operator (.tagged m) (.tagged n)).value) w := fun _ => rfl

/-- Folding an operator that respects fixnums modulo `2 ^ 63`. -/
theorem computes_foldLoop (hop : ∀ m n, operator (.tagged m) (.tagged n) = .tagged (f m n))
    (hos : List.Forall₂ (ValueAt B w) os vs) (h : fixnums vs = some (m :: ns))
    (ha : NaviWord.tagged a = .tagged k) :
    Computes (foldLoop operator (.fixnum a) os) w
      (.fixnum (fixnumBits ((m :: ns).foldl f k))) w := by
  induction hos generalizing m ns a k with
  | nil => cases h
  | @cons o v os vs ho hos ih =>
    obtain ⟨n, ms, rfl, hms, heq⟩ := fixnums_cons_inv h
    obtain ⟨rfl, rfl⟩ : m = n ∧ ns = ms := List.cons_eq_cons.mp heq
    obtain rfl := ho.eq_fixnum
    have hstep : operator (.tagged a) (.tagged m) = .tagged (f k m) := by rw [ha, hop]
    refine (computes_typeCheck_fixnum m w).bind ((computes_fixnumOp a m w).bind ?_)
    rw [hstep]
    cases ns with
    | nil =>
      cases hos with
      | nil =>
        rw [List.foldl_cons, List.foldl_nil, ← NaviWord.value_tagged]
        exact Computes.ret _
      | cons _ _ =>
        obtain ⟨n', ms', -, -, hnil⟩ := fixnums_cons_inv hms
        cases hnil
    | cons n' ms' =>
      exact ih (k := f k m) hms (NaviWord.isTagged_tagged _).tagged_value

theorem computes_arithmeticFold {n' : ℤ} (hw : w.Wf)
    (hop : ∀ m n, operator (.tagged m) (.tagged n) = .tagged (f m n))
    (hargs : ValueAt B w args (.list vs)) (h : fixnums vs = some (m :: n' :: ns)) :
    Computes (Builtins.arithmeticFold operator args) w
      (.fixnum (fixnumBits ((n' :: ns).foldl f m))) w := by
  cases vs with
  | nil => cases h
  | cons v vs =>
  obtain ⟨n, ms, rfl, hms, heq⟩ := fixnums_cons_inv h
  obtain ⟨rfl, rfl⟩ : m = n ∧ n' :: ns = ms := List.cons_eq_cons.mp heq
  obtain ⟨o, hcar, ho⟩ := hargs.first
  obtain ⟨rest, hcdr, hrest⟩ := hargs.rest
  obtain ⟨pairs, os, hs, hos⟩ := hrest.spine
  obtain rfl := ho.eq_fixnum
  exact hcar.bind ((computes_typeCheck_fixnum m w).bind (hcdr.bind ((computes_elements hw hs).bind
    (computes_foldLoop hop hos hms rfl))))

/-- The last argument. -/
theorem ValueAt.rest_eq_nil (h : ValueAt B w args (.list [v])) :
    Computes (naviCdr args : Leaf _) w .nil w := by
  obtain ⟨rest, hcdr, hrest⟩ := h.rest
  obtain rfl := hrest.eq_nil
  exact hcdr

/-- The only argument of a sum or a product is returned, whatever it is. -/
theorem computes_single {p : Leaf NaviObj} {x : NaviObj} (hargs : ValueAt B w args (.list [v])) :
    ∃ o, Computes (do
      if args = .nil then return x
      else if (← naviCdr args) = .nil then naviCar args else p) w o w ∧ ValueAt B w o v := by
  obtain ⟨o, hcar, ho⟩ := hargs.first
  refine ⟨o, ?_, ho⟩
  rw [if_neg hargs.ne_nil]
  refine hargs.rest_eq_nil.bind ?_
  rw [if_pos rfl]
  exact hcar

theorem ValueAt.rest_ne_nil {v' : Value} (h : ValueAt B w args (.list (v :: v' :: vs))) :
    ∃ o, Computes (naviCdr args : Leaf _) w o w ∧ o ≠ .nil := by
  obtain ⟨rest, hcdr, hrest⟩ := h.rest
  exact ⟨rest, hcdr, hrest.ne_nil⟩

/-- Two arguments or more. -/
theorem computes_several {p : Leaf NaviObj} {x : NaviObj} {v' : Value}
    (hargs : ValueAt B w args (.list (v :: v' :: vs))) (hp : Computes p w o w) :
    Computes (do
      if args = .nil then return x
      else if (← naviCdr args) = .nil then naviCar args else p) w o w := by
  obtain ⟨rest, hcdr, hne⟩ := hargs.rest_ne_nil
  rw [if_neg hargs.ne_nil]
  refine hcdr.bind ?_
  rw [if_neg hne]
  exact hp

theorem fixnums_two_inv {v' : Value} (h : fixnums (v :: v' :: vs) = some ns) :
    ∃ m n ms, ns = m :: n :: ms := by
  obtain ⟨m, ms, -, hms, rfl⟩ := fixnums_cons_inv h
  obtain ⟨n, ms, -, -, rfl⟩ := fixnums_cons_inv hms
  exact ⟨m, n, ms, rfl⟩

theorem computes_scmAdd {v' : Value} (hw : w.Wf) (hargs : ValueAt B w args (.list (v :: v' :: vs)))
    (h : fixnums (v :: v' :: vs) = some ns) :
    Computes (scmAdd args) w (.fixnum (fixnumBits (FoldOp.leftFold .add ns))) w := by
  obtain ⟨m, n, ms, rfl⟩ := fixnums_two_inv h
  rw [FoldOp.leftFold_add_cons]
  exact computes_several hargs (computes_arithmeticFold hw NaviWord.plus_tagged hargs h)

theorem computes_scmMul {v' : Value} (hw : w.Wf) (hargs : ValueAt B w args (.list (v :: v' :: vs)))
    (h : fixnums (v :: v' :: vs) = some ns) :
    Computes (scmMul args) w (.fixnum (fixnumBits (FoldOp.leftFold .mul ns))) w := by
  obtain ⟨m, n, ms, rfl⟩ := fixnums_two_inv h
  rw [FoldOp.leftFold_mul_cons]
  exact computes_several hargs (computes_arithmeticFold hw NaviWord.times_tagged hargs h)

theorem computes_scmSub (hw : w.Wf) (hargs : ValueAt B w args (.list (v :: vs)))
    (h : fixnums (v :: vs) = some ns) :
    Computes (scmSub args) w (.fixnum (fixnumBits (FoldOp.leftFold .sub ns))) w := by
  cases vs with
  | nil =>
    obtain ⟨n, ms, rfl, hms, rfl⟩ := fixnums_cons_inv h
    obtain rfl := Option.some.inj hms
    obtain ⟨o, hcar, ho⟩ := hargs.first
    obtain rfl := ho.eq_fixnum
    refine hargs.rest_eq_nil.bind ?_
    rw [if_pos rfl, FoldOp.leftFold, ← NaviWord.value_tagged, ← NaviWord.minus_tagged]
    exact hcar.bind (computes_fixnumOp 0 n w)
  | cons v' vs =>
    obtain ⟨m, n, ms, rfl⟩ := fixnums_two_inv h
    obtain ⟨rest, hcdr, hne⟩ := hargs.rest_ne_nil
    refine hcdr.bind ?_
    rw [if_neg hne, FoldOp.leftFold_sub_cons]
    exact computes_arithmeticFold hw NaviWord.minus_tagged hargs h

/-- Quotients and remainders of fixnums. -/
theorem computes_longOp {n : ℤ}
    (hop : ∀ a b : NaviWord, NaviWord.tagged (operator a.fixnum b.fixnum).toInt =
      .tagged (f a.value b.value))
    (hargs : ValueAt B w args (.list [.const (.fixnum m), .const (.fixnum n)]))
    (hm : IsFixnum m) (hn : IsFixnum n) (hne : n ≠ 0) :
    Computes (longOp operator args) w (.fixnum (fixnumBits (f m n))) w := by
  obtain ⟨a, hcar, ha⟩ := hargs.first
  obtain ⟨b, hcadr, hb⟩ := hargs.second
  obtain rfl := ha.eq_fixnum
  obtain rfl := hb.eq_fixnum
  have hvalue {n : ℤ} (hn : IsFixnum n) : (NaviWord.tagged n).value = n := by
    rw [NaviWord.value_tagged, hn.fixnumBits_eq]
  have hword := hop (.tagged m) (.tagged n)
  rw [hvalue hm, hvalue hn, ← NaviWord.fix_eq] at hword
  refine hcar.bind ((Computes.ret m).bind (hcadr.bind ((Computes.ret n).bind ?_)))
  rw [if_neg fun hzero => hne (hvalue hn ▸ NaviWord.fixnum_eq_zero_iff.mp hzero),
    ← NaviWord.value_tagged, ← hword]
  exact Computes.ret _

theorem computes_compareFixnums (m n : ℤ) (w : World) :
    Computes (Builtins.compareFixnums op (.fixnum m) (.fixnum n)) w (op.holds m n) w := fun _ => rfl

/-- Comparing neighbours. -/
theorem computes_foldPairs (hos : List.Forall₂ (ValueAt B w) os vs) (h : fixnums vs = some ns) :
    Computes (Builtins.foldPairs (Builtins.compareFixnums op) os) w
      (decide (ns.IsChain fun m n => op.holds m n)) w := by
  induction hos generalizing ns with
  | nil =>
    cases h
    exact Computes.ret _
  | @cons o v os vs ho hos ih =>
    obtain ⟨m, ms, rfl, hms, rfl⟩ := fixnums_cons_inv h
    obtain rfl := ho.eq_fixnum
    cases hos with
    | nil =>
      cases hms
      exact Computes.ret _
    | @cons o' v' os vs ho' hos =>
      obtain ⟨n, ms, rfl, -, rfl⟩ := fixnums_cons_inv hms
      obtain rfl := ho'.eq_fixnum
      refine (computes_compareFixnums m n w).bind ?_
      have hchain : decide ((m :: n :: ms).IsChain fun m n => op.holds m n) =
          (op.holds m n && decide ((n :: ms).IsChain fun m n => op.holds m n)) := by
        rw [Bool.eq_iff_iff, decide_eq_true_iff, List.isChain_cons_cons, Bool.and_eq_true,
          decide_eq_true_iff]
      rw [hchain]
      cases op.holds m n with
      | true => exact ih hms
      | false => exact Computes.ret _

theorem computes_numericComparison (hw : w.Wf) (hargs : ValueAt B w args (.list vs))
    (h : fixnums vs = some ns) : Computes (Builtins.numericComparison op args) w
      (.bool (ns.IsChain fun m n => op.holds m n)) w := by
  obtain ⟨pairs, os, hs, hos⟩ := hargs.spine
  exact (computes_elements hw hs).bind ((computes_foldPairs hos h).bind (Computes.ret _))

theorem computes_numericPredicate (test : ℤ → Bool)
    (hargs : ValueAt B w args (.list [.const (.fixnum m)])) :
    Computes (numericPredicate test args) w (.bool (test m)) w := by
  obtain ⟨o, hcar, ho⟩ := hargs.first
  obtain rfl := ho.eq_fixnum
  exact hcar.bind ((Computes.ret m).bind (Computes.ret _))

end Numbers

/-! ### Lists -/

theorem ValueAt.not_pair (h : ValueAt B w o v) (hw : w.Wf) (hne : v.type ≠ .naviPair) :
    Computes (walk o : Leaf _) w ([], o) w := by
  refine Computes.perform ?_
  change (w.walk (w.nextObj + 1) o).map (·, w) = _
  suffices hwalk : w.walk (w.nextObj + 1) o = .ok ([], o) by
    rw [hwalk]
    rfl
  have hload {t : NaviType} {d : Data} (hc : w.load o = .ok (t, d)) (hpair : t ≠ .naviPair) :
      w.walk (w.nextObj + 1) o = .ok ([], o) := by
    obtain ⟨a, rfl⟩ := World.ptr_of_load hc
    rw [World.walk, World.objs_of_load hc]
    cases t <;> first | rfl | exact absurd rfl hpair
  cases h with
  | nil => rfl
  | const c => cases c <;> rfl
  | sym hsym => exact hload (hsym.load hw) (by decide)
  | pair => exact absurd rfl hne
  | closure ho => exact hload ho (by decide)
  | special ho => exact hload ho (by decide)
  | prim ho => exact hload ho (by decide)

theorem computes_scmListp (hw : w.Wf) (hargs : ValueAt B w args (.list [v])) {r : Value}
    (h : CoreBuiltin.listp.meaning [v] = some r) :
    ∃ o, Computes (scmListp args) w o w ∧ ValueAt B w o r := by
  obtain ⟨o, hcar, ho⟩ := hargs.first
  change (if v.type = .naviPair then _ else _) = some r at h
  split_ifs at h with hpair
  · obtain ⟨vs, hvs, rfl⟩ := Option.map_eq_some_iff.mp h
    obtain rfl := Lisp.Val.eq_list_of_toList? hvs
    obtain ⟨pairs, os, hs, -⟩ := ho.spine
    exact ⟨_, hcar.bind ((computes_naviIsProperList hw hs).bind (Computes.ret _)),
      .const (.bool true)⟩
  · obtain rfl := Option.some.inj h
    have hnil : decide (o = .nil) = decide (v = .nil) := by
      rw [decide_eq_decide, eq_comm (a := o), eq_comm (a := v)]
      exact ValueAt.eq_iff (B := B) .nil ho trivial hw
    refine ⟨.bool (o = .nil), hcar.bind (((ho.not_pair hw hpair).bind (Computes.ret _)).bind
      (Computes.ret _)), ?_⟩
    rw [hnil]
    exact .const (.bool _)

theorem computes_scmLength (hw : w.Wf) (hargs : ValueAt B w args (.list [.list vs])) :
    Computes (scmLength args) w (.fixnum vs.length) w := by
  obtain ⟨o, hcar, ho⟩ := hargs.first
  obtain ⟨pairs, os, hs, hos⟩ := ho.spine
  rw [← hos.length_eq, ← hs.length_eq]
  exact hcar.bind (((computes_walk hw hs).bind (Computes.ret _)).bind (Computes.ret _))

/-- The new pairs are in front of the list. -/
theorem computes_makeListLoop (k : ℕ) {cons : NaviObj} (hw : w.Wf) (ho : ValueAt B w o v)
    (hcons : ValueAt B w cons (.list vs)) :
    ∃ list w', Computes (makeListLoop o k cons) w list w' ∧ w.Builds nowhere w' ∧
      w'.scopes = w.scopes ∧ w'.nextScope = w.nextScope ∧ w'.Wf ∧
        ValueAt B w' list (.list (List.replicate k v ++ vs)) := by
  induction k generalizing w cons vs with
  | zero => exact ⟨cons, w, Computes.ret _, .refl _ _, rfl, rfl, hw, hcons⟩
  | succ k ih =>
    have hmake := World.builds_make (t := .naviPair) hw (by decide) (.pair (some o) (some cons))
    have hpair : ValueAt B (w.make .naviPair (.pair (some o) (some cons))).2
        (w.make .naviPair (.pair (some o) (some cons))).1 (.list (v :: vs)) :=
      .pair World.load_make (ho.grows hmake) (hcons.grows hmake)
    obtain ⟨list, w', hrun, hbuilds, hscopes, hnext, hw', hlist⟩ :=
      ih (hw.make (t := .naviPair) (by decide) _) (ho.grows hmake) hpair
    refine ⟨list, w', (computes_make .naviPair _).bind hrun, hmake.trans hbuilds, hscopes.trans ?_,
      hnext.trans ?_, hw', ?_⟩
    · rw [World.make, if_neg (by decide)]
      rfl
    · rw [World.make, if_neg (by decide)]
      rfl
    · rwa [List.replicate_succ', List.append_assoc]

theorem memTail_cons_self : memTail v (v :: vs) = .list (v :: vs) := by
  rw [memTail, List.dropWhile_cons_of_neg (by simp)]

theorem memTail_cons_of_ne (h : u ≠ v) : memTail u (v :: vs) = memTail u vs := by
  rw [memTail, List.dropWhile_cons_of_pos (by simpa using h.symm), memTail]

/-- The tail of a list from where a symbol or a constant is. -/
theorem computes_memvLoop (hw : w.Wf) (ho : ValueAt B w o u) (hu : u.IsScalar) {list : NaviObj}
    (hs : Spine w list pairs os) (hos : List.Forall₂ (ValueAt B w) os vs) :
    ∃ r, Computes (memvLoop o pairs) w r w ∧ ValueAt B w r (memTail u vs) := by
  induction hs generalizing vs with
  | nil =>
    cases hos
    exact ⟨_, Computes.ret _, .const (.bool false)⟩
  | @cons p x tl _ _ hpair hs ih =>
    cases hos with
    | @cons _ v _ vs hx hos =>
      by_cases heq : u = v
      · subst heq
        refine ⟨p, (computes_naviCar hpair).bind ?_, ?_⟩
        · rw [if_pos ((ho.eq_iff hx hu hw).mpr rfl)]
          exact Computes.ret _
        · rw [memTail_cons_self]
          exact .pair hpair hx (valueAt_list hs hos)
      · obtain ⟨r, hrun, hr⟩ := ih hos
        refine ⟨r, (computes_naviCar hpair).bind ?_, ?_⟩
        · rw [if_neg fun h => heq ((ho.eq_iff hx hu hw).mp h)]
          exact hrun
        · rw [memTail_cons_of_ne heq]
          exact hr

theorem assocEntry_cons_inv {r : Value} (h : assocEntry u (v :: vs) = some r) :
    ∃ k e, v = .pair k e ∧ (u = k ∧ r = v ∨ u ≠ k ∧ assocEntry u vs = some r) := by
  rcases v with _ | _ | _ | ⟨k, e⟩ | _ | _ | _
  case pair =>
    rw [assocEntry] at h
    refine ⟨k, e, rfl, ?_⟩
    split_ifs at h with heq
    · exact .inl ⟨heq, (Option.some.inj h).symm⟩
    · exact .inr ⟨heq, h⟩
  all_goals cases h

/-- The first entry with a symbol or a constant at its head. -/
theorem computes_assvLoop (hw : w.Wf) (ho : ValueAt B w o u) (hu : u.IsScalar) {list : NaviObj}
    {r : Value} (hs : Spine w list pairs os) (hos : List.Forall₂ (ValueAt B w) os vs)
    (h : assocEntry u vs = some r) :
    ∃ o', Computes (assvLoop o pairs) w o' w ∧ ValueAt B w o' r := by
  induction hs generalizing vs with
  | nil =>
    cases hos
    obtain rfl := Option.some.inj h
    exact ⟨_, Computes.ret _, .const (.bool false)⟩
  | @cons p x tl _ _ hpair hs ih =>
    cases hos with
    | @cons _ v _ vs hx hos =>
      obtain ⟨k, e, rfl, hcase⟩ := assocEntry_cons_inv h
      obtain ⟨car, cdr, hentry, hcar, -⟩ := hx.cons_inv
      have hcheck : Computes (naviTypeCheck x .naviPair) w () w :=
        computes_naviTypeCheck (v := .pair k e) rfl hx hw
      rcases hcase with ⟨rfl, rfl⟩ | ⟨hne, hrest⟩
      · refine ⟨x, (computes_naviCar hpair).bind (hcheck.bind ((computes_naviCar hentry).bind ?_)),
          hx⟩
        rw [if_pos ((ho.eq_iff hcar hu hw).mpr rfl)]
        exact Computes.ret _
      · obtain ⟨o', hrun, ho'⟩ := ih hos hrest
        refine ⟨o', (computes_naviCar hpair).bind (hcheck.bind ((computes_naviCar hentry).bind ?_)),
          ho'⟩
        rw [if_neg fun h => hne ((ho.eq_iff hcar hu hw).mp h)]
        exact hrun

end Compute

end NaviScheme
