import NaviScheme.Arithmetic.Word
import NaviScheme.Eval.Control
import NaviScheme.Strings.Compare

/-!
# list.c, arithmetic.c and heap.c: builtins

The builtins on pairs, numbers and booleans that call nothing and change nothing
(`NaviScheme.CoreBuiltin`), as they work on the objects of a world. A fixnum is computed with as the
word that it is in memory.
-/

namespace NaviScheme

namespace Builtins

/-! ### Types -/

/-- The procedures that ask for a type. -/
def typePredicate (t : NaviType) (args : NaviObj) : Leaf NaviObj := do
  return .bool ((← naviType (← naviCar args)) = t)

/-- `boolean?` -/
def scmBooleanp := typePredicate .naviBool

/-- `char?` -/
def scmCharp := typePredicate .naviChar

/-- `procedure?` -/
def scmProcedurep := typePredicate .naviProcedure

/-- `pair?` -/
def scmPairp := typePredicate .naviPair

/-- `null?` -/
def scmNullp := typePredicate .naviNil

/-- `not` -/
def scmNot (args : NaviObj) : Leaf NaviObj := do return .bool !naviIsTrue (← naviCar args)

/-- The loop of `boolean=?`. -/
def booleanEqLoop (bval : NaviObj) : List NaviObj → Leaf NaviObj
  | [] => return .bool true
  | obj :: rest => do
    naviTypeCheck obj .naviBool
    if obj = bval then booleanEqLoop bval rest else return .bool false

/-- `boolean=?` -/
def scmBooleanEq (args : NaviObj) : Leaf NaviObj := do
  let rest ← elements (← naviCdr args)
  booleanEqLoop (← naviCar args) rest

/-- `eq?` and `eqv?`, which differ only in what is not in a world. -/
def scmEqvp (args : NaviObj) : Leaf NaviObj := do
  return .bool ((← naviCar args) = (← naviCadr args))

/-! ### Numbers -/

/-- `navi_fixnum` -/
def naviFixnum : NaviObj → Leaf ℤ
  | .fixnum n => return n
  | _ => fail .badWord

/-- An operator on the words of fixnums. -/
def fixnumOp (operator : NaviWord → NaviWord → NaviWord) (a b : NaviObj) : Leaf NaviObj := do
  let m ← naviFixnum a
  let n ← naviFixnum b
  return .fixnum (operator (.tagged m) (.tagged n)).value

/-- The loop of `ARITHMETIC_FOLD`. -/
def foldLoop (operator : NaviWord → NaviWord → NaviWord) (acc : NaviObj) :
    List NaviObj → Leaf NaviObj
  | [] => return acc
  | obj :: rest => do
    naviTypeCheck obj .naviFixnum
    foldLoop operator (← fixnumOp operator acc obj) rest

/-- `ARITHMETIC_FOLD` -/
def arithmeticFold (operator : NaviWord → NaviWord → NaviWord) (args : NaviObj) : Leaf NaviObj := do
  let fst ← naviCar args
  naviTypeCheck fst .naviFixnum
  foldLoop operator fst (← elements (← naviCdr args))

/-- `+` -/
def scmAdd (args : NaviObj) : Leaf NaviObj := do
  if args = .nil then return .fixnum 0
  else if (← naviCdr args) = .nil then naviCar args
  else arithmeticFold .plus args

/-- `-` -/
def scmSub (args : NaviObj) : Leaf NaviObj := do
  if (← naviCdr args) = .nil then fixnumOp .minus (.fixnum 0) (← naviCar args)
  else arithmeticFold .minus args

/-- `*` -/
def scmMul (args : NaviObj) : Leaf NaviObj := do
  if args = .nil then return .fixnum 1
  else if (← naviCdr args) = .nil then naviCar args
  else arithmeticFold .times args

/-- An operator on `long`s that traps where the second is zero. -/
def longOp (operator : NaviWord → NaviWord → NaviWord) (args : NaviObj) : Leaf NaviObj := do
  let m ← naviFixnum (← naviCar args)
  let n ← naviFixnum (← naviCadr args)
  -- the processor traps
  if (NaviWord.tagged n).fixnum = 0 then fail .die
  else return .fixnum (NaviWord.makeFixnum
    (operator (NaviWord.tagged m).fixnum (NaviWord.tagged n).fixnum)).value

/-- `quotient` -/
def scmQuotient := longOp BitVec.sdiv

/-- `remainder` -/
def scmRemainder := longOp BitVec.srem

/-- `fold_pairs` -/
def foldPairs (compare : NaviObj → NaviObj → Leaf Bool) : List NaviObj → Leaf Bool
  | fst :: snd :: rest => do
    if ← compare fst snd then foldPairs compare (snd :: rest) else return false
  | _ => return true

/-- The function that `NUMERIC_COMPARISON` hands to `fold_pairs`. -/
def compareFixnums (op : Comparison) (a b : NaviObj) : Leaf Bool := do
  naviTypeCheck a .naviFixnum
  naviTypeCheck b .naviFixnum
  let m ← naviFixnum a
  let n ← naviFixnum b
  return op.holds m n

/-- `NUMERIC_COMPARISON` -/
def numericComparison (op : Comparison) (args : NaviObj) : Leaf NaviObj := do
  return .bool (← foldPairs (compareFixnums op) (← elements args))

/-- `<` -/
def scmLt := numericComparison .lt

/-- `>` -/
def scmGt := numericComparison .gt

/-- `<=` -/
def scmLte := numericComparison .lte

/-- `>=` -/
def scmGte := numericComparison .gte

/-- `=` -/
def scmNumeq := numericComparison .eq

/-- `NUMERIC_PREDICATE` -/
def numericPredicate (test : ℤ → Bool) (args : NaviObj) : Leaf NaviObj := do
  return .bool (test (← naviFixnum (← naviCar args)))

/-- `zero?` -/
def scmZerop := numericPredicate (· = 0)

/-- `positive?` -/
def scmPositivep := numericPredicate (0 < ·)

/-- `negative?` -/
def scmNegativep := numericPredicate (· < 0)

/-- `odd?` -/
def scmOddp := numericPredicate fun n => n.tmod 2 ≠ 0

/-- `even?` -/
def scmEvenp := numericPredicate fun n => n.tmod 2 = 0

/-! ### Lists -/

/-- `list?` -/
def scmListp (args : NaviObj) : Leaf NaviObj := do
  return .bool (← naviIsProperList (← naviCar args))

/-- `length` -/
def scmLength (args : NaviObj) : Leaf NaviObj := do
  match ← naviListLengthSafe (← naviCar args) with
  | some length => return .fixnum length
  | none => naviError "type error: not a proper list" []

/-- The loop of `navi_make_list`. -/
def makeListLoop (obj : NaviObj) : ℕ → NaviObj → Leaf NaviObj
  | 0, cons => return cons
  | k + 1, cons => do makeListLoop obj k (← naviMakePair obj cons)

/-- `navi_make_list` -/
def naviMakeList (k : ℤ) (obj : NaviObj) : Leaf NaviObj := makeListLoop obj k.toNat .nil

/-- `make-list` -/
def scmMakeList (nrArgs : ℕ) (args : NaviObj) : Leaf NaviObj := do
  if nrArgs > 2 then naviArityError (← naviMakeSymbol "make-list")
  else
    let k ← naviFixnum (← naviCar args)
    if k < 0 then naviError "type error: not a positive integer" []
    else naviMakeList k (← if nrArgs = 2 then naviCadr args else pure (.fixnum 0))

/-- The loops of `memq` and `memv`. -/
def memvLoop (obj : NaviObj) : List NaviObj → Leaf NaviObj
  | [] => return .bool false
  | cons :: rest => do
    if obj = (← naviCar cons) then return cons else memvLoop obj rest

/-- `memq` and `memv` -/
def scmMemv (args : NaviObj) : Leaf NaviObj := do
  let (pairs, _) ← walk (← naviCadr args)
  memvLoop (← naviCar args) pairs

/-- The loops of `assq` and `assv`. -/
def assvLoop (obj : NaviObj) : List NaviObj → Leaf NaviObj
  | [] => return .bool false
  | cons :: rest => do
    let entry ← naviCar cons
    naviTypeCheck entry .naviPair
    if obj = (← naviCar entry) then return entry else assvLoop obj rest

/-- `assq` and `assv` -/
def scmAssv (args : NaviObj) : Leaf NaviObj := do
  let (pairs, _) ← walk (← naviCadr args)
  assvLoop (← naviCar args) pairs

end Builtins

/-- Builtins that call nothing and change nothing. -/
inductive CoreBuiltin
  | not | booleanp | booleanEq | charp | procedurep | eqp | eqvp
  | add | sub | mul | quotient | remainder
  | lt | gt | lte | gte | numeq | zerop | positivep | negativep | oddp | evenp
  | pairp | nullp | listp | length | makeList | memq | memv | assq | assv
  deriving DecidableEq, Repr

namespace CoreBuiltin

/-- All of them. -/
def all : List CoreBuiltin :=
  [not, booleanp, booleanEq, charp, procedurep, eqp, eqvp, add, sub, mul, quotient, remainder, lt,
    gt, lte, gte, numeq, zerop, positivep, negativep, oddp, evenp, pairp, nullp, listp, length,
    makeList, memq, memv, assq, assv]

/-- The C functions. -/
def run : CoreBuiltin → ℕ → NaviObj → Leaf NaviObj
  | not, _ => Builtins.scmNot
  | booleanp, _ => Builtins.scmBooleanp
  | booleanEq, _ => Builtins.scmBooleanEq
  | charp, _ => Builtins.scmCharp
  | procedurep, _ => Builtins.scmProcedurep
  | eqp, _ | eqvp, _ => Builtins.scmEqvp
  | add, _ => Builtins.scmAdd
  | sub, _ => Builtins.scmSub
  | mul, _ => Builtins.scmMul
  | quotient, _ => Builtins.scmQuotient
  | remainder, _ => Builtins.scmRemainder
  | lt, _ => Builtins.scmLt
  | gt, _ => Builtins.scmGt
  | lte, _ => Builtins.scmLte
  | gte, _ => Builtins.scmGte
  | numeq, _ => Builtins.scmNumeq
  | zerop, _ => Builtins.scmZerop
  | positivep, _ => Builtins.scmPositivep
  | negativep, _ => Builtins.scmNegativep
  | oddp, _ => Builtins.scmOddp
  | evenp, _ => Builtins.scmEvenp
  | pairp, _ => Builtins.scmPairp
  | nullp, _ => Builtins.scmNullp
  | listp, _ => Builtins.scmListp
  | length, _ => Builtins.scmLength
  | makeList, nrArgs => Builtins.scmMakeList nrArgs
  | memq, _ | memv, _ => Builtins.scmMemv
  | assq, _ | assv, _ => Builtins.scmAssv

end CoreBuiltin

end NaviScheme
