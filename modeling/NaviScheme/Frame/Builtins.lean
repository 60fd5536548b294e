import NaviScheme.Eval.Builtins
import NaviScheme.Frame.Run

/-!
# The builtins of list.c, arithmetic.c and heap.c spare

The builtins of `NaviScheme.CoreBuiltin` spare the objects that their arguments do not reach, and so
does an interpreter that has them and no others (`NaviScheme.coreExternals`).
-/

namespace NaviScheme

open Prog Builtins

variable {F : FnSig} {S : Addr → Prop} {G : Prop} {args cons obj fst : NaviObj}
  {objs : List NaviObj} {operator : NaviWord → NaviWord → NaviWord} {Q : NaviObj → Prop}

/-! ### Types -/

theorem spares_typePredicate {t : NaviType} (hargs : Avoids S args) :
    Spares S G (raising S) (typePredicate t args) (Avoids S) := by
  grind [typePredicate]

theorem spares_scmNot (hargs : Avoids S args) :
    Spares S G (raising S) (scmNot args) (Avoids S) := by
  grind [scmNot]

theorem spares_booleanEqLoop {bval : NaviObj} (hobjs : AllAvoid S objs) :
    Spares S G (raising S) (booleanEqLoop bval objs) (Avoids S) := by
  induction objs with grind [booleanEqLoop]

theorem spares_scmBooleanEq (hargs : Avoids S args) :
    Spares S G (raising S) (scmBooleanEq args) (Avoids S) := by
  refine spares_bind (spares_naviCdr hargs fun cdr hcdr => ?_)
  refine spares_bind (spares_elements hcdr fun objs hobjs => ?_)
  exact spares_bind (spares_naviCar hargs fun bval _ => spares_booleanEqLoop hobjs)

theorem spares_scmEqvp (hargs : Avoids S args) :
    Spares S G (raising S) (scmEqvp args) (Avoids S) := by
  grind [scmEqvp]

/-! ### Numbers -/

@[grind ←] theorem spares_naviFixnum {R : ℤ → Prop} (h : ∀ n, R n) :
    Spares S G (raising S) (naviFixnum obj) R := by
  cases obj <;> grind [naviFixnum]

@[grind ←] theorem spares_fixnumOp (h : ∀ n, Q (.fixnum n)) :
    Spares S G (raising S) (fixnumOp operator cons obj) Q := by
  grind [fixnumOp]

theorem spares_foldLoop {acc : NaviObj} (hacc : Avoids S acc) (hobjs : AllAvoid S objs) :
    Spares S G (raising S) (foldLoop operator acc objs) (Avoids S) := by
  induction objs generalizing acc with grind [foldLoop]

theorem spares_arithmeticFold (hargs : Avoids S args) :
    Spares S G (raising S) (Builtins.arithmeticFold operator args) (Avoids S) := by
  refine spares_bind (spares_naviCar hargs fun fst hfst => ?_)
  refine spares_bind (spares_naviTypeCheck hfst ?_)
  refine spares_bind (spares_naviCdr hargs fun cdr hcdr => ?_)
  exact spares_bind (spares_elements hcdr fun objs hobjs => spares_foldLoop hfst hobjs)

theorem spares_scmAdd (hargs : Avoids S args) :
    Spares S G (raising S) (scmAdd args) (Avoids S) := by
  grind [scmAdd, spares_arithmeticFold]

theorem spares_scmMul (hargs : Avoids S args) :
    Spares S G (raising S) (scmMul args) (Avoids S) := by
  grind [scmMul, spares_arithmeticFold]

theorem spares_scmSub (hargs : Avoids S args) :
    Spares S G (raising S) (scmSub args) (Avoids S) := by
  grind [scmSub, spares_arithmeticFold]

theorem spares_longOp (hargs : Avoids S args) :
    Spares S G (raising S) (longOp operator args) (Avoids S) := by
  refine spares_bind (spares_naviCar hargs fun a _ => spares_bind (spares_naviFixnum fun m => ?_))
  refine spares_bind (spares_naviCadr hargs fun b _ => spares_bind (spares_naviFixnum fun n => ?_))
  exact spares_ite (fun _ => spares_fail) fun _ => trivial

@[grind ←] theorem spares_compareFixnums {op : Comparison} {R : Bool → Prop} (hfst : Avoids S fst)
    (hobj : Avoids S obj) (h : ∀ b, R b) :
    Spares S G (raising S) (Builtins.compareFixnums op fst obj) R := by
  refine spares_bind (spares_naviTypeCheck hfst (spares_bind (spares_naviTypeCheck hobj ?_)))
  exact spares_bind (spares_naviFixnum fun m => spares_bind (spares_naviFixnum fun n => h _))

theorem spares_foldPairs {op : Comparison} {R : Bool → Prop} (hobjs : AllAvoid S objs)
    (h : ∀ b, R b) :
    Spares S G (raising S) (Builtins.foldPairs (Builtins.compareFixnums op) objs) R := by
  fun_induction Builtins.foldPairs with grind

theorem spares_numericComparison {op : Comparison} (hargs : Avoids S args) :
    Spares S G (raising S) (Builtins.numericComparison op args) (Avoids S) := by
  refine spares_bind (spares_elements hargs fun objs hobjs => ?_)
  exact spares_bind (spares_foldPairs hobjs fun b => trivial)

theorem spares_numericPredicate {test : ℤ → Bool} (hargs : Avoids S args) :
    Spares S G (raising S) (numericPredicate test args) (Avoids S) := by
  grind [numericPredicate]

/-! ### Lists -/

theorem spares_scmListp (hargs : Avoids S args) :
    Spares S G (raising S) (scmListp args) (Avoids S) := by
  grind [scmListp]

theorem spares_scmLength (hargs : Avoids S args) :
    Spares S G (raising S) (scmLength args) (Avoids S) := by
  refine spares_bind (spares_naviCar hargs fun obj hobj => ?_)
  refine spares_bind (spares_naviListLengthSafe hobj fun length => ?_)
  cases length with
  | none => exact spares_naviError (by simp)
  | some length => trivial

theorem spares_makeListLoop {k : ℕ} (hobj : Avoids S obj) (hcons : Avoids S cons) :
    Spares S G (raising S) (makeListLoop obj k cons) (Avoids S) := by
  induction k generalizing cons with grind [makeListLoop]

theorem spares_naviMakeList {k : ℤ} (hobj : Avoids S obj) :
    Spares S G (raising S) (naviMakeList k obj) (Avoids S) :=
  spares_makeListLoop hobj trivial

theorem spares_scmMakeList {nrArgs : ℕ} (hargs : Avoids S args) :
    Spares S G (raising S) (scmMakeList nrArgs args) (Avoids S) := by
  grind [scmMakeList, spares_naviMakeList]

theorem spares_memvLoop (hobjs : AllAvoid S objs) :
    Spares S G (raising S) (memvLoop obj objs) (Avoids S) := by
  induction objs with grind [memvLoop]

theorem spares_scmMemv (hargs : Avoids S args) :
    Spares S G (raising S) (scmMemv args) (Avoids S) := by
  grind [scmMemv, spares_memvLoop]

theorem spares_assvLoop (hobjs : AllAvoid S objs) :
    Spares S G (raising S) (assvLoop obj objs) (Avoids S) := by
  induction objs with grind [assvLoop]

theorem spares_scmAssv (hargs : Avoids S args) :
    Spares S G (raising S) (scmAssv args) (Avoids S) := by
  grind [scmAssv, spares_assvLoop]

/-! ### All of them -/

theorem CoreBuiltin.spares (b : CoreBuiltin) {nrArgs : ℕ} (hargs : Avoids S args) :
    Spares S G (raising S) (b.run nrArgs args) (Avoids S) := by
  cases b with
  | not => exact spares_scmNot hargs
  | booleanp | charp | procedurep | pairp | nullp => exact spares_typePredicate hargs
  | booleanEq => exact spares_scmBooleanEq hargs
  | eqp | eqvp => exact spares_scmEqvp hargs
  | add => exact spares_scmAdd hargs
  | sub => exact spares_scmSub hargs
  | mul => exact spares_scmMul hargs
  | quotient | remainder => exact spares_longOp hargs
  | lt | gt | lte | gte | numeq => exact spares_numericComparison hargs
  | zerop | positivep | negativep | oddp | evenp => exact spares_numericPredicate hargs
  | listp => exact spares_scmListp hargs
  | length => exact spares_scmLength hargs
  | makeList => exact spares_scmMakeList hargs
  | memq | memv => exact spares_scmMemv hargs
  | assq | assv => exact spares_scmAssv hargs

/-- An interpreter with these builtins and no others. -/
def coreExternals : Externals :=
  { noExternals with
    builtin := fun n nrArgs args _ => (CoreBuiltin.all[n]?.map fun b => b.run nrArgs args).getD
      (return .void) }

theorem coreExternals_spares (S : Addr → Prop) : coreExternals.Spares S True where
  builtin n nrArgs args env hargs := by
    change NaviScheme.Spares S True (raising S)
      ((CoreBuiltin.all[n]?.map fun b => b.run nrArgs args).getD (return .void)) _
    cases CoreBuiltin.all[n]? with
    | none => trivial
    | some b => exact b.spares hargs
  naviEqualp ha hb := (noExternals_spares S).naviEqualp ha hb
  naviOpenInputFile_ := (noExternals_spares S).naviOpenInputFile_
  naviCloseInputPort := (noExternals_spares S).naviCloseInputPort
  naviPortSetFoldCase := (noExternals_spares S).naviPortSetFoldCase
  naviRead := (noExternals_spares S).naviRead

end NaviScheme
