import NaviScheme.Frame.Control
import NaviScheme.Lib.Trace

/-!
# Which functions turn the switch of the collector

Of all functions only `navi_import` calls `navi_gc_disable` and `navi_gc_enable`
(`NaviScheme.plain_evalBody`). This is the contract of `NaviScheme.Spares` for no addresses at
all.
-/

namespace NaviScheme

open Prog

/-- An operation that leaves the switch of the collector alone. -/
def EvalOp.Plain : EvalOp → Prop
  | .gcDisable | .gcEnable => False
  | _ => True

variable {α : Type} {F : FnSig}

/-- A function that performs plain operations only. -/
def Plain (p : Prog evalOps F α) : Prop := p.Only EvalOp.Plain

/-- What is not in the model leaves the switch of the collector alone, too. -/
structure Externals.Plain (X : Externals) : Prop where
  builtin (n nrArgs : ℕ) (args : NaviObj) (env : NaviEnv) :
    NaviScheme.Plain (X.builtin n nrArgs args env)
  naviEqualp (a b : NaviObj) : NaviScheme.Plain (X.naviEqualp a b)
  naviOpenInputFile_ (path : String) : NaviScheme.Plain (X.naviOpenInputFile_ path)
  naviCloseInputPort (port : NaviObj) : NaviScheme.Plain (X.naviCloseInputPort port)
  naviPortSetFoldCase (port : NaviObj) (ci : Bool) :
    NaviScheme.Plain (X.naviPortSetFoldCase port ci)
  naviRead (port : NaviObj) : NaviScheme.Plain (X.naviRead port)

/-- No addresses. -/
def nowhere : Addr → Prop := fun _ => False

@[simp] theorem avoids_nowhere (o : NaviObj) : Avoids nowhere o := by
  cases o <;> simp [Avoids, nowhere]

theorem Data.avoids_nowhere (d : Data) : d.Avoids nowhere := fun o _ => NaviScheme.avoids_nowhere o

/-- If there are no addresses to spare, what is left is the switch. -/
theorem EvalOp.spares_nowhere {o : EvalOp} : o.Spares nowhere False ↔ o.Plain := by
  cases o <;> simp [EvalOp.Spares, EvalOp.Plain, Data.avoids_nowhere]

theorem EvalOp.replyAvoids_nowhere (o : EvalOp) (r : o.Reply) : o.ReplyAvoids nowhere r := by
  cases o with
  | make | makeSymbol => exact NaviScheme.avoids_nowhere _
  | _ =>
    simp [EvalOp.ReplyAvoids, Data.avoids_nowhere, AllAvoid, NaviBinding.Avoids, NaviLibrary.Avoids]

theorem EvalFn.retAvoids_nowhere (f : EvalFn) (v : f.Ret) : f.RetAvoids nowhere v := by
  cases f <;> first | trivial | exact NaviScheme.avoids_nowhere _

theorem EvalExn.avoids_nowhere (e : EvalExn) : e.Avoids nowhere := by
  cases e <;> exact NaviScheme.avoids_nowhere _

theorem spares_of_plain {p : Leaf α} (h : Plain p) {Q : α → Prop} (hQ : ∀ a, Q a) :
    Spares nowhere False (raising nowhere) p Q := by
  induction p with
  | ret a => exact hQ a
  | throw args => exact avoids_nowhere args
  | op o k ih => exact ⟨EvalOp.spares_nowhere.mpr h.1, fun r _ => ih r (h.2 r)⟩
  | call f => exact f.elim

theorem plain_of_spares {p : Code α} {Q : α → Prop}
    (h : Spares nowhere False (sparing nowhere) p Q) : Plain p := by
  induction p with
  | ret a => trivial
  | throw e => trivial
  | op o k ih =>
    exact ⟨EvalOp.spares_nowhere.mp h.1, fun r => ih r (h.2 r (o.replyAvoids_nowhere r))⟩
  | call f held k ih =>
    rintro (e | v)
    · exact ih _ (h.2.2 e e.avoids_nowhere)
    · exact ih _ (h.2.1 v (f.retAvoids_nowhere v))

variable {X : Externals}

theorem Externals.Plain.spares (hX : X.Plain) : X.Spares nowhere False where
  builtin _ _ _ _ _ := spares_of_plain (hX.builtin _ _ _ _) avoids_nowhere
  naviEqualp _ _ := spares_of_plain (hX.naviEqualp _ _) fun _ => trivial
  naviOpenInputFile_ _ := spares_of_plain (hX.naviOpenInputFile_ _) avoids_nowhere
  naviCloseInputPort _ := spares_of_plain (hX.naviCloseInputPort _) fun _ => trivial
  naviPortSetFoldCase _ _ := spares_of_plain (hX.naviPortSetFoldCase _ _) fun _ => trivial
  naviRead _ := spares_of_plain (hX.naviRead _) avoids_nowhere

/-- **Only `navi_import` turns the switch of the collector.** -/
theorem plain_evalBody (hX : X.Plain) (f : EvalFn)
    (hf : ∀ imports env, f ≠ .naviImport imports env) : Plain (evalBody X f) :=
  plain_of_spares (spares_evalBody hX.spares (fun o _ => avoids_nowhere o) (.inr hf))

end NaviScheme
