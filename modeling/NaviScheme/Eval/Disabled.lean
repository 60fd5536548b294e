import Mathlib.Algebra.Group.Nat.Defs
import NaviScheme.Frame.Switch
import NaviScheme.Eval.Run

/-!
# The switch of the collector

`navi_import` turns the collector off with `navi_gc_disable`, and back on with
`navi_gc_enable` where it returns. An error below it leaves it by the escape of the handler,
past the second call. So in a run `_navi_gc_disabled` goes up by the number of the
`navi_import`s that are left in this way (`NaviScheme.runFn_disabled`), and `navi_import`
leaves it as it was when there are none (`NaviScheme.naviImport_restores_iff`).
-/

namespace NaviScheme

open Prog

/-- A world, with the switch of the collector. -/
structure GcWorld where
  /-- the world -/
  world : World
  /-- `_navi_gc_disabled`, an `unsigned int` -/
  disabled : ℕ

/-- What an operation does. -/
def GcWorld.step : (o : EvalOp) → GcWorld → Except Fault (o.Reply × GcWorld)
  | .gcDisable, s => .ok ((), { s with disabled := (s.disabled + 1) % 2 ^ 32 })
  | .gcEnable, s =>
    .ok ((), { s with disabled := if s.disabled ≠ 0 then s.disabled - 1 else s.disabled })
  | o, s => (World.step o s.world).map fun r => (r.1, { s with world := r.2 })

/-- The evaluator, with the switch of the collector. -/
def gcSemantics (X : Externals) : Prog.Semantics evalOps evalFns GcWorld Fault :=
  ⟨GcWorld.step, fun _ _ s => s, fun _ s => s, evalBody X⟩

theorem GcWorld.step_plain {o : EvalOp} {s s' : GcWorld} {r : o.Reply} (ho : o.Plain)
    (h : GcWorld.step o s = .ok (r, s')) : s'.disabled = s.disabled := by
  have hstep : GcWorld.step o s =
      (World.step o s.world).map fun r => (r.1, { s with world := r.2 }) := by
    cases o with
    | gcDisable => exact ho.elim
    | gcEnable => exact ho.elim
    | _ => rfl
  rw [hstep] at h
  cases hw : World.step o s.world with
  | ok p =>
    rw [hw] at h
    cases h
    rfl
  | error φ =>
    rw [hw] at h
    cases h

/-! ### Entering and leaving `navi_import` -/

/-- `navi_import` is entered. -/
def entersImport : CallEvent evalFns → Bool
  | .enter (.naviImport _ _) => true
  | _ => false

/-- `navi_import` is left by an exception. -/
def escapesImport : CallEvent evalFns → Bool
  | .exit (.naviImport _ _) (some _) => true
  | _ => false

/-- How a run changes `_navi_gc_disabled`, unless it wraps. -/
def Disables (c : ℕ) (t : List (CallEvent evalFns)) (c' : ℕ) : Prop :=
  t.countP escapesImport ≤ t.countP entersImport ∧
    (c + t.countP entersImport < 2 ^ 32 → c' = c + t.countP escapesImport)

namespace Disables

variable {c c' c'' : ℕ} {t t' : List (CallEvent evalFns)} {f : EvalFn}

theorem nil (c : ℕ) : Disables c [] c := ⟨le_rfl, fun _ => rfl⟩

theorem append (h : Disables c t c') (h' : Disables c' t' c'') : Disables c (t ++ t') c'' := by
  obtain ⟨hle, hc⟩ := h
  obtain ⟨hle', hc'⟩ := h'
  simp only [Disables, List.countP_append]
  refine ⟨Nat.add_le_add hle hle', fun hlt => ?_⟩
  have heq : c' = c + t.countP escapesImport := hc (by omega)
  rw [hc' (by omega), heq]
  omega

/-- A call of another function than `navi_import`. -/
theorem call (h : Disables c t c') (hf : ∀ imports env, f ≠ .naviImport imports env)
    (e : Option EvalExn) : Disables c (.enter f :: t ++ [.exit f e]) c' := by
  have henter : entersImport (.enter f) = false := by
    cases f with
    | naviImport imports env => exact absurd rfl (hf imports env)
    | _ => rfl
  have hexit : escapesImport (.exit f e) = false := by
    cases f with
    | naviImport imports env => exact absurd rfl (hf imports env)
    | _ => rfl
  have hexit' : entersImport (.exit f e) = false := rfl
  have henter' : escapesImport (.enter f) = false := rfl
  simpa [Disables, List.countP_append, henter, hexit, hexit', henter'] using h

/-- A call of `navi_import` that returns. -/
theorem import_ok {imports : NaviObj} {env : NaviEnv} (h : Disables ((c + 1) % 2 ^ 32) t c') :
    Disables c (.enter (.naviImport imports env) :: t ++ [.exit (.naviImport imports env) none])
      (if c' ≠ 0 then c' - 1 else c') := by
  obtain ⟨hle, hc⟩ := h
  simp only [Disables, List.countP_append, List.countP_cons, List.countP_nil, entersImport,
    escapesImport, if_true, if_false, Bool.false_eq_true]
  refine ⟨by omega, fun hlt => ?_⟩
  have hc' := hc (by omega)
  split <;> omega

/-- A call of `navi_import` that is left by an exception: the switch is not turned back. -/
theorem import_exn {imports : NaviObj} {env : NaviEnv} {e : EvalExn}
    (h : Disables ((c + 1) % 2 ^ 32) t c') :
    Disables c (.enter (.naviImport imports env) :: t ++
      [.exit (.naviImport imports env) (some e)]) c' := by
  obtain ⟨hle, hc⟩ := h
  simp only [Disables, List.countP_append, List.countP_cons, List.countP_nil, entersImport,
    escapesImport, if_true, if_false, Bool.false_eq_true]
  refine ⟨by omega, fun hlt => ?_⟩
  have hc' := hc (by omega)
  omega

end Disables

section Run

variable {X : Externals} {n : ℕ}

theorem gcSemantics_calls (f : EvalFn) (held : Locals) (s : GcWorld) :
    (gcSemantics X).calls n f held s = (gcSemantics X).runFn n f s := by
  change Res.mapState (fun s => s) ((gcSemantics X).runFn n f s) = _
  cases (gcSemantics X).runFn n f s <;> rfl

/-- What `navi_import` does with the switch, given what its loop does. -/
theorem naviImport_disables {imports : NaviObj} {env : NaviEnv} {s s' : GcWorld}
    (ih : ∀ s s', ((gcSemantics X).runFn n (.importLoop imports env) s).final = some s' →
      Disables s.disabled ((gcSemantics X).trace n (.importLoop imports env) s) s'.disabled)
    (h : ((gcSemantics X).runFn (n + 1) (.naviImport imports env) s).final = some s') :
    Disables s.disabled ((gcSemantics X).trace (n + 1) (.naviImport imports env) s)
      s'.disabled := by
  let s₀ : GcWorld := { s with disabled := (s.disabled + 1) % 2 ^ 32 }
  have hrun : (gcSemantics X).runFn (n + 1) (.naviImport imports env) s =
      match (gcSemantics X).runFn n (.importLoop imports env) s₀ with
      | .ok _ s₁ =>
        .ok () { s₁ with disabled := if s₁.disabled ≠ 0 then s₁.disabled - 1 else s₁.disabled }
      | .exn e s₁ => .exn e s₁
      | .fault φ => .fault φ
      | .timeout => .timeout := by
    have hbody : (gcSemantics X).runFn (n + 1) (.naviImport imports env) s =
        runWith GcWorld.step ((gcSemantics X).calls n) (callFn (.importLoop imports env) [] [] >>=
          fun _ => perform .gcEnable) s₀ := rfl
    rw [hbody, runWith_bind, callFn, runWith_callFn, gcSemantics_calls]
    cases (gcSemantics X).runFn n (.importLoop imports env) s₀ <;> rfl
  have htrace : (gcSemantics X).traceOf n (naviImportBody imports env) s =
      (gcSemantics X).trace n (.importLoop imports env) s₀ := by
    have hbody : (gcSemantics X).traceOf n (naviImportBody imports env) s =
        (gcSemantics X).traceOf n (callFn (.importLoop imports env) [] [] >>=
          fun _ => perform .gcEnable) s₀ := rfl
    rw [hbody, Semantics.traceOf, traceWith_bind, callFn, traceWith_callFn]
    cases runWith (gcSemantics X).step ((gcSemantics X).calls n)
      (Prog.callFn (F := evalFns) (.importLoop imports env) ⟨[], []⟩) s₀ <;>
      exact List.append_nil _
  rw [Semantics.trace_succ, hrun]
  change Disables _ (_ :: (gcSemantics X).traceOf n (naviImportBody imports env) s ++ _) _
  rw [htrace]
  rw [hrun] at h
  have hloop := ih s₀
  cases hr : (gcSemantics X).runFn n (.importLoop imports env) s₀ with
  | ok v s₁ =>
    rw [hr] at h hloop
    obtain rfl : _ = s' := Option.some.inj h
    exact (hloop s₁ rfl).import_ok
  | exn e s₁ =>
    rw [hr] at h hloop
    obtain rfl : s₁ = s' := Option.some.inj h
    exact (hloop s₁ rfl).import_exn
  | fault φ =>
    rw [hr] at h
    cases h
  | timeout =>
    rw [hr] at h
    cases h

/-- **In a run `_navi_gc_disabled` goes up by the number of the `navi_import`s that are left
by an exception.** By induction on how deep calls nest. -/
theorem runFn_disabled (hX : X.Plain) (f : EvalFn) {s s' : GcWorld}
    (h : ((gcSemantics X).runFn n f s).final = some s') :
    Disables s.disabled ((gcSemantics X).trace n f s) s'.disabled := by
  induction n generalizing f s s' with
  | zero => cases h
  | succ n ih =>
    by_cases hf : ∃ imports env, f = .naviImport imports env
    · obtain ⟨imports, env, rfl⟩ := hf
      exact naviImport_disables (fun _ _ => ih _) h
    · have hf' : ∀ imports env, f ≠ .naviImport imports env :=
        fun imports env heq => hf ⟨imports, env, heq⟩
      have hbody : Disables s.disabled ((gcSemantics X).traceOf n (evalBody X f) s) s'.disabled := by
        refine (plain_evalBody hX f hf').run_rel _ GcWorld.disabled Disables.nil Disables.append
          (fun o s r s' ho hstep => ?_) (fun g held s₁ s₂ hg => ih g ?_) h
        · rw [GcWorld.step_plain ho hstep]
          exact Disables.nil _
        · rwa [gcSemantics_calls] at hg
      rw [Semantics.trace_succ]
      cases hr : (gcSemantics X).runFn (n + 1) f s with
      | ok v s₁ => exact hbody.call hf' none
      | exn e s₁ => exact hbody.call hf' (some e)
      | fault φ =>
        rw [hr] at h
        cases h
      | timeout =>
        rw [hr] at h
        cases h

/-- **`navi_import` leaves `_navi_gc_disabled` as it was if and only if no error leaves it, nor
another `navi_import` below it.** -/
theorem naviImport_restores_iff (hX : X.Plain) {imports : NaviObj} {env : NaviEnv}
    {s s' : GcWorld} {r : Res Fault EvalExn GcWorld Unit} {t : List (CallEvent evalFns)}
    (h : (gcSemantics X).Traces (.naviImport imports env) s r t) (hr : r.final = some s')
    (hwrap : s.disabled + t.countP entersImport < 2 ^ 32) :
    s'.disabled = s.disabled ↔ ∀ event ∈ t, ¬ escapesImport event := by
  obtain ⟨-, n, rfl, rfl⟩ := h
  obtain ⟨-, hc⟩ := runFn_disabled hX _ hr
  rw [hc hwrap, Nat.add_eq_left, List.countP_eq_zero]

end Run

/-! ### A library that is not there -/

/-- `(import (foo))`, for a library that is not there, below the handler `(lambda (e) (k e))`. -/
def escapeWorld : World :=
  let o (n : ℕ) : NaviObj := .ptr (.obj n)
  let pair (car cdr : NaviObj) : NaviType × Data := (.naviPair, .pair (some car) (some cdr))
  let sym (str : String) : NaviType × Data := (.naviSymbol, .symbol str true)
  .ofCells
    [sym "foo", sym "#current-exception-handler", sym "#lib-search-paths", sym "e", sym "k",
      -- ((foo))
      pair (o 0) .nil, pair (o 5) .nil,
      -- the handler, and the escape k
      pair (o 3) .nil, pair (o 4) (o 7), pair (o 8) .nil,
      (.naviProcedure, .proc ⟨false, 1, o 3, 0, o 7, .body (o 9), none⟩),
      (.naviEscape, .escape (some ⟨0, 1⟩) none)]
    [("foo", 0), ("#current-exception-handler", 1), ("#lib-search-paths", 2), ("e", 3), ("k", 4)]
    [⟨none, [⟨o 4, o 11⟩]⟩, ⟨none, [⟨o 1, o 10⟩, ⟨o 2, .nil⟩]⟩] []

/-- What the import comes to. -/
def escapeRun : Res Fault EvalExn GcWorld Unit :=
  (gcSemantics noExternals).runFn 20 (.naviImport (.ptr (.obj 6)) ⟨0, 1⟩) ⟨escapeWorld, 0⟩

theorem escapeRun_eq : ∃ s', escapeRun = .exn (.escape (.ptr (.obj 11))) s' ∧ s'.disabled = 1 := by
  have hexn : escapeRun.exn? = some (.escape (.ptr (.obj 11))) := by decide
  have hfinal : escapeRun.final.map GcWorld.disabled = some 1 := by decide
  obtain ⟨s', hrun⟩ := Res.exn?_eq_some.mp hexn
  rw [hrun, Res.final_exn, Option.map_some] at hfinal
  exact ⟨s', hrun, Option.some.inj hfinal⟩

theorem noExternals_plain : noExternals.Plain :=
  ⟨fun _ _ _ _ => trivial, fun _ _ => trivial, fun _ => trivial, fun _ => trivial,
    fun _ _ => trivial, fun _ => trivial⟩

/-- The events in it. -/
def escapeTrace : List (CallEvent evalFns) :=
  (gcSemantics noExternals).trace 20 (.naviImport (.ptr (.obj 6)) ⟨0, 1⟩) ⟨escapeWorld, 0⟩

theorem countP_escapeTrace : escapeTrace.countP entersImport = 1 := by decide +kernel

theorem naviImport_restores_iff_escape :
    ∃ s', (gcSemantics noExternals).Traces (.naviImport (.ptr (.obj 6)) ⟨0, 1⟩)
        ⟨escapeWorld, 0⟩ escapeRun escapeTrace ∧ escapeRun.final = some s' ∧
      (s'.disabled = 0 ↔ ∀ event ∈ escapeTrace, ¬ escapesImport event) := by
  obtain ⟨s', hrun, -⟩ := escapeRun_eq
  have hfinal : escapeRun.final = some s' := by rw [hrun, Res.final_exn]
  have htrace : (gcSemantics noExternals).Traces (.naviImport (.ptr (.obj 6)) ⟨0, 1⟩)
      ⟨escapeWorld, 0⟩ escapeRun escapeTrace := ⟨by rw [hrun]; exact nofun, 20, rfl, rfl⟩
  have hwrap : (⟨escapeWorld, 0⟩ : GcWorld).disabled + escapeTrace.countP entersImport < 2 ^ 32 := by
    rw [countP_escapeTrace]
    decide
  exact ⟨s', htrace, hfinal, naviImport_restores_iff noExternals_plain htrace hfinal hwrap⟩

/-- **The error leaves `navi_import` by the escape of the handler**, and the collector stays
off. -/
theorem not_naviImport_restores :
    ∃ s', (gcSemantics noExternals).Returns (.naviImport (.ptr (.obj 6)) ⟨0, 1⟩)
        ⟨escapeWorld, 0⟩ (.exn (.escape (.ptr (.obj 11))) s') ∧ s'.disabled ≠ 0 := by
  obtain ⟨s', hrun, hd⟩ := escapeRun_eq
  refine ⟨s', ⟨by simp, 19, ?_⟩, by rw [hd]; decide⟩
  exact (Semantics.runFn_succ _ _ _ _).symm.trans hrun

end NaviScheme
