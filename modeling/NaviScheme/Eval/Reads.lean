import NaviScheme.Eval.Inspect
import NaviScheme.Lib.Trace

/-!
# What is evaluated without evaluating anything else

`_eval` returns most objects as they are, looks a symbol up, and takes the first of several
values (`NaviScheme.World.Reads`). For everything else it evaluates more. So what the log has
after an evaluation tells whether the result has only been read (`NaviScheme.naviEval_inv`). An
object that is its own value is returned, and nothing but the log changes
(`NaviScheme.evaluates_naviEval_self`).
-/

namespace NaviScheme

open Prog

variable {α : Type} {X : Externals} {w w' w₁ : World} {e u v : NaviObj} {env : NaviEnv}
  {objs : List NaviObj} {scopes : List ScopeAddr} {n : ℕ}

/-! ### What is evaluated without evaluating anything else -/

/-- The types of the objects that `_eval` returns as they are. -/
def NaviType.Constant : NaviType → Prop
  | .naviThunk | .naviBounce | .naviValues | .naviSymbol | .naviPair | .naviTrap => False
  | _ => True

/-- **What `_eval` returns without evaluating anything else.** -/
inductive World.Reads (w : World) (env : NaviEnv) : NaviObj → NaviObj → Prop
  /-- An object that is not in memory is returned as it is. -/
  | immediate {v : NaviObj} (hv : ∀ a, v ≠ .ptr a) : w.Reads env v v
  /-- Objects of most types are. -/
  | constant {v : NaviObj} {t : NaviType} {d : Data} (hv : w.load v = .ok (t, d))
    (ht : t.Constant) : w.Reads env v v
  /-- For a symbol it is the object of its binding. -/
  | symbol {v u : NaviObj} {d : Data} {s : ScopeAddr} (hv : w.load v = .ok (.naviSymbol, d))
    (hu : w.envBinding v (env.lexical + 1) env.lexical = .ok (some (s, u))) : w.Reads env v u
  /-- For several values it is the first. -/
  | values {v u : NaviObj} {data : List (Option NaviObj)}
    (hv : w.load v = .ok (.naviValues, .vector data)) (hu : data[0]? = some (some u)) :
    w.Reads env v u

/-- An object that is its own value. -/
def World.SelfEvaluating (w : World) (env : NaviEnv) (v : NaviObj) : Prop := w.Reads env v v

/-- A world with the same scopes and the same objects but pairs. -/
structure World.SameButPairs (w w' : World) : Prop where
  /-- the scopes -/
  scopes : w'.scopes = w.scopes
  /-- the objects -/
  objs : ∀ v t d, t ≠ .naviPair → (w'.load v = .ok (t, d) ↔ w.load v = .ok (t, d))

/-- A world in which an object has been evaluated. -/
def World.evaluated (w : World) (v : NaviObj) (env : NaviEnv) (guard : ℕ) : World :=
  { w with nextGuard := guard, log := (v, env) :: w.log }

/-- A symbol is looked up in the scopes. -/
theorem World.envBinding_congr (h : w'.scopes = w.scopes) (symbol : NaviObj) (n : ℕ)
    (s : ScopeAddr) : w'.envBinding symbol n s = w.envBinding symbol n s := by
  induction n generalizing s with
  | zero => rfl
  | succ n ih => simp only [World.envBinding, World.loadScope, h, ih]

namespace World.SameButPairs

theorem refl (w : World) : w.SameButPairs w := ⟨rfl, fun _ _ _ _ => Iff.rfl⟩

theorem symm (h : w.SameButPairs w') : w'.SameButPairs w :=
  ⟨h.scopes.symm, fun v t d ht => (h.objs v t d ht).symm⟩

theorem trans (h : w.SameButPairs w₁) (h' : w₁.SameButPairs w') : w.SameButPairs w' :=
  ⟨h'.scopes.trans h.scopes, fun v t d ht => (h'.objs v t d ht).trans (h.objs v t d ht)⟩

theorem evaluated (w : World) (v : NaviObj) (env : NaviEnv) (g : ℕ) :
    w.SameButPairs (w.evaluated v env g) := ⟨rfl, fun _ _ _ _ => Iff.rfl⟩

theorem guarded (w : World) (g : ℕ) : w.SameButPairs { w with nextGuard := g } :=
  ⟨rfl, fun _ _ _ _ => Iff.rfl⟩

/-- Writing a pair where there was one, or nothing. -/
theorem setObj {a : Addr} {d : Data} (h : ∀ c, w.objs a = some c → c.1 = .naviPair) :
    w.SameButPairs (w.setObj a (.naviPair, d)) := by
  refine ⟨rfl, fun v t d' ht => ?_⟩
  cases v with
  | ptr b =>
    rw [World.load_setObj]
    split_ifs with hb
    · subst hb
      refine ⟨fun heq => absurd (Prod.mk.inj (Except.ok.inj heq)).1.symm ht, fun heq => ?_⟩
      rw [World.load] at heq
      split at heq
      · rename_i c hc
        cases heq
        exact absurd (h _ hc) ht
      · cases heq
    · exact Iff.rfl
  | _ => exact Iff.rfl

theorem envBinding_eq (h : w.SameButPairs w') (symbol : NaviObj) (n : ℕ) (s : ScopeAddr) :
    w'.envBinding symbol n s = w.envBinding symbol n s := World.envBinding_congr h.scopes symbol n s

theorem load {t : NaviType} {d : Data} (h : w.SameButPairs w') (hv : w.load v = .ok (t, d))
    (ht : t ≠ .naviPair) : w'.load v = .ok (t, d) := (h.objs v t d ht).mpr hv

/-- The same is returned in both worlds. -/
theorem reads (h : w.SameButPairs w') (hr : w.Reads env v u) : w'.Reads env v u := by
  cases hr with
  | immediate hv => exact .immediate hv
  | constant hv ht => exact .constant (h.load hv (by rintro rfl; exact ht)) ht
  | symbol hv hu => exact .symbol (h.load hv (by simp)) ((h.envBinding_eq _ _ _).trans hu)
  | values hv hu => exact .values (h.load hv (by simp)) hu

end World.SameButPairs

/-! ### The log -/

theorem World.log_make (w : World) (t : NaviType) (d : Data) : (w.make t d).2.log = w.log := by
  unfold World.make
  split_ifs <;> rfl

theorem World.log_makeSymbol (w : World) (str : String) : (w.makeSymbol str).2.log = w.log := by
  unfold World.makeSymbol
  cases w.symtab.lookup str with
  | some a => rfl
  | none => exact w.log_make .naviSymbol (.symbol str true)

theorem World.step_log {o : EvalOp} {r : o.Reply} (h : World.step o w = .ok (r, w')) :
    w.log.length ≤ w'.log.length := by
  cases o with
  | load o | walk o | envBinding s symbol | globalScope s | bindings s =>
    obtain ⟨c, -, heq⟩ := map_eq_ok h
    cases heq
    exact le_rfl
  | store o d | retag o t =>
    cases o with
    | ptr a =>
      obtain ⟨c, -, heq⟩ := bind_eq_ok h
      cases heq
      exact le_rfl
    | _ => cases h
  | make t d =>
    obtain ⟨-, rfl⟩ := Prod.mk.inj (Except.ok.inj h)
    exact (congrArg List.length (w.log_make t d)).ge
  | makeSymbol str =>
    obtain ⟨-, rfl⟩ := Prod.mk.inj (Except.ok.inj h)
    exact (congrArg List.length (w.log_makeSymbol str)).ge
  | setBinding s symbol object | scopeSet s symbol object | scopeUnset s symbol =>
    obtain ⟨w₁, hset, heq⟩ := map_eq_ok h
    cases heq
    obtain ⟨sc, -, heq⟩ := bind_eq_ok hset
    cases heq
    exact le_rfl
  | guard o s =>
    simp only [World.step] at h
    split at h <;> cases h <;> exact le_rfl
  | evaluating expr env =>
    cases h
    exact Nat.le_succ _
  | fail φ => cases h
  | _ =>
    cases h
    exact le_rfl

/-- What has been evaluated stays in the log. -/
theorem log_le_of_run {p : Code α} {a : α} (h : (worldSemantics X).run n p w = .ok a w') :
    w.log.length ≤ w'.log.length := by
  have heval : (worldSemantics X).Evaluates p w (.ok a w') := ⟨nofun, n, h⟩
  exact heval.rel (R := fun w w' : World => w.log.length ≤ w'.log.length) (fun _ => le_rfl) le_trans
    (fun _ _ _ _ => World.step_log) (fun _ _ _ _ h => h) rfl

theorem log_lt_of_eval_ (h : (worldSemantics X).run n (callFn (.eval_ e env) objs scopes) w =
    .ok u w') : w.log.length + 1 ≤ w'.log.length := by
  obtain ⟨n, rfl, hrun⟩ := run_callFn_ok h
  have hstep : Computes (perform (.evaluating e env) : Code _) w ()
      { w with log := (e, env) :: w.log } := Computes.perform rfl
  exact log_le_of_run ((hstep.run_bind n).symm.trans hrun)

theorem log_lt_of_evalLoop (h : (worldSemantics X).run n (callFn (.evalLoop e env) objs scopes) w =
    .ok u w') : w.log.length + 1 ≤ w'.log.length := by
  obtain ⟨n, rfl, hrun⟩ := run_callFn_ok h
  obtain ⟨_, w₁, hguard, hrun⟩ := run_bind_ok hrun
  obtain ⟨v, w₂, heval, hrun⟩ := run_bind_ok hrun
  exact (Nat.succ_le_succ (log_le_of_run hguard)).trans
    ((log_lt_of_eval_ heval).trans (log_le_of_run hrun))

theorem log_lt_of_naviEval (h : (worldSemantics X).run n (naviEval e env objs scopes) w =
    .ok u w') : w.log.length + 1 ≤ w'.log.length := by
  obtain ⟨n, rfl, hrun⟩ := run_callFn_ok h
  obtain ⟨_, w₁, href, hrun⟩ := run_bind_ok hrun
  obtain ⟨v, w₂, heval, hrun⟩ := run_bind_ok hrun
  exact (Nat.succ_le_succ (log_le_of_run href)).trans
    ((log_lt_of_evalLoop heval).trans (log_le_of_run hrun))

theorem log_lt_of_returns (h : (worldSemantics X).Returns (.naviEval e env) w (.ok u w')) :
    w.log.length + 1 ≤ w'.log.length := by
  have hcall : (worldSemantics X).Evaluates (naviEval e env [] []) w (.ok u w') :=
    evaluates_callFn.mpr h
  obtain ⟨n, hn⟩ := hcall.2
  exact log_lt_of_naviEval hn

/-! ### Evaluating what is its own value -/

theorem naviType_cases {t : NaviType} (h : Computes (naviType v : Code _) w t w) :
    ((∀ a, v ≠ .ptr a) ∧ t.Constant) ∨ ∃ d, w.load v = .ok (t, d) := by
  cases v with
  | ptr a =>
    obtain ⟨c, hc, hret⟩ := h.of_bind_inspects (inspects_load _)
    obtain ⟨rfl, -⟩ := hret.ret_inv
    exact .inr ⟨c.2, load_of_computes hc⟩
  | _ =>
    obtain ⟨rfl, -⟩ := Computes.ret_inv h
    exact .inl ⟨nofun, trivial⟩

theorem inspects_naviVector (o : NaviObj) : Inspects (naviVector o : Code _) := by
  refine (inspects_load o).bind fun c => ?_
  split
  · exact Inspects.ret _
  · exact Inspects.fail _

theorem naviVector_inv {data : List (Option NaviObj)}
    (h : Computes (naviVector v : Code _) w data w) : ∃ t, w.load v = .ok (t, .vector data) := by
  obtain ⟨⟨t, d⟩, hc, hret⟩ := h.of_bind_inspects (inspects_load _)
  cases d with
  | vector data' =>
    obtain ⟨rfl, -⟩ := Computes.ret_inv hret
    exact ⟨t, load_of_computes hc⟩
  | _ => exact absurd hret not_computes_fail

theorem inspects_naviThunk (o : NaviObj) : Inspects (naviThunk o : Code _) := by
  refine (inspects_load o).bind fun c => ?_
  split
  · exact Inspects.ret _
  · exact Inspects.fail _

theorem inspects_naviIsProperList (o : NaviObj) : Inspects (naviIsProperList o : Code _) :=
  (inspects_walk o).bind fun _ => Inspects.ret _

theorem inspects_naviEnvBinding (s : ScopeAddr) (symbol : NaviObj) :
    Inspects (naviEnvBinding s symbol : Code _) := by
  refine Inspects.perform fun w r w' h => ?_
  obtain ⟨c, -, heq⟩ := map_eq_ok h
  cases heq
  rfl

theorem inspects_naviEnvLookup (s : ScopeAddr) (symbol : NaviObj) :
    Inspects (naviEnvLookup s symbol : Code _) := by
  refine (inspects_naviEnvBinding s symbol).bind fun r => ?_
  split <;> exact Inspects.ret _

theorem naviEnvLookup_inv {s : ScopeAddr} {symbol : NaviObj}
    (h : Computes (naviEnvLookup s symbol : Code _) w u w) :
    (∃ s', w.envBinding symbol (s + 1) s = .ok (some (s', u))) ∨ u = .void := by
  obtain ⟨r, hr, hret⟩ := h.of_bind_inspects (inspects_naviEnvBinding s symbol)
  obtain ⟨r', hr', heq⟩ := map_eq_ok hr.perform_inv
  cases heq
  cases r with
  | some b =>
    obtain ⟨rfl, -⟩ := Computes.ret_inv hret
    exact .inl ⟨b.1, hr'⟩
  | none =>
    obtain ⟨rfl, -⟩ := Computes.ret_inv hret
    exact .inr rfl

theorem computes_naviEnvLookup {s s' : ScopeAddr} {symbol : NaviObj}
    (h : w.envBinding symbol (s + 1) s = .ok (some (s', u))) :
    Computes (naviEnvLookup s symbol : Code _) w u w := by
  have hbinding : Computes (naviEnvBinding s symbol : Code _) w (some (s', u)) w := by
    refine Computes.perform ?_
    change (w.envBinding symbol (s + 1) s).map (·, w) = _
    rw [h]
    rfl
  exact hbinding.bind (Computes.ret _)

theorem not_run_leaf {p : Leaf α} {a : α} (hp : NeverReturns p) :
    (worldSemantics X).run n (leaf env p) w ≠ .ok a w' := fun h =>
  hp w a w' (runLeaf_of_evaluates ⟨nofun, n, h⟩)

/-- An expression whose evaluation evaluates nothing else. -/
theorem evaluating_inv (h : (worldSemantics X).run n (callFn (.eval_ v env) objs scopes) w = .ok u w')
    (hle : w'.log.length ≤ w.log.length + 1) :
    w.Reads env v u ∧ w' = { w with log := (v, env) :: w.log } := by
  obtain ⟨n, rfl, hrun⟩ := run_callFn_ok h
  have hstep : Computes (perform (.evaluating v env) : Code _) w ()
      { w with log := (v, env) :: w.log } := Computes.perform rfl
  replace hrun := (hstep.run_bind n).symm.trans hrun
  obtain ⟨t, ht, hrun⟩ := (inspects_naviType v).run_of_bind hrun nofun
  have htype := naviType_cases ht
  have hlog : ({ w with log := (v, env) :: w.log } : World).log.length + 1 ≤ w'.log.length →
      False := fun hlt => absurd (hlt.trans hle) (by simp)
  have hconst : t.Constant → w.Reads env v v := fun hconst =>
    htype.elim (fun himm => .immediate himm.1) fun ⟨d, hd⟩ => .constant (d := d) hd hconst
  cases t with
  | naviThunk | naviBounce =>
    obtain ⟨thunk, -, hrun⟩ := (inspects_naviThunk v).run_of_bind hrun nofun
    exact (hlog (log_lt_of_eval_ hrun)).elim
  | naviValues =>
    obtain ⟨data, hdata, hrun⟩ := (inspects_naviVector v).run_of_bind hrun nofun
    obtain ⟨t, hload⟩ := naviVector_inv hdata
    obtain ⟨-, hfalse⟩ | ⟨d, hd⟩ := htype
    · exact hfalse.elim
    · obtain rfl : .naviValues = t := (Prod.mk.inj (Except.ok.inj (hd.symm.trans hload))).1
      unfold elem at hrun
      split at hrun
      · rename_i o ho
        cases hrun
        exact ⟨.values hload ho, rfl⟩
      · cases hrun
  | naviSymbol =>
    obtain ⟨val, hval, hrun⟩ := (inspects_naviEnvLookup env.lexical v).run_of_bind hrun nofun
    obtain ⟨t, hvalType, hrun⟩ := (inspects_naviType val).run_of_bind hrun nofun
    split_ifs at hrun with hvoid
    · exact absurd hrun (not_run_leaf (NeverReturns.bind fun _ => neverReturns_naviError _ _))
    · cases hrun
      obtain ⟨s, hbound⟩ | rfl := naviEnvLookup_inv hval
      · obtain ⟨-, hfalse⟩ | ⟨d, hd⟩ := htype
        · exact hfalse.elim
        · have hsame := World.SameButPairs.evaluated w v env w.nextGuard
          exact ⟨.symbol hd ((hsame.envBinding_eq _ _ _).symm.trans hbound), rfl⟩
      · exact absurd (Computes.ret_inv hvalType).1 hvoid
  | naviPair =>
    obtain ⟨b, -, hrun⟩ := (inspects_naviIsProperList v).run_of_bind hrun nofun
    cases b with
    | true =>
      obtain ⟨n, rfl, hcall⟩ := run_callFn_ok hrun
      obtain ⟨car, -, hcall⟩ := (inspects_naviCar v).run_of_bind hcall nofun
      obtain ⟨proc, w₂, hproc, hcall⟩ := run_bind_ok hcall
      exact (hlog ((log_lt_of_naviEval hproc).trans (log_le_of_run hcall))).elim
    | false =>
      obtain ⟨_, _, -, hrun⟩ := run_bind_ok hrun
      exact absurd hrun (not_run_leaf (neverReturns_naviError _ _))
  | naviTrap => cases hrun
  | _ =>
    cases hrun
    exact ⟨hconst trivial, rfl⟩

theorem computes_naviGcGuard (o : NaviObj) (env : NaviEnv) (w : World) :
    ∃ r g, Computes (naviGcGuard o env : Code _) w r { w with nextGuard := g } := by
  cases o with
  | ptr a => exact ⟨_, w.nextGuard + 1, Computes.perform rfl⟩
  | void => exact ⟨_, w.nextGuard + 1, Computes.perform rfl⟩
  | _ => exact ⟨_, w.nextGuard, Computes.perform rfl⟩

theorem computes_naviGcUnguard (r : Option (ScopeAddr × ℕ)) (w : World) :
    Computes (naviGcUnguard r : Code _) w () w := Computes.perform rfl

theorem evalLoop_inv
    (h : (worldSemantics X).run n (callFn (.evalLoop v env) objs scopes) w = .ok u w')
    (hle : w'.log.length ≤ w.log.length + 1) :
    w.Reads env v u ∧ ∃ g, w' = w.evaluated v env g := by
  obtain ⟨n, rfl, hrun⟩ := run_callFn_ok h
  obtain ⟨r, g, hguard⟩ := computes_naviGcGuard v env w
  replace hrun := (hguard.run_bind n).symm.trans hrun
  obtain ⟨x, w₁, heval, hrun⟩ := run_bind_ok hrun
  have hrest := log_le_of_run hrun
  obtain ⟨hreads, rfl⟩ := evaluating_inv heval (hrest.trans hle)
  replace hrun := ((computes_naviGcUnguard r _).run_bind n).symm.trans hrun
  obtain ⟨t, -, hrun⟩ := (inspects_naviType x).run_of_bind hrun nofun
  obtain ⟨-, hloop⟩ | ⟨-, hret⟩ := run_ite hrun
  · exact absurd ((log_lt_of_evalLoop hloop).trans hle) (Nat.not_succ_le_self _)
  · cases hret
    exact ⟨(World.SameButPairs.guarded w g).symm.reads hreads, g, rfl⟩

theorem computes_naviEnvRef (env : NaviEnv) (w : World) :
    Computes (naviEnvRef env : Code _) w () w :=
  (Computes.perform (o := .scopeRef env.lexical) rfl).bind
    (Computes.perform (o := .scopeRef env.dynamic) rfl)

/-- Evaluating something either evaluates more than that, or returns what can be read. -/
theorem naviEval_inv (h : (worldSemantics X).run n (naviEval v env objs scopes) w = .ok u w')
    (hle : w'.log.length ≤ w.log.length + 1) :
    w.Reads env v u ∧ ∃ g, w' = w.evaluated v env g := by
  obtain ⟨n, rfl, hrun⟩ := run_callFn_ok h
  replace hrun := ((computes_naviEnvRef env w).run_bind n).symm.trans hrun
  obtain ⟨x, w₁, heval, hrun⟩ := run_bind_ok hrun
  cases hrun
  exact evalLoop_inv heval hle

theorem World.SelfEvaluating.naviType (h : w.SelfEvaluating env v) :
    ∃ t, t ≠ .naviBounce ∧ Computes (NaviScheme.naviType v : Code _) w t w := by
  cases h with
  | immediate hv =>
    cases v with
    | ptr a => exact absurd rfl (hv a)
    | _ => exact ⟨_, by simp, Computes.ret _⟩
  | constant hv ht => exact ⟨_, by rintro rfl; exact ht, computes_naviType hv⟩
  | symbol hv hu => exact ⟨.naviSymbol, by simp, computes_naviType hv⟩
  | values hv hu => exact ⟨.naviValues, by simp, computes_naviType hv⟩

theorem returns_eval_self (h : w.SelfEvaluating env v) :
    (worldSemantics X).Returns (.eval_ v env) w (.ok v { w with log := (v, env) :: w.log }) := by
  have hstep : Computes (perform (.evaluating v env) : Code _) w ()
      { w with log := (v, env) :: w.log } := Computes.perform rfl
  refine hstep.evaluates_bind ?_
  replace h := (World.SameButPairs.evaluated w v env w.nextGuard).reads h
  change World.Reads { w with log := (v, env) :: w.log } env v v at h
  generalize ({ w with log := (v, env) :: w.log } : World) = w₁ at h
  cases h with
  | immediate hv =>
    cases v with
    | ptr a => exact absurd rfl (hv a)
    | _ => exact .ret
  | @constant t d hv ht =>
    refine (computes_naviType hv).evaluates_bind ?_
    cases t with
    | naviThunk | naviBounce | naviValues | naviSymbol | naviPair | naviTrap => exact ht.elim
    | _ => exact .ret
  | symbol hv hu =>
    exact (computes_naviType hv).evaluates_bind ((computes_naviEnvLookup hu).evaluates_bind
      ((computes_naviType hv).evaluates_bind .ret))
  | @values _ data hv hu =>
    refine (computes_naviType hv).evaluates_bind ?_
    have hvector : Computes (naviVector v : Code _) w₁ data w₁ := (computes_load hv).bind (Computes.ret _)
    refine hvector.evaluates_bind ?_
    rw [elem, hu]
    exact .ret

/-- **What is its own value is returned as it is.** -/
theorem evaluates_naviEval_self (h : w.SelfEvaluating env v) (objs : List NaviObj)
    (scopes : List ScopeAddr) :
    ∃ g, (worldSemantics X).Evaluates (naviEval v env objs scopes) w (.ok v (w.evaluated v env g)) := by
  obtain ⟨r, g, hguard⟩ := computes_naviGcGuard v env w
  have hguarded := (World.SameButPairs.guarded w g).reads h
  obtain ⟨t, ht, htype⟩ := World.SelfEvaluating.naviType
    ((World.SameButPairs.evaluated w v env g).reads h)
  refine ⟨g, evaluates_callFn.mpr ((computes_naviEnvRef env w).evaluates_bind ?_)⟩
  have hloop : (worldSemantics X).Returns (.evalLoop v env) w (.ok v (w.evaluated v env g)) := by
    refine hguard.evaluates_bind ((evaluates_callFn.mpr (returns_eval_self hguarded)).bind ?_)
    exact (computes_naviGcUnguard r _).evaluates_bind (htype.evaluates_bind
      (evaluates_ite_neg ht .ret))
  exact (evaluates_callFn.mpr hloop).bind ((computes_naviEnvRef env _).evaluates_bind .ret)

/-- What an evaluation leaves at an address. -/
theorem returns_of_naviEvalRun_objs {a : Addr} {c : NaviType × Data}
    (hv : (naviEvalRun X (n + 1) e env w).value? = some v)
    (hc : (naviEvalRun X (n + 1) e env w).final.map (fun w => w.objs a) = some (some c)) :
    ∃ w', (worldSemantics X).Returns (.naviEval e env) w (.ok v w') ∧ w'.objs a = some c := by
  obtain ⟨w', hw'⟩ := Res.value?_eq_some.mp hv
  refine ⟨w', Semantics.returns_of_runFn hw' nofun, ?_⟩
  rw [hw'] at hc
  exact Option.some.inj hc

end NaviScheme
