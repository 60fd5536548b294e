import NaviScheme.Eval.Run

/-!
# Programs that only read

What can be said of a world before a run from what the run comes to: the parts of a function
that only read (`NaviScheme.Inspects`) have returned, and have left the world as it was, when
the run does not fail.
-/

namespace NaviScheme

open Prog

variable {α β : Type} {F : FnSig} {w w' : World} {X : Externals}

/-- A program that only reads: it returns and leaves the world as it is, or it fails. -/
def Inspects (p : Prog evalOps F α) : Prop :=
  ∀ w, (∃ a, Computes p w a w) ∨ ∃ φ, ∀ calls, runWith World.step calls p w = .fault φ

namespace Inspects

variable {p : Prog evalOps F α} {g : α → Prog evalOps F β}

theorem ret (a : α) : Inspects (pure a : Prog evalOps F α) := fun _ => .inl ⟨a, Computes.ret a⟩

theorem fail (φ : Fault) : Inspects (fail φ : Prog evalOps F α) := fun _ => .inr ⟨φ, fun _ => rfl⟩

theorem bind (hp : Inspects p) (hg : ∀ a, Inspects (g a)) : Inspects (p >>= g) := by
  intro w
  obtain ⟨a, ha⟩ | ⟨φ, hφ⟩ := hp w
  · obtain ⟨b, hb⟩ | ⟨φ, hφ⟩ := hg a w
    · exact .inl ⟨b, ha.bind hb⟩
    · refine .inr ⟨φ, fun calls => ?_⟩
      rw [runWith_bind, ha calls]
      exact hφ calls
  · refine .inr ⟨φ, fun calls => ?_⟩
    rw [runWith_bind, hφ calls]

/-- An operation that reads. -/
theorem perform {o : EvalOp} (h : ∀ w r w', World.step o w = .ok (r, w') → w' = w) :
    Inspects (perform o : Prog evalOps F o.Reply) := by
  intro w
  cases hstep : World.step o w with
  | ok r =>
    obtain ⟨v, w'⟩ := r
    obtain rfl : w' = w := h w v w' hstep
    exact .inl ⟨v, Computes.perform hstep⟩
  | error φ =>
    refine .inr ⟨φ, fun calls => ?_⟩
    rw [NaviScheme.perform, runWith, hstep]

/-- What a run that does not fail does after reading. -/
theorem run_of_bind {n : ℕ} {p : Code α} {g : α → Code β} {r : Res Fault EvalExn World β}
    (hp : Inspects p) (h : (worldSemantics X).run n (p >>= g) w = r) (hr : ∀ φ, r ≠ .fault φ) :
    ∃ a, Computes p w a w ∧ (worldSemantics X).run n (g a) w = r := by
  rw [Semantics.run, runWith_bind] at h
  obtain ⟨a, ha⟩ | ⟨φ, hφ⟩ := hp w
  · refine ⟨a, ha, ?_⟩
    have hrun : runWith (worldSemantics X).step ((worldSemantics X).calls n) p w = .ok a w := ha _
    rwa [hrun] at h
  · have hrun : runWith (worldSemantics X).step ((worldSemantics X).calls n) p w = .fault φ := hφ _
    rw [hrun] at h
    exact absurd h.symm (hr φ)

/-- What a program that does not fail does after reading. -/
theorem of_bind {p : Code α} {g : α → Code β} {r : Res Fault EvalExn World β} (hp : Inspects p)
    (h : (worldSemantics X).Evaluates (p >>= g) w r) (hr : ∀ φ, r ≠ .fault φ) :
    ∃ a, Computes p w a w ∧ (worldSemantics X).Evaluates (g a) w r := by
  obtain ⟨hne, n, hn⟩ := h
  obtain ⟨a, ha, hg⟩ := hp.run_of_bind hn hr
  exact ⟨a, ha, hne, n, hg⟩

end Inspects

/-- What is read first, of what is computed. -/
theorem Computes.of_bind_inspects {p : Prog evalOps F α} {g : α → Prog evalOps F β} {b : β}
    (hp : Inspects p) (h : Computes (p >>= g) w b w') :
    ∃ a, Computes p w a w ∧ Computes (g a) w b w' := by
  obtain ⟨a, ha⟩ | ⟨φ, hφ⟩ := hp w
  · refine ⟨a, ha, fun calls => ?_⟩
    have hrun := h calls
    rwa [runWith_bind, ha calls] at hrun
  · have hrun := h fun _ _ _ => .timeout
    rw [runWith_bind, hφ] at hrun
    cases hrun

theorem not_computes_fail {φ : Fault} {a : α} :
    ¬ Computes (fail φ : Prog evalOps F α) w a w' := by
  intro h
  cases h fun _ _ _ => .timeout

theorem Computes.ret_inv {a b : α} (h : Computes (pure a : Prog evalOps F α) w b w') :
    b = a ∧ w' = w := by
  have hrun := h fun _ _ _ => .timeout
  rw [pure_eq, runWith] at hrun
  cases hrun
  exact ⟨rfl, rfl⟩

theorem Computes.perform_inv {o : EvalOp} {r : o.Reply}
    (h : Computes (NaviScheme.perform o : Prog evalOps F o.Reply) w r w') : World.step o w = .ok (r, w') := by
  have hrun := h fun _ _ _ => .timeout
  rw [NaviScheme.perform, runWith] at hrun
  cases hstep : World.step o w with
  | ok p =>
    rw [hstep] at hrun
    cases hrun
    rfl
  | error φ =>
    rw [hstep] at hrun
    cases hrun

/-- The run of a program without calls. -/
theorem computes_iff_runLeaf {p : Leaf α} {a : α} :
    Computes p w a w' ↔ runLeaf World.step p w = .ok a w' := by
  refine ⟨fun h => h _, fun h calls => ?_⟩
  obtain rfl : calls = fun f => Empty.elim f := funext fun f => Empty.elim f
  exact h

/-- A function that returns has not raised an error. -/
theorem computes_of_leaf {env : NaviEnv} {p : Leaf α} {a : α}
    (h : (worldSemantics X).Evaluates (leaf env p) w (.ok a w')) : Computes p w a w' :=
  computes_iff_runLeaf.mpr (runLeaf_of_evaluates h)

/-- What a run does after a part that calls no function. -/
theorem Computes.run_bind {p : Code α} {g : α → Code β} {a : α}
    (h : Computes p w a w') (n : ℕ) :
    (worldSemantics X).run n (p >>= g) w = (worldSemantics X).run n (g a) w' := by
  have hrun : (worldSemantics X).run n p w = .ok a w' := h _
  rw [Semantics.run, runWith_bind, ← Semantics.run, hrun]
  rfl

/-- A program that returns, in two parts. -/
theorem run_bind_ok {n : ℕ} {p : Code α} {g : α → Code β} {b : β}
    (h : (worldSemantics X).run n (p >>= g) w = .ok b w') :
    ∃ a w₁, (worldSemantics X).run n p w = .ok a w₁ ∧
      (worldSemantics X).run n (g a) w₁ = .ok b w' := by
  obtain h | ⟨_, _, -, heq⟩ | ⟨_, -, heq⟩ := Semantics.run_bind_inv h nofun
  · exact h
  · cases heq
  · cases heq

theorem run_ite {n : ℕ} {c : Prop} [Decidable c] {p q : Code α} {r : Res Fault EvalExn World α}
    (h : (worldSemantics X).run n (if c then p else q) w = r) :
    c ∧ (worldSemantics X).run n p w = r ∨ ¬ c ∧ (worldSemantics X).run n q w = r := by
  split_ifs at h with hc
  · exact .inl ⟨hc, h⟩
  · exact .inr ⟨hc, h⟩

theorem evaluates_ite_neg {c : Prop} [Decidable c] {p q : Code α}
    {r : Res Fault EvalExn World α} (hc : ¬ c) (h : (worldSemantics X).Evaluates q w r) :
    (worldSemantics X).Evaluates (if c then p else q) w r := by
  rwa [if_neg hc]

/-- A call that returns. -/
theorem run_callFn_ok {n : ℕ} {f : EvalFn} {objs : List NaviObj} {scopes : List ScopeAddr}
    {a : f.Ret}
    (h : (worldSemantics X).run n (callFn f objs scopes) w = .ok a w') :
    ∃ m, n = m + 1 ∧ (worldSemantics X).run m (evalBody X f) w = .ok a w' := by
  have hrun := (run_callFn n w).symm.trans h
  cases n with
  | zero => cases hrun
  | succ n => exact ⟨n, rfl, hrun⟩

/-- What `navi_eval` comes to when calls nest at most `n` deep. -/
def naviEvalRun (X : Externals) (n : ℕ) (e : NaviObj) (env : NaviEnv) (w : World) :
    Res Fault EvalExn World NaviObj :=
  (worldSemantics X).runFn n (.naviEval e env) w

theorem returns_of_naviEvalRun {n : ℕ} {e v : NaviObj} {env : NaviEnv}
    (h : (naviEvalRun X (n + 1) e env w).value? = some v) :
    ∃ w', (worldSemantics X).Returns (.naviEval e env) w (.ok v w') :=
  Semantics.returns_of_value? h

theorem returns_exn_of_naviEvalRun {n : ℕ} {e : NaviObj} {env : NaviEnv} {x : EvalExn}
    (h : (naviEvalRun X (n + 1) e env w).exn? = some x) :
    ∃ w', (worldSemantics X).Returns (.naviEval e env) w (.exn x w') :=
  Semantics.returns_of_exn? h

/-! ### Pairs and lists -/

section Pairs

variable {o a : NaviObj} {b : Bool}

theorem inspects_load (o : NaviObj) : Inspects (load o : Prog evalOps F _) := by
  refine Inspects.perform fun w r w' h => ?_
  change (w.load o).map (·, w) = _ at h
  cases hload : w.load o with
  | ok c =>
    rw [hload] at h
    cases h
    rfl
  | error φ =>
    rw [hload] at h
    cases h

theorem inspects_walk (o : NaviObj) : Inspects (walk o : Prog evalOps F _) := by
  refine Inspects.perform fun w r w' h => ?_
  change (w.walk (w.nextObj + 1) o).map (·, w) = _ at h
  cases hwalk : w.walk (w.nextObj + 1) o with
  | ok c =>
    rw [hwalk] at h
    cases h
    rfl
  | error φ =>
    rw [hwalk] at h
    cases h

theorem inspects_naviListLength (o : NaviObj) : Inspects (naviListLength o : Prog evalOps F _) :=
  (inspects_walk o).bind fun _ => Inspects.ret _

theorem load_of_computes {c : NaviType × Data} (h : Computes (load o : Prog evalOps F _) w c w) :
    w.load o = .ok c := by
  have hstep := h.perform_inv
  change (w.load o).map (·, w) = _ at hstep
  cases hload : w.load o with
  | ok c' =>
    rw [hload] at hstep
    cases hstep
    rfl
  | error φ =>
    rw [hload] at hstep
    cases hstep

theorem inspects_naviType (o : NaviObj) : Inspects (naviType o : Prog evalOps F _) := by
  cases o with
  | ptr a => exact (inspects_load _).bind fun _ => Inspects.ret _
  | _ => exact Inspects.ret _

theorem inspects_naviIsPair (o : NaviObj) : Inspects (naviIsPair o : Prog evalOps F _) :=
  (inspects_naviType o).bind fun _ => Inspects.ret _

theorem inspects_naviCar (o : NaviObj) : Inspects (naviCar o : Prog evalOps F _) := by
  refine (inspects_load o).bind fun c => ?_
  split
  · exact Inspects.ret _
  · exact Inspects.fail _

theorem inspects_naviCdr (o : NaviObj) : Inspects (naviCdr o : Prog evalOps F _) := by
  refine (inspects_load o).bind fun c => ?_
  split
  · exact Inspects.ret _
  · exact Inspects.fail _

theorem inspects_naviLastCons (o : NaviObj) : Inspects (naviLastCons o : Prog evalOps F _) := by
  refine (inspects_walk o).bind fun c => ?_
  dsimp only
  split
  · exact Inspects.ret _
  · exact Inspects.fail _

theorem naviType_inv {t : NaviType} (h : Computes (naviType o : Prog evalOps F _) w t w) :
    (∃ d, w.load o = .ok (t, d)) ∨ ∀ d, t ≠ .naviPair ∧ w.load o ≠ .ok d := by
  cases o with
  | ptr a =>
    obtain ⟨c, hc, hret⟩ := h.of_bind_inspects (inspects_load _)
    obtain ⟨rfl, -⟩ := hret.ret_inv
    exact .inl ⟨c.2, load_of_computes hc⟩
  | _ =>
    obtain ⟨rfl, -⟩ := Computes.ret_inv h
    exact .inr fun d => ⟨nofun, nofun⟩

/-- What `navi_is_pair` says. -/
theorem naviIsPair_inv (h : Computes (naviIsPair o : Prog evalOps F _) w b w) :
    b = true ↔ ∃ d, w.load o = .ok (.naviPair, d) := by
  obtain ⟨t, ht, hret⟩ := h.of_bind_inspects (inspects_naviType o)
  obtain ⟨rfl, -⟩ := hret.ret_inv
  rw [decide_eq_true_iff]
  obtain ⟨d, hd⟩ | hno := naviType_inv ht
  · refine ⟨fun heq => ⟨d, heq ▸ hd⟩, fun ⟨d', hd'⟩ => ?_⟩
    rw [hd] at hd'
    exact (Prod.mk.inj (Except.ok.inj hd')).1
  · exact ⟨fun heq => absurd heq (hno (.naviNil, .bytevec [])).1, fun ⟨d, hd⟩ => absurd hd (hno _).2⟩

theorem naviCar_inv (h : Computes (naviCar o : Prog evalOps F _) w a w) :
    ∃ t cdr, w.load o = .ok (t, .pair (some a) cdr) := by
  obtain ⟨⟨t, d⟩, hc, hret⟩ := h.of_bind_inspects (inspects_load _)
  have hload := load_of_computes hc
  cases d with
  | pair car cdr =>
    cases car with
    | some car =>
      obtain ⟨rfl, -⟩ := Computes.ret_inv hret
      exact ⟨t, cdr, hload⟩
    | none => exact absurd hret not_computes_fail
  | _ => exact absurd hret not_computes_fail

theorem naviCdr_inv (h : Computes (naviCdr o : Prog evalOps F _) w a w) :
    ∃ t car, w.load o = .ok (t, .pair car (some a)) := by
  obtain ⟨⟨t, d⟩, hc, hret⟩ := h.of_bind_inspects (inspects_load _)
  have hload := load_of_computes hc
  cases d with
  | pair car cdr =>
    cases cdr with
    | some cdr =>
      obtain ⟨rfl, -⟩ := Computes.ret_inv hret
      exact ⟨t, car, hload⟩
    | none => exact absurd hret not_computes_fail
  | _ => exact absurd hret not_computes_fail

/-- A walk, from its first pair. -/
theorem World.walk_inv {n : ℕ} {pairs : List NaviObj} {last : NaviObj}
    (h : w.walk n o = .ok (pairs, last)) :
    (pairs = [] ∧ last = o ∧ ∀ d, w.load o ≠ .ok (.naviPair, d)) ∨
      ∃ m car cdr ps, pairs = o :: ps ∧ w.load o = .ok (.naviPair, .pair car (some cdr)) ∧
        w.walk m cdr = .ok (ps, last) := by
  cases n with
  | zero => cases h
  | succ n =>
    cases o with
    | ptr a =>
      rw [World.walk] at h
      simp only [World.load]
      cases hobj : w.objs a with
      | none =>
        rw [hobj] at h
        cases h
      | some c =>
        obtain ⟨t, d⟩ := c
        rw [hobj] at h
        by_cases ht : t = .naviPair
        · subst ht
          cases d with
          | pair car cdr =>
            cases cdr with
            | some cdr =>
              cases hw : w.walk n cdr with
              | ok r =>
                simp only [hw, ok_bind] at h
                cases h
                exact .inr ⟨n, car, cdr, r.1, rfl, rfl, hw⟩
              | error φ =>
                simp only [hw, error_bind] at h
                cases h
            | none => cases h
          | _ => cases h
        · have hok : (.ok ([], .ptr a) : Except Fault (List NaviObj × NaviObj)) = .ok (pairs, last) := by
            rw [← h]
            cases t <;> first | rfl | exact absurd rfl ht
          cases hok
          exact .inl ⟨rfl, rfl, fun d hd => ht (Prod.mk.inj (Except.ok.inj hd)).1⟩
    | _ =>
      obtain ⟨rfl, rfl⟩ : [] = pairs ∧ _ = last := Prod.mk.inj (Except.ok.inj h)
      exact .inl ⟨rfl, rfl, fun d => by simp [World.load]⟩

/-- What ends a walk is not a pair. -/
theorem World.walk_last {n : ℕ} {pairs : List NaviObj} {last : NaviObj}
    (h : w.walk n o = .ok (pairs, last)) (d : Data) : w.load last ≠ .ok (.naviPair, d) := by
  induction pairs generalizing n o with
  | nil =>
    obtain ⟨-, rfl, hd⟩ | ⟨m, car, cdr, ps, hps, -⟩ := World.walk_inv h
    · exact hd d
    · cases hps
  | cons q pairs ih =>
    obtain ⟨hps, -⟩ | ⟨m, car, cdr, ps, hps, -, hm⟩ := World.walk_inv h
    · cases hps
    · cases hps
      exact ih hm

/-- The last pair of a walk, and what is behind it. -/
theorem World.walk_getLast {n : ℕ} {pairs : List NaviObj} {last q : NaviObj}
    (h : w.walk n o = .ok (pairs, last)) (hq : pairs.getLast? = some q) :
    ∃ car, w.load q = .ok (.naviPair, .pair car (some last)) := by
  induction pairs generalizing n o with
  | nil => cases hq
  | cons p pairs ih =>
    obtain ⟨hps, -⟩ | ⟨m, car, cdr, ps, hps, hload, hm⟩ := World.walk_inv h
    · cases hps
    · cases hps
      cases pairs with
      | nil =>
        obtain rfl : p = q := by simpa using hq
        obtain ⟨-, rfl, -⟩ | ⟨_, _, _, _, hps', -⟩ := World.walk_inv hm
        · exact ⟨car, hload⟩
        · cases hps'
      | cons p' ps => exact ih hm (by simpa using hq)

/-- The walk along a proper list. -/
theorem Spine.walk_inv {n : ℕ} {ps xs pairs : List NaviObj} {last : NaviObj} (hs : Spine w o ps xs)
    (h : w.walk n o = .ok (pairs, last)) : pairs = ps ∧ last = .nil := by
  induction hs generalizing n pairs with
  | nil =>
    obtain ⟨rfl, rfl, -⟩ | ⟨m, car, cdr, ps, -, hload, -⟩ := World.walk_inv h
    · exact ⟨rfl, rfl⟩
    · cases hload
  | cons hp ht ih =>
    obtain ⟨-, -, hno⟩ | ⟨m, car, cdr, ps, rfl, hload, hm⟩ := World.walk_inv h
    · exact absurd hp (hno _)
    · have heq := hload.symm.trans hp
      obtain rfl := (by simpa using heq : _ ∧ cdr = _).2
      obtain ⟨rfl, rfl⟩ := ih hm
      exact ⟨rfl, rfl⟩

/-- What `navi_last_cons` finds. -/
theorem naviLastCons_inv {q : NaviObj}
    (h : Computes (naviLastCons o : Prog evalOps F _) w q w) :
    ∃ n pairs last, w.walk n o = .ok (pairs, last) ∧ pairs.getLast? = some q := by
  obtain ⟨⟨pairs, last⟩, hw, hret⟩ := h.of_bind_inspects (inspects_walk o)
  have hstep := hw.perform_inv
  change (w.walk (w.nextObj + 1) o).map (·, w) = _ at hstep
  cases hwalk : w.walk (w.nextObj + 1) o with
  | ok c =>
    rw [hwalk] at hstep
    cases hstep
    dsimp only at hret
    cases hlast : pairs.getLast? with
    | some p =>
      rw [hlast] at hret
      obtain ⟨rfl, -⟩ := Computes.ret_inv hret
      exact ⟨_, pairs, last, hwalk, hlast⟩
    | none =>
      rw [hlast] at hret
      exact absurd hret not_computes_fail
  | error φ =>
    rw [hwalk] at hstep
    cases hstep

/-- Writing the second field of a pair. -/
theorem computes_naviSetCdr {t : NaviType} {car cdr : Option NaviObj} {x : Addr} (b : NaviObj)
    (h : w.load (.ptr x) = .ok (t, .pair car cdr)) :
    Computes (naviSetCdr (.ptr x) b : Prog evalOps F _) w ()
      (w.setObj x (t, .pair car (some b))) := by
  refine (computes_load h).bind (Computes.perform ?_)
  rw [World.step, h]
  rfl

/-- Reading after writing. -/
theorem World.load_setObj (w : World) (x y : Addr) (c : NaviType × Data) :
    (w.setObj x c).load (.ptr y) = if y = x then .ok c else w.load (.ptr y) := by
  by_cases hy : y = x
  · simp [World.load, World.setObj, hy]
  · simp [World.load, World.setObj, hy]

end Pairs

/-! ### Making objects -/

section Making

variable {p : NaviProcedure} {t t' : NaviType} {d : Data} {o : NaviObj}

theorem computes_naviProcedure {p : NaviProcedure} (h : w.load o = .ok (t, .proc p)) :
    Computes (naviProcedure o : Prog evalOps F _) w p w :=
  (computes_load h).bind (Computes.ret _)

theorem inspects_naviProcedure (o : NaviObj) : Inspects (naviProcedure o : Prog evalOps F _) := by
  refine (inspects_load o).bind fun c => ?_
  split
  · exact Inspects.ret _
  · exact Inspects.fail _

theorem naviProcedure_inv (h : Computes (naviProcedure o : Prog evalOps F _) w p w') :
    ∃ t, w.load o = .ok (t, .proc p) := by
  obtain ⟨⟨t, d⟩, hc, hret⟩ := h.of_bind_inspects (inspects_load _)
  cases d with
  | proc p' =>
    obtain ⟨rfl, -⟩ := Computes.ret_inv hret
    exact ⟨t, load_of_computes hc⟩
  | _ => exact absurd hret not_computes_fail

theorem computes_make (t : NaviType) (d : Data) :
    Computes (make t d : Prog evalOps F _) w (w.make t d).1 (w.make t d).2 :=
  Computes.perform rfl

theorem World.load_make : (w.make t d).2.load (w.make t d).1 = .ok (t, d) := by
  rw [World.make]
  split <;> simp [World.load, World.setObj]

theorem World.ptr_of_load {c : NaviType × Data} (h : w.load o = .ok c) : ∃ a, o = .ptr a := by
  cases o with
  | ptr a => exact ⟨a, rfl⟩
  | _ => cases h

theorem computes_retag {a : Addr} (h : w.load (.ptr a) = .ok (t, d)) :
    Computes (retag (.ptr a) t' : Prog evalOps F _) w () (w.setObj a (t', d)) := by
  refine Computes.perform ?_
  rw [World.step, h]
  rfl

/-- A world with a new bounce. -/
def World.bounced (w : World) (e : NaviObj) (env : NaviEnv) : World :=
  (w.make .naviThunk (.thunk e env)).2.setObj (.thunk w.nextThunk) (.naviBounce, .thunk e env)

theorem World.load_bounced (w : World) (e : NaviObj) (env : NaviEnv) :
    (w.bounced e env).load (.ptr (.thunk w.nextThunk)) = .ok (.naviBounce, .thunk e env) :=
  (World.load_setObj _ _ _ _).trans (if_pos rfl)

theorem computes_evalTail (w : World) (e : NaviObj) (env : NaviEnv) :
    Computes (evalTail e env) w (.ptr (.thunk w.nextThunk)) (w.bounced e env) := by
  have hthunk : Computes (naviMakeThunk e env : Code NaviObj) w (.ptr (.thunk w.nextThunk))
      (w.make .naviThunk (.thunk e env)).2 :=
    (computes_make _ _).bind (((Computes.perform (o := .scopeRef env.lexical) rfl).bind
      (Computes.perform (o := .scopeRef env.dynamic) rfl)).bind (Computes.ret _))
  exact hthunk.bind ((computes_retag World.load_make).bind (Computes.ret _))

end Making

end NaviScheme
