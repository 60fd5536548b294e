import NaviScheme.Eval.Inspect

/-!
# `and` and `or`

`and` and `or` evaluate their operands from left to right up to the first that decides, and
leave the last one to their caller. `NaviScheme.ShortCircuit` says what such a form comes to,
by what is returned for an operand that decides. For `and` this is the value of the operand.
`or` returns `#t` for it, whatever its value is, so that `or` does what it should exactly if
the value of an operand that decides before the last is `#t` (`NaviScheme.andOr_iff`).
-/

namespace NaviScheme

open Prog

variable {X : Externals} {env : NaviEnv} {w w' w₁ : World} {cons cons' e v dflt : NaviObj}
  {stop : NaviObj → Bool} {out out' : NaviObj → NaviObj} {r : Res Fault EvalExn World NaviObj}

/-! ### What the forms should come to -/

/-- `navi_force_tail`, of what a program returns. -/
def naviForceTail (p : Code NaviObj) (env : NaviEnv) : Code NaviObj := do
  let result ← p
  if (← naviType result) = .naviBounce then naviEval result env [] []
  else return result

/-- The value of an expression in tail position: it is returned as a bounce, which the caller
evaluates. -/
def tailEval (e : NaviObj) (env : NaviEnv) : Code NaviObj := do
  let bounce ← evalTail e env
  naviEval bounce env [] []

/-- **What a form comes to that evaluates its operands from left to right**, up to one with a
value at which it stops; `out` is what is returned then, and `dflt` if there are no operands. -/
inductive ShortCircuit (X : Externals) (env : NaviEnv) (stop : NaviObj → Bool)
    (out : NaviObj → NaviObj) (dflt : NaviObj) :
    World → NaviObj → Res Fault EvalExn World NaviObj → Prop
  /-- There are no operands. -/
  | done {w : World} {cons : NaviObj} (hcons : Computes (naviIsPair cons : Code Bool) w false w) :
    ShortCircuit X env stop out dflt w cons (.ok dflt w)
  /-- The last operand is what the form comes to. -/
  | last {w : World} {cons e : NaviObj} {r : Res Fault EvalExn World NaviObj}
    (hcons : IsPair w cons e .nil) (he : (worldSemantics X).Evaluates (tailEval e env) w r) :
    ShortCircuit X env stop out dflt w cons r
  /-- An operand decides: nothing is evaluated after it. -/
  | stop {w w' : World} {cons e cdr v : NaviObj} (hcons : IsPair w cons e cdr) (hcdr : cdr ≠ .nil)
    (he : (worldSemantics X).Returns (.naviEval e env) w (.ok v w')) (hv : stop v = true) :
    ShortCircuit X env stop out dflt w cons (.ok (out v) w')
  /-- An operand does not decide: the next one is evaluated. -/
  | next {w w₁ : World} {cons e cdr cdr' v : NaviObj} {r : Res Fault EvalExn World NaviObj}
    (hcons : IsPair w cons e cdr) (hcdr : cdr ≠ .nil)
    (he : (worldSemantics X).Returns (.naviEval e env) w (.ok v w₁)) (hv : stop v = false)
    (hnext : Computes (naviCdr cons : Code NaviObj) w₁ cdr' w₁)
    (hrest : ShortCircuit X env stop out dflt w₁ cdr' r) :
    ShortCircuit X env stop out dflt w cons r
  /-- An operand is left by an exception. -/
  | exn {w w' : World} {cons e cdr : NaviObj} {x : EvalExn} (hcons : IsPair w cons e cdr)
    (hcdr : cdr ≠ .nil) (he : (worldSemantics X).Returns (.naviEval e env) w (.exn x w')) :
    ShortCircuit X env stop out dflt w cons (.exn x w')

/-- An operand before the last decides, with the value `v`. -/
inductive StopsAt (X : Externals) (env : NaviEnv) (stop : NaviObj → Bool) :
    World → NaviObj → NaviObj → World → Prop
  /-- It is the first one. -/
  | here {w w' : World} {cons e cdr v : NaviObj} (hcons : IsPair w cons e cdr) (hcdr : cdr ≠ .nil)
    (he : (worldSemantics X).Returns (.naviEval e env) w (.ok v w')) (hv : stop v = true) :
    StopsAt X env stop w cons v w'
  /-- It is a later one. -/
  | later {w w₁ w' : World} {cons e cdr cdr' v v' : NaviObj} (hcons : IsPair w cons e cdr)
    (hcdr : cdr ≠ .nil) (he : (worldSemantics X).Returns (.naviEval e env) w (.ok v w₁))
    (hv : stop v = false) (hnext : Computes (naviCdr cons : Code NaviObj) w₁ cdr' w₁)
    (hrest : StopsAt X env stop w₁ cdr' v' w') :
    StopsAt X env stop w cons v' w'

/-- What is returned for an operand that decides. -/
theorem StopsAt.shortCircuit (h : StopsAt X env stop w cons v w') :
    ShortCircuit X env stop out dflt w cons (.ok (out v) w') := by
  induction h with
  | here hcons hcdr he hv => exact .stop hcons hcdr he hv
  | later hcons hcdr he hv hnext _ ih => exact .next hcons hcdr he hv hnext ih

/-- Only what is returned for the operands that decide matters. -/
theorem ShortCircuit.congr (h : ShortCircuit X env stop out dflt w cons r)
    (hout : ∀ v w', StopsAt X env stop w cons v w' → out v = out' v) :
    ShortCircuit X env stop out' dflt w cons r := by
  induction h with
  | done hcons => exact .done hcons
  | last hcons he => exact .last hcons he
  | stop hcons hcdr he hv =>
    rw [hout _ _ (.here hcons hcdr he hv)]
    exact .stop hcons hcdr he hv
  | next hcons hcdr he hv hnext _ ih =>
    exact .next hcons hcdr he hv hnext (ih fun v w' h => hout v w' (.later hcons hcdr he hv hnext h))
  | exn hcons hcdr he => exact .exn hcons hcdr he

/-! ### The loops -/

/-- The body of the loops of `and` and `or`, by where they stop, what they return then, what
they return without operands, and the next round. -/
def connective (stop : NaviObj → Bool) (c dflt : NaviObj) (again : NaviObj → Code NaviObj)
    (cons : NaviObj) (env : NaviEnv) : Code NaviObj := do
  if ← naviIsPair cons then
    if ← naviIsLastPair cons then evalTail (← naviCar cons) env
    else
      let val ← naviEval (← naviCar cons) env [cons] env.scopes
      if stop val then return c
      else again (← naviCdr cons)
  else return dflt

theorem orLoopBody_eq : orLoopBody cons env =
    connective naviIsTrue (.bool true) (.bool false) (fun cdr => callFn (.orLoop cdr env) [] []) cons
      env := rfl

theorem andLoopBody_eq : andLoopBody cons env =
    connective (fun v => !naviIsTrue v) (.bool false) (.bool true)
      (fun cdr => callFn (.andLoop cdr env) [] []) cons env := by
  unfold andLoopBody connective
  congr! 9 with isPair hPair isLast hLast car
  funext val
  by_cases hval : naviIsTrue val <;> simp [hval]

/-- A value that is not a bounce is what the form comes to. -/
theorem evaluates_naviForceTail_bool {p : Code NaviObj} {b : Bool}
    (h : (worldSemantics X).Evaluates p w (.ok (.bool b) w')) :
    (worldSemantics X).Evaluates (naviForceTail p env) w (.ok (.bool b) w') :=
  h.bind .ret

theorem evaluates_naviForceTail_exn {p : Code NaviObj} {x : EvalExn}
    (h : (worldSemantics X).Evaluates p w (.exn x w')) :
    (worldSemantics X).Evaluates (naviForceTail p env) w (.exn x w') :=
  h.bind_exn

theorem naviForceTail_congr {p p' : Code NaviObj}
    (h : ∀ r, (worldSemantics X).Evaluates p w r → (worldSemantics X).Evaluates p' w' r)
    (hp : (worldSemantics X).Evaluates (naviForceTail p env) w r) :
    (worldSemantics X).Evaluates (naviForceTail p' env) w' r :=
  hp.bind_congr h

/-- A form in tail position, forced. -/
theorem evaluates_naviForceTail_evalTail :
    (worldSemantics X).Evaluates (naviForceTail (evalTail e env) env) w r ↔
      (worldSemantics X).Evaluates (tailEval e env) w r := by
  have htail := computes_evalTail w e env
  have htype := computes_naviType (F := evalFns) (World.load_bounced w e env)
  constructor
  · intro h
    exact htail.evaluates_bind (htype.of_bind (htail.of_bind h))
  · intro h
    exact htail.evaluates_bind (htype.evaluates_bind (htail.of_bind h))

section Loop

variable {c d : Bool} {again : NaviObj → Code NaviObj}

/-- A loop each round of which is the body. -/
def Rounds (X : Externals) (env : NaviEnv) (stop : NaviObj → Bool) (c d : Bool)
    (again : NaviObj → Code NaviObj) : Prop :=
  ∀ cons w, (worldSemantics X).run 0 (again cons) w = .timeout ∧ ∀ n,
    (worldSemantics X).run (n + 1) (again cons) w =
      (worldSemantics X).run n (connective stop (.bool c) (.bool d) again cons env) w

theorem rounds_orLoop (X : Externals) (env : NaviEnv) :
    Rounds X env naviIsTrue true false fun cons => callFn (.orLoop cons env) [] [] := by
  refine fun cons w => ⟨run_callFn 0 w, fun n => ?_⟩
  exact run_callFn (n + 1) w

theorem rounds_andLoop (X : Externals) (env : NaviEnv) :
    Rounds X env (fun v => !naviIsTrue v) false true fun cons => callFn (.andLoop cons env) [] [] := by
  refine fun cons w => ⟨run_callFn 0 w, fun n => ?_⟩
  rw [← andLoopBody_eq]
  exact run_callFn (n + 1) w

/-- A round comes to what its body comes to. -/
theorem Rounds.evaluates (h : Rounds X env stop c d again)
    (hb : (worldSemantics X).Evaluates (connective stop (.bool c) (.bool d) again cons env) w r) :
    (worldSemantics X).Evaluates (again cons) w r := by
  obtain ⟨hr, n, hn⟩ := hb
  exact ⟨hr, n + 1, ((h cons w).2 n).trans hn⟩

/-- An operand before the last. -/
theorem connective_operand {cdr : NaviObj} (hcons : IsPair w cons e cdr) (hcdr : cdr ≠ .nil)
    (h : (worldSemantics X).Evaluates (do
      let val ← naviEval e env [cons] env.scopes
      if stop val then return .bool c
      else again (← naviCdr cons)) w r) :
    (worldSemantics X).Evaluates (connective stop (.bool c) (.bool d) again cons env) w r := by
  have hlast : Computes (naviIsLastPair cons : Code Bool) w false w := by
    rw [← decide_eq_false hcdr]
    exact computes_naviIsLastPair hcons
  exact (computes_naviIsPair hcons).evaluates_bind (hlast.evaluates_bind
    ((computes_naviCar hcons).evaluates_bind h))

/-- **What the form comes to is what the loop comes to**, its last operand being forced. -/
theorem ShortCircuit.evaluates (hrounds : Rounds X env stop c d again)
    (h : ShortCircuit X env stop (fun _ => .bool c) (.bool d) w cons r) :
    (worldSemantics X).Evaluates (naviForceTail (again cons) env) w r := by
  refine naviForceTail_congr (fun q => hrounds.evaluates) ?_
  induction h with
  | done hcons => exact evaluates_naviForceTail_bool (hcons.evaluates_bind .ret)
  | @last w cons e r hcons he =>
    have hpair := computes_naviIsPair (F := evalFns) hcons
    have hlast : Computes (naviIsLastPair cons : Code Bool) w true w := computes_naviIsLastPair hcons
    refine naviForceTail_congr (fun q hq => ?_) (evaluates_naviForceTail_evalTail.mpr he)
    exact hpair.evaluates_bind (hlast.evaluates_bind ((computes_naviCar hcons).evaluates_bind hq))
  | @stop w w' cons e cdr v hcons hcdr he hv =>
    refine evaluates_naviForceTail_bool (connective_operand hcons hcdr ?_)
    refine (evaluates_callFn.mpr he).bind ?_
    rw [if_pos hv]
    exact .ret
  | @next w w₁ cons e cdr cdr' v r hcons hcdr he hv hnext _ ih =>
    refine naviForceTail_congr (fun q hq => connective_operand hcons hcdr ?_)
      (naviForceTail_congr (fun q => hrounds.evaluates) ih)
    refine (evaluates_callFn.mpr he).bind ?_
    rw [if_neg (by simp [hv])]
    exact hnext.evaluates_bind hq
  | exn hcons hcdr he =>
    refine evaluates_naviForceTail_exn (connective_operand hcons hcdr ?_)
    exact (evaluates_callFn.mpr he).bind_exn

/-- What is left to do when a loop has come to `q`: forcing it. -/
def Forced (X : Externals) (env : NaviEnv) :
    Res Fault EvalExn World NaviObj → Res Fault EvalExn World NaviObj → Prop
  | .ok a w', r => (worldSemantics X).Evaluates (naviForceTail (pure a) env) w' r
  | .exn x w', r => r = .exn x w'
  | _, _ => False

/-- What a loop comes to that is forced and does not fail. -/
theorem forced_of_evaluates {p : Code NaviObj} (hr : ∀ φ, r ≠ .fault φ)
    (h : (worldSemantics X).Evaluates (naviForceTail p env) w r) :
    ∃ n, Forced X env ((worldSemantics X).run n p w) r := by
  obtain ⟨a, w', ⟨-, n, hn⟩, ha⟩ | ⟨x, w', ⟨-, n, hn⟩, rfl⟩ | ⟨φ, -, rfl⟩ := h.bind_inv
  · exact ⟨n, by rwa [hn]⟩
  · exact ⟨n, by rw [hn]; rfl⟩
  · exact absurd rfl (hr φ)

theorem Forced.bool {b : Bool} (h : Forced X env (.ok (.bool b) w) r) : r = .ok (.bool b) w := by
  have hforce : (worldSemantics X).Evaluates (naviForceTail (pure (.bool b)) env) w r := h
  exact hforce.unique (evaluates_naviForceTail_bool .ret)

theorem Forced.ne_fault {q : Res Fault EvalExn World NaviObj} (h : Forced X env q r) (φ : Fault) :
    q ≠ .fault φ := by
  rintro rfl
  exact h

theorem Forced.ne_timeout {q : Res Fault EvalExn World NaviObj} (h : Forced X env q r) :
    q ≠ .timeout := by
  rintro rfl
  exact h

/-- The pair with the operand that a round evaluates. -/
theorem isPair_of_reads {cdr : NaviObj} (hpair : Computes (naviIsPair cons : Code Bool) w true w)
    (hcdr : Computes (naviCdr cons : Code NaviObj) w cdr w)
    (hcar : Computes (naviCar cons : Code NaviObj) w e w) : IsPair w cons e cdr := by
  obtain ⟨d, hd⟩ := (naviIsPair_inv hpair).mp rfl
  obtain ⟨t, car, hload⟩ := naviCdr_inv hcdr
  obtain ⟨t', cdr', hload'⟩ := naviCar_inv hcar
  rw [hload] at hd hload'
  cases hd
  cases hload'
  exact hload

/-- **What the loop comes to is what the form comes to.** The induction is on how deep its
calls nest. -/
theorem Forced.shortCircuit (hrounds : Rounds X env stop c d again) {n : ℕ}
    (h : Forced X env ((worldSemantics X).run n (again cons) w) r) :
    ShortCircuit X env stop (fun _ => .bool c) (.bool d) w cons r := by
  induction n generalizing cons w with
  | zero => exact absurd (hrounds cons w).1 h.ne_timeout
  | succ n ih =>
    obtain ⟨q, hq⟩ : ∃ q, (worldSemantics X).run (n + 1) (again cons) w = q := ⟨_, rfl⟩
    rw [hq] at h
    rw [(hrounds cons w).2 n, connective] at hq
    obtain ⟨isPair, hpair, hq⟩ := (inspects_naviIsPair cons).run_of_bind hq h.ne_fault
    cases isPair with
    | false =>
      obtain rfl : .ok (.bool d) w = q := hq
      obtain rfl := h.bool
      exact .done hpair
    | true =>
      have hlast : Inspects (naviIsLastPair cons : Code Bool) :=
        (inspects_naviCdr cons).bind fun _ => Inspects.ret _
      rw [if_pos rfl] at hq
      obtain ⟨isLast, hisLast, hq⟩ := hlast.run_of_bind hq h.ne_fault
      obtain ⟨cdr, hcdr, hret⟩ := hisLast.of_bind_inspects (inspects_naviCdr cons)
      obtain ⟨rfl, -⟩ := hret.ret_inv
      split_ifs at hq with hnil
      · obtain ⟨e, hcar, hq⟩ := (inspects_naviCar cons).run_of_bind hq h.ne_fault
        have hcons := isPair_of_reads hpair hcdr hcar
        rw [of_decide_eq_true hnil] at hcons
        obtain rfl := (computes_evalTail w e env _).symm.trans hq
        exact .last hcons (evaluates_naviForceTail_evalTail.mp ((computes_evalTail w e env).evaluates_bind h))
      · obtain ⟨e, hcar, hq⟩ := (inspects_naviCar cons).run_of_bind hq h.ne_fault
        have hcons := isPair_of_reads hpair hcdr hcar
        replace hcdr : cdr ≠ .nil := fun heq => hnil (decide_eq_true heq)
        obtain ⟨v, w₁, hv, hq⟩ | ⟨x, w', hx, rfl⟩ | ⟨φ, -, rfl⟩ :=
          Semantics.run_bind_inv hq h.ne_timeout
        · have he : (worldSemantics X).Returns (.naviEval e env) w (.ok v w₁) :=
            evaluates_callFn.mp ⟨nofun, n, hv⟩
          cases hstop : stop v with
          | true =>
            rw [if_pos hstop] at hq
            obtain rfl : .ok (.bool c) w₁ = q := hq
            obtain rfl := h.bool
            exact .stop hcons hcdr he hstop
          | false =>
            rw [if_neg (by simp [hstop])] at hq
            obtain ⟨cdr', hnext, hq⟩ := (inspects_naviCdr cons).run_of_bind hq h.ne_fault
            exact .next hcons hcdr he hstop hnext (ih (by rwa [hq]))
        · obtain rfl : r = .exn x w' := h
          exact .exn hcons hcdr (evaluates_callFn.mp ⟨nofun, n, hx⟩)
        · exact absurd rfl (h.ne_fault φ)

/-- What a form comes to whose rounds are these, and that does not fail. -/
theorem Rounds.evaluates_iff (hrounds : Rounds X env stop c d again) (hr : ∀ φ, r ≠ .fault φ) :
    (worldSemantics X).Evaluates (naviForceTail (again cons) env) w r ↔
      ShortCircuit X env stop (fun _ => .bool c) (.bool d) w cons r := by
  refine ⟨fun h => ?_, fun h => h.evaluates hrounds⟩
  obtain ⟨n, hn⟩ := forced_of_evaluates hr h
  exact hn.shortCircuit hrounds

end Loop

/-! ### `and` and `or` -/

section Forms

variable {n : ℕ} {args : NaviObj}

/-- What an `and` form comes to: it stops at `#f`, and returns that. -/
theorem evaluates_scmAnd (hr : ∀ φ, r ≠ .fault φ) :
    (worldSemantics X).Evaluates (naviForceTail (cProcBody X .scmAnd n args env) env) w r ↔
      ShortCircuit X env (fun v => !naviIsTrue v) (fun _ => .bool false) (.bool true) w args r :=
  (rounds_andLoop X env).evaluates_iff hr

/-- What an `or` form comes to: it returns `#t` for the operand at which it stops. -/
theorem evaluates_scmOr (hr : ∀ φ, r ≠ .fault φ) :
    (worldSemantics X).Evaluates (naviForceTail (cProcBody X .scmOr n args env) env) w r ↔
      ShortCircuit X env naviIsTrue (fun _ => .bool true) (.bool false) w args r :=
  (rounds_orLoop X env).evaluates_iff hr

/-- The value of the operand at which `and` stops is `#f`. -/
theorem StopsAt.eq_false (h : StopsAt X env (fun v => !naviIsTrue v) w args v w') :
    v = .bool false := by
  induction h with
  | @here _ _ _ _ _ v _ _ _ hv =>
    cases v with
    | bool b => cases b <;> simp_all [naviIsTrue]
    | _ => cases hv
  | later _ _ _ _ _ _ ih => exact ih

/-- **`and` and `or` return the value of the operand that decides exactly if**, whenever `or`
stops before its last operand, that value is `#t`. -/
theorem andOr_iff (X : Externals) (env : NaviEnv) (w : World) (n : ℕ) (args : NaviObj) :
    ((∀ r, (∀ φ, r ≠ .fault φ) →
      ((worldSemantics X).Evaluates (naviForceTail (cProcBody X .scmAnd n args env) env) w r ↔
        ShortCircuit X env (fun v => !naviIsTrue v) id (.bool true) w args r)) ∧
    ∀ r, (∀ φ, r ≠ .fault φ) →
      ((worldSemantics X).Evaluates (naviForceTail (cProcBody X .scmOr n args env) env) w r ↔
        ShortCircuit X env naviIsTrue id (.bool false) w args r)) ↔
    ∀ v w', StopsAt X env naviIsTrue w args v w' → v = .bool true := by
  constructor
  · rintro ⟨-, hor⟩ v w' hstop
    have hv := (hor (.ok v w') nofun).mpr hstop.shortCircuit
    have htrue : (worldSemantics X).Evaluates (naviForceTail (cProcBody X .scmOr n args env) env) w
        (.ok (.bool true) w') := (evaluates_scmOr fun _ => by simp).mpr hstop.shortCircuit
    exact (Res.ok.inj (hv.unique htrue)).1
  · intro hstop
    refine ⟨fun r hr => (evaluates_scmAnd hr).trans ⟨fun h => ?_, fun h => ?_⟩,
      fun r hr => (evaluates_scmOr hr).trans ⟨fun h => ?_, fun h => ?_⟩⟩
    · exact h.congr fun v w' hv => hv.eq_false.symm
    · exact h.congr fun v w' hv => hv.eq_false
    · exact h.congr fun v w' hv => (hstop v w' hv).symm
    · exact h.congr hstop

/-- A world with `or` and the form `(or 5 6)`. -/
def orWorld : World :=
  let o (n : ℕ) : NaviObj := .ptr (.obj n)
  .ofCells
    [(.naviSymbol, .symbol "or" true),
      (.naviSpecial, .proc ⟨true, 0, o 0, 0, .void, .cProc .scmOr, none⟩),
      -- (6), (5 6), (or 5 6)
      (.naviPair, .pair (some (.fixnum 6)) (some .nil)),
      (.naviPair, .pair (some (.fixnum 5)) (some (o 2))),
      (.naviPair, .pair (some (o 0)) (some (o 3)))]
    [("or", 0)] [⟨none, [⟨o 0, o 1⟩]⟩, ⟨none, []⟩] []

/-- **`(or 5 6)` comes to `#t`**, though its first operand decides and its value is `5`. -/
theorem not_or_five :
    (∃ w', StopsAt noExternals ⟨0, 1⟩ naviIsTrue orWorld (.ptr (.obj 3)) (.fixnum 5) w') ∧
    ∃ w', (worldSemantics noExternals).Returns (.naviEval (.ptr (.obj 4)) ⟨0, 1⟩) orWorld
      (.ok (.bool true) w') := by
  obtain ⟨w', hw'⟩ : ∃ w', (worldSemantics noExternals).Returns (.naviEval (.fixnum 5) ⟨0, 1⟩)
      orWorld (.ok (.fixnum 5) w') := returns_of_naviEvalRun (n := 19) (by decide)
  exact ⟨⟨w', .here (isPair_ptr.mpr rfl) nofun hw' rfl⟩,
    returns_of_naviEvalRun (n := 19) (by decide)⟩

end Forms

end NaviScheme
