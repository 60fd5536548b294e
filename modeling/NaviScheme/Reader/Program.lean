import NaviScheme.Reader.Termination

/-!
# Running a source text

`program` of `navii.c` and `navi_load` of `eval.c` read a text and evaluate what they read. Here
the reader is that of the modules before, and the evaluator may be any function that has a
state of its own (`NaviScheme.Evaluator`), so that the value of an expression may depend on all
that has been evaluated before it. (`NaviScheme.naviLoadBody` is `navi_load` with the evaluator
of this interpreter, and a reader that is left open.)

`navi_load` stops at the end of the text, and `program` when the *value* of an expression is
the end-of-file object. So they evaluate the same if and only if no expression but the last
one has that value (`NaviScheme.runsText_iff`).
-/

namespace NaviScheme

open Fuel

/-- An evaluator, with the states and the errors that it has. -/
structure Evaluator (σ ε ν : Type) where
  /-- `navi_eval` -/
  naviEval : Datum → StateT σ (Except ε) ν
  /-- `navi_is_eof`, of a value -/
  isEof : ν → Bool
  /-- The end-of-file object evaluates to itself. -/
  naviEval_eof : ∀ s, ∃ v s', naviEval .eof s = .ok (v, s') ∧ isEof v = true

/-- How a run is left. -/
inductive RunExn (ε : Type)
  /-- by the reader -/
  | read (e : ReadExn)
  /-- by the evaluator -/
  | eval (e : ε)

/-- The state of a run. -/
structure RunState (σ : Type) where
  /-- the port on the text -/
  port : Port
  /-- the state of the evaluator -/
  state : σ
  /-- what has been evaluated; no function reads it -/
  log : List Datum

/-- A function that reads and evaluates. -/
abbrev RunM (σ ε : Type) := StateT (RunState σ) (Except (RunExn ε))

section Source

variable {σ ε ν : Type} (X : ReadEnv) (E : Evaluator σ ε ν)

/-- `navi_read` -/
def readDatum (n : ℕ) : RunM σ ε Datum := fun r =>
  match naviRead X n r.port with
  | .ok (d, p) => .ok (d, { r with port := p })
  | .error e => .error (.read e)

/-- `navi_eval` -/
def evalDatum (d : Datum) : RunM σ ε ν := fun r =>
  match E.naviEval d r.state with
  | .ok (v, s) => .ok (v, { r with state := s, log := r.log ++ [d] })
  | .error e => .error (.eval e)

/-- The loop of `program`. -/
def program : ℕ → RunM σ ε Unit
  | 0 => throw (.read (.fault .timeout))
  | n + 1 => do
    let expr ← readDatum X n
    let value ← evalDatum E expr
    if E.isEof value then return () else program n

/-- `navi_close_input_port` -/
def closeInputPort : RunM σ ε Unit :=
  modify fun r => { r with port := { r.port with inputClosed := true } }

/-- The loop of `navi_load`; what it returns is evaluated by the caller. -/
def loadLoop : ℕ → Datum → RunM σ ε Datum
  | 0, _ => throw (.read (.fault .timeout))
  | n + 1, fst => do
    let snd ← readDatum X n
    if snd.isEof then do
      closeInputPort
      return fst
    else do
      let _ ← evalDatum E fst
      loadLoop n snd

/-- `navi_load`, of a port that has been opened on the file: a bounce, or void. -/
def naviLoad (ci : Bool) (n : ℕ) : RunM σ ε (Option Datum) := do
  modify fun r => { r with port := { r.port with foldCase := ci } }
  let fst ← readDatum X n
  -- special case: if the file is empty, return void and not #!eof
  if fst.isEof then do
    closeInputPort
    return none
  else do
    let fst ← loadLoop X E n fst
    return some fst

/-- `navi_force_tail` -/
def forceTail : Option Datum → RunM σ ε (Option ν)
  | none => return none
  | some expr => do
    let value ← evalDatum E expr
    return some value

/-- `navi_load`, and then the evaluation of the bounce that it returns. -/
def naviLoadForced (ci : Bool) (n : ℕ) : RunM σ ε (Option ν) := do
  let bounce ← naviLoad X E ci n
  forceTail E bounce

end Source

/-! ### Texts -/

/-- The data of a text, and the port behind them. At the end of the text, and not before, the
reader returns the end-of-file object. -/
inductive HoldsData (X : ReadEnv) : Port → List Datum → Port → Prop
  | done {p p' : Port} {d : Datum} (h : Converges (naviRead X) p (.ok (d, p')))
    (heof : d.isEof = true) (hend : p'.Has []) : HoldsData X p [] p'
  | datum {p p' q : Port} {d : Datum} {ds : List Datum}
    (h : Converges (naviRead X) p (.ok (d, p'))) (heof : d.isEof = false)
    (hds : HoldsData X p' ds q) : HoldsData X p (d :: ds) q

/-- Data that evaluate without an error one after another, and their values. -/
inductive Evals {σ ε ν : Type} (E : Evaluator σ ε ν) : List Datum → σ → List ν → σ → Prop
  | nil {s : σ} : Evals E [] s [] s
  | cons {d : Datum} {ds : List Datum} {s s' s'' : σ} {v : ν} {vs : List ν}
    (h : E.naviEval d s = .ok (v, s')) (hds : Evals E ds s' vs s'') :
    Evals E (d :: ds) s (v :: vs) s''

/-- No datum is left. -/
def Finished (X : ReadEnv) (p : Port) : Prop :=
  ∀ d q, Converges (naviRead X) p (.ok (d, q)) → d.isEof = true

/-- What has been evaluated, but for the object at the end of the file. -/
def RunState.evaluated {σ : Type} (r : RunState σ) : List Datum := r.log.filter fun d => !d.isEof

variable {X : ReadEnv} {σ ε ν : Type} {E : Evaluator σ ε ν} {p q : Port} {d : Datum}
  {ds : List Datum} {s s' : σ} {v : ν} {vs : List ν} {r : RunState σ}

theorem eq_eof_of_isEof (h : d.isEof = true) : d = .eof := by
  cases d with
  | eof => rfl
  | _ => cases h

theorem Evals.length_eq (h : Evals E ds s vs s') : ds.length = vs.length := by
  induction h with
  | nil => rfl
  | cons _ _ ih => simp [ih]

theorem HoldsData.isEof_eq (h : HoldsData X p ds q) : ∀ d ∈ ds, d.isEof = false := by
  induction h with
  | done => exact fun _ h => nomatch h
  | datum _ heof _ ih => exact List.forall_mem_cons.2 ⟨heof, ih⟩

theorem Port.Has.finished (h : p.Has []) : Finished X p := by
  intro d q hread
  have hread' := hread.of_succ
  simp only [naviRead_succ] at hread'
  obtain ⟨r, hr, hhead⟩ := halts_readHead h
  rcases r with e | ⟨next, p'⟩
  · cases (hr.bind_error (g := fun next n => readNext X n next)).unique hread'
  · rcases hhead with ⟨es, -, -, hlt⟩ | ⟨rfl, -, -⟩
    · exact absurd hlt (Nat.not_lt_zero _)
    · cases (hr.bind (g := fun next n => readNext X n next) (Converges.const rfl)).unique hread'
      rfl

theorem HoldsData.finished (h : HoldsData X p [] q) : Finished X p := by
  cases h with
  | done h heof =>
    intro d q hread
    cases h.unique hread
    exact heof

/-! ### One step -/

theorem converges_readDatum (h : Converges (naviRead X) r.port (.ok (d, p))) :
    Converges (readDatum X : ℕ → RunM σ ε Datum) r (.ok (d, { r with port := p })) := by
  obtain ⟨N, hN⟩ := h
  refine ⟨N, fun n hn => ?_⟩
  rw [readDatum, hN n hn]

theorem evalDatum_eq (h : E.naviEval d r.state = .ok (v, s)) :
    evalDatum E d r = .ok (v, { r with state := s, log := r.log ++ [d] }) := by
  rw [evalDatum, h]

/-- A round of `program`. -/
theorem converges_program_round {res : Except (RunExn ε) (Unit × RunState σ)}
    (hread : Converges (naviRead X) r.port (.ok (d, p)))
    (heval : E.naviEval d r.state = .ok (v, s))
    (hrest : Converges (fun n => if E.isEof v then return () else program X E n)
      ⟨p, s, r.log ++ [d]⟩ res) :
    Converges (program X E) r res := by
  refine .succ ?_
  simp only [program]
  exact (converges_readDatum hread).bind
    ((Converges.const (evalDatum_eq (r := ⟨p, r.state, r.log⟩) heval)).bind hrest)

/-! ### `program` -/

/-- The data that `program` evaluates, given those of the text and their values. -/
def programData (E : Evaluator σ ε ν) : List Datum → List ν → List Datum
  | d :: ds, v :: vs => d :: if E.isEof v then [] else programData E ds vs
  | _, _ => []

theorem programData_eq_iff (h : ds.length = vs.length) :
    programData E ds vs = ds ↔ ∀ v ∈ vs.dropLast, E.isEof v = false := by
  induction ds generalizing vs with
  | nil =>
    obtain rfl : vs = [] := List.length_eq_zero_iff.mp h.symm
    simp [programData]
  | cons d ds ih =>
    obtain ⟨v, vs, rfl⟩ : ∃ v vs', vs = v :: vs' := List.exists_cons_of_length_pos (by simp [← h])
    have hlen : ds.length = vs.length := by simpa using h
    rw [programData, List.cons_inj_right]
    rcases vs with - | ⟨v', vs⟩
    · obtain rfl : ds = [] := List.length_eq_zero_iff.mp hlen
      simp [programData]
    · rw [List.dropLast_cons_cons, List.forall_mem_cons, ← ih hlen]
      cases hv : E.isEof v with
      | false => simp
      | true =>
        have hne : ds ≠ [] := by
          rintro rfl
          simp at hlen
        simp [hne.symm]

/-- What `program` does with a text. -/
theorem converges_program (hd : HoldsData X p ds q) : ∀ {s : σ} {vs : List ν} (log : List Datum),
    Evals E ds s vs s' → ∃ r, Converges (program X E) ⟨p, s, log⟩ (.ok ((), r)) ∧
      r.evaluated = log.filter (fun d => !d.isEof) ++ programData E ds vs ∧
      (programData E ds vs = ds → Finished X r.port) := by
  induction hd with
  | @done p p' d h heof hend =>
    intro s vs log he
    cases he
    obtain rfl := eq_eof_of_isEof heof
    obtain ⟨v, t, hv, hveof⟩ := E.naviEval_eof s'
    refine ⟨⟨p', t, log ++ [.eof]⟩, converges_program_round h hv ?_, ?_, fun _ => hend.finished⟩
    · simp only [if_pos hveof]
      exact Converges.const rfl
    · simp [RunState.evaluated, programData, Datum.isEof]
  | @datum p p' q d ds h heof hds ih =>
    intro s vs log he
    cases he with
    | @cons _ _ _ s₁ _ v vs hv he =>
    by_cases hveof : E.isEof v = true
    · refine ⟨⟨p', s₁, log ++ [d]⟩, converges_program_round h hv ?_, ?_, fun hall => ?_⟩
      · simp only [if_pos hveof]
        exact Converges.const rfl
      · simp [RunState.evaluated, programData, hveof, heof]
      · rw [programData, if_pos hveof, List.cons_inj_right] at hall
        rw [← hall] at hds
        exact hds.finished
    · obtain ⟨r, hr, hlog, hfin⟩ := ih (log ++ [d]) he
      refine ⟨r, converges_program_round h hv ?_, ?_, fun hall => hfin ?_⟩
      · simp only [if_neg hveof]
        exact hr
      · rw [hlog, programData, if_neg hveof]
        simp [heof]
      · rw [programData, if_neg hveof, List.cons_inj_right] at hall
        exact hall

/-! ### `navi_load` -/

/-- What the loop of `navi_load` does behind a first datum, and its caller then. -/
theorem converges_loadLoop (hd : HoldsData X p ds q) : ∀ {s : σ} {vs : List ν} {fst : Datum}
    (log : List Datum), Evals E (fst :: ds) s vs s' →
      ∃ o r, Converges (fun n => loadLoop X E n fst >>= fun d => forceTail E (some d)) ⟨p, s, log⟩
        (.ok (o, r)) ∧ r.log = log ++ fst :: ds := by
  induction hd with
  | @done p p' d h heof hend =>
    intro s vs fst log he
    cases he with
    | @cons _ _ _ s₁ _ v vs hv he =>
    refine ⟨some v, ⟨{ p' with inputClosed := true }, s₁, log ++ [fst]⟩, ?_, rfl⟩
    have hloop : Converges (fun n => loadLoop X E n fst) ⟨p, s, log⟩
        (.ok (fst, ⟨{ p' with inputClosed := true }, s, log⟩)) := by
      refine .succ ?_
      simp only [loadLoop]
      refine (converges_readDatum h).bind ?_
      simp only [if_pos heof]
      exact Converges.const rfl
    refine hloop.bind (g := fun d _ => forceTail E (some d)) (Converges.const ?_)
    rw [forceTail]
    change (evalDatum E fst _ >>= fun x => _) = _
    rw [evalDatum_eq hv]
    rfl
  | @datum p p' q d ds h heof hds ih =>
    intro s vs fst log he
    cases he with
    | @cons _ _ _ s₁ _ v vs hv he =>
    obtain ⟨o, r, hr, hlog⟩ := ih (log ++ [fst]) he
    refine ⟨o, r, .succ ?_, by simpa using hlog⟩
    simp only [loadLoop, bind_assoc]
    refine (converges_readDatum h).bind ?_
    have hneg : ¬ d.isEof = true := by simp [heof]
    simp only [if_neg hneg, bind_assoc]
    exact (Converges.const (evalDatum_eq hv)).bind hr

theorem converges_naviLoadForced (hd : HoldsData X p ds q) (hp : p.foldCase = false)
    (he : Evals E ds s vs s') :
    ∃ o r, Converges (naviLoadForced X E false) ⟨p, s, []⟩ (.ok (o, r)) ∧ r.log = ds := by
  have hport : { p with foldCase := false } = p := by
    rw [← hp]
  have hset : Converges (fun _ => modify fun r : RunState σ =>
      { r with port := { r.port with foldCase := false } } : ℕ → RunM σ ε PUnit) ⟨p, s, []⟩
      (.ok (⟨⟩, ⟨p, s, []⟩)) := by
    refine Converges.const ?_
    change Except.ok (PUnit.unit, (⟨{ p with foldCase := false }, s, []⟩ : RunState σ)) = _
    rw [hport]
  have hload : naviLoadForced X E false = fun n => naviLoadForced X E false n := rfl
  rw [hload]
  simp only [naviLoadForced, naviLoad, bind_assoc]
  cases hd with
  | done h heof hend =>
    cases he
    refine ⟨none, ⟨{ q with inputClosed := true }, s, []⟩, ?_, rfl⟩
    refine hset.bind (g := fun _ n => readDatum X n >>= _) ((converges_readDatum h).bind ?_)
    simp only [if_pos heof]
    exact Converges.const rfl
  | @datum _ p' _ d ds h heof hds =>
    obtain ⟨o, r, hr, hlog⟩ := converges_loadLoop hds [] he
    refine ⟨o, r, ?_, hlog⟩
    refine hset.bind (g := fun _ n => readDatum X n >>= _) ((converges_readDatum h).bind ?_)
    have hneg : ¬ d.isEof = true := by simp [heof]
    simp only [if_neg hneg, bind_assoc]
    exact hr

/-! ### The claim -/

/-- Running a text with `program` evaluates its data one after another, leaves no datum, and
evaluates what `navi_load` evaluates. -/
def RunsText (X : ReadEnv) (E : Evaluator σ ε ν) (p : Port) (ds : List Datum) (s : σ) : Prop :=
  ∃ r, Converges (program X E) ⟨p, s, []⟩ (.ok ((), r)) ∧ r.evaluated = ds ∧ Finished X r.port ∧
    ∃ o r', Converges (naviLoadForced X E false) ⟨p, s, []⟩ (.ok (o, r')) ∧
      r'.evaluated = r.evaluated

/-- **When `program` runs a text**: exactly when only the last datum may evaluate to the
end-of-file object. -/
theorem runsText_iff (hd : HoldsData X p ds q) (hp : p.foldCase = false)
    (he : Evals E ds s vs s') :
    RunsText X E p ds s ↔ ∀ v ∈ vs.dropLast, E.isEof v = false := by
  obtain ⟨r, hr, hlog, hfin⟩ := converges_program hd [] he
  rw [List.filter_nil, List.nil_append] at hlog
  rw [← programData_eq_iff he.length_eq]
  constructor
  · rintro ⟨r', hr', hds, -⟩
    cases hr.unique hr'
    exact hlog.symm.trans hds
  · intro hall
    obtain ⟨o, r', hload, hlog'⟩ := converges_naviLoadForced hd hp he
    refine ⟨r, hr, hlog.trans hall, hfin hall, o, r', hload, ?_⟩
    rw [hlog, hall, RunState.evaluated, hlog', List.filter_eq_self]
    exact fun d hmem => by rw [hd.isEof_eq d hmem]; rfl

/-! ### A text of which the first datum has the end-of-file object as its value -/

theorem Port.Ready.has_nil (hp : p.Ready) (hu : p.unread = []) : p.Has [] := by
  rcases hp.cases with ⟨he, -⟩ | ⟨c, -, -, -, hr⟩ | ⟨he, hb, hr⟩
  · exact .done he
  · exact absurd (hr.symm.trans hu) (append_ne_nil c p.rest)
  · exact .empty he hb (hr.symm.trans hu)

/-- What `navi_read` takes from a text, on a port that has this text. -/
theorem converges_of_reads (hX : ∀ d e, X.naviGetInternal d = .error e → e.Raised) {N : ℕ}
    {bs rest : List UInt8} {cs : List Char} (h : ∀ n, N < n → Reads (naviRead X n) bs d rest)
    (hp : p.Ready) (hu : p.unread = bs) (hcs : p.Has cs) :
    ∃ q, Converges (naviRead X) p (.ok (d, q)) ∧ q.Ready ∧ q.unread = rest ∧ q.Leaves cs := by
  obtain ⟨r, hr, hres⟩ := Call.ends hX .read hcs
  obtain ⟨M, hM⟩ := hr
  obtain ⟨q, hrun, hq, hu'⟩ := h (max M (N + 1)) (by omega) p hp hu
  obtain rfl : r = .ok (d, q) := (hM _ (Nat.le_max_left ..)).symm.trans hrun
  have hpost : Call.read.Post cs d q := hres
  exact ⟨q, ⟨M, hM⟩, hq, hu', hpost.leaves⟩

theorem reads_naviRead_nil (n : ℕ) (hn : 1 < n) : Reads (naviRead X n) [] .eof [] := by
  obtain ⟨n, rfl⟩ := Nat.exists_eq_succ_of_ne_zero (Nat.ne_of_gt (Nat.zero_lt_of_lt hn))
  rw [naviRead]
  refine (reads_peekFirstChar [] (by decide) (by decide) [] n
    (fun _ h => absurd h List.not_mem_nil) (by simp only [List.length_nil]; omega)).bind ?_
  exact Reads.ret _ _

/-- The expression `(eof-object)`. -/
def eofObjectCall : Datum := .pair (.symbol (cstr "eof-object")) .nil

theorem parses_eofObjectCall : Parses X eofObjectCall (cstr "(eof-object)") := by
  have htext : cstr "(eof-object)" = 40 :: (cstr "eof-object" ++ cstr ")") := by decide
  rw [htext]
  have hname : (cstr "eof-object").all (fun c => decide (NameByte c)) = true := by decide
  have hsym : Parses X (.symbol (cstr "eof-object")) (cstr "eof-object") :=
    parses_name (by decide : plainByte 101 = true) (by decide)
      fun c hc => of_decide_eq_true (List.all_eq_true.mp hname c hc)
  have htail : TailText (cstr ")") := by
    have h : cstr ")" = [41] := by decide
    rw [h]
    exact ⟨by decide, fun rest => rfl⟩
  refine parses_paren rfl rfl fun rest n hn => ?_
  have hread := hsym.cons parsesTail_nil htail [] (fun _ h => nomatch h) [] rest (n := n)
    (by simpa using hn)
  rw [List.append_assoc]
  exact hread

/-- The data of `(eof-object) 1`. -/
theorem exists_holdsData (hX : ∀ d e, X.naviGetInternal d = .error e → e.Raised) :
    ∃ q, HoldsData X (.openOn .file (cstr "(eof-object) 1")) [eofObjectCall, .fixnum 1] q := by
  have htext : cstr "(eof-object) 1" = cstr "(eof-object)" ++ [32, 49] := by decide
  have hone : decimal 1 = [49] := by decide
  have hone' : Parses X (.fixnum 1) [49] := hone ▸ parses_fixnum (by decide) (by decide)
  have hhas : (Port.openOn .file (cstr "(eof-object) 1")).Has "(eof-object) 1".toList :=
    .empty rfl rfl rfl
  obtain ⟨p, hread, hp, hu, es, hes, -⟩ := converges_of_reads hX
    (fun n hn => parses_eofObjectCall.naviRead [] (fun _ h => nomatch h) (by decide) hn)
    (Port.openOn_ready _ _) htext hhas
  obtain ⟨p', hread', hp', hu', fs, hfs, -⟩ := converges_of_reads hX
    (fun n hn => hone'.naviRead [32] (List.forall_mem_singleton.2 rfl) (rfl : Delimited []) hn)
    hp hu hes
  obtain ⟨q, hread'', hq, hu'', -⟩ := converges_of_reads hX
    (fun n hn => reads_naviRead_nil n hn) hp' hu' hfs
  exact ⟨q, .datum hread rfl (.datum hread' rfl (.done hread'' rfl (hq.has_nil hu'')))⟩

/-- An evaluator of calls of `eof-object` and of constants. -/
def eofObjectEvaluator : Evaluator Unit Empty Datum where
  naviEval
    | .pair (.symbol _) .nil, s => .ok (.eof, s)
    | d, s => .ok (d, s)
  isEof := Datum.isEof
  naviEval_eof _ := ⟨.eof, (), rfl, rfl⟩

theorem evals_eofObject :
    Evals eofObjectEvaluator [eofObjectCall, .fixnum 1] () [.eof, .fixnum 1] () :=
  .cons rfl (.cons rfl .nil)

theorem runsText_iff_eofObject :
    RunsText allDefined eofObjectEvaluator (.openOn .file (cstr "(eof-object) 1"))
        [eofObjectCall, .fixnum 1] () ↔
      ∀ v ∈ [Datum.eof, .fixnum 1].dropLast, v.isEof = false := by
  obtain ⟨q, hd⟩ := exists_holdsData raised_allDefined
  exact runsText_iff hd rfl evals_eofObject

/-- `program` stops behind `(eof-object)`, and does not evaluate the number. -/
theorem not_runsText :
    ¬ ∀ (X : ReadEnv) (σ ε ν : Type) (E : Evaluator σ ε ν) (p q : Port) (ds : List Datum)
      (vs : List ν) (s s' : σ), HoldsData X p ds q → p.foldCase = false → Evals E ds s vs s' →
        RunsText X E p ds s := by
  intro h
  obtain ⟨q, hd⟩ := exists_holdsData raised_allDefined
  obtain ⟨r, hr, hlog, -⟩ := converges_program hd [] evals_eofObject
  obtain ⟨r', hr', hall, -⟩ := h _ _ _ _ _ _ _ _ _ _ _ hd rfl evals_eofObject
  cases hr.unique hr'
  rw [hall] at hlog
  cases hlog

end NaviScheme
