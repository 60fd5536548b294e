import NaviScheme.Eval.Reads
import NaviScheme.Frame.Operands

/-!
# Values that are handed to a procedure

`cond` and `case` with `=>`, `call-with-values` and `vector-map!` hand values to a procedure.
They make a call of the values and evaluate it, and with it the values themselves. The
procedure is applied to exactly the values that are handed over if each of them is its own
value (`NaviScheme.handover_iff`); a symbol or a list is not.
-/

namespace NaviScheme

open Prog

variable {α : Type} {X : Externals} {w w' w₁ : World} {e u v : NaviObj} {env : NaviEnv}
  {objs : List NaviObj} {scopes : List ScopeAddr} {n : ℕ}

/-! ### Lists of operands that are their own values -/

section Operands

variable {a : Addr} {x : NaviObj} {vs us pairs : List NaviObj} {g : ℕ}

theorem World.Wf.setObj_pair {d : Data} {p q : Option NaviObj} (h : w.Wf)
    (hobj : w.objs a = some (.naviPair, .pair p q)) : (w.setObj a (.naviPair, d)).Wf where
  objs n hn := by
    have hne : Addr.obj n ≠ a := by
      rintro rfl
      rw [h.objs n hn] at hobj
      cases hobj
    rw [World.objs_setObj, if_neg hne]
    exact h.objs n hn
  scopes := h.scopes
  thunks n c hc := by
    have hne : Addr.thunk n ≠ a := by
      rintro rfl
      obtain ⟨expr, env, hd⟩ := h.thunks n _ hobj
      cases hd
    rw [World.objs_setObj, if_neg hne] at hc
    exact h.thunks n c hc
  symtab str b hb := by
    have hne : b ≠ a := by
      rintro rfl
      rw [h.symtab str b hb] at hobj
      cases hobj
    rw [World.objs_setObj, if_neg hne]
    exact h.symtab str b hb

theorem World.Wf.make (h : w.Wf) {t : NaviType} (ht : t ≠ .naviThunk) (d : Data) :
    (w.make t d).2.Wf := by
  have hold {b : Addr} (hb : b ≠ .obj w.nextObj) :
      Function.update w.objs (.obj w.nextObj) (some (t, d)) b = w.objs b :=
    Function.update_of_ne hb _ _
  rw [World.make, if_neg ht]
  refine ⟨fun n hn => ?_, h.scopes, fun n c hc => ?_, fun str b hb => ?_⟩
  · have hlt : w.nextObj < n := hn
    exact (hold fun heq => hlt.ne' (Addr.obj.inj heq)).trans (h.objs n hlt.le)
  · exact h.thunks n c ((hold (by simp)).symm.trans hc)
  · have hsym := h.symtab str b hb
    have hne : b ≠ .obj w.nextObj := by
      rintro rfl
      rw [h.objs _ le_rfl] at hsym
      cases hsym
    exact (hold hne).trans hsym

theorem World.Wf.make_pair (h : w.Wf) (d : Data) : (w.make .naviPair d).2.Wf :=
  h.make (by decide) d

theorem World.Wf.evaluated (h : w.Wf) (v : NaviObj) (env : NaviEnv) (g : ℕ) :
    (w.evaluated v env g).Wf := ⟨h.objs, h.scopes, h.thunks, h.symtab⟩

/-- A world with a new pair behind a pair that holds `x`, for the value `u` of the operand
`e`. -/
def World.operand (w : World) (a : Addr) (x e u : NaviObj) (env : NaviEnv) (g : ℕ) : World :=
  ((w.linked a x).evaluated e env g).setObj (.obj w.nextObj) (.naviPair, .pair (some u) (some .nil))

theorem World.objs_operand (b : Addr) :
    (w.operand a x e u env g).objs b =
      if b = .obj w.nextObj then some (.naviPair, .pair (some u) (some .nil))
      else if b = a then some (.naviPair, .pair (some x) (some (.ptr (.obj w.nextObj))))
      else w.objs b := by
  rw [World.operand, World.objs_setObj]
  split_ifs with hb ha
  · rfl
  · exact (World.objs_linked b).trans (if_pos ha)
  · exact (World.objs_linked b).trans ((if_neg ha).trans (if_neg hb))

theorem World.objs_operand_self : (w.operand a x e u env g).objs (.obj w.nextObj) =
    some (.naviPair, .pair (some u) (some .nil)) :=
  (World.objs_operand _).trans (if_pos rfl)

/-- The addresses from the next one on stay free. -/
theorem World.free_operand {cdr : Option NaviObj}
    (hobj : w.objs a = some (.naviPair, .pair (some x) cdr))
    (hfree : ∀ n, w.nextObj ≤ n → w.objs (.obj n) = none) (n : ℕ)
    (hn : (w.operand a x e u env g).nextObj ≤ n) : (w.operand a x e u env g).objs (.obj n) = none := by
  replace hn : w.nextObj + 1 ≤ n := hn
  have hna : Addr.obj n ≠ a := by
    rintro rfl
    rw [hfree n (by omega)] at hobj
    cases hobj
  rw [World.objs_operand, if_neg (by simp; omega), if_neg hna]
  exact hfree n (by omega)

/-- What the loop of `procedure_call` has made of the operands `vs` behind a pair that holds
`x`, if it has evaluated nothing but them: the values are `us`. -/
structure OperandsRead (w : World) (a : Addr) (x : NaviObj) (env : NaviEnv)
    (vs us : List NaviObj) (w' : World) (pairs : List NaviObj) : Prop where
  /-- the new pairs are behind the last -/
  last : ∃ rest, w'.objs a = some (.naviPair, .pair (some x) (some rest)) ∧ Spine w' rest pairs us
  /-- the other objects are as they were -/
  same : ∀ b, w.objs b ≠ none → b ≠ a → w'.objs b = w.objs b
  /-- the operands have been evaluated -/
  log : w'.log = (vs.map (·, env)).reverse ++ w.log
  /-- the world is well-formed -/
  wf : w.Wf → w'.Wf

theorem OperandsRead.nil {cdr : Option NaviObj}
    (hobj : w.objs a = some (.naviPair, .pair (some x) cdr)) :
    OperandsRead w a x env [] [] (w.setObj a (.naviPair, .pair (some x) (some .nil))) [] where
  last := ⟨.nil, by rw [World.objs_setObj, if_pos rfl], .nil⟩
  same b _ hba := by rw [World.objs_setObj, if_neg hba]
  log := rfl
  wf h := h.setObj_pair hobj

theorem World.Wf.operand {cdr : Option NaviObj} (h : w.Wf)
    (hobj : w.objs a = some (.naviPair, .pair (some x) cdr)) : (w.operand a x e u env g).Wf := by
  have hfree := h.objs w.nextObj le_rfl
  have ha : a ≠ .obj w.nextObj := by
    rintro rfl
    rw [hfree] at hobj
    cases hobj
  have hlinked : (w.linked a x).Wf := by
    refine (h.make_pair _).setObj_pair (p := some x) (q := cdr) ?_
    rw [World.objs_make_pair, if_neg ha, hobj]
  refine (hlinked.evaluated e env g).setObj_pair (p := some .void) (q := some .nil) ?_
  exact (World.objs_linked _).trans ((if_neg ha.symm).trans (if_pos rfl))

theorem OperandsRead.cons {cdr : Option NaviObj}
    (hobj : w.objs a = some (.naviPair, .pair (some x) cdr))
    (hfree : w.objs (.obj w.nextObj) = none)
    (h : OperandsRead (w.operand a x e u env g) (.obj w.nextObj) u env vs us w' pairs) :
    OperandsRead w a x env (e :: vs) (u :: us) w' (.ptr (.obj w.nextObj) :: pairs) := by
  have hne : ∀ b, w.objs b ≠ none → b ≠ .obj w.nextObj := fun b hb heq => hb (heq ▸ hfree)
  have ha : a ≠ .obj w.nextObj := hne a (by simp [hobj])
  obtain ⟨rest, hlast, hspine⟩ := h.last
  refine ⟨⟨_, ?_, .cons (isPair_ptr.mpr hlast) hspine⟩, fun b hb hba => ?_, ?_, fun hwf => h.wf ?_⟩
  · have hwritten : (w.operand a x e u env g).objs a = _ := World.objs_operand a
    rw [if_neg ha, if_pos rfl] at hwritten
    rw [h.same a (by simp [hwritten]) ha, hwritten]
  · have hsame : (w.operand a x e u env g).objs b = _ := World.objs_operand b
    rw [if_neg (hne b hb), if_neg hba] at hsame
    rw [h.same b (by rwa [hsame]) (hne b hb), hsame]
  · rw [h.log, List.map_cons, List.reverse_cons, List.append_assoc]
    rfl
  · exact hwf.operand hobj

theorem World.SameButPairs.make_pair (hfree : w.objs (.obj w.nextObj) = none) (d : Data) :
    w.SameButPairs (w.make .naviPair d).2 :=
  have hset := setObj (w := w) (a := .obj w.nextObj) (d := d) fun c hc => by
    rw [hfree] at hc
    cases hc
  ⟨rfl, hset.objs⟩

theorem World.SameButPairs.linked {cdr : Option NaviObj}
    (hobj : w.objs a = some (.naviPair, .pair (some x) cdr)) (hfree : w.objs (.obj w.nextObj) = none) :
    w.SameButPairs (w.linked a x) := by
  refine (make_pair hfree _).trans (World.SameButPairs.setObj fun c hc => ?_)
  rw [World.objs_make_pair] at hc
  split_ifs at hc with ha
  · cases hc
    rfl
  · rw [hobj] at hc
    cases hc
    rfl

theorem World.SameButPairs.operand {cdr : Option NaviObj}
    (hobj : w.objs a = some (.naviPair, .pair (some x) cdr)) (hfree : w.objs (.obj w.nextObj) = none) :
    w.SameButPairs (w.operand a x e u env g) := by
  refine ((linked hobj hfree).trans (evaluated _ e env g)).trans (setObj fun c hc => ?_)
  have ha : a ≠ .obj w.nextObj := by
    rintro rfl
    rw [hfree] at hobj
    cases hobj
  have hp := (World.objs_linked (w := w) (a := a) (v := x) (.obj w.nextObj)).trans
    ((if_neg ha.symm).trans (if_pos rfl))
  cases hp.symm.trans hc
  rfl

theorem Spine.not_mem_free {o : NaviObj} {ps xs : List NaviObj} {b : Addr} (h : Spine w o ps xs)
    (hfree : w.objs b = none) : NaviObj.ptr b ∉ ps := by
  intro hb
  obtain ⟨car, cdr, hpair⟩ := h.isPair_of_mem hb
  rw [isPair_ptr, hfree] at hpair
  cases hpair

/-- A list is as it was before an operand is evaluated, -/
theorem Spine.linked {o : NaviObj} {ps xs : List NaviObj} (h : Spine w o ps xs)
    (ha : NaviObj.ptr a ∉ ps) (hfree : w.objs (.obj w.nextObj) = none) :
    Spine (w.linked a x) o ps xs := by
  refine h.of_objs fun b hb => ?_
  have hne : b ≠ .obj w.nextObj := fun heq => h.not_mem_free hfree (heq ▸ hb)
  have hba : b ≠ a := fun heq => ha (heq ▸ hb)
  rw [World.objs_linked, if_neg hba, if_neg hne]

/-- and after that. -/
theorem Spine.operand {o : NaviObj} {ps xs : List NaviObj} (h : Spine w o ps xs)
    (ha : NaviObj.ptr a ∉ ps) (hfree : w.objs (.obj w.nextObj) = none) :
    Spine (w.operand a x e u env g) o ps xs := by
  refine h.of_objs fun b hb => ?_
  have hne : b ≠ .obj w.nextObj := fun heq => h.not_mem_free hfree (heq ▸ hb)
  have hba : b ≠ a := fun heq => ha (heq ▸ hb)
  rw [World.objs_operand, if_neg hne, if_neg hba]

theorem evaluates_of_run {β : Type} {p q : Code β} {r : Res Fault EvalExn World β}
    (h : ∀ n, (worldSemantics X).run n p w = (worldSemantics X).run n q w₁)
    (hq : (worldSemantics X).Evaluates q w₁ r) : (worldSemantics X).Evaluates p w r :=
  ⟨hq.1, hq.2.imp fun n hn => (h n).trans hn⟩

/-- The operands that are their own values are put behind a pair. -/
theorem returns_operandLoop_self {cons : NaviObj} {ps : List NaviObj} {cdr : Option NaviObj}
    (hs : Spine w cons ps vs) (ha : NaviObj.ptr a ∉ ps)
    (hobj : w.objs a = some (.naviPair, .pair (some x) cdr))
    (hfree : ∀ n, w.nextObj ≤ n → w.objs (.obj n) = none)
    (hself : ∀ v ∈ vs, w.SelfEvaluating env v) :
    ∃ pairs w', (worldSemantics X).Returns (.operandLoop cons (.ptr a) env) w (.ok () w') ∧
      OperandsRead w a x env vs vs w' pairs := by
  induction vs generalizing w cons ps a x cdr with
  | nil =>
    cases hs
    have hset := computes_naviSetCdr (F := evalFns) .nil (World.load_ptr hobj)
    exact ⟨[], _, (Computes.ret _).evaluates_bind hset.evaluates, .nil hobj⟩
  | cons v vs ih =>
    have hnone := hfree _ le_rfl
    have hne : a ≠ .obj w.nextObj := by
      rintro rfl
      rw [hnone] at hobj
      cases hobj
    obtain ⟨_, hcons, -⟩ := hs.cons_inv
    obtain ⟨_, hlinked, -⟩ := (hs.linked (x := x) ha hnone).cons_inv
    have hsame := World.SameButPairs.linked hobj hnone
    obtain ⟨g, heval⟩ := evaluates_naviEval_self (X := X)
      (hsame.reads (hself v List.mem_cons_self)) [cons, .ptr (.obj w.nextObj)] env.scopes
    have hset : Computes (naviSetCar (.ptr (.obj w.nextObj)) v : Code _)
        ((w.linked a x).evaluated v env g) () (w.operand a x v v env g) := by
      refine computes_naviSetCar v (World.load_ptr (c := (.naviPair, .pair (some .void) (some .nil))) ?_)
      exact (World.objs_linked _).trans ((if_neg hne.symm).trans (if_pos rfl))
    have hsnext : Spine (w.operand a x v v env g) _ _ _ := hs.operand ha hnone
    cases hsnext with
    | @cons _ _ next ps' _ hoperand hnext =>
    have hsame' : w.SameButPairs (w.operand a x v v env g) := .operand hobj hnone
    have hp : NaviObj.ptr (.obj w.nextObj) ∉ ps' := fun hmem =>
      hs.not_mem_free hnone (List.mem_cons_of_mem _ hmem)
    obtain ⟨pairs, w', hloop, hread⟩ := ih hnext hp World.objs_operand_self
      (World.free_operand hobj hfree) fun y hy => hsame'.reads (hself y (List.mem_cons_of_mem _ hy))
    refine ⟨_, w', (computes_naviIsPair hcons).evaluates_bind ?_, .cons hobj hnone hread⟩
    rw [if_pos rfl]
    refine evaluates_of_run (fun n => run_linked hne hobj n)
      ((computes_naviCar hlinked).evaluates_bind ?_)
    exact heval.bind (hset.evaluates_bind ((computes_naviCdr hoperand).evaluates_bind
      (evaluates_callFn.mpr hloop)))

/-- The loop evaluates every operand of a list that no one else has. If it evaluates nothing
else, the values are what can be read. -/
theorem operandLoop_inv (hX : ∀ S, X.Spares S True) {S : Addr → Prop} {cons : NaviObj}
    {ps : List NaviObj} {cdr : Option NaviObj} (hw : w.Private S) (haS : S a)
    (hps : ∀ b, NaviObj.ptr b ∈ ps → S b) (hvs : ∀ v ∈ vs, w.Sees S v) (hx : w.Sees S x)
    (hs : Spine w cons ps vs) (ha : NaviObj.ptr a ∉ ps)
    (hobj : w.objs a = some (.naviPair, .pair (some x) cdr))
    (hrun : (worldSemantics X).run n (callFn (.operandLoop cons (.ptr a) env) objs scopes) w =
      .ok () w') :
    w.log.length + vs.length ≤ w'.log.length ∧ (w'.log.length ≤ w.log.length + vs.length →
      ∃ us pairs, OperandsRead w a x env vs us w' pairs ∧ List.Forall₂ (w.Reads env) vs us) := by
  induction vs generalizing n w S cons ps a x cdr objs scopes with
  | nil =>
    refine ⟨log_le_of_run hrun, fun _ => ?_⟩
    obtain ⟨n, rfl, hbody⟩ := run_callFn_ok hrun
    cases hs
    have hset := computes_naviSetCdr (F := evalFns) .nil (World.load_ptr hobj)
    have hok : (Res.ok () w' : Res Fault EvalExn World Unit) = .ok () _ := hbody.symm.trans (hset _)
    obtain rfl := (Res.ok.inj hok).2
    exact ⟨[], [], .nil hobj, .nil⟩
  | cons v vs ih =>
    obtain ⟨n, rfl, hbody⟩ := run_callFn_ok hrun
    have hnone := hw.closed.objs _ w.not_allocated_nextObj
    have hne : a ≠ .obj w.nextObj := fun heq => w.not_allocated_nextObj (heq ▸ hw.allocated a haS)
    obtain ⟨_, hcons, -⟩ := hs.cons_inv
    have hslinked := hs.linked (x := x) ha hnone
    obtain ⟨_, hlinked, -⟩ := hslinked.cons_inv
    replace hbody := ((computes_naviIsPair hcons).run_bind n).symm.trans hbody
    rw [if_pos rfl] at hbody
    replace hbody := ((computes_naviCar hlinked).run_bind n).symm.trans
      ((run_linked hne hobj n).symm.trans hbody)
    obtain ⟨u, w₂, heval, hbody⟩ := run_bind_ok hbody
    obtain ⟨hw₂, hu, hsame₂, hle₂⟩ := (hw.linked haS hx).naviEval hX
      (hvs v List.mem_cons_self).linked ⟨nofun, n, heval⟩
    have hp₂ : w₂.objs (.obj w.nextObj) = some (.naviPair, .pair (some .void) (some .nil)) :=
      (hsame₂ _ (.inr rfl)).trans ((World.objs_linked _).trans ((if_neg hne.symm).trans (if_pos rfl)))
    replace hbody := ((computes_naviSetCar u (World.load_ptr hp₂)).run_bind n).symm.trans hbody
    -- the list of the operands is as it was
    have hne' : ∀ b, NaviObj.ptr b ∈ ps → b ≠ .obj w.nextObj := fun b hb heq =>
      hs.not_mem_free hnone (heq ▸ hb)
    have hswritten : Spine (w₂.setObj (.obj w.nextObj) (.naviPair, .pair (some u) (some .nil)))
        _ _ _ := hslinked.of_objs fun b hb => by
      rw [World.objs_setObj, if_neg (hne' b hb), hsame₂ b (.inl (hps b hb))]
    cases hswritten with
    | @cons _ _ next ps' _ hcons₃ hnext =>
    replace hbody := ((computes_naviCdr hcons₃).run_bind n).symm.trans hbody
    obtain ⟨hcount, hread⟩ := ih (hw₂.setObj (.inr rfl) (by simpa [Data.objs, World.Has] using hu.has))
      (.inr rfl) (fun b hb => .inl (hps b (List.mem_cons_of_mem _ hb)))
      (fun y hy => (((hvs y (List.mem_cons_of_mem _ hy)).linked).mono hle₂).setObj) hu.setObj hnext
      (fun hmem => hne' _ (List.mem_cons_of_mem _ hmem) rfl) (World.objs_setObj _ _ _ _ |>.trans (if_pos rfl))
      hbody
    have hlt := log_lt_of_naviEval heval
    replace hlt : w.log.length + 1 ≤ w₂.log.length := hlt
    replace hcount : w₂.log.length + vs.length ≤ w'.log.length := hcount
    refine ⟨by rw [List.length_cons]; omega, fun hle => ?_⟩
    rw [List.length_cons] at hle
    replace hle : w'.log.length ≤ w₂.log.length + vs.length ∧ w₂.log.length ≤ w.log.length + 1 := by
      omega
    obtain ⟨hreads, g, rfl⟩ := naviEval_inv heval hle.2
    obtain ⟨us, pairs, hops, hall⟩ := hread hle.1
    have hlinked := World.SameButPairs.linked hobj hnone
    have hoperand : w.SameButPairs (w.operand a x v u env g) := .operand hobj hnone
    exact ⟨u :: us, _, .cons hobj hnone hops, .cons (hlinked.symm.reads hreads)
      (hall.imp fun _ _ hr => hoperand.symm.reads hr)⟩

/-! ### The list of operands -/

/-- The list that `procedure_call` has made of the operands `vs`, if it has evaluated nothing
but them: the values are `us`. -/
structure ListRead (w : World) (env : NaviEnv) (vs us : List NaviObj) (w' : World) (list : NaviObj)
    (pairs : List NaviObj) : Prop where
  /-- the list -/
  spine : Spine w' list pairs us
  /-- the operands have been evaluated -/
  log : w'.log = (vs.map (·, env)).reverse ++ w.log
  /-- the world is well-formed -/
  wf : w.Wf → w'.Wf

/-- A world with a first pair, and a guard for it. -/
def World.guardedPair (w : World) : World :=
  { (w.make .naviPair (.pair (some .void) (some .nil))).2 with nextGuard := w.nextGuard + 1 }

theorem computes_guardedPair (w : World) (env : NaviEnv) :
    Computes (naviGcGuard (.ptr (.obj w.nextObj)) env : Code _)
      (w.make .naviPair (.pair (some .void) (some .nil))).2 (some (env.lexical, w.nextGuard))
      w.guardedPair := Computes.perform rfl

theorem World.objs_guardedPair (b : Addr) :
    w.guardedPair.objs b =
      if b = .obj w.nextObj then some (.naviPair, .pair (some .void) (some .nil)) else w.objs b :=
  w.objs_make_pair (.pair (some .void) (some .nil)) b

/-- A world with a first pair, for the value `u` of the operand `e`. -/
def World.firstOperand (w : World) (e u : NaviObj) (env : NaviEnv) (g : ℕ) : World :=
  (w.guardedPair.evaluated e env g).setObj (.obj w.nextObj) (.naviPair, .pair (some u) (some .nil))

theorem World.objs_firstOperand (b : Addr) :
    (w.firstOperand e u env g).objs b =
      if b = .obj w.nextObj then some (.naviPair, .pair (some u) (some .nil)) else w.objs b := by
  rw [World.firstOperand, World.objs_setObj]
  split_ifs with hb
  · rfl
  · exact (World.objs_guardedPair b).trans (if_neg hb)

theorem World.free_firstOperand (hfree : ∀ n, w.nextObj ≤ n → w.objs (.obj n) = none) (n : ℕ)
    (hn : (w.firstOperand e u env g).nextObj ≤ n) :
    (w.firstOperand e u env g).objs (.obj n) = none := by
  replace hn : w.nextObj + 1 ≤ n := hn
  rw [World.objs_firstOperand, if_neg (by simp; omega)]
  exact hfree n (by omega)

/-- A list is as it was before the first operand is evaluated, -/
theorem Spine.guardedPair {o : NaviObj} {ps xs : List NaviObj} (h : Spine w o ps xs)
    (hfree : w.objs (.obj w.nextObj) = none) : Spine w.guardedPair o ps xs := by
  refine h.of_objs fun b hb => ?_
  have hne : b ≠ .obj w.nextObj := fun heq => h.not_mem_free hfree (heq ▸ hb)
  rw [World.objs_guardedPair, if_neg hne]

/-- and after that. -/
theorem Spine.firstOperand {o : NaviObj} {ps xs : List NaviObj} (h : Spine w o ps xs)
    (hfree : w.objs (.obj w.nextObj) = none) : Spine (w.firstOperand e u env g) o ps xs := by
  refine h.of_objs fun b hb => ?_
  have hne : b ≠ .obj w.nextObj := fun heq => h.not_mem_free hfree (heq ▸ hb)
  rw [World.objs_firstOperand, if_neg hne]

theorem ListRead.of_first
    (h : OperandsRead (w.firstOperand e u env g) (.obj w.nextObj) u env vs us w' pairs) :
    ListRead w env (e :: vs) (u :: us) w' (.ptr (.obj w.nextObj)) (.ptr (.obj w.nextObj) :: pairs) := by
  obtain ⟨rest, hlast, hspine⟩ := h.last
  refine ⟨.cons (isPair_ptr.mpr hlast) hspine, ?_, fun hwf => h.wf ?_⟩
  · rw [h.log, List.map_cons, List.reverse_cons, List.append_assoc]
    rfl
  · refine World.Wf.setObj_pair (p := some .void) (q := some .nil) ?_
      ((World.objs_guardedPair _).trans (if_pos rfl))
    have hmade := hwf.make_pair (.pair (some .void) (some .nil))
    exact ⟨hmade.objs, hmade.scopes, hmade.thunks, hmade.symtab⟩

theorem World.SameButPairs.guardedPair (hfree : w.objs (.obj w.nextObj) = none) :
    w.SameButPairs w.guardedPair := (make_pair hfree _).trans (guarded _ _)

theorem World.SameButPairs.firstOperand (hfree : w.objs (.obj w.nextObj) = none) :
    w.SameButPairs (w.firstOperand e u env g) := by
  refine ((guardedPair hfree).trans (evaluated _ e env g)).trans (setObj fun c hc => ?_)
  cases ((World.objs_guardedPair (w := w) _).trans (if_pos rfl)).symm.trans hc
  rfl

/-- **Operands that are their own values are put into the list as they are.** -/
theorem evaluates_operandList_self (proc : NaviObj) {args : NaviObj} {ps : List NaviObj}
    (hs : Spine w args ps vs) (hfree : ∀ n, w.nextObj ≤ n → w.objs (.obj n) = none)
    (hself : ∀ v ∈ vs, w.SelfEvaluating env v) :
    ∃ list pairs w', (worldSemantics X).Evaluates (operandList proc args env) w (.ok list w') ∧
      ListRead w env vs vs w' list pairs := by
  cases hs with
  | nil => exact ⟨.nil, [], w, (Computes.ret _).evaluates_bind .ret, .nil, rfl, id⟩
  | @cons _ v cdr ps vs hargs hcdr =>
    have hnone := hfree _ le_rfl
    have hs : Spine w args (args :: ps) (v :: vs) := .cons hargs hcdr
    obtain ⟨_, hmade, -⟩ := (hs.guardedPair hnone).cons_inv
    have hsame := World.SameButPairs.guardedPair hnone
    obtain ⟨g, heval⟩ := evaluates_naviEval_self (X := X)
      (hsame.reads (hself v List.mem_cons_self)) [proc, args, .ptr (.obj w.nextObj)] env.scopes
    have hset : Computes (naviSetCar (.ptr (.obj w.nextObj)) v : Code _)
        (w.guardedPair.evaluated v env g) () (w.firstOperand v v env g) := by
      refine computes_naviSetCar v (World.load_ptr (c := (.naviPair, .pair (some .void) (some .nil))) ?_)
      exact (World.objs_guardedPair _).trans (if_pos rfl)
    have hsfirst : Spine (w.firstOperand v v env g) _ _ _ := hs.firstOperand hnone
    cases hsfirst with
    | cons hfirst hnext =>
    have hoperand : w.SameButPairs (w.firstOperand v v env g) := .firstOperand hnone
    obtain ⟨pairs, w', hloop, hread⟩ := returns_operandLoop_self (X := X) hnext
      (fun hmem => hs.not_mem_free hnone (List.mem_cons_of_mem _ hmem))
      ((World.objs_firstOperand _).trans (if_pos rfl)) (World.free_firstOperand hfree) fun y hy =>
        hoperand.reads (hself y (List.mem_cons_of_mem _ hy))
    refine ⟨_, _, w', (computes_naviIsPair hargs).evaluates_bind ?_, .of_first hread⟩
    rw [if_pos rfl]
    refine (computes_make _ _).evaluates_bind ((computes_guardedPair w env).evaluates_bind
      ((computes_naviCar hmade).evaluates_bind (heval.bind (hset.evaluates_bind
        ((computes_naviCdr hfirst).evaluates_bind ((evaluates_callFn.mpr hloop).bind ?_))))))
    exact (computes_naviGcUnguard _ _).evaluates_bind .ret

theorem World.Private.guardedPair {S : Addr → Prop} (h : w.Private S) :
    w.guardedPair.Private fun b => S b ∨ b = .obj w.nextObj :=
  (h.make (d := .pair (some .void) (some .nil)) (by simp [Data.objs, World.Has])).guarded _

theorem World.Sees.guardedPair {S : Addr → Prop} {o : NaviObj} (h : w.Sees S o) :
    w.guardedPair.Sees (fun b => S b ∨ b = .obj w.nextObj) o :=
  have hmake := h.make (.pair (some .void) (some .nil))
  ⟨hmake.has, hmake.avoids⟩

/-- If nothing is evaluated but the operands of a private list, the list is made of what can be
read. -/
theorem operandList_inv (hX : ∀ S, X.Spares S True) {S : Addr → Prop} {proc args list : NaviObj}
    {ps : List NaviObj} (h : PrivateList w S args ps vs)
    (hrun : (worldSemantics X).Evaluates (operandList proc args env) w (.ok list w'))
    (hle : w'.log.length ≤ w.log.length + vs.length) :
    ∃ us pairs, ListRead w env vs us w' list pairs ∧ List.Forall₂ (w.Reads env) vs us := by
  obtain ⟨-, n, hbody⟩ := hrun
  have hs := h.spine
  cases vs with
  | nil =>
    cases hs
    have hok : (Res.ok .nil w : Res Fault EvalExn World NaviObj) = .ok list w' := hbody
    obtain ⟨rfl, rfl⟩ := Res.ok.inj hok
    exact ⟨[], [], ⟨.nil, rfl, id⟩, .nil⟩
  | cons v vs =>
    have hnone := h.isPrivate.closed.objs _ w.not_allocated_nextObj
    obtain ⟨_, hargs, -⟩ := hs.cons_inv
    have hsmade := hs.guardedPair hnone
    obtain ⟨_, hmade, -⟩ := hsmade.cons_inv
    replace hbody := ((computes_naviIsPair hargs).run_bind n).symm.trans hbody
    rw [if_pos rfl] at hbody
    replace hbody := ((computes_make _ _).run_bind n).symm.trans hbody
    replace hbody := ((computes_naviCar hmade).run_bind n).symm.trans
      (((computes_guardedPair w env).run_bind n).symm.trans hbody)
    obtain ⟨u, w₂, heval, hbody⟩ := run_bind_ok hbody
    obtain ⟨hw₂, hu, hsame₂, hle₂⟩ := h.isPrivate.guardedPair.naviEval hX
      (h.values v List.mem_cons_self).guardedPair ⟨nofun, n, heval⟩
    have hp₂ : w₂.objs (.obj w.nextObj) = some (.naviPair, .pair (some .void) (some .nil)) :=
      (hsame₂ _ (.inr rfl)).trans ((World.objs_guardedPair _).trans (if_pos rfl))
    replace hbody := ((computes_naviSetCar u (World.load_ptr hp₂)).run_bind n).symm.trans hbody
    -- the list of the operands is as it was
    have hne : ∀ b, NaviObj.ptr b ∈ ps → b ≠ .obj w.nextObj := fun b hb heq =>
      hs.not_mem_free hnone (heq ▸ hb)
    have hswritten : Spine (w₂.setObj (.obj w.nextObj) (.naviPair, .pair (some u) (some .nil)))
        _ _ _ := hsmade.of_objs fun b hb => by
      rw [World.objs_setObj, if_neg (hne b hb), hsame₂ b (.inl (h.mem b hb))]
    cases hswritten with
    | @cons _ _ next ps' _ hargs₂ hnext =>
    replace hbody := ((computes_naviCdr hargs₂).run_bind n).symm.trans hbody
    obtain ⟨_, w₃, hloop, hbody⟩ := run_bind_ok hbody
    have hok : (Res.ok (.ptr (.obj w.nextObj)) w₃ : Res Fault EvalExn World NaviObj) = .ok list w' :=
      hbody
    obtain ⟨rfl, rfl⟩ := Res.ok.inj hok
    obtain ⟨hcount, hread⟩ := operandLoop_inv hX
      (hw₂.setObj (.inr rfl) (by simpa [Data.objs, World.Has] using hu.has))
      (.inr rfl) (fun b hb => .inl (h.mem b (List.mem_cons_of_mem _ hb)))
      (fun y hy => ((h.values y (List.mem_cons_of_mem _ hy)).guardedPair.mono hle₂).setObj) hu.setObj
      hnext (fun hmem => hne _ (List.mem_cons_of_mem _ hmem) rfl)
      ((World.objs_setObj _ _ _ _).trans (if_pos rfl)) hloop
    replace hcount : w₂.log.length + vs.length ≤ w₃.log.length := hcount
    rw [List.length_cons] at hle
    replace hle : w₃.log.length ≤ w₂.log.length + vs.length ∧ w₂.log.length ≤ w.log.length + 1 := by
      have hlt := log_lt_of_naviEval heval
      replace hlt : w.log.length + 1 ≤ w₂.log.length := hlt
      omega
    obtain ⟨hreads, g, rfl⟩ := naviEval_inv heval hle.2
    obtain ⟨us, pairs, hops, hall⟩ := hread hle.1
    have hfirst : w.SameButPairs (w.firstOperand v u env g) := .firstOperand hnone
    exact ⟨u :: us, _, .of_first hops,
      .cons ((World.SameButPairs.guardedPair hnone).symm.reads hreads)
        (hall.imp fun _ _ hr => hfirst.symm.reads hr)⟩

/-- The procedure that is called with the operands `args` is applied to exactly the objects
`vs`, and nothing else is evaluated before. -/
def AppliesTo (X : Externals) (w : World) (proc args : NaviObj) (env : NaviEnv)
    (vs : List NaviObj) : Prop :=
  ∃ list pairs w', (worldSemantics X).Evaluates (operandList proc args env) w (.ok list w') ∧
    Spine w' list pairs vs ∧ w'.log = (vs.map (·, env)).reverse ++ w.log

/-- **A procedure is applied to the operands of a private list exactly if they are their own
values.** -/
theorem appliesTo_iff (hX : ∀ S, X.Spares S True) {S : Addr → Prop} {proc args : NaviObj}
    {ps : List NaviObj} (h : PrivateList w S args ps vs) :
    AppliesTo X w proc args env vs ↔ ∀ v ∈ vs, w.SelfEvaluating env v := by
  constructor
  · rintro ⟨list, pairs, w', hrun, hspine, hlog⟩
    obtain ⟨us, pairs', hread, hall⟩ := operandList_inv hX h hrun (by simp [hlog]; omega)
    obtain ⟨-, rfl⟩ := hread.spine.unique hspine
    exact fun v hv => List.forall₂_same.mp hall v hv
  · intro hself
    obtain ⟨list, pairs, w', hrun, hread⟩ := evaluates_operandList_self (X := X) proc
      h.spine (fun n hn => h.isPrivate.closed.objs _ (not_lt.mpr hn)) hself
    exact ⟨list, pairs, w', hrun, hread.spine, hread.log⟩

/-! ### The call that hands values over -/

/-- A world in which the call of a procedure has been entered. -/
def World.calling (w : World) (call proc : NaviObj) (env : NaviEnv) (g : ℕ) : World :=
  { w with nextGuard := g, log := (proc, env) :: (call, env) :: w.log }

/-- What does nothing can be left out. -/
theorem evaluates_bind_skip {α β : Type} {p : Code α} {q : Code Unit} {g : α → Code β}
    {r : Res Fault EvalExn World β} (hq : ∀ w, Computes q w () w) :
    (worldSemantics X).Evaluates (p >>= fun a => q >>= fun _ => g a) w r ↔
      (worldSemantics X).Evaluates (p >>= g) w r := by
  have hskip (a : α) (w : World) : (worldSemantics X).Evaluates (q >>= fun _ => g a) w r ↔
      (worldSemantics X).Evaluates (g a) w r := (hq w).evaluates.bind_iff
  constructor
  · intro h
    obtain ⟨a, w', hp, hg⟩ | ⟨x, w', hp, rfl⟩ | ⟨φ, hp, rfl⟩ := h.bind_inv
    · exact hp.bind ((hskip a w').mp hg)
    · exact hp.bind_exn
    · exact hp.bind_fault
  · intro h
    obtain ⟨a, w', hp, hg⟩ | ⟨x, w', hp, rfl⟩ | ⟨φ, hp, rfl⟩ := h.bind_inv
    · exact hp.bind ((hskip a w').mpr hg)
    · exact hp.bind_exn
    · exact hp.bind_fault

theorem evaluates_bind_ret {p : Code α} {q : Code Unit} {r : Res Fault EvalExn World α}
    (hq : ∀ w, Computes q w () w) :
    (worldSemantics X).Evaluates (do
      let a ← p
      q
      return a) w r ↔ (worldSemantics X).Evaluates p w r := by
  refine (evaluates_bind_skip (g := pure) hq).trans ?_
  rw [bind_pure]

/-- Neither guards nor the log are objects. -/
theorem PrivateList.logged {S : Addr → Prop} {o : NaviObj} (h : PrivateList w S o pairs vs) (g : ℕ)
    (log : List (NaviObj × NaviEnv)) :
    PrivateList { w with nextGuard := g, log := log } S o pairs vs where
  isPrivate :=
    ⟨⟨h.isPrivate.closed.objs, { h.isPrivate.closed.hides with }⟩, { h.isPrivate.hides with },
      h.isPrivate.allocated⟩
  mem := h.mem
  objs := h.objs
  spine := h.spine.of_objs fun _ _ => rfl
  values x hx := ⟨(h.values x hx).has, (h.values x hx).avoids⟩

theorem PrivateList.tail {S : Addr → Prop} {o car cdr : NaviObj}
    (h : PrivateList w S o pairs (v :: vs)) (ho : IsPair w o car cdr) :
    ∃ ps, PrivateList w S cdr ps vs := by
  have hs := h.spine
  cases hs with
  | @cons _ _ _ ps _ ho' ht =>
    obtain ⟨-, rfl⟩ := ho'.unique ho
    exact ⟨ps, h.isPrivate, fun b hb => h.mem b (List.mem_cons_of_mem _ hb),
      fun q hq => h.objs q (List.mem_cons_of_mem _ hq), ht,
      fun x hx => h.values x (List.mem_cons_of_mem _ hx)⟩

/-- **Evaluating a call of a procedure** is making the list of the operands and applying the
procedure to it. -/
theorem evaluates_call {S : Addr → Prop} {call proc args : NaviObj} {ps : List NaviObj} {d : Data}
    (h : PrivateList w S call ps (proc :: vs)) (hcall : IsPair w call proc args)
    (hproc : w.load proc = .ok (.naviProcedure, d)) (env : NaviEnv) :
    ∃ g, ∀ r, (worldSemantics X).Returns (.eval_ call env) w r ↔
      (worldSemantics X).Evaluates (do
        let list ← operandList proc args env
        naviApply proc list env [] []) (w.calling call proc env g) r := by
  have hstep : Computes (perform (.evaluating call env) : Code _) w ()
      (w.evaluated call env w.nextGuard) := Computes.perform rfl
  have hentered : PrivateList (w.evaluated call env w.nextGuard) S call ps (proc :: vs) :=
    h.logged _ _
  have hcall₁ : IsPair (w.evaluated call env w.nextGuard) call proc args := hcall
  have hself : (w.evaluated call env w.nextGuard).SelfEvaluating env proc :=
    .constant (t := .naviProcedure) (d := d) hproc trivial
  obtain ⟨g, heval⟩ := evaluates_naviEval_self (X := X) hself [call] env.scopes
  obtain ⟨r₁, g', hguard⟩ := computes_naviGcGuard proc env
    ((w.evaluated call env w.nextGuard).evaluated proc env g)
  have hcall₂ : IsPair (w.calling call proc env g') call proc args := hcall
  have hproc₂ : (w.calling call proc env g').load proc = .ok (.naviProcedure, d) := hproc
  refine ⟨g', fun r => ?_⟩
  refine (hstep.evaluates.bind_iff).trans ?_
  refine (computes_naviType hcall₁).evaluates.bind_iff.trans ?_
  refine hentered.computes_naviIsProperList.evaluates.bind_iff.trans (evaluates_callFn.trans ?_)
  refine (computes_naviCar hcall₁).evaluates.bind_iff.trans (heval.bind_iff.trans ?_)
  refine hguard.evaluates.bind_iff.trans ((computes_naviType hproc₂).evaluates.bind_iff.trans ?_)
  refine (computes_naviCdr hcall₂).evaluates.bind_iff.trans ?_
  refine (evaluates_bind_ret fun w => computes_naviGcUnguard r₁ w).trans (evaluates_callFn.trans ?_)
  rw [← procedureCallBody_eq]
  rfl

/-- Evaluating a call applies the procedure to exactly the objects `vs`: what the call comes to
is what applying the procedure comes to, and nothing else is evaluated before. -/
def HandsOver (X : Externals) (w : World) (call : NaviObj) (env : NaviEnv) (proc : NaviObj)
    (vs : List NaviObj) : Prop :=
  ∃ args g, IsPair w call proc args ∧
    (∀ r, (worldSemantics X).Returns (.eval_ call env) w r ↔
      (worldSemantics X).Evaluates (do
        let list ← operandList proc args env
        naviApply proc list env [] []) (w.calling call proc env g) r) ∧
    AppliesTo X (w.calling call proc env g) proc args env vs

/-- A call that has just been made hands over what its operands are if they are their own
values. -/
theorem handsOver_iff (hX : ∀ S, X.Spares S True) {S : Addr → Prop} {call proc : NaviObj}
    {ps : List NaviObj} {d : Data} (h : PrivateList w S call ps (proc :: vs))
    (hproc : w.load proc = .ok (.naviProcedure, d)) :
    HandsOver X w call env proc vs ↔ ∀ v ∈ vs, w.SelfEvaluating env v := by
  have hsame : ∀ g, w.SameButPairs (w.calling call proc env g) := fun g => ⟨rfl, fun _ _ _ _ => Iff.rfl⟩
  constructor
  · rintro ⟨args, g, hcall, -, happlies⟩ v hv
    obtain ⟨ps', hargs⟩ := (h.logged g ((proc, env) :: (call, env) :: w.log)).tail hcall
    exact (hsame g).symm.reads ((appliesTo_iff hX hargs).mp happlies v hv)
  · intro hself
    obtain ⟨args, hcall, -⟩ := h.spine.cons_inv
    obtain ⟨g, hg⟩ := evaluates_call (X := X) h hcall hproc env
    obtain ⟨ps', hargs⟩ := (h.logged g ((proc, env) :: (call, env) :: w.log)).tail hcall
    exact ⟨args, g, hcall, hg, (appliesTo_iff hX hargs).mpr fun v hv => (hsame g).reads (hself v hv)⟩

end Operands

/-! ### The places where values are handed over -/

section Sites

variable {proc v : NaviObj} {vs : List NaviObj}

/-- The call that `eval_clause` makes for `=>`. -/
def clauseCall (arg proc : NaviObj) : Code NaviObj := do
  let args ← naviMakePair arg .nil
  naviMakePair proc args

theorem evalClauseBody_eq (arg begin : NaviObj) (env : NaviEnv) :
    evalClauseBody arg begin env = (do
      if ← naviSymbolEq (← naviCar begin) (← naviMakeSymbol "=>") then
        let proc ← naviEval (← naviCadr begin) env [arg] env.scopes
        let call ← clauseCall arg proc
        evalTail call env
      else callFn (.beginLoop begin none env) [] []) := rfl

/-- The call that `call-with-values` makes of the consumer. -/
def consumerCall (values args : NaviObj) : Code NaviObj := do
  let callArgs ← if (← naviType values) = .naviValues then naviVectorToList values
    else naviMakePair values .nil
  naviMakePair (← naviCadr args) callArgs

theorem scmCallWithValues_eq (args : NaviObj) (env : NaviEnv) :
    scmCallWithValues args env = (do
      let producer ← naviCar args
      leaf env (naviCheckArity producer 0)
      let call ← naviMakePair producer .nil
      let values ← naviEval call env [args] env.scopes
      let call ← consumerCall values args
      naviEval call env [] []) := by
  simp only [scmCallWithValues, consumerCall, bind_assoc, ite_bind]

/-- The call that `navi_vector_map` makes for an element is `_navi_list` of the two. -/
theorem vectorMapIpLoopBody_eq (proc dst src : NaviObj) (i size : ℕ) (env : NaviEnv) :
    vectorMapIpLoopBody proc dst src i size env = (do
      if i < size then
        let elm ← elem (← naviVector src) i
        let call ← naviList_ proc [elm]
        let val ← naviEval call env [proc, dst, src] env.scopes
        vectorSet dst i val
        callFn (.vectorMapIpLoop proc dst src (i + 1) size env) [] []
      else return ()) := rfl

/-- The values that an object stands for: itself, or what is in it. -/
inductive ValuesOf (w : World) : NaviObj → List NaviObj → Prop
  /-- several values -/
  | several {o : NaviObj} {vs : List NaviObj}
    (ho : w.load o = .ok (.naviValues, .vector (vs.map some))) : ValuesOf w o vs
  /-- one value -/
  | one {o : NaviObj} {t : NaviType} (ho : Computes (naviType o : Code _) w t w)
    (ht : t ≠ .naviValues) : ValuesOf w o [o]

theorem computes_readAll (vs : List NaviObj) (w : World) :
    Computes (readAll (vs.map some) : Code _) w vs w := by
  induction vs with
  | nil => exact Computes.ret _
  | cons v vs ih => exact ih.bind (Computes.ret _)

theorem World.Closed.has_of_load {a : NaviObj} {c : NaviType × Data} (hw : w.Closed)
    (ha : w.load a = .ok c) : w.Has a := by
  obtain ⟨a, rfl⟩ := World.ptr_of_load ha
  intro hnot
  rw [World.load, hw.objs a hnot] at ha
  cases ha

theorem World.Closed.has_of_valuesOf {values : NaviObj} (hw : w.Closed) (hvalues : w.Has values)
    (h : ValuesOf w values vs) : ∀ v ∈ vs, w.Has v := by
  cases h with
  | several ho =>
    intro v hv
    exact hw.hides.load (hw.has_of_load ho) ho v (by simpa [Data.objs] using hv)
  | one ho ht => simpa using hvalues

/-- The list of the arguments, for the consumer. -/
theorem computes_callArgs {values : NaviObj} (hw : w.Closed) (hvalues : w.Has values)
    (h : ValuesOf w values vs) :
    ∃ list w' pairs, Computes (do
        if (← naviType values) = .naviValues then naviVectorToList values
        else naviMakePair values .nil : Code _) w list w' ∧ MadeList w w' list pairs vs := by
  cases h with
  | several ho =>
    have hvector : Computes (naviVector values : Code _) w (vs.map some) w :=
      (computes_load ho).bind (Computes.ret _)
    obtain ⟨list, w', pairs, hlist, hmade⟩ := computes_naviList (F := evalFns) hw
      (hw.has_of_valuesOf hvalues (.several ho))
    refine ⟨list, w', pairs, (computes_naviType ho).bind ?_, hmade⟩
    rw [if_pos rfl]
    exact hvector.bind ((computes_readAll vs w).bind hlist)
  | one ho ht =>
    refine ⟨_, _, _, ho.bind ?_, (MadeList.nil hw).cons hvalues⟩
    rw [if_neg ht]
    exact computes_make _ _

/-- What has been made leaves the pairs there are as they were. -/
theorem MadeList.isPair {list o car cdr : NaviObj} {pairs xs : List NaviObj} (hw : w.Closed)
    (h : MadeList w w' list pairs xs) (ho : IsPair w o car cdr) : IsPair w' o car cdr := by
  obtain ⟨a, rfl, hobj⟩ := ho.ptr
  have ha : w.Allocated a := by
    by_contra hnot
    rw [hw.objs a hnot] at hobj
    cases hobj
  exact isPair_ptr.mpr ((h.same a ha).trans hobj)

/-- A call that has just been made. -/
theorem MadeList.handsOver_iff (hX : ∀ S, X.Spares S True) {call : NaviObj} {pairs : List NaviObj}
    {d : Data} (hw : w.Closed) (h : MadeList w w' call pairs (proc :: vs))
    (hproc : w.load proc = .ok (.naviProcedure, d)) :
    HandsOver X w' call env proc vs ↔ ∀ v ∈ vs, w'.SelfEvaluating env v := by
  refine NaviScheme.handsOver_iff (d := d) hX h.isPrivate ?_
  obtain ⟨a, rfl⟩ := World.ptr_of_load hproc
  have ha : w.Allocated a := by
    by_contra hnot
    exact hw.has_of_load hproc hnot
  rw [World.load, h.same a ha]
  exact hproc

/-- A call without operands hands nothing over. -/
theorem MadeList.not_handsOver {call : NaviObj} {pairs : List NaviObj}
    (h : MadeList w w' call pairs [proc]) : ¬ HandsOver X w' call env proc (v :: vs) := by
  rintro ⟨args, g, hcall, -, list, pairs', w₁, ⟨-, n, hrun⟩, hspine, -⟩
  have hs := h.isPrivate.spine
  cases hs with
  | cons hcall' ht =>
    obtain ⟨-, rfl⟩ := hcall'.unique hcall
    cases ht
    have hok : (Res.ok .nil _ : Res Fault EvalExn World NaviObj) = .ok list w₁ := hrun
    obtain ⟨rfl, rfl⟩ := Res.ok.inj hok
    cases hspine with
    | cons hp _ => cases hp

/-- **Values are handed to a procedure as they are exactly if they are their own values**, and
for `vector-map!` if the element is not void. -/
theorem handover_iff (hX : ∀ S, X.Spares S True) (env : NaviEnv) {d : Data} (hw : w.Closed)
    (hproc : w.load proc = .ok (.naviProcedure, d)) :
    (∀ arg, w.Has arg → ∃ call w', Computes (clauseCall arg proc) w call w' ∧
      (HandsOver X w' call env proc [arg] ↔ w'.SelfEvaluating env arg)) ∧
    (∀ values vs args rest producer tail, w.Has values → ValuesOf w values vs →
      IsPair w args producer rest → IsPair w rest proc tail →
      ∃ call w', Computes (consumerCall values args) w call w' ∧
        (HandsOver X w' call env proc vs ↔ ∀ v ∈ vs, w'.SelfEvaluating env v)) ∧
    ∀ elm, w.Has elm → ∃ call w', Computes (naviList_ proc [elm] : Code _) w call w' ∧
      (HandsOver X w' call env proc [elm] ↔ w'.SelfEvaluating env elm ∧ elm ≠ .void) := by
  have hhas := hw.has_of_load hproc
  refine ⟨fun arg harg => ?_, fun values vs args rest producer tail hvalues hof hargs hrest => ?_,
    fun elm helm => ?_⟩
  · have hmade := ((MadeList.nil hw).cons harg).cons hhas
    refine ⟨_, _, (computes_make _ _).bind (computes_make _ _), ?_⟩
    exact (hmade.handsOver_iff hX hw hproc).trans (by simp)
  · obtain ⟨list, w', pairs, hlist, hmade⟩ := computes_callArgs hw hvalues hof
    have hcadr : Computes (naviCadr args : Code _) w' proc w' :=
      (computes_naviCdr (hmade.isPair hw hargs)).bind (computes_naviCar (hmade.isPair hw hrest))
    refine ⟨_, _, ?_, (hmade.cons hhas).handsOver_iff hX hw hproc⟩
    have hcall := hlist.bind (g := fun callArgs => do naviMakePair (← naviCadr args) callArgs)
      (hcadr.bind (computes_make .naviPair (.pair (some proc) (some list))))
    simp only [bind_assoc, ite_bind] at hcall
    exact hcall
  · have hlist : naviList_ proc [elm] =
        (naviList (proc :: [elm].takeWhile (· ≠ .void)) : Code NaviObj) := by
      obtain ⟨a, rfl⟩ := World.ptr_of_load hproc
      rfl
    have hhas' : ∀ v ∈ proc :: [elm].takeWhile (· ≠ .void), w.Has v := by
      intro v hv
      obtain rfl | hv := List.mem_cons.mp hv
      · exact hhas
      · exact (List.mem_singleton.mp (List.takeWhile_sublist _ |>.subset hv)) ▸ helm
    obtain ⟨call, w', pairs, hcall, hmade⟩ := computes_naviList (F := evalFns) hw hhas'
    refine ⟨call, w', hlist ▸ hcall, ?_⟩
    by_cases hvoid : elm = .void
    · subst hvoid
      refine ⟨fun h => absurd h hmade.not_handsOver, fun h => absurd rfl h.2⟩
    · rw [List.takeWhile_cons_of_pos (by simpa using hvoid), List.takeWhile_nil] at hmade
      exact (hmade.handsOver_iff hX hw hproc).trans (by simp [hvoid])

/-- A world with the form `(cond ((quote a) => list))`, in which `a` is bound to `5`. -/
def handoverWorld : World :=
  let o (n : ℕ) : NaviObj := .ptr (.obj n)
  .ofCells
    [(.naviSymbol, .symbol "a" true),
      (.naviSymbol, .symbol "list" true),
      (.naviProcedure, .proc ⟨true, 0, o 1, 0, .void, .cProc .scmList, none⟩),
      (.naviSymbol, .symbol "=>" true),
      (.naviSymbol, .symbol "cond" true),
      (.naviSpecial, .proc ⟨true, 0, o 4, 0, .void, .cProc .scmCond, none⟩),
      (.naviSymbol, .symbol "quote" true),
      (.naviSpecial, .proc ⟨false, 1, o 6, 0, .void, .cProc .scmQuote, none⟩),
      -- (a), (quote a)
      (.naviPair, .pair (some (o 0)) (some .nil)),
      (.naviPair, .pair (some (o 6)) (some (o 8))),
      -- (list), (=> list), ((quote a) => list)
      (.naviPair, .pair (some (o 1)) (some .nil)),
      (.naviPair, .pair (some (o 3)) (some (o 10))),
      (.naviPair, .pair (some (o 9)) (some (o 11))),
      -- (((quote a) => list)), (cond ((quote a) => list))
      (.naviPair, .pair (some (o 12)) (some .nil)),
      (.naviPair, .pair (some (o 4)) (some (o 13)))]
    [("a", 0), ("list", 1), ("=>", 3), ("cond", 4), ("quote", 6)]
    [⟨none, [⟨o 0, .fixnum 5⟩, ⟨o 1, o 2⟩, ⟨o 4, o 5⟩, ⟨o 6, o 7⟩]⟩, ⟨none, []⟩] []

theorem handoverWorld_closed : handoverWorld.Closed :=
  World.closed_ofCells (by decide) (by decide) (by decide) (by decide)

theorem handover_iff_list :
    ∃ call w', Computes (clauseCall (.fixnum 5) (.ptr (.obj 2))) handoverWorld call w' ∧
      (HandsOver noExternals w' call ⟨0, 1⟩ (.ptr (.obj 2)) [.fixnum 5] ↔
        w'.SelfEvaluating ⟨0, 1⟩ (.fixnum 5)) :=
  (handover_iff noExternals_spares ⟨0, 1⟩ handoverWorld_closed rfl).1 (.fixnum 5) trivial

/-- **`(cond ((quote a) => list))` applies `list` to `5`**, the value of `a`, and not to the
symbol `a` that is the value of the test. -/
theorem not_handover_symbol :
    (∃ w', (worldSemantics noExternals).Returns (.naviEval (.ptr (.obj 9)) ⟨0, 1⟩) handoverWorld
      (.ok (.ptr (.obj 0)) w')) ∧
    ∃ v w', (worldSemantics noExternals).Returns (.naviEval (.ptr (.obj 14)) ⟨0, 1⟩) handoverWorld
      (.ok v w') ∧ IsPair w' v (.fixnum 5) .nil := by
  refine ⟨returns_of_naviEvalRun (n := 19) (by decide), .ptr (.obj 18), ?_⟩
  simp only [isPair_ptr]
  exact returns_of_naviEvalRun_objs (n := 19) (by decide) (by decide)

end Sites

end NaviScheme
