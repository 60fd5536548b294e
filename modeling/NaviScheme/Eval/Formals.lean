import NaviScheme.Eval.Reads
import NaviScheme.Import.Scope

/-!
# Formal parameters

How many arguments a closure takes is counted when it is made, checked when it is called, and
relied on by the loop that binds them. The three agree for every list of formals that
`lambda_valid` accepts (`NaviScheme.callsWith_naviMakeLambda`): a call with another number of
arguments is turned away, and one with the right number evaluates the body in a new scope where
the formals are bound and nothing else is.
-/

namespace NaviScheme

open Prog

variable {F : FnSig} {X : Externals} {w w' w₁ w₂ : World}
  {o args formals body rest lambda : NaviObj} {pairs fs vs : List NaviObj} {env : NaviEnv} {s : ScopeAddr}

/-- A symbol of a world, interned or not. -/
def IsSymbol (w : World) (o : NaviObj) : Prop := ∃ d, w.load o = .ok (.naviSymbol, d)

/-- Formal parameters: the symbols `fs`, and behind them nothing or the symbol `rest`. -/
inductive Formals (w : World) (rest : NaviObj) : NaviObj → List NaviObj → List NaviObj → Prop
  | nil : rest = .nil ∨ IsSymbol w rest → Formals w rest rest [] []
  | cons {o car cdr : NaviObj} {pairs fs : List NaviObj} :
    IsPair w o car cdr → IsSymbol w car → Formals w rest cdr pairs fs →
    Formals w rest o (o :: pairs) (car :: fs)

/-- The numbers of arguments that formals stand for. -/
def Accepts (fs : List NaviObj) (rest : NaviObj) (n : ℕ) : Prop :=
  n = fs.length ∨ rest ≠ .nil ∧ fs.length ≤ n

/-- The formals have distinct names. -/
def Distinct (fs : List NaviObj) (rest : NaviObj) : Prop := fs.Nodup ∧ rest ∉ fs

/-- **The bindings for the arguments `vs`**; `tail` is the list of the arguments that are left. -/
structure BoundTo (bs : List NaviBinding) (fs : List NaviObj) (last : NaviObj)
    (vs : List NaviObj) (tail : NaviObj) : Prop where
  /-- each fixed formal is bound to the argument at its position -/
  fixed : ∀ (i : ℕ) (f : NaviObj), fs[i]? = some f → lookupIn bs f = vs[i]?
  /-- the rest formal is bound to the list of the others -/
  rest : last ≠ .nil → lookupIn bs last = some tail
  /-- nothing else is bound -/
  only : ∀ sym, (lookupIn bs sym).isSome → sym ∈ fs ∨ sym = last ∧ last ≠ .nil

/-- A world with a scope more. -/
def World.newScope (w : World) (next : ScopeAddr) (bs : List NaviBinding) : World :=
  { w with
    scopes := Function.update w.scopes w.nextScope (some ⟨some next, bs⟩)
    nextScope := w.nextScope + 1 }

/-! ### What `lambda_valid` accepts -/

theorem isSymbol_of_naviType (h : Computes (naviType o : Prog evalOps F _) w .naviSymbol w') :
    IsSymbol w o := by
  cases o with
  | ptr a =>
    obtain ⟨⟨t, d⟩, hc, hret⟩ := Computes.of_bind_inspects (inspects_load _) h
    obtain rfl : .naviSymbol = t := hret.ret_inv.1
    exact ⟨d, load_of_computes hc⟩
  | _ => exact nomatch (Computes.ret_inv h).1

theorem inspects_cars (l : List NaviObj) : Inspects (cars l : Prog evalOps F _) := by
  induction l with
  | nil => exact Inspects.ret _
  | cons o l ih => exact (inspects_naviCar o).bind fun _ => ih.bind fun _ => Inspects.ret _

theorem inspects_allOfType (t : NaviType) (l : List NaviObj) :
    Inspects (allOfType t l : Prog evalOps F _) := by
  induction l with
  | nil => exact Inspects.ret _
  | cons o l ih =>
    refine (inspects_naviType o).bind fun t' => ?_
    split_ifs
    · exact ih
    · exact Inspects.ret _

/-- The pairs of a walk whose elements are symbols are formals. -/
theorem formals_of_walk {n : ℕ} (hwalk : w.walk n o = .ok (pairs, rest))
    (hcars : Computes (cars pairs : Prog evalOps F _) w fs w)
    (hall : Computes (allOfType .naviSymbol fs : Prog evalOps F _) w true w)
    (hrest : rest = .nil ∨ IsSymbol w rest) : Formals w rest o pairs fs := by
  induction pairs generalizing n o fs with
  | nil =>
    obtain ⟨-, rfl, -⟩ | ⟨_, _, _, _, hps, -⟩ := World.walk_inv hwalk
    · obtain ⟨rfl, -⟩ := Computes.ret_inv hcars
      exact .nil hrest
    · cases hps
  | cons p pairs ih =>
    obtain ⟨hps, -⟩ | ⟨m, c, cdr, ps, hps, hload, hm⟩ := World.walk_inv hwalk
    · cases hps
    cases hps
    obtain ⟨x, hx, hrun⟩ := Computes.of_bind_inspects (inspects_naviCar _) hcars
    obtain ⟨xs, hxs, hret⟩ := Computes.of_bind_inspects (inspects_cars _) hrun
    obtain ⟨rfl, -⟩ := hret.ret_inv
    obtain ⟨t, ht, hrun⟩ := Computes.of_bind_inspects (inspects_naviType _) hall
    have hpair : IsPair w p x cdr := by
      obtain ⟨t', cdr', hcell⟩ := naviCar_inv hx
      have heq := hload.symm.trans hcell
      cases heq
      exact hload
    split_ifs at hrun with hsym
    · subst hsym
      exact .cons hpair (isSymbol_of_naviType ht) (ih hm hxs hrun)
    · exact nomatch hrun.ret_inv.1

theorem walk_of_computes {r : List NaviObj × NaviObj}
    (h : Computes (walk o : Prog evalOps F _) w r w') : w.walk (w.nextObj + 1) o = .ok r := by
  have hstep := h.perform_inv
  obtain ⟨r', hr, heq⟩ := map_eq_ok hstep
  cases heq
  exact hr

/-- A list that `navi_is_list_of` accepts is one of formals. -/
theorem formals_of_naviIsListOf {b : Bool}
    (h : Computes (naviIsListOf o .naviSymbol b : Prog evalOps F _) w true w') :
    ∃ pairs fs rest, Formals w rest o pairs fs ∧ (b = false → rest = .nil) := by
  obtain ⟨⟨pairs, last⟩, hwalk, h⟩ := Computes.of_bind_inspects (inspects_walk _) h
  obtain ⟨fs, hcars, h⟩ := Computes.of_bind_inspects (inspects_cars _) h
  obtain ⟨all, hall, h⟩ := Computes.of_bind_inspects (inspects_allOfType _ _) h
  have hformals : _ → _ → Formals w last o pairs fs :=
    formals_of_walk (walk_of_computes hwalk) hcars
  split_ifs at h with hb hnil hdotted
  · exact ⟨pairs, fs, last, hformals (hb ▸ hall) (.inl hnil), fun _ => hnil⟩
  · obtain ⟨t, ht, hret⟩ := Computes.of_bind_inspects (inspects_naviType _) h
    obtain rfl := of_decide_eq_true hret.ret_inv.1.symm
    exact ⟨pairs, fs, last, hformals (hb ▸ hall) (.inr (isSymbol_of_naviType ht)),
      fun hfalse => absurd hdotted (by simp [hfalse])⟩
  · exact nomatch h.ret_inv.1
  · exact nomatch h.ret_inv.1

/-- **What `lambda_valid` accepts has formals.** -/
theorem formals_of_lambdaValid (hlambda : IsPair w lambda formals body)
    (h : Computes (lambdaValid lambda : Prog evalOps F _) w true w') :
    ∃ pairs fs rest, Formals w rest formals pairs fs := by
  obtain ⟨b, -, h⟩ := Computes.of_bind_inspects (inspects_naviIsPair _) h
  split_ifs at h
  swap
  · exact nomatch h.ret_inv.1
  obtain ⟨cdr, -, h⟩ := Computes.of_bind_inspects (inspects_naviCdr _) h
  obtain ⟨b', -, h⟩ := Computes.of_bind_inspects (inspects_naviIsPair _) h
  split_ifs at h
  swap
  · exact nomatch h.ret_inv.1
  obtain ⟨car, hcar, h⟩ := Computes.of_bind_inspects (inspects_naviCar _) h
  obtain ⟨t, cdr', hcell⟩ := naviCar_inv hcar
  obtain rfl : formals = car := by
    have heq := hlambda.symm.trans hcell
    cases heq
    rfl
  obtain ⟨t', ht', h⟩ := Computes.of_bind_inspects (inspects_naviType _) h
  split_ifs at h with hsym
  · subst hsym
    exact ⟨[], [], formals, .nil (.inr (isSymbol_of_naviType ht'))⟩
  · obtain ⟨pairs, fs, rest, hformals, -⟩ := formals_of_naviIsListOf h
    exact ⟨pairs, fs, rest, hformals⟩

/-! ### Walking along formals -/

theorem World.objs_of_load {a : Addr} {c : NaviType × Data} (h : w.load (.ptr a) = .ok c) :
    w.objs a = some c := by
  rw [World.load] at h
  cases hobj : w.objs a with
  | none =>
    rw [hobj] at h
    cases h
  | some c' =>
    rw [hobj] at h
    exact congrArg some (Except.ok.inj h)

namespace Formals

variable {pairs' fs' : List NaviObj}

theorem length_eq (h : Formals w rest o pairs fs) : pairs.length = fs.length := by
  induction h with
  | nil => rfl
  | cons hp hs ht ih => rw [List.length_cons, List.length_cons, ih]

/-- What ends formals is not a pair. -/
theorem last (h : Formals w rest o pairs fs) : rest = .nil ∨ IsSymbol w rest := by
  induction h with
  | nil h => exact h
  | cons _ _ _ ih => exact ih

theorem not_isPair_last (h : rest = .nil ∨ IsSymbol w rest) {car cdr : NaviObj} :
    ¬ IsPair w rest car cdr := by
  intro hp
  obtain rfl | ⟨d, hd⟩ := h
  · cases hp
  · exact nomatch hp.symm.trans hd

theorem unique {rest' : NaviObj} (h : Formals w rest o pairs fs)
    (h' : Formals w rest' o pairs' fs') : rest = rest' ∧ pairs = pairs' ∧ fs = fs' := by
  induction h generalizing pairs' fs' with
  | nil hlast =>
    cases h' with
    | nil => exact ⟨rfl, rfl, rfl⟩
    | cons hp => exact absurd hp (not_isPair_last hlast)
  | cons hp hs ht ih =>
    cases h' with
    | nil hlast => exact absurd hp (not_isPair_last hlast)
    | cons hp' hs' ht' =>
      obtain ⟨rfl, rfl⟩ := hp.unique hp'
      obtain ⟨rfl, rfl, rfl⟩ := ih ht'
      exact ⟨rfl, rfl, rfl⟩

theorem of_mem {p : NaviObj} (h : Formals w rest o pairs fs) (hp : p ∈ pairs) :
    ∃ pairs' fs', Formals w rest p pairs' fs' ∧ pairs'.length ≤ pairs.length := by
  induction h with
  | nil => exact absurd hp List.not_mem_nil
  | cons hcons hs ht ih =>
    rcases List.mem_cons.1 hp with rfl | hp
    · exact ⟨_, _, .cons hcons hs ht, le_rfl⟩
    · obtain ⟨pairs', fs', hf, hle⟩ := ih hp
      exact ⟨pairs', fs', hf, hle.trans (Nat.le_succ _)⟩

theorem nodup (h : Formals w rest o pairs fs) : pairs.Nodup := by
  induction h with
  | nil => exact List.nodup_nil
  | cons hp hs ht ih =>
    refine List.nodup_cons.2 ⟨fun hmem => ?_, ih⟩
    obtain ⟨pairs', fs', hf, hle⟩ := ht.of_mem hmem
    have heq := (hf.unique (.cons hp hs ht)).2.1
    rw [heq, List.length_cons] at hle
    omega

theorem exists_addr (h : Formals w rest o pairs fs) (hw : w.Wf) {p : NaviObj} (hp : p ∈ pairs) :
    ∃ n < w.nextObj, p = .ptr (.obj n) := by
  induction h with
  | nil => exact absurd hp List.not_mem_nil
  | cons hcons hs ht ih =>
    rcases List.mem_cons.1 hp with rfl | hp
    · obtain ⟨a, rfl, hobj⟩ := hcons.ptr
      cases a with
      | thunk n =>
        obtain ⟨expr, env, hd⟩ := hw.thunks n _ hobj
        cases hd
      | obj n =>
        refine ⟨n, not_le.mp fun hn => ?_, rfl⟩
        rw [hw.objs n hn] at hobj
        cases hobj
    · exact ih hp

theorem length_le (h : Formals w rest o pairs fs) (hw : w.Wf) : pairs.length ≤ w.nextObj := by
  have hsub : pairs ⊆ (List.range w.nextObj).map fun n => NaviObj.ptr (.obj n) := by
    intro p hp
    obtain ⟨n, hn, rfl⟩ := h.exists_addr hw hp
    exact List.mem_map.2 ⟨n, List.mem_range.2 hn, rfl⟩
  simpa using (h.nodup.subperm hsub).length_le

theorem walk_eq (h : Formals w rest o pairs fs) {n : ℕ} (hn : pairs.length < n) :
    w.walk n o = .ok (pairs, rest) := by
  induction h generalizing n with
  | nil hlast =>
    obtain ⟨n, rfl⟩ := Nat.exists_eq_succ_of_ne_zero (Nat.ne_of_gt hn)
    obtain rfl | ⟨d, hd⟩ := hlast
    · rfl
    · obtain ⟨a, rfl⟩ := World.ptr_of_load hd
      rw [World.walk, World.objs_of_load hd]
  | cons hp hs ht ih =>
    obtain ⟨n, rfl⟩ := Nat.exists_eq_succ_of_ne_zero (Nat.ne_of_gt (Nat.zero_lt_of_lt hn))
    obtain ⟨a, rfl, hobj⟩ := hp.ptr
    rw [World.walk, hobj]
    simp only [ih (Nat.lt_of_succ_lt_succ hn), ok_bind]
    rfl

/-- The walk along formals. -/
theorem walk_inv {n : ℕ} {ps : List NaviObj} {last : NaviObj} (h : Formals w rest o pairs fs)
    (hwalk : w.walk n o = .ok (ps, last)) : ps = pairs ∧ last = rest := by
  induction h generalizing n ps with
  | nil hlast =>
    obtain ⟨rfl, rfl, -⟩ | ⟨m, car, cdr, ps, -, hload, -⟩ := World.walk_inv hwalk
    · exact ⟨rfl, rfl⟩
    · obtain rfl | ⟨d, hd⟩ := hlast
      · cases hload
      · exact nomatch hload.symm.trans hd
  | cons hp hs ht ih =>
    obtain ⟨-, -, hno⟩ | ⟨m, car, cdr, ps, rfl, hload, hm⟩ := World.walk_inv hwalk
    · exact absurd hp (hno _)
    · have heq := hload.symm.trans hp
      cases heq
      obtain ⟨rfl, rfl⟩ := ih hm
      exact ⟨rfl, rfl⟩

theorem computes_walk (h : Formals w rest o pairs fs) (hn : pairs.length ≤ w.nextObj) :
    Computes (walk o : Prog evalOps F _) w (pairs, rest) w := by
  refine Computes.perform ?_
  change (w.walk (w.nextObj + 1) o).map (·, w) = _
  rw [h.walk_eq (Nat.lt_succ_of_le hn)]
  rfl

end Formals

/-! ### The bindings of a call -/

/-- What `navi_extend_environment` makes of the bindings of a scope. -/
def bindIn (bs : List NaviBinding) : List NaviObj → NaviObj → List NaviObj → NaviObj →
    List NaviBinding
  | f :: fs, last, v :: vs, tail => bindIn (setIn bs f v) fs last vs tail
  | _, last, _, tail => if last = .nil then bs else setIn bs last tail

section BindIn

variable {bs : List NaviBinding} {last tail sym f : NaviObj}

theorem lookupIn_bindIn_of_not_mem (hfs : sym ∉ fs) (hlast : ¬ (sym = last ∧ last ≠ .nil)) :
    lookupIn (bindIn bs fs last vs tail) sym = lookupIn bs sym := by
  have hend : lookupIn (if last = .nil then bs else setIn bs last tail) sym = lookupIn bs sym := by
    split_ifs with hnil
    · rfl
    · rw [lookupIn_setIn, if_neg fun heq => hlast ⟨heq.symm, hnil⟩]
  induction fs generalizing bs vs with
  | nil => exact hend
  | cons f fs ih =>
    cases vs with
    | nil => exact hend
    | cons v vs =>
      have hne : f ≠ sym := fun heq => hfs (heq ▸ List.mem_cons_self)
      have hset : lookupIn (setIn bs f v) sym = lookupIn bs sym := by
        rw [lookupIn_setIn, if_neg hne]
      have hend' : lookupIn (if last = .nil then setIn bs f v else setIn (setIn bs f v) last tail)
          sym = lookupIn (setIn bs f v) sym := by
        split_ifs with hnil
        · rfl
        · rw [lookupIn_setIn, if_neg fun heq => hlast ⟨heq.symm, hnil⟩]
      rw [bindIn, ih (fun hmem => hfs (List.mem_cons_of_mem _ hmem)) hend', hset]

theorem lookupIn_bindIn_last (hlast : last ≠ .nil) :
    lookupIn (bindIn bs fs last vs tail) last = some tail := by
  have hend (bs : List NaviBinding) :
      lookupIn (if last = .nil then bs else setIn bs last tail) last = some tail := by
    rw [if_neg hlast, lookupIn_setIn, if_pos rfl]
  induction fs generalizing bs vs with
  | nil => exact hend bs
  | cons f fs ih =>
    cases vs with
    | nil => exact hend bs
    | cons v vs => exact ih

theorem lookupIn_bindIn_fixed (hfs : Distinct fs last) (hlen : fs.length ≤ vs.length) {i : ℕ}
    (hi : fs[i]? = some f) : lookupIn (bindIn bs fs last vs tail) f = vs[i]? := by
  induction fs generalizing bs vs i with
  | nil => cases hi
  | cons g fs ih =>
    cases vs with
    | nil => cases hlen
    | cons v vs =>
      obtain ⟨hnodup, hlast⟩ := hfs
      obtain ⟨hg, hnodup⟩ := List.nodup_cons.mp hnodup
      rw [bindIn]
      cases i with
      | zero =>
        obtain rfl : g = f := Option.some.inj hi
        rw [lookupIn_bindIn_of_not_mem hg fun h => hlast (h.1 ▸ List.mem_cons_self),
          lookupIn_setIn, if_pos rfl]
        rfl
      | succ i =>
        exact ih ⟨hnodup, fun hmem => hlast (List.mem_cons_of_mem _ hmem)⟩
          (Nat.le_of_succ_le_succ hlen) hi

/-- **The bindings of a call.** -/
theorem boundTo_bindIn (hfs : Distinct fs last) (hlen : fs.length ≤ vs.length) :
    BoundTo (bindIn [] fs last vs tail) fs last vs tail where
  fixed _ _ hi := lookupIn_bindIn_fixed hfs hlen hi
  rest := lookupIn_bindIn_last
  only sym hsym := by
    by_contra hnot
    rw [not_or] at hnot
    rw [lookupIn_bindIn_of_not_mem hnot.1 hnot.2] at hsym
    cases hsym

end BindIn

theorem Accepts.length_le {n : ℕ} (h : Accepts fs rest n) : fs.length ≤ n := by
  obtain rfl | ⟨-, hle⟩ := h
  · exact le_rfl
  · exact hle

/-! ### Calling a closure -/

section Call

variable {args' : NaviObj} {apairs : List NaviObj}

/-- The loop of `navi_extend_environment`, and what is left of the arguments. -/
theorem computes_bindAll (h : Formals w rest o pairs fs) (hargs : Spine w args apairs vs)
    (hn : Accepts fs rest vs.length) {sc : WorldScope} (hload : ∀ o, w'.load o = w.load o)
    (hs : w'.scopes s = some sc) :
    ∃ tail tpairs, Spine w tail tpairs (vs.drop fs.length) ∧
      Computes (bindAll s pairs rest apairs .nil : Prog evalOps F _) w' ()
        (w'.setScope s { sc with bindings := bindIn sc.bindings fs rest vs tail }) := by
  induction h generalizing args apairs vs w' sc with
  | nil hlast =>
    refine ⟨args, apairs, hargs, ?_⟩
    change Computes (if rest = .nil then pure () else naviScopeSet s rest (apairs.headD .nil)) w' ()
      (w'.setScope s ⟨sc.next, if rest = .nil then sc.bindings else setIn sc.bindings rest args⟩)
    rw [← hargs.eq_headD]
    split_ifs
    · rw [World.setScope_self hs]
      exact Computes.ret _
    · exact computes_naviScopeSet hs rest args
  | @cons _ car cdr pairs fs hp hsym ht ih =>
    cases hargs with
    | nil => exact absurd hn.length_le (Nat.not_succ_le_zero _)
    | @cons _ v _ _ vs hv htv =>
      have hn' : Accepts fs rest vs.length := by
        simp only [Accepts, List.length_cons, Nat.add_right_cancel_iff, Nat.add_le_add_iff_right]
          at hn ⊢
        exact hn
      have hs' : (w'.setScope s { sc with bindings := setIn sc.bindings car v }).scopes s =
          some { sc with bindings := setIn sc.bindings car v } := Function.update_self _ _ _
      obtain ⟨tail, tpairs, htail, hrun⟩ := ih htv hn'
        (fun o => World.load_setScope.trans (hload o)) hs'
      rw [World.setScope_setScope] at hrun
      have hcar : Computes (naviCar _ : Prog evalOps F _) w' car w' :=
        computes_naviCar ((hload _).trans hp)
      have hval : Computes (naviCar _ : Prog evalOps F _) w' v w' :=
        computes_naviCar ((hload _).trans hv)
      have hset : Computes (naviScopeSet s car v : Prog evalOps F _) w' () _ :=
        computes_naviScopeSet hs car v
      exact ⟨tail, tpairs, htail, hcar.bind (hval.bind (hset.bind hrun))⟩

theorem IsSymbol.of_extends (h : IsSymbol w o) (he : w.Extends w') : IsSymbol w' o := by
  obtain ⟨d, hd⟩ := h
  exact ⟨d, he.load hd⟩

theorem Formals.of_extends (h : Formals w rest o pairs fs) (he : w.Extends w') :
    Formals w' rest o pairs fs := by
  induction h with
  | nil hlast => exact .nil (hlast.imp_right fun hs => hs.of_extends he)
  | cons hp hs ht ih => exact .cons (he.load hp) (hs.of_extends he) ih

theorem World.Wf.extends_newScope (hw : w.Wf) (next : ScopeAddr) (bs : List NaviBinding) :
    w.Extends (w.newScope next bs) := by
  refine ⟨fun _ _ h => h, fun s sc hs => ?_, fun _ _ h => h⟩
  have hne : s ≠ w.nextScope := by
    rintro rfl
    rw [hw.scopes _ le_rfl] at hs
    cases hs
  exact (Function.update_of_ne hne _ _).trans hs

theorem World.Wf.extends_make (hw : w.Wf) {t : NaviType} (ht : t ≠ .naviThunk) (d : Data) :
    w.Extends (w.make t d).2 := by
  rw [World.make, if_neg ht]
  refine ⟨fun a c hobj => ?_, fun _ _ h => h, fun _ _ h => h⟩
  have hne : a ≠ .obj w.nextObj := by
    rintro rfl
    rw [hw.objs _ le_rfl] at hobj
    cases hobj
  exact (Function.update_of_ne hne _ _).trans hobj

@[simp] theorem World.load_newScope (w : World) (next : ScopeAddr) (bs : List NaviBinding)
    (o : NaviObj) : (w.newScope next bs).load o = w.load o := by
  cases o <;> rfl

theorem World.setScope_newScope (w : World) (next : ScopeAddr) (bs bs' : List NaviBinding) :
    (w.newScope next bs).setScope w.nextScope ⟨some next, bs'⟩ = w.newScope next bs' := by
  simp [World.newScope, World.setScope]

/-- **`navi_extend_environment` makes a new scope with the bindings of the call.** -/
theorem computes_naviExtendEnvironment (h : Formals w rest o pairs fs)
    (hargs : Spine w args apairs vs) (hw : w.Wf) (hn : Accepts fs rest vs.length) (env : NaviEnv) :
    ∃ tail tpairs, Spine w tail tpairs (vs.drop fs.length) ∧
      Computes (naviExtendEnvironment env o args : Prog evalOps F _) w ⟨w.nextScope, env.dynamic⟩
        (w.newScope env.lexical (bindIn [] fs rest vs tail)) := by
  have hload : ∀ o, (w.newScope env.lexical []).load o = w.load o := World.load_newScope w _ _
  have hext := hw.extends_newScope env.lexical []
  have hnew : Computes (naviEnvNewScope env : Prog evalOps F _) w ⟨w.nextScope, env.dynamic⟩
      (w.newScope env.lexical []) := by
    have href : Computes (naviEnvRef env : Prog evalOps F _) (w.newScope env.lexical []) ()
        (w.newScope env.lexical []) :=
      (Computes.perform (o := .scopeRef _) rfl).bind (Computes.perform (o := .scopeRef _) rfl)
    refine (Computes.perform (o := .makeScope (some env.lexical)) rfl).bind ?_
    exact href.bind (Computes.ret _)
  have hwalk : Computes (walk args : Prog evalOps F _) (w.newScope env.lexical []) (apairs, .nil)
      (w.newScope env.lexical []) := by
    refine Computes.perform ?_
    change ((w.newScope env.lexical []).walk (w.nextObj + 1) args).map (·, _) = _
    rw [(hext.spine hargs).walk_eq (Nat.lt_succ_of_le (hw.length_le hargs))]
    rfl
  have hscope : (w.newScope env.lexical []).scopes w.nextScope = some ⟨some env.lexical, []⟩ :=
    Function.update_self _ _ _
  obtain ⟨tail, tpairs, htail, hbind⟩ := computes_bindAll (F := F) h hargs hn hload hscope
  rw [World.setScope_newScope] at hbind
  have hwalk' : Computes (walk o : Prog evalOps F _) (w.newScope env.lexical []) (pairs, rest)
      (w.newScope env.lexical []) := (h.of_extends hext).computes_walk (h.length_le hw)
  exact ⟨tail, tpairs, htail, hnew.bind (hwalk'.bind (hwalk.bind (hbind.bind (Computes.ret _))))⟩

/-- A procedure with the arity of formals. -/
structure HasArity (p : NaviProcedure) (fs : List NaviObj) (rest : NaviObj) : Prop where
  /-- `arity` -/
  arity : p.arity = fs.length
  /-- `NAVI_PROC_VARIADIC` -/
  variadic : p.variadic = decide (rest ≠ .nil)
  /-- `types` -/
  types : p.types = none

theorem HasArity.satisfied_iff {p : NaviProcedure} (h : HasArity p fs rest) (n : ℕ) :
    naviAritySatisfied p n = true ↔ Accepts fs rest n := by
  simp only [naviAritySatisfied, h.arity, h.variadic, Accepts, Bool.or_eq_true, Bool.and_eq_true,
    decide_eq_true_eq]
  constructor
  · rintro (heq | ⟨hne, hlt⟩)
    · exact .inl heq
    · exact .inr ⟨hne, hlt.le⟩
  · rintro (heq | ⟨hne, hle⟩)
    · exact .inl heq
    · exact hle.eq_or_lt.imp Eq.symm fun hlt => ⟨hne, hlt⟩

/-- **A closure has the arity of its formals.** -/
theorem computes_naviMakeLambda (h : Formals w rest formals pairs fs) (hw : w.Wf) (body : NaviObj)
    (env : NaviEnv) :
    ∃ o w₁ p, Computes (naviMakeLambda formals body env : Prog evalOps F _) w o w₁ ∧
      w₁.load o = .ok (.naviProcedure, .proc p) ∧ HasArity p fs rest ∧ p.args = formals ∧
      p.body = .body body ∧ p.env = env.lexical := by
  let counted : World := { w with counter := Function.update w.counter .lam (w.counter .lam + 1) }
  let name := Data.symbol s!"lam{w.counter .lam}" false
  let p : NaviProcedure := ⟨rest ≠ .nil, pairs.length, (counted.make .naviSymbol name).1,
    env.lexical, formals, .body body, none⟩
  have hcounted : counted.Wf := ⟨hw.objs, hw.scopes, hw.thunks, hw.symtab⟩
  have hformals : Formals counted rest formals pairs fs :=
    h.of_extends ⟨fun _ _ h => h, fun _ _ h => h, fun _ _ h => h⟩
  have hnamed : Formals (counted.make .naviSymbol name).2 rest formals pairs fs :=
    hformals.of_extends (hcounted.extends_make (t := .naviSymbol) (by decide) name)
  have hcount : Computes (count .lam : Prog evalOps F _) w (w.counter .lam) counted :=
    Computes.perform rfl
  have href : Computes (scopeRef env.lexical : Prog evalOps F _) (counted.make .naviSymbol name).2
      () (counted.make .naviSymbol name).2 := Computes.perform rfl
  have hmake : Computes (naviMakeLambda formals body env : Prog evalOps F _) w _ _ :=
    hcount.bind ((computes_make .naviSymbol name).bind
      ((hnamed.computes_walk ((h.length_le hw).trans (Nat.le_succ _))).bind
        (href.bind (computes_make .naviProcedure (.proc p)))))
  exact ⟨_, _, p, hmake, World.load_make, ⟨h.length_eq, rfl, rfl⟩, rfl, rfl, rfl⟩

theorem computes_checkApply {p : NaviProcedure} {t : NaviType} (hload : w.load o = .ok (t, .proc p))
    (hp : HasArity p fs rest) (hargs : Spine w args apairs vs) (hw : w.Wf)
    (hn : Accepts fs rest vs.length) : Computes (checkApply o args) w vs.length w := by
  refine (computes_naviProcedure hload).bind ((NaviScheme.computes_walk hw hargs).bind ?_)
  rw [← hargs.length_eq] at hn ⊢
  dsimp only
  rw [if_pos ((hp.satisfied_iff _).mpr hn), hp.types]
  have hcheck : Computes (checkArgs apairs []) w () w := by
    cases apairs with
    | nil => exact Computes.ret _
    | cons q apairs => exact Computes.ret _
  exact hcheck.bind (Computes.ret _)

theorem runLeaf_checkApply {p : NaviProcedure} {t : NaviType} (hload : w.load o = .ok (t, .proc p))
    (hp : HasArity p fs rest) (hargs : Spine w args apairs vs) (hw : w.Wf)
    (hn : ¬ Accepts fs rest vs.length) :
    runLeaf World.step (checkApply o args) w =
      runLeaf World.step (naviArityError p.name : Leaf ℕ) w := by
  rw [checkApply, (computes_naviProcedure hload).runLeaf_bind,
    (NaviScheme.computes_walk hw hargs).runLeaf_bind]
  rw [← hargs.length_eq] at hn
  dsimp only
  rw [if_neg fun hsat => hn ((hp.satisfied_iff _).mp hsat)]

theorem raise_bind {α β : Type} (args : NaviObj) (env : NaviEnv) (g : α → Code β) :
    raise args env >>= g = raise args env := by
  rw [raise, raise, Prog.bind_assoc]
  congr 1
  funext never
  exact Empty.elim never

/-- An error does not go on. -/
theorem leaf_throw_bind {α β : Type} (env : NaviEnv) (p : Leaf NaviObj) (g : α → Code β) :
    leaf env (p >>= fun args => .throw args) >>= g = leaf env (p >>= fun args => .throw args) := by
  induction p with
  | ret args => exact raise_bind args env g
  | throw args => exact raise_bind args env g
  | op o k ih => exact congrArg (Prog.op o) (funext ih)
  | call f => exact Empty.elim f

theorem exists_naviArityError_eq (name : NaviObj) : ∃ p : Leaf NaviObj, ∀ α : Type,
    (naviArityError name : Leaf α) = p >>= fun args => .throw args := by
  refine ⟨do
    let target ← naviMakeApair "target" name
    let type ← naviMakeSymbol "#internal-error"
    let str ← naviCstrToString "wrong number of arguments"
    let list ← naviVlist str [target]
    let list ← naviMakePair type list
    naviMakePair list .nil, fun α => ?_⟩
  simp only [naviArityError, naviError, naviError_, Prog.bind_assoc]

theorem leaf_naviArityError_bind {α β : Type} (env : NaviEnv) (name : NaviObj) (g : α → Code β) :
    leaf env (naviArityError name) >>= g = leaf env (naviArityError name) := by
  obtain ⟨p, hp⟩ := exists_naviArityError_eq name
  rw [hp α, hp β]
  exact leaf_throw_bind env p g

/-- What `do_apply` does with a closure when its arguments are bound. -/
def applyBody (body : NaviObj) (new env : NaviEnv) : Code NaviObj := do
  let result ← callFn (.beginLoop body none new) [] (env.lexical :: new.scopes)
  naviEnvUnref new
  let guard ← naviGcGuard result env
  perform (.gcCheck ⟨[result], [env.lexical]⟩)
  naviGcUnguard guard
  return result

/-- **Calling the closure** `o` with the arguments `vs`. -/
structure CallsWith (X : Externals) (w : World) (o args : NaviObj) (env : NaviEnv)
    (p : NaviProcedure) (body : NaviObj) (fs : List NaviObj) (rest : NaviObj) (vs : List NaviObj) :
    Prop where
  /-- the number of arguments is checked -/
  accepted_iff : (∃ n w', Computes (checkApply o args) w n w') ↔ Accepts fs rest vs.length
  /-- with another one, the call is an error -/
  refused : ¬ Accepts fs rest vs.length → ∀ r,
    (worldSemantics X).Evaluates (naviApply o args env [] []) w r ↔
      (worldSemantics X).Evaluates (leaf ⟨p.env, env.dynamic⟩ (naviArityError p.name)) w r
  /-- with the right one, the body is evaluated in a new scope -/
  accepted : Accepts fs rest vs.length → ∃ bs tail tpairs, BoundTo bs fs rest vs tail ∧
    Spine (w.newScope p.env bs) tail tpairs (vs.drop fs.length) ∧ ∀ r,
      (worldSemantics X).Evaluates (naviApply o args env [] []) w r ↔
        (worldSemantics X).Evaluates
          (applyBody body ⟨w.nextScope, env.dynamic⟩ ⟨p.env, env.dynamic⟩) (w.newScope p.env bs) r

/-- **The arity, its check and the loop that binds agree.** -/
theorem callsWith {p : NaviProcedure} (h : Formals w rest formals pairs fs)
    (hfs : Distinct fs rest) (hload : w.load o = .ok (.naviProcedure, .proc p))
    (hp : HasArity p fs rest) (hformals : p.args = formals) (hbody : p.body = .body body)
    (hargs : Spine w args apairs vs) (hw : w.Wf) (env : NaviEnv) :
    CallsWith X w o args env p body fs rest vs where
  accepted_iff := by
    refine ⟨fun ⟨n, w', hcheck⟩ => ?_, fun hn => ⟨_, _, computes_checkApply hload hp hargs hw hn⟩⟩
    by_contra hn
    rw [computes_iff_runLeaf, runLeaf_checkApply hload hp hargs hw hn] at hcheck
    exact NeverReturns.bind (fun _ => neverReturns_naviError _ _) _ _ _ hcheck
  refused hn r := by
    refine (computes_naviProcedure hload).evaluates.bind_iff.trans ?_
    refine (evaluates_callFn (f := .naviApply_ o args ⟨p.env, env.dynamic⟩)).trans ?_
    have hleaf : ∀ r, (worldSemantics X).Evaluates
        (leaf ⟨p.env, env.dynamic⟩ (checkApply o args)) w r ↔
          (worldSemantics X).Evaluates (leaf ⟨p.env, env.dynamic⟩ (naviArityError p.name)) w r := by
      intro r
      rw [leaf, leaf, evaluates_embed, evaluates_embed]
      have hrun : runLeaf (worldSemantics X).step (checkApply o args) w =
          runLeaf (worldSemantics X).step (naviArityError p.name) w :=
        runLeaf_checkApply hload hp hargs hw hn
      rw [hrun]
    rw [← @leaf_naviArityError_bind ℕ]
    exact ⟨fun h => h.bind_congr fun r hr => (hleaf r).mp hr,
      fun h => h.bind_congr fun r hr => (hleaf r).mpr hr⟩
  accepted hn := by
    obtain ⟨tail, tpairs, htail, hextend⟩ :=
      computes_naviExtendEnvironment (F := evalFns) h hargs hw hn ⟨p.env, env.dynamic⟩
    refine ⟨_, tail, tpairs, boundTo_bindIn hfs hn.length_le,
      (hw.extends_newScope _ _).spine htail, fun r => ?_⟩
    refine (computes_naviProcedure hload).evaluates.bind_iff.trans ?_
    refine (evaluates_callFn (f := .naviApply_ o args ⟨p.env, env.dynamic⟩)).trans ?_
    refine (computes_checkApply hload hp hargs hw hn).leaf.bind_iff.trans ?_
    refine (evaluates_callFn (f := .doApply o vs.length args ⟨p.env, env.dynamic⟩)).trans ?_
    refine (computes_naviProcedure hload).evaluates.bind_iff.trans ?_
    rw [hbody, hformals]
    exact hextend.evaluates.bind_iff

/-- **Calling what `lambda` makes**, of any formals that `lambda_valid` accepts: the call is
accepted exactly for the numbers of arguments that the formals stand for, and then the body is
evaluated in a new scope in which the formals are bound to the arguments, and nothing else is. The
closure and its formals are what they were when it was made. -/
theorem callsWith_naviMakeLambda (hlambda : IsPair w lambda formals body)
    (hvalid : Computes (lambdaValid lambda : Code Bool) w true w') (hw : w.Wf)
    (hmake : Computes (naviMakeLambda formals body env : Code NaviObj) w o w₁)
    (hsame : w₂.load o = w₁.load o)
    (hformals : ∀ rest pairs fs, Formals w rest formals pairs fs →
      Formals w₂ rest formals pairs fs ∧ Distinct fs rest)
    (hargs : Spine w₂ args apairs vs) (hw₂ : w₂.Wf) (env' : NaviEnv) :
    ∃ rest pairs fs p, Formals w rest formals pairs fs ∧
      w₂.load o = .ok (.naviProcedure, .proc p) ∧ CallsWith X w₂ o args env' p body fs rest vs := by
  obtain ⟨pairs, fs, rest, h⟩ := formals_of_lambdaValid hlambda hvalid
  obtain ⟨o', w₁', p, hmake', hload, hp, hargs', hbody, -⟩ :=
    computes_naviMakeLambda (F := evalFns) h hw body env
  obtain ⟨rfl, rfl⟩ := hmake.unique hmake'
  obtain ⟨h₂, hfs⟩ := hformals rest pairs fs h
  exact ⟨rest, pairs, fs, p, h, hsame.trans hload,
    callsWith h₂ hfs (hsame.trans hload) hp hargs' hbody hargs hw₂ env'⟩

end Call

/-- The objects of a world with the form `((a . b) a)` and the list `(1 2)`. -/
def closureCells : List (NaviType × Data) :=
  let o (n : ℕ) : NaviObj := .ptr (.obj n)
  let pair (car cdr : NaviObj) : NaviType × Data := (.naviPair, .pair (some car) (some cdr))
  [(.naviSymbol, .symbol "a" true), (.naviSymbol, .symbol "b" true),
    -- (a . b), (a), the form
    pair (o 0) (o 1), pair (o 0) .nil, pair (o 2) (o 3),
    -- (2), (1 2)
    pair (.fixnum 2) .nil, pair (.fixnum 1) (o 5)]

/-- The closure of the form. -/
def closureOf : NaviProcedure :=
  ⟨true, 1, .ptr (.obj 7), 0, .ptr (.obj 2), .body (.ptr (.obj 3)), none⟩

theorem callsWith_naviMakeLambda_dotted :
    let w := World.ofCells closureCells [("a", 0), ("b", 1)] [⟨none, []⟩] []
    let w₂ := World.ofCells (closureCells ++ [(.naviSymbol, .symbol "lam0" false),
      (.naviProcedure, .proc closureOf)]) [("a", 0), ("b", 1)] [⟨none, []⟩] []
    ∃ rest pairs fs p, Formals w rest (.ptr (.obj 2)) pairs fs ∧
      w₂.load (.ptr (.obj 8)) = .ok (.naviProcedure, .proc p) ∧
      CallsWith noExternals w₂ (.ptr (.obj 8)) (.ptr (.obj 6)) ⟨0, 0⟩ p (.ptr (.obj 3)) fs rest
        [.fixnum 1, .fixnum 2] := by
  intro w w₂
  have hformals : ∀ w' : World, w'.objs (.obj 0) = some (.naviSymbol, .symbol "a" true) →
      w'.objs (.obj 1) = some (.naviSymbol, .symbol "b" true) →
      w'.objs (.obj 2) = some (.naviPair, .pair (some (.ptr (.obj 0))) (some (.ptr (.obj 1)))) →
      Formals w' (.ptr (.obj 1)) (.ptr (.obj 2)) [.ptr (.obj 2)] [.ptr (.obj 0)] := by
    intro w' h0 h1 h2
    have hload : ∀ a c, w'.objs a = some c → w'.load (.ptr a) = .ok c := by
      intro a c h
      rw [World.load, h]
    exact .cons (isPair_ptr.mpr h2) ⟨_, hload _ _ h0⟩ (.nil (.inr ⟨_, hload _ _ h1⟩))
  have hargs : Spine w₂ (.ptr (.obj 6)) [.ptr (.obj 6), .ptr (.obj 5)] [.fixnum 1, .fixnum 2] :=
    .cons (isPair_ptr.mpr rfl) (.cons (isPair_ptr.mpr rfl) .nil)
  have hmake : Computes (naviMakeLambda (.ptr (.obj 2)) (.ptr (.obj 3)) ⟨0, 0⟩ : Code NaviObj) w
      (.ptr (.obj 8)) _ := fun _ => rfl
  have hlambda : IsPair w (.ptr (.obj 4)) (.ptr (.obj 2)) (.ptr (.obj 3)) := isPair_ptr.mpr rfl
  have hvalid : Computes (lambdaValid (.ptr (.obj 4)) : Code Bool) w true w := fun _ => rfl
  refine callsWith_naviMakeLambda hlambda hvalid
    (World.wf_ofCells (by decide)) hmake (show w₂.load _ = _ from rfl)
    (fun rest pairs fs h => ?_) hargs (World.wf_ofCells (by decide)) ⟨0, 0⟩
  obtain ⟨rfl, rfl, rfl⟩ := (hformals w rfl rfl rfl).unique h
  exact ⟨hformals w₂ rfl rfl rfl, by decide, by decide⟩

end NaviScheme
