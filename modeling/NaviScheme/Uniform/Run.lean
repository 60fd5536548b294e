import NaviScheme.Uniform.World

/-!
# Runs at other addresses

A run of a program and one of the readdressed program in a corresponding world go together
(`NaviScheme.alike_of_natural`): they come to the same values, at other addresses, or are left
by the same exceptions, and leave corresponding worlds. Objects that the second world has and no
one knows are as they were.

Every world in which all that is referred to has been allocated corresponds to itself
(`NaviScheme.World.Closed.corresponds`).
-/

namespace NaviScheme

open Prog

variable {X : Externals} {c : Stage Readdressing Addr World} {kept : Set Addr} {α : Type}
  [MulAction Readdressing α] {w : World} {o o' : NaviObj}

/-- **No function looks at addresses.** -/
theorem Externals.Natural.uniform (hX : X.Natural) :
    (worldSemantics X).Uniform Readdressing orderly where
  body g f := (natural_evalBody hX f).1 g
  heeds f := (natural_evalBody hX f).2
  enter _ _ _ := rfl
  leave _ _ := rfl

theorem noExternals_natural : noExternals.Natural where
  builtin _ _ _ _ := natural_ret NaviObj.void
  naviEqualp a b := by
    refine ⟨fun g => congrArg Prog.ret ?_, trivial⟩
    rw [smul_eq]
    exact decide_eq_decide.mpr (smul_left_cancel_iff g).symm
  naviOpenInputFile_ _ := natural_ret NaviObj.void
  naviCloseInputPort _ := natural_ret ()
  naviPortSetFoldCase _ _ := natural_ret ()
  naviRead _ := natural_ret NaviObj.eof

variable (kept) in
/-- **A run and a readdressed one go together.** -/
theorem alike_of_natural (hX : X.Natural) (hc : World.Corresponds c) {p : Code α}
    {p' : Readdressing → Code α} (hp : Natural p p') (hV : OnlyOn Readdressing c.names p) :
    (worldSemantics X).Alike (World.course kept) c (fun c' v v' => c'.Names v v') p
      (p' c.naming) := by
  refine Semantics.Alike.of_run fun n => ?_
  rw [← hp.1]
  exact Semantics.run_smul hX.uniform
    (fun c o (hc : World.Corresponds c) ho hasks => hc.steps ho hasks) n hp.2 hc hV

variable (kept) in
/-- Calls of a function and of the readdressed one. -/
theorem alike_callFn (hX : X.Natural) (hc : World.Corresponds c) {f : EvalFn}
    (hf : OnlyOn Readdressing c.names f) (objs objs' : List NaviObj)
    (scopes scopes' : List ScopeAddr) :
    (worldSemantics X).Alike (World.course kept) c (Returned (F := evalFns) c.naming f)
      (callFn f objs scopes) (callFn (c.naming • f) objs' scopes') := by
  refine Semantics.Alike.of_run fun n => ?_
  rw [run_callFn, run_callFn]
  exact Semantics.runFn_smul hX.uniform
    (fun c o (hc : World.Corresponds c) ho hasks => hc.steps ho hasks) n hc hf

variable (kept) in
/-- Calls of a procedure with corresponding arguments. -/
theorem alike_applyForce (hX : X.Natural) (hc : World.Corresponds c)
    {proc proc' args args' : NaviObj} (hproc : c.Names proc proc') (hargs : c.Names args args')
    (env : NaviEnv) (objs objs' : List NaviObj) (scopes scopes' : List ScopeAddr) :
    (worldSemantics X).Alike (World.course kept) c
      (fun c' (v v' : NaviObj) => c'.Names v v')
      (callFn (.applyForce proc args env) objs scopes)
      (callFn (.applyForce proc' args' env) objs' scopes') := by
  obtain rfl := hproc.1
  obtain rfl := hargs.1
  have hf : OnlyOn Readdressing c.names (EvalFn.applyForce proc args env) := fun g g' hg =>
    congrArg₂ (EvalFn.applyForce · · env) (hproc.2 g g' hg) (hargs.2 g g' hg)
  exact alike_callFn kept hX hc hf objs objs' scopes scopes'

/-! ### A world corresponds to itself -/

theorem onlyOn_of_avoids {V : Set Addr} (h : Avoids (fun a => a ∉ V) o) :
    OnlyOn Readdressing V o := by
  intro g g' hg
  cases o with
  | ptr a => exact congrArg NaviObj.ptr (hg a (not_not.mp h))
  | _ => rfl

/-- Contents whose objects are known. -/
theorem onlyOn_data {V : Set Addr} {d : Data} (h : ∀ o ∈ d.objs, OnlyOn Readdressing V o) :
    OnlyOn Readdressing V d := by
  intro g g' hg
  have hobj (o : NaviObj) (ho : o ∈ d.objs) : g • o = g' • o := h o ho g g' hg
  cases d with
  | pair car cdr =>
    cases car <;> cases cdr <;> simp_all [Data.objs]
  | thunk expr env => simp_all [Data.objs]
  | proc p =>
    obtain ⟨variadic, arity, name, penv, pargs, body, types⟩ := p
    cases body <;> simp_all [Data.objs, smul_procedure]
  | vector data =>
    have hmap : g • data = g' • data := List.map_congr_left fun o ho => by
      cases o with
      | none => rfl
      | some o => exact congrArg some (hobj o (List.mem_filterMap.mpr ⟨_, ho, rfl⟩))
    rw [smul_vector, smul_vector, hmap]
  | escape env arg => cases arg <;> simp_all [Data.objs]
  | port expr file pos => simp_all [Data.objs]
  | _ => rfl

/-- A stage at which the second world is the first, and all objects are known. -/
def World.start (w : World) : Stage Readdressing Addr World := ⟨{a | w.Allocated a}, 1, w, w⟩

theorem World.names_start {x : α} (h : OnlyOn Readdressing {a | w.Allocated a} x) :
    w.start.Names x x := ⟨(one_smul _ x).symm, h⟩

theorem World.Has.names_start (h : w.Has o) : w.start.Names o o :=
  World.names_start (onlyOn_of_avoids h)

/-- A well-formed world in which all that is referred to has been allocated corresponds to
itself. -/
theorem World.Closed.corresponds (hw : w.Closed) (hwf : w.Wf) : World.Corresponds w.start := by
  have horderly : w.Orderly := by
    refine ⟨hwf.objs, fun a d hd => ?_⟩
    cases a with
    | obj n => trivial
    | thunk n =>
      obtain ⟨expr, env, hthunk⟩ := hwf.thunks n d hd
      rw [hthunk]
      trivial
  have hlist {β : Type} [MulAction Readdressing β] {l : List β}
      (h : ∀ x ∈ l, OnlyOn Readdressing {a | w.Allocated a} x) :
      OnlyOn Readdressing {a | w.Allocated a} l := fun g g' hg =>
    List.map_congr_left fun x hx => h x hx g g' hg
  refine ⟨fun a ha => ?_, fun a ha => ha, fun a ha => ?_, fun s => names_start ?_,
    names_start (hlist fun e he g g' hg => ?_), names_start (hlist fun l hl g g' hg => ?_), rfl,
    rfl, rfl, horderly, horderly⟩
  · rw [show w.start.naming • a = a from one_smul _ a]
    refine names_start fun g g' hg => ?_
    change g • w.objs a = g' • w.objs a
    cases hobj : w.objs a with
    | none => rfl
    | some c =>
      have hdata : OnlyOn Readdressing {a | w.Allocated a} c.2 := onlyOn_data fun o ho =>
        onlyOn_of_avoids (hw.hides.objs a c (not_not.mpr ha) hobj o ho)
      exact congrArg some (Prod.ext rfl (hdata g g' hg))
  · rw [show w.start.naming • a = a from one_smul _ a]
    exact ha
  · intro g g' hg
    change g • w.scopes s = g' • w.scopes s
    cases hsc : w.scopes s with
    | none => rfl
    | some sc =>
      have hbs : g • sc.bindings = g' • sc.bindings := List.map_congr_left fun b hb => by
        have hb := hw.hides.scopes s sc hsc b hb
        exact congrArg₂ NaviBinding.mk (onlyOn_of_avoids hb.1 g g' hg)
          (onlyOn_of_avoids hb.2 g g' hg)
      exact congrArg (fun bs => some (⟨sc.next, bs⟩ : WorldScope)) hbs
  · exact Prod.ext rfl (hg e.2 (not_not.mp (hw.hides.symtab e he)))
  · have hl := hw.hides.libraries l hl
    rw [smul_library, smul_library, onlyOn_of_avoids hl.1 g g' hg, onlyOn_of_avoids hl.2 g g' hg]

end NaviScheme
