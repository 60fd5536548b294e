import NaviScheme.Frame.Builtins
import NaviScheme.Language.Builtins

/-!
# The language with numbers and lists

The C functions of the builtins on numbers, booleans and lists return what
`NaviScheme.CoreBuiltin.meaning` says (`NaviScheme.CoreBuiltin.returnsAt`), so that an interpreter
that has them is one that the language with them may be run on (`NaviScheme.coreBuiltins_sound`):
`navi_eval` implements that language, with nothing left to be assumed of any builtin
(`NaviScheme.returns_naviEval_core`).
-/

namespace NaviScheme

open Prog Builtins

variable {B : OtherBuiltins} {X : Externals} {w : World} {o args : NaviObj} {r u v : Value}
  {vs : List Value} {s : BuiltinSpec} {p : ℕ → NaviObj → Leaf NaviObj}

/-- A C function returns a value at arguments, which its declaration admits. -/
structure ReturnsAt (B : OtherBuiltins) (s : BuiltinSpec) (p : ℕ → NaviObj → Leaf NaviObj)
    (vs : List Value) (r : Value) : Prop where
  /-- the declaration -/
  admits : s.Admits vs
  /-- the C function -/
  computes : ∀ w args, w.Wf → ValueAt B w args (.list vs) → ∃ o w',
    Computes (p vs.length args) w o w' ∧ w.Builds nowhere w' ∧ w'.scopes = w.scopes ∧
      w'.nextScope = w.nextScope ∧ w'.Wf ∧ ValueAt B w' o r

/-- It may only read. -/
theorem ReturnsAt.reads (hs : s.Admits vs) (h : ∀ w args, w.Wf → ValueAt B w args (.list vs) →
    ∃ o, Computes (p vs.length args) w o w ∧ ValueAt B w o r) : ReturnsAt B s p vs r where
  admits := hs
  computes w args hw hargs := by
    obtain ⟨o, hrun, ho⟩ := h w args hw hargs
    exact ⟨o, w, hrun, .refl _ _, rfl, rfl, hw, ho⟩

/-! ### Declarations -/

theorem admits_one {t : ArgType} (h : t.Admits v) :
    (⟨1, false, [t]⟩ : BuiltinSpec).Admits [v] :=
  ⟨.inl rfl, by simpa using h⟩

theorem admits_two {t t' : ArgType} (h : t.Admits u) (h' : t'.Admits v) :
    (⟨2, false, [t, t']⟩ : BuiltinSpec).Admits [u, v] :=
  ⟨.inl rfl, by simpa using ⟨h, h'⟩⟩

theorem admits_more {t : ArgType} (h : t.Admits v) :
    (⟨1, true, [t]⟩ : BuiltinSpec).Admits (v :: vs) where
  arity := by
    cases vs with
    | nil => exact .inl rfl
    | cons v' vs => exact .inr ⟨rfl, by simp⟩
  types := by simpa using h

theorem admits_any : (⟨0, true, []⟩ : BuiltinSpec).Admits vs :=
  .of_variadic rfl (Nat.zero_le _) nofun

theorem admits_list (vs : List Value) : ArgType.naviList.Admits (.list vs) := by
  cases vs with
  | nil => exact .inr rfl
  | cons v vs => exact .inl rfl

/-! ### Types -/

theorem returnsAt_typePredicate {t : NaviType} (h : CoreBuiltin.typeMeaning t vs = some r) :
    ReturnsAt B ⟨1, false, [.naviAny]⟩ (fun _ => typePredicate t) vs r := by
  rcases vs with _ | ⟨v, _ | _⟩
  case cons.nil =>
    obtain rfl := Option.some.inj h
    exact .reads (admits_one trivial) fun _ _ hw hargs =>
      ⟨_, computes_typePredicate hw hargs t, .const (.bool _)⟩
  all_goals cases h

theorem returnsAt_scmNot (v : Value) :
    ReturnsAt B ⟨1, false, [.naviAny]⟩ (fun _ => scmNot) [v] (.bool (v = .bool false)) :=
  .reads (admits_one trivial) fun _ _ _ hargs => ⟨_, computes_scmNot hargs, .const (.bool _)⟩

theorem returnsAt_scmBooleanEq (h : CoreBuiltin.booleanEqMeaning vs = some r) :
    ReturnsAt B ⟨1, true, [.type .naviBool]⟩ (fun _ => scmBooleanEq) vs r := by
  rw [CoreBuiltin.booleanEqMeaning.eq_def] at h
  split at h
  · obtain ⟨bs, hbs, rfl⟩ := Option.map_eq_some_iff.mp h
    exact .reads (admits_more rfl) fun _ _ hw hargs =>
      ⟨_, computes_scmBooleanEq hw hargs hbs, .const (.bool _)⟩
  · cases h

theorem returnsAt_scmEqvp (h : CoreBuiltin.sameMeaning vs = some r) :
    ReturnsAt B ⟨2, false, [.naviAny, .naviAny]⟩ (fun _ => scmEqvp) vs r := by
  rcases vs with _ | ⟨u, _ | ⟨v, _ | _⟩⟩
  case cons.cons.nil =>
    obtain ⟨hscalar, rfl⟩ : (u.IsScalar ∨ v.IsScalar) ∧ .bool (u = v) = r := by
      simpa [CoreBuiltin.sameMeaning] using h
    refine .reads (admits_two trivial trivial) fun w args hw hargs => ?_
    obtain ⟨a, hcar, ha⟩ := hargs.first
    obtain ⟨b, hcadr, hb⟩ := hargs.second
    have heq : decide (a = b) = decide (u = v) := by
      rw [decide_eq_decide]
      rcases hscalar with hu | hv
      · exact ha.eq_iff hb hu hw
      · rw [eq_comm, hb.eq_iff ha hv hw, eq_comm]
    refine ⟨.bool (a = b), hcar.bind (hcadr.bind (Computes.ret _)), ?_⟩
    rw [heq]
    exact .const (.bool _)
  all_goals cases h

/-! ### Numbers -/

section Numbers

variable {n : ℤ} {ns : List ℤ} {v' : Value}

theorem ValueAt.fixnumValue (B : OtherBuiltins) (w : World) (n : ℤ) :
    ValueAt B w (.fixnum n) (Value.fixnum n) :=
  .const (.fixnum n)

theorem returnsAt_scmAdd (h : CoreBuiltin.add.meaning vs = some r) :
    ReturnsAt B ⟨0, true, []⟩ (fun _ => scmAdd) vs r := by
  refine .reads admits_any fun w args hw hargs => ?_
  rcases vs with _ | ⟨v, _ | ⟨v', vs⟩⟩
  · obtain rfl := Option.some.inj h
    obtain rfl := hargs.eq_nil
    exact ⟨_, Computes.ret _, .fixnumValue B w 0⟩
  · obtain rfl := Option.some.inj h
    exact computes_single hargs
  · obtain ⟨ns, hns, rfl⟩ := Option.map_eq_some_iff.mp h
    exact ⟨_, computes_scmAdd hw hargs hns, .fixnumValue B w _⟩

theorem returnsAt_scmMul (h : CoreBuiltin.mul.meaning vs = some r) :
    ReturnsAt B ⟨0, true, []⟩ (fun _ => scmMul) vs r := by
  refine .reads admits_any fun w args hw hargs => ?_
  rcases vs with _ | ⟨v, _ | ⟨v', vs⟩⟩
  · obtain rfl := Option.some.inj h
    obtain rfl := hargs.eq_nil
    exact ⟨_, Computes.ret _, .fixnumValue B w 1⟩
  · obtain rfl := Option.some.inj h
    exact computes_single hargs
  · obtain ⟨ns, hns, rfl⟩ := Option.map_eq_some_iff.mp h
    exact ⟨_, computes_scmMul hw hargs hns, .fixnumValue B w _⟩

theorem admits_fixnums (h : fixnums (v :: vs) = some ns) :
    (⟨1, true, [.type .naviFixnum]⟩ : BuiltinSpec).Admits (v :: vs) := by
  obtain ⟨n, ms, rfl, -, -⟩ := fixnums_cons_inv h
  exact admits_more rfl

theorem returnsAt_scmSub (h : fixnums (v :: vs) = some ns) :
    ReturnsAt B ⟨1, true, [.type .naviFixnum]⟩ (fun _ => scmSub) (v :: vs)
      (.fixnum (fixnumBits (FoldOp.leftFold .sub ns))) :=
  .reads (admits_fixnums h) fun w _ hw hargs =>
    ⟨_, computes_scmSub hw hargs h, .fixnumValue B w _⟩

theorem returnsAt_longOp {operator : NaviWord → NaviWord → NaviWord} {f : ℤ → ℤ → ℤ}
    (hop : ∀ a b : NaviWord, NaviWord.tagged (operator a.fixnum b.fixnum).toInt =
      .tagged (f a.value b.value)) (h : CoreBuiltin.longMeaning f vs = some r) :
    ReturnsAt B ⟨2, false, [.type .naviFixnum, .type .naviFixnum]⟩ (fun _ => longOp operator) vs
      r := by
  rw [CoreBuiltin.longMeaning.eq_def] at h
  split at h
  · split_ifs at h with hcond
    obtain ⟨hm, hn, hne⟩ := hcond
    obtain rfl := Option.some.inj h
    exact .reads (admits_two rfl rfl) fun w _ _ hargs =>
      ⟨_, computes_longOp hop hargs hm hn hne, .fixnumValue B w _⟩
  · cases h

theorem returnsAt_numericComparison {op : Comparison}
    (h : CoreBuiltin.orderMeaning op vs = some r) :
    ReturnsAt B ⟨1, true, [.type .naviFixnum]⟩ (fun _ => Builtins.numericComparison op) vs r := by
  cases vs with
  | nil => cases h
  | cons v vs =>
    obtain ⟨ns, hns, rfl⟩ := Option.map_eq_some_iff.mp h
    exact .reads (admits_fixnums hns) fun _ _ hw hargs =>
      ⟨_, computes_numericComparison hw hargs hns, .const (.bool _)⟩

theorem returnsAt_numericPredicate {test : ℤ → Bool}
    (h : CoreBuiltin.testMeaning test vs = some r) :
    ReturnsAt B ⟨1, false, [.type .naviFixnum]⟩ (fun _ => numericPredicate test) vs r := by
  rw [CoreBuiltin.testMeaning.eq_def] at h
  split at h
  · obtain rfl := Option.some.inj h
    exact .reads (admits_one rfl) fun _ _ _ hargs =>
      ⟨_, computes_numericPredicate test hargs, .const (.bool _)⟩
  · cases h

end Numbers

/-! ### Lists -/

theorem returnsAt_scmListp (h : CoreBuiltin.listp.meaning [v] = some r) :
    ReturnsAt B ⟨1, false, [.naviAny]⟩ (fun _ => scmListp) [v] r :=
  .reads (admits_one trivial) fun _ _ hw hargs => computes_scmListp hw hargs h

theorem returnsAt_scmLength (vs : List Value) :
    ReturnsAt B ⟨1, false, [.naviList]⟩ (fun _ => scmLength) [.list vs] (.fixnum vs.length) :=
  .reads (admits_one (admits_list vs)) fun w _ hw hargs =>
    ⟨_, computes_scmLength hw hargs, .fixnumValue B w _⟩

/-- The arguments of a search. -/
theorem searchMeaning_inv {f : Value → List Value → Option Value}
    (h : CoreBuiltin.searchMeaning f vs = some r) :
    ∃ u us, vs = [u, .list us] ∧ u.IsScalar ∧ f u us = some r := by
  rcases vs with _ | ⟨u, _ | ⟨l, _ | _⟩⟩
  case cons.cons.nil =>
    change (if u.IsScalar then _ else _) = some r at h
    split_ifs at h with hu
    obtain ⟨us, hus, hr⟩ := Option.bind_eq_some_iff.mp h
    obtain rfl := Lisp.Val.eq_list_of_toList? hus
    exact ⟨u, us, rfl, hu, hr⟩
  all_goals cases h

theorem returnsAt_scmMemv
    (h : CoreBuiltin.searchMeaning (fun u vs => some (memTail u vs)) vs = some r) :
    ReturnsAt B ⟨2, false, [.naviAny, .naviList]⟩ (fun _ => scmMemv) vs r := by
  obtain ⟨u, us, rfl, hu, hr⟩ := searchMeaning_inv h
  obtain rfl := Option.some.inj hr
  refine .reads (admits_two trivial (admits_list us)) fun w args hw hargs => ?_
  obtain ⟨a, hcar, ha⟩ := hargs.first
  obtain ⟨b, hcadr, hb⟩ := hargs.second
  obtain ⟨pairs, os, hs, hos⟩ := hb.spine
  obtain ⟨o, hloop, ho⟩ := computes_memvLoop hw ha hu hs hos
  exact ⟨o, hcadr.bind ((computes_walk hw hs).bind (hcar.bind hloop)), ho⟩

theorem returnsAt_scmAssv (h : CoreBuiltin.searchMeaning assocEntry vs = some r) :
    ReturnsAt B ⟨2, false, [.naviAny, .naviList]⟩ (fun _ => scmAssv) vs r := by
  obtain ⟨u, us, rfl, hu, hr⟩ := searchMeaning_inv h
  refine .reads (admits_two trivial (admits_list us)) fun w args hw hargs => ?_
  obtain ⟨a, hcar, ha⟩ := hargs.first
  obtain ⟨b, hcadr, hb⟩ := hargs.second
  obtain ⟨pairs, os, hs, hos⟩ := hb.spine
  obtain ⟨o, hloop, ho⟩ := computes_assvLoop hw ha hu hs hos hr
  exact ⟨o, hcadr.bind ((computes_walk hw hs).bind (hcar.bind hloop)), ho⟩

theorem computes_naviMakeList {k : ℤ} (hw : w.Wf) (ho : ValueAt B w o v) :
    ∃ list w', Computes (naviMakeList k o) w list w' ∧ w.Builds nowhere w' ∧
      w'.scopes = w.scopes ∧ w'.nextScope = w.nextScope ∧ w'.Wf ∧
        ValueAt B w' list (.list (List.replicate k.toNat v)) := by
  have hnil : ValueAt B w .nil (.list []) := .nil
  have hloop := computes_makeListLoop k.toNat hw ho hnil
  rwa [List.append_nil] at hloop

theorem returnsAt_scmMakeList (h : CoreBuiltin.makeListMeaning vs = some r) :
    ReturnsAt B ⟨1, true, [.type .naviFixnum]⟩ scmMakeList vs r := by
  rw [CoreBuiltin.makeListMeaning.eq_def] at h
  split at h
  · rename_i k
    split_ifs at h with hk
    obtain rfl := Option.some.inj h
    refine ⟨admits_more rfl, fun w args hw hargs => ?_⟩
    obtain ⟨a, hcar, ha⟩ := hargs.first
    obtain rfl := ha.eq_fixnum
    obtain ⟨list, w', hmake, hbuilds⟩ := computes_naviMakeList (k := k) hw (.fixnumValue B w 0)
    refine ⟨list, w', hcar.bind ((Computes.ret k).bind ?_), hbuilds⟩
    rw [if_neg (not_lt.mpr hk)]
    exact hmake
  · rename_i k v
    split_ifs at h with hk
    obtain rfl := Option.some.inj h
    refine ⟨admits_more rfl, fun w args hw hargs => ?_⟩
    obtain ⟨a, hcar, ha⟩ := hargs.first
    obtain ⟨o, hcadr, ho⟩ := hargs.second
    obtain rfl := ha.eq_fixnum
    obtain ⟨list, w', hmake, hbuilds⟩ := computes_naviMakeList (k := k) hw ho
    refine ⟨list, w', hcar.bind ((Computes.ret k).bind ?_), hbuilds⟩
    rw [if_neg (not_lt.mpr hk)]
    exact hcadr.bind hmake
  · cases h

/-! ### All of them -/

/-- **The builtins return what they should**: where a builtin has a meaning, its declaration admits
the arguments, and the C function returns the value. The objects that there were are as they
were. -/
theorem CoreBuiltin.returnsAt (b : CoreBuiltin) (h : b.meaning vs = some r) :
    ReturnsAt B b.spec b.run vs r := by
  cases b with
  | not =>
    rcases vs with _ | ⟨v, _ | _⟩
    case cons.nil =>
      obtain rfl := Option.some.inj h
      exact returnsAt_scmNot v
    all_goals cases h
  | booleanp | charp | procedurep | pairp | nullp => exact returnsAt_typePredicate h
  | booleanEq => exact returnsAt_scmBooleanEq h
  | eqp | eqvp => exact returnsAt_scmEqvp h
  | add => exact returnsAt_scmAdd h
  | mul => exact returnsAt_scmMul h
  | sub =>
    cases vs with
    | nil => cases h
    | cons v vs =>
      obtain ⟨ns, hns, rfl⟩ := Option.map_eq_some_iff.mp h
      exact returnsAt_scmSub hns
  | quotient => exact returnsAt_longOp NaviWord.toInt_sdiv_fixnum h
  | remainder => exact returnsAt_longOp (fun a b => congrArg _ (BitVec.toInt_srem _ _)) h
  | lt | gt | lte | gte | numeq => exact returnsAt_numericComparison h
  | zerop | positivep | negativep | oddp | evenp => exact returnsAt_numericPredicate h
  | listp =>
    rcases vs with _ | ⟨v, _ | _⟩
    case cons.nil => exact returnsAt_scmListp h
    all_goals cases h
  | length =>
    rcases vs with _ | ⟨v, _ | _⟩
    case cons.nil =>
      obtain ⟨us, hus, rfl⟩ := Option.map_eq_some_iff.mp h
      obtain rfl := Lisp.Val.eq_list_of_toList? hus
      exact returnsAt_scmLength us
    all_goals cases h
  | makeList => exact returnsAt_scmMakeList h
  | memq | memv => exact returnsAt_scmMemv h
  | assq | assv => exact returnsAt_scmAssv h

theorem meaning_coreBuiltins_inv {n : ℕ} (h : coreBuiltins.meaning n vs = some r) :
    ∃ b, CoreBuiltin.all[n]? = some b ∧ b.meaning vs = some r :=
  Option.bind_eq_some_iff.mp h

/-- The language may be run on an interpreter that has the builtins. -/
theorem coreBuiltins_sound (h : X.HasCore) : coreBuiltins.Sound X where
  admits n vs v hv := by
    obtain ⟨b, hb, hv⟩ := meaning_coreBuiltins_inv hv
    have hspec : coreBuiltins.spec n = b.spec := by simp [coreBuiltins, hb]
    rw [hspec]
    exact (b.returnsAt (B := coreBuiltins) hv).admits
  computes n vs v hv w args env hw _ hargs := by
    obtain ⟨b, hb, hv⟩ := meaning_coreBuiltins_inv hv
    rw [h n b hb]
    exact (b.returnsAt hv).computes w args hw hargs

theorem hasCore_coreExternals : coreExternals.HasCore := by
  intro n b hb
  simp only [coreExternals, hb, Option.map_some, Option.getD_some]

section Run

variable {env : NaviEnv} {e : Value} {σ σ' : FrameStore}

/-- **`navi_eval` implements the language with numbers and lists**: if the rules give an expression
a value, where the builtins mean what `NaviScheme.CoreBuiltin.meaning` says, `navi_eval` returns an
object that stands for it. -/
theorem returns_naviEval_core (hX : ∀ S, X.Spares S True) (hcore : X.HasCore)
    (h : Lisp.Runs coreBuiltins.lang σ env.lexical (.expr e) [v] σ')
    (hw : w.Lives coreBuiltins σ) (ho : ValueAt coreBuiltins w o e) :
    ∃ o' w', (worldSemantics X).Returns (.naviEval o env) w (.ok o' w') ∧
      w'.Lives coreBuiltins σ' ∧ ValueAt coreBuiltins w' o' v ∧
        ∀ a c, w.objs a = some c → w'.objs a = some c := by
  have hmeets : Meets X coreBuiltins σ env.lexical e v σ' :=
    meetsTask_of_runs hX (coreBuiltins_sound hcore) h
  exact hmeets.returns hw ho

end Run

/-- The procedures that the program uses, and the program `(if (< 1 2) (* 6 7) 0)`. -/
def productCells : List (NaviType × Data) :=
  let o (n : ℕ) : NaviObj := .ptr (.obj n)
  let pair (car cdr : NaviObj) : NaviType × Data := (.naviPair, .pair (some car) (some cdr))
  let builtin (i name : ℕ) : NaviType × Data := (.naviProcedure,
    .proc ⟨(coreBuiltins.spec i).variadic, (coreBuiltins.spec i).arity, o name, 0, .nil,
      .cProc (.other i), some (coreBuiltins.spec i).types⟩)
  [(.naviSymbol, .symbol "if" true), (.naviSymbol, .symbol "<" true),
    (.naviSymbol, .symbol "*" true), (.naviSymbol, .symbol "else" true),
    (.naviSymbol, .symbol "=>" true),
    (.naviSpecial, .proc ⟨(specialSpec .if).variadic, (specialSpec .if).arity, o 0, 0, .nil,
      .cProc .scmIf, some (specialSpec .if).types⟩), builtin 12 1, builtin 9 2,
    -- (< 1 2)
    pair (o 1) (o 9), pair (.fixnum 1) (o 10), pair (.fixnum 2) .nil,
    -- (* 6 7)
    pair (o 2) (o 12), pair (.fixnum 6) (o 13), pair (.fixnum 7) .nil,
    -- the program
    pair (o 0) (o 15), pair (o 8) (o 16), pair (o 11) (o 17), pair (.fixnum 0) .nil]

/-- The world with the program. -/
def productWorld : World :=
  World.ofCells productCells [("if", 0), ("<", 1), ("*", 2), ("else", 3), ("=>", 4)]
    [⟨none, [⟨.ptr (.obj 2), .ptr (.obj 7)⟩, ⟨.ptr (.obj 1), .ptr (.obj 6)⟩,
      ⟨.ptr (.obj 0), .ptr (.obj 5)⟩]⟩] []

section Product

/-- The program. -/
def productProgram : Value :=
  .list [.sym "if", .list [.sym "<", Value.fixnum 1, Value.fixnum 2],
    .list [.sym "*", Value.fixnum 6, Value.fixnum 7], Value.fixnum 0]

/-- The names of the procedures. -/
def productVars : String → Option Value :=
  Function.update (Function.update
    (Function.update (fun _ => none) "if" (some (.special .if)))
    "<" (some (.prim (.other 12)))) "*" (some (.prim (.other 9)))

/-- The frames before the program is evaluated. -/
def productFrames : FrameStore :=
  ⟨Function.update (fun _ => none) 0 (some ⟨none, productVars⟩), 1⟩

theorem lives_productWorld : productWorld.Lives coreBuiltins productFrames := by
  have hwf : productWorld.Wf := World.wf_ofCells (by decide)
  have hclosed : productWorld.Closed :=
    World.closed_ofCells (by decide) (by decide) (by decide) (by decide)
  have hsym {x : String} {n : ℕ} (h : productWorld.symtab.lookup x = some (.obj n)) :
    IsSym productWorld (.ptr (.obj n)) x := ⟨_, rfl, h⟩
  have hprim (i n : ℕ) {p : NaviProcedure}
      (h : productWorld.objs (.obj n) = some (.naviProcedure, .proc p))
      (hp : p.Declares (.other i) (coreBuiltins.spec i)) :
      ValueAt coreBuiltins productWorld (.ptr (.obj n)) (.prim (.other i)) :=
    .prim (World.load_ptr h) rfl hp
  have hif : FrameAt coreBuiltins productWorld [⟨.ptr (.obj 0), .ptr (.obj 5)⟩]
      (Function.update (fun _ => none) "if" (some (.special .if))) :=
    (FrameAt.nil _).setIn hwf (hsym rfl) (.special (World.load_ptr rfl) ⟨rfl, rfl, rfl, rfl⟩)
  have hlt := hif.setIn hwf (hsym (x := "<") (n := 1) rfl) (hprim 12 6 rfl ⟨rfl, rfl, rfl, rfl⟩)
  have htimes := hlt.setIn hwf (hsym (x := "*") (n := 2) rfl) (hprim 9 7 rfl ⟨rfl, rfl, rfl, rfl⟩)
  have hkeywords : ∀ x ∈ ["else", "=>"], ∃ o, IsSym productWorld o x := by
    simp only [List.forall_mem_cons]
    exact ⟨⟨_, hsym (n := 3) rfl⟩, ⟨_, hsym (n := 4) rfl⟩, nofun⟩
  exact .global hwf hclosed hkeywords rfl rfl htimes

theorem valueAt_productProgram :
    ValueAt coreBuiltins productWorld (.ptr (.obj 14)) productProgram := by
  have hsym (x : String) (n : ℕ) (h : productWorld.symtab.lookup x = some (.obj n)) :
    ValueAt coreBuiltins productWorld (.ptr (.obj n)) (.sym x) := .sym ⟨_, rfl, h⟩
  have hnum (n : ℤ) : ValueAt coreBuiltins productWorld (.fixnum n) (Value.fixnum n) :=
    .fixnumValue _ _ n
  have hpair (n : ℕ) {car cdr : NaviObj} {u v : Value}
      (h : productWorld.objs (.obj n) = some (.naviPair, .pair (some car) (some cdr)))
      (hcar : ValueAt coreBuiltins productWorld car u)
      (hcdr : ValueAt coreBuiltins productWorld cdr v) :
      ValueAt coreBuiltins productWorld (.ptr (.obj n)) (.pair u v) := .pair
      (isPair_ptr.mpr h) hcar hcdr
  have htest := hpair 8 rfl (hsym "<" 1 rfl) (hpair 9 rfl (hnum 1) (hpair 10 rfl (hnum 2) .nil))
  have hproduct := hpair 11 rfl (hsym "*" 2 rfl)
    (hpair 12 rfl (hnum 6) (hpair 13 rfl (hnum 7) .nil))
  exact hpair 14 rfl (hsym "if" 0 rfl) (hpair 15 rfl htest (hpair 16 rfl hproduct
    (hpair 17 rfl (hnum 0) .nil)))

theorem runs_productProgram : Lisp.Runs coreBuiltins.lang productFrames 0 (.expr productProgram)
    [Value.fixnum 42] productFrames := by
  have hbinary {x : String} {i : ℕ} {m n : ℤ} {v : Value}
      (hx : productVars x = some (.prim (.other i)))
      (hv : coreBuiltins.meaning i [Value.fixnum m, Value.fixnum n] = some v) :
      Lisp.Runs coreBuiltins.lang productFrames 0
        (.expr (.list [.sym x, Value.fixnum m, Value.fixnum n])) [v] productFrames :=
    .prim (.var (.here rfl hx) nofun) (.operandsCons (.atom trivial)
      (.operandsCons (.atom trivial) .operandsNil)) hv
  have hif : productVars "if" = some (.special .if) := rfl
  exact .ifTrue (.var (.here rfl hif) nofun) (Nat.le_refl 1)
    (hbinary (x := "<") (i := 12) rfl rfl) rfl (hbinary (x := "*") (i := 9) rfl rfl)

end Product

theorem returns_naviEval_core_product :
    ∃ o' w', (worldSemantics coreExternals).Returns (.naviEval (.ptr (.obj 14)) ⟨0, 0⟩) productWorld
      (.ok o' w') ∧ w'.Lives coreBuiltins productFrames ∧
        ValueAt coreBuiltins w' o' (Value.fixnum 42) ∧
        ∀ a c, productWorld.objs a = some c → w'.objs a = some c :=
  returns_naviEval_core coreExternals_spares hasCore_coreExternals runs_productProgram
    lives_productWorld valueAt_productProgram

end NaviScheme
