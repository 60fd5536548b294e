import NaviScheme.Frame.Values

/-!
# The list of operands

`procedure_call` evaluates the operands of a call one after another, and puts their values
into pairs that it makes for them. No program sees these pairs before the procedure is called:
nothing but the list itself refers to them (`NaviScheme.operandList_private`).
-/

namespace NaviScheme

open Prog

variable {X : Externals} {S : Addr → Prop} {w w' : World} {o : NaviObj}

/-- A closed world that hides the objects at the addresses `S`, all of which have been
allocated. -/
structure World.Private (w : World) (S : Addr → Prop) : Prop where
  /-- the world is closed -/
  closed : w.Closed
  /-- it hides the objects -/
  hides : w.Hides S
  /-- they have been allocated -/
  allocated : ∀ a, S a → w.Allocated a

/-- An object that has been allocated, and is none of those at the addresses `S`. -/
structure World.Sees (w : World) (S : Addr → Prop) (o : NaviObj) : Prop where
  /-- it has been allocated -/
  has : w.Has o
  /-- it is none of those at `S` -/
  avoids : Avoids S o

/-! ### Writing and making private objects -/

section Making

variable {a b : Addr} {d : Data}

@[simp] theorem World.make_pair_fst (w : World) (d : Data) :
    (w.make .naviPair d).1 = .ptr (.obj w.nextObj) := rfl

theorem World.objs_make_pair (w : World) (d : Data) (b : Addr) :
    (w.make .naviPair d).2.objs b =
      if b = .obj w.nextObj then some (.naviPair, d) else w.objs b :=
  w.objs_setObj (.obj w.nextObj) b (.naviPair, d)

theorem World.allocated_make_pair (w : World) (d : Data) (b : Addr) :
    (w.make .naviPair d).2.Allocated b ↔ w.Allocated b ∨ b = .obj w.nextObj := by
  cases b with
  | obj n =>
    change n < w.nextObj + 1 ↔ n < w.nextObj ∨ Addr.obj n = .obj w.nextObj
    rw [Addr.obj.injEq]
    omega
  | thunk n =>
    change n < w.nextThunk ↔ n < w.nextThunk ∨ Addr.thunk n = .obj w.nextObj
    simp

theorem World.not_allocated_nextObj (w : World) : ¬ w.Allocated (.obj w.nextObj) :=
  lt_irrefl w.nextObj

namespace World.Private

/-- Writing a private object. -/
theorem setObj {c : NaviType × Data} (h : w.Private S) (ha : S a)
    (hc : ∀ o ∈ c.2.objs, w.Has o) : (w.setObj a c).Private S where
  closed := by
    refine ⟨fun b hb => ?_, { h.closed.hides with objs := fun b c' hb hobj => ?_ }⟩
    · have hne : b ≠ a := fun heq => hb (heq ▸ h.allocated a ha)
      rw [World.objs_setObj, if_neg hne]
      exact h.closed.objs b hb
    · rw [World.objs_setObj] at hobj
      split at hobj
      · cases hobj
        exact hc
      · exact h.closed.hides.objs b c' hb hobj
  hides :=
    { h.hides with
      objs := fun b c' hb hobj => by
        have hne : b ≠ a := fun heq => hb (heq ▸ ha)
        rw [World.objs_setObj, if_neg hne] at hobj
        exact h.hides.objs b c' hb hobj }
  allocated := h.allocated

/-- Making a private pair. -/
theorem make (h : w.Private S) (hd : ∀ o ∈ d.objs, w.Has o) :
    (w.make .naviPair d).2.Private fun a => S a ∨ a = .obj w.nextObj where
  closed := by
    have hsub : ∀ b, ¬ (w.make .naviPair d).2.Allocated b → ¬ w.Allocated b := fun b hb hw =>
      hb ((w.allocated_make_pair d b).mpr (.inl hw))
    have hold := h.closed.hides.mono hsub fun b hb _ => h.closed.objs b hb
    refine ⟨fun b hb => ?_, { hold with objs := fun b c' hb hobj => ?_ }⟩
    · have hne : b ≠ .obj w.nextObj := fun heq => hb ((w.allocated_make_pair d b).mpr (.inr heq))
      rw [w.objs_make_pair, if_neg hne]
      exact h.closed.objs b (hsub b hb)
    · rw [w.objs_make_pair] at hobj
      split at hobj
      · cases hobj
        exact fun o ho => avoids_mono hsub (hd o ho)
      · exact hold.objs b c' hb hobj
  hides := by
    have hold : w.Hides fun a => S a ∨ a = .obj w.nextObj := by
      refine (h.hides.or h.closed.hides).mono (fun b hb => ?_) fun b hb hnot => ?_
      · refine hb.imp_right ?_
        rintro rfl
        exact w.not_allocated_nextObj
      · exact h.closed.objs b (hb.resolve_left fun hS => hnot (.inl hS))
    refine { hold with objs := fun b c' hb hobj => ?_ }
    have hne : b ≠ .obj w.nextObj := fun heq => hb (.inr heq)
    rw [w.objs_make_pair, if_neg hne] at hobj
    exact hold.objs b c' hb hobj
  allocated b hb := (w.allocated_make_pair d b).mpr (hb.imp_left (h.allocated b))

/-- Guards are not objects. -/
theorem guarded (h : w.Private S) (n : ℕ) : World.Private { w with nextGuard := n } S :=
  ⟨⟨h.closed.objs, { h.closed.hides with }⟩, { h.hides with }, h.allocated⟩

end World.Private

theorem World.Sees.make (d : Data) (h : w.Sees S o) :
    (w.make .naviPair d).2.Sees (fun a => S a ∨ a = .obj w.nextObj) o where
  has := avoids_mono (fun b hb hw => hb ((w.allocated_make_pair d b).mpr (.inl hw))) h.has
  avoids := avoids_or.mpr ⟨h.avoids, avoids_mono (fun _ hb => hb ▸ w.not_allocated_nextObj) h.has⟩

end Making

/-! ### Reading and evaluating -/

section Eval

variable {e v : NaviObj} {env : NaviEnv} {objs : List NaviObj} {scopes : List ScopeAddr}

theorem World.Sees.mono (h : w.Sees S o) (hle : ∀ a, w.Allocated a → w'.Allocated a) :
    w'.Sees S o :=
  ⟨avoids_mono (fun a ha hw => ha (hle a hw)) h.has, h.avoids⟩

/-- What an object that is seen refers to. -/
theorem World.Private.load {c : NaviType × Data} (h : w.Private S) (ho : w.Sees S o)
    (hload : w.load o = .ok c) {o' : NaviObj} (ho' : o' ∈ c.2.objs) : w.Sees S o' :=
  ⟨h.closed.hides.load ho.has hload o' ho', h.hides.load ho.avoids hload o' ho'⟩

theorem World.Private.naviCar {F : FnSig} (h : w.Private S) (ho : w.Sees S o)
    (hcar : Computes (naviCar o : Prog evalOps F _) w v w) : w.Sees S v := by
  obtain ⟨t, cdr, hload⟩ := naviCar_inv hcar
  exact h.load ho hload (by simp [Data.objs])

theorem World.Private.naviCdr {F : FnSig} (h : w.Private S) (ho : w.Sees S o)
    (hcdr : Computes (naviCdr o : Prog evalOps F _) w v w) : w.Sees S v := by
  obtain ⟨t, car, hload⟩ := naviCdr_inv hcdr
  exact h.load ho hload (by simp [Data.objs])

/-- Evaluating something leaves private objects alone, and does not yield one. -/
theorem World.Private.naviEval (hX : ∀ S, X.Spares S True) (h : w.Private S) (he : w.Sees S e)
    (hrun : (worldSemantics X).Evaluates (naviEval e env objs scopes) w (.ok v w')) :
    w'.Private S ∧ w'.Sees S v ∧ (∀ a, S a → w'.objs a = w.objs a) ∧
      ∀ a, w.Allocated a → w'.Allocated a := by
  obtain ⟨hv, hclosed, hle⟩ := h.closed.of_evaluates hX
    (fun T hT => spares_naviEval (avoids_mono hT he.has) fun _ h => h) hrun
  obtain ⟨hv', hspare⟩ := h.hides.of_evaluates (hX S)
    (spares_naviEval he.avoids fun _ h => h) hrun fun a ha _ => h.allocated a ha
  exact ⟨⟨hclosed, hspare.hides, fun a ha => hle a (h.allocated a ha)⟩, ⟨hv, hv'⟩, hspare.same, hle⟩

end Eval

/-! ### The loop of `procedure_call` -/

/-- What the loop of `procedure_call` has made of a list of private pairs whose last pair is at
`a`: the other pairs are as they were, and behind that pair there are new ones. -/
structure OperandsFrom (w : World) (S : Addr → Prop) (a : Addr) (v : NaviObj) (w' : World)
    (pairs xs : List NaviObj) : Prop where
  /-- the new pairs are private, too -/
  isPrivate : w'.Private fun b => S b ∨ NaviObj.ptr b ∈ pairs
  /-- they have not been there before -/
  new : ∀ b, NaviObj.ptr b ∈ pairs → ¬ w.Allocated b
  /-- they are no thunks -/
  objs : ∀ q ∈ pairs, ∃ n, q = .ptr (.obj n)
  /-- the other pairs are as they were -/
  same : ∀ b, S b → b ≠ a → w'.objs b = w.objs b
  /-- the new pairs are behind the last -/
  last : ∃ rest, w'.objs a = some (.naviPair, .pair (some v) (some rest)) ∧ Spine w' rest pairs xs
  /-- the values are not private -/
  values : ∀ x ∈ xs, w'.Sees (fun b => S b ∨ NaviObj.ptr b ∈ pairs) x
  /-- what has been allocated stays allocated -/
  allocated : ∀ b, w.Allocated b → w'.Allocated b

theorem World.Sees.of_new {pairs : List NaviObj} (h : w.Sees S o)
    (hle : ∀ a, w.Allocated a → w'.Allocated a)
    (hnew : ∀ b, NaviObj.ptr b ∈ pairs → ¬ w.Allocated b) :
    w'.Sees (fun b => S b ∨ NaviObj.ptr b ∈ pairs) o :=
  ⟨(h.mono hle).has, avoids_or.mpr ⟨h.avoids, avoids_mono hnew h.has⟩⟩

/-- Writing the first field of a pair. -/
theorem computes_naviSetCar {F : FnSig} {t : NaviType} {car cdr : Option NaviObj} {x : Addr}
    (b : NaviObj) (h : w.load (.ptr x) = .ok (t, .pair car cdr)) :
    Computes (naviSetCar (.ptr x) b : Prog evalOps F _) w ()
      (w.setObj x (t, .pair (some b) cdr)) := by
  refine (computes_load h).bind (Computes.perform ?_)
  rw [World.step, h]
  rfl

theorem OperandsFrom.nil {a : Addr} {v : NaviObj} (h : w.Private S) (ha : S a)
    (hv : w.Sees S v) :
    OperandsFrom w S a v (w.setObj a (.naviPair, .pair (some v) (some .nil))) [] [] where
  isPrivate := by simpa using h.setObj ha (by simpa [Data.objs, World.Has] using hv.has)
  new := nofun
  objs := nofun
  same b _ hba := by rw [World.objs_setObj, if_neg hba]
  last := ⟨.nil, by rw [World.objs_setObj, if_pos rfl], .nil⟩
  values := nofun
  allocated _ hb := hb

/-- A new pair, and those behind it. -/
theorem OperandsFrom.cons {w₁ : World} {m : ℕ} {a : Addr} {v x : NaviObj}
    {pairs xs : List NaviObj} (hp : ¬ w.Allocated (.obj m)) (hS : ∀ b, S b → b ≠ .obj m) (ha : S a)
    (hobj : w₁.objs a = some (.naviPair, .pair (some v) (some (.ptr (.obj m)))))
    (hsame : ∀ b, S b → b ≠ a → w₁.objs b = w.objs b)
    (hx : w₁.Sees (fun b => S b ∨ b = .obj m) x) (hle : ∀ b, w.Allocated b → w₁.Allocated b)
    (h : OperandsFrom w₁ (fun b => S b ∨ b = .obj m) (.obj m) x w' pairs xs) :
    OperandsFrom w S a v w' (.ptr (.obj m) :: pairs) (x :: xs) := by
  obtain ⟨rest, hlast, hspine⟩ := h.last
  have hmem : (fun b => (S b ∨ b = .obj m) ∨ NaviObj.ptr b ∈ pairs) =
      fun b => S b ∨ NaviObj.ptr b ∈ NaviObj.ptr (.obj m) :: pairs := by
    funext b
    rw [List.mem_cons, NaviObj.ptr.injEq, or_assoc]
  refine ⟨hmem ▸ h.isPrivate, fun b hb => ?_, fun q hq => ?_, fun b hb hba => ?_, ?_, ?_,
    fun b hb => h.allocated b (hle b hb)⟩
  · obtain heq | hb := List.mem_cons.mp hb
    · exact NaviObj.ptr.inj heq ▸ hp
    · exact fun hw => h.new b hb (hle b hw)
  · obtain rfl | hq := List.mem_cons.mp hq
    · exact ⟨m, rfl⟩
    · exact h.objs q hq
  · rw [h.same b (.inl hb) (hS b hb), hsame b hb hba]
  · refine ⟨.ptr (.obj m), ?_, .cons (isPair_ptr.mpr hlast) hspine⟩
    rw [h.same a (.inl ha) (hS a ha), hobj]
  · rw [← hmem]
    intro y hy
    obtain rfl | hy := List.mem_cons.mp hy
    · exact hx.of_new h.allocated h.new
    · exact h.values y hy

theorem World.load_ptr {a : Addr} {c : NaviType × Data} (h : w.objs a = some c) :
    w.load (.ptr a) = .ok c := by
  rw [World.load, h]

/-- What evaluating one operand into a private pair leaves. -/
structure OperandInto (w : World) (S : Addr → Prop) (p : Addr) (v cdr : NaviObj) (w' : World) :
    Prop where
  /-- private objects stay private -/
  isPrivate : w'.Private S
  /-- the value is in the pair -/
  pair : w'.objs p = some (.naviPair, .pair (some v) (some .nil))
  /-- the other private objects are as they were -/
  same : ∀ b, S b → b ≠ p → w'.objs b = w.objs b
  /-- the value is not private -/
  value : w'.Sees S v
  /-- neither are the operands that follow -/
  rest : w'.Sees S cdr
  /-- what has been allocated stays allocated -/
  allocated : ∀ b, w.Allocated b → w'.Allocated b

/-- One operand, of a list that is read in a world with a private pair for the value. -/
theorem operandInto_of_run (hX : ∀ S, X.Spares S True) {β : Type} {n : ℕ} {p : Addr}
    {cons : NaviObj} {car : Option NaviObj} {env : NaviEnv} {objs : List NaviObj}
    {scopes : List ScopeAddr} {g : NaviObj → Code β} {r : β} (h : w.Private S) (hp : S p)
    (hobj : w.objs p = some (.naviPair, .pair car (some .nil))) (hcons : w.Sees S cons)
    (hrun : (worldSemantics X).run n (do
      let val ← naviEval (← naviCar cons) env objs scopes
      naviSetCar (.ptr p) val
      g (← naviCdr cons)) w = .ok r w') :
    ∃ e v cdr w₂ w₁, Computes (naviCar cons : Code _) w e w ∧
      (worldSemantics X).Returns (.naviEval e env) w (.ok v w₂) ∧ HasCdr w₂ cons cdr ∧
      w₂.SameBut (· = p) w₁ ∧ OperandInto w S p v cdr w₁ ∧
      (worldSemantics X).run n (g cdr) w₁ = .ok r w' := by
  obtain ⟨e, he, hrun⟩ := (inspects_naviCar cons).run_of_bind hrun nofun
  obtain ⟨v, w₂, heval, hrun⟩ := run_bind_ok hrun
  replace heval : (worldSemantics X).Evaluates (naviEval e env objs scopes) w (.ok v w₂) :=
    ⟨nofun, n, heval⟩
  obtain ⟨h₂, hv, hsame, hle⟩ := h.naviEval hX (h.naviCar hcons he) heval
  have hset := computes_naviSetCar (F := evalFns) v (World.load_ptr ((hsame p hp).trans hobj))
  obtain ⟨cdr, hcdr, hrun⟩ := (inspects_naviCdr cons).run_of_bind ((hset.run_bind n).symm.trans hrun)
    nofun
  have hwritten : w₂.SameBut (· = p) (w₂.setObj p (.naviPair, .pair (some v) (some .nil))) :=
    .setObj (· = p) rfl _
  have hpair : (w₂.setObj p (.naviPair, .pair (some v) (some .nil))).Private S :=
    h₂.setObj hp (by simpa [Data.objs, World.Has] using hv.has)
  refine ⟨e, v, cdr, w₂, _, he, evaluates_callFn.mp heval, ?_, hwritten,
    ⟨hpair, ?_, fun b hb hne => ?_, ⟨hv.has, hv.avoids⟩, ?_, hle⟩, hrun⟩
  · obtain ⟨t, c, hload⟩ := naviCdr_inv hcdr
    refine ⟨t, c, (hwritten.load (avoids_mono ?_ hcons.avoids)).symm.trans hload⟩
    rintro b rfl
    exact hp
  · rw [World.objs_setObj, if_pos rfl]
  · rw [World.objs_setObj, if_neg hne, hsame b hb]
  · have hcons₁ := hcons.mono hle
    exact hpair.naviCdr ⟨hcons₁.has, hcons₁.avoids⟩ hcdr

/-- A world with a new pair behind a pair that holds `v`. -/
def World.linked (w : World) (a : Addr) (v : NaviObj) : World :=
  (w.make .naviPair (.pair (some .void) (some .nil))).2.setObj a
    (.naviPair, .pair (some v) (some (.ptr (.obj w.nextObj))))

section Linked

variable {a : Addr} {v : NaviObj}

theorem World.objs_linked (b : Addr) :
    (w.linked a v).objs b =
      if b = a then some (.naviPair, .pair (some v) (some (.ptr (.obj w.nextObj))))
      else if b = .obj w.nextObj then some (.naviPair, .pair (some .void) (some .nil))
      else w.objs b := by
  rw [World.linked, World.objs_setObj, World.objs_make_pair]

theorem World.allocated_linked (b : Addr) :
    (w.linked a v).Allocated b ↔ w.Allocated b ∨ b = .obj w.nextObj :=
  w.allocated_make_pair (.pair (some .void) (some .nil)) b

theorem World.Sees.linked (h : w.Sees S o) :
    (w.linked a v).Sees (fun b => S b ∨ b = .obj w.nextObj) o :=
  have hmake := h.make (.pair (some .void) (some .nil))
  ⟨hmake.has, hmake.avoids⟩

theorem World.SameBut.linked {own : Addr → Prop} (ha : own a) (hnew : own (.obj w.nextObj)) :
    w.SameBut own (w.linked a v) := (make_pair own hnew _).trans (setObj own ha _)

theorem World.Private.linked (h : w.Private S) (ha : S a) (hv : w.Sees S v) :
    (w.linked a v).Private fun b => S b ∨ b = .obj w.nextObj := by
  refine (h.make (by simp [Data.objs, World.Has])).setObj (.inl ha) fun o ho => ?_
  obtain rfl | rfl : o = v ∨ o = .ptr (.obj w.nextObj) := by simpa [Data.objs] using ho
  · exact (hv.make _).has
  · exact fun hnew => hnew ((w.allocated_make_pair _ _).mpr (.inr rfl))

theorem run_linked {β : Type} {cdr : Option NaviObj} (hne : a ≠ .obj w.nextObj)
    (hobj : w.objs a = some (.naviPair, .pair (some v) cdr)) (n : ℕ) {g : NaviObj → Code β} :
    (worldSemantics X).run n (do
      let pair ← naviMakePair .void .nil
      naviSetCdr (.ptr a) pair
      g pair) w = (worldSemantics X).run n (g (.ptr (.obj w.nextObj))) (w.linked a v) := by
  refine ((computes_make .naviPair (.pair (some .void) (some .nil))).run_bind n).trans ?_
  refine (computes_naviSetCdr _ (World.load_ptr (c := (.naviPair, .pair (some v) cdr)) ?_)).run_bind n
  rw [World.objs_make_pair, if_neg hne, hobj]

end Linked

/-- A pair that an operand is in, and what is behind it, in a world in which a pair has been
made. -/
theorem World.Sees.load_linked {a : Addr} {v : NaviObj} (h : w.Sees S o) (ha : S a) :
    (w.linked a v).load o = w.load o := by
  have hsame : w.SameBut (fun b => b = a ∨ b = .obj w.nextObj) (w.linked a v) :=
    .linked (.inl rfl) (.inr rfl)
  refine hsame.load (avoids_or.mpr ⟨avoids_mono ?_ h.avoids, avoids_mono ?_ h.has⟩)
  · rintro b rfl
    exact ha
  · rintro b rfl
    exact w.not_allocated_nextObj

/-- **The loop of `procedure_call`** evaluates the operands, and puts their values into new
pairs. -/
theorem operandLoop_values (hX : ∀ S, X.Spares S True) {n : ℕ} {a : Addr} {v cons : NaviObj}
    {cdr : Option NaviObj} {env : NaviEnv} (h : w.Private S) (ha : S a)
    (hobj : w.objs a = some (.naviPair, .pair (some v) cdr)) (hv : w.Sees S v)
    (hcons : w.Sees S cons)
    (hrun : (worldSemantics X).runFn n (.operandLoop cons (.ptr a) env) w = .ok () w') :
    ∃ pairs xs last, OperandsFrom w S a v w' pairs xs ∧
      Operands X env (fun b => b = a ∨ NaviObj.ptr b ∈ pairs) w cons xs w' last ∧
      NoPair w' last := by
  induction n generalizing w S a v cons cdr with
  | zero => cases hrun
  | succ n ih =>
    replace hrun : (worldSemantics X).run n (operandLoopBody cons (.ptr a) env) w = .ok () w' := hrun
    obtain ⟨b, hb, hrun⟩ := (inspects_naviIsPair cons).run_of_bind hrun nofun
    have hpair := naviIsPair_inv hb
    cases b with
    | true =>
      have hne : ∀ b, S b → b ≠ .obj w.nextObj := fun b hb heq =>
        w.not_allocated_nextObj (heq ▸ h.allocated b hb)
      have hle : ∀ b, w.Allocated b → (w.linked a v).Allocated b := fun b hb =>
        (World.allocated_linked b).mpr (.inl hb)
      -- a pair is made, then the operand is evaluated into it, then come the other operands
      obtain ⟨e, x, cdr', w₂, w₁, he, heval, hcdr, hwritten, hinto, hrun⟩ := operandInto_of_run hX
        (h.linked ha hv) (.inr rfl)
        (by rw [World.objs_linked, if_neg (hne a ha).symm, if_pos rfl]) hcons.linked
        ((run_linked (hne a ha) hobj n).symm.trans hrun)
      obtain ⟨pairs, xs, last, hfrom, hops, hlast⟩ := ih hinto.isPrivate (.inr rfl) hinto.pair
        hinto.value hinto.rest ((run_callFn n w₁).symm.trans hrun)
      refine ⟨_, _, last, .cons w.not_allocated_nextObj hne ha ?_ (fun b hb hba => ?_) hinto.value
        (fun b hb => hinto.allocated b (hle b hb)) hfrom, ?_, hlast⟩
      · rw [hinto.same a (.inl ha) (hne a ha), World.objs_linked, if_pos rfl]
      · rw [hinto.same b (.inl hb) (hne b hb), World.objs_linked, if_neg hba, if_neg (hne b hb)]
      · obtain ⟨d, hd⟩ := hpair.mp rfl
        obtain ⟨t, c, hcar⟩ := naviCar_inv he
        obtain rfl : t = .naviPair :=
          (Prod.mk.inj (Except.ok.inj (hcar.symm.trans ((hcons.load_linked ha).trans hd)))).1
        refine .eval (.linked (.inl rfl) (.inr List.mem_cons_self)) ⟨c, hcar⟩ heval hcdr
          ((hops.of_same (hwritten.mono fun b hb => .inl hb)).mono fun b hb => ?_)
        exact .inr (List.mem_cons.mpr (hb.imp_left (congrArg NaviObj.ptr)))
    | false =>
      have hset := computes_naviSetCdr (F := evalFns) .nil (World.load_ptr hobj)
      have hok : (Res.ok () w' : Res Fault EvalExn World Unit) = .ok () _ := hrun.symm.trans (hset _)
      obtain rfl : w' = _ := (Res.ok.inj hok).2
      have hwritten : w.SameBut (· = a) (w.setObj a (.naviPair, .pair (some v) (some .nil))) :=
        .setObj (· = a) rfl _
      refine ⟨[], [], cons, .nil h ha hv, .nil (hwritten.mono fun b hb => .inl hb), fun d hd => ?_⟩
      have hload := hwritten.load (avoids_mono (fun b hb => hb ▸ ha) hcons.avoids)
      exact Bool.false_ne_true (hpair.mpr ⟨d, hload.symm.trans hd⟩)

/-! ### Lists that are made -/

/-- A list whose pairs are as they were. -/
theorem Spine.of_objs {o : NaviObj} {pairs xs : List NaviObj} (h : Spine w o pairs xs)
    (hsame : ∀ b, NaviObj.ptr b ∈ pairs → w'.objs b = w.objs b) : Spine w' o pairs xs := by
  refine h.of_isPair fun p hp car cdr hpair => ?_
  obtain ⟨a, rfl, hobj⟩ := hpair.ptr
  exact isPair_ptr.mpr ((hsame a hp).trans hobj)

/-- A proper list whose pairs are private, and none of whose elements is. -/
structure PrivateList (w : World) (S : Addr → Prop) (o : NaviObj) (pairs xs : List NaviObj) :
    Prop where
  /-- the private objects -/
  isPrivate : w.Private S
  /-- the pairs are -/
  mem : ∀ b, NaviObj.ptr b ∈ pairs → S b
  /-- they are no thunks -/
  objs : ∀ q ∈ pairs, ∃ n, q = .ptr (.obj n)
  /-- the list -/
  spine : Spine w o pairs xs
  /-- the elements are not private -/
  values : ∀ x ∈ xs, w.Sees S x

/-- A list that is private is seen to be proper. -/
theorem PrivateList.computes_naviIsProperList {F : FnSig} {pairs xs : List NaviObj}
    (h : PrivateList w S o pairs xs) :
    Computes (naviIsProperList o : Prog evalOps F _) w true w := by
  have hlength : pairs.length ≤ w.nextObj := h.spine.length_le fun p hp => by
    obtain ⟨n, rfl⟩ := h.objs p hp
    exact ⟨n, h.isPrivate.allocated _ (h.mem _ hp), rfl⟩
  have hwalk : Computes (walk o : Prog evalOps F _) w (pairs, .nil) w := by
    refine Computes.perform ?_
    change (w.walk (w.nextObj + 1) o).map (·, w) = _
    rw [h.spine.walk_eq (Nat.lt_succ_of_le hlength)]
    rfl
  exact hwalk.bind (Computes.ret _)

theorem World.Closed.isPrivate (h : w.Closed) : w.Private fun _ => False :=
  ⟨h, h.hides.mono (fun _ h => h.elim) fun a ha _ => h.objs a ha, fun _ h => h.elim⟩

theorem World.Has.sees (h : w.Has o) : w.Sees (fun _ => False) o :=
  ⟨h, by cases o <;> simp [Avoids]⟩

theorem World.Sees.setObj {a : Addr} {c : NaviType × Data} (h : w.Sees S o) :
    (w.setObj a c).Sees S o := ⟨h.has, h.avoids⟩

/-- A world with a new pair behind a pair that holds `x`. The new pair holds `v`, and what is
behind it has not been written. -/
def World.appended (w : World) (a : Addr) (x v : NaviObj) : World :=
  ((w.make .naviPair (.pair none none)).2.setObj a
    (.naviPair, .pair (some x) (some (.ptr (.obj w.nextObj))))).setObj (.obj w.nextObj)
      (.naviPair, .pair (some v) none)

section Appended

variable {a : Addr} {x v : NaviObj}

theorem World.objs_appended (b : Addr) :
    (w.appended a x v).objs b =
      if b = .obj w.nextObj then some (.naviPair, .pair (some v) none)
      else if b = a then some (.naviPair, .pair (some x) (some (.ptr (.obj w.nextObj))))
      else w.objs b := by
  rw [World.appended, World.objs_setObj, World.objs_setObj, World.objs_make_pair]
  by_cases hb : b = .obj w.nextObj <;> simp [hb]

theorem World.Sees.appended (h : w.Sees S o) :
    (w.appended a x v).Sees (fun b => S b ∨ b = .obj w.nextObj) o :=
  (h.make (.pair none none)).setObj.setObj

theorem World.Private.appended (h : w.Private S) (ha : S a) (hx : w.Sees S x) (hv : w.Sees S v) :
    (w.appended a x v).Private fun b => S b ∨ b = .obj w.nextObj := by
  refine ((h.make (d := .pair none none) (by simp [Data.objs])).setObj (.inl ha) fun o ho => ?_).setObj
    (.inr rfl) fun o ho => ?_
  · obtain rfl | rfl : o = x ∨ o = .ptr (.obj w.nextObj) := by simpa [Data.objs] using ho
    · exact (hx.make _).has
    · exact fun hnot => hnot ((w.allocated_make_pair _ _).mpr (.inr rfl))
  · obtain rfl : o = v := by simpa [Data.objs] using ho
    exact (hv.make (.pair none none)).has

theorem computes_appended {F : FnSig} {α : Type} {c : Option NaviObj}
    {g : NaviObj → Prog evalOps F α} {r : α} (hne : a ≠ .obj w.nextObj)
    (hobj : w.objs a = some (.naviPair, .pair (some x) c))
    (hg : Computes (g (.ptr (.obj w.nextObj))) (w.appended a x v) r w') :
    Computes (do
      let pair ← naviMakeEmptyPair
      naviSetCdr (.ptr a) pair
      naviSetCar pair v
      g pair) w r w' := by
  refine (computes_make .naviPair (.pair none none)).bind ?_
  refine (computes_naviSetCdr _
    (World.load_ptr (a := a) (c := (.naviPair, .pair (some x) c)) ?_)).bind
    ((computes_naviSetCar v
      (World.load_ptr (a := .obj w.nextObj) (c := (.naviPair, .pair none none)) ?_)).bind hg)
  · rw [World.objs_make_pair, if_neg hne, hobj]
  · rw [World.objs_setObj, if_neg hne.symm, World.objs_make_pair, if_pos rfl]

end Appended

/-- The pairs that a list is extended by. -/
theorem computes_appendPairs {F : FnSig} {a : Addr} {x : NaviObj} {c : Option NaviObj}
    {os : List NaviObj} (h : w.Private S) (ha : S a)
    (hobj : w.objs a = some (.naviPair, .pair (some x) c)) (hx : w.Sees S x)
    (hos : ∀ o ∈ os, w.Sees S o) :
    ∃ pairs w', Computes (appendPairs (.ptr a) os : Prog evalOps F _) w () w' ∧
      OperandsFrom w S a x w' pairs os ∧ ∀ b, w.Allocated b → b ≠ a → w'.objs b = w.objs b := by
  induction os generalizing w S a x c with
  | nil =>
    refine ⟨[], _, computes_naviSetCdr _ (World.load_ptr hobj), .nil h ha hx, fun b _ hba => ?_⟩
    rw [World.objs_setObj, if_neg hba]
  | cons o os ih =>
    have hne : ∀ b, S b → b ≠ .obj w.nextObj := fun b hb heq =>
      w.not_allocated_nextObj (heq ▸ h.allocated b hb)
    have ho := hos o List.mem_cons_self
    have hle : ∀ b, w.Allocated b → (w.appended a x o).Allocated b := fun b hb =>
      (w.allocated_make_pair (.pair none none) b).mpr (.inl hb)
    obtain ⟨pairs, w', hrest, hfrom, hsame⟩ := ih (h.appended ha hx ho) (.inr rfl)
      (by rw [World.objs_appended, if_pos rfl]) ho.appended
      fun y hy => (hos y (List.mem_cons_of_mem _ hy)).appended
    refine ⟨_, w', computes_appended (hne a ha) hobj hrest, .cons w.not_allocated_nextObj hne ha
      ?_ (fun b hb hba => ?_) ho.appended hle hfrom, fun b hb hba => ?_⟩
    · rw [World.objs_appended, if_neg (hne a ha), if_pos rfl]
    · rw [World.objs_appended, if_neg (hne b hb), if_neg hba]
    · have hnew : b ≠ .obj w.nextObj := fun heq => w.not_allocated_nextObj (heq ▸ hb)
      rw [hsame b (hle b hb) hnew, World.objs_appended, if_neg hnew, if_neg hba]

/-- A list that has been made: nothing else refers to its pairs, and the rest is as it was. -/
structure MadeList (w w' : World) (list : NaviObj) (pairs xs : List NaviObj) : Prop where
  /-- it is private -/
  isPrivate : PrivateList w' (fun b => NaviObj.ptr b ∈ pairs) list pairs xs
  /-- it has been allocated -/
  has : w'.Has list
  /-- its pairs have not been there before -/
  new : ∀ b, NaviObj.ptr b ∈ pairs → ¬ w.Allocated b
  /-- what has been allocated stays allocated -/
  allocated : ∀ b, w.Allocated b → w'.Allocated b
  /-- and as it was -/
  same : ∀ b, w.Allocated b → w'.objs b = w.objs b

theorem MadeList.nil (hw : w.Closed) : MadeList w w .nil [] [] where
  isPrivate := ⟨by simpa using hw.isPrivate, nofun, nofun, .nil, nofun⟩
  has := trivial
  new := nofun
  allocated _ hb := hb
  same _ _ := rfl

theorem MadeList.sees {list v : NaviObj} {pairs xs : List NaviObj} (h : MadeList w w' list pairs xs)
    (hv : w.Has v) : w'.Sees (fun b => NaviObj.ptr b ∈ pairs) v :=
  ⟨avoids_mono (fun _ hb hw => hb (h.allocated _ hw)) hv, avoids_mono h.new hv⟩

theorem mem_cons_pairs (p : Addr) (pairs : List NaviObj) :
    (fun b => NaviObj.ptr b ∈ pairs ∨ b = p) = fun b => NaviObj.ptr b ∈ NaviObj.ptr p :: pairs := by
  funext b
  rw [List.mem_cons, NaviObj.ptr.injEq, or_comm]

/-- A pair that is put before a list. -/
theorem MadeList.cons {list v : NaviObj} {pairs xs : List NaviObj} (h : MadeList w w' list pairs xs)
    (hv : w.Has v) :
    MadeList w (w'.make .naviPair (.pair (some v) (some list))).2 (.ptr (.obj w'.nextObj))
      (.ptr (.obj w'.nextObj) :: pairs) (v :: xs) where
  isPrivate := by
    have hsees := h.sees hv
    rw [← mem_cons_pairs]
    refine ⟨h.isPrivate.isPrivate.make (by simpa [Data.objs] using ⟨hsees.has, h.has⟩),
      fun b hb => (List.mem_cons.mp hb).symm.imp_right NaviObj.ptr.inj, fun q hq => ?_, ?_,
      fun y hy => ?_⟩
    · obtain rfl | hq := List.mem_cons.mp hq
      · exact ⟨_, rfl⟩
      · exact h.isPrivate.objs q hq
    · refine .cons (isPair_ptr.mpr ?_) (h.isPrivate.spine.of_objs fun b hb => ?_)
      · rw [World.objs_make_pair, if_pos rfl]
      · have hne : b ≠ .obj w'.nextObj := fun heq =>
          w'.not_allocated_nextObj (heq ▸ h.isPrivate.isPrivate.allocated b hb)
        rw [World.objs_make_pair, if_neg hne]
    · obtain rfl | hy := List.mem_cons.mp hy
      · exact hsees.make _
      · exact (h.isPrivate.values y hy).make _
  has hnot := hnot ((w'.allocated_make_pair _ _).mpr (.inr rfl))
  new b hb := by
    obtain heq | hb := List.mem_cons.mp hb
    · exact fun hw => w'.not_allocated_nextObj (NaviObj.ptr.inj heq ▸ h.allocated b hw)
    · exact h.new b hb
  allocated b hb := (w'.allocated_make_pair _ b).mpr (.inl (h.allocated b hb))
  same b hb := by
    have hne : b ≠ .obj w'.nextObj := fun heq =>
      w'.not_allocated_nextObj (heq ▸ h.allocated b hb)
    rw [World.objs_make_pair, if_neg hne, h.same b hb]

/-- **A list that is made is private.** -/
theorem computes_naviList {F : FnSig} {vs : List NaviObj} (hw : w.Closed)
    (hvs : ∀ v ∈ vs, w.Has v) :
    ∃ list w' pairs, Computes (naviList vs : Prog evalOps F _) w list w' ∧
      MadeList w w' list pairs vs := by
  cases vs with
  | nil => exact ⟨.nil, w, [], Computes.ret _, .nil hw⟩
  | cons v vs =>
    have hsees : ∀ y, w.Has y → ((w.make .naviPair (.pair none none)).2.setObj (.obj w.nextObj)
        (.naviPair, .pair (some v) none)).Sees (fun b => False ∨ b = .obj w.nextObj) y :=
      fun y hy => (hy.sees.make _).setObj
    have hv := hsees v (hvs v List.mem_cons_self)
    have hmake := computes_make (F := F) (w := w) .naviPair (.pair none none)
    have hcar := computes_naviSetCar (F := F) v (World.load_ptr (a := .obj w.nextObj)
      (w := (w.make .naviPair (.pair none none)).2) (by rw [World.objs_make_pair, if_pos rfl]))
    have hpriv := (hw.isPrivate.make (d := .pair none none) (by simp [Data.objs])).setObj
      (c := (.naviPair, .pair (some v) none)) (.inr rfl) fun o ho => by
        obtain rfl : o = v := by simpa [Data.objs] using ho
        exact hv.has
    obtain ⟨pairs, w', hrest, hfrom, hsame⟩ := computes_appendPairs (F := F) (c := none) hpriv
      (.inr rfl) (by rw [World.objs_setObj, if_pos rfl]) hv fun y hy =>
        hsees y (hvs y (List.mem_cons_of_mem _ hy))
    obtain ⟨rest, hlast, hspine⟩ := hfrom.last
    have hmade : ∀ b, w.Allocated b → (w.make .naviPair (.pair none none)).2.Allocated b :=
      fun b hb => (w.allocated_make_pair (.pair none none) b).mpr (.inl hb)
    have hmem : (fun b => (False ∨ b = .obj w.nextObj) ∨ NaviObj.ptr b ∈ pairs) =
        fun b => NaviObj.ptr b ∈ NaviObj.ptr (.obj w.nextObj) :: pairs := by
      funext b
      rw [List.mem_cons, NaviObj.ptr.injEq, false_or]
    refine ⟨.ptr (.obj w.nextObj), w', .ptr (.obj w.nextObj) :: pairs,
      hmake.bind (hcar.bind (hrest.bind (Computes.ret _))), ⟨hmem ▸ hfrom.isPrivate, fun _ hb => hb,
      fun q hq => ?_, .cons (isPair_ptr.mpr hlast) hspine, ?_⟩, ?_, fun b hb => ?_,
      fun b hb => hfrom.allocated b (hmade b hb), fun b hb => ?_⟩
    · obtain rfl | hq := List.mem_cons.mp hq
      · exact ⟨_, rfl⟩
      · exact hfrom.objs q hq
    · rw [← hmem]
      intro y hy
      obtain rfl | hy := List.mem_cons.mp hy
      · exact hv.of_new hfrom.allocated hfrom.new
      · exact hfrom.values y hy
    · exact fun hnot => hnot (hfrom.isPrivate.allocated _ (.inl (.inr rfl)))
    · obtain heq | hb := List.mem_cons.mp hb
      · exact NaviObj.ptr.inj heq ▸ w.not_allocated_nextObj
      · exact fun hw => hfrom.new b hb (hmade b hw)
    · have hnew : b ≠ .obj w.nextObj := fun heq => w.not_allocated_nextObj (heq ▸ hb)
      rw [hsame b (hmade b hb) hnew, World.objs_setObj, if_neg hnew, World.objs_make_pair,
        if_neg hnew]

/-! ### `procedure_call` -/

/-- What `procedure_call` does before it calls the procedure: the list of the values of the
operands. -/
def operandList (proc args : NaviObj) (env : NaviEnv) : Code NaviObj := do
  if ← naviIsPair args then
    let first ← naviMakePair .void .nil
    let guard ← naviGcGuard first env
    let val ← naviEval (← naviCar args) env [proc, args, first] env.scopes
    naviSetCar first val
    callFn (.operandLoop (← naviCdr args) first env) [proc, first] env.scopes
    naviGcUnguard guard
    return first
  else return .nil

theorem procedureCallBody_eq (proc args : NaviObj) (env : NaviEnv) :
    procedureCallBody proc args env =
      operandList proc args env >>= fun list => naviApply proc list env [] [] := by
  rw [procedureCallBody, operandList, bind_assoc]
  congr 1
  funext b
  cases b with
  | true =>
    simp only [if_true, bind_assoc]
    congr! 12
    refine Eq.trans ?_ (bind_assoc _ _ _).symm
    rfl
  | false => rfl

/-- What `procedure_call` has made of the operands `args`: a list of the values `xs`. -/
structure OperandListFrom (X : Externals) (env : NaviEnv) (w : World) (args : NaviObj) (w' : World)
    (list : NaviObj) (pairs xs : List NaviObj) : Prop where
  /-- the list -/
  spine : Spine w' list pairs xs
  /-- no one else has its pairs -/
  isPrivate : w'.Private fun b => NaviObj.ptr b ∈ pairs
  /-- they have not been there before -/
  new : ∀ b, NaviObj.ptr b ∈ pairs → ¬ w.Allocated b
  /-- the values are other objects -/
  values : ∀ x ∈ xs, w'.Sees (fun b => NaviObj.ptr b ∈ pairs) x
  /-- they are the values of all operands -/
  operands : ∃ last, Operands X env (fun b => NaviObj.ptr b ∈ pairs) w args xs w' last ∧
    NoPair w' last

theorem operandList_values (hX : ∀ S, X.Spares S True) {proc args list : NaviObj} {env : NaviEnv}
    (hw : w.Closed) (hargs : w.Has args)
    (hrun : (worldSemantics X).Evaluates (operandList proc args env) w (.ok list w')) :
    ∃ pairs xs, OperandListFrom X env w args w' list pairs xs := by
  obtain ⟨-, n, hrun⟩ := hrun
  obtain ⟨b, hb, hrun⟩ := (inspects_naviIsPair args).run_of_bind hrun nofun
  have hpair := naviIsPair_inv hb
  have hnone : w.Private fun _ => False := hw.isPrivate
  cases b with
  | true =>
    -- the first pair is made; `navi_gc_guard` and `navi_gc_unguard` leave the objects alone
    have hmake := hnone.make (d := .pair (some .void) (some .nil)) (by simp [Data.objs, World.Has])
    have hseen := hargs.sees.make (.pair (some .void) (some .nil))
    have hrun := ((computes_make .naviPair (.pair (some .void) (some .nil))).run_bind n).symm.trans
      hrun
    have hobj := w.objs_make_pair (.pair (some .void) (some .nil)) (.obj w.nextObj)
    rw [if_pos rfl] at hobj
    have hmade : w.SameBut (· = .obj w.nextObj)
        (w.make .naviPair (.pair (some .void) (some .nil))).2 :=
      .make_pair (· = .obj w.nextObj) rfl _
    have hold : ∀ b, w.Allocated b →
        (w.make .naviPair (.pair (some .void) (some .nil))).2.Allocated b := fun b hb =>
      (w.allocated_make_pair _ b).mpr (.inl hb)
    generalize (w.make .naviPair (.pair (some .void) (some .nil))).2 = w₁
      at hrun hmake hseen hobj hmade hold
    have hguard : Computes (naviGcGuard (.ptr (.obj w.nextObj)) env : Code _) w₁
        (some (env.lexical, w₁.nextGuard)) { w₁ with nextGuard := w₁.nextGuard + 1 } :=
      Computes.perform rfl
    have hrun := (hguard.run_bind n).symm.trans hrun
    obtain ⟨e, x, cdr, w₂, w₃, he, heval, hcdr, hwritten, hinto, hrun⟩ := operandInto_of_run hX
      (hmake.guarded (w₁.nextGuard + 1)) (.inr rfl) hobj ⟨hseen.has, hseen.avoids⟩ hrun
    obtain ⟨u, w₄, hloop, hrun⟩ := run_bind_ok hrun
    have hlist : (Res.ok (.ptr (.obj w.nextObj)) w₄ : Res Fault EvalExn World NaviObj) =
        .ok list w' := hrun
    obtain ⟨rfl, rfl⟩ := Res.ok.inj hlist
    obtain ⟨pairs, xs, last, hfrom, hops, hlast⟩ := operandLoop_values hX hinto.isPrivate (.inr rfl)
      hinto.pair hinto.value hinto.rest ((run_callFn n w₃).symm.trans hloop)
    obtain ⟨rest, hrest, hspine⟩ := hfrom.last
    have hmem : (fun b => (False ∨ b = .obj w.nextObj) ∨ NaviObj.ptr b ∈ pairs) =
        fun b => NaviObj.ptr b ∈ NaviObj.ptr (.obj w.nextObj) :: pairs := by
      funext b
      rw [List.mem_cons, NaviObj.ptr.injEq, false_or]
    have hown : ∀ b, b = .obj w.nextObj → NaviObj.ptr b ∈ NaviObj.ptr (.obj w.nextObj) :: pairs :=
      fun b hb => List.mem_cons.mpr (.inl (congrArg NaviObj.ptr hb))
    refine ⟨_, x :: xs, .cons (isPair_ptr.mpr hrest) hspine, hmem ▸ hfrom.isPrivate, fun b hb => ?_,
      ?_, last, ?_, hlast⟩
    · obtain heq | hb := List.mem_cons.mp hb
      · exact NaviObj.ptr.inj heq ▸ w.not_allocated_nextObj
      · exact fun hw => hfrom.new b hb (hinto.allocated b (hold b hw))
    · rw [← hmem]
      intro y hy
      obtain rfl | hy := List.mem_cons.mp hy
      · exact hinto.value.of_new hfrom.allocated hfrom.new
      · exact hfrom.values y hy
    · have hguarded := hmade.trans (.guarded w₁ (w₁.nextGuard + 1))
      obtain ⟨d, hd⟩ := hpair.mp rfl
      obtain ⟨t, c, hcar⟩ := naviCar_inv he
      have hload := hguarded.load (avoids_mono (fun b hb => hb ▸ w.not_allocated_nextObj) hargs)
      obtain rfl : t = .naviPair :=
        (Prod.mk.inj (Except.ok.inj (hcar.symm.trans (hload.trans hd)))).1
      refine .eval (hguarded.mono hown) ⟨c, hcar⟩ heval hcdr
        ((hops.of_same (hwritten.mono fun b hb => .inl hb)).mono fun b hb => ?_)
      exact List.mem_cons.mpr (hb.imp_left (congrArg NaviObj.ptr))
  | false =>
    have hok : (Res.ok .nil w : Res Fault EvalExn World NaviObj) = .ok list w' := hrun
    obtain ⟨rfl, rfl⟩ := Res.ok.inj hok
    refine ⟨[], [], .nil, by simpa using hnone, fun b hb => absurd hb List.not_mem_nil,
      fun x hx => absurd hx List.not_mem_nil, args, .nil (.refl _ _), fun d hd => ?_⟩
    exact Bool.false_ne_true (hpair.mpr ⟨d, hd⟩)

/-- **No one but `procedure_call` has the pairs of the list of operands**, and their values are
other objects. -/
theorem operandList_private (hX : ∀ S, X.Spares S True) {proc args list : NaviObj} {env : NaviEnv}
    (hw : w.Closed) (hargs : w.Has args)
    (hrun : (worldSemantics X).Evaluates (operandList proc args env) w (.ok list w')) :
    ∃ pairs xs, Spine w' list pairs xs ∧ (w'.Private fun b => NaviObj.ptr b ∈ pairs) ∧
      ∀ x ∈ xs, w'.Sees (fun b => NaviObj.ptr b ∈ pairs) x := by
  obtain ⟨pairs, xs, hfrom⟩ := operandList_values hX hw hargs hrun
  exact ⟨pairs, xs, hfrom.spine, hfrom.isPrivate, hfrom.values⟩

end NaviScheme
