import Mathlib.Algebra.Group.Action.Basic
import Mathlib.Data.Set.Basic
import NaviScheme.Lib.Contract

/-!
# Programs that do not look at names

A group renames what operations and calls are about, and what they reply
(`Prog.RenamesOps`, `Prog.RenamesFns`). It then renames programs: `g • p` asks what `p` asks,
under other names, and goes on as `p` does when it is told the same under the names of `p`.

A program depends on the names in a set (`Prog.OnlyOn`) if no other name matters to how it
is renamed. If the body of every function, renamed, is the body of the function that is
renamed, then a run of a program and one of the renamed program go together, step by step, as
long as states that differ in names do (`Prog.Semantics.matches_smul`). What is known of the
names, and how they correspond, grows along a run: a name that is new in one run need not be
the one that is new in the other (`Prog.Stage`).
-/

namespace Prog

/-- A renamed operation has the replies of the operation. -/
class RenamesOps (G : Type) (O : OpSig) [SMul G O.Op] : Prop where
  reply_smul (g : G) (o : O.Op) : O.Reply (g • o) = O.Reply o

/-- A renamed function returns what the function does. -/
class RenamesFns (G : Type) (F : FnSig) [SMul G F.Fn] : Prop where
  ret_smul (g : G) (f : F.Fn) : F.Ret (g • f) = F.Ret f

/-- No names but those in a set matter to how something is renamed. -/
def OnlyOn (G : Type) {A α : Type} [SMul G A] [SMul G α] (V : Set A) (x : α) : Prop :=
  ∀ g g' : G, (∀ a ∈ V, g • a = g' • a) → g • x = g' • x

section OnlyOn

variable {G A α β : Type} [SMul G A] [SMul G α] [SMul G β] {V V' : Set A} {x : α}

theorem OnlyOn.mono (h : OnlyOn G V x) (hV : V ⊆ V') : OnlyOn G V' x :=
  fun g g' hg => h g g' fun a ha => hg a (hV ha)

/-- What is made of something without looking at names. -/
theorem OnlyOn.map {f : α → β} (hf : ∀ (g : G) x, g • f x = f (g • x)) (h : OnlyOn G V x) :
    OnlyOn G V (f x) := fun g g' hg => by
  rw [hf, hf, h g g' hg]

end OnlyOn

/-! ### Stages -/

/-- Two states, the names of the first that are known, and how they are named in the second. -/
structure Stage (G A σ : Type) where
  /-- the names that are known -/
  names : Set A
  /-- what they are in the second state -/
  naming : G
  /-- the first state -/
  left : σ
  /-- the second state -/
  right : σ

section Names

variable {G A σ τ α β : Type} [SMul G A] [SMul G α] [SMul G β] {c : Stage G A σ}
  {c' : Stage G A τ} {x x' : α}

/-- Something of the first state, and what it is in the second. -/
def Stage.Names (c : Stage G A σ) (x x' : α) : Prop := x' = c.naming • x ∧ OnlyOn G c.names x

/-- What is known keeps its name. -/
theorem Stage.Names.mono (h : c.Names x x') (hnames : c.names ⊆ c'.names)
    (hagrees : ∀ a ∈ c.names, c.naming • a = c'.naming • a) : c'.Names x x' :=
  ⟨h.1.trans (h.2 _ _ hagrees), h.2.mono hnames⟩

/-- What is made of something without looking at names. -/
theorem Stage.Names.map {f : α → β} (hf : ∀ (g : G) x, g • f x = f (g • x)) (h : c.Names x x') :
    c.Names (f x) (f x') := ⟨by rw [h.1, hf], h.2.map hf⟩

end Names

/-- How stages follow one another. -/
structure Course (G A σ : Type) [SMul G A] where
  /-- the states correspond -/
  good : Stage G A σ → Prop
  /-- a stage comes after another -/
  grows : Stage G A σ → Stage G A σ → Prop
  /-- the order of stages -/
  refl : ∀ c, grows c c
  /-- the order of stages -/
  trans : ∀ {c c' c''}, grows c c' → grows c' c'' → grows c c''
  /-- what is known stays known -/
  names : ∀ {c c'}, grows c c' → c.names ⊆ c'.names
  /-- what is known keeps its name -/
  agrees : ∀ {c c'}, grows c c' → ∀ a ∈ c.names, c.naming • a = c'.naming • a

section Matches

variable {G A σ Φ E α β : Type} [SMul G A] [SMul G E] {K : Course G A σ} {c c' : Stage G A σ}
  {Q Q' : Stage G A σ → α → β → Prop} {r : Res Φ E σ α} {r' : Res Φ E σ β}

/-- Two runs from a stage come to the same, under other names: they return values as `Q` says,
are left by the same exception, or fail alike. -/
def Res.Matches (K : Course G A σ) (c : Stage G A σ) (Q : Stage G A σ → α → β → Prop) :
    Res Φ E σ α → Res Φ E σ β → Prop
  | .ok a l, .ok b r => ∃ V g, K.grows c ⟨V, g, l, r⟩ ∧ K.good ⟨V, g, l, r⟩ ∧ Q ⟨V, g, l, r⟩ a b
  | .exn e l, .exn e' r => ∃ V g, K.grows c ⟨V, g, l, r⟩ ∧ K.good ⟨V, g, l, r⟩ ∧
      (⟨V, g, l, r⟩ : Stage G A σ).Names e e'
  | .fault φ, .fault φ' => φ = φ'
  | .timeout, .timeout => True
  | _, _ => False

theorem Res.Matches.imp (h : r.Matches K c Q r') (hQ : ∀ c' a b, Q c' a b → Q' c' a b) :
    r.Matches K c Q' r' := by
  cases r <;> cases r' <;> try exact h
  obtain ⟨V, g, hgrows, hgood, hq⟩ := h
  exact ⟨V, g, hgrows, hgood, hQ _ _ _ hq⟩

/-- Runs from a later stage. -/
theorem Res.Matches.after (h : r.Matches K c' Q r') (hc : K.grows c c') : r.Matches K c Q r' := by
  cases r <;> cases r' <;> try exact h
  all_goals
    obtain ⟨V, g, hgrows, hrest⟩ := h
    exact ⟨V, g, K.trans hc hgrows, hrest⟩

theorem Res.Matches.ne_timeout (h : r.Matches K c Q r') : r ≠ .timeout ↔ r' ≠ .timeout := by
  cases r <;> cases r' <;> simp_all [Res.Matches]

end Matches

/-! ### Renaming programs -/

open RenamesOps RenamesFns

section Rename

variable {G A : Type} [Group G] [SMul G A] {O : OpSig} {F : FnSig} {α β : Type} [MulAction G α]
  [MulAction G β]
variable [SMul G O.Op] [∀ o, MulAction G (O.Reply o)] [RenamesOps G O] [SMul G F.Fn]
  [SMul G F.Held] [MulAction G F.Exn] [∀ f, MulAction G (F.Ret f)] [RenamesFns G F] {g g' : G}

/-- A reply under the names that it had before. -/
def unreply (g : G) {o : O.Op} (r : O.Reply (g • o)) : O.Reply o := g⁻¹ • cast (reply_smul g o) r

/-- What a call comes to, under the names that it had before. -/
def unresult (g : G) {f : F.Fn} :
    Except F.Exn (F.Ret (g • f)) → Except F.Exn (F.Ret f)
  | .ok v => .ok (g⁻¹ • cast (ret_smul g f) v)
  | .error e => .error (g⁻¹ • e)

/-- A program under other names. -/
def rename (g : G) : Prog O F α → Prog O F α
  | .ret a => .ret (g • a)
  | .throw e => .throw (g • e)
  | .op o k => .op (g • o) fun r => rename g (k (unreply g r))
  | .call f held k => .call (g • f) (g • held) fun r => rename g (k (unresult g r))

instance : SMul G (Prog O F α) := ⟨rename⟩

theorem smul_ret (a : α) : g • (.ret a : Prog O F α) = .ret (g • a) := rfl

theorem smul_throw (e : F.Exn) : g • (.throw e : Prog O F α) = .throw (g • e) := rfl

theorem smul_op (o : O.Op) (k : O.Reply o → Prog O F α) :
    g • (.op o k : Prog O F α) = .op (g • o) fun r => g • k (unreply g r) := rfl

theorem smul_call (f : F.Fn) (held : F.Held) (k : Except F.Exn (F.Ret f) → Prog O F α) :
    g • (.call f held k : Prog O F α) =
      .call (g • f) (g • held) fun r => g • k (unresult g r) := rfl

/-- One renamed program after another. -/
theorem smul_bind (p : Prog O F α) (q : α → Prog O F β) :
    g • (p >>= q) = g • p >>= fun a => g • q (g⁻¹ • a) := by
  induction p with
  | ret a => rw [ret_bind, smul_ret, ret_bind, inv_smul_smul]
  | throw e => rfl
  | op o k ih => exact congrArg (Prog.op _) (funext fun r => ih _)
  | call f held k ih => exact congrArg (Prog.call _ _) (funext fun r => ih _)

/-- A program without calls, as a part of another. -/
theorem smul_embed {E : Type} [MulAction G E] [SMul G Unit] [SMul G Empty]
    [∀ f : Empty, MulAction G (Empty.elim f : Type)] [RenamesFns G (noCalls E)]
    {raise raise' : E → Prog O F α} (h : ∀ e, g • raise e = raise' (g • e)) (p : Leaf O E α) :
    g • embed raise p = embed raise' (g • p) := by
  induction p with
  | ret a => rfl
  | throw e => exact h e
  | op o k ih => exact congrArg (Prog.op _) (funext fun r => ih _)
  | call f => exact Empty.elim f

/-! ### The names that matter -/

variable {V V' : Set A}

theorem op_apply {o o' : O.Op} {k : O.Reply o → Prog O F α} {k' : O.Reply o' → Prog O F α}
    {r : O.Reply o} {r' : O.Reply o'} (h : Prog.op o k = .op o' k') (hr : HEq r r') :
    k r = k' r' := by
  cases h
  cases hr
  rfl

theorem call_apply {f f' : F.Fn} {held held' : F.Held} {k : Except F.Exn (F.Ret f) → Prog O F α}
    {k' : Except F.Exn (F.Ret f') → Prog O F α} {r : Except F.Exn (F.Ret f)}
    {r' : Except F.Exn (F.Ret f')} (h : Prog.call f held k = .call f' held' k') (hr : HEq r r') :
    k r = k' r' := by
  cases h
  cases hr
  rfl

theorem cast_heq_of_eq {R R' S : Type} (h : R = S) (h' : R' = S) {r : R} {x : S}
    (hr : cast h r = x) : HEq r (cast h'.symm x) := by
  cases h
  cases h'
  exact heq_of_eq hr

theorem ok_heq {E R R' : Type} (h : R = R') {r : R} {r' : R'} (hr : HEq r r') :
    HEq (.ok r : Except E R) (.ok r' : Except E R') := by
  cases h
  cases hr
  rfl

theorem error_heq {E R R' : Type} (h : R = R') (e : E) :
    HEq (.error e : Except E R) (.error e : Except E R') := by
  cases h
  rfl

/-- What follows a reply, by two renamings that agree on the program before. -/
theorem smul_op_apply {o : O.Op} {k : O.Reply o → Prog O F α}
    (h : g • (.op o k : Prog O F α) = g' • .op o k) {r : O.Reply (g • o)} {x : O.Reply o}
    (hr : cast (reply_smul g o) r = g' • x) : g • k (unreply g r) = g' • k x := by
  refine (op_apply h (cast_heq_of_eq _ (reply_smul g' o) hr)).trans ?_
  rw [unreply, cast_cast, cast_eq, inv_smul_smul]
  rfl

theorem OnlyOn.op {o : O.Op} {k : O.Reply o → Prog O F α} {x : O.Reply o}
    (h : OnlyOn G V (.op o k : Prog O F α)) (hV : V ⊆ V') (hx : OnlyOn G V' x) :
    OnlyOn G V' (k x) := by
  intro g g' hg
  have hr : cast (reply_smul g o) (cast (reply_smul g o).symm (g • x)) = g' • x := by
    rw [cast_cast, cast_eq, hx g g' hg]
  have hk := smul_op_apply (h.mono hV g g' hg) hr
  rwa [unreply, cast_cast, cast_eq, inv_smul_smul] at hk

/-- What follows a call that returns. -/
theorem smul_call_ok {f : F.Fn} {held : F.Held} {k : Except F.Exn (F.Ret f) → Prog O F α}
    (h : g • (.call f held k : Prog O F α) = g' • .call f held k) {r : F.Ret (g • f)}
    {x : F.Ret f} (hr : cast (ret_smul g f) r = g' • x) :
    g • k (unresult g (.ok r)) = g' • k (.ok x) := by
  have heq := ok_heq (E := F.Exn) ((ret_smul g f).trans (ret_smul g' f).symm)
    (cast_heq_of_eq _ (ret_smul g' f) hr)
  refine (call_apply h heq).trans ?_
  rw [unresult, cast_cast, cast_eq, inv_smul_smul]
  rfl

/-- What follows a call that is left by an exception. -/
theorem smul_call_error {f : F.Fn} {held : F.Held} {k : Except F.Exn (F.Ret f) → Prog O F α}
    (h : g • (.call f held k : Prog O F α) = g' • .call f held k) {e e' : F.Exn}
    (he : e' = g' • e) : g • k (unresult g (.error e')) = g' • k (.error e) := by
  have heq := error_heq ((ret_smul g f).trans (ret_smul g' f).symm) e'
  refine (call_apply h heq).trans ?_
  rw [unresult, he, inv_smul_smul]
  rfl

theorem OnlyOn.call_ok {f : F.Fn} {held : F.Held} {k : Except F.Exn (F.Ret f) → Prog O F α}
    {x : F.Ret f} (h : OnlyOn G V (.call f held k : Prog O F α)) (hV : V ⊆ V')
    (hx : OnlyOn G V' x) : OnlyOn G V' (k (.ok x)) := by
  intro g g' hg
  have hr : cast (ret_smul g f) (cast (ret_smul g f).symm (g • x)) = g' • x := by
    rw [cast_cast, cast_eq, hx g g' hg]
  have hk := smul_call_ok (h.mono hV g g' hg) hr
  rwa [unresult, cast_cast, cast_eq, inv_smul_smul] at hk

theorem OnlyOn.call_error {f : F.Fn} {held : F.Held}
    {k : Except F.Exn (F.Ret f) → Prog O F α} {e : F.Exn}
    (h : OnlyOn G V (.call f held k : Prog O F α)) (hV : V ⊆ V') (he : OnlyOn G V' e) :
    OnlyOn G V' (k (.error e)) := by
  intro g g' hg
  have hk := smul_call_error (h.mono hV g g' hg) (he g g' hg)
  rwa [unresult, inv_smul_smul] at hk

end Rename

/-! ### Runs that go together -/

/-- Calls of any functions. -/
def anyCalls (F : FnSig) : FnContract F := ⟨fun _ => True, fun _ _ => True, fun _ => True⟩

/-- A program asks of operations only what it may. -/
def Heeds {O : OpSig} {F : FnSig} {α : Type} (C : OpContract O) (p : Prog O F α) : Prop :=
  Keeps C (anyCalls F) p fun _ => True

/-- How the type of a program is given does not matter. -/
theorem runWith_cast {G A σ Φ : Type} [SMul G A] {O : OpSig} {F : FnSig} [SMul G F.Exn]
    {K : Course G A σ} {c : Stage G A σ} {T T' S : Type} (h : T' = T) {p : Prog O F T}
    {p' : Prog O F T'} {Q : Stage G A σ → S → T → Prop} {x : Res Φ F.Exn σ S} {s : σ}
    {calls : (f : F.Fn) → F.Held → σ → Res Φ F.Exn σ (F.Ret f)}
    {step : (o : O.Op) → σ → Except Φ (O.Reply o × σ)} (hp : HEq p p')
    (hx : x.Matches K c Q (runWith step calls p s)) :
    x.Matches K c (fun c' v y => Q c' v (cast h y)) (runWith step calls p' s) := by
  cases h
  cases hp
  exact hx

section Run

variable {G A : Type} [Group G] [SMul G A] {O : OpSig} {F : FnSig} {α : Type} [MulAction G α]
variable [SMul G O.Op] [∀ o, MulAction G (O.Reply o)] [RenamesOps G O] [SMul G F.Fn]
  [SMul G F.Held] [MulAction G F.Exn] [∀ f, MulAction G (F.Ret f)] [RenamesFns G F] {σ Φ : Type}
  {K : Course G A σ} {C : OpContract O} {c c' : Stage G A σ}

/-- An operation and the renamed one go together from a stage. -/
structure Course.Steps (K : Course G A σ) (C : OpContract O)
    (step : (o : O.Op) → σ → Except Φ (O.Reply o × σ)) (c : Stage G A σ) (o : O.Op) : Prop where
  /-- they reply the same -/
  ok : ∀ x l, step o c.left = .ok (x, l) → ∃ V g y r,
    step (c.naming • o) c.right = .ok (y, r) ∧ K.grows c ⟨V, g, l, r⟩ ∧ K.good ⟨V, g, l, r⟩ ∧
      (⟨V, g, l, r⟩ : Stage G A σ).Names x (cast (RenamesOps.reply_smul c.naming o) y) ∧
      C.gives o x
  /-- or fail alike -/
  error : ∀ φ, step o c.left = .error φ → step (c.naming • o) c.right = .error φ

/-- What a function returns, and what the renamed one does. -/
def Returned (g : G) (f : F.Fn) (c : Stage G A σ) (v : F.Ret f) (y : F.Ret (g • f)) : Prop :=
  c.Names v (cast (RenamesFns.ret_smul g f) y)

variable {step : (o : O.Op) → σ → Except Φ (O.Reply o × σ)}
  {calls : (f : F.Fn) → F.Held → σ → Res Φ F.Exn σ (F.Ret f)}

/-- **A run of a program and one of the renamed program go together**, if operations and calls
do. -/
theorem runWith_smul
    (hstep : ∀ c o, K.good c → OnlyOn G c.names o → C.asks o → K.Steps C step c o)
    (hcalls : ∀ c f held held', K.good c → OnlyOn G c.names f →
      (calls f held c.left).Matches K c (Returned c.naming f)
        (calls (c.naming • f) held' c.right))
    (p : Prog O F α) (hp : Heeds C p) (hc : K.good c) (hV : OnlyOn G c.names p) :
    (runWith step calls p c.left).Matches K c (fun c' a b => c'.Names a b)
      (runWith step calls (c.naming • p) c.right) := by
  induction p generalizing c with
  | ret a =>
    have ha : OnlyOn G c.names a := fun g g' hg => Prog.ret.inj (hV g g' hg)
    exact ⟨c.names, c.naming, K.refl c, hc, rfl, ha⟩
  | throw e =>
    have he : OnlyOn G c.names e := fun g g' hg => Prog.throw.inj (hV g g' hg)
    exact ⟨c.names, c.naming, K.refl c, hc, rfl, he⟩
  | op o k ih =>
    have ho : OnlyOn G c.names o := fun g g' hg => (Prog.op.inj (hV g g' hg)).1
    rw [smul_op, runWith, runWith]
    cases hs : step o c.left with
    | ok xl =>
      obtain ⟨x, l⟩ := xl
      obtain ⟨V, g, y, r, hr, hgrows, hgood, ⟨hy, hx⟩, hgives⟩ := (hstep c o hc ho hp.1).ok x l hs
      have hk : c.naming • k (unreply c.naming y) = g • k x :=
        smul_op_apply (hV _ _ (K.agrees hgrows)) hy
      simp only [hr, hk]
      exact (ih x (hp.2 x hgives) hgood (hV.op (K.names hgrows) hx)).after hgrows
    | error φ =>
      rw [(hstep c o hc ho hp.1).error φ hs]
      exact rfl
  | call f held k ih =>
    have hf : OnlyOn G c.names f := fun g g' hg => (Prog.call.inj (hV g g' hg)).1
    rw [smul_call, runWith, runWith]
    have hcall := hcalls c f held (c.naming • held) hc hf
    revert hcall
    cases calls f held c.left <;> cases calls (c.naming • f) (c.naming • held) c.right <;>
      intro hcall
    case ok.ok v l y r =>
      obtain ⟨V, g, hgrows, hgood, hy, hv⟩ := hcall
      have hk : c.naming • k (unresult c.naming (.ok y)) = g • k (.ok v) :=
        smul_call_ok (hV _ _ (K.agrees hgrows)) hy
      simp only [hk]
      exact (ih _ (hp.2.1 v trivial) hgood (hV.call_ok (K.names hgrows) hv)).after hgrows
    case exn.exn e l e' r =>
      obtain ⟨V, g, hgrows, hgood, he, hv⟩ := hcall
      have hk : c.naming • k (unresult c.naming (.error e')) = g • k (.error e) :=
        smul_call_error (hV _ _ (K.agrees hgrows)) he
      simp only [hk]
      exact (ih _ (hp.2.2 e trivial) hgood (hV.call_error (K.names hgrows) hv)).after hgrows
    case fault.fault => exact hcall
    case timeout.timeout => trivial
    all_goals exact False.elim hcall

namespace Semantics

variable {M : Semantics O F σ Φ}

variable (G) in
/-- A semantics in which no body looks at names, and calls leave no mark. -/
structure Uniform (C : OpContract O) (M : Semantics O F σ Φ) : Prop where
  /-- the bodies, renamed, are those of the renamed functions -/
  body : ∀ (g : G) f, HEq (g • M.body f) (M.body (g • f))
  /-- they ask what they may ask -/
  heeds : ∀ f, Heeds C (M.body f)
  /-- calls leave no mark on entry -/
  enter : ∀ f held s, M.enter f held s = s
  /-- nor when they are left -/
  leave : ∀ s s', M.leave s s' = s'

theorem Uniform.calls_eq (hM : M.Uniform G C) (n : ℕ) (f : F.Fn) (held : F.Held) (s : σ) :
    M.calls n f held s = M.runFn n f s := by
  rw [calls, hM.enter]
  cases M.runFn n f s <;> simp only [Res.mapState, hM.leave]

theorem Uniform.onlyOn_body (hM : M.Uniform G C) {V : Set A} {f : F.Fn} (hf : OnlyOn G V f) :
    OnlyOn G V (M.body f) := by
  intro g g' hg
  have heq : HEq (M.body (g • f)) (M.body (g' • f)) := by rw [hf g g' hg]
  exact eq_of_heq ((hM.body g f).trans (heq.trans (hM.body g' f).symm))

variable (hM : M.Uniform G C)
  (hstep : ∀ c o, K.good c → OnlyOn G c.names o → C.asks o → K.Steps C M.step c o)
include hM hstep

/-- **A run of a function and one of the renamed function go together.** -/
theorem runFn_smul (n : ℕ) {f : F.Fn} (hc : K.good c) (hf : OnlyOn G c.names f) :
    (M.runFn n f c.left).Matches K c (Returned c.naming f) (M.runFn n (c.naming • f) c.right) := by
  induction n generalizing c f with
  | zero => exact trivial
  | succ n ih =>
    rw [runFn_succ, runFn_succ]
    have hbody : OnlyOn G c.names (M.body f) := hM.onlyOn_body hf
    have hcalls (c : Stage G A σ) (f : F.Fn) (held held' : F.Held) (hc : K.good c)
        (hf : OnlyOn G c.names f) : (M.calls n f held c.left).Matches K c (Returned c.naming f)
          (M.calls n (c.naming • f) held' c.right) := by
      rw [hM.calls_eq, hM.calls_eq]
      exact ih hc hf
    exact runWith_cast (RenamesFns.ret_smul c.naming f) (hM.body c.naming f)
      (runWith_smul hstep hcalls (M.body f) (hM.heeds f) hc hbody)

/-- **A run of a program and one of the renamed program go together.** -/
theorem run_smul (n : ℕ) {p : Prog O F α} (hp : Heeds C p) (hc : K.good c)
    (hV : OnlyOn G c.names p) :
    (M.run n p c.left).Matches K c (fun c' a b => c'.Names a b)
      (M.run n (c.naming • p) c.right) := by
  refine runWith_smul hstep (fun c f held held' hc hf => ?_) p hp hc hV
  rw [hM.calls_eq, hM.calls_eq]
  exact runFn_smul hM hstep n hc hf

end Semantics

end Run

/-! ### Programs that come to the same -/

namespace Semantics

variable {G A σ Φ : Type} [SMul G A] {O : OpSig} {F : FnSig} {α β : Type} [SMul G F.Exn]
  {M : Semantics O F σ Φ} {K : Course G A σ} {c c' : Stage G A σ} {α' β' : Type}
  {p : Prog O F α} {p' : Prog O F α'} {q : α → Prog O F β} {q' : α' → Prog O F β'}
  {Q : Stage G A σ → α → α' → Prop} {R : Stage G A σ → β → β' → Prop}

/-- Two programs come to the same from a stage, or neither comes to a result. -/
structure Alike (M : Semantics O F σ Φ) (K : Course G A σ) (c : Stage G A σ)
    (Q : Stage G A σ → α → α' → Prop) (p : Prog O F α) (p' : Prog O F α') : Prop where
  /-- what the first comes to, the second does -/
  left : ∀ r, M.Evaluates p c.left r → ∃ r', M.Evaluates p' c.right r' ∧ r.Matches K c Q r'
  /-- what the second comes to, the first does -/
  right : ∀ r', M.Evaluates p' c.right r' → ∃ r, M.Evaluates p c.left r ∧ r.Matches K c Q r'

namespace Alike

theorem of_run (h : ∀ n, (M.run n p c.left).Matches K c Q (M.run n p' c.right)) :
    M.Alike K c Q p p' where
  left := by
    rintro r ⟨hr, n, rfl⟩
    exact ⟨_, ⟨(Res.Matches.ne_timeout (h n)).mp hr, n, rfl⟩, h n⟩
  right := by
    rintro r ⟨hr, n, rfl⟩
    exact ⟨_, ⟨(Res.Matches.ne_timeout (h n)).mpr hr, n, rfl⟩, h n⟩

/-- Programs that come to results. -/
theorem of_evaluates {r : Res Φ F.Exn σ α} {r' : Res Φ F.Exn σ α'}
    (h : M.Evaluates p c.left r) (h' : M.Evaluates p' c.right r') (hr : r.Matches K c Q r') :
    M.Alike K c Q p p' :=
  ⟨fun _ h₁ => ⟨r', h', h₁.unique h ▸ hr⟩, fun _ h₁ => ⟨r, h, h₁.unique h' ▸ hr⟩⟩

/-- Another course, of which the first is a part. -/
theorem weaken (h : M.Alike K c Q p p') {T : Course G A σ}
    (hK : ∀ c', K.grows c c' → K.good c' → T.grows c c' ∧ T.good c') :
    M.Alike T c (fun c' a b => K.grows c c' ∧ Q c' a b) p p' := by
  have hres {r : Res Φ F.Exn σ α} {r' : Res Φ F.Exn σ α'} (hr : r.Matches K c Q r') :
      r.Matches T c (fun c' a b => K.grows c c' ∧ Q c' a b) r' := by
    cases r <;> cases r' <;> try exact hr
    all_goals
      obtain ⟨V, g, hgrows, hgood, hq⟩ := hr
    · exact ⟨V, g, (hK _ hgrows hgood).1, (hK _ hgrows hgood).2, hgrows, hq⟩
    · exact ⟨V, g, (hK _ hgrows hgood).1, (hK _ hgrows hgood).2, hq⟩
  refine ⟨fun r hr => ?_, fun r' hr' => ?_⟩
  · obtain ⟨r', hr', hm⟩ := h.left r hr
    exact ⟨r', hr', hres hm⟩
  · obtain ⟨r, hr, hm⟩ := h.right r' hr'
    exact ⟨r, hr, hres hm⟩

/-- From a later stage, which the programs come to. -/
theorem of_later {d : Stage G A σ} {p₁ : Prog O F α} {p₁' : Prog O F α'}
    (h : M.Alike K d Q p₁ p₁')
    (hc : K.grows c d) (hl : ∀ r, M.Evaluates p c.left r ↔ M.Evaluates p₁ d.left r)
    (hr : ∀ r, M.Evaluates p' c.right r ↔ M.Evaluates p₁' d.right r) : M.Alike K c Q p p' where
  left r hrun := by
    obtain ⟨r', hr', hm⟩ := h.left r ((hl r).mp hrun)
    exact ⟨r', (hr r').mpr hr', hm.after hc⟩
  right r' hrun := by
    obtain ⟨r, hr₁, hm⟩ := h.right r' ((hr r').mp hrun)
    exact ⟨r, (hl r).mpr hr₁, hm.after hc⟩

theorem imp (h : M.Alike K c Q p p') {Q' : Stage G A σ → α → α' → Prop}
    (hQ : ∀ c' a b, Q c' a b → Q' c' a b) : M.Alike K c Q' p p' where
  left r hr :=
    have ⟨r', hr', hm⟩ := h.left r hr
    ⟨r', hr', hm.imp hQ⟩
  right r' hr' :=
    have ⟨r, hr, hm⟩ := h.right r' hr'
    ⟨r, hr, hm.imp hQ⟩

/-- One program after another. -/
theorem bind (h : M.Alike K c Q p p')
    (hq : ∀ c' a b, K.grows c c' → K.good c' → Q c' a b → M.Evaluates p c.left (.ok a c'.left) →
      M.Evaluates p' c.right (.ok b c'.right) → M.Alike K c' R (q a) (q' b)) :
    M.Alike K c R (p >>= q) (p' >>= q') where
  left r hr := by
    obtain ⟨a, l, hp, hqa⟩ | ⟨e, l, hp, rfl⟩ | ⟨φ, hp, rfl⟩ := hr.bind_inv
    · obtain ⟨r', hp', hm⟩ := h.left _ hp
      cases r' with
      | ok b r =>
        obtain ⟨V, g, hgrows, hgood, hQ⟩ := hm
        obtain ⟨r', hr', hm⟩ := (hq _ a b hgrows hgood hQ hp hp').left _ hqa
        exact ⟨r', hp'.bind hr', hm.after hgrows⟩
      | _ => exact False.elim hm
    · obtain ⟨r', hp', hm⟩ := h.left _ hp
      cases r' with
      | exn e' r => exact ⟨_, hp'.bind_exn, hm⟩
      | _ => exact False.elim hm
    · obtain ⟨r', hp', hm⟩ := h.left _ hp
      cases r' with
      | fault φ' => exact ⟨_, hp'.bind_fault, hm⟩
      | _ => exact False.elim hm
  right r' hr' := by
    obtain ⟨b, r, hp', hqb⟩ | ⟨e, r, hp', rfl⟩ | ⟨φ, hp', rfl⟩ := hr'.bind_inv
    · obtain ⟨x, hp, hm⟩ := h.right _ hp'
      cases x with
      | ok a l =>
        obtain ⟨V, g, hgrows, hgood, hQ⟩ := hm
        obtain ⟨x, hx, hm⟩ := (hq _ a b hgrows hgood hQ hp hp').right _ hqb
        exact ⟨x, hp.bind hx, hm.after hgrows⟩
      | _ => exact False.elim hm
    · obtain ⟨x, hp, hm⟩ := h.right _ hp'
      cases x with
      | exn e' l => exact ⟨_, hp.bind_exn, hm⟩
      | _ => exact False.elim hm
    · obtain ⟨x, hp, hm⟩ := h.right _ hp'
      cases x with
      | fault φ' => exact ⟨_, hp.bind_fault, hm⟩
      | _ => exact False.elim hm

/-- What is done in one of the two, behind programs that come to the same. -/
theorem bind_left {R : Stage G A σ → β → α' → Prop} (h : M.Alike K c Q p p')
    (hq : ∀ c' a b, K.grows c c' → K.good c' → Q c' a b → M.Alike K c' R (q a) (.ret b)) :
    M.Alike K c R (p >>= q) p' := by
  rw [← bind_ret p']
  exact h.bind fun c' a b hgrows hgood hQ _ _ => hq c' a b hgrows hgood hQ

theorem bind_right {R : Stage G A σ → α → β' → Prop} (h : M.Alike K c Q p p')
    (hq : ∀ c' a b, K.grows c c' → K.good c' → Q c' a b → M.Alike K c' R (.ret a) (q' b)) :
    M.Alike K c R p (p' >>= q') := by
  rw [← bind_ret p]
  exact h.bind fun c' a b hgrows hgood hQ _ _ => hq c' a b hgrows hgood hQ

end Alike

end Semantics

end Prog
