import Mathlib.Data.Nat.Notation
import Mathlib.Order.MinMax

/-!
# Programs with operations and calls

`Prog O F α` is the type of the bodies of functions that perform operations of a signature
`O` on a state and call one another, by the signature `F`. A body is a tree: what it does
next depends on the replies it got. It says nothing about what an operation does, or what
a call comes to: that is given by a `Prog.Semantics`, and one collection of bodies may be
given several.

A call returns a value or leaves by an exception, which the caller passes on unless it
catches it. Calls may nest without a bound, so a run is given one (`Prog.Semantics.runFn`);
a longer run agrees with a shorter one that came to an end (`Prog.Semantics.runFn_mono`).
`Prog.Semantics.Evaluates` abstracts from the bound, and has a rule for each way to build a
program.

A program without calls (`Prog.Leaf`) needs no bound. It can be a part of any program
(`Prog.embed`), which says what its exceptions are there.
-/

/-- Operations and their replies. -/
structure OpSig where
  /-- the operations -/
  Op : Type
  /-- what an operation replies -/
  Reply : Op → Type

/-- Functions with their arguments, and what they return. -/
structure FnSig where
  /-- the functions, with their arguments -/
  Fn : Type
  /-- what a function returns -/
  Ret : Fn → Type
  /-- what a caller keeps while it waits -/
  Held : Type
  /-- the exceptions -/
  Exn : Type

/-- A program. -/
inductive Prog (O : OpSig) (F : FnSig) (α : Type) : Type
  /-- It returns. -/
  | ret (a : α)
  /-- It leaves by an exception. -/
  | throw (e : F.Exn)
  /-- It performs an operation. -/
  | op (o : O.Op) (k : O.Reply o → Prog O F α)
  /-- It calls a function. -/
  | call (f : F.Fn) (held : F.Held) (k : Except F.Exn (F.Ret f) → Prog O F α)

namespace Prog

variable {O : OpSig} {F : FnSig} {α β γ : Type}

/-- One program after another. -/
def bind : Prog O F α → (α → Prog O F β) → Prog O F β
  | .ret a, g => g a
  | .throw e, _ => .throw e
  | .op o k, g => .op o fun r => (k r).bind g
  | .call f held k, g => .call f held fun r => (k r).bind g

instance : Monad (Prog O F) where
  pure := .ret
  bind := bind

/-- One operation. -/
def perform (o : O.Op) : Prog O F (O.Reply o) := .op o .ret

/-- One call; its exceptions are passed on. -/
def callFn (f : F.Fn) (held : F.Held) : Prog O F (F.Ret f) :=
  .call f held fun
    | .ok v => .ret v
    | .error e => .throw e

@[simp] theorem pure_eq (a : α) : (pure a : Prog O F α) = .ret a := rfl

@[simp] theorem ret_bind (a : α) (g : α → Prog O F β) : (.ret a : Prog O F α) >>= g = g a := rfl

@[simp] theorem throw_bind (e : F.Exn) (g : α → Prog O F β) :
    (.throw e : Prog O F α) >>= g = .throw e := rfl

@[simp] theorem op_bind (o : O.Op) (k : O.Reply o → Prog O F α) (g : α → Prog O F β) :
    (.op o k : Prog O F α) >>= g = .op o fun r => k r >>= g := rfl

@[simp] theorem call_bind (f : F.Fn) (held : F.Held) (k : Except F.Exn (F.Ret f) → Prog O F α)
    (g : α → Prog O F β) : (.call f held k : Prog O F α) >>= g = .call f held fun r => k r >>= g :=
  rfl

theorem bind_assoc (p : Prog O F α) (g : α → Prog O F β) (h : β → Prog O F γ) :
    (p >>= g) >>= h = p >>= fun a => g a >>= h := by
  induction p with
  | ret a => rfl
  | throw e => rfl
  | op o k ih => exact congrArg (Prog.op o) (funext ih)
  | call f held k ih => exact congrArg (Prog.call f held) (funext ih)

theorem ite_bind {c : Prop} [Decidable c] (p q : Prog O F α) (g : α → Prog O F β) :
    (if c then p else q) >>= g = if c then p >>= g else q >>= g :=
  apply_ite (· >>= g) c p q

theorem bind_ret (p : Prog O F α) : p >>= .ret = p := by
  induction p with
  | ret a => rfl
  | throw e => rfl
  | op o k ih => exact congrArg (Prog.op o) (funext ih)
  | call f held k ih => exact congrArg (Prog.call f held) (funext ih)

instance : LawfulMonad (Prog O F) := .mk' _ (fun p => bind_ret p) (fun _ _ => rfl) bind_assoc

/-! ### Runs -/

/-- What a run comes to. -/
inductive Res (Φ E σ α : Type) : Type
  /-- It returns. -/
  | ok (a : α) (s : σ)
  /-- It leaves by an exception. -/
  | exn (e : E) (s : σ)
  /-- An operation fails. -/
  | fault (φ : Φ)
  /-- The bound is too small. -/
  | timeout
  deriving DecidableEq

namespace Res

variable {Φ E σ : Type}

/-- Changing the state in which a run ends. -/
def mapState (g : σ → σ) : Res Φ E σ α → Res Φ E σ α
  | .ok a s => .ok a (g s)
  | .exn e s => .exn e (g s)
  | .fault φ => .fault φ
  | .timeout => .timeout

/-- What is returned. -/
def value? : Res Φ E σ α → Option α
  | .ok a _ => some a
  | _ => none

/-- The exception by which a run is left. -/
def exn? : Res Φ E σ α → Option E
  | .exn e _ => some e
  | _ => none

theorem value?_eq_some {r : Res Φ E σ α} {a : α} : r.value? = some a ↔ ∃ s, r = .ok a s := by
  cases r <;> simp [value?]

theorem exn?_eq_some {r : Res Φ E σ α} {e : E} : r.exn? = some e ↔ ∃ s, r = .exn e s := by
  cases r <;> simp [exn?]

theorem mapState_eq_timeout {g : σ → σ} {r : Res Φ E σ α} :
    r.mapState g = .timeout ↔ r = .timeout := by
  cases r <;> simp [mapState]

end Res

section Run

variable {σ Φ : Type}

/-- The run of a program, given what operations do and what calls come to. -/
def runWith (step : (o : O.Op) → σ → Except Φ (O.Reply o × σ))
    (calls : (f : F.Fn) → F.Held → σ → Res Φ F.Exn σ (F.Ret f)) :
    Prog O F α → σ → Res Φ F.Exn σ α
  | .ret a, s => .ok a s
  | .throw e, s => .exn e s
  | .op o k, s =>
    match step o s with
    | .ok (r, s) => runWith step calls (k r) s
    | .error φ => .fault φ
  | .call f held k, s =>
    match calls f held s with
    | .ok v s => runWith step calls (k (.ok v)) s
    | .exn e s => runWith step calls (k (.error e)) s
    | .fault φ => .fault φ
    | .timeout => .timeout

variable {step : (o : O.Op) → σ → Except Φ (O.Reply o × σ)}
  {calls calls' : (f : F.Fn) → F.Held → σ → Res Φ F.Exn σ (F.Ret f)} {s s' : σ}

/-- A run goes on after its first part. -/
theorem runWith_bind (p : Prog O F α) (g : α → Prog O F β) (s : σ) :
    runWith step calls (p >>= g) s =
      match runWith step calls p s with
      | .ok a s => runWith step calls (g a) s
      | .exn e s => .exn e s
      | .fault φ => .fault φ
      | .timeout => .timeout := by
  induction p generalizing s with
  | ret a => rfl
  | throw e => rfl
  | op o k ih =>
    rw [op_bind, runWith, runWith]
    cases step o s with
    | ok r => exact ih r.1 r.2
    | error φ => rfl
  | call f held k ih =>
    rw [call_bind, runWith, runWith]
    cases calls f held s with
    | ok v s => exact ih _ s
    | exn e s => exact ih _ s
    | fault φ => rfl
    | timeout => rfl

/-- The run of a call. -/
theorem runWith_callFn (f : F.Fn) (held : F.Held) (s : σ) :
    runWith step calls (callFn f held : Prog O F (F.Ret f)) s = calls f held s := by
  rw [callFn, runWith]
  cases calls f held s <;> rfl

/-- A run that ends is not changed by calls that end more often. -/
theorem runWith_mono (h : ∀ f held s, calls f held s ≠ .timeout → calls' f held s = calls f held s)
    (p : Prog O F α) (hp : runWith step calls p s ≠ .timeout) :
    runWith step calls' p s = runWith step calls p s := by
  induction p generalizing s with
  | ret a => rfl
  | throw e => rfl
  | op o k ih =>
    rw [runWith] at hp ⊢
    rw [runWith]
    cases hstep : step o s with
    | ok r =>
      rw [hstep] at hp
      exact ih r.1 hp
    | error φ => rfl
  | call f held k ih =>
    rw [runWith] at hp ⊢
    rw [runWith]
    cases hcall : calls f held s with
    | ok v s' =>
      rw [hcall] at hp
      rw [h f held s (by simp [hcall]), hcall]
      exact ih _ hp
    | exn e s' =>
      rw [hcall] at hp
      rw [h f held s (by simp [hcall]), hcall]
      exact ih _ hp
    | fault φ => rw [h f held s (by simp [hcall]), hcall]
    | timeout =>
      rw [hcall] at hp
      exact absurd rfl hp

end Run

/-- What operations do, and the bodies of the functions. A call may leave a mark of itself
and of what the caller keeps in the state. -/
structure Semantics (O : OpSig) (F : FnSig) (σ Φ : Type) where
  /-- what an operation does -/
  step : (o : O.Op) → σ → Except Φ (O.Reply o × σ)
  /-- the state on entry to a call -/
  enter : F.Fn → F.Held → σ → σ
  /-- the state after a call, from those before and at its end -/
  leave : σ → σ → σ
  /-- the bodies -/
  body : (f : F.Fn) → Prog O F (F.Ret f)

namespace Semantics

variable {σ Φ : Type} (M : Semantics O F σ Φ)

/-- A run of a function in which calls nest at most `n` deep. -/
def runFn : ℕ → (f : F.Fn) → σ → Res Φ F.Exn σ (F.Ret f)
  | 0, _, _ => .timeout
  | n + 1, f, s =>
    runWith M.step (fun g held s => (runFn n g (M.enter g held s)).mapState (M.leave s))
      (M.body f) s

/-- What the calls of a program come to when they nest at most `n` deep. -/
def calls (n : ℕ) (f : F.Fn) (held : F.Held) (s : σ) : Res Φ F.Exn σ (F.Ret f) :=
  (M.runFn n f (M.enter f held s)).mapState (M.leave s)

/-- A run of a program in which calls nest at most `n` deep. -/
def run (n : ℕ) (p : Prog O F α) (s : σ) : Res Φ F.Exn σ α := runWith M.step (M.calls n) p s

theorem runFn_succ (n : ℕ) (f : F.Fn) (s : σ) : M.runFn (n + 1) f s = M.run n (M.body f) s := rfl

/-- **A larger bound does not change a run that ends.** -/
theorem runFn_mono {n m : ℕ} (hnm : n ≤ m) {f : F.Fn} {s : σ}
    (h : M.runFn n f s ≠ .timeout) : M.runFn m f s = M.runFn n f s := by
  induction n generalizing m f s with
  | zero => exact absurd rfl h
  | succ n ih =>
    obtain ⟨m, rfl⟩ : ∃ k, m = k + 1 := ⟨m - 1, by omega⟩
    refine runWith_mono (fun g held s hg => ?_) _ h
    rw [ih (Nat.le_of_succ_le_succ hnm) fun ht => hg (Res.mapState_eq_timeout.mpr ht)]

theorem run_mono {n m : ℕ} (hnm : n ≤ m) {p : Prog O F α} {s : σ}
    (h : M.run n p s ≠ .timeout) : M.run m p s = M.run n p s := by
  refine runWith_mono (fun g held s hg => ?_) p h
  rw [calls, M.runFn_mono hnm fun ht => hg (Res.mapState_eq_timeout.mpr ht), calls]

/-- **A program comes to a result**, with some bound. -/
def Evaluates (p : Prog O F α) (s : σ) (r : Res Φ F.Exn σ α) : Prop :=
  r ≠ .timeout ∧ ∃ n, M.run n p s = r

/-- **A function comes to a result.** -/
def Returns (f : F.Fn) (s : σ) (r : Res Φ F.Exn σ (F.Ret f)) : Prop := M.Evaluates (M.body f) s r

variable {M} {p : Prog O F α} {g : α → Prog O F β} {s s' : σ} {r r' : Res Φ F.Exn σ α}
  {q : Res Φ F.Exn σ β} {a : α} {e : F.Exn} {φ : Φ}

/-- What a run of a function that ends says of the function. -/
theorem returns_of_runFn {n : ℕ} {f : F.Fn} {q : Res Φ F.Exn σ (F.Ret f)}
    (h : M.runFn (n + 1) f s = q) (hq : q ≠ .timeout) : M.Returns f s q :=
  ⟨hq, n, (M.runFn_succ n f s).symm.trans h⟩

/-- A value that a run returns. -/
theorem returns_of_value? {n : ℕ} {f : F.Fn} {v : F.Ret f}
    (h : (M.runFn (n + 1) f s).value? = some v) : ∃ s', M.Returns f s (.ok v s') := by
  obtain ⟨s', hs'⟩ := Res.value?_eq_some.mp h
  exact ⟨s', returns_of_runFn hs' nofun⟩

/-- An exception by which a run is left. -/
theorem returns_of_exn? {n : ℕ} {f : F.Fn} (h : (M.runFn (n + 1) f s).exn? = some e) :
    ∃ s', M.Returns f s (.exn e s') := by
  obtain ⟨s', hs'⟩ := Res.exn?_eq_some.mp h
  exact ⟨s', returns_of_runFn hs' nofun⟩

/-- A program comes to one result. -/
theorem Evaluates.unique (h : M.Evaluates p s r) (h' : M.Evaluates p s r') : r = r' := by
  obtain ⟨hr, n, hn⟩ := h
  obtain ⟨hr', m, hm⟩ := h'
  rw [← hn, ← hm, ← M.run_mono (le_max_left n m) (by rwa [hn]),
    ← M.run_mono (le_max_right n m) (by rwa [hm])]

theorem Evaluates.ret : M.Evaluates (.ret a) s (.ok a s) := ⟨by simp, 0, rfl⟩

theorem Evaluates.throw : M.Evaluates (.throw e : Prog O F α) s (.exn e s) := ⟨by simp, 0, rfl⟩

theorem Evaluates.bind (h : M.Evaluates p s (.ok a s')) (hg : M.Evaluates (g a) s' q) :
    M.Evaluates (p >>= g) s q := by
  obtain ⟨-, n, hn⟩ := h
  obtain ⟨hq, m, hm⟩ := hg
  refine ⟨hq, max n m, ?_⟩
  rw [run, runWith_bind, ← run, M.run_mono (le_max_left n m) (by simp [hn]), hn]
  exact (M.run_mono (le_max_right n m) (by rwa [hm])).trans hm

theorem Evaluates.bind_exn (h : M.Evaluates p s (.exn e s')) :
    M.Evaluates (p >>= g) s (.exn e s') := by
  obtain ⟨-, n, hn⟩ := h
  refine ⟨by simp, n, ?_⟩
  rw [run, runWith_bind, ← run, hn]

theorem Evaluates.bind_fault (h : M.Evaluates p s (.fault φ)) :
    M.Evaluates (p >>= g) s (.fault φ) := by
  obtain ⟨-, n, hn⟩ := h
  refine ⟨by simp, n, ?_⟩
  rw [run, runWith_bind, ← run, hn]

/-- What a run of one program after another comes to, by what the first does. -/
theorem run_bind_inv {n : ℕ} (h : M.run n (p >>= g) s = q) (hq : q ≠ .timeout) :
    (∃ a s', M.run n p s = .ok a s' ∧ M.run n (g a) s' = q) ∨
      (∃ e s', M.run n p s = .exn e s' ∧ q = .exn e s') ∨
      ∃ φ, M.run n p s = .fault φ ∧ q = .fault φ := by
  rw [run, runWith_bind, ← run] at h
  cases hp : M.run n p s with
  | ok a s' =>
    rw [hp] at h
    exact .inl ⟨a, s', rfl, h⟩
  | exn e s' =>
    rw [hp] at h
    exact .inr (.inl ⟨e, s', rfl, h.symm⟩)
  | fault φ =>
    rw [hp] at h
    exact .inr (.inr ⟨φ, rfl, h.symm⟩)
  | timeout =>
    rw [hp] at h
    exact absurd h.symm hq

/-- What one program after another comes to, by what the first does. -/
theorem Evaluates.bind_inv (h : M.Evaluates (p >>= g) s q) :
    (∃ a s', M.Evaluates p s (.ok a s') ∧ M.Evaluates (g a) s' q) ∨
      (∃ e s', M.Evaluates p s (.exn e s') ∧ q = .exn e s') ∨
      ∃ φ, M.Evaluates p s (.fault φ) ∧ q = .fault φ := by
  obtain ⟨hq, n, hn⟩ := h
  obtain ⟨a, s', hp, hg⟩ | ⟨e, s', hp, rfl⟩ | ⟨φ, hp, rfl⟩ := run_bind_inv hn hq
  · exact .inl ⟨a, s', ⟨by simp, n, hp⟩, hq, n, hg⟩
  · exact .inr (.inl ⟨e, s', ⟨by simp, n, hp⟩, rfl⟩)
  · exact .inr (.inr ⟨φ, ⟨by simp, n, hp⟩, rfl⟩)

/-- What one program after another returns. -/
theorem Evaluates.bind_ok_inv {b : β} (h : M.Evaluates (p >>= g) s (.ok b s')) :
    ∃ a s₁, M.Evaluates p s (.ok a s₁) ∧ M.Evaluates (g a) s₁ (.ok b s') := by
  obtain hok | ⟨_, _, -, heq⟩ | ⟨_, -, heq⟩ := h.bind_inv
  · exact hok
  · cases heq
  · cases heq

/-- What follows a program that returns. -/
theorem Evaluates.bind_iff (h : M.Evaluates p s (.ok a s')) :
    M.Evaluates (p >>= g) s q ↔ M.Evaluates (g a) s' q := by
  refine ⟨fun hg => ?_, h.bind⟩
  obtain ⟨a₁, s₁, hp, hga⟩ | ⟨e, s₁, hp, -⟩ | ⟨φ, hp, -⟩ := hg.bind_inv
  · cases h.unique hp
    exact hga
  · cases h.unique hp
  · cases h.unique hp

/-- What follows depends on what a program comes to. -/
theorem Evaluates.bind_congr {p' : Prog O F α} {t : σ}
    (h : ∀ r, M.Evaluates p s r → M.Evaluates p' t r) (hg : M.Evaluates (p >>= g) s q) :
    M.Evaluates (p' >>= g) t q := by
  obtain ⟨a, s', hp, hga⟩ | ⟨e, s', hp, rfl⟩ | ⟨φ, hp, rfl⟩ := hg.bind_inv
  · exact (h _ hp).bind hga
  · exact (h _ hp).bind_exn
  · exact (h _ hp).bind_fault

theorem Evaluates.perform {o : O.Op} {v : O.Reply o} (h : M.step o s = .ok (v, s')) :
    M.Evaluates (Prog.perform o) s (.ok v s') := by
  refine ⟨by simp, 0, ?_⟩
  rw [run, Prog.perform, runWith, h]
  rfl

theorem Evaluates.call {f : F.Fn} {held : F.Held} {v : F.Ret f}
    (h : M.Returns f (M.enter f held s) (.ok v s')) :
    M.Evaluates (callFn f held) s (.ok v (M.leave s s')) := by
  obtain ⟨-, n, hn⟩ := h
  refine ⟨by simp, n + 1, ?_⟩
  rw [run, callFn, runWith, calls, runFn_succ, hn]
  rfl

end Semantics

/-! ### Programs without calls -/

/-- No functions. -/
abbrev noCalls (E : Type) : FnSig where
  Fn := Empty
  Ret := Empty.elim
  Held := Unit
  Exn := E

/-- A program without calls. -/
abbrev Leaf (O : OpSig) (E α : Type) := Prog O (noCalls E) α

section Leaf

variable {σ Φ E : Type}

/-- The run of a program without calls. -/
def runLeaf (step : (o : O.Op) → σ → Except Φ (O.Reply o × σ)) (p : Leaf O E α) (s : σ) :
    Res Φ E σ α :=
  runWith step (fun f => Empty.elim f) p s

/-- A program without calls as a part of another; `raise` is what its exceptions come to. -/
def embed (raise : E → Prog O F α) : Leaf O E α → Prog O F α
  | .ret a => .ret a
  | .throw e => raise e
  | .op o k => .op o fun r => embed raise (k r)
  | .call f _ _ => Empty.elim f

variable {M : Semantics O F σ Φ} {raise : E → Prog O F α} {p : Leaf O E α} {s s' : σ} {a : α}
  {e : E} {φ : Φ}

theorem runLeaf_op {o : O.Op} {k : O.Reply o → Leaf O E α} :
    runLeaf M.step (.op o k) s =
      match M.step o s with
      | .ok (r, s) => runLeaf M.step (k r) s
      | .error φ => .fault φ := by
  rw [runLeaf, runWith]
  rfl

/-- An embedded program that returns. -/
theorem runWith_embed {step : (o : O.Op) → σ → Except Φ (O.Reply o × σ)}
    {calls : (f : F.Fn) → F.Held → σ → Res Φ F.Exn σ (F.Ret f)}
    (h : runLeaf step p s = .ok a s') : runWith step calls (embed raise p) s = .ok a s' := by
  induction p generalizing s with
  | ret b =>
    cases h
    rfl
  | throw e => cases h
  | op o k ih =>
    rw [runLeaf, runWith] at h
    rw [embed, runWith]
    cases hstep : step o s with
    | ok v =>
      rw [hstep] at h
      exact ih v.1 h
    | error φ =>
      rw [hstep] at h
      cases h
  | call f => exact Empty.elim f

/-- What an embedded program comes to. -/
theorem evaluates_embed (r : Res Φ F.Exn σ α) :
    M.Evaluates (embed raise p) s r ↔
      match runLeaf M.step p s with
      | .ok a s' => r = .ok a s'
      | .exn e s' => M.Evaluates (raise e) s' r
      | .fault φ => r = .fault φ
      | .timeout => False := by
  induction p generalizing s with
  | ret a => exact ⟨fun h => h.unique .ret, fun h => h ▸ .ret⟩
  | throw e => exact Iff.rfl
  | op o k ih =>
    rw [runLeaf_op, embed]
    cases hstep : M.step o s with
    | ok v =>
      refine Iff.trans ⟨fun h => ?_, fun h => ?_⟩ (ih v.1 (s := v.2))
      · obtain ⟨hr, n, hn⟩ := h
        exact ⟨hr, n, by rwa [Semantics.run, runWith, hstep] at hn⟩
      · obtain ⟨hr, n, hn⟩ := h
        exact ⟨hr, n, by rwa [Semantics.run, runWith, hstep]⟩
    | error φ =>
      refine ⟨fun ⟨hr, n, hn⟩ => ?_, fun h => ⟨by simp [h], 0, ?_⟩⟩
      · rw [Semantics.run, runWith, hstep] at hn
        exact hn.symm
      · rw [Semantics.run, runWith, hstep, h]
  | call f => exact Empty.elim f

end Leaf

end Prog
