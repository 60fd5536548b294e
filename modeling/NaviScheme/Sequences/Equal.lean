import NaviScheme.Heap.Object
import NaviScheme.Lib.Fuel
import NaviScheme.Strings.Compare

/-!
# eqv? and equal?

`navi_eqvp` and `navi_equalp`, over memory that they only read. `navi_equalp` recurses into pairs
and vectors, and goes along two lists at once. It is given a bound on its steps.

A datum that is finite and has no cycles unfolds to a tree (`NaviScheme.Unfolds`), in which the
strings are the texts that they represent, and the objects that are compared by identity are
leaves. On such data `navi_equalp` ends, and says whether the trees are equal
(`NaviScheme.equalp_laws`).
-/

namespace NaviScheme

/-- What is in an object, as far as it is looked at. -/
inductive Contents
  | pair (car cdr : NaviObj)
  | vector (data : List NaviObj)
  | string (str : NaviString)
  | bytevec (data : List UInt8)
  | other

/-- The objects in memory. -/
abbrev Objects := Addr → Option (NaviType × Contents)

/-- A function that reads objects. -/
abbrev ObjectsM := StateT Objects (Except Fault)

/-! ### Reading -/

namespace Objects

/-- Reading an object. -/
def load (o : NaviObj) : ObjectsM (NaviType × Contents) := fun m =>
  match o with
  | .ptr a =>
    match m a with
    | some c => .ok (c, m)
    | none => .error .useAfterFree
  | _ => .error .badWord

/-- `navi_type` -/
def naviType : NaviObj → ObjectsM NaviType
  | .void => return .naviVoid
  | .nil => return .naviNil
  | .eof => return .naviEof
  | .fixnum _ => return .naviFixnum
  | .bool _ => return .naviBool
  | .char _ => return .naviChar
  | .ptr a => do return (← load (.ptr a)).1

/-- `navi_fixnum` -/
def naviFixnum : NaviObj → ObjectsM ℤ
  | .fixnum n => return n
  | _ => throw .badWord

/-- `navi_bool` -/
def naviBool : NaviObj → ObjectsM Bool
  | .bool b => return b
  | _ => throw .badWord

/-- `navi_char` -/
def naviChar : NaviObj → ObjectsM ℕ
  | .char c => return c
  | _ => throw .badWord

/-- `navi_car` -/
def naviCar (o : NaviObj) : ObjectsM NaviObj := do
  match (← load o).2 with
  | .pair car _ => return car
  | _ => throw .badWord

/-- `navi_cdr` -/
def naviCdr (o : NaviObj) : ObjectsM NaviObj := do
  match (← load o).2 with
  | .pair _ cdr => return cdr
  | _ => throw .badWord

/-- `navi_vector` -/
def naviVector (o : NaviObj) : ObjectsM (List NaviObj) := do
  match (← load o).2 with
  | .vector data => return data
  | _ => throw .badWord

/-- `navi_bytevec` -/
def naviBytevec (o : NaviObj) : ObjectsM (List UInt8) := do
  match (← load o).2 with
  | .bytevec data => return data
  | _ => throw .badWord

/-- The number of an address. -/
def number : NaviObj → ℕ
  | .ptr (.obj n) | .ptr (.thunk n) => n
  | _ => 0

/-- `navi_string` -/
def naviString (o : NaviObj) : ObjectsM StringAt := do
  match (← load o).2 with
  | .string str => return (number o, str)
  | _ => throw .badWord

/-! ### Comparing -/

/-- `navi_eqvp` -/
def naviEqvp (fst snd : NaviObj) : ObjectsM Bool := do
  let t ← naviType fst
  if t ≠ (← naviType snd) then return false
  else
    match t with
    | .naviVoid | .naviNil | .naviEof => return true
    | .naviFixnum => return (← naviFixnum fst) = (← naviFixnum snd)
    | .naviBool => if ← naviBool fst then naviBool snd else return !(← naviBool snd)
    | .naviChar => return (← naviChar fst) = (← naviChar snd)
    | .naviTrap => throw .die
    | _ => return fst = snd

/-- `list_equal`, with a bound on the steps of the loop. -/
def listEqual (equalp : NaviObj → NaviObj → ObjectsM Bool) : ℕ → NaviObj → NaviObj → ObjectsM Bool
  | 0, _, _ => throw .timeout
  | n + 1, consA, consB => do
    if (← naviType consA) = .naviPair ∧ (← naviType consB) = .naviPair then
      if ← equalp (← naviCar consA) (← naviCar consB) then
        listEqual equalp n (← naviCdr consA) (← naviCdr consB)
      else return false
    else equalp consA consB

/-- The loop of `vector_equal`. -/
def elementsEqual (equalp : NaviObj → NaviObj → ObjectsM Bool) :
    List NaviObj → List NaviObj → ObjectsM Bool
  | a :: as, b :: bs => do
    if ← equalp a b then elementsEqual equalp as bs else return false
  | _, _ => return true

/-- `vector_equal` -/
def vectorEqual (equalp : NaviObj → NaviObj → ObjectsM Bool) (fst snd : NaviObj) :
    ObjectsM Bool := do
  let a ← naviVector fst
  let b ← naviVector snd
  if a.length ≠ b.length then return false else elementsEqual equalp a b

/-- `bytevec_equal` -/
def bytevecEqual (fst snd : NaviObj) : ObjectsM Bool := do
  let a ← naviBytevec fst
  let b ← naviBytevec snd
  if a.length ≠ b.length then return false else return a = b

/-- `navi_equalp`, with a bound on its steps; `u` is what is behind the ends of strings. -/
def naviEqualp (u : Unknown) : ℕ → NaviObj → NaviObj → ObjectsM Bool
  | 0, _, _ => throw .timeout
  | n + 1, fst, snd => do
    let t ← naviType fst
    if t ≠ (← naviType snd) then return false
    else
      match t with
      | .naviVoid | .naviNil | .naviEof => return true
      | .naviFixnum => return (← naviFixnum fst) = (← naviFixnum snd)
      | .naviBool => if ← naviBool fst then naviBool snd else return !(← naviBool snd)
      | .naviChar => return (← naviChar fst) = (← naviChar snd)
      | .naviPair => listEqual (naviEqualp u n) n fst snd
      | .naviVector => vectorEqual (naviEqualp u n) fst snd
      | .naviString => return naviStringEqual u (← naviString fst) (← naviString snd)
      | .naviBytevec => bytevecEqual fst snd
      | .naviTrap => throw .die
      | _ => return fst = snd

end Objects

/-! ### Trees -/

/-- What a datum unfolds to; the texts of strings are of letters `α`. -/
inductive NaviTree (α : Type)
  | void
  | nil
  | eof
  | fixnum (n : ℤ)
  | bool (b : Bool)
  | char (c : ℕ)
  | string (as : List α)
  | bytevec (data : List UInt8)
  | pair (car cdr : NaviTree α)
  | vector (data : List (NaviTree α))
  /-- an object that is compared by identity -/
  | leaf (a : Addr)

/-- The types of the objects that are compared by identity. -/
def NaviType.ByIdentity : NaviType → Prop
  | .naviPort | .naviSymbol | .naviValues | .naviThunk | .naviMacro | .naviSpecial
  | .naviPromise | .naviProcedure | .naviCaselambda | .naviEscape | .naviParameter
  | .naviEnvironment | .naviBounce => True
  | _ => False

section

variable {α : Type} (C : Coding α)

/-- **A datum unfolds to a tree**: it is finite, has no cycles, and its strings represent
texts. -/
inductive Unfolds (m : Objects) : NaviObj → NaviTree α → Prop
  | void : Unfolds m .void .void
  | nil : Unfolds m .nil .nil
  | eof : Unfolds m .eof .eof
  | fixnum (n : ℤ) : Unfolds m (.fixnum n) (.fixnum n)
  | bool (b : Bool) : Unfolds m (.bool b) (.bool b)
  | char (c : ℕ) : Unfolds m (.char c) (.char c)
  | string {a : Addr} {str : NaviString} {as : List α} (ho : m a = some (.naviString, .string str))
    (hstr : str.HasText C as) : Unfolds m (.ptr a) (.string as)
  | bytevec {a : Addr} {data : List UInt8} (ho : m a = some (.naviBytevec, .bytevec data)) :
    Unfolds m (.ptr a) (.bytevec data)
  | pair {a : Addr} {car cdr : NaviObj} {t t' : NaviTree α}
    (ho : m a = some (.naviPair, .pair car cdr)) (hcar : Unfolds m car t)
    (hcdr : Unfolds m cdr t') : Unfolds m (.ptr a) (.pair t t')
  | vector {a : Addr} {data : List NaviObj} {ts : List (NaviTree α)}
    (ho : m a = some (.naviVector, .vector data)) (hlen : data.length = ts.length)
    (hdata : ∀ (i : ℕ) (o : NaviObj) (t : NaviTree α), data[i]? = some o → ts[i]? = some t →
      Unfolds m o t) : Unfolds m (.ptr a) (.vector ts)
  | leaf {a : Addr} {t : NaviType} {c : Contents} (ho : m a = some (t, c)) (ht : t.ByIdentity) :
    Unfolds m (.ptr a) (.leaf a)

end

/-- A type is that of a tree, in memory. -/
def NaviTree.type {α : Type} (m : Objects) : NaviTree α → NaviType
  | .void => .naviVoid
  | .nil => .naviNil
  | .eof => .naviEof
  | .fixnum _ => .naviFixnum
  | .bool _ => .naviBool
  | .char _ => .naviChar
  | .string _ => .naviString
  | .bytevec _ => .naviBytevec
  | .pair _ _ => .naviPair
  | .vector _ => .naviVector
  | .leaf a => ((m a).map Prod.fst).getD .naviTrap

/-! ### Functions that answer -/

/-- A function ends with an answer to a question, and leaves memory as it is. -/
def Answers (f : ℕ → ObjectsM Bool) (m : Objects) (P : Prop) : Prop :=
  Fuel.Ends (fun _ => False) f m fun r m' => m' = m ∧ (r = true ↔ P)

namespace Answers

variable {β : Type} {m : Objects} {P R : Prop} {f : ℕ → ObjectsM Bool} {p : ObjectsM β}
  {g : β → ℕ → ObjectsM Bool} {b : β}

theorem ret {b : Bool} (h : b = true ↔ P) : Answers (fun _ => pure b) m P :=
  Fuel.Ends.ret ⟨rfl, h⟩

theorem read (h : p m = .ok (b, m)) (h' : Answers (g b) m P) :
    Answers (fun n => p >>= fun b => g b n) m P := by
  refine Fuel.Ends.bind (Q := fun b' m' => b' = b ∧ m' = m) (.const ?_) ?_
  · rw [h]
    exact ⟨rfl, rfl⟩
  · rintro _ _ ⟨rfl, rfl⟩
    exact h'

/-- One question after another. -/
theorem both {g : ℕ → ObjectsM Bool} (h : Answers f m P) (hg : Answers g m R) :
    Answers (fun n => f n >>= fun b => if b then g n else pure false) m (P ∧ R) := by
  refine Fuel.Ends.bind h ?_
  rintro r _ ⟨rfl, hr⟩
  refine Fuel.Ends.ite (fun htrue => ?_) fun hfalse => ?_
  · exact hg.imp fun r' m' ⟨hm, hr'⟩ => ⟨hm, by rw [hr', and_iff_right (hr.mp htrue)]⟩
  · exact .ret ⟨rfl, by simp [← hr, hfalse]⟩

/-- A bound that is larger. -/
theorem larger {φ : ℕ → ℕ} (h : Answers f m P) (hφ : ∀ n, n ≤ φ n) :
    Answers (fun n => f (φ n)) m P := by
  obtain ⟨r, ⟨N, hN⟩, hr⟩ := h
  exact ⟨r, ⟨N, fun n hn => hN (φ n) (hn.trans (hφ n))⟩, hr⟩

theorem congr (h : Answers f m P) (hiff : P ↔ R) : Answers f m R :=
  h.imp fun _ _ ⟨hm, hr⟩ => ⟨hm, hr.trans hiff⟩

end Answers

/-! ### The trees are compared -/

section

variable {α : Type} {C : Coding α} {u : Unknown} {m : Objects} {a b : NaviObj} {t t' : NaviTree α}

namespace Objects

theorem load_ptr {x : Addr} {c : NaviType × Contents} (ho : m x = some c) :
    load (.ptr x) m = .ok (c, m) := by
  simp only [load, ho]

theorem naviType_ptr {x : Addr} {c : NaviType × Contents} (ho : m x = some c) :
    naviType (.ptr x) m = .ok (c.1, m) := by
  change (load (.ptr x) m >>= fun r => .ok (r.1.1, r.2)) = _
  rw [load_ptr ho]
  rfl

theorem naviCar_ptr {x : Addr} {ty : NaviType} {car cdr : NaviObj}
    (ho : m x = some (ty, .pair car cdr)) : naviCar (.ptr x) m = .ok (car, m) := by
  change (load (.ptr x) m >>= _) = _
  rw [load_ptr ho]
  rfl

theorem naviCdr_ptr {x : Addr} {ty : NaviType} {car cdr : NaviObj}
    (ho : m x = some (ty, .pair car cdr)) : naviCdr (.ptr x) m = .ok (cdr, m) := by
  change (load (.ptr x) m >>= _) = _
  rw [load_ptr ho]
  rfl

theorem naviVector_ptr {x : Addr} {ty : NaviType} {data : List NaviObj}
    (ho : m x = some (ty, .vector data)) : naviVector (.ptr x) m = .ok (data, m) := by
  change (load (.ptr x) m >>= _) = _
  rw [load_ptr ho]
  rfl

theorem naviBytevec_ptr {x : Addr} {ty : NaviType} {data : List UInt8}
    (ho : m x = some (ty, .bytevec data)) : naviBytevec (.ptr x) m = .ok (data, m) := by
  change (load (.ptr x) m >>= _) = _
  rw [load_ptr ho]
  rfl

theorem naviString_ptr {x : Addr} {ty : NaviType} {str : NaviString}
    (ho : m x = some (ty, .string str)) :
    naviString (.ptr x) m = .ok ((number (.ptr x), str), m) := by
  change (load (.ptr x) m >>= _) = _
  rw [load_ptr ho]
  rfl

end Objects

theorem Unfolds.naviType (h : Unfolds C m a t) : Objects.naviType a m = .ok (t.type m, m) := by
  cases h with
  | string ho _ | bytevec ho | pair ho _ _ | vector ho _ _ => exact Objects.naviType_ptr ho
  | leaf ho _ =>
    rw [Objects.naviType_ptr ho, NaviTree.type, ho]
    rfl
  | _ => rfl

/-- Data of different types are not equal. -/
theorem answers_of_type_ne (h : Unfolds C m a t) (h' : Unfolds C m b t')
    (hne : t.type m ≠ t'.type m) : Answers (Objects.naviEqualp u · a b) m (t = t') := by
  refine Fuel.Ends.succ (Answers.read h.naviType (Answers.read h'.naviType ?_))
  refine Fuel.Ends.ite (fun _ => Answers.ret ?_) fun heq => absurd hne heq
  simpa using fun heq => hne (by rw [heq])

/-- `list_equal` answers a question, however larger the bound of `navi_equalp` is than its own. -/
def AnswersList (u : Unknown) (m : Objects) (a b : NaviObj) (P : Prop) : Prop :=
  ∀ φ : ℕ → ℕ, (∀ n, n ≤ φ n) →
    Answers (fun n => Objects.listEqual (Objects.naviEqualp u (φ n)) n a b) m P

/-- The loop of `list_equal` ends at once if one of the two is not a pair. -/
theorem answers_list_of_not_pair (h : Unfolds C m a t) (h' : Unfolds C m b t')
    (hne : ¬ (t.type m = .naviPair ∧ t'.type m = .naviPair))
    (heq : Answers (Objects.naviEqualp u · a b) m (t = t')) : AnswersList u m a b (t = t') := by
  intro φ hφ
  refine Fuel.Ends.succ (Answers.read h.naviType (Answers.read h'.naviType ?_))
  refine Fuel.Ends.ite (fun hpair => absurd hpair hne) fun _ => ?_
  exact heq.larger fun n => n.le_succ.trans (hφ (n + 1))

/-- Two pairs are equal if their fields are. -/
theorem answers_list_of_pair {x y : Addr} {car cdr car' cdr' : NaviObj} {P R : Prop}
    (hx : m x = some (.naviPair, .pair car cdr)) (hy : m y = some (.naviPair, .pair car' cdr'))
    (hcar : Answers (Objects.naviEqualp u · car car') m P) (hcdr : AnswersList u m cdr cdr' R) :
    AnswersList u m (.ptr x) (.ptr y) (P ∧ R) := by
  intro φ hφ
  have hφ' : ∀ n, n ≤ φ (n + 1) := fun n => n.le_succ.trans (hφ (n + 1))
  refine Fuel.Ends.succ (Answers.read (Objects.naviType_ptr hx) (Answers.read
    (Objects.naviType_ptr hy) (Fuel.Ends.ite (fun _ => ?_) fun hne => absurd ⟨rfl, rfl⟩ hne)))
  refine Answers.read (Objects.naviCar_ptr hx) (Answers.read (Objects.naviCar_ptr hy) ?_)
  refine Answers.both (hcar.larger hφ') ?_
  refine Answers.read (Objects.naviCdr_ptr hx) (Answers.read (Objects.naviCdr_ptr hy) ?_)
  exact hcdr (fun n => φ (n + 1)) hφ'

theorem answers_elements {as bs : List NaviObj} {ts ts' : List (NaviTree α)}
    (hts : as.length = ts.length) (hts' : bs.length = ts'.length) (hlen : as.length = bs.length)
    (h : ∀ (i : ℕ) (o o' : NaviObj) (t t' : NaviTree α), as[i]? = some o → bs[i]? = some o' →
      ts[i]? = some t → ts'[i]? = some t' → Answers (Objects.naviEqualp u · o o') m (t = t')) :
    Answers (fun n => Objects.elementsEqual (Objects.naviEqualp u n) as bs) m (ts = ts') := by
  induction as generalizing bs ts ts' with
  | nil =>
    obtain rfl := List.length_eq_zero_iff.mp hts.symm
    obtain rfl := List.length_eq_zero_iff.mp hlen.symm
    obtain rfl := List.length_eq_zero_iff.mp hts'.symm
    exact Answers.ret (by simp)
  | cons o as ih =>
    obtain ⟨t, ts, rfl⟩ := List.exists_cons_of_length_eq_add_one hts.symm
    obtain ⟨o', bs, rfl⟩ := List.exists_cons_of_length_eq_add_one hlen.symm
    obtain ⟨t', ts', rfl⟩ := List.exists_cons_of_length_eq_add_one hts'.symm
    refine (Answers.both (h 0 o o' t t' rfl rfl rfl rfl) (ih (by simpa using hts)
      (by simpa using hts') (by simpa using hlen) fun i => h (i + 1))).congr ?_
    rw [List.cons.injEq]

/-- What a datum is, and what it unfolds to, if it is of a type. -/
def Shape (C : Coding α) (m : Objects) (o : NaviObj) (t : NaviTree α) : NaviType → Prop
  | .naviVoid => o = .void ∧ t = .void
  | .naviNil => o = .nil ∧ t = .nil
  | .naviEof => o = .eof ∧ t = .eof
  | .naviFixnum => ∃ n, o = .fixnum n ∧ t = .fixnum n
  | .naviBool => ∃ b, o = .bool b ∧ t = .bool b
  | .naviChar => ∃ c, o = .char c ∧ t = .char c
  | .naviString => ∃ a str as, o = .ptr a ∧ t = .string as ∧
    m a = some (.naviString, .string str) ∧ str.HasText C as
  | .naviBytevec => ∃ a data, o = .ptr a ∧ t = .bytevec data ∧
    m a = some (.naviBytevec, .bytevec data)
  | .naviPair => ∃ a car cdr t₁ t₂, o = .ptr a ∧ t = .pair t₁ t₂ ∧
    m a = some (.naviPair, .pair car cdr) ∧ Unfolds C m car t₁ ∧ Unfolds C m cdr t₂
  | .naviVector => ∃ a data ts, o = .ptr a ∧ t = .vector ts ∧
    m a = some (.naviVector, .vector data) ∧ data.length = ts.length ∧
    ∀ (i : ℕ) (o' : NaviObj) (t' : NaviTree α), data[i]? = some o' → ts[i]? = some t' →
      Unfolds C m o' t'
  | _ => ∃ a, o = .ptr a ∧ t = .leaf a

theorem Unfolds.shape (h : Unfolds C m a t) : Shape C m a t (t.type m) := by
  cases h with
  | void | nil | eof => exact ⟨rfl, rfl⟩
  | fixnum | bool | char => exact ⟨_, rfl, rfl⟩
  | string ho hstr => exact ⟨_, _, _, rfl, rfl, ho, hstr⟩
  | bytevec ho => exact ⟨_, _, rfl, rfl, ho⟩
  | pair ho hcar hcdr => exact ⟨_, _, _, _, _, rfl, rfl, ho, hcar, hcdr⟩
  | vector ho hlen hdata => exact ⟨_, _, _, rfl, rfl, ho, hlen, hdata⟩
  | @leaf x ty c ho ht =>
    rw [NaviTree.type, ho]
    cases ty <;> first | exact ⟨_, rfl, rfl⟩ | exact ht.elim

/-- Strings that represent texts are equal if the texts are. -/
theorem naviStringEqual_hasText {x y : ℕ} {str str' : NaviString} {as as' : List α}
    (hstr : str.HasText C as) (hstr' : str'.HasText C as') :
    naviStringEqual u (x, str) (y, str') = true ↔ as = as' := by
  have hsize := hstr.size
  have hsize' := hstr'.size
  rw [naviStringEqual_iff (a := (x, str)) (b := (y, str')) (by dsimp only; omega)
    (by dsimp only; omega), hstr.contents, hstr'.contents, C.encode_injective.eq_iff,
    hstr.length, hstr'.length]
  exact and_iff_right_of_imp fun heq => by rw [heq]

/-- **Data that are not looked into** -/
theorem answers_atom (h : Unfolds C m a t) (h' : Unfolds C m b t') (htype : t.type m = t'.type m)
    (hpair : t.type m ≠ .naviPair) (hvec : t.type m ≠ .naviVector) :
    Answers (Objects.naviEqualp u · a b) m (t = t') := by
  have hs := htype ▸ h'.shape
  refine Fuel.Ends.succ (Answers.read h.naviType (Answers.read h'.naviType
    (Fuel.Ends.ite (fun hne => absurd htype hne) fun _ => ?_)))
  cases h with
  | void | nil | eof =>
    obtain ⟨rfl, rfl⟩ := hs
    exact Answers.ret (by simp)
  | fixnum | char =>
    obtain ⟨x, rfl, rfl⟩ := hs
    exact Answers.read (b := _) rfl (Answers.read (b := _) rfl (Answers.ret (by simp)))
  | bool x =>
    obtain ⟨y, rfl, rfl⟩ := hs
    refine Answers.read (b := x) rfl (Fuel.Ends.ite (fun hx => ?_) fun hx => ?_)
    · exact Answers.ret (b := y) (by simp [hx])
    · exact Answers.read (b := y) rfl (Answers.ret (by simp [hx]))
  | string ho hstr =>
    obtain ⟨y, str', as', rfl, rfl, ho', hstr'⟩ := hs
    refine Answers.read (Objects.naviString_ptr ho) (Answers.read (Objects.naviString_ptr ho')
      (Answers.ret ?_))
    rw [naviStringEqual_hasText hstr hstr', NaviTree.string.injEq]
  | bytevec ho =>
    obtain ⟨y, data', rfl, rfl, ho'⟩ := hs
    refine Answers.read (Objects.naviBytevec_ptr ho) (Answers.read (Objects.naviBytevec_ptr ho')
      (Fuel.Ends.ite (fun hlen => Answers.ret ?_) fun _ => Answers.ret (by simp)))
    simpa using fun heq => hlen (by rw [heq])
  | pair => exact absurd rfl hpair
  | vector => exact absurd rfl hvec
  | @leaf x ty c ho ht =>
    rw [NaviTree.type, ho] at hs ⊢
    cases ty <;> first
      | exact ht.elim
      | (obtain ⟨y, rfl, rfl⟩ := hs; exact Answers.ret (by simp))

/-- Data that are neither pairs nor vectors are compared with anything. -/
theorem answers_equalp_atom (h : Unfolds C m a t) (h' : Unfolds C m b t')
    (hpair : t.type m ≠ .naviPair) (hvec : t.type m ≠ .naviVector) :
    Answers (Objects.naviEqualp u · a b) m (t = t') ∧ AnswersList u m a b (t = t') := by
  have heq : Answers (Objects.naviEqualp u · a b) m (t = t') := by
    by_cases htype : t.type m = t'.type m
    · exact answers_atom h h' htype hpair hvec
    · exact answers_of_type_ne h h' htype
  exact ⟨heq, answers_list_of_not_pair h h' (fun hp => hpair hp.1) heq⟩

/-- Pairs are compared by `list_equal`. -/
theorem answers_pair {P : Prop} (h : Unfolds C m a t) (h' : Unfolds C m b t')
    (ht : t.type m = .naviPair) (ht' : t'.type m = .naviPair) (hlist : AnswersList u m a b P) :
    Answers (Objects.naviEqualp u · a b) m P := by
  refine Fuel.Ends.succ (Answers.read h.naviType (Answers.read h'.naviType
    (Fuel.Ends.ite (fun hne => absurd (ht.trans ht'.symm) hne) fun _ => ?_)))
  rw [ht]
  exact hlist (fun n => n) fun n => le_rfl

/-- Vectors are equal if they are equally long and their elements are equal. -/
theorem answers_vector {x y : Addr} {data data' : List NaviObj} {ts ts' : List (NaviTree α)}
    (ho : m x = some (.naviVector, .vector data)) (ho' : m y = some (.naviVector, .vector data'))
    (hlen : data.length = ts.length) (hlen' : data'.length = ts'.length)
    (h : ∀ (i : ℕ) (o o' : NaviObj) (t t' : NaviTree α), data[i]? = some o → data'[i]? = some o' →
      ts[i]? = some t → ts'[i]? = some t' → Answers (Objects.naviEqualp u · o o') m (t = t')) :
    Answers (Objects.naviEqualp u · (.ptr x) (.ptr y)) m (ts = ts') := by
  refine Fuel.Ends.succ (Answers.read (Objects.naviType_ptr ho) (Answers.read
    (Objects.naviType_ptr ho') (Fuel.Ends.ite (fun hne => absurd rfl hne) fun _ => ?_)))
  refine Answers.read (Objects.naviVector_ptr ho) (Answers.read (Objects.naviVector_ptr ho')
    (Fuel.Ends.ite (fun hne => Answers.ret ?_) fun heq => ?_))
  · refine ⟨nofun, fun heq => absurd ?_ hne⟩
    rw [hlen, hlen', heq]
  · exact answers_elements hlen hlen' (not_not.mp heq) h

/-- **`navi_equalp` compares the trees**, and so does `list_equal`. -/
theorem answers_equalp (h : Unfolds C m a t) (h' : Unfolds C m b t') :
    Answers (Objects.naviEqualp u · a b) m (t = t') ∧ AnswersList u m a b (t = t') := by
  induction h generalizing b t' with
  | pair ho hcar hcdr ihcar ihcdr =>
    by_cases htype : t'.type m = .naviPair
    · have hs := htype ▸ h'.shape
      obtain ⟨y, car', cdr', t₁, t₂, rfl, rfl, ho', hcar', hcdr'⟩ := hs
      have hlist := answers_list_of_pair ho ho' (ihcar hcar').1 (ihcdr hcdr').2
      rw [← NaviTree.pair.injEq] at hlist
      exact ⟨answers_pair (.pair ho hcar hcdr) h' rfl rfl hlist, hlist⟩
    · have heq := answers_of_type_ne (u := u) (.pair ho hcar hcdr) h' (Ne.symm htype)
      exact ⟨heq, answers_list_of_not_pair (.pair ho hcar hcdr) h' (fun hp => htype hp.2) heq⟩
  | @vector x data ts ho hlen hdata ih =>
    have heq : Answers (Objects.naviEqualp u · (.ptr x) b) m (.vector ts = t') := by
      by_cases htype : t'.type m = .naviVector
      · have hs := htype ▸ h'.shape
        obtain ⟨y, data', ts', rfl, rfl, ho', hlen', hdata'⟩ := hs
        rw [NaviTree.vector.injEq]
        exact answers_vector ho ho' hlen hlen' fun i o o' t t' h₁ h₂ h₃ h₄ =>
          (ih i o t h₁ h₃ (hdata' i o' t' h₂ h₄)).1
      · exact answers_of_type_ne (.vector ho hlen hdata) h' (Ne.symm htype)
    exact ⟨heq, answers_list_of_not_pair (.vector ho hlen hdata) h' (fun hp => nomatch hp.1) heq⟩
  | @leaf x ty c ho ht =>
    refine answers_equalp_atom (.leaf ho ht) h' ?_ ?_ <;>
    · rw [NaviTree.type, ho]
      rintro rfl
      exact ht
  | _ => exact answers_equalp_atom (by constructor <;> assumption) h' nofun nofun

/-! ### The laws -/

/-- A datum that is finite and has no cycles, and whose strings represent texts. -/
def IsDatum (C : Coding α) (m : Objects) (o : NaviObj) : Prop := ∃ t : NaviTree α, Unfolds C m o t

/-- `navi_equalp` ends, and returns true. -/
def Objects.Equalp (u : Unknown) (m : Objects) (a b : NaviObj) : Prop :=
  Fuel.Converges (Objects.naviEqualp u · a b) m (.ok (true, m))

/-- `navi_eqvp` returns true. -/
def Objects.Eqvp (m : Objects) (a b : NaviObj) : Prop := Objects.naviEqvp a b m = .ok (true, m)

theorem Answers.iff {f : ℕ → ObjectsM Bool} {P : Prop} (h : Answers f m P) :
    Fuel.Converges f m (.ok (true, m)) ↔ P := by
  obtain ⟨_ | ⟨r, m'⟩, hr, hq⟩ := h
  · exact hq.elim
  · obtain ⟨rfl, hr'⟩ := hq
    refine ⟨fun h => hr'.mp ?_, fun h => hr'.mpr h ▸ hr⟩
    have := hr.unique h
    simpa using this

theorem equalp_iff (h : Unfolds C m a t) (h' : Unfolds C m b t') :
    m.Equalp u a b ↔ t = t' :=
  (answers_equalp h h').1.iff

/-- A datum unfolds to one tree: it is equal to itself, whichever of two trees is looked at. -/
theorem Unfolds.unique (h : Unfolds C m a t) (h' : Unfolds C m a t') : t = t' :=
  (equalp_iff (u := zeroMemory) h h').mp ((equalp_iff h h).mpr rfl)

/-- `navi_eqvp` is true of one datum only. -/
theorem eq_of_eqvp (h : Unfolds C m a t) (h' : Unfolds C m b t') (heqv : m.Eqvp a b) : a = b := by
  change (Objects.naviType a m >>= fun r => _) = _ at heqv
  rw [h.naviType, ok_bind] at heqv
  change (Objects.naviType b m >>= fun r => _) = _ at heqv
  rw [h'.naviType, ok_bind] at heqv
  by_cases htype : t.type m = t'.type m
  · rw [if_neg (not_not.mpr htype)] at heqv
    have hs := htype ▸ h'.shape
    cases h with
    | void | nil | eof => exact hs.1.symm
    | fixnum | char =>
      obtain ⟨x, rfl, rfl⟩ := hs
      simpa using congrArg Prod.fst (Except.ok.inj heqv)
    | bool x =>
      obtain ⟨y, rfl, rfl⟩ := hs
      cases x <;> cases y <;> first | rfl | cases heqv
    | string | bytevec | pair | vector =>
      simpa using congrArg Prod.fst (Except.ok.inj heqv)
    | @leaf x ty c ho ht =>
      rw [NaviTree.type, ho] at heqv
      cases ty <;> first
        | exact ht.elim
        | simpa using congrArg Prod.fst (Except.ok.inj heqv)
  · rw [if_pos htype] at heqv
    cases heqv

section

variable {x y : Addr}

theorem Unfolds.type_ptr {c : NaviType × Contents} (h : Unfolds C m (.ptr x) t)
    (ho : m x = some c) : t.type m = c.1 := by
  have htype := h.naviType
  rw [Objects.naviType_ptr ho] at htype
  exact (congrArg Prod.fst (Except.ok.inj htype)).symm

theorem Unfolds.of_pair {car cdr : NaviObj} (h : Unfolds C m (.ptr x) t)
    (ho : m x = some (.naviPair, .pair car cdr)) :
    ∃ t₁ t₂, t = .pair t₁ t₂ ∧ Unfolds C m car t₁ ∧ Unfolds C m cdr t₂ := by
  have hs := h.type_ptr ho ▸ h.shape
  obtain ⟨_, _, _, t₁, t₂, ⟨⟩, rfl, ho', hcar, hcdr⟩ := hs
  cases ho.symm.trans ho'
  exact ⟨t₁, t₂, rfl, hcar, hcdr⟩

theorem Unfolds.of_vector {data : List NaviObj} (h : Unfolds C m (.ptr x) t)
    (ho : m x = some (.naviVector, .vector data)) :
    ∃ ts, t = .vector ts ∧ List.Forall₂ (Unfolds C m) data ts := by
  have hs := h.type_ptr ho ▸ h.shape
  obtain ⟨_, _, ts, ⟨⟩, rfl, ho', hlen, hdata⟩ := hs
  cases ho.symm.trans ho'
  refine ⟨ts, rfl, List.forall₂_iff_get.mpr ⟨hlen, fun i hi hi' => ?_⟩⟩
  exact hdata i _ _ (by simp [hi]) (by simp [hi'])

/-- **Congruence for pairs** -/
theorem equalp_pair_iff {car cdr car' cdr' : NaviObj}
    (hx : m x = some (.naviPair, .pair car cdr)) (hy : m y = some (.naviPair, .pair car' cdr'))
    (h : IsDatum C m (.ptr x)) (h' : IsDatum C m (.ptr y)) :
    m.Equalp u (.ptr x) (.ptr y) ↔ m.Equalp u car car' ∧ m.Equalp u cdr cdr' := by
  obtain ⟨t, h⟩ := h
  obtain ⟨t', h'⟩ := h'
  obtain ⟨t₁, t₂, rfl, hcar, hcdr⟩ := h.of_pair hx
  obtain ⟨t₁', t₂', rfl, hcar', hcdr'⟩ := h'.of_pair hy
  rw [equalp_iff h h', equalp_iff hcar hcar', equalp_iff hcdr hcdr', NaviTree.pair.injEq]

theorem forall₂_equalp_iff {data data' : List NaviObj} {ts ts' : List (NaviTree α)}
    (h : List.Forall₂ (Unfolds C m) data ts) (h' : List.Forall₂ (Unfolds C m) data' ts') :
    List.Forall₂ (m.Equalp u) data data' ↔ ts = ts' := by
  induction h generalizing data' ts' with
  | nil => cases h' <;> simp
  | cons h _ ih =>
    cases h' with
    | nil => simp
    | cons h' hs' => rw [List.forall₂_cons, equalp_iff h h', ih hs', List.cons.injEq]

/-- **Congruence for vectors** -/
theorem equalp_vector_iff {data data' : List NaviObj}
    (hx : m x = some (.naviVector, .vector data)) (hy : m y = some (.naviVector, .vector data'))
    (h : IsDatum C m (.ptr x)) (h' : IsDatum C m (.ptr y)) :
    m.Equalp u (.ptr x) (.ptr y) ↔ List.Forall₂ (m.Equalp u) data data' := by
  obtain ⟨t, h⟩ := h
  obtain ⟨t', h'⟩ := h'
  obtain ⟨ts, rfl, hdata⟩ := h.of_vector hx
  obtain ⟨ts', rfl, hdata'⟩ := h'.of_vector hy
  rw [equalp_iff h h', forall₂_equalp_iff hdata hdata', NaviTree.vector.injEq]

end

end

/-- **The laws of `equal?`**: on data that unfold to trees, `navi_equalp` ends and says whether the
trees are equal. It is an equivalence that holds where `navi_eqvp` does, and a congruence. -/
theorem equalp_laws {α : Type} (C : Coding α) (u : Unknown) (m : Objects) :
    (∀ a b t t', Unfolds C m a t → Unfolds C m b t' →
      ∃ r, Fuel.Converges (Objects.naviEqualp u · a b) m (.ok (r, m)) ∧ (r = true ↔ t = t')) ∧
    Equivalence (fun a b : {o // IsDatum C m o} => m.Equalp u a b) ∧
    (∀ a b, IsDatum C m a → IsDatum C m b → m.Eqvp a b → m.Equalp u a b) ∧
    (∀ x y car cdr car' cdr', m x = some (.naviPair, .pair car cdr) →
      m y = some (.naviPair, .pair car' cdr') → IsDatum C m (.ptr x) → IsDatum C m (.ptr y) →
      (m.Equalp u (.ptr x) (.ptr y) ↔ m.Equalp u car car' ∧ m.Equalp u cdr cdr')) ∧
    ∀ x y data data', m x = some (.naviVector, .vector data) →
      m y = some (.naviVector, .vector data') → IsDatum C m (.ptr x) → IsDatum C m (.ptr y) →
      (m.Equalp u (.ptr x) (.ptr y) ↔ List.Forall₂ (m.Equalp u) data data') := by
  refine ⟨fun a b t t' h h' => ?_, ⟨?_, ?_, ?_⟩, ?_, fun x y car cdr car' cdr' => equalp_pair_iff,
    fun x y data data' => equalp_vector_iff⟩
  · obtain ⟨_ | ⟨r, m'⟩, hr, hq⟩ := (answers_equalp (u := u) h h').1
    · exact hq.elim
    · obtain ⟨rfl, hr'⟩ := hq
      exact ⟨r, hr, hr'⟩
  · rintro ⟨a, t, h⟩
    exact (equalp_iff h h).mpr rfl
  · rintro ⟨a, t, h⟩ ⟨b, t', h'⟩ heq
    exact (equalp_iff h' h).mpr ((equalp_iff h h').mp heq).symm
  · rintro ⟨a, t, h⟩ ⟨b, t', h'⟩ ⟨c, t'', h''⟩ heq heq'
    exact (equalp_iff h h'').mpr (((equalp_iff h h').mp heq).trans ((equalp_iff h' h'').mp heq'))
  · rintro a b ⟨t, h⟩ ⟨t', h'⟩ heqv
    obtain rfl := eq_of_eqvp h h' heqv
    exact (equalp_iff h h).mpr rfl

/-- `("a" . #(1 x))`, twice, with one symbol `x`. -/
def twoPairs : Objects
  | .obj 0 => some (.naviPair, .pair (.ptr (.obj 1)) (.ptr (.obj 2)))
  | .obj 3 => some (.naviPair, .pair (.ptr (.obj 4)) (.ptr (.obj 5)))
  | .obj 1 | .obj 4 => some (.naviString, .string ⟨1, 1, 1, [97, 0]⟩)
  | .obj 2 | .obj 5 => some (.naviVector, .vector [.fixnum 1, .ptr (.obj 6)])
  | .obj 6 => some (.naviSymbol, .other)
  | _ => none

theorem hasText_a : (⟨1, 1, 1, [97, 0]⟩ : NaviString).HasText Coding.utf8 ['a'] :=
  ⟨rfl, rfl, by decide, by decide⟩

theorem unfolds_twoPairs {x y z : ℕ}
    (hx : twoPairs (.obj x) = some (.naviPair, .pair (.ptr (.obj y)) (.ptr (.obj z))))
    (hy : twoPairs (.obj y) = some (.naviString, .string ⟨1, 1, 1, [97, 0]⟩))
    (hz : twoPairs (.obj z) = some (.naviVector, .vector [.fixnum 1, .ptr (.obj 6)])) :
    Unfolds Coding.utf8 twoPairs (.ptr (.obj x))
      (.pair (.string ['a']) (.vector [.fixnum 1, .leaf (.obj 6)])) := by
  refine .pair hx (.string hy hasText_a) (.vector hz rfl fun i o t ho ht => ?_)
  match i with
  | 0 =>
    cases ho
    cases ht
    exact .fixnum 1
  | 1 =>
    cases ho
    cases ht
    exact .leaf rfl trivial
  | i + 2 => cases ho

theorem equalp_laws_twoPairs :
    ∃ r, Fuel.Converges (Objects.naviEqualp zeroMemory · (.ptr (.obj 0)) (.ptr (.obj 3))) twoPairs
      (.ok (r, twoPairs)) ∧ (r = true ↔ True) := by
  obtain ⟨r, hr, hiff⟩ := (equalp_laws Coding.utf8 zeroMemory twoPairs).1 _ _ _ _
    (unfolds_twoPairs (x := 0) rfl rfl rfl) (unfolds_twoPairs (x := 3) rfl rfl rfl)
  exact ⟨r, hr, hiff.trans (iff_true_intro rfl)⟩

end NaviScheme
