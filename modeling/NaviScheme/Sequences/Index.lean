import NaviScheme.Sequences.Ranges
import NaviScheme.Strings.Access

/-!
# Elements by their indices

The procedures that take an index into a vector, a bytevector, a string or a list
(`IndexCall`). Each of them has a bounds test of its own. Those of bytevectors, of `string-ref`,
of `list-ref` and of `list-set!` are right; those of vectors let negative indices through, those of
`string-set!` and `string-fill!` are `StringEdit.Accepted`, and `list-tail` takes a tail that is
the void object for one that is missing. Otherwise all of them are safe (`indexCall_safe_iff`).
-/

namespace NaviScheme

/-- The sequences, and the pairs by their addresses. -/
structure ObjectHeap extends SequenceHeap where
  pairs : ℕ → Option (NaviObj × NaviObj)

/-! ### Calls that change objects -/

/-- A computation that may stop: the objects are then what it has made of them before. -/
structure Access (β : Type) where
  run : ObjectHeap → Except StringStop β × ObjectHeap

namespace Access

instance : Monad Access where
  pure b := ⟨fun h => (.ok b, h)⟩
  bind m f := ⟨fun h =>
    match m.run h with
    | (.ok b, h) => (f b).run h
    | (.error e, h) => (.error e, h)⟩

/-- `navi_error` -/
def error {β : Type} (msg : String) : Access β := ⟨fun h => (.error (.raise msg), h)⟩

def look {β : Type} (x : ObjectHeap → β) : Access β := ⟨fun h => (.ok (x h), h)⟩

def read {β : Type} (x : ObjectHeap → Except StringStop β) : Access β := ⟨fun h => (x h, h)⟩

def alter (x : ObjectHeap → ObjectHeap) : Access Unit := ⟨fun h => (.ok (), x h)⟩

def write (x : ObjectHeap → Except StringStop ObjectHeap) : Access Unit := ⟨fun h =>
  match x h with
  | .ok h => (.ok (), h)
  | .error e => (.error e, h)⟩

section

variable {β γ : Type} {h h' : ObjectHeap} {m : Access β} {f : β → Access γ} {b : β}
  {e : StringStop}

theorem run_pure : (pure b : Access β).run h = (.ok b, h) := rfl

theorem run_error {msg : String} : (error msg : Access β).run h = (.error (.raise msg), h) := rfl

theorem run_read {x : ObjectHeap → Except StringStop β} : (read x).run h = (x h, h) := rfl

theorem bind_ok (hm : m.run h = (.ok b, h')) : (m >>= f).run h = (f b).run h' := by
  change (match m.run h with
    | (.ok b, h) => (f b).run h
    | (.error e, h) => (.error e, h)) = _
  rw [hm]

theorem bind_error (hm : m.run h = (.error e, h')) : (m >>= f).run h = (.error e, h') := by
  change (match m.run h with
    | (.ok b, h) => (f b).run h
    | (.error e, h) => (.error e, h)) = _
  rw [hm]

theorem look_bind {x : ObjectHeap → β} : (look x >>= f).run h = (f (x h)).run h := rfl

theorem alter_bind {x : ObjectHeap → ObjectHeap} {f : Unit → Access γ} :
    (alter x >>= f).run h = (f ()).run (x h) := rfl

section

variable {x : ObjectHeap → Except StringStop β}

theorem read_bind (hx : x h = .ok b) : (read x >>= f).run h = (f b).run h :=
  bind_ok (by simp only [read, hx])

theorem read_bind_error (hx : x h = .error e) : (read x >>= f).run h = (.error e, h) :=
  bind_error (by simp only [read, hx])

end

section

variable {x : ObjectHeap → Except StringStop ObjectHeap} {f : Unit → Access γ}

theorem write_bind (hx : x h = .ok h') : (write x >>= f).run h = (f ()).run h' :=
  bind_ok (by simp only [write, hx])

theorem write_bind_error (hx : x h = .error e) : (write x >>= f).run h = (.error e, h) :=
  bind_error (by simp only [write, hx])

end

end

end Access

/-! ### Vectors and bytevectors -/

/-- `vector-ref` -/
def Access.vectorRef (a : ℕ) (k : ℤ) : Access NaviObj := do
  let vec ← Access.read fun h => h.vectors.get a
  if k ≥ vec.length then
    Access.error "vector index out of bounds"
  else do
    Access.read fun _ => loadAt vec k

/-- `vector-set!` -/
def Access.vectorSet (a : ℕ) (k : ℤ) (obj : NaviObj) : Access NaviObj := do
  let vec ← Access.read fun h => h.vectors.get a
  if k ≥ vec.length then
    Access.error "vector index out of bounds"
  else do
    let data ← Access.read fun _ => storeAt vec k obj
    Access.alter fun h => { h with vectors := h.vectors.set a data }
    return .void

/-- `bytevector-u8-ref` -/
def Access.bytevectorU8Ref (a : ℕ) (k : ℤ) : Access NaviObj := do
  let vec ← Access.read fun h => h.bytevectors.get a
  let k ← Access.read fun _ => naviTypeCheckRange k 0 vec.length
  let b ← Access.read fun _ => loadAt vec k
  return .fixnum b.toNat

/-- `bytevector-u8-set!` -/
def Access.bytevectorU8Set (a : ℕ) (k : ℤ) (b : UInt8) : Access NaviObj := do
  let vec ← Access.read fun h => h.bytevectors.get a
  let k ← Access.read fun _ => naviTypeCheckRange k 0 vec.length
  let data ← Access.read fun _ => storeAt vec k b
  Access.alter fun h => { h with bytevectors := h.bytevectors.set a data }
  return .void

/-! ### Lists -/

namespace ObjectHeap

/-- The pair that an object is the address of. -/
def pairOf (h : ObjectHeap) : NaviObj → Option (NaviObj × NaviObj)
  | .ptr (.obj n) => h.pairs n
  | _ => none

/-- `navi_set_car` -/
def setCar (h : ObjectHeap) (obj car : NaviObj) : ObjectHeap :=
  match obj with
  | .ptr (.obj n) =>
    { h with pairs := Function.update h.pairs n ((h.pairs n).map fun p => (car, p.2)) }
  | _ => h

/-- The `cdr`, `k` times. -/
def cdrs (h : ObjectHeap) (list : NaviObj) (k : ℕ) : Option NaviObj :=
  (fun obj : Option NaviObj => obj.bind fun obj => (h.pairOf obj).map Prod.snd)^[k] (some list)

end ObjectHeap

/-- `navi_list_tail`, with `k` pairs to go. -/
def naviListTail (h : ObjectHeap) (list : NaviObj) : ℕ → NaviObj
  | 0 => list
  | k + 1 =>
    match h.pairOf list with
    | some (_, cdr) => naviListTail h cdr k
    | none => .void

/-- `list-tail` -/
def Access.listTail (list : NaviObj) (k : ℤ) : Access NaviObj :=
  if k < 0 then
    Access.error "type error: not a positive integer"
  else do
    let result ← Access.look fun h => naviListTail h list k.toNat
    if result = .void then Access.error "list index out of bounds" else return result

/-- What `list-ref` and `list-set!` begin with: the pair number `k`. -/
def Access.listPair (list : NaviObj) (k : ℤ) : Access (NaviObj × NaviObj × NaviObj) :=
  if k < 0 then
    Access.error "type error: not a positive integer"
  else do
    let result ← Access.look fun h => naviListTail h list k.toNat
    let pair ← Access.look fun h => h.pairOf result
    match pair with
    | some pair => return (result, pair)
    | none => Access.error "list index out of bounds"

/-- `list-ref` -/
def Access.listRef (list : NaviObj) (k : ℤ) : Access NaviObj := do
  let (_, car, _) ← Access.listPair list k
  return car

/-- `list-set!` -/
def Access.listSet (list : NaviObj) (k : ℤ) (obj : NaviObj) : Access NaviObj := do
  let (result, _) ← Access.listPair list k
  Access.alter fun h => h.setCar result obj
  return .void

/-! ### The calls -/

/-- A call with an index. -/
inductive IndexCall
  | vectorRef (a : ℕ) (k : ℤ)
  | vectorSet (a : ℕ) (k : ℤ) (obj : NaviObj)
  | bytevectorU8Ref (a : ℕ) (k : ℤ)
  | bytevectorU8Set (a : ℕ) (k : ℤ) (b : UInt8)
  | stringRef (a : ℕ) (k : ℤ)
  | stringSet (a : ℕ) (k : ℤ) (ch : UInt32)
  | stringFill (a : ℕ) (ch : UInt32) (start end_ : Option ℤ)
  | listRef (list : NaviObj) (k : ℤ)
  | listSet (list : NaviObj) (k : ℤ) (obj : NaviObj)
  | listTail (list : NaviObj) (k : ℤ)

namespace IndexCall

/-- What a call does. `string-set!` and `string-fill!` raise before they store anything, so that
the strings are then what they were. -/
def run (U : Unicode) (u : Unknown) : IndexCall → Access NaviObj
  | vectorRef a k => Access.vectorRef a k
  | vectorSet a k obj => Access.vectorSet a k obj
  | bytevectorU8Ref a k => Access.bytevectorU8Ref a k
  | bytevectorU8Set a k b => Access.bytevectorU8Set a k b
  | stringRef a k => do
    let str ← Access.read fun h => h.strings.get a
    let ch ← Access.read fun _ => NaviScheme.stringRef U u a str k
    return .char ch.toNat
  | stringSet a k ch => do
    Access.write fun h => return { h with strings := ← h.strings.stringSet U u a k ch }
    return .void
  | stringFill a ch start end_ => do
    Access.write fun h => return { h with
      strings := ← h.strings.stringFill U u a ch (start.map .fixnum) (end_.map .fixnum) }
    return .void
  | listRef list k => Access.listRef list k
  | listSet list k obj => Access.listSet list k obj
  | listTail list k => Access.listTail list k

/-- The object is there, and of the type that `check_apply` has asked for. -/
def Live (h : ObjectHeap) : IndexCall → Prop
  | vectorRef a _ | vectorSet a _ _ => a < h.vectors.length
  | bytevectorU8Ref a _ | bytevectorU8Set a _ _ => a < h.bytevectors.length
  | stringRef a _ | stringSet a _ _ | stringFill a _ _ _ => a < h.strings.strings.length
  | listRef list _ | listSet list _ _ => (h.pairOf list).isSome
  | listTail list _ => list = .nil ∨ (h.pairOf list).isSome

/-- A call that edits a string. -/
def edit : IndexCall → Option StringEdit
  | stringSet a k ch => some (.set a k ch)
  | stringFill a ch start end_ => some (.fill a ch start end_)
  | _ => none

section

variable {α : Type} (C : Coding α) (letter : UInt32 → Option α) (char : α → UInt32)
  (h : ObjectHeap) (T : List (List α))

/-- The index, or the range, is in the object. -/
def InRange : IndexCall → Prop
  | vectorRef a k | vectorSet a k _ => 0 ≤ k ∧ k < (h.vectors.getD a []).length
  | bytevectorU8Ref a k | bytevectorU8Set a k _ => 0 ≤ k ∧ k < (h.bytevectors.getD a []).length
  | stringRef a k => 0 ≤ k ∧ k < (T.getD a []).length
  | stringSet a k ch => (StringEdit.set a k ch).InRange T
  | stringFill a ch start end_ => (StringEdit.fill a ch start end_).InRange T
  | listRef list k | listSet list k _ => 0 ≤ k ∧ ((h.cdrs list k.toNat).bind h.pairOf).isSome
  | listTail list k => 0 ≤ k ∧ (h.cdrs list k.toNat).isSome

/-- What is edited is the text in the range, and nothing else. -/
def EditsTo (e : StringEdit) (h' : ObjectHeap) : Prop :=
  ∃ ys str, e.new letter T = some ys ∧
    h' = { h with strings := h.strings.put e.target str } ∧
    str.Holds C (splice (T.getD e.target []) e.first ys)

/-- **Only the element at the index is accessed**: what a call in the range returns, and what it
makes of the objects. -/
def Accesses (obj : NaviObj) (h' : ObjectHeap) : IndexCall → Prop
  | vectorRef a k => h' = h ∧ (h.vectors.getD a [])[k.toNat]? = some obj
  | vectorSet a k x =>
    obj = .void ∧ h' = { h with vectors := h.vectors.set a ((h.vectors.getD a []).set k.toNat x) }
  | bytevectorU8Ref a k =>
    h' = h ∧ ∃ b, (h.bytevectors.getD a [])[k.toNat]? = some b ∧ obj = .fixnum b.toNat
  | bytevectorU8Set a k b =>
    obj = .void ∧
      h' = { h with bytevectors := h.bytevectors.set a ((h.bytevectors.getD a []).set k.toNat b) }
  | stringRef a _ => h' = h ∧ ∃ c ∈ T.getD a [], obj = .char (char c).toNat
  | stringSet a k ch => obj = .void ∧ EditsTo C letter h T (.set a k ch) h'
  | stringFill a ch start end_ => obj = .void ∧ EditsTo C letter h T (.fill a ch start end_) h'
  | listRef list k =>
    h' = h ∧ ∃ cdr, (h.cdrs list k.toNat).bind h.pairOf = some (obj, cdr)
  | listSet list k x =>
    obj = .void ∧ ∃ pair, h.cdrs list k.toNat = some pair ∧ h' = h.setCar pair x
  | listTail list k => h' = h ∧ h.cdrs list k.toNat = some obj

/-- **A call is safe**: in the range, it returns and accesses only that, and what is behind the
blocks of the strings does not matter to it; out of the range, it raises an error and has changed
nothing. -/
def Safe (U : Unicode) (u : Unknown) (c : IndexCall) : Prop :=
  (c.InRange h T →
    (∃ obj h', (c.run U u).run h = (.ok obj, h') ∧ c.Accesses C letter char h T obj h') ∧
    ∀ beyond, (c.run U { u with beyond }).run h = (c.run U u).run h) ∧
  (¬ c.InRange h T → ∃ msg, (c.run U u).run h = (.error (.raise msg), h))

/-- **When it is**: the index of a vector is not negative, the edit of a string is one that the
text fits, and the tail of a list is not the void object. -/
def Fits : IndexCall → Prop
  | vectorRef _ k | vectorSet _ k _ => 0 ≤ k
  | stringSet a k ch => (StringEdit.set a k ch).Fits C letter T h.strings
  | stringFill a ch start end_ => (StringEdit.fill a ch start end_).Fits C letter T h.strings
  | listTail list k => 0 ≤ k → h.cdrs list k.toNat ≠ some .void
  | _ => True

end

end IndexCall

section

variable {h : ObjectHeap} {list : NaviObj}

/-! ### Vectors and bytevectors -/

theorem loadAt_of_lt {β : Type} {t : List β} {k : ℤ} (h0 : 0 ≤ k) (hk : k < t.length) :
    ∃ x, t[k.toNat]? = some x ∧ loadAt t k = .ok x := by
  obtain ⟨k, rfl⟩ := Int.eq_ofNat_of_zero_le h0
  have hlt : k < t.length := by omega
  exact ⟨t[k], List.getElem?_eq_getElem hlt, loadAt_natCast hlt⟩

theorem storeAt_of_lt {β : Type} {t : List β} {k : ℤ} (h0 : 0 ≤ k) (hk : k < t.length) (x : β) :
    storeAt t k x = .ok (t.set k.toNat x) := by
  rw [storeAt, if_pos ⟨h0, hk⟩]

theorem naviTypeCheckRange_of_lt {k max : ℤ} (h0 : 0 ≤ k) (hk : k < max) :
    naviTypeCheckRange k 0 max = .ok k := by
  rw [naviTypeCheckRange, if_neg (by omega)]

theorem naviTypeCheckRange_of_not {k max : ℤ} (hk : ¬ (0 ≤ k ∧ k < max)) :
    naviTypeCheckRange k 0 max = .error (.raise "argument not in allowed range") := by
  rw [naviTypeCheckRange, if_pos (by omega)]

/-! ### Lists -/

theorem cdrs_succ {k : ℕ} : h.cdrs list (k + 1) =
    ((h.pairOf list).map Prod.snd).bind fun cdr => h.cdrs cdr k := by
  rw [ObjectHeap.cdrs, Function.iterate_succ_apply, Option.bind_some]
  cases (h.pairOf list).map Prod.snd with
  | some cdr => rfl
  | none => exact Function.iterate_fixed rfl k

/-- `navi_list_tail` returns void for a tail that is missing. -/
theorem naviListTail_eq (k : ℕ) : naviListTail h list k = (h.cdrs list k).getD .void := by
  induction k generalizing list with
  | zero => rfl
  | succ k ih =>
    rw [naviListTail, cdrs_succ]
    cases h.pairOf list with
    | some pair => exact ih
    | none => rfl

theorem pairOf_void : h.pairOf .void = none := rfl

/-- The pair that `list-ref` and `list-set!` find. -/
theorem listPair_of_some {k : ℤ} {obj : NaviObj} {pair : NaviObj × NaviObj} (h0 : 0 ≤ k)
    (hobj : h.cdrs list k.toNat = some obj) (hpair : h.pairOf obj = some pair) :
    (Access.listPair list k).run h = (.ok (obj, pair), h) := by
  rw [Access.listPair, if_neg (not_lt.mpr h0), Access.look_bind, Access.look_bind, naviListTail_eq, hobj,
    Option.getD_some, hpair]
  rfl

/-- There is none. -/
theorem listPair_of_none {k : ℤ}
    (hnone : ¬ (0 ≤ k ∧ ((h.cdrs list k.toNat).bind h.pairOf).isSome)) :
    ∃ msg, (Access.listPair list k).run h = (.error (.raise msg), h) := by
  rcases lt_or_ge k 0 with hneg | h0
  · exact ⟨_, by rw [Access.listPair, if_pos hneg]; rfl⟩
  · have hpair : h.pairOf (naviListTail h list k.toNat) = none := by
      rw [naviListTail_eq]
      cases hcdrs : h.cdrs list k.toNat with
      | some obj => simpa [h0, hcdrs] using hnone
      | none => exact pairOf_void
    exact ⟨_, by
      rw [Access.listPair, if_neg (not_lt.mpr h0), Access.look_bind, Access.look_bind, hpair]
      rfl⟩

/-! ### Safe calls -/

variable {α : Type} {C : Coding α} {letter : UInt32 → Option α} {char : α → UInt32} {U : Unicode}
  {u : Unknown} {T : List (List α)} {c : IndexCall} {a : ℕ} {k : ℤ}

theorem IndexCall.Safe.intro
    (hok : c.InRange h T → ∃ obj h', (∀ u, (c.run U u).run h = (.ok obj, h')) ∧
      c.Accesses C letter char h T obj h')
    (hraise : ¬ c.InRange h T → ∃ msg, (c.run U u).run h = (.error (.raise msg), h)) :
    c.Safe C letter char h T U u := by
  refine ⟨fun hin => ?_, hraise⟩
  obtain ⟨obj, h', hrun, hacc⟩ := hok hin
  exact ⟨⟨obj, h', hrun u, hacc⟩, fun beyond => by rw [hrun, hrun]⟩

theorem IndexCall.not_safe_of_fault (hno : ¬ c.InRange h T)
    (hrun : (c.run U u).run h = (.error .fault, h)) : ¬ c.Safe C letter char h T U u := by
  intro hsafe
  obtain ⟨msg, hmsg⟩ := hsafe.2 hno
  rw [hrun] at hmsg
  cases hmsg

/-- **`vector-ref`** takes an index below the length for one that is in the range. -/
theorem vectorRef_safe_iff (ha : a < h.vectors.length) :
    (IndexCall.vectorRef a k).Safe C letter char h T U u ↔ 0 ≤ k := by
  have hget : h.vectors.get a = .ok (h.vectors.getD a []) := Arrays.get_getD ha
  constructor
  · intro hsafe
    by_contra hneg
    have hno : ¬ (IndexCall.vectorRef a k).InRange h T := fun hin => hneg hin.1
    refine IndexCall.not_safe_of_fault hno ?_ hsafe
    change (Access.vectorRef a k).run h = _
    have hload : loadAt (h.vectors.getD a []) k = .error .fault := by rw [loadAt, if_neg hneg]
    rw [Access.vectorRef, Access.read_bind hget, if_neg (by omega), Access.run_read,
      hload]
  · intro h0
    refine .intro (fun hin => ?_) fun hno => ?_
    · obtain ⟨obj, hobj, hload⟩ := loadAt_of_lt h0 hin.2
      refine ⟨obj, h, fun u => ?_, rfl, hobj⟩
      change (Access.vectorRef a k).run h = _
      rw [Access.vectorRef, Access.read_bind hget, if_neg (not_le.mpr hin.2), Access.run_read,
        hload]
    · refine ⟨"vector index out of bounds", ?_⟩
      change (Access.vectorRef a k).run h = _
      rw [Access.vectorRef, Access.read_bind hget, if_pos (not_lt.mp fun hlt => hno ⟨h0, hlt⟩),
        Access.run_error]

/-- **`vector-set!`** does so, too. -/
theorem vectorSet_safe_iff {obj : NaviObj} (ha : a < h.vectors.length) :
    (IndexCall.vectorSet a k obj).Safe C letter char h T U u ↔ 0 ≤ k := by
  have hget : h.vectors.get a = .ok (h.vectors.getD a []) := Arrays.get_getD ha
  constructor
  · intro hsafe
    by_contra hneg
    have hno : ¬ (IndexCall.vectorSet a k obj).InRange h T := fun hin => hneg hin.1
    refine IndexCall.not_safe_of_fault hno ?_ hsafe
    change (Access.vectorSet a k obj).run h = _
    have hstore : storeAt (h.vectors.getD a []) k obj = .error .fault := by
      rw [storeAt, if_neg fun hin => hneg hin.1]
    rw [Access.vectorSet, Access.read_bind hget, if_neg (by omega), Access.read_bind_error hstore]
  · intro h0
    refine .intro (fun hin => ?_) fun hno => ?_
    · refine ⟨.void, _, fun u => ?_, rfl, rfl⟩
      change (Access.vectorSet a k obj).run h = _
      rw [Access.vectorSet, Access.read_bind hget, if_neg (not_le.mpr hin.2),
        Access.read_bind (storeAt_of_lt h0 hin.2 obj), Access.alter_bind, Access.run_pure]
    · refine ⟨"vector index out of bounds", ?_⟩
      change (Access.vectorSet a k obj).run h = _
      rw [Access.vectorSet, Access.read_bind hget, if_pos (not_lt.mp fun hlt => hno ⟨h0, hlt⟩),
        Access.run_error]

/-- **`bytevector-u8-ref`** checks its range. -/
theorem bytevectorU8Ref_safe (ha : a < h.bytevectors.length) :
    (IndexCall.bytevectorU8Ref a k).Safe C letter char h T U u := by
  have hget : h.bytevectors.get a = .ok (h.bytevectors.getD a []) := Arrays.get_getD ha
  refine .intro (fun hin => ?_) fun hno => ?_
  · obtain ⟨b, hb, hload⟩ := loadAt_of_lt hin.1 hin.2
    refine ⟨.fixnum b.toNat, h, fun u => ?_, rfl, b, hb, rfl⟩
    change (Access.bytevectorU8Ref a k).run h = _
    rw [Access.bytevectorU8Ref, Access.read_bind hget,
      Access.read_bind (naviTypeCheckRange_of_lt hin.1 hin.2), Access.read_bind hload,
      Access.run_pure]
  · refine ⟨"argument not in allowed range", ?_⟩
    change (Access.bytevectorU8Ref a k).run h = _
    rw [Access.bytevectorU8Ref, Access.read_bind hget,
      Access.read_bind_error (naviTypeCheckRange_of_not hno)]

/-- **`bytevector-u8-set!`** does. -/
theorem bytevectorU8Set_safe {b : UInt8} (ha : a < h.bytevectors.length) :
    (IndexCall.bytevectorU8Set a k b).Safe C letter char h T U u := by
  have hget : h.bytevectors.get a = .ok (h.bytevectors.getD a []) := Arrays.get_getD ha
  refine .intro (fun hin => ?_) fun hno => ?_
  · refine ⟨.void, _, fun u => ?_, rfl, rfl⟩
    change (Access.bytevectorU8Set a k b).run h = _
    rw [Access.bytevectorU8Set, Access.read_bind hget,
      Access.read_bind (naviTypeCheckRange_of_lt hin.1 hin.2),
      Access.read_bind (storeAt_of_lt hin.1 hin.2 b), Access.alter_bind, Access.run_pure]
  · refine ⟨"argument not in allowed range", ?_⟩
    change (Access.bytevectorU8Set a k b).run h = _
    rw [Access.bytevectorU8Set, Access.read_bind hget,
      Access.read_bind_error (naviTypeCheckRange_of_not hno)]

/-- **`string-ref`** stays in the string: the byte `k` of a text of more than `k` letters is one of
a letter. -/
theorem stringRef_safe (hU : U.Gets C char) (hT : h.strings.Holds C T)
    (ha : a < h.strings.strings.length) :
    (IndexCall.stringRef a k).Safe C letter char h T U u := by
  obtain ⟨str, hget⟩ := StringHeap.get_eq ha
  have hstr := (hT.get hget).1.hasText
  refine .intro (fun hin => ?_) fun hno => ?_
  · obtain ⟨h0, hlt⟩ := hin
    obtain ⟨k, rfl⟩ := Int.eq_ofNat_of_zero_le h0
    have hk : k < (T.getD a []).length := by omega
    obtain ⟨b, hbyte⟩ := exists_byteOf (hk.trans_le (C.length_le_encode _))
    have hb : b ∈ T.getD a [] := by
      obtain ⟨xs, zs, hsplit, -⟩ := hbyte
      rw [hsplit]
      exact List.mem_append_right xs List.mem_cons_self
    refine ⟨.char (char b).toNat, h, fun u => ?_, rfl, b, hb, rfl⟩
    rw [IndexCall.run, Access.read_bind hget, Access.read_bind (stringRef_eq hU hstr hk hbyte),
      Access.run_pure]
  · have hcheck : stringRef U u a str k = .error (.raise "argument not in allowed range") := by
      rw [stringRef, hstr.length, naviTypeCheckRange_of_not hno]
      rfl
    exact ⟨_, by rw [IndexCall.run, Access.read_bind hget, Access.read_bind_error hcheck]⟩

/-- What an edit of a string makes of all objects. -/
def ObjectHeap.edited (h : ObjectHeap) :
    Except StringStop StringHeap → Except StringStop NaviObj × ObjectHeap
  | .ok strings => (.ok .void, { h with strings })
  | .error e => (.error e, h)

theorem edited_injective : Function.Injective h.edited := by
  rintro (e | strings) (e' | strings') heq
  · obtain rfl : e = e' := Except.error.inj (Prod.mk.inj heq).1
    rfl
  · cases (Prod.mk.inj heq).1
  · cases (Prod.mk.inj heq).1
  · obtain rfl : strings = strings' :=
      congrArg (fun h => h.strings) (Prod.mk.inj heq).2
    rfl

theorem IndexCall.run_edit {e : StringEdit} (hc : c.edit = some e) :
    (c.run U u).run h = h.edited (e.op.run U u h.strings) := by
  cases c with
  | stringSet a k ch =>
    cases hc
    change _ = h.edited (h.strings.stringSet U u a k ch)
    rw [IndexCall.run]
    cases hrun : h.strings.stringSet U u a k ch with
    | ok strings => exact Access.write_bind (by rw [hrun]; rfl)
    | error e => exact Access.write_bind_error (by rw [hrun]; rfl)
  | stringFill a ch start end_ =>
    cases hc
    change _ = h.edited (h.strings.stringFill U u a ch (start.map .fixnum) (end_.map .fixnum))
    rw [IndexCall.run]
    cases hrun : h.strings.stringFill U u a ch (start.map .fixnum) (end_.map .fixnum) with
    | ok strings => exact Access.write_bind (by rw [hrun]; rfl)
    | error e => exact Access.write_bind_error (by rw [hrun]; rfl)
  | _ => cases hc

/-- **`string-set!` and `string-fill!`** are safe when the text fits. -/
theorem edit_safe_iff {e : StringEdit} (hU : U.Implements C letter) (hT : h.strings.Holds C T)
    (hc : c.edit = some e) (hlive : e.Live h.strings) :
    c.Safe C letter char h T U u ↔ e.Fits C letter T h.strings := by
  rw [← StringEdit.edits_iff_fits (u := u) hU hT hlive]
  have hrange : c.InRange h T ↔ e.InRange T := by
    cases c <;> cases hc <;> rfl
  have haccess : ∀ obj h', c.Accesses C letter char h T obj h' ↔
      obj = .void ∧ IndexCall.EditsTo C letter h T e h' := by
    intro obj h'
    cases c <;> cases hc <;> rfl
  simp only [IndexCall.Safe, StringEdit.Edits, hrange, haccess, IndexCall.run_edit hc]
  refine and_congr (imp_congr_right fun _ => ?_) (imp_congr_right fun _ => exists_congr fun msg =>
    (edited_injective.eq_iff (b := .error (.raise msg))))
  constructor
  · rintro ⟨⟨obj, h', hrun, rfl, ys, str, hys, rfl, hholds⟩, hinside⟩
    exact ⟨ys, str, hys, edited_injective hrun, hholds, fun beyond =>
      edited_injective (hinside beyond)⟩
  · rintro ⟨ys, str, hys, hrun, hholds, hinside⟩
    refine ⟨⟨.void, _, by rw [hrun]; rfl, rfl, ys, str, hys, rfl, hholds⟩, fun beyond => ?_⟩
    exact congrArg h.edited (hinside beyond)

/-- **`list-ref`** -/
theorem listRef_safe : (IndexCall.listRef list k).Safe C letter char h T U u := by
  refine .intro (fun hin => ?_) fun hno => ?_
  · obtain ⟨h0, hsome⟩ := hin
    obtain ⟨⟨car, cdr⟩, hpair⟩ := Option.isSome_iff_exists.mp hsome
    obtain ⟨obj, hobj, hof⟩ := Option.bind_eq_some_iff.mp hpair
    refine ⟨car, h, fun u => ?_, rfl, cdr, hpair⟩
    exact Access.bind_ok (listPair_of_some h0 hobj hof)
  · obtain ⟨msg, hmsg⟩ := listPair_of_none hno
    exact ⟨msg, Access.bind_error hmsg⟩

/-- **`list-set!`** -/
theorem listSet_safe {obj : NaviObj} :
    (IndexCall.listSet list k obj).Safe C letter char h T U u := by
  refine .intro (fun hin => ?_) fun hno => ?_
  · obtain ⟨h0, hsome⟩ := hin
    obtain ⟨⟨car, cdr⟩, hpair⟩ := Option.isSome_iff_exists.mp hsome
    obtain ⟨result, hobj, hof⟩ := Option.bind_eq_some_iff.mp hpair
    refine ⟨.void, _, fun u => ?_, rfl, result, hobj, rfl⟩
    exact Access.bind_ok (listPair_of_some h0 hobj hof)
  · obtain ⟨msg, hmsg⟩ := listPair_of_none hno
    exact ⟨msg, Access.bind_error hmsg⟩

/-- **`list-tail`** takes a tail that is the void object for one that is missing. -/
theorem listTail_safe_iff : (IndexCall.listTail list k).Safe C letter char h T U u ↔
    (0 ≤ k → h.cdrs list k.toNat ≠ some .void) := by
  have hvoid : 0 ≤ k → (h.cdrs list k.toNat).getD .void = .void →
      (Access.listTail list k).run h = (.error (.raise "list index out of bounds"), h) := by
    intro h0 hget
    rw [Access.listTail, if_neg (not_lt.mpr h0), Access.look_bind, naviListTail_eq, if_pos hget,
      Access.run_error]
  constructor
  · intro hsafe h0 heq
    obtain ⟨⟨obj, h', hrun, -⟩, -⟩ := hsafe.1 ⟨h0, by rw [heq]; rfl⟩
    change (Access.listTail list k).run h = _ at hrun
    rw [hvoid h0 (by rw [heq]; rfl)] at hrun
    cases hrun
  · intro hne
    refine .intro (fun hin => ?_) fun hno => ?_
    · obtain ⟨h0, hsome⟩ := hin
      obtain ⟨obj, hobj⟩ := Option.isSome_iff_exists.mp hsome
      have hnot : obj ≠ .void := fun heq => hne h0 (heq ▸ hobj)
      refine ⟨obj, h, fun u => ?_, rfl, hobj⟩
      change (Access.listTail list k).run h = _
      rw [Access.listTail, if_neg (not_lt.mpr h0), Access.look_bind, naviListTail_eq, hobj,
        Option.getD_some, if_neg hnot, Access.run_pure]
    · rcases lt_or_ge k 0 with hneg | h0
      · refine ⟨"type error: not a positive integer", ?_⟩
        change (Access.listTail list k).run h = _
        rw [Access.listTail, if_pos hneg, Access.run_error]
      · refine ⟨_, hvoid h0 ?_⟩
        rw [Option.not_isSome_iff_eq_none.mp fun hsome => hno ⟨h0, hsome⟩, Option.getD_none]

end

namespace StringBuild

/-- What is assumed of ICU, of all the macros that are used. -/
def Documented : StringBuild → Prop
  | icu M => ∃ M' : U8Access, M'.toU8Macros = M ∧ M'.Standard
  | ascii => True

theorem Documented.standard : ∀ {build : StringBuild}, build.Documented → build.Standard
  | icu _, ⟨_, hM, hstandard⟩ => hM ▸ hstandard.toStandard
  | ascii, _ => trivial

theorem Documented.gets : ∀ {build : StringBuild}, build.Documented →
    build.unicode.Gets build.coding build.char
  | icu _, ⟨_, hM, hstandard⟩ => hM ▸ hstandard.gets
  | ascii, _ => Unicode.ascii_gets

end StringBuild

/-- **Accesses by an index** are safe, in both builds, exactly when the index of a vector is not
negative, the edit of a string is one that its text fits, and the tail of a list is not void. -/
theorem indexCall_safe_iff {build : StringBuild} (hbuild : build.Documented) (u : Unknown)
    {h : ObjectHeap} {T : List (List build.Letter)} (hT : h.strings.Holds build.coding T)
    {c : IndexCall} (hlive : c.Live h) :
    c.Safe build.coding build.letter build.char h T build.unicode u ↔
      c.Fits build.coding build.letter h T := by
  have hU := StringBuild.implements hbuild.standard
  cases c with
  | vectorRef a k => exact vectorRef_safe_iff hlive
  | vectorSet a k obj => exact vectorSet_safe_iff hlive
  | bytevectorU8Ref a k => exact iff_of_true (bytevectorU8Ref_safe hlive) trivial
  | bytevectorU8Set a k b => exact iff_of_true (bytevectorU8Set_safe hlive) trivial
  | stringRef a k => exact iff_of_true (stringRef_safe hbuild.gets hT hlive) trivial
  | stringSet a k ch => exact edit_safe_iff (e := .set a k ch) hU hT rfl hlive
  | stringFill a ch start end_ =>
    exact edit_safe_iff (e := .fill a ch start end_) hU hT rfl hlive
  | listRef list k => exact iff_of_true listRef_safe trivial
  | listSet list k obj => exact iff_of_true listSet_safe trivial
  | listTail list k => exact listTail_safe_iff

/-- The sequences of `someSequences`, and a pair with void for its `cdr`. -/
def someObjects : ObjectHeap where
  toSequenceHeap := someSequences
  pairs n := if n = 0 then some (.fixnum 1, .void) else none

theorem indexCall_safe_iff_listRef :
    (IndexCall.listRef (.ptr (.obj 0)) 0).Safe Coding.utf8 scalar? Char.val someObjects [['é']]
        (.icu utf8Access.toU8Macros) zeroMemory ↔
      (IndexCall.listRef (.ptr (.obj 0)) 0).Fits Coding.utf8 scalar? someObjects [['é']] := by
  have hbuild : (StringBuild.icu utf8Access.toU8Macros).Documented :=
    ⟨utf8Access, rfl, utf8Access_standard⟩
  exact indexCall_safe_iff hbuild zeroMemory (h := someObjects)
    (StringHeap.holds_singleton holds_stringE) (c := .listRef (.ptr (.obj 0)) 0) rfl

/-- **A negative index** is taken, one **behind the text of a string** is, and **a tail that is
void** is not: `(vector-ref v -1)` and `(vector-set! v -1 0)` with `v` a vector,
`(string-set! "é" 1 #\a)` and `(list-tail (cons 1 (if #f #f)) 1)`. -/
theorem not_indexCall_safe :
    ¬ (IndexCall.vectorRef 0 (-1)).Safe Coding.utf8 scalar? Char.val someObjects [['é']]
      (.icu utf8Access.toU8Macros) zeroMemory ∧
    ¬ (IndexCall.vectorSet 0 (-1) (.fixnum 0)).Safe Coding.utf8 scalar? Char.val someObjects
      [['é']] (.icu utf8Access.toU8Macros) zeroMemory ∧
    ¬ (IndexCall.stringSet 0 1 97).Safe Coding.utf8 scalar? Char.val someObjects [['é']]
      (.icu utf8Access.toU8Macros) zeroMemory ∧
    ¬ (IndexCall.listTail (.ptr (.obj 0)) 1).Safe Coding.utf8 scalar? Char.val someObjects [['é']]
      (.icu utf8Access.toU8Macros) zeroMemory := by
  have hlive : 0 < 1 := Nat.zero_lt_one
  refine ⟨fun hsafe => ?_, fun hsafe => ?_, fun hsafe => ?_, fun hsafe => ?_⟩
  · exact absurd ((vectorRef_safe_iff (h := someObjects) hlive).mp hsafe) (by decide)
  · exact absurd ((vectorSet_safe_iff (h := someObjects) hlive).mp hsafe) (by decide)
  · obtain ⟨hchecks, -⟩ := (edit_safe_iff (h := someObjects) (e := .set 0 1 97)
      utf8Access_standard.implements (StringHeap.holds_singleton holds_stringE) rfl hlive).mp hsafe
    exact absurd (hchecks.mpr (by decide : (0 : ℤ) ≤ 1 ∧ (1 : ℤ) < 2)).2 (by decide)
  · exact listTail_safe_iff.mp hsafe (by decide) rfl

end NaviScheme
