import NaviScheme.Reader.Numeral
import NaviScheme.Sequences.Copy
import NaviScheme.Strings.Returns

/-!
# Sequences of a given size

`make-vector`, `make-bytevector` and `make-string`, down to the blocks that they ask for. The
number of bytes of a block is a `size_t`, into which the size that the program gives is converted
first; `malloc` says of which numbers it has a block.

`sizeLaws_iff` says which sizes lead to an object that has this size.
-/

namespace NaviScheme

/-- How a function that allocates ends if it does not return. -/
inductive AllocStop
  /-- `navi_die` -/
  | die (msg : String)
  | stop (e : StringStop)
  deriving DecidableEq, Repr

/-- A navi error. -/
def AllocStop.raise (msg : String) : AllocStop := .stop (.raise msg)

/-- A computation that does not allocate. -/
def liftStop {β : Type} : Except StringStop β → Except AllocStop β
  | .ok b => .ok b
  | .error e => .error (.stop e)

/-- A vector or a bytevector: a block of `bytes` bytes, in which there is the size in front of the
elements. An element that has not been stored yet is `none`. -/
structure SizedBlock (β : Type) where
  bytes : ℕ
  size : ℕ
  data : ℕ → Option β

namespace SizedBlock

variable {β : Type}

/-- `vec->data[i] = x`, where an element has `width` bytes. The header of the object has 16 bytes,
and the size 8. -/
def store (width : ℕ) (vec : SizedBlock β) (i : ℕ) (x : β) : Except AllocStop (SizedBlock β) :=
  if 24 + width * (i + 1) ≤ vec.bytes then
    .ok { vec with data := Function.update vec.data i (some x) }
  else .error (.stop .fault)

/-- `navi_vector_fill` and `bytevec_fill`, from `i` on with so many rounds left. -/
def fill (width : ℕ) (x : β) (vec : SizedBlock β) (i : ℕ) : ℕ → Except AllocStop (SizedBlock β)
  | 0 => .ok vec
  | n + 1 => do
    let vec ← vec.store width i x
    vec.fill width x (i + 1) n

end SizedBlock

section Builtins

variable (malloc : ℕ → Bool)

/-- `navi_critical_malloc` -/
def naviCriticalMalloc (size : ℕ) : Except AllocStop Unit :=
  if malloc size then .ok () else .error (.die "not enough memory")

/-- `make_object`; the number of bytes of the block. -/
def makeObject (size : ℕ) : Except AllocStop ℕ := do
  naviCriticalMalloc malloc (sizeT (16 + size))
  return sizeT (16 + size)

/-- `navi_make_vector` -/
def naviMakeVector (size : ℕ) : Except AllocStop (SizedBlock NaviObj) := do
  return ⟨← makeObject malloc (sizeT (8 + 8 * size)), size, fun _ => none⟩

/-- `navi_make_bytevec` -/
def naviMakeBytevec (size : ℕ) : Except AllocStop (SizedBlock UInt8) := do
  let vec : SizedBlock UInt8 := ⟨← makeObject malloc (sizeT (8 + size + 1)), size, fun _ => none⟩
  vec.store 1 size 0

/-- `make-vector`, of a fixnum and the arguments behind it. -/
def makeVector (n : ℤ) (args : List NaviObj) : Except AllocStop (SizedBlock NaviObj) :=
  if args.length > 1 then .error (.raise "wrong number of arguments")
  else do
    let vec ← naviMakeVector malloc (sizeT n)
    vec.fill 8 (args.head?.getD (.bool false)) 0 vec.size

/-- `navi_type_check_byte` -/
def StringArg.naviTypeCheckByte (byte : StringArg) : Except StringStop UInt8 := do
  let n ← naviTypeCheckRange (← naviFixnumCast byte) 0 256
  return UInt8.ofNat n.toNat

/-- `make-bytevector`, of a fixnum and the arguments behind it. -/
def makeBytevector (n : ℤ) (args : List StringArg) : Except AllocStop (SizedBlock UInt8) :=
  if args.length > 1 then .error (.raise "wrong number of arguments")
  else do
    let vec ← naviMakeBytevec malloc (sizeT n)
    match args with
    | [] => return vec
    | arg₂ :: _ => do
      let byte ← liftStop arg₂.naviTypeCheckByte
      vec.fill 1 byte 0 vec.size

/-- The blocks of `navi_make_string`: the object and its data. -/
def mallocString (capacity : ℕ) : Except AllocStop Unit := do
  let _ ← makeObject malloc 24
  naviCriticalMalloc malloc (sizeT (capacity + 1))

/-- `make-string`, with the blocks that `StringHeap.makeString` takes for granted. -/
def makeString (U : Unicode) (u : Unknown) (h : StringHeap) (n : ℤ) (arg : Option StringArg) :
    Except AllocStop StringHeap :=
  if n < 0 then .error (.raise "invalid length")
  else do
    let ch ← liftStop (charOr arg 32)
    mallocString malloc (sizeT ((n * U.u8Length ch).bmod (2 ^ 64)))
    liftStop (h.makeString U u n arg)

end Builtins

/-- The law of sizes, for an object with elements of `width` bytes: there is an error, or an object
of the size that was asked for, with enough bytes for all its elements. -/
def SizeLaw {β : Type} (width : ℕ) (n : ℤ) (result : Except AllocStop (SizedBlock β)) : Prop :=
  (∃ msg, result = .error (.raise msg)) ∨
    0 ≤ n ∧ ∃ vec, result = .ok vec ∧ (vec.size : ℤ) = n ∧ 24 + width * vec.size ≤ vec.bytes

/-- The law of sizes for a string of characters `ch`: its length is in characters, its size in
bytes, and a zero follows them. -/
def StringSizeLaw (U : Unicode) (h : StringHeap) (n : ℤ) (arg : Option StringArg)
    (result : Except AllocStop StringHeap) : Prop :=
  (∃ msg, result = .error (.raise msg)) ∨
    0 ≤ n ∧ ∃ ch str, charOr arg 32 = .ok ch ∧ result = .ok (h.add str) ∧ str.length = n ∧
      str.size = n * U.u8Length ch ∧ str.size + 1 ≤ str.data.length

/-! ### Vectors and bytevectors -/

section Blocks

variable {β : Type} {malloc : ℕ → Bool} {width i k : ℕ} {n : ℤ} {x : β} {vec : SizedBlock β}

namespace SizedBlock

theorem store_of_le (h : 24 + width * (i + 1) ≤ vec.bytes) : vec.store width i x =
    .ok { vec with data := Function.update vec.data i (some x) } := if_pos h

/-- Filling a block either goes outside, or leaves its size. -/
theorem fill_cases (width : ℕ) (x : β) (vec : SizedBlock β) (i k : ℕ) :
    vec.fill width x i k = .error (.stop .fault) ∨
      ∃ vec', vec.fill width x i k = .ok vec' ∧ vec'.bytes = vec.bytes ∧ vec'.size = vec.size := by
  induction k generalizing vec i with
  | zero => exact .inr ⟨vec, rfl, rfl, rfl⟩
  | succ k ih =>
    rw [fill, store]
    split
    · exact ih _ (i + 1)
    · exact .inl rfl

theorem fill_of_le (x : β) (h : 24 + width * (i + k) ≤ vec.bytes) :
    ∃ vec', vec.fill width x i k = .ok vec' := by
  induction k generalizing vec i with
  | zero => exact ⟨vec, rfl⟩
  | succ k ih =>
    have hle : 24 + width * (i + 1) ≤ vec.bytes :=
      (Nat.add_le_add_left (Nat.mul_le_mul_left width (by omega)) 24).trans h
    rw [fill, store_of_le hle]
    refine @ih _ { vec with data := Function.update vec.data i (some x) } ?_
    rwa [Nat.add_right_comm]

end SizedBlock

theorem not_raise_die {msg msg' : String} : AllocStop.die msg ≠ .raise msg' := nofun

theorem not_raise_fault {msg : String} : AllocStop.stop .fault ≠ .raise msg := nofun

/-- An object that is returned as it has been made. -/
theorem sizeLaw_ok_iff : SizeLaw width n (.ok vec) ↔
    0 ≤ n ∧ (vec.size : ℤ) = n ∧ 24 + width * vec.size ≤ vec.bytes := by
  constructor
  · rintro (⟨msg, hmsg⟩ | ⟨h₀, vec, hvec, h⟩)
    · cases hmsg
    · cases hvec
      exact ⟨h₀, h⟩
  · exact fun ⟨h₀, h⟩ => .inr ⟨h₀, vec, rfl, h⟩

theorem not_sizeLaw_error {e : AllocStop} (he : ∀ msg, e ≠ .raise msg) :
    ¬ SizeLaw width n (.error e : Except AllocStop (SizedBlock β)) := by
  rintro (⟨msg, hmsg⟩ | ⟨-, vec, hvec, -⟩)
  · exact he msg (Except.error.inj hmsg)
  · cases hvec

/-- An object all of whose elements are stored. -/
theorem sizeLaw_fill_iff : SizeLaw width n (vec.fill width x 0 vec.size) ↔
    0 ≤ n ∧ (vec.size : ℤ) = n ∧ 24 + width * vec.size ≤ vec.bytes := by
  obtain hfault | ⟨vec', hvec', hbytes, hsize⟩ := vec.fill_cases width x 0 vec.size
  · rw [hfault]
    refine iff_of_false (not_sizeLaw_error fun _ => not_raise_fault) fun ⟨_, _, hle⟩ => ?_
    obtain ⟨vec', hvec'⟩ := SizedBlock.fill_of_le (i := 0) (k := vec.size) x
      ((Nat.zero_add vec.size).symm ▸ hle)
    cases hfault.symm.trans hvec'
  · rw [hvec', sizeLaw_ok_iff, hsize, hbytes]

theorem sizeLaw_makeObject_iff {size : ℕ} {f : ℕ → Except AllocStop (SizedBlock β)} :
    SizeLaw width n (makeObject malloc size >>= f) ↔
      malloc (sizeT (16 + size)) ∧ SizeLaw width n (f (sizeT (16 + size))) := by
  rw [makeObject, naviCriticalMalloc]
  by_cases h : malloc (sizeT (16 + size)) = true
  · rw [if_pos h]
    exact (and_iff_right h).symm
  · rw [if_neg h]
    exact iff_of_false (not_sizeLaw_error fun _ => not_raise_die) fun h' => h h'.1

theorem sizeLaw_store_iff {width' : ℕ} {f : SizedBlock β → Except AllocStop (SizedBlock β)} :
    SizeLaw width n (vec.store width' i x >>= f) ↔ 24 + width' * (i + 1) ≤ vec.bytes ∧
      SizeLaw width n (f { vec with data := Function.update vec.data i (some x) }) := by
  by_cases h : 24 + width' * (i + 1) ≤ vec.bytes
  · rw [SizedBlock.store_of_le h, and_iff_right h]
    rfl
  · rw [SizedBlock.store, if_neg h]
    exact iff_of_false (not_sizeLaw_error fun _ => not_raise_fault) fun h' => h h'.1

/-- The bytes of a vector. -/
theorem sizeT_vector (n : ℤ) :
    sizeT (16 + (sizeT (8 + 8 * sizeT n) : ℕ)) = sizeT (24 + 8 * n) := by
  rw [sizeT, sizeT, sizeT, sizeT]
  omega

/-- The bytes of a bytevector. -/
theorem sizeT_bytevec (n : ℤ) :
    sizeT (16 + (sizeT (8 + sizeT n + 1) : ℕ)) = sizeT (25 + n) := by
  rw [sizeT, sizeT, sizeT, sizeT]
  omega

/-- **`make-vector`** is right if the size is not negative, the number of bytes is a `size_t`, and
there is such a block. -/
theorem sizeLaw_makeVector_iff {args : List NaviObj} : SizeLaw 8 n (makeVector malloc n args) ↔
    1 < args.length ∨ 0 ≤ n ∧ 24 + 8 * n < 2 ^ 64 ∧ malloc (24 + 8 * n).toNat := by
  rw [makeVector]
  by_cases hargs : 1 < args.length
  · rw [if_pos hargs]
    exact iff_of_true (.inl ⟨_, rfl⟩) (.inl hargs)
  rw [if_neg hargs, or_iff_right hargs]
  have hbytes : ((sizeT n : ℕ) : ℤ) = n → 24 + 8 * sizeT n ≤ sizeT (24 + 8 * n) →
      24 + 8 * n < 2 ^ 64 ∧ sizeT (24 + 8 * n) = (24 + 8 * n).toNat := by
    rw [sizeT, sizeT]
    omega
  simp only [naviMakeVector, bind_assoc, pure_bind]
  rw [sizeLaw_makeObject_iff, sizeT_vector, sizeLaw_fill_iff]
  constructor
  · rintro ⟨hmalloc, h₀, hn, hle⟩
    obtain ⟨hlt, heq⟩ := hbytes hn hle
    exact ⟨h₀, hlt, heq ▸ hmalloc⟩
  · rintro ⟨h₀, hlt, hmalloc⟩
    have hn : ((sizeT n : ℕ) : ℤ) = n := by
      rw [sizeT]
      omega
    have heq : sizeT (24 + 8 * n) = (24 + 8 * n).toNat := by
      rw [sizeT]
      omega
    rw [heq]
    refine ⟨hmalloc, h₀, hn, ?_⟩
    change 24 + 8 * sizeT n ≤ (24 + 8 * n).toNat
    omega

theorem naviTypeCheckByte_cases (arg : StringArg) :
    (∃ b, arg.naviTypeCheckByte = .ok b) ∨ ∃ msg, arg.naviTypeCheckByte = .error (.raise msg) := by
  cases arg with
  | fixnum n =>
    rw [StringArg.naviTypeCheckByte, naviFixnumCast, ok_bind, naviTypeCheckRange]
    split
    · exact .inr ⟨_, rfl⟩
    · exact .inl ⟨_, rfl⟩
  | char _ | string _ | other => exact .inr ⟨_, rfl⟩

/-- A bytevector whose bytes are then set by a law-abiding function; no block has `2 ^ 63` bytes or
more. -/
theorem sizeLaw_naviMakeBytevec_iff (hmax : ∀ k, malloc k → k < 2 ^ 63) (hn : IsFixnum n)
    {k : SizedBlock UInt8 → Except AllocStop (SizedBlock UInt8)}
    (hk : ∀ data, (sizeT n : ℤ) = n → 24 + 1 * sizeT n ≤ sizeT (25 + n) →
      SizeLaw 1 n (k ⟨sizeT (25 + n), sizeT n, data⟩)) :
    SizeLaw 1 n (naviMakeBytevec malloc (sizeT n) >>= k) ↔ 0 ≤ n ∧ malloc (25 + n).toNat := by
  simp only [naviMakeBytevec, bind_assoc]
  rw [sizeLaw_makeObject_iff, sizeT_bytevec, sizeLaw_store_iff]
  have hbytes (hmalloc : malloc (sizeT (25 + n))) :
      24 + 1 * (sizeT n + 1) ≤ sizeT (25 + n) ↔ 0 ≤ n := by
    have hlt := hmax _ hmalloc
    rw [IsFixnum] at hn
    rw [sizeT] at hlt
    rw [sizeT, sizeT]
    omega
  have heq (h₀ : 0 ≤ n) : sizeT (25 + n) = (25 + n).toNat := by
    rw [IsFixnum] at hn
    rw [sizeT]
    omega
  constructor
  · rintro ⟨hmalloc, hle, -⟩
    have h₀ := (hbytes hmalloc).mp hle
    exact ⟨h₀, heq h₀ ▸ hmalloc⟩
  · rintro ⟨h₀, hmalloc⟩
    rw [← heq h₀] at hmalloc
    refine ⟨hmalloc, (hbytes hmalloc).mpr h₀, hk _ ?_ ?_⟩
    · rw [IsFixnum] at hn
      rw [sizeT]
      omega
    · rw [IsFixnum] at hn
      rw [sizeT, sizeT]
      omega

/-- **`make-bytevector`** is right if the size is not negative, and there is such a block; none has
`2 ^ 63` bytes or more. -/
theorem sizeLaw_makeBytevector_iff (hmax : ∀ k, malloc k → k < 2 ^ 63) (hn : IsFixnum n)
    {args : List StringArg} : SizeLaw 1 n (makeBytevector malloc n args) ↔
      1 < args.length ∨ 0 ≤ n ∧ malloc (25 + n).toNat := by
  rw [makeBytevector]
  by_cases hargs : 1 < args.length
  · rw [if_pos hargs]
    exact iff_of_true (.inl ⟨_, rfl⟩) (.inl hargs)
  rw [if_neg hargs, or_iff_right hargs]
  refine sizeLaw_naviMakeBytevec_iff hmax hn fun data hsize hfits => ?_
  have h₀ : 0 ≤ n := hsize ▸ Int.natCast_nonneg _
  cases args with
  | nil => exact sizeLaw_ok_iff.mpr ⟨h₀, hsize, hfits⟩
  | cons arg₂ args =>
    obtain ⟨byte, hbyte⟩ | ⟨msg, hmsg⟩ := naviTypeCheckByte_cases arg₂
    · simp only [hbyte, liftStop]
      exact (@sizeLaw_fill_iff _ 1 n byte ⟨sizeT (25 + n), sizeT n, data⟩).mpr ⟨h₀, hsize, hfits⟩
    · simp only [hmsg, liftStop]
      exact .inl ⟨msg, rfl⟩

end Blocks

/-! ### Strings -/

section Strings

variable {α : Type} {C : Coding α} {letter : UInt32 → Option α} {U : Unicode} {u : Unknown}
  {malloc : ℕ → Bool} {h : StringHeap} {n : ℤ} {arg : Option StringArg} {ch : UInt32}

/-- A letter for which there is room is written over and over again. -/
theorem fillChars_ok (hU : U.Implements C letter) {a : α} (ha : letter ch = some a)
    {data : List UInt8} {k i fuel : ℕ} (hfuel : k ≤ fuel)
    (hblock : i + k * (C.word a).length ≤ data.length) :
    ∃ data', fillChars U (i + k * (C.word a).length : ℕ) ch data i fuel = .ok data' ∧
      data'.length = data.length := by
  have hpos := C.word_length_pos a
  induction k generalizing data i fuel with
  | zero =>
    rw [Nat.zero_mul, Nat.add_zero]
    cases fuel with
    | zero => exact ⟨data, rfl, rfl⟩
    | succ fuel => exact ⟨data, if_neg (lt_irrefl _), rfl⟩
  | succ k ih =>
    obtain ⟨fuel, rfl⟩ := Nat.exists_eq_add_of_le' (Nat.pos_of_ne_zero (by omega : fuel ≠ 0))
    rw [Nat.succ_mul] at hblock ⊢
    obtain ⟨data₁, hstore⟩ := storeBytes_of_le (C.word a) data i (by omega)
    obtain ⟨hlen, -⟩ := storeBytes_spec hstore
    have hsum : i + (k * (C.word a).length + (C.word a).length) =
        i + (C.word a).length + k * (C.word a).length := by omega
    obtain ⟨data', hdata', hlen'⟩ := @ih data₁ (i + (C.word a).length) fuel (by omega) (by omega)
    refine ⟨data', ?_, hlen'.trans hlen⟩
    rw [fillChars, if_pos (by omega), hU.append ha (by omega)]
    simp only [assertSome, ok_bind, hstore]
    rwa [hsum]

/-- So many characters are written as were asked for, or none where they have no bytes. -/
theorem fillChars_size_ok (hU : U.Implements C letter) (ch : UInt32) {k m : ℕ}
    (hk : U.u8Length ch = k) {data : List UInt8} (hblock : m * k ≤ data.length) :
    ∃ data', fillChars U (m * k : ℕ) ch data 0 (m * k) = .ok data' ∧
      data'.length = data.length := by
  cases ha : letter ch with
  | none =>
    obtain rfl : k = 0 := Int.ofNat_inj.mp (hk.symm.trans (hU.length_other ha))
    exact ⟨data, rfl, rfl⟩
  | some a =>
    obtain rfl : k = (C.word a).length := Int.ofNat_inj.mp (hk.symm.trans (hU.length_letter ha))
    have hfuel : m ≤ m * (C.word a).length := Nat.le_mul_of_pos_right m (C.word_length_pos a)
    have hfill := fillChars_ok hU ha (i := 0) hfuel (by rwa [Nat.zero_add])
    rwa [Nat.zero_add] at hfill

theorem noRaise_fillChars (U : Unicode) (size : ℤ) (ch : UInt32) (data : List UInt8) (i k : ℕ) :
    NoRaise (fillChars U size ch data i k) := by
  induction k generalizing data i with
  | zero => exact .ok _
  | succ k ih =>
    rw [fillChars]
    split
    · exact (NoRaise.assertSome _).bind fun bs => (NoRaise.storeBytes data i bs).bind fun data =>
        ih data _
    · exact .ok _

/-- `make-string`, behind its checks. -/
theorem makeString_eq (u : Unknown) (h : StringHeap) (h₀ : 0 ≤ n) (hch : charOr arg 32 = .ok ch) :
    ∃ block : List UInt8, block.length = sizeT ((n * U.u8Length ch).bmod (2 ^ 64)) + 1 ∧
      h.makeString U u n arg =
        fillChars U ((n * U.u8Length ch).bmod (2 ^ 64)) ch block 0
          ((n * U.u8Length ch).bmod (2 ^ 64)).toNat >>= fun data =>
        .ok (h.add ⟨int32 (sizeT ((n * U.u8Length ch).bmod (2 ^ 64))), int32 (sizeT n),
          int32 (sizeT ((n * U.u8Length ch).bmod (2 ^ 64))), data⟩) := by
  obtain ⟨block, hblock, hmake⟩ := naviMakeString_of_le u (sizeT n)
    (le_refl (sizeT ((n * U.u8Length ch).bmod (2 ^ 64))))
  refine ⟨block, hblock, ?_⟩
  rw [StringHeap.makeString, if_neg (by omega), hch, ok_bind]
  dsimp only
  rw [hmake, ok_bind]
  simp only [pure_eq_ok]

theorem add_inj {str str' : NaviString} (heq : h.add str = h.add str') : str = str' := by
  have hstrings := congrArg StringHeap.strings heq
  exact (List.cons.inj (List.append_cancel_left hstrings)).1

/-- Both blocks of a string are there, or the program ends. -/
theorem mallocString_bind {β : Type} (capacity : ℕ) (f : Unit → Except AllocStop β) :
    mallocString malloc capacity >>= f =
      if malloc 40 ∧ malloc (sizeT (capacity + 1)) then f ()
      else .error (.die "not enough memory") := by
  have hobject : sizeT (16 + (24 : ℕ)) = 40 := by decide
  rw [mallocString, makeObject, hobject, naviCriticalMalloc, naviCriticalMalloc]
  by_cases h₁ : malloc 40 = true
  · by_cases h₂ : malloc (sizeT (capacity + 1)) = true
    · rw [if_pos h₁, if_pos h₂, if_pos ⟨h₁, h₂⟩]
      rfl
    · rw [if_pos h₁, if_neg h₂, if_neg fun h => h₂ h.2]
      rfl
  · have hno : ¬ (malloc 40 = true ∧ malloc (sizeT (capacity + 1)) = true) := fun h => h₁ h.1
    rw [if_neg h₁, if_neg hno]
    rfl

theorem Unicode.Implements.exists_u8Length (hU : U.Implements C letter) (ch : UInt32) :
    ∃ k : ℕ, U.u8Length ch = k := by
  cases ha : letter ch with
  | none => exact ⟨0, hU.length_other ha⟩
  | some a => exact ⟨_, hU.length_letter ha⟩

theorem charOr_cases (arg : Option StringArg) (c : UInt32) :
    (∃ ch, charOr arg c = .ok ch) ∨ ∃ msg, charOr arg c = .error (.raise msg) := by
  match arg with
  | none | some (.char _) => exact .inl ⟨_, rfl⟩
  | some (.fixnum _) | some (.string _) | some .other => exact .inr ⟨_, rfl⟩

/-- **`make-string`** is right for a negative size, and if neither the number of characters nor
that of bytes is `2 ^ 31` or more, and there are such blocks. -/
theorem stringSizeLaw_makeString_iff (hU : U.Implements C letter) :
    StringSizeLaw U h n arg (makeString malloc U u h n arg) ↔
      0 ≤ n → ∀ ch, charOr arg 32 = .ok ch →
        n < 2 ^ 31 ∧ n * U.u8Length ch < 2 ^ 31 ∧ malloc 40 ∧
          malloc (n * U.u8Length ch + 1).toNat := by
  rw [makeString]
  by_cases h₀ : n < 0
  · rw [if_pos h₀]
    exact iff_of_true (.inl ⟨_, rfl⟩) fun h => absurd h₀ (not_lt.mpr h)
  rw [if_neg h₀]
  have h₀ := not_lt.mp h₀
  obtain ⟨ch, hch⟩ | ⟨msg, hmsg⟩ := charOr_cases arg 32
  · obtain ⟨block, hblock, hmake⟩ := makeString_eq (U := U) u h h₀ hch
    have hcond : (0 ≤ n → ∀ ch, charOr arg 32 = .ok ch → n < 2 ^ 31 ∧ n * U.u8Length ch < 2 ^ 31 ∧
        malloc 40 ∧ malloc (n * U.u8Length ch + 1).toNat) ↔ n < 2 ^ 31 ∧
          n * U.u8Length ch < 2 ^ 31 ∧ malloc 40 ∧ malloc (n * U.u8Length ch + 1).toNat := by
      refine ⟨fun hall => hall h₀ ch hch, fun hall _ ch' hch' => ?_⟩
      cases hch.symm.trans hch'
      exact hall
    rw [hcond, hch, hmake]
    change StringSizeLaw U h n arg (mallocString malloc _ >>= fun _ => _) ↔ _
    rw [mallocString_bind]
    obtain ⟨k, hk⟩ := hU.exists_u8Length ch
    obtain ⟨m, rfl⟩ := Int.eq_ofNat_of_zero_le h₀
    have hsizes (hlt : (m : ℤ) * U.u8Length ch < 2 ^ 31) :
        ((m : ℤ) * U.u8Length ch).bmod (2 ^ 64) = (m * k : ℕ) ∧
          sizeT (((m : ℤ) * U.u8Length ch).bmod (2 ^ 64)) = m * k ∧
          sizeT ((m * k : ℕ) + 1) = m * k + 1 := by
      rw [hk, ← Nat.cast_mul] at hlt ⊢
      have hbmod := bmod_two_pow_64 (n := m * k) (by omega)
      rw [hbmod]
      refine ⟨rfl, sizeT_natCast (by omega), ?_⟩
      exact_mod_cast sizeT_natCast (n := m * k + 1) (by omega)
    constructor
    · intro hlaw
      split at hlaw
      · rename_i hmalloc
        cases hfill : fillChars U (((m : ℤ) * U.u8Length ch).bmod (2 ^ 64)) ch block 0
          (((m : ℤ) * U.u8Length ch).bmod (2 ^ 64)).toNat with
        | error e =>
          rw [hfill] at hlaw
          obtain ⟨msg, hmsg⟩ | ⟨-, ch, str, -, hres, -⟩ := hlaw
          · exact absurd (hfill.trans (congrArg _ (AllocStop.stop.inj (Except.error.inj hmsg))))
              (noRaise_fillChars U _ ch block 0 _ msg)
          · cases hres
        | ok data =>
          rw [hfill] at hlaw
          obtain ⟨msg, hmsg⟩ | ⟨-, ch', str, hch', hres, hlength, hsize, -⟩ := hlaw
          · cases hmsg
          cases hch.symm.trans hch'
          cases add_inj (Except.ok.inj hres)
          dsimp only at hlength hsize
          have hn := hlength ▸ int32_lt (sizeT m)
          have hlt := hsize ▸ int32_lt (sizeT (((m : ℤ) * U.u8Length ch).bmod (2 ^ 64)))
          obtain ⟨-, hcapacity, hbytes⟩ := hsizes hlt
          rw [hcapacity, hbytes] at hmalloc
          refine ⟨hn, hlt, hmalloc.1, ?_⟩
          rw [hk]
          exact_mod_cast hmalloc.2
      · obtain ⟨msg, hmsg⟩ | ⟨-, ch, str, -, hres, -⟩ := hlaw
        · exact absurd (Except.error.inj hmsg) not_raise_die
        · cases hres
    · rintro ⟨hn, hlt, hobject, hdata⟩
      obtain ⟨hsize, hcapacity, hbytes⟩ := hsizes hlt
      rw [hcapacity] at hblock ⊢
      have hmalloc : malloc 40 = true ∧ malloc (m * k + 1) = true := by
        rw [hk] at hdata
        exact ⟨hobject, by exact_mod_cast hdata⟩
      rw [hsize, hbytes, if_pos hmalloc]
      obtain ⟨data, hfill, hlength⟩ := fillChars_size_ok hU ch hk (by omega : m * k ≤ block.length)
      rw [hk, ← Nat.cast_mul] at hlt
      rw [Int.toNat_natCast, hfill]
      refine .inr ⟨Int.natCast_nonneg m, ch, ⟨int32 (m * k : ℕ), int32 (sizeT m),
        int32 (m * k : ℕ), data⟩, hch, rfl, ?_, ?_, ?_⟩
      · dsimp only
        rw [sizeT_natCast (by omega), int32_eq_self (by omega) hn]
      · dsimp only
        rw [int32_eq_self (by omega) hlt, hk, Nat.cast_mul]
      · dsimp only
        rw [int32_eq_self (by omega) hlt, hlength, hblock]
        push_cast
        rfl
  · rw [hmsg]
    refine iff_of_true (.inl ⟨msg, rfl⟩) fun _ ch hch => ?_
    cases hch

/-- A machine that has blocks of up to `2 ^ 47` bytes. -/
def mallocUpTo (k : ℕ) : Bool := k ≤ 2 ^ 47

theorem lt_of_mallocUpTo {k : ℕ} (hk : mallocUpTo k) : k < 2 ^ 63 :=
  (of_decide_eq_true hk).trans_lt (by norm_num)

end Strings

end NaviScheme
