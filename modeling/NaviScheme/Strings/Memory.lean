import NaviScheme.Strings.Unicode

/-!
# Strings in memory

A string object has three numbers of 32 bits and a block of memory (`NaviString`). The functions
that store bytes into the block are here, as far as one string is concerned: `navi_make_string`,
`navi_string_grow_storage`, `string_shift`, `navi_string_set`. What the program does not
determine is given by `Unknown`: the bytes of memory that `malloc` and `realloc` hand out, and
those that are read behind the end of a block. A store outside of the block is a fault.
-/

namespace NaviScheme

/-- `struct navi_string`, with the block of memory that `data` points to. -/
structure NaviString where
  size : ℤ
  length : ℤ
  capacity : ℤ
  data : List UInt8
deriving DecidableEq, Repr

/-- What the memory holds where the program has not written. -/
structure Unknown where
  /-- The bytes of a block that `malloc` returns. -/
  fresh : ℕ → UInt8
  /-- The bytes that `realloc` adds, by their positions in the block. -/
  grown : ℕ → UInt8
  /-- What is behind the block of a string, by the position from the beginning of the block. -/
  beyond : ℕ → ℕ → UInt8
  /-- What a `memcpy` leaves in a target that overlaps its source. -/
  overlap : ℕ → UInt8

/-- How a function ends that does not return. -/
inductive StringStop
  /-- `navi_error` -/
  | raise (msg : String)
  /-- An assertion fails. -/
  | abort
  /-- A store outside of the block, or an address that is not a string. -/
  | fault
deriving DecidableEq, Repr

/-- An `int32_t`. -/
def int32 (n : ℤ) : ℤ := n.bmod (2 ^ 32)

/-- A `size_t`. -/
def sizeT (n : ℤ) : ℕ := (n % 2 ^ 64).toNat

/-- What an assertion asks for. -/
def assertSome {β : Type} : Option β → Except StringStop β
  | some b => .ok b
  | none => .error .abort

/-- `data[i] = b` -/
def storeByte (data : List UInt8) (i : ℤ) (b : UInt8) : Except StringStop (List UInt8) :=
  if 0 ≤ i ∧ i < data.length then .ok (data.set i.toNat b) else .error .fault

/-- The bytes `bs`, stored one by one from `data[i]` on. -/
def storeBytes (data : List UInt8) (i : ℕ) : List UInt8 → Except StringStop (List UInt8)
  | [] => .ok data
  | b :: bs => do
    let data ← storeByte data i b
    storeBytes data (i + 1) bs

/-- `navi_make_string` -/
def naviMakeString (u : Unknown) (capacity size length : ℕ) : Except StringStop NaviString := do
  let data ← storeByte ((List.range (capacity + 1)).map u.fresh) capacity 0
  let data ← storeByte data size 0
  return ⟨int32 size, int32 length, int32 capacity, data⟩

/-- `realloc`, to a block of `n` bytes. -/
def reallocate (u : Unknown) (data : List UInt8) (n : ℕ) : List UInt8 :=
  data.take n ++ (List.range (n - data.length)).map fun j => u.grown (data.length + j)

namespace NaviString

/-- The bytes that are read through `str->data`; `a` is the address of the string. -/
def bytes (u : Unknown) (a : ℕ) (str : NaviString) (i : ℕ) : UInt8 :=
  str.data[i]?.getD (u.beyond a i)

/-- `navi_string_grow_storage` -/
def growStorage (u : Unknown) (str : NaviString) (need : ℤ) : Except StringStop NaviString :=
  if str.capacity - str.size > need then
    .ok str
  else do
    let need := need - (str.capacity - str.size)
    let capacity := int32 (str.capacity + need)
    let data ← storeByte (reallocate u str.data (sizeT (str.capacity + need + 1))) capacity 0
    return { str with capacity, data }

/-- `for (i = size - 1; i > pos; i--) data[i + diff] = data[i]` -/
def shiftRight (u : Unknown) (a pos diff : ℕ) (str : NaviString) :
    ℕ → Except StringStop NaviString
  | 0 => .ok str
  | i + 1 =>
    if i + 1 > pos then do
      let data ← storeByte str.data (i + 1 + diff : ℕ) (str.bytes u a (i + 1))
      shiftRight u a pos diff { str with data } i
    else
      .ok str

/-- `n` rounds of `data[i] = data[i + diff]`, upwards from `i`. -/
def shiftLeft (u : Unknown) (a diff : ℕ) (str : NaviString) (i : ℕ) :
    ℕ → Except StringStop NaviString
  | 0 => .ok str
  | n + 1 => do
    let data ← storeByte str.data i (str.bytes u a (i + diff))
    shiftLeft u a diff { str with data } (i + 1) n

/-- `string_shift` -/
def shift (u : Unknown) (a : ℕ) (str : NaviString) (pos : ℕ) (diff : ℤ) :
    Except StringStop NaviString :=
  if diff > 0 then do
    let str ← str.growStorage u diff
    str.shiftRight u a pos diff.toNat (str.size - 1).toNat
  else if diff < 0 then
    str.shiftLeft u a (-diff).toNat (pos + 1) (str.size - 1 - (pos + 1)).toNat
  else
    .ok str

/-- `str->size = size; str->data[str->size] = '\0'` -/
def setSize (str : NaviString) (size : ℤ) : Except StringStop NaviString := do
  let data ← storeByte str.data (int32 size) 0
  return { str with size := int32 size, data }

/-- `navi_string_set` -/
def set (U : Unicode) (u : Unknown) (a : ℕ) (str : NaviString) (k : ℤ) (newCh : UInt32) :
    Except StringStop NaviString := do
  let i := U.u8FwdN (str.bytes u a) 0 k.toNat
  let oldCh ← assertSome (U.u8Get (str.bytes u a) 0 i str.size)
  let diff := U.u8Length newCh - U.u8Length oldCh
  let str ← str.shift u a i diff
  let bs ← assertSome (U.u8Append i (str.size + diff) newCh)
  let data ← storeBytes str.data i bs
  setSize { str with data } (str.size + diff)

end NaviString

end NaviScheme
