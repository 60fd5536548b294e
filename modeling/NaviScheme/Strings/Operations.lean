import NaviScheme.Strings.Memory

/-!
# The operations on strings

The builtins that create or modify strings, over a heap of string objects (`StringHeap`). The
arguments whose types `check_apply` has compared with the declaration of a builtin are typed
here too; the other ones are `StringArg`, and the builtins cast them.
-/

namespace NaviScheme

/-- An argument that the builtin checks itself. -/
inductive StringArg
  | fixnum (n : ℤ)
  /-- A character, as the macros see it. -/
  | char (c : UInt32)
  /-- The address of a string. -/
  | string (a : ℕ)
  | other
deriving DecidableEq, Repr

/-- The string objects, and the strings of the string output ports. -/
structure StringHeap where
  strings : List NaviString
  ports : List ℕ
deriving DecidableEq, Repr

namespace StringHeap

def get (h : StringHeap) (a : ℕ) : Except StringStop NaviString :=
  match h.strings[a]? with
  | some str => .ok str
  | none => .error .fault

def put (h : StringHeap) (a : ℕ) (str : NaviString) : StringHeap :=
  { h with strings := h.strings.set a str }

def add (h : StringHeap) (str : NaviString) : StringHeap :=
  { h with strings := h.strings ++ [str] }

end StringHeap

/-! ### Checks -/

def naviFixnumCast : StringArg → Except StringStop ℤ
  | .fixnum n => .ok n
  | _ => .error (.raise "fixnum")

def naviCharCast : StringArg → Except StringStop UInt32
  | .char c => .ok c
  | _ => .error (.raise "character")

/-- `navi_string_cast`, to the address of the string. -/
def naviStringCast : StringArg → Except StringStop ℕ
  | .string a => .ok a
  | _ => .error (.raise "string")

/-- An optional fixnum. -/
def fixnumOr (arg : Option StringArg) (n : ℤ) : Except StringStop ℤ :=
  match arg with
  | some arg => naviFixnumCast arg
  | none => .ok n

/-- An optional character. -/
def charOr (arg : Option StringArg) (c : UInt32) : Except StringStop UInt32 :=
  match arg with
  | some arg => naviCharCast arg
  | none => .ok c

/-- `navi_check_copy_to` -/
def naviCheckCopyTo (to_ : ℕ) (at_ : ℤ) (from_ : ℕ) (start end_ : ℤ) : Except StringStop Unit :=
  if at_ < 0 ∨ at_ ≥ to_ ∨ start < 0 ∨ start ≥ from_ ∨ end_ < start ∨ end_ > from_ ∨
      (to_ : ℤ) - at_ < end_ - start then
    .error (.raise "invalid indices for copy")
  else
    .ok ()

/-- `navi_check_copy` -/
def naviCheckCopy (size : ℕ) (start end_ : ℤ) : Except StringStop Unit :=
  naviCheckCopyTo size 0 size start end_

section

variable (U : Unicode) (u : Unknown)

/-! ### Loops -/

/-- `u8_append`, for one character after the other; the bytes and the new `i`. -/
def appendChars (capacity : ℤ) (data : List UInt8) (i : ℕ) :
    List UInt32 → Except StringStop (List UInt8 × ℕ)
  | [] => .ok (data, i)
  | c :: cs => do
    let bs ← assertSome (U.u8Append i capacity c)
    let data ← storeBytes data i bs
    appendChars capacity data (i + bs.length) cs

/-- `for (i = 0; i < size;) u8_append(data, i, size, ch)`; the loop goes round at most `size`
times, because each round adds a byte. -/
def fillChars (size : ℤ) (c : UInt32) (data : List UInt8) (i : ℕ) :
    ℕ → Except StringStop (List UInt8)
  | 0 => .ok data
  | n + 1 =>
    if i < size then do
      let bs ← assertSome (U.u8Append i size c)
      let data ← storeBytes data i bs
      fillChars size c data (i + bs.length) n
    else
      .ok data

/-- The sum of the lengths of `n` characters from `j` on, in `copy_to`. -/
def charsSize (s : ℕ → UInt8) (size : ℤ) : ℕ → ℕ → ℤ → Except StringStop ℤ
  | 0, _, acc => .ok acc
  | n + 1, j, acc => do
    let (c, j) ← assertSome (U.u8Next s j size)
    charsSize s size n j (int32 (acc + U.u8Length c))

/-- The position behind `n` characters from `j` on, in `string-fill!`. -/
def skipChars (s : ℕ → UInt8) (size : ℤ) : ℕ → ℕ → Except StringStop ℕ
  | 0, j => .ok j
  | n + 1, j => do
    let (_, j) ← assertSome (U.u8Next s j size)
    skipChars s size n j

/-- `count_chars`, with what is left of the size as fuel, which is enough because each round
goes on by a byte; `none` stands for -1. -/
def countChars (s : ℕ → UInt8) (size : ℕ) (i n : ℕ) : ℕ → Option ℕ
  | 0 => some n
  | fuel + 1 =>
    if i < size then
      match U.u8NextUnchecked s i (int32 size) with
      | (none, _) => none
      | (some _, i) => countChars s size i (n + 1) fuel
    else
      some n

/-! ### `string.c` -/

/-- The characters of a list, and their size. -/
def charArgs : List StringArg → Except StringStop (List UInt32)
  | [] => .ok []
  | arg :: args => do
    let c ← naviCharCast arg
    let cs ← charArgs args
    return c :: cs

/-- The sum of `u8_length`, a `size_t`. -/
def u32Size (cs : List UInt32) : ℕ := sizeT (cs.map U.u8Length).sum

/-- `list_to_string` -/
def StringHeap.listToString (h : StringHeap) (list : List StringArg) : Except StringStop StringHeap := do
  let cs ← charArgs list
  let str ← naviMakeString u (u32Size U cs) (u32Size U cs) cs.length
  let (data, _) ← appendChars U str.capacity str.data 0 cs
  return h.add { str with data }

/-- `vector_to_string`, whose `size` is an `int32_t`, with `vector_to_string_ip`. -/
def StringHeap.vectorToString (h : StringHeap) (vec : List StringArg) : Except StringStop StringHeap := do
  let cs ← charArgs vec
  let size := sizeT (int32 (u32Size U cs))
  let str ← naviMakeString u size size cs.length
  let (data, si) ← appendChars U str.capacity str.data 0 cs
  let str ← NaviString.setSize { str with data } si
  return h.add str

/-- `make-string` -/
def StringHeap.makeString (h : StringHeap) (length : ℤ) (arg : Option StringArg) :
    Except StringStop StringHeap :=
  if length < 0 then
    .error (.raise "invalid length")
  else do
    let ch ← charOr arg 32
    let size := (length * U.u8Length ch).bmod (2 ^ 64)
    let str ← naviMakeString u (sizeT size) (sizeT size) (sizeT length)
    let data ← fillChars U size ch str.data 0 size.toNat
    return h.add { str with data }

/-- The strings of the arguments of `string-append`, with their addresses. -/
def StringHeap.stringArgs (h : StringHeap) : List StringArg → Except StringStop (List (ℕ × NaviString))
  | [] => .ok []
  | arg :: args => do
    let a ← naviStringCast arg
    let str ← h.get a
    let strs ← h.stringArgs args
    return (a, str) :: strs

/-- The bytes from 0 to `size`. -/
def contents (a : ℕ) (str : NaviString) : List UInt8 :=
  (List.range str.size.toNat).map (str.bytes u a)

/-- `string-append` -/
def StringHeap.stringAppend (h : StringHeap) (args : List StringArg) : Except StringStop StringHeap := do
  let strs ← h.stringArgs args
  let size := strs.foldl (fun n s => int32 (n + s.2.size)) 0
  let length := strs.foldl (fun n s => int32 (n + s.2.length)) 0
  let str ← naviMakeString u (sizeT size) (sizeT size) (sizeT length)
  let data ← storeBytes str.data 0 (strs.flatMap fun s => contents u s.1 s.2)
  return h.add { str with data }

/-- The bytes that `memcpy` stores, from `froms->data + i`. -/
def memcpyBytes (from_ : ℕ) (froms : NaviString) (overlap : Prop) [Decidable overlap] (i n : ℕ) :
    List UInt8 :=
  (List.range n).map fun j => if overlap then u.overlap j else froms.bytes u from_ (i + j)

/-- `copy_to`. The target may be the source: then the bytes are copied after they have been
shifted, and to a place that may overlap them. -/
def StringHeap.copyTo (h : StringHeap) (to_ : ℕ) (at_ : ℤ) (from_ : ℕ) (start end_ : ℤ) :
    Except StringStop StringHeap := do
  let tos ← h.get to_
  let froms ← h.get from_
  let toI := U.u8FwdN (tos.bytes u to_) 0 (int32 at_).toNat
  let fromI := U.u8FwdN (froms.bytes u from_) 0 (int32 start).toNat
  let n := (int32 end_ - int32 start).toNat
  let toSize ← charsSize U (tos.bytes u to_) tos.size n toI 0
  let fromSize ← charsSize U (froms.bytes u from_) froms.size n fromI 0
  let tos ← tos.shift u to_ toI (fromSize - toSize)
  let froms := if from_ = to_ then tos else froms
  let overlap := from_ = to_ ∧ toI < fromI + fromSize.toNat ∧ fromI < toI + fromSize.toNat
  let data ← storeBytes tos.data toI (memcpyBytes u from_ froms overlap fromI fromSize.toNat)
  let tos ← NaviString.setSize { tos with data } (tos.size + (fromSize - toSize))
  return h.put to_ tos

/-- `string-fill!` -/
def StringHeap.stringFill (h : StringHeap) (a : ℕ) (ch : UInt32) (start end_ : Option StringArg) :
    Except StringStop StringHeap := do
  let str ← h.get a
  let start := int32 (← fixnumOr start 0)
  let end_ := int32 (← fixnumOr end_ str.size)
  naviCheckCopy (sizeT str.length) start end_
  let i := U.u8FwdN (str.bytes u a) 0 start.toNat
  let j ← skipChars U (str.bytes u a) str.size (end_ - start).toNat i
  let oldSize : ℤ := j - i
  let newSize := int32 (U.u8Length ch * (end_ - start))
  let str ← str.shift u a i (newSize - oldSize)
  let (data, _) ← appendChars U str.capacity str.data i (List.replicate (end_ - start).toNat ch)
  let str ← NaviString.setSize { str with data } (str.size + (newSize - oldSize))
  return h.put a str

/-- `string-copy` -/
def StringHeap.stringCopy (h : StringHeap) (from_ : ℕ) (start end_ : Option StringArg) :
    Except StringStop StringHeap := do
  let froms ← h.get from_
  let start ← fixnumOr start 0
  let end_ ← fixnumOr end_ froms.size
  naviCheckCopy (sizeT froms.length) start end_
  let n := sizeT (end_ - start)
  let str ← naviMakeString u n n n
  (h.add str).copyTo U u h.strings.length 0 from_ start end_

/-- `string-copy!` -/
def StringHeap.stringCopyTo (h : StringHeap) (to_ : ℕ) (at_ : ℤ) (from_ : ℕ) (start end_ : Option StringArg) :
    Except StringStop StringHeap := do
  let tos ← h.get to_
  let froms ← h.get from_
  let start ← fixnumOr start 0
  let end_ ← fixnumOr end_ froms.size
  naviCheckCopyTo (sizeT tos.length) at_ (sizeT froms.length) start end_
  h.copyTo U u to_ at_ from_ start end_

/-- `string-set!` -/
def StringHeap.stringSet (h : StringHeap) (a : ℕ) (k : ℤ) (ch : UInt32) : Except StringStop StringHeap := do
  let str ← h.get a
  if k < 0 ∨ k ≥ str.size then
    .error (.raise "string index out of bounds")
  else do
    let str ← str.set U u a k ch
    return h.put a str

/-! ### `bytevector.c`, `heap.c` and `port.c` -/

/-- `utf8->string` -/
def StringHeap.utf8ToString (h : StringHeap) (vec : List UInt8) (start end_ : Option StringArg) :
    Except StringStop StringHeap := do
  let start ← fixnumOr start 0
  let end_ ← fixnumOr end_ vec.length
  naviCheckCopy vec.length start end_
  let size := (end_ - start).toNat
  match countChars U (fun i => vec.getD i 0) vec.length 0 0 vec.length with
  | none => .error (.raise "invalid UTF-8")
  | some length => do
    let str ← naviMakeString u size size length
    let data ← storeBytes str.data 0 ((vec.drop start.toNat).take size)
    return h.add { str with data }

/-- `navi_cstr_to_string` -/
def StringHeap.naviCstrToString (h : StringHeap) (cstr : List UInt8) : Except StringStop StringHeap := do
  let bs := cstr.takeWhile (· ≠ 0)
  let str ← naviMakeString u bs.length bs.length bs.length
  let data ← storeBytes str.data 0 bs
  return h.add { str with data, size := int32 bs.length }

/-- `STRING_INIT_SIZE` -/
def stringInitSize : ℕ := 64

/-- `navi_open_output_string` -/
def StringHeap.naviOpenOutputString (h : StringHeap) : Except StringStop StringHeap := do
  let str ← naviMakeString u stringInitSize 0 0
  return { h.add str with ports := h.ports ++ [h.strings.length] }

/-- The string of a port. -/
def StringHeap.port (h : StringHeap) (p : ℕ) : Except StringStop ℕ :=
  match h.ports[p]? with
  | some a => .ok a
  | none => .error .fault

/-- `string_write` -/
def StringHeap.stringWrite (h : StringHeap) (p : ℕ) (ch : UInt32) : Except StringStop StringHeap := do
  let a ← h.port p
  let str ← h.get a
  let str ← str.growStorage u (U.u8Length ch)
  let bs ← assertSome (U.u8Append str.size.toNat str.capacity ch)
  let data ← storeBytes str.data str.size.toNat bs
  let str ← NaviString.setSize { str with data } (str.size + bs.length)
  return h.put a { str with length := int32 (str.length + 1) }

/-- `navi_get_output_string` -/
def StringHeap.naviGetOutputString (h : StringHeap) (p : ℕ) : Except StringStop StringHeap := do
  let a ← h.port p
  let str ← h.get a
  let copy ← naviMakeString u (sizeT str.size) (sizeT str.size) (sizeT str.length)
  let data ← storeBytes copy.data 0 (contents u a str)
  return h.add { copy with data }

end

/-! ### One operation -/

/-- The calls that create or modify strings. -/
inductive StringOp
  | string (args : List StringArg)
  | makeString (length : ℤ) (ch : Option StringArg)
  | listToString (list : List StringArg)
  | vectorToString (vec : List StringArg)
  | stringAppend (args : List StringArg)
  | stringCopy (from_ : ℕ) (start end_ : Option StringArg)
  | substring (from_ : ℕ) (start end_ : ℤ)
  | stringCopyTo (to_ : ℕ) (at_ : ℤ) (from_ : ℕ) (start end_ : Option StringArg)
  | stringSet (a : ℕ) (k : ℤ) (ch : UInt32)
  | stringFill (a : ℕ) (ch : UInt32) (start end_ : Option StringArg)
  | utf8ToString (vec : List UInt8) (start end_ : Option StringArg)
  | openOutputString
  | stringWrite (port : ℕ) (ch : UInt32)
  | getOutputString (port : ℕ)
  | cstrToString (cstr : List UInt8)

/-- What a call does. -/
def StringOp.run (U : Unicode) (u : Unknown) (h : StringHeap) :
    StringOp → Except StringStop StringHeap
  | .string args => h.listToString U u args
  | .makeString length ch => h.makeString U u length ch
  | .listToString list => h.listToString U u list
  | .vectorToString vec => h.vectorToString U u vec
  | .stringAppend args => h.stringAppend u args
  | .stringCopy from_ start end_ => h.stringCopy U u from_ start end_
  | .substring from_ start end_ =>
    h.stringCopy U u from_ (some (.fixnum start)) (some (.fixnum end_))
  | .stringCopyTo to_ at_ from_ start end_ => h.stringCopyTo U u to_ at_ from_ start end_
  | .stringSet a k ch => h.stringSet U u a k ch
  | .stringFill a ch start end_ => h.stringFill U u a ch start end_
  | .utf8ToString vec start end_ => h.utf8ToString U u vec start end_
  | .openOutputString => h.naviOpenOutputString u
  | .stringWrite port ch => h.stringWrite U u port ch
  | .getOutputString port => h.naviGetOutputString u port
  | .cstrToString cstr => h.naviCstrToString u cstr

end NaviScheme
