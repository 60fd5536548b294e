import Mathlib.Algebra.Order.BigOperators.Group.List
import NaviScheme.Heap.Sweep
import NaviScheme.Heap.Symbols
import NaviScheme.Slab.Cache
import NaviScheme.Strings.Memory

/-!
# The statistics of the collector

`gc_stats` counts the objects on the heap list and their bytes, for `navi_gc_check` to tell when
to collect. What an object adds is computed where it is made, from what is allocated for it, and
what it takes off where it is freed, from its type and fields (`GcHeap.objectSize`). The functions
of `heap.c` that make, grow and free objects are here as far as this matters, on the heap list
(`GcHeap`). Which objects a collection marks is left open; `doGcCollect_lists` says that the
collections of the collector are among the ones here.

`gcStats_iff` says in which runs the two amounts are the same, and the statistics are right.
-/

namespace NaviScheme

/-- The structures of `internal.h`. -/
inductive CStruct
  | naviObject | naviPair | naviPort | naviString | naviSymbol | naviVector | naviBytevec
  | naviProcedure | naviThunk | naviEscape | naviEnv
  deriving DecidableEq, Repr

/-- `sizeof`, on x86-64; a `jmp_buf` has 200 bytes. -/
def CStruct.sizeof : CStruct → ℕ
  | naviObject => 16
  | naviPair => 16
  | naviPort => 88
  | naviString => 24
  | naviSymbol => 16
  | naviVector => 8
  | naviBytevec => 8
  | naviProcedure => 56
  | naviThunk => 24
  | naviEscape => 224
  | naviEnv => 16

/-- The fields of an object that `object_size` reads. -/
inductive SizedData
  /-- An object of a type whose objects are all of one size. -/
  | fixed
  | string (str : NaviString)
  | symbol (data : CString)
  | vector (size : ℕ)
  | bytevec (size : ℕ)

/-- An object on the heap list. -/
structure HeapObject where
  /-- where it is -/
  addr : Addr
  /-- `type` -/
  type : NaviType
  /-- `NAVI_GC_PROTECT` -/
  protect : Bool
  /-- `data` -/
  data : SizedData
  /-- The count of bytes that was added when the object was registered. -/
  added : ℕ

/-- `gc_stats` -/
structure GcStats where
  bytes : ℕ
  objects : ℕ
  threshold : ℕ
  deriving DecidableEq, Repr

/-- The heap and what is known of it. -/
structure GcHeap where
  /-- `heap` -/
  heap : List HeapObject
  /-- `gc_stats` -/
  stats : GcStats
  /-- `_navi_gc_disabled` -/
  disabled : ℕ
  /-- The number of objects that have been made. -/
  made : ℕ

/-- An object that is freed, with the statistics before and after. -/
structure Freed where
  obj : HeapObject
  before : GcStats
  after : GcStats

/-- What `malloc` returns for a number of bytes, after some calls and with the objects that there
are and their sizes: where the object is, and whether `NAVI_GC_PROTECT` is set in that memory. -/
abbrev Malloc := ℕ → List (Addr × ℕ) → ℕ → Option (Addr × Bool)

/-- The block is none of those in use, and there is an address for each of their bytes. -/
def Malloc.Sound (malloc : Malloc) : Prop :=
  ∀ n blocks size a protect, malloc n blocks size = some (a, protect) →
    a ∉ blocks.map Prod.fst ∧ (blocks.map Prod.snd).sum + size < 2 ^ 64

namespace GcHeap

/-- The memory in the beginning. -/
def start : GcHeap := ⟨[], ⟨0, 0, 0⟩, 0, 0⟩

/-- `object_size` -/
def objectSize (obj : HeapObject) : Except Fault ℕ :=
  match obj.type, obj.data with
  | .naviVoid, _ | .naviNil, _ | .naviFixnum, _ | .naviEof, _ | .naviBool, _ | .naviChar, _ => .ok 0
  | .naviPair, _ | .naviParameter, _ => .ok CStruct.naviPair.sizeof
  | .naviPort, _ => .ok CStruct.naviPort.sizeof
  -- the capacity is an `int32_t`
  | .naviString, .string str => .ok (sizeT (str.capacity + CStruct.naviString.sizeof))
  | .naviSymbol, .symbol data => .ok (data.bytes.length + CStruct.naviSymbol.sizeof)
  | .naviVector, .vector size | .naviValues, .vector size | .naviCaselambda, .vector size =>
    .ok ((size * 8 + CStruct.naviVector.sizeof) % 2 ^ 64)
  | .naviBytevec, .bytevec size => .ok ((size + CStruct.naviBytevec.sizeof) % 2 ^ 64)
  | .naviMacro, _ | .naviSpecial, _ | .naviPromise, _ | .naviProcedure, _ =>
    .ok CStruct.naviProcedure.sizeof
  | .naviThunk, _ | .naviBounce, _ => .ok CStruct.naviThunk.sizeof
  | .naviEscape, _ => .ok CStruct.naviEscape.sizeof
  | .naviEnvironment, _ => .ok CStruct.naviEnv.sizeof
  | .naviTrap, _ => .error .die
  | _, _ => .error .badWord

/-- `navi_free`, as far as the statistics are concerned. -/
def naviFree (obj : HeapObject) (stats : GcStats) : Except Fault GcStats := do
  let size ← objectSize obj
  return { stats with
    bytes := (stats.bytes + (2 ^ 64 - (CStruct.naviObject.sizeof + size) % 2 ^ 64)) % 2 ^ 64
    objects := (stats.objects + (2 ^ 64 - 1)) % 2 ^ 64 }

/-- `register_object` -/
def registerObject (σ : GcHeap) (obj : HeapObject) : GcHeap :=
  { σ with
    heap := obj :: σ.heap
    stats := { σ.stats with
      bytes := (σ.stats.bytes + obj.added) % 2 ^ 64
      objects := (σ.stats.objects + 1) % 2 ^ 64 }
    made := σ.made + 1 }

/-- What is done to an object on the list. -/
def modify (a : Addr) (f : HeapObject → Except Fault HeapObject) :
    List HeapObject → Except Fault (List HeapObject)
  | [] => .error .useAfterFree
  | obj :: objs =>
    if obj.addr = a then do
      let obj ← f obj
      return obj :: objs
    else do
      let objs ← modify a f objs
      return obj :: objs

/-- `obj.p->type = type` -/
def setType (σ : GcHeap) (a : Addr) (type : NaviType) : Except Fault GcHeap := do
  let heap ← modify a (fun obj => .ok { obj with type }) σ.heap
  return { σ with heap }

/-! ### Objects are made -/

variable (malloc : Malloc)

/-- Memory for an object, which begins with a `struct navi_object`. -/
def allocate (σ : GcHeap) (type : NaviType) (data : SizedData) (size : ℕ) :
    Except Fault (Addr × GcHeap) :=
  match malloc σ.made (σ.heap.map fun obj => (obj.addr, obj.added)) size with
  | none => .error .die
  | some (a, protect) =>
    if size < CStruct.naviObject.sizeof then .error .badWord
    else .ok (a, σ.registerObject ⟨a, type, protect, data, size⟩)

/-- `slab_make_object`, for a cache of objects of some size -/
def slabMakeObject (σ : GcHeap) (size : ℕ) (type : NaviType) : Except Fault (Addr × GcHeap) :=
  σ.allocate malloc type .fixed (naviSlabCacheCreate size).objSize

/-- `make_object` -/
def makeObject (σ : GcHeap) (type : NaviType) (data : SizedData) (size : ℕ) :
    Except Fault (Addr × GcHeap) :=
  σ.allocate malloc type data ((CStruct.naviObject.sizeof + size) % 2 ^ 64)

/-- An object whose type is changed after it has been made. -/
def retagged (type : NaviType) (made : Except Fault (Addr × GcHeap)) :
    Except Fault (Addr × GcHeap) := do
  let (a, σ) ← made
  let σ ← σ.setType a type
  return (a, σ)

/-- `navi_make_empty_pair` -/
def naviMakeEmptyPair (σ : GcHeap) : Except Fault (Addr × GcHeap) :=
  σ.slabMakeObject malloc (CStruct.naviObject.sizeof + CStruct.naviPair.sizeof) .naviPair

/-- `_navi_make_named_parameter` -/
def naviMakeNamedParameter (σ : GcHeap) : Except Fault (Addr × GcHeap) :=
  retagged .naviParameter (σ.naviMakeEmptyPair malloc)

/-- `navi_make_thunk` -/
def naviMakeThunk (σ : GcHeap) : Except Fault (Addr × GcHeap) :=
  σ.slabMakeObject malloc (CStruct.naviObject.sizeof + CStruct.naviThunk.sizeof) .naviThunk

/-- `navi_make_bounce` -/
def naviMakeBounce (σ : GcHeap) : Except Fault (Addr × GcHeap) :=
  retagged .naviBounce (σ.naviMakeThunk malloc)

/-- `navi_make_uninterned` -/
def naviMakeUninterned (σ : GcHeap) (str : CString) : Except Fault (Addr × GcHeap) :=
  σ.makeObject malloc .naviSymbol (.symbol str)
    (CStruct.naviSymbol.sizeof + str.bytes.length + 1)

/-- `navi_make_string` -/
def naviMakeString (u : Unknown) (σ : GcHeap) (capacity size length : ℕ) :
    Except Fault (Addr × GcHeap) := do
  match NaviScheme.naviMakeString u capacity size length with
  | .ok str => σ.makeObject malloc .naviString (.string str) CStruct.naviString.sizeof
  | .error _ => .error .badWord

/-- `navi_make_port` -/
def naviMakePort (σ : GcHeap) : Except Fault (Addr × GcHeap) :=
  σ.makeObject malloc .naviPort .fixed CStruct.naviPort.sizeof

/-- `navi_make_vector` -/
def naviMakeVector (σ : GcHeap) (size : ℕ) : Except Fault (Addr × GcHeap) :=
  σ.makeObject malloc .naviVector (.vector size) (CStruct.naviVector.sizeof + 8 * size)

/-- `values`, of so many values -/
def scmValues (σ : GcHeap) (size : ℕ) : Except Fault (Addr × GcHeap) :=
  retagged .naviValues (σ.naviMakeVector malloc size)

/-- `navi_make_caselambda` -/
def naviMakeCaselambda (σ : GcHeap) (size : ℕ) : Except Fault (Addr × GcHeap) :=
  retagged .naviCaselambda (σ.naviMakeVector malloc size)

/-- `navi_make_bytevec` -/
def naviMakeBytevec (σ : GcHeap) (size : ℕ) : Except Fault (Addr × GcHeap) :=
  σ.makeObject malloc .naviBytevec (.bytevec size) (CStruct.naviBytevec.sizeof + size + 1)

/-- `navi_make_procedure` -/
def naviMakeProcedure (σ : GcHeap) : Except Fault (Addr × GcHeap) :=
  σ.makeObject malloc .naviProcedure .fixed CStruct.naviProcedure.sizeof

/-- `navi_make_macro` -/
def naviMakeMacro (σ : GcHeap) : Except Fault (Addr × GcHeap) :=
  retagged .naviMacro (σ.naviMakeProcedure malloc)

/-- `navi_make_promise`, without the pair and the symbol that it makes before -/
def naviMakePromise (σ : GcHeap) : Except Fault (Addr × GcHeap) :=
  retagged .naviPromise (σ.naviMakeProcedure malloc)

/-- `proc_from_spec`, without the symbols that it makes; `navi_from_spec` calls it with three
types. -/
def procFromSpec (σ : GcHeap) (type : NaviType) : Except Fault (Addr × GcHeap) :=
  if type = .naviMacro ∨ type = .naviSpecial ∨ type = .naviProcedure then
    σ.makeObject malloc type .fixed CStruct.naviProcedure.sizeof
  else .error .die

/-- `navi_make_escape` -/
def naviMakeEscape (σ : GcHeap) : Except Fault (Addr × GcHeap) :=
  σ.makeObject malloc .naviEscape .fixed CStruct.naviEscape.sizeof

/-- `navi_capture_env` -/
def naviCaptureEnv (σ : GcHeap) : Except Fault (Addr × GcHeap) :=
  σ.makeObject malloc .naviEnvironment .fixed CStruct.naviEnv.sizeof

/-! ### Objects are changed -/

/-- What is done to a string. -/
def modifyString (σ : GcHeap) (a : Addr) (f : NaviString → Except StringStop NaviString) :
    Except Fault GcHeap := do
  let heap ← modify a (fun obj =>
    match obj.data with
    | .string str =>
      match f str with
      | .ok str => .ok { obj with data := .string str }
      | .error _ => .error .badWord
    | _ => .error .badWord) σ.heap
  return { σ with heap }

/-- `navi_string_grow_storage` -/
def naviStringGrowStorage (u : Unknown) (σ : GcHeap) (a : Addr) (need : ℤ) : Except Fault GcHeap :=
  σ.modifyString a (·.growStorage u need)

/-- What else is stored in a string: the size, the length, the text. -/
def setString (σ : GcHeap) (a : Addr) (size length : ℤ) (data : List UInt8) :
    Except Fault GcHeap :=
  σ.modifyString a fun str => .ok { str with size, length, data }

/-- `navi_gc_protect` and `navi_gc_release` -/
def setProtect (σ : GcHeap) (a : Addr) (protect : Bool) : Except Fault GcHeap := do
  let heap ← modify a (fun obj => .ok { obj with protect }) σ.heap
  return { σ with heap }

/-! ### Collections -/

/-- Whether an object stays, when some are marked. -/
def Survives (marked : Addr → Bool) (obj : HeapObject) : Bool :=
  marked obj.addr || obj.protect || obj.type = .naviSymbol

/-- `gc_sweep`, with what is freed. -/
def gcSweep (marked : Addr → Bool) :
    List HeapObject → GcStats → Except Fault (List Freed × List HeapObject × GcStats)
  | [], stats => .ok ([], [], stats)
  | obj :: objs, stats =>
    if marked obj.addr then do
      let (freed, heap, stats) ← gcSweep marked objs stats
      return (freed, obj :: heap, stats)
    else if obj.protect then do
      let (freed, heap, stats) ← gcSweep marked objs stats
      return (freed, obj :: heap, stats)
    else if obj.type = .naviSymbol then do
      let (freed, heap, stats) ← gcSweep marked objs stats
      return (freed, obj :: heap, stats)
    else do
      let after ← naviFree obj stats
      let (freed, heap, stats') ← gcSweep marked objs after
      return (⟨obj, stats, after⟩ :: freed, heap, stats')

/-- `do_gc_collect`, when some objects are marked. -/
def doGcCollect (marked : Addr → Bool) (σ : GcHeap) : Except Fault (List Freed × GcHeap) := do
  let (freed, heap, stats) ← gcSweep marked σ.heap σ.stats
  return (freed, { σ with heap, stats := { stats with threshold := stats.bytes * 4 % 2 ^ 64 } })

/-- `navi_gc_collect` -/
def naviGcCollect (marked : Addr → Bool) (σ : GcHeap) : Except Fault (List Freed × GcHeap) :=
  if σ.disabled = 0 then doGcCollect marked σ else .ok ([], σ)

/-- The threshold of `navi_gc_check`, which is set if it is unset. -/
def checkThreshold (stats : GcStats) : GcStats :=
  if stats.threshold = 0 then { stats with threshold := (stats.bytes + (2 ^ 64 - 1)) % 2 ^ 64 }
  else stats

/-- `navi_gc_check` -/
def naviGcCheck (marked : Addr → Bool) (σ : GcHeap) : Except Fault (List Freed × GcHeap) :=
  let σ := { σ with stats := checkThreshold σ.stats }
  if σ.stats.bytes < σ.stats.threshold then .ok ([], σ)
  else if σ.disabled ≠ 0 then .ok ([], σ)
  else doGcCollect marked σ

end GcHeap

/-! ### Runs -/

/-- A call of a function that makes, changes or frees objects. -/
inductive GcCall
  | naviMakeEmptyPair
  | naviMakeNamedParameter
  | naviMakeThunk
  | naviMakeBounce
  | naviMakeUninterned (str : CString)
  | naviMakeString (capacity size length : ℕ)
  | naviMakePort
  | naviMakeVector (size : ℕ)
  | scmValues (size : ℕ)
  | naviMakeCaselambda (size : ℕ)
  | naviMakeBytevec (size : ℕ)
  | naviMakeProcedure
  | naviMakeMacro
  | naviMakePromise
  | procFromSpec (type : NaviType)
  | naviMakeEscape
  | naviCaptureEnv
  | naviStringGrowStorage (a : Addr) (need : ℤ)
  | setString (a : Addr) (size length : ℤ) (data : List UInt8)
  | setProtect (a : Addr) (protect : Bool)
  | naviGcDisable
  | naviGcEnable
  | naviGcCollect (marked : Addr → Bool)
  | naviGcCheck (marked : Addr → Bool)

/-- A call that has returned: what has been freed, and the heap before and after. -/
structure GcStep where
  before : GcHeap
  call : GcCall
  freed : List Freed
  after : GcHeap

namespace GcCall

variable (malloc : Malloc) (u : Unknown)

/-- A call that frees nothing and returns an object. -/
def made (r : Except Fault (Addr × GcHeap)) : Except Fault (List Freed × GcHeap) :=
  r.map fun r => ([], r.2)

/-- A call that frees nothing. -/
def changed (r : Except Fault GcHeap) : Except Fault (List Freed × GcHeap) := r.map fun σ => ([], σ)

/-- What a call does, with the objects that it frees. -/
def run (σ : GcHeap) : GcCall → Except Fault (List Freed × GcHeap)
  | naviMakeEmptyPair => made (σ.naviMakeEmptyPair malloc)
  | naviMakeNamedParameter => made (σ.naviMakeNamedParameter malloc)
  | naviMakeThunk => made (σ.naviMakeThunk malloc)
  | naviMakeBounce => made (σ.naviMakeBounce malloc)
  | naviMakeUninterned str => made (σ.naviMakeUninterned malloc str)
  | naviMakeString capacity size length => made (σ.naviMakeString malloc u capacity size length)
  | naviMakePort => made (σ.naviMakePort malloc)
  | naviMakeVector size => made (σ.naviMakeVector malloc size)
  | scmValues size => made (σ.scmValues malloc size)
  | naviMakeCaselambda size => made (σ.naviMakeCaselambda malloc size)
  | naviMakeBytevec size => made (σ.naviMakeBytevec malloc size)
  | naviMakeProcedure => made (σ.naviMakeProcedure malloc)
  | naviMakeMacro => made (σ.naviMakeMacro malloc)
  | naviMakePromise => made (σ.naviMakePromise malloc)
  | procFromSpec type => made (σ.procFromSpec malloc type)
  | naviMakeEscape => made (σ.naviMakeEscape malloc)
  | naviCaptureEnv => made (σ.naviCaptureEnv malloc)
  | naviStringGrowStorage a need => changed (σ.naviStringGrowStorage u a need)
  | setString a size length data => changed (σ.setString a size length data)
  | setProtect a protect => changed (σ.setProtect a protect)
  | naviGcDisable => .ok ([], { σ with disabled := (σ.disabled + 1) % 2 ^ 32 })
  | naviGcEnable => .ok ([], { σ with disabled := σ.disabled - 1 })
  | naviGcCollect marked => σ.naviGcCollect marked
  | naviGcCheck marked => σ.naviGcCheck marked

/-- What a sequence of calls does. -/
def runAll (σ : GcHeap) : List GcCall → Except Fault (List GcStep)
  | [] => .ok []
  | c :: cs => do
    let (freed, σ') ← c.run malloc u σ
    let steps ← runAll σ' cs
    return ⟨σ, c, freed, σ'⟩ :: steps

end GcCall

/-! ### What the statistics should be -/

/-- **Freeing an object takes off what it has added**, and the counters do not wrap. -/
structure Freed.Exact (f : Freed) : Prop where
  bytes : f.after.bytes + f.obj.added = f.before.bytes
  objects : f.after.objects + 1 = f.before.objects

/-- **The statistics are those of the heap list**: the number of its objects, and the sum of what
they have added. -/
structure GcHeap.Accounted (σ : GcHeap) : Prop where
  objects : σ.stats.objects = σ.heap.length
  bytes : σ.stats.bytes = (σ.heap.map HeapObject.added).sum

/-- What is left on the heap list is accounted for, and so is what has been freed. -/
structure GcStep.Accounted (s : GcStep) : Prop where
  after : s.after.Accounted
  freed : ∀ f ∈ s.freed, f.Exact

/-- The objects that a call is going to free. -/
def GcCall.frees (σ : GcHeap) : GcCall → List HeapObject
  | naviGcCollect marked =>
    if σ.disabled = 0 then σ.heap.filter (!GcHeap.Survives marked ·) else []
  | naviGcCheck marked =>
    if (GcHeap.checkThreshold σ.stats).threshold ≤ σ.stats.bytes ∧ σ.disabled = 0 then
      σ.heap.filter (!GcHeap.Survives marked ·)
    else []
  | _ => []

/-- An object that is neither a bytevector nor a string with any capacity. -/
def HeapObject.Plain (obj : HeapObject) : Prop :=
  match obj.data with
  | .string str => str.capacity = 0
  | .bytevec _ => False
  | _ => True

/-- The call is going to free neither a bytevector nor a string with any capacity. -/
def GcStep.Spares (s : GcStep) : Prop := ∀ obj ∈ s.call.frees s.before, obj.Plain

/-! ### What objects have added -/

/-- What is added for an object, by its type and fields. -/
def addedFor : NaviType → SizedData → Option ℕ
  | .naviPair, .fixed | .naviParameter, .fixed => some 32
  | .naviThunk, .fixed | .naviBounce, .fixed => some 40
  | .naviPort, .fixed => some 104
  | .naviString, .string _ => some 40
  | .naviSymbol, .symbol str => some ((33 + str.bytes.length) % 2 ^ 64)
  | .naviVector, .vector n | .naviValues, .vector n | .naviCaselambda, .vector n =>
    some ((24 + 8 * n) % 2 ^ 64)
  | .naviBytevec, .bytevec n => some ((25 + n) % 2 ^ 64)
  | .naviMacro, .fixed | .naviSpecial, .fixed | .naviPromise, .fixed | .naviProcedure, .fixed =>
    some 72
  | .naviEscape, .fixed => some 240
  | .naviEnvironment, .fixed => some 32
  | _, _ => none

/-- **An object has added what is added for objects of its type**, and a header at least. -/
structure HeapObject.Registered (obj : HeapObject) : Prop where
  added : addedFor obj.type obj.data = some obj.added
  pos : 16 ≤ obj.added
  capacity : ∀ str, obj.data = .string str → -2 ^ 31 ≤ str.capacity ∧ str.capacity < 2 ^ 31

/-- The counters are values of `size_t`. -/
structure GcStats.Sized (stats : GcStats) : Prop where
  bytes : stats.bytes < 2 ^ 64
  objects : stats.objects < 2 ^ 64

/-- The invariant of all runs, whether or not the statistics are right. -/
structure GcHeap.Wf (σ : GcHeap) : Prop where
  registered : ∀ obj ∈ σ.heap, obj.Registered
  lt : (σ.heap.map HeapObject.added).sum < 2 ^ 64
  sized : σ.stats.Sized

section

variable {malloc : Malloc} {u : Unknown} {σ σ' : GcHeap} {obj : HeapObject} {a : Addr}
  {type type' : NaviType} {data : SizedData} {size : ℕ} {r : Except Fault (Addr × GcHeap)}

open GcHeap

/-- **What `object_size` says**: the amount that was added, for plain objects, and another one for
the rest. -/
theorem HeapObject.Registered.objectSize (h : obj.Registered) (htype : obj.type ≠ .naviSymbol) :
    ∃ size, objectSize obj = .ok size ∧
      ((CStruct.naviObject.sizeof + size) % 2 ^ 64 = obj.added ↔ obj.Plain) := by
  obtain ⟨a, type, protect, data, added⟩ := obj
  obtain ⟨hadded, -, hcapacity⟩ := h
  cases type <;> cases data <;>
    first | exact absurd rfl htype | obtain rfl := Option.some.inj hadded | cases hadded
  case naviString.string str =>
    obtain ⟨hlower, hupper⟩ := hcapacity str rfl
    refine ⟨_, rfl, ?_⟩
    simp only [CStruct.sizeof, sizeT, HeapObject.Plain]
    omega
  case naviBytevec.bytevec n =>
    refine ⟨_, rfl, ?_⟩
    simp only [CStruct.sizeof, HeapObject.Plain, iff_false]
    omega
  case naviVector.vector n | naviValues.vector n | naviCaselambda.vector n =>
    refine ⟨_, rfl, ?_⟩
    simp only [CStruct.sizeof, HeapObject.Plain, iff_true]
    omega
  all_goals exact ⟨_, rfl, by simp [CStruct.sizeof, HeapObject.Plain]⟩

/-- There are no more objects than bytes. -/
theorem length_le_added {objs : List HeapObject} (h : ∀ obj ∈ objs, obj.Registered) :
    16 * objs.length ≤ (objs.map HeapObject.added).sum := by
  induction objs with
  | nil => exact le_rfl
  | cons obj objs ih =>
    have hpos := (h obj List.mem_cons_self).pos
    have hrest := ih fun o ho => h o (List.mem_cons_of_mem _ ho)
    rw [List.length_cons, List.map_cons, List.sum_cons]
    omega

/-! ### Objects that are made -/

/-- A call that returns a new object of a type, if it returns. -/
def MakesObject (type : NaviType) (σ : GcHeap) (r : Except Fault (Addr × GcHeap)) : Prop :=
  ∀ a σ', r = .ok (a, σ') → ∃ obj : HeapObject, obj.addr = a ∧ obj.type = type ∧ obj.Registered ∧
    (σ.heap.map HeapObject.added).sum + obj.added < 2 ^ 64 ∧ σ'.heap = obj :: σ.heap ∧
    σ'.stats.bytes = (σ.stats.bytes + obj.added) % 2 ^ 64 ∧
    σ'.stats.objects = (σ.stats.objects + 1) % 2 ^ 64

theorem makesObject_allocate (hmalloc : malloc.Sound)
    (hreg : ∀ a protect, 16 ≤ size → HeapObject.Registered ⟨a, type, protect, data, size⟩) :
    MakesObject type σ (σ.allocate malloc type data size) := by
  intro a σ' hr
  rw [allocate] at hr
  split at hr
  · cases hr
  · rename_i b protect hblock
    split at hr
    · cases hr
    · rename_i hsize
      cases hr
      have hsum := (hmalloc _ _ _ _ _ hblock).2
      rw [List.map_map] at hsum
      exact ⟨_, rfl, rfl, hreg _ _ (Nat.le_of_not_lt hsize), hsum, rfl, rfl, rfl⟩

theorem makesObject_slab (hmalloc : malloc.Sound)
    (hadded : addedFor type .fixed = some (naviSlabCacheCreate size).objSize) :
    MakesObject type σ (σ.slabMakeObject malloc size type) :=
  makesObject_allocate hmalloc fun _ _ hsize => ⟨hadded, hsize, nofun⟩

theorem makesObject_makeObject (hmalloc : malloc.Sound)
    (hreg : ∀ a protect, 16 ≤ (16 + size) % 2 ^ 64 →
      HeapObject.Registered ⟨a, type, protect, data, (16 + size) % 2 ^ 64⟩) :
    MakesObject type σ (σ.makeObject malloc type data size) :=
  makesObject_allocate hmalloc hreg

/-- Its type may be changed to one of the same size. -/
theorem MakesObject.retagged (h : MakesObject type σ r)
    (hreg : ∀ obj : HeapObject, obj.Registered → obj.type = type →
      { obj with type := type' }.Registered) :
    MakesObject type' σ (retagged type' r) := by
  intro a σ' hr
  rw [GcHeap.retagged] at hr
  obtain ⟨⟨b, σ₁⟩, hmade, hr⟩ := bind_eq_ok hr
  obtain ⟨obj, rfl, htype, hobj, hsum, hheap, hbytes, hobjects⟩ := h b σ₁ hmade
  obtain ⟨σ₂, hset, hr⟩ := bind_eq_ok hr
  rw [setType, hheap, GcHeap.modify, if_pos rfl] at hset
  cases hset
  cases hr
  exact ⟨{ obj with type := type' }, rfl, rfl, hreg obj hobj htype, hsum, rfl, hbytes, hobjects⟩

/-! ### Objects that are changed -/

/-- A change keeps what an object has added, and that it has added the right amount. -/
def KeepsAdded (f : HeapObject → Except Fault HeapObject) : Prop :=
  ∀ obj obj', f obj = .ok obj' → obj'.added = obj.added ∧ (obj.Registered → obj'.Registered)

theorem KeepsAdded.modify {f : HeapObject → Except Fault HeapObject} (hf : KeepsAdded f)
    {objs objs' : List HeapObject} (h : modify a f objs = .ok objs') :
    objs'.map HeapObject.added = objs.map HeapObject.added ∧
      ((∀ obj ∈ objs, obj.Registered) → ∀ obj ∈ objs', obj.Registered) := by
  induction objs generalizing objs' with
  | nil => cases h
  | cons obj objs ih =>
    rw [GcHeap.modify] at h
    split at h
    · obtain ⟨obj', hobj, h⟩ := bind_eq_ok h
      cases h
      obtain ⟨hadded, hreg⟩ := hf obj obj' hobj
      refine ⟨by rw [List.map_cons, List.map_cons, hadded], fun hall => ?_⟩
      rw [List.forall_mem_cons] at hall ⊢
      exact ⟨hreg hall.1, hall.2⟩
    · obtain ⟨objs', hobjs, h⟩ := bind_eq_ok h
      cases h
      obtain ⟨hadded, hreg⟩ := ih hobjs
      refine ⟨by rw [List.map_cons, List.map_cons, hadded], fun hall => ?_⟩
      rw [List.forall_mem_cons] at hall ⊢
      exact ⟨hall.1, hreg hall.2⟩

/-- A call that changes an object, if it returns. -/
def ChangesObject (σ : GcHeap) (r : Except Fault GcHeap) : Prop :=
  ∀ σ', r = .ok σ' → σ'.stats = σ.stats ∧
    σ'.heap.map HeapObject.added = σ.heap.map HeapObject.added ∧
    ((∀ obj ∈ σ.heap, obj.Registered) → ∀ obj ∈ σ'.heap, obj.Registered)

theorem changesObject_setProtect (protect : Bool) :
    ChangesObject σ (σ.setProtect a protect) := by
  intro σ' hr
  obtain ⟨heap, hheap, hr⟩ := bind_eq_ok hr
  cases hr
  have hkeeps : KeepsAdded fun obj => .ok { obj with protect } := by
    rintro obj obj' ⟨⟩
    exact ⟨rfl, fun h => ⟨h.added, h.pos, h.capacity⟩⟩
  exact ⟨rfl, hkeeps.modify hheap⟩

theorem addedFor_string {str str' : NaviString} :
    addedFor type (.string str) = addedFor type (.string str') := by
  cases type <;> rfl

/-- The capacity of a string stays an `int32_t`. -/
theorem changesObject_modifyString {f : NaviString → Except StringStop NaviString}
    (hf : ∀ str str', f str = .ok str' → -2 ^ 31 ≤ str.capacity → str.capacity < 2 ^ 31 →
      -2 ^ 31 ≤ str'.capacity ∧ str'.capacity < 2 ^ 31) :
    ChangesObject σ (σ.modifyString a f) := by
  intro σ' hr
  obtain ⟨heap, hheap, hr⟩ := bind_eq_ok hr
  cases hr
  refine ⟨rfl, KeepsAdded.modify (fun obj obj' hobj => ?_) hheap⟩
  split at hobj
  · rename_i str hdata
    split at hobj
    · rename_i str' hstr
      cases hobj
      refine ⟨rfl, fun h => ⟨?_, h.pos, ?_⟩⟩
      · rw [← h.added, hdata]
        exact addedFor_string
      · rintro _ ⟨⟩
        obtain ⟨hlower, hupper⟩ := h.capacity str hdata
        exact hf str str' hstr hlower hupper
    · cases hobj
  · cases hobj

theorem int32_range (n : ℤ) : -2 ^ 31 ≤ int32 n ∧ int32 n < 2 ^ 31 := by
  have hlower := Int.le_bmod (x := n) (m := 2 ^ 32) (by decide)
  have hupper := Int.bmod_lt (x := n) (m := 2 ^ 32) (by decide)
  rw [int32]
  omega

theorem NaviString.growStorage_capacity {str str' : NaviString} {need : ℤ}
    (h : str.growStorage u need = .ok str') (hlower : -2 ^ 31 ≤ str.capacity)
    (hupper : str.capacity < 2 ^ 31) : -2 ^ 31 ≤ str'.capacity ∧ str'.capacity < 2 ^ 31 := by
  rw [growStorage] at h
  split at h
  · cases h
    exact ⟨hlower, hupper⟩
  · obtain ⟨data, -, h⟩ := bind_eq_ok h
    cases h
    exact int32_range _

/-! ### Collections -/

/-- What freeing an object takes off. -/
theorem naviFree_spec (h : obj.Registered) (htype : obj.type ≠ .naviSymbol) {stats : GcStats}
    (hstats : stats.Sized) :
    ∃ after, GcHeap.naviFree obj stats = .ok after ∧ after.Sized ∧
      (Freed.Exact ⟨obj, stats, after⟩ → obj.Plain) ∧
      (obj.Plain → obj.added ≤ stats.bytes → 0 < stats.objects →
        Freed.Exact ⟨obj, stats, after⟩) := by
  obtain ⟨size, hsize, hplain⟩ := h.objectSize htype
  obtain ⟨hlt, hlt'⟩ := hstats
  have hpos := h.pos
  refine ⟨_, by rw [GcHeap.naviFree, hsize]; rfl, ⟨Nat.mod_lt _ (Nat.two_pow_pos 64),
    Nat.mod_lt _ (Nat.two_pow_pos 64)⟩, ?_, ?_⟩
  · rintro ⟨hbytes, -⟩
    refine hplain.mp ?_
    simp only at hbytes
    omega
  · intro hobj hle hsome
    have hsame := hplain.mpr hobj
    constructor
    · simp only
      omega
    · simp only
      omega

/-- **A sweep frees what does not survive**, and is exact as long as this is plain. The objects that
have been passed are counted by `n` and `k`. -/
theorem gcSweep_spec (marked : Addr → Bool) {objs : List HeapObject}
    (hreg : ∀ obj ∈ objs, obj.Registered) {stats : GcStats} (hstats : stats.Sized) :
    ∃ freed stats', GcHeap.gcSweep marked objs stats =
        .ok (freed, objs.filter (Survives marked), stats') ∧ stats'.Sized ∧
      freed.map Freed.obj = objs.filter (!Survives marked ·) ∧
      (∀ f ∈ freed, f.Exact → f.obj.Plain) ∧
      ((∀ f ∈ freed, f.obj.Plain) → ∀ n k, stats.bytes = n + (objs.map HeapObject.added).sum →
        stats.objects = k + objs.length → (∀ f ∈ freed, f.Exact) ∧
          stats'.bytes = n + ((objs.filter (Survives marked)).map HeapObject.added).sum ∧
          stats'.objects = k + (objs.filter (Survives marked)).length) := by
  induction objs generalizing stats with
  | nil => exact ⟨[], stats, rfl, hstats, rfl, by simp, fun _ n k hn hk => ⟨by simp, hn, hk⟩⟩
  | cons obj objs ih =>
    have hreg' := fun o ho => hreg o (List.mem_cons_of_mem obj ho)
    cases hsurv : Survives marked obj with
    | true =>
      obtain ⟨freed, stats', hsweep, hsized, hfreed, hplain, hexact⟩ := ih hreg' hstats
      refine ⟨freed, stats', ?_, hsized, by simpa [hsurv] using hfreed, hplain,
        fun hall n k hn hk => ?_⟩
      · -- whatever keeps the object, the sweep goes on in the same way
        rw [List.filter_cons_of_pos hsurv, GcHeap.gcSweep, hsweep, ok_bind]
        split_ifs with hmark hprotect hsymbol
        · rfl
        · rfl
        · rfl
        · simp [Survives, hmark, hprotect, hsymbol] at hsurv
      · rw [List.map_cons, List.sum_cons] at hn
        rw [List.length_cons] at hk
        obtain ⟨hfreed, hbytes, hobjects⟩ :=
          hexact hall (n + obj.added) (k + 1) (by omega) (by omega)
        rw [List.filter_cons_of_pos hsurv, List.map_cons, List.sum_cons, List.length_cons]
        exact ⟨hfreed, by omega, by omega⟩
    | false =>
      have hdead := hsurv
      rw [Survives, Bool.or_eq_false_iff, Bool.or_eq_false_iff] at hdead
      obtain ⟨⟨hmark, hprotect⟩, hsymbol⟩ := hdead
      have htype : obj.type ≠ .naviSymbol := by simpa using hsymbol
      obtain ⟨after, hfree, hafter, hplain₁, hexact₁⟩ :=
        naviFree_spec (hreg obj List.mem_cons_self) htype hstats
      obtain ⟨freed, stats', hsweep, hsized, hfreed, hplain, hexact⟩ := ih hreg' hafter
      refine ⟨⟨obj, stats, after⟩ :: freed, stats', ?_, hsized, by simpa [hsurv] using hfreed,
        List.forall_mem_cons.mpr ⟨hplain₁, hplain⟩, fun hall n k hn hk => ?_⟩
      · rw [List.filter_cons_of_neg (by simp [hsurv]), GcHeap.gcSweep, if_neg (by simp [hmark]),
          if_neg (by simp [hprotect]), if_neg htype, hfree, ok_bind, hsweep]
        rfl
      · rw [List.forall_mem_cons] at hall
        rw [List.map_cons, List.sum_cons] at hn
        rw [List.length_cons] at hk
        have hfirst := hexact₁ hall.1 (by omega) (by omega)
        have hbytes₁ : after.bytes + obj.added = stats.bytes := hfirst.bytes
        have hobjects₁ : after.objects + 1 = stats.objects := hfirst.objects
        obtain ⟨hrest, hbytes, hobjects⟩ := hexact hall.2 n k (by omega) (by omega)
        rw [List.filter_cons_of_neg (by simp [hsurv])]
        exact ⟨List.forall_mem_cons.mpr ⟨hfirst, hrest⟩, hbytes, hobjects⟩

/-! ### One call -/

/-- What a call does with the heap and the statistics, if it returns. -/
def CallKeeps (σ : GcHeap) (frees : List HeapObject) (r : Except Fault (List Freed × GcHeap)) :
    Prop :=
  σ.Wf → ∀ freed σ', r = .ok (freed, σ') → σ'.Wf ∧ freed.map Freed.obj = frees ∧
    (∀ f ∈ freed, f.Exact → f.obj.Plain) ∧
    (σ.Accounted → (∀ obj ∈ frees, obj.Plain) → σ'.Accounted ∧ ∀ f ∈ freed, f.Exact)

theorem GcHeap.Wf.length_lt (h : σ.Wf) : σ.heap.length < 2 ^ 60 := by
  have hlen := length_le_added h.registered
  have hlt := h.lt
  omega

/-- Nothing is freed, and the heap list and its statistics stay. -/
theorem callKeeps_same (hheap : σ'.heap = σ.heap) (hbytes : σ'.stats.bytes = σ.stats.bytes)
    (hobjects : σ'.stats.objects = σ.stats.objects) : CallKeeps σ [] (.ok ([], σ')) := by
  rintro ⟨hreg, hlt, hsized⟩ freed σ₂ ⟨⟩
  refine ⟨⟨by rwa [hheap], by rwa [hheap], ⟨hbytes ▸ hsized.bytes, hobjects ▸ hsized.objects⟩⟩,
    rfl, by simp, fun h _ => ⟨⟨?_, ?_⟩, by simp⟩⟩
  · rw [hobjects, hheap, h.objects]
  · rw [hbytes, hheap, h.bytes]

theorem MakesObject.callKeeps (h : MakesObject type σ r) : CallKeeps σ [] (GcCall.made r) := by
  intro hwf freed σ' hr
  obtain ⟨⟨a, σ₁⟩, hmade, hpair⟩ := map_eq_ok hr
  cases hpair
  obtain ⟨obj, -, -, hobj, hsum, hheap, hbytes, hobjects⟩ := h a σ₁ hmade
  have hlen := hwf.length_lt
  refine ⟨⟨?_, ?_, ?_, ?_⟩, rfl, by simp, fun hacc _ => ⟨⟨?_, ?_⟩, by simp⟩⟩
  · rw [hheap]
    exact List.forall_mem_cons.mpr ⟨hobj, hwf.registered⟩
  · rw [hheap, List.map_cons, List.sum_cons]
    omega
  · rw [hbytes]
    exact Nat.mod_lt _ (by decide)
  · rw [hobjects]
    exact Nat.mod_lt _ (by decide)
  · rw [hheap, hobjects, List.length_cons, hacc.objects]
    omega
  · rw [hheap, hbytes, List.map_cons, List.sum_cons, hacc.bytes]
    omega

theorem ChangesObject.callKeeps {r : Except Fault GcHeap} (h : ChangesObject σ r) :
    CallKeeps σ [] (GcCall.changed r) := by
  intro hwf freed σ' hr
  obtain ⟨σ₁, hchanged, hpair⟩ := map_eq_ok hr
  cases hpair
  obtain ⟨hstats, hadded, hreg⟩ := h σ' hchanged
  have hlen : σ'.heap.length = σ.heap.length := by
    simpa using congrArg List.length hadded
  refine ⟨⟨hreg hwf.registered, by rw [hadded]; exact hwf.lt, hstats ▸ hwf.sized⟩, rfl, by simp,
    fun hacc _ => ⟨⟨?_, ?_⟩, by simp⟩⟩
  · rw [hstats, hlen, hacc.objects]
  · rw [hstats, hadded, hacc.bytes]

theorem callKeeps_doGcCollect (marked : Addr → Bool) :
    CallKeeps σ (σ.heap.filter (!Survives marked ·)) (GcHeap.doGcCollect marked σ) := by
  intro hwf freed σ' hr
  obtain ⟨freed₁, stats', hsweep, hsized, hfreed, hplain, hexact⟩ :=
    gcSweep_spec marked hwf.registered hwf.sized
  rw [GcHeap.doGcCollect, hsweep] at hr
  cases hr
  have hsub : ((σ.heap.filter (Survives marked)).map HeapObject.added).Sublist
      (σ.heap.map HeapObject.added) := List.filter_sublist.map _
  refine ⟨⟨fun obj hobj => hwf.registered obj (List.mem_of_mem_filter hobj), ?_,
    hsized.bytes, hsized.objects⟩, hfreed, hplain, fun hacc hall => ?_⟩
  · exact (hsub.sum_le_sum fun _ _ => Nat.zero_le _).trans_lt hwf.lt
  · have hall' : ∀ f ∈ freed, f.obj.Plain := by
      intro f hf
      refine hall f.obj ?_
      rw [← hfreed]
      exact List.mem_map_of_mem hf
    obtain ⟨hfreed, hbytes, hobjects⟩ :=
      hexact hall' 0 0 (by rw [hacc.bytes, zero_add]) (by rw [hacc.objects, zero_add])
    rw [zero_add] at hbytes hobjects
    exact ⟨⟨hobjects, hbytes⟩, hfreed⟩

theorem callKeeps_naviGcCollect (marked : Addr → Bool) :
    CallKeeps σ (GcCall.frees σ (.naviGcCollect marked)) (GcHeap.naviGcCollect marked σ) := by
  rw [GcCall.frees, GcHeap.naviGcCollect]
  split_ifs with hdisabled
  · exact callKeeps_doGcCollect marked
  · exact callKeeps_same rfl rfl rfl

theorem checkThreshold_bytes (stats : GcStats) : (checkThreshold stats).bytes = stats.bytes := by
  rw [checkThreshold]
  split <;> rfl

theorem checkThreshold_objects (stats : GcStats) :
    (checkThreshold stats).objects = stats.objects := by
  rw [checkThreshold]
  split <;> rfl

/-- A new threshold makes no difference. -/
theorem CallKeeps.of_threshold {frees : List HeapObject} {r : Except Fault (List Freed × GcHeap)}
    (h : CallKeeps { σ with stats := checkThreshold σ.stats } frees r) : CallKeeps σ frees r := by
  intro hwf freed σ' hr
  have hbytes := checkThreshold_bytes σ.stats
  have hobjects := checkThreshold_objects σ.stats
  have hwf' : GcHeap.Wf { σ with stats := checkThreshold σ.stats } :=
    ⟨hwf.registered, hwf.lt, ⟨hbytes ▸ hwf.sized.bytes, hobjects ▸ hwf.sized.objects⟩⟩
  obtain ⟨hwf₁, hfreed, hplain, hacc⟩ := h hwf' freed σ' hr
  exact ⟨hwf₁, hfreed, hplain, fun ha =>
    hacc ⟨hobjects.trans ha.objects, hbytes.trans ha.bytes⟩⟩

theorem callKeeps_naviGcCheck (marked : Addr → Bool) :
    CallKeeps σ (GcCall.frees σ (.naviGcCheck marked)) (GcHeap.naviGcCheck marked σ) := by
  refine CallKeeps.of_threshold ?_
  rw [GcCall.frees, GcHeap.naviGcCheck]
  simp only [checkThreshold_bytes]
  split_ifs with hfrees hlow hdisabled hlow hdisabled
  · exact absurd hfrees.1 (Nat.not_le_of_lt hlow)
  · exact absurd hfrees.2 hdisabled
  · exact callKeeps_doGcCollect marked
  · exact callKeeps_same rfl rfl rfl
  · exact callKeeps_same rfl rfl rfl
  · exact absurd ⟨Nat.le_of_not_lt hlow, not_not.mp hdisabled⟩ hfrees

/-! ### What each function adds -/

section Makes

variable (hmalloc : malloc.Sound)

include hmalloc

theorem makesObject_naviMakeEmptyPair :
    MakesObject .naviPair σ (σ.naviMakeEmptyPair malloc) :=
  makesObject_slab hmalloc rfl

theorem makesObject_naviMakeThunk : MakesObject .naviThunk σ (σ.naviMakeThunk malloc) :=
  makesObject_slab hmalloc rfl

theorem makesObject_naviMakeUninterned (str : CString) :
    MakesObject .naviSymbol σ (σ.naviMakeUninterned malloc str) := by
  refine makesObject_makeObject hmalloc fun a protect hsize => ⟨?_, hsize, nofun⟩
  simp only [addedFor, CStruct.sizeof]
  congr 2
  omega

theorem makesObject_naviMakeString (capacity size length : ℕ) :
    MakesObject .naviString σ (σ.naviMakeString malloc u capacity size length) := by
  intro a σ' hr
  rw [GcHeap.naviMakeString] at hr
  split at hr
  · rename_i str hstr
    refine makesObject_makeObject hmalloc (fun a protect hsize => ⟨rfl, hsize, ?_⟩) a σ' hr
    rintro _ ⟨⟩
    obtain ⟨data, -, hstr⟩ := bind_eq_ok hstr
    obtain ⟨data', -, hstr⟩ := bind_eq_ok hstr
    obtain rfl := Except.ok.inj hstr
    dsimp only
    exact int32_range capacity
  · cases hr

theorem makesObject_naviMakeVector (size : ℕ) :
    MakesObject .naviVector σ (σ.naviMakeVector malloc size) := by
  refine makesObject_makeObject hmalloc fun a protect hsize => ⟨?_, hsize, nofun⟩
  simp only [addedFor, CStruct.sizeof]
  congr 2
  omega

theorem makesObject_naviMakeBytevec (size : ℕ) :
    MakesObject .naviBytevec σ (σ.naviMakeBytevec malloc size) := by
  refine makesObject_makeObject hmalloc fun a protect hsize => ⟨?_, hsize, nofun⟩
  simp only [addedFor, CStruct.sizeof]
  congr 2
  omega

/-- An object of a type whose objects are all of one size. -/
theorem makesObject_fixed (hadded : addedFor type .fixed = some ((16 + size) % 2 ^ 64)) :
    MakesObject type σ (σ.makeObject malloc type .fixed size) :=
  makesObject_makeObject hmalloc fun _ _ hsize => ⟨hadded, hsize, nofun⟩

theorem makesObject_naviMakeProcedure :
    MakesObject .naviProcedure σ (σ.naviMakeProcedure malloc) := makesObject_fixed hmalloc rfl

theorem makesObject_procFromSpec : MakesObject type σ (σ.procFromSpec malloc type) := by
  rw [GcHeap.procFromSpec]
  split_ifs with htype
  · obtain rfl | rfl | rfl := htype
    · exact makesObject_fixed hmalloc rfl
    · exact makesObject_fixed hmalloc rfl
    · exact makesObject_fixed hmalloc rfl
  · exact nofun

end Makes

/-- Objects of the new type are of the same size. -/
theorem HeapObject.Registered.retag (h : obj.Registered) (htype : obj.type = type)
    (hsame : ∀ data, (addedFor type data).isSome → addedFor type' data = addedFor type data) :
    HeapObject.Registered { obj with type := type' } := by
  refine ⟨?_, h.pos, h.capacity⟩
  subst htype
  exact (hsame obj.data (by rw [h.added]; rfl)).trans h.added

/-- Its type may be changed to one whose objects are of the same size. -/
theorem MakesObject.retaggedAs (h : MakesObject type σ r)
    (hsame : ∀ data, (addedFor type data).isSome → addedFor type' data = addedFor type data) :
    MakesObject type' σ (GcHeap.retagged type' r) :=
  h.retagged fun _ hobj htype => hobj.retag htype hsame

/-- **Each call** keeps the invariant, and keeps the statistics right if it frees only plain
objects. -/
theorem GcCall.run_spec (hmalloc : malloc.Sound) (c : GcCall) :
    CallKeeps σ (c.frees σ) (c.run malloc u σ) := by
  cases c with
  | naviMakeEmptyPair => exact (makesObject_naviMakeEmptyPair hmalloc).callKeeps
  | naviMakeNamedParameter =>
    refine MakesObject.callKeeps ((makesObject_naviMakeEmptyPair hmalloc).retaggedAs fun data => ?_)
    cases data <;> simp [addedFor]
  | naviMakeThunk => exact (makesObject_naviMakeThunk hmalloc).callKeeps
  | naviMakeBounce =>
    refine MakesObject.callKeeps ((makesObject_naviMakeThunk hmalloc).retaggedAs fun data => ?_)
    cases data <;> simp [addedFor]
  | naviMakeUninterned str => exact (makesObject_naviMakeUninterned hmalloc str).callKeeps
  | naviMakeString capacity size length =>
    exact (makesObject_naviMakeString hmalloc capacity size length).callKeeps
  | naviMakePort => exact MakesObject.callKeeps (makesObject_fixed hmalloc rfl)
  | naviMakeVector size => exact (makesObject_naviMakeVector hmalloc size).callKeeps
  | scmValues size =>
    refine MakesObject.callKeeps
      ((makesObject_naviMakeVector hmalloc size).retaggedAs fun data => ?_)
    cases data <;> simp [addedFor]
  | naviMakeCaselambda size =>
    refine MakesObject.callKeeps
      ((makesObject_naviMakeVector hmalloc size).retaggedAs fun data => ?_)
    cases data <;> simp [addedFor]
  | naviMakeBytevec size => exact (makesObject_naviMakeBytevec hmalloc size).callKeeps
  | naviMakeProcedure => exact (makesObject_naviMakeProcedure hmalloc).callKeeps
  | naviMakeMacro =>
    refine MakesObject.callKeeps ((makesObject_naviMakeProcedure hmalloc).retaggedAs fun data => ?_)
    cases data <;> simp [addedFor]
  | naviMakePromise =>
    refine MakesObject.callKeeps ((makesObject_naviMakeProcedure hmalloc).retaggedAs fun data => ?_)
    cases data <;> simp [addedFor]
  | procFromSpec type => exact (makesObject_procFromSpec hmalloc).callKeeps
  | naviMakeEscape => exact MakesObject.callKeeps (makesObject_fixed hmalloc rfl)
  | naviCaptureEnv => exact MakesObject.callKeeps (makesObject_fixed hmalloc rfl)
  | naviStringGrowStorage a need =>
    exact (changesObject_modifyString fun _ _ => NaviString.growStorage_capacity).callKeeps
  | setString a size length data =>
    refine ChangesObject.callKeeps (changesObject_modifyString ?_)
    rintro str _ ⟨⟩ hlower hupper
    exact ⟨hlower, hupper⟩
  | setProtect a protect => exact (changesObject_setProtect protect).callKeeps
  | naviGcDisable => exact callKeeps_same rfl rfl rfl
  | naviGcEnable => exact callKeeps_same rfl rfl rfl
  | naviGcCollect marked => exact callKeeps_naviGcCollect marked
  | naviGcCheck marked => exact callKeeps_naviGcCheck marked

/-! ### Runs -/

theorem GcHeap.wf_start : start.Wf :=
  ⟨by simp [start], by simp [start], by simp [start], by simp [start]⟩

theorem GcHeap.accounted_start : start.Accounted := ⟨rfl, rfl⟩

/-- **A call is accounted for if and only if it spares** what is not plain. -/
theorem GcStep.accounted_iff (hmalloc : malloc.Sound) {c : GcCall} {freed : List Freed}
    (hwf : σ.Wf) (hacc : σ.Accounted) (hrun : c.run malloc u σ = .ok (freed, σ')) :
    GcStep.Accounted ⟨σ, c, freed, σ'⟩ ↔ GcStep.Spares ⟨σ, c, freed, σ'⟩ := by
  obtain ⟨-, hfreed, hplain, hexact⟩ := c.run_spec hmalloc hwf freed σ' hrun
  constructor
  · rintro ⟨-, hall⟩ obj hobj
    rw [← hfreed] at hobj
    obtain ⟨f, hf, rfl⟩ := List.mem_map.mp hobj
    exact hplain f hf (hall f hf)
  · intro hspares
    obtain ⟨hafter, hall⟩ := hexact hacc hspares
    exact ⟨hafter, hall⟩

/-- From a heap that is accounted for. -/
theorem GcCall.runAll_accounted_iff (hmalloc : malloc.Sound) {cs : List GcCall}
    {steps : List GcStep} (hwf : σ.Wf) (hacc : σ.Accounted)
    (hrun : GcCall.runAll malloc u σ cs = .ok steps) :
    (∀ s ∈ steps, s.Accounted) ↔ ∀ s ∈ steps, s.Spares := by
  induction cs generalizing σ steps with
  | nil =>
    cases hrun
    exact ⟨fun _ => by simp, fun _ => by simp⟩
  | cons c cs ih =>
    obtain ⟨⟨freed, σ'⟩, hcall, hrun⟩ := bind_eq_ok hrun
    obtain ⟨rest, hrest, hrun⟩ := bind_eq_ok hrun
    cases hrun
    have hwf' := (c.run_spec hmalloc hwf freed σ' hcall).1
    have hstep := GcStep.accounted_iff hmalloc hwf hacc hcall
    rw [List.forall_mem_cons, List.forall_mem_cons, hstep]
    refine and_congr_right fun hspares => ih hwf' (hstep.mpr hspares).after hrest

/-- **The statistics of the collector.** In a run from the beginning, the statistics are always
those of the heap list, and freeing an object always takes off what it has added, if and only if
the collections of the run free neither bytevectors nor strings with any capacity. -/
theorem gcStats_iff (hmalloc : malloc.Sound) {cs : List GcCall} {steps : List GcStep}
    (hrun : GcCall.runAll malloc u .start cs = .ok steps) :
    (∀ s ∈ steps, s.Accounted) ↔ ∀ s ∈ steps, s.Spares :=
  GcCall.runAll_accounted_iff hmalloc wf_start accounted_start hrun

/-! ### The collector -/

/-- The objects of a store, on its heap list, are `objs`. -/
structure Store.Lists (st : Store) (objs : List HeapObject) : Prop where
  list : st.HeapList (objs.map HeapObject.addr)
  cells : ∀ obj ∈ objs, ∃ c, st.cells obj.addr = some c ∧ c.type = obj.type ∧
    c.protect = obj.protect

open Classical in
/-- **A collection of the collector** is one that marks what can be reached: it frees the same
objects and leaves the same heap list. -/
theorem doGcCollect_lists (L : ScopeLayout) {st : Store} (hlists : st.Lists σ.heap) (hwf : σ.Wf)
    (hsound : st.Sound) (hclear : ∀ a c, st.cells a = some c → c.mark = false)
    (hacyc : ∀ a, st.Reachable a → ¬ Relation.TransGen st.Follows a a) :
    ∃ n st' freed σ', (∀ m ≥ n, NaviScheme.doGcCollect L m st =
        .ok (st', freed.map fun f => f.obj.addr)) ∧
      GcHeap.doGcCollect (fun a => decide (st.Reachable a)) σ = .ok (freed, σ') ∧
      st'.Lists σ'.heap := by
  obtain ⟨n, st', hcollect, -, hlist, hcells⟩ := doGcCollect_spec L hlists.list hsound hclear hacyc
  obtain ⟨freed, stats', hsweep, -, hfreed, -⟩ :=
    gcSweep_spec (fun a => decide (st.Reachable a)) hwf.registered hwf.sized
  have hkept : ∀ obj ∈ σ.heap,
      Survives (fun a => decide (st.Reachable a)) obj = decide (st.Kept obj.addr) := by
    intro obj hobj
    obtain ⟨c, hc, htype, hprotect⟩ := hlists.cells obj hobj
    rw [Bool.eq_iff_iff]
    simp [Survives, Store.Kept, hc, htype, hprotect, or_assoc]
  have hheap : σ.heap.filter (Survives fun a => decide (st.Reachable a)) =
      σ.heap.filter fun obj => decide (st.Kept obj.addr) :=
    List.filter_congr hkept
  have hgone : σ.heap.filter (!Survives (fun a => decide (st.Reachable a)) ·) =
      σ.heap.filter fun obj => decide (¬ st.Kept obj.addr) :=
    List.filter_congr fun obj hobj => by rw [hkept obj hobj, decide_not]
  have hlist' : st'.HeapList ((σ.heap.filter
      (Survives fun a => decide (st.Reachable a))).map HeapObject.addr) := by
    rw [List.filter_map] at hlist
    rwa [hheap]
  refine ⟨n, st', freed, _, fun m hm => ?_, by rw [GcHeap.doGcCollect, hsweep]; rfl, hlist',
    fun obj hobj => ?_⟩
  · have haddrs : freed.map (fun f => f.obj.addr) = (freed.map Freed.obj).map HeapObject.addr := by
      rw [List.map_map]
      rfl
    rw [hcollect m hm, List.filter_map, haddrs, hfreed, hgone]
    rfl
  · obtain ⟨c, hc, htype, hprotect⟩ := hlists.cells obj (List.mem_of_mem_filter hobj)
    obtain ⟨c', hc'⟩ := Option.isSome_iff_exists.mp
      ((hlist'.mem obj.addr).mpr (List.mem_map_of_mem hobj))
    obtain ⟨-, c₀, hc₀, hsame⟩ := hcells obj.addr c' hc'
    obtain rfl := Option.some.inj (hc.symm.trans hc₀)
    exact ⟨c', hc', by rw [hsame, htype], by rw [hsame, hprotect]⟩

end

/-! ### Two runs -/

/-- Memory above all objects, up to `2 ^ 47` bytes of it. -/
def mallocTop : Malloc := fun n blocks size =>
  if (blocks.map Prod.snd).sum + size < 2 ^ 47 then some (heapTop n (blocks.map Prod.fst), false)
  else none

theorem mallocTop_sound : mallocTop.Sound := by
  intro n blocks size a protect h
  rw [mallocTop] at h
  split at h
  · rename_i hlt
    cases h
    exact ⟨heapTop_not_mem _ _, hlt.trans (by decide)⟩
  · cases h

/-- Memory that is full of zeros. -/
def clearedMemory : Unknown := ⟨fun _ => 0, fun _ => 0, fun _ _ => 0, fun _ => 0⟩

/-- Nothing is marked. -/
def nothing : Addr → Bool := fun _ => false

/-- Values, a bounce, a symbol and a string without capacity; all but the symbol are freed. -/
def plainCalls : List GcCall :=
  [.scmValues 3, .naviMakeBounce, .naviMakeUninterned (.ofBytes [103, 48]), .naviMakeString 0 0 0,
    .naviGcCollect nothing]

theorem gcStats_iff_plain : ∃ steps,
    GcCall.runAll mallocTop clearedMemory .start plainCalls = .ok steps ∧
    steps.map (fun s => (s.after.stats.objects, s.after.stats.bytes)) =
      [(1, 48), (2, 88), (3, 123), (4, 163), (1, 35)] ∧
    ((∀ s ∈ steps, s.Accounted) ↔ ∀ s ∈ steps, s.Spares) :=
  ⟨_, rfl, by decide, gcStats_iff mallocTop_sound
    (show GcCall.runAll mallocTop clearedMemory .start plainCalls = _ from rfl)⟩

/-- **The counter wraps**: a string is made and freed, and there are `2 ^ 64 - 5` bytes of no
object. -/
theorem not_gcStats : ∃ steps, GcCall.runAll mallocTop clearedMemory .start
      [.naviMakeString 5 5 5, .naviGcCollect nothing] = .ok steps ∧
    steps.map (fun s => (s.after.heap.length, s.after.stats.objects, s.after.stats.bytes)) =
      [(1, 1, 40), (0, 0, 2 ^ 64 - 5)] ∧
    ¬ ∀ s ∈ steps, s.Accounted := by
  refine ⟨_, rfl, by decide, fun h => ?_⟩
  have hbytes := (h _ (List.mem_cons_of_mem _ List.mem_cons_self)).after.bytes
  exact absurd hbytes (by decide)

end NaviScheme
