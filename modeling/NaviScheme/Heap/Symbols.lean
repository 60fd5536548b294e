import NaviScheme.Arithmetic.Word
import NaviScheme.Lib.Links
import NaviScheme.Reader.Scan

/-!
# The symbol table

`navi_make_symbol` looks its name up in one of 64 lists of symbols, and adds a symbol where there is
none of that name; `gensym` and `make-parameter` make symbols that are in no list. The functions of
`heap.c` are here as far as symbols are concerned, on the pointers of the lists (`SymbolHeap`), with
the collector, which may free any object that is no symbol. Where new objects are is up to `malloc`,
which hands out memory again once it has been freed.

The invariant of runs is `Interned`, and `symbols_stable` is what the rest of the program relies on:
a symbol stands for its name.
-/

namespace NaviScheme

/-- A C string, without the zero at its end. -/
@[ext] structure CString where
  bytes : List UInt8
  ne_zero : ∀ b ∈ bytes, b ≠ 0

instance : DecidableEq CString := fun s t =>
  decidable_of_iff (s.bytes = t.bytes) CString.ext_iff.symm

/-- The C string at the start of a block. -/
def CString.ofBytes (bs : List UInt8) : CString where
  bytes := bs.takeWhile (· ≠ 0)
  ne_zero b hb := by simpa using List.mem_takeWhile_imp hb

/-- The objects in memory, as far as symbols are concerned. -/
structure SymbolHeap where
  /-- `heap` -/
  heap : List Addr
  /-- `type`, of the objects -/
  type : Addr → NaviType
  /-- `data`, of the symbols -/
  data : Addr → CString
  /-- `symbol_table`, and `link` of the symbols -/
  table : Links (Fin 64) Addr
  /-- The number of objects that have been made. -/
  made : ℕ
  /-- `count`, in `gensym` -/
  gensyms : ℕ
  /-- `count`, in `_navi_make_parameter` -/
  params : ℕ

/-- `symbol_hash`. A `char` has a sign. -/
def symbolHash (symbol : CString) : NaviWord :=
  symbol.bytes.foldl (fun hash c => ((hash <<< 5) + hash) ^^^ BitVec.ofInt 64 (toChar c.toNat)) 5381

/-- `hashcode % 64` -/
def hashBucket (hashcode : ℕ) : Fin 64 := Fin.ofNat 64 hashcode

/-- The list of a name. -/
def symBucket (hashcode : NaviWord) : Fin 64 := hashBucket hashcode.toNat

namespace SymbolHeap

/-- The memory in the beginning. -/
def start : SymbolHeap := ⟨[], fun _ => .naviTrap, fun _ => ⟨[], nofun⟩, .empty, 0, 0, 0⟩

/-- `symbol_lookup`. There are no more symbols in a list than objects. -/
def symbolLookup (σ : SymbolHeap) (str : CString) (hashcode : NaviWord) : Option (Option Addr) :=
  σ.table.find (fun a => σ.data a = str) (σ.heap.length + 1) (.head (symBucket hashcode))

variable (malloc : ℕ → List Addr → Addr)

/-- Where the next object is. -/
def next (σ : SymbolHeap) : Addr := malloc σ.made σ.heap

/-- `make_object`, and `slab_make_object` -/
def makeObject (σ : SymbolHeap) (type : NaviType) : SymbolHeap :=
  { σ with
    heap := σ.next malloc :: σ.heap
    type := Function.update σ.type (σ.next malloc) type
    made := σ.made + 1 }

/-- `navi_make_uninterned`; the symbol is `σ.next malloc`. -/
def naviMakeUninterned (σ : SymbolHeap) (str : CString) : SymbolHeap :=
  { σ.makeObject malloc .naviSymbol with
    data := Function.update σ.data (σ.next malloc) str
    table := { σ.table with prev := Function.update σ.table.prev (σ.next malloc) none } }

/-- `new_symbol` -/
def newSymbol (σ : SymbolHeap) (str : CString) (hashcode : NaviWord) : SymbolHeap :=
  { σ.naviMakeUninterned malloc str with
    table := (σ.naviMakeUninterned malloc str).table.insertHead (symBucket hashcode)
      (σ.next malloc) }

/-- `navi_make_symbol` -/
def naviMakeSymbol (σ : SymbolHeap) (str : CString) : Option (Addr × SymbolHeap) := do
  match ← σ.symbolLookup str (symbolHash str) with
  | some a => return (a, σ)
  | none => return (σ.next malloc, σ.newSymbol malloc str (symbolHash str))

/-- `snprintf(buf, 64, "g%u", count)` and the like. -/
def numbered (text : List UInt8) (count : ℕ) : CString :=
  .ofBytes ((text ++ digitBytes 10 (count % 2 ^ 32)).take 63)

/-- `gensym`; the symbol is `σ.next malloc`. -/
def gensym (σ : SymbolHeap) : SymbolHeap :=
  { σ.naviMakeUninterned malloc (numbered (cstr "g") σ.gensyms) with gensyms := σ.gensyms + 1 }

/-- `_navi_make_parameter`; its symbol is `σ.next malloc`. -/
def naviMakeParameter (σ : SymbolHeap) : SymbolHeap :=
  let symbol := σ.naviMakeUninterned malloc (numbered (cstr "param") σ.params)
  { symbol.makeObject malloc .naviParameter with params := σ.params + 1 }

/-- `navi_free`, as far as symbols are concerned. Pairs and thunks go back to their slabs. -/
def naviFree (σ : SymbolHeap) (a : Addr) : Option SymbolHeap :=
  match σ.type a with
  | .naviPair | .naviParameter | .naviThunk | .naviBounce => some σ
  | .naviSymbol => do
    let table ← if σ.table.prev a ≠ none then σ.table.remove a else some σ.table
    return { σ with table, type := Function.update σ.type a .naviTrap }
  | _ => some { σ with type := Function.update σ.type a .naviTrap }

/-- `gc_sweep`, of the objects from one on. -/
def gcSweep (marked protect : Addr → Bool) : List Addr → SymbolHeap → Option SymbolHeap
  | [], σ => some σ
  | a :: as, σ =>
    if marked a then gcSweep marked protect as σ
    else if protect a then gcSweep marked protect as σ
    else if σ.type a = .naviSymbol then gcSweep marked protect as σ
    else do
      let σ ← { σ with heap := σ.heap.erase a }.naviFree a
      gcSweep marked protect as σ

end SymbolHeap

/-! ### Calls -/

/-- A call that makes or frees objects. -/
inductive SymbolCall
  | makeSymbol (str : CString)
  | makeUninterned (str : CString)
  | gensym
  | makeParameter
  /-- Another object is made. -/
  | makeOther (type : NaviType)
  /-- A collection; what is marked depends on the scopes. -/
  | collect (marked protect : Addr → Bool)

/-- The symbol that it returns. -/
inductive SymbolReply
  | interned (str : CString) (a : Addr)
  | uninterned (a : Addr)
  | none
  deriving DecidableEq

namespace SymbolCall

variable (malloc : ℕ → List Addr → Addr)

/-- What a call does. -/
def run (σ : SymbolHeap) : SymbolCall → Option (SymbolReply × SymbolHeap)
  | makeSymbol str => (σ.naviMakeSymbol malloc str).map fun r => (.interned str r.1, r.2)
  | makeUninterned str => some (.uninterned (σ.next malloc), σ.naviMakeUninterned malloc str)
  | gensym => some (.uninterned (σ.next malloc), σ.gensym malloc)
  | makeParameter => some (.uninterned (σ.next malloc), σ.naviMakeParameter malloc)
  | makeOther type => some (.none, σ.makeObject malloc type)
  | collect marked protect => (SymbolHeap.gcSweep marked protect σ.heap σ).map fun σ => (.none, σ)

/-- What a sequence of calls does. -/
def runAll (σ : SymbolHeap) : List SymbolCall → Option (List SymbolReply × SymbolHeap)
  | [] => some ([], σ)
  | c :: cs => do
    let (r, σ) ← c.run malloc σ
    let (rs, σ) ← runAll σ cs
    return (r :: rs, σ)

end SymbolCall

/-! ### The invariant -/

/-- The lists of the table are `T`, and the symbols returned so far are the ones to be returned. -/
structure Interned (σ : SymbolHeap) (T : Fin 64 → List Addr) (rs : List SymbolReply) : Prop where
  links : σ.table.Represents T
  symbol : ∀ i, ∀ a ∈ T i, a ∈ σ.heap ∧ σ.type a = .naviSymbol
  bucket : ∀ i, ∀ a ∈ T i, symBucket (symbolHash (σ.data a)) = i
  unique : ∀ i, ∀ a ∈ T i, ∀ b ∈ T i, σ.data a = σ.data b → a = b
  interned : ∀ {str a}, .interned str a ∈ rs →
    a ∈ T (symBucket (symbolHash str)) ∧ σ.data a = str
  uninterned : ∀ {a}, .uninterned a ∈ rs →
    (a ∈ σ.heap ∧ σ.type a = .naviSymbol) ∧ ∀ i, a ∉ T i

/-- Nothing happens to symbols. -/
structure SymbolHeap.Keeps (σ σ' : SymbolHeap) : Prop where
  data : σ'.data = σ.data
  table : σ'.table = σ.table
  symbol : ∀ a, a ∈ σ.heap ∧ σ.type a = .naviSymbol → a ∈ σ'.heap ∧ σ'.type a = .naviSymbol

section

variable {malloc : ℕ → List Addr → Addr} {σ σ' σ'' : SymbolHeap} {T : Fin 64 → List Addr}
  {rs rs' : List SymbolReply} {a b : Addr} {str : CString} {type : NaviType}

theorem interned_start : Interned .start (fun _ => []) [] where
  links := Links.represents_empty
  symbol _ _ h := nomatch h
  bucket _ _ h := nomatch h
  unique _ _ h := nomatch h
  interned h := nomatch h
  uninterned h := nomatch h

namespace SymbolHeap.Keeps

theorem refl (σ : SymbolHeap) : σ.Keeps σ := ⟨rfl, rfl, fun _ h => h⟩

theorem trans (h : σ.Keeps σ') (h' : σ'.Keeps σ'') : σ.Keeps σ'' :=
  ⟨h'.data.trans h.data, h'.table.trans h.table, fun a ha => h'.symbol a (h.symbol a ha)⟩

/-- Where a new object is, there is no symbol. -/
theorem makeObject (hmalloc : ∀ n l, malloc n l ∉ l) (σ : SymbolHeap) (type : NaviType) :
    σ.Keeps (σ.makeObject malloc type) := by
  refine ⟨rfl, rfl, fun a ha => ⟨List.mem_cons_of_mem _ ha.1, ?_⟩⟩
  refine (Function.update_of_ne ?_ _ _).trans ha.2
  rintro rfl
  exact hmalloc _ _ ha.1

theorem naviFree (h : σ.type a ≠ .naviSymbol) :
    ∃ σ', { σ with heap := σ.heap.erase a }.naviFree a = some σ' ∧ σ.Keeps σ' := by
  have hheap : ∀ b, b ∈ σ.heap ∧ σ.type b = .naviSymbol → b ∈ σ.heap.erase a ∧ b ≠ a := by
    rintro b ⟨hb, htype⟩
    have hne : b ≠ a := fun heq => h (heq ▸ htype)
    exact ⟨(List.mem_erase_of_ne hne).mpr hb, hne⟩
  have hslab : σ.Keeps { σ with heap := σ.heap.erase a } :=
    ⟨rfl, rfl, fun b hb => ⟨(hheap b hb).1, hb.2⟩⟩
  have htrap : σ.Keeps { σ with
      heap := σ.heap.erase a
      type := Function.update σ.type a .naviTrap } :=
    ⟨rfl, rfl, fun b hb => ⟨(hheap b hb).1,
      (Function.update_of_ne (hheap b hb).2 _ _).trans hb.2⟩⟩
  rw [SymbolHeap.naviFree]
  split
  iterate 4 exact ⟨_, rfl, hslab⟩
  · exact absurd ‹_› h
  · exact ⟨_, rfl, htrap⟩

/-- A collection frees no symbol. -/
theorem gcSweep (marked protect : Addr → Bool) (as : List Addr) (σ : SymbolHeap) :
    ∃ σ', SymbolHeap.gcSweep marked protect as σ = some σ' ∧ σ.Keeps σ' := by
  induction as generalizing σ with
  | nil => exact ⟨σ, rfl, refl σ⟩
  | cons a as ih =>
    rw [SymbolHeap.gcSweep]
    split
    · exact ih σ
    split
    · exact ih σ
    split
    · exact ih σ
    rename_i htype
    obtain ⟨σ₁, hfree, hkeeps⟩ := naviFree htype
    obtain ⟨σ₂, hsweep, hkeeps'⟩ := ih σ₁
    exact ⟨σ₂, by rw [hfree]; exact hsweep, hkeeps.trans hkeeps'⟩

end SymbolHeap.Keeps

namespace Interned

theorem keeps (h : Interned σ T rs) (hkeeps : σ.Keeps σ') : Interned σ' T rs where
  links := hkeeps.table ▸ h.links
  symbol i a ha := hkeeps.symbol a (h.symbol i a ha)
  bucket := hkeeps.data ▸ h.bucket
  unique := hkeeps.data ▸ h.unique
  interned := hkeeps.data ▸ h.interned
  uninterned hr := ⟨hkeeps.symbol _ (h.uninterned hr).1, (h.uninterned hr).2⟩

/-- What `symbol_lookup` finds. -/
theorem lookup_cases (h : Interned σ T rs) (str : CString) :
    (σ.symbolLookup str (symbolHash str) = some none ∧
      ∀ a ∈ T (symBucket (symbolHash str)), σ.data a ≠ str) ∨
    ∃ a ∈ T (symBucket (symbolHash str)), σ.data a = str ∧
      σ.symbolLookup str (symbolHash str) = some (some a) := by
  have hlength : (T (symBucket (symbolHash str))).length < σ.heap.length + 1 :=
    Nat.lt_succ_of_le
      (((h.links.nodup _).subperm fun a ha => (h.symbol _ a ha).1).length_le)
  have hfind := (h.links.holds (symBucket (symbolHash str))).find_eq
    (p := fun a => decide (σ.data a = str)) hlength
  cases hcase : (T (symBucket (symbolHash str))).find? fun a => decide (σ.data a = str) with
  | none =>
    refine .inl ⟨hfind.trans (congrArg some hcase), fun a ha => ?_⟩
    simpa using List.find?_eq_none.mp hcase a ha
  | some a =>
    refine .inr ⟨a, List.mem_of_find?_eq_some hcase, ?_, hfind.trans (congrArg some hcase)⟩
    simpa using List.find?_some hcase

/-- A symbol that is in the table is found. -/
theorem lookup_eq (h : Interned σ T rs) (ha : a ∈ T (symBucket (symbolHash str)))
    (hdata : σ.data a = str) : σ.symbolLookup str (symbolHash str) = some (some a) := by
  obtain ⟨-, hnone⟩ | ⟨b, hb, hdata', hlookup⟩ := h.lookup_cases str
  · exact absurd hdata (hnone a ha)
  · rw [h.unique _ a ha b hb (hdata.trans hdata'.symm)]
    exact hlookup

/-- Where a new object is, there is no symbol. -/
theorem next_ne (h : Interned σ T rs) (hmalloc : ∀ n l, malloc n l ∉ l) {i : Fin 64}
    (ha : a ∈ T i) : a ≠ σ.next malloc := by
  rintro rfl
  exact hmalloc _ _ (h.symbol i _ ha).1

/-- A new symbol that is in no list does not change the table. -/
theorem makeUninterned (h : Interned σ T rs) (hmalloc : ∀ n l, malloc n l ∉ l) (str : CString) :
    Interned (σ.naviMakeUninterned malloc str) T (.uninterned (σ.next malloc) :: rs) := by
  have hdata : ∀ {i a}, a ∈ T i → (σ.naviMakeUninterned malloc str).data a = σ.data a :=
    fun ha => Function.update_of_ne (h.next_ne hmalloc ha) _ _
  have hsymbol := (SymbolHeap.Keeps.makeObject hmalloc σ .naviSymbol).symbol
  refine ⟨h.links.congr rfl fun i a ha => ?_, fun i a ha => hsymbol a (h.symbol i a ha),
    fun i a ha => ?_, fun i a ha b hb heq => ?_, fun hr => ?_, fun hr => ?_⟩
  · exact Function.update_of_ne (h.next_ne hmalloc ha) _ _
  · rw [hdata ha]
    exact h.bucket i a ha
  · rw [hdata ha, hdata hb] at heq
    exact h.unique i a ha b hb heq
  · rw [List.mem_cons, or_iff_right nofun] at hr
    obtain ⟨ha, hstr⟩ := h.interned hr
    exact ⟨ha, (hdata ha).trans hstr⟩
  · rw [List.mem_cons, SymbolReply.uninterned.injEq] at hr
    obtain rfl | hr := hr
    · exact ⟨⟨List.mem_cons_self, Function.update_self _ _ _⟩,
        fun i ha => h.next_ne hmalloc ha rfl⟩
    · exact ⟨hsymbol _ (h.uninterned hr).1, (h.uninterned hr).2⟩

/-- A name that is not in the table gets a symbol there. -/
theorem newSymbol (h : Interned σ T rs) (hmalloc : ∀ n l, malloc n l ∉ l)
    (hnone : ∀ a ∈ T (symBucket (symbolHash str)), σ.data a ≠ str) :
    Interned (σ.newSymbol malloc str (symbolHash str))
      (Function.update T (symBucket (symbolHash str))
        (σ.next malloc :: T (symBucket (symbolHash str))))
      (.interned str (σ.next malloc) :: rs) := by
  have hnew := h.makeUninterned hmalloc str
  obtain ⟨hsymbol, hfresh⟩ := hnew.uninterned List.mem_cons_self
  have hdata : (σ.naviMakeUninterned malloc str).data (σ.next malloc) = str :=
    Function.update_self _ _ _
  have hold : ∀ {i a}, a ∈ T i → (σ.naviMakeUninterned malloc str).data a = σ.data a :=
    fun ha => Function.update_of_ne (h.next_ne hmalloc ha) _ _
  have hother : ∀ {i a}, a ∈ T i → σ.data a = str → False := by
    intro i a ha hstr
    obtain rfl := (h.bucket i a ha).symm.trans (congrArg (fun s => symBucket (symbolHash s)) hstr)
    exact hnone a ha hstr
  refine ⟨hnew.links.insertHead hfresh _, fun i a ha => ?_, fun i a ha => ?_,
    fun i a ha b hb heq => ?_, fun hr => ?_, fun hr => ?_⟩
  · obtain ha | ⟨-, rfl⟩ := Links.mem_update_cons.mp ha
    · exact hnew.symbol i a ha
    · exact hsymbol
  · obtain ha | ⟨rfl, rfl⟩ := Links.mem_update_cons.mp ha
    · exact hnew.bucket i a ha
    · exact congrArg (fun s => symBucket (symbolHash s)) hdata
  · change (σ.naviMakeUninterned malloc str).data a = (σ.naviMakeUninterned malloc str).data b at heq
    obtain ha | ⟨-, rfl⟩ := Links.mem_update_cons.mp ha
    · obtain hb | ⟨-, rfl⟩ := Links.mem_update_cons.mp hb
      · exact hnew.unique i a ha b hb heq
      · rw [hold ha, hdata] at heq
        exact (hother ha heq).elim
    · obtain hb | ⟨-, rfl⟩ := Links.mem_update_cons.mp hb
      · rw [hold hb, hdata] at heq
        exact (hother hb heq.symm).elim
      · rfl
  · rw [List.mem_cons, SymbolReply.interned.injEq] at hr
    obtain ⟨rfl, rfl⟩ | hr := hr
    · exact ⟨Links.mem_update_cons.mpr (.inr ⟨rfl, rfl⟩), hdata⟩
    · obtain ⟨ha, hstr⟩ := hnew.interned (List.mem_cons_of_mem _ hr)
      exact ⟨Links.mem_update_cons.mpr (.inl ha), hstr⟩
  · rw [List.mem_cons, or_iff_right nofun] at hr
    obtain ⟨ha, hlists⟩ := hnew.uninterned (List.mem_cons_of_mem _ hr)
    refine ⟨ha, fun i hmem => ?_⟩
    obtain hmem | ⟨-, rfl⟩ := Links.mem_update_cons.mp hmem
    · exact hlists i hmem
    · exact hmalloc _ _ (h.uninterned hr).1.1

theorem gensyms (h : Interned σ T rs) (n : ℕ) : Interned { σ with gensyms := n } T rs :=
  h.keeps ⟨rfl, rfl, fun _ ha => ha⟩

theorem params (h : Interned σ T rs) (n : ℕ) : Interned { σ with params := n } T rs :=
  h.keeps ⟨rfl, rfl, fun _ ha => ha⟩

/-- A reply that returns no symbol, or one that is in the table. -/
theorem reply (h : Interned σ T rs) {r : SymbolReply} (hr : ∀ a, r ≠ .uninterned a)
    (hinterned : ∀ str a, r = .interned str a →
      a ∈ T (symBucket (symbolHash str)) ∧ σ.data a = str) : Interned σ T (r :: rs) where
  links := h.links
  symbol := h.symbol
  bucket := h.bucket
  unique := h.unique
  interned hmem := (List.mem_cons.mp hmem).elim (fun heq => hinterned _ _ heq.symm) h.interned
  uninterned hmem := (List.mem_cons.mp hmem).elim (fun heq => absurd heq.symm (hr _)) h.uninterned

end Interned

/-! ### Runs -/

/-- Each call keeps the invariant. -/
theorem SymbolCall.run_spec (hmalloc : ∀ n l, malloc n l ∉ l) (h : Interned σ T rs)
    (c : SymbolCall) :
    ∃ r σ' T', c.run malloc σ = some (r, σ') ∧ Interned σ' T' (r :: rs) := by
  cases c with
  | makeSymbol str =>
    obtain ⟨hlookup, hnone⟩ | ⟨a, ha, hdata, hlookup⟩ := h.lookup_cases str
    · refine ⟨_, _, _, ?_, h.newSymbol hmalloc hnone⟩
      rw [run, SymbolHeap.naviMakeSymbol, hlookup]
      rfl
    · refine ⟨.interned str a, σ, T, ?_, h.reply nofun ?_⟩
      · rw [run, SymbolHeap.naviMakeSymbol, hlookup]
        rfl
      · rintro _ _ ⟨⟩
        exact ⟨ha, hdata⟩
  | makeUninterned str => exact ⟨_, _, T, rfl, h.makeUninterned hmalloc str⟩
  | gensym => exact ⟨_, _, T, rfl, (h.makeUninterned hmalloc _).gensyms _⟩
  | makeParameter =>
    exact ⟨_, _, T, rfl,
      ((h.makeUninterned hmalloc _).keeps (.makeObject hmalloc _ _)).params _⟩
  | makeOther type =>
    exact ⟨_, _, T, rfl, (h.keeps (.makeObject hmalloc σ type)).reply nofun nofun⟩
  | collect marked protect =>
    obtain ⟨σ', hsweep, hkeeps⟩ := SymbolHeap.Keeps.gcSweep marked protect σ.heap σ
    refine ⟨.none, σ', T, ?_, (h.keeps hkeeps).reply nofun nofun⟩
    rw [run, hsweep]
    rfl

theorem SymbolCall.runAll_spec (hmalloc : ∀ n l, malloc n l ∉ l) (h : Interned σ T rs)
    (cs : List SymbolCall) :
    ∃ rs' σ' T', runAll malloc σ cs = some (rs', σ') ∧ Interned σ' T' (rs'.reverse ++ rs) := by
  induction cs generalizing σ T rs with
  | nil => exact ⟨[], σ, T, rfl, h⟩
  | cons c cs ih =>
    obtain ⟨r, σ₁, T₁, hrun, h₁⟩ := c.run_spec hmalloc h
    obtain ⟨rs₂, σ₂, T₂, hruns, h₂⟩ := ih h₁
    refine ⟨r :: rs₂, σ₂, T₂, ?_, ?_⟩
    · rw [runAll, hrun]
      change (runAll malloc σ₁ cs >>= _) = _
      rw [hruns]
      rfl
    · rw [List.reverse_cons, List.append_assoc]
      exact h₂

/-- **Symbols are stable.** In any run, `navi_make_symbol` returns the same object for two names if
and only if these are the same, and never an uninterned symbol; and what it has returned is still on
the heap, and in the table. -/
theorem symbols_stable (hmalloc : ∀ n l, malloc n l ∉ l) (cs : List SymbolCall) :
    ∃ rs σ, SymbolCall.runAll malloc .start cs = some (rs, σ) ∧
      (∀ str str' a a', .interned str a ∈ rs → .interned str' a' ∈ rs → (a = a' ↔ str = str')) ∧
      (∀ str a, .interned str a ∈ rs → .uninterned a ∉ rs) ∧
      ∀ str a, .interned str a ∈ rs → a ∈ σ.heap ∧ σ.type a = .naviSymbol ∧ σ.data a = str ∧
        σ.symbolLookup str (symbolHash str) = some (some a) := by
  obtain ⟨rs, σ, T, hrun, h⟩ := SymbolCall.runAll_spec hmalloc interned_start cs
  have hmem : ∀ {r}, r ∈ rs → r ∈ rs.reverse ++ [] := by
    intro r hr
    rwa [List.append_nil, List.mem_reverse]
  refine ⟨rs, σ, hrun, fun str str' a a' hr hr' => ?_, fun str a hr hr' => ?_, fun str a hr => ?_⟩
  · obtain ⟨ha, hdata⟩ := h.interned (hmem hr)
    obtain ⟨ha', hdata'⟩ := h.interned (hmem hr')
    constructor
    · rintro rfl
      exact hdata.symm.trans hdata'
    · rintro rfl
      exact h.unique _ a ha a' ha' (hdata.trans hdata'.symm)
  · exact (h.uninterned (hmem hr')).2 _ (h.interned (hmem hr)).1
  · obtain ⟨ha, hdata⟩ := h.interned (hmem hr)
    obtain ⟨hheap, htype⟩ := h.symbol _ a ha
    exact ⟨hheap, htype, hdata, h.lookup_eq ha hdata⟩

/-- Addresses one after the other. -/
def nextAddr (made : List ℕ) : ℕ := made.foldr max 0 + 1

theorem nextAddr_not_mem (made : List ℕ) : nextAddr made ∉ made := by
  have hle : ∀ b ∈ made, b ≤ made.foldr max 0 := by
    induction made with
    | nil => exact nofun
    | cons a made ih =>
      rw [List.forall_mem_cons, List.foldr_cons]
      exact ⟨le_max_left _ _, fun b hb => (ih b hb).trans (le_max_right _ _)⟩
  exact fun hmem => absurd (hle _ hmem) (Nat.not_succ_le_self _)

/-- The number of an address. -/
def Addr.number : Addr → ℕ
  | .obj n => n
  | .thunk n => n

/-- Memory above all objects. -/
def heapTop (_ : ℕ) (heap : List Addr) : Addr := .obj (nextAddr (heap.map Addr.number))

theorem heapTop_not_mem (n : ℕ) (heap : List Addr) : heapTop n heap ∉ heap := fun hmem =>
  nextAddr_not_mem _ (List.mem_map_of_mem (f := Addr.number) hmem)

/-- The names `a` and `b`; a string is freed, and `b` is where it was. -/
theorem symbols_stable_two :
    ∃ σ, SymbolCall.runAll heapTop .start
        [.makeSymbol (.ofBytes [97]), .makeOther .naviString,
          .collect (fun _ => false) (fun _ => false), .makeSymbol (.ofBytes [98]), .gensym,
          .makeSymbol (.ofBytes [97])] =
        some ([.interned (.ofBytes [97]) (.obj 1), .none, .none,
          .interned (.ofBytes [98]) (.obj 2), .uninterned (.obj 3),
          .interned (.ofBytes [97]) (.obj 1)], σ) ∧
      Addr.obj 1 ∈ σ.heap := by
  obtain ⟨rs, σ, hrun, -, -, hstays⟩ := symbols_stable heapTop_not_mem
    [.makeSymbol (.ofBytes [97]), .makeOther .naviString,
      .collect (fun _ => false) (fun _ => false), .makeSymbol (.ofBytes [98]), .gensym,
      .makeSymbol (.ofBytes [97])]
  have hreplies : rs = [.interned (.ofBytes [97]) (.obj 1), .none, .none,
      .interned (.ofBytes [98]) (.obj 2), .uninterned (.obj 3),
      .interned (.ofBytes [97]) (.obj 1)] := by
    have hfst := congrArg (Option.map Prod.fst) hrun
    exact (Option.some.inj hfst).symm
  subst hreplies
  exact ⟨σ, hrun, (hstays _ _ List.mem_cons_self).1⟩

end

end NaviScheme
