import NaviScheme.Heap.Collect
import NaviScheme.Lib.Traverse

/-!
# What marking does

`gc_mark_obj` is a traversal of the graph of words (`NaviScheme.wordSucc`): in a sound store
it ends when the traversal does, and marks what the traversal visits
(`NaviScheme.gcMark_eq`). So `gc_mark` ends if and only if no cycle of objects can be reached
from the roots (`NaviScheme.gcMark_terminates_iff`).
-/

namespace NaviScheme

open Relation Traverse

/-- The types of the objects that `gc_mark_obj` marks. -/
def NaviType.Marked (t : NaviType) : Prop :=
  t ∉ [.naviVoid, .naviNil, .naviEof, .naviFixnum, .naviBool, .naviChar, .naviTrap]

/-- The words that `gc_mark_obj` follows from an object, in order. -/
def Cell.followed (c : Cell) : List Word :=
  match c.type with
  | .naviPair | .naviBounce | .naviParameter => [c.data.car, c.data.cdr]
  | .naviPort => [c.data.portExpr]
  | .naviVector | .naviValues | .naviCaselambda => c.data.elems
  | .naviThunk => [c.data.car]
  | .naviMacro | .naviSpecial | .naviPromise | .naviProcedure =>
    match c.data with
    | .proc p =>
      match p.body with
      | .cProc _ => [.obj p.args]
      | .body body => [.obj p.args, .obj body]
    | _ => [.other]
  | .naviEscape => [c.data.escapeArg]
  | _ => []

/-- The name of a procedure, which `gc_mark_obj` marks but does not follow. -/
def Cell.procName (c : Cell) : Option NaviObj :=
  match c.type with
  | .naviMacro | .naviSpecial | .naviPromise | .naviProcedure =>
    match c.data with
    | .proc p => some p.name
    | _ => none
  | _ => none

/-- The contents of an object are what `navi_free` expects. -/
structure Cell.Fits (c : Cell) : Prop where
  thunk : c.type = .naviThunk ∨ c.type = .naviBounce → ∃ expr env, c.data = .thunk expr env
  proc : c.type = .naviProcedure → ∃ p, c.data = .proc p
  environment : c.type = .naviEnvironment → ∃ env, c.data = .environment env

/-- The words that `gc_mark_obj` follows from a word. -/
def wordSucc (L : ScopeLayout) (st : Store) : Word → List Word
  | .obj (.ptr a) =>
    match st.cells a with
    | some c => c.followed
    | none => []
  | .scope s =>
    match st.scopes s with
    | some sc => if L.tag s = some .naviThunk then (sc.next.map .scope).toList else []
    | none => []
  | _ => []

namespace Store

/-- **One object follows another**: it is in a field that `gc_mark_obj` follows. -/
def Follows (st : Store) (a b : Addr) : Prop :=
  ∃ c, st.cells a = some c ∧ .obj (.ptr b) ∈ c.followed

/-- The objects of the bindings, and the guards, of a scope. -/
def scopeWords (st : Store) (s : ScopeAddr) : List Word :=
  match st.scopes s with
  | some sc => (sc.bindings.map fun b => .obj b.object) ++ sc.guards.map fun g => .obj g.obj
  | none => []

/-- The symbols of the bindings of a scope. -/
def scopeSymbols (st : Store) (s : ScopeAddr) : List Word :=
  match st.scopes s with
  | some sc => sc.bindings.map fun b => .obj b.symbol
  | none => []

/-- The words that `gc_mark` follows. -/
def rootWords (st : Store) : List Word := st.active.flatMap st.scopeWords

/-- The symbols that `gc_mark` marks. -/
def rootSymbols (st : Store) : List Word := st.active.flatMap st.scopeSymbols

/-- **An object can be reached** from the roots: the objects of the bindings and the guards of
the active scopes. -/
def Reaches (st : Store) (a : Addr) : Prop :=
  ∃ r, .obj (.ptr r) ∈ st.rootWords ∧ ReflTransGen st.Follows r a

/-- A symbol on the heap. -/
def IsSymbol (st : Store) (o : NaviObj) : Prop :=
  ∃ a c, o = .ptr a ∧ st.cells a = some c ∧ c.type = .naviSymbol

/-- What a word that is followed should be: an immediate, an object on the heap, or the
scope of a bounce. -/
def WordOk (st : Store) : Word → Prop
  | .obj (.ptr a) => (st.cells a).isSome
  | .obj _ => True
  | .scope s => (st.scopes s).isSome
  | .unassigned | .other => False

/-- **A sound store**: the objects that can be reached, and the words that they hold, are
what their tags say. Nothing is asked of the fields of other objects, which may be
incomplete; but all objects have the contents that `navi_free` expects. -/
structure Sound (st : Store) : Prop where
  /-- Bindings are of symbols, and to objects. -/
  scope : ∀ s ∈ st.active, ∃ sc, st.scopes s = some sc ∧ ∀ b ∈ sc.bindings, st.IsSymbol b.symbol
  roots : ∀ w ∈ st.rootWords, st.WordOk w
  /-- An object is of a type that objects have. -/
  marked : ∀ {a}, st.Reaches a → ∀ c, st.cells a = some c → c.type.Marked
  followed : ∀ {a}, st.Reaches a → ∀ c, st.cells a = some c → ∀ w ∈ c.followed, st.WordOk w
  /-- The name of a procedure is a symbol. -/
  name : ∀ {a}, st.Reaches a → ∀ c, st.cells a = some c → ∀ o ∈ c.procName, st.IsSymbol o
  /-- The chains of scopes are in memory, and lead to older scopes. -/
  next : ∀ s sc, st.scopes s = some sc → ∀ s' ∈ sc.next, s' < s ∧ (st.scopes s').isSome
  fits : ∀ a c, st.cells a = some c → c.Fits

end Store

/-! ### Marks -/

/-- The store with marks set on some objects and scopes. -/
def Store.withMarks (st : Store) (ms : List Word) : Store :=
  { st with
    cells := fun a => (st.cells a).map fun c => { c with mark := c.mark || (.obj (.ptr a) ∈ ms) }
    scopes := fun s => (st.scopes s).map fun sc =>
      { sc with linkMarked := sc.linkMarked || (.scope s ∈ ms) } }

/-- What is marked at a word, before and while the words that follow it are. -/
def markedBy (L : ScopeLayout) (st : Store) : Word → List Word
  | .obj (.ptr a) =>
    match st.cells a with
    | some c => .obj (.ptr a) :: (c.procName.map .obj).toList
    | none => []
  | .scope s =>
    if L.tag s = some .naviString ∨ L.tag s = some .naviThunk then [.scope s] else []
  | _ => []

section Marks

variable {L : ScopeLayout} {st : Store} {n : ℕ} {f g : Store → Except Fault Store}
  {ws ws' ms ms' as : List Word} {w : Word} {a : Addr} {c : Cell}

theorem withMarks_congr (h : ∀ w, w ∈ ms ↔ w ∈ ms') : st.withMarks ms = st.withMarks ms' := by
  simp only [Store.withMarks, h]

theorem withMarks_nil : st.withMarks [] = st := by
  simp [Store.withMarks]

theorem cells_withMarks (h : st.cells a = some c) :
    (st.withMarks ms).cells a = some { c with mark := c.mark || (.obj (.ptr a) ∈ ms) } := by
  simp [Store.withMarks, h]

theorem scopes_withMarks {s : ScopeAddr} {sc : NaviScope} (h : st.scopes s = some sc) :
    (st.withMarks ms).scopes s =
      some { sc with linkMarked := sc.linkMarked || (.scope s ∈ ms) } := by
  simp [Store.withMarks, h]

/-- What marking comes to when the traversal visits `visited`. -/
def markResult (L : ScopeLayout) (st : Store) (ms : List Word) :
    Option (List Word) → Except Fault Store
  | none => .error .timeout
  | some visited => .ok (st.withMarks (ms ++ visited.flatMap (markedBy L st)))

/-- `f` marks what the traversals of `ws` visit, and `as` besides. -/
def Marks (L : ScopeLayout) (st : Store) (n : ℕ) (f : Store → Except Fault Store)
    (ws as : List Word) : Prop :=
  ∀ ms, f (st.withMarks ms) = markResult L st (ms ++ as) (visitAll (wordSucc L st) n ws)

theorem Marks.pure : Marks L st n .ok [] [] := by
  intro ms
  rw [visitAll_nil, markResult, List.flatMap_nil, List.append_nil, List.append_nil]

theorem Marks.bind (hf : Marks L st n f ws as) {as' : List Word} (hg : Marks L st n g ws' as') :
    Marks L st n (fun st => f st >>= g) (ws ++ ws') (as ++ as') := by
  intro ms
  rw [show (fun st => f st >>= g) (st.withMarks ms) = f (st.withMarks ms) >>= g from rfl, hf ms,
    visitAll_append]
  cases visitAll (wordSucc L st) n ws with
  | none => rfl
  | some vs =>
    rw [markResult, ok_bind, hg]
    cases visitAll (wordSucc L st) n ws' with
    | none => rfl
    | some vs' =>
      simp only [markResult, Option.bind_some, Option.map_some]
      refine congrArg _ (withMarks_congr fun w => ?_)
      simp only [List.mem_append, List.flatMap_append]
      tauto

theorem Marks.foldlM {ι : Type*} {xs : List ι} {f : Store → ι → Except Fault Store}
    {words extra : ι → List Word} (h : ∀ x ∈ xs, Marks L st n (f · x) (words x) (extra x)) :
    Marks L st n (fun st => xs.foldlM f st) (xs.flatMap words) (xs.flatMap extra) := by
  induction xs with
  | nil => exact .pure
  | cons x xs ih =>
    simp only [List.foldlM_cons, List.flatMap_cons]
    exact (h x List.mem_cons_self).bind (ih fun y hy => h y (List.mem_cons_of_mem x hy))

theorem setCell_withMarks (h : st.cells a = some c) :
    (st.withMarks ms).setCell a { c with mark := true } =
      st.withMarks (ms ++ [.obj (.ptr a)]) := by
  simp only [Store.setCell, Store.withMarks, Store.mk.injEq, true_and, and_true, List.mem_append,
    List.mem_singleton]
  refine ⟨funext fun x => ?_, by simp⟩
  rcases eq_or_ne x a with rfl | hne
  · simp [h]
  · simp [hne]

theorem setScope_withMarks {s : ScopeAddr} {sc : NaviScope} (h : st.scopes s = some sc) :
    (st.withMarks ms).setScope s { sc with linkMarked := true } =
      st.withMarks (ms ++ [.scope s]) := by
  simp only [Store.setScope, Store.withMarks, Store.mk.injEq, true_and, and_true, List.mem_append,
    List.mem_singleton]
  refine ⟨by simp, funext fun x => ?_⟩
  rcases eq_or_ne x s with rfl | hne
  · simp [h]
  · simp [hne]

theorem Marks.setMark (h : st.cells a = some c) :
    Marks L st n (gcSetMark (.ptr a)) [] [.obj (.ptr a)] := by
  intro ms
  rw [visitAll_nil, markResult, List.flatMap_nil, List.append_nil, gcSetMark,
    Store.load_eq _ (cells_withMarks h), ok_bind, pure_eq_ok, ← setCell_withMarks h]

/-- Marking a word, and what follows it, is the traversal one level up. -/
theorem Marks.node (h : Marks L st n f (wordSucc L st w) (markedBy L st w)) :
    Marks L st (n + 1) f [w] [] := by
  intro ms
  rw [h ms, visitAll_singleton, visit_succ]
  cases visitAll (wordSucc L st) n (wordSucc L st w) with
  | none => rfl
  | some vs => simp [markResult]

/-- A word that can be marked. -/
def MarkOk (st : Store) (w : Word) : Prop :=
  st.WordOk w ∧ ∀ a, w = .obj (.ptr a) → ∀ c, st.cells a = some c →
    c.type.Marked ∧ ∀ o ∈ c.procName, st.IsSymbol o

/-- Marking an object, and what follows it. -/
theorem marks_cell (hc : st.cells a = some c) (hok : MarkOk st (.obj (.ptr a)))
    (hwords : ∀ w ∈ c.followed, st.WordOk w)
    (ih : ∀ w ∈ c.followed, Marks L st n (gcMarkObj L n w) [w] []) :
    Marks L st n (gcMarkObj L (n + 1) (.obj (.ptr a))) c.followed
      (markedBy L st (.obj (.ptr a))) := by
  obtain ⟨hmarked, hname⟩ := hok.2 a rfl c hc
  have hset : Marks L st n (gcSetMark (.ptr a)) [] [.obj (.ptr a)] := .setMark hc
  have hmark : markedBy L st (.obj (.ptr a)) = .obj (.ptr a) :: (c.procName.map .obj).toList := by
    rw [markedBy, hc]
  rw [hmark]
  intro ms
  rw [gcMarkObj, Store.load_eq _ (cells_withMarks hc), ok_bind]
  have hone : ∀ w, c.followed = [w] → c.procName = none →
      (gcSetMark (.ptr a) (st.withMarks ms) >>= gcMarkObj L n w) =
        markResult L st (ms ++ .obj (.ptr a) :: (c.procName.map .obj).toList)
          (visitAll (wordSucc L st) n c.followed) := fun w hw hp => by
    rw [hw] at ih ⊢
    rw [hp]
    exact (hset.bind (ih w List.mem_cons_self)) ms
  cases ht : c.type
  case naviVoid | naviNil | naviFixnum | naviEof | naviBool | naviChar | naviTrap =>
    exact absurd hmarked (by simp [NaviType.Marked, ht])
  case naviPair | naviBounce | naviParameter =>
    have hfollowed : c.followed = [c.data.car, c.data.cdr] := by simp only [Cell.followed, ht]
    have hname : c.procName = none := by simp only [Cell.procName, ht]
    rw [hfollowed] at ih ⊢
    rw [hname]
    exact (hset.bind ((ih _ (by simp)).bind (ih _ (by simp)))) ms
  case naviPort | naviThunk | naviEscape =>
    exact hone _ (by simp only [Cell.followed, ht]) (by simp only [Cell.procName, ht])
  case naviSymbol | naviString | naviBytevec | naviEnvironment =>
    have hfollowed : c.followed = [] := by simp only [Cell.followed, ht]
    have hname : c.procName = none := by simp only [Cell.procName, ht]
    rw [hfollowed, hname]
    exact hset ms
  case naviVector | naviValues | naviCaselambda =>
    have hfollowed : c.followed = c.data.elems := by simp only [Cell.followed, ht]
    have hname : c.procName = none := by simp only [Cell.procName, ht]
    rw [hfollowed] at ih ⊢
    rw [hname]
    have hall := Marks.foldlM (f := fun st w => gcMarkObj L n w st) ih
    rw [List.flatMap_singleton', List.flatMap_eq_nil_iff.mpr fun _ _ => rfl] at hall
    exact (hset.bind hall) ms
  case naviMacro | naviSpecial | naviPromise | naviProcedure =>
    cases hd : c.data
    case proc p =>
      have hp : c.procName = some p.name := by simp only [Cell.procName, ht, hd]
      obtain ⟨x, cx, hx, hcx, -⟩ := hname p.name hp
      have hsetname : Marks L st n (gcSetMark p.name) [] [.obj p.name] := by
        rw [hx]
        exact .setMark hcx
      rw [hp]
      cases hbody : p.body with
      | cProc f =>
        have hfollowed : c.followed = [.obj p.args] := by simp only [Cell.followed, ht, hd, hbody]
        rw [hfollowed] at ih ⊢
        have hall := hset.bind ((ih _ List.mem_cons_self).bind (hsetname.bind .pure))
        simp only [hbody]
        exact hall ms
      | body body =>
        have hfollowed : c.followed = [.obj p.args, .obj body] := by
          simp only [Cell.followed, ht, hd, hbody]
        rw [hfollowed] at ih ⊢
        have hall := hset.bind ((ih (.obj p.args) (by simp)).bind
          (hsetname.bind (ih (.obj body) (by simp))))
        simp only [hbody]
        exact hall ms
    all_goals
      have hfollowed : c.followed = [.other] := by simp only [Cell.followed, ht, hd]
      exact (hwords .other (by simp [hfollowed])).elim

/-- Pointers are aligned, so that a scope has the tag of no object but, by chance, that of a
string or of a thunk. -/
theorem ScopeLayout.tag_cases (L : ScopeLayout) (s : ScopeAddr) :
    L.tag s = none ∨ L.tag s = some .naviVoid ∨ L.tag s = some .naviString ∨
      L.tag s = some .naviThunk := by
  have hdvd := L.aligned s
  rw [ScopeLayout.tag]
  obtain ⟨k, hk⟩ : ∃ k, L.lePrev s % 2 ^ 32 = 8 * k := ⟨L.lePrev s % 2 ^ 32 / 8, by omega⟩
  rw [hk]
  rcases Nat.lt_or_ge k 3 with hlt | hge
  · obtain rfl | rfl | rfl : k = 0 ∨ k = 1 ∨ k = 2 := by omega
    all_goals simp [naviTypes]
  · exact .inl (List.getElem?_eq_none (by simp [naviTypes]; omega))

/-- **`gc_mark_obj` is a traversal**, from a word that reaches nothing else than objects and
the scopes of bounces. -/
theorem gcMarkObj_marks (hok : ∀ v, ReflTransGen (Edge (wordSucc L st)) w v → MarkOk st v) :
    Marks L st n (gcMarkObj L n w) [w] [] := by
  induction n generalizing w with
  | zero =>
    intro ms
    rw [visitAll_singleton]
    rfl
  | succ n ih =>
    have hself := hok w .refl
    have hnext : ∀ v ∈ wordSucc L st w, Marks L st n (gcMarkObj L n v) [v] [] :=
      fun v hv => ih fun u hu => hok u (.head hv hu)
    refine .node ?_
    cases w with
    | unassigned => exact hself.1.elim
    | other => exact hself.1.elim
    | scope s =>
      obtain ⟨sc, hsc⟩ := Option.isSome_iff_exists.mp hself.1
      simp only [wordSucc, hsc] at hnext ⊢
      have hset : ∀ ms, (st.withMarks ms).setScope s { sc with linkMarked := true } =
          st.withMarks (ms ++ [.scope s]) := fun ms => setScope_withMarks hsc
      intro ms
      rw [gcMarkObj, Store.loadScope_eq _ (scopes_withMarks hsc), ok_bind, markedBy]
      rcases L.tag_cases s with htag | htag | htag | htag
      · simp [htag, markResult]
      · simp [htag, markResult]
      · simp [htag, hset, markResult]
      · cases hlink : sc.next with
        | none =>
          simp only [hlink] at hset
          simp [htag, hset, markResult]
        | some next =>
          simp only [hlink] at hset
          have hrest := hnext (.scope next) (by simp [htag, hlink]) (ms ++ [.scope s])
          simpa [htag, hset] using hrest
    | obj o =>
      cases o with
      | ptr a =>
        obtain ⟨c, hc⟩ := Option.isSome_iff_exists.mp hself.1
        simp only [wordSucc, hc] at hnext ⊢
        refine marks_cell hc hself (fun v hv => ?_) hnext
        exact (hok v (.single (by simpa only [Edge, wordSucc, hc] using hv))).1
      | _ => exact .pure

end Marks

/-! ### Marking from the roots -/

section Roots

variable {L : ScopeLayout} {st : Store} {n : ℕ} {w v : Word} {a b : Addr}

/-- What can be reached from a root word by word. -/
theorem Store.Sound.markOk (h : st.Sound) (hw : w ∈ st.rootWords)
    (hreach : ReflTransGen (Edge (wordSucc L st)) w v) :
    MarkOk st v ∧ ∀ a, v = .obj (.ptr a) → st.Reaches a := by
  have hself : ∀ {v}, st.WordOk v → (∀ a, v = .obj (.ptr a) → st.Reaches a) →
      MarkOk st v ∧ ∀ a, v = .obj (.ptr a) → st.Reaches a := fun hok hr =>
    ⟨⟨hok, fun a ha c hc => ⟨h.marked (hr a ha) c hc, h.name (hr a ha) c hc⟩⟩, hr⟩
  induction hreach with
  | refl => exact hself (h.roots w hw) fun a ha => ⟨a, ha ▸ hw, .refl⟩
  | @tail v u _ hvu ih =>
    rw [Edge] at hvu
    cases v with
    | unassigned => exact absurd hvu List.not_mem_nil
    | other => exact absurd hvu List.not_mem_nil
    | scope s =>
      rw [wordSucc] at hvu
      split at hvu
      · rename_i sc hsc
        split_ifs at hvu
        · obtain ⟨s', hs', rfl⟩ : ∃ s', sc.next = some s' ∧ .scope s' = u := by simpa using hvu
          exact hself (h.next s sc hsc s' hs').2 fun a ha => absurd ha (by simp)
        · exact absurd hvu List.not_mem_nil
      · exact absurd hvu List.not_mem_nil
    | obj o =>
      cases o with
      | ptr x =>
        have hx := ih.2 x rfl
        rw [wordSucc] at hvu
        split at hvu
        · rename_i c hc
          refine hself (h.followed hx c hc u hvu) fun a ha => ?_
          obtain ⟨r, hr, hrx⟩ := hx
          exact ⟨r, hr, hrx.tail ⟨c, hc, ha ▸ hvu⟩⟩
        · exact absurd hvu List.not_mem_nil
      | _ => exact absurd hvu List.not_mem_nil

theorem gcMarkEnv_marks (h : st.Sound) {s : ScopeAddr} (hs : s ∈ st.active) :
    Marks L st n (gcMarkEnv L n s) (st.scopeWords s) (st.scopeSymbols s) := by
  obtain ⟨sc, hsc, hsym⟩ := h.scope s hs
  have hwords : st.scopeWords s =
      (sc.bindings.flatMap fun b => [.obj b.object]) ++ sc.guards.flatMap fun g => [.obj g.obj] := by
    simp only [Store.scopeWords, hsc, List.map_eq_flatMap]
  have hsymbols : st.scopeSymbols s =
      (sc.bindings.flatMap fun b => [.obj b.symbol]) ++ sc.guards.flatMap fun _ => [] := by
    simp [Store.scopeSymbols, hsc, List.map_eq_flatMap]
  have hword : ∀ w ∈ st.scopeWords s, Marks L st n (gcMarkObj L n w) [w] [] := fun w hw =>
    gcMarkObj_marks fun v hv => (h.markOk (List.mem_flatMap.mpr ⟨s, hs, hw⟩) hv).1
  rw [hwords] at hword ⊢
  rw [hsymbols]
  intro ms
  rw [gcMarkEnv, Store.loadScope_eq _ (scopes_withMarks hsc), ok_bind]
  refine ((Marks.foldlM fun b hb => ?_).bind (Marks.foldlM fun g hg => ?_)) ms
  · obtain ⟨a, c, ha, hc, -⟩ := hsym b hb
    have hset : Marks L st n (gcSetMark b.symbol) [] [.obj b.symbol] := by
      rw [ha]
      exact .setMark hc
    exact hset.bind (hword _ (List.mem_append_left _ (List.mem_flatMap.mpr ⟨b, hb, by simp⟩)))
  · exact hword _ (List.mem_append_right _ (List.mem_flatMap.mpr ⟨g, hg, by simp⟩))

/-- **`gc_mark` is a traversal** from the roots. -/
theorem gcMark_eq (h : st.Sound) :
    gcMark L n st = markResult L st st.rootSymbols (visitAll (wordSucc L st) n st.rootWords) := by
  have hmarks : Marks L st n (gcMark L n) st.rootWords st.rootSymbols :=
    Marks.foldlM fun s hs => gcMarkEnv_marks h hs
  have hstart := hmarks []
  rwa [withMarks_nil, List.nil_append] at hstart

/-! ### When marking ends -/

theorem Store.Sound.isSome_of_reaches (h : st.Sound) (ha : st.Reaches a) :
    (st.cells a).isSome := by
  obtain ⟨r, hr, hra⟩ := ha
  rcases hra.cases_tail with rfl | ⟨b, hrb, c, hc, hw⟩
  · exact h.roots _ hr
  · exact h.followed ⟨r, hr, hrb⟩ c hc _ hw

/-- Chains of scopes are finite. -/
theorem Store.Sound.acc_scope (h : st.Sound) (s : ScopeAddr) :
    Acc (fun v w => Edge (wordSucc L st) w v) (.scope s) := by
  induction s using Nat.strong_induction_on with
  | _ s ih =>
    refine ⟨_, fun v hv => ?_⟩
    rw [Edge, wordSucc] at hv
    split at hv
    · rename_i sc hsc
      split_ifs at hv
      · obtain ⟨s', hs', rfl⟩ : ∃ s', sc.next = some s' ∧ .scope s' = v := by simpa using hv
        exact ih s' (h.next s sc hsc s' hs').1
      · exact absurd hv List.not_mem_nil
    · exact absurd hv List.not_mem_nil

/-- The paths from an object are finite if and only if those through objects are. -/
theorem Store.Sound.acc_iff (h : st.Sound) :
    Acc (fun v w => Edge (wordSucc L st) w v) (.obj (.ptr a)) ↔
      Acc (fun c b => st.Follows b c) a := by
  constructor
  · intro hacc
    have hsub : Subrelation (fun c b => st.Follows b c)
        (InvImage (fun v w => Edge (wordSucc L st) w v) fun a => .obj (.ptr a)) := by
      rintro b a ⟨c, hc, hw⟩
      rw [InvImage, Edge, wordSucc, hc]
      exact hw
    exact hsub.accessible (InvImage.accessible _ hacc)
  · intro hacc
    induction hacc with
    | intro a _ ih =>
      refine ⟨_, fun v hv => ?_⟩
      rw [Edge, wordSucc] at hv
      split at hv
      · rename_i c hc
        cases v with
        | scope s => exact h.acc_scope s
        | unassigned => exact ⟨_, fun u hu => absurd hu List.not_mem_nil⟩
        | other => exact ⟨_, fun u hu => absurd hu List.not_mem_nil⟩
        | obj o =>
          cases o with
          | ptr b => exact ih b ⟨c, hc, hv⟩
          | _ => exact ⟨_, fun u hu => absurd hu List.not_mem_nil⟩
      · exact absurd hv List.not_mem_nil

/-- **`gc_mark` ends if and only if no cycle of objects can be reached.** -/
theorem gcMark_terminates_iff (L : ScopeLayout) (h : st.Sound)
    (hfin : {a | (st.cells a).isSome}.Finite) :
    (∃ n st', gcMark L n st = .ok st') ↔ ∀ a, st.Reaches a → ¬ TransGen st.Follows a a := by
  have hok : ∀ n, (∃ st', gcMark L n st = .ok st') ↔
      (visitAll (wordSucc L st) n st.rootWords).isSome := by
    intro n
    rw [gcMark_eq h]
    cases visitAll (wordSucc L st) n st.rootWords <;> simp [markResult]
  have hword : (∃ n st', gcMark L n st = .ok st') ↔
      ∀ w ∈ st.rootWords, Acc (fun v w => Edge (wordSucc L st) w v) w := by
    simp only [hok, exists_visitAll_iff, exists_visit_iff]
  rw [hword]
  have hacyclic : ∀ r, .obj (.ptr r) ∈ st.rootWords →
      (Acc (fun c b => st.Follows b c) r ↔
        ∀ a, ReflTransGen st.Follows r a → ¬ TransGen st.Follows a a) := fun r hr =>
    acc_iff_acyclic (hfin.subset fun a ha => h.isSome_of_reaches ⟨r, hr, ha⟩)
  constructor
  · rintro hacc a ⟨r, hr, hra⟩
    exact (hacyclic r hr).mp (h.acc_iff.mp (hacc _ hr)) a hra
  · intro hcyc w hw
    cases w with
    | scope s => exact h.acc_scope s
    | unassigned => exact ⟨_, fun u hu => absurd hu List.not_mem_nil⟩
    | other => exact ⟨_, fun u hu => absurd hu List.not_mem_nil⟩
    | obj o =>
      cases o with
      | ptr r => exact h.acc_iff.mpr ((hacyclic r hw).mpr fun a hra => hcyc a ⟨r, hw, hra⟩)
      | _ => exact ⟨_, fun u hu => absurd hu List.not_mem_nil⟩

end Roots

/-! ### A list that a program has made circular -/

/-- The heap after `(define x (cons 1 '()))`, and after `(set-cdr! x o)`. -/
def pairStore (o : NaviObj) : Store where
  first := some (.obj 1)
  cells a :=
    if a = .obj 0 then some ⟨none, .naviSymbol, false, false, .symbol "x" true⟩
    else if a = .obj 1 then
      some ⟨some (.obj 0), .naviPair, false, false, .pair (some (.fixnum 1)) (some o)⟩
    else none
  active := [0]
  scopes s := if s = 0 then some ⟨none, 1, [], [⟨.ptr (.obj 0), .ptr (.obj 1)⟩], false⟩ else none
  symtab := [("x", .obj 0)]

theorem pairStore_cells {o : NaviObj} {a : Addr} {c : Cell} (h : (pairStore o).cells a = some c) :
    (a = .obj 0 ∧ c = ⟨none, .naviSymbol, false, false, .symbol "x" true⟩) ∨
      (a = .obj 1 ∧
        c = ⟨some (.obj 0), .naviPair, false, false, .pair (some (.fixnum 1)) (some o)⟩) := by
  simp only [pairStore] at h
  split_ifs at h with h0 h1
  · exact .inl ⟨h0, (Option.some.inj h).symm⟩
  · exact .inr ⟨h1, (Option.some.inj h).symm⟩

theorem pairStore_sound {o : NaviObj} (ho : o = .nil ∨ o = .ptr (.obj 1)) :
    (pairStore o).Sound where
  scope := by
    intro s hs
    obtain rfl : s = 0 := List.mem_singleton.mp hs
    refine ⟨_, rfl, fun b hb => ?_⟩
    obtain rfl := List.mem_singleton.mp hb
    exact ⟨.obj 0, _, rfl, rfl, rfl⟩
  roots := by
    intro w hw
    obtain rfl : w = .obj (.ptr (.obj 1)) := by simpa [pairStore, Store.rootWords,
      Store.scopeWords] using hw
    rfl
  marked := by
    intro a _ c hc
    rcases pairStore_cells hc with ⟨-, rfl⟩ | ⟨-, rfl⟩ <;> simp [NaviType.Marked]
  followed := by
    intro a _ c hc w hw
    rcases pairStore_cells hc with ⟨-, rfl⟩ | ⟨-, rfl⟩
    · exact absurd hw List.not_mem_nil
    · rcases List.mem_pair.mp hw with rfl | rfl
      · trivial
      · rcases ho with rfl | rfl
        · trivial
        · rfl
  name := by
    intro a _ c hc o ho
    rcases pairStore_cells hc with ⟨-, rfl⟩ | ⟨-, rfl⟩ <;> exact absurd ho (by simp [Cell.procName])
  next := by
    intro s sc hsc s' hs'
    simp only [pairStore] at hsc
    split_ifs at hsc
    obtain rfl := Option.some.inj hsc
    exact absurd hs' (by simp)
  fits := by
    intro a c hc
    rcases pairStore_cells hc with ⟨-, rfl⟩ | ⟨-, rfl⟩ <;> exact ⟨by simp, by simp, by simp⟩

theorem pairStore_finite (o : NaviObj) : {a | ((pairStore o).cells a).isSome}.Finite := by
  refine (Set.toFinite {Addr.obj 0, Addr.obj 1}).subset fun a ha => ?_
  obtain ⟨c, hc⟩ := Option.isSome_iff_exists.mp ha
  rcases pairStore_cells hc with ⟨rfl, -⟩ | ⟨rfl, -⟩ <;> simp

/-- The list of one element can be marked. -/
theorem gcMark_terminates_iff_pair :
    ∃ n st', gcMark .spaced n (pairStore .nil) = .ok st' := by
  refine (gcMark_terminates_iff .spaced (pairStore_sound (.inl rfl)) (pairStore_finite _)).mpr ?_
  have hfollows : ∀ a b, ¬ (pairStore .nil).Follows a b := by
    rintro a b ⟨c, hc, hw⟩
    rcases pairStore_cells hc with ⟨-, rfl⟩ | ⟨-, rfl⟩ <;>
      simp [Cell.followed, Data.car, Data.cdr, Word.ofField] at hw
  intro a _ hcycle
  obtain ⟨b, -, hba⟩ := TransGen.tail'_iff.mp hcycle
  exact hfollows b a hba

/-- Marking a pair whose cdr is the pair itself has no end. -/
theorem gcMarkObj_circular (L : ScopeLayout) {a : Addr} {k : ℤ} (n : ℕ) (st : Store) (c : Cell)
    (hc : st.cells a = some c) (ht : c.type = .naviPair)
    (hd : c.data = .pair (some (.fixnum k)) (some (.ptr a))) :
    gcMarkObj L n (.obj (.ptr a)) st = .error .timeout := by
  induction n generalizing st c with
  | zero => rfl
  | succ n ih =>
    have hset : gcSetMark (.ptr a) st = .ok (st.setCell a { c with mark := true }) := by
      rw [gcSetMark, Store.load_eq _ hc]
      rfl
    rw [gcMarkObj, Store.load_eq _ hc, ok_bind]
    simp only [ht, hd, hset, ok_bind, Data.car, Data.cdr, Word.ofField]
    cases n with
    | zero => rfl
    | succ n =>
      have hcar : ∀ st, gcMarkObj L (n + 1) (.obj (.fixnum k)) st = .ok st := fun _ => rfl
      rw [hcar, ok_bind]
      exact ih _ { c with mark := true } (by simp [Store.setCell, ht, hd]) ht hd

/-- **A circular list is marked without end.** -/
theorem gcMark_circular :
    (pairStore (.ptr (.obj 1))).Sound ∧
      ∀ L n st', gcMark L n (pairStore (.ptr (.obj 1))) ≠ .ok st' := by
  refine ⟨pairStore_sound (.inr rfl), fun L n st' h => ?_⟩
  have hset : gcSetMark (.ptr (.obj 0)) (pairStore (.ptr (.obj 1))) =
      .ok ((pairStore (.ptr (.obj 1))).setCell (.obj 0)
        ⟨none, .naviSymbol, true, false, .symbol "x" true⟩) := rfl
  rw [show gcMark L n (pairStore (.ptr (.obj 1))) =
      gcMarkEnv L n 0 (pairStore (.ptr (.obj 1))) >>= .ok from rfl] at h
  rw [gcMarkEnv, Store.loadScope_eq _ rfl, ok_bind] at h
  simp only [List.foldlM_cons, List.foldlM_nil, hset, ok_bind] at h
  rw [gcMarkObj_circular L n _ ⟨some (.obj 0), .naviPair, false, false,
    .pair (some (.fixnum 1)) (some (.ptr (.obj 1)))⟩ rfl rfl rfl] at h
  exact absurd h (by simp [bind, Except.bind])

end NaviScheme
