import NaviScheme.Heap.Mark

/-!
# What a collection does

`gc_sweep` walks the heap list while it takes objects out of it. The invariant
`NaviScheme.SweepInv` splits the list into the survivors passed, in their order, and the
objects still to come; the pointer `last` is to the last survivor, and is not used before
there is one, when it may be to an object that is freed.

With what marking does (`NaviScheme.gcMark_eq`) this gives the effect of a collection
(`NaviScheme.doGcCollect_spec`).
-/

namespace NaviScheme

open Relation Traverse

/-! ### Linked lists -/

/-- The links lead from `p` through `as` to `q`. -/
def Seg (cells : Addr → Option Cell) : Option Addr → List Addr → Option Addr → Prop
  | p, [], q => p = q
  | p, a :: as, q => p = some a ∧ ∃ c, cells a = some c ∧ Seg cells c.link as q

section Seg

variable {cells cells' : Addr → Option Cell} {p q : Option Addr} {a : Addr} {as bs : List Addr}

theorem seg_append : Seg cells p (as ++ bs) q ↔ ∃ m, Seg cells p as m ∧ Seg cells m bs q := by
  induction as generalizing p with
  | nil => simp [Seg]
  | cons a as ih =>
    simp only [List.cons_append, Seg, ih]
    constructor
    · rintro ⟨hp, c, hc, m, hm, hq⟩
      exact ⟨m, ⟨hp, c, hc, hm⟩, hq⟩
    · rintro ⟨m, ⟨hp, c, hc, hm⟩, hq⟩
      exact ⟨hp, c, hc, m, hm, hq⟩

theorem Seg.congr (hlink : ∀ a ∈ as, (cells' a).map Cell.link = (cells a).map Cell.link)
    (h : Seg cells p as q) : Seg cells' p as q := by
  induction as generalizing p with
  | nil => exact h
  | cons a as ih =>
    obtain ⟨hp, c, hc, h⟩ := h
    have ha := hlink a List.mem_cons_self
    rw [hc, Option.map_some, Option.map_eq_some_iff] at ha
    obtain ⟨c', hc', hl⟩ := ha
    exact ⟨hp, c', hc', hl ▸ ih (fun b hb => hlink b (List.mem_cons_of_mem a hb)) h⟩

/-- A list that ends is determined by where it starts. -/
theorem Seg.unique (h : Seg cells p as none) (h' : Seg cells p bs none) : as = bs := by
  induction as generalizing p bs with
  | nil =>
    cases bs with
    | nil => rfl
    | cons b bs => exact absurd (h'.1.symm.trans h) (by simp)
  | cons a as ih =>
    obtain ⟨rfl, c, hc, h⟩ := h
    cases bs with
    | nil => exact absurd h' (by simp [Seg])
    | cons b bs =>
      obtain ⟨hb, c', hc', h'⟩ := h'
      obtain rfl := Option.some.inj hb
      obtain rfl := Option.some.inj (hc.symm.trans hc')
      rw [ih h h']

theorem Seg.nodup (h : Seg cells p as none) : as.Nodup := by
  induction as generalizing p with
  | nil => exact List.nodup_nil
  | cons a as ih =>
    obtain ⟨rfl, c, hc, h⟩ := h
    refine List.nodup_cons.mpr ⟨fun ha => ?_, ih h⟩
    -- the rest of the list from the second place would be as long as from the first
    obtain ⟨xs, ys, rfl⟩ := List.append_of_mem ha
    obtain ⟨m, -, rfl, c', hc', hys⟩ := seg_append.mp h
    obtain rfl := Option.some.inj (hc.symm.trans hc')
    have hlen := congrArg List.length (h.unique hys)
    simp only [List.length_append, List.length_cons] at hlen
    omega

end Seg

/-- **The heap list** is `objs`, and these are the objects in memory. -/
structure Store.HeapList (st : Store) (objs : List Addr) : Prop where
  seg : Seg st.cells st.first objs none
  mem : ∀ a, (st.cells a).isSome ↔ a ∈ objs

/-! ### Freeing an object -/

section Free

variable {st : Store} {a : Addr} {c : Cell}

/-- Dropping a reference to a scope touches no object. -/
theorem naviScopeUnref_cells (n : ℕ) (s : ScopeAddr) (st : Store) :
    (naviScopeUnref n s st).cells = st.cells ∧ (naviScopeUnref n s st).first = st.first := by
  induction n generalizing s st with
  | zero => exact ⟨rfl, rfl⟩
  | succ n ih =>
    rw [naviScopeUnref]
    split
    · exact ⟨rfl, rfl⟩
    · simp only
      split
      · split
        · exact ⟨rfl, rfl⟩
        · exact ih _ _
      · exact ⟨rfl, rfl⟩

theorem envUnref_cells (env : NaviEnv) (st : Store) :
    (st.envUnref env).cells = st.cells ∧ (st.envUnref env).first = st.first := by
  obtain ⟨hl, hl'⟩ := naviScopeUnref_cells (env.lexical + 1) env.lexical st
  obtain ⟨hd, hd'⟩ := naviScopeUnref_cells (env.dynamic + 1) env.dynamic (st.unref env.lexical)
  exact ⟨hd.trans hl, hd'.trans hl'⟩

/-- `navi_free` gives back the memory of the object, and of no other. -/
theorem naviFree_eq (hc : st.cells a = some c) (hfits : c.Fits) :
    ∃ st', naviFree a st = .ok st' ∧ st'.cells = Function.update st.cells a none ∧
      st'.first = st.first := by
  have henv : ∀ env, ∃ st', (.ok ((st.envUnref env).freeCell a) : Except Fault Store) = .ok st' ∧
      st'.cells = Function.update st.cells a none ∧ st'.first = st.first := fun env =>
    ⟨_, rfl, by rw [Store.freeCell, (envUnref_cells env st).1], (envUnref_cells env st).2⟩
  rw [naviFree, Store.load_eq _ hc, ok_bind]
  cases ht : c.type
  case naviThunk | naviBounce =>
    obtain ⟨expr, env, hd⟩ := hfits.thunk (by simp [ht])
    simp only [hd]
    exact henv env
  case naviProcedure =>
    obtain ⟨p, hd⟩ := hfits.proc ht
    simp only [hd]
    obtain ⟨hcells, hfirst⟩ := naviScopeUnref_cells (p.env + 1) p.env st
    exact ⟨_, rfl, by rw [Store.freeCell, Store.unref, hcells], hfirst⟩
  case naviEnvironment =>
    obtain ⟨env, hd⟩ := hfits.environment ht
    simp only [hd]
    exact henv env
  all_goals exact ⟨_, rfl, rfl, rfl⟩

end Free

/-! ### The sweep -/

/-- Whether an object survives. -/
def Cell.Survives (c : Cell) : Bool := c.mark || c.protect || c.type = .naviSymbol

/-- **The invariant of the sweep**: the heap list is the survivors passed, followed by the
objects to come. Those are as in `orig`, and the survivors are unmarked. -/
structure SweepInv (orig : Addr → Option Cell) (kept rest : List Addr) (st : Store) : Prop where
  seg : Seg st.cells st.first (kept ++ rest) none
  mem : ∀ a, (st.cells a).isSome ↔ a ∈ kept ++ rest
  swept : ∀ a ∈ kept, ∃ c₀ c, orig a = some c₀ ∧ st.cells a = some c ∧
    c = { c₀ with link := c.link, mark := false }
  unswept : ∀ a ∈ rest, st.cells a = orig a

section Sweep

variable {orig : Addr → Option Cell} {kept rest : List Addr} {st : Store} {a : Addr} {c : Cell}

theorem SweepInv.not_mem (h : SweepInv orig kept (a :: rest) st) : a ∉ kept ∧ a ∉ rest := by
  have hnodup := h.seg.nodup
  rw [List.nodup_append, List.nodup_cons] at hnodup
  exact ⟨fun ha => hnodup.2.2 a ha a List.mem_cons_self rfl, hnodup.2.1.1⟩

/-- The sweep passes a survivor. -/
theorem SweepInv.keep (h : SweepInv orig kept (a :: rest) st) (hc : st.cells a = some c) :
    SweepInv orig (kept ++ [a]) rest (st.setCell a { c with mark := false }) := by
  obtain ⟨hkept, hrest⟩ := h.not_mem
  have hlist : kept ++ [a] ++ rest = kept ++ a :: rest := by simp
  have hself : (st.setCell a { c with mark := false }).cells a = some { c with mark := false } :=
    Function.update_self ..
  have hother : ∀ {b}, b ≠ a → (st.setCell a { c with mark := false }).cells b = st.cells b :=
    fun hb => Function.update_of_ne hb ..
  have hlink : ∀ b, ((st.setCell a { c with mark := false }).cells b).map Cell.link =
      (st.cells b).map Cell.link := fun b => by
    rcases eq_or_ne b a with rfl | hb
    · rw [hself, hc, Option.map_some, Option.map_some]
    · rw [hother hb]
  refine ⟨hlist ▸ h.seg.congr fun b _ => hlink b, fun b => ?_, fun b hb => ?_, fun b hb => ?_⟩
  · rw [hlist, ← h.mem b]
    simpa using congrArg Option.isSome (hlink b)
  · rcases List.mem_append.mp hb with hb | hb
    · rw [hother fun hba => hkept (hba ▸ hb)]
      exact h.swept b hb
    · obtain rfl := List.mem_singleton.mp hb
      exact ⟨c, _, (h.unswept b List.mem_cons_self).symm.trans hc, hself, rfl⟩
  · rw [hother fun hba => hrest (hba ▸ hb)]
    exact h.unswept b (List.mem_cons_of_mem a hb)

/-- The sweep unlinks an object: from the head of the list as long as there is no survivor,
else from behind the last one. -/
theorem SweepInv.unlink (h : SweepInv orig kept (a :: rest) st) {last : Option Addr}
    (hlast : ∀ l, kept.getLast? = some l → last = some l) :
    ∃ st', gcUnlink a last st = .ok st' ∧
      Seg st'.cells st'.first (kept ++ rest) none ∧
      (∀ b, (st'.cells b).isSome ↔ (st.cells b).isSome) ∧
      (∀ b ∈ kept, ∃ c₀ c, orig b = some c₀ ∧ st'.cells b = some c ∧
        c = { c₀ with link := c.link, mark := false }) ∧
      ∀ b, b ∉ kept → st'.cells b = st.cells b := by
  obtain ⟨hkept, hrest⟩ := h.not_mem
  obtain ⟨m, hseg, rfl, c, hc, htail⟩ := seg_append.mp h.seg
  rcases List.eq_nil_or_concat' kept with rfl | ⟨front, l, rfl⟩
  · have hfirst : st.first = some a := hseg
    refine ⟨{ st with first := c.link }, ?_, htail, fun b => Iff.rfl, fun b hb => ?_,
      fun b _ => rfl⟩
    · simp only [gcUnlink, if_true, removeHead, hfirst, Store.load_eq _ hc, ok_bind, pure_eq_ok]
    · exact absurd hb List.not_mem_nil
  · obtain ⟨m, hfront, rfl, cl, hcl, hlink⟩ := seg_append.mp hseg
    have hnodup := h.seg.nodup
    simp only [List.append_assoc, List.singleton_append, List.nodup_append, List.nodup_cons,
      List.mem_cons, not_or] at hnodup
    obtain ⟨-, ⟨⟨-, hlrest⟩, -, -⟩, hne⟩ := hnodup
    have hlfront : l ∉ front := fun hl => hne l hl l (.inl rfl) rfl
    have hfirst : st.first ≠ some a := by
      intro hfirst
      refine hkept ?_
      cases front with
      | nil => simpa using hfirst.symm.trans hfront
      | cons x xs => simpa using .inl (Option.some.inj (hfirst.symm.trans hfront.1))
    have hself : (st.setCell l { cl with link := c.link }).cells l =
        some { cl with link := c.link } := Function.update_self ..
    have hother : ∀ b, b ≠ l → (st.setCell l { cl with link := c.link }).cells b = st.cells b :=
      fun b hb => Function.update_of_ne hb ..
    refine ⟨st.setCell l { cl with link := c.link }, ?_, ?_, fun b => ?_, fun b hb => ?_,
      fun b hb => ?_⟩
    · simp only [gcUnlink, if_neg hfirst, hlast l (by simp), removeAfter, Store.load_eq _ hcl,
        ok_bind, show cl.link = some a from hlink, Store.load_eq _ hc, pure_eq_ok]
    · rw [List.append_assoc, seg_append]
      refine ⟨some l, hfront.congr fun b hb => ?_, rfl, _, hself, htail.congr fun b hb => ?_⟩
      · rw [hother b fun hbl => hlfront (hbl ▸ hb)]
      · rw [hother b fun hbl => hlrest (hbl ▸ hb)]
    · rcases eq_or_ne b l with rfl | hbl
      · rw [hself, hcl, Option.isSome_some, Option.isSome_some]
      · rw [hother b hbl]
    · rcases eq_or_ne b l with rfl | hbl
      · obtain ⟨c₀, cb, horig, hcb, hswept⟩ := h.swept b hb
        obtain rfl := Option.some.inj (hcl.symm.trans hcb)
        refine ⟨c₀, _, horig, hself, ?_⟩
        rw [hswept]
      · rw [hother b hbl]
        exact h.swept b hb
    · exact hother b fun hbl => hb (hbl ▸ by simp)

/-- The sweep frees an object. -/
theorem SweepInv.drop (h : SweepInv orig kept (a :: rest) st) {last : Option Addr}
    (hlast : ∀ l, kept.getLast? = some l → last = some l) (hc : st.cells a = some c)
    (hfits : c.Fits) :
    ∃ st₁ st₂, gcUnlink a last st = .ok st₁ ∧ naviFree a st₁ = .ok st₂ ∧
      SweepInv orig kept rest st₂ := by
  obtain ⟨hkept, hrest⟩ := h.not_mem
  obtain ⟨st₁, hunlink, hseg, hsome, hswept, hother⟩ := h.unlink hlast
  obtain ⟨st₂, hfree, hcells, hfirst⟩ := naviFree_eq ((hother a hkept).trans hc) hfits
  have hne : ∀ {b}, b ≠ a → st₂.cells b = st₁.cells b := fun hb => by
    rw [hcells, Function.update_of_ne hb]
  refine ⟨st₁, st₂, hunlink, hfree, ⟨?_, fun b => ?_, fun b hb => ?_, fun b hb => ?_⟩⟩
  · rw [hfirst]
    refine hseg.congr fun b hb => ?_
    rw [hne fun hba => ?_]
    rcases List.mem_append.mp hb with hb | hb
    · exact hkept (hba ▸ hb)
    · exact hrest (hba ▸ hb)
  · rcases eq_or_ne b a with rfl | hba
    · rw [hcells, Function.update_self]
      simp [hkept, hrest]
    · rw [hne hba, hsome, h.mem]
      simp [hba]
  · rw [hne fun hba => hkept (hba ▸ hb)]
    exact hswept b hb
  · have hbkept : b ∉ kept := fun hbk => by
      have hnodup := h.seg.nodup
      rw [List.nodup_append] at hnodup
      exact hnodup.2.2 b hbk b (List.mem_cons_of_mem a hb) rfl
    rw [hne fun hba => hrest (hba ▸ hb), hother b hbkept]
    exact h.unswept b (List.mem_cons_of_mem a hb)

/-- **The sweep keeps the survivors and frees the others**, in the order of the list. -/
theorem gcSweepLoop_spec {live : Addr → Bool} (last : Option Addr) (freed : List Addr)
    (h : SweepInv orig kept rest st) (hlast : ∀ l, kept.getLast? = some l → last = some l)
    (hlive : ∀ a ∈ rest, ∀ c, orig a = some c → c.Survives = live a)
    (hfits : ∀ a ∈ rest, ∀ c, orig a = some c → c.Fits) :
    ∃ st', (∀ n > rest.length,
        gcSweepLoop n rest.head? last st freed = .ok (st', freed ++ rest.filter (!live ·))) ∧
      SweepInv orig (kept ++ rest.filter live) [] st' := by
  induction rest generalizing st kept last freed with
  | nil =>
    refine ⟨st, fun n hn => ?_, by simpa using h⟩
    obtain ⟨n, rfl⟩ : ∃ k, n = k + 1 := ⟨n - 1, by omega⟩
    simp [gcSweepLoop]
  | cons a rest ih =>
    obtain ⟨c, hc⟩ := Option.isSome_iff_exists.mp ((h.mem a).mpr (by simp))
    have horig := (h.unswept a List.mem_cons_self).symm.trans hc
    have hlink : c.link = rest.head? := by
      obtain ⟨m, -, rfl, c', hc', htail⟩ := seg_append.mp h.seg
      obtain rfl := Option.some.inj (hc.symm.trans hc')
      cases rest with
      | nil => exact htail
      | cons b rest => exact htail.1
    have hlive' := fun b hb => hlive b (List.mem_cons_of_mem a hb)
    have hfits' := fun b hb => hfits b (List.mem_cons_of_mem a hb)
    have hsurv := hlive a List.mem_cons_self c horig
    cases hl : live a with
    | true =>
      -- whatever keeps the object, the store is as if its mark had been cleared
      obtain ⟨st', hloop, hinv⟩ := ih (some a) freed (h.keep hc) (by simp) hlive' hfits'
      refine ⟨st', fun n hn => ?_, by simpa [hl] using hinv⟩
      obtain ⟨n, rfl⟩ : ∃ k, n = k + 1 := ⟨n - 1, by omega⟩
      have hrest := hloop n (by simpa using hn)
      rw [List.head?_cons, gcSweepLoop, Store.load_eq _ hc, ok_bind, hlink]
      cases hmark : c.mark with
      | true => simpa [hl, hlink] using hrest
      | false =>
        have hself : st.setCell a { c with mark := false } = st := by
          rw [show { c with mark := false } = c by rw [← hmark], Store.setCell, ← hc,
            Function.update_eq_self]
        rw [hself] at hrest
        rw [if_neg Bool.false_ne_true]
        split_ifs with hprotect hsymbol
        · simpa [hl] using hrest
        · simpa [hl] using hrest
        · simp [Cell.Survives, hmark, hprotect, hsymbol, hl] at hsurv
    | false =>
      rw [hl, Cell.Survives, Bool.or_eq_false_iff, Bool.or_eq_false_iff] at hsurv
      obtain ⟨⟨hmark, hprotect⟩, hsymbol⟩ := hsurv
      obtain ⟨st₁, st₂, hunlink, hfree, hinv⟩ := h.drop hlast hc
        (hfits a List.mem_cons_self c horig)
      obtain ⟨st', hloop, hinv'⟩ := ih last (freed ++ [a]) hinv hlast hlive' hfits'
      refine ⟨st', fun n hn => ?_, by simpa [hl] using hinv'⟩
      obtain ⟨n, rfl⟩ : ∃ k, n = k + 1 := ⟨n - 1, by omega⟩
      rw [List.head?_cons, gcSweepLoop, Store.load_eq _ hc, ok_bind, if_neg (by simp [hmark]),
        if_neg (by simp [hprotect]), if_neg (by simpa using hsymbol), hunlink, ok_bind, hfree,
        ok_bind, hlink, hloop n (by simpa using hn)]
      simp [hl]

end Sweep

/-! ### A collection -/

/-- An object can be reached from the symbols and objects of the bindings and from the
guards of the active scopes. -/
def Store.Reachable (st : Store) (a : Addr) : Prop :=
  ∃ r, .obj (.ptr r) ∈ st.rootWords ++ st.rootSymbols ∧ ReflTransGen st.Follows r a

/-- An object should survive a collection. -/
def Store.Kept (st : Store) (a : Addr) : Prop :=
  st.Reachable a ∨ ∃ c, st.cells a = some c ∧ (c.protect = true ∨ c.type = .naviSymbol)

section Collect

variable {L : ScopeLayout} {st : Store} {n : ℕ} {a : Addr} {c : Cell}

/-- Reaching an object through words is reaching it through objects. -/
theorem Store.Sound.reaches_iff (h : st.Sound) :
    (∃ w ∈ st.rootWords, ReflTransGen (Edge (wordSucc L st)) w (.obj (.ptr a))) ↔
      st.Reaches a := by
  constructor
  · rintro ⟨w, hw, hreach⟩
    exact (h.markOk hw hreach).2 a rfl
  · rintro ⟨r, hr, hra⟩
    refine ⟨_, hr, hra.lift (fun a => Word.obj (.ptr a)) ?_⟩
    rintro x y ⟨c, hc, hy⟩
    show .obj (.ptr y) ∈ wordSucc L st (.obj (.ptr x))
    rw [wordSucc, hc]
    exact hy

theorem Store.Sound.symbol_of_rootSymbols (h : st.Sound)
    (ha : .obj (.ptr a) ∈ st.rootSymbols) (hc : st.cells a = some c) : c.type = .naviSymbol := by
  obtain ⟨s, hs, ha⟩ := List.mem_flatMap.mp ha
  obtain ⟨sc, hsc, hsym⟩ := h.scope s hs
  rw [Store.scopeSymbols, hsc] at ha
  obtain ⟨b, hb, hba⟩ := List.mem_map.mp ha
  obtain ⟨x, cx, hx, hcx, htype⟩ := hsym b hb
  obtain rfl : x = a := by simpa [hx] using hba
  obtain rfl := Option.some.inj (hc.symm.trans hcx)
  exact htype

/-- Nothing follows a symbol. -/
theorem Store.Sound.reachable_iff (h : st.Sound) (hc : st.cells a = some c)
    (hsym : c.type ≠ .naviSymbol) : st.Reachable a ↔ st.Reaches a := by
  constructor
  · rintro ⟨r, hr, hra⟩
    rcases List.mem_append.mp hr with hr | hr
    · exact ⟨r, hr, hra⟩
    · rcases hra.cases_head with rfl | ⟨b, ⟨cr, hcr, hb⟩, -⟩
      · exact absurd (h.symbol_of_rootSymbols hr hc) hsym
      · rw [Cell.followed, h.symbol_of_rootSymbols hr hcr] at hb
        exact absurd hb List.not_mem_nil
  · rintro ⟨r, hr, hra⟩
    exact ⟨r, List.mem_append_left _ hr, hra⟩

/-- **What survives after marking** is what should. -/
theorem Store.Sound.survives_iff (h : st.Sound) {visited : List Word}
    (hvisit : visitAll (wordSucc L st) n st.rootWords = some visited)
    (hc : st.cells a = some c) (hclear : c.mark = false) {c' : Cell}
    (hc' : (st.withMarks (st.rootSymbols ++ visited.flatMap (markedBy L st))).cells a = some c') :
    c'.Survives = true ↔ st.Kept a := by
  rw [cells_withMarks hc, Option.some.injEq] at hc'
  subst hc'
  have hkept : st.Kept a ↔ st.Reaches a ∨ c.protect = true ∨ c.type = .naviSymbol := by
    have hobj : (∃ c', st.cells a = some c' ∧ (c'.protect = true ∨ c'.type = .naviSymbol)) ↔
        (c.protect = true ∨ c.type = .naviSymbol) := by simp [hc]
    rw [Store.Kept, hobj]
    by_cases hsym : c.type = .naviSymbol
    · simp [hsym]
    · rw [h.reachable_iff hc hsym]
  have hvisited : .obj (.ptr a) ∈ visited ↔ st.Reaches a := by
    rw [mem_visitAll_iff hvisit, h.reaches_iff]
  simp only [Cell.Survives, hclear, Bool.false_or, Bool.or_eq_true, decide_eq_true_eq,
    List.mem_append, List.mem_flatMap, or_assoc]
  rw [hkept]
  constructor
  · rintro (hroot | ⟨v, hv, hmarked⟩ | hsurv)
    · exact .inr (.inr (h.symbol_of_rootSymbols hroot hc))
    · cases v with
      | unassigned => exact absurd hmarked List.not_mem_nil
      | other => exact absurd hmarked List.not_mem_nil
      | scope s =>
        rw [markedBy] at hmarked
        split_ifs at hmarked
        · simp at hmarked
        · exact absurd hmarked List.not_mem_nil
      | obj o =>
        cases o with
        | ptr x =>
          rw [markedBy] at hmarked
          split at hmarked
          · rename_i cx hcx
            have hx : st.Reaches x := by
              obtain ⟨w, hw, hreach⟩ := (mem_visitAll_iff hvisit).mp hv
              exact (h.markOk hw hreach).2 x rfl
            rcases List.mem_cons.mp hmarked with hax | hname
            · obtain rfl : a = x := by simpa using hax
              exact .inl hx
            · obtain ⟨o, ho, hoa⟩ : ∃ o, cx.procName = some o ∧ o = .ptr a := by
                simpa using hname
              obtain ⟨y, cy, hy, hcy, htype⟩ := h.name hx cx hcx o ho
              obtain rfl : y = a := by simpa [hoa] using hy.symm
              obtain rfl := Option.some.inj (hc.symm.trans hcy)
              exact .inr (.inr htype)
          · exact absurd hmarked List.not_mem_nil
        | _ => exact absurd hmarked List.not_mem_nil
    · exact .inr hsurv
  · rintro (hreach | hsurv)
    · exact .inr (.inl ⟨_, hvisited.mpr hreach, by simp [markedBy, hc]⟩)
    · exact .inr (.inr hsurv)

open Classical in
/-- **The effect of a collection.** In a sound store without marks, from whose roots no cycle
can be reached, a collection ends. It leaves the objects that should survive on the heap
list, in their order, unmarked and with their contents, and frees the others once each. -/
theorem doGcCollect_spec (L : ScopeLayout) {objs : List Addr} (hlist : st.HeapList objs)
    (h : st.Sound) (hclear : ∀ a c, st.cells a = some c → c.mark = false)
    (hacyc : ∀ a, st.Reachable a → ¬ TransGen st.Follows a a) :
    ∃ n st', (∀ m ≥ n, doGcCollect L m st = .ok (st', objs.filter fun a => ¬ st.Kept a)) ∧
      (objs.filter fun a => ¬ st.Kept a).Nodup ∧
      st'.HeapList (objs.filter fun a => st.Kept a) ∧
      ∀ a c', st'.cells a = some c' → c'.mark = false ∧
        ∃ c, st.cells a = some c ∧ c' = { c with link := c'.link } := by
  have hfin : {a | (st.cells a).isSome}.Finite :=
    objs.finite_toSet.subset fun a ha => (hlist.mem a).mp ha
  obtain ⟨n, st₁, hmark⟩ := (gcMark_terminates_iff L h hfin).mpr fun a ⟨r, hr, hra⟩ =>
    hacyc a ⟨r, List.mem_append_left _ hr, hra⟩
  rw [gcMark_eq h] at hmark
  cases hvisit : visitAll (wordSucc L st) n st.rootWords with
  | none => exact absurd hmark (by simp [hvisit, markResult])
  | some visited =>
    rw [hvisit] at hmark
    obtain rfl := Except.ok.inj hmark
    set st₁ := st.withMarks (st.rootSymbols ++ visited.flatMap (markedBy L st)) with hst₁
    have hmarks : ∀ m ≥ n, gcMark L m st = .ok st₁ := fun m hm => by
      rw [gcMark_eq h, visitAll_mono hm hvisit]
      rfl
    have hcells : ∀ a, (st₁.cells a).map Cell.link = (st.cells a).map Cell.link := fun a => by
      rw [hst₁, Store.withMarks, Option.map_map]
      rfl
    have hinv : SweepInv st₁.cells [] objs st₁ := by
      refine ⟨hlist.seg.congr fun a _ => hcells a, fun a => ?_, by simp, fun a _ => rfl⟩
      rw [List.nil_append, ← hlist.mem]
      simpa using congrArg Option.isSome (hcells a)
    have horig : ∀ a c', st₁.cells a = some c' →
        ∃ c, st.cells a = some c ∧ c' = { c with mark := c'.mark } := fun a c' hc' => by
      obtain ⟨c, hc, rfl⟩ := Option.map_eq_some_iff.mp hc'
      exact ⟨c, hc, rfl⟩
    have hlive : ∀ a ∈ objs, ∀ c', st₁.cells a = some c' → c'.Survives = decide (st.Kept a) :=
      fun a _ c' hc' => by
        obtain ⟨c, hc, -⟩ := horig a c' hc'
        exact Bool.eq_iff_iff.mpr ((h.survives_iff hvisit hc (hclear a c hc) hc').trans (by simp))
    have hfits : ∀ a ∈ objs, ∀ c', st₁.cells a = some c' → c'.Fits := fun a _ c' hc' => by
      obtain ⟨c, hc, rfl⟩ := Option.map_eq_some_iff.mp hc'
      obtain ⟨hthunk, hproc, henvironment⟩ := h.fits a c hc
      exact ⟨hthunk, hproc, henvironment⟩
    obtain ⟨st', hsweep, hinv'⟩ := gcSweepLoop_spec st₁.first [] hinv
      (by simp) hlive hfits
    refine ⟨max n (objs.length + 1), st', fun m hm => ?_, ?_, ⟨?_, fun a => ?_⟩,
      fun a c' hc' => ?_⟩
    · have hfirst : st₁.first = objs.head? := by
        cases objs with
        | nil => exact hinv.seg
        | cons a objs => exact hinv.seg.1
      rw [← hfirst] at hsweep
      rw [doGcCollect, hmarks m (by omega), ok_bind, gcSweep, hsweep m (by omega)]
      simp
    · exact hlist.seg.nodup.filter _
    · simpa using hinv'.seg
    · simpa using hinv'.mem a
    · have hmem := (hinv'.mem a).mp (by rw [hc', Option.isSome_some])
      obtain ⟨c₀, c, hc₀, hc, hswept⟩ := hinv'.swept a (by simpa using hmem)
      obtain rfl := Option.some.inj (hc'.symm.trans hc)
      obtain ⟨c₁, hc₁, hmarked⟩ := horig a c₀ hc₀
      refine ⟨by rw [hswept], c₁, hc₁, ?_⟩
      have hclear₁ := hclear a c₁ hc₁
      rw [hswept, hmarked, ← hclear₁]

end Collect

/-! ### A small collection -/

/-- A heap with a symbol, a pair bound to it, a bounce that is guarded, and a pair that is
garbage, first on the list. -/
def bounceStore : Store where
  first := some (.obj 2)
  cells a :=
    if a = .obj 0 then some ⟨none, .naviSymbol, false, false, .symbol "x" true⟩
    else if a = .obj 1 then
      some ⟨some (.obj 0), .naviPair, false, false, .pair (some (.ptr (.obj 0))) (some .nil)⟩
    else if a = .thunk 0 then
      some ⟨some (.obj 1), .naviBounce, false, false, .thunk (.ptr (.obj 1)) ⟨0, 0⟩⟩
    else if a = .obj 2 then
      some ⟨some (.thunk 0), .naviPair, false, false, .pair (some .nil) (some (.ptr (.obj 1)))⟩
    else none
  active := [0]
  scopes s :=
    if s = 0 then
      some ⟨none, 3, [⟨0, .ptr (.thunk 0)⟩], [⟨.ptr (.obj 0), .ptr (.obj 1)⟩], false⟩
    else none
  symtab := [("x", .obj 0)]

theorem bounceStore_cells {a : Addr} {c : Cell} (h : bounceStore.cells a = some c) :
    (a = .obj 0 ∧ c = ⟨none, .naviSymbol, false, false, .symbol "x" true⟩) ∨
      (a = .obj 1 ∧ c =
        ⟨some (.obj 0), .naviPair, false, false, .pair (some (.ptr (.obj 0))) (some .nil)⟩) ∨
      (a = .thunk 0 ∧ c =
        ⟨some (.obj 1), .naviBounce, false, false, .thunk (.ptr (.obj 1)) ⟨0, 0⟩⟩) ∨
      (a = .obj 2 ∧ c =
        ⟨some (.thunk 0), .naviPair, false, false, .pair (some .nil) (some (.ptr (.obj 1)))⟩) := by
  simp only [bounceStore] at h
  split_ifs at h with h0 h1 h2 h3
  · exact .inl ⟨h0, (Option.some.inj h).symm⟩
  · exact .inr (.inl ⟨h1, (Option.some.inj h).symm⟩)
  · exact .inr (.inr (.inl ⟨h2, (Option.some.inj h).symm⟩))
  · exact .inr (.inr (.inr ⟨h3, (Option.some.inj h).symm⟩))

theorem bounceStore_follows {a b : Addr} (h : bounceStore.Follows a b) :
    (a = .obj 1 ∧ b = .obj 0) ∨ (a = .thunk 0 ∧ b = .obj 1) ∨ (a = .obj 2 ∧ b = .obj 1) := by
  obtain ⟨c, hc, hw⟩ := h
  rcases bounceStore_cells hc with ⟨rfl, rfl⟩ | ⟨rfl, rfl⟩ | ⟨rfl, rfl⟩ | ⟨rfl, rfl⟩ <;>
    simp_all [Cell.followed, Data.car, Data.cdr, Word.ofField]

theorem bounceStore_sound : bounceStore.Sound where
  scope := by
    intro s hs
    obtain rfl : s = 0 := List.mem_singleton.mp hs
    refine ⟨_, rfl, fun b hb => ?_⟩
    obtain rfl := List.mem_singleton.mp hb
    exact ⟨.obj 0, _, rfl, rfl, rfl⟩
  roots := by
    intro w hw
    obtain rfl | rfl : w = .obj (.ptr (.obj 1)) ∨ w = .obj (.ptr (.thunk 0)) := by
      simpa [bounceStore, Store.rootWords, Store.scopeWords] using hw
    · rfl
    · rfl
  marked := by
    intro a _ c hc
    rcases bounceStore_cells hc with ⟨-, rfl⟩ | ⟨-, rfl⟩ | ⟨-, rfl⟩ | ⟨-, rfl⟩ <;>
      simp [NaviType.Marked]
  followed := by
    intro a _ c hc w hw
    rcases bounceStore_cells hc with ⟨-, rfl⟩ | ⟨-, rfl⟩ | ⟨-, rfl⟩ | ⟨-, rfl⟩
    · exact absurd hw List.not_mem_nil
    all_goals
      rcases List.mem_pair.mp hw with rfl | rfl <;> trivial
  name := by
    intro a _ c hc o ho
    rcases bounceStore_cells hc with ⟨-, rfl⟩ | ⟨-, rfl⟩ | ⟨-, rfl⟩ | ⟨-, rfl⟩ <;>
      exact absurd ho (by simp [Cell.procName])
  next := by
    intro s sc hsc s' hs'
    simp only [bounceStore] at hsc
    split_ifs at hsc
    obtain rfl := Option.some.inj hsc
    exact absurd hs' (by simp)
  fits := by
    intro a c hc
    rcases bounceStore_cells hc with ⟨-, rfl⟩ | ⟨-, rfl⟩ | ⟨-, rfl⟩ | ⟨-, rfl⟩ <;>
      exact ⟨by simp, by simp, by simp⟩

theorem bounceStore_heapList :
    bounceStore.HeapList [.obj 2, .thunk 0, .obj 1, .obj 0] where
  seg := ⟨rfl, _, rfl, rfl, _, rfl, rfl, _, rfl, rfl, _, rfl, rfl⟩
  mem := by
    intro a
    constructor
    · intro ha
      obtain ⟨c, hc⟩ := Option.isSome_iff_exists.mp ha
      rcases bounceStore_cells hc with ⟨rfl, -⟩ | ⟨rfl, -⟩ | ⟨rfl, -⟩ | ⟨rfl, -⟩ <;> simp
    · intro ha
      simp only [List.mem_cons, List.not_mem_nil, or_false] at ha
      rcases ha with rfl | rfl | rfl | rfl <;> rfl

theorem bounceStore_acyclic (a : Addr) : ¬ TransGen bounceStore.Follows a a := by
  -- each object follows objects of a lesser rank only
  let rank : Addr → ℕ := fun a => if a = .obj 0 then 0 else if a = .obj 1 then 1 else 2
  have hrank : ∀ {a b}, TransGen bounceStore.Follows a b → rank b < rank a := by
    intro a b h
    induction h with
    | single h => rcases bounceStore_follows h with ⟨rfl, rfl⟩ | ⟨rfl, rfl⟩ | ⟨rfl, rfl⟩ <;> decide
    | tail _ h ih =>
      refine lt_trans ?_ ih
      rcases bounceStore_follows h with ⟨rfl, rfl⟩ | ⟨rfl, rfl⟩ | ⟨rfl, rfl⟩ <;> decide
  exact fun h => (hrank h).false

theorem bounceStore_kept (a : Addr) :
    bounceStore.Kept a ↔ a = .obj 0 ∨ a = .obj 1 ∨ a = .thunk 0 := by
  have hroots : bounceStore.rootWords ++ bounceStore.rootSymbols =
      [.obj (.ptr (.obj 1)), .obj (.ptr (.thunk 0)), .obj (.ptr (.obj 0))] := rfl
  constructor
  · rintro (⟨r, hr, hra⟩ | ⟨c, hc, hkept⟩)
    · rcases hra.cases_tail with rfl | ⟨b, -, hb⟩
      · rw [hroots] at hr
        simp only [List.mem_cons, List.not_mem_nil, or_false, Word.obj.injEq,
          NaviObj.ptr.injEq] at hr
        tauto
      · rcases bounceStore_follows hb with ⟨-, rfl⟩ | ⟨-, rfl⟩ | ⟨-, rfl⟩ <;> simp
    · rcases bounceStore_cells hc with ⟨rfl, rfl⟩ | ⟨rfl, rfl⟩ | ⟨rfl, rfl⟩ | ⟨rfl, rfl⟩ <;>
        simp_all
  · rintro (rfl | rfl | rfl) <;> exact .inl ⟨_, by rw [hroots]; simp, .refl⟩

/-- The garbage is freed, and the others stay. -/
theorem doGcCollect_spec_bounce :
    ∃ n st', (∀ m ≥ n, doGcCollect .spaced m bounceStore = .ok (st', [.obj 2])) ∧
      st'.HeapList [.thunk 0, .obj 1, .obj 0] := by
  obtain ⟨n, st', hcollect, -, hlist, -⟩ := doGcCollect_spec .spaced bounceStore_heapList
    bounceStore_sound (fun a c hc => by
      rcases bounceStore_cells hc with ⟨-, rfl⟩ | ⟨-, rfl⟩ | ⟨-, rfl⟩ | ⟨-, rfl⟩ <;> rfl)
    fun a _ => bounceStore_acyclic a
  simp only [bounceStore_kept] at hcollect hlist
  exact ⟨n, st', by simpa using hcollect, by simpa using hlist⟩

end NaviScheme
