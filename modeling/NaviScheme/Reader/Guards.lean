import Mathlib.Data.List.Sublists
import Mathlib.Logic.Relation
import NaviScheme.Heap.Object
import NaviScheme.Reader.Gap

/-!
# The guards of the reader

`read_list` guards the first pair that it makes, in `env.lexical`, and removes the guard when it
meets the closing parenthesis. Here the readers run with the guards beside the port; without them,
they are those of `read.c` (`NaviScheme.erases_guarded`).

Behind a dot, `read_list` returns at once, and the guard stays. So the guards are as they were
exactly if `navi_read` comes to no dot behind an element of a list
(`NaviScheme.naviRead_guards_iff`).
-/

namespace NaviScheme

open Fuel

/-- A port, and the guards that are attached to `env.lexical`. -/
structure Guarded where
  /-- the port -/
  port : Port
  /-- `guards` -/
  guards : List NaviGuard
  /-- the number of the next guard, or pair -/
  next : ℕ

/-- A function of the reader that may guard objects. -/
abbrev GuardM := StateT Guarded (Except ReadExn)

/-- A function that uses the port only. -/
def onPort {α : Type} (f : ReadM α) : GuardM α := fun s => do
  let (a, port) ← f s.port
  return (a, { s with port })

/-- `navi_is_immediate` -/
def NaviObj.isImmediate : NaviObj → Bool
  | .ptr _ => false
  | _ => true

/-- `navi_make_empty_pair` -/
def makeEmptyPair : GuardM NaviObj := fun s =>
  .ok (.ptr (.obj s.next), { s with next := s.next + 1 })

/-- `navi_gc_guard` -/
def gcGuard (obj : NaviObj) : GuardM (Option NaviGuard) := fun s =>
  if obj.isImmediate then .ok (none, s)
  else .ok (some ⟨s.next, obj⟩, { s with guards := ⟨s.next, obj⟩ :: s.guards, next := s.next + 1 })

/-- What is left of some guards without one of them. -/
def without : Option NaviGuard → List NaviGuard → List NaviGuard
  | none, guards => guards
  | some guard, guards => guards.erase guard

/-- `navi_gc_unguard` -/
def gcUnguard (guard : Option NaviGuard) : GuardM Unit := fun s =>
  .ok ((), { s with guards := without guard s.guards })

/-- The end of a round of `read_list`, which makes a pair for the element: `if (!guard)` -/
def guardElement (guard : Option NaviGuard) : GuardM (Option NaviGuard) := do
  let cdr ← makeEmptyPair
  match guard with
  | none => gcGuard cdr
  | some guard => return some guard

variable (X : ReadEnv)

mutual

/-- `navi_read`, behind `readHead` as `readNext` is. -/
def naviReadGuarded : ℕ → GuardM Datum
  | 0 => throw (.fault .timeout)
  | n + 1 => do
    match ← onPort (readHead n) with
    | .done d => return d
    | .string => onPort (readString X n)
    | .wrap symbol => do
      let expr ← naviReadGuarded n
      return naviSymWrap symbol expr
    | .sharp => do
      let expr ← readSharpGuarded n
      if expr.isVoid then naviReadGuarded n else return expr
    | .list => readListGuarded n [] none
    | .again => naviReadGuarded n

/-- `read_sharp`, behind `sharpHead` as `sharpNext` is. -/
def readSharpGuarded : ℕ → GuardM Datum
  | 0 => throw (.fault .timeout)
  | n + 1 => do
    match ← onPort (sharpHead X n) with
    | .done d => return d
    | .vector => do
      let list ← readListGuarded n [] none
      return .vector list.elements
    | .bytevec => do
      let list ← readListGuarded n [] none
      onPort (naviListToBytevec list)
    | .internal => do
      let symbol ← naviReadGuarded n
      onPort (X.naviGetInternal symbol)
    | .comment => do
      let _ ← naviReadGuarded n
      return .void

/-- The loop of `read_list`, with the guard, behind `listHead` as `listNext` is. -/
def readListGuarded : ℕ → List Datum → Option NaviGuard → GuardM Datum
  | 0, _, _ => throw (.fault .timeout)
  | n + 1, elms, guard => do
    match ← onPort (listHead n) with
    | .close => do
      gcUnguard guard
      return Datum.listTail elms .nil
    | .last => do
      let last ← naviReadGuarded n
      let c ← onPort (peekFirstChar n)
      if toChar c = ascii ')' then do
        let _ ← onPort readChar
        -- `return head.cdr`, past the `navi_gc_unguard` at the end
        return Datum.listTail elms last
      else throw (naviReadError "missing list terminator" [])
    | .symbol expr => do
      let guard ← guardElement guard
      readListGuarded n (elms ++ [expr]) guard
    | .sharp => do
      let expr ← readSharpGuarded n
      if expr.isVoid then readListGuarded n elms guard
      else do
        let guard ← guardElement guard
        readListGuarded n (elms ++ [expr]) guard
    | .skip => readListGuarded n elms guard
    | .element => do
      let expr ← naviReadGuarded n
      if expr.isEof then throw unexpectedEof
      else do
        let guard ← guardElement guard
        readListGuarded n (elms ++ [expr]) guard

end

/-! ### Without the guards -/

/-- A function does to the port what another one does. -/
def Erases {α : Type} (f : GuardM α) (g : ReadM α) : Prop :=
  ∀ s, (f s).map (fun r => (r.1, r.2.port)) = g s.port

namespace Erases

variable {α β : Type} {f f' : GuardM α} {g g' : ReadM α} {k : α → GuardM β} {l : α → ReadM β}

theorem pure (a : α) : Erases (Pure.pure a) (Pure.pure a) := fun _ => rfl

theorem throw (e : ReadExn) : Erases (throw e : GuardM α) (throw e) := fun _ => rfl

theorem onPort (g : ReadM α) : Erases (onPort g) g := by
  intro s
  change ((g s.port >>= fun r => _) : Except _ _).map _ = _
  cases g s.port <;> rfl

theorem bind (h : Erases f g) (hk : ∀ a, Erases (k a) (l a)) :
    Erases (f >>= k) (g >>= l) := by
  intro s
  have hs := h s
  change ((f s >>= fun r => k r.1 r.2) : Except _ _).map _ = g s.port >>= fun r => l r.1 r.2
  rw [← hs]
  cases f s with
  | error e => rfl
  | ok r => exact hk r.1 r.2

/-- A function that leaves the port alone. -/
theorem skip {m : GuardM α} {k : α → GuardM β} {l : ReadM β}
    (hm : ∀ s, ∃ a s', m s = .ok (a, s') ∧ s'.port = s.port) (hk : ∀ a, Erases (k a) l) :
    Erases (m >>= k) l := by
  intro s
  obtain ⟨a, s', hm, hport⟩ := hm s
  change ((m s >>= fun r => k r.1 r.2) : Except _ _).map _ = _
  rw [hm, ok_bind, ← hport]
  exact hk a s'

theorem ite {c : Prop} [Decidable c] (h : Erases f g) (h' : Erases f' g') :
    Erases (if c then f else f') (if c then g else g') := by
  by_cases hc : c
  · rwa [if_pos hc, if_pos hc]
  · rwa [if_neg hc, if_neg hc]

end Erases

theorem guardElement_port (guard : Option NaviGuard) (s : Guarded) :
    ∃ g s', guardElement guard s = .ok (g, s') ∧ s'.port = s.port := by
  cases guard with
  | none => exact ⟨_, _, rfl, rfl⟩
  | some g => exact ⟨_, _, rfl, rfl⟩

/-- **The readers with guards are those of `read.c`**, but for the guards. -/
theorem erases_guarded (n : ℕ) :
    Erases (naviReadGuarded X n) (naviRead X n) ∧ Erases (readSharpGuarded X n) (readSharp X n) ∧
      ∀ elms guard, Erases (readListGuarded X n elms guard) (readList X n elms) := by
  induction n with
  | zero => exact ⟨.throw _, .throw _, fun _ _ => .throw _⟩
  | succ n ih =>
    obtain ⟨hread, hsharp, hlist⟩ := ih
    refine ⟨?_, ?_, fun elms guard => ?_⟩
    · rw [naviReadGuarded, naviRead_succ]
      refine .bind (.onPort _) fun next => ?_
      cases next with
      | done d => exact .pure d
      | string => exact .onPort _
      | wrap symbol => exact .bind hread fun _ => .pure _
      | sharp => exact .bind hsharp fun _ => .ite hread (.pure _)
      | list => exact hlist _ _
      | again => exact hread
    · rw [readSharpGuarded, readSharp_succ]
      refine .bind (.onPort _) fun next => ?_
      cases next with
      | done d => exact .pure d
      | vector => exact .bind (hlist _ _) fun _ => .pure _
      | bytevec => exact .bind (hlist _ _) fun _ => .onPort _
      | internal => exact .bind hread fun _ => .onPort _
      | comment => exact .bind hread fun _ => .pure _
    · rw [readListGuarded, readList_succ]
      refine .bind (.onPort _) fun next => ?_
      have helement : ∀ expr, Erases (guardElement guard >>= fun guard =>
          readListGuarded X n (elms ++ [expr]) guard) (readList X n (elms ++ [expr])) :=
        fun expr => .skip (guardElement_port guard) fun _ => hlist _ _
      cases next with
      | close => exact .skip (fun s => ⟨_, _, rfl, rfl⟩) fun _ => .pure _
      | last =>
        exact .bind hread fun _ => .bind (.onPort _) fun _ =>
          .ite (.bind (.onPort _) fun _ => .pure _) (.throw _)
      | symbol expr => exact helement expr
      | sharp => exact .bind hsharp fun _ => .ite (hlist _ _) (helement _)
      | skip => exact hlist _ _
      | element => exact .bind hread fun _ => .ite (.throw _) (helement _)

/-! ### A dot behind an element -/

/-- A call of a reader, and another one that it makes. -/
inductive CallStep : Call × Port → Call × Port → Prop
  | enters {c c' : Call} {p q : Port} (h : Enters X c p c' q) : CallStep (c, p) (c', q)
  /-- an element -/
  | element {p q : Port} {elms : List Datum} (h : Converges listHead p (.ok (.element, q))) :
    CallStep (.list elms, p) (.read, q)

/-- The loop of `read_list` is at a dot that stands alone, behind an element. -/
def AtDot : Call → Port → Prop
  | .list elms, p => elms ≠ [] ∧ ∃ q, Converges listHead p (.ok (.last, q))
  | _, _ => False

/-- **A call comes to a dot behind an element**, at some depth. -/
def MeetsDot (c : Call) (p : Port) : Prop :=
  ∃ c' q, Relation.ReflTransGen (CallStep X) (c, p) (c', q) ∧ AtDot c' q

section

variable {X} {c : Call} {p q q' : Port} {elms : List Datum} {d : Datum}

theorem meetsDot_iff :
    MeetsDot X c p ↔ AtDot c p ∨ ∃ c' q, CallStep X (c, p) (c', q) ∧ MeetsDot X c' q := by
  constructor
  · rintro ⟨c', q, hstar, hdot⟩
    rcases Relation.ReflTransGen.cases_head hstar with heq | ⟨⟨c₁, q₁⟩, hstep, hstar⟩
    · cases heq
      exact .inl hdot
    · exact .inr ⟨c₁, q₁, hstep, c', q, hstar, hdot⟩
  · rintro (hdot | ⟨c₁, q₁, hstep, c', q, hstar, hdot⟩)
    · exact ⟨c, p, .refl, hdot⟩
    · exact ⟨c', q, .head hstep hstar, hdot⟩

/-- `navi_read`, by its head. -/
theorem meetsDot_read {next : ReadNext} (h : Converges readHead p (.ok (next, q))) :
    MeetsDot X .read p ↔ (∃ c, next.call = some c ∧ MeetsDot X c q) ∨
      next = .sharp ∧ ∃ d q', Converges (readSharp X) q (.ok (d, q')) ∧ d.isVoid = true ∧
        MeetsDot X .read q' := by
  rw [meetsDot_iff]
  constructor
  · rintro (hdot | ⟨c', r, hstep, hmeets⟩)
    · exact hdot.elim
    · cases hstep with
      | enters hent =>
        cases hent with
        | read h' hc =>
          cases h.unique h'
          exact .inl ⟨_, hc, hmeets⟩
        | again h' hd hvoid =>
          cases h.unique h'
          exact .inr ⟨rfl, _, _, hd, hvoid, hmeets⟩
  · rintro (⟨c, hc, hmeets⟩ | ⟨rfl, d, q', hd, hvoid, hmeets⟩)
    · exact .inr ⟨c, q, .enters (.read h hc), hmeets⟩
    · exact .inr ⟨.read, q', .enters (.again h hd hvoid), hmeets⟩

/-- `read_sharp`, by its head. -/
theorem meetsDot_sharp {next : SharpNext} (h : Converges (sharpHead X) p (.ok (next, q))) :
    MeetsDot X .sharp p ↔ ∃ c, next.call = some c ∧ MeetsDot X c q := by
  rw [meetsDot_iff]
  constructor
  · rintro (hdot | ⟨c', r, hstep, hmeets⟩)
    · exact hdot.elim
    · cases hstep with
      | enters hent =>
        cases hent with
        | sharp h' hc =>
          cases h.unique h'
          exact ⟨_, hc, hmeets⟩
  · rintro ⟨c, hc, hmeets⟩
    exact .inr ⟨c, q, .enters (.sharp h hc), hmeets⟩

/-- `read_list`, by its head. -/
theorem meetsDot_list {next : ListNext} (h : Converges listHead p (.ok (next, q))) :
    MeetsDot X (.list elms) p ↔ elms ≠ [] ∧ next = .last ∨
      (∃ c, next.call elms = some c ∧ MeetsDot X c q) ∨
      (next = .sharp ∧ ∃ d q', Converges (readSharp X) q (.ok (d, q')) ∧
        MeetsDot X (.list (if d.isVoid then elms else elms ++ [d])) q') ∨
      next = .element ∧ ∃ d q', Converges (naviRead X) q (.ok (d, q')) ∧ d.isEof = false ∧
        MeetsDot X (.list (elms ++ [d])) q' := by
  rw [meetsDot_iff]
  constructor
  · rintro (⟨hne, q', hlast⟩ | ⟨c', r, hstep, hmeets⟩)
    · cases h.unique hlast
      exact .inl ⟨hne, rfl⟩
    · cases hstep with
      | enters hent =>
        cases hent with
        | list h' hc _ =>
          cases h.unique h'
          exact .inr (.inl ⟨_, hc, hmeets⟩)
        | listSharp h' hd =>
          cases h.unique h'
          exact .inr (.inr (.inl ⟨rfl, _, _, hd, hmeets⟩))
        | listElement h' hd heof =>
          cases h.unique h'
          exact .inr (.inr (.inr ⟨rfl, _, _, hd, heof, hmeets⟩))
      | element h' =>
        cases h.unique h'
        exact .inr (.inl ⟨_, rfl, hmeets⟩)
  · rintro (⟨hne, rfl⟩ | ⟨c, hc, hmeets⟩ | ⟨rfl, d, q', hd, hmeets⟩ |
      ⟨rfl, d, q', hd, heof, hmeets⟩)
    · exact .inl ⟨hne, q, h⟩
    · by_cases hnext : next = .element
      · subst hnext
        cases hc
        exact .inr ⟨.read, q, .element h, hmeets⟩
      · exact .inr ⟨c, q, .enters (.list h hc hnext), hmeets⟩
    · exact .inr ⟨_, q', .enters (.listSharp h hd), hmeets⟩
    · exact .inr ⟨_, q', .enters (.listElement h hd heof), hmeets⟩

end

/-! ### What is left of the guards -/

theorem without_sublist {gs gs' : List NaviGuard} (guard : Option NaviGuard)
    (h : gs.Sublist gs') : (without guard gs).Sublist (without guard gs') := by
  cases guard with
  | none => exact h
  | some g => exact h.erase g

/-- Nothing has been added if nothing has been but for a guard that was there. -/
theorem eq_of_without_eq {gs gs' : List NaviGuard} {guard : Option NaviGuard}
    (hguard : ∀ g ∈ guard, g ∈ gs) (h : gs.Sublist gs')
    (heq : without guard gs = without guard gs') : gs = gs' := by
  cases guard with
  | none => exact heq
  | some g =>
    have hg : g ∈ gs := hguard g rfl
    have hg' : g ∈ gs' := h.subset hg
    have hlen := congrArg List.length heq
    have := List.length_pos_of_mem hg
    have := List.length_pos_of_mem hg'
    rw [without, without, List.length_erase_of_mem hg, List.length_erase_of_mem hg'] at hlen
    exact h.eq_of_length (by omega)

/-- Guards are added, and only if `M`. -/
structure Adds (gs gs' : List NaviGuard) (M : Prop) : Prop where
  keeps : gs.Sublist gs'
  same : gs' = gs ↔ ¬ M

namespace Adds

variable {gs gs₁ gs₁' gs₂ : List NaviGuard} {M M' : Prop} {guard guard' : Option NaviGuard}

theorem refl (h : ¬ M) : Adds gs gs M := ⟨.refl gs, by simpa using h⟩

theorem congr (h : Adds gs gs₁ M) (hiff : M ↔ M') : Adds gs gs₁ M' :=
  ⟨h.keeps, by rw [h.same, hiff]⟩

/-- One call after another, in a list with a guard of its own. -/
theorem trans (hguard : ∀ g ∈ guard, g ∈ gs) (h : Adds gs gs₁ M)
    (hown : without guard' gs₁' = without guard gs₁) (h' : Adds (without guard' gs₁') gs₂ M') :
    Adds (without guard gs) gs₂ (M ∨ M') := by
  rw [hown] at h'
  have hsub := without_sublist guard h.keeps
  refine ⟨hsub.trans h'.keeps, ?_, ?_⟩
  · rintro rfl
    have hgs := eq_of_without_eq hguard h.keeps (hsub.antisymm h'.keeps)
    rw [not_or, ← h.same, ← h'.same]
    exact ⟨hgs.symm, congrArg _ hgs⟩
  · intro hM
    rw [not_or] at hM
    rw [h'.same.mpr hM.2, h.same.mpr hM.1]

/-- A guard that is not removed. -/
theorem leak {g : NaviGuard} (hg : g ∈ gs) (h : Adds gs gs₁ M) (hM' : M') :
    Adds (without (some g) gs) gs₁ M' := by
  refine ⟨List.erase_sublist.trans h.keeps, fun heq => absurd h.keeps.length_le ?_,
    fun hnot => absurd hM' hnot⟩
  have := List.length_pos_of_mem hg
  rw [heq, without, List.length_erase_of_mem hg]
  omega

end Adds

/-! ### The calls -/

section

variable {X} {n : ℕ} {s s' : Guarded} {d : Datum} {elms : List Datum} {guard : Option NaviGuard}

theorem bind_eq_ok_guardM {α β : Type} {m : GuardM α} {k : α → GuardM β} {r : β × Guarded}
    (h : (m >>= k) s = .ok r) : ∃ a s₁, m s = .ok (a, s₁) ∧ k a s₁ = .ok r := by
  obtain ⟨⟨a, s₁⟩, hm, hk⟩ := bind_eq_ok h
  exact ⟨a, s₁, hm, hk⟩

theorem onPort_eq_ok {α : Type} {f : ReadM α} {a : α} (h : onPort f s = .ok (a, s')) :
    f s.port = .ok (a, s'.port) ∧ s'.guards = s.guards := by
  obtain ⟨⟨b, q⟩, hf, hr⟩ := bind_eq_ok h
  cases hr
  exact ⟨hf, rfl⟩

theorem converges_of_erases {c : Call} {f : GuardM Datum} (hf : Erases f (c.run X n))
    (h : f s = .ok (d, s')) : Converges (c.run X) s.port (.ok (d, s'.port)) := by
  refine Local.converges (fun n => Call.local_run c n) (n := n) ?_
  rw [← hf s, h]
  rfl

/-- What a call returns is known. -/
theorem exists_converges_iff {f : ℕ → ReadM Datum} {p q : Port} {P : Datum → Port → Prop}
    (h : Converges f p (.ok (d, q))) :
    (∃ d' q', Converges f p (.ok (d', q')) ∧ P d' q') ↔ P d q := by
  refine ⟨?_, fun hP => ⟨d, q, h, hP⟩⟩
  rintro ⟨d', q', h', hP⟩
  cases h.unique h'
  exact hP

/-- What the calls leave, with a bound. -/
structure AddsAt (X : ReadEnv) (n : ℕ) : Prop where
  read : ∀ {s d s'}, naviReadGuarded X n s = .ok (d, s') →
    Adds s.guards s'.guards (MeetsDot X .read s.port)
  sharp : ∀ {s d s'}, readSharpGuarded X n s = .ok (d, s') →
    Adds s.guards s'.guards (MeetsDot X .sharp s.port)
  list : ∀ {elms guard s d s'}, (guard = none ↔ elms = []) → (∀ g ∈ guard, g ∈ s.guards) →
    readListGuarded X n elms guard s = .ok (d, s') →
      Adds (without guard s.guards) s'.guards (MeetsDot X (.list elms) s.port)

theorem AddsAt.naviRead (ih : AddsAt X n) (h : naviReadGuarded X (n + 1) s = .ok (d, s')) :
    Adds s.guards s'.guards (MeetsDot X .read s.port) := by
  rw [naviReadGuarded] at h
  obtain ⟨next, s₁, hhead, h⟩ := bind_eq_ok_guardM h
  obtain ⟨hhead, hguards⟩ := onPort_eq_ok hhead
  have hmeets := meetsDot_read (X := X) (Local.converges (fun _ => local_readHead) hhead)
  rw [← hguards]
  cases next with
  | done d' =>
    cases h
    exact .refl (by simp [hmeets, ReadNext.call])
  | string =>
    rw [(onPort_eq_ok h).2]
    exact .refl (by simp [hmeets, ReadNext.call])
  | wrap symbol =>
    obtain ⟨d', s₂, hread, h⟩ := bind_eq_ok_guardM h
    cases h
    exact (ih.read hread).congr (by simp [hmeets, ReadNext.call])
  | sharp =>
    obtain ⟨d', s₂, hsharp, h⟩ := bind_eq_ok_guardM h
    have hd : Converges (readSharp X) s₁.port (.ok (d', s₂.port)) :=
      converges_of_erases (c := .sharp) (erases_guarded X n).2.1 hsharp
    have hadds := ih.sharp hsharp
    rw [exists_converges_iff hd] at hmeets
    split at h
    · rename_i hvoid
      have hown : without none s₂.guards = without none s₂.guards := rfl
      exact (hadds.trans (by simp) hown (ih.read h)).congr
        (by simp [hmeets, ReadNext.call, hvoid])
    · rename_i hvoid
      cases h
      exact hadds.congr (by simp [hmeets, ReadNext.call, hvoid])
  | list =>
    exact (ih.list (by simp) (by simp) h).congr (by simp [hmeets, ReadNext.call])
  | again =>
    exact (ih.read h).congr (by simp [hmeets, ReadNext.call])

theorem AddsAt.readSharp (ih : AddsAt X n) (h : readSharpGuarded X (n + 1) s = .ok (d, s')) :
    Adds s.guards s'.guards (MeetsDot X .sharp s.port) := by
  rw [readSharpGuarded] at h
  obtain ⟨next, s₁, hhead, h⟩ := bind_eq_ok_guardM h
  obtain ⟨hhead, hguards⟩ := onPort_eq_ok hhead
  have hmeets := meetsDot_sharp (Local.converges (fun _ => (delimits_sharpHead X).toLocal) hhead)
  rw [← hguards]
  cases next with
  | done d' =>
    cases h
    exact .refl (by simp [hmeets, SharpNext.call])
  | vector =>
    obtain ⟨d', s₂, hlist, h⟩ := bind_eq_ok_guardM h
    cases h
    exact (ih.list (by simp) (by simp) hlist).congr (by simp [hmeets, SharpNext.call])
  | bytevec =>
    obtain ⟨d', s₂, hlist, h⟩ := bind_eq_ok_guardM h
    rw [(onPort_eq_ok h).2]
    exact (ih.list (by simp) (by simp) hlist).congr (by simp [hmeets, SharpNext.call])
  | internal =>
    obtain ⟨d', s₂, hread, h⟩ := bind_eq_ok_guardM h
    rw [(onPort_eq_ok h).2]
    exact (ih.read hread).congr (by simp [hmeets, SharpNext.call])
  | comment =>
    obtain ⟨d', s₂, hread, h⟩ := bind_eq_ok_guardM h
    cases h
    exact (ih.read hread).congr (by simp [hmeets, SharpNext.call])

/-- The guard of a list is there, if there is an element. -/
structure Owns (elms : List Datum) (guard : Option NaviGuard) (s : Guarded) : Prop where
  none_iff : guard = none ↔ elms = []
  mem : ∀ g ∈ guard, g ∈ s.guards

/-- The pair of an element, with the guard of the list. -/
theorem guardElement_owns (h : Owns elms guard s) {guard' : Option NaviGuard} {s' : Guarded}
    (hrun : guardElement guard s = .ok (guard', s')) (expr : Datum) :
    Owns (elms ++ [expr]) guard' s' ∧ without guard' s'.guards = without guard s.guards ∧
      s'.port = s.port := by
  cases guard with
  | none =>
    cases hrun
    refine ⟨⟨by simp, ?_⟩, ?_, rfl⟩
    · rintro g ⟨⟩
      exact List.mem_cons_self
    · exact List.erase_cons_head ..
  | some g =>
    cases hrun
    exact ⟨⟨by simp, h.mem⟩, rfl, rfl⟩

/-- Behind a dot, and the element that follows, nothing happens to the guards. -/
theorem guards_listEnd {elms : List Datum} {last : Datum}
    (h : (onPort (peekFirstChar n) >>= fun c => if toChar c = ascii ')' then
        (onPort readChar >>= fun _ => pure (Datum.listTail elms last) : GuardM Datum)
      else throw (naviReadError "missing list terminator" [])) s = .ok (d, s')) :
    s'.guards = s.guards := by
  obtain ⟨c, s₁, hpeek, h⟩ := bind_eq_ok_guardM h
  rw [← (onPort_eq_ok hpeek).2]
  split at h
  · obtain ⟨_, s₂, hread, h⟩ := bind_eq_ok_guardM h
    cases h
    exact (onPort_eq_ok hread).2
  · cases h

/-- The next round of a list. -/
theorem AddsAt.round (ih : AddsAt X n) (howns : Owns elms guard s)
    (h : readListGuarded X n elms guard s = .ok (d, s')) :
    Adds (without guard s.guards) s'.guards (MeetsDot X (.list elms) s.port) :=
  ih.list howns.none_iff howns.mem h

/-- An element that has been read, and the rounds behind it. -/
theorem AddsAt.element (ih : AddsAt X n) (howns : Owns elms guard s) {expr : Datum}
    (h : (guardElement guard >>= fun guard => readListGuarded X n (elms ++ [expr]) guard) s =
      .ok (d, s')) :
    Adds (without guard s.guards) s'.guards (MeetsDot X (.list (elms ++ [expr])) s.port) := by
  obtain ⟨guard', s₁, hguard, h⟩ := bind_eq_ok_guardM h
  obtain ⟨howns', hguards, hport⟩ := guardElement_owns howns hguard expr
  rw [← hguards, ← hport]
  exact ih.round howns' h

/-- More guards in front. -/
theorem Owns.of_adds {M : Prop} {s₁ : Guarded} (h : Owns elms guard s)
    (hadds : Adds s.guards s₁.guards M) : Owns elms guard s₁ :=
  ⟨h.none_iff, fun g hg => hadds.keeps.subset (h.mem g hg)⟩

theorem AddsAt.readList (ih : AddsAt X n) (howns : Owns elms guard s)
    (h : readListGuarded X (n + 1) elms guard s = .ok (d, s')) :
    Adds (without guard s.guards) s'.guards (MeetsDot X (.list elms) s.port) := by
  rw [readListGuarded] at h
  obtain ⟨next, s₁, hhead, h⟩ := bind_eq_ok_guardM h
  obtain ⟨hhead, hguards⟩ := onPort_eq_ok hhead
  have hmeets : MeetsDot X (.list elms) s.port ↔ _ :=
    meetsDot_list (Local.converges (fun _ => local_listHead) hhead)
  replace howns : Owns elms guard s₁ := ⟨howns.none_iff, by rw [hguards]; exact howns.mem⟩
  rw [← hguards]
  cases next with
  | close =>
    obtain ⟨_, s₂, hunguard, h⟩ := bind_eq_ok_guardM h
    cases hunguard
    cases h
    exact .refl (by simp [hmeets, ListNext.call])
  | last =>
    obtain ⟨d', s₂, hread, h⟩ := bind_eq_ok_guardM h
    have hadds := ih.read hread
    rw [guards_listEnd h]
    by_cases helms : elms = []
    · cases howns.none_iff.mpr helms
      exact hadds.congr (by rw [hmeets]; simp [ListNext.call, helms])
    · obtain ⟨g, rfl⟩ := Option.ne_none_iff_exists'.mp (mt howns.none_iff.mp helms)
      exact hadds.leak (howns.mem g rfl) (hmeets.mpr (.inl ⟨helms, rfl⟩))
  | symbol expr =>
    exact (ih.element howns h).congr (by simp [hmeets, ListNext.call])
  | skip =>
    exact (ih.round howns h).congr (by simp [hmeets, ListNext.call])
  | sharp =>
    obtain ⟨d', s₂, hsharp, h⟩ := bind_eq_ok_guardM h
    have hd : Converges (NaviScheme.readSharp X) s₁.port (.ok (d', s₂.port)) :=
      converges_of_erases (c := .sharp) (erases_guarded X n).2.1 hsharp
    have hadds := ih.sharp hsharp
    rw [exists_converges_iff hd] at hmeets
    split at h
    · rename_i hvoid
      exact (hadds.trans howns.mem rfl (ih.round (howns.of_adds hadds) h)).congr
        (by simp [hmeets, ListNext.call, hvoid])
    · rename_i hvoid
      exact (hadds.trans howns.mem rfl (ih.element (howns.of_adds hadds) h)).congr
        (by simp [hmeets, ListNext.call, hvoid])
  | element =>
    obtain ⟨d', s₂, hread, h⟩ := bind_eq_ok_guardM h
    have hd : Converges (NaviScheme.naviRead X) s₁.port (.ok (d', s₂.port)) :=
      converges_of_erases (c := .read) (erases_guarded X n).1 hread
    have hadds := ih.read hread
    rw [exists_converges_iff hd] at hmeets
    split at h
    · cases h
    · rename_i heof
      exact (hadds.trans howns.mem rfl (ih.element (howns.of_adds hadds) h)).congr
        (by simp [hmeets, ListNext.call, heof])

/-- **What the calls leave**: guards are only added, and that exactly at a dot. -/
theorem addsAt (n : ℕ) : AddsAt X n := by
  induction n with
  | zero =>
    refine ⟨fun h => ?_, fun h => ?_, fun _ _ h => ?_⟩
    · cases h
    · cases h
    · cases h
  | succ n ih => exact ⟨ih.naviRead, ih.readSharp, fun hnone hmem => ih.readList ⟨hnone, hmem⟩⟩

/-- **The guards of `navi_read`** are as they were exactly if it comes to no dot behind an
element of a list. -/
theorem naviRead_guards_iff (h : naviReadGuarded X n s = .ok (d, s')) :
    s'.guards = s.guards ↔ ¬ MeetsDot X .read s.port :=
  ((addsAt n).read h).same

end

/-- The start of a read from a string, without guards. -/
def Guarded.start (cs : List Char) : Guarded := ⟨.openOn .string (Utf8.encode cs), [], 0⟩

/-- The guards, if a function has returned. -/
def guardsOf : Except ReadExn (Datum × Guarded) → Option (List NaviGuard)
  | .ok r => some r.2.guards
  | .error _ => none

theorem exists_of_guardsOf {r : Except ReadExn (Datum × Guarded)} {gs : List NaviGuard}
    (h : guardsOf r = some gs) : ∃ d s, r = .ok (d, s) ∧ s.guards = gs := by
  cases r with
  | error e => cases h
  | ok r => exact ⟨r.1, r.2, rfl, Option.some.inj h⟩

theorem guardsOf_properList :
    guardsOf (naviReadGuarded allDefined 12 (.start ['(', 'a', ' ', 'b', ')'])) = some [] := by
  decide +kernel

theorem guardsOf_dottedList :
    guardsOf (naviReadGuarded allDefined 12 (.start ['(', 'a', ' ', '.', ' ', 'b', ')'])) =
      some [⟨1, .ptr (.obj 0)⟩] := by
  decide +kernel

theorem naviRead_guards_iff_properList :
    ¬ MeetsDot allDefined .read (Guarded.start ['(', 'a', ' ', 'b', ')']).port := by
  obtain ⟨d, s', hrun, hguards⟩ := exists_of_guardsOf guardsOf_properList
  exact (naviRead_guards_iff hrun).mp hguards

/-- **The guard of a list with a dot stays**: `(a . b)`. -/
theorem not_naviRead_guards :
    ¬ ∀ (X : ReadEnv) (n : ℕ) (s : Guarded) (d : Datum) (s' : Guarded),
      naviReadGuarded X n s = .ok (d, s') → s'.guards = s.guards := by
  intro h
  obtain ⟨d, s', hrun, hguards⟩ := exists_of_guardsOf guardsOf_dottedList
  have hsame := h _ _ _ _ _ hrun
  rw [hguards] at hsame
  cases hsame

end NaviScheme
