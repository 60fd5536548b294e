import NaviScheme.Eval.Run
import NaviScheme.Lib.Renaming

/-!
# Import sets

An import set is a library under any nesting of `only`, `except`, `prefix` and `rename`
(`NaviScheme.ImportSet`). It means a partial map from identifiers to objects, given what the
library exports (`NaviScheme.ImportSet.meaning`): `only` restricts, `except` removes,
`prefix` puts a string in front of every identifier, and `rename` renames all listed
identifiers at once.

`NaviScheme.ImportSet.Reads` says that a form in memory is an import set, and
`NaviScheme.Binds` that a scope binds exactly the identifiers and objects of a map.
-/

namespace NaviScheme

/-! ### Prefixes -/

/-- What follows a prefix. -/
def stripPrefix (str n : String) : Option String :=
  if str.toList <+: n.toList then some (String.ofList (n.toList.drop str.toList.length)) else none

theorem stripPrefix_eq_some {str n x : String} : stripPrefix str n = some x ↔ n = str ++ x := by
  unfold stripPrefix
  constructor
  · intro h
    split at h
    · rename_i hpre
      obtain ⟨t, ht⟩ := hpre
      rw [← ht, List.drop_left] at h
      obtain rfl : String.ofList t = x := by simpa using h
      apply String.toList_inj.1
      rw [String.toList_append, String.toList_ofList, ht]
    · cases h
  · rintro rfl
    rw [String.toList_append, if_pos (List.prefix_append ..), List.drop_left, String.ofList_toList]

theorem append_right_inj {str x y : String} : str ++ x = str ++ y ↔ x = y := by
  rw [← String.toList_inj, String.toList_append, String.toList_append, List.append_cancel_left_eq,
    String.toList_inj]

/-! ### Import sets and their meaning -/

/-- An import set, with the form that each part was read from. -/
inductive ImportSet
  /-- a library -/
  | library (form : NaviObj)
  /-- `(only set id ...)` -/
  | only (form : NaviObj) (set : ImportSet) (ids : List String)
  /-- `(except set id ...)` -/
  | except (form : NaviObj) (set : ImportSet) (ids : List String)
  /-- `(prefix set id)` -/
  | prefixed (form : NaviObj) (set : ImportSet) (str : String)
  /-- `(rename set (id id) ...)` -/
  | rename (form : NaviObj) (set : ImportSet) (ps : List (String × String))

namespace ImportSet

/-- The form. -/
def form : ImportSet → NaviObj
  | library form | only form _ _ | except form _ _ | prefixed form _ _ | rename form _ _ => form

/-- The name of the library. -/
def base : ImportSet → NaviObj
  | library form => form
  | only _ set _ | except _ set _ | prefixed _ set _ | rename _ set _ => set.base

/-- The import set and all import sets in it. -/
def parts : ImportSet → List ImportSet
  | library form => [library form]
  | only form set ids => only form set ids :: set.parts
  | except form set ids => except form set ids :: set.parts
  | prefixed form set str => prefixed form set str :: set.parts
  | rename form set ps => rename form set ps :: set.parts

/-- The lists of names of the `rename`s. -/
def renames : ImportSet → List (List (String × String))
  | library _ => []
  | only _ set _ | except _ set _ | prefixed _ set _ => set.renames
  | rename _ set ps => ps :: set.renames

/-- What an import set means, by what its library exports. -/
def meaning (exports : String → Option NaviObj) : ImportSet → String → Option NaviObj
  | library _ => exports
  | only _ set ids => fun n => if n ∈ ids then set.meaning exports n else none
  | except _ set ids => fun n => if n ∈ ids then none else set.meaning exports n
  | prefixed _ set str => fun n => (stripPrefix str n).bind (set.meaning exports)
  | rename _ set ps => Renaming.sim ps (set.meaning exports)

/-- Every identifier that is named is there, and the names that a `rename` results in are
distinct. -/
def WellNamed (exports : String → Option NaviObj) : ImportSet → Prop
  | library _ => True
  | only _ set ids | except _ set ids =>
    set.WellNamed exports ∧ ∀ n ∈ ids, (set.meaning exports n).isSome
  | prefixed _ set _ => set.WellNamed exports
  | rename _ set ps => set.WellNamed exports ∧ Renaming.Clean ps (set.meaning exports)

end ImportSet

/-! ### Import sets in memory -/

/-- The symbols that `get_import_env` looks for. -/
def importKeywords : List String := ["only", "except", "prefix", "rename"]

/-- A part of the name of a library: a symbol, or a number that is not negative. -/
def IsNamePart (w : World) (o : NaviObj) : Prop :=
  (∃ d, w.load o = .ok (.naviSymbol, d)) ∨ ∃ n : ℤ, 0 ≤ n ∧ o = .fixnum n

/-- The name of a library, which is not that of a modifier. -/
def IsLibname (w : World) (o : NaviObj) : Prop :=
  ∃ pairs hd tl, Spine w o pairs (hd :: tl) ∧ (∃ d, w.load hd = .ok (.naviSymbol, d)) ∧
    (∀ k ∈ importKeywords, ¬ IsSym w hd k) ∧ ∀ x ∈ tl, IsNamePart w x

/-- A list of two symbols. -/
def IsRename (w : World) (o : NaviObj) (p : String × String) : Prop :=
  ∃ pairs x y, Spine w o pairs [x, y] ∧ IsSym w x p.1 ∧ IsSym w y p.2

/-- A form is an import set in a world `w`, and is still when the library is loaded in
`w₀`: lists that are read then have the same pairs. -/
def ImportSet.Reads (w w₀ : World) : ImportSet → Prop
  | library form => IsLibname w form
  | only form set ids => set.Reads w w₀ ∧ ∃ pairs kw objs,
    Spine w form pairs (kw :: set.form :: objs) ∧ Spine w₀ form pairs (kw :: set.form :: objs) ∧
      IsSym w kw "only" ∧ List.Forall₂ (IsSym w) objs ids ∧ List.Forall₂ (IsSym w₀) objs ids
  | except form set ids => set.Reads w w₀ ∧ ∃ pairs kw objs,
    Spine w form pairs (kw :: set.form :: objs) ∧ Spine w₀ form pairs (kw :: set.form :: objs) ∧
      IsSym w kw "except" ∧ List.Forall₂ (IsSym w) objs ids ∧ List.Forall₂ (IsSym w₀) objs ids
  | prefixed form set str => set.Reads w w₀ ∧ ∃ pairs kw o,
    Spine w form pairs [kw, set.form, o] ∧ IsSym w kw "prefix" ∧ IsSym w o str
  | rename form set ps => set.Reads w w₀ ∧ ∃ pairs kw objs,
    Spine w form pairs (kw :: set.form :: objs) ∧ Spine w₀ form pairs (kw :: set.form :: objs) ∧
      IsSym w kw "rename" ∧ List.Forall₂ (IsRename w) objs ps ∧ List.Forall₂ (IsRename w₀) objs ps

/-! ### Scopes as maps -/

/-- Bindings of interned symbols, each bound once, that are a map from their names. -/
structure Represents (w : World) (bs : List NaviBinding) (m : String → Option NaviObj) : Prop where
  /-- the bindings are those of the map -/
  lookup : ∀ n, m n = (w.symtab.lookup n).bind fun a => lookupIn bs (.ptr a)
  /-- only names are bound -/
  named : ∀ b ∈ bs, ∃ n, IsSym w b.symbol n
  /-- each is bound once -/
  nodup : (bs.map NaviBinding.symbol).Nodup

/-- **A scope binds exactly the identifiers and objects of a map.** -/
def Binds (w : World) (s : ScopeAddr) (m : String → Option NaviObj) : Prop :=
  ∃ sc, w.scopes s = some sc ∧ Represents w sc.bindings m

/-- A map has no other representation. -/
theorem Binds.unique {w : World} {s : ScopeAddr} {m m' : String → Option NaviObj}
    (h : Binds w s m) (h' : Binds w s m') : m = m' := by
  obtain ⟨sc, hsc, hrep⟩ := h
  obtain ⟨sc', hsc', hrep'⟩ := h'
  obtain rfl : sc = sc' := by simpa using hsc.symm.trans hsc'
  funext n
  rw [hrep.lookup, hrep'.lookup]

end NaviScheme
