import Mathlib.Data.List.Chain
import NaviScheme.Reader.Read
import NaviScheme.Strings.Run

/-!
# Comparing strings and numbers

`navi_string_equal`, and `navi_strcoll` of the build without ICU: it compares the bytes, as
`char`s and perhaps in lower case, up to the first difference, and then the sizes. That is the
lexicographic comparison of two lists (`naviStrcoll_eq`), hence a total order.

The comparison procedures are made by two macros. `NUMERIC_COMPARISON` compares each argument
with the next one (`fold_pairs`); `STRING_COMPARE` compares all of them with the first one. The
two agree for two arguments and for `string=?`, but not in general (`comparesAdjacent_iff`).
-/

namespace NaviScheme

/-- A string, at its address. -/
abbrev StringAt := ℕ × NaviString

/-! ### Two strings -/

section

variable (u : Unknown)

/-- `navi_string_equal` -/
def naviStringEqual (a b : StringAt) : Bool :=
  if a.2.size ≠ b.2.size ∨ a.2.length ≠ b.2.length then false
  else (List.range a.2.size.toNat).all fun i => a.2.bytes u a.1 i == b.2.bytes u b.1 i

/-- What is compared of a byte: `char ac = ci ? tolower(a->data[i]) : a->data[i]` -/
def collKey (ci : Bool) (b : UInt8) : ℤ := toChar (if ci then tolower b.toNat else b.toNat)

/-- `navi_strcoll` from position `i` on, with `n` positions left in the shorter string. -/
def strcollFrom (a b : StringAt) (ci : Bool) (i : ℕ) : ℕ → ℤ
  | 0 => if a.2.size < b.2.size then -1 else if a.2.size > b.2.size then 1 else 0
  | n + 1 =>
    let ac := collKey ci (a.2.bytes u a.1 i)
    let bc := collKey ci (b.2.bytes u b.1 i)
    if ac < bc then -1 else if ac > bc then 1 else strcollFrom a b ci (i + 1) n

/-- `navi_strcoll`, of the build without ICU. -/
def naviStrcoll (a b : StringAt) (ci : Bool) : ℤ :=
  strcollFrom u a b ci 0 (min a.2.size b.2.size).toNat

end

/-- A comparison function is the one of a total preorder, on what satisfies `P`. -/
structure Collates {σ : Type} (P : σ → Prop) (coll : σ → σ → ℤ) : Prop where
  swap : ∀ {a b}, P a → P b → coll b a = -coll a b
  trans : ∀ {a b c}, P a → P b → P c → coll a b ≤ 0 → coll b c ≤ 0 → coll a c ≤ 0

section Order

variable {u : Unknown} {ci : Bool} {a b : StringAt}

/-- An ordering, as C has it. -/
def orderingSign : Ordering → ℤ
  | .lt => -1
  | .eq => 0
  | .gt => 1

/-- What is compared of a string. -/
def collKeys (u : Unknown) (ci : Bool) (a : StringAt) : List ℤ :=
  (contents u a.1 a.2).map (collKey ci)

/-- The loop compares what is left of the strings, `n` bytes of both and `p` or `q` further ones
of one of them. -/
theorem strcollFrom_eq {n p q i : ℕ} (ha : a.2.size = (i + n + p : ℕ))
    (hb : b.2.size = (i + n + q : ℕ)) (hpq : p = 0 ∨ q = 0) :
    strcollFrom u a b ci i n = orderingSign (compare
      ((List.range' i (n + p)).map fun j => collKey ci (a.2.bytes u a.1 j))
      ((List.range' i (n + q)).map fun j => collKey ci (b.2.bytes u b.1 j))) := by
  induction n generalizing i with
  | zero =>
    rw [strcollFrom, ha, hb]
    rcases p with _ | p <;> rcases q with _ | q
    · simp [orderingSign]
    · rw [if_pos (by omega), Nat.zero_add, Nat.zero_add, List.range'_succ]
      rfl
    · rw [if_neg (by omega), if_pos (by omega), Nat.zero_add, Nat.zero_add, List.range'_succ]
      rfl
    · omega
  | succ n ih =>
    have hp : n + 1 + p = n + p + 1 := by omega
    have hq : n + 1 + q = n + q + 1 := by omega
    rw [strcollFrom, hp, hq, List.range'_succ, List.range'_succ, List.map_cons, List.map_cons,
      List.compare_cons_cons, ih (by omega) (by omega)]
    generalize collKey ci (a.2.bytes u a.1 i) = ac
    generalize collKey ci (b.2.bytes u b.1 i) = bc
    rcases lt_trichotomy ac bc with hlt | rfl | hgt
    · rw [if_pos hlt, compare_lt_iff_lt.mpr hlt]
      rfl
    · rw [if_neg (lt_irrefl _), if_neg (lt_irrefl _), compare_eq_iff_eq.mpr rfl]
      rfl
    · rw [if_neg hgt.le.not_gt, if_pos hgt, compare_gt_iff_gt.mpr hgt]
      rfl

/-- **`navi_strcoll` is lexicographic.** -/
theorem naviStrcoll_eq (ha : 0 ≤ a.2.size) (hb : 0 ≤ b.2.size) :
    naviStrcoll u a b ci = orderingSign (compare (collKeys u ci a) (collKeys u ci b)) := by
  obtain ⟨m, hm⟩ := Int.eq_ofNat_of_zero_le ha
  obtain ⟨n, hn⟩ := Int.eq_ofNat_of_zero_le hb
  have hmin : (min a.2.size b.2.size).toNat = min m n := by omega
  have hleft : min m n + (m - min m n) = m := by omega
  have hright : min m n + (n - min m n) = n := by omega
  rw [naviStrcoll, hmin, strcollFrom_eq (p := m - min m n) (q := n - min m n) (by omega)
    (by omega) (by omega), hleft, hright]
  simp only [collKeys, contents, hm, hn, Int.toNat_natCast, List.map_map, List.range_eq_range']
  rfl

theorem orderingSign_swap (o : Ordering) : orderingSign o.swap = -orderingSign o := by
  cases o <;> rfl

theorem orderingSign_nonpos {o : Ordering} : orderingSign o ≤ 0 ↔ o.isLE = true := by
  cases o <;> simp [orderingSign]

theorem orderingSign_eq_zero {o : Ordering} : orderingSign o = 0 ↔ o = .eq := by
  cases o <;> simp [orderingSign]

theorem collates_naviStrcoll :
    Collates (fun a => 0 ≤ a.2.size) fun a b => naviStrcoll u a b ci where
  swap ha hb := by
    rw [naviStrcoll_eq ha hb, naviStrcoll_eq hb ha, ← orderingSign_swap,
      ← Std.OrientedOrd.eq_swap]
  trans ha hb hc hab hbc := by
    rw [naviStrcoll_eq ha hb, orderingSign_nonpos] at hab
    rw [naviStrcoll_eq hb hc, orderingSign_nonpos] at hbc
    rw [naviStrcoll_eq ha hc, orderingSign_nonpos]
    exact Std.TransOrd.isLE_trans hab hbc

theorem naviStrcoll_eq_zero (ha : 0 ≤ a.2.size) (hb : 0 ≤ b.2.size) :
    naviStrcoll u a b ci = 0 ↔ collKeys u ci a = collKeys u ci b := by
  rw [naviStrcoll_eq ha hb, orderingSign_eq_zero]
  exact Std.LawfulEqOrd.compare_eq_iff_eq

theorem contents_length : (contents u a.1 a.2).length = a.2.size.toNat := by
  simp [contents]

theorem naviStringEqual_iff (ha : 0 ≤ a.2.size) (hb : 0 ≤ b.2.size) :
    naviStringEqual u a b = true ↔
      a.2.length = b.2.length ∧ contents u a.1 a.2 = contents u b.1 b.2 := by
  unfold naviStringEqual
  split
  · rename_i hne
    refine ⟨nofun, fun ⟨hlen, heq⟩ => ?_⟩
    have hsize := congrArg List.length heq
    rw [contents_length, contents_length] at hsize
    omega
  · rename_i heq
    push Not at heq
    obtain ⟨hsize, hlen⟩ := heq
    simp only [List.all_eq_true, beq_iff_eq, contents, ← hsize, hlen, true_and]
    exact List.map_inj_left.symm

/-- A byte is determined by its `char`. -/
theorem toChar_inj {m n : ℕ} (hm : m < 256) (hn : n < 256) (h : toChar m = toChar n) : m = n := by
  have hdvd := Int.bmod_eq_bmod_iff_bmod_sub_eq_zero.mp h
  have := Int.dvd_of_bmod_eq_zero hdvd
  omega

/-- A byte, in lower case. -/
theorem tolower_lt {b : UInt8} : 0 ≤ tolower b.toNat ∧ tolower b.toNat < 256 := by
  have hb : b.toNat < 256 := b.toNat_lt
  simp only [tolower, ascii]
  split
  · rename_i hcase
    have : (('Z' : Char).toNat : ℤ) = 90 := rfl
    omega
  · omega

/-- What is compared tells the bytes apart, up to their case if that is to be ignored. -/
theorem collKey_inj {b c : UInt8} : collKey ci b = collKey ci c ↔
    if ci then tolower b.toNat = tolower c.toNat else b = c := by
  have hb : b.toNat < 256 := b.toNat_lt
  have hc : c.toNat < 256 := c.toNat_lt
  cases ci with
  | false =>
    refine ⟨fun h => UInt8.toNat_inj.mp (toChar_inj hb hc h), ?_⟩
    rintro rfl
    rfl
  | true =>
    refine ⟨fun h => ?_, fun h => congrArg toChar h⟩
    obtain ⟨hb0, hb'⟩ := tolower_lt (b := b)
    obtain ⟨hc0, hc'⟩ := tolower_lt (b := c)
    obtain ⟨m, hm⟩ := Int.eq_ofNat_of_zero_le hb0
    obtain ⟨n, hn⟩ := Int.eq_ofNat_of_zero_le hc0
    have hmn : m = n := by
      refine toChar_inj (by omega) (by omega) ?_
      rw [← hm, ← hn]
      exact h
    change tolower b.toNat = tolower c.toNat
    rw [hm, hn, hmn]

/-- The bytes of a string, in lower case. -/
def lowerContents (u : Unknown) (a : StringAt) : List ℤ :=
  (contents u a.1 a.2).map fun b => tolower b.toNat

theorem collKeys_false_inj :
    collKeys u false a = collKeys u false b ↔ contents u a.1 a.2 = contents u b.1 b.2 := by
  have hinj : Function.Injective (collKey false) := fun _ _ h => collKey_inj.mp h
  exact hinj.list_map.eq_iff

theorem collKeys_true_inj :
    collKeys u true a = collKeys u true b ↔ lowerContents u a = lowerContents u b := by
  unfold collKeys lowerContents
  generalize contents u a.1 a.2 = bs
  generalize contents u b.1 b.2 = cs
  induction bs generalizing cs with
  | nil => cases cs <;> simp
  | cons b bs ih =>
    cases cs with
    | nil => simp
    | cons c cs =>
      have hkey : collKey true b = collKey true c ↔ tolower b.toNat = tolower c.toNat :=
        collKey_inj
      simp only [List.map_cons, List.cons.injEq, hkey, ih]

end Order

/-- **`navi_strcoll` orders the strings**: it is a total preorder, whose equivalence is
`navi_string_equal`, or the equality of the bytes in lower case. -/
theorem naviStrcoll_order (u : Unknown) (ci : Bool) {a b c : StringAt} (ha : a.2.Sized)
    (hb : b.2.Sized) (hc : c.2.Sized) :
    naviStrcoll u b a ci = -naviStrcoll u a b ci ∧
      (naviStrcoll u a b ci ≤ 0 → naviStrcoll u b c ci ≤ 0 → naviStrcoll u a c ci ≤ 0) ∧
      (a.2.length = a.2.size → b.2.length = b.2.size →
        (naviStrcoll u a b false = 0 ↔ naviStringEqual u a b = true)) ∧
      (naviStrcoll u a b true = 0 ↔ lowerContents u a = lowerContents u b) := by
  refine ⟨collates_naviStrcoll.swap ha.nonneg hb.nonneg,
    collates_naviStrcoll.trans ha.nonneg hb.nonneg hc.nonneg, fun halen hblen => ?_, ?_⟩
  · rw [naviStrcoll_eq_zero ha.nonneg hb.nonneg, collKeys_false_inj,
      naviStringEqual_iff ha.nonneg hb.nonneg]
    refine ⟨fun h => ⟨?_, h⟩, fun h => h.2⟩
    have hsize := congrArg List.length h
    rw [contents_length, contents_length] at hsize
    have := ha.nonneg
    have := hb.nonneg
    omega
  · rw [naviStrcoll_eq_zero ha.nonneg hb.nonneg, collKeys_true_inj]

/-- A string of the bytes `bs`, in the build without ICU. -/
def byteString (bs : List UInt8) : NaviString := ⟨bs.length, bs.length, bs.length, bs ++ [0]⟩

theorem sized_byteString (bs : List UInt8) : (byteString bs).Sized :=
  ⟨Int.natCast_nonneg _, le_rfl, by simp [byteString]⟩

theorem naviStrcoll_order_ab :
    naviStrcoll zeroMemory (1, byteString [66]) (0, byteString [97]) true =
        -naviStrcoll zeroMemory (0, byteString [97]) (1, byteString [66]) true ∧
      (naviStrcoll zeroMemory (0, byteString [97]) (1, byteString [66]) true ≤ 0 →
        naviStrcoll zeroMemory (1, byteString [66]) (2, byteString [98, 0xff]) true ≤ 0 →
          naviStrcoll zeroMemory (0, byteString [97]) (2, byteString [98, 0xff]) true ≤ 0) ∧
      ((byteString [97]).length = (byteString [97]).size →
        (byteString [66]).length = (byteString [66]).size →
          (naviStrcoll zeroMemory (0, byteString [97]) (1, byteString [66]) false = 0 ↔
            naviStringEqual zeroMemory (0, byteString [97]) (1, byteString [66]) = true)) ∧
      (naviStrcoll zeroMemory (0, byteString [97]) (1, byteString [66]) true = 0 ↔
        lowerContents zeroMemory (0, byteString [97]) =
          lowerContents zeroMemory (1, byteString [66])) :=
  naviStrcoll_order zeroMemory true (a := (0, byteString [97])) (b := (1, byteString [66]))
    (c := (2, byteString [98, 0xff])) (sized_byteString _) (sized_byteString _)
    (sized_byteString _)

/-! ### The comparison procedures -/

/-- `#ifdef HAVE_ICU`: `ucol_strcollUTF8`, of a collator for a strength and of two texts, or the
comparison of bytes. -/
inductive Collation
  | icu (ucolStrcollUTF8 : Bool → List UInt8 → List UInt8 → ℤ)
  | bytes

namespace Collation

/-- `navi_strcoll` -/
def strcoll (u : Unknown) : Collation → StringAt → StringAt → Bool → ℤ
  | icu ucol, a, b, ci => ucol ci (contents u a.1 a.2) (contents u b.1 b.2)
  | bytes, a, b, ci => naviStrcoll u a b ci

/-- What is assumed of ICU: a collator orders the texts. -/
def Standard : Collation → Prop
  | icu ucol => ∀ ci, Collates (fun _ => True) (ucol ci)
  | bytes => True

end Collation

/-- The operator of a comparison procedure. -/
inductive Comparison
  | lt
  | gt
  | eq
  | lte
  | gte
deriving DecidableEq, Repr

/-- `m op n` -/
def Comparison.holds : Comparison → ℤ → ℤ → Bool
  | .lt, m, n => m < n
  | .gt, m, n => m > n
  | .eq, m, n => m = n
  | .lte, m, n => m ≤ n
  | .gte, m, n => m ≥ n

section

variable (coll : StringAt → StringAt → Bool → ℤ) (h : StringHeap)

/-- The loop of `STRING_COMPARE`, which compares with `fst`. -/
def stringCompareFrom (op : Comparison) (ci : Bool) (fst : StringAt) :
    List StringArg → Except StringStop Bool
  | [] => .ok true
  | arg :: args => do
    let a ← naviStringCast arg
    let snd ← h.get a
    if op.holds (coll fst (a, snd) ci) 0 then stringCompareFrom op ci fst args
    else return false

/-- `STRING_COMPARE`; the first two arguments are strings, or the procedure is not called. -/
def stringCompare (op : Comparison) (ci : Bool) : List StringArg → Except StringStop Bool
  | arg1 :: arg2 :: args => do
    let a ← naviStringCast arg1
    let _ ← naviStringCast arg2
    let fst ← h.get a
    stringCompareFrom coll h op ci (a, fst) (arg2 :: args)
  | _ => .error (.raise "wrong number of arguments")

/-- `string<?` -/
def stringLt := stringCompare coll h .lt false

/-- `string>?` -/
def stringGt := stringCompare coll h .gt false

/-- `string=?` -/
def stringEq := stringCompare coll h .eq false

/-- `string<=?` -/
def stringLte := stringCompare coll h .lte false

/-- `string>=?` -/
def stringGte := stringCompare coll h .gte false

/-- `string-ci<?` -/
def stringCiLt := stringCompare coll h .lt true

/-- `string-ci>?` -/
def stringCiGt := stringCompare coll h .gt true

/-- `string-ci=?` -/
def stringCiEq := stringCompare coll h .eq true

/-- `string-ci<=?` -/
def stringCiLte := stringCompare coll h .lte true

/-- `string-ci>=?` -/
def stringCiGte := stringCompare coll h .gte true

end

/-- `fold_pairs` -/
def foldPairs (compare : StringArg → StringArg → Except StringStop Bool) :
    List StringArg → Except StringStop Bool
  | arg1 :: arg2 :: args => do
    if ← compare arg1 arg2 then foldPairs compare (arg2 :: args) else return false
  | _ => .ok true

/-- The function that `NUMERIC_COMPARISON` hands to `fold_pairs`. -/
def compareFixnums (op : Comparison) (arg1 arg2 : StringArg) : Except StringStop Bool := do
  let m ← naviFixnumCast arg1
  let n ← naviFixnumCast arg2
  return op.holds m n

/-- `NUMERIC_COMPARISON`; the first argument is a fixnum, or the procedure is not called. -/
def numericComparison (op : Comparison) : List StringArg → Except StringStop Bool
  | arg :: args => do
    let _ ← naviFixnumCast arg
    foldPairs (compareFixnums op) (arg :: args)
  | [] => .error (.raise "wrong number of arguments")

/-- `<` -/
def scmLt := numericComparison .lt

/-- `>` -/
def scmGt := numericComparison .gt

/-- `<=` -/
def scmLte := numericComparison .lte

/-- `>=` -/
def scmGte := numericComparison .gte

/-- `=` -/
def scmNumeq := numericComparison .eq

/-- The comparison procedures. -/
inductive Comparator
  | string (op : Comparison) (ci : Bool)
  | numeric (op : Comparison)
deriving DecidableEq, Repr

namespace Comparator

section

variable (coll : StringAt → StringAt → Bool → ℤ) (h : StringHeap)

/-- A call of a comparison procedure. -/
def run : Comparator → List StringArg → Except StringStop Bool
  | .string .lt false => stringLt coll h
  | .string .gt false => stringGt coll h
  | .string .eq false => stringEq coll h
  | .string .lte false => stringLte coll h
  | .string .gte false => stringGte coll h
  | .string .lt true => stringCiLt coll h
  | .string .gt true => stringCiGt coll h
  | .string .eq true => stringCiEq coll h
  | .string .lte true => stringCiLte coll h
  | .string .gte true => stringCiGte coll h
  | .numeric .lt => scmLt
  | .numeric .gt => scmGt
  | .numeric .lte => scmLte
  | .numeric .gte => scmGte
  | .numeric .eq => scmNumeq

/-- The relation of a comparison procedure, between two arguments. -/
def Rel : Comparator → StringArg → StringArg → Prop
  | .string op ci, .string a, .string b =>
    ∃ s t, h.get a = .ok s ∧ h.get b = .ok t ∧ op.holds (coll (a, s) (b, t) ci) 0 = true
  | .numeric op, .fixnum m, .fixnum n => op.holds m n = true
  | _, _, _ => False

/-- The arguments are at least two strings, or at least one fixnum. -/
def Takes : Comparator → List StringArg → Prop
  | .string _ _, args => 2 ≤ args.length ∧ ∀ arg ∈ args, ∃ a s, arg = .string a ∧ h.get a = .ok s
  | .numeric _, args => 1 ≤ args.length ∧ ∀ arg ∈ args, ∃ n, arg = .fixnum n

/-- **The procedure compares neighbours**: it returns true if and only if its relation holds
between each argument and the next one. -/
def ComparesAdjacent (cmp : Comparator) (args : List StringArg) : Prop :=
  ∃ r, cmp.run coll h args = .ok r ∧ (r = true ↔ args.IsChain (cmp.Rel coll h))

/-- When comparing with the first argument is the same as comparing neighbours: for the other
procedures than `string=?` and `string-ci=?`, the arguments behind the first one must not be in
disorder while the first one is before all of them. -/
def InOrder : Comparator → List StringArg → Prop
  | .string .eq _, _ | .numeric _, _ => True
  | .string op ci, args =>
    (∀ arg ∈ args.tail, Rel coll h (.string op ci) (args.headD .other) arg) →
      args.tail.IsChain (Rel coll h (.string op ci))

end

variable {coll : StringAt → StringAt → Bool → ℤ} {h : StringHeap} {op : Comparison} {ci : Bool}

theorem run_string : (string op ci).run coll h = stringCompare coll h op ci := by
  cases op <;> cases ci <;> rfl

theorem run_numeric : (numeric op).run coll h = numericComparison op := by
  cases op <;> rfl

theorem rel_string {a b : ℕ} {s t : NaviString} (hs : h.get a = .ok s) (ht : h.get b = .ok t) :
    (string op ci).Rel coll h (.string a) (.string b) ↔
      op.holds (coll (a, s) (b, t) ci) 0 = true := by
  refine ⟨?_, fun h => ⟨s, t, hs, ht, h⟩⟩
  rintro ⟨s', t', hs', ht', h⟩
  rw [hs] at hs'
  rw [ht] at ht'
  cases hs'
  cases ht'
  exact h

/-- The loop of `STRING_COMPARE` compares all arguments with the first one. -/
theorem stringCompareFrom_spec {a : ℕ} {s : NaviString} (hs : h.get a = .ok s)
    {args : List StringArg} (hargs : ∀ arg ∈ args, ∃ b t, arg = .string b ∧ h.get b = .ok t) :
    ∃ r, stringCompareFrom coll h op ci (a, s) args = .ok r ∧
      (r = true ↔ ∀ arg ∈ args, (string op ci).Rel coll h (.string a) arg) := by
  induction args with
  | nil => exact ⟨true, rfl, by simp⟩
  | cons arg args ih =>
    obtain ⟨b, t, rfl, ht⟩ := hargs arg List.mem_cons_self
    obtain ⟨r, hr, hiff⟩ := ih fun arg harg => hargs arg (List.mem_cons_of_mem _ harg)
    have hstep : stringCompareFrom coll h op ci (a, s) (.string b :: args) =
        if op.holds (coll (a, s) (b, t) ci) 0 then stringCompareFrom coll h op ci (a, s) args
        else .ok false := by
      rw [stringCompareFrom, naviStringCast, ok_bind, ht]
      rfl
    rw [hstep]
    simp only [List.forall_mem_cons, rel_string hs ht]
    split
    · rename_i hholds
      exact ⟨r, hr, by rw [hiff, hholds, eq_self, true_and]⟩
    · rename_i hholds
      exact ⟨false, rfl, by simp [hholds]⟩

/-- `fold_pairs` compares neighbours. -/
theorem foldPairs_spec {args : List StringArg} (hargs : ∀ arg ∈ args, ∃ n, arg = .fixnum n) :
    ∃ r, foldPairs (compareFixnums op) args = .ok r ∧
      (r = true ↔ args.IsChain ((numeric op).Rel coll h)) := by
  induction args with
  | nil => exact ⟨true, rfl, by simp⟩
  | cons arg₁ args ih =>
    obtain ⟨m, rfl⟩ := hargs arg₁ List.mem_cons_self
    cases args with
    | nil => exact ⟨true, rfl, by simp⟩
    | cons arg₂ args =>
      obtain ⟨n, rfl⟩ := hargs arg₂ (by simp)
      obtain ⟨r, hr, hiff⟩ := ih fun arg harg => hargs arg (List.mem_cons_of_mem _ harg)
      have hstep : foldPairs (compareFixnums op) (.fixnum m :: .fixnum n :: args) =
          if op.holds m n then foldPairs (compareFixnums op) (.fixnum n :: args)
          else .ok false := rfl
      have hrel : (numeric op).Rel coll h (.fixnum m) (.fixnum n) ↔ op.holds m n = true := .rfl
      rw [hstep, List.isChain_cons_cons, hrel]
      split
      · rename_i hholds
        exact ⟨r, hr, by rw [hiff, hholds, eq_self, true_and]⟩
      · rename_i hholds
        exact ⟨false, rfl, by simp [hholds]⟩

end Comparator

/-! ### What the procedures compare -/

/-- The relations of a total preorder are transitive. -/
theorem Collates.trans_holds {σ : Type} {P : σ → Prop} {coll : σ → σ → ℤ} (hcoll : Collates P coll)
    {op : Comparison} {a b c : σ} (ha : P a) (hb : P b) (hc : P c)
    (hab : op.holds (coll a b) 0 = true) (hbc : op.holds (coll b c) 0 = true) :
    op.holds (coll a c) 0 = true := by
  have hba := hcoll.swap ha hb
  have hcb := hcoll.swap hb hc
  have hca := hcoll.swap ha hc
  have habc := hcoll.trans ha hb hc
  have hcba := hcoll.trans hc hb ha
  have hcab := hcoll.trans hc ha hb
  have hacb := hcoll.trans ha hc hb
  cases op <;> simp only [Comparison.holds, decide_eq_true_eq, gt_iff_lt, ge_iff_le] at * <;> omega

namespace Comparator

variable {coll : StringAt → StringAt → Bool → ℤ} {h : StringHeap} {op : Comparison} {ci : Bool}
  {P : StringAt → Prop}

theorem isTrans_rel (hcoll : Collates P fun a b => coll a b ci)
    (hP : ∀ a s, h.get a = .ok s → P (a, s)) : IsTrans _ ((string op ci).Rel coll h) := by
  refine ⟨fun x y z hxy hyz => ?_⟩
  cases x <;> cases y <;> cases z <;> try contradiction
  obtain ⟨s, t, hs, ht, hst⟩ := hxy
  obtain ⟨t', r, ht', hr, htr⟩ := hyz
  rw [ht] at ht'
  cases ht'
  exact ⟨s, r, hs, hr, hcoll.trans_holds (hP _ _ hs) (hP _ _ ht) (hP _ _ hr) hst htr⟩

/-- Neighbours in relation are all in relation with the first one. -/
theorem rel_head_of_isChain [IsTrans _ ((string op ci).Rel coll h)] {arg : StringArg}
    {args : List StringArg} (hchain : (arg :: args).IsChain ((string op ci).Rel coll h)) :
    ∀ arg' ∈ args, (string op ci).Rel coll h arg arg' :=
  (List.pairwise_cons.mp (List.isChain_iff_pairwise.mp hchain)).1

/-- What equals the first one equals its neighbours. -/
theorem isChain_of_eq (hcoll : Collates P fun a b => coll a b ci)
    (hP : ∀ a s, h.get a = .ok s → P (a, s)) {arg : StringArg} {args : List StringArg}
    (hall : ∀ arg' ∈ args, (string .eq ci).Rel coll h arg arg') :
    args.IsChain ((string .eq ci).Rel coll h) := by
  have htrans : IsTrans _ ((string .eq ci).Rel coll h) := isTrans_rel hcoll hP
  have hsymm : ∀ x y, (string .eq ci).Rel coll h x y → (string .eq ci).Rel coll h y x := by
    intro x y hxy
    cases x <;> cases y <;> try contradiction
    obtain ⟨s, t, hs, ht, hst⟩ := hxy
    refine ⟨t, s, ht, hs, ?_⟩
    have hswap := hcoll.swap (hP _ _ hs) (hP _ _ ht)
    simp only [Comparison.holds, decide_eq_true_eq] at hst ⊢
    omega
  refine List.isChain_iff_pairwise.mpr (List.pairwise_of_forall_mem_list fun x hx y hy => ?_)
  exact htrans.trans x arg y (hsymm arg x (hall x hx)) (hall y hy)

/-- A procedure that compares with the first argument, of a transitive relation. -/
theorem comparesAdjacent_string_iff (hcoll : Collates P fun a b => coll a b ci)
    (hP : ∀ a s, h.get a = .ok s → P (a, s)) {args : List StringArg}
    (hargs : (string op ci).Takes h args) :
    (string op ci).ComparesAdjacent coll h args ↔ (string op ci).InOrder coll h args := by
  obtain ⟨hlen, hall⟩ := hargs
  rcases args with _ | ⟨arg₁, _ | ⟨arg₂, args⟩⟩
  · simp at hlen
  · simp at hlen
  obtain ⟨a, s, rfl, hs⟩ := hall arg₁ List.mem_cons_self
  obtain ⟨b, t, rfl, ht⟩ := hall arg₂ (by simp)
  obtain ⟨r, hr, hiff⟩ : ∃ r, stringCompareFrom coll h op ci (a, s) (.string b :: args) = .ok r ∧
      (r = true ↔ ∀ arg ∈ .string b :: args, (string op ci).Rel coll h (.string a) arg) :=
    stringCompareFrom_spec hs fun arg harg => hall arg (List.mem_cons_of_mem _ harg)
  have htrans : IsTrans _ ((string op ci).Rel coll h) := isTrans_rel hcoll hP
  have hrun : (string op ci).run coll h (.string a :: .string b :: args) = .ok r := by
    rw [run_string, stringCompare, naviStringCast, ok_bind, naviStringCast, ok_bind, hs, ok_bind]
    exact hr
  -- what is in relation with the first one is in order, in each case of `InOrder`
  have horder : (string op ci).InOrder coll h (.string a :: .string b :: args) ↔
      ((∀ arg ∈ .string b :: args, (string op ci).Rel coll h (.string a) arg) →
        (.string b :: args).IsChain ((string op ci).Rel coll h)) := by
    cases op with
    | eq => exact ⟨fun _ hall => isChain_of_eq hcoll hP hall, fun _ => trivial⟩
    | _ => exact .rfl
  have hchain : (.string a :: .string b :: args).IsChain ((string op ci).Rel coll h) ↔
      (string op ci).Rel coll h (.string a) (.string b) ∧
        (.string b :: args).IsChain ((string op ci).Rel coll h) := List.isChain_cons_cons
  rw [horder]
  constructor
  · rintro ⟨r', hr', hiff'⟩ hfirst
    rw [hrun] at hr'
    cases hr'
    exact (hchain.mp (hiff'.mp (hiff.mpr hfirst))).2
  · intro hrest
    refine ⟨r, hrun, hiff.trans ⟨fun hfirst => ?_, fun h => rel_head_of_isChain h⟩⟩
    exact hchain.mpr ⟨hfirst _ List.mem_cons_self, hrest hfirst⟩

end Comparator

/-- The strings of a heap are as string objects are. -/
def StringHeap.Sized (h : StringHeap) : Prop := ∀ a s, h.get a = .ok s → s.Sized

/-- **Comparing neighbours**: of all procedures and arguments, those that are in order, and no
others, are compared as neighbours. -/
theorem comparesAdjacent_iff (u : Unknown) {c : Collation} (hc : c.Standard) {h : StringHeap}
    (hh : h.Sized) {cmp : Comparator} {args : List StringArg} (hargs : cmp.Takes h args) :
    cmp.ComparesAdjacent (c.strcoll u) h args ↔ cmp.InOrder (c.strcoll u) h args := by
  cases cmp with
  | string op ci =>
    have hcoll : Collates (fun a : StringAt => 0 ≤ a.2.size) fun a b => c.strcoll u a b ci := by
      cases c with
      | icu ucol =>
        exact ⟨fun _ _ => (hc ci).swap trivial trivial,
          fun _ _ _ => (hc ci).trans trivial trivial trivial⟩
      | bytes => exact collates_naviStrcoll
    exact Comparator.comparesAdjacent_string_iff hcoll (fun a s hs => (hh a s hs).nonneg) hargs
  | numeric op =>
    obtain ⟨hlen, hall⟩ := hargs
    obtain ⟨r, hr, hiff⟩ : ∃ r, foldPairs (compareFixnums op) args = .ok r ∧
        (r = true ↔ args.IsChain ((Comparator.numeric op).Rel (c.strcoll u) h)) :=
      Comparator.foldPairs_spec hall
    rcases args with _ | ⟨arg, args⟩
    · simp at hlen
    obtain ⟨n, rfl⟩ := hall arg List.mem_cons_self
    have hrun : (Comparator.numeric op).run (c.strcoll u) h (.fixnum n :: args) = .ok r := by
      rw [Comparator.run_numeric, numericComparison, naviFixnumCast, ok_bind, hr]
    exact ⟨fun _ => trivial, fun _ => ⟨r, hrun, hiff⟩⟩

/-- The strings `a`, `c` and `b`. -/
def heapACB : StringHeap := ⟨[byteString [97], byteString [99], byteString [98]], []⟩

theorem sized_heapACB : heapACB.Sized := by
  intro a s hs
  unfold StringHeap.get at hs
  split at hs
  · rename_i str hstr
    cases hs
    have hmem := List.mem_of_getElem? hstr
    simp only [heapACB, List.mem_cons, List.not_mem_nil, or_false] at hmem
    rcases hmem with rfl | rfl | rfl <;> exact sized_byteString _
  · cases hs

theorem takes_heapACB : (Comparator.string .lt false).Takes heapACB
    [.string 0, .string 1, .string 2] := by
  refine ⟨by decide, fun arg harg => ?_⟩
  simp only [List.mem_cons, List.not_mem_nil, or_false] at harg
  rcases harg with rfl | rfl | rfl <;> exact ⟨_, _, rfl, rfl⟩

theorem comparesAdjacent_iff_acb :
    (Comparator.string .lt false).ComparesAdjacent (Collation.bytes.strcoll zeroMemory) heapACB
        [.string 0, .string 1, .string 2] ↔
      (Comparator.string .lt false).InOrder (Collation.bytes.strcoll zeroMemory) heapACB
        [.string 0, .string 1, .string 2] :=
  comparesAdjacent_iff zeroMemory (c := .bytes) trivial sized_heapACB takes_heapACB

/-- `(string<? "a" "c" "b")` is true. -/
theorem not_comparesAdjacent :
    ¬ (Comparator.string .lt false).ComparesAdjacent (Collation.bytes.strcoll zeroMemory) heapACB
      [.string 0, .string 1, .string 2] := by
  rintro ⟨r, hr, hiff⟩
  have htrue : (Comparator.string .lt false).run (Collation.bytes.strcoll zeroMemory) heapACB
      [.string 0, .string 1, .string 2] = .ok true := by decide +kernel
  rw [htrue] at hr
  cases hr
  have hchain := (List.isChain_cons_cons.mp (hiff.mp rfl)).2
  obtain ⟨s, t, hs, ht, hst⟩ := (List.isChain_cons_cons.mp hchain).1
  cases hs
  cases ht
  exact absurd hst (by decide)

end NaviScheme
