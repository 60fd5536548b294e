import NaviScheme.Strings.Access
import NaviScheme.Strings.OutputPort

/-!
# The string functions return

The lemmas of `NaviScheme.Strings.Texts` and `NaviScheme.Strings.Modify` say what the functions
have done when they return. Here it is shown that they return: the loops that decode find letters,
those that store stay in the block and `string_shift` does, too.
-/

namespace NaviScheme

variable {α : Type} {C : Coding α} {letter : UInt32 → Option α} {U : Unicode} {u : Unknown}

/-! ### Loops -/

/-- Letters for which there is room are written. -/
theorem appendChars_ok (hU : U.Implements C letter) {cs : List UInt32} {as : List α}
    (hcs : cs.map letter = as.map some) {capacity : ℤ} {data : List UInt8} {i : ℕ}
    (hcap : ((i + (C.encode as).length : ℕ) : ℤ) ≤ capacity)
    (hblock : i + (C.encode as).length ≤ data.length) :
    ∃ data', appendChars U capacity data i cs = .ok (data', i + (C.encode as).length) := by
  induction cs generalizing as data i with
  | nil =>
    obtain rfl : as = [] := by simpa using hcs.symm
    exact ⟨data, rfl⟩
  | cons c cs ih =>
    cases as with
    | nil => simp at hcs
    | cons b as =>
      obtain ⟨hc, hcs⟩ := List.cons.inj hcs
      rw [Coding.encode_cons, List.length_append] at hcap hblock
      obtain ⟨data₁, hstore⟩ := storeBytes_of_le (C.word b) data i (by omega)
      obtain ⟨hlen, -⟩ := storeBytes_spec hstore
      obtain ⟨data', hdata'⟩ : ∃ data', appendChars U capacity data₁ (i + (C.word b).length) cs =
          .ok (data', i + (C.word b).length + (C.encode as).length) :=
        ih hcs (by omega) (by omega)
      refine ⟨data', ?_⟩
      rw [appendChars, hU.append hc (by omega)]
      simp only [assertSome, ok_bind, hstore, hdata', Coding.encode_cons, List.length_append,
        Nat.add_assoc]

/-- The letters of a bytevector are counted. -/
theorem countChars_ok (hU : U.Implements C letter) {s : ℕ → UInt8} {size i n fuel : ℕ}
    {as : List α} (hat : BytesAt s i (C.encode as)) (hsize : size = i + (C.encode as).length)
    (hlt : size < 2 ^ 31) (hfuel : as.length ≤ fuel) :
    countChars U s size i n fuel = some (n + as.length) := by
  induction as generalizing i n fuel with
  | nil =>
    rw [Coding.encode_nil, List.length_nil, Nat.add_zero] at hsize
    cases fuel with
    | zero => rfl
    | succ fuel => rw [countChars, if_neg (by omega), List.length_nil, Nat.add_zero]
  | cons b as ih =>
    rw [Coding.encode_cons, BytesAt.append] at hat
    rw [Coding.encode_cons, List.length_append] at hsize
    rw [List.length_cons] at hfuel ⊢
    have hpos := C.word_length_pos b
    obtain ⟨fuel, rfl⟩ : ∃ m, fuel = m + 1 := ⟨fuel - 1, by omega⟩
    obtain ⟨c, hnext, -⟩ := hU.next (int32 size) hat.1 (by
      rw [int32_eq_self (by omega) (by omega)]
      omega)
    have hrest : countChars U s size (i + (C.word b).length) (n + 1) fuel =
        some (n + 1 + as.length) := ih hat.2 (by omega) (by omega)
    rw [countChars, if_pos (by omega), hnext]
    dsimp only
    rw [hrest]
    congr 1
    omega

/-! ### Sizes -/

theorem setSize_ok {str : NaviString} {n : ℕ} (hlt : n < 2 ^ 31) (hblock : n < str.data.length) :
    ∃ str', str.setSize n = .ok str' := by
  refine ⟨{ str with size := n, data := str.data.set n 0 }, ?_⟩
  rw [NaviString.setSize, int32_eq_self (by omega) (by omega), storeByte_eq_ok.mpr
    ⟨n, rfl, hblock, rfl⟩]
  rfl

theorem naviMakeString_size {n m length : ℕ} {str : NaviString}
    (h : naviMakeString u n m length = .ok str) : str.size = int32 m := by
  obtain ⟨data₁, -, h⟩ := bind_eq_ok h
  obtain ⟨data₂, -, h⟩ := bind_eq_ok h
  rw [pure_eq_ok, Except.ok.injEq] at h
  rw [← h]

theorem int32_lt (n : ℤ) : int32 n < 2 ^ 31 := by
  have h32 : ((2 ^ 32 : ℕ) : ℤ) = 4294967296 := by decide
  rw [int32, Int.bmod_def, h32]
  split <;> omega

/-! ### Checks -/

/-- What `navi_check_copy_to` lets through. -/
theorem naviCheckCopyTo_iff {to_ from_ : ℕ} {at_ start end_ : ℤ} :
    naviCheckCopyTo to_ at_ from_ start end_ = .ok () ↔
      0 ≤ at_ ∧ at_ < to_ ∧ 0 ≤ start ∧ start < from_ ∧ start ≤ end_ ∧ end_ ≤ from_ ∧
        at_ + (end_ - start) ≤ to_ := by
  refine ⟨naviCheckCopyTo_eq_ok, fun h => ?_⟩
  rw [naviCheckCopyTo, if_neg (by omega)]

/-- What it does not let through. -/
theorem naviCheckCopyTo_eq_error {to_ from_ : ℕ} {at_ start end_ : ℤ}
    (h : ¬ (0 ≤ at_ ∧ at_ < to_ ∧ 0 ≤ start ∧ start < from_ ∧ start ≤ end_ ∧ end_ ≤ from_ ∧
      at_ + (end_ - start) ≤ to_)) :
    naviCheckCopyTo to_ at_ from_ start end_ = .error (.raise "invalid indices for copy") := by
  rw [naviCheckCopyTo, if_pos (by omega)]

/-! ### Shifting -/

theorem shiftRight_ok {a pos diff i : ℕ} {str : NaviString}
    (hblock : i + diff < str.data.length) :
    ∃ str', str.shiftRight u a pos diff i = .ok str' := by
  induction i generalizing str with
  | zero => exact ⟨str, rfl⟩
  | succ i ih =>
    rw [NaviString.shiftRight]
    split
    · have hstore : storeByte str.data (i + 1 + diff : ℕ) (str.bytes u a (i + 1)) =
          .ok (str.data.set (i + 1 + diff) (str.bytes u a (i + 1))) :=
        storeByte_eq_ok.mpr ⟨i + 1 + diff, rfl, hblock, rfl⟩
      rw [hstore, ok_bind]
      exact ih (by rw [List.length_set]; omega)
    · exact ⟨str, rfl⟩

theorem shiftLeft_ok {a diff i n : ℕ} {str : NaviString} (hblock : i + n ≤ str.data.length) :
    ∃ str', str.shiftLeft u a diff i n = .ok str' := by
  induction n generalizing str i with
  | zero => exact ⟨str, rfl⟩
  | succ n ih =>
    have hstore : storeByte str.data i (str.bytes u a (i + diff)) =
        .ok (str.data.set i (str.bytes u a (i + diff))) :=
      storeByte_eq_ok.mpr ⟨i, rfl, by omega, rfl⟩
    rw [NaviString.shiftLeft, hstore, ok_bind]
    exact ih (by rw [List.length_set]; omega)

/-- `string_shift`, of a string that holds a text of its size. -/
theorem NaviString.Holds.shift_ok {str : NaviString} {t : List α} (hstr : str.Holds C t)
    {a : ℕ} (pos : ℕ) (diff : ℤ) (hpos : (pos : ℤ) ≤ str.size)
    (hfit : str.size + diff < 2 ^ 31) :
    ∃ str', str.shift u a pos diff = .ok str' := by
  have hsize := hstr.size
  have hle := hstr.size_le
  have hblock := hstr.block
  unfold NaviString.shift
  split
  · rename_i hdiff
    obtain ⟨str₁, hgrow⟩ := hstr.growStorage_ok (u := u) hdiff.le hfit
    obtain ⟨hs, -, hcap, -, hb, -⟩ := growStorage_spec hdiff.le (by omega) hle hstr.capacity_lt
      hblock hfit hgrow
    rw [hgrow, ok_bind]
    rcases lt_or_ge 0 str.size with hne | hempty
    · exact shiftRight_ok (by omega)
    · have hzero : (str₁.size - 1).toNat = 0 := by omega
      rw [hzero]
      exact ⟨str₁, rfl⟩
  · split
    · rename_i hdiff
      rcases lt_or_ge (pos + 1 : ℤ) (str.size - 1) with hlt | hge
      · exact shiftLeft_ok (by omega)
      · have hzero : (str.size - 1 - (pos + 1)).toNat = 0 := by omega
        rw [hzero]
        exact ⟨str, rfl⟩
    · exact ⟨str, rfl⟩

end NaviScheme
