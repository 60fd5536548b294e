import NaviScheme.Heap.Object
import NaviScheme.Reader.Numeral

/-!
# Tagged words

A `navi_obj` as the word of 64 bits that it is (`NaviWord`): the tag is in its low bits, and a fixnum
has its number in the other 63. The functions of `navi.h` and `internal.h` that shift it in and out
are here, and the macros of `macros.h` that compute on it as it is. Words are computed with modulo
`2 ^ 64`.

The words that end in a `1` are those of fixnums, and `NaviWord.tagged` gives one for each integer,
the same for integers that agree modulo `2 ^ 63`. The macros for sums, differences and products
respect it, so that they compute modulo `2 ^ 63`.
-/

namespace NaviScheme

/-- A `navi_obj`, or a `long`. -/
abbrev NaviWord := BitVec 64

namespace NaviWord

variable {w w' : NaviWord} {m n : ℤ}

/-- `navi_make_fixnum` -/
def makeFixnum (num : NaviWord) : NaviWord := (num <<< 1) ||| 1

/-- `navi_make_bool` -/
def makeBool (b : Bool) : NaviWord := ((if b then 1 else 0) <<< 4) ||| 2

/-- `navi_fixnum` -/
def fixnum (obj : NaviWord) : NaviWord := obj.sshiftRight 1

/-- `navi_immediate_type` -/
def immediateType (obj : NaviWord) : Option NaviType :=
  match (obj &&& 0xF).toNat with
  | 0x2 => some .naviBool
  | 0x6 => some .naviChar
  | 0xA => some .naviNil
  | 0xE => some .naviEof
  | _ => none

/-- `navi_type`; `types` are the tags of the objects in memory. -/
def naviType (types : NaviWord → NaviType) (obj : NaviWord) : Option NaviType :=
  if obj = 0 then some .naviVoid
  else if obj &&& 1 ≠ 0 then some .naviFixnum
  else if obj &&& 2 ≠ 0 then obj.immediateType
  else some (types obj)

/-- `navi_fixnum_fix` -/
def fix (n : NaviWord) : NaviWord := (n <<< 1) ||| 1

/-- `navi_fixnum_unfix` -/
def unfix (n : NaviWord) : NaviWord := n.sshiftRight 1

/-- `navi_u_fixnum_plus` -/
def uPlus (n₁ n₂ : NaviWord) : NaviWord := (n₁ - 1) + n₂

/-- `navi_fixnum_plus` -/
def plus (n₁ n₂ : NaviWord) : NaviWord := uPlus n₁ n₂ ||| 1

/-- `navi_u_fixnum_minus` -/
def uMinus (n₁ n₂ : NaviWord) : NaviWord := n₁ - n₂ + 1

/-- `navi_fixnum_minus` -/
def minus (n₁ n₂ : NaviWord) : NaviWord := uMinus n₁ n₂ ||| 1

/-- `navi_fixnum_times` -/
def times (n₁ n₂ : NaviWord) : NaviWord := fix (unfix n₁ * unfix n₂)

/-! ### The words of fixnums -/

/-- The word of a fixnum, by its low bit. -/
def IsTagged (w : NaviWord) : Prop := w.getLsbD 0 = true

/-- The number of a fixnum. -/
def value (w : NaviWord) : ℤ := w.fixnum.toInt

/-- The word with the tag of fixnums that has a number in its other bits. -/
def tagged (n : ℤ) : NaviWord := BitVec.ofInt 64 (2 * n + 1)

theorem tagged_eq_iff : tagged m = tagged n ↔ fixnumBits m = fixnumBits n := by
  have h : tagged m = tagged n ↔ (2 * m + 1).bmod (2 ^ 64) = (2 * n + 1).bmod (2 ^ 64) := by
    rw [← BitVec.toInt_inj, tagged, tagged, BitVec.toInt_ofInt, BitVec.toInt_ofInt]
  rw [h, fixnumBits, fixnumBits, Int.bmod_def, Int.bmod_def, Int.bmod_def, Int.bmod_def]
  omega

theorem value_tagged (n : ℤ) : (tagged n).value = fixnumBits n := by
  rw [value, fixnum, tagged, BitVec.toInt_sshiftRight, BitVec.toInt_ofInt, Int.shiftRight_eq_div_pow,
    fixnumBits, Int.bmod_def, Int.bmod_def]
  omega

theorem isTagged_tagged (n : ℤ) : (tagged n).IsTagged := by
  rw [IsTagged, tagged, ← BitVec.testBit_toNat, BitVec.toNat_ofInt, Nat.testBit_zero,
    decide_eq_true_eq]
  omega

/-- Every word with the tag is that of its number. -/
theorem IsTagged.tagged_value (h : w.IsTagged) : tagged w.value = w := by
  have hbit : w.toNat % 2 = 1 := by
    rwa [IsTagged, ← BitVec.testBit_toNat, Nat.testBit_zero, decide_eq_true_eq] at h
  have hlt := w.isLt
  rw [← BitVec.toInt_inj, tagged, BitVec.toInt_ofInt, value, fixnum, BitVec.toInt_sshiftRight,
    Int.shiftRight_eq_div_pow, BitVec.toInt_eq_toNat_bmod, Int.bmod_def, Int.bmod_def]
  omega

/-- The number of a fixnum is in the range. -/
theorem isFixnum_value (w : NaviWord) : IsFixnum w.value := by
  have hle := w.le_toInt
  have hlt := w.toInt_lt
  rw [value, fixnum, BitVec.toInt_sshiftRight, Int.shiftRight_eq_div_pow, IsFixnum]
  omega

/-- Setting the tag changes nothing where it is set. -/
theorem IsTagged.or_one (h : w.IsTagged) : w ||| 1 = w := by
  ext i hi
  cases i with
  | zero => simpa [IsTagged] using h
  | succ i => simp

theorem IsTagged.naviType (h : w.IsTagged) (types : NaviWord → NaviType) :
    w.naviType types = some .naviFixnum := by
  have hone : w &&& 1 ≠ 0 := fun hzero => by
    have hbit := congrArg (fun x => BitVec.getLsbD x 0) hzero
    simp only [BitVec.getLsbD_and] at hbit
    rw [h] at hbit
    simp at hbit
  have hne : w ≠ 0 := fun hzero => hone (by rw [hzero]; rfl)
  rw [NaviWord.naviType, if_neg hne, if_pos hone]

/-! ### Computing on them -/

theorem toNat_one : BitVec.toNat (1 : NaviWord) = 1 := rfl

theorem fix_ofInt (n : ℤ) : fix (BitVec.ofInt 64 n) = tagged n := by
  have hzero : (BitVec.ofInt 64 n <<< 1) &&& 1#64 = 0#64 := by
    ext i hi
    cases i with
    | zero => simp
    | succ i => simp
  have hfix : fix (BitVec.ofInt 64 n) = (BitVec.ofInt 64 n <<< 1) + 1#64 :=
    (BitVec.add_eq_or_of_and_eq_zero _ _ hzero).symm
  rw [hfix, ← BitVec.toNat_inj, tagged, BitVec.toNat_add, BitVec.toNat_shiftLeft,
    BitVec.toNat_ofInt, BitVec.toNat_ofInt, BitVec.toNat_ofNat, Nat.shiftLeft_eq]
  omega

theorem makeFixnum_ofInt (n : ℤ) : makeFixnum (BitVec.ofInt 64 n) = tagged n := fix_ofInt n

theorem unfix_tagged (n : ℤ) : unfix (tagged n) = BitVec.ofInt 64 (fixnumBits n) := by
  rw [← value_tagged, value, BitVec.ofInt_toInt]
  rfl

theorem plus_tagged (m n : ℤ) : plus (tagged m) (tagged n) = tagged (m + n) := by
  have h : uPlus (tagged m) (tagged n) = tagged (m + n) := by
    rw [uPlus, ← BitVec.toNat_inj, BitVec.toNat_add, BitVec.toNat_sub, tagged, tagged, tagged,
      BitVec.toNat_ofInt, BitVec.toNat_ofInt, BitVec.toNat_ofInt, toNat_one]
    omega
  rw [plus, h, (isTagged_tagged _).or_one]

theorem minus_tagged (m n : ℤ) : minus (tagged m) (tagged n) = tagged (m - n) := by
  have h : uMinus (tagged m) (tagged n) = tagged (m - n) := by
    rw [uMinus, ← BitVec.toNat_inj, BitVec.toNat_add, BitVec.toNat_sub, tagged, tagged, tagged,
      BitVec.toNat_ofInt, BitVec.toNat_ofInt, BitVec.toNat_ofInt, toNat_one]
    omega
  rw [minus, h, (isTagged_tagged _).or_one]

theorem times_tagged (m n : ℤ) : times (tagged m) (tagged n) = tagged (m * n) := by
  rw [times, unfix_tagged, unfix_tagged, ← BitVec.ofInt_mul, fix_ofInt, tagged_eq_iff, fixnumBits,
    fixnumBits, fixnumBits, Int.bmod_mul_bmod, Int.mul_bmod_bmod, fixnumBits]

end NaviWord

end NaviScheme
