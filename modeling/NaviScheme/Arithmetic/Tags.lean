import Mathlib.Data.Nat.Bitwise
import NaviScheme.Arithmetic.Word

/-!
# The tags of words

The constructors of immediates in `internal.h`, the macros of `navi.h` that read them, `navi_eqp`
and `navi_eqvp`, on words. A fixnum has a tag of one bit, the other immediates have one of four, and
a pointer has none: its last two bits are zero, and it is not zero as a whole.

`NaviValue` is what is put into a word. Each kind leaves its own remainders modulo 2, 4 and 16, so
that `navi_type` tells them apart, and the payload is in the quotient
(`NaviScheme.NaviWord.tags_disjoint`).
-/

namespace NaviScheme

namespace NaviWord

variable {w w' c : NaviWord} {b : Bool} {n : ℤ}

/-- `navi_make_void` -/
def makeVoid : NaviWord := 0x0

/-- `navi_make_nil` -/
def makeNil : NaviWord := 0xA

/-- `navi_make_eof` -/
def makeEof : NaviWord := 0xE

/-- `navi_make_char` -/
def makeChar (c : NaviWord) : NaviWord := (c <<< 4) ||| 0x6

/-- `navi_bool` -/
def bool (obj : NaviWord) : NaviWord := obj.sshiftRight 4

/-- `navi_char` -/
def char (obj : NaviWord) : NaviWord := obj.sshiftRight 4

/-- `navi_eqp` -/
def eqp (fst snd : NaviWord) : Bool := fst = snd

/-- Whether the `int` that a `long` becomes is true. -/
def isTrue (n : NaviWord) : Bool := n.setWidth 32 ≠ 0

/-- `navi_eqvp`; there is no result where the interpreter dies. -/
def eqvp (types : NaviWord → NaviType) (fst snd : NaviWord) : Option Bool :=
  if naviType types fst ≠ naviType types snd then some false
  else
    match naviType types fst with
    | some .naviVoid | some .naviNil | some .naviEof => some true
    | some .naviFixnum => some (fst.fixnum = snd.fixnum)
    | some .naviBool => some (if fst.bool ≠ 0 then isTrue snd.bool else snd.bool = 0)
    | some .naviChar => some (fst.char = snd.char)
    | some .naviTrap | none => none
    | _ => some (fst = snd)

/-! ### Remainders -/

theorem and_one_ne_zero : w &&& 1 ≠ 0 ↔ w.toNat % 2 = 1 := by
  have hand : (w &&& 1).toNat = w.toNat % 2 := by
    rw [BitVec.toNat_and]
    exact Nat.and_two_pow_sub_one_eq_mod w.toNat 1
  rw [Ne, ← BitVec.toNat_inj, hand]
  exact Nat.mod_two_ne_zero

theorem and_two_ne_zero : w &&& 2 ≠ 0 ↔ 2 ≤ w.toNat % 4 := by
  have hand : (w &&& 2).toNat = w.toNat / 2 % 2 * 2 := by
    rw [BitVec.toNat_and]
    refine (Nat.and_two_pow w.toNat 1).trans ?_
    rw [Nat.toNat_testBit]
    rfl
  rw [Ne, ← BitVec.toNat_inj, hand]
  change ¬ _ = 0 ↔ _
  omega

theorem toNat_and_mask : (w &&& 0xF).toNat = w.toNat % 16 := by
  rw [BitVec.toNat_and]
  exact Nat.and_two_pow_sub_one_eq_mod w.toNat 4

/-- `navi_type`, by remainders. -/
theorem naviType_eq (types : NaviWord → NaviType) (w : NaviWord) :
    w.naviType types =
      if w.toNat = 0 then some .naviVoid
      else if w.toNat % 2 = 1 then some .naviFixnum
      else if 2 ≤ w.toNat % 4 then w.immediateType
      else some (types w) := by
  have hzero : w = 0 ↔ w.toNat = 0 := BitVec.toNat_inj.symm
  simp only [naviType, and_one_ne_zero, and_two_ne_zero, hzero]

theorem toNat_makeBool (b : Bool) : (makeBool b).toNat = 16 * b.toNat + 2 := by
  cases b <;> rfl

theorem toNat_makeChar (hc : c.toNat < 2 ^ 59) : (makeChar c).toNat = 16 * c.toNat + 6 := by
  have hshift : (c <<< 4).toNat = c.toNat <<< 4 := by
    rw [BitVec.toNat_shiftLeft, Nat.mod_eq_of_lt]
    rw [Nat.shiftLeft_eq]
    omega
  rw [makeChar, BitVec.toNat_or, hshift]
  refine (Nat.shiftLeft_add_eq_or_of_lt (b := 6) (i := 4) (by decide) c.toNat).symm.trans ?_
  rw [Nat.shiftLeft_eq]
  omega

theorem char_makeChar (hc : c.toNat < 2 ^ 59) : (makeChar c).char = c := by
  have hword := toNat_makeChar hc
  rw [← BitVec.toInt_inj, char, BitVec.toInt_sshiftRight, Int.shiftRight_eq_div_pow,
    BitVec.toInt_eq_toNat_of_lt (by omega), BitVec.toInt_eq_toNat_of_lt (by omega), hword]
  omega

theorem bool_makeBool (b : Bool) : (makeBool b).bool = BitVec.ofNat 64 b.toNat := by
  cases b <;> rfl

theorem toNat_tagged (n : ℤ) : ((tagged n).toNat : ℤ) = (2 * n + 1) % 2 ^ 64 := by
  rw [tagged, BitVec.toNat_ofInt]
  omega

end NaviWord

/-! ### What is put into words -/

/-- The tags of the objects in memory are those of objects. -/
def NaviType.IsObject : NaviType → Prop
  | .naviVoid | .naviNil | .naviEof | .naviFixnum | .naviBool | .naviChar | .naviTrap => False
  | _ => True

/-- What a word may have in it. -/
inductive NaviValue
  | void
  | nil
  | eof
  /-- a fixnum, in the range of 63 bits -/
  | fixnum (n : ℤ) (hn : IsFixnum n)
  | bool (b : Bool)
  /-- a character -/
  | char (c : NaviWord) (hc : c.toNat < 2 ^ 59)
  /-- the address of an object, which is aligned -/
  | heap (a : NaviWord) (hne : a ≠ 0) (ha : a.toNat % 4 = 0)

namespace NaviValue

open NaviWord

/-- The word that the constructors make. -/
def word : NaviValue → NaviWord
  | .void => makeVoid
  | .nil => makeNil
  | .eof => makeEof
  | .fixnum n _ => makeFixnum (BitVec.ofInt 64 n)
  | .bool b => makeBool b
  | .char c _ => makeChar c
  | .heap a _ _ => a

/-- The kind of a value; `types` are the tags of the objects in memory. -/
def kind (types : NaviWord → NaviType) : NaviValue → NaviType
  | .void => .naviVoid
  | .nil => .naviNil
  | .eof => .naviEof
  | .fixnum _ _ => .naviFixnum
  | .bool _ => .naviBool
  | .char _ _ => .naviChar
  | .heap a _ _ => types a

variable {types : NaviWord → NaviType} {v v' : NaviValue}

/-- **`navi_type` recovers the kind.** -/
theorem naviType_word (types : NaviWord → NaviType) (v : NaviValue) :
    v.word.naviType types = some (v.kind types) := by
  cases v with
  | void | nil | eof => rfl
  | fixnum n hn =>
    rw [word, makeFixnum_ofInt]
    exact (isTagged_tagged n).naviType types
  | bool b => cases b <;> rfl
  | char c hc =>
    have hword := toNat_makeChar hc
    have hmask : (16 * c.toNat + 6) % 16 = 6 := by omega
    rw [word, naviType_eq, if_neg (by omega), if_neg (by omega), if_pos (by omega), immediateType,
      toNat_and_mask, hword, hmask]
    rfl
  | heap a hne ha =>
    have hzero : a.toNat ≠ 0 := fun h => hne (BitVec.toNat_inj.mp h)
    rw [word, naviType_eq, if_neg hzero, if_neg (by omega), if_neg (by omega)]
    rfl

/-- **Different values have different words.** -/
theorem word_injective : Function.Injective word := by
  intro v v' h
  -- memory with pairs only, so that addresses are a kind of their own
  have hkind : v.kind (fun _ => .naviPair) = v'.kind (fun _ => .naviPair) := by
    refine Option.some.inj ?_
    rw [← naviType_word, ← naviType_word, h]
  cases v with
  | void | nil | eof =>
    cases v' with
    | void | nil | eof => first | rfl | cases hkind
    | _ => cases hkind
  | fixnum n hn =>
    cases v' with
    | fixnum m hm =>
      rw [word, word, makeFixnum_ofInt, makeFixnum_ofInt, tagged_eq_iff, hn.fixnumBits_eq,
        hm.fixnumBits_eq] at h
      subst h
      rfl
    | _ => cases hkind
  | bool b =>
    cases v' with
    | bool b' =>
      cases b <;> cases b' <;> first | rfl | exact absurd h (by decide)
    | _ => cases hkind
  | char c hc =>
    cases v' with
    | char c' hc' =>
      have hchar := congrArg NaviWord.char h
      rw [word, word, char_makeChar hc, char_makeChar hc'] at hchar
      subst hchar
      rfl
    | _ => cases hkind
  | heap a hne ha =>
    cases v' with
    | heap a' hne' ha' =>
      obtain rfl : a = a' := h
      rfl
    | _ => cases hkind

/-- Values of one kind are put into words in one way. -/
theorem kind_pair_of_kind (htypes : ∀ a, (types a).IsObject) (h : v.kind types = v'.kind types) :
    v.kind (fun _ => .naviPair) = v'.kind (fun _ => .naviPair) := by
  have hobject (a : NaviWord) (t : NaviType) (ht : ¬ t.IsObject) : types a ≠ t :=
    fun heq => ht (heq ▸ htypes a)
  cases v with
  | heap a hne ha =>
    cases v' with
    | heap a' hne' ha' => rfl
    | _ => exact absurd h (hobject a _ not_false)
  | _ =>
    cases v' with
    | heap a hne ha => exact absurd h.symm (hobject a _ not_false)
    | _ => first | rfl | cases h

/-- `navi_eqvp` on objects. -/
theorem eqvp_object {a a' : NaviWord} {t : NaviType} (ht : t.IsObject)
    (ha : a.naviType types = some t) (ha' : a'.naviType types = some t) :
    eqvp types a a' = some (eqp a a') := by
  rw [eqvp, ha, ha', if_neg (by simp)]
  cases t with
  | naviVoid | naviNil | naviEof | naviFixnum | naviBool | naviChar | naviTrap => exact ht.elim
  | _ => rfl

/-- **`navi_eqvp` compares words.** -/
theorem eqvp_word (htypes : ∀ a, (types a).IsObject) (v v' : NaviValue) :
    eqvp types v.word v'.word = some (eqp v.word v'.word) := by
  have htype := naviType_word types v
  have htype' := naviType_word types v'
  by_cases hkind : v.kind types = v'.kind types
  · have hpair := kind_pair_of_kind htypes hkind
    cases v with
    | void | nil | eof =>
      cases v' with
      | void | nil | eof => rfl
      | _ => cases hpair
    | fixnum n hn =>
      cases v' with
      | fixnum m hm =>
        have hiff : (tagged n).fixnum = (tagged m).fixnum ↔ tagged n = tagged m := by
          refine ⟨fun h => ?_, congrArg _⟩
          rw [← (isTagged_tagged n).tagged_value, ← (isTagged_tagged m).tagged_value, value, h,
            value]
        simp only [word, makeFixnum_ofInt, kind] at htype htype' ⊢
        rw [eqvp, htype, htype', if_neg (by simp)]
        exact congrArg some (decide_eq_decide.mpr hiff)
      | _ => cases hpair
    | bool b =>
      cases v' with
      | bool b' => cases b <;> cases b' <;> rfl
      | _ => cases hpair
    | char c hc =>
      cases v' with
      | char c' hc' =>
        have hiff : (makeChar c).char = (makeChar c').char ↔ makeChar c = makeChar c' := by
          refine ⟨fun h => ?_, congrArg _⟩
          rw [char_makeChar hc, char_makeChar hc'] at h
          rw [h]
        simp only [word, kind] at htype htype' ⊢
        rw [eqvp, htype, htype', if_neg (by simp)]
        exact congrArg some (decide_eq_decide.mpr hiff)
      | _ => cases hpair
    | heap a hne ha => exact eqvp_object (htypes a) htype (htype'.trans (congrArg some hkind.symm))
  · rw [eqvp, htype, htype', if_pos (by simpa using hkind)]
    refine congrArg some (decide_eq_false fun heq => hkind ?_).symm
    rw [word_injective heq]

end NaviValue

/-- The tags of the objects in memory. -/
structure HeapTags where
  /-- the tag at an address -/
  tag : NaviWord → NaviType
  /-- it is one of an object -/
  isObject : ∀ a, (tag a).IsObject

namespace NaviWord

/-- **The kinds of words are disjoint**: `navi_type` recovers the kind and the macros the payload of
whatever is put into a word, different values have different words, and `navi_eqp` and `navi_eqvp`
agree. -/
theorem tags_disjoint (tags : HeapTags) :
    (∀ v : NaviValue, v.word.naviType tags.tag = some (v.kind tags.tag)) ∧
      (∀ n, IsFixnum n → (makeFixnum (BitVec.ofInt 64 n)).fixnum.toInt = n) ∧
      (∀ b, (makeBool b).bool = BitVec.ofNat 64 b.toNat) ∧
      (∀ c : NaviWord, c.toNat < 2 ^ 59 → (makeChar c).char = c) ∧
      (∀ v v' : NaviValue, v ≠ v' → v.word ≠ v'.word) ∧
      ∀ v v' : NaviValue, eqvp tags.tag v.word v'.word = some (eqp v.word v'.word) := by
  refine ⟨NaviValue.naviType_word tags.tag, fun n hn => ?_, bool_makeBool, fun c => char_makeChar,
    fun v v' hne heq => hne (NaviValue.word_injective heq), NaviValue.eqvp_word tags.isObject⟩
  rw [makeFixnum_ofInt]
  exact (value_tagged n).trans hn.fixnumBits_eq

end NaviWord

end NaviScheme
