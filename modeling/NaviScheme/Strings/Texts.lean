import Mathlib.Data.List.Forall2
import Mathlib.Data.List.GetD
import NaviScheme.Strings.Splice

/-!
# What the string operations do to texts

The loops of the string functions read and write letters one by one (`appendChars_spec`,
`charsSize_eq`, `countChars_spec`, ...). With them, the operations that make a string out of
characters or bytes are compared with what they do to texts, as far as they return.
-/

namespace NaviScheme

variable {α : Type} {C : Coding α} {letter : UInt32 → Option α} {U : Unicode} {u : Unknown}

theorem assertSome_eq_ok {β : Type} {o : Option β} {b : β} :
    assertSome o = .ok b ↔ o = some b := by
  cases o <;> simp [assertSome]

/-! ### Loops -/

section Loops

variable {s : ℕ → UInt8} {data : List UInt8}

theorem storeBytes_append {i : ℕ} {bs ds : List UInt8} :
    storeBytes data i (bs ++ ds) = storeBytes data i bs >>= (storeBytes · (i + bs.length) ds) := by
  induction bs generalizing data i with
  | nil => rfl
  | cons b bs ih =>
    rw [List.cons_append, storeBytes, storeBytes]
    cases storeByte data i b with
    | error e => rfl
    | ok data₁ =>
      rw [ok_bind, ok_bind, ih, List.length_cons]
      congr 2
      funext data
      congr 1
      omega

/-- Characters that have been written are letters, and their words are in the block. -/
theorem appendChars_spec (hU : U.Implements C letter) {capacity : ℤ} {cs : List UInt32}
    {i i' : ℕ} {data' : List UInt8} (h : appendChars U capacity data i cs = .ok (data', i')) :
    ∃ as, cs.map letter = as.map some ∧ storeBytes data i (C.encode as) = .ok data' ∧
      i' = i + (C.encode as).length := by
  induction cs generalizing data i with
  | nil =>
    cases h
    exact ⟨[], rfl, rfl, rfl⟩
  | cons c cs ih =>
    obtain ⟨bs, hbs, h⟩ := bind_eq_ok h
    obtain ⟨data₁, hstore, h⟩ := bind_eq_ok h
    obtain ⟨a, ha, rfl⟩ := hU.of_append (assertSome_eq_ok.1 hbs)
    obtain ⟨as, has, hrest, rfl⟩ := ih h
    refine ⟨a :: as, by rw [List.map_cons, ha, has, List.map_cons], ?_, ?_⟩
    · rw [Coding.encode_cons, storeBytes_append, hstore]
      exact hrest
    · rw [Coding.encode_cons, List.length_append]
      omega

/-- The sum of `u8_length` is the size of the letters; other characters count for nothing. -/
theorem u8Length_sum (hU : U.Implements C letter) (cs : List UInt32) :
    (cs.map U.u8Length).sum = ((C.encode (cs.filterMap letter)).length : ℤ) := by
  induction cs with
  | nil => rfl
  | cons c cs ih =>
    rw [List.map_cons, List.sum_cons, ih]
    cases hc : letter c with
    | none => rw [List.filterMap_cons_none hc, hU.length_other hc, zero_add]
    | some a =>
      rw [List.filterMap_cons_some hc, hU.length_letter hc, Coding.encode_cons,
        List.length_append]
      push_cast
      rfl

theorem filterMap_eq_of_map {cs : List UInt32} {as : List α} (h : cs.map letter = as.map some) :
    cs.filterMap letter = as := by
  have := congrArg (List.filterMap id) h
  simpa [List.filterMap_map] using this

/-- The loop of `make-string` writes the letter over and over again until the size is reached. -/
theorem fillChars_spec (hU : U.Implements C letter) {c : UInt32} {a : α} (hc : letter c = some a)
    {n i fuel : ℕ} {data' : List UInt8} (hfuel : n ≤ fuel)
    (h : fillChars U (i + n * (C.word a).length : ℕ) c data i fuel = .ok data') :
    storeBytes data i (C.encode (List.replicate n a)) = .ok data' := by
  have hpos := C.word_length_pos a
  induction n generalizing data i fuel with
  | zero =>
    rw [Nat.zero_mul, Nat.add_zero] at h
    cases fuel with
    | zero => exact h
    | succ fuel =>
      rw [fillChars, if_neg (lt_irrefl _)] at h
      exact h
  | succ n ih =>
    obtain ⟨fuel, rfl⟩ := Nat.exists_eq_add_of_le hfuel
    rw [Nat.succ_mul, Nat.add_right_comm, fillChars,
      if_pos (Int.ofNat_lt.2 (by omega))] at h
    obtain ⟨bs, hbs, h⟩ := bind_eq_ok h
    obtain ⟨data₁, hstore, h⟩ := bind_eq_ok h
    obtain ⟨a', ha', rfl⟩ := hU.of_append (assertSome_eq_ok.1 hbs)
    rw [hc] at ha'
    cases ha'
    have hsum : i + (n * (C.word a).length + (C.word a).length) =
        i + (C.word a).length + n * (C.word a).length := by omega
    rw [hsum] at h
    rw [List.replicate_succ, Coding.encode_cons, storeBytes_append, hstore]
    exact ih (by omega) h

/-- A letter that stands in the string is read. -/
theorem Unicode.Implements.u8Next_eq (hU : U.Implements C letter) {i : ℕ} {a : α} (length : ℤ)
    (hat : BytesAt s i (C.word a)) (hle : ((i + (C.word a).length : ℕ) : ℤ) ≤ length) :
    ∃ c, U.u8Next s i length = some (c, i + (C.word a).length) ∧ letter c = some a := by
  obtain ⟨c, hnext, hc⟩ := hU.next length hat hle
  exact ⟨c, by rw [Unicode.u8Next, hnext]; rfl, hc⟩

/-- Letters that stand in the string are measured. -/
theorem charsSize_eq (hU : U.Implements C letter) {size acc : ℤ} {as : List α} {j : ℕ}
    (hat : BytesAt s j (C.encode as)) (hsize : ((j + (C.encode as).length : ℕ) : ℤ) ≤ size)
    (hacc : 0 ≤ acc) (hfit : acc + (C.encode as).length < 2 ^ 31) :
    charsSize U s size as.length j acc = .ok (acc + (C.encode as).length) := by
  induction as generalizing j acc with
  | nil => simp [charsSize]
  | cons a as ih =>
    rw [Coding.encode_cons, BytesAt.append] at hat
    rw [Coding.encode_cons, List.length_append] at hsize hfit ⊢
    push_cast at hsize hfit
    obtain ⟨c, hnext, hc⟩ := hU.u8Next_eq size hat.1 (by push_cast; omega)
    rw [List.length_cons, charsSize, hnext]
    simp only [assertSome, ok_bind]
    rw [hU.length_letter hc, int32_eq_self (by omega) (by omega),
      ih hat.2 (by push_cast; omega) (by omega) (by omega)]
    push_cast
    rw [add_assoc]

/-- Letters that stand in the string are skipped. -/
theorem skipChars_eq (hU : U.Implements C letter) {size : ℤ} {as : List α} {j : ℕ}
    (hat : BytesAt s j (C.encode as)) (hsize : ((j + (C.encode as).length : ℕ) : ℤ) ≤ size) :
    skipChars U s size as.length j = .ok (j + (C.encode as).length) := by
  induction as generalizing j with
  | nil => rfl
  | cons a as ih =>
    rw [Coding.encode_cons, BytesAt.append] at hat
    rw [Coding.encode_cons, List.length_append] at hsize ⊢
    obtain ⟨c, hnext, -⟩ := hU.u8Next_eq size hat.1 (by omega)
    rw [List.length_cons, skipChars, hnext, ← Nat.add_assoc]
    exact ih hat.2 (by omega)

/-- A bytevector that has been counted to its end is a text of as many letters. -/
theorem countChars_spec (hU : U.Implements C letter) {size i n fuel m : ℕ} (hfit : size < 2 ^ 31)
    (hi : i ≤ size) (hfuel : size - i ≤ fuel) (h : countChars U s size i n fuel = some m) :
    ∃ as, BytesAt s i (C.encode as) ∧ i + (C.encode as).length = size ∧ m = n + as.length := by
  induction fuel generalizing i n with
  | zero =>
    cases h
    exact ⟨[], BytesAt.nil, by simp; omega, rfl⟩
  | succ fuel ih =>
    rw [countChars] at h
    split at h
    · rename_i hlt
      rw [int32_eq_self (by omega) (by omega)] at h
      split at h
      · cases h
      · rename_i c i' hnext
        obtain ⟨a, -, hat, rfl, hle⟩ := hU.of_next (by omega) hnext
        have hpos := C.word_length_pos a
        obtain ⟨as, has, hlen, rfl⟩ := ih (by omega) (by omega) h
        refine ⟨a :: as, ?_, ?_, ?_⟩
        · rw [Coding.encode_cons, BytesAt.append]
          exact ⟨hat, has⟩
        · rw [Coding.encode_cons, List.length_append]
          omega
        · rw [List.length_cons]
          omega
    · cases h
      exact ⟨[], BytesAt.nil, by simp; omega, rfl⟩

end Loops

/-! ### New strings -/

section Create

variable {h h' : StringHeap}

/-- A new string into which a text of its size has been stored. -/
theorem holds_of_make {str : NaviString} {as : List α} {data : List UInt8} {n m : ℕ}
    (hfit : (C.encode as).length < 2 ^ 31) (hn : n = (C.encode as).length) (hm : m = as.length)
    (hmake : naviMakeString u n n m = .ok str)
    (hstore : storeBytes str.data 0 (C.encode as) = .ok data) :
    NaviString.Holds C { str with data } as := by
  have hm' : m < 2 ^ 31 := hm ▸ (C.length_le_encode as).trans_lt hfit
  obtain ⟨hs, hl, hc, hb, hterm, -⟩ := naviMakeString_spec le_rfl (hn ▸ hfit) hm' hmake
  refine holds_of_store (by rw [hs, hn]) (by rw [hl, hm]) (by rw [hs, hc]) (by omega) (by omega)
    ?_ hstore
  rw [← hn]
  exact hterm

/-- The letter of an argument that is a character. -/
def StringArg.letter? (letter : UInt32 → Option α) : StringArg → Option α
  | .char c => letter c
  | _ => none

/-- The letters of a list of characters. -/
def letters (letter : UInt32 → Option α) (args : List StringArg) : List α :=
  args.filterMap (StringArg.letter? letter)

theorem charArgs_spec {args : List StringArg} {cs : List UInt32} (h : charArgs args = .ok cs) :
    letters letter args = cs.filterMap letter := by
  induction args generalizing cs with
  | nil =>
    cases h
    rfl
  | cons arg args ih =>
    obtain ⟨c, hc, h⟩ := bind_eq_ok h
    obtain ⟨cs', hcs, h⟩ := bind_eq_ok h
    cases h
    cases arg with
    | char c' =>
      cases hc
      rw [letters, List.filterMap_cons, List.filterMap_cons, ← ih hcs]
      rfl
    | fixnum n => cases hc
    | string a => cases hc
    | other => cases hc

theorem u32Size_eq (hU : U.Implements C letter) {cs : List UInt32}
    (hfit : (C.encode (cs.filterMap letter)).length < 2 ^ 31) :
    u32Size U cs = (C.encode (cs.filterMap letter)).length := by
  have h64 : (2 : ℕ) ^ 31 < 2 ^ 64 := by decide
  rw [u32Size, u8Length_sum hU, sizeT_natCast (hfit.trans h64)]

/-- `list_to_string` -/
theorem listToString_spec (hU : U.Implements C letter) {args : List StringArg}
    (hfit : (C.encode (letters letter args)).length < 2 ^ 31)
    (hrun : h.listToString U u args = .ok h') :
    ∃ str, h' = h.add str ∧ str.Holds C (letters letter args) := by
  obtain ⟨cs, hcs, hrun⟩ := bind_eq_ok hrun
  obtain ⟨str, hstr, hrun⟩ := bind_eq_ok hrun
  obtain ⟨⟨data, i⟩, hdata, hrun⟩ := bind_eq_ok hrun
  cases hrun
  obtain ⟨as, has, hstore, -⟩ := appendChars_spec hU hdata
  rw [charArgs_spec hcs] at hfit ⊢
  have hsize := u32Size_eq hU hfit
  rw [filterMap_eq_of_map has] at hfit hsize ⊢
  have hlen : cs.length = as.length := by simpa using congrArg List.length has
  exact ⟨_, rfl, holds_of_make hfit hsize hlen hstr hstore⟩

/-- `vector_to_string` -/
theorem vectorToString_spec (hU : U.Implements C letter) {args : List StringArg}
    (hfit : (C.encode (letters letter args)).length < 2 ^ 31)
    (hrun : h.vectorToString U u args = .ok h') :
    ∃ str, h' = h.add str ∧ str.Holds C (letters letter args) := by
  have h64 : (2 : ℕ) ^ 31 < 2 ^ 64 := by decide
  obtain ⟨cs, hcs, hrun⟩ := bind_eq_ok hrun
  obtain ⟨str, hstr, hrun⟩ := bind_eq_ok hrun
  obtain ⟨⟨data, i⟩, hdata, hrun⟩ := bind_eq_ok hrun
  obtain ⟨str', hset, hrun⟩ := bind_eq_ok hrun
  cases hrun
  obtain ⟨as, has, hstore, rfl⟩ := appendChars_spec hU hdata
  rw [charArgs_spec hcs] at hfit ⊢
  have hsize := u32Size_eq hU hfit
  rw [filterMap_eq_of_map has] at hfit hsize ⊢
  have hlen : cs.length = as.length := by simpa using congrArg List.length has
  have hn : sizeT (int32 (u32Size U cs)) = (C.encode as).length := by
    rw [hsize, int32_eq_self (by omega) (by omega), sizeT_natCast (by omega)]
  have hholds := holds_of_make hfit hn hlen hstr hstore
  rw [Nat.zero_add] at hset
  obtain ⟨-, rfl⟩ := setSize_spec hfit hset
  exact ⟨_, rfl, hholds.terminate⟩

/-- What `make-string` is asked for: a number of times the letter, if there is one. -/
def madeText (letter : UInt32 → Option α) (n : ℤ) (arg : Option StringArg) : List α :=
  ((arg.getD (.char 32)).letter? letter).elim [] (List.replicate n.toNat)

/-- `make-string`, unless the character is not a letter. -/
theorem makeString_spec (hU : U.Implements C letter) {n : ℤ} {arg : Option StringArg}
    (hletter : 0 < n → ((arg.getD (.char 32)).letter? letter).isSome)
    (hfit : (C.encode (madeText letter n arg)).length < 2 ^ 31)
    (hrun : h.makeString U u n arg = .ok h') :
    ∃ str, h' = h.add str ∧ str.Holds C (madeText letter n arg) := by
  have h64 : (2 : ℕ) ^ 31 < 2 ^ 64 := by decide
  unfold StringHeap.makeString at hrun
  split at hrun
  · cases hrun
  · rename_i hn
    obtain ⟨n, rfl⟩ := Int.eq_ofNat_of_zero_le (not_lt.1 hn)
    obtain ⟨c, hc, hrun⟩ := bind_eq_ok hrun
    have hchar : (arg.getD (.char 32)).letter? letter = letter c := by
      rcases arg with _ | ⟨_ | c' | _ | _⟩ <;> cases hc <;> rfl
    rw [madeText, hchar, Int.toNat_natCast] at hfit ⊢
    rw [hchar] at hletter
    generalize hlen : (letter c).elim [] (List.replicate n) = as at hfit ⊢
    -- the size of the text, and its number of letters
    have hsize : (n : ℤ) * U.u8Length c = ((C.encode as).length : ℤ) ∧ n = as.length ∧
        ∀ data data' : List UInt8, fillChars U ((C.encode as).length : ℕ) c data 0
          (C.encode as).length = .ok data' → storeBytes data 0 (C.encode as) = .ok data' := by
      cases ha : letter c with
      | some a =>
        rw [ha, Option.elim_some] at hlen
        subst hlen
        rw [hU.length_letter ha, Coding.encode_replicate_length]
        refine ⟨by push_cast; rfl, by simp, fun data data' hfill => ?_⟩
        have hfuel : n ≤ n * (C.word a).length := Nat.le_mul_of_pos_right n (C.word_length_pos a)
        exact fillChars_spec hU ha hfuel (by rwa [Nat.zero_add])
      | none =>
        rw [ha, Option.elim_none] at hlen
        subst hlen
        have hzero : n = 0 := by
          by_contra hne
          have := hletter (by omega)
          rw [ha] at this
          cases this
        subst hzero
        exact ⟨by simp, rfl, fun data data' hfill => hfill⟩
    obtain ⟨hsize, hn', hstore⟩ := hsize
    have hn64 : n < 2 ^ 64 := by
      have := C.length_le_encode as
      omega
    dsimp only at hrun
    rw [hsize, bmod_two_pow_64 hfit, sizeT_natCast (hfit.trans h64), sizeT_natCast hn64,
      Int.toNat_natCast] at hrun
    obtain ⟨str, hstr, hrun⟩ := bind_eq_ok hrun
    obtain ⟨data, hdata, hrun⟩ := bind_eq_ok hrun
    cases hrun
    exact ⟨_, rfl, holds_of_make hfit rfl hn' hstr (hstore _ _ hdata)⟩

/-- The value of an optional fixnum. -/
def fixnumArg (arg : Option StringArg) (n : ℤ) : ℤ :=
  match arg with
  | some (.fixnum k) => k
  | _ => n

theorem fixnumOr_eq_ok {arg : Option StringArg} {n k : ℤ} (harg : fixnumOr arg n = .ok k) :
    k = fixnumArg arg n := by
  rcases arg with _ | ⟨_ | _ | _ | _⟩ <;> cases harg <;> rfl

/-- `utf8->string`, of a whole bytevector. -/
theorem utf8ToString_spec (hU : U.Implements C letter) {vec : List UInt8}
    {start end_ : Option StringArg} (hstart : fixnumArg start 0 = 0)
    (hend : fixnumArg end_ vec.length = vec.length) (hfit : vec.length < 2 ^ 31)
    (hrun : h.utf8ToString U u vec start end_ = .ok h') :
    ∃ as str, C.encode as = vec ∧ h' = h.add str ∧ str.Holds C as := by
  obtain ⟨s, hs, hrun⟩ := bind_eq_ok hrun
  obtain ⟨e, he, hrun⟩ := bind_eq_ok hrun
  obtain ⟨⟨⟩, -, hrun⟩ := bind_eq_ok hrun
  rw [fixnumOr_eq_ok hs, fixnumOr_eq_ok he, hstart, hend] at hrun
  have hsize : ((vec.length : ℤ) - 0).toNat = vec.length := by simp
  rw [hsize] at hrun
  split at hrun
  · cases hrun
  · rename_i m hm
    obtain ⟨str, hstr, hrun⟩ := bind_eq_ok hrun
    obtain ⟨data, hdata, hrun⟩ := bind_eq_ok hrun
    cases hrun
    obtain ⟨as, hat, hlen, rfl⟩ := countChars_spec hU hfit (Nat.zero_le _) (by omega) hm
    rw [Nat.zero_add] at hlen
    -- the letters that have been counted are the bytes of the vector
    have hvec : C.encode as = vec := by
      refine List.ext_getElem hlen fun j hj hj' => ?_
      have := hat j hj
      rw [Nat.zero_add] at this
      exact this.symm.trans (List.getD_eq_getElem _ _ hj')
    have hdrop : (vec.drop (0 : ℤ).toNat).take vec.length = C.encode as := by
      rw [hvec]
      simp
    rw [hdrop] at hdata
    exact ⟨as, _, hvec, rfl, holds_of_make (by rwa [hvec]) hlen.symm (Nat.zero_add _) hstr hdata⟩

/-- `navi_cstr_to_string`, of bytes each of which is a letter. -/
theorem naviCstrToString_spec {cstr : List UInt8}
    (hbytes : ∀ b ∈ cstr.takeWhile (· ≠ 0), ∃ a, C.word a = [b])
    (hfit : (cstr.takeWhile (· ≠ 0)).length < 2 ^ 31)
    (hrun : h.naviCstrToString u cstr = .ok h') :
    ∃ as str, C.encode as = cstr.takeWhile (· ≠ 0) ∧ h' = h.add str ∧ str.Holds C as := by
  obtain ⟨str, hstr, hrun⟩ := bind_eq_ok hrun
  obtain ⟨data, hdata, hrun⟩ := bind_eq_ok hrun
  obtain ⟨as, has, hlen⟩ := C.exists_encode_eq _ hbytes
  rw [pure_eq_ok, Except.ok.injEq] at hrun
  subst hrun
  rw [← has] at hdata hfit
  have hsize : (C.encode as).length = (cstr.takeWhile (· ≠ 0)).length := by rw [has]
  have hholds := holds_of_make hfit hsize.symm hlen.symm hstr hdata
  refine ⟨as, _, has, rfl, ?_⟩
  rw [← hsize, int32_eq_self (by omega) (by omega)]
  have hsame := hholds.size
  dsimp only at hsame
  rw [← hsame]
  exact hholds

/-- `navi_open_output_string` -/
theorem naviOpenOutputString_spec (hrun : h.naviOpenOutputString u = .ok h') :
    ∃ str : NaviString, h'.strings = h.strings ++ [str] ∧ str.Holds C [] := by
  have hinit : stringInitSize < 2 ^ 31 := by decide
  obtain ⟨str, hstr, hrun⟩ := bind_eq_ok hrun
  cases hrun
  obtain ⟨hs, hl, hc, hb, hterm, -⟩ :=
    naviMakeString_spec (Nat.zero_le _) hinit (by omega) hstr
  exact ⟨str, rfl, hs, hl, by omega, by omega, by omega, fun j hj => absurd hj (Nat.not_lt_zero j),
    hterm⟩

end Create

/-! ### The strings of a heap -/

/-- The strings of a heap hold the texts. -/
def StringHeap.Holds (C : Coding α) (h : StringHeap) (texts : List (List α)) : Prop :=
  List.Forall₂ (NaviString.Holds C) h.strings texts

namespace StringHeap.Holds

variable {h : StringHeap} {T : List (List α)} {a : ℕ} {str : NaviString} {t : List α}

theorem get (hT : h.Holds C T) (hget : h.get a = .ok str) :
    str.Holds C (T.getD a []) ∧ a < h.strings.length := by
  unfold StringHeap.get at hget
  split at hget
  · rename_i str' hstr'
    cases hget
    obtain ⟨hlt, rfl⟩ := List.getElem?_eq_some_iff.1 hstr'
    have hlt' : a < T.length := hT.length_eq ▸ hlt
    refine ⟨?_, hlt⟩
    rw [List.getD_eq_getElem _ _ hlt']
    exact List.forall₂_iff_get.1 hT |>.2 a hlt hlt'
  · cases hget

theorem add (hT : h.Holds C T) (hstr : str.Holds C t) : (h.add str).Holds C (T ++ [t]) :=
  List.rel_append hT (.cons hstr .nil)

theorem put (hT : h.Holds C T) (hstr : str.Holds C t) : (h.put a str).Holds C (T.set a t) := by
  refine List.forall₂_iff_get.2 ⟨?_, fun i hi hi' => ?_⟩
  · simp only [StringHeap.put, List.length_set]
    exact hT.length_eq
  · simp only [StringHeap.put, List.get_eq_getElem, List.getElem_set]
    split
    · exact hstr
    · exact (List.forall₂_iff_get.1 hT).2 i (by simpa [StringHeap.put] using hi) (by simpa using hi')

end StringHeap.Holds

end NaviScheme
