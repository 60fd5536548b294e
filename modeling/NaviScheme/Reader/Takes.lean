import NaviScheme.Reader.Token
import NaviScheme.Reader.Termination

/-!
# What a reader takes

A port that is open stands at a list of characters (`NaviScheme.Port.At`), whatever is in its
buffer and whether or not it folds case. A function of the reader returns on it, and leaves it at
what is left of the characters (`NaviScheme.Takes`), or it raises an error
(`NaviScheme.Raises`). Nothing is asked of the characters here: they need not be ASCII, and
nothing needs to follow them.
-/

namespace NaviScheme

open Fuel

section Rules

variable {α β : Type} {f : ℕ → ReadM α} {g : α → ℕ → ReadM β} {p : Port} {cs ds es : List Char}
  {v : α} {w : β}

/-- A function returns `v`, and leaves the port at the characters `ds`. -/
def Takes (f : ℕ → ReadM α) (p : Port) (v : α) (ds : List Char) : Prop :=
  ∃ p', Converges f p (.ok (v, p')) ∧ p'.At ds ∧ p'.foldCase = p.foldCase

/-- A function raises an error. -/
def Raises (f : ℕ → ReadM α) (p : Port) : Prop := ∃ e, Converges f p (.error e) ∧ e.Raised

/-- A port stands at one list of characters. -/
theorem Port.Has.unique (h : p.Has cs) (h' : p.Has ds) : cs = ds := by
  cases h with
  | done he =>
    cases h' with
    | done _ => rfl
    | full he' _ _ _ => cases he.symm.trans he'
    | atEnd he' _ _ _ => cases he.symm.trans he'
    | empty he' _ _ => cases he.symm.trans he'
  | full he hb hc hr =>
    cases h' with
    | done he' => cases he.symm.trans he'
    | full _ _ hc' hr' =>
      obtain rfl := Char.toNat_inj.mp (by exact_mod_cast hc.symm.trans hc')
      rw [Utf8.encode_injective (hr.symm.trans hr')]
    | atEnd _ _ hc' _ => exact absurd (hc.symm.trans hc') (code_ne_eofValue _)
    | empty _ hb' _ => cases hb.symm.trans hb'
  | atEnd he hb hc hr =>
    cases h' with
    | done _ => rfl
    | full _ _ hc' _ => exact absurd (hc'.symm.trans hc) (code_ne_eofValue _)
    | atEnd _ _ _ _ => rfl
    | empty _ hb' _ => cases hb.symm.trans hb'
  | empty he hb hr =>
    cases h' with
    | done he' => cases he.symm.trans he'
    | full _ hb' _ _ => cases hb.symm.trans hb'
    | atEnd _ hb' _ _ => cases hb.symm.trans hb'
    | empty _ _ hr' => exact Utf8.encode_injective (hr.symm.trans hr')

namespace Takes

theorem ret (h : p.At cs) (v : α) : Takes (fun _ => pure v) p v cs :=
  ⟨p, Converges.const rfl, h, rfl⟩

theorem bind (h : Takes f p v ds)
    (h' : ∀ p', p'.At ds → p'.foldCase = p.foldCase → Takes (g v) p' w es) :
    Takes (fun n => f n >>= fun b => g b n) p w es := by
  obtain ⟨p', hf, hp', hfold⟩ := h
  obtain ⟨q, hg, hq, hfold'⟩ := h' p' hp' hfold
  exact ⟨q, hf.bind hg, hq, hfold'.trans hfold⟩

theorem raises (h : Takes f p v ds)
    (h' : ∀ p', p'.At ds → p'.foldCase = p.foldCase → Raises (g v) p') :
    Raises (fun n => f n >>= fun b => g b n) p := by
  obtain ⟨p', hf, hp', hfold⟩ := h
  obtain ⟨e, hg, he⟩ := h' p' hp' hfold
  exact ⟨e, hf.bind hg, he⟩

theorem succ (h : Takes (fun n => f (n + 1)) p v ds) : Takes f p v ds := by
  obtain ⟨p', hf, hp'⟩ := h
  exact ⟨p', hf.succ, hp'⟩

/-- A function does one thing. -/
theorem unique {v' : α} (h : Takes f p v ds) (h' : Takes f p v' es) : v = v' ∧ ds = es := by
  obtain ⟨p', hf, hp', -⟩ := h
  obtain ⟨q, hg, hq, -⟩ := h'
  cases hf.unique hg
  exact ⟨rfl, hp'.has.unique hq.has⟩

theorem not_raises (h : Takes f p v ds) : ¬ Raises f p := by
  rintro ⟨e, he, -⟩
  obtain ⟨p', hf, -⟩ := h
  cases hf.unique he

end Takes

theorem Raises.throw {e : ReadExn} (he : e.Raised) (p : Port) :
    Raises (fun _ => throw e : ℕ → ReadM α) p :=
  ⟨e, Converges.const rfl, he⟩

theorem Raises.bind (h : Raises f p) : Raises (fun n => f n >>= fun b => g b n) p := by
  obtain ⟨e, hf, he⟩ := h
  exact ⟨e, hf.bind_error, he⟩

theorem Raises.succ (h : Raises (fun n => f (n + 1)) p) : Raises f p := by
  obtain ⟨e, hf, he⟩ := h
  exact ⟨e, hf.succ, he⟩

theorem takes_lift {x : Except ReadExn α} (hx : x = .ok v) (h : p.At cs) :
    Takes (fun _ => (liftM x : ReadM α)) p v cs :=
  ⟨p, Converges.const (readM_lift_ok hx p), h, rfl⟩

end Rules

variable {p : Port} {c : Char} {cs ds es : List Char}

/-! ### Characters -/

/-- The newline, as a character. -/
def newlineChar : Char := Char.ofNat 0xA

theorem takes_readChar (h : p.At cs) : Takes (fun _ => readChar) p (frontCode cs) cs.tail := by
  obtain ⟨p', hrun, hp', hfold⟩ := h.readChar
  exact ⟨p', Converges.const hrun, hp', hfold⟩

theorem takes_peekChar (h : p.At cs) : Takes (fun _ => peekChar) p (frontCode cs) cs := by
  obtain ⟨p', hrun, hp', hfold, -⟩ := h.peekChar
  exact ⟨p', Converges.const hrun, hp', hfold⟩

theorem takes_ireadChar (h : p.At (c :: cs)) : Takes (fun _ => ireadChar) p c.toNat cs := by
  refine (takes_readChar h).bind fun p' hp' _ => ?_
  exact Takes.ret hp' _

theorem raises_ireadChar (h : p.At []) : Raises (fun _ => ireadChar) p :=
  (takes_readChar h).raises fun p' _ _ => Raises.throw (e := unexpectedEof) trivial p'

theorem takes_ipeekChar (h : p.At (c :: cs)) :
    Takes (fun _ => ipeekChar) p c.toNat (c :: cs) := by
  refine (takes_peekChar h).bind fun p' hp' _ => ?_
  exact Takes.ret hp' _

theorem takes_peekFirstChar (h : p.At cs) :
    Takes peekFirstChar p (frontCode (dropSpaces cs)) (dropSpaces cs) := by
  induction cs generalizing p with
  | nil =>
    refine Takes.succ ((takes_peekChar h).bind fun p' hp' _ => ?_)
    exact Takes.ret hp' _
  | cons c cs ih =>
    refine Takes.succ ((takes_peekChar h).bind fun p' hp' _ => ?_)
    rw [frontCode_cons]
    by_cases hc : isspace c.toNat = true
    · simp only [if_pos hc]
      rw [dropSpaces_cons_of_pos hc]
      exact (takes_readChar hp').bind fun p'' hp'' _ => ih hp''
    · simp only [if_neg hc]
      rw [dropSpaces_cons_of_neg hc]
      exact Takes.ret hp' _

theorem takes_ipeekFirstChar (h : p.At cs) (hcs : dropSpaces cs = c :: ds) :
    Takes ipeekFirstChar p c.toNat (c :: ds) := by
  have hpeek := takes_peekFirstChar h
  rw [hcs] at hpeek
  refine hpeek.bind fun p' hp' _ => ?_
  exact Takes.ret hp' _

/-! ### Numbers -/

section Digits

variable {radix : ℤ} {ctype : ℤ → Bool} {tonum : ℤ → Except ReadExn ℤ}

/-- The characters that `read_unum` sees as digits. -/
def seenDigit (ctype : ℤ → Bool) (c : Char) : Bool := ctype (toChar c.toNat)

variable (radix) in
theorem takes_readUnum (hc : DigitClass ctype tonum) (n : ℤ) (h : p.At cs) :
    Takes (fun k => readUnum radix ctype tonum k n) p
      (unumOf radix tonum n (cs.takeWhile (seenDigit ctype)))
      (cs.dropWhile (seenDigit ctype)) := by
  induction cs generalizing p n with
  | nil =>
    have heof : ctype (toChar eofValue) = false :=
      Bool.eq_false_iff.mpr fun h => absurd (hc.hex _ h) (by decide)
    refine Takes.succ ((takes_peekChar h).bind fun p' hp' _ => ?_)
    simp only [frontCode_nil, heof, Bool.false_eq_true, if_false]
    exact Takes.ret hp' _
  | cons c cs ih =>
    refine Takes.succ ((takes_peekChar h).bind fun p' hp' _ => ?_)
    rw [frontCode_cons]
    by_cases hdigit : ctype (toChar c.toNat) = true
    · obtain ⟨d, hd⟩ := hc.exists_value _ hdigit
      have hvalue : unumDigit tonum c = d := by rw [unumDigit, hd]
      simp only [if_pos hdigit, hd]
      have hseen : seenDigit ctype c = true := hdigit
      rw [List.takeWhile_cons_of_pos hseen, List.dropWhile_cons_of_pos hseen, unumOf,
        List.foldl_cons, hvalue]
      exact (takes_lift rfl hp').bind fun p'' hp'' _ =>
        (takes_readChar hp'').bind fun q hq _ => ih _ hq
    · simp only [if_neg hdigit]
      have hseen : ¬ seenDigit ctype c = true := hdigit
      rw [List.takeWhile_cons_of_neg hseen, List.dropWhile_cons_of_neg hseen]
      exact Takes.ret hp' _

end Digits

/-! ### Tokens -/

/-- `read_until` takes the characters in front of what stops it. -/
theorem takes_readUntil {ctype : ℤ → Except ReadExn Bool} (str : List UInt8)
    (hds : ∀ d ∈ ds, ctype d.toNat = .ok false) (hes : ctype (frontCode es) = .ok true)
    (h : p.At (ds ++ es)) :
    Takes (fun n => readUntil ctype n str) p ((str ++ tokenBytes ds).takeWhile (· ≠ 0)) es := by
  induction ds generalizing p str with
  | nil =>
    refine Takes.succ ((takes_peekChar h).bind fun p' hp' _ => ?_)
    refine (takes_lift hes hp').bind fun q hq _ => ?_
    simp only [if_true, tokenBytes_nil, List.append_nil]
    exact Takes.ret hq _
  | cons d ds ih =>
    refine Takes.succ ((takes_peekChar h).bind fun p' hp' _ => ?_)
    refine (takes_lift (hds d List.mem_cons_self) hp').bind fun q hq _ => ?_
    simp only [Bool.false_eq_true, if_false]
    refine (takes_readChar hq).bind fun q' hq' _ => ?_
    have hrest := fun str => ih (p := q') str (fun e he => hds e (List.mem_cons_of_mem _ he)) hq'
    rw [tokenBytes_cons, ← List.append_assoc, bufferBytes]
    change Takes (fun n => if (d.toNat : ℤ) > 0xFF then _ else _) q' _ es
    by_cases hbig : 0xFF < d.toNat
    · have hsize := d.utf8Size_le_four
      simp only [if_pos hbig, show ((d.toNat : ℤ) > 0xFF) = True by simpa using hbig, if_true]
      exact (takes_lift (u8Append_toNat (by omega)) hq').bind fun q'' hq'' _ =>
        ih _ (fun e he => hds e (List.mem_cons_of_mem _ he)) hq''
    · simp only [if_neg hbig, show ((d.toNat : ℤ) > 0xFF) = False by simpa using hbig, if_false]
      exact hrest _

/-- What `handle_case` makes of a name. -/
def foldedName (fold : Bool) (str : List UInt8) : List UInt8 :=
  if fold then str.map fun b => toByte (tolower (toChar b.toNat)) else str

theorem takes_handleCase (str : List UInt8) (h : p.At cs) :
    Takes (fun _ => handleCase str) p (foldedName p.foldCase str) cs := by
  refine ⟨p, Converges.const ?_, h, rfl⟩
  change (if p.foldCase then (pure _ : ReadM _) else pure _) p = _
  rw [foldedName]
  split_ifs
  · rfl
  · rfl

/-- The characters of a token. -/
def inToken (c : Char) : Bool := !isterminal c.toNat

theorem takes_readUntilTerminal (h : p.At cs) :
    Takes readUntilTerminal p ((tokenBytes (cs.takeWhile inToken)).takeWhile (· ≠ 0))
      (cs.dropWhile inToken) := by
  refine takes_readUntil [] (fun d hd => ?_) ?_ (by rwa [List.takeWhile_append_dropWhile])
  · have hin : inToken d = true := List.mem_takeWhile_imp hd
    rw [inToken, Bool.not_eq_true'] at hin
    exact congrArg Except.ok hin
  · have hhead := List.head?_dropWhile_not inToken cs
    cases hes : cs.dropWhile inToken with
    | nil => rfl
    | cons e es =>
      rw [hes] at hhead
      have hout : inToken e = false := by simpa using hhead
      rw [inToken, Bool.not_eq_false'] at hout
      exact congrArg Except.ok hout

theorem takes_readSymbolTerminal (h : p.At cs) :
    Takes (readSymbol fun c => .ok (isterminal c)) p
      (.symbol (foldedName p.foldCase
        ((tokenBytes (cs.takeWhile inToken)).takeWhile (· ≠ 0)))) (cs.dropWhile inToken) := by
  refine (takes_readUntilTerminal h).bind fun p' hp' hfold => ?_
  refine (takes_handleCase _ hp').bind fun q hq _ => ?_
  rw [hfold]
  exact Takes.ret hq _

theorem takes_readSymbolWithPrefix (first : ℤ) (h : p.At cs) :
    Takes (readSymbolWithPrefix first) p
      (.symbol (toByte first :: foldedName p.foldCase
        ((tokenBytes (cs.takeWhile inToken)).takeWhile (· ≠ 0)))) (cs.dropWhile inToken) := by
  refine (takes_readUntilTerminal h).bind fun p' hp' hfold => ?_
  refine (takes_handleCase _ hp').bind fun q hq _ => ?_
  rw [hfold]
  exact Takes.ret hq _

end NaviScheme
