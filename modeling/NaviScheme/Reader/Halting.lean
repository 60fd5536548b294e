import Mathlib.Data.List.Infix
import NaviScheme.Lib.Fuel
import NaviScheme.Reader.Literal

/-!
# The loops of the reader end

What a port, in any state, still delivers is a list of characters (`NaviScheme.Port.Has`).
Every loop of the reader takes at least one character in each round, or meets the end; so each
of them returns, having left a suffix of the characters, or raises an error
(`NaviScheme.Halts`).
-/

namespace NaviScheme

open Fuel

/-- An error that the program raises. -/
def ReadExn.Raised : ReadExn → Prop
  | .error _ => True
  | .fault _ => False

/-! ### What is left in a port -/

/-- The characters that a port still delivers. What is in the buffer may have been put there by
`peek-u8`, which leaves `EOF` at the end of the file. -/
inductive Port.Has (p : Port) : List Char → Prop
  | done (he : p.gotEof = true) : p.Has []
  | full {c : Char} {cs : List Char} (he : p.gotEof = false) (hb : p.bufferFull = true)
    (hc : p.buffer = c.toNat) (hr : p.rest = Utf8.encode cs) : p.Has (c :: cs)
  | atEnd (he : p.gotEof = false) (hb : p.bufferFull = true) (hc : p.buffer = eofValue)
    (hr : p.rest = []) : p.Has []
  | empty {cs : List Char} (he : p.gotEof = false) (hb : p.bufferFull = false)
    (hr : p.rest = Utf8.encode cs) : p.Has cs

/-- The first of some characters, or `EOF`. -/
def frontCode : List Char → ℤ
  | [] => eofValue
  | c :: _ => c.toNat

@[simp] theorem frontCode_nil : frontCode [] = eofValue := rfl

@[simp] theorem frontCode_cons (c : Char) (cs : List Char) : frontCode (c :: cs) = c.toNat := rfl

theorem frontCode_eq_eof {cs : List Char} : frontCode cs = eofValue ↔ cs = [] := by
  cases cs with
  | nil => exact ⟨fun _ => rfl, fun _ => rfl⟩
  | cons c cs =>
    simp [frontCode, eofValue]

/-- A port has a suffix of some characters. -/
def Port.Leaves (p : Port) (cs : List Char) : Prop := ∃ ds, p.Has ds ∧ ds <:+ cs

/-- A port has fewer characters. -/
def Port.LeavesFewer (p : Port) (cs : List Char) : Prop :=
  ∃ ds, p.Has ds ∧ ds <:+ cs ∧ ds.length < cs.length

theorem Port.Has.leaves {p : Port} {cs : List Char} (h : p.Has cs) : p.Leaves cs :=
  ⟨cs, h, List.suffix_rfl⟩

theorem Port.LeavesFewer.leaves {p : Port} {cs : List Char} (h : p.LeavesFewer cs) : p.Leaves cs := by
  obtain ⟨ds, hds, hsuf, -⟩ := h
  exact ⟨ds, hds, hsuf⟩

theorem Port.Leaves.trans {p : Port} {cs ds : List Char} (h : p.Leaves ds) (hd : ds <:+ cs) :
    p.Leaves cs := by
  obtain ⟨es, hes, hsuf⟩ := h
  exact ⟨es, hes, hsuf.trans hd⟩

theorem Port.Leaves.fewer {p : Port} {c : Char} {cs : List Char} (h : p.Leaves cs) :
    p.LeavesFewer (c :: cs) := by
  obtain ⟨es, hes, hsuf⟩ := h
  have := hsuf.length_le
  exact ⟨es, hes, hsuf.trans (List.suffix_cons c cs), by rw [List.length_cons]; omega⟩

theorem Port.LeavesFewer.trans {p : Port} {cs ds : List Char} (h : p.LeavesFewer ds)
    (hd : ds <:+ cs) : p.LeavesFewer cs := by
  obtain ⟨es, hes, hsuf, hlt⟩ := h
  have := hd.length_le
  exact ⟨es, hes, hsuf.trans hd, by omega⟩

/-! ### One character -/

/-- A function of the reader returns, or raises an error. -/
abbrev Halts {α : Type} (f : ℕ → ReadM α) (p : Port) (Q : α → Port → Prop) : Prop :=
  Ends ReadExn.Raised f p Q

/-- What `navi_port_buffer_char` finds. -/
theorem naviPortBufferChar_has {p : Port} {cs : List Char} (hr : p.rest = Utf8.encode cs) :
    (cs = [] ∧ naviPortBufferChar p =
        .ok ((), { p with buffer := eofValue, rest := [], gotEof := true })) ∨
      ∃ c ds, cs = c :: ds ∧
        naviPortBufferChar p = .ok ((), { p with buffer := c.toNat, rest := Utf8.encode ds }) := by
  cases cs with
  | nil => exact Or.inl ⟨rfl, naviPortBufferChar_nil hr⟩
  | cons c ds => exact Or.inr ⟨c, ds, rfl, naviPortBufferChar_cons hr⟩

/-- A port that can be read, and what it still delivers. -/
structure Port.At (p : Port) (cs : List Char) : Prop where
  isOpen : p.inputClosed = false
  has : p.Has cs

theorem Port.openOn_at (kind : PortKind) (cs : List Char) :
    (Port.openOn kind (Utf8.encode cs)).At cs :=
  ⟨rfl, .empty rfl rfl rfl⟩

theorem Port.At.readChar {p : Port} {cs : List Char} (h : p.At cs) :
    ∃ p', readChar p = .ok (frontCode cs, p') ∧ p'.At cs.tail ∧ p'.foldCase = p.foldCase := by
  have hport : ∃ d p', naviPortReadChar p = .ok (d, p') ∧
      (d = .char (frontCode cs) ∨ d = .eof ∧ cs = []) ∧ p'.At cs.tail ∧
      p'.foldCase = p.foldCase := by
    obtain ⟨hopen, hhas⟩ := h
    have hc : checkCanRead p = .ok () := by simp [checkCanRead, hopen]
    unfold naviPortReadChar
    rw [hc, ok_bind]
    cases hhas with
    | done he =>
      simp only [he, if_true]
      exact ⟨_, _, rfl, Or.inr ⟨rfl, trivial⟩, ⟨hopen, .done he⟩, rfl⟩
    | full he hb hc hr =>
      simp only [he, hb, Bool.false_eq_true, if_false, if_true]
      exact ⟨_, _, rfl, Or.inl (by rw [hc]; rfl), ⟨hopen, .empty rfl rfl hr⟩, rfl⟩
    | atEnd he hb hc hr =>
      simp only [he, hb, Bool.false_eq_true, if_false, if_true]
      exact ⟨_, _, rfl, Or.inl (by rw [hc]; rfl), ⟨hopen, .empty rfl rfl hr⟩, rfl⟩
    | empty he hb hr =>
      simp only [he, hb, Bool.false_eq_true, if_false]
      rcases naviPortBufferChar_has hr with ⟨rfl, hbuf⟩ | ⟨c, ds, rfl, hbuf⟩
      · rw [hbuf]
        exact ⟨_, _, rfl, Or.inr ⟨rfl, rfl⟩, ⟨hopen, .done rfl⟩, rfl⟩
      · rw [hbuf]
        simp only [ok_bind, he, Bool.false_eq_true, if_false]
        exact ⟨_, _, rfl, Or.inl rfl, ⟨hopen, .empty rfl hb rfl⟩, rfl⟩
  obtain ⟨d, p', hrun, rfl | ⟨rfl, rfl⟩, hp', hfold⟩ := hport
  · exact ⟨p', readM_bind hrun, hp', hfold⟩
  · exact ⟨p', readM_bind hrun, hp', hfold⟩

theorem Port.At.peekChar {p : Port} {cs : List Char} (h : p.At cs) :
    ∃ p', peekChar p = .ok (frontCode cs, p') ∧ p'.At cs ∧ p'.foldCase = p.foldCase ∧
      (cs ≠ [] → p'.bufferFull = true) := by
  have hport : ∃ d p', naviPortPeekChar p = .ok (d, p') ∧
      (d = .char (frontCode cs) ∨ d = .eof ∧ cs = []) ∧ p'.At cs ∧ p'.foldCase = p.foldCase ∧
      (cs ≠ [] → p'.bufferFull = true) := by
    obtain ⟨hopen, hhas⟩ := h
    have hc : checkCanRead p = .ok () := by simp [checkCanRead, hopen]
    unfold naviPortPeekChar
    rw [hc, ok_bind]
    cases hhas with
    | done he =>
      simp only [he, if_true]
      exact ⟨_, _, rfl, Or.inr ⟨rfl, trivial⟩, ⟨hopen, .done he⟩, rfl, fun h => absurd rfl h⟩
    | full he hb hc hr =>
      simp only [he, hb, Bool.false_eq_true, if_false, if_true]
      exact ⟨_, _, rfl, Or.inl (by rw [hc]; rfl), ⟨hopen, .full he hb hc hr⟩, rfl, fun _ => hb⟩
    | atEnd he hb hc hr =>
      simp only [he, hb, Bool.false_eq_true, if_false, if_true]
      exact ⟨_, _, rfl, Or.inl (by rw [hc]; rfl), ⟨hopen, .atEnd he hb hc hr⟩, rfl, fun _ => hb⟩
    | empty he hb hr =>
      simp only [he, hb, Bool.false_eq_true, if_false]
      rcases naviPortBufferChar_has hr with ⟨rfl, hbuf⟩ | ⟨c, ds, rfl, hbuf⟩
      · rw [hbuf]
        exact ⟨_, _, rfl, Or.inl rfl, ⟨hopen, .done rfl⟩, rfl, fun h => absurd rfl h⟩
      · rw [hbuf]
        exact ⟨_, _, rfl, Or.inl rfl, ⟨hopen, .full he rfl rfl rfl⟩, rfl, fun _ => rfl⟩
  obtain ⟨d, p', hrun, rfl | ⟨rfl, rfl⟩, hp'⟩ := hport
  · exact ⟨p', readM_bind hrun, hp'⟩
  · exact ⟨p', readM_bind hrun, hp'⟩

/-- A port that is closed raises an error. -/
theorem checkCanRead_closed {p : Port} (h : p.inputClosed = true) :
    checkCanRead p = .error (internalError "attempted to read from closed port" []) := by
  simp [checkCanRead, h]

theorem halts_readChar {p : Port} {cs : List Char} (h : p.Has cs) :
    Halts (fun _ => readChar) p fun v p' => v = frontCode cs ∧ p'.Has cs.tail := by
  refine Ends.const ?_
  cases hclosed : p.inputClosed with
  | false =>
    obtain ⟨p', hrun, hp', -⟩ := Port.At.readChar ⟨hclosed, h⟩
    rw [hrun]
    exact ⟨rfl, hp'.has⟩
  | true =>
    have hrun : naviPortReadChar p = .error (internalError "attempted to read from closed port" []) := by
      rw [naviPortReadChar, checkCanRead_closed hclosed]
      rfl
    rw [readChar, readM_bind_error hrun]
    exact trivial

theorem halts_peekChar {p : Port} {cs : List Char} (h : p.Has cs) :
    Halts (fun _ => peekChar) p fun v p' => v = frontCode cs ∧ p'.Has cs := by
  refine Ends.const ?_
  cases hclosed : p.inputClosed with
  | false =>
    obtain ⟨p', hrun, hp', -⟩ := Port.At.peekChar ⟨hclosed, h⟩
    rw [hrun]
    exact ⟨rfl, hp'.has⟩
  | true =>
    have hrun : naviPortPeekChar p = .error (internalError "attempted to read from closed port" []) := by
      rw [naviPortPeekChar, checkCanRead_closed hclosed]
      rfl
    rw [peekChar, readM_bind_error hrun]
    exact trivial

/-- `iread_char` and `ipeek_char` raise an error at the end. -/
theorem halts_unlessEof {cs : List Char} {p : Port} {Q : ℤ → Port → Prop}
    (h : ∀ c ds, cs = c :: ds → Q c.toNat p) :
    Halts (fun _ => (if frontCode cs = eofValue then throw unexpectedEof
      else pure (frontCode cs) : ReadM ℤ)) p Q := by
  refine Ends.ite (fun _ => Ends.raise trivial) fun hne => Ends.ret ?_
  cases cs with
  | nil => exact absurd rfl hne
  | cons c ds => exact h c ds rfl

theorem halts_ireadChar {p : Port} {cs : List Char} (h : p.Has cs) :
    Halts (fun _ => ireadChar) p fun v p' => ∃ c ds, cs = c :: ds ∧ v = c.toNat ∧ p'.Has ds := by
  refine (halts_readChar h).bind ?_
  rintro v p' ⟨rfl, hp'⟩
  refine halts_unlessEof fun c ds hcs => ?_
  subst hcs
  exact ⟨c, ds, rfl, rfl, hp'⟩

theorem halts_ipeekChar {p : Port} {cs : List Char} (h : p.Has cs) :
    Halts (fun _ => ipeekChar) p fun v p' => ∃ c ds, cs = c :: ds ∧ v = c.toNat ∧ p'.Has cs := by
  refine (halts_peekChar h).bind ?_
  rintro v p' ⟨rfl, hp'⟩
  refine halts_unlessEof fun c ds hcs => ?_
  exact ⟨c, ds, hcs, rfl, hp'⟩

/-! ### Loops -/

/-- The characters behind the spaces. -/
def dropSpaces (cs : List Char) : List Char := cs.dropWhile fun c => isspace c.toNat

theorem dropSpaces_cons_of_pos {c : Char} {cs : List Char} (h : isspace c.toNat = true) :
    dropSpaces (c :: cs) = dropSpaces cs := List.dropWhile_cons_of_pos h

theorem dropSpaces_cons_of_neg {c : Char} {cs : List Char} (h : ¬ isspace c.toNat = true) :
    dropSpaces (c :: cs) = c :: cs := List.dropWhile_cons_of_neg h

theorem not_isspace_of_dropSpaces {c : Char} {cs ds : List Char} (h : dropSpaces cs = c :: ds) :
    isspace c.toNat = false := by
  have := List.head?_dropWhile_not (fun c : Char => isspace c.toNat) cs
  rw [dropSpaces] at h
  rw [h] at this
  simpa using this

theorem dropSpaces_suffix (cs : List Char) : dropSpaces cs <:+ cs := List.dropWhile_suffix _

theorem halts_peekFirstChar {cs : List Char} : ∀ {p : Port}, p.Has cs →
    Halts peekFirstChar p fun v p' => v = frontCode (dropSpaces cs) ∧ p'.Has (dropSpaces cs) := by
  induction cs with
  | nil =>
    intro p h
    refine Ends.succ ?_
    simp only [peekFirstChar]
    refine (halts_peekChar h).bind ?_
    rintro v p' ⟨rfl, hp'⟩
    exact Ends.ite (fun hv => absurd hv (by decide)) fun _ => Ends.ret ⟨rfl, hp'⟩
  | cons c cs ih =>
    intro p h
    refine Ends.succ ?_
    simp only [peekFirstChar]
    refine (halts_peekChar h).bind ?_
    rintro v p' ⟨rfl, hp'⟩
    refine Ends.ite (fun hv => (halts_readChar hp').bind ?_) fun hv => Ends.ret ?_
    · rintro - p'' ⟨-, hp''⟩
      rw [dropSpaces_cons_of_pos hv]
      exact ih hp''
    · rw [dropSpaces_cons_of_neg hv]
      exact ⟨rfl, hp'⟩

theorem halts_ipeekFirstChar {cs : List Char} {p : Port} (h : p.Has cs) :
    Halts ipeekFirstChar p fun v p' =>
      ∃ c ds, dropSpaces cs = c :: ds ∧ v = c.toNat ∧ p'.Has (dropSpaces cs) := by
  refine (halts_peekFirstChar h).bind ?_
  rintro v p' ⟨rfl, hp'⟩
  exact halts_unlessEof fun c ds hcs => ⟨c, ds, hcs, rfl, hp'⟩

/-- One round of such a loop, and what follows. -/
theorem halts_skipUntil_step {c : ℤ} {orEof : Bool} {cs : List Char} {p : Port} (h : p.Has cs)
    (hnext : ∀ {p' : Port}, p'.Has cs.tail → frontCode cs ≠ eofValue →
      Halts (skipUntil c orEof) p' fun _ p'' => p''.Leaves cs.tail) :
    Halts (skipUntil c orEof) p fun _ p' => p'.Leaves cs.tail := by
  have hrest : ∀ {p' : Port}, p'.Has cs.tail →
      Halts (fun n => if frontCode cs = c ∨ frontCode cs = eofValue then pure ()
        else skipUntil c orEof n) p' fun _ p'' => p''.Leaves cs.tail :=
    fun hp' => Ends.ite (fun _ => Ends.ret hp'.leaves) fun hne => hnext hp' fun he => hne (Or.inr he)
  refine Ends.succ ?_
  simp only [skipUntil]
  refine Ends.ite (fun _ => (halts_readChar h).bind ?_) fun _ => (halts_ireadChar h).bind ?_
  · rintro v p' ⟨rfl, hp'⟩
    exact hrest hp'
  · rintro v p' ⟨d, es, rfl, rfl, hp'⟩
    exact hrest hp'

/-- A loop that reads until a character, or the end, takes one character at least. -/
theorem halts_skipUntil (c : ℤ) (orEof : Bool) {cs : List Char} : ∀ {p : Port}, p.Has cs →
    Halts (skipUntil c orEof) p fun _ p' => p'.Leaves cs.tail := by
  induction cs with
  | nil => exact fun h => halts_skipUntil_step h fun _ hne => absurd rfl hne
  | cons d cs ih =>
    exact fun h => halts_skipUntil_step h fun hp' _ =>
      (ih hp').imp fun _ _ hl => hl.trans (List.tail_suffix cs)

theorem halts_consumeLine {cs : List Char} {p : Port} (h : p.Has cs) :
    Halts consumeLine p fun _ p' => p'.Leaves cs.tail :=
  halts_skipUntil newline true h

theorem Port.Leaves.of_tail {p : Port} {cs : List Char} (h : p.Leaves cs.tail) : p.Leaves cs :=
  h.trans (List.tail_suffix cs)

/-- The loop of `read_sharp` in a block comment. -/
theorem halts_blockComment {cs : List Char} : ∀ {p : Port}, p.Has cs →
    Halts blockComment p fun _ p' => p'.Leaves cs := by
  induction h : cs.length using Nat.strong_induction_on generalizing cs with
  | _ len ih =>
    intro p hp
    refine Ends.succ ?_
    simp only [blockComment]
    refine (halts_skipUntil (ascii '|') false hp).bind ?_
    rintro - p' hp'
    obtain ⟨ds, hds, hsuf⟩ := hp'.of_tail
    refine (halts_ireadChar hds).bind ?_
    rintro v p'' ⟨c, es, rfl, rfl, hp''⟩
    have hes : es <:+ cs := (List.suffix_cons c es).trans hsuf
    refine Ends.ite (fun _ => Ends.ret ⟨es, hp'', hes⟩) fun _ => ?_
    have hlt := hsuf.length_le
    rw [List.length_cons] at hlt
    exact (ih es.length (by omega) rfl hp'').imp fun _ _ hl => hl.trans hes

/-- A class of characters that `EOF` is not in. -/
theorem frontCode_ne_nil {ctype : ℤ → Bool} (heof : ctype (toChar eofValue) = false)
    {cs : List Char} (h : ctype (toChar (frontCode cs)) = true) : ∃ c ds, cs = c :: ds := by
  cases cs with
  | nil => exact absurd h (by rw [frontCode_nil, heof]; decide)
  | cons c ds => exact ⟨c, ds, rfl⟩

/-- The loop of `read_unum` takes a digit in each round. -/
theorem halts_readUnum {radix : ℤ} {ctype : ℤ → Bool} {tonum : ℤ → Except ReadExn ℤ}
    (heof : ctype (toChar eofValue) = false) (hnum : ∀ c e, tonum c = .error e → e.Raised)
    {cs : List Char} : ∀ {p : Port} (n : ℤ), p.Has cs →
      Halts (fun k => readUnum radix ctype tonum k n) p fun _ p' =>
        p'.Leaves cs ∧ (ctype (toChar (frontCode cs)) = true → p'.LeavesFewer cs) := by
  have hstep : ∀ {cs : List Char} {p : Port} (n : ℤ), p.Has cs →
      (∀ c ds, cs = c :: ds → ∀ {p' : Port} (m : ℤ), p'.Has ds →
        Halts (fun k => readUnum radix ctype tonum k m) p' fun _ p'' => p''.Leaves ds) →
      Halts (fun k => readUnum radix ctype tonum k n) p fun _ p' =>
        p'.Leaves cs ∧ (ctype (toChar (frontCode cs)) = true → p'.LeavesFewer cs) := by
    intro cs p n h hnext
    refine Ends.succ ?_
    simp only [readUnum]
    refine (halts_peekChar h).bind ?_
    rintro v p' ⟨rfl, hp'⟩
    refine Ends.ite (fun hv => ?_) fun hv => Ends.ret ⟨hp'.leaves, fun hv' => absurd hv' hv⟩
    obtain ⟨c, ds, rfl⟩ := frontCode_ne_nil heof hv
    rcases htonum : tonum (toChar (frontCode (c :: ds))) with e | d
    · exact ⟨.error e, (Converges.const (readM_lift_error rfl p')).bind_error, hnum _ _ htonum⟩
    · refine Ends.bind (Q := fun _ p'' => p''.Has (c :: ds)) (Ends.const ?_) ?_
      · rw [readM_lift_ok rfl]
        exact hp'
      · intro d p'' hp''
        refine (halts_readChar hp'').bind ?_
        rintro - q ⟨-, hq⟩
        exact (hnext c ds rfl _ hq).imp fun _ _ hl => ⟨hl.fewer.leaves, fun _ => hl.fewer⟩
  induction cs with
  | nil => exact fun n h => hstep n h fun _ _ h => nomatch h
  | cons c cs ih =>
    intro p n h
    refine hstep n h fun d ds hcs p' m hp' => ?_
    obtain ⟨-, rfl⟩ := List.cons_eq_cons.1 hcs
    exact (ih m hp').imp fun _ _ hl => hl.1

/-! ### Tokens -/

/-- What a token leaves: fewer characters, if there is a character that belongs to it. -/
def TakesToken (starts : ℤ → Prop) (cs : List Char) (p : Port) : Prop :=
  p.Leaves cs ∧ (starts (frontCode cs) → p.LeavesFewer cs)

section Numbers

variable {radix : ℤ} {ctype : ℤ → Bool} {tonum : ℤ → Except ReadExn ℤ} {cs : List Char} {p : Port}

theorem halts_readNum (heof : ctype (toChar eofValue) = false)
    (hnum : ∀ c e, tonum c = .error e → e.Raised) (h : p.Has cs) :
    Halts (readNum radix ctype tonum) p fun _ p' =>
      TakesToken (fun c => ctype (toChar c) = true) cs p' := by
  -- behind a sign
  have hsign : ∀ {s : ℤ} {p' : Port}, s ≠ toChar eofValue → toChar (frontCode cs) = s → p'.Has cs →
      ∀ f : ℤ → ℤ, Halts (fun k => do
        let _ ← readChar
        let n ← readUnum radix ctype tonum k 0
        return f n : ℕ → ReadM ℤ) p' fun _ p'' =>
          TakesToken (fun c => ctype (toChar c) = true) cs p'' := by
    intro s p' hs hcs hp' f
    refine (halts_readChar hp').bind ?_
    rintro - q ⟨-, hq⟩
    refine (halts_readUnum heof hnum 0 hq).bind ?_
    rintro n q' ⟨hl, -⟩
    refine Ends.ret ⟨hl.of_tail, fun _ => ?_⟩
    cases cs with
    | nil => exact absurd hcs.symm hs
    | cons c ds => exact hl.fewer
  unfold readNum
  refine (halts_peekChar h).bind ?_
  rintro v p' ⟨rfl, hp'⟩
  refine Ends.ite (fun hv => ?_) fun _ => Ends.ite (fun hv => ?_) fun _ => ?_
  · exact hsign (by decide) hv hp' fun n => toLong (-n)
  · exact hsign (by decide) hv hp' toLong
  · exact (halts_readUnum heof hnum 0 hp').bind fun n q hq => Ends.ret hq

theorem raised_decimalValue (c : ℤ) (e : ReadExn) (h : decimalValue c = .error e) : e.Raised :=
  nomatch h

theorem raised_hexValue (c : ℤ) (e : ReadExn) (h : hexValue c = .error e) : e.Raised := by
  unfold hexValue at h
  split_ifs at h
  cases h
  exact trivial

theorem halts_readDecimal (h : p.Has cs) : Halts readDecimal p fun _ p' =>
    TakesToken (fun c => isdigit (toChar c) = true) cs p' :=
  (halts_readNum (by decide) raised_decimalValue h).bind fun _ _ hq => Ends.ret hq

theorem halts_readHex (h : p.Has cs) : Halts readHex p fun _ p' => p'.Leaves cs :=
  (halts_readNum (by decide) raised_hexValue h).bind fun _ _ hq => Ends.ret hq.1

theorem halts_readOctal (h : p.Has cs) : Halts readOctal p fun _ p' => p'.Leaves cs :=
  (halts_readNum (by decide) raised_decimalValue h).bind fun _ _ hq => Ends.ret hq.1

theorem halts_readBinary (h : p.Has cs) : Halts readBinary p fun _ p' => p'.Leaves cs :=
  (halts_readNum (by decide) raised_decimalValue h).bind fun _ _ hq => Ends.ret hq.1

end Numbers

section Names

variable {ctype : ℤ → Except ReadExn Bool} {cs : List Char} {p : Port}

/-- A computation that does not touch the port. -/
theorem halts_lift {α : Type} {x : Except ReadExn α} (h : ∀ e, x = .error e → e.Raised) (p : Port) :
    Halts (fun _ => (liftM x : ReadM α)) p fun v p' => x = .ok v ∧ p' = p := by
  refine Ends.const ?_
  cases x with
  | error e => exact h e rfl
  | ok v => exact ⟨rfl, rfl⟩

/-- The buffer of `read_until` has room for every character of a port. -/
theorem u8Append_frontCode (str : List UInt8) {cs : List Char} (h : cs ≠ []) :
    ∃ str', u8Append str (str.length + 4) (frontCode cs) = .ok str' := by
  obtain ⟨c, ds, rfl⟩ := List.exists_cons_of_ne_nil h
  have := c.utf8Size_le_four
  exact ⟨_, u8Append_toNat (by omega)⟩

/-- The loop of `read_until` takes a character in each round. -/
theorem halts_readUntil (heof : ctype eofValue ≠ .ok false)
    (hraise : ∀ c e, ctype c = .error e → e.Raised) : ∀ {cs : List Char} {p : Port}
      (str : List UInt8), p.Has cs →
        Halts (fun n => readUntil ctype n str) p fun _ p' =>
          TakesToken (fun c => ctype c = .ok false) cs p' := by
  have hstep : ∀ {cs : List Char} {p : Port} (str : List UInt8), p.Has cs →
      (∀ c ds, cs = c :: ds → ∀ {p' : Port} (str' : List UInt8), p'.Has ds →
        Halts (fun n => readUntil ctype n str') p' fun _ p'' => p''.Leaves ds) →
      Halts (fun n => readUntil ctype n str) p fun _ p' =>
        TakesToken (fun c => ctype c = .ok false) cs p' := by
    intro cs p str h hnext
    refine Ends.succ ?_
    simp only [readUntil]
    refine (halts_peekChar h).bind ?_
    rintro v p' ⟨rfl, hp'⟩
    refine (halts_lift (hraise _) p').bind ?_
    rintro b q ⟨hb, rfl⟩
    refine Ends.ite (fun hb' => Ends.ret ⟨hp'.leaves, fun hv => ?_⟩) fun hb' => ?_
    · have hv' : ctype (frontCode cs) = .ok false := hv
      rw [hb, hb'] at hv'
      cases hv'
    · rw [Bool.not_eq_true] at hb'
      subst hb'
      have hne : cs ≠ [] := by
        rintro rfl
        exact heof hb
      obtain ⟨str', hstr'⟩ := u8Append_frontCode str hne
      obtain ⟨c, ds, rfl⟩ := List.exists_cons_of_ne_nil hne
      refine (halts_readChar hp').bind ?_
      rintro - q' ⟨-, hq'⟩
      have hdone : ∀ str', Halts (fun n => readUntil ctype n str') q' fun _ p'' =>
          TakesToken (fun c => ctype c = .ok false) (c :: ds) p'' := fun str' =>
        (hnext c ds rfl str' hq').imp fun _ _ hl => ⟨hl.fewer.leaves, fun _ => hl.fewer⟩
      refine Ends.ite (fun _ => (halts_lift ?_ q').bind ?_) fun _ => hdone _
      · intro e he
        exact nomatch hstr'.symm.trans he
      · rintro str'' q'' ⟨-, rfl⟩
        exact hdone str''
  intro cs
  induction cs with
  | nil => exact fun str h => hstep str h fun _ _ h => nomatch h
  | cons c cs ih =>
    intro p str h
    refine hstep str h fun d ds hcs p' str' hp' => ?_
    obtain ⟨-, rfl⟩ := List.cons_eq_cons.1 hcs
    exact (ih str' hp').imp fun _ _ hl => hl.1

theorem raised_ispipe (c : ℤ) (e : ReadExn) (h : ispipe c = .error e) : e.Raised := by
  unfold ispipe at h
  split_ifs at h
  cases h
  exact trivial

theorem isterminal_eof :
    (fun c => .ok (isterminal c) : ℤ → Except ReadExn Bool) eofValue ≠ .ok false :=
  fun h => absurd (Except.ok.inj h) (by decide)

theorem raised_isterminal (c : ℤ) (e : ReadExn)
    (h : (fun c => .ok (isterminal c) : ℤ → Except ReadExn Bool) c = .error e) : e.Raised := by
  cases h

theorem ispipe_eof : ispipe eofValue ≠ .ok false := by
  rw [ispipe, if_pos rfl]
  exact fun h => nomatch h

/-- A token that ends before a terminal. -/
theorem TakesToken.terminal (h : TakesToken
    (fun c => (fun c => .ok (isterminal c) : ℤ → Except ReadExn Bool) c = .ok false) cs p) :
    TakesToken (fun c => isterminal c = false) cs p :=
  ⟨h.1, fun hc => h.2 (congrArg Except.ok hc)⟩

theorem halts_readUntilTerminal (h : p.Has cs) : Halts readUntilTerminal p fun _ p' =>
    TakesToken (fun c => isterminal c = false) cs p' :=
  (halts_readUntil isterminal_eof raised_isterminal [] h).imp fun _ _ hq => hq.terminal

theorem halts_handleCase (str : List UInt8) (p : Port) :
    Halts (fun _ => handleCase str) p fun _ p' => p' = p := by
  unfold handleCase
  refine Ends.bind (Q := fun _ p' => p' = p) (Ends.const ?_) fun b p' hp' => ?_
  · change p = p
    rfl
  · exact Ends.ite (fun _ => Ends.ret hp') fun _ => Ends.ret hp'

theorem halts_readSymbol (heof : ctype eofValue ≠ .ok false)
    (hraise : ∀ c e, ctype c = .error e → e.Raised) (h : p.Has cs) :
    Halts (readSymbol ctype) p fun _ p' => TakesToken (fun c => ctype c = .ok false) cs p' := by
  unfold readSymbol
  refine (halts_readUntil heof hraise [] h).bind fun str p' hp' => ?_
  refine (halts_handleCase str p').bind ?_
  rintro str' q rfl
  exact Ends.ret hp'

theorem halts_readSymbolTerminal (h : p.Has cs) :
    Halts (readSymbol fun c => .ok (isterminal c)) p fun _ p' =>
      TakesToken (fun c => isterminal c = false) cs p' :=
  (halts_readSymbol isterminal_eof raised_isterminal h).imp fun _ _ hq => hq.terminal

theorem halts_readSymbolWithPrefix (first : ℤ) (h : p.Has cs) :
    Halts (readSymbolWithPrefix first) p fun _ p' => p'.Leaves cs := by
  unfold readSymbolWithPrefix
  refine (halts_readUntilTerminal h).bind fun str p' hp' => ?_
  refine (halts_handleCase str p').bind ?_
  rintro str' q rfl
  exact Ends.ret hp'.1

theorem raised_hexDigits (str : List UInt8) : ∀ (ch : ℤ) (e : ReadExn),
    hexDigits str ch = .error e → e.Raised := by
  induction str with
  | nil => exact fun ch e h => nomatch h
  | cons b str ih =>
    intro ch e h
    rw [hexDigits] at h
    split at h
    · rcases hv : hexValue (toChar b.toNat) with e' | v
      · rw [hv] at h
        cases h
        exact raised_hexValue _ _ hv
      · rw [hv] at h
        exact ih _ e h
    · cases h

theorem halts_readCharacter (X : ReadEnv) (h : p.Has cs) :
    Halts (readCharacter X) p fun _ p' => p'.Leaves cs := by
  unfold readCharacter
  refine (halts_readUntilTerminal h).bind fun str p' hp' => ?_
  split
  · exact Ends.ret hp'.1
  · refine (halts_handleCase _ p').bind ?_
    rintro str' q rfl
    refine Ends.ite (fun _ => ?_) fun _ => ?_
    · refine (halts_lift (raised_hexDigits _ _) q).bind ?_
      rintro ch q' ⟨-, rfl⟩
      exact Ends.ite (fun _ => Ends.ret hp'.1) fun _ => Ends.raise trivial
    · split
      · exact Ends.ret hp'.1
      · exact Ends.raise trivial

theorem Port.Has.setFoldCase {p : Port} {cs : List Char} (h : p.Has cs) (fold : Bool) :
    { p with foldCase := fold }.Has cs := by
  cases h with
  | done he => exact .done he
  | full he hb hc hr => exact .full he hb hc hr
  | atEnd he hb hc hr => exact .atEnd he hb hc hr
  | empty he hb hr => exact .empty he hb hr

theorem halts_naviPortFoldCase (fold : Bool) {p : Port} (h : p.Leaves cs) :
    Halts (fun _ => do
      naviPortFoldCase fold
      return Datum.void : ℕ → ReadM Datum) p fun _ p' => p'.Leaves cs := by
  refine Ends.const ?_
  obtain ⟨ds, hds, hsuf⟩ := h
  exact ⟨ds, hds.setFoldCase fold, hsuf⟩

theorem halts_readSharpBang (h : p.Has cs) :
    Halts readSharpBang p fun _ p' => p'.Leaves cs := by
  unfold readSharpBang
  refine (halts_readUntilTerminal h).bind fun str p' hp' => ?_
  obtain ⟨ds, hds, hsuf⟩ := hp'.1
  refine Ends.ite (fun _ => ?_) fun _ => Ends.ite (fun _ => ?_) fun _ => Ends.ite (fun _ => ?_)
    fun _ => Ends.ite (fun _ => ?_) fun _ => Ends.ite (fun _ => ?_) fun _ => ?_
  · exact (halts_skipUntil newline false hds).bind fun _ q hq => Ends.ret (hq.of_tail.trans hsuf)
  · exact (halts_consumeLine hds).bind fun _ q hq => Ends.ret (hq.of_tail.trans hsuf)
  · exact Ends.ret hp'.1
  · exact halts_naviPortFoldCase true hp'.1
  · exact halts_naviPortFoldCase false hp'.1
  · exact Ends.raise trivial

theorem halts_readBoolean (fst : ℤ) (h : p.Has cs) :
    Halts (readBoolean fst) p fun _ p' => p'.Leaves cs := by
  unfold readBoolean
  refine (halts_readUntilTerminal h).bind fun str p' hp' => ?_
  exact Ends.ite (fun _ => Ends.ret hp'.1) fun _ => Ends.ite (fun _ => Ends.ret hp'.1)
    fun _ => Ends.raise trivial

end Names

/-! ### The characters of a string literal -/

section Literals

variable {cs : List Char} {p : Port}

/-- The loop of `read_string_escape` after a space. -/
theorem halts_skipSpaces {cs : List Char} : ∀ {p : Port}, p.Has cs →
    Halts skipSpaces p fun _ p' => p'.Leaves cs := by
  induction cs with
  | nil =>
    intro p h
    refine Ends.succ ?_
    simp only [skipSpaces]
    refine (halts_ireadChar h).bind ?_
    rintro v p' ⟨c, ds, hcs, -⟩
    exact nomatch hcs
  | cons c cs ih =>
    intro p h
    refine Ends.succ ?_
    simp only [skipSpaces]
    refine (halts_ireadChar h).bind ?_
    rintro v p' ⟨c', ds, hcs, rfl, hp'⟩
    obtain ⟨rfl, rfl⟩ := List.cons_eq_cons.1 hcs
    have hsuf := List.suffix_cons c cs
    exact Ends.ite (fun _ => (ih hp').imp fun _ _ hl => hl.trans hsuf)
      fun _ => Ends.ret (hp'.leaves.trans hsuf)

theorem halts_readStringEscape (X : ReadEnv) (h : p.Has cs) :
    Halts (readStringEscape X) p fun _ p' => p'.Leaves cs := by
  unfold readStringEscape
  refine (halts_ireadChar h).bind ?_
  rintro v p' ⟨c, ds, rfl, rfl, hp'⟩
  have hsuf := List.suffix_cons c ds
  have hdone := hp'.leaves.trans hsuf
  refine Ends.ite (fun _ => Ends.ret hdone) fun _ => Ends.ite (fun _ => Ends.ret hdone) fun _ =>
    Ends.ite (fun _ => Ends.ret hdone) fun _ => Ends.ite (fun _ => Ends.ret hdone) fun _ =>
    Ends.ite (fun _ => Ends.ret hdone) fun _ => Ends.ite (fun _ => Ends.ret hdone) fun _ =>
    Ends.ite (fun _ => ?_) fun _ => Ends.ite (fun _ => ?_) fun _ => Ends.raise trivial
  · exact (halts_skipSpaces hp').imp fun _ _ hl => hl.trans hsuf
  · refine (halts_readUnum (by decide) raised_hexValue 0 hp').bind fun u q hq => ?_
    obtain ⟨es, hes, hsuf'⟩ := hq.1
    refine (halts_ipeekChar hes).bind ?_
    rintro d q' ⟨c', fs, rfl, rfl, hq'⟩
    refine Ends.ite (fun _ => (halts_readChar hq').bind ?_) fun _ =>
      Ends.ret (hq'.leaves.trans (hsuf'.trans hsuf))
    rintro - q'' ⟨-, hq''⟩
    exact Ends.ret (hq''.leaves.of_tail.trans (hsuf'.trans hsuf))

end Literals

end NaviScheme
