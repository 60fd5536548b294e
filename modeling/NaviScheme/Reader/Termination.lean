import NaviScheme.Reader.Control
import NaviScheme.Reader.StringObject

/-!
# `navi_read` ends

Each call of a reader inside another one comes behind at least one character, but for the call
of `navi_read` on an element of a list; so the number of characters that are left, and which of
the functions is called, decrease together (`NaviScheme.Call.measure`), and every call ends
(`NaviScheme.Call.ends`). It returns or raises an error as long as no string literal that it
comes to (`NaviScheme.Comes`) has too many bytes for the buffer of `read_string`, or a
character without an encoding (`NaviScheme.LiteralFits`).
-/

namespace NaviScheme

open Fuel

variable {X : ReadEnv} {cs : List Char} {p : Port}

/-! ### The heads -/

theorem isdigit_toChar {c : ℤ} (h : isdigit c = true) : isdigit (toChar c) = true := by
  have h0 : ('0').toNat = 48 := rfl
  have h9 : ('9').toNat = 57 := rfl
  have hc : 48 ≤ c ∧ c ≤ 57 := by
    simp only [isdigit, ascii, h0, h9, decide_eq_true_eq] at h
    exact_mod_cast h
  rw [toChar_of_lt (by omega) (by omega)]
  exact h

theorem halts_readHead (h : p.Has cs) : Halts readHead p fun next p' =>
    p'.LeavesFewer cs ∨ next = .done .eof ∧ dropSpaces cs = [] ∧ p'.Has [] := by
  unfold readHead
  refine (halts_peekFirstChar h).bind ?_
  rintro v p' ⟨rfl, hp'⟩
  have hsuf := dropSpaces_suffix cs
  have hspace : ∀ c ds, dropSpaces cs = c :: ds → isspace c.toNat = false :=
    fun _ _ => not_isspace_of_dropSpaces
  generalize dropSpaces cs = es at hp' hsuf hspace
  rcases es with - | ⟨c, es⟩
  · -- the end
    rw [frontCode_nil]
    refine Ends.ite (fun h => absurd h (by decide)) fun _ => Ends.ite (fun h => absurd h (by decide))
      fun _ => Ends.ite (fun h => absurd h (by decide)) fun _ => Ends.ite
      (fun h => absurd h (by decide)) fun _ => Ends.ite (fun h => absurd h (by decide)) fun _ =>
      Ends.ite (fun h => absurd h (by decide)) fun _ => Ends.ite (fun h => absurd h (by decide))
      fun _ => Ends.ite (fun h => absurd h (by decide)) fun _ => Ends.ite
      (fun h => absurd h (by decide)) fun _ => Ends.ite (fun _ => Ends.ret (Or.inr ⟨rfl, rfl, hp'⟩))
      fun h => absurd rfl h
  · rw [frontCode_cons]
    have hfewer : ∀ {q : Port}, q.Leaves es → q.LeavesFewer cs := fun hq => hq.fewer.trans hsuf
    have hread : ∀ {q : Port}, q.Has (c :: es) → ∀ next : ReadNext, Halts (fun _ => do
        let _ ← readChar
        return next : ℕ → ReadM ReadNext) q fun next p' =>
          p'.LeavesFewer cs ∨ next = .done .eof ∧ c :: es = [] ∧ p'.Has [] := by
      intro q hq next
      refine (halts_readChar hq).bind ?_
      rintro - q' ⟨-, hq'⟩
      exact Ends.ret (Or.inl (hfewer hq'.leaves))
    refine Ends.ite (fun hc => ?_) fun _ => Ends.ite (fun _ => hread hp' .string) fun _ =>
      Ends.ite (fun _ => hread hp' _) fun _ => Ends.ite (fun _ => hread hp' _) fun _ =>
      Ends.ite (fun _ => ?_) fun _ => Ends.ite (fun _ => hread hp' .sharp) fun _ =>
      Ends.ite (fun _ => hread hp' .list) fun hopen => Ends.ite (fun _ => ?_) fun hclose =>
      Ends.ite (fun _ => ?_) fun _ => Ends.ite (fun hc => ?_) fun _ => Ends.ite (fun _ => ?_) fun _ =>
      Ends.ite (fun _ => ?_) fun hc => ?_
    · refine (halts_readDecimal hp').bind fun v q hq => Ends.ret (Or.inl ?_)
      exact (hq.2 (isdigit_toChar hc)).trans hsuf
    · -- a comma
      refine (halts_readChar hp').bind ?_
      rintro - q ⟨-, hq⟩
      refine (halts_ipeekChar hq).bind ?_
      rintro v q' ⟨d, fs, hes, rfl, hq'⟩
      refine Ends.ite (fun _ => (halts_readChar hq').bind ?_) fun _ =>
        Ends.ret (Or.inl (hfewer hq'.leaves))
      rintro - q'' ⟨-, hq''⟩
      exact Ends.ret (Or.inl (hfewer hq''.leaves.of_tail))
    · refine (halts_readChar hp').bind ?_
      rintro - q -
      exact Ends.raise trivial
    · exact (halts_consumeLine hp').bind fun _ q hq => Ends.ret (Or.inl (hfewer hq))
    · exact absurd hc (by simp only [eofValue]; omega)
    · refine (halts_readChar hp').bind ?_
      rintro - q ⟨-, hq⟩
      refine (halts_readSymbol ispipe_eof raised_ispipe hq).bind fun d q' hq' => ?_
      obtain ⟨fs, hfs, hsuf'⟩ := hq'.1
      refine (halts_readChar hfs).bind ?_
      rintro - q'' ⟨-, hq''⟩
      exact Ends.ret (Or.inl (hfewer (hq''.leaves.of_tail.trans hsuf')))
    · -- a sign
      refine (halts_readChar hp').bind ?_
      rintro - q ⟨-, hq⟩
      refine (halts_peekChar hq).bind ?_
      rintro v q' ⟨rfl, hq'⟩
      refine Ends.ite (fun _ => ?_) fun _ => ?_
      · exact (halts_readDecimal hq').bind fun _ q'' hq'' => Ends.ret (Or.inl (hfewer hq''.1))
      · exact (halts_readSymbolWithPrefix _ hq').bind fun _ q'' hq'' => Ends.ret (Or.inl (hfewer hq''))
    · have hterm : isterminal c.toNat = false := by
        have hs := hspace c es rfl
        have heof : (c.toNat : ℤ) ≠ eofValue := by
          simp only [eofValue]
          omega
        simp [isterminal, hs, hopen, hclose, heof]
      exact (halts_readSymbolTerminal hp').bind fun _ q hq =>
        Ends.ret (Or.inl ((hq.2 hterm).trans hsuf))

theorem halts_sharpHead (X : ReadEnv) (h : p.Has cs) :
    Halts (sharpHead X) p fun _ p' => p'.LeavesFewer cs := by
  unfold sharpHead
  refine (halts_ireadChar h).bind ?_
  rintro v p' ⟨c, es, rfl, rfl, hp'⟩
  have hdone : ∀ {f : ℕ → ReadM Datum}, (Halts f p' fun _ q => q.Leaves es) →
      Halts (fun n => do
        let d ← f n
        return SharpNext.done d) p' fun _ q => q.LeavesFewer (c :: es) :=
    fun hf => hf.bind fun _ _ hq => Ends.ret hq.fewer
  have hnum : ∀ {f : ℕ → ReadM ℤ}, (Halts f p' fun _ q => q.Leaves es) →
      Halts (fun n => do
        let v ← f n
        return SharpNext.done (.fixnum v)) p' fun _ q => q.LeavesFewer (c :: es) :=
    fun hf => hf.bind fun _ _ hq => Ends.ret hq.fewer
  have hfewer := hp'.leaves.fewer (c := c)
  refine Ends.ite (fun _ => hdone (halts_readBoolean _ hp')) fun _ =>
    Ends.ite (fun _ => hdone (halts_readCharacter X hp')) fun _ =>
    Ends.ite (fun _ => Ends.ret hfewer) fun _ => Ends.ite (fun _ => ?_) fun _ =>
    Ends.ite (fun _ => hnum (halts_readBinary hp')) fun _ =>
    Ends.ite (fun _ => hnum (halts_readOctal hp')) fun _ =>
    Ends.ite (fun _ => hnum (halts_readHex hp')) fun _ =>
    Ends.ite (fun _ => hdone (halts_readSharpBang hp')) fun _ =>
    Ends.ite (fun _ => Ends.ret hfewer) fun _ => Ends.ite (fun _ => Ends.ret hfewer) fun _ =>
    Ends.ite (fun _ => ?_) fun _ => Ends.ite (fun _ => ?_) fun _ => Ends.raise trivial
  · -- `#u8(`
    refine (halts_ireadChar hp').bind ?_
    rintro v q ⟨d, fs, rfl, rfl, hq⟩
    refine Ends.ite (fun _ => Ends.raise trivial) fun _ => (halts_ireadChar hq).bind ?_
    rintro v q' ⟨e, gs, rfl, rfl, hq'⟩
    refine Ends.ite (fun _ => Ends.raise trivial) fun _ => Ends.ret ?_
    exact (hq'.leaves.fewer.leaves.fewer).leaves.fewer
  · exact (halts_blockComment hp').bind fun _ q hq => Ends.ret hq.fewer
  · exact (halts_skipUntil newline false hp').bind fun _ q hq => Ends.ret hq.of_tail.fewer

theorem halts_listHead (h : p.Has cs) : Halts listHead p fun next p' =>
    p'.LeavesFewer cs ∨ next = .element ∧ ∃ c es, dropSpaces cs = c :: es ∧ p'.Has (c :: es) := by
  unfold listHead
  refine (halts_ipeekFirstChar h).bind ?_
  rintro v p' ⟨c, es, hes, rfl, hp'⟩
  have hsuf := dropSpaces_suffix cs
  rw [hes] at hp' hsuf
  have hfewer : ∀ {q : Port}, q.Leaves es → q.LeavesFewer cs := fun hq => hq.fewer.trans hsuf
  refine Ends.ite (fun _ => ?_) fun _ => Ends.ite (fun _ => ?_) fun _ => Ends.ite (fun _ => ?_)
    fun _ => Ends.ite (fun _ => ?_) fun _ => Ends.ret (Or.inr ⟨rfl, c, es, hes, hp'⟩)
  · refine (halts_readChar hp').bind ?_
    rintro - q ⟨-, hq⟩
    exact Ends.ret (Or.inl (hfewer hq.leaves))
  · -- a dot
    refine (halts_readChar hp').bind ?_
    rintro - q ⟨-, hq⟩
    refine (halts_ipeekChar hq).bind ?_
    rintro v q' ⟨d, fs, hfs, rfl, hq'⟩
    refine Ends.ite (fun _ => Ends.ret (Or.inl (hfewer hq'.leaves))) fun _ => ?_
    exact (halts_readSymbolWithPrefix _ hq').bind fun _ q'' hq'' => Ends.ret (Or.inl (hfewer hq''))
  · refine (halts_readChar hp').bind ?_
    rintro - q ⟨-, hq⟩
    exact Ends.ret (Or.inl (hfewer hq.leaves))
  · exact (halts_consumeLine hp').bind fun _ q hq => Ends.ret (Or.inl (hfewer hq))

/-! ### String literals -/

/-- A character of a literal, or its closing quote. -/
def readStringChar (X : ReadEnv) (n : ℕ) : ReadM (Option ℤ) := do
  let c ← ireadChar
  if c = doubleQuote then return none
  else if c = backslash then do
    let d ← readStringEscape X n
    return some d
  else return some c

/-- The literal behind a quote: the characters that it denotes, up to its closing quote and the
port behind it, or up to where an error is raised. -/
inductive Literal (X : ReadEnv) : Port → List ℤ → Option Port → Prop
  | stuck {p : Port} {e : ReadExn} (h : Converges (readStringChar X) p (.error e)) :
    Literal X p [] none
  | close {p p' : Port} (h : Converges (readStringChar X) p (.ok (none, p'))) :
    Literal X p [] (some p')
  | char {p p' : Port} {c : ℤ} {cs : List ℤ} {o : Option Port}
    (h : Converges (readStringChar X) p (.ok (some c, p'))) (hcs : Literal X p' cs o) :
    Literal X p (c :: cs) o

/-- The characters of a literal have room in the buffer of `read_string`: they can be encoded,
and have 64 bytes in all. If the literal breaks off, an ASCII character may follow. -/
def LiteralFits (cs : List ℤ) (closed : Bool) : Prop :=
  (∀ c ∈ cs, u8Length c ≠ 0) ∧ ((cs.map u8Length).sum ≤ 64 ∨
    closed = false ∧ (cs.map u8Length).sum = 65 ∧ ∃ c, cs.getLast? = some c ∧ u8Length c = 1)

theorem halts_readStringChar (X : ReadEnv) (h : p.Has cs) :
    Halts (readStringChar X) p fun _ p' => p'.LeavesFewer cs := by
  unfold readStringChar
  refine (halts_ireadChar h).bind ?_
  rintro v p' ⟨c, es, rfl, rfl, hp'⟩
  have hfewer := hp'.leaves.fewer (c := c)
  refine Ends.ite (fun _ => Ends.ret hfewer) fun _ => Ends.ite (fun _ => ?_) fun _ =>
    Ends.ret hfewer
  exact (halts_readStringEscape X hp').bind fun _ q hq => Ends.ret hq.fewer

/-- Every literal breaks off or is closed. -/
theorem exists_literal (X : ReadEnv) : ∀ {cs : List Char} {p : Port}, p.Has cs →
    ∃ ds o, Literal X p ds o ∧ ∀ p' ∈ o, p'.LeavesFewer cs := by
  intro cs
  induction hlen : cs.length using Nat.strong_induction_on generalizing cs with
  | _ len ih =>
    intro p h
    obtain ⟨r, hr, hq⟩ := halts_readStringChar X h
    rcases r with e | ⟨- | c, p'⟩
    · exact ⟨[], none, .stuck hr, fun _ h => nomatch h⟩
    · refine ⟨[], some p', .close hr, fun q hq' => ?_⟩
      cases hq'
      exact hq
    · obtain ⟨es, hes, hsuf, hlt⟩ := hq
      obtain ⟨ds, o, hds, ho⟩ := ih es.length (by omega) rfl hes
      exact ⟨c :: ds, o, .char hr hds, fun q hq' => (ho q hq').trans hsuf⟩

theorem literalFits_concat {ds : List ℤ} {c : ℤ} :
    LiteralFits (ds ++ [c]) false ↔ (∀ d ∈ ds, u8Length d ≠ 0) ∧ u8Length c ≠ 0 ∧
      ((ds.map u8Length).sum + u8Length c ≤ 64 ∨
        (ds.map u8Length).sum + u8Length c = 65 ∧ u8Length c = 1) := by
  have hmem : (∀ d ∈ ds ++ [c], u8Length d ≠ 0) ↔ (∀ d ∈ ds, u8Length d ≠ 0) ∧ u8Length c ≠ 0 := by
    simp only [List.mem_append, List.mem_singleton, or_imp, forall_and, forall_eq]
  have hsum : ((ds ++ [c]).map u8Length).sum = (ds.map u8Length).sum + u8Length c := by
    simp
  rw [LiteralFits, hmem, hsum, List.getLast?_concat]
  simp only [Option.some.injEq, exists_eq_left', true_and, and_assoc]

/-- The buffer of `read_string`, on the characters of a literal. -/
theorem foldlM_u8Append (ds : List ℤ) :
    (LiteralFits ds false ∧ ∃ data, ds.foldlM (u8Append · strBufLen) [] = .ok data ∧
        (data.length : ℤ) = (ds.map u8Length).sum) ∨
      ¬ LiteralFits ds false ∧ ∃ φ, φ ≠ ReadFault.timeout ∧
        ds.foldlM (u8Append · strBufLen) [] = .error (.fault φ) := by
  induction ds using List.reverseRecOn with
  | nil => exact Or.inl ⟨⟨by simp, Or.inl (by decide)⟩, [], rfl, rfl⟩
  | append_singleton ds c ih =>
    rw [List.foldlM_append, literalFits_concat]
    have hc := u8Length_nonneg c
    rcases ih with ⟨hfit, data, hdata, hlen⟩ | ⟨hfit, φ, hφ, hdata⟩
    · rw [hdata, ok_bind, List.foldlM_cons]
      have hle : (ds.map u8Length).sum ≤ 65 := by
        rcases hfit.2 with h | ⟨-, h, -⟩ <;> omega
      rcases u8Append_strBufLen data c with ⟨hone, hlt, happ⟩ | ⟨hone, hno, happ⟩ |
        ⟨hne, h65, h64, data', happ⟩
      · refine Or.inr ⟨fun h => ?_, .overflow, by decide, by rw [happ]; rfl⟩
        rcases h.2.2 with h | h <;> omega
      · refine Or.inr ⟨fun h => ?_, .assertion, by decide, by rw [happ]; rfl⟩
        rcases hno with h0 | hlt
        · exact h.2.1 h0
        · rcases h.2.2 with h | h <;> omega
      · obtain ⟨-, hlen'⟩ := length_u8Append happ
        refine Or.inl ⟨⟨hfit.1, hne, ?_⟩, data', by rw [happ]; rfl, ?_⟩
        · by_cases hone : u8Length c = 1
          · omega
          · exact Or.inl (by rw [← hlen]; exact h64 hone)
        · rw [hlen', hlen]
          simp
    · refine Or.inr ⟨fun h => hfit ⟨h.1, ?_⟩, φ, hφ, by rw [hdata]; rfl⟩
      have := h.2.1
      refine Or.inl ?_
      rcases h.2.2 with h | h <;> omega

theorem readStringLoop_succ (X : ReadEnv) (n : ℕ) (data : List UInt8) (length : ℕ) :
    readStringLoop X (n + 1) data length strBufLen = readStringChar X n >>= fun o =>
      match o with
      | none =>
        if (data.length : ℤ) ≤ strBufLen then pure (.string data length)
        else throw (.fault .overflow)
      | some c => liftM (u8Append data strBufLen c) >>= fun data =>
          readStringLoop X n data (length + 1) strBufLen := by
  have hcap : ∀ c, (if (data.length : ℤ) + u8Length c ≥ strBufLen then
      growStorage strBufLen 0 strBufStep else strBufLen) = strBufLen := by
    intro c
    rw [growStorage_strBufLen, ite_self]
  rw [readStringLoop, readStringChar]
  simp only [hcap]
  refine bind_eq_bind_bind fun c => ite_eq_ite_bind (fun _ => rfl) fun _ =>
    ite_eq_ite_bind (fun _ => bind_eq_bind_bind fun _ => rfl) fun _ => rfl

/-- How the loop of `read_string` ends on a literal, given the bytes that have been stored at its
end and the length. -/
def LoopEnds (o : Option Port) (length : ℕ) (r : Except ReadExn (Datum × Port)) :
    Except ReadExn (List UInt8) → Prop
  | .error e => r = .error e
  | .ok data =>
    match o with
    | none => ∃ e : ReadExn, e.Raised ∧ r = .error e
    | some p =>
      r = if (data.length : ℤ) ≤ strBufLen then .ok (.string data length, p)
        else .error (.fault .overflow)

/-- What `read_string` does with a literal of which the bytes `data` have been stored. -/
theorem readStringLoop_literal {ds : List ℤ} {o : Option Port} (h : Literal X p ds o) :
    ∀ {cs : List Char} (data : List UInt8) (length : ℕ), p.Has cs →
      ∃ r, Converges (fun n => readStringLoop X n data length strBufLen) p r ∧
        LoopEnds o (length + ds.length) r (ds.foldlM (u8Append · strBufLen) data) := by
  induction h with
  | @stuck p e h =>
    intro cs data length hp
    have hraised : e.Raised := (halts_readStringChar X hp).meets h
    refine ⟨.error e, .succ ?_, e, hraised, rfl⟩
    simp only [readStringLoop_succ]
    exact h.bind_error
  | @close p p' h =>
    intro cs data length hp
    by_cases hdata : (data.length : ℤ) ≤ strBufLen
    · refine ⟨.ok (.string data length, p'), .succ ?_, (if_pos hdata).symm⟩
      simp only [readStringLoop_succ, if_pos hdata]
      exact h.bind (Converges.const rfl)
    · refine ⟨.error (.fault .overflow), .succ ?_, (if_neg hdata).symm⟩
      simp only [readStringLoop_succ, if_neg hdata]
      exact h.bind (Converges.const rfl)
  | @char p p' c ds o h hds ih =>
    intro cs data length hp
    obtain ⟨es, hes, -, -⟩ := (halts_readStringChar X hp).meets h
    rw [List.foldlM_cons]
    rcases happ : u8Append data strBufLen c with e | data'
    · refine ⟨.error e, .succ ?_, rfl⟩
      simp only [readStringLoop_succ]
      exact h.bind (Converges.const (readM_lift_error happ p')).bind_error
    · obtain ⟨r, hr, hres⟩ := ih data' (length + 1) hes
      refine ⟨r, .succ ?_, ?_⟩
      · simp only [readStringLoop_succ]
        exact h.bind ((Converges.const (readM_lift_ok happ p')).bind hr)
      · rw [ok_bind, List.length_cons, Nat.add_comm ds.length, ← Nat.add_assoc]
        exact hres

/-- A literal that does not fit. -/
def Overfull (X : ReadEnv) (p : Port) : Prop :=
  ∃ ds o, Literal X p ds o ∧ ¬ LiteralFits ds o.isSome

/-- `read_string` ends, and neither returns nor raises an error if the literal does not fit. -/
theorem readString_ends (X : ReadEnv) (h : p.Has cs) :
    (∃ φ, φ ≠ ReadFault.timeout ∧ Converges (readString X) p (.error (.fault φ)) ∧ Overfull X p) ∨
      Halts (readString X) p fun _ p' => p'.LeavesFewer cs := by
  obtain ⟨ds, o, hds, ho⟩ := exists_literal X h
  obtain ⟨r, hr, hres⟩ := readStringLoop_literal hds [] 0 h
  rcases foldlM_u8Append ds with ⟨hfit, data, hdata, hlen⟩ | ⟨hfit, φ, hφ, hdata⟩
  · rw [hdata] at hres
    rcases o with - | p'
    · obtain ⟨e, he, rfl⟩ := hres
      exact Or.inr ⟨.error e, hr, he⟩
    · by_cases h64 : (data.length : ℤ) ≤ strBufLen
      · have hres' := (if_pos h64).symm.trans hres.symm
        exact Or.inr ⟨r, hr, by rw [← hres']; exact ho p' rfl⟩
      · have hres' := (if_neg h64).symm.trans hres.symm
        refine Or.inl ⟨.overflow, by decide, ?_, ds, some p', hds, fun hfit' => ?_⟩
        · rw [hres']
          exact hr
        · rw [hlen] at h64
          rcases hfit'.2 with h | ⟨h, -⟩
          · exact h64 h
          · cases h
  · rw [hdata] at hres
    cases hres
    refine Or.inl ⟨φ, hφ, hr, ds, o, hds, fun hfit' => hfit ⟨hfit'.1, ?_⟩⟩
    rcases hfit'.2 with h | ⟨-, h⟩
    · exact Or.inl h
    · exact Or.inr ⟨rfl, h⟩

theorem Overfull.fault (h : Overfull X p) (hp : p.Has cs) :
    ∃ φ, φ ≠ ReadFault.timeout ∧ Converges (readString X) p (.error (.fault φ)) := by
  obtain ⟨ds, o, hds, hno⟩ := h
  obtain ⟨r, hr, hres⟩ := readStringLoop_literal hds [] 0 hp
  rcases foldlM_u8Append ds with ⟨hfit, data, hdata, hlen⟩ | ⟨-, φ, hφ, hdata⟩
  · rw [hdata] at hres
    rcases o with - | p'
    · exact absurd hfit hno
    · have h64 : ¬ (data.length : ℤ) ≤ strBufLen := fun hle => hno ⟨hfit.1, Or.inl (hlen ▸ hle)⟩
      have hres' := (if_neg h64).symm.trans hres.symm
      rw [← hres'] at hr
      exact ⟨.overflow, by decide, hr⟩
  · rw [hdata] at hres
    cases hres
    exact ⟨φ, hφ, hr⟩

/-! ### Calls -/

/-- A call of a reader. -/
inductive Call
  /-- `navi_read` -/
  | read
  /-- `read_sharp` -/
  | sharp
  /-- the loop of `read_list`, with the elements that have been read -/
  | list (elms : List Datum)

/-- The function that is called. -/
def Call.run (X : ReadEnv) : Call → ℕ → ReadM Datum
  | .read => naviRead X
  | .sharp => readSharp X
  | .list elms => fun n => readList X n elms

/-- The reader that `navi_read` calls first. -/
def ReadNext.call : ReadNext → Option Call
  | .wrap _ | .again => some .read
  | .sharp => some .sharp
  | .list => some (.list [])
  | .done _ | .string => none

/-- The reader that `read_sharp` calls. -/
def SharpNext.call : SharpNext → Option Call
  | .vector | .bytevec => some (.list [])
  | .internal | .comment => some .read
  | .done _ => none

/-- The reader that a round of `read_list` calls first. -/
def ListNext.call (elms : List Datum) : ListNext → Option Call
  | .last | .element => some .read
  | .symbol expr => some (.list (elms ++ [expr]))
  | .sharp => some .sharp
  | .skip => some (.list elms)
  | .close => none

/-- A call comes to a string literal: the port stands behind the quote. -/
inductive Comes (X : ReadEnv) : Call → Port → Port → Prop
  | string {p q : Port} (h : Converges readHead p (.ok (.string, q))) : Comes X .read p q
  | read {p q r : Port} {next : ReadNext} {c : Call} (h : Converges readHead p (.ok (next, q)))
    (hc : next.call = some c) (hq : Comes X c q r) : Comes X .read p r
  /-- behind a comment that `read_sharp` has read -/
  | again {p q q' r : Port} {d : Datum} (h : Converges readHead p (.ok (.sharp, q)))
    (hd : Converges (readSharp X) q (.ok (d, q'))) (hvoid : d.isVoid = true)
    (hq : Comes X .read q' r) : Comes X .read p r
  | sharp {p q r : Port} {next : SharpNext} {c : Call}
    (h : Converges (sharpHead X) p (.ok (next, q))) (hc : next.call = some c)
    (hq : Comes X c q r) : Comes X .sharp p r
  | list {p q r : Port} {elms : List Datum} {next : ListNext} {c : Call}
    (h : Converges listHead p (.ok (next, q))) (hc : next.call elms = some c)
    (hq : Comes X c q r) : Comes X (.list elms) p r
  /-- behind an element, or a comment, that `read_sharp` has read -/
  | listSharp {p q q' r : Port} {elms : List Datum} {d : Datum}
    (h : Converges listHead p (.ok (.sharp, q))) (hd : Converges (readSharp X) q (.ok (d, q')))
    (hq : Comes X (.list (if d.isVoid then elms else elms ++ [d])) q' r) : Comes X (.list elms) p r
  /-- behind an element that `navi_read` has read -/
  | listElement {p q q' r : Port} {elms : List Datum} {d : Datum}
    (h : Converges listHead p (.ok (.element, q))) (hd : Converges (naviRead X) q (.ok (d, q')))
    (heof : d.isEof = false) (hq : Comes X (.list (elms ++ [d])) q' r) : Comes X (.list elms) p r

/-- What a call leaves when it returns: fewer characters, but for `navi_read` at the end. -/
def Call.Post : Call → List Char → Datum → Port → Prop
  | .read, cs, d, p => p.LeavesFewer cs ∨ d.isEof = true ∧ dropSpaces cs = [] ∧ p.Has []
  | _, cs, _, p => p.LeavesFewer cs

/-- How a call is left that does not return: by an error that is raised, or because a literal
does not fit. -/
def Call.Exn (X : ReadEnv) (c : Call) (p : Port) (e : ReadExn) : Prop :=
  e.Raised ∨ e ≠ .fault .timeout ∧ ∃ q, Comes X c p q ∧ Overfull X q

/-- What decreases from a call to the calls inside it. -/
def Call.measure : Call → List Char → ℕ
  | .list _, cs => 2 * cs.length + 1
  | _, cs => 2 * cs.length

/-- A call ends. -/
def Call.Finishes (X : ReadEnv) (c : Call) (p : Port) (cs : List Char) : Prop :=
  Ends (c.Exn X p) (c.run X) p (c.Post cs)

theorem Call.measure_le (c : Call) (cs : List Char) : c.measure cs ≤ 2 * cs.length + 1 := by
  cases c <;> simp [Call.measure]

theorem Call.le_measure (c : Call) (cs : List Char) : 2 * cs.length ≤ c.measure cs := by
  cases c <;> simp [Call.measure]

/-- A call inside another one, on fewer characters. -/
theorem Call.measure_lt {c c' : Call} {cs ds : List Char} (h : ds.length < cs.length) :
    c'.measure ds < c.measure cs := by
  have := c'.measure_le ds
  have := c.le_measure cs
  omega

/-- A literal that a call comes to, its caller comes to. -/
theorem Call.Exn.caller {c c' : Call} {q : Port} {e : ReadExn} (h : c'.Exn X q e)
    (hcomes : ∀ r, Comes X c' q r → Comes X c p r) : c.Exn X p e := by
  rcases h with h | ⟨h, r, hr, hover⟩
  · exact Or.inl h
  · exact Or.inr ⟨h, r, hcomes r hr, hover⟩

theorem Call.Post.leaves {c : Call} {d : Datum} (h : c.Post cs d p) : p.Leaves cs := by
  cases c with
  | read =>
    rcases h with h | ⟨-, -, h⟩
    · exact h.leaves
    · exact ⟨[], h, List.nil_suffix⟩
  | sharp => exact Port.LeavesFewer.leaves h
  | list => exact Port.LeavesFewer.leaves h

/-- A call inside another one. -/
theorem Call.Finishes.inside {c c' : Call} {q : Port} {es : List Char} (h : c'.Finishes X q es)
    (hcomes : ∀ r, Comes X c' q r → Comes X c p r) :
    Ends (c.Exn X p) (c'.run X) q fun d q' =>
      c'.Post es d q' ∧ Converges (c'.run X) q (.ok (d, q')) :=
  h.self.weaken fun _ he => he.caller hcomes

theorem Call.finishes_read (ih : ∀ (c : Call) (es : List Char) (q : Port),
    c.measure es < Call.read.measure cs → q.Has es → c.Finishes X q es) (hp : p.Has cs) :
    Call.read.Finishes X p cs := by
  refine Ends.succ ?_
  change Ends _ (fun n => naviRead X (n + 1)) p _
  simp only [naviRead_succ]
  refine ((halts_readHead hp).self.weaken fun _ => Or.inl).bind ?_
  rintro next q ⟨hq, hhead⟩
  -- a call that comes first, of which the datum is returned
  have hfirst : ∀ {c : Call}, next.call = some c → q.LeavesFewer cs →
      Ends (Call.read.Exn X p) (c.run X) q fun d q' =>
        q'.LeavesFewer cs ∧ Converges (c.run X) q (.ok (d, q')) := by
    intro c hc ⟨es, hes, hsuf, hlt⟩
    refine ((ih c es q (Call.measure_lt hlt) hes).inside fun r hr => .read hhead hc hr).imp ?_
    rintro d q' ⟨hpost, hconv⟩
    obtain ⟨fs, hfs, hsuf'⟩ := hpost.leaves
    have := hsuf'.length_le
    exact ⟨⟨fs, hfs, hsuf'.trans hsuf, by omega⟩, hconv⟩
  cases next with
  | done d =>
    refine Ends.ret ?_
    rcases hq with hq | ⟨hd, hend, hq⟩
    · exact Or.inl hq
    · cases hd
      exact Or.inr ⟨rfl, hend, hq⟩
  | string =>
    have hq' : q.LeavesFewer cs := hq.resolve_right fun h => nomatch h.1
    obtain ⟨es, hes, hsuf, hlt⟩ := hq'
    rcases readString_ends X hes with ⟨φ, hφ, hr, hover⟩ | hends
    · refine ⟨_, hr, Or.inr ⟨fun h => hφ ?_, q, .string hhead, hover⟩⟩
      cases h
      rfl
    · refine (hends.weaken fun _ => Or.inl).imp fun d q' hq' => Or.inl (hq'.trans hsuf)
  | wrap symbol =>
    have hq' : q.LeavesFewer cs := hq.resolve_right fun h => nomatch h.1
    exact (hfirst rfl hq').bind fun d q' h => Ends.ret (Or.inl h.1)
  | list =>
    have hq' : q.LeavesFewer cs := hq.resolve_right fun h => nomatch h.1
    exact (hfirst rfl hq').imp fun d q' h => Or.inl h.1
  | again =>
    have hq' : q.LeavesFewer cs := hq.resolve_right fun h => nomatch h.1
    exact (hfirst rfl hq').imp fun d q' h => Or.inl h.1
  | sharp =>
    have hq' : q.LeavesFewer cs := hq.resolve_right fun h => nomatch h.1
    refine (hfirst rfl hq').bind ?_
    rintro d q' ⟨hless, hconv⟩
    refine Ends.ite (fun hvoid => ?_) fun _ => Ends.ret (Or.inl hless)
    obtain ⟨es, hes, hsuf, hlt⟩ := hless
    refine ((ih .read es q' (Call.measure_lt hlt) hes).inside
      fun r hr => .again hhead hconv hvoid hr).imp ?_
    rintro d q'' ⟨hpost, -⟩
    obtain ⟨fs, hfs, hsuf'⟩ := hpost.leaves
    have := hsuf'.length_le
    exact Or.inl ⟨fs, hfs, hsuf'.trans hsuf, by omega⟩

theorem raised_typeCheckByte (d : Datum) (e : ReadExn) (h : typeCheckByte d = .error e) :
    e.Raised := by
  cases d with
  | fixnum n =>
    rw [typeCheckByte] at h
    split at h
    · cases h
    · cases h
      exact trivial
  | _ =>
    cases h
    exact trivial

theorem raised_naviListToBytevec (list : Datum) (e : ReadExn)
    (h : naviListToBytevec list = .error e) : e.Raised := by
  have hmap : ∀ (ds : List Datum) (e : ReadExn), ds.mapM typeCheckByte = .error e → e.Raised := by
    intro ds
    induction ds with
    | nil => exact fun e h => nomatch h
    | cons d ds ih =>
      intro e h
      rw [List.mapM_cons] at h
      rcases hd : typeCheckByte d with e' | b
      · rw [hd] at h
        cases h
        exact raised_typeCheckByte d _ hd
      · rw [hd, ok_bind] at h
        rcases hds : ds.mapM typeCheckByte with e' | bs
        · rw [hds] at h
          cases h
          exact ih _ hds
        · rw [hds] at h
          cases h
  unfold naviListToBytevec at h
  rcases hds : list.elements.mapM typeCheckByte with e' | bs
  · rw [hds] at h
    cases h
    exact hmap _ _ hds
  · rw [hds] at h
    cases h

/-- A call inside another one, on the characters that a head has left. -/
theorem Call.finishes_inside {c : Call} (c' : Call) {q : Port}
    (ih : ∀ (c' : Call) (es : List Char) (q : Port),
      c'.measure es < c.measure cs → q.Has es → c'.Finishes X q es)
    (hq : q.LeavesFewer cs) (hcomes : ∀ r, Comes X c' q r → Comes X c p r) :
    Ends (c.Exn X p) (c'.run X) q fun d q' =>
      q'.LeavesFewer cs ∧ Converges (c'.run X) q (.ok (d, q')) := by
  obtain ⟨es, hes, hsuf, hlt⟩ := hq
  refine ((ih c' es q (Call.measure_lt hlt) hes).inside hcomes).imp ?_
  rintro d q' ⟨hpost, hconv⟩
  obtain ⟨fs, hfs, hsuf'⟩ := hpost.leaves
  have := hsuf'.length_le
  exact ⟨⟨fs, hfs, hsuf'.trans hsuf, by omega⟩, hconv⟩

theorem Call.finishes_sharp (hX : ∀ d e, X.naviGetInternal d = .error e → e.Raised)
    (ih : ∀ (c : Call) (es : List Char) (q : Port),
      c.measure es < Call.sharp.measure cs → q.Has es → c.Finishes X q es) (hp : p.Has cs) :
    Call.sharp.Finishes X p cs := by
  refine Ends.succ ?_
  change Ends _ (fun n => readSharp X (n + 1)) p _
  simp only [readSharp_succ]
  refine ((halts_sharpHead X hp).self.weaken fun _ => Or.inl).bind ?_
  rintro next q ⟨hq, hhead⟩
  -- the call inside
  have hcall : ∀ {c : Call}, next.call = some c →
      Ends (Call.sharp.Exn X p) (c.run X) q fun _ q' => q'.LeavesFewer cs := fun hc =>
    (finishes_inside _ ih hq fun _ hr => .sharp hhead hc hr).imp fun _ _ h => h.1
  -- and what is made of its datum
  have hlift : ∀ {x : Except ReadExn Datum} {q' : Port}, (∀ e, x = .error e → e.Raised) →
      q'.LeavesFewer cs → Ends (Call.sharp.Exn X p) (fun _ => (liftM x : ReadM Datum)) q'
        fun _ q'' => q''.LeavesFewer cs := by
    intro x q' hx hq'
    refine ((halts_lift hx q').weaken fun _ => Or.inl).imp ?_
    rintro d q'' ⟨-, rfl⟩
    exact hq'
  cases next with
  | done d => exact Ends.ret hq
  | vector => exact (hcall rfl).bind fun d q' h => Ends.ret h
  | bytevec => exact (hcall rfl).bind fun d q' h => hlift (raised_naviListToBytevec d) h
  | internal => exact (hcall rfl).bind fun d q' h => hlift (hX d) h
  | comment => exact (hcall rfl).bind fun d q' h => Ends.ret h

theorem Call.finishes_list (elms : List Datum) (ih : ∀ (c : Call) (es : List Char) (q : Port),
    c.measure es < (Call.list elms).measure cs → q.Has es → c.Finishes X q es) (hp : p.Has cs) :
    (Call.list elms).Finishes X p cs := by
  refine Ends.succ ?_
  change Ends _ (fun n => readList X (n + 1) elms) p _
  simp only [readList_succ]
  refine ((halts_listHead hp).self.weaken fun _ => Or.inl).bind ?_
  rintro next q ⟨hq, hhead⟩
  -- a round that is the last one, or the next round
  have hcall : ∀ {c : Call}, next.call elms = some c → q.LeavesFewer cs →
      Ends ((Call.list elms).Exn X p) (c.run X) q fun d q' =>
        q'.LeavesFewer cs ∧ Converges (c.run X) q (.ok (d, q')) := fun hc hq =>
    finishes_inside _ ih hq fun _ hr => .list hhead hc hr
  cases next with
  | close => exact Ends.ret (hq.resolve_right fun h => nomatch h.1)
  | last =>
    refine (hcall rfl (hq.resolve_right fun h => nomatch h.1)).bind ?_
    rintro d q' ⟨⟨es, hes, hsuf, hlt⟩, -⟩
    refine ((halts_peekFirstChar hes).weaken fun _ => Or.inl).bind ?_
    rintro v q'' ⟨-, hq''⟩
    refine Ends.ite (fun _ => ?_) fun _ => Ends.raise (Or.inl trivial)
    refine ((halts_readChar hq'').weaken fun _ => Or.inl).bind ?_
    rintro - r ⟨-, hr⟩
    obtain ⟨fs, hfs, hsuf'⟩ := hr.leaves.of_tail.trans (dropSpaces_suffix es)
    have := hsuf'.length_le
    exact Ends.ret ⟨fs, hfs, hsuf'.trans hsuf, by omega⟩
  | symbol expr =>
    exact (hcall rfl (hq.resolve_right fun h => nomatch h.1)).imp fun _ _ h => h.1
  | skip => exact (hcall rfl (hq.resolve_right fun h => nomatch h.1)).imp fun _ _ h => h.1
  | sharp =>
    refine (hcall rfl (hq.resolve_right fun h => nomatch h.1)).bind ?_
    rintro d q' ⟨hless, hconv⟩
    refine Ends.ite (fun hvoid => ?_) fun hvoid => ?_
    · refine (finishes_inside (.list elms) ih hless fun r hr => ?_).imp fun _ _ h => h.1
      exact .listSharp hhead hconv (by rwa [if_pos hvoid])
    · refine (finishes_inside (.list (elms ++ [d])) ih hless fun r hr => ?_).imp
        fun _ _ h => h.1
      exact .listSharp hhead hconv (by rwa [if_neg hvoid])
  | element =>
    -- `navi_read` is called on the same characters, or on those behind the spaces
    obtain ⟨es, hes, hsuf⟩ : q.Leaves cs := by
      rcases hq with hq | ⟨-, c, es, hdrop, hq⟩
      · exact hq.leaves
      · exact ⟨c :: es, hq, hdrop ▸ dropSpaces_suffix cs⟩
    have hle := hsuf.length_le
    have hlt : Call.read.measure es < (Call.list elms).measure cs := by
      simp only [Call.measure]
      omega
    refine ((ih .read es q hlt hes).inside fun r hr => .list hhead rfl hr).bind ?_
    rintro d q' ⟨hpost, hconv⟩
    refine Ends.ite (fun _ => Ends.raise (Or.inl trivial)) fun heof => ?_
    rw [Bool.not_eq_true] at heof
    have hless : q'.LeavesFewer cs := by
      rcases hpost with h | ⟨h, -⟩
      · exact h.trans hsuf
      · exact absurd h (by rw [heof]; decide)
    refine (finishes_inside (.list (elms ++ [d])) ih hless fun r hr => ?_).imp fun _ _ h => h.1
    exact .listElement hhead hconv heof hr

/-- **Every call of a reader ends**, on a port in any state. -/
theorem Call.ends (hX : ∀ d e, X.naviGetInternal d = .error e → e.Raised) (c : Call)
    {cs : List Char} {p : Port} (hp : p.Has cs) : c.Finishes X p cs := by
  induction hm : c.measure cs using Nat.strong_induction_on generalizing c cs p with
  | _ m ih =>
    have ih' : ∀ (c' : Call) (es : List Char) (q : Port),
        c'.measure es < c.measure cs → q.Has es → c'.Finishes X q es :=
      fun c' es q hlt hq => ih (c'.measure es) (hm ▸ hlt) c' hq rfl
    cases c with
    | read => exact finishes_read ih' hp
    | sharp => exact finishes_sharp hX ih' hp
    | list elms => exact finishes_list elms ih' hp

/-- A call is stopped, because of a literal that does not fit. -/
def Call.Stopped (X : ReadEnv) (c : Call) (p : Port) : Prop :=
  ∃ φ, φ ≠ ReadFault.timeout ∧ Converges (c.run X) p (.error (.fault φ))

section
variable {q : Port} {e : ReadExn} {c : Call}

theorem readHead_has {next : ReadNext} (h : Converges readHead p (.ok (next, q)))
    (hp : p.Has cs) : ∃ es, q.Has es := by
  rcases (halts_readHead hp).meets h with ⟨es, hes, -⟩ | ⟨-, -, hes⟩
  · exact ⟨es, hes⟩
  · exact ⟨[], hes⟩

theorem sharpHead_has {next : SharpNext} (h : Converges (sharpHead X) p (.ok (next, q)))
    (hp : p.Has cs) : ∃ es, q.Has es := by
  obtain ⟨es, hes, -⟩ := (halts_sharpHead X hp).meets h
  exact ⟨es, hes⟩

theorem listHead_has {next : ListNext} (h : Converges listHead p (.ok (next, q)))
    (hp : p.Has cs) : ∃ es, q.Has es := by
  rcases (halts_listHead hp).meets h with ⟨es, hes, -⟩ | ⟨-, c, es, -, hes⟩
  · exact ⟨es, hes⟩
  · exact ⟨c :: es, hes⟩

theorem Call.run_has (hX : ∀ d e, X.naviGetInternal d = .error e → e.Raised) {d : Datum}
    (h : Converges (c.run X) p (.ok (d, q))) (hp : p.Has cs) : ∃ es, q.Has es := by
  have hpost : c.Post cs d q := (c.ends hX hp).meets h
  obtain ⟨es, hes, -⟩ := hpost.leaves
  exact ⟨es, hes⟩

/-- An error in the call that comes first is an error of the caller. -/
theorem readNext_error {next : ReadNext} (hc : next.call = some c)
    (h : Converges (c.run X) p (.error e)) :
    Converges (fun n => readNext X n next) p (.error e) := by
  cases next with
  | done => cases hc
  | string => cases hc
  | wrap => cases hc; exact h.bind_error
  | sharp => cases hc; exact h.bind_error
  | list => cases hc; exact h
  | again => cases hc; exact h

theorem sharpNext_error {next : SharpNext} (hc : next.call = some c)
    (h : Converges (c.run X) p (.error e)) :
    Converges (fun n => sharpNext X n next) p (.error e) := by
  cases next with
  | done => cases hc
  | vector => cases hc; exact h.bind_error
  | bytevec => cases hc; exact h.bind_error
  | internal => cases hc; exact h.bind_error
  | comment => cases hc; exact h.bind_error

theorem listNext_error {next : ListNext} {elms : List Datum} (hc : next.call elms = some c)
    (h : Converges (c.run X) p (.error e)) :
    Converges (fun n => listNext X n elms next) p (.error e) := by
  cases next with
  | close => cases hc
  | last => cases hc; exact h.bind_error
  | symbol => cases hc; exact h
  | sharp => cases hc; exact h.bind_error
  | skip => cases hc; exact h
  | element => cases hc; exact h.bind_error

/-- A caller is stopped behind its head. -/
theorem Call.Stopped.read {next : ReadNext} {φ : ReadFault} (hφ : φ ≠ .timeout)
    (h : Converges readHead p (.ok (next, q)))
    (hr : Converges (fun n => readNext X n next) q (.error (.fault φ))) :
    Call.read.Stopped X p := by
  refine ⟨φ, hφ, .succ ?_⟩
  change Converges (fun n => naviRead X (n + 1)) _ _
  simp only [naviRead_succ]
  exact h.bind hr

theorem Call.Stopped.sharp {next : SharpNext} {φ : ReadFault} (hφ : φ ≠ .timeout)
    (h : Converges (sharpHead X) p (.ok (next, q)))
    (hr : Converges (fun n => sharpNext X n next) q (.error (.fault φ))) :
    Call.sharp.Stopped X p := by
  refine ⟨φ, hφ, .succ ?_⟩
  change Converges (fun n => readSharp X (n + 1)) _ _
  simp only [readSharp_succ]
  exact h.bind hr

theorem Call.Stopped.list {next : ListNext} {elms : List Datum} {φ : ReadFault}
    (hφ : φ ≠ .timeout) (h : Converges listHead p (.ok (next, q)))
    (hr : Converges (fun n => listNext X n elms next) q (.error (.fault φ))) :
    (Call.list elms).Stopped X p := by
  refine ⟨φ, hφ, .succ ?_⟩
  change Converges (fun n => readList X (n + 1) elms) _ _
  simp only [readList_succ]
  exact h.bind hr

end

/-- A call that comes to a literal that does not fit is stopped there. -/
theorem Comes.stopped (hX : ∀ d e, X.naviGetInternal d = .error e → e.Raised) {c : Call}
    {p q : Port} (h : Comes X c p q) (hover : Overfull X q) :
    ∀ {cs : List Char}, p.Has cs → c.Stopped X p := by
  induction h with
  | string h =>
    intro cs hp
    obtain ⟨es, hes⟩ := readHead_has h hp
    obtain ⟨φ, hφ, hr⟩ := hover.fault hes
    exact .read hφ h hr
  | read h hc _ ih =>
    intro cs hp
    obtain ⟨es, hes⟩ := readHead_has h hp
    obtain ⟨φ, hφ, hr⟩ := ih hover hes
    exact .read hφ h (readNext_error hc hr)
  | again h hd hvoid _ ih =>
    intro cs hp
    obtain ⟨es, hes⟩ := readHead_has h hp
    obtain ⟨fs, hfs⟩ := Call.run_has (c := .sharp) hX hd hes
    obtain ⟨φ, hφ, hr⟩ := ih hover hfs
    refine .read hφ h (hd.bind ?_)
    simp only [if_pos hvoid]
    exact hr
  | sharp h hc _ ih =>
    intro cs hp
    obtain ⟨es, hes⟩ := sharpHead_has h hp
    obtain ⟨φ, hφ, hr⟩ := ih hover hes
    exact .sharp hφ h (sharpNext_error hc hr)
  | list h hc _ ih =>
    intro cs hp
    obtain ⟨es, hes⟩ := listHead_has h hp
    obtain ⟨φ, hφ, hr⟩ := ih hover hes
    exact .list hφ h (listNext_error hc hr)
  | @listSharp p q q' r elms d h hd _ ih =>
    intro cs hp
    obtain ⟨es, hes⟩ := listHead_has h hp
    obtain ⟨fs, hfs⟩ := Call.run_has (c := .sharp) hX hd hes
    obtain ⟨φ, hφ, hr⟩ := ih hover hfs
    refine .list hφ h (hd.bind ?_)
    by_cases hvoid : d.isVoid = true
    · rw [if_pos hvoid] at hr
      simp only [if_pos hvoid]
      exact hr
    · rw [if_neg hvoid] at hr
      simp only [if_neg hvoid]
      exact hr
  | @listElement p q q' r elms d h hd heof _ ih =>
    intro cs hp
    obtain ⟨es, hes⟩ := listHead_has h hp
    obtain ⟨fs, hfs⟩ := Call.run_has (c := .read) hX hd hes
    obtain ⟨φ, hφ, hr⟩ := ih hover hfs
    refine .list hφ h (hd.bind ?_)
    have hneg : ¬ d.isEof = true := by rw [heof]; decide
    simp only [if_neg hneg]
    exact hr

/-- What is claimed of `navi_read`: it returns or raises an error, and does not leave every
character where it was when one of them is no space. -/
def ReadsOn (X : ReadEnv) (p : Port) (cs : List Char) : Prop :=
  Halts (naviRead X) p fun _ p' => (∃ c ∈ cs, isspace c.toNat = false) → p'.LeavesFewer cs

theorem dropSpaces_ne_nil (h : ∃ c ∈ cs, isspace c.toNat = false) : dropSpaces cs ≠ [] := by
  obtain ⟨c, hc, hspace⟩ := h
  intro hnil
  have hall := List.dropWhile_eq_nil_iff.mp hnil c hc
  rw [hspace] at hall
  cases hall

theorem raised_allDefined (d : Datum) (e : ReadExn) (h : allDefined.naviGetInternal d = .error e) :
    e.Raised :=
  nomatch h

/-- A text without quotes and backslashes is a literal. -/
theorem exists_literal_encode (X : ReadEnv) (rest : List UInt8) : ∀ {cs : List Char} {p : Port},
    (∀ c ∈ cs, c.toNat ≠ 0x22 ∧ c.toNat ≠ 0x5C) → p.Ready →
    p.unread = Utf8.encode cs ++ 0x22 :: rest →
      ∃ q, Literal X p (cs.map fun c => (c.toNat : ℤ)) (some q) := by
  intro cs
  induction cs with
  | nil =>
    intro p _ hp hu
    obtain ⟨p', hrun, -, -⟩ := reads_ireadChar (by decide) p hp hu
    refine ⟨p', .close ⟨0, fun n _ => ?_⟩⟩
    rw [readStringChar, readM_bind hrun, if_pos (by decide)]
    rfl
  | cons c cs ih =>
    intro p hcs hp hu
    obtain ⟨hquote, hback⟩ := hcs c List.mem_cons_self
    rw [Utf8.encode_cons, List.append_assoc] at hu
    obtain ⟨p', hrun, hp', hu'⟩ := reads_ireadChar_append c _ p hp hu
    obtain ⟨q, hq⟩ := ih (fun d hd => hcs d (List.mem_cons_of_mem c hd)) hp' hu'
    refine ⟨q, .char ⟨0, fun n _ => ?_⟩ hq⟩
    rw [readStringChar, readM_bind hrun, if_neg (by simp only [doubleQuote]; omega),
      if_neg (by simp only [backslash]; omega)]
    rfl

theorem exists_converges_of_reads {f : ℕ → ReadM ReadNext} {bs ds : List UInt8} {next : ReadNext}
    {Q : ReadNext → Port → Prop} (hends : Halts f p Q) (hf : ∀ n, Reads (f (n + 1)) bs next ds)
    (hp : p.Ready) (hu : p.unread = bs) :
    ∃ q : Port, Converges f p (.ok (next, q)) ∧ q.Ready ∧ q.unread = ds := by
  obtain ⟨r, ⟨N, hN⟩, -⟩ := hends
  obtain ⟨q, hrun, hq, hu'⟩ := hf N p hp hu
  rw [hN (N + 1) (Nat.le_succ N)] at hrun
  exact ⟨q, ⟨N, fun n hn => (hN n hn).trans hrun⟩, hq, hu'⟩

theorem reads_readHead_doubleQuote (bs : List UInt8) (n : ℕ) :
    Reads (readHead (n + 1)) (0x22 :: bs) .string bs := by
  rw [readHead]
  refine (reads_peekFirstChar_cons (by decide) (by decide) []
    (fun _ h => absurd h List.not_mem_nil) (by simp)).bind ?_
  rw [if_neg (by decide), if_pos (by decide)]
  exact (reads_readChar (by decide)).bind (Reads.ret _ _)

end NaviScheme
