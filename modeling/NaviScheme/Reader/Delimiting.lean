import Mathlib.Data.List.DropRight
import NaviScheme.Reader.Locality

/-!
# A space ends every token

Each reader does what it takes, and stops in front of a space wherever it stops
(`NaviScheme.delimits_run`). Only the round of `read_list` that leaves an element to `navi_read`
takes nothing, so that it does not stop there (`NaviScheme.listHead_stops`).
-/

namespace NaviScheme

open Fuel

/-! ### The readers of tokens -/

section Tokens

variable {α : Type} {n : ℕ} {p q : Port} {cs : List Char}

theorem dropSpaces_dropSpaces (cs : List Char) : dropSpaces (dropSpaces cs) = dropSpaces cs :=
  List.dropWhile_idempotent _ cs

/-- A space is an ASCII character. -/
theorem isspace_char {w : Char} (hw : isspace w.toNat = true) :
    w.toNat = 0x20 ∨ 9 ≤ w.toNat ∧ w.toNat ≤ 0xD := by
  simp only [isspace, decide_eq_true_eq] at hw
  omega

theorem toChar_space {w : Char} (hw : isspace w.toNat = true) : toChar w.toNat = w.toNat := by
  have hcases := isspace_char hw
  exact toChar_ascii (by omega)

/-- Behind a character that is taken, fewer are left. -/
theorem fewer_of_readChar {v : α} {g : ℤ → ℕ → ReadM α} (hg : ∀ c, Local n (g c)) (hcs : cs ≠ [])
    (hp : p.At cs) (h : (readChar >>= fun c => g c n) p = .ok (v, q)) : q.LeavesFewer cs := by
  obtain ⟨p₁, hrun, hp₁, -⟩ := hp.readChar
  rw [readM_bind hrun] at h
  obtain ⟨ds, hds, hsuf⟩ := (hg _).leaves hp₁ h
  obtain ⟨c, cs, rfl⟩ := List.exists_cons_of_ne_nil hcs
  exact Port.Leaves.fewer ⟨ds, hds.has, hsuf⟩

theorem Port.LeavesFewer.not_at (h : q.LeavesFewer cs) : ¬ q.At cs := by
  rintro hq
  obtain ⟨ds, hds, -, hlt⟩ := h
  obtain rfl := hds.unique hq.has
  exact lt_irrefl _ hlt

theorem not_at_of_readChar {v : α} {g : ℤ → ℕ → ReadM α} (hg : ∀ c, Local n (g c)) (hcs : cs ≠ [])
    (hp : p.At cs) (h : (readChar >>= fun c => g c n) p = .ok (v, q)) : ¬ q.At cs :=
  (fewer_of_readChar hg hcs hp h).not_at

theorem eq_of_lift_ok {x : Except ReadExn α} {v : α} (h : (liftM x : ReadM α) p = .ok (v, q)) :
    q = p := by
  cases x with
  | error e => cases h
  | ok w =>
    cases h
    rfl

theorem delimits_skipUntil (c : ℤ) (orEof : Bool) : Delimits n (skipUntil c orEof) := by
  induction n with
  | zero => exact Delimits.zero rfl
  | succ n ih =>
    have hnext : ∀ d : ℤ, Delimits n fun k =>
        if d = c ∨ d = eofValue then (pure () : ReadM Unit) else skipUntil c orEof k :=
      fun d => Delimits.ite (Delimits.pure _) ih
    refine Delimits.succ ?_
    simp only [skipUntil]
    exact Delimits.ite (delimits_readChar.bind hnext) (delimits_ireadChar.bind hnext)

section Numbers

variable {radix : ℤ} {ctype : ℤ → Bool} {tonum : ℤ → Except ReadExn ℤ}

/-- A space is no digit. -/
theorem DigitClass.not_space (hc : DigitClass ctype tonum) {w : Char}
    (hw : isspace w.toNat = true) : ctype (toChar w.toNat) = false := by
  refine Bool.eq_false_iff.mpr fun hdigit => ?_
  rw [toChar_space hw] at hdigit
  have hx := isxdigit_lt (hc.hex _ hdigit)
  have hcases := isspace_char hw
  omega

theorem delimits_readUnum (hc : DigitClass ctype tonum) (v : ℤ) :
    Delimits n fun k => readUnum radix ctype tonum k v := by
  induction n generalizing v with
  | zero => exact Delimits.zero rfl
  | succ n ih =>
    have htake : ∀ c, Delimits n fun k => (do
        let d ← tonum (toChar c)
        let _ ← readChar
        readUnum radix ctype tonum k ((v * radix + d) % 2 ^ 64) : ReadM ℤ) :=
      fun c => (Delimits.lift _).bind fun d => delimits_readChar.bind fun _ => ih _
    refine Delimits.succ ?_
    simp only [readUnum]
    refine Delimits.bind_peek local_peekChar Port.At.peeks (fun c => ?_) ?_
    · exact Delimits.ite (htake c) (Delimits.pure _)
    intro p q u cs w hcs hp h hq hw
    by_cases hdigit : ctype (toChar (frontCode cs)) = true
    · rw [if_pos hdigit] at h
      obtain ⟨d, p₁, hd, hrest⟩ := bind_eq_ok_readM h
      obtain rfl := eq_of_lift_ok hd
      exact absurd hq (not_at_of_readChar (g := fun _ k => readUnum radix ctype tonum k _)
        (fun _ => (ih _).toLocal) hcs hp hrest)
    · rw [if_neg hdigit, hc.not_space hw]
      rfl

theorem delimits_readNum (hc : DigitClass ctype tonum) :
    Delimits n (readNum radix ctype tonum) := by
  have hsign : ∀ s : ℤ → ℤ, Delimits n fun k => (do
      let _ ← readChar
      let u ← readUnum radix ctype tonum k 0
      return toLong (s u) : ReadM ℤ) :=
    fun s => delimits_readChar.bind fun _ => (delimits_readUnum hc 0).bind fun _ => Delimits.pure _
  unfold readNum
  refine Delimits.bind_peek local_peekChar Port.At.peeks (fun c => ?_) ?_
  · exact Delimits.ite (hsign fun u => -u) (Delimits.ite (hsign fun u => u)
      ((delimits_readUnum hc 0).bind fun _ => Delimits.pure _))
  intro p q u cs w hcs hp h hq hw
  have hminus : ¬ toChar w.toNat = ascii '-' := by
    have h1 : ascii '-' = 45 := rfl
    have hcases := isspace_char hw
    rw [toChar_space hw]
    omega
  have hplus : ¬ toChar w.toNat = ascii '+' := by
    have h1 : ascii '+' = 43 := rfl
    have hcases := isspace_char hw
    rw [toChar_space hw]
    omega
  have hlocal : ∀ s : ℤ → ℤ, Local n fun k => (do
      let u ← readUnum radix ctype tonum k 0
      return toLong (s u) : ReadM ℤ) :=
    fun s => (delimits_readUnum hc 0).toLocal.bind fun _ => Local.pure _
  split_ifs at h
  · exact absurd hq (not_at_of_readChar (fun _ => hlocal fun u => -u) hcs hp h)
  · exact absurd hq (not_at_of_readChar (fun _ => hlocal fun u => u) hcs hp h)
  · rename_i hminus' hplus'
    rw [if_neg hminus, if_neg hplus, if_neg hminus', if_neg hplus']

theorem delimits_readDecimal : Delimits n readDecimal :=
  (delimits_readNum digitClass_isdigit).bind fun _ => Delimits.pure _

end Numbers

/-! ### Names and strings -/

theorem local_readUntil {ctype : ℤ → Except ReadExn Bool} (str : List UInt8) :
    Local n fun k => readUntil ctype k str := by
  induction n generalizing str with
  | zero => exact Local.zero rfl
  | succ n ih =>
    refine Local.succ ?_
    simp only [readUntil]
    refine local_peekChar.bind fun c => (Delimits.lift (ctype c)).toLocal.bind fun b => ?_
    refine Local.ite (Local.pure _) (delimits_readChar.toLocal.bind fun _ => ?_)
    exact Local.ite ((Delimits.lift _).toLocal.bind ih) (ih _)

theorem isterminal_space {w : Char} (hw : isspace w.toNat = true) : isterminal w.toNat = true := by
  simp [isterminal, hw]

theorem delimits_readUntilTerminal : Delimits n readUntilTerminal := by
  have hloop : ∀ str, Delimits n fun k => readUntil (fun c => .ok (isterminal c)) k str := by
    intro str
    induction n generalizing str with
    | zero => exact Delimits.zero rfl
    | succ n ih =>
      have hmore : ∀ c : ℤ, Delimits n fun k => (if c > 0xFF then do
          let str ← u8Append str (str.length + 4) c
          readUntil (fun c => .ok (isterminal c)) k str
        else readUntil (fun c => .ok (isterminal c)) k (str ++ [toByte c]) : ReadM _) :=
        fun c => Delimits.ite ((Delimits.lift _).bind ih) (ih _)
      refine Delimits.succ ?_
      simp only [readUntil]
      refine Delimits.bind_peek local_peekChar Port.At.peeks (fun c => ?_) ?_
      · refine (Delimits.lift _).bind fun b => ?_
        exact Delimits.ite (Delimits.pure _) (delimits_readChar.bind fun _ => hmore c)
      intro p q u cs w hcs hp h hq hw
      have hstop : isterminal (frontCode cs) = true := by
        by_contra hterm
        rw [Bool.not_eq_true] at hterm
        rw [hterm] at h
        exact not_at_of_readChar (fun _ => (hmore _).toLocal) hcs hp h hq
      rw [hstop, isterminal_space hw]
      rfl
  exact hloop []

theorem delimits_readSymbolWithPrefix (first : ℤ) : Delimits n (readSymbolWithPrefix first) :=
  delimits_readUntilTerminal.bind fun _ => (delimits_handleCase _).bind fun _ => Delimits.pure _

theorem delimits_readSymbol :
    Delimits n (readSymbol fun c => .ok (isterminal c)) :=
  delimits_readUntilTerminal.bind fun _ => (delimits_handleCase _).bind fun _ => Delimits.pure _

/-- A symbol between pipes. -/
theorem delimits_readSymbol_ispipe : Delimits n fun k => (do
    let expr ← readSymbol ispipe k
    let _ ← readChar
    return expr : ReadM Datum) := by
  have hsymbol : Local n (readSymbol ispipe) :=
    (local_readUntil []).bind fun _ => (delimits_handleCase _).toLocal.bind fun _ => Local.pure _
  refine Delimits.bind_fewer hsymbol
    (fun _ => delimits_readChar.bind fun _ => Delimits.pure _) ?_
  rintro p p₁ q a v cs es - - h hq hes hp₁
  exact not_at_of_readChar (n := n) (g := fun _ _ => pure a) (fun _ => Local.pure _) hes hp₁ h hq

theorem delimits_skipSpaces : Delimits n skipSpaces := by
  induction n with
  | zero => exact Delimits.zero rfl
  | succ n ih =>
    refine Delimits.succ ?_
    simp only [skipSpaces]
    refine delimits_ireadChar.bind fun c => ?_
    exact Delimits.ite ih (Delimits.pure _)

/-- A character that may follow, and is no space. -/
theorem delimits_ipeekChar_if {f f' : ℕ → ReadM α} {d : Char} (hd : isspace d.toNat = false)
    (hf : Delimits n f) (hf' : Delimits n f') : Delimits n fun k => (do
      let c ← ipeekChar
      if c = ascii d then do
        let _ ← readChar
        f k
      else f' k : ReadM α) := by
  refine Delimits.bind_peek local_ipeekChar Port.At.ipeeks (fun c => ?_) ?_
  · exact Delimits.ite (delimits_readChar.bind fun _ => hf) hf'
  intro p q v cs w hcs hp h hq hw
  have hne : ¬ (w.toNat : ℤ) = ascii d := by
    intro heq
    rw [heq] at hw
    exact Bool.false_ne_true (hd.symm.trans hw)
  by_cases hc : frontCode cs = ascii d
  · rw [if_pos hc] at h
    exact absurd hq (not_at_of_readChar (fun _ => hf.toLocal) hcs hp h)
  · rw [if_neg hc, if_neg hne]

variable (X : ReadEnv)

theorem delimits_readStringEscape : Delimits n (readStringEscape X) := by
  unfold readStringEscape
  refine delimits_ireadChar.bind fun c => ?_
  refine Delimits.ite (Delimits.pure _) (Delimits.ite (Delimits.pure _)
    (Delimits.ite (Delimits.pure _) (Delimits.ite (Delimits.pure _)
    (Delimits.ite (Delimits.pure _) (Delimits.ite (Delimits.pure _)
    (Delimits.ite delimits_skipSpaces (Delimits.ite ?_ (Delimits.throw _))))))))
  refine (delimits_readUnum Radix.hex.digitClass 0).bind fun u => ?_
  exact delimits_ipeekChar_if (by decide) (Delimits.pure _) (Delimits.pure _)

theorem delimits_readString : Delimits n (readString X) := by
  have hloop : ∀ (data : List UInt8) (length : ℕ) (capacity : ℤ),
      Delimits n fun k => readStringLoop X k data length capacity := by
    induction n with
    | zero => exact fun _ _ _ => Delimits.zero rfl
    | succ n ih =>
      intro data length capacity
      have hstore : ∀ c : ℤ, Delimits n fun k => (do
          let capacity :=
            if data.length + u8Length c ≥ capacity then growStorage capacity 0 strBufStep
            else capacity
          let data ← u8Append data capacity c
          readStringLoop X k data (length + 1) capacity : ReadM Datum) :=
        fun c => (Delimits.lift _).bind fun _ => ih _ _ _
      refine Delimits.succ ?_
      simp only [readStringLoop]
      refine delimits_ireadChar.bind fun c => ?_
      refine Delimits.ite (Delimits.ite (Delimits.pure _) (Delimits.throw _)) ?_
      exact Delimits.ite ((delimits_readStringEscape X).bind hstore) (hstore c)
  exact hloop [] 0 strBufLen

/-! ### Sharp syntax -/

theorem delimits_readCharacter : Delimits n (readCharacter X) := by
  unfold readCharacter
  refine delimits_readUntilTerminal.bind fun str => ?_
  split
  · exact Delimits.pure _
  · refine (delimits_handleCase _).bind fun name => ?_
    refine Delimits.ite ((Delimits.lift _).bind fun ch => ?_) ?_
    · exact Delimits.ite (Delimits.pure _) (Delimits.throw _)
    · split
      · exact Delimits.pure _
      · exact Delimits.throw _

theorem delimits_readSharpBang : Delimits n readSharpBang := by
  unfold readSharpBang
  refine delimits_readUntilTerminal.bind fun str => ?_
  refine Delimits.ite ((delimits_skipUntil _ _).bind fun _ => Delimits.pure _)
    (Delimits.ite ((delimits_skipUntil _ _).bind fun _ => Delimits.pure _)
    (Delimits.ite (Delimits.pure _) (Delimits.ite ?_ (Delimits.ite ?_ (Delimits.throw _)))))
  · exact (delimits_naviPortFoldCase true).bind fun _ => Delimits.pure _
  · exact (delimits_naviPortFoldCase false).bind fun _ => Delimits.pure _

theorem delimits_readBoolean (fst : ℤ) : Delimits n (readBoolean fst) := by
  unfold readBoolean
  refine delimits_readUntilTerminal.bind fun str => ?_
  exact Delimits.ite (Delimits.pure _) (Delimits.ite (Delimits.pure _) (Delimits.throw _))

theorem delimits_blockComment : Delimits n blockComment := by
  induction n with
  | zero => exact Delimits.zero rfl
  | succ n ih =>
    refine Delimits.succ ?_
    simp only [blockComment]
    refine (delimits_skipUntil _ _).bind fun _ => delimits_ireadChar.bind fun c => ?_
    exact Delimits.ite (Delimits.pure _) ih

/-! ### The heads -/

theorem delimits_sharpHead : Delimits n (sharpHead X) := by
  have hdone : ∀ {f : ℕ → ReadM Datum}, Delimits n f → Delimits n fun k => (do
      let d ← f k
      return SharpNext.done d : ReadM SharpNext) :=
    fun hf => hf.bind fun _ => Delimits.pure _
  have hnum : ∀ {f : ℕ → ReadM ℤ}, Delimits n f → Delimits n fun k => (do
      let v ← f k
      return SharpNext.done (.fixnum (fixnumBits v)) : ReadM SharpNext) :=
    fun hf => hf.bind fun _ => Delimits.pure _
  have hskip : ∀ {f : ℕ → ReadM Unit}, Delimits n f → Delimits n fun k => (do
      f k
      return SharpNext.done .void : ReadM SharpNext) :=
    fun hf => hf.bind fun _ => Delimits.pure _
  have hradix : ∀ r : Radix, Delimits n (readNum r.base r.ctype r.tonum) :=
    fun r => delimits_readNum r.digitClass
  unfold sharpHead
  refine delimits_ireadChar.bind fun c => ?_
  refine Delimits.ite (hdone (delimits_readBoolean _)) (Delimits.ite
    (hdone (delimits_readCharacter X)) (Delimits.ite (Delimits.pure _) (Delimits.ite ?_
    (Delimits.ite ?_ (Delimits.ite ?_ (Delimits.ite ?_ (Delimits.ite (hdone delimits_readSharpBang)
    (Delimits.ite (Delimits.pure _) (Delimits.ite (Delimits.pure _)
    (Delimits.ite (hskip delimits_blockComment) (Delimits.ite
    (hskip (delimits_skipUntil _ _)) (Delimits.throw _))))))))))))
  · -- `#u8(`
    refine delimits_ireadChar.bind fun d => Delimits.ite (Delimits.throw _) ?_
    exact delimits_ireadChar.bind fun d => Delimits.ite (Delimits.throw _) (Delimits.pure _)
  · exact ((hradix .binary).bind fun _ => Delimits.pure _).bind fun _ => Delimits.pure _
  · exact ((hradix .octal).bind fun _ => Delimits.pure _).bind fun _ => Delimits.pure _
  · exact ((hradix .hex).bind fun _ => Delimits.pure _).bind fun _ => Delimits.pure _

/-- What follows the sign in front of a symbol or a number. -/
theorem delimits_readSigned (c : ℤ) : Delimits n fun k => (do
    let d ← peekChar
    if isdigit d then do
      let v ← readDecimal k
      return .done (naviMakeFixnum (v * if c = ascii '+' then 1 else -1))
    else do
      let expr ← readSymbolWithPrefix c k
      return .done expr : ReadM ReadNext) := by
  have hdecimal : ∀ m, Local m fun k => (do
      let v ← readDecimal k
      return ReadNext.done (naviMakeFixnum (v * if c = ascii '+' then 1 else -1)) :
        ReadM ReadNext) :=
    fun m => delimits_readDecimal.toLocal.bind fun _ => Local.pure _
  refine Delimits.bind_peek local_peekChar Port.At.peeks (fun d => ?_) ?_
  · exact Delimits.ite (delimits_readDecimal.bind fun _ => Delimits.pure _)
      ((delimits_readSymbolWithPrefix c).bind fun _ => Delimits.pure _)
  intro p q v cs w hcs hp h hq hw
  have hspace : isdigit w.toNat = false := by
    have hno := digitClass_isdigit.not_space hw
    rwa [toChar_space hw] at hno
  by_cases hdigit : isdigit (frontCode cs) = true
  · -- the digit is taken
    rw [if_pos hdigit] at h
    have hends : Halts (fun k => (do
        let v ← readDecimal k
        return ReadNext.done (naviMakeFixnum (v * if c = ascii '+' then 1 else -1)) :
          ReadM ReadNext)) p fun _ p' => p'.LeavesFewer cs :=
      (halts_readDecimal hp.has).bind fun _ _ hq => Ends.ret (hq.2 (isdigit_toChar hdigit))
    obtain ⟨es, hes, -, hlt⟩ := hends.meets (Local.converges hdecimal h)
    obtain rfl := hes.unique hq.has
    exact absurd hlt (lt_irrefl _)
  · rw [if_neg hdigit, if_neg (by rw [hspace]; exact Bool.false_ne_true)]

/-- Behind the spaces, `navi_read` does something that stops in front of a space. -/
theorem exists_readHead : ∃ k : ℤ → ℕ → ReadM ReadNext,
    (∀ n, readHead n = peekFirstChar n >>= fun c => k c n) ∧ ∀ n c, Delimits n (k c) := by
  refine ⟨_, fun n => rfl, fun n c => ?_⟩
  have hread : ∀ next : ReadNext, Delimits n fun _ => (do
      let _ ← readChar
      return next : ReadM ReadNext) :=
    fun next => delimits_readChar.bind fun _ => Delimits.pure _
  refine Delimits.ite (delimits_readDecimal.bind fun _ => Delimits.pure _)
    (Delimits.ite (hread .string) (Delimits.ite (hread _) (Delimits.ite (hread _)
    (Delimits.ite (delimits_readChar.bind fun _ => ?_) (Delimits.ite (hread .sharp)
    (Delimits.ite (hread .list) (Delimits.ite (delimits_readChar.bind fun _ => Delimits.throw _)
    (Delimits.ite ((delimits_skipUntil _ _).bind fun _ => Delimits.pure _)
    (Delimits.ite (Delimits.pure _) (Delimits.ite (delimits_readChar.bind fun _ => ?_)
    (Delimits.ite (delimits_readChar.bind fun _ => delimits_readSigned c)
    (delimits_readSymbol.bind fun _ => Delimits.pure _))))))))))))
  · exact delimits_ipeekChar_if (by decide) (Delimits.pure _) (Delimits.pure _)
  · have hpipe := (delimits_readSymbol_ispipe (n := n)).bind fun expr =>
      Delimits.pure (ReadNext.done expr)
    simpa only [bind_assoc, pure_bind] using hpipe

theorem local_readHead : Local n readHead := by
  obtain ⟨k, hk, hdelim⟩ := exists_readHead
  rw [funext hk]
  exact local_peekFirstChar.bind fun c => (hdelim n c).toLocal

/-- Where `navi_read` sees a character, it takes one. -/
theorem readHead_fewer {next : ReadNext} (hp : p.At cs) (hcs : dropSpaces cs ≠ [])
    (h : readHead n p = .ok (next, q)) : q.LeavesFewer cs := by
  rcases (halts_readHead hp.has).meets (Local.converges (fun _ => local_readHead) h) with
    hless | ⟨-, hend, -⟩
  · exact hless
  · exact absurd hend hcs

theorem delimits_readHead : Delimits n readHead := by
  obtain ⟨k, hk, hdelim⟩ := exists_readHead
  rw [funext hk]
  refine Delimits.bind_fewer local_peekFirstChar (hdelim n) ?_
  intro p p₁ q c next cs es hp hpeek h hq hes hp₁
  -- `navi_read` would see the same character again
  obtain ⟨p₁', hconv, hat, -⟩ := takes_peekFirstChar hp
  cases (Local.converges (fun _ => local_peekFirstChar) hpeek).unique hconv
  obtain rfl := hat.unique hp₁
  obtain ⟨d, ds, hdrop⟩ := List.exists_cons_of_ne_nil hes
  obtain ⟨p₁', hconv', -, -, hagain⟩ := exists_peekFirstChar hp hdrop
  rw [hdrop, frontCode_cons] at h hconv
  cases hconv'.unique hconv
  cases n with
  | zero => cases hpeek
  | succ n =>
    have hhead : readHead (n + 1) p₁ = .ok (next, q) := by
      rw [hk, readM_bind (hagain n)]
      exact h
    exact (readHead_fewer hat (by rwa [dropSpaces_dropSpaces]) hhead).not_at hq

/-- What follows a dot. -/
theorem delimits_behindDot : Delimits n fun k => (do
    let c := toChar (← ipeekChar)
    if isterminal c then return .last
    else do
      let expr ← readSymbolWithPrefix (ascii '.') k
      return .symbol expr : ReadM ListNext) := by
  have hsymbol : Delimits n fun k => (do
      let expr ← readSymbolWithPrefix (ascii '.') k
      return .symbol expr : ReadM ListNext) :=
    (delimits_readSymbolWithPrefix _).bind fun _ => Delimits.pure _
  refine Delimits.bind_peek (k := fun c k => if isterminal (toChar c) then pure .last else _)
    local_ipeekChar Port.At.ipeeks (fun c => Delimits.ite (Delimits.pure _) hsymbol) ?_
  intro p q v cs w hcs hp h hq hw
  have hstop : isterminal (toChar (frontCode cs)) = true := by
    by_contra hterm
    -- the character behind the dot is taken
    obtain ⟨c, ds, rfl⟩ := List.exists_cons_of_ne_nil hcs
    have hin : inToken c = true := by
      rw [inToken, Bool.not_eq_true', ← Bool.not_eq_true]
      intro hc
      rcases Nat.lt_or_ge c.toNat 128 with hlt | hge
      · rw [frontCode_cons, toChar_ascii hlt] at hterm
        exact hterm hc
      · rw [isterminal_of_ge hge] at hc
        cases hc
    rw [if_neg hterm] at h
    obtain ⟨d, p₁, hd, hret⟩ := bind_eq_ok_readM h
    cases hret
    obtain ⟨q', hconv, hq', -⟩ := takes_readSymbolWithPrefix (ascii '.') hp
    have hagain := Local.converges
      (fun m => (delimits_readSymbolWithPrefix (n := m) (ascii '.')).toLocal) hd
    cases hagain.unique hconv
    rw [List.dropWhile_cons_of_pos hin] at hq'
    have hlen := congrArg List.length (hq'.unique hq)
    have hle := (List.dropWhile_suffix inToken (l := ds)).length_le
    rw [List.length_cons] at hlen
    omega
  have hspace : isterminal (toChar w.toNat) = true := by
    rw [toChar_space hw]
    exact isterminal_space hw
  simp only [hstop, hspace, if_true]

theorem ListAction.delimits_run (a : ListAction) : Delimits n fun k => a.run k := by
  cases a with
  | close => exact delimits_readChar.bind fun _ => Delimits.pure _
  | dot => exact delimits_readChar.bind fun _ => delimits_behindDot
  | sharp => exact delimits_readChar.bind fun _ => Delimits.pure _
  | comment => exact (delimits_skipUntil _ _).bind fun _ => Delimits.pure _
  | element => exact Delimits.pure _

/-- Every other action takes a character. -/
theorem ListAction.run_fewer {a : ListAction} {next : ListNext} (ha : a ≠ .element)
    (hcs : cs ≠ []) (hp : p.At cs) (h : a.run n p = .ok (next, q)) : q.LeavesFewer cs := by
  cases a with
  | close => exact fewer_of_readChar (n := n) (fun _ => Local.pure _) hcs hp h
  | dot => exact fewer_of_readChar (fun _ => delimits_behindDot.toLocal) hcs hp h
  | sharp => exact fewer_of_readChar (n := n) (fun _ => Local.pure _) hcs hp h
  | comment =>
    obtain ⟨c, ds, rfl⟩ := List.exists_cons_of_ne_nil hcs
    obtain ⟨_, p₁, hline, hret⟩ := bind_eq_ok_readM h
    cases hret
    exact Port.Leaves.fewer ((halts_consumeLine hp.has).meets
      (Local.converges (fun _ => (delimits_skipUntil _ _).toLocal) hline))
  | element => exact absurd rfl ha

theorem local_listHead : Local n listHead := by
  rw [funext listHead_eq]
  exact local_ipeekFirstChar.bind fun c => (ListAction.delimits_run _).toLocal

/-- The round of `read_list` stops in front of a space, unless `navi_read` is to be called. -/
theorem listHead_stops {p' : Port} {next : ListNext} {x t t' : List Char} {w : Char}
    {fold fold' : Bool} (hnext : next ≠ .element) (ht : t ≠ []) (hw : isspace w.toNat = true)
    (hp : p.Stands (x ++ t) fold) (hp' : p'.Stands (x ++ w :: t') fold)
    (h : listHead n p = .ok (next, q)) (hq : q.Stands t fold') :
    ∃ q', listHead n p' = .ok (next, q') ∧ q'.Stands (w :: t') fold' := by
  rw [listHead_eq] at h ⊢
  obtain ⟨c, p₁, h₁, h₂⟩ := bind_eq_ok_readM h
  obtain ⟨ds, hds, -⟩ := local_ipeekFirstChar.leaves hp.toAt h₁
  obtain ⟨es, hes, y, rfl⟩ := (ListAction.delimits_run _).leaves hds h₂
  obtain rfl := hes.unique hq.toAt
  have hy : y ≠ [] := by
    rintro rfl
    refine (ListAction.run_fewer (fun ha => ?_) ht hds h₂).not_at hq.toAt
    rw [ha] at h₂
    cases h₂
    exact hnext rfl
  exact local_ipeekFirstChar.stops_bind (g := fun c k => (listAction (toChar c)).run k)
    (ListAction.delimits_run _) ht hw hp hp' h₁ hds hy h₂ hq

/-- What is behind the last element stops in front of a space. -/
theorem delimits_listEnd (elms : List Datum) (last : Datum) : Delimits n (listEnd elms last) := by
  have hclose : Local n fun _ => (do
      let _ ← readChar
      return Datum.listTail elms last : ReadM Datum) :=
    delimits_readChar.toLocal.bind fun _ => Local.pure _
  refine Delimits.bind_fewer local_peekFirstChar (fun c => ?_) ?_
  · exact Delimits.ite (delimits_readChar.bind fun _ => Delimits.pure _) (Delimits.throw _)
  intro p p₁ q c v cs es hp hpeek h hq hes hp₁
  by_cases hc : toChar c = ascii ')'
  · rw [if_pos hc] at h
    exact not_at_of_readChar (n := n) (fun _ => Local.pure _) hes hp₁ h hq
  · rw [if_neg hc] at h
    cases h

end Tokens

/-! ### The readers themselves -/

section Calls

variable {X : ReadEnv} {n : ℕ} {p q : Port} {cs : List Char}

theorem delimits_readNext (h : ∀ c : Call, Delimits n (c.run X)) (next : ReadNext) :
    Delimits n fun k => readNext X k next := by
  have hread : Delimits n (naviRead X) := h .read
  have hsharp : Delimits n (readSharp X) := h .sharp
  cases next with
  | done d => exact Delimits.pure d
  | string => exact delimits_readString X
  | wrap symbol => exact hread.bind fun _ => Delimits.pure _
  | sharp =>
    refine hsharp.bind fun expr => ?_
    exact Delimits.ite hread (Delimits.pure _)
  | list => exact h (.list [])
  | again => exact hread

theorem delimits_sharpNext (h : ∀ c : Call, Delimits n (c.run X)) (next : SharpNext) :
    Delimits n fun k => sharpNext X k next := by
  have hread : Delimits n (naviRead X) := h .read
  have hlist : Delimits n fun k => readList X k [] := h (.list [])
  cases next with
  | done d => exact Delimits.pure d
  | vector => exact hlist.bind fun _ => Delimits.pure _
  | bytevec => exact hlist.bind fun _ => Delimits.lift _
  | internal => exact hread.bind fun _ => Delimits.lift _
  | comment => exact hread.bind fun _ => Delimits.pure _

theorem delimits_listNext (h : ∀ c : Call, Delimits n (c.run X)) (elms : List Datum)
    (next : ListNext) : Delimits n fun k => listNext X k elms next := by
  have hread : Delimits n (naviRead X) := h .read
  have hsharp : Delimits n (readSharp X) := h .sharp
  have hlist : ∀ elms, Delimits n fun k => readList X k elms := fun elms => h (.list elms)
  cases next with
  | close => exact Delimits.pure _
  | last => exact hread.bind fun last => delimits_listEnd elms last
  | symbol expr => exact hlist _
  | sharp =>
    refine hsharp.bind fun expr => ?_
    exact Delimits.ite (hlist _) (hlist _)
  | skip => exact hlist _
  | element =>
    refine hread.bind fun expr => ?_
    exact Delimits.ite (Delimits.throw _) (hlist _)

/-- Where `navi_read` sees a character, it takes one. -/
theorem naviRead_fewer (h : ∀ m < n, ∀ c : Call, Delimits m (c.run X)) {d : Datum} (hp : p.At cs)
    (hcs : dropSpaces cs ≠ []) (hread : naviRead X n p = .ok (d, q)) : q.LeavesFewer cs := by
  cases n with
  | zero => cases hread
  | succ n =>
    rw [naviRead_succ] at hread
    obtain ⟨next, p₁, hhead, hnext⟩ := bind_eq_ok_readM hread
    obtain ⟨ds, hds, hsuf, hlt⟩ := readHead_fewer hp hcs hhead
    obtain ⟨es, hes, hsuf'⟩ := local_readHead.leaves hp hhead
    obtain rfl := hes.has.unique hds
    obtain ⟨fs, hfs, hsuf''⟩ :=
      (delimits_readNext (h n (Nat.lt_succ_self n)) next).leaves hes hnext
    have hle := hsuf''.length_le
    exact ⟨fs, hfs.has, hsuf''.trans hsuf, by omega⟩

/-- What `read_list` does at a character takes one. -/
theorem listRound_fewer (h : ∀ m ≤ n, ∀ c : Call, Delimits m (c.run X)) {a : ListAction}
    {elms : List Datum} {d : Datum} (hcs : dropSpaces cs ≠ []) (hp : p.At cs)
    (hrun : (a.run n >>= fun next => listNext X n elms next) p = .ok (d, q)) :
    q.LeavesFewer cs := by
  obtain ⟨next, p₁, h₁, h₂⟩ := bind_eq_ok_readM hrun
  obtain ⟨ds, hds, -⟩ := a.delimits_run.leaves hp h₁
  by_cases ha : a = .element
  · subst ha
    cases h₁
    -- the element takes one
    obtain ⟨expr, p₂, hread, hrest⟩ := bind_eq_ok_readM h₂
    obtain ⟨es, hes, -⟩ := (h n le_rfl .read).leaves hp hread
    have hless := naviRead_fewer (fun m hm => h m hm.le) hp hcs hread
    split_ifs at hrest
    · cases hrest
    · obtain ⟨fs, hfs, hsuf⟩ := (h n le_rfl (.list _)).leaves hes hrest
      obtain ⟨gs, hgs, hsuf', hlt⟩ := hless
      obtain rfl := hes.has.unique hgs
      have hle := hsuf.length_le
      exact ⟨fs, hfs.has, hsuf.trans hsuf', by omega⟩
  · have hne : cs ≠ [] := by
      rintro rfl
      exact hcs rfl
    obtain ⟨gs, hgs, hsuf', hlt⟩ := ListAction.run_fewer ha hne hp h₁
    obtain rfl := hds.has.unique hgs
    obtain ⟨fs, hfs, hsuf⟩ := (delimits_listNext (h n le_rfl) elms next).leaves hds h₂
    have hle := hsuf.length_le
    exact ⟨fs, hfs.has, hsuf.trans hsuf', by omega⟩

/-- **Every reader does what it takes**, and a space ends it. -/
theorem delimits_run (c : Call) : Delimits n (c.run X) := by
  induction n using Nat.strong_induction_on generalizing c with
  | _ n ih =>
    cases n with
    | zero => cases c <;> exact Delimits.zero rfl
    | succ n =>
      have hcalls := ih n (Nat.lt_succ_self n)
      refine Delimits.succ ?_
      cases c with
      | read =>
        change Delimits n fun k => naviRead X (k + 1)
        simp only [naviRead_succ]
        exact delimits_readHead.bind (delimits_readNext hcalls)
      | sharp =>
        change Delimits n fun k => readSharp X (k + 1)
        simp only [readSharp_succ]
        exact (delimits_sharpHead X).bind (delimits_sharpNext hcalls)
      | list elms =>
        change Delimits n fun k => readList X (k + 1) elms
        simp only [readList_succ, listHead_eq, bind_assoc]
        refine Delimits.bind_fewer local_ipeekFirstChar (fun c => ?_) ?_
        · exact (ListAction.delimits_run _).bind (delimits_listNext hcalls elms)
        intro p p₁ q c d cs es hp hpeek hrun hq hes hp₁
        -- the character that has been seen is no space
        have hpost := (halts_ipeekFirstChar hp.has).meets
          (Local.converges (fun _ => local_ipeekFirstChar) hpeek)
        obtain ⟨d', ds, hdrop, -, hhas⟩ := hpost
        obtain rfl := hhas.unique hp₁.has
        have hspace : dropSpaces (dropSpaces cs) ≠ [] := by
          rw [dropSpaces_dropSpaces]
          exact hes
        exact (listRound_fewer (fun m hm => ih m (Nat.lt_succ_of_le hm)) hspace hp₁ hrun).not_at hq

end Calls

end NaviScheme
