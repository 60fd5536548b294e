import NaviScheme.Reader.SymbolName

/-!
# Readers that ignore case folding

Whether letters are folded is asked by `handle_case` alone. The functions of the reader that take
characters, numbers and tokens from a port return the same with folding on and off
(`NaviScheme.IgnoresFold`), and what has been shown of them for ports without folding holds for
every port that can be read (`NaviScheme.Reads.anyCase`).
-/

namespace NaviScheme

variable {α β : Type} {X : ReadEnv} {m : ReadM α} {f : α → ReadM β} {v : α} {w : β}
  {bs ds es : List UInt8}

/-- The port, with folding on or off. -/
def Port.withFold (p : Port) (fold : Bool) : Port := { p with foldCase := fold }

/-- A function does the same with folding on and off. -/
def IgnoresFold (m : ReadM α) : Prop :=
  ∀ (p : Port) (fold : Bool),
    m (p.withFold fold) = (m p).map fun r => (r.1, r.2.withFold fold)

theorem ignoresFold_pure (v : α) : IgnoresFold (pure v : ReadM α) := fun _ _ => rfl

theorem ignoresFold_throw (e : ReadExn) : IgnoresFold (throw e : ReadM α) := fun _ _ => rfl

theorem ignoresFold_lift (x : Except ReadExn α) : IgnoresFold (liftM x : ReadM α) := by
  intro p fold
  cases x with
  | error e => rfl
  | ok v => rfl

theorem IgnoresFold.bind (hm : IgnoresFold m) (hf : ∀ v, IgnoresFold (f v)) :
    IgnoresFold (m >>= f) := by
  intro p fold
  change (m (p.withFold fold) >>= fun r => f r.1 r.2) =
    ((m p >>= fun r => f r.1 r.2).map fun r => (r.1, r.2.withFold fold))
  rw [hm p fold]
  cases m p with
  | error e => rfl
  | ok r => exact hf r.1 r.2 fold

theorem IgnoresFold.ite {c : Prop} [Decidable c] {m m' : ReadM α} (h : IgnoresFold m)
    (h' : IgnoresFold m') : IgnoresFold (if c then m else m') := by
  split_ifs
  · exact h
  · exact h'

/-! ### Characters -/

theorem ignoresFold_naviPortBufferChar : IgnoresFold naviPortBufferChar := by
  intro p fold
  simp only [naviPortBufferChar, Port.withFold]
  cases p.kind with
  | string =>
    cases stringRead p.rest with
    | error e => rfl
    | ok r => rfl
  | file =>
    cases decodeUtf8 p.rest with
    | error e => rfl
    | ok r => rfl

theorem ignoresFold_naviPortPeekChar : IgnoresFold naviPortPeekChar := by
  rintro ⟨kind, rest, buffer, gotEof, bufferFull, inputClosed, foldCase⟩ fold
  have hbuffer := ignoresFold_naviPortBufferChar
    ⟨kind, rest, buffer, gotEof, bufferFull, inputClosed, foldCase⟩ fold
  cases inputClosed with
  | true => rfl
  | false =>
    cases gotEof with
    | true => rfl
    | false =>
      cases bufferFull with
      | true => rfl
      | false =>
        change (naviPortBufferChar _ >>= fun r => _) = ((naviPortBufferChar _ >>= fun r => _).map _)
        rw [hbuffer]
        cases naviPortBufferChar ⟨kind, rest, buffer, false, false, false, foldCase⟩ with
        | error e => rfl
        | ok r => rfl

theorem ignoresFold_naviPortReadChar : IgnoresFold naviPortReadChar := by
  rintro ⟨kind, rest, buffer, gotEof, bufferFull, inputClosed, foldCase⟩ fold
  have hbuffer := ignoresFold_naviPortBufferChar
    ⟨kind, rest, buffer, gotEof, bufferFull, inputClosed, foldCase⟩ fold
  cases inputClosed with
  | true => rfl
  | false =>
    cases gotEof with
    | true => rfl
    | false =>
      cases bufferFull with
      | true => rfl
      | false =>
        change (naviPortBufferChar _ >>= fun r => _) = ((naviPortBufferChar _ >>= fun r => _).map _)
        rw [hbuffer]
        cases naviPortBufferChar ⟨kind, rest, buffer, false, false, false, foldCase⟩ with
        | error e => rfl
        | ok r =>
          obtain ⟨⟨⟩, p'⟩ := r
          cases hp' : p'.gotEof with
          | true => simp [Except.map, Port.withFold, hp']
          | false => simp [Except.map, Port.withFold, hp']

theorem ignoresFold_peekChar : IgnoresFold peekChar := by
  refine ignoresFold_naviPortPeekChar.bind fun d => ?_
  split
  · exact ignoresFold_pure _
  · exact ignoresFold_pure _

theorem ignoresFold_readChar : IgnoresFold readChar := by
  refine ignoresFold_naviPortReadChar.bind fun d => ?_
  split
  · exact ignoresFold_pure _
  · exact ignoresFold_pure _

theorem ignoresFold_ireadChar : IgnoresFold ireadChar :=
  ignoresFold_readChar.bind fun _ => (ignoresFold_throw _).ite (ignoresFold_pure _)

theorem ignoresFold_peekFirstChar (n : ℕ) : IgnoresFold (peekFirstChar n) := by
  induction n with
  | zero => exact ignoresFold_throw _
  | succ n ih =>
    exact ignoresFold_peekChar.bind fun _ =>
      (ignoresFold_readChar.bind fun _ => ih).ite (ignoresFold_pure _)

/-! ### Numbers and tokens -/

theorem ignoresFold_readUnum (radix : ℤ) (ctype : ℤ → Bool) (tonum : ℤ → Except ReadExn ℤ) (k : ℕ)
    (n : ℤ) : IgnoresFold (readUnum radix ctype tonum k n) := by
  induction k generalizing n with
  | zero => exact ignoresFold_throw _
  | succ k ih =>
    exact ignoresFold_peekChar.bind fun _ => ((ignoresFold_lift _).bind fun _ =>
      ignoresFold_readChar.bind fun _ => ih _).ite (ignoresFold_pure _)

theorem ignoresFold_readNum (radix : ℤ) (ctype : ℤ → Bool) (tonum : ℤ → Except ReadExn ℤ) (k : ℕ) :
    IgnoresFold (readNum radix ctype tonum k) := by
  have hunum := ignoresFold_readUnum radix ctype tonum k 0
  refine ignoresFold_peekChar.bind fun _ => IgnoresFold.ite ?_ (IgnoresFold.ite ?_ ?_)
  · exact ignoresFold_readChar.bind fun _ => hunum.bind fun _ => ignoresFold_pure _
  · exact ignoresFold_readChar.bind fun _ => hunum.bind fun _ => ignoresFold_pure _
  · exact hunum.bind fun _ => ignoresFold_pure _

theorem ignoresFold_readUntil (ctype : ℤ → Except ReadExn Bool) (n : ℕ) (str : List UInt8) :
    IgnoresFold (readUntil ctype n str) := by
  induction n generalizing str with
  | zero => exact ignoresFold_throw _
  | succ n ih =>
    refine ignoresFold_peekChar.bind fun c => (ignoresFold_lift _).bind fun _ =>
      (ignoresFold_pure _).ite (ignoresFold_readChar.bind fun _ => IgnoresFold.ite ?_ (ih _))
    exact (ignoresFold_lift _).bind fun _ => ih _

theorem ignoresFold_readBoolean (c : ℤ) (n : ℕ) : IgnoresFold (readBoolean c n) :=
  (ignoresFold_readUntil _ n []).bind fun _ =>
    (ignoresFold_pure _).ite ((ignoresFold_pure _).ite (ignoresFold_throw _))

/-! ### Triples -/

/-- A function takes the text `bs` to the text `es` and returns `v`, with folding on or off. -/
def ReadsAnyCase (m : ReadM α) (bs : List UInt8) (v : α) (es : List UInt8) : Prop :=
  ∀ (p : Port) (fold : Bool), p.Ready → p.unread = bs →
    ∃ p' : Port, m (p.withFold fold) = .ok (v, p'.withFold fold) ∧ p'.Ready ∧ p'.unread = es

theorem Reads.anyCase (h : Reads m bs v es) (hm : IgnoresFold m) : ReadsAnyCase m bs v es := by
  intro p fold hp hu
  obtain ⟨p', hok, hp', hu'⟩ := h p hp hu
  exact ⟨p', by rw [hm p fold, hok]; rfl, hp', hu'⟩

theorem Port.Ready.withFold_false {p : Port} (hp : p.Ready) : p.withFold false = p := by
  rw [Port.withFold, ← hp.noFold]

theorem ReadsAnyCase.reads (h : ReadsAnyCase m bs v es) : Reads m bs v es := by
  intro p hp hu
  obtain ⟨p', hok, hp', hu'⟩ := h p false hp hu
  rw [hp.withFold_false, hp'.withFold_false] at hok
  exact ⟨p', hok, hp', hu'⟩

theorem ReadsAnyCase.ret (v : α) (bs : List UInt8) : ReadsAnyCase (pure v) bs v bs :=
  fun p _ hp hu => ⟨p, rfl, hp, hu⟩

/-- A triple says all that the function does. -/
theorem ReadsAnyCase.unique {w : α} (h : ReadsAnyCase m bs v es) (h' : ReadsAnyCase m bs w ds) :
    v = w ∧ es = ds := by
  obtain ⟨p', hok, -, hu⟩ := h (Port.openOn .file bs) false (Port.openOn_ready _ _) rfl
  obtain ⟨p'', hok', -, hu'⟩ := h' (Port.openOn .file bs) false (Port.openOn_ready _ _) rfl
  rw [hok] at hok'
  have hpair := Except.ok.inj hok'
  have hrest : p'.unread = p''.unread := congrArg (fun r => Port.unread r.2) hpair
  exact ⟨congrArg Prod.fst hpair, by rw [← hu, ← hu', hrest]⟩

theorem ReadsAnyCase.bind (h : ReadsAnyCase m bs v ds) (h' : ReadsAnyCase (f v) ds w es) :
    ReadsAnyCase (m >>= f) bs w es := by
  intro p fold hp hu
  obtain ⟨p', hm, hp', hu'⟩ := h p fold hp hu
  obtain ⟨p'', hf, hp'', hu''⟩ := h' p' fold hp' hu'
  exact ⟨p'', by rw [readM_bind hm, hf], hp'', hu''⟩

/-- A function raises a read error on the text `bs`, with folding on or off. -/
def RaisesReadError (m : ReadM α) (bs : List UInt8) : Prop :=
  ∀ (p : Port) (fold : Bool), p.Ready → p.unread = bs →
    ∃ msg irritants, m (p.withFold fold) = .error (naviReadError msg irritants)

theorem raisesReadError_throw (msg : String) (irritants : List (String × Datum))
    (bs : List UInt8) : RaisesReadError (throw (naviReadError msg irritants) : ReadM α) bs :=
  fun _ _ _ _ => ⟨msg, irritants, rfl⟩

theorem RaisesReadError.bind (h : RaisesReadError m bs) : RaisesReadError (m >>= f) bs := by
  intro p fold hp hu
  obtain ⟨msg, irritants, hm⟩ := h p fold hp hu
  exact ⟨msg, irritants, readM_bind_error hm⟩

theorem ReadsAnyCase.raises (h : ReadsAnyCase m bs v ds) (h' : RaisesReadError (f v) ds) :
    RaisesReadError (m >>= f) bs := by
  intro p fold hp hu
  obtain ⟨p', hm, hp', hu'⟩ := h p fold hp hu
  obtain ⟨msg, irritants, hf⟩ := h' p' fold hp' hu'
  exact ⟨msg, irritants, by rw [readM_bind hm, hf]⟩

/-- A function that returns raises no error. -/
theorem ReadsAnyCase.not_raises (h : ReadsAnyCase m bs v es) : ¬ RaisesReadError m bs := by
  intro h'
  obtain ⟨p', hm, -⟩ := h (Port.openOn .file bs) false (Port.openOn_ready _ _) rfl
  obtain ⟨msg, irritants, he⟩ := h' (Port.openOn .file bs) false (Port.openOn_ready _ _) rfl
  rw [he] at hm
  cases hm

end NaviScheme
