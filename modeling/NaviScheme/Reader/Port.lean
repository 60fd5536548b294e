import NaviScheme.Lib.Except
import NaviScheme.Reader.Datum

/-!
# Ports that are read

The functions of `port.c` through which the reader sees its text, a code point at a time.
A port holds the bytes that it has not delivered yet; one that reads a file decodes them
itself (`read_u8`), one that reads a string is given code points (`read_char`). A code point
that has been peeked at waits in the buffer.

What a port will still deliver is `NaviScheme.Port.unread`. A function of the reader is
described by the text that it takes from the port (`NaviScheme.Reads`): the triples compose,
so that the reader's correctness can be read off its text.
-/

namespace NaviScheme

/-- Where a port takes its text from. -/
inductive PortKind
  /-- `navi_make_file_input_port` -/
  | file
  /-- `navi_open_input_string` -/
  | string
  deriving DecidableEq, Repr

/-- `struct navi_port`, of a port that is read. -/
structure Port where
  /-- the functions of the port -/
  kind : PortKind
  /-- the bytes that are still to be taken from the file or the string -/
  rest : List UInt8
  /-- `buffer` -/
  buffer : ℤ
  /-- `GOT_EOF` -/
  gotEof : Bool
  /-- `BUFFER_FULL` -/
  bufferFull : Bool
  /-- `INPUT_CLOSED` -/
  inputClosed : Bool
  /-- `FOLD_CASE` -/
  foldCase : Bool
  deriving Repr

/-- A function that reads from a port. -/
abbrev ReadM := StateT Port (Except ReadExn)

/-- `check_can_read`; the port is an input port. -/
def checkCanRead (port : Port) : Except ReadExn Unit :=
  if port.inputClosed then .error (internalError "attempted to read from closed port" [])
  else .ok ()

/-- `len_tab` -/
def lenTab (b : UInt8) : ℤ :=
  if b < 0x80 then 1
  else if b < 0xC0 then 0
  else if b < 0xE0 then 2
  else if b < 0xF0 then 3
  else if b < 0xF5 then 4
  else -1

/-- `utf8_char_size` -/
def utf8CharSize (b : UInt8) : ℤ := lenTab b

/-- `string_read`: the next code point of a string, and the bytes that follow it. -/
def stringRead : List UInt8 → Except ReadExn (ℤ × List UInt8)
  | [] => .ok (eofValue, [])
  | bs =>
    match Utf8.next? bs with
    | some (c, rest) => .ok (c.toNat, rest)
    | none => .error (.fault .assertion)

/-- What `navi_port_buffer_char` does with `read_u8`: the same of a file. -/
def decodeUtf8 : List UInt8 → Except ReadExn (ℤ × List UInt8)
  | [] => .ok (eofValue, [])
  | b :: bs =>
    if utf8CharSize b ≤ 0 then .error (naviUtf8Error "invalid lead byte")
    else if (bs.length : ℤ) + 1 < utf8CharSize b then
      .error (naviUtf8Error "unexpected end of file")
    else
      match Utf8.next? ((b :: bs).take (utf8CharSize b).toNat) with
      | some (c, _) => .ok (c.toNat, (b :: bs).drop (utf8CharSize b).toNat)
      | none => .error (naviUtf8Error "invalid byte sequence")

/-- `navi_port_buffer_char` -/
def naviPortBufferChar : ReadM Unit := fun port => do
  let (c, rest) ← match port.kind with
    | .string => stringRead port.rest
    | .file => decodeUtf8 port.rest
  return ((), { port with buffer := c, rest := rest, gotEof := port.gotEof || c == eofValue })

/-- `navi_port_read_char` -/
def naviPortReadChar : ReadM Datum := fun port => do
  checkCanRead port
  if port.gotEof then return (.eof, port)
  else if port.bufferFull then return (.char port.buffer, { port with bufferFull := false })
  else
    let ((), port) ← naviPortBufferChar port
    if port.gotEof then return (.eof, port) else return (.char port.buffer, port)

/-- `navi_port_peek_char` -/
def naviPortPeekChar : ReadM Datum := fun port => do
  checkCanRead port
  if port.gotEof then return (.eof, port)
  else if port.bufferFull then return (.char port.buffer, port)
  else
    let ((), port) ← naviPortBufferChar port
    return (.char port.buffer, { port with bufferFull := true })

/-- `check_can_read_u8`; a port on a string has no `read_u8`. -/
def checkCanReadU8 (port : Port) : Except ReadExn Unit := do
  checkCanRead port
  if port.kind = .string then .error (internalError "port doesn't support binary input" [])
  else .ok ()

/-- `stdio_read`: the next byte of a file, and the bytes that follow it. -/
def stdioRead : List UInt8 → ℤ × List UInt8
  | [] => (eofValue, [])
  | b :: bs => (b.toNat, bs)

/-- `navi_port_buffer_byte` -/
def naviPortBufferByte (port : Port) : Port :=
  { port with buffer := (stdioRead port.rest).1, rest := (stdioRead port.rest).2 }

/-- `navi_port_peek_c_byte` -/
def naviPortPeekCByte : ReadM ℤ := fun port => do
  checkCanReadU8 port
  if port.gotEof then return (eofValue, port)
  else if port.bufferFull then return (port.buffer, port)
  else
    let port := naviPortBufferByte port
    return (port.buffer, { port with bufferFull := true })

/-- `navi_port_peek_byte` -/
def naviPortPeekByte : ReadM Datum := do
  let b ← naviPortPeekCByte
  if b = eofValue then return .eof else return naviMakeFixnum b

/-- `navi_port_read_c_byte` -/
def naviPortReadCByte : ReadM ℤ := fun port => do
  checkCanReadU8 port
  if port.gotEof then return (eofValue, port)
  else if port.bufferFull then return (port.buffer, { port with bufferFull := false })
  else
    let port := naviPortBufferByte port
    return (port.buffer, port)

/-- `navi_port_read_byte` -/
def naviPortReadByte : ReadM Datum := do
  let b ← naviPortReadCByte
  if b = eofValue then do
    modify fun port => { port with gotEof := true }
    return .eof
  else return naviMakeFixnum b

/-- `navi_port_is_fold_case` -/
def naviPortIsFoldCase : ReadM Bool := do return (← get).foldCase

/-- `navi_port_set_fold_case` -/
def naviPortFoldCase (fold : Bool) : ReadM Unit :=
  modify fun port => { port with foldCase := fold }

/-! ### What a port still delivers -/

namespace Port

/-- The bytes that a port has not delivered. -/
def unread (p : Port) : List UInt8 :=
  if p.gotEof then []
  else if p.bufferFull then String.utf8EncodeChar (Char.ofNat p.buffer.toNat) ++ p.rest
  else p.rest

/-- A port that can be read, with case folding off. -/
structure Ready (p : Port) : Prop where
  isOpen : p.inputClosed = false
  noFold : p.foldCase = false
  /-- What is in the buffer is a code point. -/
  buffered : p.gotEof = false → p.bufferFull = true → ∃ c : Char, p.buffer = c.toNat

/-- A port that has just been opened. -/
def openOn (kind : PortKind) (bs : List UInt8) : Port := ⟨kind, bs, 0, false, false, false, false⟩

theorem openOn_ready (kind : PortKind) (bs : List UInt8) : (openOn kind bs).Ready :=
  ⟨rfl, rfl, fun _ h => by simp [openOn] at h⟩

@[simp] theorem unread_openOn (kind : PortKind) (bs : List UInt8) :
    (openOn kind bs).unread = bs := rfl

/-- What is waiting in the buffer is the first code point of the text. -/
theorem Ready.unread_eq {p : Port} (hp : p.Ready) (he : p.gotEof = false)
    (hb : p.bufferFull = true) :
    ∃ c : Char, p.buffer = c.toNat ∧ p.unread = String.utf8EncodeChar c ++ p.rest := by
  obtain ⟨c, hc⟩ := hp.buffered he hb
  refine ⟨c, hc, ?_⟩
  simp [unread, he, hb, hc]

end Port

variable {α β : Type}

theorem readM_bind {m : ReadM α} {f : α → ReadM β} {p p' : Port} {v : α}
    (h : m p = .ok (v, p')) : (m >>= f) p = f v p' := by
  change (m p >>= fun x => f x.1 x.2) = _
  rw [h]
  rfl

theorem readM_bind_error {m : ReadM α} {f : α → ReadM β} {p : Port} {e : ReadExn}
    (h : m p = .error e) : (m >>= f) p = .error e := by
  change (m p >>= fun x => f x.1 x.2) = _
  rw [h]
  rfl

theorem readM_lift_ok {x : Except ReadExn α} {v : α} (h : x = .ok v) (p : Port) :
    (liftM x : ReadM α) p = .ok (v, p) := by
  rw [h]
  rfl

theorem readM_lift_error {x : Except ReadExn α} {e : ReadExn} (h : x = .error e) (p : Port) :
    (liftM x : ReadM α) p = .error e := by
  rw [h]
  rfl

/-- A function takes the text `bs` to the text `ds` and returns `v`. -/
def Reads (m : ReadM α) (bs : List UInt8) (v : α) (ds : List UInt8) : Prop :=
  ∀ p : Port, p.Ready → p.unread = bs →
    ∃ p' : Port, m p = .ok (v, p') ∧ p'.Ready ∧ p'.unread = ds

namespace Reads

theorem ret (v : α) (bs : List UInt8) : Reads (pure v) bs v bs :=
  fun p hp hu => ⟨p, rfl, hp, hu⟩

theorem bind {m : ReadM α} {f : α → ReadM β} {bs ds es : List UInt8} {v : α} {w : β}
    (h : Reads m bs v ds) (h' : Reads (f v) ds w es) : Reads (m >>= f) bs w es := by
  intro p hp hu
  obtain ⟨p', hm, hp', hu'⟩ := h p hp hu
  obtain ⟨p'', hf, hp'', hu''⟩ := h' p' hp' hu'
  refine ⟨p'', ?_, hp'', hu''⟩
  change (m p >>= fun x => f x.1 x.2) = _
  rw [hm]
  exact hf

/-- A function that is described by a triple does nothing else. -/
theorem eq_of_ok {m : ReadM α} {bs ds : List UInt8} {v w : α} (h : Reads m bs v ds) {p p' : Port}
    (hp : p.Ready) (hu : p.unread = bs) (hm : m p = .ok (w, p')) :
    w = v ∧ p'.Ready ∧ p'.unread = ds := by
  obtain ⟨p'', hm', hp'', hu''⟩ := h p hp hu
  rw [hm'] at hm
  cases hm
  exact ⟨rfl, hp'', hu''⟩

/-- When a sequence returns, its first function has done what its triple says. -/
theorem ok_of_bind {m : ReadM α} {f : α → ReadM β} {bs ds : List UInt8} {v : α} {w : β}
    (h : Reads m bs v ds) {p p'' : Port} (hp : p.Ready) (hu : p.unread = bs)
    (hm : (m >>= f) p = .ok (w, p'')) :
    ∃ p' : Port, p'.Ready ∧ p'.unread = ds ∧ f v p' = .ok (w, p'') := by
  obtain ⟨p', hok, hp', hu'⟩ := h p hp hu
  refine ⟨p', hp', hu', ?_⟩
  change (m p >>= fun x => f x.1 x.2) = _ at hm
  rwa [hok] at hm

end Reads

/-- A function does not return on the text `bs`. -/
def Fails (m : ReadM α) (bs : List UInt8) : Prop :=
  ∀ p : Port, p.Ready → p.unread = bs → ∃ e, m p = .error e

theorem fails_throw (e : ReadExn) (bs : List UInt8) : Fails (throw e : ReadM α) bs :=
  fun _ _ _ => ⟨e, rfl⟩

theorem Fails.bind {m : ReadM α} {f : α → ReadM β} {bs : List UInt8} (h : Fails m bs) :
    Fails (m >>= f) bs := by
  intro p hp hu
  obtain ⟨e, he⟩ := h p hp hu
  refine ⟨e, ?_⟩
  change (m p >>= fun x => f x.1 x.2) = _
  rw [he]
  rfl

theorem Reads.fails {m : ReadM α} {f : α → ReadM β} {bs ds : List UInt8} {v : α}
    (h : Reads m bs v ds) (h' : Fails (f v) ds) : Fails (m >>= f) bs := by
  intro p hp hu
  obtain ⟨p', hm, hp', hu'⟩ := h p hp hu
  obtain ⟨e, he⟩ := h' p' hp' hu'
  refine ⟨e, ?_⟩
  change (m p >>= fun x => f x.1 x.2) = _
  rw [hm]
  exact he

/-! ### Reading one code point -/

/-- The first byte of a code point says how many bytes it has. -/
theorem lenTab_head (c : Char) (bs : List UInt8) :
    ∃ b es, String.utf8EncodeChar c ++ bs = b :: es ∧ lenTab b = c.utf8Size := by
  have hmax : c.val.toNat < 0x110000 := by
    rcases c.valid with h | ⟨-, h⟩
    · exact lt_trans h (by decide)
    · exact h
  have hsize : c.utf8Size = (String.utf8EncodeChar c).length := by simp
  rw [hsize]
  unfold String.utf8EncodeChar
  dsimp only
  split
  · rename_i h
    refine ⟨_, _, rfl, ?_⟩
    simp only [lenTab, UInt8.lt_iff_toNat_lt, UInt8.toNat_ofNat', UInt8.reduceToNat]
    rw [if_pos (by omega)]
    rfl
  · split
    · rename_i h h'
      refine ⟨_, _, rfl, ?_⟩
      simp only [lenTab, UInt8.lt_iff_toNat_lt, UInt8.toNat_ofNat', UInt8.reduceToNat]
      rw [if_neg (by omega), if_neg (by omega), if_pos (by omega)]
      rfl
    · split
      · rename_i h h' h''
        refine ⟨_, _, rfl, ?_⟩
        simp only [lenTab, UInt8.lt_iff_toNat_lt, UInt8.toNat_ofNat', UInt8.reduceToNat]
        rw [if_neg (by omega), if_neg (by omega), if_neg (by omega), if_pos (by omega)]
        rfl
      · rename_i h h' h''
        refine ⟨_, _, rfl, ?_⟩
        simp only [lenTab, UInt8.lt_iff_toNat_lt, UInt8.toNat_ofNat', UInt8.reduceToNat]
        rw [if_neg (by omega), if_neg (by omega), if_neg (by omega), if_neg (by omega),
          if_pos (by omega)]
        rfl

theorem stringRead_append (c : Char) (bs : List UInt8) :
    stringRead (String.utf8EncodeChar c ++ bs) = .ok (c.toNat, bs) := by
  obtain ⟨b, es, hbs, -⟩ := lenTab_head c bs
  rw [stringRead, Utf8.next?_append]
  rw [hbs]
  exact List.cons_ne_nil b es

theorem decodeUtf8_append (c : Char) (bs : List UInt8) :
    decodeUtf8 (String.utf8EncodeChar c ++ bs) = .ok (c.toNat, bs) := by
  obtain ⟨b, es, hbs, hb⟩ := lenTab_head c bs
  have hpos := c.utf8Size_pos
  have htake : (String.utf8EncodeChar c ++ bs).take c.utf8Size = String.utf8EncodeChar c ++ [] := by
    rw [← String.length_utf8EncodeChar, List.take_left, List.append_nil]
  have hdrop : (String.utf8EncodeChar c ++ bs).drop c.utf8Size = bs := by
    rw [← String.length_utf8EncodeChar]
    exact List.drop_left
  have hlen : ((es.length : ℤ) + 1) = c.utf8Size + bs.length := by
    have := congrArg List.length hbs
    simp only [List.length_append, String.length_utf8EncodeChar, List.length_cons] at this
    omega
  rw [hbs, decodeUtf8, utf8CharSize, hb, if_neg (by omega), if_neg (by omega), ← hbs,
    Int.toNat_natCast, htake, Utf8.next?_append, hdrop]

theorem code_ne_eofValue (c : Char) : (c.toNat : ℤ) ≠ eofValue := by
  simp only [eofValue]
  omega

theorem naviPortBufferChar_cons {p : Port} {c : Char} {bs : List UInt8}
    (h : p.rest = String.utf8EncodeChar c ++ bs) :
    naviPortBufferChar p = .ok ((), { p with buffer := c.toNat, rest := bs }) := by
  have hc : ((c.toNat : ℤ) == eofValue) = false := by
    simp only [eofValue, beq_eq_false_iff_ne]
    omega
  unfold naviPortBufferChar
  cases hk : p.kind with
  | string => simp [h, stringRead_append, hc]
  | file => simp [h, decodeUtf8_append, hc]

theorem naviPortBufferChar_nil {p : Port} (h : p.rest = []) :
    naviPortBufferChar p = .ok ((), { p with buffer := eofValue, rest := [], gotEof := true }) := by
  unfold naviPortBufferChar
  cases hk : p.kind with
  | string => simp [h, stringRead]
  | file => simp [h, decodeUtf8]

theorem checkCanRead_ready {p : Port} (hp : p.Ready) : checkCanRead p = .ok () := by
  simp [checkCanRead, hp.isOpen]

/-- Where a port stands that delivers a text. -/
theorem Port.Ready.cases {p : Port} (hp : p.Ready) :
    p.gotEof = true ∧ p.unread = [] ∨
      (∃ c : Char, p.gotEof = false ∧ p.bufferFull = true ∧ p.buffer = c.toNat ∧
        p.unread = String.utf8EncodeChar c ++ p.rest) ∨
      (p.gotEof = false ∧ p.bufferFull = false ∧ p.unread = p.rest) := by
  rcases he : p.gotEof with _ | _
  · rcases hb : p.bufferFull with _ | _
    · exact Or.inr (Or.inr ⟨rfl, rfl, by simp [Port.unread, he, hb]⟩)
    · obtain ⟨c, hc, hu⟩ := hp.unread_eq he hb
      exact Or.inr (Or.inl ⟨c, rfl, rfl, hc, hu⟩)
  · exact Or.inl ⟨rfl, by simp [Port.unread, he]⟩

theorem append_ne_nil (c : Char) (bs : List UInt8) : String.utf8EncodeChar c ++ bs ≠ [] := by
  obtain ⟨b, es, hbs, -⟩ := lenTab_head c bs
  rw [hbs]
  exact List.cons_ne_nil b es

theorem naviPortReadChar_cons {p : Port} {c : Char} {bs : List UInt8} (hp : p.Ready)
    (hu : p.unread = String.utf8EncodeChar c ++ bs) :
    ∃ p', naviPortReadChar p = .ok (.char c.toNat, p') ∧ p'.Ready ∧ p'.unread = bs ∧
      p'.gotEof = false := by
  unfold naviPortReadChar
  rw [checkCanRead_ready hp, ok_bind]
  rcases hp.cases with ⟨-, hn⟩ | ⟨c', he, hb, hc, hr⟩ | ⟨he, hb, hr⟩
  · exact absurd (hu.symm.trans hn) (append_ne_nil c bs)
  · obtain ⟨rfl, rfl⟩ := Utf8.utf8EncodeChar_append_inj (hu.symm.trans hr)
    simp only [he, hb, hc, if_true, pure_eq_ok]
    exact ⟨_, rfl, ⟨hp.isOpen, hp.noFold, fun _ h => nomatch h⟩, by simp [Port.unread], rfl⟩
  · rw [hr] at hu
    simp only [he, hb, naviPortBufferChar_cons hu, ok_bind, pure_eq_ok]
    exact ⟨_, rfl, ⟨hp.isOpen, hp.noFold, fun _ h => nomatch h⟩, by simp [Port.unread], rfl⟩

theorem reads_naviPortReadChar (c : Char) (bs : List UInt8) :
    Reads naviPortReadChar (String.utf8EncodeChar c ++ bs) (.char c.toNat) bs := by
  intro p hp hu
  obtain ⟨p', hrun, hp', hu', -⟩ := naviPortReadChar_cons hp hu
  exact ⟨p', hrun, hp', hu'⟩

theorem naviPortReadChar_nil {p : Port} (hp : p.Ready) (hu : p.unread = []) :
    ∃ p', naviPortReadChar p = .ok (.eof, p') ∧ p'.Ready ∧ p'.unread = [] ∧
      p'.gotEof = true := by
  unfold naviPortReadChar
  rw [checkCanRead_ready hp, ok_bind]
  rcases hp.cases with ⟨he, -⟩ | ⟨c', he, hb, hc, hr⟩ | ⟨he, hb, hr⟩
  · simp only [he, if_true, pure_eq_ok]
    exact ⟨p, rfl, hp, hu, he⟩
  · exact absurd (hr.symm.trans hu) (append_ne_nil c' p.rest)
  · rw [hr] at hu
    simp only [he, hb, naviPortBufferChar_nil hu, ok_bind, pure_eq_ok]
    exact ⟨_, rfl, ⟨hp.isOpen, hp.noFold, fun h => nomatch h⟩, rfl, rfl⟩

theorem reads_naviPortReadChar_nil : Reads naviPortReadChar [] .eof [] := by
  intro p hp hu
  obtain ⟨p', hrun, hp', hu', -⟩ := naviPortReadChar_nil hp hu
  exact ⟨p', hrun, hp', hu'⟩

theorem naviPortPeekChar_cons {p : Port} {c : Char} {bs : List UInt8} (hp : p.Ready)
    (hu : p.unread = String.utf8EncodeChar c ++ bs) :
    ∃ p', naviPortPeekChar p = .ok (.char c.toNat, p') ∧ p'.Ready ∧
      p'.unread = String.utf8EncodeChar c ++ bs ∧ p'.gotEof = false := by
  unfold naviPortPeekChar
  rw [checkCanRead_ready hp, ok_bind]
  rcases hp.cases with ⟨-, hn⟩ | ⟨c', he, hb, hc, hr⟩ | ⟨he, hb, hr⟩
  · exact absurd (hu.symm.trans hn) (append_ne_nil c bs)
  · obtain ⟨rfl, -⟩ := Utf8.utf8EncodeChar_append_inj (hu.symm.trans hr)
    simp only [he, hb, hc, if_true, pure_eq_ok]
    exact ⟨p, rfl, hp, hu, he⟩
  · rw [hr] at hu
    simp only [he, hb, naviPortBufferChar_cons hu, ok_bind, pure_eq_ok]
    exact ⟨_, rfl, ⟨hp.isOpen, hp.noFold, fun _ _ => ⟨c, rfl⟩⟩, by simp [Port.unread], rfl⟩

theorem reads_naviPortPeekChar (c : Char) (bs : List UInt8) :
    Reads naviPortPeekChar (String.utf8EncodeChar c ++ bs) (.char c.toNat)
      (String.utf8EncodeChar c ++ bs) := by
  intro p hp hu
  obtain ⟨p', hrun, hp', hu', -⟩ := naviPortPeekChar_cons hp hu
  exact ⟨p', hrun, hp', hu'⟩

/-- At the end of the text, what is peeked at is the end-of-file object once the end has been
met, and a character before. -/
theorem naviPortPeekChar_end {p : Port} (hp : p.Ready) (hu : p.unread = []) :
    ∃ p', naviPortPeekChar p = .ok (if p.gotEof then .eof else .char eofValue, p') ∧
      p'.Ready ∧ p'.unread = [] ∧ p'.gotEof = true := by
  unfold naviPortPeekChar
  rw [checkCanRead_ready hp, ok_bind]
  rcases hp.cases with ⟨he, -⟩ | ⟨c', he, hb, hc, hr⟩ | ⟨he, hb, hr⟩
  · simp only [he, if_true, pure_eq_ok]
    exact ⟨p, rfl, hp, hu, he⟩
  · exact absurd (hr.symm.trans hu) (append_ne_nil c' p.rest)
  · rw [hr] at hu
    simp only [he, hb, naviPortBufferChar_nil hu, ok_bind, pure_eq_ok]
    exact ⟨_, rfl, ⟨hp.isOpen, hp.noFold, fun h => nomatch h⟩, rfl, rfl⟩

theorem naviPortPeekChar_nil {p : Port} (hp : p.Ready) (hu : p.unread = []) :
    ∃ o p', naviPortPeekChar p = .ok (o, p') ∧ (o = .eof ∨ o = .char eofValue) ∧
      p'.Ready ∧ p'.unread = [] := by
  obtain ⟨p', hrun, hp', hu', -⟩ := naviPortPeekChar_end hp hu
  refine ⟨_, p', hrun, ?_, hp', hu'⟩
  split
  · exact Or.inl rfl
  · exact Or.inr rfl

end NaviScheme
