import Mathlib.Data.List.Count
import NaviScheme.Reader.Port

/-!
# Looking ahead

A port has one buffer for what has been peeked at, and a flag that says that it is full.
Two things go wrong with it.

* `peek-char` at the end of the text puts `EOF` into the buffer and returns it as a character;
  only the flag that it sets on the way makes the next call return the end-of-file object
  (`NaviScheme.delivers_iff`).
* `peek-u8` leaves a byte in the buffer and `peek-char` a code point, and a read takes what it
  finds for a unit of its own kind. Nothing is lost as long as a read that finds the buffer
  full finds its own kind of unit there, or an ASCII one
  (`NaviScheme.Interleaved.delivered_isPrefix`).
-/

namespace NaviScheme

/-- `read-char` and `peek-char` -/
inductive CharOp
  | readChar
  | peekChar
  deriving DecidableEq, Repr

/-- The procedure, called on a port. -/
def CharOp.run : CharOp → ReadM Datum
  | .readChar => naviPortReadChar
  | .peekChar => naviPortPeekChar

/-! ### Characters alone -/

/-- The characters of a source in order, followed by the end-of-file object forever. -/
def sourceAt (cs : List Char) (n : ℕ) : Datum := (cs[n]?).elim .eof fun c => .char c.toNat

/-- What the operations ought to return when `n` characters have been read: a `read-char`
returns the character that comes next, and so does a `peek-char`, which leaves it there. -/
def due (cs : List Char) : ℕ → List CharOp → List Datum
  | _, [] => []
  | n, .readChar :: ops => sourceAt cs n :: due cs (n + 1) ops
  | n, .peekChar :: ops => sourceAt cs n :: due cs n ops

/-- The operations return on a port what they ought to return. -/
def DeliversFrom (cs : List Char) (n : ℕ) (ops : List CharOp) (p : Port) : Prop :=
  ∃ p', ops.mapM CharOp.run p = .ok (due cs n ops, p')

/-- The operations return on a port that has just been opened what they ought to return. -/
def Delivers (kind : PortKind) (cs : List Char) (ops : List CharOp) : Prop :=
  DeliversFrom cs 0 ops (Port.openOn kind (Utf8.encode cs))

/-- A port from which `n` characters have been read. The end has been met only by a read that
came too late. -/
structure Port.After (cs : List Char) (n : ℕ) (p : Port) : Prop where
  ready : p.Ready
  unread : p.unread = Utf8.encode (cs.drop n)
  gotEof : p.gotEof = true ↔ cs.length < n

theorem Port.openOn_after (kind : PortKind) (cs : List Char) :
    (Port.openOn kind (Utf8.encode cs)).After cs 0 :=
  ⟨openOn_ready _ _, rfl, by simp [Port.openOn]⟩

/-- What an operation returns when it comes first. -/
theorem mapM_run_cons {op : CharOp} {ops : List CharOp} {p p' : Port} {d : Datum}
    (h : op.run p = .ok (d, p')) :
    (op :: ops).mapM CharOp.run p =
      (ops.mapM CharOp.run p' >>= fun r => .ok (d :: r.1, r.2)) := by
  rw [List.mapM_cons]
  change (op.run p >>= fun x => (ops.mapM CharOp.run >>= fun ds => pure (x.1 :: ds)) x.2) = _
  rw [h]
  rfl

/-- The operations that follow decide, once the first one has returned what it ought to. -/
theorem deliversFrom_cons {cs : List Char} {n m : ℕ} {op : CharOp} {ops : List CharOp}
    {p p' : Port} {d : Datum} (h : op.run p = .ok (d, p'))
    (hdue : due cs n (op :: ops) = d :: due cs m ops) :
    DeliversFrom cs n (op :: ops) p ↔ DeliversFrom cs m ops p' := by
  unfold DeliversFrom
  rw [mapM_run_cons h, hdue]
  constructor
  · rintro ⟨p'', hrun⟩
    obtain ⟨⟨ds, q⟩, hds, hq⟩ := bind_eq_ok hrun
    cases hq
    exact ⟨q, hds⟩
  · rintro ⟨p'', hrun⟩
    exact ⟨p'', by rw [hrun]; rfl⟩

theorem drop_eq_cons {cs : List Char} {n : ℕ} (h : n < cs.length) :
    cs.drop n = cs[n] :: cs.drop (n + 1) :=
  List.drop_eq_getElem_cons h

theorem sourceAt_of_lt {cs : List Char} {n : ℕ} (h : n < cs.length) :
    sourceAt cs n = .char cs[n].toNat := by
  simp [sourceAt, h]

theorem sourceAt_of_le {cs : List Char} {n : ℕ} (h : cs.length ≤ n) : sourceAt cs n = .eof := by
  simp [sourceAt, h]

theorem unread_cons {cs : List Char} {n : ℕ} {p : Port} (hp : p.After cs n) (h : n < cs.length) :
    p.unread = String.utf8EncodeChar cs[n] ++ Utf8.encode (cs.drop (n + 1)) := by
  rw [hp.unread, drop_eq_cons h, Utf8.encode_cons]

theorem unread_nil {cs : List Char} {n : ℕ} {p : Port} (hp : p.After cs n) (h : cs.length ≤ n) :
    p.unread = [] := by
  rw [hp.unread, List.drop_eq_nil_of_le h, Utf8.encode_nil]

/-- A `read-char` returns the character that comes next. -/
theorem run_readChar_after {cs : List Char} {n : ℕ} {p : Port} (hp : p.After cs n) :
    ∃ p', CharOp.readChar.run p = .ok (sourceAt cs n, p') ∧ p'.After cs (n + 1) := by
  rcases Nat.lt_or_ge n cs.length with h | h
  · obtain ⟨p', hrun, hp', hu', he⟩ := naviPortReadChar_cons hp.ready (unread_cons hp h)
    refine ⟨p', by rw [CharOp.run, hrun, sourceAt_of_lt h], hp', hu', ?_⟩
    simp only [he, Bool.false_eq_true, false_iff]
    omega
  · obtain ⟨p', hrun, hp', hu', he⟩ := naviPortReadChar_nil hp.ready (unread_nil hp h)
    refine ⟨p', by rw [CharOp.run, hrun, sourceAt_of_le h], hp', ?_, ?_⟩
    · rw [hu', List.drop_eq_nil_of_le (by omega), Utf8.encode_nil]
    · simp only [he, true_iff]
      omega

/-- A `peek-char` returns the character that comes next and leaves it there, unless it is the
first to meet the end. -/
theorem run_peekChar_after {cs : List Char} {n : ℕ} {p : Port} (hp : p.After cs n)
    (hn : n ≠ cs.length) :
    ∃ p', CharOp.peekChar.run p = .ok (sourceAt cs n, p') ∧ p'.After cs n := by
  rcases Nat.lt_or_ge n cs.length with h | h
  · obtain ⟨p', hrun, hp', hu', he⟩ := naviPortPeekChar_cons hp.ready (unread_cons hp h)
    refine ⟨p', by rw [CharOp.run, hrun, sourceAt_of_lt h], hp', ?_, ?_⟩
    · rw [hu', drop_eq_cons h, Utf8.encode_cons]
    simp only [he, Bool.false_eq_true, false_iff]
    omega
  · have hlt : cs.length < n := by omega
    obtain ⟨p', hrun, hp', hu', he⟩ := naviPortPeekChar_end hp.ready (unread_nil hp h)
    rw [hp.gotEof.2 hlt] at hrun
    refine ⟨p', by rw [CharOp.run, hrun, sourceAt_of_le h]; rfl, hp', ?_, ?_⟩
    · rw [hu', List.drop_eq_nil_of_le h, Utf8.encode_nil]
    · simp only [he, hlt]

/-- The `peek-char` that is the first to meet the end returns a character. -/
theorem run_peekChar_atEnd {cs : List Char} {p : Port} (hp : p.After cs cs.length) :
    ∃ p', CharOp.peekChar.run p = .ok (.char eofValue, p') := by
  obtain ⟨p', hrun, -⟩ := naviPortPeekChar_end hp.ready (unread_nil hp (le_refl _))
  have he : p.gotEof = false := by
    rw [Bool.eq_false_iff]
    intro he
    exact absurd (hp.gotEof.1 he) (lt_irrefl _)
  rw [he] at hrun
  exact ⟨p', hrun⟩

/-- No `peek-char` comes when all characters have been read and no `read-char` has met the end. -/
def NoPeekAtEnd (cs : List Char) (n : ℕ) (ops : List CharOp) : Prop :=
  ∀ before after, ops = before ++ .peekChar :: after → n + before.count .readChar ≠ cs.length

theorem noPeekAtEnd_nil (cs : List Char) (n : ℕ) : NoPeekAtEnd cs n [] := by
  intro before after h
  simp at h

theorem noPeekAtEnd_readChar {cs : List Char} {n : ℕ} {ops : List CharOp} :
    NoPeekAtEnd cs n (.readChar :: ops) ↔ NoPeekAtEnd cs (n + 1) ops := by
  constructor
  · intro h before after hops
    have := h (.readChar :: before) after (by rw [hops]; rfl)
    rw [List.count_cons_self] at this
    omega
  · intro h before after hops
    cases before with
    | nil => simp at hops
    | cons op before =>
      obtain ⟨rfl, hops'⟩ := List.cons_eq_cons.1 hops
      have := h before after hops'
      rw [List.count_cons_self]
      omega

theorem noPeekAtEnd_peekChar {cs : List Char} {n : ℕ} {ops : List CharOp} :
    NoPeekAtEnd cs n (.peekChar :: ops) ↔ n ≠ cs.length ∧ NoPeekAtEnd cs n ops := by
  constructor
  · intro h
    refine ⟨h [] ops rfl, fun before after hops => ?_⟩
    have := h (.peekChar :: before) after (by rw [hops]; rfl)
    rwa [List.count_cons_of_ne (by decide)] at this
  · rintro ⟨hn, h⟩ before after hops
    cases before with
    | nil => exact hn
    | cons op before =>
      obtain ⟨rfl, hops'⟩ := List.cons_eq_cons.1 hops
      rw [List.count_cons_of_ne (by decide)]
      exact h before after hops'

/-- One step of the interleaving after another, from any port that has been read from. -/
theorem deliversFrom_iff {cs : List Char} (ops : List CharOp) :
    ∀ {n : ℕ} {p : Port}, p.After cs n → (DeliversFrom cs n ops p ↔ NoPeekAtEnd cs n ops) := by
  induction ops with
  | nil =>
    intro n p hp
    exact ⟨fun _ => noPeekAtEnd_nil cs n, fun _ => ⟨p, rfl⟩⟩
  | cons op ops ih =>
    intro n p hp
    cases op with
    | readChar =>
      obtain ⟨p', hrun, hp'⟩ := run_readChar_after hp
      rw [deliversFrom_cons hrun rfl, noPeekAtEnd_readChar]
      exact ih hp'
    | peekChar =>
      rw [noPeekAtEnd_peekChar]
      by_cases hn : n = cs.length
      · subst hn
        obtain ⟨p', hrun⟩ := run_peekChar_atEnd hp
        refine ⟨fun ⟨p'', h⟩ => ?_, fun h => absurd rfl h.1⟩
        -- the first result is a character, and the end-of-file object is due
        rw [mapM_run_cons hrun, due, sourceAt_of_le (le_refl _)] at h
        obtain ⟨⟨ds, q⟩, -, hq⟩ := bind_eq_ok h
        cases hq
      · obtain ⟨p', hrun, hp'⟩ := run_peekChar_after hp hn
        rw [deliversFrom_cons hrun rfl, ih hp']
        exact ⟨fun h => ⟨hn, h⟩, fun h => h.2⟩

/-- **Reading and peeking at the characters of a source agree, unless a `peek-char` is the
first to meet the end.** -/
theorem delivers_iff (kind : PortKind) (cs : List Char) (ops : List CharOp) :
    Delivers kind cs ops ↔
      ∀ before after, ops = before ++ .peekChar :: after → before.count .readChar ≠ cs.length := by
  have h := deliversFrom_iff ops (Port.openOn_after kind cs)
  rw [NoPeekAtEnd] at h
  simp only [Nat.zero_add] at h
  exact h

/-- A `peek-char` on an empty source returns a character. -/
theorem not_delivers_peekChar : ¬ Delivers .string [] [.peekChar] := by
  rintro ⟨p', h⟩
  cases h

/-! ### Bytes and characters -/

/-- `read-u8`, `peek-u8`, `read-char` and `peek-char` -/
inductive PortOp
  | readU8
  | peekU8
  | text (op : CharOp)
  deriving DecidableEq, Repr

/-- The procedure, called on a port. -/
def PortOp.run : PortOp → ReadM Datum
  | .readU8 => naviPortReadByte
  | .peekU8 => naviPortPeekByte
  | .text op => op.run

/-- What a port holds in its buffer. -/
inductive BufferUnit
  /-- a byte, or what `read_u8` returns at the end of the file -/
  | byte
  /-- a code point -/
  | code
  deriving DecidableEq, Repr

/-- What is in the buffer behind an operation, of which the port itself keeps no record: the
operation that fills the buffer decides. -/
def PortOp.fills (op : PortOp) (port : Port) (held : BufferUnit) : BufferUnit :=
  if port.bufferFull then held
  else match op with
    | .peekU8 => .byte
    | .text .peekChar => .code
    | _ => held

/-- What a result contributes to the bytes that have been delivered, if it is a byte, a
character or the end-of-file object. -/
def PortOp.delivers : PortOp → Datum → Option (List UInt8)
  | .readU8, .fixnum n => if 0 ≤ n ∧ n < 256 then some [toByte n] else none
  | .text .readChar, .char c =>
    if 0 ≤ c ∧ c.toNat.isValidChar then some (String.utf8EncodeChar (Char.ofNat c.toNat)) else none
  | .readU8, .eof | .text .readChar, .eof => some []
  | .peekU8, _ | .text .peekChar, _ => some []
  | _, _ => none

/-- The bytes that the operations of a run have delivered, in order. -/
def delivered : List (PortOp × Datum) → Option (List UInt8)
  | [] => some []
  | (op, d) :: events => do
    let bs ← op.delivers d
    let cs ← delivered events
    return bs ++ cs

/-- The runs of the four operations on a port on a file with the contents `bs` in which no
error is raised and every step meets a condition: the port, what its buffer holds, and the
operations with their results. -/
inductive Interleaved (Meets : PortOp → Port → BufferUnit → Prop) (bs : List UInt8) :
    Port → BufferUnit → List (PortOp × Datum) → Prop
  | start : Interleaved Meets bs (Port.openOn .file bs) .byte []
  | step {p p' : Port} {held : BufferUnit} {events : List (PortOp × Datum)} {op : PortOp}
      {d : Datum} (before : Interleaved Meets bs p held events) (meets : Meets op p held)
      (run : op.run p = .ok (d, p')) :
      Interleaved Meets bs p' (op.fills p held) (events ++ [(op, d)])

/-- A read that finds the buffer full finds a unit of its own kind there, or an ASCII one. -/
def OwnUnit (op : PortOp) (p : Port) (held : BufferUnit) : Prop :=
  p.gotEof = false → p.bufferFull = true → 0 ≤ p.buffer ∧ p.buffer < 128 ∨
    match op with
    | .readU8 => held = .byte
    | .text .readChar => held = .code
    | _ => True

/-- What a port on a file still owes, `held` being what it holds in its buffer. -/
inductive Port.Owes (p : Port) : BufferUnit → List UInt8 → Prop
  | done {held : BufferUnit} (he : p.gotEof = true) : p.Owes held []
  | empty {held : BufferUnit} (he : p.gotEof = false) (hb : p.bufferFull = false) :
    p.Owes held p.rest
  | byte {b : UInt8} (he : p.gotEof = false) (hb : p.bufferFull = true) (h : p.buffer = b.toNat) :
    p.Owes .byte (b :: p.rest)
  | code {c : Char} (he : p.gotEof = false) (hb : p.bufferFull = true) (h : p.buffer = c.toNat) :
    p.Owes .code (String.utf8EncodeChar c ++ p.rest)
  | atEnd (he : p.gotEof = false) (hb : p.bufferFull = true) (h : p.buffer = eofValue)
    (hr : p.rest = []) : p.Owes .byte []

/-- A port on a file that can be read. -/
structure Port.OnFile (p : Port) : Prop where
  kind : p.kind = .file
  isOpen : p.inputClosed = false

theorem checkCanReadU8_onFile {p : Port} (hp : p.OnFile) : checkCanReadU8 p = .ok () := by
  simp [checkCanReadU8, checkCanRead, hp.kind, hp.isOpen]

theorem naviPortReadCByte_done {p : Port} (hp : p.OnFile) (he : p.gotEof = true) :
    naviPortReadCByte p = .ok (eofValue, p) := by
  simp [naviPortReadCByte, checkCanReadU8_onFile hp, he]

theorem naviPortReadCByte_full {p : Port} (hp : p.OnFile) (he : p.gotEof = false)
    (hb : p.bufferFull = true) :
    naviPortReadCByte p = .ok (p.buffer, { p with bufferFull := false }) := by
  simp [naviPortReadCByte, checkCanReadU8_onFile hp, he, hb]

theorem naviPortReadCByte_empty {p : Port} (hp : p.OnFile) (he : p.gotEof = false)
    (hb : p.bufferFull = false) :
    naviPortReadCByte p = .ok ((naviPortBufferByte p).buffer, naviPortBufferByte p) := by
  simp [naviPortReadCByte, checkCanReadU8_onFile hp, he, hb]

/-- What `read-u8` makes of the number that it is given. -/
theorem run_readU8_eof {p p' : Port} (h : naviPortReadCByte p = .ok (eofValue, p')) :
    PortOp.readU8.run p = .ok (.eof, { p' with gotEof := true }) := by
  rw [PortOp.run, naviPortReadByte, readM_bind h]
  rfl

theorem run_readU8_byte {p p' : Port} {b : ℤ} (h : naviPortReadCByte p = .ok (b, p'))
    (hb : b ≠ eofValue) : PortOp.readU8.run p = .ok (naviMakeFixnum b, p') := by
  rw [PortOp.run, naviPortReadByte, readM_bind h, if_neg hb]
  rfl

/-- What `peek-u8` makes of the number that it is given. -/
theorem naviPortPeekByte_ok {p p' : Port} {d : Datum} (h : naviPortPeekByte p = .ok (d, p')) :
    ∃ b, naviPortPeekCByte p = .ok (b, p') := by
  obtain ⟨⟨b, q⟩, hq, hd⟩ := bind_eq_ok (x := naviPortPeekCByte p) h
  refine ⟨b, ?_⟩
  dsimp only at hd
  split at hd
  · cases hd
    exact hq
  · cases hd
    exact hq

theorem delivers_eof (op : PortOp) : op.delivers .eof = some [] := by
  rcases op with - | - | - | - <;> rfl

theorem delivers_byte (b : UInt8) : PortOp.readU8.delivers (naviMakeFixnum b.toNat) = some [b] := by
  have := b.toNat_lt
  rw [naviMakeFixnum, fixnumBits_of_lt (by omega) (by omega)]
  simp only [PortOp.delivers, toByte_toNat]
  rw [if_pos (by omega)]

theorem delivers_code (c : Char) :
    (PortOp.text .readChar).delivers (.char c.toNat) = some (String.utf8EncodeChar c) := by
  have hv : c.toNat.isValidChar := c.valid
  simp [PortOp.delivers, hv]

/-- A byte below 128 is the encoding of a code point. -/
theorem encode_of_lt {c : Char} (h : c.toNat < 128) :
    String.utf8EncodeChar c = [toByte c.toNat] := by
  rw [Utf8.utf8EncodeChar_ascii h, toByte]
  congr 2
  omega

theorem decodeUtf8_eq_ok {bs ds : List UInt8} {n : ℤ} (h : decodeUtf8 bs = .ok (n, ds)) :
    bs = [] ∧ n = eofValue ∧ ds = [] ∨
      ∃ c : Char, n = c.toNat ∧ bs = String.utf8EncodeChar c ++ ds := by
  cases bs with
  | nil =>
    cases h
    exact Or.inl ⟨rfl, rfl, rfl⟩
  | cons b bs =>
    rw [decodeUtf8] at h
    split at h
    · cases h
    · split at h
      · cases h
      · split at h
        · rename_i hlen _ c es hn
          cases h
          refine Or.inr ⟨c, rfl, ?_⟩
          -- the lead byte tells how many bytes the code point has
          have htake := Utf8.eq_of_next? hn
          obtain ⟨b', es', hb', hsize⟩ :=
            lenTab_head c (es ++ (b :: bs).drop (utf8CharSize b).toNat)
          have hall : b :: bs =
              String.utf8EncodeChar c ++ (es ++ (b :: bs).drop (utf8CharSize b).toNat) := by
            rw [← List.append_assoc, ← htake, List.take_append_drop]
          rw [← hall] at hb'
          obtain ⟨rfl, -⟩ := List.cons_eq_cons.1 hb'
          have hs : utf8CharSize b = c.utf8Size := hsize
          have hlen' := congrArg List.length htake
          have hes : es = [] := by
            rw [List.length_take, List.length_append, String.length_utf8EncodeChar,
              List.length_cons, hs] at hlen'
            rw [hs] at hlen
            exact List.eq_nil_of_length_eq_zero (by omega)
          rw [hes, List.nil_append] at hall
          exact hall
        · cases h


/-- One step: what the result contributes is what the port owed first. -/
def Accounts (op : PortOp) (p : Port) (held : BufferUnit) (us : List UInt8) : Prop :=
  ∀ d p', op.run p = .ok (d, p') →
    ∃ bs us', op.delivers d = some bs ∧ us = bs ++ us' ∧ p'.OnFile ∧ p'.Owes (op.fills p held) us'

theorem Accounts.intro {op : PortOp} {p p' : Port} {held : BufferUnit} {bs us' : List UInt8}
    {d : Datum} (hrun : op.run p = .ok (d, p')) (hd : op.delivers d = some bs) (hp : p'.OnFile)
    (hu : p'.Owes (op.fills p held) us') : Accounts op p held (bs ++ us') := by
  intro d' q hq
  rw [hrun] at hq
  cases hq
  exact ⟨bs, us', hd, rfl, hp, hu⟩

theorem byte_ne_eofValue (b : UInt8) : (b.toNat : ℤ) ≠ eofValue := by
  simp only [eofValue]
  omega

theorem accounts_readU8 {p : Port} {held : BufferUnit} {us : List UInt8} (hp : p.OnFile)
    (hu : p.Owes held us) (hown : OwnUnit .readU8 p held) : Accounts .readU8 p held us := by
  cases hu with
  | done he =>
    exact .intro (run_readU8_eof (naviPortReadCByte_done hp he)) (delivers_eof _)
      ⟨hp.kind, hp.isOpen⟩ (.done rfl)
  | empty he hb =>
    have hrun := naviPortReadCByte_empty hp he hb
    rcases hr : p.rest with - | ⟨b, bs⟩
    · rw [naviPortBufferByte, hr] at hrun
      exact .intro (run_readU8_eof hrun) (delivers_eof _) ⟨hp.kind, hp.isOpen⟩ (.done rfl)
    · rw [naviPortBufferByte, hr] at hrun
      exact .intro (run_readU8_byte hrun (byte_ne_eofValue b)) (delivers_byte b)
        ⟨hp.kind, hp.isOpen⟩ (.empty he hb)
  | @byte b he hb h =>
    have hrun := naviPortReadCByte_full hp he hb
    have hne : p.buffer ≠ eofValue := h ▸ byte_ne_eofValue b
    have hd : PortOp.readU8.delivers (naviMakeFixnum p.buffer) = some [b] := h ▸ delivers_byte b
    exact .intro (run_readU8_byte hrun hne) hd ⟨hp.kind, hp.isOpen⟩ (.empty he rfl)
  | @code c he hb h =>
    have hlt : c.toNat < 128 := by
      rcases hown he hb with hlt | hheld
      · omega
      · cases hheld
    have hne : p.buffer ≠ eofValue := h ▸ code_ne_eofValue c
    have hd : PortOp.readU8.delivers (naviMakeFixnum p.buffer) =
        some (String.utf8EncodeChar c) := by
      rw [h, naviMakeFixnum, fixnumBits_of_lt (by omega) (by omega), encode_of_lt hlt]
      simp only [PortOp.delivers]
      rw [if_pos (by omega)]
    exact .intro (run_readU8_byte (naviPortReadCByte_full hp he hb) hne) hd
      ⟨hp.kind, hp.isOpen⟩ (.empty he rfl)
  | atEnd he hb h hr =>
    have hrun := naviPortReadCByte_full hp he hb
    rw [h] at hrun
    exact .intro (run_readU8_eof hrun) (delivers_eof _) ⟨hp.kind, hp.isOpen⟩ (.done rfl)

theorem checkCanRead_onFile {p : Port} (hp : p.OnFile) : checkCanRead p = .ok () := by
  simp [checkCanRead, hp.isOpen]

/-- What `navi_port_buffer_char` leaves. -/
theorem naviPortBufferChar_ok {p p' : Port} (hp : p.OnFile)
    (h : naviPortBufferChar p = .ok ((), p')) :
    p.rest = [] ∧ p' = { p with buffer := eofValue, rest := [], gotEof := true } ∨
      ∃ c : Char, ∃ bs, p.rest = String.utf8EncodeChar c ++ bs ∧
        p' = { p with buffer := c.toNat, rest := bs } := by
  simp only [naviPortBufferChar, hp.kind] at h
  obtain ⟨⟨n, bs⟩, hd, hp'⟩ := bind_eq_ok h
  cases hp'
  rcases decodeUtf8_eq_ok hd with ⟨hr, rfl, rfl⟩ | ⟨c, rfl, hr⟩
  · refine Or.inl ⟨hr, ?_⟩
    simp [hp.kind]
  · have hc : ((c.toNat : ℤ) == eofValue) = false := beq_eq_false_iff_ne.2 (code_ne_eofValue c)
    refine Or.inr ⟨c, bs, hr, ?_⟩
    simp [hp.kind, hc]

/-- `read-char` takes what the buffer holds for a code point. -/
theorem run_readChar_full {p : Port} (hp : p.OnFile) (he : p.gotEof = false)
    (hb : p.bufferFull = true) :
    (PortOp.text .readChar).run p = .ok (.char p.buffer, { p with bufferFull := false }) := by
  simp [PortOp.run, CharOp.run, naviPortReadChar, checkCanRead_onFile hp, he, hb]

theorem accounts_readChar {p : Port} {held : BufferUnit} {us : List UInt8} (hp : p.OnFile)
    (hu : p.Owes held us) (hown : OwnUnit (.text .readChar) p held) :
    Accounts (.text .readChar) p held us := by
  cases hu with
  | done he =>
    have hrun : (PortOp.text .readChar).run p = .ok (.eof, p) := by
      simp [PortOp.run, CharOp.run, naviPortReadChar, checkCanRead_onFile hp, he]
    exact .intro hrun (delivers_eof _) hp (.done he)
  | empty he hb =>
    intro d p' hrun
    simp only [PortOp.run, CharOp.run, naviPortReadChar, checkCanRead_onFile hp, ok_bind, he, hb,
      Bool.false_eq_true, if_false] at hrun
    obtain ⟨⟨⟨⟩, q⟩, hq, hd⟩ := bind_eq_ok hrun
    rcases naviPortBufferChar_ok hp hq with ⟨hr, rfl⟩ | ⟨c, bs, hr, rfl⟩
    · cases hd
      exact ⟨[], [], delivers_eof _, hr, ⟨hp.kind, hp.isOpen⟩, .done rfl⟩
    · simp only [he, Bool.false_eq_true, if_false] at hd
      cases hd
      exact ⟨_, _, delivers_code c, hr, ⟨hp.kind, hp.isOpen⟩, .empty rfl hb⟩
  | @byte b he hb h =>
    have hlt : b.toNat < 128 := by
      rcases hown he hb with hlt | hheld
      · omega
      · cases hheld
    have hc : (Char.ofNat b.toNat).toNat = b.toNat := Utf8.toNat_ofNat_ascii hlt
    have hd : (PortOp.text .readChar).delivers (.char p.buffer) = some [b] := by
      have := delivers_code (Char.ofNat b.toNat)
      rwa [encode_of_lt (by omega), hc, toByte_toNat, ← h] at this
    exact .intro (run_readChar_full hp he hb) hd ⟨hp.kind, hp.isOpen⟩ (.empty he rfl)
  | @code c he hb h =>
    have hd : (PortOp.text .readChar).delivers (.char p.buffer) = some (String.utf8EncodeChar c) :=
      h ▸ delivers_code c
    exact .intro (run_readChar_full hp he hb) hd ⟨hp.kind, hp.isOpen⟩ (.empty he rfl)
  | atEnd he hb h hr =>
    -- the buffer holds `EOF`, which is not a code point
    rcases hown he hb with hlt | hheld
    · rw [h] at hlt
      exact absurd hlt.1 (by decide)
    · cases hheld

theorem fills_full {p : Port} (op : PortOp) (held : BufferUnit) (hb : p.bufferFull = true) :
    op.fills p held = held := by
  simp [PortOp.fills, hb]

/-- A peek that finds the buffer full, or that comes behind the end, changes nothing. -/
theorem Port.Owes.fills {p : Port} {op : PortOp} {held : BufferUnit} {us : List UInt8}
    (hu : p.Owes held us) (h : p.gotEof = true ∨ p.bufferFull = true) :
    p.Owes (op.fills p held) us := by
  rcases h with he | hb
  · cases hu with
    | done => exact .done he
    | empty he' => exact absurd he (by rw [he']; decide)
    | byte he' => exact absurd he (by rw [he']; decide)
    | code he' => exact absurd he (by rw [he']; decide)
    | atEnd he' => exact absurd he (by rw [he']; decide)
  · rw [fills_full op held hb]
    exact hu

/-- With nothing in the buffer, a port owes what is left of the file. -/
theorem Port.Owes.eq_rest {p : Port} {held : BufferUnit} {us : List UInt8} (hu : p.Owes held us)
    (he : p.gotEof = false) (hb : p.bufferFull = false) : us = p.rest := by
  cases hu with
  | empty => rfl
  | done he' => exact absurd he' (by rw [he]; decide)
  | byte _ hb' => exact absurd hb' (by rw [hb]; decide)
  | code _ hb' => exact absurd hb' (by rw [hb]; decide)
  | atEnd _ hb' => exact absurd hb' (by rw [hb]; decide)

theorem accounts_peekU8 {p : Port} {held : BufferUnit} {us : List UInt8} (hp : p.OnFile)
    (hu : p.Owes held us) : Accounts .peekU8 p held us := by
  intro d p' hrun
  obtain ⟨b, hb'⟩ := naviPortPeekByte_ok hrun
  refine ⟨[], us, rfl, rfl, ?_⟩
  simp only [naviPortPeekCByte, checkCanReadU8_onFile hp, ok_bind] at hb'
  rcases he : p.gotEof with - | -
  · rcases hb : p.bufferFull with - | -
    · simp only [he, hb, Bool.false_eq_true, if_false] at hb'
      cases hb'
      refine ⟨⟨hp.kind, hp.isOpen⟩, ?_⟩
      rw [PortOp.fills, hb, if_neg (by decide), hu.eq_rest he hb]
      unfold naviPortBufferByte
      rcases p.rest with - | ⟨b, bs⟩
      · exact .atEnd he rfl rfl rfl
      · exact .byte he rfl rfl
    · simp only [he, hb, Bool.false_eq_true, if_false, if_true] at hb'
      cases hb'
      exact ⟨hp, hu.fills (Or.inr hb)⟩
  · simp only [he, if_true] at hb'
    cases hb'
    exact ⟨hp, hu.fills (Or.inl he)⟩

theorem accounts_peekChar {p : Port} {held : BufferUnit} {us : List UInt8} (hp : p.OnFile)
    (hu : p.Owes held us) : Accounts (.text .peekChar) p held us := by
  intro d p' hrun
  have hd : (PortOp.text .peekChar).delivers d = some [] := by cases d <;> rfl
  refine ⟨[], us, hd, rfl, ?_⟩
  simp only [PortOp.run, CharOp.run, naviPortPeekChar, checkCanRead_onFile hp, ok_bind] at hrun
  rcases he : p.gotEof with - | -
  · rcases hb : p.bufferFull with - | -
    · simp only [he, hb, Bool.false_eq_true, if_false] at hrun
      obtain ⟨⟨⟨⟩, q⟩, hq, hd'⟩ := bind_eq_ok hrun
      rw [PortOp.fills, hb, if_neg (by decide), hu.eq_rest he hb]
      rcases naviPortBufferChar_ok hp hq with ⟨hr, rfl⟩ | ⟨c, bs, hr, rfl⟩
      · cases hd'
        rw [hr]
        exact ⟨⟨hp.kind, hp.isOpen⟩, .done rfl⟩
      · cases hd'
        rw [hr]
        exact ⟨⟨hp.kind, hp.isOpen⟩, .code he rfl rfl⟩
    · simp only [he, hb, Bool.false_eq_true, if_false, if_true] at hrun
      cases hrun
      exact ⟨hp, hu.fills (Or.inr hb)⟩
  · simp only [he, if_true] at hrun
    cases hrun
    exact ⟨hp, hu.fills (Or.inl he)⟩

/-- **One step**: what an operation delivers is what comes first of what the port owes. -/
theorem accounts {op : PortOp} {p : Port} {held : BufferUnit} {us : List UInt8} (hp : p.OnFile)
    (hu : p.Owes held us) (hown : OwnUnit op p held) : Accounts op p held us := by
  cases op with
  | readU8 => exact accounts_readU8 hp hu hown
  | peekU8 => exact accounts_peekU8 hp hu
  | text op =>
    cases op with
    | readChar => exact accounts_readChar hp hu hown
    | peekChar => exact accounts_peekChar hp hu

theorem delivered_concat {events : List (PortOp × Datum)} {op : PortOp} {d : Datum}
    {bs cs : List UInt8} (h : delivered events = some bs) (hd : op.delivers d = some cs) :
    delivered (events ++ [(op, d)]) = some (bs ++ cs) := by
  induction events generalizing bs with
  | nil =>
    cases h
    simp [delivered, hd]
  | cons e events ih =>
    obtain ⟨op', d'⟩ := e
    simp only [delivered, Option.bind_eq_bind, Option.bind_eq_some_iff, Option.pure_def,
      Option.some.injEq] at h
    obtain ⟨bs', hbs', cs', hcs', rfl⟩ := h
    simp [delivered, hbs', ih hcs']

/-- **The whole run**: what has been delivered, and what is owed, are the contents of the file. -/
theorem Interleaved.owes {bs : List UInt8} {p : Port} {held : BufferUnit}
    {events : List (PortOp × Datum)} (h : Interleaved OwnUnit bs p held events) :
    ∃ ds us, delivered events = some ds ∧ bs = ds ++ us ∧ p.OnFile ∧ p.Owes held us := by
  induction h with
  | start => exact ⟨[], bs, rfl, rfl, ⟨rfl, rfl⟩, .empty rfl rfl⟩
  | step before meets run ih =>
    obtain ⟨ds, us, hds, hbs, hp, hu⟩ := ih
    obtain ⟨ds', us', hds', hus, hp', hu'⟩ := accounts hp hu meets _ _ run
    refine ⟨ds ++ ds', us', delivered_concat hds hds', ?_, hp', hu'⟩
    rw [hbs, hus, List.append_assoc]

/-- **No byte is lost or delivered twice, as long as the reads that find the buffer full find
their own kind of unit there, or an ASCII one.** -/
theorem Interleaved.delivered_isPrefix {bs : List UInt8} {p : Port} {held : BufferUnit}
    {events : List (PortOp × Datum)} (h : Interleaved OwnUnit bs p held events) :
    ∃ ds, delivered events = some ds ∧ ds <+: bs := by
  obtain ⟨ds, us, hds, hbs, -⟩ := h.owes
  exact ⟨ds, hds, ⟨us, hbs.symm⟩⟩

/-- A two-byte character peeked at and read, then a byte. -/
theorem delivered_isPrefix_mixed :
    ∃ ds, delivered [(.text .peekChar, .char 0xE9), (.text .readChar, .char 0xE9),
      (.peekU8, .fixnum 0xFF), (.readU8, .fixnum 0xFF)] = some ds ∧
        ds <+: [0xC3, 0xA9, 0xFF, 0x21] :=
  Interleaved.delivered_isPrefix
    (.step (.step (.step (.step .start (fun _ h => nomatch h) rfl) (fun _ _ => Or.inr rfl) rfl)
      (fun _ h => nomatch h) rfl) (fun _ _ => Or.inr rfl) rfl)

/-- A two-byte character peeked at, and its code point read as a byte. -/
theorem not_delivered_isPrefix :
    ¬ ∀ (bs : List UInt8) (p : Port) (held : BufferUnit) (events : List (PortOp × Datum)),
      Interleaved (fun _ _ _ => True) bs p held events →
        ∃ ds, delivered events = some ds ∧ ds <+: bs := by
  intro h
  have hpeek : (PortOp.text .peekChar).run (Port.openOn .file [0xC3, 0xA9]) =
      .ok (.char 0xE9, ⟨.file, [], 0xE9, false, true, false, false⟩) := rfl
  have hread : PortOp.readU8.run ⟨.file, [], 0xE9, false, true, false, false⟩ =
      .ok (.fixnum 0xE9, ⟨.file, [], 0xE9, false, false, false, false⟩) := rfl
  obtain ⟨ds, hds, hpre⟩ := h _ _ _ _ (.step (.step .start trivial hpeek) trivial hread)
  cases hds
  exact absurd hpre (by decide)

end NaviScheme
