import NaviScheme.Reader.Literal

/-!
# Characters through a port of bytes

A file port takes and gives bytes. `navi_port_write_char` encodes a character by the macros of
ICU; `navi_port_read_char` finds the length of a sequence in a table of its own. What is written
is read back, and text that is not well-formed is given up where it stops being so
(`NaviScheme.readsChars_iff`).
-/

namespace NaviScheme

/-- The codes of characters. -/
def codes (cs : List Char) : List ℤ := cs.map fun c => (c.toNat : ℤ)

/-- Writing characters one after another. -/
def writeChars (kind : PortKind) (cs : List ℤ) : Except ReadExn (List UInt8) := do
  return (← cs.mapM (naviPortWriteChar kind)).flatten

/-- **What `navi_port_read_char` returns** until it returns the end-of-file object or raises an
error. -/
inductive ReadsChars : Port → List ℤ → Option ReadExn → Prop
  /-- the end of the file -/
  | eof {p p' : Port} (h : naviPortReadChar p = .ok (.eof, p')) : ReadsChars p [] none
  /-- an error -/
  | error {p : Port} {e : ReadExn} (h : naviPortReadChar p = .error e) : ReadsChars p [] (some e)
  /-- a character -/
  | char {p p' : Port} {c : ℤ} {cs : List ℤ} {r : Option ReadExn}
    (h : naviPortReadChar p = .ok (.char c, p')) (hcs : ReadsChars p' cs r) :
    ReadsChars p (c :: cs) r

variable {p : Port} {bs : List UInt8} {cs : List ℤ} {r : Option ReadExn}

/-- Reading a port comes to one end. -/
theorem ReadsChars.unique {cs' : List ℤ} {r' : Option ReadExn} (h : ReadsChars p cs r)
    (h' : ReadsChars p cs' r') : cs = cs' ∧ r = r' := by
  induction h generalizing cs' r' with
  | eof h =>
    cases h' with
    | eof _ => exact ⟨rfl, rfl⟩
    | error h' => cases h.symm.trans h'
    | char h' _ => cases h.symm.trans h'
  | error h =>
    cases h' with
    | eof h' => cases h.symm.trans h'
    | error h' =>
      cases h.symm.trans h'
      exact ⟨rfl, rfl⟩
    | char h' _ => cases h.symm.trans h'
  | char h _ ih =>
    cases h' with
    | eof h' => cases h.symm.trans h'
    | error h' => cases h.symm.trans h'
    | char h' hcs' =>
      cases h.symm.trans h'
      obtain ⟨rfl, rfl⟩ := ih hcs'
      exact ⟨rfl, rfl⟩

/-! ### Writing -/

/-- What the buffer of `navi_port_write_char` holds of a character. -/
theorem naviPortWriteChar_file (c : Char) :
    naviPortWriteChar .file c.toNat = .ok (String.utf8EncodeChar c) := by
  have hsize := c.utf8Size_le_four
  exact u8Append_toNat (by simp only [List.length_nil]; omega)

theorem writeChars_file (cs : List Char) : writeChars .file (codes cs) = .ok (Utf8.encode cs) := by
  have hmap : (codes cs).mapM (naviPortWriteChar .file) = .ok (cs.map String.utf8EncodeChar) := by
    induction cs with
    | nil => rfl
    | cons c cs ih =>
      rw [codes, List.map_cons, List.mapM_cons, naviPortWriteChar_file, ok_bind]
      change ((codes cs).mapM (naviPortWriteChar .file) >>= _) = _
      rw [ih]
      rfl
  rw [writeChars, hmap, ok_bind, ← List.flatMap_def]
  rfl

/-! ### Reading -/

/-- A file of which the bytes `bs` are left, and nothing is in the buffer. -/
structure Port.FileAt (p : Port) (bs : List UInt8) : Prop where
  kind : p.kind = .file
  rest : p.rest = bs
  isOpen : p.inputClosed = false
  gotEof : p.gotEof = false
  empty : p.bufferFull = false

theorem Port.openOn_fileAt (bs : List UInt8) : (Port.openOn .file bs).FileAt bs :=
  ⟨rfl, rfl, rfl, rfl, rfl⟩

theorem Port.FileAt.readChar_cons {c : Char} (h : p.FileAt (String.utf8EncodeChar c ++ bs)) :
    ∃ p', naviPortReadChar p = .ok (.char c.toNat, p') ∧ p'.FileAt bs := by
  refine ⟨{ p with buffer := c.toNat, rest := bs }, ?_, h.kind, rfl, h.isOpen, h.gotEof, h.empty⟩
  simp [naviPortReadChar, checkCanRead, h.isOpen, h.gotEof, h.empty, naviPortBufferChar_cons h.rest]

theorem Port.FileAt.readChar_nil (h : p.FileAt []) :
    ∃ p', naviPortReadChar p = .ok (.eof, p') := by
  simp [naviPortReadChar, checkCanRead, h.isOpen, h.gotEof, h.empty, naviPortBufferChar_nil h.rest]

/-- Bytes that begin with no character are an error. -/
theorem decodeUtf8_error (hbs : bs ≠ []) (hnone : Utf8.next? bs = none) :
    ∃ msg, decodeUtf8 bs = .error (naviUtf8Error msg) := by
  cases bs with
  | nil => exact absurd rfl hbs
  | cons b bs =>
    rw [decodeUtf8]
    split_ifs
    · exact ⟨_, rfl⟩
    · exact ⟨_, rfl⟩
    · cases hnext : Utf8.next? ((b :: bs).take (utf8CharSize b).toNat) with
      | none => exact ⟨_, rfl⟩
      | some e =>
        -- the character would be found in front of all the bytes
        obtain ⟨c, es⟩ := e
        have hall : b :: bs =
            String.utf8EncodeChar c ++ (es ++ (b :: bs).drop (utf8CharSize b).toNat) := by
          rw [← List.append_assoc, ← Utf8.eq_of_next? hnext, List.take_append_drop]
        rw [hall, Utf8.next?_append] at hnone
        cases hnone

theorem Port.FileAt.readChar_error {e : ReadExn} (h : p.FileAt bs) (he : decodeUtf8 bs = .error e) :
    naviPortReadChar p = .error e := by
  simp [naviPortReadChar, checkCanRead, naviPortBufferChar, h.kind, h.rest, h.isOpen, h.gotEof,
    h.empty, he]

/-- Well-formed text is read before what follows it. -/
theorem Port.FileAt.readsChars (cs : List Char) (h : p.FileAt (Utf8.encode cs ++ bs))
    (hend : ∀ p : Port, p.FileAt bs → ReadsChars p [] r) : ReadsChars p (codes cs) r := by
  induction cs generalizing p with
  | nil => exact hend p h
  | cons c cs ih =>
    rw [Utf8.encode_cons, List.append_assoc] at h
    obtain ⟨p', hc, h'⟩ := h.readChar_cons
    exact .char hc (ih h')

/-- Text is well-formed up to some point, where it begins with no character. -/
theorem exists_encode_append (bs : List UInt8) :
    ∃ cs ds, bs = Utf8.encode cs ++ ds ∧ Utf8.next? ds = none := by
  induction hn : bs.length using Nat.strong_induction_on generalizing bs with
  | _ n ih =>
    cases hnext : Utf8.next? bs with
    | none => exact ⟨[], bs, rfl, hnext⟩
    | some e =>
      obtain ⟨c, ds⟩ := e
      obtain rfl := Utf8.eq_of_next? hnext
      have hlen : ds.length < n := by
        have hpos := c.utf8Size_pos
        rw [← hn, List.length_append, String.length_utf8EncodeChar]
        omega
      obtain ⟨cs, es, rfl, hes⟩ := ih ds.length hlen ds rfl
      exact ⟨c :: cs, es, by rw [Utf8.encode_cons, List.append_assoc], hes⟩

/-- **Characters that are written are read back**, and text that is not well-formed is read up to
the point where it stops being so: the characters before it, and then an error. -/
theorem readsChars_iff :
    (∀ cs : List Char, ∃ bs, writeChars .file (codes cs) = .ok bs ∧
      ∀ cs' r, ReadsChars (Port.openOn .file bs) cs' r ↔ cs' = codes cs ∧ r = none) ∧
    ∀ bs : List UInt8, (¬ ∃ cs, bs = Utf8.encode cs) →
      ∃ cs ds msg, bs = Utf8.encode cs ++ ds ∧ (∀ c es, ds ≠ String.utf8EncodeChar c ++ es) ∧
        ∀ cs' r, ReadsChars (Port.openOn .file bs) cs' r ↔
          cs' = codes cs ∧ r = some (naviUtf8Error msg) := by
  have hiff : ∀ {p cs r}, ReadsChars p cs r → ∀ cs' r', ReadsChars p cs' r' ↔ cs' = cs ∧ r' = r :=
    fun h cs' r' => ⟨fun h' => h'.unique h, by rintro ⟨rfl, rfl⟩; exact h⟩
  refine ⟨fun cs => ⟨Utf8.encode cs, writeChars_file cs, hiff ?_⟩, fun bs hbs => ?_⟩
  · have hopen : (Port.openOn .file (Utf8.encode cs)).FileAt (Utf8.encode cs ++ []) := by
      rw [List.append_nil]
      exact Port.openOn_fileAt _
    refine hopen.readsChars cs fun p h => ?_
    obtain ⟨p', hend⟩ := h.readChar_nil
    exact .eof hend
  · obtain ⟨cs, ds, rfl, hnone⟩ := exists_encode_append bs
    have hds : ds ≠ [] := by
      rintro rfl
      exact hbs ⟨cs, by simp⟩
    obtain ⟨msg, herror⟩ := decodeUtf8_error hds hnone
    refine ⟨cs, ds, msg, rfl, fun c es heq => ?_, hiff ?_⟩
    · rw [heq, Utf8.next?_append] at hnone
      cases hnone
    · exact Port.FileAt.readsChars cs (Port.openOn_fileAt _) fun p h =>
        .error (h.readChar_error herror)

end NaviScheme
