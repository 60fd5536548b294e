import NaviScheme.Reader.Read

/-!
# The printer

The functions of `display.c`, with the part of `port.c` through which they write. Each
returns the bytes that it writes to a port that is open; a string port has no `write_u8`,
so that symbols cannot be written to it.
-/

namespace NaviScheme

/-- `navi_port_write_byte` -/
def naviPortWriteByte (kind : PortKind) (b : UInt8) : Except ReadExn (List UInt8) :=
  match kind with
  | .file => .ok [b]
  | .string => .error (internalError "port doesn't support binary output" [])

/-- `navi_port_write_char`: a string port has a `write_char`, and a file is given the bytes of
the code point. -/
def naviPortWriteChar (kind : PortKind) (c : ℤ) : Except ReadExn (List UInt8) :=
  match kind with
  | .file => u8Append [] 5 c
  | .string => u8Append [] (u8Length c) c

/-- A character of a C string goes to a port. -/
def writeCstrChar (kind : PortKind) (b : UInt8) : Except ReadExn (List UInt8) :=
  match kind with
  | .file => naviPortWriteByte .file b
  | .string => naviPortWriteChar .string (toChar b.toNat)

/-- `navi_port_write_cstr` -/
def naviPortWriteCstr (kind : PortKind) (str : List UInt8) : Except ReadExn (List UInt8) := do
  return ((← (str.takeWhile (· ≠ 0)).mapM (writeCstrChar kind)).flatten)

/-- The digits of a number, by the conversion `%ld`. -/
def decimal (n : ℤ) : List UInt8 :=
  if n < 0 then toByte (ascii '-') :: (Nat.toDigits 10 n.natAbs).map fun c => toByte (ascii c)
  else (Nat.toDigits 10 n.natAbs).map fun c => toByte (ascii c)

/-- The digits of a number that is not negative, by the conversion `%lx`. -/
def hexadecimal (n : ℤ) : List UInt8 := (Nat.toDigits 16 n.natAbs).map fun c => toByte (ascii c)

/-- `write_char`, up to the port -/
def charText (c : ℤ) : List UInt8 :=
  match naviCharName c with
  | some name => cstr "#\\" ++ cstr name
  | none => if c > 127 then cstr "#\\x" ++ hexadecimal c else cstr "#\\" ++ [toByte c]

variable (kind : PortKind)

/-- `write_symbol` -/
def writeSymbol (name : List UInt8) : Except ReadExn (List UInt8) := do
  return ((← (name.takeWhile (· ≠ 0)).mapM (naviPortWriteByte kind)).flatten)

/-- `write_string` -/
def writeString (data : List UInt8) (write : Bool) : Except ReadExn (List UInt8) := do
  let quote := if write then [toByte doubleQuote] else []
  return (← naviPortWriteCstr kind quote) ++ (← naviPortWriteCstr kind data) ++
    (← naviPortWriteCstr kind quote)

/-- The loop of `write_bytevec`, from the second byte on. -/
def writeBytes : List UInt8 → Except ReadExn (List UInt8)
  | [] => naviPortWriteCstr kind (cstr ")")
  | b :: bs => do
    return (← naviPortWriteCstr kind (cstr " ")) ++ (← naviPortWriteCstr kind (decimal b.toNat)) ++
      (← writeBytes bs)

/-- `write_bytevec` -/
def writeBytevec : List UInt8 → Except ReadExn (List UInt8)
  | [] => naviPortWriteCstr kind (cstr "#u8(")
  | b :: bs => do
    return (← naviPortWriteCstr kind (cstr "#u8(")) ++
      (← naviPortWriteCstr kind (decimal b.toNat)) ++ (← writeBytes kind bs)

mutual

/-- `_navi_display` -/
def naviDisplay_ (write : Bool) : Datum → Except ReadExn (List UInt8)
  | .void => .ok []
  | .nil => naviPortWriteCstr kind (cstr "()")
  | .eof => naviPortWriteCstr kind (cstr "#!eof")
  | .fixnum n => naviPortWriteCstr kind (decimal n)
  | .bool b => naviPortWriteCstr kind (cstr (if b then "#t" else "#f"))
  | .char c => naviPortWriteCstr kind (charText c)
  | .pair car cdr => do
    return (← naviPortWriteCstr kind (cstr "(")) ++ (← naviDisplay_ write car) ++
      (← writeCdr write cdr)
  | .string data _ => writeString kind data write
  | .symbol name => writeSymbol kind name
  | .vector [] => naviPortWriteCstr kind (cstr "#()")
  | .vector (d :: ds) => do
    return (← naviPortWriteCstr kind (cstr "#(")) ++ (← naviDisplay_ write d) ++
      (← writeVector write ds)
  | .bytevec data => writeBytevec kind data

/-- `write_cdr`, behind an element -/
def writeCdr (write : Bool) : Datum → Except ReadExn (List UInt8)
  | .pair car cdr => do
    return (← naviPortWriteCstr kind (cstr " ")) ++ (← naviDisplay_ write car) ++
      (← writeCdr write cdr)
  | .nil => naviPortWriteCstr kind (cstr ")")
  | d => do
    return (← naviPortWriteCstr kind (cstr " . ")) ++ (← naviDisplay_ write d) ++
      (← naviPortWriteCstr kind (cstr ")"))

/-- The loop of `write_vector`, from the second element on. -/
def writeVector (write : Bool) : List Datum → Except ReadExn (List UInt8)
  | [] => naviPortWriteCstr kind (cstr ")")
  | d :: ds => do
    return (← naviPortWriteCstr kind (cstr " ")) ++ (← naviDisplay_ write d) ++
      (← writeVector write ds)

end

/-- `navi_port_write` -/
def naviPortWrite (d : Datum) : Except ReadExn (List UInt8) := naviDisplay_ kind true d

/-! ### What is written -/

@[simp] theorem naviPortWriteCstr_file (str : List UInt8) :
    naviPortWriteCstr .file str = .ok (str.takeWhile (· ≠ 0)) := by
  have h : ∀ bs : List UInt8, bs.mapM (writeCstrChar .file) = .ok (bs.map fun b => [b]) := by
    intro bs
    induction bs with
    | nil => rfl
    | cons b bs ih => simp [List.mapM_cons, writeCstrChar, naviPortWriteByte, ih]
  rw [naviPortWriteCstr, h, ok_bind, ← List.flatMap_def, List.flatMap_singleton']
  rfl

@[simp] theorem writeSymbol_file (name : List UInt8) :
    writeSymbol .file name = .ok (name.takeWhile (· ≠ 0)) := by
  have h : ∀ bs : List UInt8, bs.mapM (naviPortWriteByte .file) = .ok (bs.map fun b => [b]) := by
    intro bs
    induction bs with
    | nil => rfl
    | cons b bs ih => simp [List.mapM_cons, naviPortWriteByte, ih]
  rw [writeSymbol, h, ok_bind, ← List.flatMap_def, List.flatMap_singleton']
  rfl

theorem writeCstrChar_string {b : UInt8} {bs : List UInt8}
    (h : writeCstrChar .string b = .ok bs) : bs = [b] := by
  have hb := b.toNat_lt
  rcases Nat.lt_or_ge b.toNat 128 with hlt | hge
  · have hc : toChar b.toNat = b.toNat := toChar_of_lt (by omega) (by omega)
    have hl : u8Length b.toNat = 1 := by simp only [u8Length]; rw [if_neg (by omega), if_pos (by omega)]
    have hch : (Char.ofNat b.toNat).toNat = b.toNat := Utf8.toNat_ofNat_ascii hlt
    simp only [writeCstrChar, naviPortWriteChar, hc, u8Append, hl, if_true, List.length_nil,
      List.nil_append, Int.toNat_natCast] at h
    rw [if_pos (by decide), Utf8.utf8EncodeChar_ascii (by omega), hch] at h
    simpa using h.symm
  · have hc : toChar b.toNat < 0 := by
      simp only [toChar, Int.bmod]
      rw [if_neg (by omega)]
      omega
    have hl : u8Length (toChar b.toNat) = 0 := by simp only [u8Length]; rw [if_pos hc]
    simp [writeCstrChar, naviPortWriteChar, u8Append, hl] at h

/-- What can be written to a string port is written to a file as well, and is the same. -/
theorem naviPortWriteCstr_of_string {str t : List UInt8}
    (h : naviPortWriteCstr .string str = .ok t) : naviPortWriteCstr .file str = .ok t := by
  have key : ∀ (bs : List UInt8) (ts : List (List UInt8)),
      bs.mapM (writeCstrChar .string) = .ok ts → ts.flatten = bs := by
    intro bs
    induction bs with
    | nil =>
      intro ts h
      simp only [List.mapM_nil, pure_eq_ok, Except.ok.injEq] at h
      rw [← h]
      rfl
    | cons b bs ih =>
      intro ts h
      rw [List.mapM_cons] at h
      obtain ⟨u, hu, h⟩ := bind_eq_ok h
      obtain ⟨us, hus, h⟩ := bind_eq_ok h
      simp only [pure_eq_ok, Except.ok.injEq] at h
      rw [← h, writeCstrChar_string hu, List.flatten_cons, ih us hus]
      rfl
  obtain ⟨ts, hts, h⟩ := bind_eq_ok h
  simp only [pure_eq_ok, Except.ok.injEq] at h
  rw [naviPortWriteCstr_file, ← h, key _ _ hts]

theorem writeSymbol_of_string {name t : List UInt8} (h : writeSymbol .string name = .ok t) :
    writeSymbol .file name = .ok t := by
  rw [writeSymbol_file]
  cases hname : name.takeWhile (· ≠ 0) with
  | nil =>
    rw [writeSymbol, hname] at h
    exact h
  | cons b bs =>
    rw [writeSymbol, hname, List.mapM_cons] at h
    simp [naviPortWriteByte] at h

/-- Three texts, one behind the other. -/
theorem append_append_of_string {a a' b b' c c' : Except ReadExn (List UInt8)} {t : List UInt8}
    (ha : ∀ t, a = .ok t → a' = .ok t) (hb : ∀ t, b = .ok t → b' = .ok t)
    (hc : ∀ t, c = .ok t → c' = .ok t)
    (h : (do return (← a) ++ (← b) ++ (← c)) = (.ok t : Except ReadExn (List UInt8))) :
    (do return (← a') ++ (← b') ++ (← c')) = (.ok t : Except ReadExn (List UInt8)) := by
  obtain ⟨u, hu, h⟩ := bind_eq_ok h
  obtain ⟨v, hv, h⟩ := bind_eq_ok h
  obtain ⟨w, hw, h⟩ := bind_eq_ok h
  rw [ha u hu, hb v hv, hc w hw]
  exact h

theorem writeBytes_of_string : ∀ (bs : List UInt8) (t : List UInt8),
    writeBytes .string bs = .ok t → writeBytes .file bs = .ok t
  | [], _, h => naviPortWriteCstr_of_string h
  | _ :: bs, _, h =>
    append_append_of_string (fun _ => naviPortWriteCstr_of_string)
      (fun _ => naviPortWriteCstr_of_string) (writeBytes_of_string bs) h

mutual

/-- What can be written to a string port is written to a file as well, and is the same. -/
theorem naviDisplay_of_string (write : Bool) (d : Datum) (t : List UInt8)
    (h : naviDisplay_ .string write d = .ok t) : naviDisplay_ .file write d = .ok t := by
  match d with
  | .void => rwa [naviDisplay_] at h ⊢
  | .nil | .eof | .fixnum _ | .bool _ | .char _ | .vector [] =>
    rw [naviDisplay_] at h ⊢
    exact naviPortWriteCstr_of_string h
  | .pair car cdr =>
    rw [naviDisplay_] at h ⊢
    exact append_append_of_string (fun _ => naviPortWriteCstr_of_string)
      (naviDisplay_of_string write car) (writeCdr_of_string write cdr) h
  | .string _ _ =>
    rw [naviDisplay_] at h ⊢
    exact append_append_of_string (fun _ => naviPortWriteCstr_of_string)
      (fun _ => naviPortWriteCstr_of_string) (fun _ => naviPortWriteCstr_of_string) h
  | .symbol _ =>
    rw [naviDisplay_] at h ⊢
    exact writeSymbol_of_string h
  | .vector (d :: ds) =>
    rw [naviDisplay_] at h ⊢
    exact append_append_of_string (fun _ => naviPortWriteCstr_of_string)
      (naviDisplay_of_string write d) (writeVector_of_string write ds) h
  | .bytevec [] =>
    rw [naviDisplay_] at h ⊢
    exact naviPortWriteCstr_of_string h
  | .bytevec (_ :: bs) =>
    rw [naviDisplay_] at h ⊢
    exact append_append_of_string (fun _ => naviPortWriteCstr_of_string)
      (fun _ => naviPortWriteCstr_of_string) (writeBytes_of_string bs) h
termination_by (sizeOf d, 0)

theorem writeCdr_of_string (write : Bool) (d : Datum) (t : List UInt8)
    (h : writeCdr .string write d = .ok t) : writeCdr .file write d = .ok t := by
  match d with
  | .pair car cdr =>
    rw [writeCdr] at h ⊢
    exact append_append_of_string (fun _ => naviPortWriteCstr_of_string)
      (naviDisplay_of_string write car) (writeCdr_of_string write cdr) h
  | .nil =>
    rw [writeCdr] at h ⊢
    exact naviPortWriteCstr_of_string h
  | .void | .eof | .fixnum _ | .bool _ | .char _ | .string _ _ | .symbol _ | .vector _ | .bytevec _ =>
    simp only [writeCdr] at h ⊢
    exact append_append_of_string (fun _ => naviPortWriteCstr_of_string)
      (naviDisplay_of_string write _) (fun _ => naviPortWriteCstr_of_string) h
termination_by (sizeOf d, 1)

theorem writeVector_of_string (write : Bool) (ds : List Datum) (t : List UInt8)
    (h : writeVector .string write ds = .ok t) : writeVector .file write ds = .ok t := by
  match ds with
  | [] =>
    rw [writeVector] at h ⊢
    exact naviPortWriteCstr_of_string h
  | d :: ds =>
    rw [writeVector] at h ⊢
    exact append_append_of_string (fun _ => naviPortWriteCstr_of_string)
      (naviDisplay_of_string write d) (writeVector_of_string write ds) h
termination_by (sizeOf ds, 0)

end

end NaviScheme
