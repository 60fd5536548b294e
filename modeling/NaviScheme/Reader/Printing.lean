import NaviScheme.Reader.Literal
import NaviScheme.Strings.OutputPort

/-!
# Printing to the two kinds of ports

The printers of `display.c` hand their text to a port in two ways: byte by byte through
`navi_port_write_byte`, and as C strings through `navi_port_write_cstr`. A file takes both. A
string port has no `write_u8`: it refuses a byte, and takes the `char`s of a C string for code
points, so that only ASCII goes through (`NaviScheme.printsAlike_iff`). Symbols, and the names in
procedures, are written byte by byte.
-/

namespace NaviScheme

/-- What can be printed, as a tree. -/
inductive Printable
  | void
  | nil
  | eof
  | fixnum (n : ℤ)
  | bool (b : Bool)
  | char (c : ℤ)
  | pair (car cdr : Printable)
  | string (data : List UInt8)
  | symbol (name : List UInt8)
  | vector (data : List Printable)
  | bytevec (data : List UInt8)
  | values (data : List Printable)
  | thunk (expr : Printable)
  /-- a procedure, with `NAVI_PROC_BUILTIN` and its name -/
  | procedure (builtin : Bool) (name : List UInt8)
  | naviMacro (name : List UInt8)
  | special (name : List UInt8)
  /-- a parameter, with its key -/
  | parameter (key : List UInt8)
  | port
  | promise
  | caselambda
  | escape
  | environment
  | bounce

/-- What a printer hands to a port. -/
inductive Emission
  /-- `navi_port_write_byte` -/
  | byte (b : UInt8)
  /-- a character of `navi_port_write_cstr` -/
  | cstrChar (b : UInt8)
deriving DecidableEq, Repr

/-- `navi_port_write_cstr` -/
def emitCstr (str : List UInt8) : List Emission := (str.takeWhile (· ≠ 0)).map .cstrChar

/-- `write_symbol` -/
def emitSymbol (name : List UInt8) : List Emission := (name.takeWhile (· ≠ 0)).map .byte

/-- The loop of `write_bytevec`, from the second byte on. -/
def emitBytes : List UInt8 → List Emission
  | [] => emitCstr (cstr ")")
  | b :: bs => emitCstr (cstr " ") ++ emitCstr (decimal b.toNat) ++ emitBytes bs

/-- `write_bytevec` -/
def emitBytevec : List UInt8 → List Emission
  | [] => emitCstr (cstr "#u8(")
  | b :: bs => emitCstr (cstr "#u8(") ++ emitCstr (decimal b.toNat) ++ emitBytes bs

/-- `write_string` -/
def emitString (data : List UInt8) (write : Bool) : List Emission :=
  let quote := if write then [toByte doubleQuote] else []
  emitCstr quote ++ emitCstr data ++ emitCstr quote

/-- `WRITE_WITH_CALL` -/
def emitTagged (tag : String) (arg : List Emission) : List Emission :=
  emitCstr (cstr "#<") ++ emitCstr (cstr tag) ++ emitCstr (cstr " ") ++ arg ++ emitCstr (cstr ">")

namespace Printable

mutual

/-- `_navi_display` -/
def emit (write : Bool) : Printable → List Emission
  | .void => []
  | .nil => emitCstr (cstr "()")
  | .eof => emitCstr (cstr "#!eof")
  | .fixnum n => emitCstr (decimal n)
  | .bool b => emitCstr (cstr (if b then "#t" else "#f"))
  | .char c => emitCstr (charText c)
  | .pair car cdr => emitCstr (cstr "(") ++ emit write car ++ emitCdr write cdr
  | .string data => emitString data write
  | .symbol name => emitSymbol name
  | .vector data => emitVector write data
  | .bytevec data => emitBytevec data
  | .values data => emitTagged "values" (emitVector write data)
  | .thunk expr => emitTagged "thunk" (emit write expr)
  | .procedure builtin name =>
    emitTagged (if builtin then "builtin-procedure" else "interpreted-procedure") (emitSymbol name)
  | .naviMacro name => emitTagged "macro" (emitSymbol name)
  | .special name => emitTagged "special form" (emitSymbol name)
  | .parameter key => emitTagged "parameter" (emitSymbol key)
  | .port => emitCstr (cstr "#<port>")
  | .promise => emitCstr (cstr "#<promise>")
  | .caselambda => emitCstr (cstr "#<case-lambda>")
  | .escape => emitCstr (cstr "#<escape continuation>")
  | .environment => emitCstr (cstr "#<environment>")
  | .bounce => emitCstr (cstr "#<bounce>")

/-- `write_cdr`, behind an element -/
def emitCdr (write : Bool) : Printable → List Emission
  | .pair car cdr => emitCstr (cstr " ") ++ emit write car ++ emitCdr write cdr
  | .nil => emitCstr (cstr ")")
  | o => emitCstr (cstr " . ") ++ emit write o ++ emitCstr (cstr ")")

/-- `write_vector` -/
def emitVector (write : Bool) : List Printable → List Emission
  | [] => emitCstr (cstr "#()")
  | o :: os => emitCstr (cstr "#(") ++ emit write o ++ emitElements write os

/-- The loop of `write_vector`, from the second element on. -/
def emitElements (write : Bool) : List Printable → List Emission
  | [] => emitCstr (cstr ")")
  | o :: os => emitCstr (cstr " ") ++ emit write o ++ emitElements write os

end

end Printable

/-! ### Ports -/

/-- The byte that is handed over. -/
def Emission.value : Emission → UInt8
  | .byte b | .cstrChar b => b

/-- What printing an object emits to a file. -/
def fileText (write : Bool) (o : Printable) : List UInt8 := (o.emit write).map Emission.value

/-- `navi_port_write_byte` and a round of the loop of `navi_port_write_cstr`, for the string port
`p`. The `char` becomes a `long`, and that a code point. -/
def Emission.toStringPort (U : Unicode) (u : Unknown) (p : ℕ) : Emission → StringHeap →
    Except StringStop StringHeap
  | .byte _, _ => .error (.raise "port doesn't support binary output")
  | .cstrChar b, h => h.stringWrite U u p (UInt32.ofInt (toChar b.toNat))

/-- What is handed over, one after the other, each with what the write finds in memory. -/
def printAll (U : Unicode) (p : ℕ) : List (Unknown × Emission) → StringHeap →
    Except StringStop StringHeap
  | [], h => .ok h
  | (u, e) :: es, h => do printAll U p es (← e.toStringPort U u p h)

/-- An object is printed to a fresh string port, and then `get-output-string` is called. -/
def printFresh (U : Unicode) (u u' : Unknown) (es : List (Unknown × Emission)) (h : StringHeap) :
    Except StringStop StringHeap := do
  let h₁ ← h.naviOpenOutputString u
  let h₂ ← printAll U h.ports.length es h₁
  h₂.naviGetOutputString u' h.ports.length

/-- **Printing to a string port raises no error**, and what `get-output-string` then returns holds
the characters of the text that printing to a file emits. -/
def PrintsAlike (U : Unicode) (u u' : Unknown) (es : List (Unknown × Emission)) (text : List UInt8)
    (h : StringHeap) : Prop :=
  ∃ h' str copy cs, printFresh U u u' es h = .ok h' ∧ h'.strings = h.strings ++ [str, copy] ∧
    copy.Holds Coding.utf8 cs ∧ Coding.utf8.encode cs = text

/-! ### The printer of data -/

/-- What a port makes of what is handed over. -/
def Emission.write (kind : PortKind) : Emission → Except ReadExn (List UInt8)
  | .byte b => naviPortWriteByte kind b
  | .cstrChar b => writeCstrChar kind b

/-- What a port makes of all that is handed over. -/
def emitted (kind : PortKind) (es : List Emission) : Except ReadExn (List UInt8) := do
  return (← es.mapM (Emission.write kind)).flatten

mutual

/-- Data can be printed. -/
def Datum.toPrintable : Datum → Printable
  | .void => .void
  | .nil => .nil
  | .eof => .eof
  | .fixnum n => .fixnum n
  | .bool b => .bool b
  | .char c => .char c
  | .pair car cdr => .pair car.toPrintable cdr.toPrintable
  | .string data _ => .string data
  | .symbol name => .symbol name
  | .vector data => .vector (toPrintables data)
  | .bytevec data => .bytevec data

def toPrintables : List Datum → List Printable
  | [] => []
  | d :: ds => d.toPrintable :: toPrintables ds

end

section Emitted

variable {kind : PortKind} {xs ys zs : List Emission}

theorem emitted_append : emitted kind (xs ++ ys) = (do return (← emitted kind xs) ++
    (← emitted kind ys)) := by
  simp only [emitted, List.mapM_append, bind_assoc, pure_bind, List.flatten_append]

theorem emitted_append_append : emitted kind (xs ++ ys ++ zs) = (do return (← emitted kind xs) ++
    (← emitted kind ys) ++ (← emitted kind zs)) := by
  simp only [emitted_append, bind_assoc, pure_bind]

theorem emitted_emitCstr (str : List UInt8) :
    emitted kind (emitCstr str) = naviPortWriteCstr kind str := by
  rw [emitted, emitCstr, List.mapM_map]
  rfl

theorem emitted_emitSymbol (name : List UInt8) :
    emitted kind (emitSymbol name) = writeSymbol kind name := by
  rw [emitted, emitSymbol, List.mapM_map]
  rfl

theorem emitted_emitBytes (bs : List UInt8) : emitted kind (emitBytes bs) = writeBytes kind bs := by
  induction bs with
  | nil => exact emitted_emitCstr _
  | cons b bs ih => rw [emitBytes, emitted_append_append, emitted_emitCstr, emitted_emitCstr, ih,
      writeBytes]

theorem emitted_emitBytevec (bs : List UInt8) :
    emitted kind (emitBytevec bs) = writeBytevec kind bs := by
  cases bs with
  | nil => exact emitted_emitCstr _
  | cons b bs => rw [emitBytevec, emitted_append_append, emitted_emitCstr, emitted_emitCstr,
      emitted_emitBytes, writeBytevec]

theorem emitted_emitString (data : List UInt8) (write : Bool) :
    emitted kind (emitString data write) = writeString kind data write := by
  rw [emitString, emitted_append_append, emitted_emitCstr, emitted_emitCstr, writeString]

end Emitted

mutual

/-- **The printer of data** hands over what `Printable.emit` says. -/
theorem naviDisplay_eq_emitted (kind : PortKind) (write : Bool) (d : Datum) :
    naviDisplay_ kind write d = emitted kind (d.toPrintable.emit write) := by
  match d with
  | .void => rw [naviDisplay_, Datum.toPrintable, Printable.emit]; rfl
  | .nil | .eof | .fixnum _ | .bool _ | .char _ =>
    rw [naviDisplay_, Datum.toPrintable, Printable.emit, emitted_emitCstr]
  | .pair car cdr =>
    rw [naviDisplay_, Datum.toPrintable, Printable.emit, emitted_append_append, emitted_emitCstr,
      naviDisplay_eq_emitted kind write car, writeCdr_eq_emitted kind write cdr]
  | .string data _ => rw [naviDisplay_, Datum.toPrintable, Printable.emit, emitted_emitString]
  | .symbol name => rw [naviDisplay_, Datum.toPrintable, Printable.emit, emitted_emitSymbol]
  | .vector [] =>
    rw [naviDisplay_, Datum.toPrintable, toPrintables, Printable.emit, Printable.emitVector,
      emitted_emitCstr]
  | .vector (d :: ds) =>
    rw [naviDisplay_, Datum.toPrintable, toPrintables, Printable.emit, Printable.emitVector,
      emitted_append_append, emitted_emitCstr, naviDisplay_eq_emitted kind write d,
      writeVector_eq_emitted kind write ds]
  | .bytevec data => rw [naviDisplay_, Datum.toPrintable, Printable.emit, emitted_emitBytevec]
termination_by (sizeOf d, 0)

theorem writeCdr_eq_emitted (kind : PortKind) (write : Bool) (d : Datum) :
    writeCdr kind write d = emitted kind (d.toPrintable.emitCdr write) := by
  have hself := naviDisplay_eq_emitted kind write d
  match d, hself with
  | .pair car cdr, _ =>
    rw [writeCdr, Datum.toPrintable, Printable.emitCdr, emitted_append_append, emitted_emitCstr,
      naviDisplay_eq_emitted kind write car, writeCdr_eq_emitted kind write cdr]
  | .nil, _ => rw [writeCdr, Datum.toPrintable, Printable.emitCdr, emitted_emitCstr]
  | .void, h | .eof, h | .fixnum _, h | .bool _, h | .char _, h | .string _ _, h | .symbol _, h
  | .vector _, h | .bytevec _, h =>
    simp only [writeCdr, Datum.toPrintable, Printable.emitCdr, emitted_append_append,
      emitted_emitCstr] at h ⊢
    rw [h]
termination_by (sizeOf d, 1)

theorem writeVector_eq_emitted (kind : PortKind) (write : Bool) (ds : List Datum) :
    writeVector kind write ds = emitted kind (Printable.emitElements write (toPrintables ds)) := by
  match ds with
  | [] => rw [writeVector, toPrintables, Printable.emitElements, emitted_emitCstr]
  | d :: ds =>
    rw [writeVector, toPrintables, Printable.emitElements, emitted_append_append,
      emitted_emitCstr, naviDisplay_eq_emitted kind write d, writeVector_eq_emitted kind write ds]
termination_by (sizeOf ds, 0)

end

theorem emitted_file (es : List Emission) : emitted .file es = .ok (es.map Emission.value) := by
  have hmap : es.mapM (Emission.write .file) = .ok (es.map fun e => [e.value]) := by
    induction es with
    | nil => rfl
    | cons e es ih =>
      rw [List.mapM_cons, ih]
      cases e <;> rfl
  rw [emitted, hmap, ok_bind, ← List.flatMap_def, ← List.map_eq_flatMap]
  rfl

/-- **What printing data emits to a file.** -/
theorem naviDisplay_file (write : Bool) (d : Datum) :
    naviDisplay_ .file write d = .ok (fileText write d.toPrintable) := by
  rw [naviDisplay_eq_emitted, emitted_file, fileText]

/-! ### What is plain text -/

/-- A character of a C string, in ASCII. -/
def Emission.Textual : Emission → Prop
  | .byte _ => False
  | .cstrChar b => b.toNat < 128

/-- A C string in ASCII. -/
def IsAscii (str : List UInt8) : Prop := ∀ b ∈ str.takeWhile (· ≠ 0), b.toNat < 128

instance : DecidablePred IsAscii := fun _ => List.decidableBAll _ _

/-- A name without characters. -/
def IsEmptyName (name : List UInt8) : Prop := name.takeWhile (· ≠ 0) = []

namespace Printable

mutual

/-- No symbol is printed, and no string or character that is not ASCII. -/
def Textual : Printable → Prop
  | .char c => 0 ≤ c ∨ c % 256 < 128
  | .pair car cdr => Textual car ∧ Textual cdr
  | .string data => IsAscii data
  | .symbol name | .procedure _ name | .naviMacro name | .special name | .parameter name =>
    IsEmptyName name
  | .vector data | .values data => AllTextual data
  | .thunk expr => Textual expr
  | .void | .nil | .eof | .fixnum _ | .bool _ | .bytevec _ | .port | .promise | .caselambda
  | .escape | .environment | .bounce => True

/-- The same, of all objects of a list. -/
def AllTextual : List Printable → Prop
  | [] => True
  | o :: os => Textual o ∧ AllTextual os

end

end Printable

/-- All that is handed over is text. -/
abbrev AllText (es : List Emission) : Prop := ∀ e ∈ es, e.Textual

@[simp] theorem allText_emitCstr {str : List UInt8} : AllText (emitCstr str) ↔ IsAscii str := by
  simp [AllText, emitCstr, IsAscii, Emission.Textual]

@[simp] theorem allText_emitSymbol {name : List UInt8} :
    AllText (emitSymbol name) ↔ IsEmptyName name := by
  simp [AllText, emitSymbol, IsEmptyName, Emission.Textual, List.eq_nil_iff_forall_not_mem]

@[simp] theorem allText_append {xs ys : List Emission} :
    AllText (xs ++ ys) ↔ AllText xs ∧ AllText ys := List.forall_mem_append

theorem isAscii_digitBytes {radix : ℕ} (hb : 1 < radix) (hle : radix ≤ 16) (n : ℕ) :
    ∀ b ∈ digitBytes radix n, b.toNat < 128 := by
  intro b hmem
  obtain ⟨d, hd, rfl⟩ := mem_digitBytes hb n hmem
  exact (digitByte_hex (hd.trans_le hle)).1

theorem isAscii_of_forall {str : List UInt8} (h : ∀ b ∈ str, b.toNat < 128) : IsAscii str :=
  fun b hb => h b ((List.takeWhile_sublist _).subset hb)

@[simp] theorem isAscii_decimal (n : ℤ) : IsAscii (decimal n) := by
  refine isAscii_of_forall fun b hb => ?_
  rcases lt_or_ge n 0 with hneg | hnonneg
  · rw [decimal_of_neg hneg] at hb
    rcases List.mem_cons.mp hb with rfl | hb
    · decide
    · exact isAscii_digitBytes (by decide) (by decide) _ b hb
  · obtain ⟨m, rfl⟩ := Int.eq_ofNat_of_zero_le hnonneg
    rw [decimal_of_nonneg] at hb
    exact isAscii_digitBytes (by decide) (by decide) _ b hb

theorem isAscii_naviCharName {c : ℤ} {name : String} (h : naviCharName c = some name) :
    ∀ b ∈ cstr "#\\" ++ cstr name, b.toNat < 128 := by
  have hall : (namedChars.all fun e =>
      (cstr "#\\" ++ cstr e.1).all fun b => decide (b.toNat < 128)) = true := by decide
  simp only [List.all_eq_true, decide_eq_true_eq] at hall
  exact hall _ (naviCharName_spec h)

/-- The text of a character is ASCII, but for what a `char` makes of a negative number. -/
theorem isAscii_charText {c : ℤ} : IsAscii (charText c) ↔ 0 ≤ c ∨ c % 256 < 128 := by
  cases hname : naviCharName c with
  | some name =>
    rw [charText_named hname]
    refine iff_of_true (isAscii_of_forall (isAscii_naviCharName hname)) ?_
    have hall : ∀ e ∈ namedChars, 0 ≤ e.2 := by decide
    exact .inl (hall _ (naviCharName_spec hname))
  | none =>
    rcases le_or_gt c 127 with hle | hgt
    · have hbyte : (toByte c).toNat = (c % 256).toNat := by
        rw [toByte, UInt8.toNat_ofNat']
        omega
      have hpre : cstr "#\\" = [35, 92] := by decide
      have hsmall : IsAscii [toByte c] ↔ (toByte c).toNat < 128 := by
        by_cases hzero : toByte c = 0
        · rw [hzero]
          decide
        · simp [IsAscii, hzero]
      have hcons : IsAscii (cstr "#\\" ++ [toByte c]) ↔ IsAscii [toByte c] := by
        rw [hpre]
        simp [IsAscii]
      rw [charText_raw hname hle, hcons, hsmall, hbyte]
      omega
    · rw [charText_hexadecimal hname hgt]
      refine iff_of_true (isAscii_of_forall fun b hb => ?_) (.inl (by omega))
      have hpre : cstr "#\\" = [35, 92] := by decide
      rw [hpre] at hb
      simp only [List.cons_append, List.nil_append, List.mem_cons] at hb
      rcases hb with rfl | rfl | rfl | hb
      · decide
      · decide
      · decide
      · exact isAscii_digitBytes (by decide) (by decide) c.natAbs b hb

theorem allText_emitBytes (bs : List UInt8) : AllText (emitBytes bs) := by
  induction bs with
  | nil => exact allText_emitCstr.mpr (by decide)
  | cons b bs ih =>
    rw [emitBytes, allText_append, allText_append]
    exact ⟨⟨allText_emitCstr.mpr (by decide), allText_emitCstr.mpr (isAscii_decimal _)⟩, ih⟩

theorem allText_emitBytevec (bs : List UInt8) : AllText (emitBytevec bs) := by
  cases bs with
  | nil => exact allText_emitCstr.mpr (by decide)
  | cons b bs =>
    rw [emitBytevec, allText_append, allText_append]
    exact ⟨⟨allText_emitCstr.mpr (by decide), allText_emitCstr.mpr (isAscii_decimal _)⟩,
      allText_emitBytes bs⟩

theorem allText_emitString {data : List UInt8} {write : Bool} :
    AllText (emitString data write) ↔ IsAscii data := by
  have hquote : IsAscii (if write then [toByte doubleQuote] else []) := by
    cases write <;> decide
  simp only [emitString, allText_append, allText_emitCstr]
  tauto

theorem allText_emitTagged {tag : String} {arg : List Emission} (h : IsAscii (cstr tag)) :
    AllText (emitTagged tag arg) ↔ AllText arg := by
  have hopen : IsAscii (cstr "#<") := by decide
  have hspace : IsAscii (cstr " ") := by decide
  have hclose : IsAscii (cstr ">") := by decide
  simp only [emitTagged, allText_append, allText_emitCstr]
  tauto

namespace Printable

mutual

/-- **An object is handed over as text** exactly when it is textual. -/
theorem allText_emit (write : Bool) (o : Printable) : AllText (o.emit write) ↔ o.Textual := by
  match o with
  | .void => rw [emit, Textual]; exact iff_of_true (fun _ h => absurd h List.not_mem_nil) trivial
  | .nil | .eof | .port | .promise | .caselambda | .escape | .environment | .bounce =>
    rw [emit, allText_emitCstr, Textual]
    decide
  | .fixnum n =>
    rw [emit, allText_emitCstr, Textual]
    exact iff_of_true (isAscii_decimal n) trivial
  | .bool b =>
    rw [emit, allText_emitCstr, Textual]
    cases b <;> decide
  | .char c => rw [emit, allText_emitCstr, isAscii_charText, Textual]
  | .pair car cdr =>
    have hopen : IsAscii (cstr "(") := by decide
    rw [emit, allText_append, allText_append, allText_emitCstr, allText_emit write car,
      allText_emitCdr write cdr, Textual]
    tauto
  | .string data => rw [emit, allText_emitString, Textual]
  | .symbol name => rw [emit, allText_emitSymbol, Textual]
  | .vector data => rw [emit, allText_emitVector write data, Textual]
  | .bytevec data =>
    rw [emit, Textual]
    exact iff_of_true (allText_emitBytevec data) trivial
  | .values data =>
    rw [emit, allText_emitTagged (by decide), allText_emitVector write data, Textual]
  | .thunk expr => rw [emit, allText_emitTagged (by decide), allText_emit write expr, Textual]
  | .procedure builtin name =>
    rw [emit, allText_emitTagged (by cases builtin <;> decide), allText_emitSymbol, Textual]
  | .naviMacro name | .special name | .parameter name =>
    rw [emit, allText_emitTagged (by decide), allText_emitSymbol, Textual]
termination_by (sizeOf o, 0)

theorem allText_emitCdr (write : Bool) (o : Printable) : AllText (o.emitCdr write) ↔ o.Textual := by
  have hspace : IsAscii (cstr " ") := by decide
  have hclose : IsAscii (cstr ")") := by decide
  have hdot : IsAscii (cstr " . ") := by decide
  have hself := allText_emit write o
  match o, hself with
  | .pair car cdr, _ =>
    rw [emitCdr, allText_append, allText_append, allText_emitCstr, allText_emit write car,
      allText_emitCdr write cdr, Textual]
    exact and_congr_left fun _ => and_iff_right hspace
  | .nil, _ =>
    rw [emitCdr, allText_emitCstr, Textual]
    exact iff_of_true hclose trivial
  | .void, h | .eof, h | .fixnum _, h | .bool _, h | .char _, h | .string _, h | .symbol _, h
  | .vector _, h | .bytevec _, h | .values _, h | .thunk _, h | .procedure _ _, h
  | .naviMacro _, h | .special _, h | .parameter _, h | .port, h | .promise, h | .caselambda, h
  | .escape, h | .environment, h | .bounce, h =>
    simp only [emitCdr, allText_append, allText_emitCstr, h, hdot, hclose, true_and, and_true]
termination_by (sizeOf o, 1)

theorem allText_emitVector (write : Bool) (os : List Printable) :
    AllText (emitVector write os) ↔ AllTextual os := by
  match os with
  | [] => rw [emitVector, allText_emitCstr, AllTextual]; decide
  | o :: os =>
    have hopen : IsAscii (cstr "#(") := by decide
    rw [emitVector, allText_append, allText_append, allText_emitCstr, allText_emit write o,
      allText_emitElements write os, AllTextual]
    tauto
termination_by (sizeOf os, 1)

theorem allText_emitElements (write : Bool) (os : List Printable) :
    AllText (emitElements write os) ↔ AllTextual os := by
  match os with
  | [] => rw [emitElements, allText_emitCstr, AllTextual]; decide
  | o :: os =>
    have hspace : IsAscii (cstr " ") := by decide
    rw [emitElements, allText_append, allText_append, allText_emitCstr, allText_emit write o,
      allText_emitElements write os, AllTextual]
    tauto
termination_by (sizeOf os, 0)

end

end Printable

/-! ### Writing text -/

section Run

variable {M : U8Macros} {u u' : Unknown} {p : ℕ} {h : StringHeap}
  {es : List (Unknown × Emission)} {before copies : List NaviString} {t : List Char}

/-- The character that a string port takes for a byte. -/
def charOf (b : UInt8) : UInt32 := UInt32.ofInt (toChar b.toNat)

theorem scalar?_charOf {b : UInt8} (hb : b.toNat < 128) :
    scalar? (charOf b) = some (Char.ofNat b.toNat) := by
  have hall : ∀ n < 128, scalar? (charOf (UInt8.ofNat n)) = some (Char.ofNat n) := by decide
  simpa using hall b.toNat hb

theorem scalar?_charOf_eq_none {b : UInt8} (hb : ¬ b.toNat < 128) : scalar? (charOf b) = none := by
  have hall : ∀ n < 128, scalar? (charOf (UInt8.ofNat (128 + n))) = none := by decide
  have hlt := b.toNat_lt
  have heq : UInt8.ofNat (128 + (b.toNat - 128)) = b := by
    rw [Nat.add_sub_cancel' (not_lt.mp hb)]
    simp
  rw [← heq]
  exact hall _ (by omega)

theorem word_ofNat {b : UInt8} (hb : b.toNat < 128) :
    Coding.utf8.word (Char.ofNat b.toNat) = [b] := by
  have hch : (Char.ofNat b.toNat).toNat = b.toNat := Utf8.toNat_ofNat_ascii hb
  change String.utf8EncodeChar _ = _
  rw [Utf8.utf8EncodeChar_ascii (by omega), hch]
  simp

/-- **Text goes through**: it is in the string of the port. -/
theorem printAll_spec (hM : M.Standard) (hopen : Opened Coding.utf8 p before t copies h)
    (htext : AllText (es.map Prod.snd))
    (hfit : (Coding.utf8.encode t).length + es.length < 2 ^ 31) :
    ∃ h' cs, printAll (.icu M) p es h = .ok h' ∧ Opened Coding.utf8 p before (t ++ cs) copies h' ∧
      Coding.utf8.encode cs = es.map fun e => e.2.value := by
  induction es generalizing h t with
  | nil => exact ⟨h, [], rfl, by simpa using hopen, rfl⟩
  | cons ue es ih =>
    obtain ⟨u, e⟩ := ue
    cases e with
    | byte b => exact absurd (htext _ List.mem_cons_self) id
    | cstrChar b =>
      have hb : b.toNat < 128 := htext _ List.mem_cons_self
      have hlen : (Coding.utf8.encode (t ++ [Char.ofNat b.toNat])).length =
          (Coding.utf8.encode t).length + 1 := by
        rw [Coding.encode_append, Coding.encode_cons, word_ofNat hb, List.length_append]
        rfl
      rw [List.length_cons] at hfit
      obtain ⟨h₁, hrun, hopen₁⟩ := hopen.write (u := u) hM.implements (scalar?_charOf hb)
        (by omega)
      obtain ⟨h', cs, hrun', hopen', hcs⟩ := ih hopen₁
        (fun e he => htext e (List.mem_cons_of_mem _ he)) (by omega)
      refine ⟨h', Char.ofNat b.toNat :: cs, ?_, ?_, ?_⟩
      · change (h.stringWrite (.icu M) u p (charOf b) >>= printAll (.icu M) p es) = _
        rw [hrun, ok_bind, hrun']
      · rwa [List.append_assoc] at hopen'
      · rw [Coding.encode_cons, word_ofNat hb, hcs]
        rfl

/-- **Nothing else goes through.** -/
theorem printAll_error (hM : M.Standard) (hopen : Opened Coding.utf8 p before t copies h)
    (htext : ¬ (AllText (es.map Prod.snd) ∧
      (Coding.utf8.encode t).length + es.length < 2 ^ 31)) :
    ∃ e, printAll (.icu M) p es h = .error e := by
  induction es generalizing h t with
  | nil =>
    obtain ⟨str, -, hholds, -⟩ := hopen.get
    exact absurd ⟨by simp [AllText], hholds.encode_length_lt⟩ htext
  | cons ue es ih =>
    obtain ⟨u, e⟩ := ue
    cases e with
    | byte b => exact ⟨_, rfl⟩
    | cstrChar b =>
      change ∃ e, (h.stringWrite (.icu M) u p (charOf b) >>= printAll (.icu M) p es) = .error e
      cases hrun : h.stringWrite (.icu M) u p (charOf b) with
      | error e => exact ⟨e, rfl⟩
      | ok h₁ =>
        rw [ok_bind]
        obtain ⟨str, hget, hholds, -⟩ := hopen.get
        by_cases hb : b.toNat < 128
        · have hc := scalar?_charOf hb
          have hlen : (Coding.utf8.encode (t ++ [Char.ofNat b.toNat])).length =
              (Coding.utf8.encode t).length + 1 := by
            rw [Coding.encode_append, Coding.encode_cons, word_ofNat hb, List.length_append]
            rfl
          rcases Nat.lt_or_ge (Coding.utf8.encode (t ++ [Char.ofNat b.toNat])).length (2 ^ 31) with
            hlt | hge
          · obtain ⟨h₂, hrun₂, hopen₂⟩ := hopen.write (u := u) hM.implements hc hlt
            cases hrun.symm.trans hrun₂
            refine ih hopen₂ fun ⟨hall, hfit⟩ => htext ⟨?_, ?_⟩
            · exact List.forall_mem_cons.mpr ⟨hb, hall⟩
            · rw [List.length_cons]
              omega
          · have hfault := stringWrite_fault (u := u) hM.implements hopen.port hget hholds hc
              (by
                rw [word_ofNat hb]
                exact (by decide : 1 < 2 ^ 31)) hge
            cases hrun.symm.trans hfault
        · obtain ⟨c, -, hc, -⟩ := stringWrite_of_holds hM.implements hopen.port hget hholds
            (fun c hc => by
              rw [scalar?_charOf_eq_none hb] at hc
              cases hc) hrun
          rw [scalar?_charOf_eq_none hb] at hc
          cases hc

/-- **What is handed over is printed alike** exactly when it is text and fits in an `int32_t`. -/
theorem printsAlike_iff_allText (hM : M.Standard) (u u' : Unknown)
    (es : List (Unknown × Emission)) (h : StringHeap) :
    PrintsAlike (.icu M) u u' es (es.map fun e => e.2.value) h ↔
      AllText (es.map Prod.snd) ∧ es.length < 2 ^ 31 := by
  obtain ⟨h₁, hnew, hopen⟩ := exists_opened Coding.utf8 u h
  constructor
  · rintro ⟨h', str, copy, cs, hrun, -⟩
    by_contra htext
    obtain ⟨e, herror⟩ := printAll_error hM hopen (by simpa using htext)
    rw [printFresh, hnew, ok_bind, herror] at hrun
    cases hrun
  · rintro ⟨htext, hfit⟩
    obtain ⟨h₂, cs, hprint, hopen₂, hcs⟩ := printAll_spec hM hopen htext (by simpa)
    obtain ⟨h₃, copy, hcopy, hholds, hopen₃⟩ := hopen₂.copy (u := u')
    obtain ⟨str, -, -, hstrings⟩ := hopen₃.get
    refine ⟨h₃, str, copy, cs, ?_, hstrings, hholds, hcs⟩
    rw [printFresh, hnew, ok_bind, hprint, ok_bind, hcopy]

end Run

/-- **Printing an object to a string port** gives what printing it to a file emits exactly when no
symbol (or name of a procedure, macro, special form or parameter) is printed, all strings and
characters are ASCII, and the text has less than `2 ^ 31` bytes. -/
theorem printsAlike_iff {M : U8Macros} (hM : M.Standard) (write : Bool) (o : Printable)
    (u u' : Unknown) {es : List (Unknown × Emission)} (hes : es.map Prod.snd = o.emit write)
    (h : StringHeap) :
    PrintsAlike (.icu M) u u' es (fileText write o) h ↔
      o.Textual ∧ (fileText write o).length < 2 ^ 31 := by
  have htext : fileText write o = es.map fun e => e.2.value := by
    rw [fileText, ← hes, List.map_map]
    rfl
  rw [htext, printsAlike_iff_allText hM, hes, Printable.allText_emit, List.length_map]

theorem printsAlike_iff_five :
    PrintsAlike (.icu utf8Macros) zeroMemory zeroMemory [(zeroMemory, .cstrChar 53)]
        (fileText true (.fixnum 5)) ⟨[], []⟩ ↔
      (Printable.fixnum 5).Textual ∧ (fileText true (.fixnum 5)).length < 2 ^ 31 :=
  printsAlike_iff utf8Macros_standard true (.fixnum 5) zeroMemory zeroMemory
    (by rw [Printable.emit]; decide) ⟨[], []⟩

/-- **The symbol `a` is not printed to a string port.** -/
theorem not_printsAlike_symbol :
    (Printable.symbol [97]).emit true = [.byte 97] ∧
      ¬ PrintsAlike (.icu utf8Macros) zeroMemory zeroMemory [(zeroMemory, .byte 97)]
        (fileText true (.symbol [97])) ⟨[], []⟩ := by
  refine ⟨by rw [Printable.emit]; decide, ?_⟩
  rintro ⟨h', str, copy, cs, hrun, -⟩
  obtain ⟨h₁, hnew, -⟩ := exists_opened Coding.utf8 zeroMemory ⟨[], []⟩
  rw [printFresh, hnew, ok_bind] at hrun
  cases hrun

end NaviScheme
