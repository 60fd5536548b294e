import NaviScheme.Reader.Port

/-!
# The reader

The functions of `read.c`. Those that loop take a bound on the number of their steps; a
text that a port can deliver is finite, so that the bound is met
(`NaviScheme.naviRead_naviPortWrite`).

Characters are numbers, as in the source, where some of the functions keep them in a `char`
(`NaviScheme.toChar`) and some do not.
-/

namespace NaviScheme

/-- What the reader uses and is not read here: the table of the code points that are
defined, and the internal bindings of the interpreter. -/
structure ReadEnv where
  /-- `u_isdefined` -/
  uIsdefined : ℤ → Bool
  /-- `navi_get_internal` -/
  naviGetInternal : Datum → Except ReadExn Datum

/-! ### Characters -/

/-- The code of a character. -/
abbrev ascii (c : Char) : ℤ := c.toNat

/-- The double quote. -/
def doubleQuote : ℤ := 0x22

/-- The backslash. -/
def backslash : ℤ := 0x5C

/-- The newline. -/
def newline : ℤ := 0xA

/-- `isspace` -/
def isspace (c : ℤ) : Bool := c = 0x20 ∨ 9 ≤ c ∧ c ≤ 0xD

/-- `isdigit` -/
def isdigit (c : ℤ) : Bool := ascii '0' ≤ c ∧ c ≤ ascii '9'

/-- `isxdigit` -/
def isxdigit (c : ℤ) : Bool :=
  isdigit c ∨ ascii 'a' ≤ c ∧ c ≤ ascii 'f' ∨ ascii 'A' ≤ c ∧ c ≤ ascii 'F'

/-- `isodigit` -/
def isodigit (c : ℤ) : Bool := ascii '0' ≤ c ∧ c < ascii '8'

/-- `isbdigit` -/
def isbdigit (c : ℤ) : Bool := c = ascii '0' ∨ c = ascii '1'

/-- `tolower` -/
def tolower (c : ℤ) : ℤ := if ascii 'A' ≤ c ∧ c ≤ ascii 'Z' then c + 32 else c

/-- `unexpected_eof` -/
def unexpectedEof : ReadExn := naviReadError "unexpected end of file" []

/-- `ispipe` -/
def ispipe (c : ℤ) : Except ReadExn Bool :=
  if c = eofValue then .error unexpectedEof else .ok (c = ascii '|')

/-- `isterminal` -/
def isterminal (c : ℤ) : Bool := isspace c ∨ c = ascii '(' ∨ c = ascii ')' ∨ c = eofValue

/-- `decimal_value` -/
def decimalValue (c : ℤ) : Except ReadExn ℤ := .ok (c - ascii '0')

/-- `hex_value` -/
def hexValue (c : ℤ) : Except ReadExn ℤ :=
  if isdigit c then .ok (c - ascii '0')
  else if ascii 'a' ≤ c ∧ c ≤ ascii 'f' then .ok (c - ascii 'a' + 10)
  else if ascii 'A' ≤ c ∧ c ≤ ascii 'F' then .ok (c - ascii 'A' + 10)
  else .error (naviReadError "invalid hex digit" [("digit", .char c)])

/-! ### The port -/

/-- More steps are needed. -/
def timeout {α : Type} : ReadM α := throw (.fault .timeout)

/-- `handle_case`, on the bytes of a C string -/
def handleCase (str : List UInt8) : ReadM (List UInt8) := do
  if ← naviPortIsFoldCase then return str.map fun b => toByte (tolower (toChar b.toNat))
  else return str

/-- `peek_char` -/
def peekChar : ReadM ℤ := do
  match ← naviPortPeekChar with
  | .char c => return c
  | _ => return eofValue

/-- `ipeek_char` -/
def ipeekChar : ReadM ℤ := do
  let c ← peekChar
  if c = eofValue then throw unexpectedEof else return c

/-- `read_char` -/
def readChar : ReadM ℤ := do
  match ← naviPortReadChar with
  | .char c => return c
  | _ => return eofValue

/-- `iread_char` -/
def ireadChar : ReadM ℤ := do
  let c ← readChar
  if c = eofValue then throw unexpectedEof else return c

/-- `peek_first_char` -/
def peekFirstChar : ℕ → ReadM ℤ
  | 0 => timeout
  | n + 1 => do
    let c ← peekChar
    if isspace c then do
      let _ ← readChar
      peekFirstChar n
    else return c

/-- `ipeek_first_char` -/
def ipeekFirstChar (n : ℕ) : ReadM ℤ := do
  let c ← peekFirstChar n
  if c = eofValue then throw unexpectedEof else return c

/-- A loop that reads until a character is `c`; `orEof` is `consume_line`'s. -/
def skipUntil (c : ℤ) (orEof : Bool) : ℕ → ReadM Unit
  | 0 => timeout
  | n + 1 => do
    let d ← if orEof then readChar else ireadChar
    if d = c ∨ d = eofValue then return () else skipUntil c orEof n

/-- `consume_line` -/
def consumeLine (n : ℕ) : ReadM Unit := skipUntil newline true n

/-! ### Numbers -/

/-- The loop of `read_unum`. -/
def readUnum (radix : ℤ) (ctype : ℤ → Bool) (tonum : ℤ → Except ReadExn ℤ) : ℕ → ℤ → ReadM ℤ
  | 0, _ => timeout
  | k + 1, n => do
    let c ← peekChar
    if ctype (toChar c) then do
      let d ← tonum (toChar c)
      let _ ← readChar
      readUnum radix ctype tonum k ((n * radix + d) % 2 ^ 64)
    else return n

/-- `read_num` -/
def readNum (radix : ℤ) (ctype : ℤ → Bool) (tonum : ℤ → Except ReadExn ℤ) (k : ℕ) : ReadM ℤ := do
  let c ← peekChar
  if toChar c = ascii '-' then do
    let _ ← readChar
    let n ← readUnum radix ctype tonum k 0
    return toLong (-n)
  else if toChar c = ascii '+' then do
    let _ ← readChar
    let n ← readUnum radix ctype tonum k 0
    return toLong n
  else do
    let n ← readUnum radix ctype tonum k 0
    return toLong n

/-- `read_decimal` -/
def readDecimal (k : ℕ) : ReadM ℤ := do
  return fixnumBits (← readNum 10 isdigit decimalValue k)

/-- `read_hex` -/
def readHex (k : ℕ) : ReadM ℤ := do return fixnumBits (← readNum 16 isxdigit hexValue k)

/-- `read_octal` -/
def readOctal (k : ℕ) : ReadM ℤ := do return fixnumBits (← readNum 8 isodigit decimalValue k)

/-- `read_binary` -/
def readBinary (k : ℕ) : ReadM ℤ := do return fixnumBits (← readNum 2 isbdigit decimalValue k)

/-! ### Strings and symbols -/

/-- `U8_LENGTH` -/
def u8Length (c : ℤ) : ℤ :=
  if c < 0 then 0
  else if c ≤ 0x7F then 1
  else if c ≤ 0x7FF then 2
  else if c ≤ 0xD7FF then 3
  else if c ≤ 0xDFFF ∨ 0x10FFFF < c then 0
  else if c ≤ 0xFFFF then 3
  else 4

/-- `u8_append` behind the bytes of `data`, which has been allocated with one byte more than
`capacity`. A code point of one byte is written without a check. -/
def u8Append (data : List UInt8) (capacity c : ℤ) : Except ReadExn (List UInt8) :=
  if u8Length c = 1 then
    if data.length ≤ capacity then .ok (data ++ String.utf8EncodeChar (Char.ofNat c.toNat))
    else .error (.fault .overflow)
  else if u8Length c ≠ 0 ∧ data.length + u8Length c ≤ capacity then
    .ok (data ++ String.utf8EncodeChar (Char.ofNat c.toNat))
  else .error (.fault .assertion)

/-- `navi_string_grow_storage`: the capacity. -/
def growStorage (capacity size need : ℤ) : ℤ :=
  if capacity - size > need then capacity else capacity + (need - (capacity - size))

/-- The loop of `read_until`, whose buffer grows before it is full. The callers look at what
comes before the first NUL. -/
def readUntil (ctype : ℤ → Except ReadExn Bool) : ℕ → List UInt8 → ReadM (List UInt8)
  | 0, _ => timeout
  | n + 1, str => do
    let c ← peekChar
    if ← ctype c then return str.takeWhile (· ≠ 0)
    else do
      let _ ← readChar
      if c > 0xFF then do
        let str ← u8Append str (str.length + 4) c
        readUntil ctype n str
      else readUntil ctype n (str ++ [toByte c])

/-- `read_until(port, isterminal, env)` -/
def readUntilTerminal (n : ℕ) : ReadM (List UInt8) := readUntil (fun c => .ok (isterminal c)) n []

/-- The loop of `read_string_escape` after a space. -/
def skipSpaces : ℕ → ReadM ℤ
  | 0 => timeout
  | n + 1 => do
    let c ← ireadChar
    if isspace c then skipSpaces n else return c

/-- `read_string_escape` -/
def readStringEscape (X : ReadEnv) (n : ℕ) : ReadM ℤ := do
  let c ← ireadChar
  if c = ascii 'a' then return 0x7
  else if c = ascii 'b' then return 0x8
  else if c = ascii 't' then return 0x9
  else if c = ascii 'n' then return 0xA
  else if c = ascii 'r' then return 0xD
  else if c = doubleQuote ∨ c = backslash ∨ c = ascii '|' then return c
  else if isspace c then skipSpaces n
  else if c = ascii 'x' then do
    let u ← readUnum 16 isxdigit hexValue n 0
    let d ← ipeekChar
    if d = ascii ';' then do
      let _ ← readChar
      return if X.uIsdefined (toInt32 u) then toInt32 u else ascii '?'
    else return if X.uIsdefined (toInt32 u) then toInt32 u else ascii '?'
  else throw (naviReadError "unknown string escape" [("char", .char c)])

/-- `STR_BUF_LEN` -/
def strBufLen : ℤ := 64

/-- `STR_BUF_STEP` -/
def strBufStep : ℤ := 64

/-- The loop of `read_string`. The bytes that have been written are `data`; `size` is 0 until
the end. -/
def readStringLoop (X : ReadEnv) : ℕ → List UInt8 → ℕ → ℤ → ReadM Datum
  | 0, _, _, _ => timeout
  | n + 1, data, length, capacity => do
    let c ← ireadChar
    if c = doubleQuote then
      if data.length ≤ capacity then return .string data length else throw (.fault .overflow)
    else do
      let c ← if c = backslash then readStringEscape X n else pure c
      let capacity :=
        if data.length + u8Length c ≥ capacity then growStorage capacity 0 strBufStep else capacity
      let data ← u8Append data capacity c
      readStringLoop X n data (length + 1) capacity

/-- `read_string` -/
def readString (X : ReadEnv) (n : ℕ) : ReadM Datum := readStringLoop X n [] 0 strBufLen

/-- `read_symbol` -/
def readSymbol (stop : ℤ → Except ReadExn Bool) (n : ℕ) : ReadM Datum := do
  return .symbol (← handleCase (← readUntil stop n []))

/-- `read_symbol_with_prefix`, with `isterminal` -/
def readSymbolWithPrefix (first : ℤ) (n : ℕ) : ReadM Datum := do
  return .symbol (toByte first :: (← handleCase (← readUntilTerminal n)))

/-! ### Characters -/

/-- `named_chars` -/
def namedChars : List (String × ℤ) :=
  [("alarm", 0x7), ("backspace", 0x8), ("delete", 0x7F), ("escape", 0x1B), ("newline", 0xA),
    ("null", 0), ("return", 0xD), ("space", 0x20), ("tab", 0x9)]

/-- `navi_char_name` -/
def naviCharName (value : ℤ) : Option String :=
  (namedChars.find? fun e => e.2 = value).map Prod.fst

/-- The loop of `read_character` over the digits. -/
def hexDigits : List UInt8 → ℤ → Except ReadExn ℤ
  | [], ch => .ok ch
  | b :: str, ch =>
    if isxdigit (toChar b.toNat) then do
      hexDigits str (toInt32 (ch * 16 + (← hexValue (toChar b.toNat))))
    else .ok ch

/-- `read_character` -/
def readCharacter (X : ReadEnv) (n : ℕ) : ReadM Datum := do
  let str ← readUntilTerminal n
  match str with
  | [b] => return .char (toChar b.toNat)
  | str => do
    let str ← handleCase str
    if str.head? = some (toByte (ascii 'x')) then do
      let ch ← hexDigits str.tail 0
      if X.uIsdefined ch then return .char ch
      else throw (naviReadError "invalid character literal" [("value", naviMakeFixnum ch)])
    else
      match namedChars.find? fun e => cstr e.1 = str with
      | some e => return .char e.2
      | none =>
        throw (naviReadError "unknown named character" [("name", .string str str.length)])

/-! ### Sharp syntax -/

/-- `read_sharp_bang` -/
def readSharpBang (n : ℕ) : ReadM Datum := do
  let str ← readUntilTerminal n
  if str.head? = some (toByte (ascii '/')) then do
    skipUntil newline false n
    return .void
  else if str = [] then do
    consumeLine n
    return .void
  else if str = cstr "eof" then return .eof
  else if str = cstr "fold-case" then do
    naviPortFoldCase true
    return .void
  else if str = cstr "no-fold-case" then do
    naviPortFoldCase false
    return .void
  else
    throw (naviReadError "unknown shebang directive" [("directive", .string str str.length)])

/-- `read_boolean`; the buffer has room for four characters more. -/
def readBoolean (fst : ℤ) (n : ℕ) : ReadM Datum := do
  let str ← readUntilTerminal n
  let buf := toByte fst :: str.take 4
  if buf = cstr "t" ∨ buf = cstr "true" then return .bool true
  else if buf = cstr "f" ∨ buf = cstr "false" then return .bool false
  else throw (naviReadError "invalid # syntax" [])

/-- The loop of `read_sharp` in a block comment. -/
def blockComment : ℕ → ReadM Unit
  | 0 => timeout
  | n + 1 => do
    skipUntil (ascii '|') false n
    let c ← ireadChar
    if c = ascii '#' then return () else blockComment n

/-- `navi_type_check_byte` -/
def typeCheckByte : Datum → Except ReadExn UInt8
  | .fixnum n =>
    if 0 ≤ n ∧ n < 256 then .ok (toByte n)
    else .error (internalError "argument not in allowed range"
      [("min", naviMakeFixnum 0), ("max", naviMakeFixnum 256), ("actual", .fixnum n)])
  | d => .error (internalError "type error"
      [("expected", .sym "number"), ("actual", .sym d.strtype)])

/-- `navi_list_to_bytevec` -/
def naviListToBytevec (list : Datum) : Except ReadExn Datum := do
  return .bytevec (← list.elements.mapM typeCheckByte)

/-- `navi_sym_wrap` -/
def naviSymWrap (symbol : String) (expr : Datum) : Datum := Datum.listTail [.sym symbol, expr] .nil

/-- `navi_type(expr) == NAVI_VOID` -/
def Datum.isVoid : Datum → Bool
  | .void => true
  | _ => false

/-- `navi_is_eof` -/
def Datum.isEof : Datum → Bool
  | .eof => true
  | _ => false

variable (X : ReadEnv)

mutual

/-- `navi_read` -/
def naviRead : ℕ → ReadM Datum
  | 0 => timeout
  | n + 1 => do
    let c ← peekFirstChar n
    if isdigit c then do
      let v ← readDecimal n
      return .fixnum v
    else if c = doubleQuote then do
      let _ ← readChar
      readString X n
    else if c = 0x27 then do
      let _ ← readChar
      let expr ← naviRead n
      return naviSymWrap "quote" expr
    else if c = 0x60 then do
      let _ ← readChar
      let expr ← naviRead n
      return naviSymWrap "quasiquote" expr
    else if c = ascii ',' then do
      let _ ← readChar
      let c ← ipeekChar
      if c = ascii '@' then do
        let _ ← readChar
        let expr ← naviRead n
        return naviSymWrap "unquote-splice" expr
      else do
        let expr ← naviRead n
        return naviSymWrap "unquote" expr
    else if c = ascii '#' then do
      let _ ← readChar
      let expr ← readSharp n
      if expr.isVoid then naviRead n else return expr
    else if c = ascii '(' then do
      let _ ← readChar
      readList n []
    else if c = ascii ')' then do
      let _ ← readChar
      throw (naviReadError "unexpected character" [("character", .char c)])
    else if c = ascii ';' then do
      consumeLine n
      naviRead n
    else if c = eofValue then return .eof
    else if c = ascii '|' then do
      let _ ← readChar
      let expr ← readSymbol ispipe n
      let _ ← readChar
      return expr
    else if c = ascii '+' ∨ c = ascii '-' then do
      let _ ← readChar
      let d ← peekChar
      if isdigit d then do
        let v ← readDecimal n
        return naviMakeFixnum (v * if c = ascii '+' then 1 else -1)
      else readSymbolWithPrefix c n
    else readSymbol (fun c => .ok (isterminal c)) n

/-- `read_sharp` -/
def readSharp : ℕ → ReadM Datum
  | 0 => timeout
  | n + 1 => do
    let c := toChar (← ireadChar)
    if c = ascii 't' ∨ c = ascii 'f' then readBoolean c n
    else if c = backslash then readCharacter X n
    else if c = ascii '(' then do
      let list ← readList n []
      return .vector list.elements
    else if c = ascii 'u' then do
      let d ← ireadChar
      if toChar d ≠ ascii '8' then
        throw (naviReadError "unknown disciminator" [("discriminator", .char c)])
      else do
        let d ← ireadChar
        if toChar d ≠ ascii '(' then
          throw (naviReadError "unknown disciminator" [("discriminator", .char c)])
        else do
          let list ← readList n []
          naviListToBytevec list
    else if c = ascii 'b' then return .fixnum (← readBinary n)
    else if c = ascii 'o' then return .fixnum (← readOctal n)
    else if c = ascii 'x' then return .fixnum (← readHex n)
    else if c = ascii '!' then readSharpBang n
    else if c = ascii '#' then do
      let symbol ← naviRead n
      X.naviGetInternal symbol
    else if c = ascii ';' then do
      let _ ← naviRead n
      return .void
    else if c = ascii '|' then do
      blockComment n
      return .void
    else if c = ascii '/' then do
      skipUntil newline false n
      return .void
    else throw (naviReadError "unknown disciminator" [("discriminator", .char c)])

/-- The loop of `read_list`, with the elements that have been read. -/
def readList : ℕ → List Datum → ReadM Datum
  | 0, _ => timeout
  | n + 1, elms => do
    let c := toChar (← ipeekFirstChar n)
    if c = ascii ')' then do
      let _ ← readChar
      return Datum.listTail elms .nil
    else if c = ascii '.' then do
      let _ ← readChar
      let c := toChar (← ipeekChar)
      if isterminal c then do
        let last ← naviRead n
        let c ← peekFirstChar n
        if toChar c = ascii ')' then do
          let _ ← readChar
          return Datum.listTail elms last
        else throw (naviReadError "missing list terminator" [])
      else do
        let expr ← readSymbolWithPrefix (ascii '.') n
        readList n (elms ++ [expr])
    else if c = ascii '#' then do
      let _ ← readChar
      let expr ← readSharp n
      if expr.isVoid then readList n elms else readList n (elms ++ [expr])
    else if c = ascii ';' then do
      consumeLine n
      readList n elms
    else do
      let expr ← naviRead n
      if expr.isEof then throw unexpectedEof else readList n (elms ++ [expr])

end

end NaviScheme
