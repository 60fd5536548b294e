import Mathlib.Data.List.Basic
import NaviScheme.Lib.Utf8

/-!
# Data

The objects that the reader makes and the printer prints, as trees (`NaviScheme.Datum`):
the reader allocates every object that it returns, so that which object it is does not
matter, and `equal?` (`NaviScheme.naviEqualp`) does not ask. A symbol is its name, since
`navi_make_symbol` makes one symbol of each name.

The numbers that C truncates are integers here, with the truncations of a machine whose
`long` has 64 bits and whose `char` has 8 and a sign.
-/

namespace NaviScheme

/-- `navi_obj`, as a tree. -/
inductive Datum
  | void
  | nil
  | eof
  | fixnum (n : ℤ)
  | bool (b : Bool)
  | char (c : ℤ)
  | pair (car cdr : Datum)
  /-- the bytes before `size`, and `length` -/
  | string (data : List UInt8) (length : ℕ)
  | symbol (name : List UInt8)
  | vector (data : List Datum)
  | bytevec (data : List UInt8)
  deriving Repr

/-- What `navi_error` and its variants are called with. -/
structure NaviError where
  /-- the name of the symbol that tells errors apart -/
  type : String
  /-- the message -/
  msg : String
  /-- the irritants, each with its name -/
  irritants : List (String × Datum)
  deriving Repr

/-- What goes wrong otherwise. -/
inductive ReadFault
  /-- An assertion fails. -/
  | assertion
  /-- A byte is written behind the end of what was allocated. -/
  | overflow
  /-- More steps are needed. -/
  | timeout
  deriving DecidableEq, Repr

/-- How a function of the reader or the printer is left otherwise. -/
inductive ReadExn
  | error (e : NaviError)
  | fault (φ : ReadFault)
  deriving Repr

/-- `navi_error` -/
def internalError (msg : String) (irritants : List (String × Datum)) : ReadExn :=
  .error ⟨"#internal-error", msg, irritants⟩

/-- `navi_read_error` -/
def naviReadError (msg : String) (irritants : List (String × Datum)) : ReadExn :=
  .error ⟨"#read-error", msg, irritants⟩

/-- `navi_utf8_error` -/
def naviUtf8Error (msg : String) : ReadExn := .error ⟨"#utf8-error", msg, []⟩

/-- A text of the source, as bytes. -/
def cstr (s : String) : List UInt8 := Utf8.encode s.toList

/-- The number that the shifts of `navi_make_fixnum` and `navi_fixnum` leave of a `long`. -/
def fixnumBits (n : ℤ) : ℤ := Int.bmod n (2 ^ 63)

/-- `navi_make_fixnum` -/
def naviMakeFixnum (num : ℤ) : Datum := .fixnum (fixnumBits num)

/-- The conversion to `char`. -/
def toChar (c : ℤ) : ℤ := Int.bmod c (2 ^ 8)

/-- The conversion to `int32_t`. -/
def toInt32 (c : ℤ) : ℤ := Int.bmod c (2 ^ 32)

/-- The conversion to `long`. -/
def toLong (n : ℤ) : ℤ := Int.bmod n (2 ^ 64)

/-- The conversion to `unsigned char`. -/
def toByte (c : ℤ) : UInt8 := UInt8.ofNat (c % 256).toNat

/-- `EOF` -/
def eofValue : ℤ := -1

namespace Datum

/-- `navi_strtype` of the type of an object -/
def strtype : Datum → String
  | .void => "void"
  | .nil => "nil"
  | .eof => "eof-object"
  | .fixnum _ => "number"
  | .bool _ => "boolean"
  | .char _ => "character"
  | .pair _ _ => "pair"
  | .string _ _ => "string"
  | .symbol _ => "symbol"
  | .vector _ => "vector"
  | .bytevec _ => "bytevector"

/-- The symbol with a name of the source. -/
def sym (s : String) : Datum := .symbol (cstr s)

/-- A list: its elements, and what ends it. -/
def listTail : List Datum → Datum → Datum
  | [], last => last
  | d :: ds, last => .pair d (listTail ds last)

/-- What `navi_list_for_each` goes through. -/
def elements : Datum → List Datum
  | .pair car cdr => car :: elements cdr
  | _ => []

@[simp] theorem elements_listTail_nil (ds : List Datum) : (listTail ds .nil).elements = ds := by
  induction ds with
  | nil => rfl
  | cons d ds ih => simp [listTail, elements, ih]

end Datum

/-! ### `equal?` -/

mutual

/-- `navi_equalp`; `list_equal` goes down the two lists as this definition does. -/
def naviEqualp : Datum → Datum → Bool
  | .void, .void | .nil, .nil | .eof, .eof => true
  | .fixnum m, .fixnum n => m == n
  | .bool b, .bool c => b == c
  | .char c, .char d => c == d
  | .symbol s, .symbol t => s == t
  | .pair car cdr, .pair car' cdr' => naviEqualp car car' && naviEqualp cdr cdr'
  | .vector ds, .vector es => vectorEqual ds es
  | .string bs l, .string bs' l' => l == l' && bs == bs'
  | .bytevec bs, .bytevec bs' => bs == bs'
  | _, _ => false

/-- `vector_equal` -/
def vectorEqual : List Datum → List Datum → Bool
  | [], [] => true
  | d :: ds, e :: es => naviEqualp d e && vectorEqual ds es
  | _, _ => false

end

mutual

theorem naviEqualp_refl : ∀ d : Datum, naviEqualp d d = true
  | .void | .nil | .eof => rfl
  | .fixnum _ | .bool _ | .char _ | .symbol _ | .string _ _ | .bytevec _ => by simp [naviEqualp]
  | .pair car cdr => by
    rw [naviEqualp, naviEqualp_refl car, naviEqualp_refl cdr]
    rfl
  | .vector ds => by
    rw [naviEqualp]
    exact vectorEqual_refl ds

theorem vectorEqual_refl : ∀ ds : List Datum, vectorEqual ds ds = true
  | [] => rfl
  | d :: ds => by
    rw [vectorEqual, naviEqualp_refl d, vectorEqual_refl ds]
    rfl

end

/-! ### Numbers -/

theorem fixnumBits_of_lt {n : ℤ} (h : -2 ^ 62 ≤ n) (h' : n < 2 ^ 62) : fixnumBits n = n := by
  exact Int.bmod_eq_of_le (by omega) (by omega)

theorem toChar_of_lt {c : ℤ} (h : -128 ≤ c) (h' : c < 128) : toChar c = c := by
  exact Int.bmod_eq_of_le (by omega) (by omega)

theorem toLong_of_lt {n : ℤ} (h : -2 ^ 63 ≤ n) (h' : n < 2 ^ 63) : toLong n = n := by
  exact Int.bmod_eq_of_le (by omega) (by omega)

theorem toByte_toNat (b : UInt8) : toByte b.toNat = b := by
  have := b.toNat_lt
  have h : ((b.toNat : ℤ) % 256).toNat = b.toNat := by omega
  rw [toByte, h]
  simp

end NaviScheme
