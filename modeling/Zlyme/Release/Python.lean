import Zlyme.Foundation.Result

/-! # Python values

What `zlyme_release.py` and `github-release.py` use of Python: the values that
`json` reads, their tests and conversions, and the text functions.
-/

namespace Zlyme.Release

open Foundation

/-- The code points of a `str`. -/
abbrev Text : Type :=
  List Char

/-- The exceptions that the scripts raise or let through. -/
inductive PyError
  | releaseError (message : String)
  /-- `ReleaseError("invalid version %r" % raw)` -/
  | invalidVersion (raw : Text)
  | attributeError
  | keyError
  | typeError
  | valueError
  deriving DecidableEq, Repr

/-! ## Text -/

/-- `str.isspace` of one character. -/
def isSpace (char : Char) : Bool :=
  let code := char.toNat
  (0x9 ≤ code && code ≤ 0xd) || (0x1c ≤ code && code ≤ 0x20) || code == 0x85 || code == 0xa0 ||
    code == 0x1680 || (0x2000 ≤ code && code ≤ 0x200a) || code == 0x2028 || code == 0x2029 ||
    code == 0x202f || code == 0x205f || code == 0x3000

/-- `str.rstrip()`. -/
def rstrip (text : Text) : Text :=
  (text.reverse.dropWhile isSpace).reverse

/-- `str.strip()`. -/
def strip (text : Text) : Text :=
  rstrip (text.dropWhile isSpace)

/-- `str.lower()`, for the text of a hash: ASCII. -/
def lower (text : Text) : Text :=
  text.map Char.toLower

/-! ## Digits -/

/-- The zeros of the decimal digits of Unicode; each has the other nine after it. -/
def decimalZeros : List Nat :=
  [0x30, 0x660, 0x6f0, 0x7c0, 0x966, 0x9e6, 0xa66, 0xae6, 0xb66, 0xbe6, 0xc66, 0xce6, 0xd66,
    0xde6, 0xe50, 0xed0, 0xf20, 0x1040, 0x1090, 0x17e0, 0x1810, 0x1946, 0x19d0, 0x1a80, 0x1a90,
    0x1b50, 0x1bb0, 0x1c40, 0x1c50, 0xa620, 0xa8d0, 0xa900, 0xa9d0, 0xa9f0, 0xaa50, 0xabf0,
    0xff10, 0x104a0, 0x10d30, 0x11066, 0x110f0, 0x11136, 0x111d0, 0x112f0, 0x11450, 0x114d0,
    0x11650, 0x116c0, 0x11730, 0x118e0, 0x11950, 0x11c50, 0x11d50, 0x11da0, 0x16a60, 0x16ac0,
    0x16b50, 0x1d7ce, 0x1d7d8, 0x1d7e2, 0x1d7ec, 0x1d7f6, 0x1e140, 0x1e2f0, 0x1e950, 0x1fbf0]

/-- The ranges of the digits that are not decimal, such as superscripts. -/
def digitRanges : List (Nat × Nat) :=
  [(0xb2, 0xb3), (0xb9, 0xb9), (0x1369, 0x1371), (0x19da, 0x19da), (0x2070, 0x2070),
    (0x2074, 0x2079), (0x2080, 0x2089), (0x2460, 0x2468), (0x2474, 0x247c), (0x2488, 0x2490),
    (0x24ea, 0x24ea), (0x24f5, 0x24fd), (0x24ff, 0x24ff), (0x2776, 0x277e), (0x2780, 0x2788),
    (0x278a, 0x2792), (0x10a40, 0x10a43), (0x10e60, 0x10e68), (0x11052, 0x1105a),
    (0x1f100, 0x1f10a)]

def decimal (char : Char) : Option Nat :=
  (decimalZeros.find? fun base => base ≤ char.toNat && char.toNat < base + 10).map
    fun base => char.toNat - base

/-- `str.isdigit` of one character. -/
def isDigitChar (char : Char) : Bool :=
  (decimal char).isSome ||
    digitRanges.any fun range => range.1 ≤ char.toNat && char.toNat ≤ range.2

/-- `str.isdigit()`. -/
def isDigit (text : Text) : Bool :=
  !text.isEmpty && text.all isDigitChar

/-- The digits of a number, with single underscores between them. -/
def digitValues : Text → Option (List Nat)
  | [] => none
  | [char] => (decimal char).map ([·])
  | char :: '_' :: rest => do return (← decimal char) :: (← digitValues rest)
  | char :: rest => do return (← decimal char) :: (← digitValues rest)

/-- The longest number that `int` reads, `sys.int_info.default_max_str_digits`. -/
def maxStrDigits : Nat := 4300

/-- `int(text)` without its sign. -/
def natOfText (text : Text) : Except PyError Nat :=
  match digitValues text with
  | none => .error .valueError
  | some digits =>
      if maxStrDigits < digits.length then .error .valueError
      else .ok (digits.foldl (fun number digit => 10 * number + digit) 0)

/-- `int(text)`. -/
def intOfText (text : Text) : Except PyError Int :=
  match strip text with
  | '-' :: digits => (natOfText digits).map fun number => -(number : Int)
  | '+' :: digits => (natOfText digits).map Int.ofNat
  | digits => (natOfText digits).map Int.ofNat

/-! ## Values -/

inductive Value
  | none
  | bool (value : Bool)
  | int (value : Int)
  /-- A float, or nothing for NaN and the infinities. -/
  | float (value : Option Rat)
  | str (value : Text)
  | list (values : List Value)
  | dict (fields : List (String × Value))

namespace Value

def truthy : Value → Bool
  | none => false
  | bool value => value
  | int value => value != 0
  | float value => value != some 0
  | str value => !value.isEmpty
  | list values => !values.isEmpty
  | dict fields => !fields.isEmpty

/-- `value or ""`. -/
def orEmpty (value : Value) : Value :=
  if value.truthy then value else .str []

/-- `value == number`. -/
def isNumber (value : Value) (number : Int) : Bool :=
  match value with
  | bool true => number == 1
  | bool false => number == 0
  | int value => value == number
  | float value => value == some (number : Rat)
  | _ => false

/-- `value == text`. -/
def isText (value : Value) (text : Text) : Bool :=
  match value with
  | str value => value == text
  | _ => false

def isDict : Value → Bool
  | dict _ => true
  | _ => false

/-- `value.get(key)` of a dictionary. -/
def get (value : Value) (key : String) : Value :=
  match value with
  | dict fields => (fields.lookup key).getD none
  | _ => none

/-- `int(value)`. -/
def toInt : Value → Except PyError Int
  | bool value => .ok (if value then 1 else 0)
  | int value => .ok value
  | float (some value) => .ok (value.num.tdiv value.den)
  | float Option.none => .error .valueError
  | str value => intOfText value
  | _ => .error .typeError

/-- The items of a `for` loop over a value. -/
def items : Value → Except PyError (List Value)
  | list values => .ok values
  | dict fields => .ok (fields.map fun entry => .str entry.1.toList)
  | str value => .ok (value.map fun char => .str [char])
  | _ => .error .typeError

theorem orEmpty_str (text : Text) : (Value.str text).orEmpty = .str text := by
  cases text <;> rfl

end Value

/-- What `str` makes of a float, a list or a dictionary, which is never digits alone. -/
structure Python where
  repr : Value → Text
  repr_not_digits : ∀ value, isDigit (repr value) = false

/-- `str(value)`. -/
def Python.str (python : Python) : Value → Except PyError Text
  | .none => .ok "None".toList
  | .bool value => .ok (if value then "True".toList else "False".toList)
  | .int value =>
      if maxStrDigits < (Nat.toDigits 10 value.natAbs).length then .error .valueError
      else .ok (toString value).toList
  | .str value => .ok value
  | value => .ok (python.repr value)

/-! ## Versions -/

/-- `[1-9][0-9]*` at the start, and what follows it. -/
def number (text : Text) : Option (Text × Text) :=
  let digits := text.takeWhile Char.isDigit
  if digits.isEmpty || digits.head? == some '0' then none
  else some (digits, text.dropWhile Char.isDigit)

/-- The groups of `^zlyme([1-9][0-9]*)(?:\.([1-9][0-9]*))?$`. -/
def matchVersion (text : Text) : Option (Text × Option Text) :=
  match text with
  | 'z' :: 'l' :: 'y' :: 'm' :: 'e' :: text =>
      match number text with
      | some (major, []) => some (major, none)
      | some (major, '.' :: text) =>
          match number text with
          | some (minor, []) => some (major, some minor)
          | _ => none
      | _ => none
  | _ => none

/-- The major and the minor number; a baseline has no minor number. -/
def parseVersion (text : Value) : Except PyError (Int × Option Int) := do
  match text.orEmpty with
  | .str text =>
      match matchVersion (strip text) with
      | none => throw (.invalidVersion (strip text))
      | some (major, minor) =>
          let major ← intOfText major
          match minor with
          | none => return (major, none)
          | some minor => return (major, some (← intOfText minor))
  | _ => throw .attributeError

end Zlyme.Release
