import Zlyme.Foundation.Decimal
import Zlyme.Foundation.Result
import Zlyme.Foundation.Text
import Zlyme.Gamepad.Calibration
import Mathlib.Data.List.DropRight

/-! # The stick files

The calibration and deadzone files as the settings application reads and writes
them, as `zlyme-gamepad-cal` reads them at boot, and the lines both send to the
driver. A C text is the bytes before its first NUL.
-/

namespace Zlyme.Gamepad

open Foundation Foundation.Decimal Foundation.Text

/-- The bytes of an ASCII literal. -/
def ascii (literal : String) : List UInt8 :=
  literal.toList.map Char.toUInt8

/-! ## Configurations -/

def calDeadband : Int := 2

/-- `cal_cfg` -/
structure CalCfg where
  xMin : Int
  xMax : Int
  xZero : Int
  yMin : Int
  yMax : Int
  yZero : Int
  deriving DecidableEq, Repr

def calCenterOk (min zero max : Int) : Int :=
  if min < 0 ∨ zero < 0 ∨ max < 0 ∨ 255 < min ∨ 255 < zero ∨ 255 < max then -1
  else if ¬(min < zero ∧ zero < max) then -1
  else if zero - min ≤ calDeadband ∨ max - zero ≤ calDeadband then -1
  else 0

def calCfgOk (cfg : CalCfg) : Int :=
  if calCenterOk cfg.xMin cfg.xZero cfg.xMax ≠ 0 then -1
  else if calCenterOk cfg.yMin cfg.yZero cfg.yMax ≠ 0 then -1
  else 0

/-- The result of `snprintf` into `len` bytes, where the text fits. -/
def snprintf (text : List UInt8) (len : Nat) : Option (List UInt8) :=
  if text.length ≥ len then none else some text

def calFormat (cfg : CalCfg) (len : Nat) : Option (List UInt8) :=
  snprintf
    (ascii "x_min=" ++ signedDecimal cfg.xMin ++ ascii "\nx_max=" ++ signedDecimal cfg.xMax ++
      ascii "\ny_min=" ++ signedDecimal cfg.yMin ++ ascii "\ny_max=" ++ signedDecimal cfg.yMax ++
      ascii "\nx_zero=" ++ signedDecimal cfg.xZero ++ ascii "\ny_zero=" ++ signedDecimal cfg.yZero ++
      ascii "\n") len

def calApplyLine (cfg : CalCfg) (len : Nat) : Option (List UInt8) :=
  snprintf
    (ascii "apply " ++ signedDecimal cfg.xMin ++ ascii " " ++ signedDecimal cfg.xZero ++
      ascii " " ++ signedDecimal cfg.xMax ++ ascii " " ++ signedDecimal cfg.yMin ++
      ascii " " ++ signedDecimal cfg.yZero ++ ascii " " ++ signedDecimal cfg.yMax ++ ascii "\n") len

/-- `body` of `cal_write_atomic` and `line` of `cal_commit`. -/
def calBodySize : Nat := 256
def calLineSize : Nat := 128

/-! ## Keys -/

inductive CalKey
  | xMin
  | xMax
  | yMin
  | yMax
  | xZero
  | yZero
  deriving DecidableEq, Repr

def CalKey.keys : List CalKey :=
  [.xMin, .xMax, .yMin, .yMax, .xZero, .yZero]

def CalKey.name : CalKey → List UInt8
  | .xMin => ascii "x_min"
  | .xMax => ascii "x_max"
  | .yMin => ascii "y_min"
  | .yMax => ascii "y_max"
  | .xZero => ascii "x_zero"
  | .yZero => ascii "y_zero"

def CalKey.ofName (name : List UInt8) : Option CalKey :=
  keys.find? fun key => key.name == name

/-- A slot that was seen is not set again. -/
def fieldSet {α : Type} (slots : CalKey → Option α) (key : CalKey) (value : α) :
    Option (CalKey → Option α) :=
  if (slots key).isSome then none else some (Function.update slots key (some value))

/-- An empty line or a comment. -/
def isSkipped (line : List UInt8) : Bool :=
  line == [] || line.head? == some 0x23

/-! ## The application -/

/-- `sizeof(line)` in both loops. -/
def lineSize : Nat := 64

/-- The loop body of `cal_parse`. -/
def calLine (slots : CalKey → Option Int) (line : List UInt8) :
    Except String (CalKey → Option Int) :=
  if line.length ≥ lineSize then .error "invalid field"
  else if isSkipped line then .ok slots
  else do
    let (name, val) ← orRaise (cut 0x3d line) "invalid field"
    raiseIf (name = [] ∨ val = []) "invalid field"
    raiseIf (val.all isDigit = false) "invalid field"
    let (v, rest) ← orRaise (strtol val) "invalid field"
    raiseIf (rest ≠ [] ∨ v < 0 ∨ v > 255) "invalid field"
    let key ← orRaise (CalKey.ofName name) "invalid field"
    orRaise (fieldSet slots key v) "duplicate field"

/-- The six values, where each was seen. -/
def calCfgOfSlots (slots : CalKey → Option Int) : Option CalCfg := do
  let xMin ← slots .xMin
  let xMax ← slots .xMax
  let yMin ← slots .yMin
  let yMax ← slots .yMax
  let xZero ← slots .xZero
  let yZero ← slots .yZero
  return { xMin, xMax, xZero, yMin, yMax, yZero }

def calParse (text : List UInt8) : Except String CalCfg := do
  let slots ← (lines (· == 0x0a) (cString text)).foldlM calLine (fun _ => none)
  let cfg ← orRaise (calCfgOfSlots slots) "missing field"
  raiseIf (calCfgOk cfg ≠ 0) "invalid field"
  return cfg

/-- The number of a deadzone line. -/
def dzNum (text : List UInt8) : Option Int :=
  match strtol text with
  | some (v, []) => if v < 0 ∨ v > 30 then none else some v
  | _ => none

/-- The locals of `cal_parse_deadzone`. -/
structure DzLocals where
  l : Int := 0
  r : Int := 0
  seenL : Bool := false
  seenR : Bool := false
  bad : Bool := false
  deriving DecidableEq, Repr

def withoutCr (line : List UInt8) : List UInt8 :=
  if line.getLast? = some 0x0d then line.dropLast else line

/-- The loop body of `cal_parse_deadzone`. -/
def calDeadzoneLine (locals : DzLocals) (line : List UInt8) : DzLocals :=
  if line.length ≥ lineSize then { locals with bad := true }
  else if isSkipped line then locals
  else
    match cut 0x3d (withoutCr line) with
    | none => { locals with bad := true }
    | some (name, val) =>
        if name = ascii "left" then
          match locals.seenL, dzNum val with
          | false, some v => { locals with l := v, seenL := true }
          | _, _ => { locals with l := 0, bad := true, seenL := true }
        else if name = ascii "right" then
          match locals.seenR, dzNum val with
          | false, some v => { locals with r := v, seenR := true }
          | _, _ => { locals with r := 0, bad := true, seenR := true }
        else { locals with bad := true }

/-- The value returned, `left` and `right`. -/
def calParseDeadzone (text : List UInt8) : Int × Int × Int :=
  let locals := (lines (· == 0x0a) (cString text)).foldl calDeadzoneLine {}
  (if locals.bad then -1 else 0, locals.l, locals.r)

/-! ## The boot script -/

/-- The lines of `while IFS= read -r line || [ -n "$line" ]`, which drops NUL. -/
def readLines (text : List UInt8) : List (List UInt8) :=
  lines (· == 0x0a) (text.filter (· ≠ 0))

/-- The loop body of `parse_cal`. An error is what the script prints for it. -/
def parseCalLine (file : List UInt8) (slots : CalKey → Option (List UInt8)) (line : List UInt8) :
    Except (List UInt8) (CalKey → Option (List UInt8)) :=
  if isSkipped line then .ok slots
  else do
    let (key, val) ← orRaise (cut 0x3d line) (ascii "invalid line in " ++ file)
    raiseIf (val = [] ∨ val.all isDigit = false)
      (ascii "invalid value for " ++ key ++ ascii " in " ++ file)
    raiseIf (val.length > 3) (ascii "value out of range for " ++ key ++ ascii " in " ++ file)
    let n := stripZeros val
    raiseIf (value n > 255) (ascii "value out of range for " ++ key ++ ascii " in " ++ file)
    let slot ← orRaise (CalKey.ofName key) (ascii "unknown key " ++ key ++ ascii " in " ++ file)
    orRaise (fieldSet slots slot n) []

/-- The line printed for the file, or the message. -/
def parseCal (file text : List UInt8) : Except (List UInt8) (List UInt8) := do
  let slots ← (readLines text).foldlM (parseCalLine file) (fun _ => none)
  match slots .xMin, slots .xMax, slots .yMin, slots .yMax, slots .xZero, slots .yZero with
  | some xmin, some xmax, some ymin, some ymax, some xzero, some yzero => do
      raiseIf (value xmin ≥ value xzero ∨ value xzero ≥ value xmax ∨ value ymin ≥ value yzero ∨
          value yzero ≥ value ymax)
        (ascii "center is not strictly inside min/max in " ++ file)
      raiseIf (value xzero - value xmin ≤ 2 ∨ value xmax - value xzero ≤ 2 ∨
          value yzero - value ymin ≤ 2 ∨ value ymax - value yzero ≤ 2)
        (ascii "side is not longer than deadband 2 in " ++ file)
      return joined 0x20 [xmin, xzero, xmax, ymin, yzero, ymax] ++ ascii "\n"
  | _, _, _, _, _, _ => .error (ascii "missing field in " ++ file)

/-- `$(…)`: the output without its trailing newlines. -/
def substituted (output : List UInt8) : List UInt8 :=
  output.rdropWhile (· == 0x0a)

/-- What is written to the attribute. -/
def writeRestore (line : List UInt8) : Except (List UInt8) (List UInt8) :=
  match words isSpace line with
  | [xmin, xzero, xmax, ymin, yzero, ymax] =>
      .ok (joined 0x20 [ascii "restore", xmin, xzero, xmax, ymin, yzero, ymax] ++ ascii "\n")
  | _ => .error (ascii "internal parse error")

/-- What the script writes for a file that exists. -/
def restoreSide (side file text : List UInt8) : Except (List UInt8) (List UInt8) :=
  match parseCal file text with
  | .error _ => .error (side ++ ascii ": malformed " ++ file)
  | .ok line => writeRestore (substituted line)

/-- `[ "$n" -gt bound ]`, which a shell only has to answer for numbers in the
range of `int`. -/
structure TestGt where
  greater : List UInt8 → Nat → Bool
  greater_decimal : ∀ n bound, n < 2147483648 → bound < 2147483648 →
    greater (decimal n) bound = decide (bound < n)

/-- The variables of `parse_deadzone`, and what it printed to standard error. -/
structure DzVars where
  left : List UInt8 := ascii "0"
  right : List UInt8 := ascii "0"
  applyL : Bool := true
  applyR : Bool := true
  seenL : Bool := false
  seenR : Bool := false
  bad : Bool := false
  messages : List (List UInt8) := []
  deriving DecidableEq, Repr

/-- `n` after the checks on a deadzone value, where it passes them. -/
def TestGt.percent (test : TestGt) (val : List UInt8) : Option (List UInt8) :=
  if val = [] ∨ val.all isDigit = false then none
  else if test.greater (stripZeros val) 30 then none
  else some (stripZeros val)

/-- The loop body of `parse_deadzone`. -/
def TestGt.parseDeadzoneLine (test : TestGt) (file : List UInt8) (vars : DzVars)
    (line : List UInt8) : DzVars :=
  let unknown := { vars with
    bad := true, messages := vars.messages ++ [ascii "unknown deadzone line in " ++ file] }
  if isSkipped line then vars
  else
    match cut 0x3d line with
    | none => unknown
    | some (key, val) =>
        if key = ascii "left" then
          match vars.seenL, test.percent val with
          | false, some n => { vars with left := n, seenL := true }
          | _, _ => { vars with
              applyL := false, bad := true, seenL := true,
              messages := vars.messages ++ [ascii "left: malformed deadzone in " ++ file] }
        else if key = ascii "right" then
          match vars.seenR, test.percent val with
          | false, some n => { vars with right := n, seenR := true }
          | _, _ => { vars with
              applyR := false, bad := true, seenR := true,
              messages := vars.messages ++ [ascii "right: malformed deadzone in " ++ file] }
        else unknown

def flag (set : Bool) : List UInt8 :=
  if set then ascii "1" else ascii "0"

/-- The status returned and the line printed. -/
def TestGt.parseDeadzone (test : TestGt) (file text : List UInt8) : Int × List UInt8 :=
  let vars := (readLines text).foldl (test.parseDeadzoneLine file) {}
  (if vars.bad then 1 else 0,
    joined 0x20 [flag vars.applyL, vars.left, flag vars.applyR, vars.right] ++ ascii "\n")

/-! ## The axes as the driver shows them -/

def MfPad.rawAxesShow (pad : MfPad) : List UInt8 :=
  ascii "YL=" ++ decimal (pad.axis .yl).latest.toNat ++
    ascii " XL=" ++ decimal (pad.axis .xl).latest.toNat ++
    ascii " YR=" ++ decimal (pad.axis .yr).latest.toNat ++
    ascii " XR=" ++ decimal (pad.axis .xr).latest.toNat ++ ascii "\n"

def axisName : MfAxisId → List UInt8
  | .yl => ascii "YL"
  | .xl => ascii "XL"
  | .yr => ascii "YR"
  | .xr => ascii "XR"

def axisOfName (name : List UInt8) : Option MfAxisId :=
  [MfAxisId.yl, .xl, .yr, .xr].find? fun axis => axisName axis == name

/-- A byte of a key: neither `=`, blank nor newline. -/
def isKeyByte (byte : UInt8) : Bool :=
  byte != 0x3d && !isBlank byte && byte != 0x0a

/-- One `KEY=number` at the start of the text, and what stands after it. -/
def rawField (text : List UInt8) : Except String (MfAxisId × Int × List UInt8) := do
  let key := text.takeWhile isKeyByte
  -- `key` has eight bytes, one of them for the NUL.
  raiseIf (key.length > 7) "malformed raw"
  match text.dropWhile isKeyByte with
  | 0x3d :: number => do
      raiseIf (key = []) "malformed raw"
      raiseIf (number.head?.any isDigit = false) "malformed raw"
      let (v, rest) ← orRaise (strtol number) "malformed raw"
      raiseIf (v < 0 ∨ v > 255) "malformed raw"
      let axis ← orRaise (axisOfName key) "malformed raw"
      return (axis, v, rest)
  | _ => .error "malformed raw"

theorem rawField_shorter {text rest : List UInt8} {axis : MfAxisId} {v : Int}
    (found : rawField text = .ok (axis, v, rest)) : rest.length < text.length := by
  rw [rawField, bind_eq_ok] at found
  rcases found with ⟨_, _, found⟩
  have shorter := (List.dropWhile_suffix (l := text) isKeyByte).length_le
  split at found
  · rename_i number isNumber
    rw [isNumber, List.length_cons] at shorter
    rcases bind_eq_ok.mp found with ⟨_, _, found⟩
    rcases bind_eq_ok.mp found with ⟨_, _, found⟩
    rcases bind_eq_ok.mp found with ⟨⟨v, left⟩, number, found⟩
    rcases bind_eq_ok.mp found with ⟨_, _, found⟩
    rcases bind_eq_ok.mp found with ⟨axis, _, found⟩
    cases found
    have consumed := strtol_length_le (orRaise_eq_ok.mp number)
    omega
  · cases found

/-- The loop over the fields of one line, with the text it stops at. -/
def rawFields (seen : MfAxisId → Option Int) (text : List UInt8) :
    Except String ((MfAxisId → Option Int) × List UInt8) :=
  match isStart : text.dropWhile isBlank with
  | [] => .ok (seen, [])
  | byte :: after =>
      if byte = 0x0a then .ok (seen, byte :: after)
      else
        match found : rawField (byte :: after) with
        | .error error => .error error
        | .ok (axis, v, rest) =>
            if (seen axis).isSome then .error "malformed raw"
            else rawFields (Function.update seen axis (some v)) rest
termination_by text.length
decreasing_by
  have shorter := rawField_shorter found
  have skipped := (List.dropWhile_suffix (l := text) isBlank).length_le
  rw [isStart] at skipped
  omega

/-- The four outputs of `cal_parse_raw`. -/
structure RawAxes where
  yl : Int
  xl : Int
  yr : Int
  xr : Int
  deriving DecidableEq, Repr

def rawAxesOfSeen (seen : MfAxisId → Option Int) : Option RawAxes := do
  let yl ← seen .yl
  let xl ← seen .xl
  let yr ← seen .yr
  let xr ← seen .xr
  return { yl, xl, yr, xr }

def calParseRaw (text : List UInt8) : Except String RawAxes := do
  let start := (cString text).dropWhile isBlank
  raiseIf (start = [] ∨ start.head? = some 0x0a) "incomplete raw"
  let (seen, rest) ← rawFields (fun _ => none) start
  raiseIf (rest.dropWhile (fun byte => isBlank byte || byte == 0x0a) ≠ []) "malformed raw"
  orRaise (rawAxesOfSeen seen) "incomplete raw"

end Zlyme.Gamepad
