import Zlyme.Gamepad.BootCentre

/-! # Calibration and deadzone writes

The sysfs stores of `calibration_left`, `calibration_right`, `deadzone_left` and
`deadzone_right`. A text is the bytes before its terminating NUL, so the end of
the list is where the source reads `'\0'`.
-/

namespace Zlyme.Gamepad

/-! ## Reading a calibration line -/

/-- What C reads of a written buffer: everything before the first NUL. -/
def cString (buf : List UInt8) : List UInt8 :=
  buf.takeWhile fun byte => byte != 0

/-- Space and tab. -/
def isBlank (byte : UInt8) : Bool :=
  byte == 0x20 || byte == 0x09

/-- Space, tab, newline and carriage return. -/
def isSpace (byte : UInt8) : Bool :=
  isBlank byte || byte == 0x0a || byte == 0x0d

def isDigit (byte : UInt8) : Bool :=
  decide (0x30 ≤ byte) && decide (byte ≤ 0x39)

/-- The digit loop of `mf_token_u8`, from `digits` digits worth `v`. -/
def tokenDigits (digits v : Nat) : List UInt8 → Option (Nat × List UInt8)
  | [] => some (v, [])
  | byte :: rest =>
      if isDigit byte then
        if digits + 1 > 3 then none
        else if v * 10 + (byte.toNat - 0x30) > 255 then none
        else tokenDigits (digits + 1) (v * 10 + (byte.toNat - 0x30)) rest
      else some (v, byte :: rest)

/-- One number from 0 to 255 and the text after it, or `-EINVAL` as `none`. -/
def mfTokenU8 (text : List UInt8) : Option (Int × List UInt8) :=
  match text.dropWhile isBlank with
  | [] => none
  | byte :: rest =>
      if isDigit byte then
        (tokenDigits 0 0 (byte :: rest)).map fun (v, rest) => ((v : Int), rest)
      else none

/-- The ends and the centre of one axis as written. -/
structure MfRange where
  min : Int
  zero : Int
  max : Int
  deriving DecidableEq, Repr

structure MfCal where
  apply : Bool
  x : MfRange
  y : MfRange
  deriving DecidableEq, Repr

def parseRange (text : List UInt8) : Option (MfRange × List UInt8) := do
  let (min, text) ← mfTokenU8 text
  let (zero, text) ← mfTokenU8 text
  let (max, text) ← mfTokenU8 text
  return ({ min, zero, max }, text)

/-- The command word: `restore` or `apply`, at most 15 bytes. -/
def parseCommand (text : List UInt8) : Option (Bool × List UInt8) :=
  let start := text.dropWhile isSpace
  let cmd := start.takeWhile fun byte => !isSpace byte
  let rest := start.dropWhile fun byte => !isSpace byte
  if cmd.length > 15 then none
  else if cmd = "restore".toUTF8.toList then some (false, rest)
  else if cmd = "apply".toUTF8.toList then some (true, rest)
  else none

/-- `none` stands for `-EINVAL`, the only error of `mf_parse_cal`. -/
def mfParseCal (buf : List UInt8) : Option MfCal := do
  let (apply, text) ← parseCommand (cString buf)
  let (x, text) ← parseRange text
  let (y, text) ← parseRange text
  if text.dropWhile isSpace ≠ [] then none
  else if mfCenterInRange x.min x.zero x.max ≠ 0 ∨ mfCenterInRange y.min y.zero y.max ≠ 0 then
    none
  else some { apply, x, y }

/-! ## Installing it -/

/-- A preserved boot or applied centre must also fit the proposed ends. -/
def mfPreflightAxis (ax : MfAxis) (apply : Bool) (range : MfRange) : Int :=
  if apply = false ∧ (ax.zeroSource = .boot ∨ ax.zeroSource = .apply) then
    mfCenterInRange range.min ax.runtimeZero range.max
  else 0

def mfInstallAxis (ax : MfAxis) (range : MfRange) (apply : Bool) : MfAxis :=
  let saved := { ax with min := range.min, savedZero := range.zero, max := range.max }
  if apply then
    { saved with
      runtimeZero := range.zero
      zeroSource := .apply
      bootState := if mfBootFinished saved.bootState then saved.bootState else .cancelled }
  else if saved.zeroSource = .default ∨ saved.zeroSource = .persisted then
    { saved with runtimeZero := range.zero, zeroSource := .persisted }
  else saved

/-- Both axes are installed, the settle phase is closed if nothing is left to
acquire, and the stick is published. -/
def installStick (kernel : Kernel) (pad : MfPad) (xId yId : MfAxisId) (cal : MfCal) : MfPad :=
  let withX := pad.setAxis xId (mfInstallAxis (pad.axis xId) cal.x cal.apply)
  let withY := withX.setAxis yId (mfInstallAxis (withX.axis yId) cal.y cal.apply)
  mfPublishStick kernel (if withY.bootStarted then bootFinish withY else withY) xId yId

/-- The pad after the write, and the `ssize_t` returned for it. -/
def mfCalStore (kernel : Kernel) (pad : MfPad) (xId yId : MfAxisId) (buf : List UInt8) :
    MfPad × Int :=
  match mfParseCal buf with
  | none => (pad, -einval)
  | some cal =>
      if mfPreflightAxis (pad.axis xId) cal.apply cal.x ≠ 0 ∨
          mfPreflightAxis (pad.axis yId) cal.apply cal.y ≠ 0 then
        (pad, -erange)
      else (installStick kernel pad xId yId cal, buf.length)

def calibrationLeftStore (kernel : Kernel) (pad : MfPad) (buf : List UInt8) : MfPad × Int :=
  mfCalStore kernel pad .xl .yl buf

def calibrationRightStore (kernel : Kernel) (pad : MfPad) (buf : List UInt8) : MfPad × Int :=
  mfCalStore kernel pad .xr .yr buf

def mfDzStore (kernel : Kernel) (pad : MfPad) (right : Bool) (buf : List UInt8) :
    MfPad × Int :=
  match kernel.kstrtouint ((cString buf).dropWhile isBlank) with
  | none => (pad, -einval)
  | some pct =>
      if pct.toNat > mfDzMaxPercent then (pad, -einval)
      else if right then
        (mfPublishStick kernel { pad with deadzoneRight := pct.toUInt8 } .xr .yr, buf.length)
      else
        (mfPublishStick kernel { pad with deadzoneLeft := pct.toUInt8 } .xl .yl, buf.length)

/-! ## What an accepted line says -/

/-- A range as `mf_parse_cal` accepts it: bytes, with a usable centre. -/
structure MfRange.Ok (range : MfRange) : Prop where
  min_nonneg : 0 ≤ range.min
  max_le : range.max ≤ 255
  centred : Centred range.min range.zero range.max

private theorem tokenDigits_le : ∀ {text : List UInt8} {digits v : Nat}
    {value : Nat} {rest : List UInt8}, v ≤ 255 →
    tokenDigits digits v text = some (value, rest) → value ≤ 255
  | [], _, _, _, _, bounded, parsed => by
      simp only [tokenDigits, Option.some.injEq, Prod.mk.injEq] at parsed
      omega
  | byte :: text, digits, v, value, rest, bounded, parsed => by
      simp only [tokenDigits] at parsed
      split_ifs at parsed with digit many large
      · exact tokenDigits_le (Nat.le_of_not_gt large) parsed
      · simp only [Option.some.injEq, Prod.mk.injEq] at parsed
        omega

theorem mfTokenU8_bounds {text rest : List UInt8} {value : Int}
    (parsed : mfTokenU8 text = some (value, rest)) : 0 ≤ value ∧ value ≤ 255 := by
  rw [mfTokenU8] at parsed
  split at parsed
  · cases parsed
  · split_ifs at parsed
    rcases Option.map_eq_some_iff.mp parsed with ⟨⟨digits, after⟩, token, equal⟩
    have bound := tokenDigits_le (Nat.zero_le 255) token
    rw [← (Prod.mk.inj equal).1]
    omega

private theorem parseRange_bounds {text rest : List UInt8} {range : MfRange}
    (parsed : parseRange text = some (range, rest)) :
    0 ≤ range.min ∧ range.max ≤ 255 := by
  simp only [parseRange, Option.bind_eq_bind, Option.bind_eq_some_iff] at parsed
  rcases parsed with ⟨⟨min, _⟩, minParsed, ⟨zero, _⟩, _, ⟨max, _⟩, maxParsed, equal⟩
  cases equal
  exact ⟨(mfTokenU8_bounds minParsed).1, (mfTokenU8_bounds maxParsed).2⟩

/-- Every accepted line carries two usable ranges. -/
theorem mfParseCal_ok {buf : List UInt8} {cal : MfCal} (parsed : mfParseCal buf = some cal) :
    cal.x.Ok ∧ cal.y.Ok := by
  simp only [mfParseCal, Option.bind_eq_bind, Option.bind_eq_some_iff] at parsed
  rcases parsed with
    ⟨⟨apply, _⟩, _, ⟨x, _⟩, xParsed, ⟨y, _⟩, yParsed, accepted⟩
  split_ifs at accepted with trailing outside
  cases accepted
  simp only [not_or, not_not] at outside
  have xBounds := parseRange_bounds xParsed
  have yBounds := parseRange_bounds yParsed
  exact ⟨⟨xBounds.1, xBounds.2, (mfCenterInRange_eq_zero_iff _ _ _).mp outside.1⟩,
    ⟨yBounds.1, yBounds.2, (mfCenterInRange_eq_zero_iff _ _ _).mp outside.2⟩⟩

/-- Either the write is refused and the pad is unchanged, or the line parsed,
both axes passed the preflight, and the stick was installed. -/
theorem mfCalStore_cases (kernel : Kernel) (pad : MfPad) (xId yId : MfAxisId)
    (buf : List UInt8) :
    (mfCalStore kernel pad xId yId buf).1 = pad ∨
      ∃ cal, mfParseCal buf = some cal ∧
        mfPreflightAxis (pad.axis xId) cal.apply cal.x = 0 ∧
        mfPreflightAxis (pad.axis yId) cal.apply cal.y = 0 ∧
        (mfCalStore kernel pad xId yId buf).1 = installStick kernel pad xId yId cal := by
  rw [mfCalStore]
  cases parsed : mfParseCal buf with
  | none => exact .inl rfl
  | some cal =>
      by_cases refused : mfPreflightAxis (pad.axis xId) cal.apply cal.x ≠ 0 ∨
          mfPreflightAxis (pad.axis yId) cal.apply cal.y ≠ 0
      · exact .inl (by simp only [if_pos refused])
      · right
        simp only [if_neg refused]
        simp only [not_or, not_not] at refused
        exact ⟨cal, rfl, refused.1, refused.2, rfl⟩

theorem mfDzStore_cases (kernel : Kernel) (pad : MfPad) (right : Bool) (buf : List UInt8) :
    (mfDzStore kernel pad right buf).1 = pad ∨
      ∃ pct : UInt8, pct.toNat ≤ mfDzMaxPercent ∧
        (mfDzStore kernel pad right buf).1 =
          if right then mfPublishStick kernel { pad with deadzoneRight := pct } .xr .yr
          else mfPublishStick kernel { pad with deadzoneLeft := pct } .xl .yl := by
  rw [mfDzStore]
  cases kernel.kstrtouint ((cString buf).dropWhile isBlank) with
  | none => exact .inl rfl
  | some pct =>
      by_cases large : pct.toNat > mfDzMaxPercent
      · exact .inl (by simp only [if_pos large])
      · right
        refine ⟨pct.toUInt8, ?_, ?_⟩
        · rw [UInt32.toNat_toUInt8]
          exact (Nat.mod_le _ _).trans (Nat.le_of_not_gt large)
        · simp only [if_neg large]
          split <;> rfl

end Zlyme.Gamepad
