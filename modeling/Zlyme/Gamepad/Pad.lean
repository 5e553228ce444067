import Mathlib.Algebra.GroupWithZero.Nat

/-! # State of the Miyoo Flip gamepad driver

The part of `struct mf_pad` that the stick path reads and writes. Buttons,
rumble and the tracer text are outside this model.
-/

namespace Zlyme.Gamepad

/-! ## Constants -/

def mfFrameLen : Nat := 6
def mfFrameStart : UInt8 := 0xff
def mfFrameEnd : UInt8 := 0xfe

def mfDefaultMin : Int := 0
def mfDefaultZero : Int := 128
def mfDefaultMax : Int := 255
def mfAbsRange : Int := 32767
def mfRawDeadband : Int := 2
def mfDzMaxPercent : Nat := 30

def mfBootSettleMs : Nat := 1500
def mfBootWindow : Nat := 31
def mfBootSpread : Nat := 3
def mfBootMatch : Int := 2
def mfBootBudgetMs : Nat := 6000

/-! ## The kernel around the driver -/

/-- `jiffies` is an `unsigned long` on this 64-bit kernel and wraps. -/
abbrev Jiffies := UInt64

/-- `time_before(a, b)`: the signed view of `a - b` is negative. -/
def timeBefore (a b : Jiffies) : Bool :=
  decide ((a - b).toInt64 < 0)

/-- `time_after(a, b)` is `time_before(b, a)`. -/
def timeAfter (a b : Jiffies) : Bool :=
  timeBefore b a

/-- Kernel functions that the driver calls and this repository does not
contain. No result below depends on what they return. -/
structure Kernel where
  msecsToJiffies : Nat → Jiffies
  intSqrt64 : Nat → Nat
  /-- `kstrtouint(text, 10, &value)`; `none` is any error code. -/
  kstrtouint : List UInt8 → Option UInt32

/-- A kernel with `HZ` of 1000, for concrete runs. -/
def hz1000Kernel : Kernel where
  msecsToJiffies := UInt64.ofNat
  intSqrt64 := Nat.sqrt
  kstrtouint text :=
    let digits := text.takeWhile fun byte => 0x30 ≤ byte ∧ byte ≤ 0x39
    let value := digits.foldl (fun value digit => 10 * value + (digit.toNat - 0x30)) 0
    if digits = [] ∨ value ≥ 2 ^ 32 then none
    else if text.drop digits.length = [] ∨ text.drop digits.length = [0x0a] then
      some (UInt32.ofNat value)
    else none

/-! ## Axes -/

inductive MfAxisId
  | xl
  | yl
  | xr
  | yr
  deriving DecidableEq, Repr

inductive MfBootState
  | wait
  | settle
  | collect
  | confirm
  | accepted
  | timeout
  | cancelled
  | rangeRejected
  deriving DecidableEq, Repr

inductive MfZeroSource
  | default
  | persisted
  | boot
  | apply
  deriving DecidableEq, Repr

inductive MfSettlePhase
  | wait
  | hw
  | run
  | done
  deriving DecidableEq, Repr

inductive AbsCode
  | absX
  | absY
  | absRx
  | absRy
  deriving DecidableEq, Repr

/-- `struct mf_axis`. `samples` is the whole window array; its first `n`
entries are current. -/
structure MfAxis where
  min : Int
  savedZero : Int
  runtimeZero : Int
  max : Int
  absCode : AbsCode
  latest : UInt8
  seenMin : UInt8
  seenMax : UInt8
  seenValid : Bool
  samples : List UInt8
  n : Nat
  candidate : Int
  bootState : MfBootState
  zeroSource : MfZeroSource
  settled : Bool
  accepted : Bool
  attempts : Nat
  deriving DecidableEq, Repr

/-- `mf_axis_defaults` on a zeroed axis. -/
def mfAxisDefaults (absCode : AbsCode) : MfAxis where
  min := mfDefaultMin
  savedZero := mfDefaultZero
  runtimeZero := mfDefaultZero
  max := mfDefaultMax
  absCode := absCode
  latest := 128
  seenMin := 0
  seenMax := 0
  seenValid := false
  samples := List.replicate mfBootWindow 0
  n := 0
  candidate := -1
  bootState := .wait
  zeroSource := .default
  settled := false
  accepted := false
  attempts := 0

/-! ## The pad -/

/-- One call into the input core. -/
inductive InputReport
  | abs (code : AbsCode) (value : Int)
  | sync
  deriving DecidableEq, Repr

/-- `struct mf_pad`. `frame` holds the first `frame_len` bytes of the receive
buffer, and `input` what has been reported to the input core, in order. -/
structure MfPad where
  axis : MfAxisId → MfAxis
  lastAbs : MfAxisId → Int
  input : List InputReport
  deadzoneLeft : UInt8
  deadzoneRight : UInt8
  frame : List UInt8
  bootFirstJiffies : Jiffies
  bootCollectJiffies : Jiffies
  bootStarted : Bool
  settlePhase : MfSettlePhase
  validFrames : UInt32
  badFrames : UInt32
  rxBytes : UInt32
  portOpen : Bool
  openErrno : Int

/-- The pad that `mf_probe` builds, before it opens the port. -/
def mfProbePad : MfPad where
  axis
    | .xl => mfAxisDefaults .absX
    | .yl => mfAxisDefaults .absY
    | .xr => mfAxisDefaults .absRx
    | .yr => mfAxisDefaults .absRy
  lastAbs := fun _ => 0
  input := []
  deadzoneLeft := 0
  deadzoneRight := 0
  frame := []
  bootFirstJiffies := 0
  bootCollectJiffies := 0
  bootStarted := false
  settlePhase := .wait
  validFrames := 0
  badFrames := 0
  rxBytes := 0
  portOpen := false
  openErrno := -19

/-- The four payload bytes of one frame by axis: `raw[MF_AXES]`. -/
abbrev MfRaw := MfAxisId → UInt8

/-- Replace one axis and leave the rest of the pad alone. -/
def MfPad.setAxis (pad : MfPad) (id : MfAxisId) (ax : MfAxis) : MfPad :=
  { pad with axis := fun other => if other = id then ax else pad.axis other }

@[simp] theorem MfPad.setAxis_axis (pad : MfPad) (id other : MfAxisId) (ax : MfAxis) :
    (pad.setAxis id ax).axis other = if other = id then ax else pad.axis other := rfl

/-- All four axes satisfy a decidable test: the `for` loops over `MF_AXES`. -/
def forallAxes (test : MfAxisId → Bool) : Bool :=
  test .xl && test .yl && test .xr && test .yr

theorem forallAxes_iff (test : MfAxisId → Bool) :
    forallAxes test = true ↔ ∀ id, test id = true := by
  constructor
  · intro all id
    simp only [forallAxes, Bool.and_eq_true] at all
    cases id <;> simp [all]
  · intro all
    simp [forallAxes, all]

end Zlyme.Gamepad
