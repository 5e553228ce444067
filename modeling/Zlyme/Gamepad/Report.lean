import Zlyme.Gamepad.Pad
import Mathlib.Tactic.SplitIfs
import Mathlib.Tactic.Linarith

/-! # Scaling a raw stick to an input event

`mf_scale`, the radial deadzone and the reports. C `int` arithmetic is written
on `Int`; the last section shows that no intermediate value leaves its C type.
-/

namespace Zlyme.Gamepad

/-! ## The functions -/

/-- Continuous deadband on one side of the centre. -/
def mfScaleSide (delta span : Int) : Int :=
  if delta ≤ mfRawDeadband then 0
  else if span - mfRawDeadband ≤ 0 then 0
  else
    let out := ((delta - mfRawDeadband) * mfAbsRange).tdiv (span - mfRawDeadband)
    let capped := if out > mfAbsRange then mfAbsRange else out
    if capped < 0 then 0 else capped

def mfScale (raw : Int) (ax : MfAxis) : Int :=
  if raw ≥ ax.runtimeZero then
    mfScaleSide (raw - ax.runtimeZero) (ax.max - ax.runtimeZero)
  else
    -mfScaleSide (ax.runtimeZero - raw) (ax.runtimeZero - ax.min)

/-- The two comparisons that keep one output inside the axis range. -/
def clampAbs (out : Int) : Int :=
  let capped := if out > mfAbsRange then mfAbsRange else out
  if capped < -mfAbsRange then -mfAbsRange else capped

/-- Scaled radial deadzone. The two pointers of the source are a pair here. -/
def mfRadial (kernel : Kernel) (pct x y : Int) : Int × Int :=
  if pct ≤ 0 then (x, y)
  else if x = 0 ∧ y = 0 then (x, y)
  else
    let r : Int := kernel.intSqrt64 (x * x + y * y).toNat
    let d := (mfAbsRange * pct).tdiv 100
    if r = 0 then (x, y)
    else if r ≤ d then (0, 0)
    else if r ≥ mfAbsRange then (x, y)
    else
      let num := (r - d) * mfAbsRange
      let den := r * (mfAbsRange - d)
      (clampAbs ((x * num).tdiv den), clampAbs ((y * num).tdiv den))

def mfEmitStick (kernel : Kernel) (pad : MfPad) (xId yId : MfAxisId) (pct : Int) : MfPad :=
  let x := mfScale (pad.axis xId).latest.toNat (pad.axis xId)
  let y := mfScale (pad.axis yId).latest.toNat (pad.axis yId)
  let out := mfRadial kernel pct x y
  { pad with
    lastAbs := fun id =>
      if id = yId then out.2 else if id = xId then out.1 else pad.lastAbs id
    input := pad.input ++
      [.abs (pad.axis xId).absCode out.1, .abs (pad.axis yId).absCode out.2] }

def inputSync (pad : MfPad) : MfPad :=
  { pad with input := pad.input ++ [.sync] }

def mfReportAxes (kernel : Kernel) (pad : MfPad) (raw : MfRaw) : MfPad :=
  let latched := { pad with axis := fun id => { pad.axis id with latest := raw id } }
  let left := mfEmitStick kernel latched .xl .yl latched.deadzoneLeft.toNat
  inputSync (mfEmitStick kernel left .xr .yr left.deadzoneRight.toNat)

/-- Republish the latest raw pair of one stick. -/
def mfPublishStick (kernel : Kernel) (pad : MfPad) (xId yId : MfAxisId) : MfPad :=
  let pct : Int := if xId = .xl then pad.deadzoneLeft.toNat else pad.deadzoneRight.toNat
  inputSync (mfEmitStick kernel pad xId yId pct)

/-! ## Reports stay inside the axis range -/

def InAbsRange (value : Int) : Prop :=
  -mfAbsRange ≤ value ∧ value ≤ mfAbsRange

theorem mfScaleSide_bounds (delta span : Int) :
    0 ≤ mfScaleSide delta span ∧ mfScaleSide delta span ≤ mfAbsRange := by
  unfold mfScaleSide mfAbsRange
  dsimp only
  split_ifs <;> omega

theorem mfScale_inAbsRange (raw : Int) (ax : MfAxis) : InAbsRange (mfScale raw ax) := by
  unfold mfScale InAbsRange
  split
  · have side := mfScaleSide_bounds (raw - ax.runtimeZero) (ax.max - ax.runtimeZero)
    omega
  · have side := mfScaleSide_bounds (ax.runtimeZero - raw) (ax.runtimeZero - ax.min)
    omega

theorem clampAbs_inAbsRange (out : Int) : InAbsRange (clampAbs out) := by
  unfold clampAbs InAbsRange mfAbsRange
  dsimp only
  split_ifs <;> omega

theorem zero_inAbsRange : InAbsRange 0 := by
  unfold InAbsRange mfAbsRange
  omega

theorem mfRadial_inAbsRange (kernel : Kernel) (pct : Int) {x y : Int}
    (xInRange : InAbsRange x) (yInRange : InAbsRange y) :
    InAbsRange (mfRadial kernel pct x y).1 ∧ InAbsRange (mfRadial kernel pct x y).2 := by
  unfold mfRadial
  dsimp only
  split_ifs
  · exact ⟨xInRange, yInRange⟩
  · exact ⟨xInRange, yInRange⟩
  · exact ⟨xInRange, yInRange⟩
  · exact ⟨zero_inAbsRange, zero_inAbsRange⟩
  · exact ⟨xInRange, yInRange⟩
  · exact ⟨clampAbs_inAbsRange _, clampAbs_inAbsRange _⟩

/-! ## What a report leaves alone -/

section Frame

variable (kernel : Kernel) (pad : MfPad) (xId yId : MfAxisId) (pct : Int) (raw : MfRaw)

@[simp] theorem mfEmitStick_axis :
    (mfEmitStick kernel pad xId yId pct).axis = pad.axis := rfl

@[simp] theorem mfEmitStick_deadzoneRight :
    (mfEmitStick kernel pad xId yId pct).deadzoneRight = pad.deadzoneRight := rfl

@[simp] theorem mfReportAxes_axis (id : MfAxisId) :
    (mfReportAxes kernel pad raw).axis id = { pad.axis id with latest := raw id } := rfl

@[simp] theorem mfReportAxes_frame :
    (mfReportAxes kernel pad raw).frame = pad.frame := rfl

@[simp] theorem mfReportAxes_bootStarted :
    (mfReportAxes kernel pad raw).bootStarted = pad.bootStarted := rfl

@[simp] theorem mfReportAxes_settlePhase :
    (mfReportAxes kernel pad raw).settlePhase = pad.settlePhase := rfl

@[simp] theorem mfReportAxes_portOpen :
    (mfReportAxes kernel pad raw).portOpen = pad.portOpen := rfl

@[simp] theorem mfPublishStick_axis :
    (mfPublishStick kernel pad xId yId).axis = pad.axis := rfl

@[simp] theorem mfPublishStick_frame :
    (mfPublishStick kernel pad xId yId).frame = pad.frame := rfl

@[simp] theorem mfPublishStick_bootStarted :
    (mfPublishStick kernel pad xId yId).bootStarted = pad.bootStarted := rfl

@[simp] theorem mfPublishStick_settlePhase :
    (mfPublishStick kernel pad xId yId).settlePhase = pad.settlePhase := rfl

@[simp] theorem mfPublishStick_portOpen :
    (mfPublishStick kernel pad xId yId).portOpen = pad.portOpen := rfl

end Frame

/-- Every value last reported on an axis fits its declared range. -/
def ReportsInRange (pad : MfPad) : Prop :=
  ∀ id, InAbsRange (pad.lastAbs id)

theorem mfEmitStick_reportsInRange (kernel : Kernel) {pad : MfPad}
    (inRange : ReportsInRange pad) (xId yId : MfAxisId) (pct : Int) :
    ReportsInRange (mfEmitStick kernel pad xId yId pct) := by
  intro id
  have out := mfRadial_inAbsRange kernel pct
    (mfScale_inAbsRange (pad.axis xId).latest.toNat (pad.axis xId))
    (mfScale_inAbsRange (pad.axis yId).latest.toNat (pad.axis yId))
  simp only [mfEmitStick]
  split_ifs
  · exact out.2
  · exact out.1
  · exact inRange id

theorem mfReportAxes_reportsInRange (kernel : Kernel) {pad : MfPad}
    (inRange : ReportsInRange pad) (raw : MfRaw) :
    ReportsInRange (mfReportAxes kernel pad raw) := by
  have latched : ReportsInRange
      { pad with axis := fun id => { pad.axis id with latest := raw id } } := inRange
  exact mfEmitStick_reportsInRange kernel
    (mfEmitStick_reportsInRange kernel latched .xl .yl _) .xr .yr _

theorem mfPublishStick_reportsInRange (kernel : Kernel) {pad : MfPad}
    (inRange : ReportsInRange pad) (xId yId : MfAxisId) :
    ReportsInRange (mfPublishStick kernel pad xId yId) :=
  mfEmitStick_reportsInRange kernel inRange xId yId _

/-! ## No C overflow -/

/-- The product in `mf_scale_side` fits an `int` for byte-sized deltas. -/
theorem mfScaleSide_product_fits {delta : Int} (upper : delta ≤ 255)
    (beyond : mfRawDeadband < delta) :
    0 ≤ (delta - mfRawDeadband) * mfAbsRange ∧
      (delta - mfRawDeadband) * mfAbsRange < 2 ^ 31 := by
  unfold mfRawDeadband mfAbsRange at *
  omega

/-- `div_s64` takes a 32-bit divisor. In the scaled region the divisor is
positive and fits, for every deadzone a write can install. -/
theorem mfRadial_den_fits {pct r : Int} (positive : 0 < pct)
    (atMost : pct ≤ mfDzMaxPercent) (outside : (mfAbsRange * pct).tdiv 100 < r)
    (inside : r < mfAbsRange) :
    0 < r * (mfAbsRange - (mfAbsRange * pct).tdiv 100) ∧
      r * (mfAbsRange - (mfAbsRange * pct).tdiv 100) < 2 ^ 31 := by
  unfold mfAbsRange mfDzMaxPercent at *
  have quotient : (32767 * pct).tdiv 100 = 32767 * pct / 100 :=
    Int.tdiv_eq_ediv_of_nonneg (by omega)
  rw [quotient] at outside ⊢
  have lower : 327 ≤ 32767 * pct / 100 := by omega
  have upper : 32767 * pct / 100 ≤ 9830 := by omega
  constructor
  · exact Int.mul_pos (by omega) (by omega)
  · calc
      r * (32767 - 32767 * pct / 100) ≤ 32766 * (32767 - 32767 * pct / 100) :=
        Int.mul_le_mul_of_nonneg_right (by omega) (by omega)
      _ < 2 ^ 31 := by omega

/-- The 64-bit dividend of `div_s64` fits for scaled inputs. -/
theorem mfRadial_dividend_fits {x d r : Int} (inRange : InAbsRange x)
    (nonneg : 0 ≤ d) (outside : d < r) (inside : r < mfAbsRange) :
    -2 ^ 63 ≤ x * ((r - d) * mfAbsRange) ∧ x * ((r - d) * mfAbsRange) < 2 ^ 63 := by
  unfold InAbsRange mfAbsRange at *
  have factorNonneg : 0 ≤ (r - d) * 32767 := by omega
  have factorUpper : (r - d) * 32767 ≤ 32767 * 32767 := by omega
  constructor
  · nlinarith [inRange.1]
  · nlinarith [inRange.2]

end Zlyme.Gamepad
