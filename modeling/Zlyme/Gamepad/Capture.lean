import Zlyme.Gamepad.CalibrationRoundTrip
import Mathlib.Order.Bounds.Basic
import Mathlib.Data.List.Induction
import Mathlib.Data.List.Infix
import Mathlib.Algebra.Order.BigOperators.Group.List
import Mathlib.Algebra.Ring.Int.Defs

/-! # The capture of a calibration

`cal_cap_add_range` and `cal_cap_add_center` keep extremes, sums and counts of the raw
samples; `cal_cap_finish` makes a configuration of them. A count or a sum that leaves
its `int` has no value.
-/

namespace Zlyme.Gamepad

/-! ## The code -/

def calMinSpan : Int := 40
def calCenterSamples : Int := 12
def calCenterSpread : Int := 3

/-- `INT_MAX` -/
def intMax : Int := 2147483647

/-- A sum in `int`, of numbers that are not negative. -/
def addInt (left right : Int) : Option Int :=
  if left + right ≤ intMax then some (left + right) else none

/-- `cal_cap` -/
structure CalCap where
  xMin : Int
  xMax : Int
  yMin : Int
  yMax : Int
  rangeN : Int
  zxSum : Int
  zySum : Int
  zeroN : Int
  zxLo : Int
  zxHi : Int
  zyLo : Int
  zyHi : Int
  deriving DecidableEq, Repr

def calCapReset : CalCap where
  xMin := 255
  xMax := 0
  yMin := 255
  yMax := 0
  rangeN := 0
  zxSum := 0
  zySum := 0
  zeroN := 0
  zxLo := 255
  zxHi := 0
  zyLo := 255
  zyHi := 0

def calCapAddRange (cap : CalCap) (x y : Int) : Option CalCap :=
  if x < 0 ∨ 255 < x ∨ y < 0 ∨ 255 < y then some cap
  else do
    let rangeN ← addInt cap.rangeN 1
    return { cap with
      xMin := if x < cap.xMin then x else cap.xMin
      xMax := if cap.xMax < x then x else cap.xMax
      yMin := if y < cap.yMin then y else cap.yMin
      yMax := if cap.yMax < y then y else cap.yMax
      rangeN := rangeN }

def calCapAddCenter (cap : CalCap) (x y : Int) : Option CalCap :=
  if x < 0 ∨ 255 < x ∨ y < 0 ∨ 255 < y then some cap
  else do
    let zxSum ← addInt cap.zxSum x
    let zySum ← addInt cap.zySum y
    let zeroN ← addInt cap.zeroN 1
    return { cap with
      zxSum := zxSum
      zySum := zySum
      zxLo := if cap.zeroN = 0 ∨ x < cap.zxLo then x else cap.zxLo
      zxHi := if cap.zxHi < x then x else cap.zxHi
      zyLo := if cap.zeroN = 0 ∨ y < cap.zyLo then y else cap.zyLo
      zyHi := if cap.zyHi < y then y else cap.zyHi
      zeroN := zeroN }

def calCenterWindowReset (cap : CalCap) : CalCap :=
  { cap with zxSum := 0, zySum := 0, zeroN := 0, zxLo := 255, zyLo := 255, zxHi := 0, zyHi := 0 }

/-- The configuration after the call, and the reason of a refusal. -/
def calCapFinish (cap : CalCap) (cfg : CalCfg) : CalCfg × Option String :=
  if cap.rangeN < 20 then (cfg, some "Not enough movement")
  else if cap.xMax - cap.xMin < calMinSpan ∨ cap.yMax - cap.yMin < calMinSpan then
    (cfg, some "Insufficient movement")
  else if cap.zeroN < calCenterSamples then (cfg, some "Not enough center samples")
  else if calCenterSpread < cap.zxHi - cap.zxLo ∨ calCenterSpread < cap.zyHi - cap.zyLo then
    (cfg, some "Unstable center")
  else
    let cfg := {
      xMin := cap.xMin
      xMax := cap.xMax
      xZero := cap.zxSum.tdiv cap.zeroN
      yMin := cap.yMin
      yMax := cap.yMax
      yZero := cap.zySum.tdiv cap.zeroN }
    if calCfgOk cfg ≠ 0 then (cfg, some "Center is outside the captured range") else (cfg, none)

/-! ## The samples -/

/-- One call of the capture. -/
inductive CaptureCall
  | range (x y : Int)
  | center (x y : Int)
  /-- `cal_center_window_reset` -/
  | windowReset
  deriving DecidableEq, Repr

def CalCap.call (cap : CalCap) : CaptureCall → Option CalCap
  | .range x y => calCapAddRange cap x y
  | .center x y => calCapAddCenter cap x y
  | .windowReset => some (calCenterWindowReset cap)

/-- The capture after `cal_cap_reset` and some calls. -/
def capture (calls : List CaptureCall) : Option CalCap :=
  calls.foldlM CalCap.call calCapReset

/-- A sample that is not ignored. -/
def IsSample (x y : Int) : Prop :=
  0 ≤ x ∧ x ≤ 255 ∧ 0 ≤ y ∧ y ≤ 255

instance (x y : Int) : Decidable (IsSample x y) :=
  inferInstanceAs (Decidable (_ ∧ _))

/-- The range samples, and the centre samples since the last reset of the window. -/
structure Samples where
  range : List (Int × Int)
  centre : List (Int × Int)

def Samples.call (samples : Samples) : CaptureCall → Samples
  | .range x y =>
      if IsSample x y then { samples with range := samples.range ++ [(x, y)] } else samples
  | .center x y =>
      if IsSample x y then { samples with centre := samples.centre ++ [(x, y)] } else samples
  | .windowReset => { samples with centre := [] }

def samplesOf (calls : List CaptureCall) : Samples :=
  calls.foldl Samples.call ⟨[], []⟩

theorem samplesOf_concat (calls : List CaptureCall) (call : CaptureCall) :
    samplesOf (calls ++ [call]) = (samplesOf calls).call call := by
  rw [samplesOf, List.foldl_append]
  rfl

/-- The counts and the sums stay in `int`. -/
structure Samples.Fit (samples : Samples) : Prop where
  range : (samples.range.length : Int) ≤ intMax
  centre : (samples.centre.length : Int) ≤ intMax
  xSum : (samples.centre.map Prod.fst).sum ≤ intMax
  ySum : (samples.centre.map Prod.snd).sum ≤ intMax

/-! ## The closed form -/

def lowest (values : List Int) : Int :=
  values.foldl min 255

def highest (values : List Int) : Int :=
  values.foldl max 0

/-- What the capture holds after the samples. -/
def Samples.summary (samples : Samples) : CalCap where
  xMin := lowest (samples.range.map Prod.fst)
  xMax := highest (samples.range.map Prod.fst)
  yMin := lowest (samples.range.map Prod.snd)
  yMax := highest (samples.range.map Prod.snd)
  rangeN := samples.range.length
  zxSum := (samples.centre.map Prod.fst).sum
  zySum := (samples.centre.map Prod.snd).sum
  zeroN := samples.centre.length
  zxLo := lowest (samples.centre.map Prod.fst)
  zxHi := highest (samples.centre.map Prod.fst)
  zyLo := lowest (samples.centre.map Prod.snd)
  zyHi := highest (samples.centre.map Prod.snd)

theorem lowest_append (values : List Int) (value : Int) :
    lowest (values ++ [value]) = min (lowest values) value := by
  rw [lowest, List.foldl_append]
  rfl

theorem highest_append (values : List Int) (value : Int) :
    highest (values ++ [value]) = max (highest values) value := by
  rw [highest, List.foldl_append]
  rfl

theorem addInt_eq_some {left right result : Int} :
    addInt left right = some result ↔ left + right ≤ intMax ∧ left + right = result := by
  rw [addInt]
  split <;> simp_all

theorem ite_lt_eq_min (left right : Int) : (if right < left then right else left) = min left right := by
  rw [min_def]
  split <;> split <;> omega

theorem ite_lt_eq_max (left right : Int) : (if left < right then right else left) = max left right := by
  rw [max_def]
  split <;> split <;> omega

/-- The first sample of a window sets its low end, which is no different from the
least with 255. -/
theorem first_or_lower {centre : List (Int × Int)} {values : List Int} {value : Int}
    (empty : centre = [] → values = []) (small : value ≤ 255) :
    (if (centre.length : Int) = 0 ∨ value < lowest values then value else lowest values) =
      lowest (values ++ [value]) := by
  rw [lowest_append, ← ite_lt_eq_min]
  by_cases first : centre = []
  · have isLowest : lowest values = 255 := by
      rw [empty first]
      rfl
    rw [isLowest, if_pos (.inl (by rw [first]; rfl))]
    split <;> omega
  · have counted : ¬(centre.length : Int) = 0 := by
      rw [Int.natCast_eq_zero, List.length_eq_zero_iff]
      exact first
    simp only [counted, false_or]

theorem isSample_iff (x y : Int) : ¬(x < 0 ∨ 255 < x ∨ y < 0 ∨ 255 < y) ↔ IsSample x y := by
  rw [IsSample]
  omega

theorem calCapAddRange_eq_some {cap next : CalCap} {x y : Int} (isSample : IsSample x y) :
    calCapAddRange cap x y = some next ↔ cap.rangeN + 1 ≤ intMax ∧
      { cap with
        xMin := min cap.xMin x
        xMax := max cap.xMax x
        yMin := min cap.yMin y
        yMax := max cap.yMax y
        rangeN := cap.rangeN + 1 } = next := by
  rw [calCapAddRange, if_neg ((isSample_iff x y).mpr isSample)]
  simp only [ite_lt_eq_min, ite_lt_eq_max, Option.bind_eq_bind, Option.bind_eq_some_iff, addInt_eq_some]
  constructor
  · rintro ⟨_, ⟨room, rfl⟩, isNext⟩
    exact ⟨room, Option.some.inj isNext⟩
  · rintro ⟨room, isNext⟩
    exact ⟨_, ⟨room, rfl⟩, congrArg some isNext⟩

theorem calCapAddCenter_eq_some {cap next : CalCap} {x y : Int} (isSample : IsSample x y) :
    calCapAddCenter cap x y = some next ↔
      (cap.zxSum + x ≤ intMax ∧ cap.zySum + y ≤ intMax ∧ cap.zeroN + 1 ≤ intMax) ∧
      { cap with
        zxSum := cap.zxSum + x
        zySum := cap.zySum + y
        zxLo := if cap.zeroN = 0 ∨ x < cap.zxLo then x else cap.zxLo
        zxHi := max cap.zxHi x
        zyLo := if cap.zeroN = 0 ∨ y < cap.zyLo then y else cap.zyLo
        zyHi := max cap.zyHi y
        zeroN := cap.zeroN + 1 } = next := by
  rw [calCapAddCenter, if_neg ((isSample_iff x y).mpr isSample)]
  simp only [ite_lt_eq_max, Option.bind_eq_bind, Option.bind_eq_some_iff, addInt_eq_some]
  constructor
  · rintro ⟨_, ⟨xRoom, rfl⟩, _, ⟨yRoom, rfl⟩, _, ⟨room, rfl⟩, isNext⟩
    exact ⟨⟨xRoom, yRoom, room⟩, Option.some.inj isNext⟩
  · rintro ⟨⟨xRoom, yRoom, room⟩, isNext⟩
    exact ⟨_, ⟨xRoom, rfl⟩, _, ⟨yRoom, rfl⟩, _, ⟨room, rfl⟩, congrArg some isNext⟩

section Step

variable {samples : Samples} (fit : samples.Fit) {x y : Int} {cap : CalCap}
include fit

theorem summary_addRange : calCapAddRange samples.summary x y = some cap ↔
    (samples.call (.range x y)).Fit ∧ (samples.call (.range x y)).summary = cap := by
  rw [Samples.call]
  by_cases isSample : IsSample x y
  · have fits : Samples.Fit { samples with range := samples.range ++ [(x, y)] } ↔
        samples.summary.rangeN + 1 ≤ intMax := by
      constructor
      · intro next
        simpa [Samples.summary] using next.range
      · intro room
        exact ⟨by simpa [Samples.summary] using room, fit.centre, fit.xSum, fit.ySum⟩
    rw [calCapAddRange_eq_some isSample, if_pos isSample, fits]
    simp [Samples.summary, lowest_append, highest_append]
  · rw [calCapAddRange, if_pos (not_not.mp (mt (isSample_iff x y).mp isSample)), if_neg isSample,
      Option.some.injEq]
    exact (and_iff_right fit).symm

theorem summary_addCenter : calCapAddCenter samples.summary x y = some cap ↔
    (samples.call (.center x y)).Fit ∧ (samples.call (.center x y)).summary = cap := by
  rw [Samples.call]
  by_cases isSample : IsSample x y
  · have fits : Samples.Fit { samples with centre := samples.centre ++ [(x, y)] } ↔
        samples.summary.zxSum + x ≤ intMax ∧ samples.summary.zySum + y ≤ intMax ∧
          samples.summary.zeroN + 1 ≤ intMax := by
      constructor
      · intro next
        exact ⟨by simpa [Samples.summary] using next.xSum, by simpa [Samples.summary] using next.ySum,
          by simpa [Samples.summary] using next.centre⟩
      · rintro ⟨xRoom, yRoom, room⟩
        exact ⟨fit.range, by simpa [Samples.summary] using room, by simpa [Samples.summary] using xRoom,
          by simpa [Samples.summary] using yRoom⟩
    have xLow : (if samples.summary.zeroN = 0 ∨ x < samples.summary.zxLo then x
        else samples.summary.zxLo) = lowest (samples.centre.map Prod.fst ++ [x]) :=
      first_or_lower (fun empty => by rw [empty]; rfl) isSample.2.1
    have yLow : (if samples.summary.zeroN = 0 ∨ y < samples.summary.zyLo then y
        else samples.summary.zyLo) = lowest (samples.centre.map Prod.snd ++ [y]) :=
      first_or_lower (fun empty => by rw [empty]; rfl) isSample.2.2.2
    rw [calCapAddCenter_eq_some isSample, if_pos isSample, fits, xLow, yLow]
    simp [Samples.summary, highest_append]
  · rw [calCapAddCenter, if_pos (not_not.mp (mt (isSample_iff x y).mp isSample)), if_neg isSample,
      Option.some.injEq]
    exact (and_iff_right fit).symm

/-- One call on the summary is the summary of one more call, if that fits. -/
theorem summary_call (call : CaptureCall) : samples.summary.call call = some cap ↔
    (samples.call call).Fit ∧ (samples.call call).summary = cap := by
  cases call with
  | range x y => exact summary_addRange fit
  | center x y => exact summary_addCenter fit
  | windowReset =>
      have next : (samples.call .windowReset).Fit :=
        ⟨fit.range, by simp [Samples.call, intMax], by simp [Samples.call, intMax],
          by simp [Samples.call, intMax]⟩
      rw [CalCap.call, Option.some.injEq]
      exact (and_iff_right next).symm

end Step

/-- A sequence of calls ends if its samples fit after each of them, and the capture
then holds their summary. -/
theorem capture_eq_some {calls : List CaptureCall} {cap : CalCap} : capture calls = some cap ↔
    (∀ before, before <+: calls → (samplesOf before).Fit) ∧ (samplesOf calls).summary = cap := by
  induction calls using List.reverseRecOn generalizing cap with
  | nil =>
      have fit : (samplesOf []).Fit := ⟨by decide, by decide, by decide, by decide⟩
      simp only [List.prefix_nil, forall_eq, fit, true_and]
      exact Option.some_inj
  | append_singleton calls call induction =>
      have last := samplesOf_concat calls call
      have before : capture (calls ++ [call]) = capture calls >>= fun cap => cap.call call := by
        rw [capture, List.foldlM_append]
        simp [capture]
      rw [before, Option.bind_eq_bind, Option.bind_eq_some_iff, last]
      simp only [List.prefix_concat_iff, forall_eq_or_imp, last]
      constructor
      · rintro ⟨middle, isMiddle, isCap⟩
        rcases induction.mp isMiddle with ⟨fits, rfl⟩
        rcases (summary_call (fits calls List.prefix_rfl) call).mp isCap with ⟨fit, isSummary⟩
        exact ⟨⟨fit, fits⟩, isSummary⟩
      · rintro ⟨⟨fit, fits⟩, isSummary⟩
        exact ⟨_, induction.mpr ⟨fits, rfl⟩,
          (summary_call (fits calls List.prefix_rfl) call).mpr ⟨fit, isSummary⟩⟩

/-! ## Extremes -/

section Extremes

variable {values : List Int}

theorem lowest_isLeast (nonempty : values ≠ []) (small : ∀ value ∈ values, value ≤ 255) :
    IsLeast {value | value ∈ values} (lowest values) := by
  induction values using List.reverseRecOn with
  | nil => exact absurd rfl nonempty
  | append_singleton values value induction =>
      rw [lowest_append]
      have last : value ≤ 255 := small value (by simp)
      by_cases first : values = []
      · subst first
        have isValue : min (lowest []) value = value := min_eq_right last
        rw [isValue]
        exact ⟨by simp, fun other member => by simpa using (List.mem_singleton.mp member).ge⟩
      · have rest := induction first fun other member => small other (by simp [member])
        have setUnion : {other | other ∈ values ++ [value]} = {other | other ∈ values} ∪ {value} := by
          ext other
          simp [or_comm]
        rw [setUnion]
        exact rest.union isLeast_singleton

theorem highest_isGreatest (nonempty : values ≠ []) (large : ∀ value ∈ values, 0 ≤ value) :
    IsGreatest {value | value ∈ values} (highest values) := by
  induction values using List.reverseRecOn with
  | nil => exact absurd rfl nonempty
  | append_singleton values value induction =>
      rw [highest_append]
      have last : 0 ≤ value := large value (by simp)
      by_cases first : values = []
      · subst first
        have isValue : max (highest []) value = value := max_eq_right last
        rw [isValue]
        exact ⟨by simp, fun other member => by simpa using (List.mem_singleton.mp member).le⟩
      · have rest := induction first fun other member => large other (by simp [member])
        have setUnion : {other | other ∈ values ++ [value]} = {other | other ∈ values} ∪ {value} := by
          ext other
          simp [or_comm]
        rw [setUnion]
        exact rest.union isGreatest_singleton

end Extremes

/-! ## What is accepted -/

/-- The ends and the centre of one axis. -/
structure AxisOf (range centre : List Int) (low zero high : Int) : Prop where
  least : IsLeast {value | value ∈ range} low
  greatest : IsGreatest {value | value ∈ range} high
  mean : zero = centre.sum.tdiv centre.length

/-- The span reaches the minimum, the centre samples lie close together, and their
mean lies validly between the ends. -/
def AxisAccepted (range centre : List Int) : Prop :=
  ∃ low zero high, AxisOf range centre low zero high ∧ calMinSpan ≤ high - low ∧
    (∀ one ∈ centre, ∀ other ∈ centre, one - other ≤ calCenterSpread) ∧ Centred low zero high

structure Samples.Accepted (samples : Samples) : Prop where
  enoughRange : 20 ≤ samples.range.length
  enoughCentre : 12 ≤ samples.centre.length
  x : AxisAccepted (samples.range.map Prod.fst) (samples.centre.map Prod.fst)
  y : AxisAccepted (samples.range.map Prod.snd) (samples.centre.map Prod.snd)

/-- A value of a raw axis. -/
def IsByte (value : Int) : Prop :=
  0 ≤ value ∧ value ≤ 255

section Axis

variable {range centre : List Int} (rangeBytes : ∀ value ∈ range, IsByte value)
  (centreBytes : ∀ value ∈ centre, IsByte value) (someRange : range ≠ []) (someCentre : centre ≠ [])

include rangeBytes someRange in
theorem axisOf_extremes :
    AxisOf range centre (lowest range) (centre.sum.tdiv centre.length) (highest range) where
  least := lowest_isLeast someRange fun value member => (rangeBytes value member).2
  greatest := highest_isGreatest someRange fun value member => (rangeBytes value member).1
  mean := rfl

include rangeBytes centreBytes someRange someCentre in
theorem axisAccepted_iff : AxisAccepted range centre ↔
    calMinSpan ≤ highest range - lowest range ∧ highest centre - lowest centre ≤ calCenterSpread ∧
      calCenterOk (lowest range) (centre.sum.tdiv centre.length) (highest range) = 0 := by
  have extremes : AxisOf range centre _ _ _ := axisOf_extremes rangeBytes someRange
  have least := lowest_isLeast someCentre fun value member => (centreBytes value member).2
  have greatest := highest_isGreatest someCentre fun value member => (centreBytes value member).1
  have spread : (∀ one ∈ centre, ∀ other ∈ centre, one - other ≤ calCenterSpread) ↔
      highest centre - lowest centre ≤ calCenterSpread := by
    constructor
    · exact fun close => close _ greatest.1 _ least.1
    · intro close one inOne other inOther
      have above := greatest.2 inOne
      have below := least.2 inOther
      omega
  have valid : calCenterOk (lowest range) (centre.sum.tdiv centre.length) (highest range) = 0 ↔
      Centred (lowest range) (centre.sum.tdiv centre.length) (highest range) := by
    have low := (rangeBytes _ extremes.least.1).1
    have high := (rangeBytes _ extremes.greatest.1).2
    rw [calCenterOk_eq_zero_iff]
    constructor
    · rintro ⟨_, _, below, above⟩
      exact ⟨by omega, by omega, below, above⟩
    · exact fun centred => ⟨low, high, centred.wide_below, centred.wide_above⟩
  rw [valid, ← spread]
  constructor
  · rintro ⟨low, zero, high, axis, span, close, centred⟩
    rw [← axis.least.unique extremes.least, ← axis.greatest.unique extremes.greatest, ← axis.mean]
    exact ⟨span, close, centred⟩
  · rintro ⟨span, close, centred⟩
    exact ⟨_, _, _, extremes, span, close, centred⟩

end Axis

/-! ## The end of the capture -/

/-- The configuration that `cal_cap_finish` writes. -/
def CalCap.cfg (cap : CalCap) : CalCfg where
  xMin := cap.xMin
  xMax := cap.xMax
  xZero := cap.zxSum.tdiv cap.zeroN
  yMin := cap.yMin
  yMax := cap.yMax
  yZero := cap.zySum.tdiv cap.zeroN

theorem summary_cfg (samples : Samples) : samples.summary.cfg = {
    xMin := lowest (samples.range.map Prod.fst)
    xMax := highest (samples.range.map Prod.fst)
    xZero := (samples.centre.map Prod.fst).sum.tdiv (samples.centre.map Prod.fst).length
    yMin := lowest (samples.range.map Prod.snd)
    yMax := highest (samples.range.map Prod.snd)
    yZero := (samples.centre.map Prod.snd).sum.tdiv (samples.centre.map Prod.snd).length } := by
  simp [CalCap.cfg, Samples.summary]

theorem calCapFinish_eq (cap : CalCap) (cfg : CalCfg) : calCapFinish cap cfg =
    if cap.rangeN < 20 then (cfg, some "Not enough movement")
    else if cap.xMax - cap.xMin < calMinSpan ∨ cap.yMax - cap.yMin < calMinSpan then
      (cfg, some "Insufficient movement")
    else if cap.zeroN < calCenterSamples then (cfg, some "Not enough center samples")
    else if calCenterSpread < cap.zxHi - cap.zxLo ∨ calCenterSpread < cap.zyHi - cap.zyLo then
      (cfg, some "Unstable center")
    else if calCfgOk cap.cfg ≠ 0 then (cap.cfg, some "Center is outside the captured range")
    else (cap.cfg, none) := rfl

theorem calCapFinish_accepts {cap : CalCap} {cfg : CalCfg} : (calCapFinish cap cfg).2 = none ↔
    20 ≤ cap.rangeN ∧ (calMinSpan ≤ cap.xMax - cap.xMin ∧ calMinSpan ≤ cap.yMax - cap.yMin) ∧
      12 ≤ cap.zeroN ∧
      (cap.zxHi - cap.zxLo ≤ calCenterSpread ∧ cap.zyHi - cap.zyLo ≤ calCenterSpread) ∧
      calCfgOk cap.cfg = 0 := by
  rw [calCapFinish_eq, calCenterSamples]
  split_ifs with few narrow fewCentre unstable outside
  · exact iff_of_false nofun (by omega)
  · exact iff_of_false nofun (by omega)
  · exact iff_of_false nofun (by omega)
  · exact iff_of_false nofun (by omega)
  · exact iff_of_false nofun fun accepted => outside accepted.2.2.2.2
  · exact iff_of_true rfl ⟨by omega, by omega, by omega, by omega, not_not.mp outside⟩

theorem calCapFinish_cfg {cap : CalCap} {cfg : CalCfg} (accepted : (calCapFinish cap cfg).2 = none) :
    (calCapFinish cap cfg).1 = cap.cfg := by
  rw [calCapFinish_eq] at accepted ⊢
  split_ifs at accepted ⊢
  rfl

theorem samples_valid (calls : List CaptureCall) :
    (∀ sample ∈ (samplesOf calls).range, IsSample sample.1 sample.2) ∧
      ∀ sample ∈ (samplesOf calls).centre, IsSample sample.1 sample.2 := by
  induction calls using List.reverseRecOn with
  | nil => exact ⟨nofun, nofun⟩
  | append_singleton calls call induction =>
      rw [samplesOf_concat]
      rcases induction with ⟨ranges, centres⟩
      cases call with
      | range x y =>
          rw [Samples.call]
          split
          · rename_i isSample
            refine ⟨fun sample member => ?_, centres⟩
            rcases List.mem_append.mp member with earlier | isLast
            · exact ranges sample earlier
            · cases List.mem_singleton.mp isLast
              exact isSample
          · exact ⟨ranges, centres⟩
      | center x y =>
          rw [Samples.call]
          split
          · rename_i isSample
            refine ⟨ranges, fun sample member => ?_⟩
            rcases List.mem_append.mp member with earlier | isLast
            · exact centres sample earlier
            · cases List.mem_singleton.mp isLast
              exact isSample
          · exact ⟨ranges, centres⟩
      | windowReset => exact ⟨ranges, nofun⟩

theorem bytes_of_samples {samples : List (Int × Int)}
    (valid : ∀ sample ∈ samples, IsSample sample.1 sample.2) :
    (∀ value ∈ samples.map Prod.fst, IsByte value) ∧ ∀ value ∈ samples.map Prod.snd, IsByte value := by
  simp only [List.forall_mem_map]
  exact ⟨fun sample member => ⟨(valid sample member).1, (valid sample member).2.1⟩,
    fun sample member => (valid sample member).2.2⟩

/-- `cal_cap_finish` succeeds exactly on acceptable samples, with their ends and
means, and the driver takes what it makes of them. -/
structure Captures (calls : List CaptureCall) (cap : CalCap) (cfg : CalCfg) : Prop where
  succeeds : (calCapFinish cap cfg).2 = none ↔ (samplesOf calls).Accepted
  xAxis : (calCapFinish cap cfg).2 = none →
    AxisOf ((samplesOf calls).range.map Prod.fst) ((samplesOf calls).centre.map Prod.fst)
      (calCapFinish cap cfg).1.xMin (calCapFinish cap cfg).1.xZero (calCapFinish cap cfg).1.xMax
  yAxis : (calCapFinish cap cfg).2 = none →
    AxisOf ((samplesOf calls).range.map Prod.snd) ((samplesOf calls).centre.map Prod.snd)
      (calCapFinish cap cfg).1.yMin (calCapFinish cap cfg).1.yZero (calCapFinish cap cfg).1.yMax
  cfgOk : (calCapFinish cap cfg).2 = none → calCfgOk (calCapFinish cap cfg).1 = 0
  driver : (calCapFinish cap cfg).2 = none →
    mfCenterInRange (calCapFinish cap cfg).1.xMin (calCapFinish cap cfg).1.xZero
        (calCapFinish cap cfg).1.xMax = 0 ∧
      mfCenterInRange (calCapFinish cap cfg).1.yMin (calCapFinish cap cfg).1.yZero
        (calCapFinish cap cfg).1.yMax = 0

theorem captures_summary (calls : List CaptureCall) (cfg : CalCfg) :
    Captures calls (samplesOf calls).summary cfg := by
  rcases samples_valid calls with ⟨ranges, centres⟩
  rcases bytes_of_samples ranges with ⟨xRange, yRange⟩
  rcases bytes_of_samples centres with ⟨xCentre, yCentre⟩
  have cfgIs := @calCapFinish_cfg (samplesOf calls).summary cfg
  have some_of_le : ∀ {samples : List (Int × Int)} {count : Nat}, 0 < count →
      count ≤ samples.length → samples.map Prod.fst ≠ [] ∧ samples.map Prod.snd ≠ [] := by
    rintro (_ | ⟨sample, rest⟩) count positive enough
    · exact absurd enough (Nat.not_le_of_lt positive)
    · exact ⟨nofun, nofun⟩
  have someRange : (calCapFinish (samplesOf calls).summary cfg).2 = none →
      (samplesOf calls).range.map Prod.fst ≠ [] ∧ (samplesOf calls).range.map Prod.snd ≠ [] :=
    fun accepted => some_of_le (by decide) (Int.ofNat_le.mp (calCapFinish_accepts.mp accepted).1)
  have ok : (calCapFinish (samplesOf calls).summary cfg).2 = none →
      calCfgOk (calCapFinish (samplesOf calls).summary cfg).1 = 0 := fun accepted => by
    rw [cfgIs accepted]
    exact (calCapFinish_accepts.mp accepted).2.2.2.2
  exact {
    succeeds := by
      rw [calCapFinish_accepts, calCfgOk_eq_zero_iff, summary_cfg]
      constructor
      · rintro ⟨enough, ⟨xSpan, ySpan⟩, enoughCentre, ⟨xSpread, ySpread⟩, xOk, yOk⟩
        have enough := Int.ofNat_le.mp enough
        have enoughCentre := Int.ofNat_le.mp enoughCentre
        have some := some_of_le (by decide) enough
        have someCentre := some_of_le (by decide) enoughCentre
        exact ⟨enough, enoughCentre,
          (axisAccepted_iff xRange xCentre some.1 someCentre.1).mpr ⟨xSpan, xSpread, xOk⟩,
          (axisAccepted_iff yRange yCentre some.2 someCentre.2).mpr ⟨ySpan, ySpread, yOk⟩⟩
      · rintro ⟨enough, enoughCentre, x, y⟩
        have some := some_of_le (by decide) enough
        have someCentre := some_of_le (by decide) enoughCentre
        rcases (axisAccepted_iff xRange xCentre some.1 someCentre.1).mp x with ⟨xSpan, xSpread, xOk⟩
        rcases (axisAccepted_iff yRange yCentre some.2 someCentre.2).mp y with ⟨ySpan, ySpread, yOk⟩
        exact ⟨Int.ofNat_le.mpr enough, ⟨xSpan, ySpan⟩, Int.ofNat_le.mpr enoughCentre,
          ⟨xSpread, ySpread⟩, xOk, yOk⟩
    xAxis := fun accepted => by
      rw [cfgIs accepted, summary_cfg]
      exact axisOf_extremes xRange (someRange accepted).1
    yAxis := fun accepted => by
      rw [cfgIs accepted, summary_cfg]
      exact axisOf_extremes yRange (someRange accepted).2
    cfgOk := ok
    driver := fun accepted =>
      have both := (calCfgOk_eq_zero_iff _).mp (ok accepted)
      ⟨mfCenterInRange_of_calCenterOk both.1, mfCenterInRange_of_calCenterOk both.2⟩ }

theorem samplesOf_replicate (count : Nat) :
    samplesOf (List.replicate count (.center 255 255)) = ⟨[], List.replicate count (255, 255)⟩ := by
  induction count with
  | zero => rfl
  | succ count induction =>
      rw [List.replicate_succ', samplesOf_concat, induction, List.replicate_succ', Samples.call,
        if_pos (by decide)]

theorem samples_length_le (calls : List CaptureCall) :
    (samplesOf calls).range.length ≤ calls.length ∧ (samplesOf calls).centre.length ≤ calls.length := by
  induction calls using List.reverseRecOn with
  | nil => exact ⟨Nat.le_refl _, Nat.le_refl _⟩
  | append_singleton calls call induction =>
      rw [samplesOf_concat, List.length_append, List.length_singleton]
      cases call with
      | range x y =>
          rw [Samples.call]
          split
          · simp only [List.length_append, List.length_singleton]
            omega
          · omega
      | center x y =>
          rw [Samples.call]
          split
          · simp only [List.length_append, List.length_singleton]
            omega
          · omega
      | windowReset =>
          rw [Samples.call]
          simp only [List.length_nil]
          omega

theorem sum_bytes_le {values : List Int} (bytes : ∀ value ∈ values, IsByte value) :
    values.sum ≤ 255 * values.length := by
  have total := List.sum_le_card_nsmul values 255 fun value member => (bytes value member).2
  rw [nsmul_eq_mul] at total
  omega

/-- Nothing overflows in this many calls. -/
theorem fit_of_short {calls : List CaptureCall} (short : calls.length ≤ 8421504) :
    (samplesOf calls).Fit := by
  rcases samples_length_le calls with ⟨rangeShort, centreShort⟩
  have bytes := bytes_of_samples (samples_valid calls).2
  have xSum := sum_bytes_le bytes.1
  have ySum := sum_bytes_le bytes.2
  rw [List.length_map] at xSum ySum
  refine ⟨?_, ?_, ?_, ?_⟩ <;> rw [intMax] <;> omega

/-- A sequence of samples is captured exactly if no count and no sum leaves `int`
on the way. -/
theorem capture_matches_samples (calls : List CaptureCall) :
    (∃ cap, capture calls = some cap ∧ ∀ cfg, Captures calls cap cfg) ↔
      ∀ before, before <+: calls → (samplesOf before).Fit := by
  constructor
  · rintro ⟨cap, captured, _⟩
    exact (capture_eq_some.mp captured).1
  · intro fits
    exact ⟨_, capture_eq_some.mpr ⟨fits, rfl⟩, captures_summary calls⟩

/-- A centre window of 8421505 samples: the sums leave `int`. -/
theorem capture_overflows : ¬∃ cap, capture (List.replicate 8421505 (.center 255 255)) = some cap ∧
    ∀ cfg, Captures (List.replicate 8421505 (.center 255 255)) cap cfg := by
  rintro ⟨cap, captured, _⟩
  have fit := (capture_eq_some.mp captured).1 _ List.prefix_rfl
  rw [samplesOf_replicate] at fit
  have sum := fit.xSum
  rw [List.map_replicate, List.sum_replicate, intMax] at sum
  simp at sum

end Zlyme.Gamepad
