import Zlyme.Gamepad.Report
import Mathlib.Data.Nat.Sqrt
import Mathlib.Algebra.Order.Group.Unbundled.Int
import Mathlib.Tactic.Ring
import Mathlib.Algebra.Order.Ring.Abs

/-! # The radial deadzone

What `mf_radial` does to the length of a stick's vector, and that no intermediate value
leaves its C type.
-/

namespace Zlyme.Gamepad

/-! ## C arithmetic -/

/-- A result of signed 64-bit arithmetic, when it does not overflow. -/
def s64 (value : Int) : Option Int :=
  if -2 ^ 63 ≤ value ∧ value < 2 ^ 63 then some value else none

/-- `div_s64`, whose divisor is an `s32`. -/
def divS64 (dividend divisor : Int) : Option Int :=
  if divisor ≠ 0 ∧ -2 ^ 31 ≤ divisor ∧ divisor < 2 ^ 31 then some (dividend.tdiv divisor)
  else none

/-- The cast of an `s64` to `int`, when it keeps the value. -/
def toInt32 (value : Int) : Option Int :=
  if -2 ^ 31 ≤ value ∧ value < 2 ^ 31 then some value else none

/-- One output of the scaled region. -/
def scaledAxis (value num den : Int) : Option Int := do
  let product ← s64 (value * num)
  let quotient ← divS64 product den
  let out ← toInt32 quotient
  return clampAbs out

/-- `mf_radial` with the types of the source: there is no value where an operation
overflows or divides by zero. -/
def mfRadialChecked (kernel : Kernel) (pct x y : Int) : Option (Int × Int) :=
  if pct ≤ 0 then some (x, y)
  else if x = 0 ∧ y = 0 then some (x, y)
  else do
    let xSquare ← s64 (x * x)
    let ySquare ← s64 (y * y)
    let square ← s64 (xSquare + ySquare)
    let r ← s64 (kernel.intSqrt64 square.toNat)
    let product ← s64 (mfAbsRange * pct)
    let d := product.tdiv 100
    if r = 0 then return (x, y)
    else if r ≤ d then return (0, 0)
    else if r ≥ mfAbsRange then return (x, y)
    else
      let num ← s64 ((r - d) * mfAbsRange)
      let den ← s64 (r * (mfAbsRange - d))
      let ox ← scaledAxis x num den
      let oy ← scaledAxis y num den
      return (ox, oy)

/-- `int_sqrt64` is the integer part of the square root. -/
def Kernel.RootsExactly (kernel : Kernel) : Prop :=
  ∀ value < 2 ^ 64, kernel.intSqrt64 value = Nat.sqrt value

/-! ## Lengths -/

/-- The radius of the deadzone. -/
def innerRadius (pct : Nat) : Nat :=
  32767 * pct / 100

/-- What becomes of the length of one component of a vector of length `r`. -/
def radialLength (d r length : Nat) : Nat :=
  if r ≤ d then 0
  else if 32767 ≤ r then length
  else length * ((r - d) * 32767) / (r * (32767 - d))

theorem radialLength_le {d r length : Nat} (inner : d < 32767) :
    radialLength d r length ≤ length := by
  rw [radialLength]
  split_ifs with near far
  · exact Nat.zero_le _
  · exact le_rfl
  · have gain : (r - d) * 32767 ≤ r * (32767 - d) := by
      rw [Nat.sub_mul, Nat.mul_sub]
      have : r * d ≤ d * 32767 := by
        rw [Nat.mul_comm r]
        exact Nat.mul_le_mul_left d (Nat.le_of_not_le far)
      omega
    have positive : 0 < r * (32767 - d) := Nat.mul_pos (by omega) (by omega)
    rw [Nat.div_le_iff_le_mul_add_pred positive]
    calc length * ((r - d) * 32767) ≤ length * (r * (32767 - d)) := Nat.mul_le_mul_left _ gain
      _ = r * (32767 - d) * length := Nat.mul_comm _ _
      _ ≤ r * (32767 - d) * length + (r * (32767 - d) - 1) := Nat.le_add_right _ _

/-- A quotient grows with the fraction. -/
theorem div_le_div_of_cross {a b c e : Nat} (positive : 0 < b) (positive' : 0 < e)
    (cross : a * e ≤ c * b) : a / b ≤ c / e := by
  rw [Nat.le_div_iff_mul_le positive']
  refine Nat.le_of_mul_le_mul_right ?_ positive
  calc a / b * e * b = a / b * b * e := Nat.mul_right_comm _ _ _
    _ ≤ a * e := Nat.mul_le_mul_right e (Nat.div_mul_le_self a b)
    _ ≤ c * b := cross

/-- A longer component of a longer vector stays at least as long. -/
theorem radialLength_mono {d r r' length length' : Nat} (inner : d < 32767) (less : r ≤ r')
    (shorter : length ≤ length') : radialLength d r length ≤ radialLength d r' length' := by
  by_cases near : r ≤ d
  · rw [radialLength, if_pos near]
    exact Nat.zero_le _
  · have near' : ¬r' ≤ d := fun inside => near (less.trans inside)
    by_cases far' : 32767 ≤ r'
    · rw [radialLength.eq_def d r', if_neg near', if_pos far']
      exact (radialLength_le inner).trans shorter
    · have far : ¬32767 ≤ r := fun outside => far' (outside.trans less)
      rw [radialLength, radialLength, if_neg near, if_neg near', if_neg far, if_neg far']
      refine div_le_div_of_cross (Nat.mul_pos (by omega) (by omega))
        (Nat.mul_pos (by omega) (by omega)) ?_
      have gain : (r - d) * r' ≤ (r' - d) * r := by
        rw [Nat.sub_mul, Nat.sub_mul, Nat.mul_comm r' r]
        exact Nat.sub_le_sub_left (Nat.mul_le_mul_left d less) _
      calc length * ((r - d) * 32767) * (r' * (32767 - d))
          = length * ((r - d) * r') * (32767 * (32767 - d)) := by ring
        _ ≤ length' * ((r' - d) * r) * (32767 * (32767 - d)) :=
            Nat.mul_le_mul_right _ (Nat.mul_le_mul shorter gain)
        _ = length' * ((r' - d) * 32767) * (r * (32767 - d)) := by ring

/-! ## One component -/

/-- The clamp takes nothing from a component that is not longer than the full range. -/
theorem clampAbs_of_inAbsRange {value : Int} (inRange : InAbsRange value) :
    clampAbs value = value := by
  rw [InAbsRange] at inRange
  rw [clampAbs]
  split_ifs <;> omega

theorem inAbsRange_iff {value : Int} : InAbsRange value ↔ value.natAbs ≤ 32767 := by
  rw [InAbsRange, mfAbsRange]
  omega

theorem scaled_sign (value : Int) (num den : Nat) : 0 ≤ value * (value * num).tdiv den := by
  have signed : ∀ positive : Int, 0 ≤ positive →
      0 ≤ positive * (positive * num).tdiv den := fun positive nonneg =>
    Int.mul_nonneg nonneg (Int.tdiv_nonneg (Int.mul_nonneg nonneg (Int.natCast_nonneg _))
      (Int.natCast_nonneg _))
  rcases Int.le_total 0 value with nonneg | nonpos
  · exact signed value nonneg
  · have mirrored := signed (-value) (by omega)
    rw [Int.neg_mul value num, Int.neg_tdiv, Int.neg_mul_neg] at mirrored
    exact mirrored

/-- What `mf_radial` makes of one component of a vector of length `r`. -/
def radialScale (d r : Nat) (value : Int) : Int :=
  if r ≤ d then 0
  else if 32767 ≤ r then value
  else (value * ((r - d) * 32767 : Nat)).tdiv (r * (32767 - d) : Nat)

theorem natAbs_radialScale (d r : Nat) (value : Int) :
    (radialScale d r value).natAbs = radialLength d r value.natAbs := by
  rw [radialScale, radialLength]
  split_ifs with near far
  · rfl
  · rfl
  · rw [Int.natAbs_tdiv, Int.natAbs_mul, Int.natAbs_natCast, Int.natAbs_natCast]
    rfl

theorem radialScale_inAbsRange {d : Nat} (inner : d < 32767) (r : Nat) {value : Int}
    (inRange : InAbsRange value) : InAbsRange (radialScale d r value) := by
  rw [inAbsRange_iff, natAbs_radialScale]
  exact (radialLength_le inner).trans (inAbsRange_iff.mp inRange)

/-- An output points the way of its input, or is zero. -/
def KeepsSign (value out : Int) : Prop :=
  out = 0 ∨ out.sign = value.sign

theorem keepsSign_of_mul_nonneg {value out : Int} (aligned : 0 ≤ value * out)
    (shorter : out.natAbs ≤ value.natAbs) : KeepsSign value out := by
  by_cases zero : out = 0
  · exact .inl zero
  refine .inr ?_
  have moved : value ≠ 0 := by omega
  have positive : 0 < value * out :=
    lt_of_le_of_ne aligned (Ne.symm (Int.mul_ne_zero moved zero))
  rcases Int.lt_or_gt_of_ne moved with negative | ahead
  · rw [Int.sign_eq_neg_one_of_neg negative,
      Int.sign_eq_neg_one_of_neg (neg_of_mul_pos_right positive negative.le)]
  · rw [Int.sign_eq_one_of_pos ahead,
      Int.sign_eq_one_of_pos (pos_of_mul_pos_right positive ahead.le)]

theorem radialScale_keepsSign {d : Nat} (inner : d < 32767) (r : Nat) (value : Int) :
    KeepsSign value (radialScale d r value) := by
  refine keepsSign_of_mul_nonneg ?_ ?_
  · rw [radialScale]
    split_ifs with near far
    · rw [Int.mul_zero]
    · exact mul_self_nonneg value
    · exact scaled_sign value _ _
  · rw [natAbs_radialScale]
    exact radialLength_le inner

/-! ## The vector -/

section Vector

variable {kernel : Kernel} (exact : kernel.RootsExactly) {pct : Nat} {x y : Int}

/-- The length of a vector, as the kernel computes it. -/
def radius (x y : Int) : Nat :=
  Nat.sqrt (x.natAbs * x.natAbs + y.natAbs * y.natAbs)

theorem square_eq (x y : Int) :
    x * x + y * y = (x.natAbs * x.natAbs + y.natAbs * y.natAbs : Nat) := by
  rw [Nat.cast_add, Int.natCast_mul, Int.natCast_mul, Int.natAbs_mul_self', Int.natAbs_mul_self']

theorem square_lt (xIn : InAbsRange x) (yIn : InAbsRange y) :
    x.natAbs * x.natAbs + y.natAbs * y.natAbs < 2 ^ 31 := by
  have xSquare := Nat.mul_le_mul (inAbsRange_iff.mp xIn) (inAbsRange_iff.mp xIn)
  have ySquare := Nat.mul_le_mul (inAbsRange_iff.mp yIn) (inAbsRange_iff.mp yIn)
  omega

theorem radius_lt (xIn : InAbsRange x) (yIn : InAbsRange y) : radius x y < 46341 :=
  Nat.sqrt_lt.mpr ((square_lt xIn yIn).trans (by decide))

include exact in
theorem intSqrt64_eq (xIn : InAbsRange x) (yIn : InAbsRange y) :
    kernel.intSqrt64 (x * x + y * y).toNat = radius x y := by
  rw [square_eq, Int.toNat_natCast]
  exact exact _ ((square_lt xIn yIn).trans (by decide))

theorem innerRadius_eq (pct : Nat) : (mfAbsRange * pct).tdiv 100 = innerRadius pct := by
  rw [mfAbsRange, innerRadius, Int.tdiv_eq_ediv_of_nonneg (by omega)]
  norm_cast

theorem innerRadius_lt (atMost : pct ≤ mfDzMaxPercent) : innerRadius pct < 32767 := by
  rw [mfDzMaxPercent] at atMost
  rw [innerRadius]
  omega

include exact in
theorem mfRadial_eq (positive : 0 < pct) (atMost : pct ≤ mfDzMaxPercent) (xIn : InAbsRange x)
    (yIn : InAbsRange y) : mfRadial kernel pct x y =
      (radialScale (innerRadius pct) (radius x y) x,
        radialScale (innerRadius pct) (radius x y) y) := by
  have inner := innerRadius_lt atMost
  have xScaled := clampAbs_of_inAbsRange (radialScale_inAbsRange inner (radius x y) xIn)
  have yScaled := clampAbs_of_inAbsRange (radialScale_inAbsRange inner (radius x y) yIn)
  rw [mfRadial, if_neg (by omega), intSqrt64_eq exact xIn yIn, innerRadius_eq]
  by_cases still : x = 0 ∧ y = 0
  · rw [if_pos still]
    rcases still with ⟨rfl, rfl⟩
    rw [radius, radialScale, if_pos (by simp)]
  · rw [if_neg still]
    dsimp only
    have away : (radius x y : Int) ≠ 0 := by
      have square : ∀ value : Int, value ≠ 0 → 0 < value.natAbs * value.natAbs :=
        fun value moved => Nat.mul_pos (Int.natAbs_pos.mpr moved) (Int.natAbs_pos.mpr moved)
      have positive : 0 < radius x y := by
        rw [radius, Nat.sqrt_pos]
        rcases not_and_or.mp still with moved | moved
        · exact Nat.add_pos_left (square x moved) _
        · exact Nat.add_pos_right _ (square y moved)
      omega
    have beyond : (radius x y : Int) ≥ mfAbsRange ↔ 32767 ≤ radius x y := by
      rw [mfAbsRange]
      omega
    rw [if_neg away]
    by_cases near : radius x y ≤ innerRadius pct
    · rw [if_pos (Int.ofNat_le.mpr near), radialScale, radialScale, if_pos near, if_pos near]
    · rw [if_neg fun le => near (Int.ofNat_le.mp le)]
      by_cases far : 32767 ≤ radius x y
      · rw [if_pos (beyond.mpr far), radialScale, radialScale, if_neg near, if_pos far,
          if_neg near, if_pos far]
      · rw [if_neg fun past => far (beyond.mp past)]
        rw [radialScale, if_neg near, if_neg far] at xScaled yScaled
        rw [radialScale, radialScale, if_neg near, if_neg far, if_neg near, if_neg far]
        push_cast [Nat.cast_sub (Nat.le_of_not_le near), Nat.cast_sub inner.le] at xScaled yScaled ⊢
        exact Prod.ext xScaled yScaled

/-! ## No overflow -/

/-- A computation goes on with a value that is there. -/
theorem some_bind_eq {α β : Type} {found : Option α} {value : α} {next : α → Option β}
    (held : found = some value) : (found >>= next) = next value := by
  rw [held]
  rfl

theorem s64_of_bounds {value : Int} (lower : -2 ^ 63 ≤ value) (upper : value < 2 ^ 63) :
    s64 value = some value :=
  if_pos ⟨lower, upper⟩

/-- One output of the scaled region is computed as it is written. -/
theorem scaledAxis_eq {value d r : Int} (inRange : InAbsRange value) (nonneg : 0 ≤ d)
    (outside : d < r) (inside : r < mfAbsRange) (divisor : 0 < r * (mfAbsRange - d))
    (fits : r * (mfAbsRange - d) < 2 ^ 31)
    (small : InAbsRange ((value * ((r - d) * mfAbsRange)).tdiv (r * (mfAbsRange - d)))) :
    scaledAxis value ((r - d) * mfAbsRange) (r * (mfAbsRange - d)) =
      some (clampAbs ((value * ((r - d) * mfAbsRange)).tdiv (r * (mfAbsRange - d)))) := by
  have product := mfRadial_dividend_fits inRange nonneg outside inside
  rw [scaledAxis, s64_of_bounds product.1 product.2, Option.bind_eq_bind, Option.bind_some,
    divS64, if_pos ⟨by omega, by omega, fits⟩, Option.bind_some, toInt32, if_pos]
  · rfl
  · have lower := small.1
    have upper := small.2
    rw [show mfAbsRange = 32767 from rfl] at lower upper ⊢
    omega

/-- All the values of the source but the two scaled products are below `2 ^ 31`. -/
theorem s64_of_small {value : Int} (nonneg : 0 ≤ value) (small : value < 2 ^ 31) :
    s64 value = some value :=
  s64_of_bounds (by omega) (by omega)

theorem s64_square (inRange : InAbsRange x) : s64 (x * x) = some (x * x) := by
  have bound := Nat.mul_le_mul (inAbsRange_iff.mp inRange) (inAbsRange_iff.mp inRange)
  have square : x * x = (x.natAbs * x.natAbs : Nat) := by
    rw [Int.natCast_mul, Int.natAbs_mul_self']
  exact s64_of_small (by omega) (by omega)

theorem s64_squares (xIn : InAbsRange x) (yIn : InAbsRange y) :
    s64 (x * x + y * y) = some (x * x + y * y) := by
  have bound := square_lt xIn yIn
  rw [square_eq]
  exact s64_of_small (by omega) (by omega)

theorem s64_radius (xIn : InAbsRange x) (yIn : InAbsRange y) :
    s64 (radius x y) = some (radius x y : Int) := by
  have bound := radius_lt xIn yIn
  exact s64_of_small (by omega) (by omega)

theorem s64_percent (atMost : pct ≤ mfDzMaxPercent) :
    s64 (mfAbsRange * pct) = some (mfAbsRange * pct) := by
  rw [mfDzMaxPercent] at atMost
  rw [mfAbsRange]
  exact s64_of_small (by omega) (by omega)

/-- The two products that make the gain. -/
theorem s64_num (inside : (radius x y : Int) < mfAbsRange)
    (outside : (innerRadius pct : Int) < radius x y) :
    s64 ((radius x y - innerRadius pct) * mfAbsRange) =
      some ((radius x y - innerRadius pct) * mfAbsRange) := by
  rw [mfAbsRange] at inside ⊢
  exact s64_of_small (by omega) (by omega)

theorem den_bounds (positive : 0 < pct) (atMost : pct ≤ mfDzMaxPercent)
    (inside : (radius x y : Int) < mfAbsRange)
    (outside : (innerRadius pct : Int) < radius x y) :
    0 < (radius x y : Int) * (mfAbsRange - innerRadius pct) ∧
      (radius x y : Int) * (mfAbsRange - innerRadius pct) < 2 ^ 31 := by
  rw [← innerRadius_eq] at outside ⊢
  exact mfRadial_den_fits (Int.natCast_pos.mpr positive) (by omega) outside inside

/-- The scaled output is in range before it is clamped. -/
theorem quotient_inAbsRange (atMost : pct ≤ mfDzMaxPercent) {value : Int}
    (inRange : InAbsRange value) (inside : (radius x y : Int) < mfAbsRange)
    (outside : (innerRadius pct : Int) < radius x y) :
    InAbsRange ((value * ((radius x y - innerRadius pct) * mfAbsRange)).tdiv
      (radius x y * (mfAbsRange - innerRadius pct))) := by
  have inner := innerRadius_lt atMost
  have scaled := radialScale_inAbsRange inner (radius x y) inRange
  rw [mfAbsRange] at inside ⊢
  rw [radialScale, if_neg (by omega), if_neg (by omega)] at scaled
  push_cast [Nat.cast_sub (show innerRadius pct ≤ radius x y by omega),
    Nat.cast_sub inner.le] at scaled
  exact scaled

include exact in
/-- No operation overflows, and none divides by zero. -/
theorem mfRadialChecked_eq (atMost : pct ≤ mfDzMaxPercent) (xIn : InAbsRange x)
    (yIn : InAbsRange y) :
    mfRadialChecked kernel pct x y = some (mfRadial kernel pct x y) := by
  rw [mfRadialChecked, mfRadial]
  split_ifs with off still
  · rfl
  · rfl
  rw [some_bind_eq (s64_square xIn), some_bind_eq (s64_square yIn),
    some_bind_eq (s64_squares xIn yIn), intSqrt64_eq exact xIn yIn,
    some_bind_eq (s64_radius xIn yIn), some_bind_eq (s64_percent atMost), innerRadius_eq]
  dsimp only
  split_ifs with away near beyond
  · rfl
  · rfl
  · rfl
  have inside : (radius x y : Int) < mfAbsRange := Int.not_le.mp beyond
  have outside : (innerRadius pct : Int) < radius x y := Int.not_le.mp near
  have positive : 0 < pct := by omega
  have den := den_bounds positive atMost inside outside
  have nonneg : 0 ≤ (innerRadius pct : Int) := Int.natCast_nonneg _
  rw [some_bind_eq (s64_num inside outside), some_bind_eq (s64_of_small den.1.le den.2),
    some_bind_eq (scaledAxis_eq xIn nonneg outside inside den.1 den.2
      (quotient_inAbsRange atMost xIn inside outside)),
    some_bind_eq (scaledAxis_eq yIn nonneg outside inside den.1 den.2
      (quotient_inAbsRange atMost yIn inside outside))]
  rfl

/-! ## The two outputs -/

theorem mfRadial_off (kernel : Kernel) (x y : Int) : mfRadial kernel 0 x y = (x, y) :=
  if_pos le_rfl

include exact in
/-- Every percentage scales both components as `radialScale` does, and `0` leaves them. -/
theorem mfRadial_cases (atMost : pct ≤ mfDzMaxPercent) (xIn : InAbsRange x)
    (yIn : InAbsRange y) :
    (pct = 0 ∧ mfRadial kernel pct x y = (x, y)) ∨
      (0 < pct ∧ mfRadial kernel pct x y =
        (radialScale (innerRadius pct) (radius x y) x,
          radialScale (innerRadius pct) (radius x y) y)) := by
  rcases Nat.eq_zero_or_pos pct with rfl | positive
  · exact .inl ⟨rfl, mfRadial_off kernel x y⟩
  · exact .inr ⟨positive, mfRadial_eq exact positive atMost xIn yIn⟩

include exact in
theorem mfRadial_shrinks (atMost : pct ≤ mfDzMaxPercent) (xIn : InAbsRange x)
    (yIn : InAbsRange y) :
    (mfRadial kernel pct x y).1.natAbs ≤ x.natAbs ∧
      (mfRadial kernel pct x y).2.natAbs ≤ y.natAbs := by
  rcases mfRadial_cases exact atMost xIn yIn with ⟨-, same⟩ | ⟨-, scaled⟩
  · rw [same]
    exact ⟨le_rfl, le_rfl⟩
  · rw [scaled, natAbs_radialScale, natAbs_radialScale]
    exact ⟨radialLength_le (innerRadius_lt atMost), radialLength_le (innerRadius_lt atMost)⟩

include exact in
theorem mfRadial_keepsSign (atMost : pct ≤ mfDzMaxPercent) (xIn : InAbsRange x)
    (yIn : InAbsRange y) :
    KeepsSign x (mfRadial kernel pct x y).1 ∧ KeepsSign y (mfRadial kernel pct x y).2 := by
  rcases mfRadial_cases exact atMost xIn yIn with ⟨-, same⟩ | ⟨-, scaled⟩
  · rw [same]
    exact ⟨.inr rfl, .inr rfl⟩
  · rw [scaled]
    exact ⟨radialScale_keepsSign (innerRadius_lt atMost) _ _,
      radialScale_keepsSign (innerRadius_lt atMost) _ _⟩

theorem radius_mono {x' y' : Int} (xLess : x.natAbs ≤ x'.natAbs)
    (yLess : y.natAbs ≤ y'.natAbs) : radius x y ≤ radius x' y' :=
  Nat.sqrt_le_sqrt (Nat.add_le_add (Nat.mul_le_mul xLess xLess) (Nat.mul_le_mul yLess yLess))

include exact in
/-- Neither output gets shorter when the stick moves further out. -/
theorem mfRadial_mono {x' y' : Int} (atMost : pct ≤ mfDzMaxPercent) (xIn : InAbsRange x)
    (yIn : InAbsRange y) (xIn' : InAbsRange x') (yIn' : InAbsRange y')
    (xLess : x.natAbs ≤ x'.natAbs) (yLess : y.natAbs ≤ y'.natAbs) :
    (mfRadial kernel pct x y).1.natAbs ≤ (mfRadial kernel pct x' y').1.natAbs ∧
      (mfRadial kernel pct x y).2.natAbs ≤ (mfRadial kernel pct x' y').2.natAbs := by
  rcases Nat.eq_zero_or_pos pct with rfl | positive
  · rw [Nat.cast_zero, mfRadial_off, mfRadial_off]
    exact ⟨xLess, yLess⟩
  · have inner := innerRadius_lt atMost
    have further := radius_mono xLess yLess
    rw [mfRadial_eq exact positive atMost xIn yIn, mfRadial_eq exact positive atMost xIn' yIn',
      natAbs_radialScale, natAbs_radialScale, natAbs_radialScale, natAbs_radialScale]
    exact ⟨radialLength_mono inner further xLess, radialLength_mono inner further yLess⟩

end Vector

theorem abs_le_abs_iff_natAbs {a b : Int} : |a| ≤ |b| ↔ a.natAbs ≤ b.natAbs := by
  rw [Int.abs_eq_natAbs, Int.abs_eq_natAbs]
  exact Int.ofNat_le

/-- Two outputs of which the second is component by component not shorter. -/
theorem radius_within_rounding {a b a' b' : Int} (first : a.natAbs ≤ a'.natAbs)
    (second : b.natAbs ≤ b'.natAbs) :
    a ^ 2 + b ^ 2 ≤ ((|a'| + 1) ^ 2 + (|b'| + 1) ^ 2) := by
  have square : ∀ {c c' : Int}, c.natAbs ≤ c'.natAbs → c ^ 2 ≤ (|c'| + 1) ^ 2 := by
    intro c c' shorter
    rw [← sq_abs c]
    exact pow_le_pow_left₀ (abs_nonneg c)
      ((abs_le_abs_iff_natAbs.mpr shorter).trans (Int.le_add_of_nonneg_right (by decide))) 2
  exact add_le_add (square first) (square second)

/-- `mf_radial` over the whole range of sticks and deadzones. -/
theorem mfRadial_scales {kernel : Kernel} (exact : kernel.RootsExactly) {pct : Nat}
    (atMost : pct ≤ mfDzMaxPercent) :
    (∀ x y, InAbsRange x → InAbsRange y →
      mfRadialChecked kernel pct x y = some (mfRadial kernel pct x y) ∧
      InAbsRange (mfRadial kernel pct x y).1 ∧ InAbsRange (mfRadial kernel pct x y).2 ∧
      KeepsSign x (mfRadial kernel pct x y).1 ∧ KeepsSign y (mfRadial kernel pct x y).2 ∧
      |(mfRadial kernel pct x y).1| ≤ |x| ∧ |(mfRadial kernel pct x y).2| ≤ |y|) ∧
    (∀ x₁ y₁ x₂ y₂, InAbsRange x₁ → InAbsRange y₁ → InAbsRange x₂ → InAbsRange y₂ →
      |x₁| ≤ |x₂| → |y₁| ≤ |y₂| →
      (mfRadial kernel pct x₁ y₁).1 ^ 2 + (mfRadial kernel pct x₁ y₁).2 ^ 2 ≤
        (|(mfRadial kernel pct x₂ y₂).1| + 1) ^ 2 +
          (|(mfRadial kernel pct x₂ y₂).2| + 1) ^ 2) ∧
    (pct = 0 → ∀ x y, mfRadial kernel pct x y = (x, y)) := by
  refine ⟨fun x y xIn yIn => ?_, fun x₁ y₁ x₂ y₂ xIn₁ yIn₁ xIn₂ yIn₂ xLess yLess => ?_, ?_⟩
  · have range := mfRadial_inAbsRange kernel pct xIn yIn
    have sign := mfRadial_keepsSign exact atMost xIn yIn
    have shorter := mfRadial_shrinks exact atMost xIn yIn
    exact ⟨mfRadialChecked_eq exact atMost xIn yIn, range.1, range.2, sign.1, sign.2,
      abs_le_abs_iff_natAbs.mpr shorter.1, abs_le_abs_iff_natAbs.mpr shorter.2⟩
  · have grows := mfRadial_mono exact atMost xIn₁ yIn₁ xIn₂ yIn₂
      (abs_le_abs_iff_natAbs.mp xLess) (abs_le_abs_iff_natAbs.mp yLess)
    exact radius_within_rounding grows.1 grows.2
  · rintro rfl x y
    exact mfRadial_off kernel x y

/-- A quarter pushed stick and one pushed further, at 20 percent. -/
theorem mfRadial_scales_sample :
    hz1000Kernel.RootsExactly ∧
      mfRadialChecked hz1000Kernel (20 : Nat) 9000 (-4000) =
        some (mfRadial hz1000Kernel (20 : Nat) 9000 (-4000)) ∧
      KeepsSign (-4000) (mfRadial hz1000Kernel (20 : Nat) 9000 (-4000)).2 ∧
      (mfRadial hz1000Kernel (20 : Nat) 9000 (-4000)).1 ^ 2 +
          (mfRadial hz1000Kernel (20 : Nat) 9000 (-4000)).2 ^ 2 ≤
        (|(mfRadial hz1000Kernel (20 : Nat) (-12000) 5000).1| + 1) ^ 2 +
          (|(mfRadial hz1000Kernel (20 : Nat) (-12000) 5000).2| + 1) ^ 2 := by
  have exact : hz1000Kernel.RootsExactly := fun _ _ => rfl
  have inRange : ∀ value ∈ [(9000 : Int), -4000, -12000, 5000], InAbsRange value := by
    intro value member
    simp only [List.mem_cons, List.not_mem_nil, or_false] at member
    rw [InAbsRange, mfAbsRange]
    omega
  have scales := mfRadial_scales exact (show 20 ≤ mfDzMaxPercent by decide)
  have one := scales.1 9000 (-4000) (inRange _ (by simp)) (inRange _ (by simp))
  exact ⟨exact, one.1, one.2.2.2.2.1,
    scales.2.1 9000 (-4000) (-12000) 5000 (inRange _ (by simp)) (inRange _ (by simp))
      (inRange _ (by simp)) (inRange _ (by simp)) (by decide) (by decide)⟩

end Zlyme.Gamepad
