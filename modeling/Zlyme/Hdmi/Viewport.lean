import Zlyme.Foundation.CheckedInt

/-! # The viewport of an output

`zlyme_hdmi_viewport` fits a logical size into the size of an output.
-/

namespace Zlyme.Hdmi

open Foundation

/-! ## The code -/

/-- `zlyme_hdmi_rect` -/
structure Rect where
  x : CInt
  y : CInt
  w : CInt
  h : CInt
  deriving DecidableEq

/-- `if (w < 1) w = 1;` -/
def atLeastOne (size : CInt) : CInt :=
  if size.val < 1 then ⟨1, by decide⟩ else size

/-- `(out_w - w) / 2` -/
def margin (outer size : CInt) : Option CInt := do
  (← outer.sub size).div ⟨2, by decide⟩

/-- The width and the height before the smallest size is applied. -/
def fitted (logicalW logicalH outW outH : CInt) : Option (CInt × CInt) := do
  let w ← (← logicalW.mul outH).div logicalH
  if w.val ≤ outW.val then return (w, outH)
  else return (outW, ← (← logicalH.mul outW).div logicalW)

/-- The rectangle of the output, or nothing where an `int` overflows. -/
def zlymeHdmiViewport (logicalW logicalH outW outH : CInt) : Option Rect := do
  if logicalW.val ≤ 0 ∨ logicalH.val ≤ 0 ∨ outW.val ≤ 0 ∨ outH.val ≤ 0 then
    return ⟨⟨0, by decide⟩, ⟨0, by decide⟩, ⟨0, by decide⟩, ⟨0, by decide⟩⟩
  else
    let size ← fitted logicalW logicalH outW outH
    let w := atLeastOne size.1
    let h := atLeastOne size.2
    return { x := ← margin outW w, y := ← margin outH h, w := w, h := h }

/-! ## What a viewport is for -/

/-- A size is in the middle of another one, up to one pixel. -/
structure Centred (outer position size : Int) : Prop where
  positive : 0 < size
  start : 0 ≤ position
  stop : position + size ≤ outer
  middle : outer - 1 ≤ 2 * position + size ∧ 2 * position + size ≤ outer + 1

/-- A length is less than one pixel away from a ratio. -/
def NearRatio (length numerator denominator : Int) : Prop :=
  (length - 1) * denominator < numerator ∧ numerator < (length + 1) * denominator

/-- The rectangle lies in the middle of the output, spans it one way, and has the logical
ratio the other way. -/
structure Framed (logicalW logicalH outW outH : Int) (rect : Rect) : Prop where
  horizontal : Centred outW rect.x.val rect.w.val
  vertical : Centred outH rect.y.val rect.h.val
  spans : (rect.h.val = outH ∧ NearRatio rect.w.val (logicalW * outH) logicalH) ∨
    (rect.w.val = outW ∧ NearRatio rect.h.val (logicalH * outW) logicalW)

/-! ## Lengths -/

theorem atLeastOne_eq (size : CInt) :
    (0 < size.val ∧ (atLeastOne size).val = size.val) ∨ (size.val ≤ 0 ∧ (atLeastOne size).val = 1) := by
  unfold atLeastOne
  split
  · exact .inr ⟨by omega, rfl⟩
  · exact .inl ⟨by omega, rfl⟩

theorem atLeastOne_of_pos {size : CInt} (positive : 0 < size.val) : atLeastOne size = size :=
  if_neg (Int.not_lt.mpr positive)

theorem nearRatio_floor {numerator denominator : Int} {size : CInt} (positive : 0 < numerator)
    (divides : 0 < denominator) (floor : size.val = numerator.tdiv denominator) :
    NearRatio (atLeastOne size).val numerator denominator := by
  rw [Int.tdiv_eq_ediv_of_nonneg (Int.le_of_lt positive)] at floor
  have below : numerator / denominator * denominator ≤ numerator :=
    Int.ediv_mul_le _ (Int.ne_of_gt divides)
  have above : numerator < (numerator / denominator + 1) * denominator :=
    Int.lt_ediv_add_one_mul_self _ divides
  have nonneg : 0 ≤ numerator / denominator :=
    Int.ediv_nonneg (Int.le_of_lt positive) (Int.le_of_lt divides)
  rw [← floor] at below above nonneg
  rcases atLeastOne_eq size with ⟨-, same⟩ | ⟨zero, isOne⟩
  · rw [same]
    refine ⟨?_, above⟩
    rw [Int.sub_mul]
    omega
  · have isZero : size.val = 0 := by omega
    rw [isZero] at above
    rw [isOne]
    constructor <;> omega

/-- The floor of a ratio is less than a length that the ratio is not as large as. -/
theorem floor_lt_of_cross {width height outer limit : Int}
    (larger : limit < (width * outer).tdiv height) (divides : 0 < height) (nonneg : 0 ≤ width * outer) :
    height * limit < width * outer := by
  rw [Int.tdiv_eq_ediv_of_nonneg nonneg] at larger
  calc
    height * limit < height * (width * outer / height) :=
      Int.mul_lt_mul_of_pos_left larger divides
    _ ≤ width * outer := Int.mul_ediv_self_le (Int.ne_of_gt divides)

theorem margin_centred {outer size : CInt} (positive : 0 < size.val) (fits : size.val ≤ outer.val) :
    ∃ position, margin outer size = some position ∧ Centred outer.val position.val size.val := by
  have bounds := outer.property
  rcases CInt.exists_checked_iff.mpr (by omega :
    -2147483648 ≤ outer.val - size.val ∧ outer.val - size.val ≤ 2147483647) with ⟨rest, isRest⟩
  have restVal := CInt.checked_eq_some.mp isRest
  have half : rest.val.tdiv 2 = rest.val / 2 := Int.tdiv_eq_ediv_of_nonneg (by omega)
  rcases CInt.exists_checked_iff.mpr (by omega :
    -2147483648 ≤ rest.val / 2 ∧ rest.val / 2 ≤ 2147483647) with ⟨position, isPosition⟩
  have positionVal := CInt.checked_eq_some.mp isPosition
  refine ⟨position, ?_, ?_⟩
  · apply Option.bind_eq_some_iff.mpr
    refine ⟨rest, isRest, ?_⟩
    rw [CInt.div_eq_some]
    exact ⟨by decide, half.trans positionVal⟩
  · constructor <;> omega

/-! ## The fit -/

/-- A product of positive numbers and its quotient. -/
theorem mul_div_eq_some {left right divisor : CInt} (isLeft : 0 < left.val) (isRight : 0 < right.val)
    (divides : 0 < divisor.val) (fits : left.val * right.val ≤ 2147483647) :
    ∃ quotient, (do (← left.mul right).div divisor) = some quotient ∧
      quotient.val = (left.val * right.val).tdiv divisor.val := by
  have positive : 0 < left.val * right.val := Int.mul_pos isLeft isRight
  rcases CInt.exists_checked_iff.mpr (by omega :
    -2147483648 ≤ left.val * right.val ∧ left.val * right.val ≤ 2147483647) with ⟨product, isProduct⟩
  have productVal := CInt.checked_eq_some.mp isProduct
  have floor : (left.val * right.val).tdiv divisor.val = left.val * right.val / divisor.val :=
    Int.tdiv_eq_ediv_of_nonneg (Int.le_of_lt positive)
  have nonneg := Int.ediv_nonneg (Int.le_of_lt positive) (Int.le_of_lt divides)
  have below := Int.ediv_le_self divisor.val (Int.le_of_lt positive)
  rcases CInt.exists_checked_iff.mpr (by omega :
    -2147483648 ≤ (left.val * right.val).tdiv divisor.val ∧
      (left.val * right.val).tdiv divisor.val ≤ 2147483647) with ⟨quotient, isQuotient⟩
  have quotientVal := CInt.checked_eq_some.mp isQuotient
  refine ⟨quotient, ?_, quotientVal.symm⟩
  apply Option.bind_eq_some_iff.mpr
  refine ⟨product, isProduct, ?_⟩
  rw [CInt.div_eq_some, ← productVal]
  exact ⟨Int.ne_of_gt divides, quotientVal⟩

section Fit

variable {logicalW logicalH outW outH : CInt}

/-- The size spans the output one way, and is the floor of the ratio the other way. -/
theorem fitted_spans (isLogicalW : 0 < logicalW.val) (isLogicalH : 0 < logicalH.val)
    (isOutW : 0 < outW.val) (isOutH : 0 < outH.val)
    (fits : logicalW.val * outH.val ≤ 2147483647) :
    ∃ w h, fitted logicalW logicalH outW outH = some (w, h) ∧
      ((h = outH ∧ w.val ≤ outW.val ∧
          w.val = (logicalW.val * outH.val).tdiv logicalH.val) ∨
        (w = outW ∧ h.val ≤ outH.val ∧
          h.val = (logicalH.val * outW.val).tdiv logicalW.val)) := by
  rcases mul_div_eq_some isLogicalW isOutH isLogicalH fits with ⟨w, isW, floorW⟩
  rcases Int.lt_or_le outW.val w.val with wide | narrow
  · have positive : 0 < logicalW.val * outH.val := Int.mul_pos isLogicalW isOutH
    have cross : logicalH.val * outW.val < logicalW.val * outH.val :=
      floor_lt_of_cross (floorW ▸ wide) isLogicalH (Int.le_of_lt positive)
    -- the second product is smaller than the first one, and cannot overflow
    rcases mul_div_eq_some isLogicalH isOutW isLogicalW (by omega) with ⟨h, isH, floorH⟩
    refine ⟨outW, h, ?_, .inr ⟨rfl, ?_, floorH⟩⟩
    · have isWidth := Option.bind_eq_some_iff.mp isW
      have isHeight := Option.bind_eq_some_iff.mp isH
      rcases isWidth with ⟨product, isProduct, isW⟩
      rcases isHeight with ⟨other, isOther, isH⟩
      simp only [fitted, isProduct, isW, Option.bind_eq_bind, Option.bind_some]
      rw [if_neg (Int.not_le.mpr wide), isOther]
      simp [isH]
    · rw [floorH, Int.tdiv_eq_ediv_of_nonneg (Int.le_of_lt (Int.mul_pos isLogicalH isOutW))]
      apply Int.ediv_le_of_le_mul isLogicalW
      rw [Int.mul_comm outH.val]
      exact Int.le_of_lt cross
  · refine ⟨w, outH, ?_, .inl ⟨rfl, narrow, floorW⟩⟩
    rcases Option.bind_eq_some_iff.mp isW with ⟨product, isProduct, isW⟩
    simp only [fitted, isProduct, isW, Option.bind_eq_bind, Option.bind_some]
    rw [if_pos narrow]
    rfl

/-- The viewport is framed exactly if the product of the logical width and the height of the
output is an `int`. -/
theorem viewport_framed_iff (isLogicalW : 0 < logicalW.val) (isLogicalH : 0 < logicalH.val)
    (isOutW : 0 < outW.val) (isOutH : 0 < outH.val) :
    (∃ rect, zlymeHdmiViewport logicalW logicalH outW outH = some rect ∧
      Framed logicalW.val logicalH.val outW.val outH.val rect) ↔
      logicalW.val * outH.val ≤ 2147483647 := by
  have positive : ¬(logicalW.val ≤ 0 ∨ logicalH.val ≤ 0 ∨ outW.val ≤ 0 ∨ outH.val ≤ 0) := by omega
  constructor
  · rintro ⟨rect, isRect, -⟩
    rw [zlymeHdmiViewport, if_neg positive] at isRect
    rcases Option.bind_eq_some_iff.mp isRect with ⟨size, isSize, -⟩
    rw [fitted] at isSize
    rcases Option.bind_eq_some_iff.mp isSize with ⟨product, isProduct, -⟩
    rw [CInt.mul_eq_some.mp isProduct]
    exact product.property.2
  · intro fits
    rcases fitted_spans isLogicalW isLogicalH isOutW isOutH fits with ⟨w, h, isFitted, spans⟩
    have width := atLeastOne_eq w
    have height := atLeastOne_eq h
    have fitsW : (atLeastOne w).val ≤ outW.val := by
      rcases spans with ⟨-, narrow, -⟩ | ⟨rfl, -, -⟩ <;> omega
    have fitsH : (atLeastOne h).val ≤ outH.val := by
      rcases spans with ⟨rfl, -, -⟩ | ⟨-, low, -⟩ <;> omega
    rcases margin_centred (by omega) fitsW with ⟨x, isX, horizontal⟩
    rcases margin_centred (by omega) fitsH with ⟨y, isY, vertical⟩
    refine ⟨⟨x, y, atLeastOne w, atLeastOne h⟩, ?_, horizontal, vertical, ?_⟩
    · rw [zlymeHdmiViewport, if_neg positive]
      simp [isFitted, isX, isY]
    · rcases spans with ⟨rfl, -, floor⟩ | ⟨rfl, -, floor⟩
      · refine .inl ⟨by rw [atLeastOne_of_pos isOutH], ?_⟩
        exact nearRatio_floor (Int.mul_pos isLogicalW isOutH) isLogicalH floor
      · refine .inr ⟨by rw [atLeastOne_of_pos isOutW], ?_⟩
        exact nearRatio_floor (Int.mul_pos isLogicalH isOutW) isLogicalW floor

end Fit

/-- A logical size of 640 by 480 on an output of 1280 by 720. -/
theorem viewport_framed_720p :
    (∃ rect, zlymeHdmiViewport ⟨640, by decide⟩ ⟨480, by decide⟩ ⟨1280, by decide⟩ ⟨720, by decide⟩ =
      some rect ∧ Framed 640 480 1280 720 rect) ↔ (640 * 720 : Int) ≤ 2147483647 :=
  viewport_framed_iff (by decide) (by decide) (by decide) (by decide)

/-- A logical size and an output of 50000 by 50000 overflow. -/
theorem viewport_overflows : ¬∀ logicalW logicalH outW outH : CInt,
    0 < logicalW.val → 0 < logicalH.val → 0 < outW.val → 0 < outH.val →
      ∃ rect, zlymeHdmiViewport logicalW logicalH outW outH = some rect ∧
        Framed logicalW.val logicalH.val outW.val outH.val rect := by
  intro framed
  let size : CInt := ⟨50000, by decide⟩
  rcases framed size size size size (by decide) (by decide) (by decide) (by decide) with
    ⟨rect, isRect, -⟩
  have overflows : zlymeHdmiViewport size size size size = none := by decide
  rw [overflows] at isRect
  cases isRect

end Zlyme.Hdmi
