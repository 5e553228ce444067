import Zlyme.Gamepad.Report

/-! # Acquiring the stick centre after boot

`mf_boot_note` runs once per complete frame. After a settle delay each axis
collects windows of samples. Two stable windows in a row that agree become the
runtime centre, provided that centre fits the active range.
-/

namespace Zlyme.Gamepad

def einval : Int := 22
def erange : Int := 34

/-! ## Windows -/

/-- One pass of the inner loop of `mf_median`. The sorted part is kept largest
first, so walking down from its end is walking along the list. -/
def medianInsert (value : UInt8) : List UInt8 → List UInt8
  | [] => [value]
  | top :: rest => if top > value then top :: medianInsert value rest else value :: top :: rest

def mfMedian (src : List UInt8) (n : Nat) : UInt8 :=
  let sorted := (src.take n).foldl (fun sorted value => medianInsert value sorted) []
  sorted.reverse.getD (n / 2) 0

/-- The median of a window whose spread is small enough, or `none`. -/
def mfWindowStable (samples : List UInt8) (n : Nat) : Option UInt8 :=
  let lo := (samples.take n).foldl (fun lo sample => if sample < lo then sample else lo) 255
  let hi := (samples.take n).foldl (fun hi sample => if sample > hi then sample else hi) 0
  -- `(unsigned int)(hi - lo)`: a negative difference would be a huge one.
  if ((hi.toNat : Int) - lo.toNat) % 2 ^ 32 > mfBootSpread then none
  else some (mfMedian samples n)

def mfBootFinished : MfBootState → Bool
  | .accepted | .timeout | .cancelled | .rangeRejected => true
  | .wait | .settle | .collect | .confirm => false

/-- Zero, or the negative errno of a centre that does not leave both sides
longer than the deadband. -/
def mfCenterInRange (min zero max : Int) : Int :=
  if min ≥ zero ∨ zero ≥ max then -einval
  else if zero - min ≤ mfRawDeadband ∨ max - zero ≤ mfRawDeadband then -erange
  else 0

/-- A centre strictly inside its ends, with both sides wider than the deadband. -/
structure Centred (min zero max : Int) : Prop where
  above_min : min < zero
  below_max : zero < max
  wide_below : mfRawDeadband < zero - min
  wide_above : mfRawDeadband < max - zero

theorem mfCenterInRange_eq_zero_iff (min zero max : Int) :
    mfCenterInRange min zero max = 0 ↔ Centred min zero max := by
  rw [mfCenterInRange, einval, erange]
  constructor
  · intro inRange
    split_ifs at inRange with outside narrow
    exact ⟨by omega, by omega, by omega, by omega⟩
  · intro centred
    rw [if_neg, if_neg]
    · have := centred.wide_below
      have := centred.wide_above
      omega
    · have := centred.above_min
      have := centred.below_max
      omega

/-! ## One frame -/

def mfNoteSeen (ax : MfAxis) (raw : UInt8) : MfAxis :=
  if ax.seenValid = false then
    { ax with latest := raw, seenMin := raw, seenMax := raw, seenValid := true }
  else
    { ax with
      latest := raw
      seenMin := if raw < ax.seenMin then raw else ax.seenMin
      seenMax := if raw > ax.seenMax then raw else ax.seenMax }

/-- The first frame starts the settle delay on every axis that has not been
given an applied centre. -/
def bootStart (now : Jiffies) (pad : MfPad) : MfPad :=
  if pad.bootStarted then pad
  else
    { pad with
      bootStarted := true
      bootFirstJiffies := now
      settlePhase := .hw
      axis := fun id =>
        if (pad.axis id).zeroSource = .apply then pad.axis id
        else { pad.axis id with bootState := .settle } }

/-- The end of the settle delay: collection starts on every settling axis. -/
def bootRelease (now : Jiffies) (pad : MfPad) : MfPad :=
  { pad with
    bootCollectJiffies := now
    settlePhase := .run
    axis := fun id =>
      if (pad.axis id).bootState = .settle then
        { pad.axis id with bootState := .collect, n := 0 }
      else pad.axis id }

/-- A full window on one axis, after `n` and `attempts` have been updated. -/
def bootWindow (ax : MfAxis) : MfAxis :=
  match mfWindowStable ax.samples mfBootWindow with
  | none => { ax with candidate := -1, bootState := .collect }
  | some med =>
      if ax.bootState ≠ .confirm then
        { ax with candidate := med.toNat, bootState := .confirm }
      else if ((med.toNat : Int) - ax.candidate).natAbs ≤ mfBootMatch then
        if mfCenterInRange ax.min med.toNat ax.max ≠ 0 then
          { ax with settled := true, accepted := false, bootState := .rangeRejected }
        else
          { ax with
            runtimeZero := med.toNat
            zeroSource := .boot
            accepted := true
            settled := true
            bootState := .accepted }
      else { ax with candidate := -1, bootState := .collect }

/-- The body of the collection loop for one axis. -/
def bootAxis (expired : Bool) (sample : UInt8) (ax : MfAxis) : MfAxis :=
  if mfBootFinished ax.bootState then ax
  else if expired then { ax with bootState := .timeout, settled := true, accepted := false }
  else
    let collected := { ax with samples := ax.samples.set ax.n sample, n := ax.n + 1 }
    if collected.n < mfBootWindow then collected
    else bootWindow { collected with n := 0, attempts := collected.attempts + 1 }

def bootFinish (pad : MfPad) : MfPad :=
  if forallAxes fun id => mfBootFinished (pad.axis id).bootState then
    { pad with settlePhase := .done }
  else pad

/-- The collection loop over all axes. -/
def bootCollect (kernel : Kernel) (now : Jiffies) (pad : MfPad) (raw : MfRaw) : MfPad :=
  let expired := timeAfter now (pad.bootCollectJiffies + kernel.msecsToJiffies mfBootBudgetMs)
  bootFinish { pad with axis := fun id => bootAxis expired (raw id) (pad.axis id) }

def mfBootNote (kernel : Kernel) (now : Jiffies) (pad : MfPad) (raw : MfRaw) : MfPad :=
  let seen := { pad with axis := fun id => mfNoteSeen (pad.axis id) (raw id) }
  let started := bootStart now seen
  if started.settlePhase = .hw then
    if timeBefore now (started.bootFirstJiffies + kernel.msecsToJiffies mfBootSettleMs) then
      started
    else bootCollect kernel now (bootRelease now started) raw
  else if started.settlePhase = .run then bootCollect kernel now started raw
  else started

end Zlyme.Gamepad
