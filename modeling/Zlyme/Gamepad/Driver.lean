import Zlyme.Foundation.Execution
import Zlyme.Gamepad.Feed
import Zlyme.Gamepad.Calibration

/-! # The driver as a machine

Every entry point that touches the stick state, as one event each. The spinlock
makes them atomic, so a run is a list of events after `mf_probe`.
-/

namespace Zlyme.Gamepad

/-! ## Port -/

/-- `ret` is the result of `serdev_device_open`. -/
def mfPortOpen (pad : MfPad) (ret : Int) : MfPad :=
  if ret ≠ 0 then { pad with openErrno := ret }
  else { pad with frame := [], portOpen := true, openErrno := 0 }

def mfPortClose (pad : MfPad) : MfPad :=
  { pad with portOpen := false, frame := [] }

/-! ## Events -/

inductive MfEvent
  | receive (chunk : List (Jiffies × UInt8))
  | calibrationLeft (buf : List UInt8)
  | calibrationRight (buf : List UInt8)
  | deadzone (right : Bool) (buf : List UInt8)
  | portOpen (ret : Int)
  | portClose

def mfStep (kernel : Kernel) (pad : MfPad) : MfEvent → MfPad
  | .receive chunk => (mfReceive kernel pad chunk).1
  | .calibrationLeft buf => (calibrationLeftStore kernel pad buf).1
  | .calibrationRight buf => (calibrationRightStore kernel pad buf).1
  | .deadzone right buf => (mfDzStore kernel pad right buf).1
  | .portOpen ret => mfPortOpen pad ret
  | .portClose => mfPortClose pad

/-- The pad after some events. The times on received bytes are arbitrary, which
includes every non-decreasing `jiffies`. -/
abbrev mfRun (kernel : Kernel) (pad : MfPad) (events : List MfEvent) : MfPad :=
  Foundation.Execution.run (mfStep kernel) pad events

/-- The axes of the stick that an event's calibration line is for, with the
line it carries. -/
def MfEvent.calibration : MfEvent → Option (List UInt8 × MfAxisId × MfAxisId)
  | .calibrationLeft buf => some (buf, .xl, .yl)
  | .calibrationRight buf => some (buf, .xr, .yr)
  | _ => none

/-- An `apply` line that `mf_parse_cal` accepts, for the stick of this axis. -/
def MfEvent.applies (id : MfAxisId) (event : MfEvent) : Bool :=
  match event.calibration with
  | some (buf, xId, yId) =>
      (id == xId || id == yId) && (mfParseCal buf).any fun cal => cal.apply
  | none => false

/-! ## What one frame does to the pad -/

/-- One byte either moves only the receive buffer and its counters, or
completes a frame. -/
theorem mfFeed_cases (kernel : Kernel) (now : Jiffies) (pad : MfPad) (byte : UInt8) :
    (∃ frame rx bad, (mfFeed kernel now pad byte).1 =
        { pad with frame := frame, rxBytes := rx, badFrames := bad }) ∨
      ∃ frame rx valid raw, (mfFeed kernel now pad byte).1 =
        { mfReportAxes kernel (mfBootNote kernel now
            { pad with frame := frame, rxBytes := rx, validFrames := valid } raw) raw with
          frame := [] } := by
  rw [mfFeed]
  dsimp only
  split_ifs
  · exact .inl ⟨[byte], pad.rxBytes + 1, pad.badFrames, rfl⟩
  · exact .inl ⟨pad.frame, pad.rxBytes + 1, pad.badFrames, rfl⟩
  · exact .inl ⟨pad.frame ++ [byte], pad.rxBytes + 1, pad.badFrames, rfl⟩
  · exact .inr ⟨pad.frame ++ [byte], pad.rxBytes + 1, pad.validFrames + 1,
      frameRaw (pad.frame ++ [byte]), rfl⟩
  · cases frameRestart (pad.frame ++ [byte]) with
    | none => exact .inl ⟨[], pad.rxBytes + 1, pad.badFrames + 1, rfl⟩
    | some start =>
        exact .inl ⟨(pad.frame ++ [byte]).drop start, pad.rxBytes + 1,
          pad.badFrames + 1, rfl⟩

/-- A property of the pad that each byte keeps is kept by a chunk. -/
theorem mfReceive_invariant (kernel : Kernel) (invariant : MfPad → Prop)
    (kept : ∀ now pad byte, invariant pad → invariant (mfFeed kernel now pad byte).1)
    {pad : MfPad} (holds : invariant pad) (chunk : List (Jiffies × UInt8)) :
    invariant (mfReceive kernel pad chunk).1 := by
  have fed : ∀ {pad}, invariant pad → invariant (mfFeedAll kernel pad chunk).1 := by
    induction chunk with
    | nil => exact id
    | cons timed rest induction =>
        intro pad holds
        exact induction (kept timed.1 pad timed.2 holds)
  rw [mfReceive]
  split
  · exact holds
  · exact fed holds

end Zlyme.Gamepad
