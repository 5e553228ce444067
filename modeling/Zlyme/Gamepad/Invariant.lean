import Zlyme.Gamepad.Driver

/-! # The calibration invariant

Each function of the driver is described once, by what it can do to one axis.
The invariant of the whole pad follows from these descriptions, and an induction
over the events carries it to every run.
-/

namespace Zlyme.Gamepad

/-! ## One axis -/

structure AxisOk (ax : MfAxis) : Prop where
  min_nonneg : 0 ≤ ax.min
  max_le : ax.max ≤ 255
  runtime_centred : Centred ax.min ax.runtimeZero ax.max
  saved_centred : Centred ax.min ax.savedZero ax.max
  window_open : ax.n < mfBootWindow
  accepted_iff : ax.accepted = true ↔ ax.bootState = .accepted
  applied_finished : ax.zeroSource = .apply → mfBootFinished ax.bootState = true

theorem centred_default : Centred mfDefaultMin mfDefaultZero mfDefaultMax :=
  (mfCenterInRange_eq_zero_iff _ _ _).mp (by decide)

theorem mfAxisDefaults_ok (absCode : AbsCode) : AxisOk (mfAxisDefaults absCode) where
  min_nonneg := Int.le_refl 0
  max_le := Int.le_refl 255
  runtime_centred := centred_default
  saved_centred := centred_default
  window_open := Nat.succ_pos 30
  accepted_iff := by simp [mfAxisDefaults]
  applied_finished := by simp [mfAxisDefaults]

/-- Only the observation fields differ. -/
structure SameCalibration (ax next : MfAxis) : Prop where
  min : next.min = ax.min
  savedZero : next.savedZero = ax.savedZero
  runtimeZero : next.runtimeZero = ax.runtimeZero
  max : next.max = ax.max
  n : next.n = ax.n
  bootState : next.bootState = ax.bootState
  zeroSource : next.zeroSource = ax.zeroSource
  accepted : next.accepted = ax.accepted

theorem AxisOk.of_same {ax next : MfAxis} (ok : AxisOk ax) (same : SameCalibration ax next) :
    AxisOk next where
  min_nonneg := by rw [same.min]; exact ok.min_nonneg
  max_le := by rw [same.max]; exact ok.max_le
  runtime_centred := by
    rw [same.min, same.runtimeZero, same.max]; exact ok.runtime_centred
  saved_centred := by rw [same.min, same.savedZero, same.max]; exact ok.saved_centred
  window_open := by rw [same.n]; exact ok.window_open
  accepted_iff := by rw [same.accepted, same.bootState]; exact ok.accepted_iff
  applied_finished := by
    rw [same.zeroSource, same.bootState]; exact ok.applied_finished

theorem mfNoteSeen_same (ax : MfAxis) (raw : UInt8) : SameCalibration ax (mfNoteSeen ax raw) := by
  rw [mfNoteSeen]
  split <;> constructor <;> rfl

theorem latch_same (ax : MfAxis) (raw : UInt8) :
    SameCalibration ax { ax with latest := raw } := by
  constructor <;> rfl

/-! ## The collection loop -/

/-- A full window starts over, waits for a second one, is refused for its range,
or moves the centre. -/
theorem bootWindow_cases (ax : MfAxis) :
    (∃ candidate bootState, (bootState = .collect ∨ bootState = .confirm) ∧
        bootWindow ax = { ax with candidate, bootState }) ∨
      bootWindow ax =
        { ax with settled := true, accepted := false, bootState := .rangeRejected } ∨
      ∃ med, Centred ax.min med ax.max ∧ bootWindow ax =
        { ax with
          runtimeZero := med
          zeroSource := .boot
          accepted := true
          settled := true
          bootState := .accepted } := by
  rw [bootWindow]
  cases mfWindowStable ax.samples mfBootWindow with
  | none => exact .inl ⟨-1, .collect, .inl rfl, rfl⟩
  | some med =>
      dsimp only
      split_ifs with first agrees outside
      · exact .inl ⟨med.toNat, .confirm, .inr rfl, rfl⟩
      · exact .inr (.inl rfl)
      · exact .inr (.inr ⟨med.toNat,
          (mfCenterInRange_eq_zero_iff _ _ _).mp (not_not.mp outside), rfl⟩)
      · exact .inl ⟨-1, .collect, .inl rfl, rfl⟩

theorem bootWindow_ok {ax : MfAxis} (ok : AxisOk ax)
    (unfinished : mfBootFinished ax.bootState = false) : AxisOk (bootWindow ax) := by
  have notApplied : ax.zeroSource ≠ .apply := by
    intro applied
    rw [ok.applied_finished applied] at unfinished
    cases unfinished
  have notAccepted : ax.accepted = false := by
    rw [Bool.eq_false_iff]
    intro accepted
    rw [ok.accepted_iff.mp accepted] at unfinished
    cases unfinished
  rcases bootWindow_cases ax with ⟨candidate, bootState, collecting, next⟩ | next | ⟨med, centred, next⟩
  · rw [next]
    refine { ok with accepted_iff := ?_, applied_finished := ?_ }
    · rcases collecting with rfl | rfl <;> simp [notAccepted]
    · exact fun applied => absurd applied notApplied
  · rw [next]
    exact { ok with accepted_iff := by simp, applied_finished := fun _ => rfl }
  · rw [next]
    exact { ok with
      runtime_centred := centred
      accepted_iff := by simp
      applied_finished := fun _ => rfl }

theorem bootAxis_of_finished {ax : MfAxis} (finished : mfBootFinished ax.bootState = true)
    (expired : Bool) (sample : UInt8) : bootAxis expired sample ax = ax :=
  if_pos finished

theorem bootAxis_ok {ax : MfAxis} (ok : AxisOk ax) (expired : Bool) (sample : UInt8) :
    AxisOk (bootAxis expired sample ax) := by
  cases unfinished : mfBootFinished ax.bootState with
  | true => rwa [bootAxis_of_finished unfinished]
  | false =>
      rw [bootAxis, if_neg (by simp [unfinished])]
      by_cases late : expired = true
      · rw [if_pos late]
        exact { ok with accepted_iff := by simp, applied_finished := fun _ => rfl }
      · rw [if_neg late]
        dsimp only
        split_ifs with room
        · exact { ok with window_open := room }
        · exact bootWindow_ok { ok with window_open := Nat.succ_pos 30 } unfinished

/-! ## Writes -/

theorem mfInstallAxis_ok {ax : MfAxis} (ok : AxisOk ax) {range : MfRange} (rangeOk : range.Ok)
    {apply : Bool} (preflight : mfPreflightAxis ax apply range = 0) :
    AxisOk (mfInstallAxis ax range apply) := by
  have saved : Centred range.min range.zero range.max := rangeOk.centred
  rw [mfInstallAxis]
  cases apply with
  | true =>
      rw [if_pos rfl]
      refine ⟨rangeOk.min_nonneg, rangeOk.max_le, saved, saved, ok.window_open, ?_, ?_⟩
      · dsimp only
        split_ifs with finished
        · exact ok.accepted_iff
        · have notAccepted : ax.bootState ≠ .accepted := by
            intro accepted
            rw [accepted] at finished
            exact finished rfl
          simpa using fun accepted => notAccepted (ok.accepted_iff.mp accepted)
      · intro
        dsimp only
        split_ifs with finished
        · exact finished
        · rfl
  | false =>
      rw [if_neg (by decide)]
      dsimp only
      split_ifs with fallback
      · exact ⟨rangeOk.min_nonneg, rangeOk.max_le, saved, saved, ok.window_open,
          ok.accepted_iff, by simp⟩
      · have preserved : ax.zeroSource = .boot ∨ ax.zeroSource = .apply := by
          cases source : ax.zeroSource <;> simp_all
        rw [mfPreflightAxis, if_pos ⟨rfl, preserved⟩] at preflight
        exact ⟨rangeOk.min_nonneg, rangeOk.max_le,
          (mfCenterInRange_eq_zero_iff _ _ _).mp preflight, saved, ok.window_open,
          ok.accepted_iff, ok.applied_finished⟩

theorem mfInstallAxis_finished (ax : MfAxis) (range : MfRange) (apply : Bool)
    (finished : mfBootFinished ax.bootState = true) :
    mfBootFinished (mfInstallAxis ax range apply).bootState = true := by
  rw [mfInstallAxis]
  dsimp only
  split_ifs <;> exact finished

theorem mfInstallAxis_not_accepted (ax : MfAxis) (range : MfRange) (apply : Bool)
    (notAccepted : ax.bootState ≠ .accepted) :
    (mfInstallAxis ax range apply).bootState ≠ .accepted := by
  rw [mfInstallAxis]
  dsimp only
  split_ifs
  · exact notAccepted
  · simp
  · exact notAccepted
  · exact notAccepted

/-! ## The pad -/

/-- What holds of the sticks at all times, also while a frame is being noted. -/
structure StickOk (pad : MfPad) : Prop where
  axes : ∀ id, AxisOk (pad.axis id)
  reports : ReportsInRange pad
  unstarted : pad.bootStarted = false → ∀ id, (pad.axis id).bootState ≠ .accepted
  settled : pad.settlePhase = .done → ∀ id, mfBootFinished (pad.axis id).bootState = true
  deadzoneLeft : pad.deadzoneLeft.toNat ≤ mfDzMaxPercent
  deadzoneRight : pad.deadzoneRight.toNat ≤ mfDzMaxPercent

/-- The invariant between events, and between any two bytes of a chunk. -/
structure PadOk (pad : MfPad) : Prop extends StickOk pad where
  buffer : BufferOk pad

theorem mfProbePad_ok : PadOk mfProbePad where
  axes id := by cases id <;> exact mfAxisDefaults_ok _
  reports _ := zero_inAbsRange
  buffer := ⟨by decide, by simp [mfProbePad]⟩
  unstarted _ id := by cases id <;> simp [mfProbePad, mfAxisDefaults]
  settled := by simp [mfProbePad]
  deadzoneLeft := by decide
  deadzoneRight := by decide

/-! ### Frames -/

theorem bootStart_ok {pad : MfPad} (ok : StickOk pad) (now : Jiffies) :
    StickOk (bootStart now pad) := by
  rw [bootStart]
  split_ifs with started
  · exact ok
  · refine { ok with axes := fun id => ?_, unstarted := by simp, settled := by simp }
    dsimp only
    split_ifs with applied
    · exact ok.axes id
    · have notAccepted : (pad.axis id).accepted ≠ true := fun accepted =>
        ok.unstarted (by simpa using started) id ((ok.axes id).accepted_iff.mp accepted)
      exact { ok.axes id with
        accepted_iff := by simpa using notAccepted
        applied_finished := fun isApplied => absurd isApplied applied }

theorem bootStart_started (now : Jiffies) (pad : MfPad) :
    (bootStart now pad).bootStarted = true := by
  rw [bootStart]
  split_ifs with started
  · exact started
  · rfl

theorem bootRelease_ok {pad : MfPad} (ok : StickOk pad) (started : pad.bootStarted = true)
    (now : Jiffies) : StickOk (bootRelease now pad) := by
  refine { ok with
    axes := fun id => ?_
    unstarted := fun unstarted => absurd started (by simpa [bootRelease] using unstarted)
    settled := by simp [bootRelease] }
  rw [bootRelease]
  dsimp only
  split_ifs with settling
  · have axisOk := ok.axes id
    exact { axisOk with
      window_open := Nat.succ_pos 30
      accepted_iff := by simpa [settling] using axisOk.accepted_iff
      applied_finished := fun applied => by
        have finished := axisOk.applied_finished applied
        rw [settling] at finished
        cases finished }
  · exact ok.axes id

theorem bootFinish_ok {pad : MfPad} (ok : StickOk pad) : StickOk (bootFinish pad) := by
  rw [bootFinish]
  split_ifs with all
  · exact { ok with settled := fun _ => (forallAxes_iff _).mp all }
  · exact ok

theorem bootCollect_ok (kernel : Kernel) {pad : MfPad} (ok : StickOk pad)
    (started : pad.bootStarted = true) (running : pad.settlePhase = .run)
    (now : Jiffies) (raw : MfRaw) : StickOk (bootCollect kernel now pad raw) :=
  bootFinish_ok { ok with
    axes := fun id => bootAxis_ok (ok.axes id) _ _
    unstarted := fun unstarted => absurd started (by simpa using unstarted)
    settled := fun done => by simp [running] at done }

theorem StickOk.of_same {pad : MfPad} (ok : StickOk pad) {axis : MfAxisId → MfAxis}
    (same : ∀ id, SameCalibration (pad.axis id) (axis id)) :
    StickOk { pad with axis := axis } :=
  { ok with
    axes := fun id => (ok.axes id).of_same (same id)
    unstarted := fun unstarted id => by
      rw [(same id).bootState]; exact ok.unstarted unstarted id
    settled := fun done id => by
      rw [(same id).bootState]; exact ok.settled done id }

theorem mfBootNote_ok (kernel : Kernel) (now : Jiffies) {pad : MfPad} (ok : StickOk pad)
    (raw : MfRaw) : StickOk (mfBootNote kernel now pad raw) := by
  have seen := ok.of_same fun id => mfNoteSeen_same (pad.axis id) (raw id)
  have started := bootStart_ok seen now
  have isStarted := bootStart_started now
    { pad with axis := fun id => mfNoteSeen (pad.axis id) (raw id) }
  simp only [mfBootNote]
  split_ifs with settling early running
  · exact started
  · exact bootCollect_ok kernel (bootRelease_ok started isStarted now) isStarted rfl now raw
  · exact bootCollect_ok kernel started isStarted running now raw
  · exact started

theorem mfReportAxes_ok (kernel : Kernel) {pad : MfPad} (ok : StickOk pad) (raw : MfRaw) :
    StickOk (mfReportAxes kernel pad raw) :=
  { ok.of_same fun id => latch_same (pad.axis id) (raw id) with
    reports := mfReportAxes_reportsInRange kernel ok.reports raw }

theorem mfFeed_ok (kernel : Kernel) (now : Jiffies) {pad : MfPad} (ok : PadOk pad)
    (byte : UInt8) : PadOk (mfFeed kernel now pad byte).1 := by
  have buffer := mfFeed_bufferOk kernel now ok.buffer byte
  rcases mfFeed_cases kernel now pad byte with
    ⟨frame, rx, bad, fed⟩ | ⟨frame, rx, valid, raw, fed⟩
  · rw [fed] at buffer ⊢
    exact { ok with buffer }
  · have counted : StickOk { pad with frame := frame, rxBytes := rx, validFrames := valid } :=
      { ok with }
    have reported := mfReportAxes_ok kernel (mfBootNote_ok kernel now counted raw) raw
    rw [fed] at buffer ⊢
    exact { reported with buffer }

/-! ### Writes -/

theorem mfPublishStick_ok (kernel : Kernel) {pad : MfPad} (ok : StickOk pad)
    (xId yId : MfAxisId) : StickOk (mfPublishStick kernel pad xId yId) :=
  { ok with reports := mfPublishStick_reportsInRange kernel ok.reports xId yId }

theorem setAxis_ok {pad : MfPad} (ok : StickOk pad) (id : MfAxisId) {ax : MfAxis}
    (axisOk : AxisOk ax)
    (notAccepted : (pad.axis id).bootState ≠ .accepted → ax.bootState ≠ .accepted)
    (finished : mfBootFinished (pad.axis id).bootState = true →
      mfBootFinished ax.bootState = true) :
    StickOk (pad.setAxis id ax) := by
  refine { ok with axes := fun other => ?_, unstarted := fun unstarted other => ?_,
                   settled := fun done other => ?_ }
  · rw [MfPad.setAxis_axis]
    split_ifs
    · exact axisOk
    · exact ok.axes other
  · rw [MfPad.setAxis_axis]
    split_ifs
    · exact notAccepted (ok.unstarted unstarted id)
    · exact ok.unstarted unstarted other
  · rw [MfPad.setAxis_axis]
    split_ifs
    · exact finished (ok.settled done id)
    · exact ok.settled done other

theorem install_ok {pad : MfPad} (ok : StickOk pad) (id : MfAxisId) {range : MfRange}
    (rangeOk : range.Ok) {apply : Bool}
    (preflight : mfPreflightAxis (pad.axis id) apply range = 0) :
    StickOk (pad.setAxis id (mfInstallAxis (pad.axis id) range apply)) :=
  setAxis_ok ok id (mfInstallAxis_ok (ok.axes id) rangeOk preflight)
    (mfInstallAxis_not_accepted _ _ _) (mfInstallAxis_finished _ _ _)

theorem installStick_ok (kernel : Kernel) {pad : MfPad} (ok : StickOk pad)
    {xId yId : MfAxisId} (distinct : yId ≠ xId) {cal : MfCal}
    (xOk : cal.x.Ok) (yOk : cal.y.Ok)
    (xPreflight : mfPreflightAxis (pad.axis xId) cal.apply cal.x = 0)
    (yPreflight : mfPreflightAxis (pad.axis yId) cal.apply cal.y = 0) :
    StickOk (installStick kernel pad xId yId cal) := by
  have withX := install_ok ok xId xOk xPreflight
  have withY := install_ok withX yId yOk (by
    rwa [MfPad.setAxis_axis, if_neg distinct])
  rw [installStick]
  refine mfPublishStick_ok kernel ?_ xId yId
  split_ifs
  · exact bootFinish_ok withY
  · exact withY

@[simp] theorem bootFinish_frame (pad : MfPad) : (bootFinish pad).frame = pad.frame := by
  rw [bootFinish]
  split <;> rfl

@[simp] theorem installStick_frame (kernel : Kernel) (pad : MfPad) (xId yId : MfAxisId)
    (cal : MfCal) : (installStick kernel pad xId yId cal).frame = pad.frame := by
  rw [installStick, mfPublishStick_frame]
  split_ifs
  · exact bootFinish_frame _
  · rfl

theorem mfCalStore_ok (kernel : Kernel) {pad : MfPad} (ok : PadOk pad) {xId yId : MfAxisId}
    (distinct : yId ≠ xId) (buf : List UInt8) :
    PadOk (mfCalStore kernel pad xId yId buf).1 := by
  rcases mfCalStore_cases kernel pad xId yId buf with
    refused | ⟨cal, parsed, xPreflight, yPreflight, stored⟩
  · rwa [refused]
  · have ranges := mfParseCal_ok parsed
    have sticks := installStick_ok kernel ok.toStickOk distinct ranges.1 ranges.2
      xPreflight yPreflight
    have buffer : BufferOk (installStick kernel pad xId yId cal) := by
      rw [BufferOk, installStick_frame]
      exact ok.buffer
    rw [stored]
    exact { sticks with buffer }

theorem mfDzStore_ok (kernel : Kernel) {pad : MfPad} (ok : PadOk pad) (right : Bool)
    (buf : List UInt8) : PadOk (mfDzStore kernel pad right buf).1 := by
  rcases mfDzStore_cases kernel pad right buf with refused | ⟨pct, bounded, stored⟩
  · rwa [refused]
  · rw [stored]
    cases right with
    | true =>
        have written : StickOk { pad with deadzoneRight := pct } :=
          { ok with deadzoneRight := bounded }
        exact { mfPublishStick_ok kernel written .xr .yr with buffer := ok.buffer }
    | false =>
        have written : StickOk { pad with deadzoneLeft := pct } :=
          { ok with deadzoneLeft := bounded }
        exact { mfPublishStick_ok kernel written .xl .yl with buffer := ok.buffer }

/-! ## Runs -/

theorem emptyBuffer_ok : frameFormat.Unfinished [] :=
  ⟨by decide, by simp⟩

theorem mfStep_ok (kernel : Kernel) {pad : MfPad} (ok : PadOk pad) (event : MfEvent) :
    PadOk (mfStep kernel pad event) := by
  cases event with
  | receive chunk =>
      exact mfReceive_invariant kernel PadOk (fun now _ byte ok => mfFeed_ok kernel now ok byte)
        ok chunk
  | calibrationLeft buf => exact mfCalStore_ok kernel ok (by decide) buf
  | calibrationRight buf => exact mfCalStore_ok kernel ok (by decide) buf
  | deadzone right buf => exact mfDzStore_ok kernel ok right buf
  | portOpen ret =>
      rw [mfStep, mfPortOpen]
      split_ifs
      · exact { ok with }
      · exact { ok with buffer := emptyBuffer_ok }
  | portClose => exact { ok with buffer := emptyBuffer_ok }

theorem mfRun_ok (kernel : Kernel) {pad : MfPad} (ok : PadOk pad) (events : List MfEvent) :
    PadOk (mfRun kernel pad events) :=
  Foundation.Execution.run_invariant PadOk (fun _ event ok => mfStep_ok kernel ok event) ok events

/-- After every run from `mf_probe`, every axis has a usable range with both
centres strictly inside it, an unfinished window, reports in range, and
`accepted` set in the accepted state only. -/
theorem calibration_invariant (kernel : Kernel) (events : List MfEvent) (id : MfAxisId) :
    let pad := mfRun kernel mfProbePad events
    let ax := pad.axis id
    (ax.min < ax.runtimeZero ∧ ax.runtimeZero < ax.max ∧
      mfRawDeadband < ax.runtimeZero - ax.min ∧ mfRawDeadband < ax.max - ax.runtimeZero) ∧
    (ax.min < ax.savedZero ∧ ax.savedZero < ax.max ∧
      mfRawDeadband < ax.savedZero - ax.min ∧ mfRawDeadband < ax.max - ax.savedZero) ∧
    (0 ≤ ax.min ∧ ax.max ≤ 255) ∧
    ax.n < mfBootWindow ∧
    (-32767 ≤ pad.lastAbs id ∧ pad.lastAbs id ≤ 32767) ∧
    (ax.accepted = true ↔ ax.bootState = .accepted) := by
  have ok := mfRun_ok kernel mfProbePad_ok events
  have axisOk := ok.axes id
  have runtime := axisOk.runtime_centred
  have saved := axisOk.saved_centred
  exact ⟨⟨runtime.above_min, runtime.below_max, runtime.wide_below, runtime.wide_above⟩,
    ⟨saved.above_min, saved.below_max, saved.wide_below, saved.wide_above⟩,
    ⟨axisOk.min_nonneg, axisOk.max_le⟩, axisOk.window_open, ok.reports id,
    axisOk.accepted_iff⟩

end Zlyme.Gamepad
