import Zlyme.Gamepad.Invariant

/-! # An applied centre is authoritative

An axis whose centre was applied keeps it through every frame and every restore,
whatever phase the boot acquisition is in.
-/

namespace Zlyme.Gamepad

/-- The centre of an axis and where it came from are unchanged. -/
structure SameCentre (ax next : MfAxis) : Prop where
  runtimeZero : next.runtimeZero = ax.runtimeZero
  zeroSource : next.zeroSource = ax.zeroSource

theorem SameCentre.refl (ax : MfAxis) : SameCentre ax ax := ⟨rfl, rfl⟩

theorem SameCentre.trans {first second third : MfAxis} (left : SameCentre first second)
    (right : SameCentre second third) : SameCentre first third :=
  ⟨right.runtimeZero.trans left.runtimeZero, right.zeroSource.trans left.zeroSource⟩

theorem SameCentre.of_same {ax next : MfAxis} (same : SameCalibration ax next) :
    SameCentre ax next :=
  ⟨same.runtimeZero, same.zeroSource⟩

/-! ## Frames -/

@[simp] theorem bootFinish_axis (pad : MfPad) : (bootFinish pad).axis = pad.axis := by
  rw [bootFinish]
  split <;> rfl

theorem bootStart_applied (now : Jiffies) {pad : MfPad} {id : MfAxisId}
    (applied : (pad.axis id).zeroSource = .apply) :
    (bootStart now pad).axis id = pad.axis id := by
  rw [bootStart]
  split_ifs
  · rfl
  · exact if_pos applied

theorem bootRelease_finished (now : Jiffies) {pad : MfPad} {id : MfAxisId}
    (finished : mfBootFinished (pad.axis id).bootState = true) :
    (bootRelease now pad).axis id = pad.axis id := by
  have notSettling : (pad.axis id).bootState ≠ .settle := by
    intro settling
    rw [settling] at finished
    cases finished
  exact if_neg notSettling

theorem bootCollect_finished (kernel : Kernel) (now : Jiffies) {pad : MfPad} (raw : MfRaw)
    {id : MfAxisId} (finished : mfBootFinished (pad.axis id).bootState = true) :
    (bootCollect kernel now pad raw).axis id = pad.axis id := by
  rw [bootCollect, bootFinish_axis]
  exact bootAxis_of_finished finished _ _

/-- A frame only observes an axis with an applied centre. -/
theorem mfBootNote_applied (kernel : Kernel) (now : Jiffies) {pad : MfPad} (ok : StickOk pad)
    (raw : MfRaw) {id : MfAxisId} (applied : (pad.axis id).zeroSource = .apply) :
    (mfBootNote kernel now pad raw).axis id = mfNoteSeen (pad.axis id) (raw id) := by
  have same := mfNoteSeen_same (pad.axis id) (raw id)
  have started : (bootStart now
      { pad with axis := fun id => mfNoteSeen (pad.axis id) (raw id) }).axis id =
        mfNoteSeen (pad.axis id) (raw id) :=
    bootStart_applied now (same.zeroSource.trans applied)
  have finished : mfBootFinished (mfNoteSeen (pad.axis id) (raw id)).bootState = true := by
    rw [same.bootState]
    exact (ok.axes id).applied_finished applied
  rw [← started] at finished
  simp only [mfBootNote]
  split_ifs
  · exact started
  · rw [bootCollect_finished kernel now raw
      (by rw [bootRelease_finished now finished]; exact finished),
      bootRelease_finished now finished, started]
  · rw [bootCollect_finished kernel now raw finished, started]
  · exact started

theorem mfFeed_applied (kernel : Kernel) (now : Jiffies) {pad : MfPad} (ok : StickOk pad)
    (byte : UInt8) {id : MfAxisId} (applied : (pad.axis id).zeroSource = .apply) :
    SameCentre (pad.axis id) ((mfFeed kernel now pad byte).1.axis id) := by
  rcases mfFeed_cases kernel now pad byte with
    ⟨frame, rx, bad, fed⟩ | ⟨frame, rx, valid, raw, fed⟩
  · rw [fed]
    exact .refl _
  · have counted : StickOk { pad with frame := frame, rxBytes := rx, validFrames := valid } :=
      { ok with }
    have noted := mfBootNote_applied kernel now counted raw applied
    rw [fed]
    dsimp only
    rw [mfReportAxes_axis, noted]
    exact (SameCentre.of_same (mfNoteSeen_same _ _)).trans (.of_same (latch_same _ _))

/-! ## Restore -/

theorem mfInstallAxis_restore {ax : MfAxis}
    (acquired : ax.zeroSource = .boot ∨ ax.zeroSource = .apply) (range : MfRange) :
    SameCentre ax (mfInstallAxis ax range false) := by
  have notFallback : ¬(ax.zeroSource = .default ∨ ax.zeroSource = .persisted) := by
    rcases acquired with source | source <;> simp [source]
  rw [mfInstallAxis, if_neg (by decide)]
  dsimp only
  rw [if_neg notFallback]
  exact ⟨rfl, rfl⟩

theorem installStick_axis (kernel : Kernel) (pad : MfPad) {xId yId : MfAxisId}
    (distinct : yId ≠ xId) (cal : MfCal) (id : MfAxisId) :
    (installStick kernel pad xId yId cal).axis id =
      if id = yId then mfInstallAxis (pad.axis yId) cal.y cal.apply
      else if id = xId then mfInstallAxis (pad.axis xId) cal.x cal.apply
      else pad.axis id := by
  have installed : (installStick kernel pad xId yId cal).axis =
      ((pad.setAxis xId (mfInstallAxis (pad.axis xId) cal.x cal.apply)).setAxis yId
        (mfInstallAxis ((pad.setAxis xId
          (mfInstallAxis (pad.axis xId) cal.x cal.apply)).axis yId) cal.y cal.apply)).axis := by
    rw [installStick, mfPublishStick_axis]
    split_ifs
    · exact bootFinish_axis _
    · rfl
  rw [installed, MfPad.setAxis_axis, MfPad.setAxis_axis, MfPad.setAxis_axis,
    if_neg distinct]

/-- A calibration write that is not an accepted `apply` for this axis leaves a
centre alone that boot or an earlier `apply` has set. -/
theorem mfCalStore_not_applied (kernel : Kernel) {pad : MfPad} {xId yId id : MfAxisId}
    (distinct : yId ≠ xId) {buf : List UInt8}
    (acquired : (pad.axis id).zeroSource = .boot ∨ (pad.axis id).zeroSource = .apply)
    (notApplied : ∀ cal, mfParseCal buf = some cal → id = xId ∨ id = yId → cal.apply = false) :
    SameCentre (pad.axis id) ((mfCalStore kernel pad xId yId buf).1.axis id) := by
  rcases mfCalStore_cases kernel pad xId yId buf with refused | ⟨cal, parsed, _, _, stored⟩
  · rw [refused]
    exact .refl _
  · rw [stored, installStick_axis kernel pad distinct]
    split_ifs with isY isX
    · subst isY
      rw [notApplied cal parsed (.inr rfl)]
      exact mfInstallAxis_restore acquired cal.y
    · subst isX
      rw [notApplied cal parsed (.inl rfl)]
      exact mfInstallAxis_restore acquired cal.x
    · exact .refl _

/-! ## Events -/

/-- No calibration write except `apply` moves an acquired centre. -/
theorem calibration_not_applied (kernel : Kernel) {pad : MfPad} {id : MfAxisId}
    (acquired : (pad.axis id).zeroSource = .boot ∨ (pad.axis id).zeroSource = .apply)
    {event : MfEvent} (isWrite : event.calibration.isSome = true)
    (notApplied : event.applies id = false) :
    SameCentre (pad.axis id) ((mfStep kernel pad event).axis id) := by
  have reading : ∀ {buf : List UInt8} {xId yId : MfAxisId},
      ((id == xId || id == yId) && (mfParseCal buf).any fun cal => cal.apply) = false →
      ∀ cal, mfParseCal buf = some cal → id = xId ∨ id = yId → cal.apply = false := by
    intro buf xId yId refused cal parsed onStick
    simpa [parsed, onStick] using refused
  cases event with
  | calibrationLeft buf =>
      exact mfCalStore_not_applied kernel (by decide) acquired (reading notApplied)
  | calibrationRight buf =>
      exact mfCalStore_not_applied kernel (by decide) acquired (reading notApplied)
  | receive | deadzone | portOpen | portClose => cases isWrite

theorem mfStep_applied (kernel : Kernel) {pad : MfPad} (ok : PadOk pad) {id : MfAxisId}
    (applied : (pad.axis id).zeroSource = .apply) {event : MfEvent}
    (notApplied : event.applies id = false) :
    SameCentre (pad.axis id) ((mfStep kernel pad event).axis id) := by
  cases event with
  | receive chunk =>
      have fed := mfReceive_invariant kernel
        (fun later => PadOk later ∧ SameCentre (pad.axis id) (later.axis id))
        (fun now _ byte holds => ⟨mfFeed_ok kernel now holds.1 byte,
          holds.2.trans (mfFeed_applied kernel now holds.1.toStickOk byte
            (holds.2.zeroSource.trans applied))⟩)
        ⟨ok, .refl _⟩ chunk
      exact fed.2
  | calibrationLeft buf => exact calibration_not_applied kernel (.inr applied) rfl notApplied
  | calibrationRight buf => exact calibration_not_applied kernel (.inr applied) rfl notApplied
  | deadzone right buf =>
      rcases mfDzStore_cases kernel pad right buf with refused | ⟨pct, _, stored⟩
      · rw [mfStep, refused]
        exact .refl _
      · rw [mfStep, stored]
        cases right <;> exact .refl _
  | portOpen ret =>
      rw [mfStep, mfPortOpen]
      split_ifs <;> exact .refl _
  | portClose => exact .refl _

theorem mfRun_applied (kernel : Kernel) {pad : MfPad} (ok : PadOk pad) {id : MfAxisId}
    (applied : (pad.axis id).zeroSource = .apply) {events : List MfEvent}
    (notApplied : ∀ event ∈ events, event.applies id = false) :
    SameCentre (pad.axis id) ((mfRun kernel pad events).axis id) := by
  induction events generalizing pad with
  | nil => exact .refl _
  | cons event rest induction =>
      have first := mfStep_applied kernel ok applied (notApplied event (by simp))
      exact first.trans (induction (mfStep_ok kernel ok event)
        (first.zeroSource.trans applied) fun later member => notApplied later (by simp [member]))

/-- In every state that a run reaches: an applied centre survives any later
events except another `apply` for its stick, a restore moves no centre that boot
or an `apply` has set, and a settled pad has every axis finished. -/
theorem applied_centre_authoritative (kernel : Kernel) (events : List MfEvent)
    (id : MfAxisId) :
    let pad := mfRun kernel mfProbePad events
    ((pad.axis id).zeroSource = .apply → ∀ later : List MfEvent,
      (∀ event ∈ later, event.applies id = false) →
        ((mfRun kernel pad later).axis id).runtimeZero = (pad.axis id).runtimeZero ∧
        ((mfRun kernel pad later).axis id).zeroSource = .apply) ∧
    ((pad.axis id).zeroSource = .boot ∨ (pad.axis id).zeroSource = .apply →
      ∀ restore : MfEvent, restore.calibration.isSome = true → restore.applies id = false →
        ((mfStep kernel pad restore).axis id).runtimeZero = (pad.axis id).runtimeZero) ∧
    (pad.settlePhase = .done → mfBootFinished (pad.axis id).bootState = true) := by
  have ok := mfRun_ok kernel mfProbePad_ok events
  refine ⟨?_, ?_, fun done => ok.settled done id⟩
  · intro applied later notApplied
    have same := mfRun_applied kernel ok applied notApplied
    exact ⟨same.runtimeZero, same.zeroSource.trans applied⟩
  · intro acquired restore isWrite notApplied
    exact (calibration_not_applied kernel acquired isWrite notApplied).runtimeZero

/-- `apply` before the first frame, then frames during and after the settle
delay and a `restore`: the applied centre 120 stays. -/
theorem applied_centre_kept_through_boot :
    let applied := mfRun hz1000Kernel mfProbePad
      [.portOpen 0, .calibrationLeft "apply 0 120 255 0 130 255".toUTF8.toList]
    let frame := fun now : Jiffies =>
      MfEvent.receive ([0xff, 90, 91, 92, 93, 0xfe].map fun byte => (now, byte))
    let later := [frame 10, frame 1600,
      .calibrationLeft "restore 10 100 250 10 100 250".toUTF8.toList, frame 1615]
    ((mfRun hz1000Kernel applied later).axis .xl).runtimeZero = 120 ∧
      ((mfRun hz1000Kernel applied later).axis .xl).zeroSource = .apply := by
  intro applied frame later
  have isApplied : (applied.axis .xl).runtimeZero = 120 ∧
      (applied.axis .xl).zeroSource = .apply := by decide +kernel
  have noApply : ∀ event ∈ later, event.applies .xl = false := by decide +kernel
  have kept := (applied_centre_authoritative hz1000Kernel _ .xl).1 isApplied.2 later noApply
  exact ⟨kept.1.trans isApplied.1, kept.2⟩

end Zlyme.Gamepad
