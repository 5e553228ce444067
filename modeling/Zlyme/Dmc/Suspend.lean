import Zlyme.Dmc.Voltage

/-! # What a successful suspend promises

The firmware resumes DDR at the boot rate. The suspend call moves DDR there only
when the cached rate differs from it, so a stale cache that equals the boot rate
lets the suspend succeed at another rate.
-/

namespace Zlyme.Dmc

/-! ## The contract -/

/-- If this call is a suspend of a registered device that returns zero, then DDR
runs at the boot rate afterwards. -/
def SuspendContract (table : OppTable) (dmc : Dmcfreq) (call : DmcCall) : Prop :=
  match call with
  | .suspend _ _ =>
      dmc.devfreq = true → (dmcCall table dmc call).2 = 0 →
        (dmcStep table dmc call).ddrRate = (dmcStep table dmc call).bootRate
  | _ => True

/-- A suspend that finds the cached rate at the boot rate and DDR elsewhere. -/
def StaleSuspend (dmc : Dmcfreq) (call : DmcCall) : Prop :=
  match call with
  | .suspend _ _ => dmc.devfreq = true ∧ dmc.rate = dmc.bootRate ∧ dmc.ddrRate ≠ dmc.bootRate
  | _ => False

instance (table : OppTable) (dmc : Dmcfreq) : DecidablePred (SuspendContract table dmc)
  | .suspend _ _ => inferInstanceAs (Decidable (_ → _ → _))
  | .target _ _ _ => .isTrue trivial
  | .resume => .isTrue trivial

instance (dmc : Dmcfreq) : DecidablePred (StaleSuspend dmc)
  | .suspend _ _ => inferInstanceAs (Decidable (_ ∧ _ ∧ _))
  | .target _ _ _ => .isFalse id
  | .resume => .isFalse id

/-! ## One call -/

theorem keepRaised_bootRate {set : SetRate} (started : set.started = true)
    (targetVolt : Nat) (restore : Int) :
    (keepRaised set targetVolt restore).bootRate = set.dmc.bootRate := by
  rw [keepRaised_eq started]

theorem regulatorSetVoltage_bootRate (dmc : Dmcfreq) (minUv : Nat) (reply : Int) :
    (regulatorSetVoltage dmc minUv reply).1.bootRate = dmc.bootRate := by
  rw [regulatorSetVoltage]
  split <;> rfl

theorem transition_bootRate (dmc : Dmcfreq) (targetRate targetVolt : Nat) (up : Bool)
    (down : Dmcfreq → Bool) (reply : FirmwareReply) (regulator : RegulatorReply) :
    (transition dmc targetRate targetVolt up down reply regulator).1.bootRate =
      dmc.bootRate := by
  rw [transition]
  dsimp only
  generalize raisedIs :
    (if up then regulatorSetVoltage dmc targetVolt regulator.raise else (dmc, 0)) = raised
  have raisedBoot : raised.1.bootRate = dmc.bootRate := by
    subst raisedIs
    split
    · exact regulatorSetVoltage_bootRate dmc targetVolt regulator.raise
    · rfl
  have spec := rk3568DmcSetRate_spec raised.1 targetRate reply
  generalize rk3568DmcSetRate raised.1 targetRate reply = set at spec
  have setBoot : set.dmc.bootRate = dmc.bootRate := by rw [spec.bootRate, raisedBoot]
  generalize loweredIs : (if down set.dmc then
    regulatorSetVoltage set.dmc targetVolt regulator.lower else (set.dmc, 0)) = lowered
  have loweredBoot : lowered.1.bootRate = dmc.bootRate := by
    subst loweredIs
    split
    · rw [regulatorSetVoltage_bootRate, setBoot]
    · exact setBoot
  split
  · exact raisedBoot
  · split
    · split
      · rw [keepRaised_bootRate spec.started, setBoot]
      · exact setBoot
    · split <;> exact loweredBoot

theorem restoreBootRate_bootRate (table : OppTable) (dmc : Dmcfreq) (reply : FirmwareReply)
    (regulator : RegulatorReply) :
    (restoreBootRate table dmc reply regulator).1.bootRate = dmc.bootRate := by
  rw [restoreBootRate]
  split
  · rfl
  · exact transition_bootRate dmc _ _ _ _ reply regulator

/-- A restore that returns zero leaves DDR at the boot rate. -/
theorem restoreBootRate_reached (table : OppTable) (dmc : Dmcfreq) (reply : FirmwareReply)
    (regulator : RegulatorReply) (succeeded : (restoreBootRate table dmc reply regulator).2 = 0) :
    (restoreBootRate table dmc reply regulator).1.ddrRate = dmc.bootRate := by
  rcases restoreBootRate_outcome table dmc reply regulator with
    ⟨_, failed⟩ | ⟨freq, _, outcome⟩
  · exact absurd succeeded failed
  · have final : ∀ view err, err = 0 → Outcome dmc.view dmc.bootRate (table.voltage freq)
        (decide (dmc.volt < table.voltage freq)) (decide (table.voltage freq < dmc.volt))
        reply.changed regulator.raise view err → view.ddrRate = dmc.bootRate := by
      intro view err zero outcome
      cases outcome with
      | refused _ nonzero => exact absurd zero nonzero
      | failed _ nonzero => exact absurd zero nonzero
      | kept => rfl
      | reached => rfl
    exact final _ _ succeeded outcome

theorem suspendContract_iff (table : OppTable) (dmc : Dmcfreq) (call : DmcCall) :
    SuspendContract table dmc call ↔ ¬StaleSuspend dmc call := by
  cases call with
  | target | resume => exact ⟨fun _ => id, fun _ => trivial⟩
  | suspend reply regulator =>
      by_cases registered : dmc.devfreq = true
      · by_cases same : dmc.rate = dmc.bootRate
        · -- Nothing is issued: DDR stays where it is, and the call returns zero.
          have suspended : dmcCall table dmc (.suspend reply regulator) =
              ({ dmc with shareParams := dmc.shareParams.map writeSuspend }, 0) := by
            simp [dmcCall, rk3568DmcfreqSuspend, registered, same]
          simp [SuspendContract, StaleSuspend, dmcStep, suspended, registered, same]
        · refine ⟨fun _ stale => same stale.2.1, fun _ _ succeeded => ?_⟩
          have suspended : dmcCall table dmc (.suspend reply regulator) =
              if (restoreBootRate table dmc reply regulator).2 ≠ 0 then
                restoreBootRate table dmc reply regulator
              else ({ (restoreBootRate table dmc reply regulator).1 with
                shareParams := (restoreBootRate table dmc reply regulator).1.shareParams.map
                  writeSuspend }, 0) := by
            simp [dmcCall, rk3568DmcfreqSuspend, registered, same]
          by_cases restored : (restoreBootRate table dmc reply regulator).2 = 0
          · rw [dmcStep, suspended, if_neg (by simp [restored])]
            dsimp only
            rw [restoreBootRate_reached table dmc reply regulator restored,
              restoreBootRate_bootRate]
          · rw [suspended, if_pos restored] at succeeded
            exact absurd succeeded restored
      · exact ⟨fun _ stale => registered stale.1, fun _ isRegistered => absurd isRegistered registered⟩

/-! ## Runs -/

/-- Every suspend of a run that returns zero leaves DDR at the boot rate exactly
when none of them finds a stale cache at the boot rate. -/
theorem suspend_contract_iff (table : OppTable) (start : Dmcfreq) (calls : List DmcCall) :
    Foundation.Execution.Along (dmcStep table) (SuspendContract table) start calls ↔
      Foundation.Execution.Along (dmcStep table)
        (fun dmc call => ¬StaleSuspend dmc call) start calls :=
  Foundation.Execution.along_congr (suspendContract_iff table)

/-! ### From 780 MHz, a lost transition -/

/-- A target of 324 MHz times out after DDR has moved. The cached rate is still
the boot rate, so the suspend succeeds with DDR at 324 MHz. -/
theorem suspend_succeeds_off_boot_rate :
    ¬Foundation.Execution.Along (dmcStep risingTable) (SuspendContract risingTable)
      (settledAt 780000000 900000)
      [.target (.ok 324000000) (missedInterrupt true) regulatorOk,
        .suspend (missedInterrupt true) regulatorOk] := by
  decide

/-! ### Where a stale cache comes from -/

/-- The cache does not mistake another rate for the boot rate. -/
def CacheOk (dmc : Dmcfreq) : Prop :=
  dmc.rate = dmc.bootRate → dmc.ddrRate = dmc.bootRate

/-- The call moves DDR and leaves the cached rate as it was. -/
def LostTransition (table : OppTable) (dmc : Dmcfreq) (call : DmcCall) : Prop :=
  (dmcStep table dmc call).rate = dmc.rate ∧ (dmcStep table dmc call).ddrRate ≠ dmc.ddrRate

theorem Outcome.rate {before next : View} {targetRate targetVolt : Nat}
    {up down changed : Bool} {raise err : Int}
    (outcome : Outcome before targetRate targetVolt up down changed raise next err) :
    next.rate = before.rate ∨ next.rate = next.ddrRate := by
  cases outcome with
  | refused | failed => exact .inl rfl
  | kept | reached => exact .inr rfl

/-- A call keeps the cached rate or makes it the real one, and never touches the
boot rate. -/
theorem dmcStep_rate (table : OppTable) (dmc : Dmcfreq) (call : DmcCall) :
    ((dmcStep table dmc call).rate = dmc.rate ∨
      (dmcStep table dmc call).rate = (dmcStep table dmc call).ddrRate) ∧
    (dmcStep table dmc call).bootRate = dmc.bootRate := by
  cases call with
  | target opp reply regulator =>
      cases opp with
      | error errno => exact ⟨.inl rfl, rfl⟩
      | ok targetRate =>
          by_cases same : dmc.rate = targetRate
          · rw [dmcStep, dmcCall, rk3568DmcfreqTarget, if_pos same]
            exact ⟨.inl rfl, rfl⟩
          · have outcome := target_outcome table dmc targetRate reply regulator same
            refine ⟨outcome.rate, ?_⟩
            rw [dmcStep, dmcCall, rk3568DmcfreqTarget, if_neg same]
            exact transition_bootRate dmc _ _ _ _ reply regulator
  | suspend reply regulator =>
      have restored : (restoreBootRate table dmc reply regulator).1.rate = dmc.rate ∨
          (restoreBootRate table dmc reply regulator).1.rate =
            (restoreBootRate table dmc reply regulator).1.ddrRate := by
        rcases restoreBootRate_outcome table dmc reply regulator with
          ⟨same, _⟩ | ⟨freq, _, outcome⟩
        · exact .inl (by rw [same])
        · exact outcome.rate
      have bootRate := restoreBootRate_bootRate table dmc reply regulator
      rw [dmcStep, dmcCall, rk3568DmcfreqSuspend]
      dsimp only
      generalize restoredIs : (if dmc.rate ≠ dmc.bootRate then
        restoreBootRate table dmc reply regulator else (dmc, 0)) = after
      have afterOk : (after.1.rate = dmc.rate ∨ after.1.rate = after.1.ddrRate) ∧
          after.1.bootRate = dmc.bootRate := by
        subst restoredIs
        split
        · exact ⟨restored, bootRate⟩
        · exact ⟨.inl rfl, rfl⟩
      split
      · exact ⟨.inl rfl, rfl⟩
      · split <;> exact afterOk
  | resume =>
      rw [dmcStep, dmcCall, rk3568DmcfreqResume]
      split
      · exact ⟨.inl rfl, rfl⟩
      · exact ⟨.inr rfl, rfl⟩

theorem dmcStep_cacheOk (table : OppTable) {dmc : Dmcfreq} (ok : CacheOk dmc)
    {call : DmcCall} (notLost : ¬LostTransition table dmc call) :
    CacheOk (dmcStep table dmc call) := by
  rcases dmcStep_rate table dmc call with ⟨rate, bootRate⟩
  intro atBoot
  rw [bootRate] at atBoot ⊢
  rcases rate with same | real
  · have stays : (dmcStep table dmc call).ddrRate = dmc.ddrRate :=
      Decidable.of_not_not fun moved => notLost ⟨same, moved⟩
    rw [stays]
    exact ok (same.symm.trans atBoot)
  · exact real.symm.trans atBoot

/-- Without lost transitions the contract holds in every run from a right cache. -/
theorem suspend_contract_of_no_lost_transition (table : OppTable) {start : Dmcfreq}
    (rateKnown : start.rate = start.ddrRate) {calls : List DmcCall}
    (noneLost : Foundation.Execution.Along (dmcStep table)
      (fun dmc call => ¬LostTransition table dmc call) start calls) :
    Foundation.Execution.Along (dmcStep table) (SuspendContract table) start calls := by
  refine noneLost.of_invariant CacheOk (fun _ _ ok notLost => dmcStep_cacheOk table ok notLost)
    (fun dmc call ok _ => (suspendContract_iff table dmc call).mpr ?_)
    (fun atBoot => rateKnown ▸ atBoot)
  cases call with
  | target | resume => exact id
  | suspend => exact fun stale => stale.2.2 (ok stale.2.1)

end Zlyme.Dmc
