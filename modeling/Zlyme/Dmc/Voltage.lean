import Zlyme.Foundation.Execution
import Zlyme.Dmc.Driver
import Mathlib.Tactic.SplitIfs

/-! # The centre rail under the DDR clock

After a failed transition the driver no longer knows the DDR rate: its cached
rate is the old one. The cached voltage is always right. A target that raises
the voltage from a stale rate can set it below what the real rate needs.
-/

namespace Zlyme.Dmc

/-! ## What one call does -/

/-- The four quantities that the voltage argument is about. -/
structure View where
  rate : Nat
  volt : Nat
  supply : Nat
  ddrRate : Nat
  deriving DecidableEq, Repr

def Dmcfreq.view (dmc : Dmcfreq) : View :=
  { rate := dmc.rate, volt := dmc.volt, supply := dmc.supply, ddrRate := dmc.ddrRate }

theorem Issued.view {dmc next : Dmcfreq} {targetRate : Nat} {reply : FirmwareReply}
    (issued : Issued dmc targetRate reply next) :
    next.view = { dmc.view with
      ddrRate := if reply.changed then targetRate else dmc.ddrRate } := by
  simp only [Dmcfreq.view, issued.rate, issued.volt, issued.supply, issued.ddrRate]

/-- The ways a transition can end, with the value it returns. -/
inductive Outcome (before : View) (targetRate targetVolt : Nat) (up down changed : Bool)
    (raise : Int) : View → Int → Prop
  | refused {err : Int} (raiseFailed : up = true ∧ raise ≠ 0) (nonzero : err ≠ 0) :
      Outcome before targetRate targetVolt up down changed raise before err
  | failed {err : Int} (raised : up = true → raise = 0) (nonzero : err ≠ 0) :
      Outcome before targetRate targetVolt up down changed raise
        { rate := before.rate
          volt := if up then targetVolt else before.volt
          supply := if up then targetVolt else before.supply
          ddrRate := if changed then targetRate else before.ddrRate } err
  | kept {err : Int} (moved : changed = false → before.ddrRate = targetRate)
      (lowering : down = true) (nonzero : err ≠ 0) :
      Outcome before targetRate targetVolt up down changed raise
        { rate := targetRate
          volt := before.volt
          supply := if up then targetVolt else before.supply
          ddrRate := targetRate } err
  | reached (moved : changed = false → before.ddrRate = targetRate) :
      Outcome before targetRate targetVolt up down changed raise
        { rate := targetRate
          volt := targetVolt
          supply := if up || down then targetVolt else before.supply
          ddrRate := targetRate } 0

theorem transition_outcome (dmc : Dmcfreq) (targetRate targetVolt : Nat) (up : Bool)
    (down : Dmcfreq → Bool) (byVolt : ∀ next, next.volt = dmc.volt → down next = down dmc)
    (reply : FirmwareReply) (regulator : RegulatorReply) :
    let ended := transition dmc targetRate targetVolt up down reply regulator
    Outcome dmc.view targetRate targetVolt up (down dmc) reply.changed regulator.raise
      ended.1.view ended.2 := by
  rw [transition]
  dsimp only
  generalize raisedIs :
    (if up then regulatorSetVoltage dmc targetVolt regulator.raise else (dmc, 0)) = raised
  have raisedCases :
      ((up = true ∧ regulator.raise ≠ 0) ∧ raised.2 ≠ 0 ∧ raised.1 = dmc) ∨
      ((up = true → regulator.raise = 0) ∧ raised.2 = 0 ∧
        raised.1 = { dmc with supply := if up then targetVolt else dmc.supply }) := by
    subst raisedIs
    cases up with
    | false => exact .inr ⟨by simp, rfl, rfl⟩
    | true =>
        by_cases zero : regulator.raise = 0
        · exact .inr (by simp [regulatorSetVoltage, zero])
        · exact .inl (by simp [regulatorSetVoltage, zero])
  rcases raisedCases with ⟨raiseFailed, failed, same⟩ | ⟨raiseOk, zero, raisedEq⟩
  · rw [if_pos failed, same]
    exact .refused raiseFailed failed
  · rw [if_neg (by simp [zero])]
    have spec := rk3568DmcSetRate_spec raised.1 targetRate reply
    generalize rk3568DmcSetRate raised.1 targetRate reply = set at spec
    have sameVolt : set.dmc.volt = dmc.volt := by rw [spec.volt, raisedEq]
    by_cases failed : set.err ≠ 0
    · rw [if_pos failed, keepRaised_eq spec.started]
      have view : (if up then { set.dmc with volt := targetVolt } else set.dmc).view =
          { rate := dmc.rate
            volt := if up then targetVolt else dmc.volt
            supply := if up then targetVolt else dmc.supply
            ddrRate := if reply.changed then targetRate else dmc.ddrRate } := by
        cases up <;>
          simp [Dmcfreq.view, spec.rate, spec.volt, spec.supply, spec.ddrRate, raisedEq]
      rw [view]
      exact .failed raiseOk failed
    · rw [if_neg failed, byVolt set.dmc sameVolt]
      have ddrReached := spec.reached (Decidable.of_not_not failed)
      have moved : reply.changed = false → dmc.view.ddrRate = targetRate := by
        intro unchanged
        have ddrRate := spec.ddrRate
        rw [ddrReached, if_neg (by simp [unchanged]), raisedEq] at ddrRate
        exact ddrRate.symm
      have supply : set.dmc.supply = if up then targetVolt else dmc.supply := by
        rw [spec.supply, raisedEq]
      by_cases lowering : down dmc = true
      · rw [if_pos lowering, regulatorSetVoltage]
        by_cases lowered : regulator.lower = 0
        · rw [if_pos lowered, if_neg (by simp)]
          have view : ({ set.dmc with
              supply := targetVolt, rate := targetRate, volt := targetVolt } : Dmcfreq).view =
              { rate := targetRate
                volt := targetVolt
                supply := if up || down dmc then targetVolt else dmc.supply
                ddrRate := targetRate } := by
            simp [Dmcfreq.view, lowering, ddrReached]
          exact view ▸ .reached moved
        · rw [if_neg lowered, if_pos lowered]
          have view : ({ set.dmc with rate := targetRate } : Dmcfreq).view =
              { rate := targetRate
                volt := dmc.volt
                supply := if up then targetVolt else dmc.supply
                ddrRate := targetRate } := by
            simp only [Dmcfreq.view, sameVolt, supply, ddrReached]
          exact view ▸ .kept moved lowering lowered
      · rw [if_neg lowering, if_neg (by simp)]
        have view : ({ set.dmc with rate := targetRate, volt := targetVolt } : Dmcfreq).view =
            { rate := targetRate
              volt := targetVolt
              supply := if up || down dmc then targetVolt else dmc.supply
              ddrRate := targetRate } := by
          simp [Dmcfreq.view, lowering, supply, ddrReached]
        exact view ▸ .reached moved

/-- A target call returns without a transition, or its transition has an outcome. -/
theorem target_outcome (table : OppTable) (dmc : Dmcfreq) (targetRate : Nat)
    (reply : FirmwareReply) (regulator : RegulatorReply) (differs : dmc.rate ≠ targetRate) :
    let ended := rk3568DmcfreqTarget table dmc (.ok targetRate) reply regulator
    Outcome dmc.view targetRate (table.voltage targetRate) (decide (dmc.rate < targetRate))
      (decide (targetRate < dmc.rate)) reply.changed regulator.raise ended.1.view ended.2 := by
  have outcome := transition_outcome dmc targetRate (table.voltage targetRate)
    (decide (targetRate > dmc.rate)) (fun _ => decide (targetRate < dmc.rate))
    (fun _ _ => rfl) reply regulator
  rwa [rk3568DmcfreqTarget, if_neg differs]

theorem restoreBootRate_outcome (table : OppTable) (dmc : Dmcfreq) (reply : FirmwareReply)
    (regulator : RegulatorReply) :
    let ended := restoreBootRate table dmc reply regulator
    (ended.1 = dmc ∧ ended.2 ≠ 0) ∨ ∃ freq, dmc.bootRate ≤ freq ∧
      Outcome dmc.view dmc.bootRate (table.voltage freq)
        (decide (dmc.volt < table.voltage freq)) (decide (table.voltage freq < dmc.volt))
        reply.changed regulator.raise ended.1.view ended.2 := by
  rw [restoreBootRate]
  cases found : table.findFreqCeil dmc.bootRate with
  | error errno => exact .inl ⟨rfl, Int.ne_of_lt errno.negative⟩
  | ok freq =>
      refine .inr ⟨freq, table.ceil_le found, ?_⟩
      exact transition_outcome dmc dmc.bootRate (table.voltage freq)
        (decide (table.voltage freq > dmc.volt)) (fun set => decide (table.voltage freq < set.volt))
        (fun next same => by rw [same]) reply regulator

/-! ## The voltage invariant -/

/-- The supply is known exactly, and enough for the real and the cached rate. -/
structure VoltageOk (table : OppTable) (view : View) : Prop where
  known : view.volt = view.supply
  enough : table.voltage view.ddrRate ≤ view.supply
  enoughCached : table.voltage view.rate ≤ view.supply

/-- The cached rate is stale and low: a target above it takes the supply below
what the real rate needs, and DDR does not follow. -/
def StaleRaise (table : OppTable) (dmc : Dmcfreq) : DmcCall → Prop
  | .target (.ok targetRate) reply regulator =>
      dmc.rate < targetRate ∧ table.voltage targetRate < table.voltage dmc.ddrRate ∧
        regulator.raise = 0 ∧ reply.changed = false
  | _ => False

instance (table : OppTable) (dmc : Dmcfreq) : DecidablePred (StaleRaise table dmc)
  | .target (.ok _) _ _ => inferInstanceAs (Decidable (_ ∧ _))
  | .target (.error _) _ _ => .isFalse id
  | .suspend _ _ => .isFalse id
  | .resume => .isFalse id

theorem VoltageOk.target {table : OppTable} {before next : View} {targetRate : Nat}
    {changed : Bool} {raise err : Int} (ok : VoltageOk table before)
    (differs : before.rate ≠ targetRate)
    (notStale : before.rate < targetRate → raise = 0 → changed = false →
      table.voltage before.ddrRate ≤ table.voltage targetRate)
    (outcome : Outcome before targetRate (table.voltage targetRate)
      (decide (before.rate < targetRate)) (decide (targetRate < before.rate)) changed raise
      next err) : VoltageOk table next := by
  have lower : targetRate ≤ before.rate → table.voltage targetRate ≤ before.supply :=
    fun down => Nat.le_trans (table.monotone down) ok.enoughCached
  cases outcome with
  | refused => exact ok
  | failed raised =>
      by_cases up : before.rate < targetRate
      · simp only [decide_eq_true up, if_true] at raised ⊢
        refine ⟨rfl, ?_, table.monotone (Nat.le_of_lt up)⟩
        cases changed with
        | true => exact Nat.le_refl _
        | false => exact notStale up (raised trivial) rfl
      · simp only [decide_eq_false up, Bool.false_eq_true, if_false]
        refine ⟨ok.known, ?_, ok.enoughCached⟩
        cases changed with
        | true => exact lower (Nat.le_of_not_lt up)
        | false => exact ok.enough
  | kept _ lowering =>
      have down : targetRate < before.rate := of_decide_eq_true lowering
      simp only [decide_eq_false (Nat.lt_asymm down), Bool.false_eq_true, if_false]
      exact ⟨ok.known, lower (Nat.le_of_lt down), lower (Nat.le_of_lt down)⟩
  | reached =>
      have moves : (decide (before.rate < targetRate) || decide (targetRate < before.rate)) = true := by
        simpa using Nat.lt_or_gt_of_ne differs
      simp only [moves, if_true]
      exact ⟨rfl, Nat.le_refl _, Nat.le_refl _⟩

theorem VoltageOk.restore {table : OppTable} {before next : View} {bootRate freq : Nat}
    {changed : Bool} {raise err : Int} (ok : VoltageOk table before)
    (atLeast : bootRate ≤ freq)
    (outcome : Outcome before bootRate (table.voltage freq)
      (decide (before.volt < table.voltage freq)) (decide (table.voltage freq < before.volt))
      changed raise next err) : VoltageOk table next := by
  have enoughBoot : table.voltage bootRate ≤ table.voltage freq := table.monotone atLeast
  have known := ok.known
  have enough := ok.enough
  have enoughCached := ok.enoughCached
  cases outcome with
  | refused => exact ok
  | failed =>
      by_cases up : before.volt < table.voltage freq
      · simp only [decide_eq_true up, if_true]
        refine ⟨rfl, ?_, by dsimp only; omega⟩
        cases changed with
        | true => exact enoughBoot
        | false => simp only [Bool.false_eq_true, if_false]; omega
      · simp only [decide_eq_false up, Bool.false_eq_true, if_false]
        refine ⟨known, ?_, enoughCached⟩
        cases changed with
        | true => simp only [if_true]; omega
        | false => exact enough
  | kept _ lowering =>
      have down : table.voltage freq < before.volt := of_decide_eq_true lowering
      simp only [decide_eq_false (Nat.lt_asymm down), Bool.false_eq_true, if_false]
      exact ⟨known, by dsimp only; omega, by dsimp only; omega⟩
  | reached =>
      by_cases same : table.voltage freq = before.volt
      · simp only [same, Nat.lt_irrefl, decide_false, Bool.or_self, Bool.false_eq_true, if_false]
        exact ⟨known, by dsimp only; omega, by dsimp only; omega⟩
      · have moves : (decide (before.volt < table.voltage freq) ||
            decide (table.voltage freq < before.volt)) = true := by
          simpa using Nat.lt_or_gt_of_ne (Ne.symm same)
        simp only [moves, if_true]
        exact ⟨rfl, enoughBoot, enoughBoot⟩

/-- Every call but a stale raise keeps the invariant. -/
theorem dmcStep_voltageOk (table : OppTable) {dmc : Dmcfreq} (ok : VoltageOk table dmc.view)
    {call : DmcCall} (notStale : ¬StaleRaise table dmc call) :
    VoltageOk table (dmcStep table dmc call).view := by
  cases call with
  | target opp reply regulator =>
      cases opp with
      | error errno => exact ok
      | ok targetRate =>
          by_cases same : dmc.rate = targetRate
          · rw [dmcStep, dmcCall, rk3568DmcfreqTarget, if_pos same]
            exact ok
          · have outcome := target_outcome table dmc targetRate reply regulator same
            refine ok.target same (fun up raised unchanged => ?_) outcome
            exact Nat.le_of_not_lt fun below => notStale ⟨up, below, raised, unchanged⟩
  | suspend reply regulator =>
      have restored : VoltageOk table (restoreBootRate table dmc reply regulator).1.view := by
        rcases restoreBootRate_outcome table dmc reply regulator with
          ⟨same, _⟩ | ⟨freq, atLeast, outcome⟩
        · rw [same]
          exact ok
        · exact ok.restore atLeast outcome
      rw [dmcStep, dmcCall, rk3568DmcfreqSuspend]
      dsimp only
      generalize restoredIs : (if dmc.rate ≠ dmc.bootRate then
        restoreBootRate table dmc reply regulator else (dmc, 0)) = after
      have afterOk : VoltageOk table after.1.view := by
        subst restoredIs
        split
        · exact restored
        · exact ok
      split
      · exact ok
      · split <;> exact afterOk
  | resume =>
      rw [dmcStep, dmcCall, rk3568DmcfreqResume]
      split
      · exact ok
      · exact ⟨ok.known, ok.enough, ok.enough⟩

/-- A stale raise leaves the supply below the voltage of the real rate. -/
theorem staleRaise_unsafe (table : OppTable) {dmc : Dmcfreq} {call : DmcCall}
    (stale : StaleRaise table dmc call) :
    ¬table.voltage (dmcStep table dmc call).ddrRate ≤ (dmcStep table dmc call).supply := by
  cases call with
  | suspend | resume => exact stale.elim
  | target opp reply regulator =>
      cases opp with
      | error errno => exact stale.elim
      | ok targetRate =>
          rcases stale with ⟨up, below, raised, unchanged⟩
          have outcome := target_outcome table dmc targetRate reply regulator (Nat.ne_of_lt up)
          have elsewhere : dmc.ddrRate ≠ targetRate := by
            rintro rfl
            exact Nat.lt_irrefl _ below
          have final : ∀ view err, Outcome dmc.view targetRate (table.voltage targetRate)
              (decide (dmc.rate < targetRate)) (decide (targetRate < dmc.rate)) reply.changed
              regulator.raise view err → ¬table.voltage view.ddrRate ≤ view.supply := by
            intro view err outcome
            cases outcome with
            | refused raiseFailed => exact absurd raised raiseFailed.2
            | failed =>
                simp only [decide_eq_true up, unchanged, if_true, Bool.false_eq_true, if_false]
                exact Nat.not_le_of_lt below
            | kept moved => exact absurd (moved unchanged) elsewhere
            | reached moved => exact absurd (moved unchanged) elsewhere
          exact final _ _ outcome

/-- From a start where the cache is right and the supply is enough, the supply is
enough for the real DDR rate after every call of a run exactly when no call of
the run is a stale raise. -/
theorem voltage_safe_iff (table : OppTable) {start : Dmcfreq}
    (rateKnown : start.rate = start.ddrRate) (voltKnown : start.volt = start.supply)
    (enough : table.voltage start.ddrRate ≤ start.supply) (calls : List DmcCall) :
    Foundation.Execution.Throughout (dmcStep table)
        (fun dmc => table.voltage dmc.ddrRate ≤ dmc.supply) start calls ↔
      Foundation.Execution.Along (dmcStep table)
        (fun dmc call => ¬StaleRaise table dmc call) start calls := by
  have enoughCached : table.voltage start.rate ≤ start.supply := by rwa [rateKnown]
  have ok : VoltageOk table start.view := ⟨voltKnown, enough, enoughCached⟩
  exact Foundation.Execution.throughout_iff_along
    (fun dmc : Dmcfreq => VoltageOk table dmc.view) (fun _ ok => ok.enough)
    (fun _ _ ok notStale => dmcStep_voltageOk table ok notStale)
    (fun _ _ _ stale => staleRaise_unsafe table (Decidable.of_not_not stale)) ok calls

/-! ### A failed raise followed by a smaller one -/

/-- Four rates with rising voltages, as a device tree may give them. -/
def risingTable : OppTable where
  voltage rate :=
    if rate ≤ 324000000 then 850000 else if rate ≤ 528000000 then 875000
    else if rate ≤ 780000000 then 900000 else 950000
  monotone := by
    intro low high le
    split_ifs <;> omega
  findFreqCeil rate :=
    if rate ≤ 324000000 then .ok 324000000 else if rate ≤ 528000000 then .ok 528000000
    else if rate ≤ 780000000 then .ok 780000000 else if rate ≤ 1056000000 then .ok 1056000000
    else .error ⟨-34, by decide⟩
  ceil_le := by
    intro rate freq found
    split_ifs at found <;> cases found <;> assumption

def settledAt (rate volt : Nat) : Dmcfreq where
  devfreq := true
  shareParams := some ⟨0, 0, 0, 0, 0⟩
  waitCtrl := ⟨0, 1, 0⟩
  rate := rate
  volt := volt
  bootRate := 780000000
  postResumeScaleDown := 0
  ddrRate := rate
  supply := volt

/-- The completion interrupt is missed; DDR has or has not moved. -/
def missedInterrupt (changed : Bool) : FirmwareReply where
  setRate0 := 0
  setRate1 := 0xfffffffffffffffa
  mcuStart := 0
  completion := none
  changed := changed

def regulatorOk : RegulatorReply := ⟨0, 0, 0⟩

/-- From 324 MHz a target of 1056 MHz times out after DDR has moved. The next
target of 528 MHz takes the supply down to 875 mV and times out with DDR still
at 1056 MHz, which needs 950 mV. -/
theorem voltage_unsafe_after_failed_raise :
    ¬Foundation.Execution.Throughout (dmcStep risingTable)
      (fun dmc => risingTable.voltage dmc.ddrRate ≤ dmc.supply) (settledAt 324000000 850000)
      [.target (.ok 1056000000) (missedInterrupt true) regulatorOk,
        .target (.ok 528000000) (missedInterrupt false) regulatorOk] := by
  decide

/-- The same two targets with the second one reached keep the supply safe. -/
theorem voltage_safe_after_recovered_raise :
    Foundation.Execution.Throughout (dmcStep risingTable)
      (fun dmc => risingTable.voltage dmc.ddrRate ≤ dmc.supply) (settledAt 324000000 850000)
      [.target (.ok 1056000000) (missedInterrupt true) regulatorOk,
        .target (.ok 528000000) { missedInterrupt true with completion := some 0 }
          regulatorOk] :=
  (voltage_safe_iff risingTable rfl rfl (by decide) _).mpr (by decide)

end Zlyme.Dmc
