/-! # The RK3568 DMC devfreq driver

The transitions of `rk3568_dmc.c` over the driver's state and the two things it
drives: the DDR clock and the centre rail. What the firmware and the regulator
answer is an argument of each call.
-/

namespace Zlyme.Dmc

/-! ## Constants -/

def eio : Int := 5
def etimedout : Int := 110
def sipRetSetRateTimeout : Int32 := -6

/-- An `ERR_PTR` value. -/
structure Errno where
  value : Int
  negative : value < 0

/-! ## What surrounds the driver -/

/-- The OPP table of the device: the voltage of each rate, which does not fall
as the rate rises, and `dev_pm_opp_find_freq_ceil`. -/
structure OppTable where
  voltage : Nat → Nat
  monotone : ∀ {low high : Nat}, low ≤ high → voltage low ≤ voltage high
  findFreqCeil : Nat → Except Errno Nat
  ceil_le : ∀ {rate freq : Nat}, findFreqCeil rate = .ok freq → rate ≤ freq

/-- What the firmware answers during one `rk3568_dmc_set_rate`. -/
structure FirmwareReply where
  /-- `a0` and `a1` of `DRAM_SET_RATE`. -/
  setRate0 : UInt64
  setRate1 : UInt64
  /-- `a0` of `MCU_START`. -/
  mcuStart : UInt64
  /-- `a0` of the `POST_SET_RATE` that the completion interrupt makes, or `none`
  when no interrupt arrives in time. -/
  completion : Option UInt64
  /-- Whether DDR has moved to the requested rate in the end. -/
  changed : Bool
  deriving DecidableEq, Repr

/-- What `regulator_set_voltage` returns at each place that may call it. -/
structure RegulatorReply where
  raise : Int
  restore : Int
  lower : Int
  deriving DecidableEq, Repr

/-! ## State -/

/-- The words of `struct rk3568_share_params` that the transitions write. -/
structure ShareParams where
  hz : UInt32
  lcdcType : UInt32
  srIdleEn : UInt32
  waitFlag1 : UInt32
  waitFlag0 : UInt32
  deriving DecidableEq, Repr

structure WaitCtrl where
  waitFlag : Int
  waitEn : Int
  postSetErr : Int
  deriving DecidableEq, Repr

/-- `struct rk3568_dmcfreq`, and after it the hardware. -/
structure Dmcfreq where
  /-- Whether `dmcfreq->devfreq` is set. -/
  devfreq : Bool
  shareParams : Option ShareParams
  waitCtrl : WaitCtrl
  rate : Nat
  volt : Nat
  bootRate : Nat
  postResumeScaleDown : Int
  /-- The rate DDR runs at, which is also what `clk_get_rate` returns. -/
  ddrRate : Nat
  /-- The voltage of `vdd_center`. -/
  supply : Nat
  deriving DecidableEq, Repr

/-! ## Setting a rate -/

/-- A successful call sets the supply to the requested minimum. -/
def regulatorSetVoltage (dmc : Dmcfreq) (minUv : Nat) (reply : Int) : Dmcfreq × Int :=
  if reply = 0 then ({ dmc with supply := minUv }, 0) else (dmc, reply)

/-- The `POST_SET_RATE` that follows a timeout has its result logged only. -/
def waitComplete (dmc : Dmcfreq) (reply : FirmwareReply) : Dmcfreq × Int :=
  if dmc.waitCtrl.waitEn = 0 then (dmc, 0)
  else
    let armed := { dmc with
      waitCtrl := { dmc.waitCtrl with postSetErr := 0, waitFlag := -1 } }
    if reply.mcuStart ≠ 0 then (armed, -eio)
    else
      match reply.completion with
      | none => (armed, -etimedout)
      | some posted =>
          let postSetErr := if posted ≠ 0 then -eio else 0
          ({ armed with waitCtrl := { armed.waitCtrl with postSetErr, waitFlag := 0 } },
            postSetErr)

/-- The result of `rk3568_dmc_set_rate`: its return value, and the flag it
leaves in `*transition_started`. -/
structure SetRate where
  dmc : Dmcfreq
  err : Int
  started : Bool

/-- The parameters that precede `DRAM_SET_RATE`. -/
def writeRequest (targetRate : Nat) (params : ShareParams) : ShareParams :=
  { params with hz := UInt32.ofNat targetRate, lcdcType := 0, waitFlag1 := 1, waitFlag0 := 1 }

/-- The request is written and `DRAM_SET_RATE` issued. -/
def issueSetRate (dmc : Dmcfreq) (targetRate : Nat) (reply : FirmwareReply) : Dmcfreq :=
  { dmc with
    shareParams := dmc.shareParams.map (writeRequest targetRate)
    ddrRate := if reply.changed then targetRate else dmc.ddrRate }

def rk3568DmcSetRate (dmc : Dmcfreq) (targetRate : Nat) (reply : FirmwareReply) : SetRate :=
  let issued := issueSetRate dmc targetRate reply
  if reply.setRate0 ≠ 0 then ⟨issued, -eio, true⟩
  else
    let waited :=
      if reply.setRate1.toUInt32.toInt32 = sipRetSetRateTimeout then waitComplete issued reply
      else (issued, 0)
    if waited.2 ≠ 0 then ⟨waited.1, waited.2, true⟩
    else if waited.1.ddrRate ≠ targetRate then ⟨waited.1, -eio, true⟩
    else ⟨waited.1, 0, true⟩

/-- What is done about a raised supply when the transition fails. -/
def keepRaised (set : SetRate) (targetVolt : Nat) (restore : Int) : Dmcfreq :=
  if set.started = false then
    let restored := regulatorSetVoltage set.dmc set.dmc.volt restore
    if restored.2 ≠ 0 then { restored.1 with volt := targetVolt } else restored.1
  else { set.dmc with volt := targetVolt }

/-- The sequence that the target call and the suspend share: raise the supply
first, change the rate, lower the supply after. They differ in when they raise
(`up`) and when they lower (`down`, read after the transition). -/
def transition (dmc : Dmcfreq) (targetRate targetVolt : Nat) (up : Bool)
    (down : Dmcfreq → Bool) (reply : FirmwareReply) (regulator : RegulatorReply) :
    Dmcfreq × Int :=
  let raised := if up then regulatorSetVoltage dmc targetVolt regulator.raise else (dmc, 0)
  if raised.2 ≠ 0 then raised
  else
    let set := rk3568DmcSetRate raised.1 targetRate reply
    if set.err ≠ 0 then
      (if up then keepRaised set targetVolt regulator.restore else set.dmc, set.err)
    else
      let lowered :=
        if down set.dmc then regulatorSetVoltage set.dmc targetVolt regulator.lower
        else (set.dmc, 0)
      if lowered.2 ≠ 0 then
        -- DDR is already at the new rate, the supply keeps its higher voltage.
        ({ lowered.1 with rate := targetRate }, lowered.2)
      else ({ lowered.1 with rate := targetRate, volt := targetVolt }, 0)

/-! ## The three calls -/

/-- `opp` is the answer of `devfreq_recommended_opp`. The supply is raised or
lowered by the cached rate. -/
def rk3568DmcfreqTarget (table : OppTable) (dmc : Dmcfreq) (opp : Except Errno Nat)
    (reply : FirmwareReply) (regulator : RegulatorReply) : Dmcfreq × Int :=
  match opp with
  | .error errno => (dmc, errno.value)
  | .ok targetRate =>
      if dmc.rate = targetRate then (dmc, 0)
      else
        transition dmc targetRate (table.voltage targetRate) (decide (targetRate > dmc.rate))
          (fun _ => decide (targetRate < dmc.rate)) reply regulator

/-- The part of the suspend that brings DDR back to the boot rate. The supply is
raised or lowered by the cached voltage. -/
def restoreBootRate (table : OppTable) (dmc : Dmcfreq) (reply : FirmwareReply)
    (regulator : RegulatorReply) : Dmcfreq × Int :=
  match table.findFreqCeil dmc.bootRate with
  | .error errno => (dmc, errno.value)
  | .ok freq =>
      let targetVolt := table.voltage freq
      transition dmc dmc.bootRate targetVolt (decide (targetVolt > dmc.volt))
        (fun set => decide (targetVolt < set.volt)) reply regulator

/-- The parameters that the firmware needs for a deep suspend. -/
def writeSuspend (params : ShareParams) : ShareParams :=
  { params with hz := 0, srIdleEn := 1, waitFlag1 := 0, waitFlag0 := 0 }

def rk3568DmcfreqSuspend (table : OppTable) (dmc : Dmcfreq) (reply : FirmwareReply)
    (regulator : RegulatorReply) : Dmcfreq × Int :=
  if dmc.devfreq = false then (dmc, 0)
  else
    let restored :=
      if dmc.rate ≠ dmc.bootRate then restoreBootRate table dmc reply regulator else (dmc, 0)
    if restored.2 ≠ 0 then restored
    else ({ restored.1 with shareParams := restored.1.shareParams.map writeSuspend }, 0)

def rk3568DmcfreqResume (dmc : Dmcfreq) : Dmcfreq × Int :=
  if dmc.devfreq = false then (dmc, 0)
  else
    ({ dmc with
      rate := dmc.ddrRate
      shareParams := dmc.shareParams.map fun params => { params with srIdleEn := 0 }
      postResumeScaleDown := 3 }, 0)

inductive DmcCall
  | target (opp : Except Errno Nat) (reply : FirmwareReply) (regulator : RegulatorReply)
  | suspend (reply : FirmwareReply) (regulator : RegulatorReply)
  | resume

/-- The state after a call, and what the call returned. -/
def dmcCall (table : OppTable) (dmc : Dmcfreq) : DmcCall → Dmcfreq × Int
  | .target opp reply regulator => rk3568DmcfreqTarget table dmc opp reply regulator
  | .suspend reply regulator => rk3568DmcfreqSuspend table dmc reply regulator
  | .resume => rk3568DmcfreqResume dmc

abbrev dmcStep (table : OppTable) (dmc : Dmcfreq) (call : DmcCall) : Dmcfreq :=
  (dmcCall table dmc call).1

/-! ## What one transition does -/

/-- Only DDR and the words shared with the firmware have changed, and DDR as the
firmware says. -/
structure Issued (dmc : Dmcfreq) (targetRate : Nat) (reply : FirmwareReply)
    (next : Dmcfreq) : Prop where
  devfreq : next.devfreq = dmc.devfreq
  rate : next.rate = dmc.rate
  volt : next.volt = dmc.volt
  bootRate : next.bootRate = dmc.bootRate
  supply : next.supply = dmc.supply
  ddrRate : next.ddrRate = if reply.changed then targetRate else dmc.ddrRate

theorem issueSetRate_issued (dmc : Dmcfreq) (targetRate : Nat) (reply : FirmwareReply) :
    Issued dmc targetRate reply (issueSetRate dmc targetRate reply) := by
  constructor <;> rfl

theorem waitComplete_issued (dmc : Dmcfreq) (targetRate : Nat) (reply : FirmwareReply) :
    Issued dmc targetRate reply
      (waitComplete (issueSetRate dmc targetRate reply) reply).1 := by
  rw [waitComplete]
  dsimp only
  split
  · exact issueSetRate_issued dmc targetRate reply
  · split
    · constructor <;> rfl
    · cases reply.completion <;> constructor <;> rfl

/-- What `rk3568_dmc_set_rate` can do. A return of zero means that DDR runs at
the requested rate; every failure comes after the transition was started. -/
structure SetRateSpec (dmc : Dmcfreq) (targetRate : Nat) (reply : FirmwareReply)
    (set : SetRate) : Prop extends Issued dmc targetRate reply set.dmc where
  started : set.started = true
  reached : set.err = 0 → set.dmc.ddrRate = targetRate

theorem rk3568DmcSetRate_spec (dmc : Dmcfreq) (targetRate : Nat) (reply : FirmwareReply) :
    SetRateSpec dmc targetRate reply (rk3568DmcSetRate dmc targetRate reply) := by
  have issued := issueSetRate_issued dmc targetRate reply
  have waited : ∀ waited : Dmcfreq × Int,
      waited = (if reply.setRate1.toUInt32.toInt32 = sipRetSetRateTimeout then
        waitComplete (issueSetRate dmc targetRate reply) reply
        else (issueSetRate dmc targetRate reply, 0)) →
      Issued dmc targetRate reply waited.1 := by
    rintro waited rfl
    split
    · exact waitComplete_issued dmc targetRate reply
    · exact issued
  rw [rk3568DmcSetRate]
  dsimp only
  split
  · exact { issued with started := rfl, reached := by simp [eio] }
  · generalize outcome : (if reply.setRate1.toUInt32.toInt32 = sipRetSetRateTimeout then
      waitComplete (issueSetRate dmc targetRate reply) reply
      else (issueSetRate dmc targetRate reply, 0)) = final
    have finalIssued := waited final outcome.symm
    split
    · rename_i failed
      exact { finalIssued with started := rfl, reached := fun zero => absurd zero failed }
    · split
      · exact { finalIssued with started := rfl, reached := by simp [eio] }
      · rename_i same
        exact { finalIssued with started := rfl, reached := fun _ => Decidable.of_not_not same }

/-- After a failed transition the supply stays, and the cache takes its voltage. -/
theorem keepRaised_eq {set : SetRate} (started : set.started = true) (targetVolt : Nat)
    (restore : Int) : keepRaised set targetVolt restore = { set.dmc with volt := targetVolt } := by
  rw [keepRaised, if_neg (by simp [started])]

end Zlyme.Dmc
