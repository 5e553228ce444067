import Zlyme.Foundation.Execution

/-! # Lid policy

When the lid and power daemon asks for a suspend. The policy sees the owner of
the screen change, the lid and the power key, and the end of every suspend.
-/

namespace Zlyme.Keylidmon

open Foundation.Execution

inductive LidEvent
  | menu
  | pak
  | close
  | open
  | power
  /-- Any other number: the switch has no case for it. -/
  | other
  deriving DecidableEq, Repr

structure LidPolicy where
  menuSeen : Bool
  menuOwns : Bool
  inPak : Bool
  pakLatched : Bool
  lidClosed : Bool
  asleep : Bool
  busy : Bool
  memRequests : Nat
  powerRequests : Nat
  lidRequests : Nat
  deriving DecidableEq, Repr

namespace LidPolicy

/-- The daemon's policy is a zeroed static. -/
def initial : LidPolicy where
  menuSeen := false
  menuOwns := false
  inPak := false
  pakLatched := false
  lidClosed := false
  asleep := false
  busy := false
  memRequests := 0
  powerRequests := 0
  lidRequests := 0

/-- The switch of `lidApply`: the flags it leaves and whether it wants a suspend. -/
def react (policy : LidPolicy) (event : LidEvent) (guard : Bool) : LidPolicy × Bool :=
  match event with
  | .menu =>
      ({ policy with menuSeen := true, menuOwns := true, inPak := false, pakLatched := false },
        false)
  | .pak =>
      if !policy.menuSeen || policy.inPak then
        ({ policy with menuOwns := false }, false)
      else
        ({ policy with menuOwns := false, inPak := true, pakLatched := true },
          policy.lidClosed && !policy.asleep && !guard && !policy.busy)
  | .close =>
      ({ policy with lidClosed := true },
        !(policy.menuOwns || !policy.inPak || policy.asleep || guard || policy.busy))
  | .open => ({ policy with lidClosed := false, asleep := false }, false)
  | .power => (policy, !(policy.menuOwns || guard || policy.busy))
  | .other => (policy, false)

/-- The bookkeeping of a wanted suspend. -/
def request (policy : LidPolicy) (event : LidEvent) : LidPolicy :=
  if event = .power then
    { policy with busy := true, powerRequests := policy.powerRequests + 1 }
  else
    { policy with busy := true, lidRequests := policy.lidRequests + 1 }

/-- `zlyme_lid_apply`: the second component is the request for one suspend. -/
def lidApply (policy : LidPolicy) (event : LidEvent) (guard : Bool) : LidPolicy × Bool :=
  let reacted := policy.react event guard
  if reacted.2 then (reacted.1.request event, true) else (reacted.1, false)

/-- `zlyme_lid_observe`: a switch sample, negative when it could not be read. -/
def lidObserve (policy : LidPolicy) (closed : Int) : LidPolicy :=
  if closed < 0 then policy
  else if closed = 0 then (policy.lidApply .open false).1
  else { policy with lidClosed := true }

/-- `zlyme_lid_suspend_done`: the result of the suspend is not looked at. -/
def lidSuspendDone (policy : LidPolicy) (_ok : Bool) : LidPolicy :=
  { policy with
    busy := false
    memRequests := policy.memRequests + 1
    asleep := policy.asleep || policy.lidClosed }

end LidPolicy

/-! ## Calls into the policy -/

/-- One call into the policy with its arguments. -/
inductive LidCall
  | apply (event : LidEvent) (guard : Bool)
  | observe (closed : Int)
  | suspendDone (ok : Bool)
  deriving DecidableEq, Repr

namespace LidCall

/-- Whether the call asks for a suspend. -/
def requests (policy : LidPolicy) : LidCall → Bool
  | .apply event guard => (policy.lidApply event guard).2
  | .observe _ => false
  | .suspendDone _ => false

/-- A request is counted as a power request or as a lid request. -/
def isPower : LidCall → Bool
  | .apply .power _ => true
  | _ => false

/-- A lid that opens, as an event or as a switch sample. -/
def opens : LidCall → Bool
  | .apply .open _ => true
  | .observe closed => closed = 0
  | _ => false

def endsSuspend : LidCall → Bool
  | .suspendDone _ => true
  | _ => false

def isMenu : LidCall → Bool
  | .apply .menu _ => true
  | _ => false

def isPak : LidCall → Bool
  | .apply .pak _ => true
  | _ => false

end LidCall

def step (policy : LidPolicy) : LidCall → LidPolicy
  | .apply event guard => (policy.lidApply event guard).1
  | .observe closed => policy.lidObserve closed
  | .suspendDone ok => policy.lidSuspendDone ok

/-- The lid-caused requests a run of calls issues. -/
def lidRequestsIn (policy : LidPolicy) : List LidCall → Nat
  | [] => 0
  | call :: rest =>
      (if call.requests policy && !call.isPower then 1 else 0) +
        lidRequestsIn (step policy call) rest

/-! ## What one call does -/

namespace LidPolicy

variable (policy : LidPolicy) (event : LidEvent) (guard : Bool)

theorem lidApply_snd : (policy.lidApply event guard).2 = (policy.react event guard).2 := by
  unfold lidApply
  cases wanted : (policy.react event guard).2 <;> simp [wanted]

variable {policy event guard}

theorem lidApply_of_wanted (wanted : (policy.react event guard).2 = true) :
    (policy.lidApply event guard).1 = (policy.react event guard).1.request event := by
  simp [lidApply, wanted]

theorem lidApply_of_unwanted (unwanted : (policy.react event guard).2 = false) :
    (policy.lidApply event guard).1 = (policy.react event guard).1 := by
  simp [lidApply, unwanted]

@[simp] theorem request_busy : (policy.request event).busy = true := by
  unfold request; split <;> rfl

@[simp] theorem request_menuOwns : (policy.request event).menuOwns = policy.menuOwns := by
  unfold request; split <;> rfl

@[simp] theorem request_menuSeen : (policy.request event).menuSeen = policy.menuSeen := by
  unfold request; split <;> rfl

@[simp] theorem request_inPak : (policy.request event).inPak = policy.inPak := by
  unfold request; split <;> rfl

@[simp] theorem request_lidClosed : (policy.request event).lidClosed = policy.lidClosed := by
  unfold request; split <;> rfl

@[simp] theorem request_asleep : (policy.request event).asleep = policy.asleep := by
  unfold request; split <;> rfl

/-- The flags that the requests of a call do not touch are those of its switch. -/
theorem lidApply_flags :
    (policy.lidApply event guard).1.menuOwns = (policy.react event guard).1.menuOwns ∧
    (policy.lidApply event guard).1.menuSeen = (policy.react event guard).1.menuSeen ∧
    (policy.lidApply event guard).1.inPak = (policy.react event guard).1.inPak ∧
    (policy.lidApply event guard).1.lidClosed = (policy.react event guard).1.lidClosed ∧
    (policy.lidApply event guard).1.asleep = (policy.react event guard).1.asleep := by
  cases wanted : (policy.react event guard).2 with
  | true => simp [lidApply_of_wanted wanted]
  | false => simp [lidApply_of_unwanted wanted]

/-- The switch itself never starts or ends a suspend. -/
theorem react_busy : (policy.react event guard).1.busy = policy.busy := by
  cases event <;> simp only [react]
  case pak => split <;> rfl

theorem react_lidClosed (notOpen : event ≠ .open) (closed : policy.lidClosed = true) :
    (policy.react event guard).1.lidClosed = true := by
  cases event <;> simp only [react] <;> first | exact closed | rfl | skip
  case pak => split <;> exact closed
  case «open» => exact absurd rfl notOpen

theorem react_asleep (notOpen : event ≠ .open) (asleep : policy.asleep = true) :
    (policy.react event guard).1.asleep = true := by
  cases event <;> simp only [react] <;> first | exact asleep | skip
  case pak => split <;> exact asleep
  case «open» => exact absurd rfl notOpen

theorem lidApply_busy :
    (policy.lidApply event guard).1.busy = (policy.busy || (policy.lidApply event guard).2) := by
  rw [lidApply_snd]
  cases wanted : (policy.react event guard).2 with
  | true => simp [lidApply_of_wanted wanted]
  | false => simp [lidApply_of_unwanted wanted, react_busy]

/-- What a wanted suspend says of the policy that wanted it. -/
theorem wanted_cases (wanted : (policy.react event guard).2 = true) :
    policy.busy = false ∧ guard = false ∧ event ≠ .menu ∧
      (policy.react event guard).1.menuOwns = false ∧
      (event ≠ .power → policy.asleep = false ∧ (policy.react event guard).1.asleep = false ∧
        (policy.react event guard).1.lidClosed = true ∧
        (policy.react event guard).1.inPak = true) := by
  cases event with
  | menu => simp [react] at wanted
  | pak =>
      simp only [react] at wanted ⊢
      split at wanted
      · simp at wanted
      · simp_all
  | close => simp_all [react]
  | «open» => simp [react] at wanted
  | power => simp_all [react]
  | other => simp [react] at wanted

end LidPolicy

end Zlyme.Keylidmon
