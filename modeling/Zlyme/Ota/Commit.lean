import Zlyme.Foundation.Bytes
import Zlyme.Foundation.Execution
import Zlyme.Foundation.Script

/-! # Committing a pending root

`commit_update` copies the pending root over `/zlyme` on the boot volume in place, and
`do_root` goes on to attach whatever is there. A copy may be cut anywhere.
-/

namespace Zlyme.Ota.Commit

open Foundation Foundation.Script

/-! ## The two files -/

/-- `/boot_root/zlyme` and `.update/pending/zlyme`. -/
structure World where
  root : Option Bytes
  pending : Option Bytes
  deriving DecidableEq, Repr

/-- What a copy that does not complete leaves: the file as it was, no file, or the
first bytes of the new one. -/
inductive Cut
  | untouched
  | removed
  | written (count : Nat)
  deriving DecidableEq, Repr

def Cut.leaves (left : Cut) (root : Option Bytes) (content : Bytes) : Option Bytes :=
  match left with
  | untouched => root
  | removed => none
  | written count => some (content.take count)

/-! ## The device -/

/-- What the initramfs asks the device. -/
inductive Question
  | storageMounted
  | logsWanted
  | bootOpens
  | bootCloses
  | bootReadOnly
  | rootMounts
  | loopReadOnly
  | mountsMove
  deriving DecidableEq, Repr

/-- How `cp -f` ends, with the `sync` after it. -/
inductive Copy
  | done
  | failed (left : Cut)
  | lost (left : Cut)
  deriving DecidableEq, Repr

/-- How the device behaves in one boot. -/
structure Device where
  answer : Question → Bool
  copy : Copy
  /-- Whether `rm -rf` leaves the pending root. -/
  sparesPending : Bool

/-- The mark for the cores, the script of the release, the archives, the boot log. -/
inductive OtherStep
  | markImage
  | postUpdate
  | removeTars
  | saveLog
  deriving DecidableEq, Repr

inductive Call
  | ask (question : Question)
  | inspect
  | copyRoot (content : Bytes)
  /-- The message `copy failed, keeping current zlyme`. -/
  | keepCurrent
  | removePending
  /-- A step that is about other files. -/
  | other (step : OtherStep)
  deriving DecidableEq, Repr

@[reducible] def Call.Result : Call → Type
  | .ask _ => Bool
  | .inspect => World
  | .copyRoot _ => Bool
  | _ => Unit

def machine (device : Device) : Script.Machine Call Call.Result Unit World :=
  fun call _ world =>
    match call with
    | .ask question => (some (device.answer question), world)
    | .inspect => (some world, world)
    | .copyRoot content =>
        match device.copy with
        | .done => (some true, { world with root := some content })
        | .failed left => (some false, { world with root := left.leaves world.root content })
        | .lost left => (none, { world with root := left.leaves world.root content })
    | .removePending =>
        (some (), if device.sparesPending then world else { world with pending := none })
    | .keepCurrent => (some (), world)
    | .other _ => (some (), world)

abbrev Program : Type → Type :=
  Script Call Call.Result

/-! ## The initramfs -/

namespace Program

def issue (call : Call) : Program call.Result := Script.issue call

def ask (question : Question) : Program Bool := issue (.ask question)
def inspect : Program World := issue .inspect
def copyRoot (content : Bytes) : Program Bool := issue (.copyRoot content)
def keepCurrent : Program Unit := issue .keepCurrent
def removePending : Program Unit := issue .removePending
def other (step : OtherStep) : Program Unit := issue (.other step)

def fail {α : Type} : Program α :=
  .exit 1

/-- Whether `commit_update` returns 0. -/
def commitUpdate : Program Bool := do
  match (← inspect).pending with
  | none => return true
  | some content =>
      if ← copyRoot content then
        other .markImage
        other .postUpdate
        removePending
        other .removeTars
        return true
      else
        keepCurrent
        return false

/-- `commit_update || log …`, when a root is pending. -/
def commitPending (pending : Bool) : Program Unit := do
  if pending then
    if !(← commitUpdate) then keepCurrent

/-- The boot log, and the end of the read-write window. -/
def closeBoot (logs : Bool) : Program Unit := do
  if logs then other .saveLog
  if !(← ask .bootCloses) then fail

/-- The read-write window on the boot volume. -/
def writeBoot : Program Unit := do
  let pending := (← ask .storageMounted) && (← inspect).pending.isSome
  let logs ← ask .logsWanted
  if pending || logs then
    if ← ask .bootOpens then
      commitPending pending
      closeBoot logs

/-- The root that `switch_root` enters. -/
def attachRoot : Program (Option Bytes) := do
  if !(← ask .bootReadOnly) then fail
  if (← inspect).root.isNone then fail
  if !(← ask .rootMounts) then fail
  if !(← ask .loopReadOnly) then fail
  if !(← ask .mountsMove) then fail
  return (← inspect).root

def doRoot : Program (Option Bytes) := do
  writeBoot
  attachRoot

end Program

/-! ## Runs of boots -/

/-- One boot, and after how many operations power is lost. -/
structure Boot where
  device : Device
  operations : Nat

def bootStep (world : World) (boot : Boot) : World :=
  (Program.doRoot.exec (machine boot.device) (List.replicate boot.operations ()) world).2

/-! ## What a boot must keep -/

section Safety

variable (old new : Bytes)

/-- A complete copy of the old root or of the new one. -/
def Whole (root : Option Bytes) : Prop :=
  root = some old ∨ root = some new

instance (root : Option Bytes) : Decidable (Whole old new root) :=
  inferInstanceAs (Decidable (_ ∨ _))

/-- Wherever power is lost: the root is the complete one from before wherever the
message says that it is kept, and a root that is attached is complete. -/
def BootSafe (device : Device) (start : World) : Prop :=
  ∀ operations : List Unit,
    (∀ entry ∈ Program.doRoot.issued (machine device) operations start,
      entry.1 = .keepCurrent → entry.2.root = start.root ∧ Whole old new start.root) ∧
    ∀ root after, Program.doRoot.exec (machine device) operations start = (.done root, after) →
      Whole old new root

/-- The pending root is found and the boot volume can be written. -/
def Device.TriesCopy (device : Device) (start : World) : Prop :=
  device.answer .storageMounted = true ∧ start.pending.isSome ∧ device.answer .bootOpens = true

/-- The device does not refuse to attach a root. -/
structure Device.Attaches (device : Device) (start : World) : Prop where
  closes : device.answer .logsWanted = true → device.answer .bootOpens = true →
    device.answer .bootCloses = true
  readOnly : device.answer .bootReadOnly = true
  present : start.root.isSome
  mounts : device.answer .rootMounts = true
  loop : device.answer .loopReadOnly = true
  moves : device.answer .mountsMove = true

/-- A copy that fails has left a complete root alone, and a boot that copies nothing
finds a complete root if it attaches one. -/
structure CutsHarmless (device : Device) (start : World) : Prop where
  failed : device.TriesCopy start → ∀ left content, device.copy = .failed left →
    start.pending = some content →
      left.leaves start.root content = start.root ∧ Whole old new start.root
  attached : ¬device.TriesCopy start → device.Attaches start → Whole old new start.root

end Safety

/-! ## The rules of the operations -/

/-- The contract that `BootSafe` states. -/
def contract (old new : Bytes) (start : World) : Contract Call World where
  rely _ _ := True
  guard call world := call = .keepCurrent → world.root = start.root ∧ Whole old new start.root
  stop _ := True
  exit _ _ := True

section Rules

variable {old new : Bytes} {device : Device} {start world : World}

theorem bootSafe_iff_ensures :
    BootSafe old new device start ↔
      Program.doRoot.Ensures (machine device) (contract old new start)
        (fun root _ => Whole old new root) start := by
  rw [ensures_iff_exec fun _ _ => trivial]
  refine forall_congr' fun operations => and_congr Iff.rfl ?_
  rcases Program.doRoot.exec (machine device) operations start with ⟨_ | _ | _, after⟩ <;>
    simp [Outcome.Meets, contract]

@[simp] theorem ensures_ask {question : Question} {post : Bool → World → Prop} :
    (Program.ask question).Ensures (machine device) (contract old new start) post world ↔
      post (device.answer question) world := by
  simp [Program.ask, Program.issue, Script.issue, Ensures, contract, machine]

@[simp] theorem ensures_inspect {post : World → World → Prop} :
    Program.inspect.Ensures (machine device) (contract old new start) post world ↔
      post world world := by
  simp [Program.inspect, Program.issue, Script.issue, Ensures, contract, machine]

@[simp] theorem ensures_copyRoot {content : Bytes} {post : Bool → World → Prop} :
    (Program.copyRoot content).Ensures (machine device) (contract old new start) post world ↔
      match device.copy with
      | .done => post true { world with root := some content }
      | .failed left => post false { world with root := left.leaves world.root content }
      | .lost _ => True := by
  rcases outcome : device.copy with _ | left | left <;>
    simp [Program.copyRoot, Program.issue, Script.issue, Ensures, contract, machine, outcome]

@[simp] theorem ensures_keepCurrent {post : Unit → World → Prop} :
    Program.keepCurrent.Ensures (machine device) (contract old new start) post world ↔
      (world.root = start.root ∧ Whole old new start.root) ∧ post () world := by
  simp [Program.keepCurrent, Program.issue, Script.issue, Ensures, contract, machine]

@[simp] theorem ensures_removePending {post : Unit → World → Prop} :
    Program.removePending.Ensures (machine device) (contract old new start) post world ↔
      post () (if device.sparesPending then world else { world with pending := none }) := by
  simp [Program.removePending, Program.issue, Script.issue, Ensures, contract, machine]

@[simp] theorem ensures_other {step : OtherStep} {post : Unit → World → Prop} :
    (Program.other step).Ensures (machine device) (contract old new start) post world ↔
      post () world := by
  simp [Program.other, Program.issue, Script.issue, Ensures, contract, machine]

@[simp] theorem ensures_pure {α : Type} {value : α} {post : α → World → Prop} :
    (pure value : Program α).Ensures (machine device) (contract old new start) post world ↔
      post value world :=
  Iff.rfl

@[simp] theorem ensures_fail {α : Type} {post : α → World → Prop} :
    (Program.fail : Program α).Ensures (machine device) (contract old new start) post world :=
  trivial

theorem ensures_commitUpdate {content : Bytes} {post : Bool → World → Prop}
    (isPending : world.pending = some content) :
    Program.commitUpdate.Ensures (machine device) (contract old new start) post world ↔
      match device.copy with
      | .done => post true ⟨some content, if device.sparesPending then some content else none⟩
      | .failed left =>
          (left.leaves world.root content = start.root ∧ Whole old new start.root) ∧
            post false { world with root := left.leaves world.root content }
      | .lost _ => True := by
  rcases outcome : device.copy with _ | left | left
  · cases spares : device.sparesPending <;>
      simp [Program.commitUpdate, ensures_bind, isPending, outcome, spares]
  · simp [Program.commitUpdate, ensures_bind, isPending, outcome]
  · simp [Program.commitUpdate, ensures_bind, isPending, outcome]

theorem ensures_attachRoot {post : Option Bytes → World → Prop} :
    Program.attachRoot.Ensures (machine device) (contract old new start) post world ↔
      (device.answer .bootReadOnly = true → world.root.isSome → device.answer .rootMounts = true →
        device.answer .loopReadOnly = true → device.answer .mountsMove = true →
          post world.root world) := by
  cases readOnly : device.answer .bootReadOnly <;> cases root : world.root <;>
    cases mounts : device.answer .rootMounts <;> cases loop : device.answer .loopReadOnly <;>
    cases moves : device.answer .mountsMove <;>
    simp [Program.attachRoot, ensures_bind, readOnly, root, mounts, loop, moves]

@[simp] theorem ensures_closeBoot {logs : Bool} {post : Unit → World → Prop} :
    (Program.closeBoot logs).Ensures (machine device) (contract old new start) post world ↔
      (device.answer .bootCloses = true → post () world) := by
  cases closes : device.answer .bootCloses <;> cases logs <;>
    simp [Program.closeBoot, ensures_bind, closes]

theorem ensures_commitPending {content : Bytes} {post : Unit → World → Prop}
    (isPending : world.pending = some content) :
    (Program.commitPending true).Ensures (machine device) (contract old new start) post world ↔
      match device.copy with
      | .done => post () ⟨some content, if device.sparesPending then some content else none⟩
      | .failed left =>
          (left.leaves world.root content = start.root ∧ Whole old new start.root) ∧
            post () { world with root := left.leaves world.root content }
      | .lost _ => True := by
  rcases outcome : device.copy with _ | left | left
  · simp [Program.commitPending, ensures_bind, ensures_commitUpdate isPending, outcome]
  · simp +contextual [Program.commitPending, ensures_bind, ensures_commitUpdate isPending, outcome]
  · simp [Program.commitPending, ensures_bind, ensures_commitUpdate isPending, outcome]

theorem ensures_writeBoot_copy {content : Bytes} {post : Unit → World → Prop}
    (tries : device.TriesCopy world) (isPending : world.pending = some content) :
    Program.writeBoot.Ensures (machine device) (contract old new start) post world ↔
      match device.copy with
      | .done => device.answer .bootCloses = true →
          post () ⟨some content, if device.sparesPending then some content else none⟩
      | .failed left =>
          (left.leaves world.root content = start.root ∧ Whole old new start.root) ∧
            (device.answer .bootCloses = true →
              post () { world with root := left.leaves world.root content })
      | .lost _ => True := by
  rcases tries with ⟨mounted, _, opens⟩
  simp only [Program.writeBoot, ensures_bind, ensures_ask, ensures_inspect, mounted, isPending,
    opens, Option.isSome_some, Bool.and_self, Bool.true_or, if_true,
    ensures_commitPending isPending, ensures_closeBoot]

theorem ensures_writeBoot_skip {post : Unit → World → Prop} (skips : ¬device.TriesCopy world) :
    Program.writeBoot.Ensures (machine device) (contract old new start) post world ↔
      ((device.answer .logsWanted = true → device.answer .bootOpens = true →
        device.answer .bootCloses = true) → post () world) := by
  simp only [Program.writeBoot, ensures_bind, ensures_ask, ensures_inspect]
  cases opens : device.answer .bootOpens with
  | false =>
      cases (device.answer .storageMounted && world.pending.isSome) ||
          device.answer .logsWanted with
      | false => simp only [Bool.false_eq_true, if_false, ensures_pure, false_implies, implies_true,
          true_implies]
      | true => simp only [if_true, ensures_bind, ensures_ask, opens, Bool.false_eq_true, if_false,
          ensures_pure, false_implies, implies_true, true_implies]
  | true =>
      have nothing : (device.answer .storageMounted && world.pending.isSome) = false := by
        rw [Bool.and_eq_false_iff]
        by_contra both
        simp only [not_or, Bool.not_eq_false] at both
        exact skips ⟨both.1, both.2, opens⟩
      rw [nothing]
      cases logs : device.answer .logsWanted with
      | false => simp only [Bool.or_self, Bool.false_eq_true, if_false, ensures_pure, false_implies,
          true_implies]
      | true => simp only [Bool.or_true, if_true, ensures_bind, ensures_ask, opens,
          Program.commitPending, Bool.false_eq_true, if_false, ensures_pure, ensures_closeBoot,
          true_implies]

end Rules

/-! ## When a boot is safe -/

theorem bootSafe_iff {old new : Bytes} {device : Device} {start : World}
    (isPending : start.pending = none ∨ start.pending = some new) :
    BootSafe old new device start ↔ CutsHarmless old new device start := by
  rw [bootSafe_iff_ensures, Program.doRoot, ensures_bind]
  by_cases tries : device.TriesCopy start
  · rcases isPending with empty | isNew
    · rcases tries with ⟨_, present, _⟩
      simp [empty] at present
    · rw [ensures_writeBoot_copy tries isNew]
      constructor
      · intro safe
        refine ⟨fun _ left content failed isContent => ?_, fun skips => absurd tries skips⟩
        cases isNew.symm.trans isContent
        rw [failed] at safe
        exact safe.1
      · intro harmless
        rcases outcome : device.copy with _ | left | left
        · intro _
          rw [ensures_attachRoot]
          exact fun _ _ _ _ _ => .inr rfl
        · have kept := harmless.failed tries left new outcome isNew
          refine ⟨kept, fun _ => ?_⟩
          rw [ensures_attachRoot]
          exact fun _ _ _ _ _ => (congrArg (Whole old new) kept.1).mpr kept.2
        · trivial
  · rw [ensures_writeBoot_skip tries]
    simp only [ensures_attachRoot]
    constructor
    · intro safe
      refine ⟨fun copies => absurd copies tries, fun _ attaches => ?_⟩
      exact safe attaches.closes attaches.readOnly attaches.present attaches.mounts attaches.loop
        attaches.moves
    · intro harmless closes readOnly present mounts loop moves
      exact harmless.attached tries ⟨closes, readOnly, present, mounts, loop, moves⟩

/-! ## Runs -/

/-- Nothing is pending but the new root. -/
def PendingNew (new : Bytes) (world : World) : Prop :=
  world.pending = none ∨ world.pending = some new

theorem PendingNew.step {new : Bytes} {device : Device} {call : Call} {choice : Unit}
    {world : World} (isPending : PendingNew new world) :
    PendingNew new (machine device call choice world).2 := by
  cases call with
  | copyRoot content =>
      rw [machine]
      split <;> exact isPending
  | removePending =>
      rw [machine]
      dsimp only
      split
      · exact isPending
      · exact .inl rfl
  | _ => exact isPending

theorem PendingNew.bootStep {new : Bytes} {world : World} (isPending : PendingNew new world)
    (boot : Boot) : PendingNew new (bootStep world boot) := by
  rw [Commit.bootStep]
  refine exec_invariant (PendingNew new) ?_ isPending
  exact fun _ _ _ holds => holds.step

/-- A run of boots is safe exactly when every cut in it is harmless where it is made. -/
theorem boots_safe_iff (old new : Bytes) (boots : List Boot) :
    Execution.Along bootStep (fun world boot => BootSafe old new boot.device world)
        ⟨some old, some new⟩ boots ↔
      Execution.Along bootStep (fun world boot => CutsHarmless old new boot.device world)
        ⟨some old, some new⟩ boots := by
  have start : PendingNew new ⟨some old, some new⟩ := .inr rfl
  have kept := fun world boot (isPending : PendingNew new world) => isPending.bootStep boot
  constructor
  · intro safe
    exact safe.of_invariant (PendingNew new) (fun world boot holds _ => kept world boot holds)
      (fun _ _ holds safe => (bootSafe_iff holds).mp safe) start
  · intro harmless
    exact harmless.of_invariant (PendingNew new) (fun world boot holds _ => kept world boot holds)
      (fun _ _ holds harmless => (bootSafe_iff holds).mpr harmless) start

/-! ### A failed copy -/

/-- Every question is answered with yes. -/
def smoothDevice (copy : Copy) : Device where
  answer _ := true
  copy := copy
  sparesPending := false

def oldRoot : Bytes := [1, 2, 3]
def newRoot : Bytes := [4, 5]

/-- The copy fails after its first byte. -/
def failedDevice : Device :=
  smoothDevice (.failed (.written 1))

/-- The message says that the current root is kept, and the first byte of the new root
is attached. -/
theorem failedCopy_unsafe :
    (Call.keepCurrent, ⟨some [4], some newRoot⟩) ∈ Program.doRoot.issued (machine failedDevice)
        (List.replicate 20 ()) ⟨some oldRoot, some newRoot⟩ ∧
      Program.doRoot.exec (machine failedDevice) (List.replicate 20 ())
        ⟨some oldRoot, some newRoot⟩ = (.done (some [4]), ⟨some [4], some newRoot⟩) ∧
      ¬Execution.Along bootStep (fun world boot => BootSafe oldRoot newRoot boot.device world)
        ⟨some oldRoot, some newRoot⟩ [⟨failedDevice, 20⟩] := by
  have attached : Program.doRoot.exec (machine failedDevice) (List.replicate 20 ())
      ⟨some oldRoot, some newRoot⟩ = (.done (some [4]), ⟨some [4], some newRoot⟩) := rfl
  refine ⟨by decide, attached, fun safe => ?_⟩
  exact absurd ((safe.1 _).2 _ _ attached) (by decide)

end Zlyme.Ota.Commit
