import Zlyme.Foundation.Interleaving

/-! # Write transactions on the boot volume

One invocation of `zlyme-boot-write` is one transaction: under the lock it makes the
volume writable, runs a command and makes the volume read-only again. What it cannot
make read-only it marks, and a marked volume takes no more commands.
-/

namespace Zlyme.Boot.BootWrite

open Foundation Foundation.Execution Foundation.Threads

/-! ## The mounts -/

structure MountLine where
  device : String
  point : String
  options : String
  deriving DecidableEq

def MountLine.isRo (line : MountLine) : Bool :=
  line.options == "ro" || "ro,".toList.isPrefixOf line.options.toList

/-- What an invocation takes from its environment. -/
structure Settings where
  /-- `BOOT` -/
  boot : String
  /-- `ZLYME_BOOT_DEVICE`, empty when it is not set. -/
  device : String
  /-- `readlink -f` of what is there, and the name itself of what is not. -/
  resolve : String → String

namespace Settings

variable (settings : Settings)

def onBoot (line : MountLine) : Bool :=
  line.point == settings.boot

def mountDev (mounts : List MountLine) : Option String :=
  (mounts.find? settings.onBoot).map MountLine.device

def sameDev (a b : String) : Bool :=
  a ≠ "" && b ≠ "" && (a == b || settings.resolve a == settings.resolve b)

/-- `is_ro` reads the first line of the boot volume. -/
def isRo (mounts : List MountLine) : Bool :=
  match mounts.find? settings.onBoot with
  | some line => line.isRo
  | none => false

/-- The checks between the poison marker and `is_ro`. -/
def identifies (mounts : List MountLine) : Bool :=
  settings.device ≠ "" &&
    match settings.mountDev mounts with
    | some src => src ≠ "" && settings.sameDev src settings.device
    | none => false

/-- A remount is for what was mounted last. -/
def remount (options : String) : List MountLine → List MountLine
  | [] => []
  | line :: rest =>
      if settings.onBoot line && !rest.any settings.onBoot then
        { line with options := options } :: rest
      else line :: remount options rest

/-- The volume that is visible at the boot directory. -/
def visible (mounts : List MountLine) : Option MountLine :=
  (mounts.filter settings.onBoot).getLast?

end Settings

/-! ## One invocation -/

inductive Signal
  | hup
  | int
  | term
  deriving DecidableEq

def Signal.number : Signal → Nat
  | .hup => 1
  | .int => 2
  | .term => 15

/-- The next operation of an invocation. -/
inductive Phase
  | idle
  /-- `mounted` -/
  | looking
  /-- `acquire_lock` -/
  | locking
  /-- `[ -e "$POISON" ]` -/
  | checking
  | identifying
  /-- `is_ro`, before anything is remounted. -/
  | testing
  /-- `mount -o remount,ro`, after the command if there is a status of it. -/
  | restoring (status : Option Nat)
  /-- `is_ro` of `restore_ro` -/
  | verifying (status : Option Nat)
  | trapping
  /-- `mount -o remount,rw` -/
  | opening
  /-- `is_ro` after a remount that has failed. -/
  | testingOpen
  /-- The command runs. -/
  | running
  | syncing (status : Nat)
  /-- `mark_poison`, with the signals ignored or not. -/
  | poisoning (trapped : Bool)
  | ended (status : Nat)
  deriving DecidableEq

structure Invocation where
  phase : Phase
  /-- It has passed the identity check. -/
  identified : Bool
  /-- Its remount to read-write has succeeded. -/
  opened : Bool
  /-- What its command has ended with. -/
  command : Option Nat
  deriving DecidableEq

structure Shared where
  mounts : List MountLine
  /-- The lock on `LOCK`. -/
  locked : Bool
  /-- `POISON` is there. -/
  poison : Bool
  deriving DecidableEq

inductive Choice
  | call (command : List String)
  | proceed
  /-- The lock cannot be opened, or the wait for it is over. -/
  | giveUp
  /-- How a remount ends: its status, and the options of the volume after it. -/
  | remounted (succeeds : Bool) (options : String)
  | commandEnds (status : Nat)
  | signal (signal : Signal)
  deriving DecidableEq

def Phase.HoldsLock : Phase → Prop
  | .idle | .looking | .locking | .ended _ => False
  | _ => True

/-- `trap '' INT TERM HUP` -/
def Phase.trapped : Phase → Bool
  | .opening | .testingOpen | .running | .syncing _ => true
  | .restoring status | .verifying status => status.isSome
  | .poisoning trapped => trapped
  | _ => false

instance : DecidablePred Phase.HoldsLock
  | .idle | .looking | .locking | .ended _ => isFalse not_false
  | .checking | .identifying | .testing | .restoring _ | .verifying _ => isTrue trivial
  | .trapping | .opening | .testingOpen | .running | .syncing _ | .poisoning _ => isTrue trivial

/-- The kernel drops the lock of a process that ends. -/
def Invocation.finish (invocation : Invocation) (status : Nat) (shared : Shared) :
    Invocation × Shared :=
  ({ invocation with phase := .ended status },
    if invocation.phase.HoldsLock then { shared with locked := false } else shared)

@[simp] theorem Invocation.finish_mounts (invocation : Invocation) (status : Nat)
    (shared : Shared) : (invocation.finish status shared).2.mounts = shared.mounts := by
  rw [finish]
  split <;> rfl

@[simp] theorem Invocation.finish_poison (invocation : Invocation) (status : Nat)
    (shared : Shared) : (invocation.finish status shared).2.poison = shared.poison := by
  rw [finish]
  split <;> rfl

def Invocation.goTo (invocation : Invocation) (phase : Phase) : Invocation :=
  { invocation with phase := phase }

def act (settings : Settings) : Act Invocation Choice Shared := fun invocation choice shared =>
  match invocation.phase, choice with
  | .idle, .call command =>
      if command = [] then some (invocation.finish 2 shared)
      else some (invocation.goTo .looking, shared)
  | .idle, _ => none
  | .ended _, _ => none
  | phase, .signal signal =>
      if phase.trapped then none else some (invocation.finish (128 + signal.number) shared)
  | .looking, .proceed =>
      if shared.mounts.any settings.onBoot then some (invocation.goTo .locking, shared)
      else some (invocation.finish 1 shared)
  | .locking, .giveUp => some (invocation.finish 1 shared)
  | .locking, .proceed =>
      if shared.locked then none
      else some (invocation.goTo .checking, { shared with locked := true })
  | .checking, .proceed =>
      if shared.poison then some (invocation.finish 1 shared)
      else some (invocation.goTo .identifying, shared)
  | .identifying, .proceed =>
      if settings.identifies shared.mounts then
        some ({ invocation with phase := .testing, identified := true }, shared)
      else some (invocation.finish 1 shared)
  | .testing, .proceed =>
      if settings.isRo shared.mounts then some (invocation.goTo .trapping, shared)
      else some (invocation.goTo (.restoring none), shared)
  -- The status of this remount is not looked at.
  | .restoring status, .remounted _ options =>
      some (invocation.goTo (.verifying status),
        { shared with mounts := settings.remount options shared.mounts })
  | .verifying none, .proceed =>
      if settings.isRo shared.mounts then some (invocation.goTo .trapping, shared)
      else some (invocation.goTo (.poisoning false), shared)
  | .verifying (some status), .proceed =>
      if settings.isRo shared.mounts then some (invocation.finish status shared)
      else some (invocation.goTo (.poisoning true), shared)
  | .trapping, .proceed => some (invocation.goTo .opening, shared)
  | .opening, .remounted true options =>
      some ({ invocation with phase := .running, opened := true },
        { shared with mounts := settings.remount options shared.mounts })
  | .opening, .remounted false options =>
      some (invocation.goTo .testingOpen,
        { shared with mounts := settings.remount options shared.mounts })
  | .testingOpen, .proceed =>
      if settings.isRo shared.mounts then some (invocation.finish 1 shared)
      else some (invocation.goTo (.poisoning true), shared)
  | .running, .commandEnds status =>
      some ({ invocation with phase := .syncing status, command := some status }, shared)
  | .syncing status, .proceed => some (invocation.goTo (.restoring (some status)), shared)
  | .poisoning _, .proceed => some (invocation.finish 1 { shared with poison := true })
  | _, _ => none

abbrev System (Id : Type) : Type :=
  Threads Id Invocation Shared

/-- Nobody has called yet. -/
def System.start (Id : Type) (mounts : List MountLine) (poison : Bool) : System Id where
  locals _ := ⟨.idle, false, false, none⟩
  shared := ⟨mounts, false, poison⟩

/-! ## What a transaction promises -/

/-- The volume that is visible is the boot device, so far as an invocation can tell. -/
def Settings.Identified (settings : Settings) (mounts : List MountLine) : Prop :=
  ∃ line, settings.visible mounts = some line ∧ settings.sameDev line.device settings.device

abbrev Settings.ReadOnly (settings : Settings) (mounts : List MountLine) : Prop :=
  (settings.visible mounts).any MountLine.isRo = true

/-- While a command runs, its invocation has the lock and has made the boot volume
writable. -/
def Guarded {Id : Type} (settings : Settings) (system : System Id) : Prop :=
  ∀ who, (system.locals who).phase = .running →
    system.shared.locked = true ∧ system.shared.poison = false ∧
      (∀ other, (system.locals other).phase.HoldsLock → other = who) ∧
      settings.Identified system.shared.mounts ∧ (system.locals who).opened = true

/-- An invocation that has ended leaves the volume read-only or marked, and with status 0
its command has succeeded. -/
def Invocation.Closed (settings : Settings) (shared : Shared) (invocation : Invocation) : Prop :=
  ∀ status, invocation.phase = .ended status →
    (invocation.identified = true → settings.ReadOnly shared.mounts ∨ shared.poison = true) ∧
      (status = 0 → invocation.command = some 0 ∧ settings.ReadOnly shared.mounts)

def Phase.Ended : Phase → Prop
  | .ended _ => True
  | _ => False

instance : DecidablePred Phase.Ended
  | .ended _ => isTrue trivial
  | .idle | .looking | .locking | .checking | .identifying | .testing => isFalse not_false
  | .restoring _ | .verifying _ | .trapping | .opening | .testingOpen => isFalse not_false
  | .running | .syncing _ | .poisoning _ => isFalse not_false

def Choice.IsSignal : Choice → Prop
  | .signal _ => True
  | _ => False

instance : DecidablePred Choice.IsSignal
  | .signal _ => isTrue trivial
  | .call _ | .proceed | .giveUp | .remounted _ _ | .commandEnds _ => isFalse not_false

/-- This step does not end an invocation, or leaves it closed. -/
def Closes {Id : Type} [DecidableEq Id] (settings : Settings) (system : System Id)
    (label : Id × Choice) : Prop :=
  let after := system.step (act settings) label
  ¬(system.locals label.1).phase.Ended →
    (after.locals label.1).Closed settings after.shared

/-- A signal that is not ignored finds an invocation before the identity check, or the
volume read-only. -/
def Calm {Id : Type} (settings : Settings) (system : System Id) (label : Id × Choice) : Prop :=
  label.2.IsSignal → (system.locals label.1).identified = true →
    (system.locals label.1).phase.trapped = false → ¬(system.locals label.1).phase.Ended →
      settings.ReadOnly system.shared.mounts

instance {Id : Type} (settings : Settings) (system : System Id) (label : Id × Choice) :
    Decidable (Calm settings system label) :=
  inferInstanceAs (Decidable (label.2.IsSignal → (system.locals label.1).identified = true →
    (system.locals label.1).phase.trapped = false → ¬(system.locals label.1).phase.Ended →
      settings.ReadOnly system.shared.mounts))

/-! ## Mounts -/

namespace Settings

variable {settings : Settings} {mounts : List MountLine}

theorem devices_remount (settings : Settings) (options : String) (mounts : List MountLine) :
    ((settings.remount options mounts).filter settings.onBoot).map MountLine.device =
      (mounts.filter settings.onBoot).map MountLine.device := by
  induction mounts with
  | nil => rfl
  | cons line rest induction =>
      rw [remount]
      split
      · have same : settings.onBoot { line with options := options } = settings.onBoot line := rfl
        rw [List.filter_cons, List.filter_cons, same]
        split <;> rfl
      · rw [List.filter_cons, List.filter_cons]
        split
        · rw [List.map_cons, List.map_cons, induction]
        · exact induction

/-- There is no more than one volume at the boot directory. -/
def Unique (settings : Settings) (mounts : List MountLine) : Prop :=
  (mounts.filter settings.onBoot).length ≤ 1

theorem Unique.remount (unique : settings.Unique mounts) (options : String) :
    settings.Unique (settings.remount options mounts) := by
  have same := congrArg List.length (settings.devices_remount options mounts)
  rw [List.length_map, List.length_map] at same
  rw [Unique, same]
  exact unique

theorem Identified.remount (identified : settings.Identified mounts) (options : String) :
    settings.Identified (settings.remount options mounts) := by
  rcases identified with ⟨line, isVisible, same⟩
  have devices := congrArg List.getLast? (settings.devices_remount options mounts)
  rw [List.getLast?_map, List.getLast?_map] at devices
  rw [visible] at isVisible
  rw [isVisible] at devices
  rcases Option.map_eq_some_iff.mp devices with ⟨line', isVisible', device⟩
  exact ⟨line', isVisible', device ▸ same⟩

/-- The line that the code reads is that of the visible volume. -/
theorem Unique.find (unique : settings.Unique mounts) :
    mounts.find? settings.onBoot = settings.visible mounts := by
  rw [← List.head?_filter, visible]
  rw [Unique] at unique
  match lines : mounts.filter settings.onBoot, unique with
  | [], _ => rfl
  | [line], _ => rfl

theorem Unique.readOnly_iff (unique : settings.Unique mounts) :
    settings.ReadOnly mounts ↔ settings.isRo mounts = true := by
  rw [isRo, unique.find, ReadOnly]
  cases settings.visible mounts <;> exact Iff.rfl

theorem Unique.identified (unique : settings.Unique mounts)
    (identifies : settings.identifies mounts = true) : settings.Identified mounts := by
  simp only [Settings.identifies, mountDev, unique.find, Bool.and_eq_true] at identifies
  cases isVisible : settings.visible mounts with
  | none => simp [isVisible] at identifies
  | some line =>
      simp only [isVisible, Option.map_some, Bool.and_eq_true] at identifies
      exact ⟨line, isVisible, identifies.2.2⟩

end Settings

/-! ## Moves -/

section Moves

variable {settings : Settings} {invocation next : Invocation} {choice : Choice}
  {before shared : Shared}

/-- Only the one that has the lock touches the volume and the marker. -/
theorem untouched (free : ¬invocation.phase.HoldsLock)
    (moves : act settings invocation choice before = some (next, shared)) :
    shared.mounts = before.mounts ∧ shared.poison = before.poison := by
  rcases invocation with ⟨phase, identified, opened, command⟩
  cases phase with
  | idle =>
      cases choice with
      | call => simp only [act] at moves; split at moves <;> cases moves <;> exact ⟨rfl, rfl⟩
      | _ => cases moves
  | looking =>
      cases choice with
      | proceed => simp only [act] at moves; split at moves <;> cases moves <;> exact ⟨rfl, rfl⟩
      | signal => cases moves; exact ⟨rfl, rfl⟩
      | _ => cases moves
  | locking =>
      cases choice with
      | proceed => simp only [act] at moves; split at moves <;> cases moves; exact ⟨rfl, rfl⟩
      | giveUp | signal => cases moves; exact ⟨rfl, rfl⟩
      | _ => cases moves
  | ended => cases choice <;> cases moves
  | _ => exact absurd trivial free

/-- An invocation takes the lock, or ends and drops it, or goes on with or without it. -/
theorem lock_handoff (moves : act settings invocation choice before = some (next, shared)) :
    Handoff (fun invocation : Invocation => invocation.phase.HoldsLock) invocation next
      (before.locked = true) (shared.locked = true) := by
  have finish : ∀ (invocation : Invocation) (status : Nat) (before' : Shared),
      before'.locked = before.locked →
      Handoff (fun invocation : Invocation => invocation.phase.HoldsLock) invocation
        (invocation.finish status before').1 (before.locked = true)
        ((invocation.finish status before').2.locked = true) := by
    intro invocation status before' same
    rw [Invocation.finish]
    split
    · rename_i holds
      exact .release holds not_false Bool.false_ne_true
    · rename_i free
      exact .keep (iff_of_false not_false free) (by rw [same])
  rcases invocation with ⟨phase, identified, opened, command⟩
  cases phase with
  | idle =>
      cases choice with
      | call =>
          simp only [act] at moves
          split at moves <;> cases moves
          · exact finish _ _ _ rfl
          · exact .keep Iff.rfl Iff.rfl
      | _ => cases moves
  | locking =>
      cases choice with
      | proceed =>
          simp only [act] at moves
          split at moves <;> cases moves
          rename_i free
          exact .acquire free trivial rfl
      | giveUp | signal => cases moves; exact finish _ _ _ rfl
      | _ => cases moves
  | restoring status =>
      cases choice with
      | remounted => cases moves; exact .keep Iff.rfl Iff.rfl
      | signal =>
          simp only [act] at moves
          split at moves <;> cases moves
          exact finish _ _ _ rfl
      | _ => cases moves
  | verifying status =>
      cases choice with
      | proceed =>
          cases status <;> simp only [act] at moves <;> split at moves <;> cases moves
          · exact .keep Iff.rfl Iff.rfl
          · exact .keep Iff.rfl Iff.rfl
          · exact finish _ _ _ rfl
          · exact .keep Iff.rfl Iff.rfl
      | signal =>
          simp only [act] at moves
          split at moves <;> cases moves
          exact finish _ _ _ rfl
      | _ => cases status <;> cases moves
  | opening =>
      cases choice with
      | remounted succeeds => cases succeeds <;> cases moves <;> exact .keep Iff.rfl Iff.rfl
      | _ => cases moves
  | running =>
      cases choice with
      | commandEnds => cases moves; exact .keep Iff.rfl Iff.rfl
      | _ => cases moves
  | syncing status =>
      cases choice with
      | proceed => cases moves; exact .keep Iff.rfl Iff.rfl
      | _ => cases moves
  | poisoning trapped =>
      cases choice with
      | proceed => cases moves; exact finish _ _ _ rfl
      | signal =>
          simp only [act] at moves
          split at moves <;> cases moves
          exact finish _ _ _ rfl
      | _ => cases moves
  | looking | checking | identifying | testing | testingOpen =>
      cases choice with
      | proceed =>
          simp only [act] at moves
          split at moves <;> cases moves <;>
            first | exact finish _ _ _ rfl | exact .keep Iff.rfl Iff.rfl
      | signal => cases moves <;> exact finish _ _ _ rfl
      | _ => cases moves
  | trapping =>
      cases choice with
      | proceed => cases moves; exact .keep Iff.rfl Iff.rfl
      | signal => cases moves; exact finish _ _ _ rfl
      | _ => cases moves
  | ended => cases choice <;> cases moves

/-- The volume changes by a remount only, and the marker stays. -/
theorem volume_move (moves : act settings invocation choice before = some (next, shared)) :
    (shared.mounts = before.mounts ∨
      ∃ options, shared.mounts = settings.remount options before.mounts) ∧
      (before.poison = true → shared.poison = true) := by
  have ends : ∀ (status : Nat) (before' : Shared), before'.mounts = before.mounts →
      (before.poison = true → before'.poison = true) →
      ((invocation.finish status before').2.mounts = before.mounts ∨
        ∃ options, (invocation.finish status before').2.mounts =
          settings.remount options before.mounts) ∧
        (before.poison = true → (invocation.finish status before').2.poison = true) := by
    intro status before' mounts poison
    rw [Invocation.finish_mounts, Invocation.finish_poison]
    exact ⟨.inl mounts, poison⟩
  unfold act at moves
  split at moves
  all_goals try split at moves
  all_goals cases moves
  all_goals
    first
    | exact ⟨.inl rfl, id⟩
    | exact ⟨.inr ⟨_, rfl⟩, id⟩
    | exact ends 1 before rfl id
    | exact ends 1 { before with poison := true } rfl fun _ => rfl

/-- It has passed the identity check, and the volume was not marked. -/
structure Invocation.Past (settings : Settings) (mounts : List MountLine) (poison : Bool)
    (invocation : Invocation) : Prop where
  identified : invocation.identified = true
  volume : settings.Identified mounts
  unmarked : poison = false

/-- What is known of an invocation at each of its operations. -/
def Invocation.Sound (settings : Settings) (shared : Shared) (invocation : Invocation) : Prop :=
  match invocation.phase with
  | .idle | .looking | .locking | .checking => invocation.identified = false
  | .identifying => invocation.identified = false ∧ shared.poison = false
  | .trapping => invocation.Past settings shared.mounts shared.poison ∧ settings.ReadOnly shared.mounts
  | .restoring (some status) | .verifying (some status) | .syncing status =>
      invocation.Past settings shared.mounts shared.poison ∧ invocation.command = some status
  | .running => invocation.Past settings shared.mounts shared.poison ∧ invocation.opened = true
  | .ended _ => True
  | _ => invocation.Past settings shared.mounts shared.poison

theorem Invocation.Past.remount (past : invocation.Past settings before.mounts before.poison)
    (options : String) (phase : Phase) (opened : Bool) :
    Invocation.Past settings (settings.remount options before.mounts) before.poison
      { invocation with phase := phase, opened := opened } :=
  ⟨past.identified, past.volume.remount options, past.unmarked⟩

theorem Invocation.Past.goTo (past : invocation.Past settings before.mounts before.poison)
    (phase : Phase) : (invocation.goTo phase).Past settings before.mounts before.poison :=
  ⟨past.identified, past.volume, past.unmarked⟩

theorem Invocation.Closed.finish {status : Nat}
    (leaves : invocation.identified = true →
      settings.ReadOnly before.mounts ∨ before.poison = true)
    (succeeds : status = 0 → invocation.command = some 0 ∧ settings.ReadOnly before.mounts) :
    (invocation.finish status before).1.Closed settings (invocation.finish status before).2 := by
  rintro status' ⟨⟩
  rw [Invocation.finish_mounts, Invocation.finish_poison]
  exact ⟨leaves, succeeds⟩

theorem Invocation.Closed.early {status : Nat} (early : invocation.identified = false)
    (fails : status ≠ 0) :
    (invocation.finish status before).1.Closed settings (invocation.finish status before).2 :=
  .finish (fun identified => by cases early.symm.trans identified)
    (fun succeeds => absurd succeeds fails)

theorem eq_finish_of_signal {signal : Signal}
    (moves : act settings invocation (.signal signal) before = some (next, shared)) :
    invocation.phase.trapped = false ∧ ¬invocation.phase.Ended ∧
      (next, shared) = invocation.finish (128 + signal.number) before := by
  rcases invocation with ⟨phase, identified, opened, command⟩
  cases phase with
  | restoring status | verifying status =>
      cases status with
      | none => cases moves; exact ⟨rfl, not_false, rfl⟩
      | some => cases moves
  | poisoning trapped =>
      cases trapped with
      | false => cases moves; exact ⟨rfl, not_false, rfl⟩
      | true => cases moves
  | idle | opening | testingOpen | running | syncing | ended => cases moves
  | _ => cases moves; exact ⟨rfl, not_false, rfl⟩

/-- A signal that is not ignored ends an invocation that has begun. -/
theorem finish_of_signal (sound : invocation.Sound settings before)
    (identified : invocation.identified = true) (untrapped : invocation.phase.trapped = false)
    (running : ¬invocation.phase.Ended) (signal : Signal) :
    before.poison = false ∧ act settings invocation (.signal signal) before =
      some (invocation.finish (128 + signal.number) before) := by
  rcases invocation with ⟨phase, isIdentified, opened, command⟩
  cases phase with
  | idle | looking | locking | checking => cases sound.symm.trans identified
  | identifying => cases sound.1.symm.trans identified
  | testing => exact ⟨Invocation.Past.unmarked sound, rfl⟩
  | trapping => exact ⟨sound.1.unmarked, rfl⟩
  | restoring status | verifying status =>
      cases status with
      | none => exact ⟨Invocation.Past.unmarked sound, rfl⟩
      | some => cases untrapped
  | poisoning trapped =>
      cases untrapped
      exact ⟨Invocation.Past.unmarked sound, rfl⟩
  | opening | testingOpen | running | syncing => cases untrapped
  | ended => exact absurd trivial running

/-- A step on which no signal comes. -/
theorem sound_proceed (unique : settings.Unique before.mounts)
    (sound : invocation.Sound settings before) (quiet : ¬choice.IsSignal)
    (moves : act settings invocation choice before = some (next, shared)) :
    next.Sound settings shared ∧ next.Closed settings shared := by
  rcases invocation with ⟨phase, identified, opened, command⟩
  cases choice with
  | signal => exact absurd trivial quiet
  | call arguments =>
      cases phase with
      | idle =>
          simp only [act] at moves
          split at moves <;> cases moves
          · exact ⟨trivial, .early sound nofun⟩
          · exact ⟨sound, nofun⟩
      | restoring status | verifying status => cases status <;> cases moves
      | _ => cases moves
  | giveUp =>
      cases phase with
      | locking =>
          cases moves
          exact ⟨trivial, .early sound nofun⟩
      | restoring status | verifying status => cases status <;> cases moves
      | _ => cases moves
  | remounted succeeds options =>
      cases phase with
      | restoring status =>
          cases status with
          | none => cases moves; exact ⟨Invocation.Past.remount sound options _ _, nofun⟩
          | some status =>
              cases moves
              exact ⟨⟨sound.1.remount options _ _, sound.2⟩, nofun⟩
      | opening =>
          cases succeeds with
          | true =>
              cases moves
              exact ⟨⟨Invocation.Past.remount sound options _ _, rfl⟩, nofun⟩
          | false => cases moves; exact ⟨Invocation.Past.remount sound options _ _, nofun⟩
      | verifying status => cases status <;> cases moves
      | _ => cases moves
  | commandEnds status =>
      cases phase with
      | running =>
          cases moves
          exact ⟨⟨⟨sound.1.identified, sound.1.volume, sound.1.unmarked⟩, rfl⟩, nofun⟩
      | restoring status | verifying status => cases status <;> cases moves
      | _ => cases moves
  | proceed =>
      have readOnly := unique.readOnly_iff
      cases phase with
      | looking =>
          simp only [act] at moves
          split at moves <;> cases moves
          · exact ⟨sound, nofun⟩
          · exact ⟨trivial, .early sound nofun⟩
      | locking =>
          simp only [act] at moves
          split at moves <;> cases moves
          exact ⟨sound, nofun⟩
      | checking =>
          simp only [act] at moves
          split at moves <;> cases moves
          · exact ⟨trivial, .early sound nofun⟩
          · rename_i unmarked
            exact ⟨⟨sound, Bool.eq_false_iff.mpr unmarked⟩, nofun⟩
      | identifying =>
          simp only [act] at moves
          split at moves <;> cases moves
          · rename_i identifies
            exact ⟨⟨rfl, unique.identified identifies, sound.2⟩, nofun⟩
          · exact ⟨trivial, .early sound.1 nofun⟩
      | testing =>
          have past : Invocation.Past settings before.mounts before.poison _ := sound
          simp only [act] at moves
          split at moves <;> cases moves
          · rename_i isRo
            exact ⟨⟨past.goTo _, readOnly.mpr isRo⟩, nofun⟩
          · exact ⟨past.goTo _, nofun⟩
      | verifying status =>
          cases status with
          | none =>
              have past : Invocation.Past settings before.mounts before.poison _ := sound
              simp only [act] at moves
              split at moves <;> cases moves
              · rename_i isRo
                exact ⟨⟨past.goTo _, readOnly.mpr isRo⟩, nofun⟩
              · exact ⟨past.goTo _, nofun⟩
          | some status =>
              simp only [act] at moves
              split at moves <;> cases moves
              · rename_i isRo
                refine ⟨trivial, .finish (fun _ => .inl (readOnly.mpr isRo)) fun succeeds => ?_⟩
                exact ⟨succeeds ▸ sound.2, readOnly.mpr isRo⟩
              · exact ⟨sound.1.goTo _, nofun⟩
      | trapping => cases moves; exact ⟨sound.1.goTo _, nofun⟩
      | testingOpen =>
          have past : Invocation.Past settings before.mounts before.poison _ := sound
          simp only [act] at moves
          split at moves <;> cases moves
          · rename_i isRo
            exact ⟨trivial, .finish (fun _ => .inl (readOnly.mpr isRo)) nofun⟩
          · exact ⟨past.goTo _, nofun⟩
      | syncing status => cases moves; exact ⟨⟨sound.1.goTo _, sound.2⟩, nofun⟩
      | poisoning trapped => cases moves; exact ⟨trivial, .finish (fun _ => .inr rfl) nofun⟩
      | restoring status => cases status <;> cases moves
      | _ => cases moves

theorem sound_move (unique : settings.Unique before.mounts)
    (sound : invocation.Sound settings before)
    (calm : choice.IsSignal → invocation.identified = true →
      invocation.phase.trapped = false → ¬invocation.phase.Ended →
        settings.ReadOnly before.mounts)
    (moves : act settings invocation choice before = some (next, shared)) :
    next.Sound settings shared ∧ next.Closed settings shared := by
  cases choice with
  | signal signal =>
      rcases eq_finish_of_signal moves with ⟨untrapped, running, same⟩
      cases same
      refine ⟨trivial, .finish (fun identified => .inl ?_) (by omega)⟩
      exact calm trivial identified untrapped running
  | _ =>
      refine sound_proceed unique sound ?_ moves
      exact not_false

end Moves

/-! ## Runs -/

/-- What holds between any two operations. -/
structure Consistent {Id : Type} (settings : Settings) (system : System Id) : Prop where
  unique : settings.Unique system.shared.mounts
  exclusive : Exclusive (fun invocation : Invocation => invocation.phase.HoldsLock)
    (system.shared.locked = true) system.locals
  sound : ∀ who, (system.locals who).Sound settings system.shared

theorem System.start_consistent {Id : Type} {settings : Settings} {mounts : List MountLine}
    (unique : settings.Unique mounts) (poison : Bool) :
    Consistent settings (start Id mounts poison) where
  unique := unique
  exclusive := .start (fun _ => not_false) Bool.false_ne_true
  sound _ := rfl

/-- What is known of the others stays, whoever moves. -/
theorem Invocation.Sound.other {settings : Settings} {before shared : Shared}
    {invocation : Invocation} (sound : invocation.Sound settings before)
    (same : invocation.phase.HoldsLock →
      shared.mounts = before.mounts ∧ shared.poison = before.poison) :
    invocation.Sound settings shared := by
  by_cases holds : invocation.phase.HoldsLock
  · rcases before with ⟨mounts, locked, poison⟩
    rcases shared with ⟨mounts', locked', poison'⟩
    rcases same holds with ⟨rfl, rfl⟩
    rcases invocation with ⟨phase, identified, opened, command⟩
    cases phase with
    | restoring status | verifying status => cases status <;> exact sound
    | _ => exact sound
  · rcases invocation with ⟨phase, identified, opened, command⟩
    cases phase with
    | idle | looking | locking | ended => exact sound
    | _ => exact absurd trivial holds

section Runs

variable {Id : Type} [DecidableEq Id] {settings : Settings} {system : System Id}
  {label : Id × Choice}

theorem Consistent.step (consistent : Consistent settings system)
    (calm : Calm settings system label) :
    Consistent settings (system.step (act settings) label) := by
  refine step_invariant consistent fun next shared moves => ?_
  refine ⟨?_, consistent.exclusive.handoff (lock_handoff moves), ?_⟩
  · show settings.Unique shared.mounts
    rcases (volume_move moves).1 with same | ⟨options, remounted⟩
    · rw [same]
      exact consistent.unique
    · rw [remounted]
      exact consistent.unique.remount options
  · apply forall_update (fun invocation : Invocation => invocation.Sound settings shared)
    · exact (sound_move consistent.unique (consistent.sound label.1) calm moves).1
    · intro other isOther
      apply (consistent.sound other).other
      intro holds
      refine untouched (fun holds' => isOther ?_) moves
      exact consistent.exclusive.unique other label.1 holds holds'

omit [DecidableEq Id] in
theorem Consistent.guarded (consistent : Consistent settings system) :
    Guarded settings system := by
  intro who isRunning
  have holds : (system.locals who).phase.HoldsLock := by
    rw [isRunning]
    trivial
  have sound := consistent.sound who
  rw [Invocation.Sound, isRunning] at sound
  exact ⟨consistent.exclusive.taken_of who holds, sound.1.unmarked,
    fun other holds' => consistent.exclusive.unique other who holds' holds,
    sound.1.volume, sound.2⟩

theorem Consistent.closes (consistent : Consistent settings system)
    (calm : Calm settings system label) : Closes settings system label := by
  intro running
  cases moves : act settings (system.locals label.1) label.2 system.shared with
  | none =>
      have same : system.step (act settings) label = system := by rw [Threads.step, moves]
      rw [same]
      intro status isEnded
      rw [isEnded] at running
      exact absurd trivial running
  | some result =>
      rcases result with ⟨next, shared⟩
      rw [show system.step (act settings) label = system.move label.1 next shared from
        step_of_moves moves]
      dsimp only
      rw [Function.update_self]
      exact (sound_move consistent.unique (consistent.sound label.1) calm moves).2

/-- A signal that finds the volume writable leaves it so, and without a mark. -/
theorem Consistent.calm_of_closes (consistent : Consistent settings system)
    (closes : Closes settings system label) : Calm settings system label := by
  intro isSignal identified untrapped running
  rcases label with ⟨who, choice⟩
  cases choice with
  | signal signal =>
      rcases finish_of_signal (consistent.sound who) identified untrapped running signal with
        ⟨unmarked, moves⟩
      have mounts := Invocation.finish_mounts (system.locals who) (128 + signal.number)
        system.shared
      have poison := Invocation.finish_poison (system.locals who) (128 + signal.number)
        system.shared
      have closed := closes running
      rw [step_of_moves moves] at closed
      rw [← mounts]
      refine ((closed (128 + signal.number) ?_).1 ?_).resolve_right fun marked => ?_
      · dsimp only
        rw [Function.update_self]
      · dsimp only
        rw [Function.update_self]
        exact identified
      · cases (poison.symm.trans marked).symm.trans unmarked
  | _ => exact isSignal.elim

theorem poison_step (settings : Settings) (system : System Id) (label : Id × Choice)
    (poison : system.shared.poison = true) :
    (system.step (act settings) label).shared.poison = true := by
  rw [Threads.step]
  split
  · rename_i moves
    exact (volume_move moves).2 poison
  · exact poison

/-- Everything that a transaction promises, in one run. -/
structure Holds (Id : Type) [DecidableEq Id] (settings : Settings) (start : System Id)
    (labels : List (Id × Choice)) : Prop where
  guarded : Throughout (Threads.step (act settings)) (Guarded settings) start labels
  closes : Along (Threads.step (act settings)) (Closes settings) start labels
  refused : ∀ front back, labels = front ++ back →
    (run (Threads.step (act settings)) start front).shared.poison = true →
      ∀ who, ((run (Threads.step (act settings)) start labels).locals who).phase ≠ .running

end Runs

/-! ## Two runs -/

def card : Settings where
  boot := "/boot"
  device := "/dev/mmcblk0p2"
  resolve name := name

def cardMounts (options : String) : List MountLine :=
  [⟨"/dev/mmcblk0p3", "/storage", "rw"⟩, ⟨"/dev/mmcblk0p2", "/boot", options⟩]

def upToTesting : List (Unit × Choice) :=
  ((), .call ["rm", "/boot/zlyme-logs"]) :: List.replicate 5 ((), .proceed)

/-- A whole transaction. -/
def transaction : List (Unit × Choice) :=
  upToTesting ++ [((), .proceed), ((), .proceed), ((), .remounted true "rw,relatime"),
    ((), .commandEnds 0), ((), .proceed), ((), .remounted true "ro,relatime"), ((), .proceed)]

end Zlyme.Boot.BootWrite
