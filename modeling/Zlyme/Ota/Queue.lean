import Mathlib.Logic.Function.Basic
import Zlyme.Foundation.Execution
import Zlyme.Ota.Update

/-! # A queue of several releases

Every archive and every staged directory carries the release it was made from. The
scripts never see these labels; the machine keeps them beside the two volumes.
-/

namespace Zlyme.Ota.Queue

open Foundation Foundation.Execution

/-! ## Labels -/

structure Labelled where
  world : World
  /-- The release of the archive under a name. -/
  releases : String → Nat
  pendingRelease : Nat
  incomingRelease : Nat
  /-- The release whose boot files were last copied, and the one that `queued_tar`
  selected then. -/
  installs : Option (Nat × Option Nat)

namespace Labelled

/-- The release that `queued_tar` selects. -/
def selected (labelled : Labelled) : Option Nat :=
  labelled.world.storage.queuedTar.map fun tar => labelled.releases tar.name

/-- The labels after an operation that has led to a world. -/
def relabel (labelled : Labelled) (call : Call) (world : World) : Labelled :=
  match call with
  | .extract =>
      { labelled with
        world := world
        incomingRelease := labelled.selected.getD labelled.incomingRelease }
  | .publish =>
      { labelled with
        world := world
        pendingRelease :=
          if labelled.world.storage.pending = .none then labelled.incomingRelease
          else labelled.pendingRelease }
  | .copyBoot _ _ =>
      { labelled with world := world, installs := some (labelled.pendingRelease, labelled.selected) }
  | .removePending .failed => { labelled with world := world, installs := none }
  | .removePending .rejected => { labelled with world := world, installs := none }
  | _ => { labelled with world := world }

end Labelled

/-- The machine of the scripts, with labels. -/
def labelledMachine : Script.Machine Call Call.Result Choice Labelled :=
  fun call choice labelled =>
    ((machine call choice labelled.world).1,
      labelled.relabel call (machine call choice labelled.world).2)

/-! ## The queue over time -/

/-- An archive under its name, in the order of a glob. -/
def putTar (tars : List Tar) (tar : Tar) : List Tar :=
  tars.filter (fun other => other.name < tar.name) ++ tar ::
    tars.filter (fun other => tar.name < other.name)

def Labelled.putTar (labelled : Labelled) (tar : Tar) (release : Nat) : Labelled :=
  { labelled with
    world := labelled.world.onStorage fun storage =>
      { storage with tars := Queue.putTar storage.tars tar }
    releases := Function.update labelled.releases tar.name release }

/-- What happens to the queue. Before a script runs, the boot volume may have
become anything. -/
inductive QueueStep
  /-- An archive appears on the card. -/
  | drop (tar : Tar) (release : Nat)
  /-- `zlyme-update queue`, of an archive that has passed its verification. A copy that
  is cut short leaves something else under the name, and no pin. -/
  | queue (mtime : Nat) (archive : Archive) (release : Nat) (complete : Bool)
  /-- `zlyme-update queue` of the archive that has the name already. -/
  | pin
  | initramfs (boot : BootVolume) (choices : List Choice)
  | bootApply (boot : BootVolume) (choices : List Choice)

namespace Labelled

def queueTar (labelled : Labelled) (mtime : Nat) (archive : Archive) (release : Nat)
    (complete : Bool) : Labelled :=
  let copied := labelled.putTar ⟨queuedName, mtime, archive⟩ release
  if complete then
    { copied with
      world := copied.world.onStorage fun storage =>
        { storage with want := some (stageDir ++ "/" ++ queuedName) } }
  else copied

/-- A script starts with nothing installed by it. -/
def booted (labelled : Labelled) (boot : BootVolume) : Labelled :=
  { labelled with world := { labelled.world with boot := boot }, installs := none }

def step (labelled : Labelled) : QueueStep → Labelled
  | .drop tar release => labelled.putTar tar release
  | .queue mtime archive release complete => labelled.queueTar mtime archive release complete
  | .pin =>
      { labelled with
        world := labelled.world.onStorage fun storage =>
          { storage with want := some (stageDir ++ "/" ++ queuedName) } }
  | .initramfs boot choices =>
      (Program.doRoot.exec labelledMachine choices (labelled.booted boot)).2
  | .bootApply boot choices =>
      (Program.bootApply.exec labelledMachine choices (labelled.booted boot)).2

/-- The operations of a step, each with the state it is issued in. -/
def issued (labelled : Labelled) : QueueStep → List (Call × Labelled)
  | .initramfs boot choices =>
      Program.doRoot.issued labelledMachine choices (labelled.booted boot)
  | .bootApply boot choices =>
      Program.bootApply.issued labelledMachine choices (labelled.booted boot)
  | _ => []

end Labelled

/-! ## What the queue promises -/

/-- While a release is being installed, an intact archive is removed only when that
release is the one `queued_tar` selected. -/
def removesInOrder (call : Call) (labelled : Labelled) : Bool :=
  match call, labelled.installs with
  | .removeTars which, some (release, selected) =>
      selected = some release ||
        !labelled.world.storage.tars.any fun tar => which tar.name && tar.archive.intact
  | _, _ => true

/-- A step discards no queued release uninstalled. -/
def KeepsQueue (labelled : Labelled) (label : QueueStep) : Prop :=
  ∀ entry ∈ labelled.issued label, removesInOrder entry.1 entry.2 = true

instance (labelled : Labelled) (label : QueueStep) : Decidable (KeepsQueue labelled label) :=
  inferInstanceAs (Decidable (∀ entry ∈ _, _))

/-- The names that `apply_files` and `commit_update` remove. -/
def removable (name : String) : Bool :=
  name == queuedName || numbered name

/-- An intact archive is there for removal. -/
def Labelled.AtStake (labelled : Labelled) : Prop :=
  ∃ tar ∈ labelled.world.storage.tars, removable tar.name = true ∧ tar.archive.intact = true

/-- A root that is pending is of the release that `queued_tar` selects, if an intact
archive is at stake. -/
def Labelled.Agrees (labelled : Labelled) : Prop :=
  labelled.world.storage.pending.root.isSome = true → labelled.AtStake →
    labelled.selected = some labelled.pendingRelease

instance (labelled : Labelled) : Decidable labelled.AtStake :=
  inferInstanceAs (Decidable (∃ tar ∈ _, _))

instance (labelled : Labelled) : Decidable labelled.Agrees :=
  inferInstanceAs (Decidable (_ → _ → _))

/-- No script starts with a leftover pending directory of another release. -/
def NoOtherPending (labelled : Labelled) : QueueStep → Prop
  | .initramfs _ _ => labelled.Agrees
  | .bootApply _ _ => labelled.Agrees
  | _ => True

instance (labelled : Labelled) : (label : QueueStep) → Decidable (NoOtherPending labelled label)
  | .drop _ _ => .isTrue trivial
  | .queue _ _ _ _ => .isTrue trivial
  | .pin => .isTrue trivial
  | .initramfs _ _ => inferInstanceAs (Decidable labelled.Agrees)
  | .bootApply _ _ => inferInstanceAs (Decidable labelled.Agrees)

end Zlyme.Ota.Queue
