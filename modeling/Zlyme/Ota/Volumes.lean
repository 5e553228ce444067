import Zlyme.Foundation.Script

/-! # The two volumes of an update

The boot volume holds the kernel, the device tree and the root of one release. A
second release waits on the storage volume, as a tar or as the pending directory.
-/

namespace Zlyme.Ota

open Foundation

/-! ## Files -/

inductive Release
  | installed
  | queued
  deriving DecidableEq, Repr

/-- What a boot file holds: a file of a release, or what an interrupted copy left. -/
inductive Content
  | whole (release : Release)
  | torn
  deriving DecidableEq, Repr

inductive BootFile
  | kernel
  | dtb
  | root
  deriving DecidableEq, Repr

/-- `Image.gz`, the device tree and `zlyme` on the boot volume. -/
structure BootVolume where
  kernel : Content
  dtb : Content
  root : Content
  deriving DecidableEq, Repr

def BootVolume.write (boot : BootVolume) (file : BootFile) (content : Content) : BootVolume :=
  match file with
  | .kernel => { boot with kernel := content }
  | .dtb => { boot with dtb := content }
  | .root => { boot with root := content }

/-- All three files belong to one release. -/
def BootVolume.OneRelease (boot : BootVolume) : Prop :=
  ∃ release, boot = ⟨.whole release, .whole release, .whole release⟩

instance (boot : BootVolume) : Decidable boot.OneRelease :=
  decidable_of_iff (boot = ⟨.whole .installed, .whole .installed, .whole .installed⟩ ∨
    boot = ⟨.whole .queued, .whole .queued, .whole .queued⟩) <| by
    constructor
    · rintro (same | same)
      · exact ⟨.installed, same⟩
      · exact ⟨.queued, same⟩
    · rintro ⟨_ | _, same⟩
      · exact .inl same
      · exact .inr same

/-- The files of `pending`, or of a directory that is to become it. -/
structure Staged where
  version : Option Content
  kernel : Option Content
  dtb : Option Content
  root : Option Content
  deriving DecidableEq, Repr

def Staged.none : Staged := ⟨.none, .none, .none, .none⟩

/-- The files of the queued release. -/
def Staged.complete : Staged :=
  ⟨some (.whole .queued), some (.whole .queued), some (.whole .queued), some (.whole .queued)⟩

/-- What `tar` finds in an archive: all files of the queued release, the files with a
patch in place of the root, something else, or nothing. -/
inductive Archive
  | full
  | delta
  | junk
  | empty
  deriving DecidableEq, Repr

def Archive.intact : Archive → Bool
  | .full => true
  | .delta => true
  | _ => false

structure Tar where
  name : String
  mtime : Nat
  archive : Archive
  deriving DecidableEq, Repr

/-- The kind that `mark_fail` writes. -/
inductive FailKind
  | apply
  | junk
  deriving DecidableEq, Repr

/-- `/storage/.update`. -/
structure Storage where
  pending : Staged
  /-- `incoming`, or `reconstruct` for a delta. -/
  incoming : Staged
  /-- The archives, in the order of a glob. -/
  tars : List Tar
  failed : List Tar
  want : Option String
  failKind : Option FailKind
  deriving DecidableEq, Repr

structure World where
  boot : BootVolume
  storage : Storage
  deriving DecidableEq, Repr

/-! ## The queue -/

def stageDir : String := "/storage/.update"

/-- `${ZLYME_UPDATE_PREFIX}-`. -/
def tarPrefix : List Char := "zlyme-my355-".toList

def queuedName : String := "zlyme-my355-update.tar"

/-- `"$STAGEDIR"/${ZLYME_UPDATE_PREFIX}-*.tar`. -/
def offered (name : String) : Bool :=
  tarPrefix.isPrefixOf name.toList && ".tar".toList.isSuffixOf (name.toList.drop tarPrefix.length)

/-- `"$STAGEDIR"/${ZLYME_UPDATE_PREFIX}-[0-9]*.tar`. -/
def numbered (name : String) : Bool :=
  offered name && ((name.toList.drop tarPrefix.length).head?.any Char.isDigit)

def occursIn (needle : List Char) : List Char → Bool
  | [] => needle.isEmpty
  | char :: rest => needle.isPrefixOf (char :: rest) || occursIn needle rest

/-- A pin that `queued_tar` skips. -/
def skippedPin (pin : String) : Bool :=
  ".part".toList.isSuffixOf pin.toList || ".tmp".toList.isSuffixOf pin.toList ||
    ".partial".toList.isSuffixOf pin.toList || occursIn "/failed/".toList pin.toList

/-- `[ -s … ]` on an archive in the directory. -/
def Storage.nonempty (storage : Storage) (path : String) : Option Tar :=
  storage.tars.find? fun tar => tar.archive ≠ .empty && stageDir ++ "/" ++ tar.name == path

def Storage.pinned (storage : Storage) : Option Tar :=
  match storage.want with
  | none => none
  | some pin =>
      if pin = "" ∨ skippedPin pin then none
      else (storage.nonempty pin).or (storage.nonempty (stageDir ++ "/" ++ pin))

def newer (best : Option Tar) (tar : Tar) : Option Tar :=
  match best with
  | none => some tar
  | some found => if found.mtime < tar.mtime then some tar else some found

/-- The newest archive of a list; the first one of equal age. -/
def newest (tars : List Tar) : Option Tar :=
  tars.foldl newer none

def Storage.queuedTar (storage : Storage) : Option Tar :=
  storage.pinned.or
    (newest (storage.tars.filter fun tar => tar.archive ≠ .empty && offered tar.name))

def Storage.isQueued (storage : Storage) : Bool :=
  (storage.pending.version.isSome && storage.pending.root.isSome) || storage.queuedTar.isSome

/-! ## Operations -/

/-- Why `pending` is removed: the root is committed, a check rejects it, applying it
has failed, or a new one takes its place. -/
inductive Removal
  | committed
  | rejected
  | failed
  | replaced
  deriving DecidableEq, Repr

/-- What a script asks the device, whose answer it does not decide. -/
inductive Check
  | storageMounted
  | bootOpens
  | bootCloses
  | rootMounts
  | bootMounted
  | bootWriter
  | bootWritable
  | otherFilesCopied
  | superblock
  | toolsPresent
  | bootFreeKnown
  | rootFits
  | storageFreeKnown
  | storageFits
  | deltaManifest
  | listing
  deriving DecidableEq, Repr

inductive Call
  /-- A test that only reads the two volumes. -/
  | inspect
  | check (what : Check)
  | copyBoot (file : BootFile) (content : Content)
  | clearIncoming
  | extract
  /-- `mv "$incoming" "$PENDING"`. -/
  | publish
  | removePending (why : Removal)
  | removeTars (which : String → Bool)
  | quarantineTars
  | clearFailed
  | removeWant
  | setFailKind (kind : Option FailKind)
  | reboot

@[reducible] def Call.Result : Call → Type
  | .inspect => World
  | .check _ => Bool
  | .copyBoot _ _ => Bool
  | .extract => Bool
  | _ => Unit

/-- What the environment decides about one operation. -/
structure Choice where
  ok : Bool
  powerLost : Bool
  /-- What a failed copy leaves, unless it leaves the file alone. -/
  left : Option Content
  /-- What a failed extraction leaves. -/
  extracted : Staged
  /-- Whether a failed removal or move has spared a file of `pending` or a tar. -/
  sparesRoot : Bool
  sparesOthers : Bool
  sparesTar : String → Bool

def Staged.spare (staged : Staged) (choice : Choice) : Staged where
  version := if choice.sparesOthers then staged.version else .none
  kernel := if choice.sparesOthers then staged.kernel else .none
  dtb := if choice.sparesOthers then staged.dtb else .none
  root := if choice.sparesRoot then staged.root else .none

/-- `mv` moves into a directory that exists. -/
def Storage.publish (storage : Storage) : Storage :=
  if storage.pending = .none then
    { storage with pending := storage.incoming, incoming := .none }
  else { storage with incoming := .none }

def World.onStorage (world : World) (change : Storage → Storage) : World :=
  { world with storage := change world.storage }

def Call.perform (choice : Choice) (world : World) : (call : Call) → call.Result × World
  | .inspect => (world, world)
  | .check _ => (choice.ok, world)
  | .copyBoot file content =>
      if choice.ok then (true, { world with boot := world.boot.write file content })
      else
        match choice.left with
        | some left => (false, { world with boot := world.boot.write file left })
        | none => (false, world)
  | .clearIncoming =>
      ((), world.onStorage fun storage =>
        { storage with incoming := if choice.ok then .none else storage.incoming })
  | .extract =>
      (choice.ok, world.onStorage fun storage =>
        { storage with incoming := if choice.ok then .complete else choice.extracted })
  | .publish =>
      ((), world.onStorage fun storage => if choice.ok then storage.publish else storage)
  | .removePending _ =>
      ((), world.onStorage fun storage =>
        { storage with pending := if choice.ok then .none else storage.pending.spare choice })
  | .removeTars which =>
      ((), world.onStorage fun storage =>
        { storage with
          tars := storage.tars.filter fun tar =>
            !which tar.name || (!choice.ok && choice.sparesTar tar.name) })
  | .quarantineTars =>
      let moved (tar : Tar) : Bool := offered tar.name && (choice.ok || !choice.sparesTar tar.name)
      ((), world.onStorage fun storage =>
        { storage with
          tars := storage.tars.filter fun tar => !moved tar
          failed := storage.failed ++ storage.tars.filter moved })
  | .clearFailed => ((), world.onStorage fun storage => { storage with failed := [] })
  | .removeWant => ((), world.onStorage fun storage => { storage with want := none })
  | .setFailKind kind => ((), world.onStorage fun storage => { storage with failKind := kind })
  | .reboot => ((), world)

/-- Power is lost during an operation, which then does what a failed one does. A
reboot does not return. -/
def machine : Script.Machine Call Call.Result Choice World :=
  fun call choice world =>
    if choice.powerLost then (none, (call.perform { choice with ok := false } world).2)
    else
      match call with
      | .reboot => (none, world)
      | call => (call.perform choice world).map some id

abbrev Program : Type → Type :=
  Script Call Call.Result

end Zlyme.Ota
