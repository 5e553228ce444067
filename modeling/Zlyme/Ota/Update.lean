import Zlyme.Ota.Volumes

/-! # Applying and committing an update

One boot: the initramfs commits a pending root, and then `zlyme-update boot-apply`
stages a queued release, installs its boot files and reboots. Inside
`if ( apply_files )` the shell does not stop at a failed command, only at `exit`.
-/

namespace Zlyme.Ota

open Foundation

namespace Program

def issue (call : Call) : Program call.Result := Script.issue call

def inspect : Program World := issue .inspect
def check (what : Check) : Program Bool := issue (.check what)
def copyBoot (file : BootFile) (content : Content) : Program Bool := issue (.copyBoot file content)
def clearIncoming : Program Unit := issue .clearIncoming
def extract : Program Bool := issue .extract
def publish : Program Unit := issue .publish
def removePending (why : Removal) : Program Unit := issue (.removePending why)
def removeTars (which : String → Bool) : Program Unit := issue (.removeTars which)
def quarantineTars : Program Unit := issue .quarantineTars
def clearFailed : Program Unit := issue .clearFailed
def removeWant : Program Unit := issue .removeWant
def setFailKind (kind : Option FailKind) : Program Unit := issue (.setFailKind kind)
def reboot : Program Unit := issue .reboot

/-! ## Staging -/

def fail {α : Type} : Program α :=
  .exit 1

def markFail {α : Type} (kind : FailKind) : Program α := do
  setFailKind (some kind)
  fail

/-- The directory that a check is made in. -/
inductive Place
  | pending
  | incoming
  deriving DecidableEq, Repr

def Place.files (place : Place) (world : World) : Staged :=
  match place with
  | .pending => world.storage.pending
  | .incoming => world.storage.incoming

/-- `reject_root`. -/
def rejectRoot {α : Type} (place : Place) : Program α := do
  match place with
  | .pending => removePending .rejected
  | .incoming => clearIncoming
  markFail .apply

/-- `check_squashfs_root`, on a file that is there. -/
def checkSquashfsRoot (place : Place) : Program Unit := do
  if !(← check .toolsPresent) then fail
  if !(← check .superblock) then rejectRoot place

def verifyDir (place : Place) : Program Unit := do
  let files := place.files (← inspect)
  if files.dtb.isNone || files.root.isNone || files.version.isNone || files.kernel.isNone then
    rejectRoot place
  checkSquashfsRoot place

/-- Whether `squashfs_fits` returns 0. -/
def squashfsFits (place : Place) : Program Bool := do
  if !(← check .bootFreeKnown) then return false
  if !(← check .rootFits) then rejectRoot place
  return true

/-- Whether `storage_has_room` returns 0. -/
def storageHasRoom : Program Bool := do
  if !(← check .storageFreeKnown) then return false
  if !(← check .storageFits) then markFail .apply
  return true

def stageDelta : Program Unit := do
  if !(← check .toolsPresent) then fail
  clearIncoming
  if !(← check .deltaManifest) then
    clearIncoming
    markFail .apply
  if (← inspect).boot.root ≠ .whole .installed then
    clearIncoming
    markFail .apply
  if ← storageHasRoom then
    if !(← extract) then
      clearIncoming
      markFail .apply
    verifyDir .incoming
    let _ ← squashfsFits .incoming
    removePending .replaced
    publish
  else clearIncoming

def stageTar (tar : Tar) : Program Unit := do
  if !(← check .listing) then markFail .junk
  match tar.archive with
  | .junk => markFail .junk
  | .empty => markFail .junk
  | .delta => stageDelta
  | .full =>
      let _ ← storageHasRoom
      clearIncoming
      if !(← extract) then
        clearIncoming
        markFail .apply
      verifyDir .incoming
      let _ ← squashfsFits .incoming
      removePending .replaced
      publish

def ensurePending : Program Unit := do
  let storage := (← inspect).storage
  if storage.pending.version.isSome && storage.pending.root.isSome then
    verifyDir .pending
    let _ ← squashfsFits .pending
    return ()
  else
    match storage.queuedTar with
    | none => markFail .apply
    | some tar => stageTar tar

/-! ## Installing the boot files -/

/-- One `cp -f` of the transaction; a source that is missing fails it. -/
def copyPending (file : BootFile) (source : Staged → Option Content) : Program Bool := do
  match source (← inspect).storage.pending with
  | none => return false
  | some content => copyBoot file content

/-- Whether the transaction of `zlyme-boot-write` succeeds. -/
def bootWrite : Program Bool := do
  if !(← check .bootWritable) then return false
  if !(← copyPending .kernel Staged.kernel) then return false
  if !(← copyPending .dtb Staged.dtb) then return false
  if !(← check .otherFilesCopied) then return false
  check .bootCloses

def installBoot : Program Bool := do
  if !(← check .bootMounted) then markFail .apply
  verifyDir .pending
  if !(← squashfsFits .pending) then return false
  if !(← check .bootWriter) then markFail .apply
  if !(← bootWrite) then markFail .apply
  return true

/-- Exits with status 1 where the subshell does; on success it reboots. -/
def applyFiles : Program Unit := do
  clearFailed
  setFailKind none
  ensurePending
  if !(← installBoot) then fail
  removeWant
  setFailKind none
  clearFailed
  removeTars (· == queuedName)
  removeTars numbered
  reboot

def handleApplyFailure : Program Unit := do
  let kind := (← inspect).storage.failKind
  removePending .failed
  if kind = some .junk then
    removeWant
    removeTars offered
  else
    clearFailed
    quarantineTars
    removeWant
  setFailKind none

def bootApply : Program Unit := do
  setFailKind none
  if !(← inspect).storage.isQueued then return ()
  match ← applyFiles.subshell with
  | .ok () => return ()
  | .error _ => handleApplyFailure

/-! ## The initramfs -/

/-- Whether `commit_update` returns 0. -/
def commitUpdate : Program Bool := do
  match (← inspect).storage.pending.root with
  | none => return true
  | some content =>
      if !(← copyBoot .root content) then return false
      removePending .committed
      removeTars (· == queuedName)
      removeWant
      removeTars numbered
      return true

/-- Up to the root file system; a failure ends the boot in a shell. -/
def doRoot : Program Unit := do
  let mounted ← check .storageMounted
  let pending := (← inspect).storage.pending.root.isSome
  if mounted && pending then
    if ← check .bootOpens then
      let _ ← commitUpdate
      if !(← check .bootCloses) then fail
  if !(← check .rootMounts) then fail

def boot : Program Unit := do
  doRoot
  bootApply

end Program

/-! ## Runs of boots -/

/-- One boot. Where its choices end, power is lost. -/
def bootStep (world : World) (choices : List Choice) : World :=
  (Program.boot.exec machine choices world).2

/-- The states of one boot: those in which an operation is issued, and the last one. -/
def bootStates (world : World) (choices : List Choice) : List World :=
  (Program.boot.issued machine choices world).map Prod.snd ++ [bootStep world choices]

/-- The states of a run of boots. -/
def statesOf : World → List (List Choice) → List World
  | world, [] => [world]
  | world, choices :: boots =>
      bootStates world choices ++ statesOf (bootStep world choices) boots

end Zlyme.Ota
