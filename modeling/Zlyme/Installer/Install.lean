import Zlyme.Installer.Shell

/-! # Install and restore

`install-maskrom.sh` and `install-restore.sh`. Each ends with one of the exits of
`finish`, or with the one of `set -e`.
-/

namespace Zlyme.Installer

open Foundation

namespace Program

/-! ## Names on the card -/

def originalName (before : String) : String :=
  "mtd5-original-" ++ before ++ ".img"

def currentName (before : String) : String :=
  "preloader-current-" ++ before ++ ".img"

def installerName : String := "miyoo355_fw.img"

/-! ## What the scripts share -/

/-- `BEFORE`, once the gates and the check of the installed preloader are passed. -/
def examineLive (board : Board) (title : String) : Program String := do
  if board.arguments ≠ [] then .exit 1
  else
    log title
    progress 5
    ground board
    progress 10
    let before ← readLive
    orRefuse (checkImage (.tmp .live))
      "installed preloader failed the structure check; nothing was written"
    progress 20
    return before

def checkOriginal (orig : File) : Program Unit := do
  orRefuse (checkImage orig) "saved original failed the structure check; nothing was written"
  orRefuse (ddrCmp orig (.tmp .live))
    "saved original DDR does not match the installed preloader; nothing was written"

def removeInstaller : Program Unit := do
  match ← read (.card installerName) with
  | none => return ()
  | some _ => do
      must (remove (.card installerName))
      sync
      log "removed miyoo355_fw.img from the card"

/-- What follows the saved copies. The texts are the script's own. -/
def writeTarget (size : Nat) (board : Board) (target : File) (expect before dryRun verified : String)
    (installed : List String) : Program Unit := do
  if board.dry then
    log dryRun
    finish 0
  else
    progress 40
    if (← writeAndRollback size target expect (.tmp .live) before) = 0 then
      log verified
      removeInstaller
      installed.forM log
      progress 95
      finish 0
    else finish 1

/-! ## `install-maskrom.sh` -/

/-- `from_stock`. -/
def fromStock : Program Bool := do
  match ← patch (.tmp .live) .patched with
  | .ok => do
      logPatch
      return true
  | .repaired => do
      logPatch
      return false
  | .refused => do
      logPatch
      refuse "preloader repair refused; nothing was written"

def prepareStock : Program Unit := do
  if (← applyBootOrder (.tmp .patched) .new) = 0 then return ()
  else refuse "recovery boot order refused; nothing was written"

def prepareRepaired (size : Nat) : Program Unit := do
  let bootRc ← applyBootOrder (.tmp .live) .new
  if bootRc = 2 then
    log "already a right-slot recovery preloader; nothing was written"
    finish 0
  else if bootRc ≠ 0 then refuse "recovery boot order refused; nothing was written"
  else
    match ← collectOriginals size with
    | [orig] => do
        checkOriginal (.card orig)
        if (← patch (.card orig) .fromOrig) = .ok then
          orRefuse (cmp (.tmp .fromOrig) (.tmp .live))
            "saved original does not produce the installed preloader; nothing was written"
        else refuse "saved original is not a supported stock preloader; nothing was written"
    | _ => refuse ("need exactly one mtd5-original backup before changing an already repaired " ++
        "preloader; nothing was written")

def prepareImage (size : Nat) (stock : Bool) : Program Unit :=
  if stock then prepareStock else prepareRepaired size

/-- `AFTER`, once `/tmp/zlyme-new.img` is the recovery image. -/
def prepareNew (size : Nat) (stock : Bool) : Program String := do
  prepareImage size stock
  orRefuse (checkImage (.tmp .new))
    "recovery image failed the structure check; nothing was written"
  orRefuse (ddrCmp (.tmp .live) (.tmp .new))
    "recovery image changed the DDR payload; nothing was written"
  let after ← shaFile (.tmp .new)
  log ("recovery image is " ++ after)
  progress 30
  return after

def keepOriginal (size : Nat) (before : String) : Program Unit := do
  match ← collectOriginals size with
  | [] => saveVerifiedCopy (.tmp .live) (originalName before) before
  | [only] =>
      if only = originalName before then
        saveVerifiedCopy (.tmp .live) (originalName before) before
      else refuse ("an original backup for a different preloader is already on the card; " ++
        "nothing was written")
  | _ => refuse "more than one original backup; nothing was written"

def keepCopies (size : Nat) (stock : Bool) (before : String) : Program Unit :=
  if stock then do
    keepOriginal size before
    saveVerifiedCopy (.tmp .live) (currentName before) before
  else saveVerifiedCopy (.tmp .live) (currentName before) before

def installMaskrom (size : Nat) (board : Board) : Program Unit := do
  let before ← examineLive board "--- Zlyme recovery-preloader helper ---"
  let stock ← fromStock
  let after ← prepareNew size stock
  keepCopies size stock before
  writeTarget size board (.tmp .new) after before
    "dry run - would erase /dev/mtd5 and write the recovery preloader" "readback verified"
    ["recovery preloader installed; power the device off before changing cards",
      "use a bootable card in the right-hand slot for normal boot"]

/-! ## `install-restore.sh` -/

def isRepairedForm (orig : File) : Program Bool := do
  if (← patch orig .fromOrig) = .ok then cmp (.tmp .fromOrig) (.tmp .live) else return false

def isRecoveryForm : Program Bool := do
  if (← read (.tmp .fromOrig)).isSome then
    if (← applyBootOrder (.tmp .fromOrig) .fromRec) = 0 then cmp (.tmp .fromRec) (.tmp .live)
    else return false
  else return false

def checkForm (orig : File) : Program Unit := do
  must (remove (.tmp .fromOrig))
  must (remove (.tmp .fromRec))
  if ← isRepairedForm orig then
    logPatch
    log "installed preloader is the repaired form of the saved original"
  else if ← isRecoveryForm then
    log "installed preloader is the recovery form of the saved original"
  else
    let _ ← echo "/tmp/zlyme-patch.log" "zlyme-fw.log"
    refuse "saved original does not produce the installed preloader; nothing was written"

def restoreFrom (size : Nat) (board : Board) (before : String) (orig : File) : Program Unit := do
  checkOriginal orig
  if ← cmp orig (.tmp .live) then
    log "installed preloader is already the saved original; nothing was written"
    finish 0
  else
    checkForm orig
    let after ← shaFile orig
    log ("restore target is " ++ after)
    progress 30
    saveVerifiedCopy (.tmp .live) (currentName before) before
    writeTarget size board orig after before
      "dry run - would erase /dev/mtd5 and write the saved original"
      "readback verified; this unit's saved original preloader is installed"
      ["original preloader restored; power the device off before changing cards"]

def installRestore (size : Nat) (board : Board) : Program Unit := do
  let before ← examineLive board "--- Zlyme restore-original helper ---"
  match ← collectOriginals size with
  | [] => refuse "no mtd5-original backup on the card; nothing was written"
  | [orig] => restoreFrom size board before (.card orig)
  | _ => refuse "more than one original backup; nothing was written"

end Program

/-! ## Runs -/

def startWorld {size : Nat} (nand : Flash size) (card : Card) (tmp : Temp → Option Bytes) :
    World size where
  nand := nand
  received := []
  card := card
  tmp := tmp
  printed := []

end Zlyme.Installer
