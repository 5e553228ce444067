import Zlyme.Preloader.Shell

/-! # Restore, arm and disarm

The three commands that write a verified image to the NAND and fall back to the
image that they found there.
-/

namespace Zlyme.Preloader

open Foundation

namespace Program

/-! ## The write with its fallback -/

/-- What the commands do once `CURRENT` and the target are settled. The texts are
the command's own. -/
def install (host : Host) (board : Board) (dev : String) (target current : Path)
    (what : String) (installed : List String) (rolledBack : String) : Program Unit := do
  if ← writeAndVerify host board dev target then installed.forM log
  else
    log (what ++ " write failed")
    if ← rollbackCurrent host board dev current then
      log rolledBack
      .exit 3
    else criticalFailure what current

/-- `ddr_compatible`. -/
def ddrCompatible (host : Host) (left right : Path) : Program Unit := do
  let storage ← storage
  let checked := do
    let leftBytes ← load storage left "No such file or directory"
    let rightBytes ← load storage right "No such file or directory"
    host.ddrSame leftBytes rightBytes
  match checked with
  | .ok () => return ()
  | .error error =>
      refused error
      die "DDR payload does not match this unit"

/-! ## Restore -/

def stockSha : String := "dfdd7d20d6fd3beb18350dcf8fa58740b40b4baaf39467d45076f949053a2922"
def patchedSha : String := "ed10591f62ae0b8845ac9bd6cf80c896a2b172d32c7c4ef6564d305e8662c13d"

def stockPath : Path := ⟨.share, "preloader-stock.img"⟩

/-- What stands between `mtd5-original-` and `.img` in a file name. -/
def originalHash (name : String) : Option String :=
  let before := "mtd5-original-".toList
  let after := ".img".toList
  let rest := name.toList.drop before.length
  if before.isPrefixOf name.toList && after.isSuffixOf rest then
    some (String.ofList (rest.take (rest.length - after.length)))
  else none

/-- The matches of `"$dir"/mtd5-original-*.img`, with the hash in each name. -/
def originals (storage : Storage) : List (Path × String) :=
  storage.keys.filterMap fun path =>
    if path.dir = .boot then (originalHash path.name).map (path, ·) else none

def noOriginal : String := "no original preloader backup"

/-- `ORIG`, or `ORIG_ERROR`. -/
def findOriginal (host : Host) (board : Board) : Program (Except String Path) := do
  if !board.bootDirectory then return .error "boot directory is missing"
  match originals (← storage) with
  | [] => return .error noOriginal
  | [(path, want)] =>
      if want.length ≠ 64 ∨ ¬want.toList.all ("0123456789abcdef".toList.contains ·) then
        return .error "backup name is not mtd5-original-<sha256>.img"
      else if (← shaFile (.kept path)) ≠ want then
        return .error "backup filename hash does not match the file"
      else if ← imageOk host board (.kept path) then return .ok path
      else return .error ("image structure refused: " ++ path.path)
  | _ => return .error "more than one original preloader backup"

def selectStockFallback (host : Host) (board : Board) (dev : String) : Program Path := do
  let some tmp ← mktemp | .exit 1
  if !(← readLive host dev tmp) then .exit 1
  let live ← shaFile (.temp tmp)
  remove tmp
  if live ≠ patchedSha then
    die ("Original preloader backup is unavailable. The bundled stock fallback does not " ++
      "exactly match this preloader revision. Restore refused.")
  if (← read (.kept stockPath)).isNone then die "bundled stock preloader is missing"
  if (← shaFile (.kept stockPath)) ≠ stockSha then
    die "bundled stock preloader hash does not match"
  validateImage host board (.kept stockPath)
  log "using bundled stock fallback"
  return stockPath

def selectRestoreImage (host : Host) (board : Board) (dev : String) : Program Path := do
  match ← findOriginal host board with
  | .ok path => return path
  | .error message =>
      if message ≠ noOriginal then die message
      else selectStockFallback host board dev

def cmdRestore (host : Host) (board : Board) : Program Unit := do
  let dev ← prepareWrite host board
  match ← (selectRestoreImage host board dev).subshell with
  | .error status => .exit status
  | .ok orig => do
      let current ← saveCurrent host board dev
      ddrCompatible host current orig
      install host board dev orig current "restore"
        [if orig.name = "preloader-stock.img" then "restored stock fallback"
          else "restored original preloader"]
        "Restore failed; previous preloader restored and verified."

/-! ## Disarm -/

def cmdDisarmRecovery (host : Host) (board : Board) : Program Unit := do
  let dev ← prepareWrite host board
  let some live ← mktemp | .exit 1
  if !(← readLive host dev live) then .exit 1
  validateImage host board (.temp live)
  let storage ← storage
  if (storage.lookup manifestPath).isNone then
    remove live
    die "recovery manifest is missing"
  match host.boundSource storage ((← read (.temp live)).getD []) with
  | .error error => do
      refused error
      remove live
      die "recovery binding refused"
  | .ok origin => do
      remove live
      if (← read (.kept origin)).isNone then die "source backup is missing"
      let current ← saveCurrent host board dev
      if current = origin then die "rollback image is the source backup"
      ddrCompatible host current origin
      install host board dev origin current "disarm"
        ["disarmed recovery preloader", "Zlyme will not reboot"]
        "Disarm failed; recovery preloader restored and verified."

/-! ## Arm -/

def cmdArmRecovery (host : Host) (board : Board) : Program Unit := do
  let dev ← prepareWrite host board
  requireBootReadonly board
  let some live ← mktemp | .exit 1
  if !(← readLive host dev live) then .exit 1
  validateImage host board (.temp live)
  let storage ← storage
  if (storage.lookup manifestPath).isNone then
    remove live
    die "recovery manifest is missing"
  match host.armBind storage ((← read (.temp live)).getD []) with
  | .error error => do
      refused error
      remove live
      die "recovery arming refused"
  | .ok (target, want) => do
      remove live
      if (← read (.kept target)).isNone then die "prepared recovery image is missing"
      let current ← saveCurrent host board dev
      let got ← shaFile (.kept current)
      let saved ← read (.kept current)
      let published ← read (.kept ⟨.boot, backupName want⟩)
      if got ≠ want ∨ saved ≠ published ∨ saved = none then
        die "saved current image is not the source"
      install host board dev target current "arm"
        ["conditional recovery preloader installed and verified", "device was not rebooted"]
        "Arm failed; source preloader restored and verified."

end Program

/-! ## The commands -/

inductive Command
  | restore
  | armRecovery
  | disarmRecovery
  deriving DecidableEq, Repr

def Command.program (host : Host) (board : Board) : Command → Program Unit
  | .restore => Program.cmdRestore host board
  | .armRecovery => Program.cmdArmRecovery host board
  | .disarmRecovery => Program.cmdDisarmRecovery host board

/-- The file with the image that a command is to install: the original backup, or
the bundled stock image when there is none; the prepared image of the manifest; its
source backup. -/
def Command.target (host : Host) (storage : Storage) : Command → Option Path
  | .restore =>
      match Program.originals storage with
      | [] => some Program.stockPath
      | [(path, _)] => some path
      | _ => none
  | .armRecovery => (host.manifest storage manifestPath).toOption.map Manifest.prepared
  | .disarmRecovery => (host.manifest storage manifestPath).toOption.map Manifest.sourceBackup

/-- The machine when a command starts: nothing sent to the NAND, no `CURRENT`. -/
def startWorld (nand : Bytes) (storage : Storage) (temp : AList fun _ : String => Bytes) :
    World where
  nand := nand
  received := []
  storage := storage
  temp := temp
  current := none
  stderr := []

end Zlyme.Preloader
