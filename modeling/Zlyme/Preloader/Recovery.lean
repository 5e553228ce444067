import Zlyme.Preloader.State
import Zlyme.Preloader.Commands

/-! # Prepare and erase

`prepare-recovery` derives the recovery image of what the NAND holds, and leaves
beside it what `arm-recovery` will ask for. `erase-preloader` leaves the NAND empty.
With the three commands that install an image they are all that changes the files
and the NAND.
-/

namespace Zlyme.Preloader

open Foundation

/-! ## The manifest of an image -/

/-- `manifest_for`: the keys in the order of the dictionary. -/
def Host.manifestFor (host : Host) (source recovery : Bytes) :
    Except PyError (List (String × Json)) := do
  let (ddr, spl, _) ← paired host.layout host.sha source
  let blob ← fdt host.layout spl.payload
  let (_, _, order) ← bootOrder blob
  refuseIf (order ≠ sourceOrder) "source boot order is not the Nov 02 list"
  let derived ← deriveBytes host.layout host.sha source
  refuseIf (host.sha.digest recovery ≠ host.sha.digest derived)
    "recovery image is not the derivative of the source"
  refuseIf (recovery ≠ derived) "recovery image is not the derivative of the source"
  return [("schema", .int 1), ("design", .str design), ("device", .str "my355"),
    ("source_sha256", .str (host.shaText source)),
    ("recovery_sha256", .str (host.shaText recovery)),
    ("source_backup", .str (backupName (host.shaText source))),
    ("source_ddr_sha256", .str (host.shaText ddr)),
    ("spl_banner", .str splBannerText),
    ("executable_sha256", .str (host.shaText (spl.payload.take host.layout.dtbOff)))]

/-- `json.dumps(doc, indent=2)` for the values of a manifest, which need no escapes,
and the newline behind it. -/
def dumps (fields : List (String × Json)) : Bytes :=
  text "\x7b\n  " ++ (text ",\n  ").intercalate (fields.map jsonText) ++ text "\n\x7d\n"

namespace Program

/-! ## Prepare -/

def removeAll (names : List String) : Program Unit :=
  names.forM remove

/-- The `derive` command of the Python script. -/
def derive (host : Host) (source : Path) (dest : String) : Program Bool := do
  let storage ← storage
  let produced := do
    let data ← load storage source "No such file or directory"
    deriveBytes host.layout host.sha data
  match produced with
  | .error error => do
      refused error
      return false
  | .ok produced => output dest produced

/-- The `recovery-manifest` command of the Python script. -/
def recoveryManifest (host : Host) (source : Path) (recovery dest : String) : Program Bool := do
  let storage ← storage
  let image ← read (.temp recovery)
  let doc := do
    let data ← load storage source "No such file or directory"
    let image ← image.elim (.error (.systemExit "No such file or directory")) .ok
    host.manifestFor data image
  match doc with
  | .error error => do
      refused error
      return false
  | .ok doc => output dest (dumps doc)

def publishBoot (source : File) (name : String) : Program Unit := do
  if name = "" ∨ '/' ∈ name.toList then die "boot publication name is not a file name"
  if !(← copy source ⟨.boot, name⟩) then .exit 1

/-- `${base%.img}.txt`. -/
def noteName (base : String) : String :=
  let extension := ".img".toList
  let stem :=
    if extension.isSuffixOf base.toList then base.toList.take (base.length - extension.length)
    else base.toList
  String.ofList stem ++ ".txt"

def recoveryNote (host : Host) (base source recovery : String) : Bytes :=
  text ("device: Miyoo Flip / my355\n" ++
    "source SHA-256: " ++ source ++ "\n" ++
    "recovery SHA-256: " ++ recovery ++ "\n" ++
    "source size: " ++ toString host.layout.size ++ "\n" ++
    "role: pre-recovery source backup\n" ++
    "xrock recovery prerequisite: enter MASKROM 2207:350a, load the RK3566 DDR plus usbplug " ++
    "or a combined loader, then run xrock flash\n" ++
    "command that would restore it:\n" ++
    "xrock flash write 0 " ++ base ++ "\n" ++
    "NOT EXECUTED DURING RECOVERY PREPARATION\n")

/-- What is stored and published once the image and its manifest are derived. -/
def storeRecovery (host : Host) (current : Path) (image man note : String) : Program Unit := do
  let sum ← shaFile (.temp image)
  let dest : Path := ⟨.recovery, "recovery-" ++ sum ++ ".img"⟩
  if !(← copy (.temp image) dest) then
    removeAll [image, man, note]
    die "could not store the recovery image"
  if !(← sync) then .exit 1
  if (← shaFile (.kept dest)) ≠ sum then
    removeAll [image, man, note]
    die "recovery image did not verify"
  if !(← copy (.temp man) manifestPath) then .exit 1
  if !(← sync) then .exit 1
  let source ← shaFile (.kept current)
  if !(← output note (recoveryNote host current.name source sum)) then .exit 1
  publishBoot (.kept current) current.name
  publishBoot (.temp note) (noteName current.name)
  publishBoot (.kept manifestPath) "preloader-recovery-manifest.json"
  removeAll [image, man, note]

def cmdPrepareRecovery (host : Host) (board : Board) : Program Unit := do
  let dev ← prepareWrite host board
  if !(← mkdir .recovery) then die "could not create the recovery directory"
  let current ← saveCurrent host board dev
  let some image ← mktemp | .exit 1
  let some man ← mktemp | .exit 1
  let some note ← mktemp | .exit 1
  if !(← derive host current image) then
    removeAll [image, man, note]
    die "this preloader is not a supported recovery source"
  if !(← recoveryManifest host current image man) then
    removeAll [image, man, note]
    die "recovery manifest was refused"
  storeRecovery host current image man note
  log "recovery preloader prepared"
  log "NAND was not written"
  log "Zlyme will not reboot"

/-! ## Erase -/

def cmdErase (host : Host) (board : Board) : Program Unit := do
  let dev ← prepareWrite host board
  let current ← saveCurrent host board dev
  if ← flashErase then
    ["preloader erased", "BootROM can try another boot source",
      "a bootable SD idbloader can start instead of USB MASKROM",
      "Zlyme will not reboot"].forM log
  else
    log "flash_erase failed; the preloader was not erased"
    if ← rollbackCurrent host board dev current then
      log "Erase failed; previous preloader restored and verified."
      .exit 3
    else criticalFailure "erase" current

end Program

/-! ## Runs -/

inductive Subcommand
  | install (command : Command)
  | prepareRecovery
  | erasePreloader
  deriving DecidableEq, Repr

def Subcommand.program (host : Host) (board : Board) : Subcommand → Program Unit
  | .install command => command.program host board
  | .prepareRecovery => Program.cmdPrepareRecovery host board
  | .erasePreloader => Program.cmdErase host board

/-- One use of the tool: what the gates read, what `/tmp` holds then, and how the
operations end. It stops where the choices end. -/
structure Invocation where
  subcommand : Subcommand
  board : Board
  temp : AList fun _ : String => Bytes
  choices : List Choice

/-- What outlives a command. -/
structure Device where
  nand : Bytes
  storage : Storage
  /-- What the NAND holds was installed by `arm-recovery`. -/
  armed : Bool

/-- The device before the tool is first used. -/
def Device.fresh (nand : Bytes) (storage : Storage) : Device where
  nand := nand
  storage := storage
  armed := false

def Device.world (device : Device) (invocation : Invocation) : World :=
  startWorld device.nand device.storage invocation.temp

section Runs

variable (host : Host)

/-- Where a use of the tool ends. -/
def Device.after (device : Device) (invocation : Invocation) : World :=
  ((invocation.subcommand.program host invocation.board).exec (machine host) invocation.choices
    (device.world invocation)).2

/-- `arm-recovery` has written its target, and the NAND holds it. -/
def Device.arms (device : Device) (invocation : Invocation) : Bool :=
  let after := device.after host invocation
  invocation.subcommand == .install .armRecovery &&
    (Command.armRecovery.target host device.storage).any fun target =>
      after.received.contains (.nandWrite target) &&
        device.storage.lookup target == some after.nand

/-- An armed device stays so as long as a command leaves the NAND as it found it, be
it by a rollback. -/
def Device.step (device : Device) (invocation : Invocation) : Device :=
  let after := device.after host invocation
  { nand := after.nand
    storage := after.storage
    armed := device.armed && after.nand == device.nand || device.arms host invocation }

/-- What the commands of a run issue. -/
def issuedIn : Device → List Invocation → List (Call × World)
  | _, [] => []
  | device, invocation :: rest =>
      (invocation.subcommand.program host invocation.board).issued (machine host)
          invocation.choices (device.world invocation) ++
        issuedIn (device.step host invocation) rest

end Runs

end Zlyme.Preloader
