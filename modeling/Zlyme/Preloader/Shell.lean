import Zlyme.Foundation.Script
import Zlyme.Preloader.Manifest

/-! # The preloader tool and its machine

What `zlyme-preloader` reads, keeps and sends to the NAND, and the helpers that its
commands share. An operation succeeds or fails as the environment chooses; what a
copy leaves in its file, and an erase or a write in the NAND, is chosen too, whether
it reports success or not.
-/

namespace Zlyme.Preloader

open Foundation

/-! ## World -/

inductive NandCommand
  | flashErase
  | nandWrite (image : Path)
  deriving DecidableEq, Repr

/-- A file of `mktemp`, or one in a directory of the script. -/
inductive File
  | temp (name : String)
  | kept (path : Path)
  deriving DecidableEq, Repr

structure World where
  nand : Bytes
  /-- The commands that the NAND has received, the last one first. -/
  received : List NandCommand
  storage : Storage
  temp : AList fun _ : String => Bytes
  /-- `CURRENT`. -/
  current : Option Path
  stderr : List String

def World.read (world : World) : File → Option Bytes
  | .temp name => world.temp.lookup name
  | .kept path => world.storage.lookup path

def File.path : File → String
  | .temp name => "/tmp/" ++ name
  | .kept path => path.path

/-! ## Operations -/

inductive Call
  /-- A command that reads one file: `[ -f … ]`, `wc -c`, the image test. -/
  | read (file : File)
  /-- A command that reads several files: a glob, the manifest tests, `cmp`. -/
  | storage
  | sha256sum (file : File)
  | mktemp
  | mkdir (dir : Dir)
  | copy (source : File) (dest : Path)
  /-- A command whose output goes to a file of `mktemp`. -/
  | output (name : String) (content : Bytes)
  | remove (name : String)
  | sync
  | stderr (line : String)
  | setCurrent (path : Path)
  | readNand (out : String)
  | flashErase
  | nandWrite (image : Path)

@[reducible] def Call.Result : Call → Type
  | .read _ => Option Bytes
  | .storage => Storage
  | .sha256sum _ => String
  | .mktemp => Option String
  | .mkdir _ => Bool
  | .copy _ _ => Bool
  | .output _ _ => Bool
  | .remove _ => Unit
  | .sync => Bool
  | .stderr _ => Unit
  | .setCurrent _ => Unit
  | .readNand _ => Bool
  | .flashErase => Bool
  | .nandWrite _ => Bool

/-- What the environment decides about one operation. -/
structure Choice where
  ok : Bool
  /-- What is left where the operation writes, when it is not what it should be. -/
  content : Option Bytes
  /-- The name that `mktemp` picks. -/
  name : String
  /-- Power is lost during the operation. -/
  powerLost : Bool

/-- The file after a partial write. -/
def partialWrite {Key : Type} [DecidableEq Key] (files : AList fun _ : Key => Bytes) (key : Key) :
    Option Bytes → AList fun _ : Key => Bytes
  | some bytes => files.insert key bytes
  | none => files

def Call.perform (host : Host) (choice : Choice) (world : World) :
    (call : Call) → call.Result × World
  | .read file => (world.read file, world)
  | .storage => (world.storage, world)
  | .sha256sum file => (((world.read file).map host.shaText).getD "", world)
  | .mktemp =>
      if choice.ok ∧ world.temp.lookup choice.name = none then
        (some choice.name, { world with temp := world.temp.insert choice.name [] })
      else (none, world)
  | .mkdir _ => (choice.ok, world)
  | .copy source dest =>
      match choice.ok, world.read source with
      | true, some bytes =>
          (true, { world with storage := world.storage.insert dest (choice.content.getD bytes) })
      | _, _ => (false, { world with storage := partialWrite world.storage dest choice.content })
  | .output name content =>
      if choice.ok then
        (true, { world with temp := world.temp.insert name (choice.content.getD content) })
      else (false, { world with temp := partialWrite world.temp name choice.content })
  | .remove name => ((), { world with temp := world.temp.erase name })
  | .sync => (choice.ok, world)
  | .stderr line => ((), { world with stderr := world.stderr ++ [line] })
  | .setCurrent path => ((), { world with current := some path })
  | .readNand out =>
      if choice.ok then (true, { world with temp := world.temp.insert out world.nand })
      else (false, { world with temp := partialWrite world.temp out choice.content })
  | .flashErase =>
      (choice.ok, { world with
        nand := choice.content.getD world.nand
        received := .flashErase :: world.received })
  | .nandWrite image =>
      (choice.ok, { world with
        nand := choice.content.getD world.nand
        received := .nandWrite image :: world.received })

/-- An operation in which power is lost does what a failed one does. -/
def machine (host : Host) : Script.Machine Call Call.Result Choice World :=
  fun call choice world =>
    if choice.powerLost then (none, (call.perform host { choice with ok := false } world).2)
    else ((call.perform host choice world).map some id)

abbrev Program : Type → Type :=
  Script Call Call.Result

namespace Program

def issue (call : Call) : Program call.Result := Script.issue call

def read (file : File) : Program (Option Bytes) := issue (.read file)
def storage : Program Storage := issue .storage
/-- `sha_file`. -/
def shaFile (file : File) : Program String := issue (.sha256sum file)
def mktemp : Program (Option String) := issue .mktemp
def mkdir (dir : Dir) : Program Bool := issue (.mkdir dir)
def copy (source : File) (dest : Path) : Program Bool := issue (.copy source dest)
def output (name : String) (content : Bytes) : Program Bool := issue (.output name content)
def remove (name : String) : Program Unit := issue (.remove name)
def sync : Program Bool := issue .sync
def setCurrent (path : Path) : Program Unit := issue (.setCurrent path)
def readNand (out : String) : Program Bool := issue (.readNand out)
def flashErase : Program Bool := issue .flashErase
def nandWrite (image : Path) : Program Bool := issue (.nandWrite image)
def log (message : String) : Program Unit := issue (.stderr ("zlyme-preloader: " ++ message))

def die {α : Type} (message : String) : Program α := do
  log message
  .exit 1

/-- What Python prints when it ends with an error. -/
def refused : PyError → Program Unit
  | .systemExit message => issue (.stderr message)
  | _ => issue (.stderr "Traceback (most recent call last):")

end Program

/-! ## Gates -/

/-- What the gates read. It does not change while a command runs. -/
structure Board where
  /-- `ZLYME_DEVICE_ID`, when `device.conf` is readable. -/
  deviceId : Option String
  model : Bytes
  compatible : Bytes
  /-- The columns of the lines of `/proc/mtd`, the header included. -/
  mtdTable : Option (List (List String))
  mtdName : String
  mtdType : String
  mtdSize : String
  mtdEraseSize : String
  mtdWriteSize : String
  mtdOobSize : String
  mtdBadBlocks : String
  /-- The battery's capacity, when it is readable. -/
  capacity : Option String
  /-- The readable `online` files of the power supplies. -/
  online : List String
  tools : List String
  bootDirectory : Bool
  /-- The mount points with their options, when the mount table is readable. -/
  mounts : Option (List (String × List String))

def require (condition : Bool) (message : String) : Except String Unit :=
  if condition then .ok () else .error message

def identity (board : Board) : Except String Unit := do
  require board.deviceId.isSome "device.conf is missing"
  require (board.deviceId == some "my355") "platform is not my355"
  require (board.model == text "Miyoo Flip") "model is not Miyoo Flip"
  require (contains (text "miyoo,flip") board.compatible)
    "compatible does not include miyoo,flip"
  require (contains (text "rockchip,rk3566") board.compatible)
    "compatible does not include rockchip,rk3566"

/-- `${dev%:}`. -/
def withoutColon (column : String) : String :=
  if column.toList.getLast? = some ':' then String.ofList column.toList.dropLast else column

/-- `tr -d '"'`. -/
def withoutQuotes (column : String) : String :=
  String.ofList (column.toList.filter (· ≠ Char.ofNat 34))

/-- The device that `mtd_node` sets `DEV` to. -/
def mtdNode (host : Host) (board : Board) : Except String String := do
  match board.mtdTable with
  | none => throw "no mtd table"
  | some lines =>
      match (lines.drop 1).filter (!·.isEmpty) with
      | [] => throw "no mtd partitions"
      | [columns] =>
          let dev := columns.getD 0 ""
          let size := columns.getD 1 ""
          let erase := columns.getD 2 ""
          let name := columns.getD 3 ""
          require (dev != "" && size != "" && erase != "" && name != "") "mtd table is incomplete"
          require (withoutColon dev == "mtd0") "preloader is not mtd0"
          require (withoutQuotes name == "preloader") "mtd0 is not named preloader"
          require (size == "00200000") "proc size is not 2 MiB"
          require (erase == "00020000") "proc erase size is not 128 KiB"
          require (board.mtdName == "preloader") "sysfs name is not preloader"
          require (board.mtdType == "nand") "mtd type is not nand"
          require (board.mtdSize == toString host.layout.size)
            ("sysfs size is not " ++ toString host.layout.size)
          require (board.mtdEraseSize == "131072") "erase size is not 131072"
          require (board.mtdWriteSize == "2048") "write size is not 2048"
          require (board.mtdOobSize == "64") "oob size is not 64"
          require (board.mtdBadBlocks == "0") "preloader has bad blocks"
          return "/dev/mtd0"
      | rows => throw ("expected one mtd partition, found " ++ toString rows.length)

def minBattery : Nat := 25

def digitValue (digit : Char) : Nat :=
  digit.toNat - '0'.toNat

/-- `[ "$cap" -lt "$MIN_BATTERY" ]` for a string of digits; false for the empty one. -/
def lowBattery (capacity : String) : Bool :=
  capacity != "" &&
    capacity.toList.foldl (fun value digit => 10 * value + digitValue digit) 0 < minBattery

/-- The line that `power_ok` logs. -/
def powerOk (board : Board) : Except String String :=
  match board.capacity with
  | none => .error "battery capacity is unreadable"
  | some capacity =>
      if !capacity.toList.all Char.isDigit then .error "battery capacity is not a number"
      else
        let charging := board.online.contains "1"
        if lowBattery capacity && !charging then
          .error ("battery " ++ capacity ++ "% and no charger")
        else .ok ("battery " ++ capacity ++ "%, charger " ++ (if charging then "1" else "0"))

namespace Program

/-- A check that ends with `fail_status` and a return of 1. -/
def gate {α : Type} (checked : Except String α) : Program (Option α) :=
  match checked with
  | .ok value => return some value
  | .error message => do
      log message
      return none

/-- `DEV`, when every read-only gate is passed. -/
def prepareRead (host : Host) (board : Board) : Program (Option String) := do
  let some _ ← gate (identity board) | return none
  let some dev ← gate (mtdNode host board) | return none
  let some line ← gate (powerOk board) | return none
  log line
  let some _ ← gate (require (board.tools.contains "dd") "missing dd") | return none
  let some _ ← gate (require (board.tools.contains "sha256sum") "missing sha256sum") | return none
  let some _ ← gate (require (board.tools.contains "python3") "missing python3") | return none
  return some dev

def needTool (board : Board) (tool : String) : Program Unit :=
  if board.tools.contains tool then return ()
  else die ("missing " ++ tool)

def requireTools (board : Board) : Program Unit := do
  needTool board "flash_erase"
  needTool board "nandwrite"
  needTool board "mtdinfo"
  needTool board "dd"
  needTool board "sha256sum"

def prepareWrite (host : Host) (board : Board) : Program String := do
  let some dev ← prepareRead host board | .exit 1
  requireTools board
  return dev

def requireBootReadonly (board : Board) : Program Unit :=
  match board.mounts with
  | none => die "boot mount table is unreadable"
  | some mounts =>
      match mounts.lookup "/boot" with
      | none => die "boot volume is not mounted"
      | some [] => die "boot volume is not mounted"
      | some options =>
          if options.contains "rw" then die "boot volume is writable"
          else if options.contains "ro" then return ()
          else die "boot volume is not read-only"

/-! ## Images -/

def imageOk (host : Host) (board : Board) (file : File) : Program Bool := do
  match ← read file with
  | none => return false
  | some bytes =>
      if bytes.length ≠ host.layout.size then return false
      else do
        needTool board "python3"
        match parse host.layout host.sha bytes with
        | .ok _ => return true
        | .error error =>
            refused error
            return false

def validateImage (host : Host) (board : Board) (file : File) : Program Unit := do
  if ← imageOk host board file then return ()
  else die ("image structure refused: " ++ file.path)

/-- `read_live` on the node `dev`. -/
def readLive (host : Host) (dev out : String) : Program Bool := do
  if dev = "" then
    log "preloader device is not established"
    return false
  else if dev ≠ "/dev/mtd0" then
    log "preloader device is not mtd0"
    return false
  else if ← readNand out then
    if ((← read (.temp out)).map List.length) = some host.layout.size then return true
    else
      log ("live preloader size is not " ++ toString host.layout.size)
      return false
  else
    log "could not read preloader"
    return false

/-- Keeps a copy of the NAND contents under their hash; the result is `CURRENT`. -/
def saveCurrent (host : Host) (board : Board) (dev : String) : Program Path := do
  if !(← mkdir .backups) then die "could not create the current-backup directory"
  let some tmp ← mktemp | .exit 1
  if !(← readLive host dev tmp) then .exit 1
  let sum ← shaFile (.temp tmp)
  let dest : Path := ⟨.backups, backupName sum⟩
  if !(← copy (.temp tmp) dest) then
    remove tmp
    die "could not write the current backup"
  if !(← sync) then .exit 1
  if (← shaFile (.kept dest)) ≠ sum then
    remove tmp
    die "current backup did not verify"
  remove tmp
  validateImage host board (.kept dest)
  setCurrent dest
  log ("current preloader saved as " ++ dest.path)
  return dest

def readBackMatches (host : Host) (dev want : String) : Program Bool := do
  match ← mktemp with
  | none =>
      log "could not read preloader"
      return false
  | some tmp =>
      if ← readLive host dev tmp then
        let got ← shaFile (.temp tmp)
        remove tmp
        return got == want
      else return false

/-! ## Writing -/

def writeAttempts : Nat := 3

/-- The turns of the `while` loop that are left. -/
def writeLoop (host : Host) (dev expect : String) (img : Path) : Nat → Program Bool
  | 0 => return false
  | left + 1 => do
      log ("write attempt " ++ toString (writeAttempts - left) ++ " of " ++ img.path)
      if !(← flashErase) then
        log "flash_erase failed"
        writeLoop host dev expect img left
      else if !(← nandWrite img) then
        log "nandwrite failed"
        writeLoop host dev expect img left
      else if ← readBackMatches host dev expect then return true
      else
        log "readback mismatch"
        writeLoop host dev expect img left

def writeAndVerify (host : Host) (board : Board) (dev : String) (img : Path) : Program Bool := do
  if ← imageOk host board (.kept img) then
    let expect ← shaFile (.kept img)
    writeLoop host dev expect img writeAttempts
  else return false

def rollbackCurrent (host : Host) (board : Board) (dev : String) (current : Path) :
    Program Bool := do
  log ("rolling back " ++ current.path)
  writeAndVerify host board dev current

def criticalLine (what : String) : String :=
  "CRITICAL: " ++ what ++ " failed and rollback could not be verified."

def criticalFailure (what : String) (current : Path) : Program Unit := do
  log (criticalLine what)
  log "do not assume internal boot works"
  log ("backup preserved at " ++ current.path)
  log ("sha256 " ++ (← shaFile (.kept current)))
  log "MASKROM/xrock recovery may be required"
  .exit 1

end Program

end Zlyme.Preloader
