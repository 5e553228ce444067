import Zlyme.Preloader.Commands

/-! # The installer and its machine

What `install-maskrom.sh` and `install-restore.sh` read, keep and send to the NAND,
and the helpers of `common.sh`. The scripts run under `set -e`: a command that fails
ends them, unless the script asks for its status.
-/

namespace Zlyme.Installer

open Foundation

/-! ## Tools -/

/-- What the partition holds. -/
abbrev Flash (size : Nat) : Type := { bytes : Bytes // bytes.length = size }

def Flash.erased (size : Nat) : Flash size :=
  ⟨List.replicate size 0xff, List.length_replicate⟩

/-- `nandwrite -p`, from the start of the partition on. -/
def Flash.write {size : Nat} (image : Bytes) (nand : Flash size) : Flash size :=
  ⟨(image ++ nand.1.drop image.length).take size, by
    rw [List.length_take, List.length_append, List.length_drop, nand.2]
    omega⟩

theorem Flash.write_image {size : Nat} (image nand : Flash size) :
    Flash.write image.1 nand = image :=
  Subtype.ext (List.take_left' image.2)

/-- How `patch-preloader.sh` ends: it says `already has properties` of a tree that is
repaired. -/
inductive Patched
  | patched (image : Bytes)
  | repaired
  | refused
  deriving DecidableEq, Repr

/-- What `install-maskrom.sh` learns of that. -/
inductive PatchStatus
  | ok
  | repaired
  | refused
  deriving DecidableEq, Repr

def Patched.status : Patched → PatchStatus
  | .patched _ => .ok
  | .repaired => .repaired
  | .refused => .refused

def Patched.image : Patched → Option Bytes
  | .patched image => some image
  | _ => none

/-- How `apply-boot-order.sh` ends: status 0, 2 or 1. -/
inductive Edited
  | edited (image : Bytes)
  | already
  | refused
  deriving DecidableEq, Repr

def Edited.status : Edited → Nat
  | .edited _ => 0
  | .already => 2
  | .refused => 1

def Edited.image : Edited → Option Bytes
  | .edited image => some image
  | _ => none

/-- The programs that the scripts call on images of the partition's size. -/
structure Host (size : Nat) where
  sha : Preloader.Sha256
  /-- `check-image.sh`. -/
  checkImage : Bytes → Bool
  /-- `check-image.sh --ddr-cmp`. -/
  ddrSame : Bytes → Bytes → Bool
  patch : Bytes → Patched
  applyBootOrder : Bytes → Edited
  checkImage_length : ∀ image, checkImage image = true → image.length = size
  ddrSame_refl : ∀ image, checkImage image = true → ddrSame image image = true

/-- The first word that `sha256sum` prints. -/
def Host.shaText {size : Nat} (host : Host size) (bytes : Bytes) : String :=
  String.ofList ((host.sha.digest bytes).flatMap Preloader.hexByte)

/-! ## World -/

/-- The files of `/tmp` that hold images. -/
inductive Temp
  | live
  | patched
  | new
  | fromOrig
  | fromRec
  | readback
  deriving DecidableEq, Repr

/-- A file of `/tmp`, or one of `OUTDIR`. -/
inductive File
  | tmp (file : Temp)
  | card (name : String)
  deriving DecidableEq, Repr

inductive NandCommand
  | flashErase
  | nandWrite (image : File)
  deriving DecidableEq, Repr

abbrev Card : Type :=
  AList fun _ : String => Bytes

structure World (size : Nat) where
  nand : Flash size
  /-- The commands that the NAND has received, the last one first. -/
  received : List NandCommand
  card : Card
  tmp : Temp → Option Bytes
  /-- What `log` has printed. -/
  printed : List String

def World.read {size : Nat} (world : World size) : File → Option Bytes
  | .tmp file => world.tmp file
  | .card name => world.card.lookup name

/-- A file of `/tmp` after a write. -/
def World.writeTmp {size : Nat} (world : World size) (file : Temp) (content : Option Bytes) :
    World size :=
  { world with tmp := Function.update world.tmp file content }

/-! ## Operations -/

inductive Call
  /-- A command that reads one file: `[ -f … ]`, `wc -c`, `cmp`. -/
  | read (file : File)
  /-- The names in `OUTDIR`. -/
  | names
  | sha256sum (file : File)
  | checkImage (image : File)
  | ddrCmp (left right : File)
  | patch (image : File) (out : Temp)
  | applyBootOrder (image : File) (out : Temp)
  | copy (source : File) (dest : String)
  | remove (file : File)
  | mktemp
  /-- A line for a file that the scripts do not decide by. -/
  | echo (line file : String)
  | log (line : String)
  | sync
  /-- `mountpoint -q "$FATMNT" && umount "$FATMNT"`. -/
  | umount
  | readNand (out : Temp)
  | flashErase
  | nandWrite (image : File)

@[reducible] def Call.Result : Call → Type
  | .read _ => Option Bytes
  | .names => List String
  | .sha256sum _ => String
  | .checkImage _ => Bool
  | .ddrCmp _ _ => Bool
  | .patch _ _ => PatchStatus
  | .applyBootOrder _ _ => Nat
  | .copy _ _ => Bool
  | .remove _ => Bool
  | .mktemp => Bool
  | .echo _ _ => Bool
  | .log _ => Bool
  | .sync => Bool
  | .umount => Bool
  | .readNand _ => Bool
  | .flashErase => Unit
  | .nandWrite _ => Unit

/-- What the environment decides about one operation. -/
structure Choice (size : Nat) where
  ok : Bool
  /-- What is left in a file, when it is not what it should be. -/
  content : Option Bytes
  /-- What is left in the NAND, when it is not what it should be. -/
  flash : Option (Flash size)
  /-- Where a read of the NAND ends, when that is before its end. -/
  short : Option Nat
  deriving DecidableEq

/-- The operation succeeds and does what it should. -/
def Choice.clean (size : Nat) : Choice size where
  ok := true
  content := none
  flash := none
  short := none

section Perform

variable {size : Nat}

/-- An image tool writes its output, or leaves something in its place. -/
def World.toolOutput (world : World size) (choice : Choice size) (out : Temp) :
    Option Bytes → World size
  | some image => world.writeTmp out (some image)
  | none => world.writeTmp out (choice.content.or (world.tmp out))

def Call.perform (host : Host size) (choice : Choice size) (world : World size) :
    (call : Call) → call.Result × World size
  | .read file => (world.read file, world)
  | .names => (world.card.keys, world)
  | .sha256sum file => (((world.read file).map host.shaText).getD "", world)
  | .checkImage image => (choice.ok && (world.read image).any host.checkImage, world)
  | .ddrCmp left right =>
      (choice.ok && (world.read left).any fun first =>
        (world.read right).any fun second => host.ddrSame first second, world)
  | .patch image out =>
      let ending := if choice.ok then ((world.read image).map host.patch).getD .refused else .refused
      (ending.status, world.toolOutput choice out ending.image)
  | .applyBootOrder image out =>
      let ending :=
        if choice.ok then ((world.read image).map host.applyBootOrder).getD .refused else .refused
      (ending.status, world.toolOutput choice out ending.image)
  | .copy source dest =>
      match choice.ok, world.read source with
      | true, some bytes =>
          (true, { world with card := world.card.insert dest (choice.content.getD bytes) })
      | _, _ => (false, { world with card := Preloader.partialWrite world.card dest choice.content })
  | .remove (.tmp file) =>
      if choice.ok then (true, world.writeTmp file none) else (false, world)
  | .remove (.card name) =>
      if choice.ok then (true, { world with card := world.card.erase name }) else (false, world)
  | .mktemp => (choice.ok, world)
  | .echo _ _ => (choice.ok, world)
  | .log line => (choice.ok, { world with printed := world.printed ++ [line] })
  | .sync => (choice.ok, world)
  | .umount => (choice.ok, world)
  | .readNand out =>
      if choice.ok then (true, world.writeTmp out (some (world.nand.1.take (choice.short.getD size))))
      else (false, world.writeTmp out (choice.content.or (world.tmp out)))
  | .flashErase =>
      ((), { world with
        nand := choice.flash.getD (Flash.erased size)
        received := .flashErase :: world.received })
  | .nandWrite image =>
      ((), { world with
        nand := choice.flash.getD (world.nand.write ((world.read image).getD []))
        received := .nandWrite image :: world.received })

/-- A run that power cuts short is one whose choices end there. -/
def machine (host : Host size) : Script.Machine Call Call.Result (Choice size) (World size) :=
  fun call choice world => (call.perform host choice world).map some id

end Perform

abbrev Program : Type → Type :=
  Script Call Call.Result

namespace Program

def issue (call : Call) : Program call.Result := Script.issue call

def read (file : File) : Program (Option Bytes) := issue (.read file)
/-- `sha_file`. -/
def shaFile (file : File) : Program String := issue (.sha256sum file)
def checkImage (image : File) : Program Bool := issue (.checkImage image)
def ddrCmp (left right : File) : Program Bool := issue (.ddrCmp left right)
def patch (image : File) (out : Temp) : Program PatchStatus := issue (.patch image out)
def applyBootOrder (image : File) (out : Temp) : Program Nat := issue (.applyBootOrder image out)
def copy (source : File) (dest : String) : Program Bool := issue (.copy source dest)
def remove (file : File) : Program Bool := issue (.remove file)
def echo (line file : String) : Program Bool := issue (.echo line file)
def readNand (out : Temp) : Program Bool := issue (.readNand out)
def flashErase : Program Unit := issue .flashErase
def nandWrite (image : File) : Program Unit := issue (.nandWrite image)

/-- `set -e`. -/
def must (step : Program Bool) : Program Unit := do
  if ← step then return () else .exit 1

def log (line : String) : Program Unit := must (issue (.log line))
def sync : Program Unit := must (issue .sync)

/-- `cmp -s`. -/
def cmp (left right : File) : Program Bool := do
  let first ← read left
  let second ← read right
  return first.isSome && first == second

/-! ## Helpers -/

def progress (percent : Nat) : Program Unit :=
  must (echo (toString percent) "/tmp/fwupdate_progress")

def finish {α : Type} (status : Nat) : Program α := do
  sync
  must (issue .umount)
  progress 100
  must (echo "1" "/tmp/fwupdate_done")
  .exit status

/-- `log …; finish 1`. -/
def refuse {α : Type} (line : String) : Program α := do
  log line
  finish 1

/-- `… || { log …; finish 1; }`. -/
def orRefuse (check : Program Bool) (line : String) : Program Unit := do
  if ← check then return () else refuse line

/-- `cat /tmp/zlyme-patch.log >> "$LOG"`. -/
def logPatch : Program Unit :=
  must (echo "/tmp/zlyme-patch.log" "zlyme-fw.log")

end Program

/-! ## Gates -/

/-- What a run is called with and what it finds, apart from files and the NAND. -/
structure Board where
  arguments : List String
  /-- `BASEOS_DRY`. -/
  baseosDry : Option String
  tools : List String
  /-- The columns of the lines of `/proc/mtd`. -/
  procMtd : List (List String)
  /-- The readable attributes of `mtd5`, without white space. -/
  sysfs : String → Option String
  /-- The battery's capacity, when it is readable. -/
  capacity : Option String
  /-- The readable `online` files of the power supplies. -/
  online : List String

def Board.dry (board : Board) : Bool :=
  board.baseosDry.getD "0" == "1"

def requiredTools : List String :=
  ["flash_erase", "nandwrite", "dd", "sha256sum", "xxd", "awk", "grep", "cmp", "cp", "rm", "cat",
    "wc", "basename", "sync", "mktemp", "date", "tr", "cut", "sed", "sh"]

def require (condition : Bool) (message : String) : Except String Unit :=
  if condition then .ok () else .error message

def requireTools (board : Board) : Except String Unit :=
  requiredTools.forM fun tool =>
    require (board.tools.contains tool) ("required command is missing: " ++ tool)

def sysIs (board : Board) (key want : String) : Except String Unit :=
  match board.sysfs key with
  | none => throw ("mtd sysfs " ++ key ++ " is missing")
  | some got => require (got == want) ("mtd5 " ++ key ++ " is not " ++ want)

/-- `[ "$CAP" -lt 25 ]`; false for what is not a number. -/
def lowBattery (capacity : String) : Bool :=
  capacity.toList.all Char.isDigit && Preloader.lowBattery capacity

/-- The one line of `/proc/mtd` that names `spl`. -/
def splPartition (board : Board) : Except String Unit :=
  match board.procMtd.filter (·.contains "\"spl\"") with
  | [] => throw "no spl partition; wrong device"
  | [columns] => do
      require ((columns.getD 0 "").toList.take 5 == "mtd5:".toList) "spl is not mtd5"
      require (columns.getD 1 "" == "00200000") "spl size is not 2 MiB"
      require (columns.getD 2 "" == "00020000") "spl erase size is not 128 KiB"
  | _ => throw "spl is not mtd5"

def badBlocks (board : Board) : Except String Unit :=
  match board.sysfs "bad_blocks" with
  | none => throw "mtd sysfs bad_blocks is missing"
  | some bad => require (bad == "0") "mtd5 has bad blocks"

/-- The line that `check_ground` logs, or the one that it refuses with. -/
def checkGround (board : Board) : Except String String := do
  requireTools board
  splPartition board
  sysIs board "name" "spl"
  sysIs board "size" "2097152"
  sysIs board "erasesize" "131072"
  sysIs board "writesize" "2048"
  sysIs board "oobsize" "64"
  badBlocks board
  let cap := board.capacity.getD "0"
  let charging := board.online.contains "1"
  require (!(lowBattery cap && !charging))
    ("battery " ++ cap ++ "% and no charger; refusing")
  return "battery " ++ cap ++ "%, on charger " ++ (if charging then "1" else "0")

namespace Program

def ground (board : Board) : Program Unit :=
  match checkGround board with
  | .ok line => log line
  | .error line => refuse line

/-! ## Backups -/

/-- `BEFORE`. -/
def readLive : Program String := do
  must (readNand .live)
  let before ← shaFile (.tmp .live)
  log ("preloader reads as " ++ before)
  return before

def isSha256Name (want : String) : Bool :=
  want.length = 64 && want.toList.all ("0123456789abcdef".toList.contains ·)

/-- The matches of `"$OUTDIR"/mtd5-original-*.img`, with the hash in each name. -/
def originals (names : List String) : List (String × String) :=
  names.filterMap fun name => (Preloader.Program.originalHash name).map (name, ·)

def checkOriginals (size : Nat) : List (String × String) → Program Unit
  | [] => return ()
  | (name, want) :: rest => do
      if !isSha256Name want then
        refuse ("backup name is not mtd5-original-<sha256>.img: " ++ name)
      else if (← shaFile (.card name)) ≠ want then
        refuse ("backup hash does not match its name: " ++ name)
      else if ((← read (.card name)).map List.length) ≠ some size then
        refuse ("backup is not 2 MiB: " ++ name)
      else do
        must (echo name "/tmp/zlyme-originals.txt")
        checkOriginals size rest

/-- The names that it leaves in `/tmp/zlyme-originals.txt`. -/
def collectOriginals (size : Nat) : Program (List String) := do
  must (echo "" "/tmp/zlyme-originals.txt")
  let names ← issue .names
  checkOriginals size (originals names)
  return (originals names).map Prod.fst

def saveVerifiedCopy (source : File) (dest expect : String) : Program Unit := do
  match ← read (.card dest) with
  | some _ => do
      if (← shaFile (.card dest)) ≠ expect then
        refuse ("existing " ++ dest ++ " does not match the image")
      else log ("kept existing " ++ dest)
  | none => do
      if ← copy source dest then sync
      if (← shaFile (.card dest)) ≠ expect then
        refuse ("copy to the card did not verify: " ++ dest)
      else log ("saved " ++ dest)

/-! ## Writing -/

/-- What `readback_matches` does with its new file. -/
def readbackOk (size : Nat) (expect : String) : Program Bool := do
  if ← readNand .readback then
    if ((← read (.tmp .readback)).map List.length) = some size then
      return (← shaFile (.tmp .readback)) == expect
    else return false
  else return false

def readbackMatches (size : Nat) (expect : String) : Program Bool := do
  if ← issue .mktemp then
    let ok ← readbackOk size expect
    let _ ← remove (.tmp .readback)
    return ok
  else return false

def attempts : Nat := 3

/-- The turns of the first `while` loop that are left. What the caller asks for the
status of is not subject to `set -e`. -/
def flashLoop (size : Nat) (target : File) (expect : String) : Nat → Program Bool
  | 0 => return false
  | left + 1 => do
      let turn := attempts - left
      let _ ← issue (.log ("flash attempt " ++ toString turn))
      flashErase
      nandWrite target
      let _ ← echo (toString (40 + turn * 15)) "/tmp/fwupdate_progress"
      if ← readbackMatches size expect then return true
      else
        let _ ← issue (.log "readback mismatch")
        flashLoop size target expect left

def restored : String := "target write failed; the previous preloader was restored"

def rollbackLoop (size : Nat) (rollback : File) (rollSha : String) : Nat → Program Bool
  | 0 => return false
  | left + 1 => do
      let _ ← issue (.log ("rollback attempt " ++ toString (attempts - left)))
      flashErase
      nandWrite rollback
      if ← readbackMatches size rollSha then
        let _ ← issue (.log restored)
        return true
      else rollbackLoop size rollback rollSha left

/-- The status that it returns. -/
def writeAndRollback (size : Nat) (target : File) (expect : String) (rollback : File)
    (rollSha : String) : Program Nat := do
  if ← flashLoop size target expect attempts then return 0
  else
    let _ ← issue (.log "could not write the preloader; restoring the previous image")
    if ← rollbackLoop size rollback rollSha attempts then return 1
    else
      let _ ← issue (.log "CRITICAL: target write failed and rollback could not be verified")
      return 2

end Program

end Zlyme.Installer
