import Mathlib.Data.List.DropRight
import Zlyme.Foundation.Execution
import Zlyme.Foundation.Faults
import Zlyme.Portmaster.MountInfo

/-! # The first-boot resize

`S13resize`: the tests of the mounted card, the size that decides, and the steps that grow
the partition and format it. A boot may end at any of them.
-/

namespace Zlyme.Resize

open Foundation Foundation.Decimal Foundation.Execution
open Portmaster (Text ascii)

/-! ## Names of devices -/

def diskOf (dev : Text) : Text :=
  let stem := dev.rdropWhile isDigit
  if stem ≠ dev ∧ stem.getLast? = some 0x70 then stem.dropLast else stem

def partNumOf (dev : Text) : Text :=
  dev.rtakeWhile isDigit

/-- What follows the first occurrence of a pattern. -/
def afterFirst (pattern : Text) : Text → Option Text
  | [] => none
  | byte :: rest =>
      match pattern.isPrefixOf? (byte :: rest) with
      | some after => some after
      | none => afterFirst pattern rest

def devLabel (line : Text) : Option Text :=
  match afterFirst (ascii "LABEL=\"") line with
  | none => none
  | some rest =>
      let label := rest.takeWhile (· != 0x22)
      if label.isEmpty then none else some label

/-! ## The boot configuration -/

def isSpace (byte : UInt8) : Bool :=
  byte == 0x20

/-- `^[ ]*autoresize`, and what follows it. -/
def afterKey (line : Text) : Option Text :=
  (ascii "autoresize").isPrefixOf? (line.dropWhile isSpace)

/-- `^[ ]*autoresize[ ]*=[ ]*true[ ]*$` -/
def isTrigger (line : Text) : Bool :=
  match afterKey line with
  | none => false
  | some rest =>
      match (ascii "=").isPrefixOf? (rest.dropWhile isSpace) with
      | none => false
      | some rest =>
          match (ascii "true").isPrefixOf? (rest.dropWhile isSpace) with
          | none => false
          | some rest => rest.all isSpace

/-- `s/^[ ]*autoresize/#autoresize/` -/
def commented (line : Text) : Text :=
  match afterKey line with
  | none => line
  | some rest => ascii "#autoresize" ++ rest

def triggered (conf : List Text) : Bool :=
  conf.any isTrigger

/-! ## The mounted card -/

/-- What a boot shows about the devices, and the identity that the image carries. -/
structure System where
  mounts : List (Text × Text)
  canon : Text → Text
  blkid : Text → Option Text
  boot : Text
  storage : Text
  bootDevice : Text
  storageDevice : Text
  osDisk : Text
  storageLabel : Text

namespace System

variable (system : System)

def mountSource (point : Text) : Option Text :=
  match system.mounts.find? fun mount => mount.2 == point with
  | none => none
  | some mount => if mount.1.isEmpty then none else some mount.1

def sameDev (dev other : Text) : Bool :=
  !dev.isEmpty && !other.isEmpty && system.canon dev == system.canon other

/-- The tests in front of the resize: the partition, when all of them pass. -/
def part : Option Text :=
  match system.mountSource system.boot with
  | none => none
  | some bootSrc =>
      match system.mountSource system.storage with
      | none => none
      | some storSrc =>
          if system.sameDev bootSrc system.bootDevice &&
              system.sameDev storSrc system.storageDevice &&
              diskOf bootSrc == system.osDisk && diskOf storSrc == system.osDisk &&
              ((system.blkid storSrc).bind devLabel).getD [] == system.storageLabel then
            some storSrc
          else none

end System

/-! ## World -/

/-- What a loss of power leaves. `made` is the size of the partition at the time when the
filesystem on it was created; there is none when no creation has completed. -/
structure Card where
  conf : List Text
  size : Nat
  made : Option Nat
  deriving DecidableEq, Repr

/-- `seen` is the size that the kernel knows, and `formatted` tells that `mkfs.exfat` has
been started in this boot. -/
structure World extends Card where
  seen : Nat
  formatted : Bool
  deriving DecidableEq, Repr

def Card.boot (card : Card) : World :=
  { card with
    seen := card.size
    formatted := false }

/-! ## Operations -/

inductive Call
  /-- `grep -qE` of the trigger. -/
  | isTriggered
  | system
  | getsize64
  /-- `/sys/class/block/$b/size` -/
  | sectors
  /-- The `sed` of the trigger under `zlyme-boot-write`. -/
  | comment
  | hasTools
  | umount
  | isBusy
  | isGpt
  | sgdisk
  /-- `parted resizepart`, the second time without `-f`. -/
  | resizepart (again : Bool)
  /-- The two seconds, and the lines for the log. -/
  | pause
  | mkfs
  | sync

@[reducible] def Call.Result : Call → Type
  | .system => System
  | .getsize64 => Option Nat
  | .sectors => Option Nat
  | .comment => Unit
  | .umount => Unit
  | .pause => Unit
  | .sync => Unit
  | _ => Bool

/-- What an interrupted or failing `mkfs.exfat` leaves on the partition. -/
inductive Remains
  | old
  | broken
  | new
  deriving DecidableEq, Repr

/-- What happens at an operation: whether it succeeds, whether the power is lost in it, and
what it finds or leaves then. -/
structure Choice where
  ok : Bool
  lost : Bool
  system : System
  /-- The size that is in the partition table after `parted`. -/
  size : Nat
  /-- The kernel has been told that size. -/
  told : Bool
  /-- The edit of the trigger has reached the file. -/
  edited : Bool
  remains : Remains

def World.resize (world : World) (size : Nat) (told : Bool) : World :=
  { world with
    size
    seen := if told then size else world.seen }

def World.format (world : World) (remains : Remains) : World :=
  { world with
    made :=
      match remains with
      | .old => world.made
      | .broken => none
      | .new => some world.seen
    formatted := true }

def World.comment (world : World) : World :=
  { world with conf := world.conf.map commented }

/-- The state that an operation leaves. -/
def Call.effect (call : Call) (choice : Choice) (world : World) : World :=
  match call with
  | .comment => if choice.edited then world.comment else world
  | .resizepart _ =>
      if choice.ok && !choice.lost then world.resize choice.size true
      else world.resize choice.size choice.told
  | .mkfs =>
      if choice.ok && !choice.lost then world.format .new else world.format choice.remains
  | _ => world

def Call.answer (call : Call) (choice : Choice) (world : World) : call.Result :=
  match call with
  | .isTriggered => choice.ok && triggered world.conf
  | .system => choice.system
  | .getsize64 => if choice.ok then some world.seen else none
  | .sectors => if choice.ok then some (world.seen / 512) else none
  | .comment => ()
  | .umount => ()
  | .pause => ()
  | .sync => ()
  | .hasTools => choice.ok
  | .isBusy => choice.ok
  | .isGpt => choice.ok
  | .sgdisk => choice.ok
  | .resizepart _ => choice.ok
  | .mkfs => choice.ok

def perform : Script.Machine Call Call.Result Choice World :=
  fun call choice world =>
    (if choice.lost then none else some (call.answer choice world), call.effect choice world)

/-! ## The script -/

/-- The factory limit: `[ "$PARTSIZE" -gt 600 ]`. -/
def isOver (bytes : Nat) : Bool :=
  600 < bytes / 1024 / 1024

abbrev Run := Script Call Call.Result

def issue (call : Call) : Run call.Result :=
  Script.issue call

/-- The bytes that `part_size_mb` divides. A query without an answer counts as 0. -/
def partSize : Run Nat := do
  let bytes ← issue .getsize64
  if bytes.getD 0 = 0 then
    let sec ← issue .sectors
    return sec.getD 0 * 512
  else return bytes.getD 0

def format : Run Unit := do
  issue .pause
  if ← issue .mkfs then issue .sync

def resize : Run Unit := do
  if ← issue (.resizepart false) then format
  else if ← issue (.resizepart true) then format

def prepare : Run Unit := do
  if ← issue .hasTools then
    issue .umount
    if ← issue .isBusy then return
    else if ← issue .isGpt then
      if ← issue .sgdisk then resize
    else resize

def start : Run Unit := do
  if ← issue .isTriggered then
    match (← issue .system).part with
    | none => return
    | some part =>
        let bytes ← partSize
        if isOver bytes then
          issue .comment
          issue .sync
        else if (diskOf part).isEmpty || (partNumOf part).isEmpty then return
        else prepare

/-! ## Boots -/

/-- One boot on a card. -/
def step (card : Card) (boot : List Choice) : Card :=
  (start.exec perform boot card.boot).2.toCard

end Zlyme.Resize
