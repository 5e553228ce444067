import Mathlib.Data.List.DropRight
import Zlyme.Foundation.Result
import Zlyme.Portmaster.MountInfo

/-! # Formatting one removable filesystem

`zlyme-storage-format`, with the block devices, the mounts and the tags of the
filesystems it looks at.
-/

namespace Zlyme.Storage

open Foundation Foundation.Decimal
open Portmaster (Text ascii)

/-! ## Block devices -/

/-- The disks whose names the script knows. -/
inductive DiskName
  | mmc (number : Nat)
  | scsi (letters : Text)
  | nvme (controller unit : Nat)
  deriving DecidableEq, Repr

namespace DiskName

def text : DiskName → Text
  | mmc number => ascii "mmcblk" ++ decimal number
  | scsi letters => ascii "sd" ++ letters
  | nvme controller unit => ascii "nvme" ++ decimal controller ++ ascii "n" ++ decimal unit

/-- Between a disk that ends in a digit and the number of a partition the kernel writes `p`. -/
def partition (disk : DiskName) (number : Nat) : Text :=
  match disk with
  | mmc _ | nvme _ _ => disk.text ++ ascii "p" ++ decimal number
  | scsi _ => disk.text ++ decimal number

def WellNamed : DiskName → Prop
  | scsi letters => letters ≠ [] ∧ ∀ byte ∈ letters, 0x61 ≤ byte ∧ byte ≤ 0x7a
  | mmc _ | nvme _ _ => True

end DiskName

/-- A disk with its partitions. -/
structure Disk where
  name : DiskName
  parts : List Nat
  wellNamed : name.WellNamed

namespace Disk

def nodes (disk : Disk) : List Text :=
  disk.name.text :: disk.parts.map disk.name.partition

end Disk

/-! ## Mounts -/

/-- A byte of a field as the mount table prints it. -/
def mangleByte (byte : UInt8) : Text :=
  if byte = 0x20 then ascii "\\040"
  else if byte = 0x09 then ascii "\\011"
  else if byte = 0x0a then ascii "\\012"
  else if byte = 0x5c then ascii "\\134"
  else if byte = 0x23 then ascii "\\043"
  else [byte]

def mangle (field : Text) : Text :=
  field.flatMap mangleByte

/-- A mount: what was given as its source, the block device behind it, and its directory. -/
structure Mount where
  source : Text
  device : Option Text
  path : Text
  deriving DecidableEq, Repr

namespace Mount

/-- `$1` of its line in the mount table. -/
def shownSource (mount : Mount) : Text :=
  mangle mount.source

/-- `$2` of its line. -/
def shownPath (mount : Mount) : Text :=
  mangle mount.path

end Mount

/-- The mount that covers a directory. -/
def topAt (mounts : List Mount) (path : Text) : Option Mount :=
  mounts.reverse.find? fun mount => mount.path = path

/-- `umount` of a directory takes the last mount away. -/
def detach (mounts : List Mount) (path : Text) : List Mount :=
  (mounts.reverse.eraseP fun mount => mount.path = path).reverse

theorem detach_spec {mounts : List Mount} {path : Text} {mount : Mount}
    (top : topAt mounts path = some mount) :
    ∃ front back, mounts = front ++ mount :: back ∧ detach mounts path = front ++ back := by
  rcases List.find?_eq_some_iff_append.mp top with ⟨here, before, after, split, others⟩
  have erased : mounts.reverse.eraseP (fun mount => mount.path = path) = before ++ after := by
    rw [split, List.eraseP_append_right _ fun other member => by simpa using others other member,
      List.eraseP_cons_of_pos (p := fun mount : Mount => decide (mount.path = path)) here]
  refine ⟨after.reverse, before.reverse, ?_, ?_⟩
  · rw [← List.reverse_reverse mounts, split]
    simp
  · rw [detach, erased]
    simp

/-! ## The system -/

/-- What the script looks at. `others` are the block devices on no disk that it knows, and
`tags` what `blkid` finds on a device. -/
structure Media where
  disks : List Disk
  others : List Text
  mounts : List Mount
  tags : Text → List (Text × Text)

def devPath (name : Text) : Text :=
  ascii "/dev/" ++ name

def quoted (tag : Text × Text) : Text :=
  ascii " " ++ tag.1 ++ ascii "=\"" ++ tag.2 ++ ascii "\""

/-- The line that `blkid` prints. -/
def Media.blkidLine (media : Media) (dev : Text) : Text :=
  match media.tags dev with
  | [] => []
  | tags => dev ++ ascii ":" ++ tags.flatMap quoted

/-! ## Names -/

/-- `${1#/dev/}` -/
def stripDev (dev : Text) : Text :=
  if (ascii "/dev/").isPrefixOf dev then dev.drop 5 else dev

/-- `mmcblk*p*` -/
def isMmcPart (name : Text) : Bool :=
  (ascii "mmcblk").isPrefixOf name && (name.drop 6).contains 0x70

/-- `nvme*n*p*` -/
def isNvmePart (name : Text) : Bool :=
  (ascii "nvme").isPrefixOf name && ((name.drop 4).dropWhile (· != 0x6e)).contains 0x70

def diskOf (dev : Text) : Text :=
  let name := stripDev dev
  if isMmcPart name || isNvmePart name then name.takeWhile (· != 0x70)
  else name.rdropWhile isDigit

def isCandidateName (dev : Text) : Bool :=
  ["mmcblk1", "mmcblk1p1", "mmcblk2", "mmcblk2p1", "sda", "sda1", "sdb", "sdb1", "sdc",
    "sdc1"].any fun name => stripDev dev == ascii name

/-! ## The tests -/

namespace Media

variable (media : Media)

def existsDev (dev : Text) : Bool :=
  (media.disks.flatMap Disk.nodes ++ media.others).any fun name => devPath name == dev

def isOsPath (path : Text) : Bool :=
  ["/", "/boot", "/storage"].any fun os => path == ascii os

/-- `os_disks | grep -Fxq` -/
def isOsDisk (disk : Text) : Bool :=
  (media.mounts.filter fun mount => isOsPath mount.shownPath).any
    fun mount => diskOf mount.shownSource == disk

def hasChildPart (dev : Text) : Bool :=
  let name := stripDev dev
  let number := name.drop 6
  if (ascii "mmcblk").isPrefixOf name && number.all isDigit &&
      (number.length == 1 || number.length == 2) then
    media.existsDev (ascii "/dev/" ++ name ++ ascii "p1")
  else if (ascii "sd").isPrefixOf name && name.length == 3 &&
      (name.drop 2).all (fun byte => 0x61 ≤ byte && byte ≤ 0x7a) then
    media.existsDev (ascii "/dev/" ++ name ++ ascii "1")
  else false

end Media

/-- What stands after the last `key` in a line. -/
def afterLast (key : Text) : Text → Option Text
  | [] => none
  | byte :: rest =>
      match afterLast key rest with
      | some found => some found
      | none =>
          if key.isPrefixOf (byte :: rest) then some ((byte :: rest).drop key.length) else none

/-- The word at the start of a text, in quotes or not. -/
def firstWord (text : Text) : Text :=
  let start := if text.head? = some 0x22 then text.tail else text
  start.takeWhile fun byte => byte != 0x22 && byte != 0x20

/-- The greedy `sed` of the script: the last `key=` of the line counts. -/
def fieldOf (line key : Text) : Text :=
  match afterLast (key ++ ascii "=") line with
  | none => []
  | some rest => firstWord rest

def isReserved (label : Text) : Bool :=
  label == ascii "ZLYME" || label == ascii "ZLYMEBOOT"

def reject (condition : Bool) (message : String) : Except String Unit :=
  if condition then .error message else .ok ()

def Media.validate (media : Media) (dev : Text) : Except String Unit := do
  reject (!(ascii "/dev/").isPrefixOf dev) "not a device path"
  reject ((List.range dev.length).any fun at_ => (ascii "..").isPrefixOf (dev.drop at_)) "bad path"
  reject (!media.existsDev dev) "not present"
  reject (!isCandidateName dev) "not removable media"
  let disk := diskOf dev
  reject (disk == ascii "mmcblk0") "OS card"
  reject (media.isOsDisk disk) "OS disk"
  reject (media.hasChildPart dev) "use the data partition"
  let line := media.blkidLine dev
  reject (isReserved (fieldOf line (ascii "LABEL"))) "reserved label"
  let parent := fieldOf line (ascii "parent")
  reject (!parent.isEmpty && parent == ascii "mmcblk0") "OS card"
  reject (!parent.isEmpty && media.isOsDisk parent) "OS disk"

/-! ## The format -/

inductive Filesystem
  | exfat
  | ext4
  deriving DecidableEq, Repr

def readFilesystem (fs : Text) : Option Filesystem :=
  if fs = ascii "exfat" then some .exfat
  else if fs = ascii "ext4" then some .ext4
  else none

def isLabelByte (byte : UInt8) : Bool :=
  (0x41 ≤ byte && byte ≤ 0x5a) || (0x61 ≤ byte && byte ≤ 0x7a) || isDigit byte ||
    byte == 0x5f || byte == 0x2d

def sanitizeLabel (label : Text) : Text :=
  let out := (label.filter isLabelByte).take 16
  if out.isEmpty || isReserved out then ascii "ZLYME-LIB" else out

/-- A call of `mkfs`, with the system it finds. -/
structure MkfsCall where
  fs : Filesystem
  label : Text
  dev : Text
  media : Media

structure FormatRun where
  mkfs : Option MkfsCall
  result : Except String Unit

/-- The directory that the script unmounts: `$2` of the first line of the device. -/
def Media.listedAt (media : Media) (dev : Text) : Option Text :=
  (media.mounts.find? fun mount => mount.shownSource = dev).map Mount.shownPath

/-- The unmount before the format: `busy` is what the kernel answers. -/
def Media.release (media : Media) (dev : Text) (busy : Bool) : Option Media :=
  match media.listedAt dev with
  | none => some media
  | some path =>
      if busy ∨ topAt media.mounts path = none then none
      else some { media with mounts := detach media.mounts path }

def Media.formatDev (media : Media) (dev fs label : Text) (busy mkfsWorks : Bool) : FormatRun :=
  match readFilesystem fs with
  | none => ⟨none, .error "unsupported filesystem"⟩
  | some fs =>
      -- The second check of the source sees the same system.
      match media.validate dev with
      | .error message => ⟨none, .error message⟩
      | .ok _ =>
          match media.release dev busy with
          | none => ⟨none, .error "media busy"⟩
          | some media =>
              ⟨some ⟨fs, sanitizeLabel label, dev, media⟩,
                if mkfsWorks then .ok () else .error "format failed"⟩

end Zlyme.Storage
