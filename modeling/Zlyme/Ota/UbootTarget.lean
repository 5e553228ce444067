import Zlyme.Foundation.Result
import Zlyme.Foundation.Text
import Mathlib.Data.List.Basic
import Mathlib.Algebra.Group.Nat.Defs
import Mathlib.Algebra.Ring.Int.Defs

/-! # The target of the bootloader

`resolve_uboot_target` finds the disk behind the boot volume and its one `uboot`
partition in sysfs; `install_uboot` then writes the two blobs to that disk.
-/

namespace Zlyme.Ota.Uboot

open Foundation Foundation.Text

abbrev Text : Type :=
  List Char

/-! ## The system -/

structure MountLine where
  device : Text
  point : Text
  deriving DecidableEq

/-- A name that the shell keeps as one word. -/
def isWord (name : Text) : Bool :=
  !name.isEmpty && name.all fun char => !" \t\n*?[\\".toList.contains char

/-- `/sys/class/block`, and the directories that its entries lead to. -/
structure SysBlock where
  names : List Text
  words : names.all isWord = true
  /-- What `readlink -f` makes of an entry that exists. -/
  real : Text → Option (List Text)
  /-- The regular file at a path. -/
  file : List Text → Option Text

structure System where
  /-- `BOOT` -/
  boot : Text
  /-- `/proc/mounts` -/
  mounts : List MountLine
  /-- The symbolic links, each with what `readlink -f` makes of it. -/
  link : Text → Option (Option Text)
  sysBlock : SysBlock
  /-- `ZLYME_BOOT_DEVICE` and `ZLYME_OS_DISK`, empty if they are not set. -/
  bootDevice : Text
  osDisk : Text

def ubootStartLba : Nat := 16384
def idbloaderLba : Nat := 64
def sector : Nat := 512

/-! ## Names -/

def basename (path : Text) : Text :=
  let name := ((path.reverse.dropWhile (· == '/')).takeWhile (· != '/')).reverse
  if name = [] ∧ path ≠ [] then ['/'] else name

/-- `basename` of an absolute path. -/
def lastName (path : List Text) : Text :=
  path.getLastD ['/']

namespace System

variable (system : System)

/-- `boot_mount_spec` -/
def bootMountSpec : Option Text := do
  let line ← system.mounts.find? (·.point = system.boot)
  if line.device = [] then none else some line.device

/-- `block_name_of` -/
def blockNameOf (spec : Text) : Option Text :=
  if "/dev/".toList.isPrefixOf spec then do
    let spec ← (system.link spec).getD (some spec)
    let name := basename spec
    if name = [] ∨ name = ['/'] ∨ name = ['.'] ∨ name = "dev".toList then none else some name
  else none

end System

namespace SysBlock

variable (sys : SysBlock)

def fileOf (real : List Text) (name : String) : Option Text :=
  sys.file (real ++ [name.toList])

/-- `parent_disk_name` -/
def parentDiskName (name : Text) : Option Text := do
  let real ← sys.real name
  let _ ← sys.fileOf real "partition"
  let parent := lastName real.dropLast
  if parent = [] ∨ parent = name then none
  else do
    let parentReal ← sys.real parent
    if (sys.fileOf parentReal "partition").isSome then none else some parent

/-- `part_named_uboot` -/
def partNamedUboot (real : List Text) : Bool :=
  match sys.fileOf real "uevent" with
  | none => false
  | some uevent =>
      let texts := lines (· == '\n') uevent
      texts.contains "PARTNAME=uboot".toList || texts.contains "PARTLABEL=uboot".toList

/-- The tests of `uboot_parts_on_disk`. -/
def isUbootPart (disk name : Text) : Bool :=
  match sys.real name with
  | none => false
  | some real =>
      name != disk && (sys.fileOf real "partition").isSome && sys.parentDiskName name == some disk &&
        sys.partNamedUboot real

/-- `uboot_parts_on_disk` -/
def ubootPartsOnDisk (disk : Text) : List Text :=
  sys.names.filter (sys.isUbootPart disk)

end SysBlock

/-! ## Numbers -/

/-- `tr -d ' \t\r\n'` -/
def readSysNum (text : Text) : Text :=
  text.filter fun char => !" \t\r\n".toList.contains char

def isDigit (char : Char) : Bool :=
  '0' ≤ char && char ≤ '9'

def digitsIn (base : Nat) (text : Text) : Nat :=
  text.foldl (fun number char => number * base + (char.toNat - '0'.toNat)) 0

/-- The number that `-eq` reads, and that the kernel wrote. -/
def decimalValue (text : Text) : Nat :=
  digitsIn 10 text

/-- Signed 64-bit numbers. -/
def wrap64 (number : Int) : Int :=
  (number + 2 ^ 63) % 2 ^ 64 - 2 ^ 63

/-- `strtoull`, as a signed number. -/
def strtoull (number : Nat) : Int :=
  wrap64 (min number (2 ^ 64 - 1) : Nat)

/-- A variable in `$((…))`, of digits only: octal after a zero. -/
def arithValue (text : Text) : Option Int :=
  match text with
  | '0' :: digit :: rest =>
      if (digit :: rest).all (· < '8') then
        some (strtoull (digitsIn 8 (digit :: rest)))
      else none
  | _ => some (strtoull (digitsIn 10 text))

/-- `uboot_geometry_ok`: the start and the sectors of the partition. -/
def SysBlock.ubootGeometryOk (sys : SysBlock) (part : Text) (loaderSize fitSize : Nat) :
    Option (Text × Text) := do
  let real ← sys.real part
  let start := readSysNum (← sys.fileOf real "start")
  let sectors := readSysNum (← sys.fileOf real "size")
  if start = [] ∨ start.all isDigit = false then none
  else if sectors = [] ∨ sectors.all isDigit = false then none
  else if decimalValue start ≠ ubootStartLba then none
  else do
    let last := wrap64 (idbloaderLba * sector + loaderSize)
    let limit := wrap64 ((← arithValue start) * sector)
    if limit < last then none
    else do
      let capacity := wrap64 ((← arithValue sectors) * sector)
      if capacity < fitSize then none else some (start, sectors)

/-! ## The target -/

structure Target where
  disk : Text
  part : Text
  start : Text
  sectors : Text
  deriving DecidableEq, Repr

def message (texts : List Text) : String :=
  "zlyme-update: ERROR: " ++ String.ofList texts.flatten

def resolveUbootTarget (system : System) (loaderSize fitSize : Nat) : Except String Target := do
  let sys := system.sysBlock
  let spec ← orRaise system.bootMountSpec (message [system.boot, " is not mounted".toList])
  let bootname ← orRaise (system.blockNameOf spec)
    (message ["boot device is not a /dev node: ".toList, spec])
  let disk ← orRaise (sys.parentDiskName bootname)
    (message ["cannot resolve the disk behind ".toList, bootname])
  let wantBoot := basename system.bootDevice
  let wantDisk := basename system.osDisk
  raiseIf (wantBoot = [] ∨ wantDisk = [])
    (message ["primary OS card identity is unset".toList])
  raiseIf (bootname ≠ wantBoot)
    (message [system.boot, " is ".toList, spec, ", expected ".toList, system.bootDevice])
  raiseIf (disk ≠ wantDisk)
    (message [system.boot, " is on ".toList, disk, ", expected ".toList, wantDisk])
  let diskReal ← orRaise (sys.real disk) (message ["cannot read ".toList, disk])
  let blockSize ← orRaise (sys.file (diskReal ++ ["queue".toList, "logical_block_size".toList]))
    (message [disk, " has no logical block size".toList])
  raiseIf (readSysNum blockSize ≠ "512".toList)
    (message [disk, " logical block size is ".toList, readSysNum blockSize, ", need 512".toList])
  let parts := sys.ubootPartsOnDisk disk
  raiseIf (parts.length = 0) (message ["no uboot partition on ".toList, disk])
  raiseIf (parts.length ≠ 1)
    (message [disk, " has ".toList, (toString parts.length).toList, " uboot partitions".toList])
  let part := parts.getLastD []
  let again ← orRaise (sys.parentDiskName part)
    (message ["uboot partition ".toList, part, " has no parent".toList])
  raiseIf (again ≠ disk) (message ["uboot partition ".toList, part, " is not on ".toList, disk])
  let geometry ← orRaise (sys.ubootGeometryOk part loaderSize fitSize)
    (message ["uboot geometry on ".toList, part, " is not the 8 MiB slot".toList])
  return ⟨disk, part, geometry.1, geometry.2⟩

/-! ## The writes -/

/-- `idbloader.img` and `u-boot.itb` of a directory, in bytes; 0 for a missing file. -/
structure Blobs where
  idbloader : Nat
  uboot : Nat

/-- One `dd`: where the bytes go. -/
structure Write where
  device : Text
  offset : Nat
  size : Nat
  deriving DecidableEq, Repr

/-- The checks of the sizes. -/
def checkSizes (loaderSize fitSize : Nat) : Except String Unit := do
  raiseIf (8 * 1024 * 1024 - 32 * 1024 < loaderSize)
    s!"idbloader.img ({loaderSize}) is larger than the 32K..8M gap"
  raiseIf (4 * 1024 * 1024 < fitSize)
    s!"u-boot.itb ({fitSize}) is larger than the 4M uboot part"

/-- The directory whose blobs are written. -/
def blobSource (bootloader pending : Blobs) : Except String Blobs :=
  if bootloader.idbloader ≠ 0 ∧ bootloader.uboot ≠ 0 then .ok bootloader
  else if pending.idbloader ≠ 0 ∧ pending.uboot ≠ 0 then .ok pending
  else .error "no idbloader.img + u-boot.itb (OTA apply first, or: zlyme-update uboot <tar>)"

/-- `install_uboot`, after a tar has been unpacked. -/
def installUboot (system : System) (isBlockDevice : Text → Bool) (testMode : Bool)
    (bootloader pending : Blobs) : Except String (List Write) := do
  let blobs ← blobSource bootloader pending
  checkSizes blobs.idbloader blobs.uboot
  raiseIf (testMode = true) "refusing raw bootloader write in test mode"
  let target ← resolveUbootTarget system blobs.idbloader blobs.uboot
  let disk := "/dev/".toList ++ target.disk
  let part := "/dev/".toList ++ target.part
  raiseIf (isBlockDevice part = false)
    ("uboot partition is not a block device: " ++ String.ofList part)
  raiseIf (isBlockDevice disk = false) ("boot disk is not a block device: " ++ String.ofList disk)
  return [⟨disk, idbloaderLba * sector, blobs.idbloader⟩, ⟨disk, ubootStartLba * sector, blobs.uboot⟩]

/-! ## What a target has to be -/

namespace SysBlock

variable (sys : SysBlock)

/-- The name is that of a partition, in the directory of the disk. -/
def PartitionOf (disk name : Text) : Prop :=
  ∃ real, sys.real name = some real ∧ (sys.fileOf real "partition").isSome = true ∧
    lastName real.dropLast = disk

/-- The name is that of a whole disk. -/
def WholeDisk (disk : Text) : Prop :=
  ∃ real, sys.real disk = some real ∧ sys.fileOf real "partition" = none

def NamedUboot (name : Text) : Prop :=
  ∃ real, sys.real name = some real ∧ sys.partNamedUboot real = true

/-- The first sector and the number of sectors of a partition. -/
def Extent (part : Text) (first sectors : Nat) : Prop :=
  ∃ real start size, sys.real part = some real ∧ sys.fileOf real "start" = some start ∧
    sys.fileOf real "size" = some size ∧ first = decimalValue (readSysNum start) ∧
    sectors = decimalValue (readSysNum size)

end SysBlock

/-- A target that the two blobs may be written to. -/
structure SafeTarget (system : System) (loaderSize fitSize : Nat) (target : Target) : Prop where
  behindBoot : ∃ spec bootname, system.bootMountSpec = some spec ∧
    system.blockNameOf spec = some bootname ∧ bootname = basename system.bootDevice ∧
    system.sysBlock.PartitionOf target.disk bootname
  whole : system.sysBlock.WholeDisk target.disk
  osDisk : target.disk = basename system.osDisk
  only : ∀ name, name ∈ system.sysBlock.names ∧ system.sysBlock.PartitionOf target.disk name ∧
    system.sysBlock.NamedUboot name ↔ name = target.part
  loader : 32 * 1024 ≤ idbloaderLba * sector ∧
    idbloaderLba * sector + loaderSize ≤ 8 * 1024 * 1024
  fit : ∃ first sectors, system.sysBlock.Extent target.part first sectors ∧
    first * sector ≤ ubootStartLba * sector ∧
    ubootStartLba * sector + fitSize ≤ (first + sectors) * sector

/-! ## Numbers -/

theorem digitsIn_octal_le (text : Text) : digitsIn 8 text ≤ digitsIn 10 text := by
  have steps : ∀ (text : Text) (small large : Nat), small ≤ large →
      text.foldl (fun number char => number * 8 + (char.toNat - '0'.toNat)) small ≤
        text.foldl (fun number char => number * 10 + (char.toNat - '0'.toNat)) large := by
    intro text
    induction text with
    | nil => exact fun _ _ below => below
    | cons char rest induction =>
        intro small large below
        refine induction _ _ ?_
        dsimp only
        omega
  exact steps text 0 0 (Nat.le_refl _)

/-- A product that comes out large enough in 64 bits is large enough. -/
theorem fits_of_wrapped {number larger size : Nat} (below : number ≤ larger) (small : size < 2 ^ 63)
    (fits : (size : Int) ≤ wrap64 (strtoull number * sector)) :
    size ≤ larger * sector := by
  rw [sector] at fits ⊢
  by_cases huge : 2 ^ 63 ≤ larger * 512
  · omega
  · have unchanged : strtoull number = number := by
      rw [strtoull, wrap64]
      omega
    rw [unchanged, wrap64] at fits
    omega

theorem arithValue_fits {text : Text} {value : Int} {size : Nat}
    (isValue : arithValue text = some value) (small : size < 2 ^ 63)
    (fits : (size : Int) ≤ wrap64 (value * sector)) : size ≤ decimalValue text * sector := by
  unfold arithValue at isValue
  split at isValue
  · split at isValue
    · rw [← Option.some.inj isValue] at fits
      exact fits_of_wrapped (digitsIn_octal_le _) small fits
    · cases isValue
  · rw [← Option.some.inj isValue] at fits
    exact fits_of_wrapped (Nat.le_refl _) small fits

/-! ## The selection -/

section Selection

variable {sys : SysBlock} {disk name : Text}

theorem parentDiskName_eq_some : sys.parentDiskName name = some disk ↔
    sys.PartitionOf disk name ∧ disk ≠ [] ∧ disk ≠ name ∧ sys.WholeDisk disk := by
  simp only [SysBlock.parentDiskName, Option.bind_eq_bind, Option.bind_eq_some_iff,
    Option.ite_none_left_eq_some, not_or, Bool.not_eq_true, Option.isSome_eq_false_iff,
    Option.isNone_iff_eq_none, Option.some.injEq, SysBlock.PartitionOf, SysBlock.WholeDisk]
  constructor
  · rintro ⟨real, isReal, text, isText, ⟨nonempty, differs⟩, parentReal, isParent, noPartition, rfl⟩
    exact ⟨⟨real, isReal, isText ▸ rfl, rfl⟩, nonempty, differs, parentReal, isParent, noPartition⟩
  · rintro ⟨⟨real, isReal, isPartition, rfl⟩, nonempty, differs, parentReal, isParent, noPartition⟩
    rcases Option.isSome_iff_exists.mp isPartition with ⟨text, isText⟩
    exact ⟨real, isReal, text, isText, ⟨nonempty, differs⟩, parentReal, isParent, noPartition, rfl⟩

/-- A whole disk is no partition. -/
theorem SysBlock.WholeDisk.not_partitionOf {other : Text} (whole : sys.WholeDisk disk) :
    ¬sys.PartitionOf other disk := by
  rcases whole with ⟨real, isReal, noPartition⟩
  rintro ⟨_, isReal', isPartition, _⟩
  cases isReal.symm.trans isReal'
  rw [noPartition] at isPartition
  cases isPartition

theorem isUbootPart_iff (whole : sys.WholeDisk disk) (nonempty : disk ≠ []) :
    sys.isUbootPart disk name = true ↔ sys.PartitionOf disk name ∧ sys.NamedUboot name := by
  rw [SysBlock.isUbootPart, SysBlock.NamedUboot]
  cases isReal : sys.real name with
  | none => simp [SysBlock.PartitionOf, isReal]
  | some real =>
      simp only [Bool.and_eq_true, bne_iff_ne, beq_iff_eq, parentDiskName_eq_some, Option.some.injEq,
        exists_eq_left']
      constructor
      · rintro ⟨⟨_, isPart, _⟩, named⟩
        exact ⟨isPart, named⟩
      · rintro ⟨isPart, named⟩
        have differs : disk ≠ name := by
          rintro rfl
          exact whole.not_partitionOf isPart
        have isPartition : (sys.fileOf real "partition").isSome = true := by
          rcases isPart with ⟨_, isReal', isPartition, _⟩
          cases isReal.symm.trans isReal'
          exact isPartition
        exact ⟨⟨⟨differs.symm, isPartition⟩, isPart, nonempty, differs, whole⟩, named⟩

/-- With one entry the list holds the only such partition. -/
theorem only_part (whole : sys.WholeDisk disk) (nonempty : disk ≠ [])
    (single : (sys.ubootPartsOnDisk disk).length = 1) (other : Text) :
    other ∈ sys.names ∧ sys.PartitionOf disk other ∧ sys.NamedUboot other ↔
      other = (sys.ubootPartsOnDisk disk).getLastD [] := by
  rcases List.length_eq_one_iff.mp single with ⟨part, isSingle⟩
  rw [isSingle, List.getLastD_cons, List.getLastD_nil, ← List.mem_singleton, ← isSingle,
    SysBlock.ubootPartsOnDisk, List.mem_filter, isUbootPart_iff whole nonempty]

/-- The accepted geometry, for sizes that passed the checks. -/
theorem ubootGeometryOk_eq_some {part : Text} {loaderSize fitSize : Nat} {geometry : Text × Text}
    (isOk : sys.ubootGeometryOk part loaderSize fitSize = some geometry)
    (loaderSmall : loaderSize < 2 ^ 62) (fitSmall : fitSize < 2 ^ 63) :
    idbloaderLba * sector + loaderSize ≤ ubootStartLba * sector ∧
      ∃ sectors, sys.Extent part ubootStartLba sectors ∧ fitSize ≤ sectors * sector := by
  simp only [SysBlock.ubootGeometryOk, Option.bind_eq_bind, Option.bind_eq_some_iff,
    Option.ite_none_left_eq_some, Int.not_lt, Decidable.not_not] at isOk
  rcases isOk with ⟨real, isReal, start, isStart, size, isSize, _, _, atLba, startValue, isStartValue,
    loaderFits, capacity, isCapacity, fitFits, _⟩
  constructor
  · rw [← atLba]
    refine arithValue_fits isStartValue (by rw [idbloaderLba, sector]; omega) ?_
    have notWrapped : wrap64 (idbloaderLba * sector + loaderSize) =
        ((idbloaderLba * sector + loaderSize : Nat) : Int) := by
      rw [wrap64, idbloaderLba, sector]
      omega
    exact notWrapped ▸ loaderFits
  · exact ⟨_, ⟨real, start, size, isReal, isStart, isSize, atLba.symm, rfl⟩,
      arithValue_fits isCapacity fitSmall fitFits⟩

end Selection

theorem checkSizes_eq_ok {loaderSize fitSize : Nat} {result : Unit} :
    checkSizes loaderSize fitSize = .ok result ↔
      loaderSize ≤ 8 * 1024 * 1024 - 32 * 1024 ∧ fitSize ≤ 4 * 1024 * 1024 := by
  simp [checkSizes, bind_eq_ok]

section Target

variable {system : System} {loaderSize fitSize : Nat} {target : Target}

/-- A target that is found after the checks of the sizes is safe. -/
theorem safe_of_resolveUbootTarget
    (sizes : checkSizes loaderSize fitSize = .ok ())
    (resolved : resolveUbootTarget system loaderSize fitSize = .ok target) :
    SafeTarget system loaderSize fitSize target := by
  rcases checkSizes_eq_ok.mp sizes with ⟨loaderSmall, fitSmall⟩
  simp only [resolveUbootTarget, bind_eq_ok, orRaise_eq_ok, raiseIf_eq_ok, Decidable.not_not] at resolved
  rcases resolved with ⟨spec, isSpec, bootname, isName, disk, isDisk, _, _, _, sameBoot, _, sameDisk, _, _,
    _, _, _, _, _, _, _, single, again, _, _, _, geometry, isGeometry, isTarget⟩
  cases isTarget
  rcases parentDiskName_eq_some.mp isDisk with ⟨isPart, nonempty, _, whole⟩
  have geometryOk := ubootGeometryOk_eq_some isGeometry (by omega) (by omega)
  rcases geometryOk with ⟨loaderFits, sectors, isExtent, fitFits⟩
  exact {
    behindBoot := ⟨spec, bootname, isSpec, isName, sameBoot, isPart⟩
    whole := whole
    osDisk := sameDisk
    only := only_part whole nonempty single
    loader := ⟨by decide, loaderFits⟩
    fit := ⟨_, sectors, isExtent, Nat.le_refl _, by rw [Nat.add_mul]; omega⟩ }

/-- A card with a loader and a boot partition, and a second card with the same names. -/
def twoCards : System where
  boot := "/boot".toList
  mounts := [⟨"/dev/mmcblk0p2".toList, "/boot".toList⟩]
  link _ := none
  sysBlock := {
    names := ["mmcblk0", "mmcblk0p1", "mmcblk0p2", "mmcblk1", "mmcblk1p1"].map String.toList
    words := by decide
    real := fun name =>
      [("mmcblk0", ["mmcblk0"]), ("mmcblk0p1", ["mmcblk0", "mmcblk0p1"]),
        ("mmcblk0p2", ["mmcblk0", "mmcblk0p2"]), ("mmcblk1", ["mmcblk1"]),
        ("mmcblk1p1", ["mmcblk1", "mmcblk1p1"])].lookup (String.ofList name) |>.map
          (·.map String.toList)
    file := fun path =>
      [(["mmcblk0", "queue", "logical_block_size"], "512\n"), (["mmcblk0", "mmcblk0p1", "partition"], "1\n"),
        (["mmcblk0", "mmcblk0p1", "uevent"], "PARTNAME=uboot\n"),
        (["mmcblk0", "mmcblk0p1", "start"], "16384\n"), (["mmcblk0", "mmcblk0p1", "size"], "8192\n"),
        (["mmcblk0", "mmcblk0p2", "partition"], "2\n"), (["mmcblk0", "mmcblk0p2", "uevent"], "PARTNAME=boot\n"),
        (["mmcblk1", "mmcblk1p1", "partition"], "1\n"),
        (["mmcblk1", "mmcblk1p1", "uevent"], "PARTNAME=uboot\n")].lookup (path.map String.ofList) |>.map
          String.toList }
  bootDevice := "/dev/mmcblk0p2".toList
  osDisk := "/dev/mmcblk0".toList

theorem safe_of_resolveUbootTarget_cards : SafeTarget twoCards 4096 4096
    ⟨"mmcblk0".toList, "mmcblk0p1".toList, "16384".toList, "8192".toList⟩ :=
  safe_of_resolveUbootTarget (by decide) (by decide)

/-- What `install_uboot` writes goes to the disk of a safe target, before the
partition or into it. -/
theorem installUboot_writes {isBlockDevice : Text → Bool} {testMode : Bool} {bootloader pending : Blobs}
    {writes : List Write}
    (installed : installUboot system isBlockDevice testMode bootloader pending = .ok writes) :
    ∃ loaderSize fitSize target, SafeTarget system loaderSize fitSize target ∧
      ∀ write ∈ writes, write.device = "/dev/".toList ++ target.disk ∧
        (32 * 1024 ≤ write.offset ∧ write.offset + write.size ≤ 8 * 1024 * 1024 ∨
          write.offset = ubootStartLba * sector ∧ write.size = fitSize) := by
  simp only [installUboot, bind_eq_ok, raiseIf_eq_ok] at installed
  rcases installed with ⟨blobs, _, _, sizes, _, _, target, resolved, _, _, _, _, isWrites⟩
  have safe := safe_of_resolveUbootTarget sizes resolved
  refine ⟨_, _, target, safe, ?_⟩
  cases isWrites
  intro write member
  rcases List.mem_pair.mp member with rfl | rfl
  · exact ⟨rfl, .inl safe.loader⟩
  · exact ⟨rfl, .inr ⟨rfl, rfl⟩⟩

end Target

end Zlyme.Ota.Uboot
