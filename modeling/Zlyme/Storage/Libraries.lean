import Mathlib.Data.List.Sort
import Zlyme.Foundation.Execution
import Zlyme.Storage.Format

/-! # Removable volumes and the library list

The commands of `zlyme-storage` that mount and unmount volumes, and the list of libraries
that each of them writes.
-/

namespace Zlyme.Storage

open Foundation Foundation.Decimal Foundation.Text
open Portmaster (Text ascii decode)

/-! ## Paths -/

def sd2 : Text := ascii "/mnt/sd2"
def mediaDir : Text := ascii "/mnt/media"
def storageDir : Text := ascii "/storage"

/-- `$MEDIA/$name` -/
def childPath (name : Text) : Text :=
  mediaDir ++ 0x2f :: name

/-! ## The mount table -/

/-- `mounts_has` -/
def mountsHas (mounts : List Mount) (path : Text) : Bool :=
  mounts.any fun mount => decode mount.shownPath == path

/-- `mounts_source` -/
def mountsSource (mounts : List Mount) (path : Text) : Text :=
  ((mounts.find? fun mount => decode mount.shownPath == path).map
    fun mount => decode mount.shownSource).getD []

/-- `mounts_has_source` -/
def mountsHasSource (mounts : List Mount) (dev : Text) : Bool :=
  mounts.any fun mount => decode mount.shownSource == dev

/-- `mounts_target_of` -/
def mountsTargetOf (mounts : List Mount) (dev : Text) : Text :=
  ((mounts.find? fun mount => decode mount.shownSource == dev).map
    fun mount => decode mount.shownPath).getD []

/-! ## Names of mountpoints -/

/-- `tr '/\000-\037\177' '-'` -/
def trByte (byte : UInt8) : UInt8 :=
  if byte = 0x2f ∨ byte < 0x20 ∨ byte = 0x7f then 0x2d else byte

def isSpace (byte : UInt8) : Bool :=
  byte == 0x20

def mediaComponent (label name : Text) : Text :=
  if label.isEmpty then name
  else
    let text := ((label.map trByte).dropWhile isSpace).rdropWhile isSpace
    let text := if text.isEmpty || text == ascii "." || text == ascii ".." then name else text
    if text.contains 0x2f || text == ascii "." || text == ascii ".." then name else text

/-- The directory is free, or belongs to the device already. -/
def isFree (mounts : List Mount) (path dev : Text) : Bool :=
  let owner := mountsSource mounts path
  owner.isEmpty || owner == dev

def chooseMountpoint (mounts : List Mount) (comp dev name : Text) : Option Text :=
  if isFree mounts (childPath comp) dev then some comp
  else if isFree mounts (childPath (comp ++ 0x2d :: name)) dev then some (comp ++ 0x2d :: name)
  else none

/-! ## The system -/

/-- The mounts, the directories under `$MEDIA`, and the file `$LIBRARIES`. -/
structure Library where
  mounts : List Mount
  entries : List Text
  file : Option Text
  deriving DecidableEq, Repr

/-- What `*` expands to: the names without a leading dot, sorted. -/
def glob (entries : List Text) : List Text :=
  (entries.filter fun name => name.head? != some 0x2e).insertionSort (· ≤ ·)

namespace Library

def lines (library : Library) : List Text :=
  storageDir :: (if mountsHas library.mounts sd2 then [sd2] else []) ++
    ((glob library.entries).map childPath).filter fun path => mountsHas library.mounts path

def writeLibraries (library : Library) : Library :=
  { library with file := some (unlines 0x0a library.lines) }

end Library

/-- `add` for one device: what the system answers about it, and whether the mounts work. -/
structure AddCall where
  name : Text
  isBlock : Bool
  childPart : Bool
  label : Text
  secondary : Bool
  probed : Bool
  moved : Bool
  remounted : Bool
  named : name ≠ [] ∧ name.head? ≠ some 0x2e ∧ ∀ byte ∈ name, byte ≠ 0x2f ∧ byte ≠ 0x0a

namespace AddCall

def dev (call : AddCall) : Text :=
  devPath call.name

def mount (call : AddCall) (path : Text) : Mount where
  source := call.dev
  device := some call.name
  path

/-- The probe is moved to its place, or else the device is mounted there anew. -/
def settles (call : AddCall) : Bool :=
  call.moved || call.remounted

end AddCall

/-- `os_disk` -/
def osDisk (mounts : List Mount) : Option Text :=
  ((["/", "/boot", "/storage"].map fun path => mountsSource mounts (ascii path)).find?
    fun source => !source.isEmpty).map diskOf

/-- The devices that `add_dev` leaves alone. -/
def AddCall.skipped (call : AddCall) (mounts : List Mount) : Bool :=
  !call.isBlock || diskOf call.dev == ascii "mmcblk0" ||
    osDisk mounts == some (diskOf call.dev) || call.childPart || isReserved call.label

namespace Library

variable (library : Library) (call : AddCall)

/-- `mkdir -p`, and the probe in its place. -/
def settleAt (path : Text) : Library :=
  if call.settles then { library with mounts := library.mounts ++ [call.mount path] } else library

def makeDir (name : Text) : Library :=
  { library with
    entries := if name ∈ library.entries then library.entries else library.entries ++ [name] }

/-- The probe mount itself is not part of the state: nothing between looks at it. -/
def placeVolume : Library :=
  if call.secondary && !mountsHas library.mounts sd2 then library.settleAt call sd2
  else
    match chooseMountpoint library.mounts (mediaComponent call.label call.name) call.dev
        call.name with
    | none => library
    | some rest =>
        if rest.contains 0x2f || rest == ascii "." || rest == ascii ".." then library
        else (library.makeDir rest).settleAt call (childPath rest)

def addDev : Library :=
  if call.skipped library.mounts then library
  else if mountsHasSource library.mounts call.dev then library.writeLibraries
  else if call.probed then (library.placeVolume call).writeLibraries
  else library

def removeDev (name : Text) : Library :=
  let path := mountsTargetOf library.mounts (devPath name)
  if path.isEmpty then library
  else writeLibraries { library with mounts := detach library.mounts path }

def ejectExtras : Library :=
  let mounts :=
    if mountsHas library.mounts sd2 then detach library.mounts sd2 else library.mounts
  writeLibraries { library with
    mounts := ((glob library.entries).map childPath).foldl detach mounts }

def start (calls : List AddCall) : Library :=
  (Execution.run addDev library calls).writeLibraries

end Library

/-! ## Commands -/

inductive Command
  | add (call : AddCall)
  | remove (name : Text)
  | start (calls : List AddCall)
  | eject

def Library.step (library : Library) : Command → Library
  | .add call => library.addDev call
  | .remove name => library.removeDev name
  | .start calls => library.start calls
  | .eject => library.ejectExtras

end Zlyme.Storage
