import Mathlib.Logic.Function.Basic
import Zlyme.Foundation.Execution
import Zlyme.Foundation.Script

/-! # Synchronising the cores

`zlyme-core-sync` copies the cores of the image into the writable directory and then
stores a stamp that names the set. The initramfs changes the image and leaves a marker.
-/

namespace Zlyme.Cores

open Foundation Foundation.Execution

/-! ## Images -/

structure Core where
  name : List UInt8
  content : List UInt8
  deriving DecidableEq, Repr

/-- An image: its cores, when it has the directory, and the stamp that its build stored for
them with the script's `stamp` mode. `coreId` is `core_id`. -/
structure Image {Id : Type} (coreId : List Core → Id) where
  cores : Option (List Core)
  file : Option Id
  stamped : ∀ id, file = some id → id = coreId (cores.getD [])
  distinct : ((cores.getD []).map Core.name).Nodup

section System

variable {Id : Type} {coreId : List Core → Id}

namespace Image

variable (image : Image coreId)

def shipped : List Core :=
  image.cores.getD []

/-- `$id` -/
def id : Id :=
  match image.file with
  | some id => id
  | none => coreId image.shipped

theorem id_eq : image.id = coreId image.shipped := by
  rw [id]
  split
  · rename_i id hasFile
    exact image.stamped id hasFile
  · rfl

end Image

/-! ## World -/

/-- What is at a name. A symbolic link leads to a regular file, to a directory, or nowhere. -/
inductive Entry (α : Type)
  | file (content : α)
  | link (content : Option α)
  | linkDir
  | dir
  deriving DecidableEq, Repr

/-- The last two fields are what is known of the directory; the script does not read
them: the cores for which the stamp was stored, and the copies made since then, the last
one first. -/
structure World {Id : Type} (coreId : List Core → Id) where
  image : Image coreId
  /-- `$REFRESH` -/
  marker : Bool
  /-- `$DST` -/
  dest : List UInt8 → Option (Entry (List UInt8))
  /-- `$STAMP_DST` -/
  stamp : Option (Entry Id)
  synced : List Core
  copied : List Core

namespace World

variable (world : World coreId)

/-- The first line of `$STAMP_DST`, when `-f` is true of it. -/
def readStamp : Option Id :=
  match world.stamp with
  | some (.file id) => some id
  | some (.link content) => content
  | _ => none

/-- `mv -f` of a file onto a name goes into a directory that is there. -/
def goesInside {α : Type} : Option (Entry α) → Bool
  | some .dir => true
  | some .linkDir => true
  | _ => false

def install (core : Core) : World coreId :=
  if goesInside (world.dest core.name) then world
  else { world with
    dest := Function.update world.dest core.name (some (.file core.content))
    copied := core :: world.copied }

def putStamp (id : Id) : World coreId :=
  if goesInside world.stamp then world
  else { world with
    stamp := some (.file id)
    synced := world.image.shipped
    copied := [] }

/-- The destination holds the core as a regular file with its content. -/
def holds (core : Core) : Bool :=
  world.dest core.name == some (.file core.content)

end World

/-! ## Operations -/

inductive Call (Id : Type)
  /-- `mkdir`, `mktemp`, `cp` to the temporary file, `printf` to it: only the rest of the
  script depends on it. -/
  | attempt
  | isMarked
  | stampIs (id : Id)
  /-- The test of a core: a regular file and no link, and `cmp -s`. -/
  | isSame (core : Core)
  /-- The bytes that `df` reports. -/
  | avail
  /-- `mv -f` of the temporary file onto the core's name. -/
  | install (core : Core)
  | putStamp (id : Id)
  | clearMarker

@[reducible] def Call.Result : Call Id → Type
  | .avail => Option Nat
  | _ => Bool

/-- Whether the operation succeeds, whether it is lost with the power, whether it has been
done when it fails or is lost, and the free space. -/
structure Choice where
  ok : Bool
  lost : Bool
  done : Bool
  free : Nat

/-- The operation changes what it is there to change. -/
def Choice.applies (choice : Choice) : Bool :=
  if choice.lost then choice.done else choice.ok

def Call.effect [DecidableEq Id] (call : Call Id) (choice : Choice) (world : World coreId) :
    World coreId :=
  if choice.applies then
    match call with
    | .install core => world.install core
    | .putStamp id => world.putStamp id
    | .clearMarker => { world with marker := false }
    | _ => world
  else world

def Call.answer [DecidableEq Id] (call : Call Id) (choice : Choice) (world : World coreId) :
    call.Result :=
  match call with
  | .isMarked => world.marker
  | .stampIs id => world.readStamp == some id
  | .isSame core => choice.ok && world.holds core
  | .avail => if choice.ok then some choice.free else none
  | .attempt => choice.ok
  | .install _ => choice.ok
  | .putStamp _ => choice.ok
  | .clearMarker => choice.ok

def perform [DecidableEq Id] : Script.Machine (Call Id) Call.Result Choice (World coreId) :=
  fun call choice world =>
    (if choice.lost then none else some (call.answer choice world), call.effect choice world)

/-! ## The script -/

abbrev Run (Id : Type) := Script (Call Id) Call.Result

def issue (call : Call Id) : Run Id call.Result :=
  Script.issue call

/-- A command that ends the script when it fails. -/
def require (call : Call Id) (yes : call.Result → Bool) : Run Id Unit := do
  if yes (← issue call) then return
  else Script.exit 1

/-- `need` -/
def measure : List Core → Run Id Nat
  | [] => return 0
  | core :: rest => do
      let same ← issue (.isSame core)
      let need ← measure rest
      return if same then need else core.content.length + need

def copyCore (core : Core) : Run Id Unit := do
  if ← issue (.isSame core) then return
  else
    require .attempt id
    require .attempt id
    require (.install core) id

def copyAll : List Core → Run Id Unit
  | [] => return
  | core :: rest => do
      copyCore core
      copyAll rest

/-- `[ "$need" -gt 0 ] && [ "$avail" -lt "$need" ]`; an empty `avail` is no number, and the
test is not met. -/
def lacks (need : Nat) (avail : Option Nat) : Bool :=
  0 < need &&
    match avail with
    | none => false
    | some avail => avail < need

def copyAndStamp (image : Image coreId) (cores : List Core) : Run Id Unit := do
  require .attempt id
  let need ← measure cores
  require .avail fun avail => !lacks need avail
  copyAll cores
  require .attempt id
  require .attempt id
  require (.putStamp image.id) id
  require .clearMarker id

def refreshCores (image : Image coreId) : Run Id Unit :=
  match image.cores with
  | none => Script.exit 1
  | some cores => copyAndStamp image cores

def sync (image : Image coreId) : Run Id Unit := do
  require .attempt id
  if ← issue .isMarked then refreshCores image
  else if ← issue (.stampIs image.id) then Script.exit 0
  else refreshCores image

/-! ## Events -/

/-- An image is installed, with the marker or without it, or a boot runs the script. -/
inductive Event {Id : Type} (coreId : List Core → Id)
  | change (image : Image coreId) (marks : Bool)
  | sync (choices : List Choice)

def step [DecidableEq Id] (world : World coreId) : Event coreId → World coreId
  | .change image marks => { world with image, marker := world.marker || marks }
  | .sync choices => ((sync world.image).exec perform choices world).2

end System

end Zlyme.Cores
