import Mathlib.Data.List.DropRight
import Zlyme.Foundation.Execution
import Zlyme.Foundation.Script
import Zlyme.Portmaster.Visibility

/-! # The registry of mounts

What the wrappers of `mount` and `umount` record, and what the cleanup unmounts. Each
operation on the mounts, on the registry file and on temporary files is one call.
-/

namespace Zlyme.Portmaster

open Foundation Foundation.Text Foundation.MountTree

def tab : UInt8 :=
  0x09

def carriageReturn : UInt8 :=
  0x0d

def weston : Text :=
  ascii "/tmp/weston"

def wrap : Text :=
  ascii "/tmp/weston/westonwrap.sh"

def staged : Text :=
  ascii "/run/zlyme-portmaster/westonwrap.sh"

/-- `ZLYME_PM_CONTROL` -/
def control : Text :=
  ascii "/opt/system/Tools/PortMaster"

/-! ## Paths and lines -/

/-- The loop of `${p%/}`, which leaves the root alone. -/
def stripSlashes (path : Text) : Text :=
  if path.rdropWhile (· == slash) = [] then [slash] else path.rdropWhile (· == slash)

def isBreak (byte : UInt8) : Bool :=
  byte = newline || byte = tab || byte = carriageReturn

def pmNorm (path : Text) : Option Text :=
  if path.head? = some slash then
    if (stripSlashes path).any isBreak then none else some (stripSlashes path)
  else none

def pmProtected (libraries : List Text) (path : Text) : Bool :=
  [ascii "/", ascii "/boot", ascii "/storage", ascii "/mnt/sd2", ascii "/mnt/media"].contains path ||
    libraries.contains path

def entry (id path : Text) : Text :=
  id ++ tab :: path

def pmEntryPath (line : Text) : Text :=
  match cut tab line with
  | some (_, path) => path
  | none => line

def pmEntryId (line : Text) : Option Text :=
  match cut tab line with
  | some (id, _) => if isNumber id then some id else none
  | none => none

/-! ## Operands -/

/-- An option that takes the next word. -/
def takesValue (arg : Text) : Bool :=
  [ascii "-o", ascii "-t", ascii "--options", ascii "--types"].contains arg

def isOption (arg : Text) : Bool :=
  arg.head? == some 0x2d

/-- The operands of a mount, without the values of options. -/
def operandsFrom : Bool → List Text → List Text
  | _, [] => []
  | true, _ :: rest => operandsFrom false rest
  | false, arg :: rest =>
      if takesValue arg then operandsFrom true rest
      else if isOption arg then operandsFrom false rest
      else arg :: operandsFrom false rest

def operands (args : List Text) : List Text :=
  operandsFrom false args

/-- The last operand, if it says something. -/
def lastOperand (args : List Text) : Option Text :=
  args.getLast?.bind fun dest => if dest = [] then none else some dest

def pmMountDest (args : List Text) : Option Text :=
  lastOperand (operands args)

def pmUmountTarget (args : List Text) : Option Text :=
  lastOperand (args.filter fun arg => !isOption arg)

def westonMountDest (args : List Text) : Bool :=
  2 ≤ (operands args).length && (operands args).getLast? == some weston

def westonUmountArgv (args : List Text) : Bool :=
  args.contains weston

/-! ## The mounts -/

/-- The mounts of a system, with the file that shows them. -/
structure Space where
  mounts : List (Mount Text Text)
  root : Mount Text Text
  mountinfo : Text
  describes : (Table.read mountinfo).Describes mounts root

def Space.ids (space : Space) : List Text :=
  space.mounts.map Mount.id

/-- What an unmount of a path detaches: the mount that the walk along the path ends at,
when the path ends there too. -/
def Space.Detaches (space : Space) (path : Text) (mount : Mount Text Text) : Prop :=
  mount ∈ space.mounts ∧ render mount.point = path ∧
    Resolves space.mounts space.root mount.point mount

/-- The ids of other mounts that are not in a space. -/
def Space.newIn (space next : Space) : List Text :=
  next.ids.filter fun id => !space.ids.contains id

/-- The ids that are in both, at another path. -/
def Space.movedIn (space next : Space) : List Text :=
  (next.mounts.filter fun mount => space.mounts.any fun old =>
    old.id = mount.id && old.point ≠ mount.point).map Mount.id

structure World where
  space : Space
  /-- The mount table can be read. -/
  readable : Bool
  /-- The lines of `owned-mounts`, which is empty when it is not there. -/
  registry : List Text
  /-- The lines of `libraries`. -/
  libraries : List Text
  /-- The mounts that a mount command of the wrapper made, by their ids. -/
  created : List Text
  /-- The mounts that a mount command of the wrapper moved. -/
  moved : List Text
  /-- What the last mount command of the wrapper made or moved. -/
  last : List Text
  /-- The ids that were recorded. -/
  recorded : List Text
  /-- The ids that have been in use. -/
  used : List Text

/-- Other mounts, made by somebody else. An id that was not in use names another mount. -/
def World.change (world : World) (next : Space) : World :=
  { world with
    space := next
    created := world.created.filter fun id => world.space.ids.contains id
    moved := world.moved.filter fun id => world.space.ids.contains id
    used := world.used ++ next.ids }

/-- Other mounts, made by a mount command of the wrapper. -/
def World.create (world : World) (next : Space) : World :=
  { world.change next with
    created := (world.change next).created ++ world.space.newIn next
    moved := (world.change next).moved ++ world.space.movedIn next
    last := world.space.newIn next ++ world.space.movedIn next }

/-! ## Operations -/

inductive Call
  /-- `pm_ids_at` -/
  | idsAt (path : Text)
  /-- `pm_mount_role` -/
  | role (path id : Text)
  /-- `mount_count`, from `/proc/mounts`. -/
  | count (path : Text)
  /-- `[ -r ]` of the mount table. -/
  | readable
  | mktemp
  | mkdir
  | mount (args : List Text)
  | umount (args : List Text)
  | registry
  | append (line : Text)
  /-- `mv` of a new registry over the old one. -/
  | replace (lines : List Text)
  | isProtected (path : Text)
  /-- `[ -e ]` -/
  | isThere (path : Text)
  /-- A step that has to do with the wrapper script only, or the loading of a helper. -/
  | check
  deriving DecidableEq, Repr

@[reducible] def Call.Result : Call → Type
  | .idsAt _ => Option (List Text)
  | .role _ _ => Option Table.Role
  | .count _ => Option Nat
  | .readable => Bool
  | .mktemp => Bool
  | .mkdir => Bool
  | .mount _ => Nat
  | .umount _ => Nat
  | .registry => List Text
  | .append _ => Unit
  | .replace _ => Unit
  | .isProtected _ => Bool
  | .isThere _ => Bool
  | .check => Bool

/-- An order in which awk visits the paths of a table. -/
abbrev Visit : Type :=
  { visit : List Text → List Text // ∀ paths path, path ∈ visit paths ↔ path ∈ paths }

/-- What the environment decides about one operation. -/
structure Choice where
  ok : Bool
  /-- The status of a mount command. -/
  status : Nat
  /-- The mounts after a mount command, if they are others. -/
  next : Option Space
  /-- What others change meanwhile. -/
  meanwhile : Option (Space × Bool)
  visit : Visit

def World.idsAt (world : World) (path : Text) : Option (List Text) :=
  if world.readable then
    (pmNorm path).bind fun norm => pmMountinfoAwk [] .ids norm [] world.space.mountinfo
  else none

def World.role (world : World) (visit : Visit) (path id : Text) : Option Table.Role :=
  if world.readable then
    (pmNorm path).map fun norm =>
      let table := Table.read world.space.mountinfo
      if isNumber id then table.role (visit.val table.paths) id norm else .ambiguous
  else none

def Call.perform (choice : Choice) (world : World) : (call : Call) → call.Result × World
  | .idsAt path => (world.idsAt path, world)
  | .role path id => (world.role choice.visit path id, world)
  | .count path =>
      (if world.readable then some (((Table.read world.space.mountinfo).idsAt path).length)
      else none, world)
  | .readable => (world.readable, world)
  | .mktemp => (choice.ok, world)
  | .mkdir => (choice.ok, world)
  | .mount _ => (choice.status, (choice.next.map world.create).getD { world with last := [] })
  | .umount _ => (choice.status, (choice.next.map world.change).getD world)
  | .registry => (world.registry, world)
  | .append line =>
      ((), { world with
        registry := world.registry ++ [line]
        recorded := world.recorded ++ (pmEntryId line).toList })
  | .replace lines => ((), if choice.ok then { world with registry := lines } else world)
  | .isProtected path => (pmProtected world.libraries path, world)
  | .isThere _ => (choice.ok, world)
  | .check => (choice.ok, world)

/-- The wrappers run without anybody else. -/
def machine : Script.Machine Call Call.Result Choice World :=
  fun call choice world => (call.perform choice world).map some id

/-- Others may mount and unmount before each operation of the cleanup but an unmount,
which the visibility check comes before. -/
def Call.others (choice : Choice) : Call → Option (Space × Bool)
  | .umount _ => none
  | _ => choice.meanwhile

def World.meanwhile (world : World) (call : Call) (choice : Choice) : World :=
  match call.others choice with
  | none => world
  | some (next, readable) => { world.change next with readable := readable }

def cleanupMachine : Script.Machine Call Call.Result Choice World :=
  fun call choice world => machine call choice (world.meanwhile call choice)

abbrev Program (α : Type) : Type :=
  Script Call Call.Result α

namespace Program

def issue (call : Call) : Program call.Result := Script.issue call

def idsAt (path : Text) : Program (Option (List Text)) := issue (.idsAt path)
def role (path id : Text) : Program (Option Table.Role) := issue (.role path id)
def count (path : Text) : Program (Option Nat) := issue (.count path)
def readable : Program Bool := issue .readable
def mktemp : Program Bool := issue .mktemp
def mkdir : Program Bool := issue .mkdir
def mount (args : List Text) : Program Nat := issue (.mount args)
def umount (args : List Text) : Program Nat := issue (.umount args)
def registry : Program (List Text) := issue .registry
def append (line : Text) : Program Unit := issue (.append line)
def replace (lines : List Text) : Program Unit := issue (.replace lines)
def isProtected (path : Text) : Program Bool := issue (.isProtected path)
def isThere (path : Text) : Program Bool := issue (.isThere path)
def check : Program Bool := issue .check

/-! ## Recording -/

def pmStoreId (id path : Text) : Program Unit := do
  match pmNorm path with
  | none => return ()
  | some norm =>
      if isNumber id = false then return ()
      else if ← isProtected norm then return ()
      else if !(← mkdir) then return ()
      else append (entry id norm)

/-- The ids that are there and were not there before. -/
def newIds (before after : List Text) : List Text :=
  after.filter fun id => isNumber id && !before.contains id

def pmRegisterNew (path : Text) (before : List Text) : Program Unit := do
  match pmNorm path with
  | none => return ()
  | some norm =>
      if !(← mktemp) then return ()
      else
        match ← idsAt norm with
        | none => return ()
        | some after =>
            if !(← mktemp) then return ()
            else
              match newIds before after with
              | [id] => pmStoreId id norm
              | _ => return ()

/-- The ids before a mount. A table that cannot be read counts as an empty one. -/
def pmWatch (path : Text) : Program (Option (List Text)) := do
  if !(← mktemp) then return none
  else return some ((← idsAt path).getD [])

/-- A line is kept unless it is for the path and its id is not there. -/
def keepsLine (path : Text) (ids : List Text) (line : Text) : Bool :=
  match cut tab line with
  | none => true
  | some (id, linePath) => !(linePath = path && !ids.contains id)

def pmReleaseGone (path : Text) : Program Unit := do
  match pmNorm path with
  | none => return ()
  | some norm =>
      if !(← mktemp) then return ()
      else
        match ← idsAt norm with
        | none => return ()
        | some ids =>
            if !(← mktemp) then return ()
            else replace ((← registry).filter fun line => line ≠ [] && keepsLine norm ids line)

def pmDropExact (line : Text) : Program Unit := do
  if !(← mktemp) then return ()
  else replace (((← registry).erase line).filter fun other => other ≠ [])

/-- The id is there, or that cannot be shown not to be so. -/
def pmIdStill (id path : Text) : Program Bool := do
  if !(← mktemp) then return true
  else
    match ← idsAt path with
    | none => return true
    | some ids => return ids.contains id

/-! ## The wrappers -/

/-- A word below the control directory, written with a second slash in front. -/
def isControlWord (arg : Text) : Bool :=
  arg = slash :: control || (slash :: control ++ [slash]).isPrefixOf arg

def pmNormOperand (arg : Text) : Program Text := do
  if isControlWord arg then
    if ← isThere (arg.drop 1) then return arg.drop 1 else return arg
  else return arg

/-- The words of the command, with their operands rewritten. -/
def rewrite : Bool → List Text → Program (List Text)
  | _, [] => return []
  | true, arg :: rest => return arg :: (← rewrite false rest)
  | false, arg :: rest => do
      if takesValue arg then return arg :: (← rewrite true rest)
      else if isOption arg then return arg :: (← rewrite false rest)
      else return (← pmNormOperand arg) :: (← rewrite false rest)

/-- `[ "$a" -gt "$b" ]`, which fails where a count could not be read. -/
def moreThan : Option Nat → Option Nat → Bool
  | some first, some second => second < first
  | _, _ => false

def pmCommit (path : Text) : Option (List Text) → Program Unit
  | none => return ()
  | some before => pmRegisterNew path before

section Wrappers

-- the helpers could be loaded
variable (loaded : Bool)

/-- `pmWatch`, where the helpers are there. -/
def watch (path : Text) : Program (Option (List Text)) :=
  if loaded then pmWatch path else return none

/-- `mount_count`, where the helpers are there, and 0. -/
def countBefore (path : Text) : Program (Option Nat) :=
  if loaded then count path else return some 0

def mountedAt (path : Text) : Program Bool := do
  return moreThan (← count path) (some 0)

def pmNoteUmount (path : Text) : Program Unit := do
  if loaded then pmReleaseGone path

def unmountWrapperBind : Program Bool := do
  if ← mountedAt wrap then return (← umount [wrap]) = 0 else return true

def failClosed : Program Nat := do
  let _ ← unmountWrapperBind
  pmNoteUmount loaded wrap
  if ← mountedAt weston then
    let _ ← umount [weston]
    pmNoteUmount loaded weston
    return 1
  else
    pmNoteUmount loaded weston
    return 1

/-- The checks and the rewriting of the wrapper script, each a step that may fail. -/
def wrapperReady : Nat → Program Bool
  | 0 => return true
  | left + 1 => do
      if ← check then wrapperReady left else return false

/-- The end of `prepare_panfrost_wrapper`, with nothing bound over the wrapper. -/
def bindWrapper : Program Nat := do
  if !(← wrapperReady 5) then failClosed loaded
  else
    let watched ← watch loaded wrap
    if (← mount [ascii "--bind", staged, wrap]) ≠ 0 then failClosed loaded
    else
      pmCommit wrap watched
      match ← count wrap with
      | none => return 0
      | some one => if one = 1 then return 0 else failClosed loaded

def preparePanfrostWrapper : Program Nat := do
  if !(← mountedAt weston) then failClosed loaded
  else if !(← check) then failClosed loaded
  else if !(← mountedAt wrap) then bindWrapper loaded
  else
    let one ← count wrap
    if one.all fun found => found = 1 then
      if (← umount [wrap]) ≠ 0 then failClosed loaded
      else
        pmNoteUmount loaded wrap
        bindWrapper loaded
    else failClosed loaded

def mountWeston (args : List Text) : Program Nat := do
  let before ← countBefore loaded weston
  let watched ← watch loaded weston
  let status ← mount args
  if status ≠ 0 then return status
  else
    let after ← count weston
    if after.any fun found => before.any fun earlier => found ≤ earlier then return 0
    else if moreThan after (some 1) then
      let _ ← umount [weston]
      return 1
    else
      pmCommit weston watched
      -- the selected driver
      if ← check then return 0 else preparePanfrostWrapper loaded

def mountOther (args : List Text) : Program Nat := do
  match if loaded then pmMountDest args else none with
  | none => mount args
  | some dest =>
      let before ← count dest
      let watched ← pmWatch dest
      let status ← mount args
      if status ≠ 0 then return status
      else if moreThan (← count dest) before then
        pmCommit dest watched
        return status
      else return status

def execMount (words : List Text) : Program Nat := do
  let args ← rewrite false words
  if westonMountDest args then mountWeston loaded args else mountOther loaded args

def execUmount (words : List Text) : Program Nat := do
  let args ← rewrite false words
  if westonUmountArgv args then
    if !(← unmountWrapperBind) then return 1
    else
      pmNoteUmount loaded wrap
      let status ← umount args
      if status = 0 then
        pmNoteUmount loaded weston
        return status
      else return status
  else
    let status ← umount args
    match if loaded then pmUmountTarget args else none with
    | none => return status
    | some target =>
        if status = 0 then
          pmNoteUmount loaded target
          return status
        else return status

end Wrappers

/-! ## The cleanup -/

structure Progress where
  progress : Bool
  /-- The lines whose unmount failed. -/
  blocked : List Text
  status : Nat

/-- Longest path first, and lines in their order as texts where paths are as long. -/
def ranked (lines : List Text) : List Text :=
  (lines.filter fun line => line ≠ []).mergeSort fun first second =>
    (pmEntryPath second).length < (pmEntryPath first).length ||
      ((pmEntryPath second).length = (pmEntryPath first).length && decide (first ≤ second))

def cleanupVisible (state : Progress) (line id path : Text) : Program Progress := do
  if (← umount [path]) = 0 then
    if ← pmIdStill id path then
      return { state with status := 1, blocked := state.blocked ++ [entry id path] }
    else
      pmDropExact line
      return { state with progress := true }
  else return { state with status := 1, blocked := state.blocked ++ [entry id path] }

def cleanupLine (state : Progress) (line : Text) : Program Progress := do
  let path := pmEntryPath line
  if path = [] then return state
  else if ← isProtected path then
    pmDropExact line
    return state
  else
    match pmEntryId line with
    | none => return state
    | some id =>
        if !(← readable) then return state
        else if state.blocked.contains (entry id path) then return state
        else
          match ← role path id with
          | some .absent =>
              pmDropExact line
              return { state with progress := true }
          | some .visible => cleanupVisible state line id path
          | _ => return state

def cleanupLines : List Text → Progress → Program Progress
  | [], state => return state
  | line :: rest, state => do cleanupLines rest (← cleanupLine state line)

/-- The passes, at most as many as are left. -/
def cleanupPasses : Nat → Progress → Program Progress
  | 0, state => return state
  | left + 1, state => do
      if !(← mktemp) then return { state with status := 1 }
      else
        let after ← cleanupLines (ranked (← registry)) { state with progress := false }
        if after.progress then cleanupPasses left after else return after

/-- What is left over is dropped when it is gone, and reported otherwise. -/
def reportLine (state : Progress) (line : Text) : Program Progress := do
  let path := pmEntryPath line
  if path = [] then return state
  else if ← isProtected path then
    pmDropExact line
    return state
  else
    match pmEntryId line with
    | none => return { state with status := 1 }
    | some id =>
        if state.blocked.contains (entry id path) then return state
        else if !(← readable) then return { state with status := 1 }
        else
          match ← role path id with
          | some .absent =>
              pmDropExact line
              return state
          | some .visible => return state
          | _ => return { state with status := 1 }

def reportLines : List Text → Progress → Program Progress
  | [], state => return state
  | line :: rest, state => do reportLines rest (← reportLine state line)

def pmCleanupOwned : Program Nat := do
  if !(← check) then return 1
  else if !(← mktemp) then return 1
  else
    let state ← cleanupPasses 64 ⟨false, [], 0⟩
    if !(← mktemp) then return 1
    else return (← reportLines ((← registry).filter fun line => line ≠ []) state).status

end Program

/-! ## Runs -/

inductive Event
  /-- Others mount and unmount, and the library list changes. -/
  | foreign (next : Option Space) (readable : Bool) (libraries : List Text)
  | mount (loaded : Bool) (words : List Text) (choices : List Choice)
  | umount (loaded : Bool) (words : List Text) (choices : List Choice)

def step (world : World) : Event → World
  | .foreign next readable libraries =>
      { (next.map world.change).getD world with readable := readable, libraries := libraries }
  | .mount loaded words choices => ((Program.execMount loaded words).exec machine choices world).2
  | .umount loaded words choices => ((Program.execUmount loaded words).exec machine choices world).2

end Zlyme.Portmaster
