import Zlyme.Pak.ProcStat
import Zlyme.Portmaster.Attachment

/-! # Save binds

`ppsspp-binds.sh` and `flycast-binds.sh` bind the save directories of a card over the ones of
the emulator before it starts. A bind is owned when its mount id is stored in the bind record,
which is a registry of the mount identity helper.
-/

namespace Zlyme.Pak.SaveBinds

open Foundation Foundation.MountTree Zlyme.Portmaster

/-! ## Paths -/

def space : UInt8 :=
  0x20

/-- What the two scripts differ in. -/
structure Launcher where
  bindsFile : Text
  unresolvedFile : Text
  /-- What a destination ends in. -/
  endings : List Text
  named : (endings.all fun ending => ending.getLast?.any (· ≠ slash)) = true

def ppsspp : Launcher where
  bindsFile := ascii "/tmp/zlyme-ppsspp-binds"
  unresolvedFile := ascii "/tmp/zlyme-ppsspp-unresolved"
  endings := [ascii "/.config/ppsspp/PSP/SAVEDATA", ascii "/.config/ppsspp/PSP/PPSSPP_STATE"]
  named := by decide

def flycast : Launcher where
  bindsFile := ascii "/tmp/zlyme-flycast-binds"
  unresolvedFile := ascii "/tmp/zlyme-flycast-unresolved"
  endings := [ascii "/.local/share/flycast"]
  named := by decide

def Launcher.destOk (launcher : Launcher) (path : Text) : Bool :=
  !(path = [] || decide (ascii ".." <:+: path) || decide (ascii "//" <:+: path) ||
      path.contains space) &&
    launcher.endings.any (·.isSuffixOf path) &&
    !([ascii "/", ascii "/boot", ascii "/storage", ascii "/mnt/sd2", ascii "/mnt/media"].contains path)

def ppssppDestOk : Text → Bool :=
  ppsspp.destOk

def flycastDestOk : Text → Bool :=
  flycast.destOk

/-! ## Operations -/

inductive Op
  /-- An operation that the mount identity helper has too. -/
  | helper (call : Call)
  /-- The `mktemp` of the second list of ids. -/
  | mktempAfter
  /-- `mv` of the scrubbed record over the old one. -/
  | install (lines : List Text)
  deriving DecidableEq, Repr

@[reducible] def Op.Result : Op → Type
  | .helper call => call.Result
  | .mktempAfter => Bool
  | .install _ => Bool

abbrev Binds (α : Type) : Type :=
  Script Op Op.Result α

/-- `ppsspp_pm` and `flycast_pm`: the helper with the bind record for its registry. -/
def pm {α : Type} (program : Program α) : Binds α :=
  program.embed Op.helper fun _ => id

namespace Binds

def mktempAfter : Binds Bool := Script.issue Op.mktempAfter
def install (lines : List Text) : Binds Bool := Script.issue (Op.install lines)

/-! ## The record -/

section Launchers

variable (launcher : Launcher)

/-- A line without a provable id, or for another path, is dropped. -/
def scrubLine (line : Text) : Option Text :=
  (pmEntryId line).bind fun id =>
    if launcher.destOk (pmEntryPath line) then some (entry id (pmEntryPath line)) else none

def scrub : Binds Bool := do
  if !(← pm (Program.isThere launcher.bindsFile)) then return true
  -- the record is a symlink
  else if !(← pm Program.check) then return false
  else if !(← pm Program.mktemp) then return false
  else install ((← pm Program.registry).filterMap (scrubLine launcher))

/-- The loop of `path_owned_visible`. -/
def ownedVisible (path : Text) : List Text → Binds Bool
  | [] => return false
  | line :: rest =>
      match pmEntryId line with
      | none => ownedVisible path rest
      | some id =>
          if pmEntryPath line ≠ path then ownedVisible path rest
          else do
            match ← pm (Program.role path id) with
            | none => return false
            | some .visible => return true
            | some _ => ownedVisible path rest

def pathOwnedVisible (path : Text) : Binds Bool := do
  if !(← pm (Program.isThere launcher.bindsFile)) then return false
  else ownedVisible path (← pm Program.registry)

/-! ## One bind -/

/-- The ids that are new at the destination. A table that cannot be read shows none. -/
def newAfter (dest : Text) (before : List Text) : Binds (List Text) := do
  if !(← mktempAfter) then return []
  else return Program.newIds before ((← pm (Program.idsAt dest)).getD [])

/-- A bind that was not recorded is removed, or else recorded. -/
def undo (dest id : Text) : Binds Bool := do
  if (← pm (Program.umount [dest])) = 0 then return false
  else
    pm (Program.pmStoreId id dest)
    -- what it prints depends on this, and the status does not
    let _ ← pathOwnedVisible launcher dest
    return false

/-- The end of `bind_one`, where the bind is not recorded as the visible one. -/
def notOwned (dest : Text) (before : List Text) : Binds Bool := do
  match ← newAfter dest before with
  | [id] =>
      match ← pm (Program.role dest id) with
      | some .visible => undo launcher dest id
      | _ => return false
  | _ => return false

def bindOne (source dest : Text) : Binds Bool := do
  if !launcher.destOk dest then return false
  -- the save directory is missing
  else if !(← pm (Program.isThere source)) then return false
  else if !(← pm Program.mktemp) then return false
  else
    match ← pm (Program.idsAt dest) with
    | none => return false
    | some before =>
        if before ≠ [] then return false
        else if (← pm (Program.mount [ascii "--bind", source, dest])) ≠ 0 then return false
        else
          pm (Program.pmRegisterNew dest before)
          if ← pathOwnedVisible launcher dest then return true
          else notOwned launcher dest before

/-- The loop of `release_path`. It reads the record as it was before the loop. -/
def releaseLines (path : Text) : List Text → Binds Unit
  | [] => return ()
  | line :: rest =>
      if line = [] ∨ pmEntryPath line ≠ path then releaseLines path rest
      else
        match pmEntryId line with
        | none => releaseLines path rest
        | some id => do
            match ← pm (Program.role path id) with
            | none => return ()
            | some .visible =>
                if (← pm (Program.umount [path])) = 0 then
                  pm (Program.pmDropExact line)
                  releaseLines path rest
                else releaseLines path rest
            | some _ => releaseLines path rest

/-- The status of `release_path` is not asked for. -/
def releasePath (path : Text) : Binds Unit := do
  if !(← pm (Program.isThere launcher.bindsFile)) then return ()
  else releaseLines path (← pm Program.registry)

/-! ## Before the start -/

/-- The helper is there, no session is unresolved, and there is a bind record. -/
def ready : Binds Bool := do
  if !(← pm Program.check) then return false
  else if ← pm (Program.isThere launcher.unresolvedFile) then return false
  -- the record is a symlink or a directory
  else if !(← pm Program.check) then return false
  else if !(← pm Program.mkdir) then return false
  -- it is not there, and cannot be made
  else if !(← pm Program.check) then return false
  else scrub launcher

end Launchers

def ppssppBindOne : Text → Text → Binds Bool :=
  bindOne ppsspp

def ppssppReleasePath : Text → Binds Unit :=
  releasePath ppsspp

def flycastBindOne : Text → Text → Binds Bool :=
  bindOne flycast

def ppssppPrepare (source₁ source₂ dest₁ dest₂ : Text) : Binds Nat := do
  if !(← ready ppsspp) then return 1
  else if !(← ppssppBindOne source₁ dest₁) then return 1
  else if !(← ppssppBindOne source₂ dest₂) then
    ppssppReleasePath dest₁
    return 1
  else return 0

def flycastPrepare (source dest : Text) : Binds Nat := do
  if !(← ready flycast) then return 1
  else if ← flycastBindOne source dest then return 0
  else return 1

end Binds

end Zlyme.Pak.SaveBinds
