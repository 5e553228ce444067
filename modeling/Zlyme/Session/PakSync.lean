import Zlyme.Foundation.Script

/-! # Copying the stock paks

What the frontend session does before the list: it compares the stamp on the card
with the image, and copies the stock paks of the image onto the card. No command of
the copy has its status looked at.
-/

namespace Zlyme.Session

open Foundation

/-! ## The image and the card -/

inductive Category
  | emus
  | tools
  deriving DecidableEq, Repr

/-- The stock paks of an image. A directory holds a name once. -/
structure Image (Pak : Type) where
  /-- `paks-version.txt`, empty when there is none. -/
  version : String
  /-- The directories below `paks`, with their `*.pak` in the order of a glob. -/
  paks : Category → Option (List (String × Pak))
  /-- `paks/Tools/map.txt` is there. -/
  toolsMap : Bool
  distinct : ∀ category stock, paks category = some stock → (stock.map Prod.fst).Nodup

/-- What is under the name of a pak on the card. -/
inductive Entry (Pak : Type)
  | absent
  /-- Something that is not a directory. -/
  | other
  | dir (content : Pak)
  deriving DecidableEq, Repr

structure Card (Pak : Type) where
  /-- `/storage/Emus/my355` and `/storage/Tools/my355`, when they are directories. -/
  dirs : Category → Option (String → Entry Pak)
  /-- `paks-version`, empty when it cannot be read. -/
  stamp : String
  /-- `paks-copying` -/
  lock : Bool
  /-- `factory-reset` -/
  factory : Bool
  /-- `paks-copy-reboot` -/
  copyReboot : Bool

variable {Pak : Type}

def Card.entry (card : Card Pak) (category : Category) (name : String) : Entry Pak :=
  match card.dirs category with
  | none => .absent
  | some entries => entries name

/-- A change below a directory; nothing happens without the directory. -/
def Card.setEntry (card : Card Pak) (category : Category) (name : String) (entry : Entry Pak) :
    Card Pak :=
  match card.dirs category with
  | none => card
  | some entries =>
      { card with
        dirs := fun other =>
          if other = category then some fun one => if one = name then entry else entries one
          else card.dirs other }

/-! ## Operations -/

inductive Call (Pak : Type)
  | inspect
  | createLock
  | sync
  | makeDir (category : Category)
  /-- `rm -rf` of one pak. -/
  | removePak (category : Category) (name : String)
  /-- `cp -a` of one pak. -/
  | copyPak (category : Category) (name : String) (content : Pak)
  | cardDefaults
  | writeStamp (version : String)
  | removeFactory
  | removeLock
  | markCopyReboot
  | clearCopyReboot
  | reboot

@[reducible] def Call.Result : Call Pak → Type
  | .inspect => Card Pak
  | _ => Unit

/-- What the environment decides about one operation. -/
structure Choice (Pak : Type) where
  ok : Bool
  powerLost : Bool
  /-- What a failed removal or copy leaves. -/
  left : Entry Pak
  /-- What a failed write of the stamp leaves. -/
  text : String

/-- `cp -a` into a directory that exists nests, and over a file fails. -/
def Card.copyPak (card : Card Pak) (category : Category) (name : String) (content : Pak)
    (choice : Choice Pak) : Card Pak :=
  match card.entry category name with
  | .absent => card.setEntry category name (if choice.ok then .dir content else choice.left)
  | _ => card.setEntry category name choice.left

def Card.makeDir (card : Card Pak) (category : Category) : Card Pak :=
  { card with
    dirs := fun other =>
      if other = category then some ((card.dirs category).getD fun _ => .absent)
      else card.dirs other }

def Call.perform (choice : Choice Pak) (card : Card Pak) :
    (call : Call Pak) → call.Result × Card Pak
  | .inspect => (card, card)
  | .createLock => ((), if choice.ok then { card with lock := true } else card)
  | .sync => ((), card)
  | .makeDir category => ((), if choice.ok then card.makeDir category else card)
  | .removePak category name =>
      ((), card.setEntry category name (if choice.ok then .absent else choice.left))
  | .copyPak category name content => ((), card.copyPak category name content choice)
  | .cardDefaults => ((), card)
  | .writeStamp version => ((), { card with stamp := if choice.ok then version else choice.text })
  | .removeFactory => ((), if choice.ok then { card with factory := false } else card)
  | .removeLock => ((), if choice.ok then { card with lock := false } else card)
  | .markCopyReboot => ((), if choice.ok then { card with copyReboot := true } else card)
  | .clearCopyReboot => ((), if choice.ok then { card with copyReboot := false } else card)
  | .reboot => ((), card)

/-- Power is lost during an operation, which then does what a failed one does. A
reboot does not return. -/
def machine : Script.Machine (Call Pak) Call.Result (Choice Pak) (Card Pak) :=
  fun call choice card =>
    if choice.powerLost then (none, (call.perform { choice with ok := false } card).2)
    else
      match call with
      | .reboot => (none, card)
      | call => (call.perform choice card).map some id

abbrev Program (Pak α : Type) : Type :=
  Script (Call Pak) Call.Result α

/-! ## The session -/

/-- The variables the session reads at its start. -/
structure Variables where
  cardVer : String
  factory : Bool
  interrupted : Bool
  deriving DecidableEq, Repr

def Variables.read (card : Card Pak) : Variables :=
  ⟨card.stamp, card.factory, card.lock⟩

section Session

variable (hasLaunch : Pak → Bool) (image : Image Pak)

/-- `[ -d "$dest" ] && [ -f "$dest/launch.sh" ]` -/
def Entry.present : Entry Pak → Bool
  | .dir content => hasLaunch content
  | _ => false

def overwrites (start : Variables) : Bool :=
  start.factory || start.interrupted ||
    (image.version ≠ "" && image.version ≠ start.cardVer)

def stockPaksReady (start : Variables) (card : Card Pak) : Bool :=
  if card.lock then false
  else if start.factory then false
  else if !((card.dirs .emus).isSome && (card.dirs .tools).isSome) then false
  else if image.version ≠ "" then image.version = start.cardVer
  else
    [Category.emus, Category.tools].all fun category =>
      ((image.paks category).getD []).all fun pak =>
        pak.1 = "Update.pak" || (card.entry category pak.1).present hasLaunch

namespace Program

def issue (call : Call Pak) : Program Pak call.Result := Script.issue call

def inspect : Program Pak (Card Pak) := issue .inspect
def createLock : Program Pak Unit := issue .createLock
def sync : Program Pak Unit := issue .sync
def makeDir (category : Category) : Program Pak Unit := issue (.makeDir category)
def removePak (category : Category) (name : String) : Program Pak Unit :=
  issue (.removePak category name)
def copyPak (category : Category) (name : String) (content : Pak) : Program Pak Unit :=
  issue (.copyPak category name content)
def cardDefaults : Program Pak Unit := issue .cardDefaults
def writeStamp (version : String) : Program Pak Unit := issue (.writeStamp version)
def removeFactory : Program Pak Unit := issue .removeFactory
def removeLock : Program Pak Unit := issue .removeLock
def markCopyReboot : Program Pak Unit := issue .markCopyReboot
def clearCopyReboot : Program Pak Unit := issue .clearCopyReboot
def reboot : Program Pak Unit := issue .reboot

/-- The loop of a full copy into a new directory. -/
def copyAll (category : Category) : List (String × Pak) → Program Pak Unit
  | [] => pure ()
  | (name, content) :: rest => do
      if name ≠ "Update.pak" then copyPak category name content
      copyAll category rest

/-- One pak of the loop over a directory that is there. -/
def repair (overwrite : Bool) (category : Category) (name : String) (content : Pak) :
    Program Pak Unit := do
  if overwrite then
    removePak category name
    copyPak category name content
  else
    let card ← inspect
    if !(card.entry category name).present hasLaunch then
      removePak category name
      copyPak category name content

def repairAll (overwrite : Bool) (category : Category) : List (String × Pak) → Program Pak Unit
  | [] => pure ()
  | (name, content) :: rest => do
      if name ≠ "Update.pak" then repair hasLaunch overwrite category name content
      repairAll overwrite category rest

def copyStockPaks (start : Variables) (category : Category) : Program Pak Unit := do
  match image.paks category with
  | none => return ()
  | some stock =>
      if ((← inspect).dirs category).isNone then
        makeDir category
        copyAll category stock
      else repairAll hasLaunch (overwrites image start) category stock

/-- The end of a copy. The variable `factory` is still the one read at the start. -/
def finishCopy (start : Variables) : Program Pak Unit := do
  removePak .tools "Update.pak"
  removePak .emus "RUFFLE.pak"
  cardDefaults
  if image.version ≠ "" then writeStamp image.version
  let cardVer := if image.version ≠ "" then image.version else start.cardVer
  removeFactory
  removeLock
  sync
  if !stockPaksReady hasLaunch image { start with cardVer := cardVer } (← inspect) then
    if !(← inspect).copyReboot then
      markCopyReboot
      sync
      reboot
  else clearCopyReboot

def pakSync : Program Pak Unit := do
  let start := Variables.read (← inspect)
  removePak .tools "Update.pak"
  if stockPaksReady hasLaunch image start (← inspect) then cardDefaults
  else
    createLock
    sync
    copyStockPaks hasLaunch image start .emus
    copyStockPaks hasLaunch image start .tools
    finishCopy hasLaunch image start

/-- The map goes into a directory that is made for it. -/
def ensureToolsMap : Program Pak Unit := do
  if image.toolsMap then makeDir .tools

def session : Program Pak Unit := do
  pakSync hasLaunch image
  ensureToolsMap image

end Program

/-- One session. Where its choices end, power is lost. -/
def sessionStep (card : Card Pak) (choices : List (Choice Pak)) : Card Pak :=
  ((Program.session hasLaunch image).exec machine choices card).2

end Session

end Zlyme.Session
