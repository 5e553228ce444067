import Zlyme.Games.Tree
import Mathlib.Data.List.Dedup
import Mathlib.Data.List.Sort

/-! # Delete Game

`delete_rom` of `zlyme-game-cleanup.sh`: the list of files that go with a game,
its preference row, and the removal in the order of the script.
-/

namespace Zlyme.Games

open Foundation.Text
open Prefs (Text ascii slash)

/-! ## The game -/

def pathPartsSafe (path : Text) : Bool :=
  path.head? == some slash && !hasInfix (ascii "//") path &&
    ((path.drop 1).splitOn slash).all fun part => part != ascii "." && part != ascii ".."

/-- The folders on the way from `root` to a path, and the path. -/
def pathWalk (root path : Text) : List Text :=
  let inner := relativeTo root path
  ((inner :: heads slash inner).map (joinPath root)).reverse

def pathWalkFile (tree : Tree) (root path : Text) : Bool :=
  (pathWalk root path).all (fun part => !tree.isLink part) &&
    tree.isFile (joinPath root (relativeTo root path))

/-- `ROM_TAG` and `ROM_REL`. -/
structure Scope where
  tag : Text
  rel : Text
  deriving DecidableEq, Repr

/-- `ROM_BADGE` with the slash after it. -/
def badgeOf (setup : Setup) (library : Text) : Text :=
  if library = setup.sd2Root then ascii "SD2/"
  else if isBelow setup.mediaRoot library then baseName library ++ [slash]
  else []

def romScope (setup : Setup) (rom library : Text) : Option Scope := do
  let roms ←
    if isBelow (joinPath library (ascii "Roms")) rom then some (joinPath library (ascii "Roms"))
    else if isBelow (joinPath library (ascii "roms")) rom then some (joinPath library (ascii "roms"))
    else none
  if hasInfix (ascii "/.media/") rom || hasInfix (ascii "/.config/") rom then none
  else
    let (console, inner) ← cut slash (relativeTo roms rom)
    let tag ← tagOfConsole console
    return ⟨tag, badgeOf setup library ++ inner⟩

/-! ## Other games -/

/-- The games of a tag in one library. -/
def romFiles (tree : Tree) (root tag : Text) : List Text :=
  (consoleDirs tree root tag).flatMap fun dir =>
    (tree.find dir).filter fun path => !hasInfix (ascii "/.media/") path && !isHidden path

/-- What fails or changes during one run. -/
structure Host where
  /-- Whether `save_stem_taken` and `art_is_shared` get their temporary files. -/
  stemList : Bool
  artList : Bool
  /-- Whether `file_mark` stays the same until the three later checks. -/
  sameBeforePrefs : Bool
  sameBeforeFiles : Bool
  sameBeforeRom : Bool
  /-- Whether `drop_rom_pref` gets its lock and its temporary file. -/
  prefsLock : Bool
  /-- How `rewrite_prefs` ends. -/
  prefs : Prefs.WriteResult
  recent : Bool
  removes : Text → Bool

def saveStemTaken (host : Host) (tree : Tree) (stem tag self root : Text) : Bool :=
  tree.isDir root && host.stemList &&
    (romFiles tree root tag).any fun path =>
      path != self && withoutSuffix (baseName path) == stem

def artIsShared (host : Host) (tree : Tree) (dir stem self : Text) : Bool :=
  host.artList && (tree.findWithin dir 1).any fun path =>
    path != self && !isHidden path && withoutSuffix (baseName path) == stem

/-! ## The list of files -/

/-- A save that goes with the game: its name without one suffix, or without two,
is the game's name without its suffix. -/
def isSaveOf (stem path : Text) : Bool :=
  let s1 := withoutSuffix (baseName path)
  isSaveName (baseName path) && (s1 == stem || withoutSuffix s1 == stem)

def savesOf (host : Host) (tree : Tree) (saveRoot tag stem rom : Text) : List Text :=
  let dir := joinPath (joinPath saveRoot (ascii "Saves")) tag
  if tree.isDir dir && !saveStemTaken host tree stem tag rom saveRoot then
    (tree.find dir).filter (isSaveOf stem)
  else []

def artSuffixes : List Text :=
  [ascii ".png", ascii ".jpg", ascii ".jpeg"]

def artOf (host : Host) (tree : Tree) (parent stem rom : Text) : List Text :=
  let dir := joinPath parent (ascii ".media")
  if tree.isDir dir && !artIsShared host tree parent stem rom then
    (artSuffixes.map fun suffix => joinPath dir (stem ++ suffix)).filter fun path =>
      tree.isFile path && !tree.isLink path
  else []

/-- The mark that Splore was installed, for a game `*[Ss]plore*`. -/
def markerOf (setup : Setup) (rom : Text) : Option Text :=
  if hasInfix (ascii "Splore") (baseName rom) || hasInfix (ascii "splore") (baseName rom) then
    some (setup.storage ++ ascii "/.config/nextui/shared/Pico-8-native/splore-installed")
  else none

/-- What a run knows of the game before it lists files. -/
structure Target where
  rom : Text
  library : Text
  saveRoot : Text
  scope : Scope
  stem : Text
  parent : Text
  marker : Option Text
  deriving DecidableEq, Repr

def targetOf (setup : Setup) (tree : Tree) (rom : Text) : Option Target := do
  guard (pathPartsSafe rom)
  let library ← romLibrary setup rom
  guard (libIsPresent setup tree library)
  guard (pathWalkFile tree library rom)
  let scope ← romScope setup rom library
  guard (tree.isFile rom)
  return {
    rom
    library
    saveRoot :=
      if setup.hasLibraryScript then zlymeSaveRoot setup tree rom scope.tag else library
    scope
    stem := withoutSuffix (baseName rom)
    parent := dirName rom
    marker := markerOf setup rom }

/-- `sort -u` -/
def sortUnique (paths : List Text) : List Text :=
  (paths.insertionSort fun first second => !decide (second < first)).dedup

theorem mem_sortUnique {paths : List Text} {path : Text} :
    path ∈ sortUnique paths ↔ path ∈ paths := by
  rw [sortUnique, List.mem_dedup, List.mem_insertionSort]

def Target.list (host : Host) (tree : Tree) (target : Target) : List Text :=
  sortUnique (target.rom ::
    (savesOf host tree target.saveRoot target.scope.tag target.stem target.rom ++
      artOf host tree target.parent target.stem target.rom ++
      target.marker.toList.filter fun marker => tree.isFile marker && !tree.isLink marker))

def deleteAllowed (tree : Tree) (target : Target) (path : Text) : Bool :=
  tree.isFile path && !tree.isLink path &&
    (path == target.rom || target.marker == some path ||
      isBelow (joinPath (joinPath target.saveRoot (ascii "Saves")) target.scope.tag) path ||
      (isBelow (joinPath target.parent (ascii ".media")) path &&
        artSuffixes.any fun suffix => baseName path == target.stem ++ suffix))

/-! ## The preference row -/

def Scope.hasRow (scope : Scope) (line : Text) : Bool :=
  match romRow line with
  | some (tag, rel) => foldText tag == foldText scope.tag && rel == scope.rel
  | none => false

/-- The file after the call, and whether it succeeded. -/
def dropRomPref (host : Host) (scope : Scope) (prefs : Option Text) : Option Text × Bool :=
  match prefs with
  | none => (none, true)
  | some text => rewriteWithout host.prefsLock host.prefs scope.hasRow text

/-! ## The removal -/

/-- The loop that removes files: the removed ones, and whether it ran to its end. -/
def removeFiles (host : Host) (tree : Tree) (target : Target) : List Text → List Text × Bool
  | [] => ([], true)
  | path :: rest =>
      if path = [] ∨ path = target.rom then removeFiles host tree target rest
      else if deleteAllowed tree target path && host.removes path then
        let (removed, ended) := removeFiles host tree target rest
        (path :: removed, ended)
      else ([], false)

/-- What a run leaves: the files that are gone and the preference file. -/
structure Outcome where
  removed : List Text
  prefs : Option Text
  completed : Bool

/-- The rest of `delete_rom`, once the files are listed. -/
def deleteTarget (host : Host) (tree : Tree) (prefs : Option Text) (target : Target) : Outcome :=
  let list := target.list host tree
  let others := list.filter fun path => path != [] && path != target.rom
  if !host.sameBeforePrefs || !others.all (deleteAllowed tree target) then ⟨[], prefs, false⟩
  else
    match dropRomPref host target.scope prefs with
    | (left, false) => ⟨[], left, false⟩
    | (left, true) =>
        if !host.recent || !host.sameBeforeFiles then ⟨[], left, false⟩
        else
          match removeFiles host tree target list with
          | (removed, false) => ⟨removed, left, false⟩
          | (removed, true) =>
              if host.sameBeforeRom && host.removes target.rom then
                ⟨removed ++ [target.rom], left, true⟩
              else ⟨removed, left, false⟩

/-- `delete_rom`. A dry run only prints the list. -/
def deleteRom (setup : Setup) (host : Host) (dry : Bool) (tree : Tree) (prefs : Option Text)
    (rom : Text) : Outcome :=
  match targetOf setup tree rom with
  | none => ⟨[], prefs, false⟩
  | some target => if dry then ⟨[], prefs, true⟩ else deleteTarget host tree prefs target

end Zlyme.Games
