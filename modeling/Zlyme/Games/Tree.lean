import Zlyme.Games.PrefRows
import Mathlib.Data.List.Infix

/-! # Files and names as the scripts see them

The tests, globs and `find` calls of `zlyme-game-cleanup.sh` and of
`zlyme-library.sh`, and how these take a path apart.
-/

namespace Zlyme.Games

open Foundation.Text
open Prefs (Text ascii slash toLower)

def dot : UInt8 :=
  0x2e

/-! ## Names -/

/-- `basename`, or `${path##*/}`. -/
def baseName (path : Text) : Text :=
  match cutLast slash path with
  | some (_, name) => name
  | none => path

/-- `dirname` of a path with a folder. -/
def dirName (path : Text) : Text :=
  match cutLast slash path with
  | some (parent, _) => parent
  | none => ascii "."

/-- `${name%.*}` -/
def withoutSuffix (name : Text) : Text :=
  match cutLast dot name with
  | some (stem, _) => stem
  | none => name

def isHidden (path : Text) : Bool :=
  (baseName path).head? == some dot

/-- The path `"$dir"/$name`. -/
def joinPath (dir name : Text) : Text :=
  dir ++ slash :: name

/-- The pattern `"$dir"/*`, where `*` also takes slashes. -/
def isBelow (dir path : Text) : Bool :=
  (dir ++ [slash]).isPrefixOf path

/-- `${path#"$dir"/}` -/
def relativeTo (dir path : Text) : Text :=
  if isBelow dir path then path.drop (dir.length + 1) else path

/-- The pattern `*infix*`. -/
def hasInfix (inner path : Text) : Bool :=
  decide (inner <:+: path)

/-- A byte of a pattern, where `#` stands for `[0-9]`. -/
def isWanted (wanted byte : UInt8) : Bool :=
  if wanted = 0x23 then 0x30 ≤ byte && byte ≤ 0x39 else wanted == byte

def startsAs : List UInt8 → Text → Bool
  | [], _ => true
  | _ :: _, [] => false
  | wanted :: pattern, byte :: text => isWanted wanted byte && startsAs pattern text

/-- The pattern `*suffix`. -/
def hasSuffix (suffix name : Text) : Bool :=
  startsAs suffix.reverse name.reverse

/-- `fold_text` in the C locale. -/
def foldText (text : Text) : Text :=
  text.map toLower

def tagOfConsole (path : Text) : Option Text :=
  match cutLast 0x28 (baseName path) with
  | none => none
  | some (_, rest) =>
      let tag :=
        match cut 0x29 rest with
        | some (tag, _) => tag
        | none => rest
      if tag = [] then none else some tag

/-! ## Saves -/

/-- The suffixes of `is_save_name`. -/
def saveSuffixes : List Text :=
  [ascii ".sav", ascii ".srm", ascii ".state", ascii ".state#", ascii ".state.#", ascii ".st#",
    ascii ".auto", ascii ".rtc", ascii ".mcr", ascii ".eep", ascii ".fla", ascii ".nv"]

def isSaveName (name : Text) : Bool :=
  saveSuffixes.any fun suffix => hasSuffix suffix name

/-- The suffixes of `zlyme_save_matches_rom`. -/
def matchSuffixes : List Text :=
  saveSuffixes ++ [ascii ".dsv", ascii ".dst"]

def zlymeSaveMatchesRom (name stem stem2 : Text) : Bool :=
  let s1 := withoutSuffix name
  let s2 := withoutSuffix s1
  (matchSuffixes.any fun suffix => hasSuffix suffix name) &&
    (s1 == stem || s1 == stem2 || s2 == stem || s2 == stem2)

/-! ## Trees -/

/-- The paths for which `[ -f ]`, `[ -d ]` and `[ -L ]` hold. No name has a
newline, so that a list of paths is read back path by path. -/
structure Tree where
  files : List Text
  dirs : List Text
  links : List Text
  unbroken : (files ++ dirs).all (fun path => decide (0x0a ∉ path)) = true

def Tree.isFile (tree : Tree) (path : Text) : Bool :=
  decide (path ∈ tree.files)

def Tree.isDir (tree : Tree) (path : Text) : Bool :=
  decide (path ∈ tree.dirs)

def Tree.isLink (tree : Tree) (path : Text) : Bool :=
  decide (path ∈ tree.links)

/-- `find "$dir" -type f`, which follows no link, not `dir` itself either. -/
def Tree.find (tree : Tree) (dir : Text) : List Text :=
  tree.files.filter fun path =>
    isBelow dir path &&
      (path :: heads slash path).all fun part =>
        !(tree.isLink part && (part == dir || isBelow dir part))

/-- `find "$dir" -maxdepth depth -type f` -/
def Tree.findWithin (tree : Tree) (dir : Text) (depth : Nat) : List Text :=
  (tree.find dir).filter fun path => decide ((relativeTo dir path).count slash < depth)

/-- The folders among `"$dir"/*`. -/
def Tree.folders (tree : Tree) (dir : Text) : List Text :=
  tree.dirs.filter fun path =>
    cutLast slash path == some (dir, baseName path) && baseName path != [] && !isHidden path

/-- The console folders of a tag in one library. -/
def consoleDirs (tree : Tree) (root tag : Text) : List Text :=
  ([joinPath root (ascii "Roms"), joinPath root (ascii "roms")].filter tree.isDir).flatMap
    fun roms => (tree.folders roms).filter fun dir =>
      match tagOfConsole dir with
      | some got => foldText got == foldText tag
      | none => false

/-! ## Libraries -/

/-- `case "$path" in "$root"|"$root"/*)` -/
def isIn (root path : Text) : Bool :=
  path == root || isBelow root path

/-- The longest of the roots that a path is in. -/
def bestRoot (roots : List Text) (path : Text) : Text :=
  roots.foldl (fun best root =>
    if root ≠ [] ∧ isIn root path = true ∧ best.length < root.length then root else best) []

/-- `awk -F/ '{ print "/" $2 "/" $3 "/" $4 }'` -/
def firstThree (path : Text) : Text :=
  let field := fun index => ((path.splitOn slash)[index]?).getD []
  slash :: (field 1 ++ slash :: (field 2 ++ slash :: field 3))

/-- The variables of the environment and the registry of the libraries. -/
structure Setup where
  storage : Text
  sd2Root : Text
  mediaRoot : Text
  libraries : Option Text
  hasLibraryScript : Bool

def romLibrary (setup : Setup) (path : Text) : Option Text :=
  let best := bestRoot ((setup.libraries.map readWholeLines).getD []) path
  if best ≠ [] then some best
  else if isIn (ascii "/mnt/sd2") path then some (ascii "/mnt/sd2")
  else if isBelow (ascii "/mnt/media") path &&
      decide (slash ∈ relativeTo (ascii "/mnt/media") path) then
    some (firstThree path)
  else if isIn (ascii "/storage") path then some (ascii "/storage")
  else none

def libIsPresent (setup : Setup) (tree : Tree) (root : Text) : Bool :=
  root != [] && tree.isDir root &&
    match setup.libraries with
    | none => root == setup.storage
    | some text => (readLines text).any fun row => row.filter (· != 0x0d) == root

/-- `zlyme_library_root` -/
def zlymeLibraryRoot (setup : Setup) (path : Text) : Text :=
  let best := bestRoot ((setup.libraries.map readLines).getD []) path
  if best ≠ [] then best
  else if isIn (ascii "/mnt/sd2") path then ascii "/mnt/sd2"
  else if isBelow (ascii "/mnt/media") path then firstThree path
  else ascii "/storage"

def zlymeEachLibrary (setup : Setup) : List Text :=
  match setup.libraries with
  | some text => (readLines text).filter (· != [])
  | none => [ascii "/storage"]

/-! ## The library of a game's saves -/

def zlymeDirHasFiles (tree : Tree) (dir : Text) : Bool :=
  tree.isDir dir && !(tree.findWithin dir 2).isEmpty

/-- The suffixes that are tried one folder below. -/
def nestedSuffixes : List Text :=
  [ascii ".sav", ascii ".srm", ascii ".state", ascii ".dsv", ascii ".dst"]

/-- Whether a file is `dir/base` with one of the suffixes, or `dir/*/base` with one
of the nested ones. -/
def isNamed (dir base path : Text) : Bool :=
  let here := joinPath dir base
  (matchSuffixes.any fun suffix =>
    path.length == here.length + suffix.length && here.isPrefixOf path && hasSuffix suffix path) ||
  nestedSuffixes.any fun suffix =>
    baseName path == base ++ suffix && !isHidden (dirName path) &&
      cutLast slash (dirName path) == some (dir, baseName (dirName path)) &&
      baseName (dirName path) != []

def zlymeDirExact (tree : Tree) (dir stem stem2 : Text) : Bool :=
  tree.isDir dir && [stem, stem2].any fun base =>
    base != [] && tree.files.any fun path =>
      isNamed dir base path && zlymeSaveMatchesRom (baseName path) stem stem2

/-- `zlyme_save_root` -/
def zlymeSaveRoot (setup : Setup) (tree : Tree) (rom tag : Text) : Text :=
  let romlib := zlymeLibraryRoot setup rom
  let stem := withoutSuffix (baseName rom)
  let stem2 := withoutSuffix stem
  let saves := fun root => joinPath (joinPath root (ascii "Saves")) tag
  let exact := fun root => zlymeDirExact tree (saves root) stem stem2
  let loose := fun root => zlymeDirHasFiles tree (saves root)
  let others := (zlymeEachLibrary setup).filter (· != romlib)
  if exact romlib then romlib
  else
    match others.find? exact with
    | some other => other
    | none =>
        if loose romlib then romlib
        else (others.find? fun root => !exact root && loose root).getD romlib

end Zlyme.Games
