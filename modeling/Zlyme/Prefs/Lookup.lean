import Zlyme.Prefs.Store

/-! # The lookups of the menu and of the launcher

`prefsLookup` of `zlyme_prefs.c`, and `zlyme_pref_lookup` of `zlyme-library.sh`,
which reads the same file with awk.
-/

namespace Zlyme.Prefs

open Foundation.Text

/-! ## The menu -/

/-- `prefsGetExact`, and whether it filled one of its buffers. -/
def prefsGetSet (maxPath : Nat) (kind tag rel : Text) (gn en : Nat) (w : World) :
    World × Option Value :=
  match prefsGetExact maxPath kind tag rel gn en w with
  | (w, gov, emu) => (w, if gov ≠ [] ∨ emu ≠ [] then some (gov, emu) else none)

/-- The loop over the parents of `work`, and the search after it. -/
def lookupFolders (maxPath : Nat) (tag : Text) (gn en : Nat) (w : World) (work : Text) :
    World × Option Value :=
  match _isCut : cutLast slash work with
  | some (parent, _) =>
      match prefsGetSet maxPath (ascii "folder") tag parent gn en w with
      | (w, some value) => (w, some value)
      | (w, none) => lookupFolders maxPath tag gn en w parent
  | none => prefsGetSet maxPath (ascii "folder") tag work gn en w
termination_by work.length
decreasing_by exact cutLast_length _isCut

/-- The searches for a path that is not empty. -/
def lookupRel (maxPath : Nat) (tag rel : Text) (gn en : Nat) (w : World) : World × Option Value :=
  match prefsGetSet maxPath (ascii "rom") tag rel gn en w with
  | (w, some value) => (w, some value)
  | (w, none) => lookupFolders maxPath tag gn en w (snprintf maxPath rel)

/-- The governor and the emulator, and whether one of them was found. -/
def prefsLookup (maxPath : Nat) (tag rel : Text) (gn en : Nat) (w : World) :
    World × Value × Bool :=
  let w := prefsEnsure maxPath w
  if tag = [] then (w, ([], []), false)
  else
    match if rel = [] then (w, none) else lookupRel maxPath tag rel gn en w with
    | (w, some value) => (w, value, true)
    | (w, none) =>
        match prefsGetSet maxPath (ascii "tag") tag [] gn en w with
        | (w, some value) => (w, value, true)
        | (w, none) => (w, ([], []), false)

/-! ## The launcher -/

/-- What an awk program gets from `-v`, and the numbers that it reads from texts. -/
structure Awk (ν : Type) where
  assigned : Text → Text
  number : Text → Option ν

/-- `==` of a field and a variable from `-v`: two texts that look like numbers are
compared as numbers. -/
def Awk.equal {ν : Type} [DecidableEq ν] (awk : Awk ν) (first second : Text) : Bool :=
  match awk.number first, awk.number second with
  | some firstNumber, some secondNumber => firstNumber == secondNumber
  | _, _ => first == second

/-- `$1` is the field 0. -/
def awkField (record : Text) (index : Nat) : Text :=
  (record.splitOn 0x09)[index]?.getD []

/-- The condition of the awk program. -/
def awkMatches {ν : Type} [DecidableEq ν] (awk : Awk ν) (kind tag rel record : Text) : Bool :=
  sameCaseless (awkField record 0) (awk.assigned kind) &&
    sameCaseless (awkField record 1) (awk.assigned tag) &&
    awk.equal (awkField record 2) (awk.assigned rel)

inductive Want
  | gov
  | emu
  deriving DecidableEq, Repr

def Want.index : Want → Nat
  | .gov => 3
  | .emu => 4

def zlymePrefField {ν : Type} [DecidableEq ν] (awk : Awk ν) (file : Option Text)
    (kind tag rel : Text) (want : Want) : Text :=
  match file with
  | none => []
  | some text =>
      match (lines (· == 0x0a) text).find? (awkMatches awk kind tag rel) with
      | some record => awkField record want.index
      | none => []

/-- The two calls of each search. -/
def zlymePrefFields {ν : Type} [DecidableEq ν] (awk : Awk ν) (file : Option Text)
    (kind tag rel : Text) : Value :=
  (zlymePrefField awk file kind tag rel .gov, zlymePrefField awk file kind tag rel .emu)

/-- The loop over `pref_work`. -/
def zlymePrefFolders {ν : Type} [DecidableEq ν] (awk : Awk ν) (file : Option Text) (tag : Text)
    (value : Value) (prefWork : Text) : Value :=
  if value = ([], []) ∧ prefWork ≠ [] then
    match _isCut : cutLast slash prefWork with
    | some (parent, _) =>
        zlymePrefFolders awk file tag (zlymePrefFields awk file (ascii "folder") tag prefWork) parent
    | none => zlymePrefFields awk file (ascii "folder") tag prefWork
  else value
termination_by prefWork.length
decreasing_by exact cutLast_length _isCut

/-- `ZLYME_GOVERNOR` and `ZLYME_EMU_CORE`. A missing third argument is the empty text. -/
def zlymePrefLookup {ν : Type} [DecidableEq ν] (awk : Awk ν) (file : Option Text)
    (tag rel third : Text) : Value :=
  let romKey := if third = [] then rel else third
  let value := if romKey = [] then ([], []) else zlymePrefFields awk file (ascii "rom") tag romKey
  let value := if rel = [] then value else zlymePrefFolders awk file tag value rel
  if value = ([], []) then zlymePrefFields awk file (ascii "tag") tag [] else value

end Zlyme.Prefs
