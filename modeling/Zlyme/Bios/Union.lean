import Mathlib.Data.List.Basic
import Zlyme.Foundation.Result

/-! # The union of Bios trees

`bios-union.py` links the entries of several trees into one directory, one tree after the
other. Paths are relative, with their last component first.
-/

namespace Zlyme.Bios

open Foundation

/-! ## Trees -/

def dotDot : List UInt8 := [0x2e, 0x2e]

/-- The name of a directory entry. -/
structure Name where
  text : List UInt8
  named : text ≠ [] ∧ text ≠ [0x2e] ∧ text ≠ dotDot ∧ 0x2f ∉ text
  deriving DecidableEq

abbrev Path := List Name

/-- An entry of a tree: a directory, a symbolic link to a directory, or anything else. -/
inductive Node
  | file
  | dirLink
  | dir (children : List (Name × Node))

/-- The entries of a directory, in the order in which they are read. -/
abbrev Tree := List (Name × Node)

/-- What `os.walk` finds to link: a path, and whether it leads to a directory. -/
structure Leaf where
  path : Path
  isDir : Bool
  deriving DecidableEq

/-- `if ".." in out_rel.split(os.sep): continue` -/
def Leaf.climbs (leaf : Leaf) : Bool :=
  leaf.path.any fun name => name.text == dotDot

/-- The symbolic links among `dirnames`, then `filenames`. -/
def leavesOf (rel : Path) (children : Tree) : List Leaf :=
  (children.filterMap fun child =>
    match child.2 with
    | .dirLink => some { path := child.1 :: rel, isDir := true }
    | _ => none) ++
  (children.filterMap fun child =>
    match child.2 with
    | .file => some { path := child.1 :: rel, isDir := false }
    | _ => none)

mutual

/-- `os.walk` of the directories that are kept. -/
def Node.walk (rel : Path) : Node → List Leaf
  | .file => []
  | .dirLink => []
  | .dir children => leavesOf rel children ++ walkAll rel children

def walkAll (rel : Path) : List (Name × Node) → List Leaf
  | [] => []
  | (name, node) :: rest => node.walk (name :: rel) ++ walkAll rel rest

end

/-! ## The view -/

/-- The entry of a source tree that a link leads to. -/
structure Target where
  root : Nat
  path : Path
  isDir : Bool
  deriving DecidableEq

inductive Entry
  | dir
  | link (target : Target)
  /-- A link to another path of the view. -/
  | relative (path : Path)
  | ready
  deriving DecidableEq

/-- The directory that is built, by the paths of its entries. -/
abbrev View := List (Path × Entry)

def View.set (view : View) (path : Path) (entry : Entry) : View :=
  (path, entry) :: view

def View.remove (view : View) (path : Path) : View :=
  view.filter fun row => row.1 != path

/-- An exception, or a write at a path of a source tree. -/
inductive Fault
  | raised
  | outside
  deriving DecidableEq

/-- Where a path leads to: a directory of the view, a source tree behind a link to a
directory, something else, or nowhere. -/
inductive Place
  | dir
  | outside
  | other
  | missing
  deriving DecidableEq

def place (view : View) : Path → Place
  | [] => .dir
  | name :: parent =>
      match place view parent with
      | .dir =>
          match view.lookup (name :: parent) with
          | none => .missing
          | some .dir => .dir
          | some (.link target) => if target.isDir then .outside else .other
          | some (.relative _) => .other
          | some .ready => .other
      | .outside => .outside
      | .other => .missing
      | .missing => .missing

/-- `os.mkdir`, and `exist_ok`. -/
def mkdir (view : View) (name : Name) (parent : Path) : Except Fault View :=
  match place view parent with
  | .dir =>
      match place view (name :: parent) with
      | .missing => .ok (view.set (name :: parent) .dir)
      | .dir => .ok view
      | .outside => .ok view
      | .other => .error .raised
  | .outside => .error .outside
  | .other => .error .raised
  | .missing => .error .raised

/-- `os.makedirs` -/
def makedirs (view : View) : Path → Except Fault View
  | [] => .ok view
  | name :: parent =>
      match place view parent with
      | .missing =>
          match makedirs view parent with
          | .ok made => mkdir made name parent
          | .error fault => .error fault
      | _ => mkdir view name parent

/-- `os.remove` of what is there, and `os.symlink`. -/
def relink (view : View) (name : Name) (parent : Path) (entry : Entry) : Except Fault View :=
  match place view parent with
  | .dir =>
      match view.lookup (name :: parent) with
      | none => .ok (view.set (name :: parent) entry)
      | some .dir => .error .raised
      | some _ => .ok ((view.remove (name :: parent)).set (name :: parent) entry)
  | .outside => .error .outside
  | .other => .error .raised
  | .missing => .error .raised

def link (view : View) (path : Path) (entry : Entry) : Except Fault View :=
  match path with
  | [] => .error .raised
  | name :: parent => do
      let made ← makedirs view parent
      relink made name parent entry

/-! ## The program -/

/-- A root that is no directory is left out. -/
def addTree (view : View) (root : Nat) : Option Tree → Except Fault View
  | none => .ok view
  | some children =>
      ((Node.dir children).walk [] |>.filter fun leaf => !leaf.climbs).foldlM
        (fun view leaf =>
          link view leaf.path (.link { root, path := leaf.path, isDir := leaf.isDir })) view

/-- The trees from one root on. -/
def addTrees (root : Nat) : List (Option Tree) → View → Except Fault View
  | [], view => .ok view
  | tree :: rest, view => do
      let added ← addTree view root tree
      addTrees (root + 1) rest added

/-- `os.listdir` gives the names in some order. -/
structure Listing where
  order : List Name → List Name
  perm : ∀ names, (order names).Perm names

def namesIn (view : View) (dir : Path) : List Name :=
  view.filterMap fun row =>
    match row.1 with
    | [] => none
    | name :: parent => if parent = dir then some name else none

def aliasInto (name : Name) (view : View) (fn : Name) : Except Fault View :=
  if (view.lookup [fn]).isSome then .ok view
  else link view [fn] (.relative [fn, name])

def aliasRoot (listing : Listing) (view : View) (name : Name) : Except Fault View :=
  if view.lookup [name] = some .dir then
    (listing.order (namesIn view [name])).foldlM (aliasInto name) view
  else .ok view

def aliasRoots (listing : Listing) (view : View) : Except Fault View :=
  (listing.order (namesIn view [])).foldlM (aliasRoot listing) view

def readyName : Name where
  text := [0x2e, 0x7a, 0x6c, 0x79, 0x6d, 0x65, 0x2d, 0x72, 0x65, 0x61, 0x64, 0x79]
  named := by decide

/-- `open(ready, "w")` follows a link. -/
def openFollowing (view : View) : Option Entry → Except Fault View
  | none => .ok (view.set [readyName] .ready)
  | some .dir => .error .raised
  | some .ready => .error .raised
  | some (.link target) => if target.isDir then .error .raised else .error .outside
  | some (.relative _) => .error .raised

def writeReady (view : View) : Except Fault View :=
  match view.lookup [readyName] with
  | some (.relative path) =>
      match view.lookup path with
      | none => .error .raised
      | some entry => openFollowing view (some entry)
  | found => openFollowing view found

/-- `main`, for a fresh directory. -/
def union (listing : Listing) (trees : List (Option Tree)) : Except Fault View := do
  let added ← addTrees 0 trees []
  let aliased ← aliasRoots listing added
  writeReady aliased

end Zlyme.Bios
