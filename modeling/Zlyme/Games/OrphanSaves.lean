import Zlyme.Games.SaveOwnership

/-! # Orphan saves

`orphan-saves` of `zlyme-game-cleanup.sh`: the stems of the games are collected
once, and a save whose name has none of them is listed. The games that the scan of
the stems passes over are the ones whose saves it may list.
-/

namespace Zlyme.Games

open Foundation.Text
open Prefs (Text ascii slash)

/-! ## Stems -/

/-- `list_roots`, read line by line. -/
def listRoots (setup : Setup) : List Text :=
  match setup.libraries with
  | some text => readWholeLines text
  | none => [setup.storage]

/-- The roots that a loop does not skip. -/
def scannedRoots (setup : Setup) (tree : Tree) : List Text :=
  (listRoots setup).filter tree.isDir

/-- `roms` of `rom_stems`: the second spelling is only tried where the first one is
no folder. -/
def romsDir (tree : Tree) (root : Text) : Option Text :=
  if tree.isDir (joinPath root (ascii "Roms")) then some (joinPath root (ascii "Roms"))
  else if tree.isDir (joinPath root (ascii "roms")) then some (joinPath root (ascii "roms"))
  else none

/-- The games that `rom_stems` finds. -/
def scannedGames (tree : Tree) (root : Text) : List Text :=
  match romsDir tree root with
  | none => []
  | some roms =>
      (tree.find roms).filter fun path => !hasInfix (ascii "/.media/") path && !isHidden path

/-- The two stems of a name. -/
def stemsOf (path : Text) : List Text :=
  let s1 := withoutSuffix (baseName path)
  let s2 := withoutSuffix s1
  if s2 ≠ s1 then [s1, s2] else [s1]

/-- `have`, filled from the stems of every library; `sort -u` does not change what
is in it. -/
def haveStems (setup : Setup) (tree : Tree) : List Text :=
  ((scannedRoots setup tree).flatMap fun root => (scannedGames tree root).flatMap stemsOf).filter
    (· ≠ [])

/-! ## Saves -/

/-- A line for `awk`: two stems, and the path that is printed. -/
structure Candidate where
  stem : Text
  stem2 : Text
  path : Text
  deriving DecidableEq, Repr

/-- The files below `Saves` whose names are those of saves. -/
def saveCandidates (tree : Tree) (root : Text) : List Candidate :=
  let saves := joinPath root (ascii "Saves")
  if tree.isDir saves then
    ((tree.find saves).filter fun path => isSaveName (baseName path)).map fun path =>
      let s1 := withoutSuffix (baseName path)
      ⟨s1, withoutSuffix s1, path⟩
  else []

def drasticDirs (root : Text) : List Text :=
  [ascii "Saves/NDS/backup", ascii "Saves/NDS/savestates", ascii "Saves/NDS"].map (joinPath root)

/-- `-name '*.dsv' -o -name '*.dst' -o -name '*.dsv.*'` -/
def isDrasticName (name : Text) : Bool :=
  hasSuffix (ascii ".dsv") name || hasSuffix (ascii ".dst") name || hasInfix (ascii ".dsv.") name

/-- `note_save`, and the fields that `awk -F '\037'` makes of its line. -/
def noteSave (path : Text) : Candidate :=
  let stem := withoutSuffix (baseName path)
  let stem2 := withoutSuffix stem
  let fields := (stem ++ 0x1f :: (stem2 ++ 0x1f :: path)).splitOn 0x1f
  ⟨fields.getD 0 [], fields.getD 1 [], fields.getD 2 []⟩

def drasticCandidates (tree : Tree) (root : Text) : List Candidate :=
  (((drasticDirs root).filter tree.isDir).flatMap fun dir =>
    (tree.findWithin dir 1).filter fun path => isDrasticName (baseName path)).map noteSave

/-- `if (!($1 in have) && !($2 in have)) print $3` -/
def filterUnmatched (stems : List Text) (candidates : List Candidate) : List Text :=
  (candidates.filter fun candidate =>
    decide (candidate.stem ∉ stems) && decide (candidate.stem2 ∉ stems)).map Candidate.path

/-! ## PortMaster -/

def portsDirs (root : Text) : List Text :=
  [ascii "Roms/Ports (PORTS)", ascii "Roms/ports", ascii "roms/ports"].map (joinPath root)

/-- `find "$dir" -type d` -/
def Tree.findDirs (tree : Tree) (dir : Text) : List Text :=
  tree.dirs.filter fun path =>
    (path == dir || isBelow dir path) &&
      (path :: heads slash path).all fun part =>
        !(tree.isLink part && (part == dir || isBelow dir part))

/-- Whether one of `"$parent"/*.sh "$parent"/*.SH` is a file. -/
def hasScript (tree : Tree) (parent : Text) : Bool :=
  tree.files.any fun path =>
    cutLast slash path == some (parent, baseName path) && !isHidden path &&
      (hasSuffix (ascii ".sh") (baseName path) || hasSuffix (ascii ".SH") (baseName path))

/-- The folders with the saves of a port that has no script. -/
def portSaves (tree : Tree) (root : Text) : List Text :=
  ((portsDirs root).filter tree.isDir).flatMap fun ports =>
    (tree.findDirs ports).filter fun path =>
      (baseName path == ascii "savedata" || baseName path == ascii "saves") &&
        !hasScript tree (dirName path)

/-- The list that `do_orphan_saves` removes. -/
def orphanSaves (setup : Setup) (tree : Tree) : List Text :=
  let stems := haveStems setup tree
  (scannedRoots setup tree).flatMap fun root =>
    filterUnmatched stems (saveCandidates tree root) ++
      filterUnmatched stems (drasticCandidates tree root) ++ portSaves tree root

/-! ## Owners -/

/-- The path is one of the saves of a tag, on any library that is there. -/
def IsTagSave (setup : Setup) (tree : Tree) (tag path : Text) : Prop :=
  ∃ root, libIsPresent setup tree root = true ∧ ∃ folder, foldText folder = foldText tag ∧
    isBelow (joinPath (joinPath root (ascii "Saves")) folder) path = true

/-- A game of a library that is there owns the save: its tag is that of the save's
folder, and `zlyme_save_matches_rom` holds for the names. -/
def OwnsSave (setup : Setup) (tree : Tree) (rom path : Text) : Prop :=
  ∃ root tag, libIsPresent setup tree root = true ∧ rom ∈ romFiles tree root tag ∧
    IsTagSave setup tree tag path ∧
    zlymeSaveMatchesRom (baseName path) (withoutSuffix (baseName rom))
      (withoutSuffix (withoutSuffix (baseName rom))) = true

/-- Every line that is compared with the stems. -/
def allCandidates (setup : Setup) (tree : Tree) : List Candidate :=
  (scannedRoots setup tree).flatMap fun root => saveCandidates tree root ++ drasticCandidates tree root

/-- A game that the scan visits has a stem of the line. -/
def Visited (setup : Setup) (tree : Tree) (candidate : Candidate) : Prop :=
  ∃ root ∈ scannedRoots setup tree, ∃ game ∈ scannedGames tree root, ∃ stem ∈ stemsOf game,
    stem ≠ [] ∧ (candidate.stem = stem ∨ candidate.stem2 = stem)

section Orphans

variable {setup : Setup} {tree : Tree}

theorem visited_iff {candidate : Candidate} : Visited setup tree candidate ↔
    candidate.stem ∈ haveStems setup tree ∨ candidate.stem2 ∈ haveStems setup tree := by
  simp only [haveStems, List.mem_filter, List.mem_flatMap, decide_eq_true_eq, Visited]
  constructor
  · rintro ⟨root, isRoot, game, isGame, stem, isStem, nonempty, rfl | rfl⟩
    · exact .inl ⟨⟨root, isRoot, game, isGame, isStem⟩, nonempty⟩
    · exact .inr ⟨⟨root, isRoot, game, isGame, isStem⟩, nonempty⟩
  · rintro (⟨⟨root, isRoot, game, isGame, isStem⟩, nonempty⟩ | ⟨⟨root, isRoot, game, isGame, isStem⟩, nonempty⟩)
    · exact ⟨root, isRoot, game, isGame, _, isStem, nonempty, .inl rfl⟩
    · exact ⟨root, isRoot, game, isGame, _, isStem, nonempty, .inr rfl⟩

theorem mem_filterUnmatched {path : Text} {candidates : List Candidate} :
    path ∈ filterUnmatched (haveStems setup tree) candidates ↔
      ∃ candidate ∈ candidates, ¬Visited setup tree candidate ∧ candidate.path = path := by
  simp only [filterUnmatched, List.mem_map, List.mem_filter, Bool.and_eq_true, decide_eq_true_eq,
    visited_iff, not_or, and_assoc]

/-- What is listed is a line of which no visited game has a stem, or a folder of a
port. -/
theorem mem_orphanSaves {path : Text} : path ∈ orphanSaves setup tree ↔
    (∃ candidate ∈ allCandidates setup tree, ¬Visited setup tree candidate ∧ candidate.path = path) ∨
      ∃ root ∈ scannedRoots setup tree, path ∈ portSaves tree root := by
  simp only [orphanSaves, allCandidates, List.mem_flatMap, List.mem_append, mem_filterUnmatched]
  constructor
  · rintro ⟨root, isRoot, (⟨candidate, member, rest⟩ | ⟨candidate, member, rest⟩) | isPort⟩
    · exact .inl ⟨candidate, ⟨root, isRoot, .inl member⟩, rest⟩
    · exact .inl ⟨candidate, ⟨root, isRoot, .inr member⟩, rest⟩
    · exact .inr ⟨root, isRoot, isPort⟩
  · rintro (⟨candidate, ⟨root, isRoot, member | member⟩, rest⟩ | ⟨root, isRoot, isPort⟩)
    · exact ⟨root, isRoot, .inl (.inl ⟨candidate, member, rest⟩)⟩
    · exact ⟨root, isRoot, .inl (.inr ⟨candidate, member, rest⟩)⟩
    · exact ⟨root, isRoot, .inr isPort⟩

/-- A folder of a port has no name of a save. -/
theorem portSaves_unowned {root path rom : Text} (isPort : path ∈ portSaves tree root) :
    ¬OwnsSave setup tree rom path := by
  simp only [portSaves, List.mem_flatMap, List.mem_filter, Bool.and_eq_true, Bool.or_eq_true,
    beq_iff_eq] at isPort
  rcases isPort with ⟨_, _, _, isName, _⟩
  rintro ⟨_, _, _, _, _, isMatch⟩
  have noSave : ∀ name ∈ [ascii "savedata", ascii "saves"],
      (matchSuffixes.any fun suffix => hasSuffix suffix name) = false := by decide
  have noMatch : (matchSuffixes.any fun suffix => hasSuffix suffix (baseName path)) = false :=
    noSave _ (by simpa using isName)
  rw [zlymeSaveMatchesRom, noMatch, Bool.false_and] at isMatch
  cases isMatch

/-! ## Plain libraries -/

/-- What keeps the scan from passing over a game. -/
structure Plain (setup : Setup) (tree : Tree) : Prop where
  registered : ∀ root, libIsPresent setup tree root = true → root ∈ scannedRoots setup tree
  oneSpelling : ∀ root ∈ scannedRoots setup tree, ¬(tree.isDir (joinPath root (ascii "Roms")) = true ∧
    tree.isDir (joinPath root (ascii "roms")) = true)
  unlinked : tree.links = []
  unseparated : ∀ path ∈ tree.files, 0x1f ∉ path
  named : ∀ path ∈ tree.files, baseName path ≠ []

theorem noteSave_eq {path : Text} (unseparated : 0x1f ∉ path) :
    noteSave path = ⟨withoutSuffix (baseName path), withoutSuffix (withoutSuffix (baseName path)), path⟩ := by
  have inName : ∀ byte ∈ baseName path, byte ∈ path := by
    intro byte member
    rw [baseName] at member
    split at member
    · rename_i parent name isCut
      rw [(cutLast_eq_some.mp isCut).1]
      simp [member]
    · exact member
  have stem : 0x1f ∉ withoutSuffix (baseName path) := fun member =>
    unseparated (inName _ (mem_of_mem_withoutSuffix member))
  have stem2 : 0x1f ∉ withoutSuffix (withoutSuffix (baseName path)) := fun member =>
    stem (mem_of_mem_withoutSuffix member)
  have whole : ∀ field ∈ [withoutSuffix (baseName path), withoutSuffix (withoutSuffix (baseName path)), path],
      0x1f ∉ field := by
    simpa using ⟨stem, stem2, unseparated⟩
  have fields := List.splitOn_intercalate 0x1f whole (List.cons_ne_nil _ _)
  simp only [List.intercalate, List.intersperse, List.flatten_cons, List.flatten_nil,
    List.append_nil, List.singleton_append] at fields
  simp only [noteSave, fields, List.getD_cons_zero, List.getD_cons_succ]

/-- What is left of a name that is not hidden. -/
theorem withoutSuffix_visible {name : Text} (nonempty : name ≠ []) (visible : name.head? ≠ some dot) :
    withoutSuffix name ≠ [] ∧ (withoutSuffix name).head? ≠ some dot := by
  rw [withoutSuffix]
  split
  · rename_i stem suffix isCut
    have isName := (cutLast_eq_some.mp isCut).1
    cases stem with
    | nil => simp [isName] at visible
    | cons byte rest =>
        refine ⟨List.cons_ne_nil _ _, ?_⟩
        simpa [isName] using visible
  · exact ⟨nonempty, visible⟩

theorem mem_stemsOf {path stem : Text} : stem ∈ stemsOf path ↔
    stem = withoutSuffix (baseName path) ∨ stem = withoutSuffix (withoutSuffix (baseName path)) := by
  simp only [stemsOf]
  split
  · simp
  · rename_i same
    have same : withoutSuffix (withoutSuffix (baseName path)) = withoutSuffix (baseName path) :=
      not_not.mp same
    simp [same]

section Plain

variable (plain : Plain setup tree)
include plain

theorem Plain.stems {candidate : Candidate} (member : candidate ∈ allCandidates setup tree) :
    candidate.stem = withoutSuffix (baseName candidate.path) ∧
      candidate.stem2 = withoutSuffix candidate.stem := by
  simp only [allCandidates, List.mem_flatMap, List.mem_append] at member
  rcases member with ⟨root, _, isSave | isSlot⟩
  · rw [saveCandidates] at isSave
    split at isSave
    · rcases List.mem_map.mp isSave with ⟨path, _, rfl⟩
      exact ⟨rfl, rfl⟩
    · simp at isSave
  · simp only [drasticCandidates, List.mem_map, List.mem_flatMap, Tree.findWithin, Tree.find,
      List.mem_filter] at isSlot
    rcases isSlot with ⟨path, ⟨_, _, ⟨⟨present, _⟩, _⟩, _⟩, rfl⟩
    rw [noteSave_eq (plain.unseparated path present)]
    exact ⟨rfl, rfl⟩

theorem Plain.scanned {root tag rom : Text} (isRoot : root ∈ scannedRoots setup tree)
    (isRom : rom ∈ romFiles tree root tag) : rom ∈ scannedGames tree root := by
  simp only [romFiles, consoleDirs, Tree.folders, List.mem_flatMap, List.mem_filter,
    Bool.and_eq_true, beq_iff_eq] at isRom
  rcases isRom with ⟨dir, ⟨roms, ⟨spelled, present⟩, ⟨_, ⟨inRoms, _⟩, _⟩, _⟩, found, visible⟩
  have isRoms : romsDir tree root = some roms := by
    have one := plain.oneSpelling root isRoot
    simp only [List.mem_cons, List.not_mem_nil, or_false] at spelled
    rcases spelled with rfl | rfl
    · rw [romsDir, if_pos present]
    · rw [romsDir, if_neg (fun upper => one ⟨upper, present⟩), if_pos present]
  rw [scannedGames, isRoms, List.mem_filter]
  refine ⟨?_, by simpa using visible⟩
  rw [Tree.find, List.mem_filter, Bool.and_eq_true] at found ⊢
  refine ⟨found.1, ?_, by simp [Tree.isLink, plain.unlinked]⟩
  have inDir := found.2.1
  rw [isBelow, List.isPrefixOf_iff_prefix] at inDir ⊢
  rw [(cutLast_eq_some.mp inRoms).1] at inDir
  exact List.IsPrefix.trans (by simp) inDir

/-- The stems of a game that the scan visits decide as `zlyme_save_matches_rom`
does. -/
theorem Plain.visited {candidate : Candidate} (member : candidate ∈ allCandidates setup tree)
    {rom : Text} (owns : OwnsSave setup tree rom candidate.path) : Visited setup tree candidate := by
  rcases owns with ⟨root, tag, present, isRom, _, isMatch⟩
  have isRoot := plain.registered root present
  have isGame := plain.scanned isRoot isRom
  have found : rom ∈ tree.files ∧ isHidden rom = false := by
    simp only [romFiles, List.mem_flatMap, List.mem_filter, Tree.find, Bool.and_eq_true,
      Bool.not_eq_true'] at isRom
    rcases isRom with ⟨_, _, ⟨present, _⟩, _, visible⟩
    exact ⟨present, visible⟩
  have first := withoutSuffix_visible (plain.named rom found.1) (by simpa [isHidden] using found.2)
  have second := withoutSuffix_visible first.1 first.2
  have shared : ∃ stem ∈ stemsOf rom, candidate.stem = stem ∨ candidate.stem2 = stem := by
    rw [zlymeSaveMatchesRom, Bool.and_eq_true] at isMatch
    simp only [Bool.or_eq_true, beq_iff_eq, ← (plain.stems member).1, ← (plain.stems member).2]
      at isMatch
    rcases isMatch.2 with ((same | same) | same) | same
    · exact ⟨_, mem_stemsOf.mpr (.inl rfl), .inl same⟩
    · exact ⟨_, mem_stemsOf.mpr (.inr rfl), .inl same⟩
    · exact ⟨_, mem_stemsOf.mpr (.inl rfl), .inr same⟩
    · exact ⟨_, mem_stemsOf.mpr (.inr rfl), .inr same⟩
  rcases shared with ⟨stem, isStem, same⟩
  have nonempty : stem ≠ [] := by
    rcases mem_stemsOf.mp isStem with rfl | rfl
    · exact first.1
    · exact second.1
  exact ⟨root, isRoot, rom, isGame, stem, isStem, nonempty, same⟩

end Plain

/-! ## Owned saves -/

end Orphans

def twoSpellings : Tree where
  files := [ascii "/storage/roms/GBA (GBA)/Game.gba", ascii "/storage/Saves/GBA/Game.sav"]
  dirs := [ascii "/storage", ascii "/storage/Roms", ascii "/storage/roms",
    ascii "/storage/roms/GBA (GBA)", ascii "/storage/Saves", ascii "/storage/Saves/GBA"]
  links := []
  unbroken := by decide +kernel

def oneLibrary : Setup where
  storage := ascii "/storage"
  sd2Root := ascii "/mnt/sd2"
  mediaRoot := ascii "/mnt/media"
  libraries := some (ascii "/storage\n")
  hasLibraryScript := true

end Zlyme.Games
