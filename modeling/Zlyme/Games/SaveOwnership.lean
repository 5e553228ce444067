import Zlyme.Games.DeleteRom

/-! # What deleting a game leaves to the other games

A save that a run removes may also be named for another game of the console: the
guard of the script knows the games with the same name, but a save is found by
its name without two suffixes as well.
-/

namespace Zlyme.Games

open Foundation.Text
open Prefs (Text ascii slash)

/-! ## What belongs to a game -/

def ownsSave (game path : Text) : Bool :=
  let stem := withoutSuffix (baseName game)
  zlymeSaveMatchesRom (baseName path) stem (withoutSuffix stem)

def ownsRow (setup : Setup) (library game line : Text) : Bool :=
  match romScope setup game library with
  | some scope => scope.hasRow line
  | none => false

/-- The other games of the console in the library. -/
def Target.IsOther (tree : Tree) (target : Target) (game : Text) : Prop :=
  game ∈ romFiles tree target.library target.scope.tag ∧ game ≠ target.rom

/-- No file but the game and no preference row that is gone is another game's. -/
def KeepsOthers (setup : Setup) (tree : Tree) (prefs : Option Text) (target : Target)
    (outcome : Outcome) : Prop :=
  ∀ game, target.IsOther tree game →
    (∀ path ∈ outcome.removed, path ≠ target.rom → ownsSave game path = false) ∧
    ∀ line ∈ readLines (prefs.getD []), line ∉ readLines (outcome.prefs.getD []) →
      ownsRow setup target.library game line = false

def Target.saves (target : Target) : Text :=
  joinPath (joinPath target.saveRoot (ascii "Saves")) target.scope.tag

/-- Another game has the same name, or no save that is named for the game is named
for another one. -/
def SavesKept (host : Host) (tree : Tree) (target : Target) : Prop :=
  tree.isDir target.saves = false ∨
    saveStemTaken host tree target.stem target.scope.tag target.rom target.saveRoot = true ∨
    ∀ path ∈ tree.find target.saves, path ≠ target.rom → isSaveOf target.stem path = true →
      ∀ game, target.IsOther tree game → ownsSave game path = false

/-- The row of the game is not the row of another one. -/
def RowKept (setup : Setup) (tree : Tree) (prefs : Option Text) (target : Target) : Prop :=
  ∀ line ∈ readLines (prefs.getD []), target.scope.hasRow line = true →
    ∀ game, target.IsOther tree game → ownsRow setup target.library game line = false

/-! ## Names of saves -/

/-- A name with another last byte than every suffix is no save. -/
theorem not_match_of_last (front : Text) {last : UInt8}
    (other : (matchSuffixes.all fun suffix =>
      suffix.reverse.head?.any fun wanted => !isWanted wanted last) = true) :
    (matchSuffixes.any fun suffix => hasSuffix suffix (front ++ [last])) = false := by
  apply List.any_eq_false.mpr
  intro suffix member
  have differs := List.all_eq_true.mp other suffix member
  rw [hasSuffix, List.reverse_append, List.reverse_singleton, List.singleton_append]
  cases isReverse : suffix.reverse with
  | nil => simp [isReverse] at differs
  | cons wanted pattern =>
      simp only [isReverse, List.head?_cons, Option.any_some, Bool.not_eq_true'] at differs
      simp [startsAs, differs]

theorem hasSuffix_append (front : Text) : hasSuffix (ascii ".sav") (front ++ ascii ".sav") = true := by
  rw [hasSuffix, List.reverse_append]
  rfl

theorem withoutSuffix_append (front suffix : Text) (single : dot ∉ suffix) :
    withoutSuffix (front ++ dot :: suffix) = front := by
  rw [withoutSuffix, cutLast_eq_some.mpr ⟨rfl, single⟩]

theorem mem_of_mem_withoutSuffix {name : Text} {byte : UInt8} (member : byte ∈ withoutSuffix name) :
    byte ∈ name := by
  rw [withoutSuffix] at member
  split at member
  · rename_i stem _ isCut
    rw [(cutLast_eq_some.mp isCut).1]
    exact List.mem_append_left _ member
  · exact member

theorem slash_not_mem_baseName (path : Text) : slash ∉ baseName path := by
  rw [baseName]
  split
  · rename_i name isCut
    exact (cutLast_eq_some.mp isCut).2
  · rename_i whole
    exact cutLast_eq_none.mp whole

theorem baseName_of_file {name : Text} (isFile : slash ∉ name) : baseName name = name := by
  rw [baseName, cutLast_eq_none.mpr isFile]

section Named

variable {stem : Text} (isFile : slash ∉ stem)

include isFile

/-- The save `stem.sav`. -/
theorem baseName_sav : baseName (stem ++ ascii ".sav") = stem ++ ascii ".sav" := by
  apply baseName_of_file
  intro member
  rcases List.mem_append.mp member with inStem | inSuffix
  · exact isFile inStem
  · revert inSuffix
    decide

theorem isSaveOf_sav {game : Text} :
    isSaveOf game (stem ++ ascii ".sav") = (stem == game || withoutSuffix stem == game) := by
  have isSave : isSaveName (stem ++ ascii ".sav") = true :=
    List.any_eq_true.mpr ⟨ascii ".sav", by decide, hasSuffix_append stem⟩
  have isStem : withoutSuffix (stem ++ ascii ".sav") = stem :=
    withoutSuffix_append stem (ascii "sav") (by decide)
  rw [isSaveOf, baseName_sav isFile, isSave, isStem, Bool.true_and]

theorem zlymeSaveMatchesRom_sav {other other2 : Text} :
    zlymeSaveMatchesRom (baseName (stem ++ ascii ".sav")) other other2 =
      (stem == other || stem == other2 || withoutSuffix stem == other ||
        withoutSuffix stem == other2) := by
  have isSave : (matchSuffixes.any fun suffix => hasSuffix suffix (stem ++ ascii ".sav")) = true :=
    List.any_eq_true.mpr ⟨ascii ".sav", by decide, hasSuffix_append stem⟩
  have isStem : withoutSuffix (stem ++ ascii ".sav") = stem :=
    withoutSuffix_append stem (ascii "sav") (by decide)
  rw [zlymeSaveMatchesRom, baseName_sav isFile, isSave, isStem, Bool.true_and]

end Named

/-- One name is the other, or is it after one suffix or two. -/
def NamesMeet (stem other : Text) : Prop :=
  stem = other ∨ stem = withoutSuffix other ∨ stem = withoutSuffix (withoutSuffix other) ∨
    withoutSuffix stem = other ∨ withoutSuffix stem = withoutSuffix other

/-- A save of one game that is a save of another exists exactly where the names meet. -/
theorem exists_shared_save_iff {stem other : Text} (stemFile : slash ∉ stem) (otherFile : slash ∉ other) :
    (∃ path, isSaveOf stem path = true ∧
        zlymeSaveMatchesRom (baseName path) other (withoutSuffix other) = true) ↔
      NamesMeet stem other := by
  constructor
  · rintro ⟨path, isSave, isMatch⟩
    simp only [isSaveOf, zlymeSaveMatchesRom, Bool.and_eq_true, Bool.or_eq_true, beq_iff_eq]
      at isSave isMatch
    rcases isSave.2 with isStem | isStem
    · rw [isStem] at isMatch
      tauto
    · -- The save keeps one more suffix than the game that is deleted.
      rcases isMatch.2 with ((isOther | isOther) | isOther) | isOther
      · rw [isOther] at isStem
        exact .inr (.inl isStem.symm)
      · rw [isOther] at isStem
        exact .inr (.inr (.inl isStem.symm))
      · exact .inl (isStem.symm.trans isOther)
      · exact .inr (.inl (isStem.symm.trans isOther))
  · rintro (isOther | isOther | isOther | isOther | isOther)
    case inr.inr.inl =>
      have file : slash ∉ withoutSuffix other := fun member =>
        otherFile (mem_of_mem_withoutSuffix member)
      refine ⟨withoutSuffix other ++ ascii ".sav", ?_, ?_⟩
      · rw [isSaveOf_sav file, ← isOther]
        simp
      · rw [zlymeSaveMatchesRom_sav file]
        simp
    all_goals
      refine ⟨stem ++ ascii ".sav", ?_, ?_⟩
      · rw [isSaveOf_sav stemFile]
        simp
      · rw [zlymeSaveMatchesRom_sav stemFile]
        simp [isOther]

/-! ## Pictures and marks -/

theorem baseName_last (front : Text) {last : UInt8} (notSlash : last ≠ slash) :
    ∃ name, baseName (front ++ [last]) = name ++ [last] := by
  rw [baseName]
  split
  · rename_i parent name isCut
    have isPath := (cutLast_eq_some.mp isCut).1
    rcases List.eq_nil_or_concat name with rfl | ⟨rest, byte, rfl⟩
    · have isLast := congrArg List.getLast? isPath
      rw [List.getLast?_concat, List.getLast?_concat] at isLast
      exact absurd (Option.some.inj isLast) notSlash
    · refine ⟨rest, ?_⟩
      rw [List.concat_eq_append, ← List.cons_append, ← List.append_assoc] at isPath
      rw [List.concat_eq_append, (List.append_inj' isPath rfl).2]
  · exact ⟨front, rfl⟩

theorem not_ownsSave_of_last (front : Text) {last : UInt8} (notSlash : last ≠ slash)
    (other : (matchSuffixes.all fun suffix =>
      suffix.reverse.head?.any fun wanted => !isWanted wanted last) = true) (game : Text) :
    ownsSave game (front ++ [last]) = false := by
  rcases baseName_last front notSlash with ⟨name, isName⟩
  rw [ownsSave, isName, zlymeSaveMatchesRom, not_match_of_last name other, Bool.false_and]

theorem not_ownsSave_art {host : Host} {tree : Tree} {parent stem rom path : Text}
    (isArt : path ∈ artOf host tree parent stem rom) (game : Text) : ownsSave game path = false := by
  rw [artOf] at isArt
  split at isArt
  · rcases List.mem_map.mp (List.mem_filter.mp isArt).1 with ⟨suffix, isSuffix, rfl⟩
    simp only [artSuffixes, List.mem_cons, List.not_mem_nil, or_false] at isSuffix
    have ends : ∃ front, suffix = front ++ [0x67] := by
      rcases isSuffix with rfl | rfl | rfl
      · exact ⟨ascii ".pn", rfl⟩
      · exact ⟨ascii ".jp", rfl⟩
      · exact ⟨ascii ".jpe", rfl⟩
    rcases ends with ⟨front, rfl⟩
    have whole : joinPath (joinPath parent (ascii ".media")) (stem ++ (front ++ [0x67])) =
        (joinPath (joinPath parent (ascii ".media")) (stem ++ front)) ++ [0x67] := by
      simp [joinPath]
    rw [whole]
    exact not_ownsSave_of_last _ (by decide) (by decide) game
  · cases isArt

theorem not_ownsSave_marker {setup : Setup} {rom path : Text}
    (isMarker : markerOf setup rom = some path) (game : Text) : ownsSave game path = false := by
  rw [markerOf] at isMarker
  split at isMarker
  · have whole : path = (setup.storage ++
        ascii "/.config/nextui/shared/Pico-8-native/splore-installe") ++ [0x64] := by
      rw [← Option.some.inj isMarker, List.append_assoc]
      rfl
    rw [whole]
    exact not_ownsSave_of_last _ (by decide) (by decide) game
  · cases isMarker

/-! ## What a run removes -/

theorem mem_list {host : Host} {tree : Tree} {target : Target} {path : Text}
    (notRom : path ≠ target.rom) :
    path ∈ target.list host tree ↔
      path ∈ savesOf host tree target.saveRoot target.scope.tag target.stem target.rom ∨
        path ∈ artOf host tree target.parent target.stem target.rom ∨
        target.marker = some path ∧ tree.isFile path = true ∧ tree.isLink path = false := by
  rw [Target.list, mem_sortUnique]
  simp [notRom]

section Runs

variable {host : Host} {tree : Tree} {target : Target} {prefs : Option Text}

theorem removeFiles_subset {list : List Text} {path : Text}
    (removed : path ∈ (removeFiles host tree target list).1) : path ∈ list := by
  induction list with
  | nil => cases removed
  | cons first rest induction =>
      rw [removeFiles] at removed
      split at removed
      · exact List.mem_cons_of_mem _ (induction removed)
      · split at removed
        · rcases List.mem_cons.mp removed with rfl | later
          · exact List.mem_cons_self
          · exact List.mem_cons_of_mem _ (induction later)
        · cases removed

theorem removeFiles_all {list : List Text} (ended : (removeFiles host tree target list).2 = true)
    {path : Text} (isListed : path ∈ list) (nonempty : path ≠ []) (notRom : path ≠ target.rom) :
    path ∈ (removeFiles host tree target list).1 := by
  induction list with
  | nil => cases isListed
  | cons first rest induction =>
      rw [removeFiles] at ended ⊢
      split at ended
      · rename_i skipped
        rw [if_pos skipped]
        rcases List.mem_cons.mp isListed with rfl | later
        · exact (skipped.elim nonempty notRom).elim
        · exact induction ended later
      · rename_i tried
        rw [if_neg tried]
        split at ended
        · rename_i removes
          rw [if_pos removes]
          rcases List.mem_cons.mp isListed with rfl | later
          · exact List.mem_cons_self
          · exact List.mem_cons_of_mem _ (induction ended later)
        · cases ended

/-- A line that is gone is a row of the game. -/
theorem dropRomPref_gone {line : Text} (present : line ∈ readLines (prefs.getD []))
    (gone : line ∉ readLines ((dropRomPref host target.scope prefs).1.getD [])) :
    target.scope.hasRow line = true := by
  cases prefs with
  | none => exact absurd present gone
  | some text => exact rewriteWithout_gone present gone

/-- After a call that succeeds no row of the game is left. -/
theorem dropRomPref_dropped {line : Text} (dropped : (dropRomPref host target.scope prefs).2 = true)
    (isRow : target.scope.hasRow line = true) :
    line ∉ readLines ((dropRomPref host target.scope prefs).1.getD []) := by
  cases prefs with
  | none => exact List.not_mem_nil
  | some text => exact rewriteWithout_dropped dropped isRow

/-- What any run leaves. -/
theorem deleteTarget_leaves (host : Host) (tree : Tree) (target : Target) (prefs : Option Text) :
    (∀ path ∈ (deleteTarget host tree prefs target).removed,
      path ≠ target.rom → path ∈ target.list host tree) ∧
    ((deleteTarget host tree prefs target).prefs = prefs ∨
      (deleteTarget host tree prefs target).prefs = (dropRomPref host target.scope prefs).1) := by
  rw [deleteTarget]
  split
  · exact ⟨nofun, .inl rfl⟩
  · split
    · rename_i left isLeft
      rw [isLeft]
      exact ⟨nofun, .inr rfl⟩
    · rename_i left isLeft
      rw [isLeft]
      split
      · exact ⟨nofun, .inr rfl⟩
      · have listed : ∀ path ∈ (removeFiles host tree target (target.list host tree)).1,
            path ≠ target.rom → path ∈ target.list host tree :=
          fun path removed _ => removeFiles_subset removed
        split
        · rename_i removed isRemoved
          rw [isRemoved] at listed
          exact ⟨listed, .inr rfl⟩
        · rename_i removed isRemoved
          rw [isRemoved] at listed
          split
          · refine ⟨?_, .inr rfl⟩
            intro path isGone notRom
            rcases List.mem_append.mp isGone with inList | isRom
            · exact listed path inList notRom
            · exact absurd (List.mem_singleton.mp isRom) notRom
          · exact ⟨listed, .inr rfl⟩

/-- What a run to the end leaves. -/
theorem deleteTarget_completed
    (completed : (deleteTarget host tree prefs target).completed = true) :
    (∀ path ∈ target.list host tree, path ≠ [] → path ≠ target.rom →
      path ∈ (deleteTarget host tree prefs target).removed) ∧
    (deleteTarget host tree prefs target).prefs = (dropRomPref host target.scope prefs).1 ∧
      (dropRomPref host target.scope prefs).2 = true := by
  rw [deleteTarget] at completed ⊢
  split at completed
  · cases completed
  · rename_i allowed
    rw [if_neg allowed]
    split at completed
    · cases completed
    · rename_i left isLeft
      rw [isLeft]
      dsimp only
      split at completed
      · cases completed
      · rename_i unchanged
        rw [if_neg unchanged]
        split at completed
        · cases completed
        · rename_i removed isRemoved
          have ended : (removeFiles host tree target (target.list host tree)).2 = true := by
            rw [isRemoved]
          have all : ∀ path ∈ target.list host tree, path ≠ [] → path ≠ target.rom →
              path ∈ (removeFiles host tree target (target.list host tree)).1 :=
            fun path => removeFiles_all ended
          rw [isRemoved] at all
          split at completed
          · rename_i removes
            rw [if_pos removes]
            exact ⟨fun path isListed nonempty notRom =>
              List.mem_append_left _ (all path isListed nonempty notRom), rfl, rfl⟩
          · cases completed

end Runs

/-! ## What is left to the other games -/

section Others

variable {setup : Setup} {host : Host} {tree : Tree} {prefs : Option Text} {rom : Text}
  {target : Target}

theorem targetOf_eq (isTarget : targetOf setup tree rom = some target) :
    target.rom = rom ∧ target.stem = withoutSuffix (baseName rom) ∧
      target.marker = markerOf setup rom := by
  rw [targetOf] at isTarget
  simp only [Option.bind_eq_bind, Option.bind_eq_some_iff, Option.pure_def, Option.some.injEq]
    at isTarget
  rcases isTarget with ⟨_, _, library, _, _, _, _, _, scope, _, _, _, rfl⟩
  exact ⟨rfl, rfl, rfl⟩

/-- A listed file that is another game's is a save. -/
theorem mem_saves_of_ownsSave (isTarget : targetOf setup tree rom = some target) {path game : Text}
    (isListed : path ∈ target.list host tree) (notRom : path ≠ target.rom)
    (isOther : ownsSave game path = true) :
    tree.isDir target.saves = true ∧
      saveStemTaken host tree target.stem target.scope.tag target.rom target.saveRoot = false ∧
      path ∈ tree.find target.saves ∧ isSaveOf target.stem path = true := by
  rcases (mem_list notRom).mp isListed with isSave | isArt | ⟨isMarker, _⟩
  · rw [savesOf] at isSave
    split at isSave
    · rename_i looks
      rw [Bool.and_eq_true, Bool.not_eq_true'] at looks
      rcases List.mem_filter.mp isSave with ⟨found, named⟩
      exact ⟨looks.1, looks.2, found, named⟩
    · cases isSave
  · rw [not_ownsSave_art isArt game] at isOther
    cases isOther
  · rw [(targetOf_eq isTarget).2.2] at isMarker
    rw [not_ownsSave_marker isMarker game] at isOther
    cases isOther

/-- The names decide it for every run, completed or not. -/
theorem keepsOthers_of_kept (isTarget : targetOf setup tree rom = some target)
    (saves : SavesKept host tree target) (row : RowKept setup tree prefs target) :
    KeepsOthers setup tree prefs target (deleteTarget host tree prefs target) := by
  intro game isOther
  rcases deleteTarget_leaves host tree target prefs with ⟨listed, left⟩
  constructor
  · intro path isRemoved notRom
    by_contra owned
    rw [Bool.not_eq_false] at owned
    rcases mem_saves_of_ownsSave isTarget (listed path isRemoved notRom) notRom owned with
      ⟨isDir, free, found, named⟩
    rcases saves with noDir | taken | kept
    · rw [noDir] at isDir
      cases isDir
    · rw [taken] at free
      cases free
    · rw [kept path found notRom named game isOther] at owned
      cases owned
  · intro line present gone
    rcases left with same | dropped
    · rw [same] at gone
      exact absurd present gone
    · rw [dropped] at gone
      exact row line present (dropRomPref_gone present gone) game isOther

/-- A run to the end that keeps the files and rows of the others shows the names. -/
theorem kept_of_keepsOthers
    (completed : (deleteTarget host tree prefs target).completed = true)
    (keeps : KeepsOthers setup tree prefs target (deleteTarget host tree prefs target)) :
    SavesKept host tree target ∧ RowKept setup tree prefs target := by
  rcases deleteTarget_completed completed with ⟨all, left, dropped⟩
  constructor
  · cases isDir : tree.isDir target.saves with
    | false => exact .inl isDir
    | true =>
        cases taken : saveStemTaken host tree target.stem target.scope.tag target.rom
            target.saveRoot with
        | true => exact .inr (.inl taken)
        | false =>
            refine .inr (.inr ?_)
            intro path found notRom named game isOther
            have isSave : path ∈ savesOf host tree target.saveRoot target.scope.tag target.stem
                target.rom := by
              rw [savesOf, taken, ← Target.saves, isDir, Bool.not_false, Bool.and_self, if_pos rfl]
              exact List.mem_filter.mpr ⟨found, named⟩
            have nonempty : path ≠ [] := by
              rintro rfl
              cases target.saves <;> simp [Tree.find, isBelow] at found
            exact (keeps game isOther).1 path
              (all path ((mem_list notRom).mpr (.inl isSave)) nonempty notRom) notRom
  · intro line present isRow game isOther
    have gone := dropRomPref_dropped dropped isRow
    rw [← left] at gone
    exact (keeps game isOther).2 line present gone

/-- Games whose names do not meet share no save, whatever saves there are. -/
theorem savesKept_of_names (isTarget : targetOf setup tree rom = some target)
    (apart : ∀ game, target.IsOther tree game →
      ¬NamesMeet target.stem (withoutSuffix (baseName game))) : SavesKept host tree target := by
  refine .inr (.inr ?_)
  intro path _ _ named game isOther
  by_contra owned
  rw [Bool.not_eq_false] at owned
  have inName : ∀ path, slash ∉ withoutSuffix (baseName path) := fun path member =>
    slash_not_mem_baseName path (mem_of_mem_withoutSuffix member)
  have stemFile : slash ∉ target.stem := by
    rw [(targetOf_eq isTarget).2.1]
    exact inName rom
  exact apart game isOther ((exists_shared_save_iff stemFile (inName game)).mp ⟨path, named, owned⟩)

/-- A run never removes a save or a row of another game of the console if no save
and no row is named for both, or a game of the same name keeps the saves. A run
to the end removes one wherever this is not so. -/
theorem delete_keeps_others_iff (isTarget : targetOf setup tree rom = some target) :
    (SavesKept host tree target → RowKept setup tree prefs target →
      ∀ dry, KeepsOthers setup tree prefs target (deleteRom setup host dry tree prefs rom)) ∧
    ((deleteRom setup host false tree prefs rom).completed = true →
      (KeepsOthers setup tree prefs target (deleteRom setup host false tree prefs rom) ↔
        SavesKept host tree target ∧ RowKept setup tree prefs target)) := by
  have wet : deleteRom setup host false tree prefs rom = deleteTarget host tree prefs target := by
    rw [deleteRom, isTarget]
    rfl
  constructor
  · intro saves row dry
    cases dry with
    | false =>
        rw [wet]
        exact keepsOthers_of_kept isTarget saves row
    | true =>
        rw [deleteRom, isTarget]
        exact fun game _ => ⟨nofun, fun line present gone => absurd present gone⟩
  · rw [wet]
    intro completed
    exact ⟨kept_of_keepsOthers completed, fun kept => keepsOthers_of_kept isTarget kept.1 kept.2⟩

end Others

/-! ## Two games -/

def sampleSetup : Setup where
  storage := ascii "/storage"
  sd2Root := ascii "/mnt/sd2"
  mediaRoot := ascii "/mnt/media"
  libraries := none
  hasLibraryScript := true

def sampleHost : Host where
  stemList := true
  artList := true
  sameBeforePrefs := true
  sameBeforeFiles := true
  sameBeforeRom := true
  prefsLock := true
  prefs := .written ⟨1, 2, 3, 4, 5⟩
  recent := true
  removes _ := true

def sampleDirs : List Text :=
  [ascii "/storage", ascii "/storage/Roms", ascii "/storage/Roms/Cube (GC)",
    ascii "/storage/Saves/GC"]

def sampleRom : Text :=
  ascii "/storage/Roms/Cube (GC)/Game.iso"

def sampleTarget : Target where
  rom := sampleRom
  library := ascii "/storage"
  saveRoot := ascii "/storage"
  scope := ⟨ascii "GC", ascii "Game.iso"⟩
  stem := ascii "Game"
  parent := ascii "/storage/Roms/Cube (GC)"
  marker := none

/-- A game, another one of another name, and a save of each. -/
def apartTree : Tree where
  files := [sampleRom, ascii "/storage/Roms/Cube (GC)/Other.iso", ascii "/storage/Saves/GC/Game.sav",
    ascii "/storage/Saves/GC/Other.sav"]
  dirs := sampleDirs
  links := []
  unbroken := by decide +kernel

theorem apartTree_kept :
    KeepsOthers sampleSetup apartTree none sampleTarget
      (deleteRom sampleSetup sampleHost false apartTree none sampleRom) := by
  have isTarget : targetOf sampleSetup apartTree sampleRom = some sampleTarget := by
    decide +kernel
  have saves : SavesKept sampleHost apartTree sampleTarget := by
    refine .inr (.inr ?_)
    have checked : ((apartTree.find sampleTarget.saves).all fun path =>
        !isSaveOf sampleTarget.stem path ||
          (romFiles apartTree sampleTarget.library sampleTarget.scope.tag).all fun game =>
            game == sampleTarget.rom || !ownsSave game path) = true := by
      decide +kernel
    intro path found _ named game isOther
    have pathChecked := List.all_eq_true.mp checked path found
    rw [named, Bool.not_true, Bool.false_or] at pathChecked
    have gameChecked := List.all_eq_true.mp pathChecked game isOther.1
    simpa [isOther.2] using gameChecked
  have row : RowKept sampleSetup apartTree none sampleTarget := by
    intro line present
    cases present
  exact (delete_keeps_others_iff isTarget).1 saves row false

/-- A game whose file keeps another suffix before its own, with a save by that name. -/
def nestedTree : Tree where
  files := [sampleRom, ascii "/storage/Roms/Cube (GC)/Game.nkit.iso",
    ascii "/storage/Saves/GC/Game.nkit.sav"]
  dirs := sampleDirs
  links := []
  unbroken := by decide +kernel

theorem nested_save_removed :
    targetOf sampleSetup nestedTree sampleRom = some sampleTarget ∧
      (deleteRom sampleSetup sampleHost false nestedTree none sampleRom).completed = true ∧
      ¬KeepsOthers sampleSetup nestedTree none sampleTarget
        (deleteRom sampleSetup sampleHost false nestedTree none sampleRom) := by
  refine ⟨by decide +kernel, by decide +kernel, ?_⟩
  intro keeps
  have isOther : sampleTarget.IsOther nestedTree (ascii "/storage/Roms/Cube (GC)/Game.nkit.iso") :=
    ⟨by decide +kernel, by decide⟩
  have kept := (keeps _ isOther).1 (ascii "/storage/Saves/GC/Game.nkit.sav") (by decide +kernel)
    (by decide)
  revert kept
  decide +kernel

end Zlyme.Games
