import Zlyme.Games.SaveOwnership
import Mathlib.Data.List.Find

/-! # The library of a game's saves

`zlyme_save_root` looks for a save of the game by a list of patterns, first in the library of
the game and then in the others.
-/

namespace Zlyme.Games

open Foundation.Text
open Prefs (Text ascii slash)

/-! ## A choice among libraries -/

/-- The own library or the first other one that is exact, else the one that is loose. -/
def preferred (own : Text) (others : List Text) (exact loose : Text → Bool) : Text :=
  if exact own then own
  else
    match others.find? exact with
    | some other => other
    | none => if loose own then own else (others.find? loose).getD own

section Choice

variable {own : Text} {others : List Text} {exact wanted loose : Text → Bool}

theorem find?_of_narrower (narrower : ∀ root, exact root = true → wanted root = true) {first : Text}
    (found : others.find? wanted = some first) :
    others.find? exact = some first ↔ exact first = true := by
  constructor
  · exact List.find?_some
  · intro isExact
    rcases List.find?_eq_some_iff_append.mp found with ⟨_, before, after, rfl, none'⟩
    refine List.find?_eq_some_iff_append.mpr ⟨isExact, before, after, rfl, fun root member => ?_⟩
    have unwanted := none' root member
    rw [Bool.not_eq_true'] at unwanted ⊢
    exact Bool.eq_false_iff.mpr fun isExact' => by simp [narrower root isExact'] at unwanted

theorem none_of_find? (found : others.find? exact = none) : ∀ root ∈ others, exact root = false :=
  fun root member => Bool.eq_false_iff.mpr (List.find?_eq_none.mp found root member)

theorem getD_find?_eq_own (apart : own ∉ others) :
    (others.find? loose).getD own = own ↔ ∀ root ∈ others, loose root = false := by
  cases found : others.find? loose with
  | none => exact ⟨fun _ => none_of_find? found, fun _ => rfl⟩
  | some other =>
      have member := List.mem_of_find?_eq_some found
      refine ⟨fun same => ?_, fun none' => ?_⟩
      · exact absurd (same ▸ member) apart
      · exact absurd (none' other member) (by simp [List.find?_some found])

theorem getD_find?_eq_other (apart : own ∉ others) {other : Text} (member : other ∈ others) :
    (others.find? loose).getD own = other ↔ others.find? loose = some other := by
  cases others.find? loose with
  | none =>
      refine ⟨fun same => ?_, fun found => nomatch found⟩
      rw [Option.getD_none] at same
      exact absurd (same.symm ▸ member) apart
  | some found => rw [Option.getD_some, Option.some_inj]

/-- The narrower choice is the wanted one exactly when it does not pass over a wanted library. -/
theorem preferred_eq_iff (apart : own ∉ others)
    (narrower : ∀ root, exact root = true → wanted root = true) :
    preferred own others exact loose = preferred own others wanted loose ↔
      (wanted own = true → exact own = true ∨
        (∀ root ∈ others, exact root = false) ∧
          (loose own = true ∨ ∀ root ∈ others, loose root = false)) ∧
      (wanted own = false → ∀ first, others.find? wanted = some first → exact first = true ∨
        (∀ root ∈ others, exact root = false) ∧
          loose own = false ∧ others.find? loose = some first) := by
  rw [preferred, preferred]
  cases owns : wanted own with
  | true =>
      simp only [if_true, forall_const, Bool.true_eq_false, false_implies, and_true]
      cases isExact : exact own with
      | true => simp only [if_true, true_or]
      | false =>
          simp only [Bool.false_eq_true, if_false, false_or]
          cases found : others.find? exact with
          | some other =>
              have member := List.mem_of_find?_eq_some found
              refine ⟨fun same => ?_, fun none' => ?_⟩
              · exact absurd (same ▸ member) apart
              · exact absurd (none'.1 other member) (by simp [List.find?_some found])
          | none =>
              rw [and_iff_right (none_of_find? found)]
              cases loose own with
              | true => simp only [if_true, true_or]
              | false =>
                  simp only [Bool.false_eq_true, if_false, false_or]
                  exact getD_find?_eq_own apart
  | false =>
      have unexact : exact own = false := Bool.eq_false_iff.mpr fun isExact => by
        simp [narrower own isExact] at owns
      simp only [unexact, Bool.false_eq_true, if_false, false_implies, true_and, forall_const]
      cases wants : others.find? wanted with
      | none =>
          have unfound : others.find? exact = none :=
            List.find?_eq_none.mpr fun root member isExact =>
              List.find?_eq_none.mp wants root member (narrower root isExact)
          simp only [unfound, reduceCtorEq, false_implies, implies_true]
      | some first =>
          have member := List.mem_of_find?_eq_some wants
          simp only [Option.some.injEq, forall_eq']
          cases found : others.find? exact with
          | some other =>
              have some' : ¬∀ root ∈ others, exact root = false := fun none' => by
                simpa [List.find?_some found] using none' other (List.mem_of_find?_eq_some found)
              have chosen := find?_of_narrower narrower wants
              rw [found, Option.some_inj] at chosen
              simp only [some', false_and, or_false]
              exact chosen
          | none =>
              have none' := none_of_find? found
              rw [none' first member, and_iff_right none']
              cases loose own with
              | true =>
                  simp only [if_true, Bool.false_eq_true, Bool.true_eq_false, false_and, or_false,
                    iff_false]
                  exact fun same => apart (same ▸ member)
              | false =>
                  simp only [Bool.false_eq_true, if_false, false_or, true_and]
                  exact getD_find?_eq_other apart member

/-- A wanted library is not passed over. -/
theorem preferred_wanted (some' : ∃ root, (root = own ∨ root ∈ others) ∧ wanted root = true) :
    wanted (preferred own others wanted loose) = true := by
  rcases some' with ⟨root, rfl | member, isWanted⟩
  · rw [preferred, if_pos isWanted, isWanted]
  · rw [preferred]
    split
    · rename_i owns
      exact owns
    · cases found : others.find? wanted with
      | none => exact absurd isWanted (List.find?_eq_none.mp found root member)
      | some other => exact List.find?_some found

end Choice

/-! ## The saves -/

/-- The file is in the folder or one level below it. -/
def isWithin (dir path : Text) : Bool :=
  isBelow dir path && decide ((relativeTo dir path).count slash < 2)

/-- The folder has a save of the game. -/
def hasMatch (tree : Tree) (dir stem stem2 : Text) : Bool :=
  tree.isDir dir && tree.files.any fun path =>
    isWithin dir path && zlymeSaveMatchesRom (baseName path) stem stem2

theorem isBelow_joinPath (dir name : Text) : isBelow dir (joinPath dir name) = true := by
  rw [isBelow, List.isPrefixOf_iff_prefix]
  exact ⟨name, List.append_assoc dir [slash] name⟩

theorem relativeTo_joinPath (dir name : Text) : relativeTo dir (joinPath dir name) = name := by
  rw [relativeTo, if_pos (isBelow_joinPath dir name), joinPath, ← List.drop_drop, List.drop_left]
  rfl

theorem isWithin_joinPath {dir name : Text} :
    isWithin dir (joinPath dir name) = true ↔ name.count slash < 2 := by
  rw [isWithin, isBelow_joinPath, relativeTo_joinPath, Bool.true_and, decide_eq_true_eq]

/-- A pattern without a slash takes no slash. -/
theorem slash_not_mem_of_startsAs {pattern text : Text} (plain : slash ∉ pattern)
    (starts : startsAs pattern text = true) : slash ∉ text.take pattern.length := by
  induction pattern generalizing text with
  | nil => exact List.not_mem_nil
  | cons wanted pattern induction =>
      rcases text with _ | ⟨byte, text⟩
      · exact List.not_mem_nil
      · rw [startsAs, Bool.and_eq_true] at starts
        rw [List.mem_cons, not_or] at plain
        rw [List.length_cons, List.take_succ_cons, List.mem_cons, not_or]
        refine ⟨?_, induction plain.2 starts.2⟩
        rintro rfl
        have taken := starts.1
        rw [isWanted] at taken
        split at taken
        · exact absurd taken (by decide)
        · exact plain.1 (beq_iff_eq.mp taken).symm

theorem slash_not_mem_of_hasSuffix {suffix name tail : Text} (plain : slash ∉ suffix)
    (length : tail.length = suffix.length) (ends : hasSuffix suffix (name ++ tail) = true) :
    slash ∉ tail := by
  have taken := slash_not_mem_of_startsAs (by rwa [List.mem_reverse]) ends
  rwa [List.length_reverse, List.reverse_append, ← length, ← List.length_reverse, List.take_left,
    List.mem_reverse] at taken

theorem slash_not_mem_suffix : ∀ suffix ∈ matchSuffixes, slash ∉ suffix := by
  decide +kernel

/-- A path that has a folder is the folder and the name. -/
theorem eq_joinPath_of_cutLast {path parent name : Text}
    (folder : cutLast slash (dirName path) = some (parent, name)) :
    path = joinPath (joinPath parent name) (baseName path) := by
  cases isCut : cutLast slash path with
  | none =>
      have alone : cutLast slash (ascii ".") = none := by decide
      rw [dirName, isCut] at folder
      exact nomatch alone.symm.trans folder
  | some parts =>
      rw [dirName, isCut] at folder
      rw [baseName, isCut]
      rw [(cutLast_eq_some.mp isCut).1, joinPath, joinPath, ← (cutLast_eq_some.mp folder).1]

/-- What the patterns list is in the folder or one level below it. -/
theorem isWithin_of_isNamed {dir base path : Text} (isFile : slash ∉ base)
    (named : isNamed dir base path = true) : isWithin dir path = true := by
  rw [isNamed, Bool.or_eq_true, List.any_eq_true, List.any_eq_true] at named
  rcases named with ⟨suffix, member, here⟩ | ⟨suffix, member, below⟩
  · simp only [Bool.and_eq_true, beq_iff_eq, List.isPrefixOf_iff_prefix] at here
    rcases here with ⟨⟨length, tail, rfl⟩, ends⟩
    have plain := slash_not_mem_suffix suffix member
    rw [List.length_append, Nat.add_left_cancel_iff] at length
    have noSlash := slash_not_mem_of_hasSuffix plain length ends
    have whole : joinPath dir base ++ tail = joinPath dir (base ++ tail) := by
      simp [joinPath]
    rw [whole, isWithin_joinPath, List.count_eq_zero_of_not_mem]
    · decide
    · rw [List.mem_append, not_or]
      exact ⟨isFile, noSlash⟩
  · simp only [Bool.and_eq_true, beq_iff_eq] at below
    rcases below with ⟨⟨⟨name, _⟩, folder⟩, _⟩
    have names : slash ∉ baseName (dirName path) ∧ slash ∉ baseName path :=
      ⟨slash_not_mem_baseName _, slash_not_mem_baseName _⟩
    have whole : path = joinPath dir (joinPath (baseName (dirName path)) (baseName path)) := by
      refine (eq_joinPath_of_cutLast folder).trans ?_
      simp [joinPath]
    rw [whole, isWithin_joinPath, joinPath, List.count_append, List.count_cons_self,
      List.count_eq_zero_of_not_mem names.1, List.count_eq_zero_of_not_mem names.2]
    decide

theorem hasMatch_of_exact {tree : Tree} {dir stem stem2 : Text}
    (files : slash ∉ stem ∧ slash ∉ stem2) (exact : zlymeDirExact tree dir stem stem2 = true) :
    hasMatch tree dir stem stem2 = true := by
  rw [zlymeDirExact, Bool.and_eq_true, List.any_eq_true] at exact
  rcases exact with ⟨isDir, base, member, found⟩
  rw [Bool.and_eq_true, List.any_eq_true] at found
  rcases found with ⟨_, path, isFile, both⟩
  rw [Bool.and_eq_true] at both
  have plain : slash ∉ base := by
    rcases List.mem_pair.mp member with rfl | rfl
    · exact files.1
    · exact files.2
  rw [hasMatch, isDir, Bool.true_and, List.any_eq_true]
  exact ⟨path, isFile, by rw [isWithin_of_isNamed plain both.1, both.2, Bool.and_self]⟩

/-! ## The library that is chosen -/

/-- Where a library has the saves of the tag. -/
def savesDir (tag root : Text) : Text :=
  joinPath (joinPath root (ascii "Saves")) tag

section SaveRoot

variable (setup : Setup) (tree : Tree) (rom tag : Text)

/-- A save of the game is in the list of patterns. -/
def isListed (root : Text) : Bool :=
  zlymeDirExact tree (savesDir tag root) (withoutSuffix (baseName rom))
    (withoutSuffix (withoutSuffix (baseName rom)))

/-- The library has a save of the game. -/
def hasSave (root : Text) : Bool :=
  hasMatch tree (savesDir tag root) (withoutSuffix (baseName rom))
    (withoutSuffix (withoutSuffix (baseName rom)))

/-- The library has any file of the system. -/
def hasFiles (root : Text) : Bool :=
  zlymeDirHasFiles tree (savesDir tag root)

def otherLibraries : List Text :=
  (zlymeEachLibrary setup).filter (· != zlymeLibraryRoot setup rom)

theorem not_mem_otherLibraries : zlymeLibraryRoot setup rom ∉ otherLibraries setup rom := by
  intro member
  simpa using (List.mem_filter.mp member).2

theorem hasSave_of_isListed (root : Text) (listed : isListed tree rom tag root = true) :
    hasSave tree rom tag root = true := by
  refine hasMatch_of_exact ⟨?_, ?_⟩ listed
  · exact fun member => slash_not_mem_baseName rom (mem_of_mem_withoutSuffix member)
  · exact fun member => slash_not_mem_baseName rom
      (mem_of_mem_withoutSuffix (mem_of_mem_withoutSuffix member))

theorem zlymeSaveRoot_eq : zlymeSaveRoot setup tree rom tag =
    preferred (zlymeLibraryRoot setup rom) (otherLibraries setup rom) (isListed tree rom tag)
      (hasFiles tree tag) := by
  have unfolded : zlymeSaveRoot setup tree rom tag =
      if isListed tree rom tag (zlymeLibraryRoot setup rom) then zlymeLibraryRoot setup rom
      else
        match (otherLibraries setup rom).find? (isListed tree rom tag) with
        | some other => other
        | none =>
            if hasFiles tree tag (zlymeLibraryRoot setup rom) then zlymeLibraryRoot setup rom
            else ((otherLibraries setup rom).find? fun root =>
              !isListed tree rom tag root && hasFiles tree tag root).getD
                (zlymeLibraryRoot setup rom) := rfl
  rw [unfolded, preferred]
  cases found : (otherLibraries setup rom).find? (isListed tree rom tag) with
  | some other => rfl
  | none =>
      have unlisted := none_of_find? found
      have loosely : (otherLibraries setup rom).find? (fun root =>
          !isListed tree rom tag root && hasFiles tree tag root) =
            (otherLibraries setup rom).find? (hasFiles tree tag) := by
        refine List.find?_congr fun root member => ?_
        rw [unlisted root member, Bool.not_false, Bool.true_and]
      rw [loosely]

end SaveRoot

/-- The saves are kept in the library of the game, or in the first other one, that has a save
of the game, exactly when the patterns pass over no such library. Then no library with a save
is passed over for one without. -/
theorem zlymeSaveRoot_iff (setup : Setup) (tree : Tree) (rom tag : Text) :
    (zlymeSaveRoot setup tree rom tag =
        preferred (zlymeLibraryRoot setup rom) (otherLibraries setup rom) (hasSave tree rom tag)
          (hasFiles tree tag) ↔
      (hasSave tree rom tag (zlymeLibraryRoot setup rom) = true →
        isListed tree rom tag (zlymeLibraryRoot setup rom) = true ∨
          (∀ root ∈ otherLibraries setup rom, isListed tree rom tag root = false) ∧
            (hasFiles tree tag (zlymeLibraryRoot setup rom) = true ∨
              ∀ root ∈ otherLibraries setup rom, hasFiles tree tag root = false)) ∧
      (hasSave tree rom tag (zlymeLibraryRoot setup rom) = false →
        ∀ first, (otherLibraries setup rom).find? (hasSave tree rom tag) = some first →
          isListed tree rom tag first = true ∨
            (∀ root ∈ otherLibraries setup rom, isListed tree rom tag root = false) ∧
              hasFiles tree tag (zlymeLibraryRoot setup rom) = false ∧
              (otherLibraries setup rom).find? (hasFiles tree tag) = some first)) ∧
    (zlymeSaveRoot setup tree rom tag =
        preferred (zlymeLibraryRoot setup rom) (otherLibraries setup rom) (hasSave tree rom tag)
          (hasFiles tree tag) →
      (∃ root, (root = zlymeLibraryRoot setup rom ∨ root ∈ otherLibraries setup rom) ∧
        hasSave tree rom tag root = true) →
      hasSave tree rom tag (zlymeSaveRoot setup tree rom tag) = true) := by
  constructor
  · rw [zlymeSaveRoot_eq]
    exact preferred_eq_iff (not_mem_otherLibraries setup rom) (hasSave_of_isListed tree rom tag)
  · intro same some'
    rw [same]
    exact preferred_wanted some'

/-! ### A state one level below -/

def twoCards : Setup where
  storage := ascii "/storage"
  sd2Root := ascii "/mnt/sd2"
  mediaRoot := ascii "/mnt/media"
  libraries := some (ascii "/storage\n/mnt/sd2\n")
  hasLibraryScript := true

def nestedState : Tree where
  files := [ascii "/storage/Saves/GB/Other.sav", ascii "/mnt/sd2/Saves/GB/mgba/Game.state1"]
  dirs := [ascii "/storage/Saves/GB", ascii "/mnt/sd2/Saves/GB", ascii "/mnt/sd2/Saves/GB/mgba"]
  links := []
  unbroken := by decide +kernel

/-- The second card has the state of the game, and the first card is chosen. -/
theorem nested_state_is_passed_over :
    preferred (zlymeLibraryRoot twoCards (ascii "/storage/Roms/GB/Game.gb"))
        (otherLibraries twoCards (ascii "/storage/Roms/GB/Game.gb"))
        (hasSave nestedState (ascii "/storage/Roms/GB/Game.gb") (ascii "GB"))
        (hasFiles nestedState (ascii "GB")) = ascii "/mnt/sd2" ∧
      zlymeSaveRoot twoCards nestedState (ascii "/storage/Roms/GB/Game.gb") (ascii "GB") =
        ascii "/storage" := by
  decide +kernel

end Zlyme.Games
