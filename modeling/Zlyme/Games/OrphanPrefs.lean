import Zlyme.Games.Tree

/-! # Orphan game preferences

`orphan-prefs` of `zlyme-game-cleanup.sh`, and which rows it never drops. A row
has no library of its own: the first folder of its path may be a card.
-/

namespace Zlyme.Games

open Foundation.Text
open Prefs (Text ascii slash)

/-! ## The cleanup -/

/-- The paths that `rom_file_here` looks up. -/
def isLookedUp (inner : Text) : Bool :=
  inner != [] && !hasInfix (ascii "..") inner && !(ascii "//").isPrefixOf inner &&
    inner.getLast? != some slash

def romFileHere (tree : Tree) (root tag inner : Text) : Bool :=
  isLookedUp inner &&
    (consoleDirs tree root tag).any fun dir => tree.isFile (joinPath dir inner)

def dirUnderConsole (tree : Tree) (root tag name : Text) : Bool :=
  (consoleDirs tree root tag).any fun dir => tree.isDir (joinPath dir name)

/-- `badge` and `inner`. The badge is empty where the path names no card. -/
def relBadge (setup : Setup) (tree : Tree) (rel : Text) : Text × Text :=
  if (ascii "SD2/").isPrefixOf rel then (ascii "SD2", rel.drop 4)
  else
    match cut slash rel with
    | some (first, rest) =>
        let media := joinPath setup.mediaRoot first
        if libIsPresent setup tree media || (setup.libraries.isNone && tree.isDir media) then
          (first, rest)
        else ([], rel)
    | none => ([], rel)

/-- The library that a badge names. -/
def badgeRoot (setup : Setup) (badge : Text) : Text :=
  if badge = ascii "SD2" then setup.sd2Root else joinPath setup.mediaRoot badge

/-- Whether the first folder of a path is a file or a folder of the main card. -/
def topIsHere (setup : Setup) (tree : Tree) (tag rel : Text) : Bool :=
  match cut slash rel with
  | some (top, _) =>
      romFileHere tree setup.storage tag top || dirUnderConsole tree setup.storage tag top
  | none => true

def romPrefIsOrphan (setup : Setup) (tree : Tree) (tag rel : Text) : Bool :=
  if tag = [] ∨ rel = [] then false
  else
    let (badge, inner) := relBadge setup tree rel
    let mainPresent := libIsPresent setup tree setup.storage
    let cardPresent := libIsPresent setup tree (badgeRoot setup badge)
    let found :=
      (mainPresent && romFileHere tree setup.storage tag rel) ||
        (badge != [] && cardPresent && romFileHere tree (badgeRoot setup badge) tag inner)
    let undecided :=
      !mainPresent || (badge != [] && !cardPresent) ||
        (!found && badge == [] && !topIsHere setup tree tag rel)
    !found && !undecided

/-- Whether `filter_orphan_prefs` leaves a line out. -/
def isOrphanLine (setup : Setup) (tree : Tree) (line : Text) : Bool :=
  match romRow line with
  | some (tag, rel) => romPrefIsOrphan setup tree tag rel
  | none => false

/-- The file after the call, and whether it succeeded. A dry run only counts. -/
def doOrphanPrefs (setup : Setup) (host : Prefs.Host) (dry : Bool) (tree : Tree)
    (prefs : Option Text) : Option Text × Bool :=
  match prefs with
  | none => (none, true)
  | some text =>
      if dry then (some text, true)
      else rewriteWithout host.locks host.write (isOrphanLine setup tree) text

/-! ## What a path may name -/

/-- The game of a path in a library: any path names one of the main card, a path
that begins with a card's name also one of that card. `SD2` is the second card,
never a volume. -/
inductive Names (setup : Setup) (rel : Text) : Text → Text → Prop
  | main : Names setup rel setup.storage rel
  | second (inner : Text) (isRel : rel = joinPath (ascii "SD2") inner) :
      Names setup rel setup.sd2Root inner
  | volume (name inner : Text) (named : name ≠ []) (whole : slash ∉ name)
      (other : name ≠ ascii "SD2") (isRel : rel = joinPath name inner) :
      Names setup rel (joinPath setup.mediaRoot name) inner

/-- What a dropped row says of one library that its path may name: the library is
there without the game, or the path begins with the name of a file or folder that
the console has on the main card. -/
def Missing (setup : Setup) (tree : Tree) (tag rel library inner : Text) : Prop :=
  if libIsPresent setup tree library then
    isLookedUp inner = true →
      ∀ dir ∈ consoleDirs tree library tag, tree.isFile (joinPath dir inner) = false
  else
    ∃ top, rel = joinPath top inner ∧ library = joinPath setup.mediaRoot top ∧
      ∃ dir ∈ consoleDirs tree setup.storage tag,
        tree.isFile (joinPath dir top) = true ∨ tree.isDir (joinPath dir top) = true

section Orphans

variable {setup : Setup} {tree : Tree} {tag rel : Text}

theorem romFileHere_false {root inner : Text} (absent : romFileHere tree root tag inner = false)
    (lookedUp : isLookedUp inner = true) :
    ∀ dir ∈ consoleDirs tree root tag, tree.isFile (joinPath dir inner) = false := by
  rw [romFileHere, lookedUp, Bool.true_and] at absent
  intro dir isConsole
  simpa using List.any_eq_false.mp absent dir isConsole

/-- All that lets a row be an orphan. -/
theorem romPrefIsOrphan_inv (orphan : romPrefIsOrphan setup tree tag rel = true) :
    tag ≠ [] ∧ rel ≠ [] ∧ libIsPresent setup tree setup.storage = true ∧
      romFileHere tree setup.storage tag rel = false ∧
      ((relBadge setup tree rel).1 ≠ [] →
        libIsPresent setup tree (badgeRoot setup (relBadge setup tree rel).1) = true ∧
          romFileHere tree (badgeRoot setup (relBadge setup tree rel).1) tag
            (relBadge setup tree rel).2 = false) ∧
      ((relBadge setup tree rel).1 = [] → topIsHere setup tree tag rel = true) := by
  rw [romPrefIsOrphan] at orphan
  split at orphan
  · cases orphan
  · rename_i named
    rw [not_or] at named
    refine ⟨named.1, named.2, ?_⟩
    dsimp only [bne] at orphan
    have decided : ∀ main here isEmpty card there top : Bool,
        (!(main && here || !isEmpty && card && there) &&
            !(!main || !isEmpty && !card ||
              !(main && here || !isEmpty && card && there) && isEmpty && !top)) = true →
          main = true ∧ here = false ∧ (isEmpty = false → card = true ∧ there = false) ∧
            (isEmpty = true → top = true) := by
      decide
    rcases decided _ _ _ _ _ _ orphan with ⟨present, absent, card, main⟩
    exact ⟨present, absent, fun isCard => card (beq_eq_false_iff_ne.mpr isCard),
      fun isMain => main (beq_iff_eq.mpr isMain)⟩

theorem relBadge_second (inner : Text) :
    relBadge setup tree (joinPath (ascii "SD2") inner) = (ascii "SD2", inner) := by
  have isSecond : (ascii "SD2/").isPrefixOf (joinPath (ascii "SD2") inner) = true := by
    rw [List.isPrefixOf_iff_prefix]
    exact ⟨inner, rfl⟩
  rw [relBadge, if_pos isSecond]
  rfl

theorem relBadge_volume {name inner : Text} (whole : slash ∉ name) (other : name ≠ ascii "SD2") :
    relBadge setup tree (joinPath name inner) =
      if libIsPresent setup tree (joinPath setup.mediaRoot name) ||
          (setup.libraries.isNone && tree.isDir (joinPath setup.mediaRoot name)) then
        (name, inner)
      else ([], joinPath name inner) := by
  have isCut : cut slash (joinPath name inner) = some (name, inner) := cut_append whole inner
  have notSecond : (ascii "SD2/").isPrefixOf (joinPath name inner) ≠ true := by
    intro isSecond
    rcases List.isPrefixOf_iff_prefix.mp isSecond with ⟨rest, isRel⟩
    have isCutSecond : cut slash (joinPath name inner) = some (ascii "SD2", rest) := by
      have whole : slash ∉ ascii "SD2" := by decide
      rw [← isRel]
      exact cut_append whole rest
    rw [isCut] at isCutSecond
    exact other (congrArg Prod.fst (Option.some.inj isCutSecond))
  rw [relBadge, if_neg notSecond, isCut]

/-- An orphan is missing from every library that its path may name. -/
theorem missing_of_orphan (orphan : romPrefIsOrphan setup tree tag rel = true) {library inner : Text}
    (names : Names setup rel library inner) : Missing setup tree tag rel library inner := by
  rcases romPrefIsOrphan_inv orphan with ⟨_, _, mainPresent, notMain, card, main⟩
  rw [Missing]
  cases names with
  | main =>
      rw [if_pos mainPresent]
      exact romFileHere_false notMain
  | second inner isRel =>
      subst isRel
      rw [relBadge_second] at card
      rcases card (List.cons_ne_nil _ _) with ⟨present, absent⟩
      rw [badgeRoot, if_pos rfl] at present absent
      rw [if_pos present]
      exact romFileHere_false absent
  | volume name inner named whole other isRel =>
      subst isRel
      rw [relBadge_volume whole other] at card main
      split at card
      · rcases card named with ⟨present, absent⟩
        rw [badgeRoot, if_neg other] at present absent
        rw [if_pos present]
        exact romFileHere_false absent
      · rename_i unknown
        rw [Bool.or_eq_true, not_or] at unknown
        rw [if_neg unknown.1]
        refine ⟨name, rfl, rfl, ?_⟩
        have top := main (by rw [if_neg (by simp [unknown])])
        rw [topIsHere, joinPath, cut_append whole inner] at top
        rcases Bool.or_eq_true _ _ |>.mp top with isFile | isDir
        · rw [romFileHere, Bool.and_eq_true] at isFile
          rcases List.any_eq_true.mp isFile.2 with ⟨dir, isConsole, found⟩
          exact ⟨dir, isConsole, .inl found⟩
        · rcases List.any_eq_true.mp isDir with ⟨dir, isConsole, found⟩
          exact ⟨dir, isConsole, .inr found⟩

end Orphans

/-! ## What the cleanup drops -/

/-- A line that is gone is a row of one game, and the game is missing from every
library that the path of the row may name. Only a card that is out whose name is
also a file or folder of the console on the main card is no such library. -/
theorem orphan_prefs_conservative (setup : Setup) (host : Prefs.Host) (dry : Bool) (tree : Tree)
    (prefs : Option Text) {line : Text} (present : line ∈ readLines (prefs.getD []))
    (gone : line ∉ readLines ((doOrphanPrefs setup host dry tree prefs).1.getD [])) :
    ∃ tag rel, romRow line = some (tag, rel) ∧ tag ≠ [] ∧ rel ≠ [] ∧
      libIsPresent setup tree setup.storage = true ∧
      ∀ library inner, Names setup rel library inner →
        Missing setup tree tag rel library inner := by
  have orphan : isOrphanLine setup tree line = true := by
    cases prefs with
    | none => exact absurd present gone
    | some text =>
        cases dry with
        | true => exact absurd present gone
        | false => exact rewriteWithout_gone present gone
  rw [isOrphanLine] at orphan
  split at orphan
  · rename_i tag rel isRow
    rcases romPrefIsOrphan_inv orphan with ⟨tagged, named, mainPresent, _⟩
    exact ⟨tag, rel, isRow, tagged, named, mainPresent, fun _ _ => missing_of_orphan orphan⟩
  · cases orphan

/-! ## Four rows -/

def row (tag rel : String) : Text :=
  Foundation.Text.joined 0x09 [ascii "rom", ascii tag, ascii rel, ascii "play", []]

def cardSetup : Setup where
  storage := ascii "/storage"
  sd2Root := ascii "/mnt/sd2"
  mediaRoot := ascii "/mnt/media"
  libraries := some (unlines 0x0a [ascii "/storage", ascii "/mnt/sd2"])
  hasLibraryScript := true

def cardTree : Tree where
  files := [ascii "/storage/Roms/Boy (GB)/A..gb", ascii "/storage/Roms/GG/b.gg"]
  dirs := [ascii "/storage", ascii "/storage/Roms", ascii "/storage/Roms/Boy (GB)",
    ascii "/storage/Roms/Boy (GB)/nested", ascii "/storage/Roms/GG", ascii "/mnt/sd2"]
  links := []
  unbroken := by decide +kernel

def cardPrefs : List Text :=
  [row "GB" "nested/gone.gb", row "GB" "A..gb", row "GG" "b.gg", row "GB" "SD2/c.gb"]

def cleaned : Option Text :=
  (doOrphanPrefs cardSetup ⟨true, .written ⟨1, 2, 3, 4, 5⟩⟩ false cardTree
    (some (unlines 0x0a cardPrefs))).1

/-- The main card has a folder with the name of a card that is out, and it lacks
the game. -/
theorem nested_row_missing :
    ∃ tag rel, romRow (row "GB" "nested/gone.gb") = some (tag, rel) ∧ tag ≠ [] ∧ rel ≠ [] ∧
      libIsPresent cardSetup cardTree cardSetup.storage = true ∧
      ∀ library inner, Names cardSetup rel library inner →
        Missing cardSetup cardTree tag rel library inner :=
  orphan_prefs_conservative cardSetup ⟨true, .written ⟨1, 2, 3, 4, 5⟩⟩ false cardTree
    (some (unlines 0x0a cardPrefs)) (by decide +kernel) (by decide +kernel)

/-- All four rows are dropped: the first one is also that of a volume `nested` that
is out, the games of the next two are on the main card, and the last one is also
that of a volume `SD2` that is out. -/
theorem card_rows_dropped :
    cleaned = some [] ∧
      libIsPresent cardSetup cardTree (ascii "/storage") = true ∧
      libIsPresent cardSetup cardTree (ascii "/mnt/media/nested") = false ∧
      cardTree.isFile (ascii "/storage/Roms/Boy (GB)/A..gb") = true ∧
      cardTree.isFile (ascii "/storage/Roms/GG/b.gg") = true ∧
      libIsPresent cardSetup cardTree (ascii "/mnt/media/SD2") = false := by
  decide +kernel

end Zlyme.Games
