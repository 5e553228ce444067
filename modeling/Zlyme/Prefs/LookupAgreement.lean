import Zlyme.Foundation.Decimal
import Zlyme.Prefs.Lookup
import Zlyme.Prefs.Semantics
import Mathlib.Data.List.Find

/-! # Where the menu and the launcher find the same preference

Both take the first row that sets anything. The launcher also tries the folder
row at the path of the game itself, which the menu tries for a game outside of
every folder only.
-/

namespace Zlyme.Prefs

open Foundation Foundation.Text Foundation.KeyedRows

/-! ## The first value that is set -/

def firstSet (values : List Value) : Value :=
  (values.find? (· ≠ ([], []))).getD ([], [])

/-- What a search that finds only values that are set makes of a value. -/
def ifSet (value : Value) : Option Value :=
  if value = ([], []) then none else some value

@[simp] theorem firstSet_nil : firstSet [] = ([], []) := rfl

theorem firstSet_cons (value : Value) (rest : List Value) :
    firstSet (value :: rest) = if value = ([], []) then firstSet rest else value := by
  rw [firstSet, List.find?_cons]
  by_cases isUnset : value = ([], [])
  · simp [isUnset, firstSet]
  · simp [isUnset]

@[simp] theorem firstSet_single (value : Value) : firstSet [value] = value := by
  rw [firstSet_cons, firstSet_nil]
  split
  · rename_i isUnset
    exact isUnset.symm
  · rfl

theorem firstSet_append (front back : List Value) :
    firstSet (front ++ back) =
      if firstSet front = ([], []) then firstSet back else firstSet front := by
  induction front with
  | nil => rfl
  | cons value rest induction =>
      rw [List.cons_append, firstSet_cons, firstSet_cons, induction]
      by_cases isUnset : value = ([], [])
      · rw [if_pos isUnset, if_pos isUnset]
      · rw [if_neg isUnset, if_neg isUnset, if_neg isUnset]

theorem ifSet_eq_some {value found : Value} :
    ifSet value = some found ↔ value ≠ ([], []) ∧ value = found := by
  rw [ifSet]
  by_cases isUnset : value = ([], []) <;> simp [isUnset]

theorem ifSet_eq_none {value : Value} : ifSet value = none ↔ value = ([], []) := by
  rw [ifSet]
  by_cases isUnset : value = ([], []) <;> simp [isUnset]

/-! ## The rows in their order -/

/-- The folders of the menu: the parents of a path, or the path that has none. -/
def menuFolders (rel : Text) : List Text :=
  if heads slash rel = [] then [rel] else heads slash rel

def romValue (rows : List Pref) (tag rel : Text) : Value :=
  valueIn rows (keyOf (ascii "rom") tag rel)

def folderValue (rows : List Pref) (tag folder : Text) : Value :=
  valueIn rows (keyOf (ascii "folder") tag folder)

def tagValue (rows : List Pref) (tag : Text) : Value :=
  valueIn rows (keyOf (ascii "tag") tag [])

/-- What a game has from its parent folders and its console. -/
def inherited (rows : List Pref) (tag rel : Text) : Value :=
  firstSet ((heads slash rel).map (folderValue rows tag) ++ [tagValue rows tag])

/-- A folder row at the path of the game itself changes nothing: the game has a
row of its own, it lies in no folder, or the row sets nothing that is new. -/
def OwnFolderSilent (rows : List Pref) (tag rel : Text) : Prop :=
  romValue rows tag rel ≠ ([], []) ∨ slash ∉ rel ∨ folderValue rows tag rel = ([], []) ∨
    folderValue rows tag rel = inherited rows tag rel

/-- The topmost folder is searched once more at the end, to no effect. -/
theorem firstSet_menuFolders {work parent after : Text}
    (isCut : cutLast slash work = some (parent, after)) (value : Text → Value) :
    firstSet ((menuFolders work).map value) =
      if value parent = ([], []) then firstSet ((menuFolders parent).map value)
      else value parent := by
  have parents : menuFolders work = parent :: heads slash parent := by
    rw [menuFolders, heads_of_cutLast isCut, if_neg (List.cons_ne_nil _ _)]
  rw [parents, List.map_cons, firstSet_cons]
  by_cases isUnset : value parent = ([], [])
  · rw [if_pos isUnset, if_pos isUnset, menuFolders]
    split
    · rename_i topmost
      simp [topmost, firstSet_cons, isUnset]
    · rfl
  · rw [if_neg isUnset, if_neg isUnset]

/-! ## The menu -/

/-- The file is a table as it is written, and a cache that counts as fresh is
what the file is read as. -/
structure Written (maxPath : Nat) (w : World) (rows : List Pref) : Prop where
  isFile : w.text = formatRows rows
  plain : ∀ row ∈ rows, PlainRow maxPath row
  distinct : Distinct Pref.key rows
  few : rows.length ≤ prefsMax
  cached : w.memory.loaded = true → w.memory.seen = w.file.map Prod.snd →
    ∀ key, valueIn w.memory.rows key = valueIn (fileRows maxPath w.text) key

theorem Holds.written {maxPath : Nat} (roomy : 89 ≤ maxPath) {w : World} {values : Key → Value}
    {live : List Key} (holds : Holds maxPath w values live) : ∃ rows, Written maxPath w rows := by
  rcases holds.table with ⟨rows, isFile, table⟩
  refine ⟨rows, isFile, fun row member => (table.good row member).plain, table.distinct,
    table.few, ?_⟩
  intro loaded seen key
  rw [holds.cached loaded seen key, isFile, fileRows_formatRows roomy table.good]
  exact (table.kept.values key).symm

/-- Every run of calls leaves such a file. -/
theorem run_written {maxPath : Nat} (roomy : 89 ≤ maxPath) {calls : List (Host × Call)}
    (admissible : Admissible maxPath calls) : ∃ rows, Written maxPath (run maxPath calls) rows :=
  (run_holds roomy admissible).1.written roomy

theorem valueIn_isRead {rows : List Pref} (distinct : Distinct Pref.key rows) {kind : Text}
    (notComment : kind.head? ≠ some 0x23) (tag rel : Text) :
    valueIn (rows.filter Pref.isRead) (keyOf kind tag rel) = valueIn rows (keyOf kind tag rel) := by
  rw [valueIn, valueIn, lookup_filter distinct]
  cases found : lookup Pref.key rows (keyOf kind tag rel) with
  | none => rfl
  | some row =>
      have isKind : row.kind = kind := congrArg Prod.fst (mem_of_lookup found).2
      have isRead : row.isRead = row.isSet := by
        rw [Pref.isRead, isKind, bne_iff_ne.mpr notComment, Bool.and_true]
      cases isSet : row.isSet with
      | true => simp [Option.filter, isRead, isSet]
      | false => simp [Option.filter, isRead, isSet, value_of_not_isSet isSet]

section Menu

variable {maxPath : Nat} {w : World} {rows : List Pref}

theorem prefsEnsure_written (roomy : 89 ≤ maxPath) (written : Written maxPath w rows) :
    Written maxPath (prefsEnsure maxPath w) rows ∧
      ∀ key, valueIn (prefsEnsure maxPath w).memory.rows key =
        valueIn (rows.filter Pref.isRead) key := by
  have read : fileRows maxPath w.text = rows.filter Pref.isRead := by
    rw [written.isFile, fileRows_formatRows_plain roomy written.plain]
  have few : (fileRows maxPath w.text).length ≤ prefsMax := by
    rw [read]
    exact (List.length_filter_le _ _).trans written.few
  have reloaded : Written maxPath (prefsReload maxPath w) rows ∧
      ∀ key, valueIn (prefsReload maxPath w).memory.rows key =
        valueIn (rows.filter Pref.isRead) key := by
    rw [prefsReload_eq, List.take_of_length_le few]
    exact ⟨⟨written.isFile, written.plain, written.distinct, written.few, fun _ _ _ => rfl⟩,
      fun key => by rw [read]⟩
  have fresh : w.memory.loaded = true → w.memory.seen = w.file.map Prod.snd →
      Written maxPath w rows ∧ ∀ key, valueIn w.memory.rows key =
        valueIn (rows.filter Pref.isRead) key := by
    intro loaded seen
    exact ⟨written, fun key => by rw [written.cached loaded seen key, read]⟩
  rw [prefsEnsure]
  split
  · rename_i text stamp isVersion
    split
    · rename_i isFresh
      rw [Bool.and_eq_true, beq_iff_eq] at isFresh
      exact fresh isFresh.1 (by rw [isFresh.2, isVersion]; rfl)
    · exact reloaded
  · rename_i absent
    split
    · rename_i isFresh
      rw [Bool.and_eq_true, beq_iff_eq] at isFresh
      exact fresh isFresh.1 (by rw [isFresh.2, absent]; rfl)
    · exact reloaded

/-- A value of the table fits the buffers of the lookups. -/
theorem valueIn_fits (plain : ∀ row ∈ rows, PlainRow maxPath row) (key : Key) :
    (valueIn rows key).1.length < governorSize ∧ (valueIn rows key).2.length < emuSize := by
  rw [valueIn]
  cases found : lookup Pref.key rows key with
  | none => decide
  | some row =>
      have isPlain := plain row (mem_of_lookup found).1
      exact ⟨isPlain.governor.fits, isPlain.emu.fits⟩

variable {gn en : Nat}

/-- One search of the menu. -/
theorem prefsGetSet_written (roomy : 89 ≤ maxPath) (written : Written maxPath w rows)
    (govRoom : governorSize ≤ gn) (emuRoom : emuSize ≤ en) (kind : Text)
    (notComment : kind.head? ≠ some 0x23) (tag rel : Text) :
    Written maxPath (prefsGetSet maxPath kind tag rel gn en w).1 rows ∧
      (prefsGetSet maxPath kind tag rel gn en w).2 = ifSet (valueIn rows (keyOf kind tag rel)) := by
  rcases prefsEnsure_written roomy written with ⟨ensured, read⟩
  have fits := valueIn_fits written.plain (keyOf kind tag rel)
  have value := (read (keyOf kind tag rel)).trans
    (valueIn_isRead written.distinct notComment tag rel)
  have whole : prefsGetExact maxPath kind tag rel gn en w =
      (prefsEnsure maxPath w, valueIn rows (keyOf kind tag rel)) := by
    rw [← value] at fits ⊢
    rw [valueIn, ← find?_isFor] at fits ⊢
    rw [prefsGetExact]
    split
    · rename_i row isRow
      rw [isRow] at fits ⊢
      have govFits : row.governor.length ≤ gn - 1 := Nat.le_sub_one_of_lt (fits.1.trans_le govRoom)
      have emuFits : row.emu.length ≤ en - 1 := Nat.le_sub_one_of_lt (fits.2.trans_le emuRoom)
      rw [snprintf, snprintf, List.take_of_length_le govFits, List.take_of_length_le emuFits]
      rfl
    · rename_i absent
      rw [absent]
      rfl
  rw [prefsGetSet, whole]
  refine ⟨ensured, ?_⟩
  rcases valueIn rows (keyOf kind tag rel) with ⟨gov, emu⟩
  rw [ifSet]
  by_cases isUnset : gov = [] ∧ emu = []
  · simp [isUnset]
  · have isSet : gov ≠ [] ∨ emu ≠ [] := by tauto
    have notUnset : (gov, emu) ≠ ([], []) := by simpa using isUnset
    rw [if_neg notUnset]
    exact if_pos isSet

/-- The searches of the menu among the folders. -/
theorem lookupFolders_written (roomy : 89 ≤ maxPath) (written : Written maxPath w rows)
    (govRoom : governorSize ≤ gn) (emuRoom : emuSize ≤ en) (tag work : Text) :
    Written maxPath (lookupFolders maxPath tag gn en w work).1 rows ∧
      (lookupFolders maxPath tag gn en w work).2 =
        ifSet (firstSet ((menuFolders work).map (folderValue rows tag))) := by
  have search := fun {w : World} (written : Written maxPath w rows) (folder : Text) =>
    prefsGetSet_written roomy written govRoom emuRoom (ascii "folder") (by decide) tag folder
  fun_induction lookupFolders maxPath tag gn en w work with
  | case1 w work parent _ isCut next value found =>
      rcases search written parent with ⟨stays, result⟩
      rw [found] at stays result
      rcases ifSet_eq_some.mp result.symm with ⟨isSet, isValue⟩
      rw [firstSet_menuFolders isCut, folderValue, if_neg isSet]
      exact ⟨stays, result⟩
  | case2 w work parent _ isCut next missed induction =>
      rcases search written parent with ⟨stays, result⟩
      rw [missed] at stays result
      rw [firstSet_menuFolders isCut, folderValue, if_pos (ifSet_eq_none.mp result.symm)]
      exact induction stays
  | case3 w work isCut =>
      have alone : menuFolders work = [work] := by
        rw [menuFolders, heads_eq_nil (cutLast_eq_none.mp isCut), if_pos rfl]
      rcases search written work with ⟨stays, result⟩
      rw [alone, List.map_cons, List.map_nil, firstSet_single, folderValue]
      exact ⟨stays, result⟩

theorem lookupRel_written (roomy : 89 ≤ maxPath) (written : Written maxPath w rows)
    (govRoom : governorSize ≤ gn) (emuRoom : emuSize ≤ en) (tag : Text) {rel : Text}
    (fits : rel.length < maxPath) :
    Written maxPath (lookupRel maxPath tag rel gn en w).1 rows ∧
      (lookupRel maxPath tag rel gn en w).2 =
        ifSet (firstSet (romValue rows tag rel :: (menuFolders rel).map (folderValue rows tag))) := by
  rcases prefsGetSet_written roomy written govRoom emuRoom (ascii "rom") (by decide) tag rel
    with ⟨stays, result⟩
  have whole : snprintf maxPath rel = rel := List.take_of_length_le (Nat.le_sub_one_of_lt fits)
  rw [lookupRel, firstSet_cons, romValue, whole]
  split
  · rename_i next value found
    rw [found] at stays result
    rw [if_neg (ifSet_eq_some.mp result.symm).1]
    exact ⟨stays, result⟩
  · rename_i next missed
    rw [missed] at stays result
    rw [if_pos (ifSet_eq_none.mp result.symm)]
    exact lookupFolders_written roomy stays govRoom emuRoom tag rel

/-- The values of the menu in their order. -/
def menuValues (rows : List Pref) (tag rel : Text) : List Value :=
  if rel = [] then [tagValue rows tag]
  else
    romValue rows tag rel :: (menuFolders rel).map (folderValue rows tag) ++ [tagValue rows tag]

/-- What the menu finds, and whether it is anything. -/
theorem prefsLookup_written (roomy : 89 ≤ maxPath) (written : Written maxPath w rows)
    (govRoom : governorSize ≤ gn) (emuRoom : emuSize ≤ en) {tag rel : Text} (named : tag ≠ [])
    (fits : rel.length < maxPath) :
    (prefsLookup maxPath tag rel gn en w).2 =
      (firstSet (menuValues rows tag rel), decide (firstSet (menuValues rows tag rel) ≠ ([], []))) := by
  have ensured := (prefsEnsure_written roomy written).1
  have searched : ∃ front : List Value,
      firstSet (menuValues rows tag rel) = firstSet (front ++ [tagValue rows tag]) ∧
      ∃ next, Written maxPath next rows ∧
        (if rel = [] then (prefsEnsure maxPath w, none)
          else lookupRel maxPath tag rel gn en (prefsEnsure maxPath w)) =
            (next, ifSet (firstSet front)) := by
    rw [menuValues]
    by_cases isRoot : rel = []
    · rw [if_pos isRoot, if_pos isRoot]
      exact ⟨[], rfl, _, ensured, rfl⟩
    · rw [if_neg isRoot, if_neg isRoot]
      rcases lookupRel_written roomy ensured govRoom emuRoom tag fits with ⟨stays, result⟩
      exact ⟨_, rfl, _, stays, Prod.ext rfl result⟩
  rcases searched with ⟨front, values, next, stays, isNext⟩
  have last := (prefsGetSet_written roomy stays govRoom emuRoom (ascii "tag")
    (by decide) tag []).2
  rw [prefsLookup, if_neg named, isNext, values, firstSet_append]
  by_cases isUnset : firstSet front = ([], [])
  · rw [isUnset, ifSet, if_pos rfl, if_pos rfl, firstSet_single]
    dsimp only
    split
    · rename_i after value found
      rw [found] at last
      rcases ifSet_eq_some.mp last.symm with ⟨isSet, isValue⟩
      rw [tagValue, decide_eq_true isSet, isValue]
    · rename_i after missed
      rw [missed] at last
      rw [tagValue, ifSet_eq_none.mp last.symm]
      rfl
  · rw [ifSet, if_neg isUnset, if_neg isUnset, decide_eq_true isUnset]

end Menu

/-! ## The launcher -/

section Launcher

variable {ν : Type} [DecidableEq ν] {awk : Awk ν}

/-- The searches of the launcher among the folders, which begin at the game. -/
theorem zlymePrefFolders_eq (file : Option Text) (tag : Text) (value : Value) {work : Text}
    (nonempty : work ≠ []) (relative : work.head? ≠ some slash) :
    zlymePrefFolders awk file tag value work =
      if value = ([], []) then
        firstSet ((work :: heads slash work).map (zlymePrefFields awk file (ascii "folder") tag))
      else value := by
  fun_induction zlymePrefFolders awk file tag value work with
  | case1 value work searches parent after isCut induction =>
      rcases cutLast_eq_some.mp isCut with ⟨isWork, _⟩
      cases parent with
      | nil =>
          rw [isWork] at relative
          exact absurd rfl relative
      | cons byte rest =>
          have relativeParent : (byte :: rest).head? ≠ some slash := by
            rw [isWork] at relative
            exact relative
          rw [if_pos searches.1, List.map_cons, firstSet_cons, heads_of_cutLast isCut]
          exact induction (List.cons_ne_nil _ _) relativeParent
  | case2 value work searches isCut =>
      rw [if_pos searches.1, heads_eq_nil (cutLast_eq_none.mp isCut), List.map_cons, List.map_nil,
        firstSet_single]
  | case3 value work stops =>
      rw [if_neg fun isUnset => stops ⟨isUnset, nonempty⟩]

theorem zlymePrefLookup_eq (file : Option Text) (tag : Text) {rel : Text}
    (relative : rel.head? ≠ some slash) :
    zlymePrefLookup awk file tag rel [] =
      firstSet (if rel = [] then [zlymePrefFields awk file (ascii "tag") tag []]
        else zlymePrefFields awk file (ascii "rom") tag rel ::
          (rel :: heads slash rel).map (zlymePrefFields awk file (ascii "folder") tag) ++
            [zlymePrefFields awk file (ascii "tag") tag []]) := by
  rw [zlymePrefLookup]
  by_cases isRoot : rel = []
  · simp [isRoot]
  · simp only [if_pos, if_neg isRoot, zlymePrefFolders_eq file tag _ isRoot relative]
    rw [firstSet_append, firstSet_cons, firstSet_single]

/-- What an awk does with texts without a backslash, and with the empty text. -/
structure Awk.Documented (awk : Awk ν) : Prop where
  assigned : ∀ text, 0x5c ∉ text → awk.assigned text = text
  numberNil : awk.number [] = none

/-- The rows that awk takes for equal are equal: the kinds are in lower case, no
text has a backslash, and no row has another spelling of a number in the path. -/
structure SameComparisons (awk : Awk ν) (rows : List Pref) (tag rel : Text) : Prop where
  kinds : ∀ row ∈ rows, row.kind.map toLower = row.kind
  tagPlain : 0x5c ∉ tag
  relPlain : 0x5c ∉ rel
  numbers : ∀ row ∈ rows, ∀ path ∈ rel :: heads slash rel,
    awk.equal row.rel path = true → row.rel = path

theorem Awk.equal_self (awk : Awk ν) (text : Text) : awk.equal text text = true := by
  rw [Awk.equal]
  split
  · rename_i first second isFirst isSecond
    rw [isFirst] at isSecond
    exact beq_iff_eq.mpr (Option.some.inj isSecond)
  · exact beq_self_eq_true text

theorem awkField_line {maxPath : Nat} {row : Pref} (plain : PlainRow maxPath row) (index : Nat) :
    awkField row.line index =
      ([row.kind, row.tag, row.rel, row.governor, row.emu][index]?).getD [] := by
  have split : row.line.splitOn 0x09 = [row.kind, row.tag, row.rel, row.governor, row.emu] := by
    refine List.splitOn_intercalate 0x09 ?_ (List.cons_ne_nil _ _)
    intro field isField
    simp only [List.mem_cons, List.not_mem_nil, or_false] at isField
    rcases isField with rfl | rfl | rfl | rfl | rfl
    · exact plain.kind.noTab
    · exact plain.tag.noTab
    · exact plain.rel.noTab
    · exact plain.governor.noTab
    · exact plain.emu.noTab
  rw [awkField, split]

section Rows

variable {maxPath : Nat} {rows : List Pref} {tag rel : Text}

/-- One search of the launcher, for a path that awk compares as the menu does. -/
theorem zlymePrefFields_eq (documented : awk.Documented) (plain : ∀ row ∈ rows, PlainRow maxPath row)
    (kinds : ∀ row ∈ rows, row.kind.map toLower = row.kind) (tagPlain : 0x5c ∉ tag) {kind path : Text}
    (kindPlain : 0x5c ∉ kind) (kindLower : kind.map toLower = kind) (pathPlain : 0x5c ∉ path)
    (numbers : ∀ row ∈ rows, awk.equal row.rel path = true → row.rel = path) :
    zlymePrefFields awk (some (formatRows rows)) kind tag path =
      valueIn rows (keyOf kind tag path) := by
  have isMatch : ∀ row ∈ rows,
      awkMatches awk kind tag path row.line = row.isFor kind tag path := by
    intro row member
    have fields := awkField_line (plain row member)
    have sameKind : sameCaseless row.kind kind = (row.kind == kind) := by
      rw [sameCaseless, kinds row member, kindLower]
    have samePath : awk.equal row.rel path = (row.rel == path) := by
      apply Bool.eq_iff_iff.mpr
      rw [beq_iff_eq]
      exact ⟨numbers row member, fun same => same ▸ awk.equal_self row.rel⟩
    rw [awkMatches, documented.assigned kind kindPlain, documented.assigned tag tagPlain,
      documented.assigned path pathPlain, fields, fields, fields, Pref.isFor, ← sameKind, ← samePath]
    rfl
  have records : lines (· == 0x0a) (formatRows rows) = rows.map Pref.line := by
    refine lines_unlines ?_ rfl
    intro line isLine byte inside
    rcases List.mem_map.mp isLine with ⟨row, isRow, rfl⟩
    exact beq_eq_false_iff_ne.mpr ((plain row isRow).mem_line inside).2
  have found : (lines (· == 0x0a) (formatRows rows)).find? (awkMatches awk kind tag path) =
      (lookup Pref.key rows (keyOf kind tag path)).map Pref.line := by
    rw [records, List.find?_map, ← find?_isFor]
    exact congrArg (Option.map Pref.line) (List.find?_congr isMatch)
  rw [zlymePrefFields, zlymePrefField, zlymePrefField, found, valueIn]
  cases isRow : lookup Pref.key rows (keyOf kind tag path) with
  | none => rfl
  | some row =>
      have fields := awkField_line (plain row (mem_of_lookup isRow).1)
      simp only [Option.map_some, fields]
      rfl

theorem zlymePrefFields_text (awk : Awk ν) (w : World) (kind tag path : Text) :
    zlymePrefFields awk (w.file.map Prod.fst) kind tag path =
      zlymePrefFields awk (some w.text) kind tag path := by
  rw [World.text]
  cases w.file with
  | none => rfl
  | some version => rfl

/-- The values of the launcher in their order. -/
def launcherValues (rows : List Pref) (tag rel : Text) : List Value :=
  if rel = [] then [tagValue rows tag]
  else
    romValue rows tag rel :: (rel :: heads slash rel).map (folderValue rows tag) ++
      [tagValue rows tag]

/-- What the launcher finds. -/
theorem zlymePrefLookup_written {w : World} (documented : awk.Documented)
    (written : Written maxPath w rows) (relative : rel.head? ≠ some slash)
    (comparisons : SameComparisons awk rows tag rel) :
    zlymePrefLookup awk (w.file.map Prod.fst) tag rel [] =
      firstSet (launcherValues rows tag rel) := by
  have search : ∀ kind path, 0x5c ∉ kind → kind.map toLower = kind → 0x5c ∉ path →
      (∀ row ∈ rows, awk.equal row.rel path = true → row.rel = path) →
      zlymePrefFields awk (w.file.map Prod.fst) kind tag path =
        valueIn rows (keyOf kind tag path) := by
    intro kind path kindPlain kindLower pathPlain numbers
    rw [zlymePrefFields_text, written.isFile]
    exact zlymePrefFields_eq documented written.plain comparisons.kinds comparisons.tagPlain
      kindPlain kindLower pathPlain numbers
  have ofTag := search (ascii "tag") [] (by decide) (by decide) List.not_mem_nil (by
    intro row _ same
    rw [Awk.equal, documented.numberNil] at same
    cases isNumber : awk.number row.rel <;> simpa [isNumber] using same)
  have ofRom := search (ascii "rom") rel (by decide) (by decide) comparisons.relPlain
    fun row member => comparisons.numbers row member rel List.mem_cons_self
  have ofFolder : (rel :: heads slash rel).map
      (zlymePrefFields awk (w.file.map Prod.fst) (ascii "folder") tag) =
        (rel :: heads slash rel).map (folderValue rows tag) := by
    apply List.map_congr_left
    intro path isPath
    have pathPlain : 0x5c ∉ path := by
      rcases List.mem_cons.mp isPath with rfl | isHead
      · exact comparisons.relPlain
      · exact fun member => comparisons.relPlain ((prefix_of_mem_heads isHead).subset member)
    exact search (ascii "folder") path (by decide) (by decide) pathPlain
      fun row member => comparisons.numbers row member path isPath
  rw [zlymePrefLookup_eq _ tag relative, ofTag, ofRom, ofFolder]
  rfl

end Rows

end Launcher

/-! ## Where they agree -/

/-- The two orders differ in the folder row at the path of a nested game. -/
theorem firstSet_values_eq_iff (rows : List Pref) (tag rel : Text) :
    firstSet (menuValues rows tag rel) = firstSet (launcherValues rows tag rel) ↔
      OwnFolderSilent rows tag rel := by
  rw [menuValues, launcherValues, OwnFolderSilent]
  by_cases isRoot : rel = []
  · simp [isRoot]
  rw [if_neg isRoot, if_neg isRoot, List.cons_append, List.cons_append, firstSet_cons, firstSet_cons]
  by_cases romSet : romValue rows tag rel = ([], [])
  · rw [if_pos romSet, if_pos romSet]
    by_cases nested : slash ∈ rel
    · have own : firstSet ((rel :: heads slash rel).map (folderValue rows tag) ++ [tagValue rows tag]) =
          if folderValue rows tag rel = ([], []) then inherited rows tag rel
          else folderValue rows tag rel := by
        rw [List.map_cons, List.cons_append, firstSet_cons, inherited]
      rw [menuFolders, if_neg (heads_ne_nil nested), own, ← inherited]
      by_cases isUnset : folderValue rows tag rel = ([], [])
      · simp [isUnset]
      · rw [if_neg isUnset]
        simp [romSet, nested, isUnset, eq_comm]
    · have outside : heads slash rel = [] := heads_eq_nil nested
      rw [menuFolders, if_pos outside, outside]
      exact iff_of_true rfl (.inr (.inl nested))
  · rw [if_neg romSet, if_neg romSet]
    exact iff_of_true rfl (.inl romSet)

/-- An awk that reads plain decimal numbers. -/
def sampleAwk : Awk Nat where
  assigned := id
  number text :=
    if text ≠ [] ∧ text.all Decimal.isDigit = true then some (Decimal.value text) else none

/-- The world after one set of a folder. -/
def sampleFolder (folder : String) : World :=
  run 512 [(sampleHost, .set (ascii "folder") (ascii "GB") (ascii folder) (ascii "play") (ascii "mgba"))]

def sampleRow : Pref :=
  ⟨ascii "folder", ascii "GB", ascii "a", ascii "play", ascii "mgba"⟩

theorem plainField_of {size : Nat} {text : Text}
    (whole : text.all (fun byte => byte != 0 && byte != 0x09 && byte != 0x0a) = true)
    (fits : text.length < size) : PlainField size text where
  whole byte member := by
    have checked := List.all_eq_true.mp whole byte member
    simp only [Bool.and_eq_true, bne_iff_ne] at checked
    tauto
  fits := fits

theorem sampleRow_plain : PlainRow 512 sampleRow where
  kind := plainField_of (by decide) (by decide)
  tag := plainField_of (by decide) (by decide)
  rel := plainField_of (by decide) (by decide)
  governor := plainField_of (by decide) (by decide)
  emu := plainField_of (by decide) (by decide)
  governorEnds byte isLast := by
    cases isLast
    rfl
  emuEnds byte isLast := by
    cases isLast
    rfl

theorem sampleFolder_written : Written 512 (sampleFolder "a") [sampleRow] where
  isFile := by decide
  plain row member := List.mem_singleton.mp member ▸ sampleRow_plain
  distinct := List.nodup_singleton _
  few := by decide
  cached _ _ key := by
    have same : (sampleFolder "a").memory.rows = fileRows 512 (sampleFolder "a").text := by
      decide
    rw [same]

/-- To awk a folder `01` is the folder `1`. -/
example :
    (prefsLookup 512 (ascii "GB") (ascii "01/b.gb") governorSize emuSize
        (sampleFolder "1")).2.1 = ([], []) ∧
      zlymePrefLookup sampleAwk ((sampleFolder "1").file.map Prod.fst) (ascii "GB")
        (ascii "01/b.gb") [] = (ascii "play", ascii "mgba") := by
  decide +kernel

end Zlyme.Prefs
