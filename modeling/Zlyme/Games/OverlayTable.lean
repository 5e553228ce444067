import Mathlib.Data.List.DropRight
import Mathlib.Data.List.Induction
import Zlyme.Foundation.Decimal
import Zlyme.Games.Tree

/-! # The overlays of content directories

`zlyme-overlay` keeps a table from directories to overlay configurations, and finds the entry of
the deepest directory above a game. `install_overlay` writes the configuration of one directory.
-/

namespace Zlyme.Games.OverlayTable

open Foundation.Text Foundation.Decimal
open Prefs (Text ascii slash)

def tab : UInt8 :=
  0x09

def newline : UInt8 :=
  0x0a

def backslash : UInt8 :=
  0x5c

/-! ## Paths and texts of the shell -/

/-- The standard `dirname`. -/
def dirname (path : Text) : Text :=
  let stripped := path.rdropWhile (· == slash)
  if stripped = [] then if path = [] then [dot] else [slash]
  else
    let front := stripped.rdropWhile (· != slash)
    if front = [] then [dot]
    else
      let parent := front.rdropWhile (· == slash)
      if parent = [] then [slash] else parent

/-- What a command substitution keeps. -/
def chomp (text : Text) : Text :=
  text.rdropWhile (· == newline)

def isOctal (byte : UInt8) : Bool :=
  0x30 ≤ byte && byte ≤ 0x37

/-- The byte for which a letter stands after a backslash. -/
def escapeOf (byte : UInt8) : UInt8 :=
  if byte = 0x61 then 0x07
  else if byte = 0x62 then 0x08
  else if byte = 0x66 then 0x0c
  else if byte = 0x6e then 0x0a
  else if byte = 0x72 then 0x0d
  else if byte = 0x74 then 0x09
  else if byte = 0x76 then 0x0b
  else byte

/-- Where in an escape a text is read. -/
inductive Escape
  | outside
  | begun
  | octal (value : Nat) (digits : Nat)

/-- The text of an assignment `-v d=text`, which `awk` reads as a string constant. -/
def awkFrom : Escape → Text → Text
  | .outside, [] => []
  | .begun, [] => []
  | .octal value _, [] => [UInt8.ofNat value]
  | .outside, byte :: rest =>
      if byte = backslash then awkFrom .begun rest else byte :: awkFrom .outside rest
  | .begun, byte :: rest =>
      if isOctal byte then awkFrom (.octal (digitValue byte) 1) rest
      else escapeOf byte :: awkFrom .outside rest
  | .octal value digits, byte :: rest =>
      if isOctal byte ∧ digits < 3 then
        awkFrom (.octal (value * 8 + digitValue byte) (digits + 1)) rest
      else if byte = backslash then UInt8.ofNat value :: awkFrom .begun rest
      else UInt8.ofNat value :: byte :: awkFrom .outside rest

def awkString (text : Text) : Text :=
  awkFrom .outside text

/-! ## The table -/

def upToTab (text : Text) : Text :=
  match cut tab text with
  | some (field, _) => field
  | none => text

/-- `$1` and `$2` with `-F '\t'`. -/
def field1 (line : Text) : Text :=
  upToTab line

def field2 (line : Text) : Text :=
  match cut tab line with
  | some (_, rest) => upToTab rest
  | none => []

def row (content cfg : Text) : Text :=
  content ++ tab :: cfg

def assign (content cfg : Text) (db : List Text) : List Text :=
  if content = [] ∨ cfg = [] then db
  else (db.filter fun line => field1 line ≠ awkString content) ++ [row content cfg]

/-- The entry that is printed for a directory, and that is not empty. -/
def hit (db : List Text) (dir : Text) : Option Text :=
  ((db.find? fun line => field1 line = awkString dir).map fun line => chomp (field2 line)).filter
    (· != [])

/-- The loop of `ancestor_hit`, as far as `fuel` turns go. -/
def ancestorLoop (db : List Text) : Nat → Text → Option (Option Text)
  | 0, _ => none
  | fuel + 1, dir =>
      if dir = [] ∨ dir = [slash] then some none
      else
        match hit db dir with
        | some cfg => some (some cfg)
        | none => ancestorLoop db fuel (chomp (dirname dir))

/-- `ancestor_hit`: the configuration for a game or a failure, once it has ended. -/
def ancestorHit (db : List Text) (fuel : Nat) (rom : Text) : Option (Option Text) :=
  ancestorLoop db fuel (chomp (dirname rom))

/-! ## The configurations -/

def isBlank (byte : UInt8) : Bool :=
  byte == 0x20 || (0x09 ≤ byte && byte ≤ 0x0d)

/-- The pattern `^[[:space:]]*key[[:space:]]*=`. -/
def isSetting (key : String) (line : Text) : Bool :=
  let rest := line.dropWhile isBlank
  (ascii key).isPrefixOf rest &&
    ((rest.drop (ascii key).length).dropWhile isBlank).head? == some 0x3d

def overlayLine (asset : Text) : Text :=
  ascii "input_overlay = \"" ++ asset ++ ascii "\""

def writeCfg (asset : Text) (lines : List Text) : List Text :=
  ascii "input_overlay_enable = \"true\"" :: overlayLine asset ::
    lines.filter fun line => !(isSetting "input_overlay" line || isSetting "input_overlay_enable" line)

/-- The table, and the lines of the files, which are none where there is no file. -/
structure World where
  db : List Text
  cfgs : Text → List Text

/-! ## The installation -/

/-- The library that `install_overlay` takes for a directory. -/
def libraryOf (content : Text) : Text :=
  if isIn (ascii "/mnt/sd2") content then ascii "/mnt/sd2"
  else if isBelow (ascii "/mnt/media") content &&
      decide (slash ∈ relativeTo (ascii "/mnt/media") content) then
    firstThree content
  else ascii "/storage"

/-- `tr '/ ' '__'` -/
def flatten (content : Text) : Text :=
  content.map fun byte => if byte = slash ∨ byte = 0x20 then 0x5f else byte

def cfgOf (content : Text) : Text :=
  libraryOf content ++ ascii "/.zlyme/overlays/" ++ flatten content ++ ascii ".cfg"

def assetOf (content tag stem : Text) : Text :=
  libraryOf content ++ ascii "/Overlays/" ++ tag ++ slash :: stem ++ ascii ".cfg"

inductive Command
  | assign (content cfg : Text)
  | install (content tag stem : Text)

def Command.run (world : World) : Command → World
  | .assign content cfg => { world with db := OverlayTable.assign content cfg world.db }
  | .install content tag stem =>
      if content = [] then world
      else
        { db := OverlayTable.assign content (cfgOf content) world.db
          cfgs := Function.update world.cfgs (cfgOf content)
            (writeCfg (assetOf content tag stem) (world.cfgs (cfgOf content))) }

/-- What the commands make of a card without a table. -/
def runAll (cfgs : Text → List Text) (commands : List Command) : World :=
  commands.foldl Command.run { db := [], cfgs }

/-! ## What the table is for -/

def Command.content : Command → Text
  | .assign content _ => content
  | .install content _ _ => content

def Command.cfg : Command → Text
  | .assign _ cfg => cfg
  | .install content _ _ => cfgOf content

/-- The configuration of the last command for a directory. -/
def lastAssigned (commands : List Command) (dir : Text) : Option Text :=
  (commands.reverse.find? fun command => command.content = dir).map Command.cfg

/-- The absolute path of some names. -/
def pathOf (names : List Text) : Text :=
  names.flatMap (slash :: ·)

/-- The directories above a file in the directory of some names, the deepest one first. -/
def ancestors : List Text → List Text
  | [] => []
  | name :: names => (ancestors names).map (slash :: name ++ ·) ++ [pathOf [name]]

/-! ## The parents of a path -/

/-- The name of a directory that a command substitution keeps. -/
def IsName (name : Text) : Prop :=
  name ≠ [] ∧ slash ∉ name ∧ name.getLast? ≠ some newline

theorem rdropWhile_of_last {p : UInt8 → Bool} {text : Text}
    (last : ∀ byte, text.getLast? = some byte → p byte = false) : text.rdropWhile p = text := by
  rw [List.rdropWhile_eq_self_iff]
  intro nonempty drops
  rw [last _ (List.getLast?_eq_some_getLast nonempty)] at drops
  exact nomatch drops

theorem rdropWhile_append {p : UInt8 → Bool} (front : Text) {back : Text}
    (drops : ∀ byte ∈ back, p byte = true) : (front ++ back).rdropWhile p = front.rdropWhile p := by
  rw [List.rdropWhile, List.rdropWhile, List.reverse_append, List.dropWhile_append_of_pos]
  intro byte member
  exact drops byte (List.mem_reverse.mp member)

theorem pathOf_concat (names : List Text) (name : Text) :
    pathOf (names ++ [name]) = pathOf names ++ slash :: name := by
  simp [pathOf]

theorem getLast?_pathOf_concat (names : List Text) {name : Text} (nonempty : name ≠ []) :
    (pathOf (names ++ [name])).getLast? = name.getLast? := by
  rw [pathOf_concat, List.getLast?_append, List.getLast?_cons]
  cases isLast : name.getLast? with
  | none => exact absurd (List.getLast?_eq_none_iff.mp isLast) nonempty
  | some last => rfl

/-- The last byte of a path ends its last name. -/
theorem last_of_names {names : List Text} (clean : ∀ name ∈ names, IsName name) {byte : UInt8}
    (isLast : (pathOf names).getLast? = some byte) : byte ≠ slash ∧ byte ≠ newline := by
  rcases List.eq_nil_or_concat' names with rfl | ⟨names, name, rfl⟩
  · exact nomatch isLast
  · have isName := clean name (by simp)
    rw [getLast?_pathOf_concat names isName.1] at isLast
    constructor <;> rintro rfl
    · exact isName.2.1 (List.mem_of_getLast? isLast)
    · exact isName.2.2 isLast

theorem chomp_pathOf {names : List Text} (clean : ∀ name ∈ names, IsName name) :
    chomp (pathOf names) = pathOf names :=
  rdropWhile_of_last fun _ isLast => beq_false_of_ne (last_of_names clean isLast).2

/-- `dirname` takes the last name away. -/
theorem dirname_pathOf {names : List Text} (clean : ∀ name ∈ names, IsName name) {name : Text}
    (nonempty : name ≠ []) (plain : slash ∉ name) :
    dirname (pathOf (names ++ [name])) = if names = [] then [slash] else pathOf names := by
  have kept : (pathOf (names ++ [name])).rdropWhile (· == slash) = pathOf (names ++ [name]) := by
    refine rdropWhile_of_last fun byte isLast => beq_false_of_ne ?_
    rw [getLast?_pathOf_concat names nonempty] at isLast
    rintro rfl
    exact plain (List.mem_of_getLast? isLast)
  have front : (pathOf (names ++ [name])).rdropWhile (· != slash) = pathOf names ++ [slash] := by
    rw [pathOf_concat, List.append_cons, rdropWhile_append]
    · exact rdropWhile_of_last fun byte isLast => by simp_all
    · intro byte member
      exact bne_iff_ne.mpr fun same => plain (same ▸ member)
  have parent : (pathOf names ++ [slash]).rdropWhile (· == slash) = pathOf names := by
    rw [rdropWhile_append _ (by simp)]
    exact rdropWhile_of_last fun _ isLast => beq_false_of_ne (last_of_names clean isLast).1
  have path : pathOf (names ++ [name]) ≠ [] := by
    rw [pathOf_concat]
    simp
  have root : pathOf names = [] ↔ names = [] := by
    cases names <;> simp [pathOf]
  rw [dirname, kept, if_neg path, front, if_neg (by simp), parent]
  simp only [root]

theorem ancestors_concat (names : List Text) (name : Text) :
    ancestors (names ++ [name]) = pathOf (names ++ [name]) :: ancestors names := by
  induction names with
  | nil => rfl
  | cons first names induction =>
      rw [List.cons_append, ancestors, induction, ancestors]
      rfl

/-- The loop looks for the directories one after the other. -/
theorem ancestorLoop_pathOf (db : List Text) {names : List Text} (clean : ∀ name ∈ names, IsName name) :
    ancestorLoop db (names.length + 1) (if names = [] then [slash] else pathOf names) =
      some ((ancestors names).findSome? (hit db)) := by
  induction names using List.reverseRecOn with
  | nil => rfl
  | append_singleton names name induction =>
      have isName := clean name (by simp)
      have cleanNames : ∀ other ∈ names, IsName other := fun other member =>
        clean other (List.mem_append_left _ member)
      have path : ¬(pathOf (names ++ [name]) = [] ∨ pathOf (names ++ [name]) = [slash]) := by
        rw [pathOf_concat]
        cases names with
        | nil => simp [pathOf, isName.1]
        | cons first names => simp [pathOf]
      rw [if_neg (by simp), ancestors_concat, List.length_append, List.length_singleton, ancestorLoop,
        if_neg path, List.findSome?_cons]
      cases found : hit db (pathOf (names ++ [name])) with
      | some cfg => rfl
      | none =>
          have kept : chomp (if names = [] then [slash] else pathOf names) =
              if names = [] then [slash] else pathOf names := by
            split
            · rfl
            · exact chomp_pathOf cleanNames
          refine Eq.trans ?_ (induction cleanNames)
          show ancestorLoop db (names.length + 1) (chomp (dirname (pathOf (names ++ [name])))) = _
          rw [dirname_pathOf cleanNames isName.1 isName.2.1, kept]

theorem head?_of_begins {front whole : Text} (begins : front <+: whole) (nonempty : front ≠ []) :
    front.head? = whole.head? := by
  rcases begins with ⟨rest, rfl⟩
  rw [List.head?_append_of_ne_nil _ nonempty]

/-- The parent of an absolute path is absolute and shorter. -/
theorem dirname_absolute {path : Text} (absolute : path.head? = some slash) (notRoot : path ≠ [slash]) :
    (dirname path).head? = some slash ∧ (dirname path).length < path.length := by
  have long : 1 < path.length := by
    rcases path with _ | ⟨first, _ | ⟨second, rest⟩⟩
    · exact nomatch absolute
    · rw [List.head?_cons, Option.some_inj] at absolute
      exact absurd (by rw [absolute]) notRoot
    · simp
  have strippedPrefix : path.rdropWhile (· == slash) <+: path := List.rdropWhile_prefix _ _
  rw [dirname]
  generalize path.rdropWhile (· == slash) = stripped at strippedPrefix
  by_cases allSlashes : stripped = []
  · have nonempty : path ≠ [] := by
      rintro rfl
      exact nomatch absolute
    simp only [allSlashes, nonempty, if_true, if_false]
    exact ⟨rfl, long⟩
  · have begins := (head?_of_begins strippedPrefix allSlashes).trans absolute
    have frontPrefix : stripped.rdropWhile (· != slash) <+: stripped := List.rdropWhile_prefix _ _
    have some' : stripped.rdropWhile (· != slash) ≠ [] := by
      intro none'
      have all := (List.rdropWhile_eq_nil_iff.mp none') slash (List.mem_of_head? begins)
      simp at all
    have ends : ¬(stripped.rdropWhile (· != slash)).getLast some' != slash :=
      List.rdropWhile_last_not _ _ some'
    simp only [allSlashes, some', if_false]
    generalize stripped.rdropWhile (· != slash) = front at frontPrefix some' ends
    rcases List.eq_nil_or_concat' front with rfl | ⟨inner, last, rfl⟩
    · exact absurd rfl some'
    · have isSlash : last = slash := by simpa using ends
      subst isSlash
      have shorter : (inner ++ [slash]).length ≤ path.length :=
        (frontPrefix.trans strippedPrefix).length_le
      have dropped : (inner ++ [slash]).rdropWhile (· == slash) = inner.rdropWhile (· == slash) :=
        List.rdropWhile_concat_pos _ _ _ (beq_self_eq_true slash)
      have innerPrefix : inner.rdropWhile (· == slash) <+: inner := List.rdropWhile_prefix _ _
      rw [dropped]
      rw [List.length_append, List.length_singleton] at shorter
      by_cases atRoot : inner.rdropWhile (· == slash) = []
      · simp only [atRoot, if_true]
        exact ⟨rfl, long⟩
      · simp only [atRoot, if_false]
        have whole := innerPrefix.trans ((List.prefix_append inner [slash]).trans
          (frontPrefix.trans strippedPrefix))
        have length := innerPrefix.length_le
        exact ⟨(head?_of_begins whole atRoot).trans absolute, by omega⟩

theorem chomp_absolute {path : Text} (absolute : path.head? = some slash) :
    (chomp path).head? = some slash := by
  have begins : chomp path <+: path := List.rdropWhile_prefix _ _
  refine (head?_of_begins begins fun none' => ?_).trans absolute
  have all := (List.rdropWhile_eq_nil_iff.mp none') slash (List.mem_of_head? absolute)
  exact absurd all (by decide)

/-- For every absolute path the loop ends. -/
theorem ancestorLoop_ends (db : List Text) (fuel : Nat) {dir : Text}
    (absolute : dir.head? = some slash) (enough : dir.length ≤ fuel) :
    ∃ result, ancestorLoop db fuel dir = some result := by
  induction fuel generalizing dir with
  | zero =>
      rw [List.length_eq_zero_iff.mp (Nat.le_zero.mp enough)] at absolute
      exact nomatch absolute
  | succ fuel induction =>
      rw [ancestorLoop]
      split
      · exact ⟨none, rfl⟩
      · rename_i below
        rw [not_or] at below
        split
        · exact ⟨_, rfl⟩
        · rcases dirname_absolute absolute below.2 with ⟨parentAbsolute, shorter⟩
          have chomped : (chomp (dirname dir)).length ≤ (dirname dir).length :=
            (List.rdropWhile_prefix _ _).length_le
          exact induction (chomp_absolute parentAbsolute) (by omega)

theorem ancestorHit_ends (db : List Text) {rom : Text} (absolute : rom.head? = some slash) :
    ∃ fuel result, ancestorHit db fuel rom = some result := by
  have parentAbsolute : (dirname rom).head? = some slash := by
    by_cases below : rom = [slash]
    · rw [below]
      decide
    · exact (dirname_absolute absolute below).1
  rcases ancestorLoop_ends db _ (chomp_absolute parentAbsolute) (Nat.le_refl _) with ⟨result, ended⟩
  exact ⟨_, result, ended⟩

/-! ## The entries -/

theorem awkString_of_plain {text : Text} (plain : backslash ∉ text) : awkString text = text := by
  rw [awkString]
  induction text with
  | nil => rfl
  | cons byte rest induction =>
      rw [List.mem_cons, not_or] at plain
      rw [awkFrom, if_neg (Ne.symm plain.1), induction plain.2]

/-- A text that stands in one field of one line. -/
def IsField (text : Text) : Prop :=
  text ≠ [] ∧ tab ∉ text ∧ newline ∉ text

theorem upToTab_of_field {text : Text} (field : tab ∉ text) : upToTab text = text := by
  rw [upToTab, cut_eq_none field]

theorem field1_row {content : Text} (field : tab ∉ content) (cfg : Text) :
    field1 (row content cfg) = content := by
  rw [field1, upToTab, row, cut_append field]

theorem field2_row {content cfg : Text} (field : tab ∉ content) (cfgField : tab ∉ cfg) :
    field2 (row content cfg) = cfg := by
  rw [field2, row, cut_append field]
  exact upToTab_of_field cfgField

theorem chomp_of_field {text : Text} (unbroken : newline ∉ text) : chomp text = text := by
  refine rdropWhile_of_last fun byte isLast => beq_false_of_ne ?_
  rintro rfl
  exact unbroken (List.mem_of_getLast? isLast)

/-- The entries of a directory. -/
def entries (db : List Text) (dir : Text) : List Text :=
  db.filter fun line => field1 line = dir

/-- An assignment makes one entry for its directory and leaves the entries of the others. -/
theorem entries_assign {content cfg : Text} (isField : IsField content) (isCfg : cfg ≠ [])
    (plain : awkString content = content) (db : List Text) (dir : Text) :
    entries (assign content cfg db) dir =
      if dir = content then [row content cfg] else entries db dir := by
  rw [assign, if_neg (by simp [isField.1, isCfg]), entries, List.filter_append, List.filter_filter, plain]
  have single : ([row content cfg].filter fun line => field1 line = dir) =
      if dir = content then [row content cfg] else [] := by
    rw [List.filter_singleton, field1_row isField.2.1]
    by_cases same : dir = content
    · simp [same]
    · simp [same, Ne.symm same]
  rw [single]
  by_cases same : dir = content
  · subst same
    rw [if_pos rfl, if_pos rfl, List.filter_eq_nil_iff.mpr]
    · rfl
    · intro line _ both
      simp at both
  · rw [if_neg same, if_neg same, List.append_nil, entries]
    refine List.filter_congr fun line _ => ?_
    by_cases isDir : field1 line = dir <;> simp [isDir, same]

theorem hit_eq (db : List Text) {dir : Text} (plain : awkString dir = dir) :
    hit db dir = ((entries db dir).head?.map fun line => chomp (field2 line)).filter (· != []) := by
  rw [hit, plain, entries, List.head?_filter]

/-- What is found for a directory after an assignment. -/
theorem hit_assign {content cfg : Text} (isField : IsField content) (isCfg : IsField cfg)
    (plain : awkString content = content) (db : List Text) {dir : Text}
    (dirPlain : awkString dir = dir) :
    hit (assign content cfg db) dir = if dir = content then some cfg else hit db dir := by
  rw [hit_eq _ dirPlain, entries_assign isField isCfg.1 plain]
  split
  · rw [List.head?_cons, Option.map_some, field2_row isField.2.1 isCfg.2.1, chomp_of_field isCfg.2.2]
    simp [isCfg.1]
  · rw [hit_eq _ dirPlain]

/-! ## Runs -/

/-- What a command has to meet: a directory that `awk` leaves as it is, and a configuration that
is not empty. No text has a tab or a newline. -/
def Command.Meets : Command → Prop
  | .assign content cfg => (IsField content ∧ awkString content = content) ∧ IsField cfg
  | .install content _ _ => IsField content ∧ awkString content = content

theorem mem_of_mem_splitOn {separator byte : UInt8} {text part : Text}
    (isPart : part ∈ text.splitOn separator) (member : byte ∈ part) : byte ∈ text := by
  induction text generalizing part with
  | nil =>
      rw [List.splitOn_nil, List.mem_singleton] at isPart
      exact absurd (isPart ▸ member) List.not_mem_nil
  | cons first rest induction =>
      rw [List.splitOn_cons_eq_if_modifyHead] at isPart
      split at isPart
      · rcases List.mem_cons.mp isPart with rfl | later
        · exact absurd member List.not_mem_nil
        · exact List.mem_cons_of_mem _ (induction later member)
      · cases isSplit : rest.splitOn separator with
        | nil => exact absurd isSplit (List.splitOn_ne_nil separator rest)
        | cons head later =>
            rw [isSplit, List.modifyHead_cons] at isPart
            rcases List.mem_cons.mp isPart with rfl | isLater
            · rcases List.mem_cons.mp member with rfl | inHead
              · exact List.mem_cons_self
              · exact List.mem_cons_of_mem _ (induction (isSplit ▸ List.mem_cons_self) inHead)
            · exact List.mem_cons_of_mem _
                (induction (isSplit ▸ List.mem_cons_of_mem _ isLater) member)

theorem mem_firstThree {path : Text} {byte : UInt8} (member : byte ∈ firstThree path) :
    byte = slash ∨ byte ∈ path := by
  have field (index : Nat) (inside : byte ∈ ((path.splitOn slash)[index]?).getD []) : byte ∈ path := by
    cases isPart : (path.splitOn slash)[index]? with
    | none =>
        rw [isPart] at inside
        exact absurd inside List.not_mem_nil
    | some part =>
        rw [isPart] at inside
        exact mem_of_mem_splitOn (List.mem_of_getElem? isPart) inside
  simp only [firstThree, List.mem_cons, List.mem_append] at member
  rcases member with same | first | same | second | same | third
  · exact .inl same
  · exact .inr (field 1 first)
  · exact .inl same
  · exact .inr (field 2 second)
  · exact .inl same
  · exact .inr (field 3 third)

/-- The name of a configuration has no other bytes than the directory has, and fixed ones. -/
theorem isField_cfgOf {content : Text} (isField : IsField content) : IsField (cfgOf content) := by
  have absent (byte : UInt8) (notSlash : byte ≠ slash) (notUnderscore : byte ≠ 0x5f)
      (fixed : byte ∉ ascii "/mnt/sd2" ++ ascii "/storage" ++ ascii "/.zlyme/overlays/" ++ ascii ".cfg")
      (outside : byte ∉ content) : byte ∉ cfgOf content := by
    simp only [List.mem_append, not_or] at fixed
    have library : byte ∉ libraryOf content := by
      rw [libraryOf]
      split
      · exact fixed.1.1.1
      · split
        · exact fun member => (mem_firstThree member).elim notSlash outside
        · exact fixed.1.1.2
    have flat : byte ∉ flatten content := by
      intro member
      rcases List.mem_map.mp member with ⟨other, inside, same⟩
      split at same
      · exact notUnderscore same.symm
      · exact outside (same ▸ inside)
    simp only [cfgOf, List.mem_append, not_or]
    exact ⟨⟨⟨library, fixed.1.2⟩, flat⟩, fixed.2⟩
  refine ⟨?_, absent tab (by decide) (by decide) (by decide) isField.2.1,
    absent newline (by decide) (by decide) (by decide) isField.2.2⟩
  have ending : ascii ".cfg" ≠ [] := by decide
  exact List.append_ne_nil_of_right_ne_nil _ ending

theorem Command.Meets.fields {command : Command} (meets : command.Meets) :
    (IsField command.content ∧ awkString command.content = command.content) ∧
      IsField command.cfg := by
  cases command with
  | assign content cfg => exact meets
  | install content tag stem => exact ⟨meets, isField_cfgOf meets.1⟩

/-- What a command leaves in the table. -/
theorem db_run (world : World) {command : Command} (meets : command.Meets) :
    (command.run world).db = assign command.content command.cfg world.db := by
  cases command with
  | assign content cfg => rfl
  | install content tag stem =>
      have some' : content ≠ [] := meets.fields.1.1.1
      rw [Command.run, if_neg some']
      rfl

theorem runAll_concat (cfgs : Text → List Text) (commands : List Command) (command : Command) :
    runAll cfgs (commands ++ [command]) = command.run (runAll cfgs commands) := by
  rw [runAll, List.foldl_append]
  rfl

theorem lastAssigned_concat (commands : List Command) (command : Command) (dir : Text) :
    lastAssigned (commands ++ [command]) dir =
      if dir = command.content then some command.cfg else lastAssigned commands dir := by
  rw [lastAssigned, List.reverse_append, List.reverse_singleton, List.singleton_append,
    List.find?_cons]
  by_cases same : command.content = dir
  · simp [same]
  · simp [same, Ne.symm same, lastAssigned]

/-- After every run the table has the last configuration of each directory. -/
theorem hit_runAll (cfgs : Text → List Text) {commands : List Command}
    (meets : ∀ command ∈ commands, command.Meets) {dir : Text} (plain : awkString dir = dir) :
    hit (runAll cfgs commands).db dir = lastAssigned commands dir := by
  induction commands using List.reverseRecOn with
  | nil => rfl
  | append_singleton commands command induction =>
      have meetsLast := meets command (by simp)
      rcases meetsLast.fields with ⟨⟨isField, isPlain⟩, isCfg⟩
      rw [runAll_concat, db_run _ meetsLast, lastAssigned_concat,
        hit_assign isField isCfg isPlain _ plain,
        induction fun other member => meets other (List.mem_append_left _ member)]

/-! ## What a game gets -/

/-- A file below the root, in directories that the shell and `awk` leave as they are. -/
structure IsGame (names : List Text) (name : Text) : Prop where
  directories : ∀ directory ∈ names, IsName directory
  plain : ∀ dir ∈ ancestors names, awkString dir = dir
  file : name ≠ [] ∧ slash ∉ name

theorem findSome?_congr {found wanted : Text → Option Text} {dirs : List Text}
    (same : ∀ dir ∈ dirs, found dir = wanted dir) : dirs.findSome? found = dirs.findSome? wanted := by
  induction dirs with
  | nil => rfl
  | cons dir dirs induction =>
      rw [List.findSome?_cons, List.findSome?_cons, same dir List.mem_cons_self,
        induction fun other member => same other (List.mem_cons_of_mem _ member)]

theorem ancestorHit_eq (db : List Text) {names : List Text} {name : Text} (game : IsGame names name) :
    ancestorHit db (names.length + 1) (pathOf (names ++ [name])) =
      some ((ancestors names).findSome? (hit db)) := by
  rw [ancestorHit, dirname_pathOf game.directories game.file.1 game.file.2,
    ← ancestorLoop_pathOf db game.directories]
  congr 1
  split
  · rfl
  · exact chomp_pathOf game.directories

/-- The overlay that was last installed for a directory. -/
def lastInstalled : List Command → Text → Option Text
  | [], _ => none
  | .assign _ _ :: commands, dir => lastInstalled commands dir
  | .install content tag stem :: commands, dir =>
      (lastInstalled commands dir).or (if content = dir then some (assetOf content tag stem) else none)

def Command.IsInstall : Command → Prop
  | .assign _ _ => False
  | .install _ _ _ => True

/-- The lines of a configuration that name an overlay. -/
def overlays (lines : List Text) : List Text :=
  lines.filter (isSetting "input_overlay")

theorem overlays_writeCfg (asset : Text) (lines : List Text) :
    overlays (writeCfg asset lines) = [overlayLine asset] := by
  have enables : isSetting "input_overlay" (ascii "input_overlay_enable = \"true\"") = false := by
    decide
  have names : isSetting "input_overlay" (overlayLine asset) = true := rfl
  have others : (lines.filter fun line =>
      !(isSetting "input_overlay" line || isSetting "input_overlay_enable" line)).filter
        (isSetting "input_overlay") = [] := by
    refine List.filter_eq_nil_iff.mpr fun line member => ?_
    have kept := (List.mem_filter.mp member).2
    rw [Bool.not_eq_true', Bool.or_eq_false_iff] at kept
    exact Bool.eq_false_iff.mp kept.1
  rw [overlays, writeCfg, List.filter_cons, List.filter_cons, enables, names, others]
  rfl

theorem lastInstalled_concat (commands : List Command) (content tag stem dir : Text) :
    lastInstalled (commands ++ [.install content tag stem]) dir =
      if content = dir then some (assetOf content tag stem) else lastInstalled commands dir := by
  induction commands with
  | nil => simp [lastInstalled]
  | cons command commands induction =>
      cases command with
      | assign other cfg => exact induction
      | install other otherTag otherStem =>
          rw [List.cons_append, lastInstalled, induction, lastInstalled]
          split <;> simp

/-- No two directories of the run have one configuration. -/
def Apart (commands : List Command) : Prop :=
  ∀ first ∈ commands, ∀ second ∈ commands,
    cfgOf first.content = cfgOf second.content → first.content = second.content

theorem lastInstalled_content {commands : List Command} {dir asset : Text}
    (found : lastInstalled commands dir = some asset) : ∃ command ∈ commands, command.content = dir := by
  induction commands with
  | nil => exact nomatch found
  | cons command commands induction =>
      cases command with
      | assign content cfg =>
          rcases induction found with ⟨other, member, isDir⟩
          exact ⟨other, List.mem_cons_of_mem _ member, isDir⟩
      | install content tag stem =>
          by_cases isDir : content = dir
          · exact ⟨_, List.mem_cons_self, isDir⟩
          · rw [lastInstalled, if_neg isDir, Option.or_none] at found
            rcases induction found with ⟨other, member, isDir⟩
            exact ⟨other, List.mem_cons_of_mem _ member, isDir⟩

/-- After every run of installations a directory with a configuration has the overlay that was
last installed for it. -/
theorem overlays_runAll (cfgs : Text → List Text) {commands : List Command}
    (meets : ∀ command ∈ commands, command.Meets)
    (installs : ∀ command ∈ commands, command.IsInstall) (apart : Apart commands) (dir : Text) :
    lastAssigned commands dir = (lastInstalled commands dir).map (fun _ => cfgOf dir) ∧
      ∀ asset, lastInstalled commands dir = some asset →
        overlays ((runAll cfgs commands).cfgs (cfgOf dir)) = [overlayLine asset] := by
  induction commands using List.reverseRecOn with
  | nil => exact ⟨rfl, fun _ never => nomatch never⟩
  | append_singleton commands command induction =>
      have earlier {other : Command} (member : other ∈ commands) : other ∈ commands ++ [command] :=
        List.mem_append_left _ member
      have last : command ∈ commands ++ [command] := by simp
      rcases induction (fun other member => meets other (earlier member))
        (fun other member => installs other (earlier member))
        (fun first member second other => apart first (earlier member) second (earlier other))
        with ⟨assigned, named⟩
      have isInstall := installs command last
      have nonempty := (meets command last).fields.1.1.1
      cases command with
      | assign content cfg => exact isInstall.elim
      | install content tag stem =>
          have some' : content ≠ [] := nonempty
          rw [lastAssigned_concat, lastInstalled_concat, runAll_concat, Command.run, if_neg some']
          by_cases isDir : content = dir
          · subst isDir
            refine ⟨by simp [Command.content, Command.cfg], fun asset found => ?_⟩
            rw [if_pos rfl, Option.some_inj] at found
            simp only [Function.update_self]
            rw [overlays_writeCfg, found]
          · have other : dir ≠ content := Ne.symm isDir
            refine ⟨by simpa [Command.content, isDir, other] using assigned, fun asset found => ?_⟩
            rw [if_neg isDir] at found
            have files : cfgOf dir ≠ cfgOf content := by
              rcases lastInstalled_content found with ⟨command, member, rfl⟩
              exact fun same => other (apart command (earlier member) _ last same)
            simp only [Function.update_of_ne files]
            exact named asset found

/-- Two cards with one system each. -/
def twoInstalls : List Command :=
  [.install (ascii "/storage/Roms/GB") (ascii "GB") (ascii "one"),
    .install (ascii "/mnt/sd2/Roms/GB") (ascii "GB") (ascii "two")]

end Zlyme.Games.OverlayTable
