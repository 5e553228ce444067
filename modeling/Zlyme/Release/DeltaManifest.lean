import Mathlib.Logic.Function.Basic
import Zlyme.Foundation.Text
import Zlyme.Release.Transport

/-! # The manifest inside a delta package

The release job renders `DELTA-MANIFEST` and reads it back; `zlyme-update` reads it
on the device with shell patterns.
-/

namespace Zlyme.Release

open Foundation Foundation.Text

/-! ## Keys -/

inductive Key
  | type
  | schema
  | device
  | fromVersion
  | targetVersion
  | baseSha256
  | targetSha256
  | targetSize
  | patch
  deriving DecidableEq, Repr

def Key.name : Key → String
  | type => "TYPE"
  | schema => "SCHEMA"
  | device => "DEVICE"
  | fromVersion => "FROM_VERSION"
  | targetVersion => "TARGET_VERSION"
  | baseSha256 => "BASE_SHA256"
  | targetSha256 => "TARGET_SHA256"
  | targetSize => "TARGET_SIZE"
  | patch => "PATCH"

/-- `_DELTA_KEYS` -/
def deltaKeys : List Key :=
  [.type, .schema, .device, .fromVersion, .targetVersion, .baseSha256, .targetSha256,
    .targetSize, .patch]

theorem mem_deltaKeys (key : Key) : key ∈ deltaKeys := by
  cases key <;> decide

def Key.text (key : Key) : Text :=
  key.name.toList

def keyOf (text : Text) : Option Key :=
  deltaKeys.find? (·.text == text)

theorem keyOf_text (key : Key) : keyOf key.text = some key := by
  cases key <;> decide

def deltaType : Text := "delta".toList
def patchName : Text := "zlyme.patch.zst".toList

/-! ## The release job -/

/-- A dictionary, as far as the nine keys go. -/
abbrev Fields : Type :=
  Key → Option Value

/-- `fields[key]` of a key that is there. -/
def Fields.value (fields : Fields) (key : Key) : Value :=
  (fields key).getD .none

def joinNames (names : List String) : String :=
  ",".intercalate names

def Python.renderDeltaManifest (python : Python) (fields : Fields) : Except PyError Text := do
  let missing := deltaKeys.filter fun key => (fields key).isNone
  raiseIf (missing ≠ [])
    (.releaseError ("delta manifest missing " ++ joinNames (missing.map Key.name)))
  raiseIf ((fields.value .type).isText deltaType = false) (.releaseError "delta manifest type")
  raiseIf ((← python.str (fields.value .schema)) ≠ ['1']) (.releaseError "delta manifest type")
  raiseIf ((fields.value .device).isText my355 = false) (.releaseError "delta manifest device")
  let _ ← parseVersion (fields.value .fromVersion)
  let _ ← parseVersion (fields.value .targetVersion)
  raiseIf (hex64 (fields.value .baseSha256) = false ∨ hex64 (fields.value .targetSha256) = false)
    (.releaseError "delta manifest hash")
  raiseIf (isDigit (← python.str (fields.value .targetSize)) = false)
    (.releaseError "delta manifest size")
  raiseIf ((fields.value .patch).isText patchName = false) (.releaseError "delta manifest patch")
  let texts ← deltaKeys.mapM fun key => return key.text ++ '=' :: (← python.str (fields.value key))
  return unlines '\n' texts

/-- The characters that end a line of `str.splitlines`. -/
def isLineBreak (char : Char) : Bool :=
  let code := char.toNat
  (0xa ≤ code && code ≤ 0xd) || (0x1c ≤ code && code ≤ 0x1e) || code == 0x85 ||
    code == 0x2028 || code == 0x2029

/-- `str.splitlines()`; a carriage return and a newline end one line. -/
def splitlines : Text → List Text
  | [] => []
  | '\r' :: '\n' :: rest => [] :: splitlines rest
  | char :: rest =>
      if isLineBreak char then
        [] :: splitlines rest
      else
        match splitlines rest with
        | [] => [[char]]
        | line :: later => (char :: line) :: later

/-- What no value may have. -/
def forbidden : List Char :=
  "\t $\x60'\"\\".toList

/-- What the loop has found so far. -/
abbrev Found : Type :=
  Key → Option Text

def Found.fields (found : Found) : Fields :=
  fun key => (found key).map .str

def parseLine (found : Found) (raw : Text) : Except PyError Found := do
  let line := strip raw
  if line = [] ∨ line.head? = some '#' then return found
  match cut '=' line with
  | none => throw (.releaseError "delta manifest syntax")
  | some (name, value) =>
      match keyOf name with
      | none => throw (.releaseError ("delta manifest key " ++ String.ofList name))
      | some key =>
          raiseIf ((found key).isSome = true)
            (.releaseError ("delta manifest duplicate " ++ key.name))
          raiseIf (value = [] ∨ value.any forbidden.contains = true)
            (.releaseError "delta manifest value")
          return Function.update found key (some value)

/-- `_fields_from_render` -/
def Python.fieldsFromRender (python : Python) (found : Found) (device : Text) :
    Except PyError Fields := do
  raiseIf ((found.fields.value .device).isText device = false)
    (.releaseError "delta manifest device")
  let _ ← python.renderDeltaManifest found.fields
  let size ← (found.fields.value .targetSize).toInt
  let base := lower ((found .baseSha256).getD [])
  let target := lower ((found .targetSha256).getD [])
  let rendered := Function.update found.fields .targetSize (some (.int size))
  let rendered := Function.update rendered .baseSha256 (some (.str base))
  return Function.update rendered .targetSha256 (some (.str target))

def Python.parseDeltaManifestText (python : Python) (text : Text) (device : Text) :
    Except PyError Fields := do
  let found ← (splitlines text).foldlM parseLine (fun _ => none)
  let _ ← python.renderDeltaManifest found.fields
  python.fieldsFromRender found device

/-! ## The device -/

/-- The variables that `read_delta_manifest` sets. -/
abbrev DeltaVars : Type :=
  Key → Text

def isDecimalDigit (char : Char) : Bool :=
  '0' ≤ char && char ≤ '9'

/-- The patterns of a value that is refused. -/
def refusedInShell (char : Char) : Bool :=
  "\t $\x60'\\".toList.contains char

/-- One turn of the loop; an error is the message of `mark_fail`. -/
def readDeltaLine (vars : DeltaVars) (line : Text) : Except String DeltaVars := do
  if line = [] ∨ line.head? = some '#' then return vars
  match cut '=' line with
  | none => throw "delta manifest syntax"
  | some (name, value) =>
      raiseIf (value.any refusedInShell = true) "delta manifest value"
      match keyOf name with
      | none => throw "delta manifest key"
      | some key =>
          raiseIf (vars key ≠ []) "delta manifest duplicate"
          return Function.update vars key value

/-- `is_hex64` -/
def isHex64 (text : Text) : Bool :=
  text.length == 64 && text.all hexDigit

/-- `tr A-F a-f` -/
def trHex (text : Text) : Text :=
  text.map fun char => if 'A' ≤ char && char ≤ 'F' then char.toLower else char

/-- The lines of `while IFS= read -r line || [ -n "$line" ]`, which drops NUL. -/
def shellLines (text : Text) : List Text :=
  lines (· == '\n') (text.filter (· ≠ '\x00'))

def readDeltaManifest (text : Text) : Except String DeltaVars := do
  let vars ← (shellLines text).foldlM readDeltaLine (fun _ => [])
  raiseIf (vars .type ≠ deltaType) "delta manifest type"
  raiseIf (vars .schema ≠ ['1']) "delta manifest schema"
  raiseIf (vars .device ≠ my355) "delta manifest device"
  raiseIf (isHex64 (vars .baseSha256) = false) "delta manifest base hash"
  raiseIf (isHex64 (vars .targetSha256) = false) "delta manifest target hash"
  raiseIf (vars .targetSize = [] ∨ (vars .targetSize).all isDecimalDigit = false)
    "delta manifest size"
  raiseIf (vars .patch ≠ patchName) "delta manifest patch"
  let vars := Function.update vars .baseSha256 (trHex (vars .baseSha256))
  return Function.update vars .targetSha256 (trHex (vars .targetSha256))

/-! ## One list of lines -/

/-- A text whose lines are the same for Python and for the shell. -/
def OneBreak (text : Text) : Prop :=
  ∀ char ∈ text, char ≠ '\x00' ∧ (isLineBreak char = true → char = '\n')

theorem splitlines_cons {char : Char} {rest : Text}
    (breaks : ∀ other ∈ char :: rest, isLineBreak other = true → other = '\n') :
    splitlines (char :: rest) =
      if char = '\n' then [] :: splitlines rest
      else
        match splitlines rest with
        | [] => [[char]]
        | line :: later => (char :: line) :: later := by
  have alone : ∀ tail, char = '\r' → rest = '\n' :: tail → False := by
    rintro tail rfl rfl
    exact absurd (breaks '\r' List.mem_cons_self (by decide)) (by decide)
  have isBreak : isLineBreak char = true ↔ char = '\n' :=
    ⟨breaks char List.mem_cons_self, fun same => same ▸ by decide⟩
  rw [splitlines]
  · simp only [isBreak]
  · exact alone

theorem splitlines_eq {text : Text} (breaks : ∀ char ∈ text, isLineBreak char = true → char = '\n') :
    splitlines text = lines (· == '\n') text := by
  induction text with
  | nil => rfl
  | cons char rest induction =>
      rw [splitlines_cons breaks, lines,
        induction fun other member => breaks other (List.mem_cons_of_mem _ member)]
      by_cases isNewline : char = '\n'
      · rw [if_pos isNewline, if_pos (by simp [isNewline])]
      · rw [if_neg isNewline, if_neg (by simp [isNewline])]
        cases lines (· == '\n') rest <;> rfl

theorem OneBreak.splitlines_eq_shellLines {text : Text} (plain : OneBreak text) :
    splitlines text = shellLines text := by
  have kept : text.filter (· ≠ '\x00') = text :=
    List.filter_eq_self.mpr fun char member => by simp [(plain char member).1]
  rw [shellLines, kept, splitlines_eq fun char member => (plain char member).2]

/-! ## Stripped lines -/

theorem rstrip_eq_self {text : Text} (last : ∀ char ∈ text.getLast?, isSpace char = false) :
    rstrip text = text := by
  have stops : text.reverse.dropWhile isSpace = text.reverse := by
    rcases ends : text.reverse with _ | ⟨char, rest⟩
    · rfl
    · have isLast := last char (by rw [← List.head?_reverse, ends]; rfl)
      rw [List.dropWhile_cons_of_neg (by simp [isLast])]
  rw [rstrip, stops, List.reverse_reverse]

theorem strip_eq_self {text : Text} (first : ∀ char ∈ text.head?, isSpace char = false)
    (last : ∀ char ∈ text.getLast?, isSpace char = false) : strip text = text := by
  have starts : text.dropWhile isSpace = text := by
    cases text with
    | nil => rfl
    | cons char rest => rw [List.dropWhile_cons_of_neg (by simp [first char rfl])]
  rw [strip, starts, rstrip_eq_self last]

/-- A comment stays a comment. -/
theorem strip_comment (rest : Text) : ∃ kept, strip ('#' :: rest) = '#' :: kept := by
  have starts : ('#' :: rest).dropWhile isSpace = '#' :: rest :=
    List.dropWhile_cons_of_neg (by decide)
  have stops : ∀ text : Text, ∃ kept,
      (text ++ ['#']).dropWhile isSpace = kept ++ ['#'] := by
    intro text
    induction text with
    | nil => exact ⟨[], by decide⟩
    | cons char text induction =>
        rw [List.cons_append, List.dropWhile_cons]
        split
        · exact induction
        · exact ⟨char :: text, rfl⟩
  rcases stops rest.reverse with ⟨kept, isKept⟩
  refine ⟨kept.reverse, ?_⟩
  rw [strip, starts, rstrip, List.reverse_cons, isKept]
  simp

/-! ## Clean values -/

/-- A character that no reader of a line treats specially. -/
def cleanChar (char : Char) : Bool :=
  !isSpace char && !forbidden.contains char && char != '\x00'

/-- A value that both readers take as it stands. -/
structure Clean (value : Text) : Prop where
  nonempty : value ≠ []
  chars : ∀ char ∈ value, cleanChar char = true

theorem isSpace_of_isLineBreak {char : Char} (isBreak : isLineBreak char = true) :
    isSpace char = true := by
  simp only [isLineBreak, Bool.or_eq_true, Bool.and_eq_true, decide_eq_true_eq, beq_iff_eq] at isBreak
  simp only [isSpace, Bool.or_eq_true, Bool.and_eq_true, decide_eq_true_eq, beq_iff_eq]
  omega

section CleanChar

variable {char : Char} (clean : cleanChar char = true)
include clean

theorem not_isSpace_of_clean : isSpace char = false := by
  simp only [cleanChar, Bool.and_eq_true, Bool.not_eq_true'] at clean
  exact clean.1.1

theorem not_isLineBreak_of_clean : isLineBreak char = false := by
  rw [Bool.eq_false_iff]
  intro isBreak
  exact absurd (isSpace_of_isLineBreak isBreak) (by simp [not_isSpace_of_clean clean])

theorem not_forbidden_of_clean : forbidden.contains char = false := by
  simp only [cleanChar, Bool.and_eq_true, Bool.not_eq_true'] at clean
  exact clean.1.2

theorem not_refusedInShell_of_clean : refusedInShell char = false := by
  have stricter : "\t $\x60'\\".toList.all forbidden.contains = true := by decide
  rw [Bool.eq_false_iff, refusedInShell]
  intro refused
  have isForbidden := List.all_eq_true.mp stricter char (List.contains_iff_mem.mp refused)
  exact Bool.false_ne_true ((not_forbidden_of_clean clean).symm.trans isForbidden)

end CleanChar

/-! ## What is rendered -/

/-- The text of each field. -/
def Python.texts (python : Python) (fields : Fields) (key : Key) : Text :=
  (python.str (fields.value key)).toOption.getD []

/-- The lines of a manifest with these values. -/
def manifestLines (values : Key → Text) : List Text :=
  deltaKeys.map fun key => key.text ++ '=' :: values key

/-- The fields that `render_delta_manifest` accepts. -/
structure Renderable (python : Python) (fields : Fields) : Prop where
  present : ∀ key, (fields key).isSome = true
  str : ∀ key, python.str (fields.value key) = .ok (python.texts fields key)
  type : (fields.value .type).isText deltaType = true
  schema : python.texts fields .schema = ['1']
  device : (fields.value .device).isText my355 = true
  fromVersion : ∃ version, parseVersion (fields.value .fromVersion) = .ok version
  targetVersion : ∃ version, parseVersion (fields.value .targetVersion) = .ok version
  base : hex64 (fields.value .baseSha256) = true
  target : hex64 (fields.value .targetSha256) = true
  size : isDigit (python.texts fields .targetSize) = true
  patch : (fields.value .patch).isText patchName = true

theorem Renderable.renders {python : Python} {fields : Fields} (valid : Renderable python fields) :
    python.renderDeltaManifest fields = .ok (unlines '\n' (manifestLines (python.texts fields))) := by
  have none_missing : deltaKeys.filter (fun key => (fields key).isNone) = [] := by
    refine List.filter_eq_nil_iff.mpr fun key _ => ?_
    have present := valid.present key
    cases found : fields key <;> simp_all
  have texts : deltaKeys.mapM (fun key => return key.text ++ '=' :: (← python.str (fields.value key))) =
      .ok (manifestLines (python.texts fields)) := by
    refine mapM_eq_ok fun key _ => ?_
    rw [valid.str key]
    rfl
  rcases valid.fromVersion with ⟨_, fromVersion⟩
  rcases valid.targetVersion with ⟨_, targetVersion⟩
  simp only [Python.renderDeltaManifest, bind_eq_ok, raiseIf_eq_ok]
  refine ⟨(), not_not_intro none_missing, (), by simp [valid.type], _, valid.str _, (),
    not_not_intro valid.schema, (), by simp [valid.device], _, fromVersion, _, targetVersion, (),
    by simp [valid.base, valid.target], _, valid.str _, (), by simp [valid.size], (),
    by simp [valid.patch], _, texts, rfl⟩

theorem renderable_of_renders {python : Python} {fields : Fields} {text : Text}
    (rendered : python.renderDeltaManifest fields = .ok text) : Renderable python fields := by
  simp only [Python.renderDeltaManifest, bind_eq_ok, raiseIf_eq_ok] at rendered
  rcases rendered with ⟨_, present, _, type, _, schemaText, _, schema, _, device, _, fromVersion, _,
    targetVersion, _, hashes, _, sizeText, _, size, _, patch, _, texts, _⟩
  have str : ∀ key, python.str (fields.value key) = .ok (python.texts fields key) := by
    intro key
    rcases ok_of_mapM_eq_ok texts (mem_deltaKeys key) with ⟨_, isText⟩
    rcases bind_eq_ok.mp isText with ⟨value, isValue, _⟩
    simp [Python.texts, isValue, Except.toOption]
  cases schemaText.symm.trans (str .schema)
  cases sizeText.symm.trans (str .targetSize)
  simp only [not_or, Bool.not_eq_false, Decidable.not_not] at type schema device hashes size patch
  refine ⟨fun key => ?_, str, type, schema, device, ⟨_, fromVersion⟩, ⟨_, targetVersion⟩, hashes.1,
    hashes.2, size, patch⟩
  have isPresent := List.filter_eq_nil_iff.mp (Decidable.of_not_not present) key (mem_deltaKeys key)
  simpa [Option.isNone_iff_eq_none, Option.isSome_iff_ne_none] using isPresent

/-! ## Values of plain characters -/

/-- The characters of versions, hashes and file names. -/
def plainChar (char : Char) : Bool :=
  isDecimalDigit char || ('a' ≤ char && char ≤ 'z') || char == '.'

theorem cleanChar_of_plainChar {char : Char} (plain : plainChar char = true) :
    cleanChar char = true := by
  have every : ∀ code < 128, plainChar (Char.ofNat code) = true →
      cleanChar (Char.ofNat code) = true := by decide
  have small : char.toNat < 128 := by
    simp only [plainChar, isDecimalDigit, Bool.or_eq_true, Bool.and_eq_true, decide_eq_true_eq,
      beq_iff_eq, Char.le_def, UInt32.le_iff_toNat_le] at plain
    rcases plain with (⟨_, below⟩ | ⟨_, below⟩) | rfl
    · exact Nat.lt_of_le_of_lt below (by decide)
    · exact Nat.lt_of_le_of_lt below (by decide)
    · decide
  have isChar := every char.toNat small
  rw [Char.ofNat_toNat] at isChar
  exact isChar plain

theorem IsHash.clean {hash : Text} (isHash : IsHash hash) : Clean hash where
  nonempty empty := by
    have length := isHash.length
    simp [empty] at length
  chars char member := by
    refine cleanChar_of_plainChar ?_
    have isHex := isHash.digits char member
    simp only [lowerHex, Bool.or_eq_true, Bool.and_eq_true, decide_eq_true_eq] at isHex
    simp only [plainChar, isDecimalDigit, Bool.or_eq_true, Bool.and_eq_true, decide_eq_true_eq]
    rcases isHex with digit | ⟨lower, upper⟩
    · exact .inl (.inl digit)
    · exact .inl (.inr ⟨lower, Char.le_trans upper (by decide)⟩)

theorem number_eq_some {text digits rest : Text} (found : number text = some (digits, rest)) :
    text = digits ++ rest ∧ ∀ char ∈ digits, plainChar char = true := by
  rw [number] at found
  split at found
  · cases found
  · cases found
    refine ⟨List.takeWhile_append_dropWhile.symm, fun char member => ?_⟩
    have isDigit := List.all_eq_true.mp List.all_takeWhile char member
    simp only [Char.isDigit, Bool.and_eq_true, decide_eq_true_eq] at isDigit
    simp only [plainChar, isDecimalDigit, Bool.or_eq_true, Bool.and_eq_true, decide_eq_true_eq]
    exact .inl (.inl isDigit)

theorem plain_of_matchVersion {text : Text} {groups : Text × Option Text}
    (matched : matchVersion text = some groups) : ∀ char ∈ text, plainChar char = true := by
  have name : "zlyme".toList.all plainChar = true := by decide
  unfold matchVersion at matched
  split at matched
  · rename_i version
    suffices rest : ∀ char ∈ version, plainChar char = true by
      intro char member
      rcases List.mem_append.mp (show char ∈ "zlyme".toList ++ version from member) with inName | inRest
      · exact List.all_eq_true.mp name char inName
      · exact rest char inRest
    split at matched
    · rename_i major isMajor
      rcases number_eq_some isMajor with ⟨rfl, digits⟩
      simpa using digits
    · rename_i major minor isMajor
      rcases number_eq_some isMajor with ⟨rfl, digits⟩
      split at matched
      · rename_i isMinor
        rcases number_eq_some isMinor with ⟨rfl, later⟩
        simp only [List.append_nil, List.mem_append, List.mem_cons]
        rintro char (inMajor | rfl | inMinor)
        · exact digits char inMajor
        · decide
        · exact later char inMinor
      · cases matched
    · cases matched
  · cases matched

/-- The versions that both readers return as they stand. -/
structure IsVersion (version : Text) : Prop where
  stripped : strip version = version
  parses : ∃ numbers, parseVersion (.str version) = .ok numbers

theorem str_of_parseVersion {value : Value} {numbers : Int × Option Int}
    (parsed : parseVersion value = .ok numbers) :
    ∃ version groups, value = .str version ∧ matchVersion (strip version) = some groups := by
  unfold parseVersion at parsed
  split at parsed
  · rename_i version isText
    split at parsed
    · cases parsed
    · rename_i major minor matched
      refine ⟨version, (major, minor), ?_, matched⟩
      rw [Value.orEmpty] at isText
      split at isText
      · exact isText
      · cases isText
        cases matched
  · cases parsed

theorem IsVersion.clean {version : Text} (isVersion : IsVersion version) : Clean version := by
  rcases isVersion.parses with ⟨_, parsed⟩
  rcases str_of_parseVersion parsed with ⟨other, groups, same, matched⟩
  cases same
  rw [isVersion.stripped] at matched
  refine ⟨?_, fun char member => cleanChar_of_plainChar (plain_of_matchVersion matched char member)⟩
  rintro rfl
  cases matched

/-! ## The size -/

/-- The texts of a size that both readers take for the same number. -/
structure IsSize (text : Text) : Prop where
  nonempty : text ≠ []
  digits : ∀ char ∈ text, isDecimalDigit char = true
  short : text.length ≤ maxStrDigits

theorem decimal_of_digit {char : Char} (isDigit : isDecimalDigit char = true) :
    decimal char = some (char.toNat - '0'.toNat) := by
  have bounds : 0x30 ≤ char.toNat ∧ char.toNat < 0x30 + 10 := by
    simp only [isDecimalDigit, Bool.and_eq_true, decide_eq_true_eq, Char.le_def,
      UInt32.le_iff_toNat_le] at isDigit
    exact ⟨isDigit.1, Nat.lt_succ_of_le isDigit.2⟩
  have found : decimalZeros.find? (fun base => base ≤ char.toNat && char.toNat < base + 10) =
      some 0x30 := by
    rw [decimalZeros, List.find?_cons_of_pos]
    simp [bounds]
  rw [decimal, found]
  rfl

theorem digitValues_eq {digits : Text} (nonempty : digits ≠ [])
    (isDigits : ∀ char ∈ digits, isDecimalDigit char = true) :
    digitValues digits = some (digits.map fun char => char.toNat - '0'.toNat) := by
  induction digits with
  | nil => exact absurd rfl nonempty
  | cons char rest induction =>
      have head := decimal_of_digit (isDigits char List.mem_cons_self)
      cases rest with
      | nil => simp [digitValues, head]
      | cons next rest =>
          have tail := induction (List.cons_ne_nil _ _)
            fun other member => isDigits other (List.mem_cons_of_mem _ member)
          have notUnderscore : next ≠ '_' := by
            rintro rfl
            exact absurd (isDigits '_' (by simp)) (by decide)
          rw [digitValues, head, tail]
          · rfl
          · simp
          · rintro _ ⟨rfl, _⟩
            exact notUnderscore rfl

theorem IsSize.clean {digits : Text} (isSize : IsSize digits) : Clean digits where
  nonempty := isSize.nonempty
  chars char member := cleanChar_of_plainChar (by simp [plainChar, isSize.digits char member])

theorem Clean.strip_eq {value : Text} (clean : Clean value) : strip value = value :=
  strip_eq_self
    (fun char member => not_isSpace_of_clean (clean.chars char (List.mem_of_mem_head? member)))
    (fun char member => not_isSpace_of_clean (clean.chars char (List.mem_of_mem_getLast? member)))

theorem IsSize.intOfText_eq {digits : Text} (isSize : IsSize digits) :
    intOfText digits = .ok (Nat.ofDigitChars 10 digits 0 : Nat) := by
  have value : natOfText digits = .ok (Nat.ofDigitChars 10 digits 0) := by
    rw [natOfText, digitValues_eq isSize.nonempty isSize.digits]
    dsimp only
    rw [if_neg (by simpa using isSize.short), Nat.ofDigitChars_eq_foldl, List.foldl_map]
  rw [intOfText, isSize.clean.strip_eq]
  split
  · exact absurd (isSize.digits '-' List.mem_cons_self) (by decide)
  · exact absurd (isSize.digits '+' List.mem_cons_self) (by decide)
  · rw [value]
    rfl

theorem IsSize.isDigit {digits : Text} (isSize : IsSize digits) : isDigit digits = true := by
  have nonempty := isSize.nonempty
  simp only [Release.isDigit, Bool.and_eq_true, Bool.not_eq_true', List.isEmpty_eq_false_iff,
    List.all_eq_true]
  refine ⟨nonempty, fun char member => ?_⟩
  rw [isDigitChar, decimal_of_digit (isSize.digits char member)]
  rfl

end Zlyme.Release
