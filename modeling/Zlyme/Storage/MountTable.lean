import Zlyme.Foundation.Decimal
import Zlyme.Portmaster.MountInfo

/-! # The mount table as the scripts read it

`mounts.sh` finds mounts by their decoded target and source. The kernel writes a space, a tab,
a newline and a backslash of either one in octal.
-/

namespace Zlyme.Storage.MountTable

open Foundation.Text Foundation.Decimal
open Portmaster (Text ascii newline backslash isBlank isOctal decode)

def space : UInt8 :=
  0x20

def hash : UInt8 :=
  0x23

/-! ## The script -/

/-- The modes of `mounts_scan` that read the table. -/
inductive Mode
  | targets
  | has
  | count
  | hasSource
  | targetOf
  | source
  deriving DecidableEq, Repr

/-- The variables `count` and `found`, and what is printed. -/
structure Scan where
  count : Nat
  found : Bool
  printed : Text
  deriving DecidableEq, Repr

section Modes

variable (mode : Mode) (want : Text)

def hit (src dst : Text) (scan : Scan) : Scan :=
  match mode with
  | .targets => { scan with printed := scan.printed ++ dst ++ [newline] }
  | .has => if dst = want then { scan with found := true } else scan
  | .count => if dst = want then { scan with count := scan.count + 1 } else scan
  | .hasSource => if src = want then { scan with found := true } else scan
  | .targetOf =>
      if src = want ∧ scan.found = false then
        { scan with printed := scan.printed ++ dst, found := true }
      else scan
  | .source =>
      if dst = want ∧ scan.found = false then
        { scan with printed := scan.printed ++ src, found := true }
      else scan

/-- The program stops at the first mount that answers the question. -/
def stops (scan : Scan) : Bool :=
  scan.found && mode ≠ .count && mode ≠ .targets

def scanLines : List Text → Scan → Scan
  | [], scan => scan
  | line :: rest, scan =>
      if line.head? = some hash then scanLines rest scan
      else
        match words isBlank line with
        | src :: dst :: _ =>
            let next := hit mode want (decode src) (decode dst) scan
            if stops mode next then next else scanLines rest next
        | _ => scanLines rest scan

/-- The status and what is printed. -/
def ending (scan : Scan) : Nat × Text :=
  match mode with
  | .targets => (0, scan.printed)
  | .count => (0, scan.printed ++ decimal scan.count ++ [newline])
  | _ => (if scan.found then 0 else 1, scan.printed)

def mountsScan (file : Text) : Nat × Text :=
  ending mode (scanLines mode want (lines (· == newline) file) ⟨0, false, []⟩)

end Modes

/-- What is printed for a field. -/
def mountsDecode (field : Text) : Text :=
  decode field

def mountsTargets (file : Text) : Text :=
  (mountsScan .targets [] file).2

def mountsHas (file path : Text) : Bool :=
  (mountsScan .has path file).1 = 0

def mountsCount (file path : Text) : Text :=
  (mountsScan .count path file).2

def mountsHasSource (file source : Text) : Bool :=
  (mountsScan .hasSource source file).1 = 0

/-- The status is 1 where nothing is found. -/
def mountsTargetOf (file source : Text) : Option Text :=
  if (mountsScan .targetOf source file).1 = 0 then some (mountsScan .targetOf source file).2
  else none

def mountsSource (file path : Text) : Option Text :=
  if (mountsScan .source path file).1 = 0 then some (mountsScan .source path file).2 else none

/-! ## The kernel -/

def escapeByte (byte : UInt8) : Text :=
  if byte = space then ascii "\\040"
  else if byte = 0x09 then ascii "\\011"
  else if byte = newline then ascii "\\012"
  else if byte = backslash then ascii "\\134"
  else [byte]

def escape (text : Text) : Text :=
  text.flatMap escapeByte

/-- One line of the mount table. -/
structure Entry where
  source : Text
  target : Text
  /-- The type and the options, and two numbers. -/
  rest : Text
  unbroken : ∀ byte ∈ rest, (byte == newline) = false

def Entry.line (entry : Entry) : Text :=
  joined space [escape entry.source, escape entry.target] ++ space :: entry.rest

def table (entries : List Entry) : Text :=
  unlines newline (entries.map Entry.line)

/-- The first two words of the line are the source and the target, and it is no comment. -/
def Entry.Plain (entry : Entry) : Prop :=
  entry.source ≠ [] ∧ entry.source.head? ≠ some hash ∧ entry.target ≠ []

instance (entry : Entry) : Decidable entry.Plain :=
  inferInstanceAs (Decidable (_ ∧ _ ∧ _))

/-! ## Escapes -/

theorem decode_cons {first : UInt8} (plain : first ≠ backslash) (rest : Text) :
    decode (first :: rest) = first :: decode rest := by
  rcases rest with _ | ⟨a, _ | ⟨b, _ | ⟨c, rest⟩⟩⟩
  · rfl
  · rfl
  · rfl
  · rw [decode, if_neg fun escaped => plain escaped.1]

theorem decode_octal {a b c : UInt8} (octal : isOctal a ∧ isOctal b ∧ isOctal c) (rest : Text) :
    decode (backslash :: a :: b :: c :: rest) =
      UInt8.ofNat (digitValue a * 64 + digitValue b * 8 + digitValue c) :: decode rest := by
  rw [decode, if_pos ⟨rfl, octal⟩]

theorem decode_escapeByte (byte : UInt8) (rest : Text) :
    decode (escapeByte byte ++ rest) = byte :: decode rest := by
  unfold escapeByte
  split
  · rename_i same
    rw [same]
    exact decode_octal (by decide) rest
  · split
    · rename_i same
      rw [same]
      exact decode_octal (by decide) rest
    · split
      · rename_i same
        rw [same]
        exact decode_octal (by decide) rest
      · split
        · rename_i same
          rw [same]
          exact decode_octal (by decide) rest
        · rename_i plain
          exact decode_cons plain rest

theorem decode_escape (text : Text) : decode (escape text) = text := by
  induction text with
  | nil => rfl
  | cons byte rest induction =>
      rw [escape, List.flatMap_cons, decode_escapeByte]
      exact congrArg (List.cons byte) induction

theorem escape_eq_nil {text : Text} : escape text = [] ↔ text = [] := by
  constructor
  · intro empty
    rw [← decode_escape text, empty]
    rfl
  · rintro rfl
    rfl

/-- No blank and no newline is left. -/
theorem not_blank_of_mem_escape {text : Text} {byte : UInt8} (member : byte ∈ escape text) :
    isBlank byte = false ∧ (byte == newline) = false := by
  rcases List.mem_flatMap.mp member with ⟨original, -, inside⟩
  have written : ∀ literal : Text, (literal.all fun other =>
      !isBlank other && !(other == newline)) = true → byte ∈ literal →
        isBlank byte = false ∧ (byte == newline) = false := by
    intro literal all inLiteral
    simpa using List.all_eq_true.mp all byte inLiteral
  unfold escapeByte at inside
  split at inside
  · exact written _ (by decide) inside
  · rename_i notSpace
    split at inside
    · exact written _ (by decide) inside
    · rename_i notTab
      split at inside
      · exact written _ (by decide) inside
      · rename_i notNewline
        split at inside
        · exact written _ (by decide) inside
        · rw [List.mem_singleton.mp inside]
          refine ⟨?_, beq_eq_false_iff_ne.mpr notNewline⟩
          simp only [isBlank, Bool.or_eq_false_iff, decide_eq_false_iff_not]
          exact ⟨notSpace, notTab⟩

theorem head_escape {text : Text} (plain : text.head? ≠ some hash) :
    (escape text).head? ≠ some hash := by
  rcases text with _ | ⟨byte, rest⟩
  · exact nofun
  · have byteDiffers : byte ≠ hash := fun same => plain (congrArg some same)
    rw [escape, List.flatMap_cons]
    unfold escapeByte
    split
    · exact (show some backslash ≠ some hash by decide)
    · split
      · exact (show some backslash ≠ some hash by decide)
      · split
        · exact (show some backslash ≠ some hash by decide)
        · split
          · exact (show some backslash ≠ some hash by decide)
          · exact fun same => byteDiffers (Option.some.inj same)

/-! ## Lines of the table -/

theorem line_words {entry : Entry} (plain : entry.Plain) : words isBlank entry.line =
    escape entry.source :: escape entry.target :: words isBlank entry.rest := by
  apply words_joined_append
  · intro word member
    rcases List.mem_pair.mp member with rfl | rfl
    · exact fun empty => plain.1 (escape_eq_nil.mp empty)
    · exact fun empty => plain.2.2 (escape_eq_nil.mp empty)
  · intro word member byte inside
    rcases List.mem_pair.mp member with rfl | rfl
    · exact (not_blank_of_mem_escape inside).1
    · exact (not_blank_of_mem_escape inside).1
  · rfl
  · rfl

theorem line_head {entry : Entry} (plain : entry.Plain) : entry.line.head? ≠ some hash := by
  rw [Entry.line, joined_cons, List.append_assoc, List.head?_append]
  have noComment := head_escape plain.2.1
  cases isHead : (escape entry.source).head? with
  | none =>
      rw [List.head?_eq_none_iff, escape_eq_nil] at isHead
      exact absurd isHead plain.1
  | some first =>
      rw [isHead] at noComment
      exact noComment

theorem lines_table (entries : List Entry) :
    lines (· == newline) (table entries) = entries.map Entry.line := by
  apply lines_unlines
  · intro line member byte inside
    rcases List.mem_map.mp member with ⟨entry, -, rfl⟩
    rcases List.mem_append.mp inside with inWords | inRest
    · rcases mem_joined inWords with rfl | ⟨word, isWord, inWord⟩
      · rfl
      · rcases List.mem_pair.mp isWord with rfl | rfl
        · exact (not_blank_of_mem_escape inWord).2
        · exact (not_blank_of_mem_escape inWord).2
    · rcases List.mem_cons.mp inRest with rfl | inRest
      · rfl
      · exact entry.unbroken byte inRest
  · rfl

/-! ## Entries -/

section Entries

variable (mode : Mode) (want : Text)

/-- The loop over the entries as they are mounted. -/
def scanEntries : List Entry → Scan → Scan
  | [], scan => scan
  | entry :: rest, scan =>
      let next := hit mode want entry.source entry.target scan
      if stops mode next then next else scanEntries rest next

theorem scanLines_table {entries : List Entry} (plain : ∀ entry ∈ entries, entry.Plain)
    (scan : Scan) : scanLines mode want (entries.map Entry.line) scan =
      scanEntries mode want entries scan := by
  induction entries generalizing scan with
  | nil => rfl
  | cons entry rest induction =>
      rw [List.forall_mem_cons] at plain
      rw [List.map_cons, scanLines, if_neg (line_head plain.1), line_words plain.1]
      dsimp only
      rw [decode_escape, decode_escape, induction plain.2]
      rfl

theorem mountsScan_table {entries : List Entry} (plain : ∀ entry ∈ entries, entry.Plain) :
    mountsScan mode want (table entries) =
      ending mode (scanEntries mode want entries ⟨0, false, []⟩) := by
  rw [mountsScan, lines_table, scanLines_table mode want plain]

/-- The modes that look for one mount. -/
def searches : Bool :=
  mode ≠ .count && mode ≠ .targets

/-- The entry is one that is looked for. -/
def answers (entry : Entry) : Bool :=
  match mode with
  | .hasSource => entry.source = want
  | .targetOf => entry.source = want
  | _ => entry.target = want

/-- What is printed of the entry. -/
def told (entry : Entry) : Text :=
  match mode with
  | .source => entry.source
  | .targetOf => entry.target
  | _ => []

theorem hit_searching (isSearch : searches mode = true) (entry : Entry) (count : Nat)
    (printed : Text) : hit mode want entry.source entry.target ⟨count, false, printed⟩ =
      if answers mode want entry then ⟨count, true, printed ++ told mode entry⟩
      else ⟨count, false, printed⟩ := by
  cases mode with
  | targets => cases isSearch
  | count => cases isSearch
  | has => simp [hit, answers, told]
  | hasSource => simp [hit, answers, told]
  | targetOf => simp [hit, answers, told]
  | source => simp [hit, answers, told]

/-- A search ends at the first entry that answers. -/
theorem scanEntries_searching (isSearch : searches mode = true) (entries : List Entry)
    (count : Nat) (printed : Text) : scanEntries mode want entries ⟨count, false, printed⟩ =
      match entries.find? (answers mode want) with
      | some entry => ⟨count, true, printed ++ told mode entry⟩
      | none => ⟨count, false, printed⟩ := by
  induction entries with
  | nil => rfl
  | cons entry rest induction =>
      rw [scanEntries, hit_searching mode want isSearch, List.find?_cons]
      cases answered : answers mode want entry with
      | true =>
          have isEnd : stops mode ⟨count, true, printed ++ told mode entry⟩ = true := isSearch
          simp only [if_true, isEnd]
      | false =>
          have goesOn : stops mode ⟨count, false, printed⟩ = false := rfl
          simp only [Bool.false_eq_true, if_false, goesOn]
          exact induction

theorem scanEntries_count (entries : List Entry) (count : Nat) (printed : Text) :
    scanEntries .count want entries ⟨count, false, printed⟩ =
      ⟨count + entries.countP fun entry => entry.target = want, false, printed⟩ := by
  induction entries generalizing count with
  | nil => rfl
  | cons entry rest induction =>
      rw [scanEntries, hit, List.countP_cons]
      by_cases here : entry.target = want
      · simp only [here, if_true, decide_true]
        have goesOn : stops .count ⟨count + 1, false, printed⟩ = false := rfl
        rw [goesOn, if_neg Bool.false_ne_true, induction]
        congr 1
        omega
      · simp only [here, if_false, decide_false, Bool.false_eq_true]
        have goesOn : stops .count ⟨count, false, printed⟩ = false := rfl
        rw [goesOn, if_neg Bool.false_ne_true, induction]
        rfl

end Entries

/-! ## Answers -/

section Answers

variable {entries : List Entry} (plain : ∀ entry ∈ entries, entry.Plain)

include plain

theorem mountsScan_searching (mode : Mode) (want : Text) (isSearch : searches mode = true) :
    mountsScan mode want (table entries) =
      match entries.find? (answers mode want) with
      | some entry => (0, told mode entry)
      | none => (1, []) := by
  rw [mountsScan_table mode want plain, scanEntries_searching mode want isSearch]
  cases entries.find? (answers mode want) <;> cases mode <;> first | rfl | cases isSearch

theorem mountsHas_iff (path : Text) :
    mountsHas (table entries) path = true ↔ ∃ entry ∈ entries, entry.target = path := by
  rw [mountsHas, mountsScan_searching plain .has path rfl]
  cases found : entries.find? (answers .has path) with
  | none =>
      simp only [List.find?_eq_none, answers, decide_eq_true_eq] at found
      simpa using found
  | some entry =>
      have here := List.find?_some found
      simp only [answers, decide_eq_true_eq] at here
      simp only [decide_true, true_iff]
      exact ⟨entry, List.mem_of_find?_eq_some found, here⟩

theorem mountsCount_eq (path : Text) : mountsCount (table entries) path =
    decimal (entries.countP fun entry => entry.target = path) ++ [newline] := by
  rw [mountsCount, mountsScan_table .count path plain, scanEntries_count]
  simp [ending]

theorem mountsSource_eq (path : Text) : mountsSource (table entries) path =
    (entries.find? fun entry => entry.target = path).map Entry.source := by
  rw [mountsSource, mountsScan_searching plain .source path rfl]
  change _ = (entries.find? (answers .source path)).map Entry.source
  cases entries.find? (answers .source path) <;> rfl

theorem mountsTargetOf_eq (source : Text) : mountsTargetOf (table entries) source =
    (entries.find? fun entry => entry.source = source).map Entry.target := by
  rw [mountsTargetOf, mountsScan_searching plain .targetOf source rfl]
  change _ = (entries.find? (answers .targetOf source)).map Entry.target
  cases entries.find? (answers .targetOf source) <;> rfl

end Answers

/-- Both decoders undo the escapes of the kernel. Where no line is taken for a comment, and none
lacks a field, the helpers answer for the one path that they are asked for. -/
theorem mount_table_exact (entries : List Entry) (plain : ∀ entry ∈ entries, entry.Plain)
    (path : Text) :
    (∀ text, mountsDecode (escape text) = text ∧ Portmaster.decode (escape text) = text) ∧
      (mountsHas (table entries) path = true ↔ ∃ entry ∈ entries, entry.target = path) ∧
      mountsCount (table entries) path =
        decimal (entries.countP fun entry => entry.target = path) ++ [newline] ∧
      mountsSource (table entries) path =
        (entries.find? fun entry => entry.target = path).map Entry.source :=
  ⟨fun text => ⟨decode_escape text, decode_escape text⟩, mountsHas_iff plain path,
    mountsCount_eq plain path, mountsSource_eq plain path⟩

/-! ### Sample tables -/

def entryOf (source target : String) : Entry :=
  ⟨ascii source, ascii target, ascii "vfat rw 0 0", by decide +kernel⟩

theorem spaced_is_found :
    mountsHas (table [entryOf "/dev/sda1" "/mnt/media/A", entryOf "/dev/sdb1" "/mnt/media/A B"])
      (ascii "/mnt/media/A B") = true :=
  (mount_table_exact [entryOf "/dev/sda1" "/mnt/media/A", entryOf "/dev/sdb1" "/mnt/media/A B"]
    (by unfold Entry.Plain; decide +kernel) (ascii "/mnt/media/A B")).2.1.mpr
    ⟨entryOf "/dev/sdb1" "/mnt/media/A B", by simp, rfl⟩

/-- A mount whose source starts with a number sign, or says nothing, is not found. -/
theorem commented_is_missed :
    (mountsHas (table [entryOf "#disk" "/mnt/media/A"]) (ascii "/mnt/media/A") = false ∧
      mountsSource (table [entryOf "#disk" "/mnt/media/A"]) (ascii "/mnt/media/A") = none) ∧
    mountsHas (table [entryOf "" "/mnt/media/A"]) (ascii "/mnt/media/A") = false := by
  decide +kernel

end Zlyme.Storage.MountTable
