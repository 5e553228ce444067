import Zlyme.Foundation.Decimal
import Zlyme.Foundation.Text
import Mathlib.Data.List.TakeWhile

/-! # The stat line of a process

`parse_info` of `zlyme-pak-spawn.c` and `target_info` of `zlyme-pak-hotkey.c` take
the state, the process group, the session and the start time of a process from
`/proc/<pid>/stat`. The line has the name of the process in it, which the process
chooses.
-/

namespace Zlyme.Pak

open Foundation.Decimal
open Foundation.Text

abbrev Text : Type :=
  List UInt8

/-! ## The two readers -/

/-- The bytes of a buffer before its first NUL. -/
def cString (buffer : Text) : Text :=
  buffer.takeWhile (· != 0)

/-- The separators of `strtok_r`: blank, tab, carriage return and newline. -/
def isSeparator (byte : UInt8) : Bool :=
  byte == 0x20 || byte == 0x09 || byte == 0x0d || byte == 0x0a

structure TargetInfo where
  pgid : Int32
  sid : Int32
  state : UInt8
  starttime : UInt64
  deriving DecidableEq, Repr

structure ProcInfo extends TargetInfo where
  pid : Int32
  deriving DecidableEq, Repr

def TargetInfo.zero : TargetInfo :=
  ⟨0, 0, 0, 0⟩

def parseNumber (text : Text) : Option Int :=
  match strtol text with
  | some (v, []) => some v
  | _ => none

def parseStarttime (text : Text) : Option UInt64 :=
  match strtoull text with
  | some (v, []) => some v
  | _ => none

/-- The loop over the fields after the name, which is the same in both readers. -/
def scanFields (info : TargetInfo) : Nat → List Text → Option TargetInfo
  | _, [] => none
  | field, token :: rest =>
      match field with
      | 0 =>
          match token with
          | [state] => scanFields { info with state := state } 1 rest
          | _ => none
      | 2 =>
          match parseNumber token with
          | some v => scanFields { info with pgid := Int32.ofInt v } 3 rest
          | none => none
      | 3 =>
          match parseNumber token with
          | some v => scanFields { info with sid := Int32.ofInt v } 4 rest
          | none => none
      | 19 => (parseStarttime token).map fun v => { info with starttime := v }
      | other => scanFields info (other + 1) rest

/-- `parse_info` -/
def parseInfo (line : Text) (pid : Int32) : Option ProcInfo :=
  match cutLast 0x29 (cString line) with
  | none => none
  | some (_, []) => none
  | some (_, rest) =>
      (scanFields TargetInfo.zero 0 (words isSeparator rest)).map fun info => { info with pid := pid }

/-- What comes of opening the file and reading it. -/
inductive Reading
  /-- `ENOENT` or `ESRCH`. -/
  | absent
  | failed
  | text (content : Text)
  deriving DecidableEq, Repr

inductive Inspection
  | process (info : ProcInfo)
  | disappeared
  | error
  deriving DecidableEq, Repr

/-- `read_info_at`, with a buffer of 4096 bytes. -/
def readInfo (reading : Reading) (pid : Int32) : Inspection :=
  if pid ≤ 0 then .error
  else
    match reading with
    | .absent => .disappeared
    | .failed => .error
    | .text [] => .error
    | .text content =>
        match parseInfo (content.take 4095) pid with
        | some info => .process info
        | none => .error

/-- `target_info`, with a buffer of 512 bytes. -/
def targetInfo : Reading → Option TargetInfo
  | .absent => none
  | .failed => none
  | .text [] => none
  | .text content =>
      match cutLast 0x29 (cString (content.take 511)) with
      | none => none
      | some (_, rest) => scanFields TargetInfo.zero 0 (words isSeparator rest)

/-! ## The line -/

def isLetter (byte : UInt8) : Bool :=
  (0x41 ≤ byte && byte ≤ 0x5a) || (0x61 ≤ byte && byte ≤ 0x7a)

/-- What the kernel prints of a process. -/
structure Process where
  pid : Int32
  comm : Text
  state : UInt8
  ppid : Int32
  pgrp : Int32
  session : Int32
  ttyNr : Int32
  tpgid : Int32
  flags : UInt32
  minflt : UInt64
  cminflt : UInt64
  majflt : UInt64
  cmajflt : UInt64
  utime : UInt64
  stime : UInt64
  cutime : Int64
  cstime : Int64
  priority : Int64
  nice : Int64
  numThreads : Int64
  itrealvalue : Int64
  starttime : UInt64
  /-- The fields from 23 on. -/
  later : List Int
  /-- The name is a C string, which the kernel prints through a buffer of 64 bytes. -/
  commText : 0 ∉ comm
  commLength : comm.length ≤ 64
  stateLetter : isLetter state = true

namespace Process

variable (process : Process)

/-- The fields 4 to 21. -/
def numbers : List Int :=
  [process.ppid.toInt, process.pgrp.toInt, process.session.toInt, process.ttyNr.toInt,
    process.tpgid.toInt, process.flags.toNat, process.minflt.toNat, process.cminflt.toNat,
    process.majflt.toNat, process.cmajflt.toNat, process.utime.toNat, process.stime.toNat,
    process.cutime.toInt, process.cstime.toInt, process.priority.toInt, process.nice.toInt,
    process.numThreads.toInt, process.itrealvalue.toInt]

/-- The fields 3 to 22. -/
def fields : List Text :=
  [process.state] :: (process.numbers.map signedDecimal ++ [decimal process.starttime.toNat])

/-- The line up to the start time. -/
def front : Text :=
  signedDecimal process.pid.toInt ++ 0x20 :: 0x28 :: (process.comm ++ 0x29 :: 0x20 ::
    joined 0x20 process.fields)

def back : Text :=
  process.later.flatMap (fun v => 0x20 :: signedDecimal v) ++ [0x0a]

def statLine : Text :=
  process.front ++ process.back

def info : TargetInfo where
  pgid := process.pgrp
  sid := process.session
  state := process.state
  starttime := process.starttime

end Process

/-! ## Printed numbers -/

theorem parseNumber_signedDecimal {v : Int} (above : -9223372036854775808 ≤ v)
    (below : v ≤ 9223372036854775807) : parseNumber (signedDecimal v) = some v := by
  rw [parseNumber, strtol_signedDecimal above below]

theorem parseNumber_int32 (v : Int32) : parseNumber (signedDecimal v.toInt) = some v.toInt := by
  have above := v.le_toInt
  have below := v.toInt_lt
  exact parseNumber_signedDecimal (by omega) (by omega)

theorem parseStarttime_decimal (v : UInt64) : parseStarttime (decimal v.toNat) = some v := by
  rw [parseStarttime, strtoull_decimal]

/-- The numbers that fit in twenty bytes. -/
def Short (v : Int) : Prop :=
  -(10 ^ 19 : Nat) < v ∧ v < (10 ^ 20 : Nat)

theorem short_int32 (v : Int32) : Short v.toInt := by
  have above := v.le_toInt
  have below := v.toInt_lt
  exact ⟨by omega, by omega⟩

theorem short_int64 (v : Int64) : Short v.toInt := by
  have above := v.le_toInt
  have below := v.toInt_lt
  exact ⟨by omega, by omega⟩

theorem short_uint32 (v : UInt32) : Short v.toNat := by
  have below := v.toNat_lt
  exact ⟨by omega, by omega⟩

theorem short_uint64 (v : UInt64) : Short v.toNat := by
  have below := v.toNat_lt
  exact ⟨by omega, by omega⟩

theorem Short.length_le {v : Int} (short : Short v) : (signedDecimal v).length ≤ 20 :=
  signedDecimal_length_le (by decide) short.1 short.2

/-- A byte that ends no field and no name. -/
def isPlain (byte : UInt8) : Bool :=
  byte != 0 && byte != 0x29 && !isSeparator byte

theorem isPlain_of_large {byte : UInt8} (large : 0x2a ≤ byte.toNat) : isPlain byte = true := by
  have differs : ∀ other : UInt8, other.toNat < 0x2a → (byte == other) = false := by
    rintro other small
    rw [beq_eq_false_iff_ne]
    rintro rfl
    omega
  simp [isPlain, isSeparator, bne, differs]

theorem isPlain_of_isDigit {byte : UInt8} (digit : isDigit byte = true) : isPlain byte = true := by
  have bounds := isDigit_iff.mp digit
  exact isPlain_of_large (by omega)

theorem isPlain_of_mem {v : Int} {byte : UInt8} (member : byte ∈ signedDecimal v) :
    isPlain byte = true := by
  rcases signedDecimal_bytes member with rfl | digit
  · rfl
  · exact isPlain_of_isDigit digit

theorem isPlain_of_isLetter {byte : UInt8} (letter : isLetter byte = true) : isPlain byte = true := by
  have large : 0x41 ≤ byte.toNat := by
    simp only [isLetter, Bool.or_eq_true, Bool.and_eq_true, decide_eq_true_eq,
      UInt8.le_iff_toNat_le] at letter
    rcases letter with ⟨upper, _⟩ | ⟨lower, _⟩
    · exact upper
    · exact Nat.le_trans (by decide) lower
  exact isPlain_of_large (by omega)

/-! ## The fields of a line -/

namespace Process

variable (process : Process)

theorem short_numbers : ∀ v ∈ process.numbers, Short v := by
  simp only [numbers, List.forall_mem_cons, List.not_mem_nil, false_implies, implies_true, and_true,
    short_int32, short_int64, short_uint32, short_uint64]

theorem fields_plain : ∀ word ∈ process.fields, word ≠ [] ∧ word.length ≤ 20 ∧
    ∀ byte ∈ word, isPlain byte = true := by
  intro word member
  simp only [fields, List.mem_cons, List.mem_append, List.mem_map, List.not_mem_nil, or_false]
    at member
  rcases member with rfl | ⟨v, isNumber, rfl⟩ | rfl
  · refine ⟨List.cons_ne_nil _ _, by simp, ?_⟩
    simpa using isPlain_of_isLetter process.stateLetter
  · exact ⟨signedDecimal_ne_nil v, (process.short_numbers v isNumber).length_le, fun _ =>
      isPlain_of_mem⟩
  · exact ⟨decimal_ne_nil _, (short_uint64 process.starttime).length_le, fun _ member =>
      isPlain_of_isDigit (isDigit_of_mem_decimal member)⟩

theorem front_length_le : process.front.length ≤ 511 := by
  have pid := (short_int32 process.pid).length_le
  have name := process.commLength
  have joined : (joined 0x20 process.fields).length ≤ process.fields.length * 21 :=
    joined_length_le fun word member => (process.fields_plain word member).2.1
  have count : process.fields.length = 20 := rfl
  simp only [front, List.length_append, List.length_cons]
  omega

theorem scanFields_fields (rest : List Text) :
    scanFields TargetInfo.zero 0 (process.fields ++ rest) = some process.info := by
  simp only [fields, numbers, List.map_cons, List.map_nil, List.cons_append, List.nil_append,
    scanFields, parseNumber_int32, parseStarttime_decimal, Int32.ofInt_toInt, Option.map_some, info]

theorem isPlain_number {v : Int} {byte : UInt8} (member : byte ∈ signedDecimal v) :
    byte ≠ 0 ∧ byte ≠ 0x29 := by
  have isPlain := isPlain_of_mem member
  simp only [Pak.isPlain, Bool.and_eq_true, bne_iff_ne] at isPlain
  exact isPlain.1

/-- What a buffer may hold of the line after the start time. -/
def IsBack (rest : Text) : Prop :=
  (∀ byte ∈ rest, byte ≠ 0 ∧ byte ≠ 0x29) ∧
    (rest = [] ∨ ∃ last later, rest = last :: later ∧ isSeparator last = true)

theorem isBack_take (size : Nat) : IsBack (process.back.take size) := by
  have plain : ∀ byte ∈ process.back, byte ≠ 0 ∧ byte ≠ 0x29 := by
    intro byte member
    simp only [back, List.mem_append, List.mem_flatMap, List.mem_cons, List.not_mem_nil,
      or_false] at member
    rcases member with ⟨v, _, rfl | isNumber⟩ | rfl
    · decide
    · exact isPlain_number isNumber
    · decide
  refine ⟨fun byte member => plain byte (List.mem_of_mem_take member), ?_⟩
  cases size with
  | zero => exact .inl rfl
  | succ size =>
      right
      cases isLater : process.later with
      | nil => exact ⟨0x0a, _, by simp only [back, isLater]; rfl, rfl⟩
      | cons v later => exact ⟨0x20, _, by simp only [back, isLater]; rfl, rfl⟩

/-- Whatever the name is, the last closing parenthesis is the one after it. -/
theorem cutLast_front {rest : Text} (isBack : IsBack rest) :
    cutLast 0x29 (cString (process.front ++ rest)) =
      some (signedDecimal process.pid.toInt ++ 0x20 :: 0x28 :: process.comm,
        0x20 :: joined 0x20 process.fields ++ rest) := by
  have plain : ∀ byte ∈ joined 0x20 process.fields, byte ≠ 0 ∧ byte ≠ 0x29 := by
    intro byte member
    rcases mem_joined member with rfl | ⟨word, isField, inWord⟩
    · decide
    · have isPlain := (process.fields_plain word isField).2.2 byte inWord
      simp only [Pak.isPlain, Bool.and_eq_true, bne_iff_ne] at isPlain
      exact isPlain.1
  have noNul : ∀ byte ∈ process.front ++ rest, (byte != 0) = true := by
    simp only [front, List.mem_append, List.mem_cons, bne_iff_ne]
    rintro byte (inFront | inRest)
    · rcases inFront with isNumber | rfl | rfl | inName | rfl | rfl | inFields
      · exact (isPlain_number isNumber).1
      · decide
      · decide
      · exact fun isNul => process.commText (isNul ▸ inName)
      · decide
      · decide
      · exact (plain byte inFields).1
    · exact (isBack.1 byte inRest).1
  rw [cString, List.takeWhile_eq_self_iff.mpr noNul, cutLast_eq_some]
  constructor
  · simp [front]
  · simp only [List.cons_append, List.mem_cons, List.mem_append, not_or]
    exact ⟨by decide, fun member => (plain _ member).2 rfl, fun member => (isBack.1 _ member).2 rfl⟩

theorem scanFields_rest {rest : Text} (isBack : IsBack rest) :
    scanFields TargetInfo.zero 0 (words isSeparator (0x20 :: joined 0x20 process.fields ++ rest)) =
      some process.info := by
  have nonempty : ∀ word ∈ process.fields, word ≠ [] := fun word member =>
    (process.fields_plain word member).1
  have unbroken : ∀ word ∈ process.fields, ∀ byte ∈ word, isSeparator byte = false := by
    intro word member byte inWord
    have isPlain := (process.fields_plain word member).2.2 byte inWord
    simp only [Pak.isPlain, Bool.and_eq_true, Bool.not_eq_true'] at isPlain
    exact isPlain.2
  have blank : words isSeparator (0x20 :: joined 0x20 process.fields ++ rest) =
      words isSeparator (joined 0x20 process.fields ++ rest) := by
    simp [words, lines, isSeparator]
  rw [blank]
  rcases isBack.2 with rfl | ⟨last, later, rfl, ends⟩
  · rw [List.append_nil, words_joined nonempty unbroken rfl, ← List.append_nil process.fields]
    exact process.scanFields_fields []
  · rw [words_joined_append nonempty unbroken rfl ends]
    exact process.scanFields_fields _

/-- A buffer with the line up to its start time has what both readers want. -/
theorem take_statLine {size : Nat} (large : 511 ≤ size) :
    ∃ rest, IsBack rest ∧ process.statLine.take size = process.front ++ rest := by
  have fits := process.front_length_le
  refine ⟨_, process.isBack_take (size - process.front.length), ?_⟩
  rw [statLine, List.take_append, List.take_of_length_le (by omega)]

theorem parseInfo_front {rest : Text} (isBack : IsBack rest) (pid : Int32) :
    parseInfo (process.front ++ rest) pid = some { process.info with pid := pid } := by
  have found := process.scanFields_rest isBack
  rw [parseInfo, process.cutLast_front isBack]
  simp only [List.cons_append] at found ⊢
  rw [found]
  rfl

/-- Both programs read the kernel's own values, from the whole line and through
their buffers. -/
theorem stat_line_read (process : Process) (pid : Int32) :
    parseInfo process.statLine pid = some { process.info with pid := pid } ∧
      readInfo (.text process.statLine) pid =
        (if pid ≤ 0 then .error else .process { process.info with pid := pid }) ∧
      targetInfo (.text process.statLine) = some process.info := by
  have nonempty : process.statLine ≠ [] := by
    simp [statLine, back]
  refine ⟨?_, ?_, ?_⟩
  · have whole := process.isBack_take process.back.length
    rw [List.take_length] at whole
    exact process.parseInfo_front whole pid
  · rcases process.take_statLine (by decide : 511 ≤ 4095) with ⟨rest, isBack, isBuffer⟩
    rw [readInfo, isBuffer, process.parseInfo_front isBack]
    exact nonempty
  · rcases process.take_statLine (Nat.le_refl 511) with ⟨rest, isBack, isBuffer⟩
    rw [targetInfo, isBuffer, process.cutLast_front isBack]
    · exact process.scanFields_rest isBack
    · exact nonempty

end Process

end Zlyme.Pak
