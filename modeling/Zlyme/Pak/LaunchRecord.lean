import Zlyme.Foundation.Result
import Zlyme.Foundation.Text

/-! # Launch records

`/tmp/next` names the `launch.sh` that the session starts next, with its ROM. The reader takes
a file only if it is one whole record.
-/

namespace Zlyme.Pak.LaunchRecord

open Foundation Foundation.Text

abbrev Text : Type :=
  List UInt8

def ascii (literal : String) : Text :=
  literal.toList.map Char.toUInt8

def newline : UInt8 :=
  0x0a

/-! ## The code -/

inductive Rejection
  | missing
  | empty
  | tooLong
  | nul
  | truncated
  | trailing
  | magic
  | argc
  | control
  | executable
  | rom
  deriving DecidableEq, Repr

/-- What `read_launch` writes to standard error. -/
def Rejection.message (rejection : Rejection) : String :=
  "launch rejected: " ++
    match rejection with
    | .missing => "missing"
    | .empty => "empty"
    | .tooLong => "too long"
    | .nul => "nul"
    | .truncated => "truncated"
    | .trailing => "trailing"
    | .magic => "magic"
    | .argc => "argc"
    | .control => "control"
    | .executable => "executable"
    | .rom => "rom"

/-- What `tr -cd` keeps in `field_text_ok`. -/
def isControl (byte : UInt8) : Bool :=
  byte ≤ 0x08 || (0x0b ≤ byte && byte ≤ 0x1f) || byte == 0x7f

def fieldTextOk (text : Text) : Bool :=
  text.all fun byte => !isControl byte

/-- `case "$_lf_exe" in /*/launch.sh)` -/
def isLaunchScript : Text → Bool
  | [] => false
  | byte :: rest => byte == 0x2f && (ascii "/launch.sh").isSuffixOf rest

/-- What `IFS= read -r` leaves. -/
structure Line where
  text : Text
  /-- The status of `read`: whether a newline ends the line. -/
  ended : Bool
  /-- What the next `read` starts at. -/
  rest : Text
  deriving DecidableEq, Repr

def readLine (text : Text) : Line :=
  match cut newline text with
  | some (line, rest) => ⟨line, true, rest⟩
  | none => ⟨text, false, []⟩

/-- `IFS= read -r field || _lf_err=truncated` -/
def readField (text : Text) : Except Rejection Line := do
  raiseIf ((readLine text).ended = false) .truncated
  return readLine text

structure Fields where
  magic : Text
  argc : Text
  exe : Text
  rom : Text
  deriving DecidableEq, Repr

/-- The ROM is read only for the count 2. -/
def readRom (argc content : Text) : Except Rejection Line :=
  if argc = ascii "2" then readField content else .ok ⟨[], true, content⟩

/-- The part of `read_launch` that reads from the file. -/
def readFields (content : Text) : Except Rejection Fields := do
  let magic ← readField content
  let argc ← readField magic.rest
  let exe ← readField argc.rest
  let rom ← readRom argc.text exe.rest
  raiseIf ((readLine rom.rest).ended = true ∨ (readLine rom.rest).text ≠ []) .trailing
  return ⟨magic.text, argc.text, exe.text, rom.text⟩

/-- `LAUNCH_EXE` and `LAUNCH_ROM`. -/
structure Launch where
  exe : Text
  rom : Text
  deriving DecidableEq, Repr

def checkRom (fields : Fields) : Except Rejection Unit :=
  if fields.argc = ascii "2" then do
    raiseIf (fields.rom = [] ∨ 4095 < fields.rom.length) .rom
    raiseIf (fieldTextOk fields.rom = false) .control
  else .ok ()

/-- The checks of `read_launch` after the file is read. -/
def checkFields (fields : Fields) : Except Rejection Launch := do
  raiseIf (fields.magic ≠ ascii "ZLYME1") .magic
  raiseIf (fields.argc ≠ ascii "1" ∧ fields.argc ≠ ascii "2") .argc
  raiseIf (fieldTextOk fields.exe = false) .control
  raiseIf (4095 < fields.exe.length) .tooLong
  raiseIf (isLaunchScript fields.exe = false) .executable
  checkRom fields
  return ⟨fields.exe, if fields.argc = ascii "2" then fields.rom else []⟩

/-- `read_launch`. A file that is not there is `none`. -/
def readLaunch (file : Option Text) : Except Rejection Launch := do
  let content ← orRaise file .missing
  raiseIf (content.length = 0) .empty
  raiseIf (9000 < content.length) .tooLong
  raiseIf (content.length ≠ (content.filter (· != 0)).length) .nul
  let fields ← readFields content
  checkFields fields

/-! ## Records -/

/-- A text that may be a field of a record. -/
structure IsField (text : Text) : Prop where
  short : text.length ≤ 4095
  plain : ∀ byte ∈ text, byte = 0x09 ∨ (0x20 ≤ byte ∧ byte ≠ 0x7f)

/-- A path that the pattern `/*/launch.sh` matches. -/
structure IsExe (exe : Text) : Prop extends IsField exe where
  matched : ∃ middle, exe = ascii "/" ++ middle ++ ascii "/launch.sh"

structure IsRom (rom : Text) : Prop extends IsField rom where
  nonempty : rom ≠ []

/-- The record of a launch, with the ROM where there is one. -/
def record (exe : Text) : Option Text → Text
  | none => unlines newline [ascii "ZLYME1", ascii "1", exe]
  | some rom => unlines newline [ascii "ZLYME1", ascii "2", exe, rom]

/-! ## One line -/

section Lines

variable {text before rest : Text} {line : Line}

theorem readLine_append (unbroken : newline ∉ before) :
    readLine (before ++ newline :: rest) = ⟨before, true, rest⟩ := by
  simp [readLine, cut_append unbroken]

@[simp] theorem readLine_nil : readLine [] = ⟨[], false, []⟩ := rfl

theorem readField_append (unbroken : newline ∉ before) :
    readField (before ++ newline :: rest) = .ok ⟨before, true, rest⟩ := by
  rw [readField, readLine_append unbroken, raiseIf_of_not (by simp)]
  rfl

/-- What `read` takes is a line of the text. -/
theorem readField_eq_ok (isOk : readField text = .ok line) :
    text = line.text ++ newline :: line.rest ∧ newline ∉ line.text := by
  simp only [readField, bind_eq_ok, raiseIf_eq_ok] at isOk
  rcases isOk with ⟨-, ended, isLine⟩
  cases isLine
  cases isCut : cut newline text with
  | none => simp [readLine, isCut] at ended
  | some parts =>
      simp only [readLine, isCut]
      exact cut_eq_some.mp isCut

/-- Nothing is left when the last `read` fails with an empty line. -/
theorem eq_nil_of_not_trailing (unended : ¬((readLine text).ended = true ∨ (readLine text).text ≠ [])) :
    text = [] := by
  cases isCut : cut newline text with
  | none =>
      simp only [readLine, isCut, not_or, ne_eq, Decidable.not_not] at unended
      exact unended.2
  | some parts => simp [readLine, isCut] at unended

end Lines

/-! ## The fields -/

/-- The lines that the fields are read from. -/
def Fields.lines (fields : Fields) : List Text :=
  if fields.argc = ascii "2" then [fields.magic, fields.argc, fields.exe, fields.rom]
  else [fields.magic, fields.argc, fields.exe]

theorem readFields_unlines {fields : Fields} (unbroken : ∀ line ∈ fields.lines, newline ∉ line)
    (noRom : fields.argc ≠ ascii "2" → fields.rom = []) :
    readFields (unlines newline fields.lines) = .ok fields := by
  by_cases isTwo : fields.argc = ascii "2"
  · simp only [Fields.lines, if_pos isTwo, List.forall_mem_cons] at unbroken ⊢
    rcases unbroken with ⟨magic, argc, exe, rom, -⟩
    simp only [readFields, unlines_cons, unlines_nil, readField_append magic, ok_bind,
      readField_append argc, readField_append exe, readRom, if_pos isTwo, readField_append rom]
    rw [raiseIf_of_not (by simp)]
    rfl
  · simp only [Fields.lines, if_neg isTwo, List.forall_mem_cons] at unbroken ⊢
    rcases unbroken with ⟨magic, argc, exe, -⟩
    simp only [readFields, unlines_cons, unlines_nil, readField_append magic, ok_bind,
      readField_append argc, readField_append exe, readRom, if_neg isTwo]
    rw [raiseIf_of_not (by simp), ← noRom isTwo]
    rfl

/-- The whole content is the lines of the fields. -/
theorem readFields_eq_ok {content : Text} {fields : Fields} (isOk : readFields content = .ok fields) :
    content = unlines newline fields.lines ∧ (∀ line ∈ fields.lines, newline ∉ line) ∧
      (fields.argc ≠ ascii "2" → fields.rom = []) := by
  simp only [readFields, bind_eq_ok, raiseIf_eq_ok] at isOk
  rcases isOk with ⟨magic, isMagic, argc, isArgc, exe, isExe, rom, isRom, -, untrailed, isFields⟩
  cases isFields
  rcases readField_eq_ok isMagic with ⟨fromMagic, magicLine⟩
  rcases readField_eq_ok isArgc with ⟨fromArgc, argcLine⟩
  rcases readField_eq_ok isExe with ⟨fromExe, exeLine⟩
  have rest := eq_nil_of_not_trailing untrailed
  rw [fromMagic, fromArgc, fromExe]
  by_cases isTwo : argc.text = ascii "2"
  · rw [readRom, if_pos isTwo] at isRom
    rcases readField_eq_ok isRom with ⟨fromRom, romLine⟩
    rw [rest] at fromRom
    rw [fromRom]
    simp [Fields.lines, isTwo, magicLine, exeLine, romLine, isTwo ▸ argcLine]
  · rw [readRom, if_neg isTwo] at isRom
    cases isRom
    have none : exe.rest = [] := rest
    simp [Fields.lines, isTwo, none, magicLine, argcLine, exeLine]

/-! ## The checks -/

theorem isControl_eq_false {byte : UInt8} : isControl byte = false ↔
    byte = newline ∨ byte = 0x09 ∨ (0x20 ≤ byte ∧ byte ≠ 0x7f) := by
  simp only [isControl, newline, Bool.or_eq_false_iff, Bool.and_eq_false_iff, decide_eq_false_iff_not,
    beq_eq_false_iff_ne, ne_eq, UInt8.le_iff_toNat_le, ← UInt8.toNat_inj, UInt8.reduceToNat]
  omega

theorem fieldTextOk_iff {text : Text} (unbroken : newline ∉ text) : fieldTextOk text = true ↔
    ∀ byte ∈ text, byte = 0x09 ∨ (0x20 ≤ byte ∧ byte ≠ 0x7f) := by
  rw [fieldTextOk, List.all_eq_true]
  apply forall₂_congr
  intro byte member
  have differs : byte ≠ newline := fun same => unbroken (same ▸ member)
  simp [isControl_eq_false, differs]

theorem isLaunchScript_iff {exe : Text} : isLaunchScript exe = true ↔
    ∃ middle, exe = ascii "/" ++ middle ++ ascii "/launch.sh" := by
  cases exe with
  | nil => simp [isLaunchScript, ascii]
  | cons byte rest =>
      have slash : ascii "/" = [0x2f] := rfl
      rw [isLaunchScript, Bool.and_eq_true, beq_iff_eq, List.isSuffixOf_iff_suffix, slash]
      constructor
      · rintro ⟨rfl, middle, rfl⟩
        exact ⟨middle, rfl⟩
      · rintro ⟨middle, isExe⟩
        cases isExe
        exact ⟨rfl, middle, rfl⟩

theorem IsField.unbroken {text : Text} (isField : IsField text) : newline ∉ text := by
  intro member
  exact absurd (isField.plain newline member) (by decide)

theorem checkRom_eq_ok {fields : Fields} {result : Unit} (unbroken : newline ∉ fields.rom) :
    checkRom fields = .ok result ↔ (fields.argc = ascii "2" → IsRom fields.rom) := by
  by_cases isTwo : fields.argc = ascii "2"
  · rw [checkRom, if_pos isTwo]
    simp only [bind_eq_ok, raiseIf_eq_ok, isTwo, forall_const, not_or, Bool.not_eq_false,
      fieldTextOk_iff unbroken]
    constructor
    · rintro ⟨-, ⟨nonempty, short⟩, plain⟩
      exact ⟨⟨by omega, plain⟩, nonempty⟩
    · intro isRom
      exact ⟨(), ⟨isRom.nonempty, by have short := isRom.short; omega⟩, isRom.plain⟩
  · simp [checkRom, isTwo]

/-- The checks pass for the fields of a record, and for nothing else. -/
theorem checkFields_eq_ok {fields : Fields} {launch : Launch} (exe : newline ∉ fields.exe)
    (rom : newline ∉ fields.rom) : checkFields fields = .ok launch ↔
      fields.magic = ascii "ZLYME1" ∧ (fields.argc = ascii "1" ∨ fields.argc = ascii "2") ∧
        IsExe fields.exe ∧ (fields.argc = ascii "2" → IsRom fields.rom) ∧
        launch = ⟨fields.exe, if fields.argc = ascii "2" then fields.rom else []⟩ := by
  simp only [checkFields, bind_eq_ok, raiseIf_eq_ok, checkRom_eq_ok rom, Bool.not_eq_false,
    fieldTextOk_iff exe, isLaunchScript_iff]
  constructor
  · rintro ⟨-, magic, -, argc, -, plain, -, short, -, matched, -, isRom, isLaunch⟩
    cases isLaunch
    have counted : fields.argc = ascii "1" ∨ fields.argc = ascii "2" := by
      simpa [Decidable.or_iff_not_imp_left] using argc
    exact ⟨Decidable.of_not_not magic, counted, ⟨⟨by omega, plain⟩, matched⟩, isRom, rfl⟩
  · rintro ⟨magic, argc, isExe, isRom, rfl⟩
    have short := isExe.short
    have counted : ¬(fields.argc ≠ ascii "1" ∧ fields.argc ≠ ascii "2") := by
      simpa [Decidable.or_iff_not_imp_left] using argc
    exact ⟨(), by simp [magic], (), counted, (), isExe.plain, (), by omega, (), isExe.matched, (),
      isRom, rfl⟩

/-! ## The law -/

theorem record_length_le {exe : Text} {rom : Option Text} (isExe : IsExe exe)
    (isRom : ∀ path ∈ rom, IsRom path) : (record exe rom).length ≤ 9000 := by
  have exeShort := isExe.short
  cases rom with
  | none =>
      simp [record, ascii]
      omega
  | some path =>
      have romShort := (isRom path rfl).short
      simp [record, ascii]
      omega

theorem IsField.noNul {text : Text} (isField : IsField text) : 0 ∉ text := by
  intro member
  exact absurd (isField.plain 0 member) (by decide)

theorem record_noNul {exe : Text} {rom : Option Text} (isExe : IsExe exe)
    (isRom : ∀ path ∈ rom, IsRom path) : 0 ∉ record exe rom := by
  have words : 0 ∉ ascii "ZLYME1" ∧ 0 ∉ ascii "1" ∧ 0 ∉ ascii "2" := by decide
  cases rom with
  | none => simp [record, isExe.noNul, words, newline]
  | some path => simp [record, isExe.noNul, (isRom path rfl).noNul, words, newline]

/-- The reader gets as far as the fields of a file of this size without NULs. -/
theorem readLaunch_of_plain {content : Text} (nonempty : content ≠ []) (short : content.length ≤ 9000)
    (noNul : 0 ∉ content) : readLaunch (some content) =
      readFields content >>= fun fields => checkFields fields := by
  have kept : content.filter (· != 0) = content := by
    rw [List.filter_eq_self]
    intro byte member
    have differs : byte ≠ 0 := fun same => noNul (same ▸ member)
    simp [differs]
  rw [readLaunch, orRaise_some, ok_bind, raiseIf_of_not (by simpa using nonempty), ok_bind,
    raiseIf_of_not (by omega), ok_bind, kept, raiseIf_of_not (by simp), ok_bind]

/-- A record is read as the launch that it is the record of. -/
theorem readLaunch_record {exe : Text} {rom : Option Text} (isExe : IsExe exe)
    (isRom : ∀ path ∈ rom, IsRom path) :
    readLaunch (some (record exe rom)) = .ok ⟨exe, rom.getD []⟩ := by
  have nonempty : record exe rom ≠ [] := by
    cases rom <;> simp [record, ascii]
  rw [readLaunch_of_plain nonempty (record_length_le isExe isRom) (record_noNul isExe isRom)]
  have magicLine : newline ∉ ascii "ZLYME1" := by decide
  cases rom with
  | none =>
      have isRecord : record exe none =
          unlines newline (Fields.mk (ascii "ZLYME1") (ascii "1") exe []).lines := rfl
      have unbroken : ∀ line ∈ (Fields.mk (ascii "ZLYME1") (ascii "1") exe []).lines,
          newline ∉ line := by
        have argcLine : newline ∉ ascii "1" := by decide
        simp [Fields.lines, show ascii "1" ≠ ascii "2" by decide, magicLine, argcLine, isExe.unbroken]
      rw [isRecord, readFields_unlines unbroken (fun _ => rfl), ok_bind]
      rw [checkFields_eq_ok isExe.unbroken (by simp)]
      have notTwo : ascii "1" ≠ ascii "2" := by decide
      exact ⟨rfl, .inl rfl, isExe, fun same => absurd same notTwo, rfl⟩
  | some path =>
      have isPath := isRom path rfl
      have isRecord : record exe (some path) =
          unlines newline (Fields.mk (ascii "ZLYME1") (ascii "2") exe path).lines := rfl
      have unbroken : ∀ line ∈ (Fields.mk (ascii "ZLYME1") (ascii "2") exe path).lines,
          newline ∉ line := by
        have argcLine : newline ∉ ascii "2" := by decide
        simp [Fields.lines, magicLine, argcLine, isExe.unbroken, isPath.unbroken]
      rw [isRecord, readFields_unlines unbroken (fun differs => absurd rfl differs), ok_bind]
      rw [checkFields_eq_ok isExe.unbroken isPath.unbroken]
      exact ⟨rfl, .inr rfl, isExe, fun _ => isPath, rfl⟩

/-- What is accepted is a record. -/
theorem record_of_readLaunch {content : Text} {launch : Launch}
    (isOk : readLaunch (some content) = .ok launch) :
    ∃ exe rom, IsExe exe ∧ (∀ path ∈ rom, IsRom path) ∧ content = record exe rom := by
  simp only [readLaunch, bind_eq_ok, raiseIf_eq_ok, orRaise_eq_ok, Option.some.injEq] at isOk
  rcases isOk with ⟨_, rfl, -, -, -, -, -, -, fields, isFields, checked⟩
  rcases readFields_eq_ok isFields with ⟨isContent, unbroken, noRom⟩
  have exeLine : newline ∉ fields.exe := by
    apply unbroken
    unfold Fields.lines
    split <;> simp
  have romLine : newline ∉ fields.rom := by
    by_cases isTwo : fields.argc = ascii "2"
    · apply unbroken
      simp [Fields.lines, isTwo]
    · simp [noRom isTwo]
  rcases (checkFields_eq_ok exeLine romLine).mp checked with ⟨magic, counted, isExe, isRom, -⟩
  rcases counted with isOne | isTwo
  · refine ⟨fields.exe, none, isExe, by simp, ?_⟩
    have notTwo : ascii "1" ≠ ascii "2" := by decide
    simp [isContent, Fields.lines, record, magic, isOne, notTwo]
  · refine ⟨fields.exe, some fields.rom, isExe, ?_, ?_⟩
    · intro path isPath
      cases isPath
      exact isRom isTwo
    · simp [isContent, Fields.lines, record, magic, isTwo]

/-- A record is read back as it was written, and nothing else is accepted. -/
theorem readLaunch_exact :
    (∀ exe, IsExe exe → readLaunch (some (record exe none)) = .ok ⟨exe, []⟩ ∧
      ∀ rom, IsRom rom → readLaunch (some (record exe (some rom))) = .ok ⟨exe, rom⟩) ∧
    ∀ content launch, readLaunch (some content) = .ok launch →
      content.length ≤ 9000 ∧
        ∃ exe rom, IsExe exe ∧ (∀ path ∈ rom, IsRom path) ∧ content = record exe rom := by
  constructor
  · intro exe isExe
    constructor
    · exact @readLaunch_record exe none isExe (by simp)
    · intro rom isRom
      exact @readLaunch_record exe (some rom) isExe (by simpa using isRom)
  · intro content launch isOk
    rcases record_of_readLaunch isOk with ⟨exe, rom, isExe, isRom, isContent⟩
    refine ⟨?_, exe, rom, isExe, isRom, isContent⟩
    rw [isContent]
    exact record_length_le isExe isRom

end Zlyme.Pak.LaunchRecord
