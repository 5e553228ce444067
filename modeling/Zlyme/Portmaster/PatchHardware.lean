import Mathlib.Data.List.DropRight
import Zlyme.Foundation.Replace
import Zlyme.Release.Python

/-! # The PortMaster hardware patch

`patch-hardware.py` adds the Miyoo Flip to `hardware.py` of PortMaster and `PlatformZlyme` to its
`platform.py`. It proves both texts in memory and writes neither where one of them fails.
-/

namespace Zlyme.Portmaster.PatchHardware

open Foundation.Replace
open Release (isSpace)

/-- The code points of a source file. -/
abbrev Source : Type :=
  List Char

/-! ## The hardware source -/

/-- `PATTERN` -/
def pattern : Source :=
  "    ('miyoo flip*', 'miyoo-flip'),".toList

/-- `DEVICES` -/
def devices : Source :=
  "    \"Miyoo Flip\": ".toList ++ "\x7b\"device\": \"miyoo-flip\", ".toList ++
    "\"manufacturer\": \"Miyoo\", ".toList ++ "\"cfw\": [\"Zlyme\", \"ROCKNIX\"]\x7d,".toList

def oldPattern : Source :=
  "('miyoo flip*', 'rg353m')".toList

def newPattern : Source :=
  "('miyoo flip*', 'miyoo-flip')".toList

def oldDevice : Source :=
  "\"Miyoo Flip\": \x7b\"device\": \"rg353m\"".toList

def newDevice : Source :=
  "\"Miyoo Flip\": \x7b\"device\": \"miyoo-flip\"".toList

def oldCfw : Source :=
  "\"Miyoo Flip\": ".toList ++ "\x7b\"device\": \"miyoo-flip\", ".toList ++
    "\"manufacturer\": \"Miyoo\", ".toList ++ "\"cfw\": [\"ROCKNIX\"]\x7d".toList

def newCfw : Source :=
  "\"Miyoo Flip\": ".toList ++ "\x7b\"device\": \"miyoo-flip\", ".toList ++
    "\"manufacturer\": \"Miyoo\", ".toList ++ "\"cfw\": [\"Zlyme\", \"ROCKNIX\"]\x7d".toList

def corrected (text : Source) : Source :=
  replaceAll oldCfw newCfw (replaceAll oldDevice newDevice (replaceAll oldPattern newPattern text))

def needle : Source :=
  "('miyoo rk3566 355 v10*', 'miyoo-flip'),".toList

def patternKey : Source :=
  "('miyoo flip*',".toList

def withPattern (text : Source) : Except String Source :=
  if patternKey <:+: text then
    .ok text
  else if needle <:+: text then
    .ok (replaceFirst needle (needle ++ '\n' :: pattern) text)
  else
    .error "missing miyoo pattern"

def deviceKey : Source :=
  "\"Miyoo Flip\"".toList

def deviceNeedle : Source :=
  "\"Anbernic RG353 M/V/P\"".toList

/-- `text.rfind("\n", 0, idx) + 1` -/
def lineStart (text : Source) (index : Nat) : Nat :=
  ((text.take index).rdropWhile (· != '\n')).length

def withDevices (text : Source) : Except String Source :=
  if deviceKey <:+: text then
    .ok text
  else
    match find deviceNeedle text with
    | none => .error "missing DEVICES rg353m"
    | some index =>
        let start := lineStart text index
        .ok (text.take start ++ (devices ++ '\n' :: text.drop start))

def flipReady (text : Source) : Bool :=
  decide (newPattern <:+: text) && decide (deviceKey <:+: text) &&
    decide ("\"device\": \"miyoo-flip\"".toList <:+: text) && decide ("\"Zlyme\"".toList <:+: text)

def patchedHardware (text : Source) : Except String Source := do
  let text ← withPattern (corrected text)
  let text ← withDevices text
  if flipReady text then
    return text
  else
    throw "Miyoo Flip identity was not proven"

/-! ## What the hardware patch does -/

theorem withPattern_ok {text new : Source} (done : withPattern text = .ok new) :
    new = text ∨ ∃ before after, text = before ++ (needle ++ after) ∧
      new = before ++ (needle ++ ('\n' :: pattern ++ after)) := by
  rw [withPattern] at done
  split at done
  · cases done
    exact .inl rfl
  · split at done
    · rename_i occurs
      obtain ⟨before, after, split, replaced⟩ :=
        replaceFirst_split (needle ++ '\n' :: pattern) occurs
      cases done
      rw [List.append_assoc] at replaced
      exact .inr ⟨before, after, split, replaced⟩
    · cases done

theorem withDevices_ok {text new : Source} (done : withDevices text = .ok new) :
    new = text ∨ ¬ deviceKey <:+: text ∧ ∃ before after, text = before ++ after ∧
      new = before ++ (devices ++ ['\n'] ++ after) := by
  rw [withDevices] at done
  split at done
  · cases done
    exact .inl rfl
  · rename_i absent
    split at done
    · cases done
    · rename_i index found
      cases done
      refine .inr ⟨absent, text.take (lineStart text index), text.drop (lineStart text index),
        (List.take_append_drop _ text).symm, ?_⟩
      simp

theorem flipReady_spec {text : Source} (ready : flipReady text = true) :
    newPattern <:+: text ∧ deviceKey <:+: text := by
  simp only [flipReady, Bool.and_eq_true, decide_eq_true_eq] at ready
  exact ready.1.1

theorem patchedHardware_ok {text new : Source} (done : patchedHardware text = .ok new) :
    ∃ middle, withPattern (corrected text) = .ok middle ∧ withDevices middle = .ok new ∧
      flipReady new = true := by
  rw [patchedHardware] at done
  cases first : withPattern (corrected text) with
  | error message => rw [first] at done; cases done
  | ok middle =>
      cases second : withDevices middle with
      | error message => rw [first] at done; simp only [bind, Except.bind, second] at done; cases done
      | ok last =>
          rw [first] at done
          simp only [bind, Except.bind, second] at done
          split at done
          · rename_i ready
            cases done
            exact ⟨middle, rfl, second, ready⟩
          · cases done

/-! ### What is left of the old fragments -/

theorem oldPattern_clear : Clear oldPattern newPattern ∧ Clear oldPattern newDevice ∧
    Clear oldPattern newCfw ∧ Clear oldPattern ('\n' :: pattern) ∧
      Clear oldPattern (devices ++ ['\n']) := by
  decide

theorem oldCfw_clear : Clear oldCfw newCfw ∧ Clear oldCfw ('\n' :: pattern) ∧
    Clear oldCfw (devices ++ ['\n']) := by
  decide

theorem oldDevice_clear : Clear oldDevice needle ∧ Clear oldDevice ('\n' :: pattern) ∧
    Clear oldDevice (devices ++ ['\n']) := by
  decide

/-- The replacements have something to search for and make the text longer. -/
theorem old_shorter : 0 < oldPattern.length ∧ oldPattern.length < newPattern.length ∧
    0 < oldDevice.length ∧ oldDevice.length < newDevice.length ∧
      0 < oldCfw.length ∧ oldCfw.length < newCfw.length := by
  decide

theorem oldPattern_ne_nil : oldPattern ≠ [] :=
  List.length_pos_iff.mp old_shorter.1

theorem oldDevice_ne_nil : oldDevice ≠ [] :=
  List.length_pos_iff.mp old_shorter.2.2.1

theorem oldCfw_ne_nil : oldCfw ≠ [] :=
  List.length_pos_iff.mp old_shorter.2.2.2.2.1

section Hardware

variable {text new : Source}

/-- The insertions bring no piece that is clear of them. -/
theorem infix_of_inserted {piece middle last : Source} (nearNeedle : Clear piece ('\n' :: pattern))
    (nearDevices : Clear piece (devices ++ ['\n'])) (first : withPattern text = .ok middle)
    (second : withDevices middle = .ok last) (occurs : piece <:+: last) : piece <:+: text := by
  have inMiddle : piece <:+: middle := by
    rcases withDevices_ok second with rfl | ⟨-, before, after, rfl, rfl⟩
    · exact occurs
    · rcases infix_of_clear nearDevices occurs with early | late
      · exact early.trans (List.prefix_append before after).isInfix
      · exact late.trans (List.suffix_append before after).isInfix
  rcases withPattern_ok first with rfl | ⟨before, after, rfl, rfl⟩
  · exact inMiddle
  · rw [← List.append_assoc] at inMiddle ⊢
    rcases infix_of_clear nearNeedle inMiddle with early | late
    · exact early.trans (List.prefix_append _ after).isInfix
    · exact late.trans (List.suffix_append _ after).isInfix

theorem absent_oldPattern (done : patchedHardware text = .ok new) : ¬ oldPattern <:+: new := by
  obtain ⟨middle, first, second, -⟩ := patchedHardware_ok done
  intro occurs
  obtain ⟨fromPattern, fromDevice, fromCfw, fromLine, fromEntry⟩ := oldPattern_clear
  have inCorrected := infix_of_inserted fromLine fromEntry first second occurs
  have inSecond := infix_of_replaceAll_clear oldCfw_ne_nil fromCfw inCorrected
  have inFirst := infix_of_replaceAll_clear oldDevice_ne_nil fromDevice inSecond
  exact absent_replaceAll oldPattern_ne_nil fromPattern text inFirst

theorem absent_oldCfw (done : patchedHardware text = .ok new) : ¬ oldCfw <:+: new := by
  obtain ⟨middle, first, second, -⟩ := patchedHardware_ok done
  intro occurs
  obtain ⟨fromCfw, fromLine, fromEntry⟩ := oldCfw_clear
  have inCorrected := infix_of_inserted fromLine fromEntry first second occurs
  exact absent_replaceAll oldCfw_ne_nil fromCfw _ inCorrected

/-- The text of `oldDevice` without its first and last quotes. -/
def deviceInner : Source :=
  "Miyoo Flip\": \x7b\"device\": \"rg353m".toList

/-- The old device twice, with one quote for the end of the first and the start of the second. -/
def doubleDevice : Source :=
  doubled '"' deviceInner

def deviceHead : Source :=
  "\"Miyoo Flip\": \x7b\"device\": \"".toList

theorem device_hinged : oldDevice = hinged '"' deviceInner ∧
    newDevice = deviceHead ++ ("miyoo-flip".toList ++ ['"']) := by
  decide

theorem device_apart : ApartBut '"' (deviceInner ++ ['"']) (hinged '"' deviceInner) ∧
    ApartBut '"' (deviceInner ++ ['"']) (doubled '"' deviceInner) ∧
      ApartBut '"' newDevice (hinged '"' deviceInner) ∧
        Apart (hinged '"' deviceInner) "miyoo-flip".toList := by
  decide

theorem device_ends : deviceHead <+: hinged '"' deviceInner ∧ ['"'] <+: newDevice ∧
    ['"'] <:+ newDevice := by
  decide

theorem rejoins_device : Rejoins '"' deviceInner deviceHead "miyoo-flip".toList ['"'] := by
  obtain ⟨-, split⟩ := device_hinged
  obtain ⟨oldApart, doubledApart, newApart, coreApart⟩ := device_apart
  obtain ⟨heads, begins, ends⟩ := device_ends
  rw [split] at newApart begins ends
  exact ⟨oldApart, doubledApart, newApart, coreApart, heads, begins, ends⟩

theorem oldDevice_replaceAll (text : Source) :
    oldDevice <:+: replaceAll oldDevice newDevice text ↔ doubleDevice <:+: text := by
  obtain ⟨old, new⟩ := device_hinged
  rw [old, new]
  exact rejoins_device.infix_replaceAll_iff text

/-- The cfw list before its first entry, which the patch only adds to. -/
def cfwHead : Source :=
  "\"Miyoo Flip\": ".toList ++ "\x7b\"device\": \"miyoo-flip\", ".toList ++
    "\"manufacturer\": \"Miyoo\", ".toList ++ "\"cfw\": ".toList

def cfwTail : Source :=
  "\"ROCKNIX\"]\x7d".toList

theorem cfw_split : oldCfw = cfwHead ++ ("[".toList ++ cfwTail) ∧
    newCfw = cfwHead ++ ("[\"Zlyme\", ".toList ++ cfwTail) := by
  decide

theorem oldDevice_clear_cfw : Clear oldDevice "[".toList ∧
    Clear oldDevice "[\"Zlyme\", ".toList := by
  decide

theorem cfw_ends : cfwHead <+: oldCfw ∧ cfwTail <:+ oldCfw ∧ cfwHead <+: newCfw ∧
    cfwTail <:+ newCfw := by
  decide

theorem oldDevice_cfw (text : Source) :
    oldDevice <:+: replaceAll oldCfw newCfw text ↔ oldDevice <:+: text := by
  obtain ⟨old, new⟩ := cfw_split
  obtain ⟨oldHead, oldTail, newHead, newTail⟩ := cfw_ends
  constructor
  · intro occurs
    rw [new] at occurs
    exact @infix_of_replaceAll Char _ oldCfw oldDevice cfwHead _ cfwTail [] oldCfw_ne_nil
      oldDevice_clear_cfw.2 oldHead oldTail text occurs
  · intro occurs
    rw [old]
    exact @infix_replaceAll Char _ newCfw oldDevice cfwHead _ cfwTail [] (old ▸ oldCfw_ne_nil)
      oldDevice_clear_cfw.1 newHead newTail text occurs

theorem doubleDevice_clear : Clear doubleDevice newPattern ∧ Clear doubleDevice oldPattern := by
  decide

theorem doubleDevice_pattern (text : Source) :
    doubleDevice <:+: replaceAll oldPattern newPattern text ↔ doubleDevice <:+: text := by
  constructor
  · exact infix_of_replaceAll_clear oldPattern_ne_nil doubleDevice_clear.1
  · exact infix_replaceAll_clear oldPattern_ne_nil doubleDevice_clear.2

/-- The keys that the patch searches for are parts of what it puts in or corrects. -/
theorem keys_named : patternKey <:+: newPattern ∧ deviceKey <:+: oldDevice := by
  decide

/-- The patched text has the old device exactly where the source had it doubled. -/
theorem oldDevice_left (done : patchedHardware text = .ok new) :
    oldDevice <:+: new ↔ doubleDevice <:+: text := by
  obtain ⟨middle, first, second, -⟩ := patchedHardware_ok done
  have inCorrected : oldDevice <:+: corrected text ↔ doubleDevice <:+: text := by
    rw [corrected, oldDevice_cfw, oldDevice_replaceAll, doubleDevice_pattern]
  obtain ⟨fromNeedle, fromLine, fromEntry⟩ := oldDevice_clear
  rw [← inCorrected]
  constructor
  · exact infix_of_inserted fromLine fromEntry first second
  · intro occurs
    have inMiddle : oldDevice <:+: middle := by
      rcases withPattern_ok first with rfl | ⟨before, after, split, rfl⟩
      · exact occurs
      · rw [split] at occurs
        rcases infix_of_clear fromNeedle occurs with early | late
        · exact early.trans (List.prefix_append _ _).isInfix
        · exact late.trans ⟨before ++ (needle ++ '\n' :: pattern), [], by simp⟩
    rcases withDevices_ok second with rfl | ⟨absent, -⟩
    · exact inMiddle
    · -- A line is only added where no device of the name is.
      exact absurd (keys_named.2.trans inMiddle) absent

/-! ### The second run -/

theorem withPattern_of_ready (ready : flipReady text = true) : withPattern text = .ok text := by
  rw [withPattern, if_pos (keys_named.1.trans (flipReady_spec ready).1)]

theorem withDevices_of_ready (ready : flipReady text = true) : withDevices text = .ok text := by
  rw [withDevices, if_pos (flipReady_spec ready).2]

theorem length_le_patched (done : patchedHardware text = .ok new) :
    (corrected text).length ≤ new.length := by
  obtain ⟨middle, first, second, -⟩ := patchedHardware_ok done
  have inserted : (corrected text).length ≤ middle.length := by
    rcases withPattern_ok first with rfl | ⟨before, after, split, rfl⟩
    · exact le_refl _
    · rw [split]
      simp only [List.length_append, List.length_cons]
      omega
  have added : middle.length ≤ new.length := by
    rcases withDevices_ok second with rfl | ⟨-, before, after, rfl, rfl⟩
    · exact le_refl _
    · simp only [List.length_append]
      omega
  omega

theorem length_lt_corrected (occurs : oldDevice <:+: replaceAll oldPattern newPattern text) :
    text.length < (corrected text).length := by
  obtain ⟨-, longerPattern, -, longerDevice, -, longerCfw⟩ := old_shorter
  have first := length_le_replaceAll oldPattern_ne_nil longerPattern.le text
  have second := length_lt_replaceAll oldDevice_ne_nil longerDevice occurs
  have third := length_le_replaceAll oldCfw_ne_nil longerCfw.le
    (replaceAll oldDevice newDevice (replaceAll oldPattern newPattern text))
  exact first.trans_lt (second.trans_le third)

/-- The patched text is accepted and kept exactly where the source had no doubled device. -/
theorem patchedHardware_again (done : patchedHardware text = .ok new) :
    patchedHardware new = .ok new ↔ ¬ doubleDevice <:+: text := by
  rw [← oldDevice_left done]
  have noPattern : replaceAll oldPattern newPattern new = new :=
    replaceAll_of_absent oldPattern_ne_nil (absent_oldPattern done)
  obtain ⟨middle, -, -, ready⟩ := patchedHardware_ok done
  constructor
  · intro again occurs
    have longer := length_lt_corrected (noPattern.symm ▸ occurs)
    exact absurd (length_le_patched again) (by omega)
  · intro absent
    have unchanged : corrected new = new := by
      rw [corrected, noPattern, replaceAll_of_absent oldDevice_ne_nil absent,
        replaceAll_of_absent oldCfw_ne_nil (absent_oldCfw done)]
    rw [patchedHardware, unchanged, withPattern_of_ready ready]
    simp only [bind, Except.bind, withDevices_of_ready ready, ready, if_true]
    rfl

/-! ### The way back -/

def hardwareFragments : List (Source × Source) :=
  [(oldPattern, newPattern), (oldDevice, newDevice), (oldCfw, newCfw), ([], '\n' :: pattern),
    ([], devices ++ ['\n'])]

theorem undoes_corrected (text : Source) : Undoes hardwareFragments (corrected text) text := by
  have first : Undoes hardwareFragments (replaceAll oldPattern newPattern text) text :=
    undoes_replaceAll oldPattern_ne_nil (by simp [hardwareFragments]) [] text
  have second : Undoes hardwareFragments (replaceAll oldDevice newDevice _) _ :=
    undoes_replaceAll oldDevice_ne_nil (by simp [hardwareFragments]) []
      (replaceAll oldPattern newPattern text)
  have third : Undoes hardwareFragments (replaceAll oldCfw newCfw _) _ :=
    undoes_replaceAll oldCfw_ne_nil (by simp [hardwareFragments]) []
      (replaceAll oldDevice newDevice (replaceAll oldPattern newPattern text))
  exact third.trans (second.trans first)

theorem undoes_hardware (done : patchedHardware text = .ok new) :
    Undoes hardwareFragments new text := by
  obtain ⟨middle, first, second, -⟩ := patchedHardware_ok done
  have noDevice : Undoes hardwareFragments new middle := by
    rcases withDevices_ok second with rfl | ⟨-, before, after, rfl, rfl⟩
    · exact .refl
    · exact .single (.inserted before after (by simp [hardwareFragments]))
  have noPattern : Undoes hardwareFragments middle (corrected text) := by
    rcases withPattern_ok first with rfl | ⟨before, after, split, rfl⟩
    · exact .refl
    · rw [split, ← List.append_assoc, ← List.append_assoc before]
      exact .single (.inserted (before ++ needle) after (by simp [hardwareFragments]))
  exact noDevice.trans (noPattern.trans (undoes_corrected text))

end Hardware

/-! ## The platform source -/

/-- `\w`: outside of ASCII the database of Unicode decides. -/
structure Words where
  isWord : Char → Bool
  ascii : ∀ char, char.toNat < 128 → isWord char = (char.isAlphanum || char == '_')

def rocknixAnchor : Source :=
  "'rocknix':   PlatformROCKNIX,".toList

def zlymeLine : Source :=
  "    'zlyme':     PlatformZlyme,".toList

def classMark : Source :=
  "class PlatformZlyme(PlatformBase):".toList

def classBlock : Source :=
  "class PlatformZlyme(PlatformBase):\n".toList ++
    "    \"\"\"Zlyme uses NextUI and BusyBox. ".toList ++
    "It does not copy JELOS PortMaster files.\"\"\"\n".toList

def platformsMark : Source :=
  "HM_PLATFORMS = \x7b".toList

/-- `re.search` of a pattern that is given by its matches at the start of a text. -/
def search (isMatch : Source → Bool) (text : Source) : Bool :=
  text.tails.any isMatch

/-- `class PlatformZlyme\s*\(` -/
def isBadClass (text : Source) : Bool :=
  let name := "class PlatformZlyme".toList
  decide (name <+: text) && ((text.drop name.length).dropWhile isSpace).head? == some '('

/-- What follows `'zlyme'\s*:\s*`. -/
def afterKey (text : Source) : Option Source :=
  let key := "'zlyme'".toList
  if key <+: text then
    match (text.drop key.length).dropWhile isSpace with
    | ':' :: rest => some (rest.dropWhile isSpace)
    | _ => none
  else
    none

def zlymeClass : Source :=
  "PlatformZlyme".toList

def rocknixClass : Source :=
  "PlatformROCKNIX".toList

section Words

variable (words : Words)

/-- `\b` after a character of a word. -/
def isBoundary (rest : Source) : Bool :=
  !(rest.head?.any words.isWord)

/-- `'zlyme'\s*:\s*name\b` -/
def mapsTo (name text : Source) : Bool :=
  (afterKey text).any fun rest =>
    decide (name <+: rest) && isBoundary words (rest.drop name.length)

/-- `ZLYME_MAP.search(text)` -/
def zlymeMap (text : Source) : Bool :=
  search (mapsTo words zlymeClass) text

/-- `OLD_MAP.search(text)` -/
def oldMap (text : Source) : Bool :=
  search (mapsTo words rocknixClass) text

/-- `OLD_MAP.sub(r"\1PlatformZlyme", text, count=1)` -/
def substituteOld : (text : Source) → Source
  | [] => []
  | item :: rest =>
      match afterKey (item :: rest) with
      | some name =>
          if mapsTo words rocknixClass (item :: rest) then
            (item :: rest).take ((item :: rest).length - name.length) ++
              (zlymeClass ++ name.drop rocknixClass.length)
          else
            item :: substituteOld rest
      | none => item :: substituteOld rest

def withClass (text : Source) : Except String Source :=
  if classMark <:+: text then
    .ok text
  else if search isBadClass text then
    .error "PlatformZlyme does not subclass PlatformBase"
  else if platformsMark <:+: text then
    .ok (replaceFirst platformsMark (classBlock ++ '\n' :: platformsMark) text)
  else if "class PlatformBase".toList <:+: text ∨ "class PlatformROCKNIX".toList <:+: text then
    .error "platform class layout changed"
  else
    .ok (classBlock ++ text)

def withMapping (text : Source) : Except String Source :=
  if zlymeMap words text then
    if oldMap words text then .error "zlyme is mapped twice" else .ok text
  else if oldMap words text then
    .ok (substituteOld words text)
  else if rocknixAnchor <:+: text then
    .ok (replaceFirst rocknixAnchor (rocknixAnchor ++ '\n' :: zlymeLine) text)
  else
    .error "missing zlyme platform anchor"

def patchedPlatform (text : Source) : Except String Source := do
  let text ← withClass text
  let text ← withMapping words text
  if ¬ classMark <:+: text ∨ ¬ zlymeMap words text ∨ oldMap words text then
    throw "zlyme platform mapping was not proven"
  else
    return text

/-! ## The run -/

inductive File
  | hardware
  | platform
  deriving DecidableEq, Repr

/-- `hardware.py`, and `platform.py` beside it where there is one. -/
structure Files where
  hardware : Source
  platform : Option Source
  deriving DecidableEq

/-- The exit status, the message and the files written. -/
structure Run where
  status : Nat
  message : Option String
  written : List (File × Source)
  deriving DecidableEq

def Files.write (files : Files) : (written : List (File × Source)) → Files
  | [] => files
  | (.hardware, text) :: later => { files with hardware := text }.write later
  | (.platform, text) :: later => { files with platform := some text }.write later

def fail (message : String) : Run :=
  { status := 1, message := some ("patch-hardware: " ++ message), written := [] }

def writeIfChanged (file : File) (old new : Source) : List (File × Source) :=
  if old ≠ new then [(file, new)] else []

def main (arguments : List String) (files : Files) : Run :=
  if arguments.length ≠ 1 then
    { status := 2, message := some "usage: patch-hardware.py hardware.py", written := [] }
  else
    match patchedHardware files.hardware with
    | .error message => fail message
    | .ok newHardware =>
        match files.platform with
        | none => fail "platform.py is missing"
        | some oldPlatform =>
            match patchedPlatform words oldPlatform with
            | .error message => fail message
            | .ok newPlatform =>
                { status := 0
                  message := none
                  written := writeIfChanged .hardware files.hardware newHardware ++
                    writeIfChanged .platform oldPlatform newPlatform }

end Words

end Zlyme.Portmaster.PatchHardware
