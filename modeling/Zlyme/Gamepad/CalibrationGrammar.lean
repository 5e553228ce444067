import Zlyme.Gamepad.AppliedCentre
import Zlyme.Gamepad.CalibrationRoundTrip

/-! # The language of a calibration attribute

The lines that `mf_parse_cal` accepts, written as a grammar, and what a write of one does to
its stick.
-/

namespace Zlyme.Gamepad

open Foundation Foundation.Decimal

/-! ## Lines -/

/-- The text ends, or goes on with something else than a digit. -/
def Stops (text : List UInt8) : Prop :=
  ∀ byte ∈ text.head?, Decimal.isDigit byte = false

/-- One number of a line with the blanks before it. -/
structure CalToken where
  blanks : List UInt8
  digits : List UInt8
  separated : blanks ≠ []
  areBlanks : ∀ byte ∈ blanks, isBlank byte = true
  written : digits ≠ []
  areDigits : ∀ byte ∈ digits, Decimal.isDigit byte = true
  short : digits.length ≤ 3
  small : value digits ≤ 255

namespace CalToken

def text (token : CalToken) : List UInt8 :=
  token.blanks ++ token.digits

def number (token : CalToken) : Int :=
  value token.digits

end CalToken

/-- The three numbers of one axis. -/
structure CalTriple where
  min : CalToken
  zero : CalToken
  max : CalToken

namespace CalTriple

def text (triple : CalTriple) : List UInt8 :=
  triple.min.text ++ (triple.zero.text ++ triple.max.text)

def range (triple : CalTriple) : MfRange where
  min := triple.min.number
  zero := triple.zero.number
  max := triple.max.number

end CalTriple

def commandWord (apply : Bool) : List UInt8 :=
  if apply then ascii "apply" else ascii "restore"

structure CalLine where
  lead : List UInt8
  apply : Bool
  x : CalTriple
  y : CalTriple
  trail : List UInt8
  leadSpaces : ∀ byte ∈ lead, isSpace byte = true
  trailSpaces : ∀ byte ∈ trail, isSpace byte = true

namespace CalLine

def text (line : CalLine) : List UInt8 :=
  line.lead ++ (commandWord line.apply ++ (line.x.text ++ (line.y.text ++ line.trail)))

def cal (line : CalLine) : MfCal where
  apply := line.apply
  x := line.x.range
  y := line.y.range

end CalLine

/-! ## Numbers -/

theorem stops_of_isSpace {text : List UInt8} (spaces : ∀ byte ∈ text, isSpace byte = true) :
    Stops text := by
  cases text with
  | nil => exact nofun
  | cons first rest =>
      rintro byte ⟨⟩
      by_contra digit
      have space := spaces first List.mem_cons_self
      rw [not_isSpace_of_isDigit (Bool.not_eq_false _ ▸ digit)] at space
      cases space

theorem isSpace_of_isBlank {byte : UInt8} (blank : isBlank byte = true) : isSpace byte = true := by
  rw [isSpace, blank]
  rfl

theorem Stops.not_digit {text : List UInt8} (stops : Stops text) {byte : UInt8}
    {rest : List UInt8} (isText : byte :: rest = text) (digit : isDigit byte = true) : False := by
  subst isText
  have notDigit : isDigit byte = false := stops byte rfl
  rw [notDigit] at digit
  cases digit

theorem CalToken.stops (token : CalToken) (rest : List UInt8) : Stops (token.text ++ rest) := by
  cases isBlanks : token.blanks with
  | nil => exact absurd isBlanks token.separated
  | cons first blanks =>
      have stop : Stops [first] := stops_of_isSpace fun byte member =>
        isSpace_of_isBlank (token.areBlanks byte
          (List.mem_singleton.mp member ▸ isBlanks ▸ List.mem_cons_self))
      rw [CalToken.text, isBlanks]
      exact stop

theorem tokenDigits_sound {text rest : List UInt8} {count v result : Nat} (few : count ≤ 3)
    (small : v ≤ 255) (parsed : tokenDigits count v text = some (result, rest)) :
    ∃ run, text = run ++ rest ∧ (∀ byte ∈ run, Decimal.isDigit byte = true) ∧
      count + run.length ≤ 3 ∧ result = valueFrom v run ∧ result ≤ 255 ∧ Stops rest := by
  induction text generalizing count v with
  | nil =>
      cases parsed
      exact ⟨[], rfl, nofun, few, rfl, small, nofun⟩
  | cons byte text induction =>
      rw [tokenDigits] at parsed
      split_ifs at parsed with digit many large
      · rcases induction (by omega) (Nat.le_of_not_gt large) parsed with
          ⟨run, isText, digits, short, isValue, bounded, stops⟩
        refine ⟨byte :: run, by rw [isText]; rfl, ?_, ?_, isValue, bounded, stops⟩
        · intro other member
          rcases List.mem_cons.mp member with rfl | later
          · exact digit
          · exact digits other later
        · rw [List.length_cons]
          omega
      · cases parsed
        refine ⟨[], rfl, nofun, few, rfl, small, ?_⟩
        rintro other ⟨⟩
        exact Bool.eq_false_iff.mpr digit

theorem mfTokenU8_sound {text rest : List UInt8} {number : Int} (stops : Stops text)
    (parsed : mfTokenU8 text = some (number, rest)) :
    ∃ token : CalToken, text = token.text ++ rest ∧ number = token.number ∧ Stops rest := by
  have split := List.takeWhile_append_dropWhile (p := isBlank) (l := text)
  rw [mfTokenU8] at parsed
  cases start : text.dropWhile isBlank with
  | nil =>
      rw [start] at parsed
      cases parsed
  | cons byte after =>
      simp only [start] at parsed
      split_ifs at parsed with digit
      rcases Option.map_eq_some_iff.mp parsed with ⟨⟨result, rest'⟩, read, equal⟩
      cases equal
      rcases tokenDigits_sound (Nat.zero_le 3) (Nat.zero_le 255) read with
        ⟨run, isText, digits, short, isValue, bounded, stopsAfter⟩
      rw [start, isText] at split
      refine ⟨⟨text.takeWhile isBlank, run, ?_, fun _ => List.mem_takeWhile_imp, ?_, digits,
        by omega, by rw [value]; omega⟩, ?_, ?_, stopsAfter⟩
      · intro none
        rw [none, ← isText] at split
        exact stops.not_digit split digit
      · rintro rfl
        exact stopsAfter.not_digit isText digit
      · rw [CalToken.text, List.append_assoc, split]
      · exact congrArg Int.ofNat isValue

theorem mfTokenU8_complete (token : CalToken) {rest : List UInt8} (stops : Stops rest) :
    mfTokenU8 (token.text ++ rest) = some (token.number, rest) := by
  have read : tokenDigits 0 0 (token.digits ++ rest) = some (value token.digits, rest) :=
    tokenDigits_run token.areDigits stops (by have := token.short; omega) token.small
  cases isDigits : token.digits with
  | nil => exact absurd isDigits token.written
  | cons byte run =>
      have digit : isDigit byte = true := token.areDigits byte (isDigits ▸ List.mem_cons_self)
      have notBlank : isBlank byte = false := by
        have spaceless := not_isSpace_of_isDigit digit
        rw [isSpace, Bool.or_assoc, Bool.or_eq_false_iff] at spaceless
        exact spaceless.1
      have wordStarts : ∀ first ∈ (token.digits ++ rest).head?, isBlank first = false := by
        rw [isDigits]
        rintro first ⟨⟩
        exact notBlank
      have start := (takeWhile_run token.areBlanks wordStarts).2
      rw [CalToken.text, List.append_assoc, mfTokenU8, start]
      rw [isDigits, List.cons_append] at read ⊢
      simp only [digit, if_true, read, Option.map_some]
      rw [CalToken.number, isDigits]

/-! ## Axes -/

theorem CalTriple.stops (triple : CalTriple) (rest : List UInt8) :
    Stops (triple.text ++ rest) := by
  rw [CalTriple.text, List.append_assoc]
  exact triple.min.stops _

theorem parseRange_sound {text rest : List UInt8} {range : MfRange} (stops : Stops text)
    (parsed : parseRange text = some (range, rest)) :
    ∃ triple : CalTriple, text = triple.text ++ rest ∧ range = triple.range ∧ Stops rest := by
  simp only [parseRange, Option.bind_eq_bind, Option.bind_eq_some_iff] at parsed
  rcases parsed with ⟨⟨_, _⟩, minRead, ⟨_, _⟩, zeroRead, ⟨_, _⟩, maxRead, equal⟩
  cases equal
  rcases mfTokenU8_sound stops minRead with ⟨min, rfl, rfl, afterMin⟩
  rcases mfTokenU8_sound afterMin zeroRead with ⟨zero, rfl, rfl, afterZero⟩
  rcases mfTokenU8_sound afterZero maxRead with ⟨max, rfl, rfl, afterMax⟩
  refine ⟨⟨min, zero, max⟩, ?_, rfl, afterMax⟩
  rw [CalTriple.text, List.append_assoc, List.append_assoc]

theorem parseRange_complete (triple : CalTriple) {rest : List UInt8} (stops : Stops rest) :
    parseRange (triple.text ++ rest) = some (triple.range, rest) := by
  have max := mfTokenU8_complete triple.max stops
  have zero := mfTokenU8_complete triple.zero (triple.max.stops rest)
  have min := mfTokenU8_complete triple.min (triple.zero.stops (triple.max.text ++ rest))
  rw [parseRange, CalTriple.text, List.append_assoc, List.append_assoc, min]
  simp only [Option.bind_eq_bind, Option.bind_some, zero, max]
  rfl

/-! ## The command -/

theorem isCommand_commandWord (apply : Bool) : IsCommand (commandWord apply) apply := by
  cases apply
  · exact List.mem_cons_self
  · exact List.mem_cons_of_mem _ List.mem_cons_self

theorem commandWord_ne_nil (apply : Bool) : commandWord apply ≠ [] := by
  cases apply <;> decide

/-- The text ends, or goes on with a space. -/
def EndsWord (text : List UInt8) : Prop :=
  ∀ byte ∈ text.head?, isSpace byte = true

theorem EndsWord.stops {text : List UInt8} (ends : EndsWord text) : Stops text := by
  cases text with
  | nil => exact nofun
  | cons first rest =>
      rintro byte ⟨⟩
      exact stops_of_isSpace (fun other member => List.mem_singleton.mp member ▸ ends first rfl)
        first rfl

theorem literals_eq : "restore".toUTF8.toList = commandWord false ∧
    "apply".toUTF8.toList = commandWord true := by
  decide +kernel

theorem parseCommand_sound {text rest : List UInt8} {apply : Bool}
    (parsed : parseCommand text = some (apply, rest)) :
    ∃ lead, (∀ byte ∈ lead, isSpace byte = true) ∧ text = lead ++ (commandWord apply ++ rest) ∧
      EndsWord rest := by
  have leadSplit := List.takeWhile_append_dropWhile (p := isSpace) (l := text)
  have wordSplit := List.takeWhile_append_dropWhile (p := fun byte => !isSpace byte)
    (l := text.dropWhile isSpace)
  have ends : EndsWord ((text.dropWhile isSpace).dropWhile fun byte => !isSpace byte) := by
    intro byte first
    have stopped := List.head?_dropWhile_not (fun byte => !isSpace byte) (text.dropWhile isSpace)
    rw [Option.mem_def.mp first] at stopped
    simpa using stopped
  have found : ∀ word, (text.dropWhile isSpace).takeWhile (fun byte => !isSpace byte) = word →
      text = text.takeWhile isSpace ++
        (word ++ (text.dropWhile isSpace).dropWhile fun byte => !isSpace byte) := by
    rintro word rfl
    rw [wordSplit, leadSplit]
  rw [parseCommand] at parsed
  rw [literals_eq.1, literals_eq.2] at parsed
  split_ifs at parsed with long restores applies
  · cases parsed
    exact ⟨text.takeWhile isSpace, fun _ => List.mem_takeWhile_imp, found _ restores, ends⟩
  · cases parsed
    exact ⟨text.takeWhile isSpace, fun _ => List.mem_takeWhile_imp, found _ applies, ends⟩

theorem parseCommand_complete {lead rest : List UInt8} (apply : Bool)
    (spaces : ∀ byte ∈ lead, isSpace byte = true) (ends : EndsWord rest) :
    parseCommand (lead ++ (commandWord apply ++ rest)) = some (apply, rest) := by
  have plain : ∀ byte ∈ commandWord apply, isSpace byte = false := fun byte member =>
    ((isCommand_commandWord apply).plain member).1
  have wordStarts : ∀ byte ∈ (commandWord apply ++ rest).head?, isSpace byte = false := by
    intro byte first
    rw [List.head?_append_of_ne_nil _ (commandWord_ne_nil apply)] at first
    exact plain byte (List.mem_of_mem_head? first)
  have start := (takeWhile_run spaces wordStarts).2
  have word := takeWhile_run (fun byte member => congrArg not (plain byte member))
    fun byte first => congrArg not (ends byte first)
  rw [parseCommand, start]
  rw [word.1, word.2, literals_eq.1, literals_eq.2]
  cases apply <;> rfl

/-! ## The whole line -/

theorem CalTriple.endsWord (triple : CalTriple) (rest : List UInt8) :
    EndsWord (triple.text ++ rest) := by
  intro byte first
  rw [CalTriple.text, CalToken.text, List.append_assoc, List.append_assoc,
    List.head?_append_of_ne_nil _ triple.min.separated] at first
  exact isSpace_of_isBlank (triple.min.areBlanks byte (List.mem_of_mem_head? first))

/-- Both axes of a line have a usable centre. -/
def CalLine.Centred (line : CalLine) : Prop :=
  Zlyme.Gamepad.Centred line.x.range.min line.x.range.zero line.x.range.max ∧
    Zlyme.Gamepad.Centred line.y.range.min line.y.range.zero line.y.range.max

theorem CalLine.centred_iff (line : CalLine) : line.Centred ↔
    ¬(mfCenterInRange line.x.range.min line.x.range.zero line.x.range.max ≠ 0 ∨
      mfCenterInRange line.y.range.min line.y.range.zero line.y.range.max ≠ 0) := by
  rw [not_or, not_not, not_not, mfCenterInRange_eq_zero_iff, mfCenterInRange_eq_zero_iff]
  rfl

theorem mfParseCal_sound {buf : List UInt8} {cal : MfCal} (parsed : mfParseCal buf = some cal) :
    ∃ line : CalLine, line.text = cString buf ∧ cal = line.cal ∧ line.Centred := by
  simp only [mfParseCal, Option.bind_eq_bind, Option.bind_eq_some_iff] at parsed
  rcases parsed with ⟨⟨apply, _⟩, command, ⟨_, _⟩, xRead, ⟨_, trail⟩, yRead, accepted⟩
  split_ifs at accepted with trailing outside
  cases accepted
  rcases parseCommand_sound command with ⟨lead, leadSpaces, isText, ends⟩
  rcases parseRange_sound ends.stops xRead with ⟨x, rfl, rfl, afterX⟩
  rcases parseRange_sound afterX yRead with ⟨y, rfl, rfl, afterY⟩
  have trailSpaces : ∀ byte ∈ trail, isSpace byte = true :=
    List.dropWhile_eq_nil_iff.mp (not_not.mp trailing)
  let line : CalLine := ⟨lead, apply, x, y, trail, leadSpaces, trailSpaces⟩
  exact ⟨line, isText.symm, rfl, line.centred_iff.mpr outside⟩

theorem mfParseCal_complete {buf : List UInt8} {line : CalLine} (isText : line.text = cString buf)
    (centred : line.Centred) : mfParseCal buf = some line.cal := by
  have ends := line.x.endsWord (line.y.text ++ line.trail)
  have trailing : ¬line.trail.dropWhile isSpace ≠ [] :=
    not_not.mpr (List.dropWhile_eq_nil_iff.mpr line.trailSpaces)
  rw [mfParseCal, ← isText, CalLine.text,
    parseCommand_complete line.apply line.leadSpaces ends]
  simp only [Option.bind_eq_bind, Option.bind_some,
    parseRange_complete line.x (line.y.stops line.trail),
    parseRange_complete line.y (stops_of_isSpace line.trailSpaces),
    if_neg trailing, if_neg (line.centred_iff.mp centred)]
  rfl

/-! ## Writes -/

inductive MfStick
  | left
  | right
  deriving DecidableEq, Repr

namespace MfStick

def xId : MfStick → MfAxisId
  | .left => .xl
  | .right => .xr

def yId : MfStick → MfAxisId
  | .left => .yl
  | .right => .yr

/-- The store of the stick's attribute. -/
def store (kernel : Kernel) (pad : MfPad) (buf : List UInt8) : MfStick → MfPad × Int
  | .left => calibrationLeftStore kernel pad buf
  | .right => calibrationRightStore kernel pad buf

theorem store_eq (kernel : Kernel) (pad : MfPad) (buf : List UInt8) (stick : MfStick) :
    stick.store kernel pad buf = mfCalStore kernel pad stick.xId stick.yId buf := by
  cases stick <;> rfl

theorem ids_ne (stick : MfStick) : stick.yId ≠ stick.xId := by
  cases stick <;> decide

end MfStick

/-- The centre in use was found at boot or applied, and a restore keeps it. -/
def MfAxis.KeepsCentre (ax : MfAxis) : Prop :=
  ax.zeroSource = .boot ∨ ax.zeroSource = .apply

/-- A centre that a restore keeps fits the new ends. -/
def MfAxis.FitsEnds (ax : MfAxis) (apply : Bool) (range : MfRange) : Prop :=
  apply = false → ax.KeepsCentre → Centred range.min ax.runtimeZero range.max

theorem mfPreflightAxis_eq_zero_iff (ax : MfAxis) (apply : Bool) (range : MfRange) :
    mfPreflightAxis ax apply range = 0 ↔ ax.FitsEnds apply range := by
  rw [mfPreflightAxis, MfAxis.FitsEnds]
  split_ifs with kept
  · rw [mfCenterInRange_eq_zero_iff]
    exact ⟨fun fits _ _ => fits, fun fits => fits kept.1 kept.2⟩
  · exact ⟨fun _ restores keeps => absurd ⟨restores, keeps⟩ kept, fun _ => rfl⟩

/-- What an accepted line makes of one axis. -/
structure InstalledFrom (apply : Bool) (range : MfRange) (before after : MfAxis) : Prop where
  min : after.min = range.min
  savedZero : after.savedZero = range.zero
  max : after.max = range.max
  adopted : apply = true ∨ ¬before.KeepsCentre → after.runtimeZero = range.zero
  kept : apply = false → before.KeepsCentre → after.runtimeZero = before.runtimeZero

theorem MfAxis.keepsCentre_iff (ax : MfAxis) :
    ax.KeepsCentre ↔ ¬(ax.zeroSource = .default ∨ ax.zeroSource = .persisted) := by
  rw [MfAxis.KeepsCentre]
  cases ax.zeroSource <;> decide

theorem mfInstallAxis_installedFrom (ax : MfAxis) (range : MfRange) (apply : Bool) :
    InstalledFrom apply range ax (mfInstallAxis ax range apply) := by
  rw [mfInstallAxis]
  cases apply with
  | true => exact ⟨rfl, rfl, rfl, fun _ => rfl, fun impossible => by cases impossible⟩
  | false =>
      rw [if_neg Bool.false_ne_true]
      dsimp only
      split_ifs with fallback
      · exact ⟨rfl, rfl, rfl, fun _ => rfl,
          fun _ keeps => absurd fallback (ax.keepsCentre_iff.mp keeps)⟩
      · refine ⟨rfl, rfl, rfl, fun adopts => ?_, fun _ _ => rfl⟩
        rcases adopts with impossible | lost
        · cases impossible
        · exact absurd (ax.keepsCentre_iff.mpr fallback) lost

/-- A line that a stick in this state accepts. -/
structure CalLine.Accepted (line : CalLine) (pad : MfPad) (stick : MfStick) : Prop where
  centred : line.Centred
  xFits : (pad.axis stick.xId).FitsEnds line.apply line.x.range
  yFits : (pad.axis stick.yId).FitsEnds line.apply line.y.range

/-- What a write of a line leaves on the four axes. -/
structure CalLine.Installs (line : CalLine) (stick : MfStick) (before after : MfPad) : Prop where
  x : InstalledFrom line.apply line.x.range (before.axis stick.xId) (after.axis stick.xId)
  y : InstalledFrom line.apply line.y.range (before.axis stick.yId) (after.axis stick.yId)
  others : ∀ id, id ≠ stick.xId → id ≠ stick.yId → after.axis id = before.axis id

theorem installStick_installs (kernel : Kernel) (pad : MfPad) (stick : MfStick)
    (line : CalLine) :
    line.Installs stick pad (installStick kernel pad stick.xId stick.yId line.cal) := by
  have axes := installStick_axis kernel pad stick.ids_ne line.cal
  refine ⟨?_, ?_, fun id notX notY => ?_⟩
  · rw [axes, if_neg stick.ids_ne.symm, if_pos rfl]
    exact mfInstallAxis_installedFrom _ _ _
  · rw [axes, if_pos rfl]
    exact mfInstallAxis_installedFrom _ _ _
  · rw [axes, if_neg notY, if_neg notX]

theorem store_accepted (kernel : Kernel) {pad : MfPad} {buf : List UInt8} {stick : MfStick}
    {line : CalLine} (isText : line.text = cString buf) (accepted : line.Accepted pad stick) :
    stick.store kernel pad buf =
      (installStick kernel pad stick.xId stick.yId line.cal, (buf.length : Int)) := by
  have xFits := (mfPreflightAxis_eq_zero_iff _ _ _).mpr accepted.xFits
  have yFits := (mfPreflightAxis_eq_zero_iff _ _ _).mpr accepted.yFits
  rw [stick.store_eq, mfCalStore, mfParseCal_complete isText accepted.centred]
  refine if_neg ?_
  rw [not_or, not_not, not_not]
  exact ⟨xFits, yFits⟩

theorem store_refused (kernel : Kernel) {pad : MfPad} {buf : List UInt8} {stick : MfStick}
    (none : ¬∃ line : CalLine, line.text = cString buf ∧ line.Accepted pad stick) :
    stick.store kernel pad buf = (pad, -einval) ∨
      stick.store kernel pad buf = (pad, -erange) := by
  rw [stick.store_eq, mfCalStore]
  cases parsed : mfParseCal buf with
  | none => exact .inl rfl
  | some cal =>
      rcases mfParseCal_sound parsed with ⟨line, isText, rfl, centred⟩
      refine .inr (if_pos ?_)
      by_contra fits
      rw [not_or, not_not, not_not, mfPreflightAxis_eq_zero_iff,
        mfPreflightAxis_eq_zero_iff] at fits
      exact none ⟨line, isText, centred, fits.1, fits.2⟩

/-- A write returns an error and leaves the driver alone, or it installs both axes of the
stick from one line of the language. -/
theorem calibration_write (kernel : Kernel) (pad : MfPad) (stick : MfStick)
    (buf : List UInt8) :
    (((stick.store kernel pad buf).2 = -einval ∨ (stick.store kernel pad buf).2 = -erange) ∧
        (stick.store kernel pad buf).1 = pad ∧
        ¬∃ line : CalLine, line.text = cString buf ∧ line.Accepted pad stick) ∨
      ((stick.store kernel pad buf).2 = buf.length ∧
        ∃ line : CalLine, line.text = cString buf ∧ line.Accepted pad stick ∧
          line.Installs stick pad (stick.store kernel pad buf).1) := by
  by_cases acceptable : ∃ line : CalLine, line.text = cString buf ∧ line.Accepted pad stick
  · rcases acceptable with ⟨line, isText, accepted⟩
    rw [store_accepted kernel isText accepted]
    exact .inr ⟨rfl, line, isText, accepted, installStick_installs kernel pad stick line⟩
  · rcases store_refused kernel acceptable with refused | refused <;> rw [refused]
    · exact .inl ⟨.inl rfl, rfl, acceptable⟩
    · exact .inl ⟨.inr rfl, rfl, acceptable⟩

/-- A line may also begin with spaces. -/
theorem calibration_write_leading :
    ¬∀ (kernel : Kernel) (pad : MfPad) (stick : MfStick) (buf : List UInt8),
      (stick.store kernel pad buf).2 = buf.length ↔
        ∃ line : CalLine, line.lead = [] ∧ line.text = cString buf ∧
          line.Accepted pad stick := by
  intro unspaced
  have accepted : (MfStick.left.store hz1000Kernel mfProbePad
      (ascii " restore 0 128 255 0 128 255\n")).2 =
        (ascii " restore 0 128 255 0 128 255\n").length := by
    decide +kernel
  rcases (unspaced _ _ _ _).mp accepted with ⟨line, leads, isText, -⟩
  have first := congrArg List.head? isText
  rw [CalLine.text, leads, List.nil_append,
    List.head?_append_of_ne_nil _ (commandWord_ne_nil line.apply)] at first
  revert first
  cases line.apply <;> decide +kernel

end Zlyme.Gamepad
