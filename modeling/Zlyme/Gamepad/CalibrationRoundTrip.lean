import Zlyme.Gamepad.CalibrationFile

/-! # A saved calibration through every reader

What the application writes for an accepted configuration comes back through its
own reader, through the boot script and through the driver, and the axes the
driver shows come back through `cal_parse_raw`.
-/

namespace Zlyme.Gamepad

open Foundation Foundation.Decimal Foundation.Text

/-! ## Accepted configurations -/

theorem calCenterOk_eq_zero_iff (min zero max : Int) :
    calCenterOk min zero max = 0 ↔ 0 ≤ min ∧ max ≤ 255 ∧ 2 < zero - min ∧ 2 < max - zero := by
  rw [calCenterOk, calDeadband]
  constructor
  · intro accepted
    split_ifs at accepted with outside unordered narrow
    omega
  · rintro ⟨low, high, below, above⟩
    rw [if_neg (by omega), if_neg (by omega), if_neg (by omega)]

/-- The centre the application accepts is the one the driver accepts. -/
theorem mfCenterInRange_of_calCenterOk {min zero max : Int} (accepted : calCenterOk min zero max = 0) :
    mfCenterInRange min zero max = 0 := by
  rcases (calCenterOk_eq_zero_iff min zero max).mp accepted with ⟨_, _, below, above⟩
  rw [mfCenterInRange, mfRawDeadband, if_neg (by omega), if_neg (by omega)]

theorem calCfgOk_eq_zero_iff (cfg : CalCfg) :
    calCfgOk cfg = 0 ↔ calCenterOk cfg.xMin cfg.xZero cfg.xMax = 0 ∧
      calCenterOk cfg.yMin cfg.yZero cfg.yMax = 0 := by
  rw [calCfgOk]
  split_ifs with x y
  · exact ⟨nofun, fun ok => absurd ok.1 x⟩
  · exact ⟨nofun, fun ok => absurd ok.2 y⟩
  · exact ⟨fun _ => ⟨not_not.mp x, not_not.mp y⟩, fun _ => rfl⟩

/-- A configuration of six bytes. -/
def cfgOf (n : CalKey → Nat) : CalCfg where
  xMin := n .xMin
  xMax := n .xMax
  xZero := n .xZero
  yMin := n .yMin
  yMax := n .yMax
  yZero := n .yZero

/-- The field of a configuration under its key. -/
def fieldOf (cfg : CalCfg) : CalKey → Int
  | .xMin => cfg.xMin
  | .xMax => cfg.xMax
  | .yMin => cfg.yMin
  | .yMax => cfg.yMax
  | .xZero => cfg.xZero
  | .yZero => cfg.yZero

theorem exists_cfgOf {cfg : CalCfg} (accepted : calCfgOk cfg = 0) :
    ∃ n, (∀ key, n key ≤ 255) ∧ cfg = cfgOf n := by
  rcases (calCfgOk_eq_zero_iff cfg).mp accepted with ⟨xOk, yOk⟩
  have xBounds := (calCenterOk_eq_zero_iff _ _ _).mp xOk
  have yBounds := (calCenterOk_eq_zero_iff _ _ _).mp yOk
  refine ⟨fun key => (fieldOf cfg key).toNat, ?_, ?_⟩
  · intro key
    cases key <;> simp only [fieldOf] <;> omega
  · simp only [cfgOf, fieldOf]
    cases cfg
    simp only [CalCfg.mk.injEq] at *
    omega

/-! ## The fields of a file -/

/-- A value that every reader takes. -/
structure IsValue (val : List UInt8) : Prop where
  nonempty : val ≠ []
  digits : ∀ byte ∈ val, isDigit byte = true
  small : value val ≤ 255

theorem isValue_decimal {n : Nat} (small : n ≤ 255) : IsValue (decimal n) where
  nonempty := decimal_ne_nil n
  digits _ member := isDigit_of_mem_decimal member
  small := by rwa [value_decimal]

theorem IsValue.all {val : List UInt8} (isValue : IsValue val) : val.all isDigit = true :=
  List.all_eq_true.mpr isValue.digits

theorem IsValue.strtol {val : List UInt8} (isValue : IsValue val) :
    strtol val = some ((value val : Int), []) := by
  have small := isValue.small
  have noStop : ∀ byte ∈ ([] : List UInt8).head?, Decimal.isDigit byte = false := nofun
  have read := strtol_digits isValue.nonempty isValue.digits noStop (by omega)
  rwa [List.append_nil] at read

/-- `key=val` -/
def fieldLine (key : CalKey) (val : List UInt8) : List UInt8 :=
  key.name ++ 0x3d :: val

theorem name_plain (key : CalKey) :
    key.name.all (fun byte => byte != 0 && byte != 0x0a && byte != 0x3d) = true := by
  cases key <;> decide

theorem ofName_name (key : CalKey) : CalKey.ofName key.name = some key := by
  cases key <;> decide

theorem cut_fieldLine (key : CalKey) (val : List UInt8) :
    cut 0x3d (fieldLine key val) = some (key.name, val) := by
  apply cut_append
  intro member
  exact absurd (List.all_eq_true.mp (name_plain key) _ member) (by decide)

theorem isSkipped_fieldLine (key : CalKey) (val : List UInt8) :
    isSkipped (fieldLine key val) = false := by
  cases key <;> rfl

theorem name_ne_nil (key : CalKey) : key.name ≠ [] := by
  cases key <;> decide

theorem calLine_fieldLine {key : CalKey} {val : List UInt8} (isValue : IsValue val)
    (short : (fieldLine key val).length < lineSize) (slots : CalKey → Option Int) :
    calLine slots (fieldLine key val) =
      orRaise (fieldSet slots key (value val : Int)) "duplicate field" := by
  have small := isValue.small
  have inRange : ¬(([] : List UInt8) ≠ [] ∨ (value val : Int) < 0 ∨ (value val : Int) > 255) := by
    rintro (trailing | negative | large)
    · exact trailing rfl
    · omega
    · omega
  have filled : ¬(key.name = [] ∨ val = []) :=
    not_or.mpr ⟨name_ne_nil key, isValue.nonempty⟩
  rw [calLine, if_neg (Nat.not_le.mpr short), isSkipped_fieldLine, if_neg Bool.false_ne_true,
    cut_fieldLine, orRaise_some, ok_bind]
  dsimp only
  rw [raiseIf_of_not filled, ok_bind, raiseIf_of_not (by simp [isValue.all]), ok_bind,
    isValue.strtol, orRaise_some, ok_bind]
  dsimp only
  rw [raiseIf_of_not inRange, ok_bind, ofName_name, orRaise_some, ok_bind]

theorem parseCalLine_fieldLine {key : CalKey} {val : List UInt8} (isValue : IsValue val)
    (short : val.length ≤ 3) (file : List UInt8) (slots : CalKey → Option (List UInt8)) :
    parseCalLine file slots (fieldLine key val) =
      orRaise (fieldSet slots key (decimal (value val))) [] := by
  have numeral : ¬(val = [] ∨ val.all isDigit = false) :=
    not_or.mpr ⟨isValue.nonempty, by simp [isValue.all]⟩
  have inRange : ¬value (stripZeros val) > 255 := by
    rw [stripZeros_eq_decimal isValue.digits, value_decimal]
    exact Nat.not_lt.mpr isValue.small
  rw [parseCalLine, isSkipped_fieldLine, if_neg Bool.false_ne_true, cut_fieldLine, orRaise_some,
    ok_bind]
  dsimp only
  rw [raiseIf_of_not numeral, ok_bind, raiseIf_of_not (Nat.not_lt.mpr short), ok_bind,
    raiseIf_of_not inRange, ok_bind, ofName_name, orRaise_some, ok_bind,
    stripZeros_eq_decimal isValue.digits]

/-! ## The whole file -/

/-- A loop that sets a fresh slot at each line sets them all. -/
theorem foldlM_fieldLines {ε α : Type}
    {step : (CalKey → Option α) → List UInt8 → Except ε (CalKey → Option α)}
    {line : CalKey → List UInt8} {result : CalKey → α}
    (sets : ∀ slots key, slots key = none →
      step slots (line key) = .ok (Function.update slots key (some (result key))))
    {keys : List CalKey} (nodup : keys.Nodup) {slots : CalKey → Option α}
    (fresh : ∀ key ∈ keys, slots key = none) :
    (keys.map line).foldlM step slots =
      .ok fun key => if key ∈ keys then some (result key) else slots key := by
  induction keys generalizing slots with
  | nil => rfl
  | cons key keys induction =>
      rw [List.nodup_cons] at nodup
      have later : ∀ other ∈ keys,
          Function.update slots key (some (result key)) other = none := by
        intro other member
        have differs : other ≠ key := fun same => nodup.1 (same ▸ member)
        rw [Function.update_of_ne differs]
        exact fresh other (List.mem_cons_of_mem _ member)
      rw [List.map_cons, List.foldlM_cons, sets slots key (fresh key List.mem_cons_self), ok_bind,
        induction nodup.2 later]
      congr 1
      funext other
      by_cases same : other = key
      · simp [same]
      · simp [same]

theorem fieldSet_of_fresh {α : Type} {slots : CalKey → Option α} {key : CalKey}
    (fresh : slots key = none) (value : α) :
    fieldSet slots key value = some (Function.update slots key (some value)) := by
  simp [fieldSet, fresh]

theorem mem_keys (key : CalKey) : key ∈ CalKey.keys := by
  cases key <;> decide

/-- The text saved for the six numbers. -/
def savedText (n : CalKey → Nat) : List UInt8 :=
  unlines 0x0a (CalKey.keys.map fun key => fieldLine key (decimal (n key)))

theorem mem_fieldLine {key : CalKey} {val : List UInt8} {byte : UInt8}
    (digits : ∀ byte ∈ val, isDigit byte = true) (member : byte ∈ fieldLine key val) :
    byte ≠ 0 ∧ byte ≠ 0x0a := by
  rw [fieldLine, List.mem_append, List.mem_cons] at member
  rcases member with inName | rfl | inValue
  · have plain := List.all_eq_true.mp (name_plain key) byte inName
    simp only [Bool.and_eq_true, bne_iff_ne] at plain
    exact plain.1
  · decide
  · have digit := digits byte inValue
    constructor <;> rintro rfl <;> exact absurd digit (by decide)

theorem mem_savedText {n : CalKey → Nat} {byte : UInt8} (member : byte ∈ savedText n) : byte ≠ 0 := by
  rcases mem_unlines member with rfl | ⟨line, isLine, inLine⟩
  · decide
  · rcases List.mem_map.mp isLine with ⟨key, _, rfl⟩
    exact (mem_fieldLine (fun _ => isDigit_of_mem_decimal) inLine).1

theorem lines_savedText (n : CalKey → Nat) :
    lines (· == 0x0a) (savedText n) =
      CalKey.keys.map fun key => fieldLine key (decimal (n key)) := by
  apply lines_unlines
  · intro line isLine byte inLine
    rcases List.mem_map.mp isLine with ⟨key, _, rfl⟩
    exact beq_eq_false_iff_ne.mpr (mem_fieldLine (fun _ => isDigit_of_mem_decimal) inLine).2
  · rfl

theorem cString_eq_self {text : List UInt8} (noNul : ∀ byte ∈ text, byte ≠ 0) :
    cString text = text :=
  List.takeWhile_eq_self_iff.mpr fun byte member => bne_iff_ne.mpr (noNul byte member)

theorem readLines_of_noNul {text : List UInt8} (noNul : ∀ byte ∈ text, byte ≠ 0) :
    readLines text = lines (· == 0x0a) text := by
  rw [readLines, List.filter_eq_self.mpr fun byte member => decide_eq_true (noNul byte member)]

theorem calFormat_cfgOf (n : CalKey → Nat) (len : Nat) :
    calFormat (cfgOf n) len = snprintf (savedText n) len := by
  have first : ascii "x_min=" = CalKey.xMin.name ++ [0x3d] := rfl
  have second : ascii "\nx_max=" = 0x0a :: (CalKey.xMax.name ++ [0x3d]) := rfl
  have third : ascii "\ny_min=" = 0x0a :: (CalKey.yMin.name ++ [0x3d]) := rfl
  have fourth : ascii "\ny_max=" = 0x0a :: (CalKey.yMax.name ++ [0x3d]) := rfl
  have fifth : ascii "\nx_zero=" = 0x0a :: (CalKey.xZero.name ++ [0x3d]) := rfl
  have sixth : ascii "\ny_zero=" = 0x0a :: (CalKey.yZero.name ++ [0x3d]) := rfl
  have last : ascii "\n" = [0x0a] := rfl
  rw [calFormat, first, second, third, fourth, fifth, sixth, last]
  simp only [savedText, CalKey.keys, List.map_cons, List.map_nil, unlines_cons, unlines_nil,
    fieldLine, List.append_assoc, List.cons_append, List.nil_append, cfgOf]
  rfl

theorem fieldLine_length (key : CalKey) (val : List UInt8) :
    (fieldLine key val).length ≤ val.length + 7 := by
  have name : key.name.length ≤ 6 := by cases key <;> decide
  rw [fieldLine, List.length_append, List.length_cons]
  omega

section Saved

variable {n : CalKey → Nat} (small : ∀ key, n key ≤ 255)

include small

theorem decimal_short (key : CalKey) : (decimal (n key)).length ≤ 3 :=
  decimal_length_le (by decide) (lt_of_le_of_lt (small key) (by decide))

theorem calLines_savedText :
    (lines (· == 0x0a) (cString (savedText n))).foldlM calLine (fun _ => none) =
      .ok fun key => some (n key : Int) := by
  have sets : ∀ (slots : CalKey → Option Int) (key : CalKey), slots key = none →
      calLine slots (fieldLine key (decimal (n key))) =
        .ok (Function.update slots key (some (n key : Int))) := by
    intro slots key fresh
    have short := decimal_short small key
    have long := fieldLine_length key (decimal (n key))
    rw [calLine_fieldLine (isValue_decimal (small key)) (by rw [lineSize]; omega), value_decimal,
      fieldSet_of_fresh fresh, orRaise_some]
  rw [cString_eq_self fun _ => mem_savedText, lines_savedText,
    foldlM_fieldLines sets (by decide) fun _ _ => rfl]
  simp only [mem_keys, if_true]

theorem parseCalLines_savedText (file : List UInt8) :
    (readLines (savedText n)).foldlM (parseCalLine file) (fun _ => none) =
      .ok fun key => some (decimal (n key)) := by
  have sets : ∀ (slots : CalKey → Option (List UInt8)) (key : CalKey), slots key = none →
      parseCalLine file slots (fieldLine key (decimal (n key))) =
        .ok (Function.update slots key (some (decimal (n key)))) := by
    intro slots key fresh
    rw [parseCalLine_fieldLine (isValue_decimal (small key)) (decimal_short small key), value_decimal,
      fieldSet_of_fresh fresh, orRaise_some]
  rw [readLines_of_noNul fun _ => mem_savedText, lines_savedText,
    foldlM_fieldLines sets (by decide) fun _ _ => rfl]
  simp only [mem_keys, if_true]

theorem calParse_savedText (accepted : calCfgOk (cfgOf n) = 0) :
    calParse (savedText n) = .ok (cfgOf n) := by
  have whole : calCfgOfSlots (fun key => some (n key : Int)) = some (cfgOf n) := rfl
  rw [calParse, calLines_savedText small, ok_bind, whole, orRaise_some, ok_bind,
    raiseIf_of_not (not_not.mpr accepted), ok_bind]
  rfl

end Saved

/-! ## The boot script -/

/-- The numbers in the order in which the driver takes them. -/
def calNumbers (n : CalKey → Nat) : List (List UInt8) :=
  [.xMin, .xZero, .xMax, .yMin, .yZero, .yMax].map fun key : CalKey => decimal (n key)

theorem parseCal_savedText {n : CalKey → Nat} (small : ∀ key, n key ≤ 255)
    (accepted : calCfgOk (cfgOf n) = 0) (file : List UInt8) :
    parseCal file (savedText n) = .ok (joined 0x20 (calNumbers n) ++ ascii "\n") := by
  rcases (calCfgOk_eq_zero_iff _).mp accepted with ⟨xOk, yOk⟩
  rcases (calCenterOk_eq_zero_iff _ _ _).mp xOk with ⟨_, _, xBelow, xAbove⟩
  rcases (calCenterOk_eq_zero_iff _ _ _).mp yOk with ⟨_, _, yBelow, yAbove⟩
  simp only [cfgOf] at xBelow xAbove yBelow yAbove
  rw [parseCal, parseCalLines_savedText small, ok_bind]
  simp only [value_decimal]
  rw [raiseIf_of_not (by omega), ok_bind, raiseIf_of_not (by omega), ok_bind]
  rfl

theorem calNumbers_ne_nil {n : CalKey → Nat} {word : List UInt8} (member : word ∈ calNumbers n) :
    word ≠ [] := by
  rcases List.mem_map.mp member with ⟨key, _, rfl⟩
  exact decimal_ne_nil _

theorem isDigit_of_mem_calNumbers {n : CalKey → Nat} {word : List UInt8}
    (member : word ∈ calNumbers n) {byte : UInt8} (inside : byte ∈ word) :
    Decimal.isDigit byte = true := by
  rcases List.mem_map.mp member with ⟨key, _, rfl⟩
  exact isDigit_of_mem_decimal inside

theorem not_isSpace_of_isDigit {byte : UInt8} (digit : Decimal.isDigit byte = true) :
    isSpace byte = false := by
  rw [isSpace, isBlank]
  simp only [Bool.or_eq_false_iff, beq_eq_false_iff_ne]
  refine ⟨⟨⟨?_, ?_⟩, ?_⟩, ?_⟩ <;> rintro rfl <;> exact absurd digit (by decide)

theorem substituted_numbers (n : CalKey → Nat) :
    substituted (joined 0x20 (calNumbers n) ++ ascii "\n") = joined 0x20 (calNumbers n) := by
  have last : joined 0x20 (calNumbers n) =
      joined 0x20 ((calNumbers n).take 5) ++ 0x20 :: decimal (n .yMax) := by
    simp [calNumbers]
  have newline : ascii "\n" = [0x0a] := rfl
  rw [substituted, newline, List.rdropWhile_concat_pos _ _ _ (by rfl), last]
  apply List.rdropWhile_eq_self_iff.mpr
  intro nonempty isNewline
  rw [List.getLast_append_of_ne_nil _ (List.cons_ne_nil _ _),
    List.getLast_cons (decimal_ne_nil _)] at isNewline
  have digit := isDigit_of_mem_decimal (List.getLast_mem (decimal_ne_nil (n .yMax)))
  rw [beq_iff_eq.mp isNewline] at digit
  exact absurd digit (by decide)

/-- The line the script writes to the attribute. -/
theorem restoreSide_savedText {n : CalKey → Nat} (small : ∀ key, n key ≤ 255)
    (accepted : calCfgOk (cfgOf n) = 0) (side file : List UInt8) :
    restoreSide side file (savedText n) =
      .ok (joined 0x20 (ascii "restore" :: calNumbers n) ++ ascii "\n") := by
  have split : words isSpace (joined 0x20 (calNumbers n)) = calNumbers n :=
    words_joined (fun _ => calNumbers_ne_nil)
      (fun _ member _ inside => not_isSpace_of_isDigit (isDigit_of_mem_calNumbers member inside)) rfl
  rw [restoreSide, parseCal_savedText small accepted]
  simp only [substituted_numbers, writeRestore, split]
  rfl

/-! ## The driver -/

theorem tokenDigits_run {run rest : List UInt8} (digits : ∀ byte ∈ run, Decimal.isDigit byte = true)
    (stops : ∀ byte ∈ rest.head?, Decimal.isDigit byte = false) {count v : Nat}
    (short : count + run.length ≤ 3) (small : valueFrom v run ≤ 255) :
    tokenDigits count v (run ++ rest) = some (valueFrom v run, rest) := by
  induction run generalizing count v with
  | nil =>
      cases rest with
      | nil => rfl
      | cons byte rest =>
          have stop : isDigit byte = false := stops byte rfl
          rw [List.nil_append, tokenDigits, stop, if_neg Bool.false_ne_true, valueFrom_nil]
  | cons byte run induction =>
      have digit : isDigit byte = true := digits byte List.mem_cons_self
      have grows : v * 10 + (byte.toNat - 0x30) ≤ valueFrom (v * 10 + digitValue byte) run :=
        le_valueFrom _ _
      rw [List.length_cons] at short
      rw [valueFrom_cons] at small
      rw [List.cons_append, tokenDigits, digit, if_pos rfl, if_neg (by omega), if_neg (by omega)]
      exact induction (fun other member => digits other (List.mem_cons_of_mem _ member))
        (by omega) small

theorem mfTokenU8_decimal {n : Nat} (small : n ≤ 255) {rest : List UInt8}
    (stops : ∀ byte ∈ rest.head?, Decimal.isDigit byte = false) :
    mfTokenU8 (0x20 :: (decimal n ++ rest)) = some ((n : Int), rest) := by
  have short : (decimal n).length ≤ 3 :=
    decimal_length_le (by decide) (lt_of_le_of_lt small (by decide))
  have token : tokenDigits 0 0 (decimal n ++ rest) = some (n, rest) := by
    have spelled : valueFrom 0 (decimal n) = n := value_decimal n
    rw [tokenDigits_run (fun _ => isDigit_of_mem_decimal) stops (by omega) (by omega), spelled]
  cases isDecimal : decimal n with
  | nil => exact absurd isDecimal (decimal_ne_nil n)
  | cons byte run =>
      have digit : isDigit byte = true := isDigit_of_mem_decimal (isDecimal ▸ List.mem_cons_self)
      have blank : isBlank byte = false := by
        have spaceless := not_isSpace_of_isDigit digit
        rw [isSpace, Bool.or_assoc, Bool.or_eq_false_iff] at spaceless
        exact spaceless.1
      have start : (0x20 :: (byte :: run ++ rest)).dropWhile isBlank = byte :: (run ++ rest) := by
        have space : isBlank 0x20 = true := rfl
        rw [List.dropWhile_cons_of_pos space, List.cons_append,
          List.dropWhile_cons_of_neg (Bool.not_eq_true _ ▸ blank)]
      rw [isDecimal, List.cons_append] at token
      simp only [mfTokenU8, start, digit, if_true, token, Option.map_some]

theorem blankStops (rest : List UInt8) :
    ∀ byte ∈ ((0x20 : UInt8) :: rest).head?, Decimal.isDigit byte = false := by
  rintro byte ⟨⟩
  rfl

theorem newlineStops : ∀ byte ∈ [(0x0a : UInt8)].head?, Decimal.isDigit byte = false := by
  rintro byte ⟨⟩
  rfl

theorem parseRange_decimals {min centre max : Nat} (minSmall : min ≤ 255) (centreSmall : centre ≤ 255)
    (maxSmall : max ≤ 255) {rest : List UInt8}
    (stops : ∀ byte ∈ rest.head?, Decimal.isDigit byte = false) :
    parseRange (0x20 :: (decimal min ++ 0x20 :: (decimal centre ++ 0x20 :: (decimal max ++ rest)))) =
      some (⟨min, centre, max⟩, rest) := by
  rw [parseRange, mfTokenU8_decimal minSmall (blankStops _)]
  simp only [Option.bind_eq_bind, Option.bind_some]
  rw [mfTokenU8_decimal centreSmall (blankStops _)]
  simp only [Option.bind_some]
  rw [mfTokenU8_decimal maxSmall stops]
  rfl

/-- The two commands of the driver. -/
def IsCommand (command : List UInt8) (apply : Bool) : Prop :=
  (command, apply) ∈ [(ascii "restore", false), (ascii "apply", true)]

theorem IsCommand.plain {command : List UInt8} {apply : Bool} (isCommand : IsCommand command apply)
    {byte : UInt8} (member : byte ∈ command) : isSpace byte = false ∧ byte ≠ 0 := by
  have plain : ∀ pair ∈ [(ascii "restore", false), (ascii "apply", true)],
      pair.1.all (fun byte => !isSpace byte && byte != 0) = true := by decide
  have checked := List.all_eq_true.mp (plain _ isCommand) byte member
  simpa using checked

theorem parseCommand_line {command : List UInt8} {apply : Bool} (isCommand : IsCommand command apply)
    (rest : List UInt8) : parseCommand (command ++ 0x20 :: rest) = some (apply, 0x20 :: rest) := by
  have wordStops : ∀ byte ∈ ((0x20 : UInt8) :: rest).head?, (!isSpace byte) = false := by
    rintro byte ⟨⟩
    rfl
  have read := takeWhile_run
    (fun byte member => congrArg not (isCommand.plain member).1) wordStops
  have start : (command ++ 0x20 :: rest).dropWhile isSpace = command ++ 0x20 :: rest := by
    rcases List.mem_cons.mp isCommand with restore | isApply
    · cases restore
      rfl
    · cases List.mem_singleton.mp isApply
      rfl
  have literals : "restore".toUTF8.toList = ascii "restore" ∧ "apply".toUTF8.toList = ascii "apply" := by
    decide +kernel
  rw [parseCommand, start]
  simp only [read.1, read.2, literals.1, literals.2]
  rcases List.mem_cons.mp isCommand with restore | isApply
  · cases restore
    rfl
  · cases List.mem_singleton.mp isApply
    rfl

/-- A line with a command word and six numbers, as the driver reads it. -/
theorem mfParseCal_line {n : CalKey → Nat} (small : ∀ key, n key ≤ 255)
    (accepted : calCfgOk (cfgOf n) = 0) {command : List UInt8} {apply : Bool}
    (isCommand : IsCommand command apply) :
    mfParseCal (joined 0x20 (command :: calNumbers n) ++ ascii "\n") =
      some
        { apply
          x := ⟨n .xMin, n .xZero, n .xMax⟩
          y := ⟨n .yMin, n .yZero, n .yMax⟩ } := by
  rcases (calCfgOk_eq_zero_iff _).mp accepted with ⟨xOk, yOk⟩
  have xInRange : mfCenterInRange (n .xMin) (n .xZero) (n .xMax) = 0 :=
    mfCenterInRange_of_calCenterOk xOk
  have yInRange : mfCenterInRange (n .yMin) (n .yZero) (n .yMax) = 0 :=
    mfCenterInRange_of_calCenterOk yOk
  have spelled : joined 0x20 (command :: calNumbers n) ++ ascii "\n" =
      command ++ 0x20 :: (decimal (n .xMin) ++ 0x20 :: (decimal (n .xZero) ++ 0x20 ::
        (decimal (n .xMax) ++ 0x20 :: (decimal (n .yMin) ++ 0x20 :: (decimal (n .yZero) ++ 0x20 ::
          (decimal (n .yMax) ++ [0x0a])))))) := by
    have newline : ascii "\n" = [0x0a] := rfl
    simp [calNumbers, newline]
  have noNul : ∀ byte ∈ joined 0x20 (command :: calNumbers n) ++ ascii "\n", byte ≠ 0 := by
    intro byte member
    rcases List.mem_append.mp member with inside | last
    · rcases mem_joined inside with rfl | ⟨word, isWord, inWord⟩
      · decide
      · rcases List.mem_cons.mp isWord with rfl | isNumber
        · exact (isCommand.plain inWord).2
        · have digit := isDigit_of_mem_calNumbers isNumber inWord
          rintro rfl
          exact absurd digit (by decide)
    · rcases List.mem_singleton.mp last with rfl
      decide
  rw [mfParseCal, cString_eq_self noNul, spelled, parseCommand_line isCommand]
  simp only [Option.bind_eq_bind, Option.bind_some]
  rw [parseRange_decimals (small _) (small _) (small _) (blankStops _)]
  simp only [Option.bind_some]
  rw [parseRange_decimals (small _) (small _) (small _) newlineStops]
  simp only [Option.bind_some]
  rw [if_neg (not_not.mpr (by rfl)), if_neg (not_or.mpr ⟨not_not.mpr xInRange, not_not.mpr yInRange⟩)]

/-! ## The axes shown -/

theorem rawField_axis (axis : MfAxisId) {n : Nat} (small : n ≤ 255) {rest : List UInt8}
    (stops : ∀ byte ∈ rest.head?, Decimal.isDigit byte = false) :
    rawField (axisName axis ++ 0x3d :: (decimal n ++ rest)) = .ok (axis, (n : Int), rest) := by
  have plain : (axisName axis).all isKeyByte = true := by cases axis <;> decide
  have keyStops : ∀ byte ∈ ((0x3d : UInt8) :: (decimal n ++ rest)).head?, isKeyByte byte = false := by
    rintro byte ⟨⟩
    rfl
  have key := takeWhile_run (List.all_eq_true.mp plain) keyStops
  have length : ¬(axisName axis).length > 7 := by cases axis <;> decide
  have filled : axisName axis ≠ [] := by cases axis <;> decide
  have known : axisOfName (axisName axis) = some axis := by cases axis <;> rfl
  have number : strtol (decimal n ++ rest) = some ((n : Int), rest) := by
    rw [strtol_digits (decimal_ne_nil n) (fun _ => isDigit_of_mem_decimal) stops
      (by rw [value_decimal]; omega), value_decimal]
  have first : (decimal n ++ rest).head?.any Decimal.isDigit = true := by
    cases isDecimal : decimal n with
    | nil => exact absurd isDecimal (decimal_ne_nil n)
    | cons byte run => exact isDigit_of_mem_decimal (isDecimal ▸ List.mem_cons_self)
  rw [rawField, key.1, key.2, raiseIf_of_not length, ok_bind]
  change (raiseIf (axisName axis = []) "malformed raw" >>= fun _ =>
    raiseIf ((decimal n ++ rest).head?.any isDigit = false) "malformed raw" >>= fun _ =>
    orRaise (strtol (decimal n ++ rest)) "malformed raw" >>= fun _ => _) = _
  rw [raiseIf_of_not filled, ok_bind, raiseIf_of_not (Bool.not_eq_false _ ▸ first), ok_bind, number,
    orRaise_some, ok_bind]
  dsimp only
  rw [raiseIf_of_not (by omega), ok_bind, known, orRaise_some, ok_bind]
  rfl

theorem dropBlanks_name (axis : MfAxisId) (rest : List UInt8) :
    (axisName axis ++ 0x3d :: rest).dropWhile isBlank = axisName axis ++ 0x3d :: rest := by
  cases axis <;> rfl

theorem dropBlanks_blank_name (axis : MfAxisId) (rest : List UInt8) :
    (0x20 :: (axisName axis ++ 0x3d :: rest)).dropWhile isBlank = axisName axis ++ 0x3d :: rest := by
  cases axis <;> rfl

theorem rawFields_field (axis : MfAxisId) {n : Nat} (small : n ≤ 255) {text rest : List UInt8}
    (stops : ∀ byte ∈ rest.head?, Decimal.isDigit byte = false)
    (isStart : text.dropWhile isBlank = axisName axis ++ 0x3d :: (decimal n ++ rest))
    {seen : MfAxisId → Option Int} (fresh : seen axis = none) :
    rawFields seen text = rawFields (Function.update seen axis (some (n : Int))) rest := by
  have field := rawField_axis axis small stops
  rw [← isStart] at field
  rw [rawFields]
  split
  · rename_i empty
    rw [empty] at isStart
    cases axis <;> cases isStart
  · rename_i byte after split
    rw [split] at isStart field
    have notNewline : byte ≠ 0x0a := by
      rintro rfl
      cases axis <;> cases isStart
    rw [if_neg notNewline]
    split
    · rename_i failed
      rw [field] at failed
      cases failed
    · rename_i found
      rw [field] at found
      cases found
      rw [fresh, Option.isSome_none, if_neg Bool.false_ne_true]

theorem rawFields_newline {text after : List UInt8} (isStart : text.dropWhile isBlank = 0x0a :: after)
    (seen : MfAxisId → Option Int) : rawFields seen text = .ok (seen, 0x0a :: after) := by
  rw [rawFields]
  split
  · rename_i empty
    rw [empty] at isStart
    cases isStart
  · rename_i byte rest split
    rw [split] at isStart
    cases isStart
    rfl

/-- The four values in the order shown. -/
def MfPad.rawValues (pad : MfPad) : RawAxes where
  yl := (pad.axis .yl).latest.toNat
  xl := (pad.axis .xl).latest.toNat
  yr := (pad.axis .yr).latest.toNat
  xr := (pad.axis .xr).latest.toNat

theorem rawAxesShow_eq (pad : MfPad) :
    pad.rawAxesShow =
      axisName .yl ++ 0x3d :: (decimal (pad.axis .yl).latest.toNat ++
        0x20 :: (axisName .xl ++ 0x3d :: (decimal (pad.axis .xl).latest.toNat ++
          0x20 :: (axisName .yr ++ 0x3d :: (decimal (pad.axis .yr).latest.toNat ++
            0x20 :: (axisName .xr ++ 0x3d :: (decimal (pad.axis .xr).latest.toNat ++ [0x0a]))))))) := by
  have first : ascii "YL=" = axisName .yl ++ [0x3d] := rfl
  have second : ascii " XL=" = 0x20 :: (axisName .xl ++ [0x3d]) := rfl
  have third : ascii " YR=" = 0x20 :: (axisName .yr ++ [0x3d]) := rfl
  have fourth : ascii " XR=" = 0x20 :: (axisName .xr ++ [0x3d]) := rfl
  have newline : ascii "\n" = [0x0a] := rfl
  simp [MfPad.rawAxesShow, first, second, third, fourth, newline]

/-- The application reads the axes that the driver shows. -/
theorem calParseRaw_rawAxesShow (pad : MfPad) : calParseRaw pad.rawAxesShow = .ok pad.rawValues := by
  have small : ∀ axis, (pad.axis axis).latest.toNat ≤ 255 := fun axis =>
    Nat.le_of_lt_succ (UInt8.toNat_lt _)
  have nameNoNul : ∀ axis, (axisName axis).all (· != 0) = true := by
    intro axis
    cases axis <;> decide
  have noNul : ∀ byte ∈ pad.rawAxesShow, byte ≠ 0 := by
    intro byte member
    have digitNoNul : ∀ n, byte ∈ decimal n → byte ≠ 0 := by
      rintro n inside rfl
      exact absurd (isDigit_of_mem_decimal inside) (by decide)
    have inName : ∀ axis, byte ∈ axisName axis → byte ≠ 0 := fun axis inside =>
      bne_iff_ne.mp (List.all_eq_true.mp (nameNoNul axis) byte inside)
    rw [rawAxesShow_eq] at member
    simp only [List.mem_append, List.mem_cons, List.not_mem_nil, or_false] at member
    rcases member with inside | rfl | inside | rfl | inside | rfl | inside | rfl | inside | rfl |
      inside | rfl | inside | rfl | inside | rfl
    all_goals first
      | exact inName _ inside
      | exact digitNoNul _ inside
      | decide
  rw [calParseRaw, cString_eq_self noNul, rawAxesShow_eq, dropBlanks_name,
    raiseIf_of_not (by rintro (⟨⟨⟩⟩ | ⟨⟨⟩⟩)), ok_bind]
  rw [rawFields_field .yl (small .yl) (blankStops _) (dropBlanks_name _ _) rfl,
    rawFields_field .xl (small .xl) (blankStops _) (dropBlanks_blank_name _ _) rfl,
    rawFields_field .yr (small .yr) (blankStops _) (dropBlanks_blank_name _ _) rfl,
    rawFields_field .xr (small .xr) newlineStops (dropBlanks_blank_name _ _) rfl,
    rawFields_newline rfl, ok_bind]
  rfl

/-! ## Every reader -/

theorem snprintf_eq_some {text written : List UInt8} {len : Nat} :
    snprintf text len = some written ↔ written = text ∧ text.length < len := by
  rw [snprintf]
  split
  · rename_i long
    exact ⟨nofun, fun fits => absurd fits.2 (Nat.not_lt.mpr long)⟩
  · rename_i short
    rw [Option.some.injEq]
    exact ⟨fun same => ⟨same.symm, Nat.lt_of_not_le short⟩, fun fits => fits.1.symm⟩

theorem calApplyLine_cfgOf (n : CalKey → Nat) (len : Nat) :
    calApplyLine (cfgOf n) len =
      snprintf (joined 0x20 (ascii "apply" :: calNumbers n) ++ ascii "\n") len := by
  have first : ascii "apply " = ascii "apply" ++ [0x20] := rfl
  have space : ascii " " = [0x20] := rfl
  rw [calApplyLine, first, space]
  simp only [calNumbers, List.map_cons, List.map_nil, joined_cons, joined_single,
    List.append_assoc, List.cons_append, List.nil_append, cfgOf]
  rfl

section Lengths

variable {n : CalKey → Nat} (small : ∀ key, n key ≤ 255)

include small

theorem savedText_length : (savedText n).length < calBodySize := by
  have line : ∀ key, (fieldLine key (decimal (n key))).length ≤ 10 := fun key =>
    (fieldLine_length key _).trans (Nat.add_le_add_right (decimal_short small key) 7)
  have := line .xMin
  have := line .xMax
  have := line .yMin
  have := line .yMax
  have := line .xZero
  have := line .yZero
  simp only [savedText, CalKey.keys, List.map_cons, List.map_nil, unlines_cons, unlines_nil,
    List.length_append, List.length_cons, List.length_nil, calBodySize]
  omega

theorem applyLine_length :
    (joined 0x20 (ascii "apply" :: calNumbers n) ++ ascii "\n").length < calLineSize := by
  have word : (ascii "apply").length = 5 := rfl
  have newline : (ascii "\n").length = 1 := rfl
  have := decimal_short small .xMin
  have := decimal_short small .xMax
  have := decimal_short small .yMin
  have := decimal_short small .yMax
  have := decimal_short small .xZero
  have := decimal_short small .yZero
  simp only [calNumbers, List.map_cons, List.map_nil, joined_cons, joined_single,
    List.length_append, List.length_cons, word, newline, calLineSize]
  omega

end Lengths

/-- A saved configuration comes back from the application, from the script and
from the driver, and so do the axes that the driver shows. -/
theorem calibration_round_trip :
    (∀ cfg : CalCfg, calCfgOk cfg = 0 →
      (calFormat cfg calBodySize).isSome = true ∧ (calApplyLine cfg calLineSize).isSome = true ∧
      (∀ len text, calFormat cfg len = some text →
        calParse text = .ok cfg ∧
        ∀ file : List UInt8,
          parseCal file text =
            .ok (joined 0x20 ([cfg.xMin, cfg.xZero, cfg.xMax, cfg.yMin, cfg.yZero, cfg.yMax].map
              signedDecimal) ++ ascii "\n") ∧
          ∀ side, ∃ line, restoreSide side file text = .ok line ∧
            mfParseCal line =
              some
                { apply := false
                  x := ⟨cfg.xMin, cfg.xZero, cfg.xMax⟩
                  y := ⟨cfg.yMin, cfg.yZero, cfg.yMax⟩ }) ∧
      ∀ len line, calApplyLine cfg len = some line →
        mfParseCal line =
          some
            { apply := true
              x := ⟨cfg.xMin, cfg.xZero, cfg.xMax⟩
              y := ⟨cfg.yMin, cfg.yZero, cfg.yMax⟩ }) ∧
      ∀ pad : MfPad, calParseRaw pad.rawAxesShow = .ok pad.rawValues := by
  refine ⟨?_, calParseRaw_rawAxesShow⟩
  intro cfg accepted
  rcases exists_cfgOf accepted with ⟨n, small, rfl⟩
  rw [calFormat_cfgOf, calApplyLine_cfgOf]
  have restore : IsCommand (ascii "restore") false := List.mem_cons_self
  have apply : IsCommand (ascii "apply") true := List.mem_cons_of_mem _ List.mem_cons_self
  refine ⟨?_, ?_, ?_, ?_⟩
  · exact Option.isSome_iff_exists.mpr ⟨_, snprintf_eq_some.mpr ⟨rfl, savedText_length small⟩⟩
  · exact Option.isSome_iff_exists.mpr ⟨_, snprintf_eq_some.mpr ⟨rfl, applyLine_length small⟩⟩
  · intro len text written
    rw [calFormat_cfgOf] at written
    rcases snprintf_eq_some.mp written with ⟨rfl, _⟩
    refine ⟨calParse_savedText small accepted, fun file => ?_⟩
    exact ⟨parseCal_savedText small accepted file, fun side =>
      ⟨_, restoreSide_savedText small accepted side file, mfParseCal_line small accepted restore⟩⟩
  · intro len line written
    rw [calApplyLine_cfgOf] at written
    rcases snprintf_eq_some.mp written with ⟨rfl, _⟩
    exact mfParseCal_line small accepted apply

def sampleCfg : CalCfg where
  xMin := 2
  xMax := 223
  xZero := 103
  yMin := 25
  yMax := 239
  yZero := 139

theorem sampleCfg_round_trip :
    calCfgOk sampleCfg = 0 ∧ ∃ text, calFormat sampleCfg calBodySize = some text ∧
      calParse text = .ok sampleCfg := by
  have accepted : calCfgOk sampleCfg = 0 := by decide
  have readers := calibration_round_trip.1 sampleCfg accepted
  rcases Option.isSome_iff_exists.mp readers.1 with ⟨text, written⟩
  exact ⟨accepted, text, written, (readers.2.2.1 _ text written).1⟩

end Zlyme.Gamepad
