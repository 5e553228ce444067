import Zlyme.Gamepad.CalibrationRoundTrip

/-! # The two readers of the stick files

When the application and the boot script take the same file, and with the same
values.
-/

namespace Zlyme.Gamepad

open Foundation Foundation.Decimal Foundation.Text

/-! ## One calibration line -/

/-- The value of a line, if the line is a field at all, is at most this long. -/
def ValueAtMost (limit : Nat) (line : List UInt8) : Prop :=
  isSkipped line = false → ∀ key val, cut 0x3d line = some (key, val) → val.length ≤ limit

theorem name_of_ofName {name : List UInt8} {key : CalKey} (found : CalKey.ofName name = some key) :
    key.name = name :=
  beq_iff_eq.mp (List.find?_some (p := fun key : CalKey => key.name == name) found)

theorem fieldLine_of_cut {line name val : List UInt8} (isCut : cut 0x3d line = some (name, val))
    {key : CalKey} (found : CalKey.ofName name = some key) : line = fieldLine key val := by
  rw [fieldLine, name_of_ofName found]
  exact (cut_eq_some.mp isCut).1

theorem fieldSet_eq_some {α : Type} {slots next : CalKey → Option α} {key : CalKey} {value : α} :
    fieldSet slots key value = some next ↔
      slots key = none ∧ next = Function.update slots key (some value) := by
  rw [fieldSet]
  cases slots key with
  | none => simp [eq_comm]
  | some old => simp

/-- A line that sets a slot. -/
structure SetsField (line : List UInt8) (key : CalKey) (val : List UInt8) : Prop where
  isField : line = fieldLine key val
  isValue : IsValue val

theorem calLine_eq_ok {slots next : CalKey → Option Int} {line : List UInt8}
    (read : calLine slots line = .ok next) :
    line.length < lineSize ∧
      (isSkipped line = true ∧ next = slots ∨
        ∃ key val, SetsField line key val ∧ slots key = none ∧
          next = Function.update slots key (some (value val : Int))) := by
  rw [calLine] at read
  split at read
  · cases read
  · rename_i short
    refine ⟨Nat.lt_of_not_le short, ?_⟩
    split at read
    · rename_i skipped
      cases read
      exact .inl ⟨skipped, rfl⟩
    · right
      simp only [bind_eq_ok, orRaise_eq_ok, raiseIf_eq_ok] at read
      rcases read with ⟨⟨name, val⟩, isCut, _, filled, _, digits, ⟨v, rest⟩, number, _, small, key,
        found, set⟩
      dsimp only at filled digits number small found set
      rw [not_or] at filled
      have allDigits := List.all_eq_true.mp (Bool.not_eq_false _ ▸ digits)
      rcases strtol_all_digits filled.2 allDigits number with ⟨rfl, rfl⟩
      rcases fieldSet_eq_some.mp set with ⟨fresh, isNext⟩
      exact ⟨key, val, ⟨fieldLine_of_cut isCut found, filled.2, allDigits, by omega⟩, fresh, isNext⟩

theorem parseCalLine_eq_ok {file line : List UInt8} {slots next : CalKey → Option (List UInt8)}
    (read : parseCalLine file slots line = .ok next) :
    isSkipped line = true ∧ next = slots ∨
      ∃ key val, SetsField line key val ∧ val.length ≤ 3 ∧ slots key = none ∧
        next = Function.update slots key (some (decimal (value val))) := by
  rw [parseCalLine] at read
  split at read
  · rename_i skipped
    cases read
    exact .inl ⟨skipped, rfl⟩
  · right
    simp only [bind_eq_ok, orRaise_eq_ok, raiseIf_eq_ok] at read
    rcases read with ⟨⟨name, val⟩, isCut, _, numeral, _, short, _, small, key, found, set⟩
    dsimp only at numeral short small found set
    rw [not_or] at numeral
    have allDigits := List.all_eq_true.mp (Bool.not_eq_false _ ▸ numeral.2)
    rw [stripZeros_eq_decimal allDigits] at small set
    rw [value_decimal] at small
    rcases fieldSet_eq_some.mp set with ⟨fresh, isNext⟩
    exact ⟨key, val, ⟨fieldLine_of_cut isCut found, numeral.1, allDigits, Nat.le_of_not_lt small⟩,
      Nat.le_of_not_lt short, fresh, isNext⟩

/-- The script's slots hold what the application's hold, as text. -/
structure SameSlots (slots : CalKey → Option Int) (vars : CalKey → Option (List UInt8)) : Prop where
  spelled : ∀ key, vars key = (slots key).map signedDecimal
  bytes : ∀ key v, slots key = some v → ∃ n : Nat, n ≤ 255 ∧ v = n

theorem SameSlots.empty : SameSlots (fun _ => none) (fun _ => none) where
  spelled _ := rfl
  bytes _ _ := nofun

theorem SameSlots.fresh {slots : CalKey → Option Int} {vars : CalKey → Option (List UInt8)}
    (same : SameSlots slots vars) (key : CalKey) : vars key = none ↔ slots key = none := by
  rw [same.spelled, Option.map_eq_none_iff]

theorem SameSlots.update {slots : CalKey → Option Int} {vars : CalKey → Option (List UInt8)}
    (same : SameSlots slots vars) (key : CalKey) {n : Nat} (small : n ≤ 255) :
    SameSlots (Function.update slots key (some (n : Int)))
      (Function.update vars key (some (decimal n))) where
  spelled other := by
    by_cases isKey : other = key
    · subst isKey
      simp [signedDecimal]
    · simp [isKey, same.spelled]
  bytes other v held := by
    by_cases isKey : other = key
    · subst isKey
      simp only [Function.update_self, Option.some.injEq] at held
      exact ⟨n, small, held.symm⟩
    · rw [Function.update_of_ne isKey] at held
      exact same.bytes other v held

section Lines

variable {slots : CalKey → Option Int} {vars : CalKey → Option (List UInt8)} {line : List UInt8}

theorem parseCalLine_follows (file : List UInt8) (same : SameSlots slots vars)
    {next : CalKey → Option Int} (read : calLine slots line = .ok next)
    (short : ValueAtMost 3 line) :
    ∃ after, parseCalLine file vars line = .ok after ∧ SameSlots next after := by
  rcases (calLine_eq_ok read).2 with ⟨skipped, rfl⟩ | ⟨key, val, ⟨rfl, isValue⟩, fresh, rfl⟩
  · refine ⟨vars, ?_, same⟩
    rw [parseCalLine, skipped, if_pos rfl]
  · have valueShort := short (isSkipped_fieldLine key val) _ _ (cut_fieldLine key val)
    refine ⟨_, ?_, same.update key isValue.small⟩
    rw [parseCalLine_fieldLine isValue valueShort, fieldSet_of_fresh ((same.fresh key).mpr fresh),
      orRaise_some]

theorem calLine_follows {file : List UInt8} (same : SameSlots slots vars)
    {after : CalKey → Option (List UInt8)} (read : parseCalLine file vars line = .ok after)
    (short : line.length < lineSize) :
    ∃ next, calLine slots line = .ok next ∧ SameSlots next after := by
  rcases parseCalLine_eq_ok read with ⟨skipped, rfl⟩ | ⟨key, val, ⟨rfl, isValue⟩, _, fresh, rfl⟩
  · refine ⟨slots, ?_, same⟩
    rw [calLine, if_neg (Nat.not_le.mpr short), skipped, if_pos rfl]
  · refine ⟨_, ?_, same.update key isValue.small⟩
    rw [calLine_fieldLine isValue short, fieldSet_of_fresh ((same.fresh key).mp fresh), orRaise_some]

theorem valueAtMost_of_parseCalLine {file : List UInt8} {after : CalKey → Option (List UInt8)}
    (read : parseCalLine file vars line = .ok after) : ValueAtMost 3 line := by
  intro notSkipped name val isCut
  rcases parseCalLine_eq_ok read with ⟨skipped, _⟩ | ⟨key, found, ⟨rfl, _⟩, short, _⟩
  · rw [skipped] at notSkipped
    cases notSkipped
  · rw [cut_fieldLine] at isCut
    cases isCut
    exact short

end Lines

/-! ## After the last line -/

/-- The line that `parse_cal` prints for a configuration. -/
def CalCfg.numbersLine (cfg : CalCfg) : List UInt8 :=
  joined 0x20 ([cfg.xMin, cfg.xZero, cfg.xMax, cfg.yMin, cfg.yZero, cfg.yMax].map signedDecimal) ++
    ascii "\n"

/-- Either every slot holds a byte, or one holds nothing. -/
theorem SameSlots.complete_or {slots : CalKey → Option Int} {vars : CalKey → Option (List UInt8)}
    (same : SameSlots slots vars) :
    (∃ n : CalKey → Nat, (∀ key, n key ≤ 255) ∧ slots = (fun key => some (n key : Int)) ∧
      vars = fun key => some (decimal (n key))) ∨ ∃ key, slots key = none ∧ vars key = none := by
  by_cases missing : ∃ key, slots key = none
  · rcases missing with ⟨key, isMissing⟩
    exact .inr ⟨key, isMissing, (same.fresh key).mpr isMissing⟩
  · left
    have held : ∀ key, ∃ n : Nat, n ≤ 255 ∧ slots key = some (n : Int) := by
      intro key
      cases isSlot : slots key with
      | none => exact absurd ⟨key, isSlot⟩ missing
      | some v =>
          rcases same.bytes key v isSlot with ⟨n, small, rfl⟩
          exact ⟨n, small, rfl⟩
    choose n small isSlot using held
    refine ⟨n, small, funext isSlot, funext fun key => ?_⟩
    rw [same.spelled, isSlot]
    rfl

theorem calCfgOfSlots_missing {slots : CalKey → Option Int} {key : CalKey}
    (missing : slots key = none) : calCfgOfSlots slots = none := by
  rw [calCfgOfSlots]
  cases key <;> simp [missing]

theorem cfgOf_ok_iff {n : CalKey → Nat} (small : ∀ key, n key ≤ 255) :
    calCfgOk (cfgOf n) = 0 ↔
      (n .xMin + 2 < n .xZero ∧ n .xZero + 2 < n .xMax) ∧
        n .yMin + 2 < n .yZero ∧ n .yZero + 2 < n .yMax := by
  have xHigh := small .xMax
  have yHigh := small .yMax
  rw [calCfgOk_eq_zero_iff, calCenterOk_eq_zero_iff, calCenterOk_eq_zero_iff]
  simp only [cfgOf]
  omega

/-- The script prints the numbers of the configuration that the application
builds, under the application's conditions. -/
theorem parseCal_eq_ok {slots : CalKey → Option Int} {vars : CalKey → Option (List UInt8)}
    {file text out : List UInt8}
    (run : (readLines text).foldlM (parseCalLine file) (fun _ => none) = .ok vars)
    (same : SameSlots slots vars) :
    parseCal file text = .ok out ↔
      ∃ cfg, calCfgOfSlots slots = some cfg ∧ calCfgOk cfg = 0 ∧ out = cfg.numbersLine := by
  rw [parseCal, run, ok_bind]
  rcases same.complete_or with ⟨n, small, rfl, rfl⟩ | ⟨key, missing, unset⟩
  · have whole : calCfgOfSlots (fun key => some (n key : Int)) = some (cfgOf n) := rfl
    simp only [value_decimal, whole, Option.some.injEq, exists_eq_left', cfgOf_ok_iff small,
      bind_eq_ok, raiseIf_eq_ok]
    constructor
    · rintro ⟨_, inside, _, wide, ⟨⟩⟩
      exact ⟨by omega, rfl⟩
    · rintro ⟨wide, rfl⟩
      exact ⟨(), by omega, (), by omega, rfl⟩
  · rw [calCfgOfSlots_missing missing]
    constructor
    · intro printed
      split at printed
      · exfalso
        cases key <;> simp_all
      · cases printed
    · rintro ⟨cfg, ⟨⟩, _⟩

theorem calParse_eq_ok {slots : CalKey → Option Int} {text : List UInt8} {cfg : CalCfg}
    (run : (lines (· == 0x0a) (cString text)).foldlM calLine (fun _ => none) = .ok slots) :
    calParse text = .ok cfg ↔ calCfgOfSlots slots = some cfg ∧ calCfgOk cfg = 0 := by
  rw [calParse, run, ok_bind]
  simp only [bind_eq_ok, orRaise_eq_ok, raiseIf_eq_ok, not_not]
  constructor
  · rintro ⟨found, isCfg, _, accepted, ⟨⟩⟩
    exact ⟨isCfg, accepted⟩
  · rintro ⟨isCfg, accepted⟩
    exact ⟨cfg, isCfg, (), accepted, rfl⟩

/-! ## Whole calibration files -/

section Files

variable {file text : List UInt8} (noNul : ∀ byte ∈ text, byte ≠ 0)

include noNul

theorem parseCal_of_calParse {cfg : CalCfg} (read : calParse text = .ok cfg)
    (short : ∀ line ∈ lines (· == 0x0a) text, ValueAtMost 3 line) :
    parseCal file text = .ok cfg.numbersLine := by
  rcases bind_eq_ok.mp read with ⟨slots, run, _⟩
  have accepted := (calParse_eq_ok run).mp read
  rw [cString_eq_self noNul] at run
  have steps : ∀ line ∈ lines (· == 0x0a) text, ∀ slots next vars, SameSlots slots vars →
      calLine slots line = .ok next →
      ∃ after, parseCalLine file vars line = .ok after ∧ SameSlots next after :=
    fun line member _ _ _ same step => parseCalLine_follows file same step (short line member)
  rcases foldlM_simulates steps SameSlots.empty run with ⟨vars, follows, same⟩
  rw [← readLines_of_noNul noNul] at follows
  exact (parseCal_eq_ok follows same).mpr ⟨cfg, accepted.1, accepted.2, rfl⟩

theorem calParse_of_parseCal {out : List UInt8} (read : parseCal file text = .ok out)
    (short : ∀ line ∈ lines (· == 0x0a) text, line.length < lineSize) :
    ∃ cfg, calParse text = .ok cfg ∧ out = cfg.numbersLine := by
  rcases bind_eq_ok.mp read with ⟨vars, run, _⟩
  have linesRun := run
  rw [readLines_of_noNul noNul] at linesRun
  have steps : ∀ line ∈ lines (· == 0x0a) text, ∀ vars after slots, SameSlots slots vars →
      parseCalLine file vars line = .ok after →
      ∃ next, calLine slots line = .ok next ∧ SameSlots next after :=
    fun line member _ _ _ same step => calLine_follows same step (short line member)
  rcases foldlM_simulates steps SameSlots.empty linesRun with ⟨slots, follows, same⟩
  rcases (parseCal_eq_ok run same).mp read with ⟨cfg, isCfg, accepted, isOut⟩
  rw [← cString_eq_self noNul] at follows
  exact ⟨cfg, (calParse_eq_ok follows).mpr ⟨isCfg, accepted⟩, isOut⟩

theorem calParse_lines {cfg : CalCfg} (read : calParse text = .ok cfg) :
    ∀ line ∈ lines (· == 0x0a) text, line.length < lineSize := by
  intro line member
  rcases bind_eq_ok.mp read with ⟨slots, run, _⟩
  rw [cString_eq_self noNul] at run
  rcases ok_of_foldlM_eq_ok run member with ⟨before, after, step⟩
  exact (calLine_eq_ok step).1

theorem parseCal_lines {out : List UInt8} (read : parseCal file text = .ok out) :
    ∀ line ∈ lines (· == 0x0a) text, ValueAtMost 3 line := by
  intro line member
  rcases bind_eq_ok.mp read with ⟨vars, run, _⟩
  rw [readLines_of_noNul noNul] at run
  rcases ok_of_foldlM_eq_ok run member with ⟨before, after, step⟩
  exact valueAtMost_of_parseCalLine step

end Files

/-! ## One deadzone line -/

def sideName (right : Bool) : List UInt8 :=
  if right then ascii "right" else ascii "left"

/-- `left=val` or `right=val` -/
def sideLine (right : Bool) (val : List UInt8) : List UInt8 :=
  sideName right ++ 0x3d :: val

def DzLocals.seen (locals : DzLocals) (right : Bool) : Bool :=
  if right then locals.seenR else locals.seenL

def DzLocals.set (locals : DzLocals) (right : Bool) (v : Int) : DzLocals :=
  if right then { locals with r := v, seenR := true } else { locals with l := v, seenL := true }

def DzVars.seen (vars : DzVars) (right : Bool) : Bool :=
  if right then vars.seenR else vars.seenL

def DzVars.set (vars : DzVars) (right : Bool) (n : List UInt8) : DzVars :=
  if right then { vars with right := n, seenR := true } else { vars with left := n, seenL := true }

theorem cut_sideLine (right : Bool) (val : List UInt8) :
    cut 0x3d (sideLine right val) = some (sideName right, val) := by
  apply cut_append
  cases right <;> decide

theorem isSkipped_sideLine (right : Bool) (val : List UInt8) :
    isSkipped (sideLine right val) = false := by
  cases right <;> rfl

theorem sideName_right_ne : sideName true ≠ ascii "left" := by
  decide

/-- A line after which the application still takes the file. -/
theorem calDeadzoneLine_good {locals : DzLocals} {line : List UInt8}
    (good : (calDeadzoneLine locals line).bad = false) :
    locals.bad = false ∧ line.length < lineSize ∧
      (isSkipped line = true ∧ calDeadzoneLine locals line = locals ∨
        isSkipped line = false ∧ ∃ right val v, withoutCr line = sideLine right val ∧
          dzNum val = some v ∧ locals.seen right = false ∧
          calDeadzoneLine locals line = locals.set right v) := by
  rw [calDeadzoneLine] at good ⊢
  split at good
  · cases good
  rename_i short
  rw [if_neg short]
  split at good
  · rename_i skipped
    rw [if_pos skipped]
    exact ⟨good, Nat.lt_of_not_le short, .inl ⟨skipped, rfl⟩⟩
  rename_i notSkipped
  rw [if_neg notSkipped]
  cases isCut : cut 0x3d (withoutCr line) with
  | none =>
      rw [isCut] at good
      cases good
  | some parts =>
      rcases parts with ⟨name, val⟩
      rw [isCut] at good
      dsimp only at good ⊢
      have whole := (cut_eq_some.mp isCut).1
      split at good
      · rename_i isLeft
        rw [if_pos isLeft]
        split at good
        · rename_i v seen number
          refine ⟨good, Nat.lt_of_not_le short, .inr ⟨Bool.eq_false_iff.mpr notSkipped, false, val, v,
            ?_, number, seen, ?_⟩⟩
          · rw [whole, isLeft]
            rfl
          · rfl
        · cases good
      rename_i notLeft
      rw [if_neg notLeft]
      split at good
      · rename_i isRight
        rw [if_pos isRight]
        split at good
        · rename_i v seen number
          refine ⟨good, Nat.lt_of_not_le short, .inr ⟨Bool.eq_false_iff.mpr notSkipped, true, val, v,
            ?_, number, seen, ?_⟩⟩
          · rw [whole, isRight]
            rfl
          · rfl
        · cases good
      · cases good

theorem calDeadzoneLine_sideLine {locals : DzLocals} {right : Bool} {val : List UInt8} {v : Int}
    (short : (sideLine right val).length < lineSize)
    (noCr : withoutCr (sideLine right val) = sideLine right val)
    (number : dzNum val = some v) (unseen : locals.seen right = false) :
    calDeadzoneLine locals (sideLine right val) = locals.set right v := by
  rw [calDeadzoneLine, if_neg (Nat.not_le.mpr short), isSkipped_sideLine, if_neg Bool.false_ne_true,
    noCr, cut_sideLine]
  dsimp only
  cases right with
  | false =>
      have isSeen : locals.seenL = false := unseen
      rw [if_pos (by rfl), isSeen, number]
      rfl
  | true =>
      have isSeen : locals.seenR = false := unseen
      rw [if_neg sideName_right_ne, if_pos (by rfl), isSeen, number]
      rfl

theorem parseDeadzoneLine_good {test : TestGt} {file line : List UInt8} {vars : DzVars}
    (good : (test.parseDeadzoneLine file vars line).bad = false) :
    vars.bad = false ∧
      (isSkipped line = true ∧ test.parseDeadzoneLine file vars line = vars ∨
        ∃ right val n, line = sideLine right val ∧ test.percent val = some n ∧
          vars.seen right = false ∧ test.parseDeadzoneLine file vars line = vars.set right n) := by
  rw [TestGt.parseDeadzoneLine] at good ⊢
  split at good
  · rename_i skipped
    rw [if_pos skipped]
    exact ⟨good, .inl ⟨skipped, rfl⟩⟩
  rename_i notSkipped
  rw [if_neg notSkipped]
  cases isCut : cut 0x3d line with
  | none =>
      rw [isCut] at good
      cases good
  | some parts =>
      rcases parts with ⟨key, val⟩
      rw [isCut] at good
      dsimp only at good ⊢
      have whole := (cut_eq_some.mp isCut).1
      split at good
      · rename_i isLeft
        rw [if_pos isLeft]
        split at good
        · rename_i n seen number
          refine ⟨good, .inr ⟨false, val, n, ?_, number, seen, rfl⟩⟩
          rw [whole, isLeft]
          rfl
        · cases good
      rename_i notLeft
      rw [if_neg notLeft]
      split at good
      · rename_i isRight
        rw [if_pos isRight]
        split at good
        · rename_i n seen number
          refine ⟨good, .inr ⟨true, val, n, ?_, number, seen, rfl⟩⟩
          rw [whole, isRight]
          rfl
        · cases good
      · cases good

theorem parseDeadzoneLine_sideLine {test : TestGt} {file : List UInt8} {vars : DzVars} {right : Bool}
    {val n : List UInt8} (number : test.percent val = some n) (unseen : vars.seen right = false) :
    test.parseDeadzoneLine file vars (sideLine right val) = vars.set right n := by
  rw [TestGt.parseDeadzoneLine, isSkipped_sideLine, if_neg Bool.false_ne_true, cut_sideLine]
  dsimp only
  cases right with
  | false =>
      have isSeen : vars.seenL = false := unseen
      rw [if_pos (by rfl), isSeen, number]
      rfl
  | true =>
      have isSeen : vars.seenR = false := unseen
      rw [if_neg sideName_right_ne, if_pos (by rfl), isSeen, number]
      rfl

/-! ## One deadzone value -/

/-- The value of a line, if it has one, is written in digits alone. -/
def BareValue (line : List UInt8) : Prop :=
  isSkipped line = false → ∀ key val, cut 0x3d line = some (key, val) → val.all isDigit = true

/-- The number of a line, if it has one, is in the range of `int`. -/
def IntValue (line : List UInt8) : Prop :=
  isSkipped line = false → ∀ key val, cut 0x3d line = some (key, val) →
    val.all isDigit = true → value val < 2147483648

/-- A percentage that both readers take. -/
structure IsPercent (val : List UInt8) : Prop where
  nonempty : val ≠ []
  digits : ∀ byte ∈ val, isDigit byte = true
  small : value val ≤ 30

theorem IsPercent.dzNum {val : List UInt8} (isPercent : IsPercent val) :
    dzNum val = some (value val : Int) := by
  have small := isPercent.small
  have isValue : IsValue val := ⟨isPercent.nonempty, isPercent.digits, by omega⟩
  rw [Zlyme.Gamepad.dzNum, isValue.strtol]
  dsimp only
  rw [if_neg (by omega)]

theorem IsPercent.percent {val : List UInt8} (isPercent : IsPercent val) (test : TestGt) :
    test.percent val = some (decimal (value val)) := by
  have small := isPercent.small
  have numeral : ¬(val = [] ∨ val.all isDigit = false) :=
    not_or.mpr ⟨isPercent.nonempty, by simp [List.all_eq_true.mpr isPercent.digits]⟩
  have passes : test.greater (decimal (value val)) 30 = false := by
    rw [test.greater_decimal _ _ (by omega) (by decide)]
    exact decide_eq_false (by omega)
  rw [TestGt.percent, if_neg numeral, stripZeros_eq_decimal isPercent.digits, passes,
    if_neg Bool.false_ne_true]

theorem isPercent_of_dzNum {val : List UInt8} {v : Int} (number : Zlyme.Gamepad.dzNum val = some v)
    (bare : val.all isDigit = true) : IsPercent val ∧ v = value val := by
  have digits := List.all_eq_true.mp bare
  rw [Zlyme.Gamepad.dzNum] at number
  split at number
  · rename_i read found
    split at number
    · cases number
    · rename_i small
      have nonempty : val ≠ [] := by
        rintro rfl
        cases found
      rcases strtol_all_digits nonempty digits found with ⟨rfl, _⟩
      cases number
      exact ⟨⟨nonempty, digits, by omega⟩, rfl⟩
  · cases number

theorem isPercent_of_percent {test : TestGt} {val n : List UInt8} (number : test.percent val = some n)
    (inRange : val.all isDigit = true → value val < 2147483648) : IsPercent val ∧ n = decimal (value val) := by
  rw [TestGt.percent] at number
  split at number
  · cases number
  · rename_i numeral
    rw [not_or] at numeral
    have bare : val.all isDigit = true := Bool.not_eq_false _ ▸ numeral.2
    have digits := List.all_eq_true.mp bare
    rw [stripZeros_eq_decimal digits, test.greater_decimal _ _ (inRange bare) (by decide)] at number
    split at number
    · cases number
    · rename_i small
      cases number
      rw [decide_eq_true_eq] at small
      exact ⟨⟨numeral.1, digits, by omega⟩, rfl⟩

/-! ## Whole deadzone files -/

/-- Both readers hold the same sides and nothing was refused. -/
structure SameSides (locals : DzLocals) (vars : DzVars) : Prop where
  left : vars.left = signedDecimal locals.l
  right : vars.right = signedDecimal locals.r
  seen : ∀ right, vars.seen right = locals.seen right
  applyL : vars.applyL = true
  applyR : vars.applyR = true
  localsGood : locals.bad = false
  varsGood : vars.bad = false

theorem SameSides.initial : SameSides {} {} where
  left := rfl
  right := rfl
  seen right := by cases right <;> rfl
  applyL := rfl
  applyR := rfl
  localsGood := rfl
  varsGood := rfl

theorem SameSides.set {locals : DzLocals} {vars : DzVars} (same : SameSides locals vars)
    (right : Bool) (n : Nat) : SameSides (locals.set right (n : Int)) (vars.set right (decimal n)) := by
  have left := same.seen false
  have isRight := same.seen true
  cases right
  all_goals
    refine ⟨?_, ?_, fun side => ?_, same.applyL, same.applyR, same.localsGood, same.varsGood⟩
  · rfl
  · exact same.right
  · cases side
    · rfl
    · exact isRight
  · exact same.left
  · rfl
  · cases side
    · exact left
    · rfl

theorem withoutCr_of_bare {right : Bool} {val line : List UInt8} (stripped : withoutCr line = sideLine right val)
    (notSkipped : isSkipped line = false) (bare : BareValue line) :
    line = sideLine right val ∧ val.all isDigit = true := by
  rw [withoutCr] at stripped
  split at stripped
  · rename_i endsInCr
    -- The carriage return would stand in the value.
    have whole : line = sideLine right (val ++ [0x0d]) := by
      have split := List.dropLast_append_getLast? _ endsInCr
      rw [stripped] at split
      rw [← split, sideLine, sideLine, List.append_assoc, List.cons_append]
    have digits := bare notSkipped _ _ (whole ▸ cut_sideLine right _)
    rw [List.all_append, Bool.and_eq_true] at digits
    cases digits.2
  · subst stripped
    exact ⟨rfl, bare notSkipped _ _ (cut_sideLine right val)⟩

theorem withoutCr_sideLine {right : Bool} {val : List UInt8} (isPercent : IsPercent val) :
    withoutCr (sideLine right val) = sideLine right val := by
  rw [withoutCr, if_neg]
  intro endsInCr
  have last : (0x0d : UInt8) ∈ val := by
    rw [sideLine, List.getLast?_append_of_ne_nil _ (List.cons_ne_nil _ _),
      List.getLast?_cons_of_ne_nil isPercent.nonempty] at endsInCr
    exact List.mem_of_getLast? endsInCr
  exact absurd (isPercent.digits _ last) (by decide)

section DeadzoneLines

variable {test : TestGt} {file line : List UInt8} {locals : DzLocals} {vars : DzVars}

theorem parseDeadzoneLine_follows (same : SameSides locals vars)
    (good : (calDeadzoneLine locals line).bad = false) (bare : BareValue line) :
    SameSides (calDeadzoneLine locals line) (test.parseDeadzoneLine file vars line) := by
  rcases (calDeadzoneLine_good good).2.2 with ⟨skipped, unchanged⟩ |
    ⟨notSkipped, right, val, v, stripped, number, unseen, isSet⟩
  · rw [unchanged, TestGt.parseDeadzoneLine, if_pos skipped]
    exact same
  · rcases withoutCr_of_bare stripped notSkipped bare with ⟨isLine, digits⟩
    rcases isPercent_of_dzNum number digits with ⟨isPercent, rfl⟩
    rw [isSet, isLine, parseDeadzoneLine_sideLine (isPercent.percent test)
      ((same.seen right).trans unseen)]
    exact same.set right _

theorem calDeadzoneLine_follows (same : SameSides locals vars)
    (good : (test.parseDeadzoneLine file vars line).bad = false) (short : line.length < lineSize)
    (inRange : IntValue line) :
    SameSides (calDeadzoneLine locals line) (test.parseDeadzoneLine file vars line) := by
  rcases (parseDeadzoneLine_good good).2 with ⟨skipped, unchanged⟩ |
    ⟨right, val, n, isLine, number, unseen, isSet⟩
  · rw [unchanged, calDeadzoneLine, if_neg (Nat.not_le.mpr short), if_pos skipped]
    exact same
  · subst isLine
    have bounded := inRange (isSkipped_sideLine right val) _ _ (cut_sideLine right val)
    rcases isPercent_of_percent number bounded with ⟨isPercent, rfl⟩
    rw [isSet, calDeadzoneLine_sideLine short (withoutCr_sideLine isPercent) isPercent.dzNum
      ((same.seen right).symm.trans unseen)]
    exact same.set right _

end DeadzoneLines

theorem intValue_of_good {locals : DzLocals} {line : List UInt8}
    (good : (calDeadzoneLine locals line).bad = false) : IntValue line := by
  intro notSkipped key val isCut digits
  have bare : BareValue line := by
    intro _ other found isOther
    rw [isCut] at isOther
    cases isOther
    exact digits
  rcases (calDeadzoneLine_good good).2.2 with ⟨skipped, _⟩ |
    ⟨_, right, found, v, stripped, number, _, _⟩
  · rw [skipped] at notSkipped
    cases notSkipped
  · rcases withoutCr_of_bare stripped notSkipped bare with ⟨rfl, foundDigits⟩
    rw [cut_sideLine] at isCut
    cases isCut
    have small := (isPercent_of_dzNum number foundDigits).1.small
    omega

theorem bareValue_of_good {test : TestGt} {file line : List UInt8} {vars : DzVars}
    (good : (test.parseDeadzoneLine file vars line).bad = false) : BareValue line := by
  intro notSkipped key val isCut
  rcases (parseDeadzoneLine_good good).2 with ⟨skipped, _⟩ | ⟨right, found, n, rfl, number, _, _⟩
  · rw [skipped] at notSkipped
    cases notSkipped
  · rw [cut_sideLine] at isCut
    cases isCut
    rw [TestGt.percent] at number
    split at number
    · cases number
    · rename_i numeral
      rw [not_or] at numeral
      exact Bool.not_eq_false _ ▸ numeral.2

/-- The line that `parse_deadzone` prints when it applies both sides. -/
def percentsLine (l r : Int) : List UInt8 :=
  joined 0x20 [ascii "1", signedDecimal l, ascii "1", signedDecimal r] ++ ascii "\n"

section DeadzoneFiles

variable {test : TestGt} {file text : List UInt8} (noNul : ∀ byte ∈ text, byte ≠ 0)

theorem calDeadzone_earlier (locals : DzLocals) (line : List UInt8)
    (good : (calDeadzoneLine locals line).bad = false) : locals.bad = false :=
  (calDeadzoneLine_good good).1

theorem parseDeadzone_earlier (vars : DzVars) (line : List UInt8)
    (good : (test.parseDeadzoneLine file vars line).bad = false) : vars.bad = false :=
  (parseDeadzoneLine_good good).1

theorem calParseDeadzone_eq_zero :
    (calParseDeadzone text).1 = 0 ↔
      ((lines (· == 0x0a) (cString text)).foldl calDeadzoneLine {}).bad = false := by
  rw [calParseDeadzone]
  dsimp only
  cases ((lines (· == 0x0a) (cString text)).foldl calDeadzoneLine {}).bad <;> decide

theorem parseDeadzone_eq_zero :
    (test.parseDeadzone file text).1 = 0 ↔
      ((readLines text).foldl (test.parseDeadzoneLine file) {}).bad = false := by
  rw [TestGt.parseDeadzone]
  dsimp only
  cases ((readLines text).foldl (test.parseDeadzoneLine file) {}).bad <;> decide

theorem SameSides.printed {locals : DzLocals} {vars : DzVars} (same : SameSides locals vars) :
    joined 0x20 [flag vars.applyL, vars.left, flag vars.applyR, vars.right] ++ ascii "\n" =
      percentsLine locals.l locals.r := by
  rw [same.left, same.right, same.applyL, same.applyR]
  rfl

include noNul

theorem parseDeadzone_of_calParseDeadzone (accepted : (calParseDeadzone text).1 = 0)
    (bare : ∀ line ∈ lines (· == 0x0a) text, BareValue line) :
    test.parseDeadzone file text =
      (0, percentsLine (calParseDeadzone text).2.1 (calParseDeadzone text).2.2) := by
  have ends := calParseDeadzone_eq_zero.mp accepted
  rw [calParseDeadzone, cString_eq_self noNul] at *
  have steps : ∀ line ∈ lines (· == 0x0a) text, ∀ locals vars, SameSides locals vars →
      (calDeadzoneLine locals line).bad = false →
      SameSides (calDeadzoneLine locals line) (test.parseDeadzoneLine file vars line) :=
    fun line member _ _ same good => parseDeadzoneLine_follows same good (bare line member)
  have same := foldl_simulates calDeadzone_earlier steps SameSides.initial ends
  rw [TestGt.parseDeadzone, readLines_of_noNul noNul]
  dsimp only
  rw [same.printed, same.varsGood]
  rfl

theorem calParseDeadzone_of_parseDeadzone (accepted : (test.parseDeadzone file text).1 = 0)
    (plain : ∀ line ∈ lines (· == 0x0a) text, line.length < lineSize ∧ IntValue line) :
    (calParseDeadzone text).1 = 0 := by
  have ends := parseDeadzone_eq_zero.mp accepted
  rw [readLines_of_noNul noNul] at ends
  rw [calParseDeadzone_eq_zero, cString_eq_self noNul]
  have steps : ∀ line ∈ lines (· == 0x0a) text, ∀ vars locals, SameSides locals vars →
      (test.parseDeadzoneLine file vars line).bad = false →
      SameSides (calDeadzoneLine locals line) (test.parseDeadzoneLine file vars line) :=
    fun line member _ _ same good =>
      calDeadzoneLine_follows same good (plain line member).1 (plain line member).2
  exact (foldl_simulates parseDeadzone_earlier steps SameSides.initial ends).localsGood

theorem calParseDeadzone_lines (accepted : (calParseDeadzone text).1 = 0) :
    ∀ line ∈ lines (· == 0x0a) text, line.length < lineSize ∧ IntValue line := by
  intro line member
  have ends := calParseDeadzone_eq_zero.mp accepted
  rw [cString_eq_self noNul] at ends
  rcases step_not_refused_of_foldl calDeadzone_earlier ends member with ⟨before, good⟩
  exact ⟨(calDeadzoneLine_good good).2.1, intValue_of_good good⟩

theorem parseDeadzone_lines (accepted : (test.parseDeadzone file text).1 = 0) :
    ∀ line ∈ lines (· == 0x0a) text, BareValue line := by
  intro line member
  have ends := parseDeadzone_eq_zero.mp accepted
  rw [readLines_of_noNul noNul] at ends
  rcases step_not_refused_of_foldl parseDeadzone_earlier ends member with ⟨before, good⟩
  exact bareValue_of_good good

end DeadzoneFiles

/-! ## Agreement -/

/-- Both reject the text, or both take it with the same numbers. -/
def Agree (app : Except String CalCfg) (script : Except (List UInt8) (List UInt8)) : Prop :=
  (∃ cfg, app = .ok cfg ∧ script = .ok cfg.numbersLine) ∨
    (∃ error, app = .error error) ∧ ∃ message, script = .error message

/-- Both reject the text, or both take it with the same percentages. -/
def AgreeDeadzone (app : Int × Int × Int) (script : Int × List UInt8) : Prop :=
  app.1 = 0 ∧ script = (0, percentsLine app.2.1 app.2.2) ∨ app.1 ≠ 0 ∧ script.1 ≠ 0

/-- The readers agree on a calibration unless the application takes a value of
more than three digits or the script takes a line of 64 bytes or more. They
agree on deadzones unless the application takes a value that is not digits alone,
or the script takes such a line or a number beyond `int`. -/
theorem readers_agree (test : TestGt) (file text : List UInt8) (noNul : ∀ byte ∈ text, byte ≠ 0) :
    (Agree (calParse text) (parseCal file text) ↔
      ((∃ cfg, calParse text = .ok cfg) →
        ∀ line ∈ lines (· == 0x0a) text, ValueAtMost 3 line) ∧
      ((∃ out, parseCal file text = .ok out) →
        ∀ line ∈ lines (· == 0x0a) text, line.length < lineSize)) ∧
    (AgreeDeadzone (calParseDeadzone text) (test.parseDeadzone file text) ↔
      ((calParseDeadzone text).1 = 0 → ∀ line ∈ lines (· == 0x0a) text, BareValue line) ∧
      ((test.parseDeadzone file text).1 = 0 →
        ∀ line ∈ lines (· == 0x0a) text, line.length < lineSize ∧ IntValue line)) := by
  constructor
  · constructor
    · rintro (⟨cfg, app, script⟩ | ⟨⟨error, app⟩, message, script⟩)
      · exact ⟨fun _ => parseCal_lines noNul script, fun _ => calParse_lines noNul app⟩
      · constructor
        · rintro ⟨cfg, taken⟩
          rw [app] at taken
          cases taken
        · rintro ⟨out, taken⟩
          rw [script] at taken
          cases taken
    · rintro ⟨values, short⟩
      cases app : calParse text with
      | ok cfg => exact .inl ⟨cfg, rfl, parseCal_of_calParse noNul app (values ⟨cfg, app⟩)⟩
      | error error =>
          cases script : parseCal file text with
          | error message => exact .inr ⟨⟨error, rfl⟩, message, rfl⟩
          | ok out =>
              rcases calParse_of_parseCal noNul script (short ⟨out, script⟩) with ⟨cfg, taken, _⟩
              rw [app] at taken
              cases taken
  · constructor
    · rintro (⟨app, script⟩ | ⟨app, script⟩)
      · have accepted : (test.parseDeadzone file text).1 = 0 := by rw [script]
        exact ⟨fun _ => parseDeadzone_lines noNul accepted, fun _ => calParseDeadzone_lines noNul app⟩
      · exact ⟨fun taken => absurd taken app, fun taken => absurd taken script⟩
    · rintro ⟨bare, plain⟩
      by_cases app : (calParseDeadzone text).1 = 0
      · exact .inl ⟨app, parseDeadzone_of_calParseDeadzone noNul app (bare app)⟩
      · refine .inr ⟨app, fun script => app ?_⟩
        exact calParseDeadzone_of_parseDeadzone noNul script (plain script)

/-- A shell that compares any two numbers. -/
def exactTest : TestGt where
  greater n bound := decide (bound < value n)
  greater_decimal n bound _ _ := by rw [value_decimal]

def sampleText : List UInt8 :=
  ascii "x_min=2\nx_max=223\ny_min=25\ny_max=239\nx_zero=103\ny_zero=139\n"

theorem sampleFiles_agree :
    Agree (calParse sampleText) (parseCal [] sampleText) ∧
      ∀ line ∈ lines (· == 0x0a) sampleText, line.length < lineSize := by
  have noNul : ∀ byte ∈ sampleText, byte ≠ 0 := fun byte member =>
    bne_iff_ne.mp (List.all_eq_true.mp (by decide : sampleText.all (· != 0) = true) byte member)
  have app : calParse sampleText = .ok sampleCfg := eq_ok_of_toOption (by decide +kernel)
  have script : parseCal [] sampleText = .ok sampleCfg.numbersLine :=
    eq_ok_of_toOption (by decide +kernel)
  have agree : Agree (calParse sampleText) (parseCal [] sampleText) := .inl ⟨_, app, script⟩
  exact ⟨agree, ((readers_agree exactTest [] sampleText noNul).1.mp agree).2 ⟨_, script⟩⟩

theorem not_agree_of_app {app : Except String CalCfg} {script : Except (List UInt8) (List UInt8)}
    (taken : app.toOption.isSome = true) (rejected : script.toOption = none) : ¬Agree app script := by
  rintro (⟨cfg, _, isScript⟩ | ⟨⟨error, isApp⟩, _⟩)
  · rw [isScript] at rejected
    cases rejected
  · rw [isApp] at taken
    cases taken

theorem not_agree_of_script {app : Except String CalCfg} {script : Except (List UInt8) (List UInt8)}
    (rejected : app.toOption = none) (taken : script.toOption.isSome = true) : ¬Agree app script := by
  rintro (⟨cfg, isApp, _⟩ | ⟨_, message, isScript⟩)
  · rw [isApp] at rejected
    cases rejected
  · rw [isScript] at taken
    cases taken

def wideText : List UInt8 :=
  ascii "x_min=0002\nx_max=223\ny_min=25\ny_max=239\nx_zero=103\ny_zero=139\n"

def commentedText : List UInt8 :=
  0x23 :: List.replicate 63 0x2d ++ 0x0a :: sampleText

def trailedText : List UInt8 :=
  sampleText ++ 0x00 :: ascii "end"

/-- A fourth digit, a long comment, text after a NUL and a carriage return each
divide the readers. -/
theorem readers_disagree :
    ¬Agree (calParse wideText) (parseCal [] wideText) ∧
      ¬Agree (calParse commentedText) (parseCal [] commentedText) ∧
      ¬Agree (calParse trailedText) (parseCal [] trailedText) ∧
      ¬AgreeDeadzone (calParseDeadzone (ascii "left=5\r\n"))
        (exactTest.parseDeadzone [] (ascii "left=5\r\n")) := by
  refine ⟨?_, ?_, ?_, ?_⟩
  · exact not_agree_of_app (by decide +kernel) (by decide +kernel)
  · exact not_agree_of_script (by decide +kernel) (by decide +kernel)
  · exact not_agree_of_app (by decide +kernel) (by decide +kernel)
  · have app : (calParseDeadzone (ascii "left=5\r\n")).1 = 0 := by decide +kernel
    have script : (exactTest.parseDeadzone [] (ascii "left=5\r\n")).1 = 1 := by decide +kernel
    rintro (⟨_, same⟩ | ⟨rejected, _⟩)
    · rw [same] at script
      cases script
    · exact rejected app

end Zlyme.Gamepad
