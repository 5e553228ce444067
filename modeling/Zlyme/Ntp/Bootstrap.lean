import Zlyme.Foundation.Civil
import Zlyme.Foundation.Execution
import Zlyme.Foundation.Text
import Mathlib.Data.List.DropRight

/-! # The first time of the clock

Before `ntpd` starts, `S49ntp` sets a clock that is still before 2024 from the `Date` header of
an HTTP response.
-/

namespace Zlyme.Ntp.Bootstrap

open Foundation.Civil Foundation.Decimal Foundation.Text

abbrev Text : Type :=
  List UInt8

def ascii (literal : String) : Text :=
  literal.toList.map Char.toUInt8

def newline : UInt8 :=
  0x0a

def blank : UInt8 :=
  0x20

def tab : UInt8 :=
  0x09

def carriageReturn : UInt8 :=
  0x0d

/-! ## The shell and its tools -/

/-- What `$(...)` makes of an output. -/
def substitute (output : Text) : Text :=
  (output.filter (· != 0)).rdropWhile (· == newline)

/-- `[[:space:]]` -/
def isSpace (byte : UInt8) : Bool :=
  byte == blank || (0x09 ≤ byte && byte ≤ 0x0d)

/-- A field ends at a byte of `IFS`. -/
def isFieldBreak (byte : UInt8) : Bool :=
  byte == blank || byte == tab || byte == newline

/-- A word with none of these is not a pattern. -/
def isGlobByte (byte : UInt8) : Bool :=
  (ascii "*?[\\").contains byte

/-- The digits of a number in a base, as `strtoll` reads all of them. -/
def numeral (base : Nat) (text : Text) : Option Nat :=
  if text = [] then none
  else text.foldlM (fun number byte =>
    let digit :=
      if 0x30 ≤ byte ∧ byte ≤ 0x39 then byte.toNat - 0x30
      else if 0x61 ≤ byte ∧ byte ≤ 0x7a then byte.toNat - 0x61 + 10
      else if 0x41 ≤ byte ∧ byte ≤ 0x5a then byte.toNat - 0x41 + 10
      else base
    if digit < base then some (number * base + digit) else none) 0

/-- A number in base 0: a leading 0 is octal, and a leading 0x hexadecimal. -/
def magnitude : Text → Option Nat
  | [] => none
  | [byte] => numeral 10 [byte]
  | byte :: next :: rest =>
      if byte = 0x30 then
        if next = 0x78 ∨ next = 0x58 then numeral 16 rest else numeral 8 (next :: rest)
      else numeral 10 (byte :: next :: rest)

/-- `bb_strtoll`, where all of the text is a number that fits. -/
def signedNumber (text : Text) : Option Int :=
  let number : Option Int :=
    match text with
    | [] => none
    | byte :: rest =>
        if byte = 0x2d then (magnitude rest).map fun n => -(n : Int)
        else (magnitude (byte :: rest)).map fun n => (n : Int)
  number.filter fun n => decide (-9223372036854775808 ≤ n ∧ n ≤ 9223372036854775807)

/-- The number that `printf %d` takes from its argument. -/
def printfNumber (argument : Text) : Int :=
  match argument.dropWhile isSpace with
  | [] => 0
  | byte :: rest =>
      if byte = 0x22 ∨ byte = 0x27 then rest.headD 0 |>.toNat
      else if byte = 0x2b then (signedNumber rest).getD 0
      else (signedNumber (byte :: rest)).getD 0

/-- `printf %02d` -/
def printf02d (argument : Text) : Text :=
  let number := signedDecimal (printfNumber argument)
  if number.length < 2 then 0x30 :: number else number

/-- `year-month-day hour:minute:second` -/
def numericStamp (year month day hour minute second : Nat) : Text :=
  digits 4 year ++ 0x2d :: digits 2 month ++ 0x2d :: digits 2 day ++ blank :: digits 2 hour ++
    0x3a :: digits 2 minute ++ 0x3a :: digits 2 second

/-- The pathname expansion of the shell, and `date`. A time that `date` sets is in seconds from
1970. -/
structure Tools where
  glob : Text → List Text
  /-- A word without wildcards stands for itself. -/
  glob_plain : ∀ word : Text, (∀ byte ∈ word, isGlobByte byte = false) → glob word = [word]
  /-- `date -u -s stamp` -/
  dateSet : Text → Option Int
  /-- Numbers that overflow are carried over. -/
  dateSet_numeric : ∀ (year : Nat) (month : Fin 12) (day hour minute second : Nat),
    year < 10000 → day < 100 → hour < 100 → minute < 100 → second < 100 →
    dateSet (numericStamp year (month + 1) day hour minute second) =
      some (instant year month day hour minute second)
  /-- `date -u -D "%a, %d %b %Y %H:%M:%S GMT" -s hdr` -/
  dateSetHeader : Text → Option Int

/-! ## The code -/

/-- `^[Dd]ate:` -/
def isDateLine (line : Text) : Bool :=
  (ascii "Date:").isPrefixOf line || (ascii "date:").isPrefixOf line

/-- `$(fetch_date)`, from what `curl` prints. -/
def fetchDate (response : Text) : Text :=
  match (lines (· == newline) response).find? isDateLine with
  | some line => substitute (((line.drop 5).dropWhile isSpace).filter (· != carriageReturn))
  | none => []

def months : List (Text × Text) :=
  [("Jan", "01"), ("Feb", "02"), ("Mar", "03"), ("Apr", "04"), ("May", "05"), ("Jun", "06"),
    ("Jul", "07"), ("Aug", "08"), ("Sep", "09"), ("Oct", "10"), ("Nov", "11"), ("Dec", "12")].map
    fun row => (ascii row.1, ascii row.2)

/-- What `http_date_to_stamp` prints, which is nothing where it fails. -/
def httpDateToStamp (tools : Tools) (hdr : Text) : Text :=
  let fields := (words isFieldBreak hdr).flatMap tools.glob
  let day := fields.getD 1 []
  let mon := fields.getD 2 []
  let year := fields.getD 3 []
  let time := fields.getD 4 []
  match months.find? (·.1 == mon) with
  | some row =>
      if day ≠ [] ∧ year ≠ [] ∧ time ≠ [] then
        year ++ 0x2d :: row.2 ++ 0x2d :: printf02d day ++ blank :: time
      else []
  | none => []

/-- `[ -n "$hdr" ] && stamp=$(http_date_to_stamp "$hdr")` -/
def stampOf (tools : Tools) (response : Text) : Text :=
  if fetchDate response ≠ [] then substitute (httpDateToStamp tools (fetchDate response)) else []

/-- One pass of the loop, with what the clock is set to. -/
def attempt (tools : Tools) (response : Text) : Option Int :=
  (if stampOf tools response ≠ [] then tools.dateSet (stampOf tools response) else none).or
    (if fetchDate response ≠ [] then tools.dateSetHeader (fetchDate response) else none)

/-- The loop of `bootstrap`. -/
structure Loop where
  i : Nat
  returned : Bool
  fetches : Nat
  /-- What the clock has been set to. -/
  sets : List Int

def Loop.start : Loop :=
  ⟨0, false, 0, []⟩

def Loop.Ended (tries : Nat) (loop : Loop) : Prop :=
  loop.returned = true ∨ tries ≤ loop.i

instance (tries : Nat) (loop : Loop) : Decidable (loop.Ended tries) :=
  inferInstanceAs (Decidable (_ ∨ _))

/-- The body of the loop. -/
def Loop.pass (tools : Tools) (responses : Nat → Text) (loop : Loop) : Loop :=
  match attempt tools (responses loop.fetches) with
  | some instant =>
      { loop with returned := true, fetches := loop.fetches + 1, sets := loop.sets ++ [instant] }
  | none => { loop with i := loop.i + 1, fetches := loop.fetches + 1 }

/-- The loop after at most so many passes. -/
def Loop.after (tools : Tools) (tries : Nat) (responses : Nat → Text) : Nat → Loop → Loop
  | 0, loop => loop
  | passes + 1, loop =>
      if loop.Ended tries then loop
      else Loop.after tools tries responses passes (loop.pass tools responses)

/-- Whether the clock is to be set. -/
def isOld (year : Text) : Bool :=
  year != [] && year.all isDigit && value year < 2024

/-- `bootstrap`, in a year that `date +%Y` prints. -/
def bootstrap (tools : Tools) (tries : Nat) (year : Text) (responses : Nat → Text) (passes : Nat) :
    Loop :=
  if isOld year then Loop.start.after tools tries responses passes
  else { Loop.start with returned := true }

/-! ## Valid headers -/

structure HttpDate extends Moment where
  weekday : Fin 7

def weekdays : List Text :=
  ["Mon", "Tue", "Wed", "Thu", "Fri", "Sat", "Sun"].map ascii

def HttpDate.time (date : HttpDate) : Text :=
  digits 2 date.hour ++ 0x3a :: digits 2 date.minute ++ 0x3a :: digits 2 date.second

def HttpDate.monthName (date : HttpDate) : Text :=
  (months.getD date.month ([], [])).1

def HttpDate.fields (date : HttpDate) : List Text :=
  [weekdays.getD date.weekday [] ++ [0x2c], digits 2 date.day, date.monthName,
    digits 4 date.year, date.time, ascii "GMT"]

/-- `Tue, 15 Sep 2026 01:32:00 GMT` -/
def HttpDate.text (date : HttpDate) : Text :=
  joined blank date.fields

/-- The first `Date` header of a response is this time, with blanks around it. -/
def Names (response : Text) (date : HttpDate) : Prop :=
  ∃ line before after, (lines (· == newline) response).find? isDateLine = some line ∧
    line.drop 5 = before ++ (date.text ++ after) ∧
    (∀ byte ∈ before, byte = blank ∨ byte = tab) ∧
    ∀ byte ∈ after, byte = blank ∨ byte = tab ∨ byte = carriageReturn

/-! ## The stamp of a valid header -/

/-- A byte of a word that every tool leaves as it is. -/
def isPlain (byte : UInt8) : Bool :=
  !isSpace byte && !isGlobByte byte && byte != 0

theorem isPlain_digits {width n : Nat} : ∀ byte ∈ digits width n, isPlain byte = true := by
  intro byte member
  rcases exists_of_mem_digits member with ⟨digit, small, rfl⟩
  have all : ∀ digit < 10, isPlain (digitByte digit) = true := by decide
  exact all digit small

theorem isPlain_fields (date : HttpDate) :
    ∀ word ∈ date.fields, word ≠ [] ∧ ∀ byte ∈ word, isPlain byte = true := by
  have names : ∀ weekday : Fin 7, (weekdays.getD weekday []).all isPlain = true := by decide
  have monthNames : ∀ month : Fin 12, (months.getD month ([], [])).1 ≠ [] ∧
      (months.getD month ([], [])).1.all isPlain = true := by
    decide
  have marks : isPlain 0x2c = true ∧ isPlain 0x3a = true ∧ (ascii "GMT").all isPlain = true := by
    decide
  have filled : ∀ width n, digits (width + 1) n ≠ [] := by
    intro width n
    simp [digits]
  simp only [HttpDate.fields, List.forall_mem_cons, List.forall_mem_append]
  have named := monthNames date.month
  refine ⟨⟨by simp, List.all_eq_true.mp (names date.weekday), marks.1, by simp⟩,
    ⟨filled 1 _, isPlain_digits⟩, ⟨named.1, List.all_eq_true.mp named.2⟩,
    ⟨filled 3 _, isPlain_digits⟩, ⟨?_, ?_⟩, ⟨by decide, List.all_eq_true.mp marks.2.2⟩, by simp⟩
  · simp [HttpDate.time]
  · simp only [HttpDate.time, List.forall_mem_append, List.forall_mem_cons]
    exact ⟨⟨isPlain_digits, marks.2.1, isPlain_digits⟩, marks.2.1, isPlain_digits⟩

theorem plain_facts {byte : UInt8} (plain : isPlain byte = true) :
    isSpace byte = false ∧ isGlobByte byte = false ∧ byte ≠ 0 := by
  simpa [isPlain, and_assoc] using plain

theorem isFieldBreak_of_plain {byte : UInt8} (plain : isPlain byte = true) :
    isFieldBreak byte = false := by
  have notSpace := (plain_facts plain).1
  cases breaks : isFieldBreak byte with
  | false => rfl
  | true =>
      simp only [isFieldBreak, Bool.or_eq_true, beq_iff_eq] at breaks
      rcases breaks with (rfl | rfl) | rfl <;> cases notSpace

/-- A byte of the text of a date is not changed on the way to the shell. -/
theorem text_kept (date : HttpDate) :
    ∀ byte ∈ date.text, byte ≠ carriageReturn ∧ byte ≠ 0 ∧ byte ≠ newline := by
  intro byte member
  rcases mem_joined member with rfl | ⟨word, isWord, inWord⟩
  · decide
  · have plain := plain_facts ((isPlain_fields date word isWord).2 byte inWord)
    refine ⟨?_, plain.2.2, ?_⟩
    · rintro rfl
      exact absurd plain.1 (by decide)
    · rintro rfl
      exact absurd plain.1 (by decide)

theorem text_head (date : HttpDate) : ∃ byte rest, date.text = byte :: rest ∧ isSpace byte = false := by
  rcases field : date.fields with _ | ⟨first, later⟩
  · cases field
  · have isFirst := isPlain_fields date first (field ▸ List.mem_cons_self)
    rcases first with _ | ⟨byte, rest⟩
    · exact absurd rfl isFirst.1
    · have notSpace := (plain_facts (isFirst.2 byte List.mem_cons_self)).1
      rw [HttpDate.text, field]
      cases later with
      | nil => exact ⟨byte, rest, joined_single _ _, notSpace⟩
      | cons next later =>
          rw [joined_cons]
          exact ⟨byte, _, rfl, notSpace⟩

theorem substitute_eq_self {output : Text} (kept : ∀ byte ∈ output, byte ≠ 0 ∧ byte ≠ newline) :
    substitute output = output := by
  have filtered : output.filter (· != 0) = output := by
    rw [List.filter_eq_self]
    intro byte member
    simpa using (kept byte member).1
  rw [substitute, filtered, List.rdropWhile_eq_self_iff]
  intro nonempty
  simpa using (kept _ (List.getLast_mem nonempty)).2

/-- The header that the loop reads is the date, with blanks after it. -/
theorem fetchDate_of_names {response : Text} {date : HttpDate} (names : Names response date) :
    ∃ after, fetchDate response = date.text ++ after ∧ ∀ byte ∈ after, byte = blank ∨ byte = tab := by
  rcases names with ⟨line, before, after, isLine, split, beforeBlank, afterBlank⟩
  rcases text_head date with ⟨first, rest, isText, notSpace⟩
  have skipped : (line.drop 5).dropWhile isSpace = date.text ++ after := by
    rw [split, isText, List.dropWhile_append_of_pos]
    · rw [List.cons_append, List.dropWhile_cons_of_neg (by simp [notSpace])]
    · intro byte member
      rcases beforeBlank byte member with rfl | rfl <;> rfl
  have textKept : date.text.filter (· != carriageReturn) = date.text := by
    rw [List.filter_eq_self]
    intro byte member
    simpa using (text_kept date byte member).1
  have afterKept : ∀ byte ∈ after.filter (· != carriageReturn), byte = blank ∨ byte = tab := by
    intro byte member
    rcases List.mem_filter.mp member with ⟨inAfter, differs⟩
    rcases afterBlank byte inAfter with isBlank | isTab | rfl
    · exact .inl isBlank
    · exact .inr isTab
    · cases differs
  refine ⟨after.filter (· != carriageReturn), ?_, afterKept⟩
  simp only [fetchDate, isLine]
  rw [skipped, List.filter_append, textKept]
  apply substitute_eq_self
  intro byte member
  rcases List.mem_append.mp member with inText | inAfter
  · exact (text_kept date byte inText).2
  · rcases afterKept byte inAfter with rfl | rfl <;> decide

theorem words_eq_nil {after : Text} (blanks : ∀ byte ∈ after, byte = blank ∨ byte = tab) :
    words isFieldBreak after = [] := by
  induction after with
  | nil => rfl
  | cons byte rest induction =>
      have breaks : isFieldBreak byte = true := by
        rcases blanks byte List.mem_cons_self with rfl | rfl <;> rfl
      have later := induction fun other member => blanks other (List.mem_cons_of_mem byte member)
      rw [words] at later ⊢
      rw [lines, if_pos breaks, List.filter_cons]
      simpa using later

/-- The shell splits the header into its fields. -/
theorem words_of_date (date : HttpDate) {after : Text}
    (blanks : ∀ byte ∈ after, byte = blank ∨ byte = tab) :
    words isFieldBreak (date.text ++ after) = date.fields := by
  have filled : ∀ word ∈ date.fields, word ≠ [] := fun word member =>
    (isPlain_fields date word member).1
  have unbroken : ∀ word ∈ date.fields, ∀ byte ∈ word, isFieldBreak byte = false :=
    fun word member byte inWord => isFieldBreak_of_plain ((isPlain_fields date word member).2 byte inWord)
  cases after with
  | nil => rw [List.append_nil, HttpDate.text, words_joined filled unbroken rfl]
  | cons byte rest =>
      have breaks : isFieldBreak byte = true := by
        rcases blanks byte List.mem_cons_self with rfl | rfl <;> rfl
      rw [HttpDate.text, words_joined_append filled unbroken rfl breaks,
        words_eq_nil fun other member => blanks other (List.mem_cons_of_mem byte member), List.append_nil]

/-- No field is a pattern. -/
theorem flatMap_glob (tools : Tools) (date : HttpDate) : date.fields.flatMap tools.glob = date.fields := by
  have plain : ∀ word ∈ date.fields, tools.glob word = [word] := fun word member =>
    tools.glob_plain word fun byte inWord =>
      (plain_facts ((isPlain_fields date word member).2 byte inWord)).2.1
  calc
    date.fields.flatMap tools.glob = date.fields.flatMap fun word => [word] :=
      List.flatMap_congr plain
    _ = date.fields := by simp

/-- What `printf %02d` makes of the day: 08 and 09 are no octal numbers. -/
def readDay (day : Nat) : Nat :=
  if day = 8 ∨ day = 9 then 0 else day

theorem printf02d_day {day : Nat} (small : day ≤ 31) :
    printf02d (digits 2 day) = digits 2 (readDay day) := by
  have all : ∀ day < 32, printf02d (digits 2 day) = digits 2 (readDay day) := by decide
  exact all day (by omega)

theorem find_month (month : Fin 12) :
    months.find? (·.1 == (months.getD month ([], [])).1) =
      some ((months.getD month ([], [])).1, digits 2 (month + 1)) := by
  revert month
  decide

def HttpDate.stamp (date : HttpDate) : Text :=
  numericStamp date.year (date.month + 1) (readDay date.day) date.hour date.minute date.second

theorem httpDateToStamp_of_date (tools : Tools) (date : HttpDate) {after : Text}
    (blanks : ∀ byte ∈ after, byte = blank ∨ byte = tab) :
    httpDateToStamp tools (date.text ++ after) = date.stamp := by
  have filled : ∀ width n, digits (width + 1) n ≠ [] := by
    intro width n
    simp [digits]
  have timed : date.time ≠ [] := by simp [HttpDate.time]
  simp only [httpDateToStamp, words_of_date date blanks, flatMap_glob tools date]
  simp only [HttpDate.fields, List.getD_cons_succ, List.getD_cons_zero, HttpDate.monthName, find_month,
    printf02d_day date.day_le_31]
  rw [if_pos ⟨filled 1 _, filled 3 _, timed⟩]
  simp [HttpDate.stamp, numericStamp, HttpDate.time]

theorem stamp_kept (date : HttpDate) :
    date.stamp ≠ [] ∧ ∀ byte ∈ date.stamp, byte ≠ 0 ∧ byte ≠ newline := by
  constructor
  · simp [HttpDate.stamp, numericStamp]
  · have digitsKept : ∀ width n, ∀ byte ∈ digits width n, byte ≠ 0 ∧ byte ≠ newline := by
      intro width n byte member
      rcases exists_of_mem_digits member with ⟨digit, small, rfl⟩
      have all : ∀ digit < 10, digitByte digit ≠ 0 ∧ digitByte digit ≠ newline := by decide
      exact all digit small
    have marks : ((0x2d : UInt8) ≠ 0 ∧ 0x2d ≠ newline) ∧ (blank ≠ 0 ∧ blank ≠ newline) ∧
        (0x3a : UInt8) ≠ 0 ∧ 0x3a ≠ newline := by
      decide
    simp only [HttpDate.stamp, numericStamp, List.forall_mem_append, List.forall_mem_cons]
    exact ⟨⟨⟨⟨⟨digitsKept 4 _, marks.1, digitsKept 2 _⟩, marks.1, digitsKept 2 _⟩, marks.2.1,
      digitsKept 2 _⟩, marks.2.2, digitsKept 2 _⟩, marks.2.2, digitsKept 2 _⟩

/-- The time that a valid header sets the clock to. -/
theorem attempt_of_names (tools : Tools) {response : Text} {date : HttpDate}
    (names : Names response date) : attempt tools response =
      some (instant date.year date.month (readDay date.day) date.hour date.minute date.second) := by
  rcases fetchDate_of_names names with ⟨after, fetched, blanks⟩
  have nonempty : fetchDate response ≠ [] := by
    rcases text_head date with ⟨byte, rest, isText, -⟩
    simp [fetched, isText]
  have stamped : stampOf tools response = date.stamp := by
    rw [stampOf, if_pos nonempty, fetched, httpDateToStamp_of_date tools date blanks,
      substitute_eq_self (stamp_kept date).2]
  have day : readDay date.day < 100 := by
    have small := date.day_le_31
    unfold readDay
    split <;> omega
  have numeric := tools.dateSet_numeric date.year date.month (readDay date.day) date.hour date.minute
    date.second date.year_lt day (by have := date.hour_lt; omega) (by have := date.minute_lt; omega)
    (by have := date.second_le; omega)
  rw [attempt, stamped, if_pos (stamp_kept date).1, HttpDate.stamp, numeric]
  rfl

/-- The clock is set to the time of a valid header, but on the eighth and the ninth. -/
theorem readDay_instant_iff (date : HttpDate) :
    instant date.year date.month (readDay date.day) date.hour date.minute date.second =
      date.instant ↔ date.day ≠ 8 ∧ date.day ≠ 9 := by
  constructor
  · intro same
    have day := instant_day_inj same
    unfold readDay at day
    split at day
    · exact absurd day (Nat.ne_of_lt date.day_pos)
    · rename_i other
      exact not_or.mp other
  · intro other
    rw [readDay, if_neg (not_or.mpr other)]
    rfl

/-! ## The loop -/

section Loop

variable {tools : Tools} {tries : Nat} {responses : Nat → Text} {loop : Loop}

/-- What the responses before the end of the loop were. -/
inductive Loop.Traced (tools : Tools) (tries : Nat) (responses : Nat → Text) (loop : Loop) : Prop
  | trying (running : loop.returned = false) (counted : loop.fetches = loop.i)
      (within : loop.i ≤ tries) (unset : loop.sets = [])
      (refused : ∀ j < loop.fetches, attempt tools (responses j) = none)
  | returned (k : Nat) (instant : Int) (isReturned : loop.returned = true) (within : k < tries)
      (counted : loop.fetches = k + 1) (isSet : loop.sets = [instant])
      (taken : attempt tools (responses k) = some instant)
      (refused : ∀ j < k, attempt tools (responses j) = none)

theorem Loop.traced_start : Loop.start.Traced tools tries responses :=
  .trying rfl rfl (Nat.zero_le tries) rfl fun _ before => absurd before (Nat.not_lt_zero _)

theorem Loop.traced_pass (running : ¬loop.Ended tries) (traced : loop.Traced tools tries responses) :
    (loop.pass tools responses).Traced tools tries responses := by
  rw [Loop.Ended, not_or] at running
  cases traced with
  | trying isRunning counted within unset refused =>
      cases tried : attempt tools (responses loop.fetches) with
      | some instant =>
          simp only [Loop.pass, tried]
          exact .returned loop.fetches instant rfl (by omega) rfl (by simp [unset]) tried refused
      | none =>
          simp only [Loop.pass, tried]
          refine .trying isRunning (by simp [counted]) (by simp only; omega) unset ?_
          intro j before
          rcases Nat.lt_succ_iff_lt_or_eq.mp before with earlier | rfl
          · exact refused j earlier
          · exact tried
  | returned k instant isReturned => exact absurd isReturned running.1

theorem Loop.traced_after (passes : Nat) (traced : loop.Traced tools tries responses) :
    (loop.after tools tries responses passes).Traced tools tries responses := by
  induction passes generalizing loop with
  | zero => exact traced
  | succ passes induction =>
      rw [Loop.after]
      split
      · exact traced
      · rename_i running
        exact induction (traced_pass running traced)

/-- Each pass counts or ends the loop. -/
theorem Loop.ended_after {passes : Nat} (enough : tries ≤ loop.i + passes) :
    (loop.after tools tries responses passes).Ended tries := by
  induction passes generalizing loop with
  | zero => exact .inr enough
  | succ passes induction =>
      rw [Loop.after]
      split
      · assumption
      · cases tried : attempt tools (responses loop.fetches) with
        | some instant =>
            simp only [Loop.pass, tried]
            cases passes with
            | zero => exact .inl rfl
            | succ passes =>
                rw [Loop.after, if_pos (.inl rfl)]
                exact .inl rfl
        | none =>
            simp only [Loop.pass, tried]
            apply induction
            simp only
            omega

end Loop

/-! ## The law -/

/-- The loop ends in time, and sets the clock at most once, to the time of the first valid
header. -/
structure Correct (tools : Tools) (tries : Nat) (year : Text) (responses : Nat → Text) : Prop where
  ends : (bootstrap tools tries year responses tries).Ended tries
  fetches_le : ∀ passes, (bootstrap tools tries year responses passes).fetches ≤ tries
  once : ∀ passes, (bootstrap tools tries year responses passes).sets.length ≤ 1
  first : ∀ passes, ∀ instant ∈ (bootstrap tools tries year responses passes).sets,
    ∃ k < (bootstrap tools tries year responses passes).fetches, ∃ date : HttpDate,
      Names (responses k) date ∧ (∀ j < k, ∀ other, ¬Names (responses j) other) ∧
        instant = date.instant

/-- Whether `date` takes the stamp of a response, or its header. -/
def Tools.Takes (tools : Tools) (response : Text) : Prop :=
  (stampOf tools response ≠ [] ∧ (tools.dateSet (stampOf tools response)).isSome = true) ∨
    (fetchDate response ≠ [] ∧ (tools.dateSetHeader (fetchDate response)).isSome = true)

/-- The first response that `date` takes has a valid header, of a day that is an octal number. -/
def Octal (tools : Tools) (tries : Nat) (responses : Nat → Text) : Prop :=
  ∀ k < tries, tools.Takes (responses k) → (∀ j < k, ¬tools.Takes (responses j)) →
    ∃ date : HttpDate, Names (responses k) date ∧ date.day ≠ 8 ∧ date.day ≠ 9

section Law

variable {tools : Tools} {tries : Nat} {year : Text} {responses : Nat → Text}

theorem takes_iff {response : Text} :
    tools.Takes response ↔ ∃ instant, attempt tools response = some instant := by
  rw [← Option.isSome_iff_exists, attempt, Option.isSome_or, Bool.or_eq_true, Tools.Takes]
  by_cases stamped : stampOf tools response = [] <;> by_cases fetched : fetchDate response = [] <;>
    simp [stamped, fetched]

theorem not_takes_iff {response : Text} : ¬tools.Takes response ↔ attempt tools response = none := by
  rw [takes_iff, not_exists, Option.eq_none_iff_forall_ne_some]

theorem takes_of_names {response : Text} {date : HttpDate} (names : Names response date) :
    tools.Takes response :=
  takes_iff.mpr ⟨_, attempt_of_names tools names⟩

theorem traced_bootstrap (old : isOld year = true) (passes : Nat) :
    (bootstrap tools tries year responses passes).Traced tools tries responses := by
  rw [bootstrap, if_pos old]
  exact Loop.traced_after passes Loop.traced_start

theorem correct_of_current (current : isOld year = false) : Correct tools tries year responses := by
  have returned : ∀ passes, bootstrap tools tries year responses passes =
      { Loop.start with returned := true } := by
    intro passes
    rw [bootstrap, if_neg (by simp [current])]
  constructor
  · rw [returned]
    exact .inl rfl
  · intro passes
    simp [returned, Loop.start]
  · intro passes
    simp [returned, Loop.start]
  · intro passes instant isSet
    simp [returned, Loop.start] at isSet

theorem correct_of_octal (old : isOld year = true) (octal : Octal tools tries responses) :
    Correct tools tries year responses := by
  constructor
  · rw [bootstrap, if_pos old]
    exact Loop.ended_after (by simp)
  · intro passes
    cases @traced_bootstrap tools tries year responses old passes with
    | trying _ counted within => omega
    | returned k _ _ within counted => omega
  · intro passes
    cases @traced_bootstrap tools tries year responses old passes with
    | trying _ _ _ unset => simp [unset]
    | returned _ _ _ _ _ isSet => simp [isSet]
  · intro passes instant member
    cases @traced_bootstrap tools tries year responses old passes with
    | trying _ _ _ unset => simp [unset] at member
    | returned k set _ within counted isSet taken refused =>
        have untaken : ∀ j < k, ¬tools.Takes (responses j) := fun j before =>
          not_takes_iff.mpr (refused j before)
        rcases octal k within (takes_iff.mpr ⟨set, taken⟩) untaken with ⟨date, names, day⟩
        have unnamed : ∀ j < k, ∀ other, ¬Names (responses j) other := fun j before other named =>
          untaken j before (takes_of_names named)
        refine ⟨k, by omega, date, names, unnamed, ?_⟩
        rw [attempt_of_names tools names, Option.some.injEq, (readDay_instant_iff date).mpr day] at taken
        rw [isSet, List.mem_singleton] at member
        rw [member, taken]

/-- The loop stops at the first response that is taken. -/
theorem bootstrap_sets (old : isOld year = true) {k : Nat} {instant : Int} (within : k < tries)
    (taken : attempt tools (responses k) = some instant)
    (refused : ∀ j < k, attempt tools (responses j) = none) :
    (bootstrap tools tries year responses tries).sets = [instant] ∧
      (bootstrap tools tries year responses tries).fetches = k + 1 := by
  have ended : (bootstrap tools tries year responses tries).Ended tries := by
    rw [bootstrap, if_pos old]
    exact Loop.ended_after (by simp)
  cases @traced_bootstrap tools tries year responses old tries with
  | trying running counted _ _ allRefused =>
      have whole := ended.resolve_left (by simp [running])
      have none := allRefused k (by omega)
      simp [none] at taken
  | returned other set _ _ counted isSet otherTaken otherRefused =>
      have same : other = k := by
        rcases Nat.lt_trichotomy other k with before | same | after
        · simp [refused other before] at otherTaken
        · exact same
        · simp [otherRefused k after] at taken
      rw [same, taken, Option.some.injEq] at otherTaken
      rw [isSet, counted, same, otherTaken]
      exact ⟨rfl, rfl⟩

theorem octal_of_correct (old : isOld year = true) (correct : Correct tools tries year responses) :
    Octal tools tries responses := by
  intro k within takes untaken
  rcases takes_iff.mp takes with ⟨instant, taken⟩
  have refused : ∀ j < k, attempt tools (responses j) = none := fun j before =>
    not_takes_iff.mp (untaken j before)
  rcases bootstrap_sets old within taken refused with ⟨isSet, counted⟩
  rcases correct.first tries instant (by simp [isSet]) with ⟨other, before, date, names, -, same⟩
  have isLast : other = k := by
    have reached : ¬other < k := fun earlier => untaken other earlier (takes_of_names names)
    omega
  subst isLast
  rw [attempt_of_names tools names, Option.some.injEq, same] at taken
  exact ⟨date, names, (readDay_instant_iff date).mp taken⟩

end Law

/-- The bootstrap is right if and only if the clock is current, or the first response that `date`
takes has a valid header whose day is neither the eighth nor the ninth. -/
theorem bootstrap_correct_iff (tools : Tools) (tries : Nat) (year : Text) (responses : Nat → Text) :
    Correct tools tries year responses ↔ isOld year = true → Octal tools tries responses := by
  constructor
  · intro correct old
    exact octal_of_correct old correct
  · intro octal
    cases old : isOld year with
    | true => exact correct_of_octal old (octal old)
    | false => exact correct_of_current old

/-! ## The eighth of September -/

/-- A `date` that takes numeric stamps only. -/
def numericDate (stamp : Text) : Option Int :=
  let number := fun start width => value ((stamp.drop start).take width)
  let month := number 5 2
  if stamp = numericStamp (number 0 4) month (number 8 2) (number 11 2) (number 14 2) (number 17 2) ∧
      1 ≤ month ∧ month ≤ 12 then
    some (instant (number 0 4) (month - 1) (number 8 2) (number 11 2) (number 14 2) (number 17 2))
  else none

/-- Digits are read where they stand. -/
theorem value_drop_take {text : Text} (front : Text) {back : Text} {width n : Nat} (start : Nat)
    (isText : text = front ++ (digits width n ++ back)) (starts : front.length = start)
    (fits : n < 10 ^ width) : value ((text.drop start).take width) = n := by
  rw [isText, List.drop_left' starts, List.take_left' (digits_length width n), value_digits fits]

theorem numericDate_numeric (year : Nat) (month : Fin 12) (day hour minute second : Nat)
    (isYear : year < 10000) (isDay : day < 100) (isHour : hour < 100) (isMinute : minute < 100)
    (isSecond : second < 100) : numericDate (numericStamp year (month + 1) day hour minute second) =
      some (instant year month day hour minute second) := by
  have isMonth := month.isLt
  let text := numericStamp year (month + 1) day hour minute second
  let date := digits 4 year ++ 0x2d :: digits 2 (month + 1) ++ [0x2d]
  let clock := digits 2 day ++ blank :: digits 2 hour
  have readYear : value ((text.drop 0).take 4) = year :=
    value_drop_take [] 0 (by simp [text, numericStamp]; rfl) rfl isYear
  have readMonth : value ((text.drop 5).take 2) = month + 1 :=
    value_drop_take (digits 4 year ++ [0x2d]) 5 (by simp [text, numericStamp]; rfl) (by simp)
      (by omega)
  have readDay : value ((text.drop 8).take 2) = day :=
    value_drop_take date 8 (by simp [text, date, numericStamp]; rfl) (by simp [date]) isDay
  have readHour : value ((text.drop 11).take 2) = hour :=
    value_drop_take (date ++ digits 2 day ++ [blank]) 11
      (by simp [text, date, numericStamp]; rfl) (by simp [date]) isHour
  have readMinute : value ((text.drop 14).take 2) = minute :=
    value_drop_take (date ++ clock ++ [0x3a]) 14
      (by simp [text, date, clock, numericStamp]; rfl) (by simp [date, clock]) isMinute
  have readSecond : value ((text.drop 17).take 2) = second :=
    @value_drop_take text (date ++ clock ++ 0x3a :: digits 2 minute ++ [0x3a]) [] 2 second 17
      (by simp [text, date, clock, numericStamp]) (by simp [date, clock]) isSecond
  simp only [numericDate]
  rw [readYear, readMonth, readDay, readHour, readMinute, readSecond, if_pos ⟨rfl, by omega, by omega⟩,
    Nat.add_sub_cancel]

def numericTools : Tools where
  glob word := [word]
  glob_plain _ _ := rfl
  dateSet := numericDate
  dateSet_numeric := numericDate_numeric
  dateSetHeader _ := none

def eighthResponse : Text :=
  ascii "HTTP/1.1 301 Moved Permanently\r\nDate: Tue, 08 Sep 2026 01:32:00 GMT\r\n\r\n"

/-- The header says the eighth, and the clock is set to the last of August. -/
theorem eighth_is_wrong :
    attempt numericTools eighthResponse = some (instant 2026 7 31 1 32 0) ∧
      ¬Correct numericTools 8 (ascii "2017") fun _ => eighthResponse := by
  have set : attempt numericTools eighthResponse = some (instant 2026 7 31 1 32 0) := by decide
  refine ⟨set, ?_⟩
  intro correct
  have old : isOld (ascii "2017") = true := by decide
  have takes : numericTools.Takes eighthResponse := takes_iff.mpr ⟨_, set⟩
  rcases octal_of_correct old correct 0 (by decide) takes (by simp) with ⟨date, names, notEighth, -⟩
  -- the second word of the header is the day
  rcases fetchDate_of_names names with ⟨after, fetched, blanks⟩
  have fields := words_of_date date blanks
  rw [← fetched] at fields
  have isEighth : (words isFieldBreak (fetchDate eighthResponse)).getD 1 [] = digits 2 8 := by decide
  rw [fields] at isEighth
  have all : ∀ day < 32, digits 2 day = digits 2 8 → day = 8 := by decide
  exact notEighth (all date.day (Nat.lt_succ_of_le date.day_le_31) isEighth)

end Zlyme.Ntp.Bootstrap
