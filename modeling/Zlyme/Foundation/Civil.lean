import Zlyme.Foundation.Decimal

/-! # Civil time

Dates of the Gregorian calendar in UTC, as seconds from 1970, and numbers of a fixed width.
-/

namespace Foundation.Civil

/-! ## The calendar -/

def isLeap (year : Nat) : Bool :=
  year % 4 == 0 && (year % 100 != 0 || year % 400 == 0)

def monthLengths (year : Nat) : List Nat :=
  [31, if isLeap year then 29 else 28, 31, 30, 31, 30, 31, 31, 30, 31, 30, 31]

/-- The leap years from 0 on that are before this one. -/
def leapsBefore (year : Nat) : Nat :=
  (year + 3) / 4 + (year + 399) / 400 - (year + 99) / 100

/-- From the start of 1970 to the first day of a month. The months count from 0. -/
def daysBefore (year month : Nat) : Int :=
  365 * ((year : Int) - 1970) + leapsBefore year - leapsBefore 1970 +
    (((monthLengths year).take month).foldl (· + ·) 0 : Nat)

/-- The second of a time. A day of 0 is the last one of the month before, and the other numbers
overflow in the same way. -/
def instant (year month day hour minute second : Nat) : Int :=
  (((daysBefore year month + day - 1) * 24 + hour) * 60 + minute) * 60 + second

example : instant 1970 0 1 0 0 0 = 0 := by decide

example : instant 2026 8 15 1 32 0 = 1789435920 := by decide

/-- A time that there is. -/
structure Moment where
  year : Nat
  month : Fin 12
  day : Nat
  hour : Nat
  minute : Nat
  second : Nat
  year_lt : year < 10000
  day_pos : 0 < day
  day_le : day ≤ (monthLengths year).getD month 0
  hour_lt : hour < 24
  minute_lt : minute < 60
  /-- 60 is a leap second, which counts as the second after it. -/
  second_le : second ≤ 60

def Moment.instant (time : Moment) : Int :=
  Civil.instant time.year time.month time.day time.hour time.minute time.second

theorem monthLengths_getD_le (year : Nat) (month : Fin 12) :
    (monthLengths year).getD month 0 ≤ 31 := by
  unfold monthLengths
  cases isLeap year <;> revert month <;> decide

theorem Moment.day_le_31 (time : Moment) : time.day ≤ 31 :=
  Nat.le_trans time.day_le (monthLengths_getD_le time.year time.month)

/-- Another day of the month is another instant. -/
theorem instant_day_inj {year month day other hour minute second : Nat}
    (same : instant year month day hour minute second = instant year month other hour minute second) :
    day = other := by
  unfold instant at same
  omega

/-! ## Numbers of a fixed width -/

def digitByte (digit : Nat) : UInt8 :=
  (0x30 + digit).toUInt8

/-- The last digits of a number. -/
def digits : Nat → Nat → List UInt8
  | 0, _ => []
  | width + 1, n => digits width (n / 10) ++ [digitByte (n % 10)]

@[simp] theorem digits_length (width n : Nat) : (digits width n).length = width := by
  induction width generalizing n with
  | zero => rfl
  | succ width induction => simp [digits, induction]

open Decimal in
theorem isDigit_digitByte {digit : Nat} (small : digit < 10) :
    isDigit (digitByte digit) = true ∧ digitValue (digitByte digit) = digit := by
  have all : ∀ digit < 10, isDigit (digitByte digit) = true ∧ digitValue (digitByte digit) = digit := by
    decide
  exact all digit small

theorem exists_of_mem_digits {width n : Nat} {byte : UInt8} (member : byte ∈ digits width n) :
    ∃ digit < 10, byte = digitByte digit := by
  induction width generalizing n with
  | zero => cases member
  | succ width induction =>
      rw [digits, List.mem_append, List.mem_singleton] at member
      rcases member with before | rfl
      · exact induction before
      · exact ⟨n % 10, Nat.mod_lt n (by decide), rfl⟩

/-- A number that fits is read back. -/
theorem value_digits {width n : Nat} (fits : n < 10 ^ width) : Decimal.value (digits width n) = n := by
  induction width generalizing n with
  | zero =>
      have zero : n = 0 := by simpa using fits
      rw [zero]
      rfl
  | succ width induction =>
      have quotient : n / 10 < 10 ^ width := by
        rw [Nat.pow_succ] at fits
        omega
      rw [digits, Decimal.value_append_digit, induction quotient,
        (isDigit_digitByte (Nat.mod_lt n (by decide))).2]
      omega

end Foundation.Civil
