import Mathlib.Algebra.Group.Nat.Defs
import Mathlib.Data.List.Induction

/-! # Decimal numbers in bytes

The digits that `%u` prints, the number a run of digits spells, and the numbers
C and a shell read from a text.
-/

namespace Foundation.Decimal

def isDigit (byte : UInt8) : Bool :=
  decide (0x30 ≤ byte) && decide (byte ≤ 0x39)

def digitValue (byte : UInt8) : Nat :=
  byte.toNat - 0x30

/-- The number spelled by `text` after the digits of `v`. -/
def valueFrom (v : Nat) (text : List UInt8) : Nat :=
  text.foldl (fun v byte => v * 10 + digitValue byte) v

def value (text : List UInt8) : Nat :=
  valueFrom 0 text

/-- What `%u` prints. -/
def decimal (n : Nat) : List UInt8 :=
  (Nat.toDigits 10 n).map Char.toUInt8

/-- What `%d` prints. -/
def signedDecimal : Int → List UInt8
  | .ofNat n => decimal n
  | .negSucc n => 0x2d :: decimal (n + 1)

/-- Leading zeros removed as long as there is one, and `0` for an empty rest. -/
def stripZeros (text : List UInt8) : List UInt8 :=
  match text.dropWhile fun byte => byte == 0x30 with
  | [] => [0x30]
  | rest => rest

/-! ## The digits of a number -/

theorem isDigit_iff {byte : UInt8} : isDigit byte = true ↔ 0x30 ≤ byte.toNat ∧ byte.toNat ≤ 0x39 := by
  simp only [isDigit, Bool.and_eq_true, decide_eq_true_eq, UInt8.le_iff_toNat_le]
  exact Iff.rfl

@[simp] theorem valueFrom_nil (v : Nat) : valueFrom v [] = v := rfl

@[simp] theorem valueFrom_cons (v : Nat) (byte : UInt8) (rest : List UInt8) :
    valueFrom v (byte :: rest) = valueFrom (v * 10 + digitValue byte) rest := by
  rw [valueFrom, List.foldl_cons, valueFrom]

theorem valueFrom_append (v : Nat) (front back : List UInt8) :
    valueFrom v (front ++ back) = valueFrom (valueFrom v front) back :=
  List.foldl_append

theorem value_append_digit (front : List UInt8) (last : UInt8) :
    value (front ++ [last]) = value front * 10 + digitValue last := by
  rw [value, valueFrom_append, valueFrom_cons, valueFrom_nil, value]

theorem le_valueFrom (v : Nat) (text : List UInt8) : v ≤ valueFrom v text := by
  induction text generalizing v with
  | nil => exact Nat.le_refl v
  | cons byte rest induction =>
      have step := induction (v * 10 + digitValue byte)
      rw [valueFrom_cons]
      omega

theorem toUInt8_digitChar {n : Nat} (small : n < 10) :
    isDigit n.digitChar.toUInt8 = true ∧ digitValue n.digitChar.toUInt8 = n ∧
      (n.digitChar.toUInt8 = 0x30 ↔ n = 0) := by
  revert n
  decide

theorem decimal_of_lt {n : Nat} (small : n < 10) : decimal n = [n.digitChar.toUInt8] := by
  rw [decimal, Nat.toDigits_of_lt_base small, List.map_singleton]

theorem decimal_of_le {n : Nat} (large : 10 ≤ n) :
    decimal n = decimal (n / 10) ++ [(n % 10).digitChar.toUInt8] := by
  rw [decimal, Nat.toDigits_of_base_le (by decide) large, List.map_append, List.map_singleton]
  rfl

theorem decimal_ne_nil (n : Nat) : decimal n ≠ [] := by
  simp [decimal, Nat.toDigits_ne_nil]

theorem decimal_length_le {n k : Nat} (positive : 0 < k) (small : n < 10 ^ k) :
    (decimal n).length ≤ k := by
  rw [decimal, List.length_map]
  exact (Nat.length_toDigits_le_iff (by decide) positive).mpr small

theorem isDigit_of_mem_decimal {n : Nat} {byte : UInt8} (member : byte ∈ decimal n) :
    isDigit byte = true := by
  induction n using Nat.strongRecOn with
  | ind n induction =>
      by_cases small : n < 10
      · rw [decimal_of_lt small] at member
        cases List.mem_singleton.mp member
        exact (toUInt8_digitChar small).1
      · rw [decimal_of_le (Nat.le_of_not_gt small)] at member
        rcases List.mem_append.mp member with front | last
        · exact induction (n / 10) (by omega) front
        · cases List.mem_singleton.mp last
          exact (toUInt8_digitChar (Nat.mod_lt n (by decide))).1

/-- A printed number reads back as itself. -/
theorem value_decimal (n : Nat) : value (decimal n) = n := by
  induction n using Nat.strongRecOn with
  | ind n induction =>
      by_cases small : n < 10
      · rw [decimal_of_lt small]
        rw [value, valueFrom_cons, valueFrom_nil, (toUInt8_digitChar small).2.1]
        exact Nat.zero_add n
      · have quotient := induction (n / 10) (by omega)
        have digit := (toUInt8_digitChar (Nat.mod_lt n (by decide : 10 > 0))).2.1
        rw [value] at quotient ⊢
        rw [decimal_of_le (Nat.le_of_not_gt small), valueFrom_append, quotient, valueFrom_cons,
          valueFrom_nil, digit]
        omega

/-! ## The number of a run of digits -/

theorem digit_eq {byte : UInt8} (isDigit : isDigit byte = true) :
    (digitValue byte).digitChar.toUInt8 = byte ∧ digitValue byte < 10 := by
  have bounds := isDigit_iff.mp isDigit
  have small : digitValue byte < 10 := by
    rw [digitValue]
    omega
  have spelled := (toUInt8_digitChar small).1
  have same := (toUInt8_digitChar small).2.1
  have spelledBounds := isDigit_iff.mp spelled
  refine ⟨UInt8.toNat_inj.mp ?_, small⟩
  rw [digitValue, digitValue] at same
  rw [digitValue]
  rw [digitValue] at spelledBounds
  omega

/-- A run of digits without a leading zero is what its number prints. -/
theorem decimal_value {text : List UInt8} (digits : ∀ byte ∈ text, isDigit byte = true)
    (first : ∃ byte rest, text = byte :: rest ∧ byte ≠ 0x30) :
    decimal (value text) = text ∧ 0 < value text := by
  induction text using List.reverseRecOn with
  | nil =>
      rcases first with ⟨byte, rest, impossible, _⟩
      cases impossible
  | append_singleton front last induction =>
      rcases digit_eq (digits last (by simp)) with ⟨spelled, small⟩
      rcases first with ⟨byte, rest, equal, nonzero⟩
      cases front with
      | nil =>
          cases equal
          have positive : digitValue last ≠ 0 := by
            intro zero
            rw [zero] at spelled
            exact nonzero spelled.symm
          have whole : value ([] ++ [last]) = digitValue last := by
            rw [value_append_digit, value, valueFrom_nil, Nat.zero_mul, Nat.zero_add]
          rw [whole, decimal_of_lt small, spelled]
          exact ⟨rfl, Nat.pos_of_ne_zero positive⟩
      | cons head tail =>
          rw [List.cons_append, List.cons.injEq] at equal
          have frontFirst : ∃ byte rest, head :: tail = byte :: rest ∧ byte ≠ 0x30 :=
            ⟨head, tail, rfl, equal.1 ▸ nonzero⟩
          rcases induction (fun byte member => digits byte (List.mem_append_left _ member)) frontFirst with
            ⟨frontDecimal, positive⟩
          have quotient : (value (head :: tail) * 10 + digitValue last) / 10 =
              value (head :: tail) := by
            omega
          have remainder : (value (head :: tail) * 10 + digitValue last) % 10 =
              digitValue last := by
            omega
          rw [value_append_digit, decimal_of_le (by omega), quotient, remainder, frontDecimal,
            spelled]
          exact ⟨rfl, by omega⟩

theorem value_dropZeros (text : List UInt8) :
    value (text.dropWhile fun byte => byte == 0x30) = value text := by
  induction text with
  | nil => rfl
  | cons byte rest induction =>
      rw [List.dropWhile_cons]
      split
      · rename_i isZero
        rw [induction, beq_iff_eq.mp isZero]
        rfl
      · rfl

/-- Leading zeros change nothing but the spelling. -/
theorem stripZeros_eq_decimal {text : List UInt8} (digits : ∀ byte ∈ text, isDigit byte = true) :
    stripZeros text = decimal (value text) := by
  have same := value_dropZeros text
  rw [stripZeros]
  split
  · rename_i allZero
    rw [allZero] at same
    rw [← same]
    rfl
  · rename_i nonempty
    have inside : ∀ byte ∈ text.dropWhile (fun byte => byte == 0x30), isDigit byte = true :=
      fun byte member => digits byte ((List.dropWhile_sublist _).subset member)
    cases isRest : text.dropWhile fun byte => byte == 0x30 with
    | nil => exact absurd isRest nonempty
    | cons byte rest =>
        have nonzero : byte ≠ 0x30 := by
          have head := List.head?_dropWhile_not (fun byte => byte == (0x30 : UInt8)) text
          simpa [isRest] using head
        rw [isRest] at inside same
        rw [← same]
        exact (decimal_value inside ⟨byte, rest, rfl, nonzero⟩).1.symm

/-! ## Reading a number from a text -/

/-- `isspace` of the C locale. -/
def isCSpace (byte : UInt8) : Bool :=
  byte == 0x20 || (decide (0x09 ≤ byte) && decide (byte ≤ 0x0d))

/-- Whether a minus sign is read, and what stands after the sign. -/
def sign : List UInt8 → Bool × List UInt8
  | 0x2d :: rest => (true, rest)
  | 0x2b :: rest => (false, rest)
  | text => (false, text)

/-- `strtol` to base ten with the text it leaves, or `none` where it reads no
digit or leaves the range of `long`. -/
def strtol (text : List UInt8) : Option (Int × List UInt8) :=
  let (negative, digits) := sign (text.dropWhile isCSpace)
  let run := digits.takeWhile isDigit
  let v : Int := if negative then -(value run : Int) else value run
  if run = [] then none
  else if v < -9223372036854775808 ∨ 9223372036854775807 < v then none
  else some (v, digits.dropWhile isDigit)

theorem sign_length_le (text : List UInt8) : (sign text).2.length ≤ text.length := by
  unfold sign
  split
  · exact Nat.le_succ _
  · exact Nat.le_succ _
  · exact Nat.le_refl _

theorem strtol_length_le {text rest : List UInt8} {v : Int} (read : strtol text = some (v, rest)) :
    rest.length ≤ text.length := by
  have unread := (List.dropWhile_suffix (l := (sign (text.dropWhile isCSpace)).2) isDigit).length_le
  have unsigned := sign_length_le (text.dropWhile isCSpace)
  have unspaced := (List.dropWhile_suffix (l := text) isCSpace).length_le
  have isRest : (sign (text.dropWhile isCSpace)).2.dropWhile isDigit = rest := by
    unfold strtol at read
    simp only at read
    split_ifs at read
    all_goals exact (Prod.mk.inj (Option.some.inj read)).2
  rw [isRest] at unread
  omega

theorem takeWhile_run {p : UInt8 → Bool} {run rest : List UInt8} (all : ∀ byte ∈ run, p byte = true)
    (stops : ∀ byte ∈ rest.head?, p byte = false) :
    (run ++ rest).takeWhile p = run ∧ (run ++ rest).dropWhile p = rest := by
  induction run with
  | nil =>
      cases rest with
      | nil => exact ⟨rfl, rfl⟩
      | cons byte rest => simp [stops byte rfl]
  | cons byte run induction =>
      have head := all byte List.mem_cons_self
      have tail := induction fun other member => all other (List.mem_cons_of_mem _ member)
      simp [head, tail.1, tail.2]

theorem sign_of_isDigit {byte : UInt8} {rest : List UInt8} (digit : isDigit byte = true) :
    sign (byte :: rest) = (false, byte :: rest) := by
  have bounds := isDigit_iff.mp digit
  unfold sign
  split
  · rename_i equal
    cases equal
    exact absurd digit (by decide)
  · rename_i equal
    cases equal
    exact absurd digit (by decide)
  · rfl

theorem not_isCSpace_of_isDigit {byte : UInt8} (digit : isDigit byte = true) :
    isCSpace byte = false := by
  have bounds := isDigit_iff.mp digit
  rw [isCSpace, Bool.or_eq_false_iff, beq_eq_false_iff_ne]
  constructor
  · intro isSpace
    rw [isSpace] at bounds
    exact absurd bounds.1 (by decide)
  · rw [Bool.and_eq_false_iff, decide_eq_false_iff_not, decide_eq_false_iff_not]
    right
    rw [UInt8.le_iff_toNat_le]
    have : (0x0d : UInt8).toNat = 13 := rfl
    omega

/-- Digits are read up to the first byte that is none. -/
theorem strtol_run {run rest : List UInt8} (nonempty : run ≠ [])
    (digits : ∀ byte ∈ run, isDigit byte = true)
    (stops : ∀ byte ∈ rest.head?, isDigit byte = false) :
    strtol (run ++ rest) =
      if value run ≤ 9223372036854775807 then some ((value run : Int), rest) else none := by
  cases run with
  | nil => exact absurd rfl nonempty
  | cons byte run =>
      have digit := digits byte List.mem_cons_self
      have reads := takeWhile_run digits stops
      have start : ((byte :: run) ++ rest).dropWhile isCSpace = byte :: (run ++ rest) := by
        simp [not_isCSpace_of_isDigit digit]
      simp only [List.cons_append] at reads
      unfold strtol
      rw [start, sign_of_isDigit digit]
      simp only [reads.1, reads.2, nonempty, if_false, Bool.false_eq_true]
      by_cases small : value (byte :: run) ≤ 9223372036854775807
      · rw [if_pos small, if_neg (by omega)]
      · rw [if_neg small, if_pos (by omega)]

theorem strtol_digits {run rest : List UInt8} (nonempty : run ≠ [])
    (digits : ∀ byte ∈ run, isDigit byte = true) (stops : ∀ byte ∈ rest.head?, isDigit byte = false)
    (small : value run ≤ 9223372036854775807) :
    strtol (run ++ rest) = some ((value run : Int), rest) := by
  rw [strtol_run nonempty digits stops, if_pos small]

/-- What is read of a text of digits is its number. -/
theorem strtol_all_digits {text rest : List UInt8} {v : Int} (nonempty : text ≠ [])
    (digits : ∀ byte ∈ text, isDigit byte = true) (read : strtol text = some (v, rest)) :
    v = value text ∧ rest = [] := by
  have noStop : ∀ byte ∈ ([] : List UInt8).head?, isDigit byte = false := nofun
  have run := strtol_run nonempty digits noStop
  rw [List.append_nil, read] at run
  split_ifs at run
  cases run
  exact ⟨rfl, rfl⟩

/-- `strtoull` to base ten with the text it leaves, or `none` where it reads no
digit or leaves the range. A minus sign turns the number around in 64 bits. -/
def strtoull (text : List UInt8) : Option (UInt64 × List UInt8) :=
  let (negative, digits) := sign (text.dropWhile isCSpace)
  let run := digits.takeWhile isDigit
  let v := UInt64.ofNat (value run)
  if run = [] then none
  else if 18446744073709551615 < value run then none
  else some (if negative then -v else v, digits.dropWhile isDigit)

/-! ## Reading what was printed -/

theorem signedDecimal_bytes {v : Int} {byte : UInt8} (member : byte ∈ signedDecimal v) :
    byte = 0x2d ∨ isDigit byte = true := by
  cases v with
  | ofNat n => exact .inr (isDigit_of_mem_decimal member)
  | negSucc n =>
      rcases List.mem_cons.mp member with isMinus | digit
      · exact .inl isMinus
      · exact .inr (isDigit_of_mem_decimal digit)

theorem signedDecimal_ne_nil (v : Int) : signedDecimal v ≠ [] := by
  cases v with
  | ofNat n => exact decimal_ne_nil n
  | negSucc n => exact List.cons_ne_nil _ _

theorem signedDecimal_length_le {v : Int} {k : Nat} (positive : 0 < k) (above : -(10 ^ k : Nat) < v)
    (below : v < (10 ^ (k + 1) : Nat)) : (signedDecimal v).length ≤ k + 1 := by
  cases v with
  | ofNat n => exact decimal_length_le (Nat.succ_pos k) (Int.ofNat_lt.mp below)
  | negSucc n =>
      have small : n + 1 < 10 ^ k := by omega
      exact Nat.succ_le_succ (decimal_length_le positive small)

theorem strtol_signedDecimal {v : Int} (above : -9223372036854775808 ≤ v)
    (below : v ≤ 9223372036854775807) : strtol (signedDecimal v) = some (v, []) := by
  have noStop : ∀ byte ∈ ([] : List UInt8).head?, isDigit byte = false := nofun
  cases v with
  | ofNat n =>
      have small : value (decimal n) ≤ 9223372036854775807 := by
        rw [value_decimal]
        exact Int.ofNat_le.mp below
      have read := strtol_digits (decimal_ne_nil n) (fun _ => isDigit_of_mem_decimal) noStop small
      rw [List.append_nil, value_decimal] at read
      exact read
  | negSucc n =>
      have reads := takeWhile_run (fun _ => isDigit_of_mem_decimal (n := n + 1)) noStop
      rw [List.append_nil] at reads
      have start : (signedDecimal (.negSucc n)).dropWhile isCSpace = signedDecimal (.negSucc n) := by
        simp [signedDecimal, isCSpace]
      unfold strtol
      rw [start, signedDecimal, sign]
      simp only [reads.1, reads.2, value_decimal, decimal_ne_nil, if_false, if_true]
      rw [if_neg (by omega)]
      rfl

theorem strtoull_decimal (v : UInt64) : strtoull (decimal v.toNat) = some (v, []) := by
  have noStop : ∀ byte ∈ ([] : List UInt8).head?, isDigit byte = false := nofun
  have reads := takeWhile_run (fun _ => isDigit_of_mem_decimal (n := v.toNat)) noStop
  rw [List.append_nil] at reads
  cases isText : decimal v.toNat with
  | nil => exact absurd isText (decimal_ne_nil _)
  | cons byte rest =>
      have digit : isDigit byte = true :=
        isDigit_of_mem_decimal (n := v.toNat) (isText ▸ List.mem_cons_self)
      have start : (byte :: rest).dropWhile isCSpace = byte :: rest := by
        simp [not_isCSpace_of_isDigit digit]
      have small : ¬18446744073709551615 < v.toNat := by
        have bound := v.toNat_lt
        omega
      unfold strtoull
      rw [start, sign_of_isDigit digit, ← isText]
      simp only [reads.1, reads.2, value_decimal, decimal_ne_nil, small, if_false, UInt64.ofNat_toNat,
        Bool.false_eq_true]

end Foundation.Decimal
