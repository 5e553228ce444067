import Zlyme.Foundation.Bytes
import Mathlib.Data.List.Basic

/-! # Hexadecimal text

Byte strings written as two lowercase digits for each byte, and numbers read from
such digits. A position of the bytes is twice that position of the text.
-/

namespace Foundation.Hex

open Foundation.Bytes

/-! ## Writing -/

def ofByte (byte : UInt8) : List Char :=
  [(byte.toNat / 16).digitChar, (byte.toNat % 16).digitChar]

def ofBytes (bytes : Bytes) : List Char :=
  bytes.flatMap ofByte

@[simp] theorem ofBytes_nil : ofBytes [] = [] := rfl

@[simp] theorem ofBytes_cons (byte : UInt8) (rest : Bytes) :
    ofBytes (byte :: rest) =
      (byte.toNat / 16).digitChar :: (byte.toNat % 16).digitChar :: ofBytes rest := rfl

theorem ofBytes_append (front back : Bytes) :
    ofBytes (front ++ back) = ofBytes front ++ ofBytes back :=
  List.flatMap_append

@[simp] theorem ofBytes_length (bytes : Bytes) : (ofBytes bytes).length = 2 * bytes.length := by
  induction bytes with
  | nil => rfl
  | cons byte rest induction =>
      rw [ofBytes_cons, List.length_cons, List.length_cons, induction, List.length_cons]
      omega

theorem drop_ofBytes (bytes : Bytes) (count : Nat) :
    (ofBytes bytes).drop (2 * count) = ofBytes (bytes.drop count) := by
  induction count generalizing bytes with
  | zero => rfl
  | succ count induction =>
      cases bytes with
      | nil => rw [ofBytes_nil, List.drop_nil, List.drop_nil, ofBytes_nil]
      | cons byte rest => exact induction rest

theorem take_ofBytes (bytes : Bytes) (count : Nat) :
    (ofBytes bytes).take (2 * count) = ofBytes (bytes.take count) := by
  induction count generalizing bytes with
  | zero => rfl
  | succ count induction =>
      cases bytes with
      | nil => rw [ofBytes_nil, List.take_nil, List.take_nil, ofBytes_nil]
      | cons byte rest =>
          rw [List.take_succ_cons, ofBytes_cons, ofBytes_cons, ← induction rest]
          rfl

theorem slice_ofBytes (bytes : Bytes) (start count : Nat) :
    ((ofBytes bytes).drop (2 * start)).take (2 * count) =
      ofBytes (slice bytes start (start + count)) := by
  rw [drop_ofBytes, take_ofBytes, slice, Nat.add_sub_cancel_left]

/-! ## Reading -/

/-- The value of one digit. -/
def digitValue (digit : Char) : Option Nat :=
  "0123456789abcdef".toList.idxOf? digit

theorem digitValue_digitChar {n : Nat} (small : n < 16) : digitValue n.digitChar = some n := by
  have all : ∀ n : Fin 16, digitValue n.val.digitChar = some n.val := by decide +kernel
  exact all ⟨n, small⟩

theorem byte_halves (byte : UInt8) : byte.toNat / 16 < 16 ∧ byte.toNat % 16 < 16 := by
  have := byte.toNat_lt
  omega

/-- The bytes of pairs of digits, up to the first pair that is not one. -/
def toBytes : List Char → Bytes
  | high :: low :: rest =>
      match digitValue high, digitValue low with
      | some h, some l => UInt8.ofNat (16 * h + l) :: toBytes rest
      | _, _ => []
  | _ => []

theorem toBytes_ofBytes (bytes : Bytes) : toBytes (ofBytes bytes) = bytes := by
  induction bytes with
  | nil => rfl
  | cons byte rest induction =>
      have halves := byte_halves byte
      rw [ofBytes_cons, toBytes, digitValue_digitChar halves.1, digitValue_digitChar halves.2]
      dsimp only
      rw [induction, Nat.div_add_mod, UInt8.ofNat_toNat]

theorem ofBytes_injective : Function.Injective ofBytes :=
  Function.LeftInverse.injective toBytes_ofBytes

@[simp] theorem ofBytes_inj {left right : Bytes} : ofBytes left = ofBytes right ↔ left = right :=
  ofBytes_injective.eq_iff

/-! ## Numbers -/

/-- `sprintf("%08x", n)`. -/
def word (n : Nat) : List Char :=
  List.replicate (8 - (Nat.toDigits 16 n).length) '0' ++ Nat.toDigits 16 n

/-- The last `width` digits of a number. -/
def lastDigits : Nat → Nat → List Char
  | 0, _ => []
  | width + 1, n => lastDigits width (n / 16) ++ [(n % 16).digitChar]

theorem lastDigits_zero (width : Nat) : lastDigits width 0 = List.replicate width '0' := by
  induction width with
  | zero => rfl
  | succ width induction =>
      rw [lastDigits, Nat.zero_div, induction, List.replicate_succ']
      rfl

/-- The digits of a number are its last ones, without the leading zeros. -/
theorem padded_eq_lastDigits {width n : Nat} (small : n < 16 ^ (width + 1)) :
    List.replicate (width + 1 - (Nat.toDigits 16 n).length) '0' ++ Nat.toDigits 16 n =
      lastDigits (width + 1) n := by
  induction width generalizing n with
  | zero =>
      rw [Nat.toDigits_of_lt_base (by simpa using small), lastDigits, lastDigits,
        Nat.mod_eq_of_lt (by simpa using small)]
      rfl
  | succ width induction =>
      by_cases single : n < 16
      · rw [Nat.toDigits_of_lt_base single, lastDigits, Nat.div_eq_of_lt single, lastDigits_zero,
          Nat.mod_eq_of_lt single]
        rfl
      · have quotientSmall : n / 16 < 16 ^ (width + 1) := by
          rw [Nat.div_lt_iff_lt_mul (by decide)]
          rwa [Nat.pow_succ] at small
        rw [lastDigits, ← induction quotientSmall,
          Nat.toDigits_of_base_le (by decide) (Nat.le_of_not_lt single), List.length_append,
          List.length_singleton, Nat.add_sub_add_right, List.append_assoc]

theorem word_eq {n : Nat} (small : n < 2 ^ 32) : word n = ofBytes (packBe32 n) := by
  have digits : _ = lastDigits 8 n := padded_eq_lastDigits (by exact small)
  rw [word, digits]
  simp only [lastDigits, packBe32, ofBytes_cons, ofBytes_nil, UInt8.toNat_ofNat', List.nil_append,
    List.cons_append, List.cons.injEq, and_true]
  refine ⟨?_, ?_, ?_, ?_, ?_, ?_, ?_, ?_⟩ <;> exact congrArg Nat.digitChar (by omega)

end Foundation.Hex
