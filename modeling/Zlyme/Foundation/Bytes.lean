import Mathlib.Algebra.GroupWithZero.Nat
import Mathlib.Algebra.Ring.Int.Defs

/-! # Byte strings

Slices, overwritten ranges and big-endian words of lists of bytes. Slices clip
at the end of the list.
-/

namespace Foundation

abbrev Bytes := List UInt8

namespace Bytes

variable {α : Type}

/-! ## Slices and splices -/

/-- The elements at positions from `start` up to `stop`. -/
def slice (xs : List α) (start stop : Nat) : List α :=
  (xs.drop start).take (stop - start)

/-- `ys` written over the elements from position `start` on. -/
def splice (xs : List α) (start : Nat) (ys : List α) : List α :=
  xs.take start ++ ys ++ xs.drop (start + ys.length)

theorem getElem?_slice (xs : List α) (start stop index : Nat) :
    (slice xs start stop)[index]? = if index < stop - start then xs[start + index]? else none := by
  rw [slice, List.getElem?_take]
  split
  · rw [List.getElem?_drop]
  · rfl

theorem slice_length {xs : List α} {start stop : Nat} (inside : stop ≤ xs.length) :
    (slice xs start stop).length = stop - start := by
  rw [slice, List.length_take, List.length_drop]
  omega

theorem slice_congr {xs ys : List α} {start stop : Nat}
    (agree : ∀ index, start ≤ index → index < stop → xs[index]? = ys[index]?) :
    slice xs start stop = slice ys start stop := by
  apply List.ext_getElem?
  intro index
  rw [getElem?_slice, getElem?_slice]
  split
  · exact agree (start + index) (by omega) (by omega)
  · rfl

theorem splice_length {xs ys : List α} {start : Nat} (inside : start + ys.length ≤ xs.length) :
    (splice xs start ys).length = xs.length := by
  simp only [splice, List.length_append, List.length_take, List.length_drop]
  omega

theorem getElem?_splice {xs ys : List α} {start : Nat} (inside : start ≤ xs.length)
    (index : Nat) :
    (splice xs start ys)[index]? =
      if start ≤ index ∧ index < start + ys.length then ys[index - start]? else xs[index]? := by
  have taken : (xs.take start).length = start := by
    rw [List.length_take]
    omega
  rw [splice, List.append_assoc, List.getElem?_append, taken]
  by_cases before : index < start
  · rw [if_pos before, if_neg (by omega), List.getElem?_take, if_pos before]
  · rw [if_neg before, List.getElem?_append]
    by_cases within : index - start < ys.length
    · rw [if_pos within, if_pos (by omega)]
    · rw [if_neg within, if_neg (by omega), List.getElem?_drop]
      congr 1
      omega

theorem slice_splice_of_disjoint {xs ys : List α} {start first last : Nat}
    (inside : start ≤ xs.length) (apart : last ≤ start ∨ start + ys.length ≤ first) :
    slice (splice xs start ys) first last = slice xs first last := by
  apply slice_congr
  intro index lower upper
  rw [getElem?_splice inside, if_neg (by omega)]

theorem slice_splice_self {xs ys : List α} {start : Nat} (inside : start ≤ xs.length) :
    slice (splice xs start ys) start (start + ys.length) = ys := by
  have taken : (xs.take start).length = start := by
    rw [List.length_take]
    omega
  rw [slice, splice, List.append_assoc, List.drop_append_of_le_length (by omega),
    List.drop_of_length_le (by omega), List.nil_append, Nat.add_sub_cancel_left,
    List.take_left]

/-- The elements from one position on are a slice and the elements after it. -/
theorem drop_eq_slice_append (xs : List α) {start stop : Nat} (ordered : start ≤ stop) :
    xs.drop start = slice xs start stop ++ xs.drop stop := by
  have rejoin := List.take_append_drop (stop - start) (xs.drop start)
  rw [List.drop_drop, Nat.add_sub_cancel' ordered] at rejoin
  exact rejoin.symm

theorem slice_append_left {xs ys : List α} {start stop : Nat} (inside : stop ≤ xs.length) :
    slice (xs ++ ys) start stop = slice xs start stop := by
  apply slice_congr
  intro index _ upper
  rw [List.getElem?_append_left (by omega)]

theorem slice_append_right {xs ys : List α} {start stop : Nat} (behind : xs.length ≤ start) :
    slice (xs ++ ys) start stop = slice ys (start - xs.length) (stop - xs.length) := by
  rw [slice, slice, List.drop_append, List.drop_of_length_le behind, List.nil_append,
    Nat.sub_sub_sub_cancel_right behind]

theorem slice_of_length_le {xs : List α} {stop : Nat} (covers : xs.length ≤ stop) :
    slice xs 0 stop = xs := by
  rw [slice, List.drop_zero, Nat.sub_zero, List.take_of_length_le covers]

theorem take_slice {xs : List α} {start stop count : Nat} (fits : start + count ≤ stop) :
    (slice xs start stop).take count = slice xs start (start + count) := by
  rw [slice, slice, List.take_take]
  congr 1
  omega

/-- A range is overwritten exactly. -/
theorem splice_between {front old back new : List α} (same : new.length = old.length) :
    splice (front ++ old ++ back) front.length new = front ++ new ++ back := by
  rw [splice, same, ← List.length_append, List.drop_left, List.append_assoc front old,
    List.take_left]

/-! ## Words -/

/-- `int.from_bytes(bytes, "big")`. -/
def fromBe (bytes : Bytes) : Nat :=
  bytes.foldl (fun value byte => 256 * value + byte.toNat) 0

/-- `int.from_bytes(bytes, "little")`. -/
def fromLe (bytes : Bytes) : Nat :=
  fromBe bytes.reverse

/-- The first four bytes as a big-endian word, when there are four. -/
def unpackBe32 : Bytes → Option Nat
  | b0 :: b1 :: b2 :: b3 :: _ => some (fromBe [b0, b1, b2, b3])
  | _ => none

def packBe32 (value : Nat) : Bytes :=
  [UInt8.ofNat (value / 2 ^ 24), UInt8.ofNat (value / 2 ^ 16), UInt8.ofNat (value / 2 ^ 8),
    UInt8.ofNat value]

@[simp] theorem packBe32_length (value : Nat) : (packBe32 value).length = 4 := rfl

theorem fromBe_packBe32 {value : Nat} (small : value < 2 ^ 32) :
    fromBe (packBe32 value) = value := by
  simp only [fromBe, packBe32, List.foldl_cons, List.foldl_nil, UInt8.toNat_ofNat']
  omega

theorem unpackBe32_append {front : Bytes} (long : 4 ≤ front.length) (rest : Bytes) :
    unpackBe32 (front ++ rest) = some (fromBe (front.take 4)) := by
  match front, long with
  | _ :: _ :: _ :: _ :: _, _ => rfl

end Bytes

end Foundation
