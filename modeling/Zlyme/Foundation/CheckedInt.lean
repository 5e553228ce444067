/-! # Numbers of a C `int`

A result that does not fit into 32 bits has no value. Division truncates.
-/

namespace Foundation

/-- A number that an `int` holds. -/
abbrev CInt : Type :=
  { number : Int // -2147483648 ≤ number ∧ number ≤ 2147483647 }

namespace CInt

/-- The number as an `int`. -/
def checked (number : Int) : Option CInt :=
  if fits : -2147483648 ≤ number ∧ number ≤ 2147483647 then some ⟨number, fits⟩ else none

theorem checked_eq_some {number : Int} {result : CInt} :
    checked number = some result ↔ number = result.val := by
  unfold checked
  constructor
  · intro isSome
    split at isSome
    · rw [← Option.some.inj isSome]
    · cases isSome
  · rintro rfl
    rw [dif_pos result.property]

theorem exists_checked_iff {number : Int} : (∃ result, checked number = some result) ↔
    -2147483648 ≤ number ∧ number ≤ 2147483647 := by
  constructor
  · rintro ⟨result, isSome⟩
    rw [checked_eq_some.mp isSome]
    exact result.property
  · intro fits
    exact ⟨⟨number, fits⟩, checked_eq_some.mpr rfl⟩

def sub (left right : CInt) : Option CInt :=
  checked (left.val - right.val)

def mul (left right : CInt) : Option CInt :=
  checked (left.val * right.val)

/-- `/`, which is undefined for a divisor of 0 and where the quotient does not fit. -/
def div (left right : CInt) : Option CInt :=
  if right.val = 0 then none else checked (left.val.tdiv right.val)

theorem mul_eq_some {left right result : CInt} :
    mul left right = some result ↔ left.val * right.val = result.val :=
  checked_eq_some

theorem div_eq_some {left right result : CInt} :
    div left right = some result ↔ right.val ≠ 0 ∧ left.val.tdiv right.val = result.val := by
  unfold div
  by_cases zero : right.val = 0
  · simp [zero]
  · simp [zero, checked_eq_some]

end CInt

end Foundation
