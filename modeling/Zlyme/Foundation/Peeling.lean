import Mathlib.Data.List.Basic
import Zlyme.Foundation.Execution

/-! # Removal in any order

Items are taken out of a state one after the other, each while it is free. When what is free
stays free until it is taken, the order does not decide what can be taken in the end.
-/

namespace Foundation.Peeling

open Foundation.Execution

variable {State Item : Type} {take : State → Item → State} {free : State → Item → Prop}

/-- Two items can be taken in either order, and neither of them locks the other one. -/
structure Persistent (take : State → Item → State) (free : State → Item → Prop) : Prop where
  commutes : ∀ state first second,
    take (take state first) second = take (take state second) first
  stays : ∀ state first second, free state first → free state second → first ≠ second →
    free (take state second) first

namespace Persistent

variable [DecidableEq Item] (persistent : Persistent take free) {state : State}
  {items others : List Item}

include persistent

/-- After one more item is taken, the others can still be taken in their order. -/
theorem residual {item : Item} (isFree : free state item) (along : Along take free state items) :
    Along take free (take state item) (items.erase item) := by
  induction items generalizing state with
  | nil => exact trivial
  | cons first rest induction =>
      by_cases same : first = item
      · subst same
        rw [List.erase_cons_head]
        exact along.2
      · rw [List.erase_cons_tail (by simpa using same)]
        refine ⟨persistent.stays state first item along.1 isFree same, ?_⟩
        rw [persistent.commutes]
        apply induction _ along.2
        exact persistent.stays state item first isFree along.1 (Ne.symm same)

theorem residuals (taken : Along take free state others) (along : Along take free state items) :
    Along take free (run take state others) (items.diff others) := by
  induction others generalizing state items with
  | nil => exact along
  | cons first rest induction =>
      rw [List.diff_cons, run_cons]
      exact induction taken.2 (persistent.residual taken.1 along)

/-- Where nothing is free any more, whatever can be taken in any order has been taken. -/
theorem subset_of_exhausted (taken : Along take free state others)
    (exhausted : ∀ item, ¬free (run take state others) item)
    (along : Along take free state items) : items ⊆ others := by
  intro item member
  by_contra absent
  have left := List.mem_diff_of_mem member absent
  have rest := persistent.residuals taken along
  cases isLeft : items.diff others with
  | nil =>
      rw [isLeft] at left
      cases left
  | cons first _ =>
      rw [isLeft] at rest
      exact exhausted first rest.1

end Persistent

end Foundation.Peeling
