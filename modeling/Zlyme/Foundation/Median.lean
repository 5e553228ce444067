import Mathlib.Data.List.Sort
import Mathlib.Order.Lattice

/-! # Medians and extremes of a list

The middle element of a sorted list has at most half of the elements on either side of
it. The folds that keep the least and the greatest element bound all of them.
-/

namespace Foundation

variable {α : Type} [LinearOrder α]

/-! ## Medians -/

/-- At most half of the elements are below, and at most half above. -/
structure IsMedian (xs : List α) (middle : α) : Prop where
  member : middle ∈ xs
  below : 2 * xs.countP (· < middle) ≤ xs.length
  above : 2 * xs.countP (middle < ·) ≤ xs.length

theorem IsMedian.of_perm {xs ys : List α} {middle : α} (median : IsMedian xs middle)
    (same : xs.Perm ys) : IsMedian ys middle where
  member := same.mem_iff.mp median.member
  below := by
    rw [← same.countP_eq, ← same.length_eq]
    exact median.below
  above := by
    rw [← same.countP_eq, ← same.length_eq]
    exact median.above

/-- A sorted list around one of its elements. -/
theorem split_sorted {sorted : List α} (ascending : sorted.Pairwise (· ≤ ·)) {index : Nat}
    {middle : α} (isMiddle : sorted[index]? = some middle) :
    ∃ front back, sorted = front ++ middle :: back ∧ front.length = index ∧
      (∀ item ∈ front, item ≤ middle) ∧ ∀ item ∈ back, middle ≤ item := by
  rcases List.getElem?_eq_some_iff.mp isMiddle with ⟨inside, same⟩
  have split : sorted = sorted.take index ++ middle :: sorted.drop (index + 1) := by
    rw [← same, ← List.drop_eq_getElem_cons, List.take_append_drop]
  have ordered := ascending
  rw [split, List.pairwise_append] at ordered
  refine ⟨_, _, split, by rw [List.length_take]; omega, ?_, ?_⟩
  · intro item member
    exact ordered.2.2 item member middle (List.mem_cons_self)
  · intro item member
    exact List.rel_of_pairwise_cons ordered.2.1 member

/-- The element in the middle of a sorted list is a median. -/
theorem isMedian_of_sorted {sorted : List α} (ascending : sorted.Pairwise (· ≤ ·)) {middle : α}
    (isMiddle : sorted[sorted.length / 2]? = some middle) (odd : sorted.length % 2 = 1) :
    IsMedian sorted middle := by
  rcases split_sorted ascending isMiddle with ⟨front, back, split, frontLength, lower, upper⟩
  have lengths := congrArg List.length split
  rw [List.length_append, List.length_cons] at lengths
  have noneAbove : front.countP (middle < ·) = 0 := by
    rw [List.countP_eq_zero]
    intro item member
    simpa using lower item member
  have noneBelow : back.countP (· < middle) = 0 := by
    rw [List.countP_eq_zero]
    intro item member
    simpa using upper item member
  have frontCount : front.countP (· < middle) ≤ front.length := List.countP_le_length
  have backCount : back.countP (middle < ·) ≤ back.length := List.countP_le_length
  refine ⟨by rw [split]; simp, ?_, ?_⟩
  · rw [split, List.countP_append, List.countP_cons, noneBelow, ← split]
    simp only [lt_self_iff_false, decide_false, Bool.false_eq_true, if_false]
    omega
  · rw [split, List.countP_append, List.countP_cons, noneAbove, ← split]
    simp only [lt_self_iff_false, decide_false, Bool.false_eq_true, if_false]
    omega

/-! ## Extremes -/

theorem foldl_least_le (xs : List α) (start : α) :
    xs.foldl (fun least item => if item < least then item else least) start ≤ start ∧
      ∀ item ∈ xs, xs.foldl (fun least item => if item < least then item else least) start ≤
        item := by
  induction xs generalizing start with
  | nil => exact ⟨le_refl start, by simp⟩
  | cons item rest induction =>
      have later := induction (if item < start then item else start)
      rw [List.foldl_cons]
      split at later
      · rename_i smaller
        rw [if_pos smaller]
        refine ⟨le_trans later.1 (le_of_lt smaller), ?_⟩
        simpa using ⟨later.1, later.2⟩
      · rename_i larger
        rw [if_neg larger]
        refine ⟨later.1, ?_⟩
        simpa using ⟨le_trans later.1 (not_lt.mp larger), later.2⟩

theorem le_foldl_greatest (xs : List α) (start : α) :
    start ≤ xs.foldl (fun greatest item => if item > greatest then item else greatest) start ∧
      ∀ item ∈ xs, item ≤
        xs.foldl (fun greatest item => if item > greatest then item else greatest) start := by
  induction xs generalizing start with
  | nil => exact ⟨le_refl start, by simp⟩
  | cons item rest induction =>
      have later := induction (if item > start then item else start)
      rw [List.foldl_cons]
      split at later
      · rename_i larger
        rw [if_pos larger]
        refine ⟨le_trans (le_of_lt larger) later.1, ?_⟩
        simpa using ⟨later.1, later.2⟩
      · rename_i smaller
        rw [if_neg smaller]
        refine ⟨later.1, ?_⟩
        simpa using ⟨le_trans (not_lt.mp smaller) later.1, later.2⟩

end Foundation
