import Mathlib.Data.List.DropRight
import Mathlib.Data.List.Dedup
import Mathlib.Data.Finset.Card
import Mathlib.Order.Defs.LinearOrder

/-! # The greatest items of a list

The last items of a sorted list, with repeats counted.
-/

namespace Foundation

variable {α : Type} [LinearOrder α]

theorem count_take_of_descending {items : List α} (sorted : items.Pairwise (· ≥ ·)) (size : Nat)
    (value : α) :
    (items.take size).count value = min (items.count value) (size - items.countP (value < ·)) := by
  induction items generalizing size with
  | nil => simp
  | cons first rest induction =>
      rw [List.pairwise_cons] at sorted
      cases size with
      | zero => simp
      | succ size =>
          rw [List.take_succ_cons, List.count_cons, induction sorted.2, List.count_cons, List.countP_cons]
          rcases lt_trichotomy value first with below | rfl | beyond
          · simp [below, below.ne']
          · have noneAbove : rest.countP (value < ·) = 0 := by
              rw [List.countP_eq_zero]
              simpa using sorted.1
            simp [noneAbove]
          · have absent : rest.count value = 0 := by
              rw [List.count_eq_zero]
              exact fun member => absurd (sorted.1 value member) (not_le.mpr beyond)
            simp [absent, beyond.ne]

/-- Among the last items a value stands as often as the greater ones leave room. -/
theorem count_rtake {items : List α} (sorted : items.Pairwise (· ≤ ·)) (size : Nat) (value : α) :
    (items.rtake size).count value = min (items.count value) (size - items.countP (value < ·)) := by
  have descending : items.reverse.Pairwise (· ≥ ·) := List.pairwise_reverse.mpr sorted
  rw [List.rtake_eq_reverse_take_reverse, List.count_reverse, count_take_of_descending descending,
    List.count_reverse, List.countP_reverse]

theorem nodup_rtake_iff {items : List α} (sorted : items.Pairwise (· ≤ ·)) (size : Nat) :
    (items.rtake size).Nodup ↔
      ∀ value, 2 ≤ items.count value → size ≤ items.countP (value < ·) + 1 := by
  rw [List.nodup_iff_count_le_one]
  refine forall_congr' fun value => ?_
  rw [count_rtake sorted]
  omega

/-- Of the last items none is repeated: they are the values with few greater
ones, each counted once. -/
theorem mem_rtake_iff {items : List α} (sorted : items.Pairwise (· ≤ ·)) {size : Nat}
    (once : (items.rtake size).Nodup) {value : α} (member : value ∈ items) :
    value ∈ items.rtake size ↔ (items.toFinset.filter (value < ·)).card < size := by
  have present : 0 < items.count value := List.count_pos_iff.mpr member
  have counted : value ∈ items.rtake size ↔ items.countP (value < ·) < size := by
    rw [← List.count_pos_iff, count_rtake sorted]
    omega
  have distinctFewer : (items.toFinset.filter (value < ·)).card ≤ items.countP (value < ·) := by
    have sameSet : items.toFinset.filter (value < ·) = (items.filter (value < ·)).toFinset := by
      rw [List.toFinset_filter]
      simp
    rw [sameSet, List.countP_eq_length_filter]
    exact List.toFinset_card_le _
  rw [counted]
  refine ⟨distinctFewer.trans_lt, fun few => ?_⟩
  by_contra many
  rw [Nat.not_lt] at many
  -- the last items are then all greater, and as many as there is room for
  have greater : (items.rtake size).toFinset ⊆ items.toFinset.filter (value < ·) := by
    intro other last
    rw [List.mem_toFinset] at last
    have listed : other ∈ items := List.mem_of_mem_drop last
    rw [Finset.mem_filter, List.mem_toFinset]
    refine ⟨listed, ?_⟩
    by_contra notGreater
    have more : items.countP (value < ·) ≤ items.countP (other < ·) :=
      List.countP_mono_left fun third _ above => by
        simpa using (not_lt.mp notGreater).trans_lt (of_decide_eq_true above)
    have shown := List.count_pos_iff.mpr last
    rw [count_rtake sorted] at shown
    omega
  have full : (items.rtake size).length = size := by
    have room : items.countP (value < ·) ≤ items.length := List.countP_le_length
    rw [List.rtake, List.length_drop]
    omega
  have sizes := Finset.card_le_card greater
  rw [List.toFinset_card_of_nodup once, full] at sizes
  omega

end Foundation
