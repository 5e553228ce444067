import Mathlib.Data.List.Basic
import Mathlib.Data.List.Nodup
import Mathlib.Data.List.Perm.Basic

/-! # Some items put last

A list in which the items of one kind come after the others, both in their order.
-/

namespace Foundation

variable {α β : Type} {isLast : α → Bool} {items : List α}

def putLast (isLast : α → Bool) (items : List α) : List α :=
  (items.filter fun item => !isLast item) ++ items.filter isLast

theorem putLast_perm : (putLast isLast items).Perm items :=
  List.perm_append_comm.trans (List.filter_append_perm isLast items)

/-- Each kind keeps its order. -/
theorem filter_putLast : (putLast isLast items).filter isLast = items.filter isLast ∧
    ((putLast isLast items).filter fun item => !isLast item) = items.filter fun item => !isLast item := by
  constructor
  · rw [putLast, List.filter_append, List.filter_filter, List.filter_filter]
    simp
  · rw [putLast, List.filter_append, List.filter_filter, List.filter_filter]
    simp

theorem pairwise_putLast :
    (putLast isLast items).Pairwise fun first second => isLast first = true → isLast second = true := by
  rw [putLast, List.pairwise_append]
  refine ⟨?_, ?_, ?_⟩
  · apply List.pairwise_of_forall_mem_list
    intro first member second _ isKind
    simp [isKind] at member
  · apply List.pairwise_of_forall_mem_list
    intro first _ second member _
    exact (List.mem_filter.mp member).2
  · intro first _ second member _
    exact (List.mem_filter.mp member).2

/-- Nothing moves exactly if no item of the kind comes before another item. -/
theorem putLast_eq_self_iff : putLast isLast items = items ↔
    items.Pairwise fun first second => isLast first = true → isLast second = true := by
  constructor
  · intro same
    have pairwise : (putLast isLast items).Pairwise fun first second =>
        isLast first = true → isLast second = true := pairwise_putLast
    rw [same] at pairwise
    exact pairwise
  · intro pairwise
    induction items with
    | nil => rfl
    | cons item rest induction =>
        rw [List.pairwise_cons] at pairwise
        have tail := induction pairwise.2
        rw [putLast] at tail ⊢
        cases isKind : isLast item with
        | false => simp [isKind, tail]
        | true =>
            have all : ∀ other ∈ rest, isLast other = true := fun other member =>
              pairwise.1 other member isKind
            have noOther : rest.filter (fun other => !isLast other) = [] := by
              rw [List.filter_eq_nil_iff]
              intro other member
              simp [all other member]
            simp [isKind, noOther, List.filter_eq_self.mpr all]

theorem putLast_idem : putLast isLast (putLast isLast items) = putLast isLast items :=
  putLast_eq_self_iff.mpr pairwise_putLast

theorem putLast_map (f : β → α) (values : List β) :
    putLast isLast (values.map f) = (putLast (fun value => isLast (f value)) values).map f := by
  simp [putLast, List.filter_map, Function.comp_def]

/-- Lists of the same items are told apart by a label that none of them shares. -/
theorem map_eq_map_iff_of_perm {others : List α} {label : α → β} (perm : items.Perm others)
    (distinct : (others.map label).Nodup) : items.map label = others.map label ↔ items = others := by
  constructor
  · intro same
    apply List.ext_getElem perm.length_eq
    intro index inItems inOthers
    have atIndex : label items[index] = label others[index] := by
      have lookup := congrArg (fun labels => labels[index]?) same
      simpa [inItems, inOthers] using lookup
    exact List.inj_on_of_nodup_map distinct (perm.mem_iff.mp (List.getElem_mem inItems))
      (List.getElem_mem inOthers) atIndex
  · rintro rfl
    rfl

end Foundation
