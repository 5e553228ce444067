import Mathlib.Data.List.Nodup
import Mathlib.Data.List.Perm.Basic

/-! # Rows found by a key

A table is a list of rows that each have a key, searched from its first row on.
Where the keys are distinct, what is found does not depend on the order.
-/

namespace Foundation.KeyedRows

variable {ρ κ : Type} (key : ρ → κ)

def Distinct (rows : List ρ) : Prop :=
  (rows.map key).Nodup

def lookup [DecidableEq κ] (rows : List ρ) (k : κ) : Option ρ :=
  rows.find? fun row => decide (key row = k)

/-- The row at `index` makes room for the last one. -/
def swapRemove (rows : List ρ) (index : Nat) : List ρ :=
  match rows.getLast? with
  | none => []
  | some last => (rows.set index last).dropLast

variable {key} {rows : List ρ}

theorem mem_of_lookup [DecidableEq κ] {k : κ} {row : ρ} (found : lookup key rows k = some row) :
    row ∈ rows ∧ key row = k := by
  rw [lookup] at found
  refine ⟨List.mem_of_find?_eq_some found, ?_⟩
  have isKey := List.find?_some found
  exact of_decide_eq_true isKey

theorem lookup_eq_some_iff [DecidableEq κ] (distinct : Distinct key rows) {k : κ} {row : ρ} :
    lookup key rows k = some row ↔ row ∈ rows ∧ key row = k := by
  constructor
  · exact mem_of_lookup
  · rintro ⟨member, rfl⟩
    cases found : lookup key rows (key row) with
    | none =>
        have absent := List.find?_eq_none.mp found row member
        exact absurd (decide_eq_true rfl) absent
    | some other =>
        rcases mem_of_lookup found with ⟨isOther, sameKey⟩
        rw [List.inj_on_of_nodup_map distinct isOther member sameKey]

theorem lookup_eq_none_iff [DecidableEq κ] {k : κ} : lookup key rows k = none ↔ ∀ row ∈ rows, key row ≠ k := by
  rw [lookup, List.find?_eq_none]
  simp only [decide_eq_true_eq, ne_eq]

/-- Tables with the same rows under a key find the same there. -/
theorem lookup_congr [DecidableEq κ] {others : List ρ} (distinct : Distinct key rows)
    (othersDistinct : Distinct key others) {k : κ}
    (same : ∀ row, key row = k → (row ∈ rows ↔ row ∈ others)) :
    lookup key rows k = lookup key others k := by
  ext row
  rw [lookup_eq_some_iff distinct, lookup_eq_some_iff othersDistinct]
  constructor
  · rintro ⟨member, isKey⟩
    exact ⟨(same row isKey).mp member, isKey⟩
  · rintro ⟨member, isKey⟩
    exact ⟨(same row isKey).mpr member, isKey⟩

/-! ## A row changed in place -/

section Modify

variable {index : Nat} (inside : index < rows.length) {change : ρ → ρ}
  (keeps : key (change rows[index]) = key rows[index])

include keeps

theorem map_key_modify : (rows.modify index change).map key = rows.map key := by
  apply List.ext_getElem
  · simp
  · intro position _ bound
    rw [List.getElem_map, List.getElem_map, List.getElem_modify]
    split
    · rename_i same
      subst same
      exact keeps
    · rfl

theorem distinct_modify (distinct : Distinct key rows) :
    Distinct key (rows.modify index change) := by
  rw [Distinct, map_key_modify inside keeps]
  exact distinct

theorem lookup_modify [DecidableEq κ] (distinct : Distinct key rows) (k : κ) :
    lookup key (rows.modify index change) k =
      if k = key rows[index] then some (change rows[index]) else lookup key rows k := by
  have changedDistinct := distinct_modify inside keeps distinct
  split
  · rename_i isKey
    rw [lookup_eq_some_iff changedDistinct]
    refine ⟨List.mem_iff_getElem.mpr ⟨index, by simpa using inside, ?_⟩, isKey ▸ keeps⟩
    rw [List.getElem_modify, if_pos rfl]
  · rename_i notKey
    apply lookup_congr changedDistinct distinct
    intro row isKey
    have elsewhere : ∀ position : Nat, ∀ bound : position < rows.length, key rows[position] = k →
        position ≠ index := by
      rintro position bound atKey rfl
      exact notKey atKey.symm
    constructor
    · intro member
      rcases List.mem_iff_getElem.mp member with ⟨position, bound, rfl⟩
      rw [List.length_modify] at bound
      rw [List.getElem_modify] at isKey ⊢
      split at isKey
      · rename_i same
        subst same
        exact absurd (isKey.symm.trans keeps) notKey
      · rename_i differs
        rw [if_neg differs]
        exact List.getElem_mem bound
    · intro member
      rcases List.mem_iff_getElem.mp member with ⟨position, bound, rfl⟩
      refine List.mem_iff_getElem.mpr ⟨position, by simpa using bound, ?_⟩
      rw [List.getElem_modify, if_neg (Ne.symm (elsewhere position bound isKey))]

/-- The changed row stands for the one of its key. -/
theorem mem_modify_iff (distinct : Distinct key rows) {row : ρ} :
    row ∈ rows.modify index change ↔
      row = change rows[index] ∨ row ∈ rows ∧ key row ≠ key rows[index] := by
  classical
  have isRow : lookup key (rows.modify index change) (key row) = some row ↔
      row ∈ rows.modify index change ∧ key row = key row :=
    lookup_eq_some_iff (distinct_modify inside keeps distinct)
  have found := lookup_modify inside keeps distinct (key row)
  rw [and_iff_left rfl] at isRow
  rw [← isRow, found]
  split
  · rename_i sameKey
    rw [Option.some_inj]
    exact ⟨fun same => .inl same.symm, fun split => split.elim Eq.symm fun other => absurd sameKey other.2⟩
  · rename_i differs
    rw [lookup_eq_some_iff distinct, and_iff_left rfl]
    constructor
    · exact fun member => .inr ⟨member, differs⟩
    · rintro (same | other)
      · exact absurd ((congrArg key same).trans keeps) differs
      · exact other.1

omit keeps in
theorem mem_modify {row : ρ} (member : row ∈ rows.modify index change) :
    row ∈ rows ∨ row = change rows[index] := by
  rcases List.mem_iff_getElem.mp member with ⟨position, bound, rfl⟩
  rw [List.getElem_modify]
  split
  · rename_i same
    subst same
    exact .inr rfl
  · exact .inl (List.getElem_mem _)

end Modify

/-! ## A row added at the end -/

theorem distinct_append {row : ρ} (distinct : Distinct key rows)
    (fresh : ∀ other ∈ rows, key other ≠ key row) : Distinct key (rows ++ [row]) := by
  rw [Distinct, List.map_append, List.nodup_append]
  refine ⟨distinct, List.nodup_singleton _, ?_⟩
  intro first inFirst second inSecond
  rcases List.mem_map.mp inFirst with ⟨other, member, rfl⟩
  rw [List.mem_singleton.mp inSecond]
  exact fresh other member

theorem lookup_append [DecidableEq κ] {row : ρ} (fresh : ∀ other ∈ rows, key other ≠ key row) (k : κ) :
    lookup key (rows ++ [row]) k = if k = key row then some row else lookup key rows k := by
  rw [lookup, List.find?_append]
  split
  · rename_i isKey
    subst isKey
    have absent : lookup key rows (key row) = none := lookup_eq_none_iff.mpr fresh
    rw [lookup] at absent
    simp [absent]
  · rename_i notKey
    have other : ¬key row = k := fun same => notKey same.symm
    simp [lookup, other]

/-! ## A row removed -/

theorem swapRemove_perm {index : Nat} (inside : index < rows.length) :
    (swapRemove rows index).Perm (rows.eraseIdx index) := by
  rw [swapRemove]
  rcases List.eq_nil_or_concat rows with rfl | ⟨front, last, rfl⟩
  · exact absurd inside (Nat.not_lt_zero _)
  · rw [List.concat_eq_append] at *
    rw [List.getLast?_concat]
    dsimp only
    by_cases isLast : index < front.length
    · rw [List.set_append_left _ _ isLast, List.dropLast_concat,
        List.eraseIdx_append_of_lt_length isLast]
      exact (List.set_perm_cons_eraseIdx isLast last).trans (List.perm_append_singleton _ _).symm
    · have atEnd : index = front.length := by
        rw [List.length_append, List.length_singleton] at inside
        omega
      subst atEnd
      rw [List.set_append_right _ _ (Nat.le_refl _), Nat.sub_self, List.set_cons_zero,
        List.dropLast_concat, List.eraseIdx_append_of_length_le (Nat.le_refl _), Nat.sub_self,
        List.eraseIdx_zero, List.tail_cons, List.append_nil]

section SwapRemove

variable (distinct : Distinct key rows) {index : Nat} (inside : index < rows.length)

include distinct inside

theorem distinct_swapRemove : Distinct key (swapRemove rows index) := by
  have erased : Distinct key (rows.eraseIdx index) :=
    distinct.sublist ((List.eraseIdx_sublist rows index).map key)
  exact (((swapRemove_perm inside).map key).nodup_iff).mpr erased

theorem mem_swapRemove {row : ρ} :
    row ∈ swapRemove rows index ↔ row ∈ rows ∧ key row ≠ key rows[index] := by
  have whole := (List.getElem_cons_eraseIdx_perm inside)
  have wholeDistinct : ((rows[index] :: rows.eraseIdx index).map key).Nodup :=
    ((whole.map key).nodup_iff).mpr distinct
  rw [List.map_cons, List.nodup_cons] at wholeDistinct
  rw [(swapRemove_perm inside).mem_iff, ← whole.mem_iff, List.mem_cons]
  constructor
  · intro member
    exact ⟨.inr member, fun sameKey =>
      wholeDistinct.1 (sameKey ▸ List.mem_map_of_mem member)⟩
  · rintro ⟨isRow | member, differs⟩
    · exact absurd (congrArg key isRow) differs
    · exact member

theorem lookup_swapRemove [DecidableEq κ] (k : κ) :
    lookup key (swapRemove rows index) k =
      if k = key rows[index] then none else lookup key rows k := by
  split
  · rename_i isKey
    rw [lookup_eq_none_iff]
    intro row member sameKey
    exact ((mem_swapRemove distinct inside).mp member).2 (sameKey.trans isKey)
  · rename_i notKey
    apply lookup_congr (distinct_swapRemove distinct inside) distinct
    intro row isKey
    rw [mem_swapRemove distinct inside]
    exact ⟨And.left, fun member => ⟨member, fun sameKey => notKey (isKey.symm.trans sameKey)⟩⟩

end SwapRemove

/-! ## Rows left out -/

theorem distinct_filter (distinct : Distinct key rows) (keep : ρ → Bool) :
    Distinct key (rows.filter keep) :=
  distinct.sublist (List.filter_sublist.map key)

theorem lookup_filter [DecidableEq κ] (distinct : Distinct key rows) (keep : ρ → Bool) (k : κ) :
    lookup key (rows.filter keep) k = (lookup key rows k).filter keep := by
  ext row
  rw [lookup_eq_some_iff (distinct_filter distinct keep), Option.filter_eq_some_iff,
    lookup_eq_some_iff distinct, List.mem_filter]
  tauto

end Foundation.KeyedRows
