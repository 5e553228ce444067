import Mathlib.Data.List.Induction

/-! # The best item so far

A loop that keeps the best of the items of one kind, and the first of those that are as good.
-/

namespace Foundation

variable {α : Type} {takes : α → Bool} {beats : α → α → Bool} {items : List α}

/-- One turn of the loop. -/
def keepBest (takes : α → Bool) (beats : α → α → Bool) (best : Option α) (item : α) : Option α :=
  if takes item then
    match best with
    | none => some item
    | some old => if beats item old then some item else some old
  else best

def bestOf (takes : α → Bool) (beats : α → α → Bool) (items : List α) : Option α :=
  items.foldl (keepBest takes beats) none

theorem bestOf_concat {item : α} :
    bestOf takes beats (items ++ [item]) = keepBest takes beats (bestOf takes beats items) item := by
  simp [bestOf]

@[simp] theorem bestOf_nil : bestOf takes beats [] = none := rfl

/-- What one turn does: the item wins, or what was kept stays. -/
theorem keepBest_eq_some {best : Option α} {item result : α} :
    keepBest takes beats best item = some result ↔
      (takes item = true ∧ result = item ∧ ∀ old, best = some old → beats item old = true) ∨
        (best = some result ∧ (takes item = true → beats item result = false)) := by
  unfold keepBest
  cases taken : takes item with
  | false => simp
  | true =>
      cases best with
      | none =>
          constructor
          · intro isItem
            exact .inl ⟨rfl, (Option.some.inj isItem).symm, nofun⟩
          · rintro (⟨-, rfl, -⟩ | ⟨impossible, -⟩)
            · rfl
            · cases impossible
      | some old =>
          cases wins : beats item old with
          | true =>
              simp only [wins, if_true, Option.some.injEq, true_and, forall_true_left]
              constructor
              · rintro rfl
                exact .inl ⟨rfl, fun _ same => same ▸ wins⟩
              · rintro (⟨rfl, -⟩ | ⟨rfl, fails⟩)
                · rfl
                · rw [fails] at wins
                  cases wins
          | false =>
              simp only [wins, if_true, Option.some.injEq, Bool.false_eq_true, if_false, true_and,
                forall_true_left]
              constructor
              · rintro rfl
                exact .inr ⟨rfl, wins⟩
              · rintro (⟨-, beaten⟩ | ⟨same, -⟩)
                · rw [beaten old rfl] at wins
                  cases wins
                · exact same

theorem keepBest_eq_none {best : Option α} {item : α} :
    keepBest takes beats best item = none ↔ best = none ∧ takes item = false := by
  unfold keepBest
  cases takes item <;> cases best <;> simp
  split <;> simp

theorem bestOf_eq_none_iff :
    bestOf takes beats items = none ↔ ∀ item ∈ items, takes item = false := by
  induction items using List.reverseRecOn with
  | nil => simp
  | append_singleton items item induction =>
      rw [bestOf_concat, keepBest_eq_none, induction]
      simp [or_imp, forall_and]

theorem mem_of_bestOf {best : α} (isBest : bestOf takes beats items = some best) :
    best ∈ items ∧ takes best = true := by
  induction items using List.reverseRecOn with
  | nil => cases isBest
  | append_singleton items item induction =>
      rw [bestOf_concat, keepBest_eq_some] at isBest
      rcases isBest with ⟨taken, rfl, -⟩ | ⟨isOld, -⟩
      · exact ⟨by simp, taken⟩
      · have known := induction isOld
        exact ⟨List.mem_append_left _ known.1, known.2⟩

/-- The loop keeps an item of least size, where only an item that is not larger beats another
one and every smaller one does. -/
theorem bestOf_least (size : α → Int)
    (notLarger : ∀ item old, beats item old = true → size item ≤ size old)
    (smaller : ∀ item old, beats item old = false → size old ≤ size item)
    {best : α} (isBest : bestOf takes beats items = some best) :
    ∀ item ∈ items, takes item = true → size best ≤ size item := by
  induction items using List.reverseRecOn generalizing best with
  | nil => cases isBest
  | append_singleton items last induction =>
      intro item member taken
      rw [bestOf_concat, keepBest_eq_some] at isBest
      rcases isBest with ⟨-, rfl, wins⟩ | ⟨isOld, loses⟩
      · rcases List.mem_append.mp member with before | isLast
        · cases found : bestOf takes beats items with
          | none =>
              rw [bestOf_eq_none_iff.mp found item before] at taken
              cases taken
          | some old =>
              exact Int.le_trans (notLarger best old (wins old found))
                (induction found item before taken)
        · have isItem := List.mem_singleton.mp isLast
          subst isItem
          exact Int.le_refl _
      · rcases List.mem_append.mp member with before | isLast
        · exact induction isOld item before taken
        · rw [List.mem_singleton.mp isLast] at taken ⊢
          exact smaller last best (loses taken)

end Foundation
