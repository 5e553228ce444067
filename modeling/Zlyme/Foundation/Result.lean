/-! # Computations that may fail -/

namespace Foundation

theorem bind_eq_ok {ε α β : Type} {first : Except ε α} {rest : α → Except ε β} {result : β} :
    first >>= rest = .ok result ↔ ∃ value, first = .ok value ∧ rest value = .ok result := by
  cases first with
  | error error =>
      constructor
      · intro bound
        cases bound
      · rintro ⟨value, isOk, _⟩
        cases isOk
  | ok value =>
      constructor
      · exact fun bound => ⟨value, rfl, bound⟩
      · rintro ⟨other, isOk, bound⟩
        cases isOk
        exact bound

@[simp] theorem ok_bind {ε α β : Type} (value : α) (rest : α → Except ε β) :
    (Except.ok value >>= rest) = rest value := rfl

theorem eq_ok_of_toOption {ε α : Type} {result : Except ε α} {value : α}
    (computed : result.toOption = some value) : result = .ok value := by
  cases result with
  | error error => cases computed
  | ok other =>
      cases computed
      rfl

/-- `if condition: raise error`. -/
def raiseIf {ε : Type} (condition : Prop) [Decidable condition] (error : ε) : Except ε Unit :=
  if condition then .error error else .ok ()

@[simp] theorem raiseIf_eq_ok {ε : Type} {condition : Prop} [Decidable condition] {error : ε}
    {result : Unit} : raiseIf condition error = .ok result ↔ ¬condition := by
  rw [raiseIf]
  split <;> simp_all

theorem raiseIf_of_not {ε : Type} {condition : Prop} [Decidable condition] (fails : ¬condition)
    (error : ε) : raiseIf condition error = .ok () :=
  if_neg fails

/-- The value, or `error` where there is none. -/
def orRaise {ε α : Type} (found : Option α) (error : ε) : Except ε α :=
  match found with
  | none => .error error
  | some value => .ok value

@[simp] theorem orRaise_some {ε α : Type} (value : α) (error : ε) :
    orRaise (some value) error = .ok value := rfl

@[simp] theorem orRaise_eq_ok {ε α : Type} {found : Option α} {error : ε} {value : α} :
    orRaise found error = .ok value ↔ found = some value := by
  cases found <;> simp [orRaise]

/-- A loop whose body only checks. -/
theorem forM_eq_ok {ε α : Type} {check : α → Except ε Unit} {items : List α} {result : Unit} :
    forM items check = .ok result ↔ ∀ item ∈ items, check item = .ok () := by
  induction items with
  | nil => simp [pure, Except.pure]
  | cons item rest induction =>
      rw [List.forM_cons, bind_eq_ok]
      simp only [induction, List.forall_mem_cons]
      exact ⟨fun ⟨_, head, tail⟩ => ⟨head, tail⟩, fun ⟨head, tail⟩ => ⟨(), head, tail⟩⟩

theorem ok_of_foldlM_eq_ok {ε σ α : Type} {step : σ → α → Except ε σ} {items : List α}
    {state last : σ} (run : items.foldlM step state = .ok last) {item : α} (member : item ∈ items) :
    ∃ before after, step before item = .ok after := by
  induction items generalizing state with
  | nil => cases member
  | cons first rest induction =>
      rw [List.foldlM_cons, bind_eq_ok] at run
      rcases run with ⟨next, head, tail⟩
      rcases List.mem_cons.mp member with rfl | later
      · exact ⟨state, next, head⟩
      · exact induction tail later

/-- A loop whose steps keep an invariant, each doing its own part and undoing no other. -/
theorem foldlM_establishes {ε σ α : Type} (step : σ → α → Except ε σ) {items : List α}
    {invariant : σ → Prop} (part : α → σ → Prop)
    (steps : ∀ item ∈ items, ∀ state, invariant state → ∃ after, step state item = .ok after ∧
      invariant after ∧ part item after ∧ ∀ other, part other state → part other after)
    {state : σ} (start : invariant state) :
    ∃ last, items.foldlM step state = .ok last ∧ invariant last ∧
      (∀ item ∈ items, part item last) ∧ ∀ other, part other state → part other last := by
  induction items generalizing state with
  | nil => exact ⟨state, rfl, start, fun _ member => absurd member List.not_mem_nil, fun _ done => done⟩
  | cons item rest induction =>
      rcases steps item List.mem_cons_self state start with ⟨after, isAfter, holds, done, kept⟩
      rcases induction (fun item member => steps item (List.mem_cons_of_mem _ member)) holds with
        ⟨last, isLast, holds, others, later⟩
      refine ⟨last, ?_, holds, ?_, fun other done => later other (kept other done)⟩
      · rw [List.foldlM_cons, isAfter, ok_bind, isLast]
      · rw [List.forall_mem_cons]
        exact ⟨later item done, others⟩

/-- A loop that succeeds is followed by one whose steps follow its own. -/
theorem foldlM_simulates {ε ε' σ τ α : Type} {first : σ → α → Except ε σ}
    {second : τ → α → Except ε' τ} {related : σ → τ → Prop} {items : List α}
    (steps : ∀ item ∈ items, ∀ state next other, related state other →
      first state item = .ok next → ∃ after, second other item = .ok after ∧ related next after)
    {state last : σ} {other : τ} (start : related state other)
    (run : items.foldlM first state = .ok last) :
    ∃ after, items.foldlM second other = .ok after ∧ related last after := by
  induction items generalizing state other with
  | nil =>
      cases run
      exact ⟨other, rfl, start⟩
  | cons item rest induction =>
      rw [List.foldlM_cons, bind_eq_ok] at run
      rcases run with ⟨next, head, tail⟩
      rcases steps item List.mem_cons_self state next other start head with ⟨after, follows, nextRelated⟩
      rcases induction (fun item member => steps item (List.mem_cons_of_mem _ member)) nextRelated tail with
        ⟨final, run, related⟩
      refine ⟨final, ?_, related⟩
      rw [List.foldlM_cons, follows, ok_bind, run]

section Refusal

variable {σ τ α : Type} {first : σ → α → σ} {second : τ → α → τ} {refused : σ → Bool}
  {related : σ → τ → Prop} {items : List α}
  (earlier : ∀ state item, refused (first state item) = false → refused state = false)

include earlier

theorem not_refused_of_foldl {state : σ} (ends : refused (items.foldl first state) = false) :
    refused state = false := by
  induction items generalizing state with
  | nil => exact ends
  | cons item rest induction => exact earlier state item (induction ends)

theorem step_not_refused_of_foldl {state : σ} (ends : refused (items.foldl first state) = false)
    {item : α} (member : item ∈ items) : ∃ before, refused (first before item) = false := by
  induction items generalizing state with
  | nil => cases member
  | cons head rest induction =>
      rcases List.mem_cons.mp member with rfl | later
      · exact ⟨state, not_refused_of_foldl earlier ends⟩
      · exact induction ends later

/-- A loop that never recovers from a refusal, followed step by step while it
ends without one. -/
theorem foldl_simulates
    (steps : ∀ item ∈ items, ∀ state other, related state other →
      refused (first state item) = false → related (first state item) (second other item))
    {state : σ} {other : τ} (start : related state other)
    (ends : refused (items.foldl first state) = false) :
    related (items.foldl first state) (items.foldl second other) := by
  induction items generalizing state other with
  | nil => exact start
  | cons item rest induction =>
      have step := steps item List.mem_cons_self state other start (not_refused_of_foldl earlier ends)
      exact induction (fun item member => steps item (List.mem_cons_of_mem _ member)) step ends

end Refusal

theorem mapM_eq_ok {ε α β : Type} {step : α → Except ε β} {value : α → β} {items : List α}
    (steps : ∀ item ∈ items, step item = .ok (value item)) :
    items.mapM step = .ok (items.map value) := by
  induction items with
  | nil => rfl
  | cons item rest induction =>
      have head := steps item List.mem_cons_self
      have tail := induction fun other member => steps other (List.mem_cons_of_mem _ member)
      rw [List.mapM_cons, head, tail]
      rfl

theorem ok_of_mapM_eq_ok {ε α β : Type} {step : α → Except ε β} {items : List α} {result : List β}
    (mapped : items.mapM step = .ok result) {item : α} (member : item ∈ items) :
    ∃ value, step item = .ok value := by
  induction items generalizing result with
  | nil => cases member
  | cons first rest induction =>
      rw [List.mapM_cons, bind_eq_ok] at mapped
      rcases mapped with ⟨value, head, mapped⟩
      rcases bind_eq_ok.mp mapped with ⟨_, tail, _⟩
      rcases List.mem_cons.mp member with rfl | later
      · exact ⟨value, head⟩
      · exact induction tail later

theorem filterAuxM_eq_ok {ε α : Type} {check : α → Except ε Bool} {keep : α → Bool}
    {items kept : List α} (checks : ∀ item ∈ items, check item = .ok (keep item)) :
    items.filterAuxM check kept = .ok ((items.filter keep).reverse ++ kept) := by
  induction items generalizing kept with
  | nil => rfl
  | cons item rest induction =>
      have head := checks item List.mem_cons_self
      have tail : ∀ kept, rest.filterAuxM check kept =
          .ok ((rest.filter keep).reverse ++ kept) := fun kept =>
        induction fun other member => checks other (List.mem_cons_of_mem _ member)
      rw [List.filterAuxM, head]
      cases keeps : keep item with
      | true =>
          rw [List.filter_cons_of_pos keeps, List.reverse_cons, List.append_assoc]
          exact tail (item :: kept)
      | false =>
          rw [List.filter_cons_of_neg (by simp [keeps])]
          exact tail kept

theorem filterM_eq_ok {ε α : Type} {check : α → Except ε Bool} {keep : α → Bool}
    {items : List α} (checks : ∀ item ∈ items, check item = .ok (keep item)) :
    items.filterM check = .ok (items.filter keep) := by
  rw [List.filterM, filterAuxM_eq_ok checks]
  simp [bind, Except.bind, pure, Except.pure]

theorem allM_eq_ok {ε α : Type} {check : α → Except ε Bool} {items : List α}
    (checks : ∀ item ∈ items, check item = .ok true) : items.allM check = .ok true := by
  induction items with
  | nil => rfl
  | cons item rest induction =>
      rw [List.allM, checks item List.mem_cons_self]
      exact induction fun other member => checks other (List.mem_cons_of_mem _ member)

/-! ## Sorting by a key

A stable sort that computes the key of every item first, as `list.sort(key=…)` does.
-/

def sortBy {ε α : Type} (key : α → Except ε Int) (items : List α) : Except ε (List α) := do
  let keyed ← items.mapM fun item => return (← key item, item)
  return (keyed.mergeSort fun left right => left.1 ≤ right.1).map Prod.snd

theorem sortBy_eq_ok {ε α : Type} {key : α → Except ε Int} {size : α → Int} {items : List α}
    (keys : ∀ item ∈ items, key item = .ok (size item)) :
    sortBy key items = .ok (items.mergeSort fun left right => size left ≤ size right) := by
  have keyed : items.mapM (fun item => return (← key item, item)) =
      .ok (items.map fun item => (size item, item)) := by
    refine mapM_eq_ok fun item member => ?_
    rw [keys item member]
    rfl
  rw [sortBy, keyed]
  refine congrArg Except.ok ?_
  rw [← List.map_mergeSort (r := fun left right => size left ≤ size right) (by simp)]
  simp [Function.comp_def]

/-- The first item of the sorted list is a first one among the least. -/
theorem head_mergeSort {α : Type} {size : α → Int} {items : List α} {first : α} {rest : List α}
    (sorted : (items.mergeSort fun left right => size left ≤ size right) = first :: rest) :
    first ∈ items ∧ ∀ item ∈ items, size first ≤ size item := by
  have ordered : (items.mergeSort fun left right => size left ≤ size right).Pairwise
      fun left right => decide (size left ≤ size right) :=
    List.pairwise_mergeSort (by simpa using fun _ _ _ => Int.le_trans)
      (by simpa using fun _ _ => Int.le_total _ _) items
  have members : ∀ item, item ∈ first :: rest ↔ item ∈ items := by
    rw [← sorted]
    exact fun _ => List.mem_mergeSort
  rw [sorted, List.pairwise_cons] at ordered
  refine ⟨(members first).mp List.mem_cons_self, fun item member => ?_⟩
  rcases List.mem_cons.mp ((members item).mpr member) with rfl | later
  · exact Int.le_refl _
  · simpa using ordered.1 item later

/-! ## What a computation ends with -/

/-- The error has one property, the value another one. -/
def Satisfies {ε α : Type} (failed : ε → Prop) (done : α → Prop) : Except ε α → Prop
  | .error error => failed error
  | .ok value => done value

/-- The rule of sequence. -/
theorem Satisfies.bind {ε α β : Type} {failed : ε → Prop} {middle : α → Prop} {done : β → Prop}
    {first : Except ε α} {rest : α → Except ε β} (satisfies : Satisfies failed middle first)
    (goesOn : ∀ value, middle value → Satisfies failed done (rest value)) :
    Satisfies failed done (first >>= rest) := by
  cases first with
  | error error => exact satisfies
  | ok value => exact goesOn value satisfies

/-- The rule of a loop whose body only checks. -/
theorem satisfies_forM {ε α : Type} {failed : ε → Prop} {check : α → Except ε Unit}
    {items : List α} (each : ∀ item ∈ items, Satisfies failed (fun _ => True) (check item)) :
    Satisfies failed (fun _ => True) (items.forM check) := by
  induction items with
  | nil => trivial
  | cons item rest induction =>
      rw [List.forall_mem_cons] at each
      exact each.1.bind fun _ _ => induction each.2

end Foundation
