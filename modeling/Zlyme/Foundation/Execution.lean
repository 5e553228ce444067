/-! # Deterministic executions

A machine moves on labels. A label carries everything the machine does not
decide by itself: which operation is called, and what its environment answers.
-/

namespace Foundation.Execution

variable {State Label : Type} (step : State → Label → State)

/-! ## Runs -/

/-- The state after a list of labels. -/
def run (start : State) : List Label → State
  | [] => start
  | label :: rest => run (step start label) rest

@[simp] theorem run_nil (start : State) : run step start [] = start := rfl

@[simp] theorem run_cons (start : State) (label : Label) (rest : List Label) :
    run step start (label :: rest) = run step (step start label) rest := rfl

theorem run_append (start : State) (front back : List Label) :
    run step start (front ++ back) = run step (run step start front) back := by
  induction front generalizing start with
  | nil => rfl
  | cons label rest induction => exact induction (step start label)

/-! ## Invariants -/

/-- Every label of the run meets a condition at the state it is taken in. -/
def Along (condition : State → Label → Prop) : State → List Label → Prop
  | _, [] => True
  | state, label :: rest => condition state label ∧ Along condition (step state label) rest

/-- Every state of the run is safe, the first one included. -/
def Throughout (safe : State → Prop) : State → List Label → Prop
  | state, [] => safe state
  | state, label :: rest => safe state ∧ Throughout safe (step state label) rest

instance Along.decidable (condition : State → Label → Prop)
    [∀ state label, Decidable (condition state label)] :
    (start : State) → (labels : List Label) → Decidable (Along step condition start labels)
  | _, [] => .isTrue trivial
  | start, label :: rest =>
      haveI := Along.decidable condition (step start label) rest
      inferInstanceAs (Decidable (_ ∧ _))

instance Throughout.decidable (safe : State → Prop) [DecidablePred safe] :
    (start : State) → (labels : List Label) → Decidable (Throughout step safe start labels)
  | start, [] => inferInstanceAs (Decidable (safe start))
  | start, label :: rest =>
      haveI := Throughout.decidable safe (step start label) rest
      inferInstanceAs (Decidable (_ ∧ _))

variable {step}

/-- What every step keeps is kept by a whole run. -/
theorem run_invariant (invariant : State → Prop)
    (kept : ∀ state label, invariant state → invariant (step state label))
    {start : State} (holds : invariant start) (labels : List Label) :
    invariant (run step start labels) := by
  induction labels generalizing start with
  | nil => exact holds
  | cons label rest induction => exact induction (kept start label holds)

/-- What the labels of a run keep is kept by the run. -/
theorem run_invariant_of_mem (invariant : State → Prop) {labels : List Label}
    (kept : ∀ state, ∀ label ∈ labels, invariant state → invariant (step state label))
    {start : State} (holds : invariant start) : invariant (run step start labels) := by
  induction labels generalizing start with
  | nil => exact holds
  | cons label rest induction =>
      apply induction
      · intro state other member
        exact kept state other (List.mem_cons_of_mem label member)
      · exact kept start label List.mem_cons_self holds

theorem along_congr {first second : State → Label → Prop}
    (same : ∀ state label, first state label ↔ second state label)
    {start : State} {labels : List Label} :
    Along step first start labels ↔ Along step second start labels := by
  induction labels generalizing start with
  | nil => exact Iff.rfl
  | cons label rest induction => exact and_congr (same start label) induction

theorem along_append {condition : State → Label → Prop} {start : State}
    {front back : List Label} : Along step condition start (front ++ back) ↔
      Along step condition start front ∧ Along step condition (run step start front) back := by
  induction front generalizing start with
  | nil => exact (and_iff_right trivial).symm
  | cons label rest induction => exact (and_congr_right' induction).trans and_assoc.symm

/-- What the steps under a condition keep is kept by a run that meets it. -/
theorem along_run_invariant {condition : State → Label → Prop} (invariant : State → Prop)
    (kept : ∀ state label, invariant state → condition state label →
      invariant (step state label))
    {start : State} {labels : List Label} (along : Along step condition start labels)
    (holds : invariant start) : invariant (run step start labels) := by
  induction labels generalizing start with
  | nil => exact holds
  | cons label rest induction => exact induction along.2 (kept start label holds along.1)

/-- An invariant may be used to read one condition along a run from another. -/
theorem Along.of_invariant {condition goal : State → Label → Prop} (invariant : State → Prop)
    (kept : ∀ state label, invariant state → condition state label →
      invariant (step state label))
    (enough : ∀ state label, invariant state → condition state label → goal state label)
    {start : State} {labels : List Label} (along : Along step condition start labels)
    (holds : invariant start) : Along step goal start labels := by
  induction labels generalizing start with
  | nil => trivial
  | cons label rest induction =>
      exact ⟨enough start label holds along.1,
        induction along.2 (kept start label holds along.1)⟩

/-- When the invariant makes the condition and the goal agree, and steps under the
condition keep it, a run that meets the one meets the other. -/
theorem along_iff_along {condition goal : State → Label → Prop} (invariant : State → Prop)
    (kept : ∀ state label, invariant state → condition state label →
      invariant (step state label))
    (agree : ∀ state label, invariant state → (condition state label ↔ goal state label))
    {start : State} (holds : invariant start) (labels : List Label) :
    Along step condition start labels ↔ Along step goal start labels := by
  induction labels generalizing start with
  | nil => exact Iff.rfl
  | cons label rest induction =>
      constructor
      · rintro ⟨met, later⟩
        exact ⟨(agree start label holds).mp met, (induction (kept start label holds met)).mp later⟩
      · rintro ⟨reached, later⟩
        have met := (agree start label holds).mpr reached
        exact ⟨met, (induction (kept start label holds met)).mpr later⟩

/-- A run whose steps meet the condition stays in the safe states. -/
theorem Along.throughout {condition : State → Label → Prop} {safe : State → Prop}
    (invariant : State → Prop) (enough : ∀ state, invariant state → safe state)
    (kept : ∀ state label, invariant state → condition state label →
      invariant (step state label))
    {start : State} {labels : List Label} (along : Along step condition start labels)
    (holds : invariant start) : Throughout step safe start labels := by
  induction labels generalizing start with
  | nil => exact enough start holds
  | cons label rest induction =>
      exact ⟨enough start holds, induction along.2 (kept start label holds along.1)⟩

theorem throughout_iff_prefix {safe : State → Prop} {start : State} {labels : List Label} :
    Throughout step safe start labels ↔
      ∀ head, head <+: labels → safe (run step start head) := by
  induction labels generalizing start with
  | nil =>
      constructor
      · intro holds head isPrefix
        rw [List.prefix_nil.mp isPrefix]
        exact holds
      · intro all
        exact all [] List.nil_prefix
  | cons label rest induction =>
      constructor
      · rintro ⟨holds, later⟩ head isPrefix
        rcases head with _ | ⟨first, tail⟩
        · exact holds
        · rcases List.cons_prefix_cons.mp isPrefix with ⟨rfl, tailPrefix⟩
          exact induction.mp later tail tailPrefix
      · intro all
        refine ⟨all [] List.nil_prefix, induction.mpr fun head isPrefix => ?_⟩
        exact all (label :: head) (List.cons_prefix_cons.mpr ⟨rfl, isPrefix⟩)

/-- When the invariant makes a state safe, steps under a condition keep it, and
any other step leaves the safe states, a run is safe throughout exactly when it
meets the condition at each of its steps. -/
theorem throughout_iff_along {condition : State → Label → Prop} {safe : State → Prop}
    (invariant : State → Prop)
    (enough : ∀ state, invariant state → safe state)
    (kept : ∀ state label, invariant state → condition state label →
      invariant (step state label))
    (broken : ∀ state label, invariant state → ¬condition state label →
      ¬safe (step state label))
    {start : State} (holds : invariant start) (labels : List Label) :
    Throughout step safe start labels ↔ Along step condition start labels := by
  induction labels generalizing start with
  | nil => exact ⟨fun _ => trivial, fun _ => enough start holds⟩
  | cons label rest induction =>
      by_cases met : condition start label
      · have rest := induction (kept start label holds met)
        exact ⟨fun all => ⟨met, rest.mp all.2⟩,
          fun along => ⟨enough start holds, rest.mpr along.2⟩⟩
      · refine ⟨fun all => absurd ?_ (broken start label holds met),
          fun along => absurd along.1 met⟩
        exact throughout_iff_prefix.mp all.2 [] List.nil_prefix

end Foundation.Execution
