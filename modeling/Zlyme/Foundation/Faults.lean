import Zlyme.Foundation.Script

/-! # Scripts under limited faults

A run meets only some of the faults that its machine has. What is allowed depends on the
operation and on the state it is issued in, and a loss of power in front of an operation
is one of the faults.
-/

namespace Foundation.Script

variable {Op : Type} {Result : Op → Type} {Choice World α β : Type}

section Semantics

variable (machine : Machine Op Result Choice World)
  (allowed : Op → Option Choice → World → Prop)

/-- Nothing happens in the run but what is allowed. No choice for an operation is a loss
of power in front of it. -/
def Allows : Script Op Result α → List Choice → World → Prop
  | .done _, _, _ => True
  | .exit _, _, _ => True
  | .call op _, [], world => allowed op none world
  | .call op next, choice :: choices, world =>
      allowed op (some choice) world ∧
        match machine op choice world with
        | (some result, after) => (next result).Allows choices after
        | (none, _) => True

/-- Every run in which nothing happens but what is allowed ends in a postcondition. -/
def Yields : Script Op Result α → (Outcome α → World → Prop) → World → Prop
  | .done value, post, world => post (.done value) world
  | .exit status, post, world => post (.exited status) world
  | .call op next, post, world =>
      (allowed op none world → post .stopped world) ∧
        ∀ choice, allowed op (some choice) world →
          match machine op choice world with
          | (some result, after) => (next result).Yields post after
          | (none, after) => post .stopped after

instance Allows.decidable [∀ op choice world, Decidable (allowed op choice world)] :
    (script : Script Op Result α) → (choices : List Choice) → (world : World) →
      Decidable (script.Allows machine allowed choices world)
  | .done _, _, _ => .isTrue trivial
  | .exit _, _, _ => .isTrue trivial
  | .call op _, [], world => inferInstanceAs (Decidable (allowed op none world))
  | .call op next, choice :: choices, world =>
      match answer : machine op choice world with
      | (some result, after) =>
          haveI := Allows.decidable (next result) choices after
          decidable_of_iff (allowed op (some choice) world ∧
            (next result).Allows machine allowed choices after) (by rw [Allows, answer])
      | (none, after) =>
          decidable_of_iff (allowed op (some choice) world) (by rw [Allows, answer, and_true])

end Semantics

/-- The first part's outcome decides whether the second part runs. -/
def Outcome.andThen (rest : α → World → Prop) (post : Outcome β → World → Prop) :
    Outcome α → World → Prop
  | .done value, world => rest value world
  | .exited status, world => post (.exited status) world
  | .stopped, world => post .stopped world

variable {machine : Machine Op Result Choice World}
  {allowed : Op → Option Choice → World → Prop}

theorem yields_bind {first : Script Op Result α} {rest : α → Script Op Result β}
    {post : Outcome β → World → Prop} {world : World} :
    (first >>= rest).Yields machine allowed post world ↔
      first.Yields machine allowed
        (Outcome.andThen (fun value after => (rest value).Yields machine allowed post after) post)
        world := by
  induction first generalizing world with
  | done value => exact Iff.rfl
  | exit status => exact Iff.rfl
  | call op next induction =>
      refine and_congr Iff.rfl (forall_congr' fun choice => imp_congr Iff.rfl ?_)
      rcases machine op choice world with ⟨_ | result, after⟩
      · exact Iff.rfl
      · exact induction result

theorem Yields.mono {script : Script Op Result α} {post weaker : Outcome α → World → Prop}
    {world : World} (yields : script.Yields machine allowed post world)
    (implies : ∀ outcome after, post outcome after → weaker outcome after) :
    script.Yields machine allowed weaker world := by
  induction script generalizing world with
  | done value => exact implies _ world yields
  | exit status => exact implies _ world yields
  | call op next induction =>
      refine ⟨fun lost => implies _ world (yields.1 lost), fun choice happens => ?_⟩
      have answered := yields.2 choice happens
      rcases answer : machine op choice world with ⟨_ | result, after⟩
      · rw [answer] at answered
        exact implies _ after answered
      · rw [answer] at answered
        exact induction result answered

/-- The rule of sequence, with a postcondition in the middle. -/
theorem Yields.bind {first : Script Op Result α} {rest : α → Script Op Result β}
    {middle : Outcome α → World → Prop} {post : Outcome β → World → Prop} {world : World}
    (yields : first.Yields machine allowed middle world)
    (goesOn : ∀ outcome after, middle outcome after →
      Outcome.andThen (fun value after => (rest value).Yields machine allowed post after) post
        outcome after) :
    (first >>= rest).Yields machine allowed post world :=
  yields_bind.mpr (yields.mono goesOn)

/-- What a script yields holds at the end of every run that is allowed. -/
theorem Yields.exec {script : Script Op Result α} {post : Outcome α → World → Prop}
    {world : World} (yields : script.Yields machine allowed post world) {choices : List Choice}
    (happens : script.Allows machine allowed choices world) :
    post (script.exec machine choices world).1 (script.exec machine choices world).2 := by
  induction script generalizing world choices with
  | done value => exact yields
  | exit status => exact yields
  | call op next induction =>
      rcases choices with _ | ⟨choice, choices⟩
      · exact yields.1 happens
      · rw [Allows] at happens
        have answered := yields.2 choice happens.1
        rcases answer : machine op choice world with ⟨_ | result, after⟩
        · rw [answer] at answered
          rw [exec_none answer]
          exact answered
        · rw [answer] at answered happens
          rw [exec_some answer]
          exact induction result answered happens.2

end Foundation.Script
