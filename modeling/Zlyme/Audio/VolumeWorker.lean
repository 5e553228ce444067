import Zlyme.Foundation.Interleaving

/-! # The volume worker

`set_volume` of `zlyme-audio` saves the percent and then sees to it that a worker is
there. The worker keeps the life lock for its whole life. The state lock is only for
the handoff: a caller tries the life lock under it, and the worker reads the percent
again and drops the life lock under it.
-/

namespace Zlyme.Audio

open Foundation Foundation.Execution Foundation.Threads

/-! ## One caller -/

/-- What `clamp_volume` prints. -/
abbrev Percent : Type :=
  { text : String // text ≠ "" }

/-- Where a caller stands, or the worker that it has forked: the next operation of
each. The worker begins with `flock 7`, which waits for the state lock of its parent,
so that the two take their operations one after the other. -/
inductive Caller
  | idle
  /-- `cur=$(saved ZLYME_VOLUME)` -/
  | comparing (value : Percent)
  /-- The `mv` of `save`. -/
  | saving (value : Percent)
  | publishing
  /-- `flock 9` -/
  | locking
  /-- `flock -n 8` -/
  | trying
  | forking
  /-- `exec 8>&-` of the parent. -/
  | closing
  /-- `flock -u 9`, with a worker of its own. -/
  | handing
  /-- `flock -u 9`, with the worker of another one. -/
  | leaving
  /-- `flock 7` -/
  | waiting
  | reading
  /-- `flock -u 7` -/
  | unlocking (want : Option Percent)
  | testing (want : Option Percent)
  /-- `apply_gain` runs. -/
  | applying (want : Percent)
  /-- `flock 7` -/
  | relocking (want : Percent)
  | rereading (want : Percent)
  /-- `exec 8>&-` under the state lock. -/
  | dropping
  | ending
  /-- `flock -u 7`, and once more. -/
  | repeating
  /-- `exec 8>&-` after the loop. -/
  | quitting
  | finished
  deriving DecidableEq

structure Shared where
  /-- The last `ZLYME_VOLUME` of the conf file. -/
  saved : Option Percent
  /-- The last percent whose gain was applied. -/
  applied : Option Percent
  /-- Some caller has its percent in the conf file. -/
  requested : Bool
  /-- The lock on `volume.state`. -/
  state : Bool
  /-- How many descriptors share the lock on `volume.life`. -/
  life : Nat
  deriving DecidableEq

/-- What comes from outside, and how the operation turns out. -/
inductive Choice
  | call (value : Percent)
  | proceed
  | saveFails
  | pipewireDown
  | applyFails
  deriving DecidableEq

def act : Act Caller Choice Shared
  | .idle, .call value, shared => some (.comparing value, shared)
  | .idle, _, _ => none
  | .comparing value, _, shared =>
      if shared.saved = some value then some (.publishing, { shared with requested := true })
      else some (.saving value, shared)
  | .saving _, .saveFails, shared => some (.finished, shared)
  | .saving value, _, shared =>
      some (.publishing, { shared with saved := some value, requested := true })
  | .publishing, _, shared => some (.locking, shared)
  | .locking, _, shared =>
      if shared.state then none else some (.trying, { shared with state := true })
  | .trying, _, shared =>
      if shared.life = 0 then some (.forking, { shared with life := 1 })
      else some (.leaving, shared)
  | .forking, _, shared => some (.closing, { shared with life := shared.life + 1 })
  | .closing, _, shared => some (.handing, { shared with life := shared.life - 1 })
  | .handing, _, shared => some (.waiting, { shared with state := false })
  | .leaving, _, shared => some (.finished, { shared with state := false })
  | .waiting, _, shared =>
      if shared.state then none else some (.reading, { shared with state := true })
  | .reading, _, shared => some (.unlocking shared.saved, shared)
  | .unlocking want, _, shared => some (.testing want, { shared with state := false })
  | .testing none, _, shared => some (.quitting, shared)
  | .testing (some _), .pipewireDown, shared => some (.quitting, shared)
  | .testing (some want), _, shared => some (.applying want, shared)
  | .applying want, .applyFails, shared => some (.relocking want, shared)
  | .applying want, _, shared => some (.relocking want, { shared with applied := some want })
  | .relocking want, _, shared =>
      if shared.state then none else some (.rereading want, { shared with state := true })
  | .rereading want, _, shared =>
      if shared.saved = some want then some (.dropping, shared) else some (.repeating, shared)
  | .dropping, _, shared => some (.ending, { shared with life := shared.life - 1 })
  | .ending, _, shared => some (.finished, { shared with state := false })
  | .repeating, _, shared => some (.waiting, { shared with state := false })
  | .quitting, _, shared => some (.finished, { shared with life := shared.life - 1 })
  | .finished, _, _ => none

/-- PipeWire is up, and the gain is applied. -/
def Choice.Good (choice : Choice) : Prop :=
  choice ≠ .pipewireDown ∧ choice ≠ .applyFails

instance : DecidablePred Choice.Good :=
  fun _ => inferInstanceAs (Decidable (_ ∧ _))

/-- The callers that have the state lock. -/
def Caller.HoldsState : Caller → Prop
  | .trying | .forking | .closing | .handing | .leaving => True
  | .reading | .unlocking _ | .rereading _ | .dropping | .ending | .repeating => True
  | _ => False

/-- How many descriptors of the life lock a caller and its worker have. -/
def Caller.descriptors : Caller → Nat
  | .closing => 2
  | .forking | .handing | .waiting | .reading | .unlocking _ | .testing _ => 1
  | .applying _ | .relocking _ | .rereading _ | .dropping | .repeating | .quitting => 1
  | _ => 0

def Caller.HoldsLife (caller : Caller) : Prop :=
  0 < caller.descriptors

abbrev System (Id : Type) : Type :=
  Threads Id Caller Shared

/-- Nobody has called yet. -/
def System.start (Id : Type) (saved : Option Percent) : System Id where
  locals _ := .idle
  shared := ⟨saved, none, false, false, 0⟩

/-- Every caller that has come is through, and so is every worker. -/
def System.Quiet {Id : Type} (system : System Id) : Prop :=
  ∀ id, system.locals id = .idle ∨ system.locals id = .finished

/-! ## The locks -/

section Moves

variable {caller next : Caller} {choice : Choice} {before shared : Shared}

theorem state_handoff (moves : act caller choice before = some (next, shared)) :
    Handoff Caller.HoldsState caller next (before.state = true) (shared.state = true) := by
  cases caller with
  | locking | waiting | relocking =>
      simp only [act] at moves
      split at moves
      · cases moves
      · rename_i free
        cases moves
        exact .acquire free trivial rfl
  | handing | leaving | unlocking | ending | repeating =>
      cases moves
      exact .release trivial not_false Bool.false_ne_true
  | comparing | trying | rereading =>
      simp only [act] at moves
      split at moves <;> cases moves <;> exact .keep Iff.rfl Iff.rfl
  | idle | saving | applying =>
      cases choice <;> cases moves <;> exact .keep Iff.rfl Iff.rfl
  | testing want =>
      cases want <;> cases choice <;> cases moves <;> exact .keep Iff.rfl Iff.rfl
  | finished => cases moves
  | _ =>
      cases moves
      exact .keep Iff.rfl Iff.rfl

/-- What one move does to the life lock: the descriptors of the one that has it are all
there are. -/
structure LifeMove (caller next : Caller) (life life' : Nat) : Prop where
  handoff : Handoff Caller.HoldsLife caller next (0 < life) (0 < life')
  count : next.HoldsLife → life' = next.descriptors
  same : life' = life ∨ caller.HoldsLife ∨ life = 0

theorem LifeMove.keep {life : Nat} (count : caller.HoldsLife → life = caller.descriptors)
    (same : next.descriptors = caller.descriptors) : LifeMove caller next life life where
  handoff := .keep (by rw [Caller.HoldsLife, same]; exact Iff.rfl) Iff.rfl
  count holds := by
    rw [same]
    apply count
    rw [Caller.HoldsLife, ← same]
    exact holds
  same := .inl rfl

theorem LifeMove.drop {life : Nat} (count : caller.HoldsLife → life = caller.descriptors)
    (last : caller.descriptors = 1) (none : next.descriptors = 0) :
    LifeMove caller next life (life - 1) where
  handoff := by
    have holds : caller.HoldsLife := by rw [Caller.HoldsLife, last]; decide
    have := count holds
    exact .release holds (by rw [Caller.HoldsLife, none]; decide) (by omega)
  count holds := by rw [Caller.HoldsLife, none] at holds; exact absurd holds (by decide)
  same := .inr (.inl (by rw [Caller.HoldsLife, last]; decide))

theorem life_move (count : caller.HoldsLife → before.life = caller.descriptors)
    (moves : act caller choice before = some (next, shared)) :
    LifeMove caller next before.life shared.life := by
  cases caller with
  | trying =>
      simp only [act] at moves
      split at moves
      · rename_i free
        cases moves
        exact ⟨.acquire (by omega) Nat.one_pos Nat.one_pos, fun _ => rfl, .inr (.inr free)⟩
      · cases moves
        exact .keep count rfl
  | forking =>
      have one : before.life = 1 := count Nat.one_pos
      cases moves
      refine ⟨.keep ⟨fun _ => Nat.one_pos, fun _ => Nat.two_pos⟩ ?_, fun _ => ?_,
        .inr (.inl Nat.one_pos)⟩
      · dsimp only
        omega
      · dsimp only
        rw [one]
        rfl
  | closing =>
      have two : before.life = 2 := count Nat.two_pos
      cases moves
      refine ⟨.keep ⟨fun _ => Nat.two_pos, fun _ => Nat.one_pos⟩ ?_, fun _ => ?_,
        .inr (.inl Nat.two_pos)⟩
      · dsimp only
        omega
      · dsimp only
        rw [two]
        rfl
  | dropping | quitting =>
      cases moves
      exact .drop count rfl rfl
  | locking | waiting | relocking =>
      simp only [act] at moves
      split at moves <;> cases moves <;> exact .keep count rfl
  | comparing | rereading =>
      simp only [act] at moves
      split at moves <;> cases moves <;> exact .keep count rfl
  | idle | saving | applying =>
      cases choice <;> cases moves <;> exact .keep count rfl
  | testing want =>
      cases want <;> cases choice <;> cases moves <;> exact .keep count rfl
  | finished => cases moves
  | _ =>
      cases moves
      exact .keep count rfl

end Moves

/-! ## The work that is still to come -/

/-- Those that will read the saved percent again before they apply a gain or leave, or
have applied what they compare it with. -/
def Caller.Serves : Caller → Prop
  | .publishing | .locking | .trying | .forking | .closing | .handing => True
  | .waiting | .reading | .unlocking _ | .testing _ | .applying _ => True
  | .relocking _ | .rereading _ | .repeating => True
  | _ => False

/-- What holds of a caller, and of its worker, when PipeWire is up and every gain is
applied. -/
def Caller.Sound (shared : Shared) : Caller → Prop
  | .idle | .comparing _ | .saving _ | .finished => True
  | .unlocking want | .testing want => shared.requested = true ∧ want ≠ none
  | .relocking want | .rereading want => shared.requested = true ∧ shared.applied = some want
  | .quitting => False
  | _ => shared.requested = true

/-- A worker that nobody else is waiting for: it will look again. -/
theorem Caller.Sound.serves {shared : Shared} {caller : Caller} (sound : caller.Sound shared)
    (holdsLife : caller.HoldsLife) (free : ¬caller.HoldsState) : caller.Serves := by
  cases caller with
  | quitting => exact sound.elim
  | dropping => exact absurd trivial free
  | idle | comparing | saving | leaving | ending | finished => exact absurd holdsLife (Nat.not_lt_zero _)
  | _ => trivial

/-- What holds of the files between any two operations. -/
structure Shared.Sound (shared : Shared) : Prop where
  saved : shared.requested = true → shared.saved ≠ none
  applied : shared.applied ≠ none → shared.requested = true

section Moves

variable {caller next : Caller} {choice : Choice} {before shared : Shared}

/-- What one move does to the percents. -/
inductive PercentMove (before shared : Shared) : Caller → Caller → Prop
  | keep {caller next : Caller} (saved : shared.saved = before.saved)
      (applied : shared.applied = before.applied)
      (requested : shared.requested = before.requested) : PercentMove before shared caller next
  | save (caller : Caller) (saved : shared.saved ≠ none)
      (applied : shared.applied = before.applied)
      (requested : shared.requested = true) : PercentMove before shared caller .publishing
  | apply (want : Percent) (saved : shared.saved = before.saved)
      (applied : shared.applied = some want)
      (requested : shared.requested = before.requested) :
      PercentMove before shared (.applying want) (.relocking want)

theorem percent_move (moves : act caller choice before = some (next, shared)) :
    PercentMove before shared caller next := by
  cases caller with
  | applying want =>
      cases choice with
      | applyFails => cases moves; exact .keep rfl rfl rfl
      | _ => cases moves; exact .apply want rfl rfl rfl
  | comparing value =>
      simp only [act] at moves
      split at moves
      · rename_i same
        cases moves
        exact .save _ (by rw [same]; nofun) rfl rfl
      · cases moves
        exact .keep rfl rfl rfl
  | saving value =>
      cases choice with
      | saveFails => cases moves; exact .keep rfl rfl rfl
      | _ => cases moves; exact .save _ nofun rfl rfl
  | locking | trying | waiting | relocking | rereading =>
      simp only [act] at moves
      split at moves <;> cases moves <;> exact .keep rfl rfl rfl
  | idle => cases choice <;> cases moves <;> exact .keep rfl rfl rfl
  | testing want =>
      cases want <;> cases choice <;> cases moves <;> exact .keep rfl rfl rfl
  | finished => cases moves
  | _ => cases moves; exact .keep rfl rfl rfl

theorem PercentMove.sound (percents : PercentMove before shared caller next)
    (sound : caller.Sound before) (holds : before.Sound) : shared.Sound := by
  cases percents with
  | keep saved applied requested =>
      refine ⟨fun isRequested => ?_, fun isApplied => ?_⟩
      · rw [saved]
        exact holds.saved (requested ▸ isRequested)
      · rw [requested]
        exact holds.applied (applied ▸ isApplied)
  | save _ saved applied requested => exact ⟨fun _ => saved, fun _ => requested⟩
  | apply want saved applied requested =>
      have isRequested : shared.requested = true := requested.trans sound
      refine ⟨fun _ => ?_, fun _ => isRequested⟩
      rw [saved]
      exact holds.saved sound

theorem PercentMove.requested (percents : PercentMove before shared caller next)
    (isRequested : before.requested = true) : shared.requested = true := by
  cases percents with
  | keep _ _ requested => exact requested.trans isRequested
  | save _ _ _ requested => exact requested
  | apply _ _ _ requested => exact requested.trans isRequested

/-- Only the one that has the life lock applies a gain. -/
theorem PercentMove.applied (percents : PercentMove before shared caller next)
    (free : ¬caller.HoldsLife) : shared.applied = before.applied := by
  cases percents with
  | keep _ applied _ => exact applied
  | save _ _ applied _ => exact applied
  | apply => exact absurd Nat.one_pos free

theorem sound_move (good : choice.Good) (sound : caller.Sound before) (holds : before.Sound)
    (moves : act caller choice before = some (next, shared)) : next.Sound shared := by
  cases caller with
  | applying want =>
      cases choice with
      | applyFails => exact absurd rfl good.2
      | _ => cases moves; exact ⟨sound, rfl⟩
  | comparing value =>
      simp only [act] at moves
      split at moves <;> cases moves
      · rfl
      · trivial
  | saving value => cases choice <;> cases moves <;> first | rfl | trivial
  | reading => cases moves; exact ⟨sound, holds.saved sound⟩
  | testing want =>
      cases want with
      | none => exact absurd rfl sound.2
      | some want =>
          cases choice with
          | pipewireDown => exact absurd rfl good.1
          | _ => cases moves; exact sound.1
  | unlocking want => cases moves; exact sound
  | relocking want =>
      simp only [act] at moves
      split at moves <;> cases moves
      exact sound
  | rereading want =>
      simp only [act] at moves
      split at moves <;> cases moves <;> exact sound.1
  | locking | trying | waiting =>
      simp only [act] at moves
      split at moves <;> cases moves <;> exact sound
  | idle => cases choice <;> cases moves; trivial
  | quitting => exact sound.elim
  | leaving | ending | finished => cases moves; try trivial
  | _ => cases moves; exact sound

/-- Another caller stays sound. -/
theorem PercentMove.other {other : Caller} (percents : PercentMove before shared caller next)
    (sound : other.Sound before) (alone : other.HoldsLife → ¬caller.HoldsLife) :
    other.Sound shared := by
  cases other with
  | idle | comparing | saving | finished => trivial
  | quitting => exact sound
  | unlocking want | testing want => exact ⟨percents.requested sound.1, sound.2⟩
  | relocking want | rereading want =>
      exact ⟨percents.requested sound.1, (percents.applied (alone Nat.one_pos)).trans sound.2⟩
  | _ => exact percents.requested sound

/-- One that serves goes on to serve, unless it has found the applied gain to be the
saved one, or leaves the work to the worker that has the life lock. -/
theorem serves_move (good : choice.Good) (sound : caller.Sound before) (serves : caller.Serves)
    (moves : act caller choice before = some (next, shared)) :
    next.Serves ∨ shared.applied = shared.saved ∨
      caller.HoldsState ∧ ¬caller.HoldsLife ∧ 0 < before.life := by
  cases caller with
  | trying =>
      simp only [act] at moves
      split at moves <;> cases moves
      · exact .inl trivial
      · exact .inr (.inr ⟨trivial, Nat.not_lt_zero _, by omega⟩)
  | rereading want =>
      simp only [act] at moves
      split at moves <;> cases moves
      · rename_i same
        exact .inr (.inl (sound.2.trans same.symm))
      · exact .inl trivial
  | testing want =>
      cases want with
      | none => exact absurd rfl sound.2
      | some want =>
          cases choice with
          | pipewireDown => exact absurd rfl good.1
          | _ => cases moves; exact .inl trivial
  | locking | waiting | relocking =>
      simp only [act] at moves
      split at moves <;> cases moves
      exact .inl trivial
  | applying want => cases choice <;> cases moves <;> exact .inl trivial
  | idle | comparing | saving | leaving | dropping | ending | quitting | finished =>
      exact serves.elim
  | _ => cases moves; exact .inl trivial

end Moves

/-! ## Runs -/

/-- What the two locks keep, however the gains turn out. -/
structure Exclusion {Id : Type} (system : System Id) : Prop where
  state : Exclusive Caller.HoldsState (system.shared.state = true) system.locals
  life : Exclusive Caller.HoldsLife (0 < system.shared.life) system.locals
  count : ∀ id, (system.locals id).HoldsLife →
    system.shared.life = (system.locals id).descriptors

/-- A request is applied, or somebody is still to serve it. -/
structure Consistent {Id : Type} (system : System Id) : Prop where
  exclusion : Exclusion system
  shared : system.shared.Sound
  sound : ∀ id, (system.locals id).Sound system.shared
  served : system.shared.requested = true →
    system.shared.applied = system.shared.saved ∨ ∃ id, (system.locals id).Serves

section Runs

variable {Id : Type}

theorem System.start_exclusion (saved : Option Percent) : Exclusion (start Id saved) where
  state := .start (fun _ => not_false) Bool.false_ne_true
  life := .start (fun _ => Nat.not_lt_zero _) (Nat.not_lt_zero _)
  count _ holds := absurd holds (Nat.not_lt_zero _)

theorem System.start_consistent (saved : Option Percent) : Consistent (start Id saved) where
  exclusion := start_exclusion saved
  shared := ⟨nofun, fun applied => absurd rfl applied⟩
  sound _ := trivial
  served := nofun

variable [DecidableEq Id]

theorem Exclusion.move {system : System Id} (exclusion : Exclusion system) {who : Id}
    {choice : Choice} {next : Caller} {shared : Shared}
    (moves : act (system.locals who) choice system.shared = some (next, shared)) :
    Exclusion (system.move who next shared) := by
  have life := life_move (exclusion.count who) moves
  refine ⟨exclusion.state.handoff (state_handoff moves), exclusion.life.handoff life.handoff,
    forall_update (fun caller : Caller => caller.HoldsLife → shared.life = caller.descriptors)
      life.count ?_⟩
  intro other isOther holds
  rw [← exclusion.count other holds]
  rcases life.same with same | holds' | free
  · exact same
  · exact absurd (exclusion.life.unique other who holds holds') isOther
  · have := exclusion.life.taken_of other holds
    omega

omit [DecidableEq Id] in
/-- The other one that has the life lock serves, while this one has the state lock. -/
theorem Consistent.someone_serves {system : System Id} (consistent : Consistent system) (who : Id)
    (holdsState : (system.locals who).HoldsState) (free : ¬(system.locals who).HoldsLife)
    (taken : 0 < system.shared.life) :
    ∃ other, other ≠ who ∧ (system.locals other).Serves := by
  rcases consistent.exclusion.life.holder taken with ⟨other, holdsLife⟩
  have isOther : other ≠ who := by
    rintro rfl
    exact free holdsLife
  refine ⟨other, isOther, (consistent.sound other).serves holdsLife fun holdsState' => ?_⟩
  exact isOther (consistent.exclusion.state.unique other who holdsState' holdsState)

theorem Consistent.move {system : System Id} (consistent : Consistent system) {who : Id}
    {choice : Choice} {next : Caller} {shared : Shared} (good : choice.Good)
    (moves : act (system.locals who) choice system.shared = some (next, shared)) :
    Consistent (system.move who next shared) := by
  have percents := percent_move moves
  have ownSound := consistent.sound who
  refine ⟨consistent.exclusion.move moves, percents.sound ownSound consistent.shared, ?_, ?_⟩
  · apply forall_update (fun caller : Caller => caller.Sound shared)
    · exact sound_move good ownSound consistent.shared moves
    · intro other isOther
      apply percents.other (consistent.sound other)
      intro holds holds'
      exact isOther (consistent.exclusion.life.unique other who holds holds')
  · intro isRequested
    have served := consistent.served
    have others := consistent.someone_serves who
    refine Or.imp_right (exists_update Caller.Serves) ?_
    by_cases serves : (system.locals who).Serves
    · rcases serves_move good ownSound serves moves with again | done | ⟨holdsState, free, taken⟩
      · exact .inr (.inl again)
      · exact .inl done
      · exact .inr (.inr (others holdsState free taken))
    · generalize isCaller : system.locals who = caller at percents serves
      cases percents with
      | keep saved applied requested =>
          rcases served (requested ▸ isRequested) with done | ⟨other, otherServes⟩
          · left
            rw [saved, applied]
            exact done
          · refine .inr (.inr ⟨other, ?_, otherServes⟩)
            rintro rfl
            rw [isCaller] at otherServes
            exact serves otherServes
      | save => exact .inr (.inl trivial)
      | apply => exact absurd trivial serves

theorem run_exclusion (saved : Option Percent) (labels : List (Id × Choice)) :
    Exclusion (run (Threads.step act) (System.start Id saved) labels) :=
  run_invariant Exclusion
    (fun _ _ exclusion => step_invariant exclusion fun _ _ moves => exclusion.move moves)
    (System.start_exclusion saved) labels

theorem run_consistent (saved : Option Percent) {labels : List (Id × Choice)}
    (good : ∀ label ∈ labels, label.2.Good) :
    Consistent (run (Threads.step act) (System.start Id saved) labels) := by
  refine run_invariant_of_mem Consistent ?_ (System.start_consistent saved)
  intro system label member consistent
  exact step_invariant consistent fun _ _ moves => consistent.move (good label member) moves

omit [DecidableEq Id] in
theorem Consistent.up_to_date {system : System Id} (consistent : Consistent system)
    (quiet : system.Quiet) (requested : system.shared.requested = true) :
    system.shared.applied = system.shared.saved := by
  rcases consistent.served requested with done | ⟨id, serves⟩
  · exact done
  · rcases quiet id with isIdle | isFinished
    · rw [isIdle] at serves
      exact serves.elim
    · rw [isFinished] at serves
      exact serves.elim

/-- However many call, and in whatever order they and the workers move: no two workers
apply; and when all are through, PipeWire was up and every gain was applied, the last
gain is that of the saved percent. -/
theorem volume_saved_is_applied (Id : Type) [DecidableEq Id] (saved : Option Percent)
    (labels : List (Id × Choice)) :
    let system := run (Threads.step act) (System.start Id saved) labels
    (∀ first second want want', system.locals first = .applying want →
      system.locals second = .applying want' → first = second) ∧
    ((∀ label ∈ labels, label.2.Good) → System.Quiet system →
      (system.shared.requested = true → system.shared.applied ≠ none) ∧
      ∀ gain, system.shared.applied = some gain → system.shared.saved = some gain) := by
  refine ⟨fun first second want want' isFirst isSecond => ?_, fun good quiet => ?_⟩
  · apply (run_exclusion saved labels).life.unique
    · rw [isFirst]
      exact Nat.one_pos
    · rw [isSecond]
      exact Nat.one_pos
  · have consistent := run_consistent saved good
    constructor
    · intro requested
      rw [consistent.up_to_date quiet requested]
      exact consistent.shared.saved requested
    · intro gain applied
      have requested := consistent.shared.applied (by rw [applied]; nofun)
      rw [← consistent.up_to_date quiet requested]
      exact applied

/-- Two callers: the second one comes while the worker of the first one applies. -/
def twoCallers : List (Bool × Choice) :=
  [(true, .call ⟨"40", by decide⟩)] ++ List.replicate 12 (true, .proceed) ++
    [(false, .call ⟨"55", by decide⟩)] ++ List.replicate 6 (false, .proceed) ++
    List.replicate 13 (true, .proceed)

theorem volume_saved_is_applied_twoCallers :
    let system := run (Threads.step act) (System.start Bool none) twoCallers
    System.Quiet system ∧ system.shared.applied = some ⟨"55", by decide⟩ ∧
      system.shared.saved = some ⟨"55", by decide⟩ := by
  have quiet : System.Quiet (run (Threads.step act) (System.start Bool none) twoCallers) := by
    intro id
    cases id <;> decide +kernel
  have holds := (volume_saved_is_applied Bool none twoCallers).2 (by decide +kernel) quiet
  have applied : (run (Threads.step act) (System.start Bool none) twoCallers).shared.applied =
      some ⟨"55", by decide⟩ := by decide +kernel
  exact ⟨quiet, applied, holds.2 _ applied⟩

end Runs

end Zlyme.Audio
