import Mathlib.Data.List.Nodup
import Zlyme.Cores.Sync

/-! # What the stamp says

When the stored stamp is that of the image and there is no marker, the directory holds the
cores of the image: in the runs that do not go back to a stamped image over other copies.
-/

namespace Zlyme.Cores

open Foundation Foundation.Execution Foundation.Script

section System

variable {Id : Type} {coreId : List Core → Id}

/-! ## The property -/

/-- The stamp is truthful. -/
def Truthful (world : World coreId) : Prop :=
  world.readStamp = some world.image.id → world.marker = false →
    ∀ core ∈ world.image.shipped, world.holds core = true

/-- What the name of a stamped core holds after these copies. -/
def lastCopy (copied : List Core) (core : Core) : List UInt8 :=
  match copied.find? fun copy => copy.name = core.name with
  | none => core.content
  | some copy => copy.content

namespace World

variable (world : World coreId)

/-- The copies since the stamp have left what this image has at each of its names. -/
def Unharmed (image : Image coreId) : Prop :=
  ∀ core ∈ image.shipped, lastCopy world.copied core = core.content

/-- None of the names that the image ships is a directory. -/
def Unblocked : Prop :=
  ∀ core ∈ world.image.shipped, goesInside (world.dest core.name) = false

end World

/-- A change of the image leaves a marker, or the stamp is not that of the new image, or the
copies made since the stamp do no harm; and a run finds no directory in a core's place. -/
def Covered (world : World coreId) : Event coreId → Prop
  | .change image marks =>
      world.marker = true ∨ marks = true ∨ world.readStamp ≠ some image.id ∨ world.Unharmed image
  | .sync _ => world.Unblocked

/-! ## The invariant -/

/-- The stamp names the set it was stored for, and the directory holds that set under the
copies made since. -/
structure World.Recorded (world : World coreId) : Prop where
  named : ∀ id, world.readStamp = some id → id = coreId world.synced
  held : ∀ core ∈ world.synced, (world.readStamp).isSome →
    world.dest core.name = some (.file (lastCopy world.copied core))

structure World.Inv (world : World coreId) : Prop where
  recorded : world.Recorded
  truthful : Truthful world

/-- A run that goes on: it has the marker, or the stamp is that of another set. -/
structure World.Copying (image : Image coreId) (world : World coreId) : Prop where
  same : world.image = image
  recorded : world.Recorded
  stale : world.marker = true ∨ world.readStamp ≠ some image.id
  unblocked : world.Unblocked

theorem World.Copying.inv {image : Image coreId} {world : World coreId}
    (copying : world.Copying image) : world.Inv where
  recorded := copying.recorded
  truthful := by
    intro current unmarked
    rcases copying.stale with marked | other
    · rw [marked] at unmarked
      cases unmarked
    · exact absurd (copying.same ▸ current) other

/-! ## One installation -/

theorem lastCopy_cons (core other : Core) (copied : List Core) :
    lastCopy (core :: copied) other =
      if core.name = other.name then core.content else lastCopy copied other := by
  rw [lastCopy, List.find?_cons]
  by_cases same : core.name = other.name
  · simp [same]
  · simp [same, lastCopy]

namespace World

variable {world : World coreId}

theorem install_of_unblocked {core : Core} (free : goesInside (world.dest core.name) = false) :
    world.install core = { world with
      dest := Function.update world.dest core.name (some (.file core.content))
      copied := core :: world.copied } :=
  if_neg (by rw [free]; exact Bool.false_ne_true)

theorem install_holds {core : Core} (free : goesInside (world.dest core.name) = false) :
    (world.install core).holds core = true := by
  rw [install_of_unblocked free, holds, beq_iff_eq]
  exact Function.update_self _ _ _

theorem install_frame {core other : Core} (different : other.name ≠ core.name) :
    (world.install core).dest other.name = world.dest other.name := by
  rw [install]
  split
  · rfl
  · exact Function.update_of_ne different _ _

theorem Recorded.install (recorded : world.Recorded) (core : Core) :
    (world.install core).Recorded := by
  rw [World.install]
  split
  · exact recorded
  · refine ⟨recorded.named, fun other member stamped => ?_⟩
    have before := recorded.held other member stamped
    change Function.update world.dest core.name _ other.name = _
    rw [lastCopy_cons]
    by_cases same : core.name = other.name
    · rw [if_pos same, same]
      exact Function.update_self _ _ _
    · rw [if_neg same, Function.update_of_ne (Ne.symm same)]
      exact before

/-- Installing makes no directory. -/
theorem Unblocked.install (unblocked : world.Unblocked) (core : Core) :
    (world.install core).Unblocked := by
  rw [World.install]
  split
  · exact unblocked
  · intro other member
    change goesInside (Function.update world.dest core.name _ other.name) = false
    by_cases same : other.name = core.name
    · rw [same, Function.update_self]
      rfl
    · rw [Function.update_of_ne same]
      exact unblocked other member

theorem install_rest (world : World coreId) (core : Core) :
    (world.install core).image = world.image ∧ (world.install core).marker = world.marker ∧ (world.install core).stamp = world.stamp := by
  rw [install]
  split
  · exact ⟨rfl, rfl, rfl⟩
  · exact ⟨rfl, rfl, rfl⟩

theorem Copying.install {image : Image coreId} (copying : world.Copying image) (core : Core) :
    (world.install core).Copying image := by
  rcases install_rest world core with ⟨sameImage, sameMarker, sameStamp⟩
  refine ⟨sameImage.trans copying.same, copying.recorded.install core, ?_,
    copying.unblocked.install core⟩
  rw [sameMarker, readStamp, sameStamp]
  exact copying.stale

end World

/-! ## The stamp and the marker -/

/-- All cores of the image are in the directory. -/
def World.AllHeld (world : World coreId) : Prop :=
  ∀ core ∈ world.image.shipped, world.holds core = true

theorem World.Inv.of_allHeld {world : World coreId} (recorded : world.Recorded)
    (held : world.AllHeld) : world.Inv where
  recorded := recorded
  truthful := fun _ _ => held

theorem World.Recorded.putStamp {world : World coreId} (recorded : world.Recorded)
    (held : world.AllHeld) : (world.putStamp world.image.id).Recorded := by
  rw [World.putStamp]
  split
  · exact recorded
  · refine ⟨fun id same => ?_, fun core member _ => ?_⟩
    · cases same
      exact world.image.id_eq
    · exact beq_iff_eq.mp (held core member)

theorem World.AllHeld.putStamp {world : World coreId} (held : world.AllHeld) (id : Id) :
    (world.putStamp id).AllHeld := by
  rw [World.putStamp]
  split
  · exact held
  · exact held

/-! ## The start -/

/-- A directory that has never been stamped. -/
def unstamped (image : Image coreId) (marker : Bool)
    (dest : List UInt8 → Option (Entry (List UInt8))) : World coreId where
  image
  marker
  dest
  stamp := none
  synced := []
  copied := []

theorem unstamped_inv (image : Image coreId) (marker : Bool)
    (dest : List UInt8 → Option (Entry (List UInt8))) : (unstamped image marker dest).Inv where
  recorded := ⟨nofun, fun _ member => absurd member List.not_mem_nil⟩
  truthful := nofun

/-! ## The script -/

section Script

variable [DecidableEq Id]

/-- The invariant holds wherever a run ends. -/
def contract : Contract (Call Id) (World coreId) where
  rely _ _ := True
  guard _ _ := True
  stop world := world.Inv
  exit _ world := world.Inv

abbrev Keeps {α : Type} (script : Run Id α) (post : α → World coreId → Prop)
    (world : World coreId) : Prop :=
  script.Ensures perform contract post world

/-- The operations that only look, or that work on temporary files. -/
def Call.looks : Call Id → Bool
  | .install _ | .putStamp _ | .clearMarker => false
  | _ => true

theorem Call.effect_looks {call : Call Id} (looks : call.looks = true) (choice : Choice)
    (world : World coreId) : call.effect choice world = world := by
  cases call with
  | install core => cases looks
  | putStamp id => cases looks
  | clearMarker => cases looks
  | _ => exact ite_self world

section Rules

variable {call : Call Id} {world : World coreId}

theorem keeps_issue {post : call.Result → World coreId → Prop} (stops : world.Inv)
    (effects : ∀ choice, (call.effect choice world).Inv)
    (answers : ∀ choice, choice.lost = false →
      post (call.answer choice world) (call.effect choice world)) :
    Keeps (issue call) post world := by
  refine Ensures.issue stops trivial fun _ choice => ?_
  rw [perform]
  cases isLost : choice.lost with
  | true => exact .inr ⟨_, rfl, effects choice⟩
  | false => exact .inl ⟨_, _, rfl, answers choice isLost⟩

theorem keeps_require {yes : call.Result → Bool} {post : World coreId → Prop} (stops : world.Inv)
    (effects : ∀ choice, (call.effect choice world).Inv)
    (accepts : ∀ choice, choice.lost = false → yes (call.answer choice world) = true →
      post (call.effect choice world)) :
    Keeps (require call yes) (fun _ after => post after) world := by
  have issued : Keeps (issue call)
      (fun result after => after.Inv ∧ (yes result = true → post after)) world :=
    keeps_issue stops effects fun choice stays => ⟨effects choice, accepts choice stays⟩
  refine issued.bind fun result after outcome => ?_
  split
  · rename_i accepted
    exact outcome.2 accepted
  · exact outcome.1

theorem keeps_look (looks : call.looks = true) (stops : world.Inv) :
    Keeps (issue call)
      (fun result after => after = world ∧ ∃ choice, result = call.answer choice world) world :=
  keeps_issue stops (fun choice => (call.effect_looks looks choice world).symm ▸ stops)
    fun choice _ => ⟨call.effect_looks looks choice world, choice, rfl⟩

theorem keeps_check (call : Call Id) (looks : call.looks = true) (stops : world.Inv)
    (yes : call.Result → Bool) :
    Keeps (require call yes) (fun _ after => after = world) world :=
  keeps_require stops (fun choice => (call.effect_looks looks choice world).symm ▸ stops)
    fun choice _ _ => call.effect_looks looks choice world

theorem keeps_attempt (stops : world.Inv) :
    Keeps (require .attempt id) (fun _ after => after = world) world :=
  keeps_check .attempt rfl stops id

end Rules

theorem keeps_measure {world : World coreId} (inv : world.Inv) (cores : List Core) :
    Keeps (measure cores) (fun _ after => after = world) world := by
  induction cores with
  | nil => rfl
  | cons core rest induction =>
      refine (keeps_look rfl inv).bind ?_
      rintro same _ ⟨rfl, _⟩
      refine induction.bind ?_
      rintro need _ rfl
      rfl

/-- After one core it is there, and the other names are as before. -/
theorem keeps_copyCore {image : Image coreId} {world : World coreId}
    (copying : world.Copying image) {core : Core} (ships : core ∈ image.shipped) :
    Keeps (copyCore core) (fun _ after => after.Copying image ∧ after.holds core = true ∧
      ∀ other : Core, other.name ≠ core.name → after.dest other.name = world.dest other.name) world := by
  have free : World.goesInside (world.dest core.name) = false :=
    copying.unblocked core (copying.same ▸ ships)
  refine (keeps_look rfl copying.inv).bind ?_
  rintro same _ ⟨rfl, choice, rfl⟩
  split
  · rename_i same
    exact ⟨copying, (Bool.and_eq_true_iff.mp same).2, fun _ _ => rfl⟩
  · refine (keeps_attempt copying.inv).bind ?_
    rintro _ _ rfl
    refine (keeps_attempt copying.inv).bind ?_
    rintro _ _ rfl
    refine keeps_require copying.inv (fun choice => ?_) fun choice stays ok => ?_
    · rw [Call.effect]
      split
      · exact (copying.install core).inv
      · exact copying.inv
    · have applies : choice.applies = true := by
        rw [Choice.applies, stays]
        exact ok
      rw [Call.effect, if_pos applies]
      exact ⟨copying.install core, World.install_holds free,
        fun other different => World.install_frame different⟩

theorem keeps_copyAll {image : Image coreId} {cores : List Core}
    (distinct : (cores.map Core.name).Nodup) (ships : ∀ core ∈ cores, core ∈ image.shipped)
    {world : World coreId} (copying : world.Copying image) :
    Keeps (copyAll cores) (fun _ after => after.Copying image ∧
      (∀ core ∈ cores, after.holds core = true) ∧
      ∀ other : Core, other.name ∉ cores.map Core.name →
        after.dest other.name = world.dest other.name) world := by
  induction cores generalizing world with
  | nil => exact ⟨copying, fun _ member => absurd member List.not_mem_nil, fun _ _ => rfl⟩
  | cons core rest induction =>
      rw [List.map_cons, List.nodup_cons] at distinct
      rw [List.forall_mem_cons] at ships
      refine (keeps_copyCore copying ships.1).bind ?_
      rintro _ first ⟨copying, held, frame⟩
      refine (induction distinct.2 ships.2 copying).mono ?_
      rintro _ after ⟨copying, others, later⟩
      refine ⟨copying, ?_, fun other absent => ?_⟩
      · rw [List.forall_mem_cons]
        refine ⟨?_, others⟩
        rw [World.holds, later core distinct.1]
        exact held
      · rw [List.map_cons, List.mem_cons, not_or] at absent
        exact (later other absent.2).trans (frame other absent.1)

theorem keeps_copyAndStamp {image : Image coreId} {world : World coreId}
    (copying : world.Copying image) :
    Keeps (copyAndStamp image image.shipped) (fun _ after => after.Inv) world := by
  refine (keeps_attempt copying.inv).bind ?_
  rintro _ world rfl
  refine (keeps_measure copying.inv image.shipped).bind ?_
  rintro need world rfl
  refine (keeps_check .avail rfl copying.inv fun avail => !lacks need avail).bind ?_
  rintro _ world rfl
  refine (keeps_copyAll image.distinct (fun _ member => member) copying).bind ?_
  rintro _ world ⟨copying, held, _⟩
  have allHeld : world.AllHeld := fun core member => held core (copying.same ▸ member)
  refine (keeps_attempt copying.inv).bind ?_
  rintro _ world rfl
  refine (keeps_attempt copying.inv).bind ?_
  rintro _ world rfl
  have stamped : (world.putStamp image.id).Recorded :=
    copying.same ▸ copying.recorded.putStamp allHeld
  have effects (choice : Choice) :
      (Call.effect (.putStamp image.id) choice world).Recorded ∧
        (Call.effect (.putStamp image.id) choice world).AllHeld := by
    rw [Call.effect]
    split
    · exact ⟨stamped, allHeld.putStamp image.id⟩
    · exact ⟨copying.recorded, allHeld⟩
  have stored : Keeps (require (.putStamp image.id) id)
      (fun _ after => after.Recorded ∧ after.AllHeld) world :=
    keeps_require copying.inv (fun choice => .of_allHeld (effects choice).1 (effects choice).2)
      fun choice _ _ => effects choice
  refine stored.bind ?_
  rintro _ world ⟨recorded, allHeld⟩
  have cleared (choice : Choice) : (Call.effect .clearMarker choice world).Inv := by
    rw [Call.effect]
    split
    · exact .of_allHeld ⟨recorded.named, recorded.held⟩ allHeld
    · exact .of_allHeld recorded allHeld
  exact keeps_require (.of_allHeld recorded allHeld) cleared fun choice _ _ => cleared choice

/-- A run keeps the invariant when no directory is in a core's place. -/
theorem keeps_sync {world : World coreId} (inv : world.Inv) (unblocked : world.Unblocked) :
    Keeps (sync world.image) (fun _ after => after.Inv) world := by
  refine (keeps_attempt inv).bind ?_
  rintro _ world rfl
  refine (keeps_look rfl inv).bind ?_
  rintro refresh world ⟨rfl, _, isMarked⟩
  change refresh = world.marker at isMarked
  have rest (stale : world.marker = true ∨ world.readStamp ≠ some world.image.id) :
      Keeps (refreshCores world.image) (fun _ after => after.Inv) world := by
    have copies := keeps_copyAndStamp ⟨rfl, inv.recorded, stale, unblocked⟩
    rw [Image.shipped] at copies
    rw [refreshCores]
    split
    · exact inv
    · rename_i cores present
      rw [present] at copies
      exact copies
  cases refresh with
  | true => exact rest (.inl isMarked.symm)
  | false =>
      refine (keeps_look rfl inv).bind ?_
      rintro current world ⟨rfl, _, isCurrent⟩
      change current = (world.readStamp == some world.image.id) at isCurrent
      cases current with
      | true => exact inv
      | false => exact rest (.inr fun same => by simp [same] at isCurrent)

/-! ## All events -/

/-- A change of the image that leaves a marker, or does no harm to a stamped set. -/
theorem Inv.change (collisionFree : Function.Injective coreId) {world : World coreId}
    (inv : world.Inv) {image : Image coreId} {marks : Bool}
    (covered : Covered world (.change image marks)) : (step world (.change image marks)).Inv where
  recorded := ⟨inv.recorded.named, inv.recorded.held⟩
  truthful := by
    intro current unmarked core ships
    change world.readStamp = some image.id at current
    rcases Bool.or_eq_false_iff.mp unmarked with ⟨unmarked, silent⟩
    rcases covered with marked | marks | other | unharmed
    · rw [unmarked] at marked
      cases marked
    · rw [silent] at marks
      cases marks
    · exact absurd current other
    · have sameSet : image.shipped = world.synced :=
        collisionFree (image.id_eq.symm.trans (inv.recorded.named _ current))
      have held := inv.recorded.held core (sameSet ▸ ships) (by rw [current]; rfl)
      rw [unharmed core ships] at held
      exact beq_iff_eq.mpr held

theorem Inv.step (collisionFree : Function.Injective coreId) {world : World coreId}
    (inv : world.Inv) {event : Event coreId} (covered : Covered world event) :
    (step world event).Inv := by
  cases event with
  | change image marks => exact Inv.change collisionFree inv covered
  | sync choices =>
      have meets := ((keeps_sync inv covered).exec choices fun _ _ => trivial).2
      exact meets.state World.Inv (fun _ _ inv => inv) (fun _ _ inv => inv) fun _ inv => inv

/-- In the runs whose events are covered the stamp is truthful in every state. -/
theorem coreStamp_truthful (collisionFree : Function.Injective coreId) (image : Image coreId)
    (marker : Bool) (dest : List UInt8 → Option (Entry (List UInt8)))
    (events : List (Event coreId))
    (covered : Along step Covered (unstamped image marker dest) events) :
    Throughout step Truthful (unstamped image marker dest) events :=
  covered.throughout World.Inv (fun _ inv => inv.truthful)
    (fun _ _ inv covered => Inv.step collisionFree inv covered)
    (unstamped_inv image marker dest)

end Script

end System

/-! ## Two images -/

instance {Id : Type} [DecidableEq Id] {coreId : List Core → Id} (world : World coreId) :
    Decidable (Truthful world) :=
  inferInstanceAs (Decidable (_ → _ → _))

instance {Id : Type} [DecidableEq Id] {coreId : List Core → Id} (world : World coreId) :
    (event : Event coreId) → Decidable (Covered world event)
  | .change _ _ => inferInstanceAs (Decidable (_ ∨ _ ∨ _ ≠ _ ∨ ∀ core ∈ _, _ = _))
  | .sync _ => inferInstanceAs (Decidable (∀ core ∈ _, _ = _))

/-- An image with one core; a set of cores is its own name. -/
def imageWith (content : List UInt8) : Image (id : List Core → List Core) where
  cores := some [{ name := [0x78], content }]
  file := none
  stamped := nofun
  distinct := List.nodup_singleton _

def succeeds : Choice where
  ok := true
  lost := false
  done := true
  free := 1000

/-- A second image comes with its marker, its run stops, and the first image comes back. -/
theorem coreStamp_truthful_marked :
    Throughout step Truthful (unstamped (imageWith [1]) false fun _ => none)
      [.sync (List.replicate 14 succeeds), .change (imageWith [2]) true,
        .sync (List.replicate 9 succeeds), .change (imageWith [1]) false] :=
  coreStamp_truthful Function.injective_id _ _ _ _ (by decide +kernel)

/-- Without the marker the stamp of the first image stays over a core of the second. -/
theorem coreStamp_untruthful : ¬∀ (image : Image (id : List Core → List Core)) (marker : Bool)
    (dest : List UInt8 → Option (Entry (List UInt8))) (events : List (Event id)),
      Throughout step Truthful (unstamped image marker dest) events := by
  intro all
  have lies := all (imageWith [1]) false (fun _ => none)
    [.sync (List.replicate 14 succeeds), .change (imageWith [2]) false,
      .sync (List.replicate 10 succeeds), .change (imageWith [1]) false]
  exact absurd lies (by decide +kernel)

end Zlyme.Cores
