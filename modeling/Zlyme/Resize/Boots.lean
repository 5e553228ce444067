import Zlyme.Resize.Script

/-! # Resizes over repeated boots

When a grown card is never formatted again, and when the trigger goes only after the
filesystem has been created on the grown partition.
-/

namespace Zlyme.Resize

open Foundation Foundation.Execution Foundation.Script
open Portmaster (Text ascii)

/-! ## The property of one boot -/

/-- A partition over the limit holds a filesystem that was created on it at that size. -/
def Consistent (card : Card) : Prop :=
  isOver card.size = true → card.made = some card.size

/-- No `mkfs.exfat` has run if the partition was over the limit when the boot began, and if
the trigger is gone the filesystem was created on the grown partition. -/
structure Kept (before : Card) (world : World) : Prop where
  spared : world.formatted = true → isOver before.size = false
  latched : triggered before.conf = true → triggered world.conf = false →
    isOver world.size = true ∧ world.made = some world.size

def Goal (card : Card) (boot : List Choice) : Prop :=
  Kept card (start.exec perform boot card.boot).2

/-! ## Faults that do not matter -/

/-- A size is found for a partition over the limit. Once the partition has grown over the
limit, the power stays on and nothing fails until `mkfs.exfat` has succeeded. -/
def calm : Call → Option Choice → World → Prop
  | .sectors, some choice, world => isOver world.seen = true → choice.ok = true ∨ choice.lost = true
  | .resizepart again, none, world => again = true → isOver world.size = false
  | .resizepart again, some choice, _ =>
      isOver choice.size = true → choice.lost = false ∧ (again = true → choice.ok = true)
  | .pause, none, world => isOver world.size = false
  | .pause, some choice, world => isOver world.size = true → choice.lost = false
  | .mkfs, none, world => isOver world.size = false
  | .mkfs, some choice, world => isOver world.size = true → choice.ok = true ∧ choice.lost = false
  | _, _, _ => True

instance : ∀ call choice world, Decidable (calm call choice world) := by
  intro call choice world
  cases call <;> cases choice <;> unfold calm <;> infer_instance

/-- What happens in the boot is calm. -/
def Calm (card : Card) (boot : List Choice) : Prop :=
  start.Allows perform calm boot card.boot

instance (card : Card) (boot : List Choice) : Decidable (Calm card boot) :=
  Allows.decidable perform calm start boot card.boot

/-! ## Rules -/

section Rules

variable {α : Type} {post : Outcome α → World → Prop} {world : World} {call : Call}
  {next : call.Result → Run α}

/-- The rule of one operation. -/
theorem yields_issue (stops : calm call none world → post .stopped world)
    (lost : ∀ choice, calm call (some choice) world → choice.lost = true →
      post .stopped (call.effect choice world))
    (goesOn : ∀ choice, calm call (some choice) world → choice.lost = false →
      (next (call.answer choice world)).Yields perform calm post (call.effect choice world)) :
    (issue call >>= next).Yields perform calm post world := by
  refine ⟨stops, fun choice happens => ?_⟩
  rw [perform]
  cases isLost : choice.lost with
  | true => exact lost choice happens isLost
  | false => exact goesOn choice happens isLost

/-- The rule of an operation that leaves the state as it is. -/
theorem yields_look (unchanged : ∀ choice, call.effect choice world = world)
    (stops : post .stopped world)
    (goesOn : ∀ choice, calm call (some choice) world → choice.lost = false →
      (next (call.answer choice world)).Yields perform calm post world) :
    (issue call >>= next).Yields perform calm post world := by
  refine yields_issue (fun _ => stops) (fun choice _ _ => ?_) fun choice happens stays => ?_
  · rw [unchanged]
    exact stops
  · rw [unchanged]
    exact goesOn choice happens stays

end Rules

/-! ## The steps -/

/-- What every end of a calm boot is. -/
def Ends (before : Card) (world : World) : Prop :=
  Kept before world ∧ Consistent world.toCard

/-- Between the decision to resize and the end of the boot. -/
structure Staged (before : Card) (world : World) : Prop where
  small : isOver before.size = false
  conf : world.conf = before.conf

namespace Staged

variable {before : Card} {world : World}

theorem ends (staged : Staged before world)
    (made : isOver world.size = true → world.made = some world.size) : Ends before world := by
  refine ⟨⟨fun _ => staged.small, fun had gone => ?_⟩, made⟩
  rw [staged.conf, had] at gone
  cases gone

theorem ends_small (staged : Staged before world) (small : isOver world.size = false) :
    Ends before world := by
  refine staged.ends fun large => ?_
  rw [small] at large
  cases large

theorem format (staged : Staged before world) (remains : Remains) :
    Staged before (world.format remains) :=
  ⟨staged.small, staged.conf⟩

theorem resize (staged : Staged before world) (size : Nat) (told : Bool) :
    Staged before (world.resize size told) :=
  ⟨staged.small, staged.conf⟩

/-- What a fault in an allowed step needs: it would not be allowed over the limit. -/
theorem small_of_fault {bytes : Nat} {fact : Prop} (needed : isOver bytes = true → fact)
    (fault : ¬fact) : isOver bytes = false :=
  eq_false_of_ne_true (mt needed fault)

theorem format_yields (staged : Staged before world) (told : world.seen = world.size) :
    Resize.format.Yields perform calm (fun _ => Ends before) world := by
  refine yields_issue (fun stays => staged.ends_small stays) (fun choice happens lost => ?_)
    fun choice happens stays => ?_
  · exact staged.ends_small (small_of_fault happens (by simp [lost]))
  refine yields_issue (fun stays => staged.ends_small stays) (fun choice happens lost => ?_)
    fun choice happens stays => ?_
  · have small : isOver world.size = false := small_of_fault happens (by simp [lost])
    rw [Call.effect, lost, Bool.not_true, Bool.and_false, if_neg Bool.false_ne_true]
    exact (staged.format choice.remains).ends_small small
  · rw [Call.effect, stays, Bool.not_false, Bool.and_true, Call.answer]
    cases ok : choice.ok with
    | true =>
        have done : Ends before (world.format .new) :=
          (staged.format .new).ends fun _ => congrArg some told
        exact yields_look (fun _ => rfl) done fun _ _ _ => done
    | false =>
        have small : isOver world.size = false := small_of_fault happens (by simp [ok])
        exact (staged.format choice.remains).ends_small small

theorem resize_yields (staged : Staged before world) (small : isOver world.size = false) :
    Resize.resize.Yields perform calm (fun _ => Ends before) world := by
  refine yields_issue (fun _ => staged.ends_small small) (fun choice happens lost => ?_)
    fun choice happens stays => ?_
  · rw [Call.effect, lost, Bool.not_true, Bool.and_false, if_neg Bool.false_ne_true]
    exact (staged.resize choice.size choice.told).ends_small
      (small_of_fault happens (by simp [lost]))
  rw [Call.effect, stays, Bool.not_false, Bool.and_true, Call.answer]
  cases ok : choice.ok with
  | true => exact (staged.resize choice.size true).format_yields rfl
  | false =>
      have again := staged.resize choice.size choice.told
      refine yields_issue (fun stays => again.ends_small (stays rfl)) (fun second happens lost => ?_)
        fun second happens stays => ?_
      · rw [Call.effect, lost, Bool.not_true, Bool.and_false, if_neg Bool.false_ne_true]
        exact (again.resize second.size second.told).ends_small
          (small_of_fault happens (by simp [lost]))
      rw [Call.effect, stays, Bool.not_false, Bool.and_true, Call.answer]
      cases ok : second.ok with
      | true => exact (again.resize second.size true).format_yields rfl
      | false =>
          exact (again.resize second.size second.told).ends_small
            (small_of_fault happens (by simp [ok]))

theorem prepare_yields (staged : Staged before world) (small : isOver world.size = false) :
    prepare.Yields perform calm (fun _ => Ends before) world := by
  have ends := staged.ends_small small
  refine yields_look (fun _ => rfl) ends fun tools _ _ => ?_
  split
  · refine yields_look (fun _ => rfl) ends fun umount _ _ => ?_
    refine yields_look (fun _ => rfl) ends fun busy _ _ => ?_
    split
    · exact ends
    · refine yields_look (fun _ => rfl) ends fun table _ _ => ?_
      split
      · refine yields_look (fun _ => rfl) ends fun sgdisk _ _ => ?_
        split
        · exact staged.resize_yields small
        · exact ends
      · exact staged.resize_yields small
  · exact ends

end Staged

/-! ## The boot -/

theorem isOver_sectors (bytes : Nat) : isOver (bytes / 512 * 512) = isOver bytes := by
  have same : bytes / 512 * 512 / 1024 / 1024 = bytes / 1024 / 1024 := by omega
  rw [isOver, isOver, same]

/-- In a calm boot the size that the script sees is over the limit when the real one is. -/
theorem partSize_yields (world : World) :
    partSize.Yields perform calm
      (fun outcome after => after = world ∧
        ∀ bytes, outcome = .done bytes → isOver bytes = isOver world.seen) world := by
  refine yields_look (fun _ => rfl) ⟨rfl, nofun⟩ fun first _ _ => ?_
  split
  · rename_i silent
    refine yields_look (fun _ => rfl) ⟨rfl, nofun⟩ fun second happens stays => ?_
    refine ⟨rfl, ?_⟩
    rintro bytes same
    cases same
    rw [Call.answer]
    split
    · exact isOver_sectors world.seen
    · rename_i unanswered
      refine (eq_false_of_ne_true fun large => ?_).symm
      rcases happens large with ok | lost
      · exact unanswered ok
      · rw [stays] at lost
        cases lost
  · rename_i bytes
    refine ⟨rfl, ?_⟩
    rintro bytes same
    cases same
    rw [Call.answer] at bytes ⊢
    split
    · rfl
    · rename_i unanswered
      rw [if_neg unanswered] at bytes
      exact absurd rfl bytes

/-- A boot that only edits the trigger of a grown card. -/
theorem ends_latched {card : Card} {world : World} (consistent : Consistent card)
    (large : isOver card.size = true) (size : world.size = card.size)
    (made : world.made = card.made) (idle : world.formatted = false) : Ends card world := by
  have created : world.made = some world.size := by
    rw [made, size]
    exact consistent large
  refine ⟨⟨fun formatted => ?_, fun _ _ => ⟨size ▸ large, created⟩⟩, fun _ => created⟩
  rw [idle] at formatted
  cases formatted

theorem start_yields {card : Card} (consistent : Consistent card) :
    start.Yields perform calm (fun _ => Ends card) card.boot := by
  have idle : Ends card card.boot := by
    refine ⟨⟨nofun, fun had gone => ?_⟩, consistent⟩
    rw [show card.boot.conf = card.conf from rfl, had] at gone
    cases gone
  refine yields_look (fun _ => rfl) idle fun trigger _ _ => ?_
  split
  · refine yields_look (fun _ => rfl) idle fun looked _ _ => ?_
    split
    · exact idle
    · rename_i part _
      refine (partSize_yields card.boot).bind fun outcome after sized => ?_
      rcases sized with ⟨rfl, sized⟩
      cases outcome with
      | stopped => exact idle
      | exited status => exact idle
      | done bytes =>
          have sized : isOver bytes = isOver card.size := sized bytes rfl
          rw [Outcome.andThen]
          split
          · rename_i large
            rw [sized] at large
            have latched (choice : Choice) : Ends card (Call.comment.effect choice card.boot) := by
              rw [Call.effect]
              split
              · exact ends_latched consistent large rfl rfl rfl
              · exact idle
            refine yields_issue (fun _ => idle) (fun choice _ _ => latched choice) fun choice _ _ => ?_
            exact yields_look (fun _ => rfl) (latched choice) fun _ _ _ => latched choice
          · rename_i small
            rw [sized] at small
            have staged : Staged card card.boot := ⟨eq_false_of_ne_true small, rfl⟩
            split
            · exact idle
            · exact staged.prepare_yields staged.small
  · exact idle

/-- Calm boots keep a grown card, and take the trigger away only from a formatted one. -/
theorem resize_keeps (card : Card) (consistent : Consistent card) (boots : List (List Choice))
    (calm : Along step Calm card boots) : Along step Goal card boots :=
  calm.of_invariant Consistent (fun _ _ consistent calm => (((start_yields consistent).exec calm).2))
    (fun _ _ consistent calm => ((start_yields consistent).exec calm).1) consistent

/-! ## A card -/

def flip : System where
  mounts := [(ascii "/dev/mmcblk0p2", ascii "/boot"), (ascii "/dev/mmcblk0p3", ascii "/storage")]
  canon := id
  blkid := fun dev => some (dev ++ ascii ": LABEL=\"ZLYME\" TYPE=\"exfat\"")
  boot := ascii "/boot"
  storage := ascii "/storage"
  bootDevice := ascii "/dev/mmcblk0p2"
  storageDevice := ascii "/dev/mmcblk0p3"
  osDisk := ascii "/dev/mmcblk0"
  storageLabel := ascii "ZLYME"

def succeeds : Choice where
  ok := true
  lost := false
  system := flip
  size := 64 * 1024 ^ 3
  told := true
  edited := true
  remains := .new

def fails : Choice :=
  { succeeds with ok := false }

/-- The card as it is flashed. -/
def seed : Card where
  conf := [ascii "autoresize=true"]
  size := 32 * 1024 ^ 2
  made := some (32 * 1024 ^ 2)

/-- A card in use, with the trigger set once more. -/
def games : Card :=
  { seed with
    size := 64 * 1024 ^ 3
    made := some (64 * 1024 ^ 3) }

/-- The first boot without a fault: only `grep` for the mount fails. -/
def firstBoot : List Choice :=
  [succeeds, succeeds, succeeds, succeeds, succeeds, fails, succeeds, succeeds, succeeds, succeeds,
    succeeds, succeeds]

theorem resize_keeps_seed : Along step Goal seed [firstBoot, [succeeds, succeeds, succeeds, succeeds,
    succeeds]] :=
  resize_keeps seed (fun large => absurd large (by decide)) _ (by decide +kernel)

/-- No size is found for a card in use, and it is formatted. Or the power is lost between
`parted` and `mkfs.exfat`, and the next boot takes the trigger away. -/
theorem resize_destroys :
    ¬Along step Goal games [[succeeds, succeeds, fails, fails, succeeds, succeeds, fails, succeeds,
        succeeds, succeeds, succeeds, succeeds, succeeds]] ∧
      ¬Along step Goal seed [firstBoot.take 9, [succeeds, succeeds, succeeds, succeeds, succeeds]] := by
  constructor
  · rintro ⟨kept, _⟩
    have small := kept.spared (by decide +kernel)
    exact absurd small (by decide +kernel)
  · rintro ⟨_, kept, _⟩
    have created := (kept.latched (by decide +kernel) (by decide +kernel)).2
    exact absurd created (by decide +kernel)

end Zlyme.Resize
