import Mathlib.Data.List.Nodup
import Mathlib.Data.List.Range
import Mathlib.Tactic.Common
import Zlyme.Logs.Capture

/-! # The bytes of a captured log

What is asked of the saved file, what is still owed to it, and how the writers and the
steps of a capture change that.
-/

namespace Zlyme.Logs

open Foundation Foundation.Execution

/-! ## What is asked of the saved file -/

structure Files.Exact (files : Files) : Prop where
  once : files.savedBytes.Nodup
  wanted : ∀ byte ∈ files.savedBytes, files.wanted byte = true
  all : files.cut = false → ∀ byte, files.since ≤ byte → byte < files.complete →
    files.wanted byte = true → byte ∈ files.savedBytes

/-! ## What is owed -/

/-- The byte is still to be copied. -/
def Files.owes (files : Files) (byte : Nat) : Bool :=
  files.wanted byte && decide (files.since ≤ byte) && !files.taken.contains byte

def Files.owed (files : Files) : List Nat :=
  files.bytes.filter files.owes

/-- How many bytes of the log come before those that are owed. -/
def Files.settled (files : Files) : Nat :=
  files.bytes.length - files.owed.length

theorem Files.owes_iff {files : Files} {byte : Nat} : files.owes byte = true ↔
    files.wanted byte = true ∧ files.since ≤ byte ∧ byte ∉ files.taken := by
  rw [Files.owes, Bool.and_eq_true, Bool.and_eq_true, decide_eq_true_iff, Bool.not_eq_true',
    List.contains_eq_mem, decide_eq_false_iff_not, and_assoc]

theorem Files.mem_owed {files : Files} {byte : Nat} : byte ∈ files.owed ↔
    byte ∈ files.bytes ∧ files.wanted byte = true ∧ files.since ≤ byte ∧
      byte ∉ files.taken := by
  rw [Files.owed, List.mem_filter, Files.owes_iff]

theorem Files.owed_length_le (files : Files) : files.owed.length ≤ files.bytes.length :=
  List.length_filter_le _ _

/-! ## Lawful writes -/

def Write.Loses : Write → Prop
  | .append _ => False
  | .truncate _ | .remove => True

instance : DecidablePred Write.Loses
  | .append _ => .isFalse not_false
  | .truncate _ | .remove => .isTrue trivial

/-- The log loses bytes only when none of them is owed. -/
def Lawful (files : Files) (write : Write) : Prop :=
  write.Loses → files.enabled = true → files.owed = []

instance (files : Files) (write : Write) : Decidable (Lawful files write) :=
  inferInstanceAs (Decidable (_ → _))

/-! ## The invariant -/

structure Files.Sound (files : Files) : Prop where
  bytes_nodup : files.bytes.Nodup
  bytes_written : ∀ byte ∈ files.bytes, byte < files.written
  taken_nodup : files.taken.Nodup
  taken_wanted : ∀ byte ∈ files.taken, files.wanted byte = true
  taken_written : ∀ byte ∈ files.taken, byte < files.written
  saved_taken : files.savedBytes.Sublist files.taken
  saved_uncut : files.cut = false → files.savedBytes = files.taken
  owed_suffix : files.enabled = true → files.owed <:+ files.bytes
  present : files.enabled = true → ∀ byte, files.since ≤ byte → byte < files.written →
    files.wanted byte = true → byte ∈ files.taken ∨ byte ∈ files.bytes
  since_written : files.since ≤ files.written
  bound_written : files.bound ≤ files.written
  complete_written : files.complete ≤ files.written
  caught : ∀ byte, files.since ≤ byte → byte < files.complete →
    files.wanted byte = true → byte ∈ files.taken

theorem Files.Sound.exact {files : Files} (sound : files.Sound) : files.Exact where
  once := sound.saved_taken.nodup sound.taken_nodup
  wanted byte member := sound.taken_wanted byte (sound.saved_taken.subset member)
  all uncut byte since complete wanted := by
    rw [sound.saved_uncut uncut]
    exact sound.caught byte since complete wanted

theorem sound_boot (log : Option Nat) (enabled : Bool) : (World.boot log enabled).Sound := by
  have bytes : (World.boot log enabled).bytes = List.range (log.getD 0) := by
    cases log <;> rfl
  refine ⟨?_, ?_, List.nodup_nil, nofun, nofun, .refl _, fun _ => rfl, ?_, ?_, Nat.zero_le _,
    Nat.zero_le _, Nat.zero_le _, fun _ _ complete _ => absurd complete (Nat.not_lt_zero _)⟩
  · rw [bytes]
    exact List.nodup_range
  · rw [bytes]
    exact fun byte member => List.mem_range.mp member
  · intro on
    have all : (World.boot log enabled).owed = (World.boot log enabled).bytes :=
      List.filter_eq_self.mpr fun byte _ => Files.owes_iff.mpr ⟨on, Nat.zero_le _, nofun⟩
    exact ⟨[], by rw [List.nil_append, all]⟩
  · intro _ byte _ written _
    rw [bytes]
    exact .inr (List.mem_range.mpr written)

/-! ## What a write keeps -/

section Append

variable {files : Files} {count byte : Nat}

theorem mem_new : byte ∈ List.range' files.written count ↔
    files.written ≤ byte ∧ byte < files.written + count := by
  rw [List.mem_range'_1]

theorem append_wanted_old (old : byte < files.written) :
    (files.write (.append count)).wanted byte = files.wanted byte :=
  if_neg (Nat.not_le.mpr old)

theorem append_wanted_new (new : files.written ≤ byte) :
    (files.write (.append count)).wanted byte = files.enabled :=
  if_pos new

theorem append_owed (sound : files.Sound) (on : files.enabled = true) :
    (files.write (.append count)).owed = files.owed ++ List.range' files.written count := by
  have old : ∀ byte ∈ files.bytes,
      (files.write (.append count)).owes byte = files.owes byte := by
    intro byte member
    rw [Files.owes, append_wanted_old (sound.bytes_written byte member)]
    rfl
  have new : ∀ byte ∈ List.range' files.written count,
      (files.write (.append count)).owes byte = true := by
    intro byte member
    have above := (mem_new.mp member).1
    refine Files.owes_iff.mpr ⟨(append_wanted_new above).trans on,
      sound.since_written.trans above, fun taken => ?_⟩
    exact absurd (sound.taken_written byte taken) (Nat.not_lt.mpr above)
  calc (files.write (.append count)).owed
      = files.bytes.filter (files.write (.append count)).owes ++
          (List.range' files.written count).filter (files.write (.append count)).owes :=
        List.filter_append ..
    _ = files.owed ++ List.range' files.written count := by
        rw [List.filter_congr old, List.filter_eq_self.mpr new, Files.owed]

theorem append_settled (sound : files.Sound) (on : files.enabled = true) :
    (files.write (.append count)).settled = files.settled := by
  have length : (files.write (.append count)).bytes.length = files.bytes.length + count := by
    change (files.bytes ++ List.range' files.written count).length = _
    rw [List.length_append, List.length_range']
  rw [Files.settled, length, append_owed sound on, List.length_append, List.length_range',
    Nat.add_sub_add_right, Files.settled]

theorem Files.Sound.append (sound : files.Sound) : (files.write (.append count)).Sound where
  bytes_nodup := by
    refine List.nodup_append.mpr ⟨sound.bytes_nodup, List.nodup_range', ?_⟩
    intro byte old other new same
    subst same
    exact absurd (sound.bytes_written byte old) (Nat.not_lt.mpr (mem_new.mp new).1)
  bytes_written byte member := by
    rcases List.mem_append.mp member with old | new
    · exact Nat.lt_add_right count (sound.bytes_written byte old)
    · exact (mem_new.mp new).2
  taken_nodup := sound.taken_nodup
  taken_wanted byte member :=
    (append_wanted_old (sound.taken_written byte member)).trans (sound.taken_wanted byte member)
  taken_written byte member := Nat.lt_add_right count (sound.taken_written byte member)
  saved_taken := sound.saved_taken
  saved_uncut := sound.saved_uncut
  owed_suffix on := by
    rw [append_owed sound on]
    rcases sound.owed_suffix on with ⟨front, same⟩
    refine ⟨front, ?_⟩
    rw [← List.append_assoc, same]
    rfl
  present on byte since written wanted := by
    rcases Nat.lt_or_ge byte files.written with old | new
    · rw [append_wanted_old old] at wanted
      exact (sound.present on byte since old wanted).imp_right (List.mem_append_left _)
    · exact .inr (List.mem_append_right _ (mem_new.mpr ⟨new, written⟩))
  since_written := Nat.le_add_right_of_le sound.since_written
  bound_written := Nat.le_add_right_of_le sound.bound_written
  complete_written := Nat.le_add_right_of_le sound.complete_written
  caught byte since complete wanted := by
    rw [append_wanted_old (complete.trans_le sound.complete_written)] at wanted
    exact sound.caught byte since complete wanted

end Append

section Loss

variable {files : Files} {log : Option (List Nat)}

/-- What a loss leaves of the log. -/
theorem exists_loss {write : Write} (loses : write.Loses) :
    ∃ log, files.write write = { files with log := log } ∧
      (log.getD []).Sublist files.bytes := by
  cases write with
  | append count => exact loses.elim
  | truncate keep =>
      refine ⟨files.log.map (·.take keep), rfl, ?_⟩
      rw [Files.bytes]
      cases files.log with
      | none => exact .refl _
      | some bytes => exact List.take_sublist _ _
  | remove => exact ⟨none, rfl, List.nil_sublist _⟩

theorem loss_owed (less : (log.getD []).Sublist files.bytes) (none : files.owed = []) :
    ({ files with log := log } : Files).owed = [] := by
  have shorter : ({ files with log := log } : Files).owed.Sublist files.owed := less.filter _
  rw [none] at shorter
  exact List.sublist_nil.mp shorter

theorem Files.Sound.loss (sound : files.Sound) (less : (log.getD []).Sublist files.bytes)
    (none : files.enabled = true → files.owed = []) :
    ({ files with log := log } : Files).Sound where
  bytes_nodup := less.nodup sound.bytes_nodup
  bytes_written byte member := sound.bytes_written byte (less.subset member)
  taken_nodup := sound.taken_nodup
  taken_wanted := sound.taken_wanted
  taken_written := sound.taken_written
  saved_taken := sound.saved_taken
  saved_uncut := sound.saved_uncut
  owed_suffix on := by
    rw [loss_owed less (none on)]
    exact List.nil_suffix
  present on byte since written wanted := by
    by_cases taken : byte ∈ files.taken
    · exact .inl taken
    · have member := (sound.present on byte since written wanted).resolve_left taken
      have owed := Files.mem_owed.mpr ⟨member, wanted, since, taken⟩
      rw [none on] at owed
      exact (List.not_mem_nil owed).elim
  since_written := sound.since_written
  bound_written := sound.bound_written
  complete_written := sound.complete_written
  caught := sound.caught

end Loss

theorem Files.Sound.write {files : Files} {write : Write} (sound : files.Sound)
    (lawful : Lawful files write) : (files.write write).Sound := by
  by_cases loses : write.Loses
  · rcases exists_loss loses with ⟨log, same, less⟩
    rw [same]
    exact sound.loss less (lawful loses)
  · cases write with
    | append count => exact sound.append
    | truncate | remove => exact absurd trivial loses

/-! ## The phases of a pass -/

/-- Everything that had been written when the size was read is copied. -/
structure Files.Caught (files : Files) : Prop where
  sound : files.Sound
  upTo : ∀ byte, files.since ≤ byte → byte < files.bound → files.wanted byte = true →
    byte ∈ files.taken

/-- Some bytes are owed, and so many come before them. -/
structure Files.Behind (skip : Nat) (files : Files) : Prop where
  sound : files.Sound
  on : files.enabled = true
  settled : files.settled = skip
  owed : files.owed ≠ []

/-- The whole log is owed. -/
structure Files.Anew (files : Files) : Prop where
  sound : files.Sound
  on : files.enabled = true
  settled : files.settled = 0

/-- The script has read these bytes. -/
structure Files.Holding (piece : List Nat) (files : Files) : Prop where
  sound : files.Sound
  on : files.enabled = true
  owed : ∃ newer, files.owed = files.missed ++ piece ++ newer ∧ ∀ byte ∈ newer, files.bound ≤ byte
  missed : files.cut = false → files.missed = []

/-- What a lawful write keeps. -/
def Stable (phase : Files → Prop) : Prop :=
  ∀ files write, phase files → Lawful files write → phase (files.write write)

theorem Stable.and {first second : Files → Prop} (stable : Stable first)
    (stable' : Stable second) : Stable fun files => first files ∧ second files :=
  fun files write holds lawful =>
    ⟨stable files write holds.1 lawful, stable' files write holds.2 lawful⟩

theorem stable_sound : Stable Files.Sound :=
  fun _ _ sound lawful => sound.write lawful

theorem stable_caught : Stable Files.Caught := by
  intro files write caught lawful
  refine ⟨caught.sound.write lawful, ?_⟩
  cases write with
  | append count =>
      intro byte since bound wanted
      rw [append_wanted_old (bound.trans_le caught.sound.bound_written)] at wanted
      exact caught.upTo byte since bound wanted
  | truncate | remove => exact caught.upTo

theorem stable_behind {skip : Nat} : Stable (Files.Behind skip) := by
  intro files write behind lawful
  cases write with
  | append count =>
      refine ⟨behind.sound.append, behind.on,
        (append_settled behind.sound behind.on).trans behind.settled, ?_⟩
      rw [append_owed behind.sound behind.on]
      exact List.append_ne_nil_of_left_ne_nil behind.owed _
  | truncate | remove => exact absurd (lawful trivial behind.on) behind.owed

theorem Files.settled_le (files : Files) : files.settled ≤ files.bytes.length :=
  Nat.sub_le _ _

theorem stable_anew : Stable Files.Anew := by
  intro files write anew lawful
  refine ⟨anew.sound.write lawful, ?_, ?_⟩
  · cases write <;> exact anew.on
  · by_cases loses : write.Loses
    · have none := lawful loses anew.on
      rcases exists_loss loses with ⟨log, same, less⟩
      have settled := anew.settled
      rw [Files.settled, none, List.length_nil, Nat.sub_zero] at settled
      rw [same]
      exact Nat.eq_zero_of_le_zero ((Files.settled_le _).trans (less.length_le.trans settled.le))
    · cases write with
      | append count => exact (append_settled anew.sound anew.on).trans anew.settled
      | truncate | remove => exact absurd trivial loses

theorem stable_holding {piece : List Nat} : Stable (Files.Holding piece) := by
  intro files write holding lawful
  rcases holding.owed with ⟨newer, owed, later⟩
  refine ⟨holding.sound.write lawful, ?_, ?_, ?_⟩
  · cases write <;> exact holding.on
  · by_cases loses : write.Loses
    · have none := lawful loses holding.on
      rw [owed, List.append_eq_nil_iff] at none
      rcases exists_loss loses with ⟨log, same, less⟩
      refine ⟨[], ?_, nofun⟩
      rw [same, loss_owed less (lawful loses holding.on), List.append_nil]
      exact none.1.symm
    · cases write with
      | append count =>
          refine ⟨newer ++ List.range' files.written count, ?_, fun byte member => ?_⟩
          · rw [append_owed holding.sound holding.on, owed, List.append_assoc _ newer]
            rfl
          · rcases List.mem_append.mp member with old | new
            · exact later byte old
            · exact holding.sound.bound_written.trans (mem_new.mp new).1
      | truncate | remove => exact absurd trivial loses
  · cases write <;> exact holding.missed

/-! ## What the operations keep -/

section Operations

variable {files : Files}

theorem Files.Sound.owed_nodup (sound : files.Sound) : files.owed.Nodup :=
  sound.bytes_nodup.filter _

theorem Files.Sound.watermark (sound : files.Sound) : files.watermark.Caught := by
  have none : files.watermark.owed = [] := by
    refine List.filter_eq_nil_iff.mpr fun byte member owes => ?_
    exact absurd (Files.owes_iff.mp owes).2.1
      (Nat.not_le.mpr (sound.bytes_written byte member))
  refine ⟨⟨sound.bytes_nodup, sound.bytes_written, sound.taken_nodup, sound.taken_wanted,
    sound.taken_written, sound.saved_taken, sound.saved_uncut, fun _ => ?_, ?_, le_rfl, le_rfl,
    sound.complete_written, ?_⟩, ?_⟩
  · rw [none]
    exact List.nil_suffix
  · exact fun _ byte since written _ => absurd written (Nat.not_lt.mpr since)
  · exact fun byte since complete _ =>
      absurd (complete.trans_le sound.complete_written) (Nat.not_lt.mpr since)
  · exact fun byte since bound _ => absurd bound (Nat.not_lt.mpr since)

/-- Logging stops being on. -/
theorem Files.Sound.disable (sound : files.Sound) :
    ({ files with enabled := false } : Files).Sound :=
  { sound with
    owed_suffix := nofun
    present := nofun }

theorem Files.Sound.rotate (sound : files.Sound) :
    ({ files with
      saved := none
      cut := files.cut || !files.savedBytes.isEmpty } : Files).Sound :=
  { sound with
    saved_taken := List.nil_sublist _
    saved_uncut := fun uncut => by
      rw [Bool.or_eq_false_iff, Bool.not_eq_false', List.isEmpty_iff] at uncut
      rw [← sound.saved_uncut uncut.1, uncut.2]
      rfl }

theorem Files.Sound.trim {drop : Nat} (sound : files.Sound) :
    ({ files with
      saved := files.saved.map (·.drop drop)
      cut := files.cut || decide (drop ≠ 0) } : Files).Sound := by
  have saved : (files.saved.map (·.drop drop)).getD [] = files.savedBytes.drop drop := by
    rw [Files.savedBytes]
    cases files.saved with
    | none => rw [Option.map_none, Option.getD_none, List.drop_nil]
    | some bytes => rfl
  refine { sound with saved_taken := ?_, saved_uncut := fun uncut => ?_ }
  · change ((files.saved.map (·.drop drop)).getD []).Sublist files.taken
    rw [saved]
    exact (List.drop_sublist _ _).trans sound.saved_taken
  · change (files.saved.map (·.drop drop)).getD [] = files.taken
    rw [Bool.or_eq_false_iff, decide_eq_false_iff_not, not_not] at uncut
    rw [saved, uncut.2, List.drop_zero]
    exact sound.saved_uncut uncut.1

theorem Files.Caught.record (caught : files.Caught) :
    ({ files with complete := files.bound } : Files).Sound :=
  { caught.sound with
    complete_written := caught.sound.bound_written
    caught := caught.upTo }

/-- Nothing is owed. -/
theorem Files.Sound.caught_of_owed (sound : files.Sound) (on : files.enabled = true)
    (none : files.owed = []) : files.Caught := by
  refine ⟨sound, fun byte since bound wanted => ?_⟩
  by_contra untaken
  have member := (sound.present on byte since (bound.trans_le sound.bound_written) wanted).resolve_left
    untaken
  have owed := Files.mem_owed.mpr ⟨member, wanted, since, untaken⟩
  rw [none] at owed
  exact List.not_mem_nil owed

/-! ## Reading the log -/

theorem Files.Sound.drop_settled (sound : files.Sound) (on : files.enabled = true) :
    files.bytes.drop files.settled = files.owed :=
  (List.suffix_iff_eq_drop.mp (sound.owed_suffix on)).symm

theorem Files.Behind.tail {skip : Nat} (behind : files.Behind skip) :
    ({ files with missed := [] } : Files).Holding (files.bytes.drop skip) where
  sound := { behind.sound with }
  on := behind.on
  owed := by
    refine ⟨[], ?_, nofun⟩
    rw [List.append_nil, ← behind.settled]
    exact (behind.sound.drop_settled behind.on).symm
  missed _ := rfl

theorem Files.Anew.tailLast (anew : files.Anew) (limit : Nat) :
    ({ files with
      missed := files.bytes.take (files.bytes.length - limit)
      cut := files.cut || decide (limit < files.bytes.length) } : Files).Holding
        (lastBytes limit files.bytes) where
  sound :=
    { anew.sound with
      saved_uncut := fun uncut => anew.sound.saved_uncut (Bool.or_eq_false_iff.mp uncut).1 }
  on := anew.on
  owed := by
    refine ⟨[], ?_, nofun⟩
    have whole := anew.sound.drop_settled anew.on
    rw [anew.settled, List.drop_zero] at whole
    rw [List.append_nil, lastBytes, List.take_append_drop]
    exact whole.symm
  missed uncut := by
    rw [Bool.or_eq_false_iff, decide_eq_false_iff_not, Nat.not_lt] at uncut
    change files.bytes.take (files.bytes.length - limit) = []
    rw [Nat.sub_eq_zero_of_le uncut.2, List.take_zero]

/-! ## Publishing what was read -/

/-- The files after the new file has taken the place of the saved one. -/
def Files.publish (files : Files) (piece content : List Nat) : Files :=
  { files with
    saved := some content
    taken := files.taken ++ (files.missed ++ piece)
    cut := files.cut || decide (content ≠ files.savedBytes ++ piece) }

theorem Files.Holding.publish_owed {piece newer : List Nat} (holding : files.Holding piece)
    (owed : files.owed = files.missed ++ piece ++ newer) (content : List Nat) :
    (files.publish piece content).owed = newer := by
  have same : ∀ byte ∈ files.bytes, (files.publish piece content).owes byte =
      (files.owes byte && !(files.missed ++ piece).contains byte) := by
    intro byte _
    rw [Bool.eq_iff_iff, Bool.and_eq_true, Files.owes_iff, Files.owes_iff, Bool.not_eq_true',
      List.contains_eq_mem, decide_eq_false_iff_not, and_assoc, and_assoc, ← not_or,
      ← List.mem_append]
    exact Iff.rfl
  have nodup := holding.sound.owed_nodup
  rw [owed, List.nodup_append] at nodup
  have taken : ∀ byte ∈ files.missed ++ piece,
      ¬(!(files.missed ++ piece).contains byte) = true := by
    intro byte member
    rw [List.contains_eq_mem, decide_eq_true member]
    exact Bool.false_ne_true
  have left : ∀ byte ∈ newer, (!(files.missed ++ piece).contains byte) = true := by
    intro byte member
    rw [List.contains_eq_mem, decide_eq_false fun other => nodup.2.2 byte other byte member rfl]
    rfl
  calc (files.publish piece content).owed
      = files.bytes.filter fun byte =>
          files.owes byte && !(files.missed ++ piece).contains byte := List.filter_congr same
    _ = files.owed.filter fun byte => !(files.missed ++ piece).contains byte := by
        rw [Files.owed, List.filter_filter]
        exact List.filter_congr fun byte _ => Bool.and_comm _ _
    _ = newer := by
        rw [owed, List.filter_append, List.filter_eq_nil_iff.mpr taken,
          List.filter_eq_self.mpr left, List.nil_append]

theorem Files.Holding.publish {piece content : List Nat} (holding : files.Holding piece)
    (part : content.Sublist (files.savedBytes ++ piece)) :
    (files.publish piece content).Caught := by
  rcases holding.owed with ⟨newer, owed, later⟩
  have isOwed : ∀ byte ∈ files.missed ++ piece, byte ∈ files.owed := by
    intro byte member
    rw [owed]
    exact List.mem_append_left _ member
  have sound := holding.sound
  have left := holding.publish_owed owed content
  refine ⟨⟨sound.bytes_nodup, sound.bytes_written, ?_, ?_, ?_, ?_, ?_, fun on => ?_, ?_,
    sound.since_written, sound.bound_written, sound.complete_written, ?_⟩, ?_⟩
  · refine List.nodup_append.mpr ⟨sound.taken_nodup, ?_, ?_⟩
    · have nodup := sound.owed_nodup
      rw [owed, List.nodup_append] at nodup
      exact nodup.1
    · intro byte taken other member same
      subst same
      exact (Files.mem_owed.mp (isOwed byte member)).2.2.2 taken
  · intro byte member
    rcases List.mem_append.mp member with taken | new
    · exact sound.taken_wanted byte taken
    · exact (Files.mem_owed.mp (isOwed byte new)).2.1
  · intro byte member
    rcases List.mem_append.mp member with taken | new
    · exact sound.taken_written byte taken
    · exact sound.bytes_written byte (Files.mem_owed.mp (isOwed byte new)).1
  · exact part.trans (sound.saved_taken.append (List.sublist_append_right _ _))
  · intro uncut
    rw [Files.publish, Bool.or_eq_false_iff, decide_eq_false_iff_not, not_not] at uncut
    change content = files.taken ++ (files.missed ++ piece)
    rw [uncut.2, holding.missed uncut.1, sound.saved_uncut uncut.1, List.nil_append]
  · rw [left]
    refine List.IsSuffix.trans ?_ (sound.owed_suffix on)
    rw [owed]
    exact List.suffix_append _ _
  · exact fun on byte since written wanted =>
      (sound.present on byte since written wanted).imp_left (List.mem_append_left _)
  · exact fun byte since complete wanted =>
      List.mem_append_left _ (sound.caught byte since complete wanted)
  · intro byte since bound wanted
    by_contra untaken
    have before : byte ∉ files.taken := fun member => untaken (List.mem_append_left _ member)
    have member := (sound.present holding.on byte since (bound.trans_le sound.bound_written)
      wanted).resolve_left before
    have isNewer : byte ∈ newer := by
      rw [← left]
      exact Files.mem_owed.mpr ⟨member, wanted, since, untaken⟩
    exact absurd bound (Nat.not_lt.mpr (later byte isNewer))

end Operations

end Zlyme.Logs
