import Mathlib.Tactic.SplitIfs
import Zlyme.Ota.Atomicity
import Zlyme.Ota.Queue

/-! # When no queued release is discarded

As long as no leftover pending directory is of another release than the queue, what
is removed while a release is installed is that release's own queue.
-/

namespace Zlyme.Ota.Queue

open Foundation Foundation.Script Foundation.Execution

/-! ## What one operation keeps -/

/-- An operation that leaves the queue. -/
structure SameQueue (before after : Labelled) : Prop where
  tars : after.world.storage.tars = before.world.storage.tars
  want : after.world.storage.want = before.world.storage.want
  releases : after.releases = before.releases

namespace SameQueue

variable {before after : Labelled}

theorem selected (same : SameQueue before after) : after.selected = before.selected := by
  unfold Labelled.selected Storage.queuedTar
  rw [same.releases, same.tars, pinned_congr same.tars same.want]

theorem atStake (same : SameQueue before after) : after.AtStake ↔ before.AtStake := by
  unfold Labelled.AtStake
  rw [same.tars]

end SameQueue

/-- An operation that leaves the queue and the labels of `pending`. -/
structure Quiet (before after : Labelled) : Prop extends SameQueue before after where
  pendingRelease : after.pendingRelease = before.pendingRelease
  incomingRelease : after.incomingRelease = before.incomingRelease
  pending : after.world.storage.pending.root.isSome = true →
    before.world.storage.pending.root.isSome = true
  installs : after.installs = before.installs ∨ after.installs = none

theorem Quiet.refl (labelled : Labelled) : Quiet labelled labelled :=
  ⟨⟨rfl, rfl, rfl⟩, rfl, rfl, id, .inl rfl⟩

theorem Quiet.agrees {before after : Labelled} (quiet : Quiet before after)
    (agrees : before.Agrees) : after.Agrees := by
  intro pending atStake
  rw [quiet.selected, quiet.pendingRelease]
  exact agrees (quiet.pending pending) (quiet.atStake.mp atStake)

/-- The release that is being installed is the selected one, if an archive is left. -/
def Settled (labelled : Labelled) : Prop :=
  ∀ release selected, labelled.installs = some (release, selected) → labelled.AtStake →
    selected = some release

theorem Quiet.settled {before after : Labelled} (quiet : Quiet before after)
    (settled : Settled before) : Settled after := by
  intro release selected installs atStake
  rcases quiet.installs with same | none
  · exact settled release selected (same ▸ installs) (quiet.atStake.mp atStake)
  · rw [none] at installs
    cases installs

/-- The operations that leave the queue and the labels of `pending`. -/
def quietCall : Call → Bool
  | .inspect => true
  | .check _ => true
  | .clearIncoming => true
  | .removePending _ => true
  | .clearFailed => true
  | .setFailKind _ => true
  | _ => false

theorem quiet_perform {call : Call} (isQuiet : quietCall call = true) (labelled : Labelled)
    (choice : Choice) : Quiet labelled (labelled.relabel call (call.perform choice labelled.world).2) := by
  cases call <;> try cases isQuiet
  case inspect => exact .refl labelled
  case check => exact .refl labelled
  case clearIncoming => exact ⟨⟨rfl, rfl, rfl⟩, rfl, rfl, id, .inl rfl⟩
  case clearFailed => exact ⟨⟨rfl, rfl, rfl⟩, rfl, rfl, id, .inl rfl⟩
  case setFailKind => exact ⟨⟨rfl, rfl, rfl⟩, rfl, rfl, id, .inl rfl⟩
  case removePending why =>
    have kept : ((Call.removePending why).perform choice labelled.world).2.storage.pending.root.isSome
        = true → labelled.world.storage.pending.root.isSome = true := by
      intro isSome
      rcases Option.isSome_iff_exists.mp isSome with ⟨content, isRoot⟩
      rw [removePending_root isRoot]
      rfl
    cases why
    · exact ⟨⟨rfl, rfl, rfl⟩, rfl, rfl, kept, .inl rfl⟩
    · exact ⟨⟨rfl, rfl, rfl⟩, rfl, rfl, kept, .inr rfl⟩
    · exact ⟨⟨rfl, rfl, rfl⟩, rfl, rfl, kept, .inr rfl⟩
    · exact ⟨⟨rfl, rfl, rfl⟩, rfl, rfl, kept, .inl rfl⟩

/-! ## Rules -/

/-- The scripts may stop and exit anywhere. -/
def queueContract : Contract Call Labelled where
  rely _ _ := True
  guard call labelled := removesInOrder call labelled = true
  stop _ := True
  exit _ _ := True

section Rules

variable {labelled : Labelled}

theorem ensures_issue {call : Call} {post : call.Result → Labelled → Prop}
    (inOrder : removesInOrder call labelled = true)
    (answers : ∀ choice, post (call.perform choice labelled.world).1
      (labelled.relabel call (call.perform choice labelled.world).2)) :
    (Program.issue call).Ensures labelledMachine queueContract post labelled := by
  refine Ensures.issue trivial inOrder fun _ choice => ?_
  unfold labelledMachine
  rcases machine_answers call choice labelled.world with same | same | same
  · rw [same]
    exact .inl ⟨_, _, rfl, answers choice⟩
  · rw [same]
    exact .inr ⟨_, rfl, trivial⟩
  · rw [same]
    exact .inr ⟨_, rfl, trivial⟩

theorem inspect_ensures : Program.inspect.Ensures labelledMachine queueContract
    (fun seen after => after = labelled ∧ seen = labelled.world) labelled :=
  ensures_issue rfl fun _ => ⟨rfl, rfl⟩

theorem check_ensures (what : Check) :
    (Program.check what).Ensures labelledMachine queueContract (fun _ after => after = labelled)
      labelled :=
  ensures_issue rfl fun _ => rfl

theorem clearIncoming_ensures : Program.clearIncoming.Ensures labelledMachine queueContract
    (fun _ after => Quiet labelled after) labelled :=
  ensures_issue rfl fun choice => quiet_perform rfl labelled choice

theorem clearFailed_ensures : Program.clearFailed.Ensures labelledMachine queueContract
    (fun _ after => Quiet labelled after) labelled :=
  ensures_issue rfl fun choice => quiet_perform rfl labelled choice

theorem setFailKind_ensures (kind : Option FailKind) :
    (Program.setFailKind kind).Ensures labelledMachine queueContract
      (fun _ after => Quiet labelled after) labelled :=
  ensures_issue rfl fun choice => quiet_perform rfl labelled choice

theorem removePending_ensures (why : Removal) :
    (Program.removePending why).Ensures labelledMachine queueContract
      (fun _ after => Quiet labelled after) labelled :=
  ensures_issue rfl fun choice => quiet_perform rfl labelled choice

variable {α : Type} {post : α → Labelled → Prop}

theorem markFail_ensures (kind : FailKind) :
    (Program.markFail kind : Program α).Ensures labelledMachine queueContract post labelled :=
  (setFailKind_ensures _).bind fun _ _ _ => trivial

theorem rejectRoot_ensures (place : Program.Place) :
    (Program.rejectRoot place : Program α).Ensures labelledMachine queueContract post labelled := by
  cases place with
  | pending => exact (removePending_ensures _).bind fun _ _ _ => markFail_ensures _
  | incoming => exact clearIncoming_ensures.bind fun _ _ _ => markFail_ensures _

theorem checkSquashfsRoot_ensures (place : Program.Place) :
    (Program.checkSquashfsRoot place).Ensures labelledMachine queueContract
      (fun _ after => after = labelled) labelled := by
  refine (check_ensures _).bind fun present after same => ?_
  cases same
  cases present with
  | false => trivial
  | true =>
  refine (check_ensures _).bind fun passed after same => ?_
  cases same
  cases passed with
  | false => exact rejectRoot_ensures place
  | true => exact rfl

/-- A directory that passes has its root. -/
theorem verifyDir_ensures (place : Program.Place) :
    (Program.verifyDir place).Ensures labelledMachine queueContract
      (fun _ after => after = labelled ∧ (place.files labelled.world).root.isSome = true)
      labelled := by
  refine inspect_ensures.bind fun seen after ⟨same, isSeen⟩ => ?_
  cases same
  cases isSeen
  dsimp only
  split_ifs with missing
  · exact ensures_bind.mpr (rejectRoot_ensures place)
  · refine (checkSquashfsRoot_ensures place).mono fun _ after same => ⟨same, ?_⟩
    simp only [Bool.or_eq_true, not_or, Bool.not_eq_true, Option.isNone_eq_false_iff] at missing
    exact missing.1.1.2

theorem squashfsFits_ensures (place : Program.Place) :
    (Program.squashfsFits place).Ensures labelledMachine queueContract
      (fun _ after => after = labelled) labelled := by
  refine (check_ensures _).bind fun known after same => ?_
  cases same
  cases known with
  | false => exact rfl
  | true =>
  refine (check_ensures _).bind fun fits after same => ?_
  cases same
  cases fits with
  | false => exact ensures_bind.mpr (rejectRoot_ensures place)
  | true => exact rfl

theorem storageHasRoom_ensures : Program.storageHasRoom.Ensures labelledMachine queueContract
    (fun _ after => after = labelled) labelled := by
  refine (check_ensures _).bind fun known after same => ?_
  cases same
  cases known with
  | false => exact rfl
  | true =>
  refine (check_ensures _).bind fun fits after same => ?_
  cases same
  cases fits with
  | false => exact ensures_bind.mpr (markFail_ensures _)
  | true => exact rfl

end Rules

/-! ## Staging -/

/-- A script may install what is pending. -/
structure Ready (labelled : Labelled) : Prop where
  agrees : labelled.Agrees
  settled : Settled labelled

theorem Quiet.ready {before after : Labelled} (quiet : Quiet before after)
    (ready : Ready before) : Ready after :=
  ⟨quiet.agrees ready.agrees, quiet.settled ready.settled⟩

/-- What is incoming is what `queued_tar` selects. -/
structure Extracted (labelled : Labelled) : Prop where
  ready : Ready labelled
  incoming : labelled.selected = some labelled.incomingRelease

theorem Quiet.extracted {before after : Labelled} (quiet : Quiet before after)
    (extracted : Extracted before) : Extracted after where
  ready := quiet.ready extracted.ready
  incoming := by rw [quiet.selected, quiet.incomingRelease, extracted.incoming]

section Staging

variable {labelled : Labelled}

theorem extract_ensures (ready : Ready labelled) (selects : labelled.selected.isSome = true) :
    Program.extract.Ensures labelledMachine queueContract (fun _ => Extracted) labelled := by
  refine ensures_issue rfl fun choice => ⟨⟨ready.agrees, ready.settled⟩, ?_⟩
  rcases Option.isSome_iff_exists.mp selects with ⟨release, isSelected⟩
  change labelled.selected = some (labelled.selected.getD labelled.incomingRelease)
  rw [isSelected]
  rfl

theorem publish_queue (labelled : Labelled) (choice : Choice) :
    SameQueue labelled
      (labelled.relabel .publish (Call.publish.perform choice labelled.world).2) := by
  constructor
  · simp only [Labelled.relabel, Call.perform, World.onStorage, Storage.publish]
    split_ifs <;> rfl
  · simp only [Labelled.relabel, Call.perform, World.onStorage, Storage.publish]
    split_ifs <;> rfl
  · rfl

/-- A directory that is there stays the pending one. -/
theorem publish_keeps {world : World} (there : world.storage.pending ≠ .none) (choice : Choice) :
    (Call.publish.perform choice world).2.storage.pending = world.storage.pending := by
  simp only [Call.perform, World.onStorage, Storage.publish, if_neg there]
  split_ifs <;> rfl

/-- What is published has been extracted from the selected archive. -/
theorem publish_ensures (extracted : Extracted labelled) :
    Program.publish.Ensures labelledMachine queueContract (fun _ => Ready) labelled := by
  refine ensures_issue rfl fun choice => ?_
  have queue := publish_queue labelled choice
  constructor
  · intro pending atStake
    rw [queue.selected]
    by_cases there : labelled.world.storage.pending = .none
    · simp only [Labelled.relabel, if_pos there]
      exact extracted.incoming
    · simp only [Labelled.relabel, if_neg there, publish_keeps there choice] at pending ⊢
      exact extracted.ready.agrees pending (queue.atStake.mp atStake)
  · intro release selected installs atStake
    exact extracted.ready.settled release selected installs (queue.atStake.mp atStake)

/-- From a successful extraction to the published directory. -/
theorem publishIncoming_ensures (extracted : Extracted labelled) :
    (do
      Program.verifyDir .incoming
      let _ ← Program.squashfsFits .incoming
      Program.removePending .replaced
      Program.publish : Program Unit).Ensures labelledMachine queueContract (fun _ => Ready)
        labelled := by
  refine (verifyDir_ensures _).bind fun _ after ⟨same, _⟩ => ?_
  cases same
  refine (squashfsFits_ensures _).bind fun _ after same => ?_
  cases same
  refine (removePending_ensures _).bind fun _ removed quiet => ?_
  exact publish_ensures (quiet.extracted extracted)

theorem stageDelta_ensures (ready : Ready labelled) (selects : labelled.selected.isSome = true) :
    Program.stageDelta.Ensures labelledMachine queueContract (fun _ => Ready) labelled := by
  refine (check_ensures _).bind fun present after same => ?_
  cases same
  cases present with
  | false => trivial
  | true =>
  refine clearIncoming_ensures.bind fun _ cleared quiet => ?_
  replace ready := quiet.ready ready
  rw [← quiet.selected] at selects
  refine (check_ensures _).bind fun passed after same => ?_
  cases same
  cases passed with
  | false => exact ensures_bind.mpr (clearIncoming_ensures.bind fun _ _ _ => markFail_ensures _)
  | true =>
  refine inspect_ensures.bind fun seen after ⟨same, _⟩ => ?_
  cases same
  split_ifs
  · exact ensures_bind.mpr (clearIncoming_ensures.bind fun _ _ _ => markFail_ensures _)
  refine storageHasRoom_ensures.bind fun room after same => ?_
  cases same
  cases room with
  | false => exact clearIncoming_ensures.mono fun _ _ quiet => quiet.ready ready
  | true =>
  refine (extract_ensures ready selects).bind fun complete after extracted => ?_
  cases complete with
  | false => exact ensures_bind.mpr (clearIncoming_ensures.bind fun _ _ _ => markFail_ensures _)
  | true => exact publishIncoming_ensures extracted

theorem stageTar_ensures (ready : Ready labelled) (selects : labelled.selected.isSome = true)
    (tar : Tar) :
    (Program.stageTar tar).Ensures labelledMachine queueContract (fun _ => Ready) labelled := by
  refine (check_ensures _).bind fun listed after same => ?_
  cases same
  cases listed with
  | false => exact ensures_bind.mpr (markFail_ensures _)
  | true =>
  cases tar.archive with
  | junk => exact markFail_ensures _
  | empty => exact markFail_ensures _
  | delta => exact stageDelta_ensures ready selects
  | full =>
  refine storageHasRoom_ensures.bind fun _ after same => ?_
  cases same
  refine clearIncoming_ensures.bind fun _ cleared quiet => ?_
  replace ready := quiet.ready ready
  rw [← quiet.selected] at selects
  refine (extract_ensures ready selects).bind fun complete after extracted => ?_
  cases complete with
  | false => exact ensures_bind.mpr (clearIncoming_ensures.bind fun _ _ _ => markFail_ensures _)
  | true => exact publishIncoming_ensures extracted

theorem ensurePending_ensures (ready : Ready labelled) :
    Program.ensurePending.Ensures labelledMachine queueContract (fun _ => Ready) labelled := by
  refine inspect_ensures.bind fun seen after ⟨same, isSeen⟩ => ?_
  cases same
  cases isSeen
  dsimp only
  split_ifs
  · refine (verifyDir_ensures _).bind fun _ after ⟨same, _⟩ => ?_
    cases same
    refine (squashfsFits_ensures _).bind fun _ after same => ?_
    cases same
    exact ready
  · split
    · exact markFail_ensures _
    · rename_i tar isQueued
      refine stageTar_ensures ready ?_ tar
      rw [Labelled.selected, isQueued]
      rfl

end Staging

/-! ## Installing -/

section Installing

variable {labelled : Labelled}

/-- A root is pending that may be installed. -/
structure Pending (labelled : Labelled) : Prop where
  ready : Ready labelled
  root : labelled.world.storage.pending.root.isSome = true

theorem copyBoot_queue (labelled : Labelled) (file : BootFile) (content : Content)
    (choice : Choice) :
    ((Call.copyBoot file content).perform choice labelled.world).2.storage =
      labelled.world.storage := by
  simp only [Call.perform]
  split_ifs
  · rfl
  · split <;> rfl

/-- What is copied is the pending release, which is the selected one. -/
theorem copyBoot_ensures (pending : Pending labelled) (file : BootFile) (content : Content) :
    (Program.copyBoot file content).Ensures labelledMachine queueContract (fun _ => Pending)
      labelled := by
  refine ensures_issue rfl fun choice => ?_
  have same := copyBoot_queue labelled file content choice
  have queue : SameQueue labelled (labelled.relabel (.copyBoot file content)
      ((Call.copyBoot file content).perform choice labelled.world).2) :=
    ⟨congrArg Storage.tars same, congrArg Storage.want same, rfl⟩
  refine ⟨⟨?_, ?_⟩, ?_⟩
  · intro root atStake
    rw [queue.selected]
    exact pending.ready.agrees pending.root (queue.atStake.mp atStake)
  · intro release selected installs atStake
    cases installs
    exact pending.ready.agrees pending.root (queue.atStake.mp atStake)
  · exact (congrArg (fun storage : Storage => storage.pending.root.isSome) same).trans pending.root

theorem copyPending_ensures (pending : Pending labelled) (file : BootFile)
    (source : Staged → Option Content) :
    (Program.copyPending file source).Ensures labelledMachine queueContract (fun _ => Pending)
      labelled := by
  refine inspect_ensures.bind fun seen after ⟨same, _⟩ => ?_
  cases same
  split
  · exact pending
  · exact copyBoot_ensures pending file _

theorem bootWrite_ensures (pending : Pending labelled) :
    Program.bootWrite.Ensures labelledMachine queueContract (fun _ => Pending) labelled := by
  refine (check_ensures _).bind fun writable after same => ?_
  cases same
  cases writable with
  | false => exact pending
  | true =>
  refine (copyPending_ensures pending _ _).bind fun copied after pending => ?_
  cases copied with
  | false => exact pending
  | true =>
  refine (copyPending_ensures pending _ _).bind fun copied after pending => ?_
  cases copied with
  | false => exact pending
  | true =>
  refine (check_ensures _).bind fun copied last same => ?_
  cases same
  cases copied with
  | false => exact pending
  | true =>
  refine (check_ensures _).mono fun _ last same => ?_
  cases same
  exact pending

theorem installBoot_ensures (ready : Ready labelled) :
    Program.installBoot.Ensures labelledMachine queueContract (fun _ => Ready) labelled := by
  refine (check_ensures _).bind fun mounted after same => ?_
  cases same
  cases mounted with
  | false => exact ensures_bind.mpr (markFail_ensures _)
  | true =>
  refine (verifyDir_ensures .pending).bind fun _ after ⟨same, root⟩ => ?_
  cases same
  refine (squashfsFits_ensures .pending).bind fun fits after same => ?_
  cases same
  cases fits with
  | false => exact ready
  | true =>
  refine (check_ensures _).bind fun present after same => ?_
  cases same
  cases present with
  | false => exact ensures_bind.mpr (markFail_ensures _)
  | true =>
  refine (bootWrite_ensures ⟨ready, root⟩).bind fun written after pending => ?_
  cases written with
  | false => exact ensures_bind.mpr (markFail_ensures _)
  | true => exact pending.ready

end Installing

/-! ## Removing -/

section Removing

variable {labelled : Labelled}

theorem Settled.of_idle (idle : labelled.installs = none) : Settled labelled := by
  intro release selected installs
  rw [idle] at installs
  cases installs

theorem Settled.removesInOrder (settled : Settled labelled) {which : String → Bool}
    (narrow : ∀ name, which name = true → removable name = true) :
    removesInOrder (.removeTars which) labelled = true := by
  cases installs : labelled.installs with
  | none => simp [Queue.removesInOrder, installs]
  | some pair =>
      rcases pair with ⟨release, selected⟩
      by_cases atStake : ∃ tar ∈ labelled.world.storage.tars,
          (which tar.name && tar.archive.intact) = true
      · rcases atStake with ⟨tar, member, removed⟩
        rcases Bool.and_eq_true_iff.mp removed with ⟨named, intact⟩
        have same := settled release selected installs ⟨tar, member, narrow _ named, intact⟩
        simp [Queue.removesInOrder, installs, same]
      · have noTar := Bool.eq_false_iff.mpr (mt List.any_eq_true.mp atStake)
        simp [Queue.removesInOrder, installs, noTar]

/-- Names that are removed while a release is installed are removable. -/
theorem removeTars_ensures (settled : Settled labelled) {which : String → Bool}
    (narrow : ∀ name, which name = true → removable name = true) :
    (Program.removeTars which).Ensures labelledMachine queueContract (fun _ => Settled)
      labelled := by
  refine ensures_issue ?_ fun choice => ?_
  · exact settled.removesInOrder narrow
  · rintro release selected installs ⟨tar, member, isRemovable, intact⟩
    exact settled release selected installs
      ⟨tar, (List.mem_filter.mp member).1, isRemovable, intact⟩

theorem queuedName_removable (name : String) (isQueued : (name == queuedName) = true) :
    removable name = true := by
  rw [removable, isQueued]
  rfl

theorem numbered_removable (name : String) (isNumbered : numbered name = true) :
    removable name = true := by
  rw [removable, isNumbered, Bool.or_true]

theorem removeWant_ensures (settled : Settled labelled) :
    Program.removeWant.Ensures labelledMachine queueContract (fun _ => Settled) labelled :=
  ensures_issue rfl fun _ release selected installs atStake =>
    settled release selected installs atStake

theorem applyFiles_ensures (ready : Ready labelled) :
    Program.applyFiles.Ensures labelledMachine queueContract (fun _ _ => True) labelled := by
  refine clearFailed_ensures.bind fun _ _ quiet => ?_
  replace ready := quiet.ready ready
  refine (setFailKind_ensures _).bind fun _ _ quiet => ?_
  replace ready := quiet.ready ready
  refine (ensurePending_ensures ready).bind fun _ _ ready => ?_
  refine (installBoot_ensures ready).bind fun installed _ ready => ?_
  cases installed with
  | false => exact ensures_bind.mpr trivial
  | true =>
  refine (removeWant_ensures ready.settled).bind fun _ _ settled => ?_
  refine (setFailKind_ensures _).bind fun _ _ quiet => ?_
  replace settled := quiet.settled settled
  refine clearFailed_ensures.bind fun _ _ quiet => ?_
  replace settled := quiet.settled settled
  refine (removeTars_ensures settled queuedName_removable).bind fun _ _ settled => ?_
  refine (removeTars_ensures settled numbered_removable).bind fun _ _ settled => ?_
  exact ensures_issue rfl fun _ => trivial

/-- With no release installed, any archive may go. -/
def Idle (labelled : Labelled) : Prop :=
  labelled.installs = none

theorem Quiet.idle {before after : Labelled} (quiet : Quiet before after) (idle : Idle before) :
    Idle after := by
  rcases quiet.installs with same | none
  · exact same.trans idle
  · exact none

theorem removeFailed_ensures :
    (Program.removePending .failed).Ensures labelledMachine queueContract (fun _ => Idle)
      labelled :=
  ensures_issue rfl fun _ => rfl

theorem Idle.removesInOrder (idle : Idle labelled) (call : Call) :
    removesInOrder call labelled = true := by
  have none : labelled.installs = none := idle
  cases call <;> simp [Queue.removesInOrder, none]

/-- A change of the queue leaves nothing installed. -/
theorem idle_ensures {call : Call} (idle : Idle labelled)
    (keeps : ∀ world, (labelled.relabel call world).installs = labelled.installs) :
    (Program.issue call).Ensures labelledMachine queueContract (fun _ => Idle) labelled :=
  ensures_issue (idle.removesInOrder call) fun _ => (keeps _).trans idle

theorem handleApplyFailure_ensures :
    Program.handleApplyFailure.Ensures labelledMachine queueContract (fun _ _ => True) labelled := by
  refine inspect_ensures.bind fun seen _ _ => ?_
  refine removeFailed_ensures.bind fun _ _ idle => ?_
  dsimp only
  split_ifs
  · refine (idle_ensures idle fun _ => rfl).bind fun _ _ idle => ?_
    refine (idle_ensures idle fun _ => rfl).bind fun _ _ _ => ?_
    exact (setFailKind_ensures _).mono fun _ _ _ => trivial
  · refine clearFailed_ensures.bind fun _ _ quiet => ?_
    refine (idle_ensures (quiet.idle idle) fun _ => rfl).bind fun _ _ idle => ?_
    refine (idle_ensures idle fun _ => rfl).bind fun _ _ _ => ?_
    exact (setFailKind_ensures _).mono fun _ _ _ => trivial

theorem bootApply_ensures (ready : Ready labelled) :
    Program.bootApply.Ensures labelledMachine queueContract (fun _ _ => True) labelled := by
  refine (setFailKind_ensures _).bind fun _ between quiet => ?_
  replace ready := quiet.ready ready
  refine inspect_ensures.bind fun seen after ⟨same, _⟩ => ?_
  cases same
  split_ifs
  · trivial
  · have applied : (Program.applyFiles.subshell).Ensures labelledMachine queueContract
        (fun _ _ => True) between := ensures_subshell.mpr (applyFiles_ensures ready)
    refine applied.bind fun result after _ => ?_
    cases result with
    | ok _ => trivial
    | error status => exact handleApplyFailure_ensures

theorem commitUpdate_ensures (ready : Ready labelled) :
    Program.commitUpdate.Ensures labelledMachine queueContract (fun _ _ => True) labelled := by
  refine inspect_ensures.bind fun seen after ⟨same, isSeen⟩ => ?_
  cases same
  cases isSeen
  split
  · trivial
  · rename_i content isPending
    have pending : Pending labelled := ⟨ready, by rw [isPending]; rfl⟩
    refine (copyBoot_ensures pending .root content).bind fun copied after pending => ?_
    cases copied with
    | false => trivial
    | true =>
    refine (removePending_ensures _).bind fun _ _ quiet => ?_
    have settled := quiet.settled pending.ready.settled
    refine (removeTars_ensures settled queuedName_removable).bind fun _ _ settled => ?_
    refine (removeWant_ensures settled).bind fun _ _ settled => ?_
    exact (removeTars_ensures settled numbered_removable).bind fun _ _ _ => trivial

theorem rootMounts_ensures :
    (do if !(← Program.check .rootMounts) then Program.fail : Program Unit).Ensures
      labelledMachine queueContract (fun _ _ => True) labelled := by
  refine (check_ensures _).bind fun mounts _ _ => ?_
  cases mounts <;> trivial

theorem doRoot_ensures (ready : Ready labelled) :
    Program.doRoot.Ensures labelledMachine queueContract (fun _ _ => True) labelled := by
  refine (check_ensures _).bind fun mounted after same => ?_
  cases same
  refine inspect_ensures.bind fun seen after ⟨same, _⟩ => ?_
  cases same
  dsimp only
  split_ifs
  · refine (check_ensures _).bind fun opens after same => ?_
    cases same
    cases opens with
    | false => exact rootMounts_ensures
    | true =>
    refine (commitUpdate_ensures ready).bind fun _ _ _ => ?_
    refine (check_ensures _).bind fun closes _ _ => ?_
    cases closes with
    | false => trivial
    | true => exact rootMounts_ensures
  · exact rootMounts_ensures

end Removing

/-! ## Runs of the queue -/

/-- What a script starts with: the queue agrees, and nothing is installed yet. -/
theorem booted_ready {labelled : Labelled} (agrees : labelled.Agrees) (boot : BootVolume) :
    Ready (labelled.booted boot) :=
  ⟨agrees, .of_idle rfl⟩

theorem keepsQueue_of_noOtherPending {labelled : Labelled} {label : QueueStep}
    (noOther : NoOtherPending labelled label) : KeepsQueue labelled label := by
  cases label with
  | drop tar release => exact fun _ member => nomatch member
  | queue mtime archive release complete => exact fun _ member => nomatch member
  | pin => exact fun _ member => nomatch member
  | initramfs boot choices =>
      exact ((doRoot_ensures (booted_ready noOther boot)).exec _ fun _ _ => trivial).1
  | bootApply boot choices =>
      exact ((bootApply_ensures (booted_ready noOther boot)).exec _ fun _ _ => trivial).1

/-- In every run whose scripts find no leftover of another release, no queued
release is discarded uninstalled. -/
theorem queue_kept (labelled : Labelled) (labels : List QueueStep)
    (noOther : Along Labelled.step NoOtherPending labelled labels) :
    Along Labelled.step KeepsQueue labelled labels :=
  noOther.of_invariant (fun _ => True) (fun _ _ _ _ => trivial)
    (fun _ _ _ noOther => keepsQueue_of_noOtherPending noOther) trivial

/-! ## Sample runs -/

/-- The answer of an operation that goes through. -/
def goesThrough : Choice where
  ok := true
  powerLost := false
  left := none
  extracted := .none
  sparesRoot := false
  sparesOthers := false
  sparesTar _ := false

def installedBoot : BootVolume :=
  ⟨.whole .installed, .whole .installed, .whole .installed⟩

/-- An empty stage directory. -/
def noQueue : Labelled where
  world :=
    { boot := installedBoot
      storage :=
        { pending := .none, incoming := .none, tars := [], failed := [], want := none
          failKind := none } }
  releases _ := 0
  pendingRelease := 0
  incomingRelease := 0
  installs := none

def firstTar : Tar :=
  ⟨"zlyme-my355-20260101-first.tar", 1, .full⟩

def secondTar : Tar :=
  ⟨"zlyme-my355-20260202-second.tar", 2, .full⟩

/-- Release 1 is dropped and staged, and the device is turned off at its reboot. -/
def staged : List QueueStep :=
  [.drop firstTar 1, .bootApply installedBoot (List.replicate 64 goesThrough)]

/-- The initramfs commits, with release 2 on the card in the one case. -/
def committed : List QueueStep :=
  staged ++ [.initramfs installedBoot (List.replicate 64 goesThrough)]

def overtaken : List QueueStep :=
  staged ++ [.drop secondTar 2, .initramfs installedBoot (List.replicate 64 goesThrough)]

theorem committed_kept : Along Labelled.step KeepsQueue noQueue committed :=
  queue_kept noQueue committed (by decide)

/-- The commit of release 1 removes the archive of release 2. -/
theorem overtaken_discarded : ¬Along Labelled.step KeepsQueue noQueue overtaken := by
  decide +kernel

end Zlyme.Ota.Queue
