import Mathlib.Tactic.SplitIfs
import Zlyme.Foundation.Execution
import Zlyme.Ota.Update

/-! # When an update is atomic

As long as no copy of the queued release is discarded out of order, the boot volume
holds one release whenever the storage volume holds no copy of the queued one.
-/

namespace Zlyme.Ota

open Foundation Foundation.Script

/-! ## The contract of an update -/

/-- A queued archive is a copy of the queued release. -/
def Storage.HoldsTar (storage : Storage) : Prop :=
  ∃ tar ∈ storage.tars, tar.archive.intact = true ∧
    (offered tar.name = true ∨ storage.pinned = some tar)

/-- A pending or queued copy of the queued release is left. -/
def Storage.HoldsCopy (storage : Storage) : Prop :=
  storage.pending.root = some (.whole .queued) ∨ storage.HoldsTar

def Atomic (world : World) : Prop :=
  ¬world.storage.HoldsCopy → world.boot.OneRelease

instance (storage : Storage) : Decidable storage.HoldsTar :=
  inferInstanceAs (Decidable (∃ tar ∈ storage.tars, _ ∧ _))

instance (storage : Storage) : Decidable storage.HoldsCopy :=
  inferInstanceAs (Decidable (_ ∨ _))

instance (world : World) : Decidable (Atomic world) :=
  inferInstanceAs (Decidable (¬_ → _))

/-- `commit_update` discards the pending update when the kernel and the device tree
are already those of the queued release; a failed or rejected apply discards it while
the boot files belong to one release. -/
def inOrder (call : Call) (world : World) : Bool :=
  match call with
  | .removePending .committed =>
      decide (world.boot.kernel = .whole .queued ∧ world.boot.dtb = .whole .queued)
  | .removePending .rejected => decide world.boot.OneRelease
  | .removePending .failed => decide world.boot.OneRelease
  | _ => true

/-- Every operation that a boot issues is in order. -/
def BootInOrder (world : World) (choices : List Choice) : Prop :=
  ∀ entry ∈ Program.boot.issued machine choices world, inOrder entry.1 entry.2 = true

instance (world : World) (choices : List Choice) : Decidable (BootInOrder world choices) :=
  inferInstanceAs (Decidable (∀ entry ∈ _, _))

/-- The files of the installed release, with nothing pending but the queued one. -/
structure UpdateStart (world : World) : Prop where
  boot : world.boot = ⟨.whole .installed, .whole .installed, .whole .installed⟩
  pendingWhole : ∀ content, world.storage.pending.root = some content → content = .whole .queued

/-! ## What one operation keeps -/

theorem BootVolume.oneRelease {boot : BootVolume} {release : Release}
    (kernel : boot.kernel = .whole release) (dtb : boot.dtb = .whole release)
    (root : boot.root = .whole release) : boot.OneRelease := by
  rcases boot with ⟨_, _, _⟩
  cases kernel
  cases dtb
  cases root
  exact ⟨release, rfl⟩

structure Consistent (world : World) : Prop where
  pendingWhole : ∀ content, world.storage.pending.root = some content → content = .whole .queued
  atomic : Atomic world

/-- What the scripts see to before they issue an operation. -/
def Call.Allowed : Call → World → Prop
  | .copyBoot _ _, world => world.storage.HoldsCopy
  | .publish, world => ∀ content, world.storage.incoming.root = some content →
      content = .whole .queued
  | .removePending .replaced, world => world.storage.HoldsTar
  | .removePending .committed, world => world.boot.root = .whole .queued
  | .removeTars _, world =>
      world.storage.pending.root = some (.whole .queued) ∨ world.boot.OneRelease
  | .quarantineTars, world =>
      world.storage.pending.root = some (.whole .queued) ∨ world.boot.OneRelease
  | .removeWant, world =>
      world.storage.pending.root = some (.whole .queued) ∨ world.boot.OneRelease
  | _, _ => True

section Step

variable {world : World}

/-- A change of the storage that keeps `pending`, and needs no tar. -/
theorem Consistent.keepPending (consistent : Consistent world) {storage : Storage}
    (same : storage.pending = world.storage.pending)
    (settled : world.storage.pending.root = some (.whole .queued) ∨ world.boot.OneRelease) :
    Consistent { world with storage := storage } where
  pendingWhole := by
    rw [same]
    exact consistent.pendingWhole
  atomic := by
    intro noCopy
    rcases settled with root | one
    · exact absurd (.inl (same ▸ root)) noCopy
    · exact one

theorem pinned_congr {left right : Storage} (sameTars : left.tars = right.tars)
    (sameWant : left.want = right.want) : left.pinned = right.pinned := by
  simp only [Storage.pinned, Storage.nonempty, sameTars, sameWant]

theorem HoldsTar.congr {left right : Storage} (sameTars : left.tars = right.tars)
    (sameWant : left.want = right.want) (holds : right.HoldsTar) : left.HoldsTar := by
  rcases holds with ⟨tar, member, intact, queued⟩
  exact ⟨tar, sameTars ▸ member, intact, pinned_congr sameTars sameWant ▸ queued⟩

/-- A change of the storage that keeps `pending` and the queue. -/
theorem Consistent.keepQueue (consistent : Consistent world) {storage : Storage}
    (samePending : storage.pending = world.storage.pending)
    (sameTars : storage.tars = world.storage.tars) (sameWant : storage.want = world.storage.want) :
    Consistent { world with storage := storage } where
  pendingWhole := by
    rw [samePending]
    exact consistent.pendingWhole
  atomic := by
    intro noCopy
    apply consistent.atomic
    rintro (root | tar)
    · exact noCopy (.inl (samePending ▸ root))
    · exact noCopy (.inr (HoldsTar.congr sameTars sameWant tar))

theorem Staged.spare_root {staged : Staged} {choice : Choice} {content : Content}
    (kept : (staged.spare choice).root = some content) : staged.root = some content := by
  cases spares : choice.sparesRoot with
  | false => simp [Staged.spare, spares] at kept
  | true => simpa [Staged.spare, spares] using kept

/-- What a removal of `pending` leaves is part of it. -/
theorem removePending_root {why : Removal} {choice : Choice} {content : Content}
    (kept : ((Call.removePending why).perform choice world).2.storage.pending.root =
      some content) : world.storage.pending.root = some content := by
  simp only [Call.perform, World.onStorage] at kept
  split_ifs at kept
  · cases kept
  · exact Staged.spare_root kept

theorem removePending_consistent (consistent : Consistent world) {why : Removal}
    (settled : world.storage.HoldsTar ∨ world.boot.OneRelease) (choice : Choice) :
    Consistent ((Call.removePending why).perform choice world).2 where
  pendingWhole := fun content kept => consistent.pendingWhole content (removePending_root kept)
  atomic := by
    intro noCopy
    rcases settled with tar | one
    · exact absurd (.inr tar) noCopy
    · exact one

/-- The step lemma: an operation that is allowed and in order keeps the volumes
consistent, whether it succeeds or is cut short. -/
theorem perform_consistent (consistent : Consistent world) {call : Call}
    (allowed : call.Allowed world) (ordered : inOrder call world = true) (choice : Choice) :
    Consistent (call.perform choice world).2 := by
  cases call with
  | inspect => exact consistent
  | check what => exact consistent
  | reboot => exact consistent
  | copyBoot file content =>
      have copies : ∀ boot, Consistent { world with boot := boot } := fun boot =>
        ⟨consistent.pendingWhole, fun noCopy => absurd allowed noCopy⟩
      simp only [Call.perform]
      split_ifs
      · exact copies _
      · split
        · exact copies _
        · exact consistent
  | clearIncoming => exact consistent.keepQueue rfl rfl rfl
  | extract => exact consistent.keepQueue rfl rfl rfl
  | clearFailed => exact consistent.keepQueue rfl rfl rfl
  | setFailKind kind => exact consistent.keepQueue rfl rfl rfl
  | removeTars which => exact consistent.keepPending rfl allowed
  | quarantineTars => exact consistent.keepPending rfl allowed
  | removeWant => exact consistent.keepPending rfl allowed
  | removePending why =>
      refine removePending_consistent consistent ?_ choice
      cases why with
      | committed =>
          have kernelAndDtb := of_decide_eq_true ordered
          exact .inr (BootVolume.oneRelease kernelAndDtb.1 kernelAndDtb.2 allowed)
      | rejected => exact .inr (of_decide_eq_true ordered)
      | failed => exact .inr (of_decide_eq_true ordered)
      | replaced => exact .inl allowed
  | publish =>
      cases moves : choice.ok with
      | false =>
          simp only [Call.perform, moves]
          exact consistent.keepQueue rfl rfl rfl
      | true =>
          simp only [Call.perform, moves, World.onStorage, if_true, Storage.publish]
          split_ifs with noPending
          · refine ⟨allowed, fun noCopy => consistent.atomic ?_⟩
            rintro (root | tar)
            · rw [noPending] at root
              cases root
            · exact noCopy (.inr (HoldsTar.congr rfl rfl tar))
          · exact consistent.keepQueue rfl rfl rfl

end Step

/-! ## What the scripts keep -/

/-- Only in-order discards are relied on; the volumes are consistent wherever a boot
issues an operation, stops or exits. -/
def updateContract : Contract Call World where
  rely call world := inOrder call world = true
  guard _ world := Consistent world
  stop := Consistent
  exit _ world := Consistent world

section Scripts

variable {world : World}

/-- An operation answers with what it has done, or ends the boot with it, or ends the
boot having done nothing. -/
theorem machine_answers (call : Call) (choice : Choice) (world : World) :
    machine call choice world = (call.perform choice world).map some id ∨
      machine call choice world = (none, (call.perform { choice with ok := false } world).2) ∨
      machine call choice world = (none, world) := by
  unfold machine
  split_ifs
  · exact .inr (.inl rfl)
  · cases call <;> first
      | exact .inl rfl
      | exact .inr (.inr rfl)

theorem ensures_call (consistent : Consistent world) (call : Call) (allowed : call.Allowed world)
    {post : call.Result → World → Prop}
    (answers : inOrder call world = true → ∀ choice, Consistent (call.perform choice world).2 →
      post (call.perform choice world).1 (call.perform choice world).2) :
    (Program.issue call).Ensures machine updateContract post world := by
  apply Ensures.issue consistent consistent
  intro ordered choice
  have kept := perform_consistent consistent allowed ordered
  rcases machine_answers call choice world with same | same | same
  · exact .inl ⟨_, _, same, answers ordered choice (kept choice)⟩
  · exact .inr ⟨_, same, kept _⟩
  · exact .inr ⟨_, same, consistent⟩

/-! ### Operations -/

theorem inspect_ensures (consistent : Consistent world) :
    Program.inspect.Ensures machine updateContract
      (fun seen after => after = world ∧ seen = world) world :=
  ensures_call consistent .inspect trivial fun _ _ _ => ⟨rfl, rfl⟩

theorem check_ensures (consistent : Consistent world) (what : Check) :
    (Program.check what).Ensures machine updateContract (fun _ after => after = world) world :=
  ensures_call consistent (.check what) trivial fun _ _ _ => rfl

theorem setFailKind_ensures (consistent : Consistent world) (kind : Option FailKind) :
    (Program.setFailKind kind).Ensures machine updateContract
      (fun _ after => Consistent after ∧ after.boot = world.boot ∧
        after.storage.pending = world.storage.pending) world :=
  ensures_call consistent (.setFailKind kind) trivial fun _ _ after => ⟨after, rfl, rfl⟩

theorem markFail_ensures {α : Type} {post : α → World → Prop} (consistent : Consistent world)
    (kind : FailKind) :
    (Program.markFail kind : Program α).Ensures machine updateContract post world :=
  (setFailKind_ensures consistent _).bind fun _ _ ⟨consistent, _⟩ => consistent

/-- Clearing the incoming directory leaves the rest. -/
theorem clearIncoming_ensures (consistent : Consistent world) :
    Program.clearIncoming.Ensures machine updateContract
      (fun _ after => Consistent after ∧ ∃ incoming, after =
        { world with storage := { world.storage with incoming := incoming } }) world :=
  ensures_call consistent .clearIncoming trivial fun _ _ after => ⟨after, _, rfl⟩

theorem rejectRoot_ensures {α : Type} {post : α → World → Prop} (consistent : Consistent world)
    (place : Program.Place) :
    (Program.rejectRoot place : Program α).Ensures machine updateContract post world := by
  cases place with
  | pending =>
      have removed : (Program.removePending .rejected).Ensures machine updateContract
          (fun _ after => Consistent after) world :=
        ensures_call consistent (.removePending .rejected) trivial fun _ _ after => after
      exact removed.bind fun _ _ consistent => markFail_ensures consistent _
  | incoming =>
      exact (clearIncoming_ensures consistent).bind fun _ _ ⟨consistent, _⟩ =>
        markFail_ensures consistent _

theorem checkSquashfsRoot_ensures (consistent : Consistent world) (place : Program.Place) :
    (Program.checkSquashfsRoot place).Ensures machine updateContract
      (fun _ after => after = world) world := by
  refine (check_ensures consistent _).bind fun present after same => ?_
  cases same
  cases present with
  | false => exact consistent
  | true =>
  refine (check_ensures consistent _).bind fun passed after same => ?_
  cases same
  cases passed with
  | false => exact rejectRoot_ensures consistent place
  | true => exact rfl

/-- A directory that passes has its root. -/
theorem verifyDir_ensures (consistent : Consistent world) (place : Program.Place) :
    (Program.verifyDir place).Ensures machine updateContract
      (fun _ after => after = world ∧ (place.files world).root.isSome = true) world := by
  refine (inspect_ensures consistent).bind fun seen after ⟨same, isSeen⟩ => ?_
  cases same
  cases isSeen
  dsimp only
  split_ifs with missing
  · exact ensures_bind.mpr (rejectRoot_ensures consistent place)
  · refine (checkSquashfsRoot_ensures consistent place).mono fun _ after same => ⟨same, ?_⟩
    simp only [Bool.or_eq_true, not_or, Bool.not_eq_true, Option.isNone_eq_false_iff] at missing
    exact missing.1.1.2

theorem squashfsFits_ensures (consistent : Consistent world) (place : Program.Place) :
    (Program.squashfsFits place).Ensures machine updateContract
      (fun _ after => after = world) world := by
  refine (check_ensures consistent _).bind fun known after same => ?_
  cases same
  cases known with
  | false => exact rfl
  | true =>
  refine (check_ensures consistent _).bind fun fits after same => ?_
  cases same
  cases fits with
  | false => exact ensures_bind.mpr (rejectRoot_ensures consistent place)
  | true => exact rfl

theorem storageHasRoom_ensures (consistent : Consistent world) :
    Program.storageHasRoom.Ensures machine updateContract (fun _ after => after = world) world := by
  refine (check_ensures consistent _).bind fun known after same => ?_
  cases same
  cases known with
  | false => exact rfl
  | true =>
  refine (check_ensures consistent _).bind fun fits after same => ?_
  cases same
  cases fits with
  | false => exact ensures_bind.mpr (markFail_ensures consistent _)
  | true => exact rfl

/-! ### Staging -/

/-- A release is staged beside its archive. -/
structure Staging (world : World) : Prop where
  consistent : Consistent world
  tar : world.storage.HoldsTar

theorem Staging.incoming (staging : Staging world) (incoming : Staged) :
    Staging { world with storage := { world.storage with incoming := incoming } } :=
  ⟨staging.consistent.keepQueue rfl rfl rfl, HoldsTar.congr rfl rfl staging.tar⟩

theorem clearIncoming_staging (staging : Staging world) :
    Program.clearIncoming.Ensures machine updateContract (fun _ after => Staging after) world := by
  refine (clearIncoming_ensures staging.consistent).mono fun _ after ⟨_, incoming, same⟩ => ?_
  cases same
  exact staging.incoming incoming

theorem extract_ensures (staging : Staging world) :
    Program.extract.Ensures machine updateContract
      (fun ok after => Staging after ∧ (ok = true → after.storage.incoming = .complete)) world := by
  refine ensures_call staging.consistent .extract trivial fun _ choice _ =>
    ⟨staging.incoming _, fun isOk => ?_⟩
  exact if_pos isOk

/-- The publication: the archive is still there while `pending` is replaced. -/
theorem publish_ensures (staging : Staging world) (complete : world.storage.incoming = .complete) :
    (Program.removePending .replaced >>= fun _ => Program.publish).Ensures machine updateContract
      (fun _ after => Consistent after) world := by
  have removed : (Program.removePending .replaced).Ensures machine updateContract
      (fun _ after => Consistent after ∧ after.storage.incoming = .complete) world :=
    ensures_call staging.consistent (.removePending .replaced) staging.tar
      fun _ _ consistent => ⟨consistent, complete⟩
  refine removed.bind fun _ after ⟨consistent, complete⟩ => ?_
  refine ensures_call consistent .publish ?_ fun _ _ consistent => consistent
  intro content isRoot
  rw [complete] at isRoot
  exact (Option.some.inj isRoot).symm

/-- What both kinds of archive do with the extracted files. -/
theorem stageIncoming_ensures (staging : Staging world)
    (complete : world.storage.incoming = .complete) :
    (do
      Program.verifyDir .incoming
      let _ ← Program.squashfsFits .incoming
      Program.removePending .replaced
      Program.publish : Program Unit).Ensures machine updateContract
      (fun _ after => Consistent after) world := by
  refine (verifyDir_ensures staging.consistent .incoming).bind fun _ after ⟨same, _⟩ => ?_
  cases same
  refine (squashfsFits_ensures staging.consistent .incoming).bind fun _ after same => ?_
  cases same
  exact publish_ensures staging complete

theorem abandonIncoming_ensures {α : Type} {post : α → World → Prop} (staging : Staging world)
    (kind : FailKind) :
    (do
      Program.clearIncoming
      Program.markFail kind : Program α).Ensures machine updateContract post world :=
  (clearIncoming_staging staging).bind fun _ _ staging => markFail_ensures staging.consistent kind

theorem stageDelta_ensures (staging : Staging world) :
    Program.stageDelta.Ensures machine updateContract
      (fun _ after => Consistent after) world := by
  refine (check_ensures staging.consistent _).bind fun present after same => ?_
  cases same
  cases present with
  | false => exact staging.consistent
  | true =>
  refine (clearIncoming_staging staging).bind fun _ world staging => ?_
  refine (check_ensures staging.consistent _).bind fun readable after same => ?_
  cases same
  cases readable with
  | false => exact ensures_bind.mpr (abandonIncoming_ensures staging _)
  | true =>
  refine (inspect_ensures staging.consistent).bind fun seen after ⟨same, _⟩ => ?_
  cases same
  dsimp only
  split_ifs
  · exact ensures_bind.mpr (abandonIncoming_ensures staging _)
  refine (storageHasRoom_ensures staging.consistent).bind fun room after same => ?_
  cases same
  cases room with
  | false => exact (clearIncoming_staging staging).mono fun _ _ staging => staging.consistent
  | true =>
  refine (extract_ensures staging).bind fun ok after ⟨staging, complete⟩ => ?_
  cases ok with
  | false => exact ensures_bind.mpr (abandonIncoming_ensures staging _)
  | true => exact stageIncoming_ensures staging (complete rfl)

theorem stageTar_ensures (consistent : Consistent world) {tar : Tar}
    (member : tar ∈ world.storage.tars)
    (queued : offered tar.name = true ∨ world.storage.pinned = some tar) :
    (Program.stageTar tar).Ensures machine updateContract
      (fun _ after => Consistent after) world := by
  refine (check_ensures consistent _).bind fun listed after same => ?_
  cases same
  cases listed with
  | false => exact ensures_bind.mpr (markFail_ensures consistent _)
  | true =>
  cases archive : tar.archive with
  | junk => exact markFail_ensures consistent _
  | empty => exact markFail_ensures consistent _
  | delta => exact stageDelta_ensures ⟨consistent, tar, member, by rw [archive]; rfl, queued⟩
  | full =>
      have staging : Staging world := ⟨consistent, tar, member, by rw [archive]; rfl, queued⟩
      refine (storageHasRoom_ensures consistent).bind fun _ after same => ?_
      cases same
      refine (clearIncoming_staging staging).bind fun _ after staging => ?_
      refine (extract_ensures staging).bind fun ok after ⟨staging, complete⟩ => ?_
      cases ok with
      | false => exact ensures_bind.mpr (abandonIncoming_ensures staging _)
      | true => exact stageIncoming_ensures staging (complete rfl)

theorem newer_eq_some {best : Option Tar} {tar found : Tar} (isNewer : newer best tar = some found) :
    best = some found ∨ found = tar := by
  cases best with
  | none => exact .inr (Option.some.inj isNewer).symm
  | some other =>
      rw [newer] at isNewer
      split_ifs at isNewer
      · exact .inr (Option.some.inj isNewer).symm
      · exact .inl isNewer

theorem foldl_newer {tars : List Tar} {best : Option Tar} {found : Tar}
    (isNewest : tars.foldl newer best = some found) : best = some found ∨ found ∈ tars := by
  induction tars generalizing best with
  | nil => exact .inl isNewest
  | cons tar rest induction =>
      rcases induction isNewest with isBest | member
      · rcases newer_eq_some isBest with isBest | rfl
        · exact .inl isBest
        · exact .inr List.mem_cons_self
      · exact .inr (List.mem_cons_of_mem _ member)

theorem newest_mem {tars : List Tar} {tar : Tar} (isNewest : newest tars = some tar) :
    tar ∈ tars := by
  rcases foldl_newer isNewest with isNone | member
  · cases isNone
  · exact member

theorem pinned_mem {storage : Storage} {tar : Tar} (isPinned : storage.pinned = some tar) :
    tar ∈ storage.tars := by
  rw [Storage.pinned] at isPinned
  split at isPinned
  · cases isPinned
  · split_ifs at isPinned
    rcases Option.or_eq_some_iff.mp isPinned with found | ⟨_, found⟩
    · exact List.mem_of_find?_eq_some found
    · exact List.mem_of_find?_eq_some found

theorem queuedTar_mem {storage : Storage} {tar : Tar} (isQueued : storage.queuedTar = some tar) :
    tar ∈ storage.tars ∧ (offered tar.name = true ∨ storage.pinned = some tar) := by
  rcases Option.or_eq_some_iff.mp isQueued with isPinned | ⟨_, isNewest⟩
  · exact ⟨pinned_mem isPinned, .inr isPinned⟩
  · rcases List.mem_filter.mp (newest_mem isNewest) with ⟨member, isOffered⟩
    exact ⟨member, .inl ((Bool.and_eq_true_iff.mp isOffered).2)⟩

theorem ensurePending_ensures (consistent : Consistent world) :
    Program.ensurePending.Ensures machine updateContract
      (fun _ after => Consistent after) world := by
  refine (inspect_ensures consistent).bind fun seen after ⟨same, isSeen⟩ => ?_
  cases same
  cases isSeen
  dsimp only
  split_ifs
  · refine (verifyDir_ensures consistent .pending).bind fun _ after ⟨same, _⟩ => ?_
    cases same
    refine (squashfsFits_ensures consistent .pending).bind fun _ after same => ?_
    cases same
    exact consistent
  · split
    · exact markFail_ensures consistent _
    · rename_i tar isQueued
      rcases queuedTar_mem isQueued with ⟨member, queued⟩
      exact stageTar_ensures consistent member queued

/-! ### Installing -/

/-- A whole root is pending. -/
structure Pending (world : World) : Prop where
  consistent : Consistent world
  root : world.storage.pending.root = some (.whole .queued)

theorem Consistent.pending (consistent : Consistent world)
    (isSome : world.storage.pending.root.isSome = true) : Pending world := by
  refine ⟨consistent, ?_⟩
  rcases Option.isSome_iff_exists.mp isSome with ⟨content, isRoot⟩
  rw [isRoot, consistent.pendingWhole content isRoot]

theorem copyBoot_ensures (pending : Pending world) (file : BootFile) (content : Content) :
    (Program.copyBoot file content).Ensures machine updateContract
      (fun ok after => Pending after ∧
        (ok = true → after = { world with boot := world.boot.write file content })) world := by
  refine ensures_call pending.consistent (.copyBoot file content) (.inl pending.root)
    fun _ choice consistent => ?_
  have samePending : ((Call.copyBoot file content).perform choice world).2.storage =
      world.storage := by
    simp only [Call.perform]
    split_ifs
    · rfl
    · split <;> rfl
  refine ⟨⟨consistent, samePending ▸ pending.root⟩, fun isOk => ?_⟩
  simp only [Call.perform] at isOk ⊢
  split_ifs at isOk ⊢
  · rfl
  · split at isOk <;> cases isOk

theorem copyPending_ensures (pending : Pending world) (file : BootFile)
    (source : Staged → Option Content) :
    (Program.copyPending file source).Ensures machine updateContract
      (fun _ after => Pending after) world := by
  refine (inspect_ensures pending.consistent).bind fun seen after ⟨same, _⟩ => ?_
  cases same
  split
  · exact pending
  · exact (copyBoot_ensures pending file _).mono fun _ _ copied => copied.1

theorem bootWrite_ensures (pending : Pending world) :
    Program.bootWrite.Ensures machine updateContract (fun _ after => Pending after) world := by
  refine (check_ensures pending.consistent _).bind fun writable after same => ?_
  cases same
  cases writable with
  | false => exact pending
  | true =>
  refine (copyPending_ensures pending _ _).bind fun copied after pending => ?_
  cases copied with
  | false => exact pending
  | true =>
  refine (copyPending_ensures pending _ _).bind fun copied after pending => ?_
  cases copied with
  | false => exact pending
  | true =>
  refine (check_ensures pending.consistent _).bind fun copied last same => ?_
  cases same
  cases copied with
  | false => exact pending
  | true =>
  refine (check_ensures pending.consistent _).mono fun _ last same => ?_
  cases same
  exact pending

theorem installBoot_ensures (consistent : Consistent world) :
    Program.installBoot.Ensures machine updateContract
      (fun ok after => Consistent after ∧ (ok = true → Pending after)) world := by
  refine (check_ensures consistent _).bind fun mounted after same => ?_
  cases same
  cases mounted with
  | false => exact ensures_bind.mpr (markFail_ensures consistent _)
  | true =>
  refine (verifyDir_ensures consistent .pending).bind fun _ after ⟨same, isSome⟩ => ?_
  cases same
  have pending := consistent.pending isSome
  refine (squashfsFits_ensures consistent .pending).bind fun fits after same => ?_
  cases same
  cases fits with
  | false => exact ⟨consistent, nofun⟩
  | true =>
  refine (check_ensures consistent _).bind fun present after same => ?_
  cases same
  cases present with
  | false => exact ensures_bind.mpr (markFail_ensures consistent _)
  | true =>
  refine (bootWrite_ensures pending).bind fun written after pending => ?_
  cases written with
  | false => exact ensures_bind.mpr (markFail_ensures pending.consistent _)
  | true => exact ⟨pending.consistent, fun _ => pending⟩

/-! ### Clean-up -/

/-- The queue may go: a whole root is pending, or the boot files are of one release. -/
structure Settled (world : World) : Prop where
  consistent : Consistent world
  settled : world.storage.pending.root = some (.whole .queued) ∨ world.boot.OneRelease

theorem Pending.settled (pending : Pending world) : Settled world :=
  ⟨pending.consistent, .inl pending.root⟩

theorem removeWant_ensures (settled : Settled world) :
    Program.removeWant.Ensures machine updateContract (fun _ after => Settled after) world :=
  ensures_call settled.consistent .removeWant settled.settled
    fun _ _ consistent => ⟨consistent, settled.settled⟩

theorem removeTars_ensures (settled : Settled world) (which : String → Bool) :
    (Program.removeTars which).Ensures machine updateContract
      (fun _ after => Settled after) world :=
  ensures_call settled.consistent (.removeTars which) settled.settled
    fun _ _ consistent => ⟨consistent, settled.settled⟩

theorem quarantineTars_ensures (settled : Settled world) :
    Program.quarantineTars.Ensures machine updateContract (fun _ after => Settled after) world :=
  ensures_call settled.consistent .quarantineTars settled.settled
    fun _ _ consistent => ⟨consistent, settled.settled⟩

theorem clearFailed_ensures (settled : Settled world) :
    Program.clearFailed.Ensures machine updateContract (fun _ after => Settled after) world :=
  ensures_call settled.consistent .clearFailed trivial
    fun _ _ consistent => ⟨consistent, settled.settled⟩

theorem resetFailKind_ensures (settled : Settled world) :
    (Program.setFailKind none).Ensures machine updateContract
      (fun _ after => Settled after) world :=
  ensures_call settled.consistent (.setFailKind none) trivial
    fun _ _ consistent => ⟨consistent, settled.settled⟩

theorem reboot_ensures {post : Unit → World → Prop} (consistent : Consistent world) :
    Program.reboot.Ensures machine updateContract post world := by
  refine ⟨consistent, fun _ => ⟨consistent, fun choice => ?_⟩⟩
  unfold machine
  split_ifs <;> exact consistent

theorem applyFiles_ensures (consistent : Consistent world) :
    Program.applyFiles.Ensures machine updateContract
      (fun _ after => Consistent after) world := by
  have cleared : Program.clearFailed.Ensures machine updateContract
      (fun _ after => Consistent after) world :=
    ensures_call consistent .clearFailed trivial fun _ _ consistent => consistent
  refine cleared.bind fun _ after consistent => ?_
  refine (setFailKind_ensures consistent _).bind fun _ after ⟨consistent, _⟩ => ?_
  refine (ensurePending_ensures consistent).bind fun _ after consistent => ?_
  refine (installBoot_ensures consistent).bind fun ok after ⟨consistent, pending⟩ => ?_
  cases ok with
  | false => exact consistent
  | true =>
  refine (removeWant_ensures (pending rfl).settled).bind fun _ after settled => ?_
  refine (resetFailKind_ensures settled).bind fun _ after settled => ?_
  refine (clearFailed_ensures settled).bind fun _ after settled => ?_
  refine (removeTars_ensures settled _).bind fun _ after settled => ?_
  refine (removeTars_ensures settled _).bind fun _ after settled => ?_
  exact reboot_ensures settled.consistent

/-- Discarding an update that has failed in order. -/
theorem handleApplyFailure_ensures (consistent : Consistent world) :
    Program.handleApplyFailure.Ensures machine updateContract
      (fun _ after => Consistent after) world := by
  refine (inspect_ensures consistent).bind fun seen after ⟨same, _⟩ => ?_
  cases same
  have removed : (Program.removePending .failed).Ensures machine updateContract
      (fun _ after => Settled after) world :=
    ensures_call consistent (.removePending .failed) trivial
      fun ordered _ consistent => ⟨consistent, .inr (of_decide_eq_true ordered)⟩
  refine removed.bind fun _ after settled => ?_
  dsimp only
  split_ifs
  · refine (removeWant_ensures settled).bind fun _ after settled => ?_
    refine (removeTars_ensures settled _).bind fun _ after settled => ?_
    exact (resetFailKind_ensures settled).mono fun _ _ settled => settled.consistent
  · refine (clearFailed_ensures settled).bind fun _ after settled => ?_
    refine (quarantineTars_ensures settled).bind fun _ after settled => ?_
    refine (removeWant_ensures settled).bind fun _ after settled => ?_
    exact (resetFailKind_ensures settled).mono fun _ _ settled => settled.consistent

theorem bootApply_ensures (consistent : Consistent world) :
    Program.bootApply.Ensures machine updateContract
      (fun _ after => Consistent after) world := by
  refine (setFailKind_ensures consistent _).bind fun _ after ⟨consistent, _⟩ => ?_
  refine (inspect_ensures consistent).bind fun seen after ⟨same, _⟩ => ?_
  cases same
  split_ifs
  · exact consistent
  have applied : Program.applyFiles.subshell.Ensures machine updateContract
      (fun _ after => Consistent after) after :=
    ensures_subshell.mpr (applyFiles_ensures consistent)
  refine applied.bind fun result after consistent => ?_
  cases result with
  | ok done => exact consistent
  | error status => exact handleApplyFailure_ensures consistent

/-! ### The initramfs -/

theorem commitUpdate_ensures (consistent : Consistent world) :
    Program.commitUpdate.Ensures machine updateContract
      (fun _ after => Consistent after) world := by
  refine (inspect_ensures consistent).bind fun seen after ⟨same, isSeen⟩ => ?_
  cases same
  cases isSeen
  split
  · exact consistent
  rename_i content isRoot
  have pending : Pending world := consistent.pending (by rw [isRoot]; rfl)
  have isQueued := consistent.pendingWhole content isRoot
  refine (copyBoot_ensures pending .root content).bind fun ok after ⟨pending, copied⟩ => ?_
  cases ok with
  | false => exact pending.consistent
  | true =>
  have root : after.boot.root = .whole .queued := by
    rw [copied rfl, isQueued]
    rfl
  have removed : (Program.removePending .committed).Ensures machine updateContract
      (fun _ last => Settled last) after :=
    ensures_call pending.consistent (.removePending .committed) root
      fun ordered _ consistent =>
        have kernelAndDtb := of_decide_eq_true ordered
        ⟨consistent, .inr (BootVolume.oneRelease kernelAndDtb.1 kernelAndDtb.2 root)⟩
  refine removed.bind fun _ after settled => ?_
  refine (removeTars_ensures settled _).bind fun _ after settled => ?_
  refine (removeWant_ensures settled).bind fun _ after settled => ?_
  exact (removeTars_ensures settled _).bind fun _ _ settled => settled.consistent

theorem doRoot_ensures (consistent : Consistent world) :
    Program.doRoot.Ensures machine updateContract
      (fun _ after => Consistent after) world := by
  have mounts : ∀ {after : World}, Consistent after →
      (do if !(← Program.check .rootMounts) then Program.fail : Program Unit).Ensures machine
        updateContract (fun _ last => Consistent last) after := by
    intro after consistent
    refine (check_ensures consistent _).bind fun mounted last same => ?_
    cases same
    cases mounted <;> exact consistent
  refine (check_ensures consistent _).bind fun mounted after same => ?_
  cases same
  refine (inspect_ensures consistent).bind fun seen after ⟨same, _⟩ => ?_
  cases same
  dsimp only
  split_ifs
  · refine (check_ensures consistent _).bind fun opens after same => ?_
    cases same
    cases opens with
    | false => exact mounts consistent
    | true =>
    refine (commitUpdate_ensures consistent).bind fun _ after consistent => ?_
    refine (check_ensures consistent _).bind fun closes last same => ?_
    cases same
    cases closes with
    | false => exact consistent
    | true => exact mounts consistent
  · exact mounts consistent

theorem boot_ensures (consistent : Consistent world) :
    Program.boot.Ensures machine updateContract (fun _ after => Consistent after) world :=
  (doRoot_ensures consistent).bind fun _ _ consistent => bootApply_ensures consistent

end Scripts

/-! ## Runs -/

/-- One boot under the condition keeps the volumes consistent in all its states. -/
theorem bootStates_consistent {start : World} (consistent : Consistent start)
    {choices : List Choice} (ordered : BootInOrder start choices) :
    ∀ world ∈ bootStates start choices, Consistent world := by
  have run := (boot_ensures consistent).exec choices ordered
  intro world member
  rcases List.mem_append.mp member with issued | last
  · rcases List.mem_map.mp issued with ⟨entry, isIssued, rfl⟩
    exact run.1 entry isIssued
  · cases List.mem_singleton.mp last
    have ends := run.2
    rw [bootStep]
    generalize Program.boot.exec machine choices start = outcome at ends ⊢
    rcases outcome with ⟨_ | _ | _, after⟩ <;> exact ends

theorem bootStep_consistent {start : World} (consistent : Consistent start)
    {choices : List Choice} (ordered : BootInOrder start choices) :
    Consistent (bootStep start choices) :=
  bootStates_consistent consistent ordered _
    (List.mem_append_right _ (List.mem_singleton.mpr rfl))

theorem statesOf_consistent {start : World} (consistent : Consistent start)
    {boots : List (List Choice)} (ordered : Execution.Along bootStep BootInOrder start boots) :
    ∀ world ∈ statesOf start boots, Consistent world := by
  induction boots generalizing start with
  | nil =>
      intro world member
      cases List.mem_singleton.mp member
      exact consistent
  | cons choices boots induction =>
      intro world member
      rcases List.mem_append.mp member with first | later
      · exact bootStates_consistent consistent ordered.1 world first
      · exact induction (bootStep_consistent consistent ordered.1) ordered.2 world later

/-- In every run of boots whose discards are in order, the boot volume holds one
release in every state in which no copy of the queued release is left. -/
theorem update_atomic {start : World} (isStart : UpdateStart start) (boots : List (List Choice))
    (ordered : Execution.Along bootStep BootInOrder start boots) :
    ∀ world ∈ statesOf start boots, Atomic world := by
  have consistent : Consistent start := by
    refine ⟨isStart.pendingWhole, fun _ => ⟨.installed, isStart.boot⟩⟩
  exact fun world member => (statesOf_consistent consistent ordered world member).atomic

/-! ### Three runs -/

def sampleStart : World where
  boot := ⟨.whole .installed, .whole .installed, .whole .installed⟩
  storage := {
    pending := .none
    incoming := .none
    tars := [⟨queuedName, 0, .full⟩]
    failed := []
    want := none
    failKind := none }

theorem sampleStart_isStart : UpdateStart sampleStart where
  boot := rfl
  pendingWhole := by
    intro content isRoot
    cases isRoot

def answer (ok : Bool) : Choice where
  ok := ok
  powerLost := false
  left := none
  extracted := .none
  sparesRoot := false
  sparesOthers := false
  sparesTar _ := false

/-- Everything succeeds, for as many operations as one boot issues. -/
def smoothBoot : List Choice :=
  List.replicate 60 (answer true)

/-- The release is installed in one boot and committed in the next one. -/
theorem smoothUpdate_atomic :
    (∀ world ∈ statesOf sampleStart [smoothBoot, smoothBoot], Atomic world) ∧
      bootStep (bootStep sampleStart smoothBoot) smoothBoot =
        { sampleStart with
          boot := ⟨.whole .queued, .whole .queued, .whole .queued⟩
          storage := { sampleStart.storage with tars := [] } } := by
  refine ⟨update_atomic sampleStart_isStart _ ?_, by decide⟩
  decide

/-- Power is lost right after `pending` is published; the next boot commits the root
alone. -/
def lostBeforeInstall : List (List Choice) :=
  [List.replicate 20 (answer true), List.replicate 9 (answer true)]

/-- The copy of the device tree fails after that of the kernel. -/
def failedCopy : List (List Choice) :=
  [List.replicate 31 (answer true) ++ [answer false] ++ List.replicate 20 (answer true)]

/-- Both runs end with nothing queued and files of two releases. -/
theorem update_not_atomic : UpdateStart sampleStart ∧
    (∃ world ∈ statesOf sampleStart lostBeforeInstall, ¬Atomic world) ∧
      ∃ world ∈ statesOf sampleStart failedCopy, ¬Atomic world := by
  refine ⟨sampleStart_isStart, ?_, ?_⟩
  · decide
  · decide

end Zlyme.Ota
