import Zlyme.Foundation.Execution
import Zlyme.Ota.Update

/-! # When an update reboots once

`boot-apply` reboots for the pending directory whenever it finds one. It does so
once for each as long as the initramfs commits what it finds.
-/

namespace Zlyme.Ota.RebootLoop

open Foundation Foundation.Script Foundation.Execution

/-! ## Boots with the init script -/

/-- `ota_queued` of `S18zlymeupdate`. -/
def otaQueued (storage : Storage) : Bool :=
  storage.pending.root.isSome || storage.want.isSome ||
    storage.tars.any fun tar => offered tar.name && tar.archive ≠ .empty

def s18Start : Program Unit := do
  let storage := (← Program.inspect).storage
  if !otaQueued storage then return ()
  if (← Program.inspect).storage.isQueued then Program.bootApply

def s18Boot : Program Unit := do
  Program.doRoot
  s18Start

/-- One boot. Where its choices end, power is lost. -/
def s18Step (world : World) (choices : List Choice) : World :=
  (s18Boot.exec machine choices world).2

/-- The states of one boot: those in which an operation is issued, and the last one. -/
def s18States (world : World) (choices : List Choice) : List World :=
  (s18Boot.issued machine choices world).map Prod.snd ++ [s18Step world choices]

/-- The states of a run of boots. -/
def s18StatesOf : World → List (List Choice) → List World
  | _, [] => []
  | world, choices :: boots =>
      s18States world choices ++ s18StatesOf (s18Step world choices) boots

def isReboot : Call → Bool
  | .reboot => true
  | _ => false

/-- The boot ends in the reboot of `boot-apply`. -/
def rebooted (world : World) (choices : List Choice) : Bool :=
  (s18Boot.issued machine choices world).any fun entry => isReboot entry.1

/-- Between two reboots the pending directory of the first is gone. -/
def RebootsOnce (world : World) (boots : List (List Choice)) : Prop :=
  ∀ before first middle second after, boots = before ++ first :: middle ++ second :: after →
    rebooted (run s18Step world before) first = true →
    rebooted (run s18Step world (before ++ first :: middle)) second = true →
    ∃ state ∈ s18StatesOf (run s18Step world (before ++ [first])) (middle ++ [second]),
      state.storage.pending.root = none

/-! ## The condition -/

/-- What the initramfs needs to commit a pending root does not fail, though power
may be lost in it. -/
def commitGoesThrough (call : Call) (choice : Choice) (_ : World) : Bool :=
  match call with
  | .check .storageMounted => choice.ok || choice.powerLost
  | .check .bootOpens => choice.ok || choice.powerLost
  | .copyBoot .root _ => choice.ok || choice.powerLost
  | .removePending .committed => choice.ok || choice.powerLost
  | _ => true

/-- The initramfs of a boot can commit. -/
def InitramfsCommits (world : World) (choices : List Choice) : Prop :=
  Program.doRoot.admits machine commitGoesThrough choices world = true

instance (world : World) (choices : List Choice) : Decidable (InitramfsCommits world choices) :=
  inferInstanceAs (Decidable (_ = true))

/-! ## The initramfs -/

section Initramfs

/-- The initramfs asks for no reboot. -/
def noReboot : Contract Call World where
  rely _ _ := True
  guard call _ := isReboot call = false
  stop _ := True
  exit _ _ := True

/-- The machine of a boot whose initramfs commits. -/
abbrev committing : Script.Machine Call Call.Result Choice World :=
  machine.restrict commitGoesThrough

variable {world : World}

/-- The rule of one operation: an answer comes from an admissible choice. -/
theorem ensures_issue {call : Call} {post : call.Result → World → Prop}
    (guarded : isReboot call = false)
    (answers : ∀ choice, commitGoesThrough call choice world = true → choice.powerLost = false →
      post (call.perform choice world).1 (call.perform choice world).2) :
    (Program.issue call).Ensures committing noReboot post world := by
  refine Ensures.issue trivial guarded fun _ choice => ?_
  unfold committing Script.Machine.restrict
  by_cases admitted : commitGoesThrough call choice world = true
  · rw [if_pos admitted]
    cases lost : choice.powerLost with
    | true =>
        right
        exact ⟨_, if_pos lost, trivial⟩
    | false =>
        left
        refine ⟨_, _, ?_, answers choice admitted lost⟩
        cases call <;> simp_all [machine, isReboot]
        all_goals rfl
  · rw [if_neg admitted]
    exact .inr ⟨world, rfl, trivial⟩

theorem ensures_check {what : Check} (post : Bool → World → Prop)
    (answers : ∀ ok, (what = .storageMounted ∨ what = .bootOpens → ok = true) → post ok world) :
    (Program.check what).Ensures committing noReboot post world := by
  refine ensures_issue rfl fun choice admitted lost => answers choice.ok fun needed => ?_
  rcases needed with rfl | rfl
  · simpa [commitGoesThrough, lost] using admitted
  · simpa [commitGoesThrough, lost] using admitted

theorem inspect_ensures :
    Program.inspect.Ensures committing noReboot (fun seen after => seen = world ∧ after = world)
      world :=
  ensures_issue rfl fun _ _ _ => ⟨rfl, rfl⟩

theorem copyRoot_ensures (content : Content) :
    (Program.copyBoot .root content).Ensures committing noReboot (fun copied _ => copied = true)
      world := by
  refine ensures_issue rfl fun choice admitted lost => ?_
  have copies : choice.ok = true := by simpa [commitGoesThrough, lost] using admitted
  simp [Call.perform, copies]

/-- `pending` has no root. -/
def Committed (world : World) : Prop :=
  world.storage.pending.root = none

theorem removePending_ensures :
    (Program.removePending .committed).Ensures committing noReboot (fun _ => Committed) world := by
  refine ensures_issue rfl fun choice admitted lost => ?_
  have removes : choice.ok = true := by simpa [commitGoesThrough, lost] using admitted
  simp [Committed, Call.perform, World.onStorage, removes, Staged.none]

theorem removeTars_ensures (committed : Committed world) (which : String → Bool) :
    (Program.removeTars which).Ensures committing noReboot (fun _ => Committed) world :=
  ensures_issue rfl fun _ _ _ => committed

theorem removeWant_ensures (committed : Committed world) :
    Program.removeWant.Ensures committing noReboot (fun _ => Committed) world :=
  ensures_issue rfl fun _ _ _ => committed

theorem commitUpdate_ensures (pending : world.storage.pending.root.isSome = true) :
    Program.commitUpdate.Ensures committing noReboot (fun _ => Committed) world := by
  refine inspect_ensures.bind fun seen after ⟨same, unchanged⟩ => ?_
  subst same unchanged
  split
  · rename_i noRoot
    rw [noRoot] at pending
    cases pending
  · rename_i content _
    refine (copyRoot_ensures content).bind fun copied after isCopied => ?_
    subst isCopied
    refine removePending_ensures.bind fun _ after committed => ?_
    refine (removeTars_ensures committed _).bind fun _ after committed => ?_
    refine (removeWant_ensures committed).bind fun _ after committed => ?_
    exact (removeTars_ensures committed _).bind fun _ after committed => committed

/-- The end of the initramfs. -/
theorem rootMounts_ensures (committed : Committed world) :
    (do if !(← Program.check .rootMounts) then Program.fail : Program Unit).Ensures committing
      noReboot (fun _ => Committed) world := by
  refine (ensures_check (fun _ => Committed) fun _ _ => committed).bind fun mounts after committed => ?_
  cases mounts with
  | false => trivial
  | true => exact committed

theorem doRoot_ensures (pending : world.storage.pending.root.isSome = true) :
    Program.doRoot.Ensures committing noReboot (fun _ => Committed) world := by
  refine (ensures_check (fun ok after => ok = true ∧ after = world)
    fun ok needed => ⟨needed (.inl rfl), rfl⟩).bind fun mounted after ⟨isMounted, same⟩ => ?_
  rw [isMounted, same]
  refine inspect_ensures.bind fun seen after ⟨isSeen, same⟩ => ?_
  rw [isSeen, same, pending]
  refine (ensures_check (fun ok after => ok = true ∧ after = world)
    fun ok needed => ⟨needed (.inr rfl), rfl⟩).bind fun opens after ⟨isOpen, same⟩ => ?_
  rw [isOpen, same]
  refine (commitUpdate_ensures pending).bind fun _ after committed => ?_
  refine (ensures_check (fun _ => Committed) fun _ _ => committed).bind fun closes after committed => ?_
  cases closes with
  | false => trivial
  | true => exact rootMounts_ensures committed

end Initramfs

/-! ## Runs of boots -/

variable {world : World} {choices : List Choice}

/-- A boot that finds a pending root and can commit it reboots, if it does, with
that root gone. -/
theorem committed_of_rebooted (pending : world.storage.pending.root.isSome = true)
    (commits : InitramfsCommits world choices) (reboots : rebooted world choices = true) :
    ∃ state ∈ s18States world choices, Committed state := by
  have ensured := (doRoot_ensures pending).exec choices fun _ _ => trivial
  rcases List.any_eq_true.mp reboots with ⟨entry, member, isReboot⟩
  rw [s18Boot, issued_bind] at member
  rcases List.mem_append.mp member with early | late
  · rw [← issued_restrict commits] at early
    rw [ensured.1 entry early] at isReboot
    cases isReboot
  · rcases finishes : Program.doRoot.finish machine choices world with _ | ⟨value, left, after⟩
    · rw [finishes] at late
      cases late
    · rw [finishes] at late
      rw [← finish_restrict commits] at finishes
      have committed := ensured.2
      rw [exec_of_finish finishes] at committed
      refine ⟨after, ?_, committed⟩
      rw [s18States, s18Boot, issued_bind, ← finish_restrict commits, finishes, List.map_append]
      exact List.mem_append_left _ (List.mem_append_right _ (mem_issued_start late))

/-- The states of the first boots are among those of the run. -/
theorem mem_s18StatesOf_append {front back : List (List Choice)} {state : World} :
    state ∈ s18StatesOf world (front ++ back) ↔
      state ∈ s18StatesOf world front ∨ state ∈ s18StatesOf (run s18Step world front) back := by
  induction front generalizing world with
  | nil => simp [s18StatesOf]
  | cons choices rest induction => simp [s18StatesOf, induction, or_assoc]

theorem start_mem_s18States (world : World) (choices : List Choice) :
    world ∈ s18States world choices := by
  cases choices with
  | nil => exact List.mem_singleton_self world
  | cons choice choices =>
      apply List.mem_append_left
      exact mem_issued_start (call_mem_issued (Call.check .storageMounted) _ choice choices world)

/-- In every run whose initramfs can commit, `boot-apply` reboots at most once for
a pending directory. -/
theorem reboots_once (world : World) (boots : List (List Choice))
    (commits : Along s18Step InitramfsCommits world boots) : RebootsOnce world boots := by
  rintro before first middle second after rfl _ reboots
  have last : run s18Step (run s18Step world (before ++ [first])) middle =
      run s18Step world (before ++ first :: middle) := by
    rw [← run_append, List.append_assoc]
    rfl
  have canCommit := (along_append.mp commits).2.1
  have states : ∀ state ∈ s18States (run s18Step world (before ++ first :: middle)) second,
      state ∈ s18StatesOf (run s18Step world (before ++ [first])) (middle ++ [second]) := by
    intro state member
    rw [mem_s18StatesOf_append, last]
    exact .inr (List.mem_append_left _ member)
  cases pending : (run s18Step world (before ++ first :: middle)).storage.pending.root with
  | none => exact ⟨_, states _ (start_mem_s18States _ second), pending⟩
  | some content =>
      rcases committed_of_rebooted (by rw [pending]; rfl) canCommit reboots with
        ⟨state, member, committed⟩
      exact ⟨state, states state member, committed⟩

/-! ## Sample runs -/

/-- The answer of an operation that goes through. -/
def goesThrough : Choice where
  ok := true
  powerLost := false
  left := none
  extracted := .none
  sparesRoot := false
  sparesOthers := false
  sparesTar _ := false

/-- The queued release waits as a tar beside an installed one. -/
def queuedWorld : World where
  boot := ⟨.whole .installed, .whole .installed, .whole .installed⟩
  storage :=
    { pending := .none, incoming := .none, tars := [⟨queuedName, 1, .full⟩], failed := []
      want := none, failKind := none }

def goodBoot : List Choice :=
  List.replicate 64 goesThrough

/-- The third operation opens the boot volume. -/
def unopenedBoot : List Choice :=
  goesThrough :: goesThrough :: { goesThrough with ok := false } :: goodBoot

theorem goodBoots_reboot_once : RebootsOnce queuedWorld [goodBoot, goodBoot] :=
  reboots_once queuedWorld [goodBoot, goodBoot] (by decide)

/-- The initramfs cannot open the boot volume, and `boot-apply` installs the pending
kernel and reboots once more. -/
theorem unopenedBoot_reboots_again : ¬RebootsOnce queuedWorld [goodBoot, unopenedBoot] := by
  intro once
  have stays : ∀ state ∈ s18StatesOf (run s18Step queuedWorld ([] ++ [goodBoot]))
      ([] ++ [unopenedBoot]), state.storage.pending.root ≠ none := by decide
  rcases once [] goodBoot [] unopenedBoot [] rfl (by decide) (by decide) with
    ⟨state, member, gone⟩
  exact stays state member gone

end Zlyme.Ota.RebootLoop
