import Zlyme.Keylidmon.LidPolicy

/-! # Safety of the lid policy

What holds of every run of calls into the policy. The history of a run is read
off its calls and the requests they make, never off the flags of the policy.
-/

namespace Zlyme.Keylidmon

open Foundation.Execution

/-! ## The history of a run -/

/-- A requested suspend has not been reported done. -/
def SuspendInProgress (calls : List LidCall) : Prop :=
  ∃ before request after, calls = before ++ request :: after ∧
    request.requests (run step .initial before) = true ∧
    ∀ call ∈ after, call.endsSuspend = false

/-- The menu took the screen and no pak has been reported since. -/
def MenuOwns (calls : List LidCall) : Prop :=
  ∃ before menu after, calls = before ++ menu :: after ∧ menu.isMenu = true ∧
    ∀ call ∈ after, call.isPak = false

def FrontendSeen (calls : List LidCall) : Prop :=
  ∃ call ∈ calls, call.isMenu = true

/-! ## Flags and history -/

theorem requests_eq {policy : LidPolicy} {call : LidCall} (wanted : call.requests policy = true) :
    ∃ event guard, call = .apply event guard ∧ (policy.react event guard).2 = true := by
  cases call with
  | apply event guard =>
      exact ⟨event, guard, rfl, by rwa [LidCall.requests, LidPolicy.lidApply_snd] at wanted⟩
  | observe closed => cases wanted
  | suspendDone ok => cases wanted

theorem step_busy_of_requests {policy : LidPolicy} {call : LidCall}
    (wanted : call.requests policy = true) : (step policy call).busy = true := by
  rcases requests_eq wanted with ⟨event, guard, rfl, _⟩
  rw [step, LidPolicy.lidApply_busy, show (policy.lidApply event guard).2 = true from wanted,
    Bool.or_true]

/-- Only the end of a suspend clears the busy flag. -/
theorem step_keeps_busy {policy : LidPolicy} {call : LidCall} (runs : call.endsSuspend = false)
    (busy : policy.busy = true) : (step policy call).busy = true := by
  cases call with
  | apply event guard => rw [step, LidPolicy.lidApply_busy, busy, Bool.true_or]
  | observe closed =>
      rw [step, LidPolicy.lidObserve]
      split
      · exact busy
      · split
        · rw [LidPolicy.lidApply_busy, busy, Bool.true_or]
        · exact busy
  | suspendDone ok => cases runs

theorem SuspendInProgress.busy {calls : List LidCall} (inProgress : SuspendInProgress calls) :
    (run step .initial calls).busy = true := by
  rcases inProgress with ⟨before, request, after, rfl, wanted, noEnd⟩
  rw [run_append, run_cons]
  apply run_invariant_of_mem (fun policy : LidPolicy => policy.busy = true)
  · intro policy call member busy
    exact step_keeps_busy (noEnd call member) busy
  · exact step_busy_of_requests wanted

theorem step_menuOwns_of_isMenu {policy : LidPolicy} {call : LidCall}
    (isMenu : call.isMenu = true) : (step policy call).menuOwns = true := by
  cases call with
  | apply event guard =>
      cases event <;> first | rfl | cases isMenu
  | observe closed => cases isMenu
  | suspendDone ok => cases isMenu

/-- Only a reported pak takes the screen from the menu. -/
theorem step_keeps_menuOwns {policy : LidPolicy} {call : LidCall} (notPak : call.isPak = false)
    (owns : policy.menuOwns = true) : (step policy call).menuOwns = true := by
  cases call with
  | apply event guard =>
      rw [step, LidPolicy.lidApply_flags.1]
      cases event <;> first | exact owns | rfl | cases notPak
  | observe closed =>
      rw [step, LidPolicy.lidObserve]
      split
      · exact owns
      · split
        · exact LidPolicy.lidApply_flags.1.trans owns
        · exact owns
  | suspendDone ok => exact owns

theorem MenuOwns.menuOwns {calls : List LidCall} (owns : MenuOwns calls) :
    (run step .initial calls).menuOwns = true := by
  rcases owns with ⟨before, menu, after, rfl, isMenu, noPak⟩
  rw [run_append, run_cons]
  apply run_invariant_of_mem (fun policy : LidPolicy => policy.menuOwns = true)
  · intro policy call member owns
    exact step_keeps_menuOwns (noPak call member) owns
  · exact step_menuOwns_of_isMenu isMenu

/-- A frontend counts as seen, and a pak as running, only after a menu call. -/
structure Unseen (policy : LidPolicy) : Prop where
  menuSeen : policy.menuSeen = false
  inPak : policy.inPak = false

theorem Unseen.step {policy : LidPolicy} {call : LidCall} (notMenu : call.isMenu = false)
    (unseen : Unseen policy) : Unseen (step policy call) := by
  rcases unseen with ⟨menuSeen, inPak⟩
  cases call with
  | apply event guard =>
      constructor
      · rw [Keylidmon.step, LidPolicy.lidApply_flags.2.1]
        cases event <;> simp_all [LidPolicy.react, LidCall.isMenu]
      · rw [Keylidmon.step, LidPolicy.lidApply_flags.2.2.1]
        cases event <;> simp_all [LidPolicy.react, LidCall.isMenu]
  | observe closed =>
      rw [Keylidmon.step, LidPolicy.lidObserve]
      split
      · exact ⟨menuSeen, inPak⟩
      · split
        · exact ⟨LidPolicy.lidApply_flags.2.1.trans menuSeen,
            LidPolicy.lidApply_flags.2.2.1.trans inPak⟩
        · exact ⟨menuSeen, inPak⟩
  | suspendDone ok => exact ⟨menuSeen, inPak⟩

theorem unseen_of_not_frontendSeen {calls : List LidCall} (notSeen : ¬FrontendSeen calls) :
    Unseen (run step .initial calls) := by
  apply run_invariant_of_mem Unseen
  · intro policy call member unseen
    apply unseen.step
    exact Bool.eq_false_iff.mpr fun isMenu => notSeen ⟨call, member, isMenu⟩
  · exact ⟨rfl, rfl⟩

/-! ## Closed periods -/

/-- The request of this closed period is spent: a suspend runs or has run in it. -/
structure Spent (policy : LidPolicy) : Prop where
  lidClosed : policy.lidClosed = true
  suspended : policy.busy = true ∨ policy.asleep = true

/-- Nothing but an open brings the request of the period back. -/
theorem Spent.step {policy : LidPolicy} {call : LidCall} (notOpen : call.opens = false)
    (spent : Spent policy) : Spent (step policy call) := by
  rcases spent with ⟨lidClosed, suspended⟩
  cases call with
  | apply event guard =>
      have isOther : event ≠ .open := by rintro rfl; cases notOpen
      constructor
      · exact LidPolicy.lidApply_flags.2.2.2.1.trans (LidPolicy.react_lidClosed isOther lidClosed)
      · rcases suspended with busy | asleep
        · exact .inl (step_keeps_busy rfl busy)
        · right
          exact LidPolicy.lidApply_flags.2.2.2.2.trans (LidPolicy.react_asleep isOther asleep)
  | observe closed =>
      have notZero : closed ≠ 0 := by simpa [LidCall.opens] using notOpen
      rw [Keylidmon.step, LidPolicy.lidObserve, if_neg notZero]
      split
      · exact ⟨lidClosed, suspended⟩
      · exact ⟨rfl, suspended⟩
  | suspendDone ok =>
      exact ⟨lidClosed, .inr (by simp [Keylidmon.step, LidPolicy.lidSuspendDone, lidClosed])⟩

theorem Spent.requests {policy : LidPolicy} {call : LidCall} (spent : Spent policy)
    (notPower : call.isPower = false) : call.requests policy = false := by
  refine Bool.eq_false_iff.mpr fun wanted => ?_
  rcases requests_eq wanted with ⟨event, guard, rfl, reacted⟩
  have cases := LidPolicy.wanted_cases reacted
  have isLid : event ≠ .power := by rintro rfl; cases notPower
  rcases spent.suspended with busy | asleep
  · exact absurd busy (by rw [cases.1]; decide)
  · exact absurd asleep (by rw [(cases.2.2.2.2 isLid).1]; decide)

theorem spent_of_requests {policy : LidPolicy} {call : LidCall}
    (wanted : call.requests policy = true) (notPower : call.isPower = false) :
    Spent (step policy call) := by
  have busy := step_busy_of_requests wanted
  rcases requests_eq wanted with ⟨event, guard, rfl, reacted⟩
  have isLid : event ≠ .power := by rintro rfl; cases notPower
  have cases := (LidPolicy.wanted_cases reacted).2.2.2.2 isLid
  exact ⟨LidPolicy.lidApply_flags.2.2.2.1.trans cases.2.2.1, .inl busy⟩

theorem lidRequestsIn_of_spent {policy : LidPolicy} {period : List LidCall}
    (noOpen : ∀ call ∈ period, call.opens = false) (spent : Spent policy) :
    lidRequestsIn policy period = 0 := by
  induction period generalizing policy with
  | nil => rfl
  | cons call rest induction =>
      rcases List.forall_mem_cons.mp noOpen with ⟨notOpen, noOpen⟩
      rw [lidRequestsIn, induction noOpen (spent.step notOpen)]
      cases power : call.isPower with
      | true => simp
      | false => simp [spent.requests power]

theorem lidRequestsIn_le_one {policy : LidPolicy} {period : List LidCall}
    (noOpen : ∀ call ∈ period, call.opens = false) : lidRequestsIn policy period ≤ 1 := by
  induction period generalizing policy with
  | nil => exact Nat.zero_le 1
  | cons call rest induction =>
      rcases List.forall_mem_cons.mp noOpen with ⟨notOpen, noOpen⟩
      rw [lidRequestsIn]
      by_cases lidCaused : (call.requests policy && !call.isPower) = true
      · have parts := Bool.and_eq_true_iff.mp lidCaused
        have spent := spent_of_requests parts.1 ((Bool.not_eq_true' _).mp parts.2)
        have none := lidRequestsIn_of_spent noOpen spent
        rw [if_pos lidCaused]
        omega
      · rw [if_neg lidCaused, Nat.zero_add]
        exact induction noOpen

/-! ## Safety -/

/-- However the calls are ordered, a period without an open gets one lid request
at most, and a request finds no suspend in progress and no menu owning the
screen. A lid request comes after a menu has been seen. -/
theorem lid_requests_safe (before : List LidCall) :
    (∀ period : List LidCall, (∀ call ∈ period, call.opens = false) →
      lidRequestsIn (run step .initial before) period ≤ 1) ∧
    ∀ call : LidCall, call.requests (run step .initial before) = true →
      ¬SuspendInProgress before ∧ ¬MenuOwns (before ++ [call]) ∧
        (call.isPower = false → FrontendSeen before) := by
  refine ⟨fun period => lidRequestsIn_le_one, fun call requests => ?_⟩
  rcases requests_eq requests with ⟨event, guard, rfl, wanted⟩
  rcases LidPolicy.wanted_cases wanted with ⟨notBusy, _, notMenuEvent, notMenu, lidCaused⟩
  refine ⟨?_, ?_, ?_⟩
  · intro inProgress
    exact absurd inProgress.busy (by rw [notBusy]; decide)
  · intro owns
    have owned := owns.menuOwns
    rw [run_append, run_cons, run_nil, step, LidPolicy.lidApply_flags.1, notMenu] at owned
    cases owned
  · intro notPower
    have isLid : event ≠ .power := by rintro rfl; cases notPower
    have notMenu : (LidCall.apply event guard).isMenu = false := by
      cases event <;> first | rfl | exact absurd rfl notMenuEvent
    refine Classical.byContradiction fun notSeen => ?_
    have unseen := (unseen_of_not_frontendSeen notSeen).step notMenu
    have inPak := LidPolicy.lidApply_flags.2.2.1.trans (lidCaused isLid).2.2.2
    exact absurd unseen.inPak (by rw [step, inPak]; decide)

/-- The power key asks for a suspend before any frontend has been seen. -/
theorem power_requests_unseen :
    LidCall.requests (run step .initial []) (.apply .power false) = true ∧ ¬FrontendSeen [] :=
  ⟨rfl, fun ⟨_, member, _⟩ => nomatch member⟩

end Zlyme.Keylidmon
