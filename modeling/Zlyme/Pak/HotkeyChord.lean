import Zlyme.Pak.HotkeyOrder

/-! # The exit chord

When the hotkey fires: on both buttons of one pad, and always on these.
-/

namespace Zlyme.Pak

open Foundation.Execution

namespace State

/-! ## The end of the program -/

/-- The program comes to its end by itself. -/
def Stops (s : State) : Prop :=
  ∃ count, (run step s (List.replicate count .advance)).phase = .stopped

theorem Stops.of_advance {s : State} (stops : s.advance.Stops) : s.Stops := by
  rcases stops with ⟨count, isStopped⟩
  exact ⟨count + 1, isStopped⟩

section Stops

variable {todo : List Revent} (later : ∀ s : State, s.phase = .batch todo → s.fire = true → s.Stops)
include later

theorem stops_leaving {s : State} {fd : Nat} {hangup : Bool} (isPhase : s.phase = .leaving fd hangup todo)
    (fires : s.fire = true) : s.Stops := by
  apply Stops.of_advance
  rw [advance, isPhase]
  dsimp only
  split
  · apply later _ rfl
    rw [dropFd]
    split
    · exact fires
    · exact fires
  · exact later _ rfl fires

/-- The events that have not been read become fewer. -/
theorem stops_reading_within (left : Nat) {s : State} {fd : Nat} {hangup : Bool}
    (isPhase : s.phase = .reading fd hangup todo) (fires : s.fire = true)
    (unread : ∀ file, s.files fd = some file → ∀ device, s.devices[file.device]? = some device →
      device.history.length ≤ file.read + left) : s.Stops := by
  induction left generalizing s with
  | zero =>
      apply Stops.of_advance
      rw [advance, isPhase]
      dsimp only
      split
      · exact stops_leaving later rfl fires
      · rename_i event next
        rcases nextEvent_eq_some next with ⟨file, device, isFile, isDevice, _, isNext⟩
        have inside := (List.getElem?_eq_some_iff.mp isNext).1
        have atEnd := unread file isFile device isDevice
        omega
  | succ left induction =>
      apply Stops.of_advance
      rw [advance, isPhase]
      dsimp only
      split
      · exact stops_leaving later rfl fires
      · rename_i event next
        rcases nextEvent_eq_some next with ⟨file, device, isFile, isDevice, _, _⟩
        have stillFires : (s.readOne fd event).fire = true := by
          rw [readOne, fires]
          rfl
        split
        · exact stops_leaving later rfl stillFires
        · refine induction isPhase stillFires ?_
          intro after isAfter other isOther
          simp only [readOne, setFile, if_true, isFile, Option.map_some, Option.some_inj] at isAfter
          subst isAfter
          have bound := unread file isFile other isOther
          dsimp only
          omega

theorem stops_reading {s : State} {fd : Nat} {hangup : Bool} (isPhase : s.phase = .reading fd hangup todo)
    (fires : s.fire = true) : s.Stops := by
  cases isFile : s.files fd with
  | none =>
      refine stops_reading_within later 0 isPhase fires ?_
      intro file isSome
      rw [isFile] at isSome
      cases isSome
  | some file =>
      refine stops_reading_within later ((s.devices[file.device]?.map fun device =>
        device.history.length).getD 0) isPhase fires ?_
      intro other isOther device isDevice
      rw [isFile] at isOther
      cases isOther
      rw [isDevice]
      exact Nat.le_add_left _ _

end Stops

theorem stops_batch (todo : List Revent) (padsOnly : PadsOnly todo) :
    ∀ s : State, s.phase = .batch todo → s.fire = true → s.Stops := by
  induction todo with
  | nil =>
      intro s isPhase fires
      refine ⟨1, ?_⟩
      show s.advance.phase = .stopped
      rw [advance, isPhase]
      simp only [loopTop, fires, Bool.true_or, if_true]
  | cons revent todo induction =>
      intro s isPhase fires
      have later := induction fun other member => padsOnly other (List.mem_cons_of_mem _ member)
      apply Stops.of_advance
      rw [advance, isPhase]
      dsimp only
      rw [nextRevent]
      split
      · rename_i isWatch
        exact absurd isWatch (padsOnly revent List.mem_cons_self)
      · rename_i fd _
        split
        · split
          · exact stops_reading later rfl fires
          · exact stops_leaving later rfl fires
        · exact later _ rfl fires

theorem stops_of_fire {s : State} (inOrder : s.InOrder) (fires : s.fire = true) : s.Stops := by
  rw [InOrder] at inOrder
  have fired : s.fire ≠ false := by
    rw [fires]
    decide
  cases isPhase : s.phase with
  | opening resume =>
      rw [isPhase] at inOrder
      cases resume with
      | watch => exact absurd inOrder.1 fired
      | batch todo => exact absurd inOrder.2.2 fired
  | scanning resume may must =>
      rw [isPhase] at inOrder
      cases resume with
      | watch => exact absurd inOrder.1 fired
      | batch todo => exact absurd inOrder.2.2 fired
  | watching =>
      rw [isPhase] at inOrder
      exact absurd inOrder.1 fired
  | polling results =>
      rw [isPhase] at inOrder
      exact absurd inOrder.2.2 fired
  | batch todo =>
      rw [isPhase] at inOrder
      exact stops_batch todo (inOrder.2.2 fires) s isPhase fires
  | reading fd hangup todo =>
      rw [isPhase] at inOrder
      exact stops_reading (stops_batch todo inOrder.2) isPhase fires
  | leaving fd hangup todo =>
      rw [isPhase] at inOrder
      exact stops_leaving (stops_batch todo inOrder.2) isPhase fires
  | stopped => exact ⟨0, isPhase⟩

/-! ## The chord -/

/-- `poll` has nothing to report. -/
def Blocked (s : State) : Prop :=
  (∃ results, s.phase = .polling results) ∧
    ∀ source ∈ s.sources, (s.lookAt source).input = false ∧ (s.lookAt source).hangup = false

/-- What is said of a state and of a step from it. -/
structure OwnChord (s : State) (label : Label) : Prop where
  /-- The flags of each pad are what its own events since the opening leave. -/
  held : ∀ pad ∈ s.pads, ∃ file device, s.Reads pad file device ∧
    pad.held = heldAfter (file.seen device file.read)
  /-- A step fires on the event of one pad after which that pad holds both buttons. -/
  only : s.fire = false → (step s label).fire = true → ∃ pad ∈ s.pads, ∃ file device,
    s.Reads pad file device ∧ (step s label).files pad.fd = some { file with read := file.read + 1 } ∧
      (heldAfter (device.history.take (file.read + 1))).both = true
  /-- Without a fire no pad has held both at any event that was read of it. -/
  whenever : s.fire = false → ∀ pad ∈ s.pads, ∀ file device, s.Reads pad file device →
    ∀ upTo ≤ file.read, (heldAfter (file.seen device upTo)).both = false
  /-- In `poll` there is no fire, and when it blocks no pad has held both at all. -/
  polls : ∀ results, s.phase = .polling results → s.fire = false
  blocked : s.Blocked → ∀ pad ∈ s.pads, ∀ file device, s.Reads pad file device →
    ∀ upTo ≤ device.history.length, (heldAfter (file.seen device upTo)).both = false
  /-- A fire lasts, and the program stops the pak. -/
  stops : s.fire = true → (step s label).fire = true ∧ s.Stops

theorem Reads.unique {s : State} {pad : AppPad} {file other : OpenFile} {device otherDevice : Device}
    (reads : s.Reads pad file device) (otherReads : s.Reads pad other otherDevice) :
    other = file ∧ otherDevice = device := by
  have sameFile : other = file := Option.some.inj (otherReads.isFile.symm.trans reads.isFile)
  subst sameFile
  exact ⟨rfl, Option.some.inj (otherReads.isDevice.symm.trans reads.isDevice)⟩

/-- The steps that keep the fire as it is, and the one that reads an event. -/
theorem step_fire (s : State) (label : Label) : (step s label).fire = s.fire ∨
    ∃ fd event, s.nextEvent fd = some event ∧ (step s label).files = (s.readOne fd event).files ∧
      (step s label).fire = (s.fire || s.chord fd event) := by
  by_cases outside : isOutside label = true
  · exact .inl (outside_step s outside).fire
  · cases label with
    | opendir ok =>
        left
        rw [step]
        split
        · rfl
        · rfl
    | entry node opened =>
        left
        rw [step]
        split
        · split
          · rw [State.scanEntry.eq_def]
            dsimp only
            split
            · rfl
            · split
              · rfl
              · split
                · rfl
                · split
                  · rfl
                  · exact (addPad_fire s _ _).1
          · rfl
        · rfl
    | endOfDir =>
        left
        rw [step]
        split
        · rfl
        · rfl
    | addWatch ok =>
        left
        rw [step]
        split
        · split
          · rfl
          · rfl
        · rfl
    | interrupt =>
        left
        rw [step]
        split
        · rfl
        · rfl
    | advance =>
        rw [step, advance]
        split
        · left
          rw [check]
          split
          · rfl
          · split
            · rfl
            · rfl
        · exact .inl rfl
        · left
          rw [nextRevent]
          split
          · split
            · rfl
            · rfl
          · split
            · rfl
            · rfl
        · split
          · exact .inl rfl
          · rename_i event next
            right
            refine ⟨_, event, next, ?_⟩
            split
            · exact ⟨rfl, rfl⟩
            · exact ⟨rfl, rfl⟩
        · left
          split
          · rw [dropFd]
            split
            · rfl
            · rfl
          · rfl
        · exact .inl rfl
    | _ => exact absurd rfl outside

end State

end Zlyme.Pak
