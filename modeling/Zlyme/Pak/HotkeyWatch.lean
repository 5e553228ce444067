import Zlyme.Pak.HotkeyOrder

/-! # Pads that are watched

Which virtual pads are in the table while the program waits in `poll`. A scan passes
over a node whose name is still in the table from a device that is gone.
-/

namespace Zlyme.Pak

open Foundation.Execution
open Foundation.KeyedRows

namespace State

/-- A virtual pad with a node in the folder. -/
structure Present (s : State) (id : Nat) (device : Device) : Prop where
  isDevice : s.devices[id]? = some device
  live : device.status = .live
  virtpad : device.virtpad = true

/-- The table has a descriptor of the device. -/
def Open (s : State) (id : Nat) : Prop :=
  ∃ pad ∈ s.pads, ∃ file, s.files pad.fd = some file ∧ file.device = id

/-- Every present pad whose creation has been read is open. -/
def AllOpen (s : State) : Prop :=
  ∀ id ∈ s.told, ∀ device, s.Present id device → s.Open id

/-- No pad is left out while the program waits. -/
def Monitored (s : State) : Prop :=
  ∀ results, s.phase = .polling results → s.AllOpen

/-- The step of a scan passes over a device: its node has the name of an entry that
stands for another device, the table is full, or it cannot be opened. -/
def PassesBy (s : State) (device : Device) : Label → Prop
  | .opendir ok => ok = false ∧ ∃ resume, s.phase = .opening resume
  | .entry node opened =>
      (∃ resume may must, s.phase = .scanning resume may must ∧ node ∈ may) ∧
        if s.padFind node then device.node = node
        else maxPads ≤ s.pads.length ∨ (device.node = node ∧ opened = none)
  | _ => False

/-- A present pad whose creation has been read, and which is not open, is passed
over. -/
def Loses (s : State) (label : Label) : Prop :=
  ∃ id ∈ s.told, ∃ device, s.Present id device ∧ ¬s.Open id ∧ s.PassesBy device label

/-! ## What keeps a pad open -/

theorem Open.of_same {s t : State} {id : Nat} (isOpen : s.Open id) (files : t.files = s.files)
    (pads : t.pads = s.pads) : t.Open id := by
  rw [Open, files, pads]
  exact isOpen

theorem AllOpen.of_same {s t : State} (allOpen : s.AllOpen) (files : t.files = s.files)
    (devices : t.devices = s.devices) (pads : t.pads = s.pads) (told : t.told = s.told) : t.AllOpen := by
  intro id isTold device present
  rw [told] at isTold
  have before : s.Present id device := ⟨devices ▸ present.isDevice, present.live, present.virtpad⟩
  exact (allOpen id isTold device before).of_same files pads

theorem Open.addPad {s : State} (sound : s.Sound) {id : Nat} (isOpen : s.Open id) (node : Nat) {fd : Nat}
    (unused : (s.files fd).isSome = false) : (s.addPad node fd).Open id := by
  rcases isOpen with ⟨pad, member, file, isFile, isDevice⟩
  rw [State.addPad]
  split
  · exact ⟨pad, member, file, isFile, isDevice⟩
  · split
    · exact ⟨pad, member, file, isFile, isDevice⟩
    · split
      · refine ⟨pad, List.mem_append_left _ member, file, ?_, isDevice⟩
        dsimp only
        rw [setFile_of_ne (sound.fresh unused pad member)]
        exact isFile
      · exact ⟨pad, member, file, isFile, isDevice⟩

theorem Open.readOne {s : State} {id : Nat} (isOpen : s.Open id) {fd : Nat} (event : InputEvent)
    (present : ∃ pad ∈ s.pads, pad.fd = fd) : (s.readOne fd event).Open id := by
  rcases padIndex_spec present with ⟨inside, _⟩
  have sameFds : (s.readOne fd event).pads.map AppPad.fd = s.pads.map AppPad.fd :=
    map_key_modify inside rfl
  rcases isOpen with ⟨pad, member, file, isFile, isDevice⟩
  have isPad : pad.fd ∈ (s.readOne fd event).pads.map AppPad.fd := by
    rw [sameFds]
    exact List.mem_map_of_mem member
  rcases List.mem_map.mp isPad with ⟨after, isAfter, sameFd⟩
  by_cases same : pad.fd = fd
  · refine ⟨after, isAfter, { file with read := file.read + 1 }, ?_, isDevice⟩
    rw [sameFd, same]
    rw [same] at isFile
    simp only [State.readOne, setFile, if_true, isFile, Option.map_some]
  · refine ⟨after, isAfter, file, ?_, isDevice⟩
    rw [sameFd]
    simp only [State.readOne]
    rw [setFile_of_ne same]
    exact isFile

/-- Closing a descriptor of a device that is gone leaves the others open. -/
theorem Open.dropFd {s : State} (sound : s.Sound) {id : Nat} {device : Device} (isOpen : s.Open id)
    (present : s.Present id device) {fd : Nat} (gone : s.Gone fd) : (s.dropFd fd).Open id := by
  rcases isOpen with ⟨pad, member, file, isFile, rfl⟩
  have differs : pad.fd ≠ fd := by
    rintro rfl
    rcases gone file isFile with ⟨other, isOther, isGone⟩
    have same : device = other := Option.some.inj (present.isDevice.symm.trans isOther)
    rw [← same, present.live] at isGone
    cases isGone
  rw [State.dropFd]
  split
  · rename_i isPad
    rcases padIndex_spec (any_fd_iff.mp isPad) with ⟨inside, isFd⟩
    refine ⟨pad, (mem_swapRemove sound.distinct inside).mpr ⟨member, ?_⟩, file, ?_, rfl⟩
    · rw [isFd]
      exact differs
    · dsimp only
      rw [setFile_of_ne differs]
      exact isFile
  · exact ⟨pad, member, file, isFile, rfl⟩

/-! ## The invariant -/

/-- What is still to come of a scan. -/
def Coming (s : State) : Prop :=
  match s.phase with
  | .opening _ => True
  | .scanning _ _ must =>
      ∀ id ∈ s.told, ∀ device, s.Present id device → s.Open id ∨ device.node ∈ must
  | .stopped => True
  | _ => s.AllOpen

/-- No two nodes of one name. -/
def Named (s : State) : Prop :=
  ∀ (id other : Nat) (device otherDevice : Device), s.devices[id]? = some device →
    s.devices[other]? = some otherDevice → device.status ≠ .gone → otherDevice.status ≠ .gone →
      device.node = otherDevice.node → id = other

structure Watching (s : State) : Prop where
  names : s.Named
  told : ∀ id ∈ s.told, id < s.devices.length
  pending : ∀ id, some id ∈ s.pending → id < s.devices.length
  coming : s.Coming

theorem watching_initial : initial.Watching :=
  ⟨nofun, nofun, nofun, trivial⟩

/-- What is present later was present before, if it is one of the devices that were
there. -/
theorem Present.before {s t : State} (outside : s.Outside t) {id : Nat} {later : Device}
    (present : t.Present id later) (inside : id < s.devices.length) :
    ∃ device, s.Present id device ∧ later.node = device.node := by
  rcases outside.grows id _ (List.getElem?_eq_getElem inside) with ⟨same, isSame, grown⟩
  cases Option.some.inj (isSame.symm.trans present.isDevice)
  exact ⟨_, ⟨List.getElem?_eq_getElem inside, grown.live present.live,
    grown.virtpad ▸ present.virtpad⟩, grown.node⟩

theorem AllOpen.outside {s t : State} (allOpen : s.AllOpen) (outside : s.Outside t)
    (told : ∀ id ∈ s.told, id < s.devices.length) : t.AllOpen := by
  intro id isTold later present
  rw [outside.told] at isTold
  rcases present.before outside (told id isTold) with ⟨device, before, _⟩
  exact (allOpen id isTold device before).of_same outside.files outside.pads

/-- The kernel's steps keep the names that a scan has to give, as far as these are
still there. -/
theorem must_outside {s : State} (watching : s.Watching) {label : Label}
    (outside : isOutside label = true) {resume : Resume} {may must : List Nat}
    (isPhase : s.phase = .scanning resume may must) :
    ∃ laterMay laterMust, (step s label).phase = .scanning resume laterMay laterMust ∧
      ∀ id later, (step s label).Present id later → later.node ∈ must → later.node ∈ laterMust := by
  cases label with
  | create node virtpad =>
      rw [step, create]
      split
      · exact ⟨may, must, isPhase, fun _ _ _ => id⟩
      · exact ⟨node :: may, must, by rw [isPhase]; rfl, fun _ _ _ => id⟩
  | unlink id =>
      rw [step, unlink]
      split
      · rename_i device isDevice
        split
        · rename_i isLive
          refine ⟨may, must.filter (· ≠ device.node), by rw [isPhase]; rfl, ?_⟩
          intro other later present inMust
          rw [List.mem_filter, decide_eq_true_eq]
          refine ⟨inMust, fun sameNode => ?_⟩
          have isLater := present.isDevice
          dsimp only [change] at isLater
          rw [List.getElem?_set] at isLater
          split at isLater
          · split at isLater
            · have live := present.live
              rw [← Option.some.inj isLater] at live
              cases live
            · cases isLater
          · rename_i differs
            refine differs (watching.names id other device later isDevice isLater ?_ ?_ sameNode.symm)
            · rw [isLive]
              decide
            · rw [present.live]
              decide
        · exact ⟨may, must, isPhase, fun _ _ _ inMust => inMust⟩
      · exact ⟨may, must, isPhase, fun _ _ _ inMust => inMust⟩
  | hangup id =>
      refine ⟨may, must, ?_, fun _ _ _ inMust => inMust⟩
      rw [step, hangup]
      split
      · split
        · exact isPhase
        · exact isPhase
      · exact isPhase
  | emit id event =>
      refine ⟨may, must, ?_, fun _ _ _ inMust => inMust⟩
      rw [step, emit]
      split
      · split
        · exact isPhase
        · exact isPhase
      · exact isPhase
  | note => exact ⟨may, must, isPhase, fun _ _ _ => id⟩
  | _ => cases outside

theorem Named.grown {s t : State} (named : s.Named) (outside : s.Outside t)
    (same : t.devices.length = s.devices.length) : t.Named := by
  have before : ∀ (id : Nat) (later : Device), t.devices[id]? = some later → later.status ≠ .gone →
      ∃ device, s.devices[id]? = some device ∧ device.status ≠ .gone ∧ device.node = later.node := by
    intro id later isLater notGone
    have inside : id < s.devices.length := same ▸ (List.getElem?_eq_some_iff.mp isLater).1
    rcases outside.grows id _ (List.getElem?_eq_getElem inside) with ⟨other, isOther, grown⟩
    cases Option.some.inj (isOther.symm.trans isLater)
    exact ⟨_, List.getElem?_eq_getElem inside, fun gone => notGone (grown.gone gone), grown.node.symm⟩
  intro id other later otherLater isLater isOtherLater present otherPresent sameNode
  rcases before id later isLater present with ⟨device, isDevice, notGone, isNode⟩
  rcases before other otherLater isOtherLater otherPresent with ⟨otherDevice, isOther, otherNotGone, otherNode⟩
  exact named id other device otherDevice isDevice isOther notGone otherNotGone
    (isNode.trans (sameNode.trans otherNode.symm))

theorem Named.create {s : State} (named : s.Named) (node : Nat) (virtpad : Bool) :
    (s.create node virtpad).Named := by
  rw [State.create]
  split
  · exact named
  · rename_i fresh
    have unused : ∀ (id : Nat) (device : Device), s.devices[id]? = some device → device.status ≠ .gone →
        device.node ≠ node := by
      intro id device isDevice notGone isNode
      apply fresh
      rw [List.any_eq_true]
      exact ⟨device, List.mem_of_getElem? isDevice, by simp [isNode, notGone]⟩
    have cases : ∀ (id : Nat) (device : Device),
        (s.devices ++ [⟨node, virtpad, .live, []⟩])[id]? = some device →
          s.devices[id]? = some device ∨ id = s.devices.length ∧ device.node = node := by
      intro id device isDevice
      rcases Nat.lt_or_ge id s.devices.length with inside | outside
      · rw [List.getElem?_append_left inside] at isDevice
        exact .inl isDevice
      · rw [List.getElem?_append_right outside] at isDevice
        rcases List.getElem?_eq_some_iff.mp isDevice with ⟨bound, isNew⟩
        rw [List.length_singleton] at bound
        refine .inr ⟨by omega, ?_⟩
        rw [List.getElem_singleton] at isNew
        rw [← isNew]
    intro id other device otherDevice isDevice isOther notGone otherNotGone sameNode
    rcases cases id device isDevice with old | ⟨isNew, isNode⟩
    · rcases cases other otherDevice isOther with otherOld | ⟨_, otherNode⟩
      · exact named id other device otherDevice old otherOld notGone otherNotGone sameNode
      · exact absurd (sameNode.trans otherNode) (unused id device old notGone)
    · rcases cases other otherDevice isOther with otherOld | ⟨otherNew, _⟩
      · exact absurd (sameNode.symm.trans isNode) (unused other otherDevice otherOld otherNotGone)
      · rw [isNew, otherNew]

theorem mem_record {s : State} {note : Option Nat} {id : Nat} (member : some id ∈ s.record note) :
    some id ∈ s.pending ∨ note = some id := by
  rw [record] at member
  split at member
  · rcases List.mem_append.mp member with before | isNew
    · exact .inl before
    · exact .inr (List.mem_singleton.mp isNew).symm
  · exact .inl member

/-- The kernel's steps other than a creation change no number of devices, and record
no creation. -/
theorem outside_length (s : State) {label : Label} (outside : isOutside label = true)
    (old : ∀ node virtpad, label ≠ .create node virtpad) :
    (step s label).devices.length = s.devices.length ∧
      ∀ id, some id ∈ (step s label).pending → some id ∈ s.pending := by
  cases label with
  | create node virtpad => exact absurd rfl (old node virtpad)
  | unlink id =>
      rw [step, unlink]
      split
      · split
        · refine ⟨List.length_set, fun other member => ?_⟩
          rcases mem_record member with before | isNew
          · exact before
          · cases isNew
        · exact ⟨rfl, fun _ member => member⟩
      · exact ⟨rfl, fun _ member => member⟩
  | hangup id =>
      rw [step, hangup]
      split
      · split
        · exact ⟨List.length_set, fun _ member => member⟩
        · exact ⟨rfl, fun _ member => member⟩
      · exact ⟨rfl, fun _ member => member⟩
  | emit id event =>
      rw [step, emit]
      split
      · split
        · exact ⟨rfl, fun _ member => member⟩
        · exact ⟨List.length_set, fun _ member => member⟩
      · exact ⟨rfl, fun _ member => member⟩
  | note =>
      refine ⟨rfl, fun id member => ?_⟩
      rcases mem_record member with before | isNew
      · exact before
      · cases isNew
  | _ => cases outside

theorem coming_outside {s : State} (watching : s.Watching) {label : Label}
    (outside : isOutside label = true) : (step s label).Coming := by
  have apart := outside_step s outside
  have coming := watching.coming
  rw [Coming] at coming ⊢
  have allOpen : s.AllOpen → (step s label).AllOpen := fun allOpen =>
    allOpen.outside apart watching.told
  cases isPhase : s.phase with
  | scanning resume may must =>
      rcases must_outside watching outside isPhase with ⟨laterMay, laterMust, isLater, kept⟩
      rw [isPhase] at coming
      rw [isLater]
      intro id isTold later present
      rw [apart.told] at isTold
      rcases present.before apart (watching.told id isTold) with ⟨device, before, sameNode⟩
      rcases coming id isTold device before with isOpen | inMust
      · exact .inl (isOpen.of_same apart.files apart.pads)
      · exact .inr (kept id later present (sameNode ▸ inMust))
  | _ =>
      have core := apart.core
      rw [isPhase] at core coming
      cases isLater : (step s label).phase <;> rw [isLater] at core <;> cases core
      all_goals first | trivial | exact allOpen coming

theorem watching_outside {s : State} (watching : s.Watching) {label : Label}
    (outside : isOutside label = true) : (step s label).Watching := by
  have apart := outside_step s outside
  have coming := coming_outside watching outside
  by_cases isCreate : ∃ node virtpad, label = .create node virtpad
  · rcases isCreate with ⟨node, virtpad, rfl⟩
    have names : (s.create node virtpad).Named := watching.names.create node virtpad
    refine ⟨names, ?_, ?_, coming⟩
    · intro id isTold
      rw [apart.told] at isTold
      have inside := watching.told id isTold
      rw [step, create]
      split
      · exact inside
      · exact Nat.lt_of_lt_of_le inside (by simp)
    · rw [step, create]
      split
      · exact watching.pending
      · intro id member
        rw [List.length_append, List.length_singleton]
        rcases mem_record member with before | isNew
        · have inside := watching.pending id before
          omega
        · cases isNew
          omega
  · have same := outside_length s outside fun node virtpad isLabel => isCreate ⟨node, virtpad, isLabel⟩
    refine ⟨watching.names.grown apart same.1, ?_, ?_, coming⟩
    · intro id isTold
      rw [apart.told] at isTold
      rw [same.1]
      exact watching.told id isTold
    · intro id member
      rw [same.1]
      exact watching.pending id (same.2 id member)

/-! ## The program's steps -/

theorem Watching.of_same {s t : State} (watching : s.Watching) (devices : t.devices = s.devices)
    (told : t.told = s.told) (pending : t.pending = s.pending) (coming : t.Coming) : t.Watching where
  names := by
    rw [Named, devices]
    exact watching.names
  told := by
    rw [devices, told]
    exact watching.told
  pending := by
    rw [devices, pending]
    exact watching.pending
  coming := coming

theorem AllOpen.coming {s : State} (allOpen : s.AllOpen) : s.Coming := by
  rw [Coming]
  split
  · trivial
  · exact fun id isTold device present => .inl (allOpen id isTold device present)
  · trivial
  · exact allOpen

theorem AllOpen.with_phase {s : State} (allOpen : s.AllOpen) (phase : Phase) :
    Coming { s with phase := phase } :=
  AllOpen.coming (s := { s with phase := phase }) (allOpen.of_same rfl rfl rfl rfl)

theorem liveAt_present {s : State} (names : s.Named) {id : Nat} {device : Device}
    (present : s.Present id device) : s.liveAt device.node = some id := by
  have found : (s.liveAt device.node).isSome = true := by
    rw [liveAt, List.findIdx?_isSome, List.any_eq_true]
    exact ⟨device, List.mem_of_getElem? present.isDevice, by simp [present.live]⟩
  cases isLive : s.liveAt device.node with
  | none =>
      rw [isLive] at found
      cases found
  | some other =>
      rcases liveAt_eq_some isLive with ⟨otherDevice, isOther, sameNode, otherLive⟩
      rw [names other id otherDevice device isOther present.isDevice (by rw [otherLive]; decide)
        (by rw [present.live]; decide) sameNode]

theorem addPad_same (s : State) (node fd : Nat) : (s.addPad node fd).devices = s.devices ∧
    (s.addPad node fd).told = s.told ∧ (s.addPad node fd).pending = s.pending := by
  rw [addPad]
  split
  · exact ⟨rfl, rfl, rfl⟩
  · split
    · exact ⟨rfl, rfl, rfl⟩
    · split
      · exact ⟨rfl, rfl, rfl⟩
      · exact ⟨rfl, rfl, rfl⟩

/-- The node of a present pad is opened as that pad. -/
theorem open_addPad {s : State} (names : s.Named) {id : Nat} {device : Device}
    (present : s.Present id device) (fd : Nat) : (s.addPad device.node fd).Open id := by
  rw [addPad, liveAt_present names present]
  dsimp only
  rw [present.isDevice]
  dsimp only
  rw [if_pos present.virtpad]
  exact ⟨_, List.mem_append_right _ List.mem_cons_self, _, if_pos rfl, rfl⟩

section Scan

variable {s : State} (sound : s.Sound) (watching : s.Watching) {resume : Resume} {may must : List Nat}
  (isPhase : s.phase = .scanning resume may must) {node : Nat} (isNext : node ∈ may)
  {opened : Option Nat} (keeps : ¬s.Loses (.entry node opened))

include isPhase isNext keeps in
/-- What a scan does not pass over. -/
theorem open_of_keeps {id : Nat} (isTold : id ∈ s.told) {device : Device}
    (present : s.Present id device)
    (passes : if s.padFind node then device.node = node
      else maxPads ≤ s.pads.length ∨ (device.node = node ∧ opened = none)) : s.Open id := by
  by_contra closed
  exact keeps ⟨id, isTold, device, present, closed, ⟨resume, may, must, isPhase, isNext⟩, passes⟩

include watching isPhase in
theorem coming_of_phase {id : Nat} (isTold : id ∈ s.told) {device : Device}
    (present : s.Present id device) : s.Open id ∨ device.node ∈ must := by
  have coming := watching.coming
  rw [Coming, isPhase] at coming
  exact coming id isTold device present

include sound watching isPhase isNext keeps in
theorem watching_scanEntry : (s.scanEntry resume may must node opened).Watching := by
  have passed : (∀ id ∈ s.told, ∀ device, s.Present id device → device.node = node → s.Open id) →
      Coming { s with phase := .scanning resume (may.erase node) (must.filter (· ≠ node)) } := by
    intro atNode id isTold device present
    have before : s.Present id device := ⟨present.isDevice, present.live, present.virtpad⟩
    by_cases isNode : device.node = node
    · exact .inl ((atNode id isTold device before isNode).of_same rfl rfl)
    · rcases coming_of_phase watching isPhase isTold before with isOpen | inMust
      · exact .inl (isOpen.of_same rfl rfl)
      · refine .inr (List.mem_filter.mpr ⟨inMust, ?_⟩)
        rw [decide_eq_true_eq]
        exact isNode
  rw [State.scanEntry.eq_def]
  dsimp only
  split
  · rename_i found
    refine watching.of_same rfl rfl rfl (passed fun id isTold device present isNode => ?_)
    exact open_of_keeps isPhase isNext keeps isTold present (by rw [if_pos found]; exact isNode)
  · rename_i missing
    split
    · rename_i full
      have allOpen : s.AllOpen := fun id isTold device present =>
        open_of_keeps isPhase isNext keeps isTold present (by rw [if_neg missing]; exact .inl full)
      exact watching.of_same rfl rfl rfl (allOpen.with_phase _)
    · split
      · refine watching.of_same rfl rfl rfl (passed fun id isTold device present isNode => ?_)
        exact open_of_keeps isPhase isNext keeps isTold present
          (by rw [if_neg missing]; exact .inr ⟨isNode, rfl⟩)
      · rename_i fd
        split
        · exact watching
        · rename_i unused
          have unused : (s.files fd).isSome = false := Bool.eq_false_iff.mpr unused
          have same := addPad_same s node fd
          refine watching.of_same same.1 same.2.1 same.2.2 ?_
          intro id isTold device present
          have before : s.Present id device :=
            ⟨same.1 ▸ present.isDevice, present.live, present.virtpad⟩
          have wasTold : id ∈ s.told := same.2.1 ▸ isTold
          by_cases isNode : device.node = node
          · subst isNode
            exact .inl ((open_addPad watching.names before fd).of_same rfl rfl)
          · rcases coming_of_phase watching isPhase wasTold before with isOpen | inMust
            · exact .inl ((isOpen.addPad sound node unused).of_same rfl rfl)
            · refine .inr (List.mem_filter.mpr ⟨inMust, ?_⟩)
              rw [decide_eq_true_eq]
              exact isNode

end Scan

/-- Outside of a scan every told pad is open. -/
theorem Coming.allOpen {s : State} (coming : s.Coming) (noScan : ∀ resume, s.phase ≠ .opening resume)
    (noName : ∀ resume may must, s.phase ≠ .scanning resume may must) (goes : s.phase ≠ .stopped) :
    s.AllOpen := by
  rw [Coming] at coming
  split at coming
  · rename_i resume isPhase
    exact absurd isPhase (noScan resume)
  · rename_i resume may must isPhase
    exact absurd isPhase (noName resume may must)
  · rename_i isPhase
    exact absurd isPhase goes
  · exact coming

theorem coming_loopTop {s : State} (allOpen : s.AllOpen) : s.loopTop.Coming :=
  allOpen.with_phase _

theorem watching_nextRevent {s : State} (watching : s.Watching) (allOpen : s.AllOpen) (revent : Revent)
    (todo : List Revent) : (s.nextRevent revent todo).Watching := by
  rw [nextRevent]
  split
  · split
    · refine ⟨watching.names, ?_, ?_, trivial⟩
      · intro id isTold
        rcases List.mem_append.mp isTold with before | isNew
        · exact watching.told id before
        · exact watching.pending id (by simpa using isNew)
      · intro id isPending
        cases isPending
    · exact watching.of_same rfl rfl rfl (allOpen.with_phase _)
  · split
    · exact watching.of_same rfl rfl rfl (allOpen.with_phase _)
    · exact watching.of_same rfl rfl rfl (allOpen.with_phase _)

theorem AllOpen.readOne {s : State} (allOpen : s.AllOpen) {fd : Nat} (event : InputEvent)
    (isPad : ∃ pad ∈ s.pads, pad.fd = fd) : (s.readOne fd event).AllOpen := by
  intro id isTold device present
  have before : s.Present id device := ⟨present.isDevice, present.live, present.virtpad⟩
  exact (allOpen id isTold device before).readOne event isPad

theorem dropFd_same (s : State) (fd : Nat) : (s.dropFd fd).devices = s.devices ∧
    (s.dropFd fd).told = s.told ∧ (s.dropFd fd).pending = s.pending := by
  rw [dropFd]
  split
  · exact ⟨rfl, rfl, rfl⟩
  · exact ⟨rfl, rfl, rfl⟩

theorem AllOpen.dropFd {s : State} (sound : s.Sound) (allOpen : s.AllOpen) {fd : Nat}
    (gone : s.Gone fd) : (s.dropFd fd).AllOpen := by
  have same := dropFd_same s fd
  intro id isTold device present
  have before : s.Present id device := ⟨same.1 ▸ present.isDevice, present.live, present.virtpad⟩
  exact (allOpen id (same.2.1 ▸ isTold) device before).dropFd sound before gone

theorem watching_advance {s : State} (sound : s.Sound) (inOrder : s.InOrder) (watching : s.Watching) :
    s.advance.Watching := by
  have coming := watching.coming
  rw [InOrder] at inOrder
  cases isPhase : s.phase with
  | polling results =>
      have allOpen := coming.allOpen (by simp [isPhase]) (by simp [isPhase]) (by simp [isPhase])
      rw [advance, isPhase]
      dsimp only
      rw [check]
      split
      · exact watching.of_same rfl rfl rfl (allOpen.with_phase _)
      · split
        · exact watching.of_same rfl rfl rfl (allOpen.with_phase _)
        · exact watching.of_same rfl rfl rfl (allOpen.with_phase _)
  | batch todo =>
      have allOpen := coming.allOpen (by simp [isPhase]) (by simp [isPhase]) (by simp [isPhase])
      rw [advance, isPhase]
      cases todo with
      | nil => exact watching.of_same rfl rfl rfl (coming_loopTop allOpen)
      | cons revent todo => exact watching_nextRevent watching allOpen revent todo
  | reading fd hangup todo =>
      have allOpen := coming.allOpen (by simp [isPhase]) (by simp [isPhase]) (by simp [isPhase])
      rw [advance, isPhase]
      dsimp only
      split
      · exact watching.of_same rfl rfl rfl (allOpen.with_phase _)
      · rename_i event next
        rcases nextEvent_eq_some next with ⟨file, _, isFile, _⟩
        have read := allOpen.readOne event (sound.owned _ (by rw [isFile]; rfl))
        split
        · exact watching.of_same rfl rfl rfl (read.with_phase _)
        · exact watching.of_same rfl rfl rfl read.coming
  | leaving fd hangup todo =>
      have allOpen := coming.allOpen (by simp [isPhase]) (by simp [isPhase]) (by simp [isPhase])
      rw [isPhase] at inOrder
      rw [advance, isPhase]
      dsimp only
      split
      · rename_i hung
        have gone : s.Gone fd := inOrder.1.gone _ List.mem_cons_self fd rfl hung
        have same := dropFd_same s fd
        exact watching.of_same same.1 same.2.1 same.2.2 ((allOpen.dropFd sound gone).with_phase _)
      · exact watching.of_same rfl rfl rfl (allOpen.with_phase _)
  | _ =>
      rw [advance, isPhase]
      exact watching

/-- A step that passes no told pad by keeps watching. -/
theorem watching_step {s : State} (sound : s.Sound) (inOrder : s.InOrder) (watching : s.Watching)
    {label : Label} (keeps : ¬s.Loses label) : (step s label).Watching := by
  have coming := watching.coming
  by_cases outside : isOutside label = true
  · exact watching_outside watching outside
  · cases label with
    | opendir ok =>
        rw [step]
        split
        · rename_i resume isPhase
          refine watching.of_same rfl rfl rfl ?_
          cases ok with
          | true =>
              intro id isTold device present
              refine .inr (List.mem_map.mpr ⟨device, List.mem_filter.mpr ⟨?_, ?_⟩, rfl⟩)
              · exact List.mem_of_getElem? present.isDevice
              · rw [present.live]
                rfl
          | false =>
              have allOpen : s.AllOpen := by
                intro id isTold device present
                by_contra closed
                exact keeps ⟨id, isTold, device, present, closed, rfl, resume, isPhase⟩
              exact allOpen.with_phase _
        · exact watching
    | entry node opened =>
        rw [step]
        split
        · rename_i resume may must isPhase
          split
          · rename_i isNext
            exact watching_scanEntry sound watching isPhase isNext keeps
          · exact watching
        · exact watching
    | endOfDir =>
        rw [step]
        split
        · rename_i resume may isPhase
          have allOpen : s.AllOpen := by
            intro id isTold device present
            rcases coming_of_phase watching isPhase isTold present with isOpen | inMust
            · exact isOpen
            · cases inMust
          exact watching.of_same rfl rfl rfl (allOpen.with_phase _)
        · exact watching
    | addWatch ok =>
        rw [step]
        split
        · rename_i isPhase
          have allOpen := coming.allOpen (by simp [isPhase]) (by simp [isPhase]) (by simp [isPhase])
          split
          · exact watching.of_same rfl rfl rfl trivial
          · exact watching.of_same rfl rfl rfl (coming_loopTop allOpen)
        · exact watching
    | interrupt =>
        rw [step]
        split
        · rename_i isPhase
          have allOpen := coming.allOpen (by simp [isPhase]) (by simp [isPhase]) (by simp [isPhase])
          exact watching.of_same rfl rfl rfl (coming_loopTop allOpen)
        · exact watching
    | advance => exact watching_advance sound inOrder watching
    | _ => exact absurd rfl outside

theorem Watching.monitored {s : State} (watching : s.Watching) : s.Monitored := by
  intro results isPhase
  exact watching.coming.allOpen (by simp [isPhase]) (by simp [isPhase]) (by simp [isPhase])

/-- In a run in which no scan passes a told pad by, no pad is left out while the
program waits. -/
theorem hotkey_monitors {labels : List Label}
    (along : Along step (fun s label => ¬s.Loses label) initial labels) :
    Throughout step Monitored initial labels :=
  along.throughout (fun s => s.Sound ∧ s.InOrder ∧ s.Watching) (fun _ holds => holds.2.2.monitored)
    (fun _ label holds keeps => ⟨sound_step holds.1 label, inOrder_step holds.1 holds.2.1 label,
      watching_step holds.1 holds.2.1 holds.2.2 keeps⟩)
    ⟨sound_initial, inOrder_initial, watching_initial⟩

/-- Whether a step may pass something by. -/
def mayPass (s : State) : Label → Bool
  | .opendir ok => !ok
  | .entry node opened => s.padFind node || decide (maxPads ≤ s.pads.length) || opened.isNone
  | _ => false

theorem keeps_of_mayPass {s : State} {label : Label} (safe : s.mayPass label = false) :
    ¬s.Loses label := by
  rintro ⟨_, _, device, _, _, passes⟩
  cases label with
  | opendir ok =>
      rw [mayPass, passes.1] at safe
      cases safe
  | entry node opened =>
      simp only [mayPass, Bool.or_eq_false_iff, decide_eq_false_iff_not] at safe
      have passes := passes.2
      rw [if_neg (by rw [safe.1.1]; decide)] at passes
      rcases passes with full | ⟨_, unopened⟩
      · exact safe.1.2 full
      · have isNone := safe.2
        rw [unopened] at isNone
        cases isNone
  | _ => exact passes

/-- A pad that comes while the program waits. -/
def arrival : List Label :=
  [.opendir true, .endOfDir, .addWatch true, .opendir true, .endOfDir, .advance, .create 5 true,
    .advance, .advance, .advance, .opendir true, .entry 5 (some 3), .endOfDir, .advance]

theorem hotkey_monitors_arrival : Throughout step Monitored initial arrival := by
  have safe : Along step (fun s label => s.mayPass label = false) initial arrival := by
    decide +kernel
  exact hotkey_monitors (safe.of_invariant (fun _ => True) (fun _ _ _ _ => trivial)
    (fun _ _ _ => keeps_of_mayPass) trivial)

/-- A pad that is there at the start goes, and another one comes by its node before
`poll` returns. -/
def replug : List Label :=
  [.create 5 true, .opendir true, .entry 5 (some 3), .endOfDir, .addWatch true, .opendir true,
    .entry 5 none, .endOfDir, .advance, .unlink 0, .hangup 0, .create 5 true, .advance, .advance,
    .advance, .advance, .opendir true, .entry 5 (some 4), .endOfDir, .advance, .advance, .advance]

/-- The scan still has the name in the table, and the hangup that follows empties
the table. -/
theorem hotkey_replug : ¬∀ labels, Throughout step Monitored initial labels := by
  intro all
  have waits := throughout_iff_prefix.mp (all replug) replug List.prefix_rfl
  have phase : (run step initial replug).phase = .polling [] := by decide +kernel
  have told : 1 ∈ (run step initial replug).told := by decide +kernel
  have device : (run step initial replug).devices[1]? = some ⟨5, true, .live, []⟩ := by decide +kernel
  have noPads : (run step initial replug).pads = [] := by decide +kernel
  rcases waits [] phase 1 told _ ⟨device, rfl, rfl⟩ with ⟨pad, member, _⟩
  rw [noPads] at member
  cases member

end State

end Zlyme.Pak
