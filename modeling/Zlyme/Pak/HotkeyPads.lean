import Zlyme.Pak.Hotkey

/-! # Pads and their own events

A pad's two flags are what its own events since the opening leave, whatever comes
and goes beside it.
-/

namespace Zlyme.Pak

open Foundation.Execution
open Foundation.KeyedRows

/-! ## Held buttons -/

theorem heldAfter_append (events : List InputEvent) (event : InputEvent) :
    heldAfter (events ++ [event]) = (heldAfter events).after event := by
  rw [heldAfter, List.foldl_append]
  rfl

/-- A button that is held on the left is held on the right. -/
def Held.Within (held other : Held) : Prop :=
  (held.menu = true → other.menu = true) ∧ (held.start = true → other.start = true)

theorem Held.Within.after {held other : Held} (isWithin : held.Within other) (event : InputEvent) :
    (held.after event).Within (other.after event) := by
  simp only [Held.after, zlymeHotkeyApply]
  split_ifs
  · exact ⟨id, isWithin.2⟩
  · exact ⟨isWithin.1, id⟩
  · exact isWithin
  · exact isWithin

theorem Held.Within.foldl {held other : Held} (isWithin : held.Within other)
    (events : List InputEvent) :
    (events.foldl Held.after held).Within (events.foldl Held.after other) := by
  induction events generalizing held other with
  | nil => exact isWithin
  | cons event rest induction => exact induction (isWithin.after event)

theorem Held.Within.both {held other : Held} (isWithin : held.Within other)
    (isBoth : held.both = true) : other.both = true := by
  rw [Held.both, Bool.and_eq_true] at isBoth ⊢
  exact ⟨isWithin.1 isBoth.1, isWithin.2 isBoth.2⟩

/-- What was pressed since the opening is pressed in the whole history. -/
theorem heldAfter_drop_within (events : List InputEvent) (count : Nat) :
    (heldAfter (events.drop count)).Within (heldAfter events) := by
  have start : Held.reset.Within (heldAfter (events.take count)) := ⟨nofun, nofun⟩
  have whole := start.foldl (events.drop count)
  rw [heldAfter, ← List.foldl_append, List.take_append_drop] at whole
  exact whole

/-! ## The events of a pad -/

/-- The events since the opening, up to a place in the history. -/
def OpenFile.seen (file : OpenFile) (device : Device) (upTo : Nat) : List InputEvent :=
  (device.history.take upTo).drop file.opened

/-- The descriptor of a pad and the device behind it. -/
structure State.Reads (s : State) (pad : AppPad) (file : OpenFile) (device : Device) : Prop where
  isFile : s.files pad.fd = some file
  isDevice : s.devices[file.device]? = some device

/-- The pad stands for one device, whose own events its flags come from. -/
structure State.Own (s : State) (pad : AppPad) (file : OpenFile) (device : Device) : Prop
    extends s.Reads pad file device where
  node : pad.node = device.node
  virtpad : device.virtpad = true
  opened : file.opened ≤ file.read
  inside : file.read ≤ device.history.length
  held : pad.held = heldAfter (file.seen device file.read)
  quiet : s.fire = false → ∀ upTo ≤ file.read, (heldAfter (file.seen device upTo)).both = false

structure State.Sound (s : State) : Prop where
  distinct : Distinct AppPad.fd s.pads
  owned : ∀ fd, (s.files fd).isSome = true → ∃ pad ∈ s.pads, pad.fd = fd
  attached : ∀ pad ∈ s.pads, ∃ file device, s.Own pad file device

theorem State.sound_initial : State.initial.Sound where
  distinct := List.nodup_nil
  owned := nofun
  attached := nofun

/-! ## What happens outside of the program -/

/-- What a device may be later. -/
structure Device.Grows (before after : Device) : Prop where
  node : after.node = before.node
  virtpad : after.virtpad = before.virtpad
  gone : before.status = .gone → after.status = .gone
  live : after.status = .live → before.status = .live
  history : ∃ more, after.history = before.history ++ more

theorem Device.Grows.refl (device : Device) : device.Grows device :=
  ⟨rfl, rfl, id, id, [], (List.append_nil _).symm⟩

/-- A scan's lists aside, what the program does next. -/
def Phase.core : Phase → Phase
  | .scanning resume _ _ => .scanning resume [] []
  | phase => phase

/-- What happens outside leaves the program as it is. -/
structure State.Outside (s t : State) : Prop where
  files : t.files = s.files
  pads : t.pads = s.pads
  fire : t.fire = s.fire
  told : t.told = s.told
  watched : t.watched = s.watched
  core : t.phase.core = s.phase.core
  grows : ∀ (id : Nat) (device : Device), s.devices[id]? = some device →
    ∃ later, t.devices[id]? = some later ∧ device.Grows later

namespace State

theorem Outside.refl (s : State) : s.Outside s :=
  ⟨rfl, rfl, rfl, rfl, rfl, rfl, fun _ device isDevice => ⟨device, isDevice, .refl device⟩⟩

theorem core_appeared (node : Nat) (phase : Phase) : (appeared node phase).core = phase.core := by
  cases phase <;> rfl

theorem core_vanished (node : Nat) (phase : Phase) : (vanished node phase).core = phase.core := by
  cases phase <;> rfl

theorem grows_set {devices : List Device} {id : Nat} {before after : Device}
    (isDevice : devices[id]? = some before) (grown : before.Grows after) (other : Nat)
    (device : Device) (isOther : devices[other]? = some device) :
    ∃ later, (devices.set id after)[other]? = some later ∧ device.Grows later := by
  have inside : id < devices.length := by
    rcases List.getElem?_eq_some_iff.mp isDevice with ⟨inside, _⟩
    exact inside
  rw [List.getElem?_set]
  split
  · rename_i same
    subst same
    rw [isDevice] at isOther
    cases isOther
    exact ⟨after, rfl, grown⟩
  · exact ⟨device, isOther, .refl device⟩

theorem outside_create (s : State) (node : Nat) (virtpad : Bool) :
    s.Outside (s.create node virtpad) := by
  rw [create]
  split
  · exact .refl s
  · refine ⟨rfl, rfl, rfl, rfl, rfl, core_appeared node s.phase, ?_⟩
    intro id device isDevice
    refine ⟨device, ?_, .refl device⟩
    rw [List.getElem?_append_left (List.getElem?_eq_some_iff.mp isDevice).1]
    exact isDevice

theorem outside_unlink (s : State) (id : Nat) : s.Outside (s.unlink id) := by
  rw [unlink]
  split
  · rename_i device isDevice
    split
    · rename_i isLive
      refine ⟨rfl, rfl, rfl, rfl, rfl, core_vanished device.node s.phase, grows_set isDevice ?_⟩
      exact ⟨rfl, rfl, fun isGone => by simp [isGone] at isLive, nofun, [], (List.append_nil _).symm⟩
    · exact .refl s
  · exact .refl s

theorem outside_hangup (s : State) (id : Nat) : s.Outside (s.hangup id) := by
  rw [hangup]
  split
  · rename_i device isDevice
    split
    · exact ⟨rfl, rfl, rfl, rfl, rfl, rfl, grows_set isDevice
        ⟨rfl, rfl, fun _ => rfl, nofun, [], (List.append_nil _).symm⟩⟩
    · exact .refl s
  · exact .refl s

theorem outside_emit (s : State) (id : Nat) (event : InputEvent) : s.Outside (s.emit id event) := by
  rw [emit]
  split
  · rename_i device isDevice
    split
    · exact .refl s
    · exact ⟨rfl, rfl, rfl, rfl, rfl, rfl, grows_set isDevice ⟨rfl, rfl, fun isGone => isGone,
        fun isLive => isLive, [event], rfl⟩⟩
  · exact .refl s

/-- The labels of the kernel, and those of the program. -/
def isOutside : Label → Bool
  | .create .. | .unlink .. | .hangup .. | .emit .. | .note => true
  | _ => false

theorem outside_step (s : State) {label : Label} (outside : isOutside label = true) :
    s.Outside (step s label) := by
  cases label with
  | create node virtpad => exact outside_create s node virtpad
  | unlink id => exact outside_unlink s id
  | hangup id => exact outside_hangup s id
  | emit id event => exact outside_emit s id event
  | note => exact { Outside.refl s with }
  | _ => cases outside

theorem seen_grows {device later : Device} (grown : device.Grows later) (file : OpenFile) {upTo : Nat}
    (inside : upTo ≤ device.history.length) : file.seen later upTo = file.seen device upTo := by
  rcases grown.history with ⟨more, isMore⟩
  rw [OpenFile.seen, OpenFile.seen, isMore, List.take_append_of_le_length inside]

theorem Own.outside {s t : State} (outside : s.Outside t) {pad : AppPad} {file : OpenFile}
    {device : Device} (own : s.Own pad file device) : ∃ later, t.Own pad file later := by
  rcases outside.grows file.device device own.isDevice with ⟨later, isDevice, grown⟩
  have longer : device.history.length ≤ later.history.length := by
    rcases grown.history with ⟨more, isMore⟩
    rw [isMore, List.length_append]
    exact Nat.le_add_right _ _
  refine ⟨later, ⟨⟨?_, isDevice⟩, ?_, ?_, own.opened, Nat.le_trans own.inside longer, ?_, ?_⟩⟩
  · rw [outside.files]
    exact own.isFile
  · rw [grown.node]
    exact own.node
  · rw [grown.virtpad]
    exact own.virtpad
  · rw [seen_grows grown file own.inside]
    exact own.held
  · intro unfired upTo bound
    rw [outside.fire] at unfired
    rw [seen_grows grown file (Nat.le_trans bound own.inside)]
    exact own.quiet unfired upTo bound

theorem Sound.outside {s t : State} (sound : s.Sound) (outside : s.Outside t) : t.Sound := by
  constructor
  · rw [outside.pads]
    exact sound.distinct
  · rw [outside.files, outside.pads]
    exact sound.owned
  · rw [outside.pads]
    intro pad member
    rcases sound.attached pad member with ⟨file, device, own⟩
    rcases own.outside outside with ⟨later, ownLater⟩
    exact ⟨file, later, ownLater⟩

/-! ## What the program does -/

theorem padIndex_spec {s : State} {fd : Nat} (present : ∃ pad ∈ s.pads, pad.fd = fd) :
    ∃ inside : s.padIndex fd < s.pads.length, s.pads[s.padIndex fd].fd = fd := by
  rcases present with ⟨pad, member, isFd⟩
  have inside : s.padIndex fd < s.pads.length :=
    List.findIdx_lt_length_of_exists ⟨pad, member, beq_iff_eq.mpr isFd⟩
  have found := List.findIdx_getElem (w := inside)
  exact ⟨inside, beq_iff_eq.mp found⟩

theorem any_fd_iff {s : State} {fd : Nat} :
    (s.pads.any fun pad => pad.fd == fd) = true ↔ ∃ pad ∈ s.pads, pad.fd = fd := by
  simp

theorem setFile_of_ne {s : State} {fd other : Nat} (differs : other ≠ fd) (file : Option OpenFile) :
    s.setFile fd file other = s.files other :=
  if_neg differs

/-- A pad keeps its events where its descriptor, its device and a missing fire stay. -/
theorem Own.of_same {s t : State} {pad : AppPad} {file : OpenFile} {device : Device}
    (own : s.Own pad file device) (sameFile : t.files pad.fd = s.files pad.fd)
    (sameDevices : t.devices = s.devices) (fires : t.fire = false → s.fire = false) :
    t.Own pad file device where
  isFile := sameFile.trans own.isFile
  isDevice := sameDevices ▸ own.isDevice
  node := own.node
  virtpad := own.virtpad
  opened := own.opened
  inside := own.inside
  held := own.held
  quiet unfired := own.quiet (fires unfired)

/-- Steps of the program that touch neither a pad nor a descriptor. -/
theorem Sound.of_same {s t : State} (sound : s.Sound) (files : t.files = s.files)
    (devices : t.devices = s.devices) (pads : t.pads = s.pads) (fire : t.fire = s.fire) :
    t.Sound := by
  constructor
  · rw [pads]
    exact sound.distinct
  · rw [files, pads]
    exact sound.owned
  · rw [pads]
    intro pad member
    rcases sound.attached pad member with ⟨file, device, own⟩
    exact ⟨file, device, own.of_same (by rw [files]) devices fun unfired => fire ▸ unfired⟩

theorem Sound.dropFd {s : State} (sound : s.Sound) (fd : Nat) : (s.dropFd fd).Sound := by
  rw [State.dropFd]
  split
  · rename_i present
    rcases padIndex_spec (any_fd_iff.mp present) with ⟨inside, isFd⟩
    have left : ∀ pad, pad ∈ swapRemove s.pads (s.padIndex fd) ↔
        pad ∈ s.pads ∧ pad.fd ≠ s.pads[s.padIndex fd].fd := fun _ => mem_swapRemove sound.distinct inside
    constructor
    · exact distinct_swapRemove sound.distinct inside
    · intro other isOpen
      have differs : other ≠ fd := by
        rintro rfl
        simp [setFile] at isOpen
      dsimp only at isOpen
      rw [setFile_of_ne differs] at isOpen
      rcases sound.owned other isOpen with ⟨pad, member, isOther⟩
      exact ⟨pad, (left pad).mpr ⟨member, by rw [isFd, isOther]; exact differs⟩, isOther⟩
    · intro pad member
      rcases (left pad).mp member with ⟨inPads, differs⟩
      rw [isFd] at differs
      rcases sound.attached pad inPads with ⟨file, device, own⟩
      exact ⟨file, device, own.of_same (setFile_of_ne differs none) rfl id⟩
  · exact sound

/-- A new descriptor has no pad yet. -/
theorem Sound.fresh {s : State} (sound : s.Sound) {fd : Nat} (unused : (s.files fd).isSome = false) :
    ∀ pad ∈ s.pads, pad.fd ≠ fd := by
  rintro pad member rfl
  rcases sound.attached pad member with ⟨file, device, own⟩
  rw [own.isFile] at unused
  cases unused

theorem liveAt_eq_some {s : State} {node id : Nat} (isLive : s.liveAt node = some id) :
    ∃ device, s.devices[id]? = some device ∧ device.node = node ∧ device.status = .live := by
  rcases List.findIdx?_eq_some_iff_getElem.mp isLive with ⟨inside, found, _⟩
  rw [Bool.and_eq_true, beq_iff_eq, beq_iff_eq] at found
  exact ⟨_, List.getElem?_eq_getElem inside, found⟩

theorem Sound.addPad {s : State} (sound : s.Sound) (node : Nat) {fd : Nat}
    (unused : (s.files fd).isSome = false) : (s.addPad node fd).Sound := by
  rw [State.addPad]
  split
  · exact sound
  · rename_i id isLive
    rcases liveAt_eq_some isLive with ⟨device, isDevice, isNode, _⟩
    rw [isDevice]
    dsimp only
    split
    · rename_i isVirtpad
      have fresh := sound.fresh unused
      constructor
      · exact distinct_append sound.distinct fresh
      · intro other isOpen
        by_cases same : other = fd
        · subst same
          exact ⟨_, List.mem_append_right _ List.mem_cons_self, rfl⟩
        · dsimp only at isOpen
          rw [setFile_of_ne same] at isOpen
          rcases sound.owned other isOpen with ⟨pad, member, isOther⟩
          exact ⟨pad, List.mem_append_left _ member, isOther⟩
      · intro pad member
        rcases List.mem_append.mp member with inPads | isNew
        · rcases sound.attached pad inPads with ⟨file, device, own⟩
          exact ⟨file, device, own.of_same (setFile_of_ne (fresh pad inPads) _) rfl
            fun unfired => unfired⟩
        · cases List.mem_singleton.mp isNew
          have unseen : ∀ upTo ≤ device.history.length,
              OpenFile.seen ⟨id, device.history.length, device.history.length⟩ device upTo = [] := by
            intro upTo bound
            rw [OpenFile.seen, List.drop_eq_nil_iff, List.length_take]
            exact Nat.le_trans (Nat.min_le_left _ _) bound
          refine ⟨⟨id, device.history.length, device.history.length⟩, device, ⟨⟨if_pos rfl, isDevice⟩,
            isNode.symm, isVirtpad, Nat.le_refl _, Nat.le_refl _, ?_, ?_⟩⟩
          · rw [unseen _ (Nat.le_refl _)]
            rfl
          · intro _ upTo bound
            rw [unseen upTo bound]
            rfl
    · exact sound

/-- The event that is read comes after what has been seen. -/
theorem seen_succ {file : OpenFile} {device : Device} {event : InputEvent}
    (opened : file.opened ≤ file.read) (next : device.history[file.read]? = some event) :
    file.seen device (file.read + 1) = file.seen device file.read ++ [event] := by
  have inside := (List.getElem?_eq_some_iff.mp next).1
  rw [OpenFile.seen, OpenFile.seen, List.take_add_one, next]
  exact List.drop_append_of_le_length (by rw [List.length_take]; omega)

theorem nextEvent_eq_some {s : State} {fd : Nat} {event : InputEvent}
    (next : s.nextEvent fd = some event) : ∃ file device, s.files fd = some file ∧
      s.devices[file.device]? = some device ∧ device.status ≠ .gone ∧
        device.history[file.read]? = some event := by
  rw [nextEvent] at next
  split at next
  · cases next
  · rename_i file isFile
    split at next
    · cases next
    · rename_i device isDevice
      split at next
      · cases next
      · rename_i present
        exact ⟨file, device, isFile, isDevice, present, next⟩

/-- An event goes to the flags of the pad that it is read from, and ends the pad's
silence exactly if it completes the chord. -/
theorem Own.readOne {s : State} {pad : AppPad} {file : OpenFile} {device : Device}
    (own : s.Own pad file device) {event : InputEvent} {fd : Nat} (isFd : pad.fd = fd)
    (next : device.history[file.read]? = some event) (isPad : s.pads[s.padIndex fd]? = some pad) :
    (s.readOne fd event).Own { pad with held := pad.held.after event }
      { file with read := file.read + 1 } device := by
  subst isFd
  have more := seen_succ own.opened next
  have held : pad.held.after event = heldAfter (file.seen device (file.read + 1)) := by
    rw [more, heldAfter_append, ← own.held]
  refine ⟨⟨?_, own.isDevice⟩, own.node, own.virtpad, Nat.le_succ_of_le own.opened,
    (List.getElem?_eq_some_iff.mp next).1, held, ?_⟩
  · simp only [State.readOne, setFile, if_true, own.isFile, Option.map_some]
  · intro unfired upTo bound
    simp only [State.readOne, Bool.or_eq_false_iff] at unfired
    by_cases isLast : upTo ≤ file.read
    · exact own.quiet unfired.1 upTo isLast
    · have isNext : upTo = file.read + 1 := by
        dsimp only at bound
        omega
      subst isNext
      show (heldAfter (file.seen device (file.read + 1))).both = false
      rw [← held]
      have silent := unfired.2
      rw [chord, isPad, Option.any_some, Bool.and_eq_false_iff, beq_eq_false_iff_ne] at silent
      rcases silent with otherType | apart
      · rw [Held.after, if_neg otherType, own.held]
        exact own.quiet unfired.1 file.read (Nat.le_refl _)
      · exact apart

theorem Sound.readOne {s : State} (sound : s.Sound) {fd : Nat} {event : InputEvent}
    (present : ∃ pad ∈ s.pads, pad.fd = fd) (next : s.nextEvent fd = some event) :
    (s.readOne fd event).Sound := by
  rcases padIndex_spec present with ⟨inside, isFd⟩
  rcases nextEvent_eq_some next with ⟨file, device, isFile, isDevice, _, isNext⟩
  let change := fun pad : AppPad => { pad with held := pad.held.after event }
  have keeps : (change s.pads[s.padIndex fd]).fd = s.pads[s.padIndex fd].fd := rfl
  have rows : ∀ pad, pad ∈ s.pads.modify (s.padIndex fd) change ↔
      pad = change s.pads[s.padIndex fd] ∨ pad ∈ s.pads ∧ pad.fd ≠ s.pads[s.padIndex fd].fd := fun _ =>
    mem_modify_iff inside keeps sound.distinct
  have isPad : s.pads[s.padIndex fd]? = some s.pads[s.padIndex fd] := List.getElem?_eq_getElem inside
  constructor
  · exact distinct_modify inside keeps sound.distinct
  · intro other isOpen
    have wasOpen : (s.files other).isSome = true := by
      by_cases same : other = fd
      · rw [same, isFile]
        rfl
      · dsimp only [State.readOne] at isOpen
        rw [setFile_of_ne same] at isOpen
        exact isOpen
    rcases sound.owned other wasOpen with ⟨pad, member, isOther⟩
    by_cases same : other = fd
    · exact ⟨change s.pads[s.padIndex fd], (rows _).mpr (.inl rfl), isFd.trans same.symm⟩
    · refine ⟨pad, (rows pad).mpr (.inr ⟨member, ?_⟩), isOther⟩
      rw [isFd, isOther]
      exact same
  · intro pad member
    rcases (rows pad).mp member with rfl | ⟨inPads, differs⟩
    · rcases sound.attached _ (List.getElem_mem inside) with ⟨ownFile, ownDevice, own⟩
      have sameFile : ownFile = file := by
        have both := own.isFile
        rw [isFd, isFile] at both
        exact (Option.some.inj both).symm
      subst sameFile
      have sameDevice : ownDevice = device :=
        Option.some.inj (own.isDevice.symm.trans isDevice)
      subst sameDevice
      exact ⟨_, _, own.readOne isFd isNext isPad⟩
    · rw [isFd] at differs
      rcases sound.attached pad inPads with ⟨ownFile, ownDevice, own⟩
      refine ⟨ownFile, ownDevice, own.of_same (setFile_of_ne differs _) rfl fun unfired => ?_⟩
      exact (Bool.or_eq_false_iff.mp unfired).1

theorem Sound.scanEntry {s : State} (sound : s.Sound) (resume : Resume) (may must : List Nat)
    (node : Nat) (opened : Option Nat) : (s.scanEntry resume may must node opened).Sound := by
  rw [State.scanEntry.eq_def]
  dsimp only
  split
  · exact sound.of_same rfl rfl rfl rfl
  · split
    · exact sound.of_same rfl rfl rfl rfl
    · split
      · exact sound.of_same rfl rfl rfl rfl
      · split
        · exact sound
        · rename_i unused
          exact (sound.addPad node (Bool.eq_false_iff.mpr unused)).of_same rfl rfl rfl rfl

theorem Sound.nextRevent {s : State} (sound : s.Sound) (revent : Revent) (todo : List Revent) :
    (s.nextRevent revent todo).Sound := by
  rw [State.nextRevent]
  split
  · split
    · exact sound.of_same rfl rfl rfl rfl
    · exact sound.of_same rfl rfl rfl rfl
  · split
    · exact sound.of_same rfl rfl rfl rfl
    · exact sound.of_same rfl rfl rfl rfl

theorem Sound.advance {s : State} (sound : s.Sound) : s.advance.Sound := by
  rw [State.advance]
  split
  · rw [check]
    split
    · exact sound.of_same rfl rfl rfl rfl
    · split
      · exact sound.of_same rfl rfl rfl rfl
      · exact sound.of_same rfl rfl rfl rfl
  · exact sound.of_same rfl rfl rfl rfl
  · exact sound.nextRevent _ _
  · split
    · exact sound.of_same rfl rfl rfl rfl
    · rename_i event next
      rcases nextEvent_eq_some next with ⟨file, _, isFile, _⟩
      have read := sound.readOne (sound.owned _ (by rw [isFile]; rfl)) next
      split
      · exact read.of_same rfl rfl rfl rfl
      · exact read
  · split
    · exact (sound.dropFd _).of_same rfl rfl rfl rfl
    · exact sound.of_same rfl rfl rfl rfl
  · exact sound

/-- Every step keeps each pad with its own events. -/
theorem sound_step {s : State} (sound : s.Sound) (label : Label) : (step s label).Sound := by
  by_cases outside : isOutside label = true
  · exact sound.outside (outside_step s outside)
  · cases label with
    | opendir ok =>
        rw [step]
        split
        · exact sound.of_same rfl rfl rfl rfl
        · exact sound
    | entry node opened =>
        rw [step]
        split
        · split
          · exact sound.scanEntry _ _ _ _ _
          · exact sound
        · exact sound
    | endOfDir =>
        rw [step]
        split
        · exact sound.of_same rfl rfl rfl rfl
        · exact sound
    | addWatch ok =>
        rw [step]
        split
        · split
          · exact sound.of_same rfl rfl rfl rfl
          · exact sound.of_same rfl rfl rfl rfl
        · exact sound
    | interrupt =>
        rw [step]
        split
        · exact sound.of_same rfl rfl rfl rfl
        · exact sound
    | advance => exact sound.advance
    | _ => exact absurd rfl outside

theorem sound_run (labels : List Label) : (run step State.initial labels).Sound :=
  run_invariant State.Sound (fun _ label sound => sound_step sound label) sound_initial labels

end State

end Zlyme.Pak
