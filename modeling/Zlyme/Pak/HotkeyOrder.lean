import Zlyme.Pak.HotkeyPads

/-! # The order of a batch

The folder comes first in `pf` and each open descriptor once after it, so that a scan
is over before a descriptor is closed, and no entry reaches a descriptor that was
opened later.
-/

namespace Zlyme.Pak

open Foundation.Execution
open Foundation.KeyedRows

namespace State

/-! ## Entries to come -/

/-- The device behind a descriptor is gone. -/
def Gone (s : State) (fd : Nat) : Prop :=
  ∀ file, s.files fd = some file →
    ∃ device, s.devices[file.device]? = some device ∧ device.status = .gone

/-- Entries of distinct descriptors that are open, hung up only for a device that is
gone. -/
structure Queued (s : State) (todo : List Revent) : Prop where
  distinct : (todo.map Revent.source).Nodup
  isOpen : ∀ revent ∈ todo, ∀ fd, revent.source = .pad fd → ∃ pad ∈ s.pads, pad.fd = fd
  gone : ∀ revent ∈ todo, ∀ fd, revent.source = .pad fd → revent.hangup = true → s.Gone fd

def PadsOnly (todo : List Revent) : Prop :=
  ∀ revent ∈ todo, revent.source ≠ .inotify

/-- What a scan returns to. -/
def Resumes (s : State) : Resume → Prop
  | .watch => s.fire = false ∧ s.told = []
  | .batch todo => s.Queued todo ∧ PadsOnly todo ∧ s.fire = false

def InOrder (s : State) : Prop :=
  match s.phase.core with
  | .opening resume => s.Resumes resume
  | .scanning resume _ _ => s.Resumes resume
  | .watching => s.Resumes .watch
  | .polling results =>
      s.Queued results ∧ results.map Revent.source = s.sources.take results.length ∧ s.fire = false
  | .batch todo => s.Queued todo ∧ PadsOnly todo.tail ∧ (s.fire = true → PadsOnly todo)
  | .reading fd hangup todo => s.Queued (⟨.pad fd, false, hangup⟩ :: todo) ∧ PadsOnly todo
  | .leaving fd hangup todo => s.Queued (⟨.pad fd, false, hangup⟩ :: todo) ∧ PadsOnly todo
  | .stopped => True

theorem queued_nil (s : State) : s.Queued [] :=
  ⟨List.nodup_nil, nofun, nofun⟩

/-- Entries stay queued while their descriptors stay open and those that are gone
stay gone. -/
theorem Queued.of_keeps {s t : State} {todo : List Revent} (queued : s.Queued todo)
    (stays : ∀ revent ∈ todo, ∀ fd, revent.source = .pad fd → (∃ pad ∈ s.pads, pad.fd = fd) →
      (∃ pad ∈ t.pads, pad.fd = fd) ∧ (s.Gone fd → t.Gone fd)) : t.Queued todo where
  distinct := queued.distinct
  isOpen revent member fd isFd := (stays revent member fd isFd (queued.isOpen revent member fd isFd)).1
  gone revent member fd isFd hung :=
    (stays revent member fd isFd (queued.isOpen revent member fd isFd)).2
      (queued.gone revent member fd isFd hung)

theorem Queued.of_same {s t : State} {todo : List Revent} (queued : s.Queued todo)
    (files : t.files = s.files) (devices : t.devices = s.devices) (pads : t.pads = s.pads) :
    t.Queued todo := by
  apply queued.of_keeps
  intro _ _ fd _ present
  refine ⟨pads ▸ present, fun gone file isFile => ?_⟩
  rw [files] at isFile
  rw [devices]
  exact gone file isFile

theorem Queued.tail {s : State} {revent : Revent} {todo : List Revent}
    (queued : s.Queued (revent :: todo)) : s.Queued todo where
  distinct := (List.nodup_cons.mp queued.distinct).2
  isOpen other member := queued.isOpen other (List.mem_cons_of_mem _ member)
  gone other member := queued.gone other (List.mem_cons_of_mem _ member)

/-- Only the source and the hangup of an entry matter. -/
theorem Queued.head {s : State} {revent other : Revent} {todo : List Revent}
    (queued : s.Queued (revent :: todo)) (source : other.source = revent.source)
    (hangup : other.hangup = revent.hangup) : s.Queued (other :: todo) where
  distinct := by
    rw [List.map_cons, source]
    exact queued.distinct
  isOpen := by
    intro entry member fd isFd
    rcases List.mem_cons.mp member with rfl | later
    · exact queued.isOpen revent List.mem_cons_self fd (source ▸ isFd)
    · exact queued.isOpen entry (List.mem_cons_of_mem _ later) fd isFd
  gone := by
    intro entry member fd isFd hung
    rcases List.mem_cons.mp member with rfl | later
    · exact queued.gone revent List.mem_cons_self fd (source ▸ isFd) (hangup ▸ hung)
    · exact queued.gone entry (List.mem_cons_of_mem _ later) fd isFd hung

theorem Queued.outside {s t : State} {todo : List Revent} (queued : s.Queued todo)
    (outside : s.Outside t) : t.Queued todo := by
  apply queued.of_keeps
  intro _ _ fd _ present
  refine ⟨outside.pads ▸ present, fun gone file isFile => ?_⟩
  rw [outside.files] at isFile
  rcases gone file isFile with ⟨device, isDevice, isGone⟩
  rcases outside.grows file.device device isDevice with ⟨later, isLater, grown⟩
  exact ⟨later, isLater, grown.gone isGone⟩

theorem Queued.addPad {s : State} {todo : List Revent} (sound : s.Sound) (queued : s.Queued todo)
    (node : Nat) {fd : Nat} (unused : (s.files fd).isSome = false) : (s.addPad node fd).Queued todo := by
  rw [State.addPad]
  split
  · exact queued
  · split
    · exact queued
    · split
      · apply queued.of_keeps
        rintro _ _ other _ ⟨pad, member, isOther⟩
        have differs : other ≠ fd := isOther ▸ sound.fresh unused pad member
        refine ⟨⟨pad, List.mem_append_left _ member, isOther⟩, fun gone file isFile => ?_⟩
        dsimp only at isFile
        rw [setFile_of_ne differs] at isFile
        exact gone file isFile
      · exact queued

theorem Queued.readOne {s : State} {todo : List Revent} (queued : s.Queued todo) {fd : Nat}
    (event : InputEvent) (present : ∃ pad ∈ s.pads, pad.fd = fd) : (s.readOne fd event).Queued todo := by
  rcases padIndex_spec present with ⟨inside, _⟩
  have sameFds : (s.readOne fd event).pads.map AppPad.fd = s.pads.map AppPad.fd :=
    map_key_modify inside rfl
  apply queued.of_keeps
  intro _ _ other _ isOpen
  constructor
  · have member : other ∈ s.pads.map AppPad.fd := List.mem_map.mpr isOpen
    rw [← sameFds] at member
    exact List.mem_map.mp member
  · intro gone file isFile
    by_cases same : other = fd
    · subst same
      simp only [State.readOne, setFile, if_true, Option.map_eq_some_iff] at isFile
      rcases isFile with ⟨before, isBefore, rfl⟩
      exact gone before isBefore
    · simp only [State.readOne] at isFile
      rw [setFile_of_ne same] at isFile
      exact gone file isFile

/-- The descriptor that is closed is not among the entries to come. -/
theorem Queued.dropFd {s : State} (sound : s.Sound) {revent : Revent} {todo : List Revent} {fd : Nat}
    (queued : s.Queued (revent :: todo)) (isFd : revent.source = .pad fd) :
    (s.dropFd fd).Queued todo := by
  rw [State.dropFd]
  split
  · rename_i present
    rcases padIndex_spec (any_fd_iff.mp present) with ⟨inside, isIndex⟩
    apply queued.tail.of_keeps
    rintro entry member other isOther ⟨pad, isPad, padFd⟩
    have differs : other ≠ fd := by
      rintro rfl
      have notLater := (List.nodup_cons.mp queued.distinct).1
      rw [isFd, ← isOther] at notLater
      exact notLater (List.mem_map_of_mem member)
    refine ⟨⟨pad, (mem_swapRemove sound.distinct inside).mpr ⟨isPad, ?_⟩, padFd⟩, fun gone file isFile => ?_⟩
    · rw [isIndex, padFd]
      exact differs
    · dsimp only at isFile
      rw [setFile_of_ne differs] at isFile
      exact gone file isFile
  · exact queued.tail

/-! ## The steps -/

theorem Resumes.outside {s t : State} {resume : Resume} (resumes : s.Resumes resume)
    (outside : s.Outside t) : t.Resumes resume := by
  cases resume with
  | watch => exact ⟨outside.fire.trans resumes.1, outside.told.trans resumes.2⟩
  | batch todo => exact ⟨resumes.1.outside outside, resumes.2.1, outside.fire.trans resumes.2.2⟩

theorem InOrder.outside {s t : State} (inOrder : s.InOrder) (outside : s.Outside t) : t.InOrder := by
  rw [InOrder] at inOrder ⊢
  rw [outside.core]
  split at inOrder
  · exact inOrder.outside outside
  · exact inOrder.outside outside
  · exact inOrder.outside outside
  · refine ⟨inOrder.1.outside outside, ?_, outside.fire.trans inOrder.2.2⟩
    rw [inOrder.2.1, sources, sources, outside.watched, outside.pads]
  · exact ⟨inOrder.1.outside outside, inOrder.2.1, fun fires => inOrder.2.2 (outside.fire ▸ fires)⟩
  · exact ⟨inOrder.1.outside outside, inOrder.2⟩
  · exact ⟨inOrder.1.outside outside, inOrder.2⟩
  · trivial

theorem inOrder_initial : initial.InOrder :=
  ⟨rfl, rfl⟩

theorem inOrder_loopTop (s : State) : s.loopTop.InOrder := by
  rw [InOrder, loopTop]
  cases ends : s.fire || s.sources.isEmpty with
  | true => trivial
  | false => exact ⟨queued_nil _, rfl, (Bool.or_eq_false_iff.mp ends).1⟩

/-- After a scan the program goes on as it would have without it. -/
theorem Resumes.inOrder {s : State} {resume : Resume} (resumes : s.Resumes resume)
    (isPhase : s.phase = resume.phase) : s.InOrder := by
  rw [InOrder, isPhase]
  cases resume with
  | watch => exact resumes
  | batch todo =>
      exact ⟨resumes.1, fun revent member => resumes.2.1 revent (List.mem_of_mem_tail member), fun _ =>
        resumes.2.1⟩

theorem Resumes.of_same {s t : State} {resume : Resume} (resumes : s.Resumes resume)
    (files : t.files = s.files) (devices : t.devices = s.devices) (pads : t.pads = s.pads)
    (fire : t.fire = s.fire) (told : t.told = s.told) : t.Resumes resume := by
  cases resume with
  | watch => exact ⟨fire.trans resumes.1, told.trans resumes.2⟩
  | batch todo => exact ⟨resumes.1.of_same files devices pads, resumes.2.1, fire.trans resumes.2.2⟩

theorem addPad_fire (s : State) (node fd : Nat) :
    (s.addPad node fd).fire = s.fire ∧ (s.addPad node fd).told = s.told := by
  rw [addPad]
  split
  · exact ⟨rfl, rfl⟩
  · split
    · exact ⟨rfl, rfl⟩
    · split
      · exact ⟨rfl, rfl⟩
      · exact ⟨rfl, rfl⟩

theorem Resumes.addPad {s : State} {resume : Resume} (sound : s.Sound) (resumes : s.Resumes resume)
    (node : Nat) {fd : Nat} (unused : (s.files fd).isSome = false) :
    (s.addPad node fd).Resumes resume := by
  have same := addPad_fire s node fd
  cases resume with
  | watch => exact ⟨same.1.trans resumes.1, same.2.trans resumes.2⟩
  | batch todo =>
      exact ⟨resumes.1.addPad sound node unused, resumes.2.1, same.1.trans resumes.2.2⟩

theorem inOrder_scanEntry {s : State} (sound : s.Sound) {resume : Resume} (resumes : s.Resumes resume)
    (inOrder : s.InOrder) (may must : List Nat) (node : Nat) (opened : Option Nat) :
    (s.scanEntry resume may must node opened).InOrder := by
  rw [State.scanEntry.eq_def]
  dsimp only
  split
  · exact resumes.of_same rfl rfl rfl rfl rfl
  · split
    · have back : Resumes { s with phase := resume.phase } resume :=
        resumes.of_same rfl rfl rfl rfl rfl
      exact back.inOrder rfl
    · split
      · exact resumes.of_same rfl rfl rfl rfl rfl
      · split
        · exact inOrder
        · rename_i unused
          exact (resumes.addPad sound node (Bool.eq_false_iff.mpr unused)).of_same rfl rfl rfl rfl rfl

theorem sources_nodup {s : State} (sound : s.Sound) : s.sources.Nodup := by
  have pads : (s.pads.map fun pad => Source.pad pad.fd).Nodup := by
    have fds := sound.distinct
    rw [Distinct] at fds
    have mapped := fds.map (f := Source.pad) fun _ _ same => Source.pad.inj same
    rw [List.map_map] at mapped
    exact mapped
  rw [sources]
  split
  · rw [List.singleton_append, List.nodup_cons]
    exact ⟨by simp, pads⟩
  · exact pads

theorem mem_sources {s : State} {fd : Nat} (member : .pad fd ∈ s.sources) : ∃ pad ∈ s.pads, pad.fd = fd := by
  rw [sources, List.mem_append] at member
  rcases member with isWatch | isPad
  · split at isWatch
    · cases List.mem_singleton.mp isWatch
    · cases isWatch
  · simpa using isPad

theorem padsOnly_tail_sources {s : State} {results : List Revent}
    (whole : results.map Revent.source = s.sources) : PadsOnly results.tail := by
  intro revent member isWatch
  have inTail : Source.inotify ∈ s.sources.tail := by
    rw [← whole, ← List.map_tail, ← isWatch]
    exact List.mem_map_of_mem member
  rw [sources] at inTail
  split at inTail
  · simp at inTail
  · have inSources := List.mem_of_mem_tail inTail
    simp at inSources

theorem lookAt_source (s : State) (source : Source) : (s.lookAt source).source = source := by
  unfold lookAt
  split
  · rfl
  · split
    · rfl
    · split
      · rfl
      · rfl

theorem gone_of_hangup {s : State} {fd : Nat} (hung : (s.lookAt (.pad fd)).hangup = true) : s.Gone fd := by
  intro file isFile
  simp only [lookAt, isFile] at hung
  split at hung
  · cases hung
  · rename_i device isDevice
    exact ⟨device, isDevice, beq_iff_eq.mp hung⟩

theorem inOrder_check {s : State} (sound : s.Sound) {results : List Revent} (queued : s.Queued results)
    (seen : results.map Revent.source = s.sources.take results.length) (unfired : s.fire = false) :
    (s.check results).InOrder := by
  rw [check]
  split
  · rename_i source next
    have more : (results ++ [s.lookAt source]).map Revent.source = s.sources.take (results.length + 1) := by
      rw [List.map_append, seen, List.take_add_one, next, List.map_singleton, lookAt_source]
      rfl
    refine ⟨⟨?_, ?_, ?_⟩, ?_, unfired⟩
    · rw [more]
      exact (sources_nodup sound).sublist (List.take_sublist _ _)
    · intro revent member fd isFd
      rcases List.mem_append.mp member with before | isNew
      · exact queued.isOpen revent before fd isFd
      · cases List.mem_singleton.mp isNew
        rw [lookAt_source] at isFd
        subst isFd
        exact mem_sources (List.mem_of_getElem? next)
    · intro revent member fd isFd hung
      rcases List.mem_append.mp member with before | isNew
      · exact queued.gone revent before fd isFd hung
      · cases List.mem_singleton.mp isNew
        rw [lookAt_source] at isFd
        subst isFd
        exact gone_of_hangup hung
    · rw [more, List.length_append, List.length_singleton]
      rfl
  · rename_i atEnd
    have whole : results.map Revent.source = s.sources := by
      rw [seen]
      exact List.take_of_length_le (List.getElem?_eq_none_iff.mp atEnd)
    split
    · exact ⟨queued.of_same rfl rfl rfl, padsOnly_tail_sources whole, fun fires =>
        absurd (fires.symm.trans unfired) (by decide)⟩
    · exact ⟨queued_nil _, rfl, unfired⟩

theorem inOrder_nextRevent {s : State} {revent : Revent} {todo : List Revent}
    (queued : s.Queued (revent :: todo)) (padsOnly : PadsOnly todo)
    (scans : s.fire = true → PadsOnly (revent :: todo)) : (s.nextRevent revent todo).InOrder := by
  have later : State.InOrder { s with phase := .batch todo } :=
    ⟨queued.tail.of_same rfl rfl rfl, fun other member => padsOnly other (List.mem_of_mem_tail member),
      fun _ => padsOnly⟩
  rw [nextRevent]
  split
  · rename_i isWatch
    split
    · have unfired : s.fire = false := by
        by_contra fires
        exact scans (Bool.not_eq_false _ ▸ fires) revent List.mem_cons_self isWatch
      exact ⟨queued.tail.of_same rfl rfl rfl, padsOnly, unfired⟩
    · exact later
  · rename_i fd isFd
    split
    · have atPad : State.Queued s (⟨.pad fd, false, revent.hangup⟩ :: todo) :=
        queued.head isFd.symm rfl
      split
      · exact ⟨atPad.of_same rfl rfl rfl, padsOnly⟩
      · exact ⟨atPad.of_same rfl rfl rfl, padsOnly⟩
    · exact later

theorem inOrder_reading {s : State} (sound : s.Sound) {fd : Nat} {hangup : Bool} {todo : List Revent}
    (isPhase : s.phase = .reading fd hangup todo)
    (queued : s.Queued (⟨.pad fd, false, hangup⟩ :: todo)) (padsOnly : PadsOnly todo) :
    s.advance.InOrder := by
  rw [advance, isPhase]
  dsimp only
  split
  · exact ⟨queued.of_same rfl rfl rfl, padsOnly⟩
  · rename_i event next
    rcases nextEvent_eq_some next with ⟨file, _, isFile, _⟩
    have read := queued.readOne event (sound.owned _ (by rw [isFile]; rfl))
    split
    · exact ⟨read.of_same rfl rfl rfl, padsOnly⟩
    · rw [InOrder, show (s.readOne fd event).phase = .reading fd hangup todo from isPhase]
      exact ⟨read, padsOnly⟩

theorem inOrder_leaving {s : State} (sound : s.Sound) {fd : Nat} {hangup : Bool} {todo : List Revent}
    (isPhase : s.phase = .leaving fd hangup todo)
    (queued : s.Queued (⟨.pad fd, false, hangup⟩ :: todo)) (padsOnly : PadsOnly todo) :
    s.advance.InOrder := by
  have rest : PadsOnly todo.tail := fun other member => padsOnly other (List.mem_of_mem_tail member)
  rw [advance, isPhase]
  dsimp only
  split
  · exact ⟨(queued.dropFd sound rfl).of_same rfl rfl rfl, rest, fun _ => padsOnly⟩
  · exact ⟨queued.tail.of_same rfl rfl rfl, rest, fun _ => padsOnly⟩

theorem inOrder_advance {s : State} (sound : s.Sound) (inOrder : s.InOrder) : s.advance.InOrder := by
  have isOrder := inOrder
  rw [InOrder] at isOrder
  cases isPhase : s.phase with
  | polling results =>
      rw [isPhase] at isOrder
      rw [advance, isPhase]
      exact inOrder_check sound isOrder.1 isOrder.2.1 isOrder.2.2
  | batch todo =>
      rw [isPhase] at isOrder
      rw [advance, isPhase]
      cases todo with
      | nil => exact inOrder_loopTop s
      | cons revent todo => exact inOrder_nextRevent isOrder.1 isOrder.2.1 isOrder.2.2
  | reading fd hangup todo =>
      rw [isPhase] at isOrder
      exact inOrder_reading sound isPhase isOrder.1 isOrder.2
  | leaving fd hangup todo =>
      rw [isPhase] at isOrder
      exact inOrder_leaving sound isPhase isOrder.1 isOrder.2
  | _ =>
      rw [advance, isPhase]
      exact inOrder

theorem inOrder_step {s : State} (sound : s.Sound) (inOrder : s.InOrder) (label : Label) :
    (step s label).InOrder := by
  have isOrder := inOrder
  rw [InOrder] at isOrder
  by_cases outside : isOutside label = true
  · exact inOrder.outside (outside_step s outside)
  · cases label with
    | opendir ok =>
        rw [step]
        split
        · rename_i resume isPhase
          rw [isPhase] at isOrder
          cases ok with
          | true => exact Resumes.of_same isOrder rfl rfl rfl rfl rfl
          | false =>
              have back : Resumes { s with phase := resume.phase } resume :=
                Resumes.of_same isOrder rfl rfl rfl rfl rfl
              exact back.inOrder rfl
        · exact inOrder
    | entry node opened =>
        rw [step]
        split
        · rename_i resume may must isPhase
          rw [isPhase] at isOrder
          split
          · exact inOrder_scanEntry sound isOrder inOrder may must node opened
          · exact inOrder
        · exact inOrder
    | endOfDir =>
        rw [step]
        split
        · rename_i resume may isPhase
          rw [isPhase] at isOrder
          have back : Resumes { s with phase := resume.phase } resume :=
            Resumes.of_same isOrder rfl rfl rfl rfl rfl
          exact back.inOrder rfl
        · exact inOrder
    | addWatch ok =>
        rw [step]
        split
        · rename_i isPhase
          rw [isPhase] at isOrder
          split
          · refine ⟨queued_nil _, ?_, isOrder.1⟩
            intro event told
            cases told
          · exact inOrder_loopTop s
        · exact inOrder
    | interrupt =>
        rw [step]
        split
        · exact inOrder_loopTop s
        · exact inOrder
    | advance => exact inOrder_advance sound inOrder
    | _ => exact absurd rfl outside

theorem reached (labels : List Label) :
    (run step initial labels).Sound ∧ (run step initial labels).InOrder :=
  run_invariant (fun s : State => s.Sound ∧ s.InOrder)
    (fun _ label holds => ⟨sound_step holds.1 label, inOrder_step holds.1 holds.2 label⟩)
    ⟨sound_initial, inOrder_initial⟩ labels

end State

end Zlyme.Pak
