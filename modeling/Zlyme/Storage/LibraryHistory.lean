import Zlyme.Storage.LibraryList

/-! # The list through all commands

What one command does to the mounts, and when the list is exact after all of them.
-/

namespace Zlyme.Storage

open Foundation Foundation.Decimal Foundation.Text Foundation.Execution
open Portmaster (Text ascii decode)

/-! ## The names that are chosen -/

theorem trByte_ne_newline (byte : UInt8) : trByte byte ≠ 0x0a := by
  rw [trByte]
  split
  · decide
  · rename_i printed
    rintro rfl
    exact printed (by decide)

theorem AddCall.name_ne_newline (call : AddCall) : 0x0a ∉ call.name :=
  fun inside => (call.named.2.2 _ inside).2 rfl

theorem mediaComponent_unbroken (call : AddCall) :
    0x0a ∉ mediaComponent call.label call.name := by
  have fromLabel : 0x0a ∉ ((call.label.map trByte).dropWhile isSpace).rdropWhile isSpace := by
    intro inside
    have inner := (List.rdropWhile_prefix isSpace _).subset inside
    have member := (List.dropWhile_suffix isSpace).subset inner
    rcases List.mem_map.mp member with ⟨byte, _, same⟩
    exact trByte_ne_newline byte same
  have name := call.name_ne_newline
  unfold mediaComponent
  grind

theorem mediaComponent_ne_nil (call : AddCall) : mediaComponent call.label call.name ≠ [] := by
  have name := call.named.1
  unfold mediaComponent
  grind

/-- What a chosen name is made of. -/
theorem chooseMountpoint_cases {mounts : List Mount} {comp dev name rest : Text}
    (chosen : chooseMountpoint mounts comp dev name = some rest) :
    isFree mounts (childPath rest) dev = true ∧ (rest = comp ∨ rest = comp ++ 0x2d :: name) := by
  rw [chooseMountpoint] at chosen
  split at chosen
  · rename_i free
    cases chosen
    exact ⟨free, .inl rfl⟩
  · split at chosen
    · rename_i free
      cases chosen
      exact ⟨free, .inr rfl⟩
    · cases chosen

/-! ## What one add can do -/

def refused (rest : Text) : Bool :=
  rest.contains 0x2f || rest == ascii "." || rest == ascii ".."

/-- The name under `$MEDIA` at which an add mounts its volume. -/
def AddCall.target (call : AddCall) (library : Library) : Option Text :=
  if call.skipped library.mounts || mountsHasSource library.mounts call.dev || !call.probed ||
      !call.settles || (call.secondary && !mountsHas library.mounts sd2) then none
  else
    (chooseMountpoint library.mounts (mediaComponent call.label call.name) call.dev
      call.name).filter fun rest => !refused rest

/-- The add mounts its volume under a name that begins with a dot. -/
def AddCall.Hides (call : AddCall) (library : Library) : Prop :=
  ∃ rest, call.target library = some rest ∧ rest.head? = some 0x2e

def AddCall.writes (call : AddCall) (library : Library) : Bool :=
  !call.skipped library.mounts && (mountsHasSource library.mounts call.dev || call.probed)

/-- What an add can leave behind, before it writes the list. -/
inductive Placed (library : Library) (call : AddCall) : Library → Prop
  | unchanged (untargeted : call.target library = none) : Placed library call library
  | directory (rest : Text) (untargeted : call.target library = none) (isName : IsName rest) :
      Placed library call (library.makeDir rest)
  | second (untargeted : call.target library = none) (free : ¬Mounted library.mounts sd2) :
      Placed library call { library with mounts := library.mounts ++ [call.mount sd2] }
  | child (rest : Text) (targeted : call.target library = some rest) (isName : IsName rest)
      (unbroken : 0x0a ∉ rest) (free : isFree library.mounts (childPath rest) call.dev = true)
      (fresh : mountsHasSource library.mounts call.dev = false) :
      Placed library call { library.makeDir rest with
        mounts := library.mounts ++ [call.mount (childPath rest)] }

theorem chosen_isName {library : Library} {call : AddCall} {rest : Text}
    (chosen : chooseMountpoint library.mounts (mediaComponent call.label call.name) call.dev
      call.name = some rest) (accepted : refused rest = false) : IsName rest ∧ 0x0a ∉ rest := by
  have slashFree : 0x2f ∉ rest := by
    simpa [refused] using (Bool.or_eq_false_iff.mp (Bool.or_eq_false_iff.mp accepted).1).1
  have unbroken := mediaComponent_unbroken call
  have nonempty := mediaComponent_ne_nil call
  rcases (chooseMountpoint_cases chosen).2 with rfl | rfl
  · exact ⟨⟨nonempty, slashFree⟩, unbroken⟩
  · refine ⟨⟨by simp, slashFree⟩, ?_⟩
    rw [List.mem_append, List.mem_cons, not_or, not_or]
    exact ⟨unbroken, by decide, call.name_ne_newline⟩

theorem placeVolume_placed {library : Library} {call : AddCall}
    (admitted : call.skipped library.mounts = false)
    (fresh : mountsHasSource library.mounts call.dev = false) (probed : call.probed = true) :
    Placed library call (library.placeVolume call) := by
  have target : call.target library =
      if !call.settles || (call.secondary && !mountsHas library.mounts sd2) then none
      else (chooseMountpoint library.mounts (mediaComponent call.label call.name) call.dev
        call.name).filter fun rest => !refused rest := by
    rw [AddCall.target, admitted, fresh, probed]
    rfl
  rw [Library.placeVolume]
  split
  · rename_i secondary
    rw [secondary, Bool.or_true, if_pos rfl] at target
    rw [Library.settleAt]
    split
    · have free : mountsHas library.mounts sd2 = false := by
        simpa using (Bool.and_eq_true_iff.mp secondary).2
      exact .second target fun mounted => Bool.false_ne_true (free ▸ mountsHas_iff.mpr mounted)
    · exact .unchanged target
  · rename_i other
    rw [Bool.eq_false_of_not_eq_true other, Bool.or_false] at target
    split
    · rename_i busy
      rw [busy, Option.filter_none, ite_self] at target
      exact .unchanged target
    · rename_i rest chosen
      rw [chosen] at target
      change Placed library call (if refused rest then library else _)
      split
      · rename_i refusal
        exact .unchanged (by simp [target, Option.filter_some, refusal])
      · rename_i accepted
        have accepted := Bool.eq_false_of_not_eq_true accepted
        have named := chosen_isName chosen accepted
        rw [Library.settleAt]
        split
        · rename_i settles
          have targeted : call.target library = some rest := by
            simp [target, Option.filter_some, accepted, settles]
          exact .child rest targeted named.1 named.2 (chooseMountpoint_cases chosen).1 fresh
        · rename_i unsettled
          have unsettled := Bool.eq_false_of_not_eq_true unsettled
          exact .directory rest (by simp [target, unsettled]) named.1

/-- An add either does nothing, or leaves one of the four states and writes the list. -/
theorem addDev_cases (library : Library) (call : AddCall) :
    (call.writes library = false ∧ call.target library = none ∧ library.addDev call = library) ∨
      (call.writes library = true ∧ ∃ placed, Placed library call placed ∧
        library.addDev call = placed.writeLibraries) := by
  rw [Library.addDev, AddCall.writes]
  split
  · rename_i skipped
    exact .inl ⟨by rw [skipped]; rfl, by rw [AddCall.target, skipped]; rfl, rfl⟩
  · rename_i admitted
    have admitted := Bool.eq_false_of_not_eq_true admitted
    split
    · rename_i known
      refine .inr ⟨by rw [admitted, known]; rfl, library, .unchanged ?_, rfl⟩
      rw [AddCall.target, known]
      simp
    · rename_i fresh
      have fresh := Bool.eq_false_of_not_eq_true fresh
      split
      · rename_i probed
        exact .inr ⟨by rw [admitted, probed]; simp, _, placeVolume_placed admitted fresh probed, rfl⟩
      · rename_i unprobed
        have unprobed := Bool.eq_false_of_not_eq_true unprobed
        refine .inl ⟨by rw [fresh, unprobed]; simp, ?_, rfl⟩
        rw [AddCall.target, unprobed]
        simp

/-! ## Mounting -/

theorem mounted_append {mounts : List Mount} {mount : Mount} {path : Text} :
    Mounted (mounts ++ [mount]) path ↔ Mounted mounts path ∨ mount.path = path := by
  simp [Mounted, or_and_right, exists_or]

theorem atPath_append (mounts : List Mount) (mount : Mount) (path : Text) :
    (atPath (mounts ++ [mount]) path).length =
      (atPath mounts path).length + if mount.path = path then 1 else 0 := by
  rw [atPath, List.filter_append, List.length_append]
  split
  · rename_i here
    simp [atPath, here]
  · rename_i elsewhere
    simp [atPath, elsewhere]

theorem atPath_length_of_not_mounted {mounts : List Mount} {path : Text}
    (free : ¬Mounted mounts path) : (atPath mounts path).length = 0 := by
  have empty : atPath mounts path = [] := by
    by_contra some
    exact free (mounted_iff_atPath.mpr some)
  rw [empty, List.length_nil]

namespace Library

variable {library : Library}

/-- A free place of an unmounted device is not a mountpoint. -/
theorem Ok.not_mounted (ok : library.Ok) {path dev : Text} (isPlace : IsPlace path)
    (free : isFree library.mounts path dev = true)
    (fresh : mountsHasSource library.mounts dev = false) : ¬Mounted library.mounts path := by
  rintro ⟨mount, member, isThere⟩
  have has : (library.mounts.find? fun mount => decode mount.shownPath == path).isSome := by
    rw [List.find?_isSome]
    exact ⟨mount, member, by simp [Mount.shownPath, isThere]⟩
  rcases Option.isSome_iff_exists.mp has with ⟨found, isFound⟩
  have foundMember := List.mem_of_find?_eq_some isFound
  have foundThere : found.path = path := by
    simpa [Mount.shownPath] using List.find?_some isFound
  have source : mountsSource library.mounts path = found.source := by
    simp [mountsSource, isFound, Mount.shownSource]
  rw [isFree, source, Bool.or_eq_true, List.isEmpty_iff, beq_iff_eq] at free
  rcases free with empty | same
  · exact ok.owned found foundMember (foundThere ▸ isPlace) empty
  · rw [mountsHasSource, List.any_eq_false] at fresh
    exact fresh found foundMember (by simp [Mount.shownSource, same])

theorem Ok.makeDir (ok : library.Ok) {name : Text} (isName : IsName name) :
    (library.makeDir name).Ok where
  distinct := by
    rw [Library.makeDir]
    split
    · exact ok.distinct
    · rename_i absent
      exact List.nodup_append.mpr ⟨ok.distinct, List.nodup_singleton name, by
        rintro entry member other isNew rfl
        exact absent (List.mem_singleton.mp isNew ▸ member)⟩
  named := by
    intro entry member
    rw [Library.makeDir] at member
    split at member
    · exact ok.named entry member
    · rcases List.mem_append.mp member with old | isNew
      · exact ok.named entry old
      · exact List.mem_singleton.mp isNew ▸ isName
  single := ok.single
  entered := by
    intro entry isEntry mounted
    rcases ok.entered entry isEntry mounted with ⟨member, unbroken⟩
    refine ⟨?_, unbroken⟩
    rw [Library.makeDir]
    split
    · exact member
    · exact List.mem_append_left _ member
  owned := ok.owned

theorem mem_makeDir (name : Text) : name ∈ (library.makeDir name).entries := by
  rw [Library.makeDir]
  split
  · assumption
  · exact List.mem_append_right _ (List.mem_singleton_self name)

/-- A volume may be mounted at a free place that has its directory. -/
theorem Ok.attach (ok : library.Ok) (call : AddCall) {path : Text}
    (free : ¬Mounted library.mounts path)
    (hasDir : ∀ name, path = childPath name → name ∈ library.entries ∧ 0x0a ∉ name) :
    Ok { library with mounts := library.mounts ++ [call.mount path] } where
  distinct := ok.distinct
  named := ok.named
  single := by
    intro other isPlace
    rw [atPath_append]
    split
    · rename_i here
      change path = other at here
      subst here
      rw [atPath_length_of_not_mounted free]
    · exact ok.single other isPlace
  entered := by
    intro name isName mounted
    rcases mounted_append.mp mounted with old | here
    · exact ok.entered name isName old
    · exact hasDir name here
  owned := by
    intro mount member isPlace
    rcases List.mem_append.mp member with old | isNew
    · exact ok.owned mount old isPlace
    · rw [List.mem_singleton.mp isNew]
      exact List.cons_ne_nil _ _

theorem Ok.detach (ok : library.Ok) (path : Text) :
    Ok { library with mounts := Storage.detach library.mounts path } where
  distinct := ok.distinct
  named := ok.named
  single := by
    intro other isPlace
    rw [atPath_detach]
    exact (Nat.sub_le _ _).trans (ok.single other isPlace)
  entered := fun name isName mounted => ok.entered name isName mounted.of_detach
  owned := fun mount member isPlace => ok.owned mount (mem_of_mem_detach member) isPlace

theorem Ok.detachAll (ok : library.Ok) (paths : List Text) :
    Ok { library with mounts := paths.foldl Storage.detach library.mounts } := by
  induction paths generalizing library with
  | nil => exact ok
  | cons path rest induction => exact induction (ok.detach path)

end Library

theorem Mounted.of_detachAll {paths : List Text} {mounts : List Mount} {path : Text}
    (mounted : Mounted (paths.foldl detach mounts) path) : Mounted mounts path := by
  induction paths generalizing mounts with
  | nil => exact mounted
  | cons first rest induction => exact (induction mounted).of_detach

/-- One `umount` is enough for a place with one mount. -/
theorem not_mounted_detachAll {paths : List Text} {mounts : List Mount} {path : Text}
    (single : (atPath mounts path).length ≤ 1) (member : path ∈ paths) :
    ¬Mounted (paths.foldl detach mounts) path := by
  induction paths generalizing mounts with
  | nil => cases member
  | cons first rest induction =>
      have less := atPath_detach mounts first path
      by_cases here : path = first
      · rw [if_pos here] at less
        intro mounted
        change Mounted (rest.foldl detach (detach mounts first)) path at mounted
        have inside := mounted_iff_atPath.mp mounted.of_detachAll
        rw [← List.length_pos_iff] at inside
        omega
      · rw [if_neg here] at less
        rcases List.mem_cons.mp member with same | later
        · exact absurd same here
        · exact induction (by omega) later

/-! ## One command -/

/-- The run writes the list, whatever is in it. -/
def Command.writes (library : Library) : Command → Bool
  | .add call => call.writes library
  | .remove name => !(mountsTargetOf library.mounts (devPath name)).isEmpty
  | .start _ | .eject => true

/-- No add of the run mounts a volume under a name that begins with a dot. -/
def Command.Visible (library : Library) : Command → Prop
  | .add call => ¬call.Hides library
  | .start calls => Along Library.addDev (fun library call => ¬call.Hides library) library calls
  | .remove _ | .eject => True

namespace Library

variable {library : Library}

theorem Ok.write (ok : library.Ok) : library.writeLibraries.Ok where
  distinct := ok.distinct
  named := ok.named
  single := ok.single
  entered := ok.entered
  owned := ok.owned

theorem Ok.placed (ok : library.Ok) {call : AddCall} {placed : Library}
    (isPlaced : Placed library call placed) : placed.Ok := by
  cases isPlaced with
  | unchanged => exact ok
  | directory rest _ isName => exact ok.makeDir isName
  | second _ free =>
      refine ok.attach call free ?_
      intro name same
      exact absurd same.symm (childPath_ne_sd2 name)
  | child rest _ isName unbroken free fresh =>
      refine (ok.makeDir isName).attach call (ok.not_mounted (.inr ⟨rest, isName, rfl⟩) free fresh) ?_
      intro name same
      cases childPath_injective same
      exact ⟨mem_makeDir rest, unbroken⟩

/-- An add keeps all volumes in sight unless it hides its own. -/
theorem allShown_placed {call : AddCall} {placed : Library}
    (isPlaced : Placed library call placed) :
    placed.AllShown ↔ library.AllShown ∧ ¬call.Hides library := by
  have unhidden (untargeted : call.target library = none) : ¬call.Hides library := by
    rintro ⟨rest, targeted, _⟩
    rw [untargeted] at targeted
    cases targeted
  cases isPlaced with
  | unchanged untargeted => exact (and_iff_left (unhidden untargeted)).symm
  | directory rest untargeted => exact (and_iff_left (unhidden untargeted)).symm
  | second untargeted =>
      rw [and_iff_left (unhidden untargeted)]
      refine forall₂_congr fun name isName => ?_
      have elsewhere : (call.mount sd2).path ≠ childPath name := (childPath_ne_sd2 name).symm
      rw [mounted_append, or_iff_left elsewhere]
  | child rest targeted isName =>
      constructor
      · intro shown
        refine ⟨fun name isName mounted => shown name isName (mounted_append.mpr (.inl mounted)), ?_⟩
        rintro ⟨other, otherTarget, dotted⟩
        cases targeted.symm.trans otherTarget
        exact shown rest isName (mounted_append.mpr (.inr rfl)) dotted
      · rintro ⟨shown, visible⟩ name isName mounted dotted
        rcases mounted_append.mp mounted with old | here
        · exact shown name isName old dotted
        · cases childPath_injective here
          exact visible ⟨rest, targeted, dotted⟩

theorem Ok.addDev (ok : library.Ok) (call : AddCall) : (library.addDev call).Ok := by
  rcases addDev_cases library call with ⟨_, _, same⟩ | ⟨_, placed, isPlaced, result⟩
  · rw [same]
    exact ok
  · rw [result]
    exact (ok.placed isPlaced).write

theorem allShown_addDev (library : Library) (call : AddCall) :
    (library.addDev call).AllShown ↔ library.AllShown ∧ ¬call.Hides library := by
  rcases addDev_cases library call with ⟨_, untargeted, same⟩ | ⟨_, placed, isPlaced, result⟩
  · rw [same]
    refine (and_iff_left ?_).symm
    rintro ⟨rest, targeted, _⟩
    rw [untargeted] at targeted
    cases targeted
  · rw [result]
    change placed.AllShown ↔ _
    exact allShown_placed isPlaced

theorem Ok.run (ok : library.Ok) (calls : List AddCall) :
    (Execution.run Library.addDev library calls).Ok :=
  run_invariant Ok (fun _ call ok => ok.addDev call) ok calls

theorem allShown_run (library : Library) (calls : List AddCall) :
    (Execution.run addDev library calls).AllShown ↔
      library.AllShown ∧ (Command.start calls).Visible library := by
  induction calls generalizing library with
  | nil => exact (and_iff_left trivial).symm
  | cons call rest induction =>
      rw [run_cons, induction, allShown_addDev, and_assoc]
      exact Iff.rfl

theorem Ok.detachSd2 (ok : library.Ok) :
    Ok { library with
      mounts := if mountsHas library.mounts sd2 then Storage.detach library.mounts sd2
        else library.mounts } := by
  split
  · exact ok.detach sd2
  · exact ok

/-- What a command leaves: nothing changes, or the list is written anew. -/
theorem step_cases (library : Library) (command : Command) :
    (command.writes library = false ∧ command.Visible library ∧ library.step command = library) ∨
      (command.writes library = true ∧ ∃ before : Library, library.step command = before.writeLibraries ∧
        (library.Ok → before.Ok) ∧
        (library.AllShown → (before.AllShown ↔ command.Visible library))) := by
  cases command with
  | add call =>
      rcases addDev_cases library call with ⟨quiet, untargeted, same⟩ | ⟨writes, placed, isPlaced, result⟩
      · refine .inl ⟨quiet, ?_, same⟩
        rintro ⟨rest, targeted, _⟩
        rw [untargeted] at targeted
        cases targeted
      · refine .inr ⟨writes, placed, result, fun ok => ok.placed isPlaced, fun shown => ?_⟩
        rw [allShown_placed isPlaced, and_iff_right shown]
        exact Iff.rfl
  | remove name =>
      rw [Command.writes]
      by_cases absent : (mountsTargetOf library.mounts (devPath name)).isEmpty = true
      · refine .inl ⟨by rw [absent]; rfl, trivial, ?_⟩
        exact if_pos absent
      · refine .inr ⟨by rw [Bool.eq_false_of_not_eq_true absent]; rfl, _, if_neg absent,
          fun ok => ok.detach _, fun shown => iff_of_true ?_ trivial⟩
        exact fun other isName mounted => shown other isName mounted.of_detach
  | start calls =>
      refine .inr ⟨rfl, _, rfl, fun ok => ok.run calls, fun shown => ?_⟩
      rw [allShown_run, and_iff_right shown]
  | eject =>
      refine .inr ⟨rfl, _, rfl, fun ok => ok.detachSd2.detachAll _, fun shown => iff_of_true ?_ trivial⟩
      intro name isName mounted
      refine shown name isName ?_
      have before := mounted.of_detachAll
      split at before
      · exact before.of_detach
      · exact before

/-- After an eject nothing is mounted where the list would show it. -/
theorem not_mounted_eject (ok : library.Ok) (shown : library.AllShown) {path : Text}
    (isPlace : IsPlace path) : ¬Mounted library.ejectExtras.mounts path := by
  intro mounted
  have before := Mounted.of_detachAll (show Mounted (List.foldl _ _ _) path from mounted)
  rcases isPlace with rfl | ⟨name, isName, rfl⟩
  · split at before
    · change Mounted ([sd2].foldl Storage.detach library.mounts) sd2 at before
      exact not_mounted_detachAll (ok.single sd2 (.inl rfl)) (List.mem_singleton_self sd2) before
    · rename_i unmounted
      exact unmounted (mountsHas_iff.mpr before)
  · have original : Mounted library.mounts (childPath name) := by
      split at before
      · exact before.of_detach
      · exact before
    have entry := (ok.entered name isName original).1
    have inGlob := mem_glob.mpr ⟨entry, shown name isName original⟩
    refine not_mounted_detachAll ?_ (List.mem_map_of_mem inGlob) mounted
    exact ok.detachSd2.single _ (.inr ⟨name, isName, rfl⟩)

end Library

/-! ## All commands -/

/-- The system before the first command: no list, and nothing mounted at its places. -/
structure Library.Fresh (library : Library) : Prop where
  distinct : library.entries.Nodup
  named : ∀ name ∈ library.entries, IsName name
  free : ∀ path, IsPlace path → ¬Mounted library.mounts path
  unwritten : library.file = none

/-- What has to hold after a command. -/
def Library.Goal (library : Library) (command : Command) : Prop :=
  (library.step command).Exact ∧
    (command = .eject → ∀ path, IsPlace path → ¬Mounted (library.step command).mounts path)

/-- The first run writes a list, and no run hides a volume. -/
def Covered (library : Library) (command : Command) : Prop :=
  (library.file = none → command.writes library = true) ∧ command.Visible library

structure Library.Inv (library : Library) : Prop where
  ok : library.Ok
  shown : library.AllShown
  exact : library.file ≠ none → library.Exact

namespace Library

variable {library : Library}

theorem Fresh.inv (fresh : library.Fresh) : library.Inv where
  ok :=
    { distinct := fresh.distinct
      named := fresh.named
      single := fun path isPlace => by
        rw [atPath_length_of_not_mounted (fresh.free path isPlace)]
        exact Nat.zero_le 1
      entered := fun name isName mounted =>
        absurd mounted (fresh.free _ (.inr ⟨name, isName, rfl⟩))
      owned := fun mount member isPlace =>
        absurd ⟨mount, member, rfl⟩ (fresh.free mount.path isPlace) }
  shown := fun name isName mounted => absurd mounted (fresh.free _ (.inr ⟨name, isName, rfl⟩))
  exact := fun written => absurd fresh.unwritten written

theorem Inv.covered_iff (inv : library.Inv) (command : Command) :
    (library.step command).Exact ↔ Covered library command := by
  rcases step_cases library command with
    ⟨quiet, visible, same⟩ | ⟨writes, before, result, keepsOk, shownIff⟩
  · rw [same, Covered, quiet, and_iff_left visible]
    constructor
    · rintro ⟨file, hasFile, _⟩ absent
      rw [hasFile] at absent
      cases absent
    · intro written
      exact inv.exact fun absent => Bool.false_ne_true (written absent)
  · rw [result, exact_write (keepsOk inv.ok), shownIff inv.shown, Covered]
    exact (and_iff_right fun _ => writes).symm

theorem Inv.step (inv : library.Inv) {command : Command} (covered : Covered library command) :
    (library.step command).Inv := by
  have exact := (inv.covered_iff command).mpr covered
  rcases step_cases library command with
    ⟨quiet, visible, same⟩ | ⟨writes, before, result, keepsOk, shownIff⟩
  · rw [same]
    exact inv
  · have shown := (shownIff inv.shown).mpr covered.2
    rw [result] at exact ⊢
    exact ⟨(keepsOk inv.ok).write, shown, fun _ => exact⟩

theorem Inv.goal_iff (inv : library.Inv) (command : Command) :
    Covered library command ↔ library.Goal command := by
  rw [Goal, inv.covered_iff]
  refine (and_iff_left ?_).symm
  rintro rfl path isPlace
  exact not_mounted_eject inv.ok inv.shown isPlace

end Library

/-- From a fresh system the list is exact after every command, and every eject unmounts
all, exactly when the first command writes a list and no add mounts its volume under a
name that begins with a dot. -/
theorem libraries_exact (library : Library) (fresh : library.Fresh) (commands : List Command) :
    Along Library.step Library.Goal library commands ↔
      Along Library.step Covered library commands :=
  (along_iff_along Library.Inv (fun _ _ inv covered => inv.step covered)
    (fun _ command inv => inv.goal_iff command) fresh.inv commands).symm

/-- A system with only its own card. -/
def booted : Library where
  mounts := [{
    source := ascii "/dev/mmcblk1p3"
    device := some (ascii "mmcblk1p3")
    path := storageDir }]
  entries := []
  file := none

theorem booted_fresh : booted.Fresh where
  distinct := List.nodup_nil
  named := fun name member => absurd member List.not_mem_nil
  free := by
    rintro path isPlace ⟨mount, member, isThere⟩
    cases List.mem_singleton.mp member
    subst isThere
    rcases isPlace with same | ⟨name, _, same⟩
    · exact absurd same (by decide)
    · exact childPath_ne_storageDir name same.symm
  unwritten := rfl

/-- An USB stick with a filesystem of this label is plugged in. -/
def stick (label : Text) : AddCall where
  name := ascii "sda1"
  isBlock := true
  childPart := false
  label
  secondary := false
  probed := true
  moved := true
  remounted := false
  named := by decide +kernel

theorem libraries_exact_stick : Along Library.step Library.Goal booted
    [.start [], .add (stick (ascii "GAMES")), .eject] := by
  have targeted : (stick (ascii "GAMES")).target (booted.step (.start [])) =
      some (ascii "GAMES") := by decide +kernel
  refine (libraries_exact booted booted_fresh _).mpr
    ⟨⟨fun _ => rfl, trivial⟩, ⟨fun _ => by decide +kernel, ?_⟩, ⟨fun _ => rfl, trivial⟩, trivial⟩
  rintro ⟨rest, target, dotted⟩
  cases targeted.symm.trans target
  exact absurd dotted (by decide)

/-- The label `.games` names a directory that `*` leaves out. -/
theorem libraries_omit_dotted : ¬∀ library : Library, library.Fresh →
    ∀ (calls : List AddCall) (commands : List Command),
      Along Library.step Library.Goal library (.start calls :: commands) := by
  intro all
  have goals := all booted booted_fresh [] [.add (stick (ascii ".games"))]
  rcases goals.2.1.1 with ⟨file, hasFile, _, listed⟩
  have only : (booted.step (.start [])).step (.add (stick (ascii ".games"))) =
      { booted with
        mounts := booted.mounts ++ [(stick (ascii ".games")).mount (childPath (ascii ".games"))]
        entries := [ascii ".games"]
        file := some (ascii "/storage\n") } := by decide +kernel
  rw [only] at hasFile listed
  cases hasFile
  have member := (listed (childPath (ascii ".games"))).mpr
    (.inr ⟨.inr ⟨ascii ".games", ⟨by decide, by decide⟩, rfl⟩,
      _, List.mem_append_right _ (List.mem_singleton_self _), rfl⟩)
  exact absurd member (by decide +kernel)

end Zlyme.Storage
