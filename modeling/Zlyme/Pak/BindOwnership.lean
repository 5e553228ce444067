import Zlyme.Pak.SaveBinds
import Zlyme.Portmaster.Cleanup

/-! # Save binds are owned or undone

A call of the two scripts either starts with binds that are recorded and visible, or leaves
behind no bind that nobody knows of.
-/

namespace Zlyme.Pak.SaveBinds

open Foundation Foundation.Script Foundation.MountTree Zlyme.Portmaster

/-! ## The environment -/

/-- The system, and what became of the mounts of one call. -/
structure Session where
  world : World
  /-- The binds of the call, each a mount id with its destination. -/
  made : List (Text × Text)
  /-- The mounts that were visible at a path whose unmount failed. -/
  refused : List Text
  /-- The mount table could not be read at one time. -/
  unread : Bool
  /-- The mounts that could not be shown to be the visible one at their destination. -/
  unproven : List Text

/-- What the environment decides about one operation. -/
structure Attempt where
  ok : Bool
  /-- The mounts after a bind, which fails where there are none. -/
  next : Option Space
  visit : Visit

namespace Session

def starting (world : World) : Session :=
  ⟨world, [], [], false, []⟩

def table (session : Session) : Table :=
  session.world.space.table

def ids (session : Session) : List Text :=
  session.world.space.ids

def registry (session : Session) : List Text :=
  session.world.registry

/-- The mount is there and no line names it. -/
def exposes (session : Session) (pair : Text × Text) : Bool :=
  session.made.contains pair && session.ids.contains pair.1 &&
    !session.registry.contains (entry pair.1 pair.2)

/-- The mount table, where it can be read. -/
def reading (session : Session) (ok : Bool) : World :=
  { session.world with readable := ok }

/-- A bind adds one mount. A destination that is reached through a symlink is another path of
the mount table. -/
def bind (session : Session) (dest : Text) (next : Option Space) : Nat × Session :=
  match next with
  | none => (1, session)
  | some next =>
      match session.world.space.attached next with
      | none => (1, session)
      | some mount =>
          (0, { session with
            world := session.world.create next
            made := session.made ++ [(mount.id, dest)]
            unproven := session.unproven ++ if render mount.point = dest then [] else [mount.id] })

/-- What is visible at a path, if anything is. -/
def visibleAt (session : Session) (path : Text) : Option Text :=
  (pmNorm path).bind fun norm => session.table.visible session.table.paths norm

def unmount (session : Session) (path : Text) (ok : Bool) : Nat × Session :=
  match session.table.umount (fun _ _ => ok) path with
  | some id =>
      (0, { session with world := session.world.change (session.world.space.without id) })
  | none => (1, { session with refused := session.refused ++ (session.visibleAt path).toList })

/-- The operations of the helper. Each of them may fail, and nothing else changes the mounts. -/
def perform (attempt : Attempt) (session : Session) :
    (operation : Call) → operation.Result × Session
  | .idsAt path =>
      ((session.reading attempt.ok).idsAt path,
        { session with unread := session.unread || !attempt.ok })
  | .role path id =>
      let role := (session.reading attempt.ok).role attempt.visit path id
      (role, { session with
        unread := session.unread || !attempt.ok
        unproven := session.unproven ++
          if role ≠ some .visible && session.exposes (id, path) then [id] else [] })
  | .mount args => session.bind (args.getLast?.getD []) attempt.next
  | .umount args => session.unmount (args.getLast?.getD []) attempt.ok
  | .append line =>
      ((), if attempt.ok then
        { session with world := { session.world with registry := session.registry ++ [line] } }
      else session)
  | other =>
      (other.perform ⟨attempt.ok, 0, none, none, attempt.visit⟩ session.world).map id fun world =>
        { session with world := world }

end Session

def Op.perform (attempt : Attempt) (session : Session) : (op : Op) → op.Result × Session
  | .helper operation => session.perform attempt operation
  | .mktempAfter =>
      (attempt.ok, if attempt.ok then session else
        { session with
          unproven := session.unproven ++ (session.made.filter session.exposes).map Prod.fst })
  | .install lines =>
      (attempt.ok, if attempt.ok then
        { session with world := { session.world with registry := lines } }
      else session)

def machine : Script.Machine Op Op.Result Attempt Session :=
  fun op attempt session => (op.perform attempt session).map some id

/-- Any run is allowed, and no run exits early. -/
def anyhow : Contract Op Session where
  rely _ _ := True
  guard _ _ := True
  stop _ := True
  exit _ _ := False

/-! ## What is owned and what is undone -/

/-- The bind is gone, or recorded, or it could be neither: its unmount failed, or the mount
table could not be read, or it was not shown to be the visible mount of its destination. -/
def Settled (session : Session) (pair : Text × Text) : Prop :=
  pair.1 ∉ session.ids ∨ entry pair.1 pair.2 ∈ session.registry ∨ pair.1 ∈ session.refused ∨
    session.unread = true ∨ pair.1 ∈ session.unproven

def AllSettled (session : Session) : Prop :=
  ∀ pair ∈ session.made, Settled session pair

theorem settled_of_not_exposed {session : Session} {pair : Text × Text}
    (isMade : pair ∈ session.made) (hidden : ¬session.exposes pair = true) :
    Settled session pair := by
  simp only [Session.exposes, List.contains_iff_mem.mpr isMade, Bool.true_and, Bool.and_eq_true,
    Bool.not_eq_true', not_and, Bool.not_eq_false, List.contains_iff_mem] at hidden
  by_cases isThere : pair.1 ∈ session.ids
  · exact .inr (.inl (hidden isThere))
  · exact .inl isThere

/-- Every bind of the call is recorded. -/
def Recorded (session : Session) : Prop :=
  ∀ pair ∈ session.made, entry pair.1 pair.2 ∈ session.registry

/-- A bind of the call is the visible mount at the destination, and it is recorded. -/
def Held (session : Session) (dest : Text) : Prop :=
  ∃ id, (id, dest) ∈ session.made ∧ entry id dest ∈ session.registry ∧
    session.table.sees dest id = some .visible

theorem Recorded.allSettled {session : Session} (recorded : Recorded session) :
    AllSettled session :=
  fun pair member => .inr (.inl (recorded pair member))

/-- What every operation but a bind and a drop does. -/
structure Kept (before after : Session) : Prop where
  made : after.made = before.made
  ids : after.ids ⊆ before.ids
  registry : before.registry ⊆ after.registry
  refused : before.refused ⊆ after.refused
  unread : before.unread = true → after.unread = true
  unproven : before.unproven ⊆ after.unproven

namespace Kept

theorem refl (session : Session) : Kept session session :=
  ⟨rfl, List.Subset.refl _, List.Subset.refl _, List.Subset.refl _, id, List.Subset.refl _⟩

variable {before between after : Session}

theorem trans (first : Kept before between) (second : Kept between after) : Kept before after where
  made := second.made.trans first.made
  ids := List.Subset.trans second.ids first.ids
  registry := List.Subset.trans first.registry second.registry
  refused := List.Subset.trans first.refused second.refused
  unread isUnread := second.unread (first.unread isUnread)
  unproven := List.Subset.trans first.unproven second.unproven

theorem settled (kept : Kept before after) {pair : Text × Text} (settled : Settled before pair) :
    Settled after pair := by
  rcases settled with gone | recorded | refused | unread | unproven
  · exact .inl fun member => gone (kept.ids member)
  · exact .inr (.inl (kept.registry recorded))
  · exact .inr (.inr (.inl (kept.refused refused)))
  · exact .inr (.inr (.inr (.inl (kept.unread unread))))
  · exact .inr (.inr (.inr (.inr (kept.unproven unproven))))

theorem allSettled (kept : Kept before after) (settled : AllSettled before) : AllSettled after := by
  intro pair member
  rw [kept.made] at member
  exact kept.settled (settled pair member)

theorem recorded (kept : Kept before after) (recorded : Recorded before) : Recorded after := by
  intro pair member
  rw [kept.made] at member
  exact kept.registry (recorded pair member)

end Kept

/-- What an operation does that leaves the mounts alone. -/
structure Looked (before after : Session) : Prop extends Kept before after where
  space : after.world.space = before.world.space

namespace Looked

theorem refl (session : Session) : Looked session session :=
  ⟨.refl session, rfl⟩

variable {before between after : Session}

theorem trans (first : Looked before between) (second : Looked between after) :
    Looked before after :=
  ⟨first.toKept.trans second.toKept, second.space.trans first.space⟩

theorem table (looked : Looked before after) : after.table = before.table :=
  congrArg Space.table looked.space

theorem ids_eq (looked : Looked before after) : after.ids = before.ids :=
  congrArg Space.ids looked.space

theorem held (looked : Looked before after) {dest : Text} (held : Held before dest) :
    Held after dest := by
  rcases held with ⟨id, isMade, recorded, visible⟩
  refine ⟨id, looked.made ▸ isMade, looked.registry recorded, ?_⟩
  rw [looked.table]
  exact visible

end Looked

/-! ## The helper -/

section Helper

variable {session : Session}

/-- The machine, as the helper sees it. -/
abbrev calling : Script.Machine Call Call.Result Attempt Session :=
  machine.pull Op.helper fun _ => id

abbrev helping : Contract Call Session :=
  anyhow.pull Op.helper

theorem pm_ensures {α : Type} {program : Program α} {post : α → Session → Prop}
    (ensures : program.Ensures calling helping post session) :
    (pm program).Ensures machine anyhow post session :=
  ensures_embed.mpr ensures

theorem call_ensures {operation : Call} {post : operation.Result → Session → Prop}
    (answers : ∀ attempt,
      post (session.perform attempt operation).1 (session.perform attempt operation).2) :
    (Program.issue operation).Ensures calling helping post session :=
  Ensures.issue trivial trivial fun _ attempt => .inl ⟨_, _, rfl, answers attempt⟩

/-- An operation that only asks. -/
theorem ask_ensures {operation : Call}
    (quiet : ∀ attempt, (session.perform attempt operation).2 = session) :
    (Program.issue operation).Ensures calling helping (fun _ after => after = session) session :=
  call_ensures quiet

theorem registry_ensures : Program.registry.Ensures calling helping
    (fun lines after => after = session ∧ lines = session.registry) session :=
  call_ensures fun _ => ⟨rfl, rfl⟩

theorem idsAt_ensures (path : Text) : (Program.idsAt path).Ensures calling helping
    (fun ids after => Looked session after ∧
      (∀ list, ids = some list → ∃ norm, pmNorm path = some norm ∧ list = session.table.idsAt norm) ∧
      (ids = none → pmNorm path = none ∨ after.unread = true)) session := by
  apply call_ensures
  intro attempt
  refine ⟨⟨⟨rfl, List.Subset.refl _, List.Subset.refl _, List.Subset.refl _, fun isUnread => ?_,
    List.Subset.refl _⟩, rfl⟩, fun list isList => ?_, fun isNone => ?_⟩
  · exact Bool.or_eq_true_iff.mpr (.inl isUnread)
  · change (session.reading attempt.ok).idsAt path = some list at isList
    cases isNorm : pmNorm path with
    | none =>
        rw [World.idsAt, isNorm] at isList
        simp at isList
    | some norm =>
        rw [World.idsAt_eq isNorm] at isList
        split at isList
        · exact ⟨norm, rfl, (Option.some.inj isList).symm⟩
        · cases isList
  · change (session.reading attempt.ok).idsAt path = none at isNone
    cases isNorm : pmNorm path with
    | none => exact .inl rfl
    | some norm =>
        rw [World.idsAt_eq isNorm] at isNone
        split at isNone
        · cases isNone
        · rename_i unreadable
          refine .inr (Bool.or_eq_true_iff.mpr (.inr ?_))
          simpa [Session.reading] using unreadable

/-- A bind of the call that is not called visible is settled. -/
theorem role_ensures (path id : Text) : (Program.role path id).Ensures calling helping
    (fun role after => Looked session after ∧ after.registry = session.registry ∧
      (role = some .visible → session.table.sees path id = some .visible) ∧
      (role ≠ some .visible → (id, path) ∈ session.made → Settled after (id, path))) session := by
  apply call_ensures
  intro attempt
  have looked : Looked session (session.perform attempt (.role path id)).2 :=
    ⟨⟨rfl, List.Subset.refl _, List.Subset.refl _, List.Subset.refl _,
      fun isUnread => Bool.or_eq_true_iff.mpr (.inl isUnread), List.subset_append_left _ _⟩, rfl⟩
  refine ⟨looked, rfl, fun isVisible => ?_, fun notVisible isMade => ?_⟩
  · have isReadable : (session.reading attempt.ok).readable = true := by
      by_contra unreadable
      change (session.reading attempt.ok).role attempt.visit path id = _ at isVisible
      rw [World.role, if_neg unreadable] at isVisible
      cases isVisible
    exact (World.role_eq_visible isReadable).mp isVisible
  · by_cases exposed : session.exposes (id, path) = true
    · refine .inr (.inr (.inr (.inr (List.mem_append_right _ ?_))))
      change (session.reading attempt.ok).role attempt.visit path id ≠ _ at notVisible
      simp [exposed, notVisible]
    · exact looked.settled (settled_of_not_exposed isMade exposed)

theorem append_ensures (line : Text) : (Program.append line).Ensures calling helping
    (fun _ after => Looked session after) session := by
  apply call_ensures
  intro attempt
  change Looked session (if attempt.ok then _ else session)
  split
  · exact ⟨⟨rfl, List.Subset.refl _, List.subset_append_left _ _, List.Subset.refl _, id,
      List.Subset.refl _⟩, rfl⟩
  · exact .refl session

open Program in
theorem pmStoreId_ensures (id path : Text) : (pmStoreId id path).Ensures calling helping
    (fun _ after => Looked session after) session := by
  unfold pmStoreId
  split
  · exact .refl session
  · split
    · exact .refl session
    · refine Ensures.bind (ask_ensures fun _ => rfl) ?_
      rintro isProtected _ rfl
      split
      · exact .refl _
      · refine Ensures.bind (ask_ensures fun _ => rfl) ?_
        rintro made _ rfl
        split
        · exact .refl _
        · exact append_ensures _

/-- Recording a bind may fail at any of its steps, and it tells nobody. -/
theorem pmRegisterNew_ensures (path : Text) (before : List Text) :
    (Program.pmRegisterNew path before).Ensures calling helping
      (fun _ after => Looked session after) session := by
  unfold Program.pmRegisterNew
  split
  · exact .refl session
  · refine Ensures.bind (ask_ensures fun _ => rfl) ?_
    rintro made _ rfl
    split
    · exact .refl _
    · refine Ensures.bind (idsAt_ensures _) fun ids between ⟨looked, _⟩ => ?_
      split
      · exact looked
      · refine Ensures.bind (ask_ensures fun _ => rfl) ?_
        rintro madeNew _ rfl
        split
        · exact looked
        · split
          · exact Ensures.mono (pmStoreId_ensures _ _) fun _ _ => looked.trans
          · exact looked

/-! ### Unmounts -/

theorem ids_without_subset (space : Space) (id : Text) : (space.without id).ids ⊆ space.ids := by
  intro other member
  unfold Space.without at member
  split at member
  · rcases List.mem_map.mp member with ⟨mount, isMount, rfl⟩
    exact List.mem_map_of_mem (List.mem_of_mem_filter isMount)
  · exact member

theorem unmount_kept (path : Text) (ok : Bool) : Kept session (session.unmount path ok).2 := by
  unfold Session.unmount
  split
  · exact ⟨rfl, ids_without_subset _ _, List.Subset.refl _, List.Subset.refl _, id,
      List.Subset.refl _⟩
  · exact ⟨rfl, List.Subset.refl _, List.Subset.refl _, List.subset_append_left _ _, id,
      List.Subset.refl _⟩

/-- The visible mount is gone, or its unmount is noted. -/
theorem unmount_visible {path id : Text} (visible : session.table.sees path id = some .visible)
    (ok : Bool) :
    ((session.unmount path ok).1 = 0 → id ∉ (session.unmount path ok).2.ids) ∧
      ((session.unmount path ok).1 ≠ 0 → id ∈ (session.unmount path ok).2.refused) := by
  unfold Session.unmount
  cases detached : session.table.umount (fun _ _ => ok) path with
  | none =>
      refine ⟨nofun, fun _ => List.mem_append_right _ ?_⟩
      rcases Table.sees_eq_visible.mp visible with ⟨norm, isNorm, -, shown⟩
      have isTop : session.visibleAt path = some id := by
        rw [Session.visibleAt, isNorm]
        exact Table.visible_eq_some.mpr (Table.shown_iff.mp shown).2.2
      rw [isTop]
      exact List.mem_singleton.mpr rfl
  | some gone =>
      refine ⟨fun _ member => ?_, fun notZero => absurd rfl notZero⟩
      rw [Table.umount_of_visible visible] at detached
      split at detached
      · cases detached
      · rename_i idle
        cases detached
        have table := Space.table_detached visible fun busy => idle (.inl busy)
        apply Space.mem_ids_iff_point.mp member
        change ((session.world.space.without id).table).pointOf id = none
        rw [table]
        exact Table.pointOf_without_self _ id

theorem umount_ensures (path : Text) : (Program.umount [path]).Ensures calling helping
    (fun status after => Kept session after ∧
      ∀ id, session.table.sees path id = some .visible →
        (status = 0 → id ∉ after.ids) ∧ (status ≠ 0 → id ∈ after.refused)) session :=
  call_ensures fun attempt =>
    ⟨unmount_kept path attempt.ok, fun _ visible => unmount_visible visible attempt.ok⟩

/-- A line of a mount that is gone may be dropped. -/
theorem allSettled_drop {id path : Text} (number : isNumber id = true) (gone : id ∉ session.ids)
    (settled : AllSettled session) : AllSettled { session with world := { session.world with
      registry := (session.registry.erase (entry id path)).filter fun other => other ≠ [] } } := by
  intro pair member
  by_cases isThere : pair.1 ∈ session.ids
  · rcases settled pair member with isGone | recorded | rest
    · exact absurd isThere isGone
    · have kept : entry pair.1 pair.2 ≠ entry id path := by
        intro same
        have cuts := congrArg (Text.cut tab) same
        rw [entry_cut number, entry_cut (Space.isNumber_of_mem isThere)] at cuts
        have sameId : pair.1 = id := congrArg Prod.fst (Option.some.inj cuts)
        exact gone (sameId ▸ isThere)
      refine .inr (.inl (List.mem_filter.mpr ⟨(List.mem_erase_of_ne kept).mpr recorded, ?_⟩))
      simp [entry]
    · exact .inr (.inr rest)
  · exact .inl isThere

theorem pmDropExact_ensures {id path : Text} (number : isNumber id = true)
    (gone : id ∉ session.ids) (settled : AllSettled session) :
    (Program.pmDropExact (entry id path)).Ensures calling helping
      (fun _ after => after.made = session.made ∧ AllSettled after) session := by
  refine Ensures.bind (ask_ensures fun _ => rfl) ?_
  rintro made _ rfl
  split
  · exact ⟨rfl, settled⟩
  · refine Ensures.bind registry_ensures ?_
    rintro _ _ ⟨rfl, rfl⟩
    apply call_ensures
    rintro ⟨_ | _, next, visit⟩
    · exact ⟨rfl, settled⟩
    · exact ⟨rfl, allSettled_drop number gone settled⟩

end Helper

/-! ## The record -/

section Scripts

variable {session : Session} (launcher : Launcher)

open Binds

theorem ownedVisible_ensures (path : Text) (lines : List Text)
    (recorded : lines ⊆ session.registry) : (ownedVisible path lines).Ensures machine anyhow
      (fun owned after => Looked session after ∧ (owned = true →
        ∃ id, entry id path ∈ after.registry ∧ after.table.sees path id = some .visible)) session := by
  induction lines generalizing session with
  | nil => exact ⟨.refl session, nofun⟩
  | cons line rest induction =>
      rw [List.cons_subset] at recorded
      rw [ownedVisible]
      cases isId : pmEntryId line with
      | none => exact induction recorded.2
      | some id =>
          dsimp only
          split
          · exact induction recorded.2
          · rename_i here
            refine Ensures.bind (pm_ensures (role_ensures path id)) ?_
            rintro role between ⟨looked, sameRegistry, visible, -⟩
            split
            · exact ⟨looked, nofun⟩
            · refine ⟨looked, fun _ => ⟨id, ?_, ?_⟩⟩
              · rw [← not_not.mp here, (entry_of_pmEntryId isId).1]
                exact looked.registry recorded.1
              · rw [looked.table]
                exact visible rfl
            · refine Ensures.mono (induction ?_) fun _ _ => And.imp_left looked.trans
              exact List.Subset.trans recorded.2 looked.registry

theorem pathOwnedVisible_ensures (path : Text) :
    (pathOwnedVisible launcher path).Ensures machine anyhow
      (fun owned after => Looked session after ∧ (owned = true →
        ∃ id, entry id path ∈ after.registry ∧ after.table.sees path id = some .visible)) session := by
  refine Ensures.bind (pm_ensures (ask_ensures fun _ => rfl)) ?_
  rintro isFile _ rfl
  split
  · exact ⟨.refl _, nofun⟩
  · refine Ensures.bind (pm_ensures registry_ensures) ?_
    rintro _ _ ⟨rfl, rfl⟩
    exact ownedVisible_ensures path _ (List.Subset.refl _)

/-! ## Undoing a bind -/

/-- A bind that is at its destination alone, where it was made at the destination. -/
def Alone (session : Session) (dest id : Text) : Prop :=
  id ∈ session.unproven ∨ ∃ norm, pmNorm dest = some norm ∧ session.table.idsAt norm = [id]

theorem Looked.alone {before after : Session} (looked : Looked before after) {dest id : Text}
    (alone : Alone before dest id) : Alone after dest id := by
  unfold Alone
  rw [looked.table]
  exact alone.imp_left fun unproven => looked.unproven unproven

theorem mktempAfter_ensures : mktempAfter.Ensures machine anyhow
    (fun made after => Looked session after ∧
      (made = false → ∀ pair ∈ session.made, Settled after pair)) session := by
  refine Ensures.issue trivial trivial fun _ attempt => .inl ⟨_, _, rfl, ?_⟩
  rcases attempt with ⟨_ | _, next, visit⟩
  · have looked : Looked session (Op.perform ⟨false, next, visit⟩ session .mktempAfter).2 :=
      ⟨⟨rfl, List.Subset.refl _, List.Subset.refl _, List.Subset.refl _, id,
        List.subset_append_left _ _⟩, rfl⟩
    refine ⟨looked, fun _ pair member => ?_⟩
    by_cases exposed : session.exposes pair = true
    · refine .inr (.inr (.inr (.inr (List.mem_append_right _ ?_))))
      exact List.mem_map_of_mem (List.mem_filter.mpr ⟨member, exposed⟩)
    · exact looked.settled (settled_of_not_exposed member exposed)
  · exact ⟨.refl session, nofun⟩

/-- The one id that is new at the destination, or the bind is settled. -/
theorem newAfter_ensures {dest id : Text} (isThere : id ∈ session.ids)
    (isMade : (id, dest) ∈ session.made) (alone : Alone session dest id) :
    (newAfter dest []).Ensures machine anyhow
      (fun new after => Looked session after ∧ (new = [id] ∨ Settled after (id, dest))) session := by
  refine Ensures.bind mktempAfter_ensures fun made between ⟨looked, failed⟩ => ?_
  cases made with
  | false => exact ⟨looked, .inr (failed rfl _ isMade)⟩
  | true =>
      refine Ensures.bind (pm_ensures (idsAt_ensures dest)) ?_
      rintro ids after ⟨asked, some, none⟩
      refine ⟨looked.trans asked, ?_⟩
      rcases (looked.trans asked).alone alone with unproven | ⟨norm, isNorm, only⟩
      · exact .inr (.inr (.inr (.inr (.inr unproven))))
      · cases ids with
        | none =>
            rcases none rfl with notNorm | unread
            · rw [isNorm] at notNorm
              cases notNorm
            · exact .inr (.inr (.inr (.inr (.inl unread))))
        | some list =>
            left
            rcases some list rfl with ⟨other, isOther, rfl⟩
            cases isNorm.symm.trans isOther
            rw [← asked.table, only]
            simp [Program.newIds, Space.isNumber_of_mem isThere]

theorem undo_ensures {dest id : Text} (visible : session.table.sees dest id = some .visible) :
    (undo launcher dest id).Ensures machine anyhow
      (fun started after => started = false ∧ Kept session after ∧ Settled after (id, dest))
      session := by
  refine Ensures.bind (pm_ensures (umount_ensures dest)) fun status between ⟨kept, ended⟩ => ?_
  split
  · rename_i isZero
    exact ⟨rfl, kept, .inl ((ended id visible).1 isZero)⟩
  · rename_i notZero
    have refused : Settled between (id, dest) := .inr (.inr (.inl ((ended id visible).2 notZero)))
    refine Ensures.bind (pm_ensures (pmStoreId_ensures id dest)) fun _ stored looked => ?_
    refine Ensures.bind (pathOwnedVisible_ensures launcher dest) fun _ after ⟨again, _⟩ => ?_
    have later := looked.trans again
    exact ⟨rfl, kept.trans later.toKept, later.settled refused⟩

/-- A bind that is not recorded as the visible one is settled. -/
theorem notOwned_ensures {dest id : Text} (isThere : id ∈ session.ids)
    (isMade : (id, dest) ∈ session.made) (alone : Alone session dest id) :
    (notOwned launcher dest []).Ensures machine anyhow
      (fun started after => started = false ∧ Kept session after ∧ Settled after (id, dest))
      session := by
  refine Ensures.bind (newAfter_ensures isThere isMade alone) fun new between ⟨looked, found⟩ => ?_
  have other : ∀ {after}, Kept between after → Settled between (id, dest) →
      false = false ∧ Kept session after ∧ Settled after (id, dest) := fun kept settled =>
    ⟨rfl, looked.toKept.trans kept, kept.settled settled⟩
  rcases new with _ | ⟨one, _ | ⟨second, rest⟩⟩
  · exact other (.refl between) (found.resolve_left nofun)
  · refine Ensures.bind (pm_ensures (role_ensures dest one)) ?_
    rintro role after ⟨asked, -, visible, notVisible⟩
    split
    · refine Ensures.mono (undo_ensures launcher (asked.table ▸ visible rfl)) ?_
      rintro started last ⟨rfl, kept, settled⟩
      refine ⟨rfl, looked.toKept.trans (asked.toKept.trans kept), ?_⟩
      rcases found with same | isSettled
      · cases same
        exact settled
      · exact kept.settled (asked.settled isSettled)
    · rename_i hidden
      rcases found with same | isSettled
      · cases same
        exact ⟨rfl, looked.toKept.trans asked.toKept,
          notVisible (fun same => hidden same) (looked.made ▸ isMade)⟩
      · exact other asked.toKept isSettled
  · exact other (.refl between) (found.resolve_left nofun)

/-! ## One bind -/

/-- A path that does not end in a slash is left as it is. -/
theorem eq_of_pmNorm {path norm : Text} (ends : path.getLast?.any (· ≠ slash) = true)
    (isNorm : pmNorm path = some norm) : norm = path := by
  have kept : path.rdropWhile (· == slash) = path := by
    apply List.rdropWhile_eq_self_iff.mpr
    intro nonempty
    rw [List.getLast?_eq_some_getLast nonempty] at ends
    simpa using ends
  have stripped : stripSlashes path = path := by
    unfold stripSlashes
    rw [kept]
    split
    · rename_i empty
      rw [empty] at ends
      cases ends
    · rfl
  unfold pmNorm at isNorm
  rw [stripped] at isNorm
  split at isNorm
  · split at isNorm
    · cases isNorm
    · exact (Option.some.inj isNorm).symm
  · cases isNorm

theorem destOk_ends {dest : Text} (ok : launcher.destOk dest = true) :
    dest.getLast?.any (· ≠ slash) = true := by
  rw [Launcher.destOk, Bool.and_eq_true, Bool.and_eq_true] at ok
  rcases List.any_eq_true.mp ok.1.2 with ⟨ending, member, isSuffix⟩
  have named := List.all_eq_true.mp launcher.named ending member
  rcases List.isSuffixOf_iff_suffix.mp isSuffix with ⟨front, rfl⟩
  rw [List.getLast?_append]
  cases isLast : ending.getLast? with
  | none =>
      rw [isLast] at named
      cases named
  | some last =>
      rw [isLast] at named
      exact named

/-- The destination is neither the other path nor above it. -/
def Apart (dest other : Text) : Prop :=
  ∀ norm, pmNorm other = some norm → dest ≠ norm ∧ isPrefix dest norm = false

/-- A bind has made a mount. -/
structure Bound (before : Session) (dest id : Text) (after : Session) : Prop where
  made : after.made = before.made ++ [(id, dest)]
  registry : after.registry = before.registry
  isThere : id ∈ after.ids
  alone : Alone after dest id
  visible : ∀ found, after.table.sees dest found = some .visible → found = id ∧
    ∀ other, Apart dest other → Held before other → Held after other

theorem mem_idsAt_of_sees {dest id : Text} (isNorm : pmNorm dest = some dest)
    (visible : session.table.sees dest id = some .visible) : id ∈ session.table.idsAt dest := by
  rcases Table.sees_eq_visible.mp visible with ⟨norm, isOther, -, shown⟩
  cases isNorm.symm.trans isOther
  have isPoint := (Table.shown_iff.mp shown).2.1
  rcases (Table.pointOf_eq_some (Table.read_distinct _)).mp isPoint with ⟨row, member, isId, point⟩
  exact Table.mem_idsAt.mpr ⟨row, member, point, isId⟩

theorem bound_of_attaches {dest : Text} {next : Space} {mount : Mount Text Text}
    (isNorm : pmNorm dest = some dest) (empty : session.table.idsAt dest = [])
    (attaches : session.world.space.Attaches next mount) :
    Bound session dest mount.id { session with
      world := session.world.create next
      made := session.made ++ [(mount.id, dest)]
      unproven := session.unproven ++ if render mount.point = dest then [] else [mount.id] } where
  made := rfl
  registry := rfl
  isThere := List.mem_map_of_mem attaches.member
  alone := by
    by_cases landed : render mount.point = dest
    · subst landed
      exact .inr ⟨_, isNorm, attaches.idsAt_here empty⟩
    · refine .inl (List.mem_append_right _ ?_)
      rw [if_neg landed]
      exact List.mem_singleton.mpr rfl
  visible found isVisible := by
    have member : found ∈ next.table.idsAt dest := mem_idsAt_of_sees isNorm isVisible
    by_cases landed : render mount.point = dest
    · subst landed
      rw [attaches.idsAt_here empty] at member
      refine ⟨List.mem_singleton.mp member, fun other apart held => ?_⟩
      rcases held with ⟨id, isMade, recorded, sees⟩
      refine ⟨id, List.mem_append_left _ isMade, recorded, ?_⟩
      rcases Table.sees_eq_visible.mp sees with ⟨norm, isOther, number, shown⟩
      rcases apart norm isOther with ⟨differs, above⟩
      exact Table.sees_eq_visible.mpr
        ⟨norm, isOther, number, attaches.shown differs above shown⟩
    · rw [attaches.idsAt_elsewhere landed] at member
      change found ∈ session.table.idsAt dest at member
      rw [empty] at member
      cases member

theorem bind_cases {dest : Text} (isNorm : pmNorm dest = some dest)
    (empty : session.table.idsAt dest = []) (next : Option Space) :
    ((session.bind dest next).1 = 0 → ∃ id, Bound session dest id (session.bind dest next).2) ∧
      ((session.bind dest next).1 ≠ 0 → (session.bind dest next).2 = session) := by
  unfold Session.bind
  split
  · exact ⟨nofun, fun _ => rfl⟩
  · split
    · exact ⟨nofun, fun _ => rfl⟩
    · rename_i isNew
      refine ⟨fun _ => ⟨_, bound_of_attaches isNorm empty ?_⟩, fun notZero => absurd rfl notZero⟩
      exact Space.attaches_of_attached isNew

theorem mount_ensures {source dest : Text} (isNorm : pmNorm dest = some dest)
    (empty : session.table.idsAt dest = []) :
    (Program.mount [ascii "--bind", source, dest]).Ensures calling helping
      (fun status after => (status = 0 → ∃ id, Bound session dest id after) ∧
        (status ≠ 0 → after = session)) session :=
  call_ensures fun attempt => bind_cases isNorm empty attempt.next

/-- What is left of a bind: it is held, or every bind of the call is settled. -/
structure Started (before : Session) (dest : Text) (after : Session) : Prop where
  recorded : Recorded after
  held : Held after dest
  others : ∀ other, Apart dest other → Held before other → Held after other

theorem bindOne_ensures (source dest : Text) (recorded : Recorded session) :
    (bindOne launcher source dest).Ensures machine anyhow
      (fun started after => if started then Started session dest after else AllSettled after)
      session := by
  unfold bindOne
  split
  · exact recorded.allSettled
  · rename_i isOk
    have ok : launcher.destOk dest = true := by simpa using isOk
    refine Ensures.bind (pm_ensures (ask_ensures fun _ => rfl)) ?_
    rintro isDirectory _ rfl
    split
    · exact recorded.allSettled
    refine Ensures.bind (pm_ensures (ask_ensures fun _ => rfl)) ?_
    rintro made first rfl
    split
    · exact recorded.allSettled
    refine Ensures.bind (pm_ensures (idsAt_ensures dest)) ?_
    rintro ids between ⟨looked, listed, -⟩
    have recorded := looked.recorded recorded
    split
    · exact recorded.allSettled
    rename_i before
    split
    · exact recorded.allSettled
    rename_i isEmpty
    rcases listed before rfl with ⟨norm, isNorm, isList⟩
    cases eq_of_pmNorm (destOk_ends launcher ok) isNorm
    have empty : between.table.idsAt dest = [] := by
      rw [looked.table, ← isList]
      exact not_not.mp isEmpty
    refine Ensures.bind (pm_ensures (mount_ensures isNorm empty)) ?_
    rintro status bound ⟨works, fails⟩
    split
    · rename_i notZero
      rw [fails notZero]
      exact recorded.allSettled
    rename_i isZero
    rcases works (not_not.mp isZero) with ⟨id, isBound⟩
    refine Ensures.bind (pm_ensures (pmRegisterNew_ensures dest before)) fun _ stored kept => ?_
    refine Ensures.bind (pathOwnedVisible_ensures launcher dest) ?_
    rintro owned after ⟨again, found⟩
    have later := kept.trans again
    have others : ∀ pair ∈ between.made, entry pair.1 pair.2 ∈ after.registry := fun pair member =>
      later.registry (isBound.registry ▸ recorded pair member)
    have made : after.made = between.made ++ [(id, dest)] := later.made.trans isBound.made
    cases owned with
    | true =>
        rcases found rfl with ⟨visibleId, isRecorded, visible⟩
        rcases isBound.visible visibleId (later.table ▸ visible) with ⟨rfl, stays⟩
        have isMade : (visibleId, dest) ∈ after.made := by simp [made]
        refine ⟨fun pair member => ?_, ⟨visibleId, isMade, isRecorded, visible⟩, ?_⟩
        · rw [made] at member
          rcases List.mem_append.mp member with old | new
          · exact others pair old
          · cases List.mem_singleton.mp new
            exact isRecorded
        · exact fun other apart held => later.held (stays other apart (looked.held held))
    | false =>
        have isMade : (id, dest) ∈ after.made := by simp [made]
        rw [not_not.mp isEmpty]
        refine Ensures.mono (notOwned_ensures launcher (later.ids_eq ▸ isBound.isThere) isMade
          (later.alone isBound.alone)) ?_
        rintro _ last ⟨rfl, rest, settled⟩
        intro pair member
        rw [rest.made, made] at member
        rcases List.mem_append.mp member with old | new
        · exact .inr (.inl (rest.registry (others pair old)))
        · cases List.mem_singleton.mp new
          exact settled

/-! ## The first bind is released -/

theorem releaseLines_ensures (path : Text) (lines : List Text) (settled : AllSettled session) :
    (releaseLines path lines).Ensures machine anyhow (fun _ after => AllSettled after) session := by
  induction lines generalizing session with
  | nil => exact settled
  | cons line rest induction =>
      rw [releaseLines]
      split
      · exact induction settled
      · rename_i isLine
        rw [not_or, not_not] at isLine
        cases isId : pmEntryId line with
        | none => exact induction settled
        | some id =>
            rcases entry_of_pmEntryId isId with ⟨isEntry, number⟩
            rw [isLine.2] at isEntry
            refine Ensures.bind (pm_ensures (role_ensures path id)) ?_
            rintro role between ⟨looked, -, visible, -⟩
            have settled := looked.allSettled settled
            split
            · exact settled
            · refine Ensures.bind (pm_ensures (umount_ensures path)) ?_
              rintro status unmounted ⟨kept, ended⟩
              have settled := kept.allSettled settled
              split
              · rename_i isZero
                have gone := (ended id (looked.table ▸ visible rfl)).1 isZero
                rw [← isEntry]
                refine Ensures.bind (pm_ensures (pmDropExact_ensures number gone settled)) ?_
                exact fun _ after dropped => induction dropped.2
              · exact induction settled
            · exact induction settled

theorem releasePath_ensures (path : Text) (settled : AllSettled session) :
    (releasePath launcher path).Ensures machine anyhow (fun _ after => AllSettled after) session := by
  refine Ensures.bind (pm_ensures (ask_ensures fun _ => rfl)) ?_
  rintro isFile _ rfl
  split
  · exact settled
  · refine Ensures.bind (pm_ensures registry_ensures) ?_
    rintro _ _ ⟨rfl, rfl⟩
    exact releaseLines_ensures path _ settled

/-! ## Whole calls -/

theorem scrub_ensures (nothing : session.made = []) : (scrub launcher).Ensures machine anyhow
    (fun _ after => after.made = []) session := by
  refine Ensures.bind (pm_ensures (ask_ensures fun _ => rfl)) ?_
  rintro isFile _ rfl
  split
  · exact nothing
  refine Ensures.bind (pm_ensures (ask_ensures fun _ => rfl)) ?_
  rintro isPlain _ rfl
  split
  · exact nothing
  refine Ensures.bind (pm_ensures (ask_ensures fun _ => rfl)) ?_
  rintro made _ rfl
  split
  · exact nothing
  refine Ensures.bind (pm_ensures registry_ensures) ?_
  rintro _ _ ⟨rfl, rfl⟩
  refine Ensures.issue trivial trivial fun _ attempt => .inl ⟨_, _, rfl, ?_⟩
  rcases attempt with ⟨_ | _, next, visit⟩ <;> exact nothing

theorem ready_ensures (nothing : session.made = []) : (ready launcher).Ensures machine anyhow
    (fun _ after => after.made = []) session := by
  refine Ensures.bind (pm_ensures (ask_ensures fun _ => rfl)) ?_
  rintro loaded _ rfl
  split
  · exact nothing
  refine Ensures.bind (pm_ensures (ask_ensures fun _ => rfl)) ?_
  rintro blocked _ rfl
  split
  · exact nothing
  refine Ensures.bind (pm_ensures (ask_ensures fun _ => rfl)) ?_
  rintro isPlain _ rfl
  split
  · exact nothing
  refine Ensures.bind (pm_ensures (ask_ensures fun _ => rfl)) ?_
  rintro made _ rfl
  split
  · exact nothing
  refine Ensures.bind (pm_ensures (ask_ensures fun _ => rfl)) ?_
  rintro isThere _ rfl
  split
  · exact nothing
  · exact scrub_ensures launcher nothing

/-- With status 0 the binds are held, and with another one every bind of the call is settled. -/
def Ends (dests : List Text) (status : Nat) (after : Session) : Prop :=
  (status = 0 ∧ ∀ dest ∈ dests, Held after dest) ∨ (status ≠ 0 ∧ AllSettled after)

theorem flycastPrepare_ensures (source dest : Text) (nothing : session.made = []) :
    (flycastPrepare source dest).Ensures machine anyhow (Ends [dest]) session := by
  have empty : ∀ {after : Session}, after.made = [] → Recorded after := by
    intro after none pair member
    rw [none] at member
    cases member
  refine Ensures.bind (ready_ensures flycast nothing) fun isReady first none => ?_
  split
  · exact .inr ⟨nofun, (empty none).allSettled⟩
  · refine Ensures.bind (bindOne_ensures flycast source dest (empty none)) fun started after ended => ?_
    cases started with
    | true => exact .inl ⟨rfl, fun _ member => List.mem_singleton.mp member ▸ ended.held⟩
    | false => exact .inr ⟨nofun, ended⟩

theorem ppssppPrepare_ensures (source₁ source₂ : Text) {dest₁ dest₂ : Text}
    (apart : Apart dest₂ dest₁) (nothing : session.made = []) :
    (ppssppPrepare source₁ source₂ dest₁ dest₂).Ensures machine anyhow (Ends [dest₁, dest₂])
      session := by
  have empty : ∀ {after : Session}, after.made = [] → Recorded after := by
    intro after none pair member
    rw [none] at member
    cases member
  refine Ensures.bind (ready_ensures ppsspp nothing) fun isReady first none => ?_
  split
  · exact .inr ⟨nofun, (empty none).allSettled⟩
  refine Ensures.bind (bindOne_ensures ppsspp source₁ dest₁ (empty none)) fun started second one => ?_
  cases started with
  | false => exact .inr ⟨nofun, one⟩
  | true =>
      refine Ensures.bind (bindOne_ensures ppsspp source₂ dest₂ one.recorded) fun also third two => ?_
      cases also with
      | false =>
          refine Ensures.bind (releasePath_ensures ppsspp dest₁ two) fun _ after settled => ?_
          exact .inr ⟨nofun, settled⟩
      | true =>
          refine .inl ⟨rfl, fun dest member => ?_⟩
          rcases List.mem_pair.mp member with rfl | rfl
          · exact two.others dest apart one.held
          · exact two.held

end Scripts

/-! ## Sibling destinations -/

/-- Two directories in one directory. -/
structure Siblings where
  directory : Text
  first : Text
  second : Text
  isFirst : IsName first
  isSecond : IsName second
  differ : first ≠ second

namespace Siblings

variable (siblings : Siblings)

def dest₁ : Text :=
  siblings.directory ++ slash :: siblings.first

def dest₂ : Text :=
  siblings.directory ++ slash :: siblings.second

theorem apart : Apart siblings.dest₂ siblings.dest₁ := by
  intro norm isNorm
  have ends : siblings.dest₁.getLast?.any (· ≠ slash) = true := by
    rcases first : siblings.first with _ | ⟨byte, rest⟩
    · exact absurd first siblings.isFirst.1
    · have isLast : siblings.dest₁.getLast? = (byte :: rest).getLast? := by
        rw [dest₁, first, List.getLast?_append, List.getLast?_cons_cons,
          List.getLast?_eq_some_getLast (List.cons_ne_nil byte rest)]
        rfl
      rw [isLast, List.getLast?_eq_some_getLast (List.cons_ne_nil byte rest)]
      simp only [Option.any_some, ne_eq, decide_eq_true_eq]
      intro same
      apply siblings.isFirst.2
      rw [first, ← same]
      exact List.getLast_mem _
  cases eq_of_pmNorm ends isNorm
  have differs : siblings.dest₂ ≠ siblings.dest₁ := by
    intro same
    have tails := List.append_cancel_left same
    exact siblings.differ (List.cons.inj tails).2.symm
  refine ⟨differs, ?_⟩
  unfold isPrefix
  rw [if_neg differs, if_neg]
  · rw [← Bool.not_eq_true, List.isPrefixOf_iff_prefix, dest₂, dest₁, List.append_assoc,
      List.prefix_append_right_inj, List.cons_append, List.cons_prefix_cons]
    rintro ⟨-, inside⟩
    exact siblings.isFirst.2 (inside.subset (List.mem_append_right _ List.mem_cons_self))
  · intro isRoot
    have lengths := congrArg List.length isRoot
    have nonempty := List.length_pos_iff.mpr siblings.isSecond.1
    simp only [dest₂, List.length_append, List.length_cons, List.length_nil] at lengths
    omega

end Siblings

/-- What a call leaves behind. With status 0, what an unmount of each destination would detach is
a mount that the call made and recorded; with another status every mount that it made is
settled. -/
structure OwnedOrUndone (dests : List Text) (status : Nat) (after : Session) : Prop where
  owned : status = 0 → ∀ dest ∈ dests, ∃ mount norm, (mount.id, dest) ∈ after.made ∧
    entry mount.id dest ∈ after.registry ∧ pmNorm dest = some norm ∧
      ∀ there, after.world.space.Detaches norm there ↔ there = mount
  undone : status ≠ 0 → AllSettled after

theorem Ends.ownedOrUndone {dests : List Text} {status : Nat} {after : Session}
    (ends : Ends dests status after) : OwnedOrUndone dests status after := by
  rcases ends with ⟨isZero, held⟩ | ⟨notZero, settled⟩
  · refine ⟨fun _ dest member => ?_, fun notZero => absurd isZero notZero⟩
    rcases held dest member with ⟨id, isMade, recorded, visible⟩
    rcases Table.sees_eq_visible.mp visible with ⟨norm, isNorm, -, shown⟩
    have isTop := (Table.role_eq_visible.mp shown).2
    rcases Space.detaches_of_roleOf (fun _ => Iff.rfl) isTop with ⟨-, mount, rfl, detaches⟩
    exact ⟨mount, norm, isMade, recorded, isNorm, detaches⟩
  · exact ⟨fun isZero => absurd isZero notZero, fun _ => settled⟩

def samples : Siblings where
  directory := ascii "/s/.config/ppsspp/PSP"
  first := ascii "SAVEDATA"
  second := ascii "PPSSPP_STATE"
  isFirst := by unfold IsName; decide
  isSecond := by unfold IsName; decide
  differ := by decide

def samplePath (name : String) : List Text :=
  [ascii "s", ascii ".config", ascii "ppsspp", ascii "PSP", ascii name]

theorem describes_of_read {file : Text} {mounts : List (Mount Text Text)} {root : Mount Text Text}
    (isRead : Table.read file = ⟨mounts.map Row.of, false⟩)
    (names : ∀ mount ∈ mounts, ∀ name ∈ mount.point, IsName name) (tree : IsTree mounts root) :
    (Table.read file).Describes mounts root := by
  rw [isRead]
  exact ⟨rfl, rfl, names, tree⟩

theorem isTree_bound (point : List Text) :
    IsTree [rootMount, ⟨ascii "40", ascii "22", point⟩] rootMount :=
  isTree_root.with_leaf _ _ List.mem_cons_self rfl List.nil_prefix
    (show ∀ mount ∈ [rootMount], mount.id ≠ ascii "40" by decide)
    (show rootMount.parent ≠ ascii "40" by decide)

/-- The first bind is at its destination. -/
def boundSpace : Space where
  mounts := [rootMount, ⟨ascii "40", ascii "22", samplePath "SAVEDATA"⟩]
  root := rootMount
  mountinfo := ascii "22 1 179:2 / / rw\n40 22 0:40 / /s/.config/ppsspp/PSP/SAVEDATA rw\n"
  describes := describes_of_read (by decide +kernel) (by unfold IsName; decide) (isTree_bound _)

/-- The directory of the first destination is a symlink. -/
def elsewhereSpace : Space where
  mounts := [rootMount, ⟨ascii "40", ascii "22", [ascii "x"]⟩]
  root := rootMount
  mountinfo := ascii "22 1 179:2 / / rw\n40 22 0:40 / /x rw\n"
  describes := describes_of_read (by decide +kernel) (by unfold IsName; decide) (isTree_bound _)

/-- Two cards on each other, with a mount inside each of them. -/
def stackedMounts : List (Mount Text Text) :=
  [rootMount, ⟨ascii "30", ascii "22", [ascii "s"]⟩,
    ⟨ascii "31", ascii "30", [ascii "s", ascii ".config"]⟩, ⟨ascii "32", ascii "30", [ascii "s"]⟩,
    ⟨ascii "33", ascii "32", [ascii "s", ascii ".config"]⟩]

theorem isTree_stacked : IsTree stackedMounts rootMount := by
  have card := isTree_root.with_leaf rootMount ⟨ascii "30", ascii "22", [ascii "s"]⟩
    (by decide) rfl (by decide) (by decide) (by decide)
  have inside := card.with_leaf ⟨ascii "30", ascii "22", [ascii "s"]⟩
    ⟨ascii "31", ascii "30", [ascii "s", ascii ".config"]⟩
    (by decide) rfl (by decide) (by decide) (by decide)
  have stacked := inside.with_leaf ⟨ascii "30", ascii "22", [ascii "s"]⟩
    ⟨ascii "32", ascii "30", [ascii "s"]⟩ (by decide) rfl (by decide) (by decide) (by decide)
  exact stacked.with_leaf ⟨ascii "32", ascii "30", [ascii "s"]⟩
    ⟨ascii "33", ascii "32", [ascii "s", ascii ".config"]⟩
    (by decide) rfl (by decide) (by decide) (by decide)

def stackedSpace : Space where
  mounts := stackedMounts
  root := rootMount
  mountinfo := ascii "22 1 179:2 / / rw\n30 22 8:1 / /s rw\n31 30 0:9 / /s/.config rw\n" ++
    ascii "32 30 8:2 / /s rw\n33 32 0:9 / /s/.config rw\n"
  describes := describes_of_read (by decide +kernel) (by unfold IsName; decide) isTree_stacked

def stackedBound : Space where
  mounts := stackedMounts ++ [⟨ascii "40", ascii "33", samplePath "SAVEDATA"⟩]
  root := rootMount
  mountinfo := ascii "22 1 179:2 / / rw\n30 22 8:1 / /s rw\n31 30 0:9 / /s/.config rw\n" ++
    ascii "32 30 8:2 / /s rw\n33 32 0:9 / /s/.config rw\n" ++
    ascii "40 33 8:2 / /s/.config/ppsspp/PSP/SAVEDATA rw\n"
  describes := describes_of_read (by decide +kernel) (by unfold IsName; decide) <|
    isTree_stacked.with_leaf ⟨ascii "33", ascii "32", [ascii "s", ascii ".config"]⟩ _
      (by decide) rfl (by decide) (by decide) (by decide)

theorem mem_id_iff (paths : List Text) (path : Text) : path ∈ id paths ↔ path ∈ paths :=
  Iff.rfl

def attempt (ok : Bool) (next : Option Space) : Attempt :=
  ⟨ok, next, ⟨id, mem_id_iff⟩⟩

def works : Attempt :=
  attempt true none

def fails : Attempt :=
  attempt false none

/-- Everything up to the first bind works, and the bind makes the mounts. -/
def bindsTo (next : Space) : List Attempt :=
  works :: fails :: List.replicate 11 works ++ [attempt true (some next)]

/-- The bind is not recorded, as there is no temporary file, and there is none either for the
second list of ids. -/
def withoutFiles : List Attempt :=
  bindsTo boundSpace ++ [fails, works, works, fails]

/-- The bind is not recorded, and the table does not tell which mount is visible. -/
def unclear : List Attempt :=
  bindsTo stackedBound ++ fails :: List.replicate 5 works

/-- The bind is at another path of the mount table. -/
def elsewhere : List Attempt :=
  bindsTo elsewhereSpace ++ List.replicate 7 works

def prepared (space : Space) (attempts : List Attempt) : Outcome Nat × Session :=
  (Binds.ppssppPrepare (ascii "/v") (ascii "/w") samples.dest₁ samples.dest₂).exec machine attempts
    (.starting (worldOf space))

/-- The call fails and leaves a mount that it made and did not record, though no unmount
failed and the mount table could be read. -/
def leavesBehind (ending : Outcome Nat × Session) : Bool :=
  ending.1 = .done 1 && ending.2.refused.isEmpty && !ending.2.unread &&
    ending.2.made.any ending.2.exposes

end Zlyme.Pak.SaveBinds
