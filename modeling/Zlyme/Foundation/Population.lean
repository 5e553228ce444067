import Mathlib.Data.List.Nodup
import Zlyme.Foundation.Execution

/-! # Populations

Items come and go under keys. A key may be taken again by a later item, which then has an
identity that was never used before. An observer that looks twice under one key and finds
the same identity knows that every item it met there in between was that one.
-/

namespace Foundation

structure Population (Item Id : Type) where
  live : List Item
  /-- The identities of all items so far. -/
  used : List Id

/-- What tells items apart, where they are found, and how one may change. -/
structure Lineage (Item Id Key : Type) where
  identity : Item → Id
  key : Id → Key
  allowed : Item → Item → Bool

inductive Population.Change (Item Key : Type)
  | appear (item : Item)
  | become (item : Item)
  | vanish (key : Key)

namespace Lineage

variable {Item Id Key : Type} [DecidableEq Key] (kind : Lineage Item Id Key)

/-! ## Lookup -/

def at? (population : Population Item Id) (key : Key) : Option Item :=
  population.live.find? fun item => kind.key (kind.identity item) == key

/-- One item at most under every key, and no identity that was not noted. -/
structure Ok (population : Population Item Id) : Prop where
  keys : (population.live.map fun item => kind.key (kind.identity item)).Nodup
  used : ∀ item ∈ population.live, kind.identity item ∈ population.used

/-- An item that was there and is not any more. -/
def Gone (id : Id) (population : Population Item Id) : Prop :=
  id ∈ population.used ∧ ∀ item ∈ population.live, kind.identity item ≠ id

variable {kind} {population : Population Item Id}

theorem at?_eq_some {key : Key} {item : Item} (found : kind.at? population key = some item) :
    item ∈ population.live ∧ kind.key (kind.identity item) = key := by
  have matched := List.find?_some found
  exact ⟨List.mem_of_find?_eq_some found, by simpa using matched⟩

theorem at?_eq_none {key : Key} (missing : kind.at? population key = none) :
    ∀ item ∈ population.live, kind.key (kind.identity item) ≠ key := by
  intro item member
  simpa using List.find?_eq_none.mp missing item member

omit [DecidableEq Key] in
/-- Items with one key are one item. -/
theorem Ok.eq_of_key (ok : kind.Ok population) {first second : Item}
    (isFirst : first ∈ population.live) (isSecond : second ∈ population.live)
    (same : kind.key (kind.identity first) = kind.key (kind.identity second)) :
    first = second :=
  List.inj_on_of_nodup_map ok.keys isFirst isSecond same

theorem Ok.at? (ok : kind.Ok population) {item : Item} (member : item ∈ population.live) :
    kind.at? population (kind.key (kind.identity item)) = some item := by
  cases found : kind.at? population (kind.key (kind.identity item)) with
  | none => exact absurd rfl (at?_eq_none found item member)
  | some other =>
      have other_ := at?_eq_some found
      rw [ok.eq_of_key member other_.1 other_.2.symm]

omit [DecidableEq Key] in
/-- Under a key that was taken once, whoever else is there shows that the first one is gone. -/
theorem Ok.gone_of_other (ok : kind.Ok population) {id : Id} (noted : id ∈ population.used)
    {item : Item} (member : item ∈ population.live)
    (sameKey : kind.key (kind.identity item) = kind.key id)
    (different : kind.identity item ≠ id) : kind.Gone id population := by
  refine ⟨noted, ?_⟩
  intro other inside same
  have equal := ok.eq_of_key member inside (by rw [sameKey, same])
  rw [equal] at different
  exact different same

theorem gone_of_missing {id : Id} (noted : id ∈ population.used)
    (missing : kind.at? population (kind.key id) = none) : kind.Gone id population := by
  refine ⟨noted, ?_⟩
  intro item member same
  exact at?_eq_none missing item member (by rw [same])

/-! ## Changes -/

variable [DecidableEq Id]

variable (kind) in
def change (population : Population Item Id) :
    Population.Change Item Key → Population Item Id
  | .appear item =>
      if kind.at? population (kind.key (kind.identity item)) = none ∧
          kind.identity item ∉ population.used then
        { live := item :: population.live, used := kind.identity item :: population.used }
      else population
  | .become item =>
      match kind.at? population (kind.key (kind.identity item)) with
      | none => population
      | some old =>
          if kind.identity old = kind.identity item ∧ kind.allowed old item = true then
            { population with
              live := population.live.map fun other =>
                if kind.identity other = kind.identity item then item else other }
          else population
  | .vanish key =>
      { population with
        live := population.live.filter fun item => kind.key (kind.identity item) != key }

theorem change_ok (ok : kind.Ok population) (event : Population.Change Item Key) :
    kind.Ok (kind.change population event) := by
  cases event with
  | appear item =>
      rw [change]
      split
      · rename_i free
        refine ⟨?_, ?_⟩
        · refine List.nodup_cons.mpr ⟨?_, ok.keys⟩
          intro taken
          rcases List.mem_map.mp taken with ⟨other, member, same⟩
          exact at?_eq_none free.1 other member same
        · intro other member
          rcases List.mem_cons.mp member with rfl | member
          · exact List.mem_cons_self
          · exact List.mem_cons_of_mem _ (ok.used other member)
      · exact ok
  | become item =>
      rw [change]
      split
      · exact ok
      · rename_i old found
        split
        · rename_i allowed
          have same : ∀ other : Item, kind.identity
              (if kind.identity other = kind.identity item then item else other) =
                kind.identity other := by
            intro other
            split
            · rename_i equal
              exact equal.symm
            · rfl
          refine ⟨?_, ?_⟩
          · have keys := ok.keys
            simp only [List.map_map, Function.comp_def, same]
            exact keys
          · intro other member
            rcases List.mem_map.mp member with ⟨before, inside, rfl⟩
            rw [same]
            exact ok.used before inside
        · exact ok
  | vanish key =>
      refine ⟨?_, ?_⟩
      · exact ok.keys.sublist (List.filter_sublist.map _)
      · intro item member
        exact ok.used item (List.mem_of_mem_filter member)

/-! ## What a change keeps -/

theorem change_used (event : Population.Change Item Key) {id : Id} (noted : id ∈ population.used) :
    id ∈ (kind.change population event).used := by
  cases event with
  | appear item =>
      rw [change]
      split
      · exact List.mem_cons_of_mem _ noted
      · exact noted
  | become item =>
      rw [change]
      split
      · exact noted
      · split <;> exact noted
  | vanish key => exact noted

/-- A noted identity keeps what allowed changes keep. An item that is gone has every trait. -/
theorem change_trait (trait : Item → Prop)
    (kept : ∀ old item, kind.identity old = kind.identity item → kind.allowed old item = true →
      trait old → trait item)
    (event : Population.Change Item Key) {id : Id} (noted : id ∈ population.used)
    (holds : ∀ item ∈ population.live, kind.identity item = id → trait item) :
    ∀ item ∈ (kind.change population event).live, kind.identity item = id → trait item := by
  cases event with
  | appear item =>
      rw [change]
      split
      · rename_i free
        intro other member same
        rcases List.mem_cons.mp member with rfl | member
        · rw [same] at free
          exact absurd noted free.2
        · exact holds other member same
      · exact holds
  | become item =>
      rw [change]
      split
      · exact holds
      · rename_i old found
        split
        · rename_i allowed
          intro other member same
          rcases List.mem_map.mp member with ⟨before, inside, rfl⟩
          split at same
          · rename_i equal
            rw [if_pos equal]
            have oldTrait := holds old (at?_eq_some found).1 (allowed.1.trans same)
            exact kept old item allowed.1 allowed.2 oldTrait
          · rename_i different
            rw [if_neg different]
            exact holds before inside same
        · exact holds
  | vanish key =>
      intro item member same
      exact holds item (List.mem_of_mem_filter member) same

theorem change_gone (event : Population.Change Item Key) {id : Id}
    (gone : kind.Gone id population) : kind.Gone id (kind.change population event) := by
  refine ⟨change_used event gone.1, ?_⟩
  exact change_trait (fun _ => False) (fun _ _ _ _ absurdity => absurdity) event gone.1 gone.2

/-- An item stays, possibly changed, unless it is made to vanish. -/
theorem change_held (event : Population.Change Item Key) {id : Id}
    (held : ∃ item ∈ population.live, kind.identity item = id)
    (stays : event ≠ .vanish (kind.key id)) :
    ∃ item ∈ (kind.change population event).live, kind.identity item = id := by
  rcases held with ⟨item, member, same⟩
  cases event with
  | appear new =>
      rw [change]
      split
      · exact ⟨item, List.mem_cons_of_mem _ member, same⟩
      · exact ⟨item, member, same⟩
  | become new =>
      rw [change]
      split
      · exact ⟨item, member, same⟩
      · split
        · refine ⟨_, List.mem_map_of_mem member, ?_⟩
          split
          · rename_i equal
            exact equal.symm.trans same
          · exact same
        · exact ⟨item, member, same⟩
  | vanish key =>
      refine ⟨item, List.mem_filter.mpr ⟨member, ?_⟩, same⟩
      rw [same, bne_iff_ne]
      intro equal
      rw [equal] at stays
      exact stays rfl

end Lineage

end Foundation
