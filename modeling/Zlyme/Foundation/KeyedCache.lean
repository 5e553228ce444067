import Mathlib.Data.List.Basic

/-! # Caches

A cache keeps the first value that is built under a key. What it hands out is right if and only
if the key tells the values that are wanted apart.
-/

namespace Foundation.KeyedCache

variable {Key Value : Type} [DecidableEq Key]

/-- One use of the cache. -/
structure Lookup (Key Value : Type) where
  key : Key
  /-- The value that is right. -/
  wanted : Value
  /-- Whether the value can be built. -/
  works : Bool
  got : Option Value
  deriving DecidableEq, Repr

/-- What the cache holds under a key after these lookups. -/
def held (log : List (Lookup Key Value)) (key : Key) : Option Value :=
  (log.find? fun lookup => lookup.works && lookup.key == key).map Lookup.wanted

/-- Each lookup takes what is held, or builds its value. -/
inductive Consistent : List (Lookup Key Value) → Prop
  | nil : Consistent []
  | snoc {log : List (Lookup Key Value)} {lookup : Lookup Key Value} (before : Consistent log)
      (isGot : lookup.got = (held log lookup.key).or (if lookup.works then some lookup.wanted else none)) :
      Consistent (log ++ [lookup])

/-- Every value that is handed out is the one that is wanted. -/
def Right (log : List (Lookup Key Value)) : Prop :=
  ∀ lookup ∈ log, ∀ value, lookup.got = some value → value = lookup.wanted

/-- Lookups with one key want one value, from the first that can build it on. -/
def Separated (log : List (Lookup Key Value)) : Prop :=
  log.Pairwise fun earlier later =>
    earlier.works = true → earlier.key = later.key → earlier.wanted = later.wanted

section Held

variable {log : List (Lookup Key Value)} {lookup : Lookup Key Value} {key : Key} {value : Value}

theorem held_snoc (log : List (Lookup Key Value)) (lookup : Lookup Key Value) (key : Key) :
    held (log ++ [lookup]) key =
      (held log key).or (if lookup.works ∧ lookup.key = key then some lookup.wanted else none) := by
  rw [held, List.find?_append, held]
  cases log.find? fun lookup => lookup.works && lookup.key == key with
  | some found => rfl
  | none =>
      by_cases built : lookup.works = true ∧ lookup.key = key
      · simp [built]
      · have skipped : (lookup.works && lookup.key == key) = false := by
          simpa using built
        simp [built, skipped]

theorem exists_of_held (isHeld : held log key = some value) :
    ∃ lookup ∈ log, lookup.works = true ∧ lookup.key = key ∧ lookup.wanted = value := by
  rcases Option.map_eq_some_iff.mp isHeld with ⟨lookup, found, isValue⟩
  have built := List.find?_some found
  rw [Bool.and_eq_true, beq_iff_eq] at built
  exact ⟨lookup, List.mem_of_find?_eq_some found, built.1, built.2, isValue⟩

theorem held_of_works (member : lookup ∈ log) (works : lookup.works = true) :
    ∃ value, held log lookup.key = some value := by
  have isSome : (log.find? fun other => other.works && other.key == lookup.key).isSome = true := by
    rw [List.find?_isSome]
    exact ⟨lookup, member, by simp [works]⟩
  rcases Option.isSome_iff_exists.mp isSome with ⟨found, isFound⟩
  exact ⟨found.wanted, by rw [held, isFound]; rfl⟩

/-- What was handed out is still held. -/
theorem Consistent.held_of_got (consistent : Consistent log) (member : lookup ∈ log)
    (isGot : lookup.got = some value) : held log lookup.key = some value := by
  induction consistent with
  | nil => cases member
  | @snoc log last before lastGot induction =>
      rw [held_snoc]
      rcases List.mem_append.mp member with earlier | isLast
      · rw [induction earlier]
        rfl
      · cases List.mem_singleton.mp isLast
        rw [← isGot, lastGot]
        simp

theorem Consistent.got_of_works (consistent : Consistent log) (member : lookup ∈ log)
    (works : lookup.works = true) : ∃ value, lookup.got = some value := by
  induction consistent with
  | nil => cases member
  | @snoc log last before lastGot induction =>
      rcases List.mem_append.mp member with earlier | isLast
      · exact induction earlier
      · cases List.mem_singleton.mp isLast
        rw [lastGot, if_pos works]
        cases held log lookup.key with
        | none => exact ⟨lookup.wanted, rfl⟩
        | some found => exact ⟨found, rfl⟩

end Held

/-- A cache hands out the right values if and only if its keys separate them. -/
theorem Consistent.right_iff {log : List (Lookup Key Value)} (consistent : Consistent log) :
    Right log ↔ Separated log := by
  induction consistent with
  | nil => simp [Right, Separated]
  | @snoc log last before lastGot induction =>
      have split : Right (log ++ [last]) ↔
          Right log ∧ ∀ value, last.got = some value → value = last.wanted := by
        simp [Right, or_imp, forall_and]
      have pairs : Separated (log ++ [last]) ↔ Separated log ∧
          ∀ earlier ∈ log, earlier.works = true → earlier.key = last.key →
            earlier.wanted = last.wanted := by
        simp [Separated, List.pairwise_append]
      rw [split, pairs, induction]
      apply and_congr_right
      intro separated
      constructor
      · intro lastRight earlier member works sameKey
        rcases before.got_of_works member works with ⟨value, isGot⟩
        have isHeld := before.held_of_got member isGot
        have lastIs : last.got = some value := by
          rw [lastGot, ← sameKey, isHeld]
          rfl
        rw [← lastRight value lastIs]
        exact (induction.mpr separated earlier member value isGot).symm
      · intro lastSeparated value isGot
        rw [lastGot] at isGot
        cases isHeld : held log last.key with
        | some found =>
            rw [isHeld] at isGot
            rcases exists_of_held isHeld with ⟨earlier, member, works, sameKey, isValue⟩
            cases isGot
            rw [← isValue]
            exact lastSeparated earlier member works sameKey
        | none =>
            rw [isHeld] at isGot
            by_cases works : last.works = true
            · simpa [works, eq_comm] using isGot
            · simp [works] at isGot

/-- Two lookups with one key are handed the same value. -/
theorem Consistent.got_eq {log : List (Lookup Key Value)} (consistent : Consistent log)
    {first second : Lookup Key Value} (isFirst : first ∈ log) (isSecond : second ∈ log)
    {one other : Value} (firstGot : first.got = some one) (secondGot : second.got = some other)
    (sameKey : first.key = second.key) : one = other := by
  have firstHeld := consistent.held_of_got isFirst firstGot
  rw [sameKey, consistent.held_of_got isSecond secondGot] at firstHeld
  exact (Option.some.inj firstHeld).symm

end Foundation.KeyedCache
