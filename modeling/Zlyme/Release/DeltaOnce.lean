import Zlyme.Release.DeltaAgreement

/-! # Repeated keys of the delta manifest

`read_delta_manifest` takes a key for a repeated one when its variable is not
empty. A key whose values so far are empty may therefore stand again.
-/

namespace Zlyme.Release

open Foundation Foundation.Text

/-! ## Lines -/

/-- Blank, a comment, or a known key with an allowed value. -/
def WellFormedLine (line : Text) : Prop :=
  line = [] ∨ line.head? = some '#' ∨
    ∃ key : Key, ∃ value, line = key.text ++ '=' :: value ∧ value.any refusedInShell = false

/-- The values that a key is given, in the order of the lines. -/
def assigned (key : Key) (texts : List Text) : List Text :=
  texts.filterMap fun line =>
    match cut '=' line with
    | some (name, value) => if name = key.text then some value else none
    | none => none

theorem assigned_nil_line (key : Key) (texts : List Text) :
    assigned key ([] :: texts) = assigned key texts := rfl

theorem assigned_comment (key : Key) (rest : Text) (texts : List Text) :
    assigned key (('#' :: rest) :: texts) = assigned key texts := by
  have notKey : ∀ name, '#' :: name ≠ key.text := by
    intro name same
    cases key <;> cases same
  rw [assigned, List.filterMap_cons_none]
  · rfl
  · split
    · rename_i name value isCut
      rcases cut_eq_some.mp isCut with ⟨split, _⟩
      cases name with
      | nil => cases split
      | cons char name =>
          cases split
          exact if_neg (notKey name)
    · rfl

theorem assigned_assignment (key other : Key) (value : Text) (texts : List Text) :
    assigned key ((other.text ++ '=' :: value) :: texts) =
      if key = other then value :: assigned key texts else assigned key texts := by
  rw [assigned, List.filterMap_cons, cut_assignment]
  by_cases same : key = other
  · subst same
    simp [assigned]
  · have differs : ¬other.text = key.text := by
      intro sameText
      have sameKey := congrArg keyOf sameText
      rw [keyOf_text, keyOf_text] at sameKey
      exact same (Option.some.inj sameKey).symm
    simp [assigned, same, differs]

theorem ShellLine.wellFormed {vars next : DeltaVars} {line : Text} (step : ShellLine vars line next) :
    WellFormedLine line := by
  cases step with
  | blank => exact .inl rfl
  | comment rest => exact .inr (.inl rfl)
  | assignment key value first allowed => exact .inr (.inr ⟨key, value, rfl, allowed⟩)

section Loop

variable {vars last : DeltaVars}

theorem readDeltaLines_assignment {key : Key} {value : Text} {rest : List Text}
    (allowed : value.any refusedInShell = false) :
    ((key.text ++ '=' :: value) :: rest).foldlM readDeltaLine vars = .ok last ↔
      vars key = [] ∧ rest.foldlM readDeltaLine (Function.update vars key value) = .ok last := by
  rw [readDeltaLines_cons]
  constructor
  · rintro ⟨next, step, read⟩
    have unset : vars key = [] := by
      generalize isLine : key.text ++ '=' :: value = line at step
      cases step with
      | blank => cases key <;> cases isLine
      | comment => cases key <;> cases isLine
      | assignment other value' first =>
          rcases assignment_inj isLine with ⟨rfl, rfl⟩
          exact first
    have same : next = Function.update vars key value :=
      Except.ok.inj ((readDeltaLine_eq_ok.mpr step).symm.trans
        (readDeltaLine_eq_ok.mpr (.assignment key value unset allowed)))
    exact ⟨unset, same ▸ read⟩
  · rintro ⟨unset, read⟩
    exact ⟨_, .assignment key value unset allowed, read⟩

/-- What a first value leaves of the condition on one key. -/
theorem assigned_first {value : Text} {values : List Text} {start final : Text} :
    ((∀ other ∈ (start :: value :: values).dropLast, other = []) ∧
      final = (value :: values).getLastD start) ↔
      start = [] ∧ (∀ other ∈ (value :: values).dropLast, other = []) ∧
        final = values.getLastD value := by
  rw [List.dropLast_cons_cons, List.forall_mem_cons, List.getLastD_cons, and_assoc]

/-- The values of a key before its last one are empty, and the last one is its
variable's. -/
def EndsWith (vars last : DeltaVars) (texts : List Text) (key : Key) : Prop :=
  (∀ value ∈ (vars key :: assigned key texts).dropLast, value = []) ∧
    last key = (assigned key texts).getLastD (vars key)

theorem endsWith_assignment {key : Key} {value : Text} {rest : List Text} :
    (∀ other, EndsWith vars last ((key.text ++ '=' :: value) :: rest) other) ↔
      vars key = [] ∧ ∀ other, EndsWith (Function.update vars key value) last rest other := by
  have atKey : EndsWith vars last ((key.text ++ '=' :: value) :: rest) key ↔
      vars key = [] ∧ EndsWith (Function.update vars key value) last rest key := by
    rw [EndsWith, EndsWith, assigned_assignment, if_pos rfl, assigned_first, Function.update_self]
  have elsewhere : ∀ other, other ≠ key →
      (EndsWith vars last ((key.text ++ '=' :: value) :: rest) other ↔
        EndsWith (Function.update vars key value) last rest other) := by
    intro other differs
    rw [EndsWith, EndsWith, assigned_assignment, if_neg differs, Function.update_of_ne differs]
  constructor
  · intro each
    refine ⟨(atKey.mp (each key)).1, fun other => ?_⟩
    rcases eq_or_ne other key with rfl | differs
    · exact (atKey.mp (each other)).2
    · exact (elsewhere other differs).mp (each other)
  · rintro ⟨unset, each⟩ other
    rcases eq_or_ne other key with rfl | differs
    · exact atKey.mpr ⟨unset, each other⟩
    · exact (elsewhere other differs).mpr (each other)

/-- The loop ends if every line is well formed and no key follows a value that is
not empty; each variable then has the last value. -/
theorem readDeltaLines_eq_ok {texts : List Text} :
    texts.foldlM readDeltaLine vars = .ok last ↔
      (∀ line ∈ texts, WellFormedLine line) ∧ ∀ key, EndsWith vars last texts key := by
  induction texts generalizing vars with
  | nil =>
      have noValues : ∀ key, EndsWith vars last [] key ↔ last key = vars key := by
        intro key
        simp [EndsWith, assigned]
      simp only [noValues, ← funext_iff]
      constructor
      · intro read
        cases read
        exact ⟨fun _ member => absurd member List.not_mem_nil, rfl⟩
      · rintro ⟨_, rfl⟩
        rfl
  | cons line rest induction =>
      rw [List.forall_mem_cons]
      by_cases wellFormed : WellFormedLine line
      · rw [and_iff_right wellFormed]
        rcases wellFormed with rfl | isComment | ⟨key, value, rfl, allowed⟩
        · exact induction
        · rcases List.head?_eq_some_iff.mp isComment with ⟨text, rfl⟩
          simp only [EndsWith, assigned_comment]
          exact induction
        · rw [readDeltaLines_assignment allowed, induction, endsWith_assignment, and_left_comm]
      · refine iff_of_false ?_ fun both => wellFormed both.1.1
        rw [readDeltaLines_cons]
        rintro ⟨_, step, _⟩
        exact wellFormed step.wellFormed

end Loop

/-! ## The whole text -/

/-- The last value of each key, empty for a key that does not occur. -/
def lastValues (text : Text) : DeltaVars :=
  fun key => (assigned key (shellLines text)).getLastD []

/-- What the code checks, repeats aside: the lines, that a value followed by
another one of its key is empty, and the last values. -/
structure PassesChecks (text : Text) : Prop where
  lines : ∀ line ∈ shellLines text, WellFormedLine line
  earlier : ∀ key, ∀ value ∈ (assigned key (shellLines text)).dropLast, value = []
  accepted : Accepted (lastValues text)

theorem readDeltaManifest_eq_ok_iff {text : Text} {vars : DeltaVars} :
    readDeltaManifest text = .ok vars ↔ PassesChecks text ∧ vars = (lastValues text).lowered := by
  have ends : ∀ last, (∀ key, EndsWith (fun _ => []) last (shellLines text) key) ↔
      (∀ key, ∀ value ∈ (assigned key (shellLines text)).dropLast, value = []) ∧
        last = lastValues text := by
    intro last
    rw [funext_iff, ← forall_and]
    refine forall_congr' fun key => and_congr_left' ?_
    cases assigned key (shellLines text) with
    | nil => simp
    | cons first rest => rw [List.dropLast_cons_cons, List.forall_mem_cons, and_iff_right rfl]
  simp only [readDeltaManifest_eq_ok, readDeltaLines_eq_ok, ends]
  constructor
  · rintro ⟨_, ⟨lines, earlier, rfl⟩, accepted, isVars⟩
    exact ⟨⟨lines, earlier, accepted⟩, isVars⟩
  · rintro ⟨passes, isVars⟩
    exact ⟨_, ⟨passes.lines, passes.earlier, rfl⟩, passes.accepted, isVars⟩

/-- The variables are read off a text with every key at most once, whose lines and
values are in order. -/
structure SingleReading (text : Text) (vars : DeltaVars) : Prop where
  once : ∀ key, (assigned key (shellLines text)).length ≤ 1
  lines : ∀ line ∈ shellLines text, WellFormedLine line
  values : ∃ raw : DeltaVars, Accepted raw ∧ vars = raw.lowered ∧
    ∀ key, assigned key (shellLines text) = [raw key] ∨
      assigned key (shellLines text) = [] ∧ raw key = []

theorem PassesChecks.singleReading {text : Text} (passes : PassesChecks text)
    (once : ∀ key, (assigned key (shellLines text)).length ≤ 1) :
    SingleReading text (lastValues text).lowered where
  once := once
  lines := passes.lines
  values := by
    refine ⟨lastValues text, passes.accepted, rfl, fun key => ?_⟩
    have atMostOne := once key
    rw [lastValues]
    generalize assigned key (shellLines text) = values at atMostOne ⊢
    cases values with
    | nil => exact .inr ⟨rfl, rfl⟩
    | cons first rest =>
        have noMore : rest = [] := List.length_eq_zero_iff.mp (by simpa using atMostOne)
        subst noMore
        exact .inl rfl

/-- A text is read as the single occurrences of its keys, unless it repeats a key
and passes every other check: a repeated key is only refused after a value that
is not empty. -/
theorem read_delta_once (text : Text) :
    (∀ vars, readDeltaManifest text = .ok vars → SingleReading text vars) ↔
      ∀ key, 2 ≤ (assigned key (shellLines text)).length → ¬PassesChecks text := by
  constructor
  · intro single key repeated passes
    have once := (single _ (readDeltaManifest_eq_ok_iff.mpr ⟨passes, rfl⟩)).once key
    omega
  · intro unrepeated vars read
    rcases readDeltaManifest_eq_ok_iff.mp read with ⟨passes, rfl⟩
    refine passes.singleReading fun key => ?_
    by_contra repeated
    exact unrepeated key (by omega) passes

/-- `TYPE` stands twice, first without a value. -/
def repeatedType : Text :=
  unlines '\n' (["TYPE=", "TYPE=delta", "SCHEMA=1", "DEVICE=my355", "FROM_VERSION=zlyme43",
    "TARGET_VERSION=zlyme43.1", "TARGET_SIZE=5", "PATCH=zlyme.patch.zst"].map String.toList ++
    [Key.text .baseSha256 ++ '=' :: List.replicate 64 'a',
      Key.text .targetSha256 ++ '=' :: List.replicate 64 'b'])

theorem read_delta_repeated :
    ¬∀ vars, readDeltaManifest repeatedType = .ok vars → SingleReading repeatedType vars := by
  intro single
  have isAccepted : (readDeltaManifest repeatedType).isOk = true := by decide +kernel
  cases read : readDeltaManifest repeatedType with
  | error message =>
      rw [read] at isAccepted
      cases isAccepted
  | ok vars =>
      have once := (single vars read).once .type
      have twice : (assigned .type (shellLines repeatedType)).length = 2 := by decide +kernel
      omega

end Zlyme.Release
