import Zlyme.Release.DeltaManifest

/-! # The readings of the delta manifest agree

The loop of the shell is followed line by line; on the common format the loop of
Python takes the same steps.
-/

namespace Zlyme.Release

open Foundation Foundation.Text

/-! ## The two loops -/

/-- What Python has found where the shell has set these variables. -/
def DeltaVars.found (vars : DeltaVars) : Found :=
  fun key => if vars key = [] then none else some (vars key)

theorem DeltaVars.found_update {vars : DeltaVars} {key : Key} {value : Text} (nonempty : value ≠ []) :
    (show DeltaVars from Function.update vars key value).found =
      Function.update vars.found key (some value) := by
  funext other
  rcases eq_or_ne other key with rfl | differs
  · simp [DeltaVars.found, nonempty]
  · simp [DeltaVars.found, differs]

theorem keyOf_eq_some {name : Text} {key : Key} (found : keyOf name = some key) :
    name = key.text := by
  rw [keyOf] at found
  have isKey := List.find?_some found
  exact (beq_iff_eq.mp isKey).symm

theorem head_key (key : Key) : ∃ char rest, key.text = char :: rest ∧ isSpace char = false := by
  cases key <;> exact ⟨_, _, rfl, by decide⟩

theorem assignment_strip (key : Key) {value : Text} (clean : Clean value) :
    strip (key.text ++ '=' :: value) = key.text ++ '=' :: value := by
  rcases head_key key with ⟨first, rest, isKey, notSpace⟩
  refine strip_eq_self ?_ ?_
  · rw [isKey]
    rintro char ⟨⟩
    exact notSpace
  · intro char isLast
    have inValue : value.getLast? = some char := by
      rcases List.eq_nil_or_concat value with empty | ⟨init, last, isConcat⟩
      · exact absurd empty clean.nonempty
      · rw [List.concat_eq_append] at isConcat
        subst isConcat
        have whole : key.text ++ '=' :: (init ++ [last]) = (key.text ++ '=' :: init) ++ [last] :=
          (List.append_assoc key.text ('=' :: init) [last]).symm
        rw [whole, List.getLast?_concat] at isLast
        rw [List.getLast?_concat]
        exact isLast
    exact not_isSpace_of_clean (clean.chars char (List.mem_of_mem_getLast? inValue))

theorem cut_assignment (key : Key) (value : Text) :
    cut '=' (key.text ++ '=' :: value) = some (key.text, value) :=
  cut_eq_some.mpr ⟨rfl, by cases key <;> decide⟩

/-- A line that the shell takes: blank, a comment, or a first assignment. -/
inductive ShellLine (vars : DeltaVars) : Text → DeltaVars → Prop
  | blank : ShellLine vars [] vars
  | comment (rest : Text) : ShellLine vars ('#' :: rest) vars
  | assignment (key : Key) (value : Text) (first : vars key = [])
      (allowed : value.any refusedInShell = false) :
      ShellLine vars (key.text ++ '=' :: value) (Function.update vars key value)

theorem readDeltaLine_eq_ok {vars vars' : DeltaVars} {line : Text} :
    readDeltaLine vars line = .ok vars' ↔ ShellLine vars line vars' := by
  constructor
  · intro read
    rw [readDeltaLine] at read
    split at read
    · rename_i skipped
      cases read
      rcases skipped with rfl | isComment
      · exact .blank
      · rcases line with _ | ⟨char, rest⟩
        · cases isComment
        · cases isComment
          exact .comment rest
    · split at read
      · cases read
      · rename_i name value isCut
        rcases bind_eq_ok.mp read with ⟨_, allowed, read⟩
        split at read
        · cases read
        · rename_i key isKey
          rcases bind_eq_ok.mp read with ⟨_, first, updated⟩
          cases updated
          cases keyOf_eq_some isKey
          rcases cut_eq_some.mp isCut with ⟨rfl, _⟩
          exact .assignment key value (Decidable.of_not_not (raiseIf_eq_ok.mp first))
            (by simpa using raiseIf_eq_ok.mp allowed)
  · intro read
    cases read with
    | blank => rfl
    | comment rest => rfl
    | assignment key value first allowed =>
        rcases head_key key with ⟨char, rest, isKey, _⟩
        have assigns : ¬(key.text ++ '=' :: value = [] ∨
            (key.text ++ '=' :: value).head? = some '#') := by
          cases key <;> simp [Key.text, Key.name]
        rw [readDeltaLine, if_neg assigns, cut_assignment]
        refine bind_eq_ok.mpr ⟨(), raiseIf_eq_ok.mpr (by simp [allowed]), ?_⟩
        rw [keyOf_text]
        exact bind_eq_ok.mpr ⟨(), raiseIf_eq_ok.mpr (not_not_intro first), rfl⟩

theorem assignment_inj {key key' : Key} {value value' : Text}
    (same : key.text ++ '=' :: value = key'.text ++ '=' :: value') : key = key' ∧ value = value' := by
  have parts := (cut_assignment key value).symm.trans ((congrArg (cut '=') same).trans
    (cut_assignment key' value'))
  have parts := Prod.mk.inj (Option.some.inj parts)
  have isKey := (keyOf_text key).symm.trans ((congrArg keyOf parts.1).trans (keyOf_text key'))
  exact ⟨Option.some.inj isKey, parts.2⟩

section Step

variable {vars vars' : DeltaVars} {line : Text} (step : ShellLine vars line vars')
include step

/-- A variable that is set stays as it is. -/
theorem ShellLine.keeps {key : Key} (set : vars key ≠ []) : vars' key = vars key := by
  cases step with
  | blank => rfl
  | comment => rfl
  | assignment other value first =>
      have differs : key ≠ other := by
        rintro rfl
        exact set first
      exact Function.update_of_ne differs _ _

theorem ShellLine.sets {key : Key} {value : Text} (isLine : line = key.text ++ '=' :: value) :
    vars' key = value := by
  cases step with
  | blank => cases key <;> cases isLine
  | comment => cases key <;> cases isLine
  | assignment other assigned =>
      rcases assignment_inj isLine with ⟨rfl, rfl⟩
      exact Function.update_self _ _ _

theorem ShellLine.setBy {key : Key} (unset : vars key = []) (set : vars' key ≠ []) :
    line = key.text ++ '=' :: vars' key := by
  cases step with
  | blank => exact absurd unset set
  | comment => exact absurd unset set
  | assignment other value =>
      rcases eq_or_ne key other with rfl | differs
      · rw [Function.update_self]
      · rw [Function.update_of_ne differs] at set
        exact absurd unset set

/-- Python takes the line too, if the value is clean. -/
theorem ShellLine.parses (clean : ∀ (key : Key) (value : Text), line = key.text ++ '=' :: value → Clean value) :
    parseLine vars.found line = .ok vars'.found := by
  cases step with
  | blank => rfl
  | comment rest =>
      rcases strip_comment rest with ⟨kept, isComment⟩
      rw [parseLine, isComment]
      rfl
  | assignment key value first =>
      have isClean := clean key value rfl
      have assigns : ¬(key.text ++ '=' :: value = [] ∨
          (key.text ++ '=' :: value).head? = some '#') := by
        cases key <;> simp [Key.text, Key.name]
      have allowed : value.any forbidden.contains = false := by
        simp only [List.any_eq_false, Bool.not_eq_true]
        exact fun char member => not_forbidden_of_clean (isClean.chars char member)
      rw [parseLine, assignment_strip key isClean]
      simp only [if_neg assigns, cut_assignment, keyOf_text]
      refine bind_eq_ok.mpr ⟨(), raiseIf_eq_ok.mpr (by simp [DeltaVars.found, first]), ?_⟩
      refine bind_eq_ok.mpr ⟨(), raiseIf_eq_ok.mpr (by simp [isClean.nonempty, allowed]), ?_⟩
      exact congrArg Except.ok (DeltaVars.found_update isClean.nonempty).symm

end Step

section Run

variable {vars vars' : DeltaVars} {texts : List Text}

theorem readDeltaLines_cons {line : Text} :
    (line :: texts).foldlM readDeltaLine vars = .ok vars' ↔
      ∃ next, ShellLine vars line next ∧ texts.foldlM readDeltaLine next = .ok vars' := by
  simp only [List.foldlM_cons, bind_eq_ok, readDeltaLine_eq_ok]

theorem readDeltaLines_keep {key : Key} (read : texts.foldlM readDeltaLine vars = .ok vars')
    (set : vars key ≠ []) : vars' key = vars key := by
  induction texts generalizing vars with
  | nil =>
      cases read
      rfl
  | cons line rest induction =>
      rcases readDeltaLines_cons.mp read with ⟨next, step, read⟩
      have kept := step.keeps set
      exact (induction read (kept ▸ set)).trans kept

theorem value_of_line {key : Key} {value : Text}
    (read : texts.foldlM readDeltaLine vars = .ok vars') (nonempty : value ≠ [])
    (member : key.text ++ '=' :: value ∈ texts) : vars' key = value := by
  induction texts generalizing vars with
  | nil => cases member
  | cons line rest induction =>
      rcases readDeltaLines_cons.mp read with ⟨next, step, read⟩
      rcases List.mem_cons.mp member with isLine | later
      · have set := step.sets isLine.symm
        exact (readDeltaLines_keep read (set ▸ nonempty)).trans set
      · exact induction read later

theorem line_of_value {key : Key} (read : texts.foldlM readDeltaLine vars = .ok vars')
    (unset : vars key = []) (set : vars' key ≠ []) : key.text ++ '=' :: vars' key ∈ texts := by
  induction texts generalizing vars with
  | nil =>
      cases read
      exact absurd unset set
  | cons line rest induction =>
      rcases readDeltaLines_cons.mp read with ⟨next, step, read⟩
      by_cases now : next key = []
      · exact List.mem_cons_of_mem _ (induction read now)
      · rw [readDeltaLines_keep read now, ← step.setBy unset now]
        exact List.mem_cons_self

/-- The run of the Python loop beside the run of the shell loop. -/
theorem parseLines_of_readDeltaLines (read : texts.foldlM readDeltaLine vars = .ok vars')
    (clean : ∀ (key : Key) (value : Text), key.text ++ '=' :: value ∈ texts → Clean value) :
    texts.foldlM parseLine vars.found = .ok vars'.found := by
  induction texts generalizing vars with
  | nil =>
      cases read
      rfl
  | cons line rest induction =>
      rcases readDeltaLines_cons.mp read with ⟨next, step, read⟩
      have head := step.parses fun key value isLine => clean key value (isLine ▸ List.mem_cons_self)
      have tail := induction read fun key value member => clean key value (List.mem_cons_of_mem _ member)
      rw [List.foldlM_cons]
      exact bind_eq_ok.mpr ⟨_, head, tail⟩

end Run

/-! ## The common format -/

/-- The values that both readers take alike. -/
structure SharedValue (key : Key) (value : Text) : Prop where
  nonempty : value ≠ []
  version : key = .fromVersion ∨ key = .targetVersion → IsVersion value
  lower : key = .baseSha256 ∨ key = .targetSha256 → ∀ char ∈ value, lowerHex char = true
  short : key = .targetSize → value.length ≤ maxStrDigits

/-- The texts that both readers take alike: their lines end in newlines only, every
assigned value is shared, and both versions are assigned. -/
structure SharedText (text : Text) : Prop where
  breaks : OneBreak text
  values : ∀ (key : Key) (value : Text), key.text ++ '=' :: value ∈ shellLines text →
    SharedValue key value
  versions : ∀ key : Key, key = .fromVersion ∨ key = .targetVersion →
    ∃ value, key.text ++ '=' :: value ∈ shellLines text

/-- The checks after the loop of `read_delta_manifest`. -/
structure Accepted (raw : DeltaVars) : Prop where
  type : raw .type = deltaType
  schema : raw .schema = ['1']
  device : raw .device = my355
  base : isHex64 (raw .baseSha256) = true
  target : isHex64 (raw .targetSha256) = true
  size : raw .targetSize ≠ [] ∧ ∀ char ∈ raw .targetSize, isDecimalDigit char = true
  patch : raw .patch = patchName

/-- The variables after `tr`. -/
def DeltaVars.lowered (raw : DeltaVars) : DeltaVars :=
  Function.update (Function.update raw .baseSha256 (trHex (raw .baseSha256))) .targetSha256
    (trHex (raw .targetSha256))

theorem readDeltaManifest_eq_ok {text : Text} {vars : DeltaVars} :
    readDeltaManifest text = .ok vars ↔
      ∃ raw, (shellLines text).foldlM readDeltaLine (fun _ => []) = .ok raw ∧ Accepted raw ∧
        vars = raw.lowered := by
  simp only [readDeltaManifest, bind_eq_ok, raiseIf_eq_ok, not_or, Decidable.not_not,
    Bool.not_eq_false, List.all_eq_true]
  constructor
  · rintro ⟨raw, read, _, type, _, schema, _, device, _, base, _, target, _, size, _, patch, same⟩
    exact ⟨raw, read, ⟨type, schema, device, base, target, size, patch⟩, (Except.ok.inj same).symm⟩
  · rintro ⟨raw, read, accepted, rfl⟩
    exact ⟨raw, read, (), accepted.type, (), accepted.schema, (), accepted.device, (),
      accepted.base, (), accepted.target, (), accepted.size, (), accepted.patch, rfl⟩

/-- Variables that both readers take alike. -/
structure SharedVars (raw : DeltaVars) : Prop where
  accepted : Accepted raw
  shared : ∀ key, SharedValue key (raw key)

namespace SharedVars

variable {raw : DeltaVars} (vars : SharedVars raw)
include vars

theorem baseHash : IsHash (raw .baseSha256) where
  length := by
    have isHex := vars.accepted.base
    simp only [isHex64, Bool.and_eq_true, beq_iff_eq] at isHex
    exact isHex.1
  digits := (vars.shared .baseSha256).lower (.inl rfl)

theorem targetHash : IsHash (raw .targetSha256) where
  length := by
    have isHex := vars.accepted.target
    simp only [isHex64, Bool.and_eq_true, beq_iff_eq] at isHex
    exact isHex.1
  digits := (vars.shared .targetSha256).lower (.inr rfl)

theorem size : IsSize (raw .targetSize) :=
  ⟨vars.accepted.size.1, vars.accepted.size.2, (vars.shared .targetSize).short rfl⟩

theorem fromVersion : IsVersion (raw .fromVersion) :=
  (vars.shared .fromVersion).version (.inl rfl)

theorem targetVersion : IsVersion (raw .targetVersion) :=
  (vars.shared .targetVersion).version (.inr rfl)

theorem clean (key : Key) : Clean (raw key) := by
  have fixed : ∀ value : Text, value.isEmpty = false → value.all cleanChar = true → Clean value :=
    fun value nonempty chars => ⟨List.isEmpty_eq_false_iff.mp nonempty, List.all_eq_true.mp chars⟩
  cases key with
  | type => exact vars.accepted.type ▸ fixed _ rfl (by decide)
  | schema => exact vars.accepted.schema ▸ fixed _ rfl (by decide)
  | device => exact vars.accepted.device ▸ fixed _ rfl (by decide)
  | fromVersion => exact vars.fromVersion.clean
  | targetVersion => exact vars.targetVersion.clean
  | baseSha256 => exact vars.baseHash.clean
  | targetSha256 => exact vars.targetHash.clean
  | targetSize => exact vars.size.clean
  | patch => exact vars.accepted.patch ▸ fixed _ rfl (by decide)

end SharedVars

theorem trHex_of_lowerHex {text : Text} (lower : ∀ char ∈ text, lowerHex char = true) :
    trHex text = text := by
  rw [trHex, List.map_congr_left (g := id), List.map_id]
  intro char member
  split
  · exact toLower_of_lowerHex (lower char member)
  · rfl

theorem SharedVars.lowered_eq {raw : DeltaVars} (vars : SharedVars raw) : raw.lowered = raw := by
  rw [DeltaVars.lowered, trHex_of_lowerHex vars.baseHash.digits,
    trHex_of_lowerHex vars.targetHash.digits, Function.update_eq_self, Function.update_eq_self]

/-- A shared text that the shell accepts has set every variable to a shared value. -/
theorem SharedText.sharedVars {text : Text} {raw : DeltaVars} (shared : SharedText text)
    (read : (shellLines text).foldlM readDeltaLine (fun _ => []) = .ok raw)
    (accepted : Accepted raw) : SharedVars raw := by
  have set : ∀ key, raw key ≠ [] → SharedValue key (raw key) := fun key nonempty =>
    shared.values key _ (line_of_value read rfl nonempty)
  have assigned : ∀ key : Key, key = .fromVersion ∨ key = .targetVersion → raw key ≠ [] := by
    intro key isVersion
    rcases shared.versions key isVersion with ⟨value, member⟩
    have nonempty := (shared.values key value member).nonempty
    rw [value_of_line read nonempty member]
    exact nonempty
  have hash : ∀ text, isHex64 text = true → text ≠ [] := by
    rintro _ isHex rfl
    cases isHex
  refine ⟨accepted, fun key => set key ?_⟩
  cases key with
  | type => exact accepted.type ▸ by decide
  | schema => exact accepted.schema ▸ by decide
  | device => exact accepted.device ▸ by decide
  | fromVersion => exact assigned _ (.inl rfl)
  | targetVersion => exact assigned _ (.inr rfl)
  | baseSha256 => exact hash _ accepted.base
  | targetSha256 => exact hash _ accepted.target
  | targetSize => exact accepted.size.1
  | patch => exact accepted.patch ▸ by decide

/-! ## The fields that Python returns -/

/-- The fields as `parse_delta_manifest_text` returns them. -/
def DeltaVars.fields (vars : DeltaVars) : Fields :=
  Function.update (fun key => some (.str (vars key))) .targetSize
    (some (.int (Nat.ofDigitChars 10 (vars .targetSize) 0 : Nat)))

namespace SharedVars

variable {raw : DeltaVars} (vars : SharedVars raw) (python : Python)
include vars

theorem found_eq (key : Key) : raw.found key = some (raw key) :=
  if_neg (vars.clean key).nonempty

theorem value_eq (key : Key) : raw.found.fields.value key = .str (raw key) := by
  simp [Fields.value, Found.fields, vars.found_eq]

theorem texts_eq (key : Key) : python.texts raw.found.fields key = raw key := by
  simp [Python.texts, vars.value_eq, Python.str, Except.toOption]

theorem renderable : Renderable python raw.found.fields where
  present key := by simp [Found.fields, vars.found_eq]
  str key := by simp [vars.value_eq, vars.texts_eq, Python.str]
  type := by simp [vars.value_eq, Value.isText, vars.accepted.type]
  schema := by rw [vars.texts_eq, vars.accepted.schema]
  device := by simp [vars.value_eq, Value.isText, vars.accepted.device]
  fromVersion := vars.value_eq .fromVersion ▸ vars.fromVersion.parses
  targetVersion := vars.value_eq .targetVersion ▸ vars.targetVersion.parses
  base := vars.value_eq .baseSha256 ▸ hex64_eq_true.mpr ⟨_, rfl, vars.baseHash⟩
  target := vars.value_eq .targetSha256 ▸ hex64_eq_true.mpr ⟨_, rfl, vars.targetHash⟩
  size := by rw [vars.texts_eq, vars.size.isDigit]
  patch := by simp [vars.value_eq, Value.isText, vars.accepted.patch]

theorem fieldsFromRender_eq : python.fieldsFromRender raw.found my355 = .ok raw.fields := by
  have renders := (vars.renderable python).renders
  have size : (raw.found.fields.value .targetSize).toInt =
      .ok (Nat.ofDigitChars 10 (raw .targetSize) 0 : Nat) := by
    rw [vars.value_eq, Value.toInt, vars.size.intOfText_eq]
  have fields : raw.found.fields = fun key => some (.str (raw key)) := by
    funext key
    simp [Found.fields, vars.found_eq]
  rw [Python.fieldsFromRender]
  refine bind_eq_ok.mpr ⟨(), raiseIf_eq_ok.mpr (by simp [(vars.renderable python).device]), ?_⟩
  refine bind_eq_ok.mpr ⟨_, renders, bind_eq_ok.mpr ⟨_, size, ?_⟩⟩
  refine congrArg Except.ok ?_
  funext key
  cases key <;> simp [DeltaVars.fields, fields, vars.found_eq, vars.baseHash.lower_eq,
    vars.targetHash.lower_eq, Function.update]

end SharedVars

theorem parse_of_read (python : Python) {text : Text} {vars : DeltaVars}
    (read : readDeltaManifest text = .ok vars) (shared : SharedText text) :
    python.parseDeltaManifestText text my355 = .ok vars.fields := by
  rcases readDeltaManifest_eq_ok.mp read with ⟨raw, loop, accepted, rfl⟩
  have sharedVars := shared.sharedVars loop accepted
  have clean : ∀ (key : Key) (value : Text), key.text ++ '=' :: value ∈ shellLines text →
      Clean value := by
    intro key value member
    rw [← value_of_line loop (shared.values key value member).nonempty member]
    exact sharedVars.clean key
  have found : (splitlines text).foldlM parseLine (fun _ => none) = .ok raw.found := by
    rw [shared.breaks.splitlines_eq_shellLines]
    exact parseLines_of_readDeltaLines loop clean
  rw [sharedVars.lowered_eq, Python.parseDeltaManifestText]
  exact bind_eq_ok.mpr ⟨_, found, bind_eq_ok.mpr ⟨_, (sharedVars.renderable python).renders,
    sharedVars.fieldsFromRender_eq python⟩⟩

/-! ## Rendered texts -/

section Rendered

variable {values : DeltaVars} (vars : SharedVars values)
include vars

theorem manifestLine_clean {line : Text} (member : line ∈ manifestLines values) :
    ∀ char ∈ line, cleanChar char = true := by
  rcases List.mem_map.mp member with ⟨key, _, rfl⟩
  intro char inLine
  rcases List.mem_append.mp inLine with inKey | inRest
  · have clean : key.text.all cleanChar = true := by cases key <;> decide
    exact List.all_eq_true.mp clean char inKey
  · rcases List.mem_cons.mp inRest with rfl | inValue
    · decide
    · exact (vars.clean key).chars char inValue

theorem manifestText_oneBreak : OneBreak (unlines '\n' (manifestLines values)) := by
  intro char member
  rcases mem_unlines member with rfl | ⟨line, isLine, inLine⟩
  · exact ⟨by decide, fun _ => rfl⟩
  · have clean := manifestLine_clean vars isLine char inLine
    refine ⟨?_, fun isBreak => ?_⟩
    · simp only [cleanChar, Bool.and_eq_true, bne_iff_ne] at clean
      exact clean.2
    · rw [not_isLineBreak_of_clean clean] at isBreak
      cases isBreak

theorem shellLines_manifestText :
    shellLines (unlines '\n' (manifestLines values)) = manifestLines values := by
  have kept : (unlines '\n' (manifestLines values)).filter (· ≠ '\x00') =
      unlines '\n' (manifestLines values) :=
    List.filter_eq_self.mpr fun char member => by simp [(manifestText_oneBreak vars char member).1]
  rw [shellLines, kept]
  refine lines_unlines (fun line isLine char inLine => ?_) rfl
  rw [beq_eq_false_iff_ne]
  rintro rfl
  exact absurd (manifestLine_clean vars isLine '\n' inLine) (by decide)

theorem read_assignments {keys : List Key} (distinct : keys.Nodup) {start : DeltaVars}
    (unset : ∀ key ∈ keys, start key = []) :
    (keys.map fun key => key.text ++ '=' :: values key).foldlM readDeltaLine start =
      .ok fun key => if key ∈ keys then values key else start key := by
  induction keys generalizing start with
  | nil => simp [pure, Except.pure]
  | cons key rest induction =>
      rcases List.nodup_cons.mp distinct with ⟨fresh, distinct⟩
      have allowed : (values key).any refusedInShell = false := by
        simp only [List.any_eq_false, Bool.not_eq_true]
        exact fun char member => not_refusedInShell_of_clean ((vars.clean key).chars char member)
      have head := ShellLine.assignment key (values key) (unset key List.mem_cons_self) allowed
      have stillUnset : ∀ other ∈ rest, Function.update start key (values key) other = [] := by
        intro other member
        have differs : other ≠ key := by
          rintro rfl
          exact fresh member
        rw [Function.update_of_ne differs]
        exact unset other (List.mem_cons_of_mem _ member)
      have tail := induction distinct stillUnset
      rw [List.map_cons, readDeltaLines_cons.mpr ⟨_, head, tail⟩]
      refine congrArg Except.ok ?_
      funext other
      rcases eq_or_ne other key with rfl | differs
      · simp [fresh]
      · simp [differs]

theorem read_manifestText :
    readDeltaManifest (unlines '\n' (manifestLines values)) = .ok values := by
  refine readDeltaManifest_eq_ok.mpr ⟨values, ?_, vars.accepted, vars.lowered_eq.symm⟩
  rw [shellLines_manifestText vars, manifestLines, read_assignments vars (by decide) (by simp)]
  simp [mem_deltaKeys]

theorem manifestText_shared : SharedText (unlines '\n' (manifestLines values)) where
  breaks := manifestText_oneBreak vars
  values key value member := by
    rw [shellLines_manifestText vars] at member
    rcases List.mem_map.mp member with ⟨other, _, same⟩
    rcases assignment_inj same with ⟨rfl, rfl⟩
    exact vars.shared other
  versions key _ := by
    rw [shellLines_manifestText vars]
    exact ⟨values key, List.mem_map.mpr ⟨key, mem_deltaKeys key, rfl⟩⟩

end Rendered

/-- An accepted integer has a text that every reader takes for it. -/
theorem isSize_of_int {python : Python} {size : Int} {digits : Text}
    (printed : python.str (.int size) = .ok digits) (isDigits : isDigit digits = true) :
    IsSize digits ∧ (Nat.ofDigitChars 10 digits 0 : Nat) = size := by
  rw [Python.str] at printed
  split at printed
  · cases printed
  rename_i short
  cases printed
  cases size with
  | ofNat size =>
      have text : (toString (Int.ofNat size)).toList = Nat.toDigits 10 size := Nat.toList_repr
      rw [text]
      refine ⟨⟨Nat.toDigits_ne_nil, fun char member => ?_, by simpa using short⟩, ?_⟩
      · have isDigit := Nat.isDigit_of_mem_toDigits (by decide) (by decide) member
        simpa [Char.isDigit, isDecimalDigit, Char.le_def] using isDigit
      · simp [Nat.ofDigitChars_ten_toDigits]
  | negSucc size =>
      have text : (toString (Int.negSucc size)).toList = '-' :: (Nat.repr (size + 1)).toList :=
        String.toList_append
      rw [text] at isDigits
      simp only [isDigit, List.all_cons, Bool.and_eq_true] at isDigits
      exact absurd isDigits.2.1 (by decide)

/-- Field sets that survive the text: no version has space around it, and a size given
as text has decimal digits. -/
structure SharedFields (fields : Fields) : Prop where
  versions : ∀ key : Key, key = .fromVersion ∨ key = .targetVersion →
    ∀ version, fields key = some (.str version) → strip version = version
  size : ∀ digits, fields .targetSize = some (.str digits) → IsSize digits

theorem isText_eq_true {value : Value} {text : Text} :
    value.isText text = true ↔ value = .str text := by
  cases value <;> simp [Value.isText]

/-- Only integers and texts print as digits. -/
theorem digits_of_str {python : Python} {value : Value} {text : Text}
    (printed : python.str value = .ok text) (isDigits : isDigit text = true) :
    (∃ number, value = .int number) ∨ value = .str text := by
  cases value with
  | none =>
      cases Except.ok.inj printed
      exact absurd isDigits (by decide)
  | bool flag =>
      cases Except.ok.inj printed
      cases flag <;> exact absurd isDigits (by decide)
  | int number => exact .inl ⟨number, rfl⟩
  | str other => exact .inr (congrArg Value.str (Except.ok.inj printed))
  | float other =>
      cases Except.ok.inj printed
      rw [python.repr_not_digits] at isDigits
      cases isDigits
  | list other =>
      cases Except.ok.inj printed
      rw [python.repr_not_digits] at isDigits
      cases isDigits
  | dict other =>
      cases Except.ok.inj printed
      rw [python.repr_not_digits] at isDigits
      cases isDigits

namespace Renderable

variable {python : Python} {fields : Fields} (valid : Renderable python fields)
include valid

theorem field_eq (key : Key) : fields key = some (fields.value key) := by
  have present := valid.present key
  rw [Option.isSome_iff_exists] at present
  rcases present with ⟨value, found⟩
  simp [Fields.value, found]

theorem text_eq {key : Key} {text : Text} (isText : fields.value key = .str text) :
    python.texts fields key = text :=
  Except.ok.inj ((valid.str key).symm.trans (by rw [isText, Python.str]))

theorem isSize (shared : SharedFields fields) : IsSize (python.texts fields .targetSize) := by
  rcases digits_of_str (valid.str .targetSize) valid.size with ⟨number, isInt⟩ | isText
  · have printed := valid.str .targetSize
    rw [isInt] at printed
    exact (isSize_of_int printed valid.size).1
  · exact shared.size _ (by rw [valid.field_eq, ← isText])

theorem isVersion {key : Key} (isKey : key = .fromVersion ∨ key = .targetVersion)
    (shared : SharedFields fields) : ∃ version, fields.value key = .str version ∧
      IsVersion version := by
  have parses : ∃ numbers, parseVersion (fields.value key) = .ok numbers := by
    rcases isKey with rfl | rfl
    · exact valid.fromVersion
    · exact valid.targetVersion
  rcases parses with ⟨numbers, parsed⟩
  rcases str_of_parseVersion parsed with ⟨version, _, isText, _⟩
  refine ⟨version, isText, shared.versions key isKey version ?_, numbers, isText ▸ parsed⟩
  rw [valid.field_eq, isText]

/-- Every field but the schema and the size is the text that is rendered for it. -/
theorem value_eq (shared : SharedFields fields) (key : Key) (notSchema : key ≠ .schema)
    (notSize : key ≠ .targetSize) : fields.value key = .str (python.texts fields key) := by
  have isText : ∃ text, fields.value key = .str text := by
    cases key with
    | type => exact ⟨_, isText_eq_true.mp valid.type⟩
    | schema => exact absurd rfl notSchema
    | device => exact ⟨_, isText_eq_true.mp valid.device⟩
    | fromVersion => exact (valid.isVersion (.inl rfl) shared).imp fun _ => And.left
    | targetVersion => exact (valid.isVersion (.inr rfl) shared).imp fun _ => And.left
    | baseSha256 => exact (hex64_eq_true.mp valid.base).imp fun _ => And.left
    | targetSha256 => exact (hex64_eq_true.mp valid.target).imp fun _ => And.left
    | targetSize => exact absurd rfl notSize
    | patch => exact ⟨_, isText_eq_true.mp valid.patch⟩
  rcases isText with ⟨text, isText⟩
  rw [valid.text_eq isText, isText]

theorem sharedVars (shared : SharedFields fields) : SharedVars (python.texts fields) := by
  have hash : ∀ value : Value, hex64 value = true → ∀ text, value = .str text → IsHash text := by
    rintro _ isHash text rfl
    rcases hex64_eq_true.mp isHash with ⟨other, same, isHash⟩
    cases same
    exact isHash
  have baseHash := hash _ valid.base _ (valid.value_eq shared .baseSha256 (by decide) (by decide))
  have targetHash := hash _ valid.target _
    (valid.value_eq shared .targetSha256 (by decide) (by decide))
  have size := valid.isSize shared
  have hex : ∀ text, IsHash text → isHex64 text = true := by
    intro text isHash
    simp only [isHex64, isHash.length, beq_self_eq_true, Bool.true_and, List.all_eq_true]
    exact fun char member => by simp [hexDigit, isHash.digits char member]
  have accepted : Accepted (python.texts fields) :=
    { type := valid.text_eq (isText_eq_true.mp valid.type)
      schema := valid.schema
      device := valid.text_eq (isText_eq_true.mp valid.device)
      base := hex _ baseHash
      target := hex _ targetHash
      size := ⟨size.nonempty, size.digits⟩
      patch := valid.text_eq (isText_eq_true.mp valid.patch) }
  have versions : ∀ key : Key, key = .fromVersion ∨ key = .targetVersion →
      IsVersion (python.texts fields key) := by
    intro key isKey
    rcases valid.isVersion isKey shared with ⟨version, isText, isVersion⟩
    exact (valid.text_eq isText).symm ▸ isVersion
  refine ⟨accepted, fun key => ⟨?_, versions key, ?_, ?_⟩⟩
  · cases key with
    | type => exact accepted.type ▸ by decide
    | schema => exact accepted.schema ▸ by decide
    | device => exact accepted.device ▸ by decide
    | fromVersion => exact (versions _ (.inl rfl)).clean.nonempty
    | targetVersion => exact (versions _ (.inr rfl)).clean.nonempty
    | baseSha256 => exact baseHash.clean.nonempty
    | targetSha256 => exact targetHash.clean.nonempty
    | targetSize => exact size.nonempty
    | patch => exact accepted.patch ▸ by decide
  · rintro (rfl | rfl)
    · exact baseHash.digits
    · exact targetHash.digits
  · rintro rfl
    exact size.short

end Renderable

/-- The three readings of the common format agree. A rendered manifest comes back with
its schema as text and its size as a number. -/
theorem deltaManifest_agrees (python : Python) :
    (∀ fields text, python.renderDeltaManifest fields = .ok text → SharedFields fields →
      ∃ vars : DeltaVars, readDeltaManifest text = .ok vars ∧
        python.parseDeltaManifestText text my355 = .ok vars.fields ∧
        (∀ key, key ≠ .schema → key ≠ .targetSize → fields key = some (.str (vars key))) ∧
        vars .schema = ['1'] ∧
        python.str (fields.value .targetSize) = .ok (vars .targetSize) ∧
        (fields .targetSize = some (.str (vars .targetSize)) ∨
          fields .targetSize = vars.fields .targetSize)) ∧
    ∀ text vars, readDeltaManifest text = .ok vars → SharedText text →
      python.parseDeltaManifestText text my355 = .ok vars.fields := by
  refine ⟨?_, fun text vars read shared => parse_of_read python read shared⟩
  intro fields text rendered shared
  have valid := renderable_of_renders rendered
  have vars := valid.sharedVars shared
  cases valid.renders.symm.trans rendered
  refine ⟨python.texts fields, read_manifestText vars,
    parse_of_read python (read_manifestText vars) (manifestText_shared vars), ?_, valid.schema,
    valid.str .targetSize, ?_⟩
  · intro key notSchema notSize
    rw [valid.field_eq, valid.value_eq shared key notSchema notSize]
  · have printed := valid.str .targetSize
    rcases digits_of_str printed valid.size with ⟨number, isInt⟩ | isText
    · rw [isInt] at printed
      refine .inr ?_
      rw [valid.field_eq, isInt, DeltaVars.fields, Function.update_self,
        (isSize_of_int printed valid.size).2]
    · exact .inl (by rw [valid.field_eq, ← isText])

/-! ### Manifests outside the common format -/

/-- A manifest with its size as a number, from a version and to a base hash. -/
def sampleFields (fromVersion : String) (base : Char) : Fields
  | .type => some (.str deltaType)
  | .schema => some (.int 1)
  | .device => some (.str my355)
  | .fromVersion => some (.str fromVersion.toList)
  | .targetVersion => some (.str "zlyme43.2".toList)
  | .baseSha256 => some (.str (List.replicate 64 base))
  | .targetSha256 => some (.str (List.replicate 64 'b'))
  | .targetSize => some (.int 734003200)
  | .patch => some (.str patchName)

def sampleVars (fromVersion : String) (base : Char) : DeltaVars :=
  samplePython.texts (sampleFields fromVersion base)

def sampleText (fromVersion : String) (base : Char) : Text :=
  unlines '\n' (manifestLines (sampleVars fromVersion base))

/-- A version with a space before it is rendered and not read back; a hash in upper case
is read on the device only. -/
theorem deltaManifest_disagrees :
    (samplePython.renderDeltaManifest (sampleFields " zlyme43.1" 'a') =
        .ok (sampleText " zlyme43.1" 'a') ∧
      samplePython.parseDeltaManifestText (sampleText " zlyme43.1" 'a') my355 =
        .error (.releaseError "delta manifest value")) ∧
    (∃ vars, readDeltaManifest (sampleText "zlyme43.1" 'A') = .ok vars) ∧
    samplePython.parseDeltaManifestText (sampleText "zlyme43.1" 'A') my355 =
      .error (.releaseError "delta manifest hash") :=
  ⟨⟨rfl, rfl⟩, ⟨_, rfl⟩, rfl⟩

theorem sampleFields_shared : SharedFields (sampleFields "zlyme43.1" 'a') where
  versions key isKey version same := by
    rcases isKey with rfl | rfl <;> cases same <;> decide
  size digits same := by cases same

/-- A manifest in the common format, rendered and read three times. -/
theorem sampleText_agrees :
    ∃ vars : DeltaVars, readDeltaManifest (sampleText "zlyme43.1" 'a') = .ok vars ∧
      samplePython.parseDeltaManifestText (sampleText "zlyme43.1" 'a') my355 = .ok vars.fields := by
  rcases (deltaManifest_agrees samplePython).1 (sampleFields "zlyme43.1" 'a')
    (sampleText "zlyme43.1" 'a') rfl sampleFields_shared with ⟨vars, read, _⟩
  have valid := renderable_of_renders
    (show samplePython.renderDeltaManifest (sampleFields "zlyme43.1" 'a') =
      .ok (sampleText "zlyme43.1" 'a') from rfl)
  exact ⟨vars, read, (deltaManifest_agrees samplePython).2 _ vars read
    (manifestText_shared (valid.sharedVars sampleFields_shared))⟩

end Zlyme.Release
