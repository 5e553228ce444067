import Zlyme.Foundation.Decimal
import Zlyme.Foundation.Execution
import Zlyme.Foundation.KeyedCache
import Zlyme.Foundation.Text
import Mathlib.Data.List.DropRight

/-! # The cached views

A launch gets a view of all `Bios` directories with those of the ROM's own library on top. The
views are kept under a name that is made of the generation, a checksum of the library list and
the library of the ROM.
-/

namespace Zlyme.Bios.ViewCache

open Foundation.Decimal Foundation.Execution Foundation.KeyedCache Foundation.Text

abbrev Text : Type :=
  List UInt8

def ascii (literal : String) : Text :=
  literal.toList.map Char.toUInt8

def newline : UInt8 :=
  0x0a

def blank : UInt8 :=
  0x20

def slash : UInt8 :=
  0x2f

def underscore : UInt8 :=
  0x5f

/-! ## The code -/

/-- What `$(...)` makes of an output. -/
def substitute (output : Text) : Text :=
  output.rdropWhile (· == newline)

/-- The generation that is in the file. -/
def readGeneration (file : Option Text) : Text :=
  let digits := (file.getD []).filter isDigit
  if digits = [] then ascii "0" else digits

/-- What `rescan_nextui` writes to the file. -/
def bumped (file : Option Text) : Text :=
  decimal (value (readGeneration file) + 1) ++ [newline]

/-- The `sum` of `zlyme_bios_key`. -/
def sumOf (cksum : Text → Nat) (libraries : Option Text) : Text :=
  match libraries with
  | some content => decimal (cksum content)
  | none => ascii "main"

/-- `zlyme_bios_key`, from the generation and the sum that it reads. -/
def biosKey (generation sum romlib : Text) : Text :=
  generation ++ blank :: sum ++ blank :: romlib ++ [newline]

/-- `zlyme_bios_id` -/
def biosId (key : Text) : Text :=
  key.map fun byte => if byte = slash ∨ byte = blank then underscore else byte

/-- `zlyme_each_library` -/
def eachLibrary (libraries : Option Text) : List Text :=
  match libraries with
  | some content => (lines (· == newline) content).filter fun root => !root.isEmpty
  | none => [ascii "/storage"]

/-- The directories that `bios-union.py` reads, the last one on top. -/
def biosDirs (libraries : Option Text) (romlib : Text) : List Text :=
  (((eachLibrary libraries).filter (· != romlib)) ++ [romlib]).map fun root => root ++ ascii "/Bios"

/-- A view, with what it was built for. -/
structure View where
  generation : Text
  libraries : Option Text
  romlib : Text
  dirs : List Text
  deriving DecidableEq, Repr

/-- The view for these files and this library of the ROM. -/
def View.of (generation libraries : Option Text) (romlib : Text) : View :=
  ⟨readGeneration generation, libraries, romlib, biosDirs libraries romlib⟩

/-- How far the call of `zlyme_bios_view` is that holds the lock. -/
inductive Launch
  /-- The generation is read. -/
  | begun (romlib generation : Text)
  /-- The name of the view is known. -/
  | keyed (romlib generation id : Text)
  deriving DecidableEq, Repr

structure State where
  /-- `bios-generation` -/
  generation : Option Text
  /-- `libraries` -/
  libraries : Option Text
  /-- `bios-cache`, with the views that are ready. -/
  cache : Text → Option View
  launch : Option Launch
  /-- The calls that are over, with the view that each has selected. One that has selected none
  has returned 1. -/
  log : List (Lookup Text View)

/-- After a boot. -/
def State.start : State :=
  ⟨none, none, fun _ => none, none, []⟩

inductive Event
  /-- `write_libraries` -/
  | setLibraries (content : Option Text)
  /-- `rescan_nextui` -/
  | bump
  | begin (romlib : Text)
  | checksum
  /-- The rest of the call. A build may fail. -/
  | finish (works : Bool)
  deriving DecidableEq, Repr

/-- From `if [ -d "$view" ]` on. -/
def State.finish (state : State) (works : Bool) (romlib generation id : Text) : State :=
  let built : View := ⟨generation, state.libraries, romlib, biosDirs state.libraries romlib⟩
  let selected := (state.cache id).or (if works then some built else none)
  { state with
    cache := fun other => if other = id then selected else state.cache other
    launch := none
    log := state.log ++ [⟨id, View.of state.generation state.libraries romlib, works, selected⟩] }

/-- A second launch waits for the lock. -/
def State.step (cksum : Text → Nat) (state : State) : Event → State
  | .setLibraries content => { state with libraries := content }
  | .bump => { state with generation := some (bumped state.generation) }
  | .begin romlib =>
      match state.launch with
      | none => { state with launch := some (.begun romlib (readGeneration state.generation)) }
      | some _ => state
  | .checksum =>
      match state.launch with
      | some (.begun romlib generation) =>
          let key := substitute (biosKey generation (sumOf cksum state.libraries) romlib)
          { state with launch := some (.keyed romlib generation (substitute (biosId key))) }
      | _ => state
  | .finish works =>
      match state.launch with
      | some (.keyed romlib generation id) => state.finish works romlib generation id
      | _ => state

/-! ## The name of a view -/

/-- What the name of a view shows of the library of the ROM. -/
def flattened (romlib : Text) : Text :=
  biosId (substitute romlib)

def viewName (cksum : Text → Nat) (view : View) : Text :=
  view.generation ++ underscore :: (sumOf cksum view.libraries ++ underscore :: flattened view.romlib)

theorem substitute_append_cons {byte : UInt8} (differs : byte ≠ newline) (front back : Text) :
    substitute (front ++ byte :: back) = front ++ byte :: substitute back := by
  induction back using List.reverseRecOn with
  | nil =>
      rw [substitute, List.rdropWhile_concat_neg _ _ _ (by simpa using differs)]
      rfl
  | append_singleton back last induction =>
      have whole : front ++ byte :: (back ++ [last]) = (front ++ byte :: back) ++ [last] := by simp
      rw [substitute] at induction ⊢
      by_cases isNewline : last = newline
      · rw [whole, List.rdropWhile_concat_pos _ _ _ (by simpa using isNewline), induction, substitute,
          substitute, List.rdropWhile_concat_pos _ _ _ (by simpa using isNewline)]
      · rw [whole, List.rdropWhile_concat_neg _ _ _ (by simpa using isNewline), substitute,
          List.rdropWhile_concat_neg _ _ _ (by simpa using isNewline)]
        simp

theorem substitute_newline (text : Text) : substitute (text ++ [newline]) = substitute text :=
  List.rdropWhile_concat_pos _ _ _ rfl

/-- A name without separators is not changed. -/
def IsPlain (text : Text) : Prop :=
  ∀ byte ∈ text, byte ≠ slash ∧ byte ≠ blank ∧ byte ≠ underscore

theorem isPlain_of_digits {text : Text} (digits : ∀ byte ∈ text, isDigit byte = true) : IsPlain text := by
  intro byte member
  have bounds := isDigit_iff.mp (digits byte member)
  refine ⟨?_, ?_, ?_⟩ <;> rintro rfl <;> exact absurd bounds (by decide)

theorem readGeneration_plain (file : Option Text) : IsPlain (readGeneration file) := by
  apply isPlain_of_digits
  intro byte member
  simp only [readGeneration] at member
  split at member
  · cases List.mem_singleton.mp member
    rfl
  · exact (List.mem_filter.mp member).2

theorem sumOf_plain (cksum : Text → Nat) (libraries : Option Text) : IsPlain (sumOf cksum libraries) := by
  cases libraries with
  | some content =>
      apply isPlain_of_digits
      intro byte member
      exact isDigit_of_mem_decimal member
  | none =>
      have word : (ascii "main").all
          (fun byte => byte != slash && (byte != blank && byte != underscore)) = true := by
        decide
      intro byte member
      simpa using List.all_eq_true.mp word byte member

theorem biosId_plain {text : Text} (plain : IsPlain text) : biosId text = text := by
  calc
    biosId text = text.map id := by
      apply List.map_congr_left
      intro byte member
      have kept := plain byte member
      simp [kept.1, kept.2.1]
    _ = text := List.map_id text

theorem substitute_flattened (romlib : Text) : substitute (flattened romlib) = flattened romlib := by
  rw [substitute, List.rdropWhile_eq_self_iff]
  intro nonempty
  have filled : substitute romlib ≠ [] := by
    intro isEmpty
    simp [flattened, biosId, isEmpty] at nonempty
  have last := List.rdropWhile_last_not (· == newline) romlib filled
  rw [beq_iff_eq] at last
  simp only [flattened, biosId, List.getLast_map]
  split
  · decide
  · rw [beq_iff_eq]
    exact last

/-- The name that a call computes. -/
theorem id_eq_viewName (cksum : Text → Nat) (generation libraries : Option Text) (romlib : Text) :
    substitute (biosId (substitute
      (biosKey (readGeneration generation) (sumOf cksum libraries) romlib))) =
      viewName cksum (View.of generation libraries romlib) := by
  have isKey : substitute (biosKey (readGeneration generation) (sumOf cksum libraries) romlib) =
      readGeneration generation ++ blank :: (sumOf cksum libraries ++ blank :: substitute romlib) := by
    have parts : biosKey (readGeneration generation) (sumOf cksum libraries) romlib =
        (readGeneration generation ++ blank :: sumOf cksum libraries) ++ blank :: (romlib ++ [newline]) := by
      simp [biosKey]
    rw [parts, substitute_append_cons (by decide), substitute_newline]
    simp
  have isId : biosId (readGeneration generation ++
      blank :: (sumOf cksum libraries ++ blank :: substitute romlib)) =
      (readGeneration generation ++ underscore :: sumOf cksum libraries) ++
        underscore :: flattened romlib := by
    have gen := biosId_plain (readGeneration_plain generation)
    have sum := biosId_plain (sumOf_plain cksum libraries)
    simp only [biosId] at gen sum
    simp [biosId, flattened, gen, sum]
  rw [isKey, isId, substitute_append_cons (by decide), substitute_flattened]
  simp [viewName, View.of]

/-- What two views share when they have one name. -/
def Collide (cksum : Text → Nat) (first second : View) : Prop :=
  first.generation = second.generation ∧
    sumOf cksum first.libraries = sumOf cksum second.libraries ∧
    flattened first.romlib = flattened second.romlib

instance (cksum : Text → Nat) (first second : View) : Decidable (Collide cksum first second) :=
  inferInstanceAs (Decidable (_ ∧ _ ∧ _))

/-- What stands before a mark is seen in the whole. -/
theorem append_mark_inj {front back front' back' : Text} (first : IsPlain front)
    (second : IsPlain front') : front ++ underscore :: back = front' ++ underscore :: back' ↔
      front = front' ∧ back = back' := by
  constructor
  · intro same
    have firstCut := @cut_append _ _ underscore front (fun member => (first _ member).2.2 rfl) back
    have secondCut := @cut_append _ _ underscore front' (fun member => (second _ member).2.2 rfl) back'
    rw [same, secondCut] at firstCut
    cases firstCut
    exact ⟨rfl, rfl⟩
  · rintro ⟨rfl, rfl⟩
    rfl

theorem viewName_eq_iff (cksum : Text → Nat) {first second : View} (isFirst : IsPlain first.generation)
    (isSecond : IsPlain second.generation) :
    viewName cksum first = viewName cksum second ↔ Collide cksum first second := by
  rw [viewName, viewName, append_mark_inj isFirst isSecond,
    append_mark_inj (sumOf_plain cksum _) (sumOf_plain cksum _), Collide]

/-! ## Runs -/

/-- The event is one of `zlyme-storage`. -/
def Event.changes : Event → Bool
  | .setLibraries _ => true
  | .bump => true
  | _ => false

/-- Nothing changes while a launch holds the lock. -/
def Quiet (state : State) (event : Event) : Prop :=
  event.changes = true → state.launch = none

instance (state : State) (event : Event) : Decidable (Quiet state event) :=
  inferInstanceAs (Decidable (_ → _))

/-- What a call knows is what the files say. -/
def Launch.Current (cksum : Text → Nat) (state : State) : Launch → Prop
  | .begun _ generation => generation = readGeneration state.generation
  | .keyed romlib generation id => generation = readGeneration state.generation ∧
      id = viewName cksum (View.of state.generation state.libraries romlib)

structure State.Kept (cksum : Text → Nat) (state : State) : Prop where
  launched : ∀ launch ∈ state.launch, launch.Current cksum state
  cached : ∀ id, state.cache id = held state.log id
  consistent : Consistent state.log
  named : ∀ lookup ∈ state.log, lookup.key = viewName cksum lookup.wanted ∧
    ∃ generation libraries romlib, lookup.wanted = View.of generation libraries romlib

theorem State.kept_start (cksum : Text → Nat) : State.start.Kept cksum where
  launched _ isLaunch := by cases isLaunch
  cached _ := rfl
  consistent := .nil
  named _ member := by cases member

section Runs

variable {cksum : Text → Nat} {state : State}

/-- The end of a call is one use of the cache. -/
theorem State.Kept.finish (kept : state.Kept cksum) {works : Bool} {romlib generation id : Text}
    (launched : state.launch = some (.keyed romlib generation id)) :
    (state.finish works romlib generation id).Kept cksum := by
  rcases kept.launched _ launched with ⟨sameGeneration, sameId⟩
  have built : View.mk generation state.libraries romlib (biosDirs state.libraries romlib) =
      View.of state.generation state.libraries romlib := by
    rw [sameGeneration]
    rfl
  constructor
  · intro launch isLaunch
    cases isLaunch
  · intro other
    simp only [State.finish, built, held_snoc]
    by_cases same : other = id
    · rw [if_pos same, same, kept.cached]
      cases held state.log id <;> cases works <;> simp
    · have differs : id ≠ other := fun equal => same equal.symm
      rw [if_neg same, kept.cached]
      simp [differs]
  · simp only [State.finish, built, kept.cached]
    exact .snoc kept.consistent rfl
  · intro lookup member
    simp only [State.finish, List.mem_append, List.mem_singleton] at member
    rcases member with earlier | rfl
    · exact kept.named lookup earlier
    · exact ⟨sameId, state.generation, state.libraries, romlib, rfl⟩

theorem State.kept_step (state : State) (event : Event) (kept : state.Kept cksum)
    (quiet : Quiet state event) : (state.step cksum event).Kept cksum := by
  cases event with
  | setLibraries content =>
      have idle := quiet rfl
      refine ⟨?_, kept.cached, kept.consistent, kept.named⟩
      intro launch isLaunch
      simp [State.step, idle] at isLaunch
  | bump =>
      have idle := quiet rfl
      refine ⟨?_, kept.cached, kept.consistent, kept.named⟩
      intro launch isLaunch
      simp [State.step, idle] at isLaunch
  | begin romlib =>
      cases launched : state.launch with
      | none =>
          simp only [State.step, launched]
          refine ⟨?_, kept.cached, kept.consistent, kept.named⟩
          intro launch isLaunch
          cases isLaunch
          rfl
      | some launch =>
          simp only [State.step, launched]
          exact kept
  | checksum =>
      cases launched : state.launch with
      | none =>
          simp only [State.step, launched]
          exact kept
      | some launch =>
          cases launch with
          | begun romlib generation =>
              have same : generation = readGeneration state.generation := kept.launched _ launched
              simp only [State.step, launched, same, id_eq_viewName]
              refine ⟨?_, kept.cached, kept.consistent, kept.named⟩
              intro launch isLaunch
              cases isLaunch
              exact ⟨rfl, rfl⟩
          | keyed romlib generation id =>
              simp only [State.step, launched]
              exact kept
  | finish works =>
      cases launched : state.launch with
      | none =>
          simp only [State.step, launched]
          exact kept
      | some launch =>
          cases launch with
          | begun romlib generation =>
              simp only [State.step, launched]
              exact kept
          | keyed romlib generation id =>
              simp only [State.step, launched]
              exact kept.finish launched

end Runs

/-! ## The law -/

/-- Each call that returns 0 has selected the view for the generation, the library list and the
ROM that are present at its end. -/
structure Current (log : List (Lookup Text View)) : Prop where
  built : Right log
  /-- The ROM's own library is on top. -/
  onTop : ∀ lookup ∈ log, ∀ view, lookup.got = some view →
    view.dirs.getLast? = some (lookup.wanted.romlib ++ ascii "/Bios")
  unshared : ∀ first ∈ log, ∀ second ∈ log, first.got.isSome = true → second.got.isSome = true →
    first.wanted.romlib ≠ second.wanted.romlib → first.key ≠ second.key

/-- After a call that could build its view, every call of the same generation with a list of the
same checksum and a ROM library of the same flattened name has that list and that library. -/
def Distinct (cksum : Text → Nat) (log : List (Lookup Text View)) : Prop :=
  log.Pairwise fun earlier later => earlier.works = true → Collide cksum earlier.wanted later.wanted →
    earlier.wanted.libraries = later.wanted.libraries ∧ earlier.wanted.romlib = later.wanted.romlib

instance (cksum : Text → Nat) (log : List (Lookup Text View)) : Decidable (Distinct cksum log) :=
  inferInstanceAs (Decidable (List.Pairwise _ _))

section Law

variable {cksum : Text → Nat} {state : State}

theorem State.Kept.key_eq_iff (kept : state.Kept cksum) {first second : Lookup Text View}
    (isFirst : first ∈ state.log) (isSecond : second ∈ state.log) :
    first.key = second.key ↔ Collide cksum first.wanted second.wanted := by
  rcases kept.named first isFirst with ⟨firstKey, generation, _, _, isWanted⟩
  rcases kept.named second isSecond with ⟨secondKey, generation', _, _, isWanted'⟩
  rw [firstKey, secondKey]
  apply viewName_eq_iff
  · rw [isWanted]
    exact readGeneration_plain generation
  · rw [isWanted']
    exact readGeneration_plain generation'

theorem State.Kept.separated_iff (kept : state.Kept cksum) :
    Separated state.log ↔ Distinct cksum state.log := by
  apply List.Pairwise.iff_of_mem
  intro earlier later isEarlier isLater
  rw [kept.key_eq_iff isEarlier isLater]
  apply imp_congr_right
  intro works
  apply imp_congr_right
  intro collide
  rcases kept.named earlier isEarlier with ⟨-, generation, libraries, romlib, isWanted⟩
  rcases kept.named later isLater with ⟨-, generation', libraries', romlib', isWanted'⟩
  constructor
  · intro same
    rw [same]
    exact ⟨rfl, rfl⟩
  · have sameGeneration := collide.1
    rw [isWanted, isWanted'] at sameGeneration ⊢
    rintro ⟨sameLibraries, sameRomlib⟩
    simp only [View.of] at sameGeneration sameLibraries sameRomlib ⊢
    rw [sameGeneration, sameLibraries, sameRomlib]

theorem State.Kept.current_iff (kept : state.Kept cksum) :
    Current state.log ↔ Distinct cksum state.log := by
  rw [← kept.separated_iff, ← kept.consistent.right_iff]
  constructor
  · intro current
    exact current.built
  · intro right
    refine ⟨right, ?_, ?_⟩
    · intro lookup member view isGot
      rcases kept.named lookup member with ⟨-, generation, libraries, romlib, isWanted⟩
      rw [right lookup member view isGot, isWanted]
      simp [View.of, biosDirs]
    · intro first isFirst second isSecond firstGot secondGot differ sameKey
      rcases Option.isSome_iff_exists.mp firstGot with ⟨one, isOne⟩
      rcases Option.isSome_iff_exists.mp secondGot with ⟨other, isOther⟩
      have same := kept.consistent.got_eq isFirst isSecond isOne isOther sameKey
      rw [right first isFirst one isOne, right second isSecond other isOther] at same
      exact differ (congrArg View.romlib same)

end Law

/-- In a run without a change during a launch, every launch gets the current view if and only if
no two launches collide. -/
theorem views_current_iff (cksum : Text → Nat) (history : List Event)
    (quiet : Along (State.step cksum) Quiet State.start history) :
    Current (run (State.step cksum) State.start history).log ↔
      Distinct cksum (run (State.step cksum) State.start history).log := by
  have kept := along_run_invariant (State.Kept cksum) State.kept_step quiet (State.kept_start cksum)
  exact kept.current_iff

/-- Two cards whose labels differ in a blank. -/
def twoCards : Text :=
  ascii "/storage\n/mnt/media/MY CARD\n/mnt/media/MY_CARD\n"

/-- The checksum of the list of the two cards. -/
def twoCardsSum (_ : Text) : Nat :=
  4204763815

def launches (romlibs : List String) : List Event :=
  [.setLibraries (some twoCards), .bump] ++
    romlibs.flatMap fun romlib => [.begin (ascii romlib), .checksum, .finish true]

theorem views_current_two_libraries :
    Current (run (State.step twoCardsSum) State.start
      (launches ["/storage", "/mnt/media/MY CARD", "/storage"])).log :=
  (views_current_iff twoCardsSum (launches ["/storage", "/mnt/media/MY CARD", "/storage"])
    (by decide)).mpr (by decide)

/-- The second card is shown the view of the first one. -/
theorem view_shared : ¬Current (run (State.step twoCardsSum) State.start
    (launches ["/mnt/media/MY CARD", "/mnt/media/MY_CARD"])).log := by
  intro current
  have kept : (run (State.step twoCardsSum) State.start
      (launches ["/mnt/media/MY CARD", "/mnt/media/MY_CARD"])).Kept twoCardsSum :=
    along_run_invariant (State.Kept twoCardsSum) State.kept_step (by decide)
      (State.kept_start twoCardsSum)
  exact absurd (kept.current_iff.mp current) (by decide)

end Zlyme.Bios.ViewCache
