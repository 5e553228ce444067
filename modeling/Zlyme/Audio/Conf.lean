import Mathlib.Data.List.Basic
import Zlyme.Foundation.Interleaving

/-! # Updates of audio.conf

`save` and `drop_key` of `zlyme-audio` read the file, write a new one beside it and
rename it, under a lock directory that lies beside the file on the card. Whoever holds
the directory is not written down, and nothing removes it but the process that made it.
-/

namespace Zlyme.Audio.Conf

open Foundation Foundation.Execution Foundation.Threads

/-! ## The file -/

abbrev Line : Type :=
  List Char

/-- A key ends at the first `=` of its line. -/
abbrev Key : Type :=
  { text : List Char // '=' ∉ text }

def Key.line (key : Key) (value : List Char) : Line :=
  key.val ++ '=' :: value

/-- `^key=` -/
def Key.matches (key : Key) (line : Line) : Bool :=
  (key.val ++ ['=']).isPrefixOf line

/-- `sed -n "s/^$1=//p" "$STATE" | tail -n 1` -/
def saved (key : Key) (lines : List Line) : Option (List Char) :=
  ((lines.filter key.matches).getLast?).map (List.drop (key.val.length + 1))

inductive Update
  | save (key : Key) (value : List Char)
  | drop (key : Key)
  deriving DecidableEq

namespace Update

def key : Update → Key
  | save key _ => key
  | drop key => key

def value : Update → Option (List Char)
  | save _ value => some value
  | drop _ => none

/-- `grep -v "^${key}="` -/
def filtered (update : Update) (lines : List Line) : List Line :=
  lines.filter fun line => !update.key.matches line

/-- What an update makes of the file. -/
def apply (update : Update) (lines : List Line) : List Line :=
  match update with
  | save key value => update.filtered lines ++ [key.line value]
  | drop _ => update.filtered lines

end Update

/-! ## One caller -/

/-- The next operation of an update. -/
inductive Caller
  | idle
  /-- `[ -d "$dir" ]` of `save`; of `drop_key`, whether the key is there. -/
  | checking (update : Update)
  /-- `mkdir "$lock"`, which has failed so many times. -/
  | locking (update : Update) (tries : Nat)
  /-- `mktemp` -/
  | making (update : Update)
  /-- `grep -v` into the temporary file. -/
  | filtering (update : Update)
  /-- The `printf` of `save`. -/
  | printing (key : Key) (value : List Char) (tmp : List Line)
  /-- `mv -f` -/
  | moving (update : Update) (tmp : List Line)
  /-- `rmdir "$lock"`, with what the update returns and whether the file is its own. -/
  | unlocking (update : Update) (status : Nat) (committed : Bool)
  | ended (update : Update) (status : Nat) (committed : Bool)
  | killed
  deriving DecidableEq

structure Shared where
  /-- The lines of the file, if there is one. -/
  lines : Option (List Line)
  /-- The lock directory is there. -/
  locked : Bool
  /-- The updates whose rename has taken place, in order. -/
  commits : List Update
  deriving DecidableEq

inductive Choice
  | call (update : Update)
  | proceed
  /-- The directory is not there, or `mktemp` or `printf` fails. -/
  | fails
  /-- `grep` or `mv` is killed before it is done. -/
  | childKilled
  /-- The process is killed, or the power is lost. -/
  | kill
  deriving DecidableEq

def act : Act Caller Choice Shared
  | .idle, .call update, shared => some (.checking update, shared)
  | .idle, _, _ => none
  | .ended .., _, _ => none
  | .killed, _, _ => none
  | _, .kill, shared => some (.killed, shared)
  | .checking (.save key value), .fails, shared => some (.ended (.save key value) 1 false, shared)
  | .checking (.save key value), .proceed, shared => some (.locking (.save key value) 0, shared)
  | .checking (.drop key), .proceed, shared =>
      if (shared.lines.getD []).any key.matches then some (.locking (.drop key) 0, shared)
      else some (.ended (.drop key) 0 false, shared)
  | .locking update tries, .proceed, shared =>
      if shared.locked then
        if tries + 1 > 50 then some (.ended update 1 false, shared)
        else some (.locking update (tries + 1), shared)
      else some (.making update, { shared with locked := true })
  | .making update, .fails, shared => some (.unlocking update 1 false, shared)
  | .making update, .proceed, shared => some (.filtering update, shared)
  -- A grep that fails, or finds nothing to keep, leaves an empty file.
  | .filtering (.save key value), .childKilled, shared => some (.printing key value [], shared)
  | .filtering (.drop key), .childKilled, shared => some (.moving (.drop key) [], shared)
  | .filtering (.save key value), .proceed, shared =>
      some (.printing key value ((Update.save key value).filtered (shared.lines.getD [])), shared)
  | .filtering (.drop key), .proceed, shared =>
      some (.moving (.drop key) ((Update.drop key).filtered (shared.lines.getD [])), shared)
  | .printing key value _, .fails, shared => some (.unlocking (.save key value) 1 false, shared)
  | .printing key value tmp, .proceed, shared =>
      some (.moving (.save key value) (tmp ++ [key.line value]), shared)
  -- The status of mv is not looked at.
  | .moving update _, .childKilled, shared => some (.unlocking update 0 false, shared)
  | .moving update tmp, .proceed, shared =>
      some (.unlocking update 0 true,
        { shared with lines := some tmp, commits := shared.commits ++ [update] })
  | .unlocking update status committed, .proceed, shared =>
      some (.ended update status committed, { shared with locked := false })
  | _, _, _ => none

def Caller.HoldsLock : Caller → Prop
  | .making _ | .filtering _ | .printing .. | .moving .. | .unlocking .. => True
  | _ => False

instance : DecidablePred Caller.HoldsLock
  | .making _ | .filtering _ | .printing .. | .moving .. | .unlocking .. => isTrue trivial
  | .idle | .checking _ | .locking .. | .ended .. | .killed => isFalse not_false

abbrev System (Id : Type) : Type :=
  Threads Id Caller Shared

/-- Nobody has called yet, and nobody has left the lock behind. -/
def System.start (Id : Type) (lines : Option (List Line)) : System Id where
  locals _ := .idle
  shared := ⟨lines, false, []⟩

/-! ## What the updates promise -/

/-- The file once the updates have been applied to it one after the other. -/
def replay (lines : Option (List Line)) (commits : List Update) : Option (List Line) :=
  commits.foldl (fun lines update => some (update.apply (lines.getD []))) lines

/-- The value of the last update of a key. -/
def lastValue (key : Key) (before : Option (List Char)) (commits : List Update) :
    Option (List Char) :=
  commits.foldl (fun before update => if update.key = key then update.value else before) before

/-- A call of `save` whose every operation succeeds, with as many turns as it takes to
give up. -/
def saveCall (key : Key) (value : List Char) : List Choice :=
  .call (.save key value) :: List.replicate 52 .proceed

structure Lossless {Id : Type} [DecidableEq Id] (initial : Option (List Line))
    (system : System Id) : Prop where
  /-- The file is what the renames have made of it, line by line. -/
  content : system.shared.lines = replay initial system.shared.commits
  /-- Each key has the value of its last update. -/
  values : ∀ key, saved key (system.shared.lines.getD []) =
    lastValue key (saved key (initial.getD [])) system.shared.commits
  /-- A save that returns 0 has put its line into the file. -/
  completed : ∀ who key value committed,
    system.locals who = .ended (.save key value) 0 committed → committed = true
  /-- When nobody is inside, a save succeeds. -/
  live : (∀ who, ¬(system.locals who).HoldsLock) → ∀ who, system.locals who = .idle →
    ∀ key value, let after := run (Threads.step act) system ((saveCall key value).map (who, ·))
      after.locals who = .ended (.save key value) 0 true ∧
        saved key (after.shared.lines.getD []) = some value

/-! ## Values -/

section Values

variable {key other : Key} {lines : List Line} {line : Line} {value : List Char}

theorem Key.matches_line (key : Key) (value : List Char) : key.matches (key.line value) = true := by
  rw [Key.matches, Key.line, List.isPrefixOf_iff_prefix]
  exact ⟨value, by rw [List.append_assoc]; rfl⟩

theorem Key.takeWhile_of_matches (isMatch : key.matches line = true) :
    line.takeWhile (· ≠ '=') = key.val := by
  rw [Key.matches, List.isPrefixOf_iff_prefix] at isMatch
  rcases isMatch with ⟨rest, rfl⟩
  have none : ∀ c ∈ key.val, decide (c ≠ '=') = true := by
    intro c member
    rw [decide_eq_true_iff]
    rintro rfl
    exact key.property member
  rw [List.append_assoc, List.takeWhile_append_of_pos none]
  simp

/-- No line is of two keys. -/
theorem Key.eq_of_matches (first : key.matches line = true) (second : other.matches line = true) :
    key = other :=
  Subtype.ext ((takeWhile_of_matches first).symm.trans (takeWhile_of_matches second))

theorem Key.drop_line (key : Key) (value : List Char) :
    (key.line value).drop (key.val.length + 1) = value := by
  rw [Key.line, ← List.drop_drop, List.drop_left]
  rfl

theorem filter_filtered_self (update : Update) (lines : List Line) :
    (update.filtered lines).filter update.key.matches = [] := by
  rw [Update.filtered, List.filter_filter, List.filter_eq_nil_iff]
  intro line _
  simp

theorem filter_filtered_other {update : Update} (different : update.key ≠ other) :
    (update.filtered lines).filter other.matches = lines.filter other.matches := by
  rw [Update.filtered, List.filter_filter]
  apply List.filter_congr
  intro line _
  cases isOther : other.matches line with
  | false => rfl
  | true =>
      cases isKey : update.key.matches line with
      | false => rfl
      | true => exact absurd (Key.eq_of_matches isKey isOther) different

theorem saved_apply (update : Update) (lines : List Line) (other : Key) :
    saved other (update.apply lines) =
      if update.key = other then update.value else saved other lines := by
  split
  · rename_i same
    subst same
    cases update with
    | save key value =>
        rw [Update.apply, saved, List.filter_append, filter_filtered_self (.save key value)]
        have isMatch : (Update.save key value).key.matches (key.line value) = true :=
          key.matches_line value
        rw [List.nil_append, List.filter_cons_of_pos isMatch]
        exact congrArg some (key.drop_line value)
    | drop key =>
        rw [Update.apply, saved, filter_filtered_self]
        rfl
  · rename_i different
    cases update with
    | save key value =>
        have isOther : other.matches (key.line value) = false := by
          rw [Bool.eq_false_iff]
          exact fun isMatch => different (Key.eq_of_matches (key.matches_line value) isMatch)
        rw [Update.apply, saved, List.filter_append, filter_filtered_other different,
          List.filter_cons_of_neg (Bool.eq_false_iff.mp isOther), List.filter_nil,
          List.append_nil, saved]
    | drop key => rw [Update.apply, saved, filter_filtered_other different, saved]

theorem saved_replay (key : Key) (lines : Option (List Line)) (commits : List Update) :
    saved key ((replay lines commits).getD []) =
      lastValue key (saved key (lines.getD [])) commits := by
  induction commits generalizing lines with
  | nil => rfl
  | cons update rest induction =>
      rw [replay, List.foldl_cons, ← replay, induction, Option.getD_some, saved_apply]
      rfl

end Values

/-! ## Moves -/

/-- No `grep` or `mv` is killed, and no process that has the lock. -/
def Calm {Id : Type} (system : System Id) (label : Id × Choice) : Prop :=
  label.2 ≠ .childKilled ∧ (label.2 = .kill → ¬(system.locals label.1).HoldsLock)

instance {Id : Type} (system : System Id) (label : Id × Choice) : Decidable (Calm system label) :=
  inferInstanceAs (Decidable (_ ∧ (_ → _)))

/-- What is known of a caller, and of the file that it is about to put in place. -/
def Caller.Sound (shared : Shared) : Caller → Prop
  | .printing key value tmp => tmp = (Update.save key value).filtered (shared.lines.getD [])
  | .moving update tmp => tmp = update.apply (shared.lines.getD [])
  | .unlocking _ status committed | .ended (.save ..) status committed =>
      status = 0 → committed = true
  | _ => True

section Moves

variable {caller next : Caller} {choice : Choice} {before shared : Shared}

/-- What one move does to the lock and to the file. -/
structure Move (caller next : Caller) (before shared : Shared) : Prop where
  handoff : Handoff Caller.HoldsLock caller next (before.locked = true) (shared.locked = true)
  sound : next.Sound shared
  /-- The file changes under the lock, and by a whole update. -/
  commit : shared.lines = before.lines ∧ shared.commits = before.commits ∨
    caller.HoldsLock ∧ ∃ update : Update,
      shared.lines = some (update.apply (before.lines.getD [])) ∧
        shared.commits = before.commits ++ [update]

theorem Move.keep (same : next.HoldsLock ↔ caller.HoldsLock) (sound : next.Sound before) :
    Move caller next before before where
  handoff := .keep same Iff.rfl
  sound := sound
  commit := .inl ⟨rfl, rfl⟩

theorem move_of_moves (sound : caller.Sound before) (alive : choice ≠ .childKilled)
    (outside : choice = .kill → ¬caller.HoldsLock)
    (moves : act caller choice before = some (next, shared)) :
    Move caller next before shared := by
  cases caller with
  | idle => cases choice <;> cases moves; exact .keep Iff.rfl trivial
  | checking update =>
      cases choice with
      | kill => cases moves; exact .keep Iff.rfl trivial
      | fails => cases update <;> cases moves; exact .keep Iff.rfl nofun
      | proceed =>
          cases update with
          | save => cases moves; exact .keep Iff.rfl trivial
          | drop =>
              simp only [act] at moves
              split at moves <;> cases moves <;> exact .keep Iff.rfl trivial
      | _ => cases update <;> cases moves
  | locking update tries =>
      cases choice with
      | kill => cases moves; exact .keep Iff.rfl trivial
      | proceed =>
          simp only [act] at moves
          split at moves
          · split at moves <;> cases moves
            · cases update with
              | save => exact .keep Iff.rfl nofun
              | drop => exact .keep Iff.rfl trivial
            · exact .keep Iff.rfl trivial
          · rename_i free
            cases moves
            exact ⟨.acquire free trivial rfl, trivial, .inl ⟨rfl, rfl⟩⟩
      | _ => cases moves
  | making update =>
      cases choice with
      | kill => exact absurd trivial (outside rfl)
      | fails => cases moves; exact .keep Iff.rfl nofun
      | proceed => cases moves; exact .keep Iff.rfl trivial
      | _ => cases moves
  | filtering update =>
      cases choice with
      | kill => exact absurd trivial (outside rfl)
      | childKilled => exact absurd rfl alive
      | proceed => cases update <;> cases moves <;> exact .keep Iff.rfl rfl
      | _ => cases update <;> cases moves
  | printing key value tmp =>
      cases choice with
      | kill => exact absurd trivial (outside rfl)
      | fails => cases moves; exact .keep Iff.rfl nofun
      | proceed =>
          cases moves
          refine .keep Iff.rfl ?_
          show tmp ++ [key.line value] = (Update.save key value).apply (before.lines.getD [])
          rw [show tmp = _ from sound]
          rfl
      | _ => cases moves
  | moving update tmp =>
      cases choice with
      | kill => exact absurd trivial (outside rfl)
      | childKilled => exact absurd rfl alive
      | proceed =>
          cases moves
          refine ⟨.keep Iff.rfl Iff.rfl, fun _ => rfl, .inr ⟨trivial, update, ?_, rfl⟩⟩
          exact congrArg some sound
      | _ => cases moves
  | unlocking update status committed =>
      cases choice with
      | kill => exact absurd trivial (outside rfl)
      | proceed =>
          cases moves
          refine ⟨.release trivial not_false Bool.false_ne_true, ?_, .inl ⟨rfl, rfl⟩⟩
          cases update with
          | save => exact sound
          | drop => trivial
      | _ => cases moves
  | ended | killed => cases choice <;> cases moves

end Moves

/-! ## Runs -/

/-- What holds between any two operations. -/
structure Consistent {Id : Type} (initial : Option (List Line)) (system : System Id) : Prop where
  content : system.shared.lines = replay initial system.shared.commits
  exclusive : Exclusive Caller.HoldsLock (system.shared.locked = true) system.locals
  sound : ∀ who, (system.locals who).Sound system.shared

theorem System.start_consistent (Id : Type) (lines : Option (List Line)) :
    Consistent lines (start Id lines) where
  content := rfl
  exclusive := .start (fun _ => not_false) Bool.false_ne_true
  sound _ := trivial

/-- The file that another caller is about to put in place is still made of this one. -/
theorem Caller.Sound.other {before shared : Shared} {caller : Caller}
    (sound : caller.Sound before) (same : caller.HoldsLock → shared.lines = before.lines) :
    caller.Sound shared := by
  cases caller with
  | printing | moving => rw [Caller.Sound, same trivial]; exact sound
  | ended update => cases update <;> exact sound
  | _ => exact sound

section Runs

variable {Id : Type} [DecidableEq Id] {initial : Option (List Line)} {system : System Id}
  {label : Id × Choice}

theorem replay_append (initial : Option (List Line)) (commits : List Update) (update : Update) :
    replay initial (commits ++ [update]) = some (update.apply ((replay initial commits).getD [])) :=
  List.foldl_append

theorem Consistent.step (consistent : Consistent initial system) (calm : Calm system label) :
    Consistent initial (system.step act label) := by
  refine step_invariant consistent fun next shared moves => ?_
  have move := move_of_moves (consistent.sound label.1) calm.1 calm.2 moves
  refine ⟨?_, consistent.exclusive.handoff move.handoff, ?_⟩
  · show shared.lines = replay initial shared.commits
    rcases move.commit with ⟨lines, commits⟩ | ⟨-, update, lines, commits⟩
    · rw [lines, commits]
      exact consistent.content
    · rw [lines, commits, replay_append, ← consistent.content]
  · apply forall_update (fun caller : Caller => caller.Sound shared) move.sound
    intro other isOther
    apply (consistent.sound other).other
    intro holds
    rcases move.commit with ⟨lines, -⟩ | ⟨holds', -⟩
    · exact lines
    · exact absurd (consistent.exclusive.unique other label.1 holds holds') isOther

theorem save_alone (free : system.shared.locked = false) {who : Id}
    (isIdle : system.locals who = .idle) (key : Key) (value : List Char) :
    let after := run (Threads.step act) system ((saveCall key value).map (who, ·))
    after.locals who = .ended (.save key value) 0 true ∧
      after.shared.lines = some ((Update.save key value).apply (system.shared.lines.getD [])) := by
  intro after
  -- Seven of the turns do all the work, and nothing happens in the others.
  have turns : saveCall key value =
      (.call (.save key value) :: List.replicate 7 .proceed) ++ List.replicate 45 .proceed := rfl
  have work : (Choice.call (.save key value) :: List.replicate 7 .proceed).foldl (alone act)
      (.idle, system.shared) = (.ended (.save key value) 0 true,
        ⟨some ((Update.save key value).apply (system.shared.lines.getD [])), false,
          system.shared.commits ++ [.save key value]⟩) := by
    simp [alone, act, free, List.replicate, Update.apply]
  have result : (saveCall key value).foldl (alone act) (system.locals who, system.shared) =
      (.ended (.save key value) 0 true,
        ⟨some ((Update.save key value).apply (system.shared.lines.getD [])), false,
          system.shared.commits ++ [.save key value]⟩) := by
    rw [turns, List.foldl_append, isIdle, work]
    exact List.foldl_fixed' (fun _ => rfl) _
  have same : after = system.move who _ _ := run_alone system who (saveCall key value)
  rw [result] at same
  rw [same]
  dsimp only
  rw [Function.update_self]
  exact ⟨rfl, rfl⟩

theorem Consistent.lossless (consistent : Consistent initial system) :
    Lossless initial system where
  content := consistent.content
  values key := by rw [consistent.content, saved_replay]
  completed who key value committed isEnded := by
    have sound := consistent.sound who
    rw [isEnded] at sound
    exact sound rfl
  live nobody who isIdle key value := by
    have free : system.shared.locked = false := by
      rw [Bool.eq_false_iff]
      intro taken
      rcases consistent.exclusive.holder taken with ⟨holder, holds⟩
      exact nobody holder holds
    rcases save_alone free isIdle key value with ⟨ends, lines⟩
    refine ⟨ends, ?_⟩
    rw [lines, Option.getD_some, saved_apply]
    exact if_pos rfl

/-- While no process is killed inside the lock, and no `grep` or `mv` of it, every update
is in the file and a later save succeeds. -/
theorem updates_lossless (Id : Type) [DecidableEq Id] (initial : Option (List Line))
    (labels : List (Id × Choice))
    (calm : Along (Threads.step act) Calm (System.start Id initial) labels) :
    Throughout (Threads.step act) (Lossless initial) (System.start Id initial) labels :=
  calm.throughout (Consistent initial) (fun _ consistent => consistent.lossless)
    (fun _ _ consistent calm => consistent.step calm) (System.start_consistent Id initial)

end Runs

/-! ## Two runs -/

def volume : Key :=
  ⟨"ZLYME_VOLUME".toList, by decide⟩

def premute : Key :=
  ⟨"ZLYME_PREMUTE".toList, by decide⟩

/-- Two saves at once: the second one waits for the lock of the first one. -/
def twoSaves : List (Bool × Choice) :=
  [(true, .call (.save volume ['4', '0'])), (false, .call (.save premute ['1', '5']))] ++
    List.replicate 5 (true, .proceed) ++ List.replicate 4 (false, .proceed) ++
    List.replicate 2 (true, .proceed) ++ List.replicate 6 (false, .proceed)

theorem updates_lossless_twoSaves :
    let system := run (Threads.step act) (System.start Bool none) twoSaves
    saved volume (system.shared.lines.getD []) = some ['4', '0'] ∧
      saved premute (system.shared.lines.getD []) = some ['1', '5'] := by
  have lossless := throughout_iff_prefix.mp
    (updates_lossless Bool none twoSaves (by decide +kernel)) twoSaves (List.prefix_refl _)
  have values := lossless.values
  exact ⟨(values volume).trans (by decide +kernel), (values premute).trans (by decide +kernel)⟩

/-- A save that is killed while it has the lock, and a later one. -/
theorem killed_inside :
    ¬Lossless none (run (Threads.step act) (System.start Bool none)
      [(true, .call (.save volume ['4', '0'])), (true, .proceed), (true, .proceed),
        (true, .kill)]) := by
  intro lossless
  have nobody : ∀ who, ¬((run (Threads.step act) (System.start Bool none)
      [(true, .call (.save volume ['4', '0'])), (true, .proceed), (true, .proceed),
        (true, .kill)]).locals who).HoldsLock := by
    intro who
    cases who <;> decide +kernel
  have ends := (lossless.live nobody false (by decide +kernel) volume ['5', '0']).1
  exact absurd ends (by decide +kernel)

end Zlyme.Audio.Conf
