import Zlyme.Foundation.Execution
import Zlyme.Foundation.Text
import Mathlib.Data.List.DropRight

/-! # Profiles of the governor

`zlyme-governor` applies one profile at a time, under a lock, and remembers each one but
`idle`. A `resume` applies the remembered one.
-/

namespace Zlyme.Governor

open Foundation.Execution Foundation.Text

abbrev Text : Type :=
  List UInt8

def ascii (literal : String) : Text :=
  literal.toList.map Char.toUInt8

def newline : UInt8 :=
  0x0a

def blank : UInt8 :=
  0x20

/-! ## The code -/

/-- What the profile functions write to sysfs. -/
inductive Profile
  | smart
  /-- With the lowest frequency of the CPU. -/
  | play (min : Nat)
  | idle
  | heavy
  | overclock
  deriving DecidableEq, Repr

/-- What stays the same: `ZLYME_CPU_BOOST`, and the frequencies that are listed. -/
structure Board where
  boost : Bool
  freqs : List Nat

/-- `profile_play` -/
def profilePlay (min : Nat) : Profile :=
  .play (if 1800000 < min then 1800000 else min)

/-- `resolve_floor` -/
def resolveFloor (board : Board) (req : Nat) : Nat :=
  (board.freqs.foldl (fun best freq =>
    if freq < req then best
    else if best.all fun found => freq < found then some freq
    else best) none).getD 1992000

def lowerByte (byte : UInt8) : UInt8 :=
  if 0x41 ≤ byte ∧ byte ≤ 0x5a then byte + 0x20 else byte

/-- `$(printf '%s' "$1" | tr 'A-Z' 'a-z')` -/
def lower (text : Text) : Text :=
  (text.map lowerByte).rdropWhile (· == newline)

def spruceFloors : List (List String × Nat) :=
  [(["gb"], 240000),
    (["gbc", "fc", "a5200"], 312000),
    (["ms", "gg", "pce", "ngp", "a26", "sg1000", "vec", "pkm", "msx"], 408000),
    (["coleco", "intv", "lynx", "o2", "st", "a78", "a800", "doom", "easyrpg", "p8"], 480000),
    (["md", "ws", "mkxpz", "ports"], 648000),
    (["gba", "sfc", "vb", "dos", "pico", "nds", "scummvm", "fbneo", "mame", "amiga", "32x", "sgx",
      "tic"], 816000),
    (["ps", "psp", "n64", "dc", "saturn", "openbor", "neocd"], 1008000)]

/-- `spruce_floor` -/
def spruceFloor (tag : Text) : Option Nat :=
  (spruceFloors.find? fun row => (row.1.map ascii).contains (lower tag)).map Prod.snd

/-- `legacy_game_profile` -/
def legacyGameProfile (tag : Text) : Text :=
  if (["ps2", "gc", "wii", "gamecube"].map ascii).contains (lower tag) then ascii "heavy"
  else ascii "play"

/-- `remember_profile`, where the file can be written. -/
def rememberProfile (profile : Text) (file : Option Text) : Option Text :=
  if profile = ascii "idle" ∨ profile = ascii "resume" ∨ profile = [] then file
  else some (profile ++ [newline])

/-- `IFS= read -r saved` -/
def readSaved (file : Option Text) : Text :=
  match file.bind (cut newline) with
  | some (line, _) => line
  | none => []

def isTagByte (byte : UInt8) : Bool :=
  (0x41 ≤ byte && byte ≤ 0x5a) || (0x61 ≤ byte && byte ≤ 0x7a) || (0x30 ≤ byte && byte ≤ 0x39)

/-- The modes that a saved line may be. -/
def savedModes : List Text :=
  ["smart", "play", "heavy", "performance", "overclock", "auto", "powersave"].map ascii

/-- The mode that `resume` takes from the file, with `pending_tag`. -/
def resumeMode (file : Option Text) : Text × Option Text :=
  if savedModes.contains (readSaved file) then (readSaved file, none)
  else if (ascii "emu ").isPrefixOf (readSaved file) then
    if ((readSaved file).drop 4).all isTagByte && (readSaved file).drop 4 != [] then
      (ascii "emu", some ((readSaved file).drop 4))
    else (ascii "smart", none)
  else (ascii "smart", none)

/-- The last `case` of the script. -/
def profileOf (mode : Text) : Profile :=
  if mode = ascii "smart" then .smart
  else if mode = ascii "play" then profilePlay 408000
  else if mode = ascii "idle" then .idle
  else if mode = ascii "heavy" then .heavy
  else if mode = ascii "overclock" then .overclock
  else .smart

/-- From `performance|heavy)` on. -/
def finish (board : Board) (mode : Text) (file : Option Text) : Option Text × Profile :=
  let mode :=
    if mode = ascii "performance" ∨ mode = ascii "heavy" then
      if board.boost then ascii "overclock" else ascii "heavy"
    else mode
  (rememberProfile mode file, profileOf mode)

/-- From `auto) mode=smart` on. -/
def apply (board : Board) (mode tag : Text) (file : Option Text) : Option Text × Profile :=
  if mode = ascii "auto" then finish board (ascii "smart") file
  else if mode = ascii "powersave" then finish board (ascii "idle") file
  else if mode = ascii "emu" then
    let file := rememberProfile (ascii "emu " ++ lower tag) file
    match spruceFloor (lower tag) with
    | some req => (file, profilePlay (resolveFloor board req))
    | none => finish board (legacyGameProfile (lower tag)) file
  else finish board mode file

/-- A word without a blank. -/
structure Word where
  text : Text
  plain : ∀ byte ∈ text, byte ≠ blank ∧ byte ≠ newline

/-- `$ZLYME_GOVERNOR`, and the two arguments. What is not there is empty. -/
structure Call where
  override : Word
  word : Word
  tag : Text

/-- `${ZLYME_GOVERNOR:-${1:-smart}}` -/
def Call.mode (call : Call) : Text :=
  if call.override.text ≠ [] then call.override.text
  else if call.word.text ≠ [] then call.word.text
  else ascii "smart"

/-- One run of the script, with the file after it and the profile that it applies. -/
def governor (board : Board) (call : Call) (file : Option Text) : Option Text × Profile :=
  if call.mode = ascii "resume" then
    apply board (resumeMode file).1 ((resumeMode file).2.getD []) file
  else apply board call.mode call.tag file

/-! ## Histories -/

inductive Kind
  | request
  | idle
  | resume
  deriving DecidableEq, Repr

def Call.kind (call : Call) : Kind :=
  if call.mode = ascii "resume" then .resume
  else if call.mode = ascii "idle" ∨ call.mode = ascii "powersave" then .idle
  else .request

/-- The file, with what the last request applied beside it. -/
structure State where
  file : Option Text
  requested : Profile

/-- After a boot. -/
def State.start : State :=
  ⟨none, .smart⟩

def State.call (board : Board) (state : State) (call : Call) : State where
  file := (governor board call state.file).1
  requested := if call.kind = .request then (governor board call state.file).2 else state.requested

/-! ## What a file is read as -/

/-- What a resume applies. -/
def resumed (board : Board) (file : Option Text) : Profile :=
  (apply board (resumeMode file).1 ((resumeMode file).2.getD []) file).2

theorem readSaved_line {line : Text} (unbroken : newline ∉ line) :
    readSaved (some (line ++ [newline])) = line := by
  have isCut : cut newline (line ++ [newline]) = some (line, []) := cut_append unbroken []
  simp [readSaved, isCut]

theorem not_emu_of_plain {mode : Text} (plain : ∀ byte ∈ mode, byte ≠ blank) :
    (ascii "emu ").isPrefixOf mode = false := by
  rw [Bool.eq_false_iff]
  intro isPrefix
  have sublist := (List.isPrefixOf_iff_prefix.mp isPrefix).subset
  exact plain blank (sublist (by decide)) rfl

/-- A saved mode that is no tag is read back as it is. -/
theorem resumeMode_of_saved {mode : Text} (member : mode ∈ savedModes) :
    resumeMode (some (mode ++ [newline])) = (mode, none) := by
  have unbroken : newline ∉ mode := by
    intro broken
    have noneBroken : ∀ saved ∈ savedModes, newline ∉ saved := by decide
    exact noneBroken mode member broken
  simp [resumeMode, readSaved_line unbroken, member]

/-- Another word is read back as `smart`. -/
theorem resumeMode_of_other {mode : Text} (plain : ∀ byte ∈ mode, byte ≠ blank ∧ byte ≠ newline)
    (absent : mode ∉ savedModes) :
    resumeMode (some (mode ++ [newline])) = (ascii "smart", none) := by
  have unbroken : newline ∉ mode := fun broken => (plain newline broken).2 rfl
  have notEmu := not_emu_of_plain fun byte member => (plain byte member).1
  simp [resumeMode, readSaved_line unbroken, absent, notEmu]

/-! ## Modes without a tag -/

section Modes

variable {board : Board} {mode : Text} {file : Option Text}

theorem rememberProfile_of_named (notIdle : mode ≠ ascii "idle") (notResume : mode ≠ ascii "resume")
    (nonempty : mode ≠ []) : rememberProfile mode file = some (mode ++ [newline]) := by
  simp [rememberProfile, notIdle, notResume, nonempty]

/-- The modes that `finish` ends at are applied again when they are read back. -/
theorem resumed_final {final : Text}
    (member : final ∈ [ascii "smart", ascii "play", ascii "overclock"] ∨
      (final = ascii "heavy" ∧ board.boost = false)) :
    resumed board (some (final ++ [newline])) = profileOf final := by
  have saved : final ∈ savedModes := by
    rcases member with known | ⟨rfl, -⟩
    · have allSaved : ∀ mode ∈ [ascii "smart", ascii "play", ascii "overclock"], mode ∈ savedModes := by
        decide
      exact allSaved final known
    · decide
  rw [resumed, resumeMode_of_saved saved]
  rcases member with known | ⟨rfl, noBoost⟩
  · simp only [List.mem_cons, List.not_mem_nil, or_false] at known
    rcases known with rfl | rfl | rfl <;> rfl
  · have differs : ascii "heavy" ≠ ascii "auto" ∧ ascii "heavy" ≠ ascii "powersave" ∧
        ascii "heavy" ≠ ascii "emu" := by decide
    simp [apply, finish, differs, noBoost]

/-- The words of the script have neither blanks nor line ends. -/
theorem plain_of_all {text : Text}
    (all : text.all (fun byte => byte != blank && byte != newline) = true) :
    ∀ byte ∈ text, byte ≠ blank ∧ byte ≠ newline := by
  intro byte member
  have both := List.all_eq_true.mp all byte member
  rwa [Bool.and_eq_true, bne_iff_ne, bne_iff_ne] at both

/-- What `finish` applies is what a resume applies after it. -/
theorem resumed_finish (plain : ∀ byte ∈ mode, byte ≠ blank ∧ byte ≠ newline)
    (differs : mode ∉ [ascii "idle", ascii "resume", [], ascii "auto", ascii "powersave"]) :
    resumed board (finish board mode file).1 = (finish board mode file).2 := by
  simp only [List.mem_cons, List.not_mem_nil, or_false, not_or] at differs
  rcases differs with ⟨notIdle, notResume, nonempty, notAuto, notPowersave⟩
  by_cases heavy : mode = ascii "performance" ∨ mode = ascii "heavy"
  · cases boosts : board.boost with
    | true =>
        have named : rememberProfile (ascii "overclock") file =
            some (ascii "overclock" ++ [newline]) :=
          rememberProfile_of_named (by decide) (by decide) (by decide)
        simp only [finish, if_pos heavy, boosts, if_true, named]
        exact resumed_final (.inl (by decide))
    | false =>
        have named : rememberProfile (ascii "heavy") file = some (ascii "heavy" ++ [newline]) :=
          rememberProfile_of_named (by decide) (by decide) (by decide)
        simp only [finish, if_pos heavy, boosts, Bool.false_eq_true, if_false, named]
        exact resumed_final (.inr ⟨rfl, boosts⟩)
  · simp only [finish, if_neg heavy, rememberProfile_of_named notIdle notResume nonempty]
    by_cases known : mode ∈ [ascii "smart", ascii "play", ascii "overclock"]
    · exact resumed_final (.inl known)
    · simp only [List.mem_cons, List.not_mem_nil, or_false, not_or] at known heavy
      have absent : mode ∉ savedModes := by
        simp [savedModes, known, heavy, notAuto, notPowersave]
      rw [resumed, resumeMode_of_other plain absent]
      simp only [profileOf, known, heavy, notIdle, if_false]
      rfl

end Modes

/-! ## Tags -/

theorem lowerByte_idem (byte : UInt8) : lowerByte (lowerByte byte) = lowerByte byte := by
  unfold lowerByte
  split
  · rename_i upper
    rw [if_neg]
    have bounds : 0x41 ≤ byte.toNat ∧ byte.toNat ≤ 0x5a := upper
    have moved : (byte + 0x20).toNat = byte.toNat + 32 := by
      rw [UInt8.toNat_add]
      have small : (0x20 : UInt8).toNat = 32 := rfl
      omega
    rintro ⟨-, below⟩
    have low : (byte + 0x20).toNat ≤ 0x5a := below
    omega
  · rfl

theorem lower_lower (text : Text) : lower (lower text) = lower text := by
  have fixed : (lower text).map lowerByte = lower text := by
    calc
      (lower text).map lowerByte = (lower text).map id := by
        apply List.map_congr_left
        intro byte member
        have mapped := (List.rdropWhile_prefix _ _).subset member
        rcases List.mem_map.mp mapped with ⟨source, -, rfl⟩
        exact lowerByte_idem source
      _ = lower text := List.map_id _
  rw [lower, fixed, lower, List.rdropWhile_idempotent]

/-- A tag of the table is a saved tag. -/
theorem spruceFloor_tag {tag : Text} {req : Nat} (isFloor : spruceFloor (lower tag) = some req) :
    (lower tag).all isTagByte = true ∧ lower tag ≠ [] ∧ newline ∉ lower tag := by
  rw [spruceFloor, lower_lower] at isFloor
  rcases Option.map_eq_some_iff.mp isFloor with ⟨row, isRow, -⟩
  have member := List.mem_of_find?_eq_some isRow
  have listed : (row.1.map ascii).contains (lower tag) = true :=
    List.find?_some (p := fun row : List String × Nat => (row.1.map ascii).contains (lower tag)) isRow
  rcases List.mem_map.mp (List.contains_iff_mem.mp listed) with ⟨name, isName, same⟩
  have names : ∀ row ∈ spruceFloors, ∀ name ∈ row.1,
      (ascii name).all isTagByte = true ∧ ascii name ≠ [] ∧ newline ∉ ascii name := by
    decide
  exact same ▸ names row member name isName

section Tags

variable {board : Board} {tag : Text} {file : Option Text}

theorem resumeMode_of_tag (bytes : tag.all isTagByte = true) (nonempty : tag ≠ [])
    (unbroken : newline ∉ tag) :
    resumeMode (some (ascii "emu " ++ tag ++ [newline])) = (ascii "emu", some tag) := by
  have whole : newline ∉ ascii "emu " ++ tag := by
    rw [List.mem_append, not_or]
    exact ⟨by decide, unbroken⟩
  have absent : ascii "emu " ++ tag ∉ savedModes := by
    intro member
    have noTag : ∀ mode ∈ savedModes, ¬ascii "emu " <+: mode := by decide
    exact noTag _ member (List.prefix_append _ _)
  have isPrefix : (ascii "emu ").isPrefixOf (ascii "emu " ++ tag) = true :=
    List.isPrefixOf_iff_prefix.mpr (List.prefix_append _ _)
  have dropped : (ascii "emu " ++ tag).drop 4 = tag := by
    rw [List.drop_left' (by decide)]
  have saved : readSaved (some (ascii "emu " ++ tag ++ [newline])) = ascii "emu " ++ tag :=
    readSaved_line whole
  rw [resumeMode, saved]
  simp [absent, isPrefix, dropped, bytes, nonempty]

theorem resumed_emu :
    resumed board (apply board (ascii "emu") tag file).1 = (apply board (ascii "emu") tag file).2 := by
  have modes : ascii "emu" ≠ ascii "auto" ∧ ascii "emu" ≠ ascii "powersave" := by decide
  have named : rememberProfile (ascii "emu " ++ lower tag) file =
      some (ascii "emu " ++ lower tag ++ [newline]) := by
    have cons : ascii "emu " ++ lower tag = 0x65 :: (ascii "mu " ++ lower tag) := rfl
    have head : ∀ rest : Text, (ascii "emu " ++ lower tag) = rest → rest.head? = some 0x65 := by
      intro rest same
      rw [← same, cons]
      rfl
    apply rememberProfile_of_named
    · intro same
      exact absurd (head _ same) (by decide)
    · intro same
      exact absurd (head _ same) (by decide)
    · intro same
      exact absurd (head _ same) (by decide)
  cases isFloor : spruceFloor (lower tag) with
  | some req =>
      rcases spruceFloor_tag isFloor with ⟨bytes, nonempty, unbroken⟩
      simp only [apply, modes, if_false, if_true, named, isFloor]
      rw [resumed, resumeMode_of_tag bytes nonempty unbroken]
      simp only [apply, modes, if_false, if_true, Option.getD_some, lower_lower, isFloor]
  | none =>
      simp only [apply, modes, if_false, if_true, named, isFloor]
      have legacy : legacyGameProfile (lower tag) = ascii "heavy" ∨
          legacyGameProfile (lower tag) = ascii "play" := by
        unfold legacyGameProfile
        split
        · exact .inl rfl
        · exact .inr rfl
      rcases legacy with isHeavy | isPlay
      · rw [isHeavy]
        exact resumed_finish (plain_of_all (by decide)) (by decide)
      · rw [isPlay]
        exact resumed_finish (plain_of_all (by decide)) (by decide)

end Tags

/-! ## Calls -/

section Calls

variable {board : Board} {call : Call} {mode tag : Text} {file : Option Text}

/-- What is applied under a mode other than `idle` is applied again by a resume. -/
theorem resumed_apply (plain : ∀ byte ∈ mode, byte ≠ blank ∧ byte ≠ newline)
    (differs : mode ∉ [ascii "idle", ascii "powersave", ascii "resume", []]) :
    resumed board (apply board mode tag file).1 = (apply board mode tag file).2 := by
  simp only [List.mem_cons, List.not_mem_nil, or_false, not_or] at differs
  rcases differs with ⟨notIdle, notPowersave, notResume, nonempty⟩
  by_cases isAuto : mode = ascii "auto"
  · simp only [apply, if_pos isAuto]
    exact resumed_finish (plain_of_all (by decide)) (by decide)
  · by_cases isEmu : mode = ascii "emu"
    · rw [isEmu]
      exact resumed_emu
    · simp only [apply, if_neg isAuto, if_neg notPowersave, if_neg isEmu]
      apply resumed_finish plain
      simp [notIdle, notPowersave, notResume, nonempty, isAuto]

/-- The mode of a resume is one of these, whatever the file holds. -/
theorem resumeMode_mem (file : Option Text) :
    (resumeMode file).1 ∈ ascii "emu" :: savedModes := by
  unfold resumeMode
  split
  · rename_i saved
    exact List.mem_cons_of_mem _ (List.contains_iff_mem.mp saved)
  · split
    · split
      · exact List.mem_cons_self
      · decide
    · decide

/-- A resume leaves a file that it would read in the same way again. -/
theorem resumed_resume : resumed board
    (apply board (resumeMode file).1 ((resumeMode file).2.getD []) file).1 = resumed board file := by
  by_cases isPowersave : (resumeMode file).1 = ascii "powersave"
  · -- `idle` is not remembered, so the file stays
    have kept : (apply board (resumeMode file).1 ((resumeMode file).2.getD []) file).1 = file := by
      rw [isPowersave]
      rfl
    rw [kept]
  · have words : (ascii "emu" :: savedModes).all
        (·.all fun byte => byte != blank && byte != newline) = true := by
      decide
    have plain : ∀ mode ∈ ascii "emu" :: savedModes, ∀ byte ∈ mode, byte ≠ blank ∧ byte ≠ newline :=
      fun mode member => plain_of_all (List.all_eq_true.mp words mode member)
    have named : ∀ mode ∈ ascii "emu" :: savedModes, mode ≠ ascii "powersave" →
        mode ∉ [ascii "idle", ascii "powersave", ascii "resume", []] := by
      decide
    exact resumed_apply (plain _ (resumeMode_mem file)) (named _ (resumeMode_mem file) isPowersave)

theorem mode_plain (call : Call) : ∀ byte ∈ call.mode, byte ≠ blank ∧ byte ≠ newline := by
  unfold Call.mode
  split
  · exact call.override.plain
  · split
    · exact call.word.plain
    · exact plain_of_all (by decide)

theorem mode_ne_nil (call : Call) : call.mode ≠ [] := by
  unfold Call.mode
  split
  · assumption
  · split
    · assumption
    · decide

theorem kind_eq_request (isRequest : call.kind = .request) :
    call.mode ∉ [ascii "idle", ascii "powersave", ascii "resume", []] := by
  unfold Call.kind at isRequest
  split at isRequest
  · cases isRequest
  · rename_i notResume
    split at isRequest
    · cases isRequest
    · rename_i notIdle
      rw [not_or] at notIdle
      simp [notResume, notIdle, mode_ne_nil]

theorem governor_of_resume (isResume : call.kind = .resume) :
    governor board call file =
      apply board (resumeMode file).1 ((resumeMode file).2.getD []) file := by
  unfold Call.kind at isResume
  split at isResume
  · rename_i same
    rw [governor, if_pos same]
  · split at isResume <;> cases isResume

/-- An idle call leaves the file alone. -/
theorem governor_of_idle (isIdle : call.kind = .idle) : (governor board call file).1 = file := by
  unfold Call.kind at isIdle
  split at isIdle
  · cases isIdle
  · rename_i notResume
    split at isIdle
    · rename_i known
      rcases known with same | same
      · rw [governor, if_neg notResume, same]
        rfl
      · rw [governor, if_neg notResume, same]
        rfl
    · cases isIdle

theorem governor_of_request (isRequest : call.kind = .request) :
    governor board call file = apply board call.mode call.tag file := by
  have named := kind_eq_request isRequest
  simp only [List.mem_cons, not_or] at named
  rw [governor, if_neg named.2.2.1]

end Calls

/-! ## The law -/

/-- A resume would apply what the last request has applied. -/
def State.Remembers (board : Board) (state : State) : Prop :=
  resumed board state.file = state.requested

theorem State.remembers_call {board : Board} (state : State) (call : Call)
    (remembers : state.Remembers board) : (state.call board call).Remembers board := by
  rw [State.Remembers, State.call]
  cases kind : call.kind with
  | request =>
      rw [if_pos rfl, governor_of_request kind]
      exact resumed_apply (mode_plain call) (kind_eq_request kind)
  | idle =>
      rw [if_neg (by decide), governor_of_idle kind]
      exact remembers
  | resume =>
      rw [if_neg (by decide), governor_of_resume kind, resumed_resume]
      exact remembers

end Zlyme.Governor
