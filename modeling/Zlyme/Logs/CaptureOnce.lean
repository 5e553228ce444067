import Zlyme.Logs.CaptureLedger

/-! # What a capture copies

Every byte of the time when logging is on is in the saved file once, and no other byte
is, in the runs in which the stored offset is right whenever the size is read.
-/

namespace Zlyme.Logs

open Foundation Foundation.Execution Foundation.Script

/-! ## The condition -/

/-- The stored offset shows where the owed bytes begin: it counts the bytes before them,
or the log is shorter than it and the function takes such a log as it should. -/
def World.Trusted (world : World) (kind : Kind) : Prop :=
  world.enabled = true ∧
    (world.offset.getD 0 = world.settled ∨
      world.bytes.length ≤ world.offset.getD 0 ∧
        match kind with
        | .session => world.owed = []
        | .service | .weston => world.bytes.length ≠ world.offset.getD 0 ∧ world.settled = 0)

instance (world : World) (kind : Kind) : Decidable (world.Trusted kind) := by
  unfold World.Trusted
  cases kind <;> exact inferInstance

/-- The log's size can be read. -/
def Choice.reads (choice : Choice) (world : World) : Bool :=
  choice.ok && world.log.isSome

/-- Where a capture reads the size, the offset is right; it is not used for a stream that
could not be watermarked. -/
def Call.trusts (kind : Kind) (choice : Choice) (world : World) : Call → Bool
  | .readSize false => !choice.reads world || world.unread || decide (world.Trusted kind)
  | _ => true

def admissible (kind : Kind) (call : Call) (choice : Choice) (world : World) : Bool :=
  decide (Along Files.write Lawful world.toFiles choice.meanwhile) &&
    call.trusts kind choice (world.writes choice.meanwhile)

/-- Every step of the run meets the condition. -/
def Calm (stream : Stream) (world : World) (invocation : Invocation) : Prop :=
  (invocation.command.program stream).admits machine (admissible stream.kind)
    invocation.choices world = true

instance (stream : Stream) (world : World) (invocation : Invocation) :
    Decidable (Calm stream world invocation) :=
  inferInstanceAs (Decidable (_ = true))

/-! ## One operation -/

def contract : Contract Call World where
  rely _ _ := True
  guard _ _ := True
  stop world := world.Sound
  exit _ world := world.Sound

/-- The script keeps the invariant in the runs that meet the condition. -/
abbrev Keeps {α : Type} (kind : Kind) (script : Program α) (post : α → World → Prop)
    (world : World) : Prop :=
  script.Ensures (machine.restrict (admissible kind)) contract post world

theorem stable_writes {phase : Files → Prop} (stable : Stable phase) {files : Files}
    {writes : List Write} (holds : phase files) (lawful : Along Files.write Lawful files writes) :
    phase (run Files.write files writes) :=
  along_run_invariant phase stable lawful holds

section Rules

variable {α : Type} {kind : Kind} {world : World} {phase : Files → Prop}

theorem Keeps.call {call : Call} {post : call.Result → World → Prop} (stable : Stable phase)
    (sound : ∀ files, phase files → files.Sound) (holds : phase world.toFiles)
    (performs : ∀ choice files, phase files →
      call.trusts kind choice { world with toFiles := files } = true →
      post (call.perform choice { world with toFiles := files }).1
        (call.perform choice { world with toFiles := files }).2) :
    Keeps kind (Program.issue call) post world := by
  refine Ensures.issue (sound _ holds) trivial fun _ choice => ?_
  by_cases allowed : admissible kind call choice world = true
  · rw [Machine.restrict, if_pos allowed]
    rw [admissible, Bool.and_eq_true, decide_eq_true_iff] at allowed
    exact .inl ⟨_, _, rfl, performs choice _ (stable_writes stable holds allowed.1) allowed.2⟩
  · rw [Machine.restrict, if_neg allowed]
    exact .inr ⟨world, rfl, sound _ holds⟩

/-- The operation leaves the files alone. -/
def Call.Quiet (call : Call) : Prop :=
  ∀ choice world, (call.perform choice world).2.toFiles = world.toFiles

theorem Keeps.quiet {call : Call} (quiet : call.Quiet) (stable : Stable phase)
    (sound : ∀ files, phase files → files.Sound) (holds : phase world.toFiles) :
    Keeps kind (Program.issue call) (fun _ after => phase after.toFiles) world :=
  Keeps.call stable sound holds fun choice files holds _ => by
    rw [quiet]
    exact holds

theorem Keeps.branch {first : Program Bool} {yes no : Program α} {post : α → World → Prop}
    (decides : Keeps kind first (fun _ after => phase after.toFiles) world)
    (accepted : ∀ after, phase after.toFiles → Keeps kind yes post after)
    (refused : ∀ after, phase after.toFiles → Keeps kind no post after) :
    Keeps kind (do if ← first then yes else no) post world := by
  refine Ensures.bind decides fun answer after holds => ?_
  cases answer with
  | true => exact accepted after holds
  | false => exact refused after holds

theorem Keeps.ignore {call : Call} {post : World → Prop}
    (keeps : Keeps kind (Program.issue call) (fun _ after => post after) world) :
    Keeps kind (Program.ignore call) (fun _ after => post after) world :=
  Ensures.bind keeps fun _ _ holds => holds

/-- The operations that do not ask for more than the invariant. -/
def Call.Plain : Call → Prop
  | .publish _ _ | .writeOffset _ => False
  | _ => True

theorem perform_sound {call : Call} {choice : Choice} (plain : call.Plain)
    (sound : world.Sound) : (call.perform choice world).2.Sound := by
  cases call with
  | publish | writeOffset => exact plain.elim
  | rotate =>
      rw [Call.perform]
      split
      · exact sound.rotate
      · exact sound
  | trim => exact sound.trim
  | removeOn | touchIncomplete => exact sound.disable
  | removeInterval named =>
      rw [Call.perform]
      split
      · exact sound.disable
      · exact sound.disable
  | isRegular noting =>
      rw [Call.perform]
      split
      · exact sound.watermark.sound
      · exact sound
  | readSize noting =>
      rw [Call.perform]
      split
      · dsimp only
        split
        · exact sound.watermark.sound
        · exact { sound with bound_written := le_rfl }
      · exact sound
  | tail skip =>
      rw [Call.perform]
      split
      · exact { sound with }
      · exact sound
  | tailLast limit =>
      rw [Call.perform]
      split
      · exact
          { sound with
            saved_uncut := fun uncut => sound.saved_uncut (Bool.or_eq_false_iff.mp uncut).1 }
      · exact sound
  | _ => exact sound

theorem Keeps.plain (call : Call) (plain : call.Plain) (sound : world.Sound) :
    Keeps kind (Program.issue call) (fun _ after => after.Sound) world :=
  Keeps.call stable_sound (fun _ sound => sound) sound fun _ _ sound _ =>
    perform_sound plain sound

theorem Keeps.writeOffset {size : Nat} (caught : world.Caught) :
    Keeps kind (Program.issue (.writeOffset size)) (fun _ after => after.Sound) world :=
  Keeps.call stable_caught (fun _ caught => caught.sound) caught fun choice files caught _ => by
    rw [Call.perform]
    split
    · exact caught.record
    · exact caught.sound

end Rules

/-! ## What the size says -/

theorem Stable.imp {phase : Files → Prop} {condition : Prop} (stable : Stable phase) :
    Stable fun files => condition → phase files :=
  fun files write holds lawful met => stable files write (holds met) lawful

theorem stable_saved {held : List Nat} : Stable fun files => files.savedBytes = held := by
  intro files write same _
  cases write <;> exact same

/-- What the stored offset means for a pass that has read this size. -/
structure Files.ReadyFor (kind : Kind) (size : Nat) (offset : Option Nat) (files : Files) :
    Prop where
  sound : files.Sound
  even : kind = .session → size ≤ offset.getD 0 → files.Caught
  behind : offset.getD 0 < size → files.Behind (offset.getD 0)
  anew : kind ≠ .session → offset = none ∨ size < offset.getD 0 → files.Anew

theorem stable_readyFor {kind : Kind} {size : Nat} {offset : Option Nat} :
    Stable (Files.ReadyFor kind size offset) :=
  fun files write ready lawful =>
    { sound := ready.sound.write lawful
      even := fun session le => stable_caught files write (ready.even session le) lawful
      behind := fun less => stable_behind files write (ready.behind less) lawful
      anew := fun other new => stable_anew files write (ready.anew other new) lawful }

theorem World.Trusted.readyFor {kind : Kind} {world : World} (sound : world.Sound)
    (trusted : world.Trusted kind) :
    Files.ReadyFor kind world.bytes.length world.offset
      { world.toFiles with bound := world.written } := by
  have sized : Files.Sound { world.toFiles with bound := world.written } :=
    { sound with bound_written := le_rfl }
  have whole := world.owed_length_le
  have none_of (le : world.bytes.length ≤ world.settled) : world.owed = [] := by
    have length : world.owed.length = 0 := by
      rw [Files.settled] at le
      omega
    exact List.eq_nil_of_length_eq_zero length
  rcases trusted with ⟨on, right | ⟨short, taken⟩⟩
  · refine ⟨sized, fun _ le => ?_, fun less => ⟨sized, on, right.symm, fun none => ?_⟩, ?_⟩
    · exact sized.caught_of_owed on (none_of (right ▸ le))
    · have settled : world.settled = world.bytes.length := by
        have empty : world.owed = [] := none
        rw [Files.settled, empty, List.length_nil, Nat.sub_zero]
      omega
    · rintro _ (unset | less)
      · rw [unset] at right
        exact ⟨sized, on, right.symm⟩
      · have := world.settled_le
        omega
  · cases kind with
    | session => exact ⟨sized, fun _ _ => sized.caught_of_owed on taken,
        fun less => absurd less (Nat.not_lt.mpr short), fun other => absurd rfl other⟩
    | service | weston => exact ⟨sized, fun isSession => (by cases isSession),
        fun less => absurd less (Nat.not_lt.mpr short), fun _ _ => ⟨sized, on, taken.2⟩⟩

/-- What is known after the size has been read. -/
structure Files.Sized (kind : Kind) (size : Nat) (unread : Bool) (offset : Option Nat)
    (files : Files) : Prop where
  sound : files.Sound
  watermarked : unread = true → files.Caught
  ready : unread = false → files.ReadyFor kind size offset

section Passes

variable {kind : Kind} {world : World}

theorem stable_sized {size : Nat} {unread : Bool} {offset : Option Nat} :
    Stable (Files.Sized kind size unread offset) :=
  fun files write sized lawful =>
    { sound := sized.sound.write lawful
      watermarked := fun isUnread => stable_caught files write (sized.watermarked isUnread) lawful
      ready := fun isRead => stable_readyFor files write (sized.ready isRead) lawful }

theorem bytes_of_log {files : Files} {bytes : List Nat} (log : files.log = some bytes) :
    files.bytes = bytes := by
  rw [Files.bytes, log, Option.getD_some]

theorem keeps_readSize (sound : world.Sound) :
    Keeps kind (Program.issue (.readSize false)) (fun answer after => after.Sound ∧
      ∀ size, answer = some size →
        Files.Sized kind size after.unread after.offset after.toFiles) world := by
  refine Keeps.call stable_sound (fun _ sound => sound) sound fun choice files sound trusts => ?_
  refine ⟨perform_sound trivial sound, ?_⟩
  rw [Call.trusts, Bool.or_eq_true, Bool.or_eq_true, Bool.not_eq_true',
    decide_eq_true_iff] at trusts
  rw [Call.perform]
  split
  · rename_i bytes ok log
    intro size same
    cases same
    have length : files.bytes.length = bytes.length := by rw [bytes_of_log log]
    have readable : choice.reads { world with toFiles := files } = true := by
      rw [Choice.reads, ok, log]
      rfl
    cases unread : world.unread with
    | true =>
        refine ⟨sound.watermark.sound, fun _ => sound.watermark, fun isRead => ?_⟩
        exact absurd (isRead : true = false) (Bool.false_ne_true ∘ Eq.symm)
    | false =>
        rcases trusts with (unreadable | isUnread) | trusted
        · rw [readable] at unreadable
          cases unreadable
        · rw [unread] at isUnread
          cases isUnread
        · have ready := trusted.readyFor sound
          rw [length] at ready
          refine ⟨ready.sound, fun isUnread => ?_, fun _ => ready⟩
          exact absurd (isUnread : false = true) Bool.false_ne_true
  · exact nofun

/-- In a note the size is a watermark. -/
theorem keeps_noteRead (sound : world.Sound) :
    Keeps kind (Program.issue (.readSize true)) (fun answer after => after.Sound ∧
      ∀ size, answer = some size → after.Caught) world := by
  refine Keeps.call stable_sound (fun _ sound => sound) sound
    fun choice files sound _ => ⟨perform_sound trivial sound, ?_⟩
  rw [Call.perform]
  split
  · exact fun _ _ => sound.watermark
  · exact nofun

theorem keeps_noteRegular (sound : world.Sound) :
    Keeps kind (Program.issue (.isRegular true)) (fun present after => after.Sound ∧
      (present = false → after.Caught)) world := by
  refine Keeps.call stable_sound (fun _ sound => sound) sound
    fun choice files sound _ => ⟨perform_sound trivial sound, fun absent => ?_⟩
  have isSome : files.log.isSome = false := absent
  have missing : files.log.isNone = true := by
    rw [← Option.not_isSome, isSome]
    rfl
  rw [Call.perform, Bool.true_and, if_pos missing]
  exact sound.watermark

theorem keeps_isUnread {size : Nat}
    (sized : Files.Sized kind size world.unread world.offset world.toFiles) :
    Keeps kind (Program.issue .isUnread) (fun answer after =>
      (answer = true → after.Caught) ∧
        (answer = false → after.ReadyFor kind size after.offset)) world :=
  Keeps.call stable_sized (fun _ sized => sized.sound) sized fun _ _ sized _ =>
    ⟨sized.watermarked, sized.ready⟩

theorem keeps_offset {size : Nat} (ready : world.ReadyFor kind size world.offset) :
    Keeps kind (Program.issue .offset) (fun known after => after.ReadyFor kind size known)
      world :=
  Keeps.call stable_readyFor (fun _ ready => ready.sound) ready fun _ _ ready _ => ready

theorem keeps_tail {skip : Nat} (behind : world.Behind skip) :
    Keeps kind (Program.issue (.tail skip)) (fun answer after => after.Sound ∧
      ∀ piece, answer = some piece → after.Holding piece) world := by
  refine Keeps.call stable_behind (fun _ behind => behind.sound) behind
    fun choice files behind _ => ⟨perform_sound trivial behind.sound, ?_⟩
  rw [Call.perform]
  split
  · rename_i bytes _ log
    intro piece same
    cases same
    have holding := behind.tail
    rw [bytes_of_log log] at holding
    exact holding
  · exact nofun

theorem keeps_tailLast {limit : Nat} (anew : world.Anew) :
    Keeps kind (Program.issue (.tailLast limit)) (fun answer after => after.Sound ∧
      ∀ piece, answer = some piece → after.Holding piece) world := by
  refine Keeps.call stable_anew (fun _ anew => anew.sound) anew
    fun choice files anew _ => ⟨perform_sound trivial anew.sound, ?_⟩
  rw [Call.perform]
  split
  · rename_i bytes _ log
    intro piece same
    cases same
    have holding := anew.tailLast limit
    rw [bytes_of_log log] at holding
    exact holding
  · exact nofun

theorem keeps_readSaved {piece : List Nat} (holding : world.Holding piece) :
    Keeps kind (Program.issue .readSaved) (fun answer after => after.Sound ∧
      ∀ held, answer = some held → after.Holding piece ∧ after.savedBytes = held) world := by
  refine Keeps.call stable_holding (fun _ holding => holding.sound) holding
    fun choice files holding _ => ⟨holding.sound, fun held same => ⟨holding, ?_⟩⟩
  rw [Call.perform] at same
  split at same
  · exact Option.some.inj same
  · cases same

theorem keeps_publish {piece held content : List Nat}
    (holds : world.Holding piece ∧ world.savedBytes = held)
    (part : content.Sublist (held ++ piece)) :
    Keeps kind (Program.issue (.publish piece content)) (fun done after => after.Sound ∧
      (done = true → after.Caught)) world := by
  refine Keeps.call (stable_holding.and stable_saved) (fun _ holds => holds.1.sound) holds
    fun choice files holds _ => ?_
  rw [Call.perform]
  split
  · have caught : (files.publish piece content).Caught :=
      holds.1.publish (by rw [holds.2]; exact part)
    exact ⟨caught.sound, fun _ => caught⟩
  · exact ⟨holds.1.sound, nofun⟩

end Passes

/-! ## The functions -/

section Functions

variable {kind : Kind} {world : World}

def Sounds (_ : Unit) (world : World) : Prop :=
  world.Sound

theorem quiet_attempt : Call.Quiet .attempt :=
  fun _ _ => rfl

theorem quiet_isRegular : Call.Quiet (.isRegular false) :=
  fun _ _ => rfl

/-- A step that may fail, and then the function is over. -/
theorem Keeps.attempt {α : Type} {phase : Files → Prop} {yes no : Program α}
    {post : α → World → Prop} (stable : Stable phase)
    (sound : ∀ files, phase files → files.Sound) (holds : phase world.toFiles)
    (accepted : ∀ after, phase after.toFiles → Keeps kind yes post after)
    (refused : ∀ after, after.Sound → Keeps kind no post after) :
    Keeps kind (do if ← Program.issue .attempt then yes else no) post world :=
  Keeps.branch (Keeps.quiet quiet_attempt stable sound holds) accepted
    fun after holds => refused after (sound _ holds)

theorem keeps_recordUnread {size : Nat} (caught : world.Caught) :
    Keeps kind (Program.recordUnread size) Sounds world :=
  Ensures.bind (Keeps.writeOffset caught).ignore fun _ _ sound =>
    (Keeps.plain .removeUnread trivial sound).ignore

theorem keeps_appendPiece {size : Nat} {piece : List Nat} (holding : world.Holding piece) :
    Keeps kind (Program.appendPiece size piece) Sounds world := by
  refine Keeps.attempt stable_holding (fun _ holding => holding.sound) holding ?_
    fun _ sound => sound
  intro after holding
  refine Ensures.bind (keeps_readSaved holding) fun answer after holds => ?_
  cases answer with
  | none => exact holds.1
  | some held =>
      refine Keeps.attempt (stable_holding.and stable_saved) (fun _ holds => holds.1.sound)
        (holds.2 held rfl) ?_ fun _ sound => sound
      intro after holds
      refine Ensures.bind (keeps_publish holds (.refl _)) fun done after published => ?_
      cases done with
      | true => exact (Keeps.writeOffset (published.2 rfl)).ignore
      | false => exact published.1

theorem keeps_appendSince (sound : world.Sound) :
    Keeps .session Program.appendSince Sounds world := by
  refine Keeps.branch (Keeps.quiet quiet_isRegular stable_sound (fun _ sound => sound) sound) ?_
    fun _ sound => sound
  intro after sound
  refine Ensures.bind (keeps_readSize sound) fun answer after known => ?_
  cases answer with
  | none => exact known.1
  | some size =>
      refine Ensures.bind (keeps_isUnread (known.2 size rfl)) fun unread after read => ?_
      cases unread with
      | true => exact keeps_recordUnread (read.1 rfl)
      | false =>
          refine Ensures.bind (keeps_offset (read.2 rfl)) fun known after ready => ?_
          by_cases le : size ≤ known.getD 0
          · rw [if_pos le]
            exact (Keeps.writeOffset (ready.even rfl le)).ignore
          · rw [if_neg le]
            refine Keeps.attempt stable_behind (fun _ behind => behind.sound)
              (ready.behind (Nat.lt_of_not_le le)) ?_ fun _ sound => sound
            intro after behind
            refine Keeps.attempt stable_behind (fun _ behind => behind.sound) behind ?_
              fun _ sound => sound
            intro after behind
            refine Ensures.bind (keeps_tail behind) fun answer after tailed => ?_
            cases answer with
            | none => exact tailed.1
            | some piece => exact keeps_appendPiece (tailed.2 piece rfl)

theorem lastBytes_sublist {limit : Nat} {bytes : List Nat} :
    (lastBytes limit bytes).Sublist bytes :=
  List.drop_sublist _ _

/-- Either the bytes are in the saved file or they are not; the answer says it. -/
def Published (done : Bool) (world : World) : Prop :=
  world.Sound ∧ (done = true → world.Caught)

theorem keeps_appendFile {limit : Nat} {piece : List Nat} (holding : world.Holding piece) :
    Keeps kind (Program.appendFile limit piece) Published world := by
  have fails : ∀ after : World, after.Sound → Keeps kind (return false) Published after :=
    fun _ sound => ⟨sound, nofun⟩
  refine Keeps.attempt stable_holding (fun _ holding => holding.sound) holding ?_ fails
  intro after holding
  refine Ensures.bind (keeps_readSaved holding) fun answer after holds => ?_
  cases answer with
  | none => exact fails after holds.1
  | some held =>
      have stable : Stable fun files => files.Holding piece ∧ files.savedBytes = held :=
        stable_holding.and stable_saved
      refine Keeps.attempt stable (fun _ holds => holds.1.sound) (holds.2 held rfl) ?_ fails
      intro after holds
      refine Keeps.attempt stable (fun _ holds => holds.1.sound) holds ?_ fails
      intro after holds
      by_cases less : limit < (held ++ piece).length
      · rw [if_pos less]
        refine Keeps.attempt stable (fun _ holds => holds.1.sound) holds ?_ fails
        intro after holds
        refine Keeps.attempt stable (fun _ holds => holds.1.sound) holds ?_ fails
        intro after holds
        refine Keeps.attempt stable (fun _ holds => holds.1.sound) holds ?_ fails
        exact fun after holds => keeps_publish holds lastBytes_sublist
      · rw [if_neg less]
        exact keeps_publish holds (.refl _)

/-- What a copy to a file of the script leaves. -/
def Read (answer : Option (List Nat)) (world : World) : Prop :=
  world.Sound ∧ ∀ piece, answer = some piece → world.Holding piece

theorem keeps_copyTail {limit : Nat} (anew : world.Anew) :
    Keeps kind (Program.copyTail limit) Read world := by
  have fails : ∀ after : World, after.Sound → Keeps kind (return none) Read after :=
    fun _ sound => ⟨sound, nofun⟩
  refine Keeps.branch (Keeps.quiet quiet_isRegular stable_anew (fun _ anew => anew.sound) anew)
    ?_ fun after anew => fails after anew.sound
  intro after anew
  refine Keeps.attempt stable_anew (fun _ anew => anew.sound) anew ?_ fails
  intro after anew
  refine Keeps.attempt stable_anew (fun _ anew => anew.sound) anew ?_ fails
  intro after anew
  refine Ensures.bind (keeps_tailLast anew) fun answer after read => ?_
  cases answer with
  | none => exact fails after read.1
  | some piece =>
      refine Keeps.attempt stable_holding (fun _ holding => holding.sound) (read.2 piece rfl) ?_
        fails
      refine fun after holding => ⟨holding.sound, fun other same => ?_⟩
      cases same
      exact holding

theorem keeps_takePiece {limit size : Nat} {known : Option Nat} (other : kind ≠ .session)
    (different : known ≠ some size) (ready : world.ReadyFor kind size known) :
    Keeps kind (Program.takePiece limit size known) Read world := by
  rw [Program.takePiece]
  by_cases new : known = none ∨ size < known.getD 0
  · rw [if_pos new]
    exact keeps_copyTail (ready.anew other new)
  · rw [if_neg new]
    refine keeps_tail (ready.behind ?_)
    rw [not_or, Nat.not_lt] at new
    rcases Option.ne_none_iff_exists'.mp new.1 with ⟨offset, same⟩
    subst same
    exact Nat.lt_of_le_of_ne new.2 fun equal => different (congrArg some equal)

theorem keeps_captureStream {limit : Nat} (other : kind ≠ .session) (sound : world.Sound) :
    Keeps kind (Program.captureStream limit) Sounds world := by
  refine Keeps.branch (Keeps.quiet quiet_isRegular stable_sound (fun _ sound => sound) sound) ?_
    fun _ sound => sound
  intro after sound
  refine Ensures.bind (keeps_readSize sound) fun answer after known => ?_
  cases answer with
  | none => exact known.1
  | some size =>
      refine Ensures.bind (keeps_isUnread (known.2 size rfl)) fun unread after read => ?_
      cases unread with
      | true => exact keeps_recordUnread (read.1 rfl)
      | false =>
          refine Ensures.bind (keeps_offset (read.2 rfl)) fun known after ready => ?_
          refine Keeps.attempt stable_readyFor (fun _ ready => ready.sound) ready ?_
            fun _ sound => sound
          intro after ready
          by_cases same : known = some size
          · rw [if_pos same]
            exact ready.sound
          · rw [if_neg same]
            refine Keeps.attempt stable_readyFor (fun _ ready => ready.sound) ready ?_
              fun _ sound => sound
            intro after ready
            refine Ensures.bind (keeps_takePiece other same ready) fun answer after read => ?_
            cases answer with
            | none => exact read.1
            | some piece =>
                refine Ensures.bind (keeps_appendFile (read.2 piece rfl))
                  fun done after published => ?_
                cases done with
                | true => exact (Keeps.writeOffset (published.2 rfl)).ignore
                | false => exact published.1

theorem keeps_noteSize (sound : world.Sound) : Keeps kind Program.noteSize Sounds world := by
  refine Ensures.bind (keeps_noteRegular sound) fun present after noted => ?_
  cases present with
  | false => exact keeps_recordUnread (noted.2 rfl)
  | true =>
      refine Ensures.bind (keeps_noteRead noted.1) fun answer after noted => ?_
      cases answer with
      | none => exact (Keeps.plain .touchUnread trivial noted.1).ignore
      | some size => exact keeps_recordUnread (noted.2 size rfl)

/-- A command whose status is not asked for. -/
theorem keeps_ignore (call : Call) (plain : call.Plain) (sound : world.Sound) :
    Keeps kind (Program.ignore call) Sounds world :=
  (Keeps.plain call plain sound).ignore

/-- The rest of a function depends on a question that needs no more than the invariant. -/
theorem Keeps.ask {α : Type} {first : Program Bool} {yes no : Program α}
    {post : α → World → Prop}
    (decides : Keeps kind first (fun _ after => after.Sound) world)
    (accepted : ∀ after, after.Sound → Keeps kind yes post after)
    (refused : ∀ after, after.Sound → Keeps kind no post after) :
    Keeps kind (do if ← first then yes else no) post world :=
  Keeps.branch decides accepted refused

theorem keeps_done (sound : world.Sound) : Keeps kind (return ()) Sounds world :=
  sound

theorem keeps_dropStale (sound : world.Sound) : Keeps kind Program.dropStale Sounds world :=
  Keeps.ask (Keeps.plain .isStale trivial sound)
    (fun _ sound => keeps_ignore .removeOffset trivial sound) fun _ sound => keeps_done sound

theorem keeps_captureWeston {limit : Nat} (other : kind ≠ .session) (sound : world.Sound) :
    Keeps kind (Program.captureWeston limit) Sounds world := by
  refine Keeps.ask (Keeps.plain (.isRegular false) trivial sound) ?_
    fun _ sound => keeps_ignore .removeOffset trivial sound
  intro after sound
  refine Ensures.bind (keeps_dropStale sound) fun _ after sound => ?_
  refine Ensures.bind (keeps_captureStream other sound) fun _ after sound => ?_
  refine Ensures.bind (Keeps.plain .offset trivial sound) fun known after sound => ?_
  split
  · exact keeps_ignore .removeStale trivial sound
  · exact keeps_done sound

theorem keeps_followCapture {stream : Stream} (sound : world.Sound) :
    Keeps stream.kind (Program.followCapture stream) Sounds world := by
  refine Keeps.ask (Keeps.plain .attempt trivial sound) ?_ fun _ sound => keeps_done sound
  intro after sound
  rcases stream with ⟨kind, limit, named⟩
  cases kind with
  | session => exact keeps_appendSince sound
  | service => exact keeps_captureStream nofun sound
  | weston => exact keeps_captureWeston nofun sound

theorem keeps_ownCursor {stream : Stream} (sound : world.Sound) :
    Keeps stream.kind (Program.ownCursor stream) Sounds world := by
  rcases stream with ⟨kind, limit, named⟩
  cases kind with
  | weston =>
      exact Keeps.ask (Keeps.plain .isUnread trivial sound) (fun _ sound => keeps_done sound)
        fun _ sound => keeps_ignore .removeStale trivial sound
  | session | service => exact keeps_done sound

theorem keeps_beginCapture {stream : Stream} (sound : world.Sound) :
    Keeps stream.kind (Program.beginCapture stream) Sounds world :=
  Ensures.bind (keeps_noteSize sound) fun _ _ sound =>
    Ensures.bind (keeps_ownCursor sound) fun _ _ sound => keeps_ignore .touchOn trivial sound

theorem keeps_openGeneration (sound : world.Sound) :
    Keeps kind Program.openGeneration (fun _ after => after.Sound) world :=
  Keeps.ask (Keeps.plain .isMarked trivial sound) (fun _ sound => sound) fun _ sound =>
    Ensures.bind (keeps_ignore .rotate trivial sound) fun _ _ sound =>
      Ensures.bind (keeps_ignore .touchMark trivial sound) fun _ _ sound => sound

theorem keeps_dropInterval {named : Bool} (sound : world.Sound) :
    Keeps kind (Program.dropInterval named) Sounds world :=
  Keeps.ask (Keeps.plain .isIncomplete trivial sound)
    (fun _ sound => keeps_ignore (.removeInterval named) trivial sound)
    fun _ sound => keeps_done sound

theorem keeps_capture {stream : Stream} {boot fresh : Bool} (sound : world.Sound) :
    Keeps stream.kind (Program.capture stream boot fresh) Sounds world := by
  refine Keeps.ask (Keeps.plain .isOn trivial sound) (fun _ sound => keeps_followCapture sound) ?_
  intro after sound
  split
  · exact Ensures.bind (keeps_ignore .seed trivial sound) fun _ _ sound =>
      Ensures.bind (keeps_ignore .touchOn trivial sound) fun _ _ sound =>
        keeps_followCapture sound
  · exact keeps_beginCapture sound

theorem keeps_start {stream : Stream} {boot : Bool} (sound : world.Sound) :
    Keeps stream.kind (Program.start stream boot) Sounds world := by
  refine Keeps.ask (Keeps.plain .want trivial sound) ?_ fun _ sound => keeps_done sound
  intro after sound
  refine Keeps.ask (Keeps.plain .storageReady trivial sound) ?_ fun _ sound => keeps_done sound
  intro after sound
  refine Keeps.ask (Keeps.plain .attempt trivial sound) ?_ fun _ sound => keeps_done sound
  intro after sound
  refine Keeps.ask (Keeps.plain .lock trivial sound) ?_ fun _ sound => keeps_done sound
  intro after sound
  refine Keeps.ask (Keeps.plain .want trivial sound) ?_
    fun _ sound => keeps_ignore .removeOn trivial sound
  intro after sound
  refine Ensures.bind (keeps_openGeneration sound) fun fresh after sound => ?_
  refine Ensures.bind (keeps_dropInterval sound) fun _ after sound => ?_
  exact Ensures.bind (keeps_capture sound) fun _ _ sound => keeps_ignore .trim trivial sound

theorem keeps_finishCapture {stream : Stream} (sound : world.Sound) :
    Keeps stream.kind (Program.finishCapture stream) Sounds world := by
  refine Keeps.ask (Keeps.plain .isOn trivial sound) ?_ fun _ sound => keeps_done sound
  intro after sound
  refine Ensures.bind (keeps_followCapture sound) fun _ _ sound => ?_
  exact Ensures.bind (keeps_ignore .trim trivial sound) fun _ _ sound =>
    keeps_ignore .removeOn trivial sound

theorem keeps_stop {stream : Stream} (sound : world.Sound) :
    Keeps stream.kind (Program.stop stream) Sounds world := by
  refine Keeps.ask (Keeps.plain .attempt trivial sound) ?_ fun _ sound => keeps_done sound
  intro after sound
  refine Keeps.ask (Keeps.plain .lock trivial sound) ?_
    fun _ sound => keeps_ignore .touchIncomplete trivial sound
  intro after sound
  exact Ensures.bind (keeps_ignore .removeIncomplete trivial sound) fun _ _ sound =>
    keeps_finishCapture sound

theorem keeps_westonClosed (sound : world.Sound) :
    Keeps kind Program.westonClosed Sounds world := by
  refine Keeps.ask (Keeps.plain .lock trivial sound) ?_
    fun _ sound => keeps_ignore .touchStale trivial sound
  intro after sound
  exact Ensures.bind (keeps_ignore .removeOffset trivial sound) fun _ _ sound =>
    keeps_ignore .removeStale trivial sound

theorem keeps_command (stream : Stream) (command : Command) (sound : world.Sound) :
    Keeps stream.kind (command.program stream) Sounds world := by
  cases command with
  | start boot => exact keeps_start sound
  | stop => exact keeps_stop sound
  | westonClosed => exact keeps_westonClosed sound

end Functions

/-! ## Runs -/

theorem invoke_sound {stream : Stream} {world : World} {invocation : Invocation}
    (sound : world.Sound) (calm : Calm stream world invocation) :
    (world.invoke stream invocation).Sound := by
  have meets := (keeps_command stream invocation.command sound).exec invocation.choices
    fun _ _ => trivial
  rw [exec_restrict calm] at meets
  exact meets.2.state (fun world : World => world.Sound) (fun _ _ sound => sound)
    (fun _ _ sound => sound) fun _ sound => sound

/-- However many times the script runs, and wherever each run ends. -/
theorem captured_exactly (stream : Stream) (log : Option Nat) (enabled : Bool)
    (invocations : List Invocation)
    (calm : Along (World.invoke stream) (Calm stream) (World.boot log enabled) invocations) :
    Throughout (World.invoke stream) (fun world => world.Exact) (World.boot log enabled)
      invocations :=
  calm.throughout (fun world => world.Sound) (fun _ sound => sound.exact)
    (fun _ _ sound calm => invoke_sound sound calm) (sound_boot log enabled)

/-- Every operation succeeds, and nobody writes. -/
def Choice.calm : Choice :=
  ⟨[], true, none, 0⟩

/-- The log grows before an operation that succeeds. -/
def Choice.appended (count : Nat) : Choice :=
  ⟨[.append count], true, none, 0⟩

def sampleStream : Stream :=
  ⟨.session, 262144, true⟩

/-- Two bytes from the boot, three more before the second run, and one after that. -/
def sampleRuns : List Invocation :=
  [⟨.start true, List.replicate 30 .calm⟩,
    ⟨.start false, .appended 3 :: List.replicate 30 .calm⟩,
    ⟨.stop, .appended 1 :: List.replicate 30 .calm⟩]

theorem captured_exactly_sample :
    (run (World.invoke sampleStream) (World.boot (some 2) true) sampleRuns).saved =
        some [0, 1, 2, 3, 4, 5] ∧
      Throughout (World.invoke sampleStream) (fun world => world.Exact)
        (World.boot (some 2) true) sampleRuns :=
  ⟨by decide +kernel, captured_exactly sampleStream (some 2) true sampleRuns (by decide +kernel)⟩

/-- One byte is appended between the reading of the size and the `tail`. -/
def overtakenRuns : List Invocation :=
  [⟨.start true, List.replicate 19 .calm ++ .appended 1 :: List.replicate 10 .calm⟩,
    ⟨.start false, List.replicate 30 .calm⟩]

/-- The byte is copied by both runs. -/
theorem captured_twice :
    (run (World.invoke sampleStream) (World.boot (some 2) true) overtakenRuns).saved =
        some [0, 1, 2, 2] ∧
      ¬Throughout (World.invoke sampleStream) (fun world => world.Exact)
        (World.boot (some 2) true) overtakenRuns := by
  have twice : (run (World.invoke sampleStream) (World.boot (some 2) true)
      overtakenRuns).savedBytes = [0, 1, 2, 2] := by decide +kernel
  refine ⟨by decide +kernel, fun exact => ?_⟩
  have last := throughout_iff_prefix.mp exact overtakenRuns (List.prefix_refl _)
  have once := last.once
  rw [twice] at once
  exact absurd once (by decide)

end Zlyme.Logs
