import Mathlib.Data.Set.Function
import Zlyme.Foundation.Result
import Zlyme.Installer.Install

/-! # What the installer's steps leave alone

A script says what it promises; its steps are stated against that promise. An exit
with a status other than 0 needs a reason, and an operation that fails is one.
-/

namespace Zlyme.Installer

open Foundation Foundation.Script

/-! ## Promises -/

/-- The operations that the NAND does not forget. -/
def Call.changesNand : Call → Prop
  | .flashErase => True
  | .nandWrite _ => True
  | _ => False

/-- The machine under choices of one kind. -/
def limited {size : Nat} (host : Host size) (allowed : Choice size → Bool) :
    Machine Call Call.Result (Choice size) (World size) :=
  (machine host).restrict fun _ choice _ => allowed choice

/-- A script's surroundings, with what it promises there. -/
structure Setting (size : Nat) where
  host : Host size
  /-- What the environment may choose. -/
  allowed : Choice size → Bool
  /-- The byte strings that are hashed. -/
  hashed : Set Bytes
  equalSha : Set.InjOn host.shaText hashed
  /-- The NAND before the first erase. -/
  nand : Flash size
  /-- What holds whenever the NAND is about to change. -/
  backed : World size → Prop
  /-- What an exit with status 0 says. -/
  success : World size → Prop
  /-- What any other exit says. -/
  failure : Prop
  faulty : ∀ choice, allowed choice = true → choice ≠ Choice.clean size → failure

namespace Setting

variable {size : Nat}

/-- A report of the restored preloader is true. -/
def Truthful (setting : Setting size) (world : World size) : Prop :=
  Program.restored ∈ world.printed → world.nand = setting.nand

def contract (setting : Setting size) : Contract Call (World size) where
  rely call world := ∀ file bytes, call = .sha256sum file → world.read file = some bytes →
    bytes ∈ setting.hashed
  guard call world := call.changesNand → setting.backed world
  stop := setting.Truthful
  exit status world := setting.Truthful world ∧ (status = 0 → setting.success world) ∧
    (status ≠ 0 → setting.failure)

def Ensures {α : Type} (setting : Setting size) (program : Program α)
    (post : α → World size → Prop) (world : World size) : Prop :=
  Script.Ensures (limited setting.host setting.allowed) setting.contract program post world

theorem Ensures.bind {α β : Type} {setting : Setting size} {first : Program α}
    {rest : α → Program β} {middle : α → World size → Prop} {post : β → World size → Prop}
    {world : World size} (ensures : setting.Ensures first middle world)
    (goesOn : ∀ value after, middle value after → setting.Ensures (rest value) post after) :
    setting.Ensures (first >>= rest) post world :=
  Script.Ensures.bind ensures goesOn

theorem Ensures.mono {α : Type} {setting : Setting size} {program : Program α}
    {post weaker : α → World size → Prop} {world : World size}
    (ensures : setting.Ensures program post world)
    (implies : ∀ value after, post value after → weaker value after) :
    setting.Ensures program weaker world :=
  Script.Ensures.mono ensures implies

end Setting

/-! ## Frames -/

/-- Apart from some files of `/tmp` and messages, nothing differs; none of the messages
reports a restored preloader. -/
structure Touches {size : Nat} (files : List Temp) (base world : World size) : Prop where
  nand : world.nand = base.nand
  received : world.received = base.received
  card : world.card = base.card
  tmp : ∀ file, file ∉ files → world.tmp file = base.tmp file
  silent : Program.restored ∉ world.printed

section Steps

variable {size : Nat} {setting : Setting size} {files : List Temp} {base world : World size}

theorem Touches.refl (silent : Program.restored ∉ world.printed) : Touches files world world :=
  ⟨rfl, rfl, rfl, fun _ _ => rfl, silent⟩

theorem Touches.trans {middle : World size} (first : Touches files base middle)
    (second : Touches files middle world) : Touches files base world where
  nand := second.nand.trans first.nand
  received := second.received.trans first.received
  card := second.card.trans first.card
  tmp file other := (second.tmp file other).trans (first.tmp file other)
  silent := second.silent

theorem Touches.mono {more : List Temp} (touches : Touches files base world)
    (subset : files ⊆ more) : Touches more base world :=
  { touches with tmp := fun file other => touches.tmp file fun member => other (subset member) }

theorem Touches.truthful (touches : Touches files base world) : setting.Truthful world :=
  fun reported => absurd reported touches.silent

theorem Touches.readCard (touches : Touches files base world) (name : String) :
    world.read (.card name) = base.read (.card name) := by
  rw [World.read, World.read, touches.card]

/-- An image in `/tmp` that a step does not write. -/
theorem Touches.readTmp (touches : Touches files base world) {file : Temp}
    (other : file ∉ files) : world.read (.tmp file) = base.read (.tmp file) :=
  touches.tmp file other

theorem Touches.writeTmp (touches : Touches files base world) {out : Temp} (member : out ∈ files)
    (content : Option Bytes) : Touches files base (world.writeTmp out content) :=
  { touches with
    tmp := fun file other =>
      (Function.update_of_ne (ne_of_mem_of_not_mem member other).symm _ _).trans
        (touches.tmp file other) }

/-! ## Operations -/

theorem clean_or_failure (setting : Setting size) {choice : Choice size}
    (allowed : setting.allowed choice = true) :
    choice = Choice.clean size ∨ setting.failure :=
  (em (choice = Choice.clean size)).imp_right (setting.faulty choice allowed)

theorem ok_or_failure (setting : Setting size) {choice : Choice size}
    (allowed : setting.allowed choice = true) : choice.ok = true ∨ setting.failure :=
  (clean_or_failure setting allowed).imp_left fun clean => congrArg Choice.ok clean

theorem ensures_call {call : Call} {post : call.Result → World size → Prop}
    (truthful : setting.Truthful world) (guarded : call.changesNand → setting.backed world)
    (answers : setting.contract.rely call world → ∀ choice, setting.allowed choice = true →
      post (call.perform setting.host choice world).1 (call.perform setting.host choice world).2) :
    setting.Ensures (Program.issue call) post world := by
  apply Script.Ensures.issue truthful guarded
  intro relied choice
  cases allowed : setting.allowed choice with
  | true => exact .inl ⟨_, _, if_pos allowed, answers relied choice allowed⟩
  | false => exact .inr ⟨world, if_neg (Bool.not_eq_true _ ▸ allowed), truthful⟩

theorem read_ensures (truthful : setting.Truthful world) (file : File) :
    setting.Ensures (Program.read file) (fun bytes after => after = world ∧ bytes = world.read file)
      world :=
  ensures_call truthful nofun fun _ _ _ => ⟨rfl, rfl⟩

theorem names_ensures (truthful : setting.Truthful world) :
    setting.Ensures (Program.issue .names) (fun names after => after = world ∧
      names = world.card.keys) world :=
  ensures_call truthful nofun fun _ _ _ => ⟨rfl, rfl⟩

/-- What `sha_file` prints for a file with this content. -/
def Host.sumOf (host : Host size) (content : Option Bytes) : String :=
  (content.map host.shaText).getD ""

theorem hexByte_length (byte : UInt8) : (Preloader.hexByte byte).length = 2 := rfl

theorem shaText_length (host : Host size) (bytes : Bytes) : (host.shaText bytes).length = 64 := by
  rw [Host.shaText, String.length_ofList, List.length_flatMap]
  simp [hexByte_length, host.sha.digest_length]

/-- A file with the hash of an image holds that image. -/
theorem eq_of_sumOf (setting : Setting size) {content : Option Bytes} {bytes : Bytes}
    (contentHashed : ∀ found, content = some found → found ∈ setting.hashed)
    (isHashed : bytes ∈ setting.hashed)
    (same : setting.host.sumOf content = setting.host.shaText bytes) : content = some bytes := by
  rcases content with _ | found
  · have empty : (setting.host.shaText bytes).length = 0 := congrArg String.length same.symm
    rw [shaText_length] at empty
    exact absurd empty (by decide)
  · exact congrArg some (setting.equalSha (contentHashed found rfl) isHashed same)

theorem shaFile_ensures (truthful : setting.Truthful world) (file : File) :
    setting.Ensures (Program.shaFile file) (fun sum after => after = world ∧
      sum = setting.host.sumOf (world.read file) ∧
      ∀ bytes, world.read file = some bytes → bytes ∈ setting.hashed) world :=
  ensures_call truthful nofun fun relied _ _ => ⟨rfl, rfl, fun bytes found =>
    relied file bytes rfl found⟩

theorem echo_ensures (truthful : setting.Truthful world) (line file : String) :
    setting.Ensures (Program.echo line file) (fun ok after => after = world ∧
      (ok = true ∨ setting.failure)) world :=
  ensures_call truthful nofun fun _ _ allowed => ⟨rfl, ok_or_failure setting allowed⟩

theorem issueSync_ensures (truthful : setting.Truthful world) :
    setting.Ensures (Program.issue .sync) (fun ok after => after = world ∧
      (ok = true ∨ setting.failure)) world :=
  ensures_call truthful nofun fun _ _ allowed => ⟨rfl, ok_or_failure setting allowed⟩

theorem umount_ensures (truthful : setting.Truthful world) :
    setting.Ensures (Program.issue .umount) (fun ok after => after = world ∧
      (ok = true ∨ setting.failure)) world :=
  ensures_call truthful nofun fun _ _ allowed => ⟨rfl, ok_or_failure setting allowed⟩

theorem mktemp_ensures (truthful : setting.Truthful world) :
    setting.Ensures (Program.issue .mktemp) (fun ok after => after = world ∧
      (ok = true ∨ setting.failure)) world :=
  ensures_call truthful nofun fun _ _ allowed => ⟨rfl, ok_or_failure setting allowed⟩

theorem must_ensures {step : Program Bool} {post : World size → Prop}
    (ensures : setting.Ensures step (fun ok after => setting.Truthful after ∧
      (ok = true ∨ setting.failure) ∧ (ok = true → post after)) world) :
    setting.Ensures (Program.must step) (fun _ after => post after) world := by
  refine ensures.bind fun ok after ⟨truthful, isOk, holds⟩ => ?_
  cases ok with
  | true => exact holds rfl
  | false => exact ⟨truthful, nofun, fun _ => isOk.resolve_left nofun⟩

/-- A step that leaves the world as it is. -/
theorem mustStay_ensures {step : Program Bool} (truthful : setting.Truthful world)
    (ensures : setting.Ensures step (fun ok after => after = world ∧ (ok = true ∨ setting.failure))
      world) :
    setting.Ensures (Program.must step) (fun _ after => after = world) world :=
  must_ensures (ensures.mono fun _ _ ⟨same, isOk⟩ => ⟨same ▸ truthful, isOk, fun _ => same⟩)

theorem finish_ensures {α : Type} {status : Nat} {post : α → World size → Prop}
    (truthful : setting.Truthful world) (success : status = 0 → setting.success world)
    (failure : status ≠ 0 → setting.failure) :
    setting.Ensures (Program.finish status : Program α) post world := by
  refine (mustStay_ensures truthful (issueSync_ensures truthful)).bind fun _ after same => ?_
  cases same
  refine (mustStay_ensures truthful (umount_ensures truthful)).bind fun _ after same => ?_
  cases same
  refine (mustStay_ensures truthful (echo_ensures truthful _ _)).bind fun _ after same => ?_
  cases same
  refine (mustStay_ensures truthful (echo_ensures truthful _ _)).bind fun _ after same => ?_
  cases same
  exact ⟨truthful, success, failure⟩

theorem issueLog_ensures (touches : Touches files base world) {line : String}
    (plain : line ≠ Program.restored) :
    setting.Ensures (Program.issue (.log line)) (fun ok after => (Touches files base after ∧
      after.tmp = world.tmp) ∧ (ok = true ∨ setting.failure)) world := by
  refine ensures_call touches.truthful nofun fun _ _ allowed =>
    ⟨⟨{ touches with silent := ?_ }, rfl⟩, ok_or_failure setting allowed⟩
  rintro reported
  rcases List.mem_append.mp reported with earlier | now
  · exact touches.silent earlier
  · exact plain (List.mem_singleton.mp now).symm

theorem log_ensures (touches : Touches files base world) {line : String}
    (plain : line ≠ Program.restored) :
    setting.Ensures (Program.log line) (fun _ after => Touches files base after ∧
      after.tmp = world.tmp) world :=
  must_ensures ((issueLog_ensures touches plain).mono fun _ _ ⟨quiet, isOk⟩ =>
    ⟨quiet.1.truthful, isOk, fun _ => quiet⟩)

theorem refuse_ensures {α : Type} {post : α → World size → Prop}
    (touches : Touches files base world) {line : String} (plain : line ≠ Program.restored)
    (failure : setting.failure) :
    setting.Ensures (Program.refuse line : Program α) post world :=
  (log_ensures touches plain).bind fun _ _ quiet =>
    finish_ensures quiet.1.truthful nofun fun _ => failure

theorem progress_ensures (touches : Touches files base world) (percent : Nat) :
    setting.Ensures (Program.progress percent) (fun _ after => after = world) world :=
  mustStay_ensures touches.truthful (echo_ensures touches.truthful _ _)

theorem logPatch_ensures (touches : Touches files base world) :
    setting.Ensures Program.logPatch (fun _ after => after = world) world :=
  mustStay_ensures touches.truthful (echo_ensures touches.truthful _ _)

/-! ## Lines -/

theorem append_ne {front rest other : String}
    (different : ¬front.toList.isPrefixOf other.toList = true) : front ++ rest ≠ other := by
  intro same
  apply different
  rw [List.isPrefixOf_iff_prefix, ← same, String.toList_append]
  exact List.prefix_append _ _

/-- What a gate refuses with is not the report of a restored preloader. -/
abbrev Plain {α : Type} (done : α → Prop) (checked : Except String α) : Prop :=
  Satisfies (· ≠ Program.restored) done checked

theorem throw_plain {α : Type} {done : α → Prop} {message : String}
    (plain : message ≠ Program.restored) : Plain done (throw message) :=
  plain

theorem require_plain {condition : Bool} {message : String}
    (plain : message ≠ Program.restored) : Plain (fun _ => True) (require condition message) := by
  cases condition with
  | true => trivial
  | false => exact plain

theorem splPartition_plain (board : Board) : Plain (fun _ => True) (splPartition board) := by
  rw [splPartition]
  split
  · exact throw_plain (by decide)
  · exact (require_plain (by decide)).bind fun _ _ => (require_plain (by decide)).bind fun _ _ =>
      require_plain (by decide)
  · exact throw_plain (by decide)

theorem sysIs_plain (board : Board) (key want : String) :
    Plain (fun _ => True) (sysIs board key want) := by
  rw [sysIs]
  split
  · refine throw_plain ?_
    rw [String.append_assoc]
    exact append_ne (by decide)
  · refine require_plain ?_
    rw [String.append_assoc, String.append_assoc]
    exact append_ne (by decide)

theorem badBlocks_plain (board : Board) : Plain (fun _ => True) (badBlocks board) := by
  rw [badBlocks]
  split
  · exact throw_plain (by decide)
  · exact require_plain (by decide)

theorem checkGround_plain (board : Board) :
    Plain (· ≠ Program.restored) (checkGround board) := by
  refine (satisfies_forM fun tool _ => require_plain (append_ne (by decide))).bind
    fun _ _ => ?_
  refine (splPartition_plain board).bind fun _ _ => ?_
  refine (sysIs_plain board _ _).bind fun _ _ => ?_
  refine (sysIs_plain board _ _).bind fun _ _ => ?_
  refine (sysIs_plain board _ _).bind fun _ _ => ?_
  refine (sysIs_plain board _ _).bind fun _ _ => ?_
  refine (sysIs_plain board _ _).bind fun _ _ => ?_
  refine (badBlocks_plain board).bind fun _ _ => ?_
  refine (require_plain ?_).bind fun _ _ => ?_
  · rw [String.append_assoc]
    exact append_ne (by decide)
  · change _ ≠ Program.restored
    rw [String.append_assoc, String.append_assoc]
    exact append_ne (by decide)

end Steps

end Zlyme.Installer
