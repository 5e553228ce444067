import Mathlib.Data.List.Nodup
import Zlyme.Foundation.Execution
import Zlyme.Session.PakSync

/-! # What the stamp says

As long as the lock is made and the stock paks are removed and copied without a
failure, the stamp of the image stands for complete copies, wherever power is lost.
-/

namespace Zlyme.Session

open Foundation Foundation.Script Foundation.Execution

variable {Pak : Type}

/-! ## Complete copies -/

/-- The paks that a session leaves on the card: it removes the two retired ones. -/
def isStock (category : Category) (name : String) : Bool :=
  name ≠ "Update.pak" && (category ≠ .emus || name ≠ "RUFFLE.pak")

def CompleteIn (image : Image Pak) (category : Category) (card : Card Pak) : Prop :=
  ∀ stock, image.paks category = some stock → ∀ pak ∈ stock,
    isStock category pak.1 = true → card.entry category pak.1 = .dir pak.2

def Complete (image : Image Pak) (card : Card Pak) : Prop :=
  ∀ category, CompleteIn image category card

/-- The stamp of the image, with no copy under way and no reset asked for, stands for
complete copies. -/
def Truthful (image : Image Pak) (card : Card Pak) : Prop :=
  image.version ≠ "" → card.stamp = image.version → card.lock = false → card.factory = false →
    Complete image card

/-- The lock is made, and under it the directories are made and the stock paks removed
and copied, or power is lost. -/
def copiesGoThrough (call : Call Pak) (choice : Choice Pak) (card : Card Pak) : Bool :=
  match call with
  | .createLock => choice.ok || choice.powerLost
  | .makeDir _ => !card.lock || choice.ok || choice.powerLost
  | .removePak category name => !isStock category name || choice.ok || choice.powerLost
  | .copyPak category name _ => !isStock category name || choice.ok || choice.powerLost
  | _ => true

/-- No copy of a session fails. -/
def CopiesGoThrough (hasLaunch : Pak → Bool) (image : Image Pak) (card : Card Pak)
    (choices : List (Choice Pak)) : Prop :=
  (Program.session hasLaunch image).admits machine copiesGoThrough choices card = true

instance (hasLaunch : Pak → Bool) (image : Image Pak) (card : Card Pak)
    (choices : List (Choice Pak)) : Decidable (CopiesGoThrough hasLaunch image card choices) :=
  inferInstanceAs (Decidable (_ = true))

/-! ## Entries -/

section Entries

variable {card : Card Pak} {category other : Category} {name one : String} {entry : Entry Pak}

@[simp] theorem setEntry_lock : (card.setEntry category name entry).lock = card.lock := by
  unfold Card.setEntry; split <;> rfl

@[simp] theorem setEntry_stamp : (card.setEntry category name entry).stamp = card.stamp := by
  unfold Card.setEntry; split <;> rfl

@[simp] theorem setEntry_factory : (card.setEntry category name entry).factory = card.factory := by
  unfold Card.setEntry; split <;> rfl

@[simp] theorem setEntry_dirs_isSome :
    ((card.setEntry category name entry).dirs other).isSome = (card.dirs other).isSome := by
  unfold Card.setEntry
  split
  · rfl
  · rename_i entries isDir
    by_cases same : other = category
    · simp [same, isDir]
    · simp [same]

theorem entry_setEntry (there : (card.dirs category).isSome = true) :
    (card.setEntry category name entry).entry category name = entry := by
  rcases Option.isSome_iff_exists.mp there with ⟨entries, isDir⟩
  simp [Card.setEntry, Card.entry, isDir]

theorem entry_setEntry_of_ne (differs : other ≠ category ∨ one ≠ name) :
    (card.setEntry category name entry).entry other one = card.entry other one := by
  unfold Card.setEntry
  split
  · rfl
  · rename_i entries isDir
    by_cases same : other = category
    · subst same
      have oneDiffers : one ≠ name := differs.resolve_left fun absurd => absurd rfl
      simp [Card.entry, isDir, oneDiffers]
    · simp [Card.entry, same]

end Entries

/-- A card that differs from another one in entries of a category only. -/
structure Outside (category : Category) (names : List String) (before after : Card Pak) : Prop where
  lock : after.lock = before.lock
  dirs : ∀ other, (after.dirs other).isSome = (before.dirs other).isSome
  entries : ∀ other name, other ≠ category ∨ name ∉ names →
    after.entry other name = before.entry other name

theorem Outside.refl (category : Category) (names : List String) (card : Card Pak) :
    Outside category names card card :=
  ⟨rfl, fun _ => rfl, fun _ _ _ => rfl⟩

theorem Outside.trans {category : Category} {names more : List String}
    {before between after : Card Pak} (first : Outside category names before between)
    (second : Outside category more between after)
    (subset : ∀ name ∈ names, name ∈ more) : Outside category more before after where
  lock := second.lock.trans first.lock
  dirs other := (second.dirs other).trans (first.dirs other)
  entries other name differs := by
    rw [second.entries other name differs]
    exact first.entries other name (differs.imp id (mt (subset name)))

theorem outside_setEntry (card : Card Pak) (category : Category) (name : String)
    (entry : Entry Pak) : Outside category [name] card (card.setEntry category name entry) where
  lock := setEntry_lock
  dirs _ := setEntry_dirs_isSome
  entries other one differs := by
    apply entry_setEntry_of_ne
    simpa using differs

/-- What is outside a category's stock stays complete. -/
theorem Outside.complete {image : Image Pak} {category : Category} {name : String}
    {before after : Card Pak} (outside : Outside category [name] before after)
    (notStock : isStock category name = false) (complete : Complete image before) :
    Complete image after := by
  intro other stock isStock pak member kept
  rw [outside.entries other pak.1, complete other stock isStock pak member kept]
  by_cases same : other = category
  · subst same
    right
    intro named
    rw [List.mem_singleton.mp named, notStock] at kept
    cases kept
  · exact .inl same

/-! ## Rules -/

section Rules

variable (image : Image Pak)

/-- The stamp is truthful wherever an operation is issued, a session stops or exits. -/
def stampContract : Contract (Call Pak) (Card Pak) where
  rely _ _ := True
  guard _ card := Truthful image card
  stop := Truthful image
  exit _ card := Truthful image card

abbrev copying : Script.Machine (Call Pak) Call.Result (Choice Pak) (Card Pak) :=
  machine.restrict copiesGoThrough

variable {image} {card : Card Pak}

theorem Truthful.of_lock (locked : card.lock = true) : Truthful image card := by
  intro _ _ unlocked
  rw [locked] at unlocked
  cases unlocked

theorem Complete.truthful (complete : Complete image card) : Truthful image card :=
  fun _ _ _ _ => complete

theorem ensures_issue {call : Call Pak} {post : call.Result → Card Pak → Prop}
    (truthful : Truthful image card)
    (cut : ∀ choice, Truthful image (call.perform choice card).2)
    (answers : ∀ choice, copiesGoThrough call choice card = true → choice.powerLost = false →
      post (call.perform choice card).1 (call.perform choice card).2) :
    (Program.issue call).Ensures copying (stampContract image) post card := by
  refine Ensures.issue truthful truthful fun _ choice => ?_
  unfold copying Script.Machine.restrict
  by_cases admitted : copiesGoThrough call choice card = true
  · rw [if_pos admitted]
    cases lost : choice.powerLost with
    | true => exact .inr ⟨_, if_pos lost, cut _⟩
    | false =>
        have answer := answers choice admitted lost
        cases call <;> first
          | exact .inl ⟨_, _, if_neg (Bool.eq_false_iff.mp lost), answer⟩
          | exact .inr ⟨_, if_neg (Bool.eq_false_iff.mp lost), truthful⟩
  · rw [if_neg admitted]
    exact .inr ⟨card, rfl, truthful⟩

/-- Under the lock nothing has to be said of the paks. -/
theorem locked_ensures {call : Call Pak} {post : call.Result → Card Pak → Prop}
    (locked : card.lock = true)
    (keeps : ∀ choice, (call.perform choice card).2.lock = true)
    (answers : ∀ choice, copiesGoThrough call choice card = true → choice.powerLost = false →
      post (call.perform choice card).1 (call.perform choice card).2) :
    (Program.issue call).Ensures copying (stampContract image) post card :=
  ensures_issue (.of_lock locked) (fun choice => .of_lock (keeps choice)) answers

theorem inspect_ensures (truthful : Truthful image card) :
    Program.inspect.Ensures copying (stampContract image)
      (fun seen after => after = card ∧ seen = card) card :=
  ensures_issue truthful (fun _ => truthful) fun _ _ _ => ⟨rfl, rfl⟩

theorem sync_ensures (truthful : Truthful image card) :
    Program.sync.Ensures copying (stampContract image) (fun _ after => after = card) card :=
  ensures_issue truthful (fun _ => truthful) fun _ _ _ => rfl

theorem copyPak_eq (card : Card Pak) (category : Category) (name : String) (content : Pak)
    (choice : Choice Pak) :
    ∃ entry, card.copyPak category name content choice = card.setEntry category name entry ∧
      (choice.ok = true → card.entry category name = .absent → entry = .dir content) := by
  unfold Card.copyPak
  split
  · exact ⟨_, rfl, fun ok _ => if_pos ok⟩
  · rename_i notAbsent
    exact ⟨_, rfl, fun _ absent => absurd absent notAbsent⟩

theorem makeDir_ensures (locked : card.lock = true) (category : Category)
    (missing : card.dirs category = none) :
    (Program.makeDir category).Ensures copying (stampContract image)
      (fun _ after => after.lock = true ∧ (after.dirs category).isSome = true ∧
        (∀ name, after.entry category name = .absent) ∧
        ∀ other name, other ≠ category → after.entry other name = card.entry other name) card := by
  refine locked_ensures locked (fun choice => ?_) fun choice admitted lost => ?_
  · change (if choice.ok then card.makeDir category else card).lock = true
    split <;> exact locked
  · have makes : choice.ok = true := by simpa [copiesGoThrough, locked, lost] using admitted
    rw [show ((Call.makeDir category).perform choice card).2 = card.makeDir category from
      if_pos makes]
    refine ⟨locked, ?_, fun name => ?_, fun other name differs => ?_⟩
    · simp [Card.makeDir]
    · simp [Card.makeDir, Card.entry, missing]
    · simp [Card.makeDir, Card.entry, differs]

theorem removePak_ensures (locked : card.lock = true) (category : Category) (name : String) :
    (Program.removePak category name).Ensures copying (stampContract image)
      (fun _ after => Outside category [name] card after ∧ (isStock category name = true →
        (card.dirs category).isSome = true → after.entry category name = .absent)) card := by
  refine locked_ensures locked (fun _ => setEntry_lock.trans locked) fun choice admitted lost => ?_
  refine ⟨outside_setEntry card category name _, fun stock there => ?_⟩
  have removes : choice.ok = true := by simpa [copiesGoThrough, stock, lost] using admitted
  exact (entry_setEntry there).trans (if_pos removes)

theorem copyPak_ensures (locked : card.lock = true) (category : Category) (name : String)
    (content : Pak) :
    (Program.copyPak category name content).Ensures copying (stampContract image)
      (fun _ after => Outside category [name] card after ∧ (isStock category name = true →
        (card.dirs category).isSome = true → card.entry category name = .absent →
          after.entry category name = .dir content)) card := by
  refine locked_ensures locked (fun choice => ?_) fun choice admitted lost => ?_
  · rcases copyPak_eq card category name content choice with ⟨entry, same, _⟩
    exact (congrArg Card.lock same).trans (setEntry_lock.trans locked)
  · rcases copyPak_eq card category name content choice with ⟨entry, same, copied⟩
    change Outside category [name] card (card.copyPak category name content choice) ∧ (_ →
      _ → _ → (card.copyPak category name content choice).entry category name = .dir content)
    rw [same]
    refine ⟨outside_setEntry card category name entry, fun stock there absent => ?_⟩
    have copies : choice.ok = true := by simpa [copiesGoThrough, stock, lost] using admitted
    rw [entry_setEntry there, copied copies absent]

/-! ## Copying a category -/

/-- A pak is handled: nothing else changed, and a stock pak is complete. -/
def Handled (category : Category) (name : String) (content : Pak) (before after : Card Pak) :
    Prop :=
  Outside category [name] before after ∧
    (isStock category name = true → after.entry category name = .dir content)

/-- A list of paks is handled. -/
def AllHandled (category : Category) (stock : List (String × Pak)) (before after : Card Pak) :
    Prop :=
  Outside category (stock.map Prod.fst) before after ∧ ∀ pak ∈ stock,
    isStock category pak.1 = true → after.entry category pak.1 = .dir pak.2

theorem Handled.append {category : Category} {name : String} {content : Pak}
    {rest : List (String × Pak)} {before between after : Card Pak}
    (fresh : name ∉ rest.map Prod.fst) (first : Handled category name content before between)
    (later : AllHandled category rest between after) :
    AllHandled category ((name, content) :: rest) before after := by
  refine ⟨⟨later.1.lock.trans first.1.lock,
    fun other => (later.1.dirs other).trans (first.1.dirs other), ?_⟩, ?_⟩
  · intro other one differs
    rw [later.1.entries other one (differs.imp id (mt (List.mem_cons_of_mem name)))]
    apply first.1.entries other one
    exact differs.imp id (mt fun named => List.mem_singleton.mp named ▸ List.mem_cons_self)
  · intro pak member stock
    rcases List.mem_cons.mp member with rfl | member
    · rw [later.1.entries category name (.inr fresh)]
      exact first.2 stock
    · exact later.2 pak member stock

section Loop

variable {category : Category} {each : String → Pak → Program Pak Unit}
  {loop : List (String × Pak) → Program Pak Unit} (fit : Entry Pak → Pak → Prop)

/-- The rule of a loop over paks: what one pass ensures where the entry fits, all passes
ensure for a list of distinct names. -/
theorem loop_ensures (empty : loop [] = pure ())
    (step : ∀ name content rest, loop ((name, content) :: rest) = (do
      if name ≠ "Update.pak" then each name content
      loop rest))
    (one : ∀ (card : Card Pak) name content, card.lock = true →
      (card.dirs category).isSome = true →
      (isStock category name = true → fit (card.entry category name) content) →
      (each name content).Ensures copying (stampContract image)
        (fun _ after => Handled category name content card after) card)
    {stock : List (String × Pak)} (distinct : (stock.map Prod.fst).Nodup)
    (locked : card.lock = true) (there : (card.dirs category).isSome = true)
    (fits : ∀ pak ∈ stock, isStock category pak.1 = true →
      fit (card.entry category pak.1) pak.2) :
    (loop stock).Ensures copying (stampContract image)
      (fun _ after => AllHandled category stock card after) card := by
  induction stock generalizing card with
  | nil =>
      rw [empty]
      exact ⟨Outside.refl category [] card, nofun⟩
  | cons pak rest induction =>
      rcases pak with ⟨name, content⟩
      rcases List.nodup_cons.mp distinct with ⟨fresh, distinct⟩
      have goesOn : ∀ between : Card Pak, Handled category name content card between →
          (loop rest).Ensures copying (stampContract image)
            (fun _ after => AllHandled category ((name, content) :: rest) card after) between := by
        intro between first
        refine Ensures.mono (induction distinct (first.1.lock.trans locked)
          ((first.1.dirs category).trans there) ?_) fun _ after => first.append fresh
        intro pak member stock
        have untouched : pak.1 ≠ name := fun same =>
          fresh (List.mem_map.mpr ⟨pak, member, same⟩)
        rw [first.1.entries category pak.1 (.inr (mt List.mem_singleton.mp untouched))]
        exact fits pak (List.mem_cons_of_mem _ member) stock
      rw [step]
      by_cases update : name ≠ "Update.pak"
      · rw [if_pos update]
        exact Ensures.bind (one card name content locked there
          (fits (name, content) List.mem_cons_self)) fun _ => goesOn
      · rw [if_neg update]
        refine goesOn card ⟨Outside.refl category [name] card, fun stock => ?_⟩
        simp [isStock, not_not.mp update] at stock

end Loop

theorem copyAll_ensures (category : Category) {stock : List (String × Pak)}
    (distinct : (stock.map Prod.fst).Nodup) (locked : card.lock = true)
    (there : (card.dirs category).isSome = true)
    (absent : ∀ pak ∈ stock, isStock category pak.1 = true →
      card.entry category pak.1 = .absent) :
    (Program.copyAll category stock).Ensures copying (stampContract image)
      (fun _ after => AllHandled category stock card after) card := by
  refine loop_ensures (fun entry _ => entry = .absent) rfl (fun _ _ _ => rfl) ?_
    distinct locked there absent
  intro card name content locked there absent
  refine Ensures.mono (copyPak_ensures locked category name content) ?_
  exact fun _ after copied => ⟨copied.1, fun stock => copied.2 stock there (absent stock)⟩

section Repair

variable (hasLaunch : Pak → Bool)

/-- One pak, where it is overwritten or was complete. -/
theorem repair_ensures {category : Category} {name : String} {content : Pak} {overwrite : Bool}
    (locked : card.lock = true) (there : (card.dirs category).isSome = true)
    (fits : isStock category name = true →
      overwrite = true ∨ card.entry category name = .dir content) :
    (Program.repair hasLaunch overwrite category name content).Ensures copying
      (stampContract image) (fun _ after => Handled category name content card after) card := by
  have overwritten : ((Program.removePak category name) >>= fun _ =>
      Program.copyPak category name content).Ensures copying (stampContract image)
      (fun _ after => Handled category name content card after) card := by
    refine Ensures.bind (removePak_ensures locked category name) ?_
    rintro _ between ⟨removed, absent⟩
    have stillLocked : between.lock = true := removed.lock.trans locked
    have stillThere : (between.dirs category).isSome = true := (removed.dirs category).trans there
    refine Ensures.mono (copyPak_ensures stillLocked category name content) ?_
    rintro _ after ⟨copied, complete⟩
    exact ⟨removed.trans copied fun _ member => member,
      fun stock => complete stock stillThere (absent stock there)⟩
  unfold Program.repair
  cases overwrite with
  | true => exact overwritten
  | false =>
      refine Ensures.bind (inspect_ensures (.of_lock locked)) ?_
      rintro _ _ ⟨rfl, rfl⟩
      split
      · exact overwritten
      · exact ⟨Outside.refl category [name] _,
          fun stock => (fits stock).resolve_left Bool.false_ne_true⟩

theorem repairAll_ensures (category : Category) {overwrite : Bool} {stock : List (String × Pak)}
    (distinct : (stock.map Prod.fst).Nodup) (locked : card.lock = true)
    (there : (card.dirs category).isSome = true)
    (fits : ∀ pak ∈ stock, isStock category pak.1 = true →
      overwrite = true ∨ card.entry category pak.1 = .dir pak.2) :
    (Program.repairAll hasLaunch overwrite category stock).Ensures copying (stampContract image)
      (fun _ after => AllHandled category stock card after) card :=
  loop_ensures (fun entry content => overwrite = true ∨ entry = .dir content) rfl
    (fun _ _ _ => rfl) (fun _ _ _ => repair_ensures hasLaunch) distinct locked there fits

/-- Under the lock, a category is complete after its copy when it was or is overwritten. -/
theorem copyStockPaks_ensures (start : Variables) (category : Category)
    (locked : card.lock = true)
    (before : overwrites image start = true ∨ CompleteIn image category card) :
    (Program.copyStockPaks hasLaunch image start category).Ensures copying
      (stampContract image)
      (fun _ after => after.lock = true ∧ CompleteIn image category after ∧
        ∀ other name, other ≠ category → after.entry other name = card.entry other name) card := by
  have finished : ∀ {stock between after}, image.paks category = some stock →
      between.lock = true →
      (∀ other name, other ≠ category → between.entry other name = card.entry other name) →
      AllHandled category stock between after →
      after.lock = true ∧ CompleteIn image category after ∧
        ∀ other name, other ≠ category → after.entry other name = card.entry other name := by
    rintro stock between after isStock locked elsewhere ⟨outside, complete⟩
    refine ⟨outside.lock.trans locked, fun other isOther => ?_, fun other name differs => ?_⟩
    · cases isStock.symm.trans isOther
      exact complete
    · rw [outside.entries other name (.inl differs)]
      exact elsewhere other name differs
  unfold Program.copyStockPaks
  rcases isStock : image.paks category with _ | stock
  · exact ⟨locked, fun _ isSome => (Option.some_ne_none _ (isSome.symm.trans isStock)).elim,
      fun _ _ _ => rfl⟩
  · have distinct := image.distinct category stock isStock
    refine Ensures.bind (inspect_ensures (.of_lock locked)) ?_
    rintro seen after ⟨rfl, rfl⟩
    split
    · rename_i missing
      have noEntries : seen.dirs category = none := by simpa using missing
      refine Ensures.bind (makeDir_ensures locked category noEntries) ?_
      rintro _ between ⟨stillLocked, there, absent, elsewhere⟩
      refine Ensures.mono (copyAll_ensures category distinct stillLocked there
        fun pak _ _ => absent pak.1) ?_
      exact fun _ after => finished isStock stillLocked elsewhere
    · rename_i there
      have isDir : (seen.dirs category).isSome = true := by
        simpa [Option.isSome_iff_ne_none] using there
      refine Ensures.mono (repairAll_ensures hasLaunch category distinct locked isDir ?_) ?_
      · exact fun pak member stockPak =>
          before.imp id fun complete => complete stock isStock pak member stockPak
      · exact fun _ after => finished isStock locked fun _ _ _ => rfl

end Repair

/-! ## The end of a copy -/

theorem Complete.of_dirs {before after : Card Pak} (complete : Complete image before)
    (same : after.dirs = before.dirs) : Complete image after := by
  intro category stock isStock pak member kept
  rw [show after.entry category pak.1 = before.entry category pak.1 by simp [Card.entry, same]]
  exact complete category stock isStock pak member kept

/-- Complete copies stay complete over an operation that leaves the paks alone. -/
theorem complete_ensures {call : Call Pak} (complete : Complete image card)
    (keeps : ∀ choice, (call.perform choice card).2.dirs = card.dirs) :
    (Program.issue call).Ensures copying (stampContract image)
      (fun _ after => Complete image after) card :=
  ensures_issue complete.truthful (fun choice => (complete.of_dirs (keeps choice)).truthful)
    fun choice _ _ => complete.of_dirs (keeps choice)

theorem removeRetired_ensures {category : Category} {name : String}
    (notStock : isStock category name = false) (complete : Complete image card) :
    (Program.removePak category name).Ensures copying (stampContract image)
      (fun _ after => Complete image after) card := by
  have stays : ∀ entry, Complete image (card.setEntry category name entry) := fun entry =>
    (outside_setEntry card category name entry).complete notStock complete
  exact ensures_issue complete.truthful (fun choice => (stays _).truthful)
    fun choice _ _ => stays _

section Session

variable (hasLaunch : Pak → Bool)

theorem finishCopy_ensures (start : Variables) (complete : Complete image card) :
    (Program.finishCopy hasLaunch image start).Ensures copying (stampContract image)
      (fun _ after => Complete image after) card := by
  have keep {before : Card Pak} (complete : Complete image before) (call : Call Pak)
      (keeps : ∀ choice, (call.perform choice before).2.dirs = before.dirs) :
      (Program.issue call).Ensures copying (stampContract image)
        (fun _ after => Complete image after) before :=
    complete_ensures complete keeps
  have rewritten {before after : Card Pak} (condition : Prop) [Decidable condition]
      (same : after.dirs = before.dirs) :
      (if condition then after else before).dirs = before.dirs := by
    split
    · exact same
    · rfl
  have checked : ∀ (current : Variables) {before : Card Pak}, Complete image before →
      (do
        Program.removeFactory
        Program.removeLock
        Program.sync
        if !stockPaksReady hasLaunch image current (← Program.inspect) then
          if !(← Program.inspect).copyReboot then
            Program.markCopyReboot
            Program.sync
            Program.reboot
        else Program.clearCopyReboot : Program Pak Unit).Ensures copying (stampContract image)
          (fun _ after => Complete image after) before := by
    intro current before complete
    refine Ensures.bind (keep complete .removeFactory fun _ => rewritten _ rfl) ?_
    rintro _ _ complete
    refine Ensures.bind (keep complete .removeLock fun _ => rewritten _ rfl) ?_
    rintro _ _ complete
    refine Ensures.bind (keep complete .sync fun _ => rfl) ?_
    rintro _ _ complete
    refine Ensures.bind (keep complete .inspect fun _ => rfl) ?_
    rintro _ _ complete
    split
    · refine Ensures.bind (keep complete .inspect fun _ => rfl) ?_
      rintro _ _ complete
      split
      · refine Ensures.bind (keep complete .markCopyReboot fun _ => rewritten _ rfl) ?_
        rintro _ _ complete
        refine Ensures.bind (keep complete .sync fun _ => rfl) ?_
        exact fun _ _ complete => keep complete .reboot fun _ => rfl
      · exact complete
    · exact keep complete .clearCopyReboot fun _ => rewritten _ rfl
  unfold Program.finishCopy
  refine Ensures.bind (removeRetired_ensures rfl complete) ?_
  rintro _ _ complete
  refine Ensures.bind (removeRetired_ensures rfl complete) ?_
  rintro _ _ complete
  refine Ensures.bind (keep complete .cardDefaults fun _ => rfl) ?_
  rintro _ _ complete
  split
  · refine Ensures.bind (keep complete (.writeStamp image.version) fun _ => rfl) ?_
    exact fun _ _ => checked _
  · exact checked _ complete

/-! ## A session -/

theorem Truthful.setEntry (truthful : Truthful image card) {category : Category} {name : String}
    (notStock : isStock category name = false) (entry : Entry Pak) :
    Truthful image (card.setEntry category name entry) := by
  intro versioned stamped unlocked kept
  rw [setEntry_stamp] at stamped
  rw [setEntry_lock] at unlocked
  rw [setEntry_factory] at kept
  exact (outside_setEntry card category name entry).complete notStock
    (truthful versioned stamped unlocked kept)

/-- Where the session does not overwrite, the card said that the paks are complete. -/
theorem overwrites_or_complete (truthful : Truthful image card) (versioned : image.version ≠ "") :
    overwrites image (Variables.read card) = true ∨ Complete image card := by
  rcases isFactory : card.factory with _ | _
  · rcases isLocked : card.lock with _ | _
    · by_cases stamped : image.version = card.stamp
      · exact .inr (truthful versioned stamped.symm isLocked isFactory)
      · left
        simp [overwrites, Variables.read, versioned, stamped]
    · left
      simp [overwrites, Variables.read, isLocked]
  · left
    simp [overwrites, Variables.read, isFactory]

theorem createLock_ensures (truthful : Truthful image card) :
    Program.createLock.Ensures copying (stampContract image)
      (fun _ after => after = { card with lock := true }) card := by
  refine ensures_issue truthful (fun choice => ?_) fun choice admitted lost => ?_
  · change Truthful image (if choice.ok then { card with lock := true } else card)
    split
    · exact .of_lock rfl
    · exact truthful
  · have creates : choice.ok = true := by simpa [copiesGoThrough, lost] using admitted
    exact if_pos creates

theorem pakSync_ensures (versioned : image.version ≠ "") (truthful : Truthful image card) :
    (Program.pakSync hasLaunch image).Ensures copying (stampContract image)
      (fun _ after => Truthful image after) card := by
  unfold Program.pakSync
  refine Ensures.bind (inspect_ensures truthful) ?_
  rintro seen card ⟨rfl, rfl⟩
  have retired : (Program.removePak .tools "Update.pak").Ensures copying (stampContract image)
      (fun _ after => Truthful image after ∧
        (overwrites image (Variables.read seen) = true ∨ Complete image after)) seen := by
    refine ensures_issue truthful (fun choice => truthful.setEntry rfl _) fun choice _ _ =>
      ⟨truthful.setEntry rfl _, ?_⟩
    exact (overwrites_or_complete truthful versioned).imp id fun complete =>
      (outside_setEntry seen .tools "Update.pak" _).complete rfl complete
  refine Ensures.bind retired ?_
  rintro _ card ⟨truthful, before⟩
  refine Ensures.bind (inspect_ensures truthful) ?_
  rintro _ card ⟨rfl, rfl⟩
  split
  · exact ensures_issue truthful (fun _ => truthful) fun _ _ _ => truthful
  · refine Ensures.bind (createLock_ensures truthful) ?_
    rintro _ _ rfl
    refine Ensures.bind (sync_ensures (.of_lock rfl)) ?_
    rintro _ _ rfl
    refine Ensures.bind (copyStockPaks_ensures hasLaunch (Variables.read seen) .emus rfl
      (before.imp id fun complete => complete .emus)) ?_
    rintro _ between ⟨locked, emus, elsewhere⟩
    have tools : overwrites image (Variables.read seen) = true ∨
        CompleteIn image .tools between := by
      refine before.imp id fun complete stock isStock pak member kept => ?_
      rw [elsewhere .tools pak.1 nofun]
      exact complete .tools stock isStock pak member kept
    refine Ensures.bind (copyStockPaks_ensures hasLaunch (Variables.read seen) .tools locked
      tools) ?_
    rintro _ after ⟨_, tools, elsewhere⟩
    have complete : Complete image after := by
      intro category
      cases category with
      | tools => exact tools
      | emus =>
          intro stock isStock pak member kept
          rw [elsewhere .emus pak.1 nofun]
          exact emus stock isStock pak member kept
    exact Ensures.mono (finishCopy_ensures hasLaunch (Variables.read seen) complete)
      fun _ _ => Complete.truthful

theorem ensureToolsMap_ensures (truthful : Truthful image card) :
    (Program.ensureToolsMap image).Ensures copying (stampContract image)
      (fun _ after => Truthful image after) card := by
  have entries : ∀ category name,
      (card.makeDir .tools).entry category name = card.entry category name := by
    intro category name
    by_cases same : category = .tools
    · subst same
      rcases isDir : card.dirs .tools with _ | entries <;>
        simp [Card.makeDir, Card.entry, isDir]
    · simp [Card.makeDir, Card.entry, same]
  have made : Truthful image (card.makeDir .tools) := by
    intro versioned stamped unlocked kept category stock isStock pak member stays
    rw [entries category pak.1]
    exact truthful versioned stamped unlocked kept category stock isStock pak member stays
  have either : ∀ choice : Choice Pak,
      Truthful image (if choice.ok then card.makeDir .tools else card) := by
    intro choice
    split
    · exact made
    · exact truthful
  unfold Program.ensureToolsMap
  split
  · exact ensures_issue truthful either fun choice _ _ => either choice
  · exact truthful

theorem session_ensures (versioned : image.version ≠ "") (truthful : Truthful image card) :
    (Program.session hasLaunch image).Ensures copying (stampContract image)
      (fun _ after => Truthful image after) card :=
  Ensures.bind (pakSync_ensures hasLaunch versioned truthful) fun _ _ => ensureToolsMap_ensures

theorem sessionStep_truthful {choices : List (Choice Pak)} (truthful : Truthful image card)
    (copied : CopiesGoThrough hasLaunch image card choices) :
    Truthful image (sessionStep hasLaunch image card choices) := by
  intro versioned
  have ends : Outcome.Meets (stampContract image) (fun _ after => Truthful image after)
      ((Program.session hasLaunch image).exec copying choices card) :=
    ((session_ensures hasLaunch versioned truthful).exec choices fun _ _ => trivial).2
  rw [exec_restrict copied] at ends
  exact ends.state (Truthful image) (fun _ _ => id) (fun _ _ => id) (fun _ => id) versioned

end Session

end Rules

/-! ## Runs of sessions -/

/-- Whatever a card held before, as long as its stamp was truthful: after every session,
however its power was lost, the stamp of the image stands for complete copies. -/
theorem stamp_truthful (hasLaunch : Pak → Bool) (image : Image Pak) (card : Card Pak)
    (truthful : Truthful image card) (sessions : List (List (Choice Pak)))
    (copied : Along (sessionStep hasLaunch image) (CopiesGoThrough hasLaunch image) card sessions) :
    Throughout (sessionStep hasLaunch image) (Truthful image) card sessions :=
  copied.throughout (Truthful image) (fun _ => id)
    (fun _ _ => sessionStep_truthful hasLaunch) truthful

/-! ### A sample image -/

/-- Two paks, each a number that is its content. -/
def sampleImage : Image Nat where
  version := "2"
  paks
    | .emus => some [("GBA.pak", 7), ("SFC.pak", 8)]
    | .tools => some []
  toolsMap := true
  distinct
    | .emus, _, rfl => by decide
    | .tools, _, rfl => by decide

def blankCard : Card Nat := ⟨fun _ => none, "", false, false, false⟩

/-- A card with the paks of the image, and a factory reset asked for. -/
def resetCard : Card Nat where
  dirs
    | .emus => some fun name =>
        if name = "GBA.pak" then .dir 7 else if name = "SFC.pak" then .dir 8 else .absent
    | .tools => some fun _ => .absent
  stamp := "2"
  lock := false
  factory := true
  copyReboot := false

def succeeds : Choice Nat := ⟨true, false, .absent, ""⟩

/-- Power is lost with half of a pak on the card. -/
def cut : Choice Nat := ⟨false, true, .dir 0, ""⟩

def copyFails : Choice Nat := ⟨false, false, .dir 0, ""⟩

/-- A first copy that is cut, and the session after it. -/
def sampleSessions : List (List (Choice Nat)) :=
  [List.replicate 8 succeeds ++ [cut], List.replicate 40 succeeds]

theorem sampleSessions_truthful :
    Throughout (sessionStep (fun _ => true) sampleImage) (Truthful sampleImage) blankCard
      sampleSessions :=
  stamp_truthful (fun _ => true) sampleImage blankCard (fun _ stamped => absurd stamped (by decide))
    sampleSessions (by decide +kernel)

/-- The stamp alone does not stand for complete copies: neither while a factory reset
copies them again, nor after a copy that failed. -/
theorem stamped_incomplete :
    (let after := sessionStep (fun _ => true) sampleImage resetCard
      (List.replicate 7 succeeds ++ [cut])
    after.stamp = sampleImage.version ∧ ¬Complete sampleImage after) ∧
    let after := sessionStep (fun _ => true) sampleImage blankCard
      (List.replicate 7 succeeds ++ [copyFails] ++ List.replicate 40 succeeds)
    after.stamp = sampleImage.version ∧ ¬Complete sampleImage after := by
  refine ⟨⟨by decide +kernel, fun complete => ?_⟩, by decide +kernel, fun complete => ?_⟩
  · have copied := complete .emus _ rfl ("GBA.pak", 7) List.mem_cons_self rfl
    revert copied
    decide +kernel
  · have copied := complete .emus _ rfl ("GBA.pak", 7) List.mem_cons_self rfl
    revert copied
    decide +kernel

end Zlyme.Session
