import Zlyme.Pak.Spawn

/-! # The supervisor signals its own session only

Whatever the other processes do between two of its system calls, a signal of the supervisor
goes to the process that its last look found in the session of its child, and it ends with
another status than 125 only when that session is empty.
-/

namespace Zlyme.Pak.Spawn

open Foundation Foundation.Script

/-! ## What holds of the processes -/

structure Sound (world : World) : Prop where
  table : lineage.Ok world.table
  descriptors : ∀ id ∈ world.descriptors, id ∈ world.table.used
  members : ∀ id ∈ world.members, world.isMember id = true
  noted : ∀ child, world.child = some child → child ∈ world.table.used
  alive : ∀ child, world.child = some child → world.reaped = false →
    ∃ process ∈ world.table.live, identity process = child
  gone : ∀ child, world.child = some child → world.reaped = true →
    lineage.Gone child world.table

/-- The process leads its session, as long as it lives. -/
def Leads (id : Identity) (table : Population Process Identity) : Prop :=
  ∀ process ∈ table.live, identity process = id → process.session = process.pid

/-- What has been learned stays true. -/
structure Later (before after : World) : Prop where
  sound : Sound after
  child : after.child = before.child
  started : after.started = before.started
  used : ∀ id ∈ before.table.used, id ∈ after.table.used
  gone : ∀ id, lineage.Gone id before.table → lineage.Gone id after.table
  leads : ∀ id ∈ before.table.used, Leads id before.table → Leads id after.table
  descriptors : before.descriptors <+: after.descriptors

/-- Nobody has waited for the child meanwhile. -/
structure Onward (before after : World) : Prop extends Later before after where
  reaped : after.reaped = before.reaped

/-- No directory has been opened meanwhile. -/
structure Quiet (before after : World) : Prop extends Onward before after where
  members : ∀ id ∈ after.members, id ∈ before.members
  owed : ∀ id ∈ after.members, id.pid ∈ before.owed → id.pid ∈ after.owed

theorem Later.refl {world : World} (sound : Sound world) : Later world world :=
  ⟨sound, rfl, rfl, fun _ noted => noted, fun _ gone => gone, fun _ _ leads => leads,
    List.prefix_rfl⟩

theorem Later.trans {first second third : World} (left : Later first second)
    (right : Later second third) : Later first third where
  sound := right.sound
  child := right.child.trans left.child
  started := right.started.trans left.started
  used id noted := right.used id (left.used id noted)
  gone id gone := right.gone id (left.gone id gone)
  leads id noted leads := right.leads id (left.used id noted) (left.leads id noted leads)
  descriptors := left.descriptors.trans right.descriptors

theorem Onward.refl {world : World} (sound : Sound world) : Onward world world :=
  ⟨Later.refl sound, rfl⟩

theorem Onward.trans {first second third : World} (left : Onward first second)
    (right : Onward second third) : Onward first third :=
  ⟨left.toLater.trans right.toLater, right.reaped.trans left.reaped⟩

theorem Quiet.refl {world : World} (sound : Sound world) : Quiet world world :=
  ⟨Onward.refl sound, fun _ member => member, fun _ _ owes => owes⟩

theorem Quiet.trans {first second third : World} (left : Quiet first second)
    (right : Quiet second third) : Quiet first third where
  toOnward := left.toOnward.trans right.toOnward
  members id member := left.members id (right.members id member)
  owed id member owes := right.owed id member (left.owed id (right.members id member) owes)

theorem isMember_iff {world : World} {child id : Identity} (isChild : world.child = some child) :
    world.isMember id = true ↔ ∃ process ∈ world.table.live,
      identity process = id ∧ process.session = child.pid ∧ process.state ≠ zombie := by
  rw [World.isMember, isChild]
  simp [and_assoc]

theorem live_of_isMember {world : World} {id : Identity} (member : world.isMember id = true) :
    ∃ process ∈ world.table.live, identity process = id := by
  cases isChild : world.child with
  | none => simp [World.isMember, isChild] at member
  | some child =>
      rcases (isMember_iff isChild).mp member with ⟨process, isLive, same, _⟩
      exact ⟨process, isLive, same⟩

theorem lineage_leads {id : Identity} {table : Population Process Identity}
    (noted : id ∈ table.used) (leads : Leads id table) (change : TableChange) :
    Leads id (lineage.change table change) := by
  have kept : ∀ old item : Process, lineage.identity old = lineage.identity item →
      lineage.allowed old item = true → old.session = old.pid → item.session = item.pid := by
    intro old item same allowed leader
    rcases Bool.or_eq_true_iff.mp allowed with stays | ofItsOwn
    · have samePid : old.pid = item.pid := congrArg Identity.pid same
      rw [beq_iff_eq] at stays
      rw [stays, leader, samePid]
    · exact beq_iff_eq.mp ofItsOwn
  exact Lineage.change_trait (fun process : Process => process.session = process.pid) kept change
    noted leads

/-! ## What the others do -/

theorem refresh_quiet {world : World} {table : Population Process Identity}
    (sound : Sound world) (ok : lineage.Ok table)
    (used : ∀ id ∈ world.table.used, id ∈ table.used)
    (gone : ∀ id, lineage.Gone id world.table → lineage.Gone id table)
    (leads : ∀ id ∈ world.table.used, Leads id world.table → Leads id table)
    (alive : ∀ child, world.child = some child → world.reaped = false →
      ∃ process ∈ table.live, identity process = child) :
    Quiet world (World.refresh { world with table := table }) where
  sound := {
    table := ok
    descriptors := fun id member => used id (sound.descriptors id member)
    members := fun id member => List.of_mem_filter member
    noted := fun child isChild => used child (sound.noted child isChild)
    alive := alive
    gone := fun child isChild reaped => gone child (sound.gone child isChild reaped) }
  child := rfl
  started := rfl
  used := used
  gone := gone
  leads := leads
  descriptors := List.prefix_rfl
  reaped := rfl
  members id member := List.mem_of_mem_filter member
  owed id member owes := by
    rcases live_of_isMember (List.of_mem_filter member) with ⟨process, isLive, same⟩
    have found := ok.at? isLive
    refine List.mem_filter.mpr ⟨owes, ?_⟩
    change (lineage.at? table id.pid).isSome = true
    rw [← same]
    change (lineage.at? table (lineage.key (lineage.identity process))).isSome = true
    rw [found]
    rfl

theorem event_quiet {world : World} (sound : Sound world) (change : TableChange) :
    Quiet world (world.event change) := by
  rw [World.event]
  split
  · exact Quiet.refl sound
  · rename_i free
    refine refresh_quiet sound (Lineage.change_ok sound.table change)
      (fun _ => Lineage.change_used change) (fun _ => Lineage.change_gone change)
      (fun _ noted leads => lineage_leads noted leads change) ?_
    intro child isChild unreaped
    refine Lineage.change_held change (sound.alive child isChild unreaped) ?_
    rintro rfl
    rw [World.keeps, isChild, unreaped] at free
    exact free (by simp [lineage])

theorem evolve_quiet {world : World} (sound : Sound world) (changes : List TableChange) :
    Quiet world (world.evolve changes) := by
  induction changes generalizing world with
  | nil => exact Quiet.refl sound
  | cons change rest induction =>
      have first := event_quiet sound change
      exact first.trans (induction first.sound)

/-! ## The contract -/

/-- The session of the child is none that the supervisor belongs to. -/
structure Foreign (self : Self) (child : Identity) : Prop where
  notInit : 1 < child.pid
  session : 0 < self.session → child.pid ≠ self.session
  group : 0 < self.session → child.pid ≠ self.group

theorem foreign_of_ownSession {self : Self} {child : Identity}
    (other : ownSession self child.pid = false) : Foreign self child := by
  rw [ownSession, Bool.or_eq_false_iff, decide_eq_false_iff_not, Bool.and_eq_false_iff] at other
  rcases other with ⟨notInit, others⟩
  have differs : 0 < self.session → child.pid ≠ self.session ∧ child.pid ≠ self.group := by
    intro positive
    rcases others with nonpositive | neither
    · simp [positive] at nonpositive
    · simpa using neither
  exact ⟨Int32.not_le.mp notInit, fun positive => (differs positive).1,
    fun positive => (differs positive).2⟩

/-- A signal through a descriptor goes to the process that was just seen, alive and in the
session of the child. A plain `kill` goes to the child, which nobody has waited for. -/
def Targeted (self : Self) (call : Call) (world : World) : Prop :=
  match call with
  | .pidfdSend descriptor _ => ∃ child process, world.child = some child ∧ Foreign self child ∧
      world.observed = some process ∧
      world.descriptors[descriptor]? = some (identity process) ∧
      process.session = child.pid ∧ process.state ≠ zombie
  | .kill pid _ => ∃ child, world.child = some child ∧ pid = child.pid ∧ world.reaped = false
  | _ => True

def supervising (self : Self) : Contract Call World where
  rely _ _ := True
  guard := Targeted self
  stop _ := True
  exit _ _ := True

abbrev Meets (self : Self) {α : Type} (program : Program α) (post : α → World → Prop)
    (world : World) : Prop :=
  program.Ensures machine (supervising self) post world

section Calls

variable {self : Self} {world : World}

theorem call_meets (sound : Sound world) {call : Call} {post : call.Result → World → Prop}
    (guarded : Targeted self call world)
    (answers : ∀ choice between, Quiet world between → ∀ result after,
      call.perform choice between = (some result, after) → post result after) :
    Meets self (issue call) post world := by
  refine Ensures.issue trivial guarded fun _ choice => ?_
  rcases answer : machine call choice world with ⟨_ | result, after⟩
  · exact .inr ⟨after, rfl, trivial⟩
  · exact .inl ⟨result, after, rfl,
      answers choice _ (evolve_quiet sound choice.changes) result after answer⟩

/-- A call that does nothing to the world. -/
theorem idle_meets (sound : Sound world) {call : Call} (guarded : Targeted self call world)
    (idle : ∀ choice between, (call.perform choice between).2 = between) :
    Meets self (issue call) (fun _ after => Quiet world after) world := by
  refine call_meets sound guarded fun choice between quiet result after answer => ?_
  have same := idle choice between
  rw [answer] at same
  rwa [← same] at quiet

theorem readInfo_statLine (process : Process) {pid : Int32} (positive : ¬pid ≤ 0) :
    readInfo (.text process.statLine) pid = .process { process.info with pid := pid } := by
  have nonempty : process.statLine ≠ [] := by
    simp [Process.statLine, Process.back]
  rcases process.take_statLine (by decide : 511 ≤ 4095) with ⟨rest, isBack, isBuffer⟩
  rw [readInfo, if_neg positive, isBuffer, process.parseInfo_front isBack]
  exact nonempty

/-- What an inspection says of the processes at its moment. -/
def Seen (pid : Int32) (found : Inspection) (world : World) : Prop :=
  match found with
  | .process info => ∃ process ∈ world.table.live, world.observed = some process ∧
      process.pid = pid ∧ info = { process.info with pid := pid }
  | .disappeared => world.at? pid = none
  | .error => True

theorem readProcess_meets (sound : Sound world) (pid : Int32) :
    Meets self (readProcess pid) (fun found after => Quiet world after ∧ Seen pid found after)
      world := by
  rw [readProcess]
  split
  · exact ⟨Quiet.refl sound, trivial⟩
  · rename_i positive
    refine Ensures.bind (call_meets sound trivial ?_) fun reading after seen => seen
    intro choice between quiet reading after answer
    rw [Call.perform] at answer
    split at answer
    · split at answer
      · rename_i missing
        cases answer
        rw [readInfo, if_neg positive]
        exact ⟨quiet, missing⟩
      · rename_i process found
        cases answer
        rw [readInfo_statLine process positive]
        have place := Lineage.at?_eq_some found
        exact ⟨{ quiet with sound := { quiet.sound with } }, process, place.1, rfl, place.2, rfl⟩
    · cases answer
      rw [readInfo, if_neg positive]
      exact ⟨quiet, trivial⟩

end Calls

/-! ## Scans -/

section Scans

variable {self : Self} {child : Identity} {world : World}

theorem Sound.eq_of_pid (sound : Sound world) {first second : Process}
    (isFirst : first ∈ world.table.live) (isSecond : second ∈ world.table.live)
    (same : first.pid = second.pid) : first = second :=
  sound.table.eq_of_key isFirst isSecond same

/-- The child lives, nobody has waited for it, and it leads its session. -/
structure Leading (child : Identity) (world : World) : Prop where
  unreaped : world.reaped = false
  leads : Leads child world.table

theorem Leading.mono {after : World} (leading : Leading child world) (sound : Sound world)
    (isChild : world.child = some child) (onward : Onward world after) : Leading child after :=
  ⟨onward.reaped.trans leading.unreaped,
    onward.leads child (sound.noted child isChild) leading.leads⟩

theorem leaderSessionState_meets (sound : Sound world) (isChild : world.child = some child) :
    Meets self (leaderSessionState child)
      (fun state after => Quiet world after ∧ (state = some true → Leading child after)) world := by
  refine Ensures.bind (readProcess_meets sound child.pid) fun found after ⟨quiet, seen⟩ => ?_
  rcases found with info | _ | _
  · rcases seen with ⟨process, live, _, samePid, rfl⟩
    dsimp only
    split_ifs with otherTime isZombie otherSession
    · exact ⟨quiet, by simp⟩
    · exact ⟨quiet, by simp⟩
    · exact ⟨quiet, by simp⟩
    · refine ⟨quiet, fun _ => ?_⟩
      rw [not_not] at otherTime
      rw [not_or, not_not, not_not] at otherSession
      have same : identity process = child := by
        rw [identity, samePid]
        exact congrArg (Identity.mk child.pid) otherTime
      have leads : Leads child after.table := by
        intro other isLive isSame
        have equal := quiet.sound.eq_of_pid isLive live
          (congrArg Identity.pid (isSame.trans same.symm))
        rw [equal, samePid]
        exact otherSession.2
      refine ⟨?_, leads⟩
      rw [Bool.eq_false_iff]
      intro reaped
      have gone := quiet.sound.gone child (quiet.child.trans isChild) reaped
      exact gone.2 process live same
  · exact ⟨quiet, by simp⟩
  · exact ⟨quiet, by simp⟩

/-- A process as a scan has noted it: in the session of the child, with an identity that
was there. -/
structure Noted (child : Identity) (world : World) (info : ProcInfo) : Prop where
  session : info.sid = child.pid
  used : ⟨info.pid, info.starttime⟩ ∈ world.table.used

theorem Noted.mono {after : World} {info : ProcInfo} (noted : Noted child world info)
    (later : Later world after) : Noted child after info :=
  ⟨noted.session, later.used _ noted.used⟩

/-- The scan need not look at this number, or it has noted a process there. -/
def Settled (self : Self) (child : Identity) (list : List ProcInfo) (pid : Int32) : Prop :=
  pid ≤ 1 ∨ pid = self.pid ∨ pid = child.pid ∨ ∃ info ∈ list, info.pid = pid

theorem Settled.append {list : List ProcInfo} {pid : Int32}
    (settled : Settled self child list pid) (more : List ProcInfo) :
    Settled self child (list ++ more) pid := by
  rcases settled with small | own | leader | ⟨info, member, same⟩
  · exact .inl small
  · exact .inr (.inl own)
  · exact .inr (.inr (.inl leader))
  · exact .inr (.inr (.inr ⟨info, List.mem_append_left _ member, same⟩))

/-- Every member since the directory was opened is still to come, or has been settled. -/
def Covers (self : Self) (child : Identity) (list : List ProcInfo) (world : World) : Prop :=
  ∀ id ∈ world.members, id.pid ∈ world.owed ∨ Settled self child list id.pid

theorem Covers.mono {after : World} {list : List ProcInfo}
    (covers : Covers self child list world) (quiet : Quiet world after) :
    Covers self child list after := by
  intro id member
  rcases covers id (quiet.members id member) with owes | settled
  · exact .inl (quiet.owed id member owes)
  · exact .inr settled

theorem decimal_first {n : Nat} (positive : 0 < n) :
    ∃ first rest, Decimal.decimal n = first :: rest ∧ 0x31 ≤ first ∧ first ≤ 0x39 := by
  induction n using Nat.strongRecOn with
  | ind n induction =>
      by_cases small : n < 10
      · rw [Decimal.decimal_of_lt small]
        have digits : ∀ n < 10, 0 < n →
            0x31 ≤ n.digitChar.toUInt8 ∧ n.digitChar.toUInt8 ≤ 0x39 := by decide
        exact ⟨n.digitChar.toUInt8, [], rfl, digits n small positive⟩
      · have large : 10 ≤ n := Nat.not_lt.mp small
        rcases induction (n / 10) (by omega) (by omega) with ⟨first, rest, spelled, bounds⟩
        exact ⟨first, _, by rw [Decimal.decimal_of_le large, spelled]; rfl, bounds⟩

theorem entryPid_entryName {pid : Int32} (large : ¬pid ≤ 1) :
    entryPid (entryName pid) = some pid := by
  have positive : 1 < pid.toInt := Int32.lt_iff_toInt_lt.mp (Int32.not_le.mp large)
  have number : pid.toInt = Int.ofNat pid.toInt.toNat := by
    rw [Int.ofNat_eq_natCast]
    omega
  have parsed := parseNumber_int32 pid
  have digits : 0 < pid.toInt.toNat := by omega
  rcases decimal_first digits with ⟨first, rest, spelled, above, below⟩
  have name : entryName pid = first :: rest := by
    rw [entryName, number, Decimal.signedDecimal, spelled]
  rw [← entryName, name] at parsed
  rw [name]
  have inside : ¬(first < 0x31 || 0x39 < first) := by
    simp only [Bool.or_eq_true, decide_eq_true_eq, not_or, UInt8.not_lt]
    exact ⟨above, below⟩
  rw [entryPid, if_neg inside, parsed, Option.map_some, Int32.ofInt_toInt]

/-- One entry: whoever it names has been settled, unless it is looked at next. -/
theorem nextEntry_meets (sound : Sound world) {list : List ProcInfo}
    (covers : Covers self child list world) :
    Meets self (issue .nextEntry) (fun name after => Onward world after ∧
      ∀ id ∈ after.members, id.pid ∈ after.owed ∨ Settled self child list id.pid ∨
        entryPid name = some id.pid) world := by
  refine call_meets sound trivial fun choice between quiet name after answer => ?_
  cases answer
  refine ⟨{ quiet.toOnward with sound := { quiet.sound with } }, ?_⟩
  intro id member
  rcases covers.mono quiet id member with owes | settled
  · by_cases named : entryName id.pid = choice.name
    · by_cases small : id.pid ≤ 1
      · exact .inr (.inl (.inl small))
      · rw [← named, entryPid_entryName small]
        exact .inr (.inr rfl)
    · refine .inl (List.mem_filter.mpr ⟨owes, ?_⟩)
      simpa using named
  · exact .inr (.inl settled)

theorem endDirectory_meets (sound : Sound world) :
    Meets self (issue .endDirectory)
      (fun ended after => Quiet world after ∧ (ended = true → after.owed = [])) world := by
  refine call_meets sound trivial fun choice between quiet ended after answer => ?_
  rw [Call.perform] at answer
  split at answer
  · split at answer
    · rename_i nothing
      cases answer
      exact ⟨quiet, fun _ => nothing⟩
    · cases answer
  · cases answer
    exact ⟨quiet, fun impossible => by cases impossible⟩

/-- A look under one number settles it, in that nothing is left there to note or it is
noted. -/
theorem not_member_of_seen {pid : Int32} {found : Inspection} (sound : Sound world)
    (isChild : world.child = some child) (seen : Seen pid found world)
    (skipped : found = .disappeared ∨ ∃ info, found = .process info ∧
      (info.sid ≠ child.pid ∨ info.state = zombie))
    {id : Identity} (member : id ∈ world.members) : id.pid ≠ pid := by
  rcases (isMember_iff isChild).mp (sound.members id member) with ⟨process, live, same, inSession,
    alive⟩
  rintro rfl
  rcases skipped with rfl | ⟨info, rfl, outside⟩
  · exact Lineage.at?_eq_none seen process live (congrArg Identity.pid same)
  · rcases seen with ⟨other, isLive, _, samePid, rfl⟩
    have equal := sound.eq_of_pid live isLive ((congrArg Identity.pid same).trans samePid.symm)
    rw [equal] at inSession alive
    rcases outside with otherSession | isZombie
    · exact otherSession inSession
    · exact alive isZombie

theorem scanEntries_meets (entries : Nat) :
    ∀ {world : World} {list : List ProcInfo}, Sound world → world.child = some child →
      Covers self child list world → (∀ info ∈ list, Noted child world info) →
      Meets self (scanEntries self child entries list)
        (fun scanned after => Onward world after ∧ ∀ members, scanned = some members →
          (∀ info ∈ members, Noted child after info) ∧
            ∀ id ∈ after.members, Settled self child members id.pid) world := by
  induction entries with
  | zero =>
      intro world list sound isChild covers noted
      refine Ensures.bind (endDirectory_meets sound) fun ended after ⟨quiet, complete⟩ => ?_
      cases ended with
      | false => exact ⟨quiet.toOnward, by simp⟩
      | true =>
          refine ⟨quiet.toOnward, ?_⟩
          rintro members ⟨⟩
          refine ⟨fun info member => (noted info member).mono quiet.toLater, ?_⟩
          intro id member
          rcases covers.mono quiet id member with owes | settled
          · rw [complete rfl] at owes
            cases owes
          · exact settled
  | succ entries induction =>
      intro world list sound isChild covers noted
      refine Ensures.bind (nextEntry_meets sound covers) fun name after ⟨onward, named⟩ => ?_
      have isChildAfter := onward.child.trans isChild
      have notedAfter : ∀ info ∈ list, Noted child after info :=
        fun info member => (noted info member).mono onward.toLater
      have goOn : ∀ {later : World}, Quiet after later → (∀ id ∈ later.members,
          id.pid ∈ later.owed ∨ Settled self child list id.pid) →
          Meets self (scanEntries self child entries list)
            (fun scanned last => Onward world last ∧ ∀ members, scanned = some members →
              (∀ info ∈ members, Noted child last info) ∧
                ∀ id ∈ last.members, Settled self child members id.pid) later := by
        intro later quiet covered
        refine Ensures.mono (induction quiet.sound (quiet.child.trans isChildAfter) covered
          fun info member => (notedAfter info member).mono quiet.toLater) ?_
        intro scanned last result
        exact ⟨(onward.trans quiet.toOnward).trans result.1, result.2⟩
      cases entry : entryPid name with
      | none =>
          refine goOn (Quiet.refl onward.sound) fun id member => ?_
          rcases named id member with owes | settled | isEntry
          · exact .inl owes
          · exact .inr settled
          · rw [entry] at isEntry
            cases isEntry
      | some pid =>
          dsimp only
          split
          · rename_i skipped
            refine goOn (Quiet.refl onward.sound) fun id member => ?_
            rcases named id member with owes | settled | isEntry
            · exact .inl owes
            · exact .inr settled
            · rw [entry] at isEntry
              cases isEntry
              rcases skipped with small | own | leader
              · exact .inr (.inl small)
              · exact .inr (.inr (.inl own))
              · exact .inr (.inr (.inr (.inl leader)))
          · refine Ensures.bind (readProcess_meets onward.sound pid)
              fun found later ⟨quiet, seen⟩ => ?_
            -- What the look says of the members that the entry names.
            have others : ∀ id ∈ later.members, id.pid ≠ pid →
                id.pid ∈ later.owed ∨ Settled self child list id.pid := by
              intro id member different
              rcases named id (quiet.members id member) with owes | settled | isEntry
              · exact .inl (quiet.owed id member owes)
              · exact .inr settled
              · rw [entry] at isEntry
                cases isEntry
                exact absurd rfl different
            have isChildLater := quiet.child.trans isChildAfter
            rcases found with info | _ | _
            · dsimp only
              split
              · rename_i outside
                exact goOn quiet fun id member => others id member
                  (not_member_of_seen quiet.sound isChildLater seen
                    (.inr ⟨info, rfl, outside⟩) member)
              · rename_i inside
                rw [not_or, not_not] at inside
                rcases seen with ⟨process, live, observed, samePid, isInfo⟩
                have newNoted : Noted child later info := by
                  refine ⟨inside.1, ?_⟩
                  have used := quiet.sound.table.used process live
                  change identity process ∈ _ at used
                  rw [identity, samePid] at used
                  rw [isInfo]
                  exact used
                have covered : Covers self child (list ++ [info]) later := by
                  intro id member
                  by_cases isThis : id.pid = pid
                  · refine .inr (.inr (.inr (.inr ⟨info, by simp, ?_⟩)))
                    rw [isInfo, isThis]
                  · rcases others id member isThis with owes | settled
                    · exact .inl owes
                    · exact .inr (settled.append [info])
                refine Ensures.mono (induction quiet.sound isChildLater covered ?_) ?_
                · intro other member
                  rcases List.mem_append.mp member with old | new
                  · exact (notedAfter other old).mono quiet.toLater
                  · rw [List.mem_singleton.mp new]
                    exact newNoted
                · intro scanned last result
                  exact ⟨(onward.trans quiet.toOnward).trans result.1, result.2⟩
            · exact goOn quiet fun id member => others id member
                (not_member_of_seen quiet.sound isChildLater seen (.inl rfl) member)
            · exact ⟨onward.trans quiet.toOnward, by simp⟩

theorem openDirectory_meets (child : Identity) (sound : Sound world) :
    Meets self (issue .openDirectory) (fun opened after => Onward world after ∧
      (opened ≠ none → Covers self child [] after)) world := by
  refine call_meets sound trivial fun choice between quiet opened after answer => ?_
  rw [Call.perform] at answer
  split at answer
  · cases answer
    have isSound : Sound between.openDirectory :=
      { quiet.sound with members := fun id member => List.of_mem_filter member }
    refine ⟨{ quiet.toOnward with sound := isSound }, fun _ => ?_⟩
    intro id member
    rcases List.mem_map.mp (List.mem_of_mem_filter member) with ⟨process, live, same⟩
    refine .inl (List.mem_map.mpr ⟨process, live, ?_⟩)
    rw [← same]
    rfl
  · cases answer
    exact ⟨quiet.toOnward, by simp⟩

/-- Nobody has been a live member of the session ever since the last scan began, apart from
those that a scan does not look at. -/
def Cleared (self : Self) (child : Identity) (world : World) : Prop :=
  ∀ id ∈ world.members, id.pid ≤ 1 ∨ id.pid = self.pid ∨ id.pid = child.pid

theorem Cleared.mono {after : World} (cleared : Cleared self child world)
    (quiet : Quiet world after) : Cleared self child after :=
  fun id member => cleared id (quiet.members id member)

theorem collectMembers_meets (sound : Sound world) (isChild : world.child = some child) :
    Meets self (collectMembers self child) (fun list after => Onward world after ∧
      ∀ members, list = some members → ownSession self child.pid = false ∧
        (∀ info ∈ members, Noted child after info) ∧
          (members = [] → Cleared self child after)) world := by
  rw [collectMembers]
  split_ifs with own
  · exact ⟨Onward.refl sound, by simp⟩
  · refine Ensures.bind (leaderSessionState_meets sound isChild) fun state first ⟨begun, _⟩ => ?_
    rcases state with _ | state
    · exact ⟨begun.toOnward, by simp⟩
    · refine Ensures.bind (openDirectory_meets child begun.sound)
        fun opened second ⟨wide, covers⟩ => ?_
      have isChildSecond := wide.child.trans (begun.child.trans isChild)
      have onward := begun.toOnward.trans wide
      rcases opened with _ | entries
      · exact ⟨onward, by simp⟩
      · refine Ensures.bind (scanEntries_meets entries wide.sound isChildSecond
          (covers (by simp)) (by simp)) fun scanned third ⟨scanOnward, result⟩ => ?_
        refine Ensures.bind (idle_meets scanOnward.sound trivial fun _ _ => rfl)
          fun closed fourth quiet => ?_
        have onwardFourth := (onward.trans scanOnward).trans quiet.toOnward
        rcases scanned with _ | members
        · exact ⟨onwardFourth, by simp⟩
        · dsimp only
          split
          · exact ⟨onwardFourth, by simp⟩
          · have isChildFourth := quiet.child.trans (scanOnward.child.trans isChildSecond)
            refine Ensures.bind (leaderSessionState_meets quiet.sound isChildFourth)
              fun last fifth ⟨ended, _⟩ => ?_
            rcases last with _ | last
            · exact ⟨onwardFourth.trans ended.toOnward, by simp⟩
            · have found := result members rfl
              have later := quiet.trans ended
              refine ⟨onwardFourth.trans ended.toOnward, ?_⟩
              rintro list ⟨⟩
              refine ⟨by simpa using own, fun info member =>
                (found.1 info member).mono later.toLater, ?_⟩
              rintro rfl id member
              rcases found.2 id (later.members id member) with small | isSelf | leader | noted
              · exact .inl small
              · exact .inr (.inl isSelf)
              · exact .inr (.inr leader)
              · simp at noted

theorem sessionBusy_meets (sound : Sound world) (isChild : world.child = some child) :
    Meets self (sessionBusy self child) (fun busy after => Onward world after ∧
      (busy = some false → Cleared self child after)) world := by
  refine Ensures.bind (collectMembers_meets sound isChild) fun list after ⟨onward, found⟩ => ?_
  rcases list with _ | members
  · exact ⟨onward, by simp⟩
  · refine ⟨onward, fun idle => (found members rfl).2.2 ?_⟩
    simpa using idle

end Scans

/-! ## Signals -/

section Signals

variable {self : Self} {child : Identity} {world : World}

/-- The descriptor stands for the process that was seen before and after it was opened. -/
theorem pidfdOpen_meets (sound : Sound world) (pid : Int32) :
    Meets self (issue (.pidfdOpen pid)) (fun opened after => Quiet world after ∧
      ∀ descriptor, opened = .descriptor descriptor → ∃ process ∈ after.table.live,
        process.pid = pid ∧ after.descriptors[descriptor]? = some (identity process)) world := by
  refine call_meets sound trivial fun choice between quiet opened after answer => ?_
  rw [Call.perform] at answer
  split at answer
  · split at answer
    · cases answer
      exact ⟨quiet, by simp⟩
    · rename_i process found
      cases answer
      have place := Lineage.at?_eq_some found
      have used := quiet.sound.table.used process place.1
      have isSound : Sound { between with
          descriptors := between.descriptors ++ [identity process] } :=
        { quiet.sound with
          descriptors := fun id member => by
            rcases List.mem_append.mp member with old | new
            · exact quiet.sound.descriptors id old
            · rw [List.mem_singleton.mp new]
              exact used }
      refine ⟨{ quiet with
        sound := isSound, descriptors := quiet.descriptors.trans (List.prefix_append _ _) }, ?_⟩
      rintro descriptor ⟨⟩
      exact ⟨process, place.1, place.2, List.getElem?_concat_length ..⟩
  · cases answer
    exact ⟨quiet, by simp⟩

theorem signalVerified_meets (sound : Sound world) (isChild : world.child = some child)
    (foreign : Foreign self child) {expected : ProcInfo} (noted : Noted child world expected)
    (signal : Signal) :
    Meets self (signalVerified expected signal) (fun _ after => Onward world after) world := by
  refine Ensures.bind (readProcess_meets sound expected.pid) fun found first ⟨looked, _⟩ => ?_
  rcases found with current | _ | _
  · dsimp only
    split
    · exact looked.toOnward
    · refine Ensures.bind (pidfdOpen_meets looked.sound expected.pid)
        fun opened second ⟨quiet, isOpen⟩ => ?_
      have onwardSecond := looked.toOnward.trans quiet.toOnward
      rcases opened with descriptor | _ | _
      · rcases isOpen descriptor rfl with ⟨holder, holds, holderPid, stands⟩
        refine Ensures.bind (readProcess_meets quiet.sound expected.pid)
          fun again third ⟨lookedAgain, seen⟩ => ?_
        have onwardThird := onwardSecond.trans lookedAgain.toOnward
        rcases again with again | _ | _
        · dsimp only
          split
          · exact onwardThird
          · rename_i matched
            rcases seen with ⟨process, live, observed, samePid, rfl⟩
            simp only [sameProcess, Bool.not_eq_true', Bool.not_eq_false, Bool.and_eq_true,
              beq_iff_eq, bne_iff_ne] at matched
            rcases matched with ⟨⟨⟨⟨_, _⟩, sameSession⟩, sameTime⟩, alive⟩
            have isExpected : identity process = ⟨expected.pid, expected.starttime⟩ := by
              rw [identity, samePid]
              exact congrArg (Identity.mk expected.pid) sameTime.symm
            have isHolder : identity holder = identity process := by
              by_contra different
              rw [isExpected] at different
              have gone := quiet.sound.table.gone_of_other
                (onwardSecond.used _ noted.used) holds holderPid different
              exact (lookedAgain.gone _ gone).2 process live isExpected
            have stillStands : third.descriptors[descriptor]? = some (identity process) := by
              rcases lookedAgain.descriptors with ⟨more, same⟩
              rw [← same, List.getElem?_append_left, stands, isHolder]
              exact (List.getElem?_eq_some_iff.mp stands).1
            have isChildThird := onwardThird.child.trans isChild
            refine Ensures.bind (idle_meets lookedAgain.sound ⟨child, process, isChildThird,
              foreign, observed, stillStands, sameSession.symm.trans noted.session, alive⟩ ?_)
              fun sent fourth quietLast => ?_
            · intro choice between
              rw [Call.perform]
              split
              · split <;> rfl
              · rfl
            · have last := onwardThird.trans quietLast.toOnward
              cases sent <;> exact last
        · exact onwardThird
        · exact onwardThird
      · exact onwardSecond
      · exact onwardSecond
  · exact looked.toOnward
  · exact looked.toOnward

theorem signalAll_meets (foreign : Foreign self child) (signal : Signal) :
    ∀ {list : List ProcInfo} {world : World}, Sound world → world.child = some child →
      (∀ info ∈ list, Noted child world info) →
      Meets self (signalAll signal list) (fun _ after => Onward world after) world := by
  intro list
  induction list with
  | nil => exact fun sound _ _ => Onward.refl sound
  | cons info rest induction =>
      intro world sound isChild noted
      refine Ensures.bind (signalVerified_meets sound isChild foreign
        (noted info List.mem_cons_self) signal) fun sent first onward => ?_
      refine Ensures.bind (induction onward.sound (onward.child.trans isChild) fun other member =>
        (noted other (List.mem_cons_of_mem _ member)).mono onward.toLater)
        fun others second later => ?_
      exact onward.trans later

theorem signalSession_meets (signal : Signal) (sound : Sound world)
    (isChild : world.child = some child) :
    Meets self (signalSession self child signal) (fun _ after => Onward world after) world := by
  rw [signalSession]
  split_ifs with own
  · exact Onward.refl sound
  · have foreign := foreign_of_ownSession (by simpa using own)
    refine Ensures.bind (leaderSessionState_meets sound isChild)
      fun state first ⟨begun, leading⟩ => ?_
    have isChildFirst := begun.child.trans isChild
    rcases state with _ | _ | _
    · exact begun.toOnward
    · refine Ensures.bind (collectMembers_meets begun.sound isChildFirst)
        fun list second ⟨onward, found⟩ => ?_
      rcases list with _ | list
      · exact begun.toOnward.trans onward
      · refine Ensures.mono (signalAll_meets foreign signal onward.sound
          (onward.child.trans isChildFirst) (found list rfl).2.1) ?_
        exact fun _ after last => (begun.toOnward.trans onward).trans last
    · refine Ensures.bind (readProcess_meets begun.sound child.pid)
        fun found second ⟨looked, seen⟩ => ?_
      have isChildSecond := looked.child.trans isChildFirst
      have onwardSecond := begun.toOnward.trans looked.toOnward
      have stillLeading := (leading rfl).mono begun.sound isChildFirst looked.toOnward
      rcases found with info | _ | _
      · have noted : Noted child second info := by
          rcases seen with ⟨process, live, _, samePid, rfl⟩
          rcases looked.sound.alive child isChildSecond stillLeading.unreaped with
            ⟨other, isLive, isChildProcess⟩
          have equal := looked.sound.eq_of_pid live isLive
            (samePid.trans (congrArg Identity.pid isChildProcess).symm)
          rw [← equal] at isChildProcess
          refine ⟨(stillLeading.leads process live isChildProcess).trans samePid, ?_⟩
          have used := looked.sound.table.used process live
          change identity process ∈ _ at used
          rw [identity, samePid] at used
          exact used
        refine Ensures.bind (signalVerified_meets looked.sound isChildSecond foreign noted signal)
          fun sent third onwardThird => ?_
        refine Ensures.bind (collectMembers_meets onwardThird.sound
          (onwardThird.child.trans isChildSecond)) fun list fourth ⟨onward, found⟩ => ?_
        have onwardFourth := (onwardSecond.trans onwardThird).trans onward
        rcases list with _ | list
        · exact onwardFourth
        · refine Ensures.bind (signalAll_meets foreign signal onward.sound
            (onward.child.trans (onwardThird.child.trans isChildSecond)) (found list rfl).2.1)
            fun others last onwardLast => ?_
          exact onwardFourth.trans onwardLast
      · exact onwardSecond
      · exact onwardSecond

end Signals

/-! ## The end of a session -/

section Endings

variable {self : Self} {child : Identity} {world : World}

theorem pollSession_meets (polls : Nat) :
    ∀ {world : World}, Sound world → world.child = some child →
      Meets self (pollSession self child polls) (fun empty after => Onward world after ∧
        (empty = some true → Cleared self child after)) world := by
  induction polls with
  | zero => exact fun sound _ => ⟨Onward.refl sound, by simp⟩
  | succ polls induction =>
      intro world sound isChild
      refine Ensures.bind (sessionBusy_meets sound isChild) fun busy first ⟨onward, idle⟩ => ?_
      rcases busy with _ | _ | _
      · exact ⟨onward, by simp⟩
      · exact ⟨onward, fun _ => idle rfl⟩
      · refine Ensures.bind (idle_meets onward.sound trivial fun _ _ => rfl)
          fun _ second quiet => ?_
        refine Ensures.mono (induction quiet.sound
          (quiet.child.trans (onward.child.trans isChild))) ?_
        exact fun empty last result =>
          ⟨(onward.trans quiet.toOnward).trans result.1, result.2⟩

theorem reapSession_meets (sound : Sound world) (isChild : world.child = some child) :
    Meets self (reapSession self child) (fun reaped after => Onward world after ∧
      (reaped = true → Cleared self child after)) world := by
  refine Ensures.bind (sessionBusy_meets sound isChild) fun busy first ⟨onward, idle⟩ => ?_
  have isChildFirst := onward.child.trans isChild
  rcases busy with _ | _ | _
  · exact ⟨onward, by simp⟩
  · exact ⟨onward, fun _ => idle rfl⟩
  · refine Ensures.bind (signalSession_meets .term onward.sound isChildFirst)
      fun termed second later => ?_
    have onwardSecond := onward.trans later
    have isChildSecond := later.child.trans isChildFirst
    cases termed with
    | false => exact ⟨onwardSecond, by simp⟩
    | true =>
        refine Ensures.bind (pollSession_meets termPolls later.sound isChildSecond)
          fun empty third ⟨polled, cleared⟩ => ?_
        have onwardThird := onwardSecond.trans polled
        have isChildThird := polled.child.trans isChildSecond
        rcases empty with _ | _ | _
        · exact ⟨onwardThird, by simp⟩
        · refine Ensures.bind (signalSession_meets .kill polled.sound isChildThird)
            fun killed fourth last => ?_
          have onwardFourth := onwardThird.trans last
          cases killed with
          | false => exact ⟨onwardFourth, by simp⟩
          | true =>
              refine Ensures.bind (pollSession_meets killPolls last.sound
                (last.child.trans isChildThird)) fun empty fifth ⟨polled, cleared⟩ => ?_
              have onwardFifth := onwardFourth.trans polled
              rcases empty with _ | _ | _
              · exact ⟨onwardFifth, by simp⟩
              · exact ⟨onwardFifth, by simp⟩
              · exact ⟨onwardFifth, fun _ => cleared rfl⟩
        · exact ⟨onwardThird, fun _ => cleared rfl⟩

/-- Once the child has been waited for, its number is free. -/
theorem reap_later (sound : Sound world) (isChild : world.child = some child) :
    Later world world.reap := by
  have table : world.reap.table = lineage.change world.table (.vanish child.pid) := by
    rw [World.reap, isChild]
    rfl
  refine { sound := ?_, child := rfl, started := rfl, used := ?_, gone := ?_, leads := ?_,
           descriptors := List.prefix_rfl }
  · refine { table := ?_, descriptors := ?_, members := ?_, noted := ?_, alive := ?_, gone := ?_ }
    · rw [table]
      exact Lineage.change_ok sound.table _
    · intro id member
      rw [table]
      exact Lineage.change_used _ (sound.descriptors id member)
    · exact fun id member => List.of_mem_filter member
    · intro other isOther
      rw [table]
      exact Lineage.change_used _ (sound.noted other isOther)
    · intro other _ unreaped
      cases unreaped
    · intro other isOther _
      have same : other = child := Option.some.inj (isOther.symm.trans isChild)
      rw [table, same]
      refine ⟨Lineage.change_used _ (sound.noted child isChild), ?_⟩
      intro process member isProcess
      have remains := List.of_mem_filter member
      rw [bne_iff_ne] at remains
      exact remains (congrArg Identity.pid isProcess)
  · intro id noted
    rw [table]
    exact Lineage.change_used _ noted
  · intro id gone
    rw [table]
    exact Lineage.change_gone _ gone
  · intro id noted leads
    rw [table]
    exact lineage_leads noted leads _

theorem wait_meets (sound : Sound world) (isChild : world.child = some child) :
    Meets self (issue .wait) (fun answer after => Later world after ∧
      ((∃ status, answer = .exited status) → after.reaped = true) ∧
      (answer = .noChild → world.reaped = true) ∧
      (answer = .nothing ∨ answer = .interrupted → after.reaped = world.reaped)) world := by
  refine call_meets sound trivial fun choice between quiet answer after performed => ?_
  have isChildBetween := quiet.child.trans isChild
  rw [Call.perform] at performed
  split at performed
  · rename_i reaped
    cases performed
    exact ⟨quiet.toLater, by simp, fun _ => quiet.reaped.symm.trans reaped, by simp⟩
  · have reap := quiet.toLater.trans (reap_later quiet.sound isChildBetween)
    split at performed
    · cases performed
      exact ⟨reap, fun _ => rfl, by simp, by simp⟩
    · cases performed
    · cases performed
      exact ⟨quiet.toLater, by simp, by simp, fun _ => quiet.reaped⟩
    · cases performed
      exact ⟨quiet.toLater, by simp, by simp, fun _ => quiet.reaped⟩

/-- What `wait_child_bounded` says of the child. -/
structure WaitedFor (before : World) (waited : Waited) (after : World) : Prop
    extends Later before after where
  reaped : ∀ status, waited = .done status → after.reaped = true
  pending : waited = .pending → after.reaped = before.reaped
  failed : waited = .failed → before.reaped = true

theorem waitChildBounded_meets (polls : Nat) :
    ∀ {world : World}, Sound world → world.child = some child →
      Meets self (waitChildBounded polls) (WaitedFor world) world := by
  induction polls with
  | zero => exact fun sound _ => ⟨Later.refl sound, by simp, fun _ => rfl, by simp⟩
  | succ polls induction =>
      intro world sound isChild
      refine Ensures.bind (wait_meets sound isChild)
        fun answer first ⟨later, exited, noChild, unchanged⟩ => ?_
      have isChildFirst := later.child.trans isChild
      rcases answer with status | _ | _ | _
      · exact ⟨later, fun _ _ => exited ⟨status, rfl⟩, by simp, by simp⟩
      · refine Ensures.bind (idle_meets later.sound trivial fun _ _ => rfl)
          fun _ second quiet => ?_
        refine Ensures.mono (induction quiet.sound (quiet.child.trans isChildFirst)) ?_
        intro waited last result
        have same := quiet.reaped.trans (unchanged (.inl rfl))
        exact ⟨(later.trans quiet.toLater).trans result.toLater, result.reaped,
          fun still => (result.pending still).trans same,
          fun failed => same.symm.trans (result.failed failed)⟩
      · refine Ensures.mono (induction later.sound isChildFirst) ?_
        intro waited last result
        have same := unchanged (.inr rfl)
        exact ⟨later.trans result.toLater, result.reaped,
          fun still => (result.pending still).trans same,
          fun failed => same.symm.trans (result.failed failed)⟩
      · exact ⟨later, by simp, by simp, fun _ => noChild rfl⟩

theorem kill_meets (signal : Signal) (sound : Sound world) (isChild : world.child = some child)
    (unreaped : world.reaped = false) :
    Meets self (issue (.kill child.pid signal)) (fun _ after => Quiet world after) world :=
  idle_meets sound ⟨child, isChild, rfl, unreaped⟩ fun _ _ => rfl

theorem stopChildBounded_meets (sound : Sound world) (isChild : world.child = some child)
    (unreaped : world.reaped = false) :
    Meets self (stopChildBounded child.pid) (fun stopped after => Later world after ∧
      (stopped = true → after.reaped = true)) world := by
  refine Ensures.bind (kill_meets .term sound isChild unreaped) fun sent first quiet => ?_
  have isChildFirst := quiet.child.trans isChild
  cases sent with
  | false => exact ⟨quiet.toLater, by simp⟩
  | true =>
      refine Ensures.bind (waitChildBounded_meets termPolls quiet.sound isChildFirst)
        fun waited second result => ?_
      have later := quiet.toLater.trans result.toLater
      have isChildSecond := result.child.trans isChildFirst
      rcases waited with status | _ | _
      · exact ⟨later, fun _ => result.reaped status rfl⟩
      · have stillUnreaped := (result.pending rfl).trans (quiet.reaped.trans unreaped)
        refine Ensures.bind (kill_meets .kill result.sound isChildSecond stillUnreaped)
          fun sent third quietThird => ?_
        have laterThird := later.trans quietThird.toLater
        cases sent with
        | false => exact ⟨laterThird, by simp⟩
        | true =>
            refine Ensures.bind (waitChildBounded_meets killPolls quietThird.sound
              (quietThird.child.trans isChildSecond)) fun waited fourth last => ?_
            have laterFourth := laterThird.trans last.toLater
            rcases waited with status | _ | _
            · exact ⟨laterFourth, fun _ => last.reaped status rfl⟩
            · exact ⟨laterFourth, by simp⟩
            · exact ⟨laterFourth, by simp⟩
      · exact ⟨later, by simp⟩

/-- The child has been waited for, and its session is empty. -/
def Ended (self : Self) (child : Identity) (world : World) : Prop :=
  world.reaped = true ∧ Cleared self child world

theorem stopSessionBounded_meets (sound : Sound world) (isChild : world.child = some child)
    (unreaped : world.reaped = false) :
    Meets self (stopSessionBounded self child) (fun stopped after => Later world after ∧
      (stopped = true → Ended self child after)) world := by
  have reap : ∀ {between : World} {waited : Waited}, WaitedFor world waited between →
      Meets self (stopSessionBounded.reapWaited self child waited) (fun stopped after =>
        Later world after ∧ (stopped = true → Ended self child after)) between := by
    intro between waited result
    rcases waited with status | _ | _
    · refine Ensures.mono (reapSession_meets result.sound (result.child.trans isChild)) ?_
      intro stopped after ⟨onward, cleared⟩
      exact ⟨result.toLater.trans onward.toLater,
        fun success => ⟨onward.reaped.trans (result.reaped status rfl), cleared success⟩⟩
    · exact ⟨result.toLater, by simp⟩
    · exact ⟨result.toLater, by simp⟩
  refine Ensures.bind (signalSession_meets .term sound isChild) fun _ first onward => ?_
  have isChildFirst := onward.child.trans isChild
  refine Ensures.bind (waitChildBounded_meets termPolls onward.sound isChildFirst)
    fun waited second result => ?_
  have isChildSecond := result.child.trans isChildFirst
  have later := onward.toLater.trans result.toLater
  rcases waited with status | _ | _
  · exact reap ⟨later, result.reaped, by simp, by simp⟩
  · have stillUnreaped := (result.pending rfl).trans (onward.reaped.trans unreaped)
    have again : Meets self (do
        let _ ← signalSession self child .kill
        let _ ← issue (.kill child.pid .kill)
        waitChildBounded killPolls) (WaitedFor world) second := by
      refine Ensures.bind (signalSession_meets .kill result.sound isChildSecond)
        fun _ third onwardThird => ?_
      have isChildThird := onwardThird.child.trans isChildSecond
      refine Ensures.bind (kill_meets .kill onwardThird.sound isChildThird
        (onwardThird.reaped.trans stillUnreaped)) fun _ fourth quiet => ?_
      refine Ensures.mono (waitChildBounded_meets killPolls quiet.sound
        (quiet.child.trans isChildThird)) fun waited last wait => ?_
      refine ⟨((later.trans onwardThird.toLater).trans quiet.toLater).trans wait.toLater,
        wait.reaped, fun still => ?_, fun failed => ?_⟩
      · rw [wait.pending still, quiet.reaped, onwardThird.reaped, stillUnreaped, unreaped]
      · rw [unreaped, ← stillUnreaped, ← onwardThird.reaped, ← quiet.reaped]
        exact wait.failed failed
    exact Ensures.bind again fun waited last wait => reap wait
  · have failed : WaitedFor world .failed second :=
      ⟨later, by simp, by simp, fun _ => onward.reaped.symm.trans (result.failed rfl)⟩
    exact reap failed

/-! ## The program -/

/-- How the loop ends: with 125, or when everything is over. -/
def Leaves (self : Self) (child : Identity) (before : World) (code : Option Nat)
    (after : World) : Prop :=
  Later before after ∧ ∀ status, code = some status → status ≠ cleanupFailed →
    Ended self child after

theorem childStatus_ne (status : Int32) : childStatus status ≠ cleanupFailed := by
  rw [childStatus]
  split_ifs with exited failed stopped
  · decide
  · exact failed
  · decide
  · rw [cleanupFailed]
    omega

theorem superviseLoop_meets (rounds : Nat) :
    ∀ {world : World}, Sound world → world.child = some child → world.reaped = false →
      Meets self (superviseLoop self child rounds) (Leaves self child world) world := by
  induction rounds with
  | zero => exact fun sound _ _ => ⟨Later.refl sound, by simp⟩
  | succ rounds induction =>
      intro world sound isChild unreaped
      refine Ensures.bind (idle_meets sound trivial fun _ _ => rfl) fun requested first quiet => ?_
      have isChildFirst := quiet.child.trans isChild
      have unreapedFirst := quiet.reaped.trans unreaped
      cases requested with
      | true =>
          refine Ensures.bind (stopSessionBounded_meets quiet.sound isChildFirst unreapedFirst)
            fun stopped second ⟨later, ended⟩ => ?_
          have laterSecond := quiet.toLater.trans later
          cases stopped with
          | true => exact ⟨laterSecond, fun _ _ _ => ended rfl⟩
          | false =>
              refine ⟨laterSecond, ?_⟩
              rintro status ⟨⟩ other
              exact absurd rfl other
      | false =>
          refine Ensures.bind (wait_meets quiet.sound isChildFirst)
            fun answer second ⟨later, exited, noChild, unchanged⟩ => ?_
          have isChildSecond := later.child.trans isChildFirst
          have laterSecond := quiet.toLater.trans later
          have finish : ∀ status : Int32, second.reaped = true → Meets self (do
              if ← reapSession self child then return some (childStatus status)
              else return some cleanupFailed) (Leaves self child world) second := by
            intro status reaped
            refine Ensures.bind (reapSession_meets later.sound isChildSecond)
              fun success last ⟨onward, cleared⟩ => ?_
            have laterLast := laterSecond.trans onward.toLater
            cases success with
            | true => exact ⟨laterLast, fun _ _ _ => ⟨onward.reaped.trans reaped, cleared rfl⟩⟩
            | false =>
                refine ⟨laterLast, ?_⟩
                rintro status ⟨⟩ other
                exact absurd rfl other
          have again : second.reaped = first.reaped →
              Meets self (superviseLoop self child rounds) (Leaves self child world) second := by
            intro same
            refine Ensures.mono (induction later.sound isChildSecond
              (same.trans unreapedFirst)) ?_
            exact fun code last result => ⟨laterSecond.trans result.1, result.2⟩
          rcases answer with status | _ | _ | _
          · exact finish status (exited ⟨status, rfl⟩)
          · exact again (unchanged (.inl rfl))
          · exact again (unchanged (.inr rfl))
          · have reaped := noChild rfl
            rw [unreapedFirst] at reaped
            cases reaped

theorem unreported_meets (sound : Sound world) (isChild : world.child = some child)
    (unreaped : world.reaped = false) :
    Meets self (main.unreported self child) (Leaves self child world) world := by
  refine Ensures.bind (stopSessionBounded_meets sound isChild unreaped)
    fun stopped after ⟨later, ended⟩ => ?_
  cases stopped with
  | true => exact ⟨later, fun _ _ _ => ended rfl⟩
  | false =>
      refine ⟨later, ?_⟩
      rintro status ⟨⟩ other
      exact absurd rfl other

theorem handshakeFailed_meets (sound : Sound world) (isChild : world.child = some child)
    (unreaped : world.reaped = false) :
    Meets self (main.handshakeFailed child.pid) (fun code after => Later world after ∧
      ∀ status, code = some status → status ≠ cleanupFailed → after.reaped = true) world := by
  refine Ensures.bind (waitChildBounded_meets 1 sound isChild) fun waited first result => ?_
  have isChildFirst := result.child.trans isChild
  rcases waited with status | _ | _
  · exact ⟨result.toLater, fun _ _ _ => result.reaped status rfl⟩
  · refine Ensures.bind (stopChildBounded_meets result.sound isChildFirst
      ((result.pending rfl).trans unreaped)) fun stopped second ⟨later, reaped⟩ => ?_
    have laterSecond := result.toLater.trans later
    cases stopped with
    | true => exact ⟨laterSecond, fun _ _ _ => reaped rfl⟩
    | false =>
        refine ⟨laterSecond, ?_⟩
        rintro status ⟨⟩ other
        exact absurd rfl other
  · have reaped := result.failed rfl
    rw [unreaped] at reaped
    cases reaped

end Endings

/-- The world before the supervisor has a child. -/
structure Fresh (world : World) : Prop where
  table : lineage.Ok world.table
  child : world.child = none
  started : world.started = false
  descriptors : world.descriptors = []
  members : world.members = []

theorem Fresh.sound {world : World} (fresh : Fresh world) : Sound world where
  table := fresh.table
  descriptors := by simp [fresh.descriptors]
  members := by simp [fresh.members]
  noted := by simp [fresh.child]
  alive := by simp [fresh.child]
  gone := by simp [fresh.child]

/-- What an ending other than 125 leaves: there was no child, or it has been waited for; and
when the child had started, its session is empty. -/
def Resolved (self : Self) (world : World) : Prop :=
  world.child = none ∨ ∃ child, world.child = some child ∧ world.reaped = true ∧
    (world.started = true → Cleared self child world)

theorem fork_meets {self : Self} {world : World} (sound : Sound world)
    (noChild : world.child = none) :
    Meets self (issue .fork) (fun forked after => Sound after ∧
      after.started = world.started ∧ match forked with
        | none => after.child = none
        | some pid => ∃ child, after.child = some child ∧ child.pid = pid ∧
            after.reaped = false) world := by
  refine call_meets sound trivial fun choice between quiet forked after answer => ?_
  rw [Call.perform] at answer
  split at answer
  · cases answer
    exact ⟨quiet.sound, quiet.started, quiet.child.trans noChild⟩
  · rename_i process isProcess
    split at answer
    · rename_i free
      cases answer
      have appears : lineage.change between.table (.appear process) =
          { live := process :: between.table.live
            used := identity process :: between.table.used } := by
        rw [Lineage.change]
        exact if_pos ⟨free.2.1, free.2.2⟩
      have noMembers : between.members = [] := by
        rw [List.eq_nil_iff_forall_not_mem]
        intro id member
        have isMember := quiet.sound.members id member
        rw [World.isMember, free.1] at isMember
        cases isMember
      refine ⟨?_, quiet.started, identity process, rfl, rfl, rfl⟩
      refine { table := ?_, descriptors := ?_, members := ?_, noted := ?_, alive := ?_,
               gone := ?_ }
      · change lineage.Ok (lineage.change between.table (.appear process))
        exact Lineage.change_ok quiet.sound.table _
      · change ∀ id ∈ between.descriptors,
          id ∈ (lineage.change between.table (.appear process)).used
        exact fun id member => Lineage.change_used _ (quiet.sound.descriptors id member)
      · intro id member
        change id ∈ between.members at member
        rw [noMembers] at member
        cases member
      · rintro child ⟨⟩
        change identity process ∈ (lineage.change between.table (.appear process)).used
        rw [appears]
        exact List.mem_cons_self
      · rintro child ⟨⟩ _
        change ∃ other ∈ (lineage.change between.table (.appear process)).live, _
        rw [appears]
        exact ⟨process, List.mem_cons_self, rfl⟩
      · rintro child _ reaped
        cases reaped
    · cases answer

theorem identityOf_meets {self : Self} {world : World} {child : Identity} (sound : Sound world)
    (isChild : world.child = some child) (unreaped : world.reaped = false) :
    Meets self (issue .identityOf) (fun starttime after => Sound after ∧
      after.child = some child ∧ after.reaped = false ∧ match starttime with
        | none => after.started = world.started
        | some starttime => child.starttime = starttime ∧ after.started = (starttime != 0))
      world := by
  refine call_meets sound trivial fun choice between quiet starttime after answer => ?_
  have isChildBetween := quiet.child.trans isChild
  have unreapedBetween := quiet.reaped.trans unreaped
  rw [Call.perform] at answer
  split at answer
  · have asked : (between.child.bind fun child => between.at? child.pid) =
        between.at? child.pid := by
      rw [isChildBetween]
      rfl
    rw [asked] at answer
    split at answer
    · cases answer
    · rename_i process found
      split at answer
      · cases answer
        have place := Lineage.at?_eq_some found
        rcases quiet.sound.alive child isChildBetween unreapedBetween with ⟨other, live, same⟩
        have equal := quiet.sound.eq_of_pid place.1 live
          (place.2.trans (congrArg Identity.pid same).symm)
        rw [← equal] at same
        exact ⟨{ quiet.sound with }, isChildBetween, unreapedBetween,
          (congrArg Identity.starttime same).symm, rfl⟩
      · cases answer
  · cases answer
    exact ⟨quiet.sound, isChildBetween, unreapedBetween, quiet.started⟩

theorem main_meets (self : Self) (rounds : Nat) {world : World} (fresh : Fresh world) :
    Meets self (main self rounds) (fun code after => ∀ status, code = some status →
      status ≠ cleanupFailed → Resolved self after) world := by
  refine Ensures.bind (idle_meets fresh.sound trivial fun _ _ => rfl) fun piped first quiet => ?_
  have noChildFirst := quiet.child.trans fresh.child
  cases piped with
  | false => exact fun _ _ _ => .inl noChildFirst
  | true =>
      refine Ensures.bind (idle_meets quiet.sound trivial fun _ _ => rfl)
        fun piped second quietSecond => ?_
      have noChildSecond := quietSecond.child.trans noChildFirst
      cases piped with
      | false => exact fun _ _ _ => .inl noChildSecond
      | true =>
          refine Ensures.bind (fork_meets quietSecond.sound noChildSecond)
            fun forked third ⟨sound, started, isForked⟩ => ?_
          rcases forked with _ | pid
          · exact fun _ _ _ => .inl isForked
          · rcases isForked with ⟨child, isChild, rfl, unreaped⟩
            have startedThird : third.started = false :=
              started.trans (quietSecond.started.trans (quiet.started.trans fresh.started))
            refine Ensures.bind (identityOf_meets sound isChild unreaped)
              fun starttime fourth ⟨sound, isChild, unreaped, isStarted⟩ => ?_
            -- Before the child has started, it is enough to have waited for it.
            have fails : fourth.started = false → Meets self (main.handshakeFailed child.pid)
                (fun code after => ∀ status, code = some status → status ≠ cleanupFailed →
                  Resolved self after) fourth := by
              intro unstarted
              refine Ensures.mono (handshakeFailed_meets sound isChild unreaped) ?_
              intro code after ⟨later, reaped⟩ status isCode other
              refine .inr ⟨child, later.child.trans isChild, reaped status isCode other, ?_⟩
              rw [later.started, unstarted]
              intro impossible
              cases impossible
            have leaves : ∀ {between : World}, between.child = some child → ∀ code after,
                Leaves self child between code after → ∀ status, code = some status →
                  status ≠ cleanupFailed → Resolved self after := by
              intro between isChild code after ⟨later, ended⟩ status isCode other
              have endedHere := ended status isCode other
              exact .inr ⟨child, later.child.trans isChild, endedHere.1, fun _ => endedHere.2⟩
            have unreported : ∀ {between : World}, Quiet fourth between →
                Meets self (main.unreported self child) (fun code after => ∀ status,
                  code = some status → status ≠ cleanupFailed → Resolved self after) between := by
              intro between quiet
              have isChildBetween := quiet.child.trans isChild
              exact Ensures.mono (unreported_meets quiet.sound isChildBetween
                (quiet.reaped.trans unreaped)) (leaves isChildBetween)
            rcases starttime with _ | starttime
            · exact fails (isStarted.trans startedThird)
            · dsimp only
              split
              · rename_i zero
                refine fails ?_
                rw [isStarted.2, zero]
                rfl
              · rw [← isStarted.1]
                refine Ensures.bind (idle_meets sound trivial fun _ _ => rfl)
                  fun own fifth quiet => ?_
                rcases own with _ | own
                · exact unreported quiet
                · refine Ensures.bind (idle_meets quiet.sound trivial fun _ _ => rfl)
                    fun written sixth quietSixth => ?_
                  have quietSoFar := quiet.trans quietSixth
                  cases written with
                  | false => exact unreported quietSoFar
                  | true =>
                      refine Ensures.bind (idle_meets quietSixth.sound trivial fun _ _ => rfl)
                        fun released seventh quietSeventh => ?_
                      have quietSeventh := quietSoFar.trans quietSeventh
                      cases released with
                      | false =>
                          refine Ensures.bind (idle_meets quietSeventh.sound trivial
                            fun _ _ => rfl) fun _ last quietLast => ?_
                          exact unreported (quietSeventh.trans quietLast)
                      | true =>
                          have isChildSeventh := quietSeventh.child.trans isChild
                          exact Ensures.mono (superviseLoop_meets rounds quietSeventh.sound
                            isChildSeventh (quietSeventh.reaped.trans unreaped))
                            (leaves isChildSeventh)

/-- Whatever the processes of the system do between two calls of the supervisor: every
signal through a process descriptor goes to a process that the look just before has found
alive and in the session of the child, which is no session of the supervisor; every plain
`kill` goes to the child while nobody has waited for it; a status other than 125 means that
there was no child or it has been waited for, and that nobody has been a live member of its
session since the last scan began; and no status of the pak itself is passed on as 125. -/
theorem supervisor_safe (self : Self) (rounds : Nat) (choices : List Choice) (start : World)
    (fresh : Fresh start) :
    (∀ entry ∈ (main self rounds).issued machine choices start,
      Targeted self entry.1 entry.2) ∧
    (∀ status after, (main self rounds).exec machine choices start =
      (.done (some status), after) → status ≠ cleanupFailed → Resolved self after) ∧
    ∀ status, childStatus status ≠ cleanupFailed := by
  have runs := (main_meets self rounds fresh).exec choices fun _ _ => trivial
  refine ⟨runs.1, fun status after ends other => ?_, childStatus_ne⟩
  have meets := runs.2
  rw [ends] at meets
  exact meets status rfl other

/-! ### A run -/

def sampleProcess (pid session : Int32) (ended : Bool) : Process where
  pid := pid
  comm := [0x73, 0x68]
  state := if ended then zombie else 0x53
  ppid := 100
  pgrp := session
  session := session
  ttyNr := 0
  tpgid := -1
  flags := 0
  minflt := 0
  cminflt := 0
  majflt := 0
  cmajflt := 0
  utime := 0
  stime := 0
  cutime := 0
  cstime := 0
  priority := 20
  nice := 0
  numThreads := 1
  itrealvalue := 0
  starttime := 7
  later := []
  commText := by decide
  commLength := by decide
  stateLetter := by cases ended <;> decide

def sampleSelf : Self where
  pid := 100
  session := 100
  group := 100

def sampleStart : World where
  table := { live := [], used := [] }
  child := none
  reaped := false
  started := false
  owed := []
  members := []
  descriptors := []
  observed := none

/-- A call that succeeds after some changes. -/
def sampleChoice (changes : List TableChange) : Choice where
  changes := changes
  succeeds := true
  process := some (sampleProcess 200 100 false)
  entries := 1
  name := entryName 300
  time := 1
  wait := .exited 0

/-- The pak forks a process and exits. That process is found in the session, gets the
signal and is gone at the next scan. -/
def sampleChoices : List Choice :=
  [sampleChoice [], sampleChoice [], sampleChoice [],
    sampleChoice [.become (sampleProcess 200 200 false)],
    sampleChoice [], sampleChoice [], sampleChoice [],
    { sampleChoice [] with succeeds := false },
    sampleChoice [.appear (sampleProcess 300 200 false), .become (sampleProcess 200 200 true)]]
    ++ List.replicate 19 (sampleChoice [])
    ++ [sampleChoice [.vanish 300]]
    ++ List.replicate 12 (sampleChoice [])

theorem supervisor_ends_session :
    (∀ entry ∈ (main sampleSelf 3).issued machine sampleChoices sampleStart,
      Targeted sampleSelf entry.1 entry.2) ∧
    Resolved sampleSelf ((main sampleSelf 3).exec machine sampleChoices sampleStart).2 := by
  have fresh : Fresh sampleStart := ⟨⟨List.nodup_nil, by simp [sampleStart]⟩, rfl, rfl, rfl, rfl⟩
  have safe := supervisor_safe sampleSelf 3 sampleChoices sampleStart fresh
  have ends : ((main sampleSelf 3).exec machine sampleChoices sampleStart).1 =
      .done (some 0) := by decide +kernel
  exact ⟨safe.1, safe.2.1 0 _ (Prod.ext ends rfl) (by decide)⟩

end Zlyme.Pak.Spawn
