import Zlyme.Foundation.Interleaving

/-! # The lock of the clock service

`start`, `kick` and `reopen` of `S49ntp` share a lock directory that holds the pid of
its owner. A waiter that finds the owner dead removes the directory and tries again;
it reads, judges and removes in three separate operations.
-/

namespace Zlyme.Ntp

open Foundation Foundation.Execution Foundation.Threads

/-! ## The files -/

inductive Mode
  | start
  | reopen
  deriving DecidableEq

/-- `zlyme-ntp.lock` -/
structure LockDir (Id : Type) where
  /-- Whose `mkdir` it was. -/
  maker : Id
  /-- The file `pid` in it. -/
  pid : Option Id
  deriving DecidableEq

structure Shared (Id : Type) where
  lock : Option (LockDir Id)
  /-- `zlyme-ntpd.pid` -/
  pidFile : Option Nat
  /-- The clients that are alive. -/
  clients : List Nat
  /-- The next pid of a client. -/
  fresh : Nat
  /-- The callers that are gone. -/
  dead : List Id
  deriving DecidableEq

/-! ## One caller -/

/-- The next operation of a caller. -/
inductive Phase (Id : Type)
  | idle
  /-- `mkdir`, with the number of those that have failed. -/
  | making (mode : Mode) (tries : Nat)
  /-- `tr < "$(lock_dir)/pid"` -/
  | reading (mode : Mode) (tries : Nat)
  /-- `kill -0 "$holder"`, or how long the waiter has waited. -/
  | judging (mode : Mode) (tries : Nat) (holder : Option Id)
  /-- `rm -rf "$(lock_dir)"` of a waiter. -/
  | removing (mode : Mode) (tries : Nat)
  /-- `printf` into the lock directory. -/
  | publishing (mode : Mode)
  /-- The pid file, as `stop_pid` reads it. -/
  | stopping (routed : Bool)
  /-- `rm -f "$f"` -/
  | forgetting (routed : Bool) (client : Nat)
  /-- `kill "$pid"` -/
  | killing (routed : Bool) (client : Nat)
  /-- `wait_route` and `bootstrap` -/
  | routing
  /-- The pid file, as `pid_alive` reads it, for the first or the second time. -/
  | looking (again : Bool)
  /-- `kill -0 "$pid"` -/
  | probing (again : Bool) (client : Nat)
  | launching
  /-- `echo $! > "$(ntpd_pid)"` -/
  | recording (client : Nat)
  | releasing
  | gone
  deriving DecidableEq

structure Caller (Id : Type) where
  self : Id
  phase : Phase Id
  deriving DecidableEq

inductive Choice
  | call (mode : Mode)
  | proceed
  /-- There is no route, or no `ntpd`, or the pid cannot be written. -/
  | fails
  /-- `INT` or `TERM`. -/
  | term
  /-- The caller is killed. -/
  | die
  /-- A client ends by itself. -/
  | clientEnds (client : Nat)
  deriving DecidableEq

/-- `owned=1`: the trap releases the lock. -/
def Phase.owned {Id : Type} : Phase Id → Bool
  | .stopping _ | .forgetting .. | .killing .. | .routing | .looking _ => true
  | .probing .. | .launching | .recording _ | .releasing => true
  | _ => false

variable {Id : Type}

def Caller.goTo (caller : Caller Id) (phase : Phase Id) : Caller Id :=
  { caller with phase := phase }

def Caller.exit (caller : Caller Id) (shared : Shared Id) : Caller Id × Shared Id :=
  (caller.goTo .gone, { shared with dead := caller.self :: shared.dead })

/-- What is next when `stop_pid` is through. -/
def afterStop (routed : Bool) : Phase Id :=
  if routed then .releasing else .routing

/-- What is next when `pid_alive` has found no client. -/
def afterLook (again : Bool) : Phase Id :=
  if again then .launching else .looking true

variable [DecidableEq Id]

def act : Act (Caller Id) Choice (Shared Id) := fun caller choice shared =>
  match caller.phase, choice with
  | _, .clientEnds client => some (caller, { shared with clients := shared.clients.erase client })
  | .gone, _ => none
  | .idle, .call mode => some (caller.goTo (.making mode 0), shared)
  | .idle, _ => none
  | _, .die => some (caller.exit shared)
  | phase, .term =>
      if phase.owned then some (caller.goTo .releasing, shared) else some (caller.exit shared)
  | .making mode tries, .proceed =>
      match shared.lock with
      | none => some (caller.goTo (.publishing mode),
          { shared with lock := some ⟨caller.self, none⟩ })
      | some _ =>
          if tries + 1 ≥ 2000 then some (caller.exit shared)
          else some (caller.goTo (.reading mode (tries + 1)), shared)
  | .reading mode tries, .proceed =>
      some (caller.goTo (.judging mode tries (shared.lock.bind LockDir.pid)), shared)
  -- An empty pid after a couple of seconds is a leaked lock.
  | .judging mode tries none, .proceed =>
      if tries ≥ 40 then some (caller.goTo (.removing mode tries), shared)
      else some (caller.goTo (.making mode tries), shared)
  | .judging mode tries (some holder), .proceed =>
      if holder ∈ shared.dead then some (caller.goTo (.removing mode tries), shared)
      else some (caller.goTo (.making mode tries), shared)
  | .removing mode tries, .proceed =>
      some (caller.goTo (.making mode tries), { shared with lock := none })
  | .publishing mode, .proceed =>
      match shared.lock with
      | some dir => some (caller.goTo (if mode = .reopen then .stopping false else .routing),
          { shared with lock := some { dir with pid := some caller.self } })
      | none => some (caller.goTo .releasing, shared)
  | .publishing _, .fails => some (caller.goTo .releasing, shared)
  | .stopping routed, .proceed =>
      match shared.pidFile with
      | some client => some (caller.goTo (.forgetting routed client), shared)
      | none => some (caller.goTo (afterStop routed), shared)
  | .forgetting routed client, .proceed =>
      some (caller.goTo (.killing routed client), { shared with pidFile := none })
  | .killing routed client, .proceed =>
      some (caller.goTo (afterStop routed), { shared with clients := shared.clients.erase client })
  | .routing, .fails => some (caller.goTo (.stopping true), shared)
  | .routing, .proceed => some (caller.goTo (.looking false), shared)
  -- There is no ntpd to start.
  | .looking false, .fails => some (caller.goTo .releasing, shared)
  | .looking again, .proceed =>
      match shared.pidFile with
      | some client => some (caller.goTo (.probing again client), shared)
      | none => some (caller.goTo (afterLook again), shared)
  | .probing again client, .proceed =>
      if client ∈ shared.clients then some (caller.goTo .releasing, shared)
      else some (caller.goTo (afterLook again), shared)
  | .launching, .proceed =>
      some (caller.goTo (.recording shared.fresh),
        { shared with clients := shared.fresh :: shared.clients, fresh := shared.fresh + 1 })
  | .recording client, .proceed =>
      some (caller.goTo .releasing, { shared with pidFile := some client })
  | .releasing, .proceed => some (caller.exit { shared with lock := none })
  | _, _ => none

/-- It has made the lock directory and has not yet released it. -/
def Phase.Holds : Phase Id → Prop
  | .publishing _ => True
  | phase => phase.owned = true

/-- A client is alive that no file tells of, or was when the phase began. -/
def Phase.Midway : Phase Id → Prop
  | .recording _ | .killing .. => True
  | _ => False

/-- It is about to remove the lock of another one. -/
def Phase.Removes : Phase Id → Prop
  | .removing .. => True
  | _ => False

instance : DecidablePred (@Phase.Holds Id)
  | .publishing _ => isTrue trivial
  | .stopping _ | .forgetting .. | .killing .. | .routing | .looking _ => isTrue rfl
  | .probing .. | .launching | .recording _ | .releasing => isTrue rfl
  | .idle | .making .. | .reading .. | .judging .. | .removing .. | .gone => isFalse nofun

instance : DecidablePred (@Phase.Midway Id)
  | .recording _ | .killing .. => isTrue trivial
  | .idle | .making .. | .reading .. | .judging .. | .removing .. | .publishing _ => isFalse not_false
  | .stopping _ | .forgetting .. | .routing | .looking _ | .probing .. => isFalse not_false
  | .launching | .releasing | .gone => isFalse not_false

instance : DecidablePred (@Phase.Removes Id)
  | .removing .. => isTrue trivial
  | .idle | .making .. | .reading .. | .judging .. | .publishing _ | .stopping _ => isFalse not_false
  | .forgetting .. | .killing .. | .routing | .looking _ | .probing .. => isFalse not_false
  | .launching | .recording _ | .releasing | .gone => isFalse not_false

abbrev System (Id : Type) : Type :=
  Threads Id (Caller Id) (Shared Id)

/-- No lock, no client, and nobody has called yet. -/
def System.start (Id : Type) : System Id where
  locals id := ⟨id, .idle⟩
  shared := ⟨none, none, [], 0, []⟩

/-- A waiter that removes the lock removes one whose maker is gone, and nobody is killed
between the launch of a client and its record, or between the removal of the record and
the kill. -/
def Calm (system : System Id) (label : Id × Choice) : Prop :=
  (label.2 = .proceed → (system.locals label.1).phase.Removes →
    ∀ dir ∈ system.shared.lock, dir.maker ∈ system.shared.dead) ∧
  (label.2 = .die ∨ label.2 = .term → ¬(system.locals label.1).phase.Midway)

instance (system : System Id) (label : Id × Choice) : Decidable (Calm system label) :=
  inferInstanceAs (Decidable (_ ∧ _))

/-- The lock is that of one caller, and there is one client. -/
structure Mutex (system : System Id) : Prop where
  one : ∀ first second, (system.locals first).phase.Holds → (system.locals second).phase.Holds →
    first = second
  client : system.shared.clients.length ≤ 1

/-! ## What the holder knows -/

/-- The one client that may be alive. -/
def Only (clients : List Nat) (client : Option Nat) : Prop :=
  clients = [] ∨ ∃ pid, client = some pid ∧ clients = [pid]

theorem Only.erase {clients : List Nat} {client : Option Nat} (only : Only clients client)
    (pid : Nat) : Only (clients.erase pid) client := by
  rcases only with rfl | ⟨other, rfl, rfl⟩
  · exact .inl rfl
  · by_cases same : other = pid
    · subst same
      left
      rw [List.erase_cons_head]
    · right
      refine ⟨other, rfl, ?_⟩
      rw [List.erase_cons_tail (by simpa using same)]
      rfl

theorem Only.length_le_one {clients : List Nat} {client : Option Nat} (only : Only clients client) :
    clients.length ≤ 1 := by
  rcases only with rfl | ⟨pid, -, rfl⟩
  · exact Nat.zero_le 1
  · exact Nat.le_refl 1

theorem Only.erase_self {clients : List Nat} {pid : Nat} (only : Only clients (some pid)) :
    clients.erase pid = [] := by
  rcases only with rfl | ⟨other, ⟨⟩, rfl⟩
  · rfl
  · rw [List.erase_cons_head]

theorem Only.eq_nil {clients : List Nat} (only : Only clients none) : clients = [] :=
  only.resolve_right fun ⟨_, isSome, _⟩ => nomatch isSome

theorem Only.eq_nil_of_not_mem {clients : List Nat} {pid : Nat} (only : Only clients (some pid))
    (absent : pid ∉ clients) : clients = [] := by
  rcases only with rfl | ⟨other, ⟨⟩, rfl⟩
  · rfl
  · exact absurd List.mem_cons_self absent

/-- The pid file tells of the client. -/
def Shared.Tracked (shared : Shared Id) : Prop :=
  Only shared.clients shared.pidFile

def Knows (shared : Shared Id) : Phase Id → Prop
  | .launching => shared.clients = []
  | .recording client => Only shared.clients (some client)
  | .killing _ client => Only shared.clients (some client)
  | .forgetting _ client | .probing _ client =>
      shared.Tracked ∧ shared.pidFile = some client
  | _ => shared.Tracked

section Moves

variable {caller next : Caller Id} {choice : Choice} {before shared : Shared Id}

/-- Nobody comes back, and whoever is gone is known to be. -/
def Died (caller next : Caller Id) (before shared : Shared Id) : Prop :=
  shared.dead = before.dead ∧ (caller.phase = .gone → next.phase = .gone) ∨
    next.phase = .gone ∧ shared.dead = caller.self :: before.dead

/-- What one move does. -/
inductive Move (caller next : Caller Id) (before shared : Shared Id) : Prop
  | outside (free : ¬caller.phase.Holds) (free' : ¬next.phase.Holds)
      (lock : shared.lock = before.lock ∨
        ∀ dir, before.lock = some dir → dir.maker ∈ before.dead)
      (pidFile : shared.pidFile = before.pidFile) (clients : shared.clients = before.clients)
      (died : Died caller next before shared)
  | acquire (free : before.lock = none) (taken : shared.lock = some ⟨caller.self, none⟩)
      (pidFile : shared.pidFile = before.pidFile) (clients : shared.clients = before.clients)
      (died : Died caller next before shared) (knows : before.Tracked → Knows shared next.phase)
  | inside (holds : caller.phase.Holds)
      (lock : ∀ pid, before.lock = some ⟨caller.self, pid⟩ →
        ∃ pid', shared.lock = some ⟨caller.self, pid'⟩)
      (dead : shared.dead = before.dead)
      (knows : Knows before caller.phase → Knows shared next.phase)
  | leave (holds : caller.phase.Holds) (free : ¬next.phase.Holds)
      (tracked : Knows before caller.phase → shared.Tracked)
      (died : Died caller next before shared)
  | client (same : next = caller) (lock : shared.lock = before.lock)
      (pidFile : shared.pidFile = before.pidFile) (dead : shared.dead = before.dead)
      (pid : Nat) (clients : shared.clients = before.clients.erase pid)

theorem move_of_moves
    (careful : choice = .proceed → caller.phase.Removes →
      ∀ dir ∈ before.lock, dir.maker ∈ before.dead)
    (whole : choice = .die ∨ choice = .term → ¬caller.phase.Midway)
    (moves : act caller choice before = some (next, shared)) :
    next.self = caller.self ∧ Move caller next before shared := by
  rcases caller with ⟨self, phase⟩
  have keeps : ∀ pid, before.lock = some ⟨self, pid⟩ →
      ∃ pid', before.lock = some ⟨self, pid'⟩ := fun pid lock => ⟨pid, lock⟩
  cases choice with
  | clientEnds pid => cases moves; exact ⟨rfl, .client rfl rfl rfl rfl pid rfl⟩
  | call mode =>
      cases phase with
      | idle => cases moves; exact ⟨rfl, .outside nofun nofun (.inl rfl) rfl rfl (.inl ⟨rfl, nofun⟩)⟩
      | judging _ _ holder => cases holder <;> cases moves
      | looking again => cases again <;> cases moves
      | _ => cases moves
  | fails =>
      cases phase with
      | publishing mode => cases moves; exact ⟨rfl, .inside trivial keeps rfl id⟩
      | routing => cases moves; exact ⟨rfl, .inside rfl keeps rfl id⟩
      | looking again =>
          cases again with
          | false => cases moves; exact ⟨rfl, .inside rfl keeps rfl id⟩
          | true => cases moves
      | judging _ _ holder => cases holder <;> cases moves
      | _ => cases moves
  | die =>
      cases phase with
      | idle | gone => cases moves
      | making | reading | judging | removing =>
          cases moves
          exact ⟨rfl, .outside nofun nofun (.inl rfl) rfl rfl (.inr ⟨rfl, rfl⟩)⟩
      | recording | killing => exact absurd trivial (whole (.inl rfl))
      | launching => cases moves; exact ⟨rfl, .leave rfl nofun .inl (.inr ⟨rfl, rfl⟩)⟩
      | forgetting | probing => cases moves; exact ⟨rfl, .leave rfl nofun And.left (.inr ⟨rfl, rfl⟩)⟩
      | publishing => cases moves; exact ⟨rfl, .leave trivial nofun id (.inr ⟨rfl, rfl⟩)⟩
      | _ => cases moves; exact ⟨rfl, .leave rfl nofun id (.inr ⟨rfl, rfl⟩)⟩
  | term =>
      cases phase with
      | idle | gone => cases moves
      | making | reading | judging | removing =>
          cases moves
          exact ⟨rfl, .outside nofun nofun (.inl rfl) rfl rfl (.inr ⟨rfl, rfl⟩)⟩
      | recording | killing => exact absurd trivial (whole (.inr rfl))
      | publishing => cases moves; exact ⟨rfl, .leave trivial nofun id (.inr ⟨rfl, rfl⟩)⟩
      | launching => cases moves; exact ⟨rfl, .inside rfl keeps rfl .inl⟩
      | forgetting | probing =>
          cases moves
          exact ⟨rfl, .inside rfl keeps rfl And.left⟩
      | _ => cases moves; exact ⟨rfl, .inside rfl keeps rfl id⟩
  | proceed =>
      cases phase with
      | idle | gone => cases moves
      | making mode tries =>
          simp only [act] at moves
          split at moves
          · rename_i free
            cases moves
            exact ⟨rfl, .acquire free rfl rfl rfl (.inl ⟨rfl, nofun⟩) id⟩
          · split at moves <;> cases moves
            · exact ⟨rfl, .outside nofun nofun (.inl rfl) rfl rfl (.inr ⟨rfl, rfl⟩)⟩
            · exact ⟨rfl, .outside nofun nofun (.inl rfl) rfl rfl (.inl ⟨rfl, nofun⟩)⟩
      | reading => cases moves; exact ⟨rfl, .outside nofun nofun (.inl rfl) rfl rfl (.inl ⟨rfl, nofun⟩)⟩
      | judging mode tries holder =>
          cases holder <;> simp only [act] at moves <;> split at moves <;> cases moves <;>
            exact ⟨rfl, .outside nofun nofun (.inl rfl) rfl rfl (.inl ⟨rfl, nofun⟩)⟩
      | removing mode tries =>
          cases moves
          exact ⟨rfl, .outside nofun nofun (.inr (careful rfl trivial)) rfl rfl (.inl ⟨rfl, nofun⟩)⟩
      | publishing mode =>
          simp only [act] at moves
          split at moves <;> cases moves
          · rename_i dir taken
            refine ⟨rfl, .inside trivial (fun pid lock => ⟨some self, ?_⟩) rfl ?_⟩
            · cases taken.symm.trans lock
              rfl
            · cases mode <;> exact id
          · rename_i missing
            exact ⟨rfl, .inside trivial (fun pid lock => nomatch missing.symm.trans lock) rfl id⟩
      | stopping routed =>
          simp only [act] at moves
          split at moves <;> cases moves
          · rename_i file
            exact ⟨rfl, .inside rfl keeps rfl fun tracked => ⟨tracked, file⟩⟩
          · refine ⟨rfl, .inside rfl keeps rfl ?_⟩
            cases routed <;> exact id
      | forgetting routed client =>
          cases moves
          refine ⟨rfl, .inside rfl keeps rfl fun known => ?_⟩
          show Only before.clients (some client)
          rw [← known.2]
          exact known.1
      | killing routed client =>
          cases moves
          refine ⟨rfl, .inside rfl keeps rfl fun only => ?_⟩
          have none : before.clients.erase client = [] := only.erase_self
          cases routed <;> exact .inl none
      | routing => cases moves; exact ⟨rfl, .inside rfl keeps rfl id⟩
      | looking again =>
          simp only [act] at moves
          split at moves <;> cases moves
          · rename_i file
            exact ⟨rfl, .inside rfl keeps rfl fun tracked => ⟨tracked, file⟩⟩
          · rename_i missing
            refine ⟨rfl, .inside rfl keeps rfl fun tracked => ?_⟩
            cases again with
            | false => exact tracked
            | true =>
                have only : Only before.clients before.pidFile := tracked
                rw [missing] at only
                exact only.eq_nil
      | probing again client =>
          simp only [act] at moves
          split at moves <;> cases moves
          · exact ⟨rfl, .inside rfl keeps rfl And.left⟩
          · rename_i absent
            refine ⟨rfl, .inside rfl keeps rfl fun known => ?_⟩
            cases again with
            | false => exact known.1
            | true =>
                have only : Only before.clients (some client) := known.2 ▸ known.1
                exact only.eq_nil_of_not_mem absent
      | launching =>
          cases moves
          refine ⟨rfl, .inside rfl keeps rfl fun none => .inr ⟨before.fresh, rfl, ?_⟩⟩
          rw [show before.clients = [] from none]
      | recording client => cases moves; exact ⟨rfl, .inside rfl keeps rfl id⟩
      | releasing => cases moves; exact ⟨rfl, .leave rfl nofun id (.inr ⟨rfl, rfl⟩)⟩

end Moves

/-! ## Runs -/

/-- What a caller has while it holds the lock. -/
structure Holding (shared : Shared Id) (caller : Caller Id) : Prop where
  lock : ∃ pid, shared.lock = some ⟨caller.self, pid⟩
  knows : Knows shared caller.phase

/-- What holds between any two operations. -/
structure Consistent (system : System Id) : Prop where
  self : ∀ id, (system.locals id).self = id
  alive : ∀ id, (system.locals id).phase ≠ .gone → (system.locals id).self ∉ system.shared.dead
  holding : ∀ id, (system.locals id).phase.Holds → Holding system.shared (system.locals id)
  tracked : (∀ id, ¬(system.locals id).phase.Holds) → system.shared.Tracked

omit [DecidableEq Id] in
theorem System.start_consistent : Consistent (start Id) where
  self _ := rfl
  alive _ _ := List.not_mem_nil
  holding _ := nofun
  tracked _ := .inl rfl

omit [DecidableEq Id] in
theorem Consistent.one {system : System Id} (consistent : Consistent system) {first second : Id}
    (holds : (system.locals first).phase.Holds) (holds' : (system.locals second).phase.Holds) :
    first = second := by
  rcases (consistent.holding first holds).lock with ⟨pid, lock⟩
  rcases (consistent.holding second holds').lock with ⟨pid', lock'⟩
  rw [consistent.self] at lock lock'
  cases lock.symm.trans lock'
  rfl

omit [DecidableEq Id] in
theorem Phase.Holds.not_gone {phase : Phase Id} (holds : phase.Holds) : phase ≠ .gone := by
  rintro rfl
  cases holds

omit [DecidableEq Id] in
theorem Move.died {caller next : Caller Id} {before shared : Shared Id}
    (move : Move caller next before shared) : Died caller next before shared := by
  cases move with
  | outside _ _ _ _ _ died => exact died
  | acquire _ _ _ _ died => exact died
  | inside holds _ dead => exact .inl ⟨dead, fun isGone => absurd isGone holds.not_gone⟩
  | leave _ _ _ died => exact died
  | client same _ _ dead => exact .inl ⟨dead, fun isGone => same ▸ isGone⟩

omit [DecidableEq Id] in
/-- What the holder knows does not depend on the lock, nor on who is gone. -/
theorem Knows.congr {before shared : Shared Id} {phase : Phase Id} (knows : Knows before phase)
    (pidFile : shared.pidFile = before.pidFile) (clients : shared.clients = before.clients) :
    Knows shared phase := by
  rcases before with ⟨lock, file, alive, fresh, dead⟩
  rcases shared with ⟨lock', file', alive', fresh', dead'⟩
  cases pidFile
  cases clients
  cases phase <;> exact knows

omit [DecidableEq Id] in
/-- A client that ends by itself changes nothing else. -/
theorem Knows.erase {before shared : Shared Id} {phase : Phase Id} (knows : Knows before phase)
    (pidFile : shared.pidFile = before.pidFile) {pid : Nat}
    (clients : shared.clients = before.clients.erase pid) : Knows shared phase := by
  rcases before with ⟨lock, file, alive, fresh, dead⟩
  rcases shared with ⟨lock', file', alive', fresh', dead'⟩
  cases pidFile
  cases clients
  cases phase with
  | launching =>
      rw [Knows] at knows ⊢
      rw [show alive = [] from knows]
      rfl
  | recording | killing => exact Only.erase knows pid
  | forgetting | probing => exact ⟨Only.erase knows.1 pid, knows.2⟩
  | _ => exact Only.erase knows pid

omit [DecidableEq Id] in
theorem Knows.length_le_one {shared : Shared Id} {phase : Phase Id} (knows : Knows shared phase) :
    shared.clients.length ≤ 1 := by
  cases phase with
  | launching =>
      rw [show shared.clients = [] from knows]
      exact Nat.zero_le 1
  | recording | killing => exact Only.length_le_one knows
  | forgetting | probing => exact Only.length_le_one knows.1
  | _ => exact Only.length_le_one knows

omit [DecidableEq Id] in
theorem Knows.tracked {shared : Shared Id} {phase : Phase Id} (free : ¬phase.Holds)
    (knows : Knows shared phase) : shared.Tracked := by
  cases phase with
  | launching | recording | forgetting | probing | killing => exact absurd rfl free
  | _ => exact knows

omit [DecidableEq Id] in
/-- Nobody holds a lock that is not there. -/
theorem Consistent.tracked_of_free {system : System Id} (consistent : Consistent system)
    (free : system.shared.lock = none) : system.shared.Tracked := by
  apply consistent.tracked
  intro id holds
  rcases (consistent.holding id holds).lock with ⟨pid, lock⟩
  cases free.symm.trans lock

section Move

variable {system : System Id} {who : Id} {next : Caller Id} {shared : Shared Id}

omit [DecidableEq Id] in
/-- Nobody else's lock goes away. -/
theorem Consistent.other_holding (consistent : Consistent system)
    (move : Move (system.locals who) next system.shared shared) {other : Id}
    (isOther : other ≠ who) (holds : (system.locals other).phase.Holds) :
    Holding shared (system.locals other) := by
  have holding := consistent.holding other holds
  rcases holding.lock with ⟨pid, lock⟩
  cases move with
  | outside _ _ unchanged pidFile clients =>
      rcases unchanged with same | stale
      · exact ⟨⟨pid, same.trans lock⟩, holding.knows.congr pidFile clients⟩
      · exact absurd (stale _ lock) (consistent.alive other holds.not_gone)
  | acquire free => cases free.symm.trans lock
  | inside holds' => exact absurd (consistent.one holds holds') isOther
  | leave holds' => exact absurd (consistent.one holds holds') isOther
  | client _ same pidFile _ _ clients =>
      exact ⟨⟨pid, same.trans lock⟩, holding.knows.erase pidFile clients⟩

omit [DecidableEq Id] in
theorem Consistent.own_holding (consistent : Consistent system)
    (self : next.self = (system.locals who).self)
    (move : Move (system.locals who) next system.shared shared) (holds : next.phase.Holds) :
    Holding shared next := by
  cases move with
  | outside _ free => exact absurd holds free
  | acquire free taken _ _ _ knows =>
      refine ⟨⟨none, ?_⟩, knows (consistent.tracked_of_free free)⟩
      rw [self]
      exact taken
  | inside holds' lock _ knows =>
      have holding := consistent.holding who holds'
      rcases holding.lock with ⟨pid, taken⟩
      refine ⟨?_, knows holding.knows⟩
      rw [self]
      exact lock pid taken
  | leave _ free => exact absurd holds free
  | client same sameLock pidFile _ _ clients =>
      subst same
      have holding := consistent.holding who holds
      rcases holding.lock with ⟨pid, taken⟩
      exact ⟨⟨pid, sameLock.trans taken⟩, holding.knows.erase pidFile clients⟩

omit [DecidableEq Id] in
/-- Whoever is not gone is not taken to be. -/
theorem Consistent.own_alive (consistent : Consistent system)
    (self : next.self = (system.locals who).self)
    (move : Move (system.locals who) next system.shared shared) (present : next.phase ≠ .gone) :
    next.self ∉ shared.dead := by
  rcases move.died with ⟨dead, goes⟩ | ⟨isGone, -⟩
  · rw [self, dead]
    exact consistent.alive who fun isGone => present (goes isGone)
  · exact absurd isGone present

omit [DecidableEq Id] in
theorem Consistent.other_alive (consistent : Consistent system)
    (move : Move (system.locals who) next system.shared shared) {other : Id}
    (isOther : other ≠ who) (present : (system.locals other).phase ≠ .gone) :
    (system.locals other).self ∉ shared.dead := by
  have absent := consistent.alive other present
  rcases move.died with ⟨dead, -⟩ | ⟨-, dead⟩
  · rw [dead]
    exact absent
  · rw [dead]
    intro member
    rcases List.mem_cons.mp member with same | member
    · rw [consistent.self, consistent.self] at same
      exact isOther same
    · exact absent member

/-- When nobody holds the lock any more, the pid file tells of the client. -/
theorem Consistent.tracked_move (consistent : Consistent system)
    (move : Move (system.locals who) next system.shared shared)
    (nobody : ∀ id, ¬((system.move who next shared).locals id).phase.Holds) : shared.Tracked := by
  have free := nobody who
  rw [move_locals_self] at free
  have before : ¬(system.locals who).phase.Holds → system.shared.Tracked := by
    intro notHolding
    apply consistent.tracked
    intro id
    by_cases isWho : id = who
    · subst isWho
      exact notHolding
    · have last := nobody id
      rw [move_locals_of_ne system next shared isWho] at last
      exact last
  cases move with
  | outside notHolding _ _ pidFile clients =>
      have tracked := before notHolding
      rw [Shared.Tracked] at tracked ⊢
      rw [pidFile, clients]
      exact tracked
  | acquire isFree _ _ _ _ knows => exact (knows (consistent.tracked_of_free isFree)).tracked free
  | inside holds _ _ knows => exact (knows (consistent.holding who holds).knows).tracked free
  | leave holds _ tracked => exact tracked (consistent.holding who holds).knows
  | client same _ pidFile _ pid clients =>
      subst same
      have tracked := before free
      rw [Shared.Tracked] at tracked ⊢
      rw [pidFile, clients]
      exact tracked.erase pid

theorem Consistent.move (consistent : Consistent system)
    (self : next.self = (system.locals who).self)
    (move : Move (system.locals who) next system.shared shared) :
    Consistent (system.move who next shared) where
  self id := by
    by_cases isWho : id = who
    · subst isWho
      rw [move_locals_self, self]
      exact consistent.self id
    · rw [move_locals_of_ne system next shared isWho]
      exact consistent.self id
  alive := forall_update (fun caller : Caller Id => caller.phase ≠ .gone → caller.self ∉ shared.dead)
    (consistent.own_alive self move) fun _ isOther => consistent.other_alive move isOther
  holding := forall_update (fun caller : Caller Id => caller.phase.Holds → Holding shared caller)
    (consistent.own_holding self move) fun _ isOther => consistent.other_holding move isOther
  tracked := consistent.tracked_move move

theorem Consistent.step (consistent : Consistent system) {label : Id × Choice}
    (calm : Calm system label) : Consistent (system.step act label) := by
  refine step_invariant consistent fun next shared moves => ?_
  rcases move_of_moves calm.1 calm.2 moves with ⟨self, move⟩
  exact consistent.move self move

omit [DecidableEq Id] in
theorem Consistent.mutex (consistent : Consistent system) : Mutex system where
  one _ _ := consistent.one
  client := by
    by_cases somebody : ∃ id, (system.locals id).phase.Holds
    · rcases somebody with ⟨id, holds⟩
      exact (consistent.holding id holds).knows.length_le_one
    · exact (consistent.tracked fun id holds => somebody ⟨id, holds⟩).length_le_one

/-- While waiters remove only locks whose maker is gone, and nobody is killed between a
client and its record, the lock is that of one caller and there is one client. -/
theorem lock_is_mutex (Id : Type) [DecidableEq Id] (labels : List (Id × Choice))
    (calm : Along (Threads.step act) Calm (System.start Id) labels) :
    Throughout (Threads.step act) Mutex (System.start Id) labels :=
  calm.throughout Consistent (fun _ consistent => consistent.mutex)
    (fun _ _ consistent calm => consistent.step calm) System.start_consistent

end Move

/-! ## Two runs -/

/-- The first caller is killed while it holds the lock, and another one finds it dead. -/
def upToJudged : List (Fin 3 × Choice) :=
  [(0, .call .start), (0, .proceed), (0, .proceed), (0, .die), (1, .call .start)] ++
    List.replicate 3 (1, .proceed)

/-- The second caller takes the lock over and starts a client. -/
theorem lock_is_mutex_recovered :
    let system := run (Threads.step act) (System.start (Fin 3))
      (upToJudged ++ List.replicate 8 (1, .proceed))
    system.shared.clients = [0] ∧ system.shared.clients.length ≤ 1 := by
  have mutex := throughout_iff_prefix.mp
    (lock_is_mutex (Fin 3) (upToJudged ++ List.replicate 8 (1, .proceed)) (by decide +kernel))
    _ (List.prefix_refl _)
  exact ⟨by decide +kernel, mutex.client⟩

/-- A third one has found it dead as well, and removes the lock of the second. -/
theorem removed_twice :
    ¬Mutex (run (Threads.step act) (System.start (Fin 3))
      (upToJudged ++ [(2, .call .start)] ++ List.replicate 3 (2, .proceed) ++
        List.replicate 3 (1, .proceed) ++ List.replicate 2 (2, .proceed))) := by
  intro mutex
  have same := mutex.one 1 2 (by decide +kernel) (by decide +kernel)
  exact absurd same (by decide)

end Zlyme.Ntp
