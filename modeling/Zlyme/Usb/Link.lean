import Mathlib.Data.List.Induction
import Zlyme.Foundation.Execution

/-! # The link of the USB gadget

One round of the link loop: it reads the owners of the controllers, the port and
the gadget, and binds the gadget to its controller at most once. Every read is
free, also when the same file is read twice in a round.
-/

namespace Zlyme.Usb

open Foundation.Execution

/-- `UDC_NAME` and `GADGET_NAME`. -/
structure LinkConfig where
  udcName : String
  gadgetName : String

/-- The latch file. -/
inductive Latch
  | waiting
  | bindFailed
  | pending
  | configured
  deriving DecidableEq, Repr

/-- The files a round of the loop leaves for the next one. -/
structure Link where
  latch : Option Latch
  linkErr : Option String
  linkBinds : Nat
  deriving DecidableEq, Repr

/-- A gadget directory with the trimmed content of its `UDC` file. -/
structure Gadget where
  name : String
  udc : String
  deriving DecidableEq, Repr

/-- A cable of the extcon, its name and its state trimmed. -/
structure Cable where
  name : String
  state : String
  deriving DecidableEq, Repr

/-- What one round reads, in the order of the reads. A file that is not there
reads as `none`. -/
structure Look where
  gadgets : List Gadget
  extconDir : Bool
  gadgetUdc : Option String
  dataExtconDir : Bool
  sdpCables : List Cable
  cdpCables : List Cable
  udcDir : Bool
  bindGadgets : List Gadget
  /-- The write of the controller's name goes through. -/
  bindWritten : Bool
  bindReadBack : String
  hostUdc : Option String
  hostState : Option String
  deriving DecidableEq, Repr

variable (config : LinkConfig)

def foreignOwner (gadgets : List Gadget) : Option String :=
  (gadgets.find? fun gadget =>
    gadget.udc = config.udcName && gadget.name ≠ config.gadgetName).map Gadget.name

/-- An owner is printed: one with an empty name reads as none. -/
def hasForeignOwner (gadgets : List Gadget) : Bool :=
  ((foreignOwner config gadgets).getD "") ≠ ""

/-- `our_udc_bound`, on the content of the gadget's `UDC` file. -/
def ourUdcBound (udc : Option String) : Bool :=
  match udc with
  | none => false
  | some got => got ≠ "" && got = config.udcName

/-- The first cable of that name decides. -/
def cableIsOne (cables : List Cable) (want : String) : Bool :=
  match cables.find? fun cable => cable.name = want with
  | none => false
  | some cable => cable.state = "1"

/-- Only SDP and CDP are data-capable. -/
def dataCable (look : Look) : Bool :=
  look.dataExtconDir && (cableIsOne look.sdpCables "SDP" || cableIsOne look.cdpCables "CDP")

def udcPresent (look : Look) : Bool :=
  config.udcName ≠ "" && look.udcDir

structure BindResult where
  /-- The controller's name has been written to the gadget's `UDC` file. -/
  wrote : Bool
  ok : Bool
  deriving DecidableEq, Repr

def bindUdc (look : Look) : BindResult :=
  if !udcPresent config look then ⟨false, false⟩
  else if hasForeignOwner config look.bindGadgets then ⟨false, false⟩
  else if !look.bindWritten then ⟨true, false⟩
  else if look.bindReadBack ≠ config.udcName then ⟨true, false⟩
  else ⟨true, true⟩

def hostState (look : Look) : String :=
  if !ourUdcBound config look.hostUdc then "unbound"
  else look.hostState.getD "unknown"

/-- `note_link`: only the first message is kept. -/
def noteLink (link : Link) (message : String) : Link :=
  if (link.linkErr.getD "") ≠ "" then link else { link with linkErr := some message }

/-- What a round did: its status and the bind it tried. -/
structure LinkResult where
  ok : Bool
  bind : Option BindResult
  deriving DecidableEq, Repr

/-- The end of `link_once`, with the gadget bound. -/
def noteHost (link : Link) (look : Look) : Link :=
  if hostState config look = "configured" || hostState config look = "suspended" then
    { link with latch := some .configured }
  else
    { link with latch := some .pending }

def linkOnce (link : Link) (look : Look) : Link × LinkResult :=
  if hasForeignOwner config look.gadgets then (link, ⟨true, none⟩)
  else if !look.extconDir then
    (noteLink link ("lower PHY extcon for " ++ config.udcName ++ " was not found"), ⟨true, none⟩)
  else if ourUdcBound config look.gadgetUdc then (noteHost config link look, ⟨true, none⟩)
  else if !dataCable look then ({ link with latch := some .waiting }, ⟨true, none⟩)
  else if link.latch = some .bindFailed then (link, ⟨true, none⟩)
  else if !(bindUdc config look).ok then
    ({ link with latch := some .bindFailed }, ⟨false, some (bindUdc config look)⟩)
  else
    (noteHost config { link with latch := some .pending, linkBinds := link.linkBinds + 1 } look,
      ⟨true, some (bindUdc config look)⟩)

/-! ## Sessions -/

/-- A session starts without link files: the cleanup before it removes them. -/
def Link.fresh : Link where
  latch := none
  linkErr := none
  linkBinds := 0

/-- The files after one round. -/
def linkStep (link : Link) (look : Look) : Link :=
  (linkOnce config link look).1

/-- The files after the rounds of a session. -/
def session (looks : List Look) : Link :=
  run (linkStep config) .fresh looks

def wrote (link : Link) (look : Look) : Bool :=
  (linkOnce config link look).2.bind.any BindResult.wrote

def triedBind (link : Link) (look : Look) : Bool :=
  (linkOnce config link look).2.bind.isSome

def bindFailed (link : Link) (look : Look) : Bool :=
  (linkOnce config link look).2.bind.any fun bind => !bind.ok

/-! ## One round -/

variable {config} {link : Link} {look : Look}

@[simp] theorem noteLink_latch (message : String) : (noteLink link message).latch = link.latch := by
  rw [noteLink]
  split <;> rfl

theorem noteHost_latch (config : LinkConfig) (link : Link) (look : Look) :
    (noteHost config link look).latch = some .configured ∨
      (noteHost config link look).latch = some .pending := by
  rw [noteHost]
  split
  · exact .inl rfl
  · exact .inr rfl

/-- A bind is tried on a data port only, for an unbound gadget, with no foreign
owner in sight and no failed bind on record. -/
theorem triedBind_iff : triedBind config link look = true ↔
    hasForeignOwner config look.gadgets = false ∧ look.extconDir = true ∧
      ourUdcBound config look.gadgetUdc = false ∧ dataCable look = true ∧
      link.latch ≠ some .bindFailed := by
  unfold triedBind linkOnce
  split
  · simp_all
  split
  · simp_all
  split
  · simp_all
  split
  · simp_all
  split
  · simp_all
  split <;> simp_all

/-- The result of a round's bind is that of `bind_udc`. -/
theorem linkOnce_bind (tried : triedBind config link look = true) :
    (linkOnce config link look).2.bind = some (bindUdc config look) := by
  rcases triedBind_iff.mp tried with ⟨foreign, extcon, bound, data, latch⟩
  unfold linkOnce
  cases (bindUdc config look).ok <;> simp [foreign, extcon, bound, data, latch]

theorem wrote_iff : wrote config link look = true ↔
    triedBind config link look = true ∧ (bindUdc config look).wrote = true := by
  constructor
  · intro written
    rcases Option.any_eq_true _ _ |>.mp written with ⟨bind, isBind, bindWrote⟩
    have tried : triedBind config link look = true := Option.isSome_iff_exists.mpr ⟨bind, isBind⟩
    rw [linkOnce_bind tried] at isBind
    exact ⟨tried, Option.some.inj isBind ▸ bindWrote⟩
  · rintro ⟨tried, bindWrote⟩
    rw [wrote, linkOnce_bind tried]
    exact bindWrote

/-- The controller's name is written with the controller there and no foreign
owner at the second reading either. -/
theorem bindUdc_wrote (written : (bindUdc config look).wrote = true) :
    udcPresent config look = true ∧ hasForeignOwner config look.bindGadgets = false := by
  unfold bindUdc at written
  split at written
  · cases written
  split at written
  · cases written
  simp_all

/-- A failed bind is put on record. -/
theorem latch_of_bindFailed (failed : bindFailed config link look = true) :
    (linkStep config link look).latch = some .bindFailed := by
  rcases Option.any_eq_true _ _ |>.mp failed with ⟨bind, isBind, notOk⟩
  have tried : triedBind config link look = true := Option.isSome_iff_exists.mpr ⟨bind, isBind⟩
  rw [linkOnce_bind tried] at isBind
  have bindNotOk : (bindUdc config look).ok = false := by
    rw [Option.some.inj isBind]
    exact (Bool.not_eq_true' _).mp notOk
  rcases triedBind_iff.mp tried with ⟨foreign, extcon, bound, data, latch⟩
  simp [linkStep, linkOnce, foreign, extcon, bound, data, latch, bindNotOk]

/-- Nothing else puts a failed bind on record. -/
theorem latch_of_not_bindFailed (notFailed : bindFailed config link look = false)
    (recorded : (linkStep config link look).latch = some .bindFailed) :
    link.latch = some .bindFailed := by
  have host (link : Link) : (noteHost config link look).latch ≠ some .bindFailed := by
    rcases noteHost_latch config link look with same | same <;>
      simp [same]
  unfold bindFailed linkOnce at notFailed
  unfold linkStep linkOnce at recorded
  split at recorded
  · exact recorded
  split at recorded
  · simpa using recorded
  split at recorded
  · exact absurd recorded (host _)
  split at recorded
  · cases recorded
  split at recorded
  · exact recorded
  split at recorded
  · simp_all
  · exact absurd recorded (host _)

/-! ## The record of a failed bind -/

/-- A round that leaves a failed bind on record: it does not get as far as the
gadget, or it finds an unbound gadget on a data port. -/
def KeepsRecord (config : LinkConfig) (link : Link) (look : Look) : Prop :=
  link.latch = some .bindFailed →
    hasForeignOwner config look.gadgets = true ∨ look.extconDir = false ∨
      (ourUdcBound config look.gadgetUdc = false ∧ dataCable look = true)

instance : Decidable (KeepsRecord config link look) :=
  inferInstanceAs (Decidable (_ → _))

/-- The record survives exactly the rounds that keep it. -/
theorem keepsRecord_iff (recorded : link.latch = some .bindFailed) :
    KeepsRecord config link look ↔ (linkStep config link look).latch = some .bindFailed := by
  unfold KeepsRecord linkStep linkOnce
  simp only [recorded, true_implies]
  split
  · simp_all
  split
  · simp_all
  split
  · rcases noteHost_latch config link look with same | same <;>
      simp_all
  split
  · simp_all
  · simp_all

/-- A failed bind is on record only after a round that failed to bind. -/
theorem exists_bindFailed {looks : List Look}
    (recorded : (session config looks).latch = some .bindFailed) :
    ∃ before failed middle, looks = before ++ failed :: middle ∧
      bindFailed config (session config before) failed = true := by
  induction looks using List.reverseRecOn with
  | nil => cases recorded
  | append_singleton front look induction =>
      rw [session, run_append, run_cons, run_nil] at recorded
      by_cases earlier : (session config front).latch = some .bindFailed
      · rcases induction earlier with ⟨before, failed, middle, rfl, bindHasFailed⟩
        exact ⟨before, failed, middle ++ [look], by simp, bindHasFailed⟩
      · refine ⟨front, look, [], rfl, ?_⟩
        by_contra succeeded
        exact earlier (latch_of_not_bindFailed (Bool.eq_false_iff.mpr succeeded) recorded)

/-! ## Laws of a session -/

/-- The port, the gadget and the controller as a round must see them to bind. -/
structure MayBind (config : LinkConfig) (look : Look) : Prop where
  port : dataCable look = true
  unbound : ourUdcBound config look.gadgetUdc = false
  noForeign : hasForeignOwner config look.gadgets = false
  stillNoForeign : hasForeignOwner config look.bindGadgets = false
  present : udcPresent config look = true

theorem mayBind_of_wrote (written : wrote config link look = true) : MayBind config look := by
  rcases wrote_iff.mp written with ⟨tried, bindWrote⟩
  rcases triedBind_iff.mp tried with ⟨foreign, _, bound, data, _⟩
  rcases bindUdc_wrote bindWrote with ⟨present, stillNoForeign⟩
  exact ⟨data, bound, foreign, stillNoForeign, present⟩

/-- No round after a failed bind tries again. -/
def NoRetry (config : LinkConfig) (looks : List Look) : Prop :=
  ∀ before failed middle again after, looks = before ++ failed :: middle ++ again :: after →
    bindFailed config (session config before) failed = true →
      triedBind config (session config (before ++ failed :: middle)) again = false

/-- Every write of the controller's name follows the port, the gadget and the
owners, and a failed bind is not retried in a session whose rounds all keep its
record. -/
theorem link_lawful (config : LinkConfig) (looks : List Look) :
    (∀ before look after, looks = before ++ look :: after →
      wrote config (session config before) look = true → MayBind config look) ∧
    (Along (linkStep config) (KeepsRecord config) .fresh looks → NoRetry config looks) := by
  refine ⟨fun before look after _ => mayBind_of_wrote, ?_⟩
  rintro along before failed middle again after rfl bindHasFailed
  rw [List.append_assoc, along_append] at along
  have recorded : (session config (before ++ failed :: middle)).latch = some .bindFailed := by
    rw [session, run_append, run_cons]
    refine along_run_invariant (fun link : Link => link.latch = some .bindFailed) ?_
      (along_append.mp along.2.2).1 (latch_of_bindFailed bindHasFailed)
    intro link look recorded keeps
    exact (keepsRecord_iff recorded).mp keeps
  refine Bool.eq_false_iff.mpr fun tried => ?_
  exact (triedBind_iff.mp tried).2.2.2.2 recorded

/-- A round that sees a data port and a gadget to bind. -/
def readyLook : Look where
  gadgets := []
  extconDir := true
  gadgetUdc := none
  dataExtconDir := true
  sdpCables := [⟨"SDP", "1"⟩]
  cdpCables := []
  udcDir := true
  bindGadgets := []
  bindWritten := true
  bindReadBack := ""
  hostUdc := none
  hostState := none

/-- A session that loses the record of a failed bind can go on to a retry. -/
theorem retry_of_lost_record {looks : List Look} {lost : Look}
    (loses : ¬KeepsRecord config (session config looks) lost) :
    ¬NoRetry config (looks ++ [lost, readyLook]) := by
  have recorded : (session config looks).latch = some .bindFailed := by
    by_contra other
    exact loses fun same => absurd same other
  rcases exists_bindFailed recorded with ⟨before, failed, middle, rfl, bindHasFailed⟩
  intro noRetry
  have quiet := noRetry before failed (middle ++ [lost]) readyLook [] (by simp) bindHasFailed
  have forgotten := mt (keepsRecord_iff recorded).mpr loses
  have tried : triedBind config (session config (before ++ failed :: (middle ++ [lost])))
      readyLook = true := by
    rw [triedBind_iff]
    refine ⟨rfl, rfl, rfl, rfl, ?_⟩
    rwa [← List.cons_append, ← List.append_assoc, session, run_append, run_cons, run_nil]
  rw [quiet] at tried
  cases tried

/-! ## Sample session -/

def sampleLink : LinkConfig where
  udcName := "fcc00000.usb"
  gadgetName := "zlyme-mtp"

def unpluggedLook : Look :=
  { readyLook with sdpCables := [⟨"SDP", "0"⟩] }

/-- The write of the controller's name fails. -/
def refusedLook : Look :=
  { readyLook with bindWritten := false }

/-- With the cable in, a failed bind stays the only one. -/
theorem refused_is_lawful :
    MayBind sampleLink refusedLook ∧ NoRetry sampleLink [unpluggedLook, refusedLook, readyLook] :=
  have lawful := link_lawful sampleLink [unpluggedLook, refusedLook, readyLook]
  ⟨lawful.1 [unpluggedLook] refusedLook [readyLook] rfl (by decide +kernel),
    lawful.2 (by decide +kernel)⟩

/-- The cable out and in again, and the failed bind is tried once more. -/
theorem replug_retries :
    ¬NoRetry sampleLink [unpluggedLook, refusedLook, unpluggedLook, readyLook] := by
  intro noRetry
  have quiet := noRetry [unpluggedLook] refusedLook [unpluggedLook] readyLook [] rfl
    (by decide +kernel)
  exact absurd quiet (by decide +kernel)

end Zlyme.Usb
