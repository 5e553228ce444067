import Zlyme.Preloader.Manifest

/-! # The recovery state

`recovery_state` classifies the live image for the status page. It takes the path
of `disarm-recovery` for `armed` and repeats a part of the checks of `arm-recovery`
for `ready`.
-/

namespace Zlyme.Preloader

open Foundation Foundation.Bytes

/-! ## The report -/

inductive Mode
  | normal
  | recovery
  | unknown
  deriving DecidableEq, Repr

inductive RecoveryClass
  | notPrepared
  | ready
  | armed
  | invalid
  deriving DecidableEq, Repr

inductive SourceBackup
  | available
  | missing
  deriving DecidableEq, Repr

/-- The three lines of `recovery-state`. -/
structure StateReport where
  mode : Mode
  recovery : RecoveryClass
  sourceBackup : SourceBackup
  deriving DecidableEq, Repr

/-- `try … except SystemExit`; any other exception goes on. -/
def catchExit {α : Type} (attempt : Except PyError α) : Except PyError (Option α) :=
  match attempt with
  | .ok value => .ok (some value)
  | .error (.systemExit _) => .ok none
  | .error error => .error error

theorem catchExit_eq_some {α : Type} {attempt : Except PyError α} {value : α} :
    catchExit attempt = .ok (some value) ↔ attempt = .ok value := by
  rcases attempt with (_ | _ | _ | _) | value <;> simp [catchExit]

/-- The boot order of the live image. -/
def Host.liveOrder (host : Host) (live : Bytes) : Except PyError (List Bytes) := do
  let (_, spl, _) ← paired host.layout host.sha live
  let blob ← fdt host.layout spl.payload
  let (_, _, order) ← bootOrder blob
  return order

/-- Whether the live image is the saved source and the prepared image its derivative. -/
def Host.isPrepared (host : Host) (storage : Storage) (live : Bytes) (doc : Manifest) :
    Except PyError Bool :=
  match storage.lookup doc.sourceBackup, storage.lookup doc.prepared with
  | some source, some prepared =>
      if host.shaText source = doc.sourceSha256 ∧ host.shaText live = doc.sourceSha256 ∧
          source = live ∧ host.shaText prepared = doc.recoverySha256 then do
        let derived ← catchExit (deriveBytes host.layout host.sha source)
        return derived = some prepared
      else .ok false
  | _, _ => .ok false

def Host.recoveryState (host : Host) (storage : Storage) (live : Bytes) :
    Except PyError StateReport := do
  let _ ← paired host.layout host.sha live
  let order ← catchExit (host.liveOrder live)
  match storage.lookup manifestPath with
  | none =>
      return ⟨if order = some sourceOrder then .normal else .unknown, .notPrepared, .missing⟩
  | some _ =>
      match ← catchExit (host.manifest storage manifestPath) with
      | none => return ⟨.unknown, .invalid, .missing⟩
      | some doc =>
          let saved := (storage.lookup doc.sourceBackup).any
            fun source => host.shaText source == doc.sourceSha256
          match ← catchExit (host.boundSource storage live) with
          | some _ => return ⟨.recovery, .armed, .available⟩
          | none =>
              let sourceBackup := if saved then .available else .missing
              if ← host.isPrepared storage live doc then
                return ⟨.normal, .ready, sourceBackup⟩
              return ⟨.unknown, .invalid, sourceBackup⟩

/-! ## What the classes mean -/

section Classes

variable {host : Host} {storage : Storage} {live : Bytes}

theorem load_eq_ok {path : Path} {missing : String} {bytes : Bytes} :
    load storage path missing = .ok bytes ↔ storage.lookup path = some bytes := by
  rw [load]
  split <;> rename_i found <;> simp [found]

theorem manifest_present {doc : Manifest} (accepted : host.manifest storage manifestPath = .ok doc) :
    ∃ raw, storage.lookup manifestPath = some raw := by
  rcases bind_eq_ok.mp accepted with ⟨raw, loaded, _⟩
  exact ⟨raw, load_eq_ok.mp loaded⟩

/-- What `bound_source` has found when it accepts. -/
theorem boundSource_eq_ok {path : Path} (bound : host.boundSource storage live = .ok path) :
    ∃ doc source, host.manifest storage manifestPath = .ok doc ∧
      storage.lookup doc.sourceBackup = some source ∧
      deriveBytes host.layout host.sha source = .ok live := by
  rcases bind_eq_ok.mp bound with ⟨doc, accepted, bound⟩
  rcases bind_eq_ok.mp bound with ⟨_, _, bound⟩
  rcases bind_eq_ok.mp bound with ⟨_, _, bound⟩
  rcases bind_eq_ok.mp bound with ⟨source, loaded, bound⟩
  rcases bind_eq_ok.mp bound with ⟨_, _, bound⟩
  rcases bind_eq_ok.mp bound with ⟨_, _, bound⟩
  split at bound
  · cases bound
  · cases bound
  · rename_i expected derived
    rcases bind_eq_ok.mp bound with ⟨_, same, _⟩
    cases Decidable.of_not_not (refuseIf_eq_ok same)
    exact ⟨doc, source, accepted, load_eq_ok.mp loaded, derived⟩

/-- A derived image has the right slot alone as its boot order. -/
theorem liveOrder_of_derived {source : Bytes}
    (derived : deriveBytes host.layout host.sha source = .ok live)
    (noCollision : NoCollision host.layout host.sha source live) :
    host.liveOrder live = .ok [rightSlotName] := by
  rcases deriveBytes_eq_ok derived with ⟨rebuilt, first, second, produced⟩
  rcases (rebuild_eq_ok produced.built).rebuilt_tree with ⟨edited, pos, value, isTree, order⟩
  rw [← produced.payload noCollision] at isTree
  exact bind_eq_ok.mpr ⟨_, produced.accepted, bind_eq_ok.mpr ⟨_, isTree,
    bind_eq_ok.mpr ⟨_, order, rfl⟩⟩⟩

/-- What `arm_bind` has found when it accepts. -/
structure ArmFacts (host : Host) (storage : Storage) (live : Bytes) (target : Path) (want : String)
    (doc : Manifest) (recovery : Bytes) : Prop where
  accepted : host.manifest storage manifestPath = .ok doc
  target : target = doc.prepared
  want : want = doc.sourceSha256
  liveSha : host.shaText live = doc.sourceSha256
  source : storage.lookup doc.sourceBackup = some live
  prepared : storage.lookup doc.prepared = some recovery
  recoverySha : host.shaText recovery = doc.recoverySha256
  sameBuild : host.sameBuild doc live recovery = .ok ()
  order : host.liveOrder recovery = .ok [rightSlotName]
  derived : deriveBytes host.layout host.sha live = .ok recovery
  published : host.publishedCopies storage doc live = .ok ()

theorem armBind_eq_ok {target : Path} {want : String}
    (bound : host.armBind storage live = .ok (target, want)) :
    ∃ doc recovery, ArmFacts host storage live target want doc recovery := by
  rcases bind_eq_ok.mp bound with ⟨doc, accepted, bound⟩
  rcases bind_eq_ok.mp bound with ⟨_, _, bound⟩
  rcases bind_eq_ok.mp bound with ⟨_, _, bound⟩
  rcases bind_eq_ok.mp bound with ⟨_, liveSha, bound⟩
  rcases bind_eq_ok.mp bound with ⟨source, isSource, bound⟩
  rcases bind_eq_ok.mp bound with ⟨_, _, bound⟩
  rcases bind_eq_ok.mp bound with ⟨_, sameLive, bound⟩
  rcases bind_eq_ok.mp bound with ⟨recovery, isPrepared, bound⟩
  rcases bind_eq_ok.mp bound with ⟨_, recoverySha, bound⟩
  rcases bind_eq_ok.mp bound with ⟨_, sameBuild, bound⟩
  rcases bind_eq_ok.mp bound with ⟨pair, isPair, bound⟩
  rcases bind_eq_ok.mp bound with ⟨blob, isTree, bound⟩
  rcases bind_eq_ok.mp bound with ⟨found, isOrder, bound⟩
  rcases bind_eq_ok.mp bound with ⟨_, _, bound⟩
  rcases bind_eq_ok.mp bound with ⟨_, rightSlot, bound⟩
  rcases bind_eq_ok.mp bound with ⟨derived, isDerived, bound⟩
  rcases bind_eq_ok.mp bound with ⟨_, sameDerived, bound⟩
  rcases bind_eq_ok.mp bound with ⟨_, published, same⟩
  cases same
  cases Decidable.of_not_not (refuseIf_eq_ok sameLive)
  have rightSlot : found.2.2 = [rightSlotName] := Decidable.of_not_not (refuseIf_eq_ok rightSlot)
  have sameDerived : derived = recovery :=
    Decidable.of_not_not fun differs => refuseIf_eq_ok sameDerived (.inl differs)
  exact ⟨doc, recovery, {
    accepted := accepted
    target := rfl
    want := rfl
    liveSha := Decidable.of_not_not (refuseIf_eq_ok liveSha)
    source := load_eq_ok.mp isSource
    prepared := load_eq_ok.mp isPrepared
    recoverySha := Decidable.of_not_not (refuseIf_eq_ok recoverySha)
    sameBuild := sameBuild
    order := bind_eq_ok.mpr ⟨pair, isPair, bind_eq_ok.mpr ⟨blob, isTree,
      bind_eq_ok.mpr ⟨found, isOrder, congrArg Except.ok rightSlot⟩⟩⟩
    derived := sameDerived ▸ isDerived
    published := published }⟩

/-- The file on the boot volume that `arm-recovery` compares with its own copy. -/
theorem ArmFacts.fat {target : Path} {want : String} {doc : Manifest} {recovery : Bytes}
    (facts : ArmFacts host storage live target want doc recovery) :
    storage.lookup ⟨.boot, backupName want⟩ = some live := by
  rcases bind_eq_ok.mp facts.published with ⟨fat, isFat, published⟩
  rcases bind_eq_ok.mp published with ⟨_, same, _⟩
  have same : fat = live :=
    Decidable.of_not_not fun differs => refuseIf_eq_ok same (.inl differs)
  rw [facts.want, load_eq_ok.mp isFat, same]

theorem isPrepared_eq_true {doc : Manifest} :
    host.isPrepared storage live doc = .ok true ↔
      ∃ prepared, storage.lookup doc.sourceBackup = some live ∧
        host.shaText live = doc.sourceSha256 ∧ storage.lookup doc.prepared = some prepared ∧
        host.shaText prepared = doc.recoverySha256 ∧
        deriveBytes host.layout host.sha live = .ok prepared := by
  constructor
  · intro isPrepared
    rw [Host.isPrepared] at isPrepared
    split at isPrepared
    · rename_i source prepared isSource isFound
      split at isPrepared
      · rename_i matching
        rcases matching with ⟨_, liveSha, rfl, preparedSha⟩
        rcases bind_eq_ok.mp isPrepared with ⟨derived, caught, same⟩
        have isDerived : derived = some prepared := by
          simpa using Except.ok.inj same
        rw [isDerived] at caught
        exact ⟨prepared, isSource, liveSha, isFound, preparedSha, catchExit_eq_some.mp caught⟩
      · cases isPrepared
    · cases isPrepared
  · rintro ⟨prepared, isSource, liveSha, isFound, preparedSha, derived⟩
    have caught : catchExit (deriveBytes host.layout host.sha live) = .ok (some prepared) :=
      catchExit_eq_some.mpr derived
    simp only [Host.isPrepared, isSource, isFound, liveSha, preparedSha, caught, and_self, if_true]
    exact congrArg Except.ok (decide_eq_true rfl)

/-- The two hashes of the manifest that only `bound_source` and `arm_bind` compare. -/
def Host.SourceHashes (host : Host) (doc : Manifest) (ddr : Bytes) (spl : IdbEntry) : Prop :=
  host.shaText ddr = doc.sourceDdrSha256 ∧
    host.shaText (spl.payload.take host.layout.dtbOff) = doc.executableSha256

/-- A prepared image is of the build of its source, up to the two hashes. -/
theorem sameBuild_derived_iff {doc : Manifest} {source prepared ddr : Bytes}
    {first second : IdbEntry} (isPaired : paired host.layout host.sha source =
      .ok (ddr, first, second))
    (derived : deriveBytes host.layout host.sha source = .ok prepared) :
    host.sameBuild doc source prepared = .ok () ↔ host.SourceHashes doc ddr first := by
  rcases deriveBytes_eq_ok derived with ⟨rebuilt, first', second', produced⟩
  have facts := rebuild_eq_ok produced.built
  rcases facts.tree with ⟨blob, _, isTree, _⟩
  have code := produced.code
  have accepted := facts.accepted
  rw [isPaired] at accepted
  obtain ⟨rfl, rfl, rfl⟩ : ddr = rebuilt.ddr ∧ first = rebuilt.first ∧ second = rebuilt.second := by
    simpa using Except.ok.inj accepted
  have banner := (fdt_eq_ok_iff.mp isTree).banner
  constructor
  · intro same
    rcases bind_eq_ok.mp same with ⟨_, isSource, same⟩
    cases isPaired.symm.trans isSource
    rcases bind_eq_ok.mp same with ⟨_, isImage, same⟩
    cases produced.accepted.symm.trans isImage
    rcases bind_eq_ok.mp same with ⟨_, ddrHash, same⟩
    rcases bind_eq_ok.mp same with ⟨_, _, same⟩
    rcases bind_eq_ok.mp same with ⟨_, _, codeHash⟩
    have ddrHash := refuseIf_eq_ok ddrHash
    exact ⟨Decidable.of_not_not fun differs => ddrHash (.inr differs),
      Decidable.of_not_not (refuseIf_eq_ok codeHash)⟩
  · rintro ⟨ddrHash, codeHash⟩
    refine bind_eq_ok.mpr ⟨_, isPaired, bind_eq_ok.mpr ⟨_, produced.accepted, ?_⟩⟩
    refine bind_eq_ok.mpr ⟨(), refuseIf_of_not (by simp [ddrHash]) _, ?_⟩
    refine bind_eq_ok.mpr ⟨(), refuseIf_of_not (by simp [banner]) _, ?_⟩
    refine bind_eq_ok.mpr ⟨(), refuseIf_of_not (not_not_intro code.symm) _, ?_⟩
    exact refuseIf_of_not (not_not_intro codeHash) _

/-- On a prepared state, `arm_bind` still compares the two hashes and the files on
the boot volume, and nothing else. -/
theorem armBind_prepared_iff {doc : Manifest} {prepared ddr : Bytes} {first second : IdbEntry}
    (accepted : host.manifest storage manifestPath = .ok doc)
    (isPaired : paired host.layout host.sha live = .ok (ddr, first, second))
    (isSource : storage.lookup doc.sourceBackup = some live)
    (liveSha : host.shaText live = doc.sourceSha256)
    (isFound : storage.lookup doc.prepared = some prepared)
    (preparedSha : host.shaText prepared = doc.recoverySha256)
    (derived : deriveBytes host.layout host.sha live = .ok prepared)
    (noCollision : NoCollision host.layout host.sha live prepared) :
    (∃ bound, host.armBind storage live = .ok bound) ↔
      host.SourceHashes doc ddr first ∧ host.publishedCopies storage doc live = .ok () := by
  have isOrder : ∃ pair blob found, paired host.layout host.sha prepared = .ok pair ∧
      fdt host.layout pair.2.1.payload = .ok blob ∧ bootOrder blob = .ok found ∧
      found.2.2 = [rightSlotName] := by
    rcases bind_eq_ok.mp (liveOrder_of_derived derived noCollision) with ⟨pair, isPair, isTree⟩
    rcases bind_eq_ok.mp isTree with ⟨blob, isTree, isOrder⟩
    rcases bind_eq_ok.mp isOrder with ⟨found, isOrder, same⟩
    exact ⟨pair, blob, found, isPair, isTree, isOrder, Except.ok.inj same⟩
  constructor
  · rintro ⟨⟨target, want⟩, bound⟩
    rcases armBind_eq_ok bound with ⟨doc', recovery, facts⟩
    cases accepted.symm.trans facts.accepted
    cases isFound.symm.trans facts.prepared
    exact ⟨(sameBuild_derived_iff isPaired derived).mp facts.sameBuild, facts.published⟩
  · rintro ⟨hashes, published⟩
    rcases isOrder with ⟨pair, blob, found, isPair, isTree, isOrder, rightSlot⟩
    refine ⟨(doc.prepared, doc.sourceSha256), ?_⟩
    refine bind_eq_ok.mpr ⟨_, accepted, bind_eq_ok.mpr ⟨_, isPaired, ?_⟩⟩
    refine bind_eq_ok.mpr ⟨(), refuseIf_of_not (fun both => both.2 liveSha) _, ?_⟩
    refine bind_eq_ok.mpr ⟨(), refuseIf_of_not (not_not_intro liveSha) _, ?_⟩
    refine bind_eq_ok.mpr ⟨_, load_eq_ok.mpr isSource, ?_⟩
    refine bind_eq_ok.mpr ⟨(), refuseIf_of_not (not_not_intro liveSha) _, ?_⟩
    refine bind_eq_ok.mpr ⟨(), refuseIf_of_not (not_not_intro rfl) _, ?_⟩
    refine bind_eq_ok.mpr ⟨_, load_eq_ok.mpr isFound, ?_⟩
    refine bind_eq_ok.mpr ⟨(), refuseIf_of_not (not_not_intro preparedSha) _, ?_⟩
    refine bind_eq_ok.mpr ⟨(), (sameBuild_derived_iff isPaired derived).mpr hashes, ?_⟩
    refine bind_eq_ok.mpr ⟨_, isPair, bind_eq_ok.mpr ⟨_, isTree, bind_eq_ok.mpr ⟨_, isOrder, ?_⟩⟩⟩
    refine bind_eq_ok.mpr ⟨(), refuseIf_of_not (fun both => both.1 rightSlot) _, ?_⟩
    refine bind_eq_ok.mpr ⟨(), refuseIf_of_not (not_not_intro rightSlot) _, ?_⟩
    refine bind_eq_ok.mpr ⟨_, derived, ?_⟩
    refine bind_eq_ok.mpr ⟨(), refuseIf_of_not (by simp [preparedSha]) _, ?_⟩
    exact bind_eq_ok.mpr ⟨(), published, rfl⟩

/-- The report past the checks that every class shares. -/
theorem recoveryState_eq_ok {report : StateReport}
    (reported : host.recoveryState storage live = .ok report)
    (prepared : report.recovery ≠ .notPrepared) (valid : report.recovery ≠ .invalid) :
    ∃ doc pair, paired host.layout host.sha live = .ok pair ∧
      host.manifest storage manifestPath = .ok doc ∧
      ((report.recovery = .armed ∧ ∃ path, host.boundSource storage live = .ok path) ∨
        (report.recovery = .ready ∧ host.isPrepared storage live doc = .ok true)) := by
  rcases bind_eq_ok.mp reported with ⟨pair, isPaired, reported⟩
  rcases bind_eq_ok.mp reported with ⟨_, _, reported⟩
  split at reported
  · cases reported
    exact absurd rfl prepared
  rcases bind_eq_ok.mp reported with ⟨caught, isDoc, reported⟩
  split at reported
  · cases reported
    exact absurd rfl valid
  rename_i doc
  refine ⟨doc, pair, isPaired, catchExit_eq_some.mp isDoc, ?_⟩
  rcases bind_eq_ok.mp reported with ⟨bound, isBound, reported⟩
  split at reported
  · cases reported
    exact .inl ⟨rfl, _, catchExit_eq_some.mp isBound⟩
  rcases bind_eq_ok.mp reported with ⟨isPrepared, check, reported⟩
  cases isPrepared with
  | false =>
      cases reported
      exact absurd rfl valid
  | true =>
      cases reported
      exact .inr ⟨rfl, check⟩

theorem recoveryState_of_boundSource {path : Path}
    (bound : host.boundSource storage live = .ok path)
    (noCollision : ∀ source, deriveBytes host.layout host.sha source = .ok live →
      (∃ saved, storage.lookup saved = some source) →
      NoCollision host.layout host.sha source live) :
    host.recoveryState storage live = .ok ⟨.recovery, .armed, .available⟩ := by
  rcases boundSource_eq_ok bound with ⟨doc, source, accepted, isSource, derived⟩
  rcases manifest_present accepted with ⟨raw, present⟩
  rcases deriveBytes_eq_ok derived with ⟨_, _, _, produced⟩
  have order := liveOrder_of_derived derived (noCollision source derived ⟨_, isSource⟩)
  refine bind_eq_ok.mpr ⟨_, produced.accepted, ?_⟩
  refine bind_eq_ok.mpr ⟨_, catchExit_eq_some.mpr order, ?_⟩
  simp only [present]
  refine bind_eq_ok.mpr ⟨_, catchExit_eq_some.mpr accepted, ?_⟩
  exact bind_eq_ok.mpr ⟨_, catchExit_eq_some.mpr bound, rfl⟩

/-- A live image other than the recovery image is not armed. -/
theorem boundSource_of_differs {doc : Manifest} {pair : Bytes × IdbEntry × IdbEntry}
    (accepted : host.manifest storage manifestPath = .ok doc)
    (isPaired : paired host.layout host.sha live = .ok pair)
    (differs : host.shaText live ≠ doc.recoverySha256) :
    catchExit (host.boundSource storage live) = .ok none := by
  have refused : host.boundSource storage live =
      .error (.systemExit "live preloader is not the recovery image in the manifest") := by
    simp only [Host.boundSource, accepted, isPaired, refuseIf, bind, Except.bind, if_pos differs]
  rw [refused, catchExit]

theorem recoveryState_of_prepared {doc : Manifest} {pair : Bytes × IdbEntry × IdbEntry}
    {order : List Bytes} (isPaired : paired host.layout host.sha live = .ok pair)
    (isOrder : host.liveOrder live = .ok order)
    (accepted : host.manifest storage manifestPath = .ok doc)
    (differs : host.shaText live ≠ doc.recoverySha256)
    (isPrepared : host.isPrepared storage live doc = .ok true) :
    host.recoveryState storage live = .ok ⟨.normal, .ready, .available⟩ := by
  rcases manifest_present accepted with ⟨raw, present⟩
  rcases isPrepared_eq_true.mp isPrepared with ⟨_, isSource, liveSha, _⟩
  refine bind_eq_ok.mpr ⟨_, isPaired, bind_eq_ok.mpr ⟨_, catchExit_eq_some.mpr isOrder, ?_⟩⟩
  simp only [present]
  refine bind_eq_ok.mpr ⟨_, catchExit_eq_some.mpr accepted, ?_⟩
  refine bind_eq_ok.mpr ⟨_, boundSource_of_differs accepted isPaired differs, ?_⟩
  refine bind_eq_ok.mpr ⟨_, isPrepared, ?_⟩
  simp only [isSource, liveSha, Option.any_some, beq_self_eq_true, if_true]
  rfl

end Classes

/-- The status page reports `armed` exactly when `disarm-recovery` accepts the live
image, and `ready` only when `arm-recovery` has nothing left to check but the two
hashes that the report does not compare and the files on the boot volume. -/
theorem recoveryState_agrees (host : Host) (storage : Storage) (live : Bytes)
    (noCollision : ∀ path source produced, storage.lookup path = some source →
      deriveBytes host.layout host.sha source = .ok produced →
      NoCollision host.layout host.sha source produced) :
    ((∃ report, host.recoveryState storage live = .ok report ∧ report.recovery = .armed) ↔
      ∃ path, host.boundSource storage live = .ok path) ∧
    ∀ report, host.recoveryState storage live = .ok report → report.recovery = .ready →
      ∃ doc ddr first second, host.manifest storage manifestPath = .ok doc ∧
        paired host.layout host.sha live = .ok (ddr, first, second) ∧
        ((∃ bound, host.armBind storage live = .ok bound) ↔
          host.SourceHashes doc ddr first ∧
            host.publishedCopies storage doc live = .ok ()) := by
  refine ⟨⟨?_, ?_⟩, ?_⟩
  · rintro ⟨report, reported, isArmed⟩
    rcases recoveryState_eq_ok reported (by simp [isArmed]) (by simp [isArmed]) with
      ⟨_, _, _, _, ⟨_, bound⟩ | ⟨isReady, _⟩⟩
    · exact bound
    · rw [isArmed] at isReady
      cases isReady
  · rintro ⟨path, bound⟩
    refine ⟨_, recoveryState_of_boundSource bound ?_, rfl⟩
    rintro source derived ⟨saved, isSaved⟩
    exact noCollision saved source live isSaved derived
  · intro report reported isReady
    rcases recoveryState_eq_ok reported (by simp [isReady]) (by simp [isReady]) with
      ⟨doc, ⟨ddr, first, second⟩, isPaired, accepted, ⟨isArmed, _⟩ | ⟨_, isPrepared⟩⟩
    · rw [isReady] at isArmed
      cases isArmed
    · rcases isPrepared_eq_true.mp isPrepared with
        ⟨prepared, isSource, liveSha, isFound, preparedSha, derived⟩
      exact ⟨doc, ddr, first, second, accepted, isPaired,
        armBind_prepared_iff accepted isPaired isSource liveSha isFound preparedSha derived
          (noCollision _ live prepared isSource derived)⟩

/-! ### A prepared state -/

/-- SHA-256 at the payloads of the sample, its two images and its executable. -/
def stateSha : Sha256 where
  digest bytes :=
    if bytes.length = 4096 then
      if bytes.getD 232 0 = 0xfd then
        bytes32 0x82f45704d7ae5d58a8bfe605ceed47c444989dd4a24119af02f7d47da064dfb9
      else
        bytes32 0xe26aab8daaa45bc47e89c3cc75a2a3f16085984abc626cb76d15bd7d6db4911f
    else if bytes.length = 512 ∧ bytes.getD 0 0 = 0 then
      bytes32 0x3035fd58ad684fee75afb64bd2335b89a76e1a84f0debc27fe2cf01352d5ff13
    else sampleSha.digest bytes
  digest_length bytes := by
    split_ifs
    · rfl
    · rfl
    · rfl
    · exact sampleSha.digest_length bytes

def stockHash : String :=
  "82f45704d7ae5d58a8bfe605ceed47c444989dd4a24119af02f7d47da064dfb9"

def preparedHash : String :=
  "e26aab8daaa45bc47e89c3cc75a2a3f16085984abc626cb76d15bd7d6db4911f"

def ddrHash : String :=
  "981b8ac0e448c2a01df760648f17ba027d1ed0a9ada17aa4cc74b9694b45d4ad"

def executableHash : String :=
  "3035fd58ad684fee75afb64bd2335b89a76e1a84f0debc27fe2cf01352d5ff13"

def stateFields : List (String × Json) :=
  [("schema", .int 1), ("design", .str design), ("device", .str "my355"),
    ("source_sha256", .str stockHash),
    ("recovery_sha256", .str preparedHash),
    ("source_backup", .str (backupName stockHash)),
    ("source_ddr_sha256", .str ddrHash),
    ("spl_banner", .str splBannerText),
    ("executable_sha256", .str executableHash)]

def jsonText : String × Json → Bytes
  | (key, .int value) => text "\"" ++ text key ++ text "\": " ++ text (toString value)
  | (key, .str value) => text "\"" ++ text key ++ text "\": \"" ++ text value ++ text "\""
  | (key, _) => text "\"" ++ text key ++ text "\": null"

def manifestText : Bytes :=
  text "\x7b" ++ (text ", ").intercalate (stateFields.map jsonText) ++ text "\x7d"

def stateHost : Host where
  layout := sampleLayout
  sha := stateSha
  loads raw := if raw = manifestText then some (.obj stateFields) else none

def stateManifest : Manifest where
  fields := stateFields
  sourceSha256 := stockHash
  recoverySha256 := preparedHash
  sourceDdrSha256 := ddrHash
  executableSha256 := executableHash

/-- The recovery directory is complete; the boot volume is empty. -/
def stateStorage : Storage :=
  ((AList.insert manifestPath manifestText ∅).insert stateManifest.sourceBackup stockImage).insert
    stateManifest.prepared preparedImage

/-- An empty storage has no manifest. -/
example : (stateHost.manifest ∅ manifestPath).toOption.isNone = true := by decide

theorem stateStorage_accepted : ∃ doc, stateHost.manifest stateStorage manifestPath = .ok doc ∧
    doc.sourceSha256 = stockHash ∧ doc.recoverySha256 = preparedHash := by
  have computed : (stateHost.manifest stateStorage manifestPath).toOption.map
      (fun doc => (doc.sourceSha256, doc.recoverySha256)) =
        some (stockHash, preparedHash) := by decide +kernel
  rcases accepted : stateHost.manifest stateStorage manifestPath with error | doc
  · rw [accepted] at computed
    cases computed
  · rw [accepted] at computed
    have same := Option.some.inj computed
    exact ⟨doc, rfl, congrArg Prod.fst same, congrArg Prod.snd same⟩

theorem images_shaText : stateHost.shaText stockImage = stockHash ∧
    stateHost.shaText (sampleCopy recoverySpl recoveryDigest ++
      sampleCopy recoverySpl recoveryDigest) = preparedHash := by
  decide +kernel

theorem stockImage_shaText : stateHost.shaText stockImage = stockHash :=
  images_shaText.1

theorem preparedImage_shaText : stateHost.shaText preparedImage = preparedHash := by
  rw [preparedImage_eq]
  exact images_shaText.2

/-- At a payload the digest is that of the sample. -/
theorem stateSha_payload {bytes : Bytes} (short : bytes.length ≠ 4096)
    (other : bytes.length ≠ 512 ∨ bytes.getD 0 0 ≠ 0) :
    stateSha.digest bytes = sampleSha.digest bytes := by
  have executable : ¬(bytes.length = 512 ∧ bytes.getD 0 0 = 0) := by
    rintro ⟨length, first⟩
    exact other.elim (absurd length) (absurd first)
  simp only [stateSha, if_neg short, if_neg executable]

theorem stateSha_digests : SampleDigests stateSha where
  ddr := by
    rw [stateSha_payload (by rw [sampleDdr_length]; decide) (.inr (by decide)), sampleSha_ddr]
  stock := by
    rw [stateSha_payload (by rw [stockSpl_length]; decide)
      (.inl (by rw [stockSpl_length]; decide)), sampleSha_stock]
  recovery := by
    rw [stateSha_payload (by rw [recoverySpl_length]; decide)
      (.inl (by rw [recoverySpl_length]; decide)), sampleSha_recovery]

theorem stateSha_pair : paired sampleLayout stateSha stockImage =
    .ok (sampleDdr, sampleEntry 0 stockSpl, sampleEntry 2048 stockSpl) :=
  stockImage_pair stateSha_digests

theorem stateSha_derived : deriveBytes sampleLayout stateSha stockImage = .ok preparedImage :=
  stockImage_deriveBytes stateSha_digests

theorem stateStorage_isPrepared {doc : Manifest} (source : doc.sourceSha256 = stockHash)
    (recovery : doc.recoverySha256 = preparedHash) :
    stateHost.isPrepared stateStorage stockImage doc = .ok true := by
  refine isPrepared_eq_true.mpr ⟨preparedImage, ?_,
    stockImage_shaText.trans source.symm, ?_, preparedImage_shaText.trans recovery.symm,
    stateSha_derived⟩
  · have other : doc.sourceBackup ≠ stateManifest.prepared := by
      intro same
      cases congrArg Path.dir same
    have here : doc.sourceBackup = stateManifest.sourceBackup := by
      rw [Manifest.sourceBackup, source]
      rfl
    rw [stateStorage, AList.lookup_insert_ne other, here, AList.lookup_insert]
  · have here : doc.prepared = stateManifest.prepared := by
      rw [Manifest.prepared, recovery]
      rfl
    rw [stateStorage, here, AList.lookup_insert]

example : stateHost.shaText stockImage ≠ stateHost.shaText preparedImage := by
  rw [stockImage_shaText, preparedImage_shaText]
  decide

theorem stateSha_noCollision : NoCollision sampleLayout stateSha stockImage preparedImage := by
  intro rebuilt found built _ item _ same
  cases (stockImage_rebuild stateSha_digests).symm.trans built
  have same : stateSha.digest item.payload = recoveryDigest :=
    same.trans stateSha_digests.recovery
  simp only [stateSha] at same
  split_ifs at same
  · exact absurd same (by decide)
  · exact absurd same (by decide)
  · exact absurd same (by decide)
  · exact eq_recoverySpl_of_digest same

/-- Ready is reported, although the boot volume has no copy of the source. -/
theorem stateStorage_ready : ∃ report,
    stateHost.recoveryState stateStorage stockImage = .ok report ∧ report.recovery = .ready ∧
      ∀ bound, stateHost.armBind stateStorage stockImage ≠ .ok bound := by
  rcases stateStorage_accepted with ⟨doc, accepted, source, recovery⟩
  have isOrder : stateHost.liveOrder stockImage = .ok sourceOrder :=
    bind_eq_ok.mpr ⟨_, stateSha_pair, bind_eq_ok.mpr ⟨_, stockSpl_tree,
      eq_ok_of_toOption (by decide +kernel)⟩⟩
  have differs : stateHost.shaText stockImage ≠ doc.recoverySha256 := by
    rw [stockImage_shaText, recovery]
    decide
  have isPrepared := stateStorage_isPrepared source recovery
  refine ⟨_, recoveryState_of_prepared stateSha_pair isOrder accepted differs isPrepared,
    rfl, fun bound isBound => ?_⟩
  rcases isPrepared_eq_true.mp isPrepared with
    ⟨_, isSource, liveSha, isFound, preparedSha, derived⟩
  cases stateSha_derived.symm.trans derived
  have published := ((armBind_prepared_iff accepted stateSha_pair isSource liveSha isFound
    preparedSha derived stateSha_noCollision).mp ⟨bound, isBound⟩).2
  rcases bind_eq_ok.mp published with ⟨_, fat, _⟩
  have absent : stateStorage.lookup ⟨.boot, backupName doc.sourceSha256⟩ = none := by
    rw [source]
    decide
  rw [load_eq_ok, absent] at fat
  cases fat

/-- The state above, with the report that it gets. -/
theorem stateStorage_agrees :
    ((∃ report, stateHost.recoveryState stateStorage stockImage = .ok report ∧
        report.recovery = .armed) ↔
      ∃ path, stateHost.boundSource stateStorage stockImage = .ok path) ∧
    ∀ report, stateHost.recoveryState stateStorage stockImage = .ok report →
      report.recovery = .ready →
      ∃ doc ddr first second, stateHost.manifest stateStorage manifestPath = .ok doc ∧
        paired stateHost.layout stateHost.sha stockImage = .ok (ddr, first, second) ∧
        ((∃ bound, stateHost.armBind stateStorage stockImage = .ok bound) ↔
          stateHost.SourceHashes doc ddr first ∧
            stateHost.publishedCopies stateStorage doc stockImage = .ok ()) := by
  refine recoveryState_agrees stateHost stateStorage stockImage ?_
  intro path source produced found derived
  rw [stateStorage] at found
  rcases eq_or_ne path stateManifest.prepared with rfl | notPrepared
  · cases (AList.lookup_insert _).symm.trans found
    exact absurd derived ((deriveBytes_derived stateSha_derived).refuses stateSha_noCollision _)
  rw [AList.lookup_insert_ne notPrepared] at found
  rcases eq_or_ne path stateManifest.sourceBackup with rfl | notSource
  · cases (AList.lookup_insert _).symm.trans found
    cases stateSha_derived.symm.trans derived
    exact stateSha_noCollision
  rw [AList.lookup_insert_ne notSource] at found
  rcases eq_or_ne path manifestPath with rfl | notManifest
  · cases (AList.lookup_insert _).symm.trans found
    have refused : (deriveBytes sampleLayout stateSha manifestText).toOption = none := by
      decide +kernel
    have produces : (deriveBytes sampleLayout stateSha manifestText).toOption = some produced :=
      congrArg Except.toOption derived
    rw [refused] at produces
    cases produces
  · rw [AList.lookup_insert_ne notManifest] at found
    cases found

end Zlyme.Preloader
