import Zlyme.Foundation.BestSoFar
import Zlyme.Foundation.CheckedInt
import Zlyme.Foundation.Decimal

/-! # The choice of a mode

`zlyme_hdmi_choose` chooses a mode of one connector, and `zlyme_hdmi_pick` a connector of the
resource list. A refresh rate is only compared where it is positive, so that no difference
overflows.
-/

namespace Zlyme.Hdmi

open Foundation Foundation.Decimal

abbrev Text : Type :=
  List UInt8

/-! ## The code -/

/-- `zlyme_hdmi_mode` -/
structure Mode where
  width : Int
  height : Int
  refreshMhz : Int
  vrefresh : Int
  preferred : Bool
  deriving DecidableEq, Repr

def usable (mode : Mode) : Bool :=
  0 < mode.width && 0 < mode.height && 0 < mode.refreshMhz

/-- How far a rate is from 60 Hz. -/
def delta (refreshMhz : Int) : Int :=
  if refreshMhz - 60000 < 0 then -(refreshMhz - 60000) else refreshMhz - 60000

def near60 (refreshMhz : Int) : Bool :=
  delta refreshMhz ≤ 500

def is720p60 (mode : Mode) : Bool :=
  usable mode && mode.width == 1280 && mode.height == 720 && near60 mode.refreshMhz

/-- `zlyme_hdmi_choice` -/
structure Choice where
  width : Int
  height : Int
  refreshMhz : Int
  deriving DecidableEq, Repr

/-- The 720p mode in the place of the one so far. -/
def nearer (mode best : Mode) : Bool :=
  delta mode.refreshMhz < delta best.refreshMhz ||
    (delta mode.refreshMhz == delta best.refreshMhz && mode.preferred && !best.preferred)

/-- The chosen mode. -/
def bestMode (modes : List Mode) : Option Mode :=
  (bestOf is720p60 nearer modes).or
    ((modes.find? fun mode => usable mode && mode.preferred).or (modes.find? usable))

/-- The choice, or nothing where `chosen` stays 0. -/
def zlymeHdmiChoose (modes : List Mode) : Option Choice :=
  (bestMode modes).map fun mode => ⟨mode.width, mode.height, mode.refreshMhz⟩

/-- `zlyme_hdmi_connector`, with as many modes as `count` says. -/
structure Connector where
  card : Int
  connectorId : Int
  hdmia : Bool
  connected : Bool
  monitorIndex : Int
  name : Text
  modes : List Mode
  deriving DecidableEq, Repr

/-- `zlyme_hdmi_output` -/
structure Output where
  choice : Choice
  card : Int
  connectorId : Int
  monitorIndex : Int
  vrefresh : Int
  modeIndex : Nat
  name : Text
  deriving DecidableEq, Repr

def isNameByte (byte : UInt8) : Bool :=
  (0x41 ≤ byte && byte ≤ 0x5a) || (0x61 ≤ byte && byte ≤ 0x7a) || isDigit byte ||
    byte == 0x2d || byte == 0x5f || byte == 0x2e

/-- `copy_name`, into 32 bytes. -/
def copyName (source : Text) : Option Text :=
  if (source.take 31).all isNameByte = false then none
  else if 31 < source.length then none
  else if source = [] then none
  else some source

/-- What the loop over the connectors keeps. -/
structure Scan where
  best : Option Nat
  bestDelta : Int
  have720 : Bool
  deriving DecidableEq, Repr

def scanConnector (scan : Scan) (entry : Connector × Nat) : Scan :=
  if !entry.1.hdmia || !entry.1.connected || entry.1.modes.isEmpty then scan
  else
    match zlymeHdmiChoose entry.1.modes with
    | none => scan
    | some cur =>
        if cur.width = 1280 ∧ cur.height = 720 ∧ delta cur.refreshMhz ≤ 500 then
          if !scan.have720 || delta cur.refreshMhz < scan.bestDelta then
            ⟨some entry.2, delta cur.refreshMhz, true⟩
          else scan
        else if !scan.have720 && scan.best.isNone then { scan with best := some entry.2 }
        else scan

def scanConnectors (cons : List Connector) : Scan :=
  cons.zipIdx.foldl scanConnector ⟨none, 0, false⟩

/-- A mode with the size and the rate of a choice. -/
def sameMode (choice : Choice) (mode : Mode) : Bool :=
  mode.width == choice.width && mode.height == choice.height && mode.refreshMhz == choice.refreshMhz

/-- The index of the connector and the output, or nothing for a status of -1. -/
def zlymeHdmiPick (cons : List Connector) : Option (Nat × Output) := do
  let best ← (scanConnectors cons).best
  let con ← cons[best]?
  let choice ← zlymeHdmiChoose con.modes
  let modeIndex ← con.modes.findIdx? (sameMode choice)
  let mode ← con.modes[modeIndex]?
  let name ← copyName con.name
  return (best, {
    choice := choice
    card := con.card
    connectorId := con.connectorId
    monitorIndex := con.monitorIndex
    vrefresh := mode.vrefresh
    modeIndex := modeIndex
    name := name })

def ascii (literal : String) : Text :=
  literal.toList.map Char.toUInt8

/-- `connector_name` of an HDMI-A connector -/
def connectorName (typeId : CInt) : Text :=
  ascii "HDMI-A-" ++ decimal (if 0 < typeId.val then typeId.val else 1).toNat

/-! ## What is wanted -/

/-- A connected HDMI-A connector that has modes. -/
def Connector.live (con : Connector) : Bool :=
  con.hdmia && con.connected && !con.modes.isEmpty

/-- The mode that a connector would show, if it can show any. -/
def Connector.chosen (con : Connector) : Option Mode :=
  if con.live then bestMode con.modes else none

/-- The output belongs to a connected HDMI-A connector, and its index denotes a usable mode of it
that has the size and the rate of the choice. -/
structure Denotes (con : Connector) (out : Output) : Prop where
  hdmia : con.hdmia = true
  connected : con.connected = true
  mode : ∃ mode, con.modes[out.modeIndex]? = some mode ∧ usable mode = true ∧
    sameMode out.choice mode = true ∧ out.vrefresh = mode.vrefresh
  same : out.card = con.card ∧ out.connectorId = con.connectorId ∧
    out.monitorIndex = con.monitorIndex ∧ out.name = con.name

/-- Some connected HDMI-A connector has a 720p mode near 60 Hz. -/
def Offers720 (cons : List Connector) : Prop :=
  ∃ con ∈ cons, con.hdmia = true ∧ con.connected = true ∧ ∃ mode ∈ con.modes, is720p60 mode = true

/-- The choice is 720p, and no 720p mode of a connected HDMI-A connector is nearer to 60 Hz. -/
structure Nearest (cons : List Connector) (choice : Choice) : Prop where
  width : choice.width = 1280
  height : choice.height = 720
  least : ∀ con ∈ cons, con.hdmia = true → con.connected = true → ∀ mode ∈ con.modes,
    mode.width = 1280 → mode.height = 720 → delta choice.refreshMhz ≤ delta mode.refreshMhz

/-! ## One connector -/

theorem is720p60_iff {mode : Mode} : is720p60 mode = true ↔
    usable mode = true ∧ mode.width = 1280 ∧ mode.height = 720 ∧ delta mode.refreshMhz ≤ 500 := by
  simp [is720p60, near60, and_assoc]

theorem usable_iff {mode : Mode} : usable mode = true ↔
    0 < mode.width ∧ 0 < mode.height ∧ 0 < mode.refreshMhz := by
  simp [usable, and_assoc]

theorem delta_le_of_nearer {mode best : Mode} (isNearer : nearer mode best = true) :
    delta mode.refreshMhz ≤ delta best.refreshMhz := by
  simp [nearer] at isNearer
  omega

theorem le_delta_of_not_nearer {mode best : Mode} (fails : nearer mode best = false) :
    delta best.refreshMhz ≤ delta mode.refreshMhz := by
  simp [nearer] at fails
  exact fails.1

section Modes

variable {modes : List Mode} {mode : Mode}

theorem mem_of_bestMode (isBest : bestMode modes = some mode) : mode ∈ modes ∧ usable mode = true := by
  rw [bestMode, Option.or_eq_some_iff, Option.or_eq_some_iff] at isBest
  rcases isBest with near | ⟨-, preferred | ⟨-, first⟩⟩
  · have known := mem_of_bestOf near
    exact ⟨known.1, (is720p60_iff.mp known.2).1⟩
  · have holds := List.find?_some preferred
    rw [Bool.and_eq_true] at holds
    exact ⟨List.mem_of_find?_eq_some preferred, holds.1⟩
  · exact ⟨List.mem_of_find?_eq_some first, List.find?_some first⟩

/-- A 720p mode near 60 Hz comes before all other modes. -/
theorem bestMode_least (isBest : bestMode modes = some mode) {other : Mode} (member : other ∈ modes)
    (isNear : is720p60 other = true) :
    is720p60 mode = true ∧ delta mode.refreshMhz ≤ delta other.refreshMhz := by
  cases found : bestOf is720p60 nearer modes with
  | none =>
      rw [bestOf_eq_none_iff.mp found other member] at isNear
      cases isNear
  | some best =>
      rw [bestMode, found, Option.some_or, Option.some.injEq] at isBest
      subst isBest
      have least : ∀ item ∈ modes, is720p60 item = true →
          delta best.refreshMhz ≤ delta item.refreshMhz := by
        apply bestOf_least (fun mode => delta mode.refreshMhz) _ _ found
        · intro item old wins
          exact delta_le_of_nearer wins
        · intro item old loses
          exact le_delta_of_not_nearer loses
      exact ⟨(mem_of_bestOf found).2, least other member isNear⟩

theorem bestMode_isSome (member : mode ∈ modes) (isUsable : usable mode = true) :
    (bestMode modes).isSome = true := by
  have found : (modes.find? usable).isSome = true := List.find?_isSome.mpr ⟨mode, member, isUsable⟩
  simp [bestMode, found]

end Modes

/-! ## The loop over the connectors -/

/-- The connector would show 720p near 60 Hz. -/
def shows720 (entry : Connector × Nat) : Bool :=
  entry.1.chosen.any is720p60

/-- How far the rate that the connector would show is from 60 Hz. -/
def shownDelta (entry : Connector × Nat) : Int :=
  (entry.1.chosen.map fun mode => delta mode.refreshMhz).getD 0

def shownNearer (entry best : Connector × Nat) : Bool :=
  shownDelta entry < shownDelta best

theorem scanConnector_eq (scan : Scan) (entry : Connector × Nat) :
    scanConnector scan entry =
      match entry.1.chosen with
      | none => scan
      | some mode =>
          if is720p60 mode then
            if !scan.have720 || delta mode.refreshMhz < scan.bestDelta then
              ⟨some entry.2, delta mode.refreshMhz, true⟩
            else scan
          else if !scan.have720 && scan.best.isNone then { scan with best := some entry.2 }
          else scan := by
  unfold scanConnector Connector.chosen Connector.live
  by_cases live : (entry.1.hdmia && entry.1.connected && !entry.1.modes.isEmpty) = true
  · have notSkipped : (!entry.1.hdmia || !entry.1.connected || entry.1.modes.isEmpty) = false := by
      simpa [and_assoc] using live
    rw [notSkipped, if_pos live]
    simp only [Bool.false_eq_true, if_false, zlymeHdmiChoose]
    cases best : bestMode entry.1.modes with
    | none => rfl
    | some mode =>
        have isUsable := (mem_of_bestMode best).2
        have near : is720p60 mode = true ↔
            mode.width = 1280 ∧ mode.height = 720 ∧ delta mode.refreshMhz ≤ 500 := by
          simp [is720p60_iff, isUsable]
        simp only [Option.map_some, near]
  · have skipped : (!entry.1.hdmia || !entry.1.connected || entry.1.modes.isEmpty) = true := by
      rw [Bool.not_eq_true] at live
      rw [← Bool.not_eq_false', ← live]
      simp
    rw [skipped, if_neg live]
    rfl

/-- The loop keeps the nearest connector with 720p, or else the first that can show something. -/
theorem scan_eq (entries : List (Connector × Nat)) :
    entries.foldl scanConnector ⟨none, 0, false⟩ =
      match bestOf shows720 shownNearer entries with
      | some entry => ⟨some entry.2, shownDelta entry, true⟩
      | none => ⟨(entries.find? fun entry => entry.1.chosen.isSome).map Prod.snd, 0, false⟩ := by
  induction entries using List.reverseRecOn with
  | nil => rfl
  | append_singleton entries entry induction =>
      rw [List.foldl_append, List.foldl_cons, List.foldl_nil, induction, bestOf_concat, scanConnector_eq,
        List.find?_append]
      cases chosen : entry.1.chosen with
      | none =>
          have notTaken : shows720 entry = false := by simp [shows720, chosen]
          have notFound : ([entry].find? fun entry => entry.1.chosen.isSome) = none := by simp [chosen]
          rw [notFound, Option.or_none]
          simp [keepBest, notTaken]
      | some mode =>
          have size : shownDelta entry = delta mode.refreshMhz := by simp [shownDelta, chosen]
          have isFound : ([entry].find? fun entry => entry.1.chosen.isSome) = some entry := by
            simp [chosen]
          rw [isFound]
          cases near : is720p60 mode with
          | true =>
              have taken : shows720 entry = true := by simp only [shows720, chosen, Option.any_some, near]
              cases best : bestOf shows720 shownNearer entries with
              | none => simp [keepBest, taken, size, near]
              | some old =>
                  simp only [keepBest, taken, shownNearer, size]
                  by_cases wins : delta mode.refreshMhz < shownDelta old
                  · simp [wins, size, near]
                  · simp [wins, near]
          | false =>
              have notTaken : shows720 entry = false := by
                simp only [shows720, chosen, Option.any_some, near]
              cases best : bestOf shows720 shownNearer entries with
              | some old => simp [keepBest, notTaken, near]
              | none =>
                  cases found : entries.find? fun entry => entry.1.chosen.isSome with
                  | none => simp [keepBest, notTaken, near]
                  | some first => simp [keepBest, notTaken, near]

/-! ## The pick -/

section Pick

variable {cons : List Connector} {con : Connector} {mode : Mode} {index : Nat} {out : Output}

theorem chosen_eq_some : con.chosen = some mode ↔
    con.hdmia = true ∧ con.connected = true ∧ bestMode con.modes = some mode := by
  unfold Connector.chosen Connector.live
  constructor
  · intro isChosen
    split at isChosen
    · rename_i live
      simp only [Bool.and_eq_true] at live
      exact ⟨live.1.1, live.1.2, isChosen⟩
    · cases isChosen
  · rintro ⟨hdmia, connected, best⟩
    have nonempty : con.modes ≠ [] := List.ne_nil_of_mem (mem_of_bestMode best).1
    simp [hdmia, connected, nonempty, best]

/-- The loop ends at a connector that can show something, and at the one nearest to 60 Hz if one
can show 720p near it. -/
theorem scan_best (isBest : (scanConnectors cons).best = some index) :
    ∃ con mode, cons[index]? = some con ∧ con.chosen = some mode ∧
      ∀ other ∈ cons, ∀ shown, other.chosen = some shown → is720p60 shown = true →
        is720p60 mode = true ∧ delta mode.refreshMhz ≤ delta shown.refreshMhz := by
  rw [scanConnectors, scan_eq] at isBest
  cases found : bestOf shows720 shownNearer cons.zipIdx with
  | none =>
      rw [found] at isBest
      rcases Option.map_eq_some_iff.mp isBest with ⟨⟨con, position⟩, isFirst, rfl⟩
      have member := List.mem_of_find?_eq_some isFirst
      have shows : con.chosen.isSome = true :=
        List.find?_some (p := fun entry : Connector × Nat => entry.1.chosen.isSome) isFirst
      rcases Option.isSome_iff_exists.mp shows with ⟨mode, isChosen⟩
      refine ⟨con, mode, List.mem_zipIdx_iff_getElem?.mp member, isChosen, ?_⟩
      intro other isOther shown isShown near
      rcases List.getElem?_of_mem isOther with ⟨place, isPlace⟩
      have fails := bestOf_eq_none_iff.mp found (other, place) (List.mem_zipIdx_iff_getElem?.mpr isPlace)
      simp only [shows720, isShown, Option.any_some, near] at fails
      cases fails
  | some entry =>
      rw [found] at isBest
      rcases entry with ⟨con, position⟩
      cases isBest
      have known := mem_of_bestOf found
      have shows : con.chosen.any is720p60 = true := known.2
      cases isChosen : con.chosen with
      | none =>
          rw [isChosen] at shows
          cases shows
      | some mode =>
      rw [isChosen, Option.any_some] at shows
      refine ⟨con, mode, List.mem_zipIdx_iff_getElem?.mp known.1, isChosen, ?_⟩
      intro other isOther shown isShown isNear
      rcases List.getElem?_of_mem isOther with ⟨place, isPlace⟩
      have least := bestOf_least shownDelta (fun _ _ wins => Int.le_of_lt (of_decide_eq_true wins))
        (fun _ _ loses => Int.not_lt.mp (of_decide_eq_false loses)) found (other, place)
        (List.mem_zipIdx_iff_getElem?.mpr isPlace) (by simp only [shows720, isShown, Option.any_some, isNear])
      simp only [shownDelta, isChosen, isShown, Option.map_some, Option.getD_some] at least
      exact ⟨shows, least⟩

/-- The index of the first mode with the size and the rate of the choice. -/
theorem findIdx_sameMode (isBest : bestMode con.modes = some mode) :
    ∃ position other, con.modes.findIdx? (sameMode ⟨mode.width, mode.height, mode.refreshMhz⟩) =
      some position ∧ con.modes[position]? = some other ∧
        sameMode ⟨mode.width, mode.height, mode.refreshMhz⟩ other = true := by
  have same : sameMode ⟨mode.width, mode.height, mode.refreshMhz⟩ mode = true := by simp [sameMode]
  have exists_same : ∃ other ∈ con.modes,
      sameMode ⟨mode.width, mode.height, mode.refreshMhz⟩ other = true :=
    ⟨mode, (mem_of_bestMode isBest).1, same⟩
  cases isIndex : con.modes.findIdx? (sameMode ⟨mode.width, mode.height, mode.refreshMhz⟩) with
  | none =>
      rcases exists_same with ⟨other, member, isSame⟩
      rw [List.findIdx?_eq_none_iff.mp isIndex other member] at isSame
      cases isSame
  | some position =>
      rcases List.findIdx?_eq_some_iff_getElem.mp isIndex with ⟨inside, isSame, -⟩
      exact ⟨position, con.modes[position], rfl, List.getElem?_eq_getElem inside, isSame⟩

theorem usable_of_sameMode {other : Mode}
    (same : sameMode ⟨mode.width, mode.height, mode.refreshMhz⟩ other = true)
    (isUsable : usable mode = true) : usable other = true := by
  simp only [sameMode, Bool.and_eq_true, beq_iff_eq] at same
  rw [usable_iff] at isUsable ⊢
  omega

theorem copyName_eq_some {source name : Text} (isName : copyName source = some name) : name = source := by
  unfold copyName at isName
  split_ifs at isName
  exact (Option.some.inj isName).symm

/-- What is picked, from the connector that the loop ends at. -/
theorem pick_eq (isBest : (scanConnectors cons).best = some index) (isCon : cons[index]? = some con)
    (isChosen : con.chosen = some mode) :
    ∃ out, zlymeHdmiPick cons = (copyName con.name).map (fun _ => (index, out)) ∧
      out.choice = ⟨mode.width, mode.height, mode.refreshMhz⟩ ∧ Denotes con out := by
  rcases chosen_eq_some.mp isChosen with ⟨hdmia, connected, best⟩
  rcases findIdx_sameMode best with ⟨position, other, isIndex, isOther, same⟩
  have choice : zlymeHdmiChoose con.modes = some ⟨mode.width, mode.height, mode.refreshMhz⟩ := by
    rw [zlymeHdmiChoose, best]
    rfl
  refine ⟨⟨⟨mode.width, mode.height, mode.refreshMhz⟩, con.card, con.connectorId, con.monitorIndex,
    other.vrefresh, position, con.name⟩, ?_, rfl, ?_⟩
  · simp only [zlymeHdmiPick, isBest, isCon, choice, isIndex, isOther, Option.bind_eq_bind,
      Option.bind_some]
    cases copied : copyName con.name with
    | none => rfl
    | some name =>
        rw [copyName_eq_some copied]
        rfl
  · exact {
      hdmia := hdmia
      connected := connected
      mode := ⟨other, isOther, usable_of_sameMode same (mem_of_bestMode best).2, same, rfl⟩
      same := ⟨rfl, rfl, rfl, rfl⟩ }

theorem scan_best_isSome (isCon : con ∈ cons) (isChosen : con.chosen = some mode) :
    ((scanConnectors cons).best).isSome = true := by
  rw [scanConnectors, scan_eq]
  cases bestOf shows720 shownNearer cons.zipIdx with
  | some entry => rfl
  | none =>
      rcases List.getElem?_of_mem isCon with ⟨place, isPlace⟩
      have found : (cons.zipIdx.find? fun entry => entry.1.chosen.isSome).isSome = true :=
        List.find?_isSome.mpr ⟨(con, place), List.mem_zipIdx_iff_getElem?.mpr isPlace, by simp [isChosen]⟩
      simpa using found

/-- Every 720p mode is at least as far from 60 Hz as a 720p mode near 60 Hz that is as near as all
of these. -/
theorem delta_le_of_size {least : Int} (near : least ≤ 500) (width : mode.width = 1280)
    (height : mode.height = 720) (below : is720p60 mode = true → least ≤ delta mode.refreshMhz) :
    least ≤ delta mode.refreshMhz := by
  by_cases isNear : is720p60 mode = true
  · exact below isNear
  · rw [is720p60_iff, usable_iff] at isNear
    by_cases rate : 0 < mode.refreshMhz
    · by_cases close : delta mode.refreshMhz ≤ 500
      · exact absurd ⟨⟨by omega, by omega, rate⟩, width, height, close⟩ isNear
      · omega
    · rw [delta]
      omega

theorem nearest_of_scan
    (least : ∀ other ∈ cons, ∀ shown, other.chosen = some shown → is720p60 shown = true →
      is720p60 mode = true ∧ delta mode.refreshMhz ≤ delta shown.refreshMhz)
    (offers : Offers720 cons) : Nearest cons ⟨mode.width, mode.height, mode.refreshMhz⟩ := by
  have below : ∀ other ∈ cons, other.hdmia = true → other.connected = true → ∀ candidate ∈ other.modes,
      is720p60 candidate = true →
        is720p60 mode = true ∧ delta mode.refreshMhz ≤ delta candidate.refreshMhz := by
    intro other isOther hdmia connected candidate isCandidate near
    have shows := bestMode_isSome isCandidate (is720p60_iff.mp near).1
    rcases Option.isSome_iff_exists.mp shows with ⟨shown, isShown⟩
    have first := bestMode_least isShown isCandidate near
    have second := least other isOther shown (chosen_eq_some.mpr ⟨hdmia, connected, isShown⟩) first.1
    exact ⟨second.1, Int.le_trans second.2 first.2⟩
  rcases offers with ⟨offering, isOffering, hdmia, connected, offered, isOffered, near⟩
  have known := is720p60_iff.mp (below offering isOffering hdmia connected offered isOffered near).1
  exact {
    width := known.2.1
    height := known.2.2.1
    least := fun other isOther hdmia connected candidate isCandidate width height =>
      delta_le_of_size known.2.2.2 width height fun near =>
        (below other isOther hdmia connected candidate isCandidate near).2 }

end Pick

/-! ## Names -/

theorem isNameByte_of_isDigit {byte : UInt8} (digit : isDigit byte = true) : isNameByte byte = true := by
  simp [isNameByte, digit]

/-- The names of HDMI-A connectors are accepted. -/
theorem copyName_connectorName (typeId : CInt) :
    copyName (connectorName typeId) = some (connectorName typeId) := by
  have bytes : (connectorName typeId).all isNameByte = true := by
    rw [connectorName, List.all_append, Bool.and_eq_true]
    refine ⟨by decide, ?_⟩
    rw [List.all_eq_true]
    exact fun byte member => isNameByte_of_isDigit (isDigit_of_mem_decimal member)
  have bounds := typeId.property
  have digits : (decimal (if 0 < typeId.val then typeId.val else 1).toNat).length ≤ 10 := by
    apply decimal_length_le (by decide)
    split <;> omega
  have prefixLength : (ascii "HDMI-A-").length = 7 := by decide
  have length : (connectorName typeId).length ≤ 17 := by
    rw [connectorName, List.length_append]
    omega
  have nonempty : connectorName typeId ≠ [] := by
    rw [connectorName]
    exact List.append_ne_nil_of_left_ne_nil (by decide) _
  rw [copyName, List.take_of_length_le (by omega), bytes]
  simp [nonempty]
  omega

end Zlyme.Hdmi
