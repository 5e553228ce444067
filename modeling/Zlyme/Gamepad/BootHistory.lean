import Zlyme.Foundation.Median
import Zlyme.Gamepad.AppliedCentre

/-! # Where a boot centre comes from

The driver keeps a window of samples and one candidate for each axis. Against the whole
list of frames noted since `mf_probe`, a centre taken at boot is the median of a full
window of consecutive frames, the window before it was stable and agreed with it, and all
of these frames came after the settle delay and inside the budget.
-/

namespace Zlyme.Gamepad

/-! ## The frames noted in a run -/

/-- One call of `mf_boot_note`. -/
structure MfNote where
  now : Jiffies
  raw : MfRaw

def feedNotes (kernel : Kernel) (now : Jiffies) (pad : MfPad) (byte : UInt8) : List MfNote :=
  (mfFeed kernel now pad byte).2.toList.map fun frame => { now, raw := frameRaw frame }

def feedAllNotes (kernel : Kernel) (pad : MfPad) : List (Jiffies × UInt8) → List MfNote
  | [] => []
  | (now, byte) :: rest =>
      feedNotes kernel now pad byte ++ feedAllNotes kernel (mfFeed kernel now pad byte).1 rest

def stepNotes (kernel : Kernel) (pad : MfPad) : MfEvent → List MfNote
  | .receive chunk => if pad.portOpen = false then [] else feedAllNotes kernel pad chunk
  | .calibrationLeft _ | .calibrationRight _ | .deadzone _ _ | .portOpen _ | .portClose => []

/-- The frames noted by some events, in order. -/
def runNotes (kernel : Kernel) (pad : MfPad) : List MfEvent → List MfNote
  | [] => []
  | event :: rest => stepNotes kernel pad event ++ runNotes kernel (mfStep kernel pad event) rest

/-! ## The frames that count -/

/-- The frames from the end of the settle delay, which starts at the first of all. -/
def settledNotes (kernel : Kernel) : List MfNote → List MfNote
  | [] => []
  | first :: rest => (first :: rest).dropWhile fun note =>
      timeBefore note.now (first.now + kernel.msecsToJiffies mfBootSettleMs)

/-- The frames up to the end of the budget, which starts at the first of them. -/
def budgetNotes (kernel : Kernel) : List MfNote → List MfNote
  | [] => []
  | release :: rest => (release :: rest).takeWhile fun note =>
      !timeAfter note.now (release.now + kernel.msecsToJiffies mfBootBudgetMs)

def collectedNotes (kernel : Kernel) (notes : List MfNote) : List MfNote :=
  budgetNotes kernel (settledNotes kernel notes)

/-- What one axis read in some frames. -/
def column (id : MfAxisId) (notes : List MfNote) : List Nat :=
  notes.map fun note => (note.raw id).toNat

/-- A full window whose readings lie close together, with their median. -/
structure StableWindow (window : List Nat) (middle : Nat) : Prop where
  full : window.length = mfBootWindow
  close : ∀ low ∈ window, ∀ high ∈ window, high ≤ low + mfBootSpread
  median : Foundation.IsMedian window middle

/-- Two windows in a row are stable and agree, and the centre is the second median. -/
def Acquired (id : MfAxisId) (frames : List MfNote) (centre : Int) : Prop :=
  ∃ earlier first second later middle last,
    frames = earlier ++ first ++ second ++ later ∧
      mfBootWindow ∣ earlier.length ∧
      StableWindow (column id first) middle ∧ StableWindow (column id second) last ∧
      ((last : Int) - middle).natAbs ≤ mfBootMatch ∧ centre = last

theorem Acquired.mono {id : MfAxisId} {frames longer : List MfNote} {centre : Int}
    (acquired : Acquired id frames centre) (isPrefix : frames <+: longer) :
    Acquired id longer centre := by
  rcases acquired with ⟨earlier, first, second, later, middle, last, split, rest⟩
  rcases isPrefix with ⟨new, rfl⟩
  exact ⟨earlier, first, second, later ++ new, middle, last, by simp [split], rest⟩

/-! ## A window that `mf_window_stable` accepts -/

theorem medianInsert_perm (value : UInt8) (sorted : List UInt8) :
    (medianInsert value sorted).Perm (value :: sorted) := by
  induction sorted with
  | nil => exact List.Perm.refl _
  | cons top rest induction =>
      rw [medianInsert]
      split
      · exact (induction.cons top).trans (List.Perm.swap value top rest)
      · exact List.Perm.refl _

theorem medianInsert_sorted (value : UInt8) {sorted : List UInt8}
    (descending : sorted.Pairwise (fun high low => low.toNat ≤ high.toNat)) :
    (medianInsert value sorted).Pairwise (fun high low => low.toNat ≤ high.toNat) := by
  induction sorted with
  | nil => exact List.pairwise_singleton _ _
  | cons top rest induction =>
      have parts := List.pairwise_cons.mp descending
      rw [medianInsert]
      split
      · rename_i larger
        refine List.pairwise_cons.mpr ⟨?_, induction parts.2⟩
        intro item member
        rcases List.mem_cons.mp ((medianInsert_perm value rest).mem_iff.mp member) with rfl | old
        · exact Nat.le_of_lt (UInt8.lt_iff_toNat_lt.mp larger)
        · exact parts.1 item old
      · rename_i smaller
        have topLe : top.toNat ≤ value.toNat :=
          Nat.le_of_not_lt fun less => smaller (UInt8.lt_iff_toNat_lt.mpr less)
        refine List.pairwise_cons.mpr ⟨?_, descending⟩
        intro item member
        rcases List.mem_cons.mp member with rfl | old
        · exact topLe
        · exact Nat.le_trans (parts.1 item old) topLe

theorem medianSort_spec (src : List UInt8) :
    ∀ start : List UInt8, start.Pairwise (fun high low => low.toNat ≤ high.toNat) →
      let sorted := src.foldl (fun sorted value => medianInsert value sorted) start
      sorted.Perm (src ++ start) ∧
        sorted.Pairwise (fun high low => low.toNat ≤ high.toNat) := by
  induction src with
  | nil => exact fun start descending => ⟨List.Perm.refl _, descending⟩
  | cons value rest induction =>
      intro start descending
      have later := induction (medianInsert value start) (medianInsert_sorted value descending)
      refine ⟨later.1.trans ?_, later.2⟩
      exact ((medianInsert_perm value start).append_left rest).trans List.perm_middle

theorem mfMedian_isMedian {window : List UInt8} (odd : window.length % 2 = 1) :
    Foundation.IsMedian (window.map UInt8.toNat) (mfMedian window window.length).toNat := by
  have sort := medianSort_spec window [] List.Pairwise.nil
  dsimp only at sort
  rw [mfMedian, List.take_length]
  generalize window.foldl (fun sorted value => medianInsert value sorted) [] = sorted at sort ⊢
  rw [List.append_nil] at sort
  have lengths : (sorted.reverse.map UInt8.toNat).length = window.length := by
    rw [List.length_map, List.length_reverse, sort.1.length_eq]
  have ascending : (sorted.reverse.map UInt8.toNat).Pairwise (· ≤ ·) := by
    rw [List.pairwise_map, List.pairwise_reverse]
    exact sort.2
  have inside : window.length / 2 < sorted.reverse.length := by
    rw [List.length_reverse, sort.1.length_eq]
    omega
  have isMiddle : (sorted.reverse.map UInt8.toNat)[
      (sorted.reverse.map UInt8.toNat).length / 2]? =
        some (sorted.reverse.getD (window.length / 2) 0).toNat := by
    rw [lengths, List.getElem?_map, List.getD_eq_getElem?_getD,
      List.getElem?_eq_getElem inside, Option.map_some, Option.getD_some]
  have median := Foundation.isMedian_of_sorted ascending isMiddle (by rw [lengths]; exact odd)
  refine median.of_perm (List.Perm.map _ ?_)
  exact (List.reverse_perm sorted).trans sort.1

theorem windowLo_toNat (window : List UInt8) (start : UInt8) :
    (window.foldl (fun lo sample => if sample < lo then sample else lo) start).toNat =
      (window.map UInt8.toNat).foldl
        (fun least item => if item < least then item else least) start.toNat := by
  induction window generalizing start with
  | nil => rfl
  | cons sample rest induction =>
      rw [List.foldl_cons, List.map_cons, List.foldl_cons, induction, apply_ite UInt8.toNat]
      simp only [UInt8.lt_iff_toNat_lt]

theorem windowHi_toNat (window : List UInt8) (start : UInt8) :
    (window.foldl (fun hi sample => if sample > hi then sample else hi) start).toNat =
      (window.map UInt8.toNat).foldl
        (fun greatest item => if item > greatest then item else greatest) start.toNat := by
  induction window generalizing start with
  | nil => rfl
  | cons sample rest induction =>
      rw [List.foldl_cons, List.map_cons, List.foldl_cons, induction, apply_ite UInt8.toNat]
      simp only [gt_iff_lt, UInt8.lt_iff_toNat_lt]

theorem mfWindowStable_stable {samples : List UInt8} {n : Nat} {centre : UInt8}
    (full : samples.length = n) (windowed : n = mfBootWindow)
    (stable : mfWindowStable samples n = some centre) :
    StableWindow (samples.map UInt8.toNat) centre.toNat := by
  subst full
  rw [mfWindowStable, List.take_length] at stable
  have least := Foundation.foldl_least_le (samples.map UInt8.toNat) (255 : UInt8).toNat
  have greatest := Foundation.le_foldl_greatest (samples.map UInt8.toNat) (0 : UInt8).toNat
  rw [← windowLo_toNat] at least
  rw [← windowHi_toNat] at greatest
  generalize samples.foldl (fun lo sample => if sample < lo then sample else lo) 255 = lo
    at stable least
  generalize samples.foldl (fun hi sample => if sample > hi then sample else hi) 0 = hi
    at stable greatest
  have hiByte := hi.toNat_lt
  split at stable
  · cases stable
  · rename_i narrow
    cases stable
    refine ⟨by rw [List.length_map, windowed], ?_, mfMedian_isMedian (by rw [windowed]; decide)⟩
    intro low lowMember high highMember
    have lowBound := least.2 low lowMember
    have highBound := greatest.2 high highMember
    have lowHigh := greatest.2 low lowMember
    have spread : ((hi.toNat : Int) - lo.toNat) % 2 ^ 32 = hi.toNat - lo.toNat :=
      Int.emod_eq_of_lt (by omega) (by omega)
    rw [spread] at narrow
    omega

/-! ## One axis against the frames that count -/

/-- The samples kept are the readings of the window under way. In the confirm state the
window before it was stable, and the candidate is its median. -/
def Windowed (id : MfAxisId) (frames : List MfNote) (ax : MfAxis) : Prop :=
  ∃ earlier window, frames = earlier ++ window ∧ mfBootWindow ∣ earlier.length ∧
    column id window = (ax.samples.take ax.n).map UInt8.toNat ∧
      (ax.bootState = .confirm → ∃ front first middle, earlier = front ++ first ∧
        mfBootWindow ∣ front.length ∧ StableWindow (column id first) middle ∧
          ax.candidate = (middle : Nat))

structure AxisTraced (id : MfAxisId) (frames : List MfNote) (ax : MfAxis) : Prop where
  samples : ax.samples.length = mfBootWindow
  idle : frames = [] → ax.n = 0
  collecting : mfBootFinished ax.bootState = false → Windowed id frames ax
  acquired : ax.zeroSource = .boot → Acquired id frames ax.runtimeZero

theorem AxisTraced.of_finished {id : MfAxisId} {frames longer : List MfNote} {ax : MfAxis}
    (traced : AxisTraced id frames ax) (finished : mfBootFinished ax.bootState = true)
    (isPrefix : frames <+: longer) : AxisTraced id longer ax where
  samples := traced.samples
  idle empty := by
    rw [empty, List.prefix_nil] at isPrefix
    exact traced.idle isPrefix
  collecting unfinished := by
    rw [finished] at unfinished
    cases unfinished
  acquired fromBoot := (traced.acquired fromBoot).mono isPrefix

theorem mfAxisDefaults_traced (id : MfAxisId) (absCode : AbsCode) :
    AxisTraced id [] (mfAxisDefaults absCode) where
  samples := List.length_replicate
  idle _ := rfl
  collecting _ := ⟨[], [], rfl, Nat.dvd_zero _, rfl, fun confirming => by cases confirming⟩
  acquired fromBoot := by cases fromBoot

theorem mfNoteSeen_traced {id : MfAxisId} {frames : List MfNote} {ax : MfAxis}
    (traced : AxisTraced id frames ax) (raw : UInt8) :
    AxisTraced id frames (mfNoteSeen ax raw) := by
  rw [mfNoteSeen]
  split <;> exact { traced with }

theorem mfInstallAxis_traced {id : MfAxisId} {frames : List MfNote} {ax : MfAxis}
    (traced : AxisTraced id frames ax) (range : MfRange) (apply : Bool) :
    AxisTraced id frames (mfInstallAxis ax range apply) := by
  rw [mfInstallAxis]
  dsimp only
  split_ifs with applied finished fallback
  · refine { traced with collecting := ?_, acquired := by simp }
    intro unfinished
    rw [finished] at unfinished
    cases unfinished
  · exact { traced with collecting := by simp [mfBootFinished], acquired := by simp }
  · exact { traced with acquired := by simp }
  · exact { traced with }

/-! ### The collection loop -/

theorem take_set_end {samples : List UInt8} {n : Nat} (inside : n < samples.length)
    (sample : UInt8) : (samples.set n sample).take (n + 1) = samples.take n ++ [sample] := by
  rw [List.take_add_one, List.take_set_of_le (Nat.le_refl n), List.getElem?_set_self inside]
  rfl

theorem column_concat (id : MfAxisId) (frames : List MfNote) (note : MfNote) :
    column id (frames ++ [note]) = column id frames ++ [(note.raw id).toNat] := by
  simp [column]

/-- The full window is compared with the one before it. -/
theorem bootWindow_traced {id : MfAxisId} {earlier window : List MfNote} {ax : MfAxis}
    (samples : ax.samples.length = mfBootWindow) (restart : ax.n = 0)
    (whole : mfBootWindow ∣ earlier.length)
    (read : column id window = ax.samples.map UInt8.toNat)
    (confirming : ax.bootState = .confirm → ∃ front first middle, earlier = front ++ first ∧
      mfBootWindow ∣ front.length ∧ StableWindow (column id first) middle ∧
        ax.candidate = (middle : Nat))
    (acquired : ax.zeroSource = .boot → Acquired id (earlier ++ window) ax.runtimeZero) :
    AxisTraced id (earlier ++ window) (bootWindow ax) := by
  have windowLength : window.length = mfBootWindow := by
    rw [← samples, ← List.length_map UInt8.toNat, ← read, column, List.length_map]
  have wholeNext : mfBootWindow ∣ (earlier ++ window).length := by
    rw [List.length_append, windowLength]
    exact (Nat.dvd_add_right whole).mpr (Nat.dvd_refl _)
  have fresh : column id [] = (ax.samples.take ax.n).map UInt8.toNat := by
    rw [restart]
    rfl
  rw [bootWindow]
  cases stable : mfWindowStable ax.samples mfBootWindow with
  | none =>
      refine { samples := samples, idle := fun _ => restart, collecting := fun _ => ?_,
               acquired := acquired }
      exact ⟨_, [], (List.append_nil _).symm, wholeNext, fresh, fun confirm => by cases confirm⟩
  | some med =>
      have stableNow : StableWindow (column id window) med.toNat := by
        rw [read]
        exact mfWindowStable_stable samples rfl stable
      dsimp only
      split_ifs with first agrees outside
      · refine { samples := samples, idle := fun _ => restart, collecting := fun _ => ?_,
                 acquired := acquired }
        exact ⟨_, [], (List.append_nil _).symm, wholeNext, fresh,
          fun _ => ⟨earlier, window, med.toNat, rfl, whole, stableNow, rfl⟩⟩
      · exact { samples := samples, idle := fun _ => restart,
                collecting := by simp [mfBootFinished], acquired := acquired }
      · refine { samples := samples, idle := fun _ => restart,
                 collecting := by simp [mfBootFinished], acquired := fun _ => ?_ }
        rcases confirming (not_not.mp first) with ⟨front, before, middle, split, frontWhole,
          stableBefore, candidate⟩
        rw [candidate] at agrees
        exact ⟨front, before, window, [], middle, med.toNat, by rw [split, List.append_nil],
          frontWhole, stableBefore, stableNow, agrees, rfl⟩
      · refine { samples := samples, idle := fun _ => restart, collecting := fun _ => ?_,
                 acquired := acquired }
        exact ⟨_, [], (List.append_nil _).symm, wholeNext, fresh,
          fun confirm => by cases confirm⟩

/-- A frame inside the budget goes into the window. -/
theorem bootAxis_traced {id : MfAxisId} {frames : List MfNote} {ax : MfAxis}
    (traced : AxisTraced id frames ax) (room : ax.n < mfBootWindow) (note : MfNote) :
    AxisTraced id (frames ++ [note]) (bootAxis false (note.raw id) ax) := by
  cases unfinished : mfBootFinished ax.bootState with
  | true =>
      rw [bootAxis_of_finished unfinished]
      exact traced.of_finished unfinished (List.prefix_append frames [note])
  | false =>
      rcases traced.collecting unfinished with ⟨earlier, window, rfl, whole, read, confirming⟩
      have inside : ax.n < ax.samples.length := by
        rw [traced.samples]
        exact room
      have readNext : column id (window ++ [note]) =
          ((ax.samples.set ax.n (note.raw id)).take (ax.n + 1)).map UInt8.toNat := by
        rw [take_set_end inside, List.map_append, ← read]
        exact column_concat id window note
      have samples : (ax.samples.set ax.n (note.raw id)).length = mfBootWindow := by
        rw [List.length_set, traced.samples]
      have acquired : ax.zeroSource = .boot →
          Acquired id (earlier ++ (window ++ [note])) ax.runtimeZero := by
        intro fromBoot
        exact (traced.acquired fromBoot).mono (by
          rw [← List.append_assoc]
          exact List.prefix_append _ _)
      rw [bootAxis, if_neg (by simp [unfinished]), if_neg (by decide), List.append_assoc]
      dsimp only
      split_ifs with unfilled
      · exact { samples := samples, acquired := acquired
                idle := by simp
                collecting := fun _ => ⟨earlier, _, rfl, whole, readNext, confirming⟩ }
      · have full : ax.n + 1 = mfBootWindow := by omega
        refine bootWindow_traced samples rfl whole ?_ confirming acquired
        rw [readNext, full, ← samples, List.take_length]

/-- A frame past the budget ends the acquisition of the axis. -/
theorem bootAxis_expired (sample : UInt8) (ax : MfAxis) :
    bootAxis true sample ax = ax ∧ mfBootFinished ax.bootState = true ∨
      bootAxis true sample ax =
        { ax with bootState := .timeout, settled := true, accepted := false } := by
  rw [bootAxis, if_pos rfl]
  split_ifs with finished
  · exact .inl ⟨rfl, finished⟩
  · exact .inr rfl

theorem bootAxis_expired_traced {id : MfAxisId} {frames : List MfNote} {ax : MfAxis}
    (traced : AxisTraced id frames ax) (sample : UInt8) :
    AxisTraced id frames (bootAxis true sample ax) := by
  rcases bootAxis_expired sample ax with ⟨same, finished⟩ | late
  · rw [same]
    exact traced
  · rw [late]
    exact { traced with collecting := by simp [mfBootFinished] }

/-! ## The frames that count, one frame later -/

section Delays

variable {kernel : Kernel} {notes : List MfNote} (note : MfNote)

theorem settledNotes_cons (first : MfNote) (rest : List MfNote) :
    settledNotes kernel (first :: rest) = (first :: rest).dropWhile fun note =>
      timeBefore note.now (first.now + kernel.msecsToJiffies mfBootSettleMs) := rfl

theorem budgetNotes_cons (release : MfNote) (rest : List MfNote) :
    budgetNotes kernel (release :: rest) = (release :: rest).takeWhile fun note =>
      !timeAfter note.now (release.now + kernel.msecsToJiffies mfBootBudgetMs) := rfl

theorem settledNotes_of_settled (settled : settledNotes kernel notes ≠ []) :
    settledNotes kernel (notes ++ [note]) = settledNotes kernel notes ++ [note] := by
  cases notes with
  | nil => exact absurd rfl settled
  | cons first others =>
      rw [settledNotes_cons] at settled
      rw [List.cons_append, settledNotes_cons, settledNotes_cons, ← List.cons_append,
        List.dropWhile_append, if_neg (by simpa using settled)]

theorem settledNotes_of_settling {first : MfNote}
    (head : (notes ++ [note]).head? = some first) (settling : settledNotes kernel notes = []) :
    settledNotes kernel (notes ++ [note]) =
      if timeBefore note.now (first.now + kernel.msecsToJiffies mfBootSettleMs) then []
      else [note] := by
  cases notes with
  | nil =>
      cases head
      rw [List.nil_append, settledNotes_cons, List.dropWhile_cons, List.dropWhile_nil]
  | cons start others =>
      cases head
      rw [settledNotes_cons] at settling
      rw [List.cons_append, settledNotes_cons, ← List.cons_append, List.dropWhile_append,
        settling, List.dropWhile_cons, List.dropWhile_nil]
      rfl

theorem budgetNotes_concat {frames : List MfNote} {release : MfNote}
    (head : (frames ++ [note]).head? = some release)
    (inTime : budgetNotes kernel frames = frames) :
    budgetNotes kernel (frames ++ [note]) =
      if timeAfter note.now (release.now + kernel.msecsToJiffies mfBootBudgetMs) then frames
      else frames ++ [note] := by
  cases frames with
  | nil =>
      cases head
      rw [List.nil_append, budgetNotes_cons, List.takeWhile_cons, List.takeWhile_nil]
      split <;> simp_all
  | cons start others =>
      cases head
      rw [budgetNotes_cons] at inTime
      rw [List.cons_append, budgetNotes_cons, ← List.cons_append, List.takeWhile_append, inTime,
        if_pos rfl, List.takeWhile_cons, List.takeWhile_nil]
      split <;> simp_all

theorem budgetNotes_prefix (frames : List MfNote) :
    budgetNotes kernel frames <+: budgetNotes kernel (frames ++ [note]) := by
  cases frames with
  | nil => exact List.nil_prefix
  | cons release rest =>
      rw [List.cons_append, budgetNotes_cons, budgetNotes_cons, ← List.cons_append,
        List.takeWhile_append]
      split
      · exact (List.takeWhile_prefix _).trans (List.prefix_append _ _)
      · exact List.prefix_rfl

theorem collectedNotes_grow :
    collectedNotes kernel notes <+: collectedNotes kernel (notes ++ [note]) := by
  by_cases settling : settledNotes kernel notes = []
  · rw [collectedNotes, settling]
    exact List.nil_prefix
  · rw [collectedNotes, collectedNotes, settledNotes_of_settled note settling]
    exact budgetNotes_prefix note _

end Delays

/-! ## The pad against the frames noted so far -/

/-- What every point of a run keeps. `running` says that no frame has come too late as long
as the collection goes on. -/
structure PadTraced (kernel : Kernel) (pad : MfPad) (notes : List MfNote) : Prop where
  axes : ∀ id, AxisTraced id (collectedNotes kernel notes) (pad.axis id)
  fresh : pad.bootStarted = false → notes = []
  first : pad.bootStarted = true → notes.head?.map MfNote.now = some pad.bootFirstJiffies
  waiting : pad.settlePhase = .wait → pad.bootStarted = false
  settling : pad.settlePhase = .hw → settledNotes kernel notes = []
  running : pad.settlePhase = .run →
    (settledNotes kernel notes).head?.map MfNote.now = some pad.bootCollectJiffies ∧
      collectedNotes kernel notes = settledNotes kernel notes

theorem mfProbePad_traced (kernel : Kernel) : PadTraced kernel mfProbePad [] where
  axes id := by cases id <;> exact mfAxisDefaults_traced _ _
  fresh _ := rfl
  first := by simp [mfProbePad]
  waiting _ := rfl
  settling := by simp [mfProbePad]
  running := by simp [mfProbePad]

/-- The acquisition is the same, except that it may have been closed. -/
structure SameAcquisition (pad next : MfPad) : Prop where
  started : next.bootStarted = pad.bootStarted
  firstJiffies : next.bootFirstJiffies = pad.bootFirstJiffies
  collectJiffies : next.bootCollectJiffies = pad.bootCollectJiffies
  phase : next.settlePhase = pad.settlePhase ∨ next.settlePhase = .done

theorem PadTraced.of_same {kernel : Kernel} {pad next : MfPad} {notes : List MfNote}
    (traced : PadTraced kernel pad notes) (same : SameAcquisition pad next)
    (axes : ∀ id, AxisTraced id (collectedNotes kernel notes) (next.axis id)) :
    PadTraced kernel next notes := by
  have phase : next.settlePhase ≠ .done → next.settlePhase = pad.settlePhase := by
    intro notDone
    exact same.phase.resolve_right notDone
  refine { axes := axes, fresh := ?_, first := ?_, waiting := ?_, settling := ?_, running := ?_ }
  · rw [same.started]
    exact traced.fresh
  · rw [same.started, same.firstJiffies]
    exact traced.first
  · intro waiting
    rw [same.started]
    exact traced.waiting (phase (by simp [waiting]) ▸ waiting)
  · intro settling
    exact traced.settling (phase (by simp [settling]) ▸ settling)
  · intro running
    rw [same.collectJiffies]
    exact traced.running (phase (by simp [running]) ▸ running)

theorem bootFinish_same (pad : MfPad) : SameAcquisition pad (bootFinish pad) := by
  rw [bootFinish]
  split
  · exact ⟨rfl, rfl, rfl, .inr rfl⟩
  · exact ⟨rfl, rfl, rfl, .inl rfl⟩

theorem installStick_traced {kernel : Kernel} {pad : MfPad} {notes : List MfNote}
    (traced : PadTraced kernel pad notes) {xId yId : MfAxisId} (distinct : yId ≠ xId)
    (cal : MfCal) : PadTraced kernel (installStick kernel pad xId yId cal) notes := by
  refine traced.of_same ?_ ?_
  · rw [installStick]
    split
    · have same := bootFinish_same ((pad.setAxis xId
        (mfInstallAxis (pad.axis xId) cal.x cal.apply)).setAxis yId
          (mfInstallAxis ((pad.setAxis xId
            (mfInstallAxis (pad.axis xId) cal.x cal.apply)).axis yId) cal.y cal.apply))
      exact ⟨same.started, same.firstJiffies, same.collectJiffies, same.phase⟩
    · exact ⟨rfl, rfl, rfl, .inl rfl⟩
  · intro id
    rw [installStick_axis kernel pad distinct]
    split_ifs with isY isX
    · rw [← isY]
      exact mfInstallAxis_traced (traced.axes id) _ _
    · rw [← isX]
      exact mfInstallAxis_traced (traced.axes id) _ _
    · exact traced.axes id

theorem mfCalStore_traced {kernel : Kernel} {pad : MfPad} {notes : List MfNote}
    (traced : PadTraced kernel pad notes) {xId yId : MfAxisId} (distinct : yId ≠ xId)
    (buf : List UInt8) : PadTraced kernel (mfCalStore kernel pad xId yId buf).1 notes := by
  rcases mfCalStore_cases kernel pad xId yId buf with refused | ⟨cal, _, _, _, stored⟩
  · rwa [refused]
  · rw [stored]
    exact installStick_traced traced distinct cal

theorem mfDzStore_traced {kernel : Kernel} {pad : MfPad} {notes : List MfNote}
    (traced : PadTraced kernel pad notes) (right : Bool) (buf : List UInt8) :
    PadTraced kernel (mfDzStore kernel pad right buf).1 notes := by
  rcases mfDzStore_cases kernel pad right buf with refused | ⟨pct, _, stored⟩
  · rwa [refused]
  · rw [stored]
    cases right <;> exact traced.of_same ⟨rfl, rfl, rfl, .inl rfl⟩ traced.axes

/-! ### Frames -/

/-- Whether the budget is over, as the collection loop reads the clock. -/
def bootExpired (kernel : Kernel) (now : Jiffies) (pad : MfPad) : Bool :=
  timeAfter now (pad.bootCollectJiffies + kernel.msecsToJiffies mfBootBudgetMs)

theorem bootCollect_eq (kernel : Kernel) (now : Jiffies) (pad : MfPad) (raw : MfRaw) :
    bootCollect kernel now pad raw = bootFinish
      { pad with axis := fun id =>
          bootAxis (bootExpired kernel now pad) (raw id) (pad.axis id) } := rfl

theorem bootCollect_axis (kernel : Kernel) (now : Jiffies) (pad : MfPad) (raw : MfRaw)
    (id : MfAxisId) : (bootCollect kernel now pad raw).axis id =
      bootAxis (bootExpired kernel now pad) (raw id) (pad.axis id) := by
  rw [bootCollect_eq, bootFinish_axis]

theorem bootCollect_same (kernel : Kernel) (now : Jiffies) (pad : MfPad) (raw : MfRaw) :
    SameAcquisition pad (bootCollect kernel now pad raw) := by
  have same := bootFinish_same { pad with
    axis := fun id => bootAxis (bootExpired kernel now pad) (raw id) (pad.axis id) }
  exact ⟨same.started, same.firstJiffies, same.collectJiffies, same.phase⟩

/-- A late frame leaves nothing to collect. -/
theorem bootCollect_expired {kernel : Kernel} {now : Jiffies} {pad : MfPad} (raw : MfRaw)
    (late : bootExpired kernel now pad = true) :
    (bootCollect kernel now pad raw).settlePhase = .done := by
  have all : forallAxes (fun id => mfBootFinished
      (bootAxis (bootExpired kernel now pad) (raw id) (pad.axis id)).bootState) = true := by
    rw [forallAxes_iff, late]
    intro id
    rcases bootAxis_expired (raw id) (pad.axis id) with ⟨same, finished⟩ | timeout
    · rw [same]
      exact finished
    · rw [timeout]
      rfl
  rw [bootCollect_eq, bootFinish, if_pos all]

/-- The collection loop takes the frame when it is in time, and ends otherwise. -/
theorem bootCollect_traced {kernel : Kernel} {pad : MfPad} {notes : List MfNote}
    (ok : StickOk pad) (note : MfNote) {frames : List MfNote}
    (axes : ∀ id, AxisTraced id frames (pad.axis id)) (started : pad.bootStarted = true)
    (first : (notes ++ [note]).head?.map MfNote.now = some pad.bootFirstJiffies)
    (phase : pad.settlePhase = .run)
    (settled : settledNotes kernel (notes ++ [note]) = frames ++ [note])
    (collect : (frames ++ [note]).head?.map MfNote.now = some pad.bootCollectJiffies)
    (inTime : budgetNotes kernel frames = frames) :
    PadTraced kernel (bootCollect kernel note.now pad note.raw) (notes ++ [note]) := by
  have same := bootCollect_same kernel note.now pad note.raw
  have collected : collectedNotes kernel (notes ++ [note]) =
      if bootExpired kernel note.now pad then frames else frames ++ [note] := by
    rcases Option.map_eq_some_iff.mp collect with ⟨release, head, releaseNow⟩
    rw [collectedNotes, settled, budgetNotes_concat note head inTime, releaseNow, bootExpired]
  have closing : (bootCollect kernel note.now pad note.raw).settlePhase = .run ∨
      (bootCollect kernel note.now pad note.raw).settlePhase = .done := by
    rw [← phase]
    exact same.phase
  refine { axes := ?_, fresh := ?_, first := ?_, waiting := ?_, settling := ?_, running := ?_ }
  · intro id
    rw [bootCollect_axis, collected]
    cases bootExpired kernel note.now pad with
    | true =>
        rw [if_pos rfl]
        exact bootAxis_expired_traced (axes id) _
    | false => exact bootAxis_traced (axes id) (ok.axes id).window_open note
  · intro unstarted
    rw [same.started, started] at unstarted
    cases unstarted
  · intro _
    rw [first, same.firstJiffies]
  · intro waiting
    rw [waiting] at closing
    simp at closing
  · intro settling
    rw [settling] at closing
    simp at closing
  · intro running
    have inBudget : bootExpired kernel note.now pad = false := by
      rw [Bool.eq_false_iff]
      intro late
      rw [bootCollect_expired note.raw late] at running
      cases running
    rw [settled, collect, same.collectJiffies, collected, inBudget]
    exact ⟨rfl, rfl⟩

/-- In the settle delay a frame is only counted, and the first one after it is collected. -/
theorem bootSettle_traced {kernel : Kernel} {pad : MfPad} {notes : List MfNote}
    (ok : StickOk pad) (note : MfNote) (axes : ∀ id, AxisTraced id [] (pad.axis id))
    (started : pad.bootStarted = true)
    (first : (notes ++ [note]).head?.map MfNote.now = some pad.bootFirstJiffies)
    (phase : pad.settlePhase = .hw) (settling : settledNotes kernel notes = []) :
    PadTraced kernel
      (if timeBefore note.now (pad.bootFirstJiffies + kernel.msecsToJiffies mfBootSettleMs) then
        pad
      else bootCollect kernel note.now (bootRelease note.now pad) note.raw)
      (notes ++ [note]) := by
  have settled : settledNotes kernel (notes ++ [note]) =
      if timeBefore note.now (pad.bootFirstJiffies + kernel.msecsToJiffies mfBootSettleMs) then
        []
      else [note] := by
    rcases Option.map_eq_some_iff.mp first with ⟨start, head, startNow⟩
    rw [settledNotes_of_settling note head settling, startNow]
  split_ifs with early
  · rw [if_pos early] at settled
    refine { axes := ?_, fresh := ?_, first := fun _ => first, waiting := ?_,
             settling := fun _ => settled, running := ?_ }
    · intro id
      rw [collectedNotes, settled]
      exact axes id
    · intro unstarted
      rw [started] at unstarted
      cases unstarted
    · intro waiting
      rw [phase] at waiting
      cases waiting
    · intro running
      rw [phase] at running
      cases running
  · rw [if_neg early] at settled
    have released : ∀ id, AxisTraced id [] ((bootRelease note.now pad).axis id) := by
      intro id
      rw [bootRelease]
      dsimp only
      split_ifs
      · exact { axes id with idle := fun _ => rfl, collecting := fun _ =>
                  ⟨[], [], rfl, Nat.dvd_zero _, rfl, fun confirming => by cases confirming⟩ }
      · exact axes id
    exact bootCollect_traced (bootRelease_ok ok started note.now) note released started first rfl
      settled rfl rfl

theorem bootStart_cases (now : Jiffies) (pad : MfPad) :
    pad.bootStarted = true ∧ bootStart now pad = pad ∨
      pad.bootStarted = false ∧ ∃ axis, bootStart now pad =
        { pad with bootStarted := true, bootFirstJiffies := now, settlePhase := .hw, axis } ∧
        ∀ id, axis id = pad.axis id ∨
          axis id = { pad.axis id with bootState := .settle } := by
  rw [bootStart]
  split_ifs with started
  · exact .inl ⟨started, rfl⟩
  · refine .inr ⟨by simpa using started, _, rfl, ?_⟩
    intro id
    dsimp only
    split_ifs
    · exact .inl rfl
    · exact .inr rfl

theorem mfBootNote_traced {kernel : Kernel} {pad : MfPad} {notes : List MfNote}
    (ok : StickOk pad) (traced : PadTraced kernel pad notes) (note : MfNote) :
    PadTraced kernel (mfBootNote kernel note.now pad note.raw) (notes ++ [note]) := by
  have seenOk := ok.of_same fun id => mfNoteSeen_same (pad.axis id) (note.raw id)
  have seen : PadTraced kernel
      { pad with axis := fun id => mfNoteSeen (pad.axis id) (note.raw id) } notes :=
    traced.of_same ⟨rfl, rfl, rfl, .inl rfl⟩ fun id => mfNoteSeen_traced (traced.axes id) _
  rw [mfBootNote]
  generalize { pad with axis := fun id => mfNoteSeen (pad.axis id) (note.raw id) } = noted
    at seen seenOk ⊢
  have startOk := bootStart_ok seenOk note.now
  rcases bootStart_cases note.now noted with ⟨started, same⟩ | ⟨unstarted, axis, start, settle⟩
  · have first : (notes ++ [note]).head?.map MfNote.now = some noted.bootFirstJiffies := by
      have before := seen.first started
      cases notes with
      | nil => cases before
      | cons oldest rest => exact before
    rw [same]
    cases phase : noted.settlePhase with
    | wait =>
        rw [seen.waiting phase] at started
        cases started
    | hw =>
        have before := seen.settling phase
        have axes : ∀ id, AxisTraced id [] (noted.axis id) := by
          intro id
          have traced := seen.axes id
          rwa [collectedNotes, before] at traced
        rw [if_pos rfl]
        exact bootSettle_traced seenOk note axes started first phase before
    | run =>
        have before := seen.running phase
        have settled : settledNotes kernel notes ≠ [] := by
          intro empty
          rw [empty] at before
          cases before.1
        have next := settledNotes_of_settled note settled
        rw [← before.2] at next
        rw [if_neg (by decide), if_pos rfl]
        refine bootCollect_traced seenOk note seen.axes started first phase next ?_ ?_
        · rw [before.2, List.head?_append_of_ne_nil _ settled]
          exact before.1
        · rw [before.2]
          exact before.2
    | done =>
        rw [if_neg (by decide), if_neg (by decide)]
        exact {
          axes := fun id => (seen.axes id).of_finished (seenOk.settled phase id)
            (collectedNotes_grow note)
          fresh := fun unstarted => by
            rw [started] at unstarted
            cases unstarted
          first := fun _ => first
          waiting := fun waiting => by
            rw [phase] at waiting
            cases waiting
          settling := fun settling => by
            rw [phase] at settling
            cases settling
          running := fun running => by
            rw [phase] at running
            cases running }
  · -- The first frame of all: it starts the settle delay, and may already end it.
    have fresh := seen.fresh unstarted
    subst fresh
    have axes : ∀ id, AxisTraced id [] ((bootStart note.now noted).axis id) := by
      intro id
      rw [start]
      rcases settle id with unchanged | settling
      · change AxisTraced id [] (axis id)
        rw [unchanged]
        exact seen.axes id
      · change AxisTraced id [] (axis id)
        have noSamples := (seen.axes id).idle rfl
        rw [settling]
        exact { seen.axes id with collecting := fun _ =>
                  ⟨[], [], rfl, Nat.dvd_zero _, by rw [noSamples]; rfl,
                    fun confirming => by cases confirming⟩ }
    have phase : (bootStart note.now noted).settlePhase = .hw := by rw [start]
    have first : (([] : List MfNote) ++ [note]).head?.map MfNote.now =
        some (bootStart note.now noted).bootFirstJiffies := by
      rw [start]
      rfl
    rw [if_pos phase]
    exact bootSettle_traced startOk note axes (bootStart_started _ _) first phase rfl

/-! ### Bytes and events -/

theorem mfReportAxes_traced {kernel : Kernel} {pad : MfPad} {notes : List MfNote}
    (traced : PadTraced kernel pad notes) (raw : MfRaw) :
    PadTraced kernel (mfReportAxes kernel pad raw) notes :=
  traced.of_same ⟨rfl, rfl, rfl, .inl rfl⟩ fun id => { traced.axes id with }

/-- One byte notes the frame that it completes, if any. -/
theorem mfFeed_traced {kernel : Kernel} {pad : MfPad} {notes : List MfNote} (ok : StickOk pad)
    (traced : PadTraced kernel pad notes) (now : Jiffies) (byte : UInt8) :
    PadTraced kernel (mfFeed kernel now pad byte).1 (notes ++ feedNotes kernel now pad byte) := by
  rw [feedNotes, mfFeed]
  dsimp only
  split_ifs with empty starts short complete
  · rw [Option.toList_none, List.map_nil, List.append_nil]
    exact { traced with }
  · rw [Option.toList_none, List.map_nil, List.append_nil]
    exact { traced with }
  · rw [Option.toList_none, List.map_nil, List.append_nil]
    exact { traced with }
  · have counted : PadTraced kernel { pad with
        frame := pad.frame ++ [byte]
        rxBytes := pad.rxBytes + 1
        validFrames := pad.validFrames + 1 } notes := { traced with }
    have countedOk : StickOk { pad with
        frame := pad.frame ++ [byte]
        rxBytes := pad.rxBytes + 1
        validFrames := pad.validFrames + 1 } := { ok with }
    have noted := mfBootNote_traced countedOk counted
      { now, raw := frameRaw (pad.frame ++ [byte]) }
    exact { mfReportAxes_traced noted (frameRaw (pad.frame ++ [byte])) with }
  · cases frameRestart (pad.frame ++ [byte]) with
    | none =>
        rw [Option.toList_none, List.map_nil, List.append_nil]
        exact { traced with }
    | some start =>
        rw [Option.toList_none, List.map_nil, List.append_nil]
        exact { traced with }

theorem mfFeedAll_traced {kernel : Kernel} {pad : MfPad} {notes : List MfNote} (ok : PadOk pad)
    (traced : PadTraced kernel pad notes) (chunk : List (Jiffies × UInt8)) :
    PadTraced kernel (mfFeedAll kernel pad chunk).1 (notes ++ feedAllNotes kernel pad chunk) := by
  induction chunk generalizing pad notes with
  | nil =>
      rw [feedAllNotes, List.append_nil]
      exact traced
  | cons timed rest induction =>
      rcases timed with ⟨now, byte⟩
      have later := induction (mfFeed_ok kernel now ok byte)
        (mfFeed_traced ok.toStickOk traced now byte)
      rwa [List.append_assoc] at later

theorem mfStep_traced {kernel : Kernel} {pad : MfPad} {notes : List MfNote} (ok : PadOk pad)
    (traced : PadTraced kernel pad notes) (event : MfEvent) :
    PadTraced kernel (mfStep kernel pad event) (notes ++ stepNotes kernel pad event) := by
  cases event with
  | receive chunk =>
      rw [mfStep, mfReceive, stepNotes]
      split_ifs
      · rw [List.append_nil]
        exact traced
      · exact mfFeedAll_traced ok traced chunk
  | calibrationLeft buf =>
      rw [stepNotes, List.append_nil]
      exact mfCalStore_traced traced (by decide) buf
  | calibrationRight buf =>
      rw [stepNotes, List.append_nil]
      exact mfCalStore_traced traced (by decide) buf
  | deadzone right buf =>
      rw [stepNotes, List.append_nil]
      exact mfDzStore_traced traced right buf
  | portOpen ret =>
      rw [stepNotes, List.append_nil, mfStep, mfPortOpen]
      split_ifs <;> exact { traced with }
  | portClose =>
      rw [stepNotes, List.append_nil]
      exact { traced with }

theorem mfRun_traced {kernel : Kernel} {pad : MfPad} {notes : List MfNote} (ok : PadOk pad)
    (traced : PadTraced kernel pad notes) (events : List MfEvent) :
    PadTraced kernel (mfRun kernel pad events) (notes ++ runNotes kernel pad events) := by
  induction events generalizing pad notes with
  | nil =>
      rw [runNotes, List.append_nil]
      exact traced
  | cons event rest induction =>
      have later := induction (mfStep_ok kernel ok event) (mfStep_traced ok traced event)
      rwa [List.append_assoc] at later

/-- In every state that a run reaches: a centre taken at boot is the median of a stable
window of consecutive frames, noted after the settle delay and inside the budget, which
agrees with the stable window right before it; and once a frame has come after the budget,
no axis is waiting for a centre any more. -/
theorem boot_centre_acquired (kernel : Kernel) (events : List MfEvent) (id : MfAxisId) :
    let pad := mfRun kernel mfProbePad events
    let notes := runNotes kernel mfProbePad events
    ((pad.axis id).zeroSource = .boot →
      Acquired id (collectedNotes kernel notes) (pad.axis id).runtimeZero) ∧
    (collectedNotes kernel notes ≠ settledNotes kernel notes →
      pad.settlePhase = .done ∧ mfBootFinished (pad.axis id).bootState = true) := by
  have ok := mfRun_ok kernel mfProbePad_ok events
  have traced := mfRun_traced mfProbePad_ok (mfProbePad_traced kernel) events
  rw [List.nil_append] at traced
  refine ⟨(traced.axes id).acquired, fun late => ?_⟩
  have finished : (mfRun kernel mfProbePad events).settlePhase = .done := by
    cases phase : (mfRun kernel mfProbePad events).settlePhase with
    | wait =>
        rw [traced.fresh (traced.waiting phase)] at late
        exact absurd rfl late
    | hw =>
        rw [collectedNotes, traced.settling phase] at late
        exact absurd rfl late
    | run => exact absurd (traced.running phase).2 late
    | done => rfl
  exact ⟨finished, ok.settled finished id⟩

/-- The first frame starts the settle delay. The 62 frames after it fill two windows, and
the second one moves the centre of the left stick. -/
theorem boot_centre_of_two_windows :
    let frame := fun (now : Jiffies) (x : UInt8) =>
      MfEvent.receive ([0xff, 120, x, 122, 123, 0xfe].map fun byte => (now, byte))
    let events := [.portOpen 0, frame 10 99] ++
      (List.range 62).map fun n => frame (1600 + UInt64.ofNat n) (if n % 2 = 0 then 130 else 131)
    let notes := runNotes hz1000Kernel mfProbePad events
    Acquired .xl (collectedNotes hz1000Kernel notes) 131 := by
  intro frame events notes
  have acquired : ((mfRun hz1000Kernel mfProbePad events).axis .xl).zeroSource = .boot ∧
      ((mfRun hz1000Kernel mfProbePad events).axis .xl).runtimeZero = 131 := by decide +kernel
  have provenance := (boot_centre_acquired hz1000Kernel events .xl).1 acquired.1
  rwa [acquired.2] at provenance

end Zlyme.Gamepad
