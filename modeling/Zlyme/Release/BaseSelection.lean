import Zlyme.Foundation.Ranking
import Zlyme.Release.Python
import Mathlib.Data.List.Sort
import Mathlib.Data.Char
import Mathlib.Data.Prod.Lex
import Mathlib.Data.List.Lex

/-! # The bases of the delta packages

`eligible_base_versions` of `zlyme_release.py`, and what it returns for a list
with repeats.
-/

namespace Zlyme.Release

open Foundation

/-! ## The code -/

/-- `except ReleaseError`. -/
def PyError.isReleaseError : PyError → Bool
  | .releaseError _ => true
  | .invalidVersion _ => true
  | _ => false

/-- What the loop has found: `baseline` and `points`. -/
structure Bases where
  baseline : Option Text
  points : List (Int × Text)
  deriving DecidableEq

/-- One turn of `for item in published`. -/
def collectBase (major minor : Int) (bases : Bases) (item : Text) : Except PyError Bases :=
  match parseVersion (.str item) with
  | .error error => if error.isReleaseError then .ok bases else .error error
  | .ok (gotMajor, gotMinor) =>
      if gotMajor ≠ major then .ok bases
      else
        match gotMinor with
        | none => .ok { bases with baseline := some item }
        | some gotMinor =>
            if gotMinor < minor then .ok { bases with points := bases.points ++ [(gotMinor, item)] }
            else .ok bases

/-- The order of the tuples `(got_minor, item)`. -/
def PointLe (left right : Int × Text) : Prop :=
  left.1 < right.1 ∨ left.1 = right.1 ∧ left.2 ≤ right.2

instance : DecidableRel PointLe := fun _ _ => inferInstanceAs (Decidable (_ ∨ _))

/-- `if baseline: out.append(baseline)`. -/
def baselineItems : Option Text → List Text
  | none => []
  | some baseline => if baseline.isEmpty then [] else [baseline]

def eligibleBaseVersions (target : Text) (published : List Text) : Except PyError (List Text) := do
  let (major, minor) ← parseVersion (.str target)
  match minor with
  | none => return []
  | some minor =>
      let bases ← published.foldlM (collectBase major minor) ⟨none, []⟩
      let points := bases.points.insertionSort PointLe
      let chosen := (points.rtake 3).map Prod.snd
      return baselineItems bases.baseline ++ chosen

/-! ## What is published -/

/-- The numbers of a version; nothing for a text that is none. -/
def versionOf (text : Text) : Option (Int × Option Int) :=
  (parseVersion (.str text)).toOption

/-- The minor number of a point release between the baseline and the target. -/
def earlierMinor (major minor : Int) : Int × Option Int → Option Int
  | (gotMajor, some gotMinor) => if gotMajor = major ∧ gotMinor < minor then some gotMinor else none
  | (_, none) => none

/-- The minor numbers of the listed point releases between the baseline and the
target, with repeats. -/
def earlierMinors (major minor : Int) (published : List Text) : List Int :=
  published.filterMap fun item => (versionOf item).bind (earlierMinor major minor)

/-- A base of the target: its baseline, or a point release before the target
with fewer than three others between them. -/
def IsBase (target : Int × Option Int) (published : List Text) (version : Int × Option Int) : Prop :=
  some version ∈ published.map versionOf ∧ ∃ minor, target.2 = some minor ∧ version.1 = target.1 ∧
    ∀ gotMinor, version.2 = some gotMinor → gotMinor < minor ∧
      ((earlierMinors target.1 minor published).toFinset.filter (gotMinor < ·)).card < 3

/-- The selection returns published texts, with the version of every base once. -/
def SelectsBases (target : Text) (numbers : Int × Option Int) (published : List Text) : Prop :=
  ∃ out, eligibleBaseVersions target published = .ok out ∧ (∀ item ∈ out, item ∈ published) ∧
    (out.map versionOf).Nodup ∧
    ∀ version, some version ∈ out.map versionOf ↔ IsBase numbers published version

/-- The text is a version, or is refused as none. -/
def Readable (text : Text) : Prop :=
  ∀ error, parseVersion (.str text) = .error error → error.isReleaseError = true

/-! ## The loop -/

theorem versionOf_eq_some {text : Text} {version : Int × Option Int} :
    versionOf text = some version ↔ parseVersion (.str text) = .ok version := by
  rw [versionOf]
  cases parseVersion (.str text) <;> simp [Except.toOption]

theorem nonempty_of_versionOf {text : Text} {version : Int × Option Int}
    (isVersion : versionOf text = some version) : text ≠ [] := by
  rintro rfl
  cases isVersion

/-- The last baseline of the list, and the earlier point releases in its order. -/
def lastBaseline (major : Int) (published : List Text) : Option Text :=
  (published.filter (versionOf · = some (major, none))).getLast?

def earlierPoints (major minor : Int) (published : List Text) : List (Int × Text) :=
  published.filterMap fun item =>
    ((versionOf item).bind (earlierMinor major minor)).map fun gotMinor => (gotMinor, item)

theorem lastBaseline_append (major : Int) (first second : List Text) :
    lastBaseline major (first ++ second) = (lastBaseline major second).or (lastBaseline major first) := by
  rw [lastBaseline, List.filter_append, List.getLast?_append]
  rfl

theorem earlierPoints_append (major minor : Int) (first second : List Text) :
    earlierPoints major minor (first ++ second) =
      earlierPoints major minor first ++ earlierPoints major minor second :=
  List.filterMap_append

theorem lastBaseline_singleton (major : Int) (item : Text) :
    lastBaseline major [item] = if versionOf item = some (major, none) then some item else none := by
  rw [lastBaseline, List.filter_singleton]
  split <;> simp_all

theorem earlierPoints_singleton (major minor : Int) (item : Text) :
    earlierPoints major minor [item] =
      (((versionOf item).bind (earlierMinor major minor)).map fun gotMinor => (gotMinor, item)).toList := by
  rw [earlierPoints, List.filterMap_cons, List.filterMap_nil]
  split <;> simp_all

theorem collectBase_eq_ok {major minor : Int} {bases next : Bases} {item : Text} :
    collectBase major minor bases item = .ok next ↔ Readable item ∧
      ⟨(lastBaseline major [item]).or bases.baseline,
        bases.points ++ earlierPoints major minor [item]⟩ = next := by
  rw [lastBaseline_singleton, earlierPoints_singleton, collectBase]
  cases parsed : parseVersion (.str item) with
  | error error =>
      have noVersion : versionOf item = none := by rw [versionOf, parsed]; rfl
      have readable : Readable item ↔ error.isReleaseError = true := by simp [Readable, parsed]
      rw [readable, noVersion]
      cases kind : error.isReleaseError <;> simp [kind]
  | ok version =>
      rcases version with ⟨gotMajor, gotMinor⟩
      have isVersion : versionOf item = some (gotMajor, gotMinor) := versionOf_eq_some.mpr parsed
      have readable : Readable item := by simp [Readable, parsed]
      simp only [isVersion, readable, true_and]
      by_cases sameMajor : gotMajor = major
      · cases gotMinor with
        | none => simp [sameMajor, earlierMinor]
        | some gotMinor => by_cases isEarlier : gotMinor < minor <;> simp [sameMajor, isEarlier, earlierMinor]
      · cases gotMinor <;> simp [sameMajor, earlierMinor]

/-- The loop ends if every text is readable, with the last baseline and the
earlier point releases in the order of the list. -/
theorem collectBases_eq_ok {major minor : Int} {bases last : Bases} {published : List Text} :
    published.foldlM (collectBase major minor) bases = .ok last ↔
      (∀ item ∈ published, Readable item) ∧
      ⟨(lastBaseline major published).or bases.baseline,
        bases.points ++ earlierPoints major minor published⟩ = last := by
  induction published generalizing bases with
  | nil => simp [pure, Except.pure, lastBaseline, earlierPoints]
  | cons item rest induction =>
      have baselines := lastBaseline_append major [item] rest
      have points := earlierPoints_append major minor [item] rest
      rw [List.singleton_append] at baselines points
      rw [List.foldlM_cons, bind_eq_ok, baselines, points, List.forall_mem_cons]
      simp only [collectBase_eq_ok, induction, Option.or_assoc]
      constructor
      · rintro ⟨_, ⟨readable, rfl⟩, others, isLast⟩
        exact ⟨⟨readable, others⟩, by rw [← isLast, List.append_assoc]⟩
      · rintro ⟨⟨readable, others⟩, isLast⟩
        exact ⟨_, ⟨readable, rfl⟩, others, by rw [← isLast, List.append_assoc]⟩

/-! ## The selection -/

section Selection

variable {major minor : Int} {published : List Text}

/-- The points in the order of `points.sort()`. -/
def sortedPoints (major minor : Int) (published : List Text) : List (Int × Text) :=
  (earlierPoints major minor published).insertionSort PointLe

theorem eligibleBaseVersions_eq_ok {target : Text} {out : List Text}
    (parsed : parseVersion (.str target) = .ok (major, some minor)) :
    eligibleBaseVersions target published = .ok out ↔ (∀ item ∈ published, Readable item) ∧
      baselineItems (lastBaseline major published) ++
        ((sortedPoints major minor published).rtake 3).map Prod.snd = out := by
  rw [eligibleBaseVersions, parsed]
  simp only [ok_bind, bind_eq_ok, collectBases_eq_ok, Option.or_none, List.nil_append]
  constructor
  · rintro ⟨_, ⟨readable, rfl⟩, isOut⟩
    exact ⟨readable, Except.ok.inj isOut⟩
  · rintro ⟨readable, isOut⟩
    exact ⟨_, ⟨readable, rfl⟩, congrArg Except.ok isOut⟩

theorem earlierMinor_eq_some {version : Int × Option Int} {gotMinor : Int} :
    earlierMinor major minor version = some gotMinor ↔
      version = (major, some gotMinor) ∧ gotMinor < minor := by
  rcases version with ⟨gotMajor, _ | other⟩
  · simp [earlierMinor]
  · simp only [earlierMinor, Option.ite_none_right_eq_some, Option.some.injEq, Prod.mk.injEq]
    constructor
    · rintro ⟨⟨sameMajor, isEarlier⟩, rfl⟩
      exact ⟨⟨sameMajor, rfl⟩, isEarlier⟩
    · rintro ⟨⟨sameMajor, rfl⟩, isEarlier⟩
      exact ⟨⟨sameMajor, isEarlier⟩, rfl⟩

theorem mem_earlierPoints {gotMinor : Int} {item : Text} :
    (gotMinor, item) ∈ earlierPoints major minor published ↔
      item ∈ published ∧ versionOf item = some (major, some gotMinor) ∧ gotMinor < minor := by
  simp only [earlierPoints, List.mem_filterMap, Option.map_eq_some_iff, Option.bind_eq_some_iff,
    earlierMinor_eq_some]
  constructor
  · rintro ⟨_, member, _, ⟨_, isVersion, rfl, isEarlier⟩, same⟩
    cases same
    exact ⟨member, isVersion, isEarlier⟩
  · rintro ⟨member, isVersion, isEarlier⟩
    exact ⟨item, member, gotMinor, ⟨_, isVersion, rfl, isEarlier⟩, rfl⟩

theorem earlierPoints_map_fst :
    (earlierPoints major minor published).map Prod.fst = earlierMinors major minor published := by
  rw [earlierPoints, earlierMinors, List.map_filterMap]
  refine congrArg (List.filterMap · published) (funext fun item => ?_)
  rw [Option.map_map]
  exact Option.map_id'

theorem mem_earlierMinors {gotMinor : Int} :
    gotMinor ∈ earlierMinors major minor published ↔
      some (major, some gotMinor) ∈ published.map versionOf ∧ gotMinor < minor := by
  rw [← earlierPoints_map_fst, List.mem_map, List.mem_map]
  constructor
  · rintro ⟨⟨_, item⟩, member, rfl⟩
    rcases mem_earlierPoints.mp member with ⟨listed, isVersion, isEarlier⟩
    exact ⟨⟨item, listed, isVersion⟩, isEarlier⟩
  · rintro ⟨⟨item, listed, isVersion⟩, isEarlier⟩
    exact ⟨(gotMinor, item), mem_earlierPoints.mpr ⟨listed, isVersion, isEarlier⟩, rfl⟩

theorem mem_sortedPoints {point : Int × Text} :
    point ∈ sortedPoints major minor published ↔ point ∈ earlierPoints major minor published :=
  (List.perm_insertionSort _ _).mem_iff

theorem sortedPoints_minors_perm :
    ((sortedPoints major minor published).map Prod.fst).Perm (earlierMinors major minor published) := by
  rw [← earlierPoints_map_fst]
  exact (List.perm_insertionSort _ _).map _

instance : Std.Total PointLe where
  total left right := by
    rcases lt_trichotomy left.1 right.1 with less | same | more
    · exact .inl (.inl less)
    · exact (le_total left.2 right.2).imp (fun less => .inr ⟨same, less⟩) fun less => .inr ⟨same.symm, less⟩
    · exact .inr (.inl more)

instance : IsTrans (Int × Text) PointLe where
  trans first second third := by
    rintro (less | ⟨same, before⟩) (less' | ⟨same', before'⟩)
    · exact .inl (less.trans less')
    · exact .inl (same' ▸ less)
    · exact .inl (same ▸ less')
    · exact .inr ⟨same.trans same', before.trans before'⟩

theorem sortedPoints_minors_sorted :
    ((sortedPoints major minor published).map Prod.fst).Pairwise (· ≤ ·) := by
  refine List.Pairwise.map _ ?_ (List.pairwise_insertionSort PointLe _)
  rintro left right (less | ⟨same, _⟩)
  · exact less.le
  · exact same.le

/-- The minor numbers of the chosen point releases. -/
def chosenMinors (major minor : Int) (published : List Text) : List Int :=
  ((sortedPoints major minor published).map Prod.fst).rtake 3

theorem chosen_versions :
    (((sortedPoints major minor published).rtake 3).map Prod.snd).map versionOf =
      (chosenMinors major minor published).map fun gotMinor => some (major, some gotMinor) := by
  have sameRange : chosenMinors major minor published =
      ((sortedPoints major minor published).rtake 3).map Prod.fst := by
    rw [chosenMinors, List.rtake, List.rtake, List.map_drop, List.length_map]
  rw [sameRange, List.map_map, List.map_map]
  refine List.map_congr_left fun point chosen => ?_
  have member := mem_sortedPoints.mp (List.mem_of_mem_drop chosen)
  exact (mem_earlierPoints.mp member).2.1

theorem mem_lastBaseline {item : Text} (last : lastBaseline major published = some item) :
    item ∈ published ∧ versionOf item = some (major, none) := by
  have member := List.mem_of_mem_getLast? last
  simpa using List.mem_filter.mp member

theorem baseline_versions :
    (baselineItems (lastBaseline major published)).map versionOf =
      if some (major, none) ∈ published.map versionOf then [some (major, none)] else [] := by
  cases last : lastBaseline major published with
  | none =>
      have absent : some (major, none) ∉ published.map versionOf := by
        rw [lastBaseline, List.getLast?_eq_none_iff, List.filter_eq_nil_iff] at last
        simpa using last
      rw [if_neg absent]
      rfl
  | some item =>
      rcases mem_lastBaseline last with ⟨listed, isVersion⟩
      have nonempty : item.isEmpty = false := by simpa using nonempty_of_versionOf isVersion
      rw [if_pos (List.mem_map.mpr ⟨item, listed, isVersion⟩), baselineItems, nonempty, ← isVersion]
      rfl

theorem mem_of_selected {item : Text}
    (selected : item ∈ baselineItems (lastBaseline major published) ++
      ((sortedPoints major minor published).rtake 3).map Prod.snd) : item ∈ published := by
  rcases List.mem_append.mp selected with isBaseline | chosen
  · cases last : lastBaseline major published with
    | none =>
        rw [last] at isBaseline
        cases isBaseline
    | some baseline =>
        rcases mem_lastBaseline last with ⟨listed, isVersion⟩
        have nonempty : baseline.isEmpty = false := by simpa using nonempty_of_versionOf isVersion
        rw [last, baselineItems, nonempty] at isBaseline
        exact List.mem_singleton.mp isBaseline ▸ listed
  · rcases List.mem_map.mp chosen with ⟨⟨gotMinor, _⟩, member, rfl⟩
    exact (mem_earlierPoints.mp (mem_sortedPoints.mp (List.mem_of_mem_drop member))).1

/-- No chosen version is repeated if no chosen minor number is. -/
theorem nodup_versions_iff :
    ((baselineItems (lastBaseline major published) ++
      ((sortedPoints major minor published).rtake 3).map Prod.snd).map versionOf).Nodup ↔
      (chosenMinors major minor published).Nodup := by
  have injective : Function.Injective fun gotMinor : Int => some (major, some gotMinor) := by
    intro first second same
    cases same
    rfl
  rw [List.map_append, baseline_versions, chosen_versions]
  split
  · rw [List.singleton_append, List.nodup_cons, List.nodup_map_iff injective]
    exact and_iff_right (by simp)
  · rw [List.nil_append, List.nodup_map_iff injective]

theorem nodup_chosenMinors_iff :
    (chosenMinors major minor published).Nodup ↔ ∀ gotMinor,
      2 ≤ (earlierMinors major minor published).count gotMinor →
      2 ≤ (earlierMinors major minor published).countP (gotMinor < ·) := by
  rw [chosenMinors, nodup_rtake_iff sortedPoints_minors_sorted]
  refine forall_congr' fun gotMinor => ?_
  rw [sortedPoints_minors_perm.count_eq, sortedPoints_minors_perm.countP_eq]
  omega

theorem mem_chosenMinors (once : (chosenMinors major minor published).Nodup) {gotMinor : Int} :
    gotMinor ∈ chosenMinors major minor published ↔
      gotMinor ∈ earlierMinors major minor published ∧
      ((earlierMinors major minor published).toFinset.filter (gotMinor < ·)).card < 3 := by
  have sameSet : ((sortedPoints major minor published).map Prod.fst).toFinset =
      (earlierMinors major minor published).toFinset :=
    List.toFinset_eq_of_perm _ _ sortedPoints_minors_perm
  constructor
  · intro chosen
    have member := List.mem_of_mem_drop chosen
    refine ⟨sortedPoints_minors_perm.mem_iff.mp member, ?_⟩
    rw [← sameSet]
    exact (mem_rtake_iff sortedPoints_minors_sorted once member).mp chosen
  · rintro ⟨member, few⟩
    rw [← sameSet] at few
    exact (mem_rtake_iff sortedPoints_minors_sorted once
      (sortedPoints_minors_perm.mem_iff.mpr member)).mpr few

theorem isBase_iff {version : Int × Option Int} :
    IsBase (major, some minor) published version ↔
      some version ∈ published.map versionOf ∧ version = (major, none) ∨
      ∃ gotMinor, version = (major, some gotMinor) ∧ gotMinor ∈ earlierMinors major minor published ∧
        ((earlierMinors major minor published).toFinset.filter (gotMinor < ·)).card < 3 := by
  rcases version with ⟨gotMajor, _ | gotMinor⟩
  · simp [IsBase]
  · simp only [IsBase, mem_earlierMinors]
    constructor
    · rintro ⟨listed, _, ⟨⟩, rfl, isEarlier⟩
      exact .inr ⟨gotMinor, rfl, ⟨listed, (isEarlier gotMinor rfl).1⟩, (isEarlier gotMinor rfl).2⟩
    · rintro (⟨_, isBaseline⟩ | ⟨_, ⟨⟩, ⟨listed, isEarlier⟩, few⟩)
      · cases isBaseline
      · refine ⟨listed, minor, rfl, rfl, ?_⟩
        rintro _ ⟨⟩
        exact ⟨isEarlier, few⟩

theorem mem_selected_versions (once : (chosenMinors major minor published).Nodup)
    {version : Int × Option Int} :
    some version ∈ (baselineItems (lastBaseline major published) ++
      ((sortedPoints major minor published).rtake 3).map Prod.snd).map versionOf ↔
      IsBase (major, some minor) published version := by
  rw [isBase_iff, List.map_append, baseline_versions, chosen_versions, List.mem_append]
  refine or_congr ?_ ?_
  · split
    · rename_i listed
      simp only [List.mem_singleton, Option.some.injEq]
      constructor
      · rintro rfl
        exact ⟨listed, rfl⟩
      · exact And.right
    · rename_i unlisted
      refine iff_of_false List.not_mem_nil ?_
      rintro ⟨listed, rfl⟩
      exact unlisted listed
  · rw [List.mem_map]
    simp only [mem_chosenMinors once, Option.some.injEq]
    constructor
    · rintro ⟨gotMinor, chosen, isVersion⟩
      exact ⟨gotMinor, isVersion.symm, chosen⟩
    · rintro ⟨gotMinor, isVersion, chosen⟩
      exact ⟨gotMinor, chosen, isVersion.symm⟩

end Selection

/-- A release that is listed again takes the place of another one, unless two
entries stand between it and the target: otherwise the bases are those of the
description. -/
theorem eligible_bases_once {target : Text} {numbers : Int × Option Int}
    (parsed : parseVersion (.str target) = .ok numbers) (published : List Text) :
    SelectsBases target numbers published ↔ ∀ minor, numbers.2 = some minor →
      (∀ item ∈ published, Readable item) ∧
      ∀ gotMinor, 2 ≤ (earlierMinors numbers.1 minor published).count gotMinor →
        2 ≤ (earlierMinors numbers.1 minor published).countP (gotMinor < ·) := by
  rcases numbers with ⟨major, _ | minor⟩
  · refine iff_of_true ⟨[], ?_, fun _ member => absurd member List.not_mem_nil, List.nodup_nil, ?_⟩ ?_
    · rw [eligibleBaseVersions, parsed]
      rfl
    · refine fun version => iff_of_false List.not_mem_nil ?_
      rintro ⟨_, _, ⟨⟩, _⟩
    · rintro _ ⟨⟩
  · simp only [Option.some.injEq, forall_eq', SelectsBases, eligibleBaseVersions_eq_ok parsed,
      ← nodup_chosenMinors_iff]
    constructor
    · rintro ⟨_, ⟨readable, rfl⟩, _, once, _⟩
      exact ⟨readable, nodup_versions_iff.mp once⟩
    · rintro ⟨readable, once⟩
      exact ⟨_, ⟨readable, rfl⟩, fun item => mem_of_selected, nodup_versions_iff.mpr once,
        fun version => mem_selected_versions once⟩

/-- Three point releases and the baseline, each published once. -/
theorem eligible_bases_once_history :
    SelectsBases "zlyme43.8".toList (43, some 8)
      (["zlyme43", "zlyme43.5", "zlyme43.6", "zlyme44", "zlyme43.7"].map String.toList) := by
  refine (eligible_bases_once (by decide +kernel) _).mpr ?_
  rintro _ ⟨⟩
  have readable : ∀ item ∈ ["zlyme43", "zlyme43.5", "zlyme43.6", "zlyme44", "zlyme43.7"].map String.toList,
      (versionOf item).isSome = true := by
    decide +kernel
  have minors : earlierMinors 43 8
      (["zlyme43", "zlyme43.5", "zlyme43.6", "zlyme44", "zlyme43.7"].map String.toList) = [5, 6, 7] := by
    decide +kernel
  refine ⟨fun item member error refused => ?_, fun gotMinor repeated => ?_⟩
  · have isSome := readable item member
    rw [versionOf, refused] at isSome
    cases isSome
  · have once : ([5, 6, 7] : List Int).Nodup := by decide
    rw [minors] at repeated
    exact absurd (List.nodup_iff_count_le_one.mp once gotMinor) (Nat.not_le_of_lt repeated)

/-- `zlyme43.7` is listed twice: it is chosen twice, and `zlyme43.5` is not. -/
theorem eligible_bases_repeat :
    ¬SelectsBases "zlyme43.8".toList (43, some 8)
      (["zlyme43", "zlyme43.5", "zlyme43.6", "zlyme43.7", "zlyme43.7"].map String.toList) := by
  rintro ⟨out, isOut, _, once, _⟩
  have computed : eligibleBaseVersions "zlyme43.8".toList
      (["zlyme43", "zlyme43.5", "zlyme43.6", "zlyme43.7", "zlyme43.7"].map String.toList) =
      .ok (["zlyme43", "zlyme43.6", "zlyme43.7", "zlyme43.7"].map String.toList) := by
    decide +kernel
  rw [computed] at isOut
  cases isOut
  exact absurd once (by decide +kernel)

end Zlyme.Release
