import Zlyme.Preloader.State

/-! # Exceptions of the image tests

Which functions of `preloader_image.py` end in nothing but a result or `SystemExit`, and
which bytes make `_walk` raise something else.
-/

namespace Zlyme.Preloader

open Foundation Foundation.Bytes

/-! ## Endings -/

/-- A function returns a result or raises `SystemExit`, which the callers handle. -/
inductive Handled {α : Type} : Except PyError α → Prop
  | ok (value : α) : Handled (.ok value)
  | exit (message : String) : Handled (.error (.systemExit message))

section Endings

variable {α β : Type}

theorem handled_bind_iff {first : Except PyError α} {rest : α → Except PyError β} :
    Handled (first >>= rest) ↔
      Handled first ∧ ∀ value, first = .ok value → Handled (rest value) := by
  cases first with
  | ok value =>
      constructor
      · refine fun handled => ⟨.ok value, ?_⟩
        rintro _ ⟨⟩
        exact handled
      · exact fun handled => handled.2 value rfl
  | error error =>
      constructor
      · intro handled
        cases handled with
        | exit message => exact ⟨.exit message, nofun⟩
      · rintro ⟨handled, -⟩
        cases handled with
        | exit message => exact .exit message

theorem Handled.bind {first : Except PyError α} {rest : α → Except PyError β}
    (handled : Handled first) (goesOn : ∀ value, Handled (rest value)) :
    Handled (first >>= rest) :=
  handled_bind_iff.mpr ⟨handled, fun value _ => goesOn value⟩

theorem handled_refuseIf_bind {condition : Prop} [Decidable condition] {message : String}
    {rest : Unit → Except PyError β} :
    Handled (refuseIf condition message >>= rest) ↔ (¬condition → Handled (rest ())) := by
  rw [refuseIf]
  split
  · rename_i holds
    exact ⟨fun _ fails => absurd holds fails, fun _ => .exit message⟩
  · rename_i fails
    exact ⟨fun handled _ => handled, fun handled => handled fails⟩

theorem handled_refuseIf (condition : Prop) [Decidable condition] (message : String) :
    Handled (refuseIf condition message) := by
  rw [refuseIf]
  split
  · exact .exit message
  · exact .ok ()

theorem handled_catchExit_iff {attempt : Except PyError α} :
    Handled (catchExit attempt) ↔ Handled attempt := by
  constructor
  · intro handled
    rcases attempt with (message | _ | _ | _) | value
    · exact .exit message
    · cases handled
    · cases handled
    · cases handled
    · exact .ok value
  · intro handled
    cases handled with
    | ok value => exact .ok _
    | exit message => exact .ok _

theorem handled_load (storage : Storage) (path : Path) (missing : String) :
    Handled (load storage path missing) := by
  rw [load]
  split
  · exact .ok _
  · exact .exit missing

end Endings

/-! ## The copies and the tree -/

theorem handled_parseEntry (sha : Sha256) (data : Bytes) (base i : Nat) :
    Handled (parseEntry sha data base i) :=
  handled_refuseIf_bind.mpr fun _ => handled_refuseIf_bind.mpr fun _ =>
    handled_refuseIf_bind.mpr fun _ => .ok _

theorem handled_parseCopy (sha : Sha256) (data : Bytes) (base : Nat) :
    Handled (parseCopy sha data base) :=
  handled_refuseIf_bind.mpr fun _ =>
    (handled_parseEntry sha data base ddrIndex).bind fun _ =>
      (handled_parseEntry sha data base splIndex).bind fun _ => .ok _

theorem handled_parse (layout : Layout) (sha : Sha256) (data : Bytes) :
    Handled (parse layout sha data) :=
  handled_refuseIf_bind.mpr fun _ =>
    (handled_parseCopy sha data layout.firstCopy).bind fun _ =>
      (handled_parseCopy sha data layout.secondCopy).bind fun _ => .ok _

theorem handled_paired (layout : Layout) (sha : Sha256) (data : Bytes) :
    Handled (paired layout sha data) := by
  refine (handled_parse layout sha data).bind fun found => ?_
  split
  · refine handled_refuseIf_bind.mpr fun _ => ?_
    split
    · exact handled_refuseIf_bind.mpr fun _ => .ok _
    · exact .exit _
  · exact .exit _

theorem handled_fdt (layout : Layout) (payload : Bytes) : Handled (fdt layout payload) :=
  handled_refuseIf_bind.mpr fun _ => handled_refuseIf_bind.mpr fun _ =>
    handled_refuseIf_bind.mpr fun _ => handled_refuseIf_bind.mpr fun _ =>
      handled_refuseIf_bind.mpr fun _ => handled_refuseIf_bind.mpr fun _ =>
        handled_refuseIf_bind.mpr fun _ => .ok _

/-! ## Readable tokens -/

/-- A name ends in a NUL and is UTF-8. -/
def NameReadable (bytes : Bytes) : Prop :=
  0 ∈ bytes ∧ utf8Valid [] (bytes.takeWhile (· != 0)) = true

/-- The bytes at a token are there as far as the token reads them. -/
structure TokenReadable (strings rest : Bytes) : Prop where
  word : 4 ≤ rest.length
  node : unpackBe32 rest = some 1 → NameReadable (rest.drop 4)
  prop : unpackBe32 rest = some 3 → 12 ≤ rest.length ∧
    ∀ nameoff, unpackBe32 (rest.drop 8) = some nameoff → nameoff < strings.length →
      NameReadable (strings.drop nameoff)

theorem take_idxOf? {bytes : Bytes} {length : Nat} (found : bytes.idxOf? 0 = some length) :
    0 ∈ bytes ∧ bytes.take length = bytes.takeWhile (· != 0) := by
  induction bytes generalizing length with
  | nil => cases found
  | cons byte rest induction =>
      rw [List.idxOf?_cons] at found
      by_cases zero : byte = 0
      · subst zero
        cases found
        exact ⟨List.mem_cons_self, rfl⟩
      · rw [if_neg (by simpa using zero)] at found
        rcases Option.map_eq_some_iff.mp found with ⟨before, earlier, rfl⟩
        have rest := induction earlier
        refine ⟨List.mem_cons_of_mem _ rest.1, ?_⟩
        rw [List.take_succ_cons, rest.2, List.takeWhile_cons_of_pos (by simpa using zero)]

theorem idxOf?_eq_none {bytes : Bytes} : bytes.idxOf? 0 = none ↔ 0 ∉ bytes :=
  List.idxOf?_eq_none_iff

theorem handled_decode_iff {bytes : Bytes} :
    Handled (decode bytes) ↔ utf8Valid [] bytes = true := by
  rw [decode]
  split <;> rename_i valid
  · exact ⟨fun _ => valid, fun _ => .ok bytes⟩
  · refine ⟨fun handled => ?_, fun isValid => absurd isValid valid⟩
    cases handled

theorem handled_propName_iff {strings : Bytes} {nameoff : Nat} :
    Handled (propName strings nameoff) ↔
      (nameoff < strings.length → NameReadable (strings.drop nameoff)) := by
  rw [propName]
  split
  · rename_i outside
    exact ⟨fun _ inside => absurd inside (Nat.not_lt.mpr outside), fun _ => .exit _⟩
  · rename_i outside
    have inside := Nat.lt_of_not_le outside
    cases found : (strings.drop nameoff).idxOf? 0 with
    | none =>
        exact ⟨nofun, fun readable =>
          absurd (readable inside).1 (idxOf?_eq_none.mp found)⟩
    | some length =>
        have name := take_idxOf? found
        simp only [handled_decode_iff, name.2]
        exact ⟨fun valid _ => ⟨name.1, valid⟩, fun readable => (readable inside).2⟩

theorem unpackBe32_eq_none {bytes : Bytes} : unpackBe32 bytes = none ↔ bytes.length < 4 := by
  rcases bytes with _ | ⟨b0, _ | ⟨b1, _ | ⟨b2, _ | ⟨b3, rest⟩⟩⟩⟩
  · exact ⟨fun _ => by decide, fun _ => rfl⟩
  · exact ⟨fun _ => by simp, fun _ => rfl⟩
  · exact ⟨fun _ => by simp, fun _ => rfl⟩
  · exact ⟨fun _ => by simp, fun _ => rfl⟩
  · simp [unpackBe32]

theorem unpackBe32_isSome {bytes : Bytes} (long : 4 ≤ bytes.length) :
    ∃ word, unpackBe32 bytes = some word := by
  cases read : unpackBe32 bytes with
  | none => exact absurd (unpackBe32_eq_none.mp read) (Nat.not_lt.mpr long)
  | some word => exact ⟨word, rfl⟩

/-! ## One turn of the loop -/

section Step

variable {strings rest : Bytes} {p : Nat} {stack : List Bytes}

theorem handled_node_iff (token : unpackBe32 rest = some 1) :
    Handled (walkStep strings rest p stack) ↔ NameReadable (rest.drop 4) := by
  simp only [walkStep, token]
  cases found : (rest.drop 4).idxOf? 0 with
  | none =>
      refine ⟨fun handled => ?_, fun readable => absurd readable.1 (idxOf?_eq_none.mp found)⟩
      cases handled
  | some length =>
      have name := take_idxOf? found
      simp only [handled_bind_iff, handled_decode_iff, name.2]
      exact ⟨fun handled => ⟨name.1, handled.1⟩, fun readable => ⟨readable.2, fun _ _ => .ok _⟩⟩

theorem handled_prop_iff (token : unpackBe32 rest = some 3) :
    Handled (walkStep strings rest p stack) ↔ 12 ≤ rest.length ∧
      ∀ nameoff, unpackBe32 (rest.drop 8) = some nameoff → nameoff < strings.length →
        NameReadable (strings.drop nameoff) := by
  simp only [walkStep, token]
  cases nameoffRead : unpackBe32 (rest.drop 8) with
  | none =>
      have short := unpackBe32_eq_none.mp nameoffRead
      rw [List.length_drop] at short
      cases unpackBe32 (rest.drop 4) with
      | none | some _ => exact ⟨fun handled => (by cases handled), fun readable => by omega⟩
  | some nameoff =>
      have long : ¬rest.length - 8 < 4 := by
        rw [← List.length_drop]
        intro short
        rw [unpackBe32_eq_none.mpr short] at nameoffRead
        cases nameoffRead
      rcases unpackBe32_isSome (by rw [List.length_drop]; omega : 4 ≤ (rest.drop 4).length) with
        ⟨length, lengthRead⟩
      simp only [lengthRead, handled_bind_iff, handled_propName_iff]
      constructor
      · rintro ⟨named, -⟩
        refine ⟨by omega, ?_⟩
        rintro _ ⟨⟩
        exact named
      · exact fun readable => ⟨readable.2 nameoff rfl, fun _ _ => .ok _⟩

/-- A turn of the loop ends well exactly when the bytes of its token can be read. -/
theorem handled_walkStep_iff :
    Handled (walkStep strings rest p stack) ↔ TokenReadable strings rest := by
  cases token : unpackBe32 rest with
  | none =>
      simp only [walkStep, token]
      refine ⟨fun handled => ?_, fun readable =>
        absurd (unpackBe32_eq_none.mp token) (Nat.not_lt.mpr readable.word)⟩
      cases handled
  | some word =>
      have long : 4 ≤ rest.length := by
        refine Nat.le_of_not_lt fun short => ?_
        rw [unpackBe32_eq_none.mpr short] at token
        cases token
      by_cases isNode : word = 1
      · subst isNode
        rw [handled_node_iff token]
        exact ⟨fun named => ⟨long, fun _ => named, by simp [token]⟩,
          fun readable => readable.node token⟩
      by_cases isProp : word = 3
      · subst isProp
        rw [handled_prop_iff token]
        exact ⟨fun named => ⟨long, by simp [token], fun _ => named⟩,
          fun readable => readable.prop token⟩
      have readable : TokenReadable strings rest :=
        ⟨long, by simp [token, isNode], by simp [token, isProp]⟩
      refine ⟨fun _ => readable, fun _ => ?_⟩
      rw [walkStep.eq_def, token]
      split
      · rename_i impossible
        cases impossible
      · rename_i one
        exact absurd (Option.some.inj one) isNode
      · split
        · exact .exit _
        · exact .ok _
      · rename_i three
        exact absurd (Option.some.inj three) isProp
      · exact .ok _
      · exact .ok _
      · exact .exit _

end Step

/-! ## The whole walk -/

/-- The walk from position `p` with these open nodes reads a token at `q`. -/
inductive Passes (blob strings : Bytes) (stop : Nat) : Nat → List Bytes → Nat → Prop
  | here {p : Nat} {stack : List Bytes} (inside : p < stop) : Passes blob strings stop p stack p
  | next {p next q : Nat} {stack stack' : List Bytes} {item : Option FdtItem} (inside : p < stop)
      (token : Token strings (blob.drop p) p stack next stack' item)
      (later : Passes blob strings stop next stack' q) : Passes blob strings stop p stack q

theorem Passes.inside {blob strings : Bytes} {stop p q : Nat} {stack : List Bytes}
    (passes : Passes blob strings stop p stack q) : p < stop := by
  cases passes <;> assumption

theorem handled_walkLoop_iff {blob strings : Bytes} {stop turns p : Nat} {stack : List Bytes}
    (enough : stop ≤ p + turns) :
    Handled (walkLoop blob strings stop turns p stack) ↔
      ∀ q, Passes blob strings stop p stack q → TokenReadable strings (blob.drop q) := by
  induction turns generalizing p stack with
  | zero =>
      refine ⟨fun _ q passes => ?_, fun _ => .exit _⟩
      have inside := passes.inside
      omega
  | succ turns induction =>
      rw [walkLoop]
      by_cases inside : p < stop
      · rw [if_pos inside, handled_bind_iff, handled_walkStep_iff]
        constructor
        · rintro ⟨readable, goesOn⟩ q passes
          cases passes with
          | here => exact readable
          | next _ token later =>
              have step := walkStep_eq_next_iff.mpr token
              have moved := token.advances
              exact (induction (by omega)).mp
                (handled_bind_iff.mp (goesOn _ step)).1 q later
        · intro readable
          refine ⟨readable p (.here inside), fun step stepped => ?_⟩
          cases step with
          | done => exact .ok []
          | next next stack' item =>
              have token := walkStep_eq_next_iff.mp stepped
              have moved := token.advances
              refine handled_bind_iff.mpr ⟨(induction (by omega)).mpr fun q later =>
                readable q (.next inside token later), fun _ _ => .ok _⟩
      · rw [if_neg inside]
        exact ⟨fun _ q passes => absurd passes.inside inside, fun _ => .exit _⟩

/-- More turns than the bound of the loop change nothing. -/
theorem walkLoop_turns {blob strings : Bytes} {stop turns more p : Nat} {stack : List Bytes}
    (enough : stop ≤ p + turns) (least : turns ≤ more) :
    walkLoop blob strings stop more p stack = walkLoop blob strings stop turns p stack := by
  induction turns generalizing p stack more with
  | zero =>
      cases more with
      | zero => rfl
      | succ more => rw [walkLoop, walkLoop, if_neg (by omega)]
  | succ turns induction =>
      cases more with
      | zero => omega
      | succ more =>
          rw [walkLoop, walkLoop]
          split
          · cases stepped : walkStep strings (blob.drop p) p stack with
            | error error => rfl
            | ok step =>
                cases step with
                | done => rfl
                | next next stack' item =>
                    have moved := (walkStep_eq_next_iff.mp stepped).advances
                    rw [ok_bind, ok_bind]
                    dsimp only
                    rw [induction (by omega) (by omega)]
          · rfl

/-- The header that `_walk` accepts. -/
structure HeaderFits (blob : Bytes) : Prop where
  long : 40 ≤ blob.length
  magic : blob.take 4 = fdtMagic
  total : (readHeader blob).total = blob.length
  structInside : (readHeader blob).offStruct + (readHeader blob).sizeStruct ≤ blob.length
  stringsInside : (readHeader blob).offStr + (readHeader blob).sizeStr ≤ blob.length

def stringsOf (blob : Bytes) : Bytes :=
  slice blob (readHeader blob).offStr ((readHeader blob).offStr + (readHeader blob).sizeStr)

/-- Every token that the walk comes to can be read. -/
def TreeReadable (blob : Bytes) : Prop :=
  HeaderFits blob → ∀ q,
    Passes blob (stringsOf blob) ((readHeader blob).offStruct + (readHeader blob).sizeStruct)
      (readHeader blob).offStruct [] q → TokenReadable (stringsOf blob) (blob.drop q)

theorem handled_walk_iff {blob : Bytes} : Handled (walk blob) ↔ TreeReadable blob := by
  rw [walk]
  dsimp only
  split
  · rename_i refused
    refine ⟨fun _ fits => ?_, fun _ => .exit _⟩
    rcases refused with short | other
    · exact absurd fits.long (Nat.not_le.mpr short)
    · exact absurd fits.magic other
  rename_i accepted
  split
  · rename_i refused
    refine ⟨fun _ fits => ?_, fun _ => .exit _⟩
    rcases refused with total | outside | outside
    · exact absurd fits.total total
    · exact absurd fits.structInside (Nat.not_le.mpr outside)
    · exact absurd fits.stringsInside (Nat.not_le.mpr outside)
  rename_i inRange
  simp only [not_or, Decidable.not_not, Nat.not_lt] at accepted inRange
  have fits : HeaderFits blob := ⟨accepted.1, accepted.2, inRange.1, inRange.2.1, inRange.2.2⟩
  rw [handled_bind_iff, handled_walkLoop_iff (Nat.le_refl _)]
  exact ⟨fun handled _ => handled.1, fun readable => ⟨readable fits, fun _ _ => .ok _⟩⟩

end Zlyme.Preloader
