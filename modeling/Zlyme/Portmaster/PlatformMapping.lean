import Zlyme.Portmaster.PatchHardware

/-! # The class that zlyme is mapped to

The mappings of `zlyme` in `platform.py` before and after the patch. The patch refuses a text where
its result maps `zlyme` to `PlatformROCKNIX`, and does not see a mapping to another class.
-/

namespace Zlyme.Portmaster.PatchHardware

open Foundation.Replace
open Release (isSpace)

/-! ## Names -/

section Words

variable (words : Words)

def isAsciiWord (name : Source) : Bool :=
  name.all fun char => decide (char.toNat < 128) && (char.isAlphanum || char == '_')

theorem Words.all_of_ascii {name : Source} (ascii : isAsciiWord name = true) :
    ∀ char ∈ name, words.isWord char = true := by
  intro char member
  have isAscii := List.all_eq_true.mp ascii char member
  rw [Bool.and_eq_true, decide_eq_true_eq] at isAscii
  rw [words.ascii char isAscii.1, isAscii.2]

theorem takeWhile_word {name rest : Source} (ascii : isAsciiWord name = true)
    (boundary : isBoundary words rest = true) :
    (name ++ rest).takeWhile words.isWord = name := by
  rw [List.takeWhile_append_of_pos (words.all_of_ascii ascii)]
  cases rest with
  | nil => simp
  | cons char rest =>
      simp only [isBoundary, List.head?_cons, Option.any_some, Bool.not_eq_true'] at boundary
      rw [List.takeWhile_cons_of_neg (by simp [boundary]), List.append_nil]

theorem isBoundary_takeWhile (text : Source) :
    isBoundary words (text.drop (text.takeWhile words.isWord).length) = true := by
  induction text with
  | nil => rfl
  | cons char rest induction =>
      by_cases isWord : words.isWord char = true
      · rw [List.takeWhile_cons_of_pos isWord, List.length_cons, List.drop_succ_cons, induction]
      · rw [List.takeWhile_cons_of_neg isWord]
        simp [isBoundary, isWord]

theorem isBoundary_of_ascii {char : Char} {rest : Source} (ascii : char.toNat < 128)
    (plain : (char.isAlphanum || char == '_') = false) :
    isBoundary words (char :: rest) = true := by
  simp [isBoundary, words.ascii char ascii, plain]

/-! ## Mappings -/

/-- The name that the text maps `zlyme` to at its start. -/
def mappingAt (text : Source) : Option Source :=
  (afterKey text).map (·.takeWhile words.isWord)

def mappings (text : Source) : List Source :=
  text.tails.filterMap (mappingAt words)

theorem mapsTo_iff {name text : Source} (ascii : isAsciiWord name = true) :
    mapsTo words name text = true ↔ mappingAt words text = some name := by
  rw [mapsTo, mappingAt, Option.any_eq_true, Option.map_eq_some_iff]
  refine exists_congr fun rest => and_congr_right fun _ => ?_
  rw [Bool.and_eq_true, decide_eq_true_eq]
  constructor
  · rintro ⟨⟨after, rfl⟩, boundary⟩
    rw [List.drop_left] at boundary
    exact takeWhile_word words ascii boundary
  · intro taken
    rw [← taken]
    exact ⟨List.takeWhile_prefix _, isBoundary_takeWhile words rest⟩

theorem search_mapsTo {name text : Source} (ascii : isAsciiWord name = true) :
    search (mapsTo words name) text = true ↔ name ∈ mappings words text := by
  rw [search, mappings, List.any_eq_true, List.mem_filterMap]
  exact exists_congr fun tail => and_congr_right fun _ => mapsTo_iff words ascii

theorem zlymeMap_iff {text : Source} :
    zlymeMap words text = true ↔ zlymeClass ∈ mappings words text :=
  search_mapsTo words (by decide)

theorem oldMap_iff {text : Source} :
    oldMap words text = true ↔ rocknixClass ∈ mappings words text :=
  search_mapsTo words (by decide)

end Words

theorem suffix_of_afterKey {text name : Source} (found : afterKey text = some name) :
    name <:+ text := by
  rw [afterKey] at found
  split at found
  · split at found
    · rename_i rest colon
      cases found
      have inText : ':' :: rest <:+ text := by
        rw [← colon]
        exact (List.dropWhile_suffix _).trans (List.drop_suffix _ _)
      exact (List.dropWhile_suffix _).trans ((List.suffix_cons ':' rest).trans inText)
    · cases found
  · cases found

/-- A character that neither the key, the colon nor the spaces of a mapping have. -/
def isEdge (char : Char) : Bool :=
  !("'zlyme'".toList.contains char) && char != ':' && !isSpace char

/-- The text begins with an edge. -/
def Edged (text : Source) : Prop :=
  text.head?.any isEdge = true

instance (text : Source) : Decidable (Edged text) :=
  inferInstanceAs (Decidable (text.head?.any isEdge = true))

theorem Edged.append {text : Source} (edged : Edged text) (after : Source) :
    Edged (text ++ after) := by
  obtain ⟨edge, first, edge_is⟩ := (Option.any_eq_true _ _).mp edged
  rw [Edged, List.head?_append, first, Option.some_or, Option.any_some, edge_is]

theorem Edged.cons {text : Source} (edged : Edged text) :
    ∃ edge rest, text = edge :: rest ∧ edge ∉ "'zlyme'".toList ∧ edge ≠ ':' ∧
      isSpace edge = false := by
  obtain ⟨edge, first, edge_is⟩ := (Option.any_eq_true _ _).mp edged
  obtain ⟨rest, split⟩ := List.head?_eq_some_iff.mp first
  simp only [isEdge, Bool.and_eq_true, Bool.not_eq_true', bne_iff_ne] at edge_is
  obtain ⟨⟨notKey, notColon⟩, notSpace⟩ := edge_is
  refine ⟨edge, rest, split, fun member => ?_, notColon, notSpace⟩
  rw [List.contains_iff_mem.mpr member] at notKey
  cases notKey

theorem dropWhile_edge {edge : Char} (notSpace : isSpace edge = false) (before after : Source) :
    (before ++ edge :: after).dropWhile isSpace = before.dropWhile isSpace ++ edge :: after := by
  induction before with
  | nil => simp [notSpace]
  | cons char before induction =>
      by_cases space : isSpace char = true
      · simp [space, induction]
      · simp [space]

theorem key_prefix_edge {edge : Char} (notKey : edge ∉ "'zlyme'".toList) (before after : Source) :
    "'zlyme'".toList <+: before ++ edge :: after ↔ "'zlyme'".toList <+: before := by
  constructor
  · intro begins
    have apart : Apart "'zlyme'".toList [edge] := by
      intro rest isTail nonempty
      have inKey := ((List.mem_tails _ _).mp isTail).subset
      constructor
      · intro shorter
        obtain ⟨char, member⟩ := List.exists_mem_of_ne_nil rest nonempty
        exact notKey (List.mem_singleton.mp (shorter.subset member) ▸ inKey member)
      · intro longer
        exact notKey (inKey (longer.subset (List.mem_singleton.mpr rfl)))
    exact prefix_of_apart apart begins
  · intro begins
    exact begins.trans (List.prefix_append before _)

/-- What stands before an edge decides alone whether a mapping begins in it. -/
theorem afterKey_append {after : Source} (edged : Edged after) (before : Source) :
    afterKey (before ++ after) = (afterKey before).map (· ++ after) := by
  obtain ⟨edge, later, rfl, notKey, notColon, notSpace⟩ := edged.cons
  simp only [afterKey, key_prefix_edge notKey before later]
  by_cases begins : "'zlyme'".toList <+: before
  · obtain ⟨rest, rfl⟩ := begins
    rw [if_pos (List.prefix_append _ rest), if_pos (List.prefix_append _ rest), List.append_assoc,
      List.drop_left, List.drop_left, dropWhile_edge notSpace]
    cases rest.dropWhile isSpace with
    | nil =>
        rw [List.nil_append]
        split
        · rename_i isColon
          exact absurd (List.cons.inj isColon).1 notColon
        · rfl
    | cons char rest =>
        by_cases colon : char = ':'
        · subst colon
          simp only [List.cons_append, Option.map_some, dropWhile_edge notSpace]
        · rw [List.cons_append]
          split
          · rename_i isColon
            exact absurd (List.cons.inj isColon).1 colon
          · split
            · rename_i isColon
              exact absurd (List.cons.inj isColon).1 colon
            · rfl
  · rw [if_neg begins, if_neg begins]
    rfl

/-! ## Other classes -/

def classPrefix : Source :=
  "Platform".toList

/-- A platform class that the patch does not know. -/
def Foreign (name : Source) : Prop :=
  classPrefix <+: name ∧ name ≠ zlymeClass ∧ name ≠ rocknixClass

theorem not_foreign_nil : ¬ Foreign [] := by
  rintro ⟨begins, -⟩
  exact absurd (List.prefix_nil.mp begins) (by decide)

/-- A name that ends with a word apart from `Platform` is foreign by its start alone. -/
theorem foreign_append {name word : Source} (apart : Clear classPrefix word)
    (notZlyme : ¬ word <:+ zlymeClass) (notRocknix : ¬ word <:+ rocknixClass) :
    Foreign (name ++ word) ↔ classPrefix <+: name := by
  constructor
  · rintro ⟨begins, -⟩
    rw [← List.append_nil word] at begins
    exact prefix_of_apart apart.1 begins
  · intro begins
    refine ⟨begins.trans (List.prefix_append name word), ?_, ?_⟩
    · exact fun same => notZlyme (same ▸ List.suffix_append name word)
    · exact fun same => notRocknix (same ▸ List.suffix_append name word)

/-- Before one of the two classes, what begins the name makes it foreign. -/
theorem foreign_before_class {name : Source} :
    Foreign (name ++ rocknixClass) ↔ Foreign (name ++ zlymeClass) := by
  have rocknix : rocknixClass = classPrefix ++ "ROCKNIX".toList := by decide
  have zlyme : zlymeClass = classPrefix ++ "Zlyme".toList := by decide
  by_cases empty : name = []
  · subst empty
    exact ⟨fun foreign => absurd rfl foreign.2.2, fun foreign => absurd rfl foreign.2.1⟩
  · have longer : 0 < name.length := List.length_pos_iff.mpr empty
    have sizes : zlymeClass.length = 13 ∧ rocknixClass.length = 15 := by decide
    have notSuffix : ¬ rocknixClass <:+ zlymeClass ∧ ¬ zlymeClass <:+ rocknixClass := by
      decide
    have shared : ∀ word : Source, classPrefix <+: name ++ (classPrefix ++ word) ↔
        classPrefix <+: name ++ classPrefix := by
      intro word
      constructor
      · intro begins
        rw [← List.append_assoc] at begins
        exact List.prefix_of_prefix_length_le begins (List.prefix_append _ word) (by simp)
      · intro begins
        rw [← List.append_assoc]
        exact begins.trans (List.prefix_append _ word)
    have distinct : ∀ word known : Source, (word = zlymeClass ∨ word = rocknixClass) →
        (known = zlymeClass ∨ known = rocknixClass) → name ++ word ≠ known := by
      rintro word known (rfl | rfl) (rfl | rfl) same
      · have := congrArg List.length same
        simp only [List.length_append] at this
        omega
      · exact notSuffix.2 (same ▸ List.suffix_append name _)
      · exact notSuffix.1 (same ▸ List.suffix_append name _)
      · have := congrArg List.length same
        simp only [List.length_append] at this
        omega
    constructor
    · rintro ⟨begins, -⟩
      refine ⟨?_, distinct _ _ (.inl rfl) (.inl rfl), distinct _ _ (.inl rfl) (.inr rfl)⟩
      rw [rocknix, shared] at begins
      rwa [zlyme, shared]
    · rintro ⟨begins, -⟩
      refine ⟨?_, distinct _ _ (.inr rfl) (.inl rfl), distinct _ _ (.inr rfl) (.inr rfl)⟩
      rw [zlyme, shared] at begins
      rwa [rocknix, shared]

section Words

variable (words : Words)

def HasForeign (text : Source) : Prop :=
  ∃ name ∈ mappings words text, Foreign name

theorem hasForeign_cons {char : Char} {text : Source} :
    HasForeign words (char :: text) ↔
      (∃ name, mappingAt words (char :: text) = some name ∧ Foreign name) ∨
        HasForeign words text := by
  simp only [HasForeign, mappings, List.tails_cons, List.mem_filterMap, List.mem_cons]
  constructor
  · rintro ⟨name, ⟨tail, rfl | later, found⟩, foreign⟩
    · exact .inl ⟨name, found, foreign⟩
    · exact .inr ⟨name, ⟨tail, later, found⟩, foreign⟩
  · rintro (⟨name, found, foreign⟩ | ⟨name, ⟨tail, later, found⟩, foreign⟩)
    · exact ⟨name, ⟨_, .inl rfl, found⟩, foreign⟩
    · exact ⟨name, ⟨tail, .inr later, found⟩, foreign⟩

theorem mappingAt_of_ne {char : Char} {text : Source} (other : char ≠ '\'') :
    mappingAt words (char :: text) = none := by
  have absent : ¬ "'zlyme'".toList <+: char :: text := by
    rintro ⟨after, same⟩
    exact other (List.cons.inj same).1.symm
  simp only [mappingAt, afterKey, if_neg absent, Option.map_none]

theorem hasForeign_append_plain {before : Source} (plain : '\'' ∉ before) (after : Source) :
    HasForeign words (before ++ after) ↔ HasForeign words after := by
  induction before with
  | nil => rfl
  | cons char before induction =>
      rw [List.cons_append, hasForeign_cons,
        mappingAt_of_ne words fun quote => plain (quote ▸ List.mem_cons_self),
        induction fun member => plain (List.mem_cons_of_mem char member)]
      simp

/-- The text from an edge on can change as long as the names that reach it stay foreign or not. -/
theorem hasForeign_swap {left right : Source} (leftEdged : Edged left) (rightEdged : Edged right)
    (names : ∀ name, Foreign (name ++ left.takeWhile words.isWord) ↔
      Foreign (name ++ right.takeWhile words.isWord))
    (rest : HasForeign words left ↔ HasForeign words right) (before : Source) :
    HasForeign words (before ++ left) ↔ HasForeign words (before ++ right) := by
  have reach : ∀ name : Source, Foreign ((name ++ left).takeWhile words.isWord) ↔
      Foreign ((name ++ right).takeWhile words.isWord) := by
    intro name
    rw [List.takeWhile_append, List.takeWhile_append]
    split
    · exact names name
    · rfl
  induction before with
  | nil => exact rest
  | cons char before induction =>
      have here : ∀ {after : Source}, Edged after →
          ((∃ name, mappingAt words (char :: before ++ after) = some name ∧ Foreign name) ↔
            ∃ name, afterKey (char :: before) = some name ∧
              Foreign ((name ++ after).takeWhile words.isWord)) := by
        intro after edged
        rw [mappingAt, afterKey_append edged]
        cases afterKey (char :: before) <;> simp
      rw [List.cons_append, List.cons_append, hasForeign_cons, hasForeign_cons,
        ← List.cons_append, ← List.cons_append, here leftEdged, here rightEdged]
      exact or_congr (exists_congr fun name => and_congr_right fun _ => reach name) induction

/-! ## What the platform patch does -/

variable {text new : Source}

theorem withClass_ok (done : withClass text = .ok new) :
    new = text ∨ (∃ before after, text = before ++ (platformsMark ++ after) ∧
      new = before ++ (classBlock ++ ['\n'] ++ (platformsMark ++ after))) ∨
      new = classBlock ++ text := by
  rw [withClass] at done
  split at done
  · cases done
    exact .inl rfl
  · split at done
    · cases done
    · split at done
      · rename_i occurs
        obtain ⟨before, after, split, replaced⟩ :=
          replaceFirst_split (classBlock ++ '\n' :: platformsMark) occurs
        cases done
        refine .inr (.inl ⟨before, after, split, ?_⟩)
        rw [replaced]
        simp
      · split at done
        · cases done
        · exact .inr (.inr (Except.ok.inj done).symm)

/-- The substitution puts one class in the place of the other, at the end of a word. -/
theorem substituteOld_split (occurs : oldMap words text = true) :
    ∃ before after, text = before ++ (rocknixClass ++ after) ∧
      substituteOld words text = before ++ (zlymeClass ++ after) ∧
      isBoundary words after = true := by
  induction text with
  | nil => simp [oldMap, search, mapsTo, afterKey] at occurs
  | cons char rest induction =>
      by_cases here : mapsTo words rocknixClass (char :: rest) = true
      · obtain ⟨name, found, matched⟩ := Option.any_eq_true _ _ |>.mp here
        rw [Bool.and_eq_true, decide_eq_true_eq] at matched
        obtain ⟨⟨after, rfl⟩, boundary⟩ := matched
        obtain ⟨before, split⟩ := suffix_of_afterKey found
        rw [List.drop_left] at boundary
        refine ⟨before, after, split.symm, ?_, boundary⟩
        rw [substituteOld, found]
        simp only [here, if_true, List.drop_left]
        rw [← split, List.length_append, Nat.add_sub_cancel, List.take_left]
      · have later : oldMap words rest = true := by
          simpa [oldMap, search, here] using occurs
        obtain ⟨before, after, split, replaced, boundary⟩ := induction later
        refine ⟨char :: before, after, by rw [split]; rfl, ?_, boundary⟩
        rw [substituteOld]
        split
        · rw [if_neg here, replaced]
          rfl
        · rw [replaced]
          rfl

theorem withMapping_ok (done : withMapping words text = .ok new) :
    new = text ∨
      (∃ before after, text = before ++ (rocknixClass ++ after) ∧
        new = before ++ (zlymeClass ++ after) ∧ isBoundary words after = true) ∨
      ∃ before after, text = before ++ (rocknixAnchor ++ after) ∧
        new = before ++ (rocknixAnchor ++ ('\n' :: zlymeLine ++ after)) := by
  rw [withMapping] at done
  split at done
  · split at done
    · cases done
    · cases done
      exact .inl rfl
  · split at done
    · rename_i old
      obtain ⟨before, after, split, replaced, boundary⟩ := substituteOld_split words old
      cases done
      exact .inr (.inl ⟨before, after, split, replaced, boundary⟩)
    · split at done
      · rename_i occurs
        obtain ⟨before, after, split, replaced⟩ :=
          replaceFirst_split (rocknixAnchor ++ '\n' :: zlymeLine) occurs
        cases done
        refine .inr (.inr ⟨before, after, split, ?_⟩)
        rw [replaced]
        simp
      · cases done

theorem patchedPlatform_ok (done : patchedPlatform words text = .ok new) :
    ∃ middle, withClass text = .ok middle ∧ withMapping words middle = .ok new ∧
      classMark <:+: new ∧ zlymeMap words new = true ∧ oldMap words new = false := by
  rw [patchedPlatform] at done
  cases first : withClass text with
  | error message => rw [first] at done; cases done
  | ok middle =>
      cases second : withMapping words middle with
      | error message => rw [first] at done; simp only [bind, Except.bind, second] at done; cases done
      | ok last =>
          rw [first] at done
          simp only [bind, Except.bind, second] at done
          split at done
          · cases done
          · rename_i proven
            cases done
            simp only [not_or, not_not, Bool.not_eq_true] at proven
            exact ⟨middle, rfl, second, proven.1, by simpa using proven.2.1, proven.2.2⟩

theorem patchedPlatform_again (done : patchedPlatform words text = .ok new) :
    patchedPlatform words new = .ok new := by
  obtain ⟨-, -, -, marked, mapped, single⟩ := patchedPlatform_ok words done
  have classKept : withClass new = .ok new := by rw [withClass, if_pos marked]
  have mappingKept : withMapping words new = .ok new := by
    rw [withMapping, if_pos mapped, single]
    rfl
  rw [patchedPlatform, classKept]
  simp only [bind, Except.bind, mappingKept]
  rw [if_neg (by simp [marked, mapped, single])]
  rfl

/-! ### Classes of others -/

theorem hasForeign_withClass (done : withClass text = .ok new) :
    HasForeign words new ↔ HasForeign words text := by
  rcases withClass_ok done with rfl | ⟨before, after, rfl, rfl⟩ | prepended
  · rfl
  · have marked : ∀ rest : Source, (platformsMark ++ rest).takeWhile words.isWord =
        "HM_PLATFORMS".toList := by
      intro rest
      have split : platformsMark = "HM_PLATFORMS".toList ++ ' ' :: "= \x7b".toList := by
        decide
      rw [split, List.append_assoc]
      exact takeWhile_word words (by decide) (isBoundary_of_ascii words (by decide)
        (by decide))
    have blocked : ∀ rest : Source, (classBlock ++ rest).takeWhile words.isWord =
        "class".toList := by
      intro rest
      have split : classBlock = "class".toList ++ ' ' :: classBlock.drop 6 := by decide
      rw [split, List.append_assoc]
      exact takeWhile_word words (by decide) (isBoundary_of_ascii words (by decide)
        (by decide))
    have names : ∀ name : Source,
        Foreign (name ++ (classBlock ++ ['\n'] ++ (platformsMark ++ after)).takeWhile words.isWord) ↔
          Foreign (name ++ (platformsMark ++ after).takeWhile words.isWord) := by
      intro name
      rw [List.append_assoc classBlock, blocked, marked,
        foreign_append (by decide) (by decide +kernel) (by decide +kernel),
        foreign_append (by decide) (by decide +kernel) (by decide +kernel)]
    have plain : HasForeign words (classBlock ++ ['\n'] ++ (platformsMark ++ after)) ↔
        HasForeign words (platformsMark ++ after) :=
      hasForeign_append_plain words (by decide) _
    have block : Edged classBlock := by decide
    have mark : Edged platformsMark := by decide
    rw [List.append_assoc] at names plain ⊢
    exact hasForeign_swap words (block.append _) (mark.append after) names plain before
  · rw [prepended]
    exact hasForeign_append_plain words (by decide) text

/-- The inserted line maps `zlyme` to its own class. -/
theorem hasForeign_zlymeLine (after : Source) :
    HasForeign words (zlymeLine ++ after) ↔ HasForeign words after := by
  have line : zlymeLine = "    ".toList ++ ("'zlyme':     ".toList ++ (zlymeClass ++ [','])) := by
    decide
  have quotes : "'zlyme':     ".toList = '\'' :: ("zlyme".toList ++ '\'' :: ":     ".toList) := by
    decide
  have found : afterKey "'zlyme':     ".toList = some [] := by decide
  have own : ∀ rest : Source,
      mappingAt words ("'zlyme':     ".toList ++ (zlymeClass ++ ',' :: rest)) = some zlymeClass := by
    intro rest
    have edged : Edged zlymeClass := by decide
    rw [mappingAt, afterKey_append (edged.append _), found, Option.map_some, Option.map_some,
      List.nil_append, takeWhile_word words (by decide)]
    exact isBoundary_of_ascii words (by decide) (by decide)
  have keyed : HasForeign words ("'zlyme':     ".toList ++ (zlymeClass ++ ',' :: after)) ↔
      HasForeign words after := by
    have first := own after
    have second : mappingAt words ('\'' :: (":     ".toList ++ (zlymeClass ++ ',' :: after))) =
        none := by
      have notKey : afterKey ('\'' :: ":     ".toList) = none := by decide
      have edged : Edged zlymeClass := by decide
      rw [← List.cons_append, mappingAt, afterKey_append (edged.append _), notKey]
      rfl
    have rest : HasForeign words (":     ".toList ++ (zlymeClass ++ ',' :: after)) ↔
        HasForeign words after := by
      have plain : '\'' ∉ ":     ".toList ++ (zlymeClass ++ [',']) := by decide
      have skipped := hasForeign_append_plain words plain after
      simpa using skipped
    rw [quotes] at first ⊢
    simp only [List.cons_append, List.append_assoc] at first ⊢
    rw [hasForeign_cons, first, hasForeign_append_plain words (by decide), hasForeign_cons,
      second, rest]
    simp [Foreign]
  rw [line, List.append_assoc, hasForeign_append_plain words (by decide)]
  simpa using keyed

theorem hasForeign_withMapping (done : withMapping words text = .ok new) :
    HasForeign words new ↔ HasForeign words text := by
  rcases withMapping_ok words done with rfl | ⟨before, after, rfl, rfl, boundary⟩ |
    ⟨before, after, rfl, rfl⟩
  · rfl
  · have names : ∀ name : Source, Foreign (name ++ (zlymeClass ++ after).takeWhile words.isWord) ↔
        Foreign (name ++ (rocknixClass ++ after).takeWhile words.isWord) := by
      intro name
      rw [takeWhile_word words (by decide) boundary,
        takeWhile_word words (by decide) boundary, foreign_before_class]
    have rest : HasForeign words (zlymeClass ++ after) ↔
        HasForeign words (rocknixClass ++ after) := by
      rw [hasForeign_append_plain words (by decide),
        hasForeign_append_plain words (by decide)]
    have own : Edged zlymeClass := by decide
    have old : Edged rocknixClass := by decide
    exact hasForeign_swap words (own.append after) (old.append after) names rest before
  · have split : rocknixAnchor = "'rocknix':   PlatformROCKNIX".toList ++ [','] := by decide
    rw [split, List.append_assoc, List.append_assoc, ← List.append_assoc before,
      ← List.append_assoc before]
    have stops : ∀ rest : Source, (',' :: rest).takeWhile words.isWord = [] := by
      intro rest
      rw [List.takeWhile_cons_of_neg]
      simp [words.ascii ',' (by decide)]
    have names : ∀ name : Source,
        Foreign (name ++ (',' :: ('\n' :: zlymeLine ++ after)).takeWhile words.isWord) ↔
          Foreign (name ++ (',' :: after).takeWhile words.isWord) := by
      intro name
      rw [stops, stops]
    have comma : ∀ rest : Source, HasForeign words (',' :: rest) ↔ HasForeign words rest :=
      @hasForeign_append_plain words [','] (by decide)
    have newline : ∀ rest : Source, HasForeign words ('\n' :: rest) ↔ HasForeign words rest :=
      @hasForeign_append_plain words ['\n'] (by decide)
    have rest : HasForeign words (',' :: ('\n' :: zlymeLine ++ after)) ↔
        HasForeign words (',' :: after) := by
      rw [comma, comma, List.cons_append, newline, hasForeign_zlymeLine]
    have edged : Edged [','] := by decide
    exact hasForeign_swap words (edged.append _) (edged.append after) names rest _

theorem hasForeign_patched (done : patchedPlatform words text = .ok new) :
    HasForeign words new ↔ HasForeign words text := by
  obtain ⟨middle, first, second, -⟩ := patchedPlatform_ok words done
  rw [hasForeign_withMapping words second, hasForeign_withClass words first]

/-- The accepted text maps `zlyme` to no other class exactly where the source knew none. -/
theorem alone_iff (done : patchedPlatform words text = .ok new) :
    (∀ name ∈ mappings words new, classPrefix <+: name → name = zlymeClass) ↔
      ∀ name ∈ mappings words text, classPrefix <+: name →
        name = zlymeClass ∨ name = rocknixClass := by
  have known : ∀ source : Source, ¬ HasForeign words source ↔
      ∀ name ∈ mappings words source, classPrefix <+: name →
        name = zlymeClass ∨ name = rocknixClass := by
    intro source
    simp only [HasForeign, Foreign, not_exists, not_and, not_not]
    refine forall_congr' fun name => forall_congr' fun _ => forall_congr' fun _ => ?_
    exact or_iff_not_imp_left.symm
  rw [← known, ← hasForeign_patched words done, known]
  obtain ⟨-, -, -, -, -, single⟩ := patchedPlatform_ok words done
  have notOld : rocknixClass ∉ mappings words new := by
    rw [← oldMap_iff, single]
    exact Bool.false_ne_true
  refine forall_congr' fun name => forall_congr' fun member => forall_congr' fun _ => ?_
  constructor
  · exact .inl
  · exact fun either => either.resolve_right fun same => notOld (same ▸ member)

/-! ### The way back -/

def platformFragments : List (Source × Source) :=
  [([], classBlock ++ ['\n']), ([], classBlock), (rocknixClass, zlymeClass),
    ([], '\n' :: zlymeLine)]

theorem undoes_platform (done : patchedPlatform words text = .ok new) :
    Undoes platformFragments new text := by
  obtain ⟨middle, first, second, -⟩ := patchedPlatform_ok words done
  have noMapping : Undoes platformFragments new middle := by
    rcases withMapping_ok words second with rfl | ⟨before, after, rfl, rfl, -⟩ |
      ⟨before, after, rfl, rfl⟩
    · exact .refl
    · have listed : (rocknixClass, zlymeClass) ∈ platformFragments := by simp [platformFragments]
      exact .single (.undo before after listed)
    · rw [← List.append_assoc, ← List.append_assoc before]
      exact .single (.inserted (before ++ rocknixAnchor) after (by simp [platformFragments]))
  have noClass : Undoes platformFragments middle text := by
    rcases withClass_ok first with rfl | ⟨before, after, rfl, rfl⟩ | prepended
    · exact .refl
    · exact .single (.inserted before _ (by simp [platformFragments]))
    · have removed : Undo platformFragments ([] ++ (classBlock ++ text)) ([] ++ text) :=
        .inserted [] text (by simp [platformFragments])
      rw [List.nil_append, List.nil_append, ← prepended] at removed
      exact .single removed
  exact noMapping.trans noClass

/-! ## The run on both files -/

/-- What an accepted run promises of the two files it leaves. -/
structure Kept (before after : Files) : Prop where
  /-- A second run accepts the files and writes neither. -/
  again : ∀ argument, main words [argument] after = { status := 0, message := none, written := [] }
  zlyme_class : ∀ text ∈ after.platform, classMark <:+: text
  mapped : ∀ text ∈ after.platform, zlymeClass ∈ mappings words text
  alone : ∀ text ∈ after.platform, ∀ name ∈ mappings words text,
    classPrefix <+: name → name = zlymeClass
  hardware_undone : Undoes hardwareFragments after.hardware before.hardware
  platform_undone : ∀ original ∈ before.platform, ∀ text ∈ after.platform,
    Undoes platformFragments text original

theorem writeIfChanged_eq_nil {file : File} {old new : Source} :
    writeIfChanged file old new = [] ↔ new = old := by
  rw [writeIfChanged]
  split
  · rename_i changed
    exact ⟨nofun, fun same => absurd same.symm changed⟩
  · rename_i same
    exact ⟨fun _ => (not_not.mp same).symm, fun _ => rfl⟩

theorem write_changed (hardware platform newHardware newPlatform : Source) :
    Files.write ⟨hardware, some platform⟩ (writeIfChanged .hardware hardware newHardware ++
      writeIfChanged .platform platform newPlatform) = ⟨newHardware, some newPlatform⟩ := by
  by_cases sameHardware : hardware = newHardware <;>
    by_cases samePlatform : platform = newPlatform <;>
      simp [writeIfChanged, Files.write, sameHardware, samePlatform]

/-- A run on one argument accepts the files and writes the patched texts, or it writes nothing. -/
theorem main_cases (arguments : List String) (files : Files) :
    ((main words arguments files).status ≠ 0 ∧ (main words arguments files).written = []) ∨
      ∃ platform newHardware newPlatform, files.platform = some platform ∧
        patchedHardware files.hardware = .ok newHardware ∧
        patchedPlatform words platform = .ok newPlatform ∧
        main words arguments files =
          { status := 0
            message := none
            written := writeIfChanged .hardware files.hardware newHardware ++
              writeIfChanged .platform platform newPlatform } := by
  rw [main]
  split
  · exact .inl ⟨Nat.succ_ne_zero 1, rfl⟩
  · split
    · exact .inl ⟨Nat.one_ne_zero, rfl⟩
    · rename_i newHardware first
      split
      · exact .inl ⟨Nat.one_ne_zero, rfl⟩
      · rename_i platform present
        split
        · exact .inl ⟨Nat.one_ne_zero, rfl⟩
        · rename_i newPlatform second
          exact .inr ⟨platform, newHardware, newPlatform, present, first, second, rfl⟩

theorem main_ok {arguments : List String} {hardware platform : Source}
    (accepted : (main words arguments ⟨hardware, some platform⟩).status = 0) :
    ∃ newHardware newPlatform, patchedHardware hardware = .ok newHardware ∧
      patchedPlatform words platform = .ok newPlatform ∧
      Files.write ⟨hardware, some platform⟩
          (main words arguments ⟨hardware, some platform⟩).written =
        ⟨newHardware, some newPlatform⟩ := by
  rcases main_cases words arguments ⟨hardware, some platform⟩ with
    ⟨refused, -⟩ | ⟨_, newHardware, newPlatform, ⟨⟩, first, second, ran⟩
  · exact absurd accepted refused
  · refine ⟨newHardware, newPlatform, first, second, ?_⟩
    rw [ran]
    exact write_changed hardware platform newHardware newPlatform

theorem main_accepts {argument : String} {hardware platform newHardware newPlatform : Source}
    (first : patchedHardware hardware = .ok newHardware)
    (second : patchedPlatform words platform = .ok newPlatform) :
    (main words [argument] ⟨hardware, some platform⟩).status = 0 := by
  simp only [main, first, second, List.length_singleton, ne_eq, not_true_eq_false, if_false]

theorem main_again {argument : String} {hardware platform : Source} :
    main words [argument] ⟨hardware, some platform⟩ =
        { status := 0, message := none, written := [] } ↔
      patchedHardware hardware = .ok hardware ∧ patchedPlatform words platform = .ok platform := by
  constructor
  · intro ran
    rcases main_cases words [argument] ⟨hardware, some platform⟩ with
      ⟨refused, -⟩ | ⟨_, newHardware, newPlatform, ⟨⟩, first, second, wrote⟩
    · exact absurd (congrArg Run.status ran) refused
    · have nothing := congrArg Run.written (wrote.symm.trans ran)
      obtain ⟨keptHardware, keptPlatform⟩ := List.append_eq_nil_iff.mp nothing
      rw [writeIfChanged_eq_nil] at keptHardware keptPlatform
      subst keptHardware keptPlatform
      exact ⟨first, second⟩
  · rintro ⟨first, second⟩
    simp only [main, first, second, List.length_singleton, ne_eq, not_true_eq_false, if_false,
      writeIfChanged_eq_nil.mpr, List.append_nil]

end Words

/-! ### A class that the patch does not know -/

def asciiWords : Words where
  isWord char := char.isAlphanum || char == '_'
  ascii _ _ := rfl

/-- A hardware source that needs no change. -/
def flipHardware : Source :=
  "HW = [('miyoo flip*', 'miyoo-flip')]\n".toList ++
    "DEVICES = \x7b\"Miyoo Flip\": \x7b\"device\": \"miyoo-flip\", \"cfw\": [\"Zlyme\"]\x7d\x7d\n".toList

/-- A platform source that maps `zlyme` to another class of its own. -/
def jelosPlatform : Source :=
  "HM_PLATFORMS = \x7b\n    'rocknix':   PlatformROCKNIX,\n".toList ++
    "    'zlyme':     PlatformJELOS,\n\x7d\n".toList

/-- The same source after the run: `zlyme` is mapped twice. -/
def jelosPatched : Source :=
  classBlock ++ '\n' :: ("HM_PLATFORMS = \x7b\n    'rocknix':   PlatformROCKNIX,\n".toList ++
    "    'zlyme':     PlatformZlyme,\n    'zlyme':     PlatformJELOS,\n\x7d\n".toList)

end Zlyme.Portmaster.PatchHardware
