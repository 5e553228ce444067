import Mathlib.Algebra.BigOperators.Group.List.Basic
import Mathlib.Algebra.Ring.Int.Defs
import Mathlib.Data.List.Induction
import Mathlib.Data.List.Infix
import Mathlib.Data.Int.Basic
import Zlyme.Portmaster.MountInfo

/-! # The country of the radio

`write_country` of `zlyme-wifi` keeps one line `country=` outside the network blocks of
`wpa_supplicant.conf`. It tells the blocks by the braces of their lines, where a quoted name or
password may have braces as well.
-/

namespace Zlyme.Net.Country

open Foundation.Text
open Portmaster (Text ascii newline)

def carriageReturn : UInt8 :=
  0x0d

def openBrace : UInt8 :=
  0x7b

def closeBrace : UInt8 :=
  0x7d

/-! ## Lines -/

def isBlank (byte : UInt8) : Bool :=
  byte == 0x20 || byte == 0x09

/-- `sub(/\r$/, "")` -/
def chop (line : Text) : Text :=
  if line.getLast? = some carriageReturn then line.dropLast else line

def blanks (text : Text) : Text :=
  text.dropWhile isBlank

/-- What follows a word at the start of the text. -/
def expect : (word : Text) → Text → Option Text
  | [], text => some text
  | _ :: _, [] => none
  | wanted :: word, byte :: text => if wanted = byte then expect word text else none

/-- What follows `^[ \t]*key[ \t]*=[ \t]*`. -/
def afterKey (key : String) (line : Text) : Option Text :=
  (expect (ascii key) (blanks line)).bind fun rest =>
    (expect (ascii "=") (blanks rest)).map blanks

def isCountry (line : Text) : Bool :=
  (afterKey "country" line).isSome

/-- `/^[ \t]*network[ \t]*=[ \t]*\{/` -/
def isHeader (line : Text) : Bool :=
  (afterKey "network" line).any fun rest => (expect [openBrace] rest).isSome

def braces (line : Text) : Int :=
  line.count openBrace - line.count closeBrace

/-- The depth after a line that is not taken for a country line. -/
def nextDepth (depth : Nat) (line : Text) : Nat :=
  if 0 < depth ∨ isHeader line = true then (depth + braces line).toNat else depth

/-! ## The scripts -/

def isUpper (byte : UInt8) : Bool :=
  0x41 ≤ byte && byte ≤ 0x5a

def isLower (byte : UInt8) : Bool :=
  0x61 ≤ byte && byte ≤ 0x7a

def isCode (word : Text) : Bool :=
  word.length == 2 && word.all fun byte => isUpper byte || isLower byte

def toUpper (byte : UInt8) : UInt8 :=
  if isLower byte then byte - 0x20 else byte

def normalizeCountry (word : Text) : Option Text :=
  if word = ascii "00" then some (ascii "00")
  else if isCode word then
    let up := word.map toUpper
    if up = ascii "EU" then none else some up
  else none

/-- The lines of a file, as `awk` reads its records. -/
def records (text : Text) : List Text :=
  lines (· == newline) text

/-- The `awk` program of `read_country`. -/
def findCode : (depth : Nat) → List Text → Option Text
  | _, [] => none
  | depth, line :: rest =>
      if depth = 0 ∧ isCountry (chop line) then
        match (afterKey "country" (chop line)).map fun word => word.takeWhile (!isBlank ·) with
        | some word => if isCode word then some word else findCode depth rest
        | none => findCode depth rest
      else findCode (nextDepth depth (chop line)) rest

def readCountry (conf : Option Text) : Text :=
  match conf with
  | none => ascii "00"
  | some text =>
      (normalizeCountry ((findCode 0 (records text)).getD (ascii "00"))).getD (ascii "00")

def countryLine (code : Text) : Text :=
  ascii "country=" ++ code

/-- The `awk` program of `write_country`: what it prints from a line on. -/
def rewrite (code : Text) : (depth : Nat) → (placed : Bool) → List Text → List Text
  | _, placed, [] => if code ≠ [] ∧ placed = false then [countryLine code] else []
  | depth, placed, line :: rest =>
      if depth = 0 ∧ isCountry (chop line) = true then
        if code ≠ [] ∧ placed = false then countryLine code :: rewrite code depth true rest
        else rewrite code depth placed rest
      else if depth = 0 ∧ code ≠ [] ∧ placed = false ∧ isHeader (chop line) = true then
        countryLine code :: chop line :: rewrite code (nextDepth depth (chop line)) true rest
      else chop line :: rewrite code (nextDepth depth (chop line)) placed rest

/-- The file after `write_country`, where no command fails. -/
def writeCountry (code : Text) (conf : Option Text) : Option Text :=
  if conf = none ∧ code = [] then none
  else some (unlines newline (rewrite code 0 false (records (conf.getD []))))

/-! ## Network blocks -/

/-- The line that ends a block. -/
def isClosing (line : Text) : Bool :=
  (line.dropWhile isBlank).reverse.dropWhile isBlank == [closeBrace]

/-- Each line with whether it is a line of a network block, of which `inside` says whether one
is open. -/
def tags : (inside : Bool) → List Text → List (Bool × Text)
  | _, [] => []
  | false, line :: rest => (isHeader line, line) :: tags (isHeader line) rest
  | true, line :: rest => (true, line) :: tags (!isClosing line) rest

/-- Every block ends, and its lines are fields of a network: none of them is a country or begins
a block. -/
def WellFormed : (inside : Bool) → List Text → Prop
  | inside, [] => inside = false
  | false, line :: rest => WellFormed (isHeader line) rest
  | true, line :: rest =>
      isCountry line = false ∧ isHeader line = false ∧ WellFormed (!isClosing line) rest

def decideFormed : (inside : Bool) → (lines : List Text) → Decidable (WellFormed inside lines)
  | inside, [] => inferInstanceAs (Decidable (inside = false))
  | false, line :: rest => decideFormed (isHeader line) rest
  | true, line :: rest =>
      have := decideFormed (!isClosing line) rest
      inferInstanceAs (Decidable (_ ∧ _ ∧ _))

instance (inside : Bool) (lines : List Text) : Decidable (WellFormed inside lines) :=
  decideFormed inside lines

/-- A country line outside the network blocks. -/
def isGlobalCountry (tagged : Bool × Text) : Bool :=
  !tagged.1 && isCountry tagged.2

/-- A file whose network blocks are well formed. -/
structure Conf where
  text : Text
  formed : WellFormed false ((records text).map chop)

/-! ## A carriage return at the end of a line changes no reading -/

theorem expect_concat {word : Text} (plain : carriageReturn ∉ word) (text : Text) :
    expect word (text ++ [carriageReturn]) = (expect word text).map (· ++ [carriageReturn]) := by
  induction word generalizing text with
  | nil => rfl
  | cons wanted word induction =>
      rw [List.mem_cons, not_or] at plain
      cases text with
      | nil =>
          have differs : wanted ≠ carriageReturn := Ne.symm plain.1
          simp only [List.nil_append, expect, differs, if_false, Option.map_none]
      | cons byte text =>
          rw [List.cons_append, expect, expect]
          split
          · exact induction plain.2 text
          · rfl

theorem blanks_concat (text : Text) :
    blanks (text ++ [carriageReturn]) = blanks text ++ [carriageReturn] := by
  induction text with
  | nil => rfl
  | cons byte text induction =>
      rw [blanks, blanks, List.cons_append, List.dropWhile_cons, List.dropWhile_cons]
      split
      · exact induction
      · rfl

theorem afterKey_concat {key : String} (plain : carriageReturn ∉ ascii key) (line : Text) :
    afterKey key (line ++ [carriageReturn]) = (afterKey key line).map (· ++ [carriageReturn]) := by
  rw [afterKey, afterKey, blanks_concat, expect_concat plain]
  cases expect (ascii key) (blanks line) with
  | none => rfl
  | some rest =>
      have equals : carriageReturn ∉ ascii "=" := by decide
      rw [Option.map_some, Option.bind_some, Option.bind_some, blanks_concat, expect_concat equals]
      cases expect (ascii "=") (blanks rest) with
      | none => rfl
      | some rest => exact congrArg some (blanks_concat rest)

theorem isCountry_concat (line : Text) :
    isCountry (line ++ [carriageReturn]) = isCountry line := by
  rw [isCountry, isCountry, afterKey_concat (by decide), Option.isSome_map]

theorem isHeader_concat (line : Text) : isHeader (line ++ [carriageReturn]) = isHeader line := by
  rw [isHeader, isHeader, afterKey_concat (by decide)]
  cases afterKey "network" line with
  | none => rfl
  | some rest =>
      rw [Option.map_some, Option.any_some, Option.any_some, expect_concat (by decide),
        Option.isSome_map]

theorem braces_concat (line : Text) : braces (line ++ [carriageReturn]) = braces line := by
  rw [braces, braces, List.count_append, List.count_append]
  rfl

theorem chop_cases (line : Text) : chop line = line ∨ line = chop line ++ [carriageReturn] := by
  rw [chop]
  split
  · rename_i ends
    right
    rcases List.getLast?_eq_some_iff.mp ends with ⟨front, rfl⟩
    rw [List.dropLast_concat]
  · exact .inl rfl

theorem isCountry_chop (line : Text) : isCountry (chop line) = isCountry line := by
  rcases chop_cases line with same | ended
  · rw [same]
  · conv_rhs => rw [ended, isCountry_concat]

theorem isHeader_chop (line : Text) : isHeader (chop line) = isHeader line := by
  rcases chop_cases line with same | ended
  · rw [same]
  · conv_rhs => rw [ended, isHeader_concat]

theorem braces_chop (line : Text) : braces (chop line) = braces line := by
  rcases chop_cases line with same | ended
  · rw [same]
  · conv_rhs => rw [ended, braces_concat]

theorem nextDepth_chop (depth : Nat) (line : Text) : nextDepth depth (chop line) = nextDepth depth line := by
  rw [nextDepth, nextDepth, isHeader_chop, braces_chop]

/-! ## Lines of one kind -/

theorem expect_starts {word text rest : Text} (found : expect word text = some rest) :
    text = word ++ rest := by
  induction word generalizing text with
  | nil => exact Option.some.inj found
  | cons wanted word induction =>
      cases text with
      | nil => exact nomatch found
      | cons byte text =>
          rw [expect] at found
          split at found
          · rename_i same
            rw [List.cons_append, ← induction found, same]
          · exact nomatch found

/-- A line that begins a block is no country line. -/
theorem isCountry_of_isHeader {line : Text} (header : isHeader line = true) :
    isCountry line = false := by
  rw [isHeader, Option.any_eq_true] at header
  rcases header with ⟨rest, network, _⟩
  rw [afterKey, Option.bind_eq_some_iff] at network
  rcases network with ⟨more, isNetwork, _⟩
  have starts := expect_starts isNetwork
  rw [isCountry, afterKey, starts]
  rfl

theorem isCountry_countryLine (code : Text) : isCountry (countryLine code) = true :=
  rfl

theorem isHeader_countryLine (code : Text) : isHeader (countryLine code) = false :=
  rfl

theorem nextDepth_zero {line : Text} (plain : isHeader line = false) : nextDepth 0 line = 0 := by
  rw [nextDepth, if_neg]
  simp [plain]

/-! ## The depth -/

def depthAfter (depth : Nat) (lines : List Text) : Nat :=
  lines.foldl nextDepth depth

/-- A network block began, and since then there are always more opening than closing braces. -/
def Open (before : List Text) : Prop :=
  ∃ front header rest, before = front ++ header :: rest ∧ isHeader header = true ∧
    ∀ part, part <+: rest → 0 < ((header :: part).map braces).sum

theorem depthAfter_concat (depth : Nat) (lines : List Text) (line : Text) :
    depthAfter depth (lines ++ [line]) = nextDepth (depthAfter depth lines) line := by
  rw [depthAfter, List.foldl_append]
  rfl

theorem prefix_concat {part rest : List Text} {line : Text} (begins : part <+: rest ++ [line]) :
    part <+: rest ∨ part = rest ++ [line] :=
  (List.prefix_concat_iff.mp begins).symm

/-- Where the depth is not zero it counts the braces since some header. -/
theorem exists_header_of_depth {before : List Text} (deep : 0 < depthAfter 0 before) :
    ∃ front header rest, before = front ++ header :: rest ∧ isHeader header = true ∧
      (∀ part, part <+: rest → 0 < ((header :: part).map braces).sum) ∧
      (depthAfter 0 before : Int) = ((header :: rest).map braces).sum := by
  induction before using List.reverseRecOn with
  | nil => exact absurd deep (Nat.lt_irrefl 0)
  | append_singleton before line induction =>
      rw [depthAfter_concat] at deep ⊢
      by_cases deeper : 0 < depthAfter 0 before
      · rcases induction deeper with ⟨front, header, rest, rfl, isHeader', sums, counted⟩
        have next : nextDepth (depthAfter 0 (front ++ header :: rest)) line =
            (depthAfter 0 (front ++ header :: rest) + braces line).toNat := by
          rw [nextDepth, if_pos (.inl deeper)]
        rw [next] at deep ⊢
        have total : ((header :: (rest ++ [line])).map braces).sum =
            ((header :: rest).map braces).sum + braces line := by
          simp only [List.map_cons, List.map_append, List.sum_cons, List.sum_append, List.map_nil,
            List.sum_nil]
          omega
        refine ⟨front, header, rest ++ [line], by simp, isHeader', fun part begins => ?_, ?_⟩
        · rcases prefix_concat begins with inner | rfl
          · exact sums part inner
          · rw [total]
            omega
        · rw [total]
          omega
      · have flat : depthAfter 0 before = 0 := by omega
        rw [flat] at deep ⊢
        by_cases header : isHeader line = true
        · have next : nextDepth 0 line = (braces line).toNat := by
            rw [nextDepth, if_pos (.inr header)]
            simp
          rw [next] at deep ⊢
          refine ⟨before, line, [], rfl, header, fun part begins => ?_, ?_⟩
          · rw [List.prefix_nil.mp begins]
            simp only [List.map_cons, List.map_nil, List.sum_cons, List.sum_nil]
            omega
          · simp only [List.map_cons, List.map_nil, List.sum_cons, List.sum_nil]
            omega
        · rw [nextDepth_zero (Bool.eq_false_iff.mpr header)] at deep
          exact absurd deep (Nat.lt_irrefl 0)

theorem depth_of_open {front : List Text} {header : Text} (isHeader' : isHeader header = true)
    {rest : List Text} (sums : ∀ part, part <+: rest → 0 < ((header :: part).map braces).sum) :
    ((header :: rest).map braces).sum ≤ depthAfter 0 (front ++ header :: rest) := by
  induction rest using List.reverseRecOn with
  | nil =>
      rw [depthAfter_concat, nextDepth, if_pos (.inr isHeader')]
      simp only [List.map_cons, List.map_nil, List.sum_cons, List.sum_nil]
      omega
  | append_singleton rest line induction =>
      have inner := induction fun part begins => sums part (begins.trans (List.prefix_append _ _))
      have positive := sums rest (List.prefix_append _ _)
      have total : ((header :: (rest ++ [line])).map braces).sum =
          ((header :: rest).map braces).sum + braces line := by
        simp only [List.map_cons, List.map_append, List.sum_cons, List.sum_append, List.map_nil,
          List.sum_nil]
        omega
      have whole : front ++ header :: (rest ++ [line]) = front ++ header :: rest ++ [line] := by
        simp
      rw [whole, depthAfter_concat, nextDepth, if_pos (.inl (by omega)), total]
      omega

theorem depth_pos_iff (before : List Text) : 0 < depthAfter 0 before ↔ Open before := by
  constructor
  · intro deep
    rcases exists_header_of_depth deep with ⟨front, header, rest, split, isHeader', sums, _⟩
    exact ⟨front, header, rest, split, isHeader', sums⟩
  · rintro ⟨front, header, rest, rfl, isHeader', sums⟩
    have bound := @depth_of_open front header isHeader' rest sums
    have positive := sums rest (List.prefix_refl rest)
    omega

/-! ## What is printed -/

/-- How many country lines are not found, where the count of braces is not zero. -/
def hidden : (depth : Nat) → List Text → Nat
  | _, [] => 0
  | depth, line :: rest =>
      (if 0 < depth ∧ isCountry line = true then 1 else 0) + hidden (nextDepth depth line) rest

theorem hidden_eq_zero_iff (depth : Nat) (lines : List Text) :
    hidden depth lines = 0 ↔ ∀ before line after, lines = before ++ line :: after →
      isCountry line = true → depthAfter depth before = 0 := by
  induction lines generalizing depth with
  | nil =>
      refine ⟨fun _ before line after split => ?_, fun _ => rfl⟩
      exact absurd split.symm (by simp)
  | cons first lines induction =>
      rw [hidden, Nat.add_eq_zero_iff, induction]
      constructor
      · rintro ⟨here, later⟩ before line after split country
        rcases before with _ | ⟨_, before⟩
        · rw [List.nil_append, List.cons.injEq] at split
          by_contra deep
          have positive : 0 < depthAfter depth [] := Nat.pos_of_ne_zero deep
          rw [if_pos ⟨positive, split.1 ▸ country⟩] at here
          exact nomatch here
        · rw [List.cons_append, List.cons.injEq] at split
          rcases split with ⟨rfl, split⟩
          exact later before line after split country
      · intro flat
        constructor
        · rw [if_neg]
          rintro ⟨deep, country⟩
          exact absurd (flat [] first lines rfl country) (Nat.ne_of_gt deep)
        · intro before line after split country
          exact flat (first :: before) line after (by rw [split]; rfl) country

theorem isCode_cases {code : Text} (isCode' : isCode code = true) :
    ∃ first second, code = [first, second] ∧
      ∀ byte ∈ code, isBlank byte = false ∧ byte ≠ carriageReturn ∧ byte ≠ newline := by
  rw [isCode, Bool.and_eq_true, beq_iff_eq, List.all_eq_true] at isCode'
  rcases isCode' with ⟨length, letters⟩
  obtain ⟨first, second, rfl⟩ := List.length_eq_two.mp length
  refine ⟨first, second, rfl, fun byte member => ?_⟩
  have letter := letters byte member
  refine ⟨Bool.eq_false_iff.mpr fun blank => ?_, ?_, ?_⟩
  · rw [isBlank, Bool.or_eq_true, beq_iff_eq, beq_iff_eq] at blank
    rcases blank with rfl | rfl <;> exact absurd letter (by decide)
  · rintro rfl
    exact absurd letter (by decide)
  · rintro rfl
    exact absurd letter (by decide)

/-- A country line with a code is read as it is. -/
theorem chop_countryLine {code : Text} (isCode' : isCode code = true) :
    chop (countryLine code) = countryLine code := by
  rcases isCode_cases isCode' with ⟨first, second, rfl, letters⟩
  rw [chop, if_neg]
  intro ends
  exact (letters second (by simp)).2.1 (Option.some.inj ends)

theorem findCode_countryLine {code : Text} (isCode' : isCode code = true) (rest : List Text) :
    findCode 0 (countryLine code :: rest) = some code := by
  have chopped := chop_countryLine isCode'
  rcases isCode_cases isCode' with ⟨first, second, rfl, letters⟩
  have firstPlain := (letters first (by simp)).1
  have secondPlain := (letters second (by simp)).1
  have after : afterKey "country" (countryLine [first, second]) = some (blanks [first, second]) := rfl
  have kept : blanks [first, second] = [first, second] := by
    rw [blanks, List.dropWhile_cons, firstPlain]
    rfl
  have word : [first, second].takeWhile (!isBlank ·) = [first, second] := by
    simp [firstPlain, secondPlain]
  rw [findCode, chopped, if_pos ⟨rfl, isCountry_countryLine _⟩, after, kept]
  simp only [Option.map_some, word, isCode', if_true]

section Rewrite

variable {code : Text} (some' : code ≠ [])

/-- The lines that are no country lines are printed in order. -/
theorem filter_rewrite (depth : Nat) (placed : Bool) (lines : List Text) :
    (rewrite code depth placed lines).filter (fun line => !isCountry line) =
      (lines.map chop).filter fun line => !isCountry line := by
  induction lines generalizing depth placed with
  | nil =>
      rw [rewrite]
      split <;> rfl
  | cons line lines induction =>
      rw [rewrite, List.map_cons]
      split
      · rename_i country
        have dropped : ((chop line :: lines.map chop).filter fun line => !isCountry line) =
            (lines.map chop).filter fun line => !isCountry line := by
          rw [List.filter_cons, country.2]
          rfl
        rw [dropped]
        split
        · exact induction depth true
        · exact induction depth placed
      · split
        · rw [List.filter_cons_of_neg (by simp [isCountry_countryLine]), List.filter_cons,
            List.filter_cons, induction]
        · rw [List.filter_cons, List.filter_cons, induction]

include some'

/-- Besides the one line that is placed the hidden country lines are printed. -/
theorem countP_rewrite (depth : Nat) (placed : Bool) (lines : List Text) :
    (rewrite code depth placed lines).countP isCountry =
      (if placed then 0 else 1) + hidden depth (lines.map chop) := by
  induction lines generalizing depth placed with
  | nil => cases placed <;> simp [rewrite, some', hidden, isCountry_countryLine]
  | cons line lines induction =>
      have still (flat : depth = 0) (country : isCountry (chop line) = true) :
          nextDepth depth (chop line) = depth := by
        have plain : isHeader (chop line) = false := by
          by_contra header
          rw [Bool.not_eq_false] at header
          simp [isCountry_of_isHeader header] at country
        rw [flat, nextDepth_zero plain]
      rw [rewrite, List.map_cons, hidden]
      by_cases found : depth = 0 ∧ isCountry (chop line) = true
      · have shown : ¬(0 < depth ∧ isCountry (chop line) = true) := by
          rw [found.1]
          simp
        rw [if_pos found, if_neg shown, still found.1 found.2]
        cases placed with
        | true =>
            rw [if_neg (by simp), induction]
            omega
        | false =>
            rw [if_pos ⟨some', rfl⟩, List.countP_cons_of_pos (isCountry_countryLine code), induction]
            simp only [if_true, Bool.false_eq_true, if_false]
            omega
      · rw [if_neg found]
        have here : (if isCountry (chop line) = true then 1 else 0) =
            if 0 < depth ∧ isCountry (chop line) = true then 1 else 0 := by
          by_cases country : isCountry (chop line) = true
          · have deep : 0 < depth := Nat.pos_of_ne_zero fun flat => found ⟨flat, country⟩
            rw [if_pos country, if_pos ⟨deep, country⟩]
          · rw [if_neg country, if_neg fun both => country both.2]
        split
        · rename_i places
          rw [List.countP_cons_of_pos (isCountry_countryLine code), List.countP_cons, induction, here,
            places.2.2.1]
          simp only [if_true, Bool.false_eq_true, if_false]
          omega
        · rw [List.countP_cons, induction, here]
          omega

/-- The line that is placed is the first one that is read. -/
theorem findCode_rewrite (isCode' : isCode code = true) (lines : List Text) :
    findCode 0 (rewrite code 0 false lines) = some code := by
  have read := findCode_countryLine isCode'
  induction lines with
  | nil =>
      rw [rewrite, if_pos ⟨some', rfl⟩]
      exact read []
  | cons line lines induction =>
      rw [rewrite]
      split
      · rw [if_pos ⟨some', rfl⟩]
        exact read _
      · rename_i unfound
        split
        · exact read _
        · rename_i unplaced
          have plain : isHeader (chop line) = false := by
            by_contra header
            exact unplaced ⟨rfl, some', rfl, Bool.not_eq_false _ ▸ header⟩
          have notCountry : isCountry (chop line) = false := by
            by_contra country
            exact unfound ⟨rfl, Bool.not_eq_false _ ▸ country⟩
          rw [nextDepth_zero plain, findCode, if_neg, nextDepth_chop, nextDepth_zero plain]
          · exact induction
          · rw [isCountry_chop, notCountry]
            simp

/-- A second run prints the lines again, without one more carriage return. -/
theorem rewrite_rewrite (isCode' : isCode code = true) (depth : Nat) (placed : Bool)
    (shallow : placed = false → depth = 0) (lines : List Text) :
    rewrite code depth placed (rewrite code depth placed lines) =
      (rewrite code depth placed lines).map chop := by
  have chopped := chop_countryLine isCode'
  have again (rest : List Text) : rewrite code 0 false (countryLine code :: rest) =
      countryLine code :: rewrite code 0 true rest := by
    rw [rewrite, chopped, if_pos ⟨rfl, isCountry_countryLine code⟩, if_pos ⟨some', rfl⟩]
  induction lines generalizing depth placed with
  | nil =>
      cases placed with
      | true => simp [rewrite]
      | false =>
          rw [shallow rfl, rewrite, if_pos ⟨some', rfl⟩, again]
          simp [rewrite, chopped]
  | cons line lines induction =>
      have printed {depth : Nat} (kept : ¬(depth = 0 ∧ isCountry (chop line) = true)) (rest : List Text) :
          rewrite code depth true (chop line :: rest) =
            chop (chop line) :: rewrite code (nextDepth depth (chop line)) true rest := by
        rw [rewrite, isCountry_chop, if_neg kept, if_neg (by simp), nextDepth_chop]
      rw [rewrite]
      by_cases found : depth = 0 ∧ isCountry (chop line) = true
      · rw [if_pos found]
        cases placed with
        | true =>
            rw [if_neg (by simp)]
            exact induction depth true nofun
        | false =>
            rw [if_pos ⟨some', rfl⟩, found.1, again, induction 0 true nofun, List.map_cons, chopped]
      · rw [if_neg found]
        by_cases places : depth = 0 ∧ code ≠ [] ∧ placed = false ∧ isHeader (chop line) = true
        · rw [if_pos places, places.1, places.2.2.1, again, printed (places.1 ▸ found),
            induction _ true nofun, List.map_cons, List.map_cons, chopped]
        · rw [if_neg places]
          cases placed with
          | true => rw [printed found, induction _ true nofun, List.map_cons]
          | false =>
              have flat : depth = 0 := shallow rfl
              have plain : isHeader (chop line) = false := by
                by_contra header
                exact places ⟨flat, some', rfl, Bool.not_eq_false _ ▸ header⟩
              subst flat
              rw [rewrite, isCountry_chop, if_neg found, isHeader_chop, if_neg places, nextDepth_chop,
                nextDepth_zero plain, induction 0 false (fun _ => rfl), List.map_cons]

end Rewrite

/-! ## Blocks are kept -/

/-- The lines with their places, without the country lines outside the blocks. -/
def others (inside : Bool) (lines : List Text) : List (Bool × Text) :=
  (tags inside lines).filter fun tagged => !isGlobalCountry tagged

theorem others_of_country {line : Text} (country : isCountry line = true) (rest : List Text) :
    others false (line :: rest) = others false rest := by
  have plain : isHeader line = false := by
    by_contra header
    rw [Bool.not_eq_false] at header
    simp [isCountry_of_isHeader header] at country
  rw [others, tags, plain, List.filter_cons]
  simp only [isGlobalCountry, country, Bool.not_false, Bool.and_self, Bool.not_true,
    Bool.false_eq_true, if_false]
  rfl

theorem formed_countryLine {code : Text} {rest : List Text} :
    WellFormed false (countryLine code :: rest) ↔ WellFormed false rest := by
  rw [WellFormed, isHeader_countryLine]

/-- Country lines outside the blocks come and go without a change of the others. -/
theorem others_rewrite (code : Text) (inside : Bool) (depth : Nat) (placed : Bool) (lines : List Text)
    (formed : WellFormed inside (lines.map chop)) :
    others inside (rewrite code depth placed lines) = others inside (lines.map chop) ∧
      WellFormed inside (rewrite code depth placed lines) := by
  induction lines generalizing inside depth placed with
  | nil =>
      rw [List.map_nil, WellFormed] at formed
      subst formed
      rw [rewrite]
      split
      · rw [others_of_country (isCountry_countryLine code), formed_countryLine]
        exact ⟨rfl, rfl⟩
      · exact ⟨rfl, rfl⟩
  | cons line lines induction =>
      rw [List.map_cons] at formed ⊢
      cases inside with
      | true =>
          rw [WellFormed] at formed
          rcases formed with ⟨country, header, later⟩
          have kept : rewrite code depth placed (line :: lines) =
              chop line :: rewrite code (nextDepth depth (chop line)) placed lines := by
            rw [rewrite, if_neg (by simp [country]), if_neg (by simp [header])]
          rcases induction (!isClosing (chop line)) (nextDepth depth (chop line)) placed later
            with ⟨same, laterFormed⟩
          rw [kept]
          refine ⟨?_, country, header, laterFormed⟩
          rw [others, others, tags, tags, List.filter_cons, List.filter_cons]
          rw [others, others] at same
          rw [same]
      | false =>
          rw [WellFormed] at formed
          have next (depth : Nat) (placed : Bool) :
              others false (chop line :: rewrite code depth placed lines) =
                others false (chop line :: lines.map chop) ∧
              WellFormed false (chop line :: rewrite code depth placed lines) := by
            rcases induction (isHeader (chop line)) depth placed formed with ⟨same, laterFormed⟩
            refine ⟨?_, laterFormed⟩
            rw [others, others, tags, tags, List.filter_cons, List.filter_cons]
            rw [others, others] at same
            rw [same]
          rw [rewrite]
          split
          · rename_i found
            have plain : isHeader (chop line) = false := by
              by_contra header
              rw [Bool.not_eq_false] at header
              simp [isCountry_of_isHeader header] at found
            rw [plain] at formed
            rw [others_of_country found.2]
            split
            · rw [others_of_country (isCountry_countryLine code), formed_countryLine]
              exact induction false depth true formed
            · exact induction false depth placed formed
          · split
            · rw [others_of_country (isCountry_countryLine code), formed_countryLine]
              exact next _ true
            · exact next _ placed

/-- In a well formed text every country line is outside the blocks. -/
theorem countP_tags {inside : Bool} {lines : List Text} (formed : WellFormed inside lines) :
    (tags inside lines).countP isGlobalCountry = lines.countP isCountry := by
  induction lines generalizing inside with
  | nil => cases inside <;> rfl
  | cons line lines induction =>
      cases inside with
      | true =>
          rw [WellFormed] at formed
          rw [tags, List.countP_cons, List.countP_cons, induction formed.2.2, formed.1]
          rfl
      | false =>
          rw [WellFormed] at formed
          rw [tags, List.countP_cons, List.countP_cons, induction formed]
          by_cases header : isHeader line = true
          · rw [isGlobalCountry, header, isCountry_of_isHeader header]
            rfl
          · rw [isGlobalCountry, Bool.eq_false_iff.mpr header]
            rfl

/-! ## The text that is written -/

/-- What is owed to a file for a code. -/
structure Written (code : Text) (before after : Text) : Prop where
  reads : readCountry (some after) = code
  one : (tags false (records after)).countP isGlobalCountry = 1
  keeps : others false (records after) = others false ((records before).map chop)
  settled : writeCountry code (some after) = some after

theorem isLine_chop {line : Text} (unbroken : newline ∉ line) : newline ∉ chop line := by
  rcases chop_cases line with same | ended
  · rwa [same]
  · rw [ended] at unbroken
    exact fun member => unbroken (List.mem_append_left _ member)

theorem mem_rewrite {code : Text} {depth : Nat} {placed : Bool} {lines : List Text} {line : Text}
    (member : line ∈ rewrite code depth placed lines) :
    line = countryLine code ∨ ∃ other ∈ lines, line = chop other := by
  induction lines generalizing depth placed with
  | nil =>
      rw [rewrite] at member
      split at member
      · exact .inl (List.mem_singleton.mp member)
      · exact absurd member List.not_mem_nil
  | cons first lines induction =>
      have later {depth : Nat} {placed : Bool} (inside : line ∈ rewrite code depth placed lines) :
          line = countryLine code ∨ ∃ other ∈ first :: lines, line = chop other :=
        (induction inside).imp_right fun ⟨other, inLines, same⟩ =>
          ⟨other, List.mem_cons_of_mem _ inLines, same⟩
      rw [rewrite] at member
      split at member
      · split at member
        · exact (List.mem_cons.mp member).elim .inl later
        · exact later member
      · split at member
        · rcases List.mem_cons.mp member with same | inside
          · exact .inl same
          · exact (List.mem_cons.mp inside).elim
              (fun same => .inr ⟨first, List.mem_cons_self, same⟩) later
        · exact (List.mem_cons.mp member).elim
            (fun same => .inr ⟨first, List.mem_cons_self, same⟩) later

theorem countryLine_mem {code : Text} (some' : code ≠ []) (depth : Nat) (lines : List Text) :
    countryLine code ∈ rewrite code depth false lines := by
  induction lines generalizing depth with
  | nil =>
      rw [rewrite, if_pos ⟨some', rfl⟩]
      exact List.mem_singleton_self _
  | cons line lines induction =>
      rw [rewrite]
      split
      · rw [if_pos ⟨some', rfl⟩]
        exact List.mem_cons_self
      · split
        · exact List.mem_cons_self
        · exact List.mem_cons_of_mem _ (induction _)

theorem newline_not_mem_records {text line : Text} (member : line ∈ records text) :
    newline ∉ line := by
  intro inside
  have unbroken := (mem_of_mem_lines member inside).2
  exact absurd (beq_self_eq_true newline) (Bool.eq_false_iff.mp unbroken)

theorem records_unlines {texts : List Text} (unbroken : ∀ line ∈ texts, newline ∉ line) :
    records (unlines newline texts) = texts :=
  lines_unlines (fun line member _ inside => beq_false_of_ne fun same =>
    unbroken line member (same ▸ inside)) (beq_self_eq_true newline)

theorem unbroken_rewrite {code : Text} (isCode' : isCode code = true) (depth : Nat) (placed : Bool)
    {lines : List Text} (unbroken : ∀ line ∈ lines, newline ∉ line) :
    ∀ line ∈ rewrite code depth placed lines, newline ∉ line := by
  intro line member
  rcases mem_rewrite member with rfl | ⟨other, inLines, rfl⟩
  · rcases isCode_cases isCode' with ⟨_, _, _, letters⟩
    have word : newline ∉ ascii "country=" := by decide
    rw [countryLine, List.mem_append, not_or]
    exact ⟨word, fun inside => (letters newline inside).2.2 rfl⟩
  · exact isLine_chop (unbroken other inLines)

/-- A second carriage return is left at the end of a line. -/
theorem chop_chop_iff (line : Text) :
    chop (chop line) = chop line ↔ ¬[carriageReturn, carriageReturn] <:+ line := by
  have fixed (text : Text) : chop text = text ↔ text.getLast? ≠ some carriageReturn := by
    rw [chop]
    split
    · rename_i ends
      rcases List.getLast?_eq_some_iff.mp ends with ⟨front, rfl⟩
      simp
    · rename_i ends
      exact ⟨fun _ => ends, fun _ => rfl⟩
  rw [fixed]
  rcases List.eq_nil_or_concat' line with rfl | ⟨front, last, rfl⟩
  · decide
  · have twice : [carriageReturn, carriageReturn] <:+ front ++ [last] ↔
        last = carriageReturn ∧ front.getLast? = some carriageReturn := by
      rw [List.getLast?_eq_some_iff]
      constructor
      · rintro ⟨before, same⟩
        have split : before ++ [carriageReturn] ++ [carriageReturn] = front ++ [last] := by
          simpa using same
        rcases List.append_inj' split rfl with ⟨isFront, isLast⟩
        exact ⟨(List.singleton_inj.mp isLast).symm, before, isFront.symm⟩
      · rintro ⟨rfl, before, rfl⟩
        exact ⟨before, by simp⟩
    rw [twice]
    by_cases ends : last = carriageReturn
    · have chopped : chop (front ++ [last]) = front := by
        rw [chop, List.getLast?_concat, if_pos (congrArg some ends), List.dropLast_concat]
      rw [chopped, and_iff_right ends]
    · have chopped : chop (front ++ [last]) = front ++ [last] := by
        rw [chop, List.getLast?_concat, if_neg fun same => ends (Option.some.inj same)]
      rw [chopped, List.getLast?_concat]
      exact ⟨fun _ both => ends both.1, fun _ same => ends (Option.some.inj same)⟩

/-! ## When a file is written as it should be -/

theorem hidden_chop (depth : Nat) (lines : List Text) :
    hidden depth (lines.map chop) = hidden depth lines := by
  induction lines generalizing depth with
  | nil => rfl
  | cons line lines induction =>
      rw [List.map_cons, hidden, hidden, isCountry_chop, nextDepth_chop, induction]

theorem unlines_inj {first second : List Text} (firstLines : ∀ line ∈ first, newline ∉ line)
    (secondLines : ∀ line ∈ second, newline ∉ line)
    (same : unlines newline first = unlines newline second) : first = second := by
  rw [← records_unlines firstLines, same, records_unlines secondLines]

theorem toUpper_letter {byte : UInt8} (letter : (isUpper byte || isLower byte) = true) :
    isUpper (toUpper byte) = true ∧ toUpper (toUpper byte) = toUpper byte := by
  have upper (other : UInt8) (isUpper' : isUpper other = true) : toUpper other = other := by
    rw [toUpper, if_neg]
    simp only [isUpper, isLower, Bool.and_eq_true, decide_eq_true_eq, UInt8.le_iff_toNat_le,
      UInt8.reduceToNat] at isUpper' ⊢
    omega
  have raised : isUpper (toUpper byte) = true := by
    rw [toUpper]
    split
    · rename_i lower
      simp only [isUpper, isLower, Bool.and_eq_true, decide_eq_true_eq, UInt8.le_iff_toNat_le,
        UInt8.reduceToNat] at lower ⊢
      rw [UInt8.toNat_sub_of_le]
      · simp only [UInt8.reduceToNat]
        omega
      · rw [UInt8.le_iff_toNat_le]
        simp only [UInt8.reduceToNat]
        omega
    · rename_i notLower
      simpa [notLower] using letter
  exact ⟨raised, upper _ raised⟩

/-- The codes are two letters, and are normal. -/
theorem normalizeCountry_code {word code : Text} (isCode' : isCode word = true)
    (accepted : normalizeCountry word = some code) :
    isCode code = true ∧ normalizeCountry code = some code := by
  have notWorld (text : Text) (letters : isCode text = true) : text ≠ ascii "00" := by
    rintro rfl
    exact absurd letters (by decide)
  rw [normalizeCountry, if_neg (notWorld word isCode'), if_pos isCode'] at accepted
  by_cases europe : word.map toUpper = ascii "EU"
  · simp only [europe, if_true] at accepted
    exact nomatch accepted
  · simp only [europe, if_false, Option.some_inj] at accepted
    rw [isCode, Bool.and_eq_true, List.all_eq_true] at isCode'
    have letters : isCode code = true := by
      rw [← accepted, isCode, List.length_map, isCode'.1, Bool.true_and, List.all_map,
        List.all_eq_true]
      intro byte member
      simp [(toUpper_letter (isCode'.2 byte member)).1]
    have fixed : code.map toUpper = code := by
      rw [← accepted, List.map_map]
      exact List.map_congr_left fun byte member => (toUpper_letter (isCode'.2 byte member)).2
    refine ⟨letters, ?_⟩
    rw [normalizeCountry, if_neg (notWorld code letters), if_pos letters]
    simp only [fixed]
    rw [if_neg (accepted ▸ europe)]

/-- A country line that is printed is the one for the code, where none is hidden. -/
theorem eq_countryLine {code : Text} {out : List Text} (one : out.countP isCountry = 1)
    (placed : countryLine code ∈ out) {line : Text} (member : line ∈ out)
    (country : isCountry line = true) : line = countryLine code := by
  rw [List.countP_eq_length_filter, List.length_eq_one_iff] at one
  rcases one with ⟨only, isOnly⟩
  have isLine : line ∈ out.filter isCountry := List.mem_filter.mpr ⟨member, country⟩
  have isCode' : countryLine code ∈ out.filter isCountry :=
    List.mem_filter.mpr ⟨placed, isCountry_countryLine code⟩
  rw [isOnly, List.mem_singleton] at isLine isCode'
  rw [isLine, isCode']

/-- The file is written as it should be exactly when no country line stands after a network block
whose braces are still open, and no other line ends with two carriage returns. -/
theorem written_iff (conf : Conf) {word code : Text} (isCode' : isCode word = true)
    (accepted : normalizeCountry word = some code) :
    ∃ after, writeCountry code (some conf.text) = some after ∧
      (Written code conf.text after ↔
        (∀ before line later, records conf.text = before ++ line :: later →
          isCountry line = true → ¬Open before) ∧
        ∀ line ∈ records conf.text, isCountry line = false →
          ¬[carriageReturn, carriageReturn] <:+ line) := by
  rcases normalizeCountry_code isCode' accepted with ⟨codeLetters, normal⟩
  have some' : code ≠ [] := by
    rintro rfl
    exact absurd codeLetters (by decide)
  have unbroken : ∀ line ∈ records conf.text, newline ∉ line := fun line => newline_not_mem_records
  have printed := unbroken_rewrite codeLetters 0 false unbroken
  have kept := others_rewrite code false 0 false (records conf.text) conf.formed
  have counted := countP_rewrite some' 0 false (records conf.text)
  have reads := findCode_rewrite some' codeLetters (records conf.text)
  have again := rewrite_rewrite some' codeLetters 0 false (fun _ => rfl) (records conf.text)
  have placed := countryLine_mem some' 0 (records conf.text)
  have plain := @filter_rewrite code 0 false (records conf.text)
  refine ⟨_, if_neg (fun both => nomatch both.1), ?_⟩
  rw [Option.getD_some]
  generalize rewrite code 0 false (records conf.text) = out at *
  have isRecords : records (unlines newline out) = out := records_unlines printed
  simp only [hidden_chop, Bool.false_eq_true, if_false] at counted
  have one : (tags false (records (unlines newline out))).countP isGlobalCountry = 1 ↔
      hidden 0 (records conf.text) = 0 := by
    rw [isRecords, countP_tags kept.2, counted]
    omega
  have settled : writeCountry code (some (unlines newline out)) = some (unlines newline out) ↔
      ∀ line ∈ out, chop line = line := by
    have chopped : ∀ line ∈ out.map chop, newline ∉ line := by
      intro line member
      rcases List.mem_map.mp member with ⟨other, inOut, rfl⟩
      exact isLine_chop (printed other inOut)
    rw [writeCountry, if_neg (fun both => nomatch both.1), Option.getD_some, isRecords, again,
      Option.some_inj]
    constructor
    · intro same line member
      have lists := unlines_inj chopped printed same
      rw [← List.map_id out, List.map_map] at lists
      exact List.map_inj_left.mp lists line member
    · intro fixed
      rw [List.map_congr_left fixed, List.map_id']
  have depths : hidden 0 (records conf.text) = 0 ↔ ∀ before line later,
      records conf.text = before ++ line :: later → isCountry line = true → ¬Open before := by
    rw [hidden_eq_zero_iff]
    simp only [← depth_pos_iff, Nat.not_lt, Nat.le_zero]
  rw [← depths]
  constructor
  · intro written
    have none' := one.mp written.one
    refine ⟨none', fun line member country twice => ?_⟩
    have inPlain : chop line ∈ ((records conf.text).map chop).filter fun line => !isCountry line := by
      refine List.mem_filter.mpr ⟨List.mem_map_of_mem member, ?_⟩
      rw [isCountry_chop, country]
      rfl
    rw [← plain] at inPlain
    have fixed := settled.mp written.settled (chop line) (List.mem_filter.mp inPlain).1
    exact (chop_chop_iff line).mp fixed twice
  · rintro ⟨none', single⟩
    refine ⟨?_, one.mpr none', ?_, settled.mpr fun line member => ?_⟩
    · rw [readCountry, isRecords, reads, Option.getD_some, normal, Option.getD_some]
    · rw [isRecords, kept.1]
    · by_cases country : isCountry line = true
      · rw [none', Nat.add_zero] at counted
        rw [eq_countryLine counted placed member country]
        exact chop_countryLine codeLetters
      · have inPlain : line ∈ out.filter fun line => !isCountry line :=
          List.mem_filter.mpr ⟨member, by simp [country]⟩
        rw [plain] at inPlain
        rcases List.mem_map.mp (List.mem_filter.mp inPlain).1 with ⟨other, inText, rfl⟩
        rw [isCountry_chop] at country
        exact (chop_chop_iff other).mpr (single other inText (Bool.eq_false_iff.mpr country))

def quietHome : Conf where
  text := ascii "ap_scan=1\ncountry=us\nnetwork=\x7b\n\tssid=\"Home\"\n\x7d\n"
  formed := by decide +kernel

theorem quietHome_is_written : ∃ after, writeCountry (ascii "GB") (some quietHome.text) = some after ∧
    (Written (ascii "GB") quietHome.text after ↔
      (∀ before line later, records quietHome.text = before ++ line :: later →
        isCountry line = true → ¬Open before) ∧
      ∀ line ∈ records quietHome.text, isCountry line = false →
        ¬[carriageReturn, carriageReturn] <:+ line) :=
  @written_iff quietHome (ascii "gb") (ascii "GB") (by decide) (by decide)

/-- A name with an opening brace, and a country line after its block. -/
def bracedName : Conf where
  text := ascii "network=\x7b\n\tssid=\"a\x7b\"\n\x7d\ncountry=US\n"
  formed := by decide +kernel

theorem braced_name_hides_country :
    normalizeCountry (ascii "gb") = some (ascii "GB") ∧
      ((writeCountry (ascii "GB") (some bracedName.text)).map fun after =>
        (tags false (records after)).countP isGlobalCountry) = some 2 := by
  decide +kernel

end Zlyme.Net.Country
