import RepoLens.Lib.Utf8

/-!
`splitSQLTopLevel` of `internal/platform/mysql`, which cuts statements and clauses of a migration.
-/

namespace RepoLens

open Utf8

namespace Migration

def isQuote (c : Char) : Bool := ['\'', '"', '`'].contains c

/-- The parts read so far end with `part`, which is kept in reverse. -/
def splitFrom (delimiter : Char) : Option Char → Int → Text → Text → List Text
  | _, _, part, [] => [part.reverse]
  | some quote, depth, part, rune :: rest =>
    splitFrom delimiter (if rune.value == quote then none else some quote) depth (rune :: part) rest
  | none, depth, part, rune :: rest =>
    if isQuote rune.value then splitFrom delimiter (some rune.value) depth (rune :: part) rest
    else if rune.value == '(' then splitFrom delimiter none (depth + 1) (rune :: part) rest
    else if rune.value == ')' then splitFrom delimiter none (depth - 1) (rune :: part) rest
    else if rune.value == delimiter && depth == 0 then
      part.reverse :: splitFrom delimiter none depth [] rest
    else splitFrom delimiter none depth (rune :: part) rest

def splitSQLTopLevel (input : Text) (delimiter : Char) : List Text :=
  splitFrom delimiter none 0 [] input

variable {delimiter : Char} {quote : Option Char} {depth : Int} {part : Text}

theorem splitFrom_ne_nil {rest : Text} :
    splitFrom delimiter quote depth part rest ≠ [] := by
  fun_induction splitFrom delimiter quote depth part rest <;> simp_all

theorem splitFrom_join (whole : delimiter ≠ '\ufffd') {rest : Text} :
    [Rune.char delimiter].intercalate (splitFrom delimiter quote depth part rest) =
      part.reverse ++ rest := by
  fun_induction splitFrom delimiter quote depth part rest with
  | case1 => simp
  | case6 depth part rune rest _ _ _ found ih =>
    have same : rune = .char delimiter := by
      simp only [Bool.and_eq_true, beq_iff_eq] at found
      cases rune with
      | char c => exact congrArg _ found.1
      | bad byte => exact absurd found.1.symm whole
    rw [List.intercalate_cons_of_ne_nil splitFrom_ne_nil, ih, same]
    simp
  | _ => simp_all

/-- The quote that is open and the depth of parentheses behind one more rune. -/
def scanRune : Option Char × Int → Rune → Option Char × Int
  | (some quote, depth), rune => (if rune.value = quote then none else some quote, depth)
  | (none, depth), rune =>
    if isQuote rune.value then (some rune.value, depth)
    else
      (none, if rune.value = '(' then depth + 1 else if rune.value = ')' then depth - 1 else depth)

def scan (text : Text) : Option Char × Int := text.foldl scanRune (none, 0)

/-- No delimiter stands outside of quotes and parentheses. -/
def Unbroken (delimiter : Char) (text : Text) : Prop :=
  ∀ before after, text = before ++ .char delimiter :: after → scan before ≠ (none, 0)

def isMark (c : Char) : Bool := isQuote c || c == '(' || c == ')'

/-- A rune is a cut, or is read as the scan reads it. -/
theorem splitFrom_cons (plain : isMark delimiter = false) (whole : delimiter ≠ '\ufffd')
    (rune : Rune) (rest : Text) :
    (rune = .char delimiter ∧ (quote, depth) = (none, 0)) ∧
        splitFrom delimiter quote depth part (rune :: rest) =
          part.reverse :: splitFrom delimiter none 0 [] rest ∨
      ¬ (rune = .char delimiter ∧ (quote, depth) = (none, 0)) ∧
        splitFrom delimiter quote depth part (rune :: rest) =
          splitFrom delimiter (scanRune (quote, depth) rune).1 (scanRune (quote, depth) rune).2
            (rune :: part) rest := by
  simp only [isMark, Bool.or_eq_false_iff, beq_eq_false_iff_ne] at plain
  have value : rune.value = delimiter ↔ rune = .char delimiter := by
    cases rune with
    | char c => simp [Rune.value]
    | bad byte => simpa [Rune.value] using whole.symm
  cases quote with
  | some quote => simp [splitFrom, scanRune]
  | none =>
    by_cases cut : rune = .char delimiter ∧ depth = 0
    · obtain ⟨rfl, rfl⟩ := cut
      simp [splitFrom, Rune.value, plain]
    · refine .inr ⟨by simpa using cut, ?_⟩
      simp only [splitFrom, scanRune]
      split_ifs <;> simp_all

theorem scan_append (one two : Text) : scan (one ++ two) = two.foldl scanRune (scan one) :=
  List.foldl_append

theorem splitFrom_scanned (plain : isMark delimiter = false) (whole : delimiter ≠ '\ufffd')
    {rest : Text} (scanned : scan part.reverse = (quote, depth))
    (unbroken : Unbroken delimiter part.reverse) :
    (∀ piece ∈ splitFrom delimiter quote depth part rest, Unbroken delimiter piece) ∧
      ∀ piece ∈ (splitFrom delimiter quote depth part rest).dropLast, scan piece = (none, 0) := by
  induction rest generalizing quote depth part with
  | nil => simpa [splitFrom] using unbroken
  | cons rune rest ih =>
    rcases @splitFrom_cons delimiter quote depth part plain whole rune rest with
      ⟨⟨-, outside⟩, split⟩ | ⟨uncut, split⟩
    · have later := @ih none 0 [] rfl (by simp [Unbroken])
      rw [split, List.dropLast_cons_of_ne_nil splitFrom_ne_nil]
      simp only [List.forall_mem_cons]
      exact ⟨⟨unbroken, later.1⟩, scanned.trans outside, later.2⟩
    · rw [split]
      apply ih
      · rw [List.reverse_cons, scan_append, scanned]
        rfl
      · intro before after whole
        rw [List.reverse_cons] at whole
        rcases after.eq_nil_or_concat with rfl | ⟨after, last, rfl⟩
        · obtain ⟨rfl, same⟩ := List.append_inj' whole rfl
          rintro ended
          exact uncut ⟨List.singleton_inj.mp same, scanned.symm.trans ended⟩
        · rw [List.concat_eq_append, ← List.cons_append, ← List.append_assoc] at whole
          exact unbroken before after (List.append_inj' whole rfl).1

theorem scan_join (plain : isMark delimiter = false) {parts : List Text}
    (closed : ∀ part ∈ parts, scan part = (none, 0)) :
    scan ([Rune.char delimiter].intercalate parts) = (none, 0) := by
  simp only [isMark, Bool.or_eq_false_iff, beq_eq_false_iff_ne] at plain
  have delimiting : scan [.char delimiter] = (none, 0) := by
    simp [scan, scanRune, Rune.value, plain]
  induction parts with
  | nil => rfl
  | cons part parts ih =>
    obtain ⟨first, later⟩ := List.forall_mem_cons.mp closed
    by_cases last : parts = []
    · simpa [last] using first
    · rw [List.intercalate_cons_of_ne_nil last, scan_append, scan_append, first]
      rw [show List.foldl scanRune (none, 0) [.char delimiter] = (none, 0) from delimiting]
      exact ih later

/-- A text is cut at all its delimiters outside of quotes and parentheses, and nowhere else: its
parts joined give it back, before each cut the scan of the text is outside, and in no part it meets
a delimiter there. The source steps one byte past a delimiter, so this needs one of a single
byte. -/
theorem splitSQLTopLevel_cuts (input : Text) (delimiter : Char) (ascii : delimiter.toNat < 128)
    (plain : isMark delimiter = false) :
    [Rune.char delimiter].intercalate (splitSQLTopLevel input delimiter) = input ∧
      (∀ front back, splitSQLTopLevel input delimiter = front ++ back → back ≠ [] →
        scan ([Rune.char delimiter].intercalate front) = (none, 0)) ∧
      ∀ part ∈ splitSQLTopLevel input delimiter, Unbroken delimiter part := by
  have whole : delimiter ≠ '\ufffd' := by
    rintro rfl
    exact absurd ascii (by decide)
  have scanned := @splitFrom_scanned delimiter none 0 [] plain whole input rfl (by simp [Unbroken])
  refine ⟨splitFrom_join whole, fun front back split some => scan_join plain fun part member => ?_,
    scanned.1⟩
  apply scanned.2
  rw [← splitSQLTopLevel, split, List.dropLast_append_of_ne_nil some]
  exact List.mem_append_left _ member

theorem splitSQLTopLevel_cuts_key :
    let input := chars "id INT DEFAULT ',',KEY k (a,b)"
    splitSQLTopLevel input ',' = [chars "id INT DEFAULT ','", chars "KEY k (a,b)"] ∧
      scan (chars "id INT DEFAULT ','") = (none, 0) ∧ Unbroken ',' (chars "KEY k (a,b)") := by
  intro input
  have split : splitSQLTopLevel input ',' = [chars "id INT DEFAULT ','", chars "KEY k (a,b)"] := by
    decide +kernel
  obtain ⟨-, cuts, parts⟩ := splitSQLTopLevel_cuts input ',' (by decide) (by decide)
  rw [split] at cuts parts
  exact ⟨split, cuts [_] [_] rfl (by simp), parts _ (by simp)⟩

end Migration

end RepoLens
