import RepoLens.Lib.Utf8
import RepoLens.SnapshotRanges

/-!
`internal/retrieval/tokenizer`: the words of a text and their forms, which are the terms of the
index and of a query.
-/

namespace RepoLens

open Utf8

namespace Retrieval

/-- The tables of `package unicode`, and what the Unicode standard says of them. -/
structure Unicode extends LowerCase where
  isLetter : Char → Bool
  isDigit : Char → Bool
  isUpper : Char → Bool
  isLower : Char → Bool
  letter_toLower : ∀ c, isLetter (toLower c) = isLetter c
  digit_toLower : ∀ c, isDigit (toLower c) = isDigit c
  not_space : ∀ c, isLetter c = true ∨ isDigit c = true → isSpace c = false
  /-- Upper case letters are neither lower case letters nor digits. -/
  not_upper : ∀ c, isLower c = true ∨ isDigit c = true → isUpper c = false
  /-- A broken byte is read as a symbol. -/
  replacement : isLetter '\ufffd' = false ∧ isDigit '\ufffd' = false

variable {c : Char} {runes : List Char}

theorem isDigit_of_isAlpha (letter : c.isAlpha = true) : c.isDigit = false := by
  by_contra digit
  simp only [Char.isAlpha, Char.isUpper, Char.isLower, Char.isDigit, UInt32.le_iff_toNat_le,
    Bool.not_eq_false, Bool.or_eq_true, Bool.and_eq_true, decide_eq_true_eq, UInt32.reduceToNat,
    Char.reduceVal, ge_iff_le] at letter digit
  omega

theorem isSpace_of_ascii (classed : c.isAlpha = true ∨ c.isDigit = true) : isSpace c = false := by
  by_contra space
  simp only [isSpace, Bool.not_eq_false, Bool.or_eq_true, List.contains_iff_mem, List.mem_cons,
    List.not_mem_nil, or_false, Bool.and_eq_true, decide_eq_true_eq] at space
  rcases space with listed | range
  · rcases listed with rfl | rfl | rfl | rfl | rfl | rfl | rfl | rfl | rfl | rfl | rfl | rfl | rfl |
      rfl <;>
      revert classed <;> decide
  · have low : 0x2000 ≤ c.toNat := range.1
    have number : c.val.toNat = c.toNat := rfl
    simp only [Char.isAlpha, Char.isUpper, Char.isLower, Char.isDigit, UInt32.le_iff_toNat_le,
      Bool.or_eq_true, Bool.and_eq_true, decide_eq_true_eq, UInt32.reduceToNat, Char.reduceVal,
      ge_iff_le] at classed
    omega

theorem isUpper_of_lower_or_digit (c : Char) (classed : c.isLower = true ∨ c.isDigit = true) :
    c.isUpper = false := by
  by_contra upper
  rw [Bool.not_eq_false] at upper
  rcases classed with lower | digit
  · simp only [Char.isUpper, Char.isLower, UInt32.le_iff_toNat_le, Bool.and_eq_true,
      decide_eq_true_eq, UInt32.reduceToNat, Char.reduceVal, ge_iff_le] at upper lower
    omega
  · rw [isDigit_of_isAlpha (by simp [Char.isAlpha, upper])] at digit
    cases digit

def Unicode.ascii : Unicode where
  toLowerCase := .latin
  isLetter := Char.isAlpha
  isDigit := Char.isDigit
  isUpper := Char.isUpper
  isLower := Char.isLower
  letter_toLower := Char.isAlpha_toLower_eq_isAlpha
  digit_toLower := by
    intro c
    change c.toLower.isDigit = c.isDigit
    by_cases upper : c.isUpper = true
    · have letter : c.isAlpha = true := by simp [Char.isAlpha, upper]
      rw [isDigit_of_isAlpha letter, isDigit_of_isAlpha (by simpa using letter)]
    · rw [Char.toLower_eq_of_not_isUpper upper]
  not_space := fun _ => isSpace_of_ascii
  not_upper := isUpper_of_lower_or_digit
  replacement := by decide

abbrev Word := List Char

def fieldsFunc (cut : Char → Bool) (text : List Char) : List Word :=
  (text.splitOnP cut).filter (· ≠ [])

namespace Unicode

variable (u : Unicode)

/-- `strings.ToLower` -/
def lower (word : Word) : Word := word.map u.toLower

def inWord (c : Char) : Bool := u.isLetter c || u.isDigit c || "_.:/-".toList.contains c

def rawWords (text : Bytes) : List Word := fieldsFunc (!u.inWord ·) ((decode text).map Rune.value)

/-- The variables of the loop of `splitCamelCase`. -/
structure Camel where
  parts : List Word
  start : Nat

def Camel.cut (runes : List Char) (camel : Camel) (stop : Nat) : Camel :=
  ⟨camel.parts ++ [(runes.take stop).drop camel.start], stop⟩

def isAt (runes : List Char) (i : Nat) (class_ : Char → Bool) : Bool := runes[i]?.any class_

def startsWord (runes : List Char) (i : Nat) : Bool :=
  0 < i && isAt runes i u.isUpper && (isAt runes (i - 1) u.isLower || isAt runes (i - 1) u.isDigit)

def endsAcronym (runes : List Char) (i : Nat) : Bool :=
  1 < i && isAt runes (i - 1) u.isUpper && isAt runes i u.isLower && isAt runes (i - 2) u.isUpper

def camelStep (runes : List Char) (camel : Camel) (i : Nat) : Camel :=
  let camel := if u.startsWord runes i then camel.cut runes i else camel
  if u.endsAcronym runes i then camel.cut runes (i - 1) else camel

def splitCamelCase (runes : List Char) : List Word :=
  let camel := (List.range runes.length).foldl (u.camelStep runes) ⟨[], 0⟩
  if camel.start < runes.length then camel.parts ++ [runes.drop camel.start] else camel.parts

/-- The parts between dots, colons, slashes, dashes and underscores. -/
def subParts (word : Word) : List Word := fieldsFunc ("._:/-".toList.contains ·) word

def forms (word : Word) : List Word :=
  word :: u.lower word :: (subParts word).flatMap fun part =>
    part :: u.lower part :: (u.splitCamelCase part).flatMap fun piece => [piece, u.lower piece]

/-- `addToken`; what was seen is what is in the list. -/
def addToken (tokens : List Word) (form : Word) : List Word :=
  let form := trim isSpace form
  if form = [] then tokens else if tokens.contains form then tokens else tokens ++ [form]

def tokenize (text : Bytes) : List Word := ((u.rawWords text).flatMap u.forms).foldl addToken []

theorem foldl_addToken (tokens words : List Word) (nodup : tokens.Nodup) :
    (words.foldl addToken tokens).Nodup ∧ ∀ token, token ∈ words.foldl addToken tokens ↔
      token ∈ tokens ∨ (token ≠ [] ∧ ∃ word ∈ words, trim isSpace word = token) := by
  induction words generalizing tokens with
  | nil => exact ⟨nodup, by simp⟩
  | cons word words ih =>
    have next : (addToken tokens word).Nodup ∧ ∀ token, token ∈ addToken tokens word ↔
        token ∈ tokens ∨ (token ≠ [] ∧ trim isSpace word = token) := by
      unfold addToken
      simp only [List.contains_iff_mem]
      split_ifs with empty known
      · refine ⟨nodup, fun token => ⟨.inl, ?_⟩⟩
        rintro (old | ⟨some, rfl⟩)
        · exact old
        · exact absurd empty some
      · refine ⟨nodup, fun token => ⟨.inl, ?_⟩⟩
        rintro (old | ⟨-, rfl⟩)
        · exact old
        · exact known
      · refine ⟨List.nodup_append.mpr ⟨nodup, by simp, ?_⟩, fun token => ?_⟩
        · rintro a member b single rfl
          exact known (List.mem_singleton.mp single ▸ member)
        · rw [List.mem_append, List.mem_singleton]
          constructor
          · rintro (old | rfl)
            · exact .inl old
            · exact .inr ⟨empty, rfl⟩
          · exact Or.imp_right fun new => new.2.symm
    obtain ⟨distinct, each⟩ := ih (addToken tokens word) next.1
    refine ⟨distinct, fun token => ?_⟩
    rw [List.foldl_cons, each token, next.2 token]
    simp only [List.mem_cons, exists_eq_or_imp, or_assoc, ← and_or_left]

theorem nodup_tokenize (text : Bytes) : (u.tokenize text).Nodup :=
  (foldl_addToken [] _ List.nodup_nil).1

theorem mark_plain (mark : c ∈ "_.:/-".toList) :
    c.toNat < 128 ∧ c.toLower = c ∧ isSpace c = false := by
  rw [show "_.:/-".toList = ['_', '.', ':', '/', '-'] from rfl] at mark
  simp only [List.mem_cons, List.not_mem_nil, or_false] at mark
  rcases mark with rfl | rfl | rfl | rfl | rfl <;> decide

theorem isSpace_of_inWord (inside : u.inWord c = true) : isSpace c = false := by
  simp only [inWord, Bool.or_eq_true, List.contains_iff_mem] at inside
  rcases inside with classed | mark
  · exact u.not_space c classed
  · exact (mark_plain mark).2.2

theorem inWord_toLower (inside : u.inWord c = true) : u.inWord (u.toLower c) = true := by
  simp only [inWord, Bool.or_eq_true, u.letter_toLower, u.digit_toLower] at inside ⊢
  rcases inside with classed | mark
  · exact .inl classed
  · obtain ⟨ascii, same, -⟩ := mark_plain (List.contains_iff_mem.mp mark)
    rw [u.toLower_ascii c ascii, same]
    exact .inr mark

theorem notCut_of_mem_splitOnP {cut : Char → Bool} {text piece : List Char}
    (member : piece ∈ text.splitOnP cut) : ∀ c ∈ piece, cut c = false := by
  induction text generalizing piece with
  | nil =>
    rw [List.splitOnP_nil, List.mem_singleton] at member
    simp [member]
  | cons a text ih =>
    obtain ⟨first, rest, shape⟩ := List.exists_cons_of_ne_nil (List.splitOnP_ne_nil cut text)
    rw [List.splitOnP_cons_eq_if_modifyHead] at member
    split at member
    · rcases List.mem_cons.mp member with rfl | later
      · simp
      · exact ih later
    · next kept =>
        rw [shape, List.modifyHead_cons, List.mem_cons] at member
        rcases member with rfl | later
        · intro c inside
          rcases List.mem_cons.mp inside with rfl | inside
          · simpa using kept
          · exact ih (by simp [shape]) c inside
        · exact ih (by simp [shape, later])

theorem rawWords_append (ascii : c.toNat < 128) (gap : u.inWord c = false) (first second : Bytes) :
    u.rawWords (first ++ String.utf8EncodeChar c ++ second) = u.rawWords first ++
      u.rawWords second := by
  rw [rawWords, decode_append_ascii ascii, List.map_append, List.map_cons, fieldsFunc,
    show (Rune.char c).value = c from rfl, List.splitOnP_append_cons _ _ (by simp [gap]),
    List.filter_append]
  rfl

theorem inWord_of_mem_rawWords {text : Bytes} {word : Word} (member : word ∈ u.rawWords text) :
    ∀ c ∈ word, u.inWord c = true := by
  intro c inside
  have whole := notCut_of_mem_splitOnP (List.mem_filter.mp member).1 c inside
  simpa using whole

theorem inWord_space : u.inWord ' ' = false := by
  by_contra inside
  exact absurd (u.isSpace_of_inWord (by simpa using inside)) (by decide)

theorem rawWords_word {word : Word} (some : word ≠ []) (inside : ∀ c ∈ word, u.inWord c = true) :
    u.rawWords (encode (word.map .char)) = [word] := by
  have values : (word.map Rune.char).map Rune.value = word := by
    simp [Function.comp_def, Rune.value]
  have whole : word.splitOnP (!u.inWord ·) = [word] :=
    List.splitOnP_eq_singleton fun c member => by simp [inside c member]
  rw [rawWords, decode_encode, values, fieldsFunc, whole]
  simp [some]

/-- What the loop of `splitCamelCase` has before it looks at a place. -/
structure Camel.Cut (runes : List Char) (i : Nat) (camel : Camel) : Prop where
  flatten : camel.parts.flatten = runes.take camel.start
  nonempty : ∀ part ∈ camel.parts, part ≠ []
  behind : camel.start ≤ i - 1
  /-- Just behind the first rune of a part, the part began behind no upper case letter. -/
  fresh : camel.start + 1 = i → 0 < camel.start → isAt runes (camel.start - 1) u.isUpper = false

theorem isAt_not_upper {i : Nat}
    (classed : isAt runes i u.isLower = true ∨ isAt runes i u.isDigit = true) :
    isAt runes i u.isUpper = false := by
  unfold isAt at classed ⊢
  cases found : runes[i]? with
  | none => rfl
  | some c =>
    rw [found] at classed
    exact u.not_upper c (by simpa using classed)

theorem Camel.cut_flatten {camel : Camel} {stop : Nat}
    (flatten : camel.parts.flatten = runes.take camel.start) (later : camel.start ≤ stop) :
    (camel.cut runes stop).parts.flatten = runes.take stop := by
  rw [Camel.cut, List.flatten_append, flatten, List.flatten_singleton]
  nth_rewrite 1 [← Nat.min_eq_left later]
  rw [← List.take_take, List.take_append_drop]

theorem Camel.cut_nonempty {camel : Camel} {stop : Nat} (nonempty : ∀ part ∈ camel.parts, part ≠ [])
    (later : camel.start < stop) (inside : stop ≤ runes.length) :
    ∀ part ∈ (camel.cut runes stop).parts, part ≠ [] := by
  intro part member
  rcases List.mem_append.mp member with old | new
  · exact nonempty part old
  · rw [List.mem_singleton.mp new]
    apply List.ne_nil_of_length_pos
    simp only [List.length_drop, List.length_take]
    omega

theorem camelStep_cut {i : Nat} {camel : Camel} (inside : i < runes.length)
    (state : camel.Cut u runes i) : (u.camelStep runes camel i).Cut u runes (i + 1) := by
  unfold camelStep
  by_cases starts : u.startsWord runes i = true
  · -- an upper case letter here is no lower case letter
    have upper : isAt runes i u.isUpper = true := by
      simp only [startsWord, Bool.and_eq_true] at starts
      exact starts.1.2
    have stays : u.endsAcronym runes i = false := by
      by_contra ends
      simp only [endsAcronym, Bool.not_eq_false, Bool.and_eq_true] at ends
      rw [u.isAt_not_upper (.inl ends.1.2)] at upper
      cases upper
    rw [if_pos starts]
    simp only [stays, Bool.false_eq_true, if_false]
    simp only [startsWord, Bool.and_eq_true, decide_eq_true_eq, Bool.or_eq_true] at starts
    have behind := state.behind
    constructor
    · exact Camel.cut_flatten state.flatten (by omega)
    · exact Camel.cut_nonempty state.nonempty (by omega) (by omega)
    · simp [Camel.cut]
    · intro _ _
      exact u.isAt_not_upper starts.2
  · rw [if_neg starts]
    by_cases ends : u.endsAcronym runes i = true
    · rw [if_pos ends]
      simp only [endsAcronym, Bool.and_eq_true, decide_eq_true_eq] at ends
      have behind := state.behind
      have earlier : camel.start < i - 1 := by
        by_contra late
        have last : camel.start = i - 1 := by omega
        have lower := state.fresh (by omega) (by omega)
        rw [last, show i - 1 - 1 = i - 2 by omega] at lower
        rw [lower] at ends
        cases ends.2
      constructor
      · exact Camel.cut_flatten state.flatten (by omega)
      · exact Camel.cut_nonempty state.nonempty earlier (by omega)
      · simp [Camel.cut]
      · intro next _
        simp only [Camel.cut] at next
        omega
    · rw [if_neg ends]
      have behind := state.behind
      refine ⟨state.flatten, state.nonempty, by omega, ?_⟩
      intro next some
      omega

theorem splitCamelCase_pieces (runes : List Char) :
    (u.splitCamelCase runes).flatten = runes ∧ ∀ part ∈ u.splitCamelCase runes, part ≠ [] := by
  have run : ∀ n ≤ runes.length,
      ((List.range n).foldl (u.camelStep runes) ⟨[], 0⟩).Cut u runes n := by
    intro n
    induction n with
    | zero => exact fun _ => ⟨by simp, by simp, by simp, by simp⟩
    | succ n ih =>
      intro inside
      rw [List.range_succ, List.foldl_append]
      exact u.camelStep_cut (by omega) (ih (by omega))
  have state := run runes.length le_rfl
  unfold splitCamelCase
  simp only
  split_ifs with rest
  · constructor
    · rw [List.flatten_append, state.flatten, List.flatten_singleton, List.take_append_drop]
    · intro part member
      rcases List.mem_append.mp member with old | new
      · exact state.nonempty part old
      · rw [List.mem_singleton.mp new]
        apply List.ne_nil_of_length_pos
        rw [List.length_drop]
        omega
  · refine ⟨?_, state.nonempty⟩
    rw [state.flatten, List.take_of_length_le (by omega)]

def splitCamelCaseString (s : Bytes) : List Bytes :=
  (u.splitCamelCase ((decode s).map Rune.value)).map fun part => encode (part.map .char)

/-- The parts are not empty, and one after the other they are the string. -/
theorem splitCamelCase_partition (s : Bytes) (valid : Valid s) :
    (u.splitCamelCaseString s).flatten = s ∧ ∀ part ∈ u.splitCamelCaseString s, part ≠ [] := by
  obtain ⟨cs, rfl⟩ := valid
  have runes : (decode (encode (cs.map .char))).map Rune.value = cs := by
    rw [decode_encode, List.map_map]
    exact List.map_id cs
  obtain ⟨whole, nonempty⟩ := u.splitCamelCase_pieces cs
  unfold splitCamelCaseString
  rw [runes]
  constructor
  · have join (parts : List Word) : (parts.map fun part => encode (part.map .char)).flatten =
        encode (parts.flatten.map .char) := by
      induction parts with
      | nil => rfl
      | cons part parts ih =>
          rw [List.map_cons, List.flatten_cons, ih, List.flatten_cons, List.map_append,
            encode_append]
    rw [join, whole]
  · intro bytes member empty
    obtain ⟨part, inside, rfl⟩ := List.mem_map.mp member
    cases part with
    | nil => exact nonempty [] inside rfl
    | cons c rest =>
        rw [List.map_cons, encode_cons, List.append_eq_nil_iff] at empty
        exact (Rune.char c).bytes_ne_nil empty.1

theorem splitCamelCase_partition_acronym :
    (Unicode.ascii.splitCamelCaseString (ofString "myHTTPServer")).flatten =
      ofString "myHTTPServer" :=
  (Unicode.ascii.splitCamelCase_partition (ofString "myHTTPServer") ⟨_, rfl⟩).1

example : Unicode.ascii.splitCamelCaseString (ofString "myHTTPServer") =
    [ofString "my", ofString "HTTP", ofString "Server"] := by decide +kernel

theorem subset_of_mem_splitCamelCase {piece : List Char} (member : piece ∈ u.splitCamelCase runes) :
    piece ⊆ runes := by
  intro c inside
  rw [← (u.splitCamelCase_pieces runes).1]
  exact List.mem_flatten.mpr ⟨piece, member, inside⟩

theorem inWord_of_mem_forms {word form : Word} (inside : ∀ c ∈ word, u.inWord c = true)
    (member : form ∈ u.forms word) : ∀ c ∈ form, u.inWord c = true := by
  have lowered {part : Word} (subset : part ⊆ word) : ∀ c ∈ u.lower part, u.inWord c = true := by
    intro c member
    obtain ⟨d, among, rfl⟩ := List.mem_map.mp member
    exact u.inWord_toLower (inside d (subset among))
  simp only [forms, List.mem_cons, List.mem_flatMap, List.not_mem_nil, or_false] at member
  rcases member with rfl | rfl | ⟨part, among, made⟩
  · exact inside
  · exact lowered (List.Subset.refl _)
  · have subset : part ⊆ word := splitOnP_subset (List.mem_filter.mp among).1
    rcases made with rfl | rfl | ⟨piece, cut, made⟩
    · exact fun c member => inside c (subset member)
    · exact lowered subset
    · have pieces := List.Subset.trans (u.subset_of_mem_splitCamelCase cut) subset
      rcases made with rfl | rfl
      · exact fun c member => inside c (pieces member)
      · exact lowered pieces

theorem mem_tokenize {text : Bytes} {token : Word} : token ∈ u.tokenize text ↔
    token ≠ [] ∧ ∃ word ∈ u.rawWords text, token ∈ u.forms word := by
  rw [tokenize, (foldl_addToken [] _ List.nodup_nil).2]
  simp only [List.not_mem_nil, false_or, List.mem_flatMap]
  have trimmed {word form : Word} (among : word ∈ u.rawWords text) (made : form ∈ u.forms word) :
      trim isSpace form = form := by
    apply trim_eq_self
    intro c inside
    exact u.isSpace_of_inWord (u.inWord_of_mem_forms (u.inWord_of_mem_rawWords among) made c inside)
  constructor
  · rintro ⟨some, form, ⟨word, among, made⟩, rfl⟩
    rw [trimmed among made] at some ⊢
    exact ⟨some, word, among, made⟩
  · rintro ⟨some, word, among, made⟩
    exact ⟨some, token, ⟨word, among, made⟩, trimmed among made⟩

end Unicode

end Retrieval

end RepoLens
