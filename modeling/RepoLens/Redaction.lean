import RepoLens.Lib.Utf8
import RepoLens.Lib.Regex
import RepoLens.SnapshotRanges

/-!
`internal/platform/redaction`: the nine expressions and `RedactSecrets`, which runs them over a
text one after the other.
-/

namespace RepoLens

open Utf8 Regex

namespace Redaction

/-- The word characters of `\b`. -/
def word (rune : Rune) : Bool := rune.value.isAlphanum || rune.value == '_'

/-- Under `(?i)` the long s and the Kelvin sign stand for s and k. -/
def fold (c : Char) : Char :=
  if c = '\u017f' then 's' else if c = '\u212a' then 'k' else c.toLower

def cls (class_ : Char → Bool) : Re Rune := .one fun rune => class_ rune.value

def chr (set : String) : Re Rune := cls (set.toList.contains ·)

def chrNot (set : String) : Re Rune := cls (!set.toList.contains ·)

def lit (text : String) : Re Rune := .all (text.toList.map fun c => cls (· == c))

/-- A literal under `(?i)`, given in small letters. -/
def litFold (text : String) : Re Rune := .all (text.toList.map fun c => cls (fold · == c))

/-- `\s` -/
def space : Re Rune := chr "\t\n\x0c\r "

/-- `[\t ]` -/
def blank : Re Rune := chr "\t "

/-- `[A-Z\s]` -/
def upperOrSpace : Re Rune := cls fun c => c.isUpper || "\t\n\x0c\r ".toList.contains c

def quote : Re Rune := chr "\"'"

/-- `(?i)\b(bearer[\t ]+)([a-zA-Z0-9_\-\.+/]+=*)\b` -/
def bearerTokenRegex : Re Rune := .all [.boundary, .group 1 (.seq (litFold "bearer") blank.plus),
  .group 2 (.seq (cls fun c => (fold c).isAlphanum || "_-.+/".toList.contains c).plus
    (chr "=").many),
  .boundary]

/-- `\b(ghp_[a-zA-Z0-9]{36}|github_pat_[a-zA-Z0-9_]{60,})\b` -/
def githubTokenRegex : Re Rune := .all [.boundary,
  .group 1 (.alt (.seq (lit "ghp_") ((cls Char.isAlphanum).times 36))
    (.seq (lit "github_pat_") ((cls fun c => c.isAlphanum || c == '_').atLeast 60))),
  .boundary]

/-- `\b(sk-[a-zA-Z0-9_\-]{20,})\b` -/
def openaiKeyRegex : Re Rune := .all [.boundary,
  .group 1 (.seq (lit "sk-") ((cls fun c => c.isAlphanum || "_-".toList.contains c).atLeast 20)),
  .boundary]

/-- `\b(AKIA[0-9A-Z]{16})\b` -/
def awsKeyRegex : Re Rune := .all [.boundary,
  .group 1 (.seq (lit "AKIA") ((cls fun c => c.isDigit || c.isUpper).times 16)), .boundary]

def keyLine (start : String) (index : Nat) : Re Rune :=
  .all [lit start, space.plus, (Re.group index upperOrSpace.plus).opt, lit "PRIVATE", space.plus,
    lit "KEY-----"]

/-- `(?s)-----BEGIN\s+([A-Z\s]+)?PRIVATE\s+KEY-----.*?-----END\s+([A-Z\s]+)?PRIVATE\s+KEY-----` -/
def privateKeyRegex : Re Rune := .all [keyLine "-----BEGIN" 1, .star false (cls fun _ => true),
  keyLine "-----END" 2]

/-- `(?i)\b(password|secret|api_key|access_token|private_key)\s*=\s*['"]?([^'"\s\n]{8,})['"]?` -/
def envSecretRegex : Re Rune := .all [.boundary,
  .group 1 (.any (["password", "secret", "api_key", "access_token", "private_key"].map litFold)),
  space.many, chr "=", space.many, quote.opt, .group 2 ((chrNot "'\"\t\n\x0c\r ").atLeast 8),
    quote.opt]

/-- `(?im)(\bauthorization[\t ]*:[\t ]*)([a-z][a-z0-9_-]*)([\t ]+)([^\s\r\n]+)` -/
def authHeaderRegex : Re Rune := .all [
  .group 1 (.all [.boundary, litFold "authorization", blank.many, chr ":", blank.many]),
  .group 2 (.seq (cls fun c => (fold c).isLower)
    (cls fun c => (fold c).isLower || c.isDigit || "_-".toList.contains c).many),
  .group 3 blank.plus, .group 4 (chrNot "\t\n\x0c\r ").plus]

/-- `(?i)(["']authorization["'][\t ]*:[\t ]*["'])([^"'\r\n]+)` -/
def authJSONRegex : Re Rune := .all [
  .group 1 (.all [quote, litFold "authorization", quote, blank.many, chr ":", blank.many, quote]),
  .group 2 (chrNot "\"'\r\n").plus]

/-- `\\?"` -/
def escapedQuote : Re Rune := .seq (chr "\\").opt (chr "\"")

/-- `(?i)(\\?")(password|…|authorization)(\\?"[\t\r\n ]*:[\t\r\n ]*\\?")((?:\\.|[^"\\])*)(\\?")` -/
def jsonSecretRegex : Re Rune := .all [
  .group 1 escapedQuote,
  .group 2 (.any (["password", "passwd", "pwd", "token", "access_token", "refresh_token", "api_key",
    "apikey", "secret", "client_secret", "authorization"].map litFold)),
  .group 3 (.all [escapedQuote, (chr "\t\r\n ").many, chr ":", (chr "\t\r\n ").many, escapedQuote]),
  .group 4 (Re.alt (.seq (chr "\\") (chrNot "\n")) (chrNot "\"\\")).many,
  .group 5 escapedQuote]

/-- `ReplaceAllString` and `ReplaceAllStringFunc`: what stands for a match is given by
the match and its groups. -/
def replace (re : Re Rune) (new : Text → Cursor Rune → Text) (text : Bytes) : Bytes :=
  encode (replaceAll word re new (decode text))

def isAuthorization (key : Text) : Bool :=
  key.map (fun rune => fold rune.value) == "authorization".toList

/-- The replacement in `jsonSecretRegex`, which matches the pair once more to get its
parts. -/
def redactPair (pair : Text) : Text :=
  match find word jsonSecretRegex none pair with
  | none => pair
  | some parts =>
    let value :=
      if isAuthorization (parts.matched 2) then
        match fields (parts.matched 4) with
        | scheme :: _ :: _ => scheme ++ chars " [REDACTED_SECRET]"
        | _ => chars "[REDACTED_SECRET]"
      else chars "[REDACTED_SECRET]"
    parts.matched 1 ++ parts.matched 2 ++ parts.matched 3 ++ value ++ parts.matched 5

def redactAuth (header : Text) : Text :=
  match find word authJSONRegex none header with
  | none => header
  | some parts =>
    match fields (parts.matched 2) with
    | scheme :: _ :: _ => parts.matched 1 ++ scheme ++ chars " [REDACTED_SECRET]"
    | _ => parts.matched 1 ++ chars "[REDACTED_SECRET]"

def passes : List (Re Rune × (Text → Cursor Rune → Text)) := [
  (privateKeyRegex, fun _ _ => chars "[REDACTED_PRIVATE_KEY]"),
  (jsonSecretRegex, fun pair _ => redactPair pair),
  (authHeaderRegex, fun _ found =>
    found.matched 1 ++ found.matched 2 ++ chars " [REDACTED_SECRET]"),
  (authJSONRegex, fun header _ => redactAuth header),
  (bearerTokenRegex, fun _ found => found.matched 1 ++ chars "[REDACTED_SECRET]"),
  (githubTokenRegex, fun _ _ => chars "[REDACTED_GITHUB_TOKEN]"),
  (openaiKeyRegex, fun _ _ => chars "[REDACTED_API_KEY]"),
  (awsKeyRegex, fun _ _ => chars "[REDACTED_AWS_KEY]"),
  (envSecretRegex, fun _ found => found.matched 1 ++ chars "=[REDACTED_SECRET]")]

end Redaction

def redactSecrets (text : Bytes) : Bytes :=
  Redaction.passes.foldl (fun text pass => Redaction.replace pass.1 pass.2 text) text

namespace Redaction

def Whole (text : Text) : Prop := ∀ rune ∈ text, ∃ c, rune = .char c

theorem whole_map (text : List Char) : Whole (text.map .char) := by
  intro rune member
  obtain ⟨c, -, rfl⟩ := List.mem_map.mp member
  exact ⟨c, rfl⟩

theorem whole_chars (s : String) : Whole (chars s) := whole_map s.toList

theorem Whole.append {first second : Text} (one : Whole first) (two : Whole second) :
    Whole (first ++ second) := by
  intro rune member
  exact (List.mem_append.mp member).elim (one rune) (two rune)

theorem Whole.map_char {text : Text} (whole : Whole text) :
    ∃ cs : List Char, text = cs.map .char := by
  induction text with
  | nil => exact ⟨[], rfl⟩
  | cons rune text ih =>
    obtain ⟨c, rfl⟩ := whole rune (by simp)
    obtain ⟨cs, rfl⟩ := ih fun rune member => whole rune (List.mem_cons_of_mem _ member)
    exact ⟨c :: cs, rfl⟩

theorem Whole.fields {text field : Text} (whole : Whole text) (member : field ∈ fields text) :
    Whole field :=
  fun rune inside => whole rune (fields_subset member inside)

theorem redactPair_whole {pair : Text} (whole : Whole pair) : Whole (redactPair pair) := by
  unfold redactPair
  cases found : find word jsonSecretRegex none pair with
  | none => exact whole
  | some parts =>
    have group (index : Nat) : Whole (parts.matched index) := (find_all whole found).matched index
    simp only
    apply (((group 1).append (group 2)).append (group 3)).append _ |>.append (group 5)
    split
    · split
      · next scheme _ _ shape =>
          exact ((group 4).fields (by simp [shape])).append (whole_chars _)
      · exact whole_chars _
    · exact whole_chars _

theorem redactAuth_whole {header : Text} (whole : Whole header) : Whole (redactAuth header) := by
  unfold redactAuth
  cases found : find word authJSONRegex none header with
  | none => exact whole
  | some parts =>
    have group (index : Nat) : Whole (parts.matched index) := (find_all whole found).matched index
    simp only
    split
    · next scheme _ _ shape =>
        exact ((group 1).append ((group 2).fields (by simp [shape]))).append (whole_chars _)
    · exact (group 1).append (whole_chars _)

theorem passes_whole : ∀ pass ∈ passes, ∀ taken cursor, Whole taken →
    cursor.All (fun rune => ∃ c, rune = .char c) → Whole (pass.2 taken cursor) := by
  intro pass among taken cursor whole all
  simp only [passes, List.mem_cons, List.not_mem_nil, or_false] at among
  have group (index : Nat) : Whole (cursor.matched index) := all.matched index
  rcases among with rfl | rfl | rfl | rfl | rfl | rfl | rfl | rfl | rfl
  · exact whole_chars _
  · exact redactPair_whole whole
  · exact ((group 1).append (group 2)).append (whole_chars _)
  · exact redactAuth_whole whole
  · exact (group 1).append (whole_chars _)
  · exact whole_chars _
  · exact whole_chars _
  · exact whole_chars _
  · exact (group 1).append (whole_chars _)

def redactText (text : Text) : Text :=
  passes.foldl (fun text pass => replaceAll word pass.1 pass.2 text) text

theorem replaceAll_whole {pass : Re Rune × (Text → Cursor Rune → Text)} (among : pass ∈ passes)
    {text : Text} (whole : Whole text) : Whole (replaceAll word pass.1 pass.2 text) :=
  replaceFrom_all (fun taken cursor units all => passes_whole pass among taken cursor units all)
    whole

theorem replace_encode {re : Re Rune} {new : Text → Cursor Rune → Text} {text : Text}
    (whole : Whole text) : replace re new (encode text) = encode (replaceAll word re new text) := by
  obtain ⟨cs, rfl⟩ := whole.map_char
  rw [replace, decode_encode]

theorem foldl_encode {rest : List (Re Rune × (Text → Cursor Rune → Text))}
    (among : ∀ pass ∈ rest, pass ∈ passes) {text : Text} (whole : Whole text) :
    rest.foldl (fun text pass => replace pass.1 pass.2 text) (encode text) =
        encode (rest.foldl (fun text pass => replaceAll word pass.1 pass.2 text) text) ∧
      Whole (rest.foldl (fun text pass => replaceAll word pass.1 pass.2 text) text) := by
  induction rest generalizing text with
  | nil => exact ⟨rfl, whole⟩
  | cons pass rest ih =>
    rw [List.foldl_cons, List.foldl_cons, replace_encode whole]
    exact ih (fun pass member => among pass (List.mem_cons_of_mem _ member))
      (replaceAll_whole (among pass (by simp)) whole)

def Inert (rune : Rune) : Prop := ∀ pass ∈ passes, pass.1.starts rune = false

instance (rune : Rune) : Decidable (Inert rune) := inferInstanceAs (Decidable (∀ pass ∈ passes, _))

theorem passes_consume : ∀ pass ∈ passes, pass.1.nullable = false := by
  decide

theorem redactText_inert {copied : Text} (inert : ∀ rune ∈ copied, Inert rune) (rest : Text) :
    redactText (copied ++ rest) = copied ++
      passes.foldl (fun text pass => replaceFrom word pass.1 pass.2 0 copied.getLast? text)
        rest := by
  have each : ∀ pass ∈ passes, ∀ rest, replaceAll word pass.1 pass.2 (copied ++ rest) =
      copied ++ replaceFrom word pass.1 pass.2 0 copied.getLast? rest := by
    intro pass among rest
    rw [replaceAll, replaceFrom_copies (passes_consume pass among)
      fun rune member => inert rune member pass among, Option.or_none]
  unfold redactText
  generalize passes = list at each
  induction list generalizing rest with
  | nil => rfl
  | cons pass list ih =>
    rw [List.foldl_cons, List.foldl_cons, each pass (by simp)]
    exact ih _ fun pass among => each pass (by simp [among])

/-- What the expressions look for, in small letters. -/
def secretWords : List String :=
  ["private", "password", "passwd", "pwd", "token", "api_key", "apikey",
  "secret", "authorization", "bearer", "ghp_", "github_pat_", "sk-", "akia"]

def Clear (text : List Char) : Prop := ∀ word ∈ secretWords, ¬ word.toList <:+: text.map fold

instance (text : List Char) : Decidable (Clear text) := inferInstanceAs (Decidable (∀ _ ∈ _, _))

theorem Clear.tail {c : Char} {text : List Char} (clear : Clear (c :: text)) : Clear text :=
  fun word listed inside => clear word listed (inside.trans (List.suffix_cons _ _).isInfix)

theorem clear_of_letters {text : List Char} (none_ : ∀ c ∈ text, (fold c).isAlpha = false) :
    Clear text := by
  intro word listed inside
  have letters : ∀ word ∈ secretWords, word.toList.any Char.isAlpha = true := by decide +kernel
  obtain ⟨c, member, alpha⟩ := List.any_eq_true.mp (letters word listed)
  obtain ⟨d, among, rfl⟩ := List.mem_map.mp (inside.subset member)
  rw [none_ d among] at alpha
  cases alpha

/-- No word reaches over a mark that it does not hold. -/
theorem clear_mark {mark : Char} (apart : ∀ word ∈ secretWords, fold mark ∉ word.toList)
    {before after : List Char} (one : Clear before) (two : Clear after) :
    Clear (before ++ mark :: after) := by
  intro word listed ⟨left, right, shape⟩
  rw [List.map_append, List.map_cons] at shape
  rcases List.append_eq_append_iff.mp shape with ⟨more, inFront, -⟩ | ⟨more, reaches, behind⟩
  · exact one word listed ⟨left, more, inFront.symm⟩
  cases more with
  | nil =>
    rw [List.append_nil] at reaches
    exact one word listed ⟨left, [], by simpa using reaches⟩
  | cons c more =>
    rw [List.cons_append, List.cons.injEq] at behind
    obtain ⟨rfl, behind⟩ := behind
    rcases List.append_eq_append_iff.mp reaches with ⟨rest, -, held⟩ | ⟨rest, -, held⟩
    · exact apart word listed (held ▸ by simp)
    · cases rest with
      | nil => exact apart word listed ((show word.toList = _ from held.symm) ▸ by simp)
      | cons _ rest =>
        rw [List.cons_append, List.cons.injEq] at held
        exact two word listed ⟨rest, right, by rw [behind, held.2]⟩

theorem passes_need : ∀ pass ∈ passes,
    Needs word (fun rune => fold rune.value) (secretWords.map String.toList) pass.1 := by
  have plain (text : String)
      (among : ∃ key ∈ secretWords.map String.toList, key <:+: text.toList.map fold) :
      Needs word (fun rune => fold rune.value) (secretWords.map String.toList) (lit text) :=
    needs_spelled (fun same => congrArg fold (beq_iff_eq.mp same)) among
  have folded (text : String)
      (among : ∃ key ∈ secretWords.map String.toList, key <:+: text.toList.map id) :
      Needs word (fun rune => fold rune.value) (secretWords.map String.toList) (litFold text) :=
    needs_spelled (fun same => beq_iff_eq.mp same) among
  have choice (texts : List String)
      (among : ∀ text ∈ texts, ∃ key ∈ secretWords.map String.toList, key <:+: text.toList.map id) :
      Needs word (fun rune => fold rune.value) (secretWords.map String.toList)
        (.any (texts.map litFold)) := by
    apply Needs.any
    intro re member
    obtain ⟨text, listed, rfl⟩ := List.mem_map.mp member
    exact folded text (among text listed)
  intro pass among
  simp only [passes, List.mem_cons, List.not_mem_nil, or_false] at among
  rcases among with rfl | rfl | rfl | rfl | rfl | rfl | rfl | rfl | rfl
  · exact .first (.second (.second (.second (.first (plain "PRIVATE" (by decide))))))
  · exact .second (.first (.group (choice _ (by decide))))
  · exact .first (.group (.second (.first (folded _ (by decide)))))
  · exact .first (.group (.second (.first (folded _ (by decide)))))
  · exact .second (.first (.group (.first (folded _ (by decide)))))
  · exact .second
      (.first (.group (.alt (.first (plain _ (by decide))) (.first (plain _ (by decide))))))
  · exact .second (.first (.group (.first (plain _ (by decide)))))
  · exact .second (.first (.group (.first (plain _ (by decide)))))
  · exact .second (.first (.group (choice _ (by decide))))

theorem redactText_clear {text : List Char} (clear : Clear text) :
    redactText (text.map .char) = text.map .char := by
  have each : ∀ pass ∈ passes, replaceAll word pass.1 pass.2 (text.map .char) = text.map .char := by
    intro pass among
    apply (passes_need pass among).replaceFrom_eq
    intro key member inside
    obtain ⟨secret, listed, rfl⟩ := List.mem_map.mp member
    apply clear secret listed
    rwa [List.map_map] at inside
  unfold redactText
  generalize passes = list at each
  induction list with
  | nil => rfl
  | cons pass list ih =>
    rw [List.foldl_cons, each pass (by simp)]
    exact ih fun pass among => each pass (by simp [among])

end Redaction

theorem redactSecrets_encode {text : Text} (whole : Redaction.Whole text) :
    redactSecrets (encode text) = encode (Redaction.redactText text) ∧
      Redaction.Whole (Redaction.redactText text) :=
  Redaction.foldl_encode (fun _ member => member) whole

theorem redactSecrets_clear {text : List Char} (clear : Redaction.Clear text) :
    redactSecrets (encode (text.map .char)) = encode (text.map .char) := by
  rw [(redactSecrets_encode (Redaction.whole_map text)).1, Redaction.redactText_clear clear]

end RepoLens
