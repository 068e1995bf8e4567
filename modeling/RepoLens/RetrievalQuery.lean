import RepoLens.Lib.Lines
import RepoLens.Redaction
import RepoLens.Tokenizer

/-!
`internal/retrieval/query.go`: the query for the index, from the title, the description and the
error log of an issue.
-/

namespace RepoLens

open Utf8 Regex Lines

namespace Retrieval

open Redaction (cls lit word)

/-- `[A-Za-z_][A-Za-z0-9_]*` -/
def identifierPattern : Re Rune :=
  .seq (cls fun c => c.isAlpha || c == '_') (cls fun c => c.isAlphanum || c == '_').many

def stackTokenPattern : Re Rune := .any [
  .all [(cls fun c => c.isAlphanum || "_./-".toList.contains c).plus, lit ".",
    .any (["go", "rs", "py", "ts", "js"].map lit)],
  .seq identifierPattern (Re.seq (lit ".") identifierPattern).many,
  .any (["panic", "error", "fatal", "exception", "timeout", "deadlock", "nil"].map lit)]

def space : UInt8 := 32

/-- The words that `strings.FieldsFunc` finds between white space and punctuation. -/
def wordsOf (isPunct : Char → Bool) (input : Bytes) : List Bytes :=
  (((decode input).splitOnP fun rune => isSpace rune.value || isPunct rune.value).filter
    (· ≠ [])).map encode

def boundedWords (isPunct : Char → Bool) (input : Bytes) (max : Nat) : Bytes :=
  join space ((wordsOf isPunct input).take max)

namespace Unicode

variable (u : Unicode)

/-- `strings.ToLower` of a match. -/
def key (token : Text) : Word := u.lower (token.map Rune.value)

def distinctTokens : List Text → List Word → List Text
  | [], _ => []
  | found :: rest, seen =>
    let token := trim (fun rune => isSpace rune.value) found
    if token = [] then distinctTokens rest seen
    else if seen.contains (u.key token) then distinctTokens rest seen
    else token :: if seen.length + 1 ≥ 32 then [] else distinctTokens rest (u.key token :: seen)

variable (isPunct : Char → Bool)

def queryParts (issueTitle issueDescription errorLog : Bytes) : List Bytes :=
  let description := trimBytes issueDescription
  [trimBytes issueTitle] ++
    (if description ≠ [] then [boundedWords isPunct description 24] else []) ++
    (u.distinctTokens (findAll word stackTokenPattern (decode errorLog)) []).map encode

def buildQuery (issueTitle issueDescription errorLog : Bytes) : Bytes :=
  let query := join space (u.queryParts isPunct issueTitle issueDescription errorLog)
  trimBytes (if query.length > 2048 then query.take 2048 else query)

end Unicode

def inToken (c : Char) : Bool := c.isAlphanum || "_./-".toList.contains c

theorem lit_uses (text : String) (rune : Rune) :
    (lit text).uses rune = text.toList.contains rune.value := by
  rw [lit, uses_all, List.any_map, List.contains_eq_any_beq]
  rfl

theorem inToken_of_lit {texts : List String} {rune : Rune}
    (plain : texts.all (·.toList.all inToken) = true)
    (used : (texts.map lit).any (·.uses rune) = true) : inToken rune.value = true := by
  simp only [List.any_map, List.any_eq_true, Function.comp_apply, lit_uses] at used
  obtain ⟨text, listed, member⟩ := used
  simp only [List.all_eq_true] at plain
  exact plain text listed _ (List.contains_iff_mem.mp member)

theorem inToken_of_identifier {rune : Rune} (used : identifierPattern.uses rune = true) :
    inToken rune.value = true := by
  have either : rune.value.isAlphanum = true ∨ rune.value = '_' := by
    simp only [identifierPattern, Re.uses, Re.many, cls, Bool.or_eq_true, beq_iff_eq] at used
    rcases used with (letter | same) | other
    · exact .inl (by simp [Char.isAlphanum, letter])
    · exact .inr same
    · exact other
  rcases either with plain | same
  · simp [inToken, plain]
  · rw [same]
    decide

theorem stackTokenPattern_uses {rune : Rune} (used : stackTokenPattern.uses rune = true) :
    inToken rune.value = true := by
  simp only [stackTokenPattern, uses_any, uses_all, List.any_cons, List.any_nil, Bool.or_false,
    Bool.or_eq_true, Re.uses, Re.plus, Re.many, cls, lit_uses] at used
  have dot : ".".toList.contains rune.value = true → inToken rune.value = true := fun same =>
    @inToken_of_lit ["."] rune (by decide) (by simpa [lit_uses] using same)
  rcases used with ((path | path) | point | ending) | (first | point | more) | name
  · simpa [inToken] using path
  · simpa [inToken] using path
  · exact dot point
  · exact inToken_of_lit (by decide) ending
  · exact inToken_of_identifier first
  · exact dot point
  · exact inToken_of_identifier more
  · exact inToken_of_lit (by decide) name

variable {c : Char} {errorLog part : Bytes} {token : Text}

theorem mark_of_inToken (listed : c ∈ "_./-".toList) : c.toNat < 128 ∧ isSpace c = false := by
  have mark : c ∈ "_.:/-".toList := by
    revert listed
    simp only [show "_./-".toList = ['_', '.', '/', '-'] from rfl,
      show "_.:/-".toList = ['_', '.', ':', '/', '-'] from rfl,
      List.mem_cons, List.not_mem_nil, or_false]
    tauto
  exact ⟨(Unicode.mark_plain mark).1, (Unicode.mark_plain mark).2.2⟩

theorem inToken_plain (inside : inToken c = true) : c.toNat < 128 ∧ isSpace c = false := by
  simp only [inToken, Char.isAlphanum, Bool.or_eq_true, List.contains_iff_mem] at inside
  rcases inside with classed | listed
  · refine ⟨?_, isSpace_of_ascii classed⟩
    have number : c.val.toNat = c.toNat := rfl
    simp only [Char.isAlpha, Char.isUpper, Char.isLower, Char.isDigit, UInt32.le_iff_toNat_le,
      Bool.or_eq_true,
      Bool.and_eq_true, decide_eq_true_eq, UInt32.reduceToNat, Char.reduceVal, ge_iff_le] at classed
    omega
  · exact mark_of_inToken listed

theorem stackTokenPattern_consumes : stackTokenPattern.nullable = false := by decide

structure TokenOf (errorLog : Bytes) (token : Text) : Prop where
  found : token ∈ findAll word stackTokenPattern (decode errorLog)
  occurs : encode token <:+: errorLog
  nonempty : token ≠ []
  plain : ∀ rune ∈ token, inToken rune.value = true

theorem tokenOf_found (found : token ∈ findAll word stackTokenPattern (decode errorLog)) :
    TokenOf errorLog token := by
  obtain ⟨⟨front, back, shape⟩, nonempty, used⟩ :=
    findAllFrom_parts stackTokenPattern_consumes found
  refine ⟨found, ⟨encode front, encode back, ?_⟩, nonempty,
    fun rune member => stackTokenPattern_uses (used rune member)⟩
  rw [← encode_append, ← encode_append, shape, encode_decode]

theorem TokenOf.trim_eq (of : TokenOf errorLog token) :
    trim (fun rune => isSpace rune.value) token = token :=
  trim_eq_self fun rune member => (inToken_plain (of.plain rune member)).2

theorem TokenOf.ascii (of : TokenOf errorLog token) :
    ∀ byte ∈ encode token, byte.toNat < 128 := by
  intro byte member
  obtain ⟨rune, among, inside⟩ := List.mem_flatMap.mp member
  have plain := (inToken_plain (of.plain rune among)).1
  cases rune with
  | char c =>
    obtain ⟨single, same, number⟩ := @utf8EncodeChar_ascii c plain
    rw [Rune.bytes, same, List.mem_singleton] at inside
    rw [inside, number]
    exact plain
  | bad byte => exact absurd plain (by exact (by decide : ¬ '\ufffd'.toNat < 128))

namespace Unicode

variable (u : Unicode)

theorem distinctTokens_spec (matched : List Text) (seen : List Word)
    (each : ∀ token ∈ matched, TokenOf errorLog token) (room : seen.length < 32) :
    (∀ token ∈ u.distinctTokens matched seen, token ∈ matched ∧ u.key token ∉ seen) ∧
      ((u.distinctTokens matched seen).map u.key).Nodup ∧
        (u.distinctTokens matched seen).length + seen.length ≤ 32 := by
  induction matched generalizing seen with
  | nil => simp [distinctTokens, room.le]
  | cons found rest ih =>
    have of := each found List.mem_cons_self
    have others := fun token member => each token (List.mem_cons_of_mem found member)
    unfold distinctTokens
    simp only [of.trim_eq, of.nonempty, if_false]
    by_cases old : seen.contains (u.key found) = true
    · rw [if_pos old]
      obtain ⟨among, distinct, few⟩ := ih seen others room
      refine ⟨fun token member => ?_, distinct, few⟩
      exact ⟨List.mem_cons_of_mem _ (among token member).1, (among token member).2⟩
    · rw [if_neg old]
      have new : u.key found ∉ seen := by simpa using old
      by_cases full : seen.length + 1 ≥ 32
      · rw [if_pos full]
        simp [new]
        omega
      · rw [if_neg full]
        obtain ⟨among, distinct, few⟩ :=
          ih (u.key found :: seen) others (by rw [List.length_cons]; omega)
        refine ⟨?_, ?_, ?_⟩
        · intro token member
          rcases List.mem_cons.mp member with rfl | late
          · exact ⟨List.mem_cons_self, new⟩
          · obtain ⟨listed, unseen⟩ := among token late
            exact ⟨List.mem_cons_of_mem _ listed,
              fun member => unseen (List.mem_cons_of_mem _ member)⟩
        · rw [List.map_cons, List.nodup_cons]
          refine ⟨?_, distinct⟩
          intro repeated
          obtain ⟨token, late, same⟩ := List.mem_map.mp repeated
          exact (among token late).2 (same ▸ List.mem_cons_self)
        · simp only [List.length_cons] at few ⊢
          omega

theorem distinctTokens_eq_nil {matched : List Text}
    (each : ∀ token ∈ matched, TokenOf errorLog token) :
    u.distinctTokens matched [] = [] ↔ matched = [] := by
  cases matched with
  | nil => simp [distinctTokens]
  | cons found rest =>
    have of := each found List.mem_cons_self
    simp [distinctTokens, of.trim_eq, of.nonempty]

end Unicode

section Text

variable (u : Unicode) (isPunct : Char → Bool) (issueTitle issueDescription errorLog : Bytes)

def queryHead : Bytes :=
  join space (trimBytes issueTitle :: (wordsOf isPunct issueDescription).take 24)

def tokensTail (tokens : List Text) : Bytes := tokens.flatMap fun token => space :: encode token

def queryTokens : List Text :=
  u.distinctTokens (findAll word stackTokenPattern (decode errorLog)) []

def queryGap : Bytes := if trimBytes issueDescription ≠ [] ∧
    wordsOf isPunct issueDescription = [] then [space] else []

variable {isPunct issueTitle issueDescription errorLog}

theorem wordsOf_trimBytes :
    wordsOf isPunct (trimBytes issueDescription) = wordsOf isPunct issueDescription := by
  obtain ⟨front, back, shape, fronts, backs⟩ :=
    trim_spec (fun rune : Rune => isSpace rune.value) (decode issueDescription)
  unfold wordsOf
  rw [decode_trimBytes]
  nth_rewrite 2 [shape]
  rw [fields_append_right, fields_append_left]
  · intro rune member
    simp [fronts rune member]
  · intro rune member
    simp [backs rune member]

theorem wordsOf_eq_nil_of_blank (blank : trimBytes issueDescription = []) :
    wordsOf isPunct issueDescription = [] := by
  rw [← wordsOf_trimBytes, blank]
  rfl

theorem queryText_eq : join space (u.queryParts isPunct issueTitle issueDescription errorLog) =
    queryHead isPunct issueTitle issueDescription ++ (queryGap isPunct issueDescription ++
      tokensTail (queryTokens u errorLog)) := by
  have parts : u.queryParts isPunct issueTitle issueDescription errorLog = trimBytes issueTitle ::
      ((if trimBytes issueDescription ≠
        [] then [join space ((wordsOf isPunct issueDescription).take 24)] else []) ++
        (queryTokens u errorLog).map encode) := by
    simp only [Unicode.queryParts, boundedWords, wordsOf_trimBytes, queryTokens, List.nil_append,
      List.cons_append]
  rw [parts, join_cons, List.flatMap_append, queryHead, join_cons, List.append_assoc, tokensTail,
    List.flatMap_map, queryGap]
  congr 1
  rw [← List.append_assoc]
  congr 1
  by_cases blank : trimBytes issueDescription = []
  · simp [blank, wordsOf_eq_nil_of_blank blank]
  · cases words : wordsOf isPunct issueDescription with
    | nil => simp [blank]
    | cons first rest => simp [blank, join_cons]

theorem flatText_eq (title : Bytes) (words : List Bytes) (tokens : List Text) :
    join space (title :: words ++ tokens.map encode) = join space (title :: words) ++
      tokensTail tokens := by
  rw [List.cons_append, join_cons, join_cons, List.flatMap_append, List.append_assoc, tokensTail,
    List.flatMap_map]

theorem buildQuery_eq : u.buildQuery isPunct issueTitle issueDescription errorLog =
    trimBytes ((queryHead isPunct issueTitle issueDescription ++
      (queryGap isPunct issueDescription ++
      tokensTail (queryTokens u errorLog))).take 2048) := by
  rw [← queryText_eq]
  unfold Unicode.buildQuery
  dsimp only
  split
  · rfl
  · rw [List.take_of_length_le (by omega)]

theorem queryTokens_of (member : token ∈ queryTokens u errorLog) : TokenOf errorLog token := by
  have spec := u.distinctTokens_spec (findAll word stackTokenPattern (decode errorLog)) []
    (fun token found => tokenOf_found found) (by decide)
  exact tokenOf_found (spec.1 token member).1

theorem tail_ascii :
    ∀ byte ∈ queryGap isPunct issueDescription ++ tokensTail (queryTokens u errorLog),
    byte.toNat < 128 := by
  intro byte member
  rcases List.mem_append.mp member with gap | tail
  · unfold queryGap at gap
    split at gap
    · rw [List.mem_singleton.mp gap]
      decide
    · cases gap
  · obtain ⟨token, among, inside⟩ := List.mem_flatMap.mp tail
    rcases List.mem_cons.mp inside with rfl | inside
    · decide
    · exact (queryTokens_of u among).ascii byte inside

theorem valid_join {parts : List Bytes} (each : ∀ part ∈ parts, Valid part) :
    Valid (join space parts) := by
  cases parts with
  | nil => exact ⟨[], rfl⟩
  | cons first rest =>
    rw [join_cons]
    apply valid_append (each first List.mem_cons_self)
    have others := fun part member => each part (List.mem_cons_of_mem first member)
    clear each
    induction rest with
    | nil => exact ⟨[], rfl⟩
    | cons second rest ih =>
      rw [List.flatMap_cons]
      apply valid_append
      · exact @valid_append [space] second (valid_of_ascii (by simp [space]))
          (others second List.mem_cons_self)
      · exact ih fun part member => others part (List.mem_cons_of_mem second member)

theorem wordsOf_valid (valid : Valid issueDescription)
    (member : part ∈ wordsOf isPunct issueDescription) :
    Valid part := by
  obtain ⟨text, field, rfl⟩ := List.mem_map.mp member
  have within := splitOnP_subset (List.mem_filter.mp field).1
  refine ⟨text.map Rune.value, ?_⟩
  rw [List.map_map, List.map_congr_left (g := id), List.map_id]
  intro rune inside
  obtain ⟨c, rfl⟩ := valid_iff.mp valid rune (within inside)
  rfl

theorem queryHead_valid (title : Valid issueTitle) (description : Valid issueDescription) :
    Valid (queryHead isPunct issueTitle issueDescription) := by
  apply valid_join
  intro part member
  rcases List.mem_cons.mp member with rfl | later
  · exact trimBytes_valid_iff.mpr title
  · exact wordsOf_valid description (List.mem_of_mem_take later)

end Text

def CutsCharacter (limit : Nat) (text : Bytes) : Prop := Across limit ((decode text).map Rune.value)

theorem valid_take_iff_cuts {text : Bytes} (valid : Valid text) (limit : Nat) :
    Valid (text.take limit) ↔ ¬ CutsCharacter limit text := by
  obtain ⟨cs, rfl⟩ := valid
  rw [valid_take_iff, CutsCharacter, decode_encode, map_value_char]

structure BoundedText (u : Unicode) (isPunct : Char → Bool)
    (issueTitle issueDescription errorLog query : Bytes) :
    Prop where
  valid : Valid query
  short : query.length ≤ 2048
  noLeading : ∀ rune ∈ (decode query).head?, isSpace rune.value = false
  noTrailing : ∀ rune ∈ (decode query).getLast?, isSpace rune.value = false
  parts : ∃ (words : List Bytes) (tokens : List Text) (part : Bytes),
    words <+: wordsOf isPunct issueDescription ∧ words.length ≤ 24 ∧
    (∀ token ∈ tokens, token ∈ findAll word stackTokenPattern (decode errorLog) ∧
      encode token <:+: errorLog) ∧
      (tokens.map u.key).Nodup ∧ tokens.length ≤ 32 ∧
        part <+: join space (trimBytes issueTitle :: words ++ tokens.map encode) ∧
          query = trimBytes part

section Bounded

variable {u : Unicode} {isPunct : Char → Bool} {issueTitle issueDescription errorLog : Bytes}

theorem buildQuery_valid_iff (title : Valid issueTitle) (description : Valid issueDescription) :
    Valid (u.buildQuery isPunct issueTitle issueDescription errorLog) ↔
      ¬ CutsCharacter 2048 (queryHead isPunct issueTitle issueDescription) := by
  have head := @queryHead_valid isPunct _ _ title description
  rw [buildQuery_eq, trimBytes_valid_iff, valid_take_append_ascii head (tail_ascii u),
    valid_take_iff_cuts head]

theorem buildQuery_parts_of
    (starts : part <+: queryHead isPunct issueTitle issueDescription ++
      tokensTail (queryTokens u errorLog))
    (same : u.buildQuery isPunct issueTitle issueDescription errorLog = trimBytes part)
    (valid : Valid (u.buildQuery isPunct issueTitle issueDescription errorLog)) :
    BoundedText u isPunct issueTitle issueDescription errorLog
      (u.buildQuery isPunct issueTitle issueDescription errorLog) where
  valid := valid
  short := by
    rw [buildQuery_eq]
    exact (length_trimBytes_le _).trans (List.length_take_le _ _)
  noLeading := by
    rw [buildQuery_eq]
    exact fun rune head => trimBytes_head head
  noTrailing := by
    rw [buildQuery_eq]
    exact fun rune last => trimBytes_last last
  parts := by
    obtain ⟨-, distinct, few⟩ :=
      u.distinctTokens_spec (findAll word stackTokenPattern (decode errorLog)) []
      (fun token found => tokenOf_found found) (by decide)
    refine ⟨(wordsOf isPunct issueDescription).take 24, queryTokens u errorLog, part,
      List.take_prefix _ _,
      List.length_take_le _ _, ?_, distinct, few, ?_, same⟩
    · intro token member
      have of := queryTokens_of u member
      exact ⟨of.found, of.occurs⟩
    · rw [flatText_eq]
      exact starts

theorem buildQuery_of_no_gap (none_ : queryGap isPunct issueDescription = []) :
    ∃ part, part <+: queryHead isPunct issueTitle issueDescription ++
      tokensTail (queryTokens u errorLog) ∧
      u.buildQuery isPunct issueTitle issueDescription errorLog = trimBytes part := by
  refine ⟨_, List.take_prefix 2048 _, ?_⟩
  rw [buildQuery_eq, none_, List.nil_append]

theorem take_spaces {tokens : List Text} {room : Nat} (few : tokens = [] ∨ room ≤ 2) :
    ∃ n, (space :: tokensTail tokens).take room = List.replicate n 32 := by
  cases tokens with
  | nil =>
    cases room with
    | zero => exact ⟨0, rfl⟩
    | succ room => exact ⟨1, by simp [tokensTail, space]⟩
  | cons token tokens =>
    refine ⟨room, ?_⟩
    have small : room ≤ 2 := few.resolve_left (List.cons_ne_nil _ _)
    interval_cases room <;> simp [tokensTail, space]

theorem buildQuery_of_hidden_gap (wordless : wordsOf isPunct issueDescription = [])
    (gap : queryGap isPunct issueDescription = [space])
    (hidden : trimBytes issueTitle = [] ∨ queryTokens u errorLog = [] ∨
      2046 ≤ (trimBytes issueTitle).length) :
    ∃ part, part <+: queryHead isPunct issueTitle issueDescription ++
      tokensTail (queryTokens u errorLog) ∧
      u.buildQuery isPunct issueTitle issueDescription errorLog = trimBytes part := by
  have head : queryHead isPunct issueTitle issueDescription = trimBytes issueTitle := by
    simp [queryHead, wordless]
  rw [buildQuery_eq, gap, head, List.singleton_append]
  rcases hidden with empty | few
  · refine ⟨(tokensTail (queryTokens u errorLog)).take 2047, ?_, ?_⟩
    · rw [empty, List.nil_append]
      exact List.take_prefix _ _
    · rw [empty, List.nil_append, List.take_succ_cons]
      exact trimBytes_space_cons _
  · refine ⟨(trimBytes issueTitle).take 2048, ?_, ?_⟩
    · exact (List.take_prefix _ _).trans (List.prefix_append _ _)
    · obtain ⟨n, spaces⟩ :=
        @take_spaces (queryTokens u errorLog) (2048 - (trimBytes issueTitle).length)
        (few.imp_right fun long => by omega)
      rw [List.take_append, spaces, trimBytes_append_spaces]

theorem queryTokens_eq_nil :
    queryTokens u errorLog = [] ↔ findAll word stackTokenPattern (decode errorLog) = [] :=
  u.distinctTokens_eq_nil fun _ found => tokenOf_found found

theorem TokenOf.head (of : TokenOf errorLog token) :
    ∃ c rest, inToken c = true ∧ encode token = String.utf8EncodeChar c ++ rest := by
  cases token with
  | nil => exact absurd rfl of.nonempty
  | cons rune token =>
    have plain := of.plain rune List.mem_cons_self
    cases rune with
    | char c => exact ⟨c, encode token, plain, encode_cons _ _⟩
    | bad byte => exact absurd plain (by exact (by decide : ¬ inToken '\ufffd' = true))

theorem utf8EncodeChar_of_inToken (inside : inToken c = true) :
    ∃ byte, String.utf8EncodeChar c = [byte] ∧ byte ≠ 32 := by
  obtain ⟨ascii, visible⟩ := inToken_plain inside
  obtain ⟨byte, single, number⟩ := utf8EncodeChar_ascii ascii
  refine ⟨byte, single, ?_⟩
  rintro rfl
  have blank : c = ' ' := Char.toNat_inj.mp number.symm
  rw [blank] at visible
  exact absurd visible (by decide)

theorem initial_trimBytes_gap {title : Bytes} (some_ : trimBytes title ≠ [])
    (inside : inToken c = true) (rest : Bytes) :
    trimBytes title ++ 32 :: 32 :: String.utf8EncodeChar c <+:
      trimBytes (trimBytes title ++ 32 :: 32 :: (String.utf8EncodeChar c ++ rest)) := by
  have decoded : decode (trimBytes title ++ 32 :: 32 :: (String.utf8EncodeChar c ++ rest)) =
      (decode (trimBytes title) ++ [.char ' ', .char ' ', .char c]) ++ decode rest := by
    rw [decode_append_space, decode_space_cons, decode_char_append]
    simp
  obtain ⟨rune, text, shape⟩ : ∃ rune text, decode (trimBytes title) = rune :: text := by
    apply List.exists_cons_of_ne_nil
    intro empty
    have same := encode_decode (trimBytes title)
    rw [empty] at same
    exact some_ same.symm
  have kept := @initial_trim Rune (fun rune => isSpace rune.value)
    (decode (trimBytes title) ++ [.char ' ', .char ' ', .char c]) rune (.char c) (by simp [shape])
    (by simp)
    (trimBytes_head (by rw [shape]; rfl)) (inToken_plain inside).2 (decode rest)
  have bytes := encode_initial kept
  have marks : encode [.char ' ', .char ' ', .char c] = 32 :: 32 :: String.utf8EncodeChar c := by
    simp only [encode, List.flatMap_cons, List.flatMap_nil, Rune.bytes, List.append_nil]
    rfl
  rw [← decoded, encode_append, encode_decode, marks] at bytes
  exact bytes

theorem trimBytes_initial {title rest : Bytes} (valid : Valid title) (some_ : trimBytes title ≠ [])
    (starts : part <+: trimBytes title ++ rest) : trimBytes part <+: part := by
  obtain ⟨front, back, shape, fronts, -⟩ :=
    trim_spec (fun rune : Rune => isSpace rune.value) (decode part)
  suffices empty : front = [] by
    rw [empty, List.nil_append] at shape
    have same := congrArg encode shape
    rw [encode_decode, encode_append] at same
    exact ⟨encode back, same.symm⟩
  cases front with
  | nil => rfl
  | cons rune front =>
    have blank := fronts rune List.mem_cons_self
    obtain ⟨cs, title_eq⟩ := trimBytes_valid_iff.mpr valid
    cases cs with
    | nil => exact absurd title_eq some_
    | cons e cs =>
      -- the title starts with a character that is no space, and so does the part
      have visible : isSpace e = false :=
        @trimBytes_head title (.char e) (by rw [title_eq, decode_encode]; rfl)
      have part_eq := (decode_eq_cons (by rw [shape]; rfl : decode part = rune :: _)).1
      obtain ⟨more, whole⟩ := starts
      cases rune with
      | bad byte => exact absurd blank (by exact (by decide : ¬ isSpace '\ufffd' = true))
      | char d =>
        rw [part_eq, title_eq, List.map_cons, encode_cons, Rune.bytes, Rune.bytes,
          List.append_assoc, List.append_assoc] at whole
        have decoded := congrArg decode whole
        rw [decode_char_append, decode_char_append, List.cons.injEq, Rune.char.injEq] at decoded
        rw [← decoded.1] at visible
        exact absurd (visible.symm.trans blank) Bool.false_ne_true

theorem buildQuery_gap_shows (gap : queryGap isPunct issueDescription = [space])
    (wordless : wordsOf isPunct issueDescription = []) (titled : trimBytes issueTitle ≠ [])
    (short : (trimBytes issueTitle).length < 2046) (found : queryTokens u errorLog ≠ []) :
    ∃ c, inToken c = true ∧ trimBytes issueTitle ++ 32 :: 32 :: String.utf8EncodeChar c <+:
      u.buildQuery isPunct issueTitle issueDescription errorLog := by
  obtain ⟨token, tokens, shape⟩ := List.exists_cons_of_ne_nil found
  have of : TokenOf errorLog token := queryTokens_of u (by rw [shape]; exact List.mem_cons_self)
  obtain ⟨c, rest, inside, bytes⟩ := of.head
  obtain ⟨byte, single, -⟩ := utf8EncodeChar_of_inToken inside
  refine ⟨c, inside, ?_⟩
  have head : queryHead isPunct issueTitle issueDescription = trimBytes issueTitle := by
    simp [queryHead, wordless]
  have text : (trimBytes issueTitle ++ ([space] ++ tokensTail (token :: tokens))).take 2048 =
      trimBytes issueTitle ++ 32 :: 32 :: (String.utf8EncodeChar c ++
        (rest ++ tokensTail tokens).take (2045 - (trimBytes issueTitle).length)) := by
    rw [tokensTail, List.flatMap_cons, bytes, single, ← tokensTail, List.take_append,
      List.take_of_length_le (by omega)]
    obtain ⟨room, enough⟩ : ∃ room, 2048 - (trimBytes issueTitle).length = room + 3 :=
      ⟨2045 - (trimBytes issueTitle).length, by omega⟩
    have same : 2045 - (trimBytes issueTitle).length = room := by omega
    rw [enough, same]
    simp [space]
  rw [buildQuery_eq, head, gap, shape, text]
  exact initial_trimBytes_gap titled inside _

theorem not_gap_initial {title : Bytes} {tokens : List Text}
    (each : ∀ token ∈ tokens, TokenOf errorLog token)
    (starts : title ++ 32 :: 32 :: String.utf8EncodeChar c <+: part)
    (within : part <+: title ++ tokensTail tokens) : False := by
  have tail := List.prefix_append_right_inj title |>.mp (starts.trans within)
  cases tokens with
  | nil => simp [tokensTail] at tail
  | cons token tokens =>
    obtain ⟨first, rest, inside, bytes⟩ := (each token List.mem_cons_self).head
    obtain ⟨byte, single, other⟩ := utf8EncodeChar_of_inToken inside
    rw [tokensTail, List.flatMap_cons, bytes, single] at tail
    simp only [space, List.cons_append, List.cons_prefix_cons] at tail
    exact other tail.2.1.symm

/-- The query is bounded text exactly when the cut falls between two characters, and a description
without words leaves no gap between the title and the tokens. -/
theorem buildQuery_boundedText_iff (u : Unicode) (isPunct : Char → Bool)
    (issueTitle issueDescription errorLog : Bytes)
    (title : Valid issueTitle) (description : Valid issueDescription) :
    BoundedText u isPunct issueTitle issueDescription errorLog
        (u.buildQuery isPunct issueTitle issueDescription errorLog) ↔
      ¬ CutsCharacter 2048 (join space (trimBytes issueTitle ::
        (wordsOf isPunct issueDescription).take 24)) ∧
        (trimBytes issueDescription = [] ∨ wordsOf isPunct issueDescription ≠ [] ∨
          trimBytes issueTitle = [] ∨
          findAll word stackTokenPattern (decode errorLog) = [] ∨
            2046 ≤ (trimBytes issueTitle).length) := by
  rw [← @queryTokens_eq_nil u errorLog]
  have valid_iff := @buildQuery_valid_iff u isPunct _ _ errorLog title description
  constructor
  · intro bounded
    refine ⟨valid_iff.mp bounded.valid, ?_⟩
    by_contra visible
    simp only [not_or, not_not, not_le] at visible
    obtain ⟨described, wordless, titled, found, short⟩ := visible
    have gap : queryGap isPunct issueDescription = [space] := if_pos ⟨described, wordless⟩
    obtain ⟨c, inside, starts⟩ := buildQuery_gap_shows gap wordless titled short found
    obtain ⟨words, tokens, part, some_words, -, each, -, -, within, same⟩ := bounded.parts
    rw [wordless, List.prefix_nil] at some_words
    rw [flatText_eq, some_words, join_singleton] at within
    rw [same] at starts
    exact not_gap_initial (fun token member => tokenOf_found (each token member).1) starts
      ((trimBytes_initial title titled within).trans within)
  · rintro ⟨whole, hidden⟩
    have valid := valid_iff.mpr whole
    by_cases gap : trimBytes issueDescription ≠ [] ∧ wordsOf isPunct issueDescription = []
    · have rest : trimBytes issueTitle = [] ∨ queryTokens u errorLog = [] ∨
        2046 ≤ (trimBytes issueTitle).length := by
        rcases hidden with blank | words | rest
        · exact absurd blank gap.1
        · exact absurd gap.2 words
        · exact rest
      obtain ⟨part, starts, same⟩ := buildQuery_of_hidden_gap gap.2 (if_pos gap) rest
      exact buildQuery_parts_of starts same valid
    · obtain ⟨part, starts, same⟩ := buildQuery_of_no_gap (if_neg gap)
      exact buildQuery_parts_of starts same valid

end Bounded

/-- Short texts, with a word in the description. -/
theorem buildQuery_boundedText_iff_short :
    BoundedText .ascii (fun _ => false) (ofString "slow") (ofString " on start ")
      (ofString "panic: nil")
      (Unicode.ascii.buildQuery (fun _ => false) (ofString "slow") (ofString " on start ")
        (ofString "panic: nil")) := by
  apply (buildQuery_boundedText_iff .ascii (fun _ => false) _ _ _ ⟨_, rfl⟩ ⟨_, rfl⟩).mpr
  constructor
  · apply not_across_of_short
    decide +kernel
  · exact .inr (.inl (by decide +kernel))

theorem length_encode_replicate (n : Nat) :
    (encode ((List.replicate n 'a').map .char)).length = n := by
  induction n with
  | zero => rfl
  | succ n ih =>
    rw [List.replicate_succ, List.map_cons, encode_cons, List.length_append, ih]
    exact Nat.add_comm 1 n

/-- The last character of a title of 2049 bytes is cut in two. -/
theorem buildQuery_cuts_character :
    ¬ BoundedText .ascii (fun _ => false) (encode ((List.replicate 2047 'a' ++ ['é']).map .char))
      [] []
      (Unicode.ascii.buildQuery (fun _ => false)
        (encode ((List.replicate 2047 'a' ++ ['é']).map .char)) [] []) := by
  intro bounded
  apply (buildQuery_valid_iff ⟨_, rfl⟩ ⟨[], rfl⟩).mp bounded.valid
  have trimmed : trimBytes (encode ((List.replicate 2047 'a' ++ ['é']).map .char)) =
      encode ((List.replicate 2047 'a' ++ ['é']).map .char) := by
    rw [trimBytes, decode_encode, trim_eq_self]
    intro rune member
    simp only [List.map_append, List.map_replicate, List.mem_append, List.mem_replicate] at member
    rcases member with ⟨-, rfl⟩ | last
    · decide
    · rw [List.mem_singleton.mp last]
      decide
  rw [queryHead, trimmed, wordsOf_eq_nil_of_blank rfl, List.take_nil, join_singleton, CutsCharacter,
    decode_encode, map_value_char]
  have first := length_encode_replicate 2047
  refine ⟨List.replicate 2047 'a', 'é', [], rfl, by omega, ?_⟩
  rw [List.map_append, encode_append, List.length_append, first]
  decide

example : Unicode.ascii.buildQuery (· == '.') (ofString "slow") (ofString "...")
    (ofString "panic: nil") =
    ofString "slow  panic nil" := by decide +kernel

end Retrieval

end RepoLens
