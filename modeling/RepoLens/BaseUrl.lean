import RepoLens.Lib.Url
import RepoLens.Lib.Utf8

/-!
`NormalizeBaseURL` of `internal/provider`: the base URL is parsed and put together again from its
parts, with the escapes undone.
-/

namespace RepoLens

open Utf8 Url

namespace BaseUrl

def trimSuffix (host port : Url.Bytes) : Url.Bytes :=
  if port.isSuffixOf host then host.take (host.length - port.length) else host

def withoutDefaultPort (scheme host : Url.Bytes) : Url.Bytes :=
  let host := if scheme = bytes "http" then trimSuffix host (bytes ":80") else host
  if scheme = bytes "https" then trimSuffix host (bytes ":443") else host

def trimRight (sep : UInt8) (path : Url.Bytes) : Url.Bytes :=
  (path.reverse.dropWhile (· == sep)).reverse

/-- `table` is behind `strings.ToLower` and `quote` behind `%q`. -/
def normalizeBaseURL (table : LowerCase) (quote : Url.Bytes → String) (raw : Url.Bytes) :
    Except String Url.Bytes :=
  let trimmed := trimBytes raw
  if trimmed = [] then .error "base_url cannot be empty"
  else
    match Url.parse trimmed with
    | .error err => .error ("invalid URL format: " ++ Url.errorText quote trimmed err)
    | .ok u =>
      if u.scheme ≠ bytes "http" ∧ u.scheme ≠ bytes "https" then
        .error ("invalid scheme: " ++ String.ofList (u.scheme.map (Char.ofNat ·.toNat)) ++
          " (must be http or https)")
      else if u.rawQuery ≠ [] ∨ u.fragment ≠ [] then
        .error "base_url must not contain query parameters or fragments"
      else
        let scheme := table.lower u.scheme
        let host := withoutDefaultPort scheme (table.lower u.host)
        let path := trimRight (byte '/') u.path
        .ok (scheme ++ bytes "://" ++ (host ++ path))

namespace LowerCase
variable {b : UInt8} {text host : Url.Bytes} {table : LowerCase}

theorem lower_eq_self {cs : List Char} (fixed : ∀ c ∈ cs, table.toLower c = c) :
    table.lower (encode (cs.map .char)) = encode (cs.map .char) := by
  rw [LowerCase.lower, decode_encode, List.map_map]
  congr 1
  apply List.map_congr_left
  intro c member
  simp [Rune.value, fixed c member]

theorem lower_chars (text : Url.Bytes) :
    ∃ cs : List Char, table.lower text = encode (cs.map .char) ∧
    ∀ c ∈ cs, table.toLower c = c := by
  refine ⟨(decode text).map fun rune => table.toLower rune.value, ?_, ?_⟩
  · rw [LowerCase.lower, List.map_map]
    rfl
  · intro c member
    obtain ⟨rune, -, rfl⟩ := List.mem_map.mp member
    exact table.toLower_idem _

def IsMark (b : UInt8) : Prop := b.toNat < 128 ∧ isAlpha b = false

theorem toLower_eq_mark_iff {c : Char} (mark : IsMark b) :
    (table.toLower c).toNat = b.toNat ↔ c.toNat = b.toNat := by
  obtain ⟨low, noLetter⟩ := mark
  have other : ¬ ((97 ≤ b.toNat ∧ b.toNat ≤ 122) ∨ (65 ≤ b.toNat ∧ b.toNat ≤ 90)) := by
    rw [← isAlpha_iff, noLetter]
    simp
  have lowerRange {d : Char} (isLower : d.isLower = true) : 97 ≤ d.toNat ∧ d.toNat ≤ 122 := by
    simpa [Char.isLower, UInt32.le_iff_toNat_le] using isLower
  by_cases ascii : c.toNat < 128
  · rw [table.toLower_ascii c ascii]
    by_cases upper : c.isUpper = true
    · have range : 65 ≤ c.toNat ∧ c.toNat ≤ 90 := by
        simpa [Char.isUpper, UInt32.le_iff_toNat_le] using upper
      have mapped :=
          lowerRange (d := c.toLower)
          (by rw [Char.isLower_toLower_eq_isAlpha]; simp [Char.isAlpha, upper])
      omega
    · rw [Char.toLower_eq_of_not_isUpper upper]
  · constructor
    · intro same
      have range := lowerRange (table.toLower_letter c (by omega) (by omega))
      omega
    · intro same
      omega

theorem count_lower (mark : IsMark b) (text : Url.Bytes) :
    (table.lower text).count b = text.count b := by
  have runes (part : Text) (within : part ⊆ decode text) :
      (encode (part.map fun rune => .char (table.toLower rune.value))).count b =
        (encode part).count b := by
    induction part with
    | nil => rfl
    | cons rune part ih =>
      have own : ((Rune.char (table.toLower rune.value)).bytes).count b = rune.bytes.count b := by
        rw [Rune.bytes, count_utf8EncodeChar_ascii mark.1,
          if_congr (toLower_eq_mark_iff mark) rfl rfl]
        cases rune with
        | char c => rw [Rune.bytes, count_utf8EncodeChar_ascii mark.1, Rune.value]
        | bad byte =>
          have high := high_of_bad (within List.mem_cons_self)
          have low := mark.1
          have other : byte ≠ b := by
            rintro rfl
            omega
          rw [Rune.bytes, List.count_singleton, Rune.value, if_neg, if_neg (by simpa using other)]
          have replaced : '\ufffd'.toNat = 65533 := rfl
          omega
      rw [List.map_cons, encode_cons, encode_cons, List.count_append, List.count_append, own,
        ih fun rune member => within (List.mem_cons_of_mem _ member)]
  have whole := runes (decode text) (List.Subset.refl _)
  rwa [encode_decode] at whole

theorem mem_lower (member : b ∈ table.lower text) :
    128 ≤ b.toNat ∨ isAlpha b = true ∨ b ∈ text := by
  by_cases mark : IsMark b
  · right
    right
    rw [← List.count_pos_iff, count_lower mark, List.count_pos_iff] at member
    exact member
  · rw [IsMark, not_and, Bool.not_eq_false] at mark
    by_cases low : b.toNat < 128
    · exact .inr (.inl (mark low))
    · exact .inl (by omega)

theorem mem_lower_mark (mark : IsMark b) : b ∈ table.lower text ↔ b ∈ text := by
  rw [← List.count_pos_iff, count_lower mark, List.count_pos_iff]

theorem weight_lower (text : Url.Bytes) : weight (table.lower text) = weight text := by
  rw [weight_eq, weight_eq, count_lower ⟨by decide, by decide⟩, count_lower ⟨by decide, by decide⟩]

end LowerCase

theorem trimSuffix_spec (host port : Url.Bytes) :
    host = trimSuffix host port ∨ host = trimSuffix host port ++ port := by
  unfold trimSuffix
  split
  · rename_i ends
    obtain ⟨front, rfl⟩ := List.isSuffixOf_iff_suffix.mp ends
    right
    simp
  · exact .inl rfl

theorem withoutDefaultPort_spec (scheme host : Url.Bytes) :
    ∃ port, host = withoutDefaultPort scheme host ++ port ∧
    (port = [] ∨ port = bytes ":80" ∨ port = bytes ":443") := by
  unfold withoutDefaultPort
  by_cases http : scheme = bytes "http"
  · rw [if_pos http, if_neg (by rw [http]; decide)]
    rcases trimSuffix_spec host (bytes ":80") with same | same
    · exact ⟨[], by rw [List.append_nil]; exact same, .inl rfl⟩
    · exact ⟨_, same, .inr (.inl rfl)⟩
  · rw [if_neg http]
    split
    · rcases trimSuffix_spec host (bytes ":443") with same | same
      · exact ⟨[], by rw [List.append_nil]; exact same, .inl rfl⟩
      · exact ⟨_, same, .inr (.inr rfl)⟩
    · exact ⟨[], (List.append_nil host).symm, .inl rfl⟩

theorem withoutDefaultPort_initial (scheme host : Url.Bytes) :
    withoutDefaultPort scheme host <+: host := by
  obtain ⟨port, shape, -⟩ := withoutDefaultPort_spec scheme host
  exact ⟨port, shape.symm⟩

theorem mem_percent_withoutDefaultPort {scheme : Url.Bytes} :
    byte '%' ∈ withoutDefaultPort scheme host ↔ byte '%' ∈ host := by
  obtain ⟨port, shape, which⟩ := withoutDefaultPort_spec scheme host
  have none_ : byte '%' ∉ port := by
    rcases which with rfl | rfl | rfl <;> decide
  nth_rewrite 2 [shape]
  simp [none_]

theorem trimRight_initial (sep : UInt8) (path : Url.Bytes) : trimRight sep path <+: path := by
  rw [← List.reverse_suffix, trimRight, List.reverse_reverse]
  exact List.dropWhile_suffix _

theorem trimRight_idem (sep : UInt8) (path : Url.Bytes) :
    trimRight sep (trimRight sep path) = trimRight sep path := by
  rw [trimRight, trimRight, List.reverse_reverse, List.dropWhile_idempotent]

theorem trimRight_rooted {sep : UInt8} {path : Url.Bytes}
    (rooted : path = [] ∨ path.head? = some sep) :
    trimRight sep path = [] ∨ (trimRight sep path).head? = some sep := by
  obtain ⟨rest, shape⟩ := trimRight_initial sep path
  cases trimmed : trimRight sep path with
  | nil => exact .inl rfl
  | cons b front =>
    rw [trimmed] at shape
    right
    rcases rooted with empty | head
    · rw [empty] at shape
      cases shape
    · rw [← shape] at head
      exact head

def IsWeb (scheme : Url.Bytes) : Prop := scheme = bytes "http" ∨ scheme = bytes "https"

section Web

variable {table : LowerCase} {quote : Url.Bytes → String} {scheme : Url.Bytes}

theorem IsWeb.letters (web : IsWeb scheme) : ∀ b ∈ scheme, isAlpha b = true := by
  rw [← List.all_eq_true]
  rcases web with rfl | rfl <;> decide

theorem IsWeb.ne_nil (web : IsWeb scheme) : scheme ≠ [] := by
  rcases web with rfl | rfl <;> decide

theorem IsWeb.map_toLowerByte (web : IsWeb scheme) : scheme.map toLowerByte = scheme := by
  rcases web with rfl | rfl <;> decide

theorem IsWeb.lower (web : IsWeb scheme) : table.lower scheme = scheme := by
  have fixed {cs : List Char} (plain : cs.all (fun c => decide (c.toNat < 128) && c.toLower == c) =
    true) :
      table.lower (encode (cs.map .char)) = encode (cs.map .char) := by
    apply LowerCase.lower_eq_self
    intro c member
    simp only [List.all_eq_true, Bool.and_eq_true, decide_eq_true_eq, beq_iff_eq] at plain
    rw [table.toLower_ascii c (plain c member).1, (plain c member).2]
  rcases web with rfl | rfl
  · exact @fixed "http".toList (by decide)
  · exact @fixed "https".toList (by decide)

theorem normalizeBaseURL_ok_iff {raw n : Url.Bytes} : normalizeBaseURL table quote raw = .ok n ↔
    ∃ url, trimBytes raw ≠ [] ∧ Url.parse (trimBytes raw) = .ok url ∧ IsWeb url.scheme ∧
      url.rawQuery = [] ∧
      url.fragment = [] ∧ n = url.scheme ++ bytes "://" ++
        (withoutDefaultPort url.scheme (table.lower url.host) ++
          trimRight (byte '/') url.path) := by
  unfold normalizeBaseURL
  dsimp only
  split
  · rename_i empty
    simp [empty]
  · rename_i some_
    cases parsed : Url.parse (trimBytes raw) with
    | error err => simp
    | ok url =>
      simp only [Except.ok.injEq, exists_eq_left', some_, ne_eq, not_false_eq_true, true_and]
      by_cases web : IsWeb url.scheme
      · rw [if_neg (by rw [not_and_or, not_not, not_not]; exact web)]
        by_cases plain : url.rawQuery = [] ∧ url.fragment = []
        · rw [if_neg (by simp [plain]), Except.ok.injEq, web.lower]
          simp [web, plain, eq_comm]
        · rw [if_pos (by rw [← not_and_or]; exact plain)]
          simp only [reduceCtorEq, false_iff]
          rintro ⟨-, query, fragment, -⟩
          exact plain ⟨query, fragment⟩
      · rw [if_pos (by rw [← not_or]; exact web)]
        simp [web]

theorem IsWeb.start (web : IsWeb scheme) :
    ∃ cs : List Char, scheme ++ bytes "://" = encode (('h' :: cs ++ ['/']).map .char) := by
  rcases web with rfl | rfl
  · exact ⟨"ttp:/".toList, by decide⟩
  · exact ⟨"ttps:/".toList, by decide⟩

theorem trimBytes_web (web : IsWeb scheme) (z : Url.Bytes) : ∃ x back, decode z = decode x ++ back ∧
    (∀ rune ∈ back, isSpace rune.value = true) ∧
      trimBytes (scheme ++ bytes "://" ++ z) = scheme ++ bytes "://" ++ x := by
  obtain ⟨cs, start⟩ := web.start
  let head : Text := ('h' :: cs ++ ['/']).map .char
  have ends : head = (.char 'h' :: cs.map .char) ++ [.char '/'] := by simp [head]
  have runes : decode (scheme ++ bytes "://" ++ z) = head ++ decode z := by
    rw [start, decode_encode_append]
  have kept : head <+: trim (fun rune => isSpace rune.value) (head ++ decode z) :=
    @initial_trim _ (fun rune : Rune => isSpace rune.value) head (.char 'h') (.char '/') rfl
      (by rw [ends, List.getLast?_concat]) (by decide) (by decide) (decode z)
  obtain ⟨middle, middleShape⟩ := kept
  obtain ⟨front, back, shape, fronts, backs⟩ :=
    trim_spec (fun rune : Rune => isSpace rune.value) (head ++ decode z)
  -- the first letter of the scheme is no white space
  have nothing : front = [] := by
    cases front with
    | nil => rfl
    | cons rune front =>
      exfalso
      have same := congrArg List.head? shape
      have first : rune = .char 'h' := by simpa [head, eq_comm] using same
      have space := fronts rune List.mem_cons_self
      rw [first] at space
      exact absurd space (by decide)
  rw [nothing, List.nil_append, ← middleShape, List.append_assoc,
    List.append_cancel_left_eq] at shape
  refine ⟨encode middle, back, ?_, backs, ?_⟩
  · rw [decode_encode_of_initial shape, shape]
  · rw [trimBytes, runes, ← middleShape, encode_append, start]

def keptHost (table : LowerCase) (url : URL) : Url.Bytes :=
  withoutDefaultPort url.scheme (table.lower url.host)

/-- URLs whose parts can be put together as they are: no escape was undone that is needed, and no
second port or white space comes to the end. -/
structure Stable (table : LowerCase) (url : URL) : Prop where
  hostPlain : byte '%' ∉ url.host
  pathPlain : ∀ b ∈ url.path, b ≠ byte '%' ∧ b ≠ byte '?' ∧ b ≠ byte '#' ∧ isControl b = false
  onePort : withoutDefaultPort url.scheme (keptHost table url) = keptHost table url
  port : portAccepted (keptHost table url) = .ok ()
  noSpace : ∀ rune ∈ (decode (keptHost table url ++ trimRight (byte '/') url.path)).getLast?,
    isSpace rune.value = false

def Fixed (table : LowerCase) (text : Url.Bytes) : Prop :=
  ∀ rune ∈ decode text, ∃ c, rune = .char c ∧ table.toLower c = c

theorem Fixed.lower (fixed : Fixed table text) : table.lower text = text := by
  rw [LowerCase.lower]
  have same : (decode text).map (fun rune => Rune.char (table.toLower rune.value)) =
      decode text := by
    nth_rewrite 2 [← List.map_id (decode text)]
    apply List.map_congr_left
    intro rune member
    obtain ⟨c, rfl, own⟩ := fixed rune member
    rw [Rune.value, own, id]
  rw [same, encode_decode]

theorem keptHost_fixed (url : URL) : Fixed table (keptHost table url) := by
  obtain ⟨cs, shape, fixed⟩ := @LowerCase.lower_chars table url.host
  obtain ⟨port, whole, which⟩ := withoutDefaultPort_spec url.scheme (table.lower url.host)
  have ascii : ∀ b ∈ port.head?, b.toNat < 128 := by
    rcases which with rfl | rfl | rfl
    · simp
    · intro b member
      cases member
      decide
    · intro b member
      cases member
      decide
  have runes : decode (table.lower url.host) = decode (keptHost table url) ++ decode port := by
    rw [keptHost, ← decode_append_of_head ascii, ← whole]
  rw [shape, decode_encode] at runes
  intro rune member
  have among : rune ∈ cs.map Rune.char := by
    rw [runes]
    exact List.mem_append_left _ member
  obtain ⟨c, inside, rfl⟩ := List.mem_map.mp among
  exact ⟨c, rfl, fixed c inside⟩

section Parts

variable {url : URL}

theorem keptHost_plain (host : ∃ raw, parseHost raw = .ok url.host) (none_ : byte '%' ∉ url.host) :
    ∀ b ∈ keptHost table url, Mode.host.plain b = true := by
  intro b member
  obtain ⟨raw, parsed⟩ := host
  have plain := parseHost_plain parsed none_
  rcases LowerCase.mem_lower ((withoutDefaultPort_initial _ _).subset member) with
    high | letter | inside
  · simp [Mode.plain, UInt8.le_iff_toNat_le, high]
  · simp [Mode.plain, isHostByte, letter]
  · exact plain b inside

theorem mem_percent_keptHost : byte '%' ∈ keptHost table url ↔ byte '%' ∈ url.host := by
  rw [keptHost, mem_percent_withoutDefaultPort, LowerCase.mem_lower_mark ⟨by decide, by decide⟩]

theorem mem_trimRight {sep b : UInt8} {path : Url.Bytes} (member : b ∈ path) :
    b ∈ trimRight sep path ∨ b = sep := by
  have parts :=
      congrArg List.reverse (List.takeWhile_append_dropWhile (p := (· == sep)) (l := path.reverse))
  rw [List.reverse_append, List.reverse_reverse] at parts
  rw [← parts, List.mem_append] at member
  rcases member with kept | taken
  · exact .inl kept
  · right
    simpa using List.mem_takeWhile_imp (List.mem_reverse.mp taken)

theorem plain_ne (plain : Mode.host.plain b = true) :
    b ≠ byte '#' ∧ b ≠ byte '?' ∧ b ≠ byte '/' ∧ b ≠ byte '@' ∧ isControl b = false := by
  revert plain
  apply forall_byte (P := fun b => Mode.host.plain b = true →
    b ≠ byte '#' ∧ b ≠ byte '?' ∧ b ≠ byte '/' ∧ b ≠ byte '@' ∧ isControl b = false)
  decide +kernel

theorem mark_of_control (control : isControl b = true) : LowerCase.IsMark b := by
  have all : isControl b = true → b.toNat < 128 ∧ isAlpha b = false := by
    apply forall_byte (P := fun b => isControl b = true → b.toNat < 128 ∧ isAlpha b = false)
    decide +kernel
  exact all control

end Parts

section Again

variable {url : URL}

theorem trimBytes_web_self (web : IsWeb scheme) {z : Url.Bytes}
    (noSpace : ∀ rune ∈ (decode z).getLast?, isSpace rune.value = false) :
    trimBytes (scheme ++ bytes "://" ++ z) = scheme ++ bytes "://" ++ z := by
  obtain ⟨x, back, shape, spaces, trimmed⟩ := trimBytes_web web z
  have nothing : back = [] := by
    by_contra some_
    have last : back.getLast some_ ∈ (decode z).getLast? := by
      rw [shape, List.getLast?_append_of_ne_nil _ some_, List.getLast?_eq_some_getLast some_]
      rfl
    have space := spaces _ (List.getLast_mem some_)
    rw [noSpace _ last] at space
    cases space
  rw [nothing, List.append_nil] at shape
  rw [trimmed, ← encode_decode x, ← shape, encode_decode]

theorem Stable.again (stable : Stable table url) (web : IsWeb url.scheme)
    (host : ∃ raw, parseHost raw = .ok url.host)
    (rooted : url.path = [] ∨ url.path.head? = some (byte '/')) :
    normalizeBaseURL table quote (url.scheme ++ bytes "://" ++
      (keptHost table url ++ trimRight (byte '/') url.path)) =
      .ok (url.scheme ++ bytes "://" ++ (keptHost table url ++ trimRight (byte '/') url.path)) := by
  have plain := @keptHost_plain table url host stable.hostPlain
  have pathPlain : ∀ b ∈ trimRight (byte '/') url.path, b ≠ byte '%' ∧ b ≠ byte '?' ∧ b ≠ byte '#' ∧
      isControl b = false :=
    fun b member => stable.pathPlain b ((trimRight_initial _ _).subset member)
  have hostPercent : byte '%' ∉ keptHost table url :=
    fun member => stable.hostPlain (mem_percent_keptHost.mp member)
  have noHash : byte '#' ∉ keptHost table url ++ trimRight (byte '/') url.path := by
    rw [List.mem_append, not_or]
    exact ⟨fun member => (plain_ne (plain _ member)).1 rfl,
      fun member => (pathPlain _ member).2.2.1 rfl⟩
  have noQuery : byte '?' ∉ keptHost table url ++ trimRight (byte '/') url.path := by
    rw [List.mem_append, not_or]
    exact ⟨fun member => (plain_ne (plain _ member)).2.1 rfl,
      fun member => (pathPlain _ member).2.1 rfl⟩
  have noControl : (keptHost table url ++ trimRight (byte '/') url.path).any isControl = false := by
    rw [List.any_eq_false]
    intro b member
    rcases List.mem_append.mp member with inHost | inPath
    · simp [(plain_ne (plain b inHost)).2.2.2.2]
    · simp [(pathPlain b inPath).2.2.2]
  have parsed := parse_self web.letters web.ne_nil noHash noQuery noControl
    (fun member => (plain_ne (plain _ member)).2.2.1 rfl)
    (fun member => (plain_ne (plain _ member)).2.2.2.1 rfl)
    (trimRight_rooted rooted) (parseHost_self stable.port hostPercent plain)
    (fun member => (pathPlain _ member).1 rfl)
  rw [web.map_toLowerByte] at parsed
  rw [normalizeBaseURL_ok_iff, trimBytes_web_self web stable.noSpace]
  refine ⟨_, ?_, parsed, web, rfl, rfl, ?_⟩
  · simp [web.ne_nil]
  · rw [(keptHost_fixed url).lower, stable.onePort, trimRight_idem]

theorem afterLast_sublist (sep : UInt8) (text : Url.Bytes) : (afterLast sep text).Sublist text := by
  rw [afterLast, ← List.reverse_sublist, List.reverse_reverse]
  exact List.takeWhile_sublist _

theorem weight_mono {first second : Url.Bytes} (within : first.Sublist second) :
    weight first ≤ weight second :=
  within.countP_le

theorem again_parts (web : IsWeb scheme) {z : Url.Bytes}
    (again : normalizeBaseURL table quote (scheme ++ bytes "://" ++ z) =
      .ok (scheme ++ bytes "://" ++ z)) :
    ∃ x back, decode z = decode x ++ back ∧
      trimBytes (scheme ++ bytes "://" ++ z) = scheme ++ bytes "://" ++ x ∧
      byte '%' ∉ z ∧ byte '#' ∉ z ∧ byte '?' ∉ z ∧ z.any isControl = false ∧
      (∃ out, parseHost (afterLast (byte '@') (x.takeWhile (· != byte '/'))) = .ok out) ∧
      z = withoutDefaultPort scheme
        (table.lower (afterLast (byte '@') (x.takeWhile (· != byte '/')))) ++
        trimRight (byte '/') (x.dropWhile (· != byte '/')) := by
  obtain ⟨x, back, shape, -, trimmed⟩ := trimBytes_web web z
  have initial : x <+: z := by
    rw [← encode_decode x, ← encode_decode z]
    exact encode_initial ⟨back, shape.symm⟩
  obtain ⟨second, -, parsed, -, -, noFragment, same⟩ := normalizeBaseURL_ok_iff.mp again
  rw [trimmed] at parsed
  obtain ⟨read, start, noHash, noQuery, noControl, whole, parts, sameScheme⟩ :=
    parse_letters_ok web.letters web.ne_nil parsed noFragment
  rw [sameScheme, web.map_toLowerByte, List.append_cancel_left_eq] at same
  obtain ⟨found, authority, rest⟩ := bind_eq_ok.mp parts
  obtain ⟨path, unescaped, pair⟩ := map_eq_ok.mp rest
  cases pair
  have hostParsed := parseAuthority_host authority
  have pathMade := unescape_ok_iff.mp unescaped
  have hostWithin := afterLast_sublist (byte '@') (read.takeWhile (· != byte '/'))
  have split := List.takeWhile_append_dropWhile (p := (· != byte '/')) (l := read)
  -- each escape that is undone takes a percent sign or a two away
  have percent : byte '%' ∉ z := by
    rw [← List.count_eq_zero]
    have joined := congrArg weight same
    have hostLight :=
      weight_mono (withoutDefaultPort_initial scheme (table.lower second.host)).sublist
    have pathLight := weight_mono (trimRight_initial (byte '/') second.path).sublist
    have hostTwos := parseHost_weight hostParsed
    have pathTwos := pathMade.weight_le
    have twos := hostWithin.count_le (byte '2')
    have readTwos := (start.trans initial).sublist.count_le (byte '2')
    have sides := congrArg (List.count (byte '2')) split
    rw [List.count_append] at sides
    rw [weight_append, weight_eq z] at joined
    rw [LowerCase.weight_lower] at hostLight
    omega
  have noPercent : byte '%' ∉ read := fun member => percent ((start.trans initial).subset member)
  have hostSame := parseHost_of_no_percent hostParsed
    fun member => noPercent ((List.takeWhile_prefix _).subset (hostWithin.subset member))
  have pathSame := pathMade.eq_of_no_percent fun member =>
    noPercent ((List.dropWhile_suffix _).subset member)
  have marks {b : UInt8} (mark : LowerCase.IsMark b) (member : b ∈ z) : b ∈ read := by
    rw [same, List.mem_append, hostSame, pathSame] at member
    rw [← split, List.mem_append]
    rcases member with inHost | inPath
    · left
      have lowered := (withoutDefaultPort_initial _ _).subset inHost
      exact hostWithin.subset ((LowerCase.mem_lower_mark mark).mp lowered)
    · exact .inr ((trimRight_initial _ _).subset inPath)
  have zHash : byte '#' ∉ z := fun member => noHash (marks ⟨by decide, by decide⟩ member)
  have zQuery : byte '?' ∉ z := fun member => noQuery (marks ⟨by decide, by decide⟩ member)
  have all : read = x := whole (fun member => zHash (initial.subset member)) fun member =>
    zQuery (initial.subset member)
  subst all
  refine ⟨read, back, shape, trimmed, percent, zHash, zQuery, ?_, ⟨_, hostParsed⟩, ?_⟩
  · rw [List.any_eq_false]
    intro b member control
    rw [List.any_eq_false] at noControl
    exact noControl b (marks (mark_of_control control) member) control
  · rw [same, hostSame, pathSame]

theorem Fixed.initial {part : Url.Bytes} {text : Text} (fixed : Fixed table host)
    (within : part <+: host) (hostRunes : decode host <+: text) (partRunes : decode part <+: text) :
    Fixed table part := by
  rcases List.prefix_or_prefix_of_prefix partRunes hostRunes with shorter | longer
  · exact fun rune member => fixed rune (shorter.subset member)
  · have starts := encode_initial longer
    rw [encode_decode, encode_decode] at starts
    rw [within.eq_of_length (Nat.le_antisymm within.length_le starts.length_le)]
    exact fixed

theorem decode_split (text : Url.Bytes) :
    decode text = decode (text.takeWhile (· != byte '/')) ++
      decode (text.dropWhile (· != byte '/')) := by
  rw [← decode_append_of_head, List.takeWhile_append_dropWhile]
  intro b head
  rcases dropWhile_starts (byte '/') text with nothing | slash
  · rw [nothing] at head
    cases head
  · rw [slash] at head
    cases head
    decide

theorem takeWhile_initial (stops : UInt8 → Bool) {first second : Url.Bytes}
    (initial : first <+: second) :
    first.takeWhile stops <+: second.takeWhile stops := by
  obtain ⟨rest, rfl⟩ := initial
  rw [List.takeWhile_append]
  split
  · exact (List.takeWhile_prefix _).trans (List.prefix_append _ _)
  · exact List.prefix_refl _

theorem again_whole {path x : Url.Bytes} {back : Text} (fixed : Fixed table host)
    (noUser : byte '@' ∉ host) (noSlash : byte '/' ∉ host)
    (rooted : path = [] ∨ path.head? = some (byte '/'))
    (shape : decode (host ++ path) = decode x ++ back)
    (same : host ++ path = withoutDefaultPort scheme
      (table.lower (afterLast (byte '@') (x.takeWhile (· != byte '/')))) ++ trimRight (byte '/')
      (x.dropWhile (· != byte '/'))) :
    x = host ++ path ∧ withoutDefaultPort scheme host = host ∧
      afterLast (byte '@') (x.takeWhile (· != byte '/')) = host := by
  have initial : x <+: host ++ path := by
    rw [← encode_decode x, ← encode_decode (host ++ path)]
    exact encode_initial ⟨back, shape.symm⟩
  have parts := split_first noSlash rooted
  have within : x.takeWhile (· != byte '/') <+: host := by
    rw [← parts.1]
    exact takeWhile_initial _ initial
  have hostRunes : decode host <+: decode (host ++ path) := by
    rw [decode_split (host ++ path), parts.1]
    exact List.prefix_append _ _
  have partRunes : decode (x.takeWhile (· != byte '/')) <+: decode (host ++ path) := by
    rw [shape, decode_split x, List.append_assoc]
    exact List.prefix_append _ _
  rw [afterLast_of_notMem fun member => noUser (within.subset member),
    (fixed.initial within hostRunes partRunes).lower] at same
  -- nothing is longer than before, so nothing is shorter
  have hostShort := (withoutDefaultPort_initial scheme (x.takeWhile (· != byte '/'))).length_le
  have pathShort := (trimRight_initial (byte '/') (x.dropWhile (· != byte '/'))).length_le
  have lengths := congrArg List.length same
  have sides :=
      congrArg List.length (List.takeWhile_append_dropWhile (p := (· != byte '/')) (l := x))
  have short := initial.length_le
  rw [List.length_append] at lengths sides
  rw [List.length_append] at lengths
  rw [List.length_append] at short
  have all : x = host ++ path := by
    apply initial.eq_of_length
    rw [List.length_append]
    omega
  rw [all, parts.1] at hostShort
  rw [all, parts.1, parts.2] at lengths
  rw [all, parts.2] at pathShort
  rw [all, parts.1, afterLast_of_notMem noUser]
  refine ⟨rfl, ?_, rfl⟩
  apply (withoutDefaultPort_initial scheme host).eq_of_length
  omega

theorem stable_of_again (web : IsWeb url.scheme) (host : ∃ raw, parseHost raw = .ok url.host)
    (rooted : url.path = [] ∨ url.path.head? = some (byte '/'))
    (again : normalizeBaseURL table quote (url.scheme ++ bytes "://" ++
      (keptHost table url ++ trimRight (byte '/') url.path)) =
      .ok (url.scheme ++ bytes "://" ++
        (keptHost table url ++ trimRight (byte '/') url.path))) : Stable table url := by
  obtain ⟨x, back, shape, trimmed, percent, noHash, noQuery, noControl, ⟨out, parsed⟩, same⟩ :=
    again_parts web again
  rw [List.mem_append, not_or] at percent noHash noQuery
  have hostPlain : byte '%' ∉ url.host := fun member => percent.1 (mem_percent_keptHost.mpr member)
  have plain := @keptHost_plain table url host hostPlain
  obtain ⟨all, onePort, sameHost⟩ := again_whole (keptHost_fixed url)
    (fun member => (plain_ne (plain _ member)).2.2.2.1 rfl)
    (fun member => (plain_ne (plain _ member)).2.2.1 rfl)
    (trimRight_rooted rooted) shape same
  rw [sameHost] at parsed
  refine ⟨hostPlain, ?_, onePort, (parseHost_cases parsed).1, ?_⟩
  · intro b member
    rcases @mem_trimRight (byte '/') b url.path member with kept | rfl
    · rw [List.any_append, Bool.or_eq_false_iff, List.any_eq_false, List.any_eq_false] at noControl
      refine ⟨?_, ?_, ?_, by simpa using noControl.2 b kept⟩
      · rintro rfl
        exact percent.2 kept
      · rintro rfl
        exact noQuery.2 kept
      · rintro rfl
        exact noHash.2 kept
    · decide
  · intro rune last
    apply @trimBytes_last (url.scheme ++ bytes "://" ++
      (keptHost table url ++ trimRight (byte '/') url.path)) rune
    obtain ⟨cs, start⟩ := web.start
    rw [trimmed, all, start, decode_encode_append, List.getLast?_append, last]
    rfl

end Again

/-- Normalising twice changes nothing exactly for stable URLs. -/
theorem normalizeBaseURL_idempotent_iff (table : LowerCase) (quote : Url.Bytes → String)
    (raw n : Url.Bytes) (url : URL) (parsed : Url.parse (trimBytes raw) = .ok url)
    (accepted : normalizeBaseURL table quote raw = .ok n) :
    normalizeBaseURL table quote n = .ok n ↔ Stable table url := by
  obtain ⟨found, -, own, web, -, -, rfl⟩ := normalizeBaseURL_ok_iff.mp accepted
  cases parsed.symm.trans own
  obtain ⟨host, rooted⟩ := parse_parts parsed web.ne_nil
  constructor
  · exact stable_of_again web host rooted
  · intro stable
    exact stable.again web host rooted

def inQuotes (text : Url.Bytes) : String :=
  "\"" ++ String.ofList (text.map (Char.ofNat ·.toNat)) ++ "\""

theorem normalizeBaseURL_idempotent_iff_port :
    normalizeBaseURL .latin inQuotes (bytes " https://API.Example.com:443/v1/ ") =
      .ok (bytes "https://api.example.com/v1") ∧
      normalizeBaseURL .latin inQuotes (bytes "https://api.example.com/v1") =
        .ok (bytes "https://api.example.com/v1") := by
  have accepted : normalizeBaseURL .latin inQuotes (bytes " https://API.Example.com:443/v1/ ") =
      .ok (bytes "https://api.example.com/v1") := by decide +kernel
  have parsed : Url.parse (trimBytes (bytes " https://API.Example.com:443/v1/ ")) =
      .ok ⟨bytes "https", bytes "API.Example.com:443", bytes "/v1/", [], []⟩ := by decide +kernel
  refine ⟨accepted, (normalizeBaseURL_idempotent_iff .latin inQuotes _ _ _ parsed accepted).mpr ?_⟩
  have plain : (bytes "/v1/").all (fun b => b != byte '%' && b != byte '?' && b != byte '#' &&
      !isControl b) = true := by
    decide
  constructor
  · decide
  · simpa [and_assoc] using plain
  · decide +kernel
  · decide +kernel
  · decide +kernel

/-- An escaped percent sign comes back as an escape, which the second run undoes. -/
theorem normalizeBaseURL_unescapes_again :
    ∃ n, normalizeBaseURL .latin inQuotes (bytes "http://h/a%2520b") = .ok n ∧
    n = bytes "http://h/a%20b" ∧ normalizeBaseURL .latin inQuotes n = .ok (bytes "http://h/a b") ∧
      normalizeBaseURL .latin inQuotes n ≠ .ok n := by
  refine ⟨bytes "http://h/a%20b", ?_⟩
  decide +kernel

end Web

end BaseUrl

end RepoLens
