import Mathlib

/-!
URLs over bytes in the way of Go's `net/url`: the parts of a text that `Parse` takes apart, with
the percent escapes of each part undone.
-/

namespace Url

abbrev Bytes := List UInt8

def byte (c : Char) : UInt8 := c.toNat.toUInt8

def bytes (s : String) : Bytes := s.toList.map byte

inductive Error where
  | control
  | noScheme
  | colonInSegment
  | escape (text : Bytes)
  | hostByte (text : Bytes)
  | bracket
  | port (text : Bytes)
  | userinfo
  deriving DecidableEq

/-- The text of an error, with a way to quote what was read. -/
def Error.text (quote : Bytes → String) : Error → String
  | .control => "net/url: invalid control character in URL"
  | .noScheme => "missing protocol scheme"
  | .colonInSegment => "first path segment in URL cannot contain colon"
  | .escape text => "invalid URL escape " ++ quote text
  | .hostByte text => "invalid character " ++ quote text ++ " in host name"
  | .bracket => "missing ']' in host"
  | .port text => "invalid port " ++ quote text ++ " after host"
  | .userinfo => "net/url: invalid userinfo"

/-- The part that an escape stands in. -/
inductive Mode where
  | host
  | zone
  | userPassword
  | path
  | fragment
  deriving DecidableEq

def isDigit (b : UInt8) : Bool := byte '0' ≤ b && b ≤ byte '9'

def isAlpha (b : UInt8) : Bool := (byte 'a' ≤ b && b ≤ byte 'z') || (byte 'A' ≤ b && b ≤ byte 'Z')

theorem isAlpha_iff {b : UInt8} :
    isAlpha b = true ↔ (97 ≤ b.toNat ∧ b.toNat ≤ 122) ∨ (65 ≤ b.toNat ∧ b.toNat ≤ 90) := by
  simp only [isAlpha, Bool.or_eq_true, Bool.and_eq_true, decide_eq_true_eq, UInt8.le_iff_toNat_le]
  exact Iff.rfl

def isHex (b : UInt8) : Bool :=
  isDigit b || (byte 'a' ≤ b && b ≤ byte 'f') || (byte 'A' ≤ b && b ≤ byte 'F')

def unhex (b : UInt8) : UInt8 :=
  if isDigit b then b - byte '0' else if byte 'a' ≤ b && b ≤ byte 'f' then
    b - byte 'a' + 10 else b - byte 'A' + 10

def isHostByte (b : UInt8) : Bool :=
  isAlpha b || isDigit b || (bytes "!$&'()*+,;=:[]<>\"-_.~").contains b

def Mode.escapes (high low : UInt8) : Mode → Bool
  | .host => 8 ≤ unhex high || (high == byte '2' && low == byte '5')
  | .zone =>
    (high == byte '2' && low == byte '5') || unhex high * 16 + unhex low == byte ' ' ||
      isHostByte (unhex high * 16 + unhex low)
  | _ => true

def Mode.plain (b : UInt8) : Mode → Bool
  | .host => 128 ≤ b || isHostByte b
  | .zone => 128 ≤ b || isHostByte b
  | _ => true

def unescape (mode : Mode) : Bytes → Except Error Bytes
  | [] => .ok []
  | b :: rest =>
    if b == byte '%' then
      match rest with
      | high :: low :: rest =>
        if isHex high && isHex low && mode.escapes high low then
          (unescape mode rest).map ((unhex high * 16 + unhex low) :: ·)
        else .error (.escape [b, high, low])
      | _ => .error (.escape (b :: rest))
    else if mode.plain b then (unescape mode rest).map (b :: ·)
    else .error (.hostByte [b])

/-- Percent signs and twos: an escape has more of them than the byte it stands for. -/
def weight (text : Bytes) : Nat := text.countP fun b => b == byte '%' || b == byte '2'

theorem weight_append (first second : Bytes) :
    weight (first ++ second) = weight first + weight second :=
  List.countP_append

theorem weight_eq (text : Bytes) : weight text = text.count (byte '%') + text.count (byte '2') := by
  induction text with
  | nil => rfl
  | cons b text ih =>
    rw [weight, List.countP_cons, ← weight, ih, List.count_cons, List.count_cons]
    have apart : byte '%' ≠ byte '2' := by decide
    by_cases percent : b = byte '%'
    · simp [percent, apart]
      omega
    · by_cases two : b = byte '2' <;> simp [percent, two, apart.symm]
      omega

theorem forall_byte {P : UInt8 → Prop} (all : ∀ n : Fin 256, P (UInt8.ofNat n)) (b : UInt8) :
    P b := by
  have own := all ⟨b.toNat, b.toNat_lt⟩
  simpa using own

theorem unhex_spec (b : UInt8) :
    isHex b = true → (unhex b).toNat < 16 ∧ ((unhex b).toNat = 2 → b = byte '2') := by
  apply forall_byte (P := fun b => isHex b = true → (unhex b).toNat < 16 ∧
    ((unhex b).toNat = 2 → b = byte '2'))
  decide +kernel

theorem escaped_toNat {high low : UInt8} (first : isHex high = true) (second : isHex low = true) :
    (unhex high * 16 + unhex low).toNat = (unhex high).toNat * 16 + (unhex low).toNat := by
  have := (unhex_spec high first).1
  have := (unhex_spec low second).1
  rw [UInt8.toNat_add, UInt8.toNat_mul, show (16 : UInt8).toNat = 16 from rfl]
  omega

theorem weight_escape {high low : UInt8} (first : isHex high = true) (second : isHex low = true) :
    weight [unhex high * 16 + unhex low] ≤ [high, low].count (byte '2') := by
  have value := escaped_toNat first second
  obtain ⟨highLt, highTwo⟩ := unhex_spec high first
  obtain ⟨lowLt, lowTwo⟩ := unhex_spec low second
  by_cases heavy : unhex high * 16 + unhex low = byte '%' ∨ unhex high * 16 + unhex low = byte '2'
  · have two : high = byte '2' ∨ low = byte '2' := by
      rcases heavy with percent | two
      · left
        apply highTwo
        have : (unhex high * 16 + unhex low).toNat = 37 := by rw [percent]; rfl
        omega
      · right
        apply lowTwo
        have : (unhex high * 16 + unhex low).toNat = 50 := by rw [two]; rfl
        omega
    have small : weight [unhex high * 16 + unhex low] ≤ 1 := List.countP_le_length
    have some_ : 0 < [high, low].count (byte '2') := by
      rw [List.count_pos_iff]
      rcases two with rfl | rfl <;> simp
    omega
  · rw [not_or] at heavy
    simp [weight, heavy.1, heavy.2]

/-- What undoing the escapes of a text gives. -/
inductive Unescapes (mode : Mode) : Bytes → Bytes → Prop where
  | nil : Unescapes mode [] []
  | escape {high low : UInt8} {rest out : Bytes} : isHex high = true → isHex low = true →
      mode.escapes high low = true → Unescapes mode rest out →
        Unescapes mode (byte '%' :: high :: low :: rest) ((unhex high * 16 + unhex low) :: out)
  | plain {b : UInt8} {rest out : Bytes} : b ≠ byte '%' → mode.plain b = true →
      Unescapes mode rest out →
      Unescapes mode (b :: rest) (b :: out)

theorem bind_eq_ok {α β : Type} {x : Except Error α} {f : α → Except Error β} {b : β} :
    x.bind f = .ok b ↔ ∃ a, x = .ok a ∧ f a = .ok b := by
  cases x <;> simp [Except.bind]

theorem map_eq_ok {α β : Type} {x : Except Error α} {f : α → β} {b : β} :
    x.map f = .ok b ↔ ∃ a, x = .ok a ∧ f a = b := by
  cases x <;> simp [Except.map]

variable {text out host : Bytes} {sep : UInt8} {url : URL}

theorem unescape_ok_iff {mode : Mode} : unescape mode text = .ok out ↔ Unescapes mode text out := by
  constructor
  · intro ok
    fun_induction unescape mode text generalizing out with
    | case1 =>
      cases ok
      exact .nil
    | case2 b percent high low rest allowed ih =>
      obtain ⟨out, done, rfl⟩ := map_eq_ok.mp ok
      rw [beq_iff_eq] at percent
      simp only [Bool.and_eq_true] at allowed
      rw [percent]
      exact .escape allowed.1.1 allowed.1.2 allowed.2 (ih done)
    | case5 b rest other allowed ih =>
      obtain ⟨out, done, rfl⟩ := map_eq_ok.mp ok
      exact .plain (by simpa using other) allowed (ih done)
    | case3 | case4 | case6 => cases ok
  · intro made
    induction made with
    | nil => rfl
    | escape high low allowed _ ih => simp [unescape, high, low, allowed, ih, Except.map]
    | plain other allowed _ ih =>
      rw [unescape.eq_def]
      simp [other, allowed, ih, Except.map]

namespace Unescapes

variable {mode : Mode} {text out : Bytes}

theorem weight_le (made : Unescapes mode text out) : weight out ≤ text.count (byte '2') := by
  induction made with
  | nil => rfl
  | @escape high low rest out first second _ _ ih =>
    have less := weight_escape first second
    have percent : byte '%' ≠ byte '2' := by decide
    have head := weight_append [unhex high * 16 + unhex low] out
    rw [List.count_cons_of_ne percent, show high :: low :: rest = [high, low] ++ rest from rfl,
      List.count_append]
    rw [List.singleton_append] at head
    omega
  | @plain b rest out other _ _ ih =>
    have head := weight_append [b] out
    rw [List.singleton_append] at head
    rw [show b :: rest = [b] ++ rest from rfl, List.count_append]
    have own : weight [b] = [b].count (byte '2') := by
      rw [weight_eq, List.count_eq_zero.mpr (by simpa using other.symm), Nat.zero_add]
    omega

theorem eq_of_no_percent (made : Unescapes mode text out) (none_ : byte '%' ∉ text) :
    out = text := by
  induction made with
  | nil => rfl
  | escape _ _ _ _ _ => simp at none_
  | plain other _ _ ih => rw [ih fun member => none_ (List.mem_cons_of_mem _ member)]

theorem of_plain (plain : ∀ b ∈ text, b ≠ byte '%' ∧ mode.plain b = true) :
    Unescapes mode text text := by
  induction text with
  | nil => exact .nil
  | cons b rest ih =>
    obtain ⟨other, allowed⟩ := plain b List.mem_cons_self
    exact .plain other allowed (ih fun c member => plain c (List.mem_cons_of_mem _ member))

theorem host_plain (made : Unescapes .host text out) :
    ∀ b ∈ out, b ≠ byte '%' → Mode.host.plain b = true := by
  induction made with
  | nil => simp
  | @escape high low rest out first second allowed _ ih =>
    intro b member other
    rcases List.mem_cons.mp member with rfl | later
    · have value := escaped_toNat first second
      simp only [Mode.escapes, Bool.or_eq_true, Bool.and_eq_true, beq_iff_eq, decide_eq_true_eq,
        UInt8.le_iff_toNat_le, show (8 : UInt8).toNat = 8 from rfl] at allowed
      rcases allowed with large | ⟨rfl, rfl⟩
      · simp only [Mode.plain, Bool.or_eq_true, decide_eq_true_eq, UInt8.le_iff_toNat_le, value,
          show (128 : UInt8).toNat = 128 from rfl]
        left
        omega
      · exact absurd (by decide) other
    · exact ih b later other
  | plain _ allowed _ ih =>
    intro b member other
    rcases List.mem_cons.mp member with rfl | later
    · exact allowed
    · exact ih b later other

end Unescapes

def cut (sep : UInt8) (text : Bytes) : Bytes × Bytes :=
  (text.takeWhile (· != sep), (text.dropWhile (· != sep)).drop 1)

def afterLast (sep : UInt8) (text : Bytes) : Bytes := (text.reverse.takeWhile (· != sep)).reverse

def beforeLast (sep : UInt8) (text : Bytes) : Bytes :=
  ((text.reverse.dropWhile (· != sep)).drop 1).reverse

def isControl (b : UInt8) : Bool := b < 32 || b == 127

def schemeByte (b : UInt8) : Bool := isAlpha b || isDigit b || (bytes "+-.").contains b

def getScheme (rawURL : Bytes) : Except Error (Bytes × Bytes) :=
  let run := rawURL.takeWhile schemeByte
  match rawURL.dropWhile schemeByte with
  | [] => .ok ([], rawURL)
  | b :: rest =>
    if b != byte ':' then .ok ([], rawURL)
    else
      match run with
      | [] => .error .noScheme
      | first :: _ => if isAlpha first then .ok (run, rest) else .ok ([], rawURL)

def toLowerByte (b : UInt8) : UInt8 := if byte 'A' ≤ b && b ≤ byte 'Z' then b + 32 else b

def validUserinfo (userinfo : Bytes) : Bool :=
  userinfo.all fun b => isAlpha b || isDigit b || (bytes "-._:~!$&'()*+,;=%@").contains b

def validOptionalPort (port : Bytes) : Bool :=
  match port with
  | [] => true
  | b :: digits => b == byte ':' && digits.all isDigit

def portAccepted (host : Bytes) : Except Error Unit :=
  if host.head? = some (byte '[') then
    if !host.contains (byte ']') then .error .bracket
    else if validOptionalPort (afterLast (byte ']') host) then .ok ()
    else .error (.port (afterLast (byte ']') host))
  else if host.contains (byte ':') &&
    !validOptionalPort (byte ':' :: afterLast (byte ':') host) then
    .error (.port (byte ':' :: afterLast (byte ':') host))
  else .ok ()

/-- The text up to the first escaped percent sign, and from there on. -/
def splitZone : Bytes → Option (Bytes × Bytes)
  | [] => none
  | b :: rest =>
    if (bytes "%25").isPrefixOf (b :: rest) then some ([], b :: rest)
    else (splitZone rest).map fun parts => (b :: parts.1, parts.2)

def parseHost (host : Bytes) : Except Error Bytes :=
  (portAccepted host).bind fun _ =>
    if host.head? = some (byte '[') then
      match splitZone (beforeLast (byte ']') host) with
      | some (first, zone) =>
        (unescape .host first).bind fun one => (unescape .zone zone).bind fun two =>
          (unescape .host (byte ']' :: afterLast (byte ']') host)).map fun three =>
            one ++ two ++ three
      | none => unescape .host host
    else unescape .host host

/-- The host of an authority; user information before the last `@` has to be valid. -/
def parseAuthority (authority : Bytes) : Except Error Bytes :=
  (parseHost (afterLast (byte '@') authority)).bind fun host =>
    if !authority.contains (byte '@') then .ok host
    else
      let userinfo := beforeLast (byte '@') authority
      if !validUserinfo userinfo then .error .userinfo
      else
        (unescape .userPassword (cut (byte ':') userinfo).1).bind fun _ =>
          (unescape .userPassword (cut (byte ':') userinfo).2).map fun _ => host

structure URL where
  scheme : Bytes
  host : Bytes
  path : Bytes
  rawQuery : Bytes
  fragment : Bytes
  deriving DecidableEq

/-- The query behind the first `?`; one `?` at the end is none. -/
def cutQuery (rest : Bytes) : Bytes × Bytes :=
  if rest.getLast? = some (byte '?') && rest.count (byte '?') == 1 then (rest.dropLast, [])
  else cut (byte '?') rest

def hostAndPath (text : Bytes) : Except Error (Bytes × Bytes) :=
  (parseAuthority (text.takeWhile (· != byte '/'))).bind fun host =>
    (unescape .path (text.dropWhile (· != byte '/'))).map fun path => (host, path)

def parseHierarchy (scheme rest rawQuery : Bytes) : Except Error URL :=
  if rest.head? ≠ some (byte '/') ∧ scheme ≠ [] then .ok ⟨scheme, [], [], rawQuery, []⟩
  else if rest.head? ≠ some (byte '/') ∧ (cut (byte '/') rest).1.contains (byte ':') then
    .error .colonInSegment
  else if (scheme ≠ [] ∨ ¬ (bytes "///").isPrefixOf rest) ∧ (bytes "//").isPrefixOf rest then
    (hostAndPath (rest.drop 2)).map fun parts => ⟨scheme, parts.1, parts.2, rawQuery, []⟩
  else (unescape .path rest).map fun path => ⟨scheme, [], path, rawQuery, []⟩

def parseURL (rawURL : Bytes) : Except Error URL :=
  if rawURL.any isControl then .error .control
  else if rawURL = bytes "*" then .ok ⟨[], [], bytes "*", [], []⟩
  else (getScheme rawURL).bind fun parts =>
    parseHierarchy (parts.1.map toLowerByte) (cutQuery parts.2).1 (cutQuery parts.2).2

def parse (rawURL : Bytes) : Except Error URL :=
  (parseURL (cut (byte '#') rawURL).1).bind fun url =>
    if (cut (byte '#') rawURL).2 = [] then .ok url
    else (unescape .fragment (cut (byte '#') rawURL).2).map fun fragment => { url with fragment }

/-- The text of the error of `parse`, which names the URL, up to the fragment where that is not
what is wrong. -/
def errorText (quote : Bytes → String) (rawURL : Bytes) (err : Error) : String :=
  let url := (cut (byte '#') rawURL).1
  "parse " ++ quote (if (parseURL url).isOk then rawURL else url) ++ ": " ++ err.text quote

theorem split_last (member : sep ∈ text) :
    text = beforeLast sep text ++ sep :: afterLast sep text := by
  have found : text.reverse.dropWhile (· != sep) ≠ [] := by
    rw [Ne, List.dropWhile_eq_nil_iff]
    intro all
    simpa using all sep (List.mem_reverse.mpr member)
  obtain ⟨first, rest, shape⟩ := List.exists_cons_of_ne_nil found
  have head : first = sep := by
    have not_ := List.head?_dropWhile_not (· != sep) text.reverse
    rw [shape] at not_
    simpa using not_
  have whole := List.takeWhile_append_dropWhile (p := (· != sep)) (l := text.reverse)
  rw [shape, head] at whole
  have reversed := congrArg List.reverse whole
  rw [List.reverse_reverse, List.reverse_append, List.reverse_cons] at reversed
  rw [beforeLast, afterLast, shape, List.drop_one, List.tail_cons]
  nth_rewrite 1 [← reversed]
  rw [List.append_assoc, List.singleton_append]

theorem afterLast_of_notMem (none_ : sep ∉ text) : afterLast sep text = text := by
  rw [afterLast, List.takeWhile_eq_self_iff.mpr, List.reverse_reverse]
  intro b member
  have other : b ≠ sep := by
    rintro rfl
    exact none_ (List.mem_reverse.mp member)
  simpa using other

theorem splitZone_eq_some {first zone : Bytes} (found : splitZone text = some (first, zone)) :
    text = first ++ zone ∧ bytes "%25" <+: zone := by
  induction text generalizing first with
  | nil => cases found
  | cons b rest ih =>
    unfold splitZone at found
    split at found
    · rename_i starts
      cases found
      exact ⟨rfl, List.isPrefixOf_iff_prefix.mp starts⟩
    · obtain ⟨⟨before, after⟩, inner, same⟩ := Option.map_eq_some_iff.mp found
      cases same
      obtain ⟨shape, starts⟩ := ih inner
      exact ⟨by rw [shape, List.cons_append], starts⟩

theorem splitZone_of_no_percent (none_ : byte '%' ∉ text) : splitZone text = none := by
  cases found : splitZone text with
  | none => rfl
  | some parts =>
    obtain ⟨shape, rest, starts⟩ := splitZone_eq_some found
    rw [shape, ← starts] at none_
    simp [bytes] at none_

theorem parseHost_cases (ok : parseHost host = .ok out) : portAccepted host = .ok () ∧
    (Unescapes .host host out ∨ ∃ first zone last one two three, host = first ++ zone ++ last ∧
      bytes "%25" <+: zone ∧ Unescapes .host first one ∧ Unescapes .zone zone two ∧
        Unescapes .host last three ∧
        out = one ++ two ++ three) := by
  unfold parseHost at ok
  obtain ⟨⟨⟩, accepted, ok⟩ := bind_eq_ok.mp ok
  refine ⟨accepted, ?_⟩
  split at ok
  · rename_i bracket
    have closed : byte ']' ∈ host := by
      by_contra open_
      simp [portAccepted, bracket, open_] at accepted
    split at ok
    · rename_i first zone split
      obtain ⟨shape, starts⟩ := splitZone_eq_some split
      obtain ⟨one, left, ok⟩ := bind_eq_ok.mp ok
      obtain ⟨two, middle, ok⟩ := bind_eq_ok.mp ok
      obtain ⟨three, last, rfl⟩ := map_eq_ok.mp ok
      right
      refine ⟨first, zone, byte ']' :: afterLast (byte ']') host, one, two, three, ?_, starts,
        unescape_ok_iff.mp left, unescape_ok_iff.mp middle, unescape_ok_iff.mp last, rfl⟩
      rw [← shape]
      exact split_last closed
    · exact .inl (unescape_ok_iff.mp ok)
  · exact .inl (unescape_ok_iff.mp ok)

theorem parseHost_weight (ok : parseHost host = .ok out) : weight out ≤ host.count (byte '2') := by
  obtain ⟨-, made | ⟨first, zone, last, one, two, three, rfl, -, left, middle, right, rfl⟩⟩ :=
    parseHost_cases ok
  · exact made.weight_le
  · have := left.weight_le
    have := middle.weight_le
    have := right.weight_le
    rw [weight_append, weight_append, List.count_append, List.count_append]
    omega

theorem Unescapes.percent_of_zone {mode : Mode} {rest : Bytes}
    (made : Unescapes mode (bytes "%25" ++ rest) out) :
    byte '%' ∈ out := by
  rw [show bytes "%25" ++ rest = byte '%' :: byte '2' :: byte '5' :: rest from rfl] at made
  cases made with
  | escape _ _ _ _ =>
    rw [show unhex (byte '2') * 16 + unhex (byte '5') = byte '%' from by decide]
    exact List.mem_cons_self
  | plain other _ _ => exact absurd rfl other

theorem parseHost_plain (ok : parseHost host = .ok out) (none_ : byte '%' ∉ out) :
    ∀ b ∈ out, Mode.host.plain b = true := by
  obtain ⟨-, made | ⟨first, zone, last, one, two, three, -, ⟨rest, rfl⟩, -, middle, -, rfl⟩⟩ :=
    parseHost_cases ok
  · intro b member
    apply made.host_plain b member
    rintro rfl
    exact none_ member
  · exfalso
    apply none_
    exact List.mem_append_left _ (List.mem_append_right _ middle.percent_of_zone)

theorem parseHost_of_no_percent (ok : parseHost host = .ok out) (none_ : byte '%' ∉ host) :
    out = host := by
  obtain ⟨-, made | ⟨first, zone, last, one, two, three, rfl, ⟨rest, rfl⟩, -⟩⟩ := parseHost_cases ok
  · exact made.eq_of_no_percent none_
  · simp [bytes] at none_

theorem parseHost_self (accepted : portAccepted host = .ok ()) (none_ : byte '%' ∉ host)
    (plain : ∀ b ∈ host, Mode.host.plain b = true) : parseHost host = .ok host := by
  have same : unescape .host host = .ok host := by
    apply unescape_ok_iff.mpr
    apply Unescapes.of_plain
    intro b member
    refine ⟨?_, plain b member⟩
    rintro rfl
    exact none_ member
  rw [parseHost, accepted]
  simp only [Except.bind]
  split
  · rename_i bracket
    have within : byte '%' ∉ beforeLast (byte ']') host := by
      intro member
      by_cases closed : byte ']' ∈ host
      · apply none_
        rw [split_last closed]
        exact List.mem_append_left _ member
      · simp [portAccepted, bracket, closed] at accepted
    rw [splitZone_of_no_percent within]
    exact same
  · exact same

theorem parseAuthority_host {authority : Bytes} (ok : parseAuthority authority = .ok out) :
    parseHost (afterLast (byte '@') authority) = .ok out := by
  obtain ⟨host, parsed, ok⟩ := bind_eq_ok.mp ok
  rw [parsed]
  -- every way to end returns the host
  split at ok
  · exact ok
  · dsimp only at ok
    split at ok
    · cases ok
    · obtain ⟨-, -, ok⟩ := bind_eq_ok.mp ok
      obtain ⟨-, -, rfl⟩ := map_eq_ok.mp ok
      rfl

theorem parseAuthority_of_no_user {authority : Bytes} (none_ : byte '@' ∉ authority) :
    parseAuthority authority = parseHost authority := by
  unfold parseAuthority
  rw [afterLast_of_notMem none_]
  cases parseHost authority with
  | error _ => rfl
  | ok found => simp [Except.bind, none_]

theorem cut_append {front : Bytes} (none_ : sep ∉ front) (text : Bytes) :
    cut sep (front ++ text) = (front ++ (cut sep text).1, (cut sep text).2) := by
  have plain : ∀ b ∈ front, (b != sep) = true := by
    intro b member
    have other : b ≠ sep := by
      rintro rfl
      exact none_ member
    simpa using other
  rw [cut, List.takeWhile_append_of_pos plain, List.dropWhile_append_of_pos plain, cut]

theorem cutQuery_append {front : Bytes} (none_ : byte '?' ∉ front) (text : Bytes) :
    cutQuery (front ++ text) = (front ++ (cutQuery text).1, (cutQuery text).2) := by
  unfold cutQuery
  rw [List.count_append, List.count_eq_zero.mpr none_, Nat.zero_add]
  cases text with
  | nil =>
    rw [List.count_nil, if_neg (by simp), if_neg (by simp)]
    exact cut_append none_ []
  | cons b text =>
    rw [List.getLast?_append_of_ne_nil _ (List.cons_ne_nil b text),
      List.dropLast_append_of_ne_nil (List.cons_ne_nil b text)]
    split
    · rfl
    · exact cut_append none_ _

variable {scheme : Bytes}

theorem getScheme_letters (letters : ∀ b ∈ scheme, isAlpha b = true) (some_ : scheme ≠ [])
    (rest : Bytes) :
    getScheme (scheme ++ byte ':' :: rest) = .ok (scheme, rest) := by
  have run : ∀ b ∈ scheme, schemeByte b = true := by
    intro b member
    simp [schemeByte, letters b member]
  have stops : schemeByte (byte ':') = false := by decide
  unfold getScheme
  rw [List.takeWhile_append_of_pos run, List.dropWhile_append_of_pos run,
    List.takeWhile_cons_of_neg (by simp [stops]),
    List.dropWhile_cons_of_neg (by simp [stops]), List.append_nil]
  obtain ⟨first, more, shape⟩ := List.exists_cons_of_ne_nil some_
  have letter := letters first (by rw [shape]; exact List.mem_cons_self)
  simp [shape, letter]

theorem parseHierarchy_slashes (some_ : scheme ≠ []) (text rawQuery : Bytes) :
    parseHierarchy scheme (byte '/' :: byte '/' :: text) rawQuery =
      (hostAndPath text).map fun parts => ⟨scheme, parts.1, parts.2, rawQuery, []⟩ := by
  have slashes : (bytes "//").isPrefixOf (byte '/' :: byte '/' :: text) = true := by
    rw [List.isPrefixOf_iff_prefix]
    exact ⟨text, rfl⟩
  unfold parseHierarchy
  rw [if_neg (by simp), if_neg (by simp), if_pos ⟨.inl some_, slashes⟩, List.drop_succ_cons,
    List.drop_succ_cons, List.drop_zero]

theorem parseURL_letters (letters : ∀ b ∈ scheme, isAlpha b = true) (some_ : scheme ≠ [])
    (text : Bytes) :
    parseURL (scheme ++ bytes "://" ++ text) =
      if text.any isControl then .error .control
      else (hostAndPath (cutQuery text).1).map fun parts =>
        ⟨scheme.map toLowerByte, parts.1, parts.2, (cutQuery text).2, []⟩ := by
  have shape : scheme ++ bytes "://" ++ text = scheme ++ byte ':' :: (bytes "//" ++ text) := by
    rw [List.append_assoc]
    rfl
  have plain : scheme.any isControl = false := by
    rw [List.any_eq_false]
    intro b member
    have letter := letters b member
    revert letter
    apply forall_byte (P := fun b => isAlpha b = true → ¬ isControl b = true)
    decide +kernel
  have controls : (scheme ++ bytes "://" ++ text).any isControl = text.any isControl := by
    rw [List.any_append, List.any_append, plain,
      show (bytes "://").any isControl = false from by decide, Bool.false_or, Bool.false_or]
  have long : scheme ++ bytes "://" ++ text ≠ bytes "*" := by
    intro same
    have lengths := congrArg List.length same
    simp [bytes] at lengths
    omega
  have noQuery : byte '?' ∉ bytes "//" := by decide
  have mapped : scheme.map toLowerByte ≠ [] := by simpa using some_
  rw [parseURL, controls, if_neg long, shape, getScheme_letters letters some_]
  simp only [Except.bind, cutQuery_append noQuery]
  split
  · rfl
  · exact parseHierarchy_slashes mapped _ _

theorem parse_letters (letters : ∀ b ∈ scheme, isAlpha b = true) (text : Bytes) :
    parse (scheme ++ bytes "://" ++ text) =
      (parseURL (scheme ++ bytes "://" ++ (cut (byte '#') text).1)).bind fun url =>
        if (cut (byte '#') text).2 = [] then .ok url
        else (unescape .fragment (cut (byte '#') text).2).map fun fragment =>
          { url with fragment } := by
  have noHash : byte '#' ∉ scheme ++ bytes "://" := by
    rw [List.mem_append, not_or]
    refine ⟨?_, by decide⟩
    intro member
    exact absurd (letters _ member) (by decide)
  rw [parse, cut_append noHash]

theorem cut_of_notMem (none_ : sep ∉ text) : cut sep text = (text, []) := by
  have whole := cut_append none_ []
  rw [List.append_nil] at whole
  rw [whole]
  simp [cut]

theorem notMem_takeWhile (sep : UInt8) (text : Bytes) : sep ∉ text.takeWhile (· != sep) := by
  intro member
  simpa using List.mem_takeWhile_imp member

theorem cutQuery_of_notMem (none_ : byte '?' ∉ text) : cutQuery text = (text, []) := by
  rw [cutQuery, List.count_eq_zero.mpr none_, if_neg (by simp), cut_of_notMem none_]

theorem cutQuery_spec (text : Bytes) :
    (cutQuery text).1 <+: text ∧ byte '?' ∉ (cutQuery text).1 := by
  unfold cutQuery
  split
  · rename_i last
    simp only [Bool.and_eq_true, decide_eq_true_eq, beq_iff_eq] at last
    refine ⟨List.dropLast_prefix text, ?_⟩
    obtain ⟨front, rfl⟩ : ∃ front, text = front ++ [byte '?'] := by
      obtain ⟨front, shape⟩ := List.getLast?_eq_some_iff.mp last.1
      exact ⟨front, shape⟩
    rw [List.dropLast_concat]
    have count := last.2
    rw [List.count_append, List.count_singleton_self, Nat.add_eq_right] at count
    exact List.count_eq_zero.mp count
  · exact ⟨List.takeWhile_prefix _, notMem_takeWhile _ _⟩

theorem dropWhile_starts (sep : UInt8) (text : Bytes) :
    text.dropWhile (· != sep) = [] ∨ (text.dropWhile (· != sep)).head? = some sep := by
  have first := List.head?_dropWhile_not (· != sep) text
  cases shape : text.dropWhile (· != sep) with
  | nil => exact .inl rfl
  | cons b rest =>
    rw [shape] at first
    right
    simpa using first

theorem parseHierarchy_parts (some_ : scheme ≠ []) {rest rawQuery : Bytes}
    (ok : parseHierarchy scheme rest rawQuery = .ok url) :
    (∃ host, parseHost host = .ok url.host) ∧
      (url.path = [] ∨ url.path.head? = some (byte '/')) := by
  have slash {text path : Bytes} (starts : text = [] ∨
    text.head? = some (byte '/')) (made : Unescapes .path text path) :
      path = [] ∨ path.head? = some (byte '/') := by
    cases made with
    | nil => exact .inl rfl
    | escape _ _ _ _ => simp at starts; exact absurd starts (by decide)
    | plain _ _ _ => simpa using starts
  unfold parseHierarchy at ok
  split at ok
  · cases ok
    exact ⟨⟨[], rfl⟩, .inl rfl⟩
  · rename_i rooted
    split at ok
    · cases ok
    · split at ok
      · obtain ⟨⟨host, path⟩, parsed, rfl⟩ := map_eq_ok.mp ok
        obtain ⟨found, authority, ok⟩ := bind_eq_ok.mp parsed
        obtain ⟨unescaped, made, same⟩ := map_eq_ok.mp ok
        cases same
        refine ⟨⟨_, parseAuthority_host authority⟩,
          slash (dropWhile_starts _ _) (unescape_ok_iff.mp made)⟩
      · obtain ⟨path, made, rfl⟩ := map_eq_ok.mp ok
        refine ⟨⟨[], rfl⟩, slash ?_ (unescape_ok_iff.mp made)⟩
        right
        by_contra other
        exact rooted ⟨other, some_⟩

theorem parseHierarchy_scheme {rest rawQuery : Bytes}
    (ok : parseHierarchy scheme rest rawQuery = .ok url) :
    url.scheme = scheme := by
  unfold parseHierarchy at ok
  split at ok
  · cases ok
    rfl
  · split at ok
    · cases ok
    · split at ok
      all_goals
        obtain ⟨-, -, rfl⟩ := map_eq_ok.mp ok
        rfl

theorem parse_parts {rawURL : Bytes} (ok : parse rawURL = .ok url) (some_ : url.scheme ≠ []) :
    (∃ host, parseHost host = .ok url.host) ∧
      (url.path = [] ∨ url.path.head? = some (byte '/')) := by
  obtain ⟨found, parsed, ok⟩ := bind_eq_ok.mp ok
  have same : url.scheme = found.scheme ∧ url.host = found.host ∧ url.path = found.path := by
    split at ok
    · cases ok
      exact ⟨rfl, rfl, rfl⟩
    · obtain ⟨fragment, -, rfl⟩ := map_eq_ok.mp ok
      exact ⟨rfl, rfl, rfl⟩
  rw [same.2.1, same.2.2]
  rw [same.1] at some_
  unfold parseURL at parsed
  split at parsed
  · cases parsed
  · split at parsed
    · cases parsed
      exact absurd rfl some_
    · obtain ⟨parts, -, parsed⟩ := bind_eq_ok.mp parsed
      rw [parseHierarchy_scheme parsed] at some_
      exact parseHierarchy_parts some_ parsed

theorem parse_letters_ok (letters : ∀ b ∈ scheme, isAlpha b = true) (some_ : scheme ≠ [])
    (ok : parse (scheme ++ bytes "://" ++ text) = .ok url) (noFragment : url.fragment = []) :
    ∃ parsed, parsed <+: text ∧ byte '#' ∉ parsed ∧ byte '?' ∉ parsed ∧
      parsed.any isControl = false ∧
      (byte '#' ∉ text → byte '?' ∉ text → parsed = text) ∧
        hostAndPath parsed = .ok (url.host, url.path) ∧
        url.scheme = scheme.map toLowerByte := by
  rw [parse_letters letters] at ok
  obtain ⟨found, parsed, ok⟩ := bind_eq_ok.mp ok
  rw [parseURL_letters letters some_] at parsed
  split at parsed
  · cases parsed
  · rename_i noControl
    obtain ⟨⟨host, path⟩, parts, rfl⟩ := map_eq_ok.mp parsed
    have same : url = ⟨scheme.map toLowerByte, host, path, (cutQuery (cut (byte '#') text).1).2,
        []⟩ := by
      split at ok
      · cases ok
        rfl
      · rename_i some_fragment
        obtain ⟨fragment, made, rfl⟩ := map_eq_ok.mp ok
        cases noFragment
        have nothing := unescape_ok_iff.mp made
        generalize (cut (byte '#') text).2 = rest at some_fragment nothing
        cases nothing
        exact absurd rfl some_fragment
    have short := cutQuery_spec (cut (byte '#') text).1
    have first : (cut (byte '#') text).1 <+: text := List.takeWhile_prefix _
    refine ⟨(cutQuery (cut (byte '#') text).1).1, short.1.trans first, ?_, short.2, ?_, ?_, ?_, ?_⟩
    · intro member
      exact notMem_takeWhile _ _ (short.1.subset member)
    · rw [List.any_eq_false]
      intro b member control
      exact noControl (List.any_eq_true.mpr ⟨b, short.1.subset member, control⟩)
    · intro noHash noQuery
      rw [cut_of_notMem noHash, cutQuery_of_notMem noQuery]
    · rw [parts, same]
    · rw [same]

theorem split_first {front back : Bytes} (none_ : sep ∉ front)
    (starts : back = [] ∨ back.head? = some sep) :
    (front ++ back).takeWhile (· != sep) = front ∧ (front ++ back).dropWhile (· != sep) = back := by
  have plain : ∀ b ∈ front, (b != sep) = true := by
    intro b member
    have other : b ≠ sep := by
      rintro rfl
      exact none_ member
    simpa using other
  rw [List.takeWhile_append_of_pos plain, List.dropWhile_append_of_pos plain]
  cases back with
  | nil => simp
  | cons b back =>
    have same : b = sep := by simpa using starts
    simp [same]

theorem parse_self (letters : ∀ b ∈ scheme, isAlpha b = true) (some_ : scheme ≠ []) {path : Bytes}
    (noHash : byte '#' ∉ host ++ path) (noQuery : byte '?' ∉ host ++ path)
    (noControl : (host ++ path).any isControl = false) (noSlash : byte '/' ∉ host)
    (noUser : byte '@' ∉ host) (rooted : path = [] ∨ path.head? = some (byte '/'))
    (parsed : parseHost host = .ok host) (noPercent : byte '%' ∉ path) :
    parse (scheme ++ bytes "://" ++ (host ++ path)) =
      .ok ⟨scheme.map toLowerByte, host, path, [], []⟩ := by
  have hostPart := split_first noSlash rooted
  have pathSame : unescape .path path = .ok path := by
    apply unescape_ok_iff.mpr
    apply Unescapes.of_plain
    intro b member
    refine ⟨?_, rfl⟩
    rintro rfl
    exact noPercent member
  have parts : hostAndPath (host ++ path) = .ok (host, path) := by
    rw [hostAndPath, hostPart.1, hostPart.2, parseAuthority_of_no_user noUser, parsed, pathSame]
    rfl
  rw [parse_letters letters, cut_of_notMem noHash, parseURL_letters letters some_,
    if_neg (by simp [noControl]), cutQuery_of_notMem noQuery, parts]
  rfl

end Url
