import Mathlib

/-!
Byte strings read as UTF-8 in the way of the Go runtime: a byte that starts no encoded character
is a unit of its own, and the text goes on with the next byte.
-/

namespace Utf8

/-- A decoded unit of a byte string. -/
inductive Rune where
  | char (c : Char)
  /-- A byte that starts no character. -/
  | bad (byte : UInt8)
  deriving DecidableEq, Repr

namespace Rune

def value : Rune → Char
  | .char c => c
  | .bad _ => '\ufffd'

def bytes : Rune → List UInt8
  | .char c => String.utf8EncodeChar c
  | .bad byte => [byte]

theorem bytes_ne_nil (rune : Rune) : rune.bytes ≠ [] := by
  cases rune with
  | char c =>
    apply List.ne_nil_of_length_pos
    rw [bytes, String.length_utf8EncodeChar]
    exact c.utf8Size_pos
  | bad byte => simp [bytes]

end Rune

abbrev Text := List Rune

def encode (text : Text) : List UInt8 := text.flatMap Rune.bytes

def firstChar (bytes : List UInt8) : Option Char := (bytes.take 4).toByteArray.utf8DecodeChar? 0

/-- Decode behind `skip` bytes that belong to the last character. -/
def decodeFrom : Nat → List UInt8 → Text
  | _, [] => []
  | skip + 1, _ :: rest => decodeFrom skip rest
  | 0, byte :: rest =>
    match firstChar (byte :: rest) with
    | some c => .char c :: decodeFrom (c.utf8Size - 1) rest
    | none => .bad byte :: decodeFrom 0 rest

def decode (bytes : List UInt8) : Text := decodeFrom 0 bytes

def chars (s : String) : Text := s.toList.map .char

def ofString (s : String) : List UInt8 := encode (chars s)

theorem encode_append (first second : Text) :
    encode (first ++ second) = encode first ++ encode second :=
  List.flatMap_append

theorem encode_cons (rune : Rune) (text : Text) :
    encode (rune :: text) = rune.bytes ++ encode text :=
  List.flatMap_cons

theorem decodeFrom_skip (skip : Nat) (bytes : List UInt8) :
    decodeFrom skip bytes = decode (bytes.drop skip) := by
  induction skip generalizing bytes with
  | zero => rfl
  | succ skip ih =>
    cases bytes with
    | nil => rfl
    | cons byte rest => exact ih rest

theorem firstChar_encode (c : Char) (rest : List UInt8) :
    firstChar (String.utf8EncodeChar c ++ rest) = some c := by
  have size : (String.utf8EncodeChar c).length ≤ 4 := by
    rw [String.length_utf8EncodeChar]
    exact c.utf8Size_le_four
  rw [firstChar, List.take_append, List.take_of_length_le size, List.toByteArray_append]
  exact ByteArray.utf8DecodeChar?_utf8EncodeChar_append

variable {c : Char}

theorem encode_of_firstChar {bytes : List UInt8} (found : firstChar bytes = some c) :
    ∃ rest, bytes = String.utf8EncodeChar c ++ rest := by
  obtain ⟨more, same⟩ := ByteArray.exists_of_utf8DecodeChar?_eq_some found
  refine ⟨more.data.toList ++ bytes.drop 4, ?_⟩
  have start : bytes.take 4 = String.utf8EncodeChar c ++ more.data.toList := by
    have := congrArg (fun array => array.data.toList) same
    simpa using this
  rw [← List.append_assoc, ← start, List.take_append_drop]

theorem decode_char_append (c : Char) (rest : List UInt8) :
    decode (String.utf8EncodeChar c ++ rest) = .char c :: decode rest := by
  have size : (String.utf8EncodeChar c).length = c.utf8Size := String.length_utf8EncodeChar c
  have first := firstChar_encode c rest
  cases shape : String.utf8EncodeChar c with
  | nil =>
    have positive := c.utf8Size_pos
    rw [shape, List.length_nil] at size
    omega
  | cons byte more =>
    rw [shape] at first size
    have tail : c.utf8Size - 1 = more.length := by
      rw [← size, List.length_cons, Nat.add_sub_cancel]
    rw [List.cons_append, decode, decodeFrom, ← List.cons_append, first]
    simp only [decodeFrom_skip, tail, List.drop_left]

theorem decode_encode_append (cs : List Char) (rest : List UInt8) :
    decode (encode (cs.map .char) ++ rest) = cs.map .char ++ decode rest := by
  induction cs with
  | nil => rfl
  | cons c cs ih =>
    rw [List.map_cons, encode_cons, Rune.bytes, List.append_assoc, decode_char_append, ih]
    rfl

theorem decode_encode (cs : List Char) : decode (encode (cs.map .char)) = cs.map .char := by
  have whole := decode_encode_append cs []
  rwa [List.append_nil, show decode [] = [] from rfl, List.append_nil] at whole

theorem encode_decode (bytes : List UInt8) : encode (decode bytes) = bytes := by
  induction size : bytes.length using Nat.strong_induction_on generalizing bytes with
  | _ n ih =>
    cases bytes with
    | nil => rfl
    | cons byte rest =>
      rw [decode, decodeFrom]
      cases found : firstChar (byte :: rest) with
      | none =>
        have later := ih rest.length (by simp [← size]) rest rfl
        simp only [encode_cons, Rune.bytes]
        rw [show decodeFrom 0 rest = decode rest from rfl, later]
        rfl
      | some c =>
        obtain ⟨more, same⟩ := encode_of_firstChar found
        have whole := decode_char_append c more
        rw [← same, decode, decodeFrom, found] at whole
        simp only at whole ⊢
        rw [whole, encode_cons, Rune.bytes, ih more.length _ more rfl, ← same]
        rw [← size, same, List.length_append, String.length_utf8EncodeChar]
        have positive := c.utf8Size_pos
        omega

theorem map_value_char (cs : List Char) : (cs.map Rune.char).map Rune.value = cs := by
  rw [List.map_map]
  exact List.map_id cs

def Valid (bytes : List UInt8) : Prop := ∃ cs : List Char, bytes = encode (cs.map .char)

theorem valid_iff {bytes : List UInt8} :
    Valid bytes ↔ ∀ rune ∈ decode bytes, ∃ c, rune = .char c := by
  constructor
  · rintro ⟨cs, rfl⟩ rune member
    rw [decode_encode] at member
    obtain ⟨c, _, rfl⟩ := List.mem_map.mp member
    exact ⟨c, rfl⟩
  · intro whole
    refine ⟨(decode bytes).map Rune.value, ?_⟩
    have same : ((decode bytes).map Rune.value).map .char = decode bytes := by
      rw [List.map_map, List.map_congr_left (g := id), List.map_id]
      intro rune member
      obtain ⟨c, rfl⟩ := whole rune member
      rfl
    rw [same, encode_decode]

theorem ofString_inj {s t : String} : ofString s = ofString t ↔ s = t := by
  constructor
  · intro same
    have decoded := congrArg decode same
    rw [ofString, ofString, chars, chars, decode_encode, decode_encode] at decoded
    exact String.toList_inj.mp (List.map_injective_iff.mpr (fun _ _ => Rune.char.inj) decoded)
  · intro same
    rw [same]

theorem mem_encode_ascii {cs : List Char} {b : UInt8} (ascii : b.toNat < 128)
    (member : b ∈ encode (cs.map .char)) : ∃ c ∈ cs, c.toNat = b.toNat := by
  simp only [encode, List.mem_flatMap, List.mem_map, exists_exists_and_eq_and, Rune.bytes] at member
  obtain ⟨c, among, byte⟩ := member
  refine ⟨c, among, ?_⟩
  have number : c.val.toNat = c.toNat := rfl
  simp only [String.utf8EncodeChar, number] at byte
  -- the bytes of a longer encoding are all from 128 on
  split_ifs at byte <;> simp only [List.mem_cons, List.not_mem_nil, or_false] at byte
  · simp only [byte, UInt8.toNat_ofNat']
    omega
  all_goals
    rcases byte with rfl | rfl | rfl | rfl <;> simp only [UInt8.toNat_ofNat'] at ascii <;> omega

variable {byte : UInt8}

theorem firstChar_append_ascii (low : byte.toNat < 128) {first : UInt8} {bytes : List UInt8}
    (found : firstChar (first :: bytes) = none) (rest : List UInt8) :
    firstChar (first :: bytes ++ byte :: rest) = none := by
  by_contra starts
  obtain ⟨d, starts⟩ := Option.ne_none_iff_exists'.mp starts
  obtain ⟨more, same⟩ := encode_of_firstChar starts
  rcases List.append_eq_append_iff.mp same with ⟨inside, whole, overlap⟩ | ⟨inside, whole, _⟩
  · cases inside with
    | nil =>
      rw [List.append_nil] at whole
      rw [← whole, ← List.append_nil (String.utf8EncodeChar d), firstChar_encode] at found
      cases found
    | cons head inside =>
      -- the character would go on over the byte, and then it has no byte below 128
      rw [List.cons_append, List.cons.injEq] at overlap
      have member : byte ∈ encode ([d].map .char) := by
        simp [encode, Rune.bytes, whole, overlap.1]
      obtain ⟨e, among, number⟩ := mem_encode_ascii low member
      rw [List.mem_singleton] at among
      have size : d.utf8Size = 1 := by
        rw [Char.utf8Size_eq_one_iff, ← among, UInt32.le_iff_toNat_le]
        have value : e.val.toNat = e.toNat := rfl
        simp only [value, UInt32.reduceToNat]
        omega
      have length := congrArg List.length whole
      rw [String.length_utf8EncodeChar, size] at length
      simp at length
  · rw [whole, firstChar_encode] at found
    cases found

theorem utf8EncodeChar_ascii {c : Char} (ascii : c.toNat < 128) :
    ∃ byte : UInt8, String.utf8EncodeChar c = [byte] ∧ byte.toNat = c.toNat := by
  have number : c.val.toNat = c.toNat := rfl
  simp only [String.utf8EncodeChar, number]
  rw [if_pos (by omega)]
  exact ⟨_, rfl, by rw [UInt8.toNat_ofNat']; omega⟩

theorem decode_append_ascii (ascii : c.toNat < 128) (bytes rest : List UInt8) :
    decode (bytes ++ String.utf8EncodeChar c ++ rest) = decode bytes ++ .char c :: decode rest := by
  obtain ⟨byte, single, number⟩ := utf8EncodeChar_ascii ascii
  have low : byte.toNat < 128 := by omega
  induction size : bytes.length using Nat.strong_induction_on generalizing bytes with
  | _ n ih =>
    cases bytes with
    | nil => exact decode_char_append c rest
    | cons first bytes =>
      cases found : firstChar (first :: bytes) with
      | some d =>
        obtain ⟨more, same⟩ := encode_of_firstChar found
        have shorter : more.length < n := by
          rw [← size, same, List.length_append, String.length_utf8EncodeChar]
          have positive := d.utf8Size_pos
          omega
        rw [same, List.append_assoc, List.append_assoc, decode_char_append, decode_char_append,
          ← List.append_assoc, ih _ shorter more rfl]
        rfl
      | none =>
        have stuck := firstChar_append_ascii low found rest
        have later := ih _ (by simp [← size]) bytes rfl
        rw [single, List.append_assoc, List.singleton_append] at later ⊢
        rw [List.cons_append] at stuck ⊢
        simp only [decode, decodeFrom, stuck, found, List.cons_append] at later ⊢
        rw [later]

def isSpace (c : Char) : Bool :=
  ['\t', '\n', '\x0b', '\x0c', '\r', ' ', '\u0085', '\u00a0', '\u1680', '\u2028', '\u2029',
    '\u202f', '\u205f', '\u3000'].contains c || ('\u2000' ≤ c && c ≤ '\u200a')

/-- `strings.TrimFunc` -/
def trim {α : Type} (cut : α → Bool) (text : List α) : List α :=
  ((text.dropWhile cut).reverse.dropWhile cut).reverse

def trimSpace (s : String) : String := String.ofList (trim isSpace s.toList)

/-- `strings.TrimSpace` on any bytes -/
def trimBytes (text : List UInt8) : List UInt8 :=
  encode (trim (fun rune => isSpace rune.value) (decode text))

def fields (text : Text) : List Text :=
  (text.splitOnP fun rune => isSpace rune.value).filter (· ≠ [])

theorem fields_append_right {α : Type} [DecidableEq α] {cut : α → Bool} {text back : List α}
    (backs : ∀ a ∈ back, cut a = true) :
    ((text ++ back).splitOnP cut).filter (· ≠ []) = (text.splitOnP cut).filter (· ≠ []) := by
  induction back generalizing text with
  | nil => rw [List.append_nil]
  | cons a back ih =>
    rw [List.splitOnP_append_cons _ _ (backs a List.mem_cons_self), List.filter_append]
    have rest := @ih [] fun b member => backs b (List.mem_cons_of_mem _ member)
    rw [List.nil_append] at rest
    rw [rest]
    simp

theorem fields_append_left {α : Type} [DecidableEq α] {cut : α → Bool} {front text : List α}
    (fronts : ∀ a ∈ front, cut a = true) :
    ((front ++ text).splitOnP cut).filter (· ≠ []) = (text.splitOnP cut).filter (· ≠ []) := by
  induction front with
  | nil => rfl
  | cons a front ih =>
    rw [List.cons_append, List.splitOnP_cons_eq_if_modifyHead, if_pos (fronts a List.mem_cons_self),
      List.filter_cons_of_neg (by simp), ih fun b member =>
        fronts b (List.mem_cons_of_mem _ member)]

theorem splitOnP_subset {α : Type} {cut : α → Bool} {text part : List α}
    (member : part ∈ text.splitOnP cut) : part ⊆ text := by
  induction text generalizing part with
  | nil =>
    rw [List.splitOnP_nil, List.mem_singleton] at member
    simp [member]
  | cons a text ih =>
    rw [List.splitOnP_cons_eq_if_modifyHead] at member
    obtain ⟨first, rest, shape⟩ := List.exists_cons_of_ne_nil (List.splitOnP_ne_nil cut text)
    split at member
    · rcases List.mem_cons.mp member with rfl | later
      · simp
      · exact List.subset_cons_of_subset a (ih later)
    · rw [shape, List.modifyHead_cons, List.mem_cons] at member
      rcases member with rfl | later
      · exact List.cons_subset_cons a (ih (by simp [shape]))
      · exact List.subset_cons_of_subset a (ih (by simp [shape, later]))

theorem fields_subset {text field : Text} (member : field ∈ fields text) : field ⊆ text :=
  splitOnP_subset (List.mem_filter.mp member).1

section Trim

variable {α : Type} {cut : α → Bool}

theorem trim_spec (cut : α → Bool) (text : List α) :
    ∃ front back, text = front ++ trim cut text ++ back ∧
    (∀ a ∈ front, cut a = true) ∧ ∀ a ∈ back, cut a = true := by
  refine ⟨text.takeWhile cut, ((text.dropWhile cut).reverse.takeWhile cut).reverse, ?_, ?_, ?_⟩
  · have ends :=
      congrArg List.reverse (List.takeWhile_append_dropWhile (p := cut)
      (l := (text.dropWhile cut).reverse))
    rw [List.reverse_append, List.reverse_reverse] at ends
    rw [trim, List.append_assoc, ends, List.takeWhile_append_dropWhile]
  · exact fun a member => List.mem_takeWhile_imp member
  · exact fun a member => List.mem_takeWhile_imp (List.mem_reverse.mp member)

variable {text : List α}

theorem mem_trim {a : α} (member : a ∈ text) (kept : cut a = false) : a ∈ trim cut text := by
  obtain ⟨front, back, shape, fronts, backs⟩ := trim_spec cut text
  rw [shape, List.mem_append, List.mem_append] at member
  rcases member with (early | inside) | late
  · rw [fronts a early] at kept
    cases kept
  · exact inside
  · rw [backs a late] at kept
    cases kept

theorem trim_eq_self (kept : ∀ a ∈ text, cut a = false) : trim cut text = text := by
  obtain ⟨front, back, shape, fronts, backs⟩ := trim_spec cut text
  have none_cut {part : List α} (within : part ⊆ text) (cuts : ∀ a ∈ part, cut a = true) : part =
      [] := by
    apply List.eq_nil_iff_forall_not_mem.mpr
    intro a member
    exact absurd (cuts a member) (by simp [kept a (within member)])
  have front_nil : front = [] := none_cut (by rw [shape]; simp) fronts
  have back_nil : back = [] := none_cut (by rw [shape]; simp) backs
  rw [front_nil, back_nil, List.nil_append, List.append_nil] at shape
  exact shape.symm

theorem trim_append_left {front : List α} (fronts : ∀ a ∈ front, cut a = true) :
    trim cut (front ++ text) = trim cut text := by
  rw [trim, List.dropWhile_append_of_pos fronts, trim]

theorem trim_append_right {back : List α} (backs : ∀ a ∈ back, cut a = true) :
    trim cut (text ++ back) = trim cut text := by
  unfold trim
  by_cases all : ∀ a ∈ text, cut a = true
  · have none_left : ∀ {l : List α}, (∀ a ∈ l, cut a = true) → l.dropWhile cut = [] := by
      intro l cuts
      rw [List.dropWhile_eq_nil_iff]
      exact cuts
    rw [List.dropWhile_append_of_pos all, none_left all, none_left backs]
  · have starts : (text ++ back).dropWhile cut = text.dropWhile cut ++ back := by
      rw [List.dropWhile_append, if_neg]
      rw [List.isEmpty_iff, List.dropWhile_eq_nil_iff]
      exact all
    rw [starts, List.reverse_append, List.dropWhile_append_of_pos]
    exact fun a member => backs a (List.mem_reverse.mp member)

theorem not_cut_of_head_dropWhile {text : List α} {a : α}
    (head : (text.dropWhile cut).head? = some a) :
    cut a = false := by
  have first := List.head?_dropWhile_not cut text
  rw [head] at first
  exact first

theorem trim_head {text : List α} {a : α} (head : (trim cut text).head? = some a) :
    cut a = false := by
  apply @not_cut_of_head_dropWhile α cut text
  have starts : trim cut text <+: text.dropWhile cut := by
    rw [← List.reverse_suffix, trim, List.reverse_reverse]
    exact List.dropWhile_suffix cut
  obtain ⟨rest, shape⟩ := starts
  rw [← shape, List.head?_append, head]
  rfl

theorem trim_last {text : List α} {a : α} (last : (trim cut text).getLast? = some a) :
    cut a = false := by
  rw [trim, List.getLast?_reverse] at last
  exact not_cut_of_head_dropWhile last

theorem dropWhile_eq_self {a : α} (head : text.head? = some a) (kept : cut a = false) :
    text.dropWhile cut = text := by
  cases text with
  | nil => rfl
  | cons b text =>
    cases head
    rw [List.dropWhile_cons_of_neg (by simp [kept])]

theorem initial_trim {start : List α} {a b : α} (head : start.head? = some a)
    (last : start.getLast? = some b) (first : cut a = false) (final : cut b = false)
    (rest : List α) : start <+: trim cut (start ++ rest) := by
  have begins : (start ++ rest).dropWhile cut = start ++ rest :=
    dropWhile_eq_self (by rw [List.head?_append, head, Option.some_or]) first
  have ends : start.reverse.dropWhile cut = start.reverse :=
    dropWhile_eq_self (by rw [List.head?_reverse, last]) final
  rw [← List.reverse_suffix, trim, begins, List.reverse_reverse, List.reverse_append,
    List.dropWhile_append]
  split
  · rw [ends]
  · exact List.suffix_append _ _

end Trim

theorem decode_eq_cons {bytes : List UInt8} {rune : Rune} {text : Text}
    (shape : decode bytes = rune :: text) :
    bytes = rune.bytes ++ encode text ∧ decode (encode text) = text := by
  have whole := encode_decode bytes
  rw [shape, encode_cons] at whole
  refine ⟨whole.symm, ?_⟩
  cases bytes with
  | nil => cases shape
  | cons byte rest =>
    rw [decode, decodeFrom] at shape
    cases found : firstChar (byte :: rest) with
    | none =>
      simp only [found, List.cons.injEq] at shape
      rw [← shape.2, show decodeFrom 0 rest = decode rest from rfl, encode_decode]
    | some c =>
      simp only [found, List.cons.injEq] at shape
      rw [← shape.2, decodeFrom_skip, encode_decode]

theorem decode_encode_of_suffix {bytes : List UInt8} {front back : Text}
    (shape : decode bytes = front ++ back) :
    decode (encode back) = back := by
  induction front generalizing bytes with
  | nil => rw [← List.nil_append back, ← shape, encode_decode]
  | cons rune front ih =>
    obtain ⟨-, later⟩ := decode_eq_cons shape
    exact ih later

theorem decode_bad_append {front back : List UInt8} {text : Text}
    (shape : decode (byte :: front ++ back) = .bad byte :: text) :
    decode (byte :: front) = .bad byte :: decode front := by
  cases found : firstChar (byte :: front) with
  | none =>
    simp only [decode, decodeFrom, found]
  | some d =>
    obtain ⟨more, same⟩ := encode_of_firstChar found
    rw [same, List.append_assoc, decode_char_append] at shape
    cases shape

theorem decode_encode_of_initial {bytes : List UInt8} {front back : Text}
    (shape : decode bytes = front ++ back) :
    decode (encode front) = front := by
  induction front generalizing bytes with
  | nil => rfl
  | cons rune front ih =>
    obtain ⟨same, later⟩ := @decode_eq_cons bytes rune (front ++ back) shape
    cases rune with
    | char c => rw [encode_cons, Rune.bytes, decode_char_append, ih later]
    | bad byte =>
      rw [same, encode_append, Rune.bytes, List.singleton_append, ← List.cons_append] at shape
      rw [encode_cons, Rune.bytes, List.singleton_append, decode_bad_append shape, ih later]

theorem ofNat_ascii (low : byte.toNat < 128) :
    String.utf8EncodeChar (Char.ofNat byte.toNat) = [byte] := by
  have number : (Char.ofNat byte.toNat).toNat = byte.toNat := by
    rw [Char.toNat_ofNat, if_pos]
    left
    omega
  obtain ⟨same, single, value⟩ := utf8EncodeChar_ascii (by rw [number]; exact low)
  rw [single, UInt8.toNat_inj.mp (value.trans number)]

theorem decode_append_of_head {front back : List UInt8}
    (starts : ∀ byte ∈ back.head?, byte.toNat < 128) :
    decode (front ++ back) = decode front ++ decode back := by
  cases back with
  | nil => simp [decode, decodeFrom]
  | cons byte back =>
    have low : byte.toNat < 128 := starts byte rfl
    have ascii : (Char.ofNat byte.toNat).toNat < 128 := by
      rw [Char.toNat_ofNat, if_pos]
      · exact low
      · left
        omega
    have both := decode_append_ascii ascii front back
    have own := decode_append_ascii ascii [] back
    rw [ofNat_ascii low, List.append_assoc, List.singleton_append] at both
    rw [ofNat_ascii low, List.nil_append, List.singleton_append] at own
    rw [both, own]
    rfl

theorem high_of_bad {bytes : List UInt8} (member : .bad byte ∈ decode bytes) :
    128 ≤ byte.toNat := by
  obtain ⟨front, back, shape⟩ := List.append_of_mem member
  have start := decode_encode_of_suffix shape
  by_contra low
  rw [encode_cons, Rune.bytes, ← ofNat_ascii (by omega), decode_char_append] at start
  cases start

theorem count_utf8EncodeChar_ascii (low : byte.toNat < 128) (c : Char) :
    (String.utf8EncodeChar c).count byte = if c.toNat = byte.toNat then 1 else 0 := by
  split
  · rename_i same
    obtain ⟨single, shape, number⟩ := utf8EncodeChar_ascii (by omega : c.toNat < 128)
    rw [shape, UInt8.toNat_inj.mp (number.trans same), List.count_singleton_self]
  · rename_i other
    rw [List.count_eq_zero]
    intro member
    obtain ⟨d, among, number⟩ :=
      @mem_encode_ascii [c] byte low (by simpa [encode, Rune.bytes] using member)
    rw [List.mem_singleton.mp among] at number
    exact other number

theorem decode_trimBytes (bytes : List UInt8) :
    decode (trimBytes bytes) = trim (fun rune => isSpace rune.value) (decode bytes) := by
  obtain ⟨front, back, shape, -, -⟩ :=
    trim_spec (fun rune : Rune => isSpace rune.value) (decode bytes)
  rw [List.append_assoc] at shape
  exact decode_encode_of_initial (decode_encode_of_suffix shape)

theorem trimBytes_head {bytes : List UInt8} {rune : Rune}
    (head : (decode (trimBytes bytes)).head? = some rune) :
    isSpace rune.value = false := by
  rw [decode_trimBytes] at head
  exact @trim_head Rune (fun rune => isSpace rune.value) _ rune head

theorem trimBytes_last {bytes : List UInt8} {rune : Rune}
    (last : (decode (trimBytes bytes)).getLast? = some rune) :
    isSpace rune.value = false := by
  rw [decode_trimBytes] at last
  exact @trim_last Rune (fun rune => isSpace rune.value) _ rune last

theorem encode_initial {first second : Text} (starts : first <+: second) :
    encode first <+: encode second := by
  obtain ⟨rest, rfl⟩ := starts
  exact ⟨encode rest, (encode_append _ _).symm⟩

theorem trimBytes_valid_iff {bytes : List UInt8} : Valid (trimBytes bytes) ↔ Valid bytes := by
  rw [valid_iff, valid_iff, decode_trimBytes]
  constructor
  · intro whole rune member
    cases rune with
    | char c => exact ⟨c, rfl⟩
    | bad byte => exact whole _ (mem_trim member (by exact (by decide : isSpace '\ufffd' = false)))
  · intro whole rune member
    obtain ⟨front, back, shape, -, -⟩ :=
      trim_spec (fun rune : Rune => isSpace rune.value) (decode bytes)
    apply whole
    rw [shape]
    simp [member]

theorem length_encode_trim_le (cut : Rune → Bool) (text : Text) :
    (encode (trim cut text)).length ≤ (encode text).length := by
  obtain ⟨front, back, shape, -, -⟩ := trim_spec cut text
  have whole := congrArg (fun text => (encode text).length) shape
  simp only [encode_append, List.length_append] at whole
  omega

theorem length_trimBytes_le (bytes : List UInt8) : (trimBytes bytes).length ≤ bytes.length := by
  have shorter := length_encode_trim_le (fun rune => isSpace rune.value) (decode bytes)
  rwa [encode_decode] at shorter

theorem decode_space_cons (rest : List UInt8) : decode (32 :: rest) = .char ' ' :: decode rest :=
  decode_char_append ' ' rest

theorem decode_append_space (bytes rest : List UInt8) :
    decode (bytes ++ 32 :: rest) = decode bytes ++ .char ' ' :: decode rest := by
  have ends := decode_append_ascii (by decide : ' '.toNat < 128) bytes rest
  rwa [show String.utf8EncodeChar ' ' = [32] from by decide, List.append_assoc] at ends

theorem trimBytes_space_cons (rest : List UInt8) : trimBytes (32 :: rest) = trimBytes rest := by
  have front : ∀ rune ∈ [Rune.char ' '], isSpace rune.value = true := by decide
  rw [trimBytes, decode_space_cons, ← List.singleton_append, trim_append_left front, trimBytes]

theorem trimBytes_append_spaces (bytes : List UInt8) (n : Nat) :
    trimBytes (bytes ++ List.replicate n 32) = trimBytes bytes := by
  induction n with
  | zero => rw [List.replicate_zero, List.append_nil]
  | succ n ih =>
    have back : ∀ rune ∈ [Rune.char ' '], isSpace rune.value = true := by decide
    rw [List.replicate_succ', ← List.append_assoc, trimBytes, decode_append_space,
      show decode [] = [] from rfl, trim_append_right back, ← trimBytes, ih]

def Across (limit : Nat) (cs : List Char) : Prop :=
  ∃ before c after, cs = before ++ c :: after ∧ (encode (before.map .char)).length < limit ∧
    limit < (encode ((before ++ [c]).map .char)).length

theorem valid_append {first second : List UInt8} (one : Valid first) (two : Valid second) :
    Valid (first ++ second) := by
  obtain ⟨cs, rfl⟩ := one
  obtain ⟨ds, rfl⟩ := two
  exact ⟨cs ++ ds, by rw [List.map_append, encode_append]⟩

theorem valid_of_ascii {bytes : List UInt8} (ascii : ∀ byte ∈ bytes, byte.toNat < 128) :
    Valid bytes := by
  induction bytes with
  | nil => exact ⟨[], rfl⟩
  | cons byte bytes ih =>
    have single := ofNat_ascii (ascii byte List.mem_cons_self)
    have first : Valid [byte] := ⟨[Char.ofNat byte.toNat], by simp [encode, Rune.bytes, single]⟩
    exact valid_append first (ih fun b member => ascii b (List.mem_cons_of_mem _ member))

theorem valid_take_append_ascii {bytes tail : List UInt8} (whole : Valid bytes)
    (ascii : ∀ byte ∈ tail, byte.toNat < 128) (limit : Nat) :
    Valid ((bytes ++ tail).take limit) ↔ Valid (bytes.take limit) := by
  rw [List.take_append]
  rcases Nat.lt_or_ge limit bytes.length with inside | behind
  · rw [Nat.sub_eq_zero_of_le inside.le, List.take_zero, List.append_nil]
  · rw [List.take_of_length_le behind]
    refine iff_of_true (valid_append whole ?_) whole
    exact valid_of_ascii fun byte member => ascii byte (List.mem_of_mem_take member)

theorem valid_char_append {bytes : List UInt8} :
    Valid (String.utf8EncodeChar c ++ bytes) ↔ Valid bytes := by
  rw [valid_iff, valid_iff, decode_char_append]
  simp

theorem not_valid_part {limit : Nat} (some_ : 0 < limit) (part : limit < c.utf8Size) :
    ¬ Valid ((String.utf8EncodeChar c).take limit) := by
  rintro ⟨cs, same⟩
  have size := String.length_utf8EncodeChar c
  have length := congrArg List.length same
  rw [List.length_take, size, Nat.min_eq_left part.le] at length
  cases cs with
  | nil =>
    simp [encode] at length
    omega
  | cons d cs =>
    have whole := List.take_append_drop limit (String.utf8EncodeChar c)
    rw [same, List.map_cons, encode_cons, Rune.bytes, List.append_assoc] at whole
    have first := firstChar_encode c []
    rw [List.append_nil, ← whole, firstChar_encode, Option.some.injEq] at first
    rw [List.map_cons, encode_cons, Rune.bytes, List.length_append, first, size] at length
    omega

theorem across_cons_iff {limit : Nat} {cs : List Char} (whole : c.utf8Size ≤ limit) :
    Across limit (c :: cs) ↔ Across (limit - c.utf8Size) cs := by
  have size (before : List Char) : (encode ((c :: before).map .char)).length =
      c.utf8Size + (encode (before.map .char)).length := by
    rw [List.map_cons, encode_cons, Rune.bytes, List.length_append, String.length_utf8EncodeChar]
  constructor
  · rintro ⟨before, d, after, shape, low, high⟩
    cases before with
    | nil =>
      rw [List.nil_append, List.cons.injEq] at shape
      rw [List.nil_append, ← shape.1, size] at high
      simp [encode] at high
      omega
    | cons first before =>
      rw [List.cons_append, List.cons.injEq] at shape
      obtain ⟨rfl, shape⟩ := shape
      rw [size] at low
      rw [List.cons_append, size] at high
      exact ⟨before, d, after, shape, by omega, by omega⟩
  · rintro ⟨before, d, after, shape, low, high⟩
    refine ⟨c :: before, d, after, by rw [shape, List.cons_append], ?_, ?_⟩
    · rw [size]
      omega
    · rw [List.cons_append, size]
      omega

theorem not_across_of_short {limit : Nat} {cs : List Char}
    (short : (encode (cs.map .char)).length ≤ limit) :
    ¬ Across limit cs := by
  rintro ⟨before, c, after, rfl, -, high⟩
  rw [List.append_cons, List.map_append, encode_append, List.length_append] at short
  omega

theorem valid_take_iff (limit : Nat) (cs : List Char) :
    Valid ((encode (cs.map .char)).take limit) ↔ ¬ Across limit cs := by
  induction cs generalizing limit with
  | nil =>
    refine iff_of_true ⟨[], by simp [encode]⟩ ?_
    rintro ⟨before, c, after, shape, -, -⟩
    simp at shape
  | cons c cs ih =>
    have size := String.length_utf8EncodeChar c
    rw [List.map_cons, encode_cons, Rune.bytes]
    rcases Nat.lt_or_ge limit c.utf8Size with short | whole
    · rw [List.take_append_of_le_length (by omega)]
      rcases Nat.eq_zero_or_pos limit with rfl | some_
      · refine iff_of_true ⟨[], by simp [encode]⟩ ?_
        rintro ⟨before, d, after, -, low, -⟩
        omega
      · refine iff_of_false (not_valid_part some_ short) (not_not_intro ⟨[], c, cs, rfl, some_, ?_⟩)
        simpa [encode, Rune.bytes, size] using short
    · rw [List.take_append, List.take_of_length_le (by omega), valid_char_append, size, ih,
        across_cons_iff whole]

/-- A table of small letters. -/
structure LowerCase where
  toLower : Char → Char
  toLower_ascii : ∀ c, c.toNat < 128 → toLower c = c.toLower
  toLower_letter : ∀ c, 128 ≤ c.toNat → (toLower c).toNat < 128 → (toLower c).isLower = true
  toLower_idem : ∀ c, toLower (toLower c) = toLower c

namespace LowerCase

/-- A text in small letters, with broken bytes replaced. -/
def lower (table : LowerCase) (text : List UInt8) : List UInt8 :=
  encode ((decode text).map fun rune => .char (table.toLower rune.value))

theorem latin_letter (c : Char) (high : 128 ≤ c.toNat) (low : c.toLower.toNat < 128) :
    c.toLower.isLower = true := by
  have other : ¬ c.isUpper = true := by
    intro upper
    have range : 65 ≤ c.toNat ∧ c.toNat ≤ 90 := by
      simpa [Char.isUpper, UInt32.le_iff_toNat_le] using upper
    omega
  rw [Char.toLower_eq_of_not_isUpper other] at low
  omega

def latin : LowerCase :=
  ⟨Char.toLower, fun _ _ => rfl, latin_letter, Char.toLower_toLower_eq_toLower⟩

end LowerCase

end Utf8
