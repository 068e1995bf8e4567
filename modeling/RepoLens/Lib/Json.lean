import RepoLens.Lib.Utf8

/-!
JSON texts as `encoding/json` of Go writes them. Text is escaped for HTML, a broken
byte becomes the escape of U+FFFD, and the fields of an object keep their order.
-/

namespace Json

open Utf8

inductive Value where
  | null
  | bool (value : Bool)
  | number (digits : List Char)
  | string (text : Text)
  | array (items : List Value)
  | object (fields : List (String × Value))

def hexDigit (n : Nat) : Char := (n % 16).digitChar

/-- `\u00xx` -/
def unicodeEscape (c : Char) : List Char :=
  ['\\', 'u', '0', '0', hexDigit (c.toNat / 16), hexDigit c.toNat]

/-- What stands for a unit of a text inside of the quotes. -/
def escape : Rune → List Char
  | .bad _ => ['\\', 'u', 'f', 'f', 'f', 'd']
  | .char c =>
    if c = '"' ∨ c = '\\' then ['\\', c]
    else if c = '\x08' then ['\\', 'b']
    else if c = '\x0c' then ['\\', 'f']
    else if c = '\n' then ['\\', 'n']
    else if c = '\r' then ['\\', 'r']
    else if c = '\t' then ['\\', 't']
    else if c.toNat < 0x20 ∨ c = '<' ∨ c = '>' ∨ c = '&' then unicodeEscape c
    else if c = '\u2028' then ['\\', 'u', '2', '0', '2', '8']
    else if c = '\u2029' then ['\\', 'u', '2', '0', '2', '9']
    else [c]

def escapes (text : Text) : List Char := text.flatMap escape

def quoted (text : Text) : List Char := '"' :: (escapes text ++ ['"'])

mutual

def Value.encode : Value → List Char
  | .null => "null".toList
  | .bool true => "true".toList
  | .bool false => "false".toList
  | .number digits => digits
  | .string text => quoted text
  | .array items => '[' :: (encodeItems true items ++ [']'])
  | .object fields => '\x7b' :: (encodeFields true fields ++ ['\x7d'])

def encodeItems : Bool → List Value → List Char
  | _, [] => []
  | first, item :: items =>
    (if first then [] else [',']) ++ item.encode ++ encodeItems false items

def encodeFields : Bool → List (String × Value) → List Char
  | _, [] => []
  | first, (key, value) :: fields =>
    (if first then [] else [',']) ++ quoted (chars key) ++ ':' :: (value.encode ++
      encodeFields false fields)

end

def byteLength (text : List Char) : Nat := (text.map Char.utf8Size).sum

@[simp]
theorem byteLength_nil : byteLength [] = 0 := rfl

@[simp]
theorem byteLength_cons (c : Char) (text : List Char) :
    byteLength (c :: text) = c.utf8Size + byteLength text := by
  simp [byteLength]

@[simp]
theorem byteLength_append (first second : List Char) :
    byteLength (first ++ second) = byteLength first + byteLength second := by
  simp [byteLength]

theorem byteLength_ascii {text : List Char} (ascii : ∀ c ∈ text, c.toNat < 128) :
    byteLength text = text.length := by
  induction text with
  | nil => rfl
  | cons c text ih =>
    have ⟨first, rest⟩ := List.forall_mem_cons.mp ascii
    have one : c.utf8Size = 1 := by
      rw [Char.utf8Size_eq_one_iff]
      exact UInt32.le_iff_toNat_le.mpr (by change c.toNat ≤ 127; omega)
    rw [byteLength_cons, ih rest, one, List.length_cons]
    omega

theorem length_encode_chars (text : List Char) :
    (encode (text.map .char)).length = byteLength text := by
  induction text with
  | nil => rfl
  | cons c text ih =>
    rw [List.map_cons, encode_cons, List.length_append, ih, byteLength_cons, Rune.bytes,
      String.length_utf8EncodeChar]

theorem mark_sizes : ','.utf8Size = 1 ∧ ':'.utf8Size = 1 ∧ ' '.utf8Size = 1 ∧ '['.utf8Size = 1 ∧
    ']'.utf8Size = 1 ∧ '\x7b'.utf8Size = 1 ∧ '\x7d'.utf8Size = 1 := by decide

def fieldSize (field : String × Value) : Nat :=
  2 + byteLength (quoted (chars field.1)) + byteLength field.2.encode

-- The first field has no comma, which leaves room for one of the brackets.
theorem byteLength_encode_object {fields : List (String × Value)} (some_ : fields ≠ []) :
    byteLength (Value.object fields).encode = 1 + (fields.map fieldSize).sum := by
  have more (fields : List (String × Value)) :
      byteLength (encodeFields false fields) = (fields.map fieldSize).sum := by
    induction fields with
    | nil => rfl
    | cons field fields ih =>
      simp [encodeFields, ih, fieldSize, mark_sizes]
      omega
  cases fields with
  | nil => exact absurd rfl some_
  | cons field fields =>
    simp [Value.encode, encodeFields, more, fieldSize, mark_sizes]
    omega

/-- A line break of `json.Indent`, with two blanks for each level. -/
def newLine (depth : Nat) : List Char := '\n' :: List.replicate (2 * depth) ' '

-- `json.MarshalIndent`; an empty array or object stays on its line.
mutual

def Value.indent : Nat → Value → List Char
  | _, .null => "null".toList
  | _, .bool true => "true".toList
  | _, .bool false => "false".toList
  | _, .number digits => digits
  | _, .string text => quoted text
  | depth, .array items =>
    if items.isEmpty then ['[', ']']
    else '[' :: (indentItems (depth + 1) true items ++ newLine depth ++ [']'])
  | depth, .object fields =>
    if fields.isEmpty then ['\x7b', '\x7d']
    else '\x7b' :: (indentFields (depth + 1) true fields ++ newLine depth ++ ['\x7d'])

def indentItems : Nat → Bool → List Value → List Char
  | _, _, [] => []
  | depth, first, item :: items =>
    (if first then [] else [',']) ++ newLine depth ++ item.indent depth ++
      indentItems depth false items

def indentFields : Nat → Bool → List (String × Value) → List Char
  | _, _, [] => []
  | depth, first, (key, value) :: fields =>
    (if first then [] else [',']) ++ newLine depth ++ quoted (chars key) ++
      ':' :: ' ' :: (value.indent depth ++ indentFields depth false fields)

end

def fieldsSize (depth : Nat) : List (String × Value) → Nat
  | [] => 0
  | (key, value) :: fields => 3 + byteLength (newLine depth) + byteLength (quoted (chars key)) +
      byteLength (value.indent depth) + fieldsSize depth fields

def itemsSize (depth : Nat) : List Value → Nat
  | [] => 0
  | item :: items => 1 + byteLength (newLine depth) + byteLength (item.indent depth) +
      itemsSize depth items

theorem fieldsSize_append (depth : Nat) (one two : List (String × Value)) :
    fieldsSize depth (one ++ two) = fieldsSize depth one + fieldsSize depth two := by
  induction one with
  | nil => simp [fieldsSize]
  | cons field one ih =>
    simp only [List.cons_append, fieldsSize, ih]
    omega

theorem byteLength_indentFields (depth : Nat) (fields : List (String × Value)) :
    byteLength (indentFields depth false fields) = fieldsSize depth fields := by
  induction fields with
  | nil => simp [indentFields, fieldsSize]
  | cons field fields ih =>
    simp [indentFields, fieldsSize, ih, mark_sizes]
    omega

theorem byteLength_indentItems (depth : Nat) (items : List Value) :
    byteLength (indentItems depth false items) = itemsSize depth items := by
  induction items with
  | nil => simp [indentItems, itemsSize]
  | cons item items ih =>
    simp [indentItems, itemsSize, ih, mark_sizes]
    omega

theorem byteLength_indent_object (depth : Nat) {fields : List (String × Value)}
    (some_ : fields ≠ []) :
    byteLength ((Value.object fields).indent depth) =
      1 + byteLength (newLine depth) + fieldsSize (depth + 1) fields := by
  cases fields with
  | nil => exact absurd rfl some_
  | cons field fields =>
    simp [Value.indent, indentFields, fieldsSize, byteLength_indentFields, mark_sizes]
    omega

theorem byteLength_indent_array (depth : Nat) {items : List Value} (some_ : items ≠ []) :
    byteLength ((Value.array items).indent depth) =
      1 + byteLength (newLine depth) + itemsSize (depth + 1) items := by
  cases items with
  | nil => exact absurd rfl some_
  | cons item items =>
    simp [Value.indent, indentItems, itemsSize, byteLength_indentItems, mark_sizes]
    omega

def Value.ofString (s : String) : Value := .string (chars s)

def Value.ofInt (n : Int) : Value := .number (toString n).toList

theorem toString_marks {n : Int} {c : Char} (member : c ∈ (toString n).toList) :
    c.isDigit ∨ c = '-' := by
  have digits (n : Nat) (member : c ∈ n.repr.toList) : c.isDigit ∨ c = '-' := by
    rw [Nat.toList_repr] at member
    exact .inl (Nat.isDigit_of_mem_toDigits (by decide) (by decide) member)
  cases n with
  | ofNat n => exact digits n member
  | negSucc n =>
    have shape : (toString (Int.negSucc n)).toList = '-' :: (n + 1).repr.toList := by
      change ("-" ++ (n + 1).repr).toList = _
      rw [String.toList_append]
      rfl
    rw [shape, List.mem_cons] at member
    exact member.elim .inr (digits _)

theorem byteLength_ofInt (n : Int) :
    byteLength (Value.ofInt n).encode = (toString n).length := by
  change byteLength (toString n).toList = _
  rw [byteLength_ascii, String.length_toList]
  intro c member
  rcases toString_marks member with digit | rfl
  · simp [Char.isDigit, UInt32.le_iff_toNat_le] at digit
    omega
  · decide

end Json
