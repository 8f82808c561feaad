import LetLang.Text.Hex

/-
  JSON values and their indented text.

  An object keeps its fields in the order in which they were
  given. The text has one item or field a line, two spaces
  of indentation a level, and only printable ASCII
  characters; a character beyond the basic plane is written
  as two surrogates.

  Key definitions include:
    * `Json`
    * `Json.escape`
    * `Json.lines`
    * `Json.pretty`
-/

namespace LetLang

/- A JSON value without fractions or negative numbers. -/
inductive Json where
  | str (text : String)
  | num (value : Nat)
  | bool (value : Bool)
  | arr (items : List Json)
  | obj (fields : List (String × Json))
  deriving Repr, Inhabited

namespace Json

------------------------------------------------------------
-- Strings
------------------------------------------------------------

/- The escape of a 16-bit unit. -/
def escapeUnit
    (unit : Nat) : List Char :=
  '\\' :: 'u' :: Text.hex 4 unit

/-
  The escape of a character by its code point, in one or two
  16-bit units.
-/
def escapeCode
    (n : Nat) : List Char :=
  if n < 0x10000 then
    escapeUnit n
  else
    escapeUnit (0xd800 + (n - 0x10000) / 0x400)
      ++ escapeUnit (0xdc00 + (n - 0x10000) % 0x400)

/- How one character is written inside a string. -/
def escape
    (c : Char) : List Char :=
  if c = '"' ∨ c = '\\' then
    ['\\', c]
  else if c = '\n' then
    ['\\', 'n']
  else if c = '\r' then
    ['\\', 'r']
  else if c = '\t' then
    ['\\', 't']
  else if c = '\x08' then
    ['\\', 'b']
  else if c = '\x0c' then
    ['\\', 'f']
  else if ' ' ≤ c ∧ c ≤ '~' then
    [c]
  else
    escapeCode c.toNat

/- A text as a JSON string. -/
def string
    (text : String) : String :=
  String.ofList
    ('"' :: text.toList.flatMap escape ++ ['"'])

------------------------------------------------------------
-- Lines
------------------------------------------------------------

/- A line at a given depth of nesting. -/
def line
    (depth : Nat)
    (text : String) : String :=
  String.ofList (List.replicate (2 * depth) ' ') ++ text

/- What closes a line that has more items after it. -/
def separator {α : Type}
    (after : List α) : String :=
  if after.isEmpty then "" else ","

mutual

/-
  The lines of a value at some depth. The lead stands before
  the value on its first line, the trail after it on its
  last one.
-/
def lines
    (depth : Nat)
    (lead : String)
    (trail : String) : Json → List String
  | .str text =>
      [line depth (lead ++ string text ++ trail)]
  | .num value =>
      [line depth (lead ++ toString value ++ trail)]
  | .bool true =>
      [line depth (lead ++ "true" ++ trail)]
  | .bool false =>
      [line depth (lead ++ "false" ++ trail)]
  | .arr items =>
      if items.isEmpty then
        [line depth (lead ++ "[]" ++ trail)]
      else
        line depth (lead ++ "[")
          :: itemLines (depth + 1) items
          ++ [line depth ("]" ++ trail)]
  | .obj fields =>
      if fields.isEmpty then
        [line depth (lead ++ "\x7b\x7d" ++ trail)]
      else
        line depth (lead ++ "\x7b")
          :: fieldLines (depth + 1) fields
          ++ [line depth ("\x7d" ++ trail)]

/- The lines of the items of an array. -/
def itemLines
    (depth : Nat) : List Json → List String
  | [] => []
  | item :: items =>
      lines depth "" (separator items) item
        ++ itemLines depth items

/- The lines of the fields of an object. -/
def fieldLines
    (depth : Nat) :
    List (String × Json) → List String
  | [] => []
  | field :: fields =>
      namedLines depth (separator fields) field
        ++ fieldLines depth fields

/- The lines of a value after its name. -/
def namedLines
    (depth : Nat)
    (trail : String) :
    String × Json → List String
  | (name, value) =>
      lines depth (string name ++ ": ") trail value

end

/- The indented text of a value. -/
def pretty
    (value : Json) : String :=
  "\n".intercalate (value.lines 0 "" "")

end Json

end LetLang
