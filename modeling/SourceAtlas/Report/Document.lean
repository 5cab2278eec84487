import SourceAtlas.Text.Quoted

/-!
# Documents in JSON

A report is a document of texts, whole numbers, lists and records.  `render` writes it in JSON, with
one item or field a line, two blanks of indentation for each level, and ASCII characters only: any
other character is written by its UTF-16 code units.
-/

namespace SourceAtlas

/-- A document.  The fields of a record have an order. -/
inductive Document
  | text (value : String)
  | number (value : Int)
  | list (items : List Document)
  | record (fields : List (String × Document))

namespace Document

/-! ## Texts -/

/-- The escape for a UTF-16 code unit. -/
def unitEscape (unit : Nat) : List Char :=
  '\\' :: 'u' :: Text.hexPadded 4 unit

/-- A character inside a text. -/
def escapeChar (c : Char) : List Char :=
  let n := c.toNat
  if c = '"' ∨ c = '\\' then ['\\', c]
  else if c = '\n' then ['\\', 'n']
  else if c = '\r' then ['\\', 'r']
  else if c = '\t' then ['\\', 't']
  else if n = 8 then ['\\', 'b']
  else if n = 12 then ['\\', 'f']
  else if 0x20 ≤ n ∧ n < 0x7F then [c]
  else if n < 0x10000 then unitEscape n
  else unitEscape (0xD800 + (n - 0x10000) / 0x400) ++ unitEscape (0xDC00 + (n - 0x10000) % 0x400)

/-- A text between quotes. -/
def renderText (value : String) : String :=
  String.ofList ('"' :: value.toList.flatMap escapeChar ++ ['"'])

/-! ## Documents -/

/-- The start of a line at a level. -/
def newline (level : Nat) : String :=
  String.ofList ('\n' :: List.replicate (2 * level) ' ')

mutual

/-- A document at a level. -/
def renderAt (level : Nat) : Document → String
  | .text value => renderText value
  | .number value => toString value
  | .list [] => "[]"
  | .list (item :: items) =>
    "[" ++ newline (level + 1) ++ renderAt (level + 1) item ++ renderItems (level + 1) items ++
      newline level ++ "]"
  | .record [] => "\x7b\x7d"
  | .record ((name, value) :: fields) =>
    "\x7b" ++ newline (level + 1) ++ renderText name ++ ": " ++ renderAt (level + 1) value ++
      renderFields (level + 1) fields ++ newline level ++ "\x7d"

/-- The items of a list after the first one. -/
def renderItems (level : Nat) : List Document → String
  | [] => ""
  | item :: items => "," ++ newline level ++ renderAt level item ++ renderItems level items

/-- The fields of a record after the first one. -/
def renderFields (level : Nat) : List (String × Document) → String
  | [] => ""
  | (name, value) :: fields =>
    "," ++ newline level ++ renderText name ++ ": " ++ renderAt level value ++
      renderFields level fields

end

/-- A document in JSON. -/
def render (document : Document) : String :=
  renderAt 0 document

example : render (.record [("a", .list [.number 1, .text "é\"\x7f"]), ("b", .list [])]) =
    "\x7b\n  \"a\": [\n    1,\n    \"\\u00e9\\\"\\u007f\"\n  ],\n  \"b\": []\n\x7d" := by
  decide +kernel

end Document

end SourceAtlas
