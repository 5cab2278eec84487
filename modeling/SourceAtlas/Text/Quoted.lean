import SourceAtlas.Text.Printable

/-!
# Quoted texts

Messages name a file or a setting by its quoted text.  The text stands between single quotes, or
between double quotes when it holds a single quote and no double one; the quote in use, the
backslash and the characters that are not printable are written as escapes.  Bytes are quoted in the
same way, with a `b` in front and an escape for every byte outside printable ASCII.
-/

namespace SourceAtlas.Text

/-- A number in lower-case hexadecimal, filled up with zeros to a width. -/
def hexPadded (width : Nat) (value : Nat) : List Char :=
  let digits := Nat.toDigits 16 value
  List.replicate (width - digits.length) '0' ++ digits

/-- The quotation mark for a text. -/
def quoteFor (text : List Char) : Char :=
  if text.contains '\'' && !text.contains '"' then '"' else '\''

/-- The escapes that a quoted text and quoted bytes share: the backslash, the quote in use and
the three common layout characters. -/
def commonEscape? (quote : Char) (c : Char) : Option (List Char) :=
  if c = '\\' || c = quote then some ['\\', c]
  else if c = '\n' then some ['\\', 'n']
  else if c = '\r' then some ['\\', 'r']
  else if c = '\t' then some ['\\', 't']
  else none

/-- A character inside a quoted text. -/
def quotedChar (quote : Char) (c : Char) : List Char :=
  match commonEscape? quote c with
  | some escape => escape
  | none =>
    if isPrintable c then [c]
    else if c.toNat < 0x100 then '\\' :: 'x' :: hexPadded 2 c.toNat
    else if c.toNat < 0x10000 then '\\' :: 'u' :: hexPadded 4 c.toNat
    else '\\' :: 'U' :: hexPadded 8 c.toNat

/-- A text between quotes. -/
def quoted (text : String) : String :=
  let quote := quoteFor text.toList
  String.ofList (quote :: text.toList.flatMap (quotedChar quote) ++ [quote])

/-- A byte inside quoted bytes. -/
def quotedByte (quote : Char) (byte : UInt8) : List Char :=
  let c := Char.ofNat byte.toNat
  match commonEscape? quote c with
  | some escape => escape
  | none =>
    if 0x20 ≤ byte.toNat && byte.toNat < 0x7F then [c] else '\\' :: 'x' :: hexPadded 2 byte.toNat

/-- Bytes between quotes. -/
def quotedBytes (bytes : List UInt8) : String :=
  let quote := quoteFor (bytes.map fun byte => Char.ofNat byte.toNat)
  String.ofList ('b' :: quote :: bytes.flatMap (quotedByte quote) ++ [quote])

example : quoted "it's" = "\"it's\"" ∧ quoted "a\\\n" = "'a\\\\\\n'" := by decide +kernel

end SourceAtlas.Text
