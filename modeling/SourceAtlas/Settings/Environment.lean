import SourceAtlas.Config.Load
import SourceAtlas.Settings.File

/-!
# Settings files as part of the environment

A settings file extends the environment: a name that the environment binds already keeps its value
there, whatever the file says, and of several lines for one name in the file the last one counts.

A value in the file may refer to other names, as `$` and the name between braces, with an optional
fallback after `:-`.  A reference is looked up in the environment first and then among the lines
above; the fallback is for a name that is found in neither.

The environment can also ask for the file to be left alone (`Environment.ignoresFile`).
-/

namespace SourceAtlas

namespace Settings

/-! ## References in values -/

/-- A piece of a value: a character that stands for itself, or a reference. -/
inductive Piece
  | literal (c : Char)
  | reference (name : String) (fallback : Option String)
deriving DecidableEq, Repr

/-- A reference at the start of a text, read from behind its opening brace, and what follows it. -/
def reference? (text : List Char) : Option (Piece × List Char) :=
  let isName := fun c => c ≠ '\x7d' ∧ c ≠ ':'
  let name := String.ofList (text.takeWhile isName)
  match text.dropWhile isName with
  | '\x7d' :: rest => some (.reference name none, rest)
  | ':' :: '-' :: rest =>
    match rest.dropWhile (· ≠ '\x7d') with
    | [] => none
    | _ :: after =>
      some (.reference name (some (String.ofList (rest.takeWhile (· ≠ '\x7d')))), after)
  | _ => none

/-- The pieces of a value.  Each piece takes up at least one character, so `fuel` pieces are enough
if it is the length of the text. -/
def piecesFrom : Nat → List Char → List Piece
  | 0, _ => []
  | _, [] => []
  | fuel + 1, c :: rest =>
    match c, rest with
    | '$', '\x7b' :: after =>
      match reference? after with
      | some (piece, rest) => piece :: piecesFrom fuel rest
      | none => .literal c :: piecesFrom fuel rest
    | _, _ => .literal c :: piecesFrom fuel rest

/-- The pieces of a value. -/
def pieces (value : String) : List Piece :=
  piecesFrom value.length value.toList

/-- What a piece stands for, given what names are bound to.  A name without a value stands for the
empty text. -/
def Piece.resolve (lookup : String → Option (Option String)) : Piece → String
  | .literal c => String.ofList [c]
  | .reference name fallback =>
    match lookup name with
    | some value => value.getD ""
    | none => fallback.getD ""

/-- A value with its references replaced. -/
def expand (lookup : String → Option (Option String)) (value : String) : String :=
  String.join ((pieces value).map (Piece.resolve lookup))

/-- The binding of a name among the lines above, given latest first. -/
def lookupAbove (above : List Binding) (name : String) : Option (Option String) :=
  (above.find? fun binding => binding.name = name).map Binding.value

/-- Replace the references in all values.  `above` holds the lines done so far, latest first; the
result is in this order too. -/
def expandAll (environment : Environment) : List Binding → List Binding → List Binding
  | above, [] => above
  | above, binding :: rest =>
    let lookup := fun name =>
      match environment.lookup name with
      | some value => some (some value)
      | none => lookupAbove above name
    expandAll environment (⟨binding.name, binding.value.map (expand lookup)⟩ :: above) rest

/-! ## Extending the environment -/

/-- A binding as a part of the environment. -/
def exported (name value : String) : Except ExportFault (String × String) :=
  if '\x00' ∈ name.toList ∨ '\x00' ∈ value.toList then .error .nullByte
  else if '=' ∈ name.toList then .error .illegalName
  else .ok (name, value)

/-- Add the bindings of names, each with the value it has at last, to an environment. -/
def addBindings (environment : Environment) (lines : List Binding) :
    List String → Except ExportFault Environment
  | [] => .ok environment
  | name :: names =>
    match environment.lookup name, lookupAbove lines name with
    | none, some (some value) =>
      match exported name value with
      | .error fault => .error fault
      | .ok binding => addBindings (environment ++ [binding]) lines names
    | _, _ => addBindings environment lines names

/-- The name that switches settings files off. -/
def switchName : String := "PYTHON_DOTENV_DISABLED"

/-- The values that mean "yes", in lower case. -/
def affirmations : List String := ["1", "true", "t", "yes", "y"]

/-- A text without regard to case, good enough to be compared with ASCII words.  Outside ASCII the
long s is read as `s`; the sign that is read as `k` and the ligatures are in none of the words. -/
def foldCase (text : String) : String :=
  String.ofList (text.toList.map fun c => if c = '\u017f' then 's' else c.toLower)

end Settings

namespace Environment

open Settings

/-- Whether an environment asks for settings files to be left alone. -/
def ignoresFile (environment : Environment) : Bool :=
  (environment.lookup switchName).any fun value => affirmations.contains (foldCase value)

/-- Extend an environment by the bindings of a settings file. -/
def withFile (environment : Environment) (content : String) : Except ExportFault Environment :=
  if environment.ignoresFile then .ok environment
  else
    let lines := bindings content
    addBindings environment (expandAll environment [] lines) (lines.map Binding.name).eraseDups

example :
    (withFile [("A", "0")] "A=1\nB=$\x7bA\x7d$\x7bC:-x\x7d\nB2=$\x7bB\x7d").toOption =
      some [("A", "0"), ("B", "0x"), ("B2", "0x")] := by decide +kernel
example :
    (withFile [(switchName, "Yes")] "A=1").toOption = some [(switchName, "Yes")] ∧
      (withFile [(switchName, "0")] "A=1").toOption =
        some [(switchName, "0"), ("A", "1")] := by decide +kernel

end Environment

end SourceAtlas
