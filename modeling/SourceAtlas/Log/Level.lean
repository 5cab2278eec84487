import SourceAtlas.Text.Case

/-!
# The log level

The root of the log has a threshold, which is set by name.  Names are compared in upper case, an
unknown name means the default, and setting the level attaches the one handler that writes the
records unless it is attached already.

Two names are reserved, since they stand for something that is no level.  Asking for one of them is
a fault, and then nothing changes.
-/

namespace SourceAtlas.Log

/-- The state of the root of the log: its threshold, and how many handlers are attached. -/
structure Root where
  level : Nat
  handlers : Nat
deriving DecidableEq, Repr

/-- The state before any level was set. -/
def Root.initial : Root := ⟨30, 0⟩

/-- The thresholds and their names. -/
def levels : List (String × Nat) :=
  [("CRITICAL", 50), ("FATAL", 50), ("ERROR", 40), ("WARNING", 30), ("WARN", 30), ("INFO", 20),
    ("DEBUG", 10), ("NOTSET", 0)]

/-- The threshold for an unknown name. -/
def defaultLevel : Nat := 20

/-- The reserved names: the layout of a record, and the table of layout styles. -/
inductive Reserved
  | layout
  | styles
deriving DecidableEq, Repr

/-- The reserved names as they are spelled. -/
def reservedNames : List (String × Reserved) :=
  [("BASIC_FORMAT", .layout), ("_STYLES", .styles)]

/-- The wording of the fault that asking for a reserved name is. -/
def Reserved.message : Reserved → String
  | .layout => "Unknown level: '%(levelname)s:%(name)s:%(message)s'"
  | .styles =>
    "Level not an integer or a valid string: \x7b'%': (<class 'logging.PercentStyle'>, " ++
      "'%(levelname)s:%(name)s:%(message)s'), '\x7b': (<class 'logging.StrFormatStyle'>, " ++
      "'\x7blevelname\x7d:\x7bname\x7d:\x7bmessage\x7d'), '$': " ++
      "(<class 'logging.StringTemplateStyle'>, " ++
      "'$\x7blevelname\x7d:$\x7bname\x7d:$\x7bmessage\x7d')\x7d"

/-- The threshold that a name stands for. -/
def levelOf (name : String) : Except Reserved Nat :=
  match Text.upperAscii? name with
  | none => .ok defaultLevel
  | some name =>
    match reservedNames.lookup name with
    | some reserved => .error reserved
    | none => .ok ((levels.lookup name).getD defaultLevel)

/-- Set the level by name and attach the handler. -/
def Root.configure (root : Root) (name : String) : Except Reserved Root :=
  (levelOf name).map fun level => ⟨level, max root.handlers 1⟩

end SourceAtlas.Log
