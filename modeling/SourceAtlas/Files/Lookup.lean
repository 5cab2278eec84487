import SourceAtlas.Files.Basic
import SourceAtlas.Path.Lexical

/-!
# Following a path

A path text is followed name by name from the root or from the working directory.  `.` stays, `..`
goes to the parent directory, and a symbolic link is replaced by its target, at most
`linkBudget` times in one look-up.

`advance` goes as far as it can without following a link; it is recursion on the names that are
left.  `walk` takes the detours, one for each unit of the budget.  Both end at an `Arrival`: an
entry that exists, or a vacant name in a directory that exists.

A trailing slash asks for a directory.  It is read as a final `.`, which makes a link at the end of
the path be followed and a regular file there be refused.

Before a path text is followed, its size is held against `maxPathBytes`; what counts there is the
text as it is given, also the parts of it that lead nowhere, such as `./`.
-/

namespace SourceAtlas

/-- Why the file system refuses an operation. -/
inductive Errno
  | exists
  | notFound
  | notDirectory
  | isDirectory
  | notEmpty
  | invalid
  | nameTooLong
  | tooManyLinks
  | busy
deriving DecidableEq, Repr

/-- The conventional name of an error code. -/
def Errno.name : Errno → String
  | .exists => "EEXIST"
  | .notFound => "ENOENT"
  | .notDirectory => "ENOTDIR"
  | .isDirectory => "EISDIR"
  | .notEmpty => "ENOTEMPTY"
  | .invalid => "EINVAL"
  | .nameTooLong => "ENAMETOOLONG"
  | .tooManyLinks => "ELOOP"
  | .busy => "EBUSY"

/-- Why an operation on a path fails: the file system refuses it, or the path text holds a zero
character and never reaches the file system. -/
inductive FileError
  | os (code : Errno)
  | nullByte
deriving DecidableEq, Repr

/-- Where following a path ends. -/
inductive Arrival
  | entry (location : Location)
  | vacant (parent : Location) (name : String)
deriving DecidableEq, Repr

/-- How far a path can be followed without following a link. -/
inductive Leg
  | arrived (arrival : Arrival)
  | detour (start : Location) (names : List String)
  | stopped (code : Errno)

/-- How many links one look-up follows. -/
def linkBudget : Nat := 40

/-- The greatest size of a path text, in bytes of its UTF-8 form. -/
def maxPathBytes : Nat := 4095

namespace FileSystem

/-- The names to walk for a path text; a trailing slash becomes a final `.`. -/
def route (path : String) : List String :=
  let names := (Path.segments path).filter (· ≠ "")
  if names ≠ [] ∧ path.toList.getLast? = some '/' then names ++ ["."] else names

/-- Where the walk of a path text starts. -/
def origin (path : String) (directory : Location) : Location :=
  if Path.isAbsolute path then [] else directory

/-- Walk along names until they are used up, a link is to be followed, or the walk is stopped.  A
link at the very end is followed only on request. -/
def advance (fs : FileSystem) (followLast : Bool) : Location → List String → Leg
  | here, [] => .arrived (.entry here)
  | here, name :: rest =>
    match fs.get? here with
    | none => .stopped .notFound
    | some .directory =>
      if name = "." then fs.advance followLast here rest
      else if name = ".." then fs.advance followLast here.dropLast rest
      else if maxNameBytes < name.utf8ByteSize then .stopped .nameTooLong
      else
        match fs.get? (here ++ [name]) with
        | none => if rest = [] then .arrived (.vacant here name) else .stopped .notFound
        | some (.link target) =>
          if rest = [] ∧ followLast = false then .arrived (.entry (here ++ [name]))
          else .detour (origin target here) (route target ++ rest)
        | some _ => fs.advance followLast (here ++ [name]) rest
    | some _ => .stopped .notDirectory

/-- Walk along names, following links as long as the budget lasts. -/
def walk (fs : FileSystem) (followLast : Bool) :
    Nat → Location → List String → Except Errno Arrival
  | budget, here, names =>
    match fs.advance followLast here names with
    | .arrived arrival => .ok arrival
    | .stopped code => .error code
    | .detour start names =>
      match budget with
      | 0 => .error .tooManyLinks
      | budget + 1 => fs.walk followLast budget start names

/-- Refuse a path text with a zero character, an empty one and one that is too long. -/
def checkText (path : String) : Except FileError Unit :=
  if '\x00' ∈ path.toList then .error .nullByte
  else if path = "" then .error (.os .notFound)
  else if maxPathBytes < path.utf8ByteSize then .error (.os .nameTooLong)
  else .ok ()

/-- Walk along given names from where the path text starts. -/
def walkText (fs : FileSystem) (followLast : Bool) (path : String) (names : List String) :
    Except FileError Arrival :=
  match checkText path with
  | .error e => .error e
  | .ok () =>
    match fs.walk followLast linkBudget (origin path fs.workingDirectory) names with
    | .ok arrival => .ok arrival
    | .error code => .error (.os code)

/-- Follow a path text. -/
def lookup (fs : FileSystem) (followLast : Bool) (path : String) : Except FileError Arrival :=
  fs.walkText followLast path (route path)

/-- The location of the entry that a path text leads to. -/
def locate (fs : FileSystem) (followLast : Bool) (path : String) : Except FileError Location :=
  match fs.lookup followLast path with
  | .error e => .error e
  | .ok (.entry location) => .ok location
  | .ok (.vacant _ _) => .error (.os .notFound)

/-- What a path text leads to, links followed, if it leads anywhere. -/
def node? (fs : FileSystem) (path : String) : Option Node :=
  (fs.locate true path).toOption.bind fs.get?

/-- Whether a path leads to an existing entry, links followed. -/
def pathExists (fs : FileSystem) (path : String) : Bool :=
  (fs.node? path).isSome

/-- Whether a path leads to a directory, links followed. -/
def leadsToDirectory (fs : FileSystem) (path : String) : Bool :=
  fs.node? path = some .directory

/-- Whether a path leads to a regular file, links followed. -/
def leadsToFile (fs : FileSystem) (path : String) : Bool :=
  match fs.node? path with
  | some (.file _) => true
  | _ => false

/-- Whether a path names a symbolic link. -/
def leadsToLink (fs : FileSystem) (path : String) : Bool :=
  match (fs.locate false path).toOption.bind fs.get? with
  | some (.link _) => true
  | _ => false

end FileSystem

/-- The absolute path text of a location. -/
def Location.toPath (location : Location) : String :=
  "/" ++ Path.ofSegments location

end SourceAtlas
