import SourceAtlas.Files.Lookup
import SourceAtlas.Path.Pure

/-!
# Operations on the file system

The single steps that a program asks of the operating system: make a directory, open a file for
writing or for reading, remove a name, remove an empty directory.  Each is a function that yields
the changed file system or the reason of the refusal, so a refused step changes nothing.

Steps that concern the last name itself (`makeDirectory`, `unlink`, `removeDirectory`) do not follow
a link there, whether or not slashes trail the path.
-/

namespace SourceAtlas.FileSystem

/-- The names of a path text without regard to trailing slashes. -/
def bareRoute (path : String) : List String :=
  (Path.segments path).filter (· ≠ "")

/-- Whether slashes trail a path that has a name. -/
def hasTrailingSlash (path : String) : Bool :=
  bareRoute path ≠ [] ∧ path.toList.getLast? = some '/'

/-- The last name of a path text, if it is one that a directory can hold. -/
def lastName? (path : String) : Option String :=
  match (bareRoute path).getLast? with
  | some name => if name = "." ∨ name = ".." then none else some name
  | none => none

/-- Make a directory.  The root, `.` and `..` exist already, wherever they are. -/
def makeDirectory (fs : FileSystem) (path : String) : Except FileError FileSystem :=
  match fs.walkText false path (bareRoute path) with
  | .error e => .error e
  | .ok (.entry _) => .error (.os .exists)
  | .ok (.vacant parent name) => .ok (fs.insert (parent ++ [name]) .directory)

/-- Open a file for writing: an existing file is emptied, a missing one is created, also where a
dangling link points.  Yields the location of the file. -/
def openForWriting (fs : FileSystem) (path : String) : Except FileError (Location × FileSystem) :=
  if hasTrailingSlash path then
    match fs.walkText true path (bareRoute path).dropLast with
    | .error e => .error e
    | .ok (.vacant _ _) => .error (.os .notFound)
    | .ok (.entry parent) =>
      .error (.os (if fs.isDirectory parent then .isDirectory else .notDirectory))
  else
    match fs.lookup true path with
    | .error e => .error e
    | .ok (.vacant parent name) =>
      .ok (parent ++ [name], fs.insert (parent ++ [name]) (.file .empty))
    | .ok (.entry location) =>
      if fs.isDirectory location then .error (.os .isDirectory)
      else .ok (location, fs.overwrite location .empty)

/-- Create a file that must not exist yet; a link counts as existing, wherever it points. -/
def createNew (fs : FileSystem) (path : String) : Except FileError (Location × FileSystem) :=
  match fs.lookup false path with
  | .error e => .error e
  | .ok (.entry _) => .error (.os .exists)
  | .ok (.vacant parent name) =>
    .ok (parent ++ [name], fs.insert (parent ++ [name]) (.file .empty))

/-- Read a file.  A pipe has no content to be read. -/
def readFile (fs : FileSystem) (path : String) : Except FileError ByteArray :=
  match fs.locate true path with
  | .error e => .error e
  | .ok location =>
    match fs.get? location with
    | some (.file content) => .ok content
    | some .directory => .error (.os .isDirectory)
    | _ => .error (.os .invalid)

/-- Remove the name of something that is not a directory. -/
def unlink (fs : FileSystem) (path : String) : Except FileError FileSystem :=
  match fs.walkText false path (bareRoute path) with
  | .error e => .error e
  | .ok (.vacant _ _) => .error (.os .notFound)
  | .ok (.entry location) =>
    if lastName? path = none ∨ fs.isDirectory location then .error (.os .isDirectory)
    else if hasTrailingSlash path then .error (.os .notDirectory)
    else .ok (fs.eraseTree location)

/-- Remove an empty directory, by a path that ends in its name. -/
def removeDirectory (fs : FileSystem) (path : String) : Except FileError FileSystem :=
  match fs.walkText false path (bareRoute path) with
  | .error e => .error e
  | .ok (.vacant _ _) => .error (.os .notFound)
  | .ok (.entry location) =>
    match (bareRoute path).getLast? with
    | none => .error (.os .busy)
    | some "." => .error (.os .invalid)
    | some ".." => .error (.os .notEmpty)
    | some _ =>
      if ¬ fs.isDirectory location then .error (.os .notDirectory)
      else if fs.names location ≠ [] then .error (.os .notEmpty)
      else .ok (fs.eraseTree location)

end SourceAtlas.FileSystem
