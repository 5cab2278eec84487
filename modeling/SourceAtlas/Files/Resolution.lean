import SourceAtlas.Files.Lookup

/-!
# Resolving a path

To resolve a path is to name the place it leads to without any symbolic link, whether or not that
place exists.  Names that are missing are kept, `..` after them takes off the last one, and nothing
is refused for being missing or for being no directory.

A link that is met again while its own target is being resolved has no such place.  Then the rest of
the path is appended to that link unresolved and only `.` and `..` are worked off
(`Resolution.looping`); whether the result is usable is decided by following it.

`expand` resolves a list of names.  It needs a level of recursion for each link inside the target of
another one; since a link inside its own target ends the search, there are at most as many levels as
the file system has links.
-/

namespace SourceAtlas

/-- The outcome of resolving: a place without links on the way, or what is left when a link leads
back to itself. -/
inductive Resolution
  | settled (location : Location)
  | looping (location : Location)
deriving DecidableEq, Repr

/-- Work off `.`, `..` and empty names without looking at the file system. -/
def Location.descend (location : Location) (names : List String) : Location :=
  names.foldl (fun here name =>
    if name = "" ∨ name = "." then here
    else if name = ".." then here.dropLast
    else here ++ [name]) location

namespace FileSystem

/-- The segments of a link target, and where they start. -/
def targetStart (directory : Location) (target : String) : Location :=
  if Path.isAbsolute target then [] else directory

/-- The segments of a path text after the slash that makes it absolute. -/
def relativeSegments (path : String) : List String :=
  let parts := Path.segments path
  if Path.isAbsolute path then parts.drop 1 else parts

/-- Append the names that are left behind a looping link.  An empty name in front of others stands
for a second slash, with which the path starts anew at the root. -/
def appendRest (location : Location) : List String → Location
  | "" :: next :: rest => Location.descend [] (next :: rest)
  | rest => location.descend rest

/-- Resolve names from a place that is resolved already.  `follow` resolves the target of a link:
it gets the link, the place where its target starts and the names of the target. -/
def expandWith (fs : FileSystem) (follow : Location → Location → List String → Resolution) :
    Location → List String → Resolution
  | here, [] => .settled here
  | here, name :: rest =>
    if name = "" ∨ name = "." then fs.expandWith follow here rest
    else if name = ".." then fs.expandWith follow here.dropLast rest
    else
      match fs.get? (here ++ [name]) with
      | some (.link target) =>
        match follow (here ++ [name]) (targetStart here target) (relativeSegments target) with
        | .settled there => fs.expandWith follow there rest
        | .looping there => .looping (appendRest there rest)
      | _ => fs.expandWith follow (here ++ [name]) rest

/-- Resolve names, given the links whose targets are being resolved. -/
def expand (fs : FileSystem) :
    Nat → List Location → Location → List String → Resolution
  | 0, _, here, names => fs.expandWith (fun link _ _ => .looping link) here names
  | depth + 1, active, here, names =>
    fs.expandWith
      (fun link start target =>
        if link ∈ active then .looping link
        else fs.expand depth (link :: active) start target)
      here names

/-- How many links the file system has. -/
def linkCount (fs : FileSystem) : Nat :=
  fs.entries.countP fun entry => match entry.2 with
    | .link _ => true
    | _ => false

/-- Resolve a path text. -/
def resolution (fs : FileSystem) (path : String) : Resolution :=
  fs.expand fs.linkCount [] (targetStart fs.workingDirectory path) (relativeSegments path)

/-- Why a path has no resolved form. -/
inductive ResolutionError
  | nullByte
  | linkLoop (path : String)
deriving DecidableEq, Repr

/-- The resolved form of a path.  A form that is left over from a loop is refused if following it
exhausts the budget for links. -/
def resolve (fs : FileSystem) (path : String) : Except ResolutionError Location :=
  if '\x00' ∈ path.toList then .error .nullByte
  else
    match fs.resolution path with
    | .settled location => .ok location
    | .looping location =>
      match fs.locate true location.toPath with
      | .error (.os .tooManyLinks) => .error (.linkLoop location.toPath)
      | _ => .ok location

end FileSystem

end SourceAtlas
