import SourceAtlas.Failure

/-!
# Making directories with their parents

Two ways of making a directory that may lie in directories that do not exist yet.

`makePath` tries the directory first and goes up only when its parent is missing; it is used below
an extraction directory.  `makeAll` goes up first, as far as nothing exists; it is used for the
directories that a service keeps its data in.  They differ in the error they report and in what a
failure leaves behind.
-/

namespace SourceAtlas.Action

/-- Make one directory; if it exists already, that is a failure unless `reuse` is set and the path
leads to a directory. -/
def makeOne (reuse : Bool) (path : String) : Action Unit := do
  let fs ← get
  match fs.makeDirectory path with
  | .ok fs => set fs
  | .error (.os code) =>
    if code ≠ .notFound ∧ reuse = true ∧ fs.leadsToDirectory path = true then pure ()
    else throw (.file (.os code))
  | .error .nullByte => throw (.file .nullByte)

/-- Make a directory, and the ones above it if they are missing.  The names are given from the last
one up. -/
def makeUpwards (slashes : Nat) (reuse : Bool) : List String → Action Unit
  | [] => makeOne reuse (PurePath.toString ⟨slashes, []⟩)
  | name :: above => do
    let path := PurePath.toString ⟨slashes, (name :: above).reverse⟩
    let fs ← get
    match fs.makeDirectory path with
    | .error (.os .notFound) =>
      makeUpwards slashes true above
      makeOne reuse path
    | _ => makeOne reuse path

/-- Make a directory, and the ones above it if they are missing. -/
def makePath (reuse : Bool) (path : PurePath) : Action Unit :=
  makeUpwards path.slashes reuse path.names.reverse

/-- The directory part and the last name of a path, trailing slashes disregarded. -/
def headAndTail (path : String) : String × String :=
  if Path.base path = "" then
    let head := Path.directory path
    (Path.directory head, Path.base head)
  else (Path.directory path, Path.base path)

/-- Make one directory, which may exist already. -/
def makeOrReuse (path : String) : Action Unit := do
  let fs ← get
  match fs.makeDirectory path with
  | .ok fs => set fs
  | .error (.os code) =>
    if fs.leadsToDirectory path = true then pure () else throw (.file (.os code))
  | .error .nullByte => throw (.file .nullByte)

/-- Make a directory after the missing ones above it.  A path that ends in `.` exists as soon as the
directory before it does.  Each level up has a shorter path, so `fuel` levels are enough if it is
at least the length of the path. -/
def makeAllFrom : Nat → String → Action Unit
  | 0, path => makeOrReuse path
  | fuel + 1, path => do
    let (head, tail) := headAndTail path
    if head ≠ "" ∧ tail ≠ "" ∧ (← get).pathExists head = false then
      tryCatch (makeAllFrom fuel head) fun failure =>
        if failure = .file (.os .exists) then pure () else throw failure
      if tail = "." then return
    makeOrReuse path

/-- Make a directory that may exist already, after the missing ones above it. -/
def makeAll (path : String) : Action Unit :=
  makeAllFrom path.length path

end SourceAtlas.Action
