import SourceAtlas.Imports.Specifier
import SourceAtlas.Path.Lexical

/-!
# What a specifier refers to

A specifier is looked up relative to the directory of the importing file, as a path text: first as
it stands, then with each code extension appended, then as a directory with an index file.  The
first candidate among the known files is what the specifier refers to.
-/

namespace SourceAtlas.Imports

/-- The extensions of code files, in the order in which they are tried. -/
def codeExtensions : List String :=
  [".js", ".jsx", ".ts", ".tsx"]

/-- Whether a path has the extension of a code file, in any case. -/
def isCodeFile (path : String) : Bool :=
  codeExtensions.contains (Path.lowerExtension path)

/-- The path that a specifier spells, relative to the project. -/
def basePath (importer specifier : String) : String :=
  Path.normalize (Path.append (Path.directory (Path.slashed importer)) (Path.slashed specifier))

/-- The paths that a specifier may refer to, in the order of preference. -/
def candidates (importer specifier : String) : List String :=
  let base := basePath importer specifier
  base :: codeExtensions.map (fun extension => base ++ extension) ++
    codeExtensions.map fun extension => Path.normalize (Path.append base ("index" ++ extension))

/-- The known file that a specifier refers to. -/
def resolve? (importer specifier : String) (known : List String) : Option String :=
  (candidates importer specifier).find? fun candidate => known.contains candidate

end SourceAtlas.Imports
