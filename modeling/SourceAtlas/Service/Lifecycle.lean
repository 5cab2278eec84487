import SourceAtlas.ProgramFault
import SourceAtlas.Service.Target
import SourceAtlas.Service.Upload

/-!
# The life of the service

A service is started from an environment: the configuration is read, the log level set, the
directories are made and the sweeper is taken into use.  Then it answers requests until it is shut
down.

`respond` answers a request without a body by its method and the path that its target leads to.
-/

namespace SourceAtlas

/-- The places that requests are addressed to. -/
inductive Route
  | health
  | upload
  | description
deriving DecidableEq, Repr

namespace Route

/-- The paths of the places. -/
def table : List (String × Route) :=
  [("/health", .health), ("/upload", .upload), ("/openapi.json", .description),
    ("/docs", .description), ("/docs/oauth2-redirect", .description), ("/redoc", .description)]

/-- The methods that a place answers to. -/
def methods : Route → List String
  | .health => ["GET"]
  | .upload => ["POST"]
  | .description => ["GET", "HEAD"]

/-- The place that a target leads to. -/
def ofTarget? (target : String) : Option Route :=
  table.lookup (Target.path target)

/-- Whether a place answers to a method, which may be written in lower case. -/
def accepts (route : Route) (method : String) : Bool :=
  route.methods.contains (String.ofList (method.toList.map Char.toUpper))

end Route

namespace Service

/-- Answer a request without a body.  The descriptions of the service are not kept here. -/
def respond (method target : String) : Reply :=
  match Route.ofTarget? target with
  | none => .refused .notFound
  | some route =>
    if !route.accepts method then .refused .methodNotAllowed
    else
      match route with
      | .health => .healthy
      | .upload => .refused .noFile
      | .description => .refused .notFound

/-- Start a service at a time. -/
def startUp (libraries : Libraries) (environment : Except ExportFault Environment)
    (identifier : Nat → String) (now : Binary64) (files : FileSystem) :
    Except ProgramFault Service × FileSystem :=
  match Config.load environment with
  | .error fault => (.error (.setting fault), files)
  | .ok config =>
    match Log.Root.initial.configure config.logLevel with
    | .error reserved => (.error (.level reserved), files)
    | .ok _ =>
      match (prepareDirectories config).on files with
      | (.error failure, files) => (.error (.run failure), files)
      | (.ok (), files) =>
        let service := Service.ofConfig libraries config identifier
        match service.cleanup.start libraries.scheduler now config.cleanupInterval with
        | (_, .error fault) => (.error (.interval fault), files)
        | (cleanup, .ok _) => (.ok { service with cleanup }, files)

/-- Shut a service down. -/
def shutDown (service : Service) : Service :=
  { service with cleanup := (service.cleanup.stop service.libraries.scheduler).1 }

end Service

end SourceAtlas
