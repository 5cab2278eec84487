import SourceAtlas.Cleanup.Scheduler
import SourceAtlas.Config.Load
import SourceAtlas.Failure
import SourceAtlas.Log.Level

/-!
# What keeps a program from its work

The command line and the service both read the configuration, set the log level and work on files.
Whatever goes wrong there and is not answered for in another way is a `ProgramFault`.
-/

namespace SourceAtlas

/-- What keeps a program from its work. -/
inductive ProgramFault
  | setting (fault : SettingFault)
  | level (name : Log.Reserved)
  | interval (fault : IntervalFault)
  | run (failure : Failure)

/-- The wording of a fault. -/
def ProgramFault.message : ProgramFault → String
  | .setting fault => fault.message
  | .level name => name.message
  | .interval fault => fault.message
  | .run failure => failure.message

end SourceAtlas
