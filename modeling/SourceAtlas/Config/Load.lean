import SourceAtlas.Config.Basic
import SourceAtlas.Number.Numeral
import SourceAtlas.Text.Blank
import SourceAtlas.Text.Quoted
import SourceAtlas.Text.Segments

/-!
# The configuration from the environment

Every field of the configuration has a name in the environment.  A number that is missing or empty
is left at its default, and so is a text that is missing; an empty text counts as given.  The names
of ignored directories are separated by commas.

The fields are read in a fixed order, and the first one that cannot be read is reported.

A settings file may have been made part of the environment before.  Whoever reads the file does
that, and either yields the environment or says why the file cannot be made part of it.
-/

namespace SourceAtlas

/-- Values of names. -/
abbrev Environment := List (String × String)

/-- Why a binding cannot be made part of an environment. -/
inductive ExportFault
  | nullByte
  | illegalName
deriving DecidableEq, Repr

/-- What is wrong with a setting. -/
inductive SettingFault
  | notAnInteger (text : String)
  | tooManyDigits (digits : Nat)
  | notANumber (text : String)
  | notExported (fault : ExportFault)
deriving DecidableEq, Repr

/-- How much of a quoted text is shown where a whole number was expected. -/
def shownLength : Nat := 200

/-- The wording of a fault.  What is no whole number is shown as far as it fits. -/
def SettingFault.message : SettingFault → String
  | .notAnInteger text =>
    "invalid literal for int() with base 10: " ++
      String.ofList ((Text.quoted text).toList.take shownLength)
  | .tooManyDigits digits =>
    "Exceeds the limit (4300 digits) for integer string conversion: value has " ++
      toString digits ++ " digits; use sys.set_int_max_str_digits() to increase the limit"
  | .notANumber text => "could not convert string to float: " ++ Text.quoted text
  | .notExported .nullByte => "embedded null byte"
  | .notExported .illegalName => "illegal environment variable name"

/-- Read a whole number. -/
def readInt (text : String) : Except SettingFault Int :=
  match Numeral.int text with
  | .ok value => .ok value
  | .error .malformed => .error (.notAnInteger text)
  | .error (.tooLong digits) => .error (.tooManyDigits digits)

/-- Read a decimal number. -/
def readFloat (text : String) : Except SettingFault Binary64 :=
  match Numeral.float? text with
  | some value => .ok value
  | none => .error (.notANumber text)

/-- Read the names in a list that is separated by commas. -/
def readNames (text : String) : List String :=
  (((Text.pieces ',' text).map Text.trim).filter (· ≠ "")).eraseDups

namespace Config

/-- A number in the environment, if there is one. -/
def numberSetting {α : Type} (environment : Environment) (read : String → Except SettingFault α)
    (name : String) (default : α) : Except SettingFault α :=
  match environment.lookup name with
  | none => .ok default
  | some text => if text = "" then .ok default else read text

/-- The configuration that an environment describes. -/
def ofEnvironment (environment : Environment) : Except SettingFault Config := do
  let initial : Config := {}
  let int := numberSetting environment readInt
  let float := numberSetting environment readFloat
  let text := fun name default => (environment.lookup name).getD default
  let maxUploadBytes ← int "MAX_UPLOAD_BYTES" initial.maxUploadBytes
  let maxTotalBytes ← int "MAX_EXTRACTED_TOTAL_BYTES" initial.maxTotalBytes
  let maxFileBytes ← int "MAX_EXTRACTED_FILE_BYTES" initial.maxFileBytes
  let maxFiles ← int "MAX_EXTRACTED_FILES" initial.maxFiles
  let cleanupTtl ← float "CLEANUP_TTL_SECONDS" initial.cleanupTtl
  let cleanupInterval ← float "CLEANUP_INTERVAL_SECONDS" initial.cleanupInterval
  let topDegree ← int "TOP_DEGREE" initial.topDegree
  return {
    maxUploadBytes, maxTotalBytes, maxFileBytes, maxFiles, cleanupTtl, cleanupInterval, topDegree
    ignoredDirs := ((environment.lookup "IGNORED_DIRS").map readNames).getD initial.ignoredDirs
    uploadsDir := text "UPLOADS_DIR" initial.uploadsDir
    extractedDir := text "EXTRACTED_DIR" initial.extractedDir
    logLevel := text "LOG_LEVEL" initial.logLevel }

/-- The configuration that an environment describes, once a settings file has been made part of
it. -/
def load (environment : Except ExportFault Environment) : Except SettingFault Config :=
  match environment with
  | .error fault => .error (.notExported fault)
  | .ok environment => ofEnvironment environment

end Config

end SourceAtlas
