import SourceAtlas.Text.DecimalDigit

/-!
# Arguments and flags

An argument of a command line is a flag, a word, or the separator `--`, behind which there are words
only.  `Argument.role?` tells which, given the flags that a parser knows:

* a flag is written in full or, if it starts with two dashes, as any start that no other flag
  shares; its value is the next word or follows an equals sign;
* one dash and several letters stand for several flags of one letter, none of which takes a value;
* an argument that starts with a dash is a word nevertheless if it is a negative number or, without
  being a flag, holds a blank; a single dash is a word.

`Reading.of` reads the arguments of a parser from left to right into events.  A reading ends early
when an argument does not fit, and what was read up to there still counts: a request for help in
front of a mistake is granted.
-/

namespace SourceAtlas.CommandLine

/-- A flag, with its dashes. -/
structure Flag where
  name : String
  takesValue : Bool
deriving DecidableEq, Repr

/-- What an argument is to a parser. -/
inductive Role
  | word
  | separator
  | flag (flag : Flag) (attached : Option String)
  | unknown
deriving DecidableEq, Repr

/-! ## The role of an argument -/

/-- Whether a text is a minus sign and a decimal number, a line feed at its end disregarded. -/
def isNegativeNumber (argument : String) : Bool :=
  let isDigit := fun c => (Text.digitValue? c).isSome
  match argument.toList with
  | '-' :: body =>
    let body := if body.getLast? = some '\n' then body.dropLast else body
    match body.dropWhile isDigit with
    | [] => body ≠ []
    | '.' :: fraction => fraction ≠ [] && fraction.all isDigit
    | _ => false
  | _ => false

/-- The text before the first equals sign, and the text behind it if there is one. -/
def splitAtEquals (argument : String) : String × Option String :=
  let characters := argument.toList
  let head := String.ofList (characters.takeWhile (· ≠ '='))
  match characters.dropWhile (· ≠ '=') with
  | [] => (head, none)
  | _ :: value => (head, some (String.ofList value))

/-- The flags that an argument abbreviates. -/
def abbreviated (flags : List Flag) (argument : String) : List Role :=
  match argument.toList with
  | '-' :: '-' :: _ =>
    let (start, attached) := splitAtEquals argument
    (flags.filter fun flag => start.toList.isPrefixOf flag.name.toList).map fun flag =>
      .flag flag attached
  | '-' :: letter :: rest =>
    (flags.filter fun flag => flag.name.toList = ['-', letter]).map fun flag =>
      .flag flag (some (String.ofList rest))
  | _ => []

/-- The flag that an argument spells in full, with or without a value behind an equals sign. -/
def spelled? (flags : List Flag) (argument : String) : Option Role :=
  match flags.find? fun flag => flag.name = argument with
  | some flag => some (.flag flag none)
  | none =>
    match splitAtEquals argument with
    | (head, some value) =>
      (flags.find? fun flag => flag.name = head).map fun flag => .flag flag (some value)
    | (_, none) => none

/-- The role of an argument in front of any separator; `none` if it abbreviates several flags. -/
def role? (flags : List Flag) (argument : String) : Option Role :=
  if argument = "-" ∨ argument.toList.head? ≠ some '-' then some .word
  else
    match spelled? flags argument with
    | some role => some role
    | none =>
      match abbreviated flags argument with
      | [role] => some role
      | [] =>
        some (if isNegativeNumber argument || argument.toList.contains ' ' then .word else .unknown)
      | _ => none

/-- The roles of all arguments, or `none` if one of them is ambiguous. -/
def roles? (flags : List Flag) : List String → Option (List (String × Role))
  | [] => some []
  | argument :: rest =>
    if argument = "--" then some ((argument, .separator) :: rest.map fun word => (word, .word))
    else
      match role? flags argument, roles? flags rest with
      | some role, some roles => some ((argument, role) :: roles)
      | _, _ => none

/-! ## Reading -/

/-- Which words a parser takes: none, a single one, or the name of a command, behind which all
arguments are left to the command. -/
inductive Words
  | none
  | single
  | command
deriving DecidableEq, Repr

/-- What a parser meets. -/
inductive Event
  | flag (name : String) (value : Option String)
  | word (value : String)
  | command (name : String) (arguments : List String)
  | stray
deriving DecidableEq, Repr

/-- The events that a parser meets, and whether it stops at a mistake. -/
structure Reading where
  events : List Event
  mistaken : Bool
deriving DecidableEq, Repr

namespace Reading

/-- Nothing is left. -/
def done : Reading := ⟨[], false⟩

/-- A mistake. -/
def mistake : Reading := ⟨[], true⟩

/-- An event in front of a reading. -/
def cons (event : Event) (reading : Reading) : Reading :=
  { reading with events := event :: reading.events }

/-- The flags of one letter that a flag with letters attached to it stands for.  There must be a
letter, and the flag must be of one letter itself. -/
def cluster? (flags : List Flag) (flag : Flag) (attached : String) : Option (List Event) :=
  if flag.name.length ≠ 2 ∨ attached = "" then none
  else
    (attached.toList.mapM fun letter =>
      flags.find? fun other => other.name.toList = ['-', letter] ∧ other.takesValue = false).map
      fun others => (flag :: others).map fun flag => .flag flag.name none

/-- Read arguments whose roles are known. -/
def ofRoles (flags : List Flag) (words : Words) : List (String × Role) → Reading
  | [] => done
  | (_, .unknown) :: rest => cons .stray (ofRoles flags words rest)
  | (_, .flag flag (some value)) :: rest =>
    if flag.takesValue then cons (.flag flag.name (some value)) (ofRoles flags words rest)
    else
      match cluster? flags flag value with
      | some events => events.foldr cons (ofRoles flags words rest)
      | none => mistake
  | (_, .flag flag none) :: rest =>
    if flag.takesValue then
      match rest with
      | (value, .word) :: rest => cons (.flag flag.name (some value)) (ofRoles flags words rest)
      | _ => mistake
    else cons (.flag flag.name none) (ofRoles flags words rest)
  | (word, .word) :: rest =>
    match words with
    | .none => cons .stray (ofRoles flags .none rest)
    | .command => cons (.command word (rest.map Prod.fst)) done
    | .single =>
      match rest with
      | (_, .separator) :: rest => cons (.word word) (ofRoles flags .none rest)
      | rest => cons (.word word) (ofRoles flags .none rest)
  | (_, .separator) :: rest =>
    match words, rest with
    | .none, rest => cons .stray (ofRoles flags .none rest)
    | .command, _ => mistake
    | .single, (word, .word) :: rest => cons (.word word) (ofRoles flags .none rest)
    | .single, rest => cons .stray (ofRoles flags .single rest)
termination_by arguments => arguments.length

/-- Read the arguments of a parser. -/
def of (flags : List Flag) (words : Words) (arguments : List String) : Reading :=
  match roles? flags arguments with
  | some roles => ofRoles flags words roles
  | none => mistake

/-- Whether there is an argument that has no place. -/
def hasStray (reading : Reading) : Bool :=
  reading.events.contains .stray

end Reading

end SourceAtlas.CommandLine
