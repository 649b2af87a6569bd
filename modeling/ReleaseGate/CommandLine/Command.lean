import ReleaseGate.Binary64.Numeral
import ReleaseGate.FileTree
import ReleaseGate.Policy.Context

/-!
# Commands

A command line names a command and its options. An option is given once, with its value behind an
equals sign or as the next argument.

* `readOptions`: the options among the arguments.
* `Invocation.read?`: what a command line asks for, or none if it is refused.
-/

namespace ReleaseGate.CommandLine

/-- What to score, and where the result goes. -/
structure ScoreOptions where
  manifest : Option Location
  input : Option Location
  /-- Score the demonstration. -/
  demo : Bool
  /-- Print the report as JSON and write no bundle. -/
  json : Bool
  output : Location

/-- A request to decide, and how. -/
structure CheckOptions where
  actor : String
  action : String
  resource : String
  score : Binary64
  validationLevel : String
  approved : Bool
  approver : Option String
  policies : Option Location
  /-- Print the outcome as JSON. -/
  json : Bool

/-- A command. -/
inductive Command where
  | score (options : ScoreOptions)
  | check (options : CheckOptions)
  | demo (output : Option Location)

/-- What a command line asks for. -/
inductive Invocation where
  | version
  | run (command : Command)

/-! ## Options -/

/-- Options by name, each with its value; a switch has an empty one. -/
abbrev Options := List (String × String)

/-- The name and the value of an argument that starts with two dashes. -/
def splitOption? (argument : String) : Option (String × Option String) :=
  match argument.toList with
  | '-' :: '-' :: rest =>
    match rest.span (· ≠ '=') with
    | (name, _ :: value) => some (String.ofList name, some (String.ofList value))
    | (name, []) => some (String.ofList name, none)
  | _ => none

/-- Whether an argument can be the value of the option before it: it does not look like an option
itself. -/
def isValue (argument : String) : Bool := argument = "-" || !argument.startsWith "-"

/-- The options among arguments, given the names of switches and of options with values. Two dashes
alone may end them. -/
def readOptions (switches valued : List String) : List String → Option Options
  | [] => some []
  | argument :: rest =>
    if argument = "--" then if rest.isEmpty then some [] else none
    else match splitOption? argument with
      | none => none
      | some (name, value) =>
        if switches.contains name then
          if value.isSome then none
          else (readOptions switches valued rest).map ((name, "") :: ·)
        else if valued.contains name then
          match value, rest with
          | some value, rest => (readOptions switches valued rest).map ((name, value) :: ·)
          | none, value :: rest =>
            if isValue value then (readOptions switches valued rest).map ((name, value) :: ·)
            else none
          | none, [] => none
        else none

/-- Options none of which is given twice. -/
def readDistinct (switches valued : List String) (arguments : List String) : Option Options :=
  (readOptions switches valued arguments).bind fun options =>
    if (options.map Prod.fst).Nodup then some options else none

namespace Options

/-- Whether an option is given. -/
def has (options : Options) (name : String) : Bool := (options.lookup name).isSome

/-- A location that may be given; it has a name. -/
def location? (options : Options) (name : String) : Option (Option Location) :=
  match options.lookup name with
  | none => some none
  | some "" => none
  | some text => some (some (.ofText text))

end Options

/-! ## Commands -/

/-- The directory for evidence unless another one is given. -/
def standardOutput : Location := .ofText "evidence"

/-- The command to score. Demonstration data and a file of data exclude each other. -/
def readScore (arguments : List String) : Option Command := do
  let options ← readDistinct ["demo", "json"] ["manifest", "input", "output"] arguments
  let manifest ← options.location? "manifest"
  let input ← options.location? "input"
  let output ← options.location? "output"
  if options.has "demo" && input.isSome then none
  else some (.score
    { manifest
      input
      demo := options.has "demo"
      json := options.has "json"
      output := output.getD standardOutput })

/-- The command to check; an action and a resource must be given. -/
def readCheck (arguments : List String) : Option Command := do
  let options ← readDistinct ["approved", "json"]
    ["actor", "action", "resource", "score", "validation-level", "approver", "policies"] arguments
  let action ← options.lookup "action"
  let resource ← options.lookup "resource"
  let score ← match options.lookup "score" with
    | none => some 0
    | some text => Binary64.read? text.toList
  let policies ← options.location? "policies"
  return .check
    { actor := (options.lookup "actor").getD "cli"
      action
      resource
      score
      validationLevel := (options.lookup "validation-level").getD noValidation
      approved := options.has "approved"
      approver := options.lookup "approver"
      policies
      json := options.has "json" }

/-- The command to demonstrate. -/
def readDemo (arguments : List String) : Option Command := do
  let options ← readDistinct [] ["output"] arguments
  return .demo (← options.location? "output")

/-- What a command line asks for. -/
def Invocation.read? : List String → Option Invocation
  | "score" :: rest => (readScore rest).map run
  | "check" :: rest => (readCheck rest).map run
  | "demo" :: rest => (readDemo rest).map run
  | first :: _ => if first = "--version" ∨ first.startsWith "-V" then some version else none
  | [] => none

end ReleaseGate.CommandLine
