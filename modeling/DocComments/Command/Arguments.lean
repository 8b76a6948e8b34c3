/-
This file reads the arguments of the command line.

Options may stand anywhere among the inputs, until two hyphens end them. An option with a value
takes it from the rest of its own argument or from the next argument, if that does not look
like an option. Faults are reported as they are met, from left to right. Whether an option got
its value, and whether it was given before, is settled only when the next option or input is
taken in, or at the end; an unknown option met in between is reported first.
-/

import DocComments.Text.Pieces

namespace DocComments

/-- The arguments of a run. -/
structure Arguments where
  inputs : List String
  output : String
  config : Option String
  logLevel : String
  keepGoing : Bool
deriving DecidableEq, Repr

/-- Why arguments do not start a run: information was asked for, or they are faulty. -/
inductive UsageFault where
  | helpAsked
  | versionAsked
  | unknownArgument
  | missingValue
  | givenTwice
  | unneededValue
deriving DecidableEq, Repr

namespace UsageFault

/-- Whether information was asked for. -/
def isInformation : UsageFault → Bool
  | .helpAsked => true
  | .versionAsked => true
  | _ => false

end UsageFault

/-- The options that take a value. -/
inductive ValueOption where
  | output
  | config
  | logLevel
deriving DecidableEq, Repr

namespace ValueOption

/-- The option of a long name. -/
def ofLong? (name : List Char) : Option ValueOption :=
  match String.ofList name with
  | "output" => some .output
  | "config" => some .config
  | "log-level" => some .logLevel
  | _ => none

/-- The option of a letter. -/
def ofShort? (letter : Char) : Option ValueOption :=
  match letter with
  | 'o' => some .output
  | 'c' => some .config
  | _ => none

end ValueOption

/-- What has been taken in so far: inputs, the values given to options, the flag, and an option
that waits for its value or for being settled. -/
structure ArgumentDraft where
  inputs : List String
  values : List (ValueOption × String)
  keepGoing : Bool
  pending : Option (ValueOption × Option String)

namespace ArgumentDraft

/-- Nothing taken in yet. -/
def start : ArgumentDraft :=
  ⟨[], [], false, none⟩

/-- Gives an option its value, which it may get only once. -/
def give (draft : ArgumentDraft) (option : ValueOption) (value : String) :
    Except UsageFault ArgumentDraft :=
  if (draft.values.lookup option).isSome then
    .error .givenTwice
  else
    .ok { draft with values := draft.values ++ [(option, value)] }

/-- Settles the option that waits, if there is one. -/
def settle (draft : ArgumentDraft) : Except UsageFault ArgumentDraft :=
  match draft.pending with
  | none => .ok draft
  | some (_, none) => .error .missingValue
  | some (option, some value) => { draft with pending := none }.give option value

/-- An option with the value that its own argument holds, or one that waits for the next
argument. -/
def takeOption (draft : ArgumentDraft) (option : ValueOption) (attached : Option String) :
    Except UsageFault ArgumentDraft := do
  let draft ← draft.settle
  match attached with
  | some value => draft.give option value
  | none => return { draft with pending := some (option, none) }

/-- An input. -/
def takeInput (draft : ArgumentDraft) (input : String) : Except UsageFault ArgumentDraft := do
  let draft ← draft.settle
  return { draft with inputs := draft.inputs ++ [input] }

/-- An argument that is no option: the value of an option that waits for one, or an input. -/
def takePlain (draft : ArgumentDraft) (argument : String) : Except UsageFault ArgumentDraft :=
  match draft.pending with
  | some (option, none) => .ok { draft with pending := some (option, some argument) }
  | _ => draft.takeInput argument

/-- The flag to go on after failures, which may be given only once. -/
def takeKeepGoing (draft : ArgumentDraft) : Except UsageFault ArgumentDraft := do
  let draft ← draft.settle
  if draft.keepGoing then throw .givenTwice else return { draft with keepGoing := true }

/-- A request for information, once the option before it is settled. -/
def takeRequest (draft : ArgumentDraft) (request : UsageFault) :
    Except UsageFault ArgumentDraft := do
  let _ ← draft.settle
  throw request

/-- An argument that starts with two hyphens, after these. -/
def takeLong (draft : ArgumentDraft) (argument : List Char) : Except UsageFault ArgumentDraft :=
  let (name, attached) := match Text.splitFirst? '=' argument with
    | some (name, value) => (name, some (String.ofList value))
    | none => (argument, none)
  match ValueOption.ofLong? name with
  | some option => draft.takeOption option attached
  | none =>
    match String.ofList name with
    | "keep-going" => if attached.isSome then .error .unneededValue else draft.takeKeepGoing
    | "help" => if attached.isSome then .error .unneededValue else draft.takeRequest .helpAsked
    | "version" =>
      if attached.isSome then .error .unneededValue else draft.takeRequest .versionAsked
    | _ => .error .unknownArgument

/-- The value that follows the letter of an option in the same argument. -/
def attachedValue : List Char → Option String
  | [] => none
  | '=' :: value => some (String.ofList value)
  | value => some (String.ofList value)

/-- An argument that starts with one hyphen: its letter and what follows it. -/
def takeShort (draft : ArgumentDraft) (letter : Char) (rest : List Char) :
    Except UsageFault ArgumentDraft :=
  match ValueOption.ofShort? letter with
  | some option => draft.takeOption option (attachedValue rest)
  | none =>
    match letter with
    | 'h' => draft.takeRequest .helpAsked
    | 'V' => draft.takeRequest .versionAsked
    | _ => .error .unknownArgument

/-- Takes in arguments after the two hyphens that end the options. -/
def takeInputs (draft : ArgumentDraft) (inputs : List String) :
    Except UsageFault ArgumentDraft :=
  inputs.foldlM takeInput draft

/-- Takes in arguments. -/
def takeAll : ArgumentDraft → List String → Except UsageFault ArgumentDraft
  | draft, [] => .ok draft
  | draft, argument :: arguments =>
    match argument.toList with
    | ['-', '-'] => draft.takeInputs arguments
    | '-' :: '-' :: rest => do
      let draft ← draft.takeLong rest
      takeAll draft arguments
    | '-' :: letter :: rest => do
      let draft ← draft.takeShort letter rest
      takeAll draft arguments
    | _ => do
      let draft ← draft.takePlain argument
      takeAll draft arguments

/-- The arguments once everything is taken in. -/
def finish (draft : ArgumentDraft) : Except UsageFault Arguments := do
  let draft ← draft.settle
  return { inputs := draft.inputs
           output := (draft.values.lookup .output).getD "docs.json"
           config := draft.values.lookup .config
           logLevel := (draft.values.lookup .logLevel).getD "info"
           keepGoing := draft.keepGoing }

end ArgumentDraft

/-- Reads the arguments after the name of the program. -/
def Arguments.read (arguments : List String) : Except UsageFault Arguments := do
  let draft ← ArgumentDraft.start.takeAll arguments
  draft.finish

/-! ### Log levels -/

/-- The names of log levels, in lower case. -/
def logLevels : List String :=
  ["off", "error", "warn", "info", "debug", "trace"]

/-- Whether this names a log level; case does not matter. -/
def isLogLevel (name : String) : Bool :=
  logLevels.contains (String.ofList (name.toList.map Char.toLower))

/-- What is said of a name that is no log level. -/
def logLevelNotice? (name : String) : Option String :=
  if isLogLevel name then none
  else some s!"Invalid log level: {name}. Using 'warn' instead."

end DocComments
