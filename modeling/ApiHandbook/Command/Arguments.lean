import ApiHandbook.Command.Options

/-!
# Reading a command line

Options may stand before and behind the source. A long option takes its value behind an equals
sign or from the next argument; short options may be joined, and one that takes a value takes
the rest of its argument. Two dashes end the options. An option given again replaces its value.
-/
namespace ApiHandbook.Command

open Files

def version : String := "0.1.0"

/-- The variable that names the settings file when no option does. -/
def settingsVariable : String := "SCHEMA_DOCGEN_CONFIG"

def usageText : String :=
  "Usage: api-handbook [-v] [-o FILE] [--config FILE] [--skip-invalid] [--all-objects] [SOURCE]\n"

def helpText : String :=
  usageText ++ "\nGenerates API documentation from schema declarations (version " ++ version
    ++ ").\n\n"
    ++ "  -o, --output FILE  Write the document to this file.\n"
    ++ "  --config FILE      Settings file; also named by " ++ settingsVariable ++ ".\n"
    ++ "  --skip-invalid     Record invalid declarations and go on.\n"
    ++ "  --all-objects      Append a catalog of every object.\n"
    ++ "  -v, --verbose      Print the progress.\n"
    ++ "  --help             Print this text.\n"

/-- Options as they are read, and whether help is asked for. -/
structure Draft extends Options where
  help : Bool := false
  deriving DecidableEq, Repr

inductive Flag where
  | skipInvalid | allObjects | verbose | help
  deriving DecidableEq, Repr

inductive Setting where
  | output | config
  deriving DecidableEq, Repr

def Draft.raise (draft : Draft) : Flag → Draft
  | .skipInvalid => { draft with skipInvalid := true }
  | .allObjects => { draft with allObjects := true }
  | .verbose => { draft with verbose := true }
  | .help => { draft with help := true }

def Draft.set (draft : Draft) (value : String) : Setting → Draft
  | .output => { draft with output := some (.ofString value) }
  | .config => { draft with config := some (.ofString value) }

def longFlags : List (String × Flag) :=
  [("--skip-invalid", .skipInvalid), ("--all-objects", .allObjects), ("--verbose", .verbose),
    ("--help", .help)]

def longSettings : List (String × Setting) := [("--output", .output), ("--config", .config)]

/-- What one argument means. -/
inductive Meaning where
  | positional
  | applied (draft : Draft)
  /-- The next argument is the value. -/
  | awaits (draft : Draft) (setting : Setting)
  | wrong
  deriving DecidableEq, Repr

/-- Short options joined in one argument. -/
def readShort (draft : Draft) : List Char → Meaning
  | [] => .applied draft
  | 'v' :: rest => readShort (draft.raise .verbose) rest
  | ['o'] => .awaits draft .output
  | 'o' :: value => .applied (draft.set (String.ofList value) .output)
  | _ => .wrong

/-- A long option, with the value joined to it if there is one. -/
def readLong (draft : Draft) (name : String) (value : Option String) : Meaning :=
  match longSettings.lookup name, longFlags.lookup name, value with
  | some setting, _, some value => .applied (draft.set value setting)
  | some setting, _, none => .awaits draft setting
  | none, some flag, none => .applied (draft.raise flag)
  | none, _, _ => .wrong

def readArgument (draft : Draft) (argument : String) : Meaning :=
  match argument.toList with
  | '-' :: '-' :: rest =>
    let name := ('-' :: '-' :: rest).takeWhile (· ≠ '=')
    let value := ('-' :: '-' :: rest).drop (name.length + 1)
    readLong draft (String.ofList name)
      (if rest.contains '=' then some (String.ofList value) else none)
  | '-' :: c :: rest => readShort draft (c :: rest)
  | _ => .positional

/-- The options and the other arguments; none if the arguments are wrong. -/
def readArguments (draft : Draft) (others : List String) :
    List String → Option (Draft × List String)
  | [] => some (draft, others)
  | argument :: rest =>
    if argument = "--" then some (draft, others ++ rest)
    else
      match readArgument draft argument, rest with
      | .positional, rest => readArguments draft (others ++ [argument]) rest
      | .applied draft, rest => readArguments draft others rest
      | .awaits draft setting, value :: rest =>
        readArguments (draft.set value setting) others rest
      | .awaits _ _, [] => none
      | .wrong, _ => none

/-- What a command line comes to; `environment` names the settings file when no option does, unless
it is empty. Paths are looked at before arguments are counted, and neither is when help is asked
for. -/
def Invocation.ofArguments (arguments : List String) (environment : Option String) : Invocation :=
  match readArguments {} [] arguments with
  | none => .refused usageText
  | some (draft, others) =>
    let config := draft.config <|> ((environment.filter (!·.isEmpty)).map Path.ofString)
    let options := { draft.toOptions with config, source := others.head?.map Path.ofString }
    if draft.help then .help helpText
    else if named : options.hasZero = false then
      if others.length > 1 then .refused usageText else .run options named
    else .zeroInPath

end ApiHandbook.Command
