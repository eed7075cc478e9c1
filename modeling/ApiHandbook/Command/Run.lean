import ApiHandbook.Command.Options
import ApiHandbook.Extraction.Run
import ApiHandbook.Files.Tree
import ApiHandbook.Handbook.Document
import ApiHandbook.Settings.File
import ApiHandbook.Source.File

/-!
# Running a command

From a command line and the files it names to what is printed and written. A run that fails prints
the reports of the passes that were finished and an error line, and writes nothing.

The libraries that read a command line and print a text are parameters, and so are those that
settings are loaded with. A text is printed as it is put together, with the end of its line.

A document with half of a surrogate pair in it cannot be encoded: only the separator of the
settings can bring one in. Its file is made all the same, and stays empty.
-/
namespace ApiHandbook.Command

open Files Schema Extraction Source

/-- Where a text is printed. -/
inductive Stream where
  | out | err
  deriving DecidableEq, Repr

/-- The libraries of a command. -/
structure Library extends Settings.Library where
  /-- What arguments come to, with the variable of the environment that names the settings file. -/
  commandLine : List String → Option String → Invocation
  /-- What a stream shows of a text that is printed on it. -/
  shown : Stream → String → String

/-- What stops a command. -/
inductive Failure where
  | schema (error : SchemaError)
  | settings (error : Settings.LoadError)
  /-- The document cannot be saved. -/
  | save (fault : FileFault)
  /-- The document holds what is no character. -/
  | unwritable
  /-- No file can have the name that is given. -/
  | zeroInPath
  deriving DecidableEq, Repr

/-- The text of the error line; some failures have none. -/
def Failure.message? : Failure → Option String
  | .schema error => some error.message
  | .settings error => error.message?
  | .save _ | .unwritable | .zeroInPath => none

inductive Ending where
  | finished
  | help
  /-- The arguments are wrong. -/
  | usage
  /-- There is nothing to do without a source. -/
  | noSource
  | failed (failure : Failure)
  /-- All is printed but the document, which is to be saved if it can be encoded. -/
  | saving (path : Path) (document : Option (List UInt8))
  deriving DecidableEq, Repr

def Ending.exitCode : Ending → Nat
  | .finished | .help | .saving _ _ => 0
  | .usage => 2
  | .noSource | .failed _ => 1

/-- The texts that a command prints on each stream, and how it ends. -/
structure Outcome where
  stdout : List String
  stderr : List String
  ending : Ending
  deriving DecidableEq, Repr

def errorLine (message : String) : String := "Error! " ++ message ++ "\n"

def failing (stdout stderr : List String) (failure : Failure) : Outcome :=
  ⟨stdout, stderr ++ (failure.message?.map errorLine).toList, .failed failure⟩

/-! ## Texts -/

/-- The errors of a finished pass, if there are any. -/
def reportTexts (report : Report) : List String :=
  if report.errors.isEmpty then []
  else
    (report.pass.title ++ s!" extracting => found {report.errors.length} error(s)\n")
      :: report.errors.map fun error => " - " ++ error.message ++ "\n"

def parsingText (source : Path) : String := "Parsing " ++ source.text ++ "...\n"

def skippedText (enum : String) : String :=
  "  Skipped enum " ++ enum ++ ": not every case has a single payload\n"

def foundText (registry : Registry) : String :=
  s!"Found {registry.objects.length} objects, {registry.wrappers.length} one-of wrappers, "
    ++ s!"{registry.endpoints.length} endpoints.\n"

/-- What stands above a document that is printed. -/
def resultTexts : List String := ["Result\n", "\n"]

def savedText (path : Path) : String := "Document saved to " ++ path.text ++ "\n"

/-- What is told on the way, if it is to be told. -/
def Options.told (options : Options) (texts : List String) : List String :=
  if options.verbose then texts else []

/-! ## Runs -/

def loadSettings (library : Settings.Library) (read : Path → Except FileFault (List UInt8))
    (path : Option Path) : Except Settings.LoadError Settings :=
  match path with
  | some path => Settings.load library path (read path)
  | none => .ok {}

/-- Whether the first invalid declaration stops a run. -/
def Options.isStrict (options : Options) (settings : Settings) : Bool :=
  settings.strict && !options.skipInvalid

def renderRegistry (options : Options) (settings : Settings) (registry : Registry) :
    Except SchemaError String :=
  Handbook.renderDocument registry (options.allObjects || settings.objectCatalog)

/-- The bytes of a document in which a mark stands for halves of surrogate pairs. A document in
which the mark shows has none. -/
def encode? (settings : Settings) (mark : List Char) (document : String) : Option (List UInt8) :=
  if Text.isBroken settings.segmentSeparator && Text.holds mark document.toList then none
  else some document.toUTF8.toList

/-- What becomes of a document, given its bytes: it is printed, or is to be saved. -/
def delivered (output : Option Path) (stdout stderr : List String) (document : String)
    (bytes : Option (List UInt8)) : Outcome :=
  match output, bytes with
  | some path, bytes => ⟨stdout, stderr, .saving path bytes⟩
  | none, some _ => ⟨stdout ++ resultTexts ++ [document], stderr, .finished⟩
  | none, none => failing (stdout ++ resultTexts) stderr .unwritable

/-- Extraction and rendering of a source file. -/
def document (options : Options) (settings : Settings) (progress : List String)
    (file : SourceFile) : Outcome :=
  let mark := Text.markFor file.text
  let extraction := extract (settings.marked mark).rules (options.isStrict settings)
    file.declarations
  let registry := extraction.registry
  let stdout := extraction.reports.flatMap reportTexts
  let stderr := progress ++ options.told (registry.ordinaryEnums.map skippedText)
  match extraction.raised with
  | some error => failing stdout stderr (.schema error)
  | none =>
    let stderr := stderr ++ options.told [foundText registry]
    match renderRegistry options settings registry with
    | .error error => failing stdout stderr (.schema error)
    | .ok text => delivered options.output stdout stderr text (encode? settings mark text)

/-- A command, given how files are read. -/
def run (library : Settings.Library) (read : Path → Except FileFault (List UInt8))
    (options : Options) : Outcome :=
  match options.source with
  | none => ⟨[], [], .noSource⟩
  | some source =>
    match loadSettings library read options.config with
    | .error error => failing [] [] (.settings error)
    | .ok settings =>
      let progress := options.told [parsingText source]
      match parseFile source (read source) with
      | .error error => failing [] progress (.schema error)
      | .ok file => document options settings progress file

/-- The outcome of saving a document, after the tree has been given the file or not. -/
def savedOutcome (outcome : Outcome) (path : Path) (document : Option (List UInt8)) : Outcome :=
  match document with
  | some _ => ⟨outcome.stdout ++ [savedText path], outcome.stderr, .finished⟩
  | none => failing outcome.stdout outcome.stderr .unwritable

/-- A command on a file tree, with the tree after it. -/
def perform (library : Settings.Library) (tree : FileTree) (options : Options) :
    Outcome × FileTree :=
  let outcome := run library tree.read options
  match outcome.ending with
  | .saving path document =>
    match tree.save path (document.getD []) with
    | .ok after => (savedOutcome outcome path document, after)
    | .error refusal =>
      (failing outcome.stdout outcome.stderr (.save refusal.fault), refusal.tree)
  | _ => (outcome, tree)

/-! ## Command lines -/

/-- What is seen of a command on each stream, and how it ends. -/
structure Display where
  stdout : String
  stderr : String
  ending : Ending
  deriving DecidableEq, Repr

/-- What a stream shows of texts that are printed on it one after the other. -/
def Library.printed (library : Library) (stream : Stream) (texts : List String) : String :=
  String.join (texts.map (library.shown stream))

def Library.display (library : Library) (outcome : Outcome) : Display :=
  ⟨library.printed .out outcome.stdout, library.printed .err outcome.stderr, outcome.ending⟩

/-- A command line on a file tree, with what is seen of it and the tree after it. -/
def execute (library : Library) (tree : FileTree) (arguments : List String)
    (environment : Option String) : Display × FileTree :=
  let (outcome, after) := match library.commandLine arguments environment with
    | .run options _ => perform library.toLibrary tree options
    | .help text => (⟨[text], [], .help⟩, tree)
    | .refused text => (⟨[], [text], .usage⟩, tree)
    | .zeroInPath => (failing [] [] .zeroInPath, tree)
  (library.display outcome, after)

end ApiHandbook.Command
