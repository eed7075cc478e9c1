import ApiHandbook.Command.Standard

/-!
# The command

The files that the options name are read, the command is run on what they hold, and its texts and
its document go where it says.
-/
namespace ApiHandbook.Command

open Files

/-- The line for failures that have nothing to say. -/
def unexplained : String := "Error!"

/-- The number of a system error, which some calls give negated. -/
def errorNumber (code : UInt32) : Nat := min code.toNat (-code).toNat

/-- Why the system refused. -/
def faultOf : IO.Error → FileFault
  | .noFileOrDirectory _ _ _ => .notFound
  | .alreadyExists _ _ _ => .occupied
  | .inappropriateType _ code _ =>
    if errorNumber code = FileFault.notDirectory.code then .notDirectory else .isDirectory
  | .invalidArgument _ code details =>
    if errorNumber code = FileFault.nameTooLong.code then .nameTooLong
    else .other (errorNumber code) details
  | .permissionDenied _ code details => .other (errorNumber code) details
  | error => .other 5 (toString error)

/-- The content of a file, or why it cannot be read. -/
def contentOf (path : Path) : IO (Except FileFault (List UInt8)) := do
  match ← (IO.FS.readBinFile path.text).toBaseIO with
  | .ok content => return .ok content.toList
  | .error error => return .error (faultOf error)

/-- Each path with what reading it has brought. -/
def contentsOf (paths : List Path) : IO (List (Path × Except FileFault (List UInt8))) :=
  paths.mapM fun path => return (path, ← contentOf path)

/-- Writes a document; one that cannot be encoded leaves an empty file. -/
def saveFile (path : Path) (document : Option (List UInt8)) : IO (Except FileFault Unit) := do
  let saving : IO Unit := do
    IO.FS.createDirAll path.parent.text
    IO.FS.writeBinFile path.text ⟨(document.getD []).toArray⟩
  return (← saving.toBaseIO).mapError faultOf

/-- Prints texts, as they are if the stream is a terminal. -/
def print (stream : Stream) (texts : List String) : IO Unit := do
  let handle ← match stream with
    | .out => IO.getStdout
    | .err => IO.getStderr
  if ← handle.isTty then handle.putStr (String.join texts)
  else handle.putStr (Library.standard.printed stream texts)

def printOutcome (outcome : Outcome) : IO Unit := do
  print .out outcome.stdout
  print .err outcome.stderr
  match outcome.ending with
  | .failed failure => if failure.message?.isNone then IO.eprintln unexplained
  | _ => pure ()

/-- Runs a command and gives its exit code. -/
def runFiles (options : Options) : IO Nat := do
  let contents ← contentsOf (options.config.toList ++ options.source.toList)
  let read (path : Path) := (contents.lookup path).getD (.error .notFound)
  let outcome := run .standard read options
  let outcome ← match outcome.ending with
    | .saving path document =>
      match ← saveFile path document with
      | .ok _ => pure (savedOutcome outcome path document)
      | .error fault => pure (failing outcome.stdout outcome.stderr (.save fault))
    | _ => pure outcome
  printOutcome outcome
  return outcome.ending.exitCode

end ApiHandbook.Command

open ApiHandbook.Command in
def main (arguments : List String) : IO UInt32 := do
  let exitCode ← match Library.standard.commandLine arguments (← IO.getEnv settingsVariable) with
    | .run options _ => runFiles options
    | .help text => do
      print .out [text]
      pure (Ending.exitCode .help)
    | .refused text => do
      print .err [text]
      pure (Ending.exitCode .usage)
    | .zeroInPath => do
      printOutcome (failing [] [] .zeroInPath)
      pure (Ending.exitCode (.failed .zeroInPath))
  return exitCode.toUInt32
