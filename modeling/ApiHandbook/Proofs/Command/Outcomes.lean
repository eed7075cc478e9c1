import Mathlib.Data.List.Basic
import ApiHandbook.Command.Standard
import ApiHandbook.Proofs.Extraction.Reports
import ApiHandbook.Proofs.Files.Saving
import ApiHandbook.Proofs.Text.ControlSequence

/-!
# Outcomes of a command

A command that is stopped leaves the files as they are, prints the reports of the passes that were
finished and an error line. One that finishes prints or saves the same document under the same
reports.
-/
namespace ApiHandbook.Command

open Files Schema Extraction Source

/-- The errors of passes as they are printed. -/
def blocks (reports : List Report) : List String := reports.flatMap reportTexts

/-- What a run tells on its way through the passes. -/
def Options.passesTold (options : Options) (source : Path) (registry : Registry) : List String :=
  options.told (parsingText source :: registry.ordinaryEnums.map skippedText)

/-- What a run has told when its passes are over. -/
def Options.allTold (options : Options) (source : Path) (registry : Registry) : List String :=
  options.passesTold source registry ++ options.told [foundText registry]

section
variable (library : Settings.Library) (tree : FileTree) (options : Options) (source : Path)

/-- The settings and the source file that a run starts with. -/
structure Reads (settings : Settings) (file : SourceFile) : Prop where
  loaded : loadSettings library tree.read options.config = .ok settings
  parsed : parseFile source (tree.read source) = .ok file

/-- The passes of a run. -/
def Passes (settings : Settings) (file : SourceFile) :
    List Report → Registry → Option SchemaError → Prop :=
  PassesRun (settings.marked (Text.markFor file.text)).rules (options.isStrict settings)
    file.declarations Pass.all {}

/-- A run is stopped by an error with this message, after the passes of these reports and when this
has been told. -/
inductive Stops : String → List Report → List String → Prop
  | loading {error : Settings.LoadError} {message : String}
      (failed : loadSettings library tree.read options.config = .error error)
      (told : error.message? = some message) : Stops message [] []
  | reading {settings : Settings} {error : SchemaError}
      (loaded : loadSettings library tree.read options.config = .ok settings)
      (failed : parseFile source (tree.read source) = .error error) :
      Stops error.message [] (options.told [parsingText source])
  | extraction {settings : Settings} {file : SourceFile} {reports : List Report}
      {registry : Registry} {error : SchemaError}
      (reads : Reads library tree options source settings file)
      (passes : Passes options settings file reports registry (some error)) :
      Stops error.message reports (options.passesTold source registry)
  | rendering {settings : Settings} {file : SourceFile} {reports : List Report}
      {registry : Registry} {error : SchemaError}
      (reads : Reads library tree options source settings file)
      (passes : Passes options settings file reports registry none)
      (failed : renderRegistry options settings registry = .error error) :
      Stops error.message reports (options.allTold source registry)

/-- A run comes to this document, after all passes with these reports. -/
inductive Renders (reports : List Report) (registry : Registry) (text : String) : Prop
  | mk {settings : Settings} {file : SourceFile}
      (reads : Reads library tree options source settings file)
      (passes : Passes options settings file reports registry none)
      (rendered : renderRegistry options settings registry = .ok text)

end

/-- All that can become of a run: there is no source, settings fail without a word, an error stops
it, or it comes to a document, which goes where the output says. -/
inductive Ends (library : Settings.Library) (tree : FileTree) (options : Options) : Prop
  | unsourced (ran : run library tree.read options = ⟨[], [], .noSource⟩)
  | untold {error : Settings.LoadError} (no_message : error.message? = none)
      (ran : run library tree.read options = failing [] [] (.settings error))
  | stopped {source : Path} {message : String} {reports : List Report} {told : List String}
      (sourced : options.source = some source)
      (stops : Stops library tree options source message reports told)
  | rendered {source : Path} {reports : List Report} {registry : Registry} {text : String}
      {bytes : Option (List UInt8)} (sourced : options.source = some source)
      (renders : Renders library tree options source reports registry text)
      (content_eq : ∀ content, bytes = some content → content = text.toUTF8.toList)
      (delivers : ∀ output, run library tree.read { options with output } =
        delivered output (blocks reports) (options.allTold source registry) text bytes)

/-! ## Runs -/

theorem Options.told_append (options : Options) (texts more : List String) :
    options.told (texts ++ more) = options.told texts ++ options.told more := by
  unfold Options.told
  split <;> rfl

theorem Options.told_parsing (options : Options) (source : Path) (registry : Registry) :
    options.told [parsingText source] ++ options.told (registry.ordinaryEnums.map skippedText) =
      options.passesTold source registry :=
  (options.told_append [_] _).symm

theorem failing_of_message {failure : Failure} {message : String}
    (told : failure.message? = some message) (stdout stderr : List String) :
    failing stdout stderr failure = ⟨stdout, stderr ++ [errorLine message], .failed failure⟩ := by
  rw [failing, told]
  rfl

/-- Documents without halves of surrogate pairs have the bytes of their text. -/
theorem encode?_eq_some {settings : Settings} {mark : List Char} {text : String}
    {bytes : List UInt8} (encoded : encode? settings mark text = some bytes) :
    bytes = text.toUTF8.toList := by
  unfold encode? at encoded
  split at encoded
  · cases encoded
  · exact (Option.some.inj encoded).symm

theorem encode?_of_unbroken {settings : Settings}
    (unbroken : Text.isBroken settings.segmentSeparator = false) (mark : List Char)
    (text : String) : encode? settings mark text = some text.toUTF8.toList := by
  simp [encode?, unbroken]

section
variable {library : Settings.Library} {tree : FileTree} {options : Options} {source : Path}
  {settings : Settings} {file : SourceFile} {reports : List Report} {registry : Registry}

theorem Passes.extract_eq {raised : Option SchemaError}
    (passes : Passes options settings file reports registry raised) :
    extract (settings.marked (Text.markFor file.text)).rules (options.isStrict settings)
      file.declarations = ⟨reports, registry, raised⟩ := runPasses_eq_iff.mpr passes

/-- Behind its settings and its file a run is a matter of these alone. -/
theorem run_of_reads (sourced : options.source = some source)
    (reads : Reads library tree options source settings file) :
    run library tree.read options =
      document options settings (options.told [parsingText source]) file := by
  simp only [run, sourced, reads.loaded, reads.parsed]

theorem document_stopped {error : SchemaError}
    (passes : Passes options settings file reports registry (some error)) :
    document options settings (options.told [parsingText source]) file =
      failing (blocks reports) (options.passesTold source registry) (.schema error) := by
  simp only [document, passes.extract_eq, options.told_parsing, blocks]

section
variable (passes : Passes options settings file reports registry none)
include passes

theorem document_unrendered {error : SchemaError}
    (failed : renderRegistry options settings registry = .error error) :
    document options settings (options.told [parsingText source]) file =
      failing (blocks reports) (options.allTold source registry) (.schema error) := by
  simp only [document, passes.extract_eq, failed, options.told_parsing, blocks, Options.allTold]

theorem document_rendered {text : String}
    (rendered : renderRegistry options settings registry = .ok text) :
    document options settings (options.told [parsingText source]) file =
      delivered options.output (blocks reports) (options.allTold source registry) text
        (encode? settings (Text.markFor file.text) text) := by
  simp only [document, passes.extract_eq, rendered, options.told_parsing, blocks, Options.allTold]

end

theorem run_of_rendered (options : Options) {text : String}
    (sourced : options.source = some source)
    (reads : Reads library tree options source settings file)
    (passes : Passes options settings file reports registry none)
    (rendered : renderRegistry options settings registry = .ok text) :
    run library tree.read options =
      delivered options.output (blocks reports) (options.allTold source registry) text
        (encode? settings (Text.markFor file.text) text) :=
  (run_of_reads sourced reads).trans (document_rendered passes rendered)

/-- A run that is stopped fails with its message, under the reports of the finished passes. -/
theorem run_of_stops {message : String} {told : List String}
    (sourced : options.source = some source)
    (stops : Stops library tree options source message reports told) :
    ∃ failure, failure.message? = some message ∧
      run library tree.read options = failing (blocks reports) told failure := by
  cases stops with
  | @loading error _ failed has_message =>
    exact ⟨.settings error, has_message, by simp only [run, sourced, failed]; rfl⟩
  | @reading _ error loaded failed =>
    exact ⟨.schema error, rfl, by simp only [run, sourced, loaded, failed]; rfl⟩
  | @extraction _ _ _ _ error reads passes =>
    exact ⟨.schema error, rfl, (run_of_reads sourced reads).trans (document_stopped passes)⟩
  | @rendering _ _ _ _ error reads passes failed =>
    exact ⟨.schema error, rfl,
      (run_of_reads sourced reads).trans (document_unrendered passes failed)⟩

end

theorem run_ends (library : Settings.Library) (tree : FileTree) (options : Options) :
    Ends library tree options := by
  rcases Option.eq_none_or_eq_some options.source with unsourced | ⟨source, sourced⟩
  · exact .unsourced (by simp only [run, unsourced])
  cases loaded : loadSettings library tree.read options.config with
  | error error =>
    cases told : error.message? with
    | none => exact .untold told (by simp only [run, sourced, loaded])
    | some message => exact .stopped sourced (.loading loaded told)
  | ok settings =>
    cases parsed : parseFile source (tree.read source) with
    | error error => exact .stopped sourced (.reading loaded parsed)
    | ok file =>
      have reads : Reads library tree options source settings file := ⟨loaded, parsed⟩
      obtain ⟨⟨reports, registry, raised⟩, extracted⟩ : ∃ result,
          extract (settings.marked (Text.markFor file.text)).rules (options.isStrict settings)
            file.declarations = result := ⟨_, rfl⟩
      have passes : Passes options settings file reports registry raised :=
        runPasses_eq_iff.mp extracted
      cases raised with
      | some error => exact .stopped sourced (.extraction reads passes)
      | none =>
        cases rendered : renderRegistry options settings registry with
        | error error => exact .stopped sourced (.rendering reads passes rendered)
        | ok text =>
          -- Where the document goes is not looked at before it is there.
          have delivers (output : Option Path) := run_of_rendered { options with output }
            sourced ⟨loaded, parsed⟩ passes rendered
          exact .rendered sourced (.mk reads passes rendered) (fun _ => encode?_eq_some) delivers

/-! ## Command lines -/

/-- A text without escape characters is shown as it is. -/
def Library.ShowsPlain (library : Library) : Prop :=
  ∀ stream text, '\x1b' ∉ text.toList → library.shown stream text = text

theorem Library.ShowsPlain.printed {library : Library} (plain : library.ShowsPlain)
    (stream : Stream) {texts : List String} (unescaped : ∀ text ∈ texts, '\x1b' ∉ text.toList) :
    library.printed stream texts = String.join texts := by
  have shown : texts.map (library.shown stream) = texts :=
    (List.map_congr_left fun text among => plain stream text (unescaped text among)).trans
      (List.map_id _)
  rw [Library.printed, shown]

section
variable {library : Library} {tree : FileTree} {arguments : List String}
  {environment : Option String} {options : Options} {named : options.hasZero = false}

section
variable (invoked : library.commandLine arguments environment = .run options named)
include invoked

theorem execute_of_perform {outcome : Outcome} {after : FileTree}
    (performed : perform library.toLibrary tree options = (outcome, after)) :
    execute library tree arguments environment = (library.display outcome, after) := by
  simp only [execute, invoked, performed]

/-- A command does nothing behind its run, unless there is a document to be saved. -/
theorem execute_of_run {outcome : Outcome} (ran : run library.toLibrary tree.read options = outcome)
    (not_saving : ∀ path document, outcome.ending ≠ .saving path document) :
    execute library tree arguments environment = (library.display outcome, tree) := by
  apply execute_of_perform invoked
  rw [perform, ran]
  split
  · rename_i saving
    exact absurd saving (not_saving _ _)
  · rfl

theorem execute_of_stops {source : Path} {message : String} {reports : List Report}
    {told : List String} (sourced : options.source = some source)
    (stops : Stops library.toLibrary tree options source message reports told) :
    ∃ failure, failure.message? = some message ∧ execute library tree arguments environment =
      (⟨library.printed .out (blocks reports), library.printed .err (told ++ [errorLine message]),
        .failed failure⟩, tree) := by
  obtain ⟨failure, has_message, ran⟩ := run_of_stops sourced stops
  rw [failing_of_message has_message] at ran
  exact ⟨failure, has_message, execute_of_run invoked ran nofun⟩

theorem execute_of_saving {stdout stderr : List String} {bytes : List UInt8} {path : Path}
    {after : FileTree} (ran : run library.toLibrary tree.read options =
      ⟨stdout, stderr, .saving path (some bytes)⟩)
    (saved : tree.save path bytes = .ok after) :
    execute library tree arguments environment =
      (⟨library.printed .out (stdout ++ [savedText path]), library.printed .err stderr, .finished⟩,
        after) := by
  have performed : perform library.toLibrary tree options =
      (⟨stdout ++ [savedText path], stderr, .finished⟩, after) := by
    simp only [perform, ran, Option.getD_some, saved, savedOutcome]
  exact execute_of_perform invoked performed

/-- What a command prints without an output and saves with one is the same document. -/
theorem renders_of_success (output : options.output = none)
    (success : (execute library tree arguments environment).1.ending.exitCode = 0) :
    ∃ source reports registry text, options.source = some source ∧
      Renders library.toLibrary tree options source reports registry text ∧
      execute library tree arguments environment =
        (⟨library.printed .out (blocks reports ++ resultTexts ++ [text]),
          library.printed .err (options.allTold source registry), .finished⟩, tree) ∧
      ∀ path, run library.toLibrary tree.read { options with output := some path } =
        ⟨blocks reports, options.allTold source registry,
          .saving path (some text.toUTF8.toList)⟩ := by
  cases run_ends library.toLibrary tree options with
  | unsourced ran =>
    rw [execute_of_run invoked ran nofun] at success
    cases success
  | untold _ ran =>
    rw [execute_of_run invoked ran nofun] at success
    cases success
  | stopped sourced stops =>
    obtain ⟨failure, -, executed⟩ := execute_of_stops invoked sourced stops
    rw [executed] at success
    cases success
  | @rendered source reports registry text bytes sourced renders content_eq delivers =>
    have ran : run library.toLibrary tree.read options = delivered options.output (blocks reports)
        (options.allTold source registry) text bytes := delivers options.output
    rw [output] at ran
    cases bytes with
    | none =>
      rw [execute_of_run invoked ran nofun] at success
      cases success
    | some content =>
      cases content_eq content rfl
      exact ⟨source, reports, registry, text, sourced, renders, execute_of_run invoked ran nofun,
        fun path => delivers (some path)⟩

/-- A command that comes to a document finishes, if the separator of its settings is a text. -/
theorem finished_of_renders {source : Path} {reports : List Report} {registry : Registry}
    {text : String} {settings : Settings} (output : options.output = none)
    (sourced : options.source = some source)
    (renders : Renders library.toLibrary tree options source reports registry text)
    (loaded : loadSettings library.toLibrary tree.read options.config = .ok settings)
    (unbroken : Text.isBroken settings.segmentSeparator = false) :
    (execute library tree arguments environment).1.ending = .finished := by
  cases renders with
  | mk reads passes rendered =>
    cases loaded.symm.trans reads.loaded
    have ran := run_of_rendered options sourced reads passes rendered
    rw [output, encode?_of_unbroken unbroken] at ran
    rw [execute_of_run invoked ran nofun]
    rfl

/-- Where saving fails there is no message. -/
theorem run_of_failed {failure : Failure} {message : String}
    (failed : (execute library tree arguments environment).1.ending = .failed failure)
    (has_message : failure.message? = some message) :
    (run library.toLibrary tree.read options).ending = .failed failure := by
  rw [execute_of_perform invoked rfl] at failed
  change (perform library.toLibrary tree options).1.ending = .failed failure at failed
  rw [perform] at failed
  split at failed
  · rename_i path document saving
    split at failed
    · cases document <;> cases failed
      cases has_message
    · cases failed
      cases has_message
  · exact failed

/-- A command that fails with a message has been stopped by an error with that message. -/
theorem stops_of_failed {failure : Failure} {message : String}
    (failed : (execute library tree arguments environment).1.ending = .failed failure)
    (has_message : failure.message? = some message) :
    ∃ source reports told, options.source = some source ∧
      Stops library.toLibrary tree options source message reports told := by
  have failed := run_of_failed invoked failed has_message
  cases run_ends library.toLibrary tree options with
  | unsourced ran =>
    rw [ran] at failed
    cases failed
  | untold no_message ran =>
    rw [ran] at failed
    cases failed
    rw [Failure.message?, no_message] at has_message
    cases has_message
  | @stopped source _ reports told sourced stops =>
    obtain ⟨_, has_reason, ran⟩ := run_of_stops sourced stops
    rw [ran] at failed
    cases failed
    rw [has_reason] at has_message
    cases has_message
    exact ⟨source, reports, told, sourced, stops⟩
  | @rendered source reports registry text bytes _ _ _ delivers =>
    have ran : run library.toLibrary tree.read options = delivered options.output (blocks reports)
        (options.allTold source registry) text bytes := delivers options.output
    rw [ran] at failed
    cases output : options.output with
    | some path =>
      rw [output] at failed
      cases failed
    | none =>
      rw [output] at failed
      cases bytes <;> cases failed
      cases has_message

end

theorem Stops.passes_reported {source : Path} {message : String} {reports : List Report}
    {told : List String} {library : Settings.Library}
    (stops : Stops library tree options source message reports told) :
    reports.map (·.pass) <+: Pass.all := by
  cases stops with
  | loading | reading => exact List.nil_prefix
  | extraction _ passes => exact PassesRun.passes_reported passes
  | rendering _ passes _ => exact PassesRun.passes_reported passes

theorem Renders.all_reported {source : Path} {reports : List Report} {registry : Registry}
    {text : String} {library : Settings.Library}
    (renders : Renders library tree options source reports registry text) :
    reports.map (·.pass) = Pass.all := by
  cases renders with
  | mk _ passes _ => exact PassesRun.all_reported passes

end

/-- A command that fails with a message has been stopped by an error: it changes no file and prints
the reports of the finished passes and, behind what it has told, an error line. One that finishes
without an output prints the reports of all passes, a title and the document. With an output that
can be written, the file holds that document, and the same reports are printed with a line that it
is saved. One that comes to a document finishes, if it can be encoded. A stream may show less than what is printed on it, but not of texts without escape
characters. -/
theorem failures_leave_no_trace_and_outputs_agree (library : Library)
    (plain : library.ShowsPlain) (tree : FileTree) (arguments : List String)
    (environment : Option String) (options : Options) (named : options.hasZero = false)
    (invoked : library.commandLine arguments environment = .run options named) :
    (∀ failure message, (execute library tree arguments environment).1.ending = .failed failure →
      failure.message? = some message → ∃ source reports told, options.source = some source ∧
        Stops library.toLibrary tree options source message reports told) ∧
    (∀ source message reports told, options.source = some source →
      Stops library.toLibrary tree options source message reports told →
      reports.map (·.pass) <+: Pass.all ∧
      ∃ display, execute library tree arguments environment = (display, tree) ∧
        display.ending.exitCode = 1 ∧ display.stdout = library.printed .out (blocks reports) ∧
        display.stderr = library.printed .err (told ++ ["Error! " ++ message ++ "\n"])) ∧
    (options.output = none → (execute library tree arguments environment).1.ending.exitCode = 0 →
      ∃ source reports registry text, options.source = some source ∧
        Renders library.toLibrary tree options source reports registry text ∧
        reports.map (·.pass) = Pass.all ∧
        execute library tree arguments environment =
          (⟨library.printed .out (blocks reports ++ ["Result\n", "\n", text]),
            library.printed .err (options.allTold source registry), .finished⟩, tree) ∧
        ∀ path others settingsPath also_named after,
          library.commandLine others settingsPath =
            .run { options with output := some path } also_named →
          tree.save path text.toUTF8.toList = .ok after →
          execute library tree others settingsPath =
            (⟨library.printed .out
                (blocks reports ++ ["Document saved to " ++ path.text ++ "\n"]),
              library.printed .err (options.allTold source registry), .finished⟩, after) ∧
          ∃ parts, after.find path = .ok (.file text.toUTF8.toList parts) ∧
            ∀ other, other ≠ parts → after.files.lookup other = tree.files.lookup other) ∧
    (∀ source reports registry text settings, options.output = none →
      options.source = some source →
      Renders library.toLibrary tree options source reports registry text →
      loadSettings library.toLibrary tree.read options.config = .ok settings →
      Text.isBroken settings.segmentSeparator = false →
      (execute library tree arguments environment).1.ending = .finished) ∧
    ∀ stream texts, (∀ text ∈ texts, '\x1b' ∉ text.toList) →
      library.printed stream texts = String.join texts := by
  refine ⟨fun failure message => stops_of_failed invoked, ?_, ?_,
    fun source reports registry text settings => finished_of_renders invoked,
    fun stream texts => plain.printed stream⟩
  · intro source message reports told sourced stops
    obtain ⟨failure, -, executed⟩ := execute_of_stops invoked sourced stops
    exact ⟨stops.passes_reported, _, executed, rfl, rfl, rfl⟩
  · intro output success
    obtain ⟨source, reports, registry, text, sourced, renders, executed, saving⟩ :=
      renders_of_success invoked output success
    rw [List.append_assoc] at executed
    refine ⟨source, reports, registry, text, sourced, renders, renders.all_reported, executed, ?_⟩
    intro path others settingsPath also_named after also_invoked saved
    exact ⟨execute_of_saving also_invoked (saving path) saved, FileTree.save_effects saved⟩

/-- Without control sequences, texts that have none are left as they are. -/
theorem standard_showsPlain : Library.standard.ShowsPlain := by
  intro stream text plain
  change String.ofList (Text.withoutControls text.toList) = text
  rw [Text.withoutControls_eq_self _ plain, String.ofList_toList]

/-- A source file with an object that has a comment. -/
def noteTree (comment : String) : FileTree :=
  .ofFiles ["home", "work"] [(["a.swift"],
    ("/// " ++ comment ++ "\nstruct Note: Object \x7b\n\x7d\n").toUTF8.toList)]

def noteLine : List String := ["a.swift", "--all-objects"]

def noteSavedLine : List String := noteLine ++ ["-o", "../docs/out.md"]

def noteOptions : Options := { source := some ⟨"", ["a.swift"]⟩, allObjects := true }

def notePath : Path := ⟨"", ["..", "docs", "out.md"]⟩

theorem noteLine_invokes :
    Library.standard.commandLine noteLine none = .run noteOptions (by decide +kernel) ∧
      Library.standard.commandLine noteSavedLine none =
        .run { noteOptions with output := some notePath } (by decide +kernel) := by
  decide +kernel

/-- The file is made in a directory beside the working directory. -/
theorem noteTree_save (comment : String) (content : List UInt8) :
    (noteTree comment).save notePath content =
      .ok ({ noteTree comment with
        directories := (noteTree comment).directories ++ [["home", "docs"]] }.putFile
          ["home", "docs", "out.md"] content) := by
  rfl

/-- A missing source stops the command; a source that is there is printed and saved alike. -/
theorem missing_source_and_note :
    (∃ display, execute .standard (noteTree "A note.") ["/home/b.swift"] none =
        (display, noteTree "A note.") ∧
      display.ending.exitCode = 1 ∧
      display.stdout = Library.standard.printed .out (blocks []) ∧
      display.stderr = Library.standard.printed .err ([] ++ ["Error! " ++
        "cannot read /home/b.swift: [Errno 2] No such file or directory: '/home/b.swift'" ++
          "\n"])) ∧
    ∃ source reports registry text after,
      execute .standard (noteTree "A note.") noteLine none =
        (⟨Library.standard.printed .out (blocks reports ++ ["Result\n", "\n", text]),
          Library.standard.printed .err (noteOptions.allTold source registry), .finished⟩,
          noteTree "A note.") ∧
      execute .standard (noteTree "A note.") noteSavedLine none =
        (⟨Library.standard.printed .out
            (blocks reports ++ ["Document saved to " ++ notePath.text ++ "\n"]),
          Library.standard.printed .err (noteOptions.allTold source registry), .finished⟩, after) ∧
      ∃ parts, after.find notePath = .ok (.file text.toUTF8.toList parts) := by
  constructor
  · let path : Path := ⟨"/", ["home", "b.swift"]⟩
    let reason := "cannot read /home/b.swift: [Errno 2] No such file or directory: '/home/b.swift'"
    have invoked : Library.standard.commandLine ["/home/b.swift"] none =
        .run { source := some path } (by decide +kernel) := by decide +kernel
    have missing : (noteTree "A note.").read path = .error .notFound := by decide +kernel
    have reason_eq : reason =
        "cannot read " ++ path.text ++ ": " ++ FileFault.message .notFound path := by decide +kernel
    have failed : parseFile path ((noteTree "A note.").read path) =
        .error (.source reason none) := by
      rw [missing, reason_eq]
      rfl
    have stops : Stops Library.standard.toLibrary (noteTree "A note.") { source := some path } path
        reason [] [] := .reading rfl failed
    obtain ⟨-, stopped, -, -, -⟩ := failures_leave_no_trace_and_outputs_agree .standard
      standard_showsPlain (noteTree "A note.") ["/home/b.swift"] none _ _ invoked
    exact (stopped path reason [] [] rfl stops).2
  · have success : (execute .standard (noteTree "A note.") noteLine none).1.ending.exitCode = 0 := by
      decide +kernel
    obtain ⟨-, -, succeeding, -, -⟩ := failures_leave_no_trace_and_outputs_agree .standard
      standard_showsPlain (noteTree "A note.") noteLine none _ _ noteLine_invokes.1
    obtain ⟨source, reports, registry, text, -, -, -, printing, saving⟩ := succeeding rfl success
    obtain ⟨saved, parts, found, -⟩ :=
      saving notePath _ _ _ _ noteLine_invokes.2 (noteTree_save _ _)
    exact ⟨source, reports, registry, text, _, printing, saved, parts, found⟩

/-! ## Control sequences -/

theorem withoutControls_line (front back : String) :
    withoutControls (front ++ "\n" ++ back) =
      withoutControls front ++ "\n" ++ withoutControls back := by
  have line : "\n" = String.ofList ['\n'] := rfl
  rw [withoutControls, String.toList_append, String.toList_append, line, String.toList_ofList,
    List.append_assoc, List.singleton_append, Text.withoutControls_append_line,
    ← List.singleton_append, String.ofList_append, String.ofList_append, String.append_assoc]
  rfl

/-- The comment's control sequence is saved with the document but not printed with it. -/
theorem control_sequence_not_printed :
    ∃ text : String,
      (execute .standard (noteTree "\x1b[1mbold") noteSavedLine none).2.files.lookup
        ["home", "docs", "out.md"] = some text.toUTF8.toList ∧
      (execute .standard (noteTree "\x1b[1mbold") noteLine none).1.ending = .finished ∧
      (execute .standard (noteTree "\x1b[1mbold") noteLine none).1.stdout ≠
        "Result\n\n" ++ text := by
  let tree := noteTree "\x1b[1mbold"
  let front := "## Objects\n\n### <span id=\"_global_Note\"></span>Note object\n"
  let back := "\n#### Properties\n\n|Key|ValueType|Required|Default|Description|\n" ++
    "|---|---|---|---|---|\n\n---\n"
  let shown := front ++ "\n" ++ ("\x1b[1mbold" ++ "\n" ++ back)
  have ran : run Library.standard.toLibrary tree.read noteOptions =
      ⟨["Result\n", "\n", shown], [], .finished⟩ := by decide +kernel
  have saving : run Library.standard.toLibrary tree.read
      { noteOptions with output := some notePath } =
        ⟨[], [], .saving notePath (some shown.toUTF8.toList)⟩ := by decide +kernel
  have printed := execute_of_run noteLine_invokes.1 ran nofun
  have saved := execute_of_saving noteLine_invokes.2 saving (noteTree_save _ _)
  have stripped : withoutControls shown = front ++ "\n" ++ ("bold" ++ "\n" ++ back) := by
    have bold : withoutControls "\x1b[1mbold" = "bold" := by
      have characters : Text.withoutControls "\x1b[1mbold".toList = "bold".toList := by cbv
      rw [withoutControls, characters, String.ofList_toList]
    have front_plain : withoutControls front = front :=
      standard_showsPlain .out front (by decide +kernel)
    have back_plain : withoutControls back = back :=
      standard_showsPlain .out back (by decide +kernel)
    rw [withoutControls_line, withoutControls_line, bold, front_plain, back_plain]
  refine ⟨shown, ?_, ?_, ?_⟩
  · rw [saved, FileTree.lookup_putFile, if_pos rfl]
  · rw [printed]
    rfl
  · rw [printed]
    have title := standard_showsPlain .out "Result\n" (by decide +kernel)
    have line := standard_showsPlain .out "\n" (by decide +kernel)
    have shown_out : Library.standard.shown .out shown = withoutControls shown := rfl
    simp only [Library.display, Library.printed, List.map_cons, List.map_nil, title, line,
      shown_out, stripped]
    decide +kernel

end ApiHandbook.Command
