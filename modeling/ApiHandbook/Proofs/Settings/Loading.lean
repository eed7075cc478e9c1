import Mathlib.Data.List.Basic
import ApiHandbook.Command.Standard
import ApiHandbook.Proofs.Text.Utf8

/-!
# Failures of loading settings

Most of what can be wrong with a settings file is told in an error line. A file that is not UTF-8
and a mapping with a key that is no text are not: there a run breaks off without a word. It does so
as well where the YAML library breaks off with an error that is not about YAML, which is not to
happen.
-/
namespace ApiHandbook.Settings

open Files

/-- A load ends with settings or with an error that has something to say. -/
def Told (result : Except LoadError Settings) : Prop :=
  (∃ settings, result = .ok settings) ∨
    ∃ error message, result = .error error ∧ error.message? = some message

/-- The YAML library gives the text of a file a value or says that it is no YAML. -/
def Library.Answers (library : Library) (content : Except FileFault (List UInt8)) : Prop :=
  ∀ (text : List Char) error, content = .ok (text.flatMap String.utf8EncodeChar) →
    library.yaml (Text.unifyLineEnds text) ≠ .error (.escaping error)

/-- What a settings file holds when its failure is not told. -/
inductive Untold (library : Library) (bytes : List UInt8) : Prop
  | notText (undecodable : ∀ text : List Char, bytes ≠ text.flatMap String.utf8EncodeChar)
  | keyNotText {text : List Char} {entries : List (Yaml.Value × Yaml.Value)}
      {entry : Yaml.Value × Yaml.Value}
      (encoded : bytes = text.flatMap String.utf8EncodeChar)
      (parsed : library.yaml (Text.unifyLineEnds text) = .ok (.mapping entries))
      (among : entry ∈ entries) (no_text : ∀ key, entry.1 ≠ .string key)

theorem told_ok (settings : Settings) : Told (.ok settings) := .inl ⟨settings, rfl⟩

theorem told_error_iff (error : LoadError) :
    Told (.error error) ↔ error.message?.isSome = true := by
  rw [Option.isSome_iff_exists]
  constructor
  · rintro (⟨_, impossible⟩ | ⟨_, message, same, told⟩)
    · cases impossible
    · cases same
      exact ⟨message, told⟩
  · rintro ⟨message, told⟩
    exact .inr ⟨error, message, rfl, told⟩

theorem textEntries?_eq_none_iff (entries : List (Yaml.Value × Yaml.Value)) :
    textEntries? entries = none ↔ ∃ entry ∈ entries, ∀ key, entry.1 ≠ .string key := by
  induction entries with
  | nil => simp [textEntries?]
  | cons entry rest ih =>
    obtain ⟨key, value⟩ := entry
    cases key with
    | string key => simp [textEntries?, ih]
    | _ => simp [textEntries?]

section
variable (library : Library) (path : Path)

/-- Whatever validation finds wrong is told. -/
theorem told_validate (entries : List (List Text.CodePoint × Yaml.Value)) :
    Told ((library.validate entries).mapError (.invalid path)) := by
  cases library.validate entries with
  | ok settings => exact told_ok settings
  | error fault => exact (told_error_iff _).mpr rfl

/-- The value of a document is taken, or it is told what is wrong, unless a key is no text. -/
theorem told_ofValue_iff (value : Yaml.Value) :
    Told (ofValue library path value) ↔ ∀ entries, value = .mapping entries →
      ∀ entry ∈ entries, ∃ key, entry.1 = .string key := by
  cases value with
  | mapping entries =>
    have no_text := textEntries?_eq_none_iff entries
    rw [ofValue]
    cases found : textEntries? entries with
    | none =>
      obtain ⟨entry, among, other⟩ := no_text.mp found
      constructor
      · intro told
        simp [told_error_iff, LoadError.message?] at told
      · intro texts
        obtain ⟨key, text⟩ := texts entries rfl entry among
        exact absurd text (other key)
    | some texts =>
      have all_texts : ∀ entry ∈ entries, ∃ key, entry.1 = .string key := by
        simpa [found] using no_text
      refine iff_of_true (told_validate library path texts) fun _ same => ?_
      cases same
      exact all_texts
  | null => exact iff_of_true (told_validate library path []) (by simp)
  | _ => exact iff_of_true ((told_error_iff _).mpr rfl) (by simp)

variable {library} {bytes : List UInt8} {text : List Char}

/-- What is in a file that can be decoded. -/
theorem untold_iff (decoded : Text.decodeUtf8 bytes = .ok text) :
    Untold library bytes ↔
      ∃ entries, library.yaml (Text.unifyLineEnds text) = .ok (.mapping entries) ∧
        ∃ entry ∈ entries, ∀ key, entry.1 ≠ .string key := by
  have encoded_iff := Text.decodeUtf8_eq_ok_iff bytes
  have encoded := (encoded_iff text).mp decoded
  constructor
  · rintro (undecodable | ⟨also_encoded, parsed, among, no_text⟩)
    · exact absurd encoded (undecodable text)
    · have also_decoded := (encoded_iff _).mpr also_encoded
      rw [decoded] at also_decoded
      cases also_decoded
      exact ⟨_, parsed, _, among, no_text⟩
  · rintro ⟨entries, parsed, entry, among, no_text⟩
    exact .keyNotText encoded parsed among no_text

theorem load_of_zero (zero : path.hasZero = true) (content : Except FileFault (List UInt8)) :
    load library path content = .error .zeroInPath := by
  simp [load, zero, throw, throwThe, MonadExceptOf.throw, bind, Except.bind]

section
variable (named : path.hasZero = false)
include named

theorem load_of_fault (fault : FileFault) :
    load library path (.error fault) = .error (.unreadable path fault) := by
  simp [load, named, Except.mapError, bind, Except.bind]

theorem load_of_undecodable {fault : Text.Utf8Fault}
    (undecodable : Text.decodeUtf8 bytes = .error fault) :
    load library path (.ok bytes) = .error (.undecodable fault) := by
  simp [load, named, undecodable, Except.mapError, bind, Except.bind]

theorem load_of_decoded (decoded : Text.decodeUtf8 bytes = .ok text) :
    load library path (.ok bytes) =
      (library.yaml (Text.unifyLineEnds text)).mapError (.ofFault path) >>= ofValue library path := by
  simp [load, named, decoded, Except.mapError, bind, Except.bind]

theorem told_load_ok_iff (answers : library.Answers (.ok bytes)) :
    Told (load library path (.ok bytes)) ↔ ¬ Untold library bytes := by
  cases decoded : Text.decodeUtf8 bytes with
  | error fault =>
    have untold : Untold library bytes := by
      refine .notText fun text encoded => ?_
      rw [(Text.decodeUtf8_eq_ok_iff bytes text).mpr encoded] at decoded
      cases decoded
    rw [load_of_undecodable path named decoded, told_error_iff]
    exact iff_of_false (by simp [LoadError.message?]) (not_not_intro untold)
  | ok text =>
    have encoded := (Text.decodeUtf8_eq_ok_iff bytes text).mp decoded
    rw [untold_iff decoded, load_of_decoded path named decoded]
    cases parsed : library.yaml (Text.unifyLineEnds text) with
    | error fault =>
      cases fault with
      | malformed reason => exact iff_of_true ((told_error_iff _).mpr rfl) (by simp)
      | escaping error => exact absurd parsed (answers text error (congrArg Except.ok encoded))
    | ok value =>
      change Told (ofValue library path value) ↔ _
      rw [told_ofValue_iff]
      simp

end

/-- A failed load has something to say exactly if the path can be one of a file and the file is not
of the kinds that are untold. -/
theorem told_load_iff {content : Except FileFault (List UInt8)}
    (answers : library.Answers content) :
    Told (load library path content) ↔
      path.hasZero = false ∧ ∀ bytes, content = .ok bytes → ¬ Untold library bytes := by
  cases named : path.hasZero with
  | true =>
    rw [load_of_zero path named, told_error_iff]
    exact iff_of_false (by simp [LoadError.message?]) (by simp)
  | false =>
    cases content with
    | error fault =>
      rw [load_of_fault path named, told_error_iff]
      exact iff_of_true rfl (by simp)
    | ok bytes => simpa using told_load_ok_iff path named answers

end

end ApiHandbook.Settings

namespace ApiHandbook.Command

open Files Settings

variable {library : Library}

/-- A run ends where its settings cannot be loaded. -/
theorem execute_of_load_error {tree : FileTree} {arguments : List String}
    {environment : Option String} {options : Options} {named : options.hasZero = false} {path : Path}
    {error : LoadError}
    (invoked : library.commandLine arguments environment = .run options named)
    (sourced : options.source.isSome = true) (configured : options.config = some path)
    (failed : load library.toLibrary path (tree.read path) = .error error) :
    execute library tree arguments environment =
      (library.display (failing [] [] (.settings error)), tree) := by
  obtain ⟨source, sourced⟩ := Option.isSome_iff_exists.mp sourced
  have ends : run library.toLibrary tree.read options = failing [] [] (.settings error) := by
    simp only [run, sourced, loadSettings, configured, failed]
  simp only [execute, invoked, perform, ends, failing]

/-- Loading settings ends with settings or a message, whatever the file holds, unless the path holds
a zero, the file is not UTF-8 or a key of its mapping is no text. A command answers a failure that
has a message with an error line, and one that has none with nothing. -/
theorem settings_failures_told_iff (library : Library) (path : Path)
    (content : Except FileFault (List UInt8)) (answers : library.Answers content) :
    (Told (load library.toLibrary path content) ↔
      path.hasZero = false ∧ ∀ bytes, content = .ok bytes → ¬ Untold library.toLibrary bytes) ∧
    ∀ (tree : FileTree) arguments environment options named error,
      library.commandLine arguments environment = .run options named →
      options.source.isSome = true → options.config = some path → tree.read path = content →
      load library.toLibrary path content = .error error →
      ∃ display, execute library tree arguments environment = (display, tree) ∧
        display.ending.exitCode = 1 ∧ display.stdout = "" ∧
        (∀ message, error.message? = some message →
          display.stderr = library.shown .err ("Error! " ++ message ++ "\n")) ∧
        (error.message? = none → display.stderr = "") := by
  refine ⟨told_load_iff path answers, ?_⟩
  rintro tree arguments environment options named error invoked sourced configured rfl failed
  refine ⟨_, execute_of_load_error invoked sourced configured failed, rfl, rfl, ?_, ?_⟩
  · intro message told
    simp [failing, Library.display, Library.printed, Failure.message?, told, errorLine]
  · intro untold
    simp [failing, Library.display, Library.printed, Failure.message?, untold]

/-- A command line with a settings file. -/
def settingsLine : List String := ["--config", "c.yml", "a.swift"]

def settingsTree (bytes : List UInt8) : FileTree := .ofFiles ["work"] [(["c.yml"], bytes)]

def settingsPath : Path := ⟨"", ["c.yml"]⟩

def settingsOptions : Options := { source := some ⟨"", ["a.swift"]⟩, config := some settingsPath }

theorem settingsLine_invokes :
    Library.standard.commandLine settingsLine none = .run settingsOptions (by decide +kernel) := by
  decide +kernel

/-- A settings file that is a list is told. -/
theorem list_of_settings_told :
    Told (load Library.standard.toLibrary settingsPath (.ok "- a".toUTF8.toList)) ∧
    ¬ Untold Library.standard.toLibrary "- a".toUTF8.toList ∧
    ∃ display, execute .standard (settingsTree "- a".toUTF8.toList) settingsLine none =
        (display, settingsTree "- a".toUTF8.toList) ∧
      display.ending.exitCode = 1 ∧ display.stdout = "" ∧
      display.stderr =
        Library.standard.shown .err ("Error! " ++ "config c.yml must be a mapping" ++ "\n") := by
  obtain ⟨bytes, bytes_eq⟩ : ∃ bytes, "- a".toUTF8.toList = bytes := ⟨_, rfl⟩
  have decoded : Text.decodeUtf8 bytes = .ok "- a".toList := by
    rw [← bytes_eq]
    decide +kernel
  have failed : load Library.standard.toLibrary settingsPath (.ok bytes) =
      .error (.notMapping settingsPath) := by
    rw [← bytes_eq]
    decide +kernel
  have read : (settingsTree bytes).read settingsPath = .ok bytes := by
    rw [← bytes_eq]
    decide +kernel
  have answers : Library.standard.Answers (.ok bytes) := by
    intro text error encoded escapes
    have same := (Text.decodeUtf8_eq_ok_iff bytes text).mpr (Except.ok.inj encoded)
    rw [decoded] at same
    cases same
    have loaded : load Library.standard.toLibrary settingsPath (.ok bytes) = _ :=
      load_of_decoded settingsPath (by decide +kernel) decoded
    rw [escapes, failed] at loaded
    cases loaded
  have message : LoadError.message? (.notMapping settingsPath) =
      some "config c.yml must be a mapping" := by decide +kernel
  have told : Told (load Library.standard.toLibrary settingsPath (.ok bytes)) :=
    .inr ⟨_, _, failed, message⟩
  obtain ⟨told_iff, answered⟩ := settings_failures_told_iff .standard settingsPath (.ok bytes) answers
  obtain ⟨display, executed, code, empty, line, -⟩ :=
    answered (settingsTree bytes) settingsLine none _ _ _ settingsLine_invokes rfl rfl read failed
  rw [bytes_eq]
  exact ⟨told, (told_iff.mp told).2 _ rfl, display, executed, code, empty, line _ message⟩

/-- A file with the byte `FF` and the mapping `1: a` break the command off: there is no error
line. -/
theorem undecodable_settings_untold :
    ¬ Told (load Library.standard.toLibrary settingsPath (.ok [0xFF])) ∧
    ¬ Told (load Library.standard.toLibrary settingsPath (.ok "1: a".toUTF8.toList)) ∧
    ∀ bytes ∈ [[0xFF], "1: a".toUTF8.toList],
      (execute .standard (settingsTree bytes) settingsLine none).1.stderr = "" := by
  have undecodable : load Library.standard.toLibrary settingsPath (.ok [0xFF]) =
      .error (.undecodable ⟨0, 1, 0xFF, .invalidStart⟩) := by decide +kernel
  have keyed : load Library.standard.toLibrary settingsPath (.ok "1: a".toUTF8.toList) =
      .error .keyNotText := by decide +kernel
  refine ⟨?_, ?_, by decide +kernel⟩
  · rw [undecodable, told_error_iff]
    decide
  · rw [keyed, told_error_iff]
    decide

end ApiHandbook.Command
