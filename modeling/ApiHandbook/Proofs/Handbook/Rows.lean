import ApiHandbook.Handbook.Document
import ApiHandbook.Proofs.Extraction.Images
import ApiHandbook.Proofs.Extraction.Scoping
import ApiHandbook.Proofs.Extraction.Wrappers
import ApiHandbook.Proofs.Source.DeclaredNames
import ApiHandbook.Proofs.Text.SnakeCase

/-!
# Reading table rows back

A row is split at the pipes that are not directly behind a backslash. Pipes inside cells are
escaped and so do not count, whatever else a text holds. The one text that does harm is one that
ends with a backslash: it takes the pipe behind its cell for an escaped one.
-/
namespace ApiHandbook.Handbook
open Schema Source Text Extraction

/-! ## Splitting rows -/

/-- The parts of a text between the pipes that are not directly behind a backslash. `before` is
the character in front of the text. -/
def splitCells (before : Option Char) : List Char → List (List Char)
  | [] => [[]]
  | c :: rest =>
    if c = '|' ∧ before ≠ some '\\' then [] :: splitCells (some c) rest
    else (splitCells (some c) rest).modifyHead (c :: ·)

def rowCells (row : String) : List String := (splitCells none row.toList).map String.ofList

def unescapePipes : List Char → List Char
  | [] => []
  | '\\' :: '|' :: rest => '|' :: unescapePipes rest
  | c :: rest => c :: unescapePipes rest

/-- What a cell says: each escaped pipe is a pipe again. -/
def readCell (cell : String) : String := String.ofList (unescapePipes cell.toList)

/-- A text with its line breaks shown. -/
def showBreaks (text : String) : String :=
  String.ofList (text.toList.flatMap fun c => if c = '\n' then "<br>".toList else [c])

/-- The row of a member as it is meant: five cells between the outer pipes, the last two to be
read back. -/
def ReadsBack (page : String) (member : Member) (row : String) : Prop :=
  ∃ defaultCell commentCell,
    rowCells row = ["", snakeCase member.key, describe page member.valueType,
      if member.isRequired then "true" else "false", defaultCell, commentCell, ""] ∧
    readCell defaultCell = showBreaks (member.defaultValue.getD "") ∧
    readCell commentCell = showBreaks member.comment

def endsWithBackslash (text : String) : Prop := text.toList.getLast? = some '\\'

/-- A text in which no pipe splits: each is directly behind a backslash. -/
def Unsplit (before : Option Char) : List Char → Prop
  | [] => True
  | c :: rest => (c = '|' → before = some '\\') ∧ Unsplit (some c) rest

theorem splitCells_append {before : Option Char} {cell : List Char} (unsplit : Unsplit before cell)
    (rest : List Char) :
    splitCells before (cell ++ rest) =
      (splitCells (cell.getLast?.or before) rest).modifyHead (cell ++ ·) := by
  induction cell generalizing before with
  | nil =>
    rw [List.nil_append, List.getLast?_nil, Option.none_or]
    cases splitCells before rest <;> rfl
  | cons c more ih =>
    obtain ⟨escaped, unsplit⟩ := unsplit
    have inside : ¬ (c = '|' ∧ before ≠ some '\\') := fun ⟨pipe, bare⟩ => bare (escaped pipe)
    rw [List.cons_append, splitCells, if_neg inside, ih unsplit, List.modifyHead_modifyHead]
    have last : (c :: more).getLast?.or before = more.getLast?.or (some c) := by
      cases more <;> simp [List.getLast?_cons]
    rw [last]
    rfl

/-- A cell and the pipe behind it: the pipe ends the cell unless a backslash stands before it. -/
theorem splitCells_cell {cell : List Char} (unsplit : Unsplit (some '|') cell) (rest : List Char) :
    splitCells (some '|') (cell ++ '|' :: rest) =
      if cell.getLast? = some '\\' then
        (splitCells (some '|') rest).modifyHead fun next => cell ++ '|' :: next
      else cell :: splitCells (some '|') rest := by
  rw [splitCells_append unsplit, splitCells]
  have last : cell.getLast?.or (some '|') = some '\\' ↔ cell.getLast? = some '\\' := by
    cases cell.getLast? <;> simp
  by_cases escape : cell.getLast? = some '\\'
  · rw [if_pos escape, if_neg (by simp [last.mpr escape]), List.modifyHead_modifyHead]
    rfl
  · rw [if_neg escape, if_pos ⟨rfl, fun same => escape (last.mp same)⟩]
    simp

theorem length_splitCells_cell {cell : List Char} (unsplit : Unsplit (some '|') cell)
    (rest : List Char) :
    (splitCells (some '|') (cell ++ '|' :: rest)).length =
      (splitCells (some '|') rest).length + if cell.getLast? = some '\\' then 0 else 1 := by
  rw [splitCells_cell unsplit]
  split <;> simp

/-! ## Texts in cells -/

/-- A character as it stands in a cell. -/
def cellChars (c : Char) : List Char :=
  if c = '|' then ['\\', '|'] else if c = '\n' then "<br>".toList else [c]

theorem cellText_toList (text : String) :
    (cellText text).toList = text.toList.flatMap cellChars := by
  rw [cellText, String.toList_ofList]
  rfl

theorem unsplit_of_not_mem {before : Option Char} {cell : List Char} (plain : '|' ∉ cell) :
    Unsplit before cell := by
  induction cell generalizing before with
  | nil => trivial
  | cons c rest ih =>
    rw [List.mem_cons, not_or] at plain
    exact ⟨fun pipe => absurd pipe.symm plain.1, ih plain.2⟩

theorem unsplit_escaped (before : Option Char) (text : List Char) :
    Unsplit before (text.flatMap cellChars) := by
  induction text generalizing before with
  | nil => trivial
  | cons c rest ih =>
    rw [List.flatMap_cons, cellChars]
    split
    · exact ⟨nofun, fun _ => rfl, ih _⟩
    · rename_i other
      split
      · exact ⟨nofun, nofun, nofun, nofun, ih _⟩
      · exact ⟨fun pipe => absurd pipe other, ih _⟩

theorem getLast?_cellText (text : String) :
    (cellText text).toList.getLast? = some '\\' ↔ endsWithBackslash text := by
  rw [cellText_toList, endsWithBackslash]
  induction text.toList using List.reverseRecOn with
  | nil => simp
  | append_singleton front last _ =>
    rw [List.flatMap_append, List.flatMap_singleton, cellChars, List.getLast?_concat]
    split
    · simp_all
    · split <;> simp_all

theorem not_mem_cellText (text : String) : '\n' ∉ (cellText text).toList := by
  rw [cellText_toList]
  intro shown
  obtain ⟨c, _, shown⟩ := List.mem_flatMap.mp shown
  unfold cellChars at shown
  split at shown
  · simp at shown
  · split at shown
    · simp at shown
    · rename_i newline
      exact newline (List.mem_singleton.mp shown).symm

/-- An escaped text never starts with a pipe, so a backslash of its own in front of it is kept. -/
theorem unescapePipes_cons_escaped (c : Char) (text : List Char) :
    unescapePipes (c :: text.flatMap cellChars) = c :: unescapePipes (text.flatMap cellChars) := by
  rw [unescapePipes]
  rintro rest rfl same
  cases text with
  | nil => cases same
  | cons d more =>
    rw [List.flatMap_cons, cellChars] at same
    split at same
    · cases same
    · split at same
      · cases same
      · cases same
        contradiction

theorem readCell_cellText (text : String) : readCell (cellText text) = showBreaks text := by
  rw [readCell, showBreaks, cellText_toList]
  congr 1
  induction text.toList with
  | nil => rfl
  | cons c rest ih =>
    rw [List.flatMap_cons, List.flatMap_cons, cellChars, ← ih]
    split
    · rename_i pipe
      rw [if_neg (by simp [pipe])]
      simp [unescapePipes, pipe]
    · split
      · simp [unescapePipes_cons_escaped, unescapePipes]
      · exact unescapePipes_cons_escaped c rest

/-! ## Cells without marks -/

def isCellMark (c : Char) : Bool := c = '|' || c = '\\' || c = '\n'

/-- A text that can stand in a row as it is. -/
def IsUnmarked (text : String) : Prop := ∀ c ∈ text.toList, isCellMark c = false

instance (text : String) : Decidable (IsUnmarked text) := List.decidableBAll _ _

theorem isCellMark_cases {c : Char} (mark : isCellMark c = true) :
    c = '|' ∨ c = '\\' ∨ c = '\n' := by
  simpa [isCellMark, or_assoc] using mark

theorem IsUnmarked.not_mem {text : String} (unmarked : IsUnmarked text) {mark : Char}
    (isMark : isCellMark mark = true) : mark ∉ text.toList := by
  intro shown
  rw [unmarked mark shown] at isMark
  cases isMark

theorem IsUnmarked.append {first second : String} (one : IsUnmarked first)
    (two : IsUnmarked second) : IsUnmarked (first ++ second) := by
  intro c shown
  rw [String.toList_append] at shown
  rcases List.mem_append.mp shown with front | back
  · exact one c front
  · exact two c back

theorem isUnmarked_intercalate {separator : String} (between : IsUnmarked separator)
    {texts : List String} (all : ∀ text ∈ texts, IsUnmarked text) :
    IsUnmarked (separator.intercalate texts) := by
  induction texts with
  | nil => simp [IsUnmarked]
  | cons text rest ih =>
    have front := all text List.mem_cons_self
    cases rest with
    | nil => simpa using front
    | cons next more =>
      rw [String.intercalate_cons_cons]
      exact (front.append between).append (ih fun other later => all other (by simp [later]))

theorem isUnmarked_of_isNameText {text : String} (name : IsNameText text) : IsUnmarked text := by
  intro c shown
  by_contra mark
  have inside := name c shown
  rcases isCellMark_cases (Bool.not_eq_false _ ▸ mark) with rfl | rfl | rfl <;>
    exact absurd inside (by decide)

theorem isUnmarked_snakeCase {name : String} (unmarked : IsUnmarked name) :
    IsUnmarked (snakeCase name) := by
  intro c shown
  by_contra mark
  have mark : isCellMark c = true := Bool.not_eq_false _ ▸ mark
  have known : isMarkOrCapital c = true ∧ c ≠ '_' := by
    rcases isCellMark_cases mark with rfl | rfl | rfl <;> exact ⟨rfl, by decide⟩
  exact unmarked.not_mem mark (mem_snakeCase_of_mark known.1 known.2 shown)

theorem isUnmarked_objectLink {page name : String} (page_unmarked : IsUnmarked page)
    (name_unmarked : IsUnmarked name) : IsUnmarked (objectLink page name) := by
  have underscore : IsUnmarked "_" := by decide
  have anchor : IsUnmarked (anchorId page name) :=
    ((underscore.append page_unmarked).append underscore).append name_unmarked
  have opening : IsUnmarked "[" := by decide
  have middle : IsUnmarked "](#" := by decide
  have closing : IsUnmarked ")" := by decide
  exact (((opening.append name_unmarked).append middle).append anchor).append closing

mutual

/-- A type in words has no marks but those of the page and of the objects it refers to. -/
theorem isUnmarked_describe {page : String} (page_unmarked : IsUnmarked page) :
    (type : ValueType) → (∀ name ∈ type.references, IsUnmarked name) →
      IsUnmarked (describe page type)
  | .unknown, _ | .string, _ | .number, _ | .boolean, _ => by
    rw [describe]
    decide
  | .object name, names => by
    have word : IsUnmarked " object" := by decide
    rw [describe]
    exact (isUnmarked_objectLink page_unmarked (names name (by simp [ValueType.references]))).append
      word
  | .array item, names => by
    have words : IsUnmarked "array of " := by decide
    rw [ValueType.references] at names
    rw [describe]
    exact words.append (isUnmarked_describe page_unmarked item names)
  | .oneOf _ cases, names => by
    have words : IsUnmarked "one of " := by decide
    have comma : IsUnmarked ", " := by decide
    rw [ValueType.references] at names
    rw [describe]
    exact words.append
      (isUnmarked_intercalate comma (isUnmarked_describeCases page_unmarked cases names))

theorem isUnmarked_describeCases {page : String} (page_unmarked : IsUnmarked page) :
    (cases : List (String × ValueType)) → (∀ name ∈ caseReferences cases, IsUnmarked name) →
      ∀ text ∈ describeCases page cases, IsUnmarked text
  | [], _ => by simp [describeCases]
  | (_, type) :: rest, names => by
    intro text listed
    rw [describeCases] at listed
    rw [caseReferences] at names
    rcases List.mem_cons.mp listed with rfl | later
    · exact isUnmarked_describe page_unmarked type fun name mentioned =>
        names name (List.mem_append_left _ mentioned)
    · exact isUnmarked_describeCases page_unmarked rest
        (fun name mentioned => names name (List.mem_append_right _ mentioned)) text later

end

/-! ## One row -/

/-- A member of which all is unmarked but the texts that users write. -/
structure NamesUnmarked (member : Member) : Prop where
  key : IsUnmarked member.key
  references : ∀ name ∈ member.valueType.references, IsUnmarked name

theorem memberRow_toList (page : String) (member : Member) :
    (tableRow (memberCells page member)).toList =
      '|' :: ((snakeCase member.key).toList ++ '|' :: ((describe page member.valueType).toList ++
        '|' :: ((if member.isRequired then "true" else "false").toList ++
          '|' :: ((cellText (member.defaultValue.getD "")).toList ++
            '|' :: ((cellText member.comment).toList ++ ['|']))))) := by
  simp [tableRow, memberCells]

theorem splitCells_unmarked {cell : String} (unmarked : IsUnmarked cell) (rest : List Char) :
    splitCells (some '|') (cell.toList ++ '|' :: rest) =
      cell.toList :: splitCells (some '|') rest := by
  have unsplit : Unsplit (some '|') cell.toList :=
    unsplit_of_not_mem (unmarked.not_mem rfl)
  have backslash : isCellMark '\\' = true := rfl
  rw [splitCells_cell unsplit, if_neg]
  intro last
  exact unmarked.not_mem backslash (List.mem_of_getLast? last)

theorem memberRow_cells {page : String} {member : Member} (page_unmarked : IsUnmarked page)
    (names : NamesUnmarked member) :
    rowCells (tableRow (memberCells page member)) =
      ["", snakeCase member.key, describe page member.valueType,
        if member.isRequired then "true" else "false"] ++
      (splitCells (some '|') ((cellText (member.defaultValue.getD "")).toList ++
        '|' :: ((cellText member.comment).toList ++ ['|']))).map String.ofList := by
  have required : IsUnmarked (if member.isRequired then "true" else "false") := by
    split <;> decide
  rw [rowCells, memberRow_toList, splitCells, if_pos ⟨rfl, nofun⟩,
    splitCells_unmarked (isUnmarked_snakeCase names.key),
    splitCells_unmarked (isUnmarked_describe page_unmarked _ names.references),
    splitCells_unmarked required]
  simp

theorem memberRow_readsBack_iff {page : String} {member : Member} (page_unmarked : IsUnmarked page)
    (names : NamesUnmarked member) :
    ReadsBack page member (tableRow (memberCells page member)) ↔
      ¬ endsWithBackslash (member.defaultValue.getD "") ∧ ¬ endsWithBackslash member.comment := by
  have unsplit : ∀ text, Unsplit (some '|') (cellText text).toList := by
    intro text
    rw [cellText_toList]
    exact unsplit_escaped _ _
  constructor
  · rintro ⟨defaultCell, commentCell, cells, _⟩
    -- Each backslash at the end of a text takes one cell away.
    have count := congrArg List.length cells
    rw [memberRow_cells page_unmarked names, List.length_append, List.length_map,
      length_splitCells_cell (unsplit _), length_splitCells_cell (unsplit _)] at count
    simp only [splitCells, List.length_cons, List.length_nil] at count
    rw [← getLast?_cellText, ← getLast?_cellText]
    split at count <;> split at count
    · omega
    · omega
    · omega
    · rename_i second first
      exact ⟨first, second⟩
  · rintro ⟨first, second⟩
    refine ⟨cellText (member.defaultValue.getD ""), cellText member.comment, ?_,
      readCell_cellText _, readCell_cellText _⟩
    rw [memberRow_cells page_unmarked names, splitCells_cell (unsplit _),
      if_neg (mt (getLast?_cellText _).mp first), splitCells_cell (unsplit _),
      if_neg (mt (getLast?_cellText _).mp second)]
    simp [splitCells]

theorem memberRow_line {page : String} {member : Member} (page_unmarked : IsUnmarked page)
    (names : NamesUnmarked member) : '\n' ∉ (tableRow (memberCells page member)).toList := by
  have key : '\n' ∉ (snakeCase member.key).toList := (isUnmarked_snakeCase names.key).not_mem rfl
  have type : '\n' ∉ (describe page member.valueType).toList :=
    (isUnmarked_describe page_unmarked _ names.references).not_mem rfl
  have required : '\n' ∉ (if member.isRequired then "true" else "false").toList := by
    split <;> decide
  have pipe : ¬ '\n' = '|' := by decide
  rw [memberRow_toList]
  simp only [List.mem_cons, List.mem_append, List.not_mem_nil, or_false, pipe, key, type, required,
    not_mem_cellText, not_false_eq_true]

/-! ## Tables of an extraction -/

theorem exists_left_of_forall₂ {α β : Type} {related : α → β → Prop} {first : List α}
    {second : List β} (all : List.Forall₂ related first second) {b : β} (listed : b ∈ second) :
    ∃ a ∈ first, related a b := by
  induction all with
  | nil => cases listed
  | @cons a other _ _ here _ ih =>
    rcases List.mem_cons.mp listed with rfl | later
    · exact ⟨a, List.mem_cons_self, here⟩
    · obtain ⟨found, member, related⟩ := ih later
      exact ⟨found, List.mem_cons_of_mem a member, related⟩

section Extracted
variable {text : List Char} {source : List Declaration} (parsed : parse text = .ok source)
include parsed

theorem isUnmarked_occurrence {record : Occurrence} (listed : record ∈ allOccurrences [] source) :
    IsUnmarked record.name :=
  isUnmarked_of_isNameText (occurrence_worded (parse_worded parsed) (by simp) listed).1

theorem isUnmarked_symbol {rules : Rules} {strict : Bool} {name : String}
    (known : name ∈ (extract rules strict source).registry.symbols) : IsUnmarked name := by
  have entered := collectAllSymbols_eq_foldl source [] {}
  rw [extract_symbols, show collectAllSymbols none {} source = _ from entered,
    foldl_enterType_symbols, List.mem_eraseDups] at known
  obtain ⟨record, listed, rfl⟩ := List.mem_map.mp known
  exact isUnmarked_occurrence parsed (List.mem_of_mem_filter listed)

theorem isUnmarked_page {rules : Rules} {strict : Bool} {page : String}
    (shown : page = globalPage ∨
      ∃ endpoint ∈ (extract rules strict source).registry.endpoints, page = endpoint.name) :
    IsUnmarked page := by
  rcases shown with rfl | ⟨endpoint, listed, rfl⟩
  · decide
  · obtain ⟨wrapped, _, none_yet, exhibits⟩ := extract_exhibits rules strict source
    rcases exhibits.endpoints endpoint listed with old | ⟨record, known, read⟩
    · simp [none_yet] at old
    · rw [readEndpoint_name read]
      exact isUnmarked_occurrence parsed known

theorem isUnmarked_key {rules : Rules} {strict : Bool} {object : SchemaObject} {member : Member}
    (listed : object ∈ (extract rules strict source).registry.objects)
    (belongs : member ∈ object.members) : IsUnmarked member.key := by
  obtain ⟨wrapped, none_yet, _, exhibits⟩ := extract_exhibits rules strict source
  rcases exhibits.objects object listed with old | ⟨record, known, shown⟩
  · simp [none_yet] at old
  · obtain ⟨members, members_eq, fields⟩ := shown.members
    have own_or_field : member.key = "type" ∨ member ∈ members := by
      rw [members_eq] at belongs
      split at belongs
      · exact (List.mem_cons.mp belongs).imp_left (congrArg Member.key)
      · exact .inr belongs
    rcases own_or_field with own | field
    · rw [own]
      decide
    · obtain ⟨field, documented, shows⟩ := exists_left_of_forall₂ fields field
      rw [shows.key]
      obtain ⟨_, below⟩ := occurrence_worded (parse_worded parsed) (by simp) known
      exact isUnmarked_of_isNameText (isNameText_of_isWord
        (fieldHeadings_word below field (List.mem_of_mem_filter documented)))

theorem namesUnmarked (settings : Settings) {strict : Bool} {object : SchemaObject}
    {member : Member} (listed : object ∈ (extract settings.rules strict source).registry.objects)
    (belongs : member ∈ object.members) : NamesUnmarked member := by
  refine ⟨isUnmarked_key parsed listed belongs, ?_⟩
  intro name mentioned
  have reference :=
    Registry.mem_typeReferences.mpr (.inl ⟨object, listed, member, belongs, mentioned⟩)
  rcases extract_referencesKnown settings.rules strict source name reference with keyword | known
  · rw [settings.rules_isPlain.references] at keyword
    cases keyword
  · exact isUnmarked_symbol parsed known

end Extracted

/-- The table of an object that was extracted from a text, on the catalog's page or an endpoint's,
has one row for each member, in order, each in one line. A row reads back exactly if neither its
default nor its comment ends with a backslash. -/
theorem rows_read_back_iff (settings : Settings) (strict : Bool) (text : List Char)
    (source : List Declaration) (parsed : parse text = .ok source) :
    let registry := (extract settings.rules strict source).registry
    ∀ object ∈ registry.objects, ∀ page,
      (page = globalPage ∨ ∃ endpoint ∈ registry.endpoints, page = endpoint.name) →
      ∃ rows,
        propertyTable page object.members =
          "|Key|ValueType|Required|Default|Description|" :: "|---|---|---|---|---|" :: rows ∧
        List.Forall₂ (fun member row =>
          '\n' ∉ row.toList ∧
          (ReadsBack page member row ↔
            ¬ endsWithBackslash (member.defaultValue.getD "") ∧ ¬ endsWithBackslash member.comment))
          object.members rows := by
  intro registry object listed page shown
  have page_unmarked := isUnmarked_page parsed shown
  refine ⟨_, rfl, ?_⟩
  rw [List.forall₂_map_right_iff, List.forall₂_same]
  intro member belongs
  have names := namesUnmarked parsed settings listed belongs
  exact ⟨memberRow_line page_unmarked names, memberRow_readsBack_iff page_unmarked names⟩

/-- A source of one object with one commented field. -/
def noteText (comment : String) : List Char :=
  ("struct Note: Object \x7b\n/// " ++ comment ++ "\nlet text: String\n\x7d\n").toList

theorem exists_source_of_objects {text : List Char} {objects : List SchemaObject}
    (found : (parse text).toOption.map
      (fun source => (extract (Settings.rules {}) true source).registry.objects) = some objects) :
    ∃ source, parse text = .ok source ∧
      (extract (Settings.rules {}) true source).registry.objects = objects := by
  cases parsed : parse text with
  | error fault =>
    rw [parsed] at found
    cases found
  | ok source =>
    rw [parsed] at found
    exact ⟨source, rfl, Option.some.inj found⟩

/-- A pipe and a backslash in a comment do no harm, one behind the other neither. -/
theorem piped_note_reads_back :
    ∃ source, parse (noteText "yes \\| no") = .ok source ∧
      ∃ object ∈ (extract (Settings.rules {}) true source).registry.objects,
        ∃ member row, object.members = [member] ∧ member.comment = "yes \\| no" ∧
          (propertyTable globalPage object.members)[2]? = some row ∧
          ReadsBack globalPage member row := by
  let member : Member := ⟨"text", .string, true, none, "yes \\| no"⟩
  obtain ⟨source, parsed, objects⟩ : ∃ source, parse (noteText "yes \\| no") = .ok source ∧
      (extract (Settings.rules {}) true source).registry.objects = [⟨"Note", "", [member]⟩] :=
    exists_source_of_objects (by decide +kernel)
  have listed : ⟨"Note", "", [member]⟩ ∈
      (extract (Settings.rules {}) true source).registry.objects := by simp [objects]
  obtain ⟨rows, table, fits⟩ :=
    rows_read_back_iff {} true _ source parsed _ listed globalPage (.inl rfl)
  cases fits with
  | @cons _ row _ _ fit _ =>
    refine ⟨source, parsed, _, listed, member, row, rfl, rfl, by rw [table]; rfl, fit.2.mpr ?_⟩
    constructor <;> unfold endsWithBackslash <;> decide

/-- A comment that ends with a backslash: its cell and the end of the row run together. -/
theorem trailing_backslash_swallows_pipe :
    ∃ source, parse (noteText "ends with \\") = .ok source ∧
      ∃ object ∈ (extract (Settings.rules {}) true source).registry.objects,
        ∃ member ∈ object.members,
          tableRow (memberCells globalPage member) = "|text|string|true||ends with \\|" ∧
          rowCells "|text|string|true||ends with \\|" =
            ["", "text", "string", "true", "", "ends with \\|"] ∧
          ¬ ReadsBack globalPage member (tableRow (memberCells globalPage member)) := by
  let member : Member := ⟨"text", .string, true, none, "ends with \\"⟩
  obtain ⟨source, parsed, objects⟩ : ∃ source, parse (noteText "ends with \\") = .ok source ∧
      (extract (Settings.rules {}) true source).registry.objects = [⟨"Note", "", [member]⟩] :=
    exists_source_of_objects (by decide +kernel)
  have row : tableRow (memberCells globalPage member) = "|text|string|true||ends with \\|" := by
    decide +kernel
  have cells : rowCells "|text|string|true||ends with \\|" =
      ["", "text", "string", "true", "", "ends with \\|"] := by decide +kernel
  refine ⟨source, parsed, ⟨"Note", "", [member]⟩, by simp [objects], member, List.mem_cons_self,
    row, cells, ?_⟩
  rintro ⟨defaultCell, commentCell, split, _⟩
  rw [row, cells] at split
  have count := congrArg List.length split
  simp at count

end ApiHandbook.Handbook
