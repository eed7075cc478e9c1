import ApiHandbook.Proofs.Source.Spelling

/-!
# Type expressions

Type expressions are paths with or without arguments, optional types, arrays, dictionaries, groups
in parentheses, types behind a prefix word and functions. A reader takes a head, the optional marks
behind it and a result behind an arrow, so every type expression can be put in that order, with the
same words and the same shape.
-/
namespace ApiHandbook.Source

/-! ## Expressions and their words -/

/-- Words in which the brackets of one kind are closed in the order in which they are opened. -/
inductive Balanced (opening closing : String) : List Word → Prop
  | nil : Balanced opening closing []
  | word (word : Word) {rest : List Word}
      (plain : word.kind = .mark → word.text ∉ [opening, closing])
      (further : Balanced opening closing rest) : Balanced opening closing (word :: rest)
  | group {inner rest : List Word} (nested : Balanced opening closing inner)
      (further : Balanced opening closing rest) :
      Balanced opening closing (.mark opening :: inner ++ .mark closing :: rest)

/-- A name of a path, with arguments between angle brackets if it takes any. -/
structure PathPart where
  name : String
  word : isWord name = true
  arguments : Option {inner : List Word // Balanced "<" ">" inner} := none

def argumentWords : Option {inner : List Word // Balanced "<" ">" inner} → List Word
  | none => []
  | some inner => .mark "<" :: (inner.val ++ [.mark ">"])

def PathPart.words (part : PathPart) : List Word := .name part.name :: argumentWords part.arguments

structure TypePath where
  first : PathPart
  others : List PathPart
  plain : first.name ∉ existentialWords

namespace TypePath

def words (path : TypePath) : List Word :=
  path.first.words ++ path.others.flatMap fun part => .mark "." :: part.words

/-- The name of a path that is just a path: none of its parts takes arguments. -/
def name? (path : TypePath) : Option String :=
  if path.first.arguments.isSome || path.others.any (·.arguments.isSome) then none
  else some (dotted (path.first.name :: path.others.map (·.name)))

end TypePath

inductive OptionalMark where
  | question | exclamation

def OptionalMark.word : OptionalMark → Word
  | .question => .mark "?"
  | .exclamation => .mark "!"

inductive TypeExpr where
  | path (names : TypePath)
  | optional (type : TypeExpr) (mark : OptionalMark)
  | array (item : TypeExpr)
  | dictionary (key value : TypeExpr)
  | group (inner : List Word) (balanced : Balanced "(" ")" inner)
  | prefixed (word : String) (known : word ∈ existentialWords) (type : TypeExpr)
  | function (argument result : TypeExpr)

def TypeExpr.words : TypeExpr → List Word
  | .path names => names.words
  | .optional type mark => type.words ++ [mark.word]
  | .array item => .mark "[" :: (item.words ++ [.mark "]"])
  | .dictionary key value => .mark "[" :: (key.words ++ .mark ":" :: (value.words ++ [.mark "]"]))
  | .group inner _ => .mark "(" :: (inner ++ [.mark ")"])
  | .prefixed word _ type => .name word :: type.words
  | .function argument result => argument.words ++ .mark "->" :: result.words

/-- The texts of words put together as those of their tokens are. -/
def wordsText (words : List Word) : String := joinTexts (lineTokens 0 false [] words)

/-- The name of a type that is just a path. -/
def TypeExpr.name? : TypeExpr → Option String
  | .path names => names.name?
  | _ => none

/-- Only a path, a path with one optional mark and an array of a path are documented. -/
def TypeExpr.shape (type : TypeExpr) : TypeShape :=
  let other := TypeShape.unsupported (wordsText type.words)
  match type with
  | .path names => names.name?.elim other .plain
  | .optional inner _ => inner.name?.elim other .optional
  | .array item => item.name?.elim other .array
  | _ => other

/-! ## The order of the reader -/

mutual

/-- A type without its optional marks and result. -/
inductive HeadForm where
  | path (names : TypePath)
  | array (item : TypeForm)
  | dictionary (key value : TypeForm)
  | group (inner : List Word) (balanced : Balanced "(" ")" inner)
  | prefixed (word : String) (known : word ∈ existentialWords) (head : HeadForm)

/-- A head with its optional marks, and a result if it is the argument of a function. -/
inductive TypeForm where
  | value (head : HeadForm) (marks : List OptionalMark)
  | function (head : HeadForm) (marks : List OptionalMark) (result : TypeForm)

end

mutual

def HeadForm.words : HeadForm → List Word
  | .path names => names.words
  | .array item => .mark "[" :: (item.words ++ [.mark "]"])
  | .dictionary key value => .mark "[" :: (key.words ++ .mark ":" :: (value.words ++ [.mark "]"]))
  | .group inner _ => .mark "(" :: (inner ++ [.mark ")"])
  | .prefixed word _ head => .name word :: head.words

def TypeForm.words : TypeForm → List Word
  | .value head marks => head.words ++ marks.map OptionalMark.word
  | .function head marks result =>
    head.words ++ (marks.map OptionalMark.word ++ .mark "->" :: result.words)

end

mutual

def HeadForm.head : HeadForm → TypeHead
  | .path names => names.name?.elim .other .path
  | .array item => .array item.shape
  | .dictionary _ _ | .group _ _ | .prefixed _ _ _ => .other

def TypeForm.shape : TypeForm → TypeShape
  | .value head marks =>
    head.head.shape marks.length (wordsText (head.words ++ marks.map OptionalMark.word))
  | .function head marks result =>
    .unsupported (wordsText (TypeForm.function head marks result).words)

end

namespace TypeForm

def mark (mark : OptionalMark) : TypeForm → TypeForm
  | .value head marks => .value head (marks ++ [mark])
  | .function head marks result => .function head marks (result.mark mark)

def behind (word : String) (known : word ∈ existentialWords) : TypeForm → TypeForm
  | .value head marks => .value (.prefixed word known head) marks
  | .function head marks result => .function (.prefixed word known head) marks result

def arrow : TypeForm → TypeForm → TypeForm
  | .value head marks, result => .function head marks result
  | .function head marks inner, result => .function head marks (inner.arrow result)

end TypeForm

def TypeExpr.form : TypeExpr → TypeForm
  | .path names => .value (.path names) []
  | .optional type mark => type.form.mark mark
  | .array item => .value (.array item.form) []
  | .dictionary key value => .value (.dictionary key.form value.form) []
  | .group inner balanced => .value (.group inner balanced) []
  | .prefixed word known type => type.form.behind word known
  | .function argument result => argument.form.arrow result.form

namespace TypeForm

theorem words_mark (form : TypeForm) (mark : OptionalMark) :
    (form.mark mark).words = form.words ++ [mark.word] := by
  match form with
  | .value head marks => simp [TypeForm.mark, words]
  | .function head marks result => simp [TypeForm.mark, words, words_mark result]

theorem words_behind (form : TypeForm) (word : String) (known : word ∈ existentialWords) :
    (form.behind word known).words = .name word :: form.words := by
  cases form <;> rfl

theorem words_arrow (form result : TypeForm) :
    (form.arrow result).words = form.words ++ .mark "->" :: result.words := by
  match form with
  | .value head marks => simp [arrow, words]
  | .function head marks inner => simp [arrow, words, words_arrow inner]

end TypeForm

theorem TypeExpr.words_form (type : TypeExpr) : type.form.words = type.words := by
  induction type with
  | path names => simp [form, words, TypeForm.words, HeadForm.words]
  | optional type mark ih => rw [form, TypeForm.words_mark, ih, words]
  | array item ih => simp [form, words, TypeForm.words, HeadForm.words, ih]
  | dictionary key value ih_key ih_value =>
    simp [form, words, TypeForm.words, HeadForm.words, ih_key, ih_value]
  | group inner balanced => simp [form, words, TypeForm.words, HeadForm.words]
  | prefixed word known type ih => rw [form, TypeForm.words_behind, ih, words]
  | function argument result ih_argument ih_result =>
    rw [form, TypeForm.words_arrow, ih_argument, ih_result, words]

/-! ## The shape of an ordered type -/

theorem TypeHead.shape_two_marks (head : TypeHead) (marks : Nat) (text : String) :
    head.shape (marks + 2) text = .unsupported text := by
  unfold TypeHead.shape
  split <;> simp_all

theorem TypeHead.shape_array_marked (item : TypeShape) (marks : Nat) (text : String) :
    (TypeHead.array item).shape (marks + 1) text = .unsupported text := by
  unfold TypeHead.shape
  split <;> simp_all

theorem TypeForm.shape_behind (form : TypeForm) (word : String)
    (known : word ∈ existentialWords) :
    (form.behind word known).shape = .unsupported (wordsText (form.behind word known).words) := by
  cases form <;> rfl

theorem TypeForm.shape_arrow (form result : TypeForm) :
    (form.arrow result).shape = .unsupported (wordsText (form.arrow result).words) := by
  cases form <;> rfl

/-- An optional mark behind anything but a path. -/
theorem TypeExpr.shape_marked {type : TypeExpr} (unnamed : type.name? = none)
    (mark : OptionalMark) :
    (type.form.mark mark).shape = .unsupported (wordsText (type.form.mark mark).words) := by
  cases type with
  | path names =>
    change (names.name?.elim TypeHead.other .path).shape 1 _ = _
    rw [show names.name? = none from unnamed]
    rfl
  | optional type first =>
    rw [form]
    cases type.form with
    | value head marks =>
      simp only [TypeForm.mark, TypeForm.shape, TypeForm.words, List.length_append,
        List.length_singleton, Nat.add_assoc, TypeHead.shape_two_marks]
    | function => rfl
  | array item => exact TypeHead.shape_array_marked _ _ _
  | dictionary | group => rfl
  | prefixed word known type =>
    rw [form]
    cases type.form <;> rfl
  | function argument result =>
    rw [form]
    cases argument.form <;> rfl

/-- The item of an array is documented only if it is just a path. -/
theorem TypeExpr.shape_item (item : TypeExpr) (text : String) :
    (TypeHead.array item.shape).shape 0 text = item.name?.elim (.unsupported text) .array := by
  cases item with
  | path names =>
    rw [shape, name?]
    cases names.name? <;> rfl
  | optional inner mark =>
    rw [shape]
    cases inner.name? <;> rfl
  | array inner =>
    rw [shape]
    cases inner.name? <;> rfl
  | dictionary | group | prefixed | function => rfl

theorem TypeExpr.exists_path {type : TypeExpr} {name : String} (named : type.name? = some name) :
    ∃ names, type = .path names ∧ names.name? = some name := by
  cases type with
  | path names => exact ⟨names, rfl, named⟩
  | optional | array | dictionary | group | prefixed | function => cases named

theorem TypeExpr.shape_form (type : TypeExpr) : type.form.shape = type.shape := by
  have words_eq := type.words_form
  induction type with
  | path names =>
    change (names.name?.elim TypeHead.other .path).shape 0 (wordsText (names.words ++ [])) = _
    rw [List.append_nil, shape]
    cases names.name? <;> rfl
  | optional inner mark _ =>
    rw [shape]
    cases named : inner.name? with
    | none =>
      rw [form, shape_marked named, ← form, words_eq]
      rfl
    | some name =>
      obtain ⟨names, rfl, path_named⟩ := exists_path named
      change (names.name?.elim TypeHead.other .path).shape 1 _ = _
      rw [path_named]
      rfl
  | array item ih =>
    change (TypeHead.array item.form.shape).shape 0 (wordsText (TypeExpr.array item).form.words) = _
    rw [ih item.words_form, shape_item, words_eq, shape]
  | dictionary key value =>
    change TypeShape.unsupported (wordsText (key.dictionary value).form.words) = _
    rw [words_eq]
    rfl
  | group inner balanced =>
    change TypeShape.unsupported (wordsText (group inner balanced).form.words) = _
    rw [words_eq]
    rfl
  | prefixed word known type =>
    rw [form, TypeForm.shape_behind, ← form, words_eq]
    rfl
  | function argument result =>
    rw [form, TypeForm.shape_arrow, ← form, words_eq]
    rfl

end ApiHandbook.Source
