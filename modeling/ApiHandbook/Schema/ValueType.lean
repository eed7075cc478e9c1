/-!
# Value types

The type of a documented value: a primitive, a reference to an object by its qualified name, an
array, or a choice between named cases.
-/
namespace ApiHandbook.Schema

inductive ValueType where
  | unknown | string | number | boolean
  | object (name : String)
  | array (item : ValueType)
  | oneOf (name : String) (cases : List (String × ValueType))
  deriving Repr, Inhabited

/-- A choice type under its qualified name: each case has a name and one payload. -/
structure Wrapper where
  name : String
  cases : List (String × ValueType)
  deriving Repr

def Wrapper.valueType (wrapper : Wrapper) : ValueType := .oneOf wrapper.name wrapper.cases

mutual

def ValueType.decEq : (a b : ValueType) → Decidable (a = b)
  | .unknown, b => by cases b <;> first | exact isTrue rfl | exact isFalse nofun
  | .string, b => by cases b <;> first | exact isTrue rfl | exact isFalse nofun
  | .number, b => by cases b <;> first | exact isTrue rfl | exact isFalse nofun
  | .boolean, b => by cases b <;> first | exact isTrue rfl | exact isFalse nofun
  | .object m, .object n => decidable_of_iff (m = n) (by simp)
  | .array s, .array t =>
    match s.decEq t with
    | isTrue h => isTrue (by rw [h])
    | isFalse h => isFalse (by simpa using h)
  | .oneOf m cs, .oneOf n ds =>
    match decEqCases cs ds with
    | isTrue h => decidable_of_iff (m = n) (by simp [h])
    | isFalse h => isFalse (by simp [h])
  | .object _, .unknown | .object _, .string | .object _, .number | .object _, .boolean
  | .object _, .array _ | .object _, .oneOf _ _
  | .array _, .unknown | .array _, .string | .array _, .number | .array _, .boolean
  | .array _, .object _ | .array _, .oneOf _ _
  | .oneOf _ _, .unknown | .oneOf _ _, .string | .oneOf _ _, .number | .oneOf _ _, .boolean
  | .oneOf _ _, .object _ | .oneOf _ _, .array _ => isFalse nofun

def decEqCases : (cs ds : List (String × ValueType)) → Decidable (cs = ds)
  | [], [] => isTrue rfl
  | [], _ :: _ | _ :: _, [] => isFalse nofun
  | (m, s) :: cs, (n, t) :: ds =>
    match s.decEq t, decEqCases cs ds with
    | isTrue h, isTrue k => decidable_of_iff (m = n) (by simp [h, k])
    | isFalse h, _ => isFalse (by simp [h])
    | _, isFalse k => isFalse (by simp [k])

end

instance : DecidableEq ValueType := ValueType.decEq

deriving instance DecidableEq for Wrapper

mutual

/-- The objects a type names, directly or through arrays and cases, in reading order. -/
def ValueType.references : ValueType → List String
  | .object name => [name]
  | .array item => item.references
  | .oneOf _ cases => caseReferences cases
  | _ => []

def caseReferences : List (String × ValueType) → List String
  | [] => []
  | (_, type) :: rest => type.references ++ caseReferences rest

end

end ApiHandbook.Schema
