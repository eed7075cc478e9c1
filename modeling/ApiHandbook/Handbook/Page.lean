import ApiHandbook.Schema.Object
import ApiHandbook.Text.SnakeCase
import ApiHandbook.Handbook.Related

/-!
# Lines of a page

Links and anchors carry the name of the page they stand on, so that objects of one name on
different pages stay apart.
-/
namespace ApiHandbook.Handbook

open Schema Text

def anchorId (page name : String) : String := "_" ++ page ++ "_" ++ name

def objectLink (page name : String) : String :=
  "[" ++ name ++ "](#" ++ anchorId page name ++ ")"

def objectAnchor (page name : String) : String :=
  "<span id=\"" ++ anchorId page name ++ "\"></span>" ++ name ++ " object"

mutual

/-- A value type in words. -/
def describe (page : String) : ValueType → String
  | .unknown => "unknown"
  | .string => "string"
  | .number => "number"
  | .boolean => "boolean"
  | .object name => objectLink page name ++ " object"
  | .array item => "array of " ++ describe page item
  | .oneOf _ cases => "one of " ++ ", ".intercalate (describeCases page cases)

def describeCases (page : String) : List (String × ValueType) → List String
  | [] => []
  | (_, type) :: rest => describe page type :: describeCases page rest

end

/-- Text as it stands in a table cell: pipes escaped, lines kept apart by breaks. -/
def cellText (text : String) : String :=
  String.ofList (text.toList.flatMap fun c =>
    if c = '|' then ['\\', '|'] else if c = '\n' then "<br>".toList else [c])

def memberCells (page : String) (member : Member) : List String :=
  [snakeCase member.key, describe page member.valueType,
    if member.isRequired then "true" else "false",
    cellText (member.defaultValue.getD ""), cellText member.comment]

def tableRow (cells : List String) : String := "|" ++ "|".intercalate cells ++ "|"

def propertyTable (page : String) (members : List Member) : List String :=
  "|Key|ValueType|Required|Default|Description|" :: "|---|---|---|---|---|" ::
    members.map fun member => tableRow (memberCells page member)

def separator : List String := ["---", ""]

def objectSection (page heading : String) (object : SchemaObject) : List String :=
  [heading ++ " " ++ objectAnchor page object.name, "",
    if object.comment.isEmpty then "No description" else object.comment, "",
    heading ++ "# Properties", ""]
    ++ propertyTable page object.members ++ "" :: separator

/-- The sections of objects, sorted by name. -/
def objectSections (page heading : String) (objects : List SchemaObject) : List String :=
  (sortByName objects).flatMap (objectSection page heading)

/-- Lines as one text. -/
def joinLines (lines : List String) : String := "\n".intercalate lines

end ApiHandbook.Handbook
