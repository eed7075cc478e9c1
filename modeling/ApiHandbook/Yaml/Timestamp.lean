import ApiHandbook.Yaml.Tag

/-!
# Timestamps of a YAML text

A date, or a date with a time of day and perhaps an offset from universal time. Timestamps are the
same if they name the same day, the same time on a clock, or the same instant.
-/
namespace ApiHandbook.Yaml

/-- The parts of a timestamp as written. -/
structure TimestampText where
  year : Nat
  month : Nat
  day : Nat
  /-- Hour, minute, second and microsecond. -/
  time : Option (Nat × Nat × Nat × Nat) := none
  /-- Minutes from universal time. -/
  offset : Option Int := none
  deriving DecidableEq, Repr

/-- What a timestamp stands for, counted from the first day of the calendar. -/
inductive Timestamp where
  | date (day : Nat)
  /-- A time without an offset. -/
  | clock (microseconds : Int)
  | instant (microseconds : Int)
  deriving DecidableEq, Repr

/-- Takes a number of at least `least` and at most `most` digits. -/
def takeNumber? (least most : Nat) (text : List Char) : Option (Nat × List Char) :=
  let digits := (text.take most).takeWhile Char.isDigit
  if least ≤ digits.length then some (decimalValue digits, text.drop digits.length) else none

def takeMark? (mark : Char) : List Char → Option (List Char)
  | c :: rest => if c = mark then some rest else none
  | [] => none

/-- The offset at the end of a timestamp, if one is written there. -/
def offset? (text : List Char) : Option (Option Int) :=
  match text.dropWhile isSpaceOrTab with
  | [] => if text.isEmpty then some none else none
  | ['Z'] => some (some 0)
  | sign :: rest => do
    guard (sign = '-' || sign = '+')
    let (hours, rest) ← takeNumber? 1 2 rest
    let minutes ← match rest with
      | [] => some 0
      | rest => do
        let (minutes, rest) ← takeNumber? 2 2 (← takeMark? ':' rest)
        guard rest.isEmpty
        pure minutes
    let offset : Int := hours * 60 + minutes
    return some (if sign = '-' then -offset else offset)

/-- A fraction of a second in microseconds; further digits are dropped. -/
def microseconds (digits : List Char) : Nat :=
  decimalValue (digits.take 6 ++ List.replicate (6 - digits.length) '0')

/-- Time of day and offset: a date goes before, set off by a letter or by blanks. -/
def timeOfDay? (text : List Char) : Option ((Nat × Nat × Nat × Nat) × Option Int) := do
  let text ← match text with
    | 'T' :: rest | 't' :: rest => some rest
    | text => if text.head?.any isSpaceOrTab then some (text.dropWhile isSpaceOrTab) else none
  let (hour, text) ← takeNumber? 1 2 text
  let (minute, text) ← takeNumber? 2 2 (← takeMark? ':' text)
  let (second, text) ← takeNumber? 2 2 (← takeMark? ':' text)
  let (fraction, text) := match text with
    | '.' :: rest => (rest.takeWhile Char.isDigit, rest.dropWhile Char.isDigit)
    | text => ([], text)
  return ((hour, minute, second, microseconds fraction), ← offset? text)

def timestampText? (text : List Char) : Option TimestampText := do
  let (year, rest) ← takeNumber? 4 4 text
  let (month, rest) ← takeNumber? 1 2 (← takeMark? '-' rest)
  let (day, rest) ← takeNumber? 1 2 (← takeMark? '-' rest)
  if rest.isEmpty then return { year, month, day }
  else
    let (time, offset) ← timeOfDay? rest
    return { year, month, day, time := some time, offset }

/-- A date without a time has to be written in full to be known as one. -/
def isTimestampForm (text : List Char) : Bool :=
  (timestampText? text).any fun stamp => stamp.time.isSome || text.length = 10

def isLeapYear (year : Nat) : Bool := year % 4 = 0 && (year % 100 ≠ 0 || year % 400 = 0)

def daysIn (year month : Nat) : Nat :=
  if month = 2 then if isLeapYear year then 29 else 28
  else if [4, 6, 9, 11].contains month then 30
  else 31

/-- The number of a day, the first day of year one being the first. -/
def dayNumber (year month day : Nat) : Nat :=
  let past := year - 1
  let months := (List.range (month - 1)).foldl (fun days n => days + daysIn year (n + 1)) 0
  365 * past + past / 4 - past / 100 + past / 400 + months + day

/-- Whether the parts name a day of the calendar, a time of day and an offset below a day. -/
def TimestampText.isValid (stamp : TimestampText) : Bool :=
  1 ≤ stamp.year && 1 ≤ stamp.month && stamp.month ≤ 12 && 1 ≤ stamp.day
    && stamp.day ≤ daysIn stamp.year stamp.month
    && stamp.time.all (fun (hour, minute, second, _) => hour < 24 && minute < 60 && second < 60)
    && stamp.offset.all (·.natAbs < 24 * 60)

def TimestampText.timestamp (stamp : TimestampText) : Timestamp :=
  let day := dayNumber stamp.year stamp.month stamp.day
  match stamp.time with
  | none => .date day
  | some (hour, minute, second, microsecond) =>
    let minutes : Int := (day * 24 + hour) * 60 + minute
    let count (minutes : Int) : Int := (minutes * 60 + second) * 1000000 + microsecond
    match stamp.offset with
    | none => .clock (count minutes)
    | some offset => .instant (count (minutes - offset))

/-- The text without the line feed at its end. -/
def dropFinalBreak (text : List Char) : List Char :=
  if text.getLast? = some '\n' then text.dropLast else text

def timestampValue (text : List Char) : Except YamlError Timestamp :=
  match timestampText? (dropFinalBreak text) with
  | none => .error .notTimestamp
  | some stamp => if stamp.isValid then .ok stamp.timestamp else .error .noValue

end ApiHandbook.Yaml
