/-!
# Base 64

A lenient reading: characters outside the alphabet are passed over, and so is padding in places
where none can stand. Padding that fills a group of four ends the text.
-/
namespace ApiHandbook.Text

def base64Digit? (c : Char) : Option Nat :=
  if 'A' ≤ c && c ≤ 'Z' then some (c.toNat - 'A'.toNat)
  else if 'a' ≤ c && c ≤ 'z' then some (c.toNat - 'a'.toNat + 26)
  else if c.isDigit then some (c.toNat - '0'.toNat + 52)
  else if c = '+' then some 62
  else if c = '/' then some 63
  else none

/-- Digits of a group of four that are read, what they leave over for the next byte, and the
padding behind them. -/
structure Base64Group where
  digits : Nat := 0
  left : Nat := 0
  pads : Nat := 0
  deriving DecidableEq, Repr

namespace Base64Group

/-- The number of values that the digit behind so many others leaves over for the next byte. -/
def spare (digits : Nat) : Nat := if digits = 1 then 16 else if digits = 2 then 4 else 1

/-- The byte that a digit completes, if it does. -/
def push (group : Base64Group) (digit : Nat) : Option UInt8 × Base64Group :=
  if group.digits = 0 then (none, ⟨1, digit, 0⟩)
  else
    let value := group.left * 64 + digit
    let spare := spare group.digits
    (some (value / spare).toUInt8, ⟨(group.digits + 1) % 4, value % spare, 0⟩)

/-- Padding counts behind two digits. -/
def pad (group : Base64Group) : Base64Group :=
  if group.digits < 2 then group else { group with pads := group.pads + 1 }

def isFilled (group : Base64Group) : Bool := 2 ≤ group.digits && 4 ≤ group.digits + group.pads

end Base64Group

/-- The bytes of the text behind a group; none if the last group is not filled. -/
def decodeBase64From? (group : Base64Group) : List Char → Option (List UInt8)
  | [] => if group.digits = 0 then some [] else none
  | c :: rest =>
    if c = '=' then
      if group.pad.isFilled then some [] else decodeBase64From? group.pad rest
    else
      match base64Digit? c with
      | none => decodeBase64From? group rest
      | some digit =>
        let (byte, group) := group.push digit
        (decodeBase64From? group rest).map (byte.toList ++ ·)

def decodeBase64? (text : List Char) : Option (List UInt8) := decodeBase64From? {} text

end ApiHandbook.Text
