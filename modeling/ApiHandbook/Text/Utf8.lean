/-!
# UTF-8

Strict decoding of bytes: no surrogates, no overlong forms, nothing above U+10FFFF. A failure
tells which bytes are at fault and why.
-/
namespace ApiHandbook.Text

inductive Utf8Cause where
  | invalidStart | invalidContinuation | endOfData
  deriving DecidableEq, Repr

/-- The bytes `first`, … at position `start`, `count` of them, cannot be decoded. -/
structure Utf8Fault where
  start : Nat
  count : Nat
  first : UInt8
  cause : Utf8Cause
  deriving DecidableEq, Repr

def Utf8Cause.text : Utf8Cause → String
  | .invalidStart => "invalid start byte"
  | .invalidContinuation => "invalid continuation byte"
  | .endOfData => "unexpected end of data"

def hexByte (b : UInt8) : String :=
  let digits := Nat.toDigits 16 b.toNat
  "0x" ++ String.ofList (List.replicate (2 - digits.length) '0' ++ digits)

def Utf8Fault.message (fault : Utf8Fault) : String :=
  let place :=
    if fault.count = 1 then s!"byte {hexByte fault.first} in position {fault.start}"
    else s!"bytes in position {fault.start}-{fault.start + fault.count - 1}"
  s!"'utf-8' codec can't decode {place}: {fault.cause.text}"

def isContinuation (b : UInt8) : Bool := 0x80 ≤ b && b < 0xC0

/-- Second bytes that the lead byte allows: none that spells an overlong form, a surrogate or a
code point above U+10FFFF. -/
def continues (lead b : UInt8) : Bool :=
  isContinuation b
    && !(lead == 0xE0 && b < 0xA0) && !(lead == 0xED && 0xA0 ≤ b)
    && !(lead == 0xF0 && b < 0x90) && !(lead == 0xF4 && 0x90 ≤ b)

/-- The code point spelled by a lead byte's payload and its continuation bytes. -/
def assemble (payload : Nat) (tail : List UInt8) : Char :=
  Char.ofNat (tail.foldl (fun n b => n * 64 + (b.toNat - 0x80)) payload)

/-- Decodes `bytes`, which stand at position `pos`. -/
def decodeUtf8From (pos : Nat) : List UInt8 → Except Utf8Fault (List Char)
  | [] => .ok []
  | b :: rest =>
    let fault count cause := Except.error (Utf8Fault.mk pos count b cause)
    if b < 0x80 then do
      return Char.ofNat b.toNat :: (← decodeUtf8From (pos + 1) rest)
    else if b < 0xC2 then fault 1 .invalidStart
    else if b < 0xE0 then
      match rest with
      | [] => fault 1 .endOfData
      | c :: rest =>
        if !continues b c then fault 1 .invalidContinuation
        else do return assemble (b.toNat - 0xC0) [c] :: (← decodeUtf8From (pos + 2) rest)
    else if b < 0xF0 then
      match rest with
      | [] => fault 1 .endOfData
      | [c] => if continues b c then fault 2 .endOfData else fault 1 .invalidContinuation
      | c :: d :: rest =>
        if !continues b c then fault 1 .invalidContinuation
        else if !isContinuation d then fault 2 .invalidContinuation
        else do return assemble (b.toNat - 0xE0) [c, d] :: (← decodeUtf8From (pos + 3) rest)
    else if b < 0xF5 then
      match rest with
      | [] => fault 1 .endOfData
      | [c] => if continues b c then fault 2 .endOfData else fault 1 .invalidContinuation
      | [c, d] =>
        if !continues b c then fault 1 .invalidContinuation
        else if !isContinuation d then fault 2 .invalidContinuation
        else fault 3 .endOfData
      | c :: d :: e :: rest =>
        if !continues b c then fault 1 .invalidContinuation
        else if !isContinuation d then fault 2 .invalidContinuation
        else if !isContinuation e then fault 3 .invalidContinuation
        else do return assemble (b.toNat - 0xF0) [c, d, e] :: (← decodeUtf8From (pos + 4) rest)
    else fault 1 .invalidStart

def decodeUtf8 (bytes : List UInt8) : Except Utf8Fault (List Char) := decodeUtf8From 0 bytes

/-- Every line end (CR LF, lone CR, LF) as one line feed. -/
def unifyLineEnds : List Char → List Char
  | [] => []
  | '\r' :: '\n' :: rest => '\n' :: unifyLineEnds rest
  | '\r' :: rest => '\n' :: unifyLineEnds rest
  | c :: rest => c :: unifyLineEnds rest

end ApiHandbook.Text
