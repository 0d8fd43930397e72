import CatalogSync.Text.Decimal

/-!
# A place in a JSON text

A cursor stands in the bytes of a text that is held whole or streams in. It counts lines and columns
in bytes, and it knows how the bytes end: for good, by a failed read, or not yet.
-/

namespace CatalogSync.Json

/-- What there is after the last byte. -/
inductive Ending where
  | closed
  /-- The next read fails with this text. -/
  | broken (reason : String)
  /-- More may come, and does not. -/
  | stalled
deriving DecidableEq, Repr, Inhabited

/-- A line and the bytes before the place in it. -/
structure Position where
  line : Nat
  column : Nat
deriving DecidableEq, Repr, Inhabited

/-- Why a text was not read. -/
inductive Cause where
  | endInList
  | endInObject
  | endInText
  | endInValue
  | expectedColon
  | expectedListCommaOrEnd
  | expectedObjectCommaOrEnd
  | expectedWord
  | expectedValue
  | invalidEscape
  | invalidNumber
  | numberOutOfRange
  | invalidUnicode
  | controlInText
  | keyNotText
  | loneSurrogate
  | trailingComma
  | trailingCharacters
  | endInHexEscape
  | tooDeep
  /-- The value is not of the wanted kind. -/
  | mismatch (text : String)
  /-- A read failed. -/
  | read (reason : String)
  /-- The bytes run out and the text is not at its end yet. -/
  | stalled
deriving DecidableEq, Repr, Inhabited

/-- The wording of a cause. -/
def Cause.message : Cause → String
  | .endInList => "EOF while parsing a list"
  | .endInObject => "EOF while parsing an object"
  | .endInText => "EOF while parsing a string"
  | .endInValue => "EOF while parsing a value"
  | .expectedColon => "expected `:`"
  | .expectedListCommaOrEnd => "expected `,` or `]`"
  | .expectedObjectCommaOrEnd => "expected `,` or `\x7d`"
  | .expectedWord => "expected ident"
  | .expectedValue => "expected value"
  | .invalidEscape => "invalid escape"
  | .invalidNumber => "invalid number"
  | .numberOutOfRange => "number out of range"
  | .invalidUnicode => "invalid unicode code point"
  | .controlInText => "control character (\\u0000-\\u001F) found while parsing a string"
  | .keyNotText => "key must be a string"
  | .loneSurrogate => "lone leading surrogate in hex escape"
  | .trailingComma => "trailing comma"
  | .trailingCharacters => "trailing characters"
  | .endInHexEscape => "unexpected end of hex escape"
  | .tooDeep => "recursion limit exceeded"
  | .mismatch text => text
  | .read reason => reason
  | .stalled => "no more input"

/-- A cause with the place it was seen at, where one is known. -/
structure Failure where
  cause : Cause
  position : Option Position
deriving DecidableEq, Repr, Inhabited

/-- The wording of a failure. -/
def Failure.message (f : Failure) : String :=
  match f.position with
  | none => f.cause.message
  | some p =>
    f.cause.message ++ " at line " ++ Text.Decimal.ofNat p.line ++ " column " ++ Text.Decimal.ofNat p.column

/-- The failure with a place, unless it has one. -/
def Failure.placedAt (f : Failure) (p : Position) : Failure :=
  match f.position with
  | none => { f with position := some p }
  | some _ => f

/-- A place in a text. -/
structure Cursor where
  /-- The bytes not consumed yet. -/
  rest : List UInt8
  /-- The place after the consumed bytes. -/
  position : Position
  /-- Whether the first byte of `rest` has been looked at. -/
  peeked : Bool
  /-- Whether the text streams in, so that a byte looked at counts as read. -/
  streamed : Bool
  ending : Ending
deriving Repr, Inhabited

/-- The place one byte on. -/
def Position.after (p : Position) (b : UInt8) : Position :=
  if b = 10 then ⟨p.line + 1, 0⟩ else ⟨p.line, p.column + 1⟩

namespace Cursor

/-- The start of a text that is held whole. -/
def whole (bytes : List UInt8) : Cursor := ⟨bytes, ⟨1, 0⟩, false, false, .closed⟩

/-- The start of a text that streams in. -/
def stream (bytes : List UInt8) (ending : Ending) : Cursor := ⟨bytes, ⟨1, 0⟩, false, true, ending⟩

/-- The place one byte ahead, or here at the end. -/
def ahead (c : Cursor) : Position :=
  match c.rest with
  | [] => c.position
  | b :: _ => c.position.after b

/-- The place an error about what was consumed is told at. -/
def here (c : Cursor) : Position := if c.streamed && c.peeked then c.ahead else c.position

/-- A failure over what was consumed. -/
def fail {α : Type} (c : Cursor) (cause : Cause) : Except Failure α := .error ⟨cause, some c.here⟩

/-- A failure over the byte ahead. -/
def failAhead {α : Type} (c : Cursor) (cause : Cause) : Except Failure α := .error ⟨cause, some c.ahead⟩

/-- What comes of the end of the bytes, where `cause` is the failure of a text that ends there. -/
def failAtEnd {α : Type} (c : Cursor) (cause : Cause) : Except Failure α :=
  match c.ending with
  | .closed => c.fail cause
  | .broken reason => .error ⟨.read reason, none⟩
  | .stalled => .error ⟨.stalled, none⟩

/-- The byte ahead, if there is one. -/
def peek (c : Cursor) : Except Failure (Option UInt8 × Cursor) :=
  match c.rest with
  | b :: _ => .ok (some b, { c with peeked := true })
  | [] =>
    match c.ending with
    | .closed => .ok (none, c)
    | .broken reason => .error ⟨.read reason, none⟩
    | .stalled => .error ⟨.stalled, none⟩

/-- The cursor after the byte ahead. -/
def skip (c : Cursor) : Cursor :=
  match c.rest with
  | [] => c
  | b :: r => { c with rest := r, position := c.position.after b, peeked := false }

def moveTo (c : Cursor) (p : Position) (rest : List UInt8) : Cursor :=
  { c with rest, position := p, peeked := false }

/-- The text ends here if more of it would have to be waited for. -/
def cutOff (c : Cursor) : Cursor :=
  match c.ending with
  | .stalled => { c with ending := .closed }
  | _ => c

/-- One of the four blanks that may stand between the parts of a text. -/
def isSpace (b : UInt8) : Bool := b == 32 || b == 10 || b == 9 || b == 13

/-- The place after the blanks in front of the bytes, and the bytes from there. -/
def pastSpace (p : Position) : List UInt8 → Position × List UInt8
  | [] => (p, [])
  | b :: r => if isSpace b then pastSpace (p.after b) r else (p, b :: r)

/-- The cursor after the blanks ahead, and the byte it then stands before. -/
def skipSpace (c : Cursor) : Except Failure (Option UInt8 × Cursor) :=
  let (p, rest) := pastSpace c.position c.rest
  (c.moveTo p rest).peek

end Cursor

end CatalogSync.Json
