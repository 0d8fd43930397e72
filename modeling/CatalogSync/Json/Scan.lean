import CatalogSync.Json.Cursor
import CatalogSync.Text.Utf8
import CatalogSync.Json.Basic

/-!
# Words, strings and numbers of a JSON text

What stands between the brackets, commas and colons. A number without fraction and exponent is an
integer while it fits into 64 bits. Any other is the double of its first digits, as many as fit into
64 bits, scaled by a power of ten.
-/

namespace CatalogSync.Json

open CatalogSync.Text

def digit? (b : UInt8) : Option Nat := if 48 ≤ b && b ≤ 57 then some (b.toNat - 48) else none

/-- The value of a hexadecimal digit. -/
def hexValue? (b : UInt8) : Option Nat :=
  if 48 ≤ b && b ≤ 57 then some (b.toNat - 48)
  else if 97 ≤ b && b ≤ 102 then some (b.toNat - 87)
  else if 65 ≤ b && b ≤ 70 then some (b.toNat - 55)
  else none

def hex4? (a b c d : UInt8) : Option Nat := do
  return (((← hexValue? a) * 16 + (← hexValue? b)) * 16 + (← hexValue? c)) * 16 + (← hexValue? d)

/-- The place after some bytes of a string, none of them a line end. -/
def Position.along (p : Position) (n : Nat) : Position := ⟨p.line, p.column + n⟩

/-! ## Words -/

/-- The cursor after the rest of a word. -/
def readWord (c : Cursor) : List UInt8 → Except Failure Cursor
  | [] => .ok c
  | w :: ws =>
    match c.rest with
    | [] => c.failAtEnd .endInValue
    | b :: _ => if b = w then readWord c.skip ws else c.skip.fail .expectedWord

/-! ## Strings -/

/-- The byte that a short escape stands for. -/
def shortEscape? (b : UInt8) : Option UInt8 :=
  if b = 34 then some 34
  else if b = 92 then some 92
  else if b = 47 then some 47
  else if b = 98 then some 8
  else if b = 102 then some 12
  else if b = 110 then some 10
  else if b = 114 then some 13
  else if b = 116 then some 9
  else none

/-- A code unit that opens a surrogate pair. -/
def isHighSurrogate (n : Nat) : Bool := 0xD800 ≤ n && n ≤ 0xDBFF

/-- A code unit that closes a surrogate pair. -/
def isLowSurrogate (n : Nat) : Bool := 0xDC00 ≤ n && n ≤ 0xDFFF

/-- The UTF-8 bytes of a code point, in reverse. -/
def reversedUtf8 (n : Nat) : List UInt8 := (String.utf8EncodeChar (Char.ofNat n)).reverse

/-- How a string ends: with its bytes and what follows, early, or with a fault seen at a place. -/
inductive Scanned where
  | closed (bytes : List UInt8) (after : Position) (rest : List UInt8)
  | early (at_ : Position)
  | fault (cause : Cause) (at_ : Position)

/-- Scans the bytes of a string after its opening quote; `acc` holds the bytes so far in reverse. -/
def scanText (p : Position) (acc : List UInt8) : List UInt8 → Scanned
  | [] => .early p
  | b :: r =>
    if b = 34 then .closed acc.reverse (p.along 1) r
    else if b = 92 then
      match r with
      | [] => .early (p.along 1)
      | e :: r =>
        match shortEscape? e with
        | some x => scanText (p.along 2) (x :: acc) r
        | none =>
          if e ≠ 117 then .fault .invalidEscape ((p.along 1).after e)
          else
            match r with
            | h1 :: h2 :: h3 :: h4 :: r =>
              match hex4? h1 h2 h3 h4 with
              | none => .fault .invalidEscape ([h1, h2, h3, h4].foldl Position.after (p.along 2))
              | some n =>
                if isLowSurrogate n then .fault .loneSurrogate (p.along 6)
                else if !isHighSurrogate n then scanText (p.along 6) (reversedUtf8 n ++ acc) r
                else
                  match r with
                  | [] => .early (p.along 6)
                  | s :: r =>
                    if s ≠ 92 then .fault .endInHexEscape ((p.along 6).after s)
                    else
                      match r with
                      | [] => .early (p.along 7)
                      | u :: r =>
                        if u ≠ 117 then .fault .endInHexEscape ((p.along 7).after u)
                        else
                          match r with
                          | k1 :: k2 :: k3 :: k4 :: r =>
                            match hex4? k1 k2 k3 k4 with
                            | none =>
                              .fault .invalidEscape ([k1, k2, k3, k4].foldl Position.after (p.along 8))
                            | some m =>
                              if !isLowSurrogate m then .fault .loneSurrogate (p.along 12)
                              else
                                let point := (n - 0xD800) * 1024 + (m - 0xDC00) + 0x10000
                                scanText (p.along 12) (reversedUtf8 point ++ acc) r
                          | short => .early (short.foldl Position.after (p.along 8))
            | short => .early (short.foldl Position.after (p.along 2))
    else if b < 32 then .fault .controlInText (p.after b)
    else scanText (p.along 1) (b :: acc) r

/-- Reads a string after its opening quote. -/
def readText (c : Cursor) : Except Failure (String × Cursor) :=
  match scanText c.position [] c.rest with
  | .early p => (c.moveTo p []).failAtEnd .endInText
  | .fault cause p => .error ⟨cause, some p⟩
  | .closed bytes p rest =>
    let after := c.moveTo p rest
    match String.fromUTF8? ⟨bytes.toArray⟩ with
    | some s => .ok (s, after)
    | none =>
      -- told at the byte that the malformed sequence starts with
      let own := c.rest.take (c.rest.length - rest.length)
      .error ⟨.invalidUnicode, some (c.position.along (Utf8.wellFormed own + 1))⟩

/-! ## Numbers -/

/-- The digits in front of the bytes, and what follows them. -/
def takeDigits : List UInt8 → List Nat × List UInt8
  | [] => ([], [])
  | b :: r =>
    match digit? b with
    | none => ([], b :: r)
    | some d => let (ds, after) := takeDigits r; (d :: ds, after)

/-- Appends digits to a number while it stays within 64 bits; the digits left over come back. -/
def appendDigits (n : Nat) : List Nat → Nat × List Nat
  | [] => (n, [])
  | d :: ds => if n * 10 + d ≤ Decimal.maxNat64 then appendDigits (n * 10 + d) ds else (n, d :: ds)

/-- The power of ten with a double of its own that scales exactly one step. -/
def powerOfTen (k : Nat) : Binary64 := Binary64.ofDecimal false 1 k

/-- `f · 10 ^ exponent` by one multiplication or by divisions, each rounded; `none` past the largest double. -/
def scale (f : Binary64) (exponent : Int) : Nat → Option Binary64
  | 0 => some f
  | fuel + 1 =>
    if exponent.natAbs ≤ 308 then
      if 0 ≤ exponent then
        match f.mul (powerOfTen exponent.toNat) with
        | .infinite _ => none
        | y => some y
      else some (f.div (powerOfTen (-exponent).toNat))
    else if f.isZero then some f
    else if 0 ≤ exponent then none
    else scale (f.div (powerOfTen 308)) (exponent + 308) fuel

/-- The double of a number's digits and its power of ten. -/
def realOf (c : Cursor) (negative : Bool) (digits : Nat) (exponent : Int) :
    Except Failure (Json × Cursor) :=
  -- two divisions bring every such number below the least double
  match scale (Binary64.ofNat digits) exponent 4 with
  | some x => .ok (.real (if negative then x.neg else x), c)
  | none => c.fail .numberOutOfRange

/-- The cursor after a run of digits, which the byte after them has been looked at to tell. -/
def readDigits (c : Cursor) : Except Failure (List Nat × Option UInt8 × Cursor) := do
  let (ds, rest) := takeDigits c.rest
  let (next, c) ← (c.moveTo (c.position.along ds.length) rest).peek
  return (ds, next, c)

/-- The greatest exponent that is read as it stands. -/
def maxExponent : Nat := 2147483647

/-- Appends a digit to an exponent while it can be read as it stands; the digits past that are counted. -/
def appendExponent : Nat × Nat → Nat → Nat × Nat
  | (e, left), d => if left = 0 && e * 10 + d ≤ maxExponent then (e * 10 + d, 0) else (e, left + 1)

/-- The digits of an exponent, applied to the digits before it; `down` says that the exponent is negative. -/
def exponentDigits (c : Cursor) (negative down : Bool) (digits : Nat) (exponent : Int) :
    Except Failure (Json × Cursor) :=
  let (ds, rest) := takeDigits c.rest
  let (e, left) := ds.foldl appendExponent (0, 0)
  if left = 0 then do
    let (_, _, c) ← readDigits c
    realOf c negative digits (if down then exponent - e else exponent + e)
  else if digits ≠ 0 && !down then
    -- told at the digit that went too far
    (c.moveTo (c.position.along (ds.length - left + 1)) rest).fail .numberOutOfRange
  else do
    let (_, _, c) ← readDigits c
    return (.real (Binary64.zero negative), c)

/-- Whether an exponent is negative, by the byte ahead, and the cursor after its sign. -/
def exponentSign (next : Option UInt8) (c : Cursor) : Bool × Cursor :=
  match next with
  | some 43 => (false, c.skip)
  | some 45 => (true, c.skip)
  | _ => (false, c)

/-- The exponent after its mark, applied to the digits before it. -/
def readExponent (c : Cursor) (negative : Bool) (digits : Nat) (exponent : Int) :
    Except Failure (Json × Cursor) := do
  let (signByte, c) ← c.peek
  let (down, c) := exponentSign signByte c
  match c.rest with
  | [] => c.failAtEnd .endInValue
  | b :: _ =>
    if (digit? b).isNone then c.skip.fail .invalidNumber
    else exponentDigits c negative down digits exponent

/-- The fraction after its point. -/
def readFraction (c : Cursor) (negative : Bool) (digits : Nat) (exponent : Int) :
    Except Failure (Json × Cursor) := do
  let (ds, next, c) ← readDigits c
  if ds.isEmpty then
    match next with
    | some _ => c.failAhead .invalidNumber
    | none => c.failAhead .endInValue
  else
    let (digits, left) := appendDigits digits ds
    let exponent := exponent - (ds.length - left.length : Nat)
    if next = some 101 || next = some 69 then readExponent c.skip negative digits exponent
    else realOf c negative digits exponent

/-- An integer, kept as one while it fits into 64 bits; minus zero is a double. -/
def integerOf (negative : Bool) (n : Nat) : Json :=
  if !negative then .int n
  else if n = 0 then .real (Binary64.zero true)
  else if n ≤ 9223372036854775808 then .int (-(n : Int))
  else .real (Binary64.ofNat n).neg

/-- Reads a number after its sign. -/
def readNumber (c : Cursor) (negative : Bool) : Except Failure (Json × Cursor) := do
  match c.rest with
  | [] => c.failAtEnd .endInValue
  | b :: _ =>
    match digit? b with
    | none => c.skip.fail .invalidNumber
    | some first =>
      if first = 0 then
        let (next, c) ← c.skip.peek
        match next with
        | some d => if (digit? d).isSome then c.failAhead .invalidNumber else numberTail c next 0 0
        | none => return (integerOf negative 0, c)
      else
        let (ds, next, c) ← readDigits c
        let (digits, left) := appendDigits 0 ds
        numberTail c next digits left.length
where
  /-- What follows the whole part, of which `left` digits went beyond 64 bits. -/
  numberTail (c : Cursor) (next : Option UInt8) (digits left : Nat) : Except Failure (Json × Cursor) :=
    if next = some 46 then readFraction c.skip negative digits left
    else if next = some 101 || next = some 69 then readExponent c.skip negative digits left
    else if left = 0 then .ok (integerOf negative digits, c)
    else realOf c negative digits left

end CatalogSync.Json
