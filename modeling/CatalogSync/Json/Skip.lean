import CatalogSync.Json.Scan

/-!
# Skipping JSON values

Values that nobody asks for are passed over: their brackets, strings and numbers have to be well
formed, but numbers may be of any size, strings may hold any bytes, and values may nest to any
depth.
-/

namespace CatalogSync.Json

/-- How a skipped string ends. -/
inductive Passed where
  | closed (after : Position) (rest : List UInt8)
  | fault (cause : Cause) (at_ : Position)

/-- Passes the bytes of a string after its opening quote. -/
def passText (p : Position) : List UInt8 → Passed
  | [] => .fault .endInText p
  | b :: r =>
    if b = 34 then .closed (p.along 1) r
    else if b = 92 then
      match r with
      | [] => .fault .endInText (p.along 1)
      | e :: r =>
        if (shortEscape? e).isSome then passText (p.along 2) r
        else if e ≠ 117 then .fault .invalidEscape ((p.along 1).after e)
        else
          match r with
          | h1 :: h2 :: h3 :: h4 :: r =>
            match hex4? h1 h2 h3 h4 with
            | none => .fault .invalidEscape ([h1, h2, h3, h4].foldl Position.after (p.along 2))
            | some _ => passText (p.along 6) r
          | short => .fault .endInText (short.foldl Position.after (p.along 2))
    else if b < 32 then .fault .controlInText p
    else passText (p.along 1) r

/-- The cursor after a string whose opening quote has been consumed. -/
def skipText (c : Cursor) : Except Failure Cursor :=
  match passText c.position c.rest with
  | .closed p rest => .ok (c.moveTo p rest)
  | .fault cause p => .error ⟨cause, some p⟩

def skipDigits (c : Cursor) : Cursor :=
  let (ds, rest) := takeDigits c.rest
  c.moveTo (c.position.along ds.length) rest

/-- The cursor after one digit at least and all that follow it. -/
def skipSomeDigits (c : Cursor) : Except Failure Cursor :=
  match c.rest with
  | [] => c.fail .invalidNumber
  | b :: _ => if (digit? b).isSome then .ok (skipDigits c) else c.skip.fail .invalidNumber

/-- The cursor after the sign and the digits of an exponent. -/
def skipExponent (c : Cursor) : Except Failure Cursor :=
  match c.rest with
  | 43 :: _ => skipSomeDigits c.skip
  | 45 :: _ => skipSomeDigits c.skip
  | _ => skipSomeDigits c

/-- The cursor after a fraction's digits and what may follow them. -/
def skipFraction (c : Cursor) : Except Failure Cursor :=
  let after := skipDigits c
  if after.rest.length = c.rest.length then c.failAhead .invalidNumber
  else
    match after.rest with
    | 101 :: _ => skipExponent after.skip
    | 69 :: _ => skipExponent after.skip
    | _ => .ok after

/-- The cursor after a number whose sign has been consumed. -/
def skipNumber (c : Cursor) : Except Failure Cursor := do
  let c ← match c.rest with
    | [] => c.fail .invalidNumber
    | 48 :: d :: _ => if (digit? d).isSome then c.skip.failAhead .invalidNumber else pure c.skip
    | b :: _ => if (digit? b).isSome then pure (skipDigits c) else c.skip.fail .invalidNumber
  match c.rest with
  | 46 :: _ => skipFraction c.skip
  | 101 :: _ => skipExponent c.skip
  | 69 :: _ => skipExponent c.skip
  | _ => return c

/-- The cursor after a key and its colon, the byte ahead being the first of the key. -/
def skipKey (c : Cursor) : Except Failure Cursor := do
  let (next, c) ← c.skipSpace
  match next with
  | none => c.failAhead .endInObject
  | some 34 =>
    let c ← skipText c.skip
    let (colon, c) ← c.skipSpace
    match colon with
    | some 58 => return c.skip
    | some _ => c.failAhead .expectedColon
    | none => c.failAhead .endInObject
  | some _ => c.failAhead .keyNotText

mutual

/-- The cursor after the value ahead; `fuel` bounds the steps and exceeds the bytes ahead. -/
def skipValue (fuel : Nat) (c : Cursor) : Except Failure Cursor :=
  match fuel with
  | 0 => c.fail .tooDeep
  | fuel + 1 => do
    let (next, c) ← c.skipSpace
    match next with
    | none => c.failAhead .endInValue
    | some b =>
      if b = 110 then readWord c.skip [117, 108, 108]
      else if b = 116 then readWord c.skip [114, 117, 101]
      else if b = 102 then readWord c.skip [97, 108, 115, 101]
      else if b = 45 then skipNumber c.skip
      else if (digit? b).isSome then skipNumber c
      else if b = 34 then skipText c.skip
      else if b = 91 then skipItems fuel c.skip true
      else if b = 123 then skipMembers fuel c.skip true
      else c.failAhead .expectedValue

/-- The cursor after the items of an array and its closing bracket. -/
def skipItems (fuel : Nat) (c : Cursor) (first : Bool) : Except Failure Cursor :=
  match fuel with
  | 0 => c.fail .tooDeep
  | fuel + 1 => do
    let (next, c) ← c.skipSpace
    match next with
    | none => c.failAhead .endInList
    | some b =>
      if b = 93 then return c.skip
      else if first then skipItems fuel (← skipValue fuel c) false
      else if b = 44 then skipItems fuel (← skipValue fuel c.skip) false
      else c.failAhead .expectedListCommaOrEnd

/-- The cursor after the members of an object and its closing brace. -/
def skipMembers (fuel : Nat) (c : Cursor) (first : Bool) : Except Failure Cursor :=
  match fuel with
  | 0 => c.fail .tooDeep
  | fuel + 1 => do
    let (next, c) ← c.skipSpace
    match next with
    | none => c.failAhead .endInObject
    | some b =>
      if b = 125 then return c.skip
      else if first then skipMembers fuel (← skipValue fuel (← skipKey c)) false
      else if b = 44 then skipMembers fuel (← skipValue fuel (← skipKey c.skip)) false
      else c.failAhead .expectedObjectCommaOrEnd

end

end CatalogSync.Json
