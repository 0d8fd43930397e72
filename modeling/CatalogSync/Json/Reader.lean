import CatalogSync.Json.Scan

/-!
# Reading JSON

`readValue` reads one value, `elementAhead` moves through an array item by item, and `read` reads a
text that holds one value and nothing else.
-/

namespace CatalogSync.Json

/-- How deep values may nest: one less than this many brackets may be open at once. -/
def depthLimit : Nat := 128

/-- Whether another item of an array follows, with the cursor before it; `first` says that none came yet. -/
def elementAhead (c : Cursor) (first : Bool) : Except Failure (Bool × Cursor) := do
  let (next, c) ← c.skipSpace
  match next with
  | none => c.failAhead .endInList
  | some b =>
    if b = 93 then return (false, c)
    else if first then return (true, c)
    else if b = 44 then
      let (after, c) ← c.skip.skipSpace
      match after with
      | some 93 => c.failAhead .trailingComma
      | some _ => return (true, c)
      | none => c.failAhead .endInValue
    else c.failAhead .expectedListCommaOrEnd

/-- Whether another member of an object follows, with the cursor before the quote of its key. -/
def memberAhead (c : Cursor) (first : Bool) : Except Failure (Bool × Cursor) := do
  let (next, c) ← c.skipSpace
  match next with
  | none => c.failAhead .endInObject
  | some b =>
    if b = 125 then return (false, c)
    else if first then
      if b = 34 then return (true, c) else c.failAhead .keyNotText
    else if b = 44 then
      let (after, c) ← c.skip.skipSpace
      match after with
      | some 34 => return (true, c)
      | some 125 => c.failAhead .trailingComma
      | some _ => c.failAhead .keyNotText
      | none => c.failAhead .endInValue
    else c.failAhead .expectedObjectCommaOrEnd

/-- The cursor after the colon between a key and its value. -/
def readColon (c : Cursor) : Except Failure Cursor := do
  let (next, c) ← c.skipSpace
  match next with
  | some 58 => return c.skip
  | some _ => c.failAhead .expectedColon
  | none => c.failAhead .endInObject

def readKey (c : Cursor) : Except Failure (String × Cursor) := do
  let (key, c) ← readText c.skip
  return (key, ← readColon c)

mutual

/-- Reads a value. `depth` brackets may be opened less one; `fuel` bounds the steps and exceeds the
bytes ahead. -/
def readValue (fuel depth : Nat) (c : Cursor) : Except Failure (Json × Cursor) :=
  match fuel with
  | 0 => c.fail .tooDeep
  | fuel + 1 => do
    let (next, c) ← c.skipSpace
    match next with
    | none => c.failAhead .endInValue
    | some b =>
      if b = 110 then return (.null, ← readWord c.skip [117, 108, 108])
      else if b = 116 then return (.bool true, ← readWord c.skip [114, 117, 101])
      else if b = 102 then return (.bool false, ← readWord c.skip [97, 108, 115, 101])
      else if b = 45 then readNumber c.skip true
      else if (digit? b).isSome then readNumber c false
      else if b = 34 then
        let (s, c) ← readText c.skip
        return (.text s, c)
      else if b = 91 then
        if depth ≤ 1 then c.failAhead .tooDeep
        else
          let (items, c) ← readItems fuel (depth - 1) c.skip true []
          return (.array items, c)
      else if b = 123 then
        if depth ≤ 1 then c.failAhead .tooDeep
        else
          let (members, c) ← readMembers fuel (depth - 1) c.skip true []
          return (.object members, c)
      else c.failAhead .expectedValue

/-- Reads the items of an array and its closing bracket; `acc` holds the items so far in reverse. -/
def readItems (fuel depth : Nat) (c : Cursor) (first : Bool) (acc : List Json) :
    Except Failure (List Json × Cursor) :=
  match fuel with
  | 0 => c.fail .tooDeep
  | fuel + 1 => do
    let (more, c) ← elementAhead c first
    if !more then return (acc.reverse, c.skip)
    else
      let (v, c) ← readValue fuel depth c
      readItems fuel depth c false (v :: acc)

/-- Reads the members of an object and its closing brace; `acc` holds the members so far. -/
def readMembers (fuel depth : Nat) (c : Cursor) (first : Bool) (acc : Text.Dict Json) :
    Except Failure (Text.Dict Json × Cursor) :=
  match fuel with
  | 0 => c.fail .tooDeep
  | fuel + 1 => do
    let (more, c) ← memberAhead c first
    if !more then return (acc, c.skip)
    else
      let (key, c) ← readKey c
      let (v, c) ← readValue fuel depth c
      readMembers fuel depth c false (acc.put key v)

end

/-- Makes sure that nothing but blanks follows. -/
def readEnd (c : Cursor) : Except Failure Unit := do
  let (next, c) ← c.skipSpace
  match next with
  | some _ => c.failAhead .trailingCharacters
  | none => return ()

/-- Steps that suffice to read any value among so many bytes. -/
def enoughSteps (bytes : Nat) : Nat := 2 * bytes + 2

/-- The value ahead as far as an error text tells it: brackets stay unopened. -/
def readKind (c : Cursor) : Except Failure (Json × Cursor) := do
  let (next, c) ← c.skipSpace
  match next with
  | some 91 => return (.array [], c)
  | some 123 => return (.object [], c)
  | _ => readValue 1 depthLimit c

/-- Reads a text that holds one value and nothing else, nested less than `depth` deep. -/
def readWithin (depth : Nat) (bytes : List UInt8) : Except Failure Json := do
  let (v, c) ← readValue (enoughSteps bytes.length) depth (Cursor.whole bytes)
  readEnd c
  return v

/-- Reads a text that holds one value and nothing else. -/
def read (s : String) : Except Failure Json := readWithin depthLimit s.toUTF8.toList

end CatalogSync.Json
