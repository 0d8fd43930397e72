import CatalogSync.Json.Reader
import CatalogSync.Json.Record
import CatalogSync.Json.Skip

/-!
# The directory of feeds

A small document names the feeds there are: of which type each is and where it can be had.
`Directory.read` reads it straight from its text, so every error has a place, and a member given
twice is refused.
-/

namespace CatalogSync.Feed

open CatalogSync.Json

/-- A feed in the directory. -/
structure Entry where
  type : String
  downloadUri : String
  updatedAt : Option String
  size : Option Nat
deriving DecidableEq, Repr, Inhabited

/-- The feeds there are. -/
structure Directory where
  entries : List Entry
deriving DecidableEq, Repr, Inhabited

def Directory.find (d : Directory) (type : String) : Option Entry := d.entries.find? (·.type == type)

/-! ## Values at a place of a text -/

/-- Reads a value at a cursor, and moves past it. -/
abbrev Located (α : Type) := Cursor → Except Failure (α × Cursor)

namespace Located

/-- The value ahead if it is a scalar that `r` reads. -/
def scalar {α : Type} (r : Reader α) : Located α := fun c => do
  let (v, c) ← readKind c
  match r v with
  | .ok a => return (a, c)
  | .error e => c.fail (.mismatch e)

/-- Null, or what `r` reads. -/
def optional {α : Type} (r : Located α) : Located (Option α) := fun c => do
  let (next, c) ← c.skipSpace
  match next with
  | some 110 => return (none, ← readWord c.skip [117, 108, 108])
  | _ =>
    let (a, c) ← r c
    return (some a, c)

end Located

/-! ## Brackets -/

/-- What came of the inside of a bracket: a value, or a complaint about what it lacks, told once the
bracket is closed. -/
inductive Inside (α : Type) where
  | value (a : α) (c : Cursor)
  | complaint (reason : String) (c : Cursor)

/-- The cursor after the bracket that closes an array of a known length. -/
def closeArray (c : Cursor) : Cursor × Option Failure :=
  match c.skipSpace with
  | .error f => (c, some f)
  | .ok (next, c) =>
    match next with
    | some 93 => (c.skip, none)
    | some 44 =>
      match c.skip.skipSpace with
      | .error f => (c.skip, some f)
      | .ok (some 93, c) => (c, some ⟨.trailingComma, some c.ahead⟩)
      | .ok (_, c) => (c, some ⟨.trailingCharacters, some c.ahead⟩)
    | some _ => (c, some ⟨.trailingCharacters, some c.ahead⟩)
    | none => (c, some ⟨.endInList, some c.ahead⟩)

/-- The cursor after the brace that closes an object. -/
def closeObject (c : Cursor) : Cursor × Option Failure :=
  match c.skipSpace with
  | .error f => (c, some f)
  | .ok (next, c) =>
    match next with
    | some 125 => (c.skip, none)
    | some 44 => (c, some ⟨.trailingComma, some c.ahead⟩)
    | some _ => (c, some ⟨.trailingCharacters, some c.ahead⟩)
    | none => (c, some ⟨.endInObject, some c.ahead⟩)

/-- Closes a bracket. A complaint is told at the place reached by closing it. -/
def Inside.close {α : Type} (closing : Cursor → Cursor × Option Failure) :
    Inside α → Except Failure (α × Cursor)
  | .value a c =>
    match closing c with
    | (c, none) => .ok (a, c)
    | (_, some f) => .error f
  | .complaint reason c => (closing c).1.fail (.mismatch reason)

/-- The value in an array, in an object or neither, told by the byte ahead. -/
def bracketed {α : Type} (expected : String) (fromArray : Cursor → Except Failure (Inside α))
    (fromObject : Option (Cursor → Except Failure (Inside α))) : Located α := fun c => do
  let (next, c) ← c.skipSpace
  match next, fromObject with
  | some 91, _ => (← fromArray c.skip).close closeArray
  | some 123, some inside => (← inside c.skip).close closeObject
  | _, _ =>
    let (v, c) ← readKind c
    c.fail (.mismatch (v.wrongKind expected))

/-- The items of an array. -/
def itemsOf {α : Type} (r : Located α) : Nat → Bool → List α → Cursor → Except Failure (Inside (List α))
  | 0, _, _, c => c.fail .tooDeep
  | fuel + 1, first, acc, c => do
    let (more, c) ← elementAhead c first
    if more then
      let (a, c) ← r c
      itemsOf r fuel false (a :: acc) c
    else return .value acc.reverse c

def arrayOf {α : Type} (fuel : Nat) (r : Located α) : Located (List α) :=
  bracketed "a sequence" (itemsOf r fuel true []) none

def duplicated (name : String) : String := "duplicate field `" ++ name ++ "`"

/-- The complaint over a member that is not there. -/
def missing (name : String) : String := "missing field `" ++ name ++ "`"

/-! ## Entries -/

/-- What is known of an entry while it is read. -/
structure Draft where
  type : Option String := none
  downloadUri : Option String := none
  updatedAt : Option (Option String) := none
  size : Option (Option Nat) := none
deriving Inhabited

namespace Draft

/-- The entry, or what it lacks. -/
def finish (d : Draft) : Except String Entry :=
  match d.type, d.downloadUri with
  | none, _ => .error (missing "type")
  | _, none => .error (missing "download_uri")
  | some type, some uri => .ok ⟨type, uri, d.updatedAt.join, d.size.join⟩

/-- Whether a member has been read already. -/
def has (d : Draft) (key : String) : Bool :=
  (key = "type" && d.type.isSome) || (key = "download_uri" && d.downloadUri.isSome) ||
    (key = "updated_at" && d.updatedAt.isSome) || (key = "size" && d.size.isSome)

/-- Reads the value of a member into the draft, or skips it. -/
def readMember (fuel : Nat) (d : Draft) (key : String) (c : Cursor) : Except Failure (Draft × Cursor) := do
  if key = "type" then
    let (s, c) ← Located.scalar Reader.text c
    return ({ d with type := some s }, c)
  else if key = "download_uri" then
    let (s, c) ← Located.scalar Reader.text c
    return ({ d with downloadUri := some s }, c)
  else if key = "updated_at" then
    let (s, c) ← (Located.scalar Reader.text).optional c
    return ({ d with updatedAt := some s }, c)
  else if key = "size" then
    let (n, c) ← (Located.scalar Reader.nat64).optional c
    return ({ d with size := some n }, c)
  else return (d, ← skipValue fuel c)

end Draft

/-- The members of an entry. -/
def entryMembers : Nat → Bool → Draft → Cursor → Except Failure (Inside Entry)
  | 0, _, _, c => c.fail .tooDeep
  | fuel + 1, first, d, c => do
    let (more, c) ← memberAhead c first
    if !more then
      match d.finish with
      | .ok e => return .value e c
      | .error reason => return .complaint reason c
    else
      let (key, c) ← readText c.skip
      if d.has key then return .complaint (duplicated key) c
      else
        let (d, c) ← d.readMember fuel key (← readColon c)
        entryMembers fuel false d c

/-- The items of an entry written as an array. The last two may be left out. -/
def entryItems (c : Cursor) : Except Failure (Inside Entry) := do
  let short := fun n => wrongLength n ("struct DatasetEntry with " ++ elements 4)
  let (more, c) ← elementAhead c true
  if !more then return .complaint (short 0) c
  let (type, c) ← Located.scalar Reader.text c
  let (more, c) ← elementAhead c false
  if !more then return .complaint (short 1) c
  let (uri, c) ← Located.scalar Reader.text c
  let (more, c) ← elementAhead c false
  if !more then return .value ⟨type, uri, none, none⟩ c
  let (updatedAt, c) ← (Located.scalar Reader.text).optional c
  let (more, c) ← elementAhead c false
  if !more then return .value ⟨type, uri, updatedAt, none⟩ c
  let (size, c) ← (Located.scalar Reader.nat64).optional c
  return .value ⟨type, uri, updatedAt, size⟩ c

def entry (fuel : Nat) : Located Entry :=
  bracketed "struct DatasetEntry" entryItems (some (entryMembers fuel true {}))

/-! ## The directory -/

/-- The members of the directory. -/
def directoryMembers : Nat → Bool → Option (List Entry) → Cursor → Except Failure (Inside Directory)
  | 0, _, _, c => c.fail .tooDeep
  | fuel + 1, first, found, c => do
    let (more, c) ← memberAhead c first
    if !more then
      match found with
      | some entries => return .value ⟨entries⟩ c
      | none => return .complaint (missing "data") c
    else
      let (key, c) ← readText c.skip
      if key = "data" then
        if found.isSome then return .complaint (duplicated key) c
        else
          let (entries, c) ← arrayOf fuel (entry fuel) (← readColon c)
          directoryMembers fuel false (some entries) c
      else directoryMembers fuel false found (← skipValue fuel (← readColon c))

/-- The one item of a directory written as an array. -/
def directoryItems (fuel : Nat) (c : Cursor) : Except Failure (Inside Directory) := do
  let (more, c) ← elementAhead c true
  if !more then return .complaint (wrongLength 0 ("struct DatasetCatalog with " ++ elements 1)) c
  let (entries, c) ← arrayOf fuel (entry fuel) c
  return .value ⟨entries⟩ c

/-- Reads a directory from the bytes of its document. -/
def Directory.read (bytes : List UInt8) : Except Failure Directory := do
  let fuel := enoughSteps bytes.length
  let directory := bracketed "struct DatasetCatalog" (directoryItems fuel) (some (directoryMembers fuel true none))
  let (d, c) ← directory (Cursor.whole bytes)
  readEnd c
  return d

end CatalogSync.Feed
