import CatalogSync.Sql.Token
import CatalogSync.Store.Error

/-!
# Reading a statement

A statement is read token by token. What stands at the wrong place is refused with the text and the
place of the token.
-/

namespace CatalogSync.Sql

/-- A statement that is being read: its text and the tokens not read yet. -/
structure Reading where
  sql : String
  rest : List Token
deriving Inhabited

namespace Reading

/-- A fault at the next token. -/
def refuse {α : Type} (r : Reading) : Except SqlFault α :=
  match r.rest with
  | [] => .error (.rejected "incomplete input")
  | t :: _ =>
    if t.kind = .illegal then .error (.statement ("unrecognized token: \"" ++ t.toText ++ "\"") r.sql t.offset)
    else .error (.statement ("near \"" ++ t.toText ++ "\": syntax error") r.sql t.offset)

/-- Without the next token. -/
def skip (r : Reading) : Reading := { r with rest := r.rest.drop 1 }

/-- Whether the next token is a certain symbol. -/
def atSymbol (r : Reading) (s : String) : Bool := r.rest.head?.any (·.isSymbol s)

/-- Whether the next token is a certain keyword. -/
def atWord (r : Reading) (word : String) : Bool := r.rest.head?.any (·.isWord word)

/-- Whether the next token is one of some keywords. -/
def atAnyWord (r : Reading) (words : List String) : Bool := words.any r.atWord

/-- Without the next token if it is a certain keyword. -/
def pastWord (r : Reading) (word : String) : Reading := if r.atWord word then r.skip else r

/-- Without the next token if it is one of some keywords. -/
def pastAnyWord (r : Reading) (words : List String) : Reading := if r.atAnyWord words then r.skip else r

def symbol (r : Reading) (s : String) : Except SqlFault Reading := if r.atSymbol s then .ok r.skip else r.refuse

def word (r : Reading) (word : String) : Except SqlFault Reading := if r.atWord word then .ok r.skip else r.refuse

def anyWord (r : Reading) (words : List String) : Except SqlFault Reading :=
  if r.atAnyWord words then .ok r.skip else r.refuse

/-- Passes a name and tells it with its place. -/
def name (r : Reading) : Except SqlFault (String × Nat × Reading) :=
  match r.rest with
  | t :: rest =>
    match t.name? with
    | some n => .ok (n, t.offset, { r with rest })
    | none => r.refuse
  | [] => r.refuse

def pastName (r : Reading) : Except SqlFault Reading := (r.name).map fun (_, _, r) => r

/-- The offset of the next token, or of the end of the statement. -/
def offset (r : Reading) : Nat :=
  match r.rest with
  | t :: _ => t.offset
  | [] => byteLength r.sql.toList

/-- Steps that suffice for the tokens ahead. -/
def fuel (r : Reading) : Nat := 4 * r.rest.length + 4

end Reading

/-- The bytes of a statement between two offsets, as text. -/
def between (sql : String) (start stop : Nat) : String :=
  let rec go (n : Nat) : List Char → List Char
    | [] => []
    | c :: r => if start ≤ n && n < stop then c :: go (n + c.utf8Size) r else go (n + c.utf8Size) r
  String.ofList (go 0 sql.toList)

def trimmedText (s : String) : String :=
  String.ofList ((s.toList.dropWhile isBlank).reverse.dropWhile isBlank).reverse

/-! ## Types -/

/-- Whether a token can be part of the name of a type. -/
def isTypePart (t : Token) : Bool := t.name?.isSome && !t.isWord "GENERATED"

def signedNumber (r : Reading) : Except SqlFault Reading :=
  let r := if r.atSymbol "+" || r.atSymbol "-" then r.skip else r
  if r.rest.head?.any (·.kind = .number) then .ok r.skip else r.refuse

/-- Passes the size that may follow a type: one number or two in parentheses. -/
def typeSize (r : Reading) : Except SqlFault Reading :=
  if r.atSymbol "(" then do
    let r ← signedNumber r.skip
    let r ← if r.atSymbol "," then signedNumber r.skip else pure r
    r.symbol ")"
  else .ok r

def Token.stop (t : Token) : Nat := t.offset + byteLength t.chars

/-- Passes a type and tells it as written. -/
def writtenType (r : Reading) : Except SqlFault (String × Reading) :=
  let parts := r.rest.takeWhile isTypePart
  if parts.isEmpty then .ok ("", r)
  else do
    let sized ← typeSize { r with rest := r.rest.drop parts.length }
    let passed := r.rest.take (r.rest.length - sized.rest.length)
    let stop := (passed.getLast?.map Token.stop).getD r.offset
    return (between r.sql r.offset stop, sized)

end CatalogSync.Sql
