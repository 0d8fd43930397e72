import CatalogSync.Text.Decimal

/-!
# Tokens of SQL

A statement is a row of tokens, each with its place in bytes. Blanks and comments stand between
tokens and are none.
-/

namespace CatalogSync.Sql

open CatalogSync.Text

/-- The kinds of tokens. -/
inductive Kind where
  /-- A keyword or a plain name. -/
  | word
  /-- A name in quotes of its own. -/
  | quotedName
  /-- A text in single quotes. -/
  | text
  | number
  | blob
  /-- A stand-in for a value. -/
  | variable
  | symbol
  /-- Characters that begin no token. -/
  | illegal
deriving DecidableEq, Repr, Inhabited

/-- A token. -/
structure Token where
  kind : Kind
  chars : List Char
  offset : Nat
deriving DecidableEq, Repr, Inhabited

def byteLength (cs : List Char) : Nat := cs.foldl (fun n c => n + c.utf8Size) 0

def isBlank (c : Char) : Bool := c = ' ' || c = '\t' || c = '\n' || c = '\x0c' || c = '\r'

def isLetter (c : Char) : Bool := ('a' ≤ c && c ≤ 'z') || ('A' ≤ c && c ≤ 'Z')

def isNameStart (c : Char) : Bool := isLetter c || c = '_' || 0x80 ≤ c.toNat

def isNameChar (c : Char) : Bool := isNameStart c || Decimal.isDigit c || c = '$'

def isHex (c : Char) : Bool := Decimal.isDigit c || ('a' ≤ c && c ≤ 'f') || ('A' ≤ c && c ≤ 'F')

/-- What is inside quotes, up to the closing one: a doubled quote stands for itself. `none` if there
is no closing one. -/
def quotedLength? (quote : Char) (n : Nat) : List Char → Option Nat
  | [] => none
  | [c] => if c = quote then some (n + 1) else none
  | c :: d :: r =>
    if c = quote then (if d = quote then quotedLength? quote (n + 2) r else some (n + 1))
    else quotedLength? quote (n + 1) (d :: r)

/-- The length of a comment that ends with a star and a slash, or with the text. -/
def commentLength (n : Nat) : List Char → Nat
  | '*' :: '/' :: _ => n + 2
  | _ :: r => commentLength (n + 1) r
  | [] => n

/-- The length of a number: digits, a fraction and an exponent, or hexadecimal digits after `0x`. -/
def numberLength (cs : List Char) : Nat :=
  let digits := fun (cs : List Char) => (cs.takeWhile Decimal.isDigit).length
  let hex := match cs with
    | '0' :: x :: r => if x = 'x' ∨ x = 'X' then (r.takeWhile isHex).length else 0
    | _ => 0
  if 0 < hex then hex + 2
  else
    let whole := digits cs
    let fraction := match cs.drop whole with
      | '.' :: r => 1 + digits r
      | _ => 0
    let n := whole + fraction
    match cs.drop n with
    | e :: r =>
      if e = 'e' ∨ e = 'E' then
        match r with
        | s :: t =>
          if (s = '+' ∨ s = '-') ∧ 0 < digits t then n + 2 + digits t
          else if 0 < digits r then n + 1 + digits r
          else n
        | [] => n
      else n
    | [] => n

/-- The symbols of two characters and more, the longest first. -/
def longSymbols : List String := ["->>", "->", "||", "<<", ">>", "<=", ">=", "<>", "==", "!="]

def shortSymbols : List Char := "(),;+-*/%=<>|&~.".toList

/-- Whether a character opens a variable that has a name. -/
def opensVariable (c : Char) : Bool := c = '$' || c = '@' || c = '#' || c = ':'

/-- The variable that a mark opens, where `r` follows it. After `#` a number stands for no value. -/
def scanVariable (mark : Char) (r : List Char) : Kind × Nat :=
  let n := (r.takeWhile isNameChar).length
  if n = 0 then (.illegal, 1)
  else if mark = '#' && r.head?.any Decimal.isDigit then (.symbol, n + 1)
  else (.variable, n + 1)

/-- The token that characters begin with, by its kind and length; they are not empty and begin with no blank. -/
def scan (cs : List Char) : Kind × Nat :=
  match cs with
  | [] => (.illegal, 0)
  | c :: r =>
    if c = '\'' then
      match quotedLength? c 1 r with
      | some n => (.text, n)
      | none => (.illegal, cs.length)
    else if c = '"' || c = '\x60' then
      match quotedLength? c 1 r with
      | some n => (.quotedName, n)
      | none => (.illegal, cs.length)
    else if c = '[' then
      let inside := (r.takeWhile (· ≠ ']')).length
      if inside < r.length then (.quotedName, inside + 2) else (.illegal, cs.length)
    else if (c = 'x' || c = 'X') && r.head? = some '\'' then
      let digits := ((r.drop 1).takeWhile isHex).length
      if digits % 2 = 0 && r[digits + 1]? = some '\'' then (.blob, digits + 3)
      else (.illegal, 2 + digits + (if r[digits + 1]? = some '\'' then 1 else 0))
    else if isNameStart c then (.word, (cs.takeWhile isNameChar).length)
    else if Decimal.isDigit c || (c = '.' && (r.head?.any Decimal.isDigit)) then
      let n := numberLength cs
      let more := ((cs.drop n).takeWhile isNameChar).length
      if more = 0 then (.number, n) else (.illegal, n + more)
    else if c = '?' then (.variable, 1 + (r.takeWhile Decimal.isDigit).length)
    else if opensVariable c then scanVariable c r
    else
      match longSymbols.find? fun s => s.toList.isPrefixOf cs with
      | some s => (.symbol, s.length)
      | none => if shortSymbols.contains c then (.symbol, 1) else (.illegal, 1)

/-- How many characters in front are blanks or a comment. -/
def gapLength (cs : List Char) : Nat :=
  match cs with
  | '-' :: '-' :: r => 2 + (r.takeWhile (· ≠ '\n')).length
  | '/' :: '*' :: c :: r => 2 + commentLength 0 (c :: r)
  | _ => (cs.takeWhile isBlank).length

/-- The tokens of a text from an offset on; `fuel` exceeds the number of characters. -/
def tokensFrom : Nat → Nat → List Char → List Token
  | 0, _, _ => []
  | fuel + 1, offset, cs =>
    if cs.isEmpty then []
    else
      let gap := gapLength cs
      if 0 < gap then tokensFrom fuel (offset + byteLength (cs.take gap)) (cs.drop gap)
      else
        let (kind, n) := scan cs
        let chars := cs.take (max n 1)
        ⟨kind, chars, offset⟩ :: tokensFrom fuel (offset + byteLength chars) (cs.drop (max n 1))

def tokens (sql : String) : List Token := tokensFrom (sql.toList.length + 1) 0 sql.toList

/-! ## Words and names -/

def lower (c : Char) : Char := if 'A' ≤ c ∧ c ≤ 'Z' then Char.ofNat (c.toNat + 32) else c

def upper (c : Char) : Char := if 'a' ≤ c ∧ c ≤ 'z' then Char.ofNat (c.toNat - 32) else c

def capitals (s : String) : String := String.ofList (s.toList.map upper)

/-- Whether two names are the same, letters of either case counting as one. -/
def sameName (a b : String) : Bool := a.toList.map lower == b.toList.map lower

/-- The words that cannot be names. -/
def reservedWords : List String :=
  [ "ADD", "ALL", "ALTER", "AND", "AS", "AUTOINCREMENT", "BETWEEN", "CASE", "CHECK", "COLLATE", "COMMIT", "CONSTRAINT",
    "CREATE", "DEFAULT", "DEFERRABLE", "DELETE", "DISTINCT", "DROP", "ELSE", "ESCAPE", "EXISTS", "FOREIGN", "FROM",
    "GROUP", "HAVING", "IN", "INDEX", "INSERT", "INTERSECT", "INTO", "IS", "ISNULL", "JOIN", "LIMIT", "NOT", "NOTHING",
    "NOTNULL", "NULL", "ON", "OR", "ORDER", "PRIMARY", "REFERENCES", "RETURNING", "SELECT", "SET", "TABLE", "THEN",
    "TO", "TRANSACTION", "UNION", "UNIQUE", "UPDATE", "USING", "VALUES", "WHEN", "WHERE" ]

namespace Token

def toText (t : Token) : String := String.ofList t.chars

def isWord (t : Token) (word : String) : Bool := t.kind = .word && capitals t.toText == word

def isSymbol (t : Token) (s : String) : Bool := t.kind = .symbol && t.toText == s

/-- Undoes the doubling of a quote. -/
def undouble (quote : Char) : List Char → List Char
  | c :: d :: r => if c = quote && d = quote then quote :: undouble quote r else c :: undouble quote (d :: r)
  | cs => cs

/-- The name that a token stands for, if it can be a name. -/
def name? (t : Token) : Option String :=
  match t.kind with
  | .word => if reservedWords.contains (capitals t.toText) then none else some t.toText
  | .quotedName | .text =>
    let inside := (t.chars.drop 1).dropLast
    match t.chars.head? with
    | some '[' => some (String.ofList inside)
    | some quote => some (String.ofList (undouble quote inside))
    | none => none
  | _ => none

end Token

end CatalogSync.Sql
