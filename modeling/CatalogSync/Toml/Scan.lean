import CatalogSync.Text.Decimal

/-!
# The small parts of a TOML document

Blanks, comments, line ends, strings and keys, each read from the front of a text. The rest of the
text comes back with what was read, and `none` says that the front is not of the wanted form.
-/

namespace CatalogSync.Toml

open CatalogSync.Text

/-- A reader of something that stands in front of a text. -/
abbrev Scan (α : Type) := List Char → Option (α × List Char)

/-! ## Blanks, comments and line ends -/

/-- A blank within a line. -/
def isGap (c : Char) : Bool := c = ' ' || c = '\t'

/-- A character that may stand in a comment or, quotes and backslashes apart, in a string. -/
def isShown (c : Char) : Bool := c = '\t' || (0x20 ≤ c.toNat && c.toNat ≠ 0x7F)

def pastGaps (cs : List Char) : List Char := cs.dropWhile isGap

def lineEnd? : List Char → Option (List Char)
  | '\n' :: r => some r
  | '\r' :: '\n' :: r => some r
  | _ => none

/-- The text after the line end in front, if one stands there. -/
def pastLineEnd (cs : List Char) : List Char := (lineEnd? cs).getD cs

/-- The text after a comment in front, if one stands there. -/
def pastComment : List Char → List Char
  | '#' :: r => r.dropWhile isShown
  | cs => cs

/-- The text after the end of a statement: blanks, perhaps a comment, and the end of the line or of
the document. -/
def statementEnd? (cs : List Char) : Option (List Char) :=
  match pastComment (pastGaps cs) with
  | [] => some []
  | rest => lineEnd? rest

/-- The text after the blanks, line ends and comments in front; `within` says that it starts within
a comment. -/
def pastSpace (within : Bool) : List Char → List Char
  | [] => []
  | '\n' :: r => pastSpace false r
  | '\r' :: '\n' :: r => pastSpace false r
  | c :: r =>
    if within then (if isShown c then pastSpace true r else c :: r)
    else if isGap c then pastSpace false r
    else if c = '#' then pastSpace true r
    else c :: r

/-! ## Strings -/

/-- The value of a digit up to sixteen, in either case. -/
def digitValue? (c : Char) : Option Nat :=
  if '0' ≤ c && c ≤ '9' then some (c.toNat - 48)
  else if 'a' ≤ c && c ≤ 'f' then some (c.toNat - 87)
  else if 'A' ≤ c && c ≤ 'F' then some (c.toNat - 55)
  else none

/-- The character that a row of hexadecimal digits numbers. -/
def numbered? (ds : List Char) : Option Char := do
  let n ← ds.foldlM (fun n c => (digitValue? c).map (16 * n + ·)) 0
  if n.isValidChar then some (Char.ofNat n) else none

/-- The character that a short escape stands for. -/
def shortEscape? (c : Char) : Option Char :=
  match c with
  | 'b' => some '\x08'
  | 'f' => some '\x0c'
  | 'n' => some '\n'
  | 'r' => some '\r'
  | 't' => some '\t'
  | '\\' => some '\\'
  | '"' => some '"'
  | _ => none

/-- A character in front of what was read. -/
def push (c : Char) : List Char × List Char → List Char × List Char
  | (read, rest) => (c :: read, rest)

/-- A character in front of what is read, where both are there. -/
def pushed? (c : Option Char) (r : Option (List Char × List Char)) : Option (List Char × List Char) :=
  c.bind fun c => r.map (push c)

/-- The characters of a string with escapes, after its opening quote. -/
def basicChars : Scan (List Char)
  | [] => none
  | '"' :: r => some ([], r)
  | '\\' :: 'u' :: a :: b :: c :: d :: r => pushed? (numbered? [a, b, c, d]) (basicChars r)
  | '\\' :: 'U' :: a :: b :: c :: d :: e :: f :: g :: h :: r =>
    pushed? (numbered? [a, b, c, d, e, f, g, h]) (basicChars r)
  | '\\' :: e :: r => pushed? (shortEscape? e) (basicChars r)
  | c :: r => if isShown c && c ≠ '\\' then (basicChars r).map (push c) else none

/-- The characters of a literal string, after its opening quote. -/
def literalChars : Scan (List Char)
  | [] => none
  | '\'' :: r => some ([], r)
  | c :: r => if isShown c then (literalChars r).map (push c) else none

/-- Up to two more quotes belong to the text that three quotes end. -/
def endOfLong (quote : Char) : List Char → List Char × List Char
  | a :: b :: r =>
    if a = quote && b = quote then ([quote, quote], r)
    else if a = quote then ([quote], b :: r)
    else ([], a :: b :: r)
  | [a] => if a = quote then ([quote], []) else ([], [a])
  | [] => ([], [])

/-- Whether a line ends here but for blanks. -/
def endsLine (cs : List Char) : Bool := (lineEnd? (pastGaps cs)).isSome

/-- The characters of a long string with escapes, after its opening quotes. A backslash at the end
of a line takes the white space after it away; `trimming` says that this is under way. -/
def longBasicChars (trimming : Bool) : Scan (List Char)
  | [] => none
  | '"' :: '"' :: '"' :: r => some (endOfLong '"' r)
  | '\n' :: r => if trimming then longBasicChars true r else (longBasicChars false r).map (push '\n')
  | '\r' :: '\n' :: r => if trimming then longBasicChars true r else (longBasicChars false r).map (push '\n')
  | '\\' :: 'u' :: a :: b :: c :: d :: r => pushed? (numbered? [a, b, c, d]) (longBasicChars false r)
  | '\\' :: 'U' :: a :: b :: c :: d :: e :: f :: g :: h :: r =>
    pushed? (numbered? [a, b, c, d, e, f, g, h]) (longBasicChars false r)
  | '\\' :: e :: r =>
    if endsLine (e :: r) then longBasicChars true (e :: r)
    else pushed? (shortEscape? e) (longBasicChars false r)
  | c :: r =>
    if trimming && isGap c then longBasicChars true r
    else if isShown c && c ≠ '\\' then (longBasicChars false r).map (push c)
    else none

/-- The characters of a long literal string, after its opening quotes. -/
def longLiteralChars : Scan (List Char)
  | [] => none
  | '\'' :: '\'' :: '\'' :: r => some (endOfLong '\'' r)
  | '\n' :: r => (longLiteralChars r).map (push '\n')
  | '\r' :: '\n' :: r => (longLiteralChars r).map (push '\n')
  | c :: r => if isShown c then (longLiteralChars r).map (push c) else none

/-- A text made of the characters that were read. -/
def asText (r : Option (List Char × List Char)) : Option (String × List Char) :=
  r.map fun (read, rest) => (String.ofList read, rest)

def shortString? : Scan String
  | '"' :: r => asText (basicChars r)
  | '\'' :: r => asText (literalChars r)
  | _ => none

/-- A string of any of the four forms. The line end after the quotes that open a long one is not part of it. -/
def string? : Scan String
  | '"' :: '"' :: '"' :: r => asText (longBasicChars false (pastLineEnd r))
  | '\'' :: '\'' :: '\'' :: r => asText (longLiteralChars (pastLineEnd r))
  | cs => shortString? cs

/-! ## Keys -/

/-- A character of a key that stands without quotes. -/
def isBare (c : Char) : Bool := ('a' ≤ c && c ≤ 'z') || ('A' ≤ c && c ≤ 'Z') || Decimal.isDigit c || c = '-' || c = '_'

/-- One part of a key, the blanks about it left out. -/
def keyPart? (cs : List Char) : Option (String × List Char) := do
  let cs := pastGaps cs
  let (part, rest) ←
    match cs with
    | c :: _ =>
      if c = '"' || c = '\'' then shortString? cs
      else if isBare c then some (String.ofList (cs.takeWhile isBare), cs.dropWhile isBare)
      else none
    | [] => none
  some (part, pastGaps rest)

/-- The parts of a key with points between them, `most` at the most. -/
def keyParts? : Nat → Scan (List String)
  | 0, _ => none
  | most + 1, cs => do
    let (part, rest) ← keyPart? cs
    match rest with
    | '.' :: rest =>
      let (parts, rest) ← keyParts? most rest
      some (part :: parts, rest)
    | _ => some ([part], rest)

/-- The greatest depth of keys, and of arrays and tables in braces within each other. -/
def maxDepth : Nat := 79

def key? : Scan (List String) := keyParts? maxDepth

end CatalogSync.Toml
