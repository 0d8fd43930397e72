import CatalogSync.Binary64.Text
import CatalogSync.Toml.Scan
import CatalogSync.Toml.Basic
import CatalogSync.Text.Quoted

/-!
# Writing TOML values

`Value.text` writes a value on its own. Keys of a table come in order, those of plain values first,
then arrays with a table in them, then tables. A string is written in the first of the four forms
that shows it without escapes.
-/

namespace CatalogSync.Toml

open CatalogSync.Text

/-! ## Strings and keys -/

def longestRun (c : Char) (cs : List Char) : Nat :=
  (cs.foldl (fun (run, most) d => if d = c then (run + 1, max most (run + 1)) else (0, most)) (0, 0)).2

/-- Whether a string holds a control character that only an escape can show. -/
def needsEscape (cs : List Char) : Bool := cs.any fun c => c ≠ '\n' && !isShown c

/-- A character as the form with escapes shows it; in the `long` form a line end stands as it is. -/
def escaped (long : Bool) (c : Char) : List Char :=
  if c = '\x08' then ['\\', 'b']
  else if c = '\t' then ['\\', 't']
  else if c = '\n' then (if long then ['\n'] else ['\\', 'n'])
  else if c = '\x0c' then ['\\', 'f']
  else if c = '\r' then ['\\', 'r']
  else if c = '\\' then ['\\', '\\']
  else if isShown c then [c]
  else ['\\', 'u'] ++ (hexUpper 4 c.toNat)
where
  /-- The last `n` hexadecimal digits of a number, in upper case. -/
  hexUpper : Nat → Nat → List Char
    | 0, _ => []
    | n + 1, v => hexUpper n (v / 16) ++ [Char.toUpper (hexDigit (v % 16))]

/-- The characters with escapes, where no more than `most` quotes stand in a row without one. -/
def escapedChars (long : Bool) (most run : Nat) : List Char → List Char
  | [] => []
  | c :: r =>
    if c = '"' then
      if run < most then '"' :: escapedChars long most (run + 1) r
      else '\\' :: '"' :: escapedChars long most 0 r
    else escaped long c ++ escapedChars long most 0 r

/-- The mark that opens a long form; a string with line ends starts on a line of its own. -/
def openLong (quote : Char) (cs : List Char) : List Char :=
  List.replicate 3 quote ++ (if cs.contains '\n' then ['\n'] else [])

def basicForm (cs : List Char) : List Char := '"' :: escapedChars false 0 0 cs ++ ['"']

def literalForm (cs : List Char) : List Char := '\'' :: cs ++ ['\'']

def longBasicForm (cs : List Char) : List Char := openLong '"' cs ++ escapedChars true 2 0 cs ++ List.replicate 3 '"'

def longLiteralForm (cs : List Char) : List Char := openLong '\'' cs ++ cs ++ List.replicate 3 '\''

/-- A string as a value. -/
def stringChars (cs : List Char) : List Char :=
  let coded := needsEscape cs
  let slashed := cs.contains '\\'
  let broken := cs.contains '\n'
  let double := longestRun '"' cs
  let single := longestRun '\'' cs
  if !coded && !slashed && double = 0 && !broken then basicForm cs
  else if !coded && single = 0 && !broken then literalForm cs
  else if !coded && !slashed && double ≤ 2 then longBasicForm cs
  else if !coded && single ≤ 2 then longLiteralForm cs
  else if broken then longBasicForm cs
  else basicForm cs

/-- A key; one of letters, digits, underscores and hyphens needs no quotes. -/
def keyChars (key : String) : List Char :=
  let cs := key.toList
  let coded := needsEscape cs || cs.contains '\n'
  if !cs.isEmpty && cs.all isBare then cs
  else if !coded && !cs.contains '\\' && !cs.contains '"' then basicForm cs
  else if !coded && !cs.contains '\'' then literalForm cs
  else basicForm cs

/-! ## Values -/

/-- A float has a point always; what is not a number has no sign. -/
def floatChars (x : Binary64) : List Char :=
  match x with
  | .nan _ => "nan".toList
  | x => if x.isWhole then x.plain.toList ++ ['.', '0'] else x.plain.toList

/-- Where an entry of a table stands: plain values, then arrays of tables, then tables. -/
def Value.rank : Value → Nat
  | .table _ => 2
  | .array elements => if elements.any Value.isTable then 1 else 0
  | _ => 0

/-- Texts with commas between them. -/
def listed : List (List Char) → List Char
  | [] => []
  | [cs] => cs
  | cs :: more :: rest => cs ++ ',' :: ' ' :: listed (more :: rest)

def inOrder (entries : List (String × Nat × List Char)) : List (List Char) :=
  let sorted := Dict.ofList entries
  let ranked (n : Nat) := (sorted.filter (·.2.1 = n)).map (·.2.2)
  ranked 0 ++ ranked 1 ++ ranked 2

mutual

/-- The characters of a value. -/
def Value.chars : Value → List Char
  | .string s => stringChars s.toList
  | .integer n => (Decimal.ofInt n.toInt).toList
  | .float x => floatChars x
  | .boolean b => if b then "true".toList else "false".toList
  | .moment m => m.chars
  | .array elements => '[' :: listed (elementChars elements) ++ [']']
  | .table [] => ['\x7b', '\x7d']
  | .table entries => '\x7b' :: ' ' :: listed (inOrder (entryChars entries)) ++ [' ', '\x7d']

def elementChars : List Value → List (List Char)
  | [] => []
  | v :: rest => v.chars :: elementChars rest

/-- The characters of every entry, with its key and its place. -/
def entryChars : List (String × Value) → List (String × Nat × List Char)
  | [] => []
  | (key, v) :: rest => (key, v.rank, keyChars key ++ " = ".toList ++ v.chars) :: entryChars rest

end

/-- The text of a value. A moment that is not within another value is written as the table that
stands for it. -/
def Value.text (v : Value) : String :=
  String.ofList <| match v with
    | .moment m => (Value.table [(Value.momentKey, .string m.text)]).chars
    | v => v.chars

end CatalogSync.Toml
