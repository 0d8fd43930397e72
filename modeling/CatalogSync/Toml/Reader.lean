import CatalogSync.Toml.Number
import CatalogSync.Toml.Tree

/-!
# Reading a TOML document

`read?` gives the entries of a document, or `none` for a text that is none. A document is a sequence
of sections; the first has no header.
-/

namespace CatalogSync.Toml

/-- A key with its value; `path` holds the parts before the last. -/
abbrev Pair := List String × String × Value

/-! ## Values -/

/-- The elements of an array, after its bracket. `steps` bounds their number. -/
def elements? (element : Scan Value) : Nat → Scan (List Value)
  | 0, _ => none
  | steps + 1, cs =>
    match pastSpace false cs with
    | ']' :: r => some ([], r)
    | cs => do
      let (v, r) ← element cs
      match pastSpace false r with
      | ',' :: r =>
        let (vs, r) ← elements? element steps r
        some (v :: vs, r)
      | ']' :: r => some ([v], r)
      | _ => none

/-- The last part of a key and the parts before it. -/
def splitKey? (parts : List String) : Option (List String × String) :=
  parts.getLast?.map fun key => (parts.dropLast, key)

/-- A key, the sign of equality and a value. -/
def pair? (element : Scan Value) (cs : List Char) : Option (Pair × List Char) := do
  let (parts, r) ← key? cs
  let (path, key) ← splitKey? parts
  match r with
  | '=' :: r =>
    let (v, r) ← element (pastGaps r)
    some ((path, key, v), r)
  | _ => none

/-- The pairs of a table in braces, after at least one and up to the closing brace. -/
def pairs? (element : Scan Value) : Nat → Scan (List Pair)
  | 0, _ => none
  | steps + 1, cs => do
    let (p, r) ← pair? element cs
    match pastGaps r with
    | ',' :: r =>
      let (ps, r) ← pairs? element steps r
      some (p :: ps, r)
    | '\x7d' :: r => some ([p], r)
    | _ => none

/-- A table in braces, after its opening one. -/
def bracedTable? (element : Scan Value) (cs : List Char) : Option (Value × List Char) :=
  match pastGaps cs with
  | '\x7d' :: r => some (.table [], r)
  | cs => do
    let (pairs, r) ← pairs? element (cs.length + 1) cs
    let tree ← Tree.putAll? [] pairs
    some (.table (treeEntries tree), r)

def momentOrNumber? (cs : List Char) : Option (Value × List Char) :=
  match Moment.scan? .ofValue cs with
  | some (m, r) => some (.moment m, r)
  | none => number? cs

/-- A value; `depth` bounds how deep arrays and tables in braces stand within each other. -/
def value? : Nat → Scan Value
  | depth, cs =>
    match cs with
    | [] => none
    | '[' :: r =>
      match depth with
      | 0 => none
      | depth + 1 => (elements? (value? depth) (r.length + 1) r).map fun (vs, r) => (.array vs, r)
    | '\x7b' :: r =>
      match depth with
      | 0 => none
      | depth + 1 => bracedTable? (value? depth) r
    | '"' :: _ => (string? cs).map fun (s, r) => (.string s, r)
    | '\'' :: _ => (string? cs).map fun (s, r) => (.string s, r)
    | 't' :: 'r' :: 'u' :: 'e' :: r => some (.boolean true, r)
    | 'f' :: 'a' :: 'l' :: 's' :: 'e' :: r => some (.boolean false, r)
    | _ => momentOrNumber? cs

/-! ## Sections -/

/-- A header: the path and last part of its key, and whether it adds a row. -/
structure Header where
  path : List String
  key : String
  addsRow : Bool
deriving DecidableEq, Repr, Inhabited

/-- A header after its first bracket. -/
def header? (cs : List Char) : Option (Header × List Char) := do
  let (addsRow, cs) := match cs with
    | '[' :: r => (true, r)
    | _ => (false, cs)
  let (parts, r) ← key? cs
  let (path, key) ← splitKey? parts
  match r with
  | ']' :: r =>
    if addsRow then
      match r with
      | ']' :: r => some (⟨path, key, true⟩, r)
      | _ => none
    else some (⟨path, key, false⟩, r)
  | _ => none

/-- A line of a document. -/
inductive Statement where
  | header (h : Header)
  | pair (p : Pair)

/-- The statements up to the end of a document. `steps` bounds their number. -/
def statements? : Nat → List Char → Option (List Statement)
  | 0, _ => none
  | steps + 1, cs =>
    match pastSpace false cs with
    | [] => some []
    | '[' :: r => do
      let (h, r) ← header? r
      return .header h :: (← statements? steps (← statementEnd? r))
    | cs => do
      let (p, r) ← pair? (value? maxDepth) cs
      return .pair p :: (← statements? steps (← statementEnd? r))

/-- The pairs up to the next header, and the statements from there. -/
def leadingPairs : List Statement → List Pair × List Statement
  | .pair p :: rest => let (ps, rest) := leadingPairs rest; (p :: ps, rest)
  | rest => ([], rest)

/-- Adds the sections of a document to a tree in their order; each header takes the pairs that follow it. -/
def addSections? (tree : Tree) : List Statement → Option Tree
  | [] => some tree
  | .pair _ :: rest => addSections? tree rest
  | .header h :: rest => do
    let pairs := (leadingPairs rest).1
    let tree ← if h.addsRow then tree.addRow? h.path h.key pairs else tree.openTable? h.path h.key pairs
    addSections? tree rest

/-- The text after a byte order mark in front, if one stands there. -/
def pastMark : List Char → List Char
  | '\ufeff' :: r => r
  | cs => cs

/-- The entries of a document. -/
def read? (document : String) : Option Entries := do
  let cs := pastMark document.toList
  let statements ← statements? (cs.length + 1) cs
  let tree ← Tree.putAll? [] (leadingPairs statements).1
  return treeEntries (← addSections? tree statements)

end CatalogSync.Toml
