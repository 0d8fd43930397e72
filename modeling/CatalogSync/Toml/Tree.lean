import CatalogSync.Toml.Basic

/-!
# Tables under construction

A document names its tables by headers and by keys with points, and each way of making a table says
who may still add to it. `Tree` keeps that with the tables; `Tree.put?`, `Tree.openTable?` and
`Tree.addRow?` are the three statements.
-/

namespace CatalogSync.Toml

/-- How a table came about. -/
inductive Origin where
  /-- It has a header, or it is in braces. -/
  | declared
  /-- A header below it implies it. -/
  | implied
  /-- A key with points made it. -/
  | dotted
deriving DecidableEq, Repr, Inhabited

/-- A value that is complete, a table that may grow, or the rows that headers in double brackets have made. -/
inductive Node where
  | value (v : Value)
  | table (origin : Origin) (entries : List (String × Node))
  | rows (tables : List (List (String × Node)))
deriving Repr, Inhabited

/-- The entries of a table under construction. -/
abbrev Tree := List (String × Node)

mutual

def Node.toValue : Node → Value
  | .value v => v
  | .table _ entries => .table (treeEntries entries)
  | .rows tables => .array (rowValues tables)

/-- The entries that a table has come to. -/
def treeEntries : List (String × Node) → List (String × Value)
  | [] => []
  | (key, node) :: rest => (key, node.toValue) :: treeEntries rest

def rowValues : List (List (String × Node)) → List Value
  | [] => []
  | row :: rest => .table (treeEntries row) :: rowValues rest

end

namespace Tree

/-- Gives a key another node where the key stands. -/
def replace (tree : Tree) (key : String) (node : Node) : Tree :=
  tree.map fun (k, n) => if k = key then (k, node) else (k, n)

/-- Changes the table at the end of a path. Tables that are not there are added, with the origin
`added`. A key with points does not enter a table that has been declared. -/
def changeAt? (added : Origin) (change : Origin → Tree → Option Tree) : List String → Origin → Tree → Option Tree
  | [], origin, tree => change origin tree
  | key :: path, _, tree =>
    match tree.lookup key with
    | none => do
      let inner ← changeAt? added change path added []
      some (tree ++ [(key, .table added inner)])
    | some (.value _) => none
    | some (.table origin inner) =>
      if added = .dotted && origin = .declared then none
      else (changeAt? added change path origin inner).map fun inner => replace tree key (.table origin inner)
    | some (.rows tables) => do
      let last ← tables.getLast?
      let row ← changeAt? added change path .declared last
      some (replace tree key (.rows (tables.dropLast ++ [row])))

/-- Gives a key a value. A key with points stands in a table that such keys have made, any other in
one that is not. -/
def put? (tree : Tree) (path : List String) (key : String) (v : Value) : Option Tree :=
  changeAt? .dotted (fun origin entries =>
    if (origin = .dotted) = (path = []) then none
    else if (entries.lookup key).isSome then none
    else some (entries ++ [(key, .value v)])) path .declared tree

/-- Gives every key its value. -/
def putAll? (tree : Tree) (pairs : List (List String × String × Value)) : Option Tree :=
  pairs.foldlM (fun t (path, key, v) => t.put? path key v) tree

/-- Declares a table with its pairs. It must be new or only implied so far. -/
def openTable? (tree : Tree) (path : List String) (key : String) (pairs : List (List String × String × Value)) :
    Option Tree :=
  changeAt? .implied (fun _ entries =>
    match entries.lookup key with
    | none => (putAll? [] pairs).map fun inner => entries ++ [(key, .table .declared inner)]
    | some (.table .implied inner) =>
      (putAll? inner pairs).map fun inner => entries.filter (·.1 ≠ key) ++ [(key, .table .declared inner)]
    | some _ => none) path .declared tree

/-- Adds a table with its pairs to the rows of a key. -/
def addRow? (tree : Tree) (path : List String) (key : String) (pairs : List (List String × String × Value)) :
    Option Tree :=
  changeAt? .implied (fun _ entries =>
    match entries.lookup key with
    | none => (putAll? [] pairs).map fun row => entries ++ [(key, .rows [row])]
    | some (.rows tables) => (putAll? [] pairs).map fun row => replace entries key (.rows (tables ++ [row]))
    | some _ => none) path .declared tree

end Tree

end CatalogSync.Toml
