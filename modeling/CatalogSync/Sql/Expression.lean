import CatalogSync.Sql.Reading

/-!
# Expressions of SQL

`expression` passes an expression and tells what it uses besides constants and functions. Only the
shape of an expression matters here: what it says is kept as text.
-/

namespace CatalogSync.Sql

/-- What an expression can use: a name that stands for a column, with its place, or something else
that varies. -/
inductive Use where
  | column (name : String) (offset : Nat)
  | other
deriving DecidableEq, Repr, Inhabited

/-- The uses of an expression and what follows it. -/
abbrev Passed := Except SqlFault (List Use × Reading)

def isOperator (t : Token) : Bool :=
  t.kind = .symbol && (longSymbols ++ ["+", "-", "*", "/", "%", "=", "<", ">", "&", "|"]).contains t.toText

/-- The words that compare texts. -/
def likeWords : List String := ["LIKE", "GLOB", "MATCH", "REGEXP"]

def isSign (t : Token) : Bool := ["+", "-", "~"].any t.isSymbol || t.isWord "NOT"

/-- The words that stand for values. -/
def isConstant (t : Token) : Bool :=
  ["NULL", "TRUE", "FALSE", "CURRENT_DATE", "CURRENT_TIME", "CURRENT_TIMESTAMP"].any t.isWord

/-- Whether a token is a value by itself. -/
def isLiteral (t : Token) : Bool := [Kind.number, .text, .blob].contains t.kind || isConstant t

/-- Passes tokens up to the parenthesis that closes what is open, and that parenthesis. -/
def pastQuery (depth : Nat) : List Token → Option (List Token)
  | [] => none
  | t :: rest =>
    if t.isSymbol "(" then pastQuery (depth + 1) rest
    else if t.isSymbol ")" then (if depth = 0 then some rest else pastQuery (depth - 1) rest)
    else pastQuery depth rest

/-- Passes a query in parentheses, after the opening one. -/
def query (r : Reading) (uses : List Use) : Passed :=
  match pastQuery 0 r.rest with
  | some rest => .ok (uses ++ [.other], { r with rest })
  | none => { r with rest := [] }.refuse

mutual

/-- Passes an expression. `joined` says that it may be made of several with `AND` and `OR`; `fuel`
exceeds the number of tokens several times. -/
def expression (fuel : Nat) (joined : Bool) (r : Reading) (uses : List Use) : Passed :=
  match fuel with
  | 0 => r.refuse
  | fuel + 1 => do
    let (uses, r) ← operand fuel r uses
    furtherOperands fuel joined r uses

/-- Passes what may follow an operand within an expression. -/
def furtherOperands (fuel : Nat) (joined : Bool) (r : Reading) (uses : List Use) : Passed :=
  match fuel with
  | 0 => r.refuse
  | fuel + 1 =>
    match r.rest with
    | [] => .ok (uses, r)
    | t :: _ =>
      if isOperator t then expression fuel joined r.skip uses
      else if t.isWord "AND" || t.isWord "OR" then
        if joined then expression fuel joined r.skip uses else .ok (uses, r)
      else if t.isWord "IS" then
        let r := r.skip.pastWord "NOT"
        if r.atWord "DISTINCT" then do expression fuel joined (← r.skip.word "FROM") uses
        else expression fuel joined r uses
      else if t.isWord "ISNULL" || t.isWord "NOTNULL" then furtherOperands fuel joined r.skip uses
      else if t.isWord "COLLATE" then do furtherOperands fuel joined (← r.skip.pastName) uses
      else if t.isWord "NOT" then
        if r.skip.atWord "NULL" then furtherOperands fuel joined r.skip.skip uses
        else if r.skip.atAnyWord ("IN" :: "BETWEEN" :: likeWords) then comparison fuel joined r.skip uses
        else r.skip.refuse
      else if r.atAnyWord ("IN" :: "BETWEEN" :: likeWords) then comparison fuel joined r uses
      else .ok (uses, r)

/-- Passes a comparison in words, from its word on. -/
def comparison (fuel : Nat) (joined : Bool) (r : Reading) (uses : List Use) : Passed :=
  match fuel with
  | 0 => r.refuse
  | fuel + 1 =>
    if r.atWord "BETWEEN" then do
      let (uses, r) ← expression fuel false r.skip uses
      expression fuel joined (← r.word "AND") uses
    else if r.atWord "IN" then do
      let r := r.skip
      if r.atSymbol "(" then
        let (uses, r) ← if r.skip.atSymbol ")" then pure (uses, r.skip.skip) else operands fuel r.skip uses
        furtherOperands fuel joined r uses
      else furtherOperands fuel joined (← r.pastName) (uses ++ [.other])
    else do
      let (uses, r) ← operand fuel r.skip uses
      if r.atWord "ESCAPE" then expression fuel joined r.skip uses else furtherOperands fuel joined r uses

/-- Passes an operand with the signs in front of it. -/
def operand (fuel : Nat) (r : Reading) (uses : List Use) : Passed :=
  match fuel with
  | 0 => r.refuse
  | fuel + 1 =>
    match r.rest with
    | [] => r.refuse
    | t :: _ =>
      if isSign t then operand fuel r.skip uses
      else if t.isSymbol "(" then operands fuel r.skip uses
      else if isLiteral t then .ok (uses, r.skip)
      else if t.kind = .variable then .ok (uses ++ [.other], r.skip)
      else if t.isWord "EXISTS" then do query (← r.skip.symbol "(") uses
      else if t.isWord "CASE" then do
        let (uses, r) ← if r.skip.atWord "WHEN" then pure (uses, r.skip) else expression fuel true r.skip uses
        cases fuel r uses
      else if t.isWord "CAST" then do
        let (uses, r) ← expression fuel true (← r.skip.symbol "(") uses
        let (_, r) ← writtenType (← r.word "AS")
        return (uses, ← r.symbol ")")
      else do
        let (n, offset, r) ← r.name
        if r.atSymbol "(" then arguments fuel r.skip uses
        else if r.atSymbol "." then qualified fuel r uses
        else return (uses ++ [.column n offset], r)

/-- Passes the names that points join to a name. -/
def qualified (fuel : Nat) (r : Reading) (uses : List Use) : Passed :=
  match fuel with
  | 0 => r.refuse
  | fuel + 1 => do
    let r ← r.skip.pastName
    if r.atSymbol "." then qualified fuel r uses else return (uses ++ [.other], r)

/-- Passes the cases of a choice. -/
def cases (fuel : Nat) (r : Reading) (uses : List Use) : Passed :=
  match fuel with
  | 0 => r.refuse
  | fuel + 1 => do
    let (uses, r) ← expression fuel true (← r.word "WHEN") uses
    let (uses, r) ← expression fuel true (← r.word "THEN") uses
    if r.atWord "WHEN" then cases fuel r uses
    else if r.atWord "ELSE" then
      let (uses, r) ← expression fuel true r.skip uses
      return (uses, ← r.word "END")
    else return (uses, ← r.word "END")

/-- Passes the arguments of a function and the parenthesis that closes them. -/
def arguments (fuel : Nat) (r : Reading) (uses : List Use) : Passed :=
  match fuel with
  | 0 => r.refuse
  | fuel + 1 =>
    if r.atSymbol ")" then .ok (uses, r.skip)
    else if r.atSymbol "*" then (r.skip.symbol ")").map fun r => (uses, r)
    else operands fuel (r.pastAnyWord ["DISTINCT", "ALL"]) uses

/-- Passes expressions between commas, or a query, and the parenthesis that closes them. -/
def operands (fuel : Nat) (r : Reading) (uses : List Use) : Passed :=
  match fuel with
  | 0 => r.refuse
  | fuel + 1 =>
    if r.atAnyWord ["SELECT", "VALUES", "WITH"] then query r uses
    else do
      let (uses, r) ← expression fuel true r uses
      if r.atSymbol "," then operands fuel r.skip uses
      else return (uses, ← r.symbol ")")

end

def Reading.expression (r : Reading) : Passed := Sql.expression r.fuel true r []

def Reading.enclosed (r : Reading) : Passed := do
  let (uses, r) ← (← r.symbol "(").expression
  return (uses, ← r.symbol ")")

end CatalogSync.Sql
